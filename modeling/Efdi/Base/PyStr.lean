import Mathlib.Data.List.DropRight
import Mathlib.Data.List.Infix

/-!
# Python strings

The string methods of Python that the program calls, on `String`.  A string is the
list of its code points, as in Python, so lengths and slices count code points.
-/

namespace PyStr

open List

/-- The length `len(s)`. -/
def len (s : String) : Nat := s.toList.length

/-- The slice `s[:n]`. -/
def take (n : Nat) (s : String) : String := String.ofList (s.toList.take n)

/-- The slice `s[n:]`. -/
def drop (n : Nat) (s : String) : String := String.ofList (s.toList.drop n)

/-- `s.startswith(p)`. -/
def startsWith (s p : String) : Bool := p.toList.isPrefixOf s.toList

/-- `s.endswith(p)`. -/
def endsWith (s p : String) : Bool := p.toList.isSuffixOf s.toList

/-- `s.split(c)` for a one character separator. -/
def split (c : Char) (s : String) : List String := (s.toList.splitOn c).map String.ofList

/-- `sep.join(parts)`. -/
def join (sep : String) (parts : List String) : String :=
  String.ofList (sep.toList.intercalate (parts.map String.toList))

/-- Drop the characters of `p` from both ends of a list. -/
def stripList (p : Char → Bool) (cs : List Char) : List Char :=
  (((cs.dropWhile p).reverse).dropWhile p).reverse

/-- `s.strip(c)` for a one character set. -/
def stripChar (c : Char) (s : String) : String := String.ofList (stripList (· == c) s.toList)

/-- `s.rstrip(c)` for a one character set. -/
def rstripChar (c : Char) (s : String) : String :=
  String.ofList ((s.toList.reverse.dropWhile (· == c)).reverse)

/-- `c.isspace()`, the characters `s.strip()` removes. -/
def isSpace (c : Char) : Bool :=
  (9 ≤ c.toNat && c.toNat ≤ 13) || (28 ≤ c.toNat && c.toNat ≤ 32) || c.toNat == 0x85 ||
    c.toNat == 0xa0 || c.toNat == 0x1680 || (0x2000 ≤ c.toNat && c.toNat ≤ 0x200a) ||
    c.toNat == 0x2028 || c.toNat == 0x2029 || c.toNat == 0x202f || c.toNat == 0x205f ||
    c.toNat == 0x3000

/-- `s.strip()`. -/
def strip (s : String) : String := String.ofList (stripList isSpace s.toList)

/-- `s.removesuffix(p)`. -/
def removeSuffix (s p : String) : String :=
  if endsWith s p && p != "" then take (len s - len p) s else s

/-- `s.replace(old, new)` on characters, for an `old` that is not empty.  `skip` characters
belong to an occurrence that was replaced. -/
def replaceList (old new : List Char) : Nat → List Char → List Char
  | _, [] => []
  | skip + 1, _ :: cs => replaceList old new skip cs
  | 0, c :: cs =>
    if old.isPrefixOf (c :: cs) then new ++ replaceList old new (old.length - 1) cs
    else c :: replaceList old new 0 cs

/-- `s.replace(old, new)`. -/
def replace (old new s : String) : String :=
  String.ofList (replaceList old.toList new.toList 0 s.toList)

/-- `old in s` on characters. -/
def containsList (old : List Char) : List Char → Bool
  | [] => old.isEmpty
  | c :: cs => old.isPrefixOf (c :: cs) || containsList old cs

/-- `old in s`. -/
def contains (old s : String) : Bool := containsList old.toList s.toList

/-- `c.lower()` for the characters whose lower case is in the ASCII range: the ASCII
capitals and the Kelvin sign. -/
def lowerChar (c : Char) : Char := if c.toNat = 0x212a then 'k' else c.toLower

/-- `s.lower()`, where the letters outside the ASCII range are left as they are. -/
def lower (s : String) : String := String.ofList (s.toList.map lowerChar)

/-- A text file as `open(path).read()` gives it: `\r\n` and `\r` become `\n`.  The flag says
that the character before was `\r`. -/
def newlinesList : Bool → List Char → List Char
  | _, [] => []
  | afterReturn, c :: cs =>
    if c = '\r' then '\n' :: newlinesList true cs
    else if afterReturn && c = '\n' then newlinesList false cs
    else c :: newlinesList false cs

/-- `open(path).read()` of a file with the text `s`. -/
def newlines (s : String) : String := String.ofList (newlinesList false s.toList)

/-- Every character of `s` passes `p` and the length lies between `lo` and `hi`: the
pattern `[p]{lo,hi}` matched against the whole of `s`. -/
def classMatch (p : Char → Bool) (lo hi : Nat) (s : String) : Bool :=
  lo ≤ len s && len s ≤ hi && s.toList.all p

/-! ## Splitting and joining -/

theorem split_ne_nil (c : Char) (s : String) : split c s ≠ [] := by
  simp [split, splitOn_ne_nil]

/-- Joining the parts of a split gives the string back. -/
theorem join_split (c : Char) (s : String) : join (String.ofList [c]) (split c s) = s := by
  have hparts : (split c s).map String.toList = s.toList.splitOn c := by
    simp [split, Function.comp_def]
  rw [join, hparts, String.toList_ofList, intercalate_splitOn, String.ofList_toList]

variable {c : Char} {s : String} {parts : List String}

/-- A split determines the string. -/
theorem split_inj {t : String} (h : split c s = split c t) : s = t := by
  rw [← join_split c s, h, join_split c t]

theorem stripList_stripList (p : Char → Bool) (cs : List Char) :
    stripList p (stripList p cs) = stripList p cs := by
  -- the front of the stripped list is the front of the list stripped on the left
  have hfront : (stripList p cs).dropWhile p = stripList p cs := by
    rw [dropWhile_eq_self_iff]
    intro hlen
    have hpre : stripList p cs <+: cs.dropWhile p := by
      have hsuf := dropWhile_suffix p (l := (cs.dropWhile p).reverse)
      simpa [stripList] using reverse_prefix.mpr hsuf
    rw [hpre.getElem hlen]
    exact dropWhile_get_zero_not p cs _
  rw [stripList, hfront, stripList, reverse_reverse, dropWhile_idempotent]

theorem stripChar_stripChar (c : Char) (s : String) :
    stripChar c (stripChar c s) = stripChar c s := by
  rw [stripChar, stripChar, String.toList_ofList, stripList_stripList]

theorem mem_of_mem_stripChar {d : Char} (h : d ∈ (stripChar c s).toList) :
    d ∈ s.toList := by
  rw [stripChar, String.toList_ofList, stripList, mem_reverse] at h
  have hdrop := mem_reverse.mp ((dropWhile_suffix _).subset h)
  exact (dropWhile_suffix _).subset hdrop

/-- A joined string has the characters of its parts and of the separator. -/
theorem mem_join {sep : String} (h : c ∈ (join sep parts).toList) :
    c ∈ sep.toList ∨ ∃ part ∈ parts, c ∈ part.toList := by
  rw [join, String.toList_ofList, List.intercalate, mem_flatten] at h
  obtain ⟨cs, hcs, hc⟩ := h
  have hmem : cs = sep.toList ∨ cs ∈ parts.map String.toList := by
    induction parts with
    | nil => cases hcs
    | cons part parts ih =>
      cases parts with
      | nil => exact .inr hcs
      | cons part' parts =>
        rcases mem_cons.mp hcs with rfl | hcs
        · exact .inr mem_cons_self
        · rcases mem_cons.mp hcs with rfl | hcs
          · exact .inl rfl
          · exact (ih hcs).imp_right (mem_cons_of_mem _)
  rcases hmem with rfl | hmem
  · exact .inl hc
  · obtain ⟨part, hpart, rfl⟩ := mem_map.mp hmem
    exact .inr ⟨part, hpart, hc⟩

/-- A part of a split has characters of the string only. -/
theorem mem_of_mem_split {d : Char} {part : String} (hpart : part ∈ split c s)
    (hd : d ∈ part.toList) : d ∈ s.toList := by
  have hsub : ∀ cs : List Char, ∀ p ∈ cs.splitOn c, p ⊆ cs := by
    intro cs
    induction cs with
    | nil =>
      intro p hp
      simp [splitOn_nil] at hp
      simp [hp]
    | cons x cs ih =>
      intro p hp
      rw [splitOn_cons_eq_if_modifyHead] at hp
      split at hp
      · rcases mem_cons.mp hp with rfl | hp
        · exact nil_subset _
        · exact subset_cons_of_subset _ (ih p hp)
      · cases hrest : cs.splitOn c with
        | nil => exact absurd hrest (splitOn_ne_nil _ _)
        | cons q qs =>
          rw [hrest] at hp ih
          rcases mem_cons.mp hp with rfl | hp
          · exact cons_subset_cons _ (ih q mem_cons_self)
          · exact subset_cons_of_subset _ (ih p (mem_cons_of_mem _ hp))
  obtain ⟨p, hp, rfl⟩ := mem_map.mp hpart
  rw [String.toList_ofList] at hd
  exact hsub _ p hp hd

/-- A part of a split has no separator. -/
theorem notMem_of_mem_split {part : String} (hpart : part ∈ split c s) :
    c ∉ part.toList := by
  have hparts : ∀ cs : List Char, ∀ p ∈ cs.splitOn c, c ∉ p := by
    intro cs
    induction cs with
    | nil =>
      intro p hp
      simp [splitOn_nil] at hp
      simp [hp]
    | cons x cs ih =>
      intro p hp
      rw [splitOn_cons_eq_if_modifyHead] at hp
      split at hp
      · rcases mem_cons.mp hp with rfl | hp
        · exact not_mem_nil
        · exact ih p hp
      · next hx =>
        cases hrest : cs.splitOn c with
        | nil => exact absurd hrest (splitOn_ne_nil _ _)
        | cons q qs =>
          rw [hrest] at hp ih
          rcases mem_cons.mp hp with rfl | hp
          · intro hmem
            rcases mem_cons.mp hmem with rfl | hmem
            · exact hx (beq_self_eq_true c)
            · exact ih q mem_cons_self hmem
          · exact ih p (.tail _ hp)
  obtain ⟨p, hp, rfl⟩ := mem_map.mp hpart
  rw [String.toList_ofList]
  exact hparts _ p hp

/-- A string without the separator is its only part. -/
theorem split_of_notMem (h : c ∉ s.toList) : split c s = [s] := by
  rw [split, splitOn_eq_singleton h, map_singleton, String.ofList_toList]

theorem stripChar_of_notMem (h : c ∉ s.toList) : stripChar c s = s := by
  have hkeep : ∀ cs : List Char, c ∉ cs → cs.dropWhile (· == c) = cs := by
    intro cs hcs
    cases cs with
    | nil => rfl
    | cons x cs =>
      refine dropWhile_cons_of_neg ?_
      intro hx
      exact hcs (by simpa using .inl (beq_iff_eq.mp hx).symm)
  rw [stripChar, stripList, hkeep _ h, hkeep _ (by simpa using h), reverse_reverse,
    String.ofList_toList]

/-! ## Blanks and newlines -/

theorem return_notMem_newlinesList (afterReturn : Bool) (cs : List Char) :
    '\r' ∉ newlinesList afterReturn cs := by
  induction cs generalizing afterReturn with
  | nil => exact not_mem_nil
  | cons c cs ih =>
    rw [newlinesList]
    split_ifs with hc hskip
    · rw [mem_cons, not_or]
      exact ⟨by decide, ih true⟩
    · exact ih false
    · rw [mem_cons, not_or]
      exact ⟨Ne.symm hc, ih false⟩

theorem return_notMem_newlines (s : String) : '\r' ∉ (newlines s).toList := by
  rw [newlines, String.toList_ofList]
  exact return_notMem_newlinesList _ _

/-- Reading leaves a text without `\r` as it is. -/
theorem newlines_of_notMem (h : '\r' ∉ s.toList) : newlines s = s := by
  have hkeep : ∀ cs : List Char, '\r' ∉ cs → newlinesList false cs = cs := by
    intro cs
    induction cs with
    | nil => exact fun _ => rfl
    | cons c cs ih =>
      intro hcs
      rw [mem_cons, not_or] at hcs
      rw [newlinesList, if_neg (Ne.symm hcs.1), if_neg (by simp), ih hcs.2]
  rw [newlines, hkeep _ h, String.ofList_toList]

theorem newlines_eq_self_iff : newlines s = s ↔ '\r' ∉ s.toList :=
  ⟨fun h => h ▸ return_notMem_newlines s, newlines_of_notMem⟩

/-- Reading keeps the characters other than line ends. -/
theorem mem_newlinesList (hreturn : c ≠ '\r') (hline : c ≠ '\n') (afterReturn : Bool)
    (cs : List Char) : c ∈ newlinesList afterReturn cs ↔ c ∈ cs := by
  induction cs generalizing afterReturn with
  | nil => exact Iff.rfl
  | cons d cs ih =>
    rw [newlinesList, mem_cons]
    split_ifs with hd hskip
    · rw [mem_cons, ih, hd]
      simp [hreturn, hline]
    · have hne : d = '\n' := by simp at hskip; exact hskip.2
      rw [ih, hne]
      simp [hline]
    · rw [mem_cons, ih]

theorem stripList_eq_nil {p : Char → Bool} {cs : List Char} :
    stripList p cs = [] ↔ ∀ c ∈ cs, p c = true := by
  rw [stripList, reverse_eq_nil_iff, dropWhile_eq_nil_iff]
  constructor
  · intro h
    have hnil : cs.dropWhile p = [] := by
      by_contra hne
      have hhead := h _ (mem_reverse.mpr (head_mem hne))
      exact absurd hhead (by simpa using head_dropWhile_not p hne)
    exact dropWhile_eq_nil_iff.mp hnil
  · intro h c hc
    exact h c ((dropWhile_suffix _).subset (mem_reverse.mp hc))

/-- A blank at the end makes no difference to a stripped text. -/
theorem stripList_concat {p : Char → Bool} {x : Char} (hx : p x = true) (cs : List Char) :
    stripList p (cs ++ [x]) = stripList p cs := by
  rw [stripList, stripList, List.dropWhile_append]
  split_ifs with hnil
  · rw [List.isEmpty_iff] at hnil
    rw [hnil, List.dropWhile_cons_of_pos hx]
    rfl
  · rw [List.reverse_append, List.reverse_singleton, List.singleton_append,
      List.dropWhile_cons_of_pos hx]

theorem strip_append_newline (s : String) : strip (s ++ "\n") = strip s := by
  rw [strip, strip, String.toList_append]
  exact congrArg String.ofList (stripList_concat (by decide) _)

theorem strip_strip (s : String) : strip (strip s) = strip s := by
  rw [strip, strip, String.toList_ofList, stripList_stripList]

theorem strip_of_forall (h : ∀ c ∈ s.toList, isSpace c = false) : strip s = s := by
  have hkeep : ∀ cs : List Char, (∀ c ∈ cs, isSpace c = false) → cs.dropWhile isSpace = cs := by
    intro cs hcs
    cases cs with
    | nil => rfl
    | cons x cs =>
      exact dropWhile_cons_of_neg (by rw [hcs x mem_cons_self]; exact Bool.false_ne_true)
  rw [strip, stripList, hkeep _ h, hkeep _ fun c hc => h c (mem_reverse.mp hc),
    reverse_reverse, String.ofList_toList]

theorem strip_eq_empty : strip s = "" ↔ ∀ c ∈ s.toList, isSpace c = true := by
  rw [← stripList_eq_nil, strip, ← String.toList_inj, String.toList_ofList]
  rfl

theorem mem_of_mem_strip (h : c ∈ (strip s).toList) : c ∈ s.toList := by
  rw [strip, String.toList_ofList, stripList, mem_reverse] at h
  have hdrop := mem_reverse.mp ((dropWhile_suffix _).subset h)
  exact (dropWhile_suffix _).subset hdrop

theorem drop_append (s t : String) : drop (len s) (s ++ t) = t := by
  rw [drop, len, String.toList_append, drop_left, String.ofList_toList]

theorem startsWith_append (s t : String) : startsWith (s ++ t) s = true := by
  rw [startsWith, isPrefixOf_iff_prefix, String.toList_append]
  exact prefix_append _ _

theorem startsWith_iff {p : String} : startsWith s p = true ↔ ∃ t, s = p ++ t := by
  rw [startsWith, isPrefixOf_iff_prefix]
  constructor
  · rintro ⟨cs, hcs⟩
    refine ⟨String.ofList cs, String.toList_inj.mp ?_⟩
    rw [String.toList_append, String.toList_ofList, hcs]
  · rintro ⟨t, rfl⟩
    exact ⟨t.toList, String.toList_append.symm⟩

theorem containsList_iff {old cs : List Char} : containsList old cs = true ↔ old <:+: cs := by
  induction cs with
  | nil => rw [containsList, List.isEmpty_iff, List.infix_nil]
  | cons c cs ih => rw [containsList, Bool.or_eq_true, ih, List.infix_cons_iff, List.isPrefixOf_iff_prefix]

theorem contains_append (s old t : String) : contains old (s ++ old ++ t) = true := by
  rw [contains, containsList_iff, String.toList_append, String.toList_append]
  exact infix_append _ _ _

/-- A separator between two strings splits them apart. -/
theorem split_append (c : Char) (s t : String) :
    split c (s ++ (String.ofList [c] ++ t)) = split c s ++ split c t := by
  rw [split, String.toList_append, String.toList_append, String.toList_ofList,
    singleton_append, splitOn_append_cons_self, map_append, split, split]

/-- Splitting joined parts gives the parts back. -/
theorem split_join (hne : parts ≠ []) (h : ∀ part ∈ parts, c ∉ part.toList) :
    split c (join (String.ofList [c]) parts) = parts := by
  rw [split, join, String.toList_ofList, String.toList_ofList, splitOn_intercalate]
  · simp
  · simpa using h
  · simpa using hne

/-- Strings that start with parts of one length agree in these parts. -/
theorem append_inj {s' t t' : String} (hlen : len s = len s') (h : s ++ t = s' ++ t') :
    s = s' ∧ t = t' := by
  have hlist := congrArg String.toList h
  rw [String.toList_append, String.toList_append] at hlist
  obtain ⟨hs, ht⟩ := List.append_inj hlist hlen
  exact ⟨String.toList_inj.mp hs, String.toList_inj.mp ht⟩

theorem join_singleton (sep part : String) : join sep [part] = part := by
  rw [join, map_singleton, intercalate_singleton, String.ofList_toList]

theorem join_cons (sep part : String) (h : parts ≠ []) :
    join sep (part :: parts) = part ++ (sep ++ join sep parts) := by
  rw [join, map_cons, intercalate_cons_of_ne_nil (by simpa using h), join,
    String.ofList_append, String.ofList_append, String.ofList_toList, String.ofList_toList,
    String.append_assoc]

/-- The last part of a joined string follows the others. -/
theorem join_concat (sep : String) : ∀ {parts : List String} (part : String), parts ≠ [] →
    join sep (parts ++ [part]) = join sep parts ++ (sep ++ part)
  | [], _, h => absurd rfl h
  | [first], part, _ => by
    rw [singleton_append, join_cons sep first (by simp), join_singleton, join_singleton]
  | first :: second :: parts, part, _ => by
    rw [cons_append, join_cons sep first (by simp),
      join_concat sep part (cons_ne_nil second parts), join_cons sep first (by simp),
      String.append_assoc, String.append_assoc]

theorem removeSuffix_append (s p : String) (h : p ≠ "") : removeSuffix (s ++ p) p = s := by
  have hends : endsWith (s ++ p) p = true := by
    rw [endsWith, isSuffixOf_iff_suffix, String.toList_append]
    exact suffix_append _ _
  have hlen : len (s ++ p) - len p = s.toList.length := by
    rw [len, len, String.toList_append, length_append, Nat.add_sub_cancel]
  rw [removeSuffix, if_pos (by rw [hends]; simpa using h), take, hlen, String.toList_append,
    take_left, String.ofList_toList]

theorem mem_of_mem_removeSuffix {p : String} (h : c ∈ (removeSuffix s p).toList) :
    c ∈ s.toList := by
  rw [removeSuffix] at h
  split at h
  · rw [take, String.toList_ofList] at h
    exact mem_of_mem_take h
  · exact h

example : split '/' "a/b/**" = ["a", "b", "**"] := by decide

/-- Replacing brings in characters of the new text only. -/
theorem mem_replaceList {old new : List Char} : ∀ {skip : Nat} {cs : List Char},
    c ∈ replaceList old new skip cs → c ∈ new ∨ c ∈ cs
  | _, [], h => Or.inr h
  | skip + 1, _ :: cs, h => by
    rw [replaceList] at h
    exact (mem_replaceList h).imp_right (mem_cons_of_mem _)
  | 0, d :: cs, h => by
    rw [replaceList] at h
    split at h
    · rcases mem_append.mp h with hnew | hrest
      · exact Or.inl hnew
      · exact (mem_replaceList hrest).imp_right (mem_cons_of_mem _)
    · rcases mem_cons.mp h with rfl | hrest
      · exact Or.inr mem_cons_self
      · exact (mem_replaceList hrest).imp_right (mem_cons_of_mem _)

theorem mem_replace {old new : String} (h : c ∈ (replace old new s).toList) :
    c ∈ new.toList ∨ c ∈ s.toList := by
  rw [replace, String.toList_ofList] at h
  exact mem_replaceList h

end PyStr
