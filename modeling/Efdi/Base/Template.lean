import Efdi.Base.PyStr

/-!
# Templates filled by replacing

A template is a text with placeholders of the form `${KEY}`, and it is filled by one
`str.replace` after the other.  `pieces` takes the text apart into its characters and
its placeholders.  As long as the text has no other dollar sign and no value has one,
the replacements are what they are meant to be: `replaceAll_eq` says that they fill the
holes and change nothing else.
-/

namespace Template

open List

/-- A piece of a template. -/
inductive Piece where
  | text (s : List Char)
  | hole (key : String)
deriving DecidableEq

/-- The placeholder of a key. -/
def placeholder (key : String) : List Char := '$' :: '{' :: (key.toList ++ ['}'])

/-- The text of a piece. -/
def Piece.source : Piece → List Char
  | .text s => s
  | .hole key => placeholder key

/-- The text of a template. -/
def source (ps : List Piece) : List Char := ps.flatMap Piece.source

/-- The pieces of a text, from inside a key that was opened or from outside. -/
def scan : Option (List Char) → List Char → List Piece
  | none, [] => []
  | none, '$' :: '{' :: cs => scan (some []) cs
  | none, c :: cs => .text [c] :: scan none cs
  | some key, [] => [.text ('$' :: '{' :: key)]
  | some key, c :: cs =>
    if c = '}' then .hole (String.ofList key) :: scan none cs else scan (some (key ++ [c])) cs

/-- The pieces of a text. -/
def pieces (cs : List Char) : List Piece := scan none cs

theorem source_scan (key : Option (List Char)) (cs : List Char) :
    source (scan key cs) = (key.elim [] fun k => '$' :: '{' :: k) ++ cs := by
  fun_induction scan key cs with
  | case1 => rfl
  | case2 cs ih => exact ih
  | case3 c cs _ ih => exact congrArg (c :: ·) ih
  | case4 key => simp [source, Piece.source]
  | case5 key cs ih =>
    rw [source] at ih
    rw [source, flatMap_cons, ih, Piece.source, placeholder, String.toList_ofList]
    simp
  | case6 key c cs hc ih => simpa using ih

/-- Put a value into the holes of a key. -/
def Piece.put (key value : String) : Piece → Piece
  | .text s => .text s
  | .hole k => if k = key then .text value.toList else .hole k

/-- The text has no dollar sign, and the key has neither that nor a closing brace. -/
def Piece.plain : Piece → Bool
  | .text s => !s.contains '$'
  | .hole key => !key.toList.contains '$' && !key.toList.contains '}'

/-- The key of a placeholder ends where the brace closes. -/
theorem key_of_placeholder {key k : String} {rest : List Char} (hkey : '}' ∉ key.toList)
    (hk : '}' ∉ k.toList) (h : placeholder key <+: placeholder k ++ rest) : key = k := by
  have hends : ∀ {as bs cs ds : List Char}, '}' ∉ as → '}' ∉ bs →
      as ++ '}' :: cs = bs ++ '}' :: ds → as = bs := by
    intro as
    induction as with
    | nil =>
      intro bs cs ds _ hbs heq
      cases bs with
      | nil => rfl
      | cons b bs =>
        obtain ⟨rfl, _⟩ := List.cons.inj heq
        exact absurd List.mem_cons_self hbs
    | cons a as ih =>
      intro bs cs ds has hbs heq
      cases bs with
      | nil =>
        obtain ⟨rfl, _⟩ := List.cons.inj heq
        exact absurd List.mem_cons_self has
      | cons b bs =>
        obtain ⟨rfl, htail⟩ := List.cons.inj heq
        rw [ih (fun hm => has (.tail _ hm))
          (fun hm => hbs (.tail _ hm)) htail]
  obtain ⟨tail, htail⟩ := h
  simp only [placeholder, List.cons_append, List.append_assoc, List.cons.injEq, true_and,
    List.nil_append] at htail
  exact String.toList_inj.mp (hends hkey hk htail)

section Scan

variable {old : List Char} {value : List Char}

/-- No occurrence of `old` starts in `cs`, which `rest` follows. -/
def Passes (old cs rest : List Char) : Prop :=
  ∀ as, as ≠ [] → as <:+ cs → ¬old <+: as ++ rest

theorem Passes.tail {c : Char} {cs rest : List Char} (h : Passes old (c :: cs) rest) :
    Passes old cs rest :=
  fun as hne has => h as hne (has.trans (suffix_cons c cs))

theorem Passes.head {c : Char} {cs rest : List Char} (h : Passes old (c :: cs) rest) :
    old.isPrefixOf (c :: (cs ++ rest)) = false := by
  rw [← Bool.not_eq_true, isPrefixOf_iff_prefix]
  exact h (c :: cs) (cons_ne_nil c cs) (suffix_refl _)

theorem replaceList_pass : ∀ {cs rest : List Char}, Passes old cs rest →
    PyStr.replaceList old value 0 (cs ++ rest) = cs ++ PyStr.replaceList old value 0 rest
  | [], rest, _ => rfl
  | c :: cs, rest, h => by
    rw [cons_append, PyStr.replaceList, h.head, if_neg Bool.false_ne_true,
      replaceList_pass h.tail, cons_append]

theorem containsList_pass : ∀ {cs rest : List Char}, Passes old cs rest →
    PyStr.containsList old (cs ++ rest) = PyStr.containsList old rest
  | [], rest, _ => rfl
  | c :: cs, rest, h => by
    rw [cons_append, PyStr.containsList, h.head, Bool.false_or, containsList_pass h.tail]

/-- The characters of an occurrence are dropped. -/
theorem replaceList_skip : ∀ (cs rest : List Char),
    PyStr.replaceList old value cs.length (cs ++ rest) = PyStr.replaceList old value 0 rest
  | [], rest => rfl
  | c :: cs, rest => by
    rw [cons_append, length_cons, PyStr.replaceList, replaceList_skip cs rest]

/-- An occurrence is replaced. -/
theorem replaceList_self {c : Char} {cs : List Char} (rest : List Char) :
    PyStr.replaceList (c :: cs) value 0 (c :: cs ++ rest) =
      value ++ PyStr.replaceList (c :: cs) value 0 rest := by
  have hstart : (c :: cs).isPrefixOf (c :: (cs ++ rest)) = true :=
    isPrefixOf_iff_prefix.mpr (prefix_append (c :: cs) rest)
  rw [cons_append, PyStr.replaceList, hstart, if_pos rfl, length_cons,
    Nat.add_sub_cancel, replaceList_skip]

/-- A text without a dollar sign is passed over. -/
theorem passes_text {key : String} {cs : List Char} (hcs : '$' ∉ cs) (rest : List Char) :
    Passes (placeholder key) cs rest := by
  rintro as hne has ⟨tail, htail⟩
  cases as with
  | nil => exact hne rfl
  | cons a as =>
    obtain ⟨rfl, _⟩ := List.cons.inj htail
    exact hcs (has.subset mem_cons_self)

/-- The placeholder of another key is passed over. -/
theorem passes_hole {key k : String} (hkey : '}' ∉ key.toList) (hk : (Piece.hole k).plain = true)
    (hne : k ≠ key) (rest : List Char) : Passes (placeholder key) (placeholder k) rest := by
  simp only [Piece.plain, Bool.and_eq_true, Bool.not_eq_true', List.contains_eq_mem,
    decide_eq_false_iff_not] at hk
  intro as hnil has hstart
  rcases List.suffix_cons_iff.mp has with rfl | htail
  · exact hne (key_of_placeholder hkey hk.2 hstart).symm
  · have hdollar : '$' ∉ ('{' :: (k.toList ++ ['}']) : List Char) := by simp [hk.1]
    exact passes_text hdollar rest as hnil htail hstart

end Scan

section Pieces

variable {key : String} (hkey : (Piece.hole key).plain = true)
include hkey

theorem brace_notMem : '}' ∉ key.toList := by
  simp only [Piece.plain, Bool.and_eq_true, Bool.not_eq_true', List.contains_eq_mem,
    decide_eq_false_iff_not] at hkey
  exact hkey.2

/-- Replacing a placeholder puts the value into its holes. -/
theorem replaceList_source (value : String) : ∀ {ps : List Piece}, (∀ p ∈ ps, p.plain = true) →
    PyStr.replaceList (placeholder key) value.toList 0 (source ps) =
      source (ps.map (Piece.put key value))
  | [], _ => rfl
  | p :: ps, hps => by
    have ih := replaceList_source value fun q hq => hps q (.tail _ hq)
    have hp := hps p mem_cons_self
    rw [source, flatMap_cons, map_cons, source, flatMap_cons]
    cases p with
    | text s =>
      have hs : '$' ∉ s := by simpa [Piece.plain] using hp
      exact (replaceList_pass (passes_text hs _)).trans (congrArg (s ++ ·) ih)
    | hole k =>
      by_cases hk : k = key
      · subst hk
        rw [Piece.put, if_pos rfl]
        exact (replaceList_self _).trans (congrArg (value.toList ++ ·) ih)
      · rw [Piece.put, if_neg hk]
        exact (replaceList_pass (passes_hole (brace_notMem hkey) hp hk _)).trans
          (congrArg (placeholder k ++ ·) ih)

/-- A placeholder occurs in a template when a hole of its key does. -/
theorem containsList_source : ∀ {ps : List Piece}, (∀ p ∈ ps, p.plain = true) →
    .hole key ∉ ps → PyStr.containsList (placeholder key) (source ps) = false
  | [], _, _ => rfl
  | p :: ps, hps, hmem => by
    have ih := containsList_source (fun q hq => hps q (.tail _ hq))
      fun hm => hmem (.tail _ hm)
    have hp := hps p mem_cons_self
    rw [source, flatMap_cons]
    cases p with
    | text s =>
      have hs : '$' ∉ s := by simpa [Piece.plain] using hp
      exact (containsList_pass (passes_text hs _)).trans ih
    | hole k =>
      have hk : k ≠ key := by
        rintro rfl
        exact hmem mem_cons_self
      exact (containsList_pass (passes_hole (brace_notMem hkey) hp hk _)).trans ih

end Pieces

/-! ## All replacements -/

/-- One replacement for each key. -/
def replaceAll (subs : List (String × String)) (s : String) : String :=
  subs.foldl (fun s kv => PyStr.replace (String.ofList (placeholder kv.1)) kv.2 s) s

/-- A filled text has characters of the template and of the values only. -/
theorem mem_replaceAll {c : Char} : ∀ {subs : List (String × String)} {s : String},
    c ∈ (replaceAll subs s).toList → (∃ kv ∈ subs, c ∈ kv.2.toList) ∨ c ∈ s.toList
  | [], _, h => Or.inr h
  | kv :: subs, s, h => by
    rw [replaceAll, foldl_cons] at h
    rcases mem_replaceAll h with ⟨kv', hmem, hc⟩ | hs
    · exact Or.inl ⟨kv', .tail _ hmem, hc⟩
    · exact (PyStr.mem_replace hs).imp_left fun hc => ⟨kv, .head _, hc⟩

/-- The first value of a key. -/
def valueOf (key : String) : List (String × String) → Option String
  | [] => none
  | (k, v) :: subs => if key = k then some v else valueOf key subs

theorem valueOf_of_mem {key value : String} : ∀ {subs : List (String × String)},
    (subs.map Prod.fst).Nodup → (key, value) ∈ subs → valueOf key subs = some value
  | (k, v) :: subs, hnodup, hmem => by
    obtain ⟨hk, hnodup⟩ := nodup_cons.mp hnodup
    rcases mem_cons.mp hmem with heq | hrest
    · cases heq
      exact if_pos rfl
    · have hne : key ≠ k := by
        intro heq
        exact hk (mem_map.mpr ⟨_, hrest, heq⟩)
      rw [valueOf, if_neg hne, valueOf_of_mem hnodup hrest]

/-- A piece after all replacements. -/
def Piece.resolve (subs : List (String × String)) : Piece → Piece
  | .text s => .text s
  | .hole key =>
    match valueOf key subs with
    | some value => .text value.toList
    | none => .hole key

theorem put_resolve (key value : String) (subs : List (String × String)) (p : Piece) :
    (p.put key value).resolve subs = p.resolve ((key, value) :: subs) := by
  cases p with
  | text s => rfl
  | hole k =>
    by_cases hk : k = key
    · rw [Piece.put, if_pos hk, Piece.resolve, Piece.resolve, valueOf, if_pos hk]
    · rw [Piece.put, if_neg hk, Piece.resolve, Piece.resolve, valueOf, if_neg hk]

theorem plain_put {key value : String} (hvalue : '$' ∉ value.toList) {p : Piece}
    (hp : p.plain = true) : (p.put key value).plain = true := by
  cases p with
  | text s => exact hp
  | hole k =>
    rw [Piece.put]
    split
    · simpa [Piece.plain] using hvalue
    · exact hp

/-- The replacements fill the holes of the pieces. -/
theorem replaceAll_source : ∀ {subs : List (String × String)} {ps : List Piece},
    (∀ kv ∈ subs, (Piece.hole kv.1).plain = true ∧ '$' ∉ kv.2.toList) →
      (∀ p ∈ ps, p.plain = true) →
        replaceAll subs (String.ofList (source ps)) =
          String.ofList (source (ps.map (Piece.resolve subs)))
  | [], ps, _, _ => by
    have hid : Piece.resolve [] = id := by
      funext p
      cases p <;> rfl
    rw [hid, map_id]
    rfl
  | (key, value) :: subs, ps, hsubs, hps => by
    obtain ⟨hkey, hvalue⟩ := hsubs (key, value) mem_cons_self
    have hput : ∀ p ∈ ps.map (Piece.put key value), p.plain = true := by
      intro p hp
      obtain ⟨q, hq, rfl⟩ := mem_map.mp hp
      exact plain_put hvalue (hps q hq)
    have hresolve : (ps.map (Piece.put key value)).map (Piece.resolve subs) =
        ps.map (Piece.resolve ((key, value) :: subs)) := by
      rw [map_map]
      exact map_congr_left fun p _ => put_resolve key value subs p
    rw [replaceAll, foldl_cons, PyStr.replace, String.toList_ofList, String.toList_ofList,
      replaceList_source hkey value hps, ← hresolve]
    exact replaceAll_source (fun kv hkv => hsubs kv (.tail _ hkv)) hput

/-- The replacements fill the placeholders of a text and change nothing else. -/
theorem replaceAll_eq {subs : List (String × String)} {cs : List Char}
    (hsubs : ∀ kv ∈ subs, (Piece.hole kv.1).plain = true ∧ '$' ∉ kv.2.toList)
    (hcs : ∀ p ∈ pieces cs, p.plain = true) :
    replaceAll subs (String.ofList cs) =
      String.ofList (source ((pieces cs).map (Piece.resolve subs))) := by
  rw [← replaceAll_source hsubs hcs]
  exact congrArg (replaceAll subs <| String.ofList ·) (source_scan none cs).symm

/-- No placeholder of a substituted key is left. -/
theorem contains_replaceAll {subs : List (String × String)} {cs : List Char}
    (hsubs : ∀ kv ∈ subs, (Piece.hole kv.1).plain = true ∧ '$' ∉ kv.2.toList)
    (hcs : ∀ p ∈ pieces cs, p.plain = true) {key : String} (hkey : key ∈ subs.map Prod.fst) :
    PyStr.contains (String.ofList (placeholder key)) (replaceAll subs (String.ofList cs)) =
      false := by
  have hmem : ∀ {k v : String} {subs : List (String × String)}, valueOf k subs = some v →
      (k, v) ∈ subs := by
    intro k v subs
    induction subs with
    | nil =>
      intro h
      cases h
    | cons kv subs ih =>
      intro h
      rw [valueOf] at h
      split at h
      next heq =>
        cases h
        rw [heq]
        exact mem_cons_self
      · exact .tail _ (ih h)
  have hvalue : ∀ {subs : List (String × String)}, key ∈ subs.map Prod.fst →
      valueOf key subs ≠ none := by
    intro subs
    induction subs with
    | nil =>
      intro h
      cases h
    | cons kv subs ih =>
      intro h
      rw [valueOf]
      split
      · exact Option.some_ne_none _
      next hne =>
        exact ih ((mem_cons.mp h).resolve_left hne)
  have hresolved : ∀ p ∈ (pieces cs).map (Piece.resolve subs), p.plain = true ∧ p ≠ .hole key := by
    intro p hp
    obtain ⟨q, hq, rfl⟩ := mem_map.mp hp
    cases q with
    | text s => exact ⟨hcs _ hq, fun h => by cases h⟩
    | hole k =>
      rw [Piece.resolve]
      split
      next v hv =>
        refine ⟨?_, fun h => by cases h⟩
        have hdollar := (hsubs _ (hmem hv)).2
        simpa [Piece.plain] using hdollar
      next hnone =>
        refine ⟨hcs _ hq, fun h => ?_⟩
        cases h
        exact hvalue hkey hnone
  have hplain : (Piece.hole key).plain = true := by
    obtain ⟨kv, hkv, rfl⟩ := mem_map.mp hkey
    exact (hsubs kv hkv).1
  rw [PyStr.contains, replaceAll_eq hsubs hcs, String.toList_ofList, String.toList_ofList]
  exact containsList_source hplain (fun p hp => (hresolved p hp).1)
    fun h => (hresolved _ h).2 rfl

end Template
