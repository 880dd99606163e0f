import Efdi.Tak.Ip1Reader
import Efdi.Tak.Ingress

/-!
# How the socket cuts the stream

A framed document is returned as it is, however it is cut (`readAll_framed`).  A buffer of bare
documents is decoded while a character may not be complete yet, so a border inside a character
spoils it.  A bare document is found by its tags, so it is returned unchanged only if it begins
with the opening tag of its root and ends with the first closing tag.  Behind a bare document a
header is decoded as text.

When no framed document stands behind a bare one, the stream comes out unchanged exactly when
every bare document is whole and no border stands inside one of its characters
(`documents_unchanged_iff`).
-/

namespace Efdi.Tak.Ip1Reader

open List

/-- The message type of a kind. -/
def Kind.messageType : Kind → UInt8
  | .nffi => 0x04
  | .ffi => 0x14

/-- A document of a stream. -/
inductive Document where
  /-- Behind an `ip1_header` with zero system, subsystem and country numbers. -/
  | framed (kind : Kind) (now : Nat) (header xml : List UInt8)
      (wrote : ip1Header ⟨0, 0, 0⟩ kind.messageType xml.length now = .ok header)
  /-- Bare XML, which holds no `U+0000`. -/
  | bare (text : List Char) (noNul : Char.ofNat 0 ∉ text)

namespace Document

/-- The document. -/
def xml : Document → List UInt8
  | framed _ _ _ xml _ => xml
  | bare text _ => Utf8.encode text

/-- The document as it is written on the socket. -/
def bytes : Document → List UInt8
  | framed _ _ header xml _ => header ++ xml
  | bare text _ => Utf8.encode text

/-- The document and its kind. -/
def entry : Document → Entry
  | framed kind _ _ xml _ => (kind, xml)
  | bare text _ => bareEntry text

/-- The document has no header. -/
def Bare : Document → Prop
  | framed _ _ _ _ _ => False
  | bare _ _ => True

/-- The text of a bare document. -/
def text : Document → List Char
  | framed _ _ _ _ _ => []
  | bare text _ => text

/-- A bare document begins with the opening tag of its root and ends with the first closing tag
of it. -/
def Whole : Document → Prop
  | framed _ _ _ _ _ => True
  | bare text _ => roots.Whole text

end Document

/-- The bytes of a stream. -/
def stream (docs : List Document) : List UInt8 := docs.flatMap Document.bytes

/-- No framed document stands behind a bare one. -/
def Ordered (docs : List Document) : Prop := docs.Pairwise fun first second =>
  first.Bare → second.Bare

/-- A border between two chunks stands inside a character of a bare document. -/
def Tears (chunks : List (List UInt8)) (docs : List Document) : Prop :=
  ∃ before text noNul after front c back n,
    docs = before ++ .bare text noNul :: after ∧ text = front ++ c :: back ∧ Border chunks n ∧
      (stream before).length + (Utf8.encode front).length < n ∧
      n < (stream before).length + (Utf8.encode (front ++ [c])).length

/-! ## Framed documents -/

/-- The bytes of a header. -/
theorem header_shape {kind : Kind} {now length : Nat} {header : List UInt8}
    (h : ip1Header ⟨0, 0, 0⟩ kind.messageType length now = .ok header) :
    ∃ a b c d e f, header = [kind.messageType, 0, 0, 0, a, b, c, d, 0, 0, 0, 0, 1, 0, e, f] ∧
      BigEndian.ofBytes [e, f] = length := by
  have hfour : ∀ bytes : List UInt8, bytes.length = 4 → ∃ a b c d, bytes = [a, b, c, d] := by
    intro bytes hbytes
    match bytes, hbytes with
    | [a, b, c, d], _ => exact ⟨a, b, c, d, rfl⟩
  have htwo : ∀ bytes : List UInt8, bytes.length = 2 → ∃ a b, bytes = [a, b] := by
    intro bytes hbytes
    match bytes, hbytes with
    | [a, b], _ => exact ⟨a, b, rfl⟩
  rw [ip1Header, toBytesBig, toBytesBig] at h
  by_cases hnow : now < 256 ^ 4
  · rw [if_pos hnow] at h
    by_cases hlength : length < 256 ^ 2
    · rw [if_pos hlength] at h
      obtain ⟨a, b, c, d, hseconds⟩ := hfour _ (BigEndian.length_toBytes 4 now)
      obtain ⟨e, f, hsize⟩ := htwo _ (BigEndian.length_toBytes 2 length)
      have hread := BigEndian.ofBytes_toBytes hlength
      rw [hsize] at h hread
      rw [hseconds] at h
      exact ⟨a, b, c, d, e, f, (Except.ok.inj h).symm, hread⟩
    · rw [if_neg hlength] at h
      cases h
  · rw [if_neg hnow] at h
    cases h

theorem kindByType_messageType (kind : Kind) : kindByType kind.messageType = some kind := by
  cases kind <;> rfl

theorem messageType_ne (kind : Kind) (bytes : List UInt8) :
    ¬ (kind.messageType :: bytes).head? = some 0x3C := by
  cases kind <;> exact fun h => absurd (Option.some.inj h) (by decide)

section

variable {kind : Kind} {now : Nat} {header xml : List UInt8}
  (wrote : ip1Header ⟨0, 0, 0⟩ kind.messageType xml.length now = .ok header)

include wrote

/-- A header is read, and its document when that has arrived. -/
theorem turn_header (more : List UInt8) : turn (header ++ more) =
    if more.length < xml.length then .stop (header ++ more)
    else .again [(kind, more.take xml.length)] (more.drop xml.length) := by
  obtain ⟨a, b, c, d, e, f, rfl, hread⟩ := header_shape wrote
  have hlength : ([kind.messageType, 0, 0, 0, a, b, c, d, 0, 0, 0, 0, 1, 0, e, f] ++ more).length =
      headerLen + more.length := length_append
  simp only [cons_append, nil_append] at hlength ⊢
  rw [turn, if_neg (messageType_ne kind _), if_neg (by omega), if_neg (by simp)]
  show (if _ < headerLen + BigEndian.ofBytes [e, f] then _ else _) = _
  rw [hread, hlength]
  by_cases hless : more.length < xml.length
  · rw [if_pos (Nat.add_lt_add_left hless _), if_pos hless]
  · rw [if_neg (by omega), if_neg hless]
    simp only [head?_cons, Option.bind_some, kindByType_messageType, Option.getD_some,
      headerLen, Nat.add_comm 16, drop_succ_cons, drop_zero]
    show Turn.again [(kind, more.take (BigEndian.ofBytes [e, f]))]
      (more.drop (BigEndian.ofBytes [e, f])) = _
    rw [hread]

/-- The front of a framed document is kept. -/
theorem loop_front {front back : List UInt8} (h : front ++ back = header ++ xml)
    (hback : back ≠ []) : loop front = ([], front) := by
  by_cases hne : front = []
  · rw [hne, loop_nil]
  refine loop_stop hne ?_
  have hpos := length_pos_iff.mpr hback
  have hlength := congrArg List.length h
  rw [length_append, length_append] at hlength
  by_cases hlong : header.length ≤ front.length
  · obtain ⟨more, rfl⟩ : header <+: front :=
      prefix_of_prefix_length_le ⟨xml, h.symm⟩ (prefix_append _ _) hlong
    rw [length_append] at hlength
    rw [turn_header wrote, if_pos (by omega)]
  · obtain ⟨a, b, c, d, e, f, hheader, -⟩ := header_shape wrote
    have hsixteen : header.length = headerLen := by
      rw [hheader]
      rfl
    cases front with
    | nil => exact absurd rfl hne
    | cons byte front =>
      rw [hheader, cons_append, cons_append] at h
      rw [(List.cons.inj h).1, turn, if_neg (messageType_ne kind front), if_pos ?_]
      rw [length_cons] at hlong ⊢
      omega

/-- A framed document is returned. -/
theorem loop_framed (more : List UInt8) :
    loop (header ++ xml ++ more) = ((kind, xml) :: (loop more).1, (loop more).2) := by
  have hne : header ++ xml ++ more ≠ [] := by
    obtain ⟨a, b, c, d, e, f, rfl, -⟩ := header_shape wrote
    exact cons_ne_nil _ _
  have hturn := turn_header wrote (xml ++ more)
  rw [if_neg (by rw [length_append]; omega), take_left, drop_left,
    ← append_assoc] at hturn
  exact loop_again hne hturn

/-- A framed document is returned however it is cut. -/
theorem readAll_framed : ∀ {chunks : List (List UInt8)} {front back rest : List UInt8},
    front ++ back = header ++ xml → back ≠ [] → chunks.flatten = back ++ rest →
      readAll front chunks = (kind, xml) :: readAll [] (dropBytes back.length chunks)
  | [], front, back, rest, _, hback, hflatten =>
    absurd (List.append_eq_nil_iff.mp hflatten.symm).1 hback
  | chunk :: chunks, front, back, rest, hsplit, hback, hflatten => by
    rw [List.flatten_cons] at hflatten
    rw [readAll, dropBytes, feed]
    by_cases hless : chunk.length < back.length
    · obtain ⟨back', rfl⟩ : chunk <+: back :=
        prefix_of_prefix_length_le ⟨_, hflatten⟩ (prefix_append _ _)
          (Nat.le_of_lt hless)
      rw [← append_assoc] at hsplit
      rw [append_assoc] at hflatten
      have hback' : back' ≠ [] := by
        rintro rfl
        rw [append_nil] at hless
        exact Nat.lt_irrefl _ hless
      rw [if_pos hless, length_append, Nat.add_sub_cancel_left,
        loop_front wrote hsplit hback']
      exact readAll_framed hsplit hback' (append_cancel_left hflatten)
    · obtain ⟨more, rfl⟩ : back <+: chunk :=
        prefix_of_prefix_length_le (prefix_append _ _) ⟨_, hflatten⟩
          (Nat.le_of_not_lt hless)
      rw [if_neg hless, drop_left, ← append_assoc, hsplit, loop_framed wrote, readAll,
        feed]
      rfl

end

/-! ## Bare documents -/

theorem head_encode_mark (tail : List Char) :
    Utf8.encode ('<' :: tail) = 0x3C :: Utf8.encode tail :=
  Utf8.encode_cons_ascii (by decide) tail

/-- A text that waits for more is kept. -/
theorem loop_wait {text : List Char} (h : roots.Sight text (.wait text))
    (hmark : text = [] ∨ ∃ tail, text = '<' :: tail) :
    loop (Utf8.encode text) = ([], Utf8.encode text) := by
  rcases hmark with rfl | ⟨tail, rfl⟩
  · exact loop_nil
  refine loop_stop ?_ ?_
  · rw [head_encode_mark]
    exact cons_ne_nil _ _
  · have hdrain := Roots.drain_wait h
    rw [turn, if_pos (by rw [head_encode_mark]; rfl), extractFrames, Utf8.decode_encode, hdrain]
    exact if_pos rfl

variable {buf : List UInt8} {chunks : List (List UInt8)} {docs : List Document}

/-- The whole documents at the front of a buffer are returned. -/
theorem loop_wholes {texts : List (List Char)} {more : List Char}
    (hwhole : ∀ t ∈ texts, roots.Whole t) (h : Utf8.decode buf ++ more = texts.flatten) :
    ∃ cut left rest, texts = cut ++ left ∧ loop buf = (cut.map bareEntry, Utf8.encode rest) ∧
      rest ++ more = left.flatten ∧ roots.Sight rest (.wait rest) ∧
      (rest = [] ∨ ∃ tail, rest = '<' :: tail) := by
  obtain ⟨cut, left, rest, hsplit, hdrain, hrest, hwait, hmark⟩ := Roots.drain_wholes hwhole h
  refine ⟨cut, left, rest, hsplit, ?_, hrest, hwait, hmark⟩
  cases buf with
  | nil =>
    rw [Utf8.decode_nil, Roots.drain_wait (Roots.sight_nil roots)] at hdrain
    cases hdrain
    exact loop_nil
  | cons byte buf =>
    obtain ⟨c, text, hdecode, hc⟩ := Utf8.decode_cons byte buf
    have hhead : (byte :: buf).head? = some 0x3C := by
      cases texts with
      | nil =>
        rw [hdecode] at h
        cases h
      | cons first texts =>
        obtain ⟨tail, rfl⟩ := Roots.whole_head (hwhole first mem_cons_self)
        rw [hdecode] at h
        have hmarked : c = '<' := (List.cons.inj h).1
        rw [hc (by rw [hmarked]; decide), hmarked]
        rfl
    cases cut with
    | nil =>
      refine loop_stop (cons_ne_nil _ _) ?_
      rw [turn, if_pos hhead, extractFrames, hdrain]
      exact if_pos rfl
    | cons first cut =>
      have hturn : turn (byte :: buf) =
          .again ((first :: cut).map bareEntry) (Utf8.encode rest) := by
        rw [turn, if_pos hhead, extractFrames, hdrain]
        exact if_neg (cons_ne_nil _ _)
      rw [loop_again (cons_ne_nil _ _) hturn, loop_wait hwait hmark, append_nil]

/-- Whole documents are returned as the chunks give them. -/
theorem readAll_wholes : ∀ {chunks : List (List UInt8)} {text : List Char}
    {texts : List (List Char)}, (∀ t ∈ texts, roots.Whole t) →
      text ++ chunks.flatMap Utf8.decode = texts.flatten → roots.Sight text (.wait text) →
        readAll (Utf8.encode text) chunks = texts.map bareEntry
  | [], text, texts, hwhole, h, hwait => by
    cases texts with
    | nil => rfl
    | cons first texts =>
      -- a whole document would have been cut off
      rw [List.flatMap_nil, List.append_nil, List.flatten_cons] at h
      have hdrain := Roots.drain_whole_append (hwhole first mem_cons_self) texts.flatten
      rw [← h, Roots.drain_wait hwait] at hdrain
      cases hdrain
  | chunk :: chunks, text, texts, hwhole, h, _ => by
    rw [flatMap_cons, ← append_assoc, ← Utf8.decode_encode_append] at h
    obtain ⟨cut, left, rest, rfl, hloop, hrest, hwait, -⟩ := loop_wholes hwhole h
    rw [readAll, feed, hloop, map_append]
    exact congrArg _ (readAll_wholes
      (fun t ht => hwhole t (mem_append_right _ ht)) hrest hwait)

/-! ## Bytes without `U+0000` -/

theorem noNul_decode (h : 0 ∉ buf) : Char.ofNat 0 ∉ Utf8.decode buf := by
  have hcount := Utf8.count_decode (c := Char.ofNat 0) (by decide) buf
  rw [show UInt8.ofNat (Char.ofNat 0).toNat = 0 from rfl, count_eq_zero.mpr h] at hcount
  exact count_eq_zero.mp (Nat.le_zero.mp hcount)

theorem noNul_encode {text : List Char} (h : Char.ofNat 0 ∉ text) : 0 ∉ Utf8.encode text := by
  have hcount := Utf8.count_encode (c := Char.ofNat 0) (by decide) text
  rw [show UInt8.ofNat (Char.ofNat 0).toNat = 0 from rfl, count_eq_zero.mpr h] at hcount
  exact count_eq_zero.mp (Nat.le_zero.mp hcount)

/-- Such bytes hold no header: what a pass returns are whole documents. -/
theorem turn_noNul (h : 0 ∉ buf) :
    match turn buf with
    | .stop rest => 0 ∉ rest
    | .again out rest => 0 ∉ rest ∧ ∀ e ∈ out, ∃ t, roots.Whole t ∧ e.2 = Utf8.encode t := by
  have hkept : 0 ∉ Utf8.encode (extractFrames (Utf8.decode buf)).2 := noNul_encode fun hmem =>
    noNul_decode h ((Roots.drain_rest (R := roots) (Utf8.decode buf)).1.subset hmem)
  rw [turn]
  by_cases hhead : buf.head? = some 0x3C
  · rw [if_pos hhead]
    dsimp only
    by_cases hframes : (extractFrames (Utf8.decode buf)).1 = []
    · rw [if_pos hframes]
      exact hkept
    · rw [if_neg hframes]
      refine ⟨hkept, fun e he => ?_⟩
      obtain ⟨t, ht, rfl⟩ := mem_map.mp he
      exact ⟨t, Roots.whole_of_mem_drain _ t ht, rfl⟩
  rw [if_neg hhead]
  by_cases hshort : buf.length < headerLen
  · rw [if_pos hshort]
    exact h
  have hzeros : (buf.drop 1).take 3 ≠ [0, 0, 0] ∨ (buf.drop 8).take 4 ≠ [0, 0, 0, 0] := by
    refine Or.inl fun hzero => h ?_
    have hmem : (0 : UInt8) ∈ (buf.drop 1).take 3 := hzero ▸ mem_cons_self
    exact mem_of_mem_drop (mem_of_mem_take hmem)
  rw [if_neg hshort, if_pos hzeros]
  exact ⟨fun hmem => h (mem_of_mem_drop hmem), fun e he => by cases he⟩

theorem loop_noNul (buf : List UInt8) (h : 0 ∉ buf) : 0 ∉ (loop buf).2 ∧
    ∀ e ∈ (loop buf).1, ∃ t, roots.Whole t ∧ e.2 = Utf8.encode t := by
  by_cases hne : buf = []
  · rw [hne, loop_nil]
    exact ⟨not_mem_nil, fun e he => by cases he⟩
  have hpass := turn_noNul h
  cases hturn : turn buf with
  | stop rest =>
    rw [hturn] at hpass
    rw [loop_stop hne hturn]
    exact ⟨hpass, fun e he => by cases he⟩
  | again out rest =>
    rw [hturn] at hpass
    have hless := turn_again hne hturn
    obtain ⟨hrest, hentries⟩ := loop_noNul rest hpass.1
    rw [loop_again hne hturn]
    exact ⟨hrest, forall_mem_append.mpr ⟨hpass.2, hentries⟩⟩
termination_by (buf.count 0x3C, buf.length)
decreasing_by
  rcases hless with h | ⟨hle, h⟩
  · exact Prod.Lex.left _ _ h
  · exact Prod.Lex.right' _ hle h

theorem readAll_noNul : ∀ {chunks : List (List UInt8)} {buf : List UInt8}, 0 ∉ buf →
    0 ∉ chunks.flatten →
      ∀ e ∈ readAll buf chunks, ∃ t, roots.Whole t ∧ e.2 = Utf8.encode t
  | [], _, _, _ => fun e he => by cases he
  | chunk :: chunks, buf, hbuf, hchunks => by
    rw [List.flatten_cons, List.mem_append, not_or] at hchunks
    obtain ⟨hrest, hentries⟩ := loop_noNul (buf ++ chunk)
      (fun hmem => (mem_append.mp hmem).elim hbuf hchunks.1)
    exact forall_mem_append.mpr ⟨hentries, readAll_noNul hrest hchunks.2⟩

/-! ## Borders inside characters -/

theorem utf8Size_of_inTag {T : Tags Char} (hT : T ∈ roots.tags) {c : Char} (hc : T.InTag c) :
    c.utf8Size = 1 := by
  have hsize : ∀ text : String, (text.toList.all fun c => c.utf8Size == 1) = true →
      ∀ c ∈ text.toList, c.utf8Size = 1 :=
    fun _ hall c hc => beq_iff_eq.mp (all_eq_true.mp hall c hc)
  have htags : ∀ tag ∈ frameTags, ∀ c ∈ tag.toList, c.utf8Size = 1 :=
    fun tag htag => hsize tag (all_eq_true.mp (by decide :
      (frameTags.all fun tag => tag.toList.all fun c => c.utf8Size == 1) = true) tag htag)
  obtain ⟨tag, htag, rfl⟩ := mem_map.mp hT
  rcases hc with hc | hc
  · rcases mem_cons.mp hc with rfl | hc
    · rfl
    · exact htags tag htag c hc
  · rcases mem_append.mp hc with hc | hc
    · rcases mem_append.mp hc with hc | hc
      · exact hsize "</" (by decide) c hc
      · exact htags tag htag c hc
    · rw [mem_singleton.mp hc]
      rfl

/-- A piece stands for a character that occurs in no tag, or it is the character. -/
theorem roots_expands_piece {T : Tags Char} (hT : T ∈ roots.tags) :
    T.Expands Prod.fst piece := by
  intro mark
  rw [piece]
  by_cases hone : mark.2 = 0 ∨ mark.1.utf8Size = 1
  · rw [if_pos hone]
    exact Or.inl rfl
  · rw [if_neg hone]
    refine Or.inr ⟨fun htag => hone (Or.inr (utf8Size_of_inTag hT htag)), by simp, fun k hk => ?_⟩
    rw [eq_of_mem_replicate hk]
    exact fun htag => absurd (utf8Size_of_inTag hT htag) (by decide)

/-- The marks of a stream of texts, text by text. -/
theorem split_marks {α β : Type*} (f : α → β) : ∀ {texts : List (List β)} {marks : List α},
    marks.map f = texts.flatten →
      ∃ parts : List (List α), parts.flatten = marks ∧ parts.map (List.map f) = texts
  | [], marks, h => ⟨[], (List.map_eq_nil_iff.mp h).symm, rfl⟩
  | text :: texts, marks, h => by
    rw [List.flatten_cons] at h
    obtain ⟨front, back, rfl, rfl, hback⟩ := map_eq_append_iff.mp h
    obtain ⟨parts, rfl, rfl⟩ := split_marks f hback
    exact ⟨front :: parts, rfl, rfl⟩

/-- Whole bare documents come out unchanged when no border stands inside a character. -/
theorem readAll_whole_iff {texts : List (List Char)} (hwhole : ∀ t ∈ texts, roots.Whole t)
    (hflatten : chunks.flatten = Utf8.encode texts.flatten) :
    ((readAll [] chunks).map Prod.snd = texts.map Utf8.encode ↔
        ∀ before c after, texts.flatten = before ++ c :: after → ¬ Torn chunks before c) ∧
      ((∀ before c after, texts.flatten = before ++ c :: after → ¬ Torn chunks before c) →
        readAll [] chunks = texts.map bareEntry) := by
  obtain ⟨marks, hmarks, hdecode, htorn⟩ := flatMap_decode_eq hflatten
  obtain ⟨parts, rfl, rfl⟩ := split_marks Prod.fst hmarks
  have hpieces : ∀ t ∈ parts.map (List.flatMap piece), roots.Whole t := by
    intro t ht
    obtain ⟨part, hpart, rfl⟩ := mem_map.mp ht
    exact Roots.whole_expand (fun T hT => roots_expands_piece hT)
      (hwhole _ (mem_map_of_mem hpart))
  have hread : readAll [] chunks = (parts.map (List.flatMap piece)).map bareEntry := by
    refine @readAll_wholes chunks [] _ hpieces ?_ (Roots.sight_nil roots)
    rw [nil_append, hdecode, flatten_eq_flatMap, flatMap_assoc, flatMap_def]
    rfl
  have hsmall : ∀ mark ∈ parts.flatten, mark.1.utf8Size = 1 → mark.2 = 0 := by
    intro mark hmark hsize
    obtain ⟨before, after, hsplit⟩ := append_of_mem hmark
    refine (htorn before mark after hsplit).mpr ?_
    rintro ⟨n, -, hlow, hhigh⟩
    rw [Utf8.encode_append, length_append, Utf8.encode, Utf8.encode, flatMap_singleton,
      String.length_utf8EncodeChar, hsize] at hhigh
    rw [Utf8.encode] at hlow
    omega
  have hzero : (∀ part ∈ parts, part.flatMap piece = part.map Prod.fst) ↔
      ∀ mark ∈ parts.flatten, mark.2 = 0 := by
    calc (∀ part ∈ parts, part.flatMap piece = part.map Prod.fst)
        ↔ ∀ part ∈ parts, ∀ mark ∈ part, mark.2 = 0 := by
          refine forall₂_congr fun part hpart => ?_
          rw [map_eq_flatMap]
          exact flatMap_piece_eq_iff fun mark hmark =>
            hsmall mark (mem_flatten.mpr ⟨part, hpart, hmark⟩)
      _ ↔ ∀ mark ∈ parts.flatten, mark.2 = 0 := by
          simp only [mem_flatten, forall_exists_index, and_imp]
          exact ⟨fun h mark part hpart hmark => h part hpart mark hmark,
            fun h part hpart mark hmark => h mark part hpart hmark⟩
  have hborder : (∀ mark ∈ parts.flatten, mark.2 = 0) ↔ ∀ before c after,
      (parts.map (List.map Prod.fst)).flatten = before ++ c :: after → ¬ Torn chunks before c := by
    rw [← map_flatten]
    constructor
    · intro h before c after hsplit
      obtain ⟨before, rest, hparts, rfl, hrest⟩ := map_eq_append_iff.mp hsplit
      obtain ⟨mark, after, rfl, rfl, rfl⟩ := map_eq_cons_iff.mp hrest
      refine (htorn before mark after hparts).mp (h mark ?_)
      rw [hparts]
      exact mem_append_right _ mem_cons_self
    · intro h mark hmark
      obtain ⟨before, after, hsplit⟩ := append_of_mem hmark
      refine (htorn before mark after hsplit).mpr (h _ _ (after.map Prod.fst) ?_)
      rw [hsplit, map_append, map_cons]
  rw [← hborder, ← hzero, hread]
  constructor
  · have hsnd : (parts.map (List.flatMap piece)).map (fun t => (bareEntry t).2) =
        (parts.map (List.map Prod.fst)).map Utf8.encode ↔
        ∀ part ∈ parts, part.flatMap piece = part.map Prod.fst := by
      rw [map_map, map_map, map_inj_left]
      exact forall₂_congr fun part _ =>
        ⟨fun h => Utf8.encode_injective h, fun h => congrArg Utf8.encode h⟩
    rw [map_map]
    exact hsnd
  · intro h
    refine congrArg _ (map_congr_left h)

/-! ## Streams -/

theorem tears_framed {kind : Kind} {now : Nat} {header xml : List UInt8}
    {wrote : ip1Header ⟨0, 0, 0⟩ kind.messageType xml.length now = .ok header} :
    Tears chunks (.framed kind now header xml wrote :: docs) ↔
      Tears (dropBytes (header ++ xml).length chunks) docs := by
  have hstream : ∀ docs, (stream (.framed kind now header xml wrote :: docs)).length =
      (header ++ xml).length + (stream docs).length := fun docs => by
    rw [stream, flatMap_cons, length_append]
    rfl
  constructor
  · rintro ⟨before, text, noNul, after, front, c, back, n, hdocs, htext, hborder, hlow, hhigh⟩
    cases before with
    | nil => cases (List.cons.inj hdocs).1
    | cons first before =>
      obtain ⟨rfl, rfl⟩ := List.cons.inj hdocs
      rw [hstream] at hlow hhigh
      refine ⟨before, text, noNul, after, front, c, back, n - (header ++ xml).length, rfl, htext,
        ?_, by omega, by omega⟩
      rwa [border_dropBytes (by omega), Nat.add_sub_cancel' (by omega)]
  · rintro ⟨before, text, noNul, after, front, c, back, n, hdocs, htext, hborder, hlow, hhigh⟩
    rw [border_dropBytes (by omega)] at hborder
    refine ⟨_ :: before, text, noNul, after, front, c, back, _, by rw [hdocs]; rfl, htext, hborder,
      ?_, ?_⟩ <;>
    · rw [hstream]
      omega

/-- Bare documents are a stream of texts. -/
theorem bare_stream : ∀ {docs : List Document}, (∀ d ∈ docs, d.Bare) →
    stream docs = Utf8.encode (docs.map Document.text).flatten ∧
      docs.map Document.xml = (docs.map Document.text).map Utf8.encode ∧
      docs.map Document.entry = (docs.map Document.text).map bareEntry ∧
      Char.ofNat 0 ∉ (docs.map Document.text).flatten
  | [], _ => ⟨rfl, rfl, rfl, List.not_mem_nil⟩
  | .framed _ _ _ _ _ :: _, h => absurd (h _ List.mem_cons_self) id
  | .bare text noNul :: docs, h => by
    obtain ⟨hstream, hxml, hentry, hclean⟩ :=
      bare_stream fun d hd => h d (mem_cons_of_mem _ hd)
    simp only [map_cons, flatten_cons, Utf8.encode_append, ← hstream, ← hxml, ← hentry]
    refine ⟨rfl, rfl, rfl, fun hmem => ?_⟩
    exact (mem_append.mp hmem).elim noNul hclean

/-- A character of a stream of texts is a character of one of them. -/
theorem flatten_split {α : Type*} : ∀ {texts : List (List α)} {before after : List α} {c : α},
    texts.flatten = before ++ c :: after → ∃ done text left front back,
      texts = done ++ text :: left ∧ text = front ++ c :: back ∧ before = done.flatten ++ front
  | [], before, after, c, h => by
    exact absurd h.symm (by simp)
  | text :: texts, before, after, c, h => by
    rw [List.flatten_cons] at h
    rcases List.append_eq_append_iff.mp h with ⟨more, hbefore, hrest⟩ | ⟨more, htext, hrest⟩
    · obtain ⟨done, text', left, front, back, rfl, hsplit, rfl⟩ := flatten_split hrest
      refine ⟨text :: done, text', left, front, back, rfl, hsplit, ?_⟩
      rw [hbefore, flatten_cons, append_assoc]
    · cases more with
      | nil =>
        rw [append_nil] at htext
        obtain ⟨done, text', left, front, back, rfl, hsplit, hfront⟩ :=
          @flatten_split _ texts [] after c hrest.symm
        refine ⟨text :: done, text', left, front, back, rfl, hsplit, ?_⟩
        rw [flatten_cons, append_assoc, ← hfront, htext, append_nil]
      | cons d more =>
        obtain ⟨rfl, -⟩ := List.cons.inj hrest
        exact ⟨[], text, texts, before, more, rfl, htext, rfl⟩

theorem tears_bare (hbare : ∀ d ∈ docs, d.Bare) :
    ¬ Tears chunks docs ↔ ∀ before c after,
      (docs.map Document.text).flatten = before ++ c :: after → ¬ Torn chunks before c := by
  constructor
  · rintro h before c after hsplit ⟨n, hborder, hlow, hhigh⟩
    obtain ⟨done, text, left, front, back, hdocs, htext, rfl⟩ := flatten_split hsplit
    obtain ⟨done, rest, rfl, rfl, hrest⟩ := map_eq_append_iff.mp hdocs
    obtain ⟨d, left, rfl, rfl, rfl⟩ := map_eq_cons_iff.mp hrest
    have hstream := (bare_stream fun d hd => hbare d (mem_append_left _ hd)).1
    cases d with
    | framed kind now header xml wrote =>
      exact hbare _ (mem_append_right _ mem_cons_self)
    | bare text noNul =>
      rw [append_assoc] at hhigh
      rw [Utf8.encode_append, length_append, ← hstream] at hlow hhigh
      exact h ⟨done, text, noNul, left, front, c, back, n, rfl, htext, hborder, hlow, hhigh⟩
  · rintro h ⟨before, text, noNul, after, front, c, back, n, rfl, htext, hborder, hlow, hhigh⟩
    have hstream := (bare_stream fun d hd => hbare d (mem_append_left _ hd)).1
    refine h ((before.map Document.text).flatten ++ front) c
      (back ++ (after.map Document.text).flatten) ?_ ⟨n, hborder, ?_, ?_⟩
    · rw [map_append, flatten_append, map_cons, flatten_cons,
        show (Document.bare text noNul).text = text from rfl, htext]
      simp
    · rwa [Utf8.encode_append, length_append, ← hstream]
    · rwa [append_assoc, Utf8.encode_append, length_append, ← hstream]

/-- Bare documents come out unchanged when they are whole and no border stands inside one of their
characters. -/
theorem readAll_bare (hbare : ∀ d ∈ docs, d.Bare) (hflatten : chunks.flatten = stream docs) :
    ((readAll [] chunks).map Prod.snd = docs.map Document.xml ↔
        (∀ d ∈ docs, d.Whole) ∧ ¬ Tears chunks docs) ∧
      ((∀ d ∈ docs, d.Whole) ∧ ¬ Tears chunks docs →
        readAll [] chunks = docs.map Document.entry) := by
  obtain ⟨hstream, hxml, hentry, hclean⟩ := bare_stream hbare
  rw [hstream] at hflatten
  have hwhole : (∀ d ∈ docs, d.Whole) ↔ ∀ t ∈ docs.map Document.text, roots.Whole t := by
    rw [forall_mem_map]
    refine forall₂_congr fun d hd => ?_
    cases d with
    | framed kind now header xml wrote => exact absurd (hbare _ hd) id
    | bare text noNul => exact Iff.rfl
  rw [hwhole, tears_bare hbare, hxml, hentry]
  refine ⟨⟨fun hread => ?_, fun h => ?_⟩, fun h => (readAll_whole_iff h.1 hflatten).2 h.2⟩
  · have hall : ∀ t ∈ docs.map Document.text, roots.Whole t := by
      intro t ht
      have hmem : Utf8.encode t ∈ (readAll [] chunks).map Prod.snd :=
        hread ▸ mem_map_of_mem ht
      obtain ⟨e, he, hsnd⟩ := mem_map.mp hmem
      obtain ⟨t', ht', he'⟩ := @readAll_noNul chunks [] not_mem_nil
        (by rw [hflatten]; exact noNul_encode hclean) e he
      rw [hsnd] at he'
      rw [Utf8.encode_injective he']
      exact ht'
    exact ⟨hall, (readAll_whole_iff hall hflatten).1.mp hread⟩
  · exact (readAll_whole_iff h.1 hflatten).1.mpr h.2

/-- The documents of a stream come out unchanged when the bare ones are whole and no border stands
inside one of their characters. -/
theorem readAll_stream : ∀ {docs : List Document} {chunks : List (List UInt8)}, Ordered docs →
    chunks.flatten = stream docs →
      ((readAll [] chunks).map Prod.snd = docs.map Document.xml ↔
          (∀ d ∈ docs, d.Whole) ∧ ¬ Tears chunks docs) ∧
        ((∀ d ∈ docs, d.Whole) ∧ ¬ Tears chunks docs →
          readAll [] chunks = docs.map Document.entry)
  | [], chunks, _, hflatten => readAll_bare (fun d hd => by cases hd) hflatten
  | .bare text noNul :: docs, chunks, hordered, hflatten => by
    refine readAll_bare (fun d hd => ?_) hflatten
    rcases List.mem_cons.mp hd with rfl | hd
    · trivial
    · exact (List.pairwise_cons.mp hordered).1 d hd trivial
  | .framed kind now header xml wrote :: docs, chunks, hordered, hflatten => by
    have hne : header ++ xml ≠ [] := by
      obtain ⟨a, b, c, d, e, f, rfl, -⟩ := header_shape wrote
      exact cons_ne_nil _ _
    have hread := readAll_framed wrote (nil_append _) hne
      (show chunks.flatten = (header ++ xml) ++ stream docs from hflatten)
    have hrest : (dropBytes (header ++ xml).length chunks).flatten = stream docs := by
      rw [flatten_dropBytes, hflatten]
      exact drop_left
    obtain ⟨hiff, hentry⟩ := readAll_stream (pairwise_cons.mp hordered).2 hrest
    have hwhole : (∀ d ∈ Document.framed kind now header xml wrote :: docs, d.Whole) ↔
        ∀ d ∈ docs, d.Whole := by
      rw [forall_mem_cons]
      exact and_iff_right trivial
    rw [hread, tears_framed, hwhole, ← hiff, map_cons, map_cons]
    refine ⟨⟨fun h => (List.cons.inj h).2, fun h => congrArg _ h⟩, fun h => ?_⟩
    rw [hentry (hiff.mp h)]
    rfl

/-- One chunk has no border inside. -/
theorem not_tears_singleton (docs : List Document) : ¬ Tears [stream docs] docs := by
  rintro ⟨before, text, noNul, after, front, c, back, n, hdocs, htext, ⟨first, hfirst, rfl⟩, hlow,
    hhigh⟩
  have hstream : (stream docs).length = (stream before).length +
      (Utf8.encode text).length + (stream after).length := by
    rw [hdocs, stream, flatMap_append, flatMap_cons, length_append,
      length_append, Nat.add_assoc]
    rfl
  have hfits : (Utf8.encode (front ++ [c])).length ≤ (Utf8.encode text).length := by
    rw [htext, append_cons front c back, Utf8.encode_append _ back, length_append]
    exact Nat.le_add_right _ _
  cases first with
  | nil => exact Nat.not_lt_zero _ hlow
  | cons chunk first =>
    obtain ⟨rfl, hnil⟩ := cons_prefix_cons.mp hfirst
    rw [prefix_nil.mp hnil, flatten_singleton] at hhigh
    omega

/-- Every call of `feed` ends.  When no framed document stands behind a bare one, the stream comes
out as it was sent, however it is cut, exactly when every bare document is whole and no border
stands inside one of its characters. -/
theorem documents_unchanged_iff (docs : List Document) (chunks : List (List UInt8))
    (buf data : List UInt8) (hordered : Ordered docs) (hflatten : chunks.flatten = stream docs) :
    (∃ turns, loopWithin turns (buf ++ data) = some (feed buf data)) ∧
      (readAll [] chunks = readAll [] [stream docs] ∧
          (readAll [] chunks).map Prod.snd = docs.map Document.xml ↔
        (∀ d ∈ docs, d.Whole) ∧ ¬ Tears chunks docs) := by
  refine ⟨loopWithin_eq _, ?_⟩
  obtain ⟨hiff, hentry⟩ := readAll_stream hordered hflatten
  rw [hiff, and_iff_right_iff_imp]
  intro h
  have hone := (readAll_stream hordered (List.flatten_singleton (l := stream docs))).2
    ⟨h.1, not_tears_singleton docs⟩
  rw [hentry h, hone]

/-- A track whose name is not ASCII. -/
def sampleTrack : Document := .bare "<track>é</track>".toList (by decide)

theorem whole_sampleTrack : sampleTrack.Whole :=
  ⟨tagsOf "track", mem_map_of_mem (by decide), by decide, 8, by decide, by decide⟩

/-- The track arrives in two chunks, and no border stands inside a character. -/
theorem documents_unchanged_iff_track :
    [Utf8.encode "<track>".toList, Utf8.encode "é</track>".toList].flatten = stream [sampleTrack] ∧
      (readAll [] [Utf8.encode "<track>".toList, Utf8.encode "é</track>".toList] =
            readAll [] [stream [sampleTrack]] ∧
          (readAll [] [Utf8.encode "<track>".toList, Utf8.encode "é</track>".toList]).map
            Prod.snd = [sampleTrack.xml] ↔
        (∀ d ∈ [sampleTrack], d.Whole) ∧
          ¬ Tears [Utf8.encode "<track>".toList, Utf8.encode "é</track>".toList]
            [sampleTrack]) :=
  ⟨by decide, (documents_unchanged_iff [sampleTrack]
    [Utf8.encode "<track>".toList, Utf8.encode "é</track>".toList] [] []
    (List.pairwise_singleton _ _) (by decide)).2⟩

/-- The border between the two chunks stands inside the character. -/
theorem track_torn :
    [Utf8.encode "<track>".toList ++ [0xC3], 0xA9 :: Utf8.encode "</track>".toList].flatten =
        stream [sampleTrack] ∧
      (readAll [] [stream [sampleTrack]]).map Prod.snd = [sampleTrack.xml] ∧
      (readAll [] [Utf8.encode "<track>".toList ++ [0xC3],
        0xA9 :: Utf8.encode "</track>".toList]).map Prod.snd ≠ [sampleTrack.xml] := by
  have hwhole : ∀ d ∈ [sampleTrack], d.Whole := fun d hd =>
    List.mem_singleton.mp hd ▸ whole_sampleTrack
  have hordered : Ordered [sampleTrack] := List.pairwise_singleton _ _
  refine ⟨by decide, ?_, fun h => ?_⟩
  · exact (readAll_stream hordered (by decide)).1.mpr ⟨hwhole, not_tears_singleton _⟩
  · refine ((readAll_stream hordered (by decide)).1.mp h).2 ?_
    refine ⟨[], _, by decide, [], "<track>".toList, 'é', "</track>".toList, 8, rfl, by decide,
      ⟨[_], List.cons_prefix_cons.mpr ⟨rfl, List.nil_prefix⟩, by decide⟩, by decide, by decide⟩

end Efdi.Tak.Ip1Reader
