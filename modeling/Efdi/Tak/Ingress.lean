import Efdi.Base.Tagged
import Efdi.Base.Utf8
import Mathlib.Algebra.GroupWithZero.Nat

/-!
# TAK ingress

`run` of the TAK bridge reads chunks from a socket, decodes each chunk by itself, appends the
text to a rolling buffer and takes the complete CoT frames from it with `_extract_events`.

The rolling buffer carries a frame over any border between chunks.  The decoding carries nothing:
a character whose bytes lie in two chunks comes out as replacement characters.  The frames are
those of the whole stream exactly when no border tears a character that lies in a frame
(`ingress_eq_whole_iff`).
-/

namespace Efdi.Tak

open Framing List

/-- The tags that `_extract_events` looks for, and how much text it keeps while it sees none. -/
def eventTags : Tags Char where
  opening := "<event".toList
  closing := "</event>".toList
  keep := 64
  closing_ne := by decide
  opening_le := by decide

/-- `_extract_events`: the frames that the buffer holds, and what is left in the buffer. -/
def extractEvents (text : List Char) : List (List Char) × List Char :=
  (eventTags.scanner id).drain text

/-- The reading loop of `run`, for what the calls of `recv` return.  An empty chunk ends the
connection. -/
def readChunks : List Char → List (List UInt8) → List (List Char)
  | _, [] => []
  | buffer, chunk :: chunks =>
    if chunk = [] then []
    else
      let extracted := extractEvents (buffer ++ Utf8.decode chunk)
      extracted.1 ++ readChunks extracted.2 chunks

/-- The frames of a connection. -/
def ingress (chunks : List (List UInt8)) : List (List Char) := readChunks [] chunks

variable {chunks : List (List UInt8)}

theorem readChunks_eq : ∀ {chunks : List (List UInt8)} (buffer : List Char),
    (∀ chunk ∈ chunks, chunk ≠ []) →
      readChunks buffer chunks =
        ((eventTags.scanner id).feed buffer (chunks.map Utf8.decode)).1
  | [], _, _ => rfl
  | chunk :: chunks, buffer, h => by
    have hrest := fun buffer =>
      readChunks_eq buffer fun chunk hchunk => h chunk (mem_cons_of_mem _ hchunk)
    rw [readChunks, if_neg (h chunk mem_cons_self)]
    exact congrArg _ (hrest _)

/-- The frames are those of the text that the chunks give one by one. -/
theorem ingress_eq (h : ∀ chunk ∈ chunks, chunk ≠ []) :
    ingress chunks = (eventTags.scanner id).frames (chunks.flatMap Utf8.decode) := by
  rw [ingress, readChunks_eq [] h, (Tags.steady eventTags id).feed, flatMap_def]

/-! ## Borders between chunks -/

/-- A border between two chunks stands behind the first `n` bytes. -/
def Border (chunks : List (List UInt8)) (n : Nat) : Prop :=
  ∃ front, front <+: chunks ∧ front.flatten.length = n

/-- A border stands inside a character. -/
def Torn (chunks : List (List UInt8)) (before : List Char) (c : Char) : Prop :=
  ∃ n, Border chunks n ∧ (Utf8.encode before).length < n ∧
    n < (Utf8.encode (before ++ [c])).length

theorem border_cons {chunk : List UInt8} {n : Nat} (hn : 0 < n) :
    Border (chunk :: chunks) n ↔ ∃ m, Border chunks m ∧ n = chunk.length + m := by
  constructor
  · rintro ⟨front, hfront, hlength⟩
    cases front with
    | nil =>
      rw [flatten_nil, length_nil] at hlength
      omega
    | cons first front =>
      obtain ⟨rfl, hrest⟩ := cons_prefix_cons.mp hfront
      rw [flatten_cons, length_append] at hlength
      exact ⟨_, ⟨front, hrest, rfl⟩, hlength.symm⟩
  · rintro ⟨m, ⟨front, hfront, rfl⟩, rfl⟩
    exact ⟨chunk :: front, cons_prefix_cons.mpr ⟨rfl, hfront⟩, length_append⟩

/-- The chunks behind the first `k` bytes. -/
def dropBytes : Nat → List (List UInt8) → List (List UInt8)
  | _, [] => []
  | k, chunk :: chunks =>
    if chunk.length < k then dropBytes (k - chunk.length) chunks else chunk.drop k :: chunks

theorem flatten_dropBytes : ∀ (k : Nat) (chunks : List (List UInt8)),
    (dropBytes k chunks).flatten = chunks.flatten.drop k
  | _, [] => drop_nil.symm
  | k, chunk :: chunks => by
    by_cases hk : chunk.length < k
    · rw [dropBytes, if_pos hk, flatten_dropBytes, flatten_cons, drop_append,
        drop_eq_nil_of_le (Nat.le_of_lt hk), nil_append]
    · rw [dropBytes, if_neg hk, flatten_cons, flatten_cons,
        drop_append_of_le_length (Nat.le_of_not_lt hk)]

theorem border_dropBytes {n : Nat} (hn : 0 < n) : ∀ (k : Nat) (chunks : List (List UInt8)),
    Border (dropBytes k chunks) n ↔ Border chunks (k + n)
  | k, [] => by
    have hnone : ∀ {n}, 0 < n → ¬ Border [] n := by
      rintro n hn ⟨front, hfront, hlength⟩
      rw [prefix_nil.mp hfront, flatten_nil, length_nil] at hlength
      omega
    exact iff_of_false (hnone hn) (hnone (Nat.add_pos_right k hn))
  | k, chunk :: chunks => by
    rw [border_cons (Nat.add_pos_right k hn)]
    by_cases hk : chunk.length < k
    · rw [dropBytes, if_pos hk, border_dropBytes hn]
      constructor
      · intro h
        exact ⟨_, h, by omega⟩
      · rintro ⟨m, h, hm⟩
        rwa [show k - chunk.length + n = m by omega]
    · rw [dropBytes, if_neg hk, border_cons hn, length_drop]
      refine exists_congr fun m => and_congr_right fun _ => ?_
      omega

theorem torn_nil {c : Char} :
    Torn chunks [] c ↔ ∃ n, Border chunks n ∧ 0 < n ∧ n < (String.utf8EncodeChar c).length := by
  rw [Torn, nil_append, Utf8.encode, Utf8.encode, flatMap_nil, flatMap_singleton]
  rfl

theorem torn_cons {c x : Char} {before : List Char} :
    Torn chunks (c :: before) x ↔
      Torn (dropBytes (String.utf8EncodeChar c).length chunks) before x := by
  have hencode : ∀ text, (Utf8.encode (c :: text)).length =
      (String.utf8EncodeChar c).length + (Utf8.encode text).length := by
    intro text
    rw [Utf8.encode, flatMap_cons, length_append]
    rfl
  rw [Torn, Torn, cons_append, hencode, hencode]
  constructor
  · rintro ⟨n, hn, hlow, hhigh⟩
    refine ⟨n - (String.utf8EncodeChar c).length, ?_, by omega, by omega⟩
    rwa [border_dropBytes (by omega), Nat.add_sub_cancel' (by omega)]
  · rintro ⟨n, hn, hlow, hhigh⟩
    rw [border_dropBytes (by omega)] at hn
    exact ⟨_, hn, by omega, by omega⟩

/-! ## What the chunks are decoded to -/

/-- Bytes that continue a character are replaced one by one, however they are cut. -/
theorem flatMap_decode_continues : ∀ {chunks : List (List UInt8)} {bytes rest : List UInt8},
    (∀ byte ∈ bytes, Utf8.Continues byte) → chunks.flatten = bytes ++ rest →
      chunks.flatMap Utf8.decode = List.replicate bytes.length Utf8.replacement ++
        (dropBytes bytes.length chunks).flatMap Utf8.decode
  | [], bytes, rest, _, hflatten => by
    obtain ⟨rfl, rfl⟩ := append_eq_nil_iff.mp hflatten.symm
    rfl
  | chunk :: chunks, bytes, rest, hbytes, hflatten => by
    rw [flatten_cons] at hflatten
    rw [flatMap_cons, dropBytes]
    by_cases hk : chunk.length < bytes.length
    · obtain ⟨more, rfl⟩ : chunk <+: bytes :=
        prefix_of_prefix_length_le ⟨_, hflatten⟩ (prefix_append _ _) (Nat.le_of_lt hk)
      rw [append_assoc] at hflatten
      have hhere := Utf8.decode_continues_append
        (fun byte hbyte => hbytes byte (mem_append_left _ hbyte)) []
      rw [append_nil] at hhere
      rw [if_pos hk, hhere, length_append, Nat.add_sub_cancel_left,
        flatMap_decode_continues (fun byte hbyte => hbytes byte (mem_append_right _ hbyte))
          (append_cancel_left hflatten), replicate_add]
      simp only [Utf8.decode_nil, append_nil, append_assoc]
    · obtain ⟨more, rfl⟩ : bytes <+: chunk :=
        prefix_of_prefix_length_le (prefix_append _ _) ⟨_, hflatten⟩
          (Nat.le_of_not_lt hk)
      rw [if_neg hk, drop_left, Utf8.decode_continues_append hbytes, append_assoc,
        flatMap_cons]

/-- What a character is decoded to, by the number of its bytes behind the first border. -/
def piece (mark : Char × Nat) : List Char :=
  if mark.2 = 0 ∨ mark.1.utf8Size = 1 then [mark.1]
  else List.replicate (mark.2 + 1) Utf8.replacement

/-- The first character of the stream: it is whole, or a border stands in it. -/
theorem flatMap_decode_char {c : Char} : ∀ {chunks : List (List UInt8)} {rest : List UInt8},
    chunks.flatten = String.utf8EncodeChar c ++ rest →
      ∃ m, chunks.flatMap Utf8.decode = piece (c, m) ++
          (dropBytes (String.utf8EncodeChar c).length chunks).flatMap Utf8.decode ∧
        (m = 0 ↔ ∀ n, 0 < n → n < (String.utf8EncodeChar c).length → ¬ Border chunks n)
  | [], rest, hflatten => by
    exact absurd (List.append_eq_nil_iff.mp hflatten.symm).1 String.utf8EncodeChar_ne_nil
  | chunk :: chunks, rest, hflatten => by
    rw [List.flatten_cons] at hflatten
    by_cases hk : chunk.length < (String.utf8EncodeChar c).length
    · obtain ⟨more, hmore⟩ : chunk <+: String.utf8EncodeChar c :=
        prefix_of_prefix_length_le ⟨_, hflatten⟩ (prefix_append _ _) (Nat.le_of_lt hk)
      rw [dropBytes, if_pos hk]
      cases chunk with
      | nil =>
        obtain ⟨m, hdecode, hborder⟩ := flatMap_decode_char hflatten
        refine ⟨m, hdecode, hborder.trans ?_⟩
        refine forall_congr' fun n => forall_congr' fun hn => forall_congr' fun _ => ?_
        rw [border_cons hn]
        simp
      | cons byte chunk =>
        have hne : more ≠ [] := by
          rintro rfl
          rw [append_nil] at hmore
          rw [hmore] at hk
          exact Nat.lt_irrefl _ hk
        have hsize : c.utf8Size = (byte :: chunk).length + more.length := by
          rw [← String.length_utf8EncodeChar, ← hmore, length_append]
        have hpos := length_pos_iff.mpr hne
        rw [← hmore, append_assoc] at hflatten
        refine ⟨more.length, ?_, iff_of_false (Nat.ne_of_gt hpos) fun hnone => ?_⟩
        · have hcontinues : ∀ b ∈ more, Utf8.Continues b := fun b hb =>
            Utf8.continues_of_mem hmore.symm b (mem_append_right _ hb)
          have hlarge : ¬ (more.length = 0 ∨ c.utf8Size = 1) := by
            rw [hsize, length_cons]
            omega
          rw [flatMap_cons, Utf8.decode_front hmore.symm (cons_ne_nil _ _) hne,
            flatMap_decode_continues hcontinues (append_cancel_left hflatten), piece,
            if_neg hlarge, String.length_utf8EncodeChar, hsize, Nat.add_sub_cancel_left,
            replicate_succ]
          rfl
        · refine hnone (byte :: chunk).length (Nat.succ_pos _) hk ⟨[byte :: chunk], ?_, ?_⟩
          · exact cons_prefix_cons.mpr ⟨rfl, nil_prefix⟩
          · rw [flatten_singleton]
    · obtain ⟨more, rfl⟩ : String.utf8EncodeChar c <+: chunk :=
        prefix_of_prefix_length_le (prefix_append _ _) ⟨_, hflatten⟩
          (Nat.le_of_not_lt hk)
      refine ⟨0, ?_, iff_of_true rfl fun n hn hlt hborder => ?_⟩
      · rw [dropBytes, if_neg hk, flatMap_cons, drop_left, Utf8.decode_char_append,
          flatMap_cons]
        rfl
      · obtain ⟨m, -, rfl⟩ := (border_cons hn).mp hborder
        rw [length_append] at hlt
        omega

/-- The text that the chunks give one by one, character by character of the stream. -/
theorem flatMap_decode_eq : ∀ {text : List Char} {chunks : List (List UInt8)},
    chunks.flatten = Utf8.encode text →
      ∃ marks : List (Char × Nat), marks.map Prod.fst = text ∧
        chunks.flatMap Utf8.decode = marks.flatMap piece ∧
        ∀ before mark after, marks = before ++ mark :: after →
          (mark.2 = 0 ↔ ¬ Torn chunks (before.map Prod.fst) mark.1)
  | [], chunks, h => by
    refine ⟨[], rfl, ?_, fun before mark after hmarks => by simp at hmarks⟩
    rw [List.flatMap_nil, List.flatMap_eq_nil_iff]
    intro chunk hchunk
    rw [List.flatten_eq_nil_iff.mp h chunk hchunk]
    rfl
  | c :: text, chunks, h => by
    rw [Utf8.encode, List.flatMap_cons] at h
    obtain ⟨m, hdecode, hm⟩ := flatMap_decode_char h
    have hrest : (dropBytes (String.utf8EncodeChar c).length chunks).flatten =
        Utf8.encode text := by
      rw [flatten_dropBytes, h, drop_left]
      rfl
    obtain ⟨marks, htext, hmarks, htorn⟩ := flatMap_decode_eq hrest
    refine ⟨(c, m) :: marks, ?_, ?_, fun before mark after hsplit => ?_⟩
    · rw [map_cons, htext]
    · rw [hdecode, hmarks, flatMap_cons]
    · cases before with
      | nil =>
        obtain ⟨rfl, -⟩ := List.cons.inj hsplit
        rw [map_nil, torn_nil, hm]
        constructor
        · rintro hnone ⟨n, hborder, hn, hlt⟩
          exact hnone n hn hlt hborder
        · exact fun hnone n hn hlt hborder => hnone ⟨n, hborder, hn, hlt⟩
      | cons first before =>
        obtain ⟨rfl, hrest⟩ := List.cons.inj hsplit
        rw [map_cons, torn_cons]
        exact htorn before mark after hrest

/-! ## Frames -/

theorem utf8Size_of_inTag {c : Char} (h : eventTags.InTag c) : c.utf8Size = 1 := by
  have hopening : (eventTags.opening.all fun c => c.utf8Size == 1) = true := by decide
  have hclosing : (eventTags.closing.all fun c => c.utf8Size == 1) = true := by decide
  rcases h with h | h
  · exact beq_iff_eq.mp (all_eq_true.mp hopening c h)
  · exact beq_iff_eq.mp (all_eq_true.mp hclosing c h)

theorem eventTags_apart : eventTags.Apart where
  heads := ⟨'<', "event".toList, "/event>".toList, rfl, rfl, by decide, by decide⟩
  opening := by decide
  closing := by decide

theorem expands_piece : eventTags.Expands Prod.fst piece := by
  intro mark
  rw [piece]
  by_cases hone : mark.2 = 0 ∨ mark.1.utf8Size = 1
  · rw [if_pos hone]
    exact Or.inl rfl
  · rw [if_neg hone]
    refine Or.inr ⟨fun htag => hone (Or.inr (utf8Size_of_inTag htag)), by simp, fun k hk => ?_⟩
    rw [eq_of_mem_replicate hk]
    intro htag
    exact absurd (utf8Size_of_inTag htag) (by decide)

theorem expands_single : eventTags.Expands (Prod.fst : Char × Nat → Char) fun mark => [mark.1] :=
  fun _ => Or.inl rfl

theorem piece_eq {mark : Char × Nat} (h : mark.2 = 0) : piece mark = [mark.1] :=
  if_pos (Or.inl h)

theorem length_piece {mark : Char × Nat} (h : mark.1.utf8Size = 1 → mark.2 = 0) :
    (piece mark).length = mark.2 + 1 := by
  by_cases hzero : mark.2 = 0
  · rw [piece_eq hzero, hzero]
    rfl
  · rw [piece, if_neg (not_or.mpr ⟨hzero, mt h hzero⟩), length_replicate]

theorem length_flatMap_piece : ∀ {frame : List (Char × Nat)},
    (∀ mark ∈ frame, mark.1.utf8Size = 1 → mark.2 = 0) →
      (frame.flatMap piece).length = (frame.map Prod.snd).sum + frame.length
  | [], _ => rfl
  | mark :: frame, h => by
    rw [flatMap_cons, length_append, length_piece (h mark mem_cons_self),
      length_flatMap_piece fun mark hmark => h mark (mem_cons_of_mem _ hmark),
      map_cons, sum_cons, length_cons]
    omega

/-- A frame comes out as it was sent when none of its characters is torn. -/
theorem flatMap_piece_eq_iff {frame : List (Char × Nat)}
    (h : ∀ mark ∈ frame, mark.1.utf8Size = 1 → mark.2 = 0) :
    frame.flatMap piece = frame.flatMap (fun mark => [mark.1]) ↔ ∀ mark ∈ frame, mark.2 = 0 := by
  constructor
  · intro heq mark hmark
    have hlength := congrArg List.length heq
    rw [length_flatMap_piece h, ← List.map_eq_flatMap, List.length_map] at hlength
    have hsum : (frame.map Prod.snd).sum = 0 := by omega
    exact List.sum_eq_zero_iff_forall_eq_nat.mp hsum _ (List.mem_map_of_mem hmark)
  · intro hzero
    exact List.flatMap_congr fun mark hmark => piece_eq (hzero mark hmark)

/-- Every character of the stream that lies in a frame satisfies a property of its mark. -/
theorem forall_inside_iff {marks : List (Char × Nat)} {P : Char × Nat → Prop} :
    (∀ i mark, marks[i]? = some mark →
        ∀ j, eventTags.InsideFrom (marks.map Prod.fst) i j → P mark) ↔
      ∀ before mark after, marks = before ++ mark :: after →
        eventTags.Inside (before.map Prod.fst) (after.map Prod.fst) → P mark := by
  constructor
  · rintro h before mark after rfl hinside
    obtain ⟨j, hj⟩ := (Tags.inside_iff (k := mark.1)).mp hinside
    refine h before.length mark ?_ j ?_
    · rw [List.getElem?_append_right (Nat.le_refl _), Nat.sub_self]
      rfl
    · rwa [List.map_append, List.map_cons, ← List.length_map (f := Prod.fst)]
  · intro h i mark hmark j hj
    obtain ⟨hi, hget⟩ := List.getElem?_eq_some_iff.mp hmark
    have hsplit : marks = marks.take i ++ mark :: marks.drop (i + 1) := by
      rw [← hget, List.cons_getElem_drop_succ, List.take_append_drop]
    refine h _ mark _ hsplit ((Tags.inside_iff (k := mark.1)).mpr ⟨j, ?_⟩)
    rw [← List.map_cons, ← List.map_append, ← hsplit, List.length_map, List.length_take,
      Nat.min_eq_left (Nat.le_of_lt hi)]
    exact hj

/-- The frames of a stream that is cut into chunks are those of the whole stream exactly when no
border between two chunks tears a character that lies in a frame. -/
theorem ingress_eq_whole_iff (text : List Char) (chunks : List (List UInt8))
    (hne : ∀ chunk ∈ chunks, chunk ≠ []) (hflatten : chunks.flatten = Utf8.encode text) :
    ingress chunks = ingress [Utf8.encode text] ↔
      ∀ before c after, text = before ++ c :: after → eventTags.Inside before after →
        ¬ Torn chunks before c := by
  obtain ⟨marks, rfl, hdecode, htorn⟩ := flatMap_decode_eq hflatten
  have hwhole : ingress [Utf8.encode (marks.map Prod.fst)] =
      (eventTags.scanner id).frames (marks.flatMap fun mark => [mark.1]) := by
    rw [← List.map_eq_flatMap]
    by_cases hempty : Utf8.encode (marks.map Prod.fst) = []
    · rw [hempty, ← Utf8.decode_encode (marks.map Prod.fst), hempty]
      exact Scanner.frames_nil.symm
    · rw [ingress_eq (by simpa using hempty), List.flatMap_singleton, Utf8.decode_encode]
  have hsmall : ∀ mark ∈ marks, mark.1.utf8Size = 1 → mark.2 = 0 := by
    intro mark hmark hsize
    obtain ⟨before, after, hsplit⟩ := List.append_of_mem hmark
    refine (htorn before mark after hsplit).mpr ?_
    rintro ⟨n, -, hlow, hhigh⟩
    rw [Utf8.encode, List.flatMap_append, List.flatMap_singleton, List.length_append,
      String.length_utf8EncodeChar, hsize] at hhigh
    rw [Utf8.encode] at hlow
    omega
  have hframes : ∀ frame ∈ (eventTags.scanner Prod.fst).frames marks, ∀ mark ∈ frame,
      mark.1.utf8Size = 1 → mark.2 = 0 :=
    (Tags.forall_frames_iff eventTags_apart marks fun mark hmark _ => hsmall mark hmark).mpr
      fun i mark hmark j _ => hsmall mark (List.mem_of_getElem? hmark)
  rw [ingress_eq hne, hdecode, hwhole, Tags.frames_expand expands_piece (by decide),
    Tags.frames_expand expands_single (by decide), List.map_inj_left]
  calc (∀ frame ∈ (eventTags.scanner Prod.fst).frames marks,
          frame.flatMap piece = frame.flatMap fun mark => [mark.1])
      ↔ ∀ frame ∈ (eventTags.scanner Prod.fst).frames marks, ∀ mark ∈ frame, mark.2 = 0 :=
        forall₂_congr fun frame hframe => flatMap_piece_eq_iff (hframes frame hframe)
    _ ↔ ∀ i mark, marks[i]? = some mark →
          ∀ j, eventTags.InsideFrom (marks.map Prod.fst) i j → mark.2 = 0 :=
        Tags.forall_frames_iff eventTags_apart marks fun mark hmark htag =>
          hsmall mark hmark (utf8Size_of_inTag htag)
    _ ↔ ∀ before mark after, marks = before ++ mark :: after →
          eventTags.Inside (before.map Prod.fst) (after.map Prod.fst) → mark.2 = 0 :=
        forall_inside_iff
    _ ↔ _ := by
        constructor
        · intro h before c after hsplit hinside
          obtain ⟨before, rest, rfl, rfl, hrest⟩ := List.map_eq_append_iff.mp hsplit
          obtain ⟨mark, after, rfl, rfl, rfl⟩ := List.map_eq_cons_iff.mp hrest
          exact (htorn before mark after rfl).mp (h before mark after rfl hinside)
        · intro h before mark after hsplit hinside
          refine (htorn before mark after hsplit).mpr (h _ _ _ ?_ hinside)
          rw [hsplit, List.map_append, List.map_cons]

/-- A character of two bytes in the text of a frame, cut between them, is torn. -/
theorem ingress_eq_whole_iff_cut :
    ingress [Utf8.encode "<event>".toList ++ [0xC3], 0xA9 :: Utf8.encode "</event>".toList] ≠
      ingress [Utf8.encode "<event>é</event>".toList] := by
  intro heq
  refine (ingress_eq_whole_iff _ _ (by decide) (by decide)).mp heq "<event>".toList 'é'
    "</event>".toList (by decide) ⟨[], ['>'], by decide, by decide, by decide⟩ ?_
  exact ⟨8, ⟨[_], List.cons_prefix_cons.mpr ⟨rfl, List.nil_prefix⟩, by decide⟩, by decide, by decide⟩

/-- The frame of the whole stream holds the character.  The frame of the two chunks holds two
replacement characters. -/
theorem ingress_torn :
    [Utf8.encode "<event>".toList ++ [0xC3], 0xA9 :: Utf8.encode "</event>".toList].flatten =
        Utf8.encode "<event>é</event>".toList ∧
      ingress [Utf8.encode "<event>é</event>".toList] = ["<event>é</event>".toList] ∧
      ingress [Utf8.encode "<event>".toList ++ [0xC3], 0xA9 :: Utf8.encode "</event>".toList] =
        ["<event>\uFFFD\uFFFD</event>".toList] ∧
      "<event>é</event>".toList ≠ "<event>\uFFFD\uFFFD</event>".toList := by
  refine ⟨by decide, ?_, ?_, by decide⟩
  · rw [ingress_eq (by decide), @Tags.frames_frame _ _ _ _ _ _ 0 8 (by decide) (by decide)]
    exact congrArg _ Scanner.frames_nil
  · rw [ingress_eq (by decide), @Tags.frames_frame _ _ _ _ _ _ 0 9 (by decide) (by decide)]
    exact congrArg _ Scanner.frames_nil

end Efdi.Tak
