import Efdi.Base.Roots
import Efdi.Base.Utf8
import Efdi.Tak.Ip1

/-!
# NFFI and FFI ingress

`Ip1Reader.feed` of the NFFI bridge cuts a stream into documents.  A buffer that begins with `<`
is decoded and cut by the tags of the root elements, and what is left is encoded again.  Any other
buffer is read as a header, or loses its first byte.

A pass through the loop that goes on leaves fewer `<` in the buffer, or as many and fewer bytes
(`turn_again`), so the loop ends (`loopWithin_eq`).
-/

namespace Efdi.Tak.Ip1Reader

open Framing

/-- The kind of a document. -/
inductive Kind where
  | nffi
  | ffi
deriving DecidableEq

/-- A document of the returned list. -/
abbrev Entry := Kind × List UInt8

/-- `"<" + tag` and `"</{}>".format(tag)`. -/
def tagsOf (tag : String) : Tags Char where
  opening := '<' :: tag.toList
  closing := "</".toList ++ tag.toList ++ ['>']
  keep := tag.toList.length + 1
  closing_ne := by simp
  opening_le := Nat.le_refl _

/-- `_FRAME_TAGS`. -/
def frameTags : List String := ["NFFIMessage", "track", "mtf:FriendlyForceInformation"]

/-- The tags that `_extract_frames` looks for, and how much text it keeps while it sees none. -/
def roots : Roots Char where
  tags := frameTags.map tagsOf
  keep := 64
  mark := '<'
  headed := by
    intro T hT
    obtain ⟨tag, htag, rfl⟩ := List.mem_map.mp hT
    exact ⟨tag.toList, rfl, (by decide : ∀ tag ∈ frameTags, '<' ∉ tag.toList) tag htag⟩
  opening_le := by
    intro T hT
    obtain ⟨tag, htag, rfl⟩ := List.mem_map.mp hT
    show (tag.toList.length + 1) ≤ ("</".toList ++ tag.toList ++ ['>']).length
    rw [List.length_append, List.length_append]
    exact Nat.succ_le_succ (Nat.le_add_left _ _)
  keep_le := by
    intro T hT
    obtain ⟨tag, htag, rfl⟩ := List.mem_map.mp hT
    exact (by decide : ∀ tag ∈ frameTags, tag.toList.length + 1 ≤ 64) tag htag
  apart := by
    intro T hT T' hT' hpre
    obtain ⟨tag, htag, rfl⟩ := List.mem_map.mp hT
    obtain ⟨tag', htag', rfl⟩ := List.mem_map.mp hT'
    have happart : ∀ tag ∈ frameTags, ∀ tag' ∈ frameTags, tag.toList <+: tag'.toList →
        tag = tag' := by decide
    rw [happart tag htag tag' htag' (List.cons_prefix_cons.mp hpre).2]

/-- `_extract_frames`: the frames that the buffer holds, and what is left in the buffer. -/
def extractFrames (text : List Char) : List (List Char) × List Char := roots.scanner.drain text

/-- `_kind_of`. -/
def kindOf (xml : List UInt8) : Kind :=
  if (Search.find? (Utf8.encode "FriendlyForceInformation".toList) (xml.take 400)).isSome then .ffi
  else .nffi

/-- `_KIND_BY_TYPE`. -/
def kindByType (type : UInt8) : Option Kind :=
  if type = 0x04 then some .nffi else if type = 0x14 then some .ffi else none

/-- `HEADER_LEN`. -/
def headerLen : Nat := 16

/-- What one pass through the loop of `feed` does: it breaks, or it goes on. -/
inductive Turn where
  | stop (buf : List UInt8)
  | again (out : List Entry) (buf : List UInt8)

/-- The entry of a frame that was cut by its tags. -/
def bareEntry (frame : List Char) : Entry := (kindOf (Utf8.encode frame), Utf8.encode frame)

/-- One pass through the loop of `feed`, for a buffer that is not empty. -/
def turn (buf : List UInt8) : Turn :=
  if buf.head? = some 0x3C then
    let frames := extractFrames (Utf8.decode buf)
    if frames.1 = [] then .stop (Utf8.encode frames.2)
    else .again (frames.1.map bareEntry) (Utf8.encode frames.2)
  else if buf.length < headerLen then .stop buf
  else if (buf.drop 1).take 3 ≠ [0, 0, 0] ∨ (buf.drop 8).take 4 ≠ [0, 0, 0, 0] then
    -- not a header: look for the next one
    .again [] (buf.drop 1)
  else
    let length := BigEndian.ofBytes ((buf.drop 14).take 2)
    if buf.length < headerLen + length then .stop buf
    else
      let xml := (buf.drop headerLen).take length
      .again [((buf.head?.bind kindByType).getD (kindOf xml), xml)]
        (buf.drop (headerLen + length))

/-! ## The loop ends -/

theorem turn_again {buf rest : List UInt8} {out : List Entry} (hne : buf ≠ [])
    (h : turn buf = .again out rest) :
    rest.count 0x3C < buf.count 0x3C ∨
      rest.count 0x3C ≤ buf.count 0x3C ∧ rest.length < buf.length := by
  rw [turn] at h
  split at h
  · dsimp only at h
    split at h
    · cases h
    · next hframes =>
      cases h
      have hrest := (roots.drain_rest (Utf8.decode buf)).2 hframes
      have hencode := Utf8.count_encode (c := '<') (by decide) (extractFrames (Utf8.decode buf)).2
      have hdecode := Utf8.count_decode (c := '<') (by decide) buf
      exact Or.inl (Nat.lt_of_le_of_lt hencode (Nat.lt_of_lt_of_le hrest hdecode))
  have hpos : 0 < buf.length := List.length_pos_iff.mpr hne
  have hdrop : ∀ n, 0 < n → (buf.drop n).count 0x3C ≤ buf.count 0x3C ∧
      (buf.drop n).length < buf.length := by
    intro n hn
    refine ⟨(List.drop_sublist n buf).count_le _, ?_⟩
    rw [List.length_drop]
    omega
  split at h
  · cases h
  split at h
  · cases h
    exact Or.inr (hdrop 1 Nat.one_pos)
  dsimp only at h
  split at h
  · cases h
  · cases h
    exact Or.inr (hdrop _ (Nat.add_pos_left (by decide) _))

/-- The loop of `feed`: what is returned, and the buffer that is left. -/
def loop (buf : List UInt8) : List Entry × List UInt8 :=
  if hne : buf = [] then ([], [])
  else
    match hturn : turn buf with
    | .stop rest => ([], rest)
    | .again out rest => (out ++ (loop rest).1, (loop rest).2)
termination_by (buf.count 0x3C, buf.length)
decreasing_by
  all_goals
    rcases turn_again hne hturn with h | ⟨hle, h⟩
    · exact Prod.Lex.left _ _ h
    · exact Prod.Lex.right' _ hle h

/-- `Ip1Reader.feed`. -/
def feed (buf data : List UInt8) : List Entry × List UInt8 := loop (buf ++ data)

/-- The calls of `feed`: what they return, one after the other. -/
def readAll : List UInt8 → List (List UInt8) → List Entry
  | _, [] => []
  | buf, chunk :: chunks =>
    let fed := feed buf chunk
    fed.1 ++ readAll fed.2 chunks

/-- The loop, with a bound on the passes. -/
def loopWithin : Nat → List UInt8 → Option (List Entry × List UInt8)
  | 0, _ => none
  | turns + 1, buf =>
    if buf = [] then some ([], [])
    else
      match turn buf with
      | .stop rest => some ([], rest)
      | .again out rest => (loopWithin turns rest).map fun done => (out ++ done.1, done.2)

theorem loop_nil : loop [] = ([], []) := by
  rw [loop, dif_pos rfl]

theorem loop_stop {buf rest : List UInt8} (hne : buf ≠ []) (h : turn buf = .stop rest) :
    loop buf = ([], rest) := by
  rw [loop, dif_neg hne]
  split
  next rest' hturn =>
    rw [h] at hturn
    cases hturn
    rfl
  next out rest' hturn =>
    rw [h] at hturn
    cases hturn

theorem loop_again {buf rest : List UInt8} {out : List Entry} (hne : buf ≠ [])
    (h : turn buf = .again out rest) : loop buf = (out ++ (loop rest).1, (loop rest).2) := by
  rw [loop, dif_neg hne]
  split
  next rest' hturn =>
    rw [h] at hturn
    cases hturn
  next out' rest' hturn =>
    rw [h] at hturn
    cases hturn
    rfl

/-- Enough passes finish the loop. -/
theorem loopWithin_eq (buf : List UInt8) : ∃ turns, loopWithin turns buf = some (loop buf) := by
  by_cases hne : buf = []
  · refine ⟨1, ?_⟩
    rw [hne, loopWithin, if_pos rfl, loop_nil]
  cases hturn : turn buf with
  | stop rest =>
    refine ⟨1, ?_⟩
    rw [loopWithin, if_neg hne, hturn, loop_stop hne hturn]
  | again out rest =>
    have hless := turn_again hne hturn
    obtain ⟨turns, hrest⟩ := loopWithin_eq rest
    refine ⟨turns + 1, ?_⟩
    rw [loopWithin, if_neg hne, hturn, loop_again hne hturn]
    simp [hrest]
termination_by (buf.count 0x3C, buf.length)
decreasing_by
  rcases hless with h | ⟨hle, h⟩
  · exact Prod.Lex.left _ _ h
  · exact Prod.Lex.right' _ hle h

end Efdi.Tak.Ip1Reader
