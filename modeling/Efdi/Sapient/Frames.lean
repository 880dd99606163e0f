import Efdi.Base.BigEndian

/-!
# SAPIENT frames

A frame on the wire is a little-endian length of four bytes and that many bytes of protobuf.
`iter_frames` reads frames until the stream has no whole frame left or names a bad length.

What a stream of encoded frames has brought so far is some of its frames and a part of the next
one (`iterFrames_sent`).
-/

namespace Efdi.Sapient

open List

abbrev Bytes := List UInt8

abbrev Frame := List UInt8

/-- `MAX_FRAME_BYTES`. -/
def maxFrameBytes : Nat := 1048576

/-- `struct.unpack("<I", data[:4])[0]`. -/
def frameLength (data : Bytes) : Nat := BigEndian.ofBytes (data.take 4).reverse

/-- A length that the readers accept. -/
def GoodLength (length : Nat) : Prop := 0 < length ∧ length ≤ maxFrameBytes

instance (length : Nat) : Decidable (GoodLength length) :=
  inferInstanceAs (Decidable (_ ∧ _))

/-- A frame on the wire. -/
def encode (frame : Frame) : Bytes := (BigEndian.toBytes 4 frame.length).reverse ++ frame

/-- `iter_frames` on what has arrived: the frames it has yielded and the bytes it has not used. -/
def iterFrames (stream : Bytes) : List Frame × Bytes :=
  if stream.length < 4 then ([], stream)
  else if ¬GoodLength (frameLength stream) then ([], stream)
  else if stream.length < frameLength stream + 4 then ([], stream)
  else
    let later := iterFrames (stream.drop (frameLength stream + 4))
    ((stream.drop 4).take (frameLength stream) :: later.1, later.2)
termination_by stream.length
decreasing_by
  rw [List.length_drop]
  omega

/-! ### One look at a stream -/

section Look

variable {stream more : Bytes}

theorem iterFrames_short (h : stream.length < 4) : iterFrames stream = ([], stream) := by
  rw [iterFrames, if_pos h]

theorem iterFrames_part (h : stream.length < frameLength stream + 4) :
    iterFrames stream = ([], stream) := by
  rw [iterFrames, if_pos h, ite_self, ite_self]

theorem iterFrames_whole (hgood : GoodLength (frameLength stream))
    (h : frameLength stream + 4 ≤ stream.length) :
    iterFrames stream = ((stream.drop 4).take (frameLength stream) ::
      (iterFrames (stream.drop (frameLength stream + 4))).1,
      (iterFrames (stream.drop (frameLength stream + 4))).2) := by
  have hlong : ¬stream.length < 4 := by omega
  rw [iterFrames, if_neg hlong, if_neg (not_not_intro hgood), if_neg (Nat.not_lt.mpr h)]

theorem frameLength_append (h : 4 ≤ stream.length) :
    frameLength (stream ++ more) = frameLength stream := by
  rw [frameLength, frameLength, take_append_of_le_length h]

end Look

/-! ### A stream that goes on -/

theorem iterFrames_append (stream more : Bytes) :
    iterFrames (stream ++ more) =
      ((iterFrames stream).1 ++ (iterFrames ((iterFrames stream).2 ++ more)).1,
        (iterFrames ((iterFrames stream).2 ++ more)).2) := by
  by_cases hwhole : 4 ≤ stream.length ∧ GoodLength (frameLength stream) ∧
      frameLength stream + 4 ≤ stream.length
  · obtain ⟨hlong, hgood, hall⟩ := hwhole
    have hgood' : GoodLength (frameLength (stream ++ more)) := by
      rw [frameLength_append hlong]
      exact hgood
    have hall' : frameLength (stream ++ more) + 4 ≤ (stream ++ more).length := by
      rw [frameLength_append hlong, length_append]
      omega
    have hshrinks : (stream.drop (frameLength stream + 4)).length < stream.length := by
      rw [length_drop]
      omega
    have hbody : frameLength stream ≤ (stream.drop 4).length := by
      rw [length_drop]
      omega
    rw [iterFrames_whole hgood' hall', iterFrames_whole hgood hall, frameLength_append hlong,
      drop_append_of_le_length hlong, take_append_of_le_length hbody,
      drop_append_of_le_length hall, iterFrames_append (stream.drop _) more]
    rfl
  · have hstop : iterFrames stream = ([], stream) := by
      rw [iterFrames]
      split
      next _ => rfl
      next hlong =>
        split
        next _ => rfl
        next hgood =>
          split
          next _ => rfl
          next hall =>
            have hboth := Decidable.not_not.mp hgood
            exact absurd ⟨Nat.not_lt.mp hlong, hboth, Nat.not_lt.mp hall⟩ hwhole
    rw [hstop, nil_append]
termination_by stream.length

/-! ### Encoded frames -/

theorem length_encode (frame : Frame) : (encode frame).length = frame.length + 4 := by
  rw [encode, length_append, length_reverse, BigEndian.length_toBytes, Nat.add_comm]

theorem maxFrameBytes_lt : maxFrameBytes < 256 ^ 4 := by decide

variable {frame : Frame} {frames : List Frame}

theorem frameLength_encode (hgood : GoodLength frame.length) (more : Bytes) :
    frameLength (encode frame ++ more) = frame.length := by
  have hhead : (encode frame ++ more).take 4 = (BigEndian.toBytes 4 frame.length).reverse := by
    rw [encode, append_assoc, take_append_of_le_length (by simp),
      take_of_length_le (by simp)]
  rw [frameLength, hhead, reverse_reverse,
    BigEndian.ofBytes_toBytes (Nat.lt_of_le_of_lt hgood.2 maxFrameBytes_lt)]

/-- A prefix of a frame and what follows: a part of the frame, or the frame and more. -/
theorem prefix_encode_cases {stream more : Bytes} (hsent : stream <+: encode frame ++ more) :
    (stream.length < frame.length + 4) ∨
      ∃ later, stream = encode frame ++ later ∧ later <+: more := by
  rcases Nat.lt_or_ge stream.length (frame.length + 4) with hshort | hlong
  · exact .inl hshort
  · rw [← length_encode] at hlong
    obtain ⟨later, hlater⟩ := prefix_of_prefix_length_le (prefix_append _ _) hsent hlong
    rw [← hlater] at hsent
    exact .inr ⟨later, hlater.symm, (prefix_append_right_inj _).mp hsent⟩

/-- The length that a prefix of four bytes or more shows. -/
theorem frameLength_sent (hgood : GoodLength frame.length) {stream more : Bytes}
    (hsent : stream <+: encode frame ++ more) (hlong : 4 ≤ stream.length) :
    frameLength stream = frame.length := by
  obtain ⟨rest, hrest⟩ := hsent
  rw [← @frameLength_append stream rest hlong, hrest, frameLength_encode hgood]

theorem iterFrames_encode (hgood : GoodLength frame.length) (more : Bytes) :
    iterFrames (encode frame ++ more) =
      (frame :: (iterFrames more).1, (iterFrames more).2) := by
  have hlength : frameLength (encode frame ++ more) = frame.length :=
    frameLength_encode hgood more
  have hall : frameLength (encode frame ++ more) + 4 ≤ (encode frame ++ more).length := by
    rw [hlength, length_append, length_encode]
    exact Nat.le_add_right _ _
  have hbody : ((encode frame ++ more).drop 4).take frame.length = frame := by
    rw [encode, append_assoc, drop_left' (by simp), take_left' rfl]
  rw [iterFrames_whole (hlength ▸ hgood) hall, hlength, hbody,
    drop_left' (length_encode frame)]

theorem iterFrames_nil : iterFrames [] = ([], []) := iterFrames_short (by decide)

/-- What has arrived of encoded frames: some of the frames, and what is left over is the beginning
of the others. -/
theorem iterFrames_sent (hgood : ∀ frame ∈ frames, GoodLength frame.length) :
    ∀ {stream : Bytes}, stream <+: frames.flatMap encode →
      ∃ later, frames = (iterFrames stream).1 ++ later ∧
        stream = (iterFrames stream).1.flatMap encode ++ (iterFrames stream).2 ∧
        (iterFrames stream).2 <+: later.flatMap encode := by
  induction frames with
  | nil =>
    intro stream hsent
    rw [prefix_nil.mp hsent, iterFrames_nil]
    exact ⟨[], rfl, rfl, prefix_rfl⟩
  | cons frame frames ih =>
    intro stream hsent
    rw [flatMap_cons] at hsent
    have hframe : GoodLength frame.length := hgood frame mem_cons_self
    rcases prefix_encode_cases hsent with hpart | ⟨more, rfl, hmore⟩
    · have hstop : iterFrames stream = ([], stream) := by
        rcases Nat.lt_or_ge stream.length 4 with hshort | hlong
        · exact iterFrames_short hshort
        · exact iterFrames_part (by rw [frameLength_sent hframe hsent hlong]; exact hpart)
      rw [hstop]
      exact ⟨frame :: frames, rfl, rfl, hsent⟩
    · obtain ⟨later, hframes, hstream, hlater⟩ :=
        ih (fun f hf => hgood f (mem_cons_of_mem frame hf)) hmore
      rw [iterFrames_encode hframe]
      refine ⟨later, ?_, ?_, hlater⟩
      · exact congrArg (frame :: ·) hframes
      · rw [flatMap_cons, append_assoc, ← hstream]

theorem iterFrames_flatMap_append (hgood : ∀ frame ∈ frames, GoodLength frame.length)
    (more : Bytes) :
    iterFrames (frames.flatMap encode ++ more) =
      (frames ++ (iterFrames more).1, (iterFrames more).2) := by
  induction frames with
  | nil => rfl
  | cons frame frames ih =>
    rw [flatMap_cons, append_assoc,
      iterFrames_encode (hgood frame mem_cons_self),
      ih fun f hf => hgood f (mem_cons_of_mem frame hf)]
    rfl

/-- A whole stream of encoded frames is read back. -/
theorem iterFrames_flatMap (hgood : ∀ frame ∈ frames, GoodLength frame.length) :
    iterFrames (frames.flatMap encode) = (frames, []) := by
  have hall := iterFrames_flatMap_append hgood []
  rwa [iterFrames_nil, append_nil, append_nil] at hall

end Efdi.Sapient
