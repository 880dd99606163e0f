import Efdi.Base.Varint
import Efdi.Sapient.Wire

/-!
# What the wire reader accepts

`_encode_varint` writes the shortest bytes of a number, and a message of fields written with it is
read back.  The other way round, what `iter_fields` accepts is a message of complete fields, one
after the other, and each field takes the bytes of its `Piece`.  The reader stops a number by a
count of ten bytes, so a tenth byte may carry six bits more than the 64 that its error message
names.
-/

namespace Efdi.Sapient

open List

/-! ## Writing fields -/

/-- `_encode_varint`. -/
def encodeVarint (value : Nat) : Bytes :=
  if 0x80 ≤ value then
    UInt8.ofNat ((value &&& 0x7F) ||| 0x80) :: encodeVarint (value >>> 7)
  else [UInt8.ofNat value]
termination_by value
decreasing_by
  rw [Nat.shiftRight_eq_div_pow]
  omega

theorem encodeVarint_eq (value : Nat) : encodeVarint value = Varint.encode value := by
  induction value using Varint.encode.induct with
  | case1 value h => rw [encodeVarint, if_neg (by omega), Varint.encode_of_lt h]
  | case2 value h ih =>
    have hlow : (value &&& 0x7F) ||| 0x80 = value % 128 + 128 := by
      rw [Nat.and_two_pow_sub_one_eq_mod value 7, Nat.or_comm,
        ← Nat.two_pow_add_eq_or_of_lt (i := 7) (by omega) 1]
      omega
    rw [encodeVarint, if_pos (by omega), Varint.encode_of_le (by omega), hlow,
      Nat.shiftRight_eq_div_pow, ih]

/-- `value.to_bytes(width, "little")`. -/
def toLittleEndian (width value : Nat) : Bytes := (BigEndian.toBytes width value).reverse

def WireField.number : WireField → Nat
  | .varint number _ | .fixed64 number _ | .delimited number _ | .fixed32 number _ => number

/-- A field with the tag `number << 3 | wire_type` before its value. -/
def encodeField : WireField → Bytes
  | .varint number value => encodeVarint ((number <<< 3) ||| 0) ++ encodeVarint value
  | .fixed64 number value => encodeVarint ((number <<< 3) ||| 1) ++ toLittleEndian 8 value
  | .delimited number value =>
    encodeVarint ((number <<< 3) ||| 2) ++ encodeVarint value.length ++ value
  | .fixed32 number value => encodeVarint ((number <<< 3) ||| 5) ++ toLittleEndian 4 value

/-- A field that the wire format can carry.  No `bytes` object is as long as the bound here. -/
structure WireField.Valid (field : WireField) : Prop where
  number_pos : 1 ≤ field.number
  number_lt : field.number < 2 ^ 29
  value_lt : match field with
    | .varint _ value | .fixed64 _ value => value < 2 ^ 64
    | .delimited _ value => value.length < 2 ^ 64
    | .fixed32 _ value => value < 2 ^ 32

/-! ## Reading a number -/

theorem and_seven_bits (byte : UInt8) : byte.toNat &&& 0x7F = byte.toNat % 128 :=
  Nat.and_two_pow_sub_one_eq_mod byte.toNat 7

theorem high_bit_iff (byte : UInt8) : byte.toNat &&& 0x80 = 0 ↔ byte.toNat < 128 := by
  have hall : ∀ n : Fin 256, n.val &&& 0x80 = 0 ↔ n.val < 128 := by decide +kernel
  exact hall ⟨byte.toNat, byte.toNat_lt⟩

variable {before shift value : Nat} {data rest : Bytes} {piece : Piece}

theorem or_shifted (h : before < 2 ^ shift) (byte : UInt8) :
    before ||| ((byte.toNat &&& 0x7F) <<< shift) = before + 2 ^ shift * (byte.toNat % 128) := by
  rw [and_seven_bits, Nat.shiftLeft_eq, Nat.mul_comm, Nat.or_comm,
    ← Nat.two_pow_add_eq_or_of_lt h, Nat.add_comm]

theorem or_shifted_lt (h : before < 2 ^ shift) (byte : UInt8) :
    before + 2 ^ shift * (byte.toNat % 128) < 2 ^ (shift + 7) := by
  have hbyte : byte.toNat % 128 + 1 ≤ 128 := Nat.mod_lt _ (by decide)
  calc before + 2 ^ shift * (byte.toNat % 128)
      < 2 ^ shift + 2 ^ shift * (byte.toNat % 128) := Nat.add_lt_add_right h _
    _ = 2 ^ shift * (byte.toNat % 128 + 1) := by ring
    _ ≤ 2 ^ shift * 128 := Nat.mul_le_mul_left _ hbyte
    _ = 2 ^ (shift + 7) := by rw [Nat.pow_add]

/-- The rounds of `_read_varint` take the bytes of one number. -/
theorem readVarintRounds_eq_ok_iff {rounds : Nat} (h : before < 2 ^ shift) :
    readVarintRounds rounds shift before data = .ok (value, rest) ↔
      ∃ bytes, data = bytes ++ rest ∧ Varint.Whole bytes ∧ bytes.length ≤ rounds ∧
        value = before + 2 ^ shift * Varint.valueOf bytes := by
  induction rounds generalizing shift before data with
  | zero =>
    constructor
    · intro hread
      cases hread
    · rintro ⟨bytes, -, hwhole, hlength, -⟩
      cases hwhole <;> simp at hlength
  | succ rounds ih =>
    cases data with
    | nil =>
      constructor
      · intro hread
        cases hread
      · rintro ⟨bytes, hdata, hwhole, -, -⟩
        cases hwhole <;> simp at hdata
    | cons byte data =>
      rw [readVarintRounds, or_shifted h]
      by_cases hlast : byte.toNat &&& 0x80 = 0
      · have hlt := (high_bit_iff byte).mp hlast
        rw [if_pos hlast]
        constructor
        · intro hread
          cases hread
          refine ⟨[byte], rfl, .last hlt, by simp, ?_⟩
          rw [Varint.valueOf, Varint.valueOf, Nat.mul_zero, Nat.add_zero]
        · rintro ⟨bytes, hdata, hwhole, -, rfl⟩
          cases hwhole with
          | last _ =>
            cases hdata
            simp [Varint.valueOf]
          | more hmore _ =>
            cases hdata
            omega
      · have hle := Nat.not_lt.mp (mt (high_bit_iff byte).mpr hlast)
        rw [if_neg hlast, ih (or_shifted_lt h byte)]
        constructor
        · rintro ⟨bytes, rfl, hwhole, hlength, rfl⟩
          refine ⟨byte :: bytes, rfl, .more hle hwhole, Nat.succ_le_succ hlength, ?_⟩
          rw [Varint.valueOf, Nat.pow_add]
          ring
        · rintro ⟨bytes, hdata, hwhole, hlength, rfl⟩
          cases hwhole with
          | last hlt =>
            cases hdata
            omega
          | more _ hrest =>
            cases hdata
            refine ⟨_, rfl, hrest, Nat.le_of_succ_le_succ hlength, ?_⟩
            rw [Varint.valueOf, Nat.pow_add]
            ring

/-- What `_read_varint` takes as one number. -/
structure IsVarint (bytes : Bytes) : Prop where
  whole : Varint.Whole bytes
  short : bytes.length ≤ 10

theorem readVarint_eq_ok_iff :
    readVarint data = .ok (value, rest) ↔
      ∃ bytes, data = bytes ++ rest ∧ IsVarint bytes ∧ value = Varint.valueOf bytes := by
  rw [readVarint, readVarintRounds_eq_ok_iff (by simp)]
  constructor
  · rintro ⟨bytes, rfl, hwhole, hshort, rfl⟩
    exact ⟨bytes, rfl, ⟨hwhole, hshort⟩, by simp⟩
  · rintro ⟨bytes, rfl, ⟨hwhole, hshort⟩, rfl⟩
    exact ⟨bytes, rfl, hwhole, hshort, by simp⟩

theorem readVarint_append {bytes : Bytes} (h : IsVarint bytes) (rest : Bytes) :
    readVarint (bytes ++ rest) = .ok (Varint.valueOf bytes, rest) :=
  readVarint_eq_ok_iff.mpr ⟨bytes, rfl, h, rfl⟩

theorem isVarint_encodeVarint (h : value < 2 ^ 64) :
    IsVarint (encodeVarint value) := by
  rw [encodeVarint_eq]
  exact ⟨Varint.whole_encode value, Varint.length_encode_le 9 (by omega)⟩

theorem valueOf_encodeVarint (value : Nat) : Varint.valueOf (encodeVarint value) = value := by
  rw [encodeVarint_eq, Varint.valueOf_encode]

/-! ## Reading fields -/

theorem slice_eq_ok_iff {length : Nat} {truncated : String} {value : Bytes} :
    slice length truncated data = .ok (value, rest) ↔
      data = value ++ rest ∧ value.length = length := by
  rw [slice]
  constructor
  · intro h
    split at h
    next _ => cases h
    next hle =>
      cases h
      exact ⟨(take_append_drop length data).symm, by simp; omega⟩
  · rintro ⟨rfl, rfl⟩
    rw [if_neg (by simp)]
    simp

/-- The bytes of one field: those of its tag, of its value or length, and its contents. -/
inductive Piece where
  | varint (tag value : Bytes)
  | fixed64 (tag value : Bytes)
  | delimited (tag length value : Bytes)
  | fixed32 (tag value : Bytes)

namespace Piece

def tag : Piece → Bytes
  | varint tag _ | fixed64 tag _ | delimited tag _ _ | fixed32 tag _ => tag

def wireType : Piece → Nat
  | varint .. => 0
  | fixed64 .. => 1
  | delimited .. => 2
  | fixed32 .. => 5

/-- The bytes after the tag. -/
def contents : Piece → Bytes
  | varint _ value | fixed64 _ value | fixed32 _ value => value
  | delimited _ length value => length ++ value

/-- The extent of the field in the message. -/
def bytes (piece : Piece) : Bytes := piece.tag ++ piece.contents

/-- The numbers of the field that `_read_varint` reads. -/
def varints : Piece → List Bytes
  | varint tag value => [tag, value]
  | fixed64 tag _ | fixed32 tag _ => [tag]
  | delimited tag length _ => [tag, length]

def number (piece : Piece) : Nat := Varint.valueOf piece.tag / 8

def field : Piece → WireField
  | varint tag value => .varint (varint tag value).number (Varint.valueOf value)
  | fixed64 tag value => .fixed64 (fixed64 tag value).number (littleEndian value)
  | delimited tag length value => .delimited (delimited tag length value).number value
  | fixed32 tag value => .fixed32 (fixed32 tag value).number (littleEndian value)

/-- The value has the size that the wire type or the length asks for. -/
def Sized : Piece → Prop
  | varint .. => True
  | fixed64 _ value => value.length = 8
  | delimited _ length value => value.length = Varint.valueOf length
  | fixed32 _ value => value.length = 4

structure Complete (piece : Piece) : Prop where
  varints : ∀ bytes ∈ piece.varints, IsVarint bytes
  wireType : Varint.valueOf piece.tag % 8 = piece.wireType
  number : piece.number ≠ 0
  sized : piece.Sized

end Piece

open Piece

theorem tag_bits (tag : Nat) : tag >>> 3 = tag / 8 ∧ tag &&& 0x07 = tag % 8 :=
  ⟨Nat.shiftRight_eq_div_pow tag 3, Nat.and_two_pow_sub_one_eq_mod tag 3⟩

/-- A round of `iter_fields` past the tag. -/
def readValue (number wireType : Nat) (rest : Bytes) : Except String (WireField × Bytes) :=
  match wireType with
  | 0 => (readVarint rest).map fun (value, rest) => (.varint number value, rest)
  | 1 =>
    (slice 8 "truncated protobuf fixed64" rest).map fun (value, rest) =>
      (.fixed64 number (littleEndian value), rest)
  | 2 =>
    match readVarint rest with
    | .error raised => .error raised
    | .ok (length, rest) =>
      (slice length "truncated protobuf length-delimited field" rest).map
        fun (value, rest) => (.delimited number value, rest)
  | 5 =>
    (slice 4 "truncated protobuf fixed32" rest).map fun (value, rest) =>
      (.fixed32 number (littleEndian value), rest)
  | wireType => .error ("unsupported protobuf wire type " ++ toString wireType)

theorem readField_append {tag : Bytes} (h : IsVarint tag) (rest : Bytes) :
    readField (tag ++ rest) =
      if Varint.valueOf tag / 8 = 0 then .error "invalid protobuf field zero"
      else readValue (Varint.valueOf tag / 8) (Varint.valueOf tag % 8) rest := by
  rw [readField, readVarint_append h]
  dsimp only
  rw [(tag_bits _).1, (tag_bits _).2]
  rfl

theorem readField_complete (h : piece.Complete) (rest : Bytes) :
    readField (piece.tag ++ rest) = readValue piece.number piece.wireType rest := by
  have htag : IsVarint piece.tag := by
    cases piece <;> exact h.varints _ mem_cons_self
  have hnumber : Varint.valueOf piece.tag / 8 ≠ 0 := h.number
  rw [readField_append htag, if_neg hnumber, h.wireType, Piece.number]

/-- A round of `iter_fields` takes the bytes of a complete field. -/
theorem exists_piece_of_readField {field : WireField} (h : readField data = .ok (field, rest)) :
    ∃ piece : Piece, piece.Complete ∧ piece.field = field ∧ data = piece.bytes ++ rest := by
  cases hread : readVarint data with
  | error raised =>
    rw [readField, hread] at h
    cases h
  | ok found =>
    obtain ⟨tagValue, after⟩ := found
    obtain ⟨tag, rfl, htag, -⟩ := readVarint_eq_ok_iff.mp hread
    rw [readField_append htag] at h
    split at h
    next _ => cases h
    next hnumber =>
      unfold readValue at h
      split at h
      next hwire =>
        obtain ⟨⟨_, _⟩, hvalue, hfield⟩ := map_eq_ok h
        cases hfield
        obtain ⟨value, rfl, hbytes, rfl⟩ := readVarint_eq_ok_iff.mp hvalue
        exact ⟨.varint tag value, ⟨by simp [varints, htag, hbytes], hwire, hnumber, trivial⟩,
          rfl, by simp [bytes, Piece.tag, Piece.contents]⟩
      next hwire =>
        obtain ⟨⟨value, _⟩, hvalue, hfield⟩ := map_eq_ok h
        cases hfield
        obtain ⟨rfl, hlength⟩ := slice_eq_ok_iff.mp hvalue
        exact ⟨.fixed64 tag value, ⟨by simp [varints, htag], hwire, hnumber, hlength⟩,
          rfl, by simp [bytes, Piece.tag, Piece.contents]⟩
      next hwire =>
        split at h
        next _ => cases h
        next length body hlength =>
          obtain ⟨⟨value, _⟩, hvalue, hfield⟩ := map_eq_ok h
          cases hfield
          obtain ⟨size, rfl, hsize, rfl⟩ := readVarint_eq_ok_iff.mp hlength
          obtain ⟨rfl, hsized⟩ := slice_eq_ok_iff.mp hvalue
          exact ⟨.delimited tag size value,
            ⟨by simp [varints, htag, hsize], hwire, hnumber, hsized⟩, rfl,
            by simp [bytes, Piece.tag, Piece.contents]⟩
      next hwire =>
        obtain ⟨⟨value, _⟩, hvalue, hfield⟩ := map_eq_ok h
        cases hfield
        obtain ⟨rfl, hlength⟩ := slice_eq_ok_iff.mp hvalue
        exact ⟨.fixed32 tag value, ⟨by simp [varints, htag], hwire, hnumber, hlength⟩,
          rfl, by simp [bytes, Piece.tag, Piece.contents]⟩
      next _ => cases h

theorem readValue_contents (h : piece.Complete) (rest : Bytes) :
    readValue piece.number piece.wireType (piece.contents ++ rest) = .ok (piece.field, rest) := by
  cases piece with
  | varint tag value =>
    have hvalue : IsVarint value := h.varints value (by simp [varints])
    rw [wireType, readValue, Piece.contents, readVarint_append hvalue]
    rfl
  | fixed64 tag value =>
    have hsized : value.length = 8 := h.sized
    rw [wireType, readValue, Piece.contents, slice_eq_ok_iff.mpr ⟨rfl, hsized⟩]
    rfl
  | delimited tag length value =>
    have hlength : IsVarint length := h.varints length (by simp [varints])
    have hsized : value.length = Varint.valueOf length := h.sized
    rw [wireType, readValue, Piece.contents, append_assoc, readVarint_append hlength]
    dsimp only
    rw [slice_eq_ok_iff.mpr ⟨rfl, hsized⟩]
    rfl
  | fixed32 tag value =>
    have hsized : value.length = 4 := h.sized
    rw [wireType, readValue, Piece.contents, slice_eq_ok_iff.mpr ⟨rfl, hsized⟩]
    rfl

theorem readField_bytes (h : piece.Complete) (rest : Bytes) :
    readField (piece.bytes ++ rest) = .ok (piece.field, rest) := by
  rw [bytes, append_assoc, readField_complete h, readValue_contents h]

/-- A message that is read is the extents of its fields, one after the other. -/
theorem fieldList_eq_ok_iff {fields : List WireField} :
    fieldList data = .ok fields ↔
      ∃ pieces : List Piece, (∀ piece ∈ pieces, piece.Complete) ∧
        pieces.map Piece.field = fields ∧ data = pieces.flatMap Piece.bytes := by
  constructor
  · intro h
    induction data using fieldList.induct generalizing fields with
    | case1 =>
      rw [fieldList_nil] at h
      cases h
      exact ⟨[], by simp, rfl, rfl⟩
    | case2 data hne raised hraised =>
      rw [fieldList_of_error hne hraised] at h
      cases h
    | case3 data hne field rest hfield ih =>
      rw [fieldList_of_readField hfield] at h
      obtain ⟨later, hlater, rfl⟩ := map_eq_ok h
      obtain ⟨pieces, hcomplete, rfl, rfl⟩ := ih hlater
      obtain ⟨piece, hpiece, rfl, rfl⟩ := exists_piece_of_readField hfield
      exact ⟨piece :: pieces, forall_mem_cons.mpr ⟨hpiece, hcomplete⟩, rfl, rfl⟩
  · rintro ⟨pieces, hcomplete, rfl, rfl⟩
    induction pieces with
    | nil => exact fieldList_nil
    | cons piece pieces ih =>
      obtain ⟨hpiece, hlater⟩ := forall_mem_cons.mp hcomplete
      rw [flatMap_cons, fieldList_of_readField (readField_bytes hpiece _), ih hlater]
      rfl

/-! ## A message of fields is read back -/

theorem littleEndian_toLittleEndian {width : Nat} (h : value < 256 ^ width) :
    littleEndian (toLittleEndian width value) = value := by
  rw [littleEndian, toLittleEndian, reverse_reverse, BigEndian.ofBytes_toBytes h]

theorem length_toLittleEndian (width value : Nat) :
    (toLittleEndian width value).length = width := by
  rw [toLittleEndian, length_reverse, BigEndian.length_toBytes]

/-- The tag of a field, with the wire type in its three low bits. -/
theorem tag_eq {wireType : Nat} (number : Nat) (h : wireType < 8) :
    (number <<< 3) ||| wireType = 8 * number + wireType := by
  rw [Nat.shiftLeft_eq, Nat.mul_comm, ← Nat.two_pow_add_eq_or_of_lt (i := 3) h]

/-- The bytes that `encodeField` writes. -/
def pieceOf : WireField → Piece
  | .varint number value => .varint (encodeVarint (number <<< 3 ||| 0)) (encodeVarint value)
  | .fixed64 number value => .fixed64 (encodeVarint (number <<< 3 ||| 1)) (toLittleEndian 8 value)
  | .delimited number value =>
    .delimited (encodeVarint (number <<< 3 ||| 2)) (encodeVarint value.length) value
  | .fixed32 number value => .fixed32 (encodeVarint (number <<< 3 ||| 5)) (toLittleEndian 4 value)

theorem valueOf_tag_pieceOf (field : WireField) :
    Varint.valueOf (pieceOf field).tag = 8 * field.number + (pieceOf field).wireType := by
  cases field <;> exact (valueOf_encodeVarint _).trans (tag_eq _ (by decide))

theorem wireType_lt (piece : Piece) : piece.wireType < 8 := by
  cases piece <;> simp [Piece.wireType]

theorem number_pieceOf (field : WireField) : (pieceOf field).number = field.number := by
  have hwire := wireType_lt (pieceOf field)
  rw [Piece.number, valueOf_tag_pieceOf]
  omega

theorem isVarint_tag {number wireType : Nat} (hnumber : number < 2 ^ 29) (hwire : wireType < 8) :
    IsVarint (encodeVarint (number <<< 3 ||| wireType)) := by
  apply isVarint_encodeVarint
  rw [tag_eq _ hwire]
  omega

theorem isVarint_pieceOf {field : WireField} (h : field.Valid) :
    ∀ number ∈ (pieceOf field).varints, IsVarint number := by
  have hnumber := h.number_lt
  have hvalue := h.value_lt
  intro number hmem
  cases field <;> simp only [pieceOf, varints, mem_cons, not_mem_nil, or_false] at hmem
  case varint =>
    rcases hmem with rfl | rfl
    · exact isVarint_tag hnumber (by decide)
    · exact isVarint_encodeVarint hvalue
  case fixed64 =>
    rw [hmem]
    exact isVarint_tag hnumber (by decide)
  case delimited =>
    rcases hmem with rfl | rfl
    · exact isVarint_tag hnumber (by decide)
    · exact isVarint_encodeVarint hvalue
  case fixed32 =>
    rw [hmem]
    exact isVarint_tag hnumber (by decide)

theorem complete_pieceOf {field : WireField} (h : field.Valid) : (pieceOf field).Complete where
  varints := isVarint_pieceOf h
  wireType := by
    have hwire := wireType_lt (pieceOf field)
    rw [valueOf_tag_pieceOf]
    omega
  number := by
    rw [number_pieceOf]
    exact Nat.ne_of_gt h.number_pos
  sized := by
    cases field with
    | varint number value => trivial
    | fixed64 number value => exact length_toLittleEndian 8 value
    | delimited number value => exact (valueOf_encodeVarint _).symm
    | fixed32 number value => exact length_toLittleEndian 4 value

theorem field_pieceOf {field : WireField} (h : field.Valid) : (pieceOf field).field = field := by
  have hnumber := number_pieceOf field
  cases field with
  | varint number value =>
    exact congrArg₂ WireField.varint hnumber (valueOf_encodeVarint value)
  | fixed64 number value =>
    exact congrArg₂ WireField.fixed64 hnumber (littleEndian_toLittleEndian h.value_lt)
  | delimited number value => exact congrArg (WireField.delimited · value) hnumber
  | fixed32 number value =>
    exact congrArg₂ WireField.fixed32 hnumber (littleEndian_toLittleEndian h.value_lt)

theorem bytes_pieceOf (field : WireField) : (pieceOf field).bytes = encodeField field := by
  cases field <;> simp [pieceOf, bytes, Piece.tag, Piece.contents, encodeField]

theorem fieldList_encoded {fields : List WireField} (h : ∀ field ∈ fields, field.Valid) :
    fieldList (fields.flatMap encodeField) = .ok fields := by
  refine fieldList_eq_ok_iff.mpr ⟨fields.map pieceOf, ?_, ?_, ?_⟩
  · intro piece hpiece
    obtain ⟨field, hfield, rfl⟩ := mem_map.mp hpiece
    exact complete_pieceOf (h field hfield)
  · rw [map_map]
    exact (map_congr_left fun field hfield => field_pieceOf (h field hfield)).trans
      (map_id fields)
  · simp [flatMap_map, bytes_pieceOf]

/-! ## What an accepted message is -/

/-- The reader raises, or its fields take the whole message one after the other, and no number
    that it read passes 64 bits. -/
def ReadsExactly (data : Bytes) : Prop :=
  (∃ raised, fieldList data = .error raised) ∨
    ∃ pieces : List Piece, (∀ piece ∈ pieces, piece.Complete) ∧
      fieldList data = .ok (pieces.map Piece.field) ∧ data = pieces.flatMap Piece.bytes ∧
      ∀ piece ∈ pieces, ∀ number ∈ piece.varints, Varint.valueOf number < 2 ^ 64

/-- A number of ten bytes whose last byte has more than the lowest bit. -/
def Overlong (number : Bytes) : Prop :=
  number.length = 10 ∧ ∃ last ∈ number.getLast?, 1 < last.toNat

/-- Complete fields, one after the other, of which one has an overlong number. -/
def CarriesOverlong (data : Bytes) : Prop :=
  ∃ pieces : List Piece, (∀ piece ∈ pieces, piece.Complete) ∧
    data = pieces.flatMap Piece.bytes ∧
    ∃ piece ∈ pieces, ∃ number ∈ piece.varints, Overlong number

theorem IsVarint.overlong_iff {number : Bytes} (h : IsVarint number) :
    Overlong number ↔ ¬ Varint.valueOf number < 2 ^ 64 := by
  rw [Nat.not_lt]
  exact (h.whole.two_pow_le_valueOf_iff h.short).symm

theorem IsVarint.append_inj {number other later : Bytes} (h : IsVarint number)
    (hother : IsVarint other) (heq : number ++ rest = other ++ later) :
    number = other ∧ rest = later := by
  have hread := readVarint_append h rest
  rw [heq, readVarint_append hother later] at hread
  obtain rfl : later = rest := (Prod.mk.inj (Except.ok.inj hread)).2
  exact ⟨append_cancel_right heq, rfl⟩

theorem Piece.Complete.tag_isVarint (h : piece.Complete) : IsVarint piece.tag := by
  cases piece <;> exact h.varints _ mem_cons_self

theorem Piece.Complete.rest_eq {other : Piece} {later : Bytes} (h : piece.Complete)
    (hother : other.Complete) (heq : piece.bytes ++ rest = other.bytes ++ later) :
    rest = later := by
  have hread := readField_bytes h rest
  rw [heq, readField_bytes hother later] at hread
  exact (Prod.mk.inj (Except.ok.inj hread)).2.symm

/-- The bytes of a message tell where each field and each number of it ends. -/
theorem Piece.Complete.eq_of_bytes {other : Piece} (h : piece.Complete) (hother : other.Complete)
    (heq : piece.bytes = other.bytes) : piece = other := by
  obtain ⟨htag, hcontents⟩ := h.tag_isVarint.append_inj hother.tag_isVarint heq
  have hwire : piece.wireType = other.wireType := by
    rw [← h.wireType, ← hother.wireType, htag]
  cases piece <;> cases other <;> simp only [Piece.wireType] at hwire <;>
    try exact absurd hwire (by decide)
  case varint.varint => exact congrArg₂ Piece.varint htag hcontents
  case fixed64.fixed64 => exact congrArg₂ Piece.fixed64 htag hcontents
  case delimited.delimited tag length value tag' length' value' =>
    have hlength : IsVarint length := h.varints length (by simp [Piece.varints])
    have hlength' : IsVarint length' := hother.varints length' (by simp [Piece.varints])
    obtain ⟨rfl, rfl⟩ := hlength.append_inj hlength' hcontents
    exact congrArg (Piece.delimited · length value) htag
  case fixed32.fixed32 => exact congrArg₂ Piece.fixed32 htag hcontents

theorem Piece.Complete.append_ne_nil (h : piece.Complete) (rest : Bytes) :
    piece.bytes ++ rest ≠ [] := by
  intro hnil
  have hread := readField_bytes h rest
  rw [hnil] at hread
  cases hread

theorem pieces_unique {pieces others : List Piece} (h : ∀ piece ∈ pieces, piece.Complete)
    (hothers : ∀ piece ∈ others, piece.Complete)
    (heq : pieces.flatMap Piece.bytes = others.flatMap Piece.bytes) : pieces = others := by
  induction pieces generalizing others with
  | nil =>
    cases others with
    | nil => rfl
    | cons other others =>
      exact absurd heq.symm ((hothers other mem_cons_self).append_ne_nil _)
  | cons piece pieces ih =>
    obtain ⟨hpiece, hpieces⟩ := forall_mem_cons.mp h
    cases others with
    | nil => exact absurd heq (hpiece.append_ne_nil _)
    | cons other others =>
      obtain ⟨hother, hlater⟩ := forall_mem_cons.mp hothers
      rw [flatMap_cons, flatMap_cons] at heq
      have hrest := hpiece.rest_eq hother heq
      rw [hrest] at heq
      rw [hpiece.eq_of_bytes hother (append_cancel_right heq), ih hpieces hlater hrest]

theorem readsExactly_iff (data : Bytes) : ReadsExactly data ↔ ¬ CarriesOverlong data := by
  constructor
  · rintro (⟨raised, hraised⟩ | ⟨pieces, hcomplete, -, hdata, hsmall⟩)
    · rintro ⟨pieces, hcomplete, hdata, -⟩
      cases hraised.symm.trans (fieldList_eq_ok_iff.mpr ⟨pieces, hcomplete, rfl, hdata⟩)
    · rintro ⟨others, hothers, hdata', piece, hpiece, number, hnumber, hoverlong⟩
      obtain rfl := pieces_unique hcomplete hothers (hdata.symm.trans hdata')
      have hvarint := (hcomplete piece hpiece).varints number hnumber
      exact hvarint.overlong_iff.mp hoverlong (hsmall piece hpiece number hnumber)
  · intro h
    cases hread : fieldList data with
    | error raised => exact .inl ⟨raised, hread⟩
    | ok fields =>
      obtain ⟨pieces, hcomplete, rfl, hdata⟩ := fieldList_eq_ok_iff.mp hread
      refine .inr ⟨pieces, hcomplete, hread, hdata, ?_⟩
      intro piece hpiece number hnumber
      by_contra hlarge
      have hvarint := (hcomplete piece hpiece).varints number hnumber
      exact h ⟨pieces, hcomplete, hdata, piece, hpiece, number, hnumber,
        hvarint.overlong_iff.mpr hlarge⟩

/-! ## The whole reader -/

/-- Every message of fields is read back, and any bytes that carry no overlong number are
    refused or read exactly. -/
theorem iterFields_exact (fields : List WireField) (data : Bytes) :
    ((∀ field ∈ fields, field.Valid) → fieldList (fields.flatMap encodeField) = .ok fields) ∧
      (ReadsExactly data ↔ ¬ CarriesOverlong data) :=
  ⟨fieldList_encoded, readsExactly_iff data⟩

theorem iterFields_exact_two :
    fieldList ([WireField.varint 1 300, .delimited 2 [0x41]].flatMap encodeField) =
      .ok [.varint 1 300, .delimited 2 [0x41]] := by
  refine (iterFields_exact _ []).1 ?_
  rw [List.forall_mem_cons, List.forall_mem_singleton]
  exact ⟨⟨by decide, by decide, by decide⟩, ⟨by decide, by decide, by decide⟩⟩

/-- The bytes of a number of 70 bits. -/
def seventyBits : Bytes := [0xFF, 0xFF, 0xFF, 0xFF, 0xFF, 0xFF, 0xFF, 0xFF, 0xFF, 0x7F]

theorem isVarint_seventyBits : IsVarint seventyBits := by
  refine ⟨?_, by decide⟩
  repeat refine .more (by decide) ?_
  exact .last (by decide)

theorem seventyBits_accepted :
    fieldList (0x08 :: seventyBits) = .ok [.varint 1 (2 ^ 70 - 1)] ∧
      ¬ ReadsExactly (0x08 :: seventyBits) := by
  have htag : IsVarint [0x08] := ⟨.last (by decide), by decide⟩
  have hcomplete : ∀ piece ∈ [Piece.varint [0x08] seventyBits], piece.Complete := by
    rw [List.forall_mem_singleton]
    exact ⟨by simp [Piece.varints, htag, isVarint_seventyBits], rfl, by decide, trivial⟩
  refine ⟨fieldList_eq_ok_iff.mpr ⟨_, hcomplete, rfl, rfl⟩, ?_⟩
  rw [readsExactly_iff, not_not]
  exact ⟨_, hcomplete, rfl, _, List.mem_singleton_self _, seventyBits, by simp [Piece.varints],
    rfl, 0x7F, rfl, by decide⟩

end Efdi.Sapient
