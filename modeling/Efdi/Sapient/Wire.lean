import Efdi.Base.PyJson
import Efdi.Base.PyStr
import Efdi.Base.Utf8
import Efdi.Sapient.Frames

/-!
# The protobuf wire format

`iter_fields` reads the fields of one message off its bytes, and the accessors pick fields by
number and wire type.  A wire type fixes what the value of a field is, so a field carries the one
value of its type.
-/

namespace Efdi.Sapient

/-! ## Reading fields -/

/-- `WireField`, one constructor for each wire type. -/
inductive WireField where
  | varint (number value : Nat)
  | fixed64 (number value : Nat)
  | delimited (number : Nat) (value : Bytes)
  | fixed32 (number value : Nat)
deriving DecidableEq

/-- The rounds of `_read_varint`. -/
def readVarintRounds : Nat → Nat → Nat → Bytes → Except String (Nat × Bytes)
  | 0, _, _, _ => .error "protobuf varint exceeds 64 bits"
  | _ + 1, _, _, [] => .error "truncated protobuf varint"
  | rounds + 1, shift, value, byte :: rest =>
    let value := value ||| ((byte.toNat &&& 0x7F) <<< shift)
    if byte.toNat &&& 0x80 = 0 then .ok (value, rest)
    else readVarintRounds rounds (shift + 7) value rest

/-- `_read_varint`: the value, and the bytes after it. -/
def readVarint (data : Bytes) : Except String (Nat × Bytes) := readVarintRounds 10 0 0 data

/-- The bytes up to an end that the message has to reach. -/
def slice (length : Nat) (truncated : String) (data : Bytes) : Except String (Bytes × Bytes) :=
  if data.length < length then .error truncated else .ok (data.take length, data.drop length)

/-- `int.from_bytes(data, "little")`. -/
def littleEndian (data : Bytes) : Nat := BigEndian.ofBytes data.reverse

/-- One round of `iter_fields`: a field, and the bytes after it. -/
def readField (data : Bytes) : Except String (WireField × Bytes) :=
  match readVarint data with
  | .error raised => .error raised
  | .ok (tag, rest) =>
    let number := tag >>> 3
    if number = 0 then .error "invalid protobuf field zero"
    else
      match tag &&& 0x07 with
      | 0 => (readVarint rest).map fun (value, rest) => (.varint number value, rest)
      | 1 =>
        (slice 8 "truncated protobuf fixed64" rest).map fun (value, rest) =>
          (.fixed64 number (littleEndian value), rest)
      | 2 =>
        match readVarint rest with
        | .error raised => .error raised
        | .ok (length, rest) =>
          (slice length "truncated protobuf length-delimited field" rest).map
            fun (value, rest) => (.delimited number value, rest)
      | 5 =>
        (slice 4 "truncated protobuf fixed32" rest).map fun (value, rest) =>
          (.fixed32 number (littleEndian value), rest)
      | wireType => .error ("unsupported protobuf wire type " ++ toString wireType)

section Shrinks

variable {data rest : Bytes}

theorem readVarintRounds_shrinks {value : Nat} : ∀ {rounds shift before : Nat} {data : Bytes},
    readVarintRounds rounds shift before data = .ok (value, rest) → rest.length < data.length
  | 0, _, _, _, h => by cases h
  | _ + 1, _, _, [], h => by cases h
  | rounds + 1, shift, before, byte :: data, h => by
    rw [readVarintRounds] at h
    split at h
    next _ =>
      cases h
      exact Nat.lt_succ_self _
    next _ => exact Nat.lt_succ_of_lt (readVarintRounds_shrinks h)

theorem readVarint_shrinks {value : Nat} (h : readVarint data = .ok (value, rest)) :
    rest.length < data.length := readVarintRounds_shrinks h

theorem slice_shrinks {length : Nat} {truncated : String} {value : Bytes}
    (h : slice length truncated data = .ok (value, rest)) : rest.length ≤ data.length := by
  rw [slice] at h
  split at h
  next _ => cases h
  next _ =>
    cases h
    rw [List.length_drop]
    exact Nat.sub_le _ _

theorem map_eq_ok {α β : Type} {found : Except String α} {f : α → β} {b : β}
    (h : found.map f = .ok b) : ∃ a, found = .ok a ∧ f a = b := by
  cases found with
  | error raised => cases h
  | ok a => exact ⟨a, rfl, Except.ok.inj h⟩

theorem readField_shrinks {field : WireField} (h : readField data = .ok (field, rest)) :
    rest.length < data.length := by
  rw [readField] at h
  split at h
  next _ => cases h
  next tag after htag =>
    have hafter : after.length < data.length := readVarint_shrinks htag
    dsimp only at h
    split at h
    next _ => cases h
    next _ =>
      split at h
      next _ =>
        obtain ⟨⟨value, last⟩, hvalue, hfield⟩ := map_eq_ok h
        cases hfield
        exact (readVarint_shrinks hvalue).trans hafter
      next _ =>
        obtain ⟨⟨value, last⟩, hvalue, hfield⟩ := map_eq_ok h
        cases hfield
        exact (slice_shrinks hvalue).trans_lt hafter
      next _ =>
        split at h
        next _ => cases h
        next length body hlength =>
          obtain ⟨⟨value, last⟩, hvalue, hfield⟩ := map_eq_ok h
          cases hfield
          exact ((slice_shrinks hvalue).trans_lt (readVarint_shrinks hlength)).trans hafter
      next _ =>
        obtain ⟨⟨value, last⟩, hvalue, hfield⟩ := map_eq_ok h
        cases hfield
        exact (slice_shrinks hvalue).trans_lt hafter
      next _ => cases h

end Shrinks

/-- `_field_list`. -/
def fieldList (data : Bytes) : Except String (List WireField) :=
  if data = [] then .ok []
  else
    match _hfield : readField data with
    | .error raised => .error raised
    | .ok (field, rest) => (fieldList rest).map (field :: ·)
termination_by data.length
decreasing_by exact readField_shrinks _hfield

theorem fieldList_nil : fieldList [] = .ok [] := by
  rw [fieldList, if_pos rfl]

theorem fieldList_of_readField {data rest : Bytes} {field : WireField}
    (h : readField data = .ok (field, rest)) :
    fieldList data = (fieldList rest).map (field :: ·) := by
  have hne : data ≠ [] := by
    rintro rfl
    cases h
  rw [fieldList, if_neg hne]
  split
  next raised hraised => cases h.symm.trans hraised
  next other later hother =>
    cases h.symm.trans hother
    rfl

theorem fieldList_of_error {data : Bytes} {raised : String} (hne : data ≠ [])
    (h : readField data = .error raised) : fieldList data = .error raised := by
  rw [fieldList, if_neg hne]
  split
  next other hother => rw [Except.error.inj (h.symm.trans hother)]
  next field rest hfield => cases h.symm.trans hfield

/-! ## Picking fields -/

def WireField.varint? (number : Nat) : WireField → Option Nat
  | .varint n value => if n = number then some value else none
  | _ => none

def WireField.fixed64? (number : Nat) : WireField → Option Nat
  | .fixed64 n value => if n = number then some value else none
  | _ => none

def WireField.delimited? (number : Nat) : WireField → Option Bytes
  | .delimited n value => if n = number then some value else none
  | _ => none

def WireField.fixed32? (number : Nat) : WireField → Option Nat
  | .fixed32 n value => if n = number then some value else none
  | _ => none

variable (fields : List WireField)

/-- `_first(fields, number, 0)`. -/
def firstVarint (number : Nat) : Option Nat :=
  fields.findSome? (WireField.varint? number)

/-- `_first(fields, number, 1)`. -/
def firstFixed64 (number : Nat) : Option Nat :=
  fields.findSome? (WireField.fixed64? number)

/-- `_first(fields, number, 2)`. -/
def firstBytes (number : Nat) : Option Bytes :=
  fields.findSome? (WireField.delimited? number)

/-- `_first(fields, number, 5)`. -/
def firstFixed32 (number : Nat) : Option Nat :=
  fields.findSome? (WireField.fixed32? number)

/-- `_all(fields, number, 2)`. -/
def allBytes (number : Nat) : List Bytes :=
  fields.filterMap (WireField.delimited? number)

/-! ## Values -/

/-- `data.decode("utf-8")`, which raises on bytes that encode no text. -/
def decodeText (data : Bytes) : Option (List Char) :=
  if Utf8.encode (Utf8.decode data) = data then some (Utf8.decode data) else none

/-- `" ".join(s.split())`. -/
def oneSpaced (chars : List Char) : String :=
  PyStr.join " " (((chars.splitOnP PyStr.isSpace).filter (· ≠ [])).map String.ofList)

/-- `_text`. -/
def text (value : Option Bytes) : Option String := do
  let chars ← decodeText (← value)
  let result := oneSpaced chars
  if result = "" then none else some (PyStr.take 512 result)

/-- `struct.unpack` of a binary float with so many bits of exponent and fraction. -/
def unpackFloat (exponentBits fractionBits bits : Nat) : PyFloat :=
  let fraction := bits % 2 ^ fractionBits
  let exponent := bits / 2 ^ fractionBits % 2 ^ exponentBits
  let negative := bits / 2 ^ (fractionBits + exponentBits) % 2 = 1
  if exponent = 2 ^ exponentBits - 1 then
    if fraction = 0 then .infinity negative else .nan
  else
    -- a subnormal has the exponent 1 and no leading bit
    let significand := if exponent = 0 then fraction else 2 ^ fractionBits + fraction
    let magnitude : Rat := (significand * 2 ^ (exponent - 1) : Nat) /
      (2 ^ (2 ^ (exponentBits - 1) - 2 + fractionBits) : Nat)
    .finite (if negative then -magnitude else magnitude)

/-- `math.isfinite`. -/
def isFinite : PyFloat → Bool
  | .finite _ => true
  | _ => false

/-- `_double`. -/
def double (value : Option Nat) : Option PyFloat :=
  (value.map (unpackFloat 11 52)).filter isFinite

/-- `_float`. -/
def single (value : Option Nat) : Option PyFloat :=
  (value.map (unpackFloat 8 23)).filter isFinite

/-- A time: one that a message carries, in seconds and nanoseconds, or `time.time()`. -/
inductive Moment where
  | sent (seconds nanos : Nat)
  | clock
deriving DecidableEq

/-- `_timestamp`. -/
def timestamp : Option Bytes → Except String Moment
  | none => .ok .clock
  | some value =>
    (fieldList value).map fun fields =>
      match firstVarint fields 1, (firstVarint fields 2).getD 0 with
      | none, _ => .clock
      | some seconds, nanos => if 1000000000 ≤ nanos then .clock else .sent seconds nanos

end Efdi.Sapient
