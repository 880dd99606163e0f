import Efdi.Base.BigEndian

/-!
# Framed documents

`ip1_header` and `frame` of the NFFI layer: how a document is written on the socket.
-/

namespace Efdi.Tak

/-- `NFFI_LAYER_FRAMING`. -/
inductive FrameFormat where
  | ip1
  | length
  | nul
  /-- `xml` and `nodecl`, which differ in the document only. -/
  | bare
deriving DecidableEq

/-- The optional header numbers. -/
structure HeaderNumbers where
  /-- `HEADER_SYSTEM`. -/
  system : UInt8
  /-- `HEADER_SUBSYSTEM`. -/
  subsystem : UInt8
  /-- `HEADER_COUNTRY`. -/
  country : Fin 1024

/-- `n.to_bytes(width, "big")`. -/
def toBytesBig (width n : Nat) : Except String (List UInt8) :=
  if n < 256 ^ width then .ok (BigEndian.toBytes width n)
  else .error "OverflowError: int too big to convert"

/-- `ip1_header`, for a time in whole seconds. -/
def ip1Header (numbers : HeaderNumbers) (messageType : UInt8) (length now : Nat) :
    Except String (List UInt8) := do
  let seconds ← toBytesBig 4 now
  let size ← toBytesBig 2 length
  return [messageType, 0, 0, 0] ++ seconds ++ [numbers.system, numbers.subsystem] ++
    BigEndian.toBytes 2 numbers.country ++ [1, 0] ++ size

/-- `frame`. -/
def frame (framing : FrameFormat) (numbers : HeaderNumbers) (document : List UInt8) (now : Nat) :
    Except String (List UInt8) :=
  match framing with
  | .ip1 => return (← ip1Header numbers 0x04 document.length now) ++ document
  | .length => return (← toBytesBig 4 document.length) ++ document
  | .nul => .ok (document ++ [0])
  | .bare => .ok document

end Efdi.Tak
