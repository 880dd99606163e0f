import Efdi.Asterix.Frames
import Efdi.Base.Framing

/-!
# Messages of a vehicle specific module

A STANAG 4586 message is a header of three little-endian numbers, its type, its size with the header
and its instance, and a body.  `_4586_recv_message` reads messages off a socket, and the raw handler
cuts them off a buffer that it extends by every sample.

The handler is a steady scanner that drops nothing while it waits, so how the stream is cut into
samples does not matter (`Scanner.Steady.feed_eq_drain`).
-/

namespace Efdi.Stanag

open List Option
open Asterix (Socket)
open Checks (bind_eq_ok ok_bind error_bind)
open Framing (Look Scanner)

/-! ## The functions -/

def vsmHeaderSize : Nat := 6

def vsmMaxFrameBytes : Nat := 1048576

/-- `_4586_MSG_VEHICLE_STATE`. -/
def msgVehicleState : Nat := 0x0001

/-- `(msg_type, instance, body)`. -/
structure VsmMessage where
  msgType : Nat
  instanceId : Nat
  body : List UInt8
deriving DecidableEq

/-- `struct.pack("<H", n)`, which raises for a number that does not fit. -/
def packUint16 (n : Nat) : Option (List UInt8) :=
  if n < 256 ^ 2 then some (BigEndian.toBytes 2 n).reverse else none

/-- `struct.unpack_from("<H", data, offset)`. -/
def uint16At (data : List UInt8) (offset : Nat) : Nat :=
  BigEndian.ofBytes ((data.drop offset).take 2).reverse

/-- `_4586_build_header`. -/
def buildHeader (msgType bodyLen instanceId : Nat) : Option (List UInt8) := do
  let total := vsmHeaderSize + bodyLen
  pure ((← packUint16 msgType) ++ (← packUint16 total) ++ (← packUint16 instanceId))

/-- A message on the wire, a header and the body. -/
def VsmMessage.built (m : VsmMessage) : Option (List UInt8) :=
  (buildHeader m.msgType m.body.length m.instanceId).map (· ++ m.body)

/-- `_4586_recv_exact`, which differs from the one of the ASTERIX gateway in what it raises only. -/
def recvExact (n : Nat) (sock : Socket) : Except String (List UInt8 × Socket) :=
  (Asterix.recvExact n sock).mapError fun _ => "VSM connection closed"

/-- `_4586_recv_exact(sock, body_size) if body_size > 0 else b""`. -/
def recvBody (bodySize : Nat) (sock : Socket) : Except String (List UInt8 × Socket) :=
  if 0 < bodySize then recvExact bodySize sock else .ok ([], sock)

/-- `_4586_recv_message`. -/
def recvMessage (sock : Socket) : Except String (VsmMessage × Socket) := do
  let (hdr, sock) ← recvExact vsmHeaderSize sock
  let msgType := uint16At hdr 0
  let totalSize := uint16At hdr 2
  let instanceId := uint16At hdr 4
  if totalSize < vsmHeaderSize then
    .error ("invalid STANAG 4586 message size: " ++ toString totalSize)
  else if vsmMaxFrameBytes < totalSize then
    .error ("STANAG 4586 message exceeds " ++ toString vsmMaxFrameBytes ++ " bytes")
  else
    let bodySize := totalSize - vsmHeaderSize
    let (body, sock) ← recvBody bodySize sock
    .ok (⟨msgType, instanceId, body⟩, sock)

/-- `_4586_recv_message_from_bytes`. -/
def recvMessageFromBytes (frame : List UInt8) : Except String VsmMessage :=
  if frame.length < vsmHeaderSize then .error "short STANAG 4586 frame"
  else if uint16At frame 2 ≠ frame.length then .error "STANAG 4586 frame length mismatch"
  else .ok ⟨uint16At frame 0, uint16At frame 4, frame.drop vsmHeaderSize⟩

/-- One turn of the loop in `on_sample`.  When the frame does not read, it raises and the buffer is
left. -/
def vsmLook (buffer : List UInt8) : Look UInt8 VsmMessage :=
  if buffer.length < vsmHeaderSize then .wait buffer
  else
    let totalSize := uint16At buffer 2
    if totalSize < vsmHeaderSize ∨ vsmMaxFrameBytes < totalSize then .drop (buffer.drop 1)
    else if buffer.length < totalSize then .wait buffer
    else
      match recvMessageFromBytes (buffer.take totalSize) with
      | .error _ => .wait buffer
      | .ok m => .frame m (buffer.drop totalSize)

section

variable {buffer rest : List UInt8} {m : VsmMessage}

/-- A look that goes on has dropped something. -/
theorem vsmLook_shrinks (h : (vsmLook buffer).next? = some rest) : rest.length < buffer.length := by
  rw [vsmLook] at h
  split at h
  next => cases h
  next hlong =>
    have hpos : 0 < buffer.length := Nat.lt_of_lt_of_le (Nat.succ_pos 5) (Nat.not_lt.mp hlong)
    dsimp only at h
    split at h
    next =>
      cases h
      rw [length_drop]
      omega
    next hsize =>
      split at h
      next => cases h
      next =>
        split at h
        next => cases h
        next =>
          cases h
          rw [not_or] at hsize
          rw [length_drop]
          have hheader : vsmHeaderSize = 6 := rfl
          omega

/-- The loop of `on_sample`. -/
def vsmScanner : Scanner UInt8 VsmMessage where
  look := vsmLook
  shrinks := vsmLook_shrinks

/-- What becomes of the vehicle states: the decoder, which may find no track, and whether a track is
published without an exception. -/
structure Handler (T : Type) where
  decodeVehicleState : List UInt8 → Nat → Option T
  publishDual : T → Bool

/-- The loop stops after a message whose track cannot be published. -/
def Handler.raises {T : Type} (handler : Handler T) (m : VsmMessage) : Bool :=
  m.msgType == msgVehicleState &&
    (handler.decodeVehicleState m.body m.instanceId).any fun track => !handler.publishDual track

/-- The loop of `on_sample`: the messages that were decoded, and the buffer. -/
def Handler.scan {T : Type} (handler : Handler T) (buffer : List UInt8) :
    List VsmMessage × List UInt8 :=
  match _hlook : vsmLook buffer with
  | .wait rest => ([], rest)
  | .drop rest => handler.scan rest
  | .frame m rest =>
    if handler.raises m then ([m], rest)
    else (m :: (handler.scan rest).1, (handler.scan rest).2)
termination_by buffer.length
decreasing_by
  all_goals exact vsmLook_shrinks (by rw [_hlook]; rfl)

/-- `on_sample` for one sample after the other. -/
def Handler.onSamples {T : Type} (handler : Handler T) :
    List UInt8 → List (List UInt8) → List VsmMessage × List UInt8
  | buffer, [] => ([], buffer)
  | buffer, data :: samples =>
    let scanned := handler.scan (buffer ++ data)
    let later := handler.onSamples scanned.2 samples
    (scanned.1 ++ later.1, later.2)

/-! ## Messages on the wire -/

variable {data hdr : List UInt8} {n : Nat} {sock : Socket}

theorem uint16At_append {k : Nat} (h : k + 2 ≤ data.length) (more : List UInt8) :
    uint16At (data ++ more) k = uint16At data k := by
  rw [uint16At, uint16At, drop_append_of_le_length (by omega),
    take_append_of_le_length (by rw [length_drop]; omega)]

theorem packUint16_eq_some (h : packUint16 n = some data) :
    data.length = 2 ∧ BigEndian.ofBytes data.reverse = n := by
  rw [packUint16] at h
  split at h
  next hn =>
    cases h
    rw [length_reverse, reverse_reverse]
    exact ⟨BigEndian.length_toBytes 2 n, BigEndian.ofBytes_toBytes hn⟩
  next => cases h

/-- A header, and what is read off it. -/
structure IsHeader (m : VsmMessage) (hdr : List UInt8) : Prop where
  length : hdr.length = vsmHeaderSize
  msgType : uint16At hdr 0 = m.msgType
  size : uint16At hdr 2 = vsmHeaderSize + m.body.length
  instanceId : uint16At hdr 4 = m.instanceId
  fits : vsmHeaderSize + m.body.length ≤ vsmMaxFrameBytes

theorem built_eq_some {frame : List UInt8} (h : m.built = some frame) :
    ∃ hdr, IsHeader m hdr ∧ frame = hdr ++ m.body := by
  simp only [VsmMessage.built, buildHeader, Option.map_eq_some_iff, Option.bind_eq_bind,
    Option.bind_eq_some_iff, Option.pure_def, Option.some.injEq] at h
  obtain ⟨-, ⟨a, ha, b, hb, c, hc, rfl⟩, rfl⟩ := h
  have hfits : vsmHeaderSize + m.body.length < 256 ^ 2 := by
    rw [packUint16] at hb
    split at hb
    next hn => exact hn
    next => cases hb
  obtain ⟨hla, hta⟩ := packUint16_eq_some ha
  obtain ⟨hlb, htb⟩ := packUint16_eq_some hb
  obtain ⟨hlc, htc⟩ := packUint16_eq_some hc
  obtain ⟨a0, a1, rfl⟩ := List.length_eq_two.mp hla
  obtain ⟨b0, b1, rfl⟩ := List.length_eq_two.mp hlb
  obtain ⟨c0, c1, rfl⟩ := List.length_eq_two.mp hlc
  refine ⟨[a0, a1] ++ [b0, b1] ++ [c0, c1], ⟨rfl, hta, htb, htc, ?_⟩, rfl⟩
  rw [vsmMaxFrameBytes]
  omega

/-- The header reads the same in front of anything. -/
theorem IsHeader.append {hdr : List UInt8} (h : IsHeader m hdr) (more : List UInt8) :
    uint16At (hdr ++ more) 0 = m.msgType ∧
      uint16At (hdr ++ more) 2 = vsmHeaderSize + m.body.length ∧
      uint16At (hdr ++ more) 4 = m.instanceId := by
  have hlength : hdr.length = 6 := h.length
  refine ⟨?_, ?_, ?_⟩
  · rw [uint16At_append (by omega), h.msgType]
  · rw [uint16At_append (by omega), h.size]
  · rw [uint16At_append (by omega), h.instanceId]

theorem recvMessageFromBytes_built (h : IsHeader m hdr) :
    recvMessageFromBytes (hdr ++ m.body) = .ok m := by
  obtain ⟨htype, hsize, hinstance⟩ := h.append m.body
  have hlength : (hdr ++ m.body).length = vsmHeaderSize + m.body.length := by
    rw [length_append, h.length]
  have hbody : (hdr ++ m.body).drop vsmHeaderSize = m.body := by
    rw [← h.length, drop_left]
  rw [recvMessageFromBytes, hlength, htype, hsize, hinstance, hbody, if_neg (by omega),
    if_neg (by simp)]

/-- A message in front of the buffer is cut off. -/
theorem vsmLook_built (h : IsHeader m hdr) (more : List UInt8) :
    vsmLook (hdr ++ m.body ++ more) = .frame m more := by
  have hsize := (h.append (m.body ++ more)).2.1
  rw [← append_assoc] at hsize
  have hlength : (hdr ++ m.body).length = vsmHeaderSize + m.body.length := by
    rw [length_append, h.length]
  have hfits := h.fits
  have hlong : ¬(hdr ++ m.body ++ more).length < vsmHeaderSize := by
    rw [length_append, hlength]
    omega
  have hwhole : ¬(hdr ++ m.body ++ more).length < vsmHeaderSize + m.body.length := by
    rw [length_append, hlength]
    omega
  rw [vsmLook, if_neg hlong]
  simp only [hsize]
  rw [if_neg (by omega), if_neg hwhole, ← hlength, take_left, drop_left,
    recvMessageFromBytes_built h]

/-! ## The buffer of the handler -/

/-- What a look does when the header is there. -/
theorem vsmLook_long (h : vsmHeaderSize ≤ buffer.length) : vsmLook buffer =
    if uint16At buffer 2 < vsmHeaderSize ∨ vsmMaxFrameBytes < uint16At buffer 2 then
      .drop (buffer.drop 1)
    else if buffer.length < uint16At buffer 2 then .wait buffer
    else
      match recvMessageFromBytes (buffer.take (uint16At buffer 2)) with
      | .error _ => .wait buffer
      | .ok m => .frame m (buffer.drop (uint16At buffer 2)) := by
  rw [vsmLook, if_neg (Nat.not_lt.mpr h)]

theorem vsmScanner_keeping : vsmScanner.Keeping := by
  intro buffer rest h
  change vsmLook buffer = .wait rest at h
  by_cases hlong : vsmHeaderSize ≤ buffer.length
  · rw [vsmLook_long hlong] at h
    split at h
    next => cases h
    next =>
      split at h
      next =>
        cases h
        rfl
      next =>
        split at h
        next =>
          cases h
          rfl
        next => cases h
  · rw [vsmLook, if_pos (Nat.not_le.mp hlong)] at h
    cases h
    rfl

theorem vsmLook_append (more : List UInt8) (h : (vsmLook buffer).next? ≠ none) :
    vsmLook (buffer ++ more) = match vsmLook buffer with
      | .wait rest => .wait rest
      | .drop rest => .drop (rest ++ more)
      | .frame m rest => .frame m (rest ++ more) := by
  by_cases hlong : vsmHeaderSize ≤ buffer.length
  · have hsix : 6 ≤ buffer.length := hlong
    have hlong' : vsmHeaderSize ≤ (buffer ++ more).length := by
      rw [length_append]
      omega
    rw [vsmLook_long hlong] at h ⊢
    rw [vsmLook_long hlong', uint16At_append (by omega)]
    by_cases hsize : uint16At buffer 2 < vsmHeaderSize ∨ vsmMaxFrameBytes < uint16At buffer 2
    · rw [if_pos hsize, if_pos hsize, drop_append_of_le_length (by omega)]
    · by_cases hshort : buffer.length < uint16At buffer 2
      · rw [if_neg hsize, if_pos hshort] at h
        exact absurd rfl h
      · have hwhole : uint16At buffer 2 ≤ buffer.length := Nat.not_lt.mp hshort
        have hwhole' : ¬(buffer ++ more).length < uint16At buffer 2 := by
          rw [length_append]
          omega
        rw [if_neg hsize, if_neg hsize, if_neg hshort, if_neg hwhole',
          take_append_of_le_length hwhole, drop_append_of_le_length hwhole]
        rw [if_neg hsize, if_neg hshort] at h
        cases hread : recvMessageFromBytes (buffer.take (uint16At buffer 2)) with
        | error e =>
          rw [hread] at h
          exact absurd rfl h
        | ok m => rfl
  · rw [vsmLook, if_pos (Nat.not_le.mp hlong)] at h
    exact absurd rfl h

theorem vsmScanner_steady : vsmScanner.Steady where
  drop := by
    intro buffer rest h more
    change vsmLook buffer = .drop rest at h
    show vsmLook (buffer ++ more) = _
    rw [vsmLook_append more (by rw [h]; exact some_ne_none _), h]
  frame := by
    intro buffer rest m h more
    change vsmLook buffer = .frame m rest at h
    show vsmLook (buffer ++ more) = _
    rw [vsmLook_append more (by rw [h]; exact some_ne_none _), h]
  wait := by
    intro buffer rest h more
    rw [vsmScanner_keeping h]

variable {messages : List VsmMessage} {frames : List (List UInt8)}

/-- The frames of messages begin with that of the first one. -/
theorem mapM_built_cons (h : (m :: messages).mapM VsmMessage.built = some frames) :
    ∃ hdr later, IsHeader m hdr ∧ messages.mapM VsmMessage.built = some later ∧
      frames = (hdr ++ m.body) :: later := by
  rw [List.mapM_cons] at h
  simp only [Option.bind_eq_bind, Option.bind_eq_some_iff, Option.pure_def,
    Option.some.injEq] at h
  obtain ⟨frame, hframe, later, hlater, rfl⟩ := h
  obtain ⟨hdr, hheader, rfl⟩ := built_eq_some hframe
  exact ⟨hdr, later, hheader, hlater, rfl⟩

theorem drain_built (h : messages.mapM VsmMessage.built = some frames) :
    vsmScanner.drain frames.flatten = (messages, []) := by
  induction messages generalizing frames with
  | nil =>
    cases h
    exact Scanner.drain_wait rfl
  | cons m messages ih =>
    obtain ⟨hdr, later, hheader, hlater, rfl⟩ := mapM_built_cons h
    rw [flatten_cons, Scanner.drain_frame (vsmLook_built hheader _), ih hlater]

variable {T : Type} {handler : Handler T}

theorem Handler.scan_wait (h : vsmLook buffer = .wait rest) : handler.scan buffer = ([], rest) := by
  rw [Handler.scan]
  split
  next rest' hlook =>
    rw [h] at hlook
    rw [Look.wait.inj hlook]
  next rest' hlook => cases h.symm.trans hlook
  next m rest' hlook => cases h.symm.trans hlook

theorem Handler.scan_drop (h : vsmLook buffer = .drop rest) :
    handler.scan buffer = handler.scan rest := by
  rw [Handler.scan]
  split
  next rest' hlook => cases h.symm.trans hlook
  next rest' hlook =>
    rw [h] at hlook
    rw [Look.drop.inj hlook]
  next m rest' hlook => cases h.symm.trans hlook

theorem Handler.scan_frame (h : vsmLook buffer = .frame m rest) : handler.scan buffer =
    if handler.raises m then ([m], rest)
    else (m :: (handler.scan rest).1, (handler.scan rest).2) := by
  rw [Handler.scan]
  split
  next rest' hlook => cases h.symm.trans hlook
  next rest' hlook => cases h.symm.trans hlook
  next m' rest' hlook =>
    rw [h] at hlook
    obtain ⟨rfl, rfl⟩ := Look.frame.inj hlook
    rfl

/-- Without an exception the loop drains the buffer. -/
theorem Handler.scan_eq_drain (h : ∀ m, handler.raises m = false) (buffer : List UInt8) :
    handler.scan buffer = vsmScanner.drain buffer := by
  induction buffer using Handler.scan.induct handler with
  | case1 buffer rest hlook =>
    rw [Scanner.drain_wait (show vsmScanner.look buffer = .wait rest from hlook),
      Handler.scan_wait hlook]
  | case2 buffer rest hlook ih =>
    rw [Scanner.drain_drop (show vsmScanner.look buffer = .drop rest from hlook),
      Handler.scan_drop hlook, ih]
  | case3 buffer m rest hlook hraises =>
    rw [h m] at hraises
    cases hraises
  | case4 buffer m rest hlook hraises ih =>
    rw [Scanner.drain_frame (show vsmScanner.look buffer = .frame m rest from hlook),
      Handler.scan_frame hlook, if_neg hraises, ih]

theorem Handler.onSamples_eq_feed (h : ∀ m, handler.raises m = false)
    (buffer : List UInt8) (samples : List (List UInt8)) :
    handler.onSamples buffer samples = vsmScanner.feed buffer samples := by
  induction samples generalizing buffer with
  | nil => rfl
  | cons data samples ih =>
    rw [Handler.onSamples, Scanner.feed, scan_eq_drain h, ih]

/-! ## The socket -/

theorem recvExact_of_le {n : Nat} {sock : Socket} (h : n ≤ sock.bytes.length) :
    ∃ after : Socket, recvExact n sock = .ok (sock.bytes.take n, after) ∧
      after.bytes = sock.bytes.drop n := by
  obtain ⟨after, hexact, hafter⟩ := Asterix.recvExact_of_le h
  exact ⟨after, by rw [recvExact, hexact]; rfl, hafter⟩

theorem recvExact_of_gt (h : sock.bytes.length < n) :
    recvExact n sock = .error "VSM connection closed" := by
  rw [recvExact, Asterix.recvExact_of_gt h]
  rfl

theorem recvExact_bytes {after : Socket} (h : recvExact n sock = .ok (data, after)) :
    after.bytes = sock.bytes.drop n ∧
      n ≤ sock.bytes.length := by
  rcases Nat.lt_or_ge sock.bytes.length n with hlt | hle
  · rw [recvExact_of_gt hlt] at h
    cases h
  · obtain ⟨after', hexact, hafter⟩ := recvExact_of_le hle
    rw [hexact] at h
    cases h
    exact ⟨hafter, hle⟩

/-- A message that is read is taken off the stream. -/
theorem recvMessage_shrinks {after : Socket} (h : recvMessage sock = .ok (m, after)) :
    after.bytes.length < sock.bytes.length := by
  rw [recvMessage] at h
  obtain ⟨⟨hdr, sock'⟩, hhdr, h⟩ := bind_eq_ok.mp h
  obtain ⟨hsock', hle⟩ := recvExact_bytes hhdr
  have hless : sock'.bytes.length < sock.bytes.length := by
    have hheader : vsmHeaderSize = 6 := rfl
    rw [hsock', length_drop]
    omega
  dsimp only at h
  split at h
  next => cases h
  next =>
    split at h
    next => cases h
    next =>
      obtain ⟨⟨body, sock''⟩, hbody, h⟩ := bind_eq_ok.mp h
      cases h
      rw [recvBody] at hbody
      split at hbody
      next =>
        rw [(recvExact_bytes hbody).1, length_drop]
        omega
      next =>
        cases hbody
        exact hless

/-- The messages that `_4586_recv_message` returns, and what it raises in the end. -/
def readMessages (sock : Socket) : List VsmMessage × String :=
  match _hread : recvMessage sock with
  | .error e => ([], e)
  | .ok (m, after) => (m :: (readMessages after).1, (readMessages after).2)
termination_by sock.bytes.length
decreasing_by
  all_goals exact recvMessage_shrinks _hread

/-- A body in front of the stream is read off it. -/
theorem recvBody_of_append {body more : List UInt8} (h : sock.bytes = body ++ more) :
    ∃ after : Socket, recvBody body.length sock = .ok (body, after) ∧ after.bytes = more := by
  rw [recvBody]
  by_cases hpos : 0 < body.length
  · obtain ⟨after, hexact, hafter⟩ := @recvExact_of_le body.length sock (by
      rw [h, length_append]
      omega)
    rw [h, take_left] at hexact
    rw [h, drop_left] at hafter
    exact ⟨after, by rw [if_pos hpos, hexact], hafter⟩
  · have hnil : body = [] := eq_nil_of_length_eq_zero (by omega)
    rw [if_neg hpos]
    exact ⟨sock, by rw [hnil], by rw [h, hnil, nil_append]⟩

theorem recvMessage_built {more : List UInt8} (h : IsHeader m hdr)
    (hbytes : sock.bytes = hdr ++ m.body ++ more) :
    ∃ after : Socket, recvMessage sock = .ok (m, after) ∧ after.bytes = more := by
  have hsix : hdr.length = 6 := h.length
  have hheader : vsmHeaderSize = 6 := rfl
  have hfits := h.fits
  obtain ⟨sock', hread, hsock'⟩ := @recvExact_of_le vsmHeaderSize sock (by
    rw [hbytes, length_append, length_append]
    omega)
  rw [hbytes, append_assoc, ← h.length, take_left] at hread
  rw [hbytes, append_assoc, ← h.length, drop_left] at hsock'
  obtain ⟨after, hbody, hafter⟩ := recvBody_of_append hsock'
  refine ⟨after, ?_, hafter⟩
  rw [recvMessage, ← h.length, hread, ok_bind]
  dsimp only
  rw [h.msgType, h.size, h.instanceId, if_neg (by omega), if_neg (by omega), h.length,
    Nat.add_sub_cancel_left, hbody]
  rfl

theorem readMessages_built (h : messages.mapM VsmMessage.built = some frames)
    (hbytes : sock.bytes = frames.flatten) :
    readMessages sock = (messages, "VSM connection closed") := by
  induction messages generalizing frames sock with
  | nil =>
    cases h
    have hclosed : recvMessage sock = .error "VSM connection closed" := by
      rw [recvMessage, recvExact_of_gt (by rw [hbytes]; exact Nat.succ_pos 5)]
      rfl
    rw [readMessages]
    split
    next e hread => rw [Except.error.inj (hread.symm.trans hclosed)]
    next m after hread => cases hread.symm.trans hclosed
  | cons m messages ih =>
    obtain ⟨hdr, later, hheader, hlater, rfl⟩ := mapM_built_cons h
    rw [flatten_cons] at hbytes
    obtain ⟨after, hread, hafter⟩ := recvMessage_built hheader hbytes
    rw [readMessages]
    split
    next e hread' => cases hread.symm.trans hread'
    next m' after' hread' =>
      cases hread.symm.trans hread'
      rw [ih hlater hafter]

theorem Handler.raises_eq_false (handler : Handler T)
    (h : ∀ track, handler.publishDual track = true) (m : VsmMessage) :
    handler.raises m = false := by
  rw [Handler.raises, Bool.and_eq_false_iff]
  right
  cases handler.decodeVehicleState m.body m.instanceId with
  | none => rfl
  | some track => simp [h track]

/-- The loop over the buffer comes to an end, as the buffer gets shorter. -/
theorem vsmLook_ends (buffers : Nat → List UInt8) :
    ∃ k, (vsmLook (buffers k)).next? ≠ some (buffers (k + 1)) := by
  by_contra hforever
  push Not at hforever
  have hlength : ∀ k, (buffers k).length + k ≤ (buffers 0).length := by
    intro k
    induction k with
    | zero => exact Nat.le_refl _
    | succ k ih =>
      have hless := vsmLook_shrinks (hforever k)
      omega
  have hend := hlength ((buffers 0).length + 1)
  omega

/-- Messages are decoded as they were built, from samples however they are cut and from a socket, and
the loop over the buffer comes to an end on any bytes. -/
theorem samples_as_built (handler : Handler T) (hpublish : ∀ track, handler.publishDual track = true)
    (messages : List VsmMessage) (frames : List (List UInt8))
    (hbuilt : messages.mapM VsmMessage.built = some frames) :
    (∀ samples, samples.flatten = frames.flatten →
      handler.onSamples [] samples = (messages, [])) ∧
    (∀ sock : Socket, sock.bytes = frames.flatten →
      readMessages sock = (messages, "VSM connection closed")) ∧
    ∀ buffers : Nat → List UInt8, ∃ k, (vsmLook (buffers k)).next? ≠ some (buffers (k + 1)) := by
  have hraises := handler.raises_eq_false hpublish
  refine ⟨fun samples hsamples => ?_, fun sock hsock => readMessages_built hbuilt hsock,
    vsmLook_ends⟩
  have hempty : vsmScanner.drain [] = ([], []) := Scanner.drain_wait rfl
  rw [Handler.onSamples_eq_feed hraises,
    vsmScanner_steady.feed_eq_drain vsmScanner_keeping hempty, hsamples, List.nil_append,
    drain_built hbuilt]

end

/-- A vehicle state whose body is too short for a track, and a heartbeat. -/
def shortMessages : List VsmMessage := [⟨0x0001, 1, [7]⟩, ⟨0x4001, 2, []⟩]

theorem shortMessages_decoded :
    Handler.onSamples ⟨fun _ _ => (none : Option Unit), fun _ => true⟩ []
      [[1, 0, 7], [0, 1, 0, 7, 1, 64], [6, 0, 2, 0]] = (shortMessages, []) :=
  (samples_as_built ⟨fun _ _ => (none : Option Unit), fun _ => true⟩ (fun _ => rfl) shortMessages
    [[1, 0, 7, 0, 1, 0, 7], [1, 64, 6, 0, 2, 0]] (by decide)).1 _ rfl

end Efdi.Stanag
