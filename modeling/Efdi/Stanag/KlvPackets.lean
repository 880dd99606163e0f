import Efdi.Asterix.Fields
import Efdi.Stanag.LocalSet

/-!
# The raw view of KLV packets

`_4609_split_klv_packet`, `_4609_decode_st0601` and `_4609_publish_packet` of `stanag.py`.  A
packet comes with any BER form of its length, and the raw packet is rebuilt with the shortest one
(`encodeBer_eq_iff`).  So the raw view has the packet that was received when its length field is
of the shortest form, and it has nothing when the packet carries no position
(`published_verbatim_iff`).
-/

namespace Efdi.Stanag

open Except List
open Asterix (FloatMath updateWith real num)
open Tracks (PyText Track)

variable (F : FloatMath) (py : PyText)

/-! ## Packets -/

/-- `_4609_split_klv_packet`.  `maxBytes` is `_4609_MAX_KLV_BYTES`. -/
def splitKlvPacket (maxBytes : Int) (packet : List UInt8) : Except BerError (Option KlvPacket) :=
  if packet.length < 17 then .ok none
  else
    let key := packet.take 16
    if !looksLikeKlvKey key then .ok none
    else
      match decodeBer (packet.drop 16) with
      | .error e => .error e
      | .ok (valueLen, lenSize) =>
        if maxBytes < valueLen then .ok none
        else
          let totalLen := 16 + lenSize + valueLen
          if packet.length ≠ totalLen then .ok none
          else .ok (some (key, slice packet (16 + lenSize) totalLen))

/-! ## Values -/

/-- `_4609_decode_unsigned`. -/
def decodeUnsigned (raw : List UInt8) (minimum maximum : Rat) : Rat :=
  let value := BigEndian.ofBytes raw
  let scale := 2 ^ (8 * raw.length) - 1
  if scale ≠ 0 then
    F.add minimum (F.mul (F.div (value : Nat) (scale : Nat)) (F.sub maximum minimum))
  else minimum

/-- `int.from_bytes(raw, "big", signed=True)`. -/
def signedOfBytes (raw : List UInt8) : Int :=
  let value := BigEndian.ofBytes raw
  if value < 2 ^ (8 * raw.length - 1) then value else value - 2 ^ (8 * raw.length)

/-- `_4609_decode_signed`. -/
def decodeSigned (raw : List UInt8) (minimum maximum : Rat) : Except KlvError Rat :=
  let value := signedOfBytes raw
  let minRaw : Int := -2 ^ (8 * raw.length - 1)
  let maxRaw : Int := 2 ^ (8 * raw.length - 1) - 1
  if value = minRaw then .error (.value "MISB reserved signed integer error value")
  else .ok (F.add minimum
    (F.mul (F.div (value + maxRaw : Int) (2 * maxRaw : Int)) (F.sub maximum minimum)))

/-- `mapped_signed` of a tag. -/
def mappedSigned (tags : TagDict) (tag size : Nat) (minimum maximum : Rat) : Option Rat :=
  match tags.get? tag with
  | none => none
  | some raw =>
    if raw.length ≠ size then none else (decodeSigned F raw minimum maximum).toOption

/-- The unsigned value of a tag that has the size. -/
def mappedUnsigned (tags : TagDict) (tag size : Nat) (minimum maximum : Rat) : Option Rat :=
  match tags.get? tag with
  | none => none
  | some raw => if raw.length ≠ size then none else some (decodeUnsigned F raw minimum maximum)

/-- `out[key] = value` for a value that is there. -/
def put (key : String) (value : Option PyJson) (out : Track) : Track :=
  match value with
  | some value => out.set key value
  | none => out

/-- `raw.hex()`. -/
def hexText (raw : List UInt8) : String :=
  String.ofList (raw.flatMap fun byte =>
    [Nat.digitChar (byte.toNat / 16), Nat.digitChar (byte.toNat % 16)])

/-- The tags that `_4609_decode_st0601` decodes. -/
def decodedTags : List Nat := [2, 5, 13, 14, 15, 18, 19, 23, 24, 25]

/-- `raw_tags`. -/
def rawTagsHex (tags : TagDict) : List (String × PyJson) :=
  (tags.entries.filter fun item => !decodedTags.contains item.1).map fun item =>
    (toString item.1, .str (hexText item.2))

/-- `_4609_decode_st0601`.  `isoformat` is the text of a time in microseconds, where there is
one. -/
def decodeSt0601 (isoformat : Nat → Option String) (tags : TagDict) : Track :=
  let timestamp := (tags.get? 2).filter (·.length = 8) |>.map BigEndian.ofBytes
  let rounded (value : Option Rat) (digits : Nat) := value.map fun x => real (F.round x digits)
  let out := put "timestamp_us" (timestamp.map num) PyDict.empty
  let out := put "timestamp_iso" ((timestamp.bind isoformat).map .str) out
  let out := put "platform_heading_deg" (rounded (mappedUnsigned F tags 5 2 0 360) 3) out
  let out := put "sensor_alt_m" (rounded (mappedUnsigned F tags 15 2 (-900) 19000) 2) out
  let out := put "sensor_lat_deg" (rounded (mappedSigned F tags 13 4 (-90) 90) 6) out
  let out := put "sensor_lon_deg" (rounded (mappedSigned F tags 14 4 (-180) 180) 6) out
  let out := put "sensor_relative_azimuth_deg" (rounded (mappedUnsigned F tags 18 4 0 360) 3) out
  let out := put "sensor_relative_elevation_deg"
    (rounded (mappedSigned F tags 19 4 (-180) 180) 3) out
  let out := put "frame_center_lat_deg" (rounded (mappedSigned F tags 23 4 (-90) 90) 6) out
  let out := put "frame_center_lon_deg" (rounded (mappedSigned F tags 24 4 (-180) 180) 6) out
  let out := put "frame_center_alt_m" (rounded (mappedUnsigned F tags 25 2 (-900) 19000) 2) out
  put "raw_tags_hex" (if rawTagsHex tags = [] then none else some (.dict (rawTagsHex tags))) out

/-! ## Publishing -/

/-- `_4609_ST0601_LOCAL_SET_KEY`. -/
def st0601Key : List UInt8 :=
  [0x06, 0x0E, 0x2B, 0x34, 0x02, 0x0B, 0x01, 0x01, 0x0E, 0x01, 0x03, 0x01, 0x01, 0x00, 0x00, 0x00]

/-- A digit of `base64.b64encode`. -/
def base64Digit (n : Nat) : Char :=
  "ABCDEFGHIJKLMNOPQRSTUVWXYZabcdefghijklmnopqrstuvwxyz0123456789+/".toList.getD n '='

/-- `base64.b64encode`. -/
def b64encode : List UInt8 → List Char
  | [] => []
  | [a] => [base64Digit (a.toNat / 4), base64Digit (a.toNat % 4 * 16), '=', '=']
  | [a, b] =>
    [base64Digit (a.toNat / 4), base64Digit (a.toNat % 4 * 16 + b.toNat / 16),
      base64Digit (b.toNat % 16 * 4), '=']
  | a :: b :: c :: data =>
    base64Digit (a.toNat / 4) :: base64Digit (a.toNat % 4 * 16 + b.toNat / 16) ::
      base64Digit (b.toNat % 16 * 4 + c.toNat / 64) :: base64Digit (c.toNat % 64) ::
        b64encode data

/-- What is put on the fabric for a packet. -/
inductive KlvPublished where
  /-- `publish_dual`. -/
  | dual (topic : String) (track : Track)
  /-- `publish_native`. -/
  | native (topic : String) (payload : List UInt8)

/-- `_4609_TRACK_TOPIC`. -/
def trackTopic (topicRoot : String) : String :=
  topicRoot ++ "/air/stanag_4609/camera/unknown/uav"

/-- The position of the decoded tags, of the sensor or else of the centre of the frame. -/
def positionOf (decoded : Track) : Option (PyJson × PyJson) := do
  let lat ← (decoded.get? "sensor_lat_deg").or (decoded.get? "frame_center_lat_deg")
  let lon ← (decoded.get? "sensor_lon_deg").or (decoded.get? "frame_center_lon_deg")
  return (lat, lon)

/-- What `_4609_publish_packet` adds to the payload of a packet of MISB ST 0601. -/
def addDecoded (decoded payload : Track) : Track :=
  let payload := updateWith decoded payload
  let payload :=
    match positionOf decoded with
    | some (lat, lon) => (payload.set "lat_deg" lat).set "lon_deg" lon
    | none => payload
  let payload := put "heading_deg" (decoded.get? "platform_heading_deg") payload
  put "geo_alt_m" ((decoded.get? "sensor_alt_m").or (decoded.get? "frame_center_alt_m")) payload

/-- The payload of a packet before it is decoded. -/
def packetPayload (now : Rat) (packetIndex : Nat) (key value rawPacket : List UInt8)
    (streamId source : String) : Track :=
  let payload := PyDict.empty.set "_ts" (real now)
  let payload := payload.set "_src" (.str source)
  let payload := payload.set "stream_id" (.str streamId)
  let payload := payload.set "source_tag" (.str source)
  let payload := payload.set "packet_index" (num packetIndex)
  let payload := payload.set "klv_key" (.str (hexText key))
  let payload := payload.set "klv_len" (num value.length)
  payload.set "klv_raw_b64" (.str (String.ofList (b64encode rawPacket)))

/-- What is published of a payload: nothing without a position. -/
def publishPayload (topicRoot streamId : String) (rawPacket : List UInt8) (payload : Track) :
    List KlvPublished :=
  if payload.contains "lat_deg" && payload.contains "lon_deg" then
    let payload := payload.set "uid" (.str streamId)
    let objKey := Tracks.semanticTopic py (trackTopic topicRoot) payload
    [.dual (trackTopic topicRoot) payload,
      .native (Tracks.viewKey py.toUnicode objKey .raw) rawPacket]
  else []

/-- `_4609_publish_packet`. -/
def publishPacket (isoformat : Nat → Option String) (topicRoot : String) (now : Rat)
    (packetIndex : Nat) (key value : List UInt8) (streamId source : String) :
    Except KlvError (List KlvPublished) :=
  match encodeBer value.length with
  | .error message => .error (.value message)
  | .ok length =>
    let rawPacket := key ++ length ++ value
    let payload := packetPayload now packetIndex key value rawPacket streamId source
    if looksLikeKlvKey key && decide (key = st0601Key) then
      match parseLocalSet value with
      | .error e => .error e
      | .ok tags =>
        .ok (publishPayload py topicRoot streamId rawPacket
          (addDecoded (decodeSt0601 F isoformat tags) payload))
    else .ok (publishPayload py topicRoot streamId rawPacket payload)

/-! ## Lengths -/

/-- The bytes that the shortest form of a length has. -/
def shortestSize (n : Nat) : Nat := if n < 0x80 then 1 else 1 + BigEndian.byteLength n

variable {n : Nat} {ber more : List UInt8}

/-- The two forms of a length. -/
inductive BerForm (n : Nat) : List UInt8 → Prop
  | short (first : UInt8) (hfirst : first.toNat = n) (hn : n < 0x80) : BerForm n [first]
  | long (first : UInt8) (raw : List UInt8) (hfirst : first.toNat = 0x80 + raw.length)
      (hraw : raw ≠ []) (hwidth : raw.length ≤ 8) (hn : BigEndian.ofBytes raw = n) :
      BerForm n (first :: raw)

theorem berForm (h : decodeBer (ber ++ more) = .ok (n, ber.length)) : BerForm n ber := by
  cases ber with
  | nil =>
    cases more with
    | nil => cases h
    | cons first data =>
      rw [nil_append, decodeBer] at h
      split at h
      · cases h
      · dsimp only at h
        split at h
        · cases h
        · split at h
          · cases h
          · split at h
            · cases h
            · have hsize := (Prod.mk.inj (ok.inj h)).2
              rw [length_nil] at hsize
              omega
  | cons first raw =>
    rw [cons_append, decodeBer, length_cons] at h
    split at h
    next hsmall =>
      obtain ⟨hfirst, hsize⟩ := Prod.mk.inj (ok.inj h)
      have hraw : raw = [] := eq_nil_of_length_eq_zero (by omega)
      rw [hraw]
      exact .short first hfirst (by omega)
    next hlarge =>
      dsimp only at h
      split at h
      next => cases h
      next hzero =>
        split at h
        next => cases h
        next hmany =>
          split at h
          next => cases h
          next =>
            obtain ⟨hn, hsize⟩ := Prod.mk.inj (ok.inj h)
            have hbyte := first.toNat_lt
            have hcount : first.toNat % 0x80 = raw.length := by omega
            rw [hcount, take_left] at hn
            refine .long first raw (by omega) ?_ (by omega) hn
            rintro rfl
            exact hzero hcount

theorem ofBytes_lt (data : List UInt8) : BigEndian.ofBytes data < 256 ^ data.length := by
  induction data using reverseRecOn with
  | nil => decide
  | append_singleton data byte ih =>
    have hbyte := byte.toNat_lt
    rw [BigEndian.ofBytes_concat, length_append, length_singleton, Nat.pow_succ]
    omega

theorem BerForm.lt (h : BerForm n ber) : n < 2 ^ 64 := by
  cases h with
  | short first hfirst hn => exact Nat.lt_trans hn (by decide)
  | long first raw hfirst hraw hwidth hn =>
    rw [← hn]
    exact Nat.lt_of_lt_of_le (ofBytes_lt raw) (Nat.pow_le_pow_right (by decide) hwidth)

/-- The encoder has the length field that was read exactly when it is of the shortest form. -/
theorem encodeBer_eq_iff (h : decodeBer (ber ++ more) = .ok (n, ber.length)) :
    encodeBer n = .ok ber ↔ ber.length = shortestSize n := by
  cases berForm h with
  | short first hfirst hn =>
    rw [encodeBer_short hn, shortestSize, if_pos hn, ← hfirst, UInt8.ofNat_toNat]
    exact iff_of_true rfl rfl
  | long first raw hfirst hraw hwidth hn =>
    have hpos : 0 < raw.length := length_pos_of_ne_nil hraw
    by_cases hsmall : n < 0x80
    · rw [encodeBer_short hsmall, shortestSize, if_pos hsmall]
      refine iff_of_false (fun heq => ?_) (by rw [length_cons]; omega)
      have hlength := congrArg length (ok.inj heq)
      simp only [length_cons, length_nil] at hlength
      omega
    · have hfits : n < 2 ^ 64 := by
        rw [← hn]
        exact Nat.lt_of_lt_of_le (ofBytes_lt raw)
          (Nat.pow_le_pow_right (by decide) hwidth)
      rw [encodeBer_long (by omega) hfits, shortestSize, if_neg hsmall, length_cons]
      constructor
      · intro heq
        have hlength := congrArg length (ok.inj heq)
        simp only [length_cons, BigEndian.length_toBytes] at hlength
        omega
      · intro heq
        have hwidthEq : BigEndian.byteLength n = raw.length := by omega
        rw [hwidthEq, ← hn, BigEndian.toBytes_ofBytes, ← hfirst, UInt8.ofNat_toNat]

/-! ## Positions -/

variable {F}

/-- The tag has an angle of four bytes that is not the reserved one. -/
def HasAngle (tags : TagDict) (tag : Nat) : Prop :=
  ∃ raw, tags.get? tag = some raw ∧ raw.length = 4 ∧ signedOfBytes raw ≠ -2 ^ 31

/-- A packet of MISB ST 0601 with a latitude and a longitude, of the sensor or of the centre of the
frame. -/
def Positioned (key value : List UInt8) : Prop :=
  key = st0601Key ∧ ∃ tags, parseLocalSet value = .ok tags ∧
    (HasAngle tags 13 ∨ HasAngle tags 23) ∧ (HasAngle tags 14 ∨ HasAngle tags 24)

theorem mappedSigned_isSome {tags : TagDict} {tag : Nat} {minimum maximum : Rat} :
    (mappedSigned F tags tag 4 minimum maximum).isSome = true ↔ HasAngle tags tag := by
  rw [mappedSigned]
  cases hraw : tags.get? tag with
  | none => simp [HasAngle, hraw]
  | some raw =>
    by_cases hlength : raw.length = 4
    · have hvalue : (decodeSigned F raw minimum maximum).toOption.isSome = true ↔
          signedOfBytes raw ≠ -2 ^ 31 := by
        rw [decodeSigned, hlength]
        split
        next hreserved => exact iff_of_false Bool.false_ne_true fun h => h hreserved
        next hreserved => exact iff_of_true rfl hreserved
      simpa [HasAngle, hraw, hlength] using hvalue
    · simp [HasAngle, hraw, hlength]

theorem get?_put (key other : String) (value : Option PyJson) (out : Track) :
    (put key value out).get? other = if other = key then value.or (out.get? other) else out.get? other := by
  cases value with
  | none => simp [put]
  | some value =>
    by_cases hkey : other = key
    · rw [hkey, if_pos rfl]
      exact PyDict.get?_set_self out key value
    · rw [if_neg hkey]
      exact PyDict.get?_set_of_ne out hkey value

theorem get?_updateWith {out : Track} {key : String} (h : out.get? key = none) (track : Track) :
    (updateWith out track).get? key = track.get? key := by
  have hkeys : key ∉ out.entries.map Prod.fst := PyDict.lookup_eq_none_iff.mp h
  rw [updateWith]
  generalize out.entries = entries at hkeys
  induction entries generalizing track with
  | nil => rfl
  | cons entry entries ih =>
    rw [map_cons, mem_cons, not_or] at hkeys
    rw [foldl_cons, ih _ hkeys.2, PyDict.get?_set_of_ne _ hkeys.1]

section Decoded

variable (isoformat : Nat → Option String) (tags : TagDict)

theorem positionOf_isSome {decoded : Track} : (positionOf decoded).isSome = true ↔
    ((decoded.get? "sensor_lat_deg").or (decoded.get? "frame_center_lat_deg")).isSome = true ∧
      ((decoded.get? "sensor_lon_deg").or (decoded.get? "frame_center_lon_deg")).isSome = true := by
  rw [positionOf]
  cases (decoded.get? "sensor_lat_deg").or (decoded.get? "frame_center_lat_deg") with
  | none => simp
  | some lat =>
    cases (decoded.get? "sensor_lon_deg").or (decoded.get? "frame_center_lon_deg") with
    | none => simp
    | some lon => simp

theorem positionOf_decodeSt0601 : (positionOf (decodeSt0601 F isoformat tags)).isSome = true ↔
    (HasAngle tags 13 ∨ HasAngle tags 23) ∧ (HasAngle tags 14 ∨ HasAngle tags 24) := by
  have hempty : ∀ key : String, (PyDict.empty : Track).get? key = none := fun _ => rfl
  rw [positionOf_isSome]
  simp [decodeSt0601, get?_put, hempty, mappedSigned_isSome]

theorem notMem_decodeSt0601 : (decodeSt0601 F isoformat tags).get? "lat_deg" = none ∧
    (decodeSt0601 F isoformat tags).get? "lon_deg" = none := by
  have hempty : ∀ key : String, (PyDict.empty : Track).get? key = none := fun _ => rfl
  constructor
  · simp [decodeSt0601, get?_put, hempty]
  · simp [decodeSt0601, get?_put, hempty]

/-- A payload has its coordinates from the tags that were decoded. -/
theorem contains_addDecoded {decoded payload : Track}
    (hdecoded : decoded.get? "lat_deg" = none ∧ decoded.get? "lon_deg" = none)
    (hpayload : payload.get? "lat_deg" = none ∧ payload.get? "lon_deg" = none) :
    ((addDecoded decoded payload).contains "lat_deg" &&
      (addDecoded decoded payload).contains "lon_deg") = (positionOf decoded).isSome := by
  rw [addDecoded]
  cases positionOf decoded with
  | none =>
    simp [PyDict.contains, get?_put, get?_updateWith hdecoded.1, get?_updateWith hdecoded.2,
      hpayload]
  | some position => simp [PyDict.contains, get?_put, PyDict.get?_set_of_ne]

theorem notMem_packetPayload (now : Rat) (packetIndex : Nat) (key value rawPacket : List UInt8)
    (streamId source : String) :
    (packetPayload now packetIndex key value rawPacket streamId source).get? "lat_deg" = none ∧
      (packetPayload now packetIndex key value rawPacket streamId source).get? "lon_deg" = none := by
  have hempty : ∀ key : String, (PyDict.empty : Track).get? key = none := fun _ => rfl
  constructor
  · simp [packetPayload, PyDict.get?_set_of_ne, hempty]
  · simp [packetPayload, PyDict.get?_set_of_ne, hempty]

end Decoded

/-! ## The raw view -/

section Raw

variable {key value packet length : List UInt8} {maxBytes : Int}

/-- An accepted packet is its key, the length field that was read, and its value. -/
theorem accepted_packet (h : splitKlvPacket maxBytes packet = .ok (some (key, value))) :
    ∃ ber, packet = key ++ ber ++ value ∧ packet.drop 16 = ber ++ value ∧
      decodeBer (ber ++ value) = .ok (value.length, ber.length) := by
  rw [splitKlvPacket] at h
  split at h
  next => cases h
  next hlong =>
    dsimp only at h
    split at h
    next => cases h
    next =>
      cases hber : decodeBer (packet.drop 16) with
      | error e =>
        rw [hber] at h
        cases h
      | ok sizes =>
        obtain ⟨valueLen, lenSize⟩ := sizes
        rw [hber] at h
        dsimp only at h
        split at h
        next => cases h
        next =>
          split at h
          next => cases h
          next hlength =>
            rw [ne_eq, not_not] at hlength
            obtain ⟨rfl, rfl⟩ := Prod.mk.inj (Option.some.inj (ok.inj h))
            have hvalue : slice packet (16 + lenSize) (16 + lenSize + valueLen) =
                (packet.drop 16).drop lenSize := by
              rw [slice, ← hlength, take_length, drop_drop]
            have hsplit : packet.drop 16 =
                (packet.drop 16).take lenSize ++ (packet.drop 16).drop lenSize :=
              (take_append_drop _ _).symm
            have hdrop : (packet.drop 16).length = lenSize + valueLen := by
              rw [length_drop]
              omega
            refine ⟨(packet.drop 16).take lenSize, ?_, ?_, ?_⟩
            · rw [hvalue, append_assoc, ← hsplit, take_append_drop]
            · rw [hvalue, ← hsplit]
            · rw [hvalue, ← hsplit, hber, length_drop, length_take, hdrop]
              congr 2
              · omega
              · omega

variable (isoformat : Nat → Option String) (topicRoot : String) (now : Rat) (packetIndex : Nat)
  (streamId source : String)

theorem looks_st0601Key : looksLikeKlvKey st0601Key = true := by decide

/-- The rebuilt packet is published on the raw view exactly when the packet has a position. -/
theorem publishPacket_raw (hlength : encodeBer value.length = .ok length) (raw : List UInt8) :
    (∃ published topic, publishPacket F py isoformat topicRoot now packetIndex key value streamId
        source = .ok published ∧ .native topic raw ∈ published) ↔
      Positioned key value ∧ raw = key ++ length ++ value := by
  have hpayload : ∀ payload : Track, (∃ topic, .native topic raw ∈
      publishPayload py topicRoot streamId (key ++ length ++ value) payload) ↔
        (payload.contains "lat_deg" && payload.contains "lon_deg") = true ∧
          raw = key ++ length ++ value := by
    intro payload
    rw [publishPayload]
    split
    next hlocated => simp [hlocated]
    next hlocated => simp [hlocated]
  have hbare := notMem_packetPayload now packetIndex key value (key ++ length ++ value) streamId
    source
  unfold publishPacket
  simp only [hlength]
  split
  next hkey =>
    rw [Bool.and_eq_true, decide_eq_true_iff] at hkey
    cases htags : parseLocalSet value with
    | error e => simp [Positioned, htags]
    | ok tags =>
      have hcontains := contains_addDecoded (notMem_decodeSt0601 (F := F) isoformat tags) hbare
      have hangles := positionOf_decodeSt0601 (F := F) isoformat tags
      have hpositioned : Positioned key value ↔
          (HasAngle tags 13 ∨ HasAngle tags 23) ∧ (HasAngle tags 14 ∨ HasAngle tags 24) := by
        simp [Positioned, htags, hkey.2]
      rw [hpositioned, ← hangles, ← hcontains, ← hpayload]
      constructor
      · rintro ⟨published, topic, hpublished, hmem⟩
        cases hpublished
        exact ⟨topic, hmem⟩
      · rintro ⟨topic, hmem⟩
        exact ⟨_, topic, rfl, hmem⟩
  next hkey =>
    have hother : key ≠ st0601Key := by
      rintro rfl
      exact hkey (by simp [looks_st0601Key])
    refine iff_of_false ?_ fun h => hother h.1.1
    rintro ⟨published, topic, hpublished, hmem⟩
    cases hpublished
    have hlocated := ((hpayload _).mp ⟨topic, hmem⟩).1
    rw [PyDict.contains, hbare.1] at hlocated
    cases hlocated

/-- What an accepted packet puts on the raw view is the packet itself exactly when it carries no
position or its length field is of the shortest form. -/
theorem published_verbatim_iff
    (haccepted : splitKlvPacket maxBytes packet = .ok (some (key, value))) :
    (∀ published topic raw, publishPacket F py isoformat topicRoot now packetIndex key value streamId
        source = .ok published → .native topic raw ∈ published → raw = packet) ↔
      (Positioned key value →
        (decodeBer (packet.drop 16)).map Prod.snd = .ok (shortestSize value.length)) := by
  obtain ⟨ber, hpacket, hdrop, hber⟩ := accepted_packet haccepted
  obtain ⟨length, hlength, -⟩ := decodeBer_encodeBer (berForm hber).lt
  have hshortest : (decodeBer (packet.drop 16)).map Prod.snd = .ok (shortestSize value.length) ↔
      length = ber := by
    rw [hdrop, hber]
    have hform := encodeBer_eq_iff hber
    rw [hlength, Except.ok.injEq] at hform
    rw [hform]
    exact ⟨fun h => Except.ok.inj h, congrArg Except.ok⟩
  rw [hshortest]
  constructor
  · intro h hpositioned
    obtain ⟨published, topic, hpublished, hmem⟩ :=
      (publishPacket_raw py isoformat topicRoot now packetIndex streamId source hlength _).mpr
        ⟨hpositioned, rfl⟩
    have hraw := h _ _ _ hpublished hmem
    rw [hpacket] at hraw
    exact List.append_cancel_left (List.append_cancel_right hraw)
  · intro h published topic raw hpublished hmem
    obtain ⟨hpositioned, rfl⟩ :=
      (publishPacket_raw py isoformat topicRoot now packetIndex streamId source hlength raw).mp
        ⟨published, topic, hpublished, hmem⟩
    rw [hpacket, h hpositioned]

end Raw

/-- A local set with the latitude and the longitude of the sensor. -/
def equatorValue : List UInt8 := [13, 4, 0, 0, 0, 0, 14, 4, 0, 0, 0, 0]

/-- A packet whose length field has a byte more than it needs. -/
def longLengthPacket : List UInt8 := st0601Key ++ [0x81, 12] ++ equatorValue

theorem covers_equatorValue :
    Covers equatorValue 0 [(13, [0, 0, 0, 0]), (14, [0, 0, 0, 0])] :=
  .item (show decodeBerOid equatorValue 0 = .ok (13, 1) by decide)
    (show decodeBer (equatorValue.drop 1) = .ok (4, 1) by decide) (by decide)
    (.item (show decodeBerOid equatorValue 6 = .ok (14, 7) by decide)
      (show decodeBer (equatorValue.drop 7) = .ok (4, 1) by decide) (by decide) .done)

theorem positioned_equatorValue : Positioned st0601Key equatorValue := by
  refine ⟨rfl, _, parseItems_of_covers covers_equatorValue PyDict.empty, .inl ?_, .inl ?_⟩
  · exact ⟨[0, 0, 0, 0], by decide, by decide, by decide⟩
  · exact ⟨[0, 0, 0, 0], by decide, by decide, by decide⟩

theorem splitKlvPacket_longLength : splitKlvPacket 1048576 longLengthPacket =
    .ok (some (st0601Key, equatorValue)) := by decide

/-- A packet with a longer length field than it needs is not published as it was received. -/
theorem long_length_shortened :
    ¬ ∀ packet key value : List UInt8,
      splitKlvPacket 1048576 packet = .ok (some (key, value)) → ∀ published topic raw,
        publishPacket Asterix.exactMath Tracks.asciiText (fun _ => none) "efdi" 0 0 key value "cam"
          "cam" = .ok published → .native topic raw ∈ published → raw = packet := by
  intro h
  obtain ⟨published, topic, hpublished, hmem⟩ :=
    (publishPacket_raw (F := Asterix.exactMath) Tracks.asciiText (fun _ => none) "efdi" 0 0 "cam"
      "cam" (encodeBer_short (n := equatorValue.length) (by decide)) _).mpr
      ⟨positioned_equatorValue, rfl⟩
  have hraw := h longLengthPacket _ _ splitKlvPacket_longLength _ _ _ hpublished hmem
  exact absurd hraw (by decide)

/-- The condition for a packet with a longer length field than it needs. -/
theorem long_length_iff :
    (∀ published topic raw,
      publishPacket Asterix.exactMath Tracks.asciiText (fun _ => none) "efdi" 0 0 st0601Key
        equatorValue "cam" "cam" = .ok published → .native topic raw ∈ published →
          raw = longLengthPacket) ↔
      (Positioned st0601Key equatorValue →
        (decodeBer (longLengthPacket.drop 16)).map Prod.snd =
          .ok (shortestSize equatorValue.length)) :=
  published_verbatim_iff Tracks.asciiText (fun _ => none) "efdi" 0 0 "cam" "cam"
    splitKlvPacket_longLength

end Efdi.Stanag
