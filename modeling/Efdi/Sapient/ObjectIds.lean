import Efdi.Tracks.Handoff

/-!
# SAPIENT object ids

`publish_dual` publishes a track on its object key and, with a position, as a SAPIENT detection.
The object id of the detection is a ULID made from the hash of the first identifier of the track,
or a fresh one when it has none.  The object key is made from the prefix of the publisher, the type
and the first of `_ID_KEYS`.

A ULID tells its 128-bit value (`ulid_inj`), so two detections have one object id when their
identifiers have one text.
-/

namespace Efdi.Sapient

open Tracks List

/-! ### ULIDs -/

/-- `_CROCKFORD`. -/
def crockford : List Char :=
  ['0', '1', '2', '3', '4', '5', '6', '7', '8', '9', 'A', 'B', 'C', 'D', 'E', 'F', 'G', 'H', 'J',
    'K', 'M', 'N', 'P', 'Q', 'R', 'S', 'T', 'V', 'W', 'X', 'Y', 'Z']

/-- The loop of `_ulid`: the low digits first. -/
def ulidDigits : Nat → Nat → List Char
  | 0, _ => []
  | n + 1, value => crockford.getD (value % 32) '0' :: ulidDigits n (value / 32)

/-- `_ulid(value)`. -/
def ulid (value : Nat) : List Char := (ulidDigits 26 (value % 2 ^ 128)).reverse

theorem crockford_inj : ∀ i < 32, ∀ j < 32, crockford.getD i '0' = crockford.getD j '0' → i = j := by
  decide

theorem ulidDigits_inj : ∀ {n value value' : Nat}, value < 32 ^ n → value' < 32 ^ n →
    ulidDigits n value = ulidDigits n value' → value = value'
  | 0, value, value', h, h', _ => by
    rw [Nat.pow_zero, Nat.lt_one_iff] at h h'
    rw [h, h']
  | n + 1, value, value', h, h', hsame => by
    rw [Nat.pow_succ] at h h'
    obtain ⟨hlow, hhigh⟩ := cons.inj hsame
    have hdigit : value % 32 = value' % 32 :=
      crockford_inj _ (Nat.mod_lt _ (by decide)) _ (Nat.mod_lt _ (by decide)) hlow
    have hrest : value / 32 = value' / 32 :=
      ulidDigits_inj (Nat.div_lt_of_lt_mul (by omega)) (Nat.div_lt_of_lt_mul (by omega)) hhigh
    omega

/-- A ULID tells its value. -/
theorem ulid_inj {value value' : Nat} (h : value < 2 ^ 128) (h' : value' < 2 ^ 128)
    (hsame : ulid value = ulid value') : value = value' := by
  have hfits : (2 : Nat) ^ 128 ≤ 32 ^ 26 := by decide
  rw [ulid, ulid, Nat.mod_eq_of_lt h, Nat.mod_eq_of_lt h'] at hsame
  exact ulidDigits_inj (Nat.lt_of_lt_of_le h hfits) (Nat.lt_of_lt_of_le h' hfits)
    (reverse_injective hsame)

/-! ### Detections -/

/-- Python text, and `uuid.uuid5(uuid.NAMESPACE_OID, ident).int`. -/
structure IdText extends PyText where
  uuid5 : String → Nat
  uuid5_lt : ∀ ident, uuid5 ident < 2 ^ 128

/-- The keys that `_stable_object_id` reads. -/
def identKeys : List String := ["uid", "icao24", "mmsi", "track_num", "callsign"]

variable (T : IdText)

/-- The text of the first identifier. -/
def ident (track : Track) : String :=
  match (identKeys.map track.field).find? truthy with
  | some value => pyStr T.toPyText value
  | none => ""

/-- A 128-bit value that `_ulid()` draws from the clock and from `uuid4`. -/
abbrev Draw := Fin (2 ^ 128)

/-- `_stable_object_id`. -/
def stableObjectId (draw : Draw) (track : Track) : List Char :=
  if ident T track = "" then ulid draw else ulid (T.uuid5 (ident T track))

/-- What a detection says of the node and the object. -/
structure Detection where
  nodeId : String
  objectId : List Char
deriving DecidableEq

/-- `track_to_sapient`, with the node id that it falls back to.  The other fields of the message are
read from the track and play no part in the identity. -/
def trackToSapient (ownNodeId nodeId : String) (draw : Draw) (track : Track) : Option Detection :=
  if track.field "lat_deg" = .null ∨ track.field "lon_deg" = .null then none
  else some ⟨if nodeId = "" then ownNodeId else nodeId, stableObjectId T draw track⟩

/-! ### One object -/

/-- The track has an identifier that `_stable_object_id` reads. -/
def Identified (track : Track) : Prop := ∃ key ∈ identKeys, truthy (track.field key) = true

/-- Two publications have the same prefix, type and id. -/
def SameObject (p q : Publication) : Prop :=
  prefixParts T.toPyText p.topic = prefixParts T.toPyText q.topic ∧
    objectType T.toPyText p.track = objectType T.toPyText q.track ∧
      objectId T.toPyText p.track = objectId T.toPyText q.track

section Ids

variable {T} {p q : Publication} {track : Track}

theorem pyStr_ne {py : PyText} {value : PyJson} (h : truthy value = true) : pyStr py value ≠ "" := by
  cases value with
  | null => cases h
  | bool b =>
    rw [pyStr]
    split
    · decide
    · decide
  | int n =>
    rw [pyStr]
    intro hempty
    have hchars := congrArg String.toList hempty
    cases n with
    | ofNat n =>
      rw [show toString (Int.ofNat n) = toString ((n : Nat) : Int) from rfl,
        toList_toString_nat] at hchars
      exact Nat.toDigits_ne_nil hchars
    | negSucc n =>
      rw [show toString (Int.negSucc n) = "-" ++ Nat.repr (n + 1) from rfl,
        String.toList_append] at hchars
      exact absurd (append_eq_nil_iff.mp hchars).1 (by decide)
  | str s =>
    rw [pyStr]
    rw [truthy, bne_iff_ne] at h
    exact h
  | float x => exact py.str_ne _
  | list xs => exact py.str_ne _
  | dict items => exact py.str_ne _

/-- A track without an identifier is given a fresh ULID. -/
theorem ident_eq_empty_iff : ident T track = "" ↔ ¬Identified track := by
  rw [ident]
  cases hfind : (identKeys.map track.field).find? truthy with
  | none =>
    refine iff_of_true rfl ?_
    rintro ⟨key, hkey, htruthy⟩
    have hnone := find?_eq_none.mp hfind (track.field key) (mem_map_of_mem hkey)
    exact hnone htruthy
  | some value =>
    have htruthy : truthy value = true := find?_some hfind
    obtain ⟨key, hkey, rfl⟩ := mem_map.mp (mem_of_find?_eq_some hfind)
    refine iff_of_false (pyStr_ne htruthy) (not_not_intro ⟨key, hkey, htruthy⟩)

/-- The object keys of two publications are equal when their parts are. -/
theorem key_eq_iff : p.key T.toPyText = q.key T.toPyText ↔ SameObject T p q := by
  constructor
  · intro hkey
    have hparts := congrArg (PyStr.split '/') hkey
    rw [Publication.key, Publication.key, split_semanticTopic, split_semanticTopic] at hparts
    obtain ⟨hfront, htail⟩ := append_inj' hparts rfl
    obtain ⟨htype, hrest⟩ := cons.inj htail
    exact ⟨hfront, htype, (cons.inj hrest).1⟩
  · rintro ⟨hfront, htype, hid⟩
    rw [Publication.key, Publication.key, semanticTopic, semanticTopic, hfront, htype, hid]

theorem trackToSapient_objectId {ownNodeId nodeId : String} {draw : Draw} {detection : Detection}
    (h : trackToSapient T ownNodeId nodeId draw track = some detection) :
    detection.objectId = stableObjectId T draw track := by
  rw [trackToSapient] at h
  split at h
  next _ => cases h
  next _ => rw [← Option.some.inj h]

/-- What is drawn for one detection is not drawn for the other and is no hash of its identifier. -/
structure Fresh (T : IdText) (p q : Publication) (draw draw' : Draw) : Prop where
  drawn : draw ≠ draw'
  left : (draw : Nat) ≠ T.uuid5 (ident T q.track)
  right : (draw' : Nat) ≠ T.uuid5 (ident T p.track)

/-- Two detections have one object id when both tracks have an identifier and its text is the
same. -/
theorem stableObjectId_eq_iff {draw draw' : Draw}
    (hcollide : T.uuid5 (ident T p.track) = T.uuid5 (ident T q.track) →
      ident T p.track = ident T q.track)
    (hfresh : Fresh T p q draw draw') :
    stableObjectId T draw p.track = stableObjectId T draw' q.track ↔
      Identified p.track ∧ Identified q.track ∧ ident T p.track = ident T q.track := by
  have hhash : ∀ track, T.uuid5 (ident T track) < 2 ^ 128 := fun track => T.uuid5_lt _
  rw [stableObjectId, stableObjectId]
  by_cases hp : ident T p.track = ""
  · rw [if_pos hp]
    refine iff_of_false ?_ fun h => ident_eq_empty_iff.mp hp h.1
    by_cases hq : ident T q.track = ""
    · rw [if_pos hq]
      exact fun hsame => hfresh.drawn (Fin.ext (ulid_inj draw.isLt draw'.isLt hsame))
    · rw [if_neg hq]
      exact fun hsame => hfresh.left (ulid_inj draw.isLt (hhash q.track) hsame)
  · rw [if_neg hp]
    have hpid : Identified p.track := not_not.mp fun h => hp (ident_eq_empty_iff.mpr h)
    by_cases hq : ident T q.track = ""
    · rw [if_pos hq]
      refine iff_of_false ?_ fun h => ident_eq_empty_iff.mp hq h.2.1
      exact fun hsame => hfresh.right (ulid_inj (hhash p.track) draw'.isLt hsame).symm
    · rw [if_neg hq]
      have hqid : Identified q.track := not_not.mp fun h => hq (ident_eq_empty_iff.mpr h)
      constructor
      · exact fun hsame =>
          ⟨hpid, hqid, hcollide (ulid_inj (hhash p.track) (hhash q.track) hsame)⟩
      · rintro ⟨-, -, hsame⟩
        rw [hsame]

/-- The object ids of two detections agree with the object keys exactly when the identifiers agree
with the prefixes, the types and the ids. -/
theorem objectIds_agree_iff {ownNodeId nodeId : String} {draw draw' : Draw}
    {detection detection' : Detection}
    (hp : trackToSapient T ownNodeId nodeId draw p.track = some detection)
    (hq : trackToSapient T ownNodeId nodeId draw' q.track = some detection')
    (hcollide : T.uuid5 (ident T p.track) = T.uuid5 (ident T q.track) →
      ident T p.track = ident T q.track)
    (hfresh : Fresh T p q draw draw') :
    (detection.objectId = detection'.objectId ↔ p.key T.toPyText = q.key T.toPyText) ↔
      ((Identified p.track ∧ Identified q.track ∧ ident T p.track = ident T q.track) ↔
        SameObject T p q) := by
  rw [trackToSapient_objectId hp, trackToSapient_objectId hq,
    stableObjectId_eq_iff hcollide hfresh, key_eq_iff]

end Ids

/-! ### An aircraft whose registration becomes known -/

/-- The text methods on ASCII, and the bytes of an identifier for its hash. -/
def asciiIds : IdText where
  toPyText := asciiText
  uuid5 := fun ident => (ident.toList.foldl (fun n c => 256 * n + c.toNat) 0) % 2 ^ 128
  uuid5_lt := fun _ => Nat.mod_lt _ (by decide)

/-- An aircraft at a place. -/
def aircraft (icao24 : String) : Track :=
  ((PyDict.empty.set "icao24" (.str icao24)).set "lat_deg" (.int 55)).set "lon_deg" (.int 24)

def aircraftPublication (icao24 : String) : Publication :=
  ⟨"lt/hq/air/adsb/radar/neutral/aircraft", aircraft icao24⟩

/-- The same, after its registration was looked up. -/
def registeredPublication (icao24 registration : String) : Publication :=
  ⟨"lt/hq/air/adsb/radar/neutral/aircraft",
    (aircraft icao24).set "registration" (.str registration)⟩

theorem objectIds_agree_iff_aircraft :
    (stableObjectId asciiIds 1 (aircraft "503abc") = stableObjectId asciiIds 2 (aircraft "503abd") ↔
      (aircraftPublication "503abc").key asciiText = (aircraftPublication "503abd").key asciiText) :=
  (@objectIds_agree_iff asciiIds (aircraftPublication "503abc") (aircraftPublication "503abd") "n" ""
    1 2 ⟨"n", stableObjectId asciiIds 1 (aircraft "503abc")⟩
    ⟨"n", stableObjectId asciiIds 2 (aircraft "503abd")⟩
    (by decide +kernel) (by decide +kernel)
    (fun hsame => absurd hsame (by decide +kernel))
    ⟨by decide, by decide +kernel, by decide +kernel⟩).mpr
    (iff_of_false (fun h => absurd h.2.2 (by decide +kernel))
      (fun h => absurd h.2.2 (by decide +kernel)))

/-- One aircraft with one SAPIENT object id and two object keys. -/
theorem registration_splits :
    ¬∀ (T : IdText) (p q : Publication) (ownNodeId nodeId : String) (draw draw' : Draw)
        (detection detection' : Detection),
      trackToSapient T ownNodeId nodeId draw p.track = some detection →
      trackToSapient T ownNodeId nodeId draw' q.track = some detection' →
      (T.uuid5 (ident T p.track) = T.uuid5 (ident T q.track) →
        ident T p.track = ident T q.track) →
      Fresh T p q draw draw' →
      objectId T.toPyText p.track ≠ "unknown" → objectId T.toPyText q.track ≠ "unknown" →
      (detection.objectId = detection'.objectId ↔ p.key T.toPyText = q.key T.toPyText) := by
  intro hall
  have hagree := hall asciiIds (aircraftPublication "503abc")
    (registeredPublication "503abc" "LY-ABC") "n" "" 1 2
    ⟨"n", stableObjectId asciiIds 1 (aircraft "503abc")⟩
    ⟨"n", stableObjectId asciiIds 1 (aircraft "503abc")⟩
    (by decide +kernel) (by decide +kernel) (fun _ => by decide +kernel)
    ⟨by decide, by decide +kernel, by decide +kernel⟩ (by decide +kernel) (by decide +kernel)
  exact absurd (hagree.mp rfl) (by decide +kernel)

end Efdi.Sapient
