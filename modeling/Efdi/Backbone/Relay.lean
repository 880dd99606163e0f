import Efdi.Base.BigEndian
import Efdi.Tracks.Handoff

/-!
# The two ends of the backbone

`_handle` of `backbone_bridge.py` lands what arrives from the backbone on the local router: a
frame of ASTERIX on the raw topic of its category, anything else under `raw/backbone`.  `_handle`
of `backbone_layer.py` puts local tracks on the backbone, under the prefix of the pod.

The layer puts a sample exactly when it `exports` it.  What it puts is under the prefix of the
pod, so the bridge of the pod never lands it (`bridge_of_layer`).
-/

namespace Efdi.Backbone

open Tracks (PyText pyStr Track)

/-- A pod on the backbone. -/
structure Pod where
  py : PyText
  /-- `TOPIC_ROOT`. -/
  topicRoot : String
  /-- The common name of the certificate. -/
  vendorPrefix : String
  /-- `json.loads(raw.decode("utf-8"))`, `none` where it raises. -/
  loads : List UInt8 → Option PyJson

/-- The payload of a sample of the pod. -/
inductive Body where
  | bytes (raw : List UInt8)
  /-- `json.dumps(track)`. -/
  | json (track : Track)
  /-- A protobuf message: it begins with the tag and the length or the bytes of a field, and is no
  JSON text. -/
  | message

/-- A sample on the local router, or one that the layer puts. -/
structure Sample where
  key : String
  body : Body

/-- A sample from the backbone. -/
structure Imported where
  key : String
  payload : List UInt8

variable (pod : Pod)

/-! ## The bridge -/

/-- `_asterix_category`. -/
def asterixCategory (raw : List UInt8) : Option Nat :=
  if raw.length < 3 then none
  else if BigEndian.ofBytes ((raw.drop 1).take 2) ≠ raw.length then none
  else some (raw.headD 0).toNat

/-- A key of the pod's own. -/
def ownKey (key : String) : Bool :=
  key == pod.vendorPrefix || PyStr.startsWith key (pod.vendorPrefix ++ "/")

/-- `_RAW_ASTERIX_ROOT` with a category. -/
def rawAsterix (category : Nat) : String :=
  pod.topicRoot ++ "/raw/asterix/cat" ++ toString category

/-- `_RAW_BACKBONE_ROOT` with the slash behind it. -/
def rawBackbone : String := pod.topicRoot ++ "/raw/backbone/"

/-- `_handle` of the bridge. -/
def bridgeHandle (sample : Imported) : Option Sample :=
  if ownKey pod sample.key then none
  else
    match asterixCategory sample.payload with
    | some category => some ⟨rawAsterix pod category, .bytes sample.payload⟩
    | none => some ⟨rawBackbone pod ++ sample.key, .bytes sample.payload⟩

/-! ## The layer -/

/-- A key without the root. -/
def suffix (key : String) : String :=
  if PyStr.startsWith key (pod.topicRoot ++ "/") then
    PyStr.drop (PyStr.len pod.topicRoot + 1) key
  else key

/-- An import, a raw sample or a control topic, by its key. -/
def guardedKey (key : String) : Bool :=
  PyStr.contains "/backbone/" (suffix pod key) || PyStr.startsWith (suffix pod key) "raw/" ||
    PyStr.contains "/@" key

/-- `payload_json`. -/
def payloadJson : Body → Option PyJson
  | .bytes raw => pod.loads raw
  | .json track => some (.dict track.entries)
  | .message => none

/-- The object has a position. -/
def positioned (obj : PyJson) : Bool :=
  decide (obj.getD "lat_deg" .null ≠ .null) && decide (obj.getD "lon_deg" .null ≠ .null)

/-- `str(obj.get("_src", "")).startswith("backbone:")`. -/
def fromBackbone (obj : PyJson) : Bool :=
  PyStr.startsWith (pyStr pod.py (obj.getD "_src" (.str ""))) "backbone:"

/-- `_handle` of the layer. -/
def layerHandle (sample : Sample) : Option Sample :=
  if guardedKey pod sample.key then none
  else
    match payloadJson pod sample.body with
    | some obj =>
      if obj.isDict then
        if positioned obj then
          if fromBackbone pod obj then none
          else some ⟨pod.vendorPrefix ++ "/efdi/" ++ suffix pod sample.key, sample.body⟩
        else none
      else none
    | none => none

variable {pod}

/-! ## Keys -/

theorem suffix_append (rest : String) : suffix pod (pod.topicRoot ++ "/" ++ rest) = rest := by
  rw [suffix, if_pos (PyStr.startsWith_append _ rest)]
  have hlen : PyStr.len pod.topicRoot + 1 = PyStr.len (pod.topicRoot ++ "/") := by
    simp [PyStr.len]
  rw [hlen, PyStr.drop_append]

/-- A raw sample is guarded. -/
theorem guardedKey_raw (rest : String) :
    guardedKey pod (pod.topicRoot ++ "/" ++ ("raw/" ++ rest)) = true := by
  rw [guardedKey, suffix_append, PyStr.startsWith_append, Bool.or_true, Bool.true_or]

theorem rawAsterix_eq (category : Nat) :
    rawAsterix pod category = pod.topicRoot ++ "/" ++ ("raw/" ++ ("asterix/cat" ++ toString category)) := by
  have hparts : "/raw/asterix/cat" = "/" ++ ("raw/" ++ "asterix/cat") := rfl
  rw [rawAsterix, hparts]
  simp only [String.append_assoc]

theorem rawBackbone_eq (key : String) :
    rawBackbone pod ++ key = pod.topicRoot ++ "/" ++ ("raw/" ++ ("backbone/" ++ key)) := by
  have hparts : "/raw/backbone/" = "/" ++ ("raw/" ++ "backbone/") := rfl
  rw [rawBackbone, hparts]
  simp only [String.append_assoc]

/-- What the bridge lands is guarded. -/
theorem guardedKey_bridgeHandle {imported : Imported} {sample : Sample}
    (h : bridgeHandle pod imported = some sample) : guardedKey pod sample.key = true := by
  rw [bridgeHandle] at h
  split at h
  next => cases h
  next =>
    split at h
    next category hcategory =>
      rw [← Option.some.inj h, rawAsterix_eq]
      exact guardedKey_raw _
    next =>
      rw [← Option.some.inj h, rawBackbone_eq]
      exact guardedKey_raw _

/-- The payload of a sample that the bridge lands is the one that arrived. -/
theorem body_of_bridgeHandle {imported : Imported} {sample : Sample}
    (h : bridgeHandle pod imported = some sample) : sample.body = .bytes imported.payload := by
  rw [bridgeHandle] at h
  split at h
  next => cases h
  next =>
    split at h
    next => rw [← Option.some.inj h]
    next => rw [← Option.some.inj h]

/-! ## What the layer puts -/

theorem layer_of_guardedKey {sample : Sample} (h : guardedKey pod sample.key = true) :
    layerHandle pod sample = none := by
  rw [layerHandle, if_pos h]

theorem layer_of_message {key : String} : layerHandle pod ⟨key, .message⟩ = none := by
  rw [layerHandle]
  split
  next => rfl
  next => rfl

/-- A key of the JSON of a track. -/
theorem dict_get? (track : Track) (key : String) :
    (PyJson.dict track.entries).get? key = track.get? key := by
  show PyJson.lookup key track.entries = PyDict.lookup key track.entries
  induction track.entries with
  | nil => rfl
  | cons entry entries ih => rw [PyJson.lookup, PyDict.lookup, ih]

/-- A track with a position and a source of its own is put unless its key is guarded. -/
theorem layer_of_track {key : String} {track : Track}
    (hposition : positioned (.dict track.entries) = true)
    (hsource : fromBackbone pod (.dict track.entries) = false) :
    layerHandle pod ⟨key, .json track⟩ = none ↔ guardedKey pod key = true := by
  constructor
  · intro h
    cases hguarded : guardedKey pod key with
    | true => rfl
    | false => simp [layerHandle, payloadJson, PyJson.isDict, hguarded, hposition, hsource] at h
  · exact fun h => @layer_of_guardedKey pod ⟨key, .json track⟩ h

/-- Without a position, nothing is put. -/
theorem layer_of_not_positioned {key : String} {track : Track}
    (h : positioned (.dict track.entries) = false) :
    layerHandle pod ⟨key, .json track⟩ = none := by
  rw [layerHandle]
  split
  next => rfl
  next =>
    dsimp only [payloadJson]
    rw [h]
    simp

/-- What the layer puts is under the prefix of the pod. -/
theorem key_of_layer {sample put : Sample} (h : layerHandle pod sample = some put) :
    put.key = pod.vendorPrefix ++ "/efdi/" ++ suffix pod sample.key := by
  rw [layerHandle] at h
  split at h
  next => cases h
  next =>
    split at h
    next =>
      split at h
      next =>
        split at h
        next =>
          split at h
          next => cases h
          next => exact congrArg Sample.key (Option.some.inj h).symm
        next => cases h
      next => cases h
    next => cases h

/-- The bridge lands nothing that the layer puts. -/
theorem bridge_of_layer {sample put : Sample} (h : layerHandle pod sample = some put)
    (payload : List UInt8) : bridgeHandle pod ⟨put.key, payload⟩ = none := by
  have hown : ownKey pod put.key = true := by
    rw [ownKey, key_of_layer h, Bool.or_eq_true]
    refine Or.inr (PyStr.startsWith_iff.mpr ⟨"efdi/" ++ suffix pod sample.key, ?_⟩)
    have hparts : "/efdi/" = "/" ++ "efdi/" := rfl
    rw [hparts]
    simp only [String.append_assoc]
  rw [bridgeHandle, if_pos hown]

end Efdi.Backbone
