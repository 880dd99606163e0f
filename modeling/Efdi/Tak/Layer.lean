import Efdi.Base.PyDict
import Mathlib.Algebra.Order.Ring.Rat

/-!
# The TAK layer

`make_handler` turns a report into CoT events and a tombstone into delete events, and keeps four
tables: the contacts that the dead-reckoning loop moves on, the uids that were drawn as shapes, when
each marker was sent and when each trail was sent.  The loop deletes trails whose marker is gone,
saves the trail table, and moves the contacts of a snapshot one by one.

The code of both is a list of operations (`Op`).  One operation touches the tables once or hands one
event to the sender, so that a run may stop or change threads between any two of them.
-/

namespace Efdi.Tak.Layer

abbrev Uid := List Char

/-- `_TRAIL_SUFFIX`. -/
def trailSuffix : List Char := ['-', 'T', 'R', 'A', 'I', 'L']

/-- `uid + _TRAIL_SUFFIX`. -/
def trailOf (uid : Uid) : Uid := uid ++ trailSuffix

/-- `uid.endswith(_TRAIL_SUFFIX)`. -/
def IsTrail (uid : Uid) : Prop := trailSuffix <:+ uid

instance (uid : Uid) : Decidable (IsTrail uid) := inferInstanceAs (Decidable (_ <:+ _))

/-- `trail_uid[:-len(_TRAIL_SUFFIX)]`. -/
def parentOf (trail : Uid) : Uid := trail.take (trail.length - trailSuffix.length)

/-- `_DR_TICK_S`. -/
def drTickS : ℚ := 2

/-- `_DR_MIN_MS`. -/
def drMinMs : ℚ := 515 / 100

/-- `_TRAIL_STATE_EVERY_S`. -/
def trailStateEveryS : ℚ := 30

/-- How a layer is set up: `drop_tak_ingress` of its sender, and `_TRAIL_ORPHAN_S`. -/
structure Setup where
  dropTakIngress : Bool
  orphanS : ℚ

/-- A layer that draws what the TAK server sends, with the default of `_TRAIL_ORPHAN_S`. -/
def setup : Setup := ⟨false, 180⟩

/-! ### Contacts and tracks -/

/-- An entry of `_dr_store`.  `movedUid now` is the uid of the event that `track_to_cot` builds for
the track at the place it has moved to, if it builds one. -/
structure Contact where
  baseTs : ℚ
  staleS : ℚ
  speed : ℚ
  movedUid : ℚ → Option Uid

/-- The uid of the event that the loop sends for a contact, if it sends one. -/
def Contact.extrapolated (contact : Contact) (now : ℚ) : Option Uid :=
  let age := now - contact.baseTs
  if age < drTickS ∨ contact.staleS * (85 / 100) < age then none
  else if contact.speed < drMinMs then none
  else contact.movedUid now

/-- The loop may send the contact under the uid at some time. -/
def Contact.MayDraw (contact : Contact) (uid : Uid) : Prop :=
  ∃ now, contact.extrapolated now = some uid

/-- What `make_handler` reads off a track. -/
structure Track where
  /-- `_uid(track)`. -/
  uid : Uid
  src : List Char
  delete : Bool
  /-- Its `_ingress` is the TAK server. -/
  fromTakServer : Bool
  /-- `track_to_cot` of it gives an event. -/
  drawable : Bool
  unfused : Bool
  civilCopy : Bool
  suppressed : Bool
  /-- Whether `shape_cots` gives an event, and then whether it is a drawing. -/
  event : Option Bool
  /-- It has a latitude and a longitude. -/
  positioned : Bool
  extrap : Bool
  ts : Option ℚ
  staleS : ℚ
  speed : ℚ
  movedUid : ℚ → Option Uid

/-- The entry of `_dr_store` for a track. -/
def Track.contact (track : Track) (clock : ℚ) : Contact where
  baseTs := track.ts.getD clock
  staleS := track.staleS
  speed := track.speed
  movedUid := track.movedUid

/-! ### Operations -/

/-- What is handed to the sender, and when the trail table is saved. -/
inductive Entry where
  /-- The event of a report. -/
  | report (uid : Uid) (clock : ℚ)
  /-- The short-lived event for an offline sensor. -/
  | offline (uid : Uid) (clock : ℚ)
  /-- The event of a contact that the loop has moved. -/
  | moved (uid : Uid) (now : ℚ)
  /-- A delete event, and whether it names a drawing. -/
  | delete (uid : Uid) (drawing : Bool)
  | saved
deriving DecidableEq

/-- The tables, the state file, and what has happened. -/
structure State where
  drStore : PyDict Uid Contact
  drawnUids : List Uid
  markerSeen : PyDict Uid ℚ
  trailSent : PyDict Uid ℚ
  trailSavedAt : ℚ
  stateFile : PyDict Uid ℚ
  history : List Entry

/-- The layer before it has sent anything or written a file. -/
def State.initial : State := ⟨.empty, [], .empty, .empty, 0, .empty, []⟩

/-- One access to the tables or to the sender. -/
inductive Op where
  | send (uid : Uid) (clock : ℚ)
  | sendOffline (uid : Uid) (clock : ℚ)
  | sendDelete (uid : Uid) (drawing : Bool)
  /-- The delete event of a tombstone, which names a drawing when one was sent. -/
  | sendDeleteOf (uid : Uid)
  | popContact (uid : Uid)
  | storeContact (uid : Uid) (contact : Contact)
  | addDrawn (uid : Uid)
  | discardDrawn (uid : Uid)
  | sawTrail (uid : Uid) (clock : ℚ)
  | sawMarker (uid : Uid) (clock : ℚ)
  | forgetTrail (uid : Uid)
  | forgetMarker (uid : Uid)
  /-- The trail of a marker that is withdrawn. -/
  | deleteTrailOf (uid : Uid)
  | retractOrphanTrails (now : ℚ)
  | retractTrail (now : ℚ) (trail : Uid) (sent : ℚ)
  | forgetMarkers (now : ℚ)
  | saveTrailState (now : ℚ)
  | snapshot (now : ℚ)
  | extrapolate (now : ℚ) (contact : Contact)

/-- A trail whose marker, or itself when the marker is not known, was last sent too long ago. -/
def IsOrphan (orphanS : ℚ) (markerSeen : PyDict Uid ℚ) (now : ℚ) (trail : Uid) (sent : ℚ) : Prop :=
  let parent := parentOf trail
  let own := if markerSeen.contains parent then 0 else sent
  orphanS < now - max ((markerSeen.get? parent).getD 0) own

instance {orphanS : ℚ} {markerSeen : PyDict Uid ℚ} {now : ℚ} {trail : Uid} {sent : ℚ} :
    Decidable (IsOrphan orphanS markerSeen now trail sent) :=
  inferInstanceAs (Decidable (_ < _))

/-- The event is handed over. -/
def State.log (state : State) (entry : Entry) : State :=
  { state with history := state.history ++ [entry] }

/-- The operations that delete a trail. -/
def deleteTrail (trail : Uid) : List Op :=
  [.sendDelete trail true, .forgetTrail trail, .discardDrawn trail]

/-- What an operation does, and the operations it puts before the rest. -/
def State.exec (orphanS : ℚ) (state : State) : Op → State × List Op
  | .send uid clock => (state.log (.report uid clock), [])
  | .sendOffline uid clock => (state.log (.offline uid clock), [])
  | .sendDelete uid drawing => (state.log (.delete uid drawing), [])
  | .sendDeleteOf uid =>
    (state.log (.delete uid (uid ∈ state.drawnUids ∨ IsTrail uid)), [])
  | .popContact uid => ({ state with drStore := state.drStore.pop uid }, [])
  | .storeContact uid contact => ({ state with drStore := state.drStore.set uid contact }, [])
  | .addDrawn uid => ({ state with drawnUids := uid :: state.drawnUids }, [])
  | .discardDrawn uid => ({ state with drawnUids := state.drawnUids.filter (· ≠ uid) }, [])
  | .sawTrail uid clock => ({ state with trailSent := state.trailSent.set uid clock }, [])
  | .sawMarker uid clock => ({ state with markerSeen := state.markerSeen.set uid clock }, [])
  | .forgetTrail uid => ({ state with trailSent := state.trailSent.pop uid }, [])
  | .forgetMarker uid => ({ state with markerSeen := state.markerSeen.pop uid }, [])
  | .deleteTrailOf uid =>
    (state, if state.trailSent.contains (trailOf uid) then deleteTrail (trailOf uid) else [])
  | .retractOrphanTrails now =>
    (state, state.trailSent.entries.map fun entry => .retractTrail now entry.1 entry.2)
  | .retractTrail now trail sent =>
    (state, if IsOrphan orphanS state.markerSeen now trail sent then deleteTrail trail else [])
  | .forgetMarkers now =>
    ({ state with markerSeen := state.markerSeen.filter fun _ seen => ¬3600 < now - seen }, [])
  | .saveTrailState now =>
    if now - state.trailSavedAt < trailStateEveryS then (state, [])
    else
      (({ state with trailSavedAt := now, stateFile := state.trailSent } : State).log .saved, [])
  | .snapshot now => (state, state.drStore.entries.map fun entry => .extrapolate now entry.2)
  | .extrapolate now contact =>
    match contact.extrapolated now with
    | some uid => (state.log (.moved uid now), [])
    | none => (state, [])

/-! ### The handler and the loop -/

/-- The source whose sensors go offline. -/
def offlineSource : List Char := "dronuradaras.lt".toList

/-- The source whose contacts are not moved. -/
def aartos : List Char := "AARTOS".toList

/-- What follows the event of a report. -/
def reported (clock : ℚ) (track : Track) (drawing : Bool) : List Op :=
  (if drawing then [.addDrawn track.uid] else []) ++
    (if IsTrail track.uid then [.sawTrail track.uid clock] else [.sawMarker track.uid clock]) ++
    (if track.positioned ∧ track.extrap = false ∧ track.src ≠ aartos then
      [.storeContact track.uid (track.contact clock)] else [])

/-- The handler of `make_handler` on a track of a JSON view. -/
def handler (dropTakIngress : Bool) (clock : ℚ) (track : Track) : List Op :=
  if track.fromTakServer ∧ dropTakIngress then []
  else if track.src = offlineSource ∧ track.delete then
    (if track.drawable then [.sendOffline track.uid clock] else []) ++ [.popContact track.uid]
  else if track.delete then
    [.sendDeleteOf track.uid, .discardDrawn track.uid, .popContact track.uid,
      .forgetMarker track.uid, .deleteTrailOf track.uid]
  else if track.unfused then []
  else if track.civilCopy then []
  else if track.suppressed then [.sendDelete track.uid false, .popContact track.uid]
  else
    match track.event with
    | none => []
    | some drawing => .send track.uid clock :: reported clock track drawing

/-- One turn of the loop of `_start_dr_thread`. -/
def drTurn (now : ℚ) : List Op :=
  [.retractOrphanTrails now, .forgetMarkers now, .saveTrailState now, .snapshot now]

end Efdi.Tak.Layer
