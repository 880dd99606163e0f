import Efdi.Tracks.Handoff
import Mathlib.Data.String.Basic

/-!
# Twin suppression

`TwinIndex` looks for objects that reach the bridge twice.  Copies without an address are matched
by the dimension and the name: the copy that declares the most is kept, and the copies near it are
announced.  `TwinSuppressions` holds an announced copy back until the announcement runs out.
-/

namespace Efdi.Tracks

/-- `TWIN_TTL_S`. -/
def twinTtl : Rat := 20

/-- `TWIN_FRESH_S`. -/
def twinFresh : Rat := 120

/-- How long `_forget` keeps an entry. -/
def twinMemory : Rat := 3600

/-- `_NAME_MIN_LEN`. -/
def nameMinLen : Nat := 8

/-- What the twin filter uses of the library. -/
structure TwinText extends PyText where
  /-- `s.upper()`. -/
  upper : String → String
  /-- A character that `\d` matches. -/
  isDecimal : Char → Bool
  /-- `_km(a, b) <= TWIN_NEAR_KM`, which raises on values that are no numbers. -/
  near : PyJson × PyJson → PyJson × PyJson → Option Bool

/-- A call of `observe`. -/
structure TwinCall where
  track : Track
  now : Rat
  topic : String

variable (T : TwinText)

/-! ## Reading a track -/

/-- `(?:[A-Za-z]+[:_-])*` against a whole text, with a letter read before it or not. -/
def wordPrefix : Bool → List Char → Bool
  | letter, [] => !letter
  | letter, c :: cs =>
    if c.isAlpha then wordPrefix true cs
    else letter && ":_-".toList.contains c && wordPrefix false cs

def isHex (c : Char) : Bool :=
  c.isDigit || "abcdefABCDEF".toList.contains c

/-- `_address`. -/
def addressOf (value : PyJson) : Option String :=
  let text := PyStr.strip (if truthy value then pyStr T.toPyText value else "")
  let cut := PyStr.len text - 6
  if 6 ≤ PyStr.len text ∧ (PyStr.drop cut text).toList.all isHex = true ∧
      wordPrefix false (PyStr.take cut text).toList = true then
    some (PyStr.lower (PyStr.drop cut text))
  else none

/-- `_callsign`. -/
def callsignOf (track : Track) : String :=
  T.upper (PyStr.strip (textOr T.toPyText track "callsign" ""))

/-- The last part of a text that is split at `:` and `/`. -/
def lastToken (text : String) : String :=
  String.ofList (text.toList.reverse.takeWhile fun c => c != ':' && c != '/').reverse

/-- `_name_key`. -/
def nameKey (track : Track) : Option String :=
  (["callsign", "label", "uid"].map fun field =>
    T.lower (PyStr.strip (lastToken (textOr T.toPyText track field "")))).find? fun token =>
      decide (nameMinLen ≤ PyStr.len token) && token.toList.any T.isDecimal

/-- `_dimension_of`. -/
def dimensionOf (topic : String) : String :=
  ((PyStr.split '/' topic).find? fun part => ["air", "land", "sea", "space"].contains part).getD ""

/-- `_rank`. -/
def rankOf (track : Track) (topic : String) : Nat :=
  let declared := (PyStr.split '/' topic).any fun part =>
    ["friendly", "hostile", "neutral"].contains part
  let moving := ["heading_deg", "speed_mps"].any fun key => !isNone (track.field key)
  2 * declared.toNat + moving.toNat

/-- A track with an address: an entry of `_keyed` and of `_by_call`. -/
structure Sighting where
  seen : Rat
  lat : PyJson
  lon : PyJson
deriving DecidableEq

/-- An entry of `_loose`. -/
structure LooseTrack extends Sighting where
  address : Option String
  callsign : String

/-- A member of a group of `_named`. -/
structure TwinCopy extends Sighting where
  rank : Nat
deriving DecidableEq

/-- The dimension and the name. -/
abbrev NameKey : Type := String × String

/-- What a call is about. -/
inductive TwinReading where
  | ignored
  | keyed (icao callsign : String) (sighting : Sighting)
  | loose (uid : String) (track : LooseTrack) (named : Option (NameKey × TwinCopy))

/-- `track.get("uid") or track.get("icao24")`. -/
def copyId (track : Track) : PyJson :=
  if truthy (track.field "uid") then track.field "uid" else track.field "icao24"

/-- `str(track.get("icao24") or "").strip().lower()`. -/
def icaoOf (track : Track) : String :=
  T.lower (PyStr.strip (textOr T.toPyText track "icao24" ""))

/-- The front of `observe`. -/
def readTwin (call : TwinCall) : TwinReading :=
  let track := call.track
  let uid := copyId track
  let sighting : Sighting := ⟨call.now, track.field "lat_deg", track.field "lon_deg"⟩
  let callsign := callsignOf T track
  if truthy (track.field "_delete") || isNone (track.field "lat_deg") ||
      isNone (track.field "lon_deg") || !truthy uid || truthy (track.field "geometry") ||
      PyStr.endsWith (pyStr T.toPyText uid) "-TRAIL" then .ignored
  else if icaoOf T track ≠ "" then .keyed (icaoOf T track) callsign sighting
  else
    .loose (pyStr T.toPyText uid)
      ⟨sighting, (addressOf T uid).or (addressOf T (track.field "callsign")), callsign⟩
      ((nameKey T track).map fun name =>
        ((dimensionOf call.topic, name), ⟨sighting, rankOf track call.topic⟩))

/-! ## The index -/

/-- `TwinIndex`. -/
structure TwinIndex where
  keyed : PyDict String Sighting
  byCall : PyDict String Sighting
  loose : PyDict String LooseTrack
  named : PyDict NameKey (PyDict String TwinCopy)

def TwinIndex.init : TwinIndex := ⟨PyDict.empty, PyDict.empty, PyDict.empty, PyDict.empty⟩

/-- `now - seen > TWIN_FRESH_S`. -/
def quiet (now : Rat) (sighting : Sighting) : Bool := decide (twinFresh < now - sighting.seen)

/-- `_is_twin`. -/
def isTwin (index : TwinIndex) (entry : LooseTrack) (now : Rat) : Option Bool :=
  if quiet now entry.toSighting then some false
  else if ((entry.address.bind index.keyed.get?).any fun keyed => !quiet now keyed) then some true
  else
    match if 4 ≤ PyStr.len entry.callsign then index.byCall.get? entry.callsign else none with
    | none => some false
    | some same =>
      if quiet now same then some false
      else T.near (entry.lat, entry.lon) (same.lat, same.lon)

/-- The keys that pass a test that may raise. -/
def select {α : Type} (test : String × α → Option Bool) : List (String × α) → Option (List String)
  | [] => some []
  | e :: es => do
      let found ← test e
      let rest ← select test es
      return if found then e.1 :: rest else rest

/-- `now - seen > 3600`. -/
def forgotten (now : Rat) (sighting : Sighting) : Bool := decide (twinMemory < now - sighting.seen)

/-- `_forget`. -/
def forget (index : TwinIndex) (now : Rat) : TwinIndex where
  keyed := index.keyed.filter fun _ sighting => !forgotten now sighting
  byCall := index.byCall.filter fun _ sighting => !forgotten now sighting
  loose := index.loose.filter fun _ track => !forgotten now track.toSighting
  named := index.named.filter fun _ group =>
    !group.entries.all fun e => forgotten now e.2.toSighting

/-- The group of a report, with the report and without what is quiet. -/
def groupWith (named : PyDict NameKey (PyDict String TwinCopy)) (key : NameKey) (uid : String)
    (copy : TwinCopy) (now : Rat) : PyDict String TwinCopy :=
  (((named.get? key).getD PyDict.empty).set uid copy).filter fun _ c => !quiet now c.toSighting

/-- One copy comes before another: `(-rank, uid)` is smaller. -/
def outranks (a b : String × TwinCopy) : Bool :=
  decide (b.2.rank < a.2.rank ∨ (a.2.rank = b.2.rank ∧ a.1 < b.1))

/-- The copy that is kept. -/
def best? : List (String × TwinCopy) → Option (String × TwinCopy)
  | [] => none
  | e :: es => some (es.foldl (fun best e => if outranks e best then e else best) e)

/-- One copy is near another. -/
def nearCopy (a b : TwinCopy) : Option Bool := T.near (a.lat, a.lon) (b.lat, b.lon)

/-- The copies near the one that is kept. -/
def nearTwins (group : PyDict String TwinCopy) : Option (List String) :=
  match best? group.entries with
  | none => some []
  | some best =>
    select (fun e => if e.1 = best.1 then some false else nearCopy T e.2 best.2) group.entries

/-- `TwinIndex.observe`: the uids to announce, `none` when it raises, and the index. -/
def observeTwin (index : TwinIndex) (call : TwinCall) : Option (List String) × TwinIndex :=
  match readTwin T call with
  | .ignored => (some [], index)
  | .keyed icao callsign sighting =>
    let index := { index with
      keyed := index.keyed.set icao sighting
      byCall :=
        if 4 ≤ PyStr.len callsign then index.byCall.set callsign sighting else index.byCall }
    (select (fun e => isTwin T index e.2 call.now) index.loose.entries, index)
  | .loose uid track named =>
    let index := forget { index with loose := index.loose.set uid track } call.now
    match isTwin T index track call.now with
    | none => (none, index)
    | some true => (some [uid], index)
    | some false =>
      match named with
      | none => (some [], index)
      | some (key, copy) =>
        let group := groupWith index.named key uid copy call.now
        (nearTwins T group, { index with named := index.named.set key group })

/-! ## The announcements -/

/-- `TwinSuppressions._until`. -/
abbrev Announced : Type := PyDict String Rat

/-- `on_sample`, for the announcement of a uid. -/
def onTwinSample (held : Announced) (uid : String) (now : Rat) : Announced :=
  if uid = "" then held else held.set uid (now + twinTtl)

/-- `self._until.get(uid, 0.0) > now`. -/
def heldBack (held : Announced) (uid : String) (now : Rat) : Bool :=
  decide (now < (held.get? uid).getD 0)

/-- `is_suppressed`. -/
def isSuppressed (held : Announced) (track : Track) (now : Rat) : Bool :=
  if truthy (track.field "icao24") || !truthy (track.field "uid") then false
  else heldBack held (pyStr T.toPyText (track.field "uid")) now

/-- The index, the announcements and the time of the last call. -/
structure Twins where
  index : TwinIndex
  held : Announced
  now : Rat

def Twins.init : Twins := ⟨TwinIndex.init, PyDict.empty, 0⟩

/-- A call, whose uids are announced at once. -/
def twinStep (s : Twins) (call : TwinCall) : Twins :=
  let observed := observeTwin T s.index call
  ⟨observed.2, (observed.1.getD []).foldl (fun held uid => onTwinSample held uid call.now) s.held,
    call.now⟩

end Efdi.Tracks
