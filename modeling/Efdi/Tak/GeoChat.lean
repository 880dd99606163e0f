import Efdi.Base.Decimal
import Efdi.Base.PyBuiltins
import Efdi.Base.Runs
import Mathlib.Data.Finset.Basic

/-!
# GeoChat alerts

Three handlers broadcast alerts to all TAK clients.  A detection and a regional alert are sent once
until they are cleared.  An event is sent whenever there is a text for it.  The id of an alert is
made of the name that it is sent under and the clock, rounded to a second.

The id tells both of them (`messageId_inj`).  So two alerts share an id when one name is used twice
within a rounded second, as it is for two events of one type in one cycle of the bridge.
-/

namespace Efdi.Tak.GeoChat

open Decimal List

/-! ## Sending -/

/-- What is sent under a name. -/
structure Draft where
  lat : PyJson
  lon : PyJson
  message : String
deriving DecidableEq

/-- A GeoChat event. -/
structure Chat where
  uid : String
  messageId : String
  now : Rat
  draft : Draft
deriving DecidableEq

/-- The second of a clock, which is never negative. -/
def second (now : Rat) : Nat := (roundHalfEven now).toNat

/-- The id of a name and a second. -/
def idOf (raised : String × Nat) : String := raised.1 ++ "-ALERT-" ++ toString raised.2

/-- `msg_id`. -/
def messageId (name : String) (now : Rat) : String := idOf (name, second now)

/-- The event of `_send_geochat_alert`. -/
def chat (name : String) (now : Rat) (draft : Draft) : Chat where
  uid := "GeoChat.EFDI.ALL." ++ messageId name now
  messageId := messageId name now
  now
  draft

/-- `round(value, 6)` does not raise. -/
def roundable : PyJson → Bool
  | .bool _ | .int _ | .float _ => true
  | _ => false

/-- A draft whose position can be sent. -/
def sendable (draft : Draft) : Option Draft :=
  if roundable draft.lat && roundable draft.lon then some draft else none

section

variable (py : PyBuiltins)

/-! ## The handlers -/

/-- A sample: its key, its payload when that is JSON, and what the clock says at first and when the
alert is sent. -/
structure Sample where
  key : String
  payload : Option PyJson
  now : Rat
  sentAt : Rat
  sentAt_nonneg : 0 ≤ sentAt

/-- `_terminal_view`. -/
def terminalView (key : String) : String :=
  match (PyStr.split '/' key).reverse with
  | last :: "tracks" :: front =>
    if PyStr.take 1 last = "v" ∧ py.isdigit (PyStr.drop 1 last) then front.headD "" else last
  | last :: _ => last
  | [] => ""

/-- `_NON_JSON_VIEWS`. -/
def nonJsonViews : List String := ["sapient", "proto", "raw"]

/-- The identifiers that `_uid` reads. -/
def radioKeys : List (String × String) :=
  [("icao24", "ICAO"), ("mmsi", "MMSI"), ("sat_id", "SAT"), ("radar_id", "RAD"),
    ("sensor_id", "SENS"), ("uid", "UID")]

/-- `_uid`. -/
def uid (track : PyJson) : Except PyError String :=
  match radioKeys.find? fun key => (track.getNull key.1).truthy with
  | some (key, head) => .ok ("EFDI-" ++ head ++ "-" ++ py.upper (py.str (track.getNull key)))
  | none =>
    let src := py.str (track.getD "_src" (.str "efdi"))
    match (track.getNull "callsign").or (.str "") with
    | .str callsign =>
      let cs := PyStr.strip callsign
      if cs ≠ "" then .ok ("EFDI-" ++ src ++ "-" ++ cs)
      else do
        let lat ← py.fixed (track.getD "lat_deg" (.int 0)) 5
        let lon ← py.fixed (track.getD "lon_deg" (.int 0)) 5
        .ok ("EFDI-" ++ src ++ "-" ++ lat ++ "-" ++ lon)
    | _ => .error .attributeError

/-- `now - x`. -/
def since (now : Rat) : PyFloat → PyFloat
  | .finite x => .finite (now - x)
  | .infinity negative => .infinity (!negative)
  | .nan => .nan

/-- `age > _ACOUSTIC_ALERT_HOT_S`. -/
def cold : PyFloat → Bool
  | .finite age => 60 < age
  | .infinity negative => !negative
  | .nan => false

/-- The age of the last detection, if there was one. -/
def detectionAge (now : Rat) (track : PyJson) : Except PyError (Option PyFloat) :=
  let last := track.getNull "last_detection_ts"
  if last.truthy then (py.float last).map fun last => some (since now last) else .ok none

/-- What is sent of a detection. -/
def detectionDraft (age : PyFloat) (track : PyJson) : Except PyError Draft :=
  let lat := track.getD "lat_deg" (.int 0)
  let lon := track.getD "lon_deg" (.int 0)
  match ((track.getNull "sensor_name").or (track.getNull "sensor_id")).or (.str "SENSOR") with
  | .str name => do
      let ago ← py.fixed (.float age) 0
      let north ← py.fixed lat 3
      let east ← py.fixed lon 3
      .ok { lat, lon
            message := "[DRONE DETECTED] " ++ py.upper name ++ " - " ++ ago ++ "s ago - " ++
              north ++ "/" ++ east }
  | _ => .error .attributeError

/-- What a handler sends: a draft under a name.  A handler that raises sends nothing. -/
abbrev Sends := Option (String × Draft)

/-- A draft under a name. -/
def under (name : String) (draft : Except PyError Draft) : Sends :=
  (draft.toOption.bind sendable).map (name, ·)

/-- `make_acoustic_handler`. -/
def acoustic (alerted : Finset String) (sample : Sample) : Finset String × Sends :=
  match sample.payload with
  | some (.dict items) =>
    let track := PyJson.dict items
    if terminalView py sample.key ∈ nonJsonViews ∨
        track.getNull "_ingress" = .str "tak_server" ∨
        track.getNull "sensor_type" ≠ .str "acoustic" then (alerted, none)
    else
      match uid py track, detectionAge py sample.now track with
      | .ok name, .ok none => (alerted.erase name, none)
      | .ok name, .ok (some age) =>
        if cold age then (alerted.erase name, none)
        else if name ∈ alerted then (alerted, none)
        else (insert name alerted, under name (detectionDraft py age track))
      | _, _ => (alerted, none)
  | _ => (alerted, none)

/-- What is sent of a regional alert. -/
def regionDraft (alert : PyJson) : Draft where
  lat := .int 0
  lon := .int 0
  message := "[AIR ALERT " ++ py.str (alert.getD "country" (.str "?")) ++ "] " ++
    py.str (alert.getD "area" (.str "?")) ++ " - " ++ py.str (alert.getD "level" (.str "?")) ++
    " - since " ++ py.str (alert.getD "since" (.str "?"))

/-- `make_region_alert_handler`. -/
def regionAlert (alerted : Finset String) (sample : Sample) : Finset String × Sends :=
  match sample.payload with
  | some (.dict items) =>
    let alert := PyJson.dict items
    if alert.getNull "alert_type" ≠ .str "region_alert" ∨ !(alert.getNull "alert_id").truthy ∨
        alert.getNull "notify" = .bool false then (alerted, none)
    else
      let name := "DANGAUSAKIS-" ++ py.str (alert.getNull "alert_id")
      if (alert.getNull "_delete").truthy || (alert.getNull "stale").truthy then
        (alerted.erase name, none)
      else if name ∈ alerted then (alerted, none)
      else (insert name alerted, under name (.ok (regionDraft py alert)))
  | _ => (alerted, none)

/-- `_names`. -/
def names (items : PyJson) (fmt : PyJson → Except PyError String) : Except PyError String :=
  match items with
  | .list items => do
      let shown ← (items.take 6).mapM fmt
      .ok (PyStr.join ", " shown ++
        if 6 < items.length then " +" ++ toString (items.length - 6) ++ " more" else "")
  | _ => .error .typeError

/-- A group of a status change, when it has entries. -/
def group (alert : PyJson) (key : String) (fmt : PyJson → Except PyError String) :
    Except PyError (List String) :=
  let items := alert.getNull key
  if items.truthy then (names items fmt).map fun text => [key ++ ": " ++ text] else .ok []

/-- The text of a status change. -/
def statusText (alert : PyJson) : Except PyError (Option String) := do
  let raised ← group alert "raised" fun a => do
    .ok (py.str (← a.item "area") ++ " (" ++ py.str (← a.item "level") ++ ")")
  let changed ← group alert "changed" fun a => do
    .ok (py.str (← a.item "area") ++ " " ++ py.str (← a.item "from") ++ "->" ++
      py.str (← a.item "to"))
  let cleared ← group alert "cleared" fun a => do .ok (py.str (← a.item "area"))
  let parts := raised ++ changed ++ cleared
  .ok (if parts.isEmpty then none
    else some ("[AIR STATUS " ++ py.str (alert.getD "country" (.str "?")) ++ "] " ++
      PyStr.join " | " parts))

/-- `format_event`. -/
def formatEvent (alert : PyJson) : Except PyError (Option String) :=
  match alert.getNull "alert_type" with
  | .str "region_status_change" => statusText py alert
  | .str "source_warning" =>
    let source := py.str (alert.getD "source" (.str "?"))
    .ok (some (if alert.getNull "state" = .str "recovered" then
        "[AIR ALERT DATA] " ++ source ++ " recovered"
      else
        "[AIR ALERT DATA] " ++ source ++ " " ++
          py.str ((alert.getNull "detail").or (.str "is down")) ++
          " - its alerts may be missing or out of date"))
  | .str "drone_report" => do
      let north ← py.fixed (alert.getD "lat" (.int 0)) 3
      let east ← py.fixed (alert.getD "lon" (.int 0)) 3
      .ok (some ("[DRONE REPORT LT] " ++ py.str (alert.getD "report_type" (.str "report")) ++
        " (unverified, approximate) - " ++ north ++ "/" ++ east))
  | .str "drone_crossing" =>
    .ok (some ("[DRONE CROSSING] " ++ py.upper (py.str (alert.getD "kind" (.str "threat"))) ++
      " x" ++ py.str (alert.getD "count" (.int 1)) ++ " moved " ++
      py.str (alert.getD "from" (.str "?")) ++ " -> " ++ py.str (alert.getD "to" (.str "?"))))
  | .str "incident" =>
    .ok (some ("[INCIDENT] " ++ py.str (alert.getD "title" (.str "?")) ++ " - " ++
      py.str (alert.getD "url" (.str ""))))
  | _ => .ok none

/-- `make_event_handler`. -/
def event (sample : Sample) : Sends :=
  match sample.payload with
  | some (.dict items) =>
    let alert := PyJson.dict items
    match formatEvent py alert with
    | .ok (some message) =>
      under ("DANGAUSAKIS-EVENT-" ++ py.str (alert.getNull "alert_type"))
        (.ok { lat := alert.getD "lat" (.int 0), lon := alert.getD "lon" (.int 0), message })
    | _ => none
  | _ => none

/-! ## Runs -/

/-- The handler that a sample goes to. -/
inductive Handler where
  | acoustic
  | regionAlert
  | event
deriving DecidableEq

/-- What a handler does with a sample. -/
def handle (alerted : Finset String) : Handler × Sample → Finset String × Sends
  | (.acoustic, sample) => acoustic py alerted sample
  | (.regionAlert, sample) => regionAlert py alerted sample
  | (.event, sample) => (alerted, event py sample)

/-- `_alerted`, the alerts that were sent, and the name and the second of each. -/
structure Alerts where
  alerted : Finset String
  sent : List Chat
  raised : List (String × Nat)

def Alerts.start : Alerts where
  alerted := ∅
  sent := []
  raised := []

def Alerts.step (alerts : Alerts) (call : Handler × Sample) : Alerts :=
  let (alerted, sends) := handle py alerts.alerted call
  match sends with
  | none => { alerts with alerted }
  | some (name, draft) =>
    { alerted, sent := alerts.sent ++ [chat name call.2.sentAt draft]
      raised := alerts.raised ++ [(name, second call.2.sentAt)] }

/-- No two alerts have one uid or one message id. -/
def Alerts.Distinct (alerts : Alerts) : Prop :=
  (alerts.sent.map Chat.uid).Nodup ∧ (alerts.sent.map Chat.messageId).Nodup

/-- A sample that raises an alert does so under a name that no alert of the same rounded second
has. -/
def Alerts.Spaced (alerts : Alerts) (call : Handler × Sample) : Prop :=
  ∀ name draft, (handle py alerts.alerted call).2 = some (name, draft) →
    (name, second call.2.sentAt) ∉ alerts.raised

end

/-! ## What an id tells -/

/-- What stands before the first separator tells where it is. -/
theorem append_cons_inj_left {c : Char} : ∀ {as bs cs ds : List Char}, c ∉ as → c ∉ cs →
    as ++ c :: bs = cs ++ c :: ds → as = cs ∧ bs = ds
  | [], _, [], _, _, _, h => ⟨rfl, (List.cons.inj h).2⟩
  | [], _, d :: cs, _, _, hcs, h => by
    obtain ⟨rfl, -⟩ := cons.inj h
    exact absurd mem_cons_self hcs
  | a :: as, _, [], _, has, _, h => by
    obtain ⟨rfl, -⟩ := cons.inj h
    exact absurd mem_cons_self has
  | a :: as, _, d :: cs, _, has, hcs, h => by
    obtain ⟨rfl, hrest⟩ := cons.inj h
    obtain ⟨rfl, hlast⟩ := append_cons_inj_left (fun hmem => has (.tail _ hmem))
      (fun hmem => hcs (.tail _ hmem)) hrest
    exact ⟨rfl, hlast⟩

/-- What stands after the last separator tells where it is. -/
theorem append_cons_inj_right {c : Char} {as bs cs ds : List Char} (hbs : c ∉ bs) (hds : c ∉ ds)
    (h : as ++ c :: bs = cs ++ c :: ds) : as = cs ∧ bs = ds := by
  have hreverse := congrArg reverse h
  rw [reverse_append, reverse_append, reverse_cons, reverse_cons,
    append_assoc, append_assoc, singleton_append, singleton_append] at hreverse
  obtain ⟨hlast, hfront⟩ := append_cons_inj_left (by simpa using hbs) (by simpa using hds) hreverse
  exact ⟨reverse_injective hfront, reverse_injective hlast⟩

/-- An id is a name and a second, and it tells both. -/
theorem idOf_injective : Function.Injective idOf := by
  rintro ⟨name, n⟩ ⟨name', n'⟩ h
  have hdash : ∀ (name : String) (n : Nat), (idOf (name, n)).toList =
      (name.toList ++ "-ALERT".toList) ++ '-' :: Nat.toDigits 10 n := by
    intro name n
    rw [idOf, String.toList_append, String.toList_append, toList_toString, append_assoc,
      append_assoc]
    rfl
  have hlist := congrArg String.toList h
  rw [hdash, hdash] at hlist
  obtain ⟨hname, hsecond⟩ :=
    append_cons_inj_right (dash_notMem_toDigits _) (dash_notMem_toDigits _) hlist
  exact Prod.ext (String.toList_inj.mp (append_cancel_right hname)) (toDigits_inj hsecond)

theorem uid_injective : Function.Injective fun raised => "GeoChat.EFDI.ALL." ++ idOf raised := by
  intro raised raised' h
  exact idOf_injective (PyStr.append_inj rfl h).2

/-! ## Along a run -/

section

variable {py : PyBuiltins}

/-- The ids that were sent are those of the names and seconds. -/
structure Alerts.Kept (alerts : Alerts) : Prop where
  messageIds : alerts.sent.map Chat.messageId = alerts.raised.map idOf
  uids : alerts.sent.map Chat.uid =
    alerts.raised.map fun raised => "GeoChat.EFDI.ALL." ++ idOf raised

theorem Alerts.kept_start : Alerts.start.Kept where
  messageIds := rfl
  uids := rfl

theorem Alerts.Kept.step {alerts : Alerts} (h : alerts.Kept) (call : Handler × Sample) :
    (alerts.step py call).Kept := by
  rw [Alerts.step]
  dsimp only
  split
  next _ => exact ⟨h.messageIds, h.uids⟩
  next name draft _ =>
    constructor
    · rw [map_append, map_append, h.messageIds]
      rfl
    · rw [map_append, map_append, h.uids]
      rfl

theorem Alerts.Kept.distinct_iff {alerts : Alerts} (h : alerts.Kept) :
    alerts.Distinct ↔ alerts.raised.Nodup := by
  rw [Alerts.Distinct, h.messageIds, h.uids, nodup_map_iff uid_injective,
    nodup_map_iff idOf_injective, and_self_iff]

theorem Alerts.raised_step (alerts : Alerts) (call : Handler × Sample) :
    (alerts.step py call).raised =
      match (handle py alerts.alerted call).2 with
      | none => alerts.raised
      | some (name, _) => alerts.raised ++ [(name, second call.2.sentAt)] := by
  rw [Alerts.step]
  dsimp only
  split
  next _ => rfl
  next _ => rfl

/-- A step leaves the ids distinct when its alert has a name and a second of its own. -/
theorem Alerts.Kept.distinct_step_iff {alerts : Alerts} (h : alerts.Kept)
    (hdistinct : alerts.Distinct) (call : Handler × Sample) : (alerts.step py call).Distinct ↔ alerts.Spaced py call := by
  rw [(h.step call).distinct_iff, Alerts.raised_step, Alerts.Spaced]
  have hnodup := h.distinct_iff.mp hdistinct
  cases hsends : (handle py alerts.alerted call).2 with
  | none => exact iff_of_true hnodup (fun _ _ hsome => nomatch hsome)
  | some sends =>
    obtain ⟨name, draft⟩ := sends
    dsimp only
    rw [← concat_eq_append, nodup_concat]
    constructor
    · rintro ⟨hfresh, -⟩ _ _ ⟨⟩
      exact hfresh
    · intro hfresh
      exact ⟨hfresh name draft rfl, hnodup⟩

/-- In every run of the three handlers all alerts have ids of their own when no name is used twice
within a rounded second. -/
theorem distinct_iff_spaced (calls : List (Handler × Sample)) :
    Runs.Always (Alerts.step py) Alerts.Distinct .start calls ↔
      Runs.Guarded (Alerts.step py) (Alerts.Spaced py) .start calls := by
  have hstart : Alerts.start.Distinct := ⟨List.nodup_nil, List.nodup_nil⟩
  rw [Runs.always_iff_guarded, and_iff_right hstart]
  refine Runs.guarded_congr_of (P := fun alerts => alerts.Kept ∧ alerts.Distinct)
    (G := fun _ _ => True) (fun alerts call h _ => h.1.distinct_step_iff h.2 call)
    (fun alerts call h _ hspaced => ⟨h.1.step call, (h.1.distinct_step_iff h.2 call).mpr hspaced⟩)
    ⟨Alerts.kept_start, hstart⟩ (Runs.guarded_iff.mpr fun _ _ _ _ => trivial)

end

/-! ## Two events of one type -/

/-- A drone report at a latitude, in one second. -/
def reportAt (lat : Int) : Handler × Sample :=
  (.event,
    { key := "lt/land/dangausakis/alert/event"
      payload := some (.dict [("alert_type", .str "drone_report"), ("lat", .int lat),
        ("lon", .int 25), ("report_type", .str "drone")])
      now := 1767225600, sentAt := 1767225600, sentAt_nonneg := by decide })

/-- One cycle of the bridge announces two reports, and both alerts have one id. -/
theorem reports_share_id :
    ¬ Runs.Always (Alerts.step PyBuiltins.plain) Alerts.Distinct .start
      [reportAt 54, reportAt 55] := by
  intro h
  obtain ⟨-, hids⟩ := h.last
  have hsent : (Runs.final (Alerts.step PyBuiltins.plain) .start
      [reportAt 54, reportAt 55]).sent.map Chat.messageId =
        ["DANGAUSAKIS-EVENT-drone_report-ALERT-1767225600",
          "DANGAUSAKIS-EVENT-drone_report-ALERT-1767225600"] := by
    decide +kernel
  rw [hsent] at hids
  exact absurd hids (by decide)

end Efdi.Tak.GeoChat
