import Efdi.Base.PyBuiltins

/-!
# Community reports

`drone_report_tracks` and `incident_marker_tracks` make one track of each report and each incident
of the site that passes the checks of its map.  A report that fails a check is skipped.  Only a
feed whose list is no list, or a number out of all range, raises.

The uids of the two kinds start with different words, so no report has the uid of an incident.
-/

namespace Efdi.Alerts

inductive Kind where
  | report
  | incident
deriving DecidableEq, Repr

/-- What only one of the two kinds says of itself. -/
inductive About where
  | report (reportType : String)
  | incident (title url : String)
deriving DecidableEq

/-- A track of the site.  Its `_src` is the site's name. -/
structure CommunityTrack where
  ts : Rat
  uid : String
  latDeg : PyFloat
  lonDeg : PyFloat
  callsign : String
  targetType : String
  sapientClass : Option String
  about : About
  positionUncertaintyM : Option Nat
  expires : Option String
  remarks : String
deriving DecidableEq

section

variable (py : PyBuiltins)

/-- `epoch`. -/
def epoch : PyJson → Except PyError (Option Rat)
  | .str iso =>
    match py.fromisoformat (PyStr.replace "Z" "+00:00" iso) with
    | .ok ts => .ok (some ts)
    | .error .valueError => .ok none
    | .error raised => .error raised
  | _ => .ok none

/-- `epoch(iso) or now`. -/
def epochOr (iso : PyJson) (now : Rat) : Except PyError Rat :=
  (epoch py iso).map fun ts => if ts.getD 0 = 0 then now else ts.getD 0

/-- `_point`. -/
def point (item : PyJson) : Except PyError (Option (PyFloat × PyFloat)) :=
  match py.float (item.getNull "latitude"), py.float (item.getNull "longitude") with
  | .ok lat, .ok lon => .ok (if lat.between (-90) 90 && lon.between (-180) 180 then some (lat, lon)
      else none)
  | .error .overflowError, _ => .error .overflowError
  | .error _, _ => .ok none
  | .ok _, .error .overflowError => .error .overflowError
  | .ok _, .error _ => .ok none

/-- `str(item.get(key) or "")`. -/
def textAt (item : PyJson) (key : String) : String := py.str ((item.getNull key).or (.str ""))

/-- `$` also stands before a line end that closes the text. -/
def matchesToEnd (test : String → Bool) (s : String) : Bool :=
  test s || (PyStr.endsWith s "\n" && test (PyStr.removeSuffix s "\n"))

/-- `_ID_32`. -/
def id32 (s : String) : Bool :=
  matchesToEnd (PyStr.classMatch (fun c => c.isDigit || ('a' ≤ c && c ≤ 'f')) 32 32) s

/-- A letter or digit at the start of `_ID_SLUG`. -/
def slugHead (c : Char) : Bool := c.isDigit || ('a' ≤ c && c ≤ 'z')

/-- `_ID_SLUG`. -/
def idSlug (s : String) : Bool :=
  matchesToEnd
    (fun s => PyStr.classMatch slugHead 1 1 (PyStr.take 1 s) &&
      PyStr.classMatch (fun c => slugHead c || c ∈ ['.', '_', ':', '-']) 2 127 (PyStr.drop 1 s)) s

/-- `_SITE_HOSTS`. -/
def siteHosts : List String := ["https://dangausakis.lt/", "https://www.dangausakis.lt/"]

-- `_iso`, the text of a time that `epoch` has read
variable (iso : Rat → String)

/-- One round of `drone_report_tracks`. -/
def addReport (server now : Rat) (out : PyDict String CommunityTrack) (report : PyJson) :
    Except PyError (PyDict String CommunityTrack) :=
  if !report.isDict then .ok out
  else do
    let rid := textAt py report "id"
    let found ← point py report
    let expires ← epoch py (report.getNull "expiresAt")
    match found, expires with
    | some (lat, lon), some expires =>
      if !id32 rid || decide (expires ≤ server) then .ok out
      else
        let kind := PyStr.take 20 (py.str ((report.getNull "reportType").or (.str "report")))
        let uid := "DA-REPORT-" ++ PyStr.take 16 rid
        .ok (out.set uid
          { ts := now, uid, latDeg := lat, lonDeg := lon
            callsign := "LT drone report (" ++ kind ++ ")", targetType := "uav"
            sapientClass := some "uav", about := .report kind, positionUncertaintyM := some 1000
            expires := some (iso expires)
            remarks := "Community report (" ++ kind ++
              "), unverified - via dangausakis.lt - expires " ++ iso expires })
    | _, _ => .ok out

/-- `drone_report_tracks`. -/
def droneReportTracks (data : PyJson) (now : Rat) :
    Except PyError (PyDict String CommunityTrack) :=
  if !data.isDict then .ok .empty
  else do
    let server ← epochOr py (((data.getNull "serverTime").or (data.getNull "server_time")).or
      (data.getNull "updatedAt")) now
    let reports ← ((data.getNull "reports").or (.list [])).iter
    reports.foldlM (addReport py iso server now) .empty

/-- One round of `incident_marker_tracks`. -/
def addIncident (server now : Rat) (out : PyDict String CommunityTrack) (incident : PyJson) :
    Except PyError (PyDict String CommunityTrack) :=
  if !incident.isDict then .ok out
  else do
    let iid := textAt py incident "id"
    let title := PyStr.strip (textAt py incident "title")
    let url := textAt py incident "url"
    let found ← point py incident
    let expires ← epoch py (incident.getNull "expires_at")
    match found, expires with
    | some (lat, lon), some expires =>
      if !idSlug iid || title == "" || decide (160 < PyStr.len title) ||
          decide (expires ≤ server) || !siteHosts.any (PyStr.startsWith url) then .ok out
      else
        let approximate := decide (incident.getNull "is_approximate" = .bool true)
        let uid := "DA-INCIDENT-" ++ PyStr.take 100 iid
        .ok (out.set uid
          { ts := now, uid, latDeg := lat, lonDeg := lon, callsign := title
            targetType := "incident", sapientClass := none, about := .incident title url
            positionUncertaintyM := if approximate then some 2000 else none, expires := none
            remarks := "Incident report via dangausakis.lt: " ++ title ++ " - " ++ url ++
              (if approximate then " - approximate location" else "") })
    | _, _ => .ok out

/-- `incident_marker_tracks`. -/
def incidentMarkerTracks (data : PyJson) (now : Rat) :
    Except PyError (PyDict String CommunityTrack) :=
  if !data.isDict then .ok .empty
  else do
    let server ← epochOr py ((data.getNull "server_time").or (data.getNull "serverTime")) now
    let incidents ← ((data.getNull "incidents").or (.list [])).iter
    incidents.foldlM (addIncident py server now) .empty

/-- The `build` of a kind in `publish_community`. -/
def build : Kind → PyJson → Rat → Except PyError (PyDict String CommunityTrack)
  | .report => droneReportTracks py iso
  | .incident => incidentMarkerTracks py

end

/-! ## Uids -/

/-- What the uids of a kind start with. -/
def Kind.uidHead : Kind → String
  | .report => "DA-REPORT-"
  | .incident => "DA-INCIDENT-"

/-- Every uid of the tracks starts as those of the kind do. -/
def UidsOf (kind : Kind) (tracks : PyDict String CommunityTrack) : Prop :=
  ∀ uid, tracks.contains uid = true → PyStr.startsWith uid kind.uidHead = true

theorem uidHead_disjoint {uid : String} {kind other : Kind}
    (h : PyStr.startsWith uid kind.uidHead = true)
    (hother : PyStr.startsWith uid other.uidHead = true) : kind = other := by
  obtain ⟨s, hs⟩ := PyStr.startsWith_iff.mp h
  obtain ⟨t, ht⟩ := PyStr.startsWith_iff.mp hother
  have hlist := congrArg String.toList (hs.symm.trans ht)
  cases kind <;> cases other <;> first | rfl | simp [Kind.uidHead] at hlist

section

variable {py : PyBuiltins} {iso : Rat → String} {kind : Kind}

theorem uidsOf_empty (kind : Kind) : UidsOf kind .empty := by
  intro uid h
  cases h

theorem UidsOf.set {tracks : PyDict String CommunityTrack} (h : UidsOf kind tracks)
    (s : String) (track : CommunityTrack) : UidsOf kind (tracks.set (kind.uidHead ++ s) track) := by
  intro uid huid
  rw [PyDict.contains_set] at huid
  by_cases hsame : uid = kind.uidHead ++ s
  · rw [hsame]
    exact PyStr.startsWith_append _ _
  · exact h uid (by simpa [hsame] using huid)

theorem addReport_uids {server now : Rat} {out out' : PyDict String CommunityTrack}
    {report : PyJson} (hout : UidsOf .report out)
    (h : addReport py iso server now out report = .ok out') : UidsOf .report out' := by
  rw [addReport] at h
  split at h
  next _ =>
    cases h
    exact hout
  next _ =>
    obtain ⟨found, -, h⟩ := PyError.bind_eq_ok h
    obtain ⟨expires, -, h⟩ := PyError.bind_eq_ok h
    split at h
    next _ =>
      split at h
      next _ =>
        cases h
        exact hout
      next _ =>
        cases h
        exact hout.set _ _
    next _ =>
      cases h
      exact hout

theorem addIncident_uids {server now : Rat} {out out' : PyDict String CommunityTrack}
    {incident : PyJson} (hout : UidsOf .incident out)
    (h : addIncident py server now out incident = .ok out') : UidsOf .incident out' := by
  rw [addIncident] at h
  split at h
  next _ =>
    cases h
    exact hout
  next _ =>
    obtain ⟨found, -, h⟩ := PyError.bind_eq_ok h
    obtain ⟨expires, -, h⟩ := PyError.bind_eq_ok h
    split at h
    next _ =>
      split at h
      next _ =>
        cases h
        exact hout
      next _ =>
        cases h
        exact hout.set _ _
    next _ =>
      cases h
      exact hout

/-- The tracks of a kind have uids of the kind. -/
theorem build_uids {data : PyJson} {now : Rat} {tracks : PyDict String CommunityTrack}
    (h : build py iso kind data now = .ok tracks) : UidsOf kind tracks := by
  cases kind with
  | report =>
    rw [build, droneReportTracks] at h
    split at h
    next _ =>
      cases h
      exact uidsOf_empty _
    next _ =>
      obtain ⟨server, -, h⟩ := PyError.bind_eq_ok h
      obtain ⟨reports, -, h⟩ := PyError.bind_eq_ok h
      exact PyError.foldlM_kept (fun _ _ _ => addReport_uids) (uidsOf_empty _) h
  | incident =>
    rw [build, incidentMarkerTracks] at h
    split at h
    next _ =>
      cases h
      exact uidsOf_empty _
    next _ =>
      obtain ⟨server, -, h⟩ := PyError.bind_eq_ok h
      obtain ⟨incidents, -, h⟩ := PyError.bind_eq_ok h
      exact PyError.foldlM_kept (fun _ _ _ => addIncident_uids) (uidsOf_empty _) h

end

end Efdi.Alerts
