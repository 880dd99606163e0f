import Efdi.Aartos.Identities

/-!
# AARTOS drones over a run

A run is any sequence of samples, of any hosts.  `rounds` are the rounds of reports of one host,
and what they make known (`knownAfter`) says under which uid a sample publishes a kind
(`uid_published`).

`distinguished_iff` says when the drones of a run neither merge nor multiply.
-/

namespace Efdi.Aartos

open Runs List

variable {H : Host}

/-! ## What a sample puts -/

theorem positions_foldl_survey {host : String} {refTs : ℚ} (antennas : List Antenna)
    (state : Survey) :
    (antennas.foldl (survey H host refTs) state).positions =
      state.positions ++ antennas.filterMap fun antenna =>
        (antennaToSite H antenna refTs).map fun site => (site.latDeg, site.lonDeg) := by
  induction antennas generalizing state with
  | nil => simp
  | cons antenna antennas ih =>
    rw [foldl_cons, ih, survey]
    cases hsite : antennaToSite H antenna refTs with
    | none => simp [hsite]
    | some site => simp [hsite]

theorem filterMap_foldl_survey {β : Type*} {f : Put → Option β}
    (hf : ∀ topic site, f (.site topic site) = none) {host : String} {refTs : ℚ}
    (antennas : List Antenna) (state : Survey) :
    (antennas.foldl (survey H host refTs) state).puts.filterMap f = state.puts.filterMap f := by
  induction antennas generalizing state with
  | nil => rfl
  | cons antenna antennas ih =>
    rw [foldl_cons, ih, survey]
    cases antennaToSite H antenna refTs with
    | none => rfl
    | some site => simp [hf]

theorem publications_foldl_bury {refTs : ℚ} {nowClasses : List EntityKind}
    {goneAt : EntityKind → ℚ} (kinds : List EntityKind) (state : Burial) :
    (kinds.foldl (bury H refTs nowClasses goneAt) state).tombstones.filterMap Put.publication? =
      state.tombstones.filterMap Put.publication? := by
  induction kinds generalizing state with
  | nil => rfl
  | cons kind kinds ih =>
    rw [foldl_cons, ih, bury]
    split
    · rfl
    · cases state.classIdentity.get? kind with
      | none => rfl
      | some ident =>
        dsimp only
        split
        · rfl
        · simp [Put.publication?]

variable (H) in
/-- The positions of the antennas of a payload. -/
def antennaPositions (refTs : ℚ) (payload : Payload) : List (ℚ × ℚ) :=
  payload.antennas.filterMap fun antenna =>
    (antennaToSite H antenna refTs).map fun site => (site.latDeg, site.lonDeg)

variable (host : String)

/-- What is published is what the pass over the trackings publishes. -/
theorem publications_handle (tables : Tables) (payload : Payload) (now : ℚ)
    (goneAt : EntityKind → ℚ) :
    (handle H host tables payload now goneAt).2.filterMap Put.publication? =
      (passOver H host (refTs payload now) (antennaPositions H (refTs payload now) payload) tables
        payload.trackings).published := by
  have hpositions : (surveyAll H host (refTs payload now) tables payload).positions =
      antennaPositions H (refTs payload now) payload := by
    rw [surveyAll, positions_foldl_survey]
    rfl
  have htracks : ∀ published : List Publication,
      (published.map Put.track).filterMap Put.publication? = published := by
    intro published
    rw [filterMap_map]
    exact filterMap_some
  rw [handle]
  dsimp only
  rw [filterMap_append, filterMap_append, publications_foldl_bury, htracks, surveyAll,
    filterMap_foldl_survey fun _ _ => rfl, ← surveyAll, hpositions]
  simp

theorem published_eq {translator : Translator} {sample : Sample} {payload : Payload}
    (h : sample.payload = some payload) :
    published H translator sample =
      (passOver H (hostOf H sample) (refTs payload sample.now)
        (antennaPositions H (refTs payload sample.now) payload)
        (translator.tables (hostOf H sample)) payload.trackings).published := by
  rw [published, onSample, h]
  exact publications_handle _ _ _ _ _

theorem published_of_none {translator : Translator} {sample : Sample}
    (h : sample.payload = none) : published H translator sample = [] := by
  rw [published, onSample, h]
  rfl

variable (H) in
/-- The track of a tracking that a sample publishes. -/
def visible (payload : Payload) (now : ℚ) (tracking : Tracking) : Option Track :=
  shown H (refTs payload now) (antennaPositions H (refTs payload now) payload) tracking

/-- A kind with a visible track is reported. -/
theorem first_of_visible {payload : Payload} {now : ℚ} {tracking : Tracking} {track : Track}
    (hmem : tracking ∈ payload.trackings) (h : visible H payload now tracking = some track) :
    ∃ tid, (roundOf H payload now).first track.entityKind = some tid := by
  have hadmitted : admitted H (refTs payload now) tracking = some track :=
    (Option.filter_eq_some_iff.mp h).1
  have hreport := mem_filterMap.mpr ⟨tracking, hmem, report_of_some hadmitted⟩
  cases hfirst : (roundOf H payload now).first track.entityKind with
  | some tid => exact ⟨tid, rfl⟩
  | none =>
    have hnot := lookup_eq_none_iff.mp hfirst _ hreport
    simp at hnot

/-- After the trackings, a kind that is reported has the uid of its founder. -/
theorem uid_passOver {host : String} {positions : List (ℚ × ℚ)} {tables : Tables}
    {known : Grace.Known EntityKind String ℚ} (hagrees : Agrees host tables.classIdentity known)
    {payload : Payload} {now : ℚ} {kind : EntityKind} {tid : String}
    (hfirst : (roundOf H payload now).first kind = some tid) :
    ((passOver H host (refTs payload now) positions tables
        payload.trackings).classIdentity.get? kind).map Identity.uid =
      ((Grace.step classGoneGraceS known (roundOf H payload now) kind).map Grace.Founder.tag).map
        (newUid host) := by
  have hview := congrArg (Option.map Prod.fst) (@view_foldl_follow H host (refTs payload now)
    positions kind payload.trackings ⟨tables.classIdentity, tables.lastTopic, [], []⟩)
  have hlookup : (payload.trackings.filterMap (report H (refTs payload now))).lookup kind =
    some tid := hfirst
  rw [hlookup, Option.map_map] at hview
  rw [passOver, Grace.step_of_first hfirst]
  refine hview.trans ?_
  dsimp only
  rw [hagrees.uid]
  cases known kind with
  | none => rfl
  | some founder => rfl

/-- The publications of a sample are its visible tracks, under the uids of the founders of their
kinds. -/
theorem mem_published_iff {translator : Translator} {sample : Sample} {payload : Payload}
    (hpayload : sample.payload = some payload) {known : Grace.Known EntityKind String ℚ}
    (hagrees : Agrees (hostOf H sample) (translator.tables (hostOf H sample)).classIdentity known)
    {p : Publication} :
    p ∈ published H translator sample ↔
      ∃ tracking ∈ payload.trackings, ∃ track tag,
        visible H payload sample.now tracking = some track ∧
        (Grace.step classGoneGraceS known (roundOf H payload sample.now) track.entityKind).map
          Grace.Founder.tag = some tag ∧
        p = ⟨tracking, topicForTrack H track,
          { track with uid := newUid (hostOf H sample) tag }⟩ := by
  rw [published_eq hpayload, passOver, mem_published_foldl_follow, or_iff_right not_mem_nil]
  refine exists_congr fun tracking => and_congr_right fun hmem => exists_congr fun track => ?_
  constructor
  · rintro ⟨uid, hvisible, huid, hp⟩
    obtain ⟨tid, hfirst⟩ := first_of_visible hmem hvisible
    obtain ⟨tag, htag, rfl⟩ :=
      Option.map_eq_some_iff.mp ((uid_passOver hagrees hfirst).symm.trans huid)
    exact ⟨tag, hvisible, htag, hp⟩
  · rintro ⟨tag, hvisible, htag, hp⟩
    obtain ⟨tid, hfirst⟩ := first_of_visible hmem hvisible
    have huid := @uid_passOver H _ (antennaPositions H (refTs payload sample.now) payload) _ _
      hagrees _ _ _ _ hfirst
    rw [htag] at huid
    exact ⟨_, hvisible, huid, hp⟩

/-! ## Runs -/

variable (H) in
/-- The rounds of reports of a host in a run. -/
def rounds (run : List Sample) : List (Grace.Round EntityKind String ℚ) :=
  run.filterMap fun sample =>
    if hostOf H sample = host then
      sample.payload.map fun payload => roundOf H payload sample.now
    else none

variable (H) in
/-- What a run makes known of the kinds of a host. -/
def knownAfter (run : List Sample) : Grace.Known EntityKind String ℚ :=
  final (Grace.step classGoneGraceS) (fun _ => none) (rounds H host run)

theorem rounds_append (run later : List Sample) :
    rounds H host (run ++ later) = rounds H host run ++ rounds H host later :=
  filterMap_append

theorem rounds_singleton {sample : Sample} {payload : Payload}
    (h : sample.payload = some payload) :
    rounds H (hostOf H sample) [sample] = [roundOf H payload sample.now] := by
  simp [rounds, h]

theorem tables_set_self (translator : Translator) (host : String) (tables : Tables) :
    Translator.tables (translator.set host tables) host = tables := by
  rw [Translator.tables, PyDict.get?_set_self, Option.getD_some]

theorem tables_set_of_ne (translator : Translator) {host other : String} (hne : host ≠ other)
    (tables : Tables) :
    Translator.tables (translator.set other tables) host = translator.tables host := by
  rw [Translator.tables, Translator.tables, PyDict.get?_set_of_ne _ hne]

/-- A sample of another host, and a payload that is not JSON, leave the tables of a host. -/
theorem tables_step_of_other {translator : Translator} {sample : Sample} {host : String}
    (h : hostOf H sample ≠ host ∨ sample.payload = none) :
    (step H translator sample).tables host = translator.tables host := by
  rw [step, onSample]
  cases hpayload : sample.payload with
  | none => rfl
  | some payload =>
    rcases h with hhost | hnone
    · exact tables_set_of_ne _ hhost.symm _
    · rw [hnone] at hpayload
      cases hpayload

theorem agrees_step {translator : Translator} {sample : Sample} {host : String}
    {known : Grace.Known EntityKind String ℚ}
    (h : Agrees host (translator.tables host).classIdentity known) :
    Agrees host ((step H translator sample).tables host).classIdentity
      (final (Grace.step classGoneGraceS) known (rounds H host [sample])) := by
  by_cases hhost : hostOf H sample = host
  · subst hhost
    cases hpayload : sample.payload with
    | none =>
      rw [tables_step_of_other (Or.inr hpayload)]
      simpa [rounds, hpayload] using h
    | some payload =>
      rw [rounds_singleton hpayload, step, onSample, hpayload]
      dsimp only
      rw [tables_set_self]
      exact agrees_handle h payload sample.now sample.goneAt
  · rw [tables_step_of_other (Or.inl hhost)]
    simpa [rounds, hhost] using h

/-- The identities of a host after a run are what the run makes known. -/
theorem agrees_run {translator : Translator} {host : String}
    {known : Grace.Known EntityKind String ℚ} (run : List Sample)
    (h : Agrees host (translator.tables host).classIdentity known) :
    Agrees host ((final (step H) translator run).tables host).classIdentity
      (final (Grace.step classGoneGraceS) known (rounds H host run)) := by
  induction run generalizing translator known with
  | nil => exact h
  | cons sample run ih =>
    have hstep := ih (@agrees_step H _ sample _ _ h)
    rw [← final_append, ← rounds_append] at hstep
    exact hstep

theorem agrees_knownAfter (run : List Sample) :
    Agrees host ((final (step H) PyDict.empty run).tables host).classIdentity
      (knownAfter H host run) :=
  agrees_run run fun _ => rfl

theorem knownAfter_append (run later : List Sample) :
    knownAfter H host (run ++ later) =
      final (Grace.step classGoneGraceS) (knownAfter H host run) (rounds H host later) := by
  rw [knownAfter, rounds_append, final_append]
  rfl

/-! ## Neither merged nor multiplied -/

variable (H) in
/-- The tracks that a sample publishes at the end of a run. -/
def publishedAfter (run : List Sample) (sample : Sample) : List Publication :=
  published H (final (step H) PyDict.empty run) sample

variable (H) in
/-- A stretch of a run, after the samples `run`, publishes a track of a kind for a host. -/
def PublishedIn (run stretch : List Sample) (host : String) (kind : EntityKind)
    (p : Publication) : Prop :=
  ∃ before sample after, stretch = before ++ sample :: after ∧ hostOf H sample = host ∧
    p ∈ publishedAfter H (run ++ before) sample ∧ p.track.entityKind = kind

variable (H) in
/-- Drones neither merge nor multiply in a run. -/
structure Distinguished (run : List Sample) : Prop where
  /-- Trackings of one sample that differ in their ids get different uids. -/
  apart : ∀ before sample after, run = before ++ sample :: after →
    ∀ p ∈ publishedAfter H before sample, ∀ q ∈ publishedAfter H before sample,
      p.tracking.trackID ≠ q.tracking.trackID → p.track.uid ≠ q.track.uid
  /-- While its kind is never absent for the grace period, a drone keeps its uid. -/
  kept : ∀ before stretch after, run = before ++ stretch ++ after → ∀ host kind,
    Grace.NeverAbsent classGoneGraceS kind (rounds H host stretch) →
      ∀ p q, PublishedIn H before stretch host kind p → PublishedIn H before stretch host kind q →
        p.track.uid = q.track.uid

variable (H) in
/-- The visible trackings of a payload that differ in their ids are of different kinds, which began
with different ids. -/
def FoundersDiffer (known : Grace.Known EntityKind String ℚ) (payload : Payload) (now : ℚ) : Prop :=
  ∀ tracking ∈ payload.trackings, ∀ tracking' ∈ payload.trackings, ∀ track track',
    visible H payload now tracking = some track →
    visible H payload now tracking' = some track' →
    tracking.trackID ≠ tracking'.trackID →
    track.entityKind ≠ track'.entityKind ∧
      Grace.founding known (roundOf H payload now) track.entityKind ≠
        Grace.founding known (roundOf H payload now) track'.entityKind

/-- A sample tells its drones apart exactly when their kinds have different founders. -/
theorem apart_iff {translator : Translator} {sample : Sample} {payload : Payload}
    (hpayload : sample.payload = some payload) {known : Grace.Known EntityKind String ℚ}
    (hagrees : Agrees (hostOf H sample) (translator.tables (hostOf H sample)).classIdentity known) :
    (∀ p ∈ published H translator sample, ∀ q ∈ published H translator sample,
      p.tracking.trackID ≠ q.tracking.trackID → p.track.uid ≠ q.track.uid) ↔
    FoundersDiffer H known payload sample.now := by
  constructor
  · intro hapart tracking hmem tracking' hmem' track track' hvisible hvisible' hne
    obtain ⟨tid, hfirst⟩ := first_of_visible hmem hvisible
    obtain ⟨tid', hfirst'⟩ := first_of_visible hmem' hvisible'
    have hstep := @Grace.step_of_first _ _ _ _ _ _ _ classGoneGraceS known _ _ _ hfirst
    have hstep' := @Grace.step_of_first _ _ _ _ _ _ _ classGoneGraceS known _ _ _ hfirst'
    have huid := hapart _ ((mem_published_iff hpayload hagrees).mpr
        ⟨tracking, hmem, track, _, hvisible, congrArg (Option.map _) hstep, rfl⟩) _
      ((mem_published_iff hpayload hagrees).mpr
        ⟨tracking', hmem', track', _, hvisible', congrArg (Option.map _) hstep', rfl⟩) hne
    have hfounding : Grace.founding known (roundOf H payload sample.now) track.entityKind ≠
        Grace.founding known (roundOf H payload sample.now) track'.entityKind := by
      intro hsame
      rw [← @Grace.tag_step_of_first _ _ _ _ _ _ _ classGoneGraceS _ _ _ _ hfirst,
        ← @Grace.tag_step_of_first _ _ _ _ _ _ _ classGoneGraceS _ _ _ _ hfirst', hstep,
        hstep'] at hsame
      exact huid (congrArg (newUid (hostOf H sample)) (Option.some.inj hsame))
    exact ⟨fun hkind => hfounding (congrArg _ hkind), hfounding⟩
  · intro hdiffer p hp q hq hne huid
    obtain ⟨tracking, hmem, track, tag, hvisible, htag, rfl⟩ :=
      (mem_published_iff hpayload hagrees).mp hp
    obtain ⟨tracking', hmem', track', tag', hvisible', htag', rfl⟩ :=
      (mem_published_iff hpayload hagrees).mp hq
    obtain ⟨tid, hfirst⟩ := first_of_visible hmem hvisible
    obtain ⟨tid', hfirst'⟩ := first_of_visible hmem' hvisible'
    refine (hdiffer tracking hmem tracking' hmem' track track' hvisible hvisible' hne).2 ?_
    rw [← @Grace.tag_step_of_first _ _ _ _ _ _ _ classGoneGraceS _ _ _ _ hfirst,
      ← @Grace.tag_step_of_first _ _ _ _ _ _ _ classGoneGraceS _ _ _ _ hfirst', htag, htag']
    exact congrArg some (newUid_inj huid)

/-- A track of a stretch has the uid of the founder after some first rounds of the stretch. -/
theorem uid_publishedIn {run stretch : List Sample} {host : String} {kind : EntityKind}
    {p : Publication} (h : PublishedIn H run stretch host kind p) :
    ∃ front back, rounds H host stretch = front ++ back ∧ front ≠ [] ∧
      some p.track.uid =
        ((final (Grace.step classGoneGraceS) (knownAfter H host run) front kind).map
          Grace.Founder.tag).map (newUid host) := by
  obtain ⟨before, sample, after, rfl, rfl, hp, rfl⟩ := h
  cases hpayload : sample.payload with
  | none =>
    rw [publishedAfter, published_of_none hpayload] at hp
    cases hp
  | some payload =>
    obtain ⟨tracking, hmem, track, tag, hvisible, htag, rfl⟩ :=
      (mem_published_iff hpayload (agrees_knownAfter (hostOf H sample) (run ++ before))).mp hp
    refine ⟨rounds H (hostOf H sample) before ++ [roundOf H payload sample.now],
      rounds H (hostOf H sample) after, ?_, by simp, ?_⟩
    · rw [← rounds_singleton hpayload, ← rounds_append, ← rounds_append, append_assoc]
      rfl
    · rw [final_append, ← knownAfter_append, final_cons, final_nil, htag]
      rfl

/-- Drones neither merge nor multiply in a run exactly when at each of its samples the visible
trackings that differ in their ids are of kinds that began with different ids. -/
theorem distinguished_iff (H : Host) (run : List Sample) :
    Distinguished H run ↔
      ∀ before sample after payload, run = before ++ sample :: after →
        sample.payload = some payload →
        FoundersDiffer H (knownAfter H (hostOf H sample) before) payload sample.now := by
  constructor
  · intro h before sample after payload hrun hpayload
    exact (apart_iff hpayload (agrees_knownAfter _ before)).mp (h.apart before sample after hrun)
  · intro h
    refine ⟨fun before sample after hrun => ?_, fun before stretch after _ host kind hnever p q hp
      hq => ?_⟩
    · cases hpayload : sample.payload with
      | none =>
        intro p hp
        rw [publishedAfter, published_of_none hpayload] at hp
        cases hp
      | some payload =>
        exact (apart_iff hpayload (agrees_knownAfter _ before)).mpr
          (h before sample after payload hrun hpayload)
    · obtain ⟨front, back, hsplit, hfront, huid⟩ := uid_publishedIn hp
      obtain ⟨front', back', hsplit', hfront', huid'⟩ := uid_publishedIn hq
      have hsame := Grace.founder_of_neverAbsent (knownAfter H host before) hnever hsplit hsplit'
        hfront hfront'
      rw [hsame] at huid
      exact Option.some.inj (huid.trans huid'.symm)

/-- A host whose positions are short decimals. -/
def plainHost : Host where
  py := Tracks.asciiText
  topicRoot := "efdi"
  round := fun value _ => value
  distanceM := fun p q => if p = q then 0 else 1000000
  hypot := fun east north => if east = 0 then north else east
  heading := fun east _ => if east = 0 then 0 else 90

/-- A drone at 54 degrees north and 25 degrees east. -/
def droneTracking (trackID : Int) : Tracking where
  trackID := .int trackID
  trackValid := some (.bool true)
  positionValid := .bool true
  latitude := some 54
  longitude := some 25
  elevation := none
  velocityValid := .bool false
  xvelocity := none
  yvelocity := none
  droneName := .null
  categoryName := .str "Drone"
  alertLevel := .str "warning"
  probability := .null
  zoneIDs := .null

/-- Two drones in one sample of the host `north`. -/
def twoDrones : Sample where
  keyExpr := "efdi/raw/aartos/north"
  payload := some ⟨some 100, [droneTracking 1, droneTracking 2], []⟩
  now := 100
  goneAt := fun _ => 100

/-- Two drones with the ids 1 and 2 go out as one drone. -/
theorem two_drones_merge :
    (publishedAfter plainHost [] twoDrones).map
        (fun p => (p.tracking.trackID, p.track.uid)) =
      [(.int 1, "aartos-north-1"), (.int 2, "aartos-north-1")] ∧
    ¬ Distinguished plainHost [twoDrones] := by
  have hboth : (publishedAfter plainHost [] twoDrones).map
      (fun p => (p.tracking.trackID, p.track.uid)) =
        [(.int 1, "aartos-north-1"), (.int 2, "aartos-north-1")] := by
    decide +kernel
  refine ⟨hboth, fun h => ?_⟩
  obtain ⟨p, rest, hp, hfirst, hrest⟩ := List.map_eq_cons_iff.mp hboth
  obtain ⟨q, others, rfl, hsecond, -⟩ := List.map_eq_cons_iff.mp hrest
  obtain ⟨hpid, hpuid⟩ := Prod.mk.inj hfirst
  obtain ⟨hqid, hquid⟩ := Prod.mk.inj hsecond
  refine h.apart [] twoDrones [] rfl p (by simp [hp]) q (by simp [hp]) ?_ (hpuid.trans hquid.symm)
  rw [hpid, hqid]
  decide

end Efdi.Aartos
