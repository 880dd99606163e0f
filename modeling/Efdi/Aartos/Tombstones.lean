import Efdi.Aartos.Drones

/-!
# Tombstones of AARTOS drones

A kind of drone that is absent for the grace period expires, and a tombstone of its uid is put in
that sample and in no other (`tombstones_onSample`).  It goes to the topic that `publish_dual` was
given for the tracks of the kind.  The tracks are not there: `publish_dual` puts them on object
keys, which have two segments more (`not_onKey_of_depth`).

So a run withdraws its drones where they were drawn exactly when no uid expires under which a track
was shown (`tombstoned_iff`).
-/

namespace Efdi.Aartos

open Tracks (semanticTopic split_slash split_semanticTopic stripVersion prefixParts)
open Runs List

variable {H : Host}

/-! ## Keys -/

variable (H) in
/-- The object key of a track.  Of the keys that a type or an id is read from, the track has the uid
and, after it, the callsign. -/
def Publication.objectKey (p : Publication) : String :=
  semanticTopic H.py p.topic (PyDict.empty.set "uid" (.str p.track.uid))

/-- A topic is a key or below it. -/
def OnKey (key topic : String) : Prop := PyStr.split '/' key <+: PyStr.split '/' topic

/-- How many segments of a topic are not empty. -/
def depth (topic : String) : Nat := ((PyStr.split '/' topic).filter (· != "")).length

theorem OnKey.depth_le {key topic : String} (h : OnKey key topic) : depth key ≤ depth topic :=
  (h.filter _).length_le

/-- The affiliation of a topic is one segment. -/
theorem affiliation_segment (level : String) :
    '/' ∉ ((affiliations.lookup level).getD "unknown").toList ∧
      (affiliations.lookup level).getD "unknown" ≠ "" := by
  have hall : ∀ entry ∈ affiliations, '/' ∉ entry.2.toList ∧ entry.2 ≠ "" := by decide
  cases hlookup : affiliations.lookup level with
  | none => decide
  | some affiliation =>
    obtain ⟨before, after, heq, -⟩ := lookup_eq_some_iff.mp hlookup
    exact hall (level, affiliation) (by simp [heq])

/-- The domain and the entity of a kind. -/
def EntityKind.words : EntityKind → String × String
  | .unit => ("land", "unit")
  | .uav => ("air", "uav")

section

variable {kind : EntityKind} {affiliation : String}

theorem split_domainTopic (h : '/' ∉ affiliation.toList) :
    PyStr.split '/' (domainTopic H kind affiliation) = PyStr.split '/' H.topicRoot ++
      [kind.words.1, "aartos", "passive_rf", affiliation, kind.words.2] := by
  have hwords : domainTopic H kind affiliation = H.topicRoot ++ "/" ++ kind.words.1 ++ "/" ++
      "aartos/passive_rf" ++ "/" ++ affiliation ++ "/" ++ kind.words.2 := by
    cases kind <;> simp [domainTopic, EntityKind.words, String.append_assoc]
  rw [hwords]
  simp only [split_slash, PyStr.split_of_notMem h, append_assoc]
  cases kind <;> rfl

theorem depth_domainTopic (h : '/' ∉ affiliation.toList ∧ affiliation ≠ "") :
    depth (domainTopic H kind affiliation) = depth H.topicRoot + 5 := by
  rw [depth, split_domainTopic h.1]
  cases kind <;> simp [depth, EntityKind.words, h.2]

theorem prefixParts_domainTopic (h : '/' ∉ affiliation.toList ∧ affiliation ≠ "") :
    prefixParts H.py (domainTopic H kind affiliation) =
      (PyStr.split '/' (domainTopic H kind affiliation)).filter (· != "") := by
  have hmark : Tracks.versionMark H.py.toUnicode kind.words.2 = false := by cases kind <;> rfl
  have hlegacy : kind.words.2 ∉ Tracks.legacyTail := by cases kind <;> decide
  have hstrip : stripVersion H.py.toUnicode (domainTopic H kind affiliation) =
      domainTopic H kind affiliation := by
    rw [stripVersion, split_domainTopic h.1]
    simp [hmark]
  have hlast : (PyStr.split '/' (domainTopic H kind affiliation)).filter (· != "") =
      (PyStr.split '/' H.topicRoot ++ [kind.words.1, "aartos", "passive_rf", affiliation]).filter
        (· != "") ++ [kind.words.2] := by
    rw [split_domainTopic h.1]
    cases kind <;> simp [EntityKind.words, h.2]
  rw [prefixParts, hstrip, hlast, reverse_concat,
    dropWhile_cons_of_neg (by simpa using hlegacy), ← reverse_concat, reverse_reverse]

end

/-- A topic with as many segments as those of tracks is above the object keys. -/
theorem not_onKey_of_depth {p : Publication} {track : Track} (h : p.topic = topicForTrack H track)
    {topic : String} (htopic : depth topic = depth H.topicRoot + 5) :
    ¬ OnKey (p.objectKey H) topic := by
  intro hon
  have haffiliation := affiliation_segment track.aartosAlertLevel
  have hdepth := @depth_domainTopic H track.entityKind _ haffiliation
  have htype : Tracks.objectType H.py (PyDict.empty.set "uid" (.str p.track.uid)) = "unknown" := rfl
  have hle := hon.depth_le
  rw [Publication.objectKey, h, topicForTrack, depth, split_semanticTopic,
    prefixParts_domainTopic haffiliation, filter_append, filter_filter] at hle
  simp only [Bool.and_self, htype, length_append] at hle
  rw [← depth, hdepth, filter_cons_of_pos (by decide), length_cons] at hle
  omega

/-! ## The topics that are kept -/

variable (H) in
/-- The topics that a host has in `_last_topic` are as deep as those of tracks. -/
def Routed (lastTopic : PyDict EntityKind String) : Prop :=
  ∀ kind topic, lastTopic.get? kind = some topic → depth topic = depth H.topicRoot + 5

/-- The uid of a kind that expires. -/
def expiredUid (refTs : ℚ) (nowClasses : List EntityKind)
    (classIdentity : PyDict EntityKind Identity) (kind : EntityKind) : Option String :=
  if kind ∈ nowClasses then none
  else ((classIdentity.get? kind).filter fun ident => !ident.fresh refTs).map Identity.uid

/-- The topic and the uid of a put that is a tombstone. -/
def Put.tombstone? : Put → Option (String × String)
  | .site _ _ => none
  | .track _ => none
  | .tombstone topic uid _ => some (topic, uid)

section

variable {host : String} {refTs : ℚ}

theorem routed_foldl_follow {positions : List (ℚ × ℚ)} (trackings : List Tracking) {pass : Pass}
    (h : Routed H pass.lastTopic) :
    Routed H (trackings.foldl (follow H host refTs positions) pass).lastTopic := by
  induction trackings generalizing pass with
  | nil => exact h
  | cons tracking trackings ih =>
    refine ih ?_
    rw [follow]
    cases admitted H refTs tracking with
    | none => exact h
    | some track =>
      dsimp only
      split
      · exact h
      · exact PyDict.forall_set h (depth_domainTopic (affiliation_segment track.aartosAlertLevel))

variable {nowClasses : List EntityKind} {goneAt : EntityKind → ℚ} {state : Burial}

theorem routed_bury (h : Routed H state.lastTopic) (kind : EntityKind) :
    Routed H (bury H refTs nowClasses goneAt state kind).lastTopic := by
  rw [bury]
  split
  · exact h
  · split
    · exact h
    · split
      · exact h
      · exact fun other topic htopic => h other topic (PyDict.get?_of_get?_pop htopic)

/-- The tombstone of a kind, if it expires. -/
theorem tombstones_bury (kind : EntityKind) :
    (bury H refTs nowClasses goneAt state kind).tombstones.filterMap Put.tombstone? =
      state.tombstones.filterMap Put.tombstone? ++
        ((expiredUid refTs nowClasses state.classIdentity kind).map fun uid =>
          ((state.lastTopic.get? kind).getD (domainTopic H kind "unknown"), uid)).toList := by
  rw [bury, expiredUid]
  by_cases hnow : kind ∈ nowClasses
  · simp [hnow]
  · rw [if_neg hnow, if_neg hnow]
    cases state.classIdentity.get? kind with
    | none => simp
    | some ident =>
      by_cases hfresh : refTs - ident.lastSeen < classGoneGraceS
      · simp [hfresh, Identity.fresh, Option.filter_some]
      · simp [hfresh, Identity.fresh, Option.filter_some, Put.tombstone?]

/-- A tombstone is put for each kind that expires, and not on a track. -/
theorem tombstones_foldl_bury {kinds : List EntityKind} (hkinds : kinds.Nodup)
    (h : Routed H state.lastTopic) :
    ∃ tombstones,
      (kinds.foldl (bury H refTs nowClasses goneAt) state).tombstones.filterMap Put.tombstone? =
        state.tombstones.filterMap Put.tombstone? ++ tombstones ∧
      tombstones.map Prod.snd =
        kinds.filterMap (expiredUid refTs nowClasses state.classIdentity) ∧
      (∀ tombstone ∈ tombstones, depth tombstone.1 = depth H.topicRoot + 5) ∧
      Routed H (kinds.foldl (bury H refTs nowClasses goneAt) state).lastTopic := by
  induction kinds generalizing state with
  | nil => exact ⟨[], by simpa using h⟩
  | cons kind kinds ih =>
    obtain ⟨hnot, hnodup⟩ := nodup_cons.mp hkinds
    obtain ⟨tombstones, heq, huids, hdepths, hrouted⟩ :=
      ih hnodup (@routed_bury _ refTs nowClasses goneAt _ h kind)
    -- The other kinds are as they were.
    have hsame : kinds.filterMap (expiredUid refTs nowClasses
        (bury H refTs nowClasses goneAt state kind).classIdentity) =
        kinds.filterMap (expiredUid refTs nowClasses state.classIdentity) := by
      refine filterMap_congr fun other hother => ?_
      have hne : other ≠ kind := fun heq => hnot (heq ▸ hother)
      rw [expiredUid, expiredUid, get?_bury, if_neg (not_and_of_not_left _ hne)]
    rw [foldl_cons, heq, tombstones_bury, append_assoc]
    refine ⟨_, rfl, ?_, ?_, hrouted⟩
    · rw [map_append, huids, hsame]
      cases hexpired : expiredUid refTs nowClasses state.classIdentity kind <;> simp [hexpired]
    · rw [forall_mem_append]
      refine ⟨fun tombstone hmem => ?_, hdepths⟩
      obtain ⟨uid, -, rfl⟩ := Option.map_eq_some_iff.mp (Option.mem_toList.mp hmem)
      cases hlast : state.lastTopic.get? kind with
      | some topic => exact h _ _ hlast
      | none => exact depth_domainTopic (by decide)

end

/-! ## A sample -/

variable (H) in
/-- The uids of the kinds that a payload finds absent for the grace period. -/
def expiredUids (host : String) (known : Grace.Known EntityKind String ℚ) (payload : Payload)
    (now : ℚ) : List String :=
  [EntityKind.uav, EntityKind.unit].filterMap fun kind =>
    (Grace.expired classGoneGraceS known (roundOf H payload now) kind).map fun founder =>
      newUid host founder.tag

section

variable {host : String} {tables : Tables} {known : Grace.Known EntityKind String ℚ}

/-- The kinds that expire are those that the reports find absent. -/
theorem expiredUid_passOver (hagrees : Agrees host tables.classIdentity known)
    {positions : List (ℚ × ℚ)} (payload : Payload) (now : ℚ) (kind : EntityKind) :
    expiredUid (refTs payload now)
        (passOver H host (refTs payload now) positions tables payload.trackings).nowClasses
        (passOver H host (refTs payload now) positions tables
          payload.trackings).classIdentity kind =
      (Grace.expired classGoneGraceS known (roundOf H payload now) kind).map fun founder =>
        newUid host founder.tag := by
  have hview := @view_foldl_follow H host (refTs payload now) positions kind payload.trackings
    ⟨tables.classIdentity, tables.lastTopic, [], []⟩
  have hnow := @mem_nowClasses_foldl_follow H host (refTs payload now) positions kind
    payload.trackings ⟨tables.classIdentity, tables.lastTopic, [], []⟩
  rw [expiredUid, Grace.expired, Grace.Round.first, roundOf]
  cases hlookup : (payload.trackings.filterMap (report H (refTs payload now))).lookup kind with
  | some tid =>
    rw [hlookup] at hnow
    rw [passOver, if_pos (hnow.mpr (Or.inr rfl))]
    rfl
  | none =>
    rw [hlookup] at hview hnow
    rw [passOver, if_neg fun hmem => by simpa using hnow.mp hmem]
    have hfilter := congrArg (Option.map Prod.fst)
      (filter_view (hview.trans (hagrees kind)) fun seen =>
        !decide (refTs payload now - seen < classGoneGraceS))
    rw [Option.map_map, Option.map_map] at hfilter
    exact hfilter

/-- A sample puts one tombstone for each kind that expires, and none on a track. -/
theorem tombstones_handle (hagrees : Agrees host tables.classIdentity known)
    (hrouted : Routed H tables.lastTopic) (payload : Payload) (now : ℚ) (goneAt : EntityKind → ℚ) :
    (((handle H host tables payload now goneAt).2.filterMap Put.tombstone?).map Prod.snd).Perm
        (expiredUids H host known payload now) ∧
      (∀ tombstone ∈ (handle H host tables payload now goneAt).2.filterMap Put.tombstone?,
        depth tombstone.1 = depth H.topicRoot + 5) ∧
      Routed H (handle H host tables payload now goneAt).1.lastTopic := by
  have hpass : Routed H (passOver H host (refTs payload now)
      (surveyAll H host (refTs payload now) tables payload).positions tables
        payload.trackings).lastTopic := routed_foldl_follow payload.trackings hrouted
  have hexpired := @expiredUid_passOver H host _ _ hagrees
    (surveyAll H host (refTs payload now) tables payload).positions payload now
  have hsites : (surveyAll H host (refTs payload now) tables payload).puts.filterMap
      Put.tombstone? = [] := filterMap_foldl_survey (fun _ _ => rfl) _ _
  rw [handle]
  dsimp only
  generalize passOver H host (refTs payload now)
    (surveyAll H host (refTs payload now) tables payload).positions tables payload.trackings =
      pass at hpass hexpired
  obtain ⟨tombstones, heq, huids, hdepths, hburied⟩ := @tombstones_foldl_bury H
    (refTs payload now) pass.nowClasses goneAt ⟨pass.classIdentity, pass.lastTopic, []⟩ _
    pass.classIdentity.nodup hpass
  have htracks : (pass.published.map Put.track).filterMap Put.tombstone? = [] := by
    simp [Put.tombstone?]
  rw [filterMap_append, filterMap_append, hsites, htracks, heq]
  refine ⟨?_, hdepths, hburied⟩
  show (tombstones.map Prod.snd).Perm _
  rw [huids, expiredUids, ← funext hexpired]
  refine PyDict.filterMap_keys_perm (by decide) fun kind hkind =>
    ⟨?_, by cases kind <;> decide⟩
  -- A kind that expires has an identity.
  rw [PyDict.contains]
  cases hident : pass.classIdentity.get? kind with
  | none => simp [hident, expiredUid] at hkind
  | some ident => rfl

end

/-! ## Runs -/

variable (H) in
/-- What a run puts. -/
def puts : Translator → List Sample → List Put
  | _, [] => []
  | translator, sample :: run =>
    (onSample H translator sample).2 ++ puts (step H translator sample) run

variable (H) in
/-- The tombstones that a sample puts after a run, with their topics. -/
def tombstonesAfter (run : List Sample) (sample : Sample) : List (String × String) :=
  (onSample H (final (step H) PyDict.empty run) sample).2.filterMap Put.tombstone?

variable (H) in
/-- A tracking of a run is shown by a track: it is not on top of an antenna, and the uid is that of
the founder of its kind. -/
def ShownBy (run : List Sample) (p : Publication) : Prop :=
  ∃ before sample after payload, run = before ++ sample :: after ∧
    sample.payload = some payload ∧ ∃ tracking ∈ payload.trackings, ∃ track tag,
      visible H payload sample.now tracking = some track ∧
      (Grace.step classGoneGraceS (knownAfter H (hostOf H sample) before)
        (roundOf H payload sample.now) track.entityKind).map Grace.Founder.tag = some tag ∧
      p = ⟨tracking, topicForTrack H track, { track with uid := newUid (hostOf H sample) tag }⟩

theorem mem_puts_iff {translator : Translator} {run : List Sample} {p : Publication} :
    .track p ∈ puts H translator run ↔ ∃ before sample after, run = before ++ sample :: after ∧
      p ∈ published H (final (step H) translator before) sample := by
  induction run generalizing translator with
  | nil => simp [puts]
  | cons sample run ih =>
    have hone : .track p ∈ (onSample H translator sample).2 ↔ p ∈ published H translator sample := by
      rw [published, mem_filterMap]
      refine ⟨fun h => ⟨_, h, rfl⟩, ?_⟩
      rintro ⟨put, hput, heq⟩
      cases put <;> cases heq
      exact hput
    rw [puts, mem_append, hone, ih]
    constructor
    · rintro (h | ⟨before, other, after, rfl, h⟩)
      · exact ⟨[], sample, run, rfl, h⟩
      · exact ⟨sample :: before, other, after, rfl, h⟩
    · rintro ⟨before, other, after, heq, h⟩
      cases before with
      | nil =>
        obtain ⟨rfl, rfl⟩ := List.cons.inj heq
        exact .inl h
      | cons first before =>
        obtain ⟨rfl, rfl⟩ := List.cons.inj heq
        exact .inr ⟨before, other, after, rfl, h⟩

/-- The tracks that a run puts show its trackings. -/
theorem shownBy_iff {run : List Sample} {p : Publication} :
    .track p ∈ puts H PyDict.empty run ↔ ShownBy H run p := by
  rw [mem_puts_iff]
  refine exists_congr fun before => exists_congr fun sample => exists_congr fun after => ?_
  cases hpayload : sample.payload with
  | none => simp [published_of_none hpayload]
  | some payload => simp [mem_published_iff hpayload (agrees_knownAfter _ before)]

/-- The topics that a run keeps. -/
theorem routed_run (run : List Sample) (host : String) :
    Routed H ((final (step H) PyDict.empty run).tables host).lastTopic := by
  refine (@final_of_step _ _ (step H) (fun translator => ∀ host,
      (∃ known, Agrees host (translator.tables host).classIdentity known) ∧
        Routed H (translator.tables host).lastTopic) PyDict.empty run
    (fun translator sample h host => ?_) fun _ => ⟨⟨fun _ => none, fun _ => rfl⟩, nofun⟩) host |>.2
  obtain ⟨⟨known, hagrees⟩, hrouted⟩ := h host
  refine ⟨⟨_, agrees_step hagrees⟩, ?_⟩
  by_cases hother : hostOf H sample ≠ host ∨ sample.payload = none
  · rwa [tables_step_of_other hother]
  · obtain ⟨hhost, hpayload⟩ := not_or.mp hother
    obtain ⟨payload, hpayload⟩ := Option.ne_none_iff_exists'.mp hpayload
    obtain rfl := not_not.mp hhost
    rw [step, onSample, hpayload]
    dsimp only
    rw [tables_set_self]
    exact (tombstones_handle hagrees hrouted payload sample.now sample.goneAt).2.2

variable (H) in
/-- The uids that expire with a sample after a run. -/
def expiring (run : List Sample) (sample : Sample) : List String :=
  match sample.payload with
  | none => []
  | some payload =>
    expiredUids H (hostOf H sample) (knownAfter H (hostOf H sample) run) payload sample.now

/-- A sample puts one tombstone for each kind that expires, and none on a track. -/
theorem tombstones_onSample (run : List Sample) (sample : Sample) :
    ((tombstonesAfter H run sample).map Prod.snd).Perm (expiring H run sample) ∧
      ∀ tombstone ∈ tombstonesAfter H run sample,
        depth tombstone.1 = depth H.topicRoot + 5 := by
  rw [tombstonesAfter, onSample, expiring]
  cases sample.payload with
  | none => simp
  | some payload =>
    obtain ⟨hperm, hdepths, -⟩ := tombstones_handle (agrees_knownAfter (hostOf H sample) run)
      (routed_run run (hostOf H sample)) payload sample.now sample.goneAt
    exact ⟨hperm, hdepths⟩

/-- In every run the tombstones of a sample are those of the kinds that expire with it. -/
theorem expiring_tombstoned (H : Host) (run : List Sample) (sample : Sample) :
    ((tombstonesAfter H run sample).map Prod.snd).Perm (expiring H run sample) :=
  (tombstones_onSample run sample).1

/-! ## Withdrawn where they were drawn -/

variable (H) in
/-- The last put on a key is a track of a uid. -/
def Holds (puts : List Put) (key uid : String) : Prop :=
  ∃ before p after, puts = before ++ .track p :: after ∧ p.objectKey H = key ∧
    p.track.uid = uid ∧ ∀ put ∈ after, match put with
      | .site topic _ => ¬ OnKey key topic
      | .track p => p.objectKey H ≠ key
      | .tombstone topic _ _ => ¬ OnKey key topic

/-- The last track that was put under a uid. -/
def lastTrack (puts : List Put) (uid : String) : Option Publication :=
  ((puts.filterMap Put.publication?).filter (·.track.uid = uid)).getLast?

variable (H) in
/-- A sample withdraws what expires, where it was drawn. -/
structure Withdrawn (before : List Sample) (sample : Sample) : Prop where
  /-- A tombstone is put once for each kind that expires. -/
  once : ((tombstonesAfter H before sample).map Prod.snd).Perm (expiring H before sample)
  /-- It is put on the object key of the last track that was put under the uid. -/
  there : ∀ tombstone ∈ tombstonesAfter H before sample, ∀ p,
    lastTrack (puts H PyDict.empty (before ++ [sample])) tombstone.2 = some p →
      OnKey (p.objectKey H) tombstone.1
  /-- Then no key has a track of the uid. -/
  gone : ∀ tombstone ∈ tombstonesAfter H before sample, ∀ key,
    ¬ Holds H (puts H PyDict.empty (before ++ [sample])) key tombstone.2

theorem mem_publications_iff {puts : List Put} {uid : String} {p : Publication} :
    p ∈ (puts.filterMap Put.publication?).filter (·.track.uid = uid) ↔
      .track p ∈ puts ∧ p.track.uid = uid := by
  rw [mem_filter, mem_filterMap, decide_eq_true_iff]
  refine and_congr_left fun _ => ⟨?_, fun h => ⟨_, h, rfl⟩⟩
  rintro ⟨put, hput, heq⟩
  cases put <;> cases heq
  exact hput

/-- A run withdraws its drones where they were drawn exactly when no uid expires under which a track
was shown. -/
theorem tombstoned_iff (H : Host) (run : List Sample) :
    (∀ before sample after, run = before ++ sample :: after → Withdrawn H before sample) ↔
      ∀ before sample after, run = before ++ sample :: after →
        ∀ uid ∈ expiring H before sample, ∀ p, ShownBy H (before ++ [sample]) p →
          p.track.uid ≠ uid := by
  refine forall_congr' fun before => forall_congr' fun sample => forall_congr' fun after =>
    forall_congr' fun _ => ?_
  obtain ⟨hperm, hdepths⟩ := @tombstones_onSample H before sample
  constructor
  · rintro h uid huid p hp rfl
    obtain ⟨tombstone, hput, heq⟩ := mem_map.mp (hperm.mem_iff.mpr huid)
    have hmem := mem_publications_iff.mpr ⟨shownBy_iff.mpr hp, heq.symm⟩
    have hlast := getLast?_eq_some_getLast (ne_nil_of_mem hmem)
    obtain ⟨hlastPut, -⟩ := mem_publications_iff.mp (getLast_mem (ne_nil_of_mem hmem))
    obtain ⟨_, _, _, _, _, _, _, _, track, _, _, _, htrack⟩ := shownBy_iff.mp hlastPut
    exact not_onKey_of_depth (congrArg Publication.topic htrack) (hdepths _ hput)
      (h.there _ hput _ hlast)
  · intro h
    have hunseen : ∀ tombstone ∈ tombstonesAfter H before sample, ∀ p,
        .track p ∈ puts H PyDict.empty (before ++ [sample]) → p.track.uid ≠ tombstone.2 :=
      fun tombstone hput p hp =>
        h tombstone.2 (hperm.mem_iff.mp (mem_map_of_mem hput)) p (shownBy_iff.mp hp)
    refine ⟨hperm, fun tombstone hput p hlast => ?_, fun tombstone hput key hholds => ?_⟩
    · obtain ⟨hp, huid⟩ := mem_publications_iff.mp (mem_of_getLast? hlast)
      exact absurd huid (hunseen tombstone hput p hp)
    · obtain ⟨front, p, rest, hputs, -, huid, -⟩ := hholds
      exact hunseen tombstone hput p (by simp [hputs]) huid

/-- A sample of the host `north`. -/
def northSample (startTime : ℚ) (trackings : List Tracking) : Sample where
  keyExpr := "efdi/raw/aartos/north"
  payload := some ⟨some startTime, trackings, []⟩
  now := startTime
  goneAt := fun _ => startTime

/-- A drone is seen, and a sample 5 s later is without it: the tombstone is put two segments above
the track. -/
theorem gone_drone_is_left :
    ¬ ∀ before sample after, [northSample 100 [droneTracking 1], northSample 105 []] =
      before ++ sample :: after → Withdrawn plainHost before sample := by
  intro h
  have hlast : (lastTrack (puts plainHost PyDict.empty ([northSample 100 [droneTracking 1]] ++
      [northSample 105 []])) "aartos-north-1").map (Publication.objectKey plainHost) =
        some "efdi/air/aartos/passive_rf/unknown/uav/unknown/aartos-north-1" := by decide +kernel
  have hput : tombstonesAfter plainHost [northSample 100 [droneTracking 1]] (northSample 105 []) =
      [("efdi/air/aartos/passive_rf/unknown/uav", "aartos-north-1")] := by decide +kernel
  obtain ⟨p, hlast, hkey⟩ := Option.map_eq_some_iff.mp hlast
  have hon := (h [_] _ [] rfl).there _ (by rw [hput]; exact mem_singleton_self _) p hlast
  rw [hkey] at hon
  exact absurd hon.depth_le (by decide +kernel)

end Efdi.Aartos
