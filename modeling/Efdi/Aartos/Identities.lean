import Efdi.Aartos.Translator
import Efdi.Base.Grace

/-!
# Identities of AARTOS drones

The translator knows one drone of each kind.  What it knows of a kind is what a round of reports
makes known of a key with a grace period: the kind is the key, the text of the `trackID` the tag,
and the uid is made from the founding tag (`agrees_run`).  So a drone keeps its uid while its kind
is not absent for `_CLASS_GONE_GRACE_S`, whatever its `trackID` becomes.

Two drones of one sample get different uids exactly when their kinds have different founders.  Two
drones of one kind have the same founder, and get one uid (`distinguished_iff`).
-/

namespace Efdi.Aartos

open Tracks (PyText pyStr)
open Runs
open Option hiding or_assoc

variable {H : Host}

/-! ## Reports -/

variable (H) in
/-- The kind of a tracking that counts, with the text of its id. -/
def report (refTs : ℚ) (tracking : Tracking) : Option (EntityKind × String) :=
  (admitted H refTs tracking).map fun track => (track.entityKind, pyStr H.py tracking.trackID)

variable (H) in
/-- The trackings of a payload as a round of reports. -/
def roundOf (payload : Payload) (now : ℚ) : Grace.Round EntityKind String ℚ where
  now := refTs payload now
  reports := payload.trackings.filterMap (report H (refTs payload now))

/-- The uid of an identity, and when its kind was last seen. -/
def Identity.view (ident : Identity) : String × ℚ := (ident.uid, ident.lastSeen)

/-- The uid that a founder gives, and when its kind was last seen. -/
def founderView (host : String) (founder : Grace.Founder String ℚ) : String × ℚ :=
  (newUid host founder.tag, founder.lastSeen)

/-- The identities of a host are those of the founders of their kinds. -/
def Agrees (host : String) (classIdentity : PyDict EntityKind Identity)
    (known : Grace.Known EntityKind String ℚ) : Prop :=
  ∀ kind, (classIdentity.get? kind).map Identity.view = (known kind).map (founderView host)

theorem newUid_inj {host tid tid' : String} (h : newUid host tid = newUid host tid') :
    tid = tid' := by
  rw [newUid, newUid, ← String.toList_inj] at h
  rw [← String.toList_inj]
  simpa [String.toList_append] using h

theorem Agrees.uid {host : String} {classIdentity : PyDict EntityKind Identity}
    {known : Grace.Known EntityKind String ℚ} (h : Agrees host classIdentity known)
    (kind : EntityKind) : (classIdentity.get? kind).map Identity.uid =
      ((known kind).map Grace.Founder.tag).map (newUid host) := by
  have hkind := congrArg (Option.map Prod.fst) (h kind)
  rw [Option.map_map, Option.map_map] at hkind
  rw [Option.map_map]
  exact hkind

/-! ## One tracking -/

section

variable {host : String} {refTs : ℚ} {positions : List (ℚ × ℚ)} {pass : Pass} {tracking : Tracking}
  {track : Track}

theorem touch_uid (tid : String) (ident : Option Identity) :
    (touch host tid refTs ident).uid = (ident.map Identity.uid).getD (newUid host tid) := by
  cases ident with
  | none => rfl
  | some ident => rfl

theorem touch_lastSeen (tid : String) (ident : Option Identity) :
    (touch host tid refTs ident).lastSeen = refTs := by
  cases ident with
  | none => rfl
  | some ident => rfl

theorem follow_of_none (h : admitted H refTs tracking = none) :
    follow H host refTs positions pass tracking = pass := by
  rw [follow, h]

theorem classIdentity_follow (h : admitted H refTs tracking = some track) :
    (follow H host refTs positions pass tracking).classIdentity =
      pass.classIdentity.set track.entityKind (touch host (pyStr H.py tracking.trackID) refTs
        (pass.classIdentity.get? track.entityKind)) := by
  rw [follow, h]
  dsimp only
  split <;> rfl

theorem nowClasses_follow (h : admitted H refTs tracking = some track) :
    (follow H host refTs positions pass tracking).nowClasses =
      track.entityKind :: pass.nowClasses := by
  rw [follow, h]
  dsimp only
  split <;> rfl

/-- What a tracking publishes: its track under the uid of its kind. -/
theorem mem_published_follow (h : admitted H refTs tracking = some track) {p : Publication} :
    p ∈ (follow H host refTs positions pass tracking).published ↔
      p ∈ pass.published ∨ fallback H positions track = false ∧
        p = ⟨tracking, topicForTrack H track,
          { track with uid := (touch host (pyStr H.py tracking.trackID) refTs
            (pass.classIdentity.get? track.entityKind)).uid }⟩ := by
  rw [follow, h]
  dsimp only
  cases hfallback : fallback H positions track with
  | true => simp
  | false => simp

theorem report_of_some (h : admitted H refTs tracking = some track) :
    report H refTs tracking = some (track.entityKind, pyStr H.py tracking.trackID) := by
  rw [report, h, map_some]

theorem report_of_none (h : admitted H refTs tracking = none) : report H refTs tracking = none := by
  rw [report, h, map_none]

/-! ## The trackings of a sample -/

/-- The identity of a kind after the trackings: that of its first tracking, or the one before. -/
theorem view_foldl_follow (kind : EntityKind) (trackings : List Tracking) (pass : Pass) :
    ((trackings.foldl (follow H host refTs positions) pass).classIdentity.get? kind).map
        Identity.view =
      match (trackings.filterMap (report H refTs)).lookup kind with
      | some tid =>
        some (((pass.classIdentity.get? kind).map Identity.uid).getD (newUid host tid), refTs)
      | none => (pass.classIdentity.get? kind).map Identity.view := by
  induction trackings generalizing pass with
  | nil => rfl
  | cons tracking trackings ih =>
    rw [List.foldl_cons, ih]
    cases hadmitted : admitted H refTs tracking with
    | none => rw [follow_of_none hadmitted, List.filterMap_cons_none (report_of_none hadmitted)]
    | some track =>
      rw [List.filterMap_cons_some (report_of_some hadmitted), List.lookup_cons,
        classIdentity_follow hadmitted]
      by_cases hkind : kind = track.entityKind
      · subst hkind
        rw [PyDict.get?_set_self, beq_self_eq_true, map_some, map_some, touch_uid,
          Identity.view, touch_uid, touch_lastSeen]
        cases (trackings.filterMap (report H refTs)).lookup track.entityKind with
        | none => rfl
        | some tid => rfl
      · rw [PyDict.get?_set_of_ne _ hkind, beq_false_of_ne hkind]

theorem mem_nowClasses_foldl_follow (kind : EntityKind) (trackings : List Tracking) (pass : Pass) :
    kind ∈ (trackings.foldl (follow H host refTs positions) pass).nowClasses ↔
      kind ∈ pass.nowClasses ∨
        ((trackings.filterMap (report H refTs)).lookup kind).isSome = true := by
  induction trackings generalizing pass with
  | nil => simp
  | cons tracking trackings ih =>
    rw [List.foldl_cons, ih]
    cases hadmitted : admitted H refTs tracking with
    | none => rw [follow_of_none hadmitted, List.filterMap_cons_none (report_of_none hadmitted)]
    | some track =>
      rw [List.filterMap_cons_some (report_of_some hadmitted), List.lookup_cons,
        nowClasses_follow hadmitted, List.mem_cons]
      by_cases hkind : kind = track.entityKind
      · simp [hkind]
      · simp [hkind, beq_false_of_ne hkind]

/-- An identity keeps its uid to the end of the sample. -/
theorem uid_foldl_follow {kind : EntityKind} {ident : Identity} {pass : Pass}
    (h : pass.classIdentity.get? kind = some ident) (trackings : List Tracking) :
    ((trackings.foldl (follow H host refTs positions) pass).classIdentity.get? kind).map
      Identity.uid = some ident.uid := by
  have hview := congrArg (Option.map Prod.fst)
    (@view_foldl_follow H host refTs positions kind trackings pass)
  rw [Option.map_map] at hview
  refine hview.trans ?_
  rw [h]
  cases (trackings.filterMap (report H refTs)).lookup kind with
  | none => rfl
  | some tid => rfl

variable (H) in
/-- The track of a tracking that counts and is not on top of an antenna. -/
def shown (refTs : ℚ) (positions : List (ℚ × ℚ)) (tracking : Tracking) : Option Track :=
  (admitted H refTs tracking).filter fun track => !fallback H positions track

/-- The publications of a sample: every track that is shown, under the uid of its kind at the end of
the sample. -/
theorem mem_published_foldl_follow {p : Publication} (trackings : List Tracking) (pass : Pass) :
    p ∈ (trackings.foldl (follow H host refTs positions) pass).published ↔
      p ∈ pass.published ∨ ∃ tracking ∈ trackings, ∃ track uid,
        shown H refTs positions tracking = some track ∧
        ((trackings.foldl (follow H host refTs positions) pass).classIdentity.get?
          track.entityKind).map Identity.uid = some uid ∧
        p = ⟨tracking, topicForTrack H track, { track with uid := uid }⟩ := by
  induction trackings generalizing pass with
  | nil => simp
  | cons tracking trackings ih =>
    rw [List.foldl_cons, ih]
    cases hadmitted : admitted H refTs tracking with
    | none =>
      rw [follow_of_none hadmitted]
      have hshown : shown H refTs positions tracking = none := by rw [shown, hadmitted]; rfl
      simp [hshown]
    | some track =>
      have hset : (follow H host refTs positions pass tracking).classIdentity.get?
          track.entityKind = some (touch host (pyStr H.py tracking.trackID) refTs
            (pass.classIdentity.get? track.entityKind)) := by
        rw [classIdentity_follow hadmitted, PyDict.get?_set_self]
      have huid := @uid_foldl_follow H host refTs positions _ _ _ hset trackings
      rw [mem_published_follow hadmitted, or_assoc]
      refine or_congr_right ?_
      rw [List.exists_mem_cons_iff]
      refine or_congr_left ?_
      cases hfallback : fallback H positions track with
      | true =>
        have hshown : shown H refTs positions tracking = none := by
          rw [shown, hadmitted]
          simp [hfallback]
        simp [hshown]
      | false =>
        have hshown : shown H refTs positions tracking = some track := by
          rw [shown, hadmitted]
          simp [hfallback]
        simp only [hshown, true_and, some.injEq]
        constructor
        · rintro rfl
          exact ⟨track, _, rfl, huid, rfl⟩
        · rintro ⟨track, uid, rfl, huid', rfl⟩
          rw [some.inj (huid'.symm.trans huid)]

end

/-! ## The end of a sample -/

section

variable {refTs : ℚ} {nowClasses : List EntityKind} {goneAt : EntityKind → ℚ}

/-- The identity is left when its kind is absent. -/
def Identity.fresh (refTs : ℚ) (ident : Identity) : Bool :=
  decide (refTs - ident.lastSeen < classGoneGraceS)

theorem get?_bury (state : Burial) (kind other : EntityKind) :
    (bury H refTs nowClasses goneAt state other).classIdentity.get? kind =
      if kind = other ∧ kind ∉ nowClasses then
        (state.classIdentity.get? kind).filter (Identity.fresh refTs)
      else state.classIdentity.get? kind := by
  rw [bury]
  by_cases hnow : other ∈ nowClasses
  · have hno : ¬ (kind = other ∧ kind ∉ nowClasses) := by
      rintro ⟨rfl, hnot⟩
      exact hnot hnow
    rw [if_pos hnow, if_neg hno]
  · rw [if_neg hnow]
    by_cases hkind : kind = other
    · subst hkind
      rw [if_pos ⟨rfl, hnow⟩]
      cases hident : state.classIdentity.get? kind with
      | none =>
        simp [hident]
      | some ident =>
        by_cases hfresh : refTs - ident.lastSeen < classGoneGraceS
        · simp [hfresh, hident, filter_some, Identity.fresh]
        · simp [hfresh, filter_some, Identity.fresh, PyDict.get?_pop_self]
    · rw [if_neg fun h => hkind h.1]
      cases state.classIdentity.get? other with
      | none => rfl
      | some ident =>
        dsimp only
        split
        · rfl
        · exact PyDict.get?_pop_of_ne _ hkind

theorem get?_foldl_bury (kind : EntityKind) (kinds : List EntityKind) (state : Burial) :
    (kinds.foldl (bury H refTs nowClasses goneAt) state).classIdentity.get? kind =
      if kind ∈ kinds ∧ kind ∉ nowClasses then
        (state.classIdentity.get? kind).filter (Identity.fresh refTs)
      else state.classIdentity.get? kind := by
  induction kinds generalizing state with
  | nil => simp
  | cons other kinds ih =>
    rw [List.foldl_cons, ih, get?_bury]
    by_cases hnow : kind ∈ nowClasses
    · simp [hnow]
    · by_cases hkind : kind = other
      · subst hkind
        simp [hnow]
      · simp [hnow, hkind]

/-- Of the kinds that are absent, those are left that were seen within the grace period. -/
theorem get?_burial (kind : EntityKind) (state : Burial) :
    ((state.classIdentity.entries.map Prod.fst).foldl (bury H refTs nowClasses goneAt)
        state).classIdentity.get? kind =
      if kind ∈ nowClasses then state.classIdentity.get? kind
      else (state.classIdentity.get? kind).filter (Identity.fresh refTs) := by
  rw [get?_foldl_bury]
  by_cases hnow : kind ∈ nowClasses
  · simp [hnow]
  · by_cases hmem : kind ∈ state.classIdentity.entries.map Prod.fst
    · rw [if_pos ⟨hmem, hnow⟩, if_neg hnow]
    · rw [if_neg fun h => hmem h.1, if_neg hnow]
      rw [← PyDict.contains_iff, PyDict.contains, not_isSome_iff_eq_none] at hmem
      rw [hmem]
      rfl

end

theorem filter_view {host : String} {ident : Option Identity}
    {founder : Option (Grace.Founder String ℚ)}
    (h : ident.map Identity.view = founder.map (founderView host)) (p : ℚ → Bool) :
    (ident.filter fun ident => p ident.lastSeen).map Identity.view =
      (founder.filter fun founder => p founder.lastSeen).map (founderView host) := by
  cases ident with
  | none =>
    cases founder with
    | none => rfl
    | some founder => cases h
  | some ident =>
    cases founder with
    | none => cases h
    | some founder =>
      have hseen : ident.lastSeen = founder.lastSeen := congrArg Prod.snd (some.inj h)
      rw [filter_some, filter_some, hseen]
      split
      · exact h
      · rfl

/-- A sample makes known what its round of reports does. -/
theorem agrees_handle {host : String} {tables : Tables}
    {known : Grace.Known EntityKind String ℚ} (h : Agrees host tables.classIdentity known)
    (payload : Payload) (now : ℚ) (goneAt : EntityKind → ℚ) :
    Agrees host (handle H host tables payload now goneAt).1.classIdentity
      (Grace.step classGoneGraceS known (roundOf H payload now)) := by
  intro kind
  show (PyDict.get? (List.foldl _ _ _ : Burial).classIdentity kind).map Identity.view = _
  rw [get?_burial]
  have hview := @view_foldl_follow H host (refTs payload now)
    (surveyAll H host (refTs payload now) tables payload).positions kind payload.trackings
    ⟨tables.classIdentity, tables.lastTopic, [], []⟩
  have hnow := @mem_nowClasses_foldl_follow H host (refTs payload now)
    (surveyAll H host (refTs payload now) tables payload).positions kind payload.trackings
    ⟨tables.classIdentity, tables.lastTopic, [], []⟩
  cases hfirst : (roundOf H payload now).first kind with
  | some tid =>
    have hlookup : (payload.trackings.filterMap (report H (refTs payload now))).lookup kind =
      some tid := hfirst
    rw [hlookup] at hview hnow
    rw [Grace.step_of_first hfirst, passOver, if_pos (hnow.mpr (Or.inr rfl)), hview, h.uid]
    cases known kind with
    | none => rfl
    | some founder => rfl
  | none =>
    have hlookup : (payload.trackings.filterMap (report H (refTs payload now))).lookup kind =
      none := hfirst
    rw [hlookup] at hview hnow
    have hout : kind ∉ (passOver H host (refTs payload now)
        (surveyAll H host (refTs payload now) tables payload).positions tables
        payload.trackings).nowClasses := by
      intro hmem
      rcases hnow.mp hmem with hmem | hmem
      · cases hmem
      · cases hmem
    rw [Grace.step_of_absent hfirst, if_neg hout]
    exact filter_view (hview.trans (h kind)) fun seen =>
      decide (refTs payload now - seen < classGoneGraceS)

end Efdi.Aartos
