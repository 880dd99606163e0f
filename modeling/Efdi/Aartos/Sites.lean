import Efdi.Aartos.Drones

/-!
# Identities of antennas

`_stable_site_uid` knows a site by its place: a report near a remembered site is of that site, and
moves it.  A report near none founds a site, which is named after the host and the id of the
antenna at that time.

A place that nothing else of the host is near keeps its uid (`known_run`).  But the vendor gives
its ids again, and two founding reports with one name give two sites one uid
(`sites_keep_identity_iff`).
-/

namespace Efdi.Aartos

open Tracks (pyStr)
open Runs List Function

variable (H : Host)

/-! ## One report -/

/-- The distance test of `_stable_site_uid`. -/
def near (p q : ℚ × ℚ) : Bool := decide (H.distanceM p q < siteIdentityRadiusM)

/-- The name of a site that an antenna founds. -/
def siteName (host : String) (antennaID : PyJson) : String :=
  "aartos-" ++ keySegment H host ++ "-" ++ keySegment H (pyStr H.py antennaID)

/-- The uid of the first identity near a place. -/
def known (place : ℚ × ℚ) (identities : List SiteIdentity) : Option String :=
  (identities.find? fun ident => near H place ident.position).map SiteIdentity.uid

section

variable {H} {host : String} {antennaID : PyJson} {position place : ℚ × ℚ} {ident : SiteIdentity}
  {identities : List SiteIdentity}

theorem stableSiteUid_cons_of_near (h : near H position ident.position = true) :
    stableSiteUid H host antennaID position (ident :: identities) =
      (ident.uid, { ident with position := position } :: identities) := by
  rw [stableSiteUid, if_pos (of_decide_eq_true h)]

theorem stableSiteUid_cons_of_far (h : near H position ident.position = false) :
    stableSiteUid H host antennaID position (ident :: identities) =
      ((stableSiteUid H host antennaID position identities).1,
        ident :: (stableSiteUid H host antennaID position identities).2) := by
  rw [stableSiteUid, if_neg (of_decide_eq_false h)]

theorem known_cons_of_near (h : near H place ident.position = true) :
    known H place (ident :: identities) = some ident.uid := by
  simp [known, h]

theorem known_cons_of_far (h : near H place ident.position = false) :
    known H place (ident :: identities) = known H place identities := by
  simp [known, h]

/-- A report gets the uid of the site that it is near, or founds one. -/
theorem uid_stableSiteUid (identities : List SiteIdentity) :
    (stableSiteUid H host antennaID position identities).1 =
        (known H position identities).getD (siteName H host antennaID) ∧
      (stableSiteUid H host antennaID position identities).2.map SiteIdentity.uid =
        identities.map SiteIdentity.uid ++
          if known H position identities = none then [siteName H host antennaID] else [] := by
  induction identities with
  | nil => exact ⟨rfl, rfl⟩
  | cons ident identities ih =>
    cases hnear : near H position ident.position with
    | true =>
      rw [stableSiteUid_cons_of_near hnear, known_cons_of_near hnear]
      simp
    | false =>
      rw [stableSiteUid_cons_of_far hnear, known_cons_of_far hnear, map_cons, ih.2]
      exact ⟨ih.1, rfl⟩

theorem forall_position_stableSiteUid {P : ℚ × ℚ → Prop} (hposition : P position)
    (h : ∀ ident ∈ identities, P ident.position) :
    ∀ ident ∈ (stableSiteUid H host antennaID position identities).2, P ident.position := by
  induction identities with
  | nil => exact forall_mem_singleton.mpr hposition
  | cons ident identities ih =>
    obtain ⟨hhead, hrest⟩ := forall_mem_cons.mp h
    cases hnear : near H position ident.position with
    | true =>
      rw [stableSiteUid_cons_of_near hnear]
      exact forall_mem_cons.mpr ⟨hposition, hrest⟩
    | false =>
      rw [stableSiteUid_cons_of_far hnear]
      exact forall_mem_cons.mpr ⟨hhead, ih hrest⟩

variable (H) in
/-- Other positions are not near the place. -/
def Apart (place position : ℚ × ℚ) : Prop := position = place ∨ near H place position = false

/-- A report from the place is remembered there. -/
theorem known_stableSiteUid_self (hself : near H place place = true)
    (hapart : ∀ ident ∈ identities, Apart H place ident.position) :
    known H place (stableSiteUid H host antennaID place identities).2 =
      some (stableSiteUid H host antennaID place identities).1 := by
  induction identities with
  | nil => exact known_cons_of_near hself
  | cons ident identities ih =>
    cases hnear : near H place ident.position with
    | true =>
      rw [stableSiteUid_cons_of_near hnear]
      exact known_cons_of_near hself
    | false =>
      rw [stableSiteUid_cons_of_far hnear, known_cons_of_far hnear]
      exact ih (forall_mem_cons.mp hapart).2

/-- A report from elsewhere leaves the place alone. -/
theorem known_stableSiteUid_of_far (hfar : near H place position = false)
    (hback : near H position place = false)
    (hapart : ∀ ident ∈ identities, Apart H place ident.position) :
    known H place (stableSiteUid H host antennaID position identities).2 =
      known H place identities := by
  induction identities with
  | nil => exact known_cons_of_far hfar
  | cons ident identities ih =>
    obtain ⟨hhead, hrest⟩ := forall_mem_cons.mp hapart
    cases hnear : near H position ident.position with
    | true =>
      have hplace : near H place ident.position = false := by
        rcases hhead with heq | hplace
        · rw [heq, hback] at hnear
          cases hnear
        · exact hplace
      rw [stableSiteUid_cons_of_near hnear, known_cons_of_far hplace]
      exact known_cons_of_far hfar
    | false =>
      rw [stableSiteUid_cons_of_far hnear]
      cases hplace : near H place ident.position with
      | true => rw [known_cons_of_near hplace, known_cons_of_near hplace]
      | false => rw [known_cons_of_far hplace, known_cons_of_far hplace, ih hrest]

end

/-! ## Runs of reports -/

/-- A report of an antenna that makes a site. -/
structure Report where
  host : String
  antennaID : PyJson
  position : ℚ × ℚ
deriving DecidableEq

/-- `_site_identity`. -/
abbrev Sites := String → List SiteIdentity

/-- The name of the site that a report founds if it founds one. -/
def Report.name (report : Report) : String := siteName H report.host report.antennaID

/-- The uid that a report gets. -/
def Report.uid (sites : Sites) (report : Report) : String :=
  (stableSiteUid H report.host report.antennaID report.position (sites report.host)).1

def reportStep (sites : Sites) (report : Report) : Sites :=
  Function.update sites report.host
    (stableSiteUid H report.host report.antennaID report.position (sites report.host)).2

/-- The reports of a run that found a site: no site of their host is near. -/
def foundings : Sites → List Report → List Report
  | _, [] => []
  | sites, report :: reports =>
    (if known H report.position (sites report.host) = none then [report] else []) ++
      foundings (reportStep H sites report) reports

/-- The identities of all hosts after a run. -/
def sitesAfter (reports : List Report) : Sites := final (reportStep H) (fun _ => []) reports

/-- The reports of the antennas of a sample. -/
def reportsOf (sample : Sample) : List Report :=
  match sample.payload with
  | none => []
  | some payload => payload.antennas.filterMap fun antenna =>
    (antennaToSite H antenna (refTs payload sample.now)).map fun site =>
      ⟨hostOf H sample, antenna.antennaID, (site.latDeg, site.lonDeg)⟩

section

variable {H} {sites : Sites}

theorem siteIdentity_foldl_survey {host : String} {refTs : ℚ} (antennas : List Antenna)
    (state : Survey) (hstate : sites host = state.siteIdentity) :
    (antennas.foldl (survey H host refTs) state).siteIdentity =
      final (reportStep H) sites (antennas.filterMap fun antenna =>
        (antennaToSite H antenna refTs).map fun site =>
          ⟨host, antenna.antennaID, (site.latDeg, site.lonDeg)⟩) host := by
  induction antennas generalizing sites state with
  | nil => exact hstate.symm
  | cons antenna antennas ih =>
    rw [foldl_cons, survey]
    cases hsite : antennaToSite H antenna refTs with
    | none =>
      rw [filterMap_cons_none (by rw [hsite]; rfl)]
      exact ih state hstate
    | some site =>
      rw [filterMap_cons_some (by rw [hsite]; rfl), final_cons]
      refine ih _ ?_
      rw [reportStep, update_self, hstate]

theorem final_of_other {host : String} {reports : List Report}
    (h : ∀ report ∈ reports, report.host ≠ host) :
    final (reportStep H) sites reports host = sites host := by
  induction reports generalizing sites with
  | nil => rfl
  | cons report reports ih =>
    obtain ⟨hhead, hrest⟩ := forall_mem_cons.mp h
    rw [final_cons, ih hrest, reportStep, update_of_ne hhead.symm]

/-- The identities that a run of samples leaves are those that its reports leave. -/
theorem siteIdentity_run (host : String) (run : List Sample) :
    ((final (step H) PyDict.empty run).tables host).siteIdentity =
      sitesAfter H (run.flatMap (reportsOf H)) host := by
  have hstart : ∀ (translator : Translator) (sites : Sites),
      (∀ host, (translator.tables host).siteIdentity = sites host) →
        ((final (step H) translator run).tables host).siteIdentity =
          final (reportStep H) sites (run.flatMap (reportsOf H)) host := by
    induction run with
    | nil => exact fun translator sites h => h host
    | cons sample run ih =>
      intro translator sites h
      rw [flatMap_cons, final_append]
      refine ih (step H translator sample) _ fun other => ?_
      cases hpayload : sample.payload with
      | none =>
        rw [tables_step_of_other (Or.inr hpayload), h, reportsOf, hpayload]
        rfl
      | some payload =>
        by_cases hhost : hostOf H sample = other
        · subst hhost
          rw [step, onSample, hpayload, reportsOf, hpayload]
          dsimp only
          rw [tables_set_self]
          exact siteIdentity_foldl_survey _ _ (h _).symm
        · rw [tables_step_of_other (Or.inl hhost), h, final_of_other]
          intro report hreport
          rw [reportsOf, hpayload] at hreport
          obtain ⟨antenna, -, hreport⟩ := mem_filterMap.mp hreport
          obtain ⟨site, -, rfl⟩ := Option.map_eq_some_iff.mp hreport
          exact hhost
  exact hstart PyDict.empty (fun _ => []) fun _ => rfl

/-- The uids of a host are those that it had and the names of the sites that were founded. -/
theorem uids_final (host : String) (reports : List Report) :
    (final (reportStep H) sites reports host).map SiteIdentity.uid =
      (sites host).map SiteIdentity.uid ++
        ((foundings H sites reports).filter fun report => report.host = host).map
          (Report.name H) := by
  induction reports generalizing sites with
  | nil => simp [foundings]
  | cons report reports ih =>
    rw [final_cons, ih, foundings, filter_append, map_append, ← append_assoc]
    congr 1
    rw [reportStep]
    by_cases hhost : host = report.host
    · subst hhost
      rw [update_self, (uid_stableSiteUid _).2]
      split
      next => simp [Report.name]
      next => simp
    · rw [update_of_ne hhost]
      split
      next => simp [Ne.symm hhost]
      next => simp

/-! ## A place of its own -/

/-- The uid of a place that is apart from all reports of its host. -/
theorem known_run {host : String} {place : ℚ × ℚ} (hself : near H place place = true)
    (hsymm : ∀ p q, near H p q = near H q p) {reports : List Report}
    (hreports : ∀ report ∈ reports, report.host = host → Apart H place report.position)
    (hsites : ∀ ident ∈ sites host, Apart H place ident.position) :
    (∀ ident ∈ final (reportStep H) sites reports host, Apart H place ident.position) ∧
      ∀ uid, known H place (sites host) = some uid →
        known H place (final (reportStep H) sites reports host) = some uid := by
  induction reports generalizing sites with
  | nil => exact ⟨hsites, fun _ h => h⟩
  | cons report reports ih =>
    obtain ⟨hhead, hrest⟩ := forall_mem_cons.mp hreports
    rw [final_cons]
    by_cases hhost : report.host = host
    · subst hhost
      have hapart := hhead rfl
      have hstep : reportStep H sites report report.host = (stableSiteUid H report.host
          report.antennaID report.position (sites report.host)).2 := update_self ..
      have hnext : ∀ ident ∈ reportStep H sites report report.host,
          Apart H place ident.position :=
        hstep ▸ forall_position_stableSiteUid hapart hsites
      obtain ⟨hlast, hkept⟩ := ih hrest hnext
      refine ⟨hlast, fun uid huid => hkept uid ?_⟩
      rw [hstep]
      rcases hapart with heq | hfar
      · rw [heq, known_stableSiteUid_self hself hsites, (uid_stableSiteUid _).1, huid,
          Option.getD_some]
      · rw [known_stableSiteUid_of_far hfar ((hsymm _ _).trans hfar) hsites, huid]
    · have hstep : reportStep H sites report host = sites host :=
        update_of_ne (Ne.symm hhost) ..
      rw [← hstep] at hsites ⊢
      exact ih hrest hsites

end

/-! ## The identities of a run -/

/-- The identities of all hosts have different uids. -/
def UidsDiffer (sites : Sites) : Prop :=
  (∀ host, ((sites host).map SiteIdentity.uid).Nodup) ∧
    ∀ host host', host ≠ host' → ∀ uid ∈ (sites host).map SiteIdentity.uid,
      uid ∉ (sites host').map SiteIdentity.uid

theorem uidsDiffer_iff {sites : Sites} {founded : List Report}
    (h : ∀ host, (sites host).map SiteIdentity.uid =
      (founded.filter fun report => report.host = host).map (Report.name H)) :
    UidsDiffer sites ↔ (founded.map (Report.name H)).Nodup := by
  simp only [UidsDiffer, h]
  constructor
  · rintro ⟨hown, hother⟩
    clear h
    induction founded with
    | nil => exact nodup_nil
    | cons report founded ih =>
      rw [map_cons, nodup_cons]
      constructor
      · intro hmem
        obtain ⟨twin, htwin, hname⟩ := mem_map.mp hmem
        by_cases hhost : twin.host = report.host
        · have hnodup := hown report.host
          rw [filter_cons_of_pos (by simp), map_cons, nodup_cons] at hnodup
          exact hnodup.1 (hname ▸ mem_map_of_mem (by simp [htwin, hhost]))
        · refine hother twin.host report.host hhost _ (mem_map_of_mem (a := twin) ?_) ?_
          · simp [htwin]
          · rw [hname]
            exact mem_map_of_mem (by simp)
      · have hsub : ∀ host, ((founded.filter fun r => r.host = host).map (Report.name H)).Sublist
            (((report :: founded).filter fun r => r.host = host).map (Report.name H)) :=
          fun host => ((sublist_cons_self _ _).filter _).map _
        exact ih (fun host => (hsub host).nodup (hown host)) fun host host' hne uid huid huid' =>
          hother host host' hne uid ((hsub host).subset huid) ((hsub host').subset huid')
  · intro hnodup
    constructor
    · exact fun host => (List.Sublist.map _ filter_sublist).nodup hnodup
    · intro host host' hne uid huid huid'
      obtain ⟨report, hreport, rfl⟩ := mem_map.mp huid
      obtain ⟨twin, htwin, hname⟩ := mem_map.mp huid'
      obtain ⟨hreport, hhost⟩ := mem_filter.mp hreport
      obtain ⟨htwin, hhost'⟩ := mem_filter.mp htwin
      have hsame := inj_on_of_nodup_map hnodup htwin hreport hname
      rw [hsame] at hhost'
      exact hne ((of_decide_eq_true hhost).symm.trans (of_decide_eq_true hhost'))

/-- Antenna sites keep their identity. -/
structure SitesKeepIdentity (reports : List Report) : Prop where
  differ : UidsDiffer (sitesAfter H reports)
  /-- An antenna that never moves, and has no other antenna of its host near, always gets the same
  uid. -/
  steady : ∀ host place,
    (∀ report ∈ reports, report.host = host → Apart H place report.position) →
      ∀ before report after before' report' after', reports = before ++ report :: after →
        reports = before' ++ report' :: after' → report.host = host → report'.host = host →
          report.position = place → report'.position = place →
            report.uid H (sitesAfter H before) = report'.uid H (sitesAfter H before')

/-- With a distance test that is symmetric and that a place passes with itself, antenna sites keep
their identity exactly when no two reports that found a site have one name. -/
theorem sites_keep_identity_iff (hsymm : ∀ p q, near H p q = near H q p)
    (hself : ∀ p, near H p p = true) (reports : List Report) :
    SitesKeepIdentity H reports ↔
      ((foundings H (fun _ => []) reports).map (Report.name H)).Nodup := by
  have huids : UidsDiffer (sitesAfter H reports) ↔ _ :=
    uidsDiffer_iff H fun host => uids_final host reports
  refine ⟨fun h => huids.mp h.differ, fun h => ⟨huids.mpr h, ?_⟩⟩
  intro host place hapart
  -- each uid that the place gets is the one it has at the end of the run
  have hlast : ∀ before report after, reports = before ++ report :: after → report.host = host →
      report.position = place →
        known H place (sitesAfter H reports host) = some (report.uid H (sitesAfter H before)) := by
    rintro before report after rfl rfl rfl
    obtain ⟨hsites, -⟩ := @known_run H (fun _ => []) _ _ (hself _) hsymm _
      (fun r hr => hapart r (List.mem_append_left _ hr)) fun ident hident => by cases hident
    rw [sitesAfter, final_append, final_cons]
    have hstep : reportStep H (sitesAfter H before) report report.host = (stableSiteUid H
        report.host report.antennaID report.position (sitesAfter H before report.host)).2 :=
      Function.update_self ..
    refine (known_run (hself _) hsymm (fun r hr => hapart r
      (List.mem_append_right _ (.tail _ hr))) ?_).2 _ ?_
    · intro ident hident
      exact forall_position_stableSiteUid (Or.inl rfl) hsites ident (hstep ▸ hident)
    · exact (congrArg _ hstep).trans (known_stableSiteUid_self (hself _) hsites)
  intro before report after before' report' after' hreports hreports' hhost hhost' hplace hplace'
  exact Option.some.inj ((hlast before report after hreports hhost hplace).symm.trans
    (hlast before' report' after' hreports' hhost' hplace'))

/-- The host `north` gives the id 1 to two antennas, one after the other. -/
def idGivenAgain : List Report := [⟨"north", .int 1, (54, 25)⟩, ⟨"north", .int 1, (55, 26)⟩]

theorem plainHost_symm (p q : ℚ × ℚ) : near plainHost p q = near plainHost q p := by
  have hdistance : plainHost.distanceM p q = plainHost.distanceM q p := by
    show (if p = q then (0 : ℚ) else 1000000) = if q = p then 0 else 1000000
    by_cases h : p = q
    · rw [if_pos h, if_pos h.symm]
    · rw [if_neg h, if_neg (Ne.symm h)]
  exact decide_eq_decide.mpr (by rw [hdistance])

theorem plainHost_self (p : ℚ × ℚ) : near plainHost p p = true := by
  have hdistance : plainHost.distanceM p p = 0 := if_pos rfl
  rw [near, decide_eq_true_iff, hdistance]
  decide

theorem sites_keep_identity_iff_idGivenAgain :
    SitesKeepIdentity plainHost idGivenAgain ↔
      ((foundings plainHost (fun _ => []) idGivenAgain).map (Report.name plainHost)).Nodup :=
  sites_keep_identity_iff plainHost plainHost_symm plainHost_self idGivenAgain

theorem two_sites_one_uid :
    (sitesAfter plainHost idGivenAgain "north").map SiteIdentity.uid =
        ["aartos-north-1", "aartos-north-1"] ∧
      ¬ SitesKeepIdentity plainHost idGivenAgain := by
  have huids : (sitesAfter plainHost idGivenAgain "north").map SiteIdentity.uid =
      ["aartos-north-1", "aartos-north-1"] := by
    decide +kernel
  refine ⟨huids, fun h => ?_⟩
  have hnodup := h.differ.1 "north"
  rw [huids] at hnodup
  simp at hnodup

end Efdi.Aartos
