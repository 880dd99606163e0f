import Efdi.Base.Runs
import Efdi.Config.Activate
import Efdi.Config.RoundTrip

/-!
# All or nothing

When a call of `applyRenderedConfig` leaves the candidate as the active config or the
active config as it was.

The previous values are read through the same functions as everywhere, which turn line
ends into newlines, strip blanks and slashes and fall back to other values.  So what is
written back is what was read and not what the files were, and a data prefix that is
taken from a namespace prefix with a slash at its end loses the slash.
`Activatable` is the exact condition on a call (`allOrNothing_iff`), and along a run of
calls that meet it the active config is that of the last candidate applied.
-/

namespace Efdi

open Runs List PyStr String

/-! ## What is written and what is read -/

/-- A line that is written and read. -/
def readLine (value : String) : String := PyStr.strip (PyStr.newlines (value ++ "\n"))

variable {value s : String}

theorem readLine_of_notMem (h : '\r' ∉ value.toList) :
    readLine value = PyStr.strip value := by
  have hline : '\r' ∉ (value ++ "\n").toList := by
    rw [toList_append, mem_append, not_or]
    exact ⟨h, by decide⟩
  rw [readLine, newlines_of_notMem hline, strip_append_newline]

theorem return_notMem_readLine (value : String) : '\r' ∉ (readLine value).toList :=
  fun h => return_notMem_newlines _ (mem_of_mem_strip h)

/-- A line is read as it was written when it has no blanks at its ends and no `\r`. -/
theorem readLine_eq_self_iff :
    readLine value = value ↔ '\r' ∉ value.toList ∧ PyStr.strip value = value := by
  constructor
  · intro h
    have hreturn : '\r' ∉ value.toList := h ▸ return_notMem_readLine value
    exact ⟨hreturn, (readLine_of_notMem hreturn).symm.trans h⟩
  · rintro ⟨hreturn, hstrip⟩
    rw [readLine_of_notMem hreturn, hstrip]

/-- A line is read as the empty text when it is blank. -/
theorem readLine_eq_empty_iff : readLine value = "" ↔ PyStr.strip value = "" := by
  rw [readLine, strip_eq_empty, strip_eq_empty, newlines, toList_ofList,
    toList_append]
  have hline : isSpace '\n' = true := by decide
  have hreturn : isSpace '\r' = true := by decide
  constructor
  · intro h c hc
    by_cases hc₁ : c = '\r'
    · rw [hc₁, hreturn]
    · by_cases hc₂ : c = '\n'
      · rw [hc₂, hline]
      · exact h c ((mem_newlinesList hc₁ hc₂ _ _).mpr (mem_append_left _ hc))
  · intro h c hc
    by_cases hc₁ : c = '\r'
    · rw [hc₁, hreturn]
    · by_cases hc₂ : c = '\n'
      · rw [hc₂, hline]
      · have hmem := (mem_newlinesList hc₁ hc₂ _ _).mp hc
        rcases mem_append.mp hmem with hmem | hmem
        · exact h c hmem
        · exact absurd (mem_singleton.mp hmem) hc₂

section Holding

variable {disk : ConfigDisk} {config namespacePrefix dataPrefix : String}

theorem namespacePrefix_holding :
    (disk.holding config namespacePrefix dataPrefix).files.namespacePrefix =
      if readLine namespacePrefix != "" then readLine namespacePrefix else disk.prefixEnv := rfl

theorem dataPrefix_holding :
    (disk.holding config namespacePrefix dataPrefix).files.dataPrefix =
      PyStr.stripChar '/' (readLine dataPrefix) := rfl

/-- A blank namespace prefix comes from the environment. -/
theorem eq_prefixEnv_of_blank (h : PyStr.strip disk.files.namespacePrefix = "") :
    disk.files.namespacePrefix = disk.prefixEnv := by
  rw [ConfigFiles.namespacePrefix] at h ⊢
  split at h
  · split_ifs at h ⊢ with hblank
    · rw [strip_strip] at h
      exact absurd h (by simpa using hblank)
    · rfl
  · rfl

/-- The effective namespace prefix is written back to itself. -/
theorem namespacePrefix_restored :
    (disk.holding config disk.files.namespacePrefix dataPrefix).files.namespacePrefix =
        disk.files.namespacePrefix ↔
      PyStr.strip disk.files.namespacePrefix = "" ∨
        '\r' ∉ disk.files.namespacePrefix.toList ∧
          PyStr.strip disk.files.namespacePrefix = disk.files.namespacePrefix := by
  rw [namespacePrefix_holding, ← readLine_eq_empty_iff, ← readLine_eq_self_iff]
  by_cases hblank : readLine disk.files.namespacePrefix = ""
  · rw [if_neg (by simpa using hblank)]
    have henv := eq_prefixEnv_of_blank (readLine_eq_empty_iff.mp hblank)
    exact ⟨fun _ => .inl hblank, fun _ => henv.symm⟩
  · rw [if_pos (by simpa using hblank)]
    exact ⟨.inr, fun h => h.resolve_left hblank⟩

/-- A data prefix is written back to itself. -/
theorem dataPrefix_restored :
    (disk.holding config namespacePrefix dataPrefix).files.dataPrefix = dataPrefix ↔
      '\r' ∉ dataPrefix.toList ∧ PyStr.stripChar '/' (PyStr.strip dataPrefix) = dataPrefix := by
  rw [dataPrefix_holding]
  constructor
  · intro h
    have hreturn : '\r' ∉ dataPrefix.toList := by
      rw [← h]
      exact fun hmem => return_notMem_readLine _ (mem_of_mem_stripChar hmem)
    exact ⟨hreturn, by rw [← readLine_of_notMem hreturn, h]⟩
  · rintro ⟨hreturn, hstrip⟩
    rw [readLine_of_notMem hreturn, hstrip]

end Holding

/-! ## All or nothing -/

/-- What is written back is what was there: the config has newlines only, the namespace prefix
no blanks at its ends unless it is blank, and the data prefix no blanks and then no slashes. -/
structure ConfigDisk.Restorable (disk : ConfigDisk) : Prop where
  config : ∀ config, disk.config = some config → '\r' ∉ config.toList
  namespacePrefix : PyStr.strip disk.files.namespacePrefix = "" ∨
    '\r' ∉ disk.files.namespacePrefix.toList ∧
      PyStr.strip disk.files.namespacePrefix = disk.files.namespacePrefix
  dataPrefix : '\r' ∉ disk.files.dataPrefix.toList ∧
    PyStr.stripChar '/' (PyStr.strip disk.files.dataPrefix) = disk.files.dataPrefix

/-- The condition of a call: where it gets to the writes, either the candidate is accepted, on one
line and over a config with newlines only, or what is written back is what was there. -/
def Activatable (host : Activation) (fields : ConfigFields) (preserveManagement : Bool)
    (disk : ConfigDisk) : Prop :=
  ReachesWrites host fields disk →
    (Accepts host preserveManagement →
      '\n' ∉ fields.namespacePrefix.toList ∧
        ∀ config, disk.config = some config → '\r' ∉ config.toList) ∧
    (¬Accepts host preserveManagement → disk.Restorable)

theorem isSpace_of_namespaceChar {c : Char} (h : namespaceChar c = true) :
    PyStr.isSpace c = false := by
  obtain ⟨hlow, hhigh, -⟩ := toNat_of_endpointChar (endpointChar_of_namespaceChar h)
  simp only [isSpace, Bool.or_eq_false_iff, Bool.and_eq_false_iff, decide_eq_false_iff_not,
    beq_eq_false_iff_ne]
  omega

theorem return_notMem_of_safeMatch (h : safeMatch namespaceChar s = true) :
    '\r' ∉ s.toList := by
  intro hmem
  rcases all_of_safeMatch h _ hmem with hchar | hline
  · exact absurd hchar (by decide)
  · exact absurd hline (by decide)

/-- A safe namespace is stripped of a final newline only. -/
theorem strip_eq_self_iff (h : safeMatch namespaceChar s = true) :
    PyStr.strip s = s ↔ '\n' ∉ s.toList := by
  constructor
  · intro hstrip hline
    obtain ⟨body, hbody, hchars⟩ := eq_append_newline h hline
    have hs : s = ofList body ++ "\n" := by
      apply toList_inj.mp
      rw [hbody, toList_append, toList_ofList]
      rfl
    have hkeep : strip (ofList body) = ofList body := by
      refine strip_of_forall fun c hc => ?_
      rw [toList_ofList] at hc
      exact isSpace_of_namespaceChar (hchars c hc)
    rw [hs, strip_append_newline, hkeep] at hstrip
    have hlen := congrArg (fun t => t.toList.length) hstrip
    simp at hlen
  · intro hline
    refine strip_of_forall fun c hc => ?_
    rcases all_of_safeMatch h c hc with hchar | rfl
    · exact isSpace_of_namespaceChar hchar
    · exact absurd hc hline

/-- A safe namespace is not blank. -/
theorem strip_ne_empty (h : safeMatch namespaceChar s = true) :
    PyStr.strip s ≠ "" := by
  intro hblank
  have hall := strip_eq_empty.mp hblank
  by_cases hline : '\n' ∈ s.toList
  · obtain ⟨body, hbody, hchars⟩ := eq_append_newline h hline
    cases body with
    | nil =>
      have hs : s = "\n" := toList_inj.mp hbody
      rw [hs] at h
      exact absurd h (by decide)
    | cons c cs =>
      have hspace := hall c (by rw [hbody]; exact mem_cons_self)
      rw [isSpace_of_namespaceChar (hchars c mem_cons_self)] at hspace
      exact Bool.false_ne_true hspace
  · rw [(strip_eq_self_iff h).mpr hline] at hblank
    rw [hblank] at h
    exact absurd h (by decide)

section Call

variable {host : Activation} {rendered : String} {fields : ConfigFields}
  {restartNative preserveManagement : Bool} {disk : ConfigDisk}

/-- The data prefix of a candidate is written and read as it is. -/
theorem dataPrefix_candidate (fields : ConfigFields) :
    PyStr.stripChar '/' (readLine fields.publishPrefix) = fields.publishPrefix := by
  have hchars : ∀ c ∈ fields.publishPrefix.toList, namespaceChar c = true :=
    all_eq_true.mp fields.ok.publishPrefix
  have hreturn : '\r' ∉ fields.publishPrefix.toList := fun hmem =>
    absurd (hchars _ hmem) (by decide)
  have hkeep : strip fields.publishPrefix = fields.publishPrefix :=
    strip_of_forall fun c hc => isSpace_of_namespaceChar (hchars c hc)
  rw [readLine_of_notMem hreturn, hkeep, fields.stripped]

/-- The prefixes of a candidate are written and read as they are, on one line. -/
theorem active_candidate (config : String) :
    (disk.holding config fields.namespacePrefix fields.publishPrefix).active =
        candidateConfig config fields ↔ '\n' ∉ fields.namespacePrefix.toList := by
  have hdata := dataPrefix_candidate fields
  have hsafe := fields.ok.namespacePrefix
  have hread := readLine_of_notMem (return_notMem_of_safeMatch hsafe)
  rw [ConfigDisk.active, candidateConfig, ActiveConfig.mk.injEq, namespacePrefix_holding,
    dataPrefix_holding, hdata, hread, if_pos (by simpa using strip_ne_empty hsafe),
    strip_eq_self_iff hsafe]
  exact ⟨fun h => h.2.1, fun h => ⟨rfl, h, rfl⟩⟩

/-- The previous values are written back to what they were exactly for restorable files. -/
theorem active_restored {config : String} (hconfig : disk.config = some config)
    (lastKnownGood : Option String) :
    ({ disk with lastKnownGood }.holding (PyStr.newlines config) disk.files.namespacePrefix
        disk.files.dataPrefix).active = disk.active ↔ disk.Restorable := by
  have hnamespace := @namespacePrefix_restored { disk with lastKnownGood }
    (newlines config) disk.files.dataPrefix
  have hdata := @dataPrefix_restored { disk with lastKnownGood } (newlines config)
    disk.files.namespacePrefix disk.files.dataPrefix
  have hreturn : some (newlines config) = disk.config ↔
      ∀ config, disk.config = some config → '\r' ∉ config.toList := by
    rw [hconfig, Option.some_inj, newlines_eq_self_iff]
    exact ⟨fun h c hc => Option.some.inj hc ▸ h, fun h => h config rfl⟩
  rw [ConfigDisk.active, ConfigDisk.active, ActiveConfig.mk.injEq]
  constructor
  · rintro ⟨hconfig', hnamespace', hdata'⟩
    exact ⟨hreturn.mp hconfig', hnamespace.mp hnamespace', hdata.mp hdata'⟩
  · rintro ⟨hconfig', hnamespace', hdata'⟩
    exact ⟨hreturn.mpr hconfig', hnamespace.mpr hnamespace', hdata.mpr hdata'⟩

/-- One call is all or nothing exactly under its condition. -/
theorem allOrNothing_iff (hrestore : host.restore.Succeed) :
    AllOrNothing disk rendered fields
        (applyRenderedConfig host rendered fields restartNative preserveManagement disk) ↔
      Activatable host fields preserveManagement disk := by
  by_cases hreaches : ReachesWrites host fields disk
  swap
  · obtain ⟨hdisk, happlied⟩ := @applyRenderedConfig_refused host rendered fields restartNative
      preserveManagement disk hreaches
    rw [AllOrNothing, happlied, hdisk, if_neg Bool.false_ne_true]
    exact ⟨fun _ h => absurd h hreaches, fun _ => rfl⟩
  obtain ⟨config, hconfig, hyes, hno⟩ := @applyRenderedConfig_reaches host rendered fields
    restartNative preserveManagement disk hreaches
  by_cases haccepts : Accepts host preserveManagement
  · obtain ⟨hdisk, happlied⟩ := hyes haccepts
    rw [AllOrNothing, happlied, hdisk, if_pos rfl, active_candidate]
    have hgood : some (newlines config) = disk.config ↔
        ∀ config, disk.config = some config → '\r' ∉ config.toList := by
      rw [hconfig, Option.some_inj, newlines_eq_self_iff]
      exact ⟨fun h c hc => Option.some.inj hc ▸ h, fun h => h config rfl⟩
    constructor
    · rintro ⟨hline, hlast⟩
      exact fun _ => ⟨fun _ => ⟨hline, hgood.mp hlast⟩, fun h => absurd haccepts h⟩
    · intro h
      obtain ⟨hline, hlast⟩ := (h hreaches).1 haccepts
      exact ⟨hline, hgood.mpr hlast⟩
  · obtain ⟨hdisk, happlied⟩ := hno hrestore haccepts
    rw [AllOrNothing, happlied, hdisk, if_neg Bool.false_ne_true, active_restored hconfig]
    exact ⟨fun h _ => ⟨fun h' => absurd h' haccepts, fun _ => h⟩,
      fun h => (h hreaches).2 haccepts⟩

end Call

/-! ## Runs of calls -/

/-- A call, with what the host answers. -/
structure ApplyCall where
  host : Activation
  rendered : String
  fields : ConfigFields
  restartNative : Bool
  preserveManagement : Bool

namespace ApplyCall

def run (call : ApplyCall) (disk : ConfigDisk) : ConfigDisk × Except String ApplyResult :=
  applyRenderedConfig call.host call.rendered call.fields call.restartNative
    call.preserveManagement disk

/-- The condition of a call whose restore writes succeed. -/
def Activatable (call : ApplyCall) (disk : ConfigDisk) : Prop :=
  Efdi.Activatable call.host call.fields call.preserveManagement disk

/-- The files after a call, and the last candidate that was applied. -/
def step (s : ConfigDisk × ActiveConfig) (call : ApplyCall) : ConfigDisk × ActiveConfig :=
  ((call.run s.1).1,
    if isApplied (call.run s.1).2 then candidateConfig call.rendered call.fields else s.2)

/-- A call under its condition keeps the active config that of the last candidate applied. -/
theorem active_step {s : ConfigDisk × ActiveConfig} {call : ApplyCall} (hs : s.1.active = s.2)
    (hrestore : call.host.restore.Succeed) (h : call.Activatable s.1) :
    (step s call).1.active = (step s call).2 := by
  have hall : AllOrNothing s.1 call.rendered call.fields (call.run s.1) :=
    (allOrNothing_iff hrestore).mpr h
  rw [AllOrNothing] at hall
  rw [step]
  split at hall
  next happlied =>
    rw [if_pos happlied]
    exact hall.1
  next happlied =>
    rw [if_neg happlied]
    exact hall.trans hs

end ApplyCall

/-- Config activation is all or nothing exactly under the condition of the call, and along calls
that meet it the active config is that of the last candidate applied. -/
theorem applyRenderedConfig_allOrNothing (disk : ConfigDisk) :
    (∀ call : ApplyCall, call.host.restore.Succeed →
      (AllOrNothing disk call.rendered call.fields (call.run disk) ↔ call.Activatable disk)) ∧
    ∀ calls : List ApplyCall,
      Guarded ApplyCall.step
        (fun s call => call.host.restore.Succeed ∧ call.Activatable s.1)
        (disk, disk.active) calls →
      Always ApplyCall.step (fun s => s.1.active = s.2) (disk, disk.active) calls := by
  constructor
  · intro call hrestore
    exact allOrNothing_iff hrestore
  · intro calls hcalls
    have hstep : ∀ (s : ConfigDisk × ActiveConfig) (call : ApplyCall), s.1.active = s.2 →
        call.host.restore.Succeed ∧ call.Activatable s.1 →
          (ApplyCall.step s call).1.active = (ApplyCall.step s call).2 :=
      fun s call hs h => ApplyCall.active_step hs h.1 h.2
    exact always_of_guarded hstep rfl hcalls

/-- A host on which every write succeeds, with a router that becomes healthy or does not. -/
def podHost (health : Bool) : Activation where
  preflight := (true, "ok")
  readError := ""
  lastKnownGood := none
  candidate := ⟨none, none, none⟩
  restart := (true, none)
  health
  link := true
  restore := ⟨none, none, none⟩
  rollbackRestart := (true, none)
  rollbackHealth := true
  nativeFailures := []

/-- A candidate for a pod. -/
def podCall (health : Bool) : ApplyCall where
  host := podHost health
  rendered := "candidate"
  fields := podFields "pod1" pod1_named
  restartNative := false
  preserveManagement := true

/-- The state files of a pod, with a namespace prefix and no data prefix file. -/
def podDisk (namespacePrefix : String) : ConfigDisk where
  config := some "active"
  lastKnownGood := none
  prefixFile := some (namespacePrefix ++ "\n")
  dataPrefixFile := none
  prefixEnv := "EFDI"
  dataPrefixEnv := none

theorem restorable_podDisk : (podDisk "EFDI").Restorable where
  config := by
    intro config hconfig
    obtain rfl := Option.some.inj hconfig
    decide
  namespacePrefix := .inr (by decide)
  dataPrefix := by decide

theorem applyRenderedConfig_allOrNothing_pod :
    AllOrNothing (podDisk "EFDI") "candidate" (podCall true).fields
        ((podCall true).run (podDisk "EFDI")) ∧
      Always ApplyCall.step (fun s => s.1.active = s.2) (podDisk "EFDI", (podDisk "EFDI").active)
        [podCall false] := by
  have hline : ∀ config, (podDisk "EFDI").config = some config → '\r' ∉ config.toList :=
    restorable_podDisk.config
  constructor
  · refine ((applyRenderedConfig_allOrNothing (podDisk "EFDI")).1 (podCall true) (by decide)).mpr ?_
    intro _
    exact ⟨fun _ => ⟨by decide, hline⟩, fun _ => restorable_podDisk⟩
  · refine (applyRenderedConfig_allOrNothing (podDisk "EFDI")).2 [podCall false]
      ⟨⟨by decide, ?_⟩, trivial⟩
    intro _
    exact ⟨fun _ => ⟨by decide, hline⟩, fun _ => restorable_podDisk⟩

/-- A data prefix that comes from a namespace prefix with a slash at its end is not the same
after a rollback. -/
theorem rolledBack_changes_dataPrefix :
    isApplied ((podCall false).run (podDisk "EFDI/")).2 = false ∧
      (podDisk "EFDI/").files.dataPrefix = "EFDI/" ∧
      ((podCall false).run (podDisk "EFDI/")).1.files.dataPrefix = "EFDI" ∧
      ¬AllOrNothing (podDisk "EFDI/") "candidate" (podCall false).fields
        ((podCall false).run (podDisk "EFDI/")) := by
  have hbefore : (podDisk "EFDI/").files.dataPrefix = "EFDI/" := by decide
  have hafter : ((podCall false).run (podDisk "EFDI/")).1.files.dataPrefix = "EFDI" := by
    decide +kernel
  have happlied : isApplied ((podCall false).run (podDisk "EFDI/")).2 = false := by
    decide +kernel
  refine ⟨happlied, hbefore, hafter, fun hall => ?_⟩
  rw [AllOrNothing, happlied, if_neg Bool.false_ne_true] at hall
  have hdata := congrArg ActiveConfig.dataPrefix hall
  rw [ConfigDisk.active, ConfigDisk.active, hbefore, hafter] at hdata
  exact absurd hdata (by decide)

end Efdi
