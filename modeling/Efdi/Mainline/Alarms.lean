import Efdi.Base.Window
import Efdi.Mainline.Tombstones

/-!
# Alarms of detections

`run_detections` takes a detection for new when its id is not in `seen`.  An id leaves `seen` by
the time at which it was accepted, and the test of its age reads the time stamp of the vendor, so
`seen` is a memory with a window in which nothing ties the two (`get?_seen_next`).  A detection
that is still listed when the window has passed is accepted again, and its sensor turns red again
(`alarms_once_iff`).
-/

namespace Efdi.Mainline

open Asterix (FloatMath exactMath)
open Runs List PyDict

variable (F : FloatMath) (order : SetOrder) (apiBase : String)

/-! ## What is accepted -/

/-- A detection that a poll may accept. -/
def Detection.counts (now : Rat) (det : Detection) : Bool :=
  decide (det.id ≠ "" ∧ ¬ detectWindow < F.sub now (F.div det.detectedAt 1000) ∧
    det.deviceId ≠ "")

/-- A poll lists a detection of the id that counts. -/
def lists (now : Rat) (detections : List Detection) (id : String) : Bool :=
  detections.any fun det => det.id == id && det.counts F now

/-- The detections that a poll accepts as new. -/
def accepted (now : Rat) : List Detection → PyDict String Rat → List Detection
  | [], _ => []
  | det :: detections, seen =>
    if det.counts F now = true ∧ seen.contains det.id = false then
      det :: accepted now detections (seen.set det.id now)
    else accepted now detections seen

/-- `seen` after the stale ids are evicted. -/
def evict (now : Rat) (seen : PyDict String Rat) : PyDict String Rat :=
  seen.filter fun _ published => decide (F.sub now detectWindow < published)

/-- What the next event accepts, with the time of the poll. -/
def acceptedBy (b : Bridge) : Event → List (Rat × Detection)
  | .pollDetections now document =>
    if b.detection.isEmpty then
      (accepted F now (document.getD []) (evict F now b.seen)).map fun det => (now, det)
    else []
  | _ => []

/-- What a run accepts. -/
def acceptances : Bridge → List Event → List (Rat × Detection)
  | _, [] => []
  | b, event :: events => acceptedBy F b event ++ acceptances (b.next F order apiBase event) events

/-- The poll that the next event makes, with what it lists.  A failed poll lists nothing. -/
def pollOf (b : Bridge) : Event → Option (Rat × List Detection)
  | .pollDetections now document =>
    if b.detection.isEmpty then some (now, document.getD []) else none
  | _ => none

/-- The polls of a run. -/
def polls : Bridge → List Event → List (Rat × List Detection)
  | _, [] => []
  | b, event :: events => (pollOf b event).toList ++ polls (b.next F order apiBase event) events

/-- When a detection is listed. -/
def moments (id : String) (polls : List (Rat × List Detection)) : List (Rat × Bool) :=
  polls.map fun poll => (poll.1, lists F poll.1 poll.2 id)

/-- The time that a poll has to be behind for `seen` to forget it. -/
def cutoff (now : Rat) : Rat := F.sub now detectWindow

/-! ## One poll -/

variable {F order apiBase}

section

variable {now : Rat} {detections : List Detection} {seen : PyDict String Rat}

variable {touched : Finset String}

theorem readDetections_of_accepted {det : Detection}
    (h : det.counts F now = true ∧ seen.contains det.id = false) :
    readDetections F apiBase now (det :: detections) seen touched =
      let rest := readDetections F apiBase now detections (seen.set det.id now)
        (insert det.deviceId touched)
      (.record det.deviceId now (if det.audioAvailable then some (audioUrl apiBase det.id) else none)
        :: rest.1, rest.2) := by
  rw [Detection.counts, decide_eq_true_iff] at h
  rw [readDetections, if_neg (by simp [h.1.1, h.2]), if_neg h.1.2.1, if_neg h.1.2.2]

theorem readDetections_of_not_accepted {det : Detection}
    (h : ¬ (det.counts F now = true ∧ seen.contains det.id = false)) :
    readDetections F apiBase now (det :: detections) seen touched =
      readDetections F apiBase now detections seen touched := by
  rw [Detection.counts, decide_eq_true_iff] at h
  rw [readDetections]
  split
  · rfl
  · split
    · rfl
    · split
      · rfl
      · next hid hold hdevice =>
          simp only [not_or, Bool.not_eq_true] at hid
          exact absurd ⟨⟨hid.1, hold, hdevice⟩, hid.2⟩ h

/-- A detection is recorded when it is accepted. -/
theorem record_of_mem {id : String} {ts : Rat} {url : Option String}
    (h : .record id ts url ∈ (readDetections F apiBase now detections seen touched).1) :
    ts = now ∧ ∃ det ∈ accepted F now detections seen, det.deviceId = id := by
  induction detections generalizing seen touched with
  | nil => cases h
  | cons det detections ih =>
    rw [accepted]
    split
    next hnew =>
      rw [readDetections_of_accepted hnew] at h
      rcases mem_cons.mp h with hhead | hrest
      · cases hhead
        exact ⟨rfl, det, .head _, rfl⟩
      · obtain ⟨hts, found, hmem, hfound⟩ := ih hrest
        exact ⟨hts, found, .tail _ hmem, hfound⟩
    next hold =>
      rw [readDetections_of_not_accepted hold] at h
      exact ih h

/-- `seen` after a poll: what was there, and the time of the poll for what it lists. -/
theorem get?_readDetections (id : String) :
    (readDetections F apiBase now detections seen touched).2.2.get? id =
      (seen.get? id).or (if lists F now detections id then some now else none) := by
  induction detections generalizing seen touched with
  | nil => simp [readDetections, lists]
  | cons det detections ih =>
    by_cases hnew : det.counts F now = true ∧ seen.contains det.id = false
    · rw [readDetections_of_accepted hnew]
      dsimp only
      rw [ih]
      by_cases hid : det.id = id
      · subst hid
        have hnone : seen.get? det.id = none := by simpa [PyDict.contains] using hnew.2
        simp [lists, hnew.1, hnone]
      · simp [lists, get?_set_of_ne _ (Ne.symm hid), hid]
    · rw [readDetections_of_not_accepted hnew, ih]
      by_cases hid : det.id = id
      · subst hid
        cases hseen : seen.get? det.id with
        | some since => rfl
        | none =>
          have hcounts : det.counts F now = false := by
            simpa [PyDict.contains, hseen] using hnew
          simp [lists, hcounts]
      · simp [lists, hid]

/-- A poll accepts an id once, when it lists it and has not seen it. -/
theorem count_accepted (id : String) :
    ((accepted F now detections seen).map Detection.id).count id =
      if lists F now detections id && (seen.get? id).isNone then 1 else 0 := by
  induction detections generalizing seen with
  | nil => rfl
  | cons det detections ih =>
    rw [accepted]
    split
    next hnew =>
      rw [map_cons, count_cons, ih]
      by_cases hid : det.id = id
      · subst hid
        have hnone : seen.get? det.id = none := by simpa [PyDict.contains] using hnew.2
        simp [lists, hnew.1, hnone]
      · simp [lists, get?_set_of_ne _ (Ne.symm hid), hid]
    next hold =>
      rw [ih]
      by_cases hid : det.id = id
      · subst hid
        cases hseen : seen.get? det.id with
        | some since => simp
        | none =>
          have hcounts : det.counts F now = false := by
            simpa [PyDict.contains, hseen] using hold
          simp [lists, hcounts]
      · simp [lists, hid]

end

/-! ## Runs -/

section

variable {b : Bridge} {event : Event}

/-- `seen` is a memory of each id with a window. -/
theorem get?_seen_next (id : String) : (b.next F order apiBase event).seen.get? id =
    (moments F id (pollOf b event).toList).foldl (Window.step (cutoff F)) (b.seen.get? id) := by
  cases event with
  | pollDevices document =>
    cases document with
    | none => rfl
    | some devices =>
      simp only [Bridge.next]
      split <;> rfl
  | device now =>
    simp only [Bridge.next, Bridge.deviceStep]
    split <;> rfl
  | pollDetections now document =>
    simp only [Bridge.next, pollOf]
    split
    · exact (get?_readDetections id).trans (by rw [get?_filter]; rfl)
    · rfl
  | detection now =>
    simp only [Bridge.next, Bridge.detectionStep]
    split
    · rfl
    · rfl
    · split
      · rfl
      · split <;> rfl
    · rfl
    · rfl
    · split <;> rfl

theorem count_acceptedBy (id : String) :
    ((acceptedBy F b event).map fun a => a.2.id).count id =
      (Window.taken (cutoff F) (b.seen.get? id) (moments F id (pollOf b event).toList)).length := by
  cases event with
  | pollDevices document => rfl
  | device now => rfl
  | detection now => rfl
  | pollDetections now document =>
    rw [acceptedBy, pollOf]
    split
    · rw [map_map]
      refine (count_accepted id).trans ?_
      rw [evict, get?_filter, Option.toList_some, moments, map_singleton,
        Window.taken, Window.taken, append_nil, apply_ite List.length]
      rfl
    · rfl

/-- A run accepts an id when its memory takes it. -/
theorem count_acceptances (id : String) (events : List Event) :
    ((acceptances F order apiBase b events).map fun a => a.2.id).count id =
      (Window.taken (cutoff F) (b.seen.get? id)
        (moments F id (polls F order apiBase b events))).length := by
  induction events generalizing b with
  | nil => rfl
  | cons event events ih =>
    rw [acceptances, map_append, count_append, count_acceptedBy, ih, polls,
      get?_seen_next]
    cases pollOf b event with
    | none => simp [moments, Window.taken]
    | some poll => simp [moments, Window.taken]

/-- Every alarm that is on or about to be is of a detection that was accepted at that time. -/
structure Raised (known : List (Rat × Detection)) (b : Bridge) : Prop where
  on : ∀ id ts, b.tables.lastDetection.get? id = some ts → ∃ a ∈ known, a.2.deviceId = id ∧ a.1 = ts
  next : ∀ id ts url, .record id ts url ∈ b.detection →
    ∃ a ∈ known, a.2.deviceId = id ∧ a.1 = ts

theorem Raised.mono {known : List (Rat × Detection)} (h : Raised known b)
    (more : List (Rat × Detection)) : Raised (known ++ more) b where
  on id ts hget :=
    (h.on id ts hget).imp fun _ ha => ⟨mem_append_left _ ha.1, ha.2⟩
  next id ts url hmem :=
    (h.next id ts url hmem).imp fun _ ha => ⟨mem_append_left _ ha.1, ha.2⟩

theorem Raised.step {known : List (Rat × Detection)} (h : Raised known b) (event : Event) :
    Raised (known ++ acceptedBy F b event) (b.next F order apiBase event) := by
  cases event with
  | pollDevices document =>
    simp only [acceptedBy, append_nil]
    cases document with
    | none => exact h
    | some devices =>
      simp only [Bridge.next]
      split
      · refine ⟨fun id ts hget => h.on id ts ?_, h.next⟩
        dsimp only [processDocument] at hget
        rw [get?_filter, Option.filter_eq_some_iff] at hget
        exact hget.1
      · exact h
  | device now =>
    simp only [acceptedBy, append_nil]
    simp only [Bridge.next, Bridge.deviceStep]
    split
    · exact h
    · refine ⟨fun id ts hget => h.on id ts ?_, h.next⟩
      dsimp only [statusSection] at hget
      split at hget <;> exact hget
    · exact ⟨h.on, h.next⟩
    · exact ⟨h.on, h.next⟩
  | pollDetections now document =>
    simp only [Bridge.next, acceptedBy]
    split
    · refine ⟨(h.mono _).on, fun id ts url hmem => ?_⟩
      rcases mem_append.mp hmem with hmem | hmem
      · obtain ⟨rfl, det, hdet, hid⟩ := record_of_mem hmem
        exact ⟨(ts, det), mem_append_right _ (mem_map_of_mem hdet), hid, rfl⟩
      · cases mem_singleton.mp hmem
    · exact h.mono _
  | detection now =>
    simp only [acceptedBy, append_nil]
    simp only [Bridge.next, Bridge.detectionStep]
    split
    next => exact h
    next id ts url works hworks =>
      refine ⟨fun other time hget => ?_, fun other time link hmem => ?_⟩
      · by_cases hid : other = id
        · subst hid
          rw [get?_set_self] at hget
          obtain rfl := Option.some.inj hget
          exact h.next other ts url (by rw [hworks]; exact .head _)
        · rw [get?_set_of_ne _ hid] at hget
          exact h.on other time hget
      · rcases mem_cons.mp hmem with hhead | hrest
        · cases hhead
        · exact h.next other time link (by rw [hworks]; exact .tail _ hrest)
    next id ts url works hworks =>
      have hrest : ∀ other time link, .record other time link ∈ works →
          ∃ a ∈ known, a.2.deviceId = other ∧ a.1 = time := fun other time link hmem =>
        h.next other time link (by rw [hworks]; exact .tail _ hmem)
      split
      · exact ⟨h.on, hrest⟩
      · split
        · refine ⟨h.on, fun other time link hmem => ?_⟩
          rcases mem_cons.mp hmem with hhead | hmem
          · cases hhead
          · exact hrest other time link hmem
        · exact ⟨h.on, hrest⟩
    next id status works hworks =>
      exact ⟨h.on, fun other time link hmem =>
        h.next other time link (by rw [hworks]; exact .tail _ hmem)⟩
    next cycle touched works hworks =>
      refine ⟨h.on, fun other time link hmem => ?_⟩
      rcases mem_append.mp hmem with hmem | hmem
      · obtain ⟨entry, -, hentry⟩ := mem_map.mp hmem
        cases hentry
      · exact h.next other time link (by rw [hworks]; exact .tail _ hmem)
    next id works hworks =>
      have hrest : ∀ other time link, .record other time link ∈ works →
          ∃ a ∈ known, a.2.deviceId = other ∧ a.1 = time := fun other time link hmem =>
        h.next other time link (by rw [hworks]; exact .tail _ hmem)
      split
      · exact ⟨h.on, hrest⟩
      · refine ⟨h.on, fun other time link hmem => ?_⟩
        rcases mem_cons.mp hmem with hhead | hmem
        · cases hhead
        · exact hrest other time link hmem

theorem Raised.run {known : List (Rat × Detection)} (events : List Event) (h : Raised known b) :
    Raised (known ++ acceptances F order apiBase b events)
      (final (Bridge.next F order apiBase) b events) := by
  induction events generalizing b known with
  | nil => rwa [acceptances, append_nil]
  | cons event events ih =>
    rw [acceptances, ← append_assoc]
    exact ih (h.step event)

end

/-! ## Once -/

section

variable (F order apiBase)

/-- A detection raises the alarm once. -/
structure AlarmsOnce (events : List Event) : Prop where
  /-- Each id is accepted as new at most once. -/
  once : ((acceptances F order apiBase .start events).map fun a => a.2.id).Nodup
  /-- An alarm of a sensor is raised only by a detection of it that is accepted, so it gets as old as
  that detection. -/
  raised : ∀ before after, events = before ++ after → ∀ id ts,
    (final (Bridge.next F order apiBase) .start before).tables.lastDetection.get? id = some ts →
      ∃ a ∈ acceptances F order apiBase .start before, a.2.deviceId = id ∧ a.1 = ts

/-- Each detection raises the alarm once exactly when none is listed, young enough, by a poll and
again at or after a poll that is the window after it. -/
theorem alarms_once_iff (events : List Event)
    (hclock : (polls F order apiBase .start events).Pairwise fun p q => p.1 ≤ q.1) :
    AlarmsOnce F order apiBase events ↔ ∀ id, ¬ Window.Relisted (cutoff F)
      (moments F id (polls F order apiBase .start events)) := by
  have htimes : ∀ id, (moments F id (polls F order apiBase .start events)).Pairwise
      fun a b => a.1 ≤ b.1 := fun id => List.pairwise_map.mpr hclock
  have hcount : ∀ id, ((acceptances F order apiBase .start events).map fun a => a.2.id).count id ≤ 1
      ↔ ¬ Window.Relisted (cutoff F) (moments F id (polls F order apiBase .start events)) := by
    intro id
    rw [count_acceptances]
    exact Window.takes_le_one_iff (htimes id)
  constructor
  · exact fun h id => (hcount id).mp (List.nodup_iff_count_le_one.mp h.once id)
  · intro h
    refine ⟨List.nodup_iff_count_le_one.mpr fun id => (hcount id).mpr (h id), ?_⟩
    intro before after _ id ts hget
    have hstart : Raised [] Bridge.start := by
      constructor
      · exact fun _ _ hget => by cases hget
      · exact fun _ _ _ hmem => by cases hmem
    exact (hstart.run before).on id ts hget

end

/-- A detection that is listed for the window: it was recorded when it was polled first. -/
def listedOn : List Event :=
  [.pollDetections 0 (some [heard]), .detection 0, .detection 0, .detection 0,
    .pollDetections 300 (some [heard])]

theorem alarms_once_iff_listedOn :
    (polls exactMath byId "" .start listedOn).Pairwise (fun p q => p.1 ≤ q.1) ∧
      (AlarmsOnce exactMath byId "" listedOn ↔ ∀ id, ¬ Window.Relisted (cutoff exactMath)
        (moments exactMath id (polls exactMath byId "" .start listedOn))) := by
  have hclock : (polls exactMath byId "" .start listedOn).Pairwise fun p q => p.1 ≤ q.1 := by
    decide +kernel
  exact ⟨hclock, alarms_once_iff exactMath byId "" listedOn hclock⟩

theorem listedOn_alarms_twice : ¬ AlarmsOnce exactMath byId "" listedOn := by
  intro h
  have hnodup := h.once
  revert hnodup
  decide +kernel

end Efdi.Mainline
