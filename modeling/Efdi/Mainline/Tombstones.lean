import Mathlib.Data.List.Sort
import Mathlib.Data.String.Basic
import Efdi.Mainline.Dronuradaras

/-!
# Tombstones of dronuradaras sensors

`run_devices` puts a tombstone for each sensor that was online in the last document and is not in
the new one.  The tombstones that were put since a sensor was last listed and those that are still
to be put count together to one (`Inv.offline`), unless the document lists the sensor twice.
`run_detections` looks whether a sensor is online and puts its status later, so a tombstone can come
between.  In runs without these two things no sensor is revived, and each one that went offline has
one tombstone (`never_revived`).
-/

namespace Efdi.Mainline

open Asterix (FloatMath exactMath)
open Runs List

/-! ## What the log says -/

/-- The tombstones of a sensor since a document last listed it online with a position. -/
def tombstonesSince (id : String) : List Entry → Nat
  | [] => 0
  | .document devices :: older => if id ∈ onlineIds devices then 0 else tombstonesSince id older
  | .put id' status :: older =>
    tombstonesSince id older + if id' = id ∧ status.delete = true then 1 else 0

/-- A document listed the sensor online with a position. -/
def Listed (id : String) (log : List Entry) : Prop :=
  ∃ devices, .document devices ∈ log ∧ id ∈ onlineIds devices

/-- A live status of the sensor was put. -/
def ShownLive (id : String) (log : List Entry) : Prop :=
  ∃ status, .put id status ∈ log ∧ status.isOnline = true

/-- The sensors that are online with a position in the latest document. -/
def latestOnline : List Entry → Finset String
  | [] => ∅
  | .document devices :: _ => onlineIds devices
  | .put _ _ :: older => latestOnline older

/-- No live status is put between a tombstone and the next document that lists the sensor. -/
def NeverRevived (log : List Entry) : Prop :=
  ∀ newer id status older, log = newer ++ .put id status :: older → status.isOnline = true →
    tombstonesSince id older = 0

/-- Between two documents, a sensor that was shown live and is not online in the latest document has
one tombstone. -/
def OneTombstone (b : Bridge) : Prop :=
  b.device = [] → ∀ id, ShownLive id b.log → id ∉ latestOnline b.log →
    tombstonesSince id b.log = 1

variable {id : String} {log : List Entry}

theorem neverRevived_cons {entry : Entry} (h : NeverRevived log)
    (hentry : ∀ id status, entry = .put id status → status.isOnline = true →
      tombstonesSince id log = 0) : NeverRevived (entry :: log) := by
  intro newer id status older heq hlive
  cases newer with
  | nil =>
    obtain ⟨rfl, rfl⟩ := List.cons.inj heq
    exact hentry id status rfl hlive
  | cons first newer =>
    obtain ⟨-, rfl⟩ := List.cons.inj heq
    exact h newer id status older rfl hlive

theorem neverRevived_tail {entry : Entry} (h : NeverRevived (entry :: log)) : NeverRevived log :=
  fun newer id status older heq hlive =>
    h (entry :: newer) id status older (by rw [heq, cons_append]) hlive

instance : DecidablePred NeverRevived := fun log => by
  induction log with
  | nil =>
    refine .isTrue fun newer _ _ _ h => ?_
    cases newer <;> cases h
  | cons entry log ih =>
    cases entry with
    | document devices =>
      exact decidable_of_iff (NeverRevived log)
        ⟨fun h => neverRevived_cons h (fun _ _ heq => by cases heq), neverRevived_tail⟩
    | put id st =>
      refine decidable_of_iff
        (NeverRevived log ∧ (st.isOnline = true → tombstonesSince id log = 0)) ⟨?_, ?_⟩
      · rintro ⟨h, hput⟩
        refine neverRevived_cons h fun _ _ heq hlive => ?_
        cases heq
        exact hput hlive
      · exact fun h => ⟨neverRevived_tail h, h [] id st log rfl⟩

theorem listed_of_latestOnline (h : id ∈ latestOnline log) : Listed id log := by
  induction log with
  | nil => cases h
  | cons entry log ih =>
    cases entry with
    | document devices => exact ⟨devices, .head _, h⟩
    | put id' status =>
      obtain ⟨devices, hmem, hid⟩ := ih h
      exact ⟨devices, .tail _ hmem, hid⟩

theorem Listed.cons (entry : Entry) (h : Listed id log) : Listed id (entry :: log) := by
  obtain ⟨devices, hmem, hid⟩ := h
  exact ⟨devices, .tail _ hmem, hid⟩

theorem listed_put {id' : String} {status : Status} :
    Listed id (.put id' status :: log) ↔ Listed id log := by
  constructor
  · rintro ⟨devices, hmem, hid⟩
    cases hmem with
    | tail _ hmem => exact ⟨devices, hmem, hid⟩
  · exact Listed.cons _

variable {devices : List Device} {t : Tables} {st : Status}

theorem listed_document :
    Listed id (.document devices :: log) ↔ id ∈ onlineIds devices ∨ Listed id log := by
  constructor
  · rintro ⟨devices', hmem, hid⟩
    cases hmem with
    | head => exact .inl hid
    | tail _ hmem => exact .inr ⟨devices', hmem, hid⟩
  · rintro (hid | hlisted)
    · exact ⟨devices, .head _, hid⟩
    · exact hlisted.cons _

/-- The entry puts a live status of the sensor. -/
def Entry.liveOf (id : String) : Entry → Bool
  | .document _ => false
  | .put id' st => decide (id' = id) && st.isOnline

theorem shownLive_iff_any : ShownLive id log ↔ log.any (Entry.liveOf id) = true := by
  rw [any_eq_true]
  constructor
  · rintro ⟨st, hmem, hlive⟩
    exact ⟨_, hmem, by rw [Entry.liveOf, hlive, decide_eq_true rfl, Bool.and_true]⟩
  · rintro ⟨entry, hmem, hlive⟩
    cases entry with
    | document => cases hlive
    | put id' st =>
      obtain ⟨hid, hput⟩ := Bool.and_eq_true_iff.mp hlive
      exact ⟨st, decide_eq_true_iff.mp hid ▸ hmem, hput⟩

instance : Decidable (ShownLive id log) := decidable_of_iff _ shownLive_iff_any.symm

theorem shownLive_put {id' : String} {status : Status} (h : ShownLive id (.put id' status :: log)) :
    ShownLive id log ∨ id' = id ∧ status.isOnline = true := by
  obtain ⟨status', hmem, hlive⟩ := h
  cases hmem with
  | head => exact .inr ⟨rfl, hlive⟩
  | tail _ hmem => exact .inl ⟨status', hmem, hlive⟩

theorem shownLive_document (h : ShownLive id (.document devices :: log)) :
    ShownLive id log := by
  obtain ⟨status, hmem, hlive⟩ := h
  cases hmem with
  | tail _ hmem => exact ⟨status, hmem, hlive⟩

/-! ## What is still to be put -/

/-- The work puts a tombstone of the sensor. -/
def DeviceWork.tombstoneOf (id : String) : DeviceWork → Bool
  | .status p isOnline => decide (p.device.id = id) && !isOnline
  | .put id' st => decide (id' = id) && st.delete
  | .missing id' _ _ => decide (id' = id)

/-- The work puts a live status of the sensor. -/
def DeviceWork.liveOf (id : String) : DeviceWork → Bool
  | .status p isOnline => decide (p.device.id = id) && isOnline
  | .put id' st => decide (id' = id) && st.isOnline
  | .missing _ _ _ => false

/-- The tombstones of a sensor that `run_devices` still has to put. -/
def pendingTombstones (id : String) (works : List DeviceWork) : Nat :=
  works.countP (DeviceWork.tombstoneOf id)

theorem notMem_offlineCandidates (h : id ∈ offlineCandidates devices t) :
    id ∉ onlineIds devices := by
  rw [offlineCandidates, Finset.mem_union, mem_toFinset, mem_toFinset, mem_map,
    mem_filter] at h
  rcases h with ⟨p, hp, rfl⟩ | ⟨-, hgone⟩
  · exact (decide_eq_true_iff.mp (mem_filter.mp hp).2).1
  · exact (decide_eq_true_iff.mp hgone).1

/-- A tombstone for each entry of a sensor in the document, or one at its last position. -/
theorem pendingTombstones_documentWork (order : SetOrder) (devices : List Device) (t : Tables) :
    pendingTombstones id (documentWork order devices t) =
      if id ∈ tombstoneIds devices t then
        if id ∈ positionedIds devices then
          (withPosition devices).countP fun p => decide (p.device.id = id)
        else 1
      else 0 := by
  have honline : ∀ id', id' ∈ tombstoneIds devices t → id' ∉ onlineIds devices := fun id' h =>
    notMem_offlineCandidates (Finset.mem_sdiff.mp h).1
  have hentries : (((withPosition devices).filter fun p =>
      decide (p.device.id ∈ onlineIds devices ∨ p.device.id ∈ tombstoneIds devices t)).map
        (fun p => DeviceWork.status p (decide (p.device.id ∈ onlineIds devices)))).countP
          (DeviceWork.tombstoneOf id) =
      if id ∈ tombstoneIds devices t then
        (withPosition devices).countP fun p => decide (p.device.id = id) else 0 := by
    rw [countP_map, countP_filter]
    split
    next htomb =>
      refine countP_congr fun p _ => ?_
      have hoffline := honline id htomb
      simp only [Function.comp_apply, DeviceWork.tombstoneOf, Bool.and_eq_true, decide_eq_true_iff,
        Bool.not_eq_true', decide_eq_false_iff_not]
      constructor
      · exact fun h => h.1.1
      · rintro rfl
        exact ⟨⟨rfl, hoffline⟩, .inr htomb⟩
    next htomb =>
      rw [countP_eq_zero]
      intro p _ h
      simp only [Function.comp_apply, DeviceWork.tombstoneOf, Bool.and_eq_true, decide_eq_true_iff,
        Bool.not_eq_true', decide_eq_false_iff_not] at h
      obtain ⟨⟨rfl, hoffline⟩, hkept⟩ := h
      exact hkept.elim hoffline htomb
  have hmissing : ((order.toList (tombstoneIds devices t \ positionedIds devices)).map fun id' =>
      DeviceWork.missing id' ((t.positions.get? id').getD (0, 0)).1
        ((t.positions.get? id').getD (0, 0)).2).countP (DeviceWork.tombstoneOf id) =
      if id ∈ tombstoneIds devices t \ positionedIds devices then 1 else 0 := by
    have hcount : (order.toList (tombstoneIds devices t \ positionedIds devices)).count id =
        if id ∈ order.toList (tombstoneIds devices t \ positionedIds devices) then 1 else 0 :=
      (order.nodup _).count
    simp only [order.mem] at hcount
    rw [countP_map, ← hcount, List.count]
    exact countP_congr fun id' _ => by simp [DeviceWork.tombstoneOf]
  rw [pendingTombstones, documentWork, countP_append, hentries, hmissing]
  by_cases htomb : id ∈ tombstoneIds devices t
  · by_cases hposition : id ∈ positionedIds devices
    · simp [htomb, hposition]
    · have hnone : (withPosition devices).countP (fun p => decide (p.device.id = id)) = 0 := by
        rw [countP_eq_zero]
        intro p hp h
        refine hposition ?_
        rw [positionedIds, mem_toFinset, ← decide_eq_true_iff.mp h]
        exact mem_map_of_mem hp
      simp [htomb, hposition, hnone]
  · simp [htomb]

/-! ## The invariant -/

/-- What holds between the tables, what is still to be put, and what happened. -/
structure Inv (b : Bridge) : Prop where
  latest : latestOnline b.log = b.tables.onlineDevices
  positions : ∀ {id}, b.tables.positions.contains id = true → id ∈ b.tables.onlineDevices
  /-- An online sensor without a position is about to get one. -/
  positioned : ∀ {id}, id ∈ b.tables.onlineDevices → b.tables.positions.contains id = true ∨
    ∃ p, DeviceWork.status p true ∈ b.device ∧ p.device.id = id
  announced : ∀ {id}, id ∈ b.tables.onlineDevices → id ∉ b.tables.offlineAnnounced
  live : ∀ {id work}, work ∈ b.device → work.liveOf id = true → id ∈ b.tables.onlineDevices
  online : ∀ {id}, id ∈ b.tables.onlineDevices →
    tombstonesSince id b.log = 0 ∧ pendingTombstones id b.device = 0
  /-- A sensor that went offline has one tombstone, which was put or is still to be put. -/
  offline : ∀ {id}, Listed id b.log → id ∉ b.tables.onlineDevices →
    tombstonesSince id b.log + pendingTombstones id b.device = 1
  alerts : ∀ {id st}, DetectionWork.put id st ∈ b.detection → st.delete = false ∧ Listed id b.log
  shown : ∀ {id}, ShownLive id b.log → Listed id b.log
  neverRevived : NeverRevived b.log

theorem Inv.oneTombstone {b : Bridge} (hb : Inv b) : OneTombstone b := by
  intro hdevice id hshown hoffline
  rw [hb.latest] at hoffline
  have hone := hb.offline (hb.shown hshown) hoffline
  rw [hdevice] at hone
  exact hone

theorem inv_start : Inv Bridge.start where
  latest := rfl
  positions h := by cases h
  positioned h := by cases h
  announced h := by cases h
  live h := by cases h
  online h := by cases h
  offline h := by
    obtain ⟨_, hmem, -⟩ := h
    cases hmem
  alerts h := by cases h
  shown h := by
    obtain ⟨_, hmem, -⟩ := h
    cases hmem
  neverRevived := by
    intro newer id status older h
    cases newer <;> cases h

/-- Each sensor that goes offline has one position in the document at most. -/
def ListedOnce (devices : List Device) (t : Tables) : Prop :=
  ∀ id ∈ t.onlineDevices, id ∉ onlineIds devices →
    (withPosition devices).countP (fun p => decide (p.device.id = id)) ≤ 1

instance (devices : List Device) (t : Tables) : Decidable (ListedOnce devices t) :=
  inferInstanceAs (Decidable (∀ id ∈ t.onlineDevices, id ∉ onlineIds devices → _ ≤ 1))

/-- A document is not processed that would have two tombstones put for a sensor, and a status that
`run_detections` puts is of a sensor that is online or has its tombstone still to be put. -/
def InOrder (b : Bridge) : Event → Prop
  | .pollDevices (some devices) => b.device = [] → ListedOnce devices b.tables
  | .detection _ =>
    match b.detection with
    | .put id _ :: _ => id ∈ b.tables.onlineDevices ∨ 0 < pendingTombstones id b.device
    | _ => True
  | _ => True

instance (b : Bridge) (event : Event) : Decidable (InOrder b event) := by
  cases event with
  | pollDevices document =>
    cases document with
    | none => exact .isTrue trivial
    | some devices => exact inferInstanceAs (Decidable (b.device = [] → ListedOnce _ _))
  | device now => exact .isTrue trivial
  | pollDetections now document => exact .isTrue trivial
  | detection now =>
    unfold InOrder
    cases b.detection with
    | nil => exact .isTrue trivial
    | cons work works => cases work <;> infer_instance

variable {b : Bridge}

/-! ## A document -/

theorem contains_processDocument (h : (processDocument devices t).positions.contains id = true) :
    t.positions.contains id = true ∧ id ∈ onlineIds devices := by
  simp only [processDocument, PyDict.contains, PyDict.get?_filter] at h
  cases hget : t.positions.get? id with
  | none => simp [hget] at h
  | some position =>
    refine ⟨by simp [PyDict.contains, hget], ?_⟩
    by_contra hgone
    simp [hget, hgone, Option.filter] at h

theorem mem_tombstoneIds (hb : Inv b) (hdevice : b.device = [])
    (honline : id ∈ b.tables.onlineDevices) (hoffline : id ∉ onlineIds devices) :
    id ∈ tombstoneIds devices b.tables := by
  have hcandidate : id ∈ offlineCandidates devices b.tables := by
    rw [offlineCandidates, Finset.mem_union]
    by_cases hposition : id ∈ positionedIds devices
    · rw [positionedIds, mem_toFinset, mem_map] at hposition
      obtain ⟨p, hp, rfl⟩ := hposition
      refine .inl (mem_toFinset.mpr (mem_map_of_mem (mem_filter.mpr ⟨hp, ?_⟩)))
      exact decide_eq_true ⟨hoffline, honline⟩
    · refine .inr (mem_toFinset.mpr (mem_filter.mpr ⟨?_, ?_⟩))
      · rcases hb.positioned honline with hcontains | ⟨p, hp, -⟩
        · exact PyDict.contains_iff.mp hcontains
        · rw [hdevice] at hp
          cases hp
      · exact decide_eq_true ⟨hoffline, hposition⟩
  exact Finset.mem_sdiff.mpr ⟨hcandidate, fun h =>
    hb.announced honline (Finset.mem_sdiff.mp h).1⟩

theorem notMem_tombstoneIds (hb : Inv b) (hoffline : id ∉ b.tables.onlineDevices) :
    id ∉ tombstoneIds devices b.tables := by
  intro h
  have hcandidate := (Finset.mem_sdiff.mp h).1
  rw [offlineCandidates, Finset.mem_union, mem_toFinset, mem_toFinset, mem_map,
    mem_filter] at hcandidate
  rcases hcandidate with ⟨p, hp, rfl⟩ | ⟨hposition, -⟩
  · exact hoffline (decide_eq_true_iff.mp (mem_filter.mp hp).2).2
  · exact hoffline (hb.positions (PyDict.contains_iff.mpr hposition))

/-- A sensor that goes offline with a document has one tombstone to be put. -/
theorem pendingTombstones_goesOffline (order : SetOrder) (hb : Inv b) (hdevice : b.device = [])
    (honce : ListedOnce devices b.tables) (honline : id ∈ b.tables.onlineDevices)
    (hoffline : id ∉ onlineIds devices) :
    pendingTombstones id (documentWork order devices b.tables) = 1 := by
  rw [pendingTombstones_documentWork, if_pos (mem_tombstoneIds hb hdevice honline hoffline)]
  split
  next hposition =>
    rw [positionedIds, mem_toFinset, mem_map] at hposition
    obtain ⟨p, hp, rfl⟩ := hposition
    refine le_antisymm (honce _ honline hoffline) (countP_pos_iff.mpr ⟨p, hp, ?_⟩)
    exact decide_eq_true rfl
  next => rfl

theorem liveOf_documentWork {order : SetOrder} {work : DeviceWork}
    (hwork : work ∈ documentWork order devices t) (hlive : work.liveOf id = true) :
    id ∈ onlineIds devices := by
  rw [documentWork, mem_append, mem_map, mem_map] at hwork
  rcases hwork with ⟨p, -, rfl⟩ | ⟨id', -, rfl⟩
  · simp only [DeviceWork.liveOf, Bool.and_eq_true, decide_eq_true_iff] at hlive
    rw [← hlive.1]
    exact hlive.2
  · cases hlive

theorem status_mem_documentWork (order : SetOrder) (t : Tables) (h : id ∈ onlineIds devices) :
    ∃ p, .status p true ∈ documentWork order devices t ∧ p.device.id = id := by
  have hid := h
  rw [onlineIds, mem_toFinset, mem_map] at hid
  obtain ⟨p, hp, rfl⟩ := hid
  refine ⟨p, mem_append_left _ (mem_map.mpr ⟨p, ?_, ?_⟩), rfl⟩
  · exact mem_filter.mpr ⟨mem_of_mem_filter hp, decide_eq_true (.inl h)⟩
  · rw [decide_eq_true h]

theorem inv_document (order : SetOrder) (hb : Inv b) (hdevice : b.device = [])
    (honce : ListedOnce devices b.tables) :
    Inv { b with
      tables := processDocument devices b.tables
      device := documentWork order devices b.tables
      log := .document devices :: b.log } where
  latest := rfl
  positions h := (contains_processDocument h).2
  positioned h := .inr (status_mem_documentWork order b.tables h)
  announced := by
    intro id honline hannounced
    rcases Finset.mem_union.mp hannounced with hold | hnew
    · exact (Finset.mem_sdiff.mp hold).2 honline
    · exact notMem_offlineCandidates (Finset.mem_sdiff.mp hnew).1 honline
  live := liveOf_documentWork
  online := by
    intro id honline
    have hnone : id ∉ tombstoneIds devices b.tables := fun h =>
      notMem_offlineCandidates (Finset.mem_sdiff.mp h).1 honline
    exact ⟨if_pos honline, by rw [pendingTombstones_documentWork, if_neg hnone]⟩
  offline := by
    intro id hlisted hoffline
    have hlisted : Listed id b.log := (listed_document.mp hlisted).resolve_left hoffline
    have hsince : tombstonesSince id (.document devices :: b.log) = tombstonesSince id b.log :=
      if_neg hoffline
    rw [hsince]
    by_cases honline : id ∈ b.tables.onlineDevices
    · rw [(hb.online honline).1,
        pendingTombstones_goesOffline order hb hdevice honce honline hoffline]
    · have hone := hb.offline hlisted honline
      rw [hdevice] at hone
      rw [pendingTombstones_documentWork, if_neg (notMem_tombstoneIds hb honline)]
      exact hone
  alerts h := ⟨(hb.alerts h).1, (hb.alerts h).2.cons _⟩
  shown h := (hb.shown (shownLive_document h)).cons _
  neverRevived := neverRevived_cons hb.neverRevived fun _ _ h => by cases h

/-! ## Puts -/

theorem Inv.listed (hb : Inv b) (h : id ∈ b.tables.onlineDevices) : Listed id b.log :=
  listed_of_latestOnline (hb.latest ▸ h)

/-- `run_devices` puts a status. -/
theorem inv_putDevice (hb : Inv b) {work : DeviceWork} {works : List DeviceWork} {id : String}
    (hdevice : b.device = work :: works)
    (htomb : ∀ id', work.tombstoneOf id' = (decide (id = id') && st.delete))
    (hlive : ∀ id', work.liveOf id' = (decide (id = id') && st.isOnline))
    (hstatus : ∀ p, work ≠ .status p true) :
    Inv { b with device := works, log := .put id st :: b.log } := by
  have hsum : ∀ id', tombstonesSince id' (.put id st :: b.log) + pendingTombstones id' works =
      tombstonesSince id' b.log + pendingTombstones id' b.device := by
    intro id'
    rw [hdevice, pendingTombstones, pendingTombstones, countP_cons, htomb]
    simp only [tombstonesSince, Bool.and_eq_true, decide_eq_true_iff]
    omega
  have honline : st.isOnline = true → id ∈ b.tables.onlineDevices := by
    intro hst
    refine hb.live (hdevice ▸ mem_cons_self) ?_
    rw [hlive, hst, decide_eq_true rfl]
    rfl
  constructor
  case latest => exact hb.latest
  case positions => exact hb.positions
  case positioned =>
    intro id' h
    rcases hb.positioned h with hcontains | ⟨p, hp, hid⟩
    · exact .inl hcontains
    · rw [hdevice] at hp
      cases hp with
      | head => exact absurd rfl (hstatus p)
      | tail _ hp => exact .inr ⟨p, hp, hid⟩
  case announced => exact hb.announced
  case live =>
    intro id' work' hwork hlive'
    exact hb.live (hdevice ▸ mem_cons_of_mem _ hwork) hlive'
  case online =>
    intro id' h
    have hclean := hb.online h
    have heq := hsum id'
    show tombstonesSince id' (.put id st :: b.log) = 0 ∧ pendingTombstones id' works = 0
    omega
  case offline =>
    intro id' hlisted hoffline
    show tombstonesSince id' (.put id st :: b.log) + pendingTombstones id' works = 1
    rw [hsum]
    exact hb.offline (listed_put.mp hlisted) hoffline
  case alerts =>
    intro id' st' h
    exact ⟨(hb.alerts h).1, (hb.alerts h).2.cons _⟩
  case shown =>
    intro id' h
    rcases shownLive_put h with hold | ⟨rfl, hst⟩
    · exact (hb.shown hold).cons _
    · exact (hb.listed (honline hst)).cons _
  case neverRevived =>
    refine neverRevived_cons hb.neverRevived fun id' st' heq hst => ?_
    cases heq
    exact (hb.online (honline hst)).1

/-- `run_detections` puts the status of a sensor that is online or has its tombstone still to be
put. -/
theorem inv_putAlert (hb : Inv b) {id : String} {works : List DetectionWork}
    (hdetection : b.detection = .put id st :: works)
    (hid : id ∈ b.tables.onlineDevices ∨ 0 < pendingTombstones id b.device) :
    Inv { b with detection := works, log := .put id st :: b.log } := by
  obtain ⟨hdelete, hlisted⟩ := @hb.alerts id st (hdetection ▸ mem_cons_self)
  have hsince : ∀ id', tombstonesSince id' (.put id st :: b.log) = tombstonesSince id' b.log := by
    intro id'
    simp [tombstonesSince, hdelete]
  refine { hb with
    online := ?online, offline := ?offline, alerts := ?alerts, shown := ?shown
    neverRevived := ?neverRevived }
  case online =>
    intro id' h
    rw [hsince]
    exact hb.online h
  case offline =>
    intro id' hlisted' hoffline
    rw [hsince]
    exact hb.offline (listed_put.mp hlisted') hoffline
  case alerts =>
    intro id' st' h
    have hold := hb.alerts (hdetection ▸ mem_cons_of_mem _ h)
    exact ⟨hold.1, hold.2.cons _⟩
  case shown =>
    intro id' h
    rcases shownLive_put h with hold | ⟨rfl, -⟩
    · exact (hb.shown hold).cons _
    · exact hlisted.cons _
  case neverRevived =>
    refine neverRevived_cons hb.neverRevived fun id' st' heq _ => ?_
    cases heq
    by_cases honline : id ∈ b.tables.onlineDevices
    · exact (hb.online honline).1
    · have hone := hb.offline hlisted honline
      have hpending := hid.resolve_left honline
      omega

/-! ## Steps -/

/-- What `run_detections` does without a put leaves what `run_devices` relies on. -/
theorem Inv.detecting (hb : Inv b) {works : List DetectionWork} {seen : PyDict String Rat}
    (hpositions : t.positions = b.tables.positions)
    (honline : t.onlineDevices = b.tables.onlineDevices)
    (hannounced : t.offlineAnnounced = b.tables.offlineAnnounced)
    (hworks : ∀ id st, .put id st ∈ works → st.delete = false ∧ Listed id b.log) :
    Inv { b with tables := t, detection := works, seen := seen } where
  latest := hb.latest.trans honline.symm
  positions h := honline ▸ hb.positions (hpositions ▸ h)
  positioned h := hpositions ▸ hb.positioned (honline ▸ h)
  announced h := hannounced ▸ hb.announced (honline ▸ h)
  live hwork h := honline ▸ hb.live hwork h
  online h := hb.online (honline ▸ h)
  offline hlisted hoffline := hb.offline hlisted (honline ▸ hoffline)
  alerts := hworks _ _
  shown := hb.shown
  neverRevived := hb.neverRevived

theorem inv_deviceStep (F : FloatMath) (now : Rat) (hb : Inv b) : Inv (b.deviceStep F now) := by
  unfold Bridge.deviceStep
  split
  next => exact hb
  next p isOnline works hdevice =>
    have htomb : ∀ id', pendingTombstones id'
        (.put p.device.id (deviceStatus F p isOnline b.tables now) :: works) =
          pendingTombstones id' b.device := by
      intro id'
      rw [hdevice, pendingTombstones, pendingTombstones, countP_cons, countP_cons]
      rfl
    have hsection : ∀ id', (statusSection p isOnline b.tables).positions.contains id' = true ↔
        (id' = p.device.id ∧ isOnline = true) ∨ b.tables.positions.contains id' = true := by
      intro id'
      cases isOnline with
      | true => simp [statusSection, PyDict.contains_set]
      | false => simp [statusSection]
    have honline : (statusSection p isOnline b.tables).onlineDevices = b.tables.onlineDevices := by
      cases isOnline <;> rfl
    have hannounced : (statusSection p isOnline b.tables).offlineAnnounced =
        b.tables.offlineAnnounced := by
      cases isOnline <;> rfl
    have hlive : ∀ {id' work}, work ∈ DeviceWork.put p.device.id
        (deviceStatus F p isOnline b.tables now) :: works → work.liveOf id' = true →
          id' ∈ b.tables.onlineDevices := by
      intro id' work hwork hlive
      cases hwork with
      | head =>
        have hmem : DeviceWork.status p isOnline ∈ b.device := hdevice ▸ mem_cons_self
        exact hb.live hmem hlive
      | tail _ hwork => exact hb.live (hdevice ▸ .tail _ hwork) hlive
    constructor
    case latest => exact hb.latest.trans honline.symm
    case positions =>
      intro id' h
      rw [honline]
      rcases (hsection id').mp h with ⟨rfl, hflag⟩ | hcontains
      · refine hlive mem_cons_self ?_
        simp [DeviceWork.liveOf, deviceStatus, hflag]
      · exact hb.positions hcontains
    case positioned =>
      intro id' h
      rw [hsection]
      rcases hb.positioned (honline ▸ h) with hcontains | ⟨q, hq, hid⟩
      · exact .inl (.inr hcontains)
      · rw [hdevice] at hq
        cases hq with
        | head => exact .inl (.inl ⟨hid.symm, rfl⟩)
        | tail _ hq => exact .inr ⟨q, .tail _ hq, hid⟩
    case announced =>
      intro id' h
      rw [hannounced]
      exact hb.announced (honline ▸ h)
    case live =>
      intro id' work hwork h
      rw [honline]
      exact hlive hwork h
    case online =>
      intro id' h
      rw [htomb]
      exact hb.online (honline ▸ h)
    case offline =>
      intro id' hlisted hoffline
      rw [htomb]
      exact hb.offline hlisted (honline ▸ hoffline)
    case alerts => exact hb.alerts
    case shown => exact hb.shown
    case neverRevived => exact hb.neverRevived
  next id' st works hdevice =>
    exact inv_putDevice hb hdevice (fun _ => rfl) (fun _ => rfl) (fun _ h => by cases h)
  next id' lat lon works hdevice =>
    refine inv_putDevice hb hdevice (fun _ => ?_) (fun _ => ?_) (fun _ h => by cases h)
    · simp [DeviceWork.tombstoneOf, missingStatus]
    · simp [DeviceWork.liveOf, missingStatus]

theorem notMem_readDetections {F : FloatMath} {apiBase : String} {now : Rat}
    (detections : List Detection) (seen : PyDict String Rat) (touched : Finset String) :
    .put id st ∉ (readDetections F apiBase now detections seen touched).1 := by
  induction detections generalizing seen touched with
  | nil => simp [readDetections]
  | cons det detections ih =>
    rw [readDetections]
    split
    next => exact ih _ _
    next =>
      split
      next => exact ih _ _
      next =>
        split
        next => exact ih _ _
        next =>
          intro h
          cases h with
          | tail _ h => exact ih _ _ h

theorem inv_detectionStep (F : FloatMath) (now : Rat) (hb : Inv b)
    (horder : InOrder b (.detection now)) : Inv (b.detectionStep F now) := by
  have htail : ∀ {work works}, b.detection = work :: works → ∀ id st,
      .put id st ∈ works → st.delete = false ∧ Listed id b.log := fun hdetection id st h =>
    hb.alerts (hdetection ▸ .tail _ h)
  unfold Bridge.detectionStep
  split
  next => exact hb
  next id' ts url works hdetection =>
    refine hb.detecting rfl rfl rfl fun id st h => ?_
    cases h with
    | tail _ h => exact htail hdetection id st h
  next id' ts url works hdetection =>
    dsimp only
    cases b.tables.positions.get? id' with
    | none => exact hb.detecting rfl rfl rfl (htail hdetection)
    | some position =>
      dsimp only
      by_cases honline : id' ∈ b.tables.onlineDevices
      · rw [if_pos honline]
        refine hb.detecting rfl rfl rfl fun id st h => ?_
        cases h with
        | head => exact ⟨rfl, hb.listed honline⟩
        | tail _ h => exact htail hdetection id st h
      · rw [if_neg honline]
        exact hb.detecting rfl rfl rfl (htail hdetection)
  next id' st works hdetection =>
    rw [InOrder, hdetection] at horder
    exact inv_putAlert hb hdetection horder
  next cycle touched works hdetection =>
    refine hb.detecting rfl rfl rfl fun id st h => ?_
    rcases mem_append.mp h with hcool | h
    · obtain ⟨_, -, hcool⟩ := mem_map.mp hcool
      cases hcool
    · exact htail hdetection id st h
  next id' works hdetection =>
    split
    next => exact hb.detecting rfl rfl rfl (htail hdetection)
    next =>
      refine hb.detecting rfl rfl rfl fun id st h => ?_
      cases h with
      | tail _ h => exact htail hdetection id st h

theorem inv_next (F : FloatMath) (order : SetOrder) (apiBase : String) (hb : Inv b) (event : Event)
    (horder : InOrder b event) : Inv (b.next F order apiBase event) := by
  cases event with
  | pollDevices document =>
    cases document with
    | none => exact hb
    | some devices =>
      simp only [Bridge.next]
      split
      next hdevice =>
        have hdevice := isEmpty_iff.mp hdevice
        exact inv_document order hb hdevice (horder hdevice)
      next => exact hb
  | device now => exact inv_deviceStep F now hb
  | pollDetections now document =>
    simp only [Bridge.next]
    split
    next =>
      refine hb.detecting rfl rfl rfl fun id st h => ?_
      rcases mem_append.mp h with h | h
      · exact absurd h (notMem_readDetections _ _ _)
      · cases mem_singleton.mp h
    next => exact hb
  | detection now => exact inv_detectionStep F now hb horder

/-! ## Runs -/

/-- No sensor is revived and each one that went offline has one tombstone. -/
def Safe (b : Bridge) : Prop := NeverRevived b.log ∧ OneTombstone b

/-- In every run in order no sensor is revived, and a sensor that was shown live and is not online
in the latest document has one tombstone. -/
theorem never_revived (F : FloatMath) (order : SetOrder) (apiBase : String) (events : List Event)
    (horder : Guarded (Bridge.next F order apiBase) InOrder Bridge.start events) :
    Always (Bridge.next F order apiBase) Safe Bridge.start events :=
  (always_of_guarded (P := Inv) (fun _ event hb he => inv_next F order apiBase hb event he)
    inv_start horder).imp fun _ hb => ⟨hb.neverRevived, hb.oneTombstone⟩

/-- Sets gone through in the order of the ids. -/
def byId : SetOrder where
  toList ids := ids.val.liftOn (fun l => l.insertionSort (· ≤ ·)) fun l l' (hperm : l.Perm l') =>
    List.Perm.eq_of_sortedLE List.sortedLE_insertionSort List.sortedLE_insertionSort
      (((List.perm_insertionSort _ l).trans hperm).trans (List.perm_insertionSort _ l').symm)
  nodup := by
    rintro ⟨⟨l⟩, hnodup⟩
    exact (List.perm_insertionSort _ l).nodup_iff.mpr hnodup
  mem := by
    rintro ⟨⟨l⟩, _⟩ id
    exact (List.perm_insertionSort _ l).mem_iff

/-- A sensor of a document. -/
def listed (isOnline : Bool) : Device := ⟨"a", none, some 54, some 25, isOnline, none⟩

/-- A detection of the sensor, which is polled when it was just recorded. -/
def heard : Detection := ⟨"d", 0, "a", false⟩

/-- The sensor is shown live by both threads, and then goes offline. -/
def shownThenOffline : List Event :=
  [.pollDevices (some [listed true]), .device 0, .device 0, .pollDetections 0 (some [heard]),
    .detection 0, .detection 0, .detection 0, .pollDevices (some [listed false]), .device 0,
    .device 0, .detection 0]

theorem shownThenOffline_safe :
    Guarded (Bridge.next exactMath byId "") InOrder Bridge.start shownThenOffline ∧
      Always (Bridge.next exactMath byId "") Safe Bridge.start shownThenOffline ∧
      tombstonesSince "a" (final (Bridge.next exactMath byId "") Bridge.start
        shownThenOffline).log = 1 := by
  have hguard : Guarded (Bridge.next exactMath byId "") InOrder Bridge.start shownThenOffline := by
    decide +kernel
  exact ⟨hguard, never_revived exactMath byId "" shownThenOffline hguard, by decide +kernel⟩

/-- `run_detections` looks whether the sensor is online, the sensor goes offline, and then its status
is put. -/
def putAfterTombstone : List Event :=
  [.pollDevices (some [listed true]), .device 0, .device 0, .pollDetections 0 (some [heard]),
    .detection 0, .detection 0, .pollDevices (some [listed false]), .device 0, .device 0,
    .detection 0]

/-- A sensor goes offline with a document that lists it twice. -/
def listedTwice : List Event :=
  [.pollDevices (some [listed true]), .device 0, .device 0,
    .pollDevices (some [listed false, listed false]), .device 0, .device 0, .device 0, .device 0]

theorem revived_or_announced_twice :
    ¬ NeverRevived (final (Bridge.next exactMath byId "") Bridge.start putAfterTombstone).log ∧
      ¬ OneTombstone (final (Bridge.next exactMath byId "") Bridge.start listedTwice) := by
  constructor
  · decide +kernel
  · intro h
    have hone := h (by decide +kernel) "a" (by decide +kernel) (by decide +kernel)
    revert hone
    decide +kernel

end Efdi.Mainline
