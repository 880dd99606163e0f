import Efdi.Base.Runs
import Efdi.Tak.CotEvents
import Mathlib.Tactic.Linarith

/-!
# Positions and emergencies of TAK clients

The receive loop of the TAK bridge remembers the last position of every client and publishes it,
and it keeps the open emergency of every client.  A frame that opens or cancels an emergency repeats
the remembered position at once.  A second thread repeats all remembered positions from time to
time: it takes a snapshot under the lock and publishes it outside of it.

What is remembered always carries the open emergency (`Kept.known`).  Two things go wrong.  An
emergency repeats a position with all of its stale time, however old it is, where the second thread
counts down.  And the snapshot is published after newer positions that came in between.  Without
these two all is in step (`inStep_iff_timely`).
-/

namespace Efdi.Tak.Clients

open Cot Runs List PyDict Option

/-! ## The two loops -/

/-- A value of `known`, with the number of the position.  The topic is that of the event. -/
structure Held where
  record : Record
  received : Rat
  number : Nat

/-- `_DEFAULT_STALE_S`. -/
def defaultStaleS : Rat := 300

/-- `float(record.get("stale_s") or _DEFAULT_STALE_S)`. -/
def staleOf (record : Record) : Rat :=
  match record.staleS with
  | some stale => if stale = 0 then defaultStaleS else stale
  | none => defaultStaleS

/-- How long a remembered position may still be repeated. -/
def Held.left (held : Held) (now : Rat) : Rat := held.received + staleOf held.record - now

/-- A record on its way to `publish_dual`, with the number of its position and the remembered
position that it repeats. -/
structure Sample where
  record : Record
  number : Nat
  repeats : Option Held

/-- Where the receive loop stands with a frame. -/
inductive Loop where
  | idle
  | heard (event : Element)
  | remembered (held : Held)

/-- The three maps of `run`, counting the snapshot of the second thread, with the samples that were
published, the last in front, and the frames that were read. -/
structure State where
  known : PyDict String Held
  emergencies : PyDict String String
  due : List Sample
  loop : Loop
  samples : List Sample
  frames : List Element
  count : Nat

/-- Nothing was received. -/
def start : State := ⟨PyDict.empty, PyDict.empty, [], .idle, [], [], 0⟩

variable (emergencies : PyDict String String)

/-- `emergencies[client] = text`, or the `pop` for an emergency that is cancelled. -/
def note (client : String) (text : Option String) :
    PyDict String String :=
  match text with
  | some text => emergencies.set client text
  | none => emergencies.pop client

/-- The first half of a frame in `run`: its emergency.  A call of `publish_dual` that raises ends
the frame. -/
def State.alarm (s : State) (event : Element) (now : Rat) (sent : Bool) : State :=
  match emergency event with
  | none => { s with loop := .heard event, frames := event :: s.frames }
  | some (client, text) =>
    let heard : State :=
      { s with
        emergencies := note s.emergencies client text
        loop := .heard event
        frames := event :: s.frames }
    match s.known.get? client with
    | none => heard
    | some held =>
      let record := { held.record with emergencyStr := text }
      { heard with
        known := s.known.set client { held with record }
        samples := ⟨{ record with ts := now }, held.number, some held⟩ :: s.samples
        loop := if sent then .heard event else .idle }

/-- The record of a position, with the emergency of its client when one is open. -/
def carry (record : Record) : Record :=
  match emergencies.get? record.uid with
  | some text => { record with emergencyStr := some text }
  | none => record

/-- The second half of a frame: its position is remembered. -/
def State.position (lib : Lib) (s : State) (event : Element) (created now received : Rat) : State :=
  match lib.normalizeEvent event created now with
  | none => { s with loop := .idle }
  | some record =>
    let record := carry s.emergencies record
    let held : Held := ⟨record, received, s.count⟩
    { s with
      known := s.known.set record.uid held
      loop := .remembered held
      count := s.count + 1 }

/-- `_due_republish`: what is left of the remembered positions, and the samples to publish. -/
def dueRepublish (known : PyDict String Held) (now : Rat) : PyDict String Held × List Sample :=
  (known.filter fun _ held => decide (0 < held.left now),
    (known.entries.map Prod.snd).filterMap fun held =>
      if held.left now ≤ 0 then none
      else some ⟨{ held.record with ts := now, staleS := some (held.left now) }, held.number,
        some held⟩)

/-- What one of the two threads does next.  The receive loop alone uses `emergencies`, so it uses
the lock at most once in a step. -/
inductive Action where
  /-- The receive loop takes a frame and hears its emergency. -/
  | frame (event : Element) (now : Rat) (sent : Bool)
  /-- It remembers the position of the frame. -/
  | position (created now received : Rat)
  /-- It publishes the position. -/
  | publish
  /-- The second thread takes its snapshot. -/
  | snapshot (now : Rat)
  /-- It publishes the next record of its snapshot. -/
  | republish

def step (lib : Lib) (s : State) : Action → State
  | .frame event now sent =>
    match s.loop with
    | .idle => if localName event.tag = "event" then s.alarm event now sent else s
    | _ => s
  | .position created now received =>
    match s.loop with
    | .heard event => s.position lib event created now received
    | _ => s
  | .publish =>
    match s.loop with
    | .remembered held =>
      { s with loop := .idle, samples := ⟨held.record, held.number, none⟩ :: s.samples }
    | _ => s
  | .snapshot now =>
    match s.due with
    | [] => { s with known := (dueRepublish s.known now).1, due := (dueRepublish s.known now).2 }
    | _ => s
  | .republish =>
    match s.due with
    | [] => s
    | sample :: due => { s with due, samples := sample :: s.samples }

/-! ## What it is for -/

/-- The open emergency of a client after some frames, the last in front: that of the last frame that
is about the client. -/
def openEmergency (client : String) : List Element → Option String
  | [] => none
  | event :: frames =>
    match emergency event with
    | some (other, text) => if other = client then text else openEmergency client frames
    | none => openEmergency client frames

/-- A remembered position is repeated before its stale time is over, with the stale time that is
left. -/
def Sample.InTime (sample : Sample) : Prop :=
  ∀ held, sample.repeats = some held → 0 < held.left sample.record.ts ∧
    sample.record.staleS = some (held.left sample.record.ts)

/-- A later sample of the same client is not of an earlier position. -/
def Sample.Follows (later earlier : Sample) : Prop :=
  earlier.record.uid = later.record.uid → earlier.number ≤ later.number

/-- What is remembered carries the open emergency, what is repeated is in time, and the samples of a
client do not go back. -/
structure InStep (s : State) : Prop where
  emergencies : ∀ uid held, s.known.get? uid = some held →
    held.record.emergencyStr = openEmergency uid s.frames
  inTime : ∀ sample ∈ s.samples, sample.InTime
  forward : s.samples.Pairwise Sample.Follows

/-- The remembered position that a frame repeats. -/
def State.repeated (s : State) (event : Element) : Option Held :=
  (emergency event).bind fun alarm => s.known.get? alarm.1

/-- An emergency repeats a position only at the time at which it was received, when it has a stale
time.  No newer position was published before one of the snapshot. -/
def Timely (s : State) : Action → Prop
  | .frame event now _ =>
    match s.loop with
    | .idle => localName event.tag = "event" → ∀ held, s.repeated event = some held →
        held.record.staleS ≠ none ∧ now = held.received
    | _ => True
  | .republish =>
    match s.due with
    | [] => True
    | sample :: _ => ∀ earlier ∈ s.samples, sample.Follows earlier
  | _ => True

/-! ## What every run keeps -/

/-- The samples of the snapshot and those that were published. -/
def State.outgoing (s : State) : List Sample := s.due ++ s.samples

/-- What is remembered of a client: it carries the open emergency, and no sample of the client is of
a later position. -/
structure Keeps (s : State) (uid : String) (held : Held) : Prop where
  named : held.record.uid = uid
  carries : held.record.emergencyStr = s.emergencies.get? uid
  stale : ∀ stale, held.record.staleS = some stale → 1 ≤ stale
  number : held.number < s.count
  latest : ∀ sample ∈ s.outgoing, sample.record.uid = uid → sample.number ≤ held.number

structure Kept (s : State) : Prop where
  opened : ∀ client, s.emergencies.get? client = openEmergency client s.frames
  known : ∀ uid held, s.known.get? uid = some held → Keeps s uid held
  outgoing : ∀ sample ∈ s.outgoing, sample.number < s.count
  inTime : ∀ sample ∈ s.due, sample.InTime
  remembered : ∀ held, s.loop = .remembered held → held.number + 1 = s.count ∧
    ∀ other, s.known.get? held.record.uid = some other → other.number = held.number

variable {lib : Lib} {s t : State} {event : Element} {now created received : Rat} {sent : Bool}
  {uid client : String} {text : Option String} {held : Held} {sample : Sample}

theorem kept_start : Kept start where
  opened _ := rfl
  known _ _ h := nomatch h
  outgoing _ h := nomatch h
  inTime _ h := nomatch h
  remembered _ h := nomatch h

theorem inStep_start : InStep start where
  emergencies _ _ h := nomatch h
  inTime _ h := nomatch h
  forward := List.Pairwise.nil

theorem mem_outgoing_cons {due samples : List Sample} {other : Sample} :
    other ∈ due ++ sample :: samples ↔ other = sample ∨ other ∈ due ++ samples := by
  rw [mem_append, mem_cons, mem_append]
  tauto

/-- What is remembered stays as good when its emergency stays and no later position goes out. -/
theorem Keeps.of (h : Keeps s uid held) (hcarries : t.emergencies.get? uid = s.emergencies.get? uid)
    (hcount : s.count ≤ t.count)
    (houtgoing : ∀ sample ∈ t.outgoing, sample.record.uid = uid →
      sample ∈ s.outgoing ∨ sample.number ≤ held.number) : Keeps t uid held where
  named := h.named
  carries := h.carries.trans hcarries.symm
  stale := h.stale
  number := h.number.trans_le hcount
  latest sample hsample hsame :=
    (houtgoing sample hsample hsame).elim (fun hold => h.latest sample hold hsame) id

theorem get?_note (client other : String) (text : Option String) :
    (note emergencies client text).get? other =
      if client = other then text else emergencies.get? other := by
  by_cases hother : client = other
  · subst hother
    rw [if_pos rfl]
    cases text with
    | none => exact get?_pop_self _ _
    | some text => exact get?_set_self _ _ _
  · rw [if_neg hother]
    cases text with
    | none => exact get?_pop_of_ne _ (Ne.symm hother)
    | some text => exact get?_set_of_ne _ (Ne.symm hother) _

/-- The map has the open emergencies also after a frame that is about a client. -/
theorem opened_note (h : ∀ other, s.emergencies.get? other = openEmergency other s.frames)
    (hevent : emergency event = some (client, text)) (other : String) :
    (note s.emergencies client text).get? other = openEmergency other (event :: s.frames) := by
  rw [get?_note, openEmergency, hevent, h]

theorem opened_of_none (h : ∀ other, s.emergencies.get? other = openEmergency other s.frames)
    (hevent : emergency event = none) (other : String) :
    s.emergencies.get? other = openEmergency other (event :: s.frames) := by
  rw [openEmergency, hevent, h]

/-! ### The steps -/

theorem Kept.alarm (h : Kept s) (event : Element) (now : Rat) (sent : Bool) :
    Kept (s.alarm event now sent) := by
  rw [State.alarm]
  cases hevent : emergency event with
  | none =>
    refine ⟨opened_of_none h.opened hevent, fun uid held hheld => ?_, h.outgoing, h.inTime,
      fun _ hloop => by cases hloop⟩
    exact (h.known uid held hheld).of rfl (Nat.le_refl _) fun _ hsample _ => .inl hsample
  | some alarm =>
    obtain ⟨client, text⟩ := alarm
    simp only
    cases hclient : s.known.get? client with
    | none =>
      refine ⟨opened_note h.opened hevent, fun uid held hheld => ?_, h.outgoing, h.inTime,
        fun _ hloop => by cases hloop⟩
      have hne : client ≠ uid := by
        rintro rfl
        cases hclient.symm.trans hheld
      refine (h.known uid held hheld).of ?_ (Nat.le_refl _) fun _ hsample _ => .inl hsample
      rw [get?_note, if_neg hne]
    | some held =>
      have hheld := h.known client held hclient
      refine ⟨opened_note h.opened hevent, fun uid other hother => ?_, ?_, h.inTime, ?_⟩
      · by_cases hne : uid = client
        · subst hne
          rw [get?_set_self] at hother
          obtain rfl := some.inj hother
          refine ⟨hheld.named, ?_, hheld.stale, hheld.number, fun sample hsample hsame => ?_⟩
          · rw [get?_note, if_pos rfl]
          · rcases mem_outgoing_cons.mp hsample with rfl | hsample
            · exact Nat.le_refl _
            · exact hheld.latest sample hsample hsame
        · rw [get?_set_of_ne _ hne] at hother
          refine (h.known uid other hother).of ?_ (Nat.le_refl _) fun sample hsample hsame => ?_
          · rw [get?_note, if_neg (Ne.symm hne)]
          · rcases mem_outgoing_cons.mp hsample with rfl | hsample
            · exact absurd (hsame.symm.trans hheld.named) hne
            · exact .inl hsample
      · intro sample hsample
        rcases mem_outgoing_cons.mp hsample with rfl | hsample
        · exact hheld.number
        · exact h.outgoing sample hsample
      · intro other hloop
        cases sent <;> cases hloop

@[simp] theorem uid_carry (record : Record) :
    (carry emergencies record).uid = record.uid := by
  rw [carry]
  split <;> rfl

@[simp] theorem staleS_carry (record : Record) :
    (carry emergencies record).staleS = record.staleS := by
  rw [carry]
  split <;> rfl

theorem emergencyStr_carry {record : Record} (h : record.emergencyStr = none)
    (emergencies : PyDict String String) :
    (carry emergencies record).emergencyStr = emergencies.get? record.uid := by
  rw [carry]
  cases hopen : emergencies.get? record.uid with
  | none => exact h
  | some text => rfl

theorem Kept.position (h : Kept s) (event : Element) (created now received : Rat) :
    Kept (s.position lib event created now received) := by
  rw [State.position]
  cases hrecord : lib.normalizeEvent event created now with
  | none =>
    refine ⟨h.opened, fun uid held hheld => ?_, h.outgoing, h.inTime,
      fun _ hloop => nomatch hloop⟩
    exact (h.known uid held hheld).of rfl (Nat.le_refl _) fun _ hsample _ => .inl hsample
  | some record =>
    obtain ⟨hnone, hstale⟩ := normalizeEvent_eq_some hrecord
    have hold : ∀ sample ∈ s.outgoing, sample.number < s.count + 1 := fun sample hsample =>
      Nat.lt_succ_of_lt (h.outgoing sample hsample)
    refine ⟨h.opened, fun uid held hheld => ?_, hold, h.inTime, fun held hloop => ?_⟩
    · by_cases hne : uid = (carry s.emergencies record).uid
      · subst hne
        rw [get?_set_self] at hheld
        obtain rfl := some.inj hheld
        refine ⟨rfl, ?_, ?_, Nat.lt_succ_self _, fun sample hsample _ => ?_⟩
        · rw [uid_carry]
          exact emergencyStr_carry hnone s.emergencies
        · rw [staleS_carry]
          exact hstale
        · exact Nat.le_of_lt (h.outgoing sample hsample)
      · rw [get?_set_of_ne _ hne] at hheld
        exact (h.known uid held hheld).of rfl (Nat.le_succ _) fun _ hsample _ => .inl hsample
    · obtain rfl := Loop.remembered.inj hloop
      refine ⟨rfl, fun other hother => ?_⟩
      rw [get?_set_self] at hother
      exact congrArg Held.number (some.inj hother).symm

theorem Kept.publish (h : Kept s) (hloop : s.loop = .remembered held) :
    Kept { s with loop := .idle, samples := ⟨held.record, held.number, none⟩ :: s.samples } := by
  obtain ⟨hcount, hlast⟩ := h.remembered held hloop
  refine ⟨h.opened, fun uid other hother => ?_, fun sample hsample => ?_, h.inTime,
    fun _ hidle => nomatch hidle⟩
  · refine (h.known uid other hother).of rfl (Nat.le_refl _) fun sample hsample hsame => ?_
    rcases mem_outgoing_cons.mp hsample with rfl | hsample
    · subst hsame
      exact .inr (Nat.le_of_eq (hlast other hother).symm)
    · exact .inl hsample
  · rcases mem_outgoing_cons.mp hsample with rfl | hsample
    · exact Nat.lt_of_succ_le (Nat.le_of_eq hcount)
    · exact h.outgoing sample hsample

/-- A snapshot keeps some of the positions and has a sample of each. -/
theorem mem_due {known : PyDict String Held} (h : sample ∈ (dueRepublish known now).2) :
    ∃ uid held, known.get? uid = some held ∧ 0 < held.left now ∧
      sample = ⟨{ held.record with ts := now, staleS := some (held.left now) }, held.number,
        some held⟩ := by
  obtain ⟨held, hheld, hsample⟩ := mem_filterMap.mp h
  obtain ⟨⟨uid, _⟩, hentry, rfl⟩ := mem_map.mp hheld
  split_ifs at hsample with hleft
  exact ⟨uid, _, get?_eq_some_iff.mpr hentry, not_le.mp hleft,
    (some.inj hsample).symm⟩

theorem get?_of_due {known : PyDict String Held}
    (h : (dueRepublish known now).1.get? uid = some held) : known.get? uid = some held := by
  rw [dueRepublish, get?_filter] at h
  exact (filter_eq_some_iff.mp h).1

theorem Kept.snapshot (h : Kept s) (hdue : s.due = []) (now : Rat) :
    Kept { s with
      known := (dueRepublish s.known now).1
      due := (dueRepublish s.known now).2 } := by
  have hsamples : s.outgoing = s.samples := by
    rw [State.outgoing, hdue, nil_append]
  refine ⟨h.opened, fun uid held hheld => ?_, fun sample hsample => ?_, fun sample hsample => ?_,
    fun held hloop => ?_⟩
  · have hbefore := get?_of_due hheld
    refine (h.known uid held hbefore).of rfl (Nat.le_refl _) fun sample hsample hsame => ?_
    rcases mem_append.mp hsample with hnew | hold
    · obtain ⟨other, taken, htaken, -, rfl⟩ := mem_due hnew
      obtain rfl := (h.known other taken htaken).named
      obtain rfl := hsame
      exact .inr (Nat.le_of_eq (congrArg Held.number (some.inj (htaken.symm.trans hbefore))))
    · exact .inl (hsamples ▸ hold)
  · rcases mem_append.mp hsample with hnew | hold
    · obtain ⟨uid, held, hheld, -, rfl⟩ := mem_due hnew
      exact (h.known uid held hheld).number
    · exact h.outgoing sample (hsamples ▸ hold)
  · obtain ⟨uid, held, -, hleft, rfl⟩ := mem_due hsample
    intro other hother
    obtain rfl := some.inj hother
    exact ⟨hleft, rfl⟩
  · obtain ⟨hcount, hlast⟩ := h.remembered held hloop
    exact ⟨hcount, fun other hother => hlast other (get?_of_due hother)⟩

theorem Kept.republish (h : Kept s) {due : List Sample} (hdue : s.due = sample :: due) :
    Kept { s with due, samples := sample :: s.samples } := by
  have hout : ∀ other ∈ due ++ sample :: s.samples, other ∈ s.outgoing := by
    intro other hother
    rw [State.outgoing, hdue, cons_append, mem_cons]
    exact mem_outgoing_cons.mp hother
  refine ⟨h.opened, fun uid held hheld => ?_, fun other hother => h.outgoing other (hout _ hother),
    fun other hother => h.inTime other (hdue ▸ .tail _ hother), h.remembered⟩
  exact (h.known uid held hheld).of rfl (Nat.le_refl _) fun other hother _ => .inl (hout _ hother)

theorem Kept.step (h : Kept s) (action : Action) : Kept (step lib s action) := by
  cases action with
  | frame event now sent =>
    simp only [Clients.step]
    split
    · split
      · exact h.alarm event now sent
      · exact h
    · exact h
  | position created now received =>
    simp only [Clients.step]
    split
    · exact h.position _ created now received
    · exact h
  | publish =>
    simp only [Clients.step]
    split
    next held hloop => exact h.publish hloop
    next => exact h
  | snapshot now =>
    simp only [Clients.step]
    split
    next hdue => exact h.snapshot hdue now
    next => exact h
  | republish =>
    simp only [Clients.step]
    split
    next => exact h
    next sample due hdue => exact h.republish hdue

/-! ## Steps that stay in step -/

/-- Only the samples can be out of step. -/
theorem Kept.inStep_iff (h : Kept s) :
    InStep s ↔ (∀ sample ∈ s.samples, sample.InTime) ∧ s.samples.Pairwise Sample.Follows := by
  constructor
  · exact fun hstep => ⟨hstep.inTime, hstep.forward⟩
  · rintro ⟨htime, hforward⟩
    refine ⟨fun uid held hheld => ?_, htime, hforward⟩
    rw [(h.known uid held hheld).carries, h.opened]

/-- A step that publishes a sample. -/
theorem Kept.inStep_cons (h : Kept t) (hs : InStep s) (hsamples : t.samples = sample :: s.samples) :
    InStep t ↔ sample.InTime ∧ ∀ earlier ∈ s.samples, sample.Follows earlier := by
  rw [h.inStep_iff, hsamples, forall_mem_cons, pairwise_cons,
    and_iff_left hs.inTime, and_iff_left hs.forward]

theorem Kept.inStep_of_eq (h : Kept t) (hs : InStep s) (hsamples : t.samples = s.samples) :
    InStep t := by
  rw [h.inStep_iff, hsamples]
  exact ⟨hs.inTime, hs.forward⟩

/-- A position that has a stale time and is repeated at the time it was received is in time, and no
other one that an emergency repeats. -/
theorem inTime_alarm_iff (hstale : ∀ stale, held.record.staleS = some stale → 1 ≤ stale) :
    Sample.InTime ⟨{ held.record with ts := now, emergencyStr := text }, held.number, some held⟩ ↔
      held.record.staleS ≠ none ∧ now = held.received := by
  have hone : Sample.InTime ⟨{ held.record with ts := now, emergencyStr := text }, held.number,
      some held⟩ ↔ 0 < held.left now ∧ held.record.staleS = some (held.left now) :=
    ⟨fun h => h held rfl, fun h other hother => some.inj hother ▸ h⟩
  rw [hone]
  cases hs : held.record.staleS with
  | none => exact iff_of_false (fun h => nomatch h.2) fun h => h.1 rfl
  | some stale =>
    have hpos := hstale stale hs
    have hleft : held.left now = held.received + stale - now := by
      rw [Held.left, staleOf, hs]
      simp only
      rw [if_neg (by linarith)]
    rw [hleft]
    constructor
    · rintro ⟨-, h⟩
      have heq := some.inj h
      exact ⟨fun hnone => (nomatch hnone), by linarith⟩
    · rintro ⟨-, rfl⟩
      exact ⟨by linarith, congrArg some (by linarith)⟩

theorem Kept.alarm_iff (h : Kept s) (hs : InStep s) (event : Element) (now : Rat) (sent : Bool) :
    InStep (s.alarm event now sent) ↔ ∀ held, s.repeated event = some held →
      held.record.staleS ≠ none ∧ now = held.received := by
  have hkept := h.alarm event now sent
  rw [State.repeated]
  rw [State.alarm] at hkept ⊢
  cases hevent : emergency event with
  | none =>
    rw [hevent] at hkept
    exact iff_of_true (hkept.inStep_of_eq hs rfl) fun _ hheld => by cases hheld
  | some alarm =>
    obtain ⟨client, text⟩ := alarm
    rw [hevent] at hkept
    simp only [bind_some] at hkept ⊢
    cases hclient : s.known.get? client with
    | none =>
      rw [hclient] at hkept
      exact iff_of_true (hkept.inStep_of_eq hs rfl) fun _ hheld => by cases hheld
    | some held =>
      rw [hclient] at hkept
      have hheld := h.known client held hclient
      rw [hkept.inStep_cons hs rfl, inTime_alarm_iff hheld.stale, and_iff_left]
      · exact ⟨fun hright other hother => some.inj hother ▸ hright,
          fun hright => hright held rfl⟩
      · intro earlier hearlier hsame
        exact hheld.latest earlier (mem_append_right _ hearlier)
          (hsame.trans hheld.named)

theorem Kept.step_iff (h : Kept s) (hs : InStep s) (action : Action) :
    InStep (Clients.step lib s action) ↔ Timely s action := by
  have hkept : Kept (Clients.step lib s action) := h.step action
  cases action with
  | frame event now sent =>
    simp only [Clients.step, Timely]
    split
    · split
      next htag => exact (h.alarm_iff hs event now sent).trans (imp_iff_right htag).symm
      next htag => exact iff_of_true hs fun hevent => absurd hevent htag
    · exact iff_of_true hs trivial
  | position created now received =>
    refine iff_of_true (hkept.inStep_of_eq hs ?_) trivial
    simp only [Clients.step]
    split
    · rw [State.position]
      split <;> rfl
    · rfl
  | publish =>
    simp only [Clients.step, Timely] at hkept ⊢
    split
    next held hloop =>
      refine iff_of_true ?_ trivial
      have hcount := (h.remembered held hloop).1
      rw [(h.publish hloop).inStep_cons hs rfl]
      refine ⟨fun other hother => (nomatch hother), fun earlier hearlier _ => ?_⟩
      have hlt := h.outgoing earlier (mem_append_right _ hearlier)
      exact Nat.le_of_lt_succ (hlt.trans_eq hcount.symm)
    next => exact iff_of_true hs trivial
  | snapshot now =>
    refine iff_of_true (hkept.inStep_of_eq hs ?_) trivial
    simp only [Clients.step]
    split <;> rfl
  | republish =>
    simp only [Clients.step, Timely]
    split
    next => exact iff_of_true hs trivial
    next sample due hdue =>
      rw [(h.republish hdue).inStep_cons hs rfl, and_iff_right]
      exact h.inTime sample (hdue ▸ .head _)

/-- The two loops stay in step all along a run exactly when an emergency repeats positions only at
the time they were received, and no record of a snapshot is published after a newer one. -/
theorem inStep_iff_timely (lib : Lib) (actions : List Action) :
    Always (step lib) InStep start actions ↔ Guarded (step lib) Timely start actions := by
  have hagree : ∀ (s : State) (action : Action), Kept s ∧ InStep s → True →
      (InStep (step lib s action) ↔ Timely s action) := fun s action hs _ =>
    hs.1.step_iff hs.2 action
  rw [always_iff_guarded, and_iff_right inStep_start]
  refine guarded_congr_of hagree (fun s action hs htrue htimely => ?_) ⟨kept_start, inStep_start⟩
    (guarded_iff.mpr fun _ _ _ _ => trivial)
  exact ⟨hs.1.step action, (hagree s action hs htrue).mpr htimely⟩

/-! ## A snapshot that is overtaken, and a late emergency -/

/-- The numbers and times of the events below as Python reads them. -/
def deviceLib : Lib where
  float value :=
    match value with
    | "54.7" => some (.finite (547 / 10))
    | "25.3" => some (.finite (253 / 10))
    | _ => none
  timestamp value := if value = "2026-10-13T13:05:00+00:00" then some 1791896700 else none
  hexdigest _ := "da39a3ee5e6b4b0d3255bfef95601890afd80709"

/-- An element without text. -/
def element (tag : String) (attrib : List (String × String)) (children : List Element) : Element :=
  ⟨tag, attrib.foldl (fun d entry => d.set entry.1 entry.2) PyDict.empty, none, none, children⟩

/-- A position of a client. -/
def positionEvent : Element :=
  element "event" [("uid", "ANDROID-1"), ("type", "a-f-G-U-C"), ("stale", "2026-10-13T13:05:00Z")]
    [element "point" [("lat", "54.7"), ("lon", "25.3")] []]

/-- An emergency of the client. -/
def emergencyEvent : Element :=
  element "event" [("uid", "ANDROID-1-9-1-1"), ("type", "b-a-o-tbl")]
    [element "detail" [] [element "emergency" [("type", "911 Alert")] []]]

/-- The steps of the receive loop for a position. -/
def positionSteps (now : Rat) : List Action :=
  [.frame positionEvent now true, .position now now now, .publish]

instance (later earlier : Sample) : Decidable (later.Follows earlier) :=
  inferInstanceAs (Decidable (_ → _))

instance (sample : Sample) : Decidable sample.InTime :=
  inferInstanceAs (Decidable (∀ held ∈ sample.repeats, _ ∧ _))

/-- A newer position is published between a snapshot and the record of the snapshot.  And a position
with a stale time of 300 seconds is repeated as it is 60 seconds later. -/
theorem out_of_step :
    ¬Always (step deviceLib) InStep start (positionSteps 1791896400 ++ [.snapshot 1791896430] ++
      positionSteps 1791896431 ++ [.republish]) ∧
    ¬Always (step deviceLib) InStep start
      (positionSteps 1791896400 ++ [.frame emergencyEvent 1791896460 true]) := by
  constructor
  · intro h
    have hforward := h.last.forward
    revert hforward
    decide +kernel
  · intro h
    have htime := h.last.inTime
    revert htime
    decide +kernel

end Efdi.Tak.Clients
