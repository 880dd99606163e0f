import Efdi.Base.Runs
import Mathlib.Data.List.Nodup
import Mathlib.Data.List.Range

/-!
# The TAK sender

The callers of `send` put events into a bounded queue, and one writer thread takes them off it and
writes them to a socket.  A call that finds the queue full takes the oldest event off in a second
step and puts its own in a third.  Between two steps of a call come steps of other calls and of the
writer.  The sender is not closed here.

`Traffic` is the queue and the writer's hands, with what became of every event that was enqueued.
Events are numbered in the order they were enqueued.  In every run the events that were written are
written once and in this order (`Traffic.Kept`).

An event is lost beside the queue and the writer when a call drops it, which the code means to do
only when the queue is full.  The writer, or another call, may have made room before the call drops
its event.  The losses are those of a full queue and of a failed write exactly when it never does
(`delivers_iff_stillFull`).
-/

namespace Efdi.Tak.TcpSender

open Runs List

/-- `TAK_QUEUE_MAX`. -/
def takQueueMax : Nat := 10000

/-- An event, with its place in the order in which events were enqueued. -/
structure Event where
  number : Nat
  xml : String
  deriving DecidableEq

/-! ## Events under way -/

/-- The queue, the event in the writer's hands, and what became of the events: written, lost in a
failed write, or dropped from a queue of the length that is noted beside them. -/
structure Traffic where
  queue : List Event
  writing : Option Event
  enqueued : List Event
  written : List Event
  failed : List Event
  dropped : List (Event × Nat)

namespace Traffic

/-- Nothing was enqueued yet. -/
def start : Traffic := ⟨[], none, [], [], [], []⟩

/-- The events that are in the writer's hands or in the queue. -/
def waiting (t : Traffic) : List Event := t.writing.toList ++ t.queue

/-- `put_nowait` on a queue that has room. -/
def put (t : Traffic) (xml : String) : Traffic :=
  { t with
    queue := t.queue ++ [⟨t.enqueued.length, xml⟩]
    enqueued := t.enqueued ++ [⟨t.enqueued.length, xml⟩] }

/-- `get_nowait`, whose result `send` throws away. -/
def dropOldest (t : Traffic) : Traffic :=
  match t.queue with
  | [] => t
  | oldest :: queue => { t with queue, dropped := (oldest, t.queue.length) :: t.dropped }

/-- The writer's `get`, which is not called with an event in hand. -/
def get (t : Traffic) : Traffic :=
  match t.writing, t.queue with
  | none, oldest :: queue => { t with queue, writing := some oldest }
  | _, _ => t

/-- `sendall`, which writes the event or fails. -/
def sendall (t : Traffic) (ok : Bool) : Traffic :=
  match t.writing with
  | none => t
  | some event =>
    if ok then { t with writing := none, written := t.written ++ [event] }
    else { t with writing := none, failed := event :: t.failed }

/-- Where the events are that were enqueued. -/
def places (t : Traffic) : List Event :=
  (t.written ++ t.waiting) ++ (t.failed ++ t.dropped.map Prod.fst)

/-- The queue is bounded.  The events written are written once, in the order in which they were
enqueued.  An event that was not written was the oldest in a full queue when it was dropped, or was
being written when a write failed, or is under way. -/
structure Delivers (t : Traffic) : Prop where
  bounded : t.queue.length ≤ takQueueMax
  inOrder : t.written.Sublist t.enqueued
  once : t.written.Nodup
  missing : ∀ event ∈ t.enqueued, event ∉ t.written →
    (event, takQueueMax) ∈ t.dropped ∨ event ∈ t.failed ∨ event ∈ t.waiting

/-- What every run keeps: every event is in one place, and those that were written or are under way
are in the order in which they were enqueued. -/
structure Kept (t : Traffic) : Prop where
  bounded : t.queue.length ≤ takQueueMax
  numbered : t.enqueued.map Event.number = List.range t.enqueued.length
  inOrder : (t.written ++ t.waiting).Sublist t.enqueued
  places : t.places.Perm t.enqueued

/-- Events were dropped from full queues only. -/
def FullDropped (t : Traffic) : Prop := ∀ drop ∈ t.dropped, drop.2 = takQueueMax

variable {t : Traffic}

/-! ### What every run keeps -/

theorem Kept.nodup (h : t.Kept) : t.enqueued.Nodup :=
  List.Nodup.of_map Event.number (h.numbered ▸ nodup_range)

theorem Kept.nodup_places (h : t.Kept) : t.places.Nodup := h.places.nodup_iff.mpr h.nodup

theorem kept_start : start.Kept where
  bounded := Nat.zero_le _
  numbered := rfl
  inOrder := List.Sublist.refl _
  places := List.Perm.refl _

theorem Kept.put (h : t.Kept) (hroom : t.queue.length < takQueueMax) (xml : String) :
    (t.put xml).Kept where
  bounded := by
    rw [Traffic.put, length_append]
    exact hroom
  numbered := by
    rw [Traffic.put, map_append, h.numbered, length_append, length_singleton,
      range_succ]
    rfl
  inOrder := by
    have hsub := h.inOrder.append (List.Sublist.refl [(⟨t.enqueued.length, xml⟩ : Event)])
    simpa [Traffic.put, waiting] using hsub
  places := by
    -- the new event stands behind the queue, and the events lost stand behind it
    have hmove : (t.put xml).places.Perm (t.places ++ [⟨t.enqueued.length, xml⟩]) := by
      simp only [Traffic.put, Traffic.places, waiting, append_assoc]
      refine (List.Perm.append_left _ ?_)
      refine (List.Perm.append_left _ ?_)
      refine (List.Perm.append_left _ ?_)
      rw [← append_assoc t.failed]
      exact perm_append_comm
    exact hmove.trans (h.places.append_right _)

theorem Kept.dropOldest (h : t.Kept) : t.dropOldest.Kept := by
  obtain ⟨queue, writing, enqueued, written, failed, dropped⟩ := t
  cases queue with
  | nil => exact h
  | cons oldest queue =>
    refine ⟨?_, h.numbered, ?_, ?_⟩
    · have hbound := h.bounded
      simp only [length_cons] at hbound
      exact Nat.le_of_succ_le hbound
    · refine List.Sublist.trans ?_ h.inOrder
      refine (List.Sublist.refl written).append ?_
      exact (List.Sublist.refl writing.toList).append (sublist_cons_self oldest queue)
    · refine List.Perm.trans ?_ h.places
      simp only [Traffic.dropOldest, Traffic.places, waiting, map_cons, append_assoc]
      refine List.Perm.append_left _ (List.Perm.append_left _ ?_)
      rw [cons_append, ← append_assoc, ← append_assoc]
      exact perm_middle

theorem Kept.get (h : t.Kept) : t.get.Kept := by
  obtain ⟨queue, writing, enqueued, written, failed, dropped⟩ := t
  cases writing with
  | some event => exact h
  | none =>
    cases queue with
    | nil => exact h
    | cons oldest queue =>
      have hbound := h.bounded
      simp only [length_cons] at hbound
      exact ⟨Nat.le_of_succ_le hbound, h.numbered, h.inOrder, h.places⟩

theorem Kept.sendall (h : t.Kept) (ok : Bool) : (t.sendall ok).Kept := by
  obtain ⟨queue, writing, enqueued, written, failed, dropped⟩ := t
  cases writing with
  | none => exact h
  | some event =>
    cases ok with
    | true =>
      refine ⟨h.bounded, h.numbered, ?_, ?_⟩
      · simpa [Traffic.sendall, waiting] using h.inOrder
      · simpa [Traffic.sendall, Traffic.places, waiting] using h.places
    | false =>
      refine ⟨h.bounded, h.numbered, ?_, ?_⟩
      · refine List.Sublist.trans ?_ h.inOrder
        exact (List.Sublist.refl written).append (sublist_cons_self event queue)
      · refine List.Perm.trans ?_ h.places
        simp only [Traffic.sendall, Traffic.places, waiting, append_assoc]
        refine List.Perm.append_left _ ?_
        exact perm_middle

/-! ### What is missing -/

/-- In a run only the losses can be wrong, and they are right when events are dropped from full
queues only. -/
theorem Kept.delivers_iff (h : t.Kept) : t.Delivers ↔ t.FullDropped := by
  have hnodup := h.nodup_places
  constructor
  · intro hdelivers drop hdrop
    obtain ⟨hkept, hlost, hapart⟩ := nodup_append.mp hnodup
    have hmem : drop.1 ∈ t.dropped.map Prod.fst := mem_map_of_mem hdrop
    have hnot : drop.1 ∉ t.written ++ t.waiting := fun hin =>
      hapart _ hin _ (mem_append_right _ hmem) rfl
    have henqueued : drop.1 ∈ t.enqueued :=
      h.places.subset (mem_append_right _ (mem_append_right _ hmem))
    rcases hdelivers.missing drop.1 henqueued (fun hin => hnot (mem_append_left _ hin)) with
      hfull | hfailed | hwaiting
    · have heq := inj_on_of_nodup_map (nodup_append.mp hlost).2.1 hdrop hfull rfl
      rw [heq]
    · exact absurd rfl ((nodup_append.mp hlost).2.2 _ hfailed _ hmem)
    · exact absurd (mem_append_right _ hwaiting) hnot
  · intro hfull
    refine ⟨h.bounded, ?_, ?_, fun event hevent hnot => ?_⟩
    · exact (sublist_append_left _ _).trans h.inOrder
    · exact (nodup_append.mp (nodup_append.mp hnodup).1).1
    · have hplace := h.places.symm.subset hevent
      simp only [Traffic.places, mem_append, mem_map] at hplace
      rcases hplace with (hwritten | hwaiting) | hfailed | ⟨drop, hdrop, rfl⟩
      · exact absurd hwritten hnot
      · exact .inr (.inr hwaiting)
      · exact .inr (.inl hfailed)
      · exact .inl (hfull drop hdrop ▸ hdrop)

theorem fullDropped_dropOldest (h : t.FullDropped) :
    t.dropOldest.FullDropped ↔ (t.queue ≠ [] → t.queue.length = takQueueMax) := by
  obtain ⟨queue, writing, enqueued, written, failed, dropped⟩ := t
  cases queue with
  | nil => exact iff_of_true h fun hne => absurd rfl hne
  | cons oldest queue =>
    have hcons : (dropOldest ⟨oldest :: queue, writing, enqueued, written, failed,
        dropped⟩).FullDropped ↔ (oldest :: queue).length = takQueueMax ∧
          ∀ drop ∈ dropped, drop.2 = takQueueMax := forall_mem_cons
    rw [hcons]
    exact (and_iff_left h).trans (imp_iff_right (cons_ne_nil _ _)).symm

@[simp] theorem dropped_put (t : Traffic) (xml : String) : (t.put xml).dropped = t.dropped := rfl

@[simp] theorem dropped_get (t : Traffic) : t.get.dropped = t.dropped := by
  rw [get]
  split <;> rfl

@[simp] theorem dropped_sendall (t : Traffic) (ok : Bool) :
    (t.sendall ok).dropped = t.dropped := by
  rw [sendall]
  split
  · rfl
  · split <;> rfl

end Traffic

/-! ## The sender -/

/-- A call of `send` that has not returned, and whether its last `put_nowait` found the queue
full. -/
structure Send where
  xml : String
  full : Bool

/-- A `TcpSender` with its calls under way. -/
structure State where
  sends : List Send
  idx : Nat
  sock : Option (String × Nat)
  traffic : Traffic

/-- What one of the threads does next.  A step that its thread cannot take does nothing. -/
inductive Action where
  /-- A caller calls `send`. -/
  | send (xml : String)
  /-- A call tries `put_nowait`, and returns when the queue has room. -/
  | put (call : Nat)
  /-- A call that found the queue full does its `get_nowait`. -/
  | getNowait (call : Nat)
  /-- The writer, without a socket, opens the next candidate. -/
  | openSock (up : Bool)
  /-- The writer, with a socket, takes the next event. -/
  | get
  /-- The writer's `sendall` writes the event or fails. -/
  | sendall (ok : Bool)

/-- No call was made and no candidate tried. -/
def start : State := ⟨[], 0, none, .start⟩

/-- `put_nowait` in `send`. -/
def State.put (s : State) (call : Nat) : State :=
  match s.sends[call]? with
  | some ⟨xml, false⟩ =>
    if takQueueMax ≤ s.traffic.queue.length then
      { s with sends := s.sends.set call ⟨xml, true⟩ }
    else { s with sends := s.sends.eraseIdx call, traffic := s.traffic.put xml }
  | _ => s

/-- `get_nowait` in `send`, after which the call tries again. -/
def State.getNowait (s : State) (call : Nat) : State :=
  match s.sends[call]? with
  | some ⟨xml, true⟩ =>
    { s with sends := s.sends.set call ⟨xml, false⟩, traffic := s.traffic.dropOldest }
  | _ => s

/-- `_open` in `_serve`: a candidate that fails is passed over.  Without candidates the remainder
raises, and `_run` starts `_serve` again. -/
def State.openSock (hosts : List (String × Nat)) (s : State) (up : Bool) : State :=
  match s.sock, hosts[s.idx % hosts.length]? with
  | some _, _ => s
  | none, none => { s with idx := 0 }
  | none, some host => if up then { s with sock := some host } else { s with idx := s.idx + 1 }

/-- `get` and `sendall` in `_serve`.  A write that fails closes the socket. -/
def step (hosts : List (String × Nat)) (s : State) : Action → State
  | .send xml => { s with sends := s.sends ++ [⟨xml, false⟩] }
  | .put call => s.put call
  | .getNowait call => s.getNowait call
  | .openSock up => s.openSock hosts up
  | .get => if s.sock.isSome then { s with traffic := s.traffic.get } else s
  | .sendall ok =>
    { s with
      sock := if ok ∨ s.traffic.writing = none then s.sock else none
      traffic := s.traffic.sendall ok }

/-- A call that found the queue full drops the oldest event while the queue is still full, or finds
no event any more. -/
def StillFull (s : State) : Action → Prop
  | .getNowait call => ∀ xml, s.sends[call]? = some ⟨xml, true⟩ →
      s.traffic.queue ≠ [] → s.traffic.queue.length = takQueueMax
  | _ => True

variable {hosts : List (String × Nat)} {s : State}

@[simp] theorem traffic_openSock (hosts : List (String × Nat)) (s : State) (up : Bool) :
    (s.openSock hosts up).traffic = s.traffic := by
  rw [State.openSock]
  split
  · rfl
  · rfl
  · split <;> rfl

/-- A step of `put_nowait` leaves the events as they are, or enqueues one in a queue with room. -/
theorem traffic_put (s : State) (call : Nat) : (s.put call).traffic = s.traffic ∨
    ∃ xml, s.traffic.queue.length < takQueueMax ∧ (s.put call).traffic = s.traffic.put xml := by
  rw [State.put]
  split
  · split
    · exact .inl rfl
    · rename_i xml _ hroom
      exact .inr ⟨xml, Nat.lt_of_not_le hroom, rfl⟩
  · exact .inl rfl

theorem traffic_getNowait_of_full {call : Nat} {xml : String}
    (h : s.sends[call]? = some ⟨xml, true⟩) :
    (s.getNowait call).traffic = s.traffic.dropOldest := by
  rw [State.getNowait, h]

/-- A call drops an event when it found the queue full, and does nothing else otherwise. -/
theorem traffic_getNowait_of_not {call : Nat} (h : ∀ xml, s.sends[call]? ≠ some ⟨xml, true⟩) :
    (s.getNowait call).traffic = s.traffic := by
  rw [State.getNowait]
  split
  · rename_i xml heq
    exact absurd heq (h xml)
  · rfl

theorem kept_step (h : s.traffic.Kept) (action : Action) :
    (step hosts s action).traffic.Kept := by
  cases action with
  | send xml => exact h
  | put call =>
    rw [step]
    rcases traffic_put s call with heq | ⟨xml, hroom, heq⟩
    · rwa [heq]
    · rw [heq]
      exact h.put hroom xml
  | getNowait call =>
    rw [step]
    by_cases hfull : ∃ xml, s.sends[call]? = some ⟨xml, true⟩
    · obtain ⟨xml, hxml⟩ := hfull
      rw [traffic_getNowait_of_full hxml]
      exact h.dropOldest
    · rwa [traffic_getNowait_of_not (not_exists.mp hfull)]
  | openSock up => rwa [step, traffic_openSock]
  | get =>
    rw [step]
    split
    · exact h.get
    · exact h
  | sendall ok => exact h.sendall ok

theorem kept_final (hosts : List (String × Nat)) (actions : List Action) :
    (final (step hosts) start actions).traffic.Kept :=
  final_of_step (P := fun s : State => s.traffic.Kept) (fun _ action hs => kept_step hs action)
    Traffic.kept_start

/-- A step keeps the drops from full queues only when the queue is still full as it drops. -/
theorem fullDropped_step_iff (h : s.traffic.FullDropped) (action : Action) :
    (step hosts s action).traffic.FullDropped ↔ StillFull s action := by
  cases action with
  | send xml => exact iff_of_true h trivial
  | put call =>
    refine iff_of_true ?_ trivial
    rw [step]
    rcases traffic_put s call with heq | ⟨xml, -, heq⟩
    · rwa [heq]
    · rwa [heq, Traffic.FullDropped, Traffic.dropped_put]
  | getNowait call =>
    rw [step, StillFull]
    by_cases hfull : ∃ xml, s.sends[call]? = some ⟨xml, true⟩
    · obtain ⟨xml, hxml⟩ := hfull
      rw [traffic_getNowait_of_full hxml, Traffic.fullDropped_dropOldest h]
      exact ⟨fun hstill _ _ => hstill, fun hstill => hstill xml hxml⟩
    · have hnot := not_exists.mp hfull
      rw [traffic_getNowait_of_not hnot]
      exact iff_of_true h fun xml hxml => absurd hxml (hnot xml)
  | openSock up =>
    rw [step, traffic_openSock]
    exact iff_of_true h trivial
  | get =>
    refine iff_of_true ?_ trivial
    rw [step]
    split
    · rwa [Traffic.FullDropped, Traffic.dropped_get]
    · exact h
  | sendall ok =>
    refine iff_of_true ?_ trivial
    rwa [step, Traffic.FullDropped, Traffic.dropped_sendall]

/-- The sender delivers all along a run exactly when no call drops an event after room was made in
the queue that it found full. -/
theorem delivers_iff_stillFull (hosts : List (String × Nat)) (actions : List Action) :
    Always (step hosts) (fun s => s.traffic.Delivers) start actions ↔
      Guarded (step hosts) StillFull start actions := by
  have hagree : ∀ (s : State) (action : Action), s.traffic.Kept ∧ s.traffic.FullDropped → True →
      ((step hosts s action).traffic.Delivers ↔ StillFull s action) := fun s action hs _ =>
    (kept_step hs.1 action).delivers_iff.trans (fullDropped_step_iff hs.2 action)
  have hstart : start.traffic.FullDropped := fun drop hdrop => absurd hdrop List.not_mem_nil
  have hdelivers : start.traffic.Delivers := Traffic.kept_start.delivers_iff.mpr hstart
  rw [always_iff_guarded, and_iff_right hdelivers]
  refine guarded_congr_of hagree (fun s action hs _ hstill => ?_) ⟨Traffic.kept_start, hstart⟩
    (guarded_iff.mpr fun _ _ _ _ => trivial)
  exact ⟨kept_step hs.1 action, (fullDropped_step_iff hs.2 action).mpr hstill⟩

/-! ## Room is made before an event is dropped -/

/-- A call that is alone and puts its event. -/
def sendAlone (xml : String) : List Action := [.send xml, .put 0]

theorem final_sendAlone {xml : String} (hsends : s.sends = [])
    (hroom : s.traffic.queue.length < takQueueMax) :
    final (step hosts) s (sendAlone xml) = { s with traffic := s.traffic.put xml } := by
  obtain ⟨sends, idx, sock, traffic⟩ := s
  cases hsends
  simp [sendAlone, step, State.put, Nat.not_le.mpr hroom]

/-- As many calls as the queue has room for leave their events in it. -/
theorem final_fill (xml : String) : ∀ n, n ≤ takQueueMax →
    ∃ traffic, final (step hosts) start (List.replicate n (sendAlone xml)).flatten =
        { start with traffic } ∧ traffic.queue.length = n ∧ traffic.writing = none
  | 0, _ => ⟨.start, rfl, rfl, rfl⟩
  | n + 1, hn => by
    obtain ⟨traffic, hfinal, hlength, hwriting⟩ := final_fill xml n (Nat.le_of_succ_le hn)
    refine ⟨traffic.put xml, ?_, ?_, hwriting⟩
    · rw [replicate_succ', flatten_concat, final_append, hfinal,
        final_sendAlone rfl (by rw [hlength]; exact hn)]
    · rw [Traffic.put, length_append, hlength, length_singleton]

/-- A call finds the queue full, the writer connects and takes the oldest event, and the call drops
the next one. -/
def overtaking (xml : String) : List Action :=
  [.send xml, .put 0, .openSock true, .get, .getNowait 0]

theorem dropped_overtaking {traffic : Traffic} {first second : Event} {queue : List Event}
    {host : String × Nat} (xml : String) (hqueue : traffic.queue = first :: second :: queue)
    (hwriting : traffic.writing = none) (hfull : takQueueMax ≤ traffic.queue.length) :
    (second, queue.length + 1) ∈
      (final (step [host]) { start with traffic } (overtaking xml)).traffic.dropped := by
  obtain ⟨_, _, enqueued, written, failed, dropped⟩ := traffic
  cases hqueue
  cases hwriting
  rw [length_cons, length_cons] at hfull
  simp [overtaking, start, step, State.put, State.openSock, State.getNowait, Traffic.get,
    Traffic.dropOldest, hfull]

/-- The queue is filled first. -/
theorem room_dropped : ¬Always (step [("10.0.0.5", 8089)]) (fun s => s.traffic.Delivers) start
    ((List.replicate takQueueMax (sendAlone "<event/>")).flatten ++ overtaking "<event/>") := by
  intro h
  have hfull := (kept_final _ _).delivers_iff.mp h.last
  obtain ⟨traffic, hfinal, hlength, hwriting⟩ :=
    @final_fill [("10.0.0.5", 8089)] "<event/>" takQueueMax (Nat.le_refl _)
  rw [final_append, hfinal] at hfull
  cases hqueue : traffic.queue with
  | nil =>
    rw [hqueue, List.length_nil] at hlength
    exact absurd hlength (by decide)
  | cons first rest =>
    cases rest with
    | nil =>
      rw [hqueue, List.length_singleton] at hlength
      exact absurd hlength (by decide)
    | cons second queue =>
      have hdrop := hfull _ (dropped_overtaking "<event/>" hqueue hwriting
        (Nat.le_of_eq hlength.symm))
      rw [hqueue, List.length_cons, List.length_cons] at hlength
      simp only at hdrop
      omega

end Efdi.Tak.TcpSender
