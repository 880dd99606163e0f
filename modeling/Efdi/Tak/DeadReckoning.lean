import Efdi.Base.Runs
import Efdi.Tak.Layer

/-!
# Dead reckoning beside the handler

The handler and the dead-reckoning loop are two threads: a step lets one of them do its next
operation.  The handler hands over a delete event before it pops the contact, and the loop works on
a snapshot, so the loop may still hold a contact that was deleted.

`Kept` is what keeps deleted uids deleted.  A contact that could be moved under a deleted uid is not
waiting in the loop, and if it is in the store the handler is about to pop it.
-/

namespace Efdi.Tak.Layer

open Runs List

/-! ### Two threads -/

/-- The tables, and what the handler and the loop have still to do. -/
structure Threads where
  state : State
  handler : List Op
  loop : List Op

/-- A step of a run: a track arrives when the handler is idle, a turn of the loop begins when the
loop is idle, or one of the two does its next operation. -/
inductive Step where
  | arrive (clock : ℚ) (track : Track)
  | turn (now : ℚ)
  | handler
  | loop

variable (L : Setup)

def Threads.step (threads : Threads) : Step → Threads
  | .arrive clock track =>
    match threads.handler with
    | [] => { threads with handler := Layer.handler L.dropTakIngress clock track }
    | _ :: _ => threads
  | .turn now =>
    match threads.loop with
    | [] => { threads with loop := drTurn now }
    | _ :: _ => threads
  | .handler =>
    match threads.handler with
    | [] => threads
    | op :: ops =>
      let done := threads.state.exec L.orphanS op
      { threads with state := done.1, handler := done.2 ++ ops }
  | .loop =>
    match threads.loop with
    | [] => threads
    | op :: ops =>
      let done := threads.state.exec L.orphanS op
      { threads with state := done.1, loop := done.2 ++ ops }

/-! ### Deleted uids -/

/-- Whether a uid is deleted after an entry. -/
def Entry.deletes (uid : Uid) (deleted : Bool) : Entry → Bool
  | .report other _ => if other = uid then false else deleted
  | .delete other _ => if other = uid then true else deleted
  | .offline _ _ => deleted
  | .moved _ _ => deleted
  | .saved => deleted

/-- The last report or delete event of the uid is a delete event. -/
def Deleted (uid : Uid) (history : List Entry) : Prop :=
  history.foldl (Entry.deletes uid) false = true

/-- An event that draws a uid and is no report. -/
def Entry.Redraws (uid : Uid) : Entry → Prop
  | .moved other _ => other = uid
  | .offline other _ => other = uid
  | .report _ _ => False
  | .delete _ _ => False
  | .saved => False

/-- After a delete event of a uid nothing draws the uid before it is reported again. -/
def StayDeleted (history : List Entry) : Prop :=
  ∀ before uid drawing between entry after,
    history = before ++ .delete uid drawing :: (between ++ entry :: after) →
      entry.Redraws uid → ∃ clock, .report uid clock ∈ between

section Deleted

variable {uid : Uid} {history : List Entry} {entry : Entry}

theorem deleted_concat :
    Deleted uid (history ++ [entry]) ↔
      Entry.deletes uid (history.foldl (Entry.deletes uid) false) entry = true := by
  rw [Deleted, foldl_append]
  rfl

/-- An entry that is no delete event deletes nothing. -/
theorem Deleted.of_concat (h : Deleted uid (history ++ [entry]))
    (hentry : ∀ drawing, entry ≠ .delete uid drawing) : Deleted uid history := by
  rw [deleted_concat] at h
  cases entry with
  | report other clock =>
    rw [Entry.deletes] at h
    split at h
    next _ => cases h
    next _ => exact h
  | delete other drawing =>
    rw [Entry.deletes] at h
    split at h
    next hsame => exact absurd (by rw [hsame]) (hentry drawing)
    next _ => exact h
  | offline other clock => exact h
  | moved other now => exact h
  | saved => exact h

theorem foldl_deletes_true : ∀ {between : List Entry},
    (∀ clock, Entry.report uid clock ∉ between) →
      between.foldl (Entry.deletes uid) true = true
  | [], _ => rfl
  | entry :: between, h => by
    have hentry : Entry.deletes uid true entry = true := by
      cases entry with
      | report other clock =>
        rw [Entry.deletes, if_neg]
        rintro rfl
        exact h clock mem_cons_self
      | delete other drawing =>
        rw [Entry.deletes]
        split
        next _ => rfl
        next _ => rfl
      | offline other clock => rfl
      | moved other now => rfl
      | saved => rfl
    rw [foldl_cons, hentry]
    exact foldl_deletes_true fun clock hmem => h clock (mem_cons_of_mem entry hmem)

theorem deleted_of_delete {before between : List Entry} {drawing : Bool}
    (h : ∀ clock, Entry.report uid clock ∉ between) :
    Deleted uid (before ++ .delete uid drawing :: between) := by
  rw [Deleted, foldl_append, foldl_cons, Entry.deletes, if_pos rfl]
  exact foldl_deletes_true h

theorem stayDeleted_nil : StayDeleted [] := by
  intro before uid drawing between entry after h
  exact absurd h.symm (by simp)

/-- One more entry, which draws no deleted uid. -/
theorem StayDeleted.concat (h : StayDeleted history)
    (hentry : ∀ uid, entry.Redraws uid → ¬Deleted uid history) :
    StayDeleted (history ++ [entry]) := by
  intro before uid drawing between other after hsplit hdraws
  rcases eq_nil_or_concat' after with rfl | ⟨after, last, rfl⟩
  · have hshape : before ++ .delete uid drawing :: (between ++ [other]) =
        (before ++ .delete uid drawing :: between) ++ [other] := by simp
    rw [hshape] at hsplit
    obtain ⟨hhistory, rfl⟩ := append_singleton_inj.mp hsplit
    by_contra hnone
    have hdeleted : Deleted uid history := by
      rw [hhistory]
      exact deleted_of_delete fun clock hmem => hnone ⟨clock, hmem⟩
    exact hentry uid hdraws hdeleted
  · have hshape : before ++ .delete uid drawing :: (between ++ other :: (after ++ [last])) =
        (before ++ .delete uid drawing :: (between ++ other :: after)) ++ [last] := by simp
    rw [hshape] at hsplit
    exact h before uid drawing between other after (append_singleton_inj.mp hsplit).1 hdraws

end Deleted

/-! ### What keeps deleted uids deleted -/

/-- The contacts that the handler pops before it hands over or looks up anything. -/
def popping : List Op → List Uid
  | .popContact uid :: ops => uid :: popping ops
  | .discardDrawn _ :: ops => popping ops
  | _ => []

/-- Nothing draws a deleted uid: not a contact that waits in the loop, and not a contact of the
store, unless the handler is about to pop it. -/
structure Kept (state : State) (pops : List Uid) (waiting : List Op) : Prop where
  stay : StayDeleted state.history
  waits : ∀ uid, Deleted uid state.history → ∀ now contact,
    .extrapolate now contact ∈ waiting → contact.extrapolated now ≠ some uid
  stored : ∀ uid, Deleted uid state.history → ∀ key contact,
    state.drStore.get? key = some contact → contact.MayDraw uid → key ∈ pops

/-- A uid may be deleted when no waiting contact is to be sent under it, and no contact of the store
can be moved under it but those that are popped next. -/
def MayDelete (state : State) (pops : List Uid) (waiting : List Op) (uid : Uid) : Prop :=
  (∀ now contact, .extrapolate now contact ∈ waiting → contact.extrapolated now ≠ some uid) ∧
    ∀ key contact, state.drStore.get? key = some contact → contact.MayDraw uid → key ∈ pops

/-- When an operation may be done, with what is popped next and what waits after it. -/
def Op.Allowed (state : State) (pops : List Uid) (waiting : List Op) : Op → Prop
  | .sendDelete uid _ => MayDelete state pops waiting uid
  | .sendDeleteOf uid => MayDelete state pops waiting uid
  | .sendOffline uid _ => ¬Deleted uid state.history
  | .storeContact _ contact => ∀ uid, Deleted uid state.history → ¬contact.MayDraw uid
  | .snapshot _ => ∀ key ∈ pops, state.drStore.get? key = none
  | _ => True

section Kept

variable {L : Setup} {state : State} {pops pops' : List Uid} {waiting waiting' : List Op} {op : Op}

/-- Fewer things wait, and no contact that is still in the store is popped later. -/
theorem Kept.mono (h : Kept state pops waiting) (hpops : ∀ key ∈ pops, key ∈ pops')
    (hwaiting : ∀ now contact, .extrapolate now contact ∈ waiting' →
      .extrapolate now contact ∈ waiting) : Kept state pops' waiting' where
  stay := h.stay
  waits uid hdeleted now contact hmem := h.waits uid hdeleted now contact (hwaiting _ _ hmem)
  stored uid hdeleted key contact hget hdraw :=
    hpops key (h.stored uid hdeleted key contact hget hdraw)

/-- A step that leaves the contacts and the history. -/
theorem Kept.frame {state' : State} (h : Kept state pops waiting)
    (hstore : state'.drStore = state.drStore) (hhistory : state'.history = state.history) :
    Kept state' pops waiting where
  stay := by
    rw [hhistory]
    exact h.stay
  waits uid hdeleted := by
    rw [hhistory] at hdeleted
    exact h.waits uid hdeleted
  stored uid hdeleted := by
    rw [hhistory] at hdeleted
    rw [hstore]
    exact h.stored uid hdeleted

/-- An entry that draws no deleted uid and deletes nothing. -/
theorem Kept.log (h : Kept state pops waiting) {entry : Entry}
    (hdraws : ∀ uid, entry.Redraws uid → ¬Deleted uid state.history)
    (hdeletes : ∀ uid drawing, entry ≠ .delete uid drawing) :
    Kept (state.log entry) pops waiting where
  stay := h.stay.concat hdraws
  waits uid hdeleted := h.waits uid (hdeleted.of_concat (hdeletes uid))
  stored uid hdeleted := h.stored uid (hdeleted.of_concat (hdeletes uid))

/-- A delete event of a uid that may be deleted. -/
theorem Kept.log_delete (h : Kept state pops waiting) {uid : Uid} (drawing : Bool)
    (hmay : MayDelete state pops waiting uid) :
    Kept (state.log (.delete uid drawing)) pops waiting where
  stay := h.stay.concat fun _ hdraws => hdraws.elim
  waits other hdeleted := by
    rcases eq_or_ne other uid with rfl | hne
    · exact hmay.1
    · exact h.waits other (hdeleted.of_concat fun d hd => hne (Entry.delete.inj hd).1.symm)
  stored other hdeleted := by
    rcases eq_or_ne other uid with rfl | hne
    · exact hmay.2
    · exact h.stored other (hdeleted.of_concat fun d hd => hne (Entry.delete.inj hd).1.symm)

theorem Kept.store (h : Kept state pops waiting) {key : Uid} {contact : Contact}
    (hfree : ∀ uid, Deleted uid state.history → ¬contact.MayDraw uid) :
    Kept { state with drStore := state.drStore.set key contact } pops waiting where
  stay := h.stay
  waits := h.waits
  stored uid hdeleted other found hget hdraw := by
    rcases eq_or_ne other key with rfl | hne
    · rw [PyDict.get?_set_self] at hget
      obtain rfl := Option.some.inj hget
      exact absurd hdraw (hfree uid hdeleted)
    · rw [PyDict.get?_set_of_ne _ hne] at hget
      exact h.stored uid hdeleted other found hget hdraw

theorem Kept.pop (h : Kept state pops waiting) {uid : Uid}
    (hpops : ∀ key ∈ pops, key ∈ pops' ∨ key = uid) :
    Kept { state with drStore := state.drStore.pop uid } pops' waiting where
  stay := h.stay
  waits := h.waits
  stored other hdeleted key contact hget hdraw := by
    have hbefore : state.drStore.get? key = some contact := PyDict.get?_of_get?_pop hget
    rcases hpops key (h.stored other hdeleted key contact hbefore hdraw) with hkey | rfl
    · exact hkey
    · rw [PyDict.get?_pop_self] at hget
      cases hget

/-- What `retractTrail` and `deleteTrailOf` put before the rest holds no contact. -/
theorem not_mem_deleteTrail {trail : Uid} {now : ℚ} {contact : Contact} {p : Prop} [Decidable p] :
    Op.extrapolate now contact ∉ (if p then deleteTrail trail else []) := by
  split
  next _ => simp [deleteTrail]
  next _ => exact not_mem_nil

/-- An allowed operation of the waiting ones keeps deleted uids deleted. -/
theorem Kept.exec (h : Kept state pops waiting) (hop : op ∈ waiting)
    (hallowed : op.Allowed state pops' waiting')
    (hpops : ∀ key ∈ pops, key ∈ pops' ∨ op = .popContact key)
    (hwaiting : ∀ next ∈ waiting', next ∈ waiting ∨ next ∈ (state.exec L.orphanS op).2) :
    Kept (state.exec L.orphanS op).1 pops' waiting' := by
  have hquiet : (∀ uid, op ≠ .popContact uid) →
      (∀ now contact, .extrapolate now contact ∉ (state.exec L.orphanS op).2) →
      Kept state pops' waiting' := fun hpop hmore =>
    h.mono (fun key hkey => (hpops key hkey).resolve_right (hpop key))
      (fun now contact hmem => (hwaiting _ hmem).resolve_right (hmore now contact))
  cases op with
  | send uid clock =>
    refine (hquiet (fun _ => Op.noConfusion) (fun _ _ => not_mem_nil)).log ?_ ?_
    · exact fun _ hdraws => hdraws.elim
    · exact fun _ _ => Entry.noConfusion
  | sendOffline uid clock =>
    refine (hquiet (fun _ => Op.noConfusion) (fun _ _ => not_mem_nil)).log ?_ ?_
    · rintro other rfl
      exact hallowed
    · exact fun _ _ => Entry.noConfusion
  | sendDelete uid drawing =>
    exact (hquiet (fun _ => Op.noConfusion) (fun _ _ => not_mem_nil)).log_delete _ hallowed
  | sendDeleteOf uid =>
    exact (hquiet (fun _ => Op.noConfusion) (fun _ _ => not_mem_nil)).log_delete _ hallowed
  | popContact uid =>
    refine Kept.pop (h.mono (fun _ hkey => hkey) ?_) ?_
    · exact fun now contact hmem => (hwaiting _ hmem).resolve_right not_mem_nil
    · intro key hkey
      exact (hpops key hkey).imp_right fun hsame => (Op.popContact.inj hsame).symm
  | storeContact uid contact =>
    exact (hquiet (fun _ => Op.noConfusion) (fun _ _ => not_mem_nil)).store hallowed
  | addDrawn uid =>
    exact (hquiet (fun _ => Op.noConfusion) (fun _ _ => not_mem_nil)).frame rfl rfl
  | discardDrawn uid =>
    exact (hquiet (fun _ => Op.noConfusion) (fun _ _ => not_mem_nil)).frame rfl rfl
  | sawTrail uid clock =>
    exact (hquiet (fun _ => Op.noConfusion) (fun _ _ => not_mem_nil)).frame rfl rfl
  | sawMarker uid clock =>
    exact (hquiet (fun _ => Op.noConfusion) (fun _ _ => not_mem_nil)).frame rfl rfl
  | forgetTrail uid =>
    exact (hquiet (fun _ => Op.noConfusion) (fun _ _ => not_mem_nil)).frame rfl rfl
  | forgetMarker uid =>
    exact (hquiet (fun _ => Op.noConfusion) (fun _ _ => not_mem_nil)).frame rfl rfl
  | deleteTrailOf uid =>
    exact hquiet (fun _ => Op.noConfusion) (fun _ _ => not_mem_deleteTrail)
  | retractOrphanTrails now =>
    refine hquiet (fun _ => Op.noConfusion) (fun _ _ hmem => ?_)
    obtain ⟨_, _, hsame⟩ := mem_map.mp hmem
    cases hsame
  | retractTrail now trail sent =>
    exact hquiet (fun _ => Op.noConfusion) (fun _ _ => not_mem_deleteTrail)
  | forgetMarkers now =>
    exact (hquiet (fun _ => Op.noConfusion) (fun _ _ => not_mem_nil)).frame rfl rfl
  | saveTrailState now =>
    have hnext : Kept state pops' waiting' := by
      refine hquiet (fun _ => Op.noConfusion) (fun _ _ => ?_)
      rw [State.exec]
      split
      next _ => exact not_mem_nil
      next _ => exact not_mem_nil
    rw [State.exec]
    split
    next _ => exact hnext
    next _ =>
      have hsaved : Kept ({ state with trailSavedAt := now, stateFile := state.trailSent } : State)
          pops' waiting' := hnext.frame rfl rfl
      exact hsaved.log (fun _ hdraws => hdraws.elim) (fun _ _ => Entry.noConfusion)
  | snapshot now =>
    refine ⟨h.stay, fun uid hdeleted time contact hmem hdraws => ?_, ?_⟩
    · rcases hwaiting _ hmem with hold | hnew
      · exact h.waits uid hdeleted time contact hold hdraws
      · obtain ⟨⟨key, found⟩, hentry, hsame⟩ := mem_map.mp hnew
        obtain ⟨rfl, rfl⟩ := Op.extrapolate.inj hsame
        have hget : state.drStore.get? key = some found := PyDict.get?_eq_some_iff.mpr hentry
        have hkey : key ∈ pops' :=
          (hpops key (h.stored uid hdeleted key found hget ⟨_, hdraws⟩)).resolve_right
            Op.noConfusion
        rw [hallowed key hkey] at hget
        cases hget
    · intro uid hdeleted key contact hget hdraw
      exact (hpops key (h.stored uid hdeleted key contact hget hdraw)).resolve_right
        Op.noConfusion
  | extrapolate now contact =>
    have hnext : Kept state pops' waiting' := by
      refine hquiet (fun _ => Op.noConfusion) (fun _ _ => ?_)
      rw [State.exec]
      split
      next _ => exact not_mem_nil
      next _ => exact not_mem_nil
    rw [State.exec]
    split
    next uid hdraws =>
      refine hnext.log ?_ (fun _ _ => Entry.noConfusion)
      rintro other rfl hdeleted
      exact h.waits uid hdeleted now contact hop hdraws
    next _ => exact hnext

end Kept

/-! ### Runs of the two threads -/

/-- A run begins with idle threads, any tables and no events. -/
structure Threads.Started (threads : Threads) : Prop where
  handler : threads.handler = []
  loop : threads.loop = []
  history : threads.state.history = []

/-- A step is allowed when the operation that it does is, in view of what its thread and the other
one do next. -/
def Threads.Allowed (threads : Threads) : Step → Prop
  | .arrive _ _ => True
  | .turn _ => True
  | .handler =>
    match threads.handler with
    | [] => True
    | op :: ops =>
      let rest := (threads.state.exec L.orphanS op).2 ++ ops
      op.Allowed threads.state (popping rest) (rest ++ threads.loop)
  | .loop =>
    match threads.loop with
    | [] => True
    | op :: ops =>
      let rest := (threads.state.exec L.orphanS op).2 ++ ops
      op.Allowed threads.state (popping threads.handler) (threads.handler ++ rest)

/-- Deleted uids are kept deleted, in view of what the handler pops and both threads wait with. -/
def Threads.Keeps (threads : Threads) : Prop :=
  Kept threads.state (popping threads.handler) (threads.handler ++ threads.loop)

section Threads

variable {L : Setup} {threads : Threads}

theorem Threads.Started.keeps (h : threads.Started) : threads.Keeps where
  stay := by
    rw [h.history]
    exact stayDeleted_nil
  waits uid hdeleted := by
    rw [h.history] at hdeleted
    cases hdeleted
  stored uid hdeleted := by
    rw [h.history] at hdeleted
    cases hdeleted

/-- What was to be popped is popped by the operation or is to be popped after it. -/
theorem popping_cons {state : State} {op : Op} {ops : List Op} {key : Uid}
    (h : key ∈ popping (op :: ops)) :
    key ∈ popping ((state.exec L.orphanS op).2 ++ ops) ∨ op = .popContact key := by
  cases op with
  | popContact uid =>
    rcases mem_cons.mp h with rfl | hkey
    · exact .inr rfl
    · exact .inl hkey
  | discardDrawn uid => exact .inl h
  | _ => exact absurd h not_mem_nil

theorem not_mem_reported {clock now : ℚ} {track : Track} {drawing : Bool} {contact : Contact} :
    Op.extrapolate now contact ∉ reported clock track drawing := by
  rw [reported, mem_append, mem_append]
  rintro ((hmem | hmem) | hmem)
  · split at hmem
    next _ => simp at hmem
    next _ => cases hmem
  · split at hmem
    next _ => simp at hmem
    next _ => simp at hmem
  · split at hmem
    next _ => simp at hmem
    next _ => cases hmem

/-- What `make_handler` does holds no contact to send. -/
theorem not_mem_handler {dropTakIngress : Bool} {clock now : ℚ} {track : Track}
    {contact : Contact} :
    Op.extrapolate now contact ∉ Layer.handler dropTakIngress clock track := by
  rw [Layer.handler]
  split_ifs with htak hoffline hdraw hdelete hunfused hcopy hheld
  · exact not_mem_nil
  · simp
  · simp
  · simp
  · exact not_mem_nil
  · exact not_mem_nil
  · simp
  · cases track.event with
    | none => exact not_mem_nil
    | some drawing => simp [not_mem_reported]

theorem not_mem_drTurn {turn now : ℚ} {contact : Contact} :
    Op.extrapolate now contact ∉ drTurn turn := by
  simp [drTurn]

theorem Threads.Keeps.step (h : threads.Keeps) {step : Step} (hallowed : threads.Allowed L step) :
    (threads.step L step).Keeps := by
  obtain ⟨state, handler, loop⟩ := threads
  cases step with
  | arrive clock track =>
    cases handler with
    | nil =>
      refine Kept.mono h (fun key hkey => absurd hkey not_mem_nil) ?_
      intro now contact hmem
      exact (mem_append.mp hmem).resolve_left not_mem_handler
    | cons op ops => exact h
  | turn now =>
    cases loop with
    | nil =>
      refine Kept.mono h (fun key hkey => hkey) ?_
      intro time contact hmem
      have hmem := (mem_append.mp hmem).resolve_right not_mem_drTurn
      exact mem_append_left _ hmem
    | cons op ops => exact h
  | handler =>
    cases handler with
    | nil => exact h
    | cons op ops =>
      refine @Kept.exec L state _ _ _ _ op h mem_cons_self hallowed (fun key => popping_cons) ?_
      intro next hnext
      have hnext : next ∈ (state.exec L.orphanS op).2 ++ ops ++ loop := hnext
      rw [append_assoc] at hnext
      rcases mem_append.mp hnext with hmore | hold
      · exact .inr hmore
      · exact .inl (mem_cons_of_mem op hold)
  | loop =>
    cases loop with
    | nil => exact h
    | cons op ops =>
      refine @Kept.exec L state _ _ _ _ op h (mem_append_right _ mem_cons_self)
        hallowed (fun key hkey => .inl hkey) ?_
      intro next hnext
      rcases mem_append.mp hnext with hold | hnext
      · exact .inl (mem_append_left _ hold)
      · rcases mem_append.mp hnext with hmore | hold
        · exact .inr hmore
        · exact .inl (mem_append_right _ (mem_cons_of_mem op hold))

/-- In every run of allowed steps deleted uids stay deleted. -/
theorem stay_deleted (hstart : threads.Started) {steps : List Step}
    (hallowed : Guarded (Threads.step L) (Threads.Allowed L) threads steps) :
    Always (Threads.step L) (fun threads => StayDeleted threads.state.history) threads steps :=
  (always_of_guarded (P := Threads.Keeps) (fun _ _ h hstep => h.step hstep) hstart.keeps
    hallowed).imp fun _ h => h.stay

end Threads

/-! ### A marker that is moved after it is deleted -/

def drone : Uid := ['D']

/-- A drone that flies on, and its tombstone. -/
def flight (delete : Bool) : Track where
  uid := drone
  src := []
  delete := delete
  fromTakServer := false
  drawable := true
  unfused := false
  civilCopy := false
  suppressed := false
  event := some false
  positioned := true
  extrap := false
  ts := some 0
  staleS := 60
  speed := 100
  movedUid := fun _ => some drone

/-- The contact is in the store when the run begins. -/
def flying : Threads where
  state := { State.initial with drStore := PyDict.empty.set drone ((flight false).contact 0) }
  handler := []
  loop := []

theorem stay_deleted_tombstone :
    Always (Threads.step setup) (fun threads => StayDeleted threads.state.history) flying
      [.arrive 0 (flight true), .handler, .handler, .handler] :=
  stay_deleted ⟨rfl, rfl, rfl⟩
    ⟨trivial,
      ⟨fun now contact hmem => by
          have hmem : Op.extrapolate now contact ∈ [.discardDrawn drone, .popContact drone,
            .forgetMarker drone, .deleteTrailOf drone] := hmem
          simp at hmem,
        fun key contact hget _ => by
          obtain ⟨rfl, -⟩ := Prod.mk.inj (List.mem_singleton.mp (PyDict.get?_eq_some_iff.mp hget))
          exact .head _⟩,
      trivial, trivial, trivial⟩

/-- The loop takes its snapshot, the tombstone deletes the marker, and the loop sends it again. -/
theorem moved_after_delete :
    ¬∀ (threads : Threads) (steps : List Step), threads.Started →
      Always (Threads.step setup) (fun threads => StayDeleted threads.state.history)
        threads steps := by
  intro hall
  have hrun := (hall ⟨State.initial, [], []⟩
    [.arrive 0 (flight false), .handler, .handler, .handler, .turn 10, .loop, .loop, .loop, .loop,
      .arrive 10 (flight true), .handler, .loop] ⟨rfl, rfl, rfl⟩).last
  have hhistory : (final (Threads.step setup) ⟨State.initial, [], []⟩
      [.arrive 0 (flight false), .handler, .handler, .handler, .turn 10, .loop, .loop, .loop, .loop,
        .arrive 10 (flight true), .handler, .loop]).state.history =
      [.report drone 0, .delete drone false, .moved drone 10] := by decide +kernel
  rw [hhistory] at hrun
  obtain ⟨clock, hmem⟩ := hrun [.report drone 0] drone false [] (.moved drone 10) [] rfl rfl
  cases hmem

end Efdi.Tak.Layer
