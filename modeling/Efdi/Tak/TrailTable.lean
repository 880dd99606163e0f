import Efdi.Base.Runs
import Efdi.Tak.Layer

/-!
# The trail table

`_trail_sent` is what the layer knows of the trail lines on the clients.  The loop writes it to a
file, at most once in half a minute, and a layer that starts again loads the file.

`Rest` holds when neither the handler nor the loop is busy, and `Lasting`, which is about the file,
holds at every moment.  Between the two the operations of a handler or of a turn of the loop are run
to their end (`Completes`).
-/

namespace Efdi.Tak.Layer

open Runs List Option PyDict

/-! ### What has been sent -/

/-- When the uid was last reported, after one more entry. -/
def Entry.reportedAt (uid : Uid) (last : Option ℚ) : Entry → Option ℚ
  | .report other clock => if other = uid then some clock else last
  | _ => last

/-- When an event that draws the uid was last sent, after one more entry. -/
def Entry.sentAt (uid : Uid) (last : Option ℚ) : Entry → Option ℚ
  | .report other clock => if other = uid then some clock else last
  | .offline other clock => if other = uid then some clock else last
  | .moved other now => if other = uid then some now else last
  | .delete _ _ => last
  | .saved => last

/-- Whether the uid is drawn, after one more entry. -/
def Entry.draws (uid : Uid) (drawn : Bool) : Entry → Bool
  | .report other _ => if other = uid then true else drawn
  | .offline other _ => if other = uid then true else drawn
  | .moved other _ => if other = uid then true else drawn
  | .delete other _ => if other = uid then false else drawn
  | .saved => drawn

/-- Whether the uid was reported since the table was saved, after one more entry. -/
def Entry.unsaves (uid : Uid) (unsaved : Bool) : Entry → Bool
  | .report other _ => if other = uid then true else unsaved
  | .saved => false
  | _ => unsaved

def lastReport (uid : Uid) (history : List Entry) : Option ℚ :=
  history.foldl (Entry.reportedAt uid) none

def lastSent (uid : Uid) (history : List Entry) : Option ℚ :=
  history.foldl (Entry.sentAt uid) none

/-- An event that draws the uid was sent and no delete event since. -/
def Drawn (uid : Uid) (history : List Entry) : Prop :=
  history.foldl (Entry.draws uid) false = true

/-- The uid was reported since the table was last saved. -/
def Unsaved (uid : Uid) (history : List Entry) : Prop :=
  history.foldl (Entry.unsaves uid) false = true

/-! ### Runs with restarts -/

/-- The tables after a restart: memory is lost, and the trail table is loaded from the file. -/
def State.restart (state : State) : State where
  drStore := .empty
  drawnUids := state.stateFile.entries.map Prod.fst
  markerSeen := .empty
  trailSent := state.stateFile
  trailSavedAt := 0
  stateFile := state.stateFile
  history := state.history

/-- The layer, what it has still to do, and the time. -/
structure Run where
  state : State
  todo : List Op
  clock : ℚ

/-- A track arrives or a turn of the loop begins, at times that do not decrease and when the layer
is at rest; the next operation is done; or the layer is restarted, at any moment. -/
inductive Event where
  | arrive (clock : ℚ) (track : Track)
  | turn (now : ℚ)
  | next
  | restart

variable (L : Setup)

def Run.step (run : Run) : Event → Run
  | .arrive clock track =>
    match run.todo with
    | [] =>
      if run.clock ≤ clock then
        { run with todo := Layer.handler L.dropTakIngress clock track, clock := clock }
      else run
    | _ :: _ => run
  | .turn now =>
    match run.todo with
    | [] => if run.clock ≤ now then { run with todo := drTurn now, clock := now } else run
    | _ :: _ => run
  | .next =>
    match run.todo with
    | [] => run
    | op :: ops =>
      let done := run.state.exec L.orphanS op
      { run with state := done.1, todo := done.2 ++ ops }
  | .restart => { run with state := run.state.restart, todo := [] }

/-- Every state on the way satisfies `P`, and the operations end in one that satisfies `Q`. -/
inductive Completes (orphanS : ℚ) (P Q : State → Prop) : State → List Op → Prop where
  | done {state : State} : P state → Q state → Completes orphanS P Q state []
  | next {state : State} {op : Op} {ops : List Op} : P state →
      Completes orphanS P Q (state.exec orphanS op).1 ((state.exec orphanS op).2 ++ ops) →
      Completes orphanS P Q state (op :: ops)

/-! ### What is claimed of a state at rest -/

/-- Every trail that is drawn is in the table. -/
def Remembers (state : State) : Prop :=
  ∀ trail, IsTrail trail → Drawn trail state.history → state.trailSent.contains trail = true

/-- The marker of a trail when it is known, else the trail itself. -/
def State.counted (state : State) (trail : Uid) : Uid :=
  if state.markerSeen.contains (parentOf trail) then parentOf trail else trail

/-- The marker of a trail, or the trail if the marker is not known, was last sent too long ago. -/
def LongUnsent (orphanS now : ℚ) (state : State) (trail : Uid) : Prop :=
  ∃ sent, lastSent (state.counted trail) state.history = some sent ∧ orphanS < now - sent

/-- A turn of the loop deletes the trails that were unsent too long, and no others. -/
def Retracts (orphanS now : ℚ) (before after : State) : Prop :=
  ∃ new, after.history = before.history ++ new ∧
    ∀ trail, (∃ drawing, .delete trail drawing ∈ new) ↔
      before.trailSent.contains trail = true ∧ LongUnsent orphanS now before trail

/-- No marker of a trail was moved by the loop in time and reported too long ago. -/
def MarkersReported (orphanS now : ℚ) (state : State) : Prop :=
  ∀ trail, state.trailSent.contains trail = true →
    state.markerSeen.contains (parentOf trail) = true →
      ∀ reported sent, lastReport (parentOf trail) state.history = some reported →
        lastSent (parentOf trail) state.history = some sent →
          orphanS < now - reported → orphanS < now - sent

/-- At rest every drawn trail is in the table, and a turn of the loop deletes the right trails. -/
def TrailsRight (run : Run) : Prop :=
  run.todo = [] → Remembers run.state ∧
    ∀ now, run.clock ≤ now → MarkersReported L.orphanS now run.state →
      Completes L.orphanS (fun _ => True) (Retracts L.orphanS now run.state) run.state (drTurn now)

/-! ### When it holds -/

/-- A contact that is not moved under the uid of a trail. -/
def Contact.NoTrail (contact : Contact) : Prop := ∀ uid, contact.MayDraw uid → ¬IsTrail uid

/-- An operation that draws trails by reports only. -/
def Op.NoTrail : Op → Prop
  | .sendOffline uid _ => ¬IsTrail uid
  | .storeContact _ contact => contact.NoTrail
  | _ => True

/-- Trails are drawn by reports only, and the layer is restarted only when no trail was reported
since the table was saved. -/
def Run.Allowed (run : Run) : Event → Prop
  | .arrive clock track => ∀ op ∈ Layer.handler L.dropTakIngress clock track, op.NoTrail
  | .turn _ => True
  | .next => True
  | .restart => ∀ trail, IsTrail trail → ¬Unsaved trail run.state.history

/-! ### One more entry -/

section Entries

variable {uid : Uid} {history : List Entry} {entry : Entry} {clock : ℚ}

theorem lastReport_concat :
    lastReport uid (history ++ [entry]) = Entry.reportedAt uid (lastReport uid history) entry := by
  rw [lastReport, foldl_append]
  rfl

theorem lastSent_concat :
    lastSent uid (history ++ [entry]) = Entry.sentAt uid (lastSent uid history) entry := by
  rw [lastSent, foldl_append]
  rfl

theorem drawn_concat :
    Drawn uid (history ++ [entry]) ↔
      Entry.draws uid (history.foldl (Entry.draws uid) false) entry = true := by
  rw [Drawn, foldl_append]
  rfl

theorem unsaved_concat :
    Unsaved uid (history ++ [entry]) ↔
      Entry.unsaves uid (history.foldl (Entry.unsaves uid) false) entry = true := by
  rw [Unsaved, foldl_append]
  rfl

/-- An entry that is no report and draws no trail, at the given time. -/
def Entry.Calm (clock : ℚ) : Entry → Prop
  | .report _ _ => False
  | .offline uid time => ¬IsTrail uid ∧ time = clock
  | .moved uid time => ¬IsTrail uid ∧ time = clock
  | .delete _ _ => True
  | .saved => True

theorem ne_of_not_isTrail {other : Uid} (hother : ¬IsTrail other) (htrail : IsTrail uid) :
    ¬other = uid := by
  rintro rfl
  exact hother htrail

theorem Entry.Calm.lastReport (h : entry.Calm clock) :
    lastReport uid (history ++ [entry]) = Layer.lastReport uid history := by
  rw [lastReport_concat]
  cases entry with
  | report other time => exact h.elim
  | offline other time => rfl
  | moved other time => rfl
  | delete other drawing => rfl
  | saved => rfl

theorem Entry.Calm.drawn (h : entry.Calm clock) (htrail : IsTrail uid)
    (hdrawn : Drawn uid (history ++ [entry])) : Drawn uid history := by
  rw [drawn_concat] at hdrawn
  cases entry with
  | report other time => exact h.elim
  | offline other time =>
    rw [Entry.draws, if_neg (ne_of_not_isTrail h.1 htrail)] at hdrawn
    exact hdrawn
  | moved other time =>
    rw [Entry.draws, if_neg (ne_of_not_isTrail h.1 htrail)] at hdrawn
    exact hdrawn
  | delete other drawing =>
    rw [Entry.draws] at hdrawn
    split at hdrawn
    next _ => cases hdrawn
    next _ => exact hdrawn
  | saved => exact hdrawn

theorem Entry.Calm.unsaved (h : entry.Calm clock) (hsaved : entry ≠ .saved) :
    Unsaved uid (history ++ [entry]) ↔ Unsaved uid history := by
  rw [unsaved_concat]
  cases entry with
  | report other time => exact h.elim
  | offline other time => rfl
  | moved other time => rfl
  | delete other drawing => rfl
  | saved => exact absurd rfl hsaved

theorem Entry.Calm.lastSent_trail (h : entry.Calm clock) (htrail : IsTrail uid) :
    lastSent uid (history ++ [entry]) = Layer.lastSent uid history := by
  rw [lastSent_concat]
  cases entry with
  | report other time => exact h.elim
  | offline other time => rw [Entry.sentAt, if_neg (ne_of_not_isTrail h.1 htrail)]
  | moved other time => rw [Entry.sentAt, if_neg (ne_of_not_isTrail h.1 htrail)]
  | delete other drawing => rfl
  | saved => rfl

/-- What was last sent by a calm entry was sent now or before. -/
theorem Entry.Calm.lastSent (h : entry.Calm clock) :
    lastSent uid (history ++ [entry]) = some clock ∨
      Layer.lastSent uid (history ++ [entry]) = Layer.lastSent uid history := by
  rw [lastSent_concat]
  cases entry with
  | report other time => exact h.elim
  | offline other time =>
    rw [Entry.sentAt, h.2]
    split
    next _ => exact .inl rfl
    next _ => exact .inr rfl
  | moved other time =>
    rw [Entry.sentAt, h.2]
    split
    next _ => exact .inl rfl
    next _ => exact .inr rfl
  | delete other drawing => exact .inr rfl
  | saved => exact .inr rfl

end Entries

/-! ### What holds at every moment and at rest -/

/-- What the file says of trails that were not reported since it was saved, and the order of the
events. -/
structure Lasting (clock : ℚ) (state : State) : Prop where
  filed : ∀ trail sent, state.stateFile.get? trail = some sent → IsTrail trail ∧
    (¬Unsaved trail state.history → lastReport trail state.history = some sent)
  drawn : ∀ trail, IsTrail trail → ¬Unsaved trail state.history → Drawn trail state.history →
    state.stateFile.contains trail = true
  times : ∀ uid reported, lastReport uid state.history = some reported →
    0 ≤ reported ∧ reported ≤ clock ∧
      ∃ sent, lastSent uid state.history = some sent ∧ reported ≤ sent
  own : ∀ trail, IsTrail trail → lastSent trail state.history = lastReport trail state.history

/-- What the tables say, but for a uid whose event was sent and is not yet noted. -/
structure Noted (fresh : Option Uid) (state : State) : Prop where
  trails : ∀ trail sent, state.trailSent.get? trail = some sent → IsTrail trail ∧
    (fresh ≠ some trail → lastReport trail state.history = some sent)
  drawn : ∀ trail, IsTrail trail → fresh ≠ some trail → Drawn trail state.history →
    state.trailSent.contains trail = true
  markers : ∀ uid seen, state.markerSeen.get? uid = some seen → ¬IsTrail uid ∧
    (fresh ≠ some uid → lastReport uid state.history = some seen)
  contacts : ∀ key contact, state.drStore.get? key = some contact → contact.NoTrail

/-- The layer at rest. -/
structure Rest (clock : ℚ) (state : State) : Prop where
  lasting : Lasting clock state
  noted : Noted none state

section Rest

variable {clock : ℚ} {state : State} {fresh : Option Uid} {entry : Entry}

theorem Lasting.mono (h : Lasting clock state) {later : ℚ} (hlater : clock ≤ later) :
    Lasting later state where
  filed := h.filed
  drawn := h.drawn
  times uid reported hreported := by
    obtain ⟨hpos, hle, hsent⟩ := h.times uid reported hreported
    exact ⟨hpos, hle.trans hlater, hsent⟩
  own := h.own

/-- A step that leaves the file and the history. -/
theorem Lasting.frame {state' : State} (h : Lasting clock state)
    (hfile : state'.stateFile = state.stateFile) (hhistory : state'.history = state.history) :
    Lasting clock state' where
  filed := by
    rw [hfile, hhistory]
    exact h.filed
  drawn := by
    rw [hfile, hhistory]
    exact h.drawn
  times := by
    rw [hhistory]
    exact h.times
  own := by
    rw [hhistory]
    exact h.own

/-- The times of the events after a calm entry. -/
theorem Lasting.times_log (h : Lasting clock state) (hcalm : entry.Calm clock) (uid : Uid)
    (reported : ℚ) (hreported : lastReport uid (state.history ++ [entry]) = some reported) :
    0 ≤ reported ∧ reported ≤ clock ∧
      ∃ sent, lastSent uid (state.history ++ [entry]) = some sent ∧ reported ≤ sent := by
  rw [hcalm.lastReport] at hreported
  obtain ⟨hpos, hle, sent, hsent, hbefore⟩ := h.times uid reported hreported
  refine ⟨hpos, hle, ?_⟩
  rcases @Entry.Calm.lastSent uid state.history entry clock hcalm with hnow | hsame
  · exact ⟨clock, hnow, hle⟩
  · exact ⟨sent, hsame.trans hsent, hbefore⟩

theorem Lasting.log (h : Lasting clock state) (hcalm : entry.Calm clock) (hsaved : entry ≠ .saved) :
    Lasting clock (state.log entry) where
  filed trail sent hget := by
    refine ⟨(h.filed trail sent hget).1, fun hunsaved => ?_⟩
    show lastReport trail (state.history ++ [entry]) = some sent
    rw [hcalm.lastReport]
    exact (h.filed trail sent hget).2 fun hold => hunsaved ((hcalm.unsaved hsaved).mpr hold)
  drawn trail htrail hunsaved hdrawn :=
    h.drawn trail htrail (fun hold => hunsaved ((hcalm.unsaved hsaved).mpr hold))
      (hcalm.drawn htrail hdrawn)
  times := h.times_log hcalm
  own trail htrail := by
    show lastSent trail (state.history ++ [entry]) = lastReport trail (state.history ++ [entry])
    rw [hcalm.lastReport, hcalm.lastSent_trail htrail]
    exact h.own trail htrail

theorem Noted.log (h : Noted fresh state) (hcalm : entry.Calm clock) :
    Noted fresh (state.log entry) where
  trails trail sent hget := by
    refine ⟨(h.trails trail sent hget).1, fun hfresh => ?_⟩
    show lastReport trail (state.history ++ [entry]) = some sent
    rw [hcalm.lastReport]
    exact (h.trails trail sent hget).2 hfresh
  drawn trail htrail hfresh hdrawn := h.drawn trail htrail hfresh (hcalm.drawn htrail hdrawn)
  markers uid seen hget := by
    refine ⟨(h.markers uid seen hget).1, fun hfresh => ?_⟩
    show lastReport uid (state.history ++ [entry]) = some seen
    rw [hcalm.lastReport]
    exact (h.markers uid seen hget).2 hfresh
  contacts := h.contacts

theorem Rest.log (h : Rest clock state) (hcalm : entry.Calm clock) (hsaved : entry ≠ .saved) :
    Rest clock (state.log entry) :=
  ⟨h.lasting.log hcalm hsaved, h.noted.log hcalm⟩

/-- A step that leaves the trail table, the file and the history, and puts nothing new into the
store or the marker table. -/
theorem Noted.frame {state' : State} (h : Noted fresh state)
    (htrails : state'.trailSent = state.trailSent) (hhistory : state'.history = state.history)
    (hmarkers : ∀ uid seen, state'.markerSeen.get? uid = some seen →
      state.markerSeen.get? uid = some seen)
    (hcontacts : ∀ key contact, state'.drStore.get? key = some contact → contact.NoTrail) :
    Noted fresh state' where
  trails := by
    rw [htrails, hhistory]
    exact h.trails
  drawn := by
    rw [htrails, hhistory]
    exact h.drawn
  markers uid seen hget := by
    rw [hhistory]
    exact h.markers uid seen (hmarkers uid seen hget)
  contacts := hcontacts

/-- A plain operation keeps the layer at rest: it sends no report and forgets no trail. -/
def Op.Plain (clock : ℚ) : Op → Prop
  | .send _ _ => False
  | .sendOffline uid time => ¬IsTrail uid ∧ time = clock
  | .storeContact _ contact => contact.NoTrail
  | .sawTrail _ _ => False
  | .sawMarker _ _ => False
  | .forgetTrail _ => False
  | .extrapolate now contact => contact.NoTrail ∧ now = clock
  | _ => True

theorem Rest.save (h : Rest clock state) (now : ℚ) :
    Rest clock
      (({ state with trailSavedAt := now, stateFile := state.trailSent } : State).log .saved) where
  lasting :=
    { filed := fun trail sent hget => by
        obtain ⟨htrail, hsent⟩ := h.noted.trails trail sent hget
        refine ⟨htrail, fun _ => ?_⟩
        show lastReport trail (state.history ++ [.saved]) = some sent
        rw [lastReport_concat]
        exact hsent (some_ne_none trail).symm
      drawn := fun trail htrail _ hdrawn => by
        have hcalm : Entry.saved.Calm clock := trivial
        exact h.noted.drawn trail htrail (some_ne_none trail).symm (hcalm.drawn htrail hdrawn)
      times := h.lasting.times_log trivial
      own := fun trail htrail => by
        show lastSent trail (state.history ++ [.saved]) = lastReport trail (state.history ++ [.saved])
        rw [lastSent_concat, lastReport_concat]
        exact h.lasting.own trail htrail }
  noted := by
    have hsaved : Noted none
        ({ state with trailSavedAt := now, stateFile := state.trailSent } : State) :=
      h.noted.frame rfl rfl (fun _ _ hget => hget) h.noted.contacts
    have hcalm : Entry.saved.Calm clock := trivial
    exact hsaved.log hcalm

theorem Rest.exec (h : Rest clock state) {orphanS : ℚ} {op : Op} (hplain : op.Plain clock) :
    Rest clock (state.exec orphanS op).1 := by
  cases op with
  | send uid time => exact hplain.elim
  | sawTrail uid time => exact hplain.elim
  | sawMarker uid time => exact hplain.elim
  | forgetTrail uid => exact hplain.elim
  | sendOffline uid time => exact h.log hplain Entry.noConfusion
  | sendDelete uid drawing => exact h.log trivial Entry.noConfusion
  | sendDeleteOf uid => exact h.log trivial Entry.noConfusion
  | popContact uid =>
    refine ⟨h.lasting.frame rfl rfl, h.noted.frame rfl rfl (fun _ _ hget => hget) ?_⟩
    exact fun key contact hget => h.noted.contacts key contact (get?_of_get?_pop hget)
  | storeContact uid contact =>
    refine ⟨h.lasting.frame rfl rfl, h.noted.frame rfl rfl (fun _ _ hget => hget) ?_⟩
    exact forall_set h.noted.contacts hplain
  | addDrawn uid =>
    exact ⟨h.lasting.frame rfl rfl, h.noted.frame rfl rfl (fun _ _ hget => hget) h.noted.contacts⟩
  | discardDrawn uid =>
    exact ⟨h.lasting.frame rfl rfl, h.noted.frame rfl rfl (fun _ _ hget => hget) h.noted.contacts⟩
  | forgetMarker uid =>
    exact ⟨h.lasting.frame rfl rfl,
      h.noted.frame rfl rfl (fun _ _ hget => get?_of_get?_pop hget) h.noted.contacts⟩
  | deleteTrailOf uid => exact h
  | retractOrphanTrails now => exact h
  | retractTrail now trail sent => exact h
  | forgetMarkers now =>
    refine ⟨h.lasting.frame rfl rfl, h.noted.frame rfl rfl (fun uid seen hget => ?_)
      h.noted.contacts⟩
    rw [State.exec, get?_filter] at hget
    exact (filter_eq_some_iff.mp hget).1
  | saveTrailState now =>
    rw [State.exec]
    split
    next _ => exact h
    next _ => exact h.save now
  | snapshot now => exact h
  | extrapolate now contact =>
    rw [State.exec]
    split
    next uid hdraws =>
      exact h.log ⟨hplain.1 uid ⟨now, hdraws⟩, hplain.2⟩ Entry.noConfusion
    next _ => exact h

/-! ### Operations run to their end -/

variable {orphanS : ℚ} {P Q : State → Prop} {op : Op} {ops : List Op}

/-- A plain operation at rest, and what follows it. -/
theorem Rest.next (h : Rest clock state) (hplain : op.Plain clock)
    (hrest : Rest clock (state.exec orphanS op).1 →
      Completes orphanS (Lasting clock) Q (state.exec orphanS op).1
        ((state.exec orphanS op).2 ++ ops)) :
    Completes orphanS (Lasting clock) Q state (op :: ops) :=
  .next h.lasting (hrest (h.exec hplain))

theorem Completes.mono {P' Q' : State → Prop} (hP : ∀ state, P state → P' state)
    (hQ : ∀ state, Q state → Q' state) (h : Completes orphanS P Q state ops) :
    Completes orphanS P' Q' state ops := by
  induction h with
  | done hhere hend => exact .done (hP _ hhere) (hQ _ hend)
  | next hhere _ ih => exact .next (hP _ hhere) ih

theorem Completes.here (h : Completes orphanS P Q state ops) : P state := by
  cases h with
  | done hhere _ => exact hhere
  | next hhere _ => exact hhere

variable {trail : Uid} {markerSeen : PyDict Uid ℚ} {now : ℚ}

/-- A trail that is not drawn may be forgotten. -/
theorem Rest.forgetTrail (h : Rest clock state) (hgone : ¬Drawn trail state.history) :
    Rest clock { state with trailSent := state.trailSent.pop trail } where
  lasting := h.lasting.frame rfl rfl
  noted :=
    { trails := fun other sent hget => h.noted.trails other sent (get?_of_get?_pop hget)
      drawn := fun other htrail hfresh hdrawn => by
        have hne : other ≠ trail := by
          rintro rfl
          exact hgone hdrawn
        rw [contains_pop, h.noted.drawn other htrail hfresh hdrawn, decide_eq_false hne]
        rfl
      markers := h.noted.markers
      contacts := h.noted.contacts }

theorem not_drawn_delete {uid : Uid} {history : List Entry} {drawing : Bool} :
    ¬Drawn uid (history ++ [.delete uid drawing]) := by
  rw [drawn_concat, Entry.draws, if_pos rfl]
  exact Bool.false_ne_true

/-- A trail is deleted and forgotten. -/
theorem Rest.deleteTrail (h : Rest clock state)
    (hrest : ∀ state', Rest clock state' → state'.markerSeen = state.markerSeen →
      state'.history = state.history ++ [.delete trail true] →
      Completes orphanS (Lasting clock) Q state' ops) :
    Completes orphanS (Lasting clock) Q state (Layer.deleteTrail trail ++ ops) := by
  refine h.next trivial fun hdeleted => ?_
  refine .next hdeleted.lasting ?_
  refine (hdeleted.forgetTrail not_drawn_delete).next trivial fun hforgotten => ?_
  exact hrest _ hforgotten rfl rfl

/-! ### The event of a report -/

section Report

variable {uid other : Uid} {history : List Entry}

theorem lastReport_report :
    lastReport uid (history ++ [.report uid clock]) = some clock := by
  rw [lastReport_concat, Entry.reportedAt, if_pos rfl]

theorem lastReport_report_other (hne : other ≠ uid) :
    lastReport other (history ++ [.report uid clock]) = lastReport other history := by
  rw [lastReport_concat, Entry.reportedAt, if_neg hne.symm]

theorem lastSent_report : lastSent uid (history ++ [.report uid clock]) = some clock := by
  rw [lastSent_concat, Entry.sentAt, if_pos rfl]

theorem lastSent_report_other (hne : other ≠ uid) :
    lastSent other (history ++ [.report uid clock]) = lastSent other history := by
  rw [lastSent_concat, Entry.sentAt, if_neg hne.symm]

theorem unsaved_report : Unsaved uid (history ++ [.report uid clock]) := by
  rw [unsaved_concat, Entry.unsaves, if_pos rfl]

theorem unsaved_report_other (hne : other ≠ uid) :
    Unsaved other (history ++ [.report uid clock]) ↔ Unsaved other history := by
  rw [unsaved_concat, Entry.unsaves, if_neg hne.symm]
  rfl

theorem drawn_report_other (hne : other ≠ uid) :
    Drawn other (history ++ [.report uid clock]) ↔ Drawn other history := by
  rw [drawn_concat, Entry.draws, if_neg hne.symm]
  rfl

theorem Lasting.report (h : Lasting clock state) (hclock : 0 ≤ clock) (uid : Uid) :
    Lasting clock (state.log (.report uid clock)) where
  filed trail sent hget := by
    refine ⟨(h.filed trail sent hget).1, fun hunsaved => ?_⟩
    have hne : trail ≠ uid := by
      rintro rfl
      exact hunsaved unsaved_report
    show lastReport trail (state.history ++ [.report uid clock]) = some sent
    rw [lastReport_report_other hne]
    exact (h.filed trail sent hget).2 fun hold => hunsaved ((unsaved_report_other hne).mpr hold)
  drawn trail htrail hunsaved hdrawn := by
    have hne : trail ≠ uid := by
      rintro rfl
      exact hunsaved unsaved_report
    exact h.drawn trail htrail (fun hold => hunsaved ((unsaved_report_other hne).mpr hold))
      ((drawn_report_other hne).mp hdrawn)
  times other reported hreported := by
    show 0 ≤ reported ∧ reported ≤ clock ∧
      ∃ sent, lastSent other (state.history ++ [.report uid clock]) = some sent ∧ reported ≤ sent
    have hreported : lastReport other (state.history ++ [.report uid clock]) = some reported :=
      hreported
    rcases eq_or_ne other uid with rfl | hne
    · rw [lastReport_report] at hreported
      obtain rfl := some.inj hreported
      exact ⟨hclock, le_refl clock, clock, lastSent_report, le_refl clock⟩
    · rw [lastReport_report_other hne] at hreported
      rw [lastSent_report_other hne]
      exact h.times other reported hreported
  own trail htrail := by
    show lastSent trail (state.history ++ [.report uid clock]) =
      lastReport trail (state.history ++ [.report uid clock])
    rcases eq_or_ne trail uid with rfl | hne
    · rw [lastSent_report, lastReport_report]
    · rw [lastSent_report_other hne, lastReport_report_other hne]
      exact h.own trail htrail

theorem Noted.report (h : Noted none state) (uid : Uid) :
    Noted (some uid) (state.log (.report uid clock)) where
  trails trail sent hget := by
    refine ⟨(h.trails trail sent hget).1, fun hfresh => ?_⟩
    show lastReport trail (state.history ++ [.report uid clock]) = some sent
    rw [lastReport_report_other fun hsame => hfresh (congrArg some hsame.symm)]
    exact (h.trails trail sent hget).2 (some_ne_none trail).symm
  drawn trail htrail hfresh hdrawn :=
    h.drawn trail htrail (some_ne_none trail).symm
      ((drawn_report_other fun hsame => hfresh (congrArg some hsame.symm)).mp hdrawn)
  markers marker seen hget := by
    refine ⟨(h.markers marker seen hget).1, fun hfresh => ?_⟩
    show lastReport marker (state.history ++ [.report uid clock]) = some seen
    rw [lastReport_report_other fun hsame => hfresh (congrArg some hsame.symm)]
    exact (h.markers marker seen hget).2 (some_ne_none marker).symm
  contacts := h.contacts

/-- The event was sent and is not yet noted. -/
structure Sent (clock : ℚ) (uid : Uid) (state : State) : Prop where
  lasting : Lasting clock state
  noted : Noted (some uid) state
  reported : lastReport uid state.history = some clock

theorem Sent.sawTrail (h : Sent clock uid state) (htrail : IsTrail uid) :
    Rest clock { state with trailSent := state.trailSent.set uid clock } where
  lasting := h.lasting.frame rfl rfl
  noted :=
    { trails := fun trail sent hget => by
        rcases eq_or_ne trail uid with rfl | hne
        · rw [get?_set_self] at hget
          obtain rfl := some.inj hget
          exact ⟨htrail, fun _ => h.reported⟩
        · rw [get?_set_of_ne _ hne] at hget
          obtain ⟨hother, hsent⟩ := h.noted.trails trail sent hget
          exact ⟨hother, fun _ => hsent fun hsame => hne (some.inj hsame).symm⟩
      drawn := fun trail hother _ hdrawn => by
        rw [contains_set]
        rcases eq_or_ne trail uid with rfl | hne
        · rw [decide_eq_true rfl, Bool.true_or]
        · rw [h.noted.drawn trail hother (fun hsame => hne (some.inj hsame).symm) hdrawn,
            Bool.or_true]
      markers := fun marker seen hget => by
        obtain ⟨hmarker, hseen⟩ := h.noted.markers marker seen hget
        refine ⟨hmarker, fun _ => hseen fun hsame => hmarker ?_⟩
        rw [← some.inj hsame]
        exact htrail
      contacts := h.noted.contacts }

theorem Sent.sawMarker (h : Sent clock uid state) (hmarker : ¬IsTrail uid) :
    Rest clock { state with markerSeen := state.markerSeen.set uid clock } where
  lasting := h.lasting.frame rfl rfl
  noted :=
    { trails := fun trail sent hget => by
        obtain ⟨htrail, hsent⟩ := h.noted.trails trail sent hget
        refine ⟨htrail, fun _ => hsent fun hsame => hmarker ?_⟩
        rw [some.inj hsame]
        exact htrail
      drawn := fun trail htrail _ hdrawn => by
        refine h.noted.drawn trail htrail (fun hsame => hmarker ?_) hdrawn
        rw [some.inj hsame]
        exact htrail
      markers := fun marker seen hget => by
        rcases eq_or_ne marker uid with rfl | hne
        · rw [get?_set_self] at hget
          obtain rfl := some.inj hget
          exact ⟨hmarker, fun _ => h.reported⟩
        · rw [get?_set_of_ne _ hne] at hget
          obtain ⟨hother, hseen⟩ := h.noted.markers marker seen hget
          exact ⟨hother, fun _ => hseen fun hsame => hne (some.inj hsame).symm⟩
      contacts := h.noted.contacts }

end Report

/-! ### The handler -/

theorem Rest.done (h : Rest clock state) :
    Completes orphanS (Lasting clock) (Rest clock) state [] := .done h.lasting h

/-- What follows the event of a report. -/
theorem Sent.reported_completes {track : Track} {drawing : Bool} (h : Sent clock track.uid state)
    (hallowed : ∀ op ∈ Layer.reported clock track drawing, op.NoTrail) :
    Completes orphanS (Lasting clock) (Rest clock) state (Layer.reported clock track drawing) := by
  have hstore : ∀ state', Rest clock state' → Completes orphanS (Lasting clock) (Rest clock) state'
      (if track.positioned ∧ track.extrap = false ∧ track.src ≠ aartos then
        [.storeContact track.uid (track.contact clock)] else []) := by
    intro state' hrest
    rw [Layer.reported] at hallowed
    split
    next hstored =>
      rw [if_pos hstored] at hallowed
      have hcontact : (track.contact clock).NoTrail :=
        hallowed _ (mem_append_right _ (mem_singleton_self _))
      exact hrest.next hcontact fun hnext => hnext.done
    next _ => exact hrest.done
  have hsaw : ∀ state', Sent clock track.uid state' →
      Completes orphanS (Lasting clock) (Rest clock) state'
        ((if IsTrail track.uid then [.sawTrail track.uid clock] else [.sawMarker track.uid clock]) ++
          if track.positioned ∧ track.extrap = false ∧ track.src ≠ aartos then
            [.storeContact track.uid (track.contact clock)] else []) := by
    intro state' hsent
    split
    next htrail => exact .next hsent.lasting (hstore _ (hsent.sawTrail htrail))
    next hmarker => exact .next hsent.lasting (hstore _ (hsent.sawMarker hmarker))
  rw [Layer.reported, append_assoc]
  split
  next _ =>
    refine .next h.lasting (hsaw _ ⟨h.lasting.frame rfl rfl, ?_, h.reported⟩)
    exact h.noted.frame rfl rfl (fun _ _ hget => hget) h.noted.contacts
  next _ => exact hsaw _ h

/-- The trail of a marker that is withdrawn is deleted, if there is one. -/
theorem Rest.deleteTrailOf (h : Rest clock state) {uid : Uid} :
    Completes orphanS (Lasting clock) (Rest clock) state [.deleteTrailOf uid] := by
  refine h.next trivial fun hend => ?_
  rw [State.exec]
  split
  next _ => exact h.deleteTrail fun state' hrest _ _ => hrest.done
  next _ => exact h.done

/-- The handler brings a layer at rest back to rest. -/
theorem Rest.handler (h : Rest clock state) (hclock : 0 ≤ clock) {dropTakIngress : Bool}
    {track : Track} (hallowed : ∀ op ∈ Layer.handler dropTakIngress clock track, op.NoTrail) :
    Completes orphanS (Lasting clock) (Rest clock) state
      (Layer.handler dropTakIngress clock track) := by
  rw [Layer.handler] at hallowed ⊢
  split_ifs at hallowed ⊢ with htak hoffline hdraw hdelete hunfused hcopy hheld
  · exact h.done
  · have hmarker : ¬IsTrail track.uid := hallowed _ mem_cons_self
    exact h.next ⟨hmarker, rfl⟩ fun hsent => hsent.next trivial fun hend => hend.done
  · exact h.next trivial fun hend => hend.done
  · exact h.next trivial fun hsent => hsent.next trivial fun hdrawn => hdrawn.next trivial
      fun hpopped => hpopped.next trivial fun hforgotten => hforgotten.deleteTrailOf
  · exact h.done
  · exact h.done
  · exact h.next trivial fun hsent => hsent.next trivial fun hend => hend.done
  · cases hevent : track.event with
    | none => exact h.done
    | some drawing =>
      rw [hevent] at hallowed
      refine .next h.lasting (Sent.reported_completes ⟨?_, ?_, lastReport_report⟩ ?_)
      · exact h.lasting.report hclock track.uid
      · exact h.noted.report track.uid
      · exact fun op hop => hallowed op (.tail _ hop)

/-! ### A turn of the loop -/

/-- The delete events of the orphans among some trails. -/
def retractions (orphanS : ℚ) (markerSeen : PyDict Uid ℚ) (now : ℚ) (trails : List (Uid × ℚ)) :
    List Entry :=
  (trails.filter fun entry => IsOrphan orphanS markerSeen now entry.1 entry.2).map
    fun entry => .delete entry.1 true

theorem retractions_orphan {entry : Uid × ℚ} {trails : List (Uid × ℚ)}
    (horphan : IsOrphan orphanS markerSeen now entry.1 entry.2) :
    retractions orphanS markerSeen now (entry :: trails) =
      .delete entry.1 true :: retractions orphanS markerSeen now trails := by
  simp [retractions, horphan]

theorem retractions_kept {entry : Uid × ℚ} {trails : List (Uid × ℚ)}
    (hkept : ¬IsOrphan orphanS markerSeen now entry.1 entry.2) :
    retractions orphanS markerSeen now (entry :: trails) =
      retractions orphanS markerSeen now trails := by
  simp [retractions, hkept]

/-- The trails are gone through one by one. -/
theorem Rest.retract : ∀ (trails : List (Uid × ℚ)) {state : State},
    Rest clock state → state.markerSeen = markerSeen →
    (∀ state', Rest clock state' →
      state'.history = state.history ++ retractions orphanS markerSeen clock trails →
      Completes orphanS (Lasting clock) Q state' ops) →
    Completes orphanS (Lasting clock) Q state
      ((trails.map fun entry => .retractTrail clock entry.1 entry.2) ++ ops)
  | [], state, h, _, hrest => hrest state h (append_nil _).symm
  | entry :: trails, state, h, hmarkers, hrest => by
    refine h.next trivial fun _ => ?_
    rw [State.exec, hmarkers]
    by_cases horphan : IsOrphan orphanS markerSeen clock entry.1 entry.2
    · rw [if_pos horphan]
      refine h.deleteTrail fun state' h' hmarkers' hhistory => ?_
      refine Rest.retract trails h' (hmarkers'.trans hmarkers) fun state'' h'' hhistory' => ?_
      refine hrest state'' h'' ?_
      rw [hhistory', hhistory, retractions_orphan horphan, append_assoc]
      rfl
    · rw [if_neg horphan]
      refine Rest.retract trails h hmarkers fun state' h' hhistory => hrest state' h' ?_
      rw [hhistory, retractions_kept horphan]

/-- Entries that delete nothing. -/
def DeletesNothing (entries : List Entry) : Prop := ∀ uid drawing, .delete uid drawing ∉ entries

theorem more_save (state : State) (now : ℚ) :
    (state.exec orphanS (.saveTrailState now)).2 = [] := by
  rw [State.exec]
  split
  next _ => rfl
  next _ => rfl

/-- Saving the table deletes nothing. -/
theorem history_save (state : State) (now : ℚ) :
    ∃ marks, (state.exec orphanS (.saveTrailState now)).1.history = state.history ++ marks ∧
      DeletesNothing marks := by
  rw [State.exec]
  split
  next _ => exact ⟨[], (append_nil _).symm, fun _ _ => not_mem_nil⟩
  next _ =>
    refine ⟨[.saved], rfl, fun uid drawing hmem => ?_⟩
    cases mem_singleton.mp hmem

/-- The contacts of a snapshot are moved one by one. -/
theorem Rest.move : ∀ (contacts : List (Uid × Contact)) {state : State},
    (∀ entry ∈ contacts, entry.2.NoTrail) → Rest clock state →
    (∀ state' moved, Rest clock state' → state'.history = state.history ++ moved →
      DeletesNothing moved → Q state') →
    Completes orphanS (Lasting clock) Q state
      (contacts.map fun entry => .extrapolate clock entry.2)
  | [], state, _, h, hrest =>
    .done h.lasting (hrest state [] h (List.append_nil _).symm fun _ _ => List.not_mem_nil)
  | entry :: contacts, state, hcontacts, h, hrest => by
    refine h.next ⟨hcontacts entry List.mem_cons_self, rfl⟩ fun hnext => ?_
    have hothers : ∀ entry ∈ contacts, entry.2.NoTrail :=
      fun other hother => hcontacts other (mem_cons_of_mem entry hother)
    rw [State.exec] at hnext ⊢
    cases hdraws : entry.2.extrapolated clock with
    | none =>
      rw [hdraws] at hnext
      exact Rest.move contacts hothers hnext hrest
    | some uid =>
      rw [hdraws] at hnext
      refine Rest.move contacts hothers hnext fun state' moved h' hhistory hmoved => ?_
      refine hrest state' (.moved uid clock :: moved) h' ?_ ?_
      · rw [hhistory]
        exact append_assoc _ [_] _
      · intro other drawing hmem
        rcases mem_cons.mp hmem with hsame | hmem
        · cases hsame
        · exact hmoved other drawing hmem

/-- A turn of the loop brings a layer at rest back to rest, and deletes the orphans only. -/
theorem Rest.turn (h : Rest clock state) :
    Completes orphanS (Lasting clock)
      (fun after => Rest clock after ∧ ∃ others,
        after.history = state.history ++
          (retractions orphanS state.markerSeen clock state.trailSent.entries ++ others) ∧
        DeletesNothing others) state (drTurn clock) := by
  refine h.next trivial fun _ => ?_
  refine Rest.retract state.trailSent.entries h rfl fun retracted hretracted hhistory => ?_
  refine hretracted.next trivial fun hforgot => ?_
  refine hforgot.next trivial fun hsaved => ?_
  rw [more_save]
  refine hsaved.next trivial fun hend => ?_
  rw [append_nil]
  refine Rest.move _ ?_ hend fun after moved hafter hmoves hmoved => ?_
  · intro entry hentry
    exact hsaved.noted.contacts entry.1 entry.2 (get?_eq_some_iff.mpr hentry)
  · obtain ⟨marks, hmarks, hnone⟩ := @history_save orphanS
      (retracted.exec orphanS (.forgetMarkers clock)).1 clock
    refine ⟨hafter, marks ++ moved, ?_, fun uid drawing hmem => ?_⟩
    · have hhistory : retracted.history = state.history ++
          retractions orphanS state.markerSeen clock state.trailSent.entries := hhistory
      rw [← append_assoc, ← append_assoc, ← hhistory]
      exact hmoves.trans (congrArg (· ++ moved) hmarks)
    · exact (mem_append.mp hmem).elim (hnone uid drawing) (hmoved uid drawing)

/-- Who is an orphan, by what was sent. -/
theorem Rest.isOrphan_iff (h : Rest clock state) (hreported : MarkersReported orphanS now state)
    {sent : ℚ} (hget : state.trailSent.get? trail = some sent) :
    IsOrphan orphanS state.markerSeen now trail sent ↔ LongUnsent orphanS now state trail := by
  obtain ⟨htrail, hsent⟩ := h.noted.trails trail sent hget
  have hsent : lastReport trail state.history = some sent :=
    hsent (some_ne_none trail).symm
  rw [IsOrphan, LongUnsent, State.counted]
  cases hmarker : state.markerSeen.get? (parentOf trail) with
  | none =>
    have hunknown : state.markerSeen.contains (parentOf trail) = false := by
      rw [PyDict.contains, hmarker]
      rfl
    have hpos : 0 ≤ sent := (h.lasting.times trail sent hsent).1
    rw [hunknown]
    show orphanS < now - max 0 sent ↔ ∃ time, lastSent trail state.history = some time ∧ _
    rw [max_eq_right hpos, h.lasting.own trail htrail, hsent]
    constructor
    · exact fun hlong => ⟨sent, rfl, hlong⟩
    · rintro ⟨time, hsame, hlong⟩
      rwa [Option.some.inj hsame]
  | some seen =>
    have hknown : state.markerSeen.contains (parentOf trail) = true :=
      contains_of_get? hmarker
    have hseen : lastReport (parentOf trail) state.history = some seen :=
      (h.noted.markers _ seen hmarker).2 (some_ne_none _).symm
    obtain ⟨hpos, -, time, htime, hle⟩ := h.lasting.times _ seen hseen
    rw [hknown]
    show orphanS < now - max seen 0 ↔
      ∃ time, lastSent (parentOf trail) state.history = some time ∧ _
    rw [max_eq_left hpos, htime]
    constructor
    · intro hlong
      have hcontains : state.trailSent.contains trail = true := contains_of_get? hget
      exact ⟨time, rfl, hreported trail hcontains hknown seen time hseen htime hlong⟩
    · rintro ⟨other, hsame, hlong⟩
      rw [← Option.some.inj hsame] at hlong
      exact hlong.trans_le (sub_le_sub_left hle now)

/-- The orphans of the table, by what was sent. -/
theorem Rest.mem_retractions (h : Rest clock state) (hreported : MarkersReported orphanS now state)
    (trail : Uid) :
    (∃ drawing, .delete trail drawing ∈
        retractions orphanS state.markerSeen now state.trailSent.entries) ↔
      state.trailSent.contains trail = true ∧ LongUnsent orphanS now state trail := by
  constructor
  · rintro ⟨drawing, hmem⟩
    obtain ⟨⟨found, sent⟩, hentry, hsame⟩ := mem_map.mp hmem
    obtain ⟨rfl, rfl⟩ := Entry.delete.inj hsame
    obtain ⟨hentry, horphan⟩ := mem_filter.mp hentry
    have hget : state.trailSent.get? found = some sent := get?_eq_some_iff.mpr hentry
    exact ⟨contains_of_get? hget,
      (h.isOrphan_iff hreported hget).mp (of_decide_eq_true horphan)⟩
  · rintro ⟨hcontains, hlong⟩
    obtain ⟨sent, hget⟩ := isSome_iff_exists.mp hcontains
    refine ⟨true, mem_map.mpr ⟨(trail, sent), mem_filter.mpr ⟨?_, ?_⟩, rfl⟩⟩
    · exact get?_eq_some_iff.mp hget
    · exact decide_eq_true ((h.isOrphan_iff hreported hget).mpr hlong)

theorem Rest.mono (h : Rest clock state) {later : ℚ} (hlater : clock ≤ later) :
    Rest later state := ⟨h.lasting.mono hlater, h.noted⟩

/-- A turn of the loop deletes the trails that were unsent too long, and no others. -/
theorem Rest.retracts (h : Rest clock state) (hnow : clock ≤ now)
    (hreported : MarkersReported orphanS now state) :
    Completes orphanS (fun _ => True) (Retracts orphanS now state) state (drTurn now) := by
  refine (h.mono hnow).turn.mono (fun _ _ => trivial) ?_
  rintro after ⟨-, others, hhistory, hnothing⟩
  refine ⟨_, hhistory, fun trail => ?_⟩
  rw [← h.mem_retractions hreported trail]
  constructor
  · rintro ⟨drawing, hmem⟩
    exact ⟨drawing, (mem_append.mp hmem).resolve_right (hnothing trail drawing)⟩
  · rintro ⟨drawing, hmem⟩
    exact ⟨drawing, mem_append_left _ hmem⟩

theorem Rest.remembers (h : Rest clock state) : Remembers state :=
  fun trail htrail hdrawn =>
    h.noted.drawn trail htrail (some_ne_none trail).symm hdrawn

/-- A restart when the file is up to date. -/
theorem Lasting.restart (h : Lasting clock state)
    (hsaved : ∀ trail, IsTrail trail → ¬Unsaved trail state.history) :
    Rest clock state.restart where
  lasting := h.frame rfl rfl
  noted :=
    { trails := fun trail sent hget => by
        obtain ⟨htrail, hsent⟩ := h.filed trail sent hget
        exact ⟨htrail, fun _ => hsent (hsaved trail htrail)⟩
      drawn := fun trail htrail _ hdrawn => h.drawn trail htrail (hsaved trail htrail) hdrawn
      markers := fun uid seen hget => by cases hget
      contacts := fun key contact hget => by cases hget }

end Rest

/-! ### Runs -/

/-- What every moment of a run has: the operations that are left bring the layer to rest. -/
structure Run.Sound (run : Run) : Prop where
  clock : 0 ≤ run.clock
  completes : Completes L.orphanS (Lasting run.clock) (Rest run.clock) run.state run.todo

section Runs

variable {L : Setup} {run : Run}

theorem Run.Sound.rest (h : run.Sound L) (htodo : run.todo = []) : Rest run.clock run.state := by
  obtain ⟨state, todo, clock⟩ := run
  have htodo : todo = [] := htodo
  subst htodo
  have hcompletes : Completes L.orphanS (Lasting clock) (Rest clock) state [] := h.completes
  cases hcompletes with
  | done _ hrest => exact hrest

theorem Run.Sound.lasting (h : run.Sound L) : Lasting run.clock run.state := h.completes.here

theorem Run.Sound.step (h : run.Sound L) {event : Event} (hallowed : run.Allowed L event) :
    (run.step L event).Sound L := by
  obtain ⟨state, todo, clock⟩ := run
  cases event with
  | arrive time track =>
    cases todo with
    | nil =>
      by_cases hlater : clock ≤ time
      · have htime : 0 ≤ time := h.clock.trans hlater
        rw [Run.step]
        dsimp only
        rw [if_pos hlater]
        exact ⟨htime, ((h.rest rfl).mono hlater).handler htime hallowed⟩
      · rw [Run.step]
        dsimp only
        rw [if_neg hlater]
        exact h
    | cons op ops => exact h
  | turn now =>
    cases todo with
    | nil =>
      by_cases hlater : clock ≤ now
      · rw [Run.step]
        dsimp only
        rw [if_pos hlater]
        exact ⟨h.clock.trans hlater, Completes.mono (fun _ hl => hl) (fun _ hend => hend.1)
          ((h.rest rfl).mono hlater).turn⟩
      · rw [Run.step]
        dsimp only
        rw [if_neg hlater]
        exact h
    | cons op ops => exact h
  | next =>
    cases todo with
    | nil => exact h
    | cons op ops =>
      have hcompletes := h.completes
      cases hcompletes with
      | next _ hrest => exact ⟨h.clock, hrest⟩
  | restart =>
    have hrest := h.lasting.restart hallowed
    exact ⟨h.clock, .done hrest.lasting hrest⟩

/-- The layer before its first event. -/
def Run.start (clock : ℚ) : Run := ⟨State.initial, [], clock⟩

theorem sound_start {clock : ℚ} (hclock : 0 ≤ clock) : (Run.start clock).Sound L where
  clock := hclock
  completes := by
    have hrest : Rest clock State.initial :=
      { lasting :=
          { filed := fun trail sent hget => by cases hget
            drawn := fun trail _ _ hdrawn => by cases hdrawn
            times := fun uid reported hreported => by cases hreported
            own := fun trail _ => rfl }
        noted :=
          { trails := fun trail sent hget => by cases hget
            drawn := fun trail _ _ hdrawn => by cases hdrawn
            markers := fun uid seen hget => by cases hget
            contacts := fun key contact hget => by cases hget } }
    exact hrest.done

def threatTrail : Uid := trailOf ['T']

/-- The trail line of a threat. -/
def threatPath : Track where
  uid := threatTrail
  src := []
  delete := false
  fromTakServer := false
  drawable := true
  unfused := false
  civilCopy := false
  suppressed := false
  event := some true
  positioned := true
  extrap := false
  ts := none
  staleS := 60
  speed := 0
  movedUid := fun _ => none

theorem threatPath_noTrail (clock : ℚ) : (threatPath.contact clock).NoTrail := by
  rintro uid ⟨now, hdraws⟩
  rw [Contact.extrapolated] at hdraws
  split_ifs at hdraws
  cases hdraws

end Runs

end Efdi.Tak.Layer
