import Efdi.Tak.NffiFeed

/-!
# Streams of the NFFI clients

What the clients of the feed read.  The threads write outside of the lock, so a message may end up
inside another one, and one of an earlier report behind one of a later report.  Neither happens in
a run in which a message to a client is begun only while no other thread is in the middle of one
there, or is dropping the client, or still has an older one of the same track for it
(`streams_in_order`).
-/

namespace Efdi.Tak

open Runs Tracks List PyDict Function

variable {py : PyText} {cfg : FeedConfig}

/-! ## What a client reads -/

/-- A message may come behind another one. -/
def NotLater (m m' : Message) : Prop := m.uid = m'.uid → m.report ≤ m'.report

/-- The bytes written to a client are those of whole messages, up to the last one, and these never
go back to an earlier report of a track. -/
def Feed.InOrder (s : Feed) (client : Client) : Prop :=
  ∃ sent : List Message, (∀ m ∈ sent, m ∈ s.reports) ∧
    s.written client <+: sent.flatMap Message.bytes ∧ sent.Pairwise NotLater

/-! ## When a message may be begun -/

/-- A thread is in the middle of a message to a client. -/
def Feed.Begun (s : Feed) (t : Thread) (client : Client) (m : Message) (rest : List UInt8) : Prop :=
  ∃ last tail, s.tasks t = .write client m rest last :: tail ∧ rest ≠ m.bytes

/-- A thread is dropping a client. -/
def Feed.Dropping (s : Feed) (t : Thread) (client : Client) : Prop :=
  ∃ tail, s.tasks t = .drop client :: tail ∨ s.tasks t = .close client :: tail

/-- A message that a task has for a client. -/
def Task.Holds (client : Client) (m : Message) : Task → Prop
  | .take message => message = m
  | .write c message _ _ => c = client ∧ message = m
  | _ => False

/-- A thread that begins a message to a client finds no other one in the middle of a message there
or dropping the client, and none that still has a message of an earlier report for it. -/
def Feed.Orderly (s : Feed) : FeedEvent → Prop
  | .advance t _ => ∀ client m last tail, s.tasks t = .write client m m.bytes last :: tail →
      ∀ other ≠ t, (∀ m' rest, ¬ s.Begun other client m' rest) ∧ ¬ s.Dropping other client ∧
        ∀ task ∈ s.tasks other, ∀ m', task.Holds client m' → NotLater m m'
  | _ => True

/-! ## The invariant -/

/-- A message of which nothing is written yet, or no message. -/
def Task.Whole : Task → Prop
  | .write _ m rest _ => rest = m.bytes
  | _ => True

/-- A message of which nothing is written yet or something. -/
def Task.Sized : Task → Prop
  | .write _ m rest _ => rest = m.bytes ∨ rest.length < m.bytes.length
  | _ => True

/-- The first section of a call. -/
def Task.Begins : Task → Prop
  | .store _ _ => True
  | .list _ => True
  | .append _ _ => True
  | .listTo _ _ => True
  | _ => False

/-- What a thread has to do, against the reports and the messages that were begun. -/
structure TasksOk (reports : List Message) (log : Client → List Message) (tasks : List Task) :
    Prop where
  held : ∀ task ∈ tasks, ∀ client m, task.Holds client m →
    m ∈ reports ∧ ∀ old ∈ log client, NotLater old m
  queued : tasks.Pairwise fun a b => ∀ client m m', a.Holds client m → b.Holds client m' →
    NotLater m m'
  sized : ∀ task ∈ tasks, task.Sized
  whole : ∀ task ∈ tasks.tail, task.Whole
  begins : ∀ task ∈ tasks, task.Begins → tasks = [task]

/-- The table has the latest message of each track. -/
def TableOk (reports : List Message) (tracks : PyDict String (Rat × Message)) : Prop :=
  ∀ key entry, tracks.get? key = some entry → entry.2.uid = key ∧ entry.2 ∈ reports ∧
    ∀ old ∈ reports, old.uid = key → old.report ≤ entry.2.report

/-- The bytes of a client, against the messages that were begun.  They end where a message ends, or
in the middle of the message of one thread, or nobody writes any more. -/
def Feed.FramedBy (s : Feed) (client : Client) (log : List Message) : Prop :=
  ((∀ t m rest, ¬ s.Begun t client m rest) ∧ s.written client = log.flatMap Message.bytes) ∨
  (∃ t m rest, s.Begun t client m rest ∧ (∀ t' m' rest', s.Begun t' client m' rest' → t' = t) ∧
    s.written client ++ rest = log.flatMap Message.bytes) ∨
  ((∀ t m rest, ¬ s.Begun t client m rest) ∧
    s.written client <+: log.flatMap Message.bytes ∧
    (s.closed client = true ∨ ∃ t, s.Dropping t client))

structure Feed.Inv (s : Feed) (log : Client → List Message) : Prop where
  tasks : ∀ t, TasksOk s.reports log (s.tasks t)
  table : TableOk s.reports s.tracks
  numbered : ∀ m ∈ s.reports, m.report < s.reports.length
  logged : ∀ client, ∀ m ∈ log client, m ∈ s.reports
  ordered : ∀ client, (log client).Pairwise NotLater
  framed : ∀ client, s.FramedBy client (log client)

theorem Feed.Inv.inOrder {s : Feed} {log : Client → List Message} (h : s.Inv log)
    (client : Client) : s.InOrder client := by
  refine ⟨log client, h.logged client, ?_, h.ordered client⟩
  rcases h.framed client with ⟨-, hwritten⟩ | ⟨t, m, rest, -, -, hwritten⟩ | ⟨-, hwritten, -⟩
  · rw [hwritten]
  · exact ⟨rest, hwritten⟩
  · exact hwritten

theorem inv_init : Feed.init.Inv fun _ => [] := by
  have htasks : ∀ t, Feed.init.tasks t = [] := fun _ => rfl
  constructor
  case tasks =>
    intro t
    rw [htasks t]
    exact ⟨nofun, .nil, nofun, nofun, nofun⟩
  case table =>
    intro key entry hentry
    cases hentry
  case numbered => exact nofun
  case logged => exact fun _ => nofun
  case ordered => exact fun _ => .nil
  case framed =>
    intro client
    refine .inl ⟨fun t m rest hbegun => ?_, rfl⟩
    obtain ⟨last, tail, htask, -⟩ := hbegun
    rw [htasks t] at htask
    cases htask

/-! ## Tables -/

theorem NotLater.refl (m : Message) : NotLater m m := fun _ => Nat.le_refl _

section

variable {reports : List Message} {tracks : PyDict String (Rat × Message)}

theorem TableOk.filter (h : TableOk reports tracks) (p : String → Rat × Message → Bool) :
    TableOk reports (tracks.filter p) := by
  intro key entry hentry
  rw [get?_filter] at hentry
  exact h key entry (Option.filter_eq_some_iff.mp hentry).1

theorem TableOk.mem_messages (h : TableOk reports tracks) {m : Message}
    (hm : m ∈ messages tracks) : m ∈ reports ∧ ∀ old ∈ reports, NotLater old m := by
  obtain ⟨⟨key, entry⟩, hentry, rfl⟩ := mem_map.mp hm
  obtain ⟨huid, hmem, hlatest⟩ := h key entry (get?_eq_some_iff.mpr hentry)
  exact ⟨hmem, fun old hold hsame => hlatest old hold (hsame.trans huid)⟩

/-- The messages of a table are of different tracks. -/
theorem TableOk.pairwise_messages (h : TableOk reports tracks) :
    (messages tracks).Pairwise NotLater := by
  rw [messages, pairwise_map]
  have hkeys := pairwise_map.mp tracks.nodup
  refine hkeys.imp_of_mem fun {a b} ha hb hne hsame => ?_
  have huid := (h a.1 a.2 (get?_eq_some_iff.mpr ha)).1
  have huid' := (h b.1 b.2 (get?_eq_some_iff.mpr hb)).1
  exact absurd (huid.symm.trans (hsame.trans huid')) hne

/-- A new report is the latest of its track. -/
theorem TableOk.set (h : TableOk reports tracks) (hnumbered : ∀ m ∈ reports, m.report < reports.length)
    (uid : String) (bytes : List UInt8) (now : Rat) :
    TableOk (reports ++ [⟨uid, reports.length, bytes⟩])
      (tracks.set uid (now, ⟨uid, reports.length, bytes⟩)) := by
  intro key entry hentry
  by_cases hkey : key = uid
  · subst hkey
    rw [get?_set_self] at hentry
    obtain rfl := Option.some.inj hentry
    refine ⟨rfl, mem_append_right _ (mem_singleton.mpr rfl), fun old hold _ => ?_⟩
    rcases mem_append.mp hold with hold | hold
    · exact Nat.le_of_lt (hnumbered old hold)
    · rw [mem_singleton.mp hold]
  · rw [get?_set_of_ne _ hkey] at hentry
    obtain ⟨huid, hmem, hlatest⟩ := h key entry hentry
    refine ⟨huid, mem_append_left _ hmem, fun old hold hsame => ?_⟩
    rcases mem_append.mp hold with hold | hold
    · exact hlatest old hold hsame
    · rw [mem_singleton.mp hold] at hsame
      exact absurd hsame.symm hkey

end

/-! ## Tasks -/

section

variable {reports added : List Message} {log : Client → List Message} {task : Task}
  {new tail : List Task}

theorem Task.Whole.sized {task : Task} (h : task.Whole) : task.Sized := by
  cases task with
  | write client m rest last => exact .inl h
  | _ => trivial

theorem TasksOk.nil : TasksOk reports log [] := ⟨nofun, .nil, nofun, nofun, nofun⟩

theorem TasksOk.grow (h : TasksOk reports log new) : TasksOk (reports ++ added) log new :=
  { h with held := fun task htask client m hm =>
      let ⟨hmem, hlog⟩ := h.held task htask client m hm
      ⟨mem_append_left _ hmem, hlog⟩ }

/-- A call that has only begun has nothing else to do. -/
theorem TasksOk.tail_eq_nil (h : TasksOk reports log (task :: tail)) (hbegins : task.Begins) :
    tail = [] :=
  (cons.inj (h.begins task (.head _) hbegins)).2

theorem TasksOk.not_begins (h : TasksOk reports log (task :: tail)) :
    ∀ other ∈ tail, ¬ other.Begins := by
  intro other hother hbegins
  obtain ⟨-, htail⟩ := cons.inj (h.begins other (.tail _ hother) hbegins)
  rw [htail] at hother
  cases hother

theorem TasksOk.of_tail (h : TasksOk reports log (task :: tail)) : TasksOk reports log tail where
  held other hother := h.held other (.tail _ hother)
  queued := (pairwise_cons.mp h.queued).2
  sized other hother := h.sized other (.tail _ hother)
  whole other hother := h.whole other (mem_of_mem_tail hother)
  begins other hother hbegins := absurd hbegins (h.not_begins other hother)

/-- The first section of a call is all that a thread has to do. -/
theorem TasksOk.single (hholds : ∀ client m, ¬ task.Holds client m) (hwhole : task.Whole) :
    TasksOk reports log [task] where
  held other hother client m hm := by
    rw [mem_singleton.mp hother] at hm
    exact absurd hm (hholds client m)
  queued := pairwise_singleton _ _
  sized other hother := by
    rw [mem_singleton.mp hother]
    exact hwhole.sized
  whole := nofun
  begins other hother _ := by rw [mem_singleton.mp hother]

/-- Tasks that a section leaves, before those that were there. -/
theorem TasksOk.append (h : TasksOk reports log tail) (hbegins : ∀ other ∈ tail, ¬ other.Begins)
    (hwhole : ∀ other ∈ tail, other.Whole)
    (hheld : ∀ other ∈ new, ∀ client m, other.Holds client m →
      m ∈ reports ∧ ∀ old ∈ log client, NotLater old m)
    (hqueued : new.Pairwise fun a b => ∀ client m m', a.Holds client m → b.Holds client m' →
      NotLater m m')
    (hcross : ∀ a ∈ new, ∀ b ∈ tail, ∀ client m m', a.Holds client m → b.Holds client m' →
      NotLater m m')
    (hnew : ∀ other ∈ new, other.Whole ∧ ¬ other.Begins) : TasksOk reports log (new ++ tail) where
  held other hother := by
    rcases mem_append.mp hother with hother | hother
    · exact hheld other hother
    · exact h.held other hother
  queued := pairwise_append.mpr ⟨hqueued, h.queued, hcross⟩
  sized other hother := by
    rcases mem_append.mp hother with hother | hother
    · exact (hnew other hother).1.sized
    · exact (hwhole other hother).sized
  whole other hother := by
    rcases mem_append.mp (mem_of_mem_tail hother) with hother | hother
    · exact (hnew other hother).1
    · exact hwhole other hother
  begins other hother hbegin := by
    rcases mem_append.mp hother with hother | hother
    · exact absurd hbegin (hnew other hother).2
    · exact absurd hbegin (hbegins other hother)

end

/-! ## Sections -/

theorem holds_send {m message : Message} {last : Bool} {target client : Client} :
    (Task.send message last target).Holds client m ↔ target = client ∧ message = m := Iff.rfl

/-- A section under the lock, or the end of `_drop`, keeps what it does not write, and leaves tasks
that fit those that were there. -/
structure Feed.Performs (s s' : Feed) (log : Client → List Message) (task : Task)
    (left : List Task) : Prop where
  written : s'.written = s.written
  others : s'.tasks = s.tasks
  closed : ∀ client, s.closed client = true ∨ task = .close client → s'.closed client = true
  dropping : ∀ client, task = .drop client → ∃ tail, left = .close client :: tail
  reports : ∃ added, s'.reports = s.reports ++ added
  numbered : ∀ m ∈ s'.reports, m.report < s'.reports.length
  table : TableOk s'.reports s'.tracks
  tasks : TasksOk s'.reports log left
  whole : ∀ other ∈ left, other.Whole

section

variable {s : Feed} {log : Client → List Message} {t : Thread} {tail : List Task}

/-- The update of a report. -/
theorem performs_store (h : s.Inv log) {track : Track} {now : Rat}
    (htasks : s.tasks t = .store track now :: tail) :
    s.Performs (s.store py cfg track now).1 log (.store track now)
      ((s.store py cfg track now).2 ++ tail) := by
  obtain rfl := (htasks ▸ h.tasks t).tail_eq_nil trivial
  have hsame : s.Performs s log (.store track now) [] :=
    ⟨rfl, rfl, fun _ hc => hc.elim id nofun, nofun, ⟨[], (append_nil _).symm⟩, h.numbered,
      h.table, .nil, nofun⟩
  rw [append_nil, Feed.store]
  split
  next => exact hsame
  next built _ =>
    dsimp only
    split
    next =>
      exact ⟨rfl, rfl, fun _ hc => hc.elim id nofun, nofun, ⟨[], (append_nil _).symm⟩,
        h.numbered, h.table.filter _, .nil, nofun⟩
    next =>
      split
      next => exact hsame
      next bytes _ =>
        refine ⟨rfl, rfl, fun _ hc => hc.elim id nofun, nofun, ⟨_, rfl⟩, ?_,
          h.table.set h.numbered _ bytes now, ?_, ?_⟩
        · intro m hm
          rw [length_append, length_singleton]
          rcases mem_append.mp hm with hm | hm
          · exact Nat.lt_succ_of_lt (h.numbered m hm)
          · rw [mem_singleton.mp hm]
            exact Nat.lt_succ_self _
        · refine ⟨?_, pairwise_singleton _ _, ?_, nofun, ?_⟩
          · intro task htask client m hm
            rw [mem_singleton.mp htask] at hm
            obtain rfl : _ = m := hm
            refine ⟨mem_append_right _ (mem_singleton.mpr rfl), fun old hold _ => ?_⟩
            exact Nat.le_of_lt (h.numbered old (h.logged client old hold))
          · intro task htask
            rw [mem_singleton.mp htask]
            trivial
          · intro task htask hbegins
            rw [mem_singleton.mp htask] at hbegins
            exact hbegins.elim
        · intro task htask
          rw [mem_singleton.mp htask]
          trivial

/-- The messages of the table, one task each. -/
theorem performs_list (h : s.Inv log) {task : Task} {now : Rat} {make : Message → Task}
    (htasks : s.tasks t = task :: tail) (hbegins : task.Begins)
    (hnot : ∀ client, task ≠ .close client ∧ task ≠ .drop client)
    (hmake : ∀ m, (make m).Whole ∧ ¬ (make m).Begins ∧
      ∀ client m', (make m).Holds client m' → m' = m) :
    s.Performs { s with tracks := s.fresh cfg now } log task
      ((messages (s.fresh cfg now)).map make ++ tail) := by
  obtain rfl := (htasks ▸ h.tasks t).tail_eq_nil hbegins
  have htable : TableOk s.reports (s.fresh cfg now) := h.table.filter _
  have hwhole : ∀ other ∈ (messages (s.fresh cfg now)).map make, other.Whole := by
    intro other hother
    obtain ⟨m, -, rfl⟩ := mem_map.mp hother
    exact (hmake m).1
  rw [append_nil]
  refine ⟨rfl, rfl, fun client hc => hc.elim id fun heq => absurd heq (hnot client).1,
    fun client heq => absurd heq (hnot client).2, ⟨[], (append_nil _).symm⟩, h.numbered,
    htable, ?_, hwhole⟩
  rw [← append_nil ((messages _).map make)]
  refine TasksOk.nil.append nofun nofun ?_ ?_ nofun fun other hother => ?_
  · intro other hother client m' hm'
    obtain ⟨m, hm, rfl⟩ := mem_map.mp hother
    obtain rfl := (hmake m).2.2 client m' hm'
    obtain ⟨hmem, hlatest⟩ := htable.mem_messages hm
    exact ⟨hmem, fun old hold => hlatest old (h.logged client old hold)⟩
  · rw [pairwise_map]
    refine htable.pairwise_messages.imp fun {a b} hab client m m' hm hm' => ?_
    obtain rfl := (hmake a).2.2 client m hm
    obtain rfl := (hmake b).2.2 client m' hm'
    exact hab
  · obtain ⟨m, -, rfl⟩ := mem_map.mp hother
    exact ⟨(hmake m).1, (hmake m).2.1⟩

/-- What is left of a list of tasks behind one that begins nothing. -/
theorem performs_rest (h : s.Inv log) {task : Task} (htasks : s.tasks t = task :: tail) :
    TasksOk s.reports log tail ∧ (∀ other ∈ tail, ¬ other.Begins) ∧ ∀ other ∈ tail, other.Whole :=
  have hok : TasksOk s.reports log (task :: tail) := htasks ▸ h.tasks t
  ⟨hok.of_tail, hok.not_begins, hok.whole⟩

/-- The snapshot of the clients. -/
theorem performs_take (h : s.Inv log) {message : Message}
    (htasks : s.tasks t = .take message :: tail) :
    s.Performs s log (.take message) (s.clients.map (.send message false) ++ tail) := by
  have hok : TasksOk s.reports log (.take message :: tail) := htasks ▸ h.tasks t
  obtain ⟨htail, hbegins, hwhole⟩ := performs_rest h htasks
  have hmem := mem_cons_self (a := Task.take message) (l := tail)
  refine ⟨rfl, rfl, fun _ hc => hc.elim id nofun, nofun, ⟨[], (append_nil _).symm⟩, h.numbered,
    h.table, htail.append hbegins hwhole ?_ ?_ ?_ ?_, ?_⟩
  · intro other hother client m hm
    obtain ⟨c, -, rfl⟩ := mem_map.mp hother
    obtain ⟨rfl, rfl⟩ := holds_send.mp hm
    exact hok.held _ hmem c message rfl
  · rw [pairwise_map]
    refine pairwise_of_forall fun a b client m m' hm hm' => ?_
    obtain ⟨-, rfl⟩ := holds_send.mp hm
    obtain ⟨-, rfl⟩ := holds_send.mp hm'
    exact NotLater.refl message
  · intro a ha b hb client m m' hm hm'
    obtain ⟨c, -, rfl⟩ := mem_map.mp ha
    obtain ⟨-, rfl⟩ := holds_send.mp hm
    exact (pairwise_cons.mp hok.queued).1 b hb client message m' rfl hm'
  · intro other hother
    obtain ⟨c, -, rfl⟩ := mem_map.mp hother
    exact ⟨rfl, id⟩
  · intro other hother
    rcases mem_append.mp hother with hother | hother
    · obtain ⟨c, -, rfl⟩ := mem_map.mp hother
      exact rfl
    · exact hwhole other hother

/-- Every task without writes. -/
theorem performs (h : s.Inv log) {task : Task} (htasks : s.tasks t = task :: tail)
    (hwrite : ∀ client m rest last, task ≠ .write client m rest last) :
    s.Performs (s.perform py cfg task).1 log task ((s.perform py cfg task).2 ++ tail) := by
  obtain ⟨htail, hbegins, hwhole⟩ := performs_rest h htasks
  cases task with
  | store track now => exact performs_store h htasks
  | list now =>
    refine performs_list h htasks trivial (fun client => ⟨nofun, nofun⟩) fun m => ?_
    exact ⟨trivial, id, fun client m' hm' => hm'.symm⟩
  | append client now =>
    obtain rfl := (htasks ▸ h.tasks t).tail_eq_nil trivial
    refine ⟨rfl, rfl, fun _ hc => hc.elim id nofun, nofun, ⟨[], (append_nil _).symm⟩,
      h.numbered, h.table, .single (fun _ _ => id) trivial, fun other hother => ?_⟩
    rw [mem_singleton.mp hother]
    trivial
  | listTo client now =>
    refine performs_list h htasks trivial (fun client => ⟨nofun, nofun⟩) fun m => ?_
    exact ⟨rfl, id, fun client m' hm' => hm'.2.symm⟩
  | take message => exact performs_take h htasks
  | drop client =>
    refine ⟨rfl, rfl, fun _ hc => hc.elim id nofun, fun c hc => ⟨tail, ?_⟩,
      ⟨[], (append_nil _).symm⟩, h.numbered, h.table,
      htail.append hbegins hwhole ?_ (pairwise_singleton _ _) ?_ ?_, ?_⟩
    · rw [Task.drop.inj hc]
      rfl
    · intro other hother c m hm
      rw [mem_singleton.mp hother] at hm
      exact hm.elim
    · intro a ha b hb c m m' hm
      rw [mem_singleton.mp ha] at hm
      exact hm.elim
    · intro other hother
      rw [mem_singleton.mp hother]
      exact ⟨trivial, id⟩
    · intro other hother
      rcases mem_cons.mp hother with rfl | hother
      · trivial
      · exact hwhole other hother
  | close client =>
    refine ⟨rfl, rfl, fun c hc => ?_, nofun, ⟨[], (append_nil _).symm⟩, h.numbered, h.table,
      htail, hwhole⟩
    rcases hc with hc | hc
    · show update s.closed client true c = true
      rw [update_apply]
      split
      next => rfl
      next => exact hc
    · rw [Task.close.inj hc]
      exact update_self ..
  | write client m rest last => exact absurd rfl (hwrite client m rest last)

end

/-! ## Streams -/

section

variable {s s' : Feed} {t : Thread} {client : Client} {log : List Message}

theorem begun_congr {t' : Thread} (h : s'.tasks t' = s.tasks t') {m : Message}
    {rest : List UInt8} : s'.Begun t' client m rest ↔ s.Begun t' client m rest := by
  rw [Feed.Begun, Feed.Begun, h]

theorem dropping_congr {t' : Thread} (h : s'.tasks t' = s.tasks t') :
    s'.Dropping t' client ↔ s.Dropping t' client := by
  rw [Feed.Dropping, Feed.Dropping, h]

theorem not_begun_of_whole {tasks : List Task} (htasks : s.tasks t = tasks)
    (h : ∀ task ∈ tasks, task.Whole) (m : Message) (rest : List UInt8) :
    ¬ s.Begun t client m rest := by
  rintro ⟨last, tail, hbegun, hne⟩
  rw [htasks] at hbegun
  rw [hbegun] at h
  exact hne (h _ (.head _))

/-- A step of a thread that is not in the middle of a message to a client, before and after. -/
theorem Feed.FramedBy.of_frame (h : s.FramedBy client log)
    (hwritten : s'.written client = s.written client)
    (hclosed : s.closed client = true → s'.closed client = true)
    (hothers : ∀ t' ≠ t, s'.tasks t' = s.tasks t')
    (hbefore : ∀ m rest, ¬ s.Begun t client m rest)
    (hafter : ∀ m rest, ¬ s'.Begun t client m rest)
    (hdropping : s.Dropping t client → s'.closed client = true ∨ s'.Dropping t client) :
    s'.FramedBy client log := by
  have hbegun : ∀ t' m rest, s'.Begun t' client m rest ↔ s.Begun t' client m rest := by
    intro t' m rest
    by_cases ht : t' = t
    · subst ht
      exact iff_of_false (hafter m rest) (hbefore m rest)
    · exact begun_congr (hothers t' ht)
  rcases h with ⟨hnone, hbytes⟩ | ⟨t₀, m, rest, hone, honly, hbytes⟩ | ⟨hnone, hbytes, hend⟩
  · exact .inl ⟨fun t' m rest h => hnone t' m rest ((hbegun t' m rest).mp h),
      hwritten.trans hbytes⟩
  · refine .inr (.inl ⟨t₀, m, rest, (hbegun t₀ m rest).mpr hone,
      fun t' m' rest' h => honly t' m' rest' ((hbegun t' m' rest').mp h), ?_⟩)
    rw [hwritten]
    exact hbytes
  · refine .inr (.inr ⟨fun t' m rest h => hnone t' m rest ((hbegun t' m rest).mp h), ?_, ?_⟩)
    · rw [hwritten]
      exact hbytes
    · rcases hend with hend | ⟨t', hend⟩
      · exact .inl (hclosed hend)
      · by_cases ht : t' = t
        · subst ht
          exact (hdropping hend).imp id fun h => ⟨t', h⟩
        · exact .inr ⟨t', (dropping_congr (hothers t' ht)).mpr hend⟩

end

/-! ## Steps -/

section

variable {s s' : Feed} {t : Thread} {task : Task} {tail left : List Task}
  {log : Client → List Message}

theorem tasked_self (s : Feed) (t : Thread) (left : List Task) : (s.tasked t left).tasks t = left :=
  update_self ..

theorem tasked_of_ne (s : Feed) {t t' : Thread} (ht : t' ≠ t) (left : List Task) :
    (s.tasked t left).tasks t' = s.tasks t' :=
  update_of_ne ht ..

/-- The tasks of all threads are in order when those of one are and the others' were. -/
theorem tasksOk_tasked {reports : List Message} (hothers : ∀ t' ≠ t, TasksOk reports log (s.tasks t'))
    (hleft : TasksOk reports log left) (t' : Thread) :
    TasksOk reports log ((s.tasked t left).tasks t') := by
  by_cases ht : t' = t
  · subst ht
    rw [tasked_self]
    exact hleft
  · rw [tasked_of_ne s ht]
    exact hothers t' ht

/-- A section keeps the invariant. -/
theorem Feed.Inv.performed (h : s.Inv log) (hp : s.Performs s' log task left)
    (htasks : s.tasks t = task :: tail)
    (hwrite : ∀ client m rest last, task ≠ .write client m rest last) :
    (s'.tasked t left).Inv log := by
  obtain ⟨added, hreports⟩ := hp.reports
  constructor
  case tasks =>
    refine tasksOk_tasked (fun t' _ => ?_) hp.tasks
    show TasksOk s'.reports log (s'.tasks t')
    rw [hp.others, hreports]
    exact (h.tasks t').grow
  case table => exact hp.table
  case numbered => exact hp.numbered
  case logged =>
    intro client m hm
    show m ∈ s'.reports
    rw [hreports]
    exact mem_append_left _ (h.logged client m hm)
  case ordered => exact h.ordered
  case framed =>
    intro client
    refine @Feed.FramedBy.of_frame s (s'.tasked t left) t client (log client) (h.framed client)
      (congrFun hp.written client) (fun hc => hp.closed client (.inl hc)) (fun t' ht => ?_) ?_
      (not_begun_of_whole (tasked_self s' t left) hp.whole) ?_
    · rw [tasked_of_ne s' ht, hp.others]
    · rintro m rest ⟨last, tail', hbegun, -⟩
      rw [htasks] at hbegun
      exact hwrite _ _ _ _ (cons.inj hbegun).1
    · rintro ⟨tail', hdrop | hclose⟩
      · rw [htasks] at hdrop
        obtain ⟨more, hmore⟩ := hp.dropping client (cons.inj hdrop).1
        exact .inr ⟨more, .inr (by rw [tasked_self, hmore])⟩
      · rw [htasks] at hclose
        exact .inl (hp.closed client (.inr (cons.inj hclose).1))

/-- The start of a call keeps the invariant. -/
theorem Feed.Inv.called (h : s.Inv log) (call : Call) (hidle : s.tasks t = []) :
    (s.tasked t [call.task]).Inv log := by
  have hwhole : ∀ task ∈ [call.task], task.Whole := by
    intro task htask
    rw [mem_singleton.mp htask]
    cases call <;> trivial
  refine { h with tasks := ?tasks, framed := ?framed }
  case tasks =>
    refine tasksOk_tasked (fun t' _ => h.tasks t')
      (.single ?_ (hwhole _ (mem_singleton.mpr rfl)))
    cases call <;> exact fun _ _ => id
  case framed =>
    intro client
    have hbefore : ∀ m rest, ¬ s.Begun t client m rest := by
      rintro m rest ⟨last, tail, hbegun, -⟩
      rw [hidle] at hbegun
      cases hbegun
    refine @Feed.FramedBy.of_frame s (s.tasked t [call.task]) t client (log client)
      (h.framed client) rfl id (fun t' ht => tasked_of_ne s ht _) hbefore
      (not_begun_of_whole (tasked_self s t _) hwhole) ?_
    rintro ⟨tail, hdrop | hclose⟩
    · rw [hidle] at hdrop
      cases hdrop
    · rw [hidle] at hclose
      cases hclose

/-- A `sendall` that fails leaves the client with what it has. -/
theorem Feed.Inv.failed (h : s.Inv log) {client : Client} {m : Message} {rest : List UInt8}
    {last : Bool} (htasks : s.tasks t = .write client m rest last :: tail) :
    (s.tasked t (.drop client :: if last then [] else tail)).Inv log := by
  obtain ⟨htail, hbegins, hwhole⟩ := performs_rest h htasks
  have hleft : ∀ other ∈ .drop client :: (if last then [] else tail), other.Whole := by
    intro other hother
    rcases mem_cons.mp hother with rfl | hother
    · trivial
    · split at hother
      next => cases hother
      next => exact hwhole other hother
  have hafter := fun c m' rest' =>
    @not_begun_of_whole _ t c _ (tasked_self s t _) hleft m' rest'
  have hends : (s.tasked t (.drop client :: if last then [] else tail)).Dropping t client :=
    ⟨_, .inl (tasked_self s t _)⟩
  refine { h with tasks := ?tasks, framed := ?framed }
  case tasks =>
    refine tasksOk_tasked (fun t' _ => h.tasks t') ?_
    have hsub : TasksOk s.reports log (if last then [] else tail) ∧
        (∀ other ∈ (if last then [] else tail), ¬ other.Begins) ∧
        ∀ other ∈ (if last then [] else tail), other.Whole := by
      split
      next => exact ⟨.nil, nofun, nofun⟩
      next => exact ⟨htail, hbegins, hwhole⟩
    refine @TasksOk.append _ _ [.drop client] _ hsub.1 hsub.2.1 hsub.2.2 ?_
      (pairwise_singleton _ _) ?_ ?_
    · intro other hother c m' hm'
      rw [mem_singleton.mp hother] at hm'
      exact hm'.elim
    · intro a ha b hb c m' m'' hm'
      rw [mem_singleton.mp ha] at hm'
      exact hm'.elim
    · intro other hother
      rw [mem_singleton.mp hother]
      exact ⟨trivial, id⟩
  case framed =>
    intro c
    by_cases hbegun : ∃ m' rest', s.Begun t c m' rest'
    · -- a message that was begun stays as it is
      obtain ⟨m', rest', hbegun⟩ := hbegun
      obtain ⟨last', tail', htask, hne⟩ := hbegun
      have hsame := (cons.inj (htasks.symm.trans htask)).1
      obtain ⟨rfl, rfl, rfl, -⟩ := Task.write.inj hsame
      rcases h.framed client with ⟨hnone, -⟩ | ⟨t₀, m₀, rest₀, hone, honly, hbytes⟩ | ⟨hnone, -⟩
      · exact absurd ⟨last, tail, htasks, hne⟩ (hnone t m rest)
      · obtain rfl := honly t m rest ⟨last, tail, htasks, hne⟩
        refine .inr (.inr ⟨fun t' m' rest' hother => ?_, ⟨rest₀, hbytes⟩, .inr ⟨t, hends⟩⟩)
        by_cases ht : t' = t
        · subst ht
          exact hafter client m' rest' hother
        · exact ht (honly t' m' rest' ((begun_congr (tasked_of_ne s ht _)).mp hother))
      · exact absurd ⟨last, tail, htasks, hne⟩ (hnone t m rest)
    · have hbefore : ∀ m' rest', ¬ s.Begun t c m' rest' :=
        fun m' rest' hb => hbegun ⟨m', rest', hb⟩
      refine @Feed.FramedBy.of_frame s _ t c (log c) (h.framed c) rfl id
        (fun t' ht => tasked_of_ne s ht _) hbefore (hafter c) ?_
      rintro ⟨tail', hdrop | hclose⟩
      · rw [htasks] at hdrop
        cases hdrop
      · rw [htasks] at hclose
        cases hclose

/-! ### Writes -/

variable {client : Client} {m : Message} {rest : List UInt8} {last : Bool}

/-- How much of a message is left does not matter to the tasks. -/
theorem TasksOk.write {reports : List Message} {rest' : List UInt8}
    (h : TasksOk reports log (.write client m rest last :: tail))
    (hsized : (Task.write client m rest' last).Sized) :
    TasksOk reports log (.write client m rest' last :: tail) where
  held other hother := by
    rcases mem_cons.mp hother with rfl | hother
    · exact fun c m' hm' => h.held (.write client m rest last) (.head _) c m' hm'
    · exact h.held other (.tail _ hother)
  queued := pairwise_cons.mpr (pairwise_cons.mp h.queued)
  sized other hother := by
    rcases mem_cons.mp hother with rfl | hother
    · exact hsized
    · exact h.sized other (.tail _ hother)
  whole := h.whole
  begins other hother hbegins := by
    rcases mem_cons.mp hother with rfl | hother
    · exact hbegins.elim
    · exact absurd hbegins (h.not_begins other hother)

/-- A message that is begun comes behind those before it. -/
theorem TasksOk.logged {reports : List Message} {tasks : List Task}
    (h : TasksOk reports log tasks)
    (hlater : ∀ task ∈ tasks, ∀ m', task.Holds client m' → NotLater m m') :
    TasksOk reports (Function.update log client (log client ++ [m])) tasks where
  held task htask c m' hm' := by
    obtain ⟨hmem, hlog⟩ := h.held task htask c m' hm'
    refine ⟨hmem, fun old hold => ?_⟩
    by_cases hc : c = client
    · subst hc
      rw [update_self] at hold
      rcases mem_append.mp hold with hold | hold
      · exact hlog old hold
      · rw [mem_singleton.mp hold]
        exact hlater task htask m' hm'
    · rw [update_of_ne hc] at hold
      exact hlog old hold
  queued := h.queued
  sized := h.sized
  whole := h.whole
  begins := h.begins

/-- The state behind a partial write. -/
def Feed.wrote (s : Feed) (t : Thread) (client : Client) (m : Message) (rest : List UInt8)
    (last : Bool) (tail : List Task) (count : Nat) : Feed :=
  { s with written := Function.update s.written client (s.written client ++ rest.take count) }.tasked t
    (if rest.drop count = [] then tail else .write client m (rest.drop count) last :: tail)

/-- The stream of a client behind a partial write of the only message there. -/
theorem framedBy_wrote {l : List Message} {count : Nat}
    (hwhole : ∀ other ∈ tail, other.Whole) (hcount : (rest.drop count).length < m.bytes.length)
    (hbytes : s.written client ++ rest = l.flatMap Message.bytes)
    (hothers : ∀ t' ≠ t, ∀ m' rest', ¬ s.Begun t' client m' rest') :
    (s.wrote t client m rest last tail count).FramedBy client l := by
  have hwritten : (s.wrote t client m rest last tail count).written client =
      s.written client ++ rest.take count := update_self ..
  have htasks : (s.wrote t client m rest last tail count).tasks t =
      if rest.drop count = [] then tail else .write client m (rest.drop count) last :: tail :=
    tasked_self ..
  have hnone : ∀ t' ≠ t, ∀ m' rest',
      ¬ (s.wrote t client m rest last tail count).Begun t' client m' rest' :=
    fun t' ht m' rest' hbegun => hothers t' ht m' rest' ((begun_congr (tasked_of_ne _ ht _)).mp hbegun)
  by_cases hdrop : rest.drop count = []
  · rw [if_pos hdrop] at htasks
    refine .inl ⟨fun t' m' rest' hbegun => ?_, ?_⟩
    · by_cases ht : t' = t
      · subst ht
        exact not_begun_of_whole htasks hwhole m' rest' hbegun
      · exact hnone t' ht m' rest' hbegun
    · rw [hwritten, ← hbytes, take_of_length_le (drop_eq_nil_iff.mp hdrop)]
  · rw [if_neg hdrop] at htasks
    have hne : rest.drop count ≠ m.bytes := by
      intro heq
      rw [heq] at hcount
      exact Nat.lt_irrefl _ hcount
    refine .inr (.inl ⟨t, m, rest.drop count, ⟨last, tail, htasks, hne⟩, fun t' m' rest' hbegun => ?_,
      ?_⟩)
    · by_contra ht
      exact hnone t' ht m' rest' hbegun
    · rw [hwritten, append_assoc, take_append_drop]
      exact hbytes

/-- The streams of the other clients. -/
theorem framedBy_wrote_of_ne {l : List Message} {count : Nat} {c : Client} (hc : c ≠ client)
    (h : s.FramedBy c l) (htasks : s.tasks t = .write client m rest last :: tail)
    (hwhole : ∀ other ∈ tail, other.Whole) :
    (s.wrote t client m rest last tail count).FramedBy c l := by
  have hself : (s.wrote t client m rest last tail count).tasks t =
      if rest.drop count = [] then tail else .write client m (rest.drop count) last :: tail :=
    tasked_self ..
  refine @Feed.FramedBy.of_frame s _ t c l h (update_of_ne hc ..) id
    (fun t' ht => tasked_of_ne _ ht _) ?_ ?_ ?_
  · rintro m' rest' ⟨last', tail', hbegun, -⟩
    rw [htasks] at hbegun
    exact hc (Task.write.inj (cons.inj hbegun).1).1.symm
  · intro m' rest' hbegun
    by_cases hdrop : rest.drop count = []
    · rw [if_pos hdrop] at hself
      exact not_begun_of_whole hself hwhole m' rest' hbegun
    · obtain ⟨last', tail', htask, -⟩ := hbegun
      rw [hself, if_neg hdrop] at htask
      exact hc (Task.write.inj (cons.inj htask).1).1.symm
  · rintro ⟨tail', hdrop | hclose⟩
    · rw [htasks] at hdrop
      cases hdrop
    · rw [htasks] at hclose
      cases hclose

/-- What the tasks of a thread are behind a partial write. -/
theorem tasksOk_wrote {reports : List Message} {count : Nat} (hcount : 0 < count)
    (h : TasksOk reports log (.write client m rest last :: tail)) :
    TasksOk reports log (if rest.drop count = [] then tail
      else .write client m (rest.drop count) last :: tail) := by
  split
  next => exact h.of_tail
  next hdrop =>
    refine h.write (.inr ?_)
    have hlength : (rest.drop count).length < rest.length := by
      have hpos := length_pos_of_ne_nil hdrop
      rw [length_drop] at hpos ⊢
      omega
    rcases h.sized _ (.head _) with rfl | hless
    · exact hlength
    · exact hlength.trans hless

/-- A partial write in the middle of a message keeps the invariant. -/
theorem Feed.Inv.continued (h : s.Inv log) {count : Nat} (hcount : 0 < count)
    (htasks : s.tasks t = .write client m rest last :: tail) (hbegun : rest ≠ m.bytes) :
    (s.wrote t client m rest last tail count).Inv log := by
  have hok : TasksOk s.reports log (.write client m rest last :: tail) := htasks ▸ h.tasks t
  have hself : s.Begun t client m rest := ⟨last, tail, htasks, hbegun⟩
  have hsized : rest.length < m.bytes.length :=
    (hok.sized _ (.head _)).resolve_left hbegun
  refine { h with tasks := ?tasks, framed := ?framed }
  case tasks => exact tasksOk_tasked (fun t' _ => h.tasks t') (tasksOk_wrote hcount hok)
  case framed =>
    intro c
    by_cases hc : c = client
    · subst hc
      rcases h.framed c with ⟨hnone, -⟩ | ⟨t₀, m₀, rest₀, hone, honly, hbytes⟩ | ⟨hnone, -⟩
      · exact absurd hself (hnone t m rest)
      · obtain rfl := honly t m rest hself
        obtain ⟨last₀, tail₀, htask₀, -⟩ := hone
        obtain ⟨-, rfl, rfl, -⟩ := Task.write.inj (cons.inj (htasks.symm.trans htask₀)).1
        refine framedBy_wrote hok.whole ?_ hbytes
          fun t' ht m' rest' hother => ht (honly t' m' rest' hother)
        rw [length_drop]
        omega
      · exact absurd hself (hnone t m rest)
    · exact framedBy_wrote_of_ne hc (h.framed c) htasks hok.whole

/-- A message that is begun in good order keeps the invariant. -/
theorem Feed.Inv.started (h : s.Inv log) {count : Nat} (hcount : 0 < count)
    (htasks : s.tasks t = .write client m m.bytes last :: tail) (hne : m.bytes ≠ [])
    (hopen : s.closed client = false)
    (horderly : ∀ other ≠ t, (∀ m' rest, ¬ s.Begun other client m' rest) ∧
      ¬ s.Dropping other client ∧
        ∀ task ∈ s.tasks other, ∀ m', task.Holds client m' → NotLater m m') :
    (s.wrote t client m m.bytes last tail count).Inv
      (Function.update log client (log client ++ [m])) := by
  have hok : TasksOk s.reports log (.write client m m.bytes last :: tail) := htasks ▸ h.tasks t
  obtain ⟨hmem, hlog⟩ := hok.held _ (.head _) client m ⟨rfl, rfl⟩
  have hbegun : ∀ m' rest', ¬ s.Begun t client m' rest' := by
    rintro m' rest' ⟨last', tail', htask, hbegun⟩
    obtain ⟨-, rfl, rfl, -⟩ := Task.write.inj (cons.inj (htasks.symm.trans htask)).1
    exact hbegun rfl
  have hnone : ∀ t' m' rest', ¬ s.Begun t' client m' rest' := by
    intro t' m' rest'
    by_cases ht : t' = t
    · subst ht
      exact hbegun m' rest'
    · exact (horderly t' ht).1 m' rest'
  have hown : ∀ task ∈ .write client m m.bytes last :: tail, ∀ m', task.Holds client m' →
      NotLater m m' := by
    intro task htask m' hm'
    rcases mem_cons.mp htask with rfl | htask
    · obtain ⟨-, rfl⟩ := hm'
      exact NotLater.refl m
    · exact (pairwise_cons.mp hok.queued).1 task htask client m m' ⟨rfl, rfl⟩ hm'
  constructor
  case tasks =>
    refine tasksOk_tasked (fun t' ht => (h.tasks t').logged (horderly t' ht).2.2) ?_
    exact tasksOk_wrote hcount (hok.logged hown)
  case table => exact h.table
  case numbered => exact h.numbered
  case logged =>
    intro c old hold
    by_cases hc : c = client
    · subst hc
      rw [update_self] at hold
      rcases mem_append.mp hold with hold | hold
      · exact h.logged c old hold
      · rw [mem_singleton.mp hold]
        exact hmem
    · rw [update_of_ne hc] at hold
      exact h.logged c old hold
  case ordered =>
    intro c
    by_cases hc : c = client
    · subst hc
      rw [update_self]
      refine pairwise_append.mpr ⟨h.ordered c, pairwise_singleton _ _, ?_⟩
      intro old hold m' hm'
      rw [mem_singleton.mp hm']
      exact hlog old hold
    · rw [update_of_ne hc]
      exact h.ordered c
  case framed =>
    intro c
    by_cases hc : c = client
    · subst hc
      rw [update_self]
      refine framedBy_wrote hok.whole ?_ ?_ fun t' _ => hnone t'
      · have hpos := length_pos_of_ne_nil hne
        rw [length_drop]
        omega
      · rw [flatMap_append, flatMap_singleton]
        rcases h.framed c with ⟨-, hbytes⟩ | ⟨t₀, m₀, rest₀, hone, -⟩ | ⟨-, -, hend⟩
        · rw [hbytes]
        · exact absurd hone (hnone t₀ m₀ rest₀)
        · -- a client that is given up is closed or being dropped
          rcases hend with hend | ⟨t', hend⟩
          · rw [hopen] at hend
            cases hend
          · by_cases ht : t' = t
            · subst ht
              obtain ⟨tail', hdrop | hclose⟩ := hend
              · rw [htasks] at hdrop
                cases hdrop
              · rw [htasks] at hclose
                cases hclose
            · exact absurd hend (horderly t' ht).2.1
    · rw [update_of_ne hc]
      exact framedBy_wrote_of_ne hc (h.framed c) htasks hok.whole

/-- A write of nothing keeps the invariant. -/
theorem Feed.Inv.finished (h : s.Inv log)
    (htasks : s.tasks t = .write client m [] last :: tail) : (s.tasked t tail).Inv log := by
  have hok : TasksOk s.reports log (.write client m [] last :: tail) := htasks ▸ h.tasks t
  have hafter := fun c m' rest' =>
    @not_begun_of_whole _ t c _ (tasked_self s t tail) hok.whole m' rest'
  refine { h with tasks := ?tasks, framed := ?framed }
  case tasks => exact tasksOk_tasked (fun t' _ => h.tasks t') hok.of_tail
  case framed =>
    intro c
    by_cases hbegun : ∃ m' rest', s.Begun t c m' rest'
    · obtain ⟨m', rest', last', tail', htask, hne⟩ := hbegun
      obtain ⟨rfl, rfl, rfl, -⟩ := Task.write.inj (cons.inj (htasks.symm.trans htask)).1
      have hself : s.Begun t client m [] := ⟨last, tail, htasks, hne⟩
      rcases h.framed client with ⟨hnone, -⟩ | ⟨t₀, m₀, rest₀, hone, honly, hbytes⟩ | ⟨hnone, -⟩
      · exact absurd hself (hnone t m [])
      · obtain rfl := honly t m [] hself
        obtain ⟨last₀, tail₀, htask₀, -⟩ := hone
        obtain ⟨-, rfl, rfl, -⟩ := Task.write.inj (cons.inj (htasks.symm.trans htask₀)).1
        rw [append_nil] at hbytes
        refine .inl ⟨fun t' m' rest' hother => ?_, hbytes⟩
        by_cases ht : t' = t
        · subst ht
          exact hafter client m' rest' hother
        · exact ht (honly t' m' rest' ((begun_congr (tasked_of_ne s ht _)).mp hother))
      · exact absurd hself (hnone t m [])
    · have hbefore : ∀ m' rest', ¬ s.Begun t c m' rest' :=
        fun m' rest' hb => hbegun ⟨m', rest', hb⟩
      refine @Feed.FramedBy.of_frame s _ t c (log c) (h.framed c) rfl id
        (fun t' ht => tasked_of_ne s ht _) hbefore (hafter c) ?_
      rintro ⟨tail', hdrop | hclose⟩
      · rw [htasks] at hdrop
        cases hdrop
      · rw [htasks] at hclose
        cases hclose

end

/-- A step in good order keeps the invariant. -/
theorem inv_step {s : Feed} {event : FeedEvent} (h : ∃ log, s.Inv log)
    (horderly : s.Orderly event) : ∃ log, (s.step py cfg event).Inv log := by
  obtain ⟨log, h⟩ := h
  cases event with
  | call t call =>
    rw [Feed.step]
    split
    next hcall => exact ⟨log, h.called call hcall.1⟩
    next => exact ⟨log, h⟩
  | fail t =>
    rw [Feed.step]
    split
    next client m rest last tail htasks => exact ⟨log, h.failed htasks⟩
    next => exact ⟨log, h⟩
  | advance t count =>
    rw [Feed.step]
    split
    next => exact ⟨log, h⟩
    next client m rest last tail htasks =>
      rw [Feed.write]
      split
      next hrest =>
        subst hrest
        exact ⟨log, h.finished htasks⟩
      next hrest =>
        split
        next => exact ⟨log, h⟩
        next hpossible =>
          simp only [Bool.or_eq_true, decide_eq_true_eq, not_or, Bool.not_eq_true] at hpossible
          obtain ⟨⟨hopen, hzero⟩, -⟩ := hpossible
          have hcount : 0 < count := Nat.pos_of_ne_zero hzero
          by_cases hbegun : rest = m.bytes
          · subst hbegun
            exact ⟨_, h.started hcount htasks hrest hopen (horderly client m last tail htasks)⟩
          · exact ⟨log, h.continued hcount htasks hbegun⟩
    next task tail hwrite htasks =>
      have hnot : ∀ client m rest last, task ≠ .write client m rest last := by
        rintro client m rest last rfl
        exact hwrite client m rest last rfl
      exact ⟨log, h.performed (performs h htasks hnot) htasks hnot⟩

/-! ## Threads one after the other -/

def FeedEvent.thread : FeedEvent → Thread
  | .call t _ => t
  | .advance t _ => t
  | .fail t => t

/-- A thread does its own tasks only. -/
theorem step_tasks_of_ne {s : Feed} {event : FeedEvent} {other : Thread}
    (ht : other ≠ event.thread) : (s.step py cfg event).tasks other = s.tasks other := by
  have hperform : ∀ task, (s.perform py cfg task).1.tasks = s.tasks := by
    intro task
    cases task with
    | store track now =>
      rw [Feed.perform, Feed.store]
      split
      next => rfl
      next =>
        dsimp only
        split
        next => rfl
        next => split <;> rfl
    | _ => rfl
  cases event with
  | call t call =>
    rw [Feed.step]
    split
    next => exact tasked_of_ne s ht _
    next => rfl
  | fail t =>
    rw [Feed.step]
    split
    next => exact tasked_of_ne s ht _
    next => rfl
  | advance t count =>
    rw [Feed.step]
    split
    next => rfl
    next client m rest last tail _ =>
      rw [Feed.write]
      split
      next => exact tasked_of_ne s ht _
      next =>
        split
        next => rfl
        next => exact tasked_of_ne _ ht _
    next task tail _ _ =>
      exact (tasked_of_ne _ ht _).trans (congrFun (hperform task) other)

theorem final_tasks_of_ne {t other : Thread} (ht : other ≠ t) : ∀ {s : Feed}
    {events : List FeedEvent}, (∀ event ∈ events, event.thread = t) →
      (final (Feed.step py cfg) s events).tasks other = s.tasks other
  | _, [], _ => rfl
  | s, event :: events, h => by
    have hevent : event.thread = t := h event (.head _)
    rw [final_cons, final_tasks_of_ne ht fun later hlater => h later (.tail _ hlater),
      step_tasks_of_ne (hevent.symm ▸ ht)]

/-- A thread that runs while the others have nothing to do is in good order. -/
theorem guarded_of_thread {t : Thread} : ∀ {s : Feed} {events : List FeedEvent},
    (∀ other ≠ t, s.tasks other = []) → (∀ event ∈ events, event.thread = t) →
      Guarded (Feed.step py cfg) Feed.Orderly s events
  | _, [], _, _ => trivial
  | s, event :: events, hidle, h => by
    have hevent : event.thread = t := h event (.head _)
    refine ⟨?_, guarded_of_thread (fun other ht => ?_)
      fun later hlater => h later (.tail _ hlater)⟩
    · cases event with
      | call t' call => trivial
      | fail t' => trivial
      | advance t' count =>
        obtain rfl : t' = t := hevent
        intro client m last tail _ other ht
        have hnil := hidle other ht
        refine ⟨?_, ?_, ?_⟩
        · rintro m' rest ⟨last', tail', hbegun, -⟩
          rw [hnil] at hbegun
          cases hbegun
        · rintro ⟨tail', hdrop | hclose⟩
          · rw [hnil] at hdrop
            cases hdrop
          · rw [hnil] at hclose
            cases hclose
        · intro task htask
          rw [hnil] at htask
          cases htask
    · rw [step_tasks_of_ne (hevent.symm ▸ ht)]
      exact hidle other ht

/-- In a run in good order, whatever the interleaving, the bytes written to each client are at every
moment those of whole messages up to the last, and no message of a track goes back to an earlier
report. -/
theorem streams_in_order (py : PyText) (cfg : FeedConfig) (events : List FeedEvent)
    (h : Guarded (Feed.step py cfg) Feed.Orderly Feed.init events) :
    Always (Feed.step py cfg) (fun s => ∀ client, s.InOrder client) Feed.init events := by
  have hinv : Always (Feed.step py cfg) (fun s => ∃ log, s.Inv log) Feed.init events :=
    @always_of_guarded _ _ _ (fun s => ∃ log, s.Inv log) Feed.Orderly
      (fun _ _ hs horderly => inv_step hs horderly) _ _ ⟨_, inv_init⟩ h
  exact hinv.imp fun s hs client =>
    let ⟨_, hlog⟩ := hs
    hlog.inOrder client

theorem country_pos : 0 < 1024 := by decide

/-- A feed whose documents are all the same. -/
def sampleFeed : FeedConfig where
  build _ _ := (frame .ip1 ⟨0, 0, ⟨0, country_pos⟩⟩ [60, 47, 62] 0).map some
  stale _ _ := false

/-- A track with a uid. -/
def sampleTrack : Track := PyDict.empty.set "uid" (.str "ANDROID-1")

/-- A client that connects to an empty table. -/
def connecting : List FeedEvent :=
  [.call (.connect 0) (.addClient 0 0), .advance (.connect 0) 0, .advance (.connect 0) 0]

/-- A report that is sent in two parts. -/
def reporting : List FeedEvent :=
  [.call .subscriber (.update sampleTrack 0), .advance .subscriber 0, .advance .subscriber 0,
    .advance .subscriber 1, .advance .subscriber 18]

theorem streams_in_order_report :
    (final (Feed.step asciiText sampleFeed) Feed.init (connecting ++ reporting)).written 0 =
        [4, 0, 0, 0, 0, 0, 0, 0, 0, 0, 0, 0, 1, 0, 0, 3, 60, 47, 62] ∧
      Always (Feed.step asciiText sampleFeed) (fun s => ∀ client, s.InOrder client) Feed.init
        (connecting ++ reporting) := by
  refine ⟨by decide +kernel, streams_in_order asciiText sampleFeed _ (guarded_append.mpr ⟨?_, ?_⟩)⟩
  · refine @guarded_of_thread asciiText sampleFeed (.connect 0) _ _ (fun _ _ => rfl) ?_
    intro event hevent
    simp only [connecting, List.mem_cons, List.not_mem_nil, or_false] at hevent
    rcases hevent with rfl | rfl | rfl <;> rfl
  · refine @guarded_of_thread asciiText sampleFeed .subscriber _ _ (fun other _ => ?_) ?_
    · by_cases hconnect : other = .connect 0
      · rw [hconnect]
        rfl
      · refine @final_tasks_of_ne asciiText sampleFeed (.connect 0) other hconnect _ _ ?_
        intro event hevent
        simp only [connecting, List.mem_cons, List.not_mem_nil, or_false] at hevent
        rcases hevent with rfl | rfl | rfl <;> rfl
    · intro event hevent
      simp only [reporting, List.mem_cons, List.not_mem_nil, or_false] at hevent
      rcases hevent with rfl | rfl | rfl | rfl | rfl <;> rfl

/-- The main thread sends the table again while the subscriber thread is in the middle of a
report. -/
def overlapping : List FeedEvent :=
  connecting ++
    [.call .subscriber (.update sampleTrack 0), .advance .subscriber 0, .advance .subscriber 0,
      .advance .subscriber 1, .call .main (.refresh 0), .advance .main 0, .advance .main 0,
      .advance .main 1]

/-- The second byte of the client is the first one of another message. -/
theorem overlapping_not_inOrder :
    ¬ (final (Feed.step asciiText sampleFeed) Feed.init overlapping).InOrder 0 := by
  rintro ⟨sent, hreports, hwritten, -⟩
  have hone : (final (Feed.step asciiText sampleFeed) Feed.init overlapping).reports =
      [⟨"ANDROID-1", 0, [4, 0, 0, 0, 0, 0, 0, 0, 0, 0, 0, 0, 1, 0, 0, 3, 60, 47, 62]⟩] := by
    decide +kernel
  have hbytes : (final (Feed.step asciiText sampleFeed) Feed.init overlapping).written 0 =
      [4, 4] := by
    decide +kernel
  rw [hone] at hreports
  rw [hbytes] at hwritten
  cases sent with
  | nil => exact absurd hwritten.length_le (by decide)
  | cons first sent =>
    have hfirst := List.mem_singleton.mp (hreports first (.head _))
    rw [hfirst] at hwritten
    obtain ⟨rest, hrest⟩ := hwritten
    cases hrest

end Efdi.Tak
