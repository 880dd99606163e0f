import Efdi.Tracks.Handoff
import Mathlib.Data.List.Sort
import Mathlib.Data.Finset.Basic

/-!
# Countries at war

`WarStatus` keeps a country listed until the hold time has passed since the last sign of war.  The
table is kept in a file, which is written when a status begins, and not when a later sign extends
it.

The file holds the table of the process up to the notes since the last write
(`drifted_of_ne`), and a sign that extends a status is lost by a restart unless the file is
written once more (`behind_of_extends`).  So a restart keeps the countries exactly when every sign
that extends a status beyond the restart is followed by one that begins a status
(`restart_keeps_iff`).
-/

namespace Efdi.Tracks

open List PyDict

/-- What `note` uses of the library. -/
structure CountryText extends PyText where
  /-- `s.upper()`. -/
  upper : String → String
  upper_upper : ∀ s, upper (upper s) = upper s

/-- A table of a `WarStatus`: for each country, when its status runs out. -/
abbrev Until : Type := PyDict String Rat

/-- A process with its table, and the file. -/
structure WarStatus where
  /-- `_until`. -/
  runsOut : Until
  /-- The table in the file, when there is one. -/
  file : Option Until

/-- A call of `note`. -/
structure WarNote where
  country : PyJson
  now : Rat

/-- What happens to a process. -/
inductive WarEvent where
  | note (sign : WarNote)
  /-- The process ends, and a new one reads the file. -/
  | restart

namespace WarStatus

variable (T : CountryText) (hold : Rat)

/-- `str(country or "").strip().upper()`. -/
def code (country : PyJson) : String :=
  T.upper (PyStr.strip (if truthy country then pyStr T.toPyText country else ""))

/-- What `__init__` reads from the file. -/
def load (file : Option Until) : Until :=
  match file with
  | none => PyDict.empty
  | some saved => saved.entries.foldl (fun table entry => table.set (T.upper entry.1) entry.2)
      PyDict.empty

/-- `code not in self._until or self._until[code] < now`. -/
def changed (w : WarStatus) (code : String) (now : Rat) : Bool :=
  match w.runsOut.get? code with
  | none => true
  | some ends => decide (ends < now)

/-- `note`, with a file that can be written. -/
def note (w : WarStatus) (sign : WarNote) : WarStatus :=
  let country := code T sign.country
  if country = "" then w
  else
    let table := w.runsOut.set country (sign.now + hold)
    ⟨table, if w.changed country sign.now then some table else w.file⟩

/-- `WarStatus(hold_s, path)`, for the file that is left. -/
def restart (w : WarStatus) : WarStatus := ⟨load T w.file, w.file⟩

def step (w : WarStatus) : WarEvent → WarStatus
  | .note sign => w.note T hold sign
  | .restart => w.restart T

/-- A process that finds no file. -/
def fresh : WarStatus := ⟨PyDict.empty, none⟩

/-- The process after some events. -/
def run (events : List WarEvent) : WarStatus := Runs.final (step T hold) fresh events

/-- `countries`. -/
def countries (w : WarStatus) (now : Rat) : Finset String :=
  ((w.runsOut.filter fun _ ends => decide (now < ends)).entries.map Prod.fst).toFinset

end WarStatus

/-! ## Where the notes come from -/

/-- What the bridge calls. -/
inductive WarCall where
  | note (country : PyJson) (now : Rat)
  /-- `observe_standing`, for the keys of `standing`. -/
  | standing (codes : List String) (now : Rat)
  /-- `observe_alerts`. -/
  | alerts (table : PyDict String Track) (now : Rat) (minRegions : Nat)
  /-- `on_sample`, for the payload when it is JSON. -/
  | sample (payload : Option PyJson) (now : Rat)
  | restart

/-- `alert.get("level") == "red" and not alert.get("stale")`. -/
def redAlert (alert : Track) : Bool :=
  alert.field "level" == .str "red" && !truthy (alert.field "stale")

/-- `red`: the red alerts of each country. -/
def redRegions (alerts : PyDict String Track) : PyDict PyJson (List String) :=
  alerts.entries.foldl (fun red alert =>
    if redAlert alert.2 then
      red.set (alert.2.field "country") ((red.get? (alert.2.field "country")).getD [] ++ [alert.1])
    else red) PyDict.empty

/-- `json.loads(payload).get("countries") or []`, when it is a list. -/
def announced (payload : Option PyJson) : List PyJson :=
  match payload with
  | some (.dict items) =>
    match (PyJson.dict items).get? "countries" with
    | some (.list codes) => codes
    | _ => []
  | _ => []

/-- The time of a note. -/
def WarEvent.time? : WarEvent → Option Rat
  | .note sign => some sign.now
  | .restart => none

/-- The notes of a call. -/
def WarCall.events : WarCall → List WarEvent
  | .note country now => [.note ⟨country, now⟩]
  | .standing codes now => codes.map fun code => .note ⟨.str code, now⟩
  | .alerts table now minRegions =>
    ((redRegions table).entries.filter fun entry => decide (minRegions ≤ entry.2.length)).map
      fun entry => .note ⟨entry.1, now⟩
  | .sample payload now => (announced payload).map fun code => .note ⟨code, now⟩
  | .restart => [.restart]

namespace WarStatus

variable (T : CountryText) (hold : Rat)

/-- The file is written: the sign begins a status. -/
def Begins (w : WarStatus) (sign : WarNote) : Prop :=
  code T sign.country ≠ "" ∧ w.changed (code T sign.country) sign.now = true

/-- The sign moves the end of a status that has not run out. -/
def Extends (w : WarStatus) (sign : WarNote) : Prop :=
  code T sign.country ≠ "" ∧ ∃ ends, w.runsOut.get? (code T sign.country) = some ends ∧
    sign.now ≤ ends ∧ ends < sign.now + hold

/-- What makes the table and the file agree: a status begins, or a process starts. -/
def Agrees (w : WarStatus) : WarEvent → Prop
  | .note sign => w.Begins T sign
  | .restart => True

/-- What reads the file. -/
def saved (w : WarStatus) : Until := w.file.getD PyDict.empty

variable {T hold}

/-! ## Steps -/

variable {w : WarStatus} {sign : WarNote} {before : List WarEvent} {event : WarEvent}

theorem note_blank (h : code T sign.country = "") :
    w.note T hold sign = w := if_pos h

theorem note_begins (h : w.Begins T sign) :
    w.note T hold sign =
      ⟨w.runsOut.set (code T sign.country) (sign.now + hold),
        some (w.runsOut.set (code T sign.country) (sign.now + hold))⟩ := by
  rw [note, if_neg h.1]
  simp only [if_pos h.2]

/-- A sign for a status that has not run out. -/
theorem note_runs {w : WarStatus} {sign : WarNote} (hcode : code T sign.country ≠ "")
    (h : ¬ w.Begins T sign) : ∃ ends, w.runsOut.get? (code T sign.country) = some ends ∧
      sign.now ≤ ends ∧
      w.note T hold sign = ⟨w.runsOut.set (code T sign.country) (sign.now + hold), w.file⟩ := by
  have hchanged : ¬ w.changed (code T sign.country) sign.now = true := fun hc => h ⟨hcode, hc⟩
  have hnote : w.note T hold sign =
      ⟨w.runsOut.set (code T sign.country) (sign.now + hold), w.file⟩ := by
    rw [note, if_neg hcode]
    simp only [if_neg hchanged]
  rw [changed] at hchanged
  cases hget : w.runsOut.get? (code T sign.country) with
  | none =>
    rw [hget] at hchanged
    exact absurd rfl hchanged
  | some ends =>
    rw [hget] at hchanged
    exact ⟨ends, rfl, not_lt.mp fun hlt => hchanged (decide_eq_true hlt), hnote⟩

theorem code_upper (country : PyJson) : T.upper (code T country) = code T country :=
  T.upper_upper _

/-- A table whose countries are in upper case is read back. -/
theorem get?_load {file : Option Until}
    (h : ∀ country ends, (file.getD PyDict.empty).get? country = some ends →
      T.upper country = country) (country : String) :
    (load T file).get? country = (file.getD PyDict.empty).get? country := by
  cases file with
  | none => rfl
  | some saved =>
    have hfold : ∀ (entries : List (String × Rat)) (table : Until),
        (∀ entry ∈ entries, T.upper entry.1 = entry.1) → (entries.map Prod.fst).Nodup →
          (entries.foldl (fun table entry => table.set (T.upper entry.1) entry.2) table).get?
            country = (PyDict.lookup country entries).orElse fun _ => table.get? country := by
      intro entries
      induction entries with
      | nil =>
        intro table _ _
        rfl
      | cons entry entries ih =>
        intro table hupper hnodup
        obtain ⟨key, ends⟩ := entry
        rw [map_cons, nodup_cons] at hnodup
        rw [foldl_cons, ih _ (fun e he => hupper e (mem_cons_of_mem _ he)) hnodup.2,
          hupper _ mem_cons_self, PyDict.lookup]
        by_cases hkey : key = country
        · rw [if_pos hkey, ← hkey, get?_set_self, lookup_eq_none_iff.mpr hnodup.1]
          rfl
        · rw [if_neg hkey, get?_set_of_ne _ (Ne.symm hkey)]
    have hread := hfold saved.entries PyDict.empty
      (fun entry hentry => h entry.1 entry.2 (get?_eq_some_iff.mpr hentry)) saved.nodup
    rw [load, hread]
    cases hlookup : PyDict.lookup country saved.entries with
    | none => exact hlookup.symm
    | some ends => exact hlookup.symm

theorem mem_countries {now : Rat} {country : String} :
    country ∈ w.countries now ↔
      ∃ ends, w.runsOut.get? country = some ends ∧ now < ends := by
  rw [countries, mem_toFinset, mem_map]
  constructor
  · rintro ⟨⟨key, ends⟩, hmem, rfl⟩
    obtain ⟨hentry, hlt⟩ := mem_filter.mp hmem
    exact ⟨ends, get?_eq_some_iff.mpr hentry, of_decide_eq_true hlt⟩
  · rintro ⟨ends, hget, hlt⟩
    exact ⟨(country, ends), mem_filter.mpr
      ⟨get?_eq_some_iff.mp hget, decide_eq_true hlt⟩, rfl⟩

/-! ## Runs -/

theorem run_concat (events : List WarEvent) (event : WarEvent) :
    run T hold (events ++ [event]) = step T hold (run T hold events) event :=
  Runs.final_append _ _ _

/-- No status begins and no process starts. -/
def Quiet (T : CountryText) (hold : Rat) (before after : List WarEvent) : Prop :=
  ∀ front event back, after = front ++ event :: back →
    ¬ (run T hold (before ++ front)).Agrees T event

theorem Quiet.concat {after : List WarEvent} (h : Quiet T hold before after)
    (hevent : ¬ (run T hold (before ++ after)).Agrees T event) :
    Quiet T hold before (after ++ [event]) := by
  intro front other back hsplit
  rcases append_eq_append_iff.mp hsplit with ⟨more, hfront, hmore⟩ | ⟨more, hafter, hmore⟩
  · cases more with
    | nil =>
      rw [append_nil] at hfront
      obtain ⟨rfl, -⟩ := List.cons.inj hmore
      rwa [hfront]
    | cons other' more =>
      have hlength := congrArg List.length hmore
      simp only [length_cons, length_append, length_nil] at hlength
      omega
  · cases more with
    | nil =>
      rw [append_nil] at hafter
      obtain ⟨rfl, -⟩ := List.cons.inj hmore
      rwa [← hafter]
    | cons other' more =>
      obtain ⟨rfl, -⟩ := List.cons.inj hmore
      exact h front other more hafter

theorem Quiet.of_concat {after : List WarEvent} (h : Quiet T hold before (after ++ [event])) :
    Quiet T hold before after ∧ ¬ (run T hold (before ++ after)).Agrees T event := by
  refine ⟨fun front other back hsplit => ?_, h after event [] rfl⟩
  exact h front other (back ++ [event]) (by rw [hsplit, append_assoc]; rfl)

/-- The times of the notes. -/
def times (events : List WarEvent) : List Rat := events.filterMap WarEvent.time?

/-- What holds of a process and its file. -/
structure Kept (T : CountryText) (hold : Rat) (events : List WarEvent) : Prop where
  upper : ∀ country ends, (run T hold events).runsOut.get? country = some ends →
    T.upper country = country
  bounded : ∀ country ends, (run T hold events).runsOut.get? country = some ends ∨
    (run T hold events).saved.get? country = some ends → ∃ now ∈ times events, ends = now + hold
  /-- The file is behind the table. -/
  behind : ∀ country ends, (run T hold events).saved.get? country = some ends →
    ∃ later, (run T hold events).runsOut.get? country = some later ∧ ends ≤ later
  /-- It differs from the table after a sign that extended a status. -/
  drifted : ∀ country,
    (run T hold events).saved.get? country ≠ (run T hold events).runsOut.get? country →
      ∃ before sign after, events = before ++ .note sign :: after ∧
        code T sign.country = country ∧ (run T hold before).Extends T hold sign ∧
        Quiet T hold (before ++ [.note sign]) after ∧
        (run T hold events).runsOut.get? country = some (sign.now + hold)

theorem kept_nil : Kept T hold [] where
  upper := fun country ends h => by cases h
  bounded := fun country ends h => by rcases h with h | h <;> cases h
  behind := fun country ends h => by cases h
  drifted := fun country h => absurd rfl h

theorem Kept.concat {events : List WarEvent} (h : Kept T hold events)
    (hsorted : (times (events ++ [event])).Pairwise (· ≤ ·)) : Kept T hold (events ++ [event]) := by
  have hstep := @run_concat T hold events event
  have htimes : ∀ now ∈ times events, now ∈ times (events ++ [event]) := by
    intro now hnow
    rw [times, filterMap_append]
    exact mem_append_left _ hnow
  have hold_drifted : ∀ country, ¬ (run T hold events).Agrees T event →
      (run T hold events).saved.get? country ≠ (run T hold events).runsOut.get? country →
      ∃ before sign after, events ++ [event] = before ++ .note sign :: after ∧
        code T sign.country = country ∧ (run T hold before).Extends T hold sign ∧
        Quiet T hold (before ++ [.note sign]) after ∧
        (run T hold events).runsOut.get? country = some (sign.now + hold) := by
    intro country hagrees hne
    obtain ⟨before, sign, after, rfl, hcode, hextends, hquiet, hget⟩ := h.drifted country hne
    refine ⟨before, sign, after ++ [event], by simp, hcode, hextends, hquiet.concat ?_, hget⟩
    rwa [append_assoc]
  cases event with
  | restart =>
    have hload := @get?_load T (run T hold events).file fun country ends hget => by
      obtain ⟨later, hlater, -⟩ := h.behind country ends hget
      exact h.upper country later hlater
    have hrestart : ∀ country, (run T hold (events ++ [.restart])).runsOut.get? country =
        (run T hold events).saved.get? country := by
      intro country
      rw [hstep]
      exact hload country
    have hsaved : (run T hold (events ++ [.restart])).saved = (run T hold events).saved := by
      rw [hstep]
      rfl
    refine ⟨fun country ends hget => ?_, fun country ends hget => ?_,
      fun country ends hget => ?_, fun country hne => ?_⟩
    · rw [hrestart] at hget
      obtain ⟨later, hlater, -⟩ := h.behind country ends hget
      exact h.upper country later hlater
    · rw [hrestart, hsaved, or_self] at hget
      obtain ⟨now, hnow, hends⟩ := h.bounded country ends (Or.inr hget)
      exact ⟨now, htimes now hnow, hends⟩
    · rw [hsaved] at hget
      rw [hrestart]
      exact ⟨ends, hget, le_refl _⟩
    · rw [hsaved, hrestart] at hne
      exact absurd rfl hne
  | note sign =>
    have hlast : sign.now ∈ times (events ++ [.note sign]) := by
      rw [times, filterMap_append]
      exact mem_append_right _ mem_cons_self
    by_cases hblank : code T sign.country = ""
    · have hsame : run T hold (events ++ [.note sign]) = run T hold events :=
        hstep.trans (note_blank hblank)
      refine ⟨fun country ends => ?_, fun country ends hget => ?_, fun country ends => ?_,
        fun country hne => ?_⟩
      · rw [hsame]
        exact h.upper country ends
      · rw [hsame] at hget
        obtain ⟨now, hnow, hends⟩ := h.bounded country ends hget
        exact ⟨now, htimes now hnow, hends⟩
      · rw [hsame]
        exact h.behind country ends
      · rw [hsame] at hne ⊢
        exact hold_drifted country (fun hagrees => hagrees.1 hblank) hne
    -- what the table holds afterwards
    have hlive : (run T hold (events ++ [.note sign])).runsOut =
        (run T hold events).runsOut.set (code T sign.country) (sign.now + hold) := by
      rw [hstep]
      by_cases hbegins : (run T hold events).Begins T sign
      · exact congrArg WarStatus.runsOut (note_begins hbegins)
      · obtain ⟨ends, -, -, hnote⟩ := @note_runs T hold _ _ hblank hbegins
        exact congrArg WarStatus.runsOut hnote
    have hupper : ∀ country ends,
        (run T hold (events ++ [.note sign])).runsOut.get? country = some ends →
          T.upper country = country := by
      intro country ends hget
      rw [hlive] at hget
      by_cases hcountry : country = code T sign.country
      · rw [hcountry]
        exact code_upper _
      · rw [get?_set_of_ne _ hcountry] at hget
        exact h.upper country ends hget
    have hbounded : ∀ country ends,
        (run T hold (events ++ [.note sign])).runsOut.get? country = some ends →
          ∃ now ∈ times (events ++ [.note sign]), ends = now + hold := by
      intro country ends hget
      rw [hlive] at hget
      by_cases hcountry : country = code T sign.country
      · rw [hcountry, get?_set_self] at hget
        exact ⟨sign.now, hlast, (Option.some.inj hget).symm⟩
      · rw [get?_set_of_ne _ hcountry] at hget
        obtain ⟨now, hnow, hends⟩ := h.bounded country ends (Or.inl hget)
        exact ⟨now, htimes now hnow, hends⟩
    by_cases hbegins : (run T hold events).Begins T sign
    · have hsaved : (run T hold (events ++ [.note sign])).saved =
          (run T hold (events ++ [.note sign])).runsOut := by
        rw [hstep, step, note_begins hbegins]
        rfl
      refine ⟨hupper, fun country ends hget => ?_, fun country ends hget => ?_,
        fun country hne => ?_⟩
      · rw [hsaved, or_self] at hget
        exact hbounded country ends hget
      · rw [hsaved] at hget
        exact ⟨ends, hget, le_refl _⟩
      · rw [hsaved] at hne
        exact absurd rfl hne
    · obtain ⟨runs, hruns, hle, hnote⟩ := @note_runs T hold _ _ hblank hbegins
      have hsaved : (run T hold (events ++ [.note sign])).saved = (run T hold events).saved := by
        rw [hstep, step, hnote]
        rfl
      have hend : runs ≤ sign.now + hold := by
        obtain ⟨now, hnow, rfl⟩ := h.bounded _ _ (Or.inl hruns)
        rw [times, filterMap_append, pairwise_append] at hsorted
        exact add_le_add_left (hsorted.2.2 now hnow sign.now mem_cons_self) hold
      refine ⟨hupper, fun country ends hget => ?_, fun country ends hget => ?_,
        fun country hne => ?_⟩
      · rcases hget with hget | hget
        · exact hbounded country ends hget
        · rw [hsaved] at hget
          obtain ⟨now, hnow, hends⟩ := h.bounded country ends (Or.inr hget)
          exact ⟨now, htimes now hnow, hends⟩
      · rw [hsaved] at hget
        obtain ⟨later, hlater, hbehind⟩ := h.behind country ends hget
        rw [hlive]
        by_cases hcountry : country = code T sign.country
        · rw [hcountry, hruns] at hlater
          rw [hcountry, get?_set_self]
          rw [← Option.some.inj hlater] at hbehind
          exact ⟨_, rfl, le_trans hbehind hend⟩
        · rw [get?_set_of_ne _ hcountry]
          exact ⟨later, hlater, hbehind⟩
      · rw [hsaved, hlive] at hne
        rw [hlive]
        by_cases hcountry : country = code T sign.country
        · rw [hcountry, get?_set_self] at hne ⊢
          by_cases hmoved : runs < sign.now + hold
          · refine ⟨events, sign, [], rfl, rfl, ⟨hblank, runs, hruns, hle, hmoved⟩, ?_, rfl⟩
            intro front event back hsplit
            exact absurd hsplit (by simp)
          · rw [← le_antisymm hend (not_lt.mp hmoved)] at hne ⊢
            rw [← hruns] at hne ⊢
            exact hold_drifted _ hbegins hne
        · rw [get?_set_of_ne _ hcountry] at hne ⊢
          exact hold_drifted country hbegins hne

theorem kept_run : ∀ {events : List WarEvent}, (times events).Pairwise (· ≤ ·) →
    Kept T hold events := by
  intro events
  induction events using reverseRecOn with
  | nil => exact fun _ => kept_nil
  | append_singleton events event ih =>
    intro hsorted
    refine (ih ?_).concat hsorted
    rw [times, filterMap_append, pairwise_append] at hsorted
    exact hsorted.1

/-- As long as no status begins and no process starts, the file keeps the end that a sign moved. -/
theorem behind_of_extends (hextends : (run T hold before).Extends T hold sign) :
    ∀ {after : List WarEvent},
      (times (before ++ .note sign :: after)).Pairwise (· ≤ ·) →
      Quiet T hold (before ++ [.note sign]) after →
        (run T hold (before ++ .note sign :: after)).saved = (run T hold before).saved ∧
          ∃ ends, (run T hold (before ++ .note sign :: after)).runsOut.get?
              (code T sign.country) = some ends ∧ sign.now + hold ≤ ends := by
  obtain ⟨hcode, runs, hruns, hle, hmoved⟩ := hextends
  intro after
  induction after using reverseRecOn with
  | nil =>
    intro _ _
    have hbegins : ¬ (run T hold before).Begins T sign := by
      intro hbegins
      have hchanged := hbegins.2
      rw [changed, hruns] at hchanged
      exact absurd (of_decide_eq_true hchanged) (not_lt.mpr hle)
    obtain ⟨-, -, -, hnote⟩ := @note_runs T hold _ _ hcode hbegins
    rw [run_concat, step, hnote]
    exact ⟨rfl, _, get?_set_self .., le_refl _⟩
  | append_singleton after event ih =>
    intro hsorted hquiet
    obtain ⟨hquiet, hevent⟩ := hquiet.of_concat
    rw [append_assoc, singleton_append] at hevent
    rw [← cons_append, ← append_assoc] at hsorted ⊢
    rw [times, filterMap_append, pairwise_append] at hsorted
    obtain ⟨hsaved, ends, hends, hlater⟩ := ih hsorted.1 hquiet
    cases event with
    | restart => exact absurd trivial hevent
    | note other =>
      rw [run_concat, step]
      by_cases hblank : code T other.country = ""
      · rw [note_blank hblank]
        exact ⟨hsaved, ends, hends, hlater⟩
      · obtain ⟨-, -, -, hnote⟩ := @note_runs T hold _ _ hblank hevent
        rw [hnote]
        refine ⟨hsaved, ?_⟩
        by_cases hsame : code T sign.country = code T other.country
        · refine ⟨other.now + hold, ?_, add_le_add_left ?_ hold⟩
          · rw [hsame]
            exact get?_set_self ..
          · refine hsorted.2.2 sign.now ?_ other.now mem_cons_self
            rw [filterMap_append]
            exact mem_append_right _ mem_cons_self
        · refine ⟨ends, ?_, hlater⟩
          rw [← hends]
          exact get?_set_of_ne _ hsame _

/-- A restart at `t` keeps the countries exactly when every sign that extends a status beyond `t`
is followed by one that begins a status, or by an earlier restart. -/
theorem restart_keeps_iff (T : CountryText) (hold : Rat) (calls : List WarCall)
    (events : List WarEvent) (t : Rat) (_hcalls : events <+: calls.flatMap WarCall.events)
    (hsorted : (times events).Pairwise (· ≤ ·)) :
    (∀ now, t ≤ now →
        ((run T hold events).restart T).countries now = (run T hold events).countries now) ↔
      ∀ before sign after, events = before ++ .note sign :: after →
        (run T hold before).Extends T hold sign → t < sign.now + hold →
          ¬ Quiet T hold (before ++ [.note sign]) after := by
  have hkept := @kept_run T hold events hsorted
  have hload := @get?_load T (run T hold events).file fun country ends hget => by
    obtain ⟨later, hlater, -⟩ := hkept.behind country ends hget
    exact hkept.upper country later hlater
  constructor
  · rintro hsame before sign after rfl hextends hrunning hquiet
    obtain ⟨hsaved, ends, hends, hlater⟩ := behind_of_extends hextends hsorted hquiet
    obtain ⟨-, runs, hruns, -, hmoved⟩ := hextends
    have hbefore := @kept_run T hold before (by
      rw [times, List.filterMap_append, List.pairwise_append] at hsorted
      exact hsorted.1)
    -- the moment up to which the file lists the country
    obtain ⟨now, hnow, hlisted, hgone⟩ : ∃ now, t ≤ now ∧ now < ends ∧
        ∀ later, (run T hold (before ++ .note sign :: after)).saved.get?
          (code T sign.country) = some later → ¬ now < later := by
      refine ⟨max t runs, le_max_left _ _, ?_, fun later hget => ?_⟩
      · exact max_lt (lt_of_lt_of_le hrunning hlater) (lt_of_lt_of_le hmoved hlater)
      · rw [hsaved] at hget
        obtain ⟨live, hlive, hle⟩ := hbefore.behind _ later hget
        rw [hruns] at hlive
        rw [← Option.some.inj hlive] at hle
        exact not_lt.mpr (le_trans hle (le_max_right _ _))
    have hmem := mem_countries.mpr ⟨ends, hends, hlisted⟩
    rw [← hsame now hnow] at hmem
    obtain ⟨later, hget, hlt⟩ := mem_countries.mp hmem
    exact hgone later ((hload _).symm.trans hget) hlt
  · intro hcond now hnow
    ext country
    rw [mem_countries, mem_countries, show ((run T hold events).restart T).runsOut.get? country =
      (run T hold events).saved.get? country from hload country]
    by_cases hagree : (run T hold events).saved.get? country =
        (run T hold events).runsOut.get? country
    · rw [hagree]
    · obtain ⟨before, sign, after, hsplit, -, hextends, hquiet, hget⟩ :=
        hkept.drifted country hagree
      have hover : sign.now + hold ≤ t :=
        not_lt.mp fun hrunning => hcond before sign after hsplit hextends hrunning hquiet
      refine iff_of_false ?_ ?_
      · rintro ⟨ends, hends, hlt⟩
        obtain ⟨later, hlater, hle⟩ := hkept.behind country ends hends
        rw [hget] at hlater
        rw [← Option.some.inj hlater] at hle
        exact absurd (lt_of_lt_of_le hlt hle) (not_lt.mpr (le_trans hover hnow))
      · rintro ⟨ends, hends, hlt⟩
        rw [hget] at hends
        rw [← Option.some.inj hends] at hlt
        exact absurd hlt (not_lt.mpr (le_trans hover hnow))

/-! ## A day of war -/

/-- ASCII texts. -/
def asciiCountries : CountryText where
  toPyText := asciiText
  upper := fun s => String.ofList (s.toList.map Char.toUpper)
  upper_upper := by
    intro s
    have hother : ∀ c : Char, ¬ ('a'.val ≤ c.val ∧ c.val ≤ 'z'.val) → c.toUpper = c :=
      fun c h => dif_neg h
    have hchar : ∀ c : Char, c.toUpper.toUpper = c.toUpper := by
      intro c
      by_cases h : 'a'.val ≤ c.val ∧ c.val ≤ 'z'.val
      · have hupper : c.toUpper.val = c.val + ('A'.val - 'a'.val) := by
          unfold Char.toUpper
          split
          next => rfl
          next hnot => exact absurd h hnot
        refine hother _ fun hlow => ?_
        have ha : 'a'.val.toNat = 97 := rfl
        have hz : 'z'.val.toNat = 122 := rfl
        have hshift : ('A'.val - 'a'.val).toNat = 2 ^ 32 - 32 := by decide
        rw [hupper] at hlow
        simp only [UInt32.le_iff_toNat_le, UInt32.toNat_add] at h hlow
        omega
      · rw [hother c h, hother c h]
    rw [String.toList_ofList, List.map_map]
    exact congrArg String.ofList (List.map_congr_left fun c _ => hchar c)

/-- Signs of war in Ukraine, an hour apart, and then one in Russia. -/
def twoSigns : List WarEvent := [.note ⟨.str "ua", 0⟩, .note ⟨.str "ua", 3600⟩]

/-- The second sign is not followed by another. -/
theorem restart_keeps_iff_ukraine :
    (∀ now, (7200 : Rat) ≤ now →
        ((run asciiCountries (24 * 3600) twoSigns).restart asciiCountries).countries now =
          (run asciiCountries (24 * 3600) twoSigns).countries now) ↔
      ∀ before sign after, twoSigns = before ++ .note sign :: after →
        (run asciiCountries (24 * 3600) before).Extends asciiCountries (24 * 3600) sign →
          (7200 : Rat) < sign.now + 24 * 3600 →
            ¬ Quiet asciiCountries (24 * 3600) (before ++ [.note sign]) after :=
  restart_keeps_iff asciiCountries (24 * 3600) [.note (.str "ua") 0, .note (.str "ua") 3600]
    twoSigns 7200 (List.prefix_refl _) (by decide +kernel)

/-- A restart two hours after the first sign: a day and half an hour after it, the process that
kept running lists the country, and the new one does not. -/
theorem restart_forgets_sign :
    (run asciiCountries (24 * 3600) twoSigns).countries (24 * 3600 + 1800) = {"UA"} ∧
      ((run asciiCountries (24 * 3600) twoSigns).restart asciiCountries).countries
        (24 * 3600 + 1800) = ∅ := by
  constructor <;> decide +kernel

end WarStatus

end Efdi.Tracks
