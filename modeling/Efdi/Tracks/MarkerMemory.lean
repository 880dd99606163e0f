import Efdi.Base.PyDict
import Efdi.Base.Runs
import Mathlib.Algebra.Order.Ring.Rat
import Mathlib.Data.List.Induction
import Mathlib.Data.String.Basic

/-!
# Marker memory

`MarkerMemory.settle` holds the last code of a uid that declared an affiliation.  An undeclared code
that comes within the hold time is replaced by it.

The table is cut down when it is large, but only of entries whose hold time is over.  So it agrees
with the calls that were made (`Agrees`), and what is returned is read off the calls
(`settle_eq_settled`).
-/

namespace Efdi.Tracks.Marker

open Runs (final)

/-! ## The memory -/

/-- `_declared`. -/
def declared (code : String) : Option Bool :=
  match code.toList with
  | 'a' :: '-' :: c :: _ => some !(['u', 'p'].contains c)
  | 'S' :: c :: _ => some !(['U', 'P'].contains c)
  | _ => none

/-- A call of `settle`. -/
structure MarkerCall where
  uid : String
  code : String
  now : Rat

/-- `_last`: when a code was seen, and the code. -/
abbrev MarkerTable := PyDict String (Rat × String)

/-- The size above which `settle` cuts the table down. -/
def markerLimit : Nat := 20000

/-- The table after it was cut down, above a limit. -/
def cutTable (limit : Option Nat) (hold now : Rat) (last : MarkerTable) : MarkerTable :=
  if limit.any (· < last.length) then last.filter fun _ entry => decide (now - entry.1 ≤ hold)
  else last

/-- `settle`, with the size above which the table is cut down.  Without one it never is. -/
def settle (limit : Option Nat) (hold : Rat) (last : MarkerTable) (call : MarkerCall) :
    MarkerTable × String :=
  match declared call.code with
  | none => (last, call.code)
  | some true => (last.set call.uid (call.now, call.code), call.code)
  | some false =>
    match last.get? call.uid with
    | none => (cutTable limit hold call.now last, call.code)
    | some (seen, kept) =>
      if call.now - seen ≤ hold then (last, kept)
      else (cutTable limit hold call.now last, call.code)

/-- The table after some calls. -/
def tableAfter (limit : Option Nat) (hold : Rat) (calls : List MarkerCall) : MarkerTable :=
  final (fun last call => (settle limit hold last call).1) PyDict.empty calls

/-! ## What it is for -/

/-- The call declares an affiliation of a uid. -/
def MarkerCall.declares (call : MarkerCall) (uid : String) : Bool :=
  call.uid == uid && declared call.code == some true

/-- The last call that declared an affiliation of a uid. -/
def lastDeclared (uid : String) (calls : List MarkerCall) : Option MarkerCall :=
  (calls.filter (·.declares uid)).getLast?

/-- The code to draw after some calls: the last declared code within the hold time for one that
declares nothing. -/
def settled (hold : Rat) (earlier : List MarkerCall) (call : MarkerCall) : String :=
  if declared call.code = some false then
    match lastDeclared call.uid earlier with
    | none => call.code
    | some held => if call.now - held.now ≤ hold then held.code else call.code
  else call.code

variable {limit : Option Nat} {hold now : Rat} {last : MarkerTable} {calls : List MarkerCall}
  {call : MarkerCall} {uid : String}

theorem lastDeclared_append : lastDeclared uid (calls ++ [call]) =
    if call.declares uid = true then some call else lastDeclared uid calls := by
  rw [lastDeclared, List.filter_append]
  split
  next h =>
    have hkept : [call].filter (·.declares uid) = [call] := by simp [h]
    rw [hkept, List.getLast?_concat]
  next h =>
    have hdropped : [call].filter (·.declares uid) = [] := by simp [h]
    rw [hdropped, List.append_nil, lastDeclared]

theorem lastDeclared_of_undeclared (h : declared call.code ≠ some true) :
    lastDeclared uid (calls ++ [call]) = lastDeclared uid calls := by
  rw [lastDeclared_append, if_neg]
  simp [MarkerCall.declares, h]

/-! ## The table and the calls -/

/-- The entry of a uid is its last declared code.  It may be gone when its hold time is over. -/
def Agrees (hold now : Rat) (last : MarkerTable) (calls : List MarkerCall) : Prop :=
  ∀ uid, last.get? uid = (lastDeclared uid calls).map (fun held => (held.now, held.code)) ∨
    (last.get? uid = none ∧ ∃ held, lastDeclared uid calls = some held ∧ hold < now - held.now)

theorem Agrees.later (h : Agrees hold now last calls) {now' : Rat} (hle : now ≤ now') :
    Agrees hold now' last calls := by
  intro uid
  rcases h uid with hsame | ⟨hnone, held, hheld, hover⟩
  · exact .inl hsame
  · exact .inr ⟨hnone, held, hheld, lt_of_lt_of_le hover (sub_le_sub_right hle _)⟩

/-- Cutting the table down takes away entries whose hold time is over. -/
theorem Agrees.cut (h : Agrees hold now last calls) :
    Agrees hold now (cutTable limit hold now last) calls := by
  rw [cutTable]
  split
  next =>
    intro uid
    rw [PyDict.get?_filter]
    rcases h uid with hsame | ⟨hnone, hover⟩
    · cases hheld : lastDeclared uid calls with
      | none =>
        rw [hheld] at hsame
        rw [hsame]
        exact .inl rfl
      | some held =>
        rw [hheld, Option.map_some] at hsame
        rw [hsame]
        by_cases hfits : now - held.now ≤ hold
        · exact .inl (by simp [Option.filter, hfits])
        · exact .inr ⟨by simp [Option.filter, hfits], held, rfl, not_le.mp hfits⟩
    · rw [hnone]
      exact .inr ⟨rfl, hover⟩
  next => exact h

theorem Agrees.undeclared (h : Agrees hold now last calls) (hcode : declared call.code ≠ some true) :
    Agrees hold now last (calls ++ [call]) := by
  intro uid
  rw [lastDeclared_of_undeclared hcode]
  exact h uid

theorem Agrees.step (limit : Option Nat) (h : Agrees hold call.now last calls) :
    Agrees hold call.now (settle limit hold last call).1 (calls ++ [call]) := by
  rw [settle]
  cases hcode : declared call.code with
  | none => exact h.undeclared (by simp [hcode])
  | some kind =>
    cases kind with
    | true =>
      intro uid
      rw [lastDeclared_append]
      by_cases huid : uid = call.uid
      · left
        rw [huid, PyDict.get?_set_self, if_pos (by simp [MarkerCall.declares, hcode])]
        rfl
      · rw [PyDict.get?_set_of_ne _ huid,
          if_neg (by simp [MarkerCall.declares, Ne.symm huid])]
        exact h uid
    | false =>
      have hsame : Agrees hold call.now last (calls ++ [call]) := h.undeclared (by simp [hcode])
      dsimp only
      cases last.get? call.uid with
      | none => exact hsame.cut
      | some entry =>
        dsimp only
        split
        next => exact hsame
        next => exact hsame.cut

/-- What is returned is read off the calls before. -/
theorem Agrees.result (limit : Option Nat) (h : Agrees hold call.now last calls) :
    (settle limit hold last call).2 = settled hold calls call := by
  rw [settle, settled]
  cases hcode : declared call.code with
  | none => rw [if_neg (by simp)]
  | some kind =>
    cases kind with
    | true => rw [if_neg (by simp)]
    | false =>
      rw [if_pos rfl]
      dsimp only
      rcases h call.uid with hsame | ⟨hnone, held, hheld, hover⟩
      · cases hheld : lastDeclared call.uid calls with
        | none =>
          rw [hheld] at hsame
          rw [hsame]
          rfl
        | some held =>
          rw [hheld, Option.map_some] at hsame
          rw [hsame]
          dsimp only
          split <;> rfl
      · rw [hnone, hheld]
        dsimp only
        rw [if_neg (not_le.mpr hover)]

/-! ## Runs -/

/-- The calls come at times that do not go back. -/
def InOrder (calls : List MarkerCall) : Prop := (calls.map (·.now)).Pairwise (· ≤ ·)

instance (calls : List MarkerCall) : Decidable (InOrder calls) :=
  inferInstanceAs (Decidable (List.Pairwise _ _))

theorem agrees_tableAfter (limit : Option Nat) (hold : Rat) {earlier : List MarkerCall}
    {call : MarkerCall} (h : InOrder (earlier ++ [call])) :
    Agrees hold call.now (tableAfter limit hold earlier) earlier := by
  induction earlier using List.reverseRecOn generalizing call with
  | nil => exact fun uid => .inl rfl
  | append_singleton earlier previous ih =>
    rw [InOrder, List.map_append, List.pairwise_append] at h
    have hle : previous.now ≤ call.now := h.2.2 _ (by simp) _ (by simp)
    have hsettled := (ih h.1).step limit
    rw [tableAfter, Runs.final_append]
    exact hsettled.later hle

/-- For calls at times that do not go back, `settle` returns the code it was given when it declares an
affiliation or is of neither kind, and otherwise the last declared code of the uid when that is within
the hold time.  Cutting the table down changes no result. -/
theorem settle_eq_settled (hold : Rat) (calls : List MarkerCall) (hcalls : InOrder calls)
    (earlier later : List MarkerCall) (call : MarkerCall) (heq : calls = earlier ++ call :: later) :
    (settle (some markerLimit) hold (tableAfter (some markerLimit) hold earlier) call).2 =
        settled hold earlier call ∧
      (settle (some markerLimit) hold (tableAfter (some markerLimit) hold earlier) call).2 =
        (settle none hold (tableAfter none hold earlier) call).2 := by
  have horder : InOrder (earlier ++ [call]) := by
    refine hcalls.sublist (List.Sublist.map _ ?_)
    rw [heq]
    exact List.Sublist.append_left (List.singleton_sublist.mpr List.mem_cons_self) earlier
  have hcut := (agrees_tableAfter (some markerLimit) hold horder).result (some markerLimit)
  have hkept := (agrees_tableAfter none hold horder).result none
  exact ⟨hcut, hcut.trans hkept.symm⟩

/-- A friend, the same marker undeclared within the hold time, and again when it is over. -/
def heldMarker : List MarkerCall :=
  [⟨"m", "a-f-A", 0⟩, ⟨"m", "a-u-A", 300⟩, ⟨"m", "a-u-A", 301⟩]

theorem heldMarker_settled :
    (settle (some markerLimit) 300
        (tableAfter (some markerLimit) 300 [⟨"m", "a-f-A", 0⟩]) ⟨"m", "a-u-A", 300⟩).2 =
          settled 300 [⟨"m", "a-f-A", 0⟩] ⟨"m", "a-u-A", 300⟩ ∧
      (settle (some markerLimit) 300
        (tableAfter (some markerLimit) 300 [⟨"m", "a-f-A", 0⟩]) ⟨"m", "a-u-A", 300⟩).2 =
          (settle none 300 (tableAfter none 300 [⟨"m", "a-f-A", 0⟩]) ⟨"m", "a-u-A", 300⟩).2 :=
  settle_eq_settled 300 heldMarker (by decide +kernel) [⟨"m", "a-f-A", 0⟩] [⟨"m", "a-u-A", 301⟩]
    ⟨"m", "a-u-A", 300⟩ rfl

end Efdi.Tracks.Marker
