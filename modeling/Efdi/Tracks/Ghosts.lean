import Efdi.Base.PyDict
import Efdi.Base.PyStr
import Efdi.Base.Runs
import Mathlib.Data.Int.Bitwise

/-!
# Ghost filter

`GhostFilter` remembers, for every callsign and every registration, the addresses that were seen
with it.  A record is a ghost when its address is new under one of its keys and differs in a few
bits from an address that the key remembers.

What decides is that an address which is remembered under every key of a record is never a ghost,
and that a record which is no ghost is remembered under all of them (`Holds`).  Expiry and the
size cleanup take nothing away that is needed within the window.
-/

namespace Efdi.Tracks

open List PyDict Bool

/-- `MAX_BITS`. -/
def maxBits : Nat := 2

/-- `bin(a ^ b).count("1")`. -/
def bitsApart (a b : Int) : Nat := ((Int.xor a b).natAbs.bits).count true

/-- What `is_ghost` is asked about. -/
structure GhostRecord where
  icao24 : String
  callsign : String
  registration : String
deriving DecidableEq

/-- `_seen`: for each key the addresses and when they were last seen. -/
abbrev Seen : Type := PyDict String (PyDict Int Rat)

/-- The functions of the library that `is_ghost` uses: `str.upper`, and `int` with base 16, which
raises on other texts. -/
structure GhostText where
  upper : String → String
  hex : String → Option Int

variable (G : GhostText)

/-- `keys` of `is_ghost`.  An absent field is an empty one. -/
def ghostKeys (record : GhostRecord) : List String :=
  [("C:", record.callsign), ("R:", record.registration)].filterMap fun (tag, value) =>
    let name := G.upper (PyStr.strip value)
    if name = "" then none else some (tag ++ name)

/-- The addresses of a key that are not expired. -/
def knownOf (window : Rat) (seen : Seen) (now : Rat) (key : String) : PyDict Int Rat :=
  ((seen.get? key).getD PyDict.empty).filter fun _ t => decide (now - t ≤ window)

/-- A new address that is near a known one. -/
def isNear (known : PyDict Int Rat) (address : Int) : Bool :=
  !known.contains address &&
    known.entries.any fun other => decide (bitsApart address other.1 ≤ maxBits)

/-- The table of a key after the call. -/
def refresh (window : Rat) (seen : Seen) (now : Rat) (address : Int) (ghost : Bool)
    (key : String) : PyDict Int Rat :=
  let known := knownOf window seen now key
  if known.contains address || !ghost then known.set address now else known

/-- The size from which empty tables are removed. -/
def seenLimit : Nat := 20000

/-- The end of `is_ghost`. -/
def cleanup (seen : Seen) : Seen :=
  if seenLimit < seen.length then seen.filter fun _ table => !table.entries.isEmpty else seen

/-- The part of `is_ghost` under the lock. -/
def register (window : Rat) (seen : Seen) (keys : List String) (address : Int) (now : Rat) :
    Bool × Seen :=
  let ghost := keys.any fun key => isNear (knownOf window seen now key) address
  (ghost, cleanup (keys.foldl (fun tables key =>
    tables.set key (refresh window seen now address ghost key)) seen))

/-- `is_ghost`: the verdict, `none` when the address is no number, and the tables. -/
def isGhost (window : Rat) (seen : Seen) (record : GhostRecord) (now : Rat) :
    Option Bool × Seen :=
  if ghostKeys G record = [] ∨ record.icao24 = "" then (some false, seen)
  else
    match G.hex record.icao24 with
    | none => (none, seen)
    | some address =>
      let registered := register window seen (ghostKeys G record) address now
      (some registered.1, registered.2)

/-- A call. -/
structure GhostCall where
  record : GhostRecord
  now : Rat

/-- The tables after a call. -/
def ghostStep (window : Rat) (seen : Seen) (call : GhostCall) : Seen :=
  (isGhost G window seen call.record call.now).2

variable {G} {window now : Rat} {seen : Seen} {keys : List String} {address : Int}

/-- A call leaves the tables as they are, or it registers an address under its keys. -/
theorem ghostStep_cases (window : Rat) (seen : Seen) (call : GhostCall) :
    ghostStep G window seen call = seen ∨ ∃ keys address,
      ghostStep G window seen call = (register window seen keys address call.now).2 := by
  rw [ghostStep, isGhost]
  split
  next => exact Or.inl rfl
  next =>
    cases G.hex call.record.icao24 with
    | none => exact Or.inl rfl
    | some address => exact Or.inr ⟨_, address, rfl⟩

/-! ## The tables after a call -/

variable {key : String} {table : PyDict Int Rat} {other : Int} {last : Rat} {record : GhostRecord}

theorem get?_cleanup_of_some (h : (cleanup seen).get? key = some table) :
    seen.get? key = some table := by
  rw [cleanup] at h
  split at h
  next =>
    rw [get?_filter] at h
    exact (Option.filter_eq_some_iff.mp h).1
  next => exact h

/-- The cleanup keeps a table that holds an address. -/
theorem get?_cleanup_of_contains (h : seen.get? key = some table)
    (hcontains : table.contains address = true) :
    (cleanup seen).get? key = some table := by
  rw [cleanup]
  split
  next =>
    rw [get?_filter, h]
    refine Option.filter_eq_some_iff.mpr ⟨rfl, ?_⟩
    have hmem := contains_iff.mp hcontains
    cases hentries : table.entries with
    | nil =>
      rw [hentries] at hmem
      cases hmem
    | cons e entries => rfl
  next => exact h

theorem get?_register_of_some
    (h : (register window seen keys address now).2.get? key = some table) :
    (key ∈ keys ∧ table = refresh window seen now address
        (register window seen keys address now).1 key) ∨ seen.get? key = some table := by
  have hget := get?_cleanup_of_some h
  rw [get?_foldl_set _ key] at hget
  split at hget
  next hkey => exact Or.inl ⟨hkey, (Option.some.inj hget).symm⟩
  next => exact Or.inr hget

/-! ## No two near addresses -/

/-- No two addresses of a table are near each other. -/
def Apart (table : PyDict Int Rat) : Prop :=
  ∀ a b, table.contains a = true → table.contains b = true → a ≠ b → maxBits < bitsApart a b

theorem bitsApart_comm (a b : Int) : bitsApart a b = bitsApart b a := by
  have hxor : Int.xor a b = Int.xor b a := by
    cases a <;> cases b <;> simp only [Int.xor, Nat.xor_comm]
  rw [bitsApart, bitsApart, hxor]

theorem Apart.filter (h : Apart table) (p : Int → Rat → Bool) :
    Apart (table.filter p) := by
  have hsub : ∀ a, (table.filter p).contains a = true → table.contains a = true := by
    intro a ha
    rw [PyDict.contains, get?_filter] at ha
    rw [PyDict.contains]
    cases hget : table.get? a with
    | none =>
      rw [hget] at ha
      exact absurd ha Bool.false_ne_true
    | some t => rfl
  exact fun a b ha hb => h a b (hsub a ha) (hsub b hb)

theorem lt_bitsApart_of_not_isNear (hnear : isNear table address = false)
    (hnew : table.contains address = false) (hother : table.contains other = true) :
    maxBits < bitsApart address other := by
  rw [isNear, hnew, Bool.not_false, Bool.true_and, any_eq_false] at hnear
  obtain ⟨t, ht⟩ := Option.isSome_iff_exists.mp hother
  have hfar := hnear (other, t) (get?_eq_some_iff.mp ht)
  rwa [decide_eq_true_eq, Nat.not_le] at hfar

/-- An address that is not near may be added. -/
theorem Apart.set (h : Apart table) (hnear : isNear table address = false) (now : Rat) :
    Apart (table.set address now) := by
  intro a b ha hb hne
  rw [contains_set, or_eq_true, decide_eq_true_eq] at ha hb
  cases hnew : table.contains address with
  | true =>
    have hcontains : ∀ c, c = address ∨ table.contains c = true → table.contains c = true := by
      rintro c (rfl | hc)
      · exact hnew
      · exact hc
    exact h a b (hcontains a ha) (hcontains b hb) hne
  | false =>
    rcases ha with rfl | ha
    · rcases hb with rfl | hb
      · exact absurd rfl hne
      · exact lt_bitsApart_of_not_isNear hnear hnew hb
    · rcases hb with rfl | hb
      · rw [bitsApart_comm]
        exact lt_bitsApart_of_not_isNear hnear hnew ha
      · exact h a b ha hb hne

/-- No two addresses that a key remembers are near each other. -/
def Spread (seen : Seen) : Prop := ∀ key table, seen.get? key = some table → Apart table

theorem apart_knownOf (h : Spread seen) (key : String) : Apart (knownOf window seen now key) := by
  rw [knownOf]
  refine Apart.filter ?_ _
  cases htable : seen.get? key with
  | none => exact fun a b ha => absurd ha false_ne_true
  | some table => exact h key table htable

/-- A call that registers an address keeps the tables spread. -/
theorem spread_register (h : Spread seen) :
    Spread (register window seen keys address now).2 := by
  intro key table htable
  rcases get?_register_of_some htable with ⟨hkey, rfl⟩ | hold
  · have hknown : Apart (knownOf window seen now key) := apart_knownOf h key
    rw [refresh]
    split
    next hwrite =>
      refine hknown.set ?_ now
      rw [or_eq_true, not_eq_true'] at hwrite
      rcases hwrite with hcontains | hghost
      · rw [isNear, hcontains]
        rfl
      · exact eq_false_iff.mpr (any_eq_false.mp hghost key hkey)
    next => exact hknown
  · exact h key table hold

/-! ## An accepted record stays accepted -/

/-- The keys remember an address, and saw it at some time or later. -/
def Holds (seen : Seen) (keys : List String) (address : Int) (last : Rat) : Prop :=
  ∀ key ∈ keys, ∃ table t, seen.get? key = some table ∧ table.get? address = some t ∧ last ≤ t

/-- Within the window an address is known. -/
theorem get?_knownOf {t : Rat} (htable : seen.get? key = some table)
    (ht : table.get? other = some t) (hwindow : now - t ≤ window) :
    (knownOf window seen now key).get? other = some t := by
  rw [knownOf, htable, Option.getD_some, get?_filter, ht]
  exact Option.filter_eq_some_iff.mpr ⟨rfl, decide_eq_true hwindow⟩

/-- A known address is seen at its old time or now. -/
theorem get?_refresh {ghost : Bool} {t : Rat}
    (h : (knownOf window seen now key).get? other = some t) :
    (refresh window seen now address ghost key).get? other = some t ∨
      (refresh window seen now address ghost key).get? other = some now := by
  rw [refresh]
  split
  next =>
    by_cases hother : other = address
    · rw [hother]
      exact Or.inr (get?_set_self _ _ _)
    · rw [get?_set_of_ne _ hother]
      exact Or.inl h
  next => exact Or.inl h

/-- A call within the window takes nothing away. -/
theorem Holds.register {keys' : List String} {address' : Int} (h : Holds seen keys address last)
    (hle : last ≤ now) (hwindow : now - last ≤ window) :
    Holds (register window seen keys' address' now).2 keys address last := by
  intro key hkey
  obtain ⟨table, t, htable, ht, hlast⟩ := h key hkey
  have hget := get?_foldl_set (refresh window seen now address'
    (Tracks.register window seen keys' address' now).1) key keys' seen
  by_cases hkey' : key ∈ keys'
  · rw [if_pos hkey'] at hget
    have hknown := get?_knownOf htable ht (show now - t ≤ window by grind)
    rcases get?_refresh hknown with hrefresh | hrefresh
    · exact ⟨_, t, get?_cleanup_of_contains hget (contains_of_get? hrefresh), hrefresh, hlast⟩
    · exact ⟨_, now, get?_cleanup_of_contains hget (contains_of_get? hrefresh), hrefresh, hle⟩
  · rw [if_neg hkey', htable] at hget
    exact ⟨table, t, get?_cleanup_of_contains hget (contains_of_get? ht), ht, hlast⟩

/-- An address that its keys hold is no ghost. -/
theorem Holds.accepted (h : Holds seen keys address last) (hwindow : now - last ≤ window) :
    (Tracks.register window seen keys address now).1 = false := by
  refine any_eq_false.mpr fun key hkey => ?_
  obtain ⟨table, t, htable, ht, hlast⟩ := h key hkey
  have hknown := get?_knownOf htable ht (show now - t ≤ window by grind)
  rw [isNear, PyDict.contains, hknown]
  exact Bool.false_ne_true

/-- An address that is no ghost is held by its keys. -/
theorem holds_of_accepted (h : (register window seen keys address now).1 = false) :
    Holds (register window seen keys address now).2 keys address now := by
  intro key hkey
  have hget := get?_foldl_set (refresh window seen now address
    (Tracks.register window seen keys address now).1) key keys seen
  rw [if_pos hkey] at hget
  have hrefresh : (refresh window seen now address
      (Tracks.register window seen keys address now).1 key).get? address = some now := by
    rw [h, refresh, Bool.not_false, Bool.or_true, if_pos rfl, get?_set_self]
  exact ⟨_, now, get?_cleanup_of_contains hget (contains_of_get? hrefresh), hrefresh,
    Rat.le_refl⟩

/-! ## Runs -/

/-- Two records with one address and the same keys. -/
def SameGhost (G : GhostText) (a b : GhostRecord) : Prop :=
  ghostKeys G a = ghostKeys G b ∧ (a.icao24 = "" ↔ b.icao24 = "") ∧ G.hex a.icao24 = G.hex b.icao24

instance (G : GhostText) (a b : GhostRecord) : Decidable (SameGhost G a b) :=
  inferInstanceAs (Decidable (_ ∧ _))

/-- A record is repeated with gaps of at most the window. -/
def Repeated (G : GhostText) (window : Rat) (record : GhostRecord) : Rat → List GhostCall → Prop
  | _, [] => True
  | last, call :: calls =>
    if SameGhost G call.record record then
      call.now - last ≤ window ∧ Repeated G window record call.now calls
    else Repeated G window record last calls

/-- The times do not decrease. -/
def Ordered : Rat → List GhostCall → Prop
  | _, [] => True
  | last, call :: calls => last ≤ call.now ∧ Ordered call.now calls

/-- The verdict of a call. -/
def verdict (G : GhostText) (window : Rat) (seen : Seen) (call : GhostCall) : Option Bool :=
  (isGhost G window seen call.record call.now).1

theorem spread_step (h : Spread seen) (call : GhostCall) : Spread (ghostStep G window seen call) := by
  rcases ghostStep_cases (G := G) window seen call with hsame | ⟨keys, address, hregister⟩
  · rw [hsame]
    exact h
  · rw [hregister]
    exact spread_register h

theorem Holds.step {last : Rat} (h : Holds seen keys address last) {call : GhostCall}
    (hle : last ≤ call.now) (hwindow : call.now - last ≤ window) :
    Holds (ghostStep G window seen call) keys address last := by
  rcases ghostStep_cases (G := G) window seen call with hsame | ⟨keys', address', hregister⟩
  · rw [hsame]
    exact h
  · rw [hregister]
    exact h.register hle hwindow

/-- A record that is repeated is repeated within the window. -/
theorem Repeated.exists_first : ∀ {calls : List GhostCall} {last : Rat},
    Repeated G window record last calls → (∃ call ∈ calls, SameGhost G call.record record) →
      ∃ call ∈ calls, SameGhost G call.record record ∧ call.now - last ≤ window
  | [], _, _, h => by
    obtain ⟨call, hcall, -⟩ := h
    cases hcall
  | first :: calls, last, hrepeated, h => by
    rw [Repeated] at hrepeated
    by_cases hsame : SameGhost G first.record record
    · rw [if_pos hsame] at hrepeated
      exact ⟨first, .head _, hsame, hrepeated.1⟩
    · rw [if_neg hsame] at hrepeated
      obtain ⟨call, hcall, hcallsame⟩ := h
      have hlater : ∃ call ∈ calls, SameGhost G call.record record := by
        rcases mem_cons.mp hcall with rfl | hcall
        · exact absurd hcallsame hsame
        · exact ⟨call, hcall, hcallsame⟩
      obtain ⟨call, hcall, hcallsame, hgap⟩ := hrepeated.exists_first hlater
      exact ⟨call, .tail _ hcall, hcallsame, hgap⟩

theorem Ordered.mono {calls : List GhostCall} {now : Rat} (h : Ordered now calls)
    (hle : last ≤ now) :
    Ordered last calls := by
  cases calls with
  | nil => trivial
  | cons call calls => exact ⟨Rat.le_trans hle h.1, h.2⟩

theorem Ordered.le_of_mem : ∀ {calls : List GhostCall} {last : Rat}, Ordered last calls →
    ∀ call ∈ calls, last ≤ call.now
  | [], _, _, _, h => by cases h
  | first :: calls, last, hordered, call, h => by
    rcases mem_cons.mp h with rfl | h
    · exact hordered.1
    · exact Rat.le_trans hordered.1 (hordered.2.le_of_mem call h)

/-- A record that is held within the window is accepted, and held anew. -/
theorem Holds.verdict {call : GhostCall} (hkeys : ¬ (ghostKeys G record = [] ∨ record.icao24 = ""))
    (hhex : G.hex record.icao24 = some address) (h : Holds seen (ghostKeys G record) address last)
    (hsame : SameGhost G call.record record) (hwindow : call.now - last ≤ window) :
    verdict G window seen call = some false ∧
      Holds (ghostStep G window seen call) (ghostKeys G record) address call.now := by
  obtain ⟨hsameKeys, hsameText, hsameHex⟩ := hsame
  have hisGhost : isGhost G window seen call.record call.now =
      (some (Tracks.register window seen (ghostKeys G record) address call.now).1,
        (Tracks.register window seen (ghostKeys G record) address call.now).2) := by
    have hcall : ¬ (ghostKeys G call.record = [] ∨ call.record.icao24 = "") := by
      rw [hsameKeys]
      exact fun h => hkeys (h.imp_right hsameText.mp)
    rw [isGhost, if_neg hcall, hsameKeys, hsameHex, hhex]
  have haccepted := h.accepted hwindow
  rw [Tracks.verdict, ghostStep, hisGhost]
  exact ⟨congrArg some haccepted, holds_of_accepted haccepted⟩

/-- From a call on that holds a record, all its repetitions are accepted. -/
theorem accepted_of_holds (hkeys : ¬ (ghostKeys G record = [] ∨ record.icao24 = ""))
    (hhex : G.hex record.icao24 = some address) : ∀ {calls : List GhostCall} {last : Rat}
    {seen : Seen}, Holds seen (ghostKeys G record) address last → Ordered last calls →
      Repeated G window record last calls → ∀ front call back, calls = front ++ call :: back →
        SameGhost G call.record record →
          verdict G window (Runs.final (ghostStep G window) seen front) call = some false
  | [], _, _, _, _, _, front, call, back, hcalls, _ => by
    exact absurd hcalls.symm (by simp)
  | first :: calls, last, seen, h, hordered, hrepeated, front, call, back, hcalls, hsame => by
    obtain ⟨hle, hordered⟩ := hordered
    have hmem : ∃ call ∈ first :: calls, SameGhost G call.record record :=
      ⟨call, by rw [hcalls]; exact mem_append_right _ mem_cons_self, hsame⟩
    -- the first repetition bounds the time of this call
    obtain ⟨next, hnext, hnextSame, hgap⟩ := hrepeated.exists_first hmem
    have hfirst : first.now ≤ next.now := by
      rcases mem_cons.mp hnext with rfl | hnext
      · exact Rat.le_refl
      · exact hordered.le_of_mem next hnext
    have hwindow : first.now - last ≤ window := by grind
    rw [Repeated] at hrepeated
    by_cases hfirstSame : SameGhost G first.record record
    · rw [if_pos hfirstSame] at hrepeated
      obtain ⟨haccepted, hholds⟩ := h.verdict hkeys hhex hfirstSame hwindow
      cases front with
      | nil =>
        obtain ⟨rfl, -⟩ := cons.inj hcalls
        exact haccepted
      | cons f front =>
        obtain ⟨rfl, hrest⟩ := cons.inj hcalls
        exact accepted_of_holds hkeys hhex hholds hordered hrepeated.2 front call back hrest
          hsame
    · rw [if_neg hfirstSame] at hrepeated
      cases front with
      | nil =>
        obtain ⟨rfl, -⟩ := cons.inj hcalls
        exact absurd hsame hfirstSame
      | cons f front =>
        obtain ⟨rfl, hrest⟩ := cons.inj hcalls
        exact accepted_of_holds hkeys hhex (h.step hle hwindow) (hordered.mono hle) hrepeated
          front call back hrest hsame

/-- An accepted record that names an address is held. -/
theorem holds_of_verdict {call : GhostCall} (h : verdict G window seen call = some false)
    (hkeys : ¬ (ghostKeys G call.record = [] ∨ call.record.icao24 = "")) :
    ∃ address, G.hex call.record.icao24 = some address ∧
      Holds (ghostStep G window seen call) (ghostKeys G call.record) address call.now := by
  rw [verdict, isGhost, if_neg hkeys] at h
  rw [ghostStep, isGhost, if_neg hkeys]
  cases hhex : G.hex call.record.icao24 with
  | none =>
    rw [hhex] at h
    cases h
  | some address =>
    rw [hhex] at h
    exact ⟨address, rfl, holds_of_accepted (Option.some.inj h)⟩

/-- Along every run the addresses of a key stay apart.  A record that was accepted is accepted
again when it is repeated with gaps of at most the window, whatever is called in between. -/
theorem ghosts_apart_and_stable (G : GhostText) (window : Rat) (calls : List GhostCall) :
    Runs.Always (ghostStep G window) Spread PyDict.empty calls ∧
    ∀ before call later, calls = before ++ call :: later → Ordered call.now later →
      verdict G window (Runs.final (ghostStep G window) PyDict.empty before) call = some false →
      Repeated G window call.record call.now later →
      ∀ between again after, later = between ++ again :: after →
        SameGhost G again.record call.record →
        verdict G window (Runs.final (ghostStep G window) PyDict.empty
          (before ++ call :: between)) again = some false := by
  refine ⟨?_, ?_⟩
  · have hinit : Spread PyDict.empty := fun key table h => by cases h
    have hstep : ∀ seen call, Spread seen → Spread (ghostStep G window seen call) :=
      fun _ call h => spread_step h call
    exact Runs.always_of_step hstep hinit
  · intro before call later _ hordered haccepted hrepeated between again after hlater hsame
    rw [Runs.final_append, Runs.final_cons]
    by_cases hkeys : ghostKeys G call.record = [] ∨ call.record.icao24 = ""
    · rw [← hsame.1] at hkeys
      rw [verdict, isGhost, if_pos (hkeys.imp_right hsame.2.1.mpr)]
    · obtain ⟨address, hhex, hholds⟩ := holds_of_verdict haccepted hkeys
      exact accepted_of_holds hkeys hhex hholds hordered hrepeated between again after hlater hsame

/-- An aircraft that is accepted, a copy with two flipped bits, and the aircraft again. -/
theorem ghosts_apart_and_stable_copy :
    verdict ⟨id, fun s => if s = "4ca2d1" then some 0x4ca2d1 else some 0x4ca2d2⟩ 600
      (Runs.final (ghostStep ⟨id, fun s => if s = "4ca2d1" then some 0x4ca2d1 else some 0x4ca2d2⟩
        600) PyDict.empty
        ([] ++ ⟨⟨"4ca2d1", "RYR1", ""⟩, 0⟩ :: [⟨⟨"4ca2d2", "RYR1", ""⟩, 10⟩]))
      ⟨⟨"4ca2d1", "RYR1", ""⟩, 600⟩ = some false := by
  refine (ghosts_apart_and_stable _ 600 _).2 [] _ [_, _] rfl ?_ ?_ ?_ [_] _ [] rfl ?_
  · exact ⟨by decide +kernel, by decide +kernel, trivial⟩
  · decide +kernel
  · rw [Repeated, if_neg (by decide +kernel), Repeated, if_pos (by decide +kernel)]
    exact ⟨by decide +kernel, trivial⟩
  · decide +kernel

end Efdi.Tracks
