import Efdi.Geometry.Simplify
import Efdi.Tak.TrackCot

/-!
# Events that TAK Server takes

TAK Server does not write an event of 65536 bytes or more to its clients.  `shape_cots` keeps below
that with the zones: a polygon whose event is too big is simplified to fewer and fewer vertices
until one fits.

Every other event is returned as it is.  So no event is too big exactly when the track is a polygon
or its full event fits (`shapeCots_iff`), and a line of two thousand vertices is too big
(`long_line_too_big`).
-/

namespace Efdi.Tak.ShapeCots

open Tracks TrackCot Xml List

/-- `MAX_COT_BYTES`. -/
def maxCotBytes : Nat := 65000

/-- What `shape_cots` uses of Python. -/
structure ShapeText extends CotText where
  /-- `simplify_ring` on a ring with other coordinates than finite numbers, when it does not
  raise. -/
  simplifyOdd : List PyJson → Nat → Option (List PyJson)

/-! ## Fitting a zone -/

/-- The value of a number, when it is finite. -/
def coordinate : PyJson → Option Rat
  | .bool b => some (if b then 1 else 0)
  | .int n => some n
  | .float x => finite x
  | _ => none

/-- The coordinates of a vertex, when they are finite numbers. -/
def coordinates : PyJson → Option (List Rat)
  | .list xs => xs.mapM coordinate
  | _ => none

section

variable (T : ShapeText)

/-- `simplify_ring` on a ring as JSON has it, when it does not raise. -/
def simplified (ring : List PyJson) (budget : Nat) : Option (List PyJson) :=
  match ring.mapM coordinates with
  | none => T.simplifyOdd ring budget
  | some rows =>
    let points := rows.map fun row => (row.getD 0 0, row.getD 1 0)
    -- the ends are compared with their heights, so a ring that ends at another height is open
    let closed := if rows.head? = rows.getLast? then points else points ++ points.take 1
    (Geometry.simplifyRing closed budget).map fun points =>
      points.map fun p => .list [.float (.finite p.1), .float (.finite p.2)]

variable (track : Track) (cotType : String) (staleS : PyFloat)

/-- One turn of the loop: the event with so many vertices, if it fits. -/
def attempt (ring : List PyJson) (budget : Nat) : Option (Option String) := do
  let simple ← simplified T ring budget
  let candidate := track.set "geometry"
    (.dict [("type", .str "Polygon"), ("coordinates", .list [.list simple])])
  let fitted ← trackToCot T.toCotText candidate cotType staleS
  some (fitted.filter fun xml => size xml < maxCotBytes)

/-- `while budget >= 8`, with `budget = int(budget * 0.95)` at the end of a turn. -/
def fit (ring : List PyJson) (budget : Nat) : Option (List String) :=
  if budget < 8 then some []
  else
    match attempt T track cotType staleS ring budget with
    | none => none
    | some (some xml) => some [xml]
    | some none => fit ring (budget * 95 / 100)
termination_by budget

/-- The vertices of `geometry["coordinates"][0]`.  There are none in a text or in a dict. -/
def outerRing (geometry : PyJson) : Option (List PyJson) :=
  match geometry.get? "coordinates" with
  | some (.list (.list ring :: _)) => some (ring.filter fun c => (lonLat c).isSome)
  | some (.list (.str _ :: _)) => some []
  | some (.list (.dict _ :: _)) => some []
  | some (.str s) => if s = "" then none else some []
  | _ => none

/-- `isinstance(geometry, dict)` and `geometry.get("type") == "Polygon"`. -/
def isPolygon (track : Track) : Bool :=
  match track.field "geometry" with
  | .dict items => (PyJson.dict items).getD "type" .null = .str "Polygon"
  | _ => false

/-- The vertices with which the loop begins. -/
def firstBudget (ring : List PyJson) (xml : String) : Nat := ring.length * maxCotBytes / size xml

/-- `shape_cots`: the events that it returns, when it does not raise. -/
def shapeCots : Option (List String) := do
  match ← trackToCot T.toCotText track cotType staleS with
  | none => some []
  | some xml =>
    if size xml < maxCotBytes ∨ isPolygon track = false then some [xml]
    else
      let ring ← outerRing (track.field "geometry")
      fit T track cotType staleS ring (firstBudget ring xml)

/-- The budgets that the loop goes through until one fits. -/
def budgets (budget : Nat) : List Nat :=
  if budget < 8 then [] else budget :: budgets (budget * 95 / 100)
termination_by budget

/-- What a track promises of its events: each is small enough, the loop goes through ever smaller
budgets, and it returns an event when one of them fits before a turn raises. -/
structure Fitting : Prop where
  small : ∀ xmls, shapeCots T track cotType staleS = some xmls →
    ∀ xml ∈ xmls, size xml < maxCotBytes
  ends : ∀ budget, (budgets budget).Pairwise (· > ·) ∧
    ∀ tried ∈ budgets budget, 8 ≤ tried ∧ tried ≤ budget
  found : ∀ full ring, trackToCot T.toCotText track cotType staleS = some (some full) →
    maxCotBytes ≤ size full → isPolygon track = true →
      outerRing (track.field "geometry") = some ring →
        ∀ budget ∈ budgets (firstBudget ring full),
          (∃ xml, attempt T track cotType staleS ring budget = some (some xml)) →
            (∀ earlier ∈ budgets (firstBudget ring full), budget < earlier →
              attempt T track cotType staleS ring earlier ≠ none) →
                ∃ xml, shapeCots T track cotType staleS = some [xml]

end

/-! ## The loop -/

section

variable {T : ShapeText} {track : Track} {cotType : String} {staleS : PyFloat} {ring : List PyJson}

theorem budgets_le (budget : Nat) : ∀ tried ∈ budgets budget, 8 ≤ tried ∧ tried ≤ budget := by
  induction budget using budgets.induct with
  | case1 budget hsmall =>
    rw [budgets, if_pos hsmall]
    exact fun _ h => absurd h not_mem_nil
  | case2 budget hlarge ih =>
    rw [budgets, if_neg hlarge]
    intro tried htried
    rcases mem_cons.mp htried with rfl | htried
    · omega
    · have hle := ih tried htried
      omega

theorem budgets_decrease (budget : Nat) : (budgets budget).Pairwise (· > ·) := by
  induction budget using budgets.induct with
  | case1 budget hsmall =>
    rw [budgets, if_pos hsmall]
    exact List.Pairwise.nil
  | case2 budget hlarge ih =>
    rw [budgets, if_neg hlarge]
    refine pairwise_cons.mpr ⟨fun tried htried => ?_, ih⟩
    have hle := budgets_le _ tried htried
    omega

theorem attempt_size {budget : Nat} {xml : String}
    (h : attempt T track cotType staleS ring budget = some (some xml)) :
    size xml < maxCotBytes := by
  obtain ⟨simple, -, h⟩ := Option.bind_eq_some_iff.mp h
  obtain ⟨fitted, -, h⟩ := Option.bind_eq_some_iff.mp h
  exact of_decide_eq_true (Option.filter_eq_some_iff.mp (Option.some.inj h)).2

/-- What the loop returns is small enough. -/
theorem fit_size {budget : Nat} {xmls : List String}
    (h : fit T track cotType staleS ring budget = some xmls) :
    ∀ xml ∈ xmls, size xml < maxCotBytes := by
  induction budget using budgets.induct with
  | case1 budget hsmall =>
    rw [fit, if_pos hsmall] at h
    rw [← Option.some.inj h]
    exact fun _ h => absurd h not_mem_nil
  | case2 budget hlarge ih =>
    rw [fit, if_neg hlarge] at h
    split at h
    next => cases h
    next xml hfits =>
      rw [← Option.some.inj h]
      intro other hother
      rw [mem_singleton.mp hother]
      exact attempt_size hfits
    next => exact ih h

/-- The loop finds an event when one fits before a turn raises. -/
theorem fit_found {start budget : Nat} (hmem : budget ∈ budgets start)
    (hfits : ∃ xml, attempt T track cotType staleS ring budget = some (some xml))
    (hearlier : ∀ earlier ∈ budgets start, budget < earlier →
      attempt T track cotType staleS ring earlier ≠ none) :
    ∃ xml, fit T track cotType staleS ring start = some [xml] := by
  induction start using budgets.induct with
  | case1 start hsmall =>
    rw [budgets, if_pos hsmall] at hmem
    exact absurd hmem not_mem_nil
  | case2 start hlarge ih =>
    rw [budgets, if_neg hlarge] at hmem hearlier
    rw [fit, if_neg hlarge]
    cases hresult : attempt T track cotType staleS ring start with
    | none =>
      rcases mem_cons.mp hmem with rfl | hmem
      · obtain ⟨xml, hxml⟩ := hfits
        rw [hresult] at hxml
        cases hxml
      · have hle := budgets_le _ budget hmem
        exact absurd hresult (hearlier start mem_cons_self (by omega))
    | some found =>
      cases found with
      | some xml => exact ⟨xml, rfl⟩
      | none =>
        rcases mem_cons.mp hmem with rfl | hmem
        · obtain ⟨xml, hxml⟩ := hfits
          rw [hresult] at hxml
          cases hxml
        · exact ih hmem fun earlier hmem' => hearlier earlier (.tail _ hmem')

theorem shapeCots_of_whole {xml : String}
    (hxml : trackToCot T.toCotText track cotType staleS = some (some xml))
    (h : size xml < maxCotBytes ∨ isPolygon track = false) :
    shapeCots T track cotType staleS = some [xml] := by
  rw [shapeCots, hxml]
  exact if_pos h

theorem shapeCots_of_big {xml : String}
    (hxml : trackToCot T.toCotText track cotType staleS = some (some xml))
    (hbig : maxCotBytes ≤ size xml) (hpolygon : isPolygon track = true) :
    shapeCots T track cotType staleS = (outerRing (track.field "geometry")).bind fun ring =>
      fit T track cotType staleS ring (firstBudget ring xml) := by
  have hneither : ¬(size xml < maxCotBytes ∨ isPolygon track = false) := by
    rw [hpolygon]
    simp [hbig]
  rw [shapeCots, hxml]
  exact if_neg hneither

/-- The events of a track are small enough exactly when it is a polygon or its full event fits. -/
theorem shapeCots_iff (T : ShapeText) (track : Track) (cotType : String) (staleS : PyFloat) :
    Fitting T track cotType staleS ↔
      isPolygon track = true ∨
        ∀ xml, trackToCot T.toCotText track cotType staleS = some (some xml) →
          size xml < maxCotBytes := by
  constructor
  · intro h
    cases hpolygon : isPolygon track with
    | true => exact .inl rfl
    | false =>
      refine .inr fun xml hxml => ?_
      exact h.small [xml] (shapeCots_of_whole hxml (.inr hpolygon)) xml List.mem_cons_self
  · intro h
    constructor
    case ends => exact fun budget => ⟨budgets_decrease budget, budgets_le budget⟩
    case found =>
      intro full ring hfull hbig hpolygon hring budget hmem hfits hearlier
      rw [shapeCots_of_big hfull hbig hpolygon, hring]
      exact fit_found hmem hfits hearlier
    case small =>
      intro xmls hxmls
      cases hfull : trackToCot T.toCotText track cotType staleS with
      | none =>
        rw [shapeCots, hfull] at hxmls
        cases hxmls
      | some event =>
        cases event with
        | none =>
          rw [shapeCots, hfull] at hxmls
          rw [← Option.some.inj hxmls]
          exact fun _ hmem => absurd hmem List.not_mem_nil
        | some xml =>
          rcases Nat.lt_or_ge (size xml) maxCotBytes with hsmall | hbig
          · rw [shapeCots_of_whole hfull (.inl hsmall)] at hxmls
            rw [← Option.some.inj hxmls]
            intro other hother
            rw [List.mem_singleton.mp hother]
            exact hsmall
          · have hpolygon : isPolygon track = true :=
              h.resolve_right fun hall => absurd (hall xml hfull) (Nat.not_lt.mpr hbig)
            rw [shapeCots_of_big hfull hbig hpolygon] at hxmls
            obtain ⟨ring, -, hfit⟩ := Option.bind_eq_some_iff.mp hxmls
            exact fit_size hfit

end

/-! ## A long line -/

/-- Numbers without rounding, and the two times of an event at the epoch. -/
def plainShapes : ShapeText where
  toUidText := MarkerUid.plainText
  floatText := fun _ => none
  floatOfInt := fun n => some (.finite n)
  literal := .finite
  add
    | .finite a, .finite b => .finite (a + b)
    | _, _ => .nan
  mul
    | .finite a, .finite b => .finite (a * b)
    | _, _ => .nan
  mod
    | .finite a, .finite b => .finite (a - b * (a / b).floor)
    | _, _ => .nan
  hypot := fun _ _ => .nan
  round := fun x _ => x
  roundInt := truncate
  stamp := fun x =>
    some (if x = .finite 0 then "1970-01-01T00:00:00.000Z" else "1970-01-01T00:02:00.000Z")
  clock := .finite 0
  remarks := fun _ _ => some "SRC: ?"
  usericon := fun _ => none
  simplifyOdd := fun ring _ => some ring

/-- A route of so many vertices. -/
def route (n : Nat) : Track :=
  ((PyDict.empty.set "lat_deg" (.int 0)).set "lon_deg" (.int 0)).set "geometry"
    (.dict [("type", .str "LineString"),
      ("coordinates", .list (List.replicate n (.list [.int 0, .int 0])))])

theorem exists_route_event :
    (trackToCot plainShapes.toCotText (route 2000) "b-m-r" (.finite 120)).any Option.isSome =
      true := by decide +kernel

/-- The event of a line of two thousand vertices is too big, and it is returned. -/
theorem long_line_too_big :
    ¬∀ (T : ShapeText) (track : Track) (cotType : String) (staleS : PyFloat),
      Fitting T track cotType staleS := by
  intro hall
  obtain ⟨event, hevent, hsome⟩ := (Option.any_eq_true _ _).mp exists_route_event
  obtain ⟨xml, rfl⟩ := Option.isSome_iff_exists.mp hsome
  have hsmall := (hall plainShapes (route 2000) "b-m-r" (.finite 120)).small [xml]
    (shapeCots_of_whole hevent (.inr (by decide +kernel))) xml List.mem_cons_self
  have hdrawn : ∀ vertex ∈ List.replicate 2000 (PyJson.list [.int 0, .int 0]),
      ∃ point, shapePoint plainShapes.toCotText (route 2000) vertex = some (some point) := by
    intro vertex hmem
    rw [List.eq_of_mem_replicate hmem]
    exact ⟨_, rfl⟩
  have hsize := line_size_le hevent rfl (by decide) hdrawn
  rw [List.length_replicate] at hsize
  exact absurd (hsize.trans_lt hsmall) (by decide)

end Efdi.Tak.ShapeCots
