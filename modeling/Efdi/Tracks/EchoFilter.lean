import Efdi.Base.Cells
import Efdi.Base.PyBuiltins
import Efdi.Base.Runs
import Mathlib.Data.Rat.Floor

/-!
# Echoes of our own tracks

`EchoFilter` remembers the ids, names and sensor positions that this pod published, and tells the
records of a partner that are copies of them.  A record at the position of a fixed sensor is a copy.

Positions are put into cells of `POSITION_CELL_DEG`, cut off towards zero.  So a sensor within a
cell of the record is always found.  But across the equator or the meridian of Greenwich a sensor is
found also when it is more than two cells away (`covers_iff`).
-/

namespace Efdi.Tracks.EchoFilter

open Cells List Option PyDict

/-! ## The filter -/

/-- The library, and the operator's pattern for records to drop. -/
structure Env extends PyBuiltins where
  lower : String → String
  drop : Option (String → Bool)

/-- An `EchoFilter`. -/
structure Filter where
  ttl : Rat
  ids : PyDict String Rat
  names : PyDict String Rat
  cells : PyDict (Int × Int) Rat

/-- A sample on one of our topics: what it decodes to, and the clock. -/
structure Sample where
  data : Option PyJson
  now : Rat

/-- `EchoFilter(ttl_s)`. -/
def Filter.init (ttl : Rat) : Filter := ⟨ttl, .empty, .empty, .empty⟩

/-- `POSITION_CELL_DEG`. -/
def positionCellDeg : Rat := 1 / 10000

/-- `_GENERIC_NAMES`. -/
def genericNames : List String := ["dronu-sensor", "sensor", "unknown"]

/-- `int(x)`. -/
def intOf : PyFloat → Except PyError Int
  | .finite x => .ok (trunc x)
  | .infinity _ => .error .overflowError
  | .nan => .error .valueError

/-- `x / POSITION_CELL_DEG`. -/
def scaled : PyFloat → PyFloat
  | .finite x => .finite (x / positionCellDeg)
  | .infinity negative => .infinity negative
  | .nan => .nan

/-- The keys of an object whose values are set. -/
def valuesOf (data : PyJson) (keys : List String) : List PyJson :=
  (keys.map data.getNull).filter PyJson.truthy

/-- The value is there. -/
def given (data : PyJson) (key : String) : Bool := data.getNull key != .null

/-- A table without its oldest entries beyond 50000. -/
def forget (table : PyDict String Rat) : PyDict String Rat :=
  let oldest := (table.entries.mergeSort fun a b => decide (a.2 ≤ b.2)).map Prod.fst
  let stale := oldest.take (table.length - 50000)
  table.filter fun key _ => !stale.contains key

/-- A table with some keys at a time. -/
def stamp (keys : List String) (now : Rat) (table : PyDict String Rat) : PyDict String Rat :=
  keys.foldl (fun table key => table.set key now) table

section

variable (env : Env)

/-- `_cell`. -/
def cell (lat lon : PyJson) : Except PyError (Int × Int) := do
  let row ← intOf (scaled (← env.float lat))
  let col ← intOf (scaled (← env.float lon))
  pure (row, col)

/-- The data of a sample that is remembered. -/
def ours (sample : Sample) : Option PyJson :=
  sample.data.filter fun data =>
    data.isDict && !(data.getNull "_delete").truthy &&
      !PyStr.startsWith (env.str ((data.getNull "_src").or (.str ""))) "backbone:"

/-- `ids`. -/
def idsOf (data : PyJson) : List String :=
  (valuesOf data ["sensor_id", "uid"]).map fun value => env.upper (env.str value)

/-- `names`. -/
def namesOf (data : PyJson) : List String :=
  (valuesOf data ["sensor_name", "callsign"]).map fun value =>
    env.lower (PyStr.strip (env.str value))

/-- A fixed sensor with a position. -/
def fixed (data : PyJson) : Bool :=
  (data.getNull "sensor_id").truthy && given data "lat_deg" && given data "lon_deg"

/-- `on_sample`. -/
def onSample (filter : Filter) (sample : Sample) : Except PyError Filter :=
  match ours env sample with
  | none => .ok filter
  | some data => do
      let cells ←
        if fixed data then
          (cell env (data.getNull "lat_deg") (data.getNull "lon_deg")).map fun place =>
            filter.cells.set place sample.now
        else .ok filter.cells
      let named := (namesOf env data).filter fun name =>
        decide (8 ≤ PyStr.len name) && !genericNames.contains name
      pure { filter with
        ids := forget (stamp (idsOf env data) sample.now filter.ids)
        names := forget (stamp named sample.now filter.names)
        cells }

/-- The filter after a sample.  When the callback raises, the filter stays as it was. -/
def heard (filter : Filter) (sample : Sample) : Filter :=
  (onSample env filter sample).toOption.getD filter

/-- The filter after some samples. -/
def heardAll (filter : Filter) (samples : List Sample) : Filter :=
  Runs.final (heard env) filter samples

/-! ## Echoes -/

/-- The nine cells around one. -/
def around : List (Int × Int) :=
  [-1, 0, 1].flatMap fun dr => [-1, 0, 1].map fun dc => (dr, dc)

/-- A time that is not longer than `ttl` ago. -/
def Filter.fresh (filter : Filter) (now : Rat) (seen : Option Rat) : Bool :=
  seen.any fun seen => now - seen ≤ filter.ttl

/-- `_at_a_sensor`. -/
def atASensor (filter : Filter) (record : PyJson) (now : Rat) : Except PyError Bool :=
  if (record.getNull "icao24").truthy || !given record "lat_deg" || !given record "lon_deg" then
    .ok false
  else
    match cell env (record.getNull "lat_deg") (record.getNull "lon_deg") with
    | .ok (row, col) =>
      .ok (around.any fun d => filter.fresh now (filter.cells.get? (row + d.1, col + d.2)))
    | .error .typeError => .ok false
    | .error .valueError => .ok false
    | .error raised => .error raised

/-- `str(record.get(key) or "")`. -/
def textOf (record : PyJson) (key : String) : String :=
  env.str ((record.getNull key).or (.str ""))

/-- The operator's pattern is found in the record. -/
def dropped (record : PyJson) : Bool :=
  env.drop.any fun search =>
    ["uid", "callsign", "label"].any fun key => search (textOf env record key)

/-- `labels`. -/
def labels (record : PyJson) : List String :=
  (["callsign", "label"].map fun key => env.lower (PyStr.strip (textOf env record key))).filter
    (· != "")

/-- `texts`. -/
def texts (record : PyJson) : List String :=
  env.upper (textOf env record "uid") :: (labels env record).map env.upper

/-- A fresh id of ours stands in a text of the record. -/
def embedsId (filter : Filter) (record : PyJson) (now : Rat) : Bool :=
  (filter.ids.entries.filter fun entry =>
      filter.fresh now (some entry.2) && decide (10 ≤ PyStr.len entry.1)).any fun entry =>
    (texts env record).any fun text => PyStr.contains entry.1 text

/-- A label of the record is a fresh name of ours. -/
def hasName (filter : Filter) (record : PyJson) (now : Rat) : Bool :=
  (filter.names.entries.filter fun entry => filter.fresh now (some entry.2)).any fun entry =>
    (labels env record).contains entry.1

/-- `is_echo`. -/
def isEcho (filter : Filter) (record : PyJson) (now : Rat) : Except PyError Bool :=
  if dropped env record || embedsId env filter record now || hasName env filter record now then
    .ok true
  else atASensor env filter record now

end

/-! ## What was published -/

/-- A fixed sensor as it was published. -/
structure Sensor where
  lat : Rat
  lon : Rat
  published : Rat

section

variable (env : Env)

/-- The fixed sensor of a sample. -/
def sensorOf (sample : Sample) : Option Sensor :=
  (ours env sample).bind fun data =>
    if fixed data then
      match env.float (data.getNull "lat_deg"), env.float (data.getNull "lon_deg") with
      | .ok (.finite lat), .ok (.finite lon) => some ⟨lat, lon, sample.now⟩
      | _, _ => none
    else none

/-- The ids, or the names, that a sample publishes. -/
def publishedBy (values : PyJson → List String) (sample : Sample) : List String :=
  ((ours env sample).map values).getD []

/-- The record has a position and no ICAO address. -/
structure PlacedAt (record : PyJson) (lat lon : Rat) : Prop where
  noAddress : (record.getNull "icao24").truthy = false
  given : given record "lat_deg" = true ∧ given record "lon_deg" = true
  lat : env.float (record.getNull "lat_deg") = .ok (.finite lat)
  lon : env.float (record.getNull "lon_deg") = .ok (.finite lon)

end

/-- A coordinate in cells. -/
def inCells (x : Rat) : Rat := x / positionCellDeg

namespace Sensor

/-- The sensor is within a cell of a position, in both coordinates. -/
def Within (sensor : Sensor) (lat lon : Rat) : Prop :=
  |sensor.lat - lat| ≤ positionCellDeg ∧ |sensor.lon - lon| ≤ positionCellDeg

/-- The sensor is more than two cells away from a position, in some coordinate. -/
def Far (sensor : Sensor) (lat lon : Rat) : Prop :=
  2 * positionCellDeg < |sensor.lat - lat| ∨ 2 * positionCellDeg < |sensor.lon - lon|

/-- The sensor was published at most `ttl` ago. -/
def Fresh (sensor : Sensor) (ttl now : Rat) : Prop := now - sensor.published ≤ ttl

/-- The sensor is in the cell of a position or in a neighbouring one. -/
def Beside (sensor : Sensor) (lat lon : Rat) : Prop :=
  Neighbours (inCells sensor.lat) (inCells lat) ∧ Neighbours (inCells sensor.lon) (inCells lon)

/-- The sensor is more than two cells away from a position, across the equator or across the
meridian of Greenwich and close to it, and beside it in the other coordinate. -/
def AcrossZero (sensor : Sensor) (lat lon : Rat) : Prop :=
  (2 * positionCellDeg < |sensor.lat - lat| ∧ NearZero (inCells sensor.lat) (inCells lat) ∧
      Neighbours (inCells sensor.lon) (inCells lon)) ∨
    (2 * positionCellDeg < |sensor.lon - lon| ∧ NearZero (inCells sensor.lon) (inCells lon) ∧
      Neighbours (inCells sensor.lat) (inCells lat))

/-- The cell of a sensor. -/
def cell (sensor : Sensor) : Int × Int := (trunc (inCells sensor.lat), trunc (inCells sensor.lon))

end Sensor

section

variable (env : Env)

/-- All sensors are far away from a position, and no id or name that was published occurs in the
record. -/
structure Unrelated (samples : List Sample) (record : PyJson) (lat lon : Rat) : Prop where
  sensors : ∀ sensor ∈ samples.filterMap (sensorOf env), sensor.Far lat lon
  ids : ∀ id ∈ samples.flatMap (publishedBy env (idsOf env)), ∀ text ∈ texts env record,
    PyStr.contains id text = false
  names : ∀ name ∈ samples.flatMap (publishedBy env (namesOf env)), name ∉ labels env record

/-- A record within a cell of a fresh sensor is an echo, and an unrelated record is none. -/
def Covers (ttl : Rat) (samples : List Sample) (record : PyJson) (lat lon now : Rat) : Prop :=
  ((∃ sensor ∈ samples.filterMap (sensorOf env), sensor.Fresh ttl now ∧ sensor.Within lat lon) →
      isEcho env (heardAll env (.init ttl) samples) record now = .ok true) ∧
    (Unrelated env samples record lat lon →
      isEcho env (heardAll env (.init ttl) samples) record now = .ok false)

end

/-! ## Cells -/

section

variable {env : Env} {lat lon : Rat} {sensor : Sensor}

theorem abs_inCells_sub (a b : Rat) : |inCells a - inCells b| = |a - b| / positionCellDeg := by
  have hpos : 0 < positionCellDeg := by norm_num [positionCellDeg]
  rw [inCells, inCells, ← sub_div, abs_div, abs_of_pos hpos]

theorem Sensor.Within.beside (h : sensor.Within lat lon) : sensor.Beside lat lon := by
  have hnear : ∀ {a b : Rat}, |a - b| ≤ positionCellDeg → Neighbours (inCells a) (inCells b) := by
    intro a b hab
    refine neighbours_of_near ?_
    rw [abs_inCells_sub, div_le_one (by norm_num [positionCellDeg])]
    exact hab
  exact ⟨hnear h.1, hnear h.2⟩

/-- A far sensor is beside a position when it is across zero. -/
theorem Sensor.Far.beside_iff (h : sensor.Far lat lon) :
    sensor.Beside lat lon ↔ sensor.AcrossZero lat lon := by
  have hzero : ∀ {a b : Rat}, 2 * positionCellDeg < |a - b| →
      (Neighbours (inCells a) (inCells b) ↔ NearZero (inCells a) (inCells b)) := by
    intro a b hab
    refine neighbours_iff_nearZero ?_
    rw [abs_inCells_sub, lt_div_iff₀ (by norm_num [positionCellDeg])]
    exact hab
  constructor
  · rintro ⟨hrow, hcol⟩
    rcases h with hlat | hlon
    · exact .inl ⟨hlat, (hzero hlat).mp hrow, hcol⟩
    · exact .inr ⟨hlon, (hzero hlon).mp hcol, hrow⟩
  · rintro (⟨hlat, hrow, hcol⟩ | ⟨hlon, hcol, hrow⟩)
    · exact ⟨(hzero hlat).mpr hrow, hcol⟩
    · exact ⟨hrow, (hzero hlon).mpr hcol⟩

theorem cell_of_finite {latDeg lonDeg : PyJson} (hlat : env.float latDeg = .ok (.finite lat))
    (hlon : env.float lonDeg = .ok (.finite lon)) :
    cell env latDeg lonDeg = .ok (trunc (inCells lat), trunc (inCells lon)) := by
  rw [cell, hlat, hlon]
  rfl

theorem finite_of_intOf {x : PyFloat} {n : Int} (h : intOf (scaled x) = .ok n) :
    ∃ value, x = .finite value := by
  cases x with
  | finite value => exact ⟨value, rfl⟩
  | infinity negative => cases h
  | nan => cases h

theorem finite_of_cell {latDeg lonDeg : PyJson} {place : Int × Int}
    (h : cell env latDeg lonDeg = .ok place) : ∃ lat lon, env.float latDeg = .ok (.finite lat) ∧
      env.float lonDeg = .ok (.finite lon) ∧
        place = (trunc (inCells lat), trunc (inCells lon)) := by
  obtain ⟨x, hx, hrest⟩ := PyError.bind_eq_ok h
  obtain ⟨row, hrow, hrest⟩ := PyError.bind_eq_ok hrest
  obtain ⟨y, hy, hrest⟩ := PyError.bind_eq_ok hrest
  obtain ⟨col, hcol, hrest⟩ := PyError.bind_eq_ok hrest
  obtain ⟨lat, rfl⟩ := finite_of_intOf hrow
  obtain ⟨lon, rfl⟩ := finite_of_intOf hcol
  refine ⟨lat, lon, hx, hy, ?_⟩
  rw [cell_of_finite hx hy] at h
  exact (Except.ok.inj h).symm

theorem published_of_sensorOf {sample : Sample} (h : sensorOf env sample = some sensor) :
    sensor.published = sample.now := by
  obtain ⟨data, -, hdata⟩ := bind_eq_some_iff.mp h
  split at hdata
  next _ =>
    split at hdata
    next _ => rw [← some.inj hdata]
    next _ => cases hdata
  next _ => cases hdata

theorem mem_around {d : Int × Int} : d ∈ around ↔ |d.1| ≤ 1 ∧ |d.2| ≤ 1 := by
  obtain ⟨dr, dc⟩ := d
  simp only [around, List.mem_flatMap, List.mem_map, List.mem_cons, List.not_mem_nil, or_false,
    Prod.mk.injEq, exists_eq_right_right, abs_le]
  omega

end

/-! ## What the filter remembers -/

section

variable {env : Env} {samples : List Sample} {sample : Sample} {filter : Filter}

/-- What a table keeps when keys are stamped and the oldest are forgotten. -/
theorem contains_forget_stamp {keys : List String} {now : Rat} {table : PyDict String Rat}
    {key : String} (h : (forget (stamp keys now table)).contains key = true) :
    key ∈ keys ∨ table.contains key = true := by
  obtain ⟨seen, hseen⟩ := isSome_iff_exists.mp h
  rw [forget, get?_filter] at hseen
  obtain ⟨hstamped, -⟩ := filter_eq_some_iff.mp hseen
  rw [stamp, get?_foldl_set fun _ => now] at hstamped
  split at hstamped
  next hmem => exact .inl hmem
  next _ => exact .inr (contains_of_get? hstamped)

/-- What the filter remembers of the samples that it heard: of the ids and names no others, and of
each sensor's cell the last time. -/
structure Remembers (env : Env) (samples : List Sample) (filter : Filter) : Prop where
  ids : ∀ id, filter.ids.contains id = true → id ∈ samples.flatMap (publishedBy env (idsOf env))
  names : ∀ name, filter.names.contains name = true →
    name ∈ samples.flatMap (publishedBy env (namesOf env))
  cells : ∀ place seen, filter.cells.get? place = some seen →
    ∃ sensor ∈ samples.filterMap (sensorOf env), sensor.cell = place ∧ sensor.published = seen
  last : ∀ sensor ∈ samples.filterMap (sensorOf env),
    ∃ seen, filter.cells.get? sensor.cell = some seen ∧ sensor.published ≤ seen

/-- What one sample changes. -/
theorem heard_spec (env : Env) (filter : Filter) (sample : Sample) :
    (heard env filter sample).ttl = filter.ttl ∧
      (∀ id, (heard env filter sample).ids.contains id = true →
        id ∈ publishedBy env (idsOf env) sample ∨ filter.ids.contains id = true) ∧
      (∀ name, (heard env filter sample).names.contains name = true →
        name ∈ publishedBy env (namesOf env) sample ∨ filter.names.contains name = true) ∧
      (heard env filter sample).cells =
        ((sensorOf env sample).map fun sensor =>
          filter.cells.set sensor.cell sensor.published).getD filter.cells := by
  rw [heard, onSample, sensorOf, publishedBy, publishedBy]
  cases hours : ours env sample with
  | none => exact ⟨rfl, fun _ => .inr, fun _ => .inr, rfl⟩
  | some data =>
    simp only [bind_some, map_some, getD_some]
    by_cases hfixed : fixed data = true
    · rw [if_pos hfixed, if_pos hfixed]
      cases hcell : cell env (data.getNull "lat_deg") (data.getNull "lon_deg") with
      | ok place =>
        obtain ⟨lat, lon, hlat, hlon, rfl⟩ := finite_of_cell hcell
        rw [hlat, hlon]
        refine ⟨rfl, fun id => contains_forget_stamp, fun name hname => ?_, rfl⟩
        rcases contains_forget_stamp hname with hmem | hbefore
        · exact .inl (mem_of_mem_filter hmem)
        · exact .inr hbefore
      | error raised =>
        refine ⟨rfl, fun _ => .inr, fun _ => .inr, ?_⟩
        -- a sensor without a cell has no rational position
        split
        next _ _ lat lon hlat hlon =>
          rw [cell_of_finite hlat hlon] at hcell
          cases hcell
        next _ => rfl
    · rw [if_neg hfixed, if_neg hfixed]
      refine ⟨rfl, fun id => contains_forget_stamp, fun name hname => ?_, rfl⟩
      rcases contains_forget_stamp hname with hmem | hbefore
      · exact .inl (mem_of_mem_filter hmem)
      · exact .inr hbefore

end

section

variable {env : Env} {samples : List Sample} {sample : Sample} {filter : Filter}

theorem Remembers.heard (h : Remembers env samples filter)
    (hclock : ∀ before ∈ samples, before.now ≤ sample.now) :
    Remembers env (samples ++ [sample]) (heard env filter sample) := by
  obtain ⟨-, hids, hnames, hcells⟩ := heard_spec env filter sample
  have hsensors : (samples ++ [sample]).filterMap (sensorOf env) =
      samples.filterMap (sensorOf env) ++ (sensorOf env sample).toList := by
    rw [filterMap_append]
    cases hsensor : sensorOf env sample with
    | none => rw [filterMap_cons_none hsensor, filterMap_nil, toList_none]
    | some sensor => rw [filterMap_cons_some hsensor, filterMap_nil, toList_some]
  refine ⟨fun id hid => ?_, fun name hname => ?_, ?_, ?_⟩
  · rw [flatMap_append, mem_append, flatMap_singleton]
    exact (hids id hid).symm.imp_left (h.ids id)
  · rw [flatMap_append, mem_append, flatMap_singleton]
    exact (hnames name hname).symm.imp_left (h.names name)
  · intro place seen hseen
    rw [hcells] at hseen
    rw [hsensors]
    cases hsensor : sensorOf env sample with
    | none =>
      rw [hsensor] at hseen
      obtain ⟨sensor, hmem, hplace, htime⟩ := h.cells place seen hseen
      exact ⟨sensor, mem_append_left _ hmem, hplace, htime⟩
    | some sensor =>
      rw [hsensor] at hseen
      by_cases hplace : place = sensor.cell
      · rw [map_some, getD_some, hplace, get?_set_self] at hseen
        exact ⟨sensor, mem_append_right _ mem_cons_self, hplace.symm,
          some.inj hseen⟩
      · rw [map_some, getD_some,
          get?_set_of_ne (d := filter.cells) hplace] at hseen
        obtain ⟨other, hmem, hother, htime⟩ := h.cells place seen hseen
        exact ⟨other, mem_append_left _ hmem, hother, htime⟩
  · intro sensor hmem
    rw [hcells]
    rw [hsensors] at hmem
    cases hnew : sensorOf env sample with
    | none =>
      rw [hnew, toList_none, append_nil] at hmem
      exact h.last sensor hmem
    | some new =>
      rw [hnew, toList_some] at hmem
      rw [map_some, getD_some]
      have hlater : ∀ old ∈ samples.filterMap (sensorOf env), old.published ≤ new.published := by
        intro old hold
        obtain ⟨before, hbefore, hof⟩ := mem_filterMap.mp hold
        rw [published_of_sensorOf hof, published_of_sensorOf hnew]
        exact hclock before hbefore
      by_cases hplace : sensor.cell = new.cell
      · refine ⟨new.published, by rw [hplace, get?_set_self], ?_⟩
        rcases mem_append.mp hmem with hold | hold
        · exact hlater sensor hold
        · rw [mem_singleton.mp hold]
      · rw [get?_set_of_ne (d := filter.cells) hplace]
        rcases mem_append.mp hmem with hold | hold
        · exact h.last sensor hold
        · exact absurd (congrArg Sensor.cell (mem_singleton.mp hold)) hplace

/-- The filter remembers all samples of a run. -/
theorem remembers_heardAll (env : Env) (ttl : Rat) (samples : List Sample)
    (hclock : samples.Pairwise fun a b => a.now ≤ b.now) :
    Remembers env samples (heardAll env (.init ttl) samples) := by
  induction samples using reverseRecOn with
  | nil =>
    exact ⟨nofun, nofun, nofun, nofun⟩
  | append_singleton samples sample ih =>
    obtain ⟨hbefore, -, hlater⟩ := pairwise_append.mp hclock
    rw [heardAll, Runs.final_append]
    exact (ih hbefore).heard fun before hmem => hlater before hmem sample mem_cons_self

theorem ttl_heardAll (env : Env) (ttl : Rat) (samples : List Sample) :
    (heardAll env (.init ttl) samples).ttl = ttl :=
  Runs.final_of_step (P := fun filter => filter.ttl = ttl)
    (fun filter sample hfilter => (heard_spec env filter sample).1.trans hfilter) rfl

end

/-! ## Echoes of a run -/

section

variable {env : Env} {samples : List Sample} {filter : Filter} {record : PyJson} {lat lon now : Rat}

theorem atASensor_of_placed (hplaced : PlacedAt env record lat lon) :
    atASensor env filter record now = .ok (around.any fun d =>
      filter.fresh now (filter.cells.get?
        (trunc (inCells lat) + d.1, trunc (inCells lon) + d.2))) := by
  rw [atASensor, if_neg, cell_of_finite hplaced.lat hplaced.lon]
  rw [hplaced.noAddress, hplaced.given.1, hplaced.given.2]
  decide

/-- A record is at a sensor when a fresh one is beside it. -/
theorem any_around_iff (h : Remembers env samples filter) :
    (around.any fun d => filter.fresh now (filter.cells.get?
      (trunc (inCells lat) + d.1, trunc (inCells lon) + d.2))) = true ↔
      ∃ sensor ∈ samples.filterMap (sensorOf env),
        sensor.Fresh filter.ttl now ∧ sensor.Beside lat lon := by
  rw [List.any_eq_true]
  constructor
  · rintro ⟨⟨dr, dc⟩, hd, hfresh⟩
    obtain ⟨hdr, hdc⟩ := mem_around.mp hd
    cases hseen : filter.cells.get? (trunc (inCells lat) + dr, trunc (inCells lon) + dc) with
    | none =>
      rw [hseen] at hfresh
      cases hfresh
    | some seen =>
      rw [hseen] at hfresh
      obtain ⟨sensor, hmem, hcell, rfl⟩ := h.cells _ _ hseen
      obtain ⟨hrow, hcol⟩ := Prod.mk.inj hcell
      refine ⟨sensor, hmem, of_decide_eq_true (p := now - sensor.published ≤ filter.ttl) hfresh,
        ?_, ?_⟩
      · rw [Neighbours, hrow, add_sub_cancel_left]
        exact hdr
      · rw [Neighbours, hcol, add_sub_cancel_left]
        exact hdc
  · rintro ⟨sensor, hmem, hfresh, hrow, hcol⟩
    obtain ⟨seen, hseen, hlater⟩ := h.last sensor hmem
    refine ⟨(trunc (inCells sensor.lat) - trunc (inCells lat),
      trunc (inCells sensor.lon) - trunc (inCells lon)), mem_around.mpr ⟨hrow, hcol⟩, ?_⟩
    have hage : now - seen ≤ filter.ttl := (sub_le_sub_left hlater now).trans hfresh
    rw [add_sub_cancel, add_sub_cancel]
    rw [show (trunc (inCells sensor.lat), trunc (inCells sensor.lon)) = sensor.cell from rfl, hseen]
    exact decide_eq_true (p := now - seen ≤ filter.ttl) hage

theorem embedsId_of_unrelated (h : Remembers env samples filter)
    (hunrelated : Unrelated env samples record lat lon) :
    embedsId env filter record now = false := by
  rw [embedsId, List.any_eq_false]
  intro entry hentry hfound
  obtain ⟨hmem, -⟩ := List.mem_filter.mp hentry
  obtain ⟨text, htext, hcontains⟩ := List.any_eq_true.mp hfound
  have hid := h.ids entry.1 (PyDict.contains_of_get? (PyDict.get?_eq_some_iff.mpr hmem))
  rw [hunrelated.ids entry.1 hid text htext] at hcontains
  cases hcontains

theorem hasName_of_unrelated (h : Remembers env samples filter)
    (hunrelated : Unrelated env samples record lat lon) :
    hasName env filter record now = false := by
  rw [hasName, List.any_eq_false]
  intro entry hentry hfound
  obtain ⟨hmem, -⟩ := List.mem_filter.mp hentry
  have hname := h.names entry.1 (PyDict.contains_of_get? (PyDict.get?_eq_some_iff.mpr hmem))
  exact hunrelated.names entry.1 hname (by simpa using hfound)

/-- The filter covers a record unless it is unrelated, and the operator's pattern is found in it or
a fresh sensor is across zero. -/
theorem covers_iff {ttl : Rat} (hclock : samples.Pairwise fun a b => a.now ≤ b.now)
    (hplaced : PlacedAt env record lat lon) :
    Covers env ttl samples record lat lon now ↔
      (Unrelated env samples record lat lon → dropped env record = false ∧
        ¬ ∃ sensor ∈ samples.filterMap (sensorOf env),
          sensor.Fresh ttl now ∧ sensor.AcrossZero lat lon) := by
  have hremembers := remembers_heardAll env ttl samples hclock
  have hnear := @any_around_iff _ _ _ lat lon now hremembers
  rw [ttl_heardAll] at hnear
  have hcovered : (∃ sensor ∈ samples.filterMap (sensorOf env),
      sensor.Fresh ttl now ∧ sensor.Within lat lon) →
        isEcho env (heardAll env (.init ttl) samples) record now = .ok true := by
    rintro ⟨sensor, hmem, hfresh, hwithin⟩
    rw [isEcho, atASensor_of_placed hplaced,
      hnear.mpr ⟨sensor, hmem, hfresh, hwithin.beside⟩]
    exact ite_self _
  rw [Covers, and_iff_right hcovered]
  refine forall_congr' fun hunrelated => ?_
  have hacross : (∃ sensor ∈ samples.filterMap (sensorOf env),
      sensor.Fresh ttl now ∧ sensor.Beside lat lon) ↔
        ∃ sensor ∈ samples.filterMap (sensorOf env),
          sensor.Fresh ttl now ∧ sensor.AcrossZero lat lon :=
    exists_congr fun sensor => and_congr_right fun hmem => and_congr_right fun _ =>
      (hunrelated.sensors sensor hmem).beside_iff
  rw [← hacross, ← hnear, isEcho, embedsId_of_unrelated hremembers hunrelated,
    hasName_of_unrelated hremembers hunrelated, atASensor_of_placed hplaced, Bool.or_false,
    Bool.or_false, Bool.not_eq_true]
  cases dropped env record with
  | false => simp
  | true => simp

end

/-! ## A sensor at the equator -/

/-- The library on numbers and texts. -/
def plain : Env where
  toPyBuiltins := { PyBuiltins.plain with
    float := fun
      | .float x => .ok x
      | .int n => .ok (.finite n)
      | _ => .error .typeError }
  lower := PyStr.lower
  drop := none

/-- A record at a latitude on the meridian 20. -/
def recordAt (lat : Rat) : PyJson := .dict [("lat_deg", .float (.finite lat)), ("lon_deg", .int 20)]

/-- A sensor one and a half cells north of the equator. -/
def equatorial : Sample where
  data := some (.dict [("sensor_id", .str "S-1"), ("lat_deg", .float (.finite (3 / 20000))),
    ("lon_deg", .int 20)])
  now := 0

theorem placedAt_recordAt (lat : Rat) : PlacedAt plain (recordAt lat) lat 20 :=
  ⟨rfl, ⟨rfl, rfl⟩, rfl, rfl⟩

theorem sensors_equatorial : [equatorial].filterMap (sensorOf plain) = [⟨3 / 20000, 20, 0⟩] := rfl

theorem texts_recordAt (lat : Rat) : texts plain (recordAt lat) = [""] := by
  have huid : textOf plain (recordAt lat) "uid" = "" := rfl
  have hcallsign : textOf plain (recordAt lat) "callsign" = "" := rfl
  have hlabel : textOf plain (recordAt lat) "label" = "" := rfl
  rw [texts, labels, map_cons, map_cons, map_nil, huid, hcallsign, hlabel]
  decide +kernel

theorem unrelated_equatorial {lat : Rat} (h : 2 * positionCellDeg < |3 / 20000 - lat|) :
    Unrelated plain [equatorial] (recordAt lat) lat 20 where
  sensors sensor hsensor := by
    rw [sensors_equatorial, mem_singleton] at hsensor
    rw [hsensor]
    exact .inl h
  ids id hid text htext := by
    have hids : [equatorial].flatMap (publishedBy plain (idsOf plain)) = ["S-1"] := by
      decide +kernel
    have htexts : texts plain (recordAt lat) = [""] := texts_recordAt lat
    rw [hids, mem_singleton] at hid
    rw [htexts, mem_singleton] at htext
    rw [hid, htext]
    decide +kernel
  names name hname := by
    have hnames : [equatorial].flatMap (publishedBy plain (namesOf plain)) = [] := by
      decide +kernel
    rw [hnames] at hname
    cases hname

/-- The filter covers a record that is five cells away from the sensor. -/
theorem covers_northern :
    Covers plain 10 [equatorial] (recordAt (13 / 20000)) (13 / 20000) 20 0 := by
  refine (covers_iff (List.pairwise_singleton _ _) (placedAt_recordAt _)).mpr fun _ => ⟨rfl, ?_⟩
  rintro ⟨sensor, hsensor, -, hacross⟩
  rw [sensors_equatorial, List.mem_singleton] at hsensor
  rw [hsensor] at hacross
  rcases hacross with ⟨-, ⟨⟨-, hnear⟩, -⟩, -⟩ | ⟨hfar, -, -⟩
  · norm_num [inCells, positionCellDeg, abs_lt] at hnear
  · norm_num [positionCellDeg] at hfar

/-- A record on the other side of the equator is taken for an echo of a sensor that is more than two
cells away. -/
theorem equator_merged :
    ¬ Covers plain 10 [equatorial] (recordAt (-3 / 50000)) (-3 / 50000) 20 0 := by
  rintro ⟨-, hnone⟩
  have hunrelated := @unrelated_equatorial (-3 / 50000) (by norm_num [positionCellDeg, abs_of_pos])
  have hecho : isEcho plain (heardAll plain (.init 10) [equatorial]) (recordAt (-3 / 50000)) 0 =
      .ok true := by decide +kernel
  rw [hnone hunrelated] at hecho
  cases hecho

end Efdi.Tracks.EchoFilter
