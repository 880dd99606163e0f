import Efdi.Backbone.Socbx

/-!
# Topics of soc-bx

`on_sample` of `socbx.py` puts the records of a message one after the other, inside one `try`.
The slot of a topic is the affiliation as the partner wrote it, in lower case.  So an affiliation
that is none of those that the layers map takes its record to another topic, and one that makes no
key ends the batch (`partner_text_iff`).
-/

namespace Efdi.Backbone

open List
open Tracks (PyText Track split_slash)

/-! ## The loop over the records -/

/-- The filters of the translator and their tables.  Each of them may raise. -/
structure Filters (σ : Type) where
  /-- `is_ghost`, of an address, a callsign and a registration. -/
  isGhost : σ → PyJson → Option PyJson → Option PyJson → Option (Bool × σ)
  isTwin : σ → Normalized → Option (Bool × σ)
  isEcho : σ → Normalized → Option (Bool × σ)

variable {σ : Type} (filters : Filters σ)

/-- The filters let a record through. -/
def Filters.passes (s : σ) (normalized : Normalized) : Option (Bool × σ) := do
  let record := normalized.record
  let icao := (record.get? "icao24").getD .null
  let (ghost, s) ←
    if icao.truthy then filters.isGhost s icao (record.get? "callsign") (record.get? "registration")
    else some (false, s)
  if ghost then return (false, s)
  let (twin, s) ← filters.isTwin s normalized
  if twin then return (false, s)
  let (echo, s) ← filters.isEcho s normalized
  return (!echo, s)

/-- The topic of a record. -/
def Normalized.topic (root : String) (normalized : Normalized) : String :=
  backboneTopic root normalized.dimension normalized.slot normalized.entity

/-- The loop of `on_sample`: what is put.  `valid` are the keys on which `put` does not raise. -/
def putRecords (root : String) (valid : String → Bool) : σ → List Normalized →
    List (String × Track)
  | _, [] => []
  | s, normalized :: records =>
    match filters.passes s normalized with
    | none => []
    | some (false, s) => putRecords root valid s records
    | some (true, s) =>
      if valid (normalized.topic root) then
        (normalized.topic root, normalized.record) :: putRecords root valid s records
      else []

/-- The records that the filters let through, whatever becomes of the others. -/
def letThrough : σ → List Normalized → List Normalized
  | _, [] => []
  | s, normalized :: records =>
    match filters.passes s normalized with
    | none => letThrough s records
    | some (false, s) => letThrough s records
    | some (true, s) => normalized :: letThrough s records

/-- No filter raises on a record that is before one that they let through. -/
def Undisturbed : σ → List Normalized → Prop
  | _, [] => True
  | s, normalized :: records =>
    match filters.passes s normalized with
    | none => letThrough filters s records = []
    | some (_, s) => Undisturbed s records

/-! ## Keys -/

def topicSlots : List String := ["friendly", "hostile", "neutral", "unknown", "civ"]

/-- A key of the tracks of the backbone. -/
def AllowedKey (root key : String) : Prop :=
  ∃ d ∈ ["air", "land", "sea"], ∃ s ∈ topicSlots, ∃ e ∈ ["unit", "aircraft"],
    key = backboneTopic root d s e

theorem split_backboneTopic (root dimension slot entity : String) :
    PyStr.split '/' (backboneTopic root dimension slot entity) =
      PyStr.split '/' root ++ (PyStr.split '/' dimension ++ ("backbone" :: (PyStr.split '/' slot ++
        PyStr.split '/' entity ++ ["tracks", "v1"]))) := by
  have hkey : backboneTopic root dimension slot entity = root ++ "/" ++ (dimension ++ "/" ++
      ("backbone" ++ "/" ++ (slot ++ "/" ++ (entity ++ "/" ++ ("tracks" ++ "/" ++ "v1"))))) := by
    simp only [backboneTopic, String.append_assoc]
    rfl
  rw [hkey, split_slash, split_slash, split_slash, split_slash, split_slash, split_slash]
  simp [PyStr.split_of_notMem (c := '/') (s := "backbone") (by decide),
    PyStr.split_of_notMem (c := '/') (s := "tracks") (by decide),
    PyStr.split_of_notMem (c := '/') (s := "v1") (by decide)]

/-- The key of a record is allowed when its slot is. -/
theorem allowedKey_iff {root : String} {normalized : Normalized}
    (hdimension : normalized.dimension ∈ ["air", "land", "sea"])
    (hentity : normalized.entity ∈ ["unit", "aircraft"]) :
    AllowedKey root (normalized.topic root) ↔ normalized.slot ∈ topicSlots := by
  constructor
  · rintro ⟨d, hd, s, hs, e, he, hkey⟩
    have hone : ∀ texts : List String, (∀ text ∈ texts, '/' ∉ text.toList) →
        ∀ text ∈ texts, PyStr.split '/' text = [text] :=
      fun texts h text hmem => PyStr.split_of_notMem (h text hmem)
    have hdimensions := hone ["air", "land", "sea"] (by decide)
    have hentities := hone ["unit", "aircraft"] (by decide)
    have hslot := hone topicSlots (by decide) s hs
    have hsplit := congrArg (PyStr.split '/') hkey
    rw [Normalized.topic, split_backboneTopic, split_backboneTopic, hdimensions _ hdimension,
      hdimensions d hd, hentities _ hentity, hentities e he, hslot] at hsplit
    have hrest := (cons.inj (append_cancel_left hsplit)).2
    have hfront := append_inj_left' (append_cancel_right (cons.inj hrest).2) rfl
    rwa [PyStr.split_inj (hfront.trans hslot.symm)]
  · exact fun hslot => ⟨_, hdimension, _, hslot, _, hentity, rfl⟩

section

variable (py : PyText)

/-- The other segments of a topic are fixed, and the slot is that of the affiliation or `civ`. -/
theorem segments_of_mem {now : Nat → Rat} {msg : UnifiedSchema} {normalized : Normalized}
    (h : normalized ∈ unifiedRecords py now msg) :
    normalized.dimension ∈ ["air", "land", "sea"] ∧ normalized.entity ∈ ["unit", "aircraft"] := by
  obtain ⟨entry, -, hrecord⟩ := mem_filterMap.mp h
  have hdimension : ∀ identity key, socbxDimension py identity key ∈ ["air", "land", "sea"] := by
    intro identity key
    rw [socbxDimension]
    split
    · decide
    · split <;> decide
  rw [unifiedRecord] at hrecord
  split at hrecord
  · cases hrecord
  · dsimp only at hrecord
    split at hrecord
    · cases hrecord
    · split at hrecord
      · cases hrecord
      · split at hrecord
        · split at hrecord
          · obtain rfl := Option.some.inj hrecord
            exact ⟨.head _, by simp⟩
          · obtain rfl := Option.some.inj hrecord
            exact ⟨.head _, .head _⟩
        · obtain rfl := Option.some.inj hrecord
          exact ⟨hdimension _ _, .head _⟩

end

/-! ## What is delivered -/

/-- Every record that the filters let through is put on a key of the tracks of the backbone. -/
structure Delivered (root : String) (valid : String → Bool) (s : σ) (records : List Normalized) :
    Prop where
  all : putRecords filters root valid s records =
    (letThrough filters s records).map fun normalized => (normalized.topic root, normalized.record)
  allowed : ∀ put ∈ putRecords filters root valid s records, AllowedKey root put.1

section

variable {filters} {root : String} {valid : String → Bool} {records : List Normalized}

theorem mem_of_letThrough {normalized : Normalized} : ∀ {s : σ} {records : List Normalized},
    normalized ∈ letThrough filters s records → normalized ∈ records
  | _, [], h => h
  | s, record :: records, h => by
    rw [letThrough] at h
    split at h
    · exact .tail _ (mem_of_letThrough h)
    · exact .tail _ (mem_of_letThrough h)
    · rcases mem_cons.mp h with rfl | h
      · exact mem_cons_self
      · exact .tail _ (mem_of_letThrough h)

/-- Where the keys of all records that are let through are valid, they are all put exactly when the
batch is not ended by a filter. -/
theorem putRecords_eq_iff : ∀ {s : σ} {records : List Normalized},
    (∀ normalized ∈ letThrough filters s records, valid (normalized.topic root) = true) →
      (putRecords filters root valid s records = (letThrough filters s records).map
        (fun normalized => (normalized.topic root, normalized.record)) ↔
          Undisturbed filters s records)
  | _, [], _ => iff_of_true rfl trivial
  | s, record :: records, h => by
    rw [letThrough] at h
    rw [putRecords, letThrough, Undisturbed]
    split at h
    next hraise =>
      rw [hraise]
      exact eq_comm.trans List.map_eq_nil_iff
    next next hdrop =>
      rw [hdrop]
      exact putRecords_eq_iff h
    next next hpass =>
      obtain ⟨hhead, hrest⟩ := forall_mem_cons.mp h
      rw [hpass]
      dsimp only
      rw [if_pos hhead, map_cons, cons_inj_right]
      exact putRecords_eq_iff hrest

end

/-- A message is delivered exactly when every record that the filters let through has a slot that
the layers map, and no filter raises on a record before one of them. -/
theorem partner_text_iff (py : PyText) (root : String) (valid : String → Bool)
    (hvalid : ∀ key, AllowedKey root key → valid key = true) (s : σ) (now : Nat → Rat)
    (msg : UnifiedSchema) :
    Delivered filters root valid s (unifiedRecords py now msg) ↔
      (∀ normalized ∈ letThrough filters s (unifiedRecords py now msg),
        normalized.slot ∈ topicSlots) ∧ Undisturbed filters s (unifiedRecords py now msg) := by
  have hkeys : ∀ normalized ∈ letThrough filters s (unifiedRecords py now msg),
      AllowedKey root (normalized.topic root) ↔ normalized.slot ∈ topicSlots := fun _ hmem =>
    let hsegments := segments_of_mem py (mem_of_letThrough hmem)
    allowedKey_iff hsegments.1 hsegments.2
  constructor
  · intro h
    have hslots : ∀ normalized ∈ letThrough filters s (unifiedRecords py now msg),
        AllowedKey root (normalized.topic root) := fun normalized hmem =>
      h.allowed _ (by rw [h.all]; exact List.mem_map_of_mem hmem)
    exact ⟨fun normalized hmem => (hkeys _ hmem).mp (hslots _ hmem),
      (putRecords_eq_iff fun normalized hmem => hvalid _ (hslots _ hmem)).mp h.all⟩
  · rintro ⟨hslots, hundisturbed⟩
    have hallowed : ∀ normalized ∈ letThrough filters s (unifiedRecords py now msg),
        AllowedKey root (normalized.topic root) := fun _ hmem => (hkeys _ hmem).mpr (hslots _ hmem)
    have hall := (putRecords_eq_iff fun normalized hmem => hvalid _ (hallowed _ hmem)).mpr
      hundisturbed
    refine ⟨hall, fun put hput => ?_⟩
    rw [hall] at hput
    obtain ⟨normalized, hmem, rfl⟩ := List.mem_map.mp hput
    exact hallowed _ hmem

/-- Filters that let everything through. -/
def noFilters : Filters Unit := ⟨fun _ _ _ _ => some (false, ()), fun _ _ => some (false, ()),
  fun _ _ => some (false, ())⟩

/-- A message about one object. -/
def oneObject (affiliation : String) : UnifiedSchema where
  nodeId := "n"
  objects := [("o", ⟨some ⟨.finite 54, .finite 25, none⟩,
    ⟨"o", "", "", "", "", "", "", "", "", "", "", affiliation, ""⟩, ⟨none, none, none, none⟩⟩)]

theorem partner_text_iff_friend :
    (Delivered noFilters "efdi" (fun _ => true) ()
        (unifiedRecords Tracks.asciiText (fun _ => 0) (oneObject "friend")) ↔
      (∀ normalized ∈ letThrough noFilters ()
          (unifiedRecords Tracks.asciiText (fun _ => 0) (oneObject "friend")),
        normalized.slot ∈ topicSlots) ∧
      Undisturbed noFilters ()
        (unifiedRecords Tracks.asciiText (fun _ => 0) (oneObject "friend"))) :=
  partner_text_iff noFilters Tracks.asciiText "efdi" (fun _ => true) (fun _ _ => rfl) () (fun _ => 0)
    (oneObject "friend")

theorem other_slot_put :
    (putRecords noFilters "efdi" (fun _ => true) ()
        (unifiedRecords Tracks.asciiText (fun _ => 0) (oneObject "x/y"))).map Prod.fst =
      ["efdi/land/backbone/x/y/unit/tracks/v1"] ∧
    ¬ Delivered noFilters "efdi" (fun _ => true) ()
      (unifiedRecords Tracks.asciiText (fun _ => 0) (oneObject "x/y")) := by
  have hkeys : (putRecords noFilters "efdi" (fun _ => true) ()
      (unifiedRecords Tracks.asciiText (fun _ => 0) (oneObject "x/y"))).map Prod.fst =
        ["efdi/land/backbone/x/y/unit/tracks/v1"] := by
    decide +kernel
  refine ⟨hkeys, fun h => ?_⟩
  obtain ⟨put, rest, hput, hkey, -⟩ := List.map_eq_cons_iff.mp hkeys
  have hallowed := h.allowed put (by rw [hput]; exact .head _)
  rw [hkey] at hallowed
  revert hallowed
  unfold AllowedKey
  decide +kernel

end Efdi.Backbone
