import Efdi.Asterix.Fields

/-!
# Keys that are not written

A property that lasts while other keys are written (`Outside`) is kept by everything that writes
none of its keys.  The registers of a Mode S message write `registerKeys`.
-/

namespace Efdi.Asterix

open Reading Tracks

variable {F : FloatMath}

/-- A property of tracks that lasts when other keys are written. -/
def Outside (keys : List String) (P : Track → Prop) : Prop :=
  ∀ track key value, key ∉ keys → P track → P (track.set key value)

/-- A track has none of the keys. -/
def Without (keys : List String) (track : Track) : Prop := ∀ key ∈ keys, track.get? key = none

theorem outside_without (keys : List String) : Outside keys (Without keys) := by
  intro track key value hkey h other hother
  have hne : other ≠ key := fun heq => hkey (heq ▸ hother)
  rw [PyDict.get?_set_of_ne _ hne]
  exact h other hother

theorem without_empty (keys : List String) : Without keys PyDict.empty := fun _ _ => rfl

/-- The keys of the registers. -/
def registerKeys : List String :=
  ["dlc_continuation_flag", "overlay_command_capability", "acas_operational",
    "mode_s_subnetwork_version", "transponder_level5", "mode_s_specific_services",
    "uplink_elm_throughput", "downlink_elm_throughput", "aircraft_id_capability",
    "squitter_capability", "surveillance_id_capability", "common_usage_gicb_capability",
    "acas_hybrid_surveillance", "acas_resolution_advisory", "acas_rtca_version", "dte_status",
    "supported_bds", "acas_ra_active", "acas_ra_hex", "acas_ra_sense", "acas_ra_corrective",
    "acas_ra_terminated", "acas_multi_threat", "sel_alt_mcp_ft", "sel_alt_fms_ft",
    "baro_setting_mb", "vnav_active", "alt_hold", "approach_mode", "roll_deg", "true_track_deg",
    "bds_gs_kt", "track_rate_degs", "tas_kt", "mag_hdg_deg", "ias_kt", "mach", "baro_vr_fpm",
    "ivv_fpm"]

namespace Outside

variable {keys : List String} {P : Track → Prop} (hP : Outside keys P) {track : Track}

include hP

theorem keeps_set {raised : Prop} {n : Nat} {key : String} {value : List UInt8 → PyJson}
    (hkey : key ∉ keys) :
    Keeps raised P (.fixed n fun data track => track.set key (value data)) :=
  keeps_fixed fun _ _ h => hP _ _ _ hkey h

theorem keeps_set_set {raised : Prop} {n : Nat} {key other : String}
    {value value' : List UInt8 → PyJson} (hkey : key ∉ keys) (hother : other ∉ keys) :
    Keeps raised P (.fixed n fun data track =>
      (track.set key (value data)).set other (value' data)) :=
  keeps_fixed fun _ _ h => hP _ _ _ hother (hP _ _ _ hkey h)

theorem setIf {condition : Bool} {key : String} {value : PyJson} (hkey : key ∉ keys)
    (h : P track) : P (setIf condition key value track) := by
  rw [Asterix.setIf]
  split
  next => exact hP _ _ _ hkey h
  next => exact h

theorem setFlags {octet : UInt8} {flags : List (UInt8 × String)} :
    ∀ {track : Track}, (∀ entry ∈ flags, entry.2 ∉ keys) → P track →
      P (setFlags octet flags track) := by
  induction flags with
  | nil => exact fun _ h => h
  | cons entry flags ih =>
    intro track hkeys h
    rw [Asterix.setFlags]
    exact ih (fun e he => hkeys e (.tail _ he))
      (hP.setIf (hkeys entry (.head _)) h)

theorem setDefault {key : String} {value : PyJson} (hkey : key ∉ keys) (h : P track) :
    P (track.setDefault key value) := by
  rw [PyDict.setDefault]
  split
  next => exact h
  next => exact hP _ _ _ hkey h

theorem foldl_set {entries : List (String × PyJson)} :
    ∀ {track : Track}, (∀ entry ∈ entries, entry.1 ∉ keys) → P track →
      P (entries.foldl (fun track entry => track.set entry.1 entry.2) track) := by
  induction entries with
  | nil => exact fun _ h => h
  | cons entry entries ih =>
    intro track hkeys h
    exact ih (fun e he => hkeys e (.tail _ he))
      (hP _ _ _ (hkeys entry (.head _)) h)

theorem updateWith {out : Track} (hout : Without keys out) (h : P track) :
    P (updateWith out track) := by
  refine hP.foldl_set (fun entry hentry hkey => ?_) h
  have hnone := hout entry.1 hkey
  rw [PyDict.get?_eq_some_iff.mpr hentry] at hnone
  cases hnone

/-! ## Registers -/

section

variable (hkeys : ∀ key ∈ registerKeys, key ∉ keys)

include hkeys

variable (mb : List UInt8)

theorem decodeBds10 (h : P track) : P (decodeBds10 mb track) := by
  refine hP.foldl_set (fun entry hentry => hkeys _ ?_) h
  simp only [List.mem_cons, List.not_mem_nil, or_false] at hentry
  rcases hentry with rfl | rfl | rfl | rfl | rfl | rfl | rfl | rfl | rfl | rfl | rfl | rfl |
    rfl | rfl | rfl | rfl <;> simp [registerKeys]

theorem decodeBds17 (h : P track) : P (decodeBds17 mb track) :=
  hP _ _ _ (hkeys _ (by decide)) h

theorem decodeBds30 (h : P track) : P (decodeBds30 mb track) := by
  rw [Asterix.decodeBds30]
  split
  next => exact h
  next =>
    dsimp only
    split
    next =>
      refine hP _ _ _ (hkeys _ (by decide)) (hP _ _ _ (hkeys _ (by decide)) ?_)
      split
      next =>
        exact hP _ _ _ (hkeys _ (by decide)) (hP _ _ _ (hkeys _ (by decide))
          (hP _ _ _ (hkeys _ (by decide)) (hP _ _ _ (hkeys _ (by decide)) h)))
      next => exact hP _ _ _ (hkeys _ (by decide)) (hP _ _ _ (hkeys _ (by decide)) h)
    next => exact h

theorem decodeBds40 (h : P track) : P (decodeBds40 F mb track) := by
  rw [Asterix.decodeBds40]
  dsimp only
  split
  next =>
    exact hP.setIf (hkeys _ (by decide)) (hP.setIf (hkeys _ (by decide))
      (hP.setIf (hkeys _ (by decide)) (hP.setIf (hkeys _ (by decide))
        (hP.setIf (hkeys _ (by decide)) (hP.setIf (hkeys _ (by decide)) h)))))
  next =>
    exact hP.setIf (hkeys _ (by decide)) (hP.setIf (hkeys _ (by decide))
      (hP.setIf (hkeys _ (by decide)) h))

theorem decodeBds50 (h : P track) : P (decodeBds50 F mb track) :=
  hP.setIf (hkeys _ (by decide)) (hP.setIf (hkeys _ (by decide)) (hP.setIf (hkeys _ (by decide))
    (hP.setIf (hkeys _ (by decide)) (hP.setIf (hkeys _ (by decide)) h))))

theorem decodeBds60 (h : P track) : P (decodeBds60 F mb track) :=
  hP.setIf (hkeys _ (by decide)) (hP.setIf (hkeys _ (by decide)) (hP.setIf (hkeys _ (by decide))
    (hP.setIf (hkeys _ (by decide)) (hP.setIf (hkeys _ (by decide)) h))))

theorem decodeMb (group : List UInt8) (h : P track) : P (decodeMb F group track) := by
  rw [Asterix.decodeMb]
  split
  next => exact hP.decodeBds10 hkeys _ h
  next => exact hP.decodeBds17 hkeys _ h
  next => exact hP.decodeBds30 hkeys _ h
  next => exact hP.decodeBds40 hkeys _ h
  next => exact hP.decodeBds50 hkeys _ h
  next => exact hP.decodeBds60 hkeys _ h
  next => exact h

end

end Outside

end Efdi.Asterix
