import Efdi.Tracks.ObjectKeys

/-!
# Consumers of a view

The topic filters of the fusion bridge.  `on_radar`, `on_neptun` and `on_any_track` want a
version tail and no other view than JSON before it, so they take the JSON view of a key and
nothing else, unless the key itself ends in the name of another view.  `on_adsb` still wants
`/json` at the end, where no view key has it (`adsb_viewKey`).

Own output is told by segments (`OwnOutput`).  The filters compare texts, and outside of the own
output no view key starts with the own prefix (`not_startsWith_own`).
-/

namespace Efdi.Tracks

open List Bool

/-- The views that the fusion bridge skips. -/
def otherViews : List String := ["sapient", "proto", "raw"]

/-- The collection under which the fusion bridge publishes. -/
def ownCollection (root : String) : String := root ++ "/air/trackfusion"

/-- `_OWN_PREFIX`. -/
def ownStart (root : String) : String := ownCollection root ++ "/"

variable (U : Unicode)

/-- The last segment before the version tail names another view than JSON. -/
def skipsView (topic : String) : Bool := otherViews.contains (lastSegment (stripVersion U topic))

/-- The topic filter of `on_radar`. -/
def onRadarTopic (root topic : String) : Bool :=
  PyStr.endsWith topic "/tracks/v1" && !skipsView U topic &&
    !PyStr.startsWith topic (ownStart root)

/-- The topic filter of `on_adsb`. -/
def onAdsbTopic (topic : String) : Bool := PyStr.endsWith topic "/json"

/-- The topic filter of `on_neptun`. -/
def onNeptunTopic (topic : String) : Bool :=
  PyStr.endsWith topic "/tracks/v1" && !skipsView U topic

/-- The topic filter of `on_any_track`. -/
def onAnyTrackTopic (root topic : String) : Bool :=
  PyStr.endsWith topic "/tracks/v1" && !PyStr.startsWith topic (ownStart root) &&
    !skipsView U topic

/-- The handlers of the fusion bridge for tracks. -/
inductive Handler where
  | radar
  | adsb
  | neptun
  | anyTrack
deriving DecidableEq, Repr

/-- The topic gets past the filter of the handler. -/
def Handler.passes (root : String) : Handler → String → Bool
  | .radar => onRadarTopic U root
  | .adsb => onAdsbTopic
  | .neptun => onNeptunTopic U
  | .anyTrack => onAnyTrackTopic U root

/-- The handler takes the JSON view of the key and no other. -/
def ConsumesJson (root : String) (handler : Handler) (key : String) : Prop :=
  ∀ view, handler.passes U root (viewKey U key view) = true ↔ view = .json

/-- The key lies in the output of the fusion bridge. -/
def OwnOutput (root key : String) : Prop :=
  PyStr.split '/' (ownCollection root) <+: PyStr.split '/' key

instance (root key : String) : Decidable (OwnOutput root key) :=
  inferInstanceAs (Decidable (_ <+: _))

/-! ## Segments of a view key -/

/-- What a view key has behind its base. -/
def viewTail (view : View) : List String :=
  (if view = .json then [] else [view.value]) ++ ["tracks", "v1"]

variable (key : String)

theorem split_viewKey (view : View) :
    PyStr.split '/' (viewKey U key view) = PyStr.split '/' (baseKey U key) ++ viewTail view := by
  have htail : PyStr.split '/' versionTail = ["tracks", "v1"] := by decide
  rw [viewKey, split_slash, htail, stem, viewTail]
  by_cases hjson : view = .json
  · rw [if_pos hjson, if_pos hjson, nil_append]
  · rw [if_neg hjson, if_neg hjson, split_slash, PyStr.split_of_notMem (slash_notMem_value view),
      append_assoc]

variable {U}

/-- A text made of the first segments of another has only these, or is empty. -/
theorem split_join_prefix {parts : List String} {topic : String}
    (h : parts <+: PyStr.split '/' topic) :
    PyStr.split '/' (PyStr.join "/" parts) <+: PyStr.split '/' topic ∨ PyStr.join "/" parts = "" := by
  by_cases hnil : parts = []
  · exact Or.inr (hnil ▸ rfl)
  · refine Or.inl ?_
    have hsplit : PyStr.split '/' (PyStr.join "/" parts) = parts :=
      PyStr.split_join hnil (notMem_of_split h.subset)
    rw [hsplit]
    exact h

theorem stripVersion_prefix :
    PyStr.split '/' (stripVersion U key) <+: PyStr.split '/' key ∨ stripVersion U key = "" := by
  rcases stripVersion_cases (U := U) key with hsame | ⟨front, last, hsplit, -, hstrip⟩
  · left
    rw [hsame]
  · rw [hstrip]
    refine split_join_prefix ?_
    rw [hsplit]
    exact prefix_append front _

/-- The base of a key has the first segments of the key, or is empty. -/
theorem baseKey_prefix :
    PyStr.split '/' (baseKey U key) <+: PyStr.split '/' key ∨ baseKey U key = "" := by
  have hstrip : PyStr.split '/' (baseKey U key) <+: PyStr.split '/' (stripVersion U key) ∨
      baseKey U key = "" := by
    rw [baseKey]
    split
    · exact split_join_prefix ( dropLast_prefix _)
    · exact split_join_prefix (prefix_refl _)
  rcases hstrip with hbase | hempty
  · rcases stripVersion_prefix (U := U) key with hkey | hempty
    · exact Or.inl (hbase.trans hkey)
    · refine Or.inr ?_
      rw [baseKey, hempty]
      decide
  · exact Or.inr hempty

/-! ## Own output -/

/-- A list that ends in `x` and begins `a ++ b` begins `a`, when `x` is not in `b`. -/
theorem prefix_of_prefix_append {α : Type*} {front a b : List α} {x : α} (hx : x ∉ b)
    (h : front ++ [x] <+: a ++ b) : front ++ [x] <+: a := by
  rcases prefix_or_prefix_of_prefix h (prefix_append a b) with hfront | hrest
  · exact hfront
  · obtain ⟨rest, hrest⟩ := hrest
    rcases eq_nil_or_concat rest with rfl | ⟨rest', y, rfl⟩
    · rw [append_nil] at hrest
      rw [hrest]
    · rw [← hrest, prefix_append_right_inj, concat_eq_append] at h
      rw [concat_eq_append, ← append_assoc] at hrest
      have hy : y = x := singleton_inj.mp (append_inj' hrest rfl).2
      rw [hy] at h
      exact absurd (h.subset mem_concat_self) hx

theorem split_ownCollection (root : String) :
    PyStr.split '/' (ownCollection root) = PyStr.split '/' root ++ ["air"] ++ ["trackfusion"] := by
  have hparts : ownCollection root = root ++ "/" ++ "air" ++ "/" ++ "trackfusion" := by
    simp only [ownCollection, String.append_assoc]
    rfl
  rw [hparts, split_slash, split_slash]
  rfl

/-- Outside of the own output no view key starts with the own prefix. -/
theorem not_startsWith_own {root key : String} (h : ¬ OwnOutput root key) (view : View) :
    PyStr.startsWith (viewKey U key view) (ownStart root) = false := by
  rw [← not_eq_true]
  intro hstarts
  obtain ⟨rest, hrest⟩ := PyStr.startsWith_iff.mp hstarts
  have hsplit := congrArg (PyStr.split '/') hrest
  rw [split_viewKey, ownStart, split_slash, split_ownCollection] at hsplit
  have htail : "trackfusion" ∉ viewTail view := by cases view <;> decide
  have hbase : PyStr.split '/' root ++ ["air"] ++ ["trackfusion"] <+:
      PyStr.split '/' (baseKey U key) := by
    refine prefix_of_prefix_append htail ?_
    rw [hsplit]
    exact prefix_append _ _
  rcases baseKey_prefix (U := U) key with hkey | hempty
  · apply h
    rw [OwnOutput, split_ownCollection]
    exact hbase.trans hkey
  · have hlength := hbase.length_le
    have hone : PyStr.split '/' "" = [""] := by decide
    rw [hempty, hone, length_append, length_append] at hlength
    simp only [length_cons, length_nil] at hlength
    omega

/-! ## The filters on view keys -/

theorem endsWith_tracks (view : View) :
    PyStr.endsWith (viewKey U key view) "/tracks/v1" = true := by
  have htail : "/tracks/v1".toList = ("/" ++ versionTail).toList := by decide
  rw [PyStr.endsWith, isSuffixOf_iff_suffix, htail, viewKey, String.append_assoc,
    String.toList_append (s := stem (baseKey U key) view)]
  exact suffix_append _ _

/-- No view key gets past the filter of `on_adsb`. -/
theorem adsb_viewKey (view : View) : onAdsbTopic (viewKey U key view) = false := by
  rw [onAdsbTopic, ← not_eq_true]
  intro hjson
  have htracks := endsWith_tracks (U := U) key view
  rw [PyStr.endsWith, isSuffixOf_iff_suffix] at hjson htracks
  have hends : "/json".toList <:+ "/tracks/v1".toList :=
    suffix_of_suffix_length_le hjson htracks (by decide)
  exact absurd hends (by decide)

theorem skipsView_json :
    skipsView U (viewKey U key .json) = otherViews.contains (lastSegment (baseKey U key)) := by
  rw [skipsView, stripVersion_viewKey, stem, if_pos rfl]

theorem skipsView_of_ne {view : View} (h : view ≠ .json) (key : String) :
    skipsView U (viewKey U key view) = true := by
  rw [skipsView, stripVersion_viewKey, lastSegment_stem h]
  cases view with
  | json => exact absurd rfl h
  | sapient => rfl
  | proto => rfl
  | raw => rfl

/-- Outside of the own output the other handlers skip a view key by its view alone. -/
theorem passes_viewKey {root key : String} (h : ¬ OwnOutput root key) {handler : Handler}
    (hadsb : handler ≠ .adsb) (view : View) :
    handler.passes U root (viewKey U key view) = !skipsView U (viewKey U key view) := by
  cases handler with
  | radar =>
    simp only [Handler.passes, onRadarTopic, endsWith_tracks, not_startsWith_own h, Bool.not_false,
      Bool.and_true, Bool.true_and]
  | adsb => exact absurd rfl hadsb
  | neptun => simp only [Handler.passes, onNeptunTopic, endsWith_tracks, Bool.true_and]
  | anyTrack =>
    simp only [Handler.passes, onAnyTrackTopic, endsWith_tracks, not_startsWith_own h, Bool.not_false,
      Bool.and_true, Bool.true_and]

theorem not_consumesJson_adsb (root key : String) : ¬ ConsumesJson U root .adsb key := by
  intro h
  have hpasses : onAdsbTopic (viewKey U key .json) = true := (h .json).mpr rfl
  rw [adsb_viewKey] at hpasses
  cases hpasses

/-- Another handler takes exactly the JSON view unless the key ends in the name of a view that
it skips. -/
theorem consumesJson_iff_of_ne {root key : String} (h : ¬ OwnOutput root key) {handler : Handler}
    (hadsb : handler ≠ .adsb) :
    ConsumesJson U root handler key ↔ lastSegment (baseKey U key) ∉ otherViews := by
  have hjson : skipsView U (viewKey U key .json) = true ↔
      lastSegment (baseKey U key) ∈ otherViews := by
    rw [skipsView_json, contains_eq_mem, decide_eq_true_iff]
  constructor
  · intro hconsumes hview
    have hpasses := (hconsumes .json).mpr rfl
    rw [passes_viewKey h hadsb, hjson.mpr hview] at hpasses
    cases hpasses
  · intro hview view
    rw [passes_viewKey h hadsb, not_eq_true', ← not_eq_true]
    constructor
    · intro hskips
      by_contra hne
      exact hskips (skipsView_of_ne hne key)
    · rintro rfl
      exact fun hskips => hview (hjson.mp hskips)

/-- The four handlers agree on the JSON view of no key.  `on_adsb` takes no view at all, and
each of the others takes exactly the JSON view unless the key ends in the name of a view that it
skips. -/
theorem consumesJson_handlers (root key : String) (h : ¬ OwnOutput root key) :
    (¬ ∀ handler : Handler, ConsumesJson U root handler key) ∧
      (∀ view, onAdsbTopic (viewKey U key view) = false) ∧
      ∀ handler : Handler, handler ≠ .adsb →
        (ConsumesJson U root handler key ↔ lastSegment (baseKey U key) ∉ otherViews) :=
  ⟨fun hall => not_consumesJson_adsb root key (hall .adsb), adsb_viewKey key,
    fun _ hadsb => consumesJson_iff_of_ne h hadsb⟩

/-- The object key of an aircraft of an ADS-B feed. -/
def adsbKey : String := "efdi/air/feed/adsb/unknown/aircraft/a320/ly-abc"

/-- The statement about the handlers, for the key of an aircraft. -/
theorem consumesJson_handlers_adsbKey :
    (¬ ∀ handler : Handler, ConsumesJson asciiText.toUnicode "efdi" handler adsbKey) ∧
      (∀ view, onAdsbTopic (viewKey asciiText.toUnicode adsbKey view) = false) ∧
      ∀ handler : Handler, handler ≠ .adsb →
        (ConsumesJson asciiText.toUnicode "efdi" handler adsbKey ↔
          lastSegment (baseKey asciiText.toUnicode adsbKey) ∉ otherViews) :=
  consumesJson_handlers "efdi" adsbKey (by decide +kernel)

/-- The JSON view of the aircraft does not reach `on_adsb`. -/
theorem not_consumesJson_adsbKey :
    ¬ OwnOutput "efdi" adsbKey ∧
      onAdsbTopic (viewKey asciiText.toUnicode adsbKey .json) = false ∧
      ¬ ∀ handler : Handler, ConsumesJson asciiText.toUnicode "efdi" handler adsbKey := by
  have hadsb : onAdsbTopic (viewKey asciiText.toUnicode adsbKey .json) = false := by decide +kernel
  refine ⟨by decide +kernel, hadsb, fun hall => ?_⟩
  have hpasses : onAdsbTopic (viewKey asciiText.toUnicode adsbKey .json) = true :=
    (hall .adsb .json).mpr rfl
  rw [hadsb] at hpasses
  cases hpasses

end Efdi.Tracks
