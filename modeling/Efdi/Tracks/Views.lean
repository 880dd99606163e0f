import Efdi.Base.PyStr

/-!
# Views of a track

`strip_version` and `view_key` of `track_views.py`.  A view key is a stem followed by the
version tail: the base of the topic for the JSON view, and the base with the name of the view
for the others.  The base is what is left of the topic without a version tail and without one
format segment at its end.

A topic is `Plain` when nothing of it is taken away.  The keys of plain topics tell the topic
and the view (`viewKey_inj`), and a topic that is not plain is lost (`baseKey_eq_self_iff`).
-/

namespace Efdi.Tracks

open List PyStr

/-- The tables of the Unicode database that the text methods read.  On ASCII they are the
classes of the characters. -/
structure Unicode where
  /-- `c.isalnum()`. -/
  isAlnum : Char → Bool
  /-- `c.isdigit()`. -/
  isDigit : Char → Bool
  /-- `s.lower()`. -/
  lower : String → String
  isAlnum_ascii : ∀ c, c.toNat < 128 → isAlnum c = c.isAlphanum
  isDigit_ascii : ∀ c, c.toNat < 128 → isDigit c = c.isDigit
  lower_ascii : ∀ s : String, (∀ c ∈ s.toList, c.toNat < 128) → lower s = PyStr.lower s

variable (U : Unicode)

/-- The members of `_FORMATS`. -/
inductive View where
  | json
  | sapient
  | proto
  | raw
deriving DecidableEq, Repr

def View.value : View → String
  | .json => "json"
  | .sapient => "sapient"
  | .proto => "proto"
  | .raw => "raw"

/-- `_FORMATS`. -/
def formats : List String := [View.json, .sapient, .proto, .raw].map View.value

/-- `_VERSION_TAIL`. -/
def versionTail : String := "tracks/v1"

/-- `part[:1] == "v" and part[1:].isdigit()`. -/
def versionMark (part : String) : Bool :=
  PyStr.take 1 part == "v" && !(PyStr.drop 1 part).isEmpty &&
    (PyStr.drop 1 part).toList.all U.isDigit

/-- Drop a trailing version tail. -/
def stripVersion (topic : String) : String :=
  match (PyStr.split '/' topic).reverse with
  | last :: previous :: front =>
    if previous == "tracks" && versionMark U last then PyStr.join "/" front.reverse else topic
  | _ => topic

/-- `topic.rsplit("/", 1)[-1]`. -/
def lastSegment (topic : String) : String := (PyStr.split '/' topic).getLastD ""

/-- The topic without a version tail and without a format segment at its end. -/
def baseKey (topic : String) : String :=
  let parts := PyStr.split '/' (stripVersion U topic)
  PyStr.join "/" (if formats.contains (parts.getLastD "") then parts.dropLast else parts)

/-- The part of a view key before the version tail. -/
def stem (base : String) (view : View) : String :=
  if view = .json then base else base ++ "/" ++ view.value

/-- Versioned key for a view of an object. -/
def viewKey (topic : String) (view : View) : String :=
  stem (baseKey U topic) view ++ "/" ++ versionTail

/-! ## Segments -/

theorem split_slash (s t : String) :
    PyStr.split '/' (s ++ "/" ++ t) = PyStr.split '/' s ++ PyStr.split '/' t := by
  rw [String.append_assoc]
  exact split_append '/' s t

theorem join_split (s : String) : PyStr.join "/" (PyStr.split '/' s) = s := PyStr.join_split '/' s

/-- The last segment of a text that ends in one. -/
theorem lastSegment_append (s : String) {t : String} (h : '/' ∉ t.toList) :
    lastSegment (s ++ "/" ++ t) = t := by
  rw [lastSegment, split_slash, split_of_notMem h, getLastD_concat]

theorem versionMark_one : versionMark U "v1" = true := by
  have hdigit : U.isDigit '1' = true := U.isDigit_ascii '1' (by decide)
  have hdrop : PyStr.drop 1 "v1" = "1" := by decide
  rw [versionMark, hdrop]
  simp [hdigit, PyStr.take]

/-- The version tail of a text is stripped. -/
theorem stripVersion_tail (s : String) : stripVersion U (s ++ "/" ++ versionTail) = s := by
  have hsplit : PyStr.split '/' versionTail = ["tracks", "v1"] := by decide
  rw [stripVersion, split_slash, hsplit, reverse_append]
  simp [versionMark_one, join_split]

/-- The version tail is part of the key of every view. -/
theorem stripVersion_viewKey (topic : String) (view : View) :
    stripVersion U (viewKey U topic view) = stem (baseKey U topic) view :=
  stripVersion_tail U _

/-! ## Plain topics -/

/-- A topic without a version tail and without a format segment at its end. -/
structure Plain (topic : String) : Prop where
  version : stripVersion U topic = topic
  format : lastSegment topic ∉ formats

variable {U}

/-- What is stripped is a version tail. -/
theorem stripVersion_cases (topic : String) :
    stripVersion U topic = topic ∨
      ∃ front last, PyStr.split '/' topic = front ++ ["tracks", last] ∧
        versionMark U last = true ∧ stripVersion U topic = PyStr.join "/" front := by
  rw [stripVersion]
  split
  next last previous front hparts =>
    split
    next htail =>
      rw [Bool.and_eq_true, beq_iff_eq] at htail
      refine Or.inr ⟨front.reverse, last, ?_, htail.2, rfl⟩
      rw [← reverse_reverse (PyStr.split '/' topic), hparts, htail.1]
      simp
    next => exact Or.inl rfl
  next => exact Or.inl rfl

/-- A joined list has as many segments as parts, and at least one. -/
theorem length_split_join {parts : List String} (h : ∀ part ∈ parts, '/' ∉ part.toList) :
    (PyStr.split '/' (PyStr.join "/" parts)).length ≤ max 1 parts.length := by
  cases parts with
  | nil => exact Nat.le_max_left _ _
  | cons part parts =>
    have hsplit : PyStr.split '/' (PyStr.join "/" (part :: parts)) = part :: parts :=
      split_join (cons_ne_nil _ _) h
    rw [hsplit]
    exact Nat.le_max_right _ _

variable {topic base : String} {view view' : View}

theorem notMem_of_split {parts : List String} (h : parts ⊆ PyStr.split '/' topic) :
    ∀ part ∈ parts, '/' ∉ part.toList :=
  fun _ hpart => notMem_of_mem_split (h hpart)

/-- Nothing but a whole topic has a base with all its segments. -/
theorem baseKey_length (topic : String) :
    (PyStr.split '/' (baseKey U topic)).length ≤ (PyStr.split '/' (stripVersion U topic)).length := by
  have hpos : 1 ≤ (PyStr.split '/' (stripVersion U topic)).length :=
    length_pos_iff.mpr (split_ne_nil _ _)
  rw [baseKey]
  split
  · refine (length_split_join (notMem_of_split (dropLast_subset _))).trans ?_
    rw [length_dropLast]
    omega
  · refine (length_split_join (notMem_of_split (List.Subset.refl _))).trans ?_
    omega

/-- What is left without a version tail is the base, when it does not end in a format. -/
theorem baseKey_of_strip (hstrip : stripVersion U topic = base)
    (hformat : lastSegment base ∉ formats) : baseKey U topic = base := by
  have hcontains : ¬ formats.contains ((PyStr.split '/' base).getLastD "") = true := by
    rw [contains_eq_mem]
    simpa [lastSegment] using hformat
  rw [baseKey, hstrip, if_neg hcontains]
  exact join_split base

theorem Plain.baseKey (h : Plain U topic) : baseKey U topic = topic :=
  baseKey_of_strip h.version h.format

/-- A topic is its own base exactly when it is plain. -/
theorem baseKey_eq_self_iff : baseKey U topic = topic ↔ Plain U topic := by
  constructor
  · intro h
    have hversion : stripVersion U topic = topic := by
      rcases stripVersion_cases topic with hsame | ⟨front, last, hsplit, -, hstrip⟩
      · exact hsame
      · have hlength : (PyStr.split '/' (baseKey U topic)).length ≤
            (PyStr.split '/' (stripVersion U topic)).length := baseKey_length topic
        have hfront := length_split_join
          (notMem_of_split (hsplit ▸ subset_append_left front ["tracks", last]))
        rw [h, hstrip, hsplit, length_append] at hlength
        simp only [length_cons, length_nil] at hlength
        omega
    refine ⟨hversion, fun hformat => ?_⟩
    have hcontains : formats.contains ((PyStr.split '/' topic).getLastD "") = true := by
      rw [contains_eq_mem]
      exact decide_eq_true hformat
    rw [Tracks.baseKey, hversion, if_pos hcontains] at h
    have hlength := length_split_join
      (notMem_of_split (dropLast_subset (PyStr.split '/' topic)))
    rw [h, length_dropLast] at hlength
    -- one segment is left, and it is a format
    have hone : (PyStr.split '/' topic).length = 1 := by
      have hpos : 1 ≤ (PyStr.split '/' topic).length :=
        length_pos_iff.mpr (split_ne_nil _ _)
      omega
    obtain ⟨part, hpart⟩ := length_eq_one_iff.mp hone
    rw [hpart] at h
    have hempty : topic = "" := h.symm
    rw [hempty] at hformat
    exact absurd hformat (by decide)
  · exact Plain.baseKey

/-! ## Keys of plain topics -/

theorem Plain.viewKey (h : Plain U topic) (view : View) :
    viewKey U topic view = stem topic view ++ "/" ++ versionTail := by
  rw [Tracks.viewKey, h.baseKey]

theorem slash_notMem_value (view : View) : '/' ∉ view.value.toList := by
  cases view <;> decide

theorem value_mem_formats (view : View) : view.value ∈ formats := by
  cases view <;> decide

theorem View.value_inj (h : view.value = view'.value) : view = view' := by
  revert h
  cases view <;> cases view' <;> decide

theorem append_left_inj {s s' t : String} (h : s ++ t = s' ++ t) : s = s' := by
  have hlist := congrArg String.toList h
  rw [String.toList_append, String.toList_append] at hlist
  exact String.toList_inj.mp (append_cancel_right hlist)

/-- The last segment of a stem that is not that of the JSON view is the name of the view. -/
theorem lastSegment_stem (h : view ≠ .json) :
    lastSegment (stem base view) = view.value := by
  rw [stem, if_neg h]
  exact lastSegment_append _ (slash_notMem_value view)

/-- A stem over a base that does not end in a format tells the base and the view. -/
theorem stem_inj {base' : String} (hbase : lastSegment base ∉ formats)
    (hbase' : lastSegment base' ∉ formats) (h : stem base view = stem base' view') :
    base = base' ∧ view = view' := by
  by_cases hjson : view = .json
  · by_cases hjson' : view' = .json
    · rw [stem, stem, if_pos hjson, if_pos hjson'] at h
      exact ⟨h, hjson.trans hjson'.symm⟩
    · have hlast : lastSegment (stem base' view') = view'.value := lastSegment_stem hjson'
      rw [← h, stem, if_pos hjson] at hlast
      exact absurd (hlast ▸ value_mem_formats view') hbase
  · have hlast : lastSegment (stem base view) = view.value := lastSegment_stem hjson
    by_cases hjson' : view' = .json
    · rw [h, stem, if_pos hjson'] at hlast
      exact absurd (hlast ▸ value_mem_formats view) hbase'
    · have hview : view = view' := by
        rw [h, lastSegment_stem hjson'] at hlast
        exact (View.value_inj hlast).symm
      subst hview
      rw [stem, stem, if_neg hjson, if_neg hjson] at h
      exact ⟨append_left_inj (append_left_inj h), rfl⟩

/-- The keys of plain topics tell the topic and the view. -/
theorem viewKey_inj {topic' : String} (h : Plain U topic) (h' : Plain U topic')
    (heq : viewKey U topic view = viewKey U topic' view') :
    topic = topic' ∧ view = view' := by
  rw [h.viewKey, h'.viewKey] at heq
  exact stem_inj h.format h'.format (append_left_inj (append_left_inj heq))

/-- The view keys of one topic are different, whatever the topic is. -/
theorem viewKey_ne (topic : String) (h : view ≠ view') :
    viewKey U topic view ≠ viewKey U topic view' := by
  intro heq
  have hstem : stem (baseKey U topic) view = stem (baseKey U topic) view' :=
    append_left_inj (append_left_inj heq)
  have hvalue : ∀ v : View, v ≠ .json → stem (baseKey U topic) v ≠ baseKey U topic := by
    intro v hv hself
    rw [stem, if_neg hv, String.append_assoc] at hself
    have hlength := congrArg (fun s : String => s.toList.length) hself
    simp [String.toList_append] at hlength
  by_cases hjson : view = .json
  · refine hvalue view' (fun hv => h (hjson.trans hv.symm)) ?_
    rw [← hstem, stem, if_pos hjson]
  · by_cases hjson' : view' = .json
    · refine hvalue view hjson ?_
      rw [hstem, stem, if_pos hjson']
    · have hlast : lastSegment (stem (baseKey U topic) view) = view.value :=
        lastSegment_stem hjson
      rw [hstem, lastSegment_stem hjson'] at hlast
      exact h (View.value_inj hlast).symm

/-- A view key of a plain topic is its own view key. -/
theorem Plain.viewKey_viewKey (h : Plain U topic) (view : View) :
    Tracks.viewKey U (Tracks.viewKey U topic view) view = Tracks.viewKey U topic view := by
  have hbase : Tracks.baseKey U (Tracks.viewKey U topic view) = topic := by
    have hstrip : stripVersion U (Tracks.viewKey U topic view) = stem topic view := by
      rw [stripVersion_viewKey, h.baseKey]
    by_cases hjson : view = .json
    · rw [stem, if_pos hjson] at hstrip
      exact baseKey_of_strip hstrip h.format
    · rw [Tracks.baseKey, hstrip]
      have hsplit : PyStr.split '/' (stem topic view) =
          PyStr.split '/' topic ++ [view.value] := by
        rw [stem, if_neg hjson, split_slash, split_of_notMem (slash_notMem_value view)]
      have hcontains : formats.contains view.value = true := by cases view <;> decide
      rw [hsplit, getLastD_concat, if_pos hcontains, dropLast_concat]
      exact join_split topic
  rw [Tracks.viewKey, hbase, Tracks.viewKey, h.baseKey]

end Efdi.Tracks
