import Efdi.Sapient.Frames

/-!
# Raw SAPIENT sources

`run_zenoh_raw` subscribes to a wildcard and keeps one buffer for all that publish under it.
`on_sample` puts every sample at the end of that buffer, whoever sent it, and cuts frames off the
front.

As long as a sample comes only while the other sources have sent whole frames, the buffer holds
the part of a frame of one source (`Follows`), and the frames are handed over as `iter_frames`
reads them from each source alone.
-/

namespace Efdi.Sapient

open List

variable {Source : Type*}

/-- The loop of `on_sample`: the frames it hands to `_publish`, after those it handed over before,
and what it leaves in the buffer.  A frame that `_publish` raises on ends the loop. -/
def drainRaw (publishes : List Frame → Frame → Bool) (handed : List Frame) (buffer : Bytes) :
    List Frame × Bytes :=
  if buffer.length < 4 then ([], buffer)
  else if ¬GoodLength (frameLength buffer) then drainRaw publishes handed (buffer.drop 1)
  else if buffer.length < frameLength buffer + 4 then ([], buffer)
  else
    let frame := (buffer.drop 4).take (frameLength buffer)
    let rest := buffer.drop (frameLength buffer + 4)
    if publishes handed frame then
      let later := drainRaw publishes (handed ++ [frame]) rest
      (frame :: later.1, later.2)
    else ([frame], rest)
termination_by buffer.length
decreasing_by
  all_goals
    rw [List.length_drop]
    omega

/-- The translator: its buffer, and the frames it has handed over, each under the source of the
sample it was cut off in. -/
structure RawTranslator (Source : Type*) where
  buffer : Bytes
  handed : List (Source × Frame)

/-- `on_sample`. -/
def RawTranslator.onSample (publishes : List Frame → Frame → Bool)
    (translator : RawTranslator Source) (sample : Source × Bytes) : RawTranslator Source :=
  let drained := drainRaw publishes (translator.handed.map Prod.snd)
    (translator.buffer ++ sample.2)
  { buffer := drained.2
    handed := translator.handed ++ drained.1.map (Prod.mk sample.1) }

/-- `run_zenoh_raw` from its start. -/
def runZenohRaw (publishes : List Frame → Frame → Bool) (samples : List (Source × Bytes)) :
    RawTranslator Source :=
  samples.foldl (RawTranslator.onSample publishes) ⟨[], []⟩

section Sources

variable [DecidableEq Source]

/-- The bytes that a source has sent. -/
def sentBy (source : Source) (samples : List (Source × Bytes)) : Bytes :=
  (samples.filter fun sample => sample.1 = source).flatMap Prod.snd

/-- The frames that were handed over in the samples of a source. -/
def RawTranslator.handedFrom (source : Source) (translator : RawTranslator Source) : List Frame :=
  (translator.handed.filter fun entry => entry.1 = source).map Prod.snd

/-- A sample with bytes in it comes only while every other source has sent whole frames. -/
def WholeFrames (frames : Source → List Frame) (samples : List (Source × Bytes)) : Prop :=
  ∀ before sample after, samples = before ++ sample :: after → sample.2 ≠ [] →
    ∀ source ≠ sample.1, ∃ whole, whole <+: frames source ∧
      sentBy source before = whole.flatMap encode

/-! ### The loop on encoded frames -/

section Drain

variable {publishes : List Frame → Frame → Bool} {frames : List Frame}

/-- On a buffer that begins encoded frames the loop does what `iter_frames` does. -/
theorem drainRaw_sent (hgood : ∀ frame ∈ frames, GoodLength frame.length)
    (hdecodes : ∀ handed, ∀ frame ∈ frames, publishes handed frame = true) :
    ∀ {handed : List Frame} {buffer : Bytes}, buffer <+: frames.flatMap encode →
      drainRaw publishes handed buffer = iterFrames buffer := by
  induction frames with
  | nil =>
    intro handed buffer hsent
    rw [prefix_nil.mp hsent, iterFrames_nil, drainRaw, if_pos (by decide)]
  | cons frame frames ih =>
    intro handed buffer hsent
    rw [flatMap_cons] at hsent
    have hframe : GoodLength frame.length := hgood frame mem_cons_self
    rw [drainRaw, iterFrames]
    rcases Nat.lt_or_ge buffer.length 4 with hshort | hlong
    · rw [if_pos hshort, if_pos hshort]
    · have hlength : frameLength buffer = frame.length :=
        frameLength_sent hframe hsent hlong
      rw [if_neg (Nat.not_lt.mpr hlong), if_neg (Nat.not_lt.mpr hlong), hlength,
        if_neg (not_not_intro hframe), if_neg (not_not_intro hframe)]
      rcases prefix_encode_cases hsent with hpart | ⟨later, rfl, hlater⟩
      · rw [if_pos hpart, if_pos hpart]
      · have hwhole : ¬(encode frame ++ later).length < frame.length + 4 := by
          rw [length_append, length_encode]
          omega
        have hbody : ((encode frame ++ later).drop 4).take frame.length = frame := by
          rw [encode, append_assoc, drop_left' (by simp), take_left' rfl]
        rw [if_neg hwhole, if_neg hwhole, hbody, drop_left' (length_encode frame)]
        dsimp only
        rw [if_pos (hdecodes handed frame mem_cons_self),
          ih (fun f hf => hgood f (mem_cons_of_mem frame hf))
            (fun handed f hf => hdecodes handed f (mem_cons_of_mem frame hf)) hlater]

end Drain

/-! ### One sample -/

section Sample

variable (source : Source) (samples : List (Source × Bytes)) (sample : Source × Bytes)

theorem sentBy_concat_self (data : Bytes) :
    sentBy source (samples ++ [(source, data)]) = sentBy source samples ++ data := by
  rw [sentBy, filter_append, flatMap_append]
  simp [sentBy]

theorem sentBy_concat_other {source : Source} {sample : Source × Bytes}
    (hother : source ≠ sample.1) : sentBy source (samples ++ [sample]) = sentBy source samples := by
  rw [sentBy, filter_append, flatMap_append]
  simp [sentBy, hother.symm]

theorem handedFrom_append_self (translator : RawTranslator Source) (cut : List Frame)
    (buffer : Bytes) :
    RawTranslator.handedFrom source
        ⟨buffer, translator.handed ++ cut.map (Prod.mk source)⟩ =
      translator.handedFrom source ++ cut := by
  rw [RawTranslator.handedFrom, filter_append, map_append]
  simp [RawTranslator.handedFrom, filter_map, Function.comp_def]

theorem handedFrom_append_other {source other : Source} (hother : source ≠ other)
    (translator : RawTranslator Source) (cut : List Frame) (buffer : Bytes) :
    RawTranslator.handedFrom source
        ⟨buffer, translator.handed ++ cut.map (Prod.mk other)⟩ =
      translator.handedFrom source := by
  rw [RawTranslator.handedFrom, filter_append, map_append]
  simp [RawTranslator.handedFrom, filter_map, Function.comp_def, hother.symm]

end Sample

/-! ### Runs -/

section Runs

variable {publishes : List Frame → Frame → Bool} {frames : Source → List Frame}
  {samples : List (Source × Bytes)}

/-- What the translator holds follows the sources: the frames of each, and the part of a frame of
the one source that is inside a frame. -/
structure Follows (samples : List (Source × Bytes)) (translator : RawTranslator Source) :
    Prop where
  handed : ∀ source, translator.handedFrom source = (iterFrames (sentBy source samples)).1
  holds : ∀ source, (iterFrames (sentBy source samples)).2 ≠ [] →
    translator.buffer = (iterFrames (sentBy source samples)).2
  held : translator.buffer ≠ [] →
    ∃ source, (iterFrames (sentBy source samples)).2 = translator.buffer

theorem follows_start : Follows ([] : List (Source × Bytes)) ⟨[], []⟩ where
  handed source := by
    show [] = (iterFrames []).1
    rw [iterFrames_nil]
  holds source h := by
    refine absurd ?_ h
    show (iterFrames []).2 = []
    rw [iterFrames_nil]
  held h := absurd rfl h

variable {translator : RawTranslator Source}

/-- The buffer is what the sending source has left over, when the others have nothing left over. -/
theorem Follows.buffer_eq (h : Follows samples translator) {source : Source}
    (hothers : ∀ other ≠ source, (iterFrames (sentBy other samples)).2 = []) :
    translator.buffer = (iterFrames (sentBy source samples)).2 := by
  by_cases hleft : (iterFrames (sentBy source samples)).2 = []
  · rw [hleft]
    by_contra hbuffer
    obtain ⟨holder, hholder⟩ := h.held hbuffer
    rcases eq_or_ne holder source with rfl | hne
    · exact hbuffer (hholder.symm.trans hleft)
    · exact hbuffer (hholder.symm.trans (hothers holder hne))
  · exact h.holds source hleft

/-- What is left over holds no whole frame. -/
theorem iterFrames_left (stream : Bytes) :
    iterFrames (iterFrames stream).2 = ([], (iterFrames stream).2) := by
  have happend := iterFrames_append stream []
  rw [append_nil, append_nil] at happend
  have hframes := congrArg Prod.fst happend
  have hleft := congrArg Prod.snd happend
  rw [Prod.ext_iff]
  exact ⟨append_right_eq_self.mp hframes.symm, hleft.symm⟩

/-- A sample without bytes changes nothing. -/
theorem Follows.empty_sample (hgood : ∀ source, ∀ frame ∈ frames source, GoodLength frame.length)
    (hdecodes : ∀ handed source, ∀ frame ∈ frames source, publishes handed frame = true)
    (hsent : ∀ source, sentBy source samples <+: (frames source).flatMap encode)
    (h : Follows samples translator) (source : Source) :
    Follows (samples ++ [(source, [])]) (translator.onSample publishes (source, [])) := by
  have hdrain : drainRaw publishes (translator.handed.map Prod.snd) translator.buffer =
      ([], translator.buffer) := by
    by_cases hbuffer : translator.buffer = []
    · rw [hbuffer, drainRaw, if_pos (by decide)]
    · obtain ⟨holder, hholder⟩ := h.held hbuffer
      obtain ⟨later, hframes, -, hlater⟩ := iterFrames_sent (hgood holder) (hsent holder)
      have hmem : ∀ frame ∈ later, frame ∈ frames holder := by
        intro frame hframe
        rw [hframes]
        exact mem_append_right _ hframe
      rw [hholder] at hlater
      rw [drainRaw_sent (fun f hf => hgood holder f (hmem f hf))
        (fun handed f hf => hdecodes handed holder f (hmem f hf)) hlater, ← hholder,
        iterFrames_left]
  have hstep : translator.onSample publishes (source, []) = translator := by
    rw [RawTranslator.onSample, append_nil, hdrain]
    simp
  have hbytes : ∀ other, sentBy other (samples ++ [(source, [])]) = sentBy other samples := by
    intro other
    rcases eq_or_ne other source with rfl | hne
    · rw [sentBy_concat_self, append_nil]
    · exact sentBy_concat_other samples hne
  rw [hstep]
  refine ⟨fun other => ?_, fun other => ?_, fun hbuffer => ?_⟩
  · rw [hbytes, h.handed]
  · rw [hbytes]
    exact h.holds other
  · obtain ⟨holder, hholder⟩ := h.held hbuffer
    exact ⟨holder, by rw [hbytes, hholder]⟩

/-- A sample that comes while the others have nothing left over. -/
theorem Follows.next_sample (hgood : ∀ source, ∀ frame ∈ frames source, GoodLength frame.length)
    (hdecodes : ∀ handed source, ∀ frame ∈ frames source, publishes handed frame = true)
    {source : Source} {data : Bytes}
    (hsent : sentBy source samples ++ data <+: (frames source).flatMap encode)
    (hothers : ∀ other ≠ source, (iterFrames (sentBy other samples)).2 = [])
    (h : Follows samples translator) :
    Follows (samples ++ [(source, data)]) (translator.onSample publishes (source, data)) := by
  obtain ⟨later, hframes, hstream, -⟩ :=
    iterFrames_sent (hgood source) ((prefix_append _ data).trans hsent)
  have hrest : (iterFrames (sentBy source samples)).2 ++ data <+: later.flatMap encode := by
    rw [hstream, hframes, flatMap_append, append_assoc] at hsent
    exact (prefix_append_right_inj _).mp hsent
  have hmem : ∀ frame ∈ later, frame ∈ frames source := by
    intro frame hframe
    rw [hframes]
    exact mem_append_right _ hframe
  have hdrain : drainRaw publishes (translator.handed.map Prod.snd) (translator.buffer ++ data) =
      iterFrames ((iterFrames (sentBy source samples)).2 ++ data) := by
    rw [h.buffer_eq hothers]
    exact drainRaw_sent (fun f hf => hgood source f (hmem f hf))
      (fun handed f hf => hdecodes handed source f (hmem f hf)) hrest
  have hgoes := iterFrames_append (sentBy source samples) data
  rw [RawTranslator.onSample, hdrain]
  refine ⟨fun other => ?_, fun other hleft => ?_, fun _ => ⟨source, ?_⟩⟩
  · rcases eq_or_ne other source with rfl | hne
    · rw [handedFrom_append_self, h.handed, sentBy_concat_self, hgoes]
    · rw [handedFrom_append_other hne, h.handed, sentBy_concat_other samples hne]
  · rcases eq_or_ne other source with rfl | hne
    · rw [sentBy_concat_self, hgoes]
    · rw [sentBy_concat_other samples hne] at hleft
      exact absurd (hothers other hne) hleft
  · rw [sentBy_concat_self, hgoes]

theorem WholeFrames.of_concat {sample : Source × Bytes}
    (h : WholeFrames frames (samples ++ [sample])) : WholeFrames frames samples := by
  intro before next after hsplit
  exact h before next (after ++ [sample]) (by rw [hsplit, append_assoc]; rfl)

omit [DecidableEq Source] in
theorem runZenohRaw_concat (sample : Source × Bytes) :
    runZenohRaw publishes (samples ++ [sample]) =
      (runZenohRaw publishes samples).onSample publishes sample := by
  rw [runZenohRaw, foldl_append]
  rfl

theorem sentBy_grows (source : Source) (sample : Source × Bytes) :
    sentBy source samples <+: sentBy source (samples ++ [sample]) := by
  rw [sentBy, sentBy, filter_append, flatMap_append]
  exact prefix_append _ _

theorem follows_run (hgood : ∀ source, ∀ frame ∈ frames source, GoodLength frame.length)
    (hdecodes : ∀ handed source, ∀ frame ∈ frames source, publishes handed frame = true)
    (hsent : ∀ source, sentBy source samples <+: (frames source).flatMap encode)
    (hwhole : WholeFrames frames samples) : Follows samples (runZenohRaw publishes samples) := by
  induction samples using reverseRecOn with
  | nil => exact follows_start
  | append_singleton samples sample ih =>
    obtain ⟨source, data⟩ := sample
    have hbefore : Follows samples (runZenohRaw publishes samples) :=
      ih (fun s => (sentBy_grows s _).trans (hsent s)) hwhole.of_concat
    rw [runZenohRaw_concat]
    by_cases hdata : data = []
    · rw [hdata]
      exact hbefore.empty_sample hgood hdecodes (fun s => (sentBy_grows s _).trans (hsent s))
        source
    · have hnext := hsent source
      rw [sentBy_concat_self] at hnext
      refine hbefore.next_sample hgood hdecodes hnext ?_
      intro other hother
      obtain ⟨whole, hframes, hbytes⟩ :=
        hwhole samples (source, data) [] rfl hdata other hother
      have hpart : ∀ frame ∈ whole, GoodLength frame.length :=
        fun frame hframe => hgood other frame (hframes.subset hframe)
      rw [hbytes, iterFrames_flatMap hpart]

/-- While samples come only between the frames of the other sources, every source is handed over
as `iter_frames` reads it alone, and once its stream is complete all its frames are. -/
theorem sources_apart (hgood : ∀ source, ∀ frame ∈ frames source, GoodLength frame.length)
    (hdecodes : ∀ handed source, ∀ frame ∈ frames source, publishes handed frame = true)
    (hsent : ∀ source, sentBy source samples <+: (frames source).flatMap encode)
    (hwhole : WholeFrames frames samples) (source : Source) :
    (runZenohRaw publishes samples).handedFrom source =
        (iterFrames (sentBy source samples)).1 ∧
      (sentBy source samples = (frames source).flatMap encode →
        (runZenohRaw publishes samples).handedFrom source = frames source) := by
  have hhanded := (follows_run hgood hdecodes hsent hwhole).handed source
  refine ⟨hhanded, fun hall => ?_⟩
  rw [hhanded, hall, iterFrames_flatMap (hgood source)]

end Runs

/-! ### Two sources -/

/-- A registration and a task acknowledgement without fields, one from each of two sources. -/
def ownFrames : Bool → List Frame
  | false => [[0x22, 0x00]]
  | true => [[0x4A, 0x00]]

/-- `_publish` raises on what is none of the two frames. -/
def decodesOwn (_ : List Frame) (frame : Frame) : Bool :=
  frame = [0x22, 0x00] ∨ frame = [0x4A, 0x00]

theorem goodLength_ownFrames : ∀ source, ∀ frame ∈ ownFrames source, GoodLength frame.length := by
  decide

theorem decodesOwn_ownFrames :
    ∀ handed source, ∀ frame ∈ ownFrames source, decodesOwn handed frame = true := by
  intro handed source frame hframe
  cases source with
  | false => rw [mem_singleton.mp hframe]; rfl
  | true => rw [mem_singleton.mp hframe]; rfl

theorem sources_apart_in_turn :
    (runZenohRaw decodesOwn
        [(false, [2, 0, 0, 0]), (false, [0x22, 0]), (true, [2, 0, 0, 0, 0x4A, 0])]).handedFrom
      true = ownFrames true :=
  (sources_apart goodLength_ownFrames decodesOwn_ownFrames
    (by
      intro source
      cases source with
      | false => exact ⟨[], rfl⟩
      | true => exact ⟨[], rfl⟩)
    (by
      intro before sample after hsplit hdata source hsource
      match before, hsplit with
      | [], hsplit =>
        exact ⟨[], List.nil_prefix, rfl⟩
      | [first], hsplit =>
        obtain ⟨rfl, rfl, -⟩ := hsplit
        cases source with
        | false => exact absurd rfl hsource
        | true => exact ⟨[], List.nil_prefix, rfl⟩
      | [first, second], hsplit =>
        obtain ⟨rfl, rfl, rfl, -⟩ := hsplit
        cases source with
        | false => exact ⟨[[0x22, 0x00]], List.prefix_rfl, rfl⟩
        | true => exact absurd rfl hsource
      | _ :: _ :: _ :: _, hsplit => simp at hsplit) true).2 rfl

/-- The second source sends while the first is inside a frame: the length of the one frame takes
the length of the other for a frame. -/
theorem sources_mix :
    ¬∀ (publishes : List Frame → Frame → Bool) (frames : Bool → List Frame)
        (samples : List (Bool × Bytes)),
      (∀ source, ∀ frame ∈ frames source, GoodLength frame.length) →
      (∀ handed source, ∀ frame ∈ frames source, publishes handed frame = true) →
      (∀ source, sentBy source samples = (frames source).flatMap encode) →
      ∀ source, (runZenohRaw publishes samples).handedFrom source = frames source := by
  intro hall
  have hfirst : drainRaw decodesOwn [] [2, 0, 0, 0] = ([], [2, 0, 0, 0]) := by
    rw [drainRaw, if_neg (by decide), if_neg (by decide), if_pos (by decide)]
  have hsecond : drainRaw decodesOwn [] [2, 0, 0, 0, 2, 0, 0, 0, 0x4A, 0] =
      ([[2, 0]], [0, 0, 0x4A, 0]) := by
    rw [drainRaw, if_neg (by decide), if_neg (by decide), if_neg (by decide)]
    rfl
  have hrun : runZenohRaw decodesOwn [(false, [2, 0, 0, 0]), (true, [2, 0, 0, 0, 0x4A, 0])] =
      ⟨[0, 0, 0x4A, 0], [(true, [2, 0])]⟩ := by
    show RawTranslator.onSample decodesOwn
      (RawTranslator.onSample decodesOwn ⟨[], []⟩ (false, [2, 0, 0, 0]))
      (true, [2, 0, 0, 0, 0x4A, 0]) = _
    have hstart : RawTranslator.onSample decodesOwn ⟨[], []⟩ (false, [2, 0, 0, 0]) =
        ⟨[2, 0, 0, 0], []⟩ := by
      rw [RawTranslator.onSample]
      show (⟨(drainRaw decodesOwn [] [2, 0, 0, 0]).2, _⟩ : RawTranslator Bool) = _
      simp [hfirst]
    rw [hstart, RawTranslator.onSample]
    show (⟨(drainRaw decodesOwn [] [2, 0, 0, 0, 2, 0, 0, 0, 0x4A, 0]).2,
      [] ++ (drainRaw decodesOwn [] [2, 0, 0, 0, 2, 0, 0, 0, 0x4A, 0]).1.map _⟩ :
        RawTranslator Bool) = _
    rw [hsecond]
    rfl
  have hmixed := hall decodesOwn ownFrames
    [(false, [2, 0, 0, 0]), (true, [2, 0, 0, 0, 0x4A, 0]), (false, [0x22, 0])]
    goodLength_ownFrames decodesOwn_ownFrames
    (by
      intro source
      cases source with
      | false => rfl
      | true => rfl) true
  rw [show [(false, [2, 0, 0, 0]), (true, [2, 0, 0, 0, 0x4A, 0]), (false, [0x22, 0])] =
      [(false, [2, 0, 0, 0]), (true, ([2, 0, 0, 0, 0x4A, 0] : Bytes))] ++ [(false, [0x22, 0])]
      from rfl, runZenohRaw_concat, hrun, RawTranslator.onSample,
    handedFrom_append_other (by decide)] at hmixed
  exact absurd hmixed (by decide)

end Sources

end Efdi.Sapient
