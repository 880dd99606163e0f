import Efdi.Sapient.Decoder
import Efdi.Sapient.RawSources

/-!
# Frames that make the decoder raise

`_consume` lets what `decode` raises end its connection, so no later frame of the connection is
handed over.  `on_sample` lets it end the sample, so the whole frames behind it stay in the buffer
until the next sample comes.

What a transport hands over decides everything: the events, and the decoder.  The frames that come
at once, over a connection or in one sample, suffer no harm exactly when the first that raises
leaves the decoder as it was and all behind it raise as well (`unharmed_iff`).  A raw stream suffers
no harm at any time exactly when this is so in each sample (`raw_unharmed_iff`).
-/

namespace Efdi.Sapient

open Checks List

variable (py : Python)

/-! ## Frames in turn -/

/-- The decoder after frames. -/
def after (decoder : Decoder) (frames : List Frame) : Decoder :=
  frames.foldl (fun decoder frame => (decode py decoder frame).1) decoder

/-- The events that frames yield, each with its frame. -/
def events (decoder : Decoder) : List Frame → List (Frame × SapientEvent)
  | [] => []
  | frame :: frames =>
    let later := events (decode py decoder frame).1 frames
    match (decode py decoder frame).2 with
    | .ok event => (frame, event) :: later
    | .error _ => later

/-- The frames on which `decode` does not raise. -/
def others (decoder : Decoder) (frames : List Frame) : List Frame :=
  (events py decoder frames).map Prod.fst

/-- All frames make `decode` raise. -/
def AllRaise (decoder : Decoder) : List Frame → Prop
  | [] => True
  | frame :: frames =>
    ¬Sound py decoder frame ∧ AllRaise (decode py decoder frame).1 frames

/-! ## The transports -/

/-- Frames up to the first that makes `decode` raise. -/
def untilRaise (decoder : Decoder) : List Frame → List Frame
  | [] => []
  | frame :: frames =>
    frame :: if (decode py decoder frame).2.isOk then
      untilRaise (decode py decoder frame).1 frames else []

/-- `_consume`: the frames that it hands over of what a connection brings. -/
def consume (decoder : Decoder) (stream : Bytes) : List Frame :=
  untilRaise py decoder (iterFrames stream).1

/-- `_publish` gets an event after the frames that were handed over before. -/
def publishes (decoder : Decoder) (handed : List Frame) (frame : Frame) : Bool :=
  (decode py (after py decoder handed) frame).2.isOk

/-- The translator after samples of one source. -/
def translator (decoder : Decoder) (samples : List Bytes) : RawTranslator Unit :=
  runZenohRaw (publishes py decoder) (samples.map (Prod.mk ()))

/-- The frames that `on_sample` has handed over. -/
def rawHanded (decoder : Decoder) (samples : List Bytes) : List Frame :=
  (translator py decoder samples).handed.map Prod.snd

/-- The whole frames that `on_sample` finds in its buffer when a sample comes. -/
def pending (decoder : Decoder) (samples : List Bytes) (sample : Bytes) : List Frame :=
  (iterFrames ((translator py decoder samples).buffer ++ sample)).1

/-! ## Harm -/

/-- Of frames that were sent, every one that does not raise has been handed over and has yielded
the event that it yields without those that raise, and the decoder is as it is without them. -/
structure Unharmed (decoder : Decoder) (sent handed : List Frame) : Prop where
  sameFrames : others py decoder handed = others py decoder sent
  sameEvents : events py decoder handed = events py decoder (others py decoder sent)
  sameDecoder : after py decoder handed = after py decoder (others py decoder sent)

/-- The first frame that raises is harmless, and all behind it raise. -/
def Contained (decoder : Decoder) : List Frame → Prop
  | [] => True
  | frame :: frames =>
    (Sound py decoder frame → Contained (decode py decoder frame).1 frames) ∧
      (¬Sound py decoder frame →
        Harmless py decoder frame ∧ AllRaise py (decode py decoder frame).1 frames)

section Laws

variable {py} {decoder : Decoder}

@[simp] theorem after_cons (frame : Frame) (frames : List Frame) :
    after py decoder (frame :: frames) = after py (decode py decoder frame).1 frames := rfl

theorem after_append (front back : List Frame) :
    after py decoder (front ++ back) = after py (after py decoder front) back :=
  foldl_append

variable {frame : Frame} {event : SapientEvent} {raised : String} {samples : List Bytes}

theorem events_cons_ok (h : (decode py decoder frame).2 = .ok event) (frames : List Frame) :
    events py decoder (frame :: frames) =
      (frame, event) :: events py (decode py decoder frame).1 frames := by
  rw [events, h]

theorem events_cons_error (h : (decode py decoder frame).2 = .error raised) (frames : List Frame) :
    events py decoder (frame :: frames) = events py (decode py decoder frame).1 frames := by
  rw [events, h]

theorem others_cons_ok (h : (decode py decoder frame).2 = .ok event) (frames : List Frame) :
    others py decoder (frame :: frames) = frame :: others py (decode py decoder frame).1 frames := by
  rw [others, events_cons_ok h]
  rfl

theorem others_cons_error (h : (decode py decoder frame).2 = .error raised) (frames : List Frame) :
    others py decoder (frame :: frames) = others py (decode py decoder frame).1 frames := by
  rw [others, events_cons_error h]
  rfl

theorem events_append : ∀ {decoder : Decoder} (front back : List Frame),
    events py decoder (front ++ back) =
      events py decoder front ++ events py (after py decoder front) back
  | _, [], _ => rfl
  | decoder, frame :: front, back => by
    rw [cons_append, after_cons]
    cases hresult : (decode py decoder frame).2 with
    | ok event =>
      rw [events_cons_ok hresult, events_cons_ok hresult, events_append front back]
      rfl
    | error raised =>
      rw [events_cons_error hresult, events_cons_error hresult, events_append front back]

theorem others_append (front back : List Frame) :
    others py decoder (front ++ back) =
      others py decoder front ++ others py (after py decoder front) back := by
  rw [others, events_append, map_append]
  rfl

theorem sound_of_ok (h : (decode py decoder frame).2 = .ok event) : Sound py decoder frame :=
  decode_isOk.mp (isOk_iff.mpr ⟨event, h⟩)

theorem not_sound_of_error (h : (decode py decoder frame).2 = .error raised) :
    ¬Sound py decoder frame := by
  intro hsound
  have hok := decode_isOk.mpr hsound
  rw [h] at hok
  cases hok

theorem allRaise_iff : ∀ {decoder : Decoder} {frames : List Frame},
    AllRaise py decoder frames ↔ others py decoder frames = []
  | _, [] => iff_of_true trivial rfl
  | decoder, frame :: frames => by
    rw [AllRaise]
    cases hresult : (decode py decoder frame).2 with
    | ok event =>
      rw [others_cons_ok hresult]
      exact iff_of_false (fun h => h.1 (sound_of_ok hresult)) (cons_ne_nil _ _)
    | error raised =>
      rw [others_cons_error hresult, and_iff_right (not_sound_of_error hresult)]
      exact allRaise_iff

/-! ## Frames that come at once -/

/-- A frame that yields an event changes nothing in what the others suffer. -/
theorem unharmed_cons_ok (h : (decode py decoder frame).2 = .ok event) (sent handed : List Frame) :
    Unharmed py decoder (frame :: sent) (frame :: handed) ↔
      Unharmed py (decode py decoder frame).1 sent handed := by
  constructor
  · rintro ⟨hhanded, hevents, hdecoder⟩
    rw [others_cons_ok h, others_cons_ok h] at hhanded
    rw [others_cons_ok h, events_cons_ok h, events_cons_ok h] at hevents
    rw [others_cons_ok h] at hdecoder
    exact ⟨(cons.inj hhanded).2, (cons.inj hevents).2, hdecoder⟩
  · rintro ⟨hhanded, hevents, hdecoder⟩
    refine ⟨?_, ?_, ?_⟩
    · rw [others_cons_ok h, others_cons_ok h, hhanded]
    · rw [others_cons_ok h, events_cons_ok h, events_cons_ok h, hevents]
    · rw [others_cons_ok h, after_cons, after_cons, hdecoder]

/-- Frames that come at once suffer no harm exactly when the first that raises is harmless and all
behind it raise as well. -/
theorem unharmed_iff : ∀ {decoder : Decoder} {frames : List Frame},
    Unharmed py decoder frames (untilRaise py decoder frames) ↔ Contained py decoder frames
  | _, [] => iff_of_true ⟨rfl, rfl, rfl⟩ trivial
  | decoder, frame :: frames => by
    rw [untilRaise, Contained]
    cases hresult : (decode py decoder frame).2 with
    | ok event =>
      have hsound := sound_of_ok hresult
      rw [if_pos (isOk_iff.mpr ⟨event, rfl⟩), unharmed_cons_ok hresult, unharmed_iff]
      exact ⟨fun h => ⟨fun _ => h, fun hraises => absurd hsound hraises⟩,
        fun h => h.1 hsound⟩
    | error raised =>
      have hraises := not_sound_of_error hresult
      rw [if_neg (by simp [Except.isOk, Except.toBool]), ← decode_eq_iff hraises, allRaise_iff]
      have hframe : others py decoder [frame] = [] := others_cons_error hresult []
      constructor
      · rintro ⟨hhanded, -, hdecoder⟩
        rw [hframe, others_cons_error hresult] at hhanded
        rw [others_cons_error hresult, ← hhanded] at hdecoder
        exact ⟨fun hsound => absurd hsound hraises, fun _ => ⟨hdecoder, hhanded.symm⟩⟩
      · rintro ⟨-, h⟩
        obtain ⟨hdecoder, hothers⟩ := h hraises
        refine ⟨?_, ?_, ?_⟩
        · rw [hframe, others_cons_error hresult, hothers]
        · rw [events_cons_error hresult, others_cons_error hresult, hothers]
          rfl
        · rw [others_cons_error hresult, hothers]
          exact hdecoder

/-- Frames that come after frames that suffered no harm. -/
theorem unharmed_append_iff {before : List Frame} (h : Unharmed py decoder before before)
    (sent handed : List Frame) :
    Unharmed py decoder (before ++ sent) (before ++ handed) ↔
      Unharmed py (after py decoder before) sent handed := by
  have hevents : events py decoder (others py decoder (before ++ sent)) =
      events py decoder before ++
        events py (after py decoder before) (others py (after py decoder before) sent) := by
    rw [others_append, events_append, ← h.sameEvents, ← h.sameDecoder]
  have hdecoder : after py decoder (others py decoder (before ++ sent)) =
      after py (after py decoder before) (others py (after py decoder before) sent) := by
    rw [others_append, after_append, ← h.sameDecoder]
  constructor
  · rintro ⟨hhanded, hyields, hafter⟩
    rw [others_append, others_append] at hhanded
    rw [hevents, events_append] at hyields
    rw [hdecoder, after_append] at hafter
    exact ⟨append_cancel_left hhanded, append_cancel_left hyields, hafter⟩
  · rintro ⟨hhanded, hyields, hafter⟩
    refine ⟨?_, ?_, ?_⟩
    · rw [others_append, others_append, hhanded]
    · rw [hevents, events_append, hyields]
    · rw [hdecoder, after_append, hafter]

/-- What was handed over is unharmed by itself. -/
theorem Unharmed.handed_self {sent handed : List Frame} (h : Unharmed py decoder sent handed) :
    Unharmed py decoder handed handed := by
  obtain ⟨hhanded, hevents, hdecoder⟩ := h
  rw [← hhanded] at hevents hdecoder
  exact ⟨rfl, hevents, hdecoder⟩

/-! ## A raw stream -/

variable {frames : List Frame}

/-- The loop of `on_sample` on a buffer that begins encoded frames: it hands over the whole frames
up to the first that raises, and leaves the others in the buffer. -/
theorem drainRaw_cut (hgood : ∀ frame ∈ frames, GoodLength frame.length) :
    ∀ {handed : List Frame} {buffer : Bytes}, buffer <+: frames.flatMap encode →
      ∃ left, (iterFrames buffer).1 =
          untilRaise py (after py decoder handed) (iterFrames buffer).1 ++ left ∧
        drainRaw (publishes py decoder) handed buffer =
          (untilRaise py (after py decoder handed) (iterFrames buffer).1,
            left.flatMap encode ++ (iterFrames buffer).2) := by
  induction frames with
  | nil =>
    intro handed buffer hsent
    rw [prefix_nil.mp hsent, iterFrames_nil, drainRaw, if_pos (by decide)]
    exact ⟨[], rfl, rfl⟩
  | cons frame frames ih =>
    intro handed buffer hsent
    rw [flatMap_cons] at hsent
    have hframe : GoodLength frame.length := hgood frame mem_cons_self
    have hframes : ∀ other ∈ frames, GoodLength other.length :=
      fun other hother => hgood other (mem_cons_of_mem frame hother)
    rcases prefix_encode_cases hsent with hpart | ⟨later, rfl, hlater⟩
    · rcases Nat.lt_or_ge buffer.length 4 with hshort | hlong
      · rw [iterFrames_short hshort, drainRaw, if_pos hshort]
        exact ⟨[], rfl, rfl⟩
      · have hlength : frameLength buffer = frame.length :=
          frameLength_sent hframe hsent hlong
        rw [iterFrames_part (by rw [hlength]; exact hpart), drainRaw,
          if_neg (Nat.not_lt.mpr hlong), hlength, if_neg (not_not_intro hframe), if_pos hpart]
        exact ⟨[], rfl, rfl⟩
    · have hlength : frameLength (encode frame ++ later) = frame.length :=
        frameLength_encode hframe later
      have hsize : (encode frame ++ later).length = frame.length + 4 + later.length := by
        rw [length_append, length_encode]
      have hbody : ((encode frame ++ later).drop 4).take frame.length = frame := by
        rw [encode, append_assoc, drop_left' (by simp), take_left' rfl]
      rw [iterFrames_encode hframe, drainRaw, if_neg (by omega), hlength,
        if_neg (not_not_intro hframe), if_neg (by omega), hbody,
        drop_left' (length_encode frame), untilRaise]
      dsimp only
      rw [publishes]
      by_cases hok : (decode py (after py decoder handed) frame).2.isOk = true
      · rw [if_pos hok, if_pos hok]
        obtain ⟨left, hwhole, hdrain⟩ := @ih hframes (handed ++ [frame]) later hlater
        rw [after_append] at hwhole hdrain
        refine ⟨left, ?_, ?_⟩
        · rw [cons_append]
          exact congrArg (frame :: ·) hwhole
        · rw [hdrain]
          rfl
      · rw [if_neg hok, if_neg hok]
        obtain ⟨-, -, hstream, -⟩ := iterFrames_sent hframes hlater
        exact ⟨(iterFrames later).1, rfl, by rw [← hstream]⟩

/-- What `on_sample` keeps: the whole frames it has not handed over, and a part of one. -/
structure RawFollows (py : Python) (decoder : Decoder) (samples : List Bytes)
    (left : List Frame) : Prop where
  whole : (iterFrames samples.flatten).1 = rawHanded py decoder samples ++ left
  buffer : (translator py decoder samples).buffer =
    left.flatMap encode ++ (iterFrames samples.flatten).2

theorem translator_concat (samples : List Bytes) (sample : Bytes) :
    translator py decoder (samples ++ [sample]) =
      (translator py decoder samples).onSample (publishes py decoder) ((), sample) := by
  rw [translator, map_append]
  exact runZenohRaw_concat ((), sample)

theorem rawHanded_concat (samples : List Bytes) (sample : Bytes) :
    rawHanded py decoder (samples ++ [sample]) = rawHanded py decoder samples ++
      (drainRaw (publishes py decoder) (rawHanded py decoder samples)
        ((translator py decoder samples).buffer ++ sample)).1 := by
  rw [rawHanded, translator_concat, RawTranslator.onSample, map_append, map_map]
  simp [rawHanded, Function.comp_def]

/-- One sample: `on_sample` hands over the whole frames it finds, up to the first that raises. -/
theorem RawFollows.on_sample (hgood : ∀ frame ∈ frames, GoodLength frame.length) {sample : Bytes}
    (hsent : (samples ++ [sample]).flatten <+: frames.flatMap encode) {left : List Frame}
    (h : RawFollows py decoder samples left) :
    (∃ later, RawFollows py decoder (samples ++ [sample]) later) ∧
      rawHanded py decoder (samples ++ [sample]) = rawHanded py decoder samples ++
        untilRaise py (after py decoder (rawHanded py decoder samples))
          (pending py decoder samples sample) ∧
      (iterFrames (samples ++ [sample]).flatten).1 =
        rawHanded py decoder samples ++ pending py decoder samples sample := by
  rw [flatten_concat] at hsent ⊢
  obtain ⟨rest, hframes, hstream, -⟩ :=
    iterFrames_sent hgood ((prefix_append _ sample).trans hsent)
  have hpart : (iterFrames samples.flatten).2 ++ sample <+: rest.flatMap encode := by
    rw [hstream, hframes, flatMap_append, append_assoc] at hsent
    exact (prefix_append_right_inj _).mp hsent
  have hbuffer : (translator py decoder samples).buffer ++ sample <+:
      (left ++ rest).flatMap encode := by
    rw [h.buffer, append_assoc, flatMap_append]
    exact (prefix_append_right_inj _).mpr hpart
  have hgood' : ∀ frame ∈ left ++ rest, GoodLength frame.length := by
    intro frame hframe
    refine hgood frame ?_
    rw [hframes, h.whole, append_assoc]
    exact mem_append_right _ hframe
  have hread : iterFrames ((translator py decoder samples).buffer ++ sample) =
      (left ++ (iterFrames ((iterFrames samples.flatten).2 ++ sample)).1,
        (iterFrames ((iterFrames samples.flatten).2 ++ sample)).2) := by
    rw [h.buffer, append_assoc]
    exact iterFrames_flatMap_append (fun frame hframe => hgood' frame
      (mem_append_left _ hframe)) _
  have hgoes := iterFrames_append samples.flatten sample
  have hwhole : (iterFrames (samples.flatten ++ sample)).1 =
      rawHanded py decoder samples ++ pending py decoder samples sample := by
    rw [hgoes, h.whole, pending, hread, append_assoc]
  obtain ⟨later, hcut, hdrain⟩ :=
    @drainRaw_cut py decoder _ hgood' (rawHanded py decoder samples) _ hbuffer
  have hhanded : rawHanded py decoder (samples ++ [sample]) = rawHanded py decoder samples ++
      untilRaise py (after py decoder (rawHanded py decoder samples))
        (pending py decoder samples sample) := by
    rw [rawHanded_concat, hdrain]
    rfl
  refine ⟨⟨later, ?_, ?_⟩, hhanded, hwhole⟩
  · rw [flatten_concat, hwhole, hhanded, append_assoc]
    exact congrArg (rawHanded py decoder samples ++ ·) hcut
  · rw [translator_concat, RawTranslator.onSample]
    show (drainRaw (publishes py decoder) (rawHanded py decoder samples) _).2 = _
    rw [hdrain, flatten_concat, hgoes, hread]

theorem rawFollows_run (hgood : ∀ frame ∈ frames, GoodLength frame.length) {samples : List Bytes}
    (hsent : samples.flatten <+: frames.flatMap encode) :
    ∃ left, RawFollows py decoder samples left := by
  induction samples using reverseRecOn with
  | nil =>
    refine ⟨[], ?_, ?_⟩
    · rw [flatten_nil, iterFrames_nil]
      rfl
    · rw [flatten_nil, iterFrames_nil]
      rfl
  | append_singleton samples sample ih =>
    have hbefore : samples.flatten <+: frames.flatMap encode := by
      rw [flatten_concat] at hsent
      exact (prefix_append _ sample).trans hsent
    obtain ⟨left, hleft⟩ := ih hbefore
    exact (hleft.on_sample hgood hsent).1

/-- What a raw stream has brought suffers no harm. -/
def RawUnharmed (py : Python) (decoder : Decoder) (samples : List Bytes) : Prop :=
  Unharmed py decoder (iterFrames samples.flatten).1 (rawHanded py decoder samples)

theorem rawUnharmed_nil : RawUnharmed py decoder [] := by
  rw [RawUnharmed, flatten_nil, iterFrames_nil]
  exact ⟨rfl, rfl, rfl⟩

/-- A sample does no harm exactly when the frames that wait when it has come are contained. -/
theorem rawUnharmed_concat_iff (hgood : ∀ frame ∈ frames, GoodLength frame.length) {sample : Bytes}
    (hsent : (samples ++ [sample]).flatten <+: frames.flatMap encode)
    (hbefore : RawUnharmed py decoder samples) :
    RawUnharmed py decoder (samples ++ [sample]) ↔
      Contained py (after py decoder (rawHanded py decoder samples))
        (pending py decoder samples sample) := by
  have hsamples : samples.flatten <+: frames.flatMap encode := by
    rw [flatten_concat] at hsent
    exact (prefix_append _ sample).trans hsent
  obtain ⟨left, hleft⟩ := @rawFollows_run py decoder frames hgood samples hsamples
  obtain ⟨-, hhanded, hwhole⟩ := hleft.on_sample hgood hsent
  rw [RawUnharmed, hhanded, hwhole, unharmed_append_iff hbefore.handed_self, unharmed_iff]

/-- At no time has a raw stream suffered harm exactly when the frames that wait are contained at
every sample. -/
theorem rawUnharmed_iff (hgood : ∀ frame ∈ frames, GoodLength frame.length)
    (hsent : samples.flatten <+: frames.flatMap encode) :
    (∀ before later, samples = before ++ later → RawUnharmed py decoder before) ↔
      ∀ before sample later, samples = before ++ sample :: later →
        Contained py (after py decoder (rawHanded py decoder before))
          (pending py decoder before sample) := by
  have hfront : ∀ before later, samples = before ++ later →
      before.flatten <+: frames.flatMap encode := by
    rintro before later rfl
    rw [flatten_append] at hsent
    exact (prefix_append _ _).trans hsent
  constructor
  · intro h before sample later hsplit
    have hconcat : samples = (before ++ [sample]) ++ later := by
      rw [hsplit, append_assoc]
      rfl
    exact (rawUnharmed_concat_iff hgood (hfront _ _ hconcat) (h before _ hsplit)).mp
      (h _ later hconcat)
  · intro h before
    induction before using reverseRecOn with
    | nil => exact fun later _ => rawUnharmed_nil
    | append_singleton before sample ih =>
      intro later hsplit
      have hcons : samples = before ++ sample :: later := by
        rw [hsplit, append_assoc]
        rfl
      exact (rawUnharmed_concat_iff hgood (hfront _ _ hsplit) (ih _ hcons)).mpr
        (h before sample later hcons)

end Laws

/-- Frames that raise harm no other frame: on a connection, whatever the decoder was before it,
exactly when the frames of the connection are contained, and on a raw stream, at whatever time it is
looked at, exactly when at every sample the frames that wait are. -/
theorem bad_frames_apart_iff (decoder : Decoder) {frames : List Frame}
    (hgood : ∀ frame ∈ frames, GoodLength frame.length) {samples : List Bytes}
    (hsamples : samples.flatten = frames.flatMap encode) :
    (Unharmed py decoder frames (consume py decoder (frames.flatMap encode)) ↔
      Contained py decoder frames) ∧
    ((∀ before later, samples = before ++ later → RawUnharmed py decoder before) ↔
      ∀ before sample later, samples = before ++ sample :: later →
        Contained py (after py decoder (rawHanded py decoder before))
          (pending py decoder before sample)) := by
  refine ⟨?_, rawUnharmed_iff hgood (hsamples ▸ List.prefix_rfl)⟩
  rw [consume, iterFrames_flatMap hgood]
  exact unharmed_iff

/-! ## A frame that raises, and a registration behind it -/

/-- Exact arithmetic and the letters of ASCII.  No frame below reaches the functions of `math`. -/
def plainPython : Python where
  literal := .finite
  add
    | .finite a, .finite b => .finite (a + b)
    | _, _ => .nan
  sub
    | .finite a, .finite b => .finite (a - b)
    | _, _ => .nan
  mul
    | .finite a, .finite b => .finite (a * b)
    | _, _ => .nan
  div
    | .finite a, .finite b => .finite (a / b)
    | _, _ => .nan
  mod
    | .finite a, .finite b => .finite (a - b * (a / b).floor)
    | _, _ => .nan
  degrees x := x
  radians x := x
  sin _ := .error "math domain error"
  cos _ := .error "math domain error"
  asin _ := .error "math domain error"
  atan2 _ _ := .nan
  hypot _ _ := .nan
  round x _ := x
  lower := PyStr.lower
  upper s := String.ofList (s.toList.map Char.toUpper)

/-- A registration without fields. -/
def emptyRegistration : Frame := [0x22, 0x00]

/-- A frame whose only field has the number zero. -/
def fieldZero : Frame := [0x00]

theorem fieldList_emptyRegistration :
    fieldList emptyRegistration = .ok [.delimited 4 []] := by
  rw [emptyRegistration,
    fieldList_of_readField (show readField [0x22, 0x00] = .ok (.delimited 4 [], []) from rfl),
    fieldList_nil]
  rfl

theorem sound_emptyRegistration (decoder : Decoder) : Sound py decoder emptyRegistration := by
  have henvelope : envelope emptyRegistration = .ok ⟨"unknown", .clock, .registration, []⟩ := by
    rw [envelope, if_neg (by decide), fieldList_emptyRegistration]
    rfl
  refine ⟨_, henvelope, [], fieldList_nil, ?_, ?_, ?_, ?_, ?_⟩
  · exact fun value hvalue => absurd hvalue not_mem_nil
  · exact fun mode hmode => absurd hmode not_mem_nil
  · exact fun value hvalue => absurd hvalue not_mem_nil
  · exact fun definition hdefinition => nomatch hdefinition
  · exact fun value hvalue => absurd hvalue not_mem_nil

theorem not_sound_fieldZero (decoder : Decoder) : ¬Sound py decoder fieldZero := by
  rintro ⟨e, he, -⟩
  rw [envelope, if_neg (by decide), fieldZero, fieldList_of_error (cons_ne_nil _ _)
    (show readField [0x00] = .error "invalid protobuf field zero" from rfl)] at he
  cases he

theorem bad_frames_apart_iff_registration :
    Unharmed plainPython Decoder.new [emptyRegistration]
      (consume plainPython Decoder.new ([emptyRegistration].flatMap encode)) :=
  (@bad_frames_apart_iff plainPython Decoder.new [emptyRegistration] (by decide)
    [encode emptyRegistration] rfl).1.mpr
    ⟨fun _ => trivial, fun hraises => absurd (sound_emptyRegistration plainPython _) hraises⟩

/-- A connection and a sample that bring a frame of which the decoder makes nothing, and then a
registration: the registration is not handed over. -/
theorem bad_frame_loses_registration :
    ¬∀ (py : Python) (decoder : Decoder) (frames : List Frame) (samples : List Bytes),
      (∀ frame ∈ frames, GoodLength frame.length) → samples.flatten = frames.flatMap encode →
        Unharmed py decoder frames (consume py decoder (frames.flatMap encode)) ∧
          RawUnharmed py decoder samples := by
  intro hall
  have hunharmed := (hall plainPython Decoder.new [fieldZero, emptyRegistration]
    [[fieldZero, emptyRegistration].flatMap encode] (by decide) (List.append_nil _)).1
  rw [consume, iterFrames_flatMap (by decide), unharmed_iff] at hunharmed
  have hlater := (hunharmed.2 (not_sound_fieldZero plainPython _)).2
  exact hlater.1 (sound_emptyRegistration plainPython _)

end Efdi.Sapient
