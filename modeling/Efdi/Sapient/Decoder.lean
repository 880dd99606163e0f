import Efdi.Sapient.Reports

/-!
# The SAPIENT decoder

`decode` reads the envelope of a frame, makes the node known, and hands the content to the handler
of its kind.  A detection and an alert that raise become an event with a warning.

A frame makes `decode` raise when one of the submessages that its handler reads is unreadable
(`decode_isOk`), and it then leaves the decoder as it was when nothing new was written before the
point of failure (`decode_eq_iff`).
-/

namespace Efdi.Sapient

open Checks Except

variable (py : Python)

/-- What `decode` reads before it touches a node. -/
structure Envelope where
  nodeId : String
  sentAt : Moment
  kind : Kind
  content : Bytes
deriving DecidableEq

/-- The content messages of an envelope. -/
def contents (fields : List WireField) : List (Kind × Bytes) :=
  fields.filterMap fun
    | .delimited number value => (contentFields.lookup number).map fun kind => (kind, value)
    | _ => none

/-- The part of `decode` before it touches a node. -/
def envelope (data : Bytes) : Except String Envelope :=
  if data = [] ∨ maxFrameBytes < data.length then .error "invalid SAPIENT protobuf frame size"
  else
    match fieldList data with
    | .error raised => .error raised
    | .ok fields =>
      match timestamp (firstBytes fields 1) with
      | .error raised => .error raised
      | .ok sentAt =>
        match contents fields with
        | [(kind, content)] =>
          .ok ⟨(text (firstBytes fields 2)).getD "unknown", sentAt, kind, content⟩
        | _ => .error "SAPIENT envelope must contain exactly one content message"

/-- An event without track and warning. -/
def Envelope.event (e : Envelope) : SapientEvent := ⟨e.kind, e.nodeId, e.sentAt, none, none⟩

/-- An event with the track that a handler returned, or with a warning of what it raised. -/
def Envelope.reported (e : Envelope) : Except String SapientTrack → SapientEvent
  | .ok track => { e.event with track := some track }
  | .error raised => { e.event with warning := some raised }

/-- What `decode` does of a message that is only printed. -/
def Envelope.printed (e : Envelope) (info : Except String PyJson) : Except String SapientEvent :=
  info.map fun _ => e.event

/-- The handler of a content message, on the node of its sender. -/
def handle (decoder : Decoder) (node : NodeState) (e : Envelope) :
    Decoder × Except String SapientEvent :=
  match e.kind with
  | .registration =>
    let registered := registration py node e.content
    ({ decoder with nodes := decoder.nodes.set e.nodeId registered.1 },
      match registered.2 with
      | some raised => .error raised
      | none => .ok e.event)
  | .statusReport =>
    let reported := status py e.nodeId node e.sentAt e.content
    ({ decoder with nodes := decoder.nodes.set e.nodeId reported.1 },
      reported.2.map fun track => { e.event with track := track })
  | .detectionReport =>
    let detected := detection py decoder.objects e.nodeId node e.sentAt e.content
    ({ decoder with objects := detected.1 }, .ok (e.reported detected.2))
  | .alert => (decoder, .ok (e.reported (alert py e.nodeId node e.sentAt e.content)))
  | .registrationAck => (decoder, e.printed (registrationAck e.content))
  | .task => (decoder, e.printed (task e.content))
  | .taskAck => (decoder, e.printed (taskAck e.content))
  | .alertAck => (decoder, e.printed (alertAck e.content))
  | .error => (decoder, e.printed (errorInfo e.content))

/-- `SapientDecoder.decode`: the decoder as it leaves it, and what it returns or raises. -/
def decode (decoder : Decoder) (data : Bytes) : Decoder × Except String SapientEvent :=
  match envelope data with
  | .error raised => (decoder, .error raised)
  | .ok e =>
    let nodes := decoder.nodes.setDefault e.nodeId NodeState.new
    handle py { decoder with nodes := nodes } ((nodes.get? e.nodeId).getD NodeState.new) e

/-! ## When `decode` raises -/

/-- What a decoder knows of a node. -/
def Decoder.node (decoder : Decoder) (nodeId : String) : NodeState :=
  (decoder.nodes.get? nodeId).getD NodeState.new

/-- Everything that the handler of a content message reads can be read. -/
def ContentReads (node : NodeState) (e : Envelope) : Prop :=
  match e.kind with
  | .registration => ∃ fields, fieldList e.content = .ok fields ∧ RegistrationReads fields
  | .statusReport => ∃ fields, fieldList e.content = .ok fields ∧ StatusReads py node fields
  | .detectionReport => True
  | .alert => True
  | .task => ∃ fields, fieldList e.content = .ok fields ∧ AllReadable fields 7 16 ∧
      OptionalReadable (firstBytes fields 8)
  | .registrationAck => Readable e.content
  | .taskAck => Readable e.content
  | .alertAck => Readable e.content
  | .error => Readable e.content

/-- A frame whose envelope and content can be read. -/
def Sound (decoder : Decoder) (frame : Frame) : Prop :=
  ∃ e, envelope frame = .ok e ∧ ContentReads py (decoder.node e.nodeId) e

/-- What the handler of a content message writes before it fails is what the node has. -/
def ContentKeeps (node : NodeState) (e : Envelope) : Prop :=
  match e.kind with
  | .registration => ∀ fields, fieldList e.content = .ok fields → RegistrationKeeps py node fields
  | .statusReport => ∀ fields, fieldList e.content = .ok fields → StatusKeeps py node fields
  | _ => True

/-- A frame whose envelope is unreadable, or that comes from a node known before and writes nothing
new. -/
def Harmless (decoder : Decoder) (frame : Frame) : Prop :=
  ∀ e, envelope frame = .ok e →
    ∃ node, decoder.nodes.get? e.nodeId = some node ∧ ContentKeeps py node e

section Raises

variable {py} {decoder : Decoder} {node : NodeState} {frame : Frame} {e : Envelope}

theorem handle_isOk : (handle py decoder node e).2.isOk = true ↔ ContentReads py node e := by
  rw [handle, ContentReads]
  cases e.kind with
  | registration =>
    dsimp only
    rw [← @registration_eq_none py node]
    cases (registration py node e.content).2 with
    | none => simp [Except.isOk, Except.toBool]
    | some raised => simp [Except.isOk, Except.toBool]
  | statusReport =>
    dsimp only
    rw [isOk_map]
    exact status_isOk
  | detectionReport => exact iff_of_true rfl trivial
  | alert => exact iff_of_true rfl trivial
  | task =>
    dsimp only [Envelope.printed]
    rw [isOk_map]
    exact task_isOk
  | registrationAck =>
    dsimp only [Envelope.printed]
    rw [isOk_map]
    exact registrationAck_isOk
  | taskAck =>
    dsimp only [Envelope.printed]
    rw [isOk_map]
    exact taskAck_isOk
  | alertAck =>
    dsimp only [Envelope.printed]
    rw [isOk_map]
    exact alertAck_isOk
  | error =>
    dsimp only [Envelope.printed]
    rw [isOk_map]
    exact errorInfo_isOk

/-- A frame from a node that the decoder knows. -/
theorem decode_of_known (he : envelope frame = .ok e)
    (hnode : decoder.nodes.get? e.nodeId = some node) :
    decode py decoder frame = handle py decoder node e := by
  have hset : decoder.nodes.setDefault e.nodeId NodeState.new = decoder.nodes := by
    rw [PyDict.setDefault, if_pos (PyDict.contains_of_get? hnode)]
  rw [decode, he]
  dsimp only
  rw [hset, hnode]
  rfl

/-- `decode` returns when everything that it reads can be read. -/
theorem decode_isOk : (decode py decoder frame).2.isOk = true ↔ Sound py decoder frame := by
  rw [decode, Sound]
  cases henvelope : envelope frame with
  | error raised => simp [Except.isOk, Except.toBool]
  | ok e =>
    simp only [Except.ok.injEq, exists_eq_left']
    rw [handle_isOk, PyDict.get?_setDefault, if_pos rfl]
    rfl

/-- The node of a frame is known from then on. -/
theorem known_handle (hnode : (decoder.nodes.get? e.nodeId).isSome) :
    ((handle py decoder node e).1.nodes.get? e.nodeId).isSome = true := by
  rw [handle]
  cases e.kind with
  | registration => simp
  | statusReport => simp
  | _ => exact hnode

theorem Decoder.with_nodes_eq {decoder : Decoder} {nodes : PyDict String NodeState} :
    { decoder with nodes := nodes } = decoder ↔ nodes = decoder.nodes := by
  cases decoder
  simp

theorem handle_eq (hnode : decoder.nodes.get? e.nodeId = some node)
    (hreads : ¬ContentReads py node e) :
    (handle py decoder node e).1 = decoder ↔ ContentKeeps py node e := by
  rw [handle, ContentKeeps]
  rw [ContentReads] at hreads
  cases hkind : e.kind with
  | registration =>
    dsimp only
    rw [Decoder.with_nodes_eq, PyDict.set_eq_self_iff hnode]
    exact registration_eq
  | statusReport =>
    dsimp only
    rw [Decoder.with_nodes_eq, PyDict.set_eq_self_iff hnode]
    exact status_eq
  | detectionReport =>
    rw [hkind] at hreads
    exact absurd trivial hreads
  | _ => exact iff_of_true rfl trivial

/-- A frame on which `decode` raises leaves the decoder as it was when it is harmless. -/
theorem decode_eq_iff (hraises : ¬Sound py decoder frame) :
    (decode py decoder frame).1 = decoder ↔ Harmless py decoder frame := by
  rw [Harmless]
  cases henvelope : envelope frame with
  | error raised =>
    rw [decode, henvelope]
    exact iff_of_true rfl fun e he => by cases he
  | ok e =>
    simp only [ok.injEq, forall_eq']
    cases hnode : decoder.nodes.get? e.nodeId with
    | none =>
      refine iff_of_false (fun heq => ?_) (by simp)
      have hknown : ((decode py decoder frame).1.nodes.get? e.nodeId).isSome = true := by
        rw [decode, henvelope]
        refine known_handle ?_
        rw [PyDict.get?_setDefault, if_pos rfl]
        rfl
      rw [heq, hnode] at hknown
      cases hknown
    | some node =>
      have hreads : ¬ContentReads py node e := by
        intro hreads
        refine hraises ⟨e, henvelope, ?_⟩
        rw [Decoder.node, hnode]
        exact hreads
      rw [decode_of_known henvelope hnode, handle_eq hnode hreads]
      simp

end Raises

end Efdi.Sapient
