import Efdi.Base.PyJson
import Efdi.Base.Runs

/-!
# Drone commands and their acknowledgements

`handle_command` sends the `COMMAND_LONG` of a request and waits five seconds for
a `COMMAND_ACK`.  It takes the first one that it receives, of whatever command, so
an acknowledgement that comes after its command has timed out is taken for the
answer to a later one.  A request that fails with an error that the handler does
not expect gets no answer at all.

The vehicle answers each command once at most, after any delay.  Its answers wait
in the inbox in the order in which they arrive.  A sample gets its one true answer
exactly when its request fails in an expected way or can be sent, and no older
answer arrives before its own (`answered_iff`).
-/

namespace Efdi.Mavlink

open Runs List Except

/-! ## Requests -/

/-- An exception: one of those that `handle_command` expects, with its text, or another one. -/
inductive Raised where
  | expected (detail : String)
  | other
deriving DecidableEq

/-- The standard library and pymavlink.  Floats are the values that Python has. -/
structure Lib where
  /-- `json.loads` of the decoded payload. -/
  loads : List UInt8 → Except Raised PyJson
  /-- `float` of a string, or the text of its `ValueError`. -/
  floatOfString : String → Except String PyFloat
  /-- `float` of an integer, `none` for its `OverflowError`. -/
  floatOfInt : Int → Option PyFloat
  /-- `int` of a string. -/
  intOfString : String → Option Int
  repr : PyJson → String
  /-- `command_long_send` packs the system, the component, the command and its parameters. -/
  packs : Int → Int → Nat → List PyFloat → Bool
  /-- The name of a value of `MAV_RESULT`. -/
  resultName : Nat → Option String

/-- A `COMMAND_LONG`. -/
structure Command where
  id : Nat
  params : List PyFloat
deriving DecidableEq

def mavCmdNavReturnToLaunch : Nat := 20
def mavCmdNavLand : Nat := 21
def mavCmdNavTakeoff : Nat := 22
def mavCmdDoReposition : Nat := 192
def mavCmdComponentArmDisarm : Nat := 400

/-- `math.isfinite`. -/
def isFinite : PyFloat → Bool
  | .finite _ => true
  | .infinity _ => false
  | .nan => false

/-- `int` of a float, `none` when it raises. -/
def truncate : PyFloat → Option Int
  | .finite value => some (value.num.tdiv value.den)
  | .infinity _ => none
  | .nan => none

section

variable (lib : Lib)

/-- `float(value)`. -/
def toFloat : PyJson → Except Raised PyFloat
  | .bool b => .ok (.finite (if b then 1 else 0))
  | .int n =>
    match lib.floatOfInt n with
    | none => .error .other
    | some x => .ok x
  | .float x => .ok x
  | .str s =>
    match lib.floatOfString s with
    | .error detail => .error (.expected detail)
    | .ok x => .ok x
  | .null => .error .other
  | .list _ => .error .other
  | .dict _ => .error .other

/-- `int(value)`. -/
def toInt : PyJson → Option Int
  | .bool b => some (if b then 1 else 0)
  | .int n => some n
  | .float x => truncate x
  | .str s => lib.intOfString s
  | .null => none
  | .list _ => none
  | .dict _ => none

/-- `request[key]`. -/
def item (request : PyJson) (key : String) : Except Raised PyJson :=
  match request.get? key with
  | none => .error (.expected ("'" ++ key ++ "'"))
  | some value => .ok value

def zeros (n : Nat) : List PyFloat := List.replicate n (.finite 0)

/-- `goto` with its fields. -/
def gotoCommand (request : PyJson) : Except Raised Command := do
  let lat ← item request "lat_deg" >>= toFloat lib
  let lon ← item request "lon_deg" >>= toFloat lib
  let alt ← toFloat lib (request.getD "alt_m" (.int 0))
  if !isFinite lat || !isFinite lon then
    .error (.expected "goto requires finite lat_deg/lon_deg")
  else return ⟨mavCmdDoReposition, .finite (-1) :: zeros 2 ++ [.nan, lat, lon, alt]⟩

/-- `_build_command`, of a request that is an object. -/
def buildCommand (request : PyJson) : Except Raised Command :=
  match request.getD "cmd" .null with
  | .str "arm" => .ok ⟨mavCmdComponentArmDisarm, .finite 1 :: zeros 6⟩
  | .str "disarm" => .ok ⟨mavCmdComponentArmDisarm, zeros 7⟩
  | .str "takeoff" => do
      let alt ← toFloat lib (request.getD "alt_m" (.int 20))
      return ⟨mavCmdNavTakeoff, zeros 3 ++ [.nan, .finite 0, .finite 0, alt]⟩
  | .str "rtl" => .ok ⟨mavCmdNavReturnToLaunch, zeros 7⟩
  | .str "land" => .ok ⟨mavCmdNavLand, zeros 3 ++ .nan :: zeros 3⟩
  | .str "hold" => .ok ⟨mavCmdDoReposition, .finite (-1) :: zeros 2 ++ .nan :: zeros 3⟩
  | .str "goto" => gotoCommand lib request
  | cmd => .error (.expected ("unknown cmd: " ++ lib.repr cmd))

/-- `int(request.get(key) or default)`. -/
def target (request : PyJson) (key : String) (default : Int) : Option Int :=
  let value := request.getD key .null
  if value.truthy then toInt lib value else some default

end

/-! ## The link -/

/-- A `COMMAND_ACK` of the vehicle, and the count of the send that it answers. -/
structure Ack where
  arrival : Nat
  command : Nat
  result : Nat
  send : Nat
deriving DecidableEq

/-- An acknowledgement that was published.  `source` is the count of the send whose `COMMAND_ACK`
the result was read from. -/
structure Published where
  entity : String
  cmd : PyJson
  result : String
  detail : Option String
  ts : Nat
  source : Option Nat
deriving DecidableEq

/-- The link, with the clock in microseconds, the commands that were sent, the acknowledgements
that arrived or will arrive, and those that were published, the latest first. -/
structure Link where
  targetSystem : Int
  targetComponent : Int
  now : Nat
  sent : Nat
  inbox : List Ack
  published : List Published

/-- A sample comes `wait` after the last one was handled, and the vehicle answers its command with
a result after a delay, or never. -/
structure Sample where
  keyExpr : String
  payload : List UInt8
  wait : Nat
  answer : Option (Nat × Nat)

/-- `timeout=5`. -/
def ackTimeout : Nat := 5000000

/-- `_entity_id_from_topic`: what stands behind the last slash. -/
def entityIdFromTopic (keyExpr : String) : String :=
  String.ofList (keyExpr.toList.reverse.takeWhile fun c => c != '/').reverse

/-- What `handle_command` makes of a payload. -/
inductive Prepared where
  | reject (cmd : PyJson) (detail : String)
  | raise
  | send (cmd : PyJson) (system component : Int) (command : Command)
deriving DecidableEq

/-- The checks of `handle_command`, up to the packing of the command. -/
def prepare (lib : Lib) (link : Link) (payload : List UInt8) : Prepared :=
  match lib.loads payload with
  | .error (.expected detail) => .reject .null ("bad JSON: " ++ detail)
  | .error .other => .raise
  | .ok request =>
    if !request.isDict then .raise
    else
      match buildCommand lib request with
      | .error (.expected detail) => .reject (request.getD "cmd" .null) detail
      | .error .other => .raise
      | .ok command =>
        match target lib request "target_system" link.targetSystem,
          target lib request "target_component" link.targetComponent with
        | some system, some component =>
          if lib.packs system component command.id command.params then
            .send (request.getD "cmd" .null) system component command
          else .raise
        | _, _ => .raise

/-- An acknowledgement takes its place behind those that arrive before it or with it. -/
def insertAck (ack : Ack) : List Ack → List Ack
  | [] => [ack]
  | other :: acks =>
    if other.arrival ≤ ack.arrival then other :: insertAck ack acks else ack :: other :: acks

/-- The answer of the vehicle to the command of a sample. -/
def Sample.ack (sample : Sample) (now send : Nat) (command : Command) : Option Ack :=
  sample.answer.map fun answer => ⟨now + answer.1, command.id, answer.2, send⟩

/-- `_publish_ack`. -/
def publish (link : Link) (entity : String) (cmd : PyJson) (result : String)
    (detail : Option String) (source : Option Nat) : Link :=
  { link with published := ⟨entity, cmd, result, detail, link.now, source⟩ :: link.published }

/-- `recv_match` and what follows it. -/
def receive (lib : Lib) (link : Link) (entity : String) (cmd : PyJson) : Link :=
  match link.inbox with
  | [] => publish { link with now := link.now + ackTimeout } entity cmd "TIMEOUT" none none
  | ack :: acks =>
    if link.now + ackTimeout < ack.arrival then
      publish { link with now := link.now + ackTimeout } entity cmd "TIMEOUT" none none
    else
      let link := { link with now := max link.now ack.arrival, inbox := acks }
      match lib.resultName ack.result with
      | none => link
      | some result => publish link entity cmd result none (some ack.send)

/-- `handle_command`. -/
def handleCommand (lib : Lib) (link : Link) (sample : Sample) : Link :=
  let link := { link with now := link.now + sample.wait }
  let entity := entityIdFromTopic sample.keyExpr
  match prepare lib link sample.payload with
  | .reject cmd detail => publish link entity cmd "REJECTED" (some detail) none
  | .raise => link
  | .send cmd _ _ command =>
    let inbox :=
      match sample.ack link.now link.sent command with
      | none => link.inbox
      | some ack => insertAck ack link.inbox
    receive lib { link with sent := link.sent + 1, inbox } entity cmd

/-! ## The claim -/

/-- The answer to the command of the sample that arrives in time. -/
def Sample.inTime (sample : Sample) : Option (Nat × Nat) :=
  sample.answer.filter fun answer => answer.1 ≤ ackTimeout

/-- The result of a command is that of its own answer, or there was none in time. -/
def Own (lib : Lib) (sample : Sample) (send : Nat) (ack : Published) : Prop :=
  match sample.inTime with
  | none => ack.result = "TIMEOUT" ∧ ack.source = none
  | some answer => lib.resultName answer.2 = some ack.result ∧ ack.source = some send

/-- How long a sample waits for its own answer. -/
def Sample.waits (sample : Sample) : Nat := (sample.inTime.map Prod.fst).getD ackTimeout

/-- One acknowledgement is published, and it is true: a request that is not a valid command is
rejected and nothing is sent; else it has the result of the command's own answer, or there was
none in time. -/
def Answered (lib : Lib) (link : Link) (sample : Sample) : Prop :=
  ∃ ack, (handleCommand lib link sample).published = ack :: link.published ∧
    ack.entity = entityIdFromTopic sample.keyExpr ∧
    match prepare lib link sample.payload with
    | .send cmd _ _ _ => ack.cmd = cmd ∧ Own lib sample link.sent ack
    | _ => ack.result = "REJECTED" ∧ (handleCommand lib link sample).sent = link.sent

/-- `float` raises an exception that is not expected. -/
def FloatRaises (lib : Lib) : PyJson → Prop
  | .null => True
  | .list _ => True
  | .dict _ => True
  | .int n => lib.floatOfInt n = none
  | _ => False

/-- `float` of the string raises a `ValueError`. -/
def NoNumber (lib : Lib) : PyJson → Prop
  | .str s => ∃ detail, lib.floatOfString s = .error detail
  | _ => False

/-- The field is there and is no string that is no number. -/
def Reads (lib : Lib) (request : PyJson) (key : String) (value : PyJson) : Prop :=
  request.get? key = some value ∧ ¬NoNumber lib value

/-- A field of the request raises an exception that is not expected, and the fields before it raise
none. -/
def FieldRaises (lib : Lib) (request : PyJson) : Prop :=
  (request.getD "cmd" .null = .str "takeoff" ∧
    FloatRaises lib (request.getD "alt_m" (.int 20))) ∨
  (request.getD "cmd" .null = .str "goto" ∧
    ∃ lat, Reads lib request "lat_deg" lat ∧ (FloatRaises lib lat ∨
      ∃ lon, Reads lib request "lon_deg" lon ∧
        (FloatRaises lib lon ∨ FloatRaises lib (request.getD "alt_m" (.int 0)))))

/-- The command cannot be sent to the targets of the request. -/
def Unsendable (lib : Lib) (link : Link) (request : PyJson) (command : Command) : Prop :=
  ∀ system component, target lib request "target_system" link.targetSystem = some system →
    target lib request "target_component" link.targetComponent = some component →
    lib.packs system component command.id command.params = false

/-- The payload makes the handler fail: the text is not one that `json.loads` reads or refuses, the
value is no object, a field is no number, or a command cannot be sent. -/
def Unexpected (lib : Lib) (link : Link) (payload : List UInt8) : Prop :=
  lib.loads payload = .error .other ∨
    ∃ request, lib.loads payload = .ok request ∧
      (request.isDict = false ∨ FieldRaises lib request ∨
        ∃ command, buildCommand lib request = .ok command ∧ Unsendable lib link request command)

/-- No answer to an older command arrives before the answer to this one or the end of the wait,
and the result has a name. -/
def Undisturbed (lib : Lib) (link : Link) (sample : Sample) : Prop :=
  (∀ ack ∈ link.inbox, link.now + sample.wait + sample.waits < ack.arrival) ∧
  ∀ answer, sample.inTime = some answer → (lib.resultName answer.2).isSome = true

/-- The payload is rejected in an expected way, or it is sent and nothing comes in between. -/
def Clear (lib : Lib) (link : Link) (sample : Sample) : Prop :=
  ¬Unexpected lib link sample.payload ∧
    ((∃ cmd system component command,
        prepare lib link sample.payload = .send cmd system component command) →
      Undisturbed lib link sample)

/-! ## Requests that make the handler fail -/

section

variable {lib : Lib} {link : Link} {sample : Sample} {request value : PyJson}
  {payload : List UInt8} {command : Command}

theorem toFloat_eq_other : toFloat lib value = .error .other ↔ FloatRaises lib value := by
  cases value with
  | int n =>
    simp only [toFloat, FloatRaises]
    cases lib.floatOfInt n <;> simp
  | str s =>
    simp only [toFloat, FloatRaises]
    cases lib.floatOfString s <;> simp
  | null => simp [toFloat, FloatRaises]
  | bool b => simp [toFloat, FloatRaises]
  | float x => simp [toFloat, FloatRaises]
  | list xs => simp [toFloat, FloatRaises]
  | dict items => simp [toFloat, FloatRaises]

theorem toFloat_eq_expected :
    (∃ detail, toFloat lib value = .error (.expected detail)) ↔ NoNumber lib value := by
  cases value with
  | int n =>
    simp only [toFloat, NoNumber]
    cases lib.floatOfInt n <;> simp
  | str s =>
    simp only [toFloat, NoNumber]
    cases lib.floatOfString s <;> simp
  | null => simp [toFloat, NoNumber]
  | bool b => simp [toFloat, NoNumber]
  | float x => simp [toFloat, NoNumber]
  | list xs => simp [toFloat, NoNumber]
  | dict items => simp [toFloat, NoNumber]

/-- `float` succeeds on a value that is a number and does not make it fail. -/
theorem toFloat_isOk :
    (∃ x, toFloat lib value = .ok x) ↔ ¬NoNumber lib value ∧ ¬FloatRaises lib value := by
  rw [← toFloat_eq_other, ← toFloat_eq_expected]
  cases toFloat lib value with
  | ok x => simp
  | error raised =>
    cases raised with
    | expected detail => simp
    | other => simp

theorem not_noNumber_of_floatRaises (h : FloatRaises lib value) : ¬NoNumber lib value := by
  rw [← toFloat_eq_other] at h
  rw [← toFloat_eq_expected, h]
  simp

/-- A sequence fails in an unexpected way in its first part, or in the second after the first
succeeded. -/
theorem bind_eq_other {α β : Type} {x : Except Raised α} {f : α → Except Raised β} :
    (x >>= f) = .error .other ↔ x = .error .other ∨ ∃ a, x = .ok a ∧ f a = .error .other := by
  cases x with
  | error raised => simp [bind, Except.bind]
  | ok a => simp [bind, Except.bind]

theorem item_toFloat_eq_other {key : String} : (item request key >>= toFloat lib) = .error .other ↔
    ∃ value, Reads lib request key value ∧ FloatRaises lib value := by
  simp only [item, Reads]
  cases request.get? key with
  | none => simp [bind, Except.bind]
  | some value =>
    simp only [bind, Except.bind, Option.some.injEq, toFloat_eq_other]
    constructor
    · exact fun h => ⟨value, ⟨rfl, not_noNumber_of_floatRaises h⟩, h⟩
    · rintro ⟨other, ⟨rfl, -⟩, h⟩
      exact h

theorem item_toFloat_isOk {key : String} : (∃ x, (item request key >>= toFloat lib) = .ok x) ↔
    ∃ value, Reads lib request key value ∧ ¬FloatRaises lib value := by
  simp only [item, Reads]
  cases request.get? key with
  | none => simp [bind, Except.bind]
  | some value =>
    simp only [bind, Except.bind, Option.some.injEq, toFloat_isOk]
    constructor
    · exact fun h => ⟨value, ⟨rfl, h.1⟩, h.2⟩
    · rintro ⟨other, ⟨rfl, hnumber⟩, h⟩
      exact ⟨hnumber, h⟩

/-- Fields fail in an unexpected way one after the other. -/
theorem exists_and_or {α : Type} {p q : α → Prop} {r : Prop} :
    ((∃ a, p a ∧ q a) ∨ (∃ a, p a ∧ ¬q a) ∧ r) ↔ ∃ a, p a ∧ (q a ∨ r) := by
  constructor
  · rintro (⟨a, hp, hq⟩ | ⟨⟨a, hp, -⟩, hr⟩)
    · exact ⟨a, hp, .inl hq⟩
    · exact ⟨a, hp, .inr hr⟩
  · rintro ⟨a, hp, hq | hr⟩
    · exact .inl ⟨a, hp, hq⟩
    · by_cases hq : q a
      · exact .inl ⟨a, hp, hq⟩
      · exact .inr ⟨⟨a, hp, hq⟩, hr⟩

theorem gotoCommand_eq_other : gotoCommand lib request = .error .other ↔
    ∃ lat, Reads lib request "lat_deg" lat ∧ (FloatRaises lib lat ∨
      ∃ lon, Reads lib request "lon_deg" lon ∧
        (FloatRaises lib lon ∨ FloatRaises lib (request.getD "alt_m" (.int 0)))) := by
  have hlast : ∀ lat lon alt : PyFloat,
      ¬(if (!isFinite lat || !isFinite lon) = true then
          .error (.expected "goto requires finite lat_deg/lon_deg")
        else pure ⟨mavCmdDoReposition, .finite (-1) :: zeros 2 ++ [.nan, lat, lon, alt]⟩ :
          Except Raised Command) = .error .other := by
    intro lat lon alt
    split <;> simp [pure, Except.pure]
  unfold gotoCommand
  generalize hlat : (item request "lat_deg" >>= toFloat lib) = lat
  generalize hlon : (item request "lon_deg" >>= toFloat lib) = lon
  simp only [bind_eq_other, hlast, and_false, exists_false, or_false, exists_and_right]
  subst hlat hlon
  simp only [item_toFloat_eq_other, item_toFloat_isOk, toFloat_eq_other, exists_and_or]

theorem buildCommand_eq_other :
    buildCommand lib request = .error .other ↔ FieldRaises lib request := by
  simp only [buildCommand, FieldRaises]
  split
  next h => simp [h]
  next h => simp [h]
  next h => simp [h, bind_eq_other, toFloat_eq_other, pure, Except.pure]
  next h => simp [h]
  next h => simp [h]
  next h => simp [h]
  next h => simp [h, gotoCommand_eq_other]
  next harm hdisarm htakeoff hrtl hland hhold hgoto =>
    refine ⟨fun h => (nomatch h), ?_⟩
    rintro (⟨h, -⟩ | ⟨h, -⟩)
    · exact (htakeoff h).elim
    · exact (hgoto h).elim

/-- The handler fails on the payloads that it does not expect. -/
theorem prepare_eq_raise :
    prepare lib link payload = .raise ↔ Unexpected lib link payload := by
  simp only [prepare, Unexpected]
  cases hloads : lib.loads payload with
  | error raised =>
    cases raised with
    | expected detail => simp
    | other => simp
  | ok request =>
    simp only [reduceCtorEq, false_or, ok.injEq, exists_eq_left']
    cases hdict : request.isDict with
    | false => simp
    | true =>
      simp only [Bool.not_true, Bool.false_eq_true, if_false, reduceCtorEq, false_or,
        ← buildCommand_eq_other]
      cases hbuild : buildCommand lib request with
      | error raised =>
        cases raised with
        | expected detail => simp
        | other => simp
      | ok command =>
        simp only [reduceCtorEq, false_or, ok.injEq, exists_eq_left', Unsendable]
        cases target lib request "target_system" link.targetSystem with
        | none => simp
        | some system =>
          cases target lib request "target_component" link.targetComponent with
          | none => simp
          | some component => cases lib.packs system component command.id command.params <;> simp

/-! ## The inbox -/

/-- The answers wait in the order of their arrival, and they answer commands that were sent. -/
structure Ordered (link : Link) : Prop where
  sorted : link.inbox.Pairwise fun a b => a.arrival ≤ b.arrival
  sent : ∀ ack ∈ link.inbox, ack.send < link.sent

variable {ack : Ack} {acks : List Ack}

theorem mem_insertAck {other : Ack} :
    other ∈ insertAck ack acks ↔ other = ack ∨ other ∈ acks := by
  induction acks with
  | nil => simp [insertAck]
  | cons first acks ih =>
    rw [insertAck]
    split
    · simp only [mem_cons, ih]
      tauto
    · simp

theorem sorted_insertAck (h : acks.Pairwise fun a b => a.arrival ≤ b.arrival) :
    (insertAck ack acks).Pairwise fun a b => a.arrival ≤ b.arrival := by
  induction acks with
  | nil => simp [insertAck]
  | cons first acks ih =>
    rw [pairwise_cons] at h
    rw [insertAck]
    split
    next hle =>
      rw [pairwise_cons]
      refine ⟨fun other hmem => ?_, ih h.2⟩
      rcases mem_insertAck.mp hmem with rfl | hold
      · exact hle
      · exact h.1 other hold
    next hlt =>
      rw [pairwise_cons, pairwise_cons]
      refine ⟨fun other hmem => ?_, h⟩
      rcases mem_cons.mp hmem with rfl | hold
      · omega
      · have := h.1 other hold
        omega

/-- An answer comes first when all the others arrive after it. -/
theorem insertAck_of_lt (h : ∀ other ∈ acks, ack.arrival < other.arrival) :
    insertAck ack acks = ack :: acks := by
  cases acks with
  | nil => rfl
  | cons first acks =>
    have hfirst := h first mem_cons_self
    rw [insertAck, if_neg (by omega)]

/-! ## One sample -/

/-- The inbox after a command was sent. -/
def inboxAfter (link : Link) (sample : Sample) (command : Command) : List Ack :=
  match sample.ack (link.now + sample.wait) link.sent command with
  | none => link.inbox
  | some ack => insertAck ack link.inbox

/-- The link after the command of a sample was sent. -/
def sentLink (link : Link) (sample : Sample) (command : Command) : Link :=
  { link with
    now := link.now + sample.wait
    sent := link.sent + 1
    inbox := inboxAfter link sample command }

theorem handleCommand_of_send {cmd : PyJson} {system component : Int}
    (h : prepare lib link sample.payload = .send cmd system component command) :
    handleCommand lib link sample =
      receive lib (sentLink link sample command) (entityIdFromTopic sample.keyExpr) cmd := by
  have h' : prepare lib { link with now := link.now + sample.wait } sample.payload =
      .send cmd system component command := h
  rw [handleCommand, h']
  rfl

theorem ordered_sentLink (h : Ordered link) (sample : Sample) (command : Command) :
    Ordered (sentLink link sample command) := by
  simp only [sentLink, inboxAfter]
  cases hack : sample.ack (link.now + sample.wait) link.sent command with
  | none => exact ⟨h.sorted, fun ack hmem => Nat.lt_succ_of_lt (h.sent ack hmem)⟩
  | some own =>
    refine ⟨sorted_insertAck h.sorted, fun ack hmem => ?_⟩
    rcases mem_insertAck.mp hmem with rfl | hold
    · obtain ⟨answer, -, rfl⟩ := Option.map_eq_some_iff.mp hack
      exact Nat.lt_succ_self _
    · exact Nat.lt_succ_of_lt (h.sent ack hold)

theorem Ordered.receive (h : Ordered link) (lib : Lib) (entity : String) (cmd : PyJson) :
    Ordered (receive lib link entity cmd) := by
  rw [Mavlink.receive]
  split
  next hinbox => exact ⟨h.sorted, h.sent⟩
  next ack acks hinbox =>
    have hsorted : acks.Pairwise fun a b => a.arrival ≤ b.arrival := by
      have hall := h.sorted
      rw [hinbox] at hall
      exact hall.of_cons
    have hsent : ∀ other ∈ acks, other.send < link.sent := fun other hmem =>
      h.sent other (hinbox ▸ .tail _ hmem)
    split
    · exact ⟨h.sorted, h.sent⟩
    · split <;> exact ⟨hsorted, hsent⟩

theorem Ordered.handleCommand (h : Ordered link) (lib : Lib) (sample : Sample) :
    Ordered (handleCommand lib link sample) := by
  cases hprepare : prepare lib link sample.payload with
  | reject cmd detail =>
    have h' : prepare lib { link with now := link.now + sample.wait } sample.payload =
      .reject cmd detail := hprepare
    rw [Mavlink.handleCommand, h']
    exact ⟨h.sorted, h.sent⟩
  | raise =>
    have h' : prepare lib { link with now := link.now + sample.wait } sample.payload =
      .raise := hprepare
    rw [Mavlink.handleCommand, h']
    exact ⟨h.sorted, h.sent⟩
  | send cmd system component command =>
    rw [handleCommand_of_send hprepare]
    exact (ordered_sentLink h sample command).receive lib _ _

/-- The first answer is published when it comes in time and has a name. -/
theorem receive_cons {entity : String} {cmd : PyJson} (hinbox : link.inbox = ack :: acks)
    (htime : ack.arrival ≤ link.now + ackTimeout) :
    (receive lib link entity cmd).published =
      match lib.resultName ack.result with
      | none => link.published
      | some result =>
        ⟨entity, cmd, result, none, max link.now ack.arrival, some ack.send⟩ :: link.published := by
  simp only [receive, hinbox]
  rw [if_neg (by omega)]
  cases lib.resultName ack.result <;> rfl

/-- Nothing comes in time. -/
theorem receive_timeout {entity : String} {cmd : PyJson}
    (h : ∀ ack ∈ link.inbox, link.now + ackTimeout < ack.arrival) :
    (receive lib link entity cmd).published =
      ⟨entity, cmd, "TIMEOUT", none, link.now + ackTimeout, none⟩ :: link.published := by
  cases hinbox : link.inbox with
  | nil => simp only [receive, hinbox, publish]
  | cons ack acks =>
    have hlate := h ack (hinbox ▸ .head _)
    simp only [receive, hinbox]
    rw [if_pos hlate]
    rfl

theorem inTime_eq_some {answer : Nat × Nat} (h : sample.answer = some answer)
    (htime : answer.1 ≤ ackTimeout) : sample.inTime = some answer := by
  simp [Sample.inTime, h, htime]

theorem waits_le (sample : Sample) : sample.waits ≤ ackTimeout := by
  rw [Sample.waits]
  cases h : sample.inTime with
  | none => exact Nat.le_refl _
  | some answer =>
    have htime := (Option.filter_eq_some_iff.mp h).2
    simpa using htime

/-- An older answer that comes in time comes first. -/
theorem inboxAfter_of_older (h : Ordered link) {older : Ack} (hmem : older ∈ link.inbox)
    (hearly : older.arrival ≤ link.now + sample.wait + sample.waits) :
    ∃ first rest, inboxAfter link sample command = first :: rest ∧ first ∈ link.inbox ∧
      first.arrival ≤ link.now + sample.wait + sample.waits := by
  cases hinbox : link.inbox with
  | nil =>
    rw [hinbox] at hmem
    cases hmem
  | cons first acks =>
    have hfirst : first.arrival ≤ older.arrival := by
      have hsorted := h.sorted
      rw [hinbox] at hsorted hmem
      rcases mem_cons.mp hmem with rfl | hrest
      · exact Nat.le_refl _
      · exact (pairwise_cons.mp hsorted).1 older hrest
    have harrival := Nat.le_trans hfirst hearly
    cases hanswer : sample.answer with
    | none =>
      exact ⟨first, acks, by simp [inboxAfter, Sample.ack, hanswer, hinbox],
        .head _, harrival⟩
    | some answer =>
      -- The answer of the command itself does not come before the end of the wait for it.
      have hlate : first.arrival ≤ link.now + sample.wait + answer.1 := by
        rcases Nat.lt_or_ge ackTimeout answer.1 with hlt | hle
        · have := waits_le sample
          omega
        · simpa [Sample.waits, inTime_eq_some hanswer hle] using harrival
      refine ⟨first, insertAck ⟨link.now + sample.wait + answer.1, command.id, answer.2,
        link.sent⟩ acks, ?_, .head _, harrival⟩
      simp [inboxAfter, Sample.ack, hanswer, hinbox, insertAck, hlate]

/-- The handler publishes the answer to the command of the sample. -/
def PublishesOwn (lib : Lib) (link : Link) (sample : Sample) (command : Command) (entity : String)
    (cmd : PyJson) : Prop :=
  ∃ ack, (receive lib (sentLink link sample command) entity cmd).published =
      ack :: link.published ∧ ack.entity = entity ∧ ack.cmd = cmd ∧ Own lib sample link.sent ack

variable {entity : String} {cmd : PyJson}

/-- Without an answer in time nothing else comes before the end of the wait. -/
theorem publishesOwn_of_timeout (htime : sample.inTime = none)
    (hquiet : ∀ ack ∈ link.inbox, link.now + sample.wait + sample.waits < ack.arrival) :
    PublishesOwn lib link sample command entity cmd := by
  have hwaits : sample.waits = ackTimeout := by simp [Sample.waits, htime]
  have hlate : ∀ ack ∈ (sentLink link sample command).inbox,
      (sentLink link sample command).now + ackTimeout < ack.arrival := by
    intro ack hmem
    simp only [sentLink, inboxAfter, Sample.ack] at hmem ⊢
    cases hanswer : sample.answer with
    | none =>
      rw [hanswer] at hmem
      have hold := hquiet ack hmem
      omega
    | some answer =>
      rw [hanswer] at hmem
      rcases mem_insertAck.mp hmem with rfl | hmem
      · have hlt : ackTimeout < answer.1 := by
          by_contra hle
          rw [inTime_eq_some hanswer (by omega)] at htime
          cases htime
        show _ < link.now + sample.wait + answer.1
        omega
      · have hold := hquiet ack hmem
        omega
  exact ⟨_, receive_timeout hlate, rfl, rfl, by simp [Own, htime]⟩

/-- An answer in time is published, if its result has a name. -/
theorem publishesOwn_of_answer {answer : Nat × Nat} (htime : sample.inTime = some answer)
    (hquiet : ∀ ack ∈ link.inbox, link.now + sample.wait + sample.waits < ack.arrival) :
    PublishesOwn lib link sample command entity cmd ↔
      (lib.resultName answer.2).isSome = true := by
  obtain ⟨hanswer, hle⟩ := Option.filter_eq_some_iff.mp htime
  have hwaits : sample.waits = answer.1 := by simp [Sample.waits, htime]
  have hinbox : (sentLink link sample command).inbox =
      ⟨link.now + sample.wait + answer.1, command.id, answer.2, link.sent⟩ :: link.inbox := by
    simp only [sentLink, inboxAfter, Sample.ack, hanswer, Option.map_some]
    refine insertAck_of_lt fun other hmem => ?_
    have hold := hquiet other hmem
    simpa [hwaits] using hold
  have hin : link.now + sample.wait + answer.1 ≤
      (sentLink link sample command).now + ackTimeout := by
    have hle' : answer.1 ≤ ackTimeout := by simpa using hle
    simp only [sentLink]
    omega
  rw [PublishesOwn, receive_cons hinbox hin]
  cases hname : lib.resultName answer.2 with
  | none =>
    refine ⟨?_, fun h => by cases h⟩
    rintro ⟨ack, hpublished, -⟩
    simp [sentLink] at hpublished
  | some result => exact ⟨fun _ => rfl, fun _ => ⟨_, rfl, rfl, rfl, by simp [Own, htime, hname]⟩⟩

/-- An older answer is taken for the answer. -/
theorem not_publishesOwn_of_older (h : Ordered link) {older : Ack} (hmem : older ∈ link.inbox)
    (hearly : older.arrival ≤ link.now + sample.wait + sample.waits) :
    ¬PublishesOwn lib link sample command entity cmd := by
  rintro ⟨ack, hpublished, -, -, hown⟩
  obtain ⟨first, rest, hinbox, hfirst, harrival⟩ := inboxAfter_of_older h hmem hearly
  have hin : first.arrival ≤ (sentLink link sample command).now + ackTimeout := by
    have hle := waits_le sample
    simp only [sentLink]
    omega
  rw [receive_cons hinbox hin] at hpublished
  have hsent := h.sent first hfirst
  cases hname : lib.resultName first.result with
  | none => simp [hname, sentLink] at hpublished
  | some result =>
    simp only [hname] at hpublished
    obtain ⟨rfl, -⟩ := cons.inj hpublished
    rw [Own] at hown
    split at hown
    · cases hown.2
    · have hsend := Option.some.inj hown.2
      omega

/-- What the handler publishes for a command that it sends. -/
theorem publishesOwn_iff (h : Ordered link) :
    PublishesOwn lib link sample command entity cmd ↔ Undisturbed lib link sample := by
  by_cases hquiet : ∀ ack ∈ link.inbox, link.now + sample.wait + sample.waits < ack.arrival
  · cases htime : sample.inTime with
    | none =>
      refine ⟨fun _ => ⟨hquiet, fun answer hanswer => ?_⟩,
        fun _ => publishesOwn_of_timeout htime hquiet⟩
      rw [htime] at hanswer
      cases hanswer
    | some answer =>
      rw [publishesOwn_of_answer htime hquiet]
      refine ⟨fun hname => ⟨hquiet, fun other hother => ?_⟩,
        fun hundisturbed => hundisturbed.2 answer htime⟩
      rw [htime] at hother
      rwa [← Option.some.inj hother]
  · obtain ⟨older, hmem, hearly⟩ : ∃ older ∈ link.inbox,
        older.arrival ≤ link.now + sample.wait + sample.waits := by
      simpa using hquiet
    exact ⟨fun hown => absurd hown (not_publishesOwn_of_older h hmem hearly),
      fun hundisturbed => absurd hundisturbed.1 hquiet⟩

/-- A sample gets its one true answer exactly when its request is clear. -/
theorem answered_iff_clear (h : Ordered link) :
    Answered lib link sample ↔ Clear lib link sample := by
  rw [Answered, Clear, ← prepare_eq_raise]
  cases hprepare : prepare lib link sample.payload with
  | reject cmd detail =>
    have h' : prepare lib { link with now := link.now + sample.wait } sample.payload =
      .reject cmd detail := hprepare
    simp [handleCommand, h', publish]
  | raise =>
    have h' : prepare lib { link with now := link.now + sample.wait } sample.payload =
      .raise := hprepare
    simp [handleCommand, h']
  | send cmd system component command =>
    simp only [handleCommand_of_send hprepare, reduceCtorEq, not_false_eq_true, true_and]
    have hiff : PublishesOwn lib link sample command (entityIdFromTopic sample.keyExpr) cmd ↔
        Undisturbed lib link sample := publishesOwn_iff h
    rw [← hiff, PublishesOwn]
    simp

end

/-! ## Runs -/

/-- In every run from a link without open answers, every sample gets its one true answer exactly
when every sample is clear. -/
theorem answered_iff (lib : Lib) (link : Link) (hinbox : link.inbox = []) (samples : List Sample) :
    Guarded (handleCommand lib) (Answered lib) link samples ↔
      Guarded (handleCommand lib) (Clear lib) link samples := by
  have hordered : Ordered link := by
    constructor
    · rw [hinbox]
      exact List.Pairwise.nil
    · intro ack hmem
      rw [hinbox] at hmem
      cases hmem
  exact guarded_congr (P := Ordered)
    (fun link sample h => ⟨h.handleCommand lib sample, answered_iff_clear h⟩) hordered

/-- Payloads of one byte: the commands `arm` and `disarm`, and a JSON list. -/
def plainLib : Lib where
  loads
    | [1] => .ok (.dict [("cmd", .str "arm")])
    | [2] => .ok (.dict [("cmd", .str "disarm")])
    | [3] => .ok (.list [])
    | _ => .error (.expected "Expecting value: line 1 column 1 (char 0)")
  floatOfString _ := .error "could not convert string to float"
  floatOfInt n := some (.finite n)
  intOfString _ := none
  repr _ := "None"
  packs _ _ _ _ := true
  resultName
    | 0 => some "MAV_RESULT_ACCEPTED"
    | 2 => some "MAV_RESULT_DENIED"
    | _ => none

def plainLink : Link := ⟨1, 1, 0, 0, [], []⟩

def armAfter (wait delay : Nat) (payload : UInt8) (result : Nat) : Sample :=
  ⟨"efdi/air/mavlink/cmd/uav-1", [payload], wait, some (delay, result)⟩

/-- A command that is answered in time, and a text that is no JSON. -/
theorem answered_iff_inTurn :
    Guarded (handleCommand plainLib) (Answered plainLib) plainLink
      [armAfter 10 100 1 0, armAfter 0 0 7 0] := by
  refine (answered_iff plainLib plainLink rfl _).mpr ⟨⟨?_, fun _ => ⟨?_, fun answer h => ?_⟩⟩,
    ⟨?_, fun h => ?_⟩, trivial⟩
  · rw [← prepare_eq_raise]
    decide
  · exact fun ack hmem => (nomatch hmem)
  · obtain rfl := Option.some.inj ((show some (100, 0) = some answer from h))
    rfl
  · rw [← prepare_eq_raise]
    decide
  · obtain ⟨cmd, system, component, command, hprepare⟩ := h
    exact (nomatch hprepare)

/-- The answer to `arm` comes after its time, and is taken for the answer to `disarm`. -/
theorem late_answer_taken :
    ¬∀ (lib : Lib) (link : Link), link.inbox = [] → ∀ samples,
      Guarded (handleCommand lib) (Answered lib) link samples := by
  intro hall
  obtain ⟨ack, hpublished, -, -, hown⟩ :=
    (hall plainLib plainLink rfl [armAfter 10 6000000 1 0, armAfter 0 2000000 2 2]).2.1
  have htaken : (handleCommand plainLib (handleCommand plainLib plainLink
      (armAfter 10 6000000 1 0)) (armAfter 0 2000000 2 2)).published =
      ⟨"uav-1", .str "disarm", "MAV_RESULT_ACCEPTED", none, 6000010, some 0⟩ ::
        (handleCommand plainLib plainLink (armAfter 10 6000000 1 0)).published := by decide
  obtain ⟨rfl, -⟩ := List.cons.inj (htaken.symm.trans hpublished)
  cases show some 0 = some 1 from hown.2

end Efdi.Mavlink
