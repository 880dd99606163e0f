import Efdi.Base.Json5
import Efdi.Config.Fields

/-!
# Reading the fields back from a config

`_extract_fields` of `config.py`.  It is called on the active config and on a candidate
of a parent, and it takes some fields from the text and others from the local state
files, whatever the text is.

The document is read as Python reads it, with the exceptions of the operations on a
value of the wrong type.  A caller catches some kinds of exceptions only, so the kind
is kept.
-/

namespace Efdi

/-! ## Python operations -/

/-- The kind of an exception. -/
inductive PyError where
  | value
  | key
  | type
  | attribute
  | index
deriving DecidableEq, Repr

/-- `except (ValueError, KeyError, TypeError)`. -/
def PyError.caught : PyError → Bool
  | .value | .key | .type => true
  | .attribute | .index => false

namespace PyOps

/-- `v[key]`. -/
def subscript (v : PyJson) (key : String) : Except PyError PyJson :=
  match v with
  | .dict items =>
    match PyJson.lookup key items with
    | some w => .ok w
    | none => .error .key
  | _ => .error .type

/-- `v.get(key)`. -/
def get (v : PyJson) (key : String) : Except PyError (Option PyJson) :=
  match v with
  | .dict items => .ok (PyJson.lookup key items)
  | _ => .error .attribute

/-- The values `for x in v` runs over. -/
def iterate : PyJson → Except PyError (List PyJson)
  | .list xs => .ok xs
  | .dict items => .ok (items.map fun kv => .str kv.1)
  | .str s => .ok (s.toList.map fun c => .str (String.ofList [c]))
  | _ => .error .type

/-- `v[0]`. -/
def first : PyJson → Except PyError PyJson
  | .list (x :: _) => .ok x
  | .list [] => .error .index
  | .str s =>
    match s.toList with
    | c :: _ => .ok (.str (String.ofList [c]))
    | [] => .error .index
  | .dict _ => .error .key
  | _ => .error .type

/-- A string that a regular expression is matched against. -/
def subject : PyJson → Except PyError String
  | .str s => .ok s
  | _ => .error .type

/-- A string whose methods are called. -/
def string : PyJson → Except PyError String
  | .str s => .ok s
  | _ => .error .attribute

end PyOps

/-! ## Local files -/

/-- What the config module reads of its host: the files, `none` for one that cannot be
opened, and the environment variables that stand in for them. -/
structure ConfigFiles where
  /-- `CONFIG_PATH`. -/
  config : Option String
  /-- `_PREFIX_FILE`. -/
  prefixFile : Option String
  /-- `_DATA_PREFIX_FILE`. -/
  dataPrefixFile : Option String
  /-- `NAMESPACE_PREFIX`, or its default. -/
  prefixEnv : String
  /-- `DATA_NAMESPACE_PREFIX`. -/
  dataPrefixEnv : Option String
deriving DecidableEq

namespace ConfigFiles

/-- `_read_prefix_file`. -/
def namespacePrefix (files : ConfigFiles) : String :=
  match files.prefixFile with
  | some content => if PyStr.strip content != "" then PyStr.strip content else files.prefixEnv
  | none => files.prefixEnv

/-- `_read_data_prefix_file`. -/
def dataPrefix (files : ConfigFiles) : String :=
  match files.dataPrefixFile with
  | some content => PyStr.stripChar '/' (PyStr.strip content)
  | none =>
    match files.dataPrefixEnv with
    | some value => PyStr.stripChar '/' (PyStr.strip value)
    | none => files.namespacePrefix

end ConfigFiles

/-! ## Listeners -/

/-- The zeros of the decimal digits of Unicode. -/
def decimalZeros : List Nat :=
  [0x30, 0x660, 0x6f0, 0x7c0, 0x966, 0x9e6, 0xa66, 0xae6, 0xb66, 0xbe6, 0xc66, 0xce6, 0xd66,
    0xde6, 0xe50, 0xed0, 0xf20, 0x1040, 0x1090, 0x17e0, 0x1810, 0x1946, 0x19d0, 0x1a80, 0x1a90,
    0x1b50, 0x1bb0, 0x1c40, 0x1c50, 0xa620, 0xa8d0, 0xa900, 0xa9d0, 0xa9f0, 0xaa50, 0xabf0,
    0xff10, 0x104a0, 0x10d30, 0x11066, 0x110f0, 0x11136, 0x111d0, 0x112f0, 0x11450, 0x114d0,
    0x11650, 0x116c0, 0x11730, 0x118e0, 0x11950, 0x11c50, 0x11d50, 0x11da0, 0x11f50, 0x16a60,
    0x16ac0, 0x16b50, 0x1d7ce, 0x1d7d8, 0x1d7e2, 0x1d7ec, 0x1d7f6, 0x1e140, 0x1e2f0, 0x1e4f0,
    0x1e950, 0x1fbf0]

/-- The value of a character that `\d` matches. -/
def decimalDigit (c : Char) : Option Nat :=
  (decimalZeros.find? fun first => first ≤ c.toNat && c.toNat < first + 10).map (c.toNat - ·)

/-- `int(digits)`. -/
def decimalValue (digits : List Char) : Option Int :=
  (digits.mapM decimalDigit).map fun ds => Int.ofNat (ds.foldl (fun n d => 10 * n + d) 0)

/-- A text without one final newline, before which `$` matches as well. -/
def beforeEnd (cs : List Char) : List Char :=
  if cs.getLast? = some '\n' then cs.dropLast else cs

/-- `re.match(head + r"(\d+)$", endpoint)`, and the number it captures. -/
def portAfter (head endpoint : String) : Option Int :=
  if PyStr.startsWith endpoint head then
    let digits := beforeEnd (PyStr.drop (PyStr.len head) endpoint).toList
    if digits.isEmpty then none else decimalValue digits
  else none

/-- The ports that the listeners of a config were found at. -/
structure ListenPorts where
  mtls : Option Int
  localTcp : Option Int
  quic : Option Int

/-- The ports after one more listener. -/
def ListenPorts.add (ports : ListenPorts) (endpoint : String) : ListenPorts where
  mtls := ((portAfter "tls/0.0.0.0:" endpoint).or (portAfter "tcp/0.0.0.0:" endpoint)).or ports.mtls
  localTcp := (portAfter "tcp/127.0.0.1:" endpoint).or ports.localTcp
  quic := (portAfter "quic/0.0.0.0:" endpoint).or ports.quic

/-- The loop over the listeners. -/
def scanListeners (ports : ListenPorts) : List PyJson → Except PyError ListenPorts
  | [] => .ok ports
  | v :: vs => do
      let endpoint ← PyOps.subject v
      scanListeners (ports.add endpoint) vs

/-! ## The partner namespace -/

/-- `key[:-3] if key.endswith("/**") else key`. -/
def keyRoot (key : String) : String := PyStr.removeSuffix key "/**"

/-- The part of a storage expression that the pattern captures.  Below a data prefix the
part is one line; without one it is one segment. -/
def storageNamespace (publishPrefix keyExpr : String) : String :=
  if publishPrefix != "" then
    if PyStr.startsWith keyExpr (publishPrefix ++ "/") then
      let rest := String.ofList
        (beforeEnd (PyStr.drop (PyStr.len publishPrefix + 1) keyExpr).toList)
      let inner := keyRoot rest
      if PyStr.endsWith rest "/**" && inner != "" && !inner.toList.contains '\n' then inner else ""
    else ""
  else
    let rest := String.ofList (beforeEnd keyExpr.toList)
    let inner := keyRoot rest
    if PyStr.endsWith rest "/**" && inner != "" && !inner.toList.contains '/' then inner else ""

/-- `key.rsplit("/", 1)[-1]`. -/
def lastSegment (key : String) : String := (PyStr.split '/' key).getLast?.getD ""

/-- The partner namespace that the first party rule gives, over the one found before. -/
def rulePartner (publishPrefix key partner : String) : String :=
  if publishPrefix != "" && PyStr.startsWith key (publishPrefix ++ "/") then
    PyStr.drop (PyStr.len publishPrefix + 1) key
  else if key != "" then lastSegment key
  else partner

/-- The key expressions of a rule with the id, when it has some. -/
def ruleKeys (rule : PyJson) (id : String) : Except PyError (Option PyJson) := do
  let found ← PyOps.get rule "id"
  if found = some (.str id) then
    let keys ← PyOps.get rule "key_exprs"
    return keys.filter PyJson.truthy
  else return none

/-- The loop over the rules: the partner and the inbound namespace. -/
def scanRules (publishPrefix : String) : String → List PyJson → Except PyError (String × String)
  | partner, [] => .ok (partner, "")
  | partner, rule :: rules => do
      let firstparty ← ruleKeys rule "pod-firstparty"
      let partner ←
        match firstparty with
        | some keys => do
            let key ← PyOps.first keys >>= PyOps.string
            pure (rulePartner publishPrefix (keyRoot key) partner)
        | none => pure partner
      let inbound ← ruleKeys rule "pod-inbound"
      match inbound with
      | some keys => do
          let key ← PyOps.first keys >>= PyOps.string
          return (partner, keyRoot key)
      | none => scanRules publishPrefix partner rules

/-! ## All fields -/

/-- The profile whose paths a `tls` section holds. -/
def profileOf (tls : PyJson) : Option TlsProfile :=
  TlsProfile.all.find? fun profile =>
    tls.get? "connect_certificate" == some (.str profile.connectCertificate) &&
    tls.get? "connect_private_key" == some (.str profile.connectPrivateKey) &&
    tls.get? "root_ca_certificate" == some (.str profile.rootCa)

/-- An exception of a kind when there is no value. -/
def orRaise {α : Type} (e : PyError) : Option α → Except PyError α
  | some a => .ok a
  | none => .error e

/-- `_extract_fields`. -/
def extractFields (J : Json5.Library) (files : ConfigFiles) (raw : String) :
    Except PyError ConfigFields := do
  let data ← orRaise .value (J.loads raw)
  let listen ← PyOps.subscript data "listen"
  let listenEndpoints ← PyOps.subscript listen "endpoints"
  let listeners ← PyOps.iterate listenEndpoints
  let ports ← scanListeners ⟨none, none, none⟩ listeners
  let connect ← PyOps.subscript data "connect"
  let connectEndpoints ← PyOps.subscript connect "endpoints"
  let endpoints ← orRaise .value connectEndpoints.list?
  let publishPrefix := files.dataPrefix
  let plugins ← PyOps.subscript data "plugins"
  let manager ← PyOps.subscript plugins "storage_manager"
  let storages ← PyOps.subscript manager "storages"
  let live ← PyOps.subscript storages "efdi_live"
  let storageKey ← PyOps.subscript live "key_expr"
  let storageKeyExpr ← PyOps.subject storageKey
  let access ← PyOps.subscript data "access_control"
  let accessRules ← PyOps.subscript access "rules"
  let rules ← PyOps.iterate accessRules
  let (partnerNamespace, inboundNamespace) ←
    scanRules publishPrefix (storageNamespace publishPrefix storageKeyExpr) rules
  let transport ← PyOps.subscript data "transport"
  let link ← PyOps.subscript transport "link"
  let tls ← PyOps.subscript link "tls"
  let verifyName ← PyOps.subscript tls "verify_name_on_connect"
  let loading ← PyOps.subscript data "plugins_loading"
  let enabled ← PyOps.subscript loading "enabled"
  let fabricTlsProfile ← orRaise .value (profileOf tls)
  -- The model refuses endpoints that are not strings and ports that were not found.
  let fabricEndpoints ← orRaise .value (endpoints.mapM PyJson.str?)
  let mtlsPort ← orRaise .value ports.mtls
  let localTcpPort ← orRaise .value ports.localTcp
  let values : ConfigValues :=
    { mtlsPort, localTcpPort
      fabricEndpoint := fabricEndpoints.head?.getD ""
      partnerNamespace, inboundNamespace
      namespacePrefix := files.namespacePrefix
      publishPrefix
      verifyNameOnConnect := verifyName.truthy
      pluginsLoadingEnabled := enabled.truthy
      fabricEndpoints, fabricTlsProfile
      enableQuic := ports.quic.isSome
      quicPort := ports.quic.getD 7449 }
  orRaise .value values.validate.toOption

end Efdi
