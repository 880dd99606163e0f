import Efdi.Base.Checks
import Efdi.Base.PyJson
import Efdi.Trust.Grant

/-!
# The fields of a router config

`ConfigFields` of `config.py`: the values a config is rendered from and read back
to, with the validators of the model.  A `ConfigFields` in hand passed them, so its
namespaces and endpoints keep to a safe alphabet and its ports are in range.

The alphabet tests call `match` with a pattern that ends in `$`.  Python lets such a
pattern match before one final newline, so `safeMatch` does too.
-/

namespace Efdi

open Checks
open Trust (FieldError check)

/-! ## TLS profiles -/

/-- The keys of `_TLS_PROFILES`. -/
inductive TlsProfile where
  | efdi
  | backbone
  | ltuLocal
deriving DecidableEq, Repr

namespace TlsProfile

def value : TlsProfile → String
  | .efdi => "efdi"
  | .backbone => "backbone"
  | .ltuLocal => "ltu-local"

/-- The profiles in the order of the table. -/
def all : List TlsProfile := [.efdi, .backbone, .ltuLocal]

/-- The profile with a given name. -/
def ofValue (s : String) : Option TlsProfile := all.find? (·.value == s)

def plaintext : TlsProfile → Bool
  | .ltuLocal => true
  | _ => false

def listenCertificate : TlsProfile → String
  | .efdi | .backbone => "/etc/zenoh/tls/pod-cert.pem"
  | .ltuLocal => ""

def listenPrivateKey : TlsProfile → String
  | .efdi | .backbone => "/etc/zenoh/tls/pod-key.pem"
  | .ltuLocal => ""

def connectCertificate : TlsProfile → String
  | .efdi => "/etc/zenoh/tls/pod-cert.pem"
  | .backbone => "/etc/zenoh/tls/backbone/cert.pem"
  | .ltuLocal => ""

def connectPrivateKey : TlsProfile → String
  | .efdi => "/etc/zenoh/tls/pod-key.pem"
  | .backbone => "/etc/zenoh/tls/backbone/key.pem"
  | .ltuLocal => ""

def rootCa : TlsProfile → String
  | .efdi => "/etc/zenoh/tls/ca-roots.pem"
  | .backbone => "/etc/zenoh/tls/backbone/ca-roots.pem"
  | .ltuLocal => ""

/-- The paths a profile is recognised by. -/
def paths (p : TlsProfile) : String × String × String :=
  (p.connectCertificate, p.connectPrivateKey, p.rootCa)

end TlsProfile

/-! ## Alphabets -/

/-- The characters of `_SAFE_NAMESPACE_RE`. -/
def namespaceChar (c : Char) : Bool :=
  c.isAlphanum || c == '.' || c == '_' || c == '/' || c == '-'

/-- The characters of `_SAFE_ENDPOINT_RE`. -/
def endpointChar (c : Char) : Bool := namespaceChar c || c == ':'

/-- `re.match("^[p]+$", s)`: the end anchor also matches before a final newline. -/
def safeMatch (p : Char → Bool) (s : String) : Bool :=
  let body := if s.toList.getLast? = some '\n' then s.toList.dropLast else s.toList
  !body.isEmpty && body.all p

/-- The number of endpoints a config may have. -/
def maxFabricEndpoints : Nat := 16

/-! ## The fields -/

/-- The decoded fields of a config, `publish_prefix` with its outer slashes stripped. -/
structure ConfigValues where
  mtlsPort : Int
  localTcpPort : Int
  fabricEndpoint : String
  partnerNamespace : String
  inboundNamespace : String
  namespacePrefix : String
  publishPrefix : String
  verifyNameOnConnect : Bool
  pluginsLoadingEnabled : Bool
  fabricEndpoints : List String
  fabricTlsProfile : TlsProfile
  enableQuic : Bool
  quicPort : Int
deriving DecidableEq

/-- `_check_safe_namespace` for one of the three namespace fields. -/
def safeNamespaceErrors (field v : String) : List FieldError :=
  check field (safeMatch namespaceChar v) "only letters, digits, '.', '_', '/', '-' are allowed"

/-- `_check_publish_prefix`, on the stripped value. -/
def publishPrefixErrors (v : String) : List FieldError :=
  check "publish_prefix" (v.toList.all namespaceChar)
    "only letters, digits, '.', '_', '/', '-' are allowed"

/-- `_check_safe_endpoint`. -/
def safeEndpointErrors (v : String) : List FieldError :=
  check "fabric_endpoint" (v == "" || safeMatch endpointChar v)
    "only letters, digits, '.', '_', '/', ':', '-' are allowed"

/-- The first error of `_check_safe_endpoints`. -/
def safeEndpointsErrors (v : List String) : List FieldError :=
  if v.length > maxFabricEndpoints then
    [("fabric_endpoints", s!"at most {maxFabricEndpoints} fabric endpoints are allowed")]
  else if !decide v.Nodup then
    [("fabric_endpoints", "fabric endpoints must be unique")]
  else check "fabric_endpoints" (v.all (safeMatch endpointChar))
    ("fabric endpoints must contain only letters, digits, '.', '_', '/', ':', '-' " ++
      "and must not be empty")

/-- `_check_port` for one of the three port fields. -/
def portErrors (field : String) (v : Int) : List FieldError :=
  check field (decide (1 ≤ v ∧ v ≤ 65535)) "port must be between 1 and 65535"

/-- The errors of the validators. -/
def ConfigValues.errors (f : ConfigValues) : List FieldError :=
  portErrors "mtls_port" f.mtlsPort ++
  portErrors "local_tcp_port" f.localTcpPort ++
  safeEndpointErrors f.fabricEndpoint ++
  safeNamespaceErrors "partner_namespace" f.partnerNamespace ++
  safeNamespaceErrors "inbound_namespace" f.inboundNamespace ++
  safeNamespaceErrors "namespace_prefix" f.namespacePrefix ++
  publishPrefixErrors f.publishPrefix ++
  safeEndpointsErrors f.fabricEndpoints ++
  portErrors "quic_port" f.quicPort

/-- Config fields whose validators all passed.  The stripped data prefix has no outer
slashes. -/
structure ConfigFields extends ConfigValues where
  valid : toConfigValues.errors = []
  stripped : PyStr.stripChar '/' publishPrefix = publishPrefix
deriving DecidableEq

/-- Check fields whose data prefix is stripped. -/
def ConfigValues.validateStripped (f : ConfigValues)
    (hs : PyStr.stripChar '/' f.publishPrefix = f.publishPrefix) :
    Except (List FieldError) ConfigFields :=
  if h : f.errors = [] then .ok ⟨f, h, hs⟩ else .error f.errors

/-- Run the validators, which strip the data prefix. -/
def ConfigValues.validate (f : ConfigValues) : Except (List FieldError) ConfigFields :=
  ConfigValues.validateStripped { f with publishPrefix := PyStr.stripChar '/' f.publishPrefix }
    (PyStr.stripChar_stripChar '/' f.publishPrefix)

namespace ConfigFields

variable (f : ConfigFields)

/-- What the validators of a config say. -/
structure Ok (f : ConfigValues) : Prop where
  mtlsPort : 1 ≤ f.mtlsPort ∧ f.mtlsPort ≤ 65535
  localTcpPort : 1 ≤ f.localTcpPort ∧ f.localTcpPort ≤ 65535
  fabricEndpoint : f.fabricEndpoint = "" ∨ safeMatch endpointChar f.fabricEndpoint = true
  partnerNamespace : safeMatch namespaceChar f.partnerNamespace = true
  inboundNamespace : safeMatch namespaceChar f.inboundNamespace = true
  namespacePrefix : safeMatch namespaceChar f.namespacePrefix = true
  publishPrefix : f.publishPrefix.toList.all namespaceChar = true
  fabricEndpoints : f.fabricEndpoints.length ≤ maxFabricEndpoints ∧ f.fabricEndpoints.Nodup ∧
    ∀ e ∈ f.fabricEndpoints, safeMatch endpointChar e = true
  quicPort : 1 ≤ f.quicPort ∧ f.quicPort ≤ 65535

theorem safeEndpointsErrors_eq_nil {v : List String} :
    safeEndpointsErrors v = [] ↔ v.length ≤ maxFabricEndpoints ∧ v.Nodup ∧
      ∀ e ∈ v, safeMatch endpointChar e = true := by
  rw [safeEndpointsErrors]
  split_ifs with hlen hdup
  · simp only [false_iff, not_and]
    omega
  · simp only [false_iff, not_and]
    intro _ hnodup
    simp [hnodup] at hdup
  · simp only [Trust.check_eq_nil, List.all_eq_true]
    exact ⟨fun h => ⟨by omega, by simpa using hdup, h⟩, fun h => h.2.2⟩

theorem errors_eq_nil {f : ConfigValues} : f.errors = [] ↔ Ok f := by
  simp only [ConfigValues.errors, portErrors, safeEndpointErrors, safeNamespaceErrors,
    publishPrefixErrors, List.append_eq_nil_iff, Trust.check_eq_nil, decide_eq_true_eq,
    safeEndpointsErrors_eq_nil, Bool.or_eq_true, beq_iff_eq]
  constructor
  · rintro ⟨⟨⟨⟨⟨⟨⟨⟨h1, h2⟩, h3⟩, h4⟩, h5⟩, h6⟩, h7⟩, h8⟩, h9⟩
    exact ⟨h1, h2, h3, h4, h5, h6, h7, h8, h9⟩
  · rintro ⟨h1, h2, h3, h4, h5, h6, h7, h8, h9⟩
    exact ⟨⟨⟨⟨⟨⟨⟨⟨h1, h2⟩, h3⟩, h4⟩, h5⟩, h6⟩, h7⟩, h8⟩, h9⟩

theorem ok : Ok f.toConfigValues := errors_eq_nil.mp f.valid

end ConfigFields

/-! ## Decoding a document -/

/-- The conversions of leaves that are not plain: the lax parsers of pydantic for a field
of type `int` or `bool`, and `float(v)` of a number, `none` for its `OverflowError`. -/
structure Leaves where
  int : PyJson → Option Int
  bool : PyJson → Option Bool
  float : PyJson → Option PyFloat

/-- `ConfigFields.model_validate`.  Keys that are not fields are ignored. -/
def configModelValidate (P : Leaves) (document : PyJson) : Option ConfigFields := do
  require document.isDict
  let mtlsPort ← (document.get? "mtls_port").bind P.int
  let localTcpPort ← (document.get? "local_tcp_port").bind P.int
  let fabricEndpoint ← (document.get? "fabric_endpoint").bind PyJson.str?
  let partnerNamespace ← (document.get? "partner_namespace").bind PyJson.str?
  let inboundNamespace ← (document.get? "inbound_namespace").bind PyJson.str?
  let namespacePrefix ← (document.get? "namespace_prefix").bind PyJson.str?
  let publishPrefix ← (document.get? "publish_prefix").bind PyJson.str?
  let verifyNameOnConnect ← (document.get? "verify_name_on_connect").bind P.bool
  let pluginsLoadingEnabled ← (document.get? "plugins_loading_enabled").bind P.bool
  let fabricEndpoints ←
    (document.getD "fabric_endpoints" (.list [])).list?.bind (·.mapM PyJson.str?)
  let fabricTlsProfile ←
    (document.getD "fabric_tls_profile" (.str "efdi")).str?.bind TlsProfile.ofValue
  let enableQuic ← P.bool (document.getD "enable_quic" (.bool false))
  let quicPort ← P.int (document.getD "quic_port" (.int 7449))
  let values : ConfigValues :=
    { mtlsPort, localTcpPort, fabricEndpoint, partnerNamespace, inboundNamespace,
      namespacePrefix, publishPrefix, verifyNameOnConnect, pluginsLoadingEnabled,
      fabricEndpoints, fabricTlsProfile, enableQuic, quicPort }
  values.validate.toOption

end Efdi
