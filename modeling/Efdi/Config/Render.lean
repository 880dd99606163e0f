import Efdi.Base.Json5Template
import Efdi.Config.Extract

/-!
# Rendering a config

`_render_config` of `config.py` and the template it fills,
`examples/zenoh-router.json5.tmpl`.  A parent renders the fields for a child and signs
the text.

`routerTree` is the syntax tree of the template with its holes, and
`lex_routerTemplate` says that the template spells it.  What a rendered text is read as
then follows for all fields at once: `loads_renderConfig`.
-/

namespace Efdi

open Checks
open Json5 (Library Symbol symbols)
open Template (Piece)

/-! ## Values of the placeholders -/

/-- `_data_topic_root`. -/
def dataTopicRoot (publishPrefix partnerNamespace : String) : String :=
  PyStr.join "/" ([PyStr.stripChar '/' publishPrefix, PyStr.stripChar '/' partnerNamespace].filter
    (· != ""))

namespace ConfigFields

/-- The endpoints that are rendered: the list, or else the one of older clients. -/
def endpoints (f : ConfigFields) : List String :=
  if f.fabricEndpoints ≠ [] then f.fabricEndpoints
  else if f.fabricEndpoint ≠ "" then [f.fabricEndpoint]
  else []

/-- A QUIC listener is rendered.  Without certificates there is none. -/
def rendersQuic (f : ConfigFields) : Bool := f.enableQuic && !f.fabricTlsProfile.plaintext

/-- The listeners that are rendered. -/
def listeners (f : ConfigFields) : List String :=
  [(if f.fabricTlsProfile.plaintext then "tcp" else "tls") ++ "/0.0.0.0:" ++ toString f.mtlsPort,
    "tcp/127.0.0.1:" ++ toString f.localTcpPort] ++
    if f.rendersQuic then ["quic/0.0.0.0:" ++ toString f.quicPort] else []

/-- `subs` of `_render_config`. -/
def substitutions (J : Library) (f : ConfigFields) : List (String × String) :=
  [("ZENOH_LISTEN_ENDPOINTS", J.dumps f.listeners),
    ("ZENOH_LOCAL_TCP_PORT", toString f.localTcpPort),
    ("ZENOH_CONNECT_ENDPOINTS", J.dumps f.endpoints),
    ("PARTNER_NAMESPACE", f.partnerNamespace),
    ("INBOUND_NAMESPACE", f.inboundNamespace),
    ("NAMESPACE_PREFIX", f.namespacePrefix),
    ("NAMESPACE_ROOT", (PyStr.split '/' f.namespacePrefix).head?.getD ""),
    ("DATA_TOPIC_ROOT", dataTopicRoot f.publishPrefix f.partnerNamespace),
    ("ZENOH_VERIFY_NAME_ON_CONNECT", if f.verifyNameOnConnect then "true" else "false"),
    ("ZENOH_PLUGINS_LOADING_ENABLED", if f.pluginsLoadingEnabled then "true" else "false"),
    ("LISTEN_CERT_PEM", f.fabricTlsProfile.listenCertificate),
    ("LISTEN_KEY_PEM", f.fabricTlsProfile.listenPrivateKey),
    ("CONNECT_CERT_PEM", f.fabricTlsProfile.connectCertificate),
    ("CONNECT_KEY_PEM", f.fabricTlsProfile.connectPrivateKey),
    ("CA_ROOTS_PEM", f.fabricTlsProfile.rootCa)]

end ConfigFields

/-! ## The template -/

/-- The template.  Of its comments those with a placeholder are kept, which a value could
break out of.  A brace is written `\x7b` or `\x7d`. -/
def routerTemplate : String :=
"// Rendered by host/first-boot.sh via `envsubst` into $\x7bPOD_STATE_DIR\x7d/zenoh/config.json5.
//   $\x7bZENOH_LOCAL_TCP_PORT\x7d   plaintext TCP listen port for local-only clients (bridges, zenoh-admin GUI)
//   $\x7bZENOH_LISTEN_ENDPOINTS\x7d JSON array of the listen endpoints — mesh-facing port first
//   $\x7bZENOH_CONNECT_ENDPOINTS\x7d JSON list containing the explicitly configured remote endpoints
//   $\x7bPARTNER_NAMESPACE\x7d      the pod's first-party write/read prefix (its slot, or release/<partner>)
//   $\x7bINBOUND_NAMESPACE\x7d      the bilateral prefix the fabric publishes TO the pod (compose/.env-driven)
//   $\x7bNAMESPACE_PREFIX\x7d       deployment prefix (variable depth); pod writes under $\x7bNAMESPACE_PREFIX\x7d/$\x7bPARTNER_NAMESPACE\x7d
//   $\x7bNAMESPACE_ROOT\x7d         first segment of the prefix; scopes mesh-wide federation/topology wildcards
//   $\x7bDATA_TOPIC_ROOT\x7d        runtime data publish root; may be the slot itself on the EFDI sandbox
//   $\x7bLISTEN_CERT_PEM\x7d        selected local listener certificate
//   $\x7bLISTEN_KEY_PEM\x7d         selected local listener key
//   $\x7bCONNECT_CERT_PEM\x7d       selected outbound connector certificate
//   $\x7bCONNECT_KEY_PEM\x7d        selected outbound connector key
//   $\x7bCA_ROOTS_PEM\x7d           selected fabric trust roots
//   $\x7bZENOH_VERIFY_NAME_ON_CONNECT\x7d    true/false — verify the fabric endpoint's cert SAN against
//   $\x7bZENOH_PLUGINS_LOADING_ENABLED\x7d   true/false — whether the storage_manager plugin loads at all
\x7b
  mode: \"router\",
  listen: \x7b
    endpoints: $\x7bZENOH_LISTEN_ENDPOINTS\x7d,
  \x7d,
  connect: \x7b
    endpoints: $\x7bZENOH_CONNECT_ENDPOINTS\x7d,
  \x7d,
  transport: \x7b
    link: \x7b
      tls: \x7b
        listen_certificate: \"$\x7bLISTEN_CERT_PEM\x7d\",
        listen_private_key: \"$\x7bLISTEN_KEY_PEM\x7d\",
        connect_certificate: \"$\x7bCONNECT_CERT_PEM\x7d\",
        connect_private_key: \"$\x7bCONNECT_KEY_PEM\x7d\",
        root_ca_certificate: \"$\x7bCA_ROOTS_PEM\x7d\",
        enable_mtls: true,
        verify_name_on_connect: $\x7bZENOH_VERIFY_NAME_ON_CONNECT\x7d,
        close_link_on_expiration: true,
      \x7d,
    \x7d,
  \x7d,
  plugins_loading: \x7b
    enabled: $\x7bZENOH_PLUGINS_LOADING_ENABLED\x7d,
    search_dirs: [\"/\", \"/lib\", \"/opt/zenoh/plugins\"],
  \x7d,
  plugins: \x7b
    storage_manager: \x7b
      storages: \x7b
        efdi_live: \x7b
          key_expr: \"$\x7bDATA_TOPIC_ROOT\x7d/**\",
          volume: \x7b id: \"memory\" \x7d,
        \x7d,
      \x7d,
    \x7d,
  \x7d,
  access_control: \x7b
    enabled: true,
    default_permission: \"deny\",
    rules: [
      \x7b
        id: \"pod-firstparty\",
        messages: [\"put\", \"delete\", \"declare_subscriber\", \"query\", \"declare_queryable\", \"reply\"],
        flows: [\"egress\", \"ingress\"],
        permission: \"allow\",
        key_exprs: [\"$\x7bDATA_TOPIC_ROOT\x7d/**\"],
      \x7d,
      \x7b
        // Prefix is compose/.env-driven ($\x7bINBOUND_NAMESPACE\x7d), never hardcoded to a stack.
        id: \"pod-inbound\",
        messages: [\"declare_subscriber\", \"query\", \"put\", \"reply\"],
        flows: [\"egress\", \"ingress\"],
        permission: \"allow\",
        key_exprs: [\"$\x7bINBOUND_NAMESPACE\x7d/**\"],
      \x7d,
      \x7b
        id: \"pod-admin-introspect\",
        messages: [\"query\", \"reply\"],
        flows: [\"egress\", \"ingress\"],
        permission: \"allow\",
        key_exprs: [\"@/**\"],
      \x7d,
      \x7b
        // $\x7bNAMESPACE_PREFIX\x7d/$\x7bPARTNER_NAMESPACE\x7d/** coverage (Zenoh doesn't match
        id: \"pod-federation-config\",
        messages: [\"put\", \"declare_subscriber\"],
        flows: [\"egress\", \"ingress\"],
        permission: \"allow\",
        key_exprs: [\"$\x7bNAMESPACE_ROOT\x7d/**/@config/v1\", \"$\x7bNAMESPACE_ROOT\x7d/**/@config/relay/v1\", \"$\x7bNAMESPACE_ROOT\x7d/**/@config/status/v1\", \"$\x7bNAMESPACE_ROOT\x7d/**/@topology\"],
      \x7d,
      \x7b
        // local port every bridge uses ($\x7bZENOH_LOCAL_TCP_PORT\x7d), so it is
        id: \"pod-backbone-read\",
        messages: [\"put\", \"delete\", \"declare_subscriber\", \"query\", \"declare_queryable\", \"reply\"],
        flows: [\"egress\", \"ingress\"],
        permission: \"allow\",
        key_exprs: [\"**\"],
      \x7d,
      \x7b
        id: \"pod-advanced-pubsub-internals\",
        messages: [\"put\", \"delete\", \"declare_subscriber\", \"query\", \"declare_queryable\", \"reply\"],
        flows: [\"egress\", \"ingress\"],
        permission: \"allow\",
        key_exprs: [\"**/@adv/**\"],
      \x7d,
    ],
    subjects: [
      \x7b
        id: \"mtls-peer\",
        link_protocols: [\"tls\", \"quic\"],
      \x7d,
      \x7b
        id: \"local-tcp\",
        link_protocols: [\"tcp\"],
      \x7d,
    ],
    policies: [
      \x7b rules: [\"pod-firstparty\", \"pod-inbound\", \"pod-admin-introspect\", \"pod-federation-config\"], subjects: [\"mtls-peer\"] \x7d,
      \x7b rules: [\"pod-firstparty\", \"pod-inbound\", \"pod-admin-introspect\", \"pod-federation-config\", \"pod-backbone-read\", \"pod-advanced-pubsub-internals\"], subjects: [\"local-tcp\"] \x7d,
    ],
  \x7d,
\x7d
"

/-- The check for placeholders that are left over. -/
def checkResolved (rendered : String) : List String → Except String Unit
  | [] => .ok ()
  | key :: keys => do
      let placeholder := String.ofList (Template.placeholder key)
      rejectIf (PyStr.contains placeholder rendered)
        ("Template has unresolved placeholder: \\" ++ placeholder)
      checkResolved rendered keys

/-- `_render_config`.  The text of the JSON5 error is left out. -/
def renderConfig (J : Library) (f : ConfigFields) : Except String String := do
  let rendered := Template.replaceAll (f.substitutions J) routerTemplate
  checkResolved rendered ((f.substitutions J).map Prod.fst)
  rejectIf (J.loads rendered).isNone "Rendered config is invalid JSON5"
  return rendered

/-! ## The tree of the template -/

namespace RouterTree

/-- The holes that stand for whole values. -/
def values : List String :=
  ["ZENOH_LISTEN_ENDPOINTS", "ZENOH_CONNECT_ENDPOINTS", "ZENOH_VERIFY_NAME_ON_CONNECT",
    "ZENOH_PLUGINS_LOADING_ENABLED"]

/-- The holes inside strings and comments.  `POD_STATE_DIR` is left as it is. -/
def inline : List String :=
  ["POD_STATE_DIR", "ZENOH_LOCAL_TCP_PORT", "PARTNER_NAMESPACE", "INBOUND_NAMESPACE",
    "NAMESPACE_PREFIX", "NAMESPACE_ROOT", "DATA_TOPIC_ROOT", "LISTEN_CERT_PEM",
    "LISTEN_KEY_PEM", "CONNECT_CERT_PEM", "CONNECT_KEY_PEM", "CA_ROOTS_PEM"]

/-- The keys that are substituted. -/
def keys : List String :=
  ["ZENOH_LISTEN_ENDPOINTS", "ZENOH_LOCAL_TCP_PORT", "ZENOH_CONNECT_ENDPOINTS",
    "PARTNER_NAMESPACE", "INBOUND_NAMESPACE", "NAMESPACE_PREFIX", "NAMESPACE_ROOT",
    "DATA_TOPIC_ROOT", "ZENOH_VERIFY_NAME_ON_CONNECT", "ZENOH_PLUGINS_LOADING_ENABLED",
    "LISTEN_CERT_PEM", "LISTEN_KEY_PEM", "CONNECT_CERT_PEM", "CONNECT_KEY_PEM", "CA_ROOTS_PEM"]

theorem nodup_keys : keys.Nodup := by
  decide

theorem keys_plain : ∀ key ∈ keys, (Piece.hole key).plain = true := by
  decide

theorem inline_or_value : ∀ key ∈ keys, key ∈ inline ∨ key ∈ values := by
  decide

def chars (s : String) : List Symbol := s.toList.map .char

/-- A string without a hole. -/
def text (s : String) : Json5.Tree Symbol := .str (chars s)

/-- A string that starts with a hole. -/
def filled (key : String) (rest : String) : Json5.Tree Symbol := .str (.hole key :: chars rest)

def array (xs : List (Json5.Tree Symbol)) : Json5.Tree Symbol := .list xs false

def texts (xs : List String) : Json5.Tree Symbol := array (xs.map text)

def member (key : String) (t : Json5.Tree Symbol) : List Char × Json5.Tree Symbol := (key.toList, t)

/-- An object over several lines, which ends in a comma. -/
def block (members : List (List Char × Json5.Tree Symbol)) : Json5.Tree Symbol := .dict members true

/-- A rule of the access control. -/
def rule (id : String) (messages : List String) (keyExprs : List (Json5.Tree Symbol)) :
    Json5.Tree Symbol :=
  block
    [member "id" (text id),
      member "messages" (texts messages),
      member "flows" (texts ["egress", "ingress"]),
      member "permission" (text "allow"),
      member "key_exprs" (array keyExprs)]

def subject (id : String) (protocols : List String) : Json5.Tree Symbol :=
  block [member "id" (text id), member "link_protocols" (texts protocols)]

def policy (rules subjects : List String) : Json5.Tree Symbol :=
  .dict [member "rules" (texts rules), member "subjects" (texts subjects)] false

def listen : Json5.Tree Symbol := block [member "endpoints" (.hole (.hole "ZENOH_LISTEN_ENDPOINTS"))]

def connect : Json5.Tree Symbol :=
  block [member "endpoints" (.hole (.hole "ZENOH_CONNECT_ENDPOINTS"))]

def tls : Json5.Tree Symbol :=
  block
    [member "listen_certificate" (filled "LISTEN_CERT_PEM" ""),
      member "listen_private_key" (filled "LISTEN_KEY_PEM" ""),
      member "connect_certificate" (filled "CONNECT_CERT_PEM" ""),
      member "connect_private_key" (filled "CONNECT_KEY_PEM" ""),
      member "root_ca_certificate" (filled "CA_ROOTS_PEM" ""),
      member "enable_mtls" (.bool true),
      member "verify_name_on_connect" (.hole (.hole "ZENOH_VERIFY_NAME_ON_CONNECT")),
      member "close_link_on_expiration" (.bool true)]

def link : Json5.Tree Symbol := block [member "tls" tls]

def transport : Json5.Tree Symbol := block [member "link" link]

def pluginsLoading : Json5.Tree Symbol :=
  block
    [member "enabled" (.hole (.hole "ZENOH_PLUGINS_LOADING_ENABLED")),
      member "search_dirs" (texts ["/", "/lib", "/opt/zenoh/plugins"])]

def live : Json5.Tree Symbol :=
  block
    [member "key_expr" (filled "DATA_TOPIC_ROOT" "/**"),
      member "volume" (.dict [member "id" (text "memory")] false)]

def storages : Json5.Tree Symbol := block [member "efdi_live" live]

def storageManager : Json5.Tree Symbol := block [member "storages" storages]

def plugins : Json5.Tree Symbol := block [member "storage_manager" storageManager]

def firstparty : Json5.Tree Symbol :=
  rule "pod-firstparty"
    ["put", "delete", "declare_subscriber", "query", "declare_queryable", "reply"]
    [filled "DATA_TOPIC_ROOT" "/**"]

def inbound : Json5.Tree Symbol :=
  rule "pod-inbound" ["declare_subscriber", "query", "put", "reply"]
    [filled "INBOUND_NAMESPACE" "/**"]

/-- The rules after those that `extractFields` looks at. -/
def otherRules : List (Json5.Tree Symbol) :=
  [rule "pod-admin-introspect" ["query", "reply"] [text "@/**"],
    rule "pod-federation-config" ["put", "declare_subscriber"]
      [filled "NAMESPACE_ROOT" "/**/@config/v1",
        filled "NAMESPACE_ROOT" "/**/@config/relay/v1",
        filled "NAMESPACE_ROOT" "/**/@config/status/v1",
        filled "NAMESPACE_ROOT" "/**/@topology"],
    rule "pod-backbone-read"
      ["put", "delete", "declare_subscriber", "query", "declare_queryable", "reply"] [text "**"],
    rule "pod-advanced-pubsub-internals"
      ["put", "delete", "declare_subscriber", "query", "declare_queryable", "reply"]
      [text "**/@adv/**"]]

def subjects : Json5.Tree Symbol :=
  .list [subject "mtls-peer" ["tls", "quic"], subject "local-tcp" ["tcp"]] true

def policies : Json5.Tree Symbol :=
  .list
    [policy ["pod-firstparty", "pod-inbound", "pod-admin-introspect", "pod-federation-config"]
        ["mtls-peer"],
      policy
        ["pod-firstparty", "pod-inbound", "pod-admin-introspect", "pod-federation-config",
          "pod-backbone-read", "pod-advanced-pubsub-internals"]
        ["local-tcp"]] true

def accessControl : Json5.Tree Symbol :=
  block
    [member "enabled" (.bool true),
      member "default_permission" (text "deny"),
      member "rules" (.list (firstparty :: inbound :: otherRules) true),
      member "subjects" subjects,
      member "policies" policies]

end RouterTree

open RouterTree in
/-- The tree of the template. -/
def routerTree : Json5.Tree Symbol :=
  block
    [member "mode" (text "router"),
      member "listen" listen,
      member "connect" connect,
      member "transport" transport,
      member "plugins_loading" pluginsLoading,
      member "plugins" plugins,
      member "access_control" accessControl]

theorem distinct_routerTree : routerTree.distinct = true := by
  decide +kernel

/-- The namespaces in the order in which the template mentions them: the keys before each,
and the length of the name that its line goes on with, blanks included. -/
def RouterTree.namespaces : List (String × List String × Nat) :=
  [("PARTNER_NAMESPACE", ["POD_STATE_DIR", "ZENOH_LOCAL_TCP_PORT"], 10),
    ("INBOUND_NAMESPACE", ["POD_STATE_DIR", "ZENOH_LOCAL_TCP_PORT", "PARTNER_NAMESPACE"], 10),
    ("NAMESPACE_PREFIX",
      ["POD_STATE_DIR", "ZENOH_LOCAL_TCP_PORT", "PARTNER_NAMESPACE", "INBOUND_NAMESPACE"], 18)]

set_option maxRecDepth 20000 in
/-- The template spells its tree.  Its dollar signs are those of its placeholders, and each
namespace is first mentioned in a comment that goes on with a name. -/
theorem routerTemplate_spells : ∃ cs, routerTemplate = String.ofList cs ∧
    (∀ p ∈ Template.pieces cs, p.plain = true) ∧
    Json5.lex (Symbol.kind RouterTree.values RouterTree.inline) .char .plain
      (symbols (Template.pieces cs)) = (routerTree.tokens, some .plain) ∧
    ∀ entry ∈ RouterTree.namespaces, Json5.breaksAt RouterTree.values entry.2.1
      (symbols (Template.pieces cs)) entry.1 entry.2.2 = true :=
  ⟨_, rfl, by decide +kernel, by decide +kernel, by decide +kernel⟩

end Efdi
