import Efdi.Base.AccessControl
import Efdi.Base.Checks
import Efdi.Base.PyJson
import Efdi.Trust.Types
import Mathlib.Data.List.Dedup
import Mathlib.Data.List.Sort

/-!
# The access control compiler

`PeerPolicy` and `compile_acl` of `acl_policy.py`.  A peer policy is a record that passed
`__post_init__`, so its scopes parse.  The compiler goes over the peers in a fixed order and
appends a subject, a policy and the rules of each to what it has.

What a compilation that succeeds produces is one block for the loopback subject and one for
each peer (`compileAcl_config`), and no two peers present one certificate name.
-/

namespace Efdi.Acl

open AccessControl (Rule Subject Config Block ofBlocks Permission)
open Checks
open Trust (parseKeyScope ScopeOk)

/-! ## The vocabulary of the router -/

inductive Message where
  | put
  | delete
  | declareSubscriber
  | query
  | declareQueryable
  | reply
  | livelinessToken
  | livelinessQuery
  | declareLivelinessSubscriber
deriving DecidableEq, Repr

def Message.value : Message → String
  | .put => "put"
  | .delete => "delete"
  | .declareSubscriber => "declare_subscriber"
  | .query => "query"
  | .declareQueryable => "declare_queryable"
  | .reply => "reply"
  | .livelinessToken => "liveliness_token"
  | .livelinessQuery => "liveliness_query"
  | .declareLivelinessSubscriber => "declare_liveliness_subscriber"

/-- `_ALL_MESSAGES`. -/
def allMessages : List Message :=
  [.put, .delete, .declareSubscriber, .query, .declareQueryable, .reply, .livelinessToken,
    .livelinessQuery, .declareLivelinessSubscriber]

inductive Flow where
  | ingress
  | egress
deriving DecidableEq, Repr

def Flow.value : Flow → String
  | .ingress => "ingress"
  | .egress => "egress"

/-- The attributes that a subject can list. -/
inductive Attribute where
  | certCommonNames
  | usernames
  | linkProtocols
deriving DecidableEq, Repr

def Attribute.value : Attribute → String
  | .certCommonNames => "cert_common_names"
  | .usernames => "usernames"
  | .linkProtocols => "link_protocols"

abbrev AclRule := Rule Message Flow String

abbrev AclSubject := Subject Attribute String

abbrev AclConfig := Config Message Flow String Attribute String

abbrev AclBlock := Block Message Flow String Attribute String

/-- The standard library code that the compiler calls. -/
structure AclLibs where
  /-- `hashlib.sha256(text.encode()).hexdigest()`. -/
  sha256 : String → String
  /-- `json.dumps` with sorted keys and without blanks. -/
  dumps : PyJson → String
  sha256_len : ∀ text, PyStr.len (sha256 text) = 64

/-- Digests that keep the text and fill it up. -/
def paddedLibs : AclLibs where
  sha256 text := PyStr.take 64 (text ++ String.ofList (List.replicate 64 '0'))
  dumps _ := ""
  sha256_len text := by simp [PyStr.len, PyStr.take]

variable (L : AclLibs)

/-! ## Peers -/

inductive Relationship where
  | child
  | parent
deriving DecidableEq, Repr

def Relationship.value : Relationship → String
  | .child => "child"
  | .parent => "parent"

structure PeerFields where
  grantId : String
  identityUri : String
  certCommonName : String
  username : String
  relationship : Relationship
  namespace_ : String
  publish : List String
  subscribe : List String
  quarantined : Bool
deriving DecidableEq

/-- The characters of a certificate common name. -/
def commonNameChar (c : Char) : Bool :=
  c.isAlphanum || c == '.' || c == '_' || c == '/' || c == '-'

/-- The characters of a link username and of a federation root. -/
def usernameChar (c : Char) : Bool := c.isAlphanum || c == '.' || c == '_' || c == '-'

/-- `parse_key_scope` called for its error. -/
def requireScope (expression : String) : Except String Unit :=
  (parseKeyScope expression).map fun _ => ()

/-- `__post_init__`. -/
def PeerFields.check (peer : PeerFields) : Except String Unit := do
  rejectIf (!PyStr.classMatch commonNameChar 1 255 peer.certCommonName)
    "certificate common name is invalid"
  rejectIf (!PyStr.classMatch usernameChar 1 128 peer.username) "link username is invalid"
  requireScope peer.namespace_
  (peer.publish ++ peer.subscribe).forM requireScope

/-- A peer whose checks all passed. -/
structure PeerPolicy extends PeerFields where
  valid : toPeerFields.check = .ok ()
deriving DecidableEq

/-- The key peers are sorted by: the relationship, then the identity. -/
def PeerPolicy.le (a b : PeerPolicy) : Prop :=
  a.relationship.value < b.relationship.value ∨
    (a.relationship.value = b.relationship.value ∧ a.identityUri ≤ b.identityUri)

instance : DecidableRel PeerPolicy.le := fun a b => by
  unfold PeerPolicy.le
  infer_instance

/-! ## The compiler -/

/-- `_stable_id`. -/
def stableId (prefix_ grantId : String) : String :=
  prefix_ ++ "-" ++ PyStr.take 20 (L.sha256 grantId)

/-- `sorted(set(key_exprs))`. -/
def sortedSet (keyExprs : List String) : List String := keyExprs.dedup.insertionSort (· ≤ ·)

/-- `_rule`. -/
def rule (identifier : String) (messages : List Message) (flows : List Flow)
    (keyExprs : List String) (permission : Permission) : AclRule :=
  ⟨identifier, messages, flows, permission, sortedSet keyExprs⟩

/-- The rules of the loopback subject. -/
def localRules (localDataScope inboundScope federationRoot : String) : List AclRule :=
  [rule "local-data"
    [.put, .delete, .declareSubscriber, .query, .declareQueryable, .reply] [.ingress, .egress]
    [localDataScope] .allow,
   rule "local-inbound" [.put, .declareSubscriber, .query, .reply] [.ingress, .egress]
    [inboundScope] .allow,
   rule "local-admin-read" [.query, .reply] [.ingress, .egress] ["@/**"] .allow,
   rule "local-federation" [.put, .declareSubscriber] [.ingress, .egress]
    [federationRoot ++ "/**/@config/v1", federationRoot ++ "/**/@config/relay/v1",
      federationRoot ++ "/**/@config/status/v1", federationRoot ++ "/**/@topology"] .allow]

/-- What the loop over the peers carries. -/
structure Compilation where
  rules : List AclRule
  subjects : List AclSubject
  policies : List AccessControl.Policy
  seenUsernames : List String
  seenCns : List String

/-- The state of the loop before the first peer. -/
def Compilation.initial (localDataScope inboundScope federationRoot : String) : Compilation where
  rules := localRules localDataScope inboundScope federationRoot
  subjects := [⟨"local-tcp", [(.linkProtocols, ["tcp"])]⟩]
  policies := [⟨"local-policy",
    (localRules localDataScope inboundScope federationRoot).map (·.id), ["local-tcp"]⟩]
  seenUsernames := []
  seenCns := []

/-- A row of `definitions`. -/
structure RuleDefinition where
  suffix : String
  messages : List Message
  flows : List Flow
  scopes : List String

/-- `definitions` for a child. -/
def childDefinitions (peer : PeerPolicy) : List RuleDefinition :=
  let own := PyStr.removeSuffix peer.namespace_ "/**"
  [⟨"publish", [.put, .delete], [.ingress], peer.publish⟩,
   ⟨"publish-interest", [.declareSubscriber, .query], [.egress], peer.publish⟩,
   ⟨"subscribe-declare", [.declareSubscriber, .query], [.ingress], peer.subscribe⟩,
   ⟨"subscribe-deliver", [.put, .reply], [.egress], peer.subscribe⟩,
   ⟨"control-in", [.put], [.ingress], [own ++ "/@config/status/v1", own ++ "/@topology"]⟩,
   ⟨"control-out", [.put, .declareSubscriber], [.egress],
    [own ++ "/@config/v1", own ++ "/@config/relay/v1"]⟩]

variable (localNamespace : String)

/-- `definitions` for the parent. -/
def parentDefinitions (peer : PeerPolicy) : List RuleDefinition :=
  [⟨"own-publish", [.put, .delete], [.egress], peer.publish⟩,
   ⟨"own-publish-interest", [.declareSubscriber, .query], [.ingress], peer.publish⟩,
   ⟨"approved-in", [.put, .reply], [.ingress], peer.subscribe⟩,
   ⟨"approved-declare", [.declareSubscriber, .query], [.egress], peer.subscribe⟩,
   ⟨"control-in", [.put, .declareSubscriber], [.ingress],
    [localNamespace ++ "/@config/v1", localNamespace ++ "/@config/relay/v1"]⟩,
   ⟨"control-out", [.put], [.egress],
    [localNamespace ++ "/@config/status/v1", localNamespace ++ "/@topology"]⟩]

def definitions (peer : PeerPolicy) : List RuleDefinition :=
  match peer.relationship with
  | .child => childDefinitions peer
  | .parent => parentDefinitions localNamespace peer

/-- The rules of the definitions that have scopes. -/
def definedRules (stem : String) (rows : List RuleDefinition) : List AclRule :=
  (rows.filter (!·.scopes.isEmpty)).map fun row =>
    rule (stem ++ "-" ++ row.suffix) row.messages row.flows row.scopes .allow

/-- The subject of a peer.  A child is known by its certificate and its username, the parent by
its certificate alone. -/
def peerSubject (peer : PeerPolicy) : AclSubject :=
  ⟨stableId L "peer" peer.grantId ++ "-identity",
    match peer.relationship with
    | .child =>
      [(.certCommonNames, [peer.certCommonName]), (.usernames, [peer.username])]
    | .parent => [(.certCommonNames, [peer.certCommonName])]⟩

/-- The rules of a peer. -/
def peerRules (peer : PeerPolicy) : List AclRule :=
  if peer.quarantined then
    [rule (stableId L "peer" peer.grantId ++ "-quarantine") allMessages [.ingress, .egress]
      ["**"] .deny]
  else definedRules (stableId L "peer" peer.grantId) (definitions localNamespace peer)

/-- The body of the loop over the peers. -/
def compilePeer (st : Compilation) (peer : PeerPolicy) :
    Except String Compilation := do
  rejectIf (peer.relationship == .child && st.seenUsernames.contains peer.username)
    "link username is assigned to more than one child"
  rejectIf (st.seenCns.contains peer.certCommonName)
    "certificate common name is assigned to more than one direct peer"
  return {
    rules := st.rules ++ peerRules L localNamespace peer
    subjects := st.subjects ++ [peerSubject L peer]
    policies := st.policies ++
      [⟨stableId L "peer" peer.grantId ++ "-policy",
        (peerRules L localNamespace peer).map (·.id), [(peerSubject L peer).id]⟩]
    seenUsernames :=
      match peer.relationship with
      | .child => peer.username :: st.seenUsernames
      | .parent => st.seenUsernames
    seenCns := peer.certCommonName :: st.seenCns }

/-! ## The document -/

def ruleJson (r : AclRule) : PyJson :=
  .dict [("flows", .list (r.flows.map fun f => .str f.value)), ("id", .str r.id),
    ("key_exprs", .list (r.keyExprs.map .str)),
    ("messages", .list (r.messages.map fun m => .str m.value)),
    ("permission", .str (match r.permission with | .allow => "allow" | .deny => "deny"))]

def subjectJson (s : AclSubject) : PyJson :=
  .dict (("id", .str s.id) :: s.attributes.map fun a => (a.1.value, .list (a.2.map .str)))

def policyJson (p : AccessControl.Policy) : PyJson :=
  .dict [("id", .str p.id), ("rules", .list (p.rules.map .str)),
    ("subjects", .list (p.subjects.map .str))]

/-- `access_control`. -/
def accessControl (c : AclConfig) : PyJson :=
  .dict [("default_permission", .str "deny"), ("enabled", .bool true),
    ("policies", .list (c.policies.map policyJson)), ("rules", .list (c.rules.map ruleJson)),
    ("subjects", .list (c.subjects.map subjectJson))]

/-- What the compiler returns. -/
structure CompiledAcl where
  config : AclConfig
  sha256 : String
  canonicalJson : String

/-- The result for the state the loop ends in. -/
def Compilation.compiled (st : Compilation) : CompiledAcl :=
  let config : AclConfig := ⟨st.rules, st.subjects, st.policies⟩
  { config, sha256 := L.sha256 (L.dumps (accessControl config)),
    canonicalJson := L.dumps (accessControl config) }

/-- Compile only direct, identity-bound peers plus the loopback subject. -/
def compileAcl (localDataScope inboundScope federationRoot localNamespace : String)
    (peers : List PeerPolicy) : Except String CompiledAcl := do
  requireScope localDataScope
  requireScope inboundScope
  rejectIf (!PyStr.classMatch usernameChar 1 128 federationRoot)
    "federation root must be one literal segment"
  let st ← (peers.insertionSort PeerPolicy.le).foldlM (compilePeer L localNamespace)
    (Compilation.initial localDataScope inboundScope federationRoot)
  return st.compiled L

end Efdi.Acl
