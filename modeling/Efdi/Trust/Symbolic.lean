import Efdi.Trust.Chain
import Mathlib.Tactic.IntervalCases

/-!
# A symbolic public key infrastructure

The assumptions on the cryptography have a model.  A registry lists the certificates
that exist and the messages that were signed.  A certificate is a number in the
registry; its fingerprint is that number in hexadecimal, padded to the length of a
digest, and its PEM text is its fingerprint.  A signature verifies when the registry
lists it, so it cannot be forged.

`Registry.libs_abstract` says that every registry meets `Libs.Abstract`.
-/

namespace Efdi.Trust

/-- What a certificate of the registry says. -/
structure CertInfo where
  subject : String
  issuer : String
  /-- The public key of the subject. -/
  key : Nat
  /-- The key the certificate is signed with. -/
  signedBy : Nat
  isCa : Bool
  /-- The URI name of the subject. -/
  identity : String
  notBefore : Int
  notAfter : Int

/-- The certificates that exist and the messages that were signed, with the text and
the key of each signature. -/
structure Registry where
  certs : List CertInfo
  signatures : List (String × Nat × SignedBytes)
  bounded : certs.length ≤ 16

namespace Registry

/-- The sixteen hexadecimal digits. -/
def hexDigits : List Char :=
  ['0', '1', '2', '3', '4', '5', '6', '7', '8', '9', 'a', 'b', 'c', 'd', 'e', 'f']

/-- A digest of 64 digits that ends in a given one. -/
def digest (n : Nat) : String :=
  String.ofList (List.replicate 63 '0' ++ [hexDigits.getD n 'f'])

theorem digest_hex {n : Nat} (h : n < 16) : fingerprintOk (digest n) = true := by
  simp only [fingerprintOk, PyStr.classMatch, PyStr.len, digest, String.toList_ofList]
  interval_cases n <;> rfl

theorem digest_inj {m n : Nat} (hm : m < 16) (hn : n < 16) (h : digest m = digest n) :
    m = n := by
  have hdigit : hexDigits.getD m 'f' = hexDigits.getD n 'f' := by
    have hlist := congrArg String.toList h
    rw [digest, digest, String.toList_ofList, String.toList_ofList] at hlist
    exact List.singleton_inj.mp (List.append_cancel_left hlist)
  have hinj : ∀ i j : Fin 16, hexDigits.getD i 'f' = hexDigits.getD j 'f' → i = j := by decide
  exact congrArg Fin.val (hinj ⟨m, hm⟩ ⟨n, hn⟩ hdigit)

/-- Two decimal digits. -/
def twoDigits (n : Nat) : String :=
  String.ofList [hexDigits.getD (n / 10) '9', hexDigits.getD (n % 10) '9']

/-- The text of one of the first sixty seconds of the time line. -/
def timeText (zone : String) (t : Int) : String :=
  "1970-01-01T00:00:" ++ twoDigits t.toNat ++ zone

/-- Read the text of one of the first sixty seconds. -/
def parseTime (text : String) : Option ParsedTime :=
  match (PyStr.drop 17 text).toList with
  | c :: d :: _ =>
    let t : Int := 10 * hexDigits.idxOf c + hexDigits.idxOf d
    if timeText "Z" t == text then some ⟨t, true⟩ else none
  | _ => none

/-- The registry lists a signature by a key over a message. -/
def lists (R : Registry) (key : Nat) (text : String) (bytes : SignedBytes) : Bool :=
  decide ((text, key, bytes) ∈ R.signatures)

theorem mem_of_lists {R : Registry} {key : Nat} {text : String} {bytes : SignedBytes}
    (h : R.lists key text bytes = true) : (text, key, bytes) ∈ R.signatures :=
  of_decide_eq_true h

/-- The third-party code on the certificates and the signatures of a registry. -/
def libs (R : Registry) : Libs where
  Cert := Fin R.certs.length
  Key := Nat
  Sig := String
  loadPem pem := (List.finRange R.certs.length).find? fun c => digest c == pem
  certificateSha256 c := digest c
  subject c := (R.certs.get c).subject
  issuer c := (R.certs.get c).issuer
  notValidBefore c := (R.certs.get c).notBefore
  notValidAfter c := (R.certs.get c).notAfter
  publicKey c := (R.certs.get c).key
  isEc _ := true
  isP256 _ := true
  basicConstraints c :=
    if (R.certs.get c).isCa then some ⟨true, some 8⟩ else some ⟨false, none⟩
  keyUsage c := some ⟨!(R.certs.get c).isCa, (R.certs.get c).isCa⟩
  extendedKeyUsage c := if (R.certs.get c).isCa then none else some [policySignerEku]
  uriNames c := some [(R.certs.get c).identity]
  commonNames c := [(R.certs.get c).subject]
  certSignedBy c key := (R.certs.get c).signedBy == key
  b64decode _ text := some text
  verify := R.lists
  strictJsonLoads _ := none
  parseUuid v := v.str?
  parseDatetime v := v.str?.bind parseTime
  isoformat := timeText "+00:00"
  dumpTime := timeText "Z"
  sha256 _ := digest 0

/-- The holder of a key signed the message. -/
def Signed (R : Registry) (key : R.libs.Key) (bytes : SignedBytes) : Prop :=
  ∃ text, (text, key, bytes) ∈ R.signatures

variable (R : Registry)

theorem lt_of_cert (c : R.libs.Cert) : c.val < 16 := lt_of_lt_of_le c.isLt R.bounded

/-- A registry has injective fingerprints and signatures that cannot be forged. -/
theorem libs_abstract : R.libs.Abstract R.Signed where
  fingerprint_hex c := digest_hex (R.lt_of_cert c)
  fingerprint_inj := by
    intro c d h
    exact Fin.ext (digest_inj (R.lt_of_cert c) (R.lt_of_cert d) h)
  unforgeable _ text _ h := ⟨text, mem_of_lists h⟩

/-! ## A root with one child -/

def rootIdentity : String := "spiffe://efdi/router/r/hq"

def childIdentity : String := "spiffe://efdi/router/r/hq/c"

/-- The CA and the policy signer of the root, and those of its child. -/
def familyCerts : List CertInfo :=
  [{ subject := "r", issuer := "r", key := 0, signedBy := 0, isCa := true,
     identity := rootIdentity, notBefore := 0, notAfter := 50 },
   { subject := "rp", issuer := "r", key := 1, signedBy := 0, isCa := false,
     identity := rootIdentity, notBefore := 0, notAfter := 50 },
   { subject := "c", issuer := "r", key := 2, signedBy := 0, isCa := true,
     identity := childIdentity, notBefore := 0, notAfter := 50 },
   { subject := "cp", issuer := "r", key := 3, signedBy := 0, isCa := false,
     identity := childIdentity, notBefore := 0, notAfter := 50 }]

/-- A grant of the root to its child, over a namespace. -/
def familyGrant (namespace_ : String) : GrantFields where
  id := "00000000-0000-4000-8000-000000000001"
  issuerIdentity := rootIdentity
  subjectCaSha256 := digest 2
  subjectIdentity := childIdentity
  namespace_
  roles := [.router]
  publish := [namespace_]
  subscribe := []
  control := [.topology, .status]
  maxDelegationDepth := 1
  sequence := 1
  notBefore := 0
  notAfter := 40

theorem length_familyCerts : familyCerts.length ≤ 16 := by decide

/-- A grant inside the scope of the root. -/
def insideGrant : DelegationGrant := ⟨familyGrant "LTU/CISB/**", by decide +kernel⟩

/-- A grant outside the scope of the root. -/
def outsideGrant : DelegationGrant := ⟨familyGrant "EST/**", by decide +kernel⟩

/-- The registry of a root that signed a grant. -/
def family (grant : DelegationGrant) : Registry where
  certs := familyCerts
  signatures :=
    let unsigned : Registry := ⟨familyCerts, [], length_familyCerts⟩
    [("c2lnbmF0dXJl", 1, grantBytes unsigned.libs grant)]
  bounded := length_familyCerts

/-- The registry with more signed messages. -/
def sign (R : Registry) (signatures : List (String × Nat × SignedBytes)) : Registry :=
  { R with signatures := R.signatures ++ signatures }

/-- The envelope of the grant, signed by the root. -/
def familyEnvelope (grant : DelegationGrant) : PyJson :=
  .dict [("schema", .str "efdi.delegation-envelope/v1"),
    ("payload", canonicalGrant (family grant).libs grant),
    ("signature", .str "c2lnbmF0dXJl"),
    ("signer_certificate", .str (digest 1)),
    ("signer_sha256", .str (digest 1))]

/-- The root as a trusted authority. -/
def familyRoot : TrustAuthority where
  id := 0
  identityUri := rootIdentity
  namespaceScope := "LTU/**"
  caFingerprint := digest 0
  caCertPem := digest 0
  policySignerFingerprint := some (digest 1)
  policySignerCertPem := some (digest 1)
  parentId := none
  maxDelegationDepth := 2
  state := .active
  notAfter := 50

/-- A trust store that holds the root only. -/
def familyStore : Db := { Db.empty with authorities := [familyRoot], nextId := 1 }

/-- The child as an authority of the store. -/
def familyChild : TrustAuthority where
  id := 1
  identityUri := childIdentity
  namespaceScope := "LTU/CISB/**"
  caFingerprint := digest 2
  caCertPem := digest 2
  policySignerFingerprint := some (digest 3)
  policySignerCertPem := some (digest 3)
  parentId := some 0
  maxDelegationDepth := 1
  state := .active
  notAfter := 40

/-- A store in which the child was enrolled, with its row for status reports. -/
def enrolledStore : Db :=
  { Db.empty with
    authorities := [familyRoot, familyChild]
    invitations :=
      [{ id := 2, tokenHash := digest 4, childName := "c", namespace_ := "hq/c",
         maxDelegationDepth := 1, expiresAt := 30, usedAt := some 1, caCsrSha256 := none,
         transportCsrSha256 := none, policyCsrSha256 := none, authorityId := some 1 }]
    children :=
      [{ id := 3, name := "c", namespace_ := "hq/c", lastStatus := none,
         lastStatusVersion := none, lastStatusAt := none, lastStatusError := none,
         certSha256 := none, maxDelegationDepth := 1 }]
    nextId := 4 }

/-- The proof of the child, from the root. -/
def familyProof (grant : DelegationGrant) : PyJson :=
  .dict [("schema", .str "efdi.trust-chain/v1"),
    ("anchor", .dict [("identity_uri", .str rootIdentity), ("namespace_scope", .str "LTU/**"),
      ("ca_sha256", .str (digest 0)), ("ca_certificate", .str (digest 0)),
      ("policy_signer_sha256", .str (digest 1)), ("policy_signer_certificate", .str (digest 1)),
      ("max_delegation_depth", .int 2), ("not_after", .str (timeText "+00:00" 50))]),
    ("steps", .list [.dict [("delegation_envelope", familyEnvelope grant),
      ("subject_ca_certificate", .str (digest 2)),
      ("subject_policy_signer_certificate", .str (digest 3))]])]

/-- The proof of a child inside the scope of its root verifies. -/
theorem familyProof_verifies :
    (verifyTrustChain (family insideGrant).libs (familyProof insideGrant) familyRoot [] 5).isOk =
      true := by
  decide +kernel

end Registry

end Efdi.Trust
