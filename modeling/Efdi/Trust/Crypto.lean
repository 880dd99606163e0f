import Efdi.Base.Checks
import Efdi.Models
import Efdi.Trust.Grant

/-!
# Certificates and signed grants

`Libs` is the third-party code the trust modules call: the certificate accessors and
the signature checks of `cryptography`, and the leaf parsers of pydantic.  A key
signs bytes that start with a domain string and go on with the canonical text of a
JSON value.  `SignedBytes` is that pair.

`verifyGrantEnvelope` is the strict parser of delegation envelopes in
`trust_crypto.py`.  `GrantVerified` is what it says about its result.
-/

namespace Efdi.Trust

open Checks

/-- The exceptions of the trust modules, by class. -/
inductive TrustError where
  | trustStore (message : String)
  | trustVerify (message : String)
  | valueError (message : String)
  | integrity (message : String)
deriving DecidableEq

/-- The bytes a signature is over: the domain and the canonical text of a value. -/
structure SignedBytes where
  domain : String
  body : PyJson
deriving DecidableEq

/-- The basic constraints of a certificate. -/
structure BasicConstraints where
  ca : Bool
  pathLength : Option Nat

/-- The two key usage bits that are read. -/
structure KeyUsage where
  digitalSignature : Bool
  keyCertSign : Bool

/-- A parsed timestamp, on the UTC time line when it names its offset. -/
structure ParsedTime where
  instant : Int
  aware : Bool

/-- The third-party code the trust modules call. -/
structure Libs where
  /-- X.509 certificates. -/
  Cert : Type
  /-- Public keys. -/
  Key : Type
  /-- Raw signatures. -/
  Sig : Type
  /-- `x509.load_pem_x509_certificate`, with `none` for its `ValueError`. -/
  loadPem : String → Option Cert
  /-- The SHA-256 fingerprint in lower case hexadecimal. -/
  certificateSha256 : Cert → String
  subject : Cert → String
  issuer : Cert → String
  notValidBefore : Cert → Int
  notValidAfter : Cert → Int
  publicKey : Cert → Key
  /-- The key is an elliptic curve key. -/
  isEc : Key → Bool
  /-- The curve is P-256. -/
  isP256 : Key → Bool
  basicConstraints : Cert → Option BasicConstraints
  keyUsage : Cert → Option KeyUsage
  extendedKeyUsage : Cert → Option (List String)
  /-- The URI names of the subject alternative name extension. -/
  uriNames : Cert → Option (List String)
  /-- The common names of the subject. -/
  commonNames : Cert → List String
  /-- The signature on the certificate verifies under the key. -/
  certSignedBy : Cert → Key → Bool
  /-- `base64.b64decode` with and without `validate=True`. -/
  b64decode : Bool → String → Option Sig
  /-- `public_key.verify(signature, data, ECDSA(SHA256))`. -/
  verify : Key → Sig → SignedBytes → Bool
  /-- `json.loads` with the two strict hooks of `strict_json_loads`. -/
  strictJsonLoads : String → Option PyJson
  /-- The pydantic parser of a `UUID` field, to the text it is dumped as. -/
  parseUuid : PyJson → Option String
  /-- The pydantic parser of a `datetime` field. -/
  parseDatetime : PyJson → Option ParsedTime
  /-- `isoformat()` of a UTC time. -/
  isoformat : Int → String
  /-- The text pydantic dumps a UTC time as. -/
  dumpTime : Int → String
  /-- SHA-256 of the canonical text of a value, in hexadecimal. -/
  sha256 : PyJson → String

variable (L : Libs)

/-- The key is an ECDSA P-256 key. -/
def Libs.isEcdsaP256 (key : L.Key) : Bool := L.isEc key && L.isP256 key

/-- `_DOMAIN` without its terminating zero byte. -/
def delegationDomain : String := "EFDI-DELEGATION-V1"

/-- `certificate_router_identity`. -/
def certificateRouterIdentity (certificate : L.Cert) : Except TrustError String :=
  match L.uriNames certificate with
  | none => .error (.trustVerify "signer certificate has no URI SAN")
  | some [identity] =>
    if PyStr.startsWith identity "spiffe://" then .ok identity
    else .error (.trustVerify "signer certificate must contain exactly one SPIFFE URI SAN")
  | some _ => .error (.trustVerify "signer certificate must contain exactly one SPIFFE URI SAN")

/-! ## Decoding documents -/

/-- A field of type `list[T]` whose items are strings of a closed set. -/
def decodeEnumList {α : Type} (ofValue : String → Option α) (v : PyJson) : Option (List α) :=
  v.list?.bind fun xs => xs.mapM fun x => x.str?.bind ofValue

/-- A field of type `list[str]`. -/
def decodeStrList (v : PyJson) : Option (List String) :=
  v.list?.bind fun xs => xs.mapM PyJson.str?

/-- A field of type `datetime` that must name its offset. -/
def decodeAwareTime (v : PyJson) : Option Int :=
  (L.parseDatetime v).bind fun t => if t.aware then some t.instant else none

/-- The schema field, which has a default and is known by its alias too. -/
def decodeSchema (document : PyJson) (schema : String) : Bool :=
  match document.get? "schema", document.get? "schema_" with
  | none, none => true
  | some v, none => decide (v = .str schema)
  | none, some v => decide (v = .str schema)
  | some _, some _ => false

/-- The keys a grant document may have. -/
def grantKeys : List String :=
  ["schema", "schema_", "id", "issuer_identity", "subject_ca_sha256", "subject_identity",
    "namespace", "roles", "publish", "subscribe", "control", "max_delegation_depth",
    "sequence", "not_before", "not_after"]

/-- Decode the fields of a grant document. -/
def decodeGrantFields (payload : PyJson) : Option GrantFields := do
  require (payload.items.all fun item => grantKeys.contains item.1)
  require (decodeSchema payload "efdi.delegation/v1")
  let id ← (payload.get? "id").bind L.parseUuid
  let issuerIdentity ← (payload.get? "issuer_identity").bind PyJson.str?
  let subjectCaSha256 ← (payload.get? "subject_ca_sha256").bind PyJson.str?
  let subjectIdentity ← (payload.get? "subject_identity").bind PyJson.str?
  let namespace_ ← (payload.get? "namespace").bind PyJson.str?
  let roles ← (payload.get? "roles").bind (decodeEnumList RouterRole.ofValue)
  let publish ← decodeStrList (payload.getD "publish" (.list []))
  let subscribe ← decodeStrList (payload.getD "subscribe" (.list []))
  let control ← decodeEnumList ControlAction.ofValue (payload.getD "control" (.list []))
  let maxDelegationDepth ← (payload.get? "max_delegation_depth").bind PyJson.int?
  let sequence ← (payload.get? "sequence").bind PyJson.int?
  let notBefore ← (payload.get? "not_before").bind (decodeAwareTime L)
  let notAfter ← (payload.get? "not_after").bind (decodeAwareTime L)
  return { id, issuerIdentity, subjectCaSha256 := PyStr.lower subjectCaSha256, subjectIdentity,
           namespace_, roles, publish, subscribe, control, maxDelegationDepth, sequence,
           notBefore, notAfter }

/-- `DelegationGrant.model_validate`. -/
def grantModelValidate (payload : PyJson) : Option DelegationGrant :=
  (decodeGrantFields L payload).bind fun g => g.validate.toOption

/-- The decoded fields of a delegation envelope. -/
structure DelegationEnvelope where
  payload : PyJson
  signature : String
  signerCertificate : String
  signerSha256 : String

/-- A string field with bounds on its length. -/
def decodeBoundedStr (lo hi : Nat) (v : PyJson) : Option String :=
  v.str?.bind fun s => if lo ≤ PyStr.len s ∧ PyStr.len s ≤ hi then some s else none

/-- `DelegationEnvelope.model_validate`. -/
def envelopeModelValidate (document : PyJson) : Option DelegationEnvelope := do
  require document.isDict
  require (document.items.all fun item =>
    ["schema", "schema_", "payload", "signature", "signer_certificate",
      "signer_sha256"].contains item.1)
  require (decodeSchema document "efdi.delegation-envelope/v1")
  let payload ← document.get? "payload"
  require payload.isDict
  let signature ← (document.get? "signature").bind (decodeBoundedStr 8 1024)
  let signerCertificate ← (document.get? "signer_certificate").bind (decodeBoundedStr 64 65536)
  let signer ← (document.get? "signer_sha256").bind PyJson.str?
  require (fingerprintOk (PyStr.lower signer))
  return { payload, signature, signerCertificate, signerSha256 := PyStr.lower signer }

/-- `canonical_grant`: the value whose canonical text is signed. -/
def canonicalGrant (g : DelegationGrant) : PyJson :=
  .dict [
    ("control", .list (g.control.map fun c => .str c.value)),
    ("id", .str g.id),
    ("issuer_identity", .str g.issuerIdentity),
    ("max_delegation_depth", .int g.maxDelegationDepth),
    ("namespace", .str g.namespace_),
    ("not_after", .str (L.dumpTime g.notAfter)),
    ("not_before", .str (L.dumpTime g.notBefore)),
    ("publish", .list (g.publish.map .str)),
    ("roles", .list (g.roles.map fun r => .str r.value)),
    ("schema", .str "efdi.delegation/v1"),
    ("sequence", .int g.sequence),
    ("subject_ca_sha256", .str g.subjectCaSha256),
    ("subject_identity", .str g.subjectIdentity),
    ("subscribe", .list (g.subscribe.map .str))]

/-- The bytes a grant is signed as. -/
def grantBytes (g : DelegationGrant) : SignedBytes := ⟨delegationDomain, canonicalGrant L g⟩

/-! ## Verifying an envelope -/

/-- The document of an envelope that may be given as text. -/
def envelopeDocument (raw : PyJson) : Except TrustError PyJson :=
  match raw with
  | .str text =>
    match L.strictJsonLoads text with
    | some document => .ok document
    | none => .error (.trustVerify "invalid JSON")
  | document => .ok document

/-- Parse the envelope, its grant and its certificate. -/
def parseGrantEnvelope (document : PyJson) :
    Except TrustError (DelegationEnvelope × DelegationGrant × L.Cert) :=
  match envelopeModelValidate document with
  | none => .error (.trustVerify "invalid delegation envelope")
  | some envelope =>
    match grantModelValidate L envelope.payload, L.loadPem envelope.signerCertificate with
    | some grant, some certificate => .ok (envelope, grant, certificate)
    | _, _ => .error (.trustVerify "invalid delegation envelope")

/-- `verify_grant_envelope`.  An expected signer that is absent or empty is not compared. -/
def verifyGrantEnvelope (raw : PyJson) (expectedSignerSha256 : Option String) (now : Int) :
    Except TrustError (DelegationGrant × L.Cert) := do
  let document ← envelopeDocument L raw
  let (envelope, grant, certificate) ← parseGrantEnvelope L document
  let fingerprint := L.certificateSha256 certificate
  rejectIf (fingerprint != envelope.signerSha256)
    (.trustVerify "signer certificate fingerprint does not match envelope")
  rejectIf (expectedSignerSha256.any fun e => e != "" && fingerprint != PyStr.lower e)
    (.trustVerify "delegation was not signed by the expected authority")
  let identity ← certificateRouterIdentity L certificate
  rejectIf (identity != grant.issuerIdentity)
    (.trustVerify "signer identity does not match grant issuer")
  rejectIf (!L.isEcdsaP256 (L.publicKey certificate))
    (.trustVerify "policy signer certificate must use ECDSA P-256")
  rejectIf (!(L.b64decode true envelope.signature).any fun signature =>
      L.verify (L.publicKey certificate) signature (grantBytes L grant))
    (.trustVerify "delegation signature verification failed")
  rejectIf (now < grant.notBefore || now ≥ grant.notAfter)
    (.trustVerify "delegation is not currently valid")
  rejectIf (now < L.notValidBefore certificate || now ≥ L.notValidAfter certificate)
    (.trustVerify "policy signer certificate is not currently valid")
  return (grant, certificate)

/-- The grant an envelope parses to, whether it verifies or not. -/
def envelopeGrant (raw : PyJson) : Option DelegationGrant := do
  let document ← (envelopeDocument L raw).toOption
  let (_, grant, _) ← (parseGrantEnvelope L document).toOption
  return grant

/-- The certificate an envelope names as its signer. -/
def envelopeSigner (raw : PyJson) : Option L.Cert := do
  let document ← (envelopeDocument L raw).toOption
  let (_, _, certificate) ← (parseGrantEnvelope L document).toOption
  return certificate

/-- What a verified envelope is: a signed grant in its window, by a valid certificate of
the issuer. -/
structure GrantVerified (expectedSignerSha256 : Option String) (now : Int)
    (grant : DelegationGrant) (certificate : L.Cert) : Prop where
  signer : ∀ e, expectedSignerSha256 = some e → e ≠ "" →
    L.certificateSha256 certificate = PyStr.lower e
  fingerprint : fingerprintOk (L.certificateSha256 certificate) = true
  identity : certificateRouterIdentity L certificate = .ok grant.issuerIdentity
  p256 : L.isEcdsaP256 (L.publicKey certificate) = true
  signed : ∃ signature,
    L.verify (L.publicKey certificate) signature (grantBytes L grant) = true
  window : grant.notBefore ≤ now ∧ now < grant.notAfter
  certWindow : L.notValidBefore certificate ≤ now ∧ now < L.notValidAfter certificate

variable {L}

theorem fingerprintOk_of_envelope {document : PyJson} {envelope : DelegationEnvelope}
    (h : envelopeModelValidate document = some envelope) :
    fingerprintOk envelope.signerSha256 = true := by
  simp only [envelopeModelValidate, Option.bind_eq_bind, Option.bind_eq_some_iff,
    require_eq_some, Option.pure_def, Option.some.injEq] at h
  obtain ⟨_, _, _, _, _, _, _, _, _, _, _, _, _, _, _, _, _, hfp, rfl⟩ := h
  exact hfp

variable {raw : PyJson} {expected : Option String} {now : Int} {grant : DelegationGrant}
  {certificate : L.Cert}

/-- A verified envelope parsed to its grant and certificate, and they passed every check. -/
theorem verifyGrantEnvelope_ok
    (h : verifyGrantEnvelope L raw expected now = .ok (grant, certificate)) :
    GrantVerified L expected now grant certificate := by
  simp only [verifyGrantEnvelope, bind_eq_ok, rejectIf_eq_ok, pure_eq_ok] at h
  obtain ⟨document, _, ⟨envelope, g, c⟩, hparse, _, hfp, _, hsigner, identity, hid, _, heq,
    _, hkey, _, hsig, _, hwin, _, hcwin, hres⟩ := h
  dsimp only at hfp hsigner hid heq hkey hsig hwin hcwin hres
  obtain ⟨rfl, rfl⟩ := Prod.mk.inj hres
  have henv : envelopeModelValidate document = some envelope := by
    rw [parseGrantEnvelope] at hparse
    split at hparse
    · cases hparse
    next envelope' henv =>
      split at hparse
      · cases hparse
        exact henv
      · cases hparse
  have hfp' : L.certificateSha256 c = envelope.signerSha256 := by simpa using hfp
  have hid' : identity = g.issuerIdentity := by simpa using heq
  simp only [Bool.or_eq_false_iff, decide_eq_false_iff_not] at hwin hcwin
  exact
    { signer := by
        rintro e rfl hne
        simpa [hne] using hsigner
      fingerprint := hfp' ▸ fingerprintOk_of_envelope henv
      identity := hid' ▸ hid
      p256 := by simpa using hkey
      signed := by
        rw [Bool.not_eq_false', Option.any_eq_true_iff_get] at hsig
        obtain ⟨hsome, hver⟩ := hsig
        exact ⟨_, hver⟩
      window := ⟨by omega, by omega⟩
      certWindow := ⟨by omega, by omega⟩ }

/-- An envelope that verifies parses to the grant and the certificate that are returned. -/
theorem parses_of_verify (h : verifyGrantEnvelope L raw expected now = .ok (grant, certificate)) :
    ∃ document envelope, envelopeDocument L raw = .ok document ∧
      parseGrantEnvelope L document = .ok (envelope, grant, certificate) := by
  simp only [verifyGrantEnvelope, bind_eq_ok, rejectIf_eq_ok, pure_eq_ok] at h
  obtain ⟨document, hdoc, ⟨envelope, g, c⟩, hparse, _, _, _, _, identity, _, _, _,
    _, _, _, _, _, _, _, _, hres⟩ := h
  obtain ⟨rfl, rfl⟩ := Prod.mk.inj hres
  exact ⟨document, envelope, hdoc, hparse⟩

/-- The grant that is returned is the one the envelope parses to. -/
theorem envelopeGrant_of_verify
    (h : verifyGrantEnvelope L raw expected now = .ok (grant, certificate)) :
    envelopeGrant L raw = some grant := by
  obtain ⟨document, envelope, hdoc, hparse⟩ := parses_of_verify h
  simp [envelopeGrant, hdoc, hparse, Except.toOption]

/-- The certificate that is returned is the one the envelope names. -/
theorem envelopeSigner_of_verify
    (h : verifyGrantEnvelope L raw expected now = .ok (grant, certificate)) :
    envelopeSigner L raw = some certificate := by
  obtain ⟨document, envelope, hdoc, hparse⟩ := parses_of_verify h
  simp [envelopeSigner, hdoc, hparse, Except.toOption]

/-- An envelope that verified once verifies at every time in the windows of its grant and of
its signer. -/
theorem verifyGrantEnvelope_at {t : Int}
    (h : verifyGrantEnvelope L raw expected t = .ok (grant, certificate))
    (hgrant : grant.notBefore ≤ now ∧ now < grant.notAfter)
    (hcert : L.notValidBefore certificate ≤ now ∧ now < L.notValidAfter certificate) :
    verifyGrantEnvelope L raw expected now = .ok (grant, certificate) := by
  simp only [verifyGrantEnvelope, bind_eq_ok, rejectIf_eq_ok, pure_eq_ok] at h ⊢
  obtain ⟨document, hdoc, parsed, hparse, _, hfp, _, hsigner, identity, hid, _, heq,
    _, hkey, _, hsig, _, _, _, _, hres⟩ := h
  obtain ⟨rfl, rfl⟩ := Prod.mk.inj hres
  refine ⟨document, hdoc, parsed, hparse, (), hfp, (), hsigner, identity, hid, (), heq, (), hkey,
    (), hsig, (), ?_, (), ?_, rfl⟩
  · simpa using hgrant
  · simpa using hcert

/-! ## The abstract cryptography -/

/-- Fingerprints are injective hexadecimal digests, and signatures are unforgeable:
one that verifies was made by the holder of the key. -/
structure Libs.Abstract (L : Libs) (signed : L.Key → SignedBytes → Prop) : Prop where
  fingerprint_hex : ∀ c, fingerprintOk (L.certificateSha256 c) = true
  fingerprint_inj : Function.Injective L.certificateSha256
  unforgeable : ∀ key signature bytes, L.verify key signature bytes = true → signed key bytes

theorem lowerChar_of_hexChar {c : Char} (h : hexChar c = true) : PyStr.lowerChar c = c := by
  have hrange : c.val.toNat ≤ 57 ∨ (97 ≤ c.val.toNat ∧ c.val.toNat ≤ 102) := by
    simp only [hexChar, Char.isDigit, Bool.or_eq_true, Bool.and_eq_true, decide_eq_true_eq,
      Char.le_def] at h
    rcases h with h | h
    · exact Or.inl (by simpa [UInt32.le_iff_toNat_le] using h.2)
    · exact Or.inr ⟨by simpa [UInt32.le_iff_toNat_le] using h.1,
        by simpa [UInt32.le_iff_toNat_le] using h.2⟩
  have hkelvin : ¬c.toNat = 0x212a := by
    have hval : c.toNat = c.val.toNat := rfl
    omega
  have hupper : ¬(c.val ≥ 'A'.val ∧ c.val ≤ 'Z'.val) := by
    rintro ⟨hge, hle⟩
    have h65 : 65 ≤ c.val.toNat := by simpa [UInt32.le_iff_toNat_le] using hge
    have h90 : c.val.toNat ≤ 90 := by simpa [UInt32.le_iff_toNat_le] using hle
    omega
  rw [PyStr.lowerChar, if_neg hkelvin]
  exact dif_neg hupper

/-- A fingerprint is in lower case already. -/
theorem lower_of_fingerprintOk {s : String} (h : fingerprintOk s = true) : PyStr.lower s = s := by
  simp only [fingerprintOk, PyStr.classMatch, Bool.and_eq_true, List.all_eq_true] at h
  have hmap : s.toList.map PyStr.lowerChar = s.toList :=
    List.map_congr_left (fun c hc => lowerChar_of_hexChar (h.2 c hc)) |>.trans (List.map_id _)
  rw [PyStr.lower, hmap, String.ofList_toList]

theorem ne_empty_of_fingerprintOk {s : String} (h : fingerprintOk s = true) : s ≠ "" := by
  rintro rfl
  revert h
  decide

end Efdi.Trust
