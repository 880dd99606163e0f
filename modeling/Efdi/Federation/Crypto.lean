import Efdi.Trust.Chain

/-!
# Signed federation envelopes

`federation_crypto.py`.  An envelope carries a payload and a signature over the domain
of its purpose and the canonical text of the payload.  `EnvelopeOk` is what
`verifyEnvelope` says about the payload it returns.
-/

namespace Efdi.Federation

open Checks
open Trust (Libs SignedBytes)

/-- The purposes a payload is signed for. -/
inductive Purpose where
  | config
  | status
  | topology
  | relay
deriving DecidableEq, Repr

/-- The domain of a purpose, without its terminating zero byte. -/
def Purpose.domain : Purpose → String
  | .config => "EFDI-CONFIG-V1"
  | .status => "EFDI-STATUS-V1"
  | .topology => "EFDI-TOPOLOGY-V1"
  | .relay => "EFDI-RELAY-V1"

/-- The settings of a router that the federation modules read. -/
structure Env where
  /-- `TRUST_DOMAIN`. -/
  trustDomain : String
  /-- What `_prefix()` returns. -/
  namespacePrefix : String
  /-- `_OWN_NAMESPACE`. -/
  ownNamespace : String
deriving DecidableEq

/-- The characters of `_PATH_RE`. -/
def pathChar (c : Char) : Bool :=
  c.isAlphanum || c == '.' || c == '_' || c == '/' || c == '-'

/-- `"//" in value`. -/
def hasDoubleSlash (value : String) : Bool :=
  value.toList.zip (value.toList.drop 1) |>.any fun p => p.1 == '/' && p.2 == '/'

/-- `normalize_path`. -/
def normalizePath (value : String) : Except String String :=
  let path := PyStr.stripChar '/' value
  if !PyStr.classMatch pathChar 1 512 path || hasDoubleSlash path then
    .error "managed router path contains unsupported characters"
  else .ok path

/-- `router_identity`. -/
def routerIdentity (trustDomain namespacePath : String) : Except String String := do
  let path ← normalizePath namespacePath
  return "spiffe://" ++ trustDomain ++ "/router/" ++ path

/-- The identity of the router with a namespace below the prefix. -/
def Env.identity (env : Env) (namespace_ : String) : Except String String :=
  routerIdentity env.trustDomain
    (PyStr.stripChar '/' env.namespacePrefix ++ "/" ++ namespace_)

variable (L : Libs)

/-- The bytes a payload is signed as. -/
def signedBytes (purpose : Purpose) (payload : PyJson) : SignedBytes :=
  ⟨purpose.domain, payload⟩

/-- `canonicalize`: only an object can be signed. -/
def canonicalize (payload : PyJson) (purpose : Purpose) : Except String SignedBytes :=
  if payload.isDict then .ok (signedBytes purpose payload)
  else .error "payload must be an object"

/-- The payload and the decoded signature of an envelope. -/
def envelopeParts (envelope : PyJson) : Except String (PyJson × L.Sig) :=
  match envelope.get? "payload", (envelope.get? "signature").bind PyJson.str? with
  | some payload, some text =>
    match L.b64decode false text with
    | some signature => .ok (payload, signature)
    | none => .error "malformed envelope"
  | _, _ => .error "malformed envelope"

/-- The common name of a certificate is another than the expected one. -/
def commonNameMismatch (expectedCn : Option String) (certificate : L.Cert) : Bool :=
  expectedCn.any fun expected =>
    match (L.commonNames certificate).head? with
    | some actual => actual == "" || actual != expected
    | none => true

/-- `verify_envelope`: the payload of an envelope that a trusted certificate signed. -/
def verifyEnvelope (envelope : PyJson) (trustedCertPem : String) (expectedCn : Option String)
    (purpose : Purpose) (now : Int) : Except String PyJson := do
  let (payload, signature) ← envelopeParts L envelope
  match L.loadPem trustedCertPem with
  | none => .error "invalid trusted parent cert"
  | some certificate => do
      rejectIf (commonNameMismatch L expectedCn certificate) "trusted parent cert CN mismatch"
      rejectIf (!L.isEcdsaP256 (L.publicKey certificate))
        "trusted policy signer does not contain an ECDSA P-256 key"
      rejectIf (now < L.notValidBefore certificate || now ≥ L.notValidAfter certificate)
        "trusted policy signer certificate is not currently valid"
      let bytes ← canonicalize payload purpose
      rejectIf (!L.verify (L.publicKey certificate) signature bytes)
        "signature verification failed"
      return payload

/-- A payload that was verified: an object of the envelope, signed for the purpose by the
key of a valid certificate. -/
structure EnvelopeOk (envelope : PyJson) (purpose : Purpose) (now : Int)
    (certificate : L.Cert) (payload : PyJson) : Prop where
  body : envelope.get? "payload" = some payload
  isDict : payload.isDict = true
  window : L.notValidBefore certificate ≤ now ∧ now < L.notValidAfter certificate
  p256 : L.isEcdsaP256 (L.publicKey certificate) = true
  signed : ∃ signature,
    L.verify (L.publicKey certificate) signature (signedBytes purpose payload) = true

variable {L}

theorem verifyEnvelope_ok {envelope : PyJson} {trustedCertPem : String}
    {expectedCn : Option String} {purpose : Purpose} {now : Int} {payload : PyJson}
    (h : verifyEnvelope L envelope trustedCertPem expectedCn purpose now = .ok payload) :
    ∃ certificate, L.loadPem trustedCertPem = some certificate ∧
      commonNameMismatch L expectedCn certificate = false ∧
      EnvelopeOk L envelope purpose now certificate payload := by
  rw [verifyEnvelope, bind_eq_ok] at h
  obtain ⟨⟨body, signature⟩, hparts, h⟩ := h
  dsimp only at h
  split at h
  · cases h
  next certificate hcert =>
    simp only [bind_eq_ok, rejectIf_eq_ok, pure_eq_ok] at h
    obtain ⟨_, hcn, _, hkey, _, hwin, bytes, hbytes, _, hver, rfl⟩ := h
    have hbody : envelope.get? "payload" = some body := by
      rw [envelopeParts] at hparts
      split at hparts
      next body' text hbody' _ =>
        split at hparts
        · cases hparts
          exact hbody'
        · cases hparts
      · cases hparts
    simp only [Bool.or_eq_false_iff, decide_eq_false_iff_not] at hwin
    rw [canonicalize] at hbytes
    split at hbytes
    next hdict =>
      cases hbytes
      exact ⟨certificate, hcert, hcn,
        { body := hbody
          isDict := hdict
          window := ⟨by omega, by omega⟩
          p256 := by simpa using hkey
          signed := ⟨signature, by simpa using hver⟩ }⟩
    · cases hbytes

end Efdi.Federation
