import Efdi.Base.Checks
import Efdi.Control.Settings
import Efdi.Trust.Grant

/-!
# Signing certificate requests

`_sign_csr` signs the request of an invited router.  The local path writes the extensions of the
certificate itself.  With a step CA a transport request is signed as it is, after the text
`URI:<identity>` was found in the list of its names that openssl prints.

Of a transport certificate that is returned, the local path makes the identity the only URI name,
and the step CA keeps the URI names of the request (`signed_names`).
-/

namespace Efdi.Control.SignCsr

open Checks List PyStr String Bool

/-- A subject alternative name: its kind as openssl prints it, and its value. -/
structure Name where
  label : String
  value : String
deriving DecidableEq

/-- A name as openssl prints it. -/
def Name.text (name : Name) : String := name.label ++ ":" ++ name.value

/-- The URI names. -/
def uriNames (names : List Name) : List String :=
  (names.filter fun name => name.label = "URI").map Name.value

/-- A request, and the names in its `subjectAltName` extension. -/
structure Csr where
  pem : String
  names : List Name

structure Certificate where
  names : List Name
deriving DecidableEq

/-- How a program that is run ends: it cannot be run in time, it fails, or it returns. -/
inductive Call (α : Type) where
  | raises
  | fails
  | returns (result : α)

/-- What the router CA and the host say. -/
structure Host where
  /-- `_pki_status()["available"]`. -/
  available : Bool
  /-- `_pki_status()["path_length"]`. -/
  issuerPathLength : Option Int
  /-- Whether `STEP_CA_STATE_PATH` is set, and then whether its `ca.json` is a file. -/
  stepCa : Option Bool
  /-- The output of `openssl req -verify -subject -text`. -/
  verify : Csr → Call String
  /-- The output of `openssl req -ext subjectAltName`. -/
  listNames : Csr → Call String
  /-- `step ca sign` and what is read after it. -/
  stepSign : Csr → Call Unit
  /-- `openssl x509 -req` and what is read after it. -/
  localSign : Csr → Call Unit

/-- The characters of a common name. -/
def commonNameChar (c : Char) : Bool :=
  c.isAlphanum || c == '.' || c == '_' || c == '/' || c == '-'

/-- The identity URI, which follows from the common name when none is given.  Of the characters of
a common name `quote` changes the slash only. -/
def identityOf (commonName : String) (identityUri : Option String) : String :=
  identityUri.getD ("spiffe://efdi.local/router/" ++ PyStr.replace "/" "%2F" commonName)

/-! ### The two ways to sign -/

/-- The lines of the extension file. -/
def extensions (profile : String) (pathLength : Int) (identity : String) :
    List (String × String) :=
  (if profile = "router-ca" then
    [("basicConstraints", "critical,CA:TRUE,pathlen:" ++ toString pathLength),
      ("keyUsage", "critical,digitalSignature,keyCertSign,cRLSign")]
  else if profile = "transport" then
    [("basicConstraints", "critical,CA:FALSE"),
      ("keyUsage", "critical,digitalSignature"),
      ("extendedKeyUsage", "serverAuth,clientAuth")]
  else
    [("basicConstraints", "critical,CA:FALSE"),
      ("keyUsage", "critical,digitalSignature"),
      ("extendedKeyUsage", "1.3.6.1.4.1.55555.1.1")]) ++
  [("subjectAltName", "URI:" ++ identity),
    ("subjectKeyIdentifier", "hash"),
    ("authorityKeyIdentifier", "keyid,issuer")]

/-- The names that openssl reads in the value of `subjectAltName`. -/
def readNames (value : String) : List Name :=
  (PyStr.split ',' value).filterMap fun part =>
    (PyStr.splitOnce ':' part).map fun halves =>
      ⟨PyStr.strip halves.1, PyStr.strip halves.2⟩

/-- The names that an extension file puts into a certificate. -/
def writtenNames (lines : List (String × String)) : List Name :=
  (lines.filter fun line => line.1 = "subjectAltName").flatMap fun line => readNames line.2

variable (host : Host) (csr : Csr)

/-- Signing with the key of the router CA. -/
def signLocally (profile : String) (pathLength : Int) (identity : String) :
    Except String Certificate :=
  match host.localSign csr with
  | .raises => .error "router CA signing operation failed"
  | .fails => .error "router CA rejected the CSR"
  | .returns () => .ok ⟨writtenNames (extensions profile pathLength identity)⟩

/-- `_sign_transport_with_step_ca`: the step CA copies the names of the request. -/
def signTransportWithStepCa : Option (Except String Certificate) :=
  match host.stepCa with
  | some true =>
    match host.stepSign csr with
    | .raises => some (.error "online leaf signing operation failed")
    | .fails => some (.error "online leaf issuer rejected the transport CSR")
    | .returns () => some (.ok ⟨csr.names⟩)
  | some false => none
  | none => none

/-! ### The checks -/

/-- The first line of the output that names a subject. -/
def subjectLine (stdout : String) : String :=
  (((PyStr.splitlines stdout).map PyStr.strip).find? fun line =>
    PyStr.startsWith line "subject=").getD ""

/-- The request is signed with its own key, names the router and has a P-256 key. -/
def checkRequest (commonName : String) : Except String Unit :=
  match host.verify csr with
  | .raises => .error "router CA signing operation failed"
  | .fails => .error "CSR proof-of-possession verification failed"
  | .returns stdout => do
      rejectIf (subjectLine stdout != "subject=CN=" ++ commonName)
        "CSR subject must contain only the invited common name"
      rejectIf (!PyStr.contains "ASN1 OID: prime256v1" stdout &&
        !PyStr.contains "NIST CURVE: P-256" stdout) "CSR must use an ECDSA P-256 key"

/-- The list of the names of the request has the identity somewhere. -/
def checkNames (identity : String) : Except String Unit :=
  match host.listNames csr with
  | .raises => .error "router CA signing operation failed"
  | .fails => .error "transport CSR must contain the invited SPIFFE URI SAN"
  | .returns stdout =>
    rejectIf (!PyStr.contains ("URI:" ++ identity) stdout)
      "transport CSR must contain the invited SPIFFE URI SAN"

/-- A checked request is signed. -/
def sign (profile : String) (pathLength : Int) (identity : String) : Except String Certificate :=
  if profile = "transport" ∧ host.stepCa.isSome then do
    checkNames host csr identity
    match signTransportWithStepCa host csr with
    | some result => result
    | none => signLocally host csr profile pathLength identity
  else signLocally host csr profile pathLength identity

/-- `_sign_csr`. -/
def signCsr (commonName profile : String) (pathLength days : Int)
    (identityUri : Option String) : Except String Certificate := do
  rejectIf (!host.available)
    "router CA is unavailable or its certificate/key do not match"
  rejectIf (!PyStr.classMatch commonNameChar 1 255 commonName)
    "common name contains unsupported characters"
  rejectIf (!(["router-ca", "transport", "policy-signer"].contains profile))
    "profile must be router-ca, transport, or policy-signer"
  rejectIf (!(0 ≤ pathLength && pathLength ≤ 8 && 1 ≤ days && days ≤ 825))
    "path length or lifetime is outside policy"
  rejectIf (profile == "router-ca" && host.issuerPathLength.all fun issuer => issuer ≤ pathLength)
    "child CA delegation depth must be lower than the issuer certificate path length"
  rejectIf (64 * 1024 < csr.pem.utf8ByteSize ||
    !PyStr.contains "BEGIN CERTIFICATE REQUEST" csr.pem) "invalid or oversized CSR"
  rejectIf (!Trust.identityOk (identityOf commonName identityUri))
    "identity URI is outside the router SPIFFE profile"
  checkRequest host csr commonName
  sign host csr profile pathLength (identityOf commonName identityUri)

/-! ### The names of the local path -/

/-- A character of an identity URI. -/
def identityChar (c : Char) : Bool := Trust.identityPathChar c || c == ':'

variable {c : Char} {identity : String} {pathLength : Int} {certificate : Certificate}

theorem identityChar_of_hostChar (h : Trust.hostChar c = true) :
    identityChar c = true := by
  rw [Trust.hostChar] at h
  unfold identityChar Trust.identityPathChar Char.isAlphanum Char.isAlpha
  grind

theorem all_of_classMatch {p : Char → Bool} {lo hi : Nat} {s : String}
    (h : PyStr.classMatch p lo hi s = true) : ∀ c ∈ s.toList, p c = true := by
  rw [classMatch, and_eq_true] at h
  exact all_eq_true.mp h.2

/-- The characters of an identity URI are those of its scheme, its host and its path. -/
theorem identityChar_of_identityOk (h : Trust.identityOk identity = true) :
    ∀ c ∈ identity.toList, identityChar c = true := by
  rw [Trust.identityOk, Bool.and_eq_true, Bool.and_eq_true, Bool.and_eq_true] at h
  obtain ⟨⟨⟨hscheme, hhost⟩, hrouter⟩, hpath⟩ := h
  obtain ⟨rest, rfl⟩ := startsWith_iff.mp hscheme
  have hrest : PyStr.drop 9 ("spiffe://" ++ rest) = rest := drop_append "spiffe://" rest
  rw [hrest] at hhost hrouter hpath
  obtain ⟨path, htail⟩ := startsWith_iff.mp hrouter
  rw [htail] at hpath
  have hpath' : PyStr.drop 8 ("/router/" ++ path) = path := drop_append "/router/" path
  rw [hpath'] at hpath
  have hsplit : rest.toList =
      rest.toList.takeWhile (· != '/') ++ ("/router/".toList ++ path.toList) := by
    have hchars := congrArg String.toList htail
    rw [PyStr.drop, PyStr.len, String.toList_ofList, String.toList_ofList, String.toList_append]
      at hchars
    rw [← hchars]
    exact prefix_append_drop ( takeWhile_prefix _)
  intro c hc
  rw [String.toList_append, hsplit] at hc
  rcases mem_append.mp hc with hc | hc
  · exact all_eq_true.mp (by decide : "spiffe://".toList.all identityChar = true) c hc
  · rcases mem_append.mp hc with hc | hc
    · refine identityChar_of_hostChar (all_of_classMatch hhost c ?_)
      rw [String.toList_ofList]
      exact hc
    · rcases mem_append.mp hc with hc | hc
      · exact all_eq_true.mp (by decide : "/router/".toList.all identityChar = true) c hc
      · rw [identityChar, all_of_classMatch hpath c hc, Bool.true_or]

theorem comma_of_identityChar : identityChar ',' = false := by decide

theorem toNat_of_identityChar (h : identityChar c = true) :
    37 ≤ c.toNat ∧ c.toNat ≤ 126 := by
  unfold identityChar Trust.identityPathChar Char.isAlphanum Char.isAlpha Char.isUpper Char.isLower
    Char.isDigit at h
  simp only [or_eq_true, and_eq_true, decide_eq_true_eq, beq_iff_eq,
    ge_iff_le, UInt32.le_iff_toNat_le] at h
  have hval : c.val.toNat = c.toNat := rfl
  rw [hval] at h
  rcases h with (((((((h | h) | rfl) | rfl) | rfl) | rfl) | rfl) | rfl) | rfl
  · refine ⟨?_, ?_⟩ <;> · simp at h; omega
  · refine ⟨?_, ?_⟩ <;> · simp at h; omega
  all_goals exact ⟨by decide, by decide⟩

theorem isSpace_of_identityChar (h : identityChar c = true) :
    PyStr.isSpace c = false := by
  obtain ⟨hlow, hhigh⟩ := toNat_of_identityChar h
  simp only [isSpace, or_eq_false_iff, and_eq_false_iff, decide_eq_false_iff_not,
    beq_eq_false_iff_ne]
  omega

/-- The names that the local path writes for an accepted identity. -/
theorem readNames_identity (h : Trust.identityOk identity = true) :
    readNames ("URI:" ++ identity) = [⟨"URI", identity⟩] := by
  have hchars := identityChar_of_identityOk h
  have hcomma : ',' ∉ ("URI:" ++ identity).toList := by
    rw [toList_append, mem_append]
    rintro (hmem | hmem)
    · exact absurd hmem (by decide)
    · have hok := hchars ',' hmem
      rw [comma_of_identityChar] at hok
      cases hok
  have hsplit : splitOnce ':' ("URI:" ++ identity) = some ("URI", identity) := by
    rw [show "URI:" = "URI" ++ ofList [':'] from by decide]
    exact splitOnce_append (by decide) identity
  have hstrip : strip identity = identity :=
    strip_of_forall fun c hc => isSpace_of_identityChar (hchars c hc)
  have hlabel : strip "URI" = "URI" := by decide
  rw [readNames, split_of_notMem hcomma, filterMap_cons, hsplit, filterMap_nil]
  simp [hstrip, hlabel]

/-- The identity is the only URI name that the local path writes. -/
theorem uriNames_writtenNames (h : Trust.identityOk identity = true) (profile : String)
    (pathLength : Int) :
    uriNames (writtenNames (extensions profile pathLength identity)) = [identity] := by
  have hnames : writtenNames (extensions profile pathLength identity) =
      readNames ("URI:" ++ identity) := by
    rw [writtenNames, extensions, filter_append, flatMap_append]
    split_ifs
    · simp
    · simp
    · simp
  rw [hnames, readNames_identity h]
  simp [uriNames]

/-! ### The names of a certificate -/

variable {host : Host} {csr : Csr}

/-- What a signed request went through. -/
theorem signCsr_ok {commonName profile : String} {days : Int} {identityUri : Option String}
    (h : signCsr host csr commonName profile pathLength days identityUri = .ok certificate) :
    Trust.identityOk (identityOf commonName identityUri) = true ∧
      sign host csr profile pathLength (identityOf commonName identityUri) = .ok certificate := by
  simp only [signCsr, bind_eq_ok, rejectIf_eq_ok, not_eq_false'] at h
  obtain ⟨_, _, _, _, _, _, _, _, _, _, _, _, _, hidentity, _, _, hsign⟩ := h
  exact ⟨hidentity, hsign⟩

theorem signLocally_ok {profile : String}
    (h : signLocally host csr profile pathLength identity = .ok certificate) :
    certificate.names = writtenNames (extensions profile pathLength identity) := by
  rw [signLocally] at h
  split at h
  next _ => cases h
  next _ => cases h
  next _ => rw [← Except.ok.inj h]

theorem signTransportWithStepCa_ok {result : Except String Certificate}
    (h : signTransportWithStepCa host csr = some result) (hresult : result = .ok certificate) :
    host.stepCa = some true ∧ certificate.names = csr.names := by
  rw [signTransportWithStepCa] at h
  split at h
  next hstep =>
    split at h
    next _ => cases (Option.some.inj h).trans hresult
    next _ => cases (Option.some.inj h).trans hresult
    next _ =>
      refine ⟨hstep, ?_⟩
      rw [← Except.ok.inj ((Option.some.inj h).trans hresult)]
  next _ => cases h
  next _ => cases h

theorem signTransportWithStepCa_none (h : signTransportWithStepCa host csr = none) :
    host.stepCa ≠ some true := by
  intro hstep
  rw [signTransportWithStepCa, hstep] at h
  dsimp only at h
  split at h
  next _ => cases h
  next _ => cases h
  next _ => cases h

/-- The names of a transport certificate: with a step CA those of the request, else those that the
local path writes. -/
theorem sign_names (h : sign host csr "transport" pathLength identity = .ok certificate) :
    (host.stepCa = some true ∧ certificate.names = csr.names) ∨
      (host.stepCa ≠ some true ∧
        certificate.names = writtenNames (extensions "transport" pathLength identity)) := by
  rw [sign] at h
  split at h
  next _ =>
    obtain ⟨_, _, hrest⟩ := bind_eq_ok.mp h
    split at hrest
    next result hstep => exact .inl (signTransportWithStepCa_ok hstep hrest)
    next hstep => exact .inr ⟨signTransportWithStepCa_none hstep, signLocally_ok hrest⟩
  next hno =>
    refine .inr ⟨fun hstep => hno ⟨rfl, ?_⟩, signLocally_ok h⟩
    rw [hstep]
    rfl

/-- A host with a step CA, for requests of the router `r`. -/
def stepHost : Host where
  available := true
  issuerPathLength := none
  stepCa := some true
  verify := fun _ => .returns "subject=CN=r\n    ASN1 OID: prime256v1\n"
  listNames := fun csr => .returns
    ("        X509v3 Subject Alternative Name: \n            " ++
      PyStr.join ", " (csr.names.map Name.text) ++ "\n")
  stepSign := fun _ => .returns ()
  localSign := fun _ => .returns ()

def requestOf (names : List Name) : Csr := ⟨"-----BEGIN CERTIFICATE REQUEST-----", names⟩

def routerName : Name := ⟨"URI", "spiffe://efdi.local/router/r"⟩

end Efdi.Control.SignCsr
