import Efdi.Base.Overwrites
import Efdi.Config.AllOrNothing
import Efdi.Control.Settings

/-!
# Uploading an identity

`upload_bootstrap_identity` of `certs_bootstrap.py` and `upload_backbone_identity` of
`backbone_bootstrap.py`, over the stores that they write: the certificate files, the `.env` file,
the state files of the router, the config of the backbone router, what the running router was
started on and the topic root that each native service was started under.

What fails in a request is given with it.  A certificate file is replaced or left as it was.
The audit log is left out.
-/

namespace Efdi.Admin.Identities

open Checks
open Overwrites (Call perform)

/-! ## Checking the files -/

/-- The bytes of a file. -/
abbrev Pem := List UInt8

inductive UploadError where
  | http (statusCode : Nat) (detail : String)
  | raised (message : String)
deriving DecidableEq

/-- What is used of `cryptography`. -/
structure X509 where
  Certificate : Type
  PrivateKey : Type
  /-- `x509.load_pem_x509_certificate`. -/
  loadCertificate : Pem → Except String Certificate
  /-- `serialization.load_pem_private_key`. -/
  loadPrivateKey : Pem → Except String PrivateKey
  /-- The key of a certificate as a `SubjectPublicKeyInfo`. -/
  leafPubDer : Certificate → Pem
  keyPubDer : PrivateKey → Pem
  /-- The second certificate is signed by the first, when that has a key that can tell. -/
  verify : Certificate → Certificate → Option Bool

/-- The three files of an upload. -/
structure IdentityFiles where
  caPem : Pem
  certPem : Pem
  keyPem : Pem

/-- `_MAX_PEM_BYTES`. -/
def maxPemBytes : Nat := 64 * 1024

/-- The bytes of an ASCII text. -/
def ascii (s : String) : Pem := s.toList.map fun c => c.toNat.toUInt8

/-- `_read_pem`. -/
def readPem (label : String) (data : Pem) : Except UploadError Unit := do
  rejectIf (maxPemBytes < data.length) (.http 413 s!"{label} too large (max {maxPemBytes} bytes)")
  rejectIf (!data.tails.any (ascii "-----BEGIN").isPrefixOf)
    (.http 400 s!"{label} does not look like PEM")

/-- `_load_identity`. -/
def loadIdentity (X : X509) (files : IdentityFiles) : Except UploadError Unit := do
  let caCert ← (X.loadCertificate files.caPem).mapError
    fun e => .http 400 s!"invalid certificate: {e}"
  let leafCert ← (X.loadCertificate files.certPem).mapError
    fun e => .http 400 s!"invalid certificate: {e}"
  let privateKey ← (X.loadPrivateKey files.keyPem).mapError
    fun e => .http 400 s!"invalid or encrypted private key: {e}"
  rejectIf (X.leafPubDer leafCert != X.keyPubDer privateKey)
    (.http 400 "certificate and private key do not match")
  match X.verify caCert leafCert with
  | none => .error (.http 400 "unsupported CA key type")
  | some signed =>
    rejectIf (!signed) (.http 400 "certificate was not issued by the supplied CA root")

/-- The checks of the files of an upload. -/
def IdentityFiles.check (X : X509) (files : IdentityFiles) : Except UploadError Unit := do
  readPem "CA root" files.caPem
  readPem "certificate" files.certPem
  readPem "private key" files.keyPem
  loadIdentity X files

/-- A certificate with its key. -/
def X509.Matches (X : X509) (certPem keyPem : Pem) : Prop :=
  ∃ certificate privateKey, X.loadCertificate certPem = .ok certificate ∧
    X.loadPrivateKey keyPem = .ok privateKey ∧
      X.leafPubDer certificate = X.keyPubDer privateKey

/-! ## The pod -/

/-- `os.path.join`. -/
def joinPath (directory name : String) : String :=
  if PyStr.startsWith name "/" then name
  else if directory = "" ∨ PyStr.endsWith directory "/" then directory ++ name
  else directory ++ "/" ++ name

/-- The libraries and the settings of the panel. -/
structure Panel where
  x509 : X509
  json5 : Json5.Library
  /-- `json.dumps` of a list of strings. -/
  dumps : List String → String
  /-- `repr` of a string. -/
  repr : String → String
  /-- `str` of a float. -/
  floatStr : PyFloat → String
  /-- `_ROUTER_TLS_DIR`. -/
  routerTlsDir : String
  /-- `_OWN_CERT_DIR`. -/
  ownCertDir : String
  /-- `_BACKBONE_TLS_DIR`. -/
  backboneTlsDir : String
  /-- `_BACKBONE_CONFIG_PATH`, and its directory. -/
  backboneConfigPath : String
  backboneConfigDir : String
  /-- `TEMPLATE_PATH`. -/
  templatePath : String
  /-- `_BACKBONE_TEMPLATE_PATH`. -/
  backboneTemplatePath : String
  /-- `int` of `ZENOH_LISTEN_PORT`, when it is one. -/
  listenPort : Option Int
  /-- `int` of `ZENOH_LOCAL_TCP_PORT`, when it is one. -/
  localTcpPort : Option Int
  /-- `_local_router_endpoint`. -/
  localRouterEndpoint : String

/-- A native service, and the topic root that it was started under. -/
structure Native where
  name : String
  topicRoot : String
deriving DecidableEq

structure Pod where
  /-- The certificate files by their paths. -/
  files : PyDict String Pem
  /-- `.env`. -/
  env : Option String
  disk : ConfigDisk
  backboneConfig : Option String
  /-- The config that the router was last started on. -/
  router : Option String
  natives : List Native

/-! ## The namespace of the services -/

/-- `namespace_prefix.prefix()` of a service that starts. -/
def Pod.dataPrefix (pod : Pod) : String :=
  let env := Control.Settings.readEnv pod.env
  match pod.disk.dataPrefixFile, env.get? "DATA_NAMESPACE_PREFIX" with
  | some text, _ => PyStr.stripChar '/' (PyStr.strip (PyStr.newlines text))
  | none, some value => PyStr.stripChar '/' (PyStr.strip value)
  | none, none =>
    match pod.disk.prefixFile with
    | some text =>
      let legacy := PyStr.stripChar '/' (PyStr.strip (PyStr.newlines text))
      if legacy != "" then legacy else (env.get? "NAMESPACE_PREFIX").getD "EFDI"
    | none => (env.get? "NAMESPACE_PREFIX").getD "EFDI"

/-- `namespace_prefix.topic_root()` of a service that starts. -/
def Pod.topicRoot (pod : Pod) : String :=
  let organization := ((Control.Settings.readEnv pod.env).get? "PARTNER_NAMESPACE").getD ""
  PyStr.join "/" ([pod.dataPrefix, PyStr.stripChar '/' organization].filter (· != ""))

/-- A native service is started. -/
def Pod.startNative (pod : Pod) (name : String) : Pod :=
  { pod with natives := pod.natives.filter (·.name != name) ++ [⟨name, pod.topicRoot⟩] }

/-- `restart_native_processes`, where `restarts` tells which of the services come back. -/
def Pod.restartNatives (pod : Pod) (restarts : String → Bool) : Pod :=
  { pod with
    natives := pod.natives.map fun native =>
      if restarts native.name then { native with topicRoot := pod.topicRoot } else native }

/-- The data root of a config: what the router stores, and lets its peers read and write. -/
def configRoot (J : Json5.Library) (config : String) : Option String := do
  let document ← J.loads config
  let key ← (do
    let plugins ← PyOps.subscript document "plugins"
    let manager ← PyOps.subscript plugins "storage_manager"
    let storages ← PyOps.subscript manager "storages"
    let live ← PyOps.subscript storages "efdi_live"
    PyOps.subscript live "key_expr").toOption
  let text ← key.str?
  return keyRoot text

variable (P : Panel)

/-- The data root of the running router. -/
def Pod.routerRoot (pod : Pod) : Option String :=
  pod.router.bind (configRoot P.json5)

/-! ## The steps of a request -/

/-- An `OSError`. -/
structure OsError where
  filename : Option String
  strerror : String
deriving DecidableEq

/-- A call on the disk. -/
inductive DiskCall where
  | makeDirs (directory : String)
  | writePem (path : String)
deriving DecidableEq

/-- `os.makedirs`. -/
def makeDirs (directory : String) : Call DiskCall String Pem := ⟨.makeDirs directory, []⟩

/-- `_write_pem`. -/
def writePem (path : String) (data : Pem) : Call DiskCall String Pem :=
  ⟨.writePem path, [(path, data)]⟩

/-- How a `PUT` of settings fails: before `.env` is replaced, before the prefix file is, or on
the way back. -/
inductive EnvUpdate where
  | refused (e : String)
  | envOnly (e : String)
  | unanswered (e : String)
  | answered

/-- `_write_env`, with the prefix file. -/
def Pod.writeSettings (pod : Pod) (updates : PyDict String String) : Pod :=
  let saved := { pod with env := Control.Settings.writeEnv pod.env updates }
  match updates.get? "NAMESPACE_PREFIX" with
  | some value =>
    if value = "" then saved
    else { saved with disk := { saved.disk with prefixFile := some (value ++ "\n") } }
  | none => saved

/-- The body of a `PUT` of settings. -/
def settingsBody (values : List (String × String)) : PyJson :=
  .dict [("values", .dict (values.map fun entry => (entry.1, .str entry.2)))]

/-- `_control_env_update`, with the text of its exception. -/
def controlEnvUpdate (outcome : EnvUpdate) (values : List (String × String)) (pod : Pod) :
    Pod × Option String :=
  match Control.Settings.accept P.floatStr (settingsBody values) with
  | .error e => (pod, some e)
  | .ok updates =>
    match outcome with
    | .refused e => (pod, some e)
    | .envOnly e =>
      ({ pod with env := Control.Settings.writeEnv pod.env updates }, some e)
    | .unanswered e => (pod.writeSettings updates, some e)
    | .answered => (pod.writeSettings updates, none)

/-- `status` of a result, as it is shown. -/
def statusText : ApplyStatus → String
  | .applied => "applied"
  | .rejected => "rejected"
  | .rolledBack => "rolled_back"
  | .failed => "failed"

/-- What the router was started on, after a call of `apply_rendered_config` that left the files
`after`.  A restart that fails leaves it running as it was. -/
def routerAfter (host : Activation) (rendered : String) (preserveManagement : Bool)
    (after : ConfigDisk) (router : Option String) : Option String :=
  let restarted := if host.restart.1 then some rendered else router
  if host.healthy && host.connected preserveManagement then restarted
  else if host.restore.Succeed ∧ host.rollbackRestart.1 then after.config
  else restarted

/-- The router is restarted in a call of `apply_rendered_config`. -/
def restartsRouter (host : Activation) (fields : ConfigFields) (disk : ConfigDisk) : Bool :=
  fields.fabricTlsProfile ≠ .backbone && host.preflight.1 && disk.config.isSome &&
    host.lastKnownGood.isNone && decide host.candidate.Succeed

/-- A call of `apply_rendered_config` on a pod. -/
def Pod.activate (pod : Pod) (host : Activation) (rendered : String) (fields : ConfigFields)
    (restarts : String → Bool) : Pod × Except String ApplyResult :=
  let out := applyRenderedConfig host rendered fields true false pod.disk
  let pod' : Pod :=
    { pod with
      disk := out.1
      router := if restartsRouter host fields pod.disk then
          routerAfter host rendered false out.1 pod.router
        else pod.router }
  match out.2 with
  | .error e => (pod', .error e)
  | .ok result =>
    (if isApplied (.ok result) && result.nativeProcessRestartRequired then
      pod'.restartNatives restarts
    else pod', .ok result)

/-! ## The first identity -/

/-- An upload to `/api/certs/bootstrap`. -/
structure BootstrapUpload extends IdentityFiles where
  partnerNamespace : String
  namespacePrefix : String

/-- What fails in a request to `/api/certs/bootstrap`. -/
structure BootstrapFaults where
  disk : DiskCall → Option OsError
  /-- `os.path.isfile(TEMPLATE_PATH)`. -/
  templateFound : Bool
  envUpdate : EnvUpdate
  host : Activation
  /-- The native services that come back from their restart. -/
  restarts : String → Bool
  /-- The exception of `_control_recreate_self`. -/
  recreate : Option String

structure BootstrapApplied where
  partnerNamespace : String
  namespacePrefix : String
  adminRecreate : String
deriving DecidableEq

/-- The checks of an upload. -/
def BootstrapUpload.check (upload : BootstrapUpload) : Except UploadError Unit := do
  rejectIf (!safeMatch namespaceChar upload.partnerNamespace)
    (.http 400 "partner_namespace: only letters, digits, '.', '_', '/', '-' are allowed")
  rejectIf (!safeMatch namespaceChar upload.namespacePrefix)
    (.http 400 "namespace_prefix: only letters, digits, '.', '_', '/', '-' are allowed")
  upload.toIdentityFiles.check P.x509

/-- The calls that stage the identity for the router and for the panel itself. -/
def bootstrapCalls (upload : BootstrapUpload) : List (Call DiskCall String Pem) :=
  [makeDirs P.routerTlsDir, makeDirs P.ownCertDir,
    writePem (joinPath P.routerTlsDir "ca-roots.pem") upload.caPem,
    writePem (joinPath P.routerTlsDir "pod-cert.pem") upload.certPem,
    writePem (joinPath P.routerTlsDir "pod-key.pem") upload.keyPem,
    writePem (joinPath P.ownCertDir "efdi-ca-root.pem") upload.caPem,
    writePem (joinPath P.ownCertDir (upload.partnerNamespace ++ "-cert.pem")) upload.certPem,
    writePem (joinPath P.ownCertDir (upload.partnerNamespace ++ "-key.pem")) upload.keyPem]

/-- The fields of the config that the router is switched to. -/
def bootstrapFields (upload : BootstrapUpload) : Except UploadError ConfigFields := do
  let mtlsPort ← P.listenPort.elim (.error (.raised "ZENOH_LISTEN_PORT")) .ok
  let localTcpPort ← P.localTcpPort.elim (.error (.raised "ZENOH_LOCAL_TCP_PORT")) .ok
  let values : ConfigValues :=
    { mtlsPort, localTcpPort
      fabricEndpoint := ""
      fabricEndpoints := []
      partnerNamespace := upload.partnerNamespace
      inboundNamespace := upload.partnerNamespace
      namespacePrefix := upload.namespacePrefix
      publishPrefix := upload.namespacePrefix
      verifyNameOnConnect := false
      pluginsLoadingEnabled := true
      fabricTlsProfile := .efdi
      enableQuic := false
      quicPort := 7449 }
  values.validate.mapError fun _ => .raised "ValidationError"

/-- The fields, and the config that is rendered from them. -/
def bootstrapConfig (templateFound : Bool) (upload : BootstrapUpload) :
    Except UploadError (ConfigFields × String) := do
  let fields ← bootstrapFields P upload
  rejectIf (!templateFound) (.http 500 s!"Template not found at {P.templatePath}")
  let rendered ← (renderConfig P.json5 fields).mapError (.http 500)
  return (fields, rendered)

/-- The settings that are saved before the restart. -/
def bootstrapSettings (upload : BootstrapUpload) : List (String × String) :=
  [("PARTNER_NAMESPACE", upload.partnerNamespace), ("NAMESPACE_PREFIX", upload.namespacePrefix)]

/-- The error of a write that failed. -/
def bootstrapWriteError (e : OsError) : UploadError :=
  .http 500 (s!"Could not write certificate material to " ++
    s!"{P.repr (orText e.filename P.ownCertDir)}: {e.strerror}. " ++
    "EFDI_CERT_DIR must be the path *inside* this container (compose's own default is " ++
    "/certs/efdi) — a host-side path (e.g. mirroring BUNDLE_DIR) will fail exactly like this.")

/-- What a request does behind its files. -/
def switchRouter (faults : BootstrapFaults) (upload : BootstrapUpload) (pod : Pod) :
    Pod × Except UploadError BootstrapApplied :=
  match bootstrapConfig P faults.templateFound upload with
  | .error e => (pod, .error e)
  | .ok (fields, rendered) =>
    let saved := controlEnvUpdate P faults.envUpdate (bootstrapSettings upload) pod
    match saved.2 with
    | some e =>
      (saved.1, .error (.http 500 (
        "Could not update PARTNER_NAMESPACE/NAMESPACE_PREFIX before restarting native " ++
        s!"processes: {e}. Not proceeding — restarting them against the old .env would " ++
        "silently republish under the previous namespace.")))
    | none =>
      let out := saved.1.activate faults.host rendered fields faults.restarts
      match out.2 with
      | .error e => (out.1, .error (.raised e))
      | .ok result =>
        if result.status ≠ .applied then
          (out.1, .error (.http 409 (
            s!"Router did not come up on the new certs ({statusText result.status}): " ++
            result.error.getD "None")))
        else
          (out.1, .ok
            { partnerNamespace := upload.partnerNamespace
              namespacePrefix := upload.namespacePrefix
              adminRecreate :=
                match faults.recreate with
                | some e => s!"failed: {e}"
                | none => "requested" })

/-- `upload_bootstrap_identity`. -/
def uploadBootstrapIdentity (faults : BootstrapFaults) (upload : BootstrapUpload) (pod : Pod) :
    Pod × Except UploadError BootstrapApplied :=
  match upload.check P with
  | .error e => (pod, .error e)
  | .ok () =>
    let written := perform faults.disk (bootstrapCalls P upload) pod.files
    match written.2 with
    | some e => ({ pod with files := written.1 }, .error (bootstrapWriteError P e))
    | none => switchRouter P faults upload { pod with files := written.1 }

/-! ## The identity of the backbone router -/

/-- An upload to `/api/certs/backbone/bootstrap`. -/
structure BackboneUpload extends IdentityFiles where
  backboneEndpoint : String

/-- Writing the config of the backbone router, which truncates the file first. -/
inductive ConfigWrite where
  | done
  | notOpened (e : OsError)
  | cut (e : OsError) (text : String)

/-- What fails in a request to `/api/certs/backbone/bootstrap`. -/
structure BackboneFaults where
  envUpdate : EnvUpdate
  disk : DiskCall → Option OsError
  /-- The text of the template. -/
  template : Option String
  configWrite : ConfigWrite
  /-- `ok` and `output` of `_control_start_backbone_router`, or its exception. -/
  start : Except String (Bool × Option String)
  /-- The native services that are started. -/
  starts : String → Bool

/-- `_parse_backbone_endpoint`. -/
def parseBackboneEndpoint (raw : String) : Except UploadError (List String) := do
  let raw := PyStr.strip raw
  rejectIf (raw == "") (.http 400 "backbone_endpoint is required")
  let endpoints ←
    if PyStr.startsWith raw "[" then
      match P.json5.loads raw with
      | none => .error (.http 400 "backbone_endpoint is not a valid JSON array")
      | some document =>
        (document.list?.bind (·.mapM PyJson.str?)).elim
          (.error (.http 400 "backbone_endpoint array must contain only strings")) .ok
    else .ok [raw]
  rejectIf endpoints.isEmpty (.http 400 "backbone_endpoint is required")
  rejectIf (!(safeEndpointsErrors endpoints).isEmpty) (.raised "ValueError")
  return endpoints

/-- The settings that are saved for display. -/
def backboneSettings (endpoints : List String) : List (String × String) :=
  [("EFDI_BACKBONE_FABRIC_ENDPOINTS", P.dumps endpoints),
    ("EFDI_BACKBONE_FABRIC_PROFILE", "backbone")]

/-- The directory of the backbone profile of the primary router. -/
def Panel.primaryBackboneDir : String := joinPath P.routerTlsDir "backbone"

/-- The calls that stage the identity for the backbone router and for the primary router. -/
def backboneCalls (files : IdentityFiles) : List (Call DiskCall String Pem) :=
  [makeDirs P.backboneTlsDir,
    writePem (joinPath P.backboneTlsDir "ca-roots.pem") files.caPem,
    writePem (joinPath P.backboneTlsDir "cert.pem") files.certPem,
    writePem (joinPath P.backboneTlsDir "key.pem") files.keyPem,
    makeDirs P.primaryBackboneDir,
    writePem (joinPath P.primaryBackboneDir "ca-roots.pem") files.caPem,
    writePem (joinPath P.primaryBackboneDir "cert.pem") files.certPem,
    writePem (joinPath P.primaryBackboneDir "key.pem") files.keyPem]

/-- `_render_backbone_config`. -/
def renderBackboneConfig (template : Option String) (endpoints : List String) :
    Except UploadError String :=
  match template with
  | none => .error (.http 500 s!"Template not found at {P.backboneTemplatePath}")
  | some text =>
    .ok (Template.replaceAll
      [("ZENOH_BACKBONE_CONNECT_ENDPOINTS", P.dumps (P.localRouterEndpoint :: endpoints))] text)

/-- The services that are started behind the backbone router. -/
def backboneServices : List String :=
  ["backbone-bridge", "backbone_layer", "generic_json", "geojson", "camera_sites", "socbx",
    "palantir", "tacvox", "tytan", "usareur", "skylord", "kyber", "fpv", "ita_efdi", "asterix"]

/-- The start of the services. -/
def Pod.startServices (pod : Pod) (starts : String → Bool) : Pod :=
  (backboneServices.filter starts).foldl Pod.startNative pod

/-- The error of a certificate write that failed. -/
def backboneWriteError (e : OsError) : UploadError :=
  .http 500 (s!"Could not write backbone certificate material to " ++
    s!"{P.repr (orText e.filename P.backboneTlsDir)}: {e.strerror}.")

/-- The config of the backbone router is written. -/
def configureBackbone (faults : BackboneFaults) (endpoints : List String) (pod : Pod) :
    Pod × Except UploadError Unit :=
  match renderBackboneConfig P faults.template endpoints with
  | .error e => (pod, .error e)
  | .ok rendered =>
    let failed (e : OsError) : UploadError :=
      .http 500 s!"Could not write {P.backboneConfigPath}: {e.strerror}."
    match faults.disk (.makeDirs P.backboneConfigDir), faults.configWrite with
    | some e, _ => (pod, .error (failed e))
    | none, .notOpened e => (pod, .error (failed e))
    | none, .cut e text => ({ pod with backboneConfig := some text }, .error (failed e))
    | none, .done => ({ pod with backboneConfig := some rendered }, .ok ())

/-- The backbone router is started, and the services behind it. -/
def startBackbone (faults : BackboneFaults) (pod : Pod) : Pod × Except UploadError String :=
  match faults.start with
  | .error e => (pod, .error (.raised e))
  | .ok (ok, output) =>
    if ok then (pod.startServices faults.starts, .ok (output.getD ""))
    else
      (pod, .error (.http 409 ("Backbone router container did not start: " ++ output.getD "None")))

/-- `upload_backbone_identity`, with `container_output`. -/
def uploadBackboneIdentity (faults : BackboneFaults) (upload : BackboneUpload) (pod : Pod) :
    Pod × Except UploadError String :=
  match parseBackboneEndpoint P upload.backboneEndpoint, upload.check P.x509 with
  | .error e, _ => (pod, .error e)
  | .ok _, .error e => (pod, .error e)
  | .ok endpoints, .ok () =>
    let pod := (controlEnvUpdate P faults.envUpdate (backboneSettings P endpoints) pod).1
    let written := perform faults.disk (backboneCalls P upload.toIdentityFiles) pod.files
    let pod := { pod with files := written.1 }
    match written.2 with
    | some e => (pod, .error (backboneWriteError P e))
    | none =>
      let configured := configureBackbone P faults endpoints pod
      match configured.2 with
      | .error e => (configured.1, .error e)
      | .ok () => startBackbone faults configured.1

end Efdi.Admin.Identities
