import Efdi.Base.PyDict
import Efdi.Base.PyJson
import Efdi.Base.PyStr

/-!
# Saving settings

`PUT /v1/config` checks the values of a request, and `_write_env` rewrites the `.env` file line by
line.  `_read_env` reads the settings back.

The reader cuts the file at the ends of its lines.  The writer cuts it with `str.splitlines`, which
also cuts at other characters, such as the vertical tab and the line separator.  A value with such
a character is read back as it was written, but the next request that is saved breaks its line
apart.  So a request changes its own keys only, exactly when the two ways to cut the file agree on
the other keys (`saved_keys_only_iff`).
-/

namespace PyStr

open List PyDict

/-- The text before and behind the first `c`, as in `s.split(c, 1)`. -/
def splitOnce (c : Char) (s : String) : Option (String × String) :=
  if c ∈ s.toList then
    some (String.ofList (s.toList.takeWhile (· != c)),
      String.ofList (s.toList.dropWhile (· != c)).tail)
  else none

/-- `s.lstrip()`. -/
def lstrip (s : String) : String := String.ofList (s.toList.dropWhile isSpace)

/-- A character at which `s.splitlines()` cuts, other than `\r`. -/
def endsLine (c : Char) : Bool :=
  [0x0a, 0x0b, 0x0c, 0x1c, 0x1d, 0x1e, 0x85, 0x2028, 0x2029].contains c.toNat

/-- `s.splitlines()`, for a text without `\r`. -/
def splitlines (s : String) : List String :=
  let parts := (s.toList.splitOnP endsLine).map String.ofList
  if parts.getLast? = some "" then parts.dropLast else parts

theorem splitOnce_append {c : Char} {s : String} (h : c ∉ s.toList) (t : String) :
    splitOnce c (s ++ String.ofList [c] ++ t) = some (s, t) := by
  have hlist : (s ++ String.ofList [c] ++ t).toList = s.toList ++ c :: t.toList := by
    rw [String.toList_append, String.toList_append, String.toList_ofList, append_assoc]
    rfl
  have hall : ∀ d ∈ s.toList, (d != c) = true := fun d hd => by
    rw [bne_iff_ne]
    rintro rfl
    exact h hd
  have htake : (s.toList ++ c :: t.toList).takeWhile (· != c) = s.toList := by
    rw [takeWhile_append_of_pos hall, takeWhile_cons_of_neg (by simp), append_nil]
  have hdrop : (s.toList ++ c :: t.toList).dropWhile (· != c) = c :: t.toList := by
    rw [dropWhile_append_of_pos hall, dropWhile_cons_of_neg (by simp)]
  rw [splitOnce, hlist, if_pos (by simp), htake, hdrop, String.ofList_toList, tail_cons,
    String.ofList_toList]

end PyStr

namespace Efdi.Control.Settings

/-! ## The file -/

/-- `KEY_RE.fullmatch(key)`. -/
def keyRe (key : String) : Bool :=
  match key.toList with
  | [] => false
  | first :: rest =>
    first.isUpper && rest.length ≤ 63 &&
      rest.all fun c => c.isUpper || c.isDigit || c == '_'

/-- `line.lstrip().startswith("#")`. -/
def isComment (line : String) : Bool := PyStr.startsWith (PyStr.lstrip line) "#"

/-- The key of a line, and what stands behind the `=`. -/
def parts (line : String) : Option (String × String) :=
  if isComment line then none else PyStr.splitOnce '=' line

/-- The setting of a line. -/
def setting (line : String) : Option (String × String) :=
  (parts line).filter fun entry => keyRe entry.1

/-- The settings of some lines. -/
def settings (lines : List String) : PyDict String String :=
  (lines.filterMap setting).foldl (fun values entry => values.set entry.1 entry.2) PyDict.empty

/-- The lines of the file as the loop of `_read_env` sees them, without their ends. -/
def readLines (file : Option String) : List String :=
  match file with
  | none => []
  | some text => PyStr.split '\n' (PyStr.newlines text)

/-- `_read_env`. -/
def readEnv (file : Option String) : PyDict String String := settings (readLines file)

/-- `ENV_FILE.read_text().splitlines()`. -/
def cutLines (file : Option String) : List String :=
  match file with
  | none => []
  | some text => PyStr.splitlines (PyStr.newlines text)

/-- What `_write_env` makes of a line. -/
def rewrite (updates : PyDict String String) (line : String) : String :=
  match parts line with
  | none => line
  | some (key, _) =>
    match updates.get? key with
    | none => line
    | some value => key ++ "=" ++ value

/-- `key in seen`, after the lines. -/
def seen (lines : List String) (key : String) : Bool :=
  lines.any fun line => (parts line).map Prod.fst == some key

/-- The lines that `_write_env` writes. -/
def outputLines (updates : PyDict String String) (lines : List String) : List String :=
  lines.map (rewrite updates) ++
    (updates.entries.filter fun entry => !seen lines entry.1).map fun entry =>
      entry.1 ++ "=" ++ entry.2

/-- `_write_env`. -/
def writeEnv (file : Option String) (updates : PyDict String String) : Option String :=
  some (PyStr.rstripChar '\n' (PyStr.join "\n" (outputLines updates (cutLines file))) ++ "\n")

/-! ## Requests -/

/-- `EDITABLE_EXACT`. -/
def editableExact : List String :=
  ["PARTNER_NAMESPACE", "NAMESPACE_PREFIX", "NAMESPACE_PREFIX_FILE", "DATA_NAMESPACE_PREFIX",
    "EFDI_STEP_CA_URL", "EFDI_STEP_RENEW_CERT_PATH", "EFDI_STEP_RENEW_KEY_PATH",
    "EFDI_STEP_RENEW_ROOT_PATH", "EFDI_STEP_RENEW_RUNTIME_CERT_PATH",
    "EFDI_STEP_RENEW_CHECK_SECONDS", "EFDI_STEP_RENEW_BEFORE_SECONDS", "EFDI_ROUTER_CA_CERT_PATH",
    "EFDI_ROUTER_CA_KEY_PATH", "EFDI_ROUTER_CA_CHAIN_PATH", "EFDI_POLICY_SIGNER_CERT_PATH",
    "EFDI_POLICY_SIGNER_KEY_PATH", "EFDI_STEP_CA_STATE_PATH", "ZENOH_LOCAL_ENDPOINT",
    "ZENOH_LISTEN_PORT", "ZENOH_LOCAL_TCP_PORT", "ZENOH_VERIFY_NAME_ON_CONNECT",
    "ZENOH_PLUGINS_LOADING_ENABLED", "UDP_INGRESS_PORT", "UDP_INGRESS_BIND",
    "UDP_INGRESS_ALLOW_SOURCE", "ASTERIX_PORT", "ASTERIX_BIND", "ASTERIX_CATEGORIES",
    "ASTERIX_MULTICAST_GROUP", "ASTERIX_MULTICAST_INTERFACE", "ASTERIX_ALLOW_SOURCE",
    "ASTERIX_ZENOH_UPSTREAM_ENDPOINT", "ASTERIX_ZENOH_UPSTREAM_ROOT", "TAK_HOST",
    "TAK_HOST_FALLBACK", "TAK_HOST_TAILSCALE", "TAK_PORT", "TAK_TLS", "TAK_TLS_SERVER_NAME",
    "TAK_CERT", "TAK_KEY", "TAK_CA", "TAK_INGEST_PORT", "TAK_INGEST_TLS", "TAK_INGEST_CERT",
    "TAK_INGEST_KEY", "TAK_INGEST_CA", "SITAWARE_TAK_INDIVIDUAL_SCHEME", "SITAWARE_TAK_USERS_NVG",
    "SITAWARE_URL", "SITAWARE_URL_FALLBACK", "SITAWARE_URL_TAILSCALE", "SITAWARE_API_PATH",
    "SITAWARE_USER", "SITAWARE_PASS", "SITAWARE_POLL_S", "SITAWARE_TLS_VERIFY",
    "SITAWARE_DISCOVER", "SITAWARE_HQ_NVG_ENABLE", "SITAWARE_HQ_NVG_BIND", "SITAWARE_HQ_NVG_PORT",
    "SITAWARE_HQ_NVG_PATH", "SITAWARE_HQ_NVG_USER", "SITAWARE_HQ_NVG_PASS",
    "SITAWARE_HQ_NVG_TLS_CERT", "SITAWARE_HQ_NVG_TLS_KEY", "SITAWARE_HQ_NVG_STALE_S",
    "SITAWARE_HQ_NVG_MAX_TRACKS", "SITAWARE_HQ_NVG_ALLOW_ANONYMOUS",
    "SITAWARE_HQ_NVG_ALLOW_INSECURE_HTTP", "MAINLINE_TERMINAL_URL", "MAINLINE_TERMINAL_USER",
    "MAINLINE_TERMINAL_PASS", "MAVLINK_ENDPOINT", "EFDI_LOCAL_FABRIC_LABEL",
    "EFDI_LOCAL_FABRIC_ENDPOINTS", "EFDI_LOCAL_FABRIC_PROFILE", "EFDI_BACKBONE_FABRIC_LABEL",
    "EFDI_BACKBONE_FABRIC_ENDPOINTS", "EFDI_BACKBONE_FABRIC_PROFILE", "ZENOH_LOG", "MQTT_HOST",
    "MQTT_PORT", "MQTT_TOPIC", "MQTT_USER", "MQTT_PASS", "MQTT_TLS", "MQTT_QOS", "MQTT_CLIENT_ID",
    "MQTT_INPUT_TOPIC", "SPARKPLUG_INPUT_TOPIC", "SPARKPLUG_MAX_NODES", "STANAG4609_SRT_URL",
    "STANAG4609_SOURCE", "STANAG4609_VIDEO_RELAY_ENABLE", "STANAG4609_VIDEO_PATH",
    "CAP_INPUT_TOPIC", "CAP_ACTIVE_ONLY", "SENSOR_HEALTH_INPUT_TOPIC",
    "MISSION_ROUTE_INPUT_TOPIC", "SAPIENT_HOST", "SAPIENT_PORT", "SAPIENT_LISTEN_PORT",
    "SAPIENT_BIND", "SAPIENT_ALLOW_PEER", "SAPIENT_ZENOH_RAW", "SAPIENT_RAW_PORT",
    "SAPIENT_RAW_TOPIC", "STANAG4586_HOST", "STANAG4586_PORT", "STANAG4586_PROFILE",
    "STANAG4586_ZENOH_RAW", "STANAG4586_RAW_PORT", "STANAG4586_RAW_TOPIC", "INTCORE_URL",
    "INTCORE_API_KEY", "INTCORE_TOPIC_ID", "INTCORE_DATA_SOURCE_ID", "INTCORE_TLS_VERIFY",
    "INTCORE_UI_URL", "INTCORE_BRIDGE_BIND", "INTCORE_BRIDGE_PORT", "INTCORE_BRIDGE_PATH",
    "INTCORE_BRIDGE_TOKEN", "INTCORE_SOURCE"]

/-- `EDITABLE_PREFIXES`. -/
def editablePrefixes : List String :=
  ["CAT10_", "CAT20_", "CAT21_", "CAT34_", "CAT48_", "CAT62_", "NFFI_", "FFI_"]

/-- `_allowed_key`. -/
def allowedKey (key : String) : Bool :=
  editableExact.contains key || editablePrefixes.any (PyStr.startsWith key)

/-- A character of `NAMESPACE_PREFIX`. -/
def prefixChar (c : Char) : Bool := c.isAlphanum || "._/-".toList.contains c

/-- The text of a value, where `floatStr` is `str` of a float. -/
def valueText (floatStr : PyFloat → String) (key : String) : PyJson → Except String String
  | .null => .ok ""
  | .bool b => .ok (if b then "1" else "0")
  | .int n => .ok (toString n)
  | .float x => .ok (floatStr x)
  | .str s => .ok s
  | _ => .error s!"configuration value for {key} must be scalar"

/-- The checks of one entry of `values`. -/
def checkEntry (floatStr : PyFloat → String) (key : String) (value : PyJson) :
    Except String String := do
  if !keyRe key || !allowedKey key then
    throw s!"unsupported configuration key: {key}"
  let text ← valueText floatStr key value
  if '\r' ∈ text.toList ∨ '\n' ∈ text.toList then
    throw s!"configuration value for {key} contains a newline"
  if key = "NAMESPACE_PREFIX" ∧ ¬ PyStr.classMatch prefixChar 1 (PyStr.len text) text then
    throw "NAMESPACE_PREFIX contains unsupported characters"
  return text

/-- The entries of `values`, one after the other. -/
def collect (floatStr : PyFloat → String) (updates : PyDict String String) :
    List (String × PyJson) → Except String (PyDict String String)
  | [] => .ok updates
  | (key, value) :: entries => do
      let text ← checkEntry floatStr key value
      collect floatStr (updates.set key text) entries

/-- The updates of a request, for the JSON of its body. -/
def accept (floatStr : PyFloat → String) : PyJson → Except String (PyDict String String)
  | .dict body =>
    match PyJson.lookup "values" body with
    | some (.dict values) =>
      if 200 < values.length then .error "values must be an object with at most 200 keys"
      else collect floatStr PyDict.empty values
    | _ => .error "values must be an object with at most 200 keys"
  | _ => .error "JSON object required"

/-- A request: the file afterwards. -/
def put (floatStr : PyFloat → String) (file : Option String) (body : PyJson) : Option String :=
  match accept floatStr body with
  | .ok updates => writeEnv file updates
  | .error _ => file

/-! ## Reading -/

/-- The value of a key is that of its last entry. -/
theorem get?_foldl_entries (key : String) : ∀ (entries : List (String × String))
    (values : PyDict String String),
    (entries.foldl (fun values entry => values.set entry.1 entry.2) values).get? key =
      match (entries.filter fun entry => entry.1 == key).getLast? with
      | some entry => some entry.2
      | none => values.get? key := by
  intro entries
  induction entries using List.reverseRecOn with
  | nil => exact fun _ => rfl
  | append_singleton entries entry ih =>
    intro values
    rw [List.foldl_append, List.filter_append]
    by_cases hkey : entry.1 = key
    · rw [List.filter_cons_of_pos (by simpa using hkey), List.filter_nil, List.getLast?_concat,
        ← hkey]
      exact PyDict.get?_set_self ..
    · rw [List.filter_cons_of_neg (by simpa using hkey), List.filter_nil, List.append_nil, ← ih]
      exact PyDict.get?_set_of_ne _ (Ne.symm hkey) _

/-- The entries of a key decide its value. -/
theorem get?_settings (lines : List String) (key : String) :
    (settings lines).get? key =
      (((lines.filterMap setting).filter fun entry => entry.1 == key).getLast?).map Prod.snd := by
  rw [settings, get?_foldl_entries]
  cases ((lines.filterMap setting).filter fun entry => entry.1 == key).getLast? <;> rfl

theorem setting_empty : setting "" = none := by decide

theorem settings_concat_empty (lines : List String) : settings (lines ++ [""]) = settings lines := by
  rw [settings, settings, List.filterMap_append]
  show ((lines.filterMap setting) ++ [""].filterMap setting).foldl _ _ = _
  rw [List.filterMap_cons, setting_empty, List.filterMap_nil, List.append_nil]

/-- A line end more changes nothing. -/
theorem settings_newline (text : String) :
    settings (PyStr.split '\n' (text ++ "\n")) = settings (PyStr.split '\n' text) := by
  have hsplit := PyStr.split_append '\n' text ""
  rw [show String.ofList ['\n'] ++ "" = "\n" from rfl,
    show PyStr.split '\n' "" = [""] from rfl] at hsplit
  rw [hsplit, settings_concat_empty]

/-- The line ends at the end are no matter. -/
theorem settings_rstrip (text : String) :
    settings (PyStr.split '\n' (PyStr.rstripChar '\n' text)) =
      settings (PyStr.split '\n' text) := by
  have hlist : ∀ cs : List Char,
      settings (PyStr.split '\n' (String.ofList (cs.dropWhile (· == '\n')).reverse)) =
        settings (PyStr.split '\n' (String.ofList cs.reverse)) := by
    intro cs
    induction cs with
    | nil => rfl
    | cons c cs ih =>
      by_cases hc : (c == '\n') = true
      · rw [List.dropWhile_cons, if_pos hc, ih, List.reverse_cons, String.ofList_append,
          beq_iff_eq.mp hc]
        exact (settings_newline _).symm
      · rw [List.dropWhile_cons, if_neg hc]
  rw [PyStr.rstripChar, hlist, List.reverse_reverse, String.ofList_toList]

/-! ## One line -/

variable {key : String} {c : Char} {updates : PyDict String String} {body : PyJson}

theorem keyRe_cons (h : keyRe key = true) : ∃ first rest,
    key.toList = first :: rest ∧ first.isUpper = true ∧
      ∀ c ∈ rest, (c.isUpper || c.isDigit || c == '_') = true := by
  rw [keyRe] at h
  cases hkey : key.toList with
  | nil =>
    rw [hkey] at h
    cases h
  | cons first rest =>
    rw [hkey] at h
    simp only [Bool.and_eq_true] at h
    exact ⟨first, rest, rfl, h.1.1, fun c hc => List.all_eq_true.mp h.2 c hc⟩

theorem notMem_of_keyRe (h : keyRe key = true) (hc : (c.isUpper || c.isDigit || c == '_') = false) :
    c ∉ key.toList := by
  obtain ⟨first, rest, hkey, hfirst, hrest⟩ := keyRe_cons h
  rw [hkey, List.mem_cons, not_or]
  constructor
  · rintro rfl
    rw [hfirst] at hc
    cases hc
  · intro hmem
    rw [hrest c hmem] at hc
    cases hc

/-- A line that is written for a key is split at its `=`. -/
theorem parts_line (h : keyRe key = true) (value : String) :
    parts (key ++ "=" ++ value) = some (key, value) := by
  obtain ⟨first, rest, hkey, hfirst, -⟩ := keyRe_cons h
  have hlist : (key ++ "=" ++ value).toList = first :: (rest ++ "=".toList ++ value.toList) := by
    rw [String.toList_append, String.toList_append, hkey]
    rfl
  have hupper : 65 ≤ first.toNat ∧ first.toNat ≤ 90 := by
    unfold Char.isUpper at hfirst
    simp only [decide_eq_true_eq] at hfirst
    exact hfirst
  have hspace : PyStr.isSpace first = false := by
    rw [PyStr.isSpace]
    simp only [Bool.or_eq_false_iff, Bool.and_eq_false_iff, decide_eq_false_iff_not,
      beq_eq_false_iff_ne]
    omega
  have hcomment : isComment (key ++ "=" ++ value) = false := by
    rw [isComment, PyStr.lstrip, hlist, List.dropWhile_cons_of_neg (by simp [hspace]),
      PyStr.startsWith, String.toList_ofList, String.toList_ofList]
    show ((['#'] : List Char).isPrefixOf (first :: _)) = false
    rw [List.isPrefixOf_cons_cons, Bool.and_eq_false_iff, beq_eq_false_iff_ne]
    left
    rintro rfl
    exact absurd hupper.1 (by decide)
  rw [parts, if_neg (by simp [hcomment])]
  exact PyStr.splitOnce_append (notMem_of_keyRe h (by decide)) value

theorem setting_line (h : keyRe key = true) (value : String) :
    setting (key ++ "=" ++ value) = some (key, value) := by
  rw [setting, parts_line h]
  exact if_pos h

/-- A rewritten line gives its setting, with the value of the update. -/
theorem setting_rewrite (h : ∀ key value, updates.get? key = some value → keyRe key = true)
    (line : String) :
    setting (rewrite updates line) =
      (setting line).map fun entry => (entry.1, (updates.get? entry.1).getD entry.2) := by
  cases hparts : parts line with
  | none =>
    have hnone : setting line = none := by
      rw [setting, hparts]
      rfl
    rw [rewrite, hparts, hnone]
    rfl
  | some entry =>
    obtain ⟨key, rest⟩ := entry
    have hsetting : setting line = if keyRe key then some (key, rest) else none := by
      rw [setting, hparts]
      rfl
    cases hget : updates.get? key with
    | none =>
      have hsame : rewrite updates line = line := by
        rw [rewrite, hparts]
        simp only [hget]
      rw [hsame, hsetting]
      by_cases hkey : keyRe key = true
      · rw [if_pos hkey, Option.map_some, hget]
        rfl
      · rw [if_neg hkey]
        rfl
    | some value =>
      have hnew : rewrite updates line = key ++ "=" ++ value := by
        rw [rewrite, hparts]
        simp only [hget]
      rw [hnew, setting_line (h key value hget), hsetting, if_pos (h key value hget),
        Option.map_some, hget]
      rfl

/-! ## Saving -/

/-- The updates of a request name settings, and their values lie on one line. -/
structure Clean (updates : PyDict String String) : Prop where
  key : ∀ key value, updates.get? key = some value → keyRe key = true
  newline : ∀ key value, updates.get? key = some value → '\n' ∉ value.toList
  carriage : ∀ key value, updates.get? key = some value → '\r' ∉ value.toList

/-- A part has characters of the list at which it is not cut. -/
theorem mem_splitOnP {p : Char → Bool} : ∀ {cs part : List Char} {c : Char},
    part ∈ cs.splitOnP p → c ∈ part → c ∈ cs ∧ p c = false
  | [], part, c, hpart, hc => by
    rw [List.splitOnP_nil, List.mem_singleton] at hpart
    rw [hpart] at hc
    cases hc
  | x :: cs, part, c, hpart, hc => by
    rw [List.splitOnP_cons_eq_if_modifyHead] at hpart
    by_cases hx : p x = true
    · rw [if_pos hx] at hpart
      rcases List.mem_cons.mp hpart with rfl | hpart
      · cases hc
      · obtain ⟨hmem, hp⟩ := mem_splitOnP hpart hc
        exact ⟨List.mem_cons_of_mem _ hmem, hp⟩
    · rw [if_neg hx] at hpart
      cases hrest : cs.splitOnP p with
      | nil => exact absurd hrest (List.splitOnP_ne_nil _ _)
      | cons first others =>
        rw [hrest, List.modifyHead_cons] at hpart
        rcases List.mem_cons.mp hpart with rfl | hpart
        · rcases List.mem_cons.mp hc with rfl | hc
          · exact ⟨List.mem_cons_self, Bool.eq_false_iff.mpr hx⟩
          · obtain ⟨hmem, hp⟩ := mem_splitOnP (hrest ▸ List.mem_cons_self) hc
            exact ⟨List.mem_cons_of_mem _ hmem, hp⟩
        · obtain ⟨hmem, hp⟩ := mem_splitOnP (hrest ▸ List.mem_cons_of_mem _ hpart) hc
          exact ⟨List.mem_cons_of_mem _ hmem, hp⟩

/-- The lines that the writer reads hold no line end. -/
theorem notMem_cutLines {file : Option String} {line : String} (h : line ∈ cutLines file) :
    '\n' ∉ line.toList ∧ '\r' ∉ line.toList := by
  cases file with
  | none => cases h
  | some text =>
    have hline : line ∈ ((PyStr.newlines text).toList.splitOnP PyStr.endsLine).map
        String.ofList := by
      rw [cutLines, PyStr.splitlines] at h
      split at h
      · exact List.mem_of_mem_dropLast h
      · exact h
    obtain ⟨part, hpart, rfl⟩ := List.mem_map.mp hline
    rw [String.toList_ofList]
    constructor
    · intro hmem
      have hends : PyStr.endsLine '\n' = true := by decide
      rw [(mem_splitOnP hpart hmem).2] at hends
      cases hends
    · intro hmem
      exact PyStr.return_notMem_newlines text (mem_splitOnP hpart hmem).1

theorem notMem_setting {value : String} (hkey : keyRe key = true)
    (hc : (c.isUpper || c.isDigit || c == '_') = false) (hequals : c ≠ '=')
    (hvalue : c ∉ value.toList) : c ∉ (key ++ "=" ++ value).toList := by
  rw [String.toList_append, String.toList_append, List.mem_append, List.mem_append, not_or, not_or]
  refine ⟨⟨notMem_of_keyRe hkey hc, fun hmem => hequals (List.mem_singleton.mp hmem)⟩, hvalue⟩

/-- The lines that the writer writes hold no line end. -/
theorem notMem_outputLines (h : Clean updates) {file : Option String} {line : String}
    (hline : line ∈ outputLines updates (cutLines file)) :
    '\n' ∉ line.toList ∧ '\r' ∉ line.toList := by
  have hwritten : ∀ key value, updates.get? key = some value →
      '\n' ∉ (key ++ "=" ++ value).toList ∧ '\r' ∉ (key ++ "=" ++ value).toList := by
    intro key value hget
    have hkey := h.key key value hget
    exact ⟨notMem_setting hkey (by decide) (by decide) (h.newline key value hget),
      notMem_setting hkey (by decide) (by decide) (h.carriage key value hget)⟩
  rcases List.mem_append.mp hline with hline | hline
  · obtain ⟨old, hold, rfl⟩ := List.mem_map.mp hline
    rw [rewrite]
    split
    next => exact notMem_cutLines hold
    next key rest hparts =>
      split
      next => exact notMem_cutLines hold
      next value hget => exact hwritten key value hget
  · obtain ⟨entry, hentry, rfl⟩ := List.mem_map.mp hline
    exact hwritten entry.1 entry.2
      (PyDict.get?_eq_some_iff.mpr (List.mem_of_mem_filter hentry))

theorem mem_rstripChar {d : Char} {s : String} (h : c ∈ (PyStr.rstripChar d s).toList) :
    c ∈ s.toList := by
  rw [PyStr.rstripChar, String.toList_ofList, List.mem_reverse] at h
  exact List.mem_reverse.mp ((List.dropWhile_sublist _).subset h)

/-- The reader sees the lines that were written. -/
theorem readEnv_writeEnv (h : Clean updates) (file : Option String) :
    readEnv (writeEnv file updates) = settings (outputLines updates (cutLines file)) := by
  have hcarriage : '\r' ∉ (PyStr.rstripChar '\n'
      (PyStr.join "\n" (outputLines updates (cutLines file))) ++ "\n").toList := by
    rw [String.toList_append, List.mem_append, not_or]
    refine ⟨fun hmem => ?_, by decide⟩
    rcases PyStr.mem_join (mem_rstripChar hmem) with hsep | ⟨line, hline, hc⟩
    · exact absurd hsep (by decide)
    · exact (notMem_outputLines h hline).2 hc
  rw [readEnv, writeEnv, readLines, PyStr.newlines_of_notMem hcarriage, settings_newline,
    settings_rstrip]
  by_cases hempty : outputLines updates (cutLines file) = []
  · rw [hempty]
    decide
  · exact congrArg settings (PyStr.split_join hempty fun line hline =>
      (notMem_outputLines h hline).1)

/-- Filtering by the key commutes with a change of the values. -/
theorem filter_map_entry (f : String × String → String) (key : String) :
    ∀ entries : List (String × String),
      (entries.map fun entry => (entry.1, f entry)).filter (fun entry => entry.1 == key) =
        (entries.filter fun entry => entry.1 == key).map fun entry => (entry.1, f entry) := by
  intro entries
  rw [List.filter_map]
  rfl

/-- The settings that are written: the updates, and the other settings of the lines. -/
theorem get?_outputLines (h : Clean updates) (lines : List String) (key : String) :
    (settings (outputLines updates lines)).get? key =
      match updates.get? key with
      | some value => some value
      | none => (settings lines).get? key := by
  have hrewritten : (lines.map (rewrite updates)).filterMap setting =
      (lines.filterMap setting).map fun entry =>
        (entry.1, (updates.get? entry.1).getD entry.2) := by
    rw [List.filterMap_map, List.map_filterMap]
    refine List.filterMap_congr fun line _ => ?_
    rw [Function.comp_apply]
    exact setting_rewrite h.key line
  have hadded : ((updates.entries.filter fun entry => !seen lines entry.1).map
      fun entry => entry.1 ++ "=" ++ entry.2).filterMap setting =
        updates.entries.filter fun entry => !seen lines entry.1 := by
    rw [List.filterMap_map]
    refine (List.filterMap_congr fun entry hentry => ?_).trans List.filterMap_some
    have hget := PyDict.get?_eq_some_iff.mpr (List.mem_of_mem_filter hentry)
    rw [Function.comp_apply, setting_line (h.key entry.1 entry.2 hget)]
  rw [get?_settings, get?_settings, outputLines, List.filterMap_append, hrewritten, hadded,
    List.filter_append, filter_map_entry]
  cases hget : updates.get? key with
  | none =>
    have hold : ((lines.filterMap setting).filter fun entry => entry.1 == key).map
        (fun entry => (entry.1, (updates.get? entry.1).getD entry.2)) =
          (lines.filterMap setting).filter fun entry => entry.1 == key := by
      refine (List.map_congr_left fun entry hentry => ?_).trans (List.map_id _)
      have hkey : entry.1 = key := beq_iff_eq.mp (List.mem_filter.mp hentry).2
      rw [hkey, hget]
      exact Prod.ext hkey.symm rfl
    have hnew : (updates.entries.filter fun entry => !seen lines entry.1).filter
        (fun entry => entry.1 == key) = [] := by
      refine List.filter_eq_nil_iff.mpr fun entry hentry hkey => ?_
      have hmem := PyDict.get?_eq_some_iff.mpr (List.mem_of_mem_filter hentry)
      rw [beq_iff_eq.mp hkey, hget] at hmem
      cases hmem
    rw [hold, hnew, List.append_nil]
  | some value =>
    have hall : ∀ entry ∈ ((lines.filterMap setting).filter fun entry => entry.1 == key).map
          (fun entry => (entry.1, (updates.get? entry.1).getD entry.2)) ++
        (updates.entries.filter fun entry => !seen lines entry.1).filter
          (fun entry => entry.1 == key), entry.2 = value := by
      intro entry hentry
      rcases List.mem_append.mp hentry with hentry | hentry
      · obtain ⟨old, hold, rfl⟩ := List.mem_map.mp hentry
        have hkey : old.1 = key := beq_iff_eq.mp (List.mem_filter.mp hold).2
        show (updates.get? old.1).getD old.2 = value
        rw [hkey, hget]
        rfl
      · obtain ⟨hmem, hkey⟩ := List.mem_filter.mp hentry
        have hlookup := PyDict.get?_eq_some_iff.mpr (List.mem_of_mem_filter hmem)
        rw [beq_iff_eq.mp hkey, hget] at hlookup
        exact (Option.some.inj hlookup).symm
    have hne : ((lines.filterMap setting).filter fun entry => entry.1 == key).map
          (fun entry => (entry.1, (updates.get? entry.1).getD entry.2)) ++
        (updates.entries.filter fun entry => !seen lines entry.1).filter
          (fun entry => entry.1 == key) ≠ [] := by
      have hmem := PyDict.get?_eq_some_iff.mp hget
      have hkey := h.key key value hget
      by_cases hseen : seen lines key = true
      · obtain ⟨line, hline, hparts⟩ := List.any_eq_true.mp hseen
        obtain ⟨entry, hentry, rfl⟩ := Option.map_eq_some_iff.mp (beq_iff_eq.mp hparts)
        have hsetting : setting line = some entry := by
          rw [setting, hentry]
          exact if_pos hkey
        refine List.append_ne_nil_of_left_ne_nil ?_ _
        refine List.ne_nil_of_mem (List.mem_map_of_mem (List.mem_filter.mpr
          ⟨List.mem_filterMap.mpr ⟨line, hline, hsetting⟩, beq_self_eq_true _⟩))
      · refine List.append_ne_nil_of_right_ne_nil _ ?_
        exact List.ne_nil_of_mem (List.mem_filter.mpr
          ⟨List.mem_filter.mpr ⟨hmem, by simp [hseen]⟩, beq_self_eq_true _⟩)
    rw [List.getLast?_eq_some_getLast hne, Option.map_some, hall _ (List.getLast_mem hne)]

/-! ## Runs of requests -/

/-- The values that pass the checks. -/
structure Checked (key value : String) : Prop where
  named : keyRe key = true
  allowed : allowedKey key = true
  newline : '\n' ∉ value.toList
  carriage : '\r' ∉ value.toList

variable {floatStr : PyFloat → String}

theorem checked_of_checkEntry {text : String} {value : PyJson}
    (h : checkEntry floatStr key value = .ok text) : Checked key text := by
  rw [checkEntry] at h
  by_cases hkey : (!keyRe key || !allowedKey key) = true
  · rw [if_pos hkey] at h
    cases h
  rw [if_neg hkey] at h
  cases hvalue : valueText floatStr key value with
  | error message =>
    rw [hvalue] at h
    cases h
  | ok written =>
    rw [hvalue] at h
    change (if '\r' ∈ written.toList ∨ '\n' ∈ written.toList then _ else _) = _ at h
    by_cases hline : '\r' ∈ written.toList ∨ '\n' ∈ written.toList
    · rw [if_pos hline] at h
      cases h
    rw [if_neg hline] at h
    change (if _ then _ else _) = _ at h
    split at h
    · cases h
    · cases h
      simp only [Bool.or_eq_true, Bool.not_eq_true', not_or, Bool.not_eq_false] at hkey
      exact ⟨hkey.1, hkey.2, fun hmem => hline (Or.inr hmem), fun hmem => hline (Or.inl hmem)⟩

theorem checked_of_collect : ∀ {entries : List (String × PyJson)}
    {updates result : PyDict String String},
    (∀ key value, updates.get? key = some value → Checked key value) →
      collect floatStr updates entries = .ok result →
        ∀ key value, result.get? key = some value → Checked key value
  | [], updates, result, h, hresult => by
    cases hresult
    exact h
  | (name, value) :: entries, updates, result, h, hresult => by
    rw [collect] at hresult
    cases htext : checkEntry floatStr name value with
    | error message =>
      rw [htext] at hresult
      cases hresult
    | ok text =>
      rw [htext] at hresult
      refine checked_of_collect (fun key value hget => ?_) hresult
      by_cases hkey : key = name
      · rw [hkey, PyDict.get?_set_self] at hget
        rw [hkey, ← Option.some.inj hget]
        exact checked_of_checkEntry htext
      · rw [PyDict.get?_set_of_ne _ hkey] at hget
        exact h key value hget

/-- The updates of a request have passed the checks. -/
theorem checked_of_accept (h : accept floatStr body = .ok updates) :
    ∀ key value, updates.get? key = some value → Checked key value := by
  cases body with
  | dict body =>
    rw [accept] at h
    split at h
    next values hvalues =>
      split at h
      next => cases h
      next => exact checked_of_collect (fun key value hget => by cases hget) h
    next => cases h
  | null => cases h
  | bool b => cases h
  | int n => cases h
  | float x => cases h
  | str s => cases h
  | list xs => cases h

theorem clean_of_accept (h : accept floatStr body = .ok updates) : Clean updates :=
  ⟨fun key value hget => (checked_of_accept h key value hget).named,
    fun key value hget => (checked_of_accept h key value hget).newline,
    fun key value hget => (checked_of_accept h key value hget).carriage⟩

/-- The file after some requests. -/
def run (floatStr : PyFloat → String) (file : Option String) (bodies : List PyJson) :
    Option String := bodies.foldl (put floatStr) file

/-- The settings afterwards are those before, with the updates, and what changed may be set. -/
def SavesOnly (before after : Option String) (updates : PyDict String String) : Prop :=
  (∀ key, (readEnv after).get? key =
    match updates.get? key with
    | some value => some value
    | none => (readEnv before).get? key) ∧
  ∀ key, (readEnv after).get? key ≠ (readEnv before).get? key → allowedKey key = true

/-- The two ways to cut the file give the keys that are not saved the same values. -/
def CutsAgree (file : Option String) (updates : PyDict String String) : Prop :=
  ∀ key, updates.get? key = none →
    (settings (cutLines file)).get? key = (settings (readLines file)).get? key

/-- One request. -/
theorem savesOnly_iff (h : accept floatStr body = .ok updates) (file : Option String) :
    SavesOnly file (put floatStr file body) updates ↔ CutsAgree file updates := by
  have hget : ∀ key, (readEnv (put floatStr file body)).get? key =
      match updates.get? key with
      | some value => some value
      | none => (settings (cutLines file)).get? key := by
    intro key
    rw [put, h]
    show (readEnv (writeEnv file updates)).get? key = _
    rw [readEnv_writeEnv (clean_of_accept h), get?_outputLines (clean_of_accept h)]
  constructor
  · rintro ⟨hsaved, -⟩ key hkey
    have hboth := (hget key).symm.trans (hsaved key)
    rw [hkey] at hboth
    exact hboth
  · intro hcut
    have hsaved : ∀ key, (readEnv (put floatStr file body)).get? key =
        match updates.get? key with
        | some value => some value
        | none => (readEnv file).get? key := by
      intro key
      rw [hget]
      cases hkey : updates.get? key with
      | none => exact hcut key hkey
      | some value => rfl
    refine ⟨hsaved, fun key hne => ?_⟩
    cases hkey : updates.get? key with
    | none =>
      rw [hsaved key, hkey] at hne
      exact absurd rfl hne
    | some value => exact (checked_of_accept h key value hkey).allowed

/-- Every request of a run saves its keys only, exactly when at every request the two ways to cut
the file agree on the keys that are not saved. -/
theorem saved_keys_only_iff (floatStr : PyFloat → String) (file : Option String)
    (bodies : List PyJson) :
    (∀ before body after updates, bodies = before ++ body :: after →
        accept floatStr body = .ok updates →
          SavesOnly (run floatStr file before) (run floatStr file (before ++ [body])) updates) ↔
      ∀ before body after updates, bodies = before ++ body :: after →
        accept floatStr body = .ok updates → CutsAgree (run floatStr file before) updates := by
  refine forall₄_congr fun before body after updates => forall₂_congr fun _ haccept => ?_
  rw [run, run, List.foldl_append]
  exact savesOnly_iff haccept _

/-- Two requests: the first saves a value with a vertical tab. -/
def tabbedRequests : List PyJson :=
  [.dict [("values", .dict [("PARTNER_NAMESPACE", .str "a\x0bDATA_NAMESPACE_PREFIX=b")])],
    .dict [("values", .dict [("NAMESPACE_PREFIX_FILE", .str "f")])]]

/-- The value is read back as it was written, and the second request breaks its line apart. -/
theorem second_request_breaks :
    (readEnv (run (fun _ => "") none (tabbedRequests.take 1))).get? "PARTNER_NAMESPACE" =
        some "a\x0bDATA_NAMESPACE_PREFIX=b" ∧
      (readEnv (run (fun _ => "") none (tabbedRequests.take 1))).get? "DATA_NAMESPACE_PREFIX" =
        none ∧
      (accept (fun _ => "") (tabbedRequests.getLast (by decide))).isOk = true ∧
      (readEnv (run (fun _ => "") none tabbedRequests)).get? "PARTNER_NAMESPACE" = some "a" ∧
      (readEnv (run (fun _ => "") none tabbedRequests)).get? "DATA_NAMESPACE_PREFIX" =
        some "b" := by
  have hfirst : run (fun _ => "") none (tabbedRequests.take 1) =
      some "PARTNER_NAMESPACE=a\x0bDATA_NAMESPACE_PREFIX=b\n" := by decide +kernel
  have hsecond : run (fun _ => "") none tabbedRequests =
      some "PARTNER_NAMESPACE=a\nDATA_NAMESPACE_PREFIX=b\nNAMESPACE_PREFIX_FILE=f\n" := by
    have hrun : run (fun _ => "") none tabbedRequests =
        put (fun _ => "") (run (fun _ => "") none (tabbedRequests.take 1))
          (.dict [("values", .dict [("NAMESPACE_PREFIX_FILE", .str "f")])]) := rfl
    rw [hrun, hfirst]
    decide +kernel
  rw [hfirst, hsecond]
  refine ⟨?_, ?_, ?_, ?_, ?_⟩ <;> decide +kernel

end Efdi.Control.Settings
