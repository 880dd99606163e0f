import Efdi.Config.Render

/-!
# The text of a rendered config

What `renderConfig` returns, for all fields that pass the validators.  The values keep
inside the holes of the template (`ConfigFields.fits`), so the text has the value of the
template's tree with the holes filled (`loads_renderedText`).

A namespace may end in a newline, which the pattern of its validator lets pass.  Such a
value breaks out of the comment of the template that mentions it, and the text is not
JSON5.  So rendering succeeds exactly for namespaces on one line: `renderConfig_ok_iff`.
-/

namespace Efdi

open Checks List PyStr
open Option hiding all_eq_true
open Json5 (Library Symbol symbols stringChar writable lineEnd lexText Fits)
open Template (Piece valueOf)

/-! ## Alphabets -/

variable {c : Char} {rendered : String} {J : Library}

theorem toNat_of_endpointChar (h : endpointChar c = true) :
    45 ≤ c.toNat ∧ c.toNat ≤ 122 ∧ c ≠ '\\' := by
  have hback : c ≠ '\\' := by
    rintro rfl
    exact absurd h (by decide)
  unfold endpointChar namespaceChar Char.isAlphanum Char.isAlpha Char.isUpper Char.isLower
    Char.isDigit at h
  simp only [Bool.or_eq_true, Bool.and_eq_true, decide_eq_true_eq, beq_iff_eq,
    ge_iff_le, UInt32.le_iff_toNat_le] at h
  have hval : c.val.toNat = c.toNat := rfl
  rw [hval] at h
  rcases h with (((((h | h) | rfl) | rfl) | rfl) | rfl) | rfl
  · refine ⟨?_, ?_, hback⟩ <;> · simp at h; omega
  · refine ⟨?_, ?_, hback⟩ <;> · simp at h; omega
  all_goals exact ⟨by decide, by decide, hback⟩

theorem endpointChar_of_namespaceChar (h : namespaceChar c = true) :
    endpointChar c = true := by
  rw [endpointChar, h]
  rfl

theorem stringChar_of_endpointChar (h : endpointChar c = true) :
    stringChar c = true ∧ c ≠ '$' ∧ writable c = true := by
  obtain ⟨hlow, hhigh, hback⟩ := toNat_of_endpointChar h
  have hne : ∀ d : Char, d.toNat < 45 → c ≠ d := by
    rintro d hd rfl
    omega
  have hwritable : writable c = true := by
    simp only [writable, Bool.or_eq_true, Bool.and_eq_true, decide_eq_true_eq]
    exact .inl ⟨by omega, by omega⟩
  refine ⟨?_, hne '$' (by decide), hwritable⟩
  simp only [stringChar, Bool.and_eq_true, bne_iff_ne, ne_eq, Bool.not_eq_true']
  exact ⟨⟨hne '"' (by decide), hback⟩,
    Json5.lineEnd_of_writable hwritable (hne '\n' (by decide))⟩

/-- A safe text is over the alphabet, but for one newline at its end. -/
theorem all_of_safeMatch {p : Char → Bool} {s : String} (h : safeMatch p s = true) :
    ∀ c ∈ s.toList, p c = true ∨ c = '\n' := by
  intro c hc
  simp only [safeMatch, Bool.and_eq_true, all_eq_true] at h
  split at h
  next hlast =>
    have hsplit := dropLast_append_getLast? '\n' hlast
    rw [← hsplit] at hc
    rcases mem_append.mp hc with hc | hc
    · exact .inl (h.2 c hc)
    · exact .inr (mem_singleton.mp hc)
  · exact .inl (h.2 c hc)

/-- A safe text with a newline ends in it. -/
theorem eq_append_newline {s : String} (h : safeMatch namespaceChar s = true)
    (hnl : '\n' ∈ s.toList) :
    ∃ body, s.toList = body ++ ['\n'] ∧ ∀ c ∈ body, namespaceChar c = true := by
  simp only [safeMatch, Bool.and_eq_true, all_eq_true] at h
  split at h
  next hlast =>
    exact ⟨_, (dropLast_append_getLast? '\n' hlast).symm, h.2⟩
  · exact absurd (h.2 _ hnl) (by decide)

/-! ## Numbers -/

theorem decimalDigit_of_isDigit (h : c.isDigit = true) :
    decimalDigit c = some (c.toNat - '0'.toNat) := by
  have hrange : 48 ≤ c.toNat ∧ c.toNat < 58 := by
    simp only [Char.isDigit, Bool.and_eq_true, decide_eq_true_eq, ge_iff_le,
      UInt32.le_iff_toNat_le] at h
    have hval : c.val.toNat = c.toNat := rfl
    rw [hval] at h
    simp at h
    omega
  simp [decimalDigit, decimalZeros, hrange.1, hrange.2]

theorem decimalValue_digits {cs : List Char} (h : ∀ c ∈ cs, c.isDigit = true) :
    decimalValue cs = some (Int.ofNat (Nat.ofDigitChars 10 cs 0)) := by
  have hmap : cs.mapM decimalDigit = some (cs.map fun c => c.toNat - '0'.toNat) := by
    induction cs with
    | nil => rfl
    | cons c cs ih =>
      rw [mapM_cons, decimalDigit_of_isDigit (h c mem_cons_self),
        ih fun d hd => h d (mem_cons_of_mem _ hd)]
      rfl
  rw [decimalValue, hmap, map_some, foldl_map, Nat.ofDigitChars_eq_foldl]

/-- The decimal text of a number that is not negative. -/
theorem toList_toString {n : Int} (h : 0 ≤ n) :
    (toString n).toList = Nat.toDigits 10 n.toNat := by
  obtain ⟨m, rfl⟩ := Int.eq_ofNat_of_zero_le h
  exact Nat.toList_repr

theorem isDigit_toString {n : Int} (h : 0 ≤ n) : ∀ c ∈ (toString n).toList, c.isDigit = true := by
  rw [toList_toString h]
  intro c hc
  exact Nat.isDigit_of_mem_toDigits (by decide) (by decide) hc

theorem decimalValue_toString {n : Int} (h : 0 ≤ n) :
    decimalValue (toString n).toList = some n := by
  rw [decimalValue_digits (isDigit_toString h), toList_toString h, Nat.ofDigitChars_ten_toDigits]
  exact congrArg some (Int.toNat_of_nonneg h)

/-! ## Listeners -/

/-- The port of a listener is found behind its address. -/
theorem portAfter_self (head : String) {n : Int} (h : 0 ≤ n) :
    portAfter head (head ++ toString n) = some n := by
  have hstarts : PyStr.startsWith (head ++ toString n) head = true :=
    startsWith_iff.mpr ⟨_, rfl⟩
  have hdrop : (PyStr.drop (PyStr.len head) (head ++ toString n)).toList = (toString n).toList := by
    rw [PyStr.drop, PyStr.len, String.toList_append, String.toList_ofList, drop_left]
  have hend : beforeEnd (toString n).toList = (toString n).toList := by
    refine if_neg fun hlast => ?_
    have hdigit := isDigit_toString h _ (mem_of_getLast? hlast)
    exact absurd hdigit (by decide)
  have hne : (toString n).toList.isEmpty = false := by
    rw [toList_toString h, isEmpty_eq_false_iff]
    exact Nat.toDigits_ne_nil
  rw [portAfter, if_pos hstarts, hdrop, hend]
  dsimp only
  rw [hne, if_neg Bool.false_ne_true, decimalValue_toString h]

/-- An endpoint at another address has no port there. -/
theorem portAfter_other {head address : String} (rest : String)
    (h : ∀ n, ¬head.toList <+: address.toList ++ n) : portAfter head (address ++ rest) = none := by
  refine if_neg ?_
  rw [PyStr.startsWith, isPrefixOf_iff_prefix, String.toList_append]
  exact h _

section Listeners

variable (ports : ListenPorts) {n : Int} (hn : 0 ≤ n)
include hn

theorem add_mesh (plaintext : Bool) :
    ports.add ((if plaintext then "tcp" else "tls") ++ "/0.0.0.0:" ++ toString n) =
      { ports with mtls := some n } := by
  cases plaintext with
  | true =>
    show ports.add ("tcp/0.0.0.0:" ++ toString n) = _
    rw [ListenPorts.add, portAfter_self _ hn]
    simp [portAfter_other]
  | false =>
    show ports.add ("tls/0.0.0.0:" ++ toString n) = _
    rw [ListenPorts.add, portAfter_self _ hn]
    simp [portAfter_other]

theorem add_local :
    ports.add ("tcp/127.0.0.1:" ++ toString n) = { ports with localTcp := some n } := by
  rw [ListenPorts.add, portAfter_self _ hn]
  simp [portAfter_other]

theorem add_quic :
    ports.add ("quic/0.0.0.0:" ++ toString n) = { ports with quic := some n } := by
  rw [ListenPorts.add, portAfter_self _ hn]
  simp [portAfter_other]

end Listeners

/-- The ports of the listeners that are rendered. -/
theorem scanListeners_listeners (f : ConfigFields) :
    scanListeners ⟨none, none, none⟩ (f.listeners.map .str) =
      .ok ⟨some f.mtlsPort, some f.localTcpPort,
        if f.rendersQuic then some f.quicPort else none⟩ := by
  have hmtls : 0 ≤ f.mtlsPort := Int.le_trans (by decide) f.ok.mtlsPort.1
  have hlocal : 0 ≤ f.localTcpPort := Int.le_trans (by decide) f.ok.localTcpPort.1
  have hquic : 0 ≤ f.quicPort := Int.le_trans (by decide) f.ok.quicPort.1
  rw [ConfigFields.listeners]
  cases f.rendersQuic with
  | true =>
    simp only [if_true, cons_append, nil_append, map_cons, map_nil,
      scanListeners, PyOps.subject, ok_bind]
    rw [add_mesh _ hmtls, add_local _ hlocal, add_quic _ hquic]
  | false =>
    simp only [Bool.false_eq_true, if_false, append_nil, map_cons, map_nil,
      scanListeners, PyOps.subject, ok_bind]
    rw [add_mesh _ hmtls, add_local _ hlocal]

/-! ## Values keep inside their holes -/

namespace ConfigFields

/-- No namespace ends in a newline. -/
def OneLine (f : ConfigFields) : Prop :=
  '\n' ∉ f.partnerNamespace.toList ∧ '\n' ∉ f.inboundNamespace.toList ∧
    '\n' ∉ f.namespacePrefix.toList

/-- The trees of the whole values. -/
def trees (f : ConfigFields) (key : String) : Json5.Tree Char :=
  if key = "ZENOH_LISTEN_ENDPOINTS" then Json5.arrayTree (f.listeners.map String.toList)
  else if key = "ZENOH_CONNECT_ENDPOINTS" then Json5.arrayTree (f.endpoints.map String.toList)
  else if key = "ZENOH_VERIFY_NAME_ON_CONNECT" then .bool f.verifyNameOnConnect
  else if key = "ZENOH_PLUGINS_LOADING_ENABLED" then .bool f.pluginsLoadingEnabled
  else .str []

variable (f : ConfigFields)

theorem isDigit_endpointChar {c : Char} (h : c.isDigit = true) : endpointChar c = true := by
  simp [endpointChar, namespaceChar, Char.isAlphanum, h]

/-- A listener is over the alphabet of endpoints. -/
theorem endpointChar_of_mem_listener {x : String} (hx : x ∈ f.listeners) :
    ∀ c ∈ x.toList, endpointChar c = true := by
  have haddress : ∀ address : String, address.toList.all endpointChar = true → ∀ {n : Int},
      0 ≤ n → ∀ c ∈ (address ++ toString n).toList, endpointChar c = true := by
    intro address haddress n hn c hc
    rw [String.toList_append] at hc
    rcases mem_append.mp hc with hc | hc
    · exact all_eq_true.mp haddress c hc
    · exact isDigit_endpointChar (isDigit_toString hn c hc)
  simp only [listeners, mem_append, mem_cons, not_mem_nil, or_false] at hx
  rcases hx with (rfl | rfl) | hx
  · refine haddress _ ?_ (Int.le_trans (by decide) f.ok.mtlsPort.1)
    cases f.fabricTlsProfile.plaintext <;> decide
  · exact haddress _ (by decide) (Int.le_trans (by decide) f.ok.localTcpPort.1)
  · split at hx
    · obtain rfl := mem_singleton.mp hx
      exact haddress _ (by decide) (Int.le_trans (by decide) f.ok.quicPort.1)
    · cases hx

/-- An endpoint is over its alphabet, but for one newline at its end. -/
theorem endpointChar_of_mem_endpoint {x : String} (hx : x ∈ f.endpoints) :
    ∀ c ∈ x.toList, endpointChar c = true ∨ c = '\n' := by
  rw [endpoints] at hx
  split_ifs at hx with hlist hone
  · exact all_of_safeMatch (f.ok.fabricEndpoints.2.2 x hx)
  · obtain rfl := mem_singleton.mp hx
    exact all_of_safeMatch (f.ok.fabricEndpoint.resolve_left hone)
  · cases hx

variable {xs : List String} {J : Library}

/-- A list of endpoints can be written. -/
theorem writable_of_endpointChar (h : ∀ x ∈ xs, ∀ c ∈ x.toList, endpointChar c = true ∨ c = '\n') :
    ∀ x ∈ xs, ∀ c ∈ x.toList, writable c = true := by
  intro x hx c hc
  rcases h x hx c hc with hc | rfl
  · exact (stringChar_of_endpointChar hc).2.2
  · decide

/-- A property of the slash and of the characters of the parts holds of a data root. -/
theorem forall_dataTopicRoot {p : Char → Prop} (hslash : p '/') {publishPrefix partner : String}
    (hpublish : ∀ c ∈ publishPrefix.toList, p c) (hpartner : ∀ c ∈ partner.toList, p c) :
    ∀ c ∈ (dataTopicRoot publishPrefix partner).toList, p c := by
  intro c hc
  rcases mem_join hc with hc | ⟨part, hpart, hc⟩
  · obtain rfl := mem_singleton.mp hc
    exact hslash
  · rcases mem_cons.mp (mem_filter.mp hpart).1 with rfl | hpart
    · exact hpublish c (mem_of_mem_stripChar hc)
    · obtain rfl := mem_singleton.mp hpart
      exact hpartner c (mem_of_mem_stripChar hc)

variable {f}

/-- A value inside a string is over the alphabet of endpoints, but for the newlines of the
namespaces. -/
theorem endpointChar_inline {key value : String} (hkey : key ∈ RouterTree.inline)
    (h : valueOf key (f.substitutions J) = some value) :
    ∀ c ∈ value.toList, endpointChar c = true ∨ c = '\n' := by
  have hsafe : ∀ {s : String}, safeMatch namespaceChar s = true →
      ∀ c ∈ s.toList, endpointChar c = true ∨ c = '\n' := fun hs c hc =>
    (all_of_safeMatch hs c hc).imp_left endpointChar_of_namespaceChar
  have hpublish : ∀ c ∈ f.publishPrefix.toList, endpointChar c = true ∨ c = '\n' := fun c hc =>
    .inl (endpointChar_of_namespaceChar (all_eq_true.mp f.ok.publishPrefix c hc))
  have hpaths : ∀ p : TlsProfile, ∀ path ∈ [p.listenCertificate, p.listenPrivateKey,
      p.connectCertificate, p.connectPrivateKey, p.rootCa],
      path.toList.all endpointChar = true := by
    intro p
    cases p <;> decide
  have hpath : ∀ path ∈ [f.fabricTlsProfile.listenCertificate,
      f.fabricTlsProfile.listenPrivateKey, f.fabricTlsProfile.connectCertificate,
      f.fabricTlsProfile.connectPrivateKey, f.fabricTlsProfile.rootCa],
      ∀ c ∈ path.toList, endpointChar c = true ∨ c = '\n' := fun path hmem c hc =>
    .inl (all_eq_true.mp (hpaths f.fabricTlsProfile path hmem) c hc)
  simp only [RouterTree.inline, mem_cons, not_mem_nil, or_false] at hkey
  intro c hc
  rcases hkey with rfl | rfl | rfl | rfl | rfl | rfl | rfl | rfl | rfl | rfl | rfl | rfl
  · simp [substitutions, valueOf] at h
  · obtain rfl := some.inj h
    exact .inl (isDigit_endpointChar
      (isDigit_toString (Int.le_trans (by decide) f.ok.localTcpPort.1) c hc))
  · obtain rfl := some.inj h
    exact hsafe f.ok.partnerNamespace c hc
  · obtain rfl := some.inj h
    exact hsafe f.ok.inboundNamespace c hc
  · obtain rfl := some.inj h
    exact hsafe f.ok.namespacePrefix c hc
  · obtain rfl := some.inj h
    cases hsplit : PyStr.split '/' f.namespacePrefix with
    | nil => exact absurd hsplit (split_ne_nil _ _)
    | cons part parts =>
      rw [hsplit] at hc
      have hmem : part ∈ PyStr.split '/' f.namespacePrefix := hsplit ▸ mem_cons_self
      exact hsafe f.ok.namespacePrefix c (mem_of_mem_split hmem hc)
  · obtain rfl := some.inj h
    exact forall_dataTopicRoot (.inl (by decide)) hpublish (hsafe f.ok.partnerNamespace) c hc
  all_goals
    obtain rfl := some.inj h
    exact hpath _ (by simp) c hc

/-- On one line no value inside a string has a newline. -/
theorem newline_notMem_inline (hline : f.OneLine) {key value : String}
    (hkey : key ∈ RouterTree.inline) (h : valueOf key (f.substitutions J) = some value) :
    '\n' ∉ value.toList := by
  obtain ⟨hpartner, hinbound, hpref⟩ := hline
  have hpaths : ∀ p : TlsProfile, ∀ path ∈ [p.listenCertificate, p.listenPrivateKey,
      p.connectCertificate, p.connectPrivateKey, p.rootCa], '\n' ∉ path.toList := by
    intro p
    cases p <;> decide
  simp only [RouterTree.inline, mem_cons, not_mem_nil, or_false] at hkey
  rcases hkey with rfl | rfl | rfl | rfl | rfl | rfl | rfl | rfl | rfl | rfl | rfl | rfl
  · simp [substitutions, valueOf] at h
  · obtain rfl := some.inj h
    intro hc
    have hdigit := isDigit_toString (Int.le_trans (by decide) f.ok.localTcpPort.1) _ hc
    exact absurd hdigit (by decide)
  · obtain rfl := some.inj h
    exact hpartner
  · obtain rfl := some.inj h
    exact hinbound
  · obtain rfl := some.inj h
    exact hpref
  · obtain rfl := some.inj h
    cases hsplit : PyStr.split '/' f.namespacePrefix with
    | nil => exact absurd hsplit (split_ne_nil _ _)
    | cons part parts =>
      have hmem : part ∈ PyStr.split '/' f.namespacePrefix := hsplit ▸ mem_cons_self
      exact fun hc => hpref (mem_of_mem_split hmem hc)
  · obtain rfl := some.inj h
    have hpublish : ∀ c ∈ f.publishPrefix.toList, c ≠ '\n' := by
      rintro c hc rfl
      exact absurd (all_eq_true.mp f.ok.publishPrefix _ hc) (by decide)
    exact fun hc => forall_dataTopicRoot (by decide) hpublish
      (fun c hc hnl => hpartner (hnl ▸ hc)) _ hc rfl
  all_goals
    obtain rfl := some.inj h
    exact hpaths f.fabricTlsProfile _ (by simp)

/-- The text of an array is what the library writes. -/
theorem dumps_eq (hJ : J.Lawful) (h : ∀ x ∈ xs, ∀ c ∈ x.toList, endpointChar c = true ∨ c = '\n') :
    (J.dumps xs).toList = Json5.arrayChars (xs.map String.toList) := by
  rw [hJ.dumps_eq xs (writable_of_endpointChar h), Json5.arrayText, String.toList_ofList]

theorem dollar_notMem_dumps (hJ : J.Lawful)
    (h : ∀ x ∈ xs, ∀ c ∈ x.toList, endpointChar c = true ∨ c = '\n') :
    '$' ∉ (J.dumps xs).toList := by
  rw [dumps_eq hJ h]
  intro hdollar
  rcases Json5.mem_arrayChars hdollar with hwritten | ⟨x, hx, hmem, _⟩
  · exact absurd hwritten (by decide)
  · obtain ⟨y, hy, rfl⟩ := mem_map.mp hx
    rcases h y hy '$' hmem with hchar | hnl
    · exact absurd hchar (by decide)
    · exact absurd hnl (by decide)

/-- The text of an array is read as its tree, and stays on its line. -/
theorem dumps_fits (hJ : J.Lawful)
    (h : ∀ x ∈ xs, ∀ c ∈ x.toList, endpointChar c = true ∨ c = '\n') :
    (∀ c ∈ (J.dumps xs).toList, lineEnd c = false) ∧
      lexText .plain ((J.dumps xs).toList ++ [',']) =
        ((Json5.arrayTree (xs.map String.toList)).tokens ++ [.punct .comma], some .plain) := by
  have hwritable : ∀ x ∈ xs.map String.toList, ∀ c ∈ x, writable c = true := by
    intro x hx
    obtain ⟨y, hy, rfl⟩ := mem_map.mp hx
    exact writable_of_endpointChar h y hy
  rw [dumps_eq hJ h, Json5.lexText_arrayChars hwritable]
  exact ⟨fun c => Json5.lineEnd_of_mem_arrayChars hwritable, rfl⟩

theorem endpointChar_listeners (f : ConfigFields) :
    ∀ x ∈ f.listeners, ∀ c ∈ x.toList, endpointChar c = true ∨ c = '\n' :=
  fun _ hx c hc => .inl (f.endpointChar_of_mem_listener hx c hc)

theorem bool_fits (b : Bool) :
    (∀ c ∈ (if b then "true" else "false" : String).toList, lineEnd c = false) ∧
      lexText .plain ((if b then "true" else "false" : String).toList ++ [',']) =
        ((Json5.Tree.bool b).tokens ++ [.punct .comma], some .plain) := by
  have hline : ∀ b : Bool, ((if b then "true" else "false" : String).toList.all fun c =>
      !lineEnd c) = true := by decide
  refine ⟨fun c hc => (Bool.not_eq_true' _).mp (all_eq_true.mp (hline b) c hc), ?_⟩
  cases b <;> decide

/-- The values of the fields keep inside the holes of a template, as long as those inside
strings have no newline. -/
theorem fits (hJ : J.Lawful) {texts : List String}
    (hinline : ∀ key ∈ texts, key ∈ RouterTree.inline)
    (hline : ∀ key ∈ texts, ∀ value, valueOf key (f.substitutions J) = some value →
      '\n' ∉ value.toList) :
    Fits RouterTree.values texts (f.substitutions J) f.trees where
  text := by
    intro key hkey c hc
    rw [Symbol.text] at hc
    cases hvalue : valueOf key (f.substitutions J) with
    | some value =>
      rw [hvalue] at hc
      rcases endpointChar_inline (hinline key hkey) hvalue c hc with hchar | rfl
      · exact (stringChar_of_endpointChar hchar).1
      · exact absurd hc (hline key hkey value hvalue)
    | none =>
      -- only `POD_STATE_DIR` has no value
      rw [hvalue] at hc
      have hpod : key = "POD_STATE_DIR" := by
        have hmem := hinline key hkey
        simp only [RouterTree.inline, mem_cons, not_mem_nil, or_false] at hmem
        rcases hmem with rfl | rfl | rfl | rfl | rfl | rfl | rfl | rfl | rfl | rfl | rfl | rfl
        · rfl
        all_goals simp [substitutions, valueOf] at hvalue
      subst hpod
      have hall : (Template.placeholder "POD_STATE_DIR").all stringChar = true := by decide
      exact all_eq_true.mp hall c hc
  line := by
    intro key hkey c hc
    simp only [RouterTree.values, mem_cons, not_mem_nil, or_false] at hkey
    rcases hkey with rfl | rfl | rfl | rfl
    · exact (dumps_fits hJ f.endpointChar_listeners).1 c hc
    · exact (dumps_fits hJ fun _ => f.endpointChar_of_mem_endpoint).1 c hc
    · exact (bool_fits f.verifyNameOnConnect).1 c hc
    · exact (bool_fits f.pluginsLoadingEnabled).1 c hc
  value := by
    intro key hkey
    simp only [RouterTree.values, mem_cons, not_mem_nil, or_false] at hkey
    rcases hkey with rfl | rfl | rfl | rfl
    · exact (dumps_fits hJ f.endpointChar_listeners).2
    · exact (dumps_fits hJ fun _ => f.endpointChar_of_mem_endpoint).2
    · exact (bool_fits f.verifyNameOnConnect).2
    · exact (bool_fits f.pluginsLoadingEnabled).2

/-- No value has a dollar sign. -/
theorem substitutions_plain (hJ : J.Lawful) :
    ∀ kv ∈ f.substitutions J, (Piece.hole kv.1).plain = true ∧ '$' ∉ kv.2.toList := by
  rintro ⟨key, value⟩ hkv
  have hkey : key ∈ (f.substitutions J).map Prod.fst := mem_map_of_mem hkv
  have hvalue : valueOf key (f.substitutions J) = some value :=
    Template.valueOf_of_mem RouterTree.nodup_keys hkv
  refine ⟨RouterTree.keys_plain key hkey, ?_⟩
  rcases RouterTree.inline_or_value key hkey with hinline | hwhole
  · intro hdollar
    exact absurd (endpointChar_inline hinline hvalue '$' hdollar) (by decide)
  · simp only [RouterTree.values, mem_cons, not_mem_nil, or_false] at hwhole
    rcases hwhole with rfl | rfl | rfl | rfl
    · obtain rfl := some.inj hvalue
      exact dollar_notMem_dumps hJ f.endpointChar_listeners
    · obtain rfl := some.inj hvalue
      exact dollar_notMem_dumps hJ fun _ => f.endpointChar_of_mem_endpoint
    · obtain rfl := some.inj hvalue
      cases f.verifyNameOnConnect <;> decide
    · obtain rfl := some.inj hvalue
      cases f.pluginsLoadingEnabled <;> decide

end ConfigFields

/-- The check for left over placeholders passes when there are none. -/
theorem checkResolved_ok : ∀ {keys : List String},
    (∀ key ∈ keys, PyStr.contains (String.ofList (Template.placeholder key)) rendered = false) →
      checkResolved rendered keys = .ok ()
  | [], _ => rfl
  | key :: keys, h => by
    rw [checkResolved]
    simp only [h key mem_cons_self, rejectIf_false, ok_bind]
    exact checkResolved_ok fun k hk => h k (mem_cons_of_mem _ hk)

/-- The text that a template is filled to. -/
def renderedText (J : Library) (f : ConfigFields) : String :=
  Template.replaceAll (f.substitutions J) routerTemplate

/-- What `renderConfig` returns is the filled template. -/
theorem eq_renderedText {f : ConfigFields} (h : renderConfig J f = .ok rendered) :
    rendered = renderedText J f := by
  simp only [renderConfig, bind_eq_ok, pure_eq_ok] at h
  obtain ⟨_, _, _, _, rfl⟩ := h
  rfl

/-- The filled template has the value of its tree, filled with the fields. -/
theorem loads_renderedText (hJ : J.Lawful) {f : ConfigFields} (hline : f.OneLine) :
    J.loads (renderedText J f) =
      some (routerTree.fill (Symbol.text (f.substitutions J)) (Symbol.tree f.trees)).value := by
  obtain ⟨cs, hcs, hplain, hlex, _⟩ := routerTemplate_spells
  have hdistinct : ∀ key, (f.trees key).distinct = true := by
    have harray : ∀ xs : List (List Char), (Json5.arrayTree xs).distinct = true := by
      intro xs
      rw [Json5.arrayTree, Json5.Tree.distinct]
      induction xs with
      | nil => rfl
      | cons x xs ih => exact ih
    intro key
    rw [ConfigFields.trees]
    split_ifs
    · exact harray _
    · exact harray _
    all_goals rfl
  have hfits : Fits RouterTree.values RouterTree.inline (f.substitutions J) f.trees :=
    ConfigFields.fits hJ (fun _ hkey => hkey) fun _ hkey _ hvalue =>
      ConfigFields.newline_notMem_inline hline hkey hvalue
  rw [renderedText, hcs, Template.replaceAll_eq (ConfigFields.substitutions_plain hJ) hplain]
  exact Json5.loads_rendered hJ hfits hdistinct distinct_routerTree hlex

/-- A namespace that ends in a newline breaks out of the comment that mentions it first, when
the values before it stay on their lines. -/
theorem loads_renderedText_breaks (hJ : J.Lawful) {f : ConfigFields}
    {entry : String × List String × Nat} (hentry : entry ∈ RouterTree.namespaces)
    (hinline : ∀ k ∈ entry.2.1, k ∈ RouterTree.inline)
    (hline : ∀ k ∈ entry.2.1, ∀ v, valueOf k (f.substitutions J) = some v → '\n' ∉ v.toList)
    {value : String} (hvalue : valueOf entry.1 (f.substitutions J) = some value)
    (hsafe : safeMatch namespaceChar value = true) (hnl : '\n' ∈ value.toList) :
    J.loads (renderedText J f) = none := by
  obtain ⟨cs, hcs, hplain, _, hbreaks⟩ := routerTemplate_spells
  obtain ⟨body, hbody, hchars⟩ := eq_append_newline hsafe hnl
  have hlineEnd : ∀ c ∈ body, lineEnd c = false := by
    intro c hc
    have hstring := (stringChar_of_endpointChar (endpointChar_of_namespaceChar (hchars c hc))).1
    simp only [stringChar, Bool.and_eq_true, Bool.not_eq_true'] at hstring
    exact hstring.2
  have htext : Symbol.text (f.substitutions J) (.hole entry.1) = body ++ ['\n'] := by
    rw [Symbol.text, hvalue]
    exact hbody
  rw [renderedText, hcs, Template.replaceAll_eq (ConfigFields.substitutions_plain hJ) hplain]
  exact Json5.loads_breaksAt hJ (ConfigFields.fits hJ hinline hline) (hbreaks entry hentry)
    hlineEnd htext

/-- A namespace that ends in a newline is not rendered to JSON5. -/
theorem loads_renderedText_of_not_oneLine (hJ : J.Lawful) {f : ConfigFields} (hline : ¬f.OneLine) :
    J.loads (renderedText J f) = none := by
  have hpod : ∀ v, valueOf "POD_STATE_DIR" (f.substitutions J) = some v → '\n' ∉ v.toList := by
    intro v hv
    simp [ConfigFields.substitutions, valueOf] at hv
  have hlocal : ∀ v, valueOf "ZENOH_LOCAL_TCP_PORT" (f.substitutions J) = some v →
      '\n' ∉ v.toList := by
    intro v hv hc
    obtain rfl := some.inj hv
    have hdigit := isDigit_toString (Int.le_trans (by decide) f.ok.localTcpPort.1) _ hc
    exact absurd hdigit (by decide)
  -- the first of the namespaces that ends in a newline
  by_cases hpartner : '\n' ∈ f.partnerNamespace.toList
  · refine loads_renderedText_breaks hJ (mem_cons_self) (by decide) ?_ rfl
      f.ok.partnerNamespace hpartner
    intro k hk
    simp only [mem_cons, not_mem_nil, or_false] at hk
    rcases hk with rfl | rfl
    · exact hpod
    · exact hlocal
  have hpartnerValue : ∀ v, valueOf "PARTNER_NAMESPACE" (f.substitutions J) = some v →
      '\n' ∉ v.toList := by
    intro v hv
    exact some.inj hv ▸ hpartner
  by_cases hinbound : '\n' ∈ f.inboundNamespace.toList
  · refine loads_renderedText_breaks hJ (mem_cons_of_mem _ mem_cons_self) (by decide) ?_
      rfl f.ok.inboundNamespace hinbound
    intro k hk
    simp only [mem_cons, not_mem_nil, or_false] at hk
    rcases hk with rfl | rfl | rfl
    · exact hpod
    · exact hlocal
    · exact hpartnerValue
  have hinboundValue : ∀ v, valueOf "INBOUND_NAMESPACE" (f.substitutions J) = some v →
      '\n' ∉ v.toList := by
    intro v hv
    exact some.inj hv ▸ hinbound
  have hnamespace : '\n' ∈ f.namespacePrefix.toList := by
    by_contra hnl
    exact hline ⟨hpartner, hinbound, hnl⟩
  refine loads_renderedText_breaks hJ
    (mem_cons_of_mem _ (mem_cons_of_mem _ mem_cons_self)) (by decide) ?_ rfl
    f.ok.namespacePrefix hnamespace
  intro k hk
  simp only [mem_cons, not_mem_nil, or_false] at hk
  rcases hk with rfl | rfl | rfl | rfl
  · exact hpod
  · exact hlocal
  · exact hpartnerValue
  · exact hinboundValue

/-- Rendering succeeds exactly for namespaces on one line. -/
theorem renderConfig_ok_iff (hJ : J.Lawful) {f : ConfigFields} :
    renderConfig J f = .ok rendered ↔ f.OneLine ∧ rendered = renderedText J f := by
  have hresolved : checkResolved (renderedText J f) ((f.substitutions J).map Prod.fst) =
      .ok () := by
    obtain ⟨cs, hcs, hplain, _⟩ := routerTemplate_spells
    refine checkResolved_ok fun key hkey => ?_
    rw [renderedText, hcs]
    exact Template.contains_replaceAll (ConfigFields.substitutions_plain hJ) hplain hkey
  constructor
  · intro h
    refine ⟨?_, eq_renderedText h⟩
    by_contra hline
    have hloads := loads_renderedText_of_not_oneLine hJ hline
    simp only [renderConfig, bind_eq_ok, rejectIf_eq_ok, pure_eq_ok] at h
    obtain ⟨_, _, _, hnone, _⟩ := h
    rw [renderedText] at hloads
    rw [hloads] at hnone
    cases hnone
  · rintro ⟨hline, rfl⟩
    have hloads := loads_renderedText hJ hline
    rw [renderConfig, ← renderedText, hresolved, hloads]
    rfl

end Efdi
