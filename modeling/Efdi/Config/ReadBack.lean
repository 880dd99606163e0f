import Efdi.Config.Rendered

/-!
# What a rendered config is read back as

A parent renders fields into a text and a child extracts fields from it.  This module
says what comes back, for all fields that pass the validators and any local files of the
child: `extractFields_renderConfig`.

Most fields come back as they were.  The namespace prefix and the data prefix are the
child's own, whatever was rendered, and the partner namespace is what `readBack` makes
of the data root with the data prefix of the child.
-/

namespace Efdi

open Checks List
open Json5 (Library Symbol)
open Template (valueOf)

/-! ## The document -/

theorem flatMap_chars (subs : List (String × String)) (s : String) :
    (RouterTree.chars s).flatMap (Symbol.text subs) = s.toList := by
  rw [RouterTree.chars, flatMap_map]
  exact flatMap_singleton' _

theorem value_text (subs : List (String × String)) (trees : String → Json5.Tree Char)
    (s : String) :
    ((RouterTree.text s).fill (Symbol.text subs) (Symbol.tree trees)).value = .str s := by
  rw [RouterTree.text, Json5.Tree.fill, Json5.Tree.value, flatMap_chars, String.ofList_toList]

theorem value_filled {subs : List (String × String)} {key value : String}
    (h : valueOf key subs = some value) (trees : String → Json5.Tree Char) (rest : String) :
    ((RouterTree.filled key rest).fill (Symbol.text subs) (Symbol.tree trees)).value =
      .str (value ++ rest) := by
  rw [RouterTree.filled, Json5.Tree.fill, Json5.Tree.value, flatMap_cons, flatMap_chars,
    Symbol.text, h, ← String.toList_append, String.ofList_toList]

theorem value_arrayTree (xs : List String) :
    (Json5.arrayTree (xs.map String.toList)).value = .list (xs.map .str) := by
  rw [Json5.arrayTree, Json5.Tree.value]
  congr 1
  induction xs with
  | nil => rfl
  | cons x xs ih =>
    rw [map_cons, map_cons, Json5.Tree.itemValues, ih, Json5.Tree.value,
      String.ofList_toList]
    rfl

/-- The partner namespace that a data root is read back as, with a data prefix. -/
def readBack (publishPrefix root : String) : String :=
  rulePartner publishPrefix root (storageNamespace publishPrefix (root ++ "/**"))

/-- What is read back from the fields, before the validators. -/
def ConfigFields.readValues (f : ConfigFields) (files : ConfigFiles) : ConfigValues where
  mtlsPort := f.mtlsPort
  localTcpPort := f.localTcpPort
  fabricEndpoint := f.endpoints.head?.getD ""
  partnerNamespace := readBack files.dataPrefix (dataTopicRoot f.publishPrefix f.partnerNamespace)
  inboundNamespace := f.inboundNamespace
  namespacePrefix := files.namespacePrefix
  publishPrefix := files.dataPrefix
  verifyNameOnConnect := f.verifyNameOnConnect
  pluginsLoadingEnabled := f.pluginsLoadingEnabled
  fabricEndpoints := f.endpoints
  fabricTlsProfile := f.fabricTlsProfile
  enableQuic := f.rendersQuic
  quicPort := if f.rendersQuic then f.quicPort else 7449

theorem keyRoot_append (s : String) : keyRoot (s ++ "/**") = s := by
  have hends : PyStr.endsWith (s ++ "/**") "/**" = true := by
    rw [PyStr.endsWith, isSuffixOf_iff_suffix, String.toList_append]
    exact suffix_append _ _
  have hlen : PyStr.len (s ++ "/**") - PyStr.len "/**" = s.toList.length := by
    rw [PyStr.len, PyStr.len, String.toList_append, length_append, Nat.add_sub_cancel]
  rw [keyRoot, PyStr.removeSuffix, hends, hlen, PyStr.take, String.toList_append, take_left,
    String.ofList_toList]
  rfl

section Lookup

variable {subs : List (String × String)} {trees : String → Json5.Tree Char}

/-- The value of a filled tree. -/
abbrev filledValue (subs : List (String × String)) (trees : String → Json5.Tree Char)
    (t : Json5.Tree Symbol) : PyJson :=
  (t.fill (Symbol.text subs) (Symbol.tree trees)).value

/-- Reading a member of an object. -/
theorem lookup_members {key : String} {t : Json5.Tree Symbol} :
    ∀ {ms : List (List Char × Json5.Tree Symbol)},
      (ms.map Prod.fst).Nodup → (key.toList, t) ∈ ms →
      PyJson.lookup key (Json5.Tree.memberValues
        (Json5.Tree.fillMembers (Symbol.text subs) (Symbol.tree trees) ms)) =
          some (filledValue subs trees t)
  | (k, t') :: ms, hnodup, hmem => by
    obtain ⟨hk, hnodup⟩ := nodup_cons.mp hnodup
    rw [Json5.Tree.fillMembers, Json5.Tree.memberValues, PyJson.lookup_cons]
    rcases mem_cons.mp hmem with heq | hrest
    · cases heq
      rw [if_pos (String.ofList_toList)]
    · have hne : String.ofList k ≠ key := by
        intro heq
        refine hk (mem_map.mpr ⟨_, hrest, ?_⟩)
        rw [← heq, String.toList_ofList]
      rw [if_neg hne, lookup_members hnodup hrest]

variable {key : String} {t : Json5.Tree Symbol} {ms : List (List Char × Json5.Tree Symbol)}
  (hnodup : (ms.map Prod.fst).Nodup) (hmem : (key.toList, t) ∈ ms)
include hnodup hmem

theorem subscript_block :
    PyOps.subscript (filledValue subs trees (RouterTree.block ms)) key =
      .ok (filledValue subs trees t) := by
  rw [filledValue, RouterTree.block, Json5.Tree.fill, Json5.Tree.value, PyOps.subscript,
    lookup_members hnodup hmem]

theorem get_block :
    PyOps.get (filledValue subs trees (RouterTree.block ms)) key =
      .ok (some (filledValue subs trees t)) := by
  rw [filledValue, RouterTree.block, Json5.Tree.fill, Json5.Tree.value, PyOps.get,
    lookup_members hnodup hmem]

theorem get?_block :
    (filledValue subs trees (RouterTree.block ms)).get? key = some (filledValue subs trees t) := by
  rw [filledValue, RouterTree.block, Json5.Tree.fill, Json5.Tree.value, PyJson.get?_dict,
    lookup_members hnodup hmem]

end Lookup

theorem get?_filled {subs : List (String × String)} {key value path : String}
    (hvalue : valueOf key subs = some value) {ms : List (List Char × Json5.Tree Symbol)}
    (hnodup : (ms.map Prod.fst).Nodup) (hmem : (path.toList, RouterTree.filled key "") ∈ ms)
    (trees : String → Json5.Tree Char) :
    (filledValue subs trees (RouterTree.block ms)).get? path = some (.str value) := by
  rw [get?_block hnodup hmem, filledValue, value_filled hvalue, String.append_empty]

section Document

variable {subs : List (String × String)} {trees : String → Json5.Tree Char}

/-- The key expressions of a rule, when it has the id. -/
theorem ruleKeys_rule (id id' : String) (messages : List String) (key : Json5.Tree Symbol) :
    ruleKeys (filledValue subs trees (RouterTree.rule id messages [key])) id' =
      .ok (if id = id' then some (.list [filledValue subs trees key]) else none) := by
  have hid : PyOps.get (filledValue subs trees (RouterTree.rule id messages [key])) "id" =
      .ok (some (filledValue subs trees (RouterTree.text id))) :=
    get_block (by simp [RouterTree.member]) (by simp [RouterTree.member])
  have hkeys : PyOps.get (filledValue subs trees (RouterTree.rule id messages [key]))
      "key_exprs" = .ok (some (filledValue subs trees (RouterTree.array [key]))) :=
    get_block (by simp [RouterTree.member]) (by simp [RouterTree.member])
  have hlist : filledValue subs trees (RouterTree.array [key]) =
      .list [filledValue subs trees key] := rfl
  rw [ruleKeys, hid, ok_bind, filledValue, value_text, hkeys, ok_bind, hlist]
  by_cases hsame : id = id'
  · rw [if_pos (by rw [hsame]), if_pos hsame]
    rfl
  · rw [if_neg (by simpa using hsame), if_neg hsame]
    rfl

/-- The rules give the data root and the inbound namespace. -/
theorem scanRules_accessControl {publishPrefix partner root inbound : String}
    (hroot : valueOf "DATA_TOPIC_ROOT" subs = some root)
    (hinbound : valueOf "INBOUND_NAMESPACE" subs = some inbound) (rules : List PyJson) :
    scanRules publishPrefix partner
      (filledValue subs trees RouterTree.firstparty ::
        filledValue subs trees RouterTree.inbound :: rules) =
      .ok (rulePartner publishPrefix root partner, inbound) := by
  simp only [scanRules, RouterTree.firstparty, RouterTree.inbound, ruleKeys_rule, ok_bind,
    String.reduceEq, if_true, if_false, PyOps.first, filledValue, value_filled hroot,
    value_filled hinbound, PyOps.string, keyRoot_append, pure, Except.pure]

/-- The paths of a profile give the profile back. -/
theorem profileOf_tls (J : Library) (f : ConfigFields) (trees : String → Json5.Tree Char) :
    profileOf (filledValue (f.substitutions J) trees RouterTree.tls) =
      some f.fabricTlsProfile := by
  have hcertificate : (filledValue (f.substitutions J) trees RouterTree.tls).get?
      "connect_certificate" = some (.str f.fabricTlsProfile.connectCertificate) := by
    have hvalue : valueOf "CONNECT_CERT_PEM" (f.substitutions J) =
        some f.fabricTlsProfile.connectCertificate := rfl
    exact get?_filled hvalue (by simp [RouterTree.member]) (by simp [RouterTree.member]) trees
  have hkey : (filledValue (f.substitutions J) trees RouterTree.tls).get?
      "connect_private_key" = some (.str f.fabricTlsProfile.connectPrivateKey) := by
    have hvalue : valueOf "CONNECT_KEY_PEM" (f.substitutions J) =
        some f.fabricTlsProfile.connectPrivateKey := rfl
    exact get?_filled hvalue (by simp [RouterTree.member]) (by simp [RouterTree.member]) trees
  have hroot : (filledValue (f.substitutions J) trees RouterTree.tls).get?
      "root_ca_certificate" = some (.str f.fabricTlsProfile.rootCa) := by
    have hvalue : valueOf "CA_ROOTS_PEM" (f.substitutions J) =
        some f.fabricTlsProfile.rootCa := rfl
    exact get?_filled hvalue (by simp [RouterTree.member]) (by simp [RouterTree.member]) trees
  rw [profileOf, hcertificate, hkey, hroot]
  cases f.fabricTlsProfile <;> decide

end Document

/-! ## The fields that come back -/

/-- The value of a part of the rendered document. -/
abbrev ConfigFields.rendered (J : Library) (f : ConfigFields) (t : Json5.Tree Symbol) : PyJson :=
  filledValue (f.substitutions J) f.trees t

theorem mapM_str (xs : List String) : (xs.map PyJson.str).mapM PyJson.str? = some xs := by
  induction xs with
  | nil => rfl
  | cons x xs ih =>
    rw [map_cons, mapM_cons, ih]
    rfl

/-- The whole values are those of the fields. -/
theorem rendered_hole (J : Library) (f : ConfigFields) (key : String) :
    f.rendered J (.hole (.hole key)) = (f.trees key).value := rfl

section Members

variable (J : Library) (f : ConfigFields)

theorem rendered_listen :
    PyOps.subscript (f.rendered J routerTree) "listen" = .ok (f.rendered J RouterTree.listen) ∧
      PyOps.subscript (f.rendered J RouterTree.listen) "endpoints" =
        .ok (.list (f.listeners.map .str)) := by
  have hendpoints : PyOps.subscript (f.rendered J RouterTree.listen) "endpoints" =
      .ok (f.rendered J (.hole (.hole "ZENOH_LISTEN_ENDPOINTS"))) :=
    subscript_block (by simp) (mem_singleton_self _)
  rw [rendered_hole, ConfigFields.trees, if_pos rfl, value_arrayTree] at hendpoints
  exact ⟨subscript_block (by simp [RouterTree.member]) (by simp [RouterTree.member]), hendpoints⟩

theorem rendered_connect :
    PyOps.subscript (f.rendered J routerTree) "connect" = .ok (f.rendered J RouterTree.connect) ∧
      PyOps.subscript (f.rendered J RouterTree.connect) "endpoints" =
        .ok (.list (f.endpoints.map .str)) := by
  have hendpoints : PyOps.subscript (f.rendered J RouterTree.connect) "endpoints" =
      .ok (f.rendered J (.hole (.hole "ZENOH_CONNECT_ENDPOINTS"))) :=
    subscript_block (by simp) (mem_singleton_self _)
  rw [rendered_hole, ConfigFields.trees, if_neg (by simp), if_pos rfl, value_arrayTree]
    at hendpoints
  exact ⟨subscript_block (by simp [RouterTree.member]) (by simp [RouterTree.member]), hendpoints⟩

theorem rendered_plugins :
    PyOps.subscript (f.rendered J routerTree) "plugins" = .ok (f.rendered J RouterTree.plugins) ∧
      PyOps.subscript (f.rendered J RouterTree.plugins) "storage_manager" =
        .ok (f.rendered J RouterTree.storageManager) ∧
      PyOps.subscript (f.rendered J RouterTree.storageManager) "storages" =
        .ok (f.rendered J RouterTree.storages) ∧
      PyOps.subscript (f.rendered J RouterTree.storages) "efdi_live" =
        .ok (f.rendered J RouterTree.live) ∧
      PyOps.subscript (f.rendered J RouterTree.live) "key_expr" =
        .ok (.str (dataTopicRoot f.publishPrefix f.partnerNamespace ++ "/**")) := by
  have hkey : PyOps.subscript (f.rendered J RouterTree.live) "key_expr" =
      .ok (f.rendered J (RouterTree.filled "DATA_TOPIC_ROOT" "/**")) :=
    subscript_block (by simp [RouterTree.member]) (by simp [RouterTree.member])
  have hroot : valueOf "DATA_TOPIC_ROOT" (f.substitutions J) =
      some (dataTopicRoot f.publishPrefix f.partnerNamespace) := rfl
  rw [ConfigFields.rendered, ConfigFields.rendered, filledValue, filledValue,
    value_filled hroot] at hkey
  exact ⟨subscript_block (by simp [RouterTree.member]) (by simp [RouterTree.member]),
    subscript_block (by simp) (mem_singleton_self _),
    subscript_block (by simp) (mem_singleton_self _),
    subscript_block (by simp) (mem_singleton_self _), hkey⟩

theorem rendered_rules :
    PyOps.subscript (f.rendered J routerTree) "access_control" =
        .ok (f.rendered J RouterTree.accessControl) ∧
      PyOps.subscript (f.rendered J RouterTree.accessControl) "rules" =
        .ok (f.rendered J (.list (RouterTree.firstparty :: RouterTree.inbound ::
          RouterTree.otherRules) true)) ∧
      PyOps.iterate (f.rendered J (.list (RouterTree.firstparty :: RouterTree.inbound ::
        RouterTree.otherRules) true)) =
          .ok (f.rendered J RouterTree.firstparty :: f.rendered J RouterTree.inbound ::
            RouterTree.otherRules.map (f.rendered J)) :=
  ⟨subscript_block (by simp [RouterTree.member]) (by simp [RouterTree.member]),
    subscript_block (by simp [RouterTree.member]) (by simp [RouterTree.member]), rfl⟩

theorem rendered_tls :
    PyOps.subscript (f.rendered J routerTree) "transport" =
        .ok (f.rendered J RouterTree.transport) ∧
      PyOps.subscript (f.rendered J RouterTree.transport) "link" =
        .ok (f.rendered J RouterTree.link) ∧
      PyOps.subscript (f.rendered J RouterTree.link) "tls" = .ok (f.rendered J RouterTree.tls) ∧
      PyOps.subscript (f.rendered J RouterTree.tls) "verify_name_on_connect" =
        .ok (.bool f.verifyNameOnConnect) := by
  have hverify : PyOps.subscript (f.rendered J RouterTree.tls) "verify_name_on_connect" =
      .ok (f.rendered J (.hole (.hole "ZENOH_VERIFY_NAME_ON_CONNECT"))) :=
    subscript_block (by simp [RouterTree.member]) (by simp [RouterTree.member])
  rw [rendered_hole, ConfigFields.trees, if_neg (by simp), if_neg (by simp), if_pos rfl]
    at hverify
  exact ⟨subscript_block (by simp [RouterTree.member]) (by simp [RouterTree.member]),
    subscript_block (by simp) (mem_singleton_self _),
    subscript_block (by simp) (mem_singleton_self _), hverify⟩

theorem rendered_pluginsLoading :
    PyOps.subscript (f.rendered J routerTree) "plugins_loading" =
        .ok (f.rendered J RouterTree.pluginsLoading) ∧
      PyOps.subscript (f.rendered J RouterTree.pluginsLoading) "enabled" =
        .ok (.bool f.pluginsLoadingEnabled) := by
  have henabled : PyOps.subscript (f.rendered J RouterTree.pluginsLoading) "enabled" =
      .ok (f.rendered J (.hole (.hole "ZENOH_PLUGINS_LOADING_ENABLED"))) :=
    subscript_block (by simp [RouterTree.member]) (by simp [RouterTree.member])
  rw [rendered_hole, ConfigFields.trees, if_neg (by simp), if_neg (by simp), if_neg (by simp),
    if_pos rfl] at henabled
  exact ⟨subscript_block (by simp [RouterTree.member]) (by simp [RouterTree.member]), henabled⟩

end Members

/-- What a rendered text is read back as. -/
theorem extractFields_renderedText {J : Library} (hJ : J.Lawful) (files : ConfigFiles)
    {f : ConfigFields} (hline : f.OneLine) :
    extractFields J files (renderedText J f) =
      orRaise .value (f.readValues files).validate.toOption := by
  have hroot : valueOf "DATA_TOPIC_ROOT" (f.substitutions J) =
      some (dataTopicRoot f.publishPrefix f.partnerNamespace) := rfl
  have hinbound : valueOf "INBOUND_NAMESPACE" (f.substitutions J) =
      some f.inboundNamespace := rfl
  have hquic : (if f.rendersQuic = true then some f.quicPort else none).isSome =
      f.rendersQuic := by
    cases f.rendersQuic <;> rfl
  have hport : (if f.rendersQuic = true then some f.quicPort else none).getD 7449 =
      if f.rendersQuic then f.quicPort else 7449 := by
    cases f.rendersQuic <;> rfl
  have hloads : J.loads (renderedText J f) = some (f.rendered J routerTree) :=
    loads_renderedText hJ hline
  have hlisteners : PyOps.iterate (.list (f.listeners.map .str)) =
      .ok (f.listeners.map .str) := rfl
  have hendpoints : (PyJson.list (f.endpoints.map .str)).list? =
      some (f.endpoints.map .str) := rfl
  simp only [extractFields, hloads, orRaise, ok_bind, rendered_listen, rendered_connect,
    rendered_plugins, rendered_rules, rendered_tls, rendered_pluginsLoading, hlisteners,
    hendpoints, PyOps.subject, mapM_str, scanListeners_listeners,
    scanRules_accessControl hroot hinbound, profileOf_tls, PyJson.truthy, hquic, hport]
  rfl

end Efdi
