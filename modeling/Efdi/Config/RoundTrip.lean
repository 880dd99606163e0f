import Efdi.Config.ReadBack

/-!
# Rendering and reading back

When the local files hold the prefixes of the fields, a rendered config is read back to
the fields it was rendered from, up to `ConfigFields.normalised`, exactly when the partner
namespace survives its way through the data root: `extractFields_renderConfig_iff`.

The namespace does not survive when it has slashes at its ends, which the data root loses,
and when it has several segments and the data prefix is empty: the pattern for an empty
prefix takes one segment, and the rule gives its last one.
-/

namespace Efdi

open Checks List PyStr
open Json5 (Library)

/-! ## The data root -/

/-- The data root of a partner below a data prefix. -/
theorem dataTopicRoot_eq {publishPrefix partner : String}
    (hp : PyStr.stripChar '/' publishPrefix = publishPrefix) :
    dataTopicRoot publishPrefix partner =
      if publishPrefix = "" then PyStr.stripChar '/' partner
      else if PyStr.stripChar '/' partner = "" then publishPrefix
      else publishPrefix ++ "/" ++ PyStr.stripChar '/' partner := by
  have hjoin₁ : ∀ s, join "/" [s] = s := by
    intro s
    simp [join, intercalate]
  have hjoin₂ : ∀ s t, join "/" [s, t] = s ++ "/" ++ t := by
    intro s t
    apply String.toList_inj.mp
    simp [join, intercalate]
  rw [dataTopicRoot, hp]
  by_cases hempty : publishPrefix = ""
  · by_cases hpartner : stripChar '/' partner = ""
    · simp [hempty, hpartner, join, intercalate]
    · simp [hempty, hpartner, hjoin₁]
  · by_cases hpartner : stripChar '/' partner = ""
    · simp [hempty, hpartner, hjoin₁]
    · simp [hempty, hpartner, hjoin₂]

/-! ## The last segment -/

/-- The last segment has no slash. -/
theorem slash_notMem_lastSegment (s : String) : '/' ∉ (lastSegment s).toList := by
  rw [lastSegment]
  cases hlast : (split '/' s).getLast? with
  | none => exact not_mem_nil
  | some part => exact notMem_of_mem_split (mem_of_getLast? hlast)

/-- A text without a slash is its own last segment. -/
theorem lastSegment_of_notMem {s : String} (h : '/' ∉ s.toList) : lastSegment s = s := by
  rw [lastSegment, split_of_notMem h]
  rfl

/-! ## The partner namespace -/

/-- A partner namespace that the data root keeps: no slashes at its ends, and one segment when
there is no data prefix above it. -/
def ConfigFields.PartnerKept (f : ConfigFields) : Prop :=
  PyStr.stripChar '/' f.partnerNamespace = f.partnerNamespace ∧
    (f.publishPrefix = "" → '/' ∉ f.partnerNamespace.toList)

theorem readBack_root_eq_iff {publishPrefix partner : String}
    (hp : PyStr.stripChar '/' publishPrefix = publishPrefix) (hne : partner ≠ "") :
    readBack publishPrefix (dataTopicRoot publishPrefix partner) = partner ↔
      PyStr.stripChar '/' partner = partner ∧
        (publishPrefix = "" → '/' ∉ partner.toList) := by
  rw [dataTopicRoot_eq hp, readBack]
  by_cases hempty : publishPrefix = ""
  · subst hempty
    rw [if_pos rfl, rulePartner, if_neg (by simp)]
    by_cases hroot : PyStr.stripChar '/' partner = ""
    · rw [hroot]
      refine ⟨fun h => absurd h ?_, fun h => absurd h.1.symm hne⟩
      rw [if_neg (by simp)]
      have hstorage : storageNamespace "" ("" ++ "/**") = "" := by decide
      rw [hstorage]
      exact hne.symm
    · rw [if_pos (by simpa using hroot)]
      constructor
      · intro h
        have hslash : '/' ∉ partner.toList := h ▸ slash_notMem_lastSegment _
        exact ⟨PyStr.stripChar_of_notMem hslash, fun _ => hslash⟩
      · rintro ⟨hstrip, hslash⟩
        rw [hstrip, lastSegment_of_notMem (hslash rfl)]
  · rw [if_neg hempty, rulePartner]
    by_cases hroot : PyStr.stripChar '/' partner = ""
    · -- the data root is the prefix alone, of which the last segment is taken
      rw [if_pos hroot, hroot, if_neg, if_pos (by simpa using hempty)]
      · refine ⟨fun h => ?_, fun h => absurd h.1.symm hne⟩
        have hslash : '/' ∉ partner.toList := h ▸ slash_notMem_lastSegment _
        exact absurd ((PyStr.stripChar_of_notMem hslash).symm.trans hroot) hne
      · rw [PyStr.startsWith, Bool.and_eq_true, List.isPrefixOf_iff_prefix]
        rintro ⟨-, hstarts⟩
        have hlen : publishPrefix.toList.length + 1 ≤ publishPrefix.toList.length := by
          simpa using hstarts.length_le
        omega
    · have hstarts : PyStr.startsWith (publishPrefix ++ "/" ++ PyStr.stripChar '/' partner)
          (publishPrefix ++ "/") = true := PyStr.startsWith_append _ _
      have hlen : PyStr.len publishPrefix + 1 = PyStr.len (publishPrefix ++ "/") := by
        simp [PyStr.len]
      rw [if_neg hroot, hstarts, if_pos (by simpa using hempty), hlen, PyStr.drop_append]
      exact ⟨fun h => ⟨h, fun h' => absurd h' hempty⟩, fun h => h.1⟩

/-! ## The round trip -/

/-- The validators accept values exactly when they are those of some fields. -/
theorem ConfigValues.validate_eq_ok {v : ConfigValues} {g : ConfigFields} :
    v.validate = .ok g ↔
      g.toConfigValues = { v with publishPrefix := PyStr.stripChar '/' v.publishPrefix } := by
  rw [ConfigValues.validate, ConfigValues.validateStripped]
  constructor
  · intro h
    split at h
    · obtain rfl := Except.ok.inj h
      rfl
    · cases h
  · intro h
    have hvalid := g.valid
    rw [h] at hvalid
    rw [dif_pos hvalid]
    cases g
    cases h
    rfl

namespace ConfigFields

theorem ne_empty_of_safeMatch {p : Char → Bool} {s : String} (h : safeMatch p s = true) :
    s ≠ "" := by
  rintro rfl
  cases h

/-- The endpoints that are rendered pass the check for endpoints. -/
theorem endpoints_ok (f : ConfigFields) :
    f.endpoints.length ≤ maxFabricEndpoints ∧ f.endpoints.Nodup ∧
      ∀ e ∈ f.endpoints, safeMatch endpointChar e = true := by
  rw [endpoints]
  split_ifs with hlist hone
  · exact f.ok.fabricEndpoints
  · refine ⟨?_, by simp, ?_⟩
    · rw [length_singleton]
      decide
    · intro e he
      obtain rfl := mem_singleton.mp he
      exact f.ok.fabricEndpoint.resolve_left hone
  · exact ⟨by decide, nodup_nil, fun e he => absurd he not_mem_nil⟩

/-- The fields that a config keeps: one list of endpoints with its first as the primary, and a
QUIC port only where there is a QUIC listener. -/
def normalised (f : ConfigFields) : ConfigFields where
  toConfigValues :=
    { f.toConfigValues with
      fabricEndpoint := f.endpoints.head?.getD ""
      fabricEndpoints := f.endpoints
      enableQuic := f.rendersQuic
      quicPort := if f.rendersQuic then f.quicPort else 7449 }
  valid := errors_eq_nil.mpr
    { f.ok with
      fabricEndpoint := by
        cases hhead : f.endpoints.head? with
        | none => exact .inl rfl
        | some e => exact .inr (f.endpoints_ok.2.2 e (List.mem_of_head? hhead))
      fabricEndpoints := f.endpoints_ok
      quicPort := by
        cases f.rendersQuic with
        | true => exact f.ok.quicPort
        | false => exact (by decide : (1 : Int) ≤ 7449 ∧ (7449 : Int) ≤ 65535) }
  stripped := f.stripped

end ConfigFields

/-- A file that was written with a prefix, whose blanks the reader strips. -/
def Holds (content : Option String) (value : String) : Prop :=
  ∃ text, content = some text ∧ PyStr.strip text = value

variable {files : ConfigFiles} {f : ConfigFields}

theorem dataPrefix_of_holds (h : Holds files.dataPrefixFile f.publishPrefix) :
    files.dataPrefix = f.publishPrefix := by
  obtain ⟨text, hfile, htext⟩ := h
  rw [ConfigFiles.dataPrefix, hfile]
  exact (congrArg _ htext).trans f.stripped

theorem namespacePrefix_of_holds (h : Holds files.prefixFile f.namespacePrefix) :
    files.namespacePrefix = f.namespacePrefix := by
  obtain ⟨text, hfile, htext⟩ := h
  rw [ConfigFiles.namespacePrefix, hfile]
  dsimp only
  rw [htext]
  exact if_pos (by simpa using ConfigFields.ne_empty_of_safeMatch f.ok.namespacePrefix)

/-- The filled template is read back to its fields exactly when the partner is kept. -/
theorem extractFields_renderedText_iff {J : Library} (hJ : J.Lawful) (hline : f.OneLine)
    (hprefixFile : Holds files.prefixFile f.namespacePrefix)
    (hdataFile : Holds files.dataPrefixFile f.publishPrefix) :
    extractFields J files (renderedText J f) = .ok f.normalised ↔ f.PartnerKept := by
  have hdata := dataPrefix_of_holds hdataFile
  have hvalues : { f.readValues files with
      publishPrefix := stripChar '/' (f.readValues files).publishPrefix } =
        { f.normalised.toConfigValues with
          partnerNamespace :=
            readBack f.publishPrefix (dataTopicRoot f.publishPrefix f.partnerNamespace) } := by
    simp only [ConfigFields.readValues, ConfigFields.normalised, hdata,
      namespacePrefix_of_holds hprefixFile, f.stripped]
  have hread : orRaise .value (f.readValues files).validate.toOption = .ok f.normalised ↔
      (f.readValues files).validate = .ok f.normalised := by
    cases (f.readValues files).validate with
    | error e => simp [orRaise, Except.toOption]
    | ok g => simp [orRaise, Except.toOption]
  have hpartner := readBack_root_eq_iff f.stripped
    (ConfigFields.ne_empty_of_safeMatch f.ok.partnerNamespace)
  rw [extractFields_renderedText hJ files hline, hread, ConfigValues.validate_eq_ok, hvalues]
  refine Iff.trans ⟨fun heq => ?_, fun heq => ?_⟩ hpartner
  · exact (congrArg ConfigValues.partnerNamespace heq).symm
  · rw [heq]
    rfl

/-- A rendered config is read back to its fields exactly when the partner is kept. -/
theorem extractFields_renderConfig_iff {J : Library} (hJ : J.Lawful) {f : ConfigFields}
    {rendered : String} (h : renderConfig J f = .ok rendered) {files : ConfigFiles}
    (hprefixFile : Holds files.prefixFile f.namespacePrefix)
    (hdataFile : Holds files.dataPrefixFile f.publishPrefix) :
    extractFields J files rendered = .ok f.normalised ↔ f.PartnerKept := by
  obtain ⟨hline, rfl⟩ := (renderConfig_ok_iff hJ).mp h
  exact extractFields_renderedText_iff hJ hline hprefixFile hdataFile

/-- Fields of a pod without a data prefix. -/
def podFields (partnerNamespace : String)
    (h : safeMatch namespaceChar partnerNamespace = true) : ConfigFields where
  toConfigValues :=
    { mtlsPort := 7447, localTcpPort := 7448, fabricEndpoint := ""
      partnerNamespace, inboundNamespace := "EFDI/in", namespacePrefix := "EFDI"
      publishPrefix := "", verifyNameOnConnect := true, pluginsLoadingEnabled := true
      fabricEndpoints := ["tls/hq.efdi:7447"], fabricTlsProfile := .efdi
      enableQuic := false, quicPort := 7449 }
  valid := ConfigFields.errors_eq_nil.mpr
    { mtlsPort := (by decide : (1 : Int) ≤ 7447 ∧ (7447 : Int) ≤ 65535)
      localTcpPort := (by decide : (1 : Int) ≤ 7448 ∧ (7448 : Int) ≤ 65535)
      fabricEndpoint := .inl rfl
      partnerNamespace := h
      inboundNamespace := (by decide : safeMatch namespaceChar "EFDI/in" = true)
      namespacePrefix := (by decide : safeMatch namespaceChar "EFDI" = true)
      publishPrefix := rfl
      fabricEndpoints := ConfigFields.safeEndpointsErrors_eq_nil.mp
        (by decide : safeEndpointsErrors ["tls/hq.efdi:7447"] = [])
      quicPort := (by decide : (1 : Int) ≤ 7449 ∧ (7449 : Int) ≤ 65535) }
  stripped := rfl

theorem pod1_named : safeMatch namespaceChar "pod1" = true := by decide

/-- The state files of that pod. -/
def podFiles : ConfigFiles where
  config := none
  prefixFile := some "EFDI\n"
  dataPrefixFile := some "\n"
  prefixEnv := "EFDI"
  dataPrefixEnv := none

theorem oneLine_podFields {partnerNamespace : String}
    (h : safeMatch namespaceChar partnerNamespace = true) (hline : '\n' ∉ partnerNamespace.toList) :
    (podFields partnerNamespace h).OneLine := by
  refine ⟨hline, ?_, ?_⟩
  · show '\n' ∉ "EFDI/in".toList
    decide
  · show '\n' ∉ "EFDI".toList
    decide

theorem extractFields_renderConfig_pod :
    extractFields Json5.reader podFiles
        (renderedText Json5.reader (podFields "pod1" (by decide))) =
      .ok (podFields "pod1" (by decide)).normalised := by
  refine (extractFields_renderConfig_iff Json5.reader_lawful ?_ ?_ ?_).mpr ?_
  · exact (renderConfig_ok_iff Json5.reader_lawful).mpr
      ⟨oneLine_podFields (by decide) (by decide), rfl⟩
  · exact ⟨_, rfl, by decide⟩
  · exact ⟨_, rfl, by decide⟩
  · exact ⟨by decide, fun _ => by decide⟩

/-- A partner namespace of two segments is not read back. -/
theorem extractFields_renderConfig_segments :
    ∃ rendered, renderConfig Json5.reader (podFields "lv/pod1" (by decide)) = .ok rendered ∧
      extractFields Json5.reader podFiles rendered ≠
        .ok (podFields "lv/pod1" (by decide)).normalised := by
  have hline : (podFields "lv/pod1" (by decide)).OneLine :=
    oneLine_podFields (by decide) (by decide)
  refine ⟨_, (renderConfig_ok_iff Json5.reader_lawful).mpr ⟨hline, rfl⟩, fun h => ?_⟩
  obtain ⟨-, hsegment⟩ := (extractFields_renderedText_iff Json5.reader_lawful hline
    ⟨_, rfl, by decide⟩ ⟨_, rfl, by decide⟩).mp h
  exact absurd (hsegment rfl) (by decide)

end Efdi
