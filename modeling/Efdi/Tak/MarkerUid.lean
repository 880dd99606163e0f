import Efdi.Tracks.Handoff

/-!
# The uid of a marker

`_uid` names the marker of a track by the first radio identifier that it has, else by its callsign,
and at last by its position.  `object_id` names the object by the keys of `_ID_KEYS`.

Those keys do not decide the uid.  Two identifiers that `_uid` reads are not among them, and four of
them are not read by `_uid`, so that a track which has no other is named by its position
(`uid_kept_iff`).
-/

namespace Efdi.Tak.MarkerUid

open Tracks List

/-- What `_uid` does with letters and with floats. -/
structure UidText extends PyText where
  /-- `s.upper()`. -/
  upper : String → String
  upper_digits : ∀ s, (∀ c ∈ s.toList, c.isDigit = true) → upper s = s
  /-- `"{:.5f}-{:.5f}".format(lat, lon)`, when it does not raise. -/
  position : PyJson → PyJson → Option String
  position_origin : position (.int 0) (.int 0) = some "0.00000-0.00000"
  position_north : position (.int 1) (.int 0) = some "1.00000-0.00000"

/-- The radio identifiers in the order in which `_uid` reads them, and what they become. -/
def radioKeys : List (String × String) :=
  [("icao24", "ICAO"), ("mmsi", "MMSI"), ("sat_id", "SAT"), ("radar_id", "RAD"),
    ("sensor_id", "SENS"), ("uid", "UID")]

variable (T : UidText)

/-- The uid by a radio identifier. -/
def radioUid (track : Track) : Option String :=
  (radioKeys.find? fun key => truthy (track.field key.1)).map fun key =>
    "EFDI-" ++ key.2 ++ "-" ++ T.upper (pyStr T.toPyText (track.field key.1))

/-- `track.get("_src", "efdi")` as it is formatted. -/
def sourceText (track : Track) : String :=
  match track.get? "_src" with
  | none => "efdi"
  | some src => pyStr T.toPyText src

/-- `(track.get("callsign") or "").strip()`, when it does not raise. -/
def callsignText (track : Track) : Option String :=
  match track.field "callsign" with
  | .str callsign => some (PyStr.strip callsign)
  | callsign => if truthy callsign then none else some ""

/-- `_uid`, when it does not raise. -/
def uid (track : Track) : Option String :=
  match radioUid T track with
  | some uid => some uid
  | none =>
    (callsignText track).bind fun callsign =>
      if callsign ≠ "" then some ("EFDI-" ++ sourceText T track ++ "-" ++ callsign)
      else
        (T.position ((track.get? "lat_deg").getD (.int 0))
          ((track.get? "lon_deg").getD (.int 0))).map fun position =>
            "EFDI-" ++ sourceText T track ++ "-" ++ position

/-! ### Reports of one object -/

/-- Two tracks agree on some fields. -/
def Agree (keys : List String) (track track' : Track) : Prop :=
  ∀ key ∈ keys, track'.get? key = track.get? key

/-- The fields of one object of one source. -/
def objectKeys : List String := ["_src", "sac", "sic"] ++ idKeys

/-- The identifiers that `_uid` reads and `object_id` does not. -/
def markerKeys : List String := ["sat_id", "sensor_id"]

/-- All reports that agree with a track on the fields have one uid. -/
def OneUid (keys : List String) (track : Track) : Prop :=
  ∃ name, ∀ track', Agree keys track track' → uid T track' = some name

/-- The track has a radio identifier or a callsign. -/
def Named (track : Track) : Prop :=
  (∃ key ∈ radioKeys, truthy (track.field key.1) = true) ∨
    ∃ callsign, track.field "callsign" = .str callsign ∧ PyStr.strip callsign ≠ ""

section Uid

variable {T} {keys : List String} {track track' : Track}

theorem Agree.field (h : Agree keys track track') {key : String} (hkey : key ∈ keys) :
    track'.field key = track.field key := by
  rw [Track.field, Track.field, h key hkey]

/-- A field that is written beside some keys leaves them. -/
theorem agree_set {key : String} (hkey : key ∉ keys) (value : PyJson) :
    Agree keys track (track.set key value) := by
  intro other hother
  have hne : other ≠ key := by
    rintro rfl
    exact hkey hother
  exact PyDict.get?_set_of_ne _ hne value

theorem Agree.trans {track'' : Track} (h : Agree keys track track')
    (h' : Agree keys track' track'') : Agree keys track track'' := fun key hkey =>
  (h' key hkey).trans (h key hkey)

/-- The first identifier that is there decides. -/
theorem uid_radio {name : String} (h : radioUid T track = some name) : uid T track = some name := by
  rw [uid, h]

theorem radioUid_first {before after : List (String × String)} {key : String × String}
    (hkeys : radioKeys = before ++ key :: after)
    (hbefore : ∀ other ∈ before, truthy (track.field other.1) = false)
    (hkey : truthy (track.field key.1) = true) :
    radioUid T track =
      some ("EFDI-" ++ key.2 ++ "-" ++ T.upper (pyStr T.toPyText (track.field key.1))) := by
  have hnone : before.find? (fun key => truthy (track.field key.1)) = none :=
    find?_eq_none.mpr fun other hother => Bool.eq_false_iff.mp (hbefore other hother)
  rw [radioUid, hkeys, find?_append, hnone, Option.none_or, find?_cons, hkey]
  rfl

theorem radioUid_none (h : ∀ key ∈ radioKeys, truthy (track.field key.1) = false) :
    radioUid T track = none := by
  have hnone : radioKeys.find? (fun key => truthy (track.field key.1)) = none :=
    find?_eq_none.mpr fun key hkey => Bool.eq_false_iff.mp (h key hkey)
  rw [radioUid, hnone]
  rfl

theorem find?_truthy_congr : ∀ {keys : List (String × String)},
    (∀ key ∈ keys, track'.field key.1 = track.field key.1) →
      keys.find? (fun key => truthy (track'.field key.1)) =
        keys.find? fun key => truthy (track.field key.1)
  | [], _ => rfl
  | key :: keys, h => by
    rw [find?_cons, find?_cons, h key mem_cons_self,
      find?_truthy_congr fun other hother => h other (mem_cons_of_mem key hother)]

/-- Tracks that agree on what names a marker have the same uid by an identifier. -/
theorem radioUid_congr (h : ∀ key ∈ radioKeys, track'.field key.1 = track.field key.1) :
    radioUid T track' = radioUid T track := by
  rw [radioUid, radioUid, find?_truthy_congr h]
  cases hfound : radioKeys.find? fun key => truthy (track.field key.1) with
  | none => rfl
  | some key => rw [Option.map_some, Option.map_some, h key (mem_of_find?_eq_some hfound)]

/-! ### When the uid is kept -/

theorem radioKeys_agree (h : Agree (objectKeys ++ markerKeys) track track') :
    ∀ key ∈ radioKeys, track'.field key.1 = track.field key.1 := fun key hkey =>
  h.field ((by decide : ∀ key ∈ radioKeys, key.1 ∈ objectKeys ++ markerKeys) key hkey)

/-- A track with an identifier or a callsign has one uid, wherever it is. -/
theorem oneUid_of_named (h : Named track) : OneUid T (objectKeys ++ markerKeys) track := by
  cases hradio : radioUid T track with
  | some name =>
    refine ⟨name, fun track' hagree => uid_radio ?_⟩
    rw [radioUid_congr (radioKeys_agree hagree), hradio]
  | none =>
    rcases h with ⟨key, hkey, htruthy⟩ | ⟨callsign, hcallsign, hne⟩
    · rw [radioUid, Option.map_eq_none_iff, find?_eq_none] at hradio
      exact absurd htruthy (hradio key hkey)
    · refine ⟨"EFDI-" ++ sourceText T track ++ "-" ++ PyStr.strip callsign,
        fun track' hagree => ?_⟩
      have hcallsign' : track'.field "callsign" = .str callsign :=
        (hagree.field (by decide)).trans hcallsign
      have hsource : sourceText T track' = sourceText T track := by
        rw [sourceText, sourceText, hagree "_src" (by decide)]
      rw [uid, radioUid_congr (radioKeys_agree hagree), hradio, callsignText, hcallsign', hsource]
      exact if_pos hne

/-- A track without is named by its position. -/
theorem uid_position (hradio : ∀ key ∈ radioKeys, truthy (track.field key.1) = false)
    (hcallsign : callsignText track = some "") {position : String}
    (hposition : T.position ((track.get? "lat_deg").getD (.int 0))
      ((track.get? "lon_deg").getD (.int 0)) = some position) :
    uid T track = some ("EFDI-" ++ sourceText T track ++ "-" ++ position) := by
  rw [uid, radioUid_none hradio, hcallsign, hposition]
  rfl

/-- The track at a place. -/
def placed (track : Track) (lat : Int) : Track :=
  (track.set "lat_deg" (.int lat)).set "lon_deg" (.int 0)

theorem agree_placed (lat : Int) : Agree (objectKeys ++ markerKeys) track (placed track lat) :=
  (agree_set (by decide) _).trans (agree_set (by decide) _)

theorem get?_lat_placed (lat : Int) : (placed track lat).get? "lat_deg" = some (.int lat) := by
  rw [placed, PyDict.get?_set_of_ne _ (by decide), PyDict.get?_set_self]

theorem get?_lon_placed (lat : Int) : (placed track lat).get? "lon_deg" = some (.int 0) := by
  rw [placed, PyDict.get?_set_self]

/-- A callsign that does not name the marker is blank, or raises. -/
theorem callsignText_of_not_named (h : ¬Named track) :
    callsignText track = some "" ∨ callsignText track = none := by
  rw [callsignText]
  split
  next callsign hcallsign =>
    left
    by_contra hblank
    exact h (.inr ⟨callsign, hcallsign, fun hstrip => hblank (congrArg some hstrip)⟩)
  next _ =>
    split
    next _ => exact .inr rfl
    next _ => exact .inl rfl

theorem uid_text_ne (front : String) : front ++ "0.00000-0.00000" ≠ front ++ "1.00000-0.00000" := by
  intro hsame
  have hchars := congrArg String.toList hsame
  rw [String.toList_append, String.toList_append] at hchars
  exact absurd (append_cancel_left hchars) (by decide)

theorem named_of_oneUid (h : OneUid T (objectKeys ++ markerKeys) track) : Named track := by
  by_contra hno
  obtain ⟨name, hname⟩ := h
  have hradio : ∀ key ∈ radioKeys, truthy (track.field key.1) = false := fun key hkey =>
    Bool.eq_false_iff.mpr fun htruthy => hno (.inl ⟨key, hkey, htruthy⟩)
  have hradio' : ∀ lat, ∀ key ∈ radioKeys, truthy ((placed track lat).field key.1) = false := by
    intro lat key hkey
    rw [radioKeys_agree (agree_placed lat) key hkey]
    exact hradio key hkey
  have hcallsign : ∀ lat, callsignText (placed track lat) = callsignText track := by
    intro lat
    rw [callsignText, callsignText, (agree_placed lat).field (by decide)]
  have hsource : ∀ lat, sourceText T (placed track lat) = sourceText T track := by
    intro lat
    rw [sourceText, sourceText, agree_placed lat "_src" (by decide)]
  rcases callsignText_of_not_named hno with hblank | hraises
  · have horigin := uid_position (hradio' 0) ((hcallsign 0).trans hblank)
      (by rw [get?_lat_placed, get?_lon_placed]; exact T.position_origin)
    have hnorth := uid_position (hradio' 1) ((hcallsign 1).trans hblank)
      (by rw [get?_lat_placed, get?_lon_placed]; exact T.position_north)
    rw [hname _ (agree_placed 0), hsource] at horigin
    rw [hname _ (agree_placed 1), hsource] at hnorth
    exact uid_text_ne _ (Option.some.inj (horigin.symm.trans hnorth))
  · have hnone := hname _ (agree_placed 0)
    rw [uid, radioUid_none (hradio' 0), hcallsign, hraises] at hnone
    cases hnone

/-- An address or an MMSI decides the uid alone. -/
theorem oneUid_of_address (h : truthy (track.field "icao24") = true ∨
    truthy (track.field "mmsi") = true) : OneUid T objectKeys track := by
  have hicao : ∀ {track'}, Agree objectKeys track track' →
      track'.field "icao24" = track.field "icao24" := fun hagree => hagree.field (by decide)
  have hmmsi : ∀ {track'}, Agree objectKeys track track' →
      track'.field "mmsi" = track.field "mmsi" := fun hagree => hagree.field (by decide)
  cases haddress : truthy (track.field "icao24") with
  | true =>
    refine ⟨"EFDI-ICAO-" ++ T.upper (pyStr T.toPyText (track.field "icao24")),
      fun track' hagree => uid_radio ?_⟩
    have hkey : truthy (track'.field "icao24") = true := by
      rw [hicao hagree, haddress]
    have hfirst := @radioUid_first T track' [] _ ("icao24", "ICAO") rfl
      (fun _ hother => absurd hother not_mem_nil) hkey
    rw [hfirst, hicao hagree]
    rfl
  | false =>
    have hmarine : truthy (track.field "mmsi") = true := by
      rw [haddress] at h
      exact h.resolve_left Bool.false_ne_true
    refine ⟨"EFDI-MMSI-" ++ T.upper (pyStr T.toPyText (track.field "mmsi")),
      fun track' hagree => uid_radio ?_⟩
    have hkey : truthy (track'.field "mmsi") = true := by
      rw [hmmsi hagree, hmarine]
    have hbefore : ∀ other ∈ [("icao24", "ICAO")], truthy (track'.field other.1) = false := by
      intro other hother
      rw [mem_singleton.mp hother]
      show truthy (track'.field "icao24") = false
      rw [hicao hagree, haddress]
    have hfirst := @radioUid_first T track' _ _ ("mmsi", "MMSI") rfl hbefore hkey
    rw [hfirst, hmmsi hagree]
    rfl

/-- The track as a report of a satellite. -/
def satellite (track : Track) (number : String) : Track := track.set "sat_id" (.str number)

theorem agree_satellite (number : String) : Agree objectKeys track (satellite track number) :=
  agree_set (by decide) _

theorem uid_satellite (hicao : truthy (track.field "icao24") = false)
    (hmmsi : truthy (track.field "mmsi") = false) {number : String}
    (hdigits : ∀ c ∈ number.toList, c.isDigit = true) (hne : number ≠ "") :
    uid T (satellite track number) = some ("EFDI-SAT-" ++ number) := by
  have hsat : (satellite track number).field "sat_id" = .str number := by
    rw [Track.field, satellite, PyDict.get?_set_self]
    rfl
  have hbefore : ∀ other ∈ [("icao24", "ICAO"), ("mmsi", "MMSI")],
      truthy ((satellite track number).field other.1) = false := by
    intro other hother
    rcases mem_pair.mp hother with rfl | rfl
    · rw [(agree_satellite number).field (by decide)]
      exact hicao
    · rw [(agree_satellite number).field (by decide)]
      exact hmmsi
  have hkey : truthy ((satellite track number).field "sat_id") = true := by
    rw [hsat, truthy, bne_iff_ne]
    exact hne
  have hfirst := @radioUid_first T (satellite track number) _ _ ("sat_id", "SAT") rfl hbefore hkey
  have hname : pyStr T.toPyText ((satellite track number).field "sat_id") = number := by
    rw [hsat, pyStr]
  rw [uid_radio hfirst, hname, T.upper_digits number hdigits]
  rfl

theorem address_of_oneUid (h : OneUid T objectKeys track) :
    truthy (track.field "icao24") = true ∨ truthy (track.field "mmsi") = true := by
  by_contra hno
  obtain ⟨hicao, hmmsi⟩ := not_or.mp hno
  obtain ⟨name, hname⟩ := h
  have hone := hname _ (agree_satellite "1")
  have htwo := hname _ (agree_satellite "2")
  rw [uid_satellite (Bool.eq_false_iff.mpr hicao) (Bool.eq_false_iff.mpr hmmsi)
    (all_eq_true.mp (by decide)) (by decide)] at hone htwo
  exact absurd (hone.trans htwo.symm) (by decide +kernel)

end Uid

/-- The reports of one object have one uid exactly when it has an address or an MMSI; and those that
agree on the satellite and the sensor as well, exactly when it has some radio identifier or a
callsign. -/
theorem uid_kept_iff (T : UidText) (track : Track) :
    (OneUid T objectKeys track ↔
      truthy (track.field "icao24") = true ∨ truthy (track.field "mmsi") = true) ∧
    (OneUid T (objectKeys ++ markerKeys) track ↔ Named track) :=
  ⟨⟨address_of_oneUid, oneUid_of_address⟩, ⟨named_of_oneUid, oneUid_of_named⟩⟩

/-! ### A system track without an address -/

/-- The text methods on ASCII; positions are told apart by their latitude. -/
def plainText : UidText where
  toPyText := asciiText
  upper := fun s => s
  upper_digits := fun _ _ => rfl
  position := fun lat _ =>
    if lat = .int 0 then some "0.00000-0.00000" else some "1.00000-0.00000"
  position_origin := rfl
  position_north := rfl

/-- A report of system track 17. -/
def systemTrack (lat : Int) : Track :=
  (((((PyDict.empty.set "_src" (.str "ASTERIX CAT-62 Ed.1.21")).set "sac" (.int 1)).set "sic"
    (.int 2)).set "track_num" (.int 17)).set "lat_deg" (.int lat)).set "lon_deg" (.int 0)

/-- Two reports of one system track have two uids. -/
theorem uid_moves :
    ¬∀ (T : UidText) (track track' : Track), objectId T.toPyText track ≠ "unknown" →
      Agree objectKeys track track' → uid T track' = uid T track := by
  intro hall
  have hagree : Agree objectKeys (systemTrack 0) (systemTrack 1) := by
    unfold Agree
    decide +kernel
  have hsame := hall plainText (systemTrack 0) (systemTrack 1) (by decide +kernel) hagree
  exact absurd hsame (by decide +kernel)

end Efdi.Tak.MarkerUid
