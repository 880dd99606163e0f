import Efdi.Asterix.Cat048
import Efdi.Asterix.Frames
import Efdi.Asterix.Miniplan
import Efdi.Asterix.RadarService

/-!
# Blocks of several records

The handlers of CAT-001, CAT-002, CAT-032, CAT-034 and CAT-048, given a block of records of
their edition.  The first four decode from the start of the block and stop behind one record, so
a block loses the others, unless there is nothing to be done with them.  The handler of CAT-048
goes on behind each record and loses none (`batches`).
-/

namespace Efdi.Asterix

open Reading Tracks Batch List

variable (F : FloatMath) (py : PyText)

/-! ## Handlers -/

/-- What a handler publishes. -/
inductive Published where
  /-- `publish_dual`. -/
  | dual (topic : String) (track : Track)
  /-- `publish_native`. -/
  | native (topic : String) (block : Except String (List UInt8))

/-- A message with its time and source. -/
def stamp (now : Rat) (src : String) (msg : Track) : Track :=
  (msg.set "_ts" (real now)).set "_src" (.str src)

/-- A message has coordinates. -/
def located (msg : Track) : Bool := msg.contains "lat_deg" && msg.contains "lon_deg"

/-- The handler of CAT-001. -/
def handler001 (topicRoot : String) (site : Site) : Handler Unit Published Rat UInt8 where
  effects clock _ data :=
    match decodeCat001 F site data with
    | none => []
    | some msg =>
      if located msg then
        let msg := stamp (clock 0) "ASTERIX CAT-1 Ed.1.4" msg
        [.dual (topicRoot ++ "/air/" ++ asterixSource msg ++ "/radar/unknown/aircraft") msg]
      else []
  apply s _ := s

/-- The handler of CAT-002. -/
def handler002 (topicRoot : String) : Handler Unit Published Rat UInt8 where
  effects clock _ data :=
    match decodeCat002 F data with
    | none => []
    | some msg =>
      let msg := stamp (clock 0) "ASTERIX CAT-2 Ed.1.2" msg
      [.dual (topicRoot ++ "/land/" ++ asterixSource msg ++ "/radar/neutral/sensor") msg]
  apply s _ := s

/-- The handler of CAT-032. -/
def handler032 (topicRoot : String) : Handler Unit Published Rat UInt8 where
  effects clock _ data :=
    match decodeCat032 F data with
    | none => []
    | some msg =>
      let msg := stamp (clock 0) "ASTERIX CAT-32 Ed.1.2" msg
      let source := sourceText (numberOr0 msg "server_sac") (numberOr0 msg "server_sic")
      [.dual (topicRoot ++ "/air/" ++ source ++ "/fpps/civ/miniplan") msg]
  apply s _ := s

/-- `_geolocate_from_site`. -/
def geolocateFromSite (site : Site) (sites : PyDict (Nat × Nat) (Rat × Rat)) (track : Track) :
    Track :=
  if located track then track
  else
    match (track.get? "range_nm").bind floatOf, (track.get? "azimuth_deg").bind floatOf with
    | some rangeNm, some azimuthDeg =>
      if rangeNm ≤ 0 then track
      else
        match (sites.get? (numberOr0 track "sac", numberOr0 track "sic")).or site with
        | none => track
        | some known =>
          let position := F.polarToWgs84 known.1 known.2 rangeNm azimuthDeg
          (track.set "lat_deg" (real (F.round position.1 6))).set "lon_deg"
            (real (F.round position.2 6))
    | _, _ => track

/-- What the handler of CAT-048 does with a record. -/
def recordEffects048 (topicRoot : String) (site : Site)
    (sites : PyDict (Nat × Nat) (Rat × Rat)) (found : Track × List UInt8) : List Published :=
  if 2 < found.1.length then
    let track := geolocateFromSite F site sites found.1
    let topic := topicRoot ++ "/air/" ++ asterixSource track ++ "/radar/unknown/aircraft"
    (if located track then [.dual topic track] else []) ++
      [.native (Tracks.viewKey py.toUnicode (semanticTopic py topic track) .raw)
        (asterixDataBlock 48 found.2)]
  else []

/-- A site, when both of its coordinates are configured. -/
def bothOf : Option Rat → Option Rat → Site
  | some lat, some lon => some (lat, lon)
  | _, _ => none

/-- The handler of CAT-048.  The sites of CAT-034 are written by a subscriber; they are as they are
while a block is handled. -/
def handler048 (topicRoot : String) (radarLat radarLon : Option Rat)
    (sites : PyDict (Nat × Nat) (Rat × Rat)) : Handler Unit Published Rat UInt8 where
  effects clock _ data :=
    (records048 F clock radarLat radarLon data).flatMap
      (recordEffects048 F py topicRoot (bothOf radarLat radarLon) sites)
  apply s _ := s

/-! ## Editions -/

/-- The items of a plot of CAT-001 behind I001/020, without and with the special ones. -/
def plotLayouts : List Layout :=
  [.fixed 4, .fixed 2, .fixed 2, .chained 0, .fixed 2, .fixed 2, .fixed 1, .fixed 1, .fixed 2,
    .fixed 4, .fixed 2, .chained 0, .fixed 1]

/-- The items of a track of CAT-001 behind I001/020. -/
def trackLayouts : List Layout :=
  [.fixed 2, .fixed 4, .fixed 4, .fixed 4, .fixed 2, .fixed 2, .fixed 2, .chained 0, .fixed 1,
    .fixed 1, .extended 2, .chained 0, .fixed 2, .fixed 2, .fixed 4, .fixed 2, .chained 0]

/-- The layouts of the items of CAT-001 Edition 1.4 by FRN, without the random field sequence. -/
def orderedLayouts001 (isTrack : Bool) : List Layout :=
  .fixed 2 :: .extended 2 :: (if isTrack then trackLayouts ++ [.explicit, .spare, .fixed 1]
    else plotLayouts ++ [.spare, .spare, .spare, .spare, .explicit, .spare])

/-- What follows the items that the decoder knows. -/
def specialLayouts001 (isTrack : Bool) : List Layout :=
  let rfs := Layout.sequenced (orderedLayouts001 isTrack)
  if isTrack then [.explicit, rfs, .fixed 1] else [.spare, .spare, .spare, .spare, .explicit, rfs]

def targetLayouts001 (isTrack : Bool) : List Layout :=
  if isTrack then trackLayouts else plotLayouts

/-- The layouts of the items of CAT-001 Edition 1.4, by FRN. -/
def uap001 (isTrack : Bool) : List Layout :=
  .fixed 2 :: .extended 2 :: (targetLayouts001 isTrack ++ specialLayouts001 isTrack)

/-- I001/020 TYP of a record. -/
def typ001 (isTrack : Bool) (record : List UInt8) : Option Bool :=
  (chainOf (((uap001 isTrack).length + 6) / 7) record).bind fun found =>
    (Layout.itemAt 1 (uap001 isTrack) (found.1.flatMap flagsOf) found.2).map fun here =>
      bits (octetAt here 0) 0x80

/-- A record of CAT-001: a plot or a track, as I001/020 says where it is there. -/
def Record001 (record : List UInt8) : Prop :=
  ∃ isTrack, Layout.compound (uap001 isTrack) record = some [] ∧
    ∀ typ ∈ typ001 isTrack record, typ = isTrack

/-- The layouts of the items of CAT-002 Edition 1.2, by FRN. -/
def uap002 : List Layout :=
  let items := [.fixed 2, .fixed 1, .fixed 1, .fixed 3, .fixed 2, .chained 0, .chained 0,
    .repeated 2, .fixed 8, .fixed 2, .chained 0]
  items ++ [.spare, .explicit, .sequenced (items ++ [.spare, .explicit])]

/-- A record of CAT-002. -/
def Record002 (record : List UInt8) : Prop := Layout.compound uap002 record = some []

instance (record : List UInt8) : Decidable (Record002 record) :=
  inferInstanceAs (Decidable (_ = _))

/-- The layouts of the items of CAT-032 Edition 1.2, by FRN. -/
def uap032 : List Layout :=
  [.fixed 2, .fixed 2, .fixed 2, .fixed 1, .fixed 3, .fixed 2, .chained 2, .fixed 2, .fixed 7,
    .fixed 2, .fixed 1, .fixed 4, .fixed 4, .fixed 2, .fixed 2, .fixed 4, .fixed 1, .repeated 2,
    .compound [.fixed 4, .fixed 1, .fixed 3, .repeated 4, .fixed 6, .fixed 1, .fixed 7, .fixed 7],
    .spare, .explicit]

/-- A record of CAT-032. -/
def Record032 (record : List UInt8) : Prop := Layout.compound uap032 record = some []

/-- The layouts of the items of CAT-034 Edition 1.29, by FRN. -/
def uap034 : List Layout :=
  [.fixed 2, .fixed 1, .fixed 3, .fixed 1, .fixed 2,
    .compound [.fixed 1, .spare, .spare, .fixed 1, .fixed 1, .fixed 2],
    .compound [.fixed 1, .spare, .spare, .fixed 1, .fixed 1, .fixed 1], .repeated 2, .fixed 8,
    .fixed 1, .fixed 8, .fixed 2, .explicit, .explicit]

/-- A record of CAT-034. -/
def Record034 (record : List UInt8) : Prop := Layout.compound uap034 record = some []

/-! ## The first record is decoded from its own bytes -/

section

variable {F}

@[simp] theorem follows_repetitive (store : List Nat → Track → Track) :
    Follows (repetitive store) (.chained 0) :=
  follows_octets fun (found : List UInt8) => store (found.map fun (b : UInt8) => b.toNat >>> 1)

/-- Of a message that does not depend on what comes behind it. -/
theorem decodeMessage_append {p : Reader Track Unit} {record : List UInt8} {msg : Track}
    (h : ∀ after, (p.run PyDict.empty (record ++ after)).All False (· = msg))
    (after : List UInt8) : decodeMessage p (record ++ after) = decodeMessage p record := by
  have halone := h []
  rw [append_nil] at halone
  rw [decodeMessage, decodeMessage, Result.state?_of_all (h after), Result.state?_of_all halone]

/-- The message does not depend on what follows a record whose last items leave it alone. -/
theorem decodeCompound_append {items silent : List (Reader Track Unit)}
    {layouts others : List Layout} {record : List UInt8}
    (h : List.Forall₂ Follows items layouts) (hsilent : ∀ item ∈ silent, Silent item)
    (hrecord : Layout.compound (layouts ++ others) record = some []) (after : List UInt8) :
    decodeMessage (.compound .fspec (items ++ silent)) (record ++ after) =
      decodeMessage (.compound .fspec (items ++ silent)) record := by
  obtain ⟨⟨found, bytes⟩, hfound, hrest⟩ := Option.bind_eq_some_iff.mp hrecord
  obtain ⟨msg, hsettled⟩ := @settled_present _ items silent layouts others h hsilent _
    PyDict.empty _ _ hrest
  refine @decodeMessage_append _ record msg (fun tail => ?_) after
  rw [Reader.compound, Reader.run_bind, reads_fspec hfound tail]
  exact hsettled tail

variable {record : List UInt8} {topicRoot : String}

theorem decodeCat002_append (h : Record002 record) (after : List UInt8) :
    decodeCat002 F (record ++ after) = decodeCat002 F record := by
  have hitems : List.Forall₂ Follows ((items002 F).take 11) (uap002.take 11) := by
    simp [items002, uap002, item001_010, item002_000, item002_020, item002_030, item002_041,
      item002_070, item002_100, item002_090]
  have hsilent : ∀ item ∈ (items002 F).drop 11, Silent item := by
    intro item hitem
    simp only [items002, drop_succ_cons, drop_zero, mem_cons, not_mem_nil,
      or_false, or_self] at hitem
    rw [hitem]
    exact silent_skipExplicit
  exact @decodeCompound_append _ _ _ (uap002.drop 11) _ hitems hsilent h after

theorem decodeCat032_append (h : Record032 record) (after : List UInt8) :
    decodeCat032 F (record ++ after) = decodeCat032 F record := by
  have h500 : Follows item032_500 (.compound [.fixed 4, .fixed 1, .fixed 3, .repeated 4, .fixed 6,
      .fixed 1, .fixed 7, .fixed 7]) := by
    refine ((follows_compound (readsFlags_presence (by decide)) ?_).nested _ _).attempt
    simp [subfields032, ifi032, rvp032, textItem, sts032]
  have hitems : List.Forall₂ Follows (items032 F) uap032 := by
    simp [items032, uap032, h500, item032_010, numberItem, item001_010, item032_035, item002_030,
      item032_050, item032_060, textItem, item032_420, item032_480, item032_490, item032_435,
      item032_460]
  exact @decodeCompound_append _ [] _ [] _ hitems nofun h after

theorem decodeCat034_append (h : Record034 record) (after : List UInt8) :
    decodeCat034 F (record ++ after) = decodeCat034 F record := by
  have h050 : Follows item034_050
      (.compound [.fixed 1, .spare, .spare, .fixed 1, .fixed 1, .fixed 2]) :=
    (follows_compound (readsFlags_fspec _) <| by simp [com034_050, sensor034_050]).nested _ _
  have h060 : Follows item034_060
      (.compound [.fixed 1, .spare, .spare, .fixed 1, .fixed 1, .fixed 1]) :=
    (follows_compound (readsFlags_fspec _) <| by simp).nested _ _
  have h070 : Follows item034_070 (.repeated 2) := (follows_counted _ 2 _).apart _ _
  have hitems : List.Forall₂ Follows (items034 F) uap034 := by
    simp [items034, uap034, h050, h060, h070, item001_010, item034_000, item002_030, item034_020,
      item034_041, item034_100, item034_110, item034_120, item034_090]
  exact @decodeCompound_append _ [] _ [] _ hitems nofun h after

/-! ### CAT-001 -/

theorem follows_item001_100 : Follows item001_100 (.fixed 4) := by
  intro state bytes rest h
  rw [Layout.fixed] at h
  split at h
  next hle =>
    cases h
    have hneed : 3 ≤ bytes.length := by omega
    have hfirst : Layout.fixed 2 bytes = some (bytes.drop 2) := if_pos (by omega)
    have hsecond : Layout.fixed 2 (bytes.drop 2) = some (bytes.drop 4) := by
      rw [Layout.fixed, if_pos (by rw [length_drop]; omega), drop_drop]
    obtain ⟨mid, hmid⟩ := follows_fixed 2 _ state bytes _ hfirst
    obtain ⟨state', hstate'⟩ := follows_fixed 2 _ mid _ _ hsecond
    exact ⟨state', (reads_need hneed).bind (hmid.bind hstate')⟩
  next => cases h

theorem follows_items001 (site : Site) (isTrack : Bool) :
    List.Forall₂ Follows (if isTrack then trackItems F site else plotItems F site)
      (targetLayouts001 isTrack) := by
  cases isTrack with
  | false =>
    simp [plotItems, targetLayouts001, plotLayouts, follows_item001_100, item001_040, modeCode001,
      item001_090, item001_130, item001_141, item001_120, item001_131, confidence001, item001_030,
      item001_150]
  | true =>
    have h170 : Follows item001_170 (.extended 2) := follows_extentsTo (by decide) _ _
    simp [trackItems, targetLayouts001, trackLayouts, follows_item001_100, h170, item001_161,
      item001_040, item001_042, item001_200, modeCode001, item001_090, item001_141, item001_130,
      item001_131, item001_120, item001_210, confidence001, item001_030]

/-- I001/020 leaves TYP in the message. -/
theorem octet001_020_zero (b : UInt8) (msg : Track) :
    (octet001_020 0 b msg).get? "is_track" = some (flag (bits b 0x80)) := by
  simp [octet001_020, PyDict.get?_set_of_ne]

theorem octet001_020_succ (i : Nat) (b : UInt8) (msg : Track) :
    (octet001_020 (i + 1) b msg).get? "is_track" = msg.get? "is_track" := by
  match i with
  | 0 => simp [octet001_020, PyDict.get?_set_of_ne]
  | _ + 1 => rfl

/-- I001/020 is read to its end, and `is_track` is TYP then. -/
theorem reads_item001_020 {state : Track} {bytes rest : List UInt8}
    (h : Layout.extended 2 bytes = some rest) : ∃ msg, Reads item001_020 state bytes () msg rest ∧
      msg.get? "is_track" = some (flag (bits (octetAt bytes 0) 0x80)) := by
  have hfollows : Follows item001_020 (.extended 2) := follows_extentsTo (by decide) _ _
  obtain ⟨msg, hreads⟩ := hfollows state bytes rest h
  refine ⟨msg, hreads, ?_⟩
  cases bytes with
  | nil => cases h
  | cons octet bytes =>
    have hrun := hreads []
    rw [append_nil] at hrun
    have hchain : Reader.runExtentsTo octet001_020 (fun _ => false) 3 0 state (octet :: bytes) =
        .done () msg (rest ++ []) := hrun
    rw [Reader.runExtentsTo] at hchain
    split at hchain
    next =>
      have hkept := @keeps_runExtentsTo Track False
        (fun msg => msg.get? "is_track" = some (flag (bits octet 0x80))) octet001_020
        (fun _ => false) (fun i b msg hmsg => (octet001_020_succ i b msg).trans hmsg) 2 0 bytes _
        (octet001_020_zero octet state)
      rw [hchain] at hkept
      exact hkept
    next =>
      cases hchain
      exact octet001_020_zero octet state

/-- The items behind I001/020. -/
theorem settled_targetItems {site : Site} {isTrack : Bool} {flags : List Bool} {msg : Track}
    {bytes rest : List UInt8} (hmsg : msg.get? "is_track" = some (flag isTrack))
    (hrest : Layout.present (targetLayouts001 isTrack ++ specialLayouts001 isTrack)
      (flags.drop 2) bytes = some rest) :
    ∃ msg', ∀ after, ((targetItems F site flags).run msg (bytes ++ after)).All False (· = msg') := by
  have hsilent : ∀ item ∈ replicate flags.length (Reader.skipExplicit : Reader Track Unit),
      Silent item := by
    intro item hitem
    rw [eq_of_mem_replicate hitem]
    exact silent_skipExplicit
  obtain ⟨msg', hsettled⟩ := @settled_present _ _ _ _ _ (follows_items001 site isTrack) hsilent _
    msg _ _ hrest
  refine ⟨msg', fun after => ?_⟩
  have hitems : (if msg.get? "is_track" = some (flag true) then trackItems F site
      else plotItems F site) = if isTrack then trackItems F site else plotItems F site := by
    rw [hmsg]
    cases isTrack with
    | false => exact if_neg nofun
    | true => rfl
  rw [targetItems, Reader.run_bind, reads_get after]
  dsimp only
  rw [hitems]
  exact hsettled after

/-- The message of a record does not depend on what comes behind the record. -/
theorem settled001 {site : Site} {record : List UInt8} (h : Record001 record) :
    ∃ msg, ∀ after, ((reader001 F site).run PyDict.empty (record ++ after)).All False (· = msg) := by
  obtain ⟨isTrack, hrecord, htyp⟩ := h
  obtain ⟨⟨found, bytes⟩, hfound, hrest⟩ := Option.bind_eq_some_iff.mp hrecord
  have hstart : Reads Reader.fspec (PyDict.empty : Track) record (found.flatMap flagsOf)
      PyDict.empty bytes := reads_fspec hfound
  have htyp : ∀ here, Layout.itemAt 1 (uap001 isTrack) (found.flatMap flagsOf) bytes = some here →
      bits (octetAt here 0) 0x80 = isTrack := by
    intro here hhere
    refine htyp _ ?_
    rw [typ001, hfound, Option.bind_some, hhere]
    rfl
  generalize found.flatMap flagsOf = flags at hrest hstart htyp
  match flags with
  | [] | false :: flags =>
    refine ⟨PyDict.empty, fun after => ?_⟩
    rw [reader001, Reader.run_bind, hstart after]
    rfl
  | true :: flags =>
    obtain ⟨between, hbetween, hrest⟩ := Option.bind_eq_some_iff.mp hrest
    obtain ⟨mid, hmid⟩ : ∃ mid, Reads item001_010 PyDict.empty bytes () mid between :=
      follows_fixed 2 _ PyDict.empty bytes between hbetween
    match flags with
    | [] | false :: flags =>
      refine ⟨mid, fun after => ?_⟩
      rw [reader001, Reader.run_bind, hstart after]
      dsimp only
      rw [getElem?_cons_zero, if_pos rfl, Reader.run_bind, hmid after]
      rfl
    | true :: flags =>
      obtain ⟨behind, hbehind, hrest⟩ := Option.bind_eq_some_iff.mp hrest
      obtain ⟨msg, hreads, hmsg⟩ := @reads_item001_020 mid _ _ hbehind
      have hhere : Layout.itemAt 1 (uap001 isTrack) (true :: true :: flags) bytes =
          some between := Option.bind_eq_some_iff.mpr ⟨between, hbetween, rfl⟩
      rw [htyp between hhere] at hmsg
      obtain ⟨msg', hsettled⟩ :=
        @settled_targetItems F site isTrack (true :: true :: flags) msg _ _ hmsg hrest
      refine ⟨msg', fun after => ?_⟩
      rw [reader001, Reader.run_bind, hstart after]
      dsimp only
      rw [getElem?_cons_zero, if_pos rfl, Reader.run_bind, hmid after]
      dsimp only
      rw [getElem?_cons_succ, getElem?_cons_zero, if_pos rfl, Reader.run_bind,
        hreads after]
      exact hsettled after

theorem decodeCat001_append {site : Site} (h : Record001 record) (after : List UInt8) :
    decodeCat001 F site (record ++ after) = decodeCat001 F site record := by
  obtain ⟨msg, hsettled⟩ := @settled001 F site _ h
  exact decodeMessage_append hsettled after

/-! ## Records with which there is nothing to do -/

theorem effects001_eq_nil_iff {site : Site} (clock : Nat → Rat) (state : Unit)
    (record : List UInt8) :
    (handler001 F topicRoot site).effects clock state record = [] ↔
      ∀ msg, decodeCat001 F site record = some msg → located msg = false := by
  simp only [handler001]
  cases hmsg : decodeCat001 F site record with
  | none => exact ⟨fun _ => nofun, fun _ => rfl⟩
  | some msg =>
    dsimp only
    constructor
    · intro hnone other hother
      obtain rfl := Option.some.inj hother
      split at hnone
      next => cases hnone
      next hlocated => exact Bool.not_eq_true _ ▸ hlocated
    · intro h
      rw [h msg rfl]
      exact if_neg Bool.false_ne_true

theorem effects002_eq_nil_iff (clock : Nat → Rat) (state : Unit) (record : List UInt8) :
    (handler002 F topicRoot).effects clock state record = [] ↔
      decodeCat002 F record = none := by
  simp only [handler002]
  cases hmsg : decodeCat002 F record with
  | none => exact ⟨fun _ => rfl, fun _ => rfl⟩
  | some msg => exact ⟨nofun, nofun⟩

theorem effects032_eq_nil_iff (clock : Nat → Rat) (state : Unit) (record : List UInt8) :
    (handler032 F topicRoot).effects clock state record = [] ↔
      decodeCat032 F record = none := by
  simp only [handler032]
  cases hmsg : decodeCat032 F record with
  | none => exact ⟨fun _ => rfl, fun _ => rfl⟩
  | some msg => exact ⟨nofun, nofun⟩

theorem effects034_eq_nil_iff {cfg : RadarConfig} (clock : Nat → Rat) (state : RadarState)
    (record : List UInt8) : (handler034 F cfg).effects clock state record = [] ↔
      (cfg.publishes = true → ∀ msg, decodeCat034 F record = some msg →
        Quiet034 F cfg state msg) := by
  simp only [handler034]
  cases hmsg : decodeCat034 F record with
  | none => exact ⟨fun _ _ => nofun, fun _ => rfl⟩
  | some msg =>
    cases cfg.publishes with
    | false => exact ⟨fun _ => nofun, fun _ => rfl⟩
    | true =>
      constructor
      · intro h _ other hother
        obtain rfl := Option.some.inj hother
        exact radarEffects_eq_nil_iff.mp h
      · intro h
        exact radarEffects_eq_nil_iff.mpr (h rfl msg rfl)

/-! ## CAT-048 -/

theorem records048_flatten {clock : Nat → Rat} {radarLat radarLon : Option Rat}
    {rs : List (List UInt8)} (h : ∀ r ∈ rs, Record048 r) :
    records048 F clock radarLat radarLon rs.flatten =
      placed (fun pos r => (decodeRecord048 F (clock pos) radarLat radarLon r).1) 0 rs := by
  refine records_flatten rs [] fun r hr => ⟨?_, fun before after => ?_⟩
  · rintro rfl
    cases h [] hr
  · exact decodeAt_append (decodeRecord048_append (h r hr) after)

theorem oneByOne_handler048 {topicRoot : String} {clock : Nat → Rat}
    {radarLat radarLon : Option Rat} {sites : PyDict (Nat × Nat) (Rat × Rat)} {state : Unit} :
    ∀ {rs : List (List UInt8)} {pos : Nat}, (∀ r ∈ rs, Record048 r) →
      (handler048 F py topicRoot radarLat radarLon sites).oneByOne clock pos state rs =
        (placed (fun pos r => (decodeRecord048 F (clock pos) radarLat radarLon r).1) pos rs).flatMap
          (recordEffects048 F py topicRoot (bothOf radarLat radarLon) sites)
  | [], _, _ => rfl
  | r :: rs, pos, h => by
    have hone : records048 F (fun i => clock (pos + i)) radarLat radarLon r =
        [((decodeRecord048 F (clock pos) radarLat radarLon r).1, r)] := by
      have hsingle := @records048_flatten F (fun i => clock (pos + i)) radarLat radarLon [r]
        fun other hother => h other (mem_cons.mpr (.inl (mem_singleton.mp hother)))
      rw [flatten_cons, flatten_nil, append_nil] at hsingle
      exact hsingle
    have hrest := @oneByOne_handler048 topicRoot clock radarLat radarLon sites state rs
      (pos + r.length) fun other hother => h other (.tail _ hother)
    rw [Handler.oneByOne, placed, flatMap_cons]
    show (records048 F (fun i => clock (pos + i)) radarLat radarLon r).flatMap _ ++ _ = _
    rw [hone, flatMap_cons, flatMap_nil, append_nil]
    exact congrArg _ hrest

end

/-! ## Blocks -/

end Efdi.Asterix
