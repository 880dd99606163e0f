import Efdi.Base.KeyExpr
import Efdi.Tracks.ObjectKeys

/-!
# Subscriptions of the TAK layer

`_TOPIC_COT` and the subscriptions that `run` makes of it.  Nearly every entry looks for its words
(an affiliation and an entity, or one of them) between two wild cards for any number of segments,
so it finds them wherever they stand in a key.  An object has one subscription exactly when no
other words of its domain stand in its key (`one_subscription_iff`).  An aircraft of which the type
is not known has two: `unknown` is an affiliation, too (`untyped_aircraft_twice`).
-/

namespace Efdi.Tak

open KeyExpr Tracks List

/-! ## The table -/

/-- What the type of an event is taken from. -/
inductive CotType where
  | fixed (code : String)
  /-- `_wing`. -/
  | wing (code : String)
  /-- `_unknown_air_type`. -/
  | unknownAir
  /-- `_friendly_air_type`. -/
  | friendlyAir
  /-- `ground_unit.friendly_unit_cot_type` of the symbol. -/
  | friendlyUnit
  /-- `ground_unit.cot_suffix` of the arm, behind a hostile unit. -/
  | hostileUnit
  /-- `_sensor_alert_cot_type`. -/
  | sensorAlert
deriving DecidableEq

def airStaleS : Nat := 120

def seaStaleS : Nat := 300

def landStaleS : Nat := 120

def satStaleS : Nat := 300

def envStaleS : Nat := 3600

/-- An entry of `_TOPIC_COT`. -/
structure TopicCot where
  suffix : String
  cotType : CotType
  staleS : Nat
deriving DecidableEq

/-- `_TOPIC_COT`. -/
def topicCot : List TopicCot :=
  [⟨"air/**/civ/aircraft/**", .wing "a-n-A-C-F", airStaleS⟩,
    ⟨"air/**/mil/aircraft/**", .wing "a-n-A-M-F", airStaleS⟩,
    ⟨"air/**/unknown/**", .unknownAir, airStaleS⟩,
    ⟨"land/**/civ/vehicle/**", .fixed "a-f-G-E-V-C", landStaleS⟩,
    ⟨"land/**/neutral/station/**", .fixed "a-n-G-E-S", landStaleS⟩,
    ⟨"land/**/friendly/unit/**", .friendlyUnit, landStaleS⟩,
    ⟨"land/**/hostile/unit/**", .hostileUnit, landStaleS⟩,
    ⟨"land/**/neutral/unit/**", .fixed "a-n-G-U-C", landStaleS⟩,
    ⟨"land/**/unknown/unit/**", .fixed "a-u-G-U-C", landStaleS⟩,
    ⟨"air/**/friendly/unit/**", .friendlyAir, airStaleS⟩,
    ⟨"sea/**/friendly/unit/**", .fixed "a-f-S", seaStaleS⟩,
    ⟨"space/**/friendly/unit/**", .fixed "a-f-P", satStaleS⟩,
    ⟨"land/**/unknown/vehicle/**", .fixed "a-u-G-E-V", landStaleS⟩,
    ⟨"land/**/unknown/person/**", .fixed "a-u-G-U-C-I", landStaleS⟩,
    ⟨"land/**/unknown/sensor/**", .fixed "a-u-G-E-S", landStaleS⟩,
    ⟨"land/**/neutral/zone/**", .fixed "a-n-G-I-R", landStaleS⟩,
    ⟨"land/**/hostile/incident/**", .fixed "a-h-G-I-E", landStaleS⟩,
    ⟨"land/**/friendly/incident/**", .fixed "a-f-G-I-E", landStaleS⟩,
    ⟨"land/**/neutral/incident/**", .fixed "a-n-G-I-E", landStaleS⟩,
    ⟨"land/**/unknown/incident/**", .fixed "a-u-G-I-E", landStaleS⟩,
    ⟨"land/**/neutral/alert/**", .fixed "a-n-G-I-R", landStaleS⟩,
    ⟨"air/**/friendly/aircraft/**", .wing "a-f-A-M-F", airStaleS⟩,
    ⟨"air/**/friendly/uav/**", .fixed "a-f-A-M-F-Q", airStaleS⟩,
    ⟨"air/**/hostile/aircraft/**", .wing "a-h-A-M-F", airStaleS⟩,
    ⟨"air/**/neutral/aircraft/**", .wing "a-n-A-M-F", airStaleS⟩,
    ⟨"air/**/hostile/uav/**", .fixed "a-h-A-M-F-Q", airStaleS⟩,
    ⟨"air/**/hostile/missile/**", .fixed "a-h-A-W-M", airStaleS⟩,
    ⟨"air/**/hostile/bomb/**", .fixed "a-h-A-W-B", airStaleS⟩,
    ⟨"air/**/trail/**", .fixed "a-h-A", airStaleS⟩,
    ⟨"sea/**/civ/vessel/**", .fixed "a-n-S-X-L", seaStaleS⟩,
    ⟨"sea/**/mil/vessel/**", .fixed "a-n-S-W-C", seaStaleS⟩,
    ⟨"sea/**/friendly/vessel/**", .fixed "a-f-S-X-L", seaStaleS⟩,
    ⟨"sea/**/hostile/vessel/**", .fixed "a-h-S-X-L", seaStaleS⟩,
    ⟨"sea/**/neutral/vessel/**", .fixed "a-n-S-X-L", seaStaleS⟩,
    ⟨"sea/**/unknown/vessel/**", .fixed "a-u-S-X-L", seaStaleS⟩,
    ⟨"space/**/civ/satellite/**", .fixed "a-f-P", satStaleS⟩,
    ⟨"space/**/friendly/satellite/**", .fixed "a-f-P", satStaleS⟩,
    ⟨"space/**/hostile/satellite/**", .fixed "a-h-P", satStaleS⟩,
    ⟨"space/**/neutral/satellite/**", .fixed "a-n-P", satStaleS⟩,
    ⟨"space/**/unknown/satellite/**", .fixed "a-u-P", satStaleS⟩,
    ⟨"env/weather/station/**", .fixed "a-n-G-E-S-E", envStaleS⟩,
    ⟨"land/**/neutral/sensor/**", .sensorAlert, landStaleS * 2⟩]

/-! ## Key expressions -/

def chunkOf (segment : String) : Chunk String :=
  if segment = "**" then .any else if segment = "*" then .one else .literal segment

/-- A key expression matches a key, both written with slashes. -/
def KeyMatches (expr key : String) : Prop :=
  Matches ((PyStr.split '/' expr).map chunkOf) (PyStr.split '/' key)

instance (expr key : String) : Decidable (KeyMatches expr key) :=
  inferInstanceAs (Decidable (Matches _ _))

/-- The key expression that `run` subscribes to for an entry. -/
def TopicCot.keyExpr (topicRoot : String) (entry : TopicCot) : String :=
  topicRoot ++ "/" ++ entry.suffix

/-- The entries whose handlers get a sample. -/
def deliveries (topicRoot key : String) : List TopicCot :=
  topicCot.filter fun entry => KeyMatches (entry.keyExpr topicRoot) key

/-! ## Objects -/

/-- The segments of an object key behind the root. -/
structure ObjectKey where
  domain : String
  source : String
  modality : String
  affiliation : String
  entity : String
  type : String
  id : String

namespace ObjectKey

def segments (k : ObjectKey) : List String :=
  [k.source, k.modality, k.affiliation, k.entity, k.type, k.id, "tracks", "v1"]

/-- The key of an object. -/
def text (topicRoot : String) (k : ObjectKey) : String :=
  topicRoot ++ "/" ++ PyStr.join "/" (k.domain :: k.segments)

end ObjectKey

/-- The parts are segments. -/
def ObjectKey.WellFormed (k : ObjectKey) : Prop :=
  ∀ segment ∈ k.domain :: k.segments, '/' ∉ segment.toList

instance (k : ObjectKey) : Decidable k.WellFormed := inferInstanceAs (Decidable (∀ _ ∈ _, _))

/-- The domain of an entry. -/
def TopicCot.domain (entry : TopicCot) : String := (PyStr.split '/' entry.suffix).headD ""

/-- The words of an entry that it looks for anywhere behind its domain: an affiliation and an
entity, or a single word in the place of an affiliation. -/
def TopicCot.words (entry : TopicCot) : List String :=
  match PyStr.split '/' entry.suffix with
  | _ :: "**" :: rest => rest.dropLast
  | _ => []

/-- The affiliation and the entity of an object are those of an entry. -/
def TopicCot.Names (entry : TopicCot) (k : ObjectKey) : Prop :=
  entry.domain = k.domain ∧
    (entry.words = [k.affiliation, k.entity] ∨ entry.words = [k.affiliation])

/-- No other words of the domain stand in a key: next to each other, no pair of source and modality,
of entity and type or of type and id, and alone, none of them. -/
structure ObjectKey.Clear (k : ObjectKey) : Prop where
  pairs : ∀ entry ∈ topicCot, entry.domain = k.domain →
    ∀ pair ∈ [(k.source, k.modality), (k.entity, k.type), (k.type, k.id)],
      entry.words = [pair.1, pair.2] → pair = (k.affiliation, k.entity)
  alone : ∀ entry ∈ topicCot, entry.domain = k.domain →
    ∀ word ∈ [k.source, k.modality, k.entity, k.type, k.id],
      entry.words = [word] → word = k.affiliation

/-- The root of the data keys is literal. -/
def LiteralRoot (topicRoot : String) : Prop :=
  ∀ segment ∈ PyStr.split '/' topicRoot, chunkOf segment = .literal segment

instance (topicRoot : String) : Decidable (LiteralRoot topicRoot) :=
  inferInstanceAs (Decidable (∀ _ ∈ _, _))

/-! ## The words of the table -/

/-- The affiliations of the taxonomy, and what stands in the place of one. -/
def affiliations : List String :=
  ["civ", "mil", "unknown", "neutral", "friendly", "hostile", "trail"]

/-- The entities of the taxonomy. -/
def entities : List String :=
  ["aircraft", "vehicle", "station", "unit", "person", "sensor", "zone", "incident", "alert", "uav",
    "missile", "bomb", "vessel", "satellite"]

/-- An entry looks for an affiliation and an entity, or for one of two words in the air, or it is
the one of the weather stations. -/
def TopicCot.regular (entry : TopicCot) : Bool :=
  let expr := (PyStr.split '/' entry.suffix).map chunkOf
  match entry.words with
  | [] => expr = [.literal "env", .literal "weather", .literal "station", .any]
  | [word] => ["unknown", "trail"].contains word && entry.domain = "air" &&
      expr = [.literal "air", .any, .literal word, .any]
  | [affiliation, entity] => affiliations.contains affiliation && entities.contains entity &&
      !(entry.domain = "air" && ["unknown", "trail"].contains affiliation) &&
      entry.domain ≠ "env" &&
      expr = [.literal entry.domain, .any, .literal affiliation, .literal entity, .any]
  | _ => false

theorem regular_topicCot : ∀ entry ∈ topicCot, entry.regular = true := by
  decide +kernel

theorem nodup_topicCot : (topicCot.map TopicCot.suffix).Nodup := by
  decide +kernel

/-- What an entry looks for. -/
theorem cases_topicCot {entry : TopicCot} (h : entry ∈ topicCot) :
    (entry.words = [] ∧ (PyStr.split '/' entry.suffix).map chunkOf =
        [.literal "env", .literal "weather", .literal "station", .any]) ∨
      (∃ word ∈ ["unknown", "trail"], entry.words = [word] ∧ entry.domain = "air" ∧
        (PyStr.split '/' entry.suffix).map chunkOf =
          [.literal "air", .any, .literal word, .any]) ∨
      ∃ affiliation ∈ affiliations, ∃ entity ∈ entities, entry.words = [affiliation, entity] ∧
        ¬ (entry.domain = "air" ∧ affiliation ∈ ["unknown", "trail"]) ∧ entry.domain ≠ "env" ∧
        (PyStr.split '/' entry.suffix).map chunkOf =
          [.literal entry.domain, .any, .literal affiliation, .literal entity, .any] := by
  have hregular := regular_topicCot entry h
  rw [TopicCot.regular] at hregular
  split at hregular
  next hwords => exact .inl ⟨hwords, of_decide_eq_true hregular⟩
  next word hwords =>
    simp only [Bool.and_eq_true, contains_iff_mem, decide_eq_true_eq] at hregular
    exact .inr (.inl ⟨word, hregular.1.1, hwords, hregular.1.2, hregular.2⟩)
  next affiliation entity hwords =>
    simp only [Bool.and_eq_true, contains_iff_mem, decide_eq_true_eq, Bool.not_eq_true',
      Bool.and_eq_false_iff, decide_eq_false_iff_not] at hregular
    obtain ⟨⟨⟨⟨haffiliation, hentity⟩, hair⟩, henv⟩, hexpr⟩ := hregular
    refine .inr (.inr ⟨affiliation, haffiliation, entity, hentity, hwords, ?_, henv, hexpr⟩)
    rintro ⟨hdomain, hmem⟩
    rcases hair with hair | hair
    · exact hair hdomain
    · exact absurd (contains_iff_mem.mpr hmem) (by rw [hair]; exact Bool.false_ne_true)
  next => cases hregular

theorem chunkOf_inj {segment segment' : String} (h : chunkOf segment = chunkOf segment') :
    segment = segment' := by
  rw [chunkOf, chunkOf] at h
  grind

/-- Entries with the same key expression are the same. -/
theorem eq_of_expr {entry other : TopicCot} (h : entry ∈ topicCot) (h' : other ∈ topicCot)
    (hexpr : (PyStr.split '/' entry.suffix).map chunkOf =
      (PyStr.split '/' other.suffix).map chunkOf) : entry = other :=
  inj_on_of_nodup_map nodup_topicCot h h'
    (PyStr.split_inj (map_injective_iff.mpr (fun _ _ => chunkOf_inj) hexpr))

/-! ## Matches -/

variable {topicRoot : String} {k : ObjectKey}

/-- The root does not matter. -/
theorem keyMatches_iff (hroot : LiteralRoot topicRoot) (hk : k.WellFormed) (entry : TopicCot) :
    KeyMatches (entry.keyExpr topicRoot) (k.text topicRoot) ↔
      Matches ((PyStr.split '/' entry.suffix).map chunkOf) (k.domain :: k.segments) := by
  have hliteral : (PyStr.split '/' topicRoot).map chunkOf =
      (PyStr.split '/' topicRoot).map .literal := map_congr_left hroot
  have hkey : PyStr.split '/' (PyStr.join "/" (k.domain :: k.segments)) =
      k.domain :: k.segments := PyStr.split_join (cons_ne_nil _ _) hk
  rw [KeyMatches, TopicCot.keyExpr, ObjectKey.text, split_slash, split_slash, map_append,
    hliteral, hkey, matches_literals]
  constructor
  · rintro ⟨rest, hrest, h⟩
    rw [append_cancel_left hrest]
    exact h
  · intro h
    exact ⟨_, rfl, h⟩

/-- An entry with words finds them wherever they stand behind its domain. -/
theorem keyMatches_words (hroot : LiteralRoot topicRoot) (hk : k.WellFormed) {entry : TopicCot}
    (h : entry ∈ topicCot) (hwords : entry.words ≠ []) :
    KeyMatches (entry.keyExpr topicRoot) (k.text topicRoot) ↔
      entry.domain = k.domain ∧ entry.words <:+: k.segments := by
  rw [keyMatches_iff hroot hk]
  rcases cases_topicCot h with ⟨hnil, -⟩ | ⟨word, -, hword, hair, hexpr⟩ |
    ⟨affiliation, -, entity, -, hpair, -, -, hexpr⟩
  · exact absurd hnil hwords
  · rw [hexpr, hword, hair]
    exact and_congr_right fun _ => @matches_between String [word] k.segments
  · rw [hexpr, hpair]
    exact and_congr_right fun _ => @matches_between String [affiliation, entity] k.segments

theorem entity_notMem_affiliations : ∀ entity ∈ entities, entity ∉ affiliations := by
  decide +kernel

theorem tail_notMem_entities : "tracks" ∉ entities ∧ "v1" ∉ entities := by
  decide +kernel

theorem single_mem_affiliations : ∀ word ∈ ["unknown", "trail"], word ∈ affiliations := by
  decide +kernel

section

variable {own : TopicCot}

/-- An entry that names an object is not the one of the weather stations. -/
theorem TopicCot.Names.words_ne (h : own.Names k) : own.words ≠ [] := by
  rcases h.2 with hwords | hwords
  · rw [hwords]
    exact cons_ne_nil _ _
  · rw [hwords]
    exact cons_ne_nil _ _

theorem TopicCot.Names.domain_ne (h : own.Names k) (hown : own ∈ topicCot) : k.domain ≠ "env" := by
  rw [← h.1]
  rcases cases_topicCot hown with ⟨hnil, -⟩ | ⟨word, -, -, hair, -⟩ |
    ⟨affiliation, -, entity, -, -, -, henv, -⟩
  · exact absurd hnil h.words_ne
  · rw [hair]
    decide
  · exact henv

theorem TopicCot.Names.affiliation_mem (h : own.Names k) (hown : own ∈ topicCot) :
    k.affiliation ∈ affiliations := by
  rcases cases_topicCot hown with ⟨hnil, -⟩ | ⟨word, hmem, hword, -⟩ |
    ⟨affiliation, hmem, entity, -, hpair, -⟩
  · exact absurd hnil h.words_ne
  · rcases h.2 with hwords | hwords
    · rw [hword] at hwords
      cases hwords
    · rw [hword] at hwords
      rw [← (cons.inj hwords).1]
      exact single_mem_affiliations word hmem
  · rcases h.2 with hwords | hwords
    · rw [hpair] at hwords
      rw [← (cons.inj hwords).1]
      exact hmem
    · rw [hpair] at hwords
      cases hwords

/-- The words of an object are found by the entry that names it. -/
theorem TopicCot.Names.within (h : own.Names k) : own.words <:+: k.segments := by
  rcases h.2 with hwords | hwords
  · rw [hwords]
    exact ⟨[k.source, k.modality], [k.type, k.id, "tracks", "v1"], rfl⟩
  · rw [hwords]
    exact ⟨[k.source, k.modality], [k.entity, k.type, k.id, "tracks", "v1"], rfl⟩

/-- An entry of the domain that looks for the affiliation alone is the one that names the object. -/
theorem eq_of_single (hown : own ∈ topicCot) (h : own.Names k) {other : TopicCot}
    (hother : other ∈ topicCot) (hdomain : other.domain = k.domain)
    (hwords : other.words = [k.affiliation]) : other = own := by
  rcases cases_topicCot hother with ⟨hnil, -⟩ | ⟨word, hmem, hword, hair, hexpr⟩ |
    ⟨affiliation, -, entity, -, hpair, -⟩
  · rw [hwords] at hnil
    cases hnil
  · rw [hword] at hwords
    obtain rfl := (cons.inj hwords).1
    rcases cases_topicCot hown with ⟨hnil, -⟩ | ⟨word', -, hword', -, hexpr'⟩ |
      ⟨affiliation, -, entity, -, hpair, hnot, -⟩
    · exact absurd hnil h.words_ne
    · rcases h.2 with howns | howns
      · rw [hword'] at howns
        cases howns
      · rw [hword'] at howns
        rw [(cons.inj howns).1] at hexpr'
        exact eq_of_expr hother hown (hexpr.trans hexpr'.symm)
    · rcases h.2 with howns | howns
      · rw [hpair] at howns
        rw [(cons.inj howns).1] at hnot
        exact absurd ⟨h.1.trans (hdomain.symm.trans hair), hmem⟩ hnot
      · rw [hpair] at howns
        cases howns
  · rw [hpair] at hwords
    cases hwords

/-- An entry of the domain that looks for the affiliation and the entity is the one that names the
object. -/
theorem eq_of_pair (hown : own ∈ topicCot) (h : own.Names k) {other : TopicCot}
    (hother : other ∈ topicCot) (hdomain : other.domain = k.domain)
    (hwords : other.words = [k.affiliation, k.entity]) : other = own := by
  rcases cases_topicCot hother with ⟨hnil, -⟩ | ⟨word, -, hword, -⟩ |
    ⟨affiliation, -, entity, -, hpair, hnot, -, hexpr⟩
  · rw [hwords] at hnil
    cases hnil
  · rw [hword] at hwords
    cases hwords
  · rw [hpair] at hwords
    obtain ⟨rfl, hentity⟩ := cons.inj hwords
    rcases cases_topicCot hown with ⟨hnil, -⟩ | ⟨word, hmem, hword, hair, -⟩ |
      ⟨affiliation, -, entity', -, hpair', -, -, hexpr'⟩
    · exact absurd hnil h.words_ne
    · rcases h.2 with howns | howns
      · rw [hword] at howns
        cases howns
      · rw [hword] at howns
        rw [(cons.inj howns).1] at hmem
        exact absurd ⟨hdomain.trans (h.1.symm.trans hair), hmem⟩ hnot
    · rcases h.2 with howns | howns
      · rw [hpair'] at howns
        obtain ⟨rfl, hentity'⟩ := cons.inj howns
        rw [(cons.inj hentity).1, hdomain] at hexpr
        rw [(cons.inj hentity').1, h.1] at hexpr'
        exact eq_of_expr hother hown (hexpr.trans hexpr'.symm)
      · rw [hpair'] at howns
        cases howns

/-- Where a key is clear, no other entry of its domain finds words in it. -/
theorem eq_of_infix (hown : own ∈ topicCot) (h : own.Names k) (hclear : k.Clear)
    {other : TopicCot} (hother : other ∈ topicCot) (hwords : other.words ≠ [])
    (hdomain : other.domain = k.domain) (hwithin : other.words <:+: k.segments) : other = own := by
  rcases cases_topicCot hother with ⟨hnil, -⟩ | ⟨word, hmem, hword, -⟩ |
    ⟨affiliation, -, entity, hentity, hpair, -⟩
  · exact absurd hnil hwords
  · rw [hword, singleton_infix_iff] at hwithin
    have hsame : word = k.affiliation := by
      simp only [ObjectKey.segments, mem_cons, not_mem_nil, or_false] at hwithin
      have hlone := fun hplace => hclear.alone other hother hdomain word hplace hword
      rcases hwithin with hplace | hplace | hplace | hplace | hplace | hplace | hplace | hplace
      · exact hlone (by simp [hplace])
      · exact hlone (by simp [hplace])
      · exact hplace
      · exact hlone (by simp [hplace])
      · exact hlone (by simp [hplace])
      · exact hlone (by simp [hplace])
      · rw [hplace] at hmem
        exact absurd hmem (by decide)
      · rw [hplace] at hmem
        exact absurd hmem (by decide)
    exact eq_of_single hown h hother hdomain (hsame ▸ hword)
  · rw [hpair, pair_infix_iff] at hwithin
    have hsame : (affiliation, entity) = (k.affiliation, k.entity) := by
      simp only [ObjectKey.segments, tail_cons, zip_cons_cons, zip_nil_right,
        mem_cons, not_mem_nil, or_false] at hwithin
      have hpairs := fun hplace =>
        hclear.pairs other hother hdomain (affiliation, entity) hplace hpair
      rcases hwithin with hplace | hplace | hplace | hplace | hplace | hplace | hplace
      · exact hpairs (by simp [hplace])
      · -- an affiliation is not an entity
        rw [(Prod.mk.inj hplace).2] at hentity
        exact absurd (h.affiliation_mem hown) (entity_notMem_affiliations _ hentity)
      · exact hplace
      · exact hpairs (by simp [hplace])
      · exact hpairs (by simp [hplace])
      · rw [(Prod.mk.inj hplace).2] at hentity
        exact absurd hentity tail_notMem_entities.1
      · rw [(Prod.mk.inj hplace).2] at hentity
        exact absurd hentity tail_notMem_entities.2
    obtain ⟨rfl, rfl⟩ := Prod.mk.inj hsame
    exact eq_of_pair hown h hother hdomain hpair

/-- Words that stand elsewhere in a key are found by their entry. -/
theorem clear_of_unique (hroot : LiteralRoot topicRoot) (hk : k.WellFormed) (h : own.Names k)
    (hunique : ∀ other ∈ topicCot, KeyMatches (other.keyExpr topicRoot) (k.text topicRoot) →
      other = own) : k.Clear := by
  constructor
  case pairs =>
    intro entry hentry hdomain pair hplace hwords
    have hne : entry.words ≠ [] := by
      rw [hwords]
      exact cons_ne_nil _ _
    have hwithin : entry.words <:+: k.segments := by
      rw [hwords, pair_infix_iff]
      simp only [mem_cons, not_mem_nil, or_false] at hplace
      rcases hplace with rfl | rfl | rfl <;> simp [ObjectKey.segments]
    have hsame := hunique entry hentry
      ((keyMatches_words hroot hk hentry hne).mpr ⟨hdomain, hwithin⟩)
    rw [hsame] at hwords
    rcases h.2 with howns | howns
    · rw [hwords] at howns
      obtain ⟨hfirst, hsecond⟩ := cons.inj howns
      exact Prod.ext hfirst (cons.inj hsecond).1
    · rw [hwords] at howns
      exact absurd (congrArg length howns) (by simp)
  case alone =>
    intro entry hentry hdomain word hplace hwords
    have hne : entry.words ≠ [] := by
      rw [hwords]
      exact cons_ne_nil _ _
    have hwithin : entry.words <:+: k.segments := by
      rw [hwords, singleton_infix_iff]
      simp only [mem_cons, not_mem_nil, or_false] at hplace
      rcases hplace with rfl | rfl | rfl | rfl | rfl <;> simp [ObjectKey.segments]
    have hsame := hunique entry hentry
      ((keyMatches_words hroot hk hentry hne).mpr ⟨hdomain, hwithin⟩)
    rw [hsame] at hwords
    rcases h.2 with howns | howns
    · rw [hwords] at howns
      cases howns
    · rw [hwords] at howns
      exact (cons.inj howns).1

/-- A key in which nothing but the affiliation is one is clear. -/
theorem clear_of_notMem (h : ∀ segment ∈ [k.source, k.modality, k.entity, k.type, k.id],
    segment ∉ affiliations) : k.Clear := by
  constructor
  case pairs =>
    intro entry hentry _ pair hplace hwords
    rcases cases_topicCot hentry with ⟨hnil, -⟩ | ⟨word, -, hword, -⟩ |
      ⟨affiliation, hmem, entity, -, hpair, -⟩
    · rw [hwords] at hnil
      cases hnil
    · rw [hwords] at hword
      cases hword
    · rw [hwords] at hpair
      rw [← (cons.inj hpair).1] at hmem
      simp only [mem_cons, not_mem_nil, or_false] at hplace
      rcases hplace with rfl | rfl | rfl
      · exact absurd hmem (h _ (by simp))
      · exact absurd hmem (h _ (by simp))
      · exact absurd hmem (h _ (by simp))
  case alone =>
    intro entry hentry _ word hplace hwords
    rcases cases_topicCot hentry with ⟨hnil, -⟩ | ⟨word', hmem, hword, -⟩ |
      ⟨affiliation, -, entity, -, hpair, -⟩
    · rw [hwords] at hnil
      cases hnil
    · rw [hwords] at hword
      rw [← (cons.inj hword).1] at hmem
      exact absurd (single_mem_affiliations word hmem) (h word hplace)
    · rw [hwords] at hpair
      cases hpair

/-- Of different entries, one is left exactly when every one that is left is the same. -/
theorem length_filter_eq_one_iff {α : Type} {p : α → Bool} {l : List α} {a : α} (hnodup : l.Nodup)
    (ha : a ∈ l) (hp : p a = true) :
    (l.filter p).length = 1 ↔ ∀ b ∈ l, p b = true → b = a := by
  rw [length_eq_one_iff]
  constructor
  · rintro ⟨only, hfilter⟩ b hb hpb
    have hbmem := mem_filter.mpr ⟨hb, hpb⟩
    have hamem := mem_filter.mpr ⟨ha, hp⟩
    rw [hfilter, mem_singleton] at hbmem hamem
    exact hbmem.trans hamem.symm
  · intro h
    have hall : ∀ b ∈ l.filter p, b = a := fun b hb =>
      h b (mem_filter.mp hb).1 (mem_filter.mp hb).2
    have hamem := mem_filter.mpr ⟨ha, hp⟩
    have hdistinct := hnodup.filter p
    match hfilter : l.filter p with
    | [] =>
      rw [hfilter] at hamem
      cases hamem
    | [only] => exact ⟨only, rfl⟩
    | first :: second :: rest =>
      rw [hfilter] at hall hdistinct
      have hfirst := hall first (.head _)
      have hsecond := hall second (.tail _ (.head _))
      rw [hfirst, hsecond] at hdistinct
      exact absurd (.head _) (nodup_cons.mp hdistinct).1

end

/-- The sample of an object goes through one subscription exactly when no other words of its domain
stand in its key. -/
theorem one_subscription_iff {topicRoot : String} (hroot : LiteralRoot topicRoot) {k : ObjectKey}
    (hk : k.WellFormed) (hnamed : ∃ entry ∈ topicCot, entry.Names k) :
    (deliveries topicRoot (k.text topicRoot)).length = 1 ↔ k.Clear := by
  obtain ⟨own, hown, hnames⟩ := hnamed
  have hself : KeyMatches (own.keyExpr topicRoot) (k.text topicRoot) :=
    (keyMatches_words hroot hk hown hnames.words_ne).mpr ⟨hnames.1, hnames.within⟩
  rw [deliveries, length_filter_eq_one_iff (List.Nodup.of_map _ nodup_topicCot) hown
    (decide_eq_true hself)]
  constructor
  · intro hunique
    exact clear_of_unique hroot hk hnames fun other hother hmatch =>
      hunique other hother (decide_eq_true hmatch)
  · intro hclear other hother hmatch
    have hmatch := of_decide_eq_true hmatch
    by_cases hwords : other.words = []
    · rcases cases_topicCot hother with ⟨-, hexpr⟩ | ⟨word, -, hword, -⟩ |
        ⟨affiliation, -, entity, -, hpair, -⟩
      · rw [keyMatches_iff hroot hk, hexpr] at hmatch
        exact absurd hmatch.1.symm (hnames.domain_ne hown)
      · rw [hword] at hwords
        cases hwords
      · rw [hpair] at hwords
        cases hwords
    · obtain ⟨hdomain, hwithin⟩ := (keyMatches_words hroot hk hother hwords).mp hmatch
      exact eq_of_infix hown hnames hclear hother hwords hdomain hwithin

/-- A merchant ship has one subscription. -/
theorem one_subscription_vessel :
    (deliveries "efdi" (ObjectKey.text "efdi"
      ⟨"sea", "ais", "ais", "civ", "vessel", "cargo", "277123000"⟩)).length = 1 := by
  refine (one_subscription_iff (by decide +kernel) (by decide +kernel)
    ⟨⟨"sea/**/civ/vessel/**", .fixed "a-n-S-X-L", seaStaleS⟩, by decide +kernel,
      by decide +kernel, .inl (by decide +kernel)⟩).mpr ?_
  exact clear_of_notMem (by decide +kernel)

/-- An aircraft in civil traffic of which no type is known. -/
def untypedAircraft : ObjectKey :=
  ⟨"air", "adsb", "adsb", "civ", "aircraft", "unknown", "ly-abc"⟩

/-- The object key of an aircraft without a type has two subscriptions, with different types of
event. -/
theorem untyped_aircraft_twice :
    Tracks.viewKey asciiText.toUnicode
        (semanticTopic asciiText "efdi/air/adsb/adsb/civ/aircraft" (callsignTrack "LY-ABC")) .json =
      untypedAircraft.text "efdi" ∧
    (deliveries "efdi" (untypedAircraft.text "efdi")).map TopicCot.cotType =
      [.wing "a-n-A-C-F", .unknownAir] ∧
    (deliveries "efdi" (untypedAircraft.text "efdi")).length ≠ 1 := by
  decide +kernel

end Efdi.Tak
