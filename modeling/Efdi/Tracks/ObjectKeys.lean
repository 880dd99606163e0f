import Mathlib.Algebra.Order.Ring.Rat
import Efdi.Base.PyDict
import Efdi.Base.PyJson
import Efdi.Tracks.Views

/-!
# Object keys

`semantic_topic` appends the type and the id of a track to the prefix of its publisher.  Both
come from the sensor and pass `_slug`, so they are segments.  The object key is a plain topic
when the two segments are not taken for a view or for a version tail (`plain_semanticTopic_iff`),
and this is the exact condition for the keys of published views to tell object and view
(`ownKeys_iff`).  A callsign `RAW` is a counterexample, and there are two objects with one
key (`not_ownKeys`).
-/

namespace Efdi.Tracks

open List

/-- A track as the publishers hold it. -/
abbrev Track := PyDict String PyJson

/-- What the text methods of Python do outside of strings, integers and ASCII. -/
structure PyText extends Unicode where
  /-- `str(value)` for a float, a list or a dict. -/
  str : PyJson → String
  str_ne : ∀ value, str value ≠ ""

variable (py : PyText)

/-- `str(value)`. -/
def pyStr : PyJson → String
  | .null => "None"
  | .bool b => if b then "True" else "False"
  | .int n => toString n
  | .str s => s
  | value => py.str value

/-- `_LEGACY_TAIL`. -/
def legacyTail : List String :=
  ["json", "sapient", "proto", "raw", "native", "tracks", "status", "alerts", "features", "routes",
    "observations"]

/-- `_ID_KEYS`. -/
def idKeys : List String :=
  ["registration", "icao24", "mmsi", "uid", "callsign", "track_num", "track_number", "radar_id",
    "object_id"]

/-- The keys that `object_type` reads. -/
def typeKeys : List String :=
  ["aircraft_type", "type", "vehicle_type", "sapient_class", "remote_id_ua_type", "object_class",
    "ship_type"]

/-- A character of a slug. -/
def slugChar (c : Char) : Char := if py.isAlnum c || "._-".toList.contains c then c else '-'

/-- `_slug` of a text. -/
def slugText (text : String) : String :=
  let out := PyStr.take 64 (PyStr.stripChar '-'
    (String.ofList ((py.lower (PyStr.strip text)).toList.map (slugChar py))))
  if out.isEmpty then "unknown" else out

/-- One safe key segment. -/
def slug (value : PyJson) : String :=
  slugText py (match value with
    | .null => ""
    | value => pyStr py value)

/-- `isinstance(value, str) and value.strip()`. -/
def namesType : PyJson → Bool
  | .str s => !(PyStr.strip s).isEmpty
  | _ => false

/-- `value not in (None, "", 0)`. -/
def namesObject : PyJson → Bool
  | .null => false
  | .str s => s != ""
  | .int n => n != 0
  | .bool b => b
  | .float (.finite x) => x != 0
  | _ => true

/-- The slug of the first value under one of the keys that passes the test. -/
def firstSlug (keys : List String) (test : PyJson → Bool) (track : Track) : String :=
  match (keys.filterMap track.get?).find? test with
  | some value => slug py value
  | none => "unknown"

/-- Specific type when the sensor knows it. -/
def objectType (track : Track) : String := firstSlug py typeKeys namesType track

def objectId (track : Track) : String := firstSlug py idKeys namesObject track

variable (topic : String)

/-- The segments of a prefix, without a version tail and legacy segments at its end. -/
def prefixParts : List String :=
  (((PyStr.split '/' (stripVersion py.toUnicode topic)).filter (· != "")).reverse.dropWhile
    legacyTail.contains).reverse

/-- Append type and id to the semantic prefix of a publisher. -/
def semanticTopic (track : Track) : String :=
  PyStr.join "/" (prefixParts py topic ++ [objectType py track, objectId py track])

/-! ## Segments of the key -/

variable {py}

theorem slash_slugChar (c : Char) : slugChar py c ≠ '/' := by
  have hslash : py.isAlnum '/' = false := py.isAlnum_ascii '/' (by decide)
  rw [slugChar]
  split
  next h =>
    rintro rfl
    rw [hslash, Bool.false_or] at h
    exact absurd h (by decide)
  next => decide

theorem slash_notMem_slugText (text : String) : '/' ∉ (slugText py text).toList := by
  rw [slugText]
  split
  · decide
  · intro h
    rw [PyStr.take, String.toList_ofList] at h
    have hmem := PyStr.mem_of_mem_stripChar (mem_of_mem_take h)
    rw [String.toList_ofList, mem_map] at hmem
    obtain ⟨c, -, hc⟩ := hmem
    exact slash_slugChar c hc

/-- A slug is one segment. -/
theorem slash_notMem_firstSlug (keys : List String) (test : PyJson → Bool) (track : Track) :
    '/' ∉ (firstSlug py keys test track).toList := by
  rw [firstSlug]
  split
  · exact slash_notMem_slugText _
  · decide

theorem slash_notMem_prefixParts :
    ∀ part ∈ prefixParts py topic, '/' ∉ part.toList := by
  intro part hpart
  have hreverse := mem_reverse.mp hpart
  have hparts := mem_reverse.mp ((dropWhile_suffix _).subset hreverse)
  exact PyStr.notMem_of_mem_split (mem_of_mem_filter hparts)

/-- The segments of an object key. -/
theorem split_semanticTopic (track : Track) :
    PyStr.split '/' (semanticTopic py topic track) =
      prefixParts py topic ++ [objectType py track, objectId py track] := by
  refine PyStr.split_join (by simp) ?_
  intro part hpart
  rcases mem_append.mp hpart with hpart | hpart
  · exact slash_notMem_prefixParts topic part hpart
  · rcases mem_pair.mp hpart with rfl | rfl
    · exact slash_notMem_firstSlug _ _ _
    · exact slash_notMem_firstSlug _ _ _

theorem lastSegment_semanticTopic (track : Track) :
    lastSegment (semanticTopic py topic track) = objectId py track := by
  have hconcat : prefixParts py topic ++ [objectType py track, objectId py track] =
      (prefixParts py topic ++ [objectType py track]) ++ [objectId py track] := by simp
  rw [lastSegment, split_semanticTopic, hconcat, getLastD_concat]

/-! ## Numbers as segments -/

theorem toList_toString_nat (n : Nat) : (toString (n : Int)).toList = Nat.toDigits 10 n :=
  Nat.toList_repr

theorem toString_nat_inj {m n : Nat} (h : toString (m : Int) = toString (n : Int)) : m = n := by
  have hdigits := congrArg String.toList h
  rw [toList_toString_nat, toList_toString_nat] at hdigits
  have hvalue := congrArg (fun cs => Nat.ofDigitChars 10 cs 0) hdigits
  simp only [Nat.ofDigitChars_ten_toDigits] at hvalue
  exact hvalue

/-- Digits are left as they are. -/
theorem slugText_number {n : Nat} (hn : n < 10 ^ 64) :
    slugText py (toString (n : Int)) = toString (n : Int) := by
  have hall : ∀ k < 128, (Char.ofNat k).isDigit = true →
      PyStr.isSpace (Char.ofNat k) = false ∧ PyStr.lowerChar (Char.ofNat k) = Char.ofNat k ∧
        (Char.ofNat k).isAlphanum = true ∧ Char.ofNat k ≠ '-' := by decide
  have hdigit : ∀ c ∈ (toString (n : Int)).toList, c.toNat < 128 ∧ PyStr.isSpace c = false ∧
      PyStr.lowerChar c = c ∧ c.isAlphanum = true ∧ c ≠ '-' := by
    intro c hc
    rw [toList_toString_nat] at hc
    have hisDigit : c.isDigit = true := Nat.isDigit_of_mem_toDigits (by decide) (by decide) hc
    have hascii : c.toNat < 128 := by
      rw [Char.isDigit, Bool.and_eq_true, decide_eq_true_iff, decide_eq_true_iff] at hisDigit
      exact Nat.lt_of_le_of_lt hisDigit.2 (by decide)
    have hfacts := hall c.toNat hascii
    rw [Char.ofNat_toNat] at hfacts
    exact ⟨hascii, hfacts hisDigit⟩
  have hstrip : PyStr.strip (toString (n : Int)) = toString (n : Int) :=
    PyStr.strip_of_forall fun c hc => (hdigit c hc).2.1
  have hlower : py.lower (toString (n : Int)) = toString (n : Int) := by
    rw [py.lower_ascii _ fun c hc => (hdigit c hc).1, PyStr.lower,
      map_congr_left (fun c hc => (hdigit c hc).2.2.1), map_id', String.ofList_toList]
  have hslug : (toString (n : Int)).toList.map (slugChar py) = (toString (n : Int)).toList := by
    rw [map_congr_left (g := id), map_id]
    intro c hc
    rw [slugChar, py.isAlnum_ascii c (hdigit c hc).1, (hdigit c hc).2.2.2.1, Bool.true_or, if_pos rfl]
    rfl
  have hdash : PyStr.stripChar '-' (toString (n : Int)) = toString (n : Int) :=
    PyStr.stripChar_of_notMem fun hmem => (hdigit '-' hmem).2.2.2.2 rfl
  have htake : PyStr.take 64 (toString (n : Int)) = toString (n : Int) := by
    rw [PyStr.take, take_of_length_le, String.ofList_toList]
    rw [toList_toString_nat]
    exact (Nat.length_toDigits_le_iff (by decide) (by decide)).mpr hn
  have hempty : (toString (n : Int)).isEmpty = false := by
    rw [Bool.eq_false_iff]
    intro h
    have hnil := congrArg String.toList (String.isEmpty_iff.mp h)
    rw [toList_toString_nat] at hnil
    exact Nat.toDigits_ne_nil hnil
  rw [slugText, hstrip, hlower, hslug, String.ofList_toList, hdash, htake, hempty, if_neg Bool.false_ne_true]

/-- The type and the id of an object look like a version tail. -/
def VersionLike (py : PyText) (track : Track) : Prop :=
  objectType py track = "tracks" ∧ versionMark py.toUnicode (objectId py track) = true

instance (track : Track) : Decidable (VersionLike py track) :=
  inferInstanceAs (Decidable (_ ∧ _))

theorem stripVersion_semanticTopic (track : Track) :
    stripVersion py.toUnicode (semanticTopic py topic track) =
      if VersionLike py track then PyStr.join "/" (prefixParts py topic)
      else semanticTopic py topic track := by
  rw [stripVersion, split_semanticTopic, reverse_append]
  by_cases hlike : VersionLike py track
  · simp [if_pos hlike, hlike.1, hlike.2]
  · have htail : ¬ ((objectType py track == "tracks" &&
        versionMark py.toUnicode (objectId py track)) = true) := by
      rw [Bool.and_eq_true, beq_iff_eq]
      exact hlike
    rw [if_neg hlike]
    exact if_neg htail

/-- An object key is plain when its id is not the name of a view, and type and id do not look
like a version tail. -/
theorem plain_semanticTopic_iff (track : Track) :
    Plain py.toUnicode (semanticTopic py topic track) ↔
      objectId py track ∉ formats ∧ ¬ VersionLike py track := by
  constructor
  · intro h
    refine ⟨fun hformat => h.format ?_, fun hlike => ?_⟩
    · rw [lastSegment_semanticTopic]
      exact hformat
    · have hversion := h.version
      rw [stripVersion_semanticTopic, if_pos hlike] at hversion
      have hlength : (PyStr.split '/' (PyStr.join "/" (prefixParts py topic))).length ≤
          max 1 (prefixParts py topic).length :=
        length_split_join (slash_notMem_prefixParts topic)
      rw [hversion, split_semanticTopic, length_append] at hlength
      simp only [length_cons, length_nil] at hlength
      omega
  · rintro ⟨hformat, hlike⟩
    constructor
    · rw [stripVersion_semanticTopic, if_neg hlike]
    · rw [lastSegment_semanticTopic]
      exact hformat

/-! ## Keys of published views -/

/-- What a publisher gives to `publish_dual`: its semantic prefix and a track. -/
structure Publication where
  topic : String
  track : Track

/-- The object key of a publication. -/
def Publication.key (py : PyText) (p : Publication) : String := semanticTopic py p.topic p.track

/-- The key on which a view of a publication goes out. -/
def Publication.viewKey (py : PyText) (p : Publication) (view : View) : String :=
  Tracks.viewKey py.toUnicode (p.key py) view

/-- Every view of the publications has its own key, and the key tells the object. -/
structure OwnKeys (py : PyText) (published : Set Publication) : Prop where
  different : ∀ p ∈ published, ∀ view view', view ≠ view' → p.viewKey py view ≠ p.viewKey py view'
  tells : ∀ p ∈ published, ∀ q ∈ published, ∀ view view',
    p.viewKey py view = q.viewKey py view' → p.key py = q.key py ∧ view = view'
  stripped : ∀ p ∈ published, ∀ view,
    stripVersion py.toUnicode (p.viewKey py view) =
      if view = .json then p.key py else p.key py ++ "/" ++ view.value
  idempotent : ∀ p ∈ published, ∀ view,
    Tracks.viewKey py.toUnicode (p.viewKey py view) view = p.viewKey py view

/-- The id of the object is not the name of a view, and its type and id are not a version
tail. -/
def Unmistakable (py : PyText) (p : Publication) : Prop :=
  objectId py p.track ∉ formats ∧ ¬ VersionLike py p.track

theorem plain_key_iff {p : Publication} :
    Plain py.toUnicode (p.key py) ↔ Unmistakable py p :=
  plain_semanticTopic_iff p.topic p.track

/-- The keys of publications are their own exactly when no object is mistaken for a view or for
a version tail. -/
theorem ownKeys_iff (py : PyText) (published : Set Publication) :
    OwnKeys py published ↔ ∀ p ∈ published, Unmistakable py p := by
  constructor
  · intro h p hp
    have hjson : stripVersion py.toUnicode (p.viewKey py .json) = p.key py := h.stripped p hp .json
    rw [Publication.viewKey, stripVersion_viewKey] at hjson
    exact plain_key_iff.mp (baseKey_eq_self_iff.mp hjson)
  · intro h
    have hplain : ∀ p ∈ published, Plain py.toUnicode (p.key py) :=
      fun p hp => plain_key_iff.mpr (h p hp)
    constructor
    case different => exact fun p _ view view' hne => viewKey_ne (p.key py) hne
    case tells => exact fun p hp q hq view view' => viewKey_inj (hplain p hp) (hplain q hq)
    case stripped =>
      intro p hp view
      rw [Publication.viewKey, stripVersion_viewKey, (hplain p hp).baseKey]
      rfl
    case idempotent => exact fun p hp view => (hplain p hp).viewKey_viewKey view

/-! ## An object with the name of a view -/

/-- The text methods on ASCII, and as little as possible elsewhere. -/
def asciiText : PyText where
  isAlnum := Char.isAlphanum
  isDigit := Char.isDigit
  lower := PyStr.lower
  isAlnum_ascii := fun _ _ => rfl
  isDigit_ascii := fun _ _ => rfl
  lower_ascii := fun _ _ => rfl
  str := fun _ => "?"
  str_ne := fun _ => by decide

/-- A track with a callsign. -/
def callsignTrack (callsign : String) : Track :=
  PyDict.empty.set "callsign" (.str callsign)

/-- Two aircraft of one feed, with the callsigns `RAW` and `JSON`. -/
def rawCallsign : Publication := ⟨"efdi/air/adsb/unknown/aircraft", callsignTrack "RAW"⟩

def jsonCallsign : Publication := ⟨"efdi/air/adsb/unknown/aircraft", callsignTrack "JSON"⟩

/-- Two objects with the names of views go out on one key, and their keys do not tell them. -/
theorem not_ownKeys :
    rawCallsign.key asciiText ≠ jsonCallsign.key asciiText ∧
      rawCallsign.viewKey asciiText .json = jsonCallsign.viewKey asciiText .json ∧
      ¬ ∀ published : Set Publication, OwnKeys asciiText published := by
  have hkey : rawCallsign.key asciiText ≠ jsonCallsign.key asciiText := by decide +kernel
  have hsame : rawCallsign.viewKey asciiText .json = jsonCallsign.viewKey asciiText .json := by
    decide +kernel
  refine ⟨hkey, hsame, fun h => ?_⟩
  have htells := (h Set.univ).tells rawCallsign trivial jsonCallsign trivial .json .json hsame
  exact hkey htells.1

end Efdi.Tracks
