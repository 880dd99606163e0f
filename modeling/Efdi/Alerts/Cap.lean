import Efdi.Base.Decimal
import Efdi.Base.Spaced
import Efdi.Tak.CotEvents
import Mathlib.Data.Bool.AllAny

/-!
# CAP alerts

`parse_cap` makes a record of each area of a CAP document that has a geometry or a point.  A record
has a uid of the document's identifier and the places of its info and its area.  Its geometry is the
first polygon of the area, or else its first circle.

*Two slips.*  The two places are packed as `index * 100 + area_index`, so the area 100 of an info
has the uid of the first area of the next one.  And the pairs of a polygon are cut at blanks, so
those between which there is only a tab or a line end are lost (`complete_iff`).

The fields of a record that are copies of others are left out.
-/

namespace Efdi.Alerts.Cap

open Tak.Cot (Element localName words)
open Decimal List Option PyStr

/-! ## Elements -/

mutual

/-- `element.iter()`. -/
def iter : Element → List Element
  | ⟨tag, attrib, text, tail, children⟩ => ⟨tag, attrib, text, tail, children⟩ :: iterAll children

/-- The elements of some children. -/
def iterAll : List Element → List Element
  | [] => []
  | child :: children => iter child ++ iterAll children

end

/-- The local name of an element. -/
def named (name : String) (element : Element) : Bool := localName element.tag == name

/-- `" ".join(text.split())`. -/
def normalized (text : Option String) : String := PyStr.join " " (words (text.getD ""))

/-- `_text`. -/
def text (parent : Element) (name : String) : String :=
  match parent.children.find? fun child => named name child && child.text.getD "" != "" with
  | some child => normalized child.text
  | none =>
    match (iterAll parent.children).find? fun child =>
        child.tag == "\x7burn:oasis:names:tc:emergency:cap:1.2\x7d" ++ name with
    | some found => normalized found.text
    | none => ""

/-- A GeoJSON geometry.  Its points are pairs of longitude and latitude. -/
inductive Geometry where
  | polygon (ring : List (Rat × Rat))
  | circle (center : Rat × Rat) (radiusKm : Rat)
deriving DecidableEq

/-- The libraries.  A document has an element for each start tag at most, as entities are refused.
`float` ignores white space around a number and reads none with white space in it. -/
structure Lib where
  fromstring : List UInt8 → Option Element
  float : String → Option PyFloat
  timestamp : String → Option Rat
  lower : String → String
  isDecimal : Char → Bool
  dumps : Geometry → String
  fromstring_small : ∀ xml root, fromstring xml = some root → (iter root).length ≤ xml.length
  float_space : ∀ s, (∃ c ∈ (PyStr.strip s).toList, PyStr.isSpace c = true) → float s = none

variable (lib : Lib)

/-- `_timestamp`. -/
def Lib.parseTime (value : String) : Option Rat :=
  if value = "" then none else lib.timestamp (PyStr.replace "Z" "+00:00" value)

/-! ## Geometries -/

/-- `_point`, a latitude and a longitude. -/
def Lib.point (value : String) : Option (Rat × Rat) :=
  match (PyStr.split ',' value).map PyStr.strip with
  | lat :: lon :: _ =>
    match lib.float lat, lib.float lon with
    | some (.finite lat), some (.finite lon) =>
      if (-90 ≤ lat ∧ lat ≤ 90) ∧ -180 ≤ lon ∧ lon ≤ 180 then some (lat, lon) else none
    | _, _ => none
  | _ => none

/-- A ring that ends where it begins. -/
def closed (ring : List (Rat × Rat)) : List (Rat × Rat) :=
  if ring.head? = ring.getLast? then ring else ring ++ ring.take 1

/-- The ring of a polygon's text. -/
def Lib.polygonOf (text : String) : Option (List (Rat × Rat)) :=
  if text = "" then none
  else
    let points := (PyStr.split ' ' text).filterMap lib.point
    if 3 ≤ points.length then some (closed (points.map Prod.swap)) else none

/-- The circle of a text. -/
def Lib.circleOf (text : String) : Option ((Rat × Rat) × Rat) :=
  let parts := words text
  let radius := match parts[1]? with
    | some radius => (lib.float radius).getD (.finite 0)
    | none => .finite 0
  match parts.head?.bind lib.point, radius with
  | some (lat, lon), .finite radius =>
    if 0 < radius then some ((lon, lat), min radius 1000) else none
  | _, _ => none

/-- A number at the head of a text, `-?\d+(?:\.\d+)?`, and what follows it. -/
def Lib.numberAt (cs : List Char) : Option (List Char × List Char) :=
  let (sign, cs) := match cs with
    | '-' :: cs => (['-'], cs)
    | cs => ([], cs)
  let digits := cs.takeWhile lib.isDecimal
  if digits = [] then none
  else
    match cs.dropWhile lib.isDecimal with
    | '.' :: more =>
      let fraction := more.takeWhile lib.isDecimal
      if fraction = [] then some (sign ++ digits, '.' :: more)
      else some (sign ++ digits ++ '.' :: fraction, more.dropWhile lib.isDecimal)
    | rest => some (sign ++ digits, rest)

/-- Two numbers with commas and blanks between them, at the head of a text. -/
def Lib.pairAt (cs : List Char) : Option (List Char) :=
  match lib.numberAt cs with
  | none => none
  | some (first, rest) =>
    let gap := rest.takeWhile fun c => c == ',' || c == ' '
    if gap = [] then none
    else
      (lib.numberAt (rest.dropWhile fun c => c == ',' || c == ' ')).map fun second =>
        first ++ gap ++ second.1

/-- `re.search`, the first two numbers of a text. -/
def Lib.search : List Char → Option (List Char)
  | [] => none
  | c :: cs => (lib.pairAt (c :: cs)).or (Lib.search cs)

/-- The mean of a coordinate over a closed ring. -/
def mean (coordinates : List Rat) : Rat :=
  coordinates.dropLast.sum / (max 1 (coordinates.length - 1) : Nat)

/-- The texts of the elements of a name below an area. -/
def texts (area : Element) (name : String) : List String :=
  ((iter area).filter (named name)).map fun child => PyStr.strip (child.text.getD "")

/-- `_geometry`. -/
def Lib.geometry (area : Element) : Option Geometry × Option (Rat × Rat) :=
  match (texts area "polygon").filterMap lib.polygonOf with
  | ring :: _ => (some (.polygon ring), some (mean (ring.map Prod.snd), mean (ring.map Prod.fst)))
  | [] =>
    match (texts area "circle").filterMap lib.circleOf with
    | (center, radius) :: _ => (some (.circle center radius), some (center.2, center.1))
    | [] =>
      (none, (lib.search (text area "areaDesc").toList).bind fun found =>
        lib.point (PyStr.replace " " "," (String.ofList found)))

/-! ## Records -/

/-- A record. -/
structure Record where
  ts : Rat
  uid : String
  latDeg : Rat
  lonDeg : Rat
  identifier : String
  status : String
  event : String
  severity : String
  urgency : String
  certainty : String
  headline : String
  description : String
  sent : Rat
  effective : Rat
  expires : Option Rat
  active : Bool
  geometry : Option Geometry
  geometryJson : Option String

/-- `s or t`. -/
def orElse (s t : String) : String := if s = "" then t else s

/-- `time or other`. -/
def orTime (time : Option Rat) (other : Rat) : Rat := (time.filter fun time => time != 0).getD other

/-- `round(x, 7)`. -/
def round7 (x : Rat) : Rat := roundHalfEven (x * 10000000) / 10000000

/-- The identifier of a document. -/
def identifierOf (root : Element) (now : Rat) : String :=
  orElse (text root "identifier") ("cap-" ++ toString (now.num.tdiv now.den))

/-- `uid[:160]`. -/
def uidOf (identifier : String) (number : Nat) : String :=
  PyStr.take 160 ("CAP-" ++ identifier ++ "-" ++ toString number)

/-- `infos`. -/
def infos (root : Element) : List Element := (iter root).filter (named "info")

/-- The areas of an info, or of a document. -/
def areas (info : Element) : List Element := (iter info).filter (named "area")

/-- What `parse_cap` appends for an area. -/
def Lib.record (root : Element) (now : Rat) (info : Element × Nat) (area : Element × Nat) :
    Option Record :=
  let geometry := (lib.geometry area.1).1
  match (lib.geometry area.1).2 with
  | none => none
  | some (lat, lon) =>
    let identifier := identifierOf root now
    let sent := orTime (lib.parseTime (text root "sent")) now
    let effective := orTime (lib.parseTime (text info.1 "effective")) sent
    let expires := lib.parseTime (text info.1 "expires")
    some {
      ts := now
      uid := uidOf identifier (info.2 * 100 + area.2)
      latDeg := round7 lat
      lonDeg := round7 lon
      identifier := PyStr.take 160 identifier
      status := lib.lower (orElse (text root "status") "actual")
      event := PyStr.take 256 (text info.1 "event")
      severity := lib.lower (orElse (text info.1 "severity") "unknown")
      urgency := lib.lower (orElse (text info.1 "urgency") "unknown")
      certainty := lib.lower (orElse (text info.1 "certainty") "unknown")
      headline := PyStr.take 512 (text info.1 "headline")
      description := PyStr.take 1024 (text info.1 "description")
      sent, effective, expires
      active := effective ≤ now && expires.all fun expires => now ≤ expires
      geometry
      geometryJson := geometry.map lib.dumps }

/-- The records of a parsed document. -/
def Lib.records (root : Element) (now : Rat) : List Record :=
  (infos root).zipIdx.flatMap fun info =>
    (areas info.1).zipIdx.filterMap fun area => lib.record root now info area

/-- `parse_cap`. -/
def Lib.parseCap (xml : List UInt8) (now : Rat) : List Record :=
  if 2000000 < xml.length then []
  else
    match lib.fromstring xml with
    | none => []
    | some root => lib.records root now

/-! ## Documents -/

mutual

/-- No info is below another one, and all areas are below an info. -/
def shaped : Element → Bool
  | ⟨tag, attrib, text, tail, children⟩ =>
    let element : Element := ⟨tag, attrib, text, tail, children⟩
    if named "info" element then (iterAll children).all fun child => !named "info" child
    else !named "area" element && shapedAll children

/-- The same of some children. -/
def shapedAll : List Element → Bool
  | [] => true
  | child :: children => shaped child && shapedAll children

end

/-- The area has a geometry or a point. -/
def Lib.hasPoint (area : Element) : Bool := (lib.geometry area).2.isSome

/-- An area with a geometry or a point stands at a place of an info. -/
def Lib.PointAt (root : Element) (i j : Nat) : Prop :=
  ∃ info area, (infos root)[i]? = some info ∧ (areas info)[j]? = some area ∧
    lib.hasPoint area = true

/-- No area stands a hundred places further than one of an info later, two hundred than one of two
infos later, and so on. -/
def Lib.NoClash (root : Element) : Prop :=
  ∀ i i' j j', i < i' → lib.PointAt root i j → lib.PointAt root i' j' → j ≠ (i' - i) * 100 + j'

/-- A valid pair of a polygon. -/
structure Lib.Pair where
  latText : List Char
  lonText : List Char
  lat : Rat
  lon : Rat
  plain : ∀ c ∈ latText ++ lonText, c ≠ ',' ∧ PyStr.isSpace c = false
  latText_ne_nil : latText ≠ []
  lonText_ne_nil : lonText ≠ []
  float_lat : lib.float (String.ofList latText) = some (.finite lat)
  float_lon : lib.float (String.ofList lonText) = some (.finite lon)
  within : (-90 ≤ lat ∧ lat ≤ 90) ∧ -180 ≤ lon ∧ lon ≤ 180

/-- The white space of XML. -/
def XmlWhite (c : Char) : Prop := c ∈ [' ', '\t', '\n', '\r']

theorem XmlWhite.isSpace {c : Char} (h : XmlWhite c) : PyStr.isSpace c = true := by
  rw [XmlWhite] at h
  simp only [mem_cons, not_mem_nil, or_false] at h
  rcases h with rfl | rfl | rfl | rfl <;> decide

theorem XmlWhite.ne_comma {c : Char} (h : XmlWhite c) : c ≠ ',' := by
  rintro rfl
  exact absurd h.isSpace (by decide)

variable {lib}

theorem stripList_pad {p : Char → Bool} {before core after : List Char} (hcore : core ≠ [])
    (hbefore : ∀ c ∈ before, p c = true) (hafter : ∀ c ∈ after, p c = true)
    (hhead : p (core.head hcore) = false) (hlast : p (core.getLast hcore) = false) :
    PyStr.stripList p (before ++ core ++ after) = core := by
  obtain ⟨c, cs, rfl⟩ := exists_cons_of_ne_nil hcore
  have hfront : (before ++ c :: cs ++ after).dropWhile p = c :: cs ++ after := by
    rw [append_assoc, dropWhile_append_of_pos hbefore, cons_append,
      dropWhile_cons_of_neg (by rw [head_cons] at hhead; simp [hhead])]
  have hback : (c :: cs ++ after).reverse.dropWhile p = (c :: cs).reverse := by
    rw [reverse_append,
      dropWhile_append_of_pos fun d hd => hafter d (mem_reverse.mp hd)]
    obtain ⟨d, ds, hrev⟩ := exists_cons_of_ne_nil (reverse_ne_nil_iff.mpr hcore)
    have hd : (c :: cs).getLast hcore = d := by
      rw [getLast_eq_head_reverse]
      simp [hrev]
    rw [hrev, dropWhile_cons_of_neg (by rw [hd] at hlast; simp [hlast])]
  rw [stripList, hfront, hback, reverse_reverse]

theorem strip_pad {before core after : List Char} (hcore : core ≠ [])
    (hbefore : ∀ c ∈ before, XmlWhite c) (hafter : ∀ c ∈ after, XmlWhite c)
    (hplain : ∀ c ∈ core, PyStr.isSpace c = false) :
    PyStr.strip (String.ofList (before ++ core ++ after)) = String.ofList core := by
  rw [strip, String.toList_ofList,
    stripList_pad hcore (fun c hc => (hbefore c hc).isSpace) (fun c hc => (hafter c hc).isSpace)
      (hplain _ (head_mem hcore)) (hplain _ (getLast_mem hcore))]

theorem split_comma {as : List Char} (h : ',' ∉ as) (bs : List Char) :
    PyStr.split ',' (String.ofList (as ++ ',' :: bs)) =
      String.ofList as :: PyStr.split ',' (String.ofList bs) := by
  rw [split, split, String.toList_ofList, String.toList_ofList,
    splitOn_append_cons_self_of_not_mem h, map_cons]

theorem comma_notMem_white {cs : List Char} (h : ∀ c ∈ cs, XmlWhite c) : ',' ∉ cs :=
  fun hmem => (h ',' hmem).ne_comma rfl

namespace Lib.Pair

variable (pair : lib.Pair)

/-- The text of a pair. -/
def chars : List Char := pair.latText ++ ',' :: pair.lonText

theorem plain_lat : ∀ c ∈ pair.latText, PyStr.isSpace c = false :=
  fun c hc => (pair.plain c (mem_append_left _ hc)).2

theorem plain_lon : ∀ c ∈ pair.lonText, PyStr.isSpace c = false :=
  fun c hc => (pair.plain c (mem_append_right _ hc)).2

theorem comma_notMem_lat : ',' ∉ pair.latText :=
  fun hmem => (pair.plain ',' (mem_append_left _ hmem)).1 rfl

theorem comma_notMem_lon : ',' ∉ pair.lonText :=
  fun hmem => (pair.plain ',' (mem_append_right _ hmem)).1 rfl

theorem isSpace_of_mem_chars {pair : lib.Pair} {c : Char} (h : c ∈ pair.chars) :
    PyStr.isSpace c = false := by
  rcases mem_append.mp h with hlat | hrest
  · exact pair.plain_lat c hlat
  · rcases mem_cons.mp hrest with rfl | hlon
    · decide
    · exact pair.plain_lon c hlon

theorem point_chars {before after : List Char} (hbefore : ∀ c ∈ before, XmlWhite c)
    (hafter : ∀ c ∈ after, XmlWhite c) :
    lib.point (String.ofList (before ++ pair.chars ++ after)) = some (pair.lat, pair.lon) := by
  have htext : before ++ pair.chars ++ after =
      (before ++ pair.latText) ++ ',' :: (pair.lonText ++ after) := by
    simp only [chars, append_assoc, cons_append]
  have hleft : ',' ∉ before ++ pair.latText := by
    simp [comma_notMem_white hbefore, pair.comma_notMem_lat]
  have hright : ',' ∉ pair.lonText ++ after := by
    simp [comma_notMem_white hafter, pair.comma_notMem_lon]
  have hlat := @strip_pad before _ [] pair.latText_ne_nil hbefore (by simp) pair.plain_lat
  have hlon := @strip_pad [] _ after pair.lonText_ne_nil (by simp) hafter pair.plain_lon
  rw [append_nil] at hlat
  rw [nil_append] at hlon
  rw [Lib.point, htext, split_comma hleft, split_of_notMem (by simpa using hright)]
  simp only [map_cons, map_nil, hlat, hlon, pair.float_lat, pair.float_lon,
    if_pos pair.within]

theorem point_joined (pair other : lib.Pair) {before gap : List Char} (after : List Char)
    (hbefore : ∀ c ∈ before, XmlWhite c) (hgap : ∀ c ∈ gap, XmlWhite c) (hne : gap ≠ []) :
    lib.point (String.ofList (before ++ pair.chars ++ gap ++ other.chars ++ after)) = none := by
  have htext : before ++ pair.chars ++ gap ++ other.chars ++ after =
      (before ++ pair.latText) ++ ',' :: ((pair.lonText ++ gap ++ other.latText) ++
        ',' :: (other.lonText ++ after)) := by
    simp [chars]
  have hleft : ',' ∉ before ++ pair.latText := by
    simp [comma_notMem_white hbefore, pair.comma_notMem_lat]
  have hmiddle : ',' ∉ pair.lonText ++ gap ++ other.latText := by
    simp [comma_notMem_white hgap, pair.comma_notMem_lon, other.comma_notMem_lat]
  have hcore : pair.lonText ++ gap ++ other.latText ≠ [] := by simp [hne]
  have hhead : isSpace ((pair.lonText ++ gap ++ other.latText).head hcore) = false := by
    rw [head_append_of_ne_nil (by simp [hne]), head_append_of_ne_nil pair.lonText_ne_nil]
    exact pair.plain_lon _ (head_mem _)
  have hlast : isSpace ((pair.lonText ++ gap ++ other.latText).getLast hcore) = false := by
    rw [getLast_append_of_ne_nil _ other.latText_ne_nil]
    exact other.plain_lat _ (getLast_mem _)
  have hstrip := @stripList_pad isSpace [] _ [] hcore (by simp) (by simp) hhead hlast
  rw [nil_append, append_nil] at hstrip
  have hfloat : lib.float (strip (String.ofList (pair.lonText ++ gap ++ other.latText))) =
      none := by
    obtain ⟨c, hc⟩ := exists_mem_of_ne_nil gap hne
    refine lib.float_space _ ⟨c, ?_, (hgap c hc).isSpace⟩
    rw [strip_strip, strip, String.toList_ofList, String.toList_ofList, hstrip]
    simp [hc]
  rw [Lib.point, htext, split_comma hleft, split_comma hmiddle]
  simp only [map_cons, hfloat]
  split
  next hnone => cases hnone
  next _ => rfl

end Lib.Pair

theorem point_white {pad : List Char} (h : ∀ c ∈ pad, XmlWhite c) :
    lib.point (String.ofList pad) = none := by
  rw [Lib.point, split_of_notMem (by simpa using comma_notMem_white h)]
  rfl

/-- The pairs of a polygon between white space. -/
def Lib.format (lib : Lib) : Spaced.Format lib.Pair Char (Rat × Rat) where
  sep := ' '
  white := XmlWhite
  text := Pair.chars
  value pair := (pair.lat, pair.lon)
  read cs := lib.point (String.ofList cs)
  sep_notMem pair hmem := absurd (Pair.isSpace_of_mem_chars hmem) (by decide)
  read_item pair before after := pair.point_chars
  read_white pad := point_white
  read_joined pair other before gap after := pair.point_joined other after

/-! ## Polygons -/

/-- A list of at least three pairs, between white space. -/
structure Lib.Listing (lib : Lib) where
  lead : List Char
  first : lib.Pair
  rest : List (List Char × lib.Pair)
  trail : List Char
  white : (∀ c ∈ lead, XmlWhite c) ∧ ∀ c ∈ trail, XmlWhite c
  gaps : ∀ item ∈ rest, lib.format.Gap item.1
  three : 2 ≤ rest.length

namespace Lib.Listing

variable (listing : lib.Listing)

/-- The text of a list. -/
def text : String :=
  String.ofList (listing.lead ++ lib.format.chars listing.first listing.rest ++ listing.trail)

/-- The pairs of a list, as a latitude and a longitude each. -/
def points : List (Rat × Rat) :=
  (listing.first.lat, listing.first.lon) :: listing.rest.map fun item => (item.2.lat, item.2.lon)

/-- The closed ring of exactly the pairs of a list. -/
def ring : List (Rat × Rat) := closed (listing.points.map Prod.swap)

/-- There is a blank between each pair and the next. -/
def BlankBetween : Prop := ∀ item ∈ listing.rest, ' ' ∈ item.1

theorem chars_ne_nil (first : lib.Pair) (rest : List (List Char × lib.Pair)) :
    lib.format.chars first rest ≠ [] :=
  append_ne_nil_of_left_ne_nil
    (append_ne_nil_of_left_ne_nil first.latText_ne_nil _) _

theorem isSpace_head (first : lib.Pair) (rest : List (List Char × lib.Pair)) :
    PyStr.isSpace ((lib.format.chars first rest).head (chars_ne_nil first rest)) = false := by
  have htext : lib.format.text first ≠ [] :=
    append_ne_nil_of_left_ne_nil first.latText_ne_nil _
  have hhead : (lib.format.chars first rest).head (chars_ne_nil first rest) =
      (lib.format.text first).head htext := head_append_of_ne_nil htext
  rw [hhead]
  exact Pair.isSpace_of_mem_chars (head_mem htext)

theorem isSpace_getLast : ∀ (first : lib.Pair) (rest : List (List Char × lib.Pair)),
    PyStr.isSpace ((lib.format.chars first rest).getLast (chars_ne_nil first rest)) = false
  | first, [] => by
    have hchars : lib.format.chars first [] = first.chars := append_nil _
    have hmem := getLast_mem (chars_ne_nil first [])
    refine @Pair.isSpace_of_mem_chars lib first _ ?_
    rw [← hchars]
    exact hmem
  | first, item :: rest => by
    have hlast := getLast_append_of_ne_nil
      (append_ne_nil_of_right_ne_nil (lib.format.text first ++ item.1)
        (chars_ne_nil item.2 rest)) (chars_ne_nil item.2 rest)
    simp only [← Spaced.Format.chars_cons] at hlast
    rw [hlast]
    exact isSpace_getLast item.2 rest

theorem strip_text : PyStr.strip listing.text =
    String.ofList (lib.format.chars listing.first listing.rest) := by
  rw [strip, text, String.toList_ofList,
    stripList_pad (chars_ne_nil _ _) (fun c hc => (listing.white.1 c hc).isSpace)
      (fun c hc => (listing.white.2 c hc).isSpace) (isSpace_head _ _) (isSpace_getLast _ _)]

theorem filterMap_split (cs : List Char) :
    (PyStr.split ' ' (String.ofList cs)).filterMap lib.point = lib.format.readAll cs := by
  rw [split, String.toList_ofList, filterMap_map]
  rfl

theorem length_le_closed (ring : List (Rat × Rat)) :
    ring.length ≤ (closed ring).length ∧ (closed ring).length ≤ ring.length + 1 := by
  rw [closed]
  split
  next _ => exact ⟨Nat.le_refl _, Nat.le_succ _⟩
  next _ =>
    rw [length_append, length_take]
    omega

theorem length_points :
    listing.points.length = listing.rest.length + 1 := by
  rw [points, length_cons, length_map]

/-- The polygon of a list is read whole when there is a blank between each pair and the next. -/
theorem polygonOf_eq_some_ring_iff :
    lib.polygonOf (PyStr.strip listing.text) = some listing.ring ↔ listing.BlankBetween := by
  have hne : String.ofList (lib.format.chars listing.first listing.rest) ≠ "" := by
    intro hempty
    have hlist := congrArg String.toList hempty
    rw [String.toList_ofList] at hlist
    exact chars_ne_nil _ _ hlist
  have hthree := listing.three
  rw [strip_text, polygonOf, if_neg hne]
  dsimp only
  rw [filterMap_split]
  constructor
  · intro hring item hitem
    by_contra hmissing
    -- two pairs without a blank between them are lost, and then the ring is too short
    have hlt : (lib.format.readAll ([] ++ lib.format.chars listing.first listing.rest)).length <
        listing.rest.length :=
      Spaced.Format.length_readAll_lt listing.first listing.gaps ⟨item, hitem, hmissing⟩ (by simp)
        (by simp)
    rw [nil_append] at hlt
    split at hring
    next _ =>
      have hlength := congrArg List.length (Option.some.inj hring)
      have hread := (length_le_closed
        ((lib.format.readAll (lib.format.chars listing.first listing.rest)).map Prod.swap)).2
      have hwhole := (length_le_closed (listing.points.map Prod.swap)).1
      rw [ring] at hlength
      rw [length_map] at hread hwhole
      rw [length_points] at hwhole
      omega
    next _ => cases hring
  · intro hblank
    have hpoints : lib.format.readAll ([] ++ lib.format.chars listing.first listing.rest) =
        listing.points :=
      Spaced.Format.readAll_chars listing.first
        (fun item hitem => ⟨listing.gaps item hitem, hblank item hitem⟩) (by simp) (by simp)
    rw [nil_append] at hpoints
    have hlength : 3 ≤ listing.points.length := by
      rw [length_points]
      omega
    rw [hpoints, if_pos hlength, ring]

end Lib.Listing

/-- The one polygon of an area is a list of pairs. -/
def IsPolygonOf (area : Element) (listing : lib.Listing) : Prop :=
  ∃ child, (iter area).filter (named "polygon") = [child] ∧ child.text = some listing.text

theorem geometry_eq_ring_iff {area : Element} {listing : lib.Listing}
    (h : IsPolygonOf area listing) :
    (lib.geometry area).1 = some (.polygon listing.ring) ↔ listing.BlankBetween := by
  obtain ⟨child, hchild, htext⟩ := h
  rw [← listing.polygonOf_eq_some_ring_iff]
  have hpolygons : (texts area "polygon").filterMap lib.polygonOf =
      (lib.polygonOf (strip listing.text)).toList := by
    rw [texts, hchild, map_singleton, htext, getD_some]
    cases hread : lib.polygonOf (strip listing.text) with
    | none => rw [filterMap_cons_none hread, filterMap_nil, toList_none]
    | some ring => rw [filterMap_cons_some hread, filterMap_nil, toList_some]
  rw [Lib.geometry, hpolygons]
  cases lib.polygonOf (strip listing.text) with
  | none =>
    rw [toList_none]
    dsimp only
    split
    next _ => simp
    next _ => simp
  | some ring => simp [toList_some]

/-- An area whose geometry is set has a point. -/
theorem hasPoint_of_geometry {area : Element} {geometry : Geometry}
    (h : (lib.geometry area).1 = some geometry) : lib.hasPoint area = true := by
  rw [Lib.hasPoint]
  rw [Lib.geometry] at h ⊢
  split
  next _ => rfl
  next hnone =>
    rw [hnone] at h
    dsimp only at h
    split
    next _ => rfl
    next hcircles =>
      rw [hcircles] at h
      cases h

/-! ## Places -/

mutual

/-- The elements below one are fewer. -/
theorem length_iter_le {element : Element} : ∀ {root : Element}, element ∈ iter root →
    (iter element).length ≤ (iter root).length
  | ⟨_, _, _, _, children⟩, h => by
    rw [iter] at h
    rcases mem_cons.mp h with rfl | hbelow
    · exact Nat.le_refl _
    · rw [iter, length_cons]
      exact Nat.le_succ_of_le (length_iter_le_all hbelow)

theorem length_iter_le_all {element : Element} : ∀ {children : List Element},
    element ∈ iterAll children → (iter element).length ≤ (iterAll children).length
  | child :: children, h => by
    rw [iterAll] at h ⊢
    rw [length_append]
    rcases mem_append.mp h with hchild | hrest
    · exact Nat.le_add_right_of_le (length_iter_le hchild)
    · exact Nat.le_add_left_of_le (length_iter_le_all hrest)

end

mutual

/-- The areas of a document are those of its infos. -/
theorem areas_eq_flatMap : ∀ {root : Element}, shaped root = true →
    areas root = (infos root).flatMap areas
  | ⟨tag, attrib, text, tail, children⟩, h => by
    rw [shaped] at h
    rw [infos, iter]
    split at h
    next hinfo =>
      have hbelow : (iterAll children).filter (named "info") = [] := by
        rw [filter_eq_nil_iff]
        intro child hchild
        simpa using all_eq_true.mp h child hchild
      rw [filter_cons_of_pos hinfo, hbelow, flatMap_singleton]
    next hinfo =>
      rw [Bool.and_eq_true, Bool.not_eq_true'] at h
      rw [filter_cons_of_neg hinfo, ← areasAll_eq_flatMap h.2, areas, iter,
        filter_cons_of_neg (by rw [h.1]; decide)]

theorem areasAll_eq_flatMap : ∀ {children : List Element}, shapedAll children = true →
    (iterAll children).filter (named "area") =
      ((iterAll children).filter (named "info")).flatMap areas
  | [], _ => by rw [iterAll, List.filter_nil, List.filter_nil, List.flatMap_nil]
  | child :: children, h => by
    rw [shapedAll, Bool.and_eq_true] at h
    have hchild := areas_eq_flatMap h.1
    rw [infos, areas] at hchild
    rw [iterAll, filter_append, filter_append, flatMap_append, hchild,
      areasAll_eq_flatMap h.2]

end

/-- The numbers of the areas with a point, in an info. -/
def Lib.numbersIn (lib : Lib) (info : Element × Nat) : List Nat :=
  ((areas info.1).zipIdx.filter fun area => lib.hasPoint area.1).map fun area =>
    info.2 * 100 + area.2

/-- The numbers that the uids are made of. -/
def Lib.numbers (lib : Lib) (root : Element) : List Nat :=
  (infos root).zipIdx.flatMap lib.numbersIn

theorem mem_numbersIn {info : Element × Nat} {n : Nat} : n ∈ lib.numbersIn info ↔
    ∃ area j, (areas info.1)[j]? = some area ∧ lib.hasPoint area = true ∧
      info.2 * 100 + j = n := by
  rw [Lib.numbersIn, List.mem_map]
  constructor
  · rintro ⟨⟨area, j⟩, hmem, rfl⟩
    obtain ⟨hmem, hpoint⟩ := List.mem_filter.mp hmem
    exact ⟨area, j, List.mk_mem_zipIdx_iff_getElem?.mp hmem, hpoint, rfl⟩
  · rintro ⟨area, j, hplace, hpoint, rfl⟩
    exact ⟨(area, j),
      List.mem_filter.mpr ⟨List.mk_mem_zipIdx_iff_getElem?.mpr hplace, hpoint⟩, rfl⟩

theorem nodup_numbersIn (info : Element × Nat) : (lib.numbersIn info).Nodup := by
  have hplaces : (((areas info.1).zipIdx.filter fun area => lib.hasPoint area.1).map
      Prod.snd).Nodup := by
    refine List.Nodup.sublist (List.filter_sublist.map Prod.snd) ?_
    rw [List.zipIdx_map_snd]
    exact List.nodup_range'
  have hsame : lib.numbersIn info =
      (((areas info.1).zipIdx.filter fun area => lib.hasPoint area.1).map Prod.snd).map
        fun j => info.2 * 100 + j := by
    rw [List.map_map]
    rfl
  rw [hsame]
  exact hplaces.map fun j j' h => Nat.add_left_cancel h

/-- The numbers differ when no area is numbered like one of a later info. -/
theorem nodup_numbers_iff {root : Element} : (lib.numbers root).Nodup ↔ lib.NoClash root := by
  rw [Lib.numbers, List.nodup_flatMap, and_iff_right fun info _ => nodup_numbersIn info,
    List.pairwise_iff_getElem]
  constructor
  · rintro h i i' j j' hlt ⟨info, area, hinfo, harea, hpoint⟩
      ⟨info', area', hinfo', harea', hpoint'⟩
      hclash
    obtain ⟨hi, rfl⟩ := List.getElem?_eq_some_iff.mp hinfo
    obtain ⟨hi', rfl⟩ := List.getElem?_eq_some_iff.mp hinfo'
    have hapart := h i i' (by simpa using hi) (by simpa using hi') hlt
    simp only [Function.onFun, List.getElem_zipIdx, Nat.zero_add] at hapart
    refine hapart (a := i * 100 + j) (mem_numbersIn.mpr ⟨area, j, harea, hpoint, rfl⟩)
      (mem_numbersIn.mpr ⟨area', j', harea', hpoint', ?_⟩)
    omega
  · intro h i i' hi hi' hlt
    simp only [Function.onFun, List.getElem_zipIdx, Nat.zero_add]
    intro n hn hn'
    rw [List.length_zipIdx] at hi hi'
    obtain ⟨area, j, harea, hpoint, rfl⟩ := mem_numbersIn.mp hn
    obtain ⟨area', j', harea', hpoint', hsame⟩ := mem_numbersIn.mp hn'
    refine h i i' j j' hlt ⟨_, area, List.getElem?_eq_getElem hi, harea, hpoint⟩
      ⟨_, area', List.getElem?_eq_getElem hi', harea', hpoint'⟩ ?_
    dsimp only at hsame
    omega

/-! ## Records of areas -/

/-- The record of an area: it shows what the area has. -/
def Lib.RecordOf (lib : Lib) (area : Element) (record : Record) : Prop :=
  record.geometry = (lib.geometry area).1 ∧
    (lib.geometry area).2.map (fun point => (round7 point.1, round7 point.2)) =
      some (record.latDeg, record.lonDeg)

/-- Each area that has a geometry or a point has one record, the uids differ, and the polygons are
the closed rings of their pairs. -/
structure Lib.Complete (lib : Lib) (root : Element) (records : List Record) : Prop where
  one : List.Forall₂ lib.RecordOf ((areas root).filter lib.hasPoint) records
  apart : (records.map Record.uid).Nodup
  rings : ∀ area ∈ areas root, ∀ listing : lib.Listing, IsPolygonOf area listing →
    ∃ record ∈ records, lib.RecordOf area record ∧ record.geometry = some (.polygon listing.ring)

theorem record_eq_none {root : Element} {now : Rat} {info area : Element × Nat}
    (h : lib.hasPoint area.1 = false) : lib.record root now info area = none := by
  rw [Lib.hasPoint, isSome_eq_false_iff, isNone_iff_eq_none] at h
  rw [Lib.record, h]

theorem record_eq_some {root : Element} {now : Rat} {info area : Element × Nat}
    (h : lib.hasPoint area.1 = true) :
    ∃ record, lib.record root now info area = some record ∧ lib.RecordOf area.1 record ∧
      record.uid = uidOf (identifierOf root now) (info.2 * 100 + area.2) := by
  obtain ⟨point, hpoint⟩ := isSome_iff_exists.mp h
  rw [Lib.record, hpoint]
  refine ⟨_, rfl, ⟨rfl, ?_⟩, rfl⟩
  rw [hpoint, map_some]

theorem forall₂_areas {root : Element} {now : Rat} {info : Element × Nat} :
    ∀ (as : List Element) (k : Nat),
      List.Forall₂ lib.RecordOf (as.filter lib.hasPoint)
        ((as.zipIdx k).filterMap fun area => lib.record root now info area)
  | [], _ => .nil
  | area :: as, k => by
    rw [List.zipIdx_cons]
    cases hpoint : lib.hasPoint area with
    | false =>
      rw [List.filter_cons_of_neg (by rw [hpoint]; decide),
        List.filterMap_cons_none (record_eq_none hpoint)]
      exact forall₂_areas as (k + 1)
    | true =>
      obtain ⟨record, hrecord, hof, -⟩ :=
        @record_eq_some lib root now info (area, k) hpoint
      rw [filter_cons_of_pos hpoint, filterMap_cons_some hrecord]
      exact .cons hof (forall₂_areas as (k + 1))

theorem forall₂_infos {root : Element} {now : Rat} : ∀ (is : List Element) (k : Nat),
    List.Forall₂ lib.RecordOf ((is.flatMap areas).filter lib.hasPoint)
      ((is.zipIdx k).flatMap fun info =>
        (areas info.1).zipIdx.filterMap fun area => lib.record root now info area)
  | [], _ => .nil
  | info :: is, k => by
    rw [zipIdx_cons, flatMap_cons, flatMap_cons, filter_append]
    exact rel_append (forall₂_areas _ 0) (forall₂_infos is (k + 1))

theorem map_uid_records (root : Element) (now : Rat) :
    (lib.records root now).map Record.uid =
      (lib.numbers root).map (uidOf (identifierOf root now)) := by
  have hin : ∀ (info : Element × Nat) (as : List (Element × Nat)),
      (as.filterMap fun area => lib.record root now info area).map Record.uid =
        ((as.filter fun area => lib.hasPoint area.1).map fun area => info.2 * 100 + area.2).map
          (uidOf (identifierOf root now)) := by
    intro info as
    induction as with
    | nil => rfl
    | cons area as ih =>
      cases hpoint : lib.hasPoint area.1 with
      | false =>
        rw [filter_cons_of_neg (by rw [hpoint]; decide),
          filterMap_cons_none (record_eq_none hpoint), ih]
      | true =>
        obtain ⟨record, hrecord, -, huid⟩ :=
          @record_eq_some lib root now info area hpoint
        rw [filter_cons_of_pos (by exact hpoint),
          filterMap_cons_some hrecord, map_cons, map_cons, map_cons, ih,
          huid]
  rw [Lib.records, Lib.numbers, map_flatMap, map_flatMap]
  exact flatMap_congr fun info _ => hin info _

/-- The uid of a number that is not cut tells the number. -/
theorem uidOf_inj {identifier : String} {m n : Nat} (hid : PyStr.len identifier ≤ 64)
    (hm : m < 10 ^ 91) (hn : n < 10 ^ 91) (h : uidOf identifier m = uidOf identifier n) :
    m = n := by
  have hwhole : ∀ k, k < 10 ^ 91 →
      (uidOf identifier k).toList = ("CAP-" ++ identifier ++ "-").toList ++ Nat.toDigits 10 k := by
    intro k hk
    have hdigits := (Nat.length_toDigits_le_iff (by decide : 1 < 10) (by decide : 0 < 91)).mpr hk
    rw [uidOf, PyStr.take, String.toList_ofList, String.toList_append, toList_toString]
    refine take_of_length_le ?_
    rw [PyStr.len] at hid
    rw [length_append, String.toList_append, String.toList_append, length_append,
      length_append]
    have hhead : "CAP-".toList.length + "-".toList.length = 5 := rfl
    omega
  have hlist := congrArg String.toList h
  rw [hwhole m hm, hwhole n hn] at hlist
  exact toDigits_inj (append_cancel_left hlist)

theorem lt_of_mem_numbers {root : Element} {n : Nat} (h : n ∈ lib.numbers root)
    (hsmall : (iter root).length ≤ 2000000) : n < 10 ^ 91 := by
  obtain ⟨info, hinfo, hn⟩ := List.mem_flatMap.mp h
  obtain ⟨area, j, harea, -, rfl⟩ := mem_numbersIn.mp hn
  obtain ⟨info, i⟩ := info
  have hplace := List.mk_mem_zipIdx_iff_getElem?.mp hinfo
  obtain ⟨hi, hsame⟩ := List.getElem?_eq_some_iff.mp hplace
  obtain ⟨hj, -⟩ := List.getElem?_eq_some_iff.mp harea
  have hmem : info ∈ iter root := List.mem_of_mem_filter (hsame ▸ List.getElem_mem hi)
  have hinfos : (infos root).length ≤ (iter root).length := List.length_filter_le _ _
  have hareas : (areas info).length ≤ (iter info).length := List.length_filter_le _ _
  have hbelow := length_iter_le hmem
  dsimp only at hj ⊢
  omega

theorem exists_of_forall₂ {α β : Type} {R : α → β → Prop} {as : List α} {bs : List β}
    (h : List.Forall₂ R as bs) {a : α} (ha : a ∈ as) : ∃ b ∈ bs, R a b := by
  induction h with
  | nil => cases ha
  | cons hhead _ ih =>
    rcases mem_cons.mp ha with rfl | htail
    · exact ⟨_, .head _, hhead⟩
    · obtain ⟨b, hb, hR⟩ := ih htail
      exact ⟨b, .tail _ hb, hR⟩

/-- The records of a document are complete when no area is numbered like one of a later info, and
all pairs have a blank between them. -/
theorem complete_iff {xml : List UInt8} {root : Element} {now : Rat}
    (hparsed : lib.fromstring xml = some root) (hxml : xml.length ≤ 2000000)
    (hshaped : shaped root = true) (hid : PyStr.len (identifierOf root now) ≤ 64) :
    lib.Complete root (lib.parseCap xml now) ↔
      lib.NoClash root ∧ ∀ area ∈ areas root, ∀ listing : lib.Listing, IsPolygonOf area listing →
        listing.BlankBetween := by
  have hrecords : lib.parseCap xml now = lib.records root now := by
    rw [Lib.parseCap, if_neg (Nat.not_lt.mpr hxml), hparsed]
  have hone : List.Forall₂ lib.RecordOf ((areas root).filter lib.hasPoint)
      (lib.records root now) := by
    rw [areas_eq_flatMap hshaped]
    exact forall₂_infos _ 0
  have hapart : ((lib.records root now).map Record.uid).Nodup ↔ lib.NoClash root := by
    have hsmall := Nat.le_trans (lib.fromstring_small xml root hparsed) hxml
    rw [map_uid_records, ← nodup_numbers_iff]
    refine ⟨List.Nodup.of_map _, fun hnumbers => hnumbers.map_on fun m hm n hn => ?_⟩
    exact uidOf_inj hid (lt_of_mem_numbers hm hsmall) (lt_of_mem_numbers hn hsmall)
  rw [hrecords]
  constructor
  · rintro ⟨-, huids, hrings⟩
    refine ⟨hapart.mp huids, fun area harea listing hpolygon => ?_⟩
    obtain ⟨record, -, hof, hring⟩ := hrings area harea listing hpolygon
    rw [← geometry_eq_ring_iff hpolygon, ← hof.1, hring]
  · rintro ⟨hclash, hblank⟩
    refine ⟨hone, hapart.mpr hclash, fun area harea listing hpolygon => ?_⟩
    have hgeometry := (geometry_eq_ring_iff hpolygon).mpr (hblank area harea listing hpolygon)
    obtain ⟨record, hrecord, hof⟩ := exists_of_forall₂ hone
      (List.mem_filter.mpr ⟨harea, hasPoint_of_geometry hgeometry⟩)
    exact ⟨record, hrecord, hof, hof.1.trans hgeometry⟩

/-! ## A document -/

/-- The tag of a CAP element. -/
def tagOf (name : String) : String :=
  "\x7burn:oasis:names:tc:emergency:cap:1.2" ++ (String.ofList ['\x7d'] ++ name)

/-- A CAP element. -/
def element (name : String) (text : Option String) (children : List Element) : Element :=
  ⟨tagOf name, .empty, text, none, children⟩

theorem localName_append (uri : String) {name : String} (h : '\x7d' ∉ name.toList) :
    localName (uri ++ (String.ofList ['\x7d'] ++ name)) = name := by
  rw [localName, split_append, split_of_notMem h, getLast?_concat,
    getD_some]

theorem named_element {name other : String} (h : '\x7d' ∉ other.toList) (text : Option String)
    (children : List Element) : named name (element other text children) = (other == name) := by
  have hname : localName (tagOf other) = other := localName_append _ h
  show (localName (tagOf other) == name) = _
  rw [hname]

theorem iter_element (name : String) (text : Option String) (children : List Element) :
    iter (element name text children) = element name text children :: iterAll children := by
  rw [element, iter]

/-- The text of an ASCII document. -/
def ascii (s : String) : List UInt8 := s.toList.map fun c => UInt8.ofNat c.toNat

variable (polygon : String)

/-- The area of a polygon. -/
def areaOf : Element :=
  element "area" none [element "polygon" (some polygon) []]

/-- A document with one area. -/
def documentOf : Element :=
  element "alert" none
    [element "identifier" (some "LT-7") [], element "info" none [areaOf polygon]]

/-- The text of the document. -/
def documentText : List UInt8 :=
  ascii ("<alert xmlns='urn:oasis:names:tc:emergency:cap:1.2'><identifier>LT-7</identifier>" ++
    "<info><area><polygon>" ++ polygon ++ "</polygon></area></info></alert>")

/-- The number of a text of digits. -/
def digits (s : String) : Option PyFloat :=
  if s ≠ "" ∧ s.toList.all Char.isDigit then some (.finite (Nat.ofDigitChars 10 s.toList 0))
  else none

/-- The libraries on the one document. -/
def Lib.only : Lib where
  fromstring xml := if xml = documentText polygon then some (documentOf polygon) else none
  float := digits
  timestamp _ := none
  lower := PyStr.lower
  isDecimal := Char.isDigit
  dumps _ := ""
  fromstring_small xml root h := by
    split at h
    next htext =>
      rw [← Option.some.inj h, htext, documentText, ascii, List.length_map, String.toList_append,
        String.toList_append, List.length_append, List.length_append]
      have htag : 5 ≤ "</polygon></area></info></alert>".toList.length := by decide +kernel
      have hdocument : (iter (documentOf polygon)).length = 5 := rfl
      omega
    next _ => cases h
  float_space s hspace := by
    obtain ⟨c, hc, hwhite⟩ := hspace
    refine if_neg fun hdigits => ?_
    have hdigit := List.all_eq_true.mp hdigits.2 c (PyStr.mem_of_mem_strip hc)
    have hcode : 48 ≤ c.toNat ∧ c.toNat ≤ 57 := by
      simpa using Char.isDigit_iff_toNat.mp hdigit
    simp only [PyStr.isSpace, Bool.or_eq_true, Bool.and_eq_true, decide_eq_true_eq,
      beq_iff_eq] at hwhite
    omega

theorem areas_documentOf : areas (documentOf polygon) = [areaOf polygon] := by
  simp [areas, documentOf, areaOf, iter_element, iterAll, named_element]

theorem infos_documentOf :
    infos (documentOf polygon) = [element "info" none [areaOf polygon]] := by
  simp [infos, documentOf, areaOf, iter_element, iterAll, named_element]

theorem fromstring_documentText :
    (Lib.only polygon).fromstring (documentText polygon) = some (documentOf polygon) := if_pos rfl

theorem shaped_element (name : String) (text : Option String) (children : List Element) :
    shaped (element name text children) =
      if named "info" (element name text children) then
        (iterAll children).all fun child => !named "info" child
      else !named "area" (element name text children) && shapedAll children := by
  rw [element, shaped]

theorem shaped_documentOf : shaped (documentOf polygon) = true := by
  simp [documentOf, areaOf, shaped_element, shapedAll, iter_element, iterAll, named_element]

theorem isPolygonOf_areaOf {listing : lib.Listing} {polygon : String} :
    IsPolygonOf (areaOf polygon) listing ↔ listing.text = polygon := by
  have hchildren : (iter (areaOf polygon)).filter (named "polygon") =
      [element "polygon" (some polygon) []] := by
    simp [areaOf, iter_element, iterAll, named_element]
  rw [IsPolygonOf, hchildren]
  constructor
  · rintro ⟨child, hchild, htext⟩
    obtain rfl := head_eq_of_cons_eq hchild
    exact (Option.some.inj htext).symm
  · rintro rfl
    exact ⟨_, rfl, rfl⟩

theorem Lib.Listing.mem_text {listing : lib.Listing} {item : List Char × lib.Pair}
    (hitem : item ∈ listing.rest) {c : Char} (hc : c ∈ item.1) : c ∈ listing.text.toList := by
  have htail : c ∈ lib.format.tail listing.rest :=
    mem_flatMap.mpr ⟨item, hitem, mem_append_left _ hc⟩
  rw [Lib.Listing.text, String.toList_ofList]
  exact mem_append_left _ (mem_append_right _ (mem_append_right _ htail))

/-- Three pairs between blanks. -/
def blanks : String := "54,24 55,24 55,25"

/-- A document is complete whose pairs stand between blanks. -/
theorem complete_with_blanks : (Lib.only blanks).Complete (documentOf blanks)
    ((Lib.only blanks).parseCap (documentText blanks) 0) := by
  refine (complete_iff (fromstring_documentText _) (by decide +kernel) (shaped_documentOf _)
    (by decide +kernel)).mpr ⟨?_, ?_⟩
  · rintro i i' - - hlt - ⟨info, -, hinfo, -⟩
    rw [infos_documentOf] at hinfo
    obtain ⟨hplace, -⟩ := List.getElem?_eq_some_iff.mp hinfo
    rw [List.length_singleton] at hplace
    omega
  · intro area harea listing hpolygon item hitem
    rw [areas_documentOf, List.mem_singleton] at harea
    rw [harea, isPolygonOf_areaOf] at hpolygon
    obtain ⟨hne, hwhite⟩ := listing.gaps item hitem
    obtain ⟨c, hc⟩ := List.exists_mem_of_ne_nil _ hne
    have hmem := Lib.Listing.mem_text hitem hc
    have hblanks : ∀ c ∈ blanks.toList, c ∈ [' ', '\t', '\n', '\r'] → c = ' ' :=
      List.all_iff_forall_prop.mp (by decide +kernel)
    rw [hpolygon] at hmem
    rw [← hblanks c hmem (hwhite c hc)]
    exact hc

/-- Three pairs on lines of their own. -/
def lines : String := "54,24\n55,24\n55,25"

/-- A pair of the polygon on lines. -/
def pairOf (latText lonText : List Char) (lat lon : Rat)
    (h : ((∀ c ∈ latText ++ lonText, c ≠ ',' ∧ PyStr.isSpace c = false) ∧ latText ≠ [] ∧
      lonText ≠ []) ∧ digits (String.ofList latText) = some (.finite lat) ∧
      digits (String.ofList lonText) = some (.finite lon) ∧
      (-90 ≤ lat ∧ lat ≤ 90) ∧ -180 ≤ lon ∧ lon ≤ 180) : (Lib.only lines).Pair :=
  ⟨latText, lonText, lat, lon, h.1.1, h.1.2.1, h.1.2.2, h.2.1, h.2.2.1, h.2.2.2⟩

/-- The list of the pairs on lines. -/
def onLines : (Lib.only lines).Listing where
  lead := []
  first := pairOf ['5', '4'] ['2', '4'] 54 24
    ⟨⟨List.all_iff_forall_prop.mp (by decide +kernel), by decide⟩, by decide +kernel⟩
  rest :=
    [(['\n'], pairOf ['5', '5'] ['2', '4'] 55 24
      ⟨⟨List.all_iff_forall_prop.mp (by decide +kernel), by decide⟩, by decide +kernel⟩),
      (['\n'], pairOf ['5', '5'] ['2', '5'] 55 25
        ⟨⟨List.all_iff_forall_prop.mp (by decide +kernel), by decide⟩, by decide +kernel⟩)]
  trail := []
  white := by simp
  gaps := by
    intro item hitem
    have hgap : item.1 = ['\n'] := by
      rcases List.mem_cons.mp hitem with rfl | hitem
      · rfl
      · rw [List.mem_singleton.mp hitem]
    rw [hgap]
    refine ⟨by decide, fun c hc => ?_⟩
    rw [List.mem_singleton.mp hc]
    exact List.mem_cons_of_mem _ (List.mem_cons_of_mem _ List.mem_cons_self)
  three := Nat.le_refl 2

/-- The ring of a polygon on lines is lost. -/
theorem lines_lost :
    (Lib.only lines).fromstring (documentText lines) = some (documentOf lines) ∧
      shaped (documentOf lines) = true ∧ PyStr.len (identifierOf (documentOf lines) 0) ≤ 64 ∧
      ¬ (Lib.only lines).Complete (documentOf lines)
        ((Lib.only lines).parseCap (documentText lines) 0) := by
  refine ⟨fromstring_documentText _, shaped_documentOf _, by decide +kernel, ?_⟩
  rintro ⟨-, -, hrings⟩
  have hpolygon : IsPolygonOf (areaOf lines) onLines :=
    isPolygonOf_areaOf.mpr (by decide +kernel)
  have harea : areaOf lines ∈ areas (documentOf lines) := by
    rw [areas_documentOf]
    exact List.mem_cons_self
  obtain ⟨record, -, hof, hring⟩ := hrings (areaOf lines) harea onLines hpolygon
  have hblank := (geometry_eq_ring_iff hpolygon).mp (hof.1.symm.trans hring)
  exact absurd (hblank _ List.mem_cons_self) (by decide)

end Efdi.Alerts.Cap
