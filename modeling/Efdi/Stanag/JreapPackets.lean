import Efdi.Stanag.Link16

/-!
# JREAP-C packets

`_5516_process_packet` goes through the words of a packet.  A word with a known label is read as the
start of a message of three words, and any other word is skipped.

The type of a word is in its first two bits, `00` for the first word of a message.  Nothing looks at
it, so a later word of a message that is skipped can be read as the start of another one
(`continuation_read`).  Every published track comes from the start of a message exactly when the words
that are reached with a known label are such starts, or else of no consequence
(`startsAtInitial_iff_orderly`).
-/

namespace Efdi.Stanag

open List
open Asterix (FloatMath exactMath)
open Tracks (Track)

/-! ## Packets -/

/-- The keys of `_5516_MSG_DECODER`. -/
inductive JMessage where
  | j22
  | j25
  | j32
  | j35
  | j37
deriving DecidableEq

/-- `_5516_LABEL`. -/
def messageLabel : Nat × Nat → Option JMessage
  | (2, 2) => some .j22
  | (2, 5) => some .j25
  | (3, 2) => some .j32
  | (3, 5) => some .j35
  | (3, 7) => some .j37
  | _ => none

/-- `_5516_MSG_WORD_COUNT`. -/
def messageWordCount : JMessage → Nat
  | .j22 => 3
  | .j25 => 3
  | .j32 => 3
  | .j35 => 3
  | .j37 => 3

/-- `_5516_MSG_DOMAIN`. -/
def messageDomain : JMessage → String
  | .j22 => "air"
  | .j25 => "sea"
  | .j32 => "air"
  | .j35 => "sea"
  | .j37 => "land"

section

variable (F : FloatMath)

/-- A track under another source and domain. -/
def relabelled (src domain : String) (track : Option Track) : Option Track :=
  track.map fun track => (track.set "_src" (.str src)).set "domain" (.str domain)

/-- `_5516_decode_j35`. -/
def decodeJ35 (now : Rat) (words : List (List UInt8)) : Option Track :=
  relabelled "Link 16 J3.5" "sea" (decodeJ32 F now words)

/-- `_5516_decode_j25`. -/
def decodeJ25 (now : Rat) (words : List (List UInt8)) : Option Track :=
  relabelled "Link 16 J2.5" "sea" (decodeJ22 F now words)

/-- `_5516_decode_j37`. -/
def decodeJ37 (now : Rat) (words : List (List UInt8)) : Option Track :=
  relabelled "Link 16 J3.7" "land" (decodeJ32 F now words)

/-- `_5516_MSG_DECODER`. -/
def messageDecoder : JMessage → Rat → List (List UInt8) → Option Track
  | .j22 => decodeJ22 F
  | .j25 => decodeJ25 F
  | .j32 => decodeJ32 F
  | .j35 => decodeJ35 F
  | .j37 => decodeJ37 F

end

/-- `_5516_TOPIC_MAP`, and the topic of everything else. -/
def topicMap (root domain aff : String) : String :=
  match domain, aff with
  | "air", "friendly" => root ++ "/air/stanag_5516/c2/friendly/aircraft"
  | "air", "hostile" => root ++ "/air/stanag_5516/c2/hostile/aircraft"
  | "air", "neutral" => root ++ "/air/stanag_5516/c2/neutral/aircraft"
  | "air", "unknown" => root ++ "/air/stanag_5516/c2/unknown"
  | "sea", "friendly" => root ++ "/sea/stanag_5516/c2/friendly/vessel"
  | "sea", "hostile" => root ++ "/sea/stanag_5516/c2/hostile/vessel"
  | "sea", "neutral" => root ++ "/sea/stanag_5516/c2/neutral/vessel"
  | "sea", "unknown" => root ++ "/sea/stanag_5516/c2/unknown/vessel"
  | "land", "friendly" => root ++ "/land/stanag_5516/c2/friendly/unit"
  | "land", "hostile" => root ++ "/land/stanag_5516/c2/hostile/unit"
  | "land", "neutral" => root ++ "/land/stanag_5516/c2/neutral/unit"
  | "land", "unknown" => root ++ "/land/stanag_5516/c2/unknown/unit"
  | _, _ => root ++ "/land/stanag_5516/c2/unknown/unit"

/-- The text of a field, and `or` what stands in for an empty one. -/
def textOr (track : Track) (key default : String) : String :=
  match track.get? key with
  | some (.str text) => if text = "" then default else text
  | _ => default

/-- `_5516_topic_for`. -/
def topicFor (root : String) (track : Track) (message : JMessage) : String :=
  topicMap root (textOr track "domain" (messageDomain message)) (textOr track "affiliation" "unknown")

/-- `_5516_parse_jreap_header`. -/
def parseJreapHeader : List UInt8 → Except String (Nat × Nat × List UInt8)
  | version :: pduType :: hi :: lo :: payload =>
    if version ≠ 1 then
      .error ("Unsupported JREAP-C version: " ++ toString version.toNat)
    else .ok (pduType.toNat, BigEndian.ofBytes [hi, lo], payload)
  | _ => .error "Packet too short for JREAP-C header"

/-- `_5516_extract_words`. -/
def extractWords (payload : List UInt8) : List (List UInt8) :=
  if 10 ≤ payload.length then payload.take 10 :: extractWords (payload.drop 10) else []
termination_by payload.length
decreasing_by
  rw [List.length_drop]
  omega

/-- `_5516_word_label`. -/
def wordLabel (word : List UInt8) : Nat × Nat := (bitReaderU word 2 6, bitReaderU word 8 4)

/-- The message of a label. -/
def messageAt (words : List (List UInt8)) (i : Nat) : Option JMessage :=
  messageLabel (wordLabel (words.getD i []))

/-- A message that was read: where it starts, what it was taken for, and its track. -/
structure Reading where
  position : Nat
  message : JMessage
  track : Option Track

/-- The loop of `_5516_process_packet` over `n` words, from a word on, with the message and the track
of each word. -/
def readLoop (message? : Nat → Option JMessage) (track? : Nat → JMessage → Option Track) (n i : Nat) :
    List Reading :=
  if n ≤ i then []
  else
    match message? i with
    | none => readLoop message? track? n (i + 1)
    | some message =>
      if n < i + messageWordCount message then []
      else ⟨i, message, track? i message⟩ ::
        readLoop message? track? n (i + messageWordCount message)
termination_by n - i
decreasing_by
  · omega
  · have hcount : messageWordCount message = 3 := by cases message <;> rfl
    omega

/-- The track of a message.  `clock` is what `time.time()` returns while the message of a word is
decoded. -/
def trackAt (F : FloatMath) (clock : Nat → Rat) (words : List (List UInt8)) (i : Nat)
    (message : JMessage) : Option Track :=
  messageDecoder F message (clock i) ((words.drop i).take (messageWordCount message))

/-- The messages that are read off some words. -/
def readings (F : FloatMath) (clock : Nat → Rat) (words : List (List UInt8)) : List Reading :=
  readLoop (messageAt words) (trackAt F clock words) words.length 0

/-- The words of a packet that has J-series data. -/
def packetWords (data : List UInt8) : List (List UInt8) :=
  match parseJreapHeader data with
  | .error _ => []
  | .ok (pduType, _, payload) => if pduType ≠ 1 then [] else extractWords payload

/-- `_5516_process_packet`: the topics and tracks that it publishes. -/
def processPacket (F : FloatMath) (root : String) (clock : Nat → Rat) (data : List UInt8) :
    List (String × Track) :=
  (readings F clock (packetWords data)).filterMap fun reading =>
    reading.track.map fun track => (topicFor root track reading.message, track)

/-! ## The loop -/

theorem wordCount_eq (message : JMessage) : messageWordCount message = 3 := by
  cases message <;> rfl

section

variable {message? : Nat → Option JMessage} {track? : Nat → JMessage → Option Track} {n i : Nat}

theorem readLoop_end (h : n ≤ i) : readLoop message? track? n i = [] := by
  rw [readLoop, if_pos h]

theorem readLoop_unknown (h : i < n) (hmessage : message? i = none) :
    readLoop message? track? n i = readLoop message? track? n (i + 1) := by
  rw [readLoop, if_neg (Nat.not_le.mpr h), hmessage]

theorem readLoop_short {message : JMessage} (h : ¬i + 2 < n) (hmessage : message? i = some message) :
    readLoop message? track? n i = [] := by
  by_cases hend : n ≤ i
  · exact readLoop_end hend
  · rw [readLoop, if_neg hend, hmessage]
    simp only [wordCount_eq]
    rw [if_pos (by omega)]

theorem readLoop_known {message : JMessage} (h : i + 2 < n) (hmessage : message? i = some message) :
    readLoop message? track? n i =
      ⟨i, message, track? i message⟩ :: readLoop message? track? n (i + 3) := by
  rw [readLoop, if_neg (by omega), hmessage]
  simp only [wordCount_eq]
  rw [if_neg (by omega)]

/-- The words that the loop looks at: it goes on by three words at a known label and by one at an
unknown one. -/
inductive Reached (message? : Nat → Option JMessage) (n : Nat) : Nat → Prop where
  | first : Reached message? n 0
  | skip {i : Nat} (h : Reached message? n i) (hlt : i < n) (hmessage : message? i = none) :
      Reached message? n (i + 1)
  | read {i : Nat} {message : JMessage} (h : Reached message? n i) (hlt : i + 2 < n)
      (hmessage : message? i = some message) : Reached message? n (i + 3)

/-- A reading of a word that is reached, from some word on. -/
structure ReadFrom (message? : Nat → Option JMessage) (track? : Nat → JMessage → Option Track)
    (n i : Nat) (r : Reading) : Prop where
  behind : i ≤ r.position
  reached : Reached message? n r.position
  whole : r.position + 2 < n
  message : message? r.position = some r.message
  track : r.track = track? r.position r.message

theorem ReadFrom.earlier {r : Reading} {k : Nat} (h : ReadFrom message? track? n i r)
    (hle : k ≤ i) : ReadFrom message? track? n k r :=
  { h with behind := hle.trans h.behind }

/-- What is read comes from words that are reached, no word twice. -/
theorem readLoop_sound (track? : Nat → JMessage → Option Track) :
    ∀ {i : Nat}, Reached message? n i →
      (∀ r ∈ readLoop message? track? n i, ReadFrom message? track? n i r) ∧
      (readLoop message? track? n i).Pairwise fun r r' => r.position + 3 ≤ r'.position
  | i, h => by
    by_cases hend : n ≤ i
    · rw [readLoop_end hend]
      exact ⟨fun r hr => absurd hr List.not_mem_nil, .nil⟩
    · cases hmessage : message? i with
      | none =>
        obtain ⟨hall, happart⟩ := readLoop_sound track? (h.skip (Nat.not_le.mp hend) hmessage)
        rw [readLoop_unknown (Nat.not_le.mp hend) hmessage]
        exact ⟨fun r hr => (hall r hr).earlier (Nat.le_succ i), happart⟩
      | some message =>
        by_cases hlong : i + 2 < n
        · obtain ⟨hall, happart⟩ := readLoop_sound track? (h.read hlong hmessage)
          rw [readLoop_known hlong hmessage]
          constructor
          · intro r hr
            rcases mem_cons.mp hr with rfl | hr
            · exact ⟨Nat.le_refl _, h, hlong, hmessage, rfl⟩
            · exact (hall r hr).earlier (Nat.le_add_right i 3)
          · exact pairwise_cons.mpr ⟨fun r hr => (hall r hr).behind, happart⟩
        · rw [readLoop_short hlong hmessage]
          exact ⟨fun r hr => absurd hr not_mem_nil, .nil⟩
termination_by i => n - i

/-- The loop gets to every word that is reached. -/
theorem Reached.suffix (h : Reached message? n i) (track? : Nat → JMessage → Option Track) :
    ∃ earlier, readLoop message? track? n 0 = earlier ++ readLoop message? track? n i := by
  induction h with
  | first => exact ⟨[], rfl⟩
  | skip h hlt hmessage ih =>
    obtain ⟨earlier, hearlier⟩ := ih
    exact ⟨earlier, by rw [hearlier, readLoop_unknown hlt hmessage]⟩
  | read h hlt hmessage ih =>
    obtain ⟨earlier, hearlier⟩ := ih
    exact ⟨earlier ++ [⟨_, _, track? _ _⟩], by
      rw [hearlier, readLoop_known hlt hmessage, append_assoc, singleton_append]⟩

theorem mem_readLoop (track? : Nat → JMessage → Option Track) {message : JMessage}
    (h : Reached message? n i) (hlt : i + 2 < n) (hmessage : message? i = some message) :
    ⟨i, message, track? i message⟩ ∈ readLoop message? track? n 0 := by
  obtain ⟨earlier, hearlier⟩ := h.suffix track?
  rw [hearlier, readLoop_known hlt hmessage]
  exact mem_append_right _ mem_cons_self

end

/-! ## Starts of messages -/

/-- The type bits of a word are those of the first word of a message. -/
def Initial (words : List (List UInt8)) (i : Nat) : Prop := bitReaderU (words.getD i []) 0 2 = 0

/-- The word belongs to the message that starts at another one. -/
def MessageOf (words : List (List UInt8)) (j i : Nat) : Prop :=
  i ≤ j ∧ Initial words i ∧ ∀ k, i < k → k ≤ j → ¬Initial words k

/-- The tracks of a packet come from the starts of messages. -/
structure StartsAtInitial (F : FloatMath) (clock : Nat → Rat) (words : List (List UInt8)) : Prop where
  /-- A track is decoded from three words, of which the first one is initial and has a known label. -/
  tracks : ∀ r ∈ readings F clock words, ∀ track, r.track = some track →
    Initial words r.position ∧ messageAt words r.position = some r.message ∧
      r.position + 2 < words.length ∧
        messageDecoder F r.message (clock r.position) ((words.drop r.position).take 3) = some track
  /-- No word is read twice. -/
  apart : (readings F clock words).Pairwise fun r r' => r.position + 3 ≤ r'.position
  /-- A word of a message with an unknown label is not read as a start, unless it is initial. -/
  unknown : ∀ r ∈ readings F clock words, ∀ i, MessageOf words r.position i →
    messageAt words i = none → Initial words r.position

/-- A word that is reached with a known label and two words behind it is initial, or it has no track
and belongs to no message with an unknown label. -/
def Orderly (F : FloatMath) (clock : Nat → Rat) (words : List (List UInt8)) : Prop :=
  ∀ i message, Reached (messageAt words) words.length i → i + 2 < words.length →
    messageAt words i = some message → ¬Initial words i →
      messageDecoder F message (clock i) ((words.drop i).take 3) = none ∧
        ∀ k, MessageOf words i k → messageAt words k ≠ none

theorem trackAt_eq (F : FloatMath) (clock : Nat → Rat) (words : List (List UInt8)) (i : Nat)
    (message : JMessage) : trackAt F clock words i message =
      messageDecoder F message (clock i) ((words.drop i).take 3) := by
  rw [trackAt, wordCount_eq]

/-- The tracks of a packet come from the starts of messages exactly when the words that are reached
with a known label are in order. -/
theorem startsAtInitial_iff_orderly (F : FloatMath) (clock : Nat → Rat) (data : List UInt8) :
    StartsAtInitial F clock (packetWords data) ↔ Orderly F clock (packetWords data) := by
  generalize packetWords data = words
  obtain ⟨hall, happart⟩ := readLoop_sound (trackAt F clock words)
    (@Reached.first (messageAt words) words.length)
  constructor
  · intro h i message hreached hlt hmessage hinitial
    have hmem := mem_readLoop (trackAt F clock words) hreached hlt hmessage
    constructor
    · cases htrack : messageDecoder F message (clock i) ((words.drop i).take 3) with
      | none => rfl
      | some track =>
        rw [← trackAt_eq] at htrack
        exact absurd (h.tracks _ hmem track htrack).1 hinitial
    · intro k hk hnone
      exact absurd (h.unknown _ hmem k hk hnone) hinitial
  · intro h
    refine ⟨fun r hr track htrack => ?_, happart, fun r hr i hi hnone => ?_⟩
    · have hread := hall r hr
      rw [hread.track, trackAt_eq] at htrack
      refine ⟨?_, hread.message, hread.whole, htrack⟩
      by_contra hinitial
      rw [(h _ _ hread.reached hread.whole hread.message hinitial).1] at htrack
      cases htrack
    · have hread := hall r hr
      by_contra hinitial
      exact (h _ _ hread.reached hread.whole hread.message hinitial).2 i hi hnone

/-- A message with an unknown label, whose second word has the label of J3.2 and the type bits `01`. -/
def longMessage : List UInt8 :=
  [1, 1, 0, 0] ++ (0x07 :: List.replicate 9 0) ++ (0x43 :: 0x20 :: List.replicate 8 0) ++
    List.replicate 20 0

/-- The second word is read as the start of an air track, which is published. -/
theorem continuation_read :
    (processPacket exactMath "efdi" (fun _ => 0) longMessage).map Prod.fst =
      ["efdi/air/stanag_5516/c2/friendly/aircraft"] ∧
    ¬StartsAtInitial exactMath (fun _ => 0) (packetWords longMessage) := by
  have hwords : (processPacket exactMath "efdi" (fun _ => 0) longMessage).map Prod.fst =
      ["efdi/air/stanag_5516/c2/friendly/aircraft"] ∧ (packetWords longMessage).length = 4 ∧
      messageAt (packetWords longMessage) 0 = none ∧
      messageAt (packetWords longMessage) 1 = some .j32 ∧
      bitReaderU ((packetWords longMessage).getD 0 []) 0 2 = 0 ∧
      bitReaderU ((packetWords longMessage).getD 1 []) 0 2 = 1 := by
    decide +kernel
  obtain ⟨hpublished, hlength, hfirst, hsecond, hinitial, hother⟩ := hwords
  refine ⟨hpublished, fun h => ?_⟩
  have hreached := (@Reached.first (messageAt (packetWords longMessage)) 4).skip (by decide) hfirst
  rw [← hlength] at hreached
  have hmem := mem_readLoop (trackAt exactMath (fun _ => 0) (packetWords longMessage)) hreached
    (by rw [hlength]; decide) hsecond
  have hmessage : MessageOf (packetWords longMessage) 1 0 := by
    refine ⟨Nat.zero_le 1, hinitial, fun k hk hle => ?_⟩
    obtain rfl : k = 1 := by omega
    rw [Initial, hother]
    exact Nat.one_ne_zero
  have hstart := h.unknown _ hmem 0 hmessage hfirst
  rw [Initial, hother] at hstart
  exact Nat.one_ne_zero hstart

end Efdi.Stanag
