import Mathlib.Data.List.TakeWhile
import Efdi.Stanag.Klv

/-!
# KLV streams

`_4609_parse_klv_packets` over the chunks that a stream returns.  The parser is a steady
scanner: a wait keeps every byte that can still become part of a packet, so the packets do not
depend on the chunks (`Scanner.Steady.feed`).  Bytes at which no prefix begins are skipped one
by one (`frames_skip`), which is what carries the trimming of junk, and an encoded packet is cut
off as it was encoded (`klvLook_encoded`).
-/

namespace Efdi.Stanag

open List
open Framing (Look Scanner)

variable {maxBytes : Int} {buffer : List UInt8}

/-- What a look says about the buffer. -/
inductive KlvSight (maxBytes : Int) (buffer : List UInt8) : Look UInt8 KlvPacket → Prop where
  | short (h : buffer.length < 17) : KlvSight maxBytes buffer (.wait buffer)
  | found (h : 17 ≤ buffer.length) (hkey : ¬ klvPrefix <+: buffer) {i : Nat}
      (hfind : Search.find? klvPrefix (buffer.drop 1) = some i) :
      KlvSight maxBytes buffer (.drop (buffer.drop (i + 1)))
  | junk (h : 17 ≤ buffer.length) (hkey : ¬ klvPrefix <+: buffer)
      (hfind : Search.find? klvPrefix (buffer.drop 1) = none) :
      KlvSight maxBytes buffer (.wait (buffer.drop (buffer.length - 3)))
  | shortLength (h : 17 ≤ buffer.length) (hkey : klvPrefix <+: buffer)
      (hber : decodeBer (buffer.drop 16) = .error .short) : KlvSight maxBytes buffer (.wait buffer)
  | badLength (h : 17 ≤ buffer.length) (hkey : klvPrefix <+: buffer) {e : BerError}
      (hber : decodeBer (buffer.drop 16) = .error e) (hshort : e ≠ .short) :
      KlvSight maxBytes buffer (.drop (buffer.drop 1))
  | tooLong (h : 17 ≤ buffer.length) (hkey : klvPrefix <+: buffer) {valueLen lenSize : Nat}
      (hber : decodeBer (buffer.drop 16) = .ok (valueLen, lenSize)) (hmax : maxBytes < valueLen) :
      KlvSight maxBytes buffer (.drop (buffer.drop 1))
  | shortValue (h : 17 ≤ buffer.length) (hkey : klvPrefix <+: buffer) {valueLen lenSize : Nat}
      (hber : decodeBer (buffer.drop 16) = .ok (valueLen, lenSize))
      (hmax : ¬ maxBytes < valueLen) (hlen : buffer.length < 16 + lenSize + valueLen) :
      KlvSight maxBytes buffer (.wait buffer)
  | packet (h : 17 ≤ buffer.length) (hkey : klvPrefix <+: buffer) {valueLen lenSize : Nat}
      (hber : decodeBer (buffer.drop 16) = .ok (valueLen, lenSize))
      (hmax : ¬ maxBytes < valueLen) (hlen : 16 + lenSize + valueLen ≤ buffer.length) :
      KlvSight maxBytes buffer
        (.frame (buffer.take 16, (buffer.take (16 + lenSize + valueLen)).drop (16 + lenSize))
          (buffer.drop (16 + lenSize + valueLen)))

theorem klvSight (maxBytes : Int) (buffer : List UInt8) :
    KlvSight maxBytes buffer (klvLook maxBytes buffer) := by
  by_cases h : buffer.length < 17
  · rw [klvLook_short h]
    exact .short h
  have hlong : 17 ≤ buffer.length := by omega
  by_cases hkey : klvPrefix <+: buffer
  · rw [klvLook_key hlong hkey]
    cases hber : decodeBer (buffer.drop 16) with
    | error e =>
      cases e with
      | short => exact .shortLength hlong hkey hber
      | missing => exact .badLength hlong hkey hber (by decide)
      | indefinite => exact .badLength hlong hkey hber (by decide)
      | exceeds => exact .badLength hlong hkey hber (by decide)
    | ok r =>
      obtain ⟨valueLen, lenSize⟩ := r
      dsimp only
      by_cases hmax : maxBytes < valueLen
      · rw [if_pos hmax]
        exact .tooLong hlong hkey hber hmax
      · rw [if_neg hmax]
        by_cases hlen : buffer.length < 16 + lenSize + valueLen
        · rw [if_pos hlen]
          exact .shortValue hlong hkey hber hmax hlen
        · rw [if_neg hlen]
          exact .packet hlong hkey hber hmax (by omega)
  · rw [klvLook_junk hlong hkey]
    cases hfind : Search.find? klvPrefix (buffer.drop 1) with
    | none => exact .junk hlong hkey hfind
    | some i => exact .found hlong hkey hfind

/-- The conditions of a sight decide the look. -/
theorem KlvSight.look {l : Look UInt8 KlvPacket} (h : KlvSight maxBytes buffer l) :
    klvLook maxBytes buffer = l := by
  cases h with
  | short h => exact klvLook_short h
  | found h hkey hfind => rw [klvLook_junk h hkey, hfind]
  | junk h hkey hfind => rw [klvLook_junk h hkey, hfind]
  | shortLength h hkey hber => rw [klvLook_key h hkey, hber]
  | @badLength h hkey e hber hshort =>
    rw [klvLook_key h hkey, hber]
    cases e with
    | short => exact absurd rfl hshort
    | missing => rfl
    | indefinite => rfl
    | exceeds => rfl
  | tooLong h hkey hber hmax =>
    rw [klvLook_key h hkey, hber]
    exact if_pos hmax
  | shortValue h hkey hber hmax hlen =>
    rw [klvLook_key h hkey, hber]
    dsimp only
    rw [if_neg hmax, if_pos hlen]
  | packet h hkey hber hmax hlen =>
    rw [klvLook_key h hkey, hber]
    dsimp only
    rw [if_neg hmax, if_neg (Nat.not_lt.mpr hlen)]

theorem klvLook_shrinks {rest : List UInt8} (h : (klvLook maxBytes buffer).next? = some rest) :
    rest.length < buffer.length := by
  have hdrop : ∀ {n : Nat}, 0 < n → 17 ≤ buffer.length →
      (buffer.drop n).length < buffer.length := by
    intro n hn hlong
    rw [length_drop]
    omega
  have hsight := klvSight maxBytes buffer
  generalize klvLook maxBytes buffer = look at h hsight
  cases hsight with
  | short hlong => cases h
  | junk hlong hkey hfind => cases h
  | shortLength hlong hkey hber => cases h
  | shortValue hlong hkey hber hmax hlen => cases h
  | found hlong hkey hfind =>
    cases h
    exact hdrop (Nat.succ_pos _) hlong
  | badLength hlong hkey hber hshort =>
    cases h
    exact hdrop Nat.one_pos hlong
  | tooLong hlong hkey hber hmax =>
    cases h
    exact hdrop Nat.one_pos hlong
  | packet hlong hkey hber hmax hlen =>
    cases h
    exact hdrop (by omega) hlong

/-- The inner loop of `_4609_parse_klv_packets`. -/
def klvScanner (maxBytes : Int) : Scanner UInt8 KlvPacket where
  look := klvLook maxBytes
  shrinks := klvLook_shrinks

/-- `_4609_parse_klv_packets`, for what the reads of the stream return.  An empty read ends the
stream. -/
def parseKlvPackets (maxBytes : Int) (reads : List (List UInt8)) : List KlvPacket :=
  ((klvScanner maxBytes).feed [] (reads.takeWhile fun chunk => !chunk.isEmpty)).1

/-! ## What arrives later -/

theorem frames_of_sight {l : Look UInt8 KlvPacket} (h : KlvSight maxBytes buffer l) :
    (klvScanner maxBytes).look buffer = l := h.look

/-- A byte at which no prefix begins is skipped. -/
theorem frames_skip {byte : UInt8} {bytes : List UInt8} (h : ¬ klvPrefix <+: byte :: bytes) :
    (klvScanner maxBytes).frames (byte :: bytes) = (klvScanner maxBytes).frames bytes := by
  by_cases hshort : bytes.length < 17
  · have hnone : (klvScanner maxBytes).frames bytes = [] :=
      Scanner.frames_wait (frames_of_sight (.short hshort))
    rw [hnone]
    by_cases hlong : (byte :: bytes).length < 17
    · exact Scanner.frames_wait (frames_of_sight (.short hlong))
    · cases hfind : Search.find? klvPrefix ((byte :: bytes).drop 1) with
      | none =>
        exact Scanner.frames_wait (frames_of_sight (.junk (Nat.not_lt.mp hlong) h hfind))
      | some i =>
        rw [Scanner.frames_drop (frames_of_sight (.found (Nat.not_lt.mp hlong) h hfind))]
        refine Scanner.frames_wait (frames_of_sight (.short ?_))
        rw [length_drop, length_cons]
        omega
  · have hlong : 17 ≤ (byte :: bytes).length := by
      rw [length_cons]
      omega
    cases hfind : Search.find? klvPrefix bytes with
    | none =>
      rw [Scanner.frames_wait (frames_of_sight (.junk hlong h hfind))]
      have hnot : ¬ klvPrefix <+: bytes :=
        Search.find?_eq_none_iff.mp hfind 0 (Nat.zero_le _)
      have hnext : Search.find? klvPrefix (bytes.drop 1) = none := by
        refine Search.find?_eq_none_iff.mpr fun j hj => ?_
        rw [drop_drop]
        rw [length_drop] at hj
        exact Search.find?_eq_none_iff.mp hfind (1 + j) (by omega)
      exact (Scanner.frames_wait (frames_of_sight (.junk (Nat.not_lt.mp hshort) hnot hnext))).symm
    | some i =>
      rw [Scanner.frames_drop (frames_of_sight (.found hlong h hfind)), drop_succ_cons]
      obtain ⟨hle, hprefix, hfirst⟩ := Search.find?_eq_some_iff.mp hfind
      cases i with
      | zero => rfl
      | succ i =>
        have hnext : Search.find? klvPrefix (bytes.drop 1) = some i := by
          refine Search.find?_eq_some_iff.mpr ⟨?_, ?_, fun j hj => ?_⟩
          · rw [length_drop]
            omega
          · rw [drop_drop, Nat.add_comm]
            exact hprefix
          · rw [drop_drop, Nat.add_comm]
            exact hfirst (j + 1) (by omega)
        exact (Scanner.frames_drop (frames_of_sight
          (.found (Nat.not_lt.mp hshort) (hfirst 0 (Nat.succ_pos i)) hnext))).symm

/-- Bytes at which no prefix begins are skipped. -/
theorem frames_skips : ∀ {n : Nat} {bytes : List UInt8},
    (∀ j < n, ¬ klvPrefix <+: bytes.drop j) →
      (klvScanner maxBytes).frames bytes = (klvScanner maxBytes).frames (bytes.drop n)
  | 0, _, _ => rfl
  | n + 1, [], _ => rfl
  | n + 1, byte :: bytes, h => by
    rw [frames_skip (h 0 (Nat.succ_pos n)), drop_succ_cons]
    exact frames_skips fun j hj => h (j + 1) (Nat.succ_lt_succ hj)

theorem prefix_append (h : 17 ≤ buffer.length) (more : List UInt8) :
    klvPrefix <+: buffer ++ more ↔ klvPrefix <+: buffer :=
  Search.prefix_drop_append (i := 0) (by
    rw [Nat.zero_add]
    exact Nat.le_trans (by decide) h)

theorem decodeBer_drop_append (h : 17 ≤ buffer.length) {result : Except BerError (Nat × Nat)}
    (hber : decodeBer (buffer.drop 16) = result) (hshort : result ≠ .error .short)
    (more : List UInt8) : decodeBer ((buffer ++ more).drop 16) = result := by
  rw [drop_append_of_le_length (by omega)]
  cases hdrop : buffer.drop 16 with
  | nil =>
    rw [drop_eq_nil_iff] at hdrop
    omega
  | cons first data =>
    rw [hdrop] at hber
    exact decodeBer_append hber hshort more

/-- The parser is steady. -/
theorem klvScanner_steady (maxBytes : Int) : (klvScanner maxBytes).Steady where
  drop := by
    intro buffer rest hlook more
    have hsight := klvSight maxBytes buffer
    rw [show klvLook maxBytes buffer = .drop rest from hlook] at hsight
    have hlonger : (buffer ++ more).length = buffer.length + more.length := length_append
    cases hsight with
    | @found h hkey i hfind =>
      have hdrop : ((buffer ++ more).drop 1) = buffer.drop 1 ++ more :=
        drop_append_of_le_length (by omega)
      have hfound : Search.find? klvPrefix ((buffer ++ more).drop 1) = some i := by
        rw [hdrop]
        exact Search.find?_append hfind more
      obtain ⟨hle, -, -⟩ := Search.find?_eq_some_iff.mp hfind
      rw [length_drop] at hle
      rw [← drop_append_of_le_length (by omega)]
      exact frames_of_sight (.found (by omega) (mt (prefix_append h more).mp hkey) hfound)
    | badLength h hkey hber hshort =>
      rw [← drop_append_of_le_length (by omega)]
      exact frames_of_sight (.badLength (by omega) ((prefix_append h more).mpr hkey)
        (decodeBer_drop_append h hber (fun heq => hshort (Except.error.inj heq)) more) hshort)
    | tooLong h hkey hber hmax =>
      rw [← drop_append_of_le_length (by omega)]
      exact frames_of_sight (.tooLong (by omega) ((prefix_append h more).mpr hkey)
        (decodeBer_drop_append h hber (fun heq => by cases heq) more) hmax)
  frame := by
    intro buffer rest value hlook more
    have hsight := klvSight maxBytes buffer
    rw [show klvLook maxBytes buffer = .frame value rest from hlook] at hsight
    have hlonger : (buffer ++ more).length = buffer.length + more.length := length_append
    cases hsight with
    | packet h hkey hber hmax hlen =>
      rw [← drop_append_of_le_length hlen,
        ← @take_append_of_le_length _ buffer more 16 (by omega),
        ← @take_append_of_le_length _ buffer more _ hlen]
      exact frames_of_sight (.packet (by omega) ((prefix_append h more).mpr hkey)
        (decodeBer_drop_append h hber (fun heq => by cases heq) more) hmax (by omega))
  wait := by
    intro buffer rest hlook more
    have hsight := klvSight maxBytes buffer
    rw [show klvLook maxBytes buffer = .wait rest from hlook] at hsight
    cases hsight with
    | short h => rfl
    | shortLength h hkey hber => rfl
    | shortValue h hkey hber hmax hlen => rfl
    | junk h hkey hfind =>
      -- a prefix that begins before the last three bytes would lie in the buffer
      rw [← drop_append_of_le_length (by omega)]
      refine (frames_skips fun j hj => ?_).symm
      cases j with
      | zero => exact mt (prefix_append h more).mp hkey
      | succ j =>
        have hwindow : j + klvPrefix.length ≤ (buffer.drop 1).length := by
          rw [length_drop, show klvPrefix.length = 4 from rfl]
          omega
        have hnot : ¬ klvPrefix <+: (buffer.drop 1 ++ more).drop j :=
          Search.not_prefix_drop_append hfind hwindow
        rwa [← drop_append_of_le_length (by omega), drop_drop, Nat.add_comm] at hnot

/-- The packets do not depend on how the stream is cut. -/
theorem parseKlvPackets_eq {reads : List (List UInt8)} (h : ∀ chunk ∈ reads, chunk ≠ []) :
    parseKlvPackets maxBytes reads = (klvScanner maxBytes).frames reads.flatten := by
  have hall : reads.takeWhile (fun chunk => !chunk.isEmpty) = reads := by
    refine takeWhile_eq_self_iff.mpr fun chunk hchunk => ?_
    simp [h chunk hchunk]
  rw [parseKlvPackets, hall, (klvScanner_steady maxBytes).feed]

/-! ## Encoded packets -/

/-- A packet as it goes out: the key, `_4609_encode_ber` of the length, and the value. -/
def encodePacket (packet : KlvPacket) : Except String (List UInt8) :=
  (encodeBer packet.2.length).map fun ber => packet.1 ++ (ber ++ packet.2)

def encodePackets : List KlvPacket → Except String (List UInt8)
  | [] => .ok []
  | packet :: packets => do
      let front ← encodePacket packet
      let rest ← encodePackets packets
      return front ++ rest

/-- A packet that the parser takes.  The length of a Python `bytes` is below `2 ^ 63`. -/
structure Sendable (maxBytes : Int) (packet : KlvPacket) : Prop where
  key : packet.1.length = 16
  starts : klvPrefix <+: packet.1
  fits : (packet.2.length : Int) ≤ maxBytes
  size : packet.2.length < 2 ^ 63

/-- An encoded packet at the front of a buffer is cut off. -/
theorem frames_encodePacket {packet : KlvPacket} (h : Sendable maxBytes packet) :
    ∃ bytes, encodePacket packet = .ok bytes ∧ ∀ more,
      (klvScanner maxBytes).frames (bytes ++ more) =
        packet :: (klvScanner maxBytes).frames more := by
  obtain ⟨key, value⟩ := packet
  obtain ⟨hkey, hstarts, hfits, hsize⟩ := h
  dsimp only at hkey hstarts hfits hsize
  obtain ⟨ber, hber, hne, hdecode⟩ := decodeBer_encodeBer (n := value.length) (by omega)
  refine ⟨key ++ (ber ++ value), ?_, fun more => ?_⟩
  · rw [encodePacket, hber]
    rfl
  · have hpos : 0 < ber.length := List.length_pos_iff.mpr hne
    have hlength : (key ++ (ber ++ value) ++ more).length =
        16 + ber.length + value.length + more.length := by
      simp only [List.length_append, hkey]
      omega
    have hlong : 17 ≤ (key ++ (ber ++ value) ++ more).length := by omega
    have hprefix : klvPrefix <+: key ++ (ber ++ value) ++ more := by
      rw [List.append_assoc]
      exact hstarts.trans (List.prefix_append _ _)
    have hdrop : (key ++ (ber ++ value) ++ more).drop 16 = ber ++ (value ++ more) := by
      rw [← hkey, List.append_assoc, List.drop_left, List.append_assoc]
    have hread : decodeBer ((key ++ (ber ++ value) ++ more).drop 16) =
        .ok (value.length, ber.length) := by
      rw [hdrop]
      exact hdecode _
    have hlook := frames_of_sight (.packet hlong hprefix hread (Int.not_lt.mpr hfits) (by omega))
    have htotal : (key ++ (ber ++ value)).length = 16 + ber.length + value.length := by
      simp only [List.length_append, hkey]
      omega
    have hhead : (key ++ ber).length = 16 + ber.length := by
      rw [List.length_append, hkey]
    rw [Scanner.frames_frame hlook, ← htotal, List.take_left, List.drop_left, ← hhead,
      ← List.append_assoc key ber value, List.drop_left]
    have htake : (key ++ ber ++ value ++ more).take 16 = key := by
      rw [← hkey, List.append_assoc, List.append_assoc, List.take_left]
    rw [htake]

theorem frames_encodePackets : ∀ {packets : List KlvPacket},
    (∀ packet ∈ packets, Sendable maxBytes packet) →
      ∃ bytes, encodePackets packets = .ok bytes ∧ (klvScanner maxBytes).frames bytes = packets ∧
        ∀ packet ∈ packets.head?, packet.1 <+: bytes
  | [], _ => ⟨[], rfl, Scanner.frames_nil, fun packet h => by cases h⟩
  | packet :: packets, h => by
    obtain ⟨front, hfront, hcut⟩ := frames_encodePacket (h packet List.mem_cons_self)
    obtain ⟨rest, hrest, hframes, -⟩ :=
      frames_encodePackets fun packet hp => h packet (List.mem_cons_of_mem _ hp)
    refine ⟨front ++ rest, ?_, ?_, ?_⟩
    · rw [encodePackets, hfront, hrest]
      rfl
    · rw [hcut, hframes]
    · intro first hfirst
      obtain rfl := Option.some.inj hfirst
      rw [encodePacket] at hfront
      cases hber : encodeBer packet.2.length with
      | error e =>
        rw [hber] at hfront
        cases hfront
      | ok ber =>
        rw [hber] at hfront
        obtain rfl := Except.ok.inj hfront
        exact (List.prefix_append _ _).trans (List.prefix_append _ _)

/-- The packets of a stream are the same for every way of cutting it into chunks that are not
empty.  A list of packets is read back as it was encoded, behind bytes in which no prefix begins
before the first key. -/
theorem parseKlvPackets_chunks (maxBytes : Int) :
    (∀ (stream : List UInt8) (reads : List (List UInt8)), (∀ chunk ∈ reads, chunk ≠ []) →
      reads.flatten = stream → parseKlvPackets maxBytes reads = parseKlvPackets maxBytes [stream]) ∧
    ∀ (junk : List UInt8) (packets : List KlvPacket),
      (∀ packet ∈ packets, Sendable maxBytes packet) →
      (∀ j < junk.length, ¬ klvPrefix <+: (junk ++ (packets.head?.map Prod.fst).getD []).drop j) →
      ∃ bytes, encodePackets packets = .ok bytes ∧
        ∀ reads : List (List UInt8), (∀ chunk ∈ reads, chunk ≠ []) →
          reads.flatten = junk ++ bytes → parseKlvPackets maxBytes reads = packets := by
  constructor
  · intro stream reads hreads hflatten
    rw [parseKlvPackets_eq hreads, hflatten]
    cases stream with
    | nil => exact Scanner.frames_nil
    | cons byte bytes =>
      have hone : ∀ chunk ∈ [byte :: bytes], chunk ≠ [] := by simp
      rw [parseKlvPackets_eq hone, List.flatten_singleton]
  · intro junk packets hpackets hjunk
    obtain ⟨bytes, hbytes, hframes, hhead⟩ := frames_encodePackets hpackets
    refine ⟨bytes, hbytes, fun reads hreads hflatten => ?_⟩
    have hskip : ∀ j < junk.length, ¬ klvPrefix <+: (junk ++ bytes).drop j := by
      intro j hj hprefix
      cases packets with
      | nil =>
        obtain rfl : [] = bytes := Except.ok.inj hbytes
        exact hjunk j hj hprefix
      | cons packet packets =>
        obtain ⟨rest, rfl⟩ := hhead packet rfl
        have hkey := (hpackets packet List.mem_cons_self).key
        rw [← List.append_assoc] at hprefix
        refine hjunk j hj ((Search.prefix_drop_append ?_).mp hprefix)
        rw [List.length_append]
        show j + 4 ≤ junk.length + packet.1.length
        omega
    rw [parseKlvPackets_eq hreads, hflatten, frames_skips hskip, List.drop_left, hframes]

/-- A packet of one byte behind a byte of junk, cut in the key, in the length and in the value. -/
theorem parseKlvPackets_chunks_cut :
    ∃ bytes, encodePackets [(klvPrefix ++ List.replicate 12 1, [7])] = .ok bytes ∧
      parseKlvPackets 4 [[9, 6], (bytes.drop 1).take 15, (bytes.drop 16).take 1, bytes.drop 17] =
        [(klvPrefix ++ List.replicate 12 1, [7])] := by
  obtain ⟨bytes, hbytes, hparse⟩ := (parseKlvPackets_chunks 4).2 [9]
    [(klvPrefix ++ List.replicate 12 1, [7])]
    (fun packet hpacket => by
      rw [List.mem_singleton.mp hpacket]
      exact ⟨by decide, by decide, by decide, by decide⟩)
    (by decide)
  obtain rfl := Except.ok.inj hbytes
  exact ⟨_, rfl, hparse _ (by decide) (by decide)⟩

end Efdi.Stanag
