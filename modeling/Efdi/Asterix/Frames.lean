import Efdi.Base.BigEndian
import Efdi.Base.Checks
import Efdi.Base.Prefix

/-!
# ASTERIX framers

The framers of `udp_ingress_bridge.py`, `gateway.py` and `track_views.py`.  Each category of
`cat.py` carries its own copy of the gateway's framers; the copies differ in the statistics
label only, which is not modelled.

An offset into a datagram is modelled by the bytes that are left, and a TCP socket by the
chunks that its `recv` calls find.  All framers are compared with one code (`blockCode`): a
block is a category, two bytes of length and a payload of that length.  Each framer cuts the
same blocks off the same bytes (`framers_agree`).
-/

namespace Efdi.Asterix

open Checks SelfDelimiting List Prod

/-! ## The framers -/

/-- `MAX_DATAGRAM`, which is also what `iter_frames_udp` receives at most. -/
def MAX_DATAGRAM : Nat := 65535

/-- What `recvfrom(65535)` returns. -/
structure Datagram where
  bytes : List UInt8
  fits : bytes.length ≤ MAX_DATAGRAM

/-- The loop of `split_asterix_datagram` over what is left of the datagram. -/
def splitFrames : List UInt8 → Except String (List (Nat × List UInt8))
  | [] => .ok []
  | category :: hi :: lo :: after =>
    let length := BigEndian.ofBytes [hi, lo]
    if length < 3 then
      .error ("invalid ASTERIX frame length " ++ toString length)
    else if length > 3 + after.length then
      .error "ASTERIX frame length exceeds datagram"
    else do
      let frames ← splitFrames (after.drop (length - 3))
      .ok ((category.toNat, category :: hi :: lo :: after.take (length - 3)) :: frames)
  | _ => .error "trailing bytes shorter than an ASTERIX header"
termination_by datagram => datagram.length
decreasing_by
  simp only [List.length_drop, List.length_cons]
  omega

def splitAsterixDatagram (datagram : List UInt8) : Except String (List (Nat × List UInt8)) := do
  rejectIf datagram.isEmpty "empty datagram"
  splitFrames datagram

/-- The loop of `iter_frames_udp` over what is left of one packet. -/
def packetFrames : List UInt8 → List (Nat × List UInt8)
  | cat :: hi :: lo :: after =>
    let length := BigEndian.ofBytes [hi, lo]
    if length < 3 || length > 3 + after.length then []
    else (cat.toNat, after.take (length - 3)) :: packetFrames (after.drop (length - 3))
  | _ => []
termination_by pkt => pkt.length
decreasing_by
  simp only [List.length_drop, List.length_cons]
  omega

/-- What `iter_frames_udp` yields over the packets that it receives. -/
def iterFramesUdp (pkts : List Datagram) : List (Nat × List UInt8) :=
  pkts.flatMap fun pkt => packetFrames pkt.bytes

/-- A connection that closes after its chunks.  An empty chunk would be the closing itself. -/
structure Socket where
  chunks : List (List UInt8)
  nonempty : ∀ chunk ∈ chunks, chunk ≠ []

/-- The bytes that are still to come. -/
def Socket.bytes (sock : Socket) : List UInt8 := sock.chunks.flatten

/-- `sock.recv(n)`. -/
def Socket.recv (n : Nat) : Socket → List UInt8 × Socket
  | ⟨[], _⟩ => ([], ⟨[], by simp⟩)
  | ⟨chunk :: chunks, h⟩ =>
    if hn : n < chunk.length then
      (chunk.take n, ⟨chunk.drop n :: chunks, by
        intro other hother
        cases hother with
        | head => exact List.ne_nil_of_length_pos (by rw [List.length_drop]; omega)
        | tail _ hother => exact h other (.tail _ hother)⟩)
    else (chunk, ⟨chunks, fun other hother => h other (.tail _ hother)⟩)

/-- `recv_exact`, with the bytes that are still missing for `buf`. -/
def recvExact (n : Nat) (sock : Socket) : Except String (List UInt8 × Socket) :=
  if n = 0 then .ok ([], sock)
  else
    match sock.recv n with
    | ([], _) => .error "connection closed"
    | (byte :: chunk, sock) => do
        let (buf, sock) ← recvExact (n - (chunk.length + 1)) sock
        .ok (byte :: chunk ++ buf, sock)
termination_by n

variable {sock : Socket} {block : Block} {bytes : List UInt8}

/-- `sock.recv` takes bytes off the front, none only at the end of the stream. -/
theorem Socket.recv_spec {n : Nat} {left : Socket} {found : List UInt8}
    (h : sock.recv n = (found, left)) :
    sock.bytes = found ++ left.bytes ∧ found.length ≤ n ∧
      (0 < n → sock.bytes ≠ [] → found ≠ []) := by
  obtain ⟨chunks, hchunks⟩ := sock
  cases chunks with
  | nil =>
    obtain ⟨rfl, rfl⟩ := Prod.mk.inj h
    exact ⟨rfl, Nat.zero_le _, fun _ hne => absurd rfl hne⟩
  | cons chunk chunks =>
    have hchunk : 0 < chunk.length :=
      length_pos_of_ne_nil (hchunks chunk (.head _))
    rw [Socket.recv] at h
    split at h
    next hn =>
      obtain ⟨rfl, rfl⟩ := Prod.mk.inj h
      refine ⟨?_, ?_, fun hpos _ => ?_⟩
      · simp only [Socket.bytes, flatten_cons]
        rw [← append_assoc, take_append_drop]
      · rw [length_take]
        omega
      · exact ne_nil_of_length_pos (by rw [length_take]; omega)
    next hn =>
      obtain ⟨rfl, rfl⟩ := Prod.mk.inj h
      exact ⟨rfl, by omega, fun _ _ => ne_nil_of_length_pos hchunk⟩

/-- `recv_exact` returns the next bytes, however they are cut into chunks. -/
theorem recvExact_of_le : ∀ {n : Nat} {sock : Socket}, n ≤ sock.bytes.length →
    ∃ after : Socket, recvExact n sock = .ok (sock.bytes.take n, after) ∧
      after.bytes = sock.bytes.drop n
  | 0, sock, _ => ⟨sock, by rw [recvExact]; rfl, rfl⟩
  | n + 1, sock, h => by
    have hne : sock.bytes ≠ [] := ne_nil_of_length_pos (by omega)
    rw [recvExact, if_neg (Nat.succ_ne_zero n)]
    cases hrecv : sock.recv (n + 1) with
    | mk found left =>
      obtain ⟨hbytes, hlength, hsome⟩ := Socket.recv_spec hrecv
      cases found with
      | nil => exact absurd rfl (hsome (Nat.succ_pos n) hne)
      | cons byte chunk =>
        rw [length_cons] at hlength
        have hrest : n + 1 - (chunk.length + 1) ≤ left.bytes.length := by
          rw [hbytes, length_append, length_cons] at h
          omega
        obtain ⟨after, hexact, hafter⟩ := recvExact_of_le hrest
        have hcut : (byte :: chunk).length ≤ n + 1 := hlength
        refine ⟨after, ?_, ?_⟩
        · simp only [hexact]
          rw [hbytes, take_append, take_of_length_le hcut]
          rfl
        · rw [hafter, hbytes, drop_append, drop_of_length_le hcut]
          rfl
termination_by n => n

/-- A stream that ends too soon raises. -/
theorem recvExact_of_gt : ∀ {n : Nat} {sock : Socket}, sock.bytes.length < n →
    recvExact n sock = .error "connection closed"
  | 0, sock, h => absurd h (Nat.not_lt_zero _)
  | n + 1, sock, h => by
    rw [recvExact, if_neg (Nat.succ_ne_zero n)]
    cases hrecv : sock.recv (n + 1) with
    | mk found left =>
      obtain ⟨hbytes, hlength, -⟩ := Socket.recv_spec hrecv
      cases found with
      | nil => rfl
      | cons byte chunk =>
        have hrest : left.bytes.length < n + 1 - (chunk.length + 1) := by
          rw [hbytes, length_append, length_cons] at h
          omega
        simp only [recvExact_of_gt hrest]
        rfl
termination_by n => n

theorem recvExact_bytes {n : Nat} {after : Socket} {data : List UInt8}
    (h : recvExact n sock = .ok (data, after)) :
    data = sock.bytes.take n ∧ after.bytes = sock.bytes.drop n ∧ n ≤ sock.bytes.length := by
  rcases Nat.lt_or_ge sock.bytes.length n with hlt | hle
  · rw [recvExact_of_gt hlt] at h
    cases h
  · obtain ⟨after', hexact, hafter⟩ := recvExact_of_le hle
    rw [hexact] at h
    obtain ⟨rfl, rfl⟩ := mk.inj (Except.ok.inj h)
    exact ⟨rfl, hafter, hle⟩

/-- What `iter_frames_tcp` yields, and the message of the exception that ends it. -/
def iterFramesTcp (sock : Socket) : List (Nat × List UInt8) × String :=
  match hheader : recvExact 3 sock with
  | .error closed => ([], closed)
  | .ok (header, sock') =>
    let cat := (header.headD 0).toNat
    let length := BigEndian.ofBytes ((header.drop 1).take 2)
    if length < 3 then ([], "invalid ASTERIX frame length: " ++ toString length)
    else
      match hdata : recvExact (length - 3) sock' with
      | .error closed => ([], closed)
      | .ok (data, sock'') =>
        let yielded := iterFramesTcp sock''
        ((cat, data) :: yielded.1, yielded.2)
termination_by sock.bytes.length
decreasing_by
  obtain ⟨-, hsock', hle⟩ := recvExact_bytes hheader
  obtain ⟨-, hsock'', -⟩ := recvExact_bytes hdata
  rw [hsock'', hsock', List.length_drop, List.length_drop]
  omega

def rawFramePayload (frame : List UInt8) (expectedCategory : Nat) : Except String (List UInt8) := do
  rejectIf (decide (frame.length < 3)) "raw ASTERIX frame is shorter than its header"
  let category := (frame.headD 0).toNat
  let length := BigEndian.ofBytes ((frame.drop 1).take 2)
  rejectIf (category != expectedCategory)
    ("expected CAT-" ++ toString expectedCategory ++ ", received CAT-" ++ toString category)
  rejectIf (length != frame.length) "ASTERIX header length does not match raw publication"
  .ok (frame.drop 3)

def asterixDataBlock (category : Int) (record : List UInt8) : Except String (List UInt8) := do
  let total := 3 + record.length
  rejectIf (!(decide (0 ≤ category) && decide (category ≤ 255)) || decide (total > 0xFFFF))
    "ASTERIX record does not fit a data block header"
  .ok (UInt8.ofNat category.toNat :: BigEndian.toBytes 2 total ++ record)

/-! ## Blocks -/

/-- A category and a payload that fits the two-byte length. -/
structure Block where
  category : UInt8
  payload : List UInt8
  fits : 3 + payload.length ≤ 0xFFFF

/-- The block on the wire. -/
def Block.frame (block : Block) : List UInt8 :=
  block.category :: BigEndian.toBytes 2 (3 + block.payload.length) ++ block.payload

/-- What a framer yields for a block. -/
def Block.yielded (block : Block) : Nat × List UInt8 := (block.category.toNat, block.payload)

@[ext] theorem Block.ext {block' : Block} (hcategory : block.category = block'.category)
    (hpayload : block.payload = block'.payload) : block = block' := by
  cases block
  cases block'
  simp_all

theorem ofBytes_pair (hi lo : UInt8) :
    BigEndian.ofBytes [hi, lo] = 256 * hi.toNat + lo.toNat := by
  simp [BigEndian.ofBytes]

theorem ofBytes_pair_le (hi lo : UInt8) : BigEndian.ofBytes [hi, lo] ≤ 0xFFFF := by
  have hhi : hi.toNat < 256 := hi.toNat_lt
  have hlo : lo.toNat < 256 := lo.toNat_lt
  rw [ofBytes_pair]
  omega

theorem toBytes_ofBytes_pair (hi lo : UInt8) :
    BigEndian.toBytes 2 (BigEndian.ofBytes [hi, lo]) = [hi, lo] := by
  have hhi : hi.toNat < 256 := hi.toNat_lt
  have hlo : lo.toNat < 256 := lo.toNat_lt
  have hhigh : (256 * hi.toNat + lo.toNat) / 256 % 256 = hi.toNat := by omega
  have hlow : (256 * hi.toNat + lo.toNat) % 256 = lo.toNat := by omega
  rw [ofBytes_pair]
  simp [BigEndian.toBytes, hhigh, hlow]

theorem toBytes_two (n : Nat) :
    BigEndian.toBytes 2 n = [UInt8.ofNat (n / 256 % 256), UInt8.ofNat (n % 256)] := rfl

theorem ofBytes_toBytes_length (block : Block) :
    BigEndian.ofBytes (BigEndian.toBytes 2 (3 + block.payload.length)) =
      3 + block.payload.length :=
  BigEndian.ofBytes_toBytes (Nat.lt_succ_of_le block.fits)

/-- The block at the front of some bytes. -/
def nextBlock? : List UInt8 → Option (Block × List UInt8)
  | category :: hi :: lo :: after =>
    if h : 3 ≤ BigEndian.ofBytes [hi, lo] ∧ BigEndian.ofBytes [hi, lo] ≤ 3 + after.length then
      some (⟨category, after.take (BigEndian.ofBytes [hi, lo] - 3), by
        have hpair := ofBytes_pair_le hi lo
        rw [List.length_take]
        omega⟩, after.drop (BigEndian.ofBytes [hi, lo] - 3))
    else none
  | _ => none

theorem nextBlock?_frame (block : Block) (rest : List UInt8) :
    nextBlock? (block.frame ++ rest) = some (block, rest) := by
  have hlength := ofBytes_toBytes_length block
  rw [toBytes_two] at hlength
  simp only [Block.frame, toBytes_two, cons_append, nil_append, nextBlock?, hlength]
  rw [dif_pos ⟨Nat.le_add_right .., by rw [length_append]; omega⟩]
  simp

theorem nextBlock?_eq_some {stream rest : List UInt8} :
    nextBlock? stream = some (block, rest) ↔ stream = block.frame ++ rest := by
  refine ⟨fun h => ?_, fun h => by rw [h, nextBlock?_frame]⟩
  unfold nextBlock? at h
  split at h
  next category hi lo after =>
    split at h
    next hlength =>
      obtain ⟨rfl, rfl⟩ := mk.inj (Option.some.inj h)
      obtain ⟨hlow, hhigh⟩ := hlength
      have htotal : 3 + (BigEndian.ofBytes [hi, lo] - 3) = BigEndian.ofBytes [hi, lo] := by omega
      have htake : min (BigEndian.ofBytes [hi, lo] - 3) after.length =
          BigEndian.ofBytes [hi, lo] - 3 := by omega
      simp [Block.frame, htake, htotal, toBytes_ofBytes_pair]
    next => cases h
  next => cases h

/-- Blocks one after the other. -/
def blockCode : Code UInt8 Block where
  render := Block.frame
  next? := nextBlock?
  next?_eq_some := nextBlock?_eq_some
  render_ne_nil := fun _ => List.cons_ne_nil _ _

/-- The front of some bytes: nothing, too little for a header, a length that does not fit, or
a block. -/
inductive Front : List UInt8 → Prop where
  | nil : Front []
  | short {byte : UInt8} {bytes : List UInt8} (h : bytes.length < 2) : Front (byte :: bytes)
  | low {category hi lo : UInt8} {after : List UInt8} (h : BigEndian.ofBytes [hi, lo] < 3) :
      Front (category :: hi :: lo :: after)
  | long {category hi lo : UInt8} {after : List UInt8} (hlow : 3 ≤ BigEndian.ofBytes [hi, lo])
      (h : 3 + after.length < BigEndian.ofBytes [hi, lo]) : Front (category :: hi :: lo :: after)
  | block (block : Block) (rest : List UInt8) : Front (block.frame ++ rest)

theorem front : ∀ bytes : List UInt8, Front bytes
  | [] => .nil
  | [_] => .short (Nat.succ_pos 1)
  | [_, _] => .short (Nat.lt_succ_self 1)
  | category :: hi :: lo :: after => by
    cases hnext : nextBlock? (category :: hi :: lo :: after) with
    | some found =>
      rw [nextBlock?_eq_some.mp hnext]
      exact .block found.1 found.2
    | none =>
      simp only [nextBlock?, dite_eq_right_iff, reduceCtorEq, imp_false] at hnext
      rcases Nat.lt_or_ge (BigEndian.ofBytes [hi, lo]) 3 with hlow | hlow
      · exact .low hlow
      · exact .long hlow (by omega)

/-! ## What each framer cuts off -/

theorem splitFrames_frame (block : Block) (rest : List UInt8) :
    splitFrames (block.frame ++ rest) =
      (splitFrames rest).map ((block.category.toNat, block.frame) :: ·) := by
  have hlength := ofBytes_toBytes_length block
  rw [toBytes_two] at hlength
  simp only [Block.frame, toBytes_two, cons_append, nil_append]
  rw [splitFrames]
  simp only [hlength, length_append, Nat.add_sub_cancel_left, take_left, drop_left]
  rw [if_neg (by omega), if_neg (by omega)]
  cases splitFrames rest <;> rfl

/-- `split_asterix_datagram` fails where no block begins. -/
theorem splitFrames_stuck (hne : bytes ≠ []) (h : nextBlock? bytes = none) :
    ∃ e, splitFrames bytes = .error e := by
  cases front bytes with
  | nil => exact absurd rfl hne
  | @short byte bytes hshort =>
    rcases bytes with _ | ⟨byte', _ | ⟨byte'', bytes⟩⟩
    · exact ⟨_, by rw [splitFrames] <;> simp⟩
    · exact ⟨_, by rw [splitFrames] <;> simp⟩
    · simp only [length_cons] at hshort
      omega
  | low hlow =>
    rw [splitFrames]
    exact ⟨_, if_pos hlow⟩
  | long hlow hlong =>
    rw [splitFrames]
    exact ⟨_, by rw [if_neg (Nat.not_lt.mpr hlow), if_pos hlong]⟩
  | block block rest =>
    rw [nextBlock?_frame] at h
    cases h

theorem splitFrames_stream (blocks : List Block) :
    splitFrames (blockCode.stream blocks) =
      .ok (blocks.map fun block => (block.category.toNat, block.frame)) := by
  induction blocks with
  | nil =>
    rw [Code.stream_nil, splitFrames]
    rfl
  | cons block blocks ih =>
    rw [Code.stream_cons]
    show splitFrames (block.frame ++ _) = _
    rw [splitFrames_frame, ih]
    rfl

/-- `split_asterix_datagram` splits the concatenations of blocks, and nothing else. -/
theorem blocks_of_splitFrames : ∀ {frames : List (Nat × List UInt8)},
    splitFrames bytes = .ok frames → ∃ blocks : List Block, bytes = blockCode.stream blocks := by
  induction bytes using blockCode.induction with
  | stuck bytes hnext =>
    intro frames h
    cases bytes with
    | nil => exact ⟨[], rfl⟩
    | cons byte bytes =>
      obtain ⟨e, he⟩ := splitFrames_stuck (cons_ne_nil byte bytes) hnext
      rw [he] at h
      cases h
  | word block rest ih =>
    intro frames h
    have hsplit : splitFrames (block.frame ++ rest) = .ok frames := h
    rw [splitFrames_frame] at hsplit
    cases hrest : splitFrames rest with
    | error e =>
      rw [hrest] at hsplit
      cases hsplit
    | ok others =>
      obtain ⟨blocks, rfl⟩ := ih hrest
      exact ⟨block :: blocks, rfl⟩

/-- `iter_frames_udp` yields the blocks that can be cut off the packet. -/
theorem packetFrames_eq (bytes : List UInt8) :
    packetFrames bytes = (blockCode.cut bytes).1.map Block.yielded := by
  induction bytes using blockCode.induction with
  | stuck bytes hnext =>
    rw [blockCode.cut_none hnext]
    cases front bytes with
    | nil => rw [packetFrames] <;> simp
    | @short byte bytes hshort =>
      rcases bytes with _ | ⟨byte', _ | ⟨byte'', bytes⟩⟩
      · rw [packetFrames] <;> simp
      · rw [packetFrames] <;> simp
      · simp only [length_cons] at hshort
        omega
    | low hlow =>
      rw [packetFrames]
      simp only [decide_eq_true hlow, Bool.true_or, if_pos, map_nil]
    | long hlow hlong =>
      rw [packetFrames]
      simp only [gt_iff_lt, decide_eq_true hlong, Bool.or_true, if_pos, map_nil]
    | block block rest =>
      have hsome : blockCode.next? (block.frame ++ rest) = some (block, rest) :=
        blockCode.next?_append block rest
      rw [hnext] at hsome
      cases hsome
  | word block rest ih =>
    have hlength := ofBytes_toBytes_length block
    rw [toBytes_two] at hlength
    rw [blockCode.cut_some (blockCode.next?_append block rest), map_cons, ← ih]
    show packetFrames (block.frame ++ rest) = _
    simp only [Block.frame, toBytes_two, cons_append, nil_append]
    rw [packetFrames]
    simp only [hlength, length_append, Nat.add_sub_cancel_left, take_left,
      drop_left]
    rw [if_neg (by simp), Block.yielded]

theorem iterFramesTcp_closed (h : sock.bytes.length < 3) :
    (iterFramesTcp sock).1 = [] := by
  rw [iterFramesTcp]
  split
  next => rfl
  next header sock' hheader =>
    rw [recvExact_of_gt h] at hheader
    cases hheader

/-- A header whose length is too small, or runs past the end of the stream. -/
theorem iterFramesTcp_stuck {cat hi lo : UInt8} {after : List UInt8}
    (hbytes : sock.bytes = cat :: hi :: lo :: after)
    (h : BigEndian.ofBytes [hi, lo] < 3 ∨ 3 + after.length < BigEndian.ofBytes [hi, lo]) :
    (iterFramesTcp sock).1 = [] := by
  rw [iterFramesTcp]
  split
  next => rfl
  next header sock' hheader =>
    obtain ⟨rfl, hsock', -⟩ := recvExact_bytes hheader
    rw [hbytes] at hsock' ⊢
    simp only [take_succ_cons, take_zero, drop_succ_cons, drop_zero,
      headD_cons] at hsock' ⊢
    split
    next => rfl
    next hlow =>
      split
      next => rfl
      next data sock'' hdata =>
        have hshort : sock'.bytes.length < BigEndian.ofBytes [hi, lo] - 3 := by
          rw [hsock']
          omega
        simp only [drop_succ_cons, drop_zero, take_succ_cons, take_zero,
          recvExact_of_gt hshort, reduceCtorEq] at hdata

theorem iterFramesTcp_frame {rest : List UInt8} (hbytes : sock.bytes = block.frame ++ rest) :
    ∃ after : Socket, after.bytes = rest ∧
      (iterFramesTcp sock).1 = block.yielded :: (iterFramesTcp after).1 := by
  have hlength := ofBytes_toBytes_length block
  rw [toBytes_two] at hlength
  simp only [Block.frame, toBytes_two, cons_append, nil_append] at hbytes
  have hheaderLe : 3 ≤ sock.bytes.length := by
    rw [hbytes]
    simp only [length_cons]
    omega
  obtain ⟨sock', hheader, hsock'⟩ := recvExact_of_le hheaderLe
  rw [hbytes] at hheader hsock'
  simp only [take_succ_cons, take_zero, drop_succ_cons, drop_zero]
    at hheader hsock'
  have hdataLe : 3 + block.payload.length - 3 ≤ sock'.bytes.length := by
    rw [hsock', length_append]
    omega
  obtain ⟨after, hdata, hafter⟩ := recvExact_of_le hdataLe
  rw [hsock', Nat.add_sub_cancel_left, take_left] at hdata
  rw [hsock', Nat.add_sub_cancel_left, drop_left] at hafter
  refine ⟨after, hafter, ?_⟩
  rw [iterFramesTcp]
  split
  next e herror =>
    rw [hheader] at herror
    cases herror
  next header left hok =>
    rw [hheader] at hok
    obtain ⟨rfl, rfl⟩ := mk.inj (Except.ok.inj hok)
    simp only [drop_succ_cons, drop_zero, take_succ_cons, take_zero,
      headD_cons, hlength]
    rw [if_neg (by omega)]
    split
    next e herror =>
      simp only [drop_succ_cons, drop_zero, take_succ_cons, take_zero,
        hlength, Nat.add_sub_cancel_left, hdata, reduceCtorEq] at herror
    next data left hok =>
      simp only [drop_succ_cons, drop_zero, take_succ_cons, take_zero,
        hlength, Nat.add_sub_cancel_left, hdata] at hok
      obtain ⟨rfl, rfl⟩ := mk.inj (Except.ok.inj hok)
      rfl

/-- `iter_frames_tcp` yields the blocks that can be cut off the stream, however it is cut into
chunks. -/
theorem iterFramesTcp_eq (bytes : List UInt8) : ∀ sock : Socket, sock.bytes = bytes →
    (iterFramesTcp sock).1 = (blockCode.cut bytes).1.map Block.yielded := by
  induction bytes using blockCode.induction with
  | stuck bytes hnext =>
    intro sock hsock
    rw [blockCode.cut_none hnext, map_nil]
    cases front bytes with
    | nil => exact iterFramesTcp_closed (by rw [hsock]; exact Nat.succ_pos 2)
    | short hshort =>
      exact iterFramesTcp_closed (by rw [hsock, length_cons]; omega)
    | low hlow => exact iterFramesTcp_stuck hsock (.inl hlow)
    | long hlow hlong => exact iterFramesTcp_stuck hsock (.inr hlong)
    | block block rest =>
      have hsome : blockCode.next? (block.frame ++ rest) = some (block, rest) :=
        blockCode.next?_append block rest
      rw [hnext] at hsome
      cases hsome
  | word block rest ih =>
    intro sock hsock
    obtain ⟨after, hafter, hyielded⟩ := iterFramesTcp_frame hsock
    rw [hyielded, ih after hafter, blockCode.cut_some (blockCode.next?_append block rest),
      map_cons]

theorem rawFramePayload_frame (block : Block) :
    rawFramePayload block.frame block.category.toNat = .ok block.payload := by
  have hlength := ofBytes_toBytes_length block
  rw [toBytes_two] at hlength
  have htotal : (BigEndian.ofBytes [UInt8.ofNat ((3 + block.payload.length) / 256 % 256),
      UInt8.ofNat ((3 + block.payload.length) % 256)] != block.payload.length + 1 + 1 + 1) =
      false := by
    rw [hlength, bne_eq_false_iff_eq]
    omega
  have hheader : ¬ block.payload.length + 1 + 1 + 1 < 3 := by omega
  simp [rawFramePayload, Block.frame, toBytes_two, htotal, hheader]
  rfl

theorem asterixDataBlock_frame (block : Block) :
    asterixDataBlock block.category.toNat block.payload = .ok block.frame := by
  have hcategory : ((block.category.toNat : Nat) : Int) ≤ 255 := by
    have hlt : block.category.toNat < 256 := block.category.toNat_lt
    omega
  have htotal : ¬ 3 + block.payload.length > 0xFFFF := Nat.not_lt.mpr block.fits
  simp only [asterixDataBlock, decide_eq_true hcategory, decide_eq_true (Int.natCast_nonneg _),
    Bool.and_self, Bool.not_true, decide_eq_false htotal, Bool.or_self, rejectIf_false,
    Int.toNat_natCast, UInt8.ofNat_toNat]
  rfl

/-! ## The framers agree -/

/-- A block as the standard has it: the two bytes behind the category hold the length of the
whole, which is at least the three bytes of the header. -/
def IsBlock (frame : List UInt8) : Prop :=
  ∃ (category hi lo : UInt8) (payload : List UInt8), frame = category :: hi :: lo :: payload ∧
    3 ≤ BigEndian.ofBytes [hi, lo] ∧ BigEndian.ofBytes [hi, lo] = frame.length

theorem isBlock_iff {frame : List UInt8} : IsBlock frame ↔ ∃ block : Block, block.frame = frame := by
  constructor
  · rintro ⟨category, hi, lo, payload, rfl, -, hlength⟩
    have hfits := ofBytes_pair_le hi lo
    simp only [length_cons] at hlength
    refine ⟨⟨category, payload, by omega⟩, ?_⟩
    have htotal : 3 + payload.length = BigEndian.ofBytes [hi, lo] := by omega
    simp only [Block.frame, htotal, toBytes_ofBytes_pair, cons_append, nil_append]
  · rintro ⟨block, rfl⟩
    have hlength := ofBytes_toBytes_length block
    rw [toBytes_two] at hlength
    refine ⟨_, _, _, block.payload, rfl, ?_, ?_⟩
    · rw [hlength]
      omega
    · simp only [hlength, Block.frame, toBytes_two, length_append, length_cons,
        length_nil]

/-- Frames that are blocks are the frames of blocks. -/
theorem exists_blocks : ∀ {frames : List (List UInt8)}, (∀ frame ∈ frames, IsBlock frame) →
    ∃ blocks : List Block, frames = blocks.map Block.frame
  | [], _ => ⟨[], rfl⟩
  | frame :: frames, h => by
    obtain ⟨block, hblock⟩ := isBlock_iff.mp (h frame (.head _))
    obtain ⟨blocks, hblocks⟩ := exists_blocks fun f hf => h f (.tail _ hf)
    exact ⟨block :: blocks, by rw [map_cons, hblock, ← hblocks]⟩

theorem flatten_frames (blocks : List Block) :
    (blocks.map Block.frame).flatten = blockCode.stream blocks := by
  rw [Code.stream, flatMap_def]
  rfl

theorem isBlock_frames (blocks : List Block) : ∀ frame ∈ blocks.map Block.frame, IsBlock frame := by
  intro frame hframe
  obtain ⟨block, -, rfl⟩ := mem_map.mp hframe
  exact isBlock_iff.mpr ⟨block, rfl⟩

theorem splitAsterixDatagram_eq_ok {frames : List (Nat × List UInt8)} :
    splitAsterixDatagram bytes = .ok frames ↔ bytes ≠ [] ∧ splitFrames bytes = .ok frames := by
  cases bytes with
  | nil => simp [splitAsterixDatagram, bind_eq_ok]
  | cons byte bytes => simp [splitAsterixDatagram, bind_eq_ok]

theorem iterFramesUdp_one (datagram : Datagram) :
    iterFramesUdp [datagram] = (blockCode.cut datagram.bytes).1.map Block.yielded := by
  rw [iterFramesUdp, flatMap_cons, flatMap_nil, append_nil, packetFrames_eq]

/-- The framers cut the same blocks off the same bytes, `asterix_data_block` puts each back
together, and what `iter_frames_udp` yields of a datagram with a bad tail are the blocks of the
longest prefix that consists of blocks. -/
theorem framers_agree (datagram : Datagram) :
    ((∃ frames, splitAsterixDatagram datagram.bytes = .ok frames) ↔
      datagram.bytes ≠ [] ∧ ∃ blocks : List (List UInt8),
        (∀ block ∈ blocks, IsBlock block) ∧ blocks.flatten = datagram.bytes) ∧
    (∀ frames, splitAsterixDatagram datagram.bytes = .ok frames →
      (frames.map Prod.snd).flatten = datagram.bytes ∧
      iterFramesUdp [datagram] = frames.map (fun frame => (frame.1, frame.2.drop 3)) ∧
      (∀ sock : Socket, sock.bytes = datagram.bytes →
        (iterFramesTcp sock).1 = iterFramesUdp [datagram]) ∧
      ∀ frame ∈ frames, rawFramePayload frame.2 frame.1 = .ok (frame.2.drop 3) ∧
        asterixDataBlock frame.1 (frame.2.drop 3) = .ok frame.2) ∧
    ∃ blocks : List (List UInt8), (∀ block ∈ blocks, IsBlock block) ∧
      blocks.flatten <+: datagram.bytes ∧
      (∀ others : List (List UInt8), (∀ block ∈ others, IsBlock block) →
        others.flatten <+: datagram.bytes → others.flatten <+: blocks.flatten) ∧
      iterFramesUdp [datagram] =
        blocks.map fun block => ((block.headD 0).toNat, block.drop 3) := by
  refine ⟨⟨?_, ?_⟩, ?_, ?_⟩
  · rintro ⟨frames, hsplit⟩
    obtain ⟨hne, hframes⟩ := splitAsterixDatagram_eq_ok.mp hsplit
    obtain ⟨blocks, hblocks⟩ := blocks_of_splitFrames hframes
    exact ⟨hne, _, isBlock_frames blocks, by rw [flatten_frames, hblocks]⟩
  · rintro ⟨hne, frames, hframes, hbytes⟩
    obtain ⟨blocks, rfl⟩ := exists_blocks hframes
    rw [flatten_frames] at hbytes
    exact ⟨_, splitAsterixDatagram_eq_ok.mpr ⟨hne, by rw [← hbytes]; exact splitFrames_stream blocks⟩⟩
  · intro frames hsplit
    obtain ⟨-, hframes⟩ := splitAsterixDatagram_eq_ok.mp hsplit
    obtain ⟨blocks, hblocks⟩ := blocks_of_splitFrames hframes
    rw [hblocks, splitFrames_stream] at hframes
    obtain rfl := Except.ok.inj hframes
    refine ⟨?_, ?_, fun sock hsock => ?_, fun frame hframe => ?_⟩
    · rw [List.map_map]
      show (blocks.map Block.frame).flatten = _
      rw [flatten_frames, hblocks]
    · rw [iterFramesUdp_one, hblocks, Code.cut_stream, List.map_map]
      rfl
    · rw [iterFramesTcp_eq _ sock hsock, iterFramesUdp_one]
    · obtain ⟨block, -, rfl⟩ := List.mem_map.mp hframe
      exact ⟨rawFramePayload_frame block, asterixDataBlock_frame block⟩
  · refine ⟨(blockCode.cut datagram.bytes).1.map Block.frame, isBlock_frames _, ?_, ?_, ?_⟩
    · rw [flatten_frames]
      exact ⟨_, blockCode.stream_cut datagram.bytes⟩
    · intro others hothers hprefix
      obtain ⟨blocks, rfl⟩ := exists_blocks hothers
      rw [flatten_frames] at hprefix ⊢
      rw [flatten_frames]
      exact blockCode.stream_prefix (blockCode.prefix_cut hprefix)
    · rw [iterFramesUdp_one, List.map_map]
      rfl

/-- A datagram of two blocks, the second of them empty, cut into single bytes. -/
theorem framers_agree_two_blocks :
    (iterFramesTcp ⟨[[48], [0], [4, 7], [62, 0], [3]], by decide⟩).1 = [(48, [7]), (62, [])] := by
  have hsplit : splitAsterixDatagram [48, 0, 4, 7, 62, 0, 3] =
      .ok [(48, [48, 0, 4, 7]), (62, [62, 0, 3])] := by
    simp [splitAsterixDatagram, splitFrames, BigEndian.ofBytes]
    rfl
  have hagree := (framers_agree ⟨[48, 0, 4, 7, 62, 0, 3], by decide⟩).2.1 _ hsplit
  rw [hagree.2.2.1 _ rfl, hagree.2.1]
  rfl

end Efdi.Asterix
