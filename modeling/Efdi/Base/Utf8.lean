import Mathlib.Data.List.Basic

/-!
# Decoding UTF-8 with replacement

`data.decode("utf-8", errors="replace")`, one byte at a time.  A byte that cannot begin or
continue a character, and a character that is not finished, become one replacement character
each.

An encoded text is read back (`decode_encode`).  The front of a character that lacks its end is
replaced as a whole (`decode_front`), and the other bytes of a character are replaced one by one
(`decode_continues_append`).
-/

namespace Utf8

open List

/-- `U+FFFD`. -/
def replacement : Char := Char.ofNat 0xFFFD

/-- A character of which some bytes were read. -/
structure Begun where
  /-- How many bytes follow the next one. -/
  more : Nat
  /-- The least next byte. -/
  low : Nat
  /-- The greatest next byte. -/
  high : Nat
  /-- The bits so far. -/
  code : Nat

/-- The first byte of a character: what it gives, and the character that it begins. -/
def first (byte : UInt8) : List Char × Option Begun :=
  let n := byte.toNat
  if n < 0x80 then ([Char.ofNat n], none)
  else if n < 0xC2 then ([replacement], none)
  else if n < 0xE0 then ([], some ⟨0, 0x80, 0xBF, n % 0x20⟩)
  else if n < 0xF0 then
    ([], some ⟨1, if n = 0xE0 then 0xA0 else 0x80, if n = 0xED then 0x9F else 0xBF, n % 0x10⟩)
  else if n < 0xF5 then
    ([], some ⟨2, if n = 0xF0 then 0x90 else 0x80, if n = 0xF4 then 0x8F else 0xBF, n % 0x08⟩)
  else ([replacement], none)

/-- The next byte. -/
def next : Option Begun → UInt8 → List Char × Option Begun
  | none, byte => first byte
  | some begun, byte =>
    if begun.low ≤ byte.toNat ∧ byte.toNat ≤ begun.high then
      let code := begun.code * 0x40 + byte.toNat % 0x40
      match begun.more with
      | 0 => ([Char.ofNat code], none)
      | more + 1 => ([], some ⟨more, 0x80, 0xBF, code⟩)
    else (replacement :: (first byte).1, (first byte).2)

/-- Some bytes: the characters that they give, and the one that is not finished. -/
def feed : Option Begun → List UInt8 → List Char × Option Begun
  | state, [] => ([], state)
  | state, byte :: bytes =>
    let here := next state byte
    let rest := feed here.2 bytes
    (here.1 ++ rest.1, rest.2)

/-- The end of the data. -/
def finish : Option Begun → List Char
  | none => []
  | some _ => [replacement]

/-- `data.decode("utf-8", errors="replace")`. -/
def decode (data : List UInt8) : List Char := (feed none data).1 ++ finish (feed none data).2

/-- `text.encode("utf-8")`. -/
def encode (text : List Char) : List UInt8 := text.flatMap String.utf8EncodeChar

/-! ## Feeding -/

theorem feed_append : ∀ (state : Option Begun) (front back : List UInt8),
    feed state (front ++ back) =
      ((feed state front).1 ++ (feed (feed state front).2 back).1,
        (feed (feed state front).2 back).2)
  | _, [], _ => rfl
  | state, byte :: front, back => by
    rw [cons_append, feed, feed, feed_append]
    simp

/-- A character is below the last code point, and it is no surrogate. -/
theorem toNat_valid (c : Char) : c.toNat < 0xD800 ∨ 0xDFFF < c.toNat ∧ c.toNat < 0x110000 :=
  c.valid

theorem toNat_lt (c : Char) : c.toNat < 0x110000 := by
  rcases toNat_valid c with h | h
  · omega
  · exact h.2

/-- The bytes of a character: the first byte, and the bytes that continue it. -/
theorem utf8EncodeChar_cases (c : Char) :
    (c.toNat < 0x80 ∧ String.utf8EncodeChar c = [UInt8.ofNat c.toNat]) ∨
      (0x80 ≤ c.toNat ∧ c.toNat < 0x800 ∧ String.utf8EncodeChar c =
        [UInt8.ofNat (c.toNat / 64 + 0xC0), UInt8.ofNat (c.toNat % 64 + 0x80)]) ∨
      (0x800 ≤ c.toNat ∧ c.toNat < 0x10000 ∧ String.utf8EncodeChar c =
        [UInt8.ofNat (c.toNat / 4096 + 0xE0), UInt8.ofNat (c.toNat / 64 % 64 + 0x80),
          UInt8.ofNat (c.toNat % 64 + 0x80)]) ∨
      (0x10000 ≤ c.toNat ∧ String.utf8EncodeChar c =
        [UInt8.ofNat (c.toNat / 262144 + 0xF0), UInt8.ofNat (c.toNat / 4096 % 64 + 0x80),
          UInt8.ofNat (c.toNat / 64 % 64 + 0x80), UInt8.ofNat (c.toNat % 64 + 0x80)]) := by
  have hmax := toNat_lt c
  show _ ∨ _ ∨ _ ∨ _
  simp only [String.utf8EncodeChar, show c.val.toNat = c.toNat from rfl]
  by_cases hone : c.toNat ≤ 0x7f
  · exact Or.inl ⟨by omega, if_pos hone⟩
  rw [if_neg hone]
  by_cases htwo : c.toNat ≤ 0x7ff
  · rw [if_pos htwo, Nat.mod_eq_of_lt (show c.toNat / 64 < 0x20 by omega)]
    exact Or.inr (Or.inl ⟨by omega, by omega, rfl⟩)
  rw [if_neg htwo]
  by_cases hthree : c.toNat ≤ 0xffff
  · rw [if_pos hthree, Nat.mod_eq_of_lt (show c.toNat / 4096 < 0x10 by omega)]
    exact Or.inr (Or.inr (Or.inl ⟨by omega, by omega, rfl⟩))
  · rw [if_neg hthree, Nat.mod_eq_of_lt (show c.toNat / 262144 < 0x08 by omega)]
    exact Or.inr (Or.inr (Or.inr ⟨by omega, rfl⟩))

/-! ## The bytes of a character -/

/-- A byte that continues a character. -/
def Continues (byte : UInt8) : Prop := 0x80 ≤ byte.toNat ∧ byte.toNat ≤ 0xBF

variable {n : Nat} {byte : UInt8} {c : Char} {bytes : List UInt8}

theorem continues_ofNat (h : n < 64) : Continues (UInt8.ofNat (n + 0x80)) := by
  rw [Continues, UInt8.toNat_ofNat']
  omega

theorem ofNat_mod (h : n < 64) : (UInt8.ofNat (n + 0x80)).toNat % 0x40 = n := by
  rw [UInt8.toNat_ofNat']
  omega

/-- The last byte of a character. -/
theorem next_last {low high code : Nat} {byte : UInt8} (hlow : low ≤ byte.toNat)
    (hhigh : byte.toNat ≤ high) :
    next (some ⟨0, low, high, code⟩) byte =
      ([Char.ofNat (code * 0x40 + byte.toNat % 0x40)], none) :=
  if_pos ⟨hlow, hhigh⟩

/-- A byte in the middle of a character. -/
theorem next_middle {more low high code : Nat} {byte : UInt8} (hlow : low ≤ byte.toNat)
    (hhigh : byte.toNat ≤ high) :
    next (some ⟨more + 1, low, high, code⟩) byte =
      ([], some ⟨more, 0x80, 0xBF, code * 0x40 + byte.toNat % 0x40⟩) :=
  if_pos ⟨hlow, hhigh⟩

/-- A byte that continues a character does not begin one. -/
theorem next_none_continues (h : Continues byte) :
    next none byte = ([replacement], none) := by
  obtain ⟨hlow, hhigh⟩ := h
  rw [next, first]
  simp only [if_neg (Nat.not_lt.mpr hlow), if_pos (show byte.toNat < 0xC2 by omega)]

/-- The bytes of a character behind the first continue it. -/
theorem continues_of_mem (h : String.utf8EncodeChar c = byte :: bytes) :
    ∀ b ∈ bytes, Continues b := by
  have hmax := toNat_lt c
  rcases utf8EncodeChar_cases c with ⟨_, hc⟩ | ⟨_, _, hc⟩ | ⟨_, _, hc⟩ | ⟨_, hc⟩ <;>
    rw [hc] at h <;>
    obtain ⟨-, rfl⟩ := cons.inj h <;>
    intro b hb <;>
    simp only [mem_cons, not_mem_nil, or_false] at hb
  · rw [hb]
    exact continues_ofNat (Nat.mod_lt _ (by decide))
  · rcases hb with rfl | rfl <;> exact continues_ofNat (Nat.mod_lt _ (by decide))
  · rcases hb with rfl | rfl | rfl <;> exact continues_ofNat (Nat.mod_lt _ (by decide))

/-- The bytes are read as a character, and nothing comes out before the last byte. -/
def Reads (state : Option Begun) (bytes : List UInt8) (c : Char) : Prop :=
  ∀ front back, bytes = front ++ back → front ≠ [] →
    (back = [] → feed state front = ([c], none)) ∧
      (back ≠ [] → ∃ begun, feed state front = ([], some begun))

theorem reads_last {state : Option Begun} (h : next state byte = ([c], none)) :
    Reads state [byte] c := by
  intro front back hbytes hfront
  cases front with
  | nil => exact absurd rfl hfront
  | cons b front =>
    obtain ⟨rfl, hrest⟩ := cons.inj hbytes
    obtain ⟨rfl, rfl⟩ := append_eq_nil_iff.mp hrest.symm
    refine ⟨fun _ => ?_, fun hback => absurd rfl hback⟩
    rw [feed, h]
    rfl

theorem reads_cons {state : Option Begun} {begun : Begun} (h : next state byte = ([], some begun))
    (hne : bytes ≠ []) (hbytes : Reads (some begun) bytes c) : Reads state (byte :: bytes) c := by
  intro front back happend hfront
  cases front with
  | nil => exact absurd rfl hfront
  | cons b front =>
    obtain ⟨rfl, hrest⟩ := cons.inj happend
    have hfeed : feed state (byte :: front) = feed (some begun) front := by
      rw [feed, h]
      rfl
    rw [hfeed]
    cases front with
    | nil =>
      refine ⟨fun hback => ?_, fun _ => ⟨begun, rfl⟩⟩
      rw [hback] at hrest
      exact absurd hrest hne
    | cons b' front => exact hbytes _ back hrest (cons_ne_nil _ _)

/-- The first byte of a character of two bytes. -/
theorem first_two (hlow : 2 ≤ n) (hhigh : n < 0x20) :
    next none (UInt8.ofNat (n + 0xC0)) = ([], some ⟨0, 0x80, 0xBF, n⟩) := by
  have hn : (UInt8.ofNat (n + 0xC0)).toNat = n + 0xC0 := by
    rw [UInt8.toNat_ofNat']
    omega
  simp only [next, first, hn, if_neg (show ¬ n + 0xC0 < 0x80 by omega),
    if_neg (show ¬ n + 0xC0 < 0xC2 by omega), if_pos (show n + 0xC0 < 0xE0 by omega),
    show (n + 0xC0) % 0x20 = n by omega]

/-- The first byte of a character of three bytes. -/
theorem first_three (hhigh : n < 0x10) :
    next none (UInt8.ofNat (n + 0xE0)) =
      ([], some ⟨1, if n = 0 then 0xA0 else 0x80, if n = 0xD then 0x9F else 0xBF, n⟩) := by
  have hn : (UInt8.ofNat (n + 0xE0)).toNat = n + 0xE0 := by
    rw [UInt8.toNat_ofNat']
    omega
  simp only [next, first, hn, if_neg (show ¬ n + 0xE0 < 0x80 by omega),
    if_neg (show ¬ n + 0xE0 < 0xC2 by omega), if_neg (show ¬ n + 0xE0 < 0xE0 by omega),
    if_pos (show n + 0xE0 < 0xF0 by omega), show (n + 0xE0) % 0x10 = n by omega,
    show n + 0xE0 = 0xE0 ↔ n = 0 by omega, show n + 0xE0 = 0xED ↔ n = 0xD by omega]

/-- The first byte of a character of four bytes. -/
theorem first_four (hhigh : n < 5) :
    next none (UInt8.ofNat (n + 0xF0)) =
      ([], some ⟨2, if n = 0 then 0x90 else 0x80, if n = 4 then 0x8F else 0xBF, n⟩) := by
  have hn : (UInt8.ofNat (n + 0xF0)).toNat = n + 0xF0 := by
    rw [UInt8.toNat_ofNat']
    omega
  simp only [next, first, hn, if_neg (show ¬ n + 0xF0 < 0x80 by omega),
    if_neg (show ¬ n + 0xF0 < 0xC2 by omega), if_neg (show ¬ n + 0xF0 < 0xE0 by omega),
    if_neg (show ¬ n + 0xF0 < 0xF0 by omega), if_pos (show n + 0xF0 < 0xF5 by omega),
    show (n + 0xF0) % 0x08 = n by omega, show n + 0xF0 = 0xF0 ↔ n = 0 by omega,
    show n + 0xF0 = 0xF4 ↔ n = 4 by omega]

/-- The last byte of a character, by its six bits. -/
theorem reads_six {low high code : Nat} (hn : n < 64) (hlow : low ≤ n + 0x80)
    (hhigh : n + 0x80 ≤ high) (hc : code * 64 + n = c.toNat) :
    Reads (some ⟨0, low, high, code⟩) [UInt8.ofNat (n + 0x80)] c := by
  have htoNat : (UInt8.ofNat (n + 0x80)).toNat = n + 0x80 := by
    rw [UInt8.toNat_ofNat']
    omega
  have hlast := @next_last low high code (UInt8.ofNat (n + 0x80)) (by omega) (by omega)
  rw [ofNat_mod hn, hc, Char.ofNat_toNat] at hlast
  exact reads_last hlast

/-- A byte in the middle of a character, by its six bits. -/
theorem reads_six_cons {more low high code : Nat} (hn : n < 64) (hlow : low ≤ n + 0x80)
    (hhigh : n + 0x80 ≤ high) (hne : bytes ≠ [])
    (hbytes : Reads (some ⟨more, 0x80, 0xBF, code * 64 + n⟩) bytes c) :
    Reads (some ⟨more + 1, low, high, code⟩) (UInt8.ofNat (n + 0x80) :: bytes) c := by
  have htoNat : (UInt8.ofNat (n + 0x80)).toNat = n + 0x80 := by
    rw [UInt8.toNat_ofNat']
    omega
  have hmiddle := @next_middle more low high code (UInt8.ofNat (n + 0x80)) (by omega) (by omega)
  rw [ofNat_mod hn] at hmiddle
  exact reads_cons hmiddle hne hbytes

theorem reads_utf8EncodeChar (c : Char) : Reads none (String.utf8EncodeChar c) c := by
  have hvalid := toNat_valid c
  rcases utf8EncodeChar_cases c with ⟨hlt, hc⟩ | ⟨hge, hlt, hc⟩ | ⟨hge, hlt, hc⟩ | ⟨hge, hc⟩
  · rw [hc]
    refine reads_last ?_
    have hn : (UInt8.ofNat c.toNat).toNat = c.toNat := by
      rw [UInt8.toNat_ofNat']
      omega
    rw [next, first, hn]
    simp only [if_pos hlt, Char.ofNat_toNat]
  · rw [hc]
    refine reads_cons (first_two (by omega) (by omega)) (cons_ne_nil _ _) ?_
    exact reads_six (Nat.mod_lt _ (by decide)) (by omega) (by omega) (by omega)
  · rw [hc]
    refine reads_cons (first_three (by omega)) (cons_ne_nil _ _) ?_
    refine reads_six_cons (Nat.mod_lt _ (by decide)) ?_ ?_ (cons_ne_nil _ _) ?_
    · split <;> omega
    · split <;> omega
    · exact reads_six (Nat.mod_lt _ (by decide)) (by omega) (by omega) (by omega)
  · rw [hc]
    refine reads_cons (first_four (by omega)) (cons_ne_nil _ _) ?_
    refine reads_six_cons (Nat.mod_lt _ (by decide)) ?_ ?_ (cons_ne_nil _ _) ?_
    · split <;> omega
    · split <;> omega
    · refine reads_six_cons (Nat.mod_lt _ (by decide)) (by omega) (by omega)
        (cons_ne_nil _ _) ?_
      exact reads_six (Nat.mod_lt _ (by decide)) (by omega) (by omega) (by omega)

/-! ## Whole characters and parts of characters -/

theorem decode_nil : decode [] = [] := rfl

/-- A whole character is read. -/
theorem decode_char_append (c : Char) (bytes : List UInt8) :
    decode (String.utf8EncodeChar c ++ bytes) = c :: decode bytes := by
  have hfeed := (reads_utf8EncodeChar c _ [] (append_nil _).symm
    String.utf8EncodeChar_ne_nil).1 rfl
  rw [decode, feed_append, hfeed]
  rfl

/-- An encoded text is read back. -/
theorem decode_encode : ∀ text : List Char, decode (encode text) = text
  | [] => rfl
  | c :: text => by
    rw [encode, flatMap_cons, decode_char_append]
    exact congrArg _ (decode_encode text)

/-- The front of a character is replaced as a whole. -/
theorem decode_front {front back : List UInt8} (h : String.utf8EncodeChar c = front ++ back)
    (hfront : front ≠ []) (hback : back ≠ []) :
    decode front = [replacement] := by
  obtain ⟨begun, hfeed⟩ := (reads_utf8EncodeChar c front back h hfront).2 hback
  rw [decode, hfeed]
  rfl

/-- The other bytes of a character are replaced one by one. -/
theorem decode_continues_append : ∀ {front : List UInt8}, (∀ byte ∈ front, Continues byte) →
    ∀ bytes, decode (front ++ bytes) = List.replicate front.length replacement ++ decode bytes
  | [], _, _ => rfl
  | byte :: front, h, bytes => by
    have hnext := next_none_continues (h byte mem_cons_self)
    have hrest := decode_continues_append (fun b hb => h b (mem_cons_of_mem _ hb)) bytes
    rw [cons_append, decode, feed, hnext]
    exact congrArg (cons replacement) hrest

/-! ## ASCII characters -/

/-- Every way to go on gives a character that is not ASCII. -/
def Reaches : Nat → Nat → Prop
  | 0, code => 0x80 ≤ code ∧ code.isValidChar
  | more + 1, code => ∀ n, 0x80 ≤ n → n ≤ 0xBF → Reaches more (code * 0x40 + n % 0x40)

/-- What was begun ends as a character that is not ASCII. -/
structure Begun.Sound (begun : Begun) : Prop where
  low : 0x80 ≤ begun.low
  high : begun.high ≤ 0xBF
  reaches : ∀ n, begun.low ≤ n → n ≤ begun.high →
    Reaches begun.more (begun.code * 0x40 + n % 0x40)

theorem isValidChar_of (h : n < 0xD800 ∨ 0xDFFF < n ∧ n < 0x110000) : n.isValidChar := h

theorem toNat_ofNat (h : n.isValidChar) : (Char.ofNat n).toNat = n := by
  rw [Char.ofNat, dif_pos h]
  rfl

theorem sound_first {byte : UInt8} {begun : Begun} (h : (first byte).2 = some begun) :
    begun.Sound := by
  rw [first] at h
  split at h
  · cases h
  split at h
  · cases h
  split at h
  · next hlow hhigh =>
    cases h
    refine ⟨Nat.le_refl _, Nat.le_refl _, fun n hn hle => ⟨?_, isValidChar_of ?_⟩⟩
    · show 0x80 ≤ byte.toNat % 0x20 * 0x40 + n % 0x40
      omega
    · show byte.toNat % 0x20 * 0x40 + n % 0x40 < 0xD800 ∨ _
      omega
  split at h
  · next hlow hhigh =>
    cases h
    refine ⟨?_, ?_, fun n hn hle m hm hmle => ⟨?_, isValidChar_of ?_⟩⟩ <;> dsimp only at *
    · split <;> omega
    · split <;> omega
    · split at hn <;> split at hle <;> omega
    · split at hn <;> split at hle <;> omega
  split at h
  · next hlow hhigh =>
    cases h
    refine ⟨?_, ?_, fun n hn hle m hm hmle k hk hkle => ⟨?_, isValidChar_of ?_⟩⟩ <;>
      dsimp only at *
    · split <;> omega
    · split <;> omega
    · split at hn <;> split at hle <;> omega
    · split at hn <;> split at hle <;> omega
  · cases h

/-- A first byte gives the ASCII character that it is, or none. -/
theorem ascii_first {byte : UInt8} {c : Char} (hc : c.toNat < 0x80) (h : c ∈ (first byte).1) :
    (first byte).1 = [c] ∧ byte = UInt8.ofNat c.toNat := by
  have hreplacement : c ∉ [replacement] := by
    intro hmem
    rw [mem_singleton.mp hmem] at hc
    exact absurd hc (by decide)
  rw [first] at h ⊢
  split at h
  · next hlow =>
    have hn : byte.toNat.isValidChar := isValidChar_of (by omega)
    rw [mem_singleton.mp h, if_pos hlow, toNat_ofNat hn]
    exact ⟨rfl, UInt8.toNat.inj (by rw [UInt8.toNat_ofNat']; omega)⟩
  split at h
  · exact absurd h hreplacement
  split at h
  · cases h
  split at h
  · cases h
  split at h
  · cases h
  · exact absurd h hreplacement

/-- What was begun gives no ASCII character, and the byte that does not continue it is a first
byte. -/
theorem next_sound {begun : Begun} (hbegun : begun.Sound) (byte : UInt8) :
    (∃ c, 0x80 ≤ c.toNat ∧ next (some begun) byte = ([c], none)) ∨
      (∃ after, after.Sound ∧ next (some begun) byte = ([], some after)) ∨
      next (some begun) byte = (replacement :: (first byte).1, (first byte).2) := by
  rw [next]
  split
  · next hbyte =>
    have hreaches := hbegun.reaches byte.toNat hbyte.1 hbyte.2
    cases hmore : begun.more with
    | zero =>
      rw [hmore] at hreaches
      refine Or.inl ⟨_, ?_, rfl⟩
      rw [toNat_ofNat hreaches.2]
      exact hreaches.1
    | succ more =>
      rw [hmore] at hreaches
      exact Or.inr (Or.inl ⟨⟨more, 0x80, 0xBF, _⟩, ⟨Nat.le_refl _, Nat.le_refl _, hreaches⟩, rfl⟩)
  · exact Or.inr (Or.inr rfl)

/-- An ASCII character stands in the text no more often than its byte in the data. -/
theorem count_feed (hc : c.toNat < 0x80) : ∀ (data : List UInt8)
    (state : Option Begun), (∀ begun ∈ state, begun.Sound) →
      (feed state data).1.count c ≤ data.count (UInt8.ofNat c.toNat)
  | [], _, _ => Nat.le_refl _
  | byte :: data, state, hstate => by
    have hfirst : (first byte).1.count c ≤ [byte].count (UInt8.ofNat c.toNat) := by
      by_cases hmem : c ∈ (first byte).1
      · obtain ⟨hone, hbyte⟩ := ascii_first hc hmem
        refine Nat.le_of_eq ?_
        rw [hone, hbyte, count_singleton_self, count_singleton_self]
      · rw [count_eq_zero.mpr hmem]
        exact Nat.zero_le _
    have hlarge : ∀ d : Char, 0x80 ≤ d.toNat → ∀ text : List Char,
        (d :: text).count c = text.count c := by
      intro d hd text
      refine count_cons_of_ne fun hdc => ?_
      rw [hdc] at hd
      omega
    have hnext : (next state byte).1.count c ≤ [byte].count (UInt8.ofNat c.toNat) ∧
        ∀ begun ∈ (next state byte).2, begun.Sound := by
      cases state with
      | none => exact ⟨hfirst, fun begun hbegun => sound_first hbegun⟩
      | some begun =>
        rcases next_sound (hstate begun rfl) byte with
          ⟨d, hd, hnext⟩ | ⟨after, hafter, hnext⟩ | hnext
        · rw [hnext, hlarge d hd]
          exact ⟨Nat.zero_le _, fun begun hbegun => by cases hbegun⟩
        · rw [hnext]
          refine ⟨Nat.zero_le _, fun begun hbegun => ?_⟩
          cases hbegun
          exact hafter
        · rw [hnext, hlarge _ (by decide)]
          exact ⟨hfirst, fun begun hbegun => sound_first hbegun⟩
    have hrest := count_feed hc data (next state byte).2 hnext.2
    rw [feed, ← singleton_append, count_append, count_append]
    exact Nat.add_le_add hnext.1 hrest

theorem count_decode (hc : c.toNat < 0x80) (data : List UInt8) :
    (decode data).count c ≤ data.count (UInt8.ofNat c.toNat) := by
  have hfinish : (finish (feed none data).2).count c = 0 := by
    refine count_eq_zero.mpr fun hmem => ?_
    cases hstate : (feed none data).2 with
    | none =>
      rw [hstate] at hmem
      cases hmem
    | some begun =>
      rw [hstate] at hmem
      rw [mem_singleton.mp hmem] at hc
      exact absurd hc (by decide)
  rw [decode, count_append, hfinish]
  exact count_feed hc data none fun begun hbegun => by cases hbegun

/-- What was begun gives a character that is not ASCII first. -/
theorem feed_begun : ∀ (data : List UInt8) {begun : Begun}, begun.Sound →
    ∃ c text, (feed (some begun) data).1 ++ finish (feed (some begun) data).2 = c :: text ∧
      0x80 ≤ c.toNat
  | [], begun, _ => ⟨replacement, [], rfl, by decide⟩
  | byte :: data, begun, hbegun => by
    rw [feed]
    rcases next_sound hbegun byte with ⟨c, hc, hnext⟩ | ⟨after, hafter, hnext⟩ | hnext
    · rw [hnext]
      exact ⟨c, _, rfl, hc⟩
    · rw [hnext]
      exact feed_begun data hafter
    · rw [hnext]
      exact ⟨replacement, _, rfl, by decide⟩

/-- Some data give some text, which begins with an ASCII character when the data do. -/
theorem decode_cons (byte : UInt8) (data : List UInt8) : ∃ c text, decode (byte :: data) = c :: text ∧
    (c.toNat < 0x80 → byte = UInt8.ofNat c.toNat) := by
  have hreplacement : ¬ replacement.toNat < 0x80 := by decide
  cases hfirst : first byte with
  | mk chars state =>
    have hfeed : decode (byte :: data) =
        chars ++ ((feed state data).1 ++ finish (feed state data).2) := by
      rw [decode, feed, next, hfirst, append_assoc]
    rw [hfeed]
    cases state with
    | some begun =>
      obtain ⟨c, text, hctext, hc⟩ := feed_begun data
        (@sound_first byte begun (by rw [hfirst]))
      cases chars with
      | nil => exact ⟨c, text, hctext, fun hlt => absurd hlt (Nat.not_lt.mpr hc)⟩
      | cons d chars =>
        refine ⟨d, _, rfl, fun hlt => ?_⟩
        exact (@ascii_first byte d hlt (by rw [hfirst]; exact .head _)).2
    | none =>
      cases chars with
      | nil =>
        rw [first] at hfirst
        split at hfirst
        · cases hfirst
        split at hfirst
        · cases hfirst
        split at hfirst
        · cases hfirst
        split at hfirst
        · cases hfirst
        split at hfirst <;> cases hfirst
      | cons d chars =>
        refine ⟨d, _, rfl, fun hlt => ?_⟩
        exact (@ascii_first byte d hlt (by rw [hfirst]; exact .head _)).2

/-! ## Encoded texts -/

theorem decode_encode_append : ∀ (text : List Char) (data : List UInt8),
    decode (encode text ++ data) = text ++ decode data
  | [], _ => rfl
  | c :: text, data => by
    rw [encode, flatMap_cons, append_assoc, decode_char_append]
    exact congrArg _ (decode_encode_append text data)

theorem encode_append (text more : List Char) :
    encode (text ++ more) = encode text ++ encode more := flatMap_append

theorem encode_injective {text more : List Char} (h : encode text = encode more) : text = more := by
  rw [← decode_encode text, h, decode_encode]

/-- An ASCII character is encoded as its byte. -/
theorem encode_cons_ascii (h : c.toNat < 0x80) (text : List Char) :
    encode (c :: text) = UInt8.ofNat c.toNat :: encode text := by
  rcases utf8EncodeChar_cases c with ⟨-, hc⟩ | ⟨hge, -⟩ | ⟨hge, -⟩ | ⟨hge, -⟩
  · rw [encode, flatMap_cons, hc]
    rfl
  · omega
  · omega
  · omega

/-- An ASCII byte stands in the encoded text as often as its character in the text. -/
theorem count_encode (hc : c.toNat < 0x80) : ∀ text : List Char,
    (encode text).count (UInt8.ofNat c.toNat) ≤ text.count c
  | [] => Nat.le_refl _
  | d :: text => by
    have hrest := count_encode hc text
    by_cases hd : d.toNat < 0x80
    · rw [encode_cons_ascii hd]
      by_cases hdc : d = c
      · rw [hdc, count_cons_self, count_cons_self]
        exact Nat.succ_le_succ hrest
      · rw [count_cons_of_ne hdc, count_cons_of_ne fun hbyte => hdc ?_]
        · exact hrest
        · have hnat := congrArg UInt8.toNat hbyte
          rw [UInt8.toNat_ofNat', UInt8.toNat_ofNat', Nat.mod_eq_of_lt (by omega),
            Nat.mod_eq_of_lt (by omega)] at hnat
          exact Char.toNat_inj.mp hnat
    · have hbytes : (String.utf8EncodeChar d).count (UInt8.ofNat c.toNat) = 0 := by
        have hmax := toNat_lt d
        refine count_eq_zero.mpr fun hmem => ?_
        have hsmall : (UInt8.ofNat c.toNat).toNat < 0x80 := by
          rw [UInt8.toNat_ofNat', Nat.mod_eq_of_lt (by omega)]
          exact hc
        have hlarge : ∀ byte ∈ String.utf8EncodeChar d, 0x80 ≤ byte.toNat := by
          rcases utf8EncodeChar_cases d with ⟨hlt, -⟩ | ⟨_, _, hd⟩ | ⟨_, _, hd⟩ | ⟨_, hd⟩
          · exact absurd hlt (by assumption)
          all_goals
            rw [hd]
            simp only [forall_mem_cons, UInt8.toNat_ofNat', not_mem_nil,
              false_implies, implies_true, and_true]
            omega
        exact absurd (hlarge _ hmem) (Nat.not_le.mpr hsmall)
      rw [encode, flatMap_cons, count_append, hbytes, Nat.zero_add]
      exact Nat.le_trans hrest (count_le_count_cons ..)

end Utf8
