import Efdi.Base.PyDict
import Efdi.Stanag.Klv

/-!
# MISB local sets

`_4609_decode_ber_oid` and `_4609_parse_local_set` of `stanag.py`.  A local set is a row of items,
each a tag in groups of seven bits, the BER length of its value, and the value.  The parser reads
items until the bytes are used up, so what it returns is read off a cover of the bytes by items
(`Covers`), and bytes without a cover raise `ValueError`.
-/

namespace Efdi.Stanag

open List

/-- What the readers can raise: `ValueError`, and `IndexError` for `data[pos]`. -/
inductive KlvError where
  | value (message : String)
  | index
deriving DecidableEq, Repr

/-- The rounds of `_4609_decode_ber_oid`. -/
def berOidRounds (data : List UInt8) : Nat → Nat → Nat → Except KlvError (Nat × Nat)
  | 0, _, _ => .error (.value "BER-OID tag exceeds 64 bits")
  | rounds + 1, value, pos =>
    if data.length ≤ pos then .error (.value "truncated BER-OID tag")
    else
      match data[pos]? with
      | none => .error .index
      | some byte =>
        let value := value <<< 7 ||| (byte.toNat &&& 0x7F)
        if byte.toNat &&& 0x80 = 0 then .ok (value, pos + 1)
        else berOidRounds data rounds value (pos + 1)

/-- `_4609_decode_ber_oid`: the tag and the position behind it. -/
def decodeBerOid (data : List UInt8) (pos : Nat) : Except KlvError (Nat × Nat) :=
  berOidRounds data 10 0 pos

variable {data : List UInt8} {rounds value pos tag tagEnd : Nat}

theorem lt_of_berOidRounds (h : berOidRounds data rounds value pos = .ok (tag, tagEnd)) :
    pos < tagEnd ∧ tagEnd ≤ data.length := by
  induction rounds generalizing value pos with
  | zero => cases h
  | succ rounds ih =>
    rw [berOidRounds] at h
    split at h
    next => cases h
    next hpos =>
      split at h
      next => cases h
      next byte _ =>
        dsimp only at h
        split at h
        next =>
          cases h
          omega
        next =>
          have hnext := ih h
          omega

theorem value_of_berOidRounds {e : KlvError} (h : berOidRounds data rounds value pos = .error e) :
    ∃ message, e = .value message := by
  induction rounds generalizing value pos with
  | zero =>
    cases h
    exact ⟨_, rfl⟩
  | succ rounds ih =>
    rw [berOidRounds] at h
    split at h
    next =>
      cases h
      exact ⟨_, rfl⟩
    next hpos =>
      split at h
      next hnone =>
        rw [getElem?_eq_none_iff] at hnone
        exact absurd hnone hpos
      next byte _ =>
        dsimp only at h
        split at h
        next => cases h
        next => exact ih h

/-! ## The parser -/

/-- `data[start:stop]`. -/
def slice (data : List UInt8) (start stop : Nat) : List UInt8 := (data.take stop).drop start

/-- The tags that a local set has given so far. -/
abbrev TagDict : Type := PyDict Nat (List UInt8)

/-- The loop of `_4609_parse_local_set`. -/
def parseItems (value : List UInt8) (pos : Nat) (tags : TagDict) : Except KlvError TagDict :=
  if pos < value.length then
    match _htag : decodeBerOid value pos with
    | .error e => .error e
    | .ok (tag, tagEnd) =>
      match decodeBer (value.drop tagEnd) with
      | .error e => .error (.value e.message)
      | .ok (tagLen, lenSize) =>
        let start := tagEnd + lenSize
        if value.length < start + tagLen then
          .error (.value "truncated MISB local-set value")
        else
          parseItems value (start + tagLen) (tags.set tag (slice value start (start + tagLen)))
  else .ok tags
termination_by value.length - pos
decreasing_by
  have hpos := lt_of_berOidRounds _htag
  omega

/-- `_4609_parse_local_set`. -/
def parseLocalSet (value : List UInt8) : Except KlvError TagDict := parseItems value 0 PyDict.empty

/-- An item as it is read: its tag and its value. -/
abbrev LocalItem : Type := Nat × List UInt8

/-- Read from a position, each from the end of the one before it, the items end where the bytes
end. -/
inductive Covers (value : List UInt8) : Nat → List LocalItem → Prop
  | done : Covers value value.length []
  | item {pos tag tagEnd tagLen lenSize : Nat} {items : List LocalItem}
      (htag : decodeBerOid value pos = .ok (tag, tagEnd))
      (hlen : decodeBer (value.drop tagEnd) = .ok (tagLen, lenSize))
      (hfit : tagEnd + lenSize + tagLen ≤ value.length)
      (rest : Covers value (tagEnd + lenSize + tagLen) items) :
      Covers value pos
        ((tag, slice value (tagEnd + lenSize) (tagEnd + lenSize + tagLen)) :: items)

/-- The assignments `tags[tag] = …` of the items, in their order. -/
def assign (tags : TagDict) (items : List LocalItem) : TagDict :=
  items.foldl (fun tags item => tags.set item.1 item.2) tags

theorem parseItems_end (value : List UInt8) (tags : TagDict) :
    parseItems value value.length tags = .ok tags := by
  rw [parseItems, if_neg (Nat.lt_irrefl _)]

theorem parseItems_of_covers {value : List UInt8} {items : List LocalItem}
    (h : Covers value pos items) (tags : TagDict) :
    parseItems value pos tags = .ok (assign tags items) := by
  induction h generalizing tags with
  | done => exact parseItems_end value tags
  | @item pos tag tagEnd tagLen lenSize items htag hlen hfit rest ih =>
    have hpos := lt_of_berOidRounds htag
    rw [parseItems, if_pos (by omega)]
    split
    next e herror =>
      rw [htag] at herror
      cases herror
    next tag' tagEnd' hok =>
      rw [htag] at hok
      cases hok
      rw [hlen]
      dsimp only
      rw [if_neg (by omega)]
      exact ih _

/-- The parser returns, and raises nothing but `ValueError`. -/
theorem covers_or_error (value : List UInt8) : ∀ pos ≤ value.length, ∀ tags : TagDict,
    (∃ items, Covers value pos items) ∨ ∃ message, parseItems value pos tags = .error (.value message)
  | pos, hpos, tags => by
    by_cases hmore : pos < value.length
    · rw [parseItems, if_pos hmore]
      split
      next e herror =>
        obtain ⟨message, rfl⟩ := value_of_berOidRounds herror
        exact .inr ⟨message, rfl⟩
      next tag tagEnd htag =>
        have htagEnd := lt_of_berOidRounds htag
        cases hlen : decodeBer (value.drop tagEnd) with
        | error e => exact .inr ⟨_, rfl⟩
        | ok lengths =>
          obtain ⟨tagLen, lenSize⟩ := lengths
          dsimp only
          split
          next => exact .inr ⟨_, rfl⟩
          next hfit =>
            rw [Nat.not_lt] at hfit
            refine (covers_or_error value _ hfit _).imp_left ?_
            rintro ⟨items, hitems⟩
            exact ⟨_, .item htag hlen hfit hitems⟩
    · have hend : pos = value.length := by omega
      rw [hend]
      exact .inl ⟨[], .done⟩
termination_by pos => value.length - pos

/-! ## What was encoded -/

/-- The groups of a number before the last one, each marked that more follow. -/
def berOidGroups (n : Nat) : List UInt8 :=
  if n = 0 then [] else berOidGroups (n / 128) ++ [UInt8.ofNat (128 + n % 128)]

/-- A tag as a BER-OID number of as few groups as it needs. -/
def encodeBerOid (tag : Nat) : List UInt8 :=
  berOidGroups (tag / 128) ++ [UInt8.ofNat (tag % 128)]

/-- A `bytes` object; it has at most `sys.maxsize` bytes. -/
structure PyBytes where
  data : List UInt8
  length_lt : data.length < 2 ^ 63

/-- The items of a local set, each a tag, a length and a value. -/
def encodeLocalSet : List (Nat × PyBytes) → Except String (List UInt8)
  | [] => .ok []
  | (tag, value) :: items => do
      let length ← encodeBer value.data.length
      let rest ← encodeLocalSet items
      return encodeBerOid tag ++ length ++ value.data ++ rest

theorem shift_group (value byte : Nat) :
    value <<< 7 ||| (byte &&& 0x7F) = 128 * value + byte % 128 := by
  have hlow : byte &&& 0x7F = byte % 128 := Nat.and_two_pow_sub_one_eq_mod byte 7
  rw [hlow, ← Nat.shiftLeft_add_eq_or_of_lt (Nat.mod_lt _ (by decide)), Nat.shiftLeft_eq]
  omega

theorem high_bit : ∀ byte < 256, byte &&& 0x80 = 0 ↔ byte < 128 := by decide +kernel

/-- One round, at a byte of the tag. -/
theorem berOidRounds_cons (rounds value : Nat) (front : List UInt8) (byte : UInt8) (back : List UInt8) :
    berOidRounds (front ++ byte :: back) (rounds + 1) value front.length =
      if byte.toNat < 128 then .ok (128 * value + byte.toNat % 128, front.length + 1)
      else berOidRounds (front ++ byte :: back) rounds (128 * value + byte.toNat % 128)
        (front.length + 1) := by
  have hlength : ¬ (front ++ byte :: back).length ≤ front.length := by simp
  rw [berOidRounds, if_neg hlength, getElem?_append_right (Nat.le_refl _), Nat.sub_self]
  simp [shift_group, high_bit _ byte.toNat_lt]

theorem length_berOidGroups : ∀ {k n : Nat}, n < 128 ^ k → (berOidGroups n).length ≤ k
  | 0, n, h => by
    rw [Nat.pow_zero, Nat.lt_one_iff] at h
    rw [berOidGroups, if_pos h]
    exact Nat.le_refl _
  | k + 1, n, h => by
    have hhigh : n / 128 < 128 ^ k := by
      rw [Nat.div_lt_iff_lt_mul (by decide), ← Nat.pow_succ]
      exact h
    rw [berOidGroups]
    split
    · exact Nat.zero_le _
    · rw [length_append]
      exact Nat.succ_le_succ (length_berOidGroups hhigh)

/-- The rounds over the groups before the last one. -/
theorem berOidRounds_groups (rounds n : Nat) (front back : List UInt8) :
    berOidRounds (front ++ berOidGroups n ++ back) ((berOidGroups n).length + rounds) 0
        front.length =
      berOidRounds (front ++ berOidGroups n ++ back) rounds n (front ++ berOidGroups n).length := by
  induction n using Nat.strongRecOn generalizing rounds back with
  | ind n ih =>
    rw [berOidGroups]
    split
    next hzero =>
      rw [hzero, append_nil, length_nil, Nat.zero_add]
    next hpos =>
      have hbyte : (UInt8.ofNat (128 + n % 128)).toNat = 128 + n % 128 := by
        rw [UInt8.toNat_ofNat']
        omega
      have hn : 128 * (n / 128) + (128 + n % 128) % 128 = n := by omega
      have hhigh := ih (n / 128) (by omega) (rounds + 1) (UInt8.ofNat (128 + n % 128) :: back)
      have hround := berOidRounds_cons rounds (n / 128) (front ++ berOidGroups (n / 128))
        (UInt8.ofNat (128 + n % 128)) back
      rw [hbyte, if_neg (by omega), hn] at hround
      rw [hround] at hhigh
      simpa [Nat.add_assoc, Nat.add_comm 1 rounds] using hhigh

theorem decodeBerOid_encode {tag : Nat} (h : tag < 2 ^ 63) (front back : List UInt8) :
    decodeBerOid (front ++ (encodeBerOid tag ++ back)) front.length =
      .ok (tag, (front ++ encodeBerOid tag).length) := by
  have hlength : (berOidGroups (tag / 128)).length ≤ 8 := length_berOidGroups (by omega)
  obtain ⟨rounds, hrounds⟩ : ∃ rounds, 10 = (berOidGroups (tag / 128)).length + (rounds + 1) :=
    ⟨9 - (berOidGroups (tag / 128)).length, by omega⟩
  have hbyte : (UInt8.ofNat (tag % 128)).toNat = tag % 128 := by
    rw [UInt8.toNat_ofNat']
    omega
  have htag : 128 * (tag / 128) + tag % 128 % 128 = tag := by omega
  have hgroups := berOidRounds_groups (rounds + 1) (tag / 128) front
    (UInt8.ofNat (tag % 128) :: back)
  have hround := berOidRounds_cons rounds (tag / 128) (front ++ berOidGroups (tag / 128))
    (UInt8.ofNat (tag % 128)) back
  rw [hbyte, if_pos (by omega), htag] at hround
  rw [hround, ← hrounds] at hgroups
  simpa [decodeBerOid, encodeBerOid, Nat.add_assoc] using hgroups

theorem slice_append (front middle back : List UInt8) :
    slice (front ++ (middle ++ back)) front.length (front.length + middle.length) = middle := by
  rw [slice, ← append_assoc, ← length_append, take_left, drop_left]

/-- What was encoded is covered by the items, wherever it stands. -/
theorem covers_encode : ∀ {items : List (Nat × PyBytes)}, (∀ item ∈ items, item.1 < 2 ^ 63) →
    ∃ data, encodeLocalSet items = .ok data ∧ ∀ front : List UInt8,
      Covers (front ++ data) front.length (items.map fun item => (item.1, item.2.data))
  | [], _ => ⟨[], rfl, fun front => by
    rw [List.append_nil]
    exact .done⟩
  | (tag, value) :: items, h => by
    obtain ⟨htag, hitems⟩ := forall_mem_cons.mp h
    obtain ⟨rest, hrest, hcovers⟩ := covers_encode hitems
    have hfits : value.data.length < 2 ^ 64 := Nat.lt_trans value.length_lt (by decide)
    obtain ⟨length, hlength, -, hread⟩ := decodeBer_encodeBer hfits
    refine ⟨encodeBerOid tag ++ length ++ value.data ++ rest, ?_, fun front => ?_⟩
    · rw [encodeLocalSet, hlength, hrest]
      rfl
    · have hoid := decodeBerOid_encode htag front (length ++ (value.data ++ rest))
      have hber : decodeBer ((front ++ (encodeBerOid tag ++ (length ++ (value.data ++ rest)))).drop
          (front ++ encodeBerOid tag).length) = .ok (value.data.length, length.length) := by
        rw [← append_assoc, drop_left]
        exact hread _
      have hslice := slice_append (front ++ encodeBerOid tag ++ length) value.data rest
      have hback := hcovers (front ++ encodeBerOid tag ++ length ++ value.data)
      simp only [append_assoc, length_append, Nat.add_assoc] at hoid hber hslice hback ⊢
      have hcover := Covers.item hoid hber (by simp only [length_append]; omega)
        (by simpa only [Nat.add_assoc] using hback)
      simp only [Nat.add_assoc, hslice] at hcover
      exact hcover

/-- Distinct tags are kept in their order, each with its value. -/
theorem entries_assign : ∀ {items : List LocalItem} {tags : TagDict},
    ((tags.entries ++ items).map Prod.fst).Nodup → (assign tags items).entries = tags.entries ++ items
  | [], tags, _ => (List.append_nil _).symm
  | (tag, value) :: items, tags, h => by
    have hfresh : tag ∉ tags.entries.map Prod.fst := by
      rw [map_append, map_cons, nodup_middle, nodup_cons] at h
      exact fun hmem => h.1 (mem_append_left _ hmem)
    have hset := PyDict.entries_set_of_fresh hfresh value
    rw [append_cons, ← hset] at h ⊢
    exact entries_assign h

/-- A local set decodes back to the items that were encoded, and any bytes are read to their end or
raise `ValueError`. -/
theorem parseLocalSet_correct {items : List (Nat × PyBytes)}
    (hdistinct : (items.map Prod.fst).Nodup) (htags : ∀ item ∈ items, item.1 < 2 ^ 63) :
    (∃ data tags, encodeLocalSet items = .ok data ∧ parseLocalSet data = .ok tags ∧
      tags.entries = items.map fun item => (item.1, item.2.data)) ∧
    ∀ value, (∃ read, Covers value 0 read ∧ parseLocalSet value = .ok (assign PyDict.empty read)) ∨
      ∃ message, parseLocalSet value = .error (.value message) := by
  refine ⟨?_, fun value => ?_⟩
  · obtain ⟨data, hdata, hcovers⟩ := covers_encode htags
    refine ⟨data, _, hdata, parseItems_of_covers (hcovers []) PyDict.empty, ?_⟩
    refine entries_assign ?_
    rw [PyDict.empty, List.nil_append, List.map_map]
    exact hdistinct
  · refine (covers_or_error value 0 (Nat.zero_le _) PyDict.empty).imp_left ?_
    rintro ⟨read, hread⟩
    exact ⟨read, hread, parseItems_of_covers hread PyDict.empty⟩

/-- A tag of one group, with a value, and a tag of two groups, without one. -/
theorem parseLocalSet_two :
    let items : List (Nat × PyBytes) := [(13, ⟨[1, 2], by decide⟩), (200, ⟨[], by decide⟩)]
    (∃ data tags, encodeLocalSet items = .ok data ∧ parseLocalSet data = .ok tags ∧
      tags.entries = items.map fun item => (item.1, item.2.data)) ∧
    ∀ value, (∃ read, Covers value 0 read ∧ parseLocalSet value = .ok (assign PyDict.empty read)) ∨
      ∃ message, parseLocalSet value = .error (.value message) :=
  parseLocalSet_correct (by decide) (by decide)

end Efdi.Stanag
