import Mathlib.Data.List.Forall2

/-!
# Readers and layouts of self-delimiting items

A reader takes bytes off the front of what is left of a message and updates a state.  It can
read an item (`done`), find the message cut short and give up the rest of it (`stop`), or raise.
The structure carries the fact that a reader leaves an end of what it was given, so no reader
moves backwards or reads past the end.

A layout says where an item ends, and says nothing about what the item means.  A reader follows
a layout when it ends every item where the layout ends it, with a result that does not depend
on what comes after (`Follows`).  Readers of optional items behind a presence map follow the
compound of the layouts when each follows its own (`follows_compound`).
-/

namespace Reading

open List Option Bool

variable {σ τ α β : Type}

/-- What a reader did. -/
inductive Result (σ α : Type) where
  | done (value : α) (state : σ) (rest : List UInt8)
  /-- The message was cut short.  Nothing of it is left. -/
  | stop (state : σ)
  | raise

/-- A reader of the front of a message. -/
structure Reader (σ α : Type) where
  run : σ → List UInt8 → Result σ α
  suffix : ∀ {state state' : σ} {bytes rest : List UInt8} {value : α},
    run state bytes = .done value state' rest → rest <:+ bytes

namespace Reader

/-- Read nothing. -/
def done (value : α) : Reader σ α where
  run state bytes := .done value state bytes
  suffix h := by
    cases h
    exact List.suffix_rfl

/-- Read on with what was read. -/
def andThen (p : Reader σ α) (f : α → Reader σ β) : Reader σ β where
  run state bytes :=
    match p.run state bytes with
    | .done value state' rest => (f value).run state' rest
    | .stop state' => .stop state'
    | .raise => .raise
  suffix h := by
    split at h
    next hp => exact ((f _).suffix h).trans (p.suffix hp)
    next => cases h
    next => cases h

instance : Monad (Reader σ) where
  pure := done
  bind := andThen

/-- Change the state. -/
def update (f : σ → σ) : Reader σ Unit where
  run state bytes := .done () (f state) bytes
  suffix h := by
    cases h
    exact List.suffix_rfl

/-- The state. -/
def get : Reader σ σ where
  run state bytes := .done state state bytes
  suffix h := by
    cases h
    exact List.suffix_rfl

/-- Give up the rest of the message. -/
def stop : Reader σ α where
  run state _ := .stop state
  suffix h := by cases h

/-- The next `n` bytes. -/
def take (n : Nat) : Reader σ (List UInt8) where
  run state bytes :=
    if bytes.length < n then .stop state else .done (bytes.take n) state (bytes.drop n)
  suffix h := by
    split at h
    next => cases h
    next =>
      cases h
      exact List.drop_suffix ..

/-- The next byte. -/
def byte : Reader σ UInt8 where
  run state bytes :=
    match bytes with
    | [] => .stop state
    | b :: rest => .done b state rest
  suffix h := by
    split at h
    next => cases h
    next =>
      cases h
      exact List.suffix_cons ..

/-- An item of `n` bytes. -/
def fixed (n : Nat) (f : List UInt8 → σ → σ) : Reader σ Unit := do
  let data ← take n
  update (f data)

/-- Where a message cut short raises an exception that the caller takes for the end. -/
def attempt (p : Reader σ α) : Reader σ α where
  run state bytes :=
    match p.run state bytes with
    | .raise => .stop state
    | result => result
  suffix h := by
    split at h
    next => cases h
    next => exact p.suffix h

/-- A reader with a state of its own.  When it gives up, its caller goes on at the end of the
message. -/
def nested (start : τ) (p : Reader τ Unit) (merge : τ → σ → σ) : Reader σ Unit where
  run state bytes :=
    match p.run start bytes with
    | .done _ out rest => .done () (merge out state) rest
    | .stop out => .done () (merge out state) []
    | .raise => .raise
  suffix h := by
    split at h
    next hp =>
      cases h
      exact p.suffix hp
    next =>
      cases h
      exact List.nil_suffix
    next => cases h

/-- A reader with a state of its own, which is lost when the reader gives up the message. -/
def apart (start : τ) (p : Reader τ Unit) (merge : τ → σ → σ) : Reader σ Unit where
  run state bytes :=
    match p.run start bytes with
    | .done _ out rest => .done () (merge out state) rest
    | .stop _ => .stop state
    | .raise => .raise
  suffix h := by
    split at h
    next hp =>
      cases h
      exact p.suffix hp
    next => cases h
    next => cases h

end Reader

section

variable (state : σ) (bytes : List UInt8)

theorem Reader.run_bind (p : Reader σ α) (f : α → Reader σ β) : (p >>= f).run state bytes =
    match p.run state bytes with
    | .done value state' rest => (f value).run state' rest
    | .stop state' => .stop state'
    | .raise => .raise := rfl

theorem Reader.run_attempt (p : Reader σ α) : p.attempt.run state bytes =
    match p.run state bytes with
    | .raise => .stop state
    | result => result := rfl

theorem Reader.run_nested (start : τ) (p : Reader τ Unit) (merge : τ → σ → σ) :
    (Reader.nested start p merge).run state bytes =
      match p.run start bytes with
      | .done _ out rest => .done () (merge out state) rest
      | .stop out => .done () (merge out state) []
      | .raise => .raise := rfl

theorem Reader.run_apart (start : τ) (p : Reader τ Unit) (merge : τ → σ → σ) :
    (Reader.apart start p merge).run state bytes =
      match p.run start bytes with
      | .done _ out rest => .done () (merge out state) rest
      | .stop _ => .stop state
      | .raise => .raise := rfl

theorem Reader.run_take (n : Nat) : (Reader.take n).run state bytes =
    if bytes.length < n then .stop state else .done (bytes.take n) state (bytes.drop n) := rfl

end

/-! ## Octets that say whether one more follows -/

/-- The lowest bit, which says that one more octet follows. -/
def more (octet : UInt8) : Bool := octet &&& 1 != 0

/-- The other seven bits, as flags. -/
def flagsOf (octet : UInt8) : List Bool :=
  [0x80, 0x40, 0x20, 0x10, 0x08, 0x04, 0x02].map fun mask : UInt8 => octet &&& mask != 0

/-- Octets up to one that says it is the last, or up to the end. -/
def chain : List UInt8 → List UInt8 × List UInt8
  | [] => ([], [])
  | octet :: rest =>
    if more octet then (octet :: (chain rest).1, (chain rest).2) else ([octet], rest)

theorem chain_suffix : ∀ bytes : List UInt8, (chain bytes).2 <:+ bytes
  | [] => suffix_rfl
  | octet :: rest => by
    rw [chain]
    split
    next => exact (chain_suffix rest).trans (suffix_cons ..)
    next => exact suffix_cons ..

/-- At least one octet of a message is taken. -/
theorem length_chain_lt {bytes : List UInt8} (h : bytes ≠ []) :
    (chain bytes).2.length < bytes.length := by
  cases bytes with
  | nil => exact absurd rfl h
  | cons octet rest =>
    rw [chain]
    split
    next => exact Nat.lt_succ_of_le (chain_suffix rest).length_le
    next => exact Nat.lt_succ_self _

/-- Octets up to one that says it is the last, when there is one among the first `k`. -/
def chainOf : Nat → List UInt8 → Option (List UInt8 × List UInt8)
  | 0, _ => none
  | _ + 1, [] => none
  | k + 1, octet :: rest =>
    if more octet then (chainOf k rest).map fun found => (octet :: found.1, found.2)
    else some ([octet], rest)

variable {k n : Nat} {after : List UInt8} {layout : Layout} {items : List (Reader σ Unit)}
  {layouts : List Layout}

/-- What a chain of octets is, and what comes after it. -/
theorem chainOf_cases {bytes found rest : List UInt8} (h : chainOf k bytes = some (found, rest)) :
    ∃ octet after l, bytes = octet :: after ∧ k = l + 1 ∧
      ((more octet = false ∧ found = [octet] ∧ rest = after) ∨
        ∃ found', more octet = true ∧ found = octet :: found' ∧
          chainOf l after = some (found', rest)) := by
  cases k with
  | zero => cases h
  | succ l =>
    cases bytes with
    | nil => cases h
    | cons octet after =>
      refine ⟨octet, after, l, rfl, rfl, ?_⟩
      rw [chainOf] at h
      split at h
      next hmore =>
        obtain ⟨⟨found', rest'⟩, hfound, heq⟩ := map_eq_some_iff.mp h
        obtain ⟨rfl, rfl⟩ := Prod.mk.inj heq
        exact .inr ⟨found', hmore, rfl, hfound⟩
      next hmore =>
        obtain ⟨rfl, rfl⟩ := Prod.mk.inj (some.inj h)
        exact .inl ⟨not_eq_true _ ▸ hmore, rfl, rfl⟩

theorem chainOf_suffix {bytes rest : List UInt8} : ∀ {k : Nat} {found : List UInt8},
    chainOf k bytes = some (found, rest) → rest <:+ bytes := by
  induction bytes with
  | nil =>
    intro k found h
    obtain ⟨octet, after, l, hbytes, -⟩ := chainOf_cases h
    cases hbytes
  | cons octet bytes ih =>
    intro k found h
    obtain ⟨octet', after, l, hbytes, rfl, hcases⟩ := chainOf_cases h
    obtain ⟨rfl, rfl⟩ := cons.inj hbytes
    rcases hcases with ⟨-, -, rfl⟩ | ⟨found', -, -, hfound⟩
    · exact suffix_cons ..
    · exact (ih hfound).trans (suffix_cons ..)

/-- A chain that ends is found whatever comes after it, and by whoever looks far enough. -/
theorem chainOf_append {bytes rest : List UInt8} : ∀ {k l : Nat} {found : List UInt8},
    chainOf k bytes = some (found, rest) → found.length ≤ l →
      chainOf l (bytes ++ after) = some (found, rest ++ after) := by
  induction bytes with
  | nil =>
    intro k l found h
    obtain ⟨octet, tail, k', hbytes, -⟩ := chainOf_cases h
    cases hbytes
  | cons octet bytes ih =>
    intro k l found h hlength
    obtain ⟨octet', tail, k', hbytes, rfl, hcases⟩ := chainOf_cases h
    obtain ⟨rfl, rfl⟩ := cons.inj hbytes
    cases l with
    | zero =>
      rcases hcases with ⟨-, rfl, -⟩ | ⟨found', -, rfl, -⟩
      · exact absurd hlength (by simp)
      · exact absurd hlength (by simp)
    | succ l =>
      rw [cons_append, chainOf]
      rcases hcases with ⟨hmore, rfl, rfl⟩ | ⟨found', hmore, rfl, hfound⟩
      · rw [if_neg (by rw [hmore]; exact false_ne_true)]
      · rw [length_cons] at hlength
        rw [if_pos hmore, ih hfound (Nat.le_of_succ_le_succ hlength)]
        rfl

theorem length_of_chainOf {bytes rest : List UInt8} : ∀ {k : Nat} {found : List UInt8},
    chainOf k bytes = some (found, rest) → found.length ≤ k ∧ found.length ≤ bytes.length := by
  induction bytes with
  | nil =>
    intro k found h
    obtain ⟨octet, after, l, hbytes, -⟩ := chainOf_cases h
    cases hbytes
  | cons octet bytes ih =>
    intro k found h
    obtain ⟨octet', after, l, hbytes, rfl, hcases⟩ := chainOf_cases h
    obtain ⟨rfl, rfl⟩ := cons.inj hbytes
    rcases hcases with ⟨-, rfl, -⟩ | ⟨found', -, rfl, hfound⟩
    · simp only [length_cons, length_nil]
      omega
    · have hle := ih hfound
      simp only [length_cons]
      omega

/-- A chain that ends is also what is taken when the message may end first. -/
theorem chain_of_chainOf {bytes rest : List UInt8} : ∀ {k : Nat} {found : List UInt8},
    chainOf k bytes = some (found, rest) → chain (bytes ++ after) = (found, rest ++ after) := by
  induction bytes with
  | nil =>
    intro k found h
    obtain ⟨octet, tail, l, hbytes, -⟩ := chainOf_cases h
    cases hbytes
  | cons octet bytes ih =>
    intro k found h
    obtain ⟨octet', tail, l, hbytes, rfl, hcases⟩ := chainOf_cases h
    obtain ⟨rfl, rfl⟩ := cons.inj hbytes
    rw [cons_append, chain]
    rcases hcases with ⟨hmore, rfl, rfl⟩ | ⟨found', hmore, rfl, hfound⟩
    · rw [if_neg (by rw [hmore]; exact false_ne_true)]
    · rw [if_pos hmore, ih hfound]

namespace Reader

/-- A chain of octets, which may end with the message. -/
def octets : Reader σ (List UInt8) where
  run state bytes := .done (chain bytes).1 state (chain bytes).2
  suffix h := by
    cases h
    exact chain_suffix _

/-- The flags of a chain of octets, which may end with the message. -/
def fspec : Reader σ (List Bool) := do
  let found ← octets
  pure (found.flatMap flagsOf)

/-- The flags of a chain of at most `limit` octets.  A chain that does not end raises. -/
def presence (limit : Nat) : Reader σ (List Bool) where
  run state bytes :=
    match chainOf limit bytes with
    | some (found, rest) => .done (found.flatMap flagsOf) state rest
    | none => .raise
  suffix h := by
    split at h
    next hchain =>
      cases h
      exact chainOf_suffix hchain
    next => cases h

theorem run_presence (limit : Nat) (state : σ) (bytes : List UInt8) :
    (presence limit).run state bytes =
      match chainOf limit bytes with
      | some (found, rest) => .done (found.flatMap flagsOf) state rest
      | none => .raise := rfl

/-- The flags of a chain of octets.  A chain that does not end raises. -/
def presenceMap : Reader σ (List Bool) where
  run state bytes := (presence bytes.length).run state bytes
  suffix h := (presence _).suffix h

/-- A chain of octets, each read by its number.  Where the message ends before the chain does,
the number of the missing octet says whether the message is given up. -/
def runExtents (f : Nat → UInt8 → σ → σ) (strict : Nat → Bool) :
    Nat → σ → List UInt8 → Result σ Unit
  | i, state, [] => if strict i then .stop state else .done () state []
  | i, state, octet :: rest =>
    if more octet then runExtents f strict (i + 1) (f i octet state) rest
    else .done () (f i octet state) rest

variable {value : Unit}

theorem runExtents_suffix {f : Nat → UInt8 → σ → σ} {strict : Nat → Bool} {state' : σ}
    {rest : List UInt8} : ∀ {bytes : List UInt8} {i : Nat} {state : σ},
      runExtents f strict i state bytes = .done value state' rest → rest <:+ bytes
  | [], i, state, h => by
    rw [runExtents] at h
    split at h
    next => cases h
    next =>
      cases h
      exact suffix_rfl
  | octet :: bytes, i, state, h => by
    rw [runExtents] at h
    split at h
    next => exact (runExtents_suffix h).trans (suffix_cons ..)
    next =>
      cases h
      exact suffix_cons ..

def extents (f : Nat → UInt8 → σ → σ) (strict : Nat → Bool) : Reader σ Unit where
  run := runExtents f strict 0
  suffix h := runExtents_suffix h

/-- At most `limit` octets of a chain, each read by its number. -/
def runExtentsTo (f : Nat → UInt8 → σ → σ) (strict : Nat → Bool) :
    Nat → Nat → σ → List UInt8 → Result σ Unit
  | 0, _, state, bytes => .done () state bytes
  | _ + 1, i, state, [] => if strict i then .stop state else .done () state []
  | limit + 1, i, state, octet :: rest =>
    if more octet then runExtentsTo f strict limit (i + 1) (f i octet state) rest
    else .done () (f i octet state) rest

theorem runExtentsTo_suffix {f : Nat → UInt8 → σ → σ} {strict : Nat → Bool} {state' : σ}
    {rest : List UInt8} : ∀ {limit : Nat} {bytes : List UInt8} {i : Nat} {state : σ},
      runExtentsTo f strict limit i state bytes = .done value state' rest → rest <:+ bytes
  | 0, bytes, i, state, h => by
    cases h
    exact suffix_rfl
  | limit + 1, [], i, state, h => by
    rw [runExtentsTo] at h
    split at h
    next => cases h
    next =>
      cases h
      exact suffix_rfl
  | limit + 1, octet :: bytes, i, state, h => by
    rw [runExtentsTo] at h
    split at h
    next => exact (runExtentsTo_suffix h).trans (suffix_cons ..)
    next =>
      cases h
      exact suffix_cons ..

def extentsTo (limit : Nat) (f : Nat → UInt8 → σ → σ) (strict : Nat → Bool) : Reader σ Unit where
  run := runExtentsTo f strict limit 0
  suffix h := runExtentsTo_suffix h

/-- Give up the message unless it has `n` more bytes. -/
def need (n : Nat) : Reader σ Unit where
  run state bytes := if bytes.length < n then .stop state else .done () state bytes
  suffix h := by
    split at h
    next => cases h
    next =>
      cases h
      exact List.suffix_rfl

/-- Groups of `n` bytes, each read into the state.  A group that is cut short ends the loop, and
the message with it when `strict`. -/
def runGroups (strict : Bool) (n : Nat) (f : List UInt8 → σ → σ) :
    Nat → σ → List UInt8 → Result σ Unit
  | 0, state, bytes => .done () state bytes
  | count + 1, state, bytes =>
    if bytes.length < n then if strict then .stop state else .done () state bytes
    else runGroups strict n f count (f (bytes.take n) state) (bytes.drop n)

theorem runGroups_suffix {strict : Bool} {n : Nat} {f : List UInt8 → σ → σ} {state' : σ}
    {rest : List UInt8} : ∀ {count : Nat} {bytes : List UInt8} {state : σ},
      runGroups strict n f count state bytes = .done value state' rest → rest <:+ bytes
  | 0, bytes, state, h => by
    cases h
    exact suffix_rfl
  | count + 1, bytes, state, h => by
    rw [runGroups] at h
    split at h
    next =>
      split at h
      next => cases h
      next =>
        cases h
        exact suffix_rfl
    next => exact (runGroups_suffix h).trans (drop_suffix ..)

def groups (strict : Bool) (n : Nat) (f : List UInt8 → σ → σ) (count : Nat) : Reader σ Unit where
  run := runGroups strict n f count
  suffix h := runGroups_suffix h

/-- Groups of `n + 1` bytes, of which the last says whether one more follows. -/
def runGroupChain (strict : Bool) (n : Nat) (f : List UInt8 → σ → σ) :
    Nat → σ → List UInt8 → Result σ Unit
  | 0, state, bytes => if strict then .stop state else .done () state bytes
  | fuel + 1, state, bytes =>
    if bytes.length < n + 1 then if strict then .stop state else .done () state bytes
    else if (bytes.take (n + 1)).getLast?.any more then
      runGroupChain strict n f fuel (f (bytes.take (n + 1)) state) (bytes.drop (n + 1))
    else .done () (f (bytes.take (n + 1)) state) (bytes.drop (n + 1))

theorem runGroupChain_suffix {strict : Bool} {n : Nat} {f : List UInt8 → σ → σ} {state' : σ}
    {rest : List UInt8} : ∀ {fuel : Nat} {bytes : List UInt8} {state : σ},
      runGroupChain strict n f fuel state bytes = .done value state' rest → rest <:+ bytes
  | 0, bytes, state, h => by
    rw [runGroupChain] at h
    split at h
    next => cases h
    next =>
      cases h
      exact suffix_rfl
  | fuel + 1, bytes, state, h => by
    rw [runGroupChain] at h
    split at h
    next =>
      split at h
      next => cases h
      next =>
        cases h
        exact suffix_rfl
    next =>
      split at h
      next => exact (runGroupChain_suffix h).trans (drop_suffix ..)
      next =>
        cases h
        exact drop_suffix ..

/-- A chain of groups.  A message has fewer groups than bytes. -/
def groupChain (strict : Bool) (n : Nat) (f : List UInt8 → σ → σ) : Reader σ Unit where
  run state bytes := runGroupChain strict n f (bytes.length + 1) state bytes
  suffix h := runGroupChain_suffix h

/-- Skip an item that begins with its length, the length included.  What cannot be such an item
is skipped to the end of the message. -/
def skipExplicit : Reader σ Unit where
  run state bytes :=
    match bytes with
    | [] => .done () state []
    | length :: after =>
      if length.toNat < 1 ∨ after.length + 1 < length.toNat then .done () state []
      else .done () state (after.drop (length.toNat - 1))
  suffix h := by
    split at h
    next =>
      cases h
      exact List.suffix_rfl
    next =>
      split at h
      next =>
        cases h
        exact List.nil_suffix
      next =>
        cases h
        exact (List.drop_suffix ..).trans (List.suffix_cons ..)

theorem run_skipExplicit (state : σ) (length : UInt8) (bytes : List UInt8) :
    skipExplicit.run state (length :: bytes) =
      if length.toNat < 1 ∨ bytes.length + 1 < length.toNat then .done () state []
      else .done () state (bytes.drop (length.toNat - 1)) := rfl

/-- The items that are present, in order. -/
def present : List (Reader σ Unit) → List Bool → Reader σ Unit
  | [], _ => pure ()
  | _, [] => pure ()
  | _ :: items, false :: flags => present items flags
  | item :: items, true :: flags => do
      item
      present items flags

theorem present_true (item : Reader σ Unit) (items : List (Reader σ Unit)) (flags : List Bool) :
    present (item :: items) (true :: flags) = item >>= fun _ => present items flags := by
  rw [present]

end Reader

/-! ## Layouts -/

/-- Where an item at the front of some bytes ends: what is left behind it, when there is such an
item. -/
abbrev Layout := List UInt8 → Option (List UInt8)

namespace Layout

/-- An item of `n` bytes. -/
def fixed (n : Nat) : Layout := fun bytes =>
  if n ≤ bytes.length then some (bytes.drop n) else none

/-- An item of octets, at most `k` of them, each of which says whether one more follows. -/
def extended (k : Nat) : Layout := fun bytes => (chainOf k bytes).map Prod.snd

/-- An item of groups of `n + 1` bytes, of which the last says whether one more follows.  `skip`
bytes come before the next of these. -/
def chainedFrom (n : Nat) : Nat → Layout
  | _, [] => none
  | 0, octet :: rest => if more octet then chainedFrom n n rest else some rest
  | skip + 1, _ :: rest => chainedFrom n skip rest

def chained (n : Nat) : Layout := chainedFrom n n

/-- A count and that many groups of `n` bytes. -/
def repeated (n : Nat) : Layout
  | [] => none
  | count :: rest => fixed (count.toNat * n) rest

/-- An item that begins with its length, the length included. -/
def explicit : Layout
  | [] => none
  | length :: rest => if length.toNat < 1 then none else fixed (length.toNat - 1) rest

/-- Items in any order: a count and that many items, each behind its number. -/
def sequenced (items : List Layout) : Layout
  | [] => none
  | count :: rest => go count.toNat rest
where
  go : Nat → List UInt8 → Option (List UInt8)
    | 0, bytes => some bytes
    | _ + 1, [] => none
    | count + 1, number :: rest =>
      if number.toNat = 0 then none
      else (items[number.toNat - 1]?).bind fun item => (item rest).bind (go count)

/-- A bit of a presence map that must not be set. -/
def spare : Layout := fun _ => none

/-- The items that are present, in order. -/
def present : List Layout → List Bool → Layout
  | [], flags, bytes => if flags.any id then none else some bytes
  | _, [], bytes => some bytes
  | _ :: items, false :: flags, bytes => present items flags bytes
  | item :: items, true :: flags, bytes => (item bytes).bind (present items flags)

/-- A presence map, of no more octets than the items ask for, and the items that are present. -/
def compound (items : List Layout) : Layout := fun bytes =>
  (chainOf ((items.length + 6) / 7) bytes).bind fun found =>
    present items (found.1.flatMap flagsOf) found.2

theorem of_present_nil {flags : List Bool} {bytes rest : List UInt8}
    (h : present [] flags bytes = some rest) : rest = bytes := by
  rw [present] at h
  split at h
  next => cases h
  next => exact (some.inj h).symm

end Layout

open Reader hiding take get

/-! ## Readers that follow a layout -/

/-- A reader reads some bytes up to `rest`, whatever comes after them. -/
def Reads (p : Reader σ α) (state : σ) (bytes : List UInt8) (value : α) (state' : σ)
    (rest : List UInt8) : Prop :=
  ∀ after, p.run state (bytes ++ after) = .done value state' (rest ++ after)

/-- A reader ends every item where the layout ends it, and what comes after does not matter. -/
def Follows (p : Reader σ Unit) (layout : Layout) : Prop :=
  ∀ state bytes rest, layout bytes = some rest → ∃ state', Reads p state bytes () state' rest

section

variable {state mid state' : σ} {bytes between rest : List UInt8}

theorem Reads.pure (value : α) : Reads (Pure.pure value : Reader σ α) state bytes value state bytes :=
  fun _ => rfl

theorem Reads.bind {p : Reader σ α} {f : α → Reader σ β} {value : α} {result : β}
    (hp : Reads p state bytes value mid between)
    (hf : Reads (f value) mid between result state' rest) :
    Reads (p >>= f) state bytes result state' rest := by
  intro after
  rw [run_bind, hp after]
  exact hf after

theorem reads_update (f : σ → σ) : Reads (update f) state bytes () (f state) bytes :=
  fun _ => rfl

theorem reads_get : Reads (Reader.get : Reader σ σ) state bytes state state bytes := fun _ => rfl

theorem reads_take {n : Nat} (h : n ≤ bytes.length) :
    Reads (Reader.take n) state bytes (bytes.take n) state (bytes.drop n) := by
  intro after
  rw [run_take, if_neg (by rw [length_append]; omega), take_append_of_le_length h,
    drop_append_of_le_length h]

theorem reads_byte (octet : UInt8) :
    Reads byte state (octet :: bytes) octet state bytes := fun _ => rfl

theorem Reads.attempt {p : Reader σ α} {value : α} (h : Reads p state bytes value state' rest) :
    Reads p.attempt state bytes value state' rest := by
  intro after
  rw [run_attempt, h after]

theorem Reads.nested {p : Reader τ Unit} {start out : τ} {merge : τ → σ → σ}
    (h : Reads p start bytes () out rest) :
    Reads (nested start p merge) state bytes () (merge out state) rest := by
  intro after
  rw [run_nested, h after]

theorem Reads.apart {p : Reader τ Unit} {start out : τ} {merge : τ → σ → σ}
    (h : Reads p start bytes () out rest) :
    Reads (apart start p merge) state bytes () (merge out state) rest := by
  intro after
  rw [run_apart, h after]

variable {k : Nat} {found : List UInt8}

theorem reads_octets (h : chainOf k bytes = some (found, rest)) :
    Reads octets state bytes found state rest := by
  intro after
  show Result.done (chain (bytes ++ after)).1 state (chain (bytes ++ after)).2 = _
  rw [chain_of_chainOf h]

theorem reads_fspec (h : chainOf k bytes = some (found, rest)) :
    Reads fspec state bytes (found.flatMap flagsOf) state rest :=
  (reads_octets h).bind (Reads.pure _)

theorem reads_presence {limit : Nat} (h : chainOf k bytes = some (found, rest))
    (hlimit : found.length ≤ limit) :
    Reads (presence limit) state bytes (found.flatMap flagsOf) state rest := by
  intro after
  rw [run_presence, chainOf_append h hlimit]

theorem reads_presenceMap (h : chainOf k bytes = some (found, rest)) :
    Reads presenceMap state bytes (found.flatMap flagsOf) state rest := by
  intro after
  refine reads_presence h ?_ after
  have hlength := (length_of_chainOf h).2
  rw [length_append]
  omega

end

/-! ## Items -/

theorem Follows.mono {p : Reader σ Unit} {layout' : Layout} (h : Follows p layout)
    (hle : ∀ bytes rest, layout' bytes = some rest → layout bytes = some rest) :
    Follows p layout' :=
  fun state bytes rest hrest => h state bytes rest (hle bytes rest hrest)

@[simp] theorem follows_spare (p : Reader σ Unit) : Follows p Layout.spare := by
  intro state bytes rest h
  cases h

@[simp] theorem follows_fixed (n : Nat) (f : List UInt8 → σ → σ) :
    Follows (fixed n f) (Layout.fixed n) := by
  intro state bytes rest h
  rw [Layout.fixed] at h
  split at h
  next hle =>
    cases h
    exact ⟨_, (reads_take hle).bind (reads_update _)⟩
  next => cases h

theorem Follows.attempt {p : Reader σ Unit} (h : Follows p layout) :
    Follows p.attempt layout := by
  intro state bytes rest hrest
  obtain ⟨state', hreads⟩ := h state bytes rest hrest
  exact ⟨state', hreads.attempt⟩

theorem Follows.nested {p : Reader τ Unit} (h : Follows p layout) (start : τ) (merge : τ → σ → σ) :
    Follows (nested start p merge) layout := by
  intro state bytes rest hrest
  obtain ⟨out, hreads⟩ := h start bytes rest hrest
  exact ⟨_, hreads.nested⟩

theorem Follows.apart {p : Reader τ Unit} (h : Follows p layout) (start : τ) (merge : τ → σ → σ) :
    Follows (apart start p merge) layout := by
  intro state bytes rest hrest
  obtain ⟨out, hreads⟩ := h start bytes rest hrest
  exact ⟨_, hreads.apart⟩

@[simp] theorem follows_explicit : Follows (skipExplicit : Reader σ Unit) Layout.explicit := by
  intro state bytes rest h
  cases bytes with
  | nil => cases h
  | cons length bytes =>
    rw [Layout.explicit] at h
    split at h
    next => cases h
    next hpos =>
      rw [Layout.fixed] at h
      split at h
      next hle =>
        cases h
        refine ⟨state, fun after => ?_⟩
        rw [cons_append, run_skipExplicit, if_neg (by rw [length_append]; omega), drop_append_of_le_length hle]
      next => cases h

theorem reads_extents {f : Nat → UInt8 → σ → σ} {strict : Nat → Bool} {rest : List UInt8} :
    ∀ {bytes found : List UInt8} {k i : Nat} {state : σ}, chainOf k bytes = some (found, rest) →
      ∃ state', ∀ after, runExtents f strict i state (bytes ++ after) =
        .done () state' (rest ++ after)
  | [], found, k, i, state, h => by
    obtain ⟨octet, tail, l, hbytes, -⟩ := chainOf_cases h
    cases hbytes
  | octet :: bytes, found, k, i, state, h => by
    obtain ⟨octet', tail, l, hbytes, -, hcases⟩ := chainOf_cases h
    obtain ⟨rfl, rfl⟩ := cons.inj hbytes
    rcases hcases with ⟨hmore, -, rfl⟩ | ⟨found', hmore, -, hfound⟩
    · refine ⟨f i octet state, fun after => ?_⟩
      rw [cons_append, runExtents, if_neg (by rw [hmore]; exact false_ne_true)]
    · obtain ⟨state', hreads⟩ : ∃ state', ∀ after,
          runExtents f strict (i + 1) (f i octet state) (bytes ++ after) =
            .done () state' (rest ++ after) := reads_extents hfound
      refine ⟨state', fun after => ?_⟩
      rw [cons_append, runExtents, if_pos hmore, hreads after]

@[simp] theorem follows_extents (f : Nat → UInt8 → σ → σ) (strict : Nat → Bool) (k : Nat) :
    Follows (extents f strict) (Layout.extended k) := by
  intro state bytes rest h
  obtain ⟨⟨found, rest'⟩, hfound, rfl⟩ := map_eq_some_iff.mp h
  exact reads_extents hfound

/-- A chain of any length. -/
theorem reads_extentsTo {f : Nat → UInt8 → σ → σ} {strict : Nat → Bool} {rest : List UInt8} :
    ∀ {k limit : Nat} {bytes found : List UInt8} {i : Nat} (state : σ), k ≤ limit →
      chainOf k bytes = some (found, rest) → ∃ state', ∀ after,
        runExtentsTo f strict limit i state (bytes ++ after) = .done () state' (rest ++ after)
  | 0, limit, bytes, found, i, state, _, h => by cases h
  | k + 1, limit, bytes, found, i, state, hle, h => by
    obtain ⟨octet, after, l, rfl, hk, hcases⟩ := chainOf_cases h
    obtain rfl := Nat.succ.inj hk
    obtain ⟨limit, rfl⟩ := Nat.exists_eq_succ_of_ne_zero (Nat.ne_zero_of_lt hle)
    rcases hcases with ⟨hmore, -, rfl⟩ | ⟨found', hmore, -, hfound⟩
    · refine ⟨f i octet state, fun tail => ?_⟩
      rw [cons_append, runExtentsTo, hmore, if_neg Bool.false_ne_true]
    · obtain ⟨state', hreads⟩ := reads_extentsTo (f i octet state) (Nat.le_of_succ_le_succ hle) hfound
      refine ⟨state', fun tail => ?_⟩
      rw [cons_append, runExtentsTo, if_pos hmore]
      exact hreads tail

theorem follows_extentsTo {limit : Nat} (hle : k ≤ limit) (f : Nat → UInt8 → σ → σ)
    (strict : Nat → Bool) : Follows (extentsTo limit f strict) (Layout.extended k) := by
  intro state bytes rest h
  obtain ⟨⟨found, after⟩, hchain, rfl⟩ := map_eq_some_iff.mp h
  exact reads_extentsTo state hle hchain

theorem reads_need {state : σ} {bytes : List UInt8} (h : n ≤ bytes.length) :
    Reads (need n) state bytes () state bytes := by
  intro after
  show (if (bytes ++ after).length < n then Result.stop state else .done () state (bytes ++ after)) = _
  rw [if_neg (by rw [length_append]; omega)]

theorem chainOf_of_chained {rest : List UInt8} : ∀ {bytes : List UInt8},
    Layout.chained 0 bytes = some rest → ∃ found, chainOf bytes.length bytes = some (found, rest)
  | [], h => by cases h
  | octet :: bytes, h => by
    rw [Layout.chained, Layout.chainedFrom] at h
    split at h
    next hmore =>
      obtain ⟨found, hfound⟩ := chainOf_of_chained h
      exact ⟨octet :: found, by rw [length_cons, chainOf, if_pos hmore, hfound]; rfl⟩
    next hmore =>
      cases h
      exact ⟨[octet], by rw [length_cons, chainOf, if_neg hmore]⟩

/-- The first group of a chain of groups. -/
theorem chainedFrom_cases {rest : List UInt8} : ∀ {skip : Nat} {bytes : List UInt8},
    Layout.chainedFrom n skip bytes = some rest →
      skip + 1 ≤ bytes.length ∧
        ((bytes.take (skip + 1)).getLast?.any more = false ∧ rest = bytes.drop (skip + 1) ∨
          (bytes.take (skip + 1)).getLast?.any more = true ∧
            Layout.chained n (bytes.drop (skip + 1)) = some rest)
  | skip, [], h => by cases skip <;> cases h
  | 0, octet :: bytes, h => by
    rw [Layout.chainedFrom] at h
    refine ⟨Nat.succ_le_succ (Nat.zero_le _), ?_⟩
    split at h
    next hmore => exact .inr ⟨hmore, h⟩
    next hmore =>
      cases h
      exact .inl ⟨Bool.eq_false_iff.mpr hmore, rfl⟩
  | skip + 1, octet :: bytes, h => by
    have hskip : Layout.chainedFrom n skip bytes = some rest := h
    obtain ⟨hlength, hcases⟩ := chainedFrom_cases hskip
    refine ⟨Nat.succ_le_succ hlength, ?_⟩
    have hne : bytes.take (skip + 1) ≠ [] := by
      intro hnil
      have hzero := congrArg length hnil
      rw [length_take, length_nil] at hzero
      omega
    have hlast : ((octet :: bytes).take (skip + 1 + 1)).getLast? =
        (bytes.take (skip + 1)).getLast? := by
      rw [take_succ_cons, getLast?_cons_of_ne_nil hne]
    rw [hlast, drop_succ_cons]
    exact hcases

theorem reads_groupChain (strict : Bool) (f : List UInt8 → σ → σ) {bytes rest : List UInt8}
    (state : σ) (h : Layout.chained n bytes = some rest) :
    ∃ state', ∀ after fuel, bytes.length ≤ fuel →
      runGroupChain strict n f fuel state (bytes ++ after) = .done () state' (rest ++ after) := by
  obtain ⟨hlength, hcases⟩ := chainedFrom_cases h
  have hstep : ∀ after fuel, bytes.length ≤ fuel + 1 →
      runGroupChain strict n f (fuel + 1) state (bytes ++ after) =
        if (bytes.take (n + 1)).getLast?.any more then
          runGroupChain strict n f fuel (f (bytes.take (n + 1)) state)
            (bytes.drop (n + 1) ++ after)
        else .done () (f (bytes.take (n + 1)) state) (bytes.drop (n + 1) ++ after) := by
    intro after fuel _
    rw [runGroupChain, if_neg (by rw [length_append]; omega),
      take_append_of_le_length hlength, drop_append_of_le_length hlength]
  rcases hcases with ⟨hlast, rfl⟩ | ⟨hlast, hrest⟩
  · refine ⟨f (bytes.take (n + 1)) state, fun after fuel hfuel => ?_⟩
    cases fuel with
    | zero => omega
    | succ fuel => rw [hstep after fuel hfuel, hlast, if_neg Bool.false_ne_true]
  · have hless : (bytes.drop (n + 1)).length < bytes.length := by
      rw [length_drop]
      omega
    obtain ⟨state', hreads⟩ := reads_groupChain strict f (f (bytes.take (n + 1)) state) hrest
    refine ⟨state', fun after fuel hfuel => ?_⟩
    cases fuel with
    | zero => omega
    | succ fuel =>
      rw [hstep after fuel hfuel, hlast, if_pos rfl]
      exact hreads after fuel (by omega)
termination_by bytes.length

@[simp] theorem follows_groupChain (strict : Bool) (n : Nat) (f : List UInt8 → σ → σ) :
    Follows (groupChain strict n f) (Layout.chained n) := by
  intro state bytes rest h
  obtain ⟨state', hreads⟩ := reads_groupChain strict f state h
  refine ⟨state', fun after => ?_⟩
  exact hreads after _ (by rw [length_append]; omega)

theorem reads_groups (strict : Bool) (f : List UInt8 → σ → σ) :
    ∀ {count : Nat} {bytes : List UInt8} (state : σ), count * n ≤ bytes.length →
      ∃ state', Reads (groups strict n f count) state bytes () state'
        (bytes.drop (count * n))
  | 0, _, state, _ => ⟨state, fun _ => by rw [Nat.zero_mul]; rfl⟩
  | count + 1, bytes, state, h => by
    rw [Nat.succ_mul] at h
    have hrest : count * n ≤ (bytes.drop n).length := by
      rw [length_drop]
      omega
    obtain ⟨state', hreads⟩ := reads_groups strict f (f (bytes.take n) state) hrest
    refine ⟨state', fun after => ?_⟩
    have hread := hreads after
    rw [drop_drop] at hread
    show runGroups strict n f (count + 1) state (bytes ++ after) = _
    rw [runGroups, if_neg (by rw [length_append]; omega),
      take_append_of_le_length (by omega), drop_append_of_le_length (by omega),
      Nat.succ_mul, Nat.add_comm (count * n) n]
    exact hread

/-- A count and the groups that it announces. -/
def Reader.counted (strict : Bool) (n : Nat) (f : List UInt8 → σ → σ) : Reader σ Unit := do
  let count ← byte
  groups strict n f count.toNat

@[simp] theorem follows_counted (strict : Bool) (n : Nat) (f : List UInt8 → σ → σ) :
    Follows (counted strict n f) (Layout.repeated n) := by
  intro state bytes rest h
  cases bytes with
  | nil => cases h
  | cons count bytes =>
    rw [Layout.repeated, Layout.fixed] at h
    split at h
    next hle =>
      cases h
      obtain ⟨state', hreads⟩ := reads_groups strict f state hle
      exact ⟨state', (reads_byte count).bind hreads⟩
    next => cases h

/-! ## Presence maps -/

/-- Items that are present are read where their layouts end them. -/
theorem follows_present (h : List.Forall₂ Follows items layouts) :
    ∀ flags, Follows (present items flags) (Layout.present layouts flags) := by
  induction h with
  | nil =>
    intro flags state bytes rest hrest
    obtain rfl := Layout.of_present_nil hrest
    exact ⟨state, fun _ => rfl⟩
  | @cons item layout items layouts hitem _ ih =>
    intro flags state bytes rest hrest
    match flags with
    | [] =>
      cases hrest
      exact ⟨state, fun _ => rfl⟩
    | false :: flags => exact ih flags state bytes rest hrest
    | true :: flags =>
      obtain ⟨between, hbetween, hrest⟩ := bind_eq_some_iff.mp hrest
      obtain ⟨mid, hmid⟩ := hitem state bytes between hbetween
      obtain ⟨state', hstate'⟩ := ih flags mid between rest hrest
      exact ⟨state', hmid.bind hstate'⟩

/-- Flags behind the last item are not looked at. -/
theorem run_present_take {state : σ} {bytes : List UInt8} : ∀ (items : List (Reader σ Unit))
    (flags : List Bool), (present items flags).run state bytes =
      (present items (flags.take items.length)).run state bytes
  | [], _ => rfl
  | _ :: _, [] => rfl
  | _ :: items, false :: flags => run_present_take items flags
  | item :: items, true :: flags => by
    rw [length_cons, take_succ_cons, present, present, run_bind,
      run_bind]
    cases item.run state bytes with
    | done value mid rest => exact run_present_take items flags
    | stop => rfl
    | raise => rfl

/-- A layout that ends items where another one does. -/
def Layout.Refines (layout layout' : Layout) : Prop :=
  ∀ bytes rest, layout bytes = some rest → layout' bytes = some rest

@[simp] theorem Layout.Refines.refl (layout : Layout) : layout.Refines layout := fun _ _ h => h

theorem Layout.Refines.refl_all (layouts : List Layout) :
    List.Forall₂ Layout.Refines layouts layouts := by
  induction layouts with
  | nil => exact .nil
  | cons layout layouts ih => exact .cons (.refl layout) ih

theorem Layout.Refines.present {layouts' : List Layout}
    (h : List.Forall₂ Layout.Refines layouts layouts') :
    ∀ flags, (Layout.present layouts flags).Refines (Layout.present layouts' flags) := by
  induction h with
  | nil => exact fun flags => .refl _
  | @cons layout layout' layouts layouts' hlayout _ ih =>
    intro flags bytes rest hrest
    match flags with
    | [] => exact hrest
    | false :: flags => exact ih flags bytes rest hrest
    | true :: flags =>
      obtain ⟨between, hbetween, hrest⟩ := bind_eq_some_iff.mp hrest
      exact bind_eq_some_iff.mpr
        ⟨between, hlayout bytes between hbetween, ih flags between rest hrest⟩

theorem Layout.Refines.compound {layouts' : List Layout}
    (h : List.Forall₂ Layout.Refines layouts layouts') :
    (Layout.compound layouts).Refines (Layout.compound layouts') := by
  intro bytes rest hrest
  obtain ⟨found, hfound, hrest⟩ := bind_eq_some_iff.mp hrest
  rw [h.length_eq] at hfound
  exact bind_eq_some_iff.mpr ⟨found, hfound, Layout.Refines.present h _ _ _ hrest⟩

/-- The items behind a presence map. -/
def Reader.compound (flags : Reader σ (List Bool)) (items : List (Reader σ Unit)) :
    Reader σ Unit := do
  let found ← flags
  present items found

/-- At least the first octet of the presence map is taken. -/
theorem length_of_compound_fspec {state state' : σ} {bytes rest : List UInt8} {value : Unit}
    (h : (compound fspec items).run state bytes = .done value state' rest)
    (hne : bytes ≠ []) : rest.length < bytes.length := by
  have hrun : (present items ((chain bytes).1.flatMap flagsOf)).run state (chain bytes).2 =
      .done value state' rest := h
  exact Nat.lt_of_le_of_lt ((present items _).suffix hrun).length_le (length_chain_lt hne)

/-- A reader of presence maps finds the flags of a map of at most `k` octets. -/
def ReadsFlags (p : Reader σ (List Bool)) (k : Nat) : Prop :=
  ∀ state bytes found rest, chainOf k bytes = some (found, rest) →
    Reads p state bytes (found.flatMap flagsOf) state rest

theorem readsFlags_fspec (k : Nat) : ReadsFlags (fspec : Reader σ (List Bool)) k :=
  fun _ _ _ _ h => reads_fspec h

theorem readsFlags_presence {limit : Nat} (hlimit : k ≤ limit) :
    ReadsFlags (presence limit : Reader σ (List Bool)) k :=
  fun _ _ _ _ h => reads_presence h (Nat.le_trans (length_of_chainOf h).1 hlimit)

theorem readsFlags_presenceMap (k : Nat) :
    ReadsFlags (presenceMap : Reader σ (List Bool)) k :=
  fun _ _ _ _ h => reads_presenceMap h

theorem ReadsFlags.attempt {p : Reader σ (List Bool)} (h : ReadsFlags p k) :
    ReadsFlags p.attempt k :=
  fun state bytes found rest hfound => (h state bytes found rest hfound).attempt

theorem follows_compound {flags : Reader σ (List Bool)}
    (hflags : ReadsFlags flags ((layouts.length + 6) / 7))
    (hitems : List.Forall₂ Follows items layouts) :
    Follows (compound flags items) (Layout.compound layouts) := by
  intro state bytes rest h
  obtain ⟨⟨found, between⟩, hfound, hrest⟩ := bind_eq_some_iff.mp h
  obtain ⟨state', hreads⟩ := follows_present hitems _ state between rest hrest
  exact ⟨state', (hflags state bytes found between hfound).bind hreads⟩

/-- A message that the layouts describe to its end is read to its end, and as it is read alone. -/
theorem reads_message {flags : Reader σ (List Bool)}
    (hflags : ReadsFlags flags ((layouts.length + 6) / 7))
    (hitems : List.Forall₂ Follows items layouts) (start : σ) {message : List UInt8}
    (h : Layout.compound layouts message = some []) :
    ∃ state, (compound flags items).run start message = .done () state [] ∧
      ∀ after, (compound flags items).run start (message ++ after) =
        .done () state after := by
  obtain ⟨state, hreads⟩ := follows_compound hflags hitems start message [] h
  have halone := hreads []
  rw [append_nil] at halone
  exact ⟨state, halone, hreads⟩

@[simp] theorem follows_octets (f : List UInt8 → σ → σ) :
    Follows (octets >>= fun found => update (f found)) (Layout.chained 0) := by
  intro state bytes rest h
  obtain ⟨found, hfound⟩ := chainOf_of_chained h
  exact ⟨_, (reads_octets hfound).bind (reads_update _)⟩

/-- A count and the bytes of the groups that it announces. -/
def Reader.countedBlock (n : Nat) (f : Nat → List UInt8 → σ → σ) : Reader σ Unit := do
  let count ← byte
  let data ← Reader.take (count.toNat * n)
  update (f count.toNat data)

@[simp] theorem follows_countedBlock (n : Nat) (f : Nat → List UInt8 → σ → σ) :
    Follows (countedBlock n f) (Layout.repeated n) := by
  intro state bytes rest h
  cases bytes with
  | nil => cases h
  | cons count bytes =>
    rw [Layout.repeated, Layout.fixed] at h
    split at h
    next hle =>
      cases h
      exact ⟨_, (reads_byte count).bind ((reads_take hle).bind (reads_update _))⟩
    next => cases h

/-- The bits behind the last item are not set. -/
theorem spare_of_present : ∀ {layouts : List Layout} {flags : List Bool} {bytes rest : List UInt8},
    Layout.present layouts flags bytes = some rest → (flags.drop layouts.length).any id = false
  | [], flags, bytes, rest, h => by
    rw [Layout.present] at h
    split at h
    next => cases h
    next hany => exact Bool.not_eq_true _ ▸ hany
  | _ :: _, [], _, _, _ => by
    rw [List.drop_nil]
    rfl
  | _ :: layouts, false :: flags, bytes, rest, h => by
    rw [List.length_cons, List.drop_succ_cons]
    exact @spare_of_present layouts flags bytes rest h
  | layout :: layouts, true :: flags, bytes, rest, h => by
    obtain ⟨between, -, hrest⟩ := bind_eq_some_iff.mp h
    rw [length_cons, drop_succ_cons]
    exact spare_of_present hrest

/-- The items behind a presence map.  A map that announces others gives up the message. -/
def Reader.compoundOnly (flags : Reader σ (List Bool)) (items : List (Reader σ Unit)) :
    Reader σ Unit := do
  let found ← flags
  if (found.drop items.length).any id then stop else present items found

theorem follows_compoundOnly {flags : Reader σ (List Bool)}
    (hflags : ReadsFlags flags ((layouts.length + 6) / 7))
    (hitems : List.Forall₂ Follows items layouts) :
    Follows (compoundOnly flags items) (Layout.compound layouts) := by
  intro state bytes rest h
  obtain ⟨⟨found, between⟩, hfound, hrest⟩ := bind_eq_some_iff.mp h
  obtain ⟨state', hreads⟩ := follows_present hitems _ state between rest hrest
  refine ⟨state', (hflags state bytes found between hfound).bind ?_⟩
  rw [hitems.length_eq, if_neg (by rw [spare_of_present hrest]; exact false_ne_true)]
  exact hreads

/-! ## Messages of records -/

/-- The loop over the records of a message: what is decoded at each position, and the bytes it
is decoded from.  A decoder that does not move on ends the loop. -/
def records (decode : List UInt8 → Nat → τ × Nat) (data : List UInt8) (pos : Nat) :
    List (τ × List UInt8) :=
  if pos < data.length then
    if (decode data pos).2 ≤ pos then []
    else
      ((decode data pos).1, (data.take (decode data pos).2).drop pos) ::
        records decode data (decode data pos).2
  else []
termination_by data.length - pos

/-- Records one after the other, each with its value at its position. -/
def placed (value : Nat → List UInt8 → τ) : Nat → List (List UInt8) → List (τ × List UInt8)
  | _, [] => []
  | pos, r :: rs => (value pos r, r) :: placed value (pos + r.length) rs

/-- A decoder from any position, by a reader of what is left from there on. -/
def decodeAt (decode : List UInt8 → τ × List UInt8) (data : List UInt8) (pos : Nat) : τ × Nat :=
  ((decode (data.drop pos)).1, data.length - (decode (data.drop pos)).2.length)

theorem map_snd_placed (value : Nat → List UInt8 → τ) :
    ∀ (pos : Nat) (rs : List (List UInt8)), (placed value pos rs).map Prod.snd = rs
  | _, [] => rfl
  | pos, r :: rs => congrArg (r :: ·) (map_snd_placed value (pos + r.length) rs)

theorem mem_placed {value : Nat → List UInt8 → τ} {entry : τ × List UInt8} :
    ∀ {pos : Nat} {rs : List (List UInt8)}, entry ∈ placed value pos rs →
      entry.2 ∈ rs ∧ ∃ pos', entry.1 = value pos' entry.2
  | _, [], h => nomatch h
  | pos, r :: rs, h => by
    rcases List.mem_cons.mp h with rfl | h
    · exact ⟨List.mem_cons_self .., pos, rfl⟩
    · obtain ⟨hmem, hvalue⟩ := mem_placed h
      exact ⟨.tail _ hmem, hvalue⟩

section

/-- A decoder that takes something off the front of what is left moves on, and not past the
end. -/
theorem decodeAt_moves {decode : List UInt8 → τ × List UInt8} {data : List UInt8} {pos : Nat}
    (hpos : pos < data.length) (h : ∀ bytes ≠ [], (decode bytes).2.length < bytes.length) :
    pos < (decodeAt decode data pos).2 ∧ (decodeAt decode data pos).2 ≤ data.length := by
  have hne : data.drop pos ≠ [] := ne_nil_of_length_pos (by rw [length_drop]; omega)
  have hless := h _ hne
  rw [length_drop] at hless
  rw [decodeAt]
  omega

/-- A decoder that takes a record off the front of what is left finds it at its position. -/
theorem decodeAt_append {decode : List UInt8 → τ × List UInt8} {value : τ}
    {before record : List UInt8} (h : decode (record ++ after) = (value, after)) :
    decodeAt decode (before ++ (record ++ after)) before.length =
      (value, before.length + record.length) := by
  rw [decodeAt, drop_left, h, length_append, length_append, ← Nat.add_assoc,
    Nat.add_sub_cancel]

variable {decode : List UInt8 → Nat → τ × Nat} {data : List UInt8} {pos : Nat}

theorem records_end (h : data.length ≤ pos) : records decode data pos = [] := by
  rw [records, if_neg (Nat.not_lt.mpr h)]

theorem records_step (h : pos < data.length) (hmove : pos < (decode data pos).2) :
    records decode data pos =
      ((decode data pos).1, (data.take (decode data pos).2).drop pos) ::
        records decode data (decode data pos).2 := by
  rw [records, if_pos h, if_neg (Nat.not_le.mpr hmove)]

/-- A decoder that moves on within the message cuts it into slices that make it up. -/
theorem flatten_records (hmove : ∀ pos < data.length,
      pos < (decode data pos).2 ∧ (decode data pos).2 ≤ data.length) (pos : Nat) :
    ((records decode data pos).map Prod.snd).flatten = data.drop pos := by
  rcases Nat.lt_or_ge pos data.length with hlt | hge
  · obtain ⟨hless, hle⟩ := hmove pos hlt
    have hsplit : data.drop pos =
        (data.take (decode data pos).2).drop pos ++ data.drop (decode data pos).2 := by
      conv_lhs => rw [← take_append_drop (decode data pos).2 data]
      rw [drop_append, length_take, Nat.min_eq_left hle, Nat.sub_eq_zero_of_le
        (Nat.le_of_lt hless), drop_zero]
    rw [records_step hlt hless, map_cons, flatten_cons, flatten_records hmove, hsplit]
  · rw [records_end hge, drop_of_length_le hge]
    rfl
termination_by data.length - pos

/-- There are no more records than bytes. -/
theorem length_records_le (decode : List UInt8 → Nat → τ × Nat) (data : List UInt8) (pos : Nat) :
    (records decode data pos).length ≤ data.length - pos := by
  rw [records]
  split
  next hlt =>
    split
    next => exact Nat.zero_le _
    next hmove =>
      have hrest := length_records_le decode data (decode data pos).2
      rw [length_cons]
      omega
  next => exact Nat.zero_le _
termination_by data.length - pos

/-- A decoder finds each of the records that make up a message, from its own bytes. -/
theorem records_flatten {value : Nat → List UInt8 → τ} : ∀ (rs : List (List UInt8))
    (before : List UInt8), (∀ r ∈ rs, r ≠ [] ∧ ∀ before after,
      decode (before ++ (r ++ after)) before.length =
        (value before.length r, before.length + r.length)) →
    records decode (before ++ rs.flatten) before.length = placed value before.length rs
  | [], before, _ => by
    rw [List.flatten_nil, List.append_nil, records_end (Nat.le_refl _)]
    rfl
  | r :: rs, before, h => by
    obtain ⟨hne, hdecode⟩ := h r (.head _)
    have hpos : 0 < r.length := length_pos_of_ne_nil hne
    have hr := hdecode before rs.flatten
    have hmove : before.length < (decode (before ++ (r ++ rs.flatten)) before.length).2 := by
      rw [hr]
      exact Nat.lt_add_of_pos_right hpos
    have hlt : before.length < (before ++ (r ++ rs.flatten)).length := by
      rw [length_append, length_append]
      omega
    have hrest := records_flatten rs (before ++ r) fun s hs => h s (.tail _ hs)
    rw [append_assoc, length_append] at hrest
    rw [flatten_cons, records_step hlt hmove, hr, hrest, placed,
      ← append_assoc, ← length_append, take_left, drop_left]

end

end Reading
