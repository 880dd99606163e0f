import Efdi.Base.PyDict
import Efdi.Base.PyJson
import Efdi.Base.PyStr
import Mathlib.Algebra.Order.Ring.Rat

/-!
# Python built-ins that raise

`PyBuiltins` collects conversions of the standard library, each with what it raises.  Beside them
stand the readings of a JSON value that need none of them: what a loop over it sees, and what `or`
picks.
-/

/-- An exception of a built-in operation. -/
inductive PyError where
  | typeError
  | valueError
  | overflowError
  | attributeError
  | keyError
deriving DecidableEq

/-- Conversions: `str(value)`, `s.upper()`, `s.isdigit()`, `int(value)`, `float(value)`,
`round(x, digits)`, a value formatted with a fixed number of digits, and the time stamp of
`datetime.fromisoformat(s).astimezone(timezone.utc)`. -/
structure PyBuiltins where
  str : PyJson → String
  upper : String → String
  isdigit : String → Bool
  int : PyJson → Except PyError Int
  float : PyJson → Except PyError PyFloat
  round : PyFloat → Nat → PyFloat
  fixed : PyJson → Nat → Except PyError String
  fromisoformat : String → Except PyError Rat

namespace PyError

variable {α β : Type}

theorem bind_eq_ok {found : Except PyError α} {f : α → Except PyError β} {b : β}
    (h : found >>= f = .ok b) : ∃ a, found = .ok a ∧ f a = .ok b := by
  cases found with
  | error raised => cases h
  | ok a => exact ⟨a, rfl, h⟩

/-- What every round of a loop keeps holds at its end. -/
theorem foldlM_kept {P : β → Prop} {f : β → α → Except PyError β}
    (hround : ∀ b a b', P b → f b a = .ok b' → P b') :
    ∀ {items : List α} {b b' : β}, P b → items.foldlM f b = .ok b' → P b'
  | [], b, b', hb, h => by
    cases h
    exact hb
  | a :: items, b, b', hb, h => by
    rw [List.foldlM_cons] at h
    obtain ⟨b₁, hb₁, hrest⟩ := bind_eq_ok h
    exact foldlM_kept hround (hround b a b₁ hb hb₁) hrest

end PyError

namespace PyFloat

/-- `lo <= x <= hi`. -/
def between (lo hi : Rat) : PyFloat → Bool
  | .finite x => lo ≤ x && x ≤ hi
  | _ => false

/-- `x == y`. -/
def eq : PyFloat → PyFloat → Bool
  | .nan, _ => false
  | x, y => x = y

end PyFloat

namespace PyJson

/-- `value[key]`. -/
def item (value : PyJson) (key : String) : Except PyError PyJson :=
  match value with
  | .dict items =>
    match lookup key items with
    | none => .error .keyError
    | some found => .ok found
  | _ => .error .typeError

/-- What `for item in value` sees. -/
def iter : PyJson → Except PyError (List PyJson)
  | .list xs => .ok xs
  | .dict items => .ok (items.map fun item => .str item.1)
  | .str s => .ok (s.toList.map fun c => .str (String.ofList [c]))
  | _ => .error .typeError

/-- `value.get(key)` on a dict. -/
def getNull (value : PyJson) (key : String) : PyJson := value.getD key .null

/-- `a or b`. -/
def or (a b : PyJson) : PyJson := if a.truthy then a else b

end PyJson

namespace PyDict

variable {κ α : Type} [DecidableEq κ]

variable {β : Type}

/-- `d[key] = f(value)` for the items of `e`. -/
def updateWith (f : α → β) (d : PyDict κ β) (e : PyDict κ α) : PyDict κ β :=
  e.entries.foldl (fun d entry => d.set entry.1 (f entry.2)) d

/-- `d.update(e)`. -/
def update (d e : PyDict κ α) : PyDict κ α := updateWith id d e

theorem get?_foldl_entries (f : α → β) (key : κ) : ∀ {entries : List (κ × α)},
    (entries.map Prod.fst).Nodup → ∀ d : PyDict κ β,
      (entries.foldl (fun d entry => d.set entry.1 (f entry.2)) d).get? key =
        ((lookup key entries).map f).or (d.get? key)
  | [], _, d => rfl
  | (k, value) :: entries, hnodup, d => by
    obtain ⟨hfresh, hrest⟩ := List.nodup_cons.mp hnodup
    rw [List.foldl_cons, get?_foldl_entries f key hrest, lookup]
    by_cases hkey : k = key
    · rw [if_pos hkey, ← hkey, lookup_eq_none_iff.mpr hfresh, get?_set_self]
      rfl
    · rw [if_neg hkey, get?_set_of_ne (d := d) (Ne.symm hkey)]

theorem get?_updateWith (f : α → β) (d : PyDict κ β) (e : PyDict κ α) (key : κ) :
    (d.updateWith f e).get? key = ((e.get? key).map f).or (d.get? key) :=
  get?_foldl_entries f key e.nodup d

theorem get?_update (d e : PyDict κ α) (key : κ) :
    (d.update e).get? key = (e.get? key).or (d.get? key) := by
  rw [update, get?_updateWith, Option.map_id, id]

/-- The keys, in their order. -/
def keys (d : PyDict κ α) : List κ := d.entries.map Prod.fst

theorem mem_keys {d : PyDict κ α} {key : κ} : key ∈ d.keys ↔ ∃ value, d.get? key = some value := by
  rw [keys, ← contains_iff, contains, Option.isSome_iff_exists]

end PyDict

/-- The conversions of whole numbers, texts and one time. -/
def PyBuiltins.plain : PyBuiltins where
  str value := value.str?.getD ""
  upper s := s
  isdigit _ := true
  int value := match value.int? with
    | some n => .ok n
    | none => .error .typeError
  float value := match value.int? with
    | some n => .ok (.finite n)
    | none => .error .typeError
  round x _ := x
  fixed value digits := match value.int? with
    | some n =>
      .ok (toString n ++
        if digits = 0 then "" else "." ++ String.ofList (List.replicate digits '0'))
    | none => .error .typeError
  fromisoformat s := if s = "2026-01-01T00:20:00+00:00" then .ok 1767226800 else .error .valueError
