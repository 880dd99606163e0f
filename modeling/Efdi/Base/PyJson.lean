import Mathlib.Data.Rat.Defs

/-!
# JSON values as Python sees them

The values `json.loads` and `json5.loads` return.  An object is a Python dict: a
list of key and value pairs in which each key stands once.
-/

/-- A Python float.  Equality is that of the document, so `nan` equals itself. -/
inductive PyFloat where
  | finite (value : Rat)
  | infinity (negative : Bool)
  | nan
deriving DecidableEq

/-- A JSON value. -/
inductive PyJson where
  | null
  | bool (b : Bool)
  | int (n : Int)
  | float (x : PyFloat)
  | str (s : String)
  | list (xs : List PyJson)
  | dict (items : List (String × PyJson))

namespace PyJson

/-! ## Equality -/

mutual

/-- Equality of values, decided. -/
def beq : PyJson → PyJson → Bool
  | .null, .null => true
  | .bool a, .bool b => a == b
  | .int a, .int b => a == b
  | .float a, .float b => a == b
  | .str a, .str b => a == b
  | .list as, .list bs => beqList as bs
  | .dict as, .dict bs => beqDict as bs
  | _, _ => false

/-- Equality of lists of values, decided. -/
def beqList : List PyJson → List PyJson → Bool
  | [], [] => true
  | a :: as, b :: bs => beq a b && beqList as bs
  | _, _ => false

/-- Equality of lists of items, decided. -/
def beqDict : List (String × PyJson) → List (String × PyJson) → Bool
  | [], [] => true
  | (k, a) :: as, (l, b) :: bs => k == l && beq a b && beqDict as bs
  | _, _ => false

end

mutual

theorem beq_iff : ∀ a b : PyJson, beq a b = true ↔ a = b
  | .null, b => by cases b <;> simp [beq]
  | .bool _, b => by cases b <;> simp [beq]
  | .int _, b => by cases b <;> simp [beq]
  | .float _, b => by cases b <;> simp [beq]
  | .str _, b => by cases b <;> simp [beq]
  | .list as, b => by cases b <;> simp [beq, beqList_iff as]
  | .dict as, b => by cases b <;> simp [beq, beqDict_iff as]

theorem beqList_iff : ∀ as bs : List PyJson, beqList as bs = true ↔ as = bs
  | [], bs => by cases bs <;> simp [beqList]
  | a :: as, bs => by cases bs <;> simp [beqList, beq_iff a, beqList_iff as]

theorem beqDict_iff : ∀ as bs : List (String × PyJson), beqDict as bs = true ↔ as = bs
  | [], bs => by cases bs <;> simp [beqDict]
  | (k, a) :: as, bs => by
    cases bs with
    | nil => simp [beqDict]
    | cons q bs =>
      obtain ⟨l, b⟩ := q
      simp [beqDict, beq_iff a, beqDict_iff as]

end

instance : DecidableEq PyJson := fun a b => decidable_of_iff _ (beq_iff a b)

/-! ## Reading -/

/-- `isinstance(v, dict)`. -/
def isDict : PyJson → Bool
  | .dict _ => true
  | _ => false

/-- The items of a dict, none for any other value. -/
def items : PyJson → List (String × PyJson)
  | .dict kvs => kvs
  | _ => []

/-- The value at a key of a list of items. -/
def lookup (key : String) : List (String × PyJson) → Option PyJson
  | [] => none
  | (k, v) :: kvs => if k = key then some v else lookup key kvs

/-- `v.get(key)` on a dict, and nothing on any other value. -/
def get? (v : PyJson) (key : String) : Option PyJson := lookup key v.items

/-- `v.get(key, default)` on a dict. -/
def getD (v : PyJson) (key : String) (default : PyJson) : PyJson := (v.get? key).getD default

/-- The string a value is, when it is one. -/
def str? : PyJson → Option String
  | .str s => some s
  | _ => none

theorem eq_str {value : PyJson} {s : String} (h : value.str? = some s) : value = .str s := by
  cases value with
  | str s' => rw [Option.some.inj h]
  | null => cases h
  | bool b => cases h
  | int n => cases h
  | float x => cases h
  | list xs => cases h
  | dict items => cases h

/-- The list a value is, when it is one. -/
def list? : PyJson → Option (List PyJson)
  | .list xs => some xs
  | _ => none

/-- The integer a value is, when `isinstance(v, int) and not isinstance(v, bool)`. -/
def int? : PyJson → Option Int
  | .int n => some n
  | _ => none

/-- `set(v) == keys` on a dict. -/
def hasKeys (v : PyJson) (keys : List String) : Bool :=
  v.isDict && v.items.all (fun kv => keys.contains kv.1) &&
    keys.all (fun k => (v.get? k).isSome)

/-- `v == n` in Python, where `True` is `1` and a float is compared by value. -/
def eqInt (v : PyJson) (n : Int) : Bool :=
  match v with
  | .int m => m == n
  | .bool b => (if b then 1 else 0) == n
  | .float (.finite q) => q == (n : Rat)
  | _ => false

/-- `bool(v)`. -/
def truthy : PyJson → Bool
  | .null => false
  | .bool b => b
  | .int n => n != 0
  | .float (.finite q) => q != 0
  | .float _ => true
  | .str s => s != ""
  | .list xs => !xs.isEmpty
  | .dict kvs => !kvs.isEmpty

@[simp] theorem get?_dict (kvs : List (String × PyJson)) (key : String) :
    (dict kvs).get? key = lookup key kvs := rfl

@[simp] theorem lookup_cons (key k : String) (v : PyJson) (kvs : List (String × PyJson)) :
    lookup key ((k, v) :: kvs) = if k = key then some v else lookup key kvs := rfl

end PyJson
