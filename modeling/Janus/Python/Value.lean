import Mathlib.Data.Rat.Floor

/-!
# Dynamic values

The values a JSON body or a response object holds, and the built-ins the gateway applies to them.
`object` is an instance with attributes; `dict` and `list` are unhashable.
-/

set_option autoImplicit false

namespace Python

inductive Error
  | typeError
  | valueError
  | overflowError
  | attributeError
  | keyError
  | indexError
  | recursionError
deriving DecidableEq, Repr

inductive Float
  | finite (q : Rat)
  | inf (negative : Bool)
  | nan
deriving DecidableEq

inductive Value
  | none
  | bool (b : Bool)
  | int (n : Int)
  | float (x : Float)
  | str (s : String)
  | list (xs : List Value)
  | dict (fields : List (String × Value))
  | object (attrs : List (String × Value))

abbrev Fields := List (String × Value)

/-- `d.get(key, default)`. -/
def Fields.get (d : Fields) (key : String) (default : Value) : Value :=
  (d.lookup key).getD default

/-- `d[key] = value`. -/
def Fields.set (d : Fields) (key : String) (value : Value) : Fields :=
  if d.any (·.1 = key) then d.map fun entry => if entry.1 = key then (key, value) else entry
  else d ++ [(key, value)]

namespace Value

mutual

/-- Structural equality. -/
def beq : Value → Value → Bool
  | none, none => true
  | bool a, bool b => a == b
  | int m, int n => m == n
  | float x, float y => x == y
  | str s, str t => s == t
  | list xs, list ys => beqList xs ys
  | dict xs, dict ys => beqFields xs ys
  | object xs, object ys => beqFields xs ys
  | _, _ => false

def beqList : List Value → List Value → Bool
  | [], [] => true
  | x :: xs, y :: ys => beq x y && beqList xs ys
  | _, _ => false

def beqFields : List (String × Value) → List (String × Value) → Bool
  | [], [] => true
  | (k, x) :: xs, (l, y) :: ys => k == l && beq x y && beqFields xs ys
  | _, _ => false

end

mutual

theorem beq_iff : ∀ {a b : Value}, beq a b = true ↔ a = b
  | none, b => by cases b <;> simp [beq]
  | bool _, b => by cases b <;> simp [beq]
  | int _, b => by cases b <;> simp [beq]
  | float _, b => by cases b <;> simp [beq]
  | str _, b => by cases b <;> simp [beq]
  | list xs, b => by cases b <;> simp [beq, @beqList_iff xs]
  | dict xs, b => by cases b <;> simp [beq, @beqFields_iff xs]
  | object xs, b => by cases b <;> simp [beq, @beqFields_iff xs]

theorem beqList_iff : ∀ {xs ys : List Value}, beqList xs ys = true ↔ xs = ys
  | [], ys => by cases ys <;> simp [beqList]
  | x :: xs, ys => by cases ys <;> simp [beqList, @beq_iff x, @beqList_iff xs]

theorem beqFields_iff : ∀ {xs ys : List (String × Value)}, beqFields xs ys = true ↔ xs = ys
  | [], ys => by cases ys <;> simp [beqFields]
  | (k, x) :: xs, ys => by
    cases ys <;> simp [beqFields, @beq_iff x, @beqFields_iff xs, Prod.ext_iff]

end

instance : DecidableEq Value := fun _ _ => decidable_of_iff _ beq_iff

/-- `v is not None`. -/
def isSome : Value → Bool
  | none => false
  | _ => true

/-- `bool(v)`. -/
def truthy : Value → Bool
  | none => false
  | bool b => b
  | int n => n != 0
  | float (.finite q) => q != 0
  | float _ => true
  | str s => s != ""
  | list xs => !xs.isEmpty
  | dict fields => !fields.isEmpty
  | object _ => true

/-- `getattr(v, name, default)`, for names that no built-in type has. -/
def getattr (v : Value) (name : String) (default : Value) : Value :=
  match v with
  | object attrs => (attrs.lookup name).getD default
  | _ => default

def hasattr (v : Value) (name : String) : Bool :=
  match v with
  | object attrs => (attrs.lookup name).isSome
  | _ => false

/-- `v[n]`; the keys of a `dict` are texts. -/
def getIndex (v : Value) (n : Nat) : Except Error Value :=
  match v with
  | list xs => (xs[n]?).elim (.error .indexError) .ok
  | str s => (s.toList[n]?).elim (.error .indexError) fun c => .ok (str (String.singleton c))
  | dict _ => .error .keyError
  | _ => .error .typeError

/-- `v > n`. -/
def gt (v : Value) (n : Int) : Except Error Bool :=
  match v with
  | bool b => .ok (b.toInt > n)
  | int m => .ok (m > n)
  | float (.finite q) => .ok (q > n)
  | float (.inf negative) => .ok !negative
  | float .nan => .ok false
  | _ => .error .typeError

/-- `v in {s₁, s₂, ..}`, a set of texts: an unhashable value raises. -/
def inTexts (v : Value) (texts : List String) : Except Error Bool :=
  match v with
  | list _ | dict _ => .error .typeError
  | str s => .ok (texts.contains s)
  | _ => .ok false

/-- `int(v)`; `parse` is `int` on texts, `none` where it raises `ValueError`. -/
def toInt (parse : String → Option Int) (v : Value) : Except Error Int :=
  match v with
  | bool b => .ok b.toInt
  | int n => .ok n
  | float (.finite q) => .ok (if 0 ≤ q then ⌊q⌋ else ⌈q⌉)
  | float (.inf _) => .error .overflowError
  | float .nan => .error .valueError
  | str s =>
    match parse s with
    | some n => .ok n
    | Option.none => .error .valueError
  | _ => .error .typeError

/-- `int(v or 0)`. -/
def toIntOrZero (parse : String → Option Int) (v : Value) : Except Error Int :=
  if v.truthy then v.toInt parse else .ok 0

end Value

end Python
