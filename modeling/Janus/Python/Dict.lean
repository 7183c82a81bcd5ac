import Mathlib.Data.List.Lookmap
import Mathlib.Data.List.Nodup
import Mathlib.Data.List.Sort
import Mathlib.Data.String.Basic
import Janus.Python.Value

/-!
# Dicts

`Dict`: a `dict` with texts as keys, which are distinct. `Value.eq`: `==` of the values that JSON
has. Dicts whose sorted items are equal have equal values (`Dict.get?_of_eqItems`).
-/

set_option autoImplicit false

namespace Python

namespace Value

/-- The value of a number; no number equals a NaN. -/
def number : Value → Option Float
  | bool b => some (.finite b.toInt)
  | int n => some (.finite n)
  | float .nan => Option.none
  | float x => some x
  | _ => Option.none

def eqNumber (x y : Value) : Bool :=
  match x.number, y.number with
  | some a, some b => a == b
  | _, _ => false

mutual

/-- `x == y`. -/
def eq : Value → Value → Bool
  | none, none => true
  | str s, str t => s == t
  | list xs, list ys => eqList xs ys
  | dict xs, dict ys => xs.length == ys.length && eqEntries xs ys
  | x, y => eqNumber x y

def eqList : List Value → List Value → Bool
  | [], [] => true
  | x :: xs, y :: ys => eq x y && eqList xs ys
  | _, _ => false

/-- Every entry is one of `ys`. -/
def eqEntries : List (String × Value) → List (String × Value) → Bool
  | [], _ => true
  | (k, x) :: xs, ys =>
    (match ys.lookup k with
      | some y => eq x y
      | Option.none => false) && eqEntries xs ys

end

@[simp] theorem eq_none {x : Value} : eq x none = true ↔ x = none := by
  cases x <;> simp [eq, eqNumber, number]

@[simp] theorem none_eq {x : Value} : eq none x = true ↔ x = none := by
  cases x <;> simp [eq, eqNumber, number]

@[simp] theorem str_eq {s : String} {x : Value} : eq (str s) x = true ↔ x = str s := by
  cases x with
  | str t =>
    rw [eq, beq_iff_eq, str.injEq]
    exact eq_comm
  | _ => simp [eq, eqNumber, number]

theorem isSome_of_eq {x y : Value} (h : eq x y = true) : x.isSome = y.isSome := by
  cases hx : x.isSome <;> cases hy : y.isSome <;> first | rfl | exfalso
  · have hnone : x = none := by cases x <;> simp_all [isSome]
    subst hnone
    rw [none_eq.1 h] at hy
    cases hy
  · have hnone : y = none := by cases y <;> simp_all [isSome]
    subst hnone
    rw [eq_none.1 h] at hx
    cases hx

mutual

/-- A value that JSON has: no NaN, no instance, and no key twice. -/
def plain : Value → Bool
  | float .nan | object _ => false
  | list xs => plainList xs
  | dict xs => decide (xs.map Prod.fst).Nodup && plainEntries xs
  | _ => true

def plainList : List Value → Bool
  | [] => true
  | x :: xs => plain x && plainList xs

def plainEntries : List (String × Value) → Bool
  | [] => true
  | (_, x) :: xs => plain x && plainEntries xs

end

end Value

/-- A `dict` with texts as keys. -/
structure Dict where
  fields : Fields
  nodup : (fields.map Prod.fst).Nodup

namespace Dict

def empty : Dict := ⟨[], List.nodup_nil⟩

def get? (d : Dict) (key : String) : Option Value := d.fields.lookup key

/-- `sorted(d.items())`; the keys differ, so that no two values are compared. -/
def sortedItems (d : Dict) : Fields := d.fields.mergeSort fun x y => decide (x.1 ≤ y.1)

end Dict

/-! ## Items -/

/-- `==` of two lists of items. -/
def eqItems : Fields → Fields → Bool
  | [], [] => true
  | (k, x) :: xs, (l, y) :: ys => k == l && x.eq y && eqItems xs ys
  | _, _ => false

section

variable {xs ys : Fields} {key k : String} {v : Value}

theorem lookup_eq_some (h : (xs.map Prod.fst).Nodup) : xs.lookup key = some v ↔ (key, v) ∈ xs := by
  induction xs with
  | nil => simp
  | cons entry xs ih =>
    obtain ⟨k, x⟩ := entry
    rw [List.map_cons, List.nodup_cons] at h
    rw [List.lookup_cons, List.mem_cons, Prod.mk.injEq]
    by_cases hk : key = k
    · subst hk
      have hno : (key, v) ∉ xs := fun hm => h.1 (List.mem_map.2 ⟨_, hm, rfl⟩)
      simp [hno, eq_comm]
    · have hne : (key == k) = false := by simpa using hk
      simp [hne, hk, ih h.2]

theorem lookup_map_set : (xs.map fun entry => if entry.1 = key then (key, v) else entry).lookup k =
    if k = key then (xs.lookup key).map fun _ => v else xs.lookup k := by
  induction xs with
  | nil => simp
  | cons entry xs ih =>
    obtain ⟨l, x⟩ := entry
    rw [List.map_cons]
    by_cases hl : l = key
    · subst hl
      by_cases hk : k = l
      · simp [hk]
      · have hne : (k == l) = false := by simpa using hk
        simp [List.lookup_cons, hne, ih, hk]
    · have hne : (key == l) = false := by simpa using Ne.symm hl
      simp only [if_neg hl, List.lookup_cons, ih, hne]
      by_cases hk : k = key
      · subst hk
        simp [hne]
      · simp [hk]

/-- What `d[key] = value` leaves. -/
theorem Fields.lookup_set :
    (Fields.set xs key v).lookup k = if k = key then some v else xs.lookup k := by
  unfold Fields.set
  split
  · next hany =>
    rw [lookup_map_set]
    by_cases hk : k = key
    · obtain ⟨⟨l, x⟩, hm, hl⟩ := List.any_eq_true.1 hany
      have hsome : (xs.lookup key).isSome = true := by
        rw [List.lookup_isSome_iff]
        exact ⟨(l, x), hm, beq_iff_eq.2 (of_decide_eq_true hl).symm⟩
      obtain ⟨x, hx⟩ := Option.isSome_iff_exists.1 hsome
      simp [hk, hx]
    · simp [hk]
  · next hany =>
    rw [List.lookup_append]
    by_cases hk : k = key
    · have hnone : xs.lookup key = none := by
        rw [List.lookup_eq_none_iff]
        intro entry hm
        simp only [List.any_eq_true, not_exists, not_and, decide_eq_true_eq] at hany
        simpa using Ne.symm (hany entry hm)
      simp [hk, hnone]
    · have hne : (k == key) = false := by simpa using hk
      simp [hk, List.lookup_cons, hne]

theorem Dict.lookup_sortedItems (d : Dict) : d.sortedItems.lookup key = d.get? key := by
  have hperm : d.sortedItems.Perm d.fields := List.mergeSort_perm _ _
  have hnodup : (d.sortedItems.map Prod.fst).Nodup := (hperm.map Prod.fst).nodup_iff.2 d.nodup
  ext v
  rw [lookup_eq_some hnodup, hperm.mem_iff, Dict.get?, lookup_eq_some d.nodup]

mutual

theorem Value.eq_self : ∀ {x : Value}, x.plain = true → x.eq x = true
  | .none, _ => by simp
  | .bool b, _ => by simp [Value.eq, Value.eqNumber, Value.number]
  | .int n, _ => by simp [Value.eq, Value.eqNumber, Value.number]
  | .float (.finite q), _ => by simp [Value.eq, Value.eqNumber, Value.number]
  | .float (.inf negative), _ => by simp [Value.eq, Value.eqNumber, Value.number]
  | .str s, _ => by simp
  | .list xs, h => by
    rw [Value.eq]
    exact eqList_self (by simpa [Value.plain] using h)
  | .dict xs, h => by
    simp only [Value.plain, Bool.and_eq_true, decide_eq_true_iff] at h
    rw [Value.eq, beq_self_eq_true, Bool.true_and]
    exact eqEntries_of_lookup h.2 fun entry hm => (lookup_eq_some h.1).2 hm

theorem eqList_self : ∀ {xs : List Value}, Value.plainList xs = true → Value.eqList xs xs = true
  | [], _ => rfl
  | x :: xs, h => by
    simp only [Value.plainList, Bool.and_eq_true] at h
    rw [Value.eqList, Value.eq_self h.1, eqList_self h.2]
    rfl

/-- The entries of `xs` are all in `ys`. -/
theorem eqEntries_of_lookup : ∀ {xs ys : Fields}, Value.plainEntries xs = true →
    (∀ entry ∈ xs, ys.lookup entry.1 = some entry.2) → Value.eqEntries xs ys = true
  | [], _, _, _ => rfl
  | (k, x) :: xs, ys, h, hall => by
    simp only [Value.plainEntries, Bool.and_eq_true] at h
    obtain ⟨hfirst, hrest⟩ := List.forall_mem_cons.1 hall
    rw [Value.eqEntries, hfirst]
    dsimp only
    rw [Value.eq_self h.1, eqEntries_of_lookup h.2 hrest]
    rfl

end

theorem eqItems_self (h : ∀ entry ∈ xs, entry.2.plain = true) : eqItems xs xs = true := by
  induction xs with
  | nil => rfl
  | cons entry xs ih =>
    obtain ⟨hfirst, hrest⟩ := List.forall_mem_cons.1 h
    rw [eqItems, beq_self_eq_true, Value.eq_self hfirst, ih hrest]
    rfl

theorem lookup_of_eqItems (h : eqItems xs ys = true) (key : String) :
    Option.Rel (fun x y => x.eq y = true) (xs.lookup key) (ys.lookup key) := by
  induction xs generalizing ys with
  | nil =>
    cases ys with
    | nil => exact .none
    | cons entry ys => cases h
  | cons entry xs ih =>
    cases ys with
    | nil => cases h
    | cons entry' ys =>
      obtain ⟨k, x⟩ := entry
      obtain ⟨l, y⟩ := entry'
      simp only [eqItems, Bool.and_eq_true, beq_iff_eq] at h
      obtain ⟨⟨rfl, hvalue⟩, hrest⟩ := h
      rw [List.lookup_cons, List.lookup_cons]
      cases key == k with
      | true => exact .some hvalue
      | false => exact ih hrest

/-- Dicts with the same sorted items have the same values. -/
theorem Dict.get?_of_eqItems {d d' : Dict} (h : eqItems d.sortedItems d'.sortedItems = true)
    (key : String) : Option.Rel (fun x y => x.eq y = true) (d.get? key) (d'.get? key) := by
  rw [← d.lookup_sortedItems, ← d'.lookup_sortedItems]
  exact lookup_of_eqItems h key

end

end Python
