import Mathlib
import Janus.Sql.Work

/-!
# Rows in order, and partial unique indexes

`rows`: the rows of a table by ascending key. A statement that looks at some rows only answers the
same on tables that agree on these (`filterMap_rows_congr`).

`Unique index`: an index over a part of the rows (`index row = none`: the row is not in it) with one
row at most for each entry. `Unique.insert`: a row may be written if no other row has its entry,
which is what a service finds out with `first` before it writes.
-/

set_option autoImplicit false

namespace Sql

variable {V κ α : Type}

/-! ## Rows -/

def rows (table : Table Int V) : List (Int × V) :=
  (table.keys.sort (· ≤ ·)).filterMap fun id => (table.lookup id).map fun row => (id, row)

@[simp] theorem rows_empty : rows (∅ : Table Int V) = [] := by
  simp [rows, Finmap.keys_empty]

@[simp] theorem rows_singleton (id : Int) (row : V) : rows (Finmap.singleton id row) = [(id, row)] := by
  simp [rows, Finmap.keys_singleton]

/-- The first row `WHERE p`. -/
def first (p : V → Bool) (table : Table Int V) : Option (Int × V) :=
  (rows table).find? fun entry => p entry.2

section

variable {table table' : Table Int V} {id : Int} {row : V} {p : V → Bool}

theorem mem_rows : (id, row) ∈ rows table ↔ table.lookup id = some row := by
  simp only [rows, List.mem_filterMap, Finset.mem_sort, Option.map_eq_some_iff, Prod.mk.injEq]
  constructor
  · rintro ⟨_, -, _, hrow, rfl, rfl⟩
    exact hrow
  · exact fun hrow => ⟨id, Finmap.mem_keys.2 (Finmap.mem_of_lookup_eq_some hrow), row, hrow, rfl, rfl⟩

theorem first_eq_none : first p table = none ↔ ∀ id row, table.lookup id = some row → p row = false := by
  unfold first
  rw [List.find?_eq_none]
  constructor
  · intro h id row hrow
    simpa using h (id, row) (mem_rows.2 hrow)
  · rintro h ⟨id, row⟩ hm
    simp [h id row (mem_rows.1 hm)]

theorem of_first (h : first p table = some (id, row)) :
    table.lookup id = some row ∧ p row = true := by
  refine ⟨mem_rows.1 (List.mem_of_find?_eq_some h), ?_⟩
  exact List.find?_some (p := fun entry : Int × V => p entry.2) h

/-- The part of a table that a statement looks at decides its answer. -/
theorem filterMap_rows (f : Int → V → Option α) : (rows table).filterMap (fun entry => f entry.1 entry.2) =
    (table.keys.sort (· ≤ ·)).filterMap fun id => (table.lookup id).bind (f id) := by
  unfold rows
  rw [List.filterMap_filterMap]
  congr 1
  funext id
  cases table.lookup id <;> rfl

/-- Keys that yield nothing may be left out. -/
theorem filterMap_sort (s : Finset Int) (g : Int → Option α) :
    (s.sort (· ≤ ·)).filterMap g =
      ((s.filter fun id => (g id).isSome = true).sort (· ≤ ·)).filterMap g := by
  have hsort : (s.filter fun id => (g id).isSome = true).sort (· ≤ ·) =
      (s.sort (· ≤ ·)).filter fun id => (g id).isSome := by
    refine List.Perm.eq_of_pairwise' (r := (· ≤ ·)) ?_ ?_ ?_
    · exact Finset.pairwise_sort _ _
    · exact (Finset.pairwise_sort _ _).filter _
    · refine (List.perm_ext_iff_of_nodup (Finset.sort_nodup _ _)
        ((Finset.sort_nodup _ _).filter _)).2 fun id => ?_
      simp
  rw [hsort, List.filterMap_filter]
  refine List.filterMap_congr fun id _ => ?_
  split
  · rfl
  · next h => simpa using h

theorem filterMap_rows_congr {f : Int → V → Option α}
    (h : ∀ id, (table.lookup id).bind (f id) = (table'.lookup id).bind (f id)) :
    (rows table).filterMap (fun entry => f entry.1 entry.2) =
      (rows table').filterMap fun entry => f entry.1 entry.2 := by
  have hkeys (t : Table Int V) (id : Int) :
      id ∈ (t.keys.filter fun id => ((t.lookup id).bind (f id)).isSome = true) ↔
        ((t.lookup id).bind (f id)).isSome = true := by
    rw [Finset.mem_filter, and_iff_right_iff_imp]
    intro hsome
    cases hrow : t.lookup id with
    | none =>
      rw [hrow] at hsome
      cases hsome
    | some row => exact Finmap.mem_keys.2 (Finmap.mem_of_lookup_eq_some hrow)
  have hsame : (table.keys.filter fun id => ((table.lookup id).bind (f id)).isSome = true) =
      table'.keys.filter fun id => ((table'.lookup id).bind (f id)).isSome = true := by
    ext id
    rw [hkeys, hkeys, h]
  rw [filterMap_rows, filterMap_rows, filterMap_sort, filterMap_sort table'.keys, hsame]
  exact List.filterMap_congr fun id _ => h id

/-- A row that is replaced by one that yields the same. -/
theorem flatMap_rows_insert {f : Int → V → List α} {old : V} (hold : table.lookup id = some old)
    (hf : f id row = f id old) : (rows (table.insert id row)).flatMap (fun entry => f entry.1 entry.2) =
      (rows table).flatMap fun entry => f entry.1 entry.2 := by
  have hid : id ∈ table.keys := Finmap.mem_keys.2 (Finmap.mem_of_lookup_eq_some hold)
  have hkeys : (table.insert id row).keys = table.keys := by
    ext i
    rw [Finmap.mem_keys, Finmap.mem_keys, Finmap.mem_insert, or_iff_right_iff_imp]
    rintro rfl
    exact Finmap.mem_keys.1 hid
  unfold rows
  rw [hkeys]
  induction table.keys.sort (· ≤ ·) with
  | nil => rfl
  | cons i ids ih =>
    by_cases hi : i = id
    · subst hi
      rw [List.filterMap_cons_some (by rw [Finmap.lookup_insert]; rfl),
        List.filterMap_cons_some (by rw [hold]; rfl), List.flatMap_cons, List.flatMap_cons, ih, hf]
    · cases hrow : table.lookup i with
      | none =>
        rw [List.filterMap_cons_none (by rw [Finmap.lookup_insert_of_ne _ hi, hrow]; rfl),
          List.filterMap_cons_none (by rw [hrow]; rfl), ih]
      | some row' =>
        rw [List.filterMap_cons_some (by rw [Finmap.lookup_insert_of_ne _ hi, hrow]; rfl),
          List.filterMap_cons_some (by rw [hrow]; rfl), List.flatMap_cons, List.flatMap_cons, ih]

/-- A selection of what a table shows. -/
theorem filter_rows_congr {f : Int → V → α} {p : α → Bool}
    (h : ∀ id, ((table.lookup id).map (f id)).filter p = ((table'.lookup id).map (f id)).filter p) :
    ((rows table).map fun entry => f entry.1 entry.2).filter p =
      ((rows table').map fun entry => f entry.1 entry.2).filter p := by
  have hselect (t : Table Int V) : ((rows t).map fun entry => f entry.1 entry.2).filter p =
      (rows t).filterMap fun entry => (some (f entry.1 entry.2)).filter p := by
    rw [← List.filterMap_eq_filter, List.filterMap_map]
    refine List.filterMap_congr fun entry _ => ?_
    simp [Option.guard, Option.filter]
  rw [hselect, hselect]
  refine filterMap_rows_congr (f := fun id row => (some (f id row)).filter p) fun id => ?_
  have hone (t : Table Int V) : ((t.lookup id).bind fun row => (some (f id row)).filter p) =
      ((t.lookup id).map (f id)).filter p := by
    cases t.lookup id <;> rfl
  rw [hone, hone, h]

end

/-! ## Partial unique indexes -/

/-- No two rows have the same entry in the index. -/
def Unique (index : V → Option κ) (table : Table Int V) : Prop :=
  ∀ i row j row' k, table.lookup i = some row → table.lookup j = some row' → index row = some k →
    index row' = some k → i = j

section

variable {index : V → Option κ} {table : Table Int V} {id : Int} {row : V}

instance [DecidableEq κ] : Decidable (Unique index table) :=
  decidable_of_iff (∀ i ∈ table.keys, ∀ j ∈ table.keys,
      ((table.lookup i).bind index).isSome = true →
        (table.lookup i).bind index = (table.lookup j).bind index → i = j) <| by
    constructor
    · intro h i row j row' k hi hj hk hk'
      have hmem {i : Int} {row : V} (hi : table.lookup i = some row) : i ∈ table.keys :=
        Finmap.mem_keys.2 (Finmap.mem_of_lookup_eq_some hi)
      refine h i (hmem hi) j (hmem hj) ?_ ?_
      · rw [hi, Option.bind_some, hk]
        rfl
      · rw [hi, hj, Option.bind_some, Option.bind_some, hk, hk']
    · intro h i _ j _ hsome hsame
      obtain ⟨k, hk⟩ := Option.isSome_iff_exists.1 hsome
      obtain ⟨row, hi, hrow⟩ := Option.bind_eq_some_iff.1 hk
      obtain ⟨row', hj, hrow'⟩ := Option.bind_eq_some_iff.1 (hsame ▸ hk)
      exact h i row j row' k hi hj hrow hrow'

theorem Unique.insert (h : Unique index table)
    (hfree : ∀ k j row', index row = some k → table.lookup j = some row' → index row' = some k →
      j = id) : Unique index (table.insert id row) := by
  intro i row₁ j row₂ k hi hj hk hk'
  by_cases hid : i = id
  · by_cases hjd : j = id
    · exact hid.trans hjd.symm
    · subst hid
      rw [Finmap.lookup_insert] at hi
      rw [Finmap.lookup_insert_of_ne _ hjd] at hj
      cases hi
      exact (hfree k j row₂ hk hj hk').symm
  · rw [Finmap.lookup_insert_of_ne _ hid] at hi
    by_cases hjd : j = id
    · subst hjd
      rw [Finmap.lookup_insert] at hj
      cases hj
      exact hfree k i row₁ hk' hi hk
    · rw [Finmap.lookup_insert_of_ne _ hjd] at hj
      exact h i row₁ j row₂ k hi hj hk hk'

/-- A row that leaves the index, or stays where it is in it. -/
theorem Unique.update {old : V} (h : Unique index table) (hold : table.lookup id = some old)
    (hentry : index row = none ∨ index row = index old) : Unique index (table.insert id row) := by
  refine h.insert fun k j row' hk hj hk' => ?_
  rcases hentry with hnone | hsame
  · rw [hnone] at hk
    cases hk
  · exact h j row' id old k hj hold hk' (hsame ▸ hk)

end

end Sql
