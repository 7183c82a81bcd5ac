import Janus.Admin.Rbac

/-!
# Soft deletes of many rows

`Flags`: what a delete does to a table, apart from audit columns. Deletes add up (`Flags.append`),
and two that flag the same rows leave the same table (`Flags.same`). `softDeleteMany_spec` says what
`soft_delete_many` flags and skips, `Sorts` what is left of the requested ids behind the filter that
a batch puts before it.
-/

set_option autoImplicit false

namespace Rbac

open Sql
open Departments (UserId fromKeys)

/-! ## Requested ids -/

theorem foldl_keys (ids keys : List Int) (h : keys.Nodup) :
    let found := ids.foldl (fun keys d => if d ∈ keys then keys else keys ++ [d]) keys
    found.Nodup ∧ ∀ id, id ∈ found ↔ id ∈ keys ∨ id ∈ ids := by
  induction ids generalizing keys with
  | nil => simpa using h
  | cons d ids ih =>
    simp only [List.foldl_cons]
    by_cases hd : d ∈ keys
    · rw [if_pos hd]
      refine ⟨(ih keys h).1, fun id => ((ih keys h).2 id).trans ?_⟩
      rw [List.mem_cons]
      constructor
      · exact fun hid => hid.imp_right .inr
      · rintro (hid | rfl | hid)
        · exact .inl hid
        · exact .inl hd
        · exact .inr hid
    · have hnew : (keys ++ [d]).Nodup := by
        refine List.nodup_append.2 ⟨h, List.nodup_singleton d, ?_⟩
        rintro a ha b hb rfl
        exact hd (List.mem_singleton.1 hb ▸ ha)
      rw [if_neg hd]
      refine ⟨(ih _ hnew).1, fun id => ((ih _ hnew).2 id).trans ?_⟩
      rw [List.mem_append, List.mem_singleton, List.mem_cons, or_assoc]

theorem nodup_fromKeys (ids : List Int) : (fromKeys ids).Nodup := (foldl_keys ids [] .nil).1

theorem mem_fromKeys {ids : List Int} {id : Int} : id ∈ fromKeys ids ↔ id ∈ ids := by
  have h := (foldl_keys ids [] .nil).2 id
  rw [List.mem_nil_iff, false_or] at h
  exact h

/-! ## Rows that are flagged as deleted -/

/-- A row that is deleted softly, and the row without its audit column. -/
structure Audit (V : Type) where
  isDeleted : V → Bool
  delete : V → V
  unaudited : V → V
  delete_delete : ∀ row, delete (delete row) = delete row
  unaudited_delete : ∀ row, unaudited (delete row) = delete (unaudited row)

def User.audit : Audit User where
  isDeleted := User.isDeleted
  delete row := { row with isDeleted := true }
  unaudited row := { row with updatedBy := none }
  delete_delete _ := rfl
  unaudited_delete _ := rfl

def Role.audit : Audit Role where
  isDeleted := Role.isDeleted
  delete row := { row with isDeleted := true }
  unaudited row := { row with updatedBy := none }
  delete_delete _ := rfl
  unaudited_delete _ := rfl

section

variable {V : Type} {x : Audit V} {A B : Set Int} {table t t' : Table Int V} {id : Int}

/-- The rows `ids` are flagged; whether their audit columns change is left open. -/
structure Flags (x : Audit V) (ids : Set Int) (table table' : Table Int V) : Prop where
  flagged : ∀ id ∈ ids, (table'.lookup id).map x.unaudited =
    (table.lookup id).map fun row => x.delete (x.unaudited row)
  kept : ∀ id ∉ ids, table'.lookup id = table.lookup id

theorem Flags.nothing : Flags x ∅ table table := ⟨nofun, fun _ _ => rfl⟩

theorem Flags.append (h : Flags x A table t) (h' : Flags x B t t') : Flags x (A ∪ B) table t' where
  flagged id hid := by
    by_cases hb : id ∈ B
    · rw [h'.flagged id hb]
      by_cases ha : id ∈ A
      · have hflagged := congrArg (Option.map x.delete) (h.flagged id ha)
        simp only [Option.map_map, Function.comp_def, x.delete_delete] at hflagged
        exact hflagged
      · rw [h.kept id ha]
    · rw [h'.kept id hb]
      exact h.flagged id (hid.resolve_right hb)
  kept id hid := by
    rw [h'.kept id fun hb => hid (.inr hb), h.kept id fun ha => hid (.inl ha)]

theorem Flags.insert {row row' : V} (hrow : table.lookup id = some row)
    (hdelete : x.unaudited row' = x.delete (x.unaudited row)) :
    Flags x {id} table (table.insert id row') where
  flagged j hj := by
    rw [Set.mem_singleton_iff.1 hj, Finmap.lookup_insert, hrow, Option.map_some, Option.map_some,
      hdelete]
  kept j hj := Finmap.lookup_insert_of_ne table hj

/-- Two tables with the same rows flagged differ in audit columns only. -/
theorem Flags.same (h : Flags x A table t) (h' : Flags x A table t') (id : Int) :
    (t.lookup id).map x.unaudited = (t'.lookup id).map x.unaudited := by
  by_cases ha : id ∈ A
  · rw [h.flagged id ha, h'.flagged id ha]
  · rw [h.kept id ha, h'.kept id ha]

theorem Flags.eq_of_empty (h : Flags x ∅ table t) : t = table :=
  Finmap.ext_lookup fun id => h.kept id (Set.notMem_empty id)

/-! ### `soft_delete_many` -/

/-- A row that is there and not deleted. -/
def Audit.live (x : Audit V) (table : Table Int V) (id : Int) : Bool :=
  (table.lookup id).any fun row => !x.isDeleted row

theorem flags_foldl (x : Audit V) (ids : List Int) (table : Table Int V) :
    Flags x {id | id ∈ ids} table
      (ids.foldl (fun table id =>
        ((table.lookup id).map fun row => table.insert id (x.delete row)).getD table) table) := by
  induction ids generalizing table with
  | nil => simpa using Flags.nothing
  | cons id ids ih =>
    have hone : Flags x {id} table
        (((table.lookup id).map fun row => table.insert id (x.delete row)).getD table) := by
      cases hrow : table.lookup id with
      | none =>
        refine ⟨fun j hj => ?_, fun _ _ => rfl⟩
        rw [Set.mem_singleton_iff.1 hj, Option.map_none, Option.getD_none, hrow]
        rfl
      | some row => exact Flags.insert hrow (x.unaudited_delete row)
    have hset : {j | j ∈ id :: ids} = {id} ∪ {j | j ∈ ids} := by
      ext j
      simp
    rw [List.foldl_cons, hset]
    exact hone.append (ih _)

variable {table' : Table Int V} {ids skipped : List Int} {n : Nat}

theorem softDeleteMany_spec
    (h : softDeleteMany x.isDeleted x.delete table ids = (table', n, skipped)) :
    Flags x {id | id ∈ ids ∧ x.live table id = true} table table' ∧
    (0 < n ↔ ∃ id ∈ ids, x.live table id = true) ∧
    skipped.Nodup ∧ ∀ id, id ∈ skipped ↔ id ∈ ids ∧ x.live table id = false := by
  obtain ⟨rfl, rest⟩ := Prod.mk.inj h
  obtain ⟨rfl, rfl⟩ := Prod.mk.inj rest
  have haffected : ∀ id, id ∈ (fromKeys ids).filter (x.live table) ↔
      id ∈ ids ∧ x.live table id = true := by
    intro id
    rw [List.mem_filter, mem_fromKeys]
  refine ⟨?_, ?_, ?_, fun id => ?_⟩
  · have hflags := flags_foldl x ((fromKeys ids).filter (x.live table)) table
    simp only [haffected] at hflags
    exact hflags
  · rw [List.length_pos_iff_exists_mem]
    exact exists_congr fun id => haffected id
  · exact (List.mergeSort_perm _ _).nodup_iff.2 ((nodup_fromKeys ids).filter _)
  · rw [(List.mergeSort_perm _ _).mem_iff, List.mem_filter, mem_fromKeys, decide_eq_true_iff]
    have hid := haffected id
    constructor
    · rintro ⟨hmem, hnot⟩
      refine ⟨hmem, ?_⟩
      cases hlive : x.live table id with
      | false => rfl
      | true => exact absurd (hid.2 ⟨hmem, hlive⟩) hnot
    · rintro ⟨hmem, hlive⟩
      refine ⟨hmem, fun hnot => ?_⟩
      rw [(hid.1 hnot).2] at hlive
      cases hlive

end

/-! ## The filter before a batch -/

/-- A superuser may delete every row, another actor those that it dominates. -/
def allowed (actor : AuthenticatedUser) (dominates : Int → Bool) (id : Int) : Bool :=
  decide actor.isSuperuser || dominates id

section

variable {V : Type} {x : Audit V} {table table' : Table Int V} {ids skipped : List Int} {n : Nat}
  {p can : Int → Bool} {id : Int}

theorem dominance_filter {actor : AuthenticatedUser} {dominates : Int → Bool} :
    (if actor.isSuperuser then (ids, []) else ids.partition dominates) =
      (ids.filter (allowed actor dominates), ids.filter fun id => !allowed actor dominates id) := by
  unfold allowed
  split
  · next h => simp [h]
  · next h =>
    rw [List.partition_eq_filter_filter]
    simp [h, Function.comp_def]

/-- The batch flags the rows that are there and pass the filter `p`, and skips the others. -/
structure Sorts (x : Audit V) (p : Int → Bool) (ids : List Int) (table table' : Table Int V)
    (n : Nat) (skippedIds : List Int) : Prop where
  flags : Flags x {id | id ∈ ids ∧ (x.live table id && p id) = true} table table'
  affected : 0 < n ↔ ∃ id ∈ ids, (x.live table id && p id) = true
  nodup : skippedIds.Nodup
  skipped : ∀ id, id ∈ skippedIds ↔ id ∈ ids ∧ (x.live table id && p id) = false

theorem sorts_softDeleteMany (h : softDeleteMany x.isDeleted x.delete table
      ((fromKeys ids).filter p) = (table', n, skipped)) :
    Sorts x p ids table table' n (skipped ++ (fromKeys ids).filter fun id => !p id) := by
  obtain ⟨hflags, haffected, hnodup, hskipped⟩ := softDeleteMany_spec h
  have hmem (id : Int) : id ∈ (fromKeys ids).filter p ∧ x.live table id = true ↔
      id ∈ ids ∧ (x.live table id && p id) = true := by
    rw [List.mem_filter, mem_fromKeys, Bool.and_eq_true, and_assoc, and_comm (a := p id = true)]
  refine ⟨?_, haffected.trans (exists_congr hmem), ?_, fun id => ?_⟩
  · simp only [hmem] at hflags
    exact hflags
  · refine List.nodup_append.2 ⟨hnodup, (nodup_fromKeys ids).filter _, ?_⟩
    rintro a ha b hb rfl
    have hpass := (List.mem_filter.1 ((hskipped a).1 ha).1).2
    have hnot := (List.mem_filter.1 hb).2
    rw [hpass] at hnot
    cases hnot
  · rw [List.mem_append, hskipped, List.mem_filter, List.mem_filter, mem_fromKeys]
    cases x.live table id <;> cases p id <;> simp

theorem Sorts.mem_gone {skippedIds : List Int} (h : Sorts x p ids table table' n skippedIds) :
    id ∈ (fromKeys ids).filter (fun id => id ∉ skippedIds) ↔
      id ∈ ids ∧ (x.live table id && p id) = true := by
  rw [List.mem_filter, mem_fromKeys, decide_eq_true_iff, h.skipped, not_and, Bool.not_eq_false]
  exact and_congr_right fun hid => forall_prop_of_true hid

end

end Rbac
