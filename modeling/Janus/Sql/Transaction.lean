import Mathlib.Logic.Function.Basic
import Mathlib.Data.Option.Basic

/-!
# Transactions with row locks

Rows `k : K` of a database and the transactions `i : ι` on them, under `READ COMMITTED`: a
transaction reads the last committed rows and its own writes (`view`); what it writes or selects
`FOR UPDATE` it locks until it ends, and it waits for a row that another one has locked (`Free`).

* `Sound`: a written row is locked by its writer. It is kept by `lock`, `write`, `commit` and
  `rollback`.
* `Sound.view_of_locked`: what a transaction reads, and so commits, of a row that another one has
  locked is the committed row.
-/

set_option autoImplicit false

namespace Sql

/-- The committed rows, the writes of the open transactions, and who has locked which row. -/
structure Rows (ι K : Type) (V : K → Type) where
  committed : (k : K) → Option (V k)
  writes : ι → (k : K) → Option (V k)
  locks : K → Option ι

namespace Rows

variable {ι K : Type} {V : K → Type} {s : Rows ι K V} {i j : ι} {k : K}

/-- No transaction is open. -/
def start (db : (k : K) → Option (V k)) : Rows ι K V := ⟨db, fun _ _ => none, fun _ => none⟩

/-- What a transaction reads. -/
def view (s : Rows ι K V) (i : ι) (k : K) : Option (V k) := (s.writes i k).or (s.committed k)

/-- No other transaction has locked the row. -/
def Free (s : Rows ι K V) (i : ι) (k : K) : Prop := ∀ j, s.locks k = some j → j = i

/-- A written row is locked by its writer. -/
def Sound (s : Rows ι K V) : Prop := ∀ i k v, s.writes i k = some v → s.locks k = some i

theorem view_of_unwritten (h : s.writes i k = none) : s.view i k = s.committed k := by
  simp [view, h]

theorem view_of_written {v : V k} (h : s.writes i k = some v) : s.view i k = some v := by
  simp [view, h]

theorem sound_start (db : (k : K) → Option (V k)) : (start db : Rows ι K V).Sound := nofun

/-- A row that another transaction has locked is read as committed. -/
theorem Sound.view_of_locked (h : s.Sound) (hk : s.locks k = some j) (hij : i ≠ j) :
    s.view i k = s.committed k := by
  refine view_of_unwritten (Option.eq_none_iff_forall_ne_some.2 fun v hv => hij ?_)
  exact Option.some.inj ((h i k v hv).symm.trans hk)

section Lock

variable [DecidableEq K]

def lock (s : Rows ι K V) (i : ι) (k : K) : Rows ι K V :=
  { s with locks := Function.update s.locks k (some i) }

@[simp] theorem lock_committed : (s.lock i k).committed = s.committed := rfl
@[simp] theorem lock_writes : (s.lock i k).writes = s.writes := rfl

theorem lock_locks {k' : K} : (s.lock i k).locks k' = if k' = k then some i else s.locks k' := by
  simp [lock, Function.update_apply]

/-- A lock keeps what is locked. -/
theorem lock_held {k' : K} (hfree : s.Free i k) (h : s.locks k' = some j) :
    (s.lock i k).locks k' = some j := by
  rw [lock_locks]
  split
  · next heq =>
    subst heq
    rw [hfree j h]
  · exact h

theorem Sound.lock (h : s.Sound) (hfree : s.Free i k) : (s.lock i k).Sound :=
  fun j k' v hv => lock_held hfree (h j k' v hv)

end Lock

section Write

variable [DecidableEq ι] [DecidableEq K] {v : V k}

/-- A write locks its row. -/
def write (s : Rows ι K V) (i : ι) (k : K) (v : V k) : Rows ι K V where
  committed := s.committed
  writes := Function.update s.writes i (Function.update (s.writes i) k (some v))
  locks := Function.update s.locks k (some i)

@[simp] theorem write_committed : (s.write i k v).committed = s.committed := rfl

theorem write_locks {k' : K} :
    (s.write i k v).locks k' = if k' = k then some i else s.locks k' := by
  simp [write, Function.update_apply]

@[simp] theorem write_self : (s.write i k v).writes i k = some v := by simp [write]

theorem write_ne {k' : K} (h : k' ≠ k) : (s.write i k v).writes i k' = s.writes i k' := by
  simp [write, h]

theorem write_other (h : j ≠ i) : (s.write i k v).writes j = s.writes j := by simp [write, h]

/-- What is written after a write is that or was written before. -/
theorem writes_write {k' : K} {w : V k'} (h : (s.write i k v).writes j k' = some w) :
    (j = i ∧ (⟨k', w⟩ : Sigma V) = ⟨k, v⟩) ∨ s.writes j k' = some w := by
  by_cases hji : j = i
  · subst hji
    by_cases hk : k' = k
    · subst hk
      rw [write_self] at h
      injection h with h
      rw [h]
      exact .inl ⟨rfl, rfl⟩
    · rw [write_ne hk] at h
      exact .inr h
  · rw [write_other hji] at h
    exact .inr h

/-- A write keeps what is locked. -/
theorem write_held {k' : K} (hfree : s.Free i k) (h : s.locks k' = some j) :
    (s.write i k v).locks k' = some j := by
  rw [write_locks]
  split
  · next heq =>
    subst heq
    rw [hfree j h]
  · exact h

theorem Sound.write (h : s.Sound) (hfree : s.Free i k) : (s.write i k v).Sound := by
  intro j k' w hw
  rcases writes_write hw with ⟨rfl, heq⟩ | hold
  · cases heq
    simp [write_locks]
  · exact write_held hfree (h j k' w hold)

end Write

section Finish

variable [DecidableEq ι] {db : (k : K) → Option (V k)}

/-- The end of a transaction that leaves `db` committed. -/
def finish (s : Rows ι K V) (i : ι) (db : (k : K) → Option (V k)) : Rows ι K V where
  committed := db
  writes := Function.update s.writes i fun _ => none
  locks := fun k => if s.locks k = some i then none else s.locks k

def commit (s : Rows ι K V) (i : ι) : Rows ι K V := s.finish i (s.view i)

def rollback (s : Rows ι K V) (i : ι) : Rows ι K V := s.finish i s.committed

@[simp] theorem commit_committed : (s.commit i).committed = s.view i := rfl
@[simp] theorem rollback_committed : (s.rollback i).committed = s.committed := rfl

theorem finish_writes_other (h : j ≠ i) : (s.finish i db).writes j = s.writes j := by
  simp [finish, h]

@[simp] theorem finish_writes_self : (s.finish i db).writes i k = none := by simp [finish]

theorem finish_locks : (s.finish i db).locks k = some j ↔ s.locks k = some j ∧ j ≠ i := by
  simp only [finish]
  split
  · next h =>
    rw [h]
    constructor
    · nofun
    · rintro ⟨heq, hne⟩
      exact absurd (Option.some.inj heq).symm hne
  · next h =>
    refine ⟨fun heq => ⟨heq, ?_⟩, fun heq => heq.1⟩
    rintro rfl
    exact h heq

theorem Sound.finish (h : s.Sound) (db : (k : K) → Option (V k)) : (s.finish i db).Sound := by
  intro j k v hv
  by_cases hji : j = i
  · subst hji
    simp at hv
  · rw [finish_writes_other hji] at hv
    exact finish_locks.2 ⟨h j k v hv, hji⟩

end Finish

end Rows

/-- What a list of rows by their keys answers is in it. -/
theorem mem_of_lookup {K V : Type} [DecidableEq K] {rows : List (K × V)} {k : K} {v : V}
    (h : rows.lookup k = some v) : (k, v) ∈ rows := by
  obtain ⟨before, rest, rfl, -⟩ := List.lookup_eq_some_iff.1 h
  exact List.mem_append_right _ List.mem_cons_self

end Sql
