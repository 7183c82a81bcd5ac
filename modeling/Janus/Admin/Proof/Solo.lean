import Janus.Admin.Proof.TreeList
import Janus.Admin.Solo

/-!
# Department requests that run alone are department requests

`Solo.execute_sem`: a statement on the tables is what `sem` allows the only session of a database to
do. `Solo.run_runs`: so the run of a method on the tables is a run of the method.
-/

set_option autoImplicit false

namespace Departments

open Conc Sql

/-! ## Tables -/

/-- A condition on the rows that are not deleted. -/
theorem exists_live {V : Type} {table : Table Int V} {isDeleted holds : V → Bool} :
    (∃ k ∈ table.keys,
      (((table.lookup k).filter fun row => !isDeleted row).any holds) = true) ↔
    ∃ k row, (table.lookup k).filter (fun row => !isDeleted row) = some row ∧ holds row = true := by
  constructor
  · rintro ⟨k, -, hk⟩
    cases hrow : (table.lookup k).filter fun row => !isDeleted row with
    | none =>
      rw [hrow] at hk
      cases hk
    | some row =>
      rw [hrow] at hk
      exact ⟨k, row, hrow, hk⟩
  · rintro ⟨k, row, hrow, hholds⟩
    obtain ⟨hlookup, -⟩ := Option.filter_eq_some_iff.1 hrow
    refine ⟨k, Finmap.mem_keys.2 (Finmap.mem_iff.2 ⟨row, hlookup⟩), ?_⟩
    rw [hrow]
    exact hholds

namespace Tables

variable {t : Tables}

theorem hasActiveChildren_iff {d : DeptId} : t.hasActiveChildren d = true ↔
    ∃ c row, t.department c = some row ∧ row.parentId = some d := by
  unfold hasActiveChildren
  rw [decide_eq_true_iff]
  exact exists_live.trans (by simp [department])

theorem hasActiveMembers_iff {d : DeptId} : t.hasActiveMembers d = true ↔
    ∃ u row, t.user u = some row ∧ row.departmentId = some d := by
  unfold hasActiveMembers
  rw [decide_eq_true_iff]
  exact exists_live.trans (by simp [user])

theorem row_setDepartment (t : Tables) (d : DeptId) (row : Department) :
    (t.setDepartment d row).row = Function.update t.row (.dept d) (some row) := by
  funext k
  cases k with
  | dept c =>
    by_cases hc : c = d
    · subst hc
      rw [Function.update_self]
      exact Finmap.lookup_insert t.departments
    · rw [Function.update_of_ne (by simpa using hc)]
      exact Finmap.lookup_insert_of_ne t.departments hc
  | user u => rw [Function.update_of_ne (by simp)]; rfl

theorem row_setUser (t : Tables) (u : UserId) (row : User) :
    (t.setUser u row).row = Function.update t.row (.user u) (some row) := by
  funext k
  cases k with
  | dept c => rw [Function.update_of_ne (by simp)]; rfl
  | user v =>
    by_cases hv : v = u
    · subst hv
      rw [Function.update_self]
      exact Finmap.lookup_insert t.users
    · rw [Function.update_of_ne (by simpa using hv)]
      exact Finmap.lookup_insert_of_ne t.users hv

end Tables

/-! ## One session of the database -/

namespace Solo

/-- The state of the database with the one session. -/
structure Mirrors (s : State Unit) (x : Solo) : Prop where
  committed : s.committed = x.committed.row
  view : s.view () = x.current.row

variable {s : State Unit} {x : Solo}

theorem free (k : RowId) : s.Free () k := fun _ _ => rfl

theorem Mirrors.department (h : Mirrors s x) (d : DeptId) :
    s.department () d = x.current.department d := by
  unfold State.department
  rw [h.view]
  rfl

theorem Mirrors.user (h : Mirrors s x) (u : UserId) : s.user () u = x.current.user u := by
  unfold State.user
  rw [h.view]
  rfl

theorem Mirrors.lock (h : Mirrors s x) (k : RowId) : Mirrors (s.lock () k) x :=
  ⟨h.committed, h.view⟩

theorem Mirrors.write (h : Mirrors s x) {k : RowId} {v : Row k} {f : Tables → Tables}
    (hf : (f x.current).row = Function.update x.current.row k (some v)) :
    Mirrors (s.write () k v) (x.write f) where
  committed := h.committed
  view := by
    funext j
    show (s.write () k v).view () j = (f x.current).row j
    rw [hf]
    by_cases hj : j = k
    · subst hj
      rw [Function.update_self]
      exact Rows.view_of_written Rows.write_self
    · rw [Function.update_of_ne hj, ← h.view]
      unfold Rows.view
      rw [Rows.write_ne hj, Rows.write_committed]

theorem Mirrors.setDepartment (h : Mirrors s x) (d : DeptId) (row : Department) :
    Mirrors (s.write () (.dept d) row) (x.write fun t => t.setDepartment d row) :=
  h.write (Tables.row_setDepartment _ d row)

theorem Mirrors.setUser (h : Mirrors s x) (u : UserId) (row : User) :
    Mirrors (s.write () (.user u) row) (x.write fun t => t.setUser u row) :=
  h.write (Tables.row_setUser _ u row)

/-- The tables answer as the database may, and mirror it still. -/
theorem execute_sem (h : Mirrors s x) (c : Unit × Stmt) :
    ∃ s', sem c s (x.answer c).1 s' ∧ Mirrors s' (x.answer c).2 := by
  obtain ⟨⟨⟩, st⟩ := c
  unfold answer
  cases st with
  | getDepartment d => exact ⟨s, ⟨(h.department d).symm, rfl⟩, h⟩
  | getForUpdate d =>
    cases hrow : x.current.department d with
    | none => exact ⟨s, ⟨(h.department d).symm, .inl ⟨hrow, rfl⟩⟩, h⟩
    | some row =>
      refine ⟨s.lock () (.dept d), ⟨(h.department d).symm, .inr ⟨?_, free _, rfl⟩⟩, h.lock _⟩
      rw [hrow]
      exact Option.some_ne_none row
  | listAll =>
    refine ⟨s, ⟨fun d row => ?_, rfl⟩, h⟩
    rw [h.department d]
    exact Rbac.mem_orderedRows
  | hasActiveChildren d =>
    refine ⟨s, ⟨?_, rfl⟩, h⟩
    simp only [h.department]
    exact Tables.hasActiveChildren_iff
  | hasActiveMembers d =>
    refine ⟨s, ⟨?_, rfl⟩, h⟩
    simp only [h.user]
    exact Tables.hasActiveMembers_iff
  | insertDepartment d row =>
    have hview : s.view () (.dept d) = x.current.departments.lookup d := congrFun h.view _
    simp only [execute]
    cases hrow : x.current.departments.lookup d with
    | none => exact ⟨_, ⟨hview.trans hrow, free _, rfl⟩, h.setDepartment d row⟩
    | some _ => exact ⟨s, ⟨nofun, rfl⟩, h⟩
  | updateDepartment d values updatedBy =>
    have hview : s.view () (.dept d) = x.current.departments.lookup d := congrFun h.view _
    simp only [execute]
    cases hrow : x.current.departments.lookup d with
    | none => exact ⟨s, ⟨nofun, rfl⟩, h⟩
    | some row => exact ⟨_, ⟨row, hview.trans hrow, free _, rfl⟩, h.setDepartment d _⟩
  | softDelete d updatedBy =>
    have hview : s.view () (.dept d) = x.current.departments.lookup d := congrFun h.view _
    simp only [execute]
    cases hrow : x.current.departments.lookup d with
    | none => exact ⟨s, ⟨nofun, rfl⟩, h⟩
    | some row => exact ⟨_, ⟨row, hview.trans hrow, free _, rfl⟩, h.setDepartment d _⟩
  | getUser u => exact ⟨s, ⟨(h.user u).symm, rfl⟩, h⟩
  | otherChecks => exact ⟨s, rfl, h⟩
  | insertUser u row =>
    have hview : s.view () (.user u) = x.current.users.lookup u := congrFun h.view _
    simp only [execute]
    cases hrow : x.current.users.lookup u with
    | none => exact ⟨_, ⟨hview.trans hrow, free _, rfl⟩, h.setUser u row⟩
    | some _ => exact ⟨s, ⟨nofun, rfl⟩, h⟩
  | updateUser u values updatedBy =>
    have hview : s.view () (.user u) = x.current.users.lookup u := congrFun h.view _
    simp only [execute]
    cases hrow : x.current.users.lookup u with
    | none => exact ⟨s, ⟨nofun, rfl⟩, h⟩
    | some row => exact ⟨_, ⟨row, hview.trans hrow, free _, rfl⟩, h.setUser u _⟩
  | commit =>
    refine ⟨s.commit (), rfl, h.view, ?_⟩
    exact (funext fun k => Rows.view_of_unwritten Rows.finish_writes_self).trans h.view
  | rollback =>
    refine ⟨s.rollback (), rfl, h.committed, ?_⟩
    exact (funext fun k => Rows.view_of_unwritten Rows.finish_writes_self).trans h.committed

theorem run_runs {α : Type} (p : Service Unit α) (h : Mirrors s x)
    (t : Trace (Unit × Stmt) Resp) :
    ∃ s' t', Prog.Runs sem Eq p.run s t (x.run p).1 s' t' ∧ Mirrors s' (x.run p).2 := by
  have hanswer : ∀ (c : Unit × Stmt) {s : State Unit} {x : Solo}, Mirrors s x →
      ∃ s', sem c s (x.answer c).1 s' ∧ Mirrors s' (x.answer c).2 := fun c _ _ h => execute_sem h c
  exact Prog.runs_eval_of (fun _ => rfl) hanswer p.run h t

end Solo

end Departments
