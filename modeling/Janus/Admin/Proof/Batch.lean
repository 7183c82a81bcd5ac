import Janus.Admin.Proof.BatchUsers
import Janus.Admin.Proof.MenuParent
import Janus.Admin.Proof.Solo

/-!
# Batch delete and single delete

* `batch_matches_each`: a batch delete of users, roles, menus or departments does what single
  deletes do that are requested for each of its ids once, in order, and skips the ids that they
  reject.
* `repeated_id`: an id that is given twice is attempted once.
-/

set_option autoImplicit false

/-! ## Departments -/

namespace Departments

open Conc Sql

/-- A request; a rejected one leaves nothing. -/
def Solo.attempt (p : Service Unit Unit) (x : Solo) : Option Solo :=
  match x.run p with
  | (.ok _, x') => some x'
  | (.error _, _) => none

section

variable {α β : Type} {x x' : Solo} {d : DeptId} {row : Department} {actor : AuthenticatedUser}

theorem Solo.run_bind_ok {p : Service Unit α} {f : α → Service Unit β} {a : α}
    (h : x.run p = (.ok a, x')) : x.run (p >>= f) = x'.run (f a) := Raising.eval_bind_ok h

theorem Solo.run_bind_error {p : Service Unit α} {f : α → Service Unit β} {e : ServiceError}
    (h : x.run p = (.error e, x')) : x.run (p >>= f) = (.error e, x') := Raising.eval_bind_error h

theorem Solo.run_execute {st : Stmt} {r : st.Answer} (h : x.execute st = (.ok r, x')) :
    x.run (Departments.execute () st) = (.ok r, x') := by
  refine (Solo.run_bind_ok (?_ : x.run (Raising.cmd ((), st)) = (.ok (.ok r), x'))).trans rfl
  show (Except.ok (x.execute st).1, (x.execute st).2) = _
  rw [h]

/-- The single delete. -/
def deleteOne (actor : AuthenticatedUser) (d : DeptId) (x : Solo) : Option Solo :=
  x.attempt (deleteDepartment () d actor)

/-- Whether a request to delete the department is accepted. -/
def Solo.canDelete (x : Solo) (d : DeptId) : Bool :=
  !x.current.hasActiveChildren d && !x.current.hasActiveMembers d

theorem isEmpty_run : x.run (isEmpty () d) = (.ok (x.canDelete d), x) := by
  unfold isEmpty Solo.canDelete
  rw [Solo.run_bind_ok (Solo.run_execute rfl)]
  cases x.current.hasActiveChildren d with
  | true => rfl
  | false => exact (Solo.run_bind_ok (Solo.run_execute rfl)).trans rfl

def softDeleted (x : Solo) (d : DeptId) (row : Department) (updatedBy : UserId) : Solo :=
  x.write fun t =>
    t.setDepartment d { row with isDeleted := true, updatedBy := some updatedBy }

theorem softDelete_run (h : x.current.department d = some row) :
    x.run (execute () (.softDelete d actor.userId)) =
      (.ok (), softDeleted x d row actor.userId) := by
  have hrow : x.current.departments.lookup d = some row := (Option.filter_eq_some_iff.1 h).1
  refine Solo.run_execute ?_
  simp only [Solo.execute, hrow]
  rfl

theorem attempt_missing (h : x.current.department d = none) :
    deleteOne actor d x = none := by
  have hread : x.run (execute () (.getDepartment d)) = (.ok none, x) := by
    rw [← h]
    exact Solo.run_execute rfl
  unfold deleteOne Solo.attempt deleteDepartment requireDepartment
  rw [Solo.run_bind_error]
  rw [Solo.run_bind_ok hread]
  rfl

theorem attempt_found (actor : AuthenticatedUser) (h : x.current.department d = some row) :
    deleteOne actor d x =
      if x.canDelete d then some (softDeleted x d row actor.userId) else none := by
  have hread : x.run (execute () (.getDepartment d)) = (.ok (some row), x) := by
    rw [← h]
    exact Solo.run_execute rfl
  have hlock : x.run (execute () (.getForUpdate d)) = (.ok (some row), x) := by
    rw [← h]
    exact Solo.run_execute rfl
  have hrequire : x.run (requireDepartment () d) = (.ok row, x) := by
    unfold requireDepartment
    rw [Solo.run_bind_ok hread]
    rfl
  unfold deleteOne Solo.attempt deleteDepartment
  rw [Solo.run_bind_ok hrequire, Solo.run_bind_ok hlock]
  dsimp only
  rw [Solo.run_bind_ok isEmpty_run]
  cases x.canDelete d with
  | false => rfl
  | true =>
    rw [if_pos rfl, softDelete_run h]
    rfl

theorem batchRound_run (actor : AuthenticatedUser) (count : Nat × List DeptId) (d : DeptId)
    (x : Solo) : x.run (batchRound () actor count d) =
      (.ok (tally (deleteOne actor) (count, x) d).1, (tally (deleteOne actor) (count, x) d).2) := by
  have hlock : x.run (execute () (.getForUpdate d)) = (.ok (x.current.department d), x) :=
    Solo.run_execute rfl
  unfold batchRound
  rw [Solo.run_bind_ok hlock]
  cases hrow : x.current.department d with
  | none =>
    rw [tally_refused (attempt_missing hrow)]
    rfl
  | some row =>
    have hone := attempt_found actor hrow
    dsimp only
    rw [Solo.run_bind_ok isEmpty_run]
    cases hcan : x.canDelete d with
    | false =>
      rw [hcan, if_neg Bool.false_ne_true] at hone
      rw [tally_refused hone]
      rfl
    | true =>
      rw [hcan, if_pos rfl] at hone
      rw [tally_accepted hone, if_pos rfl, Solo.run_bind_ok (softDelete_run hrow)]
      rfl

theorem batch_run (actor : AuthenticatedUser) (ids : List DeptId) (x : Solo) : ∃ affected,
    x.run (batchDeleteDepartments () ids actor) =
      (.ok ⟨(fromKeys ids).length, affected, (each (deleteOne actor) (fromKeys ids) x).2⟩,
        (each (deleteOne actor) (fromKeys ids) x).1) := by
  obtain ⟨affected, hfold⟩ := foldl_tally (deleteOne actor) (fromKeys ids) 0 [] x
  refine ⟨affected, ?_⟩
  have hloop := Raising.eval_foldlM (batchRound_run actor) (fromKeys ids) (0, []) x
  rw [hfold] at hloop
  exact (Solo.run_bind_ok hloop).trans rfl

end

end Departments

namespace Rbac

open Janus Sql
open Departments (UserId BatchResult Solo fromKeys)

/-! ## Menus -/

section

variable {u : UnitOfWork} {m : MenuId} {row : Menu} {actor : AuthenticatedUser}

def deleteOneMenu (actor : AuthenticatedUser) (m : MenuId) : UnitOfWork → Option UnitOfWork :=
  Work.attempt (deleteMenu m actor)

def menuDeleted (u : UnitOfWork) (m : MenuId) (row : Menu) (updatedBy : UserId) : UnitOfWork :=
  { u with db := u.db.setMenu m { row with isDeleted := true, updatedBy := some updatedBy } }

theorem deleteOneMenu_missing (h : u.db.menu m = none) : deleteOneMenu actor m u = none := by
  refine Work.attempt_error (e := requestInvalid 404) ?_
  unfold deleteMenu requireMenu
  rw [Work.run_bind_error]
  rw [Work.run_bind_ok (run_query _), Work.run_requireSome, h]

theorem deleteOneMenu_found (actor : AuthenticatedUser) (h : u.db.menu m = some row) :
    deleteOneMenu actor m u = if u.db.hasChildren m || u.db.isRoleGranted m then none
    else some (menuDeleted u m row actor.userId) := by
  have hrequire : (requireMenu m).run u = .ok (row, u) := by
    unfold requireMenu
    rw [Work.run_bind_ok (run_query _), Work.run_requireSome, h]
  unfold deleteOneMenu Work.attempt deleteMenu
  rw [Work.run_bind_ok hrequire, Work.run_bind_ok (run_query _)]
  cases u.db.hasChildren m || u.db.isRoleGranted m with
  | true => rfl
  | false => rfl

theorem batchRound_run (actor : AuthenticatedUser) (count : Nat × List MenuId) (m : MenuId)
    (u : UnitOfWork) : (batchRound actor count m).run u =
      .ok (tally (deleteOneMenu actor) (count, u) m) := by
  unfold batchRound
  rw [Work.run_bind_ok (run_query _)]
  cases hrow : u.db.menu m with
  | none =>
    rw [tally_refused (deleteOneMenu_missing hrow)]
    rfl
  | some row =>
    have hone := deleteOneMenu_found actor hrow
    dsimp only
    rw [Work.run_bind_ok (run_query _)]
    cases hinUse : u.db.hasChildren m || u.db.isRoleGranted m with
    | true =>
      rw [hinUse, if_pos rfl] at hone
      rw [tally_refused hone]
      rfl
    | false =>
      rw [hinUse, if_neg Bool.false_ne_true] at hone
      rw [tally_accepted hone]
      rfl

theorem batchDeleteMenus_run (actor : AuthenticatedUser) (ids : List MenuId) (u : UnitOfWork) :
    ∃ affected, (batchDeleteMenus ids actor).run u =
      .ok (⟨(fromKeys ids).length, affected, (each (deleteOneMenu actor) (fromKeys ids) u).2⟩,
        (each (deleteOneMenu actor) (fromKeys ids) u).1) := by
  obtain ⟨affected, hfold⟩ := foldl_tally (deleteOneMenu actor) (fromKeys ids) 0 [] u
  refine ⟨affected, ?_⟩
  have hloop := Work.run_foldlM (batchRound_run actor) (fromKeys ids) (0, []) u
  rw [hfold] at hloop
  exact (Work.run_bind_ok hloop).trans rfl

end

/-! ## The batches -/

/-- The same but for audit columns and repetitions. -/
structure SameEffects (u v : UnitOfWork) : Prop where
  users : ∀ id, (u.db.users.lookup id).map User.audit.unaudited =
    (v.db.users.lookup id).map User.audit.unaudited
  roles : ∀ r, (u.db.roles.lookup r).map Role.audit.unaudited =
    (v.db.roles.lookup r).map Role.audit.unaudited
  departments : u.db.departments = v.db.departments
  menus : u.db.menus = v.db.menus
  userRoles : u.db.userRoles = v.db.userRoles
  roleMenus : u.db.roleMenus = v.db.roleMenus
  hooks : ∀ hook, hook ∈ u.hooks ↔ hook ∈ v.hooks
  revoked : ∀ id, id ∈ u.revoked ↔ id ∈ v.revoked

theorem SameEffects.refl (u : UnitOfWork) : SameEffects u u where
  users _ := rfl
  roles _ := rfl
  departments := rfl
  menus := rfl
  userRoles := rfl
  roleMenus := rfl
  hooks _ := Iff.rfl
  revoked _ := Iff.rfl

theorem Removes.same {A : Set Int} {B : Set Int} {u t t' : UnitOfWork} (h : Removes A B u t)
    (h' : Removes A B u t') : SameEffects t t' where
  users := h.userRows.same h'.userRows
  roles := h.roleRows.same h'.roleRows
  departments := h.departments.trans h'.departments.symm
  menus := h.menus.trans h'.menus.symm
  userRoles := by
    ext link
    rw [h.userRoles, h'.userRoles]
  roleMenus := by
    ext link
    rw [h.roleMenus, h'.roleMenus]
  hooks hook := by rw [h.hooks, h'.hooks]
  revoked id := by rw [h.revoked, h'.revoked]

/-- A batch leaves what an attempt on each id leaves, and skips exactly the refused ids. -/
def MatchesEach {S : Type} (Same : S → S → Prop) (attempt : Int → S → Option S) (ids : List Int)
    (s : S) (result : BatchResult) (s' : S) : Prop :=
  Same (each attempt ids s).1 s' ∧ result.skippedIds.Nodup ∧
    ∀ id, id ∈ result.skippedIds ↔ id ∈ (each attempt ids s).2

/-- A batch that is judged by its first state. -/
theorem matches_of_sweep {attempt : Int → UnitOfWork → Option UnitOfWork}
    {can : UnitOfWork → Int → Bool} {Does : Set Int → UnitOfWork → UnitOfWork → Prop}
    (hsweep : Sweep attempt can Does)
    (hsame : ∀ {A u t t'}, Does A u t → Does A u t' → SameEffects t t') {ids : List Int}
    {u u' : UnitOfWork} {result : BatchResult}
    (hdoes : Does {id | id ∈ ids ∧ can u id = true} u u') (hnodup : result.skippedIds.Nodup)
    (hskipped : ∀ id, id ∈ result.skippedIds ↔ id ∈ ids ∧ can u id = false) :
    MatchesEach SameEffects attempt (fromKeys ids) u result u' := by
  obtain ⟨heach, hrefused⟩ := hsweep.each_eq (nodup_fromKeys ids) u
  simp only [mem_fromKeys] at heach
  refine ⟨hsame heach hdoes, hnodup, fun id => ?_⟩
  rw [hskipped, hrefused, List.mem_filter, mem_fromKeys, Bool.not_eq_true']

/-- A batch delete is one delete after the other. -/
theorem batch_matches_each (actor : AuthenticatedUser) (ids : List Int) (u : UnitOfWork)
    (x : Solo) :
    (∃ result u', (batchDeleteUsers ids actor).run u = .ok (result, u') ∧
      MatchesEach SameEffects (deleteOneUser actor) (fromKeys ids) u result u') ∧
    (∃ result u', (batchDeleteRoles ids actor).run u = .ok (result, u') ∧
      MatchesEach SameEffects (deleteOneRole actor) (fromKeys ids) u result u') ∧
    (∃ result u', (batchDeleteMenus ids actor).run u = .ok (result, u') ∧
      MatchesEach SameEffects (deleteOneMenu actor) (fromKeys ids) u result u') ∧
    ∃ result x',
      x.run (Departments.batchDeleteDepartments () ids ⟨actor.userId, actor.departmentId⟩) =
        (.ok result, x') ∧
      MatchesEach Eq (Departments.deleteOne ⟨actor.userId, actor.departmentId⟩) (fromKeys ids) x
        result x' := by
  refine ⟨?_, ?_, ?_, ?_⟩
  · obtain ⟨result, u', hrun, hremoves, hnodup, hskipped⟩ := batchDeleteUsers_run actor ids u
    exact ⟨result, u', hrun, matches_of_sweep (sweep_users actor) (fun h h' => h.same h') hremoves
      hnodup hskipped⟩
  · obtain ⟨result, u', hrun, hremoves, hnodup, hskipped⟩ := batchDeleteRoles_run actor ids u
    exact ⟨result, u', hrun, matches_of_sweep (sweep_roles actor) (fun h h' => h.same h') hremoves
      hnodup hskipped⟩
  · obtain ⟨affected, hrun⟩ := batchDeleteMenus_run actor ids u
    exact ⟨_, _, hrun, .refl _, (nodup_fromKeys ids).sublist each_sublist, fun _ => Iff.rfl⟩
  · obtain ⟨affected, hrun⟩ := Departments.batch_run ⟨actor.userId, actor.departmentId⟩ ids x
    exact ⟨_, _, hrun, rfl, (nodup_fromKeys ids).sublist each_sublist, fun _ => Iff.rfl⟩

/-- Menu 2 is below menu 1, and menu 1 is given again behind it: a single delete of it would be
accepted then, but the batch does not come back to it. -/
theorem repeated_id :
    ¬ ∃ result u',
      (batchDeleteMenus [1, 2, 1] { userId := 0, permissions := ∅ }).run
        (menuTable [(1, none), (2, some 1)]) = .ok (result, u') ∧
      MatchesEach SameEffects (deleteOneMenu { userId := 0, permissions := ∅ }) [1, 2, 1]
        (menuTable [(1, none), (2, some 1)]) result u' := by
  rintro ⟨result, u', hrun, hsame, -⟩
  have hbatch : u'.db.menus.lookup 1 = some (menuRow none) := by
    cases hrun
    rfl
  have heach : ((each (deleteOneMenu { userId := 0, permissions := ∅ }) [1, 2, 1]
      (menuTable [(1, none), (2, some 1)])).1.db.menus.lookup 1).map Menu.isDeleted =
        some true := rfl
  rw [hsame.menus, hbatch] at heach
  cases heach

end Rbac
