import Janus.Admin.Proof.SoftDelete
import Janus.Admin.Roles
import Janus.Admin.Users
import Janus.Sql.Each

/-!
# Deletes of users and roles

`Removes users roles`: the rows are flagged, their links go, and their sessions and snapshots are
scheduled. Neither delete changes what the guard of another user or role sees, so single deletes are
a sweep (`sweep_users`, `sweep_roles`), and a batch does what they do together
(`batchDeleteUsers_run`, `batchDeleteRoles_run`).
-/

set_option autoImplicit false

namespace Rbac

open Janus Sql
open Departments (UserId fromKeys)

/-! ## What a delete does -/

/-- What a delete of users and roles does, apart from audit columns. -/
structure Removes (users : Set UserId) (roles : Set RoleId) (u u' : UnitOfWork) : Prop where
  userRows : Flags User.audit users u.db.users u'.db.users
  roleRows : Flags Role.audit roles u.db.roles u'.db.roles
  departments : u'.db.departments = u.db.departments
  menus : u'.db.menus = u.db.menus
  userRoles : ∀ link, link ∈ u'.db.userRoles ↔
    link ∈ u.db.userRoles ∧ link.1 ∉ users ∧ link.2 ∉ roles
  roleMenus : ∀ link, link ∈ u'.db.roleMenus ↔ link ∈ u.db.roleMenus ∧ link.1 ∉ roles
  hooks : ∀ hook, hook ∈ u'.hooks ↔ hook ∈ u.hooks ∨
    (∃ id ∈ users, hook = .invalidateUser id) ∨ (roles.Nonempty ∧ hook = .invalidateAll)
  revoked : ∀ id, id ∈ u'.revoked ↔ id ∈ u.revoked ∨ id ∈ users

section

variable {A A' : Set UserId} {B B' : Set RoleId} {u t u' : UnitOfWork}

theorem Removes.nothing : Removes ∅ ∅ u u where
  userRows := .nothing
  roleRows := .nothing
  departments := rfl
  menus := rfl
  userRoles := by simp
  roleMenus := by simp
  hooks := by simp
  revoked := by simp

theorem Removes.append (h : Removes A B u t) (h' : Removes A' B' t u') :
    Removes (A ∪ A') (B ∪ B') u u' where
  userRows := h.userRows.append h'.userRows
  roleRows := h.roleRows.append h'.roleRows
  departments := h'.departments.trans h.departments
  menus := h'.menus.trans h.menus
  userRoles link := by
    rw [h'.userRoles, h.userRoles]
    simp only [Set.mem_union, not_or]
    tauto
  roleMenus link := by
    rw [h'.roleMenus, h.roleMenus]
    simp only [Set.mem_union, not_or, and_assoc]
  hooks hook := by
    rw [h'.hooks, h.hooks]
    simp only [Set.mem_union, Set.union_nonempty, or_and_right, exists_or, or_assoc, or_left_comm]
  revoked id := by
    rw [h'.revoked, h.revoked, Set.mem_union, or_assoc]

end

/-! ## Users -/

section

variable {u u' : UnitOfWork} {id j : UserId} {actor : AuthenticatedUser}

def deleteOneUser (actor : AuthenticatedUser) (id : UserId) : UnitOfWork → Option UnitOfWork :=
  Work.attempt (deleteUser id actor)

def userDeleted (u : UnitOfWork) (id : UserId) (row : User) (updatedBy : UserId) : UnitOfWork where
  db := (u.db.replaceRoles id ∅).setUser id
    { row with isDeleted := true, updatedBy := some updatedBy }
  hooks := u.hooks ++ [.invalidateUser id]
  revoked := u.revoked ++ [id]

/-- A user that the actor may delete. -/
def canDeleteUser (actor : AuthenticatedUser) (u : UnitOfWork) (id : UserId) : Bool :=
  (u.db.user id).isSome && dominatesRoles u.db actor id

theorem canDeleteUser_congr (hrow : u'.db.user j = u.db.user j)
    (hroleIds : u'.db.listRoleIds j = u.db.listRoleIds j)
    (hcodes : u'.db.roleCodes = u.db.roleCodes)
    (hactive : u'.db.activeRole = u.db.activeRole) :
    canDeleteUser actor u' j = canDeleteUser actor u j := by
  unfold canDeleteUser dominatesRoles requireDominance requireAssignableRoles
    Database.listPermissionCodesForRoles Database.activeCodesByIds
  rw [hrow, hroleIds, hcodes, hactive]

theorem Removes.other_user (h : Removes {id} ∅ u u') (hj : j ≠ id) :
    canDeleteUser actor u' j = canDeleteUser actor u j := by
  have hroles : u'.db.roles = u.db.roles := h.roleRows.eq_of_empty
  have hroleMenus : u'.db.roleMenus = u.db.roleMenus := by
    ext link
    rw [h.roleMenus]
    simp
  refine canDeleteUser_congr ?_ ?_ ?_ ?_
  · unfold Database.user
    rw [h.userRows.kept j hj]
  · unfold Database.listRoleIds
    congr 1
    ext link
    rw [Finset.mem_filter, Finset.mem_filter, h.userRoles]
    constructor
    · rintro ⟨⟨hlink, -⟩, rfl⟩
      exact ⟨hlink, rfl⟩
    · rintro ⟨hlink, rfl⟩
      exact ⟨⟨hlink, hj, Set.notMem_empty _⟩, rfl⟩
  · unfold Database.roleCodes Database.activeRole Database.role Database.listMenuIds
      Database.menuCodes Database.activeMenu Database.menu
    rw [hroles, hroleMenus, h.menus]
  · unfold Database.activeRole Database.role
    rw [hroles]

theorem deleteOneUser_refused (h : canDeleteUser actor u id = false) :
    deleteOneUser actor id u = none := by
  cases hrow : u.db.user id with
  | none =>
    refine Work.attempt_error (e := requestInvalid 404) ?_
    unfold deleteUser requireUser
    rw [Work.run_bind_error]
    rw [Work.run_bind_ok (run_query _), Work.run_requireSome, hrow]
  | some row =>
    rw [canDeleteUser, hrow, Option.isSome_some, Bool.true_and, dominatesRoles] at h
    have hrequire : (requireUser id).run u = .ok (row, u) := by
      unfold requireUser
      rw [Work.run_bind_ok (run_query _), Work.run_requireSome, hrow]
    cases hguard : requireDominance u.db id actor with
    | ok _ =>
      rw [hguard] at h
      cases h
    | error e =>
      refine Work.attempt_error (e := e) ?_
      unfold deleteUser
      rw [Work.run_bind_ok hrequire, Work.run_bind_ok (run_query _), Work.run_bind_error]
      rw [Work.run_check, id_eq, hguard]
      rfl

theorem deleteOneUser_accepted (h : canDeleteUser actor u id = true) :
    ∃ u', deleteOneUser actor id u = some u' ∧ Removes {id} ∅ u u' := by
  obtain ⟨hsome, hdominates⟩ := Bool.and_eq_true_iff.1 h
  obtain ⟨row, hrow⟩ := Option.isSome_iff_exists.1 hsome
  have hrequire : (requireUser id).run u = .ok (row, u) := by
    unfold requireUser
    rw [Work.run_bind_ok (run_query _), Work.run_requireSome, hrow]
  have hguard : requireDominance u.db id actor = .ok () := by
    unfold dominatesRoles at hdominates
    cases hguard : requireDominance u.db id actor with
    | ok _ => rfl
    | error e =>
      rw [hguard] at hdominates
      cases hdominates
  have hlookup : u.db.users.lookup id = some row := (Option.filter_eq_some_iff.1 hrow).1
  refine ⟨userDeleted u id row actor.userId, Work.attempt_ok ?_, ?_⟩
  · have hcheck : (Work.check (requireDominance u.db id actor) : Service Unit).run u =
        .ok ((), u) := by
      rw [Work.run_check, hguard]
      rfl
    unfold deleteUser
    rw [Work.run_bind_ok hrequire, Work.run_bind_ok (run_query _), id_eq, Work.run_bind_ok hcheck,
      Work.run_bind_ok (run_update _), Work.run_bind_ok (run_update _),
      Work.run_bind_ok (run_revokeAllSessions _), run_addAfterCommitHook]
    rfl
  · exact {
      userRows := Flags.insert hlookup rfl
      roleRows := .nothing
      departments := rfl
      menus := rfl
      userRoles := by simp [userDeleted, Database.setUser, Database.replaceRoles]
      roleMenus := by simp [userDeleted, Database.setUser, Database.replaceRoles]
      hooks := by simp [userDeleted]
      revoked := by simp [userDeleted] }

theorem sweep_users (actor : AuthenticatedUser) :
    Sweep (deleteOneUser actor) (canDeleteUser actor) fun A => Removes A ∅ where
  nothing _ := .nothing
  append h h' := by simpa using h.append h'
  accepts := deleteOneUser_accepted
  refuses := deleteOneUser_refused
  apart h hj := h.other_user hj

/-! ### Batches of users -/

/-- The links and the snapshots of deleted users. -/
def usersUnlinked (u : UnitOfWork) (gone : List UserId) : UnitOfWork where
  db := { u.db with
    userRoles := u.db.userRoles.filter fun link => link.1 ∉ gone }
  hooks := u.hooks ++ gone.map .invalidateUser
  revoked := u.revoked

theorem usersUnlinked_nil : usersUnlinked u [] = u := by simp [usersUnlinked]

theorem run_deleteRoleIds (skippedIds ids : List UserId) (u : UnitOfWork) :
    (forM ids (deleteRoleIds skippedIds)).run u =
      .ok ((), usersUnlinked u (ids.filter fun id => id ∉ skippedIds)) := by
  induction ids generalizing u with
  | nil =>
    rw [List.filter_nil, usersUnlinked_nil]
    rfl
  | cons id ids ih =>
    rw [List.forM_cons]
    by_cases hskipped : id ∈ skippedIds
    · have hround : (deleteRoleIds skippedIds id).run u = .ok ((), u) :=
        Work.run_when_neg (not_not.2 hskipped)
      rw [Work.run_bind_ok hround, ih, List.filter_cons_of_neg (by simpa using hskipped)]
    · have hround : (deleteRoleIds skippedIds id).run u =
          .ok ((), { u with
            db := u.db.replaceRoles id ∅
            hooks := u.hooks ++ [.invalidateUser id] }) := by
        refine (Work.run_when_pos hskipped).trans ?_
        rw [Work.run_bind_ok (run_update _), run_addAfterCommitHook]
      rw [Work.run_bind_ok hround, ih, List.filter_cons_of_pos (by simpa using hskipped)]
      simp [usersUnlinked, Database.replaceRoles, Finset.filter_filter]

theorem run_revokeAll (ids : List UserId) (u : UnitOfWork) :
    (forM ids revokeAllSessions).run u = .ok ((), { u with revoked := u.revoked ++ ids }) := by
  induction ids generalizing u with
  | nil =>
    rw [List.append_nil]
    rfl
  | cons id ids ih =>
    rw [List.forM_cons, Work.run_bind_ok (run_revokeAllSessions id), ih]
    simp

theorem isSome_user (db : Database) (id : UserId) :
    (db.user id).isSome = User.audit.live db.users id := by
  unfold Database.user Audit.live
  exact Option.isSome_filter

theorem removes_users {users : Table UserId User} {A : Set UserId} {gone : List UserId}
    (hflags : Flags User.audit A u.db.users users) (hgone : ∀ id, id ∈ gone ↔ id ∈ A) :
    Removes A ∅ u
      { usersUnlinked { u with db := { u.db with users } } gone with
        revoked := u.revoked ++ gone } where
  userRows := hflags
  roleRows := .nothing
  departments := rfl
  menus := rfl
  userRoles link := by simp [usersUnlinked, hgone]
  roleMenus := by simp [usersUnlinked]
  hooks hook := by simp [usersUnlinked, hgone, eq_comm]
  revoked id := by simp [hgone]

theorem canDeleteUser_eq (actor : AuthenticatedUser) (u : UnitOfWork) (id : UserId) :
    canDeleteUser actor u id = (User.audit.live u.db.users id &&
      allowed actor (fun id => dominatesRoles u.db actor id) id) := by
  unfold canDeleteUser allowed
  rw [isSome_user]
  by_cases h : actor.isSuperuser
  · have hdominates : dominatesRoles u.db actor id = true := by
      rw [dominatesRoles, requireDominance, if_pos h]
      rfl
    simp [hdominates, h]
  · rw [decide_eq_false h, Bool.false_or]

theorem batchDeleteUsers_run (actor : AuthenticatedUser) (ids : List UserId) (u : UnitOfWork) :
    ∃ result u', (batchDeleteUsers ids actor).run u = .ok (result, u') ∧
      Removes {id | id ∈ ids ∧ canDeleteUser actor u id = true} ∅ u u' ∧
      result.skippedIds.Nodup ∧
      ∀ id, id ∈ result.skippedIds ↔ id ∈ ids ∧ canDeleteUser actor u id = false := by
  obtain ⟨users, affected, skipped, hsoft⟩ : ∃ users affected skipped,
      softDeleteMany User.isDeleted (fun row => { row with isDeleted := true }) u.db.users
        ((fromKeys ids).filter (allowed actor fun id => dominatesRoles u.db actor id)) =
          (users, affected, skipped) := ⟨_, _, _, rfl⟩
  have hsorts := sorts_softDeleteMany (x := User.audit) hsoft
  unfold batchDeleteUsers
  rw [Work.run_bind_ok (run_query _), id_eq, dominance_filter]
  dsimp only
  rw [hsoft, Work.run_bind_ok (run_update _), Work.run_bind_ok (run_deleteRoleIds _ _ _),
    Work.run_bind_ok (run_revokeAll _ _)]
  simp only [canDeleteUser_eq]
  exact ⟨_, _, rfl, removes_users hsorts.flags fun id => hsorts.mem_gone, hsorts.nodup,
    hsorts.skipped⟩

end

/-! ## Roles -/

section

variable {u u' : UnitOfWork} {r j : RoleId} {actor : AuthenticatedUser}

def deleteOneRole (actor : AuthenticatedUser) (r : RoleId) : UnitOfWork → Option UnitOfWork :=
  Work.attempt (deleteRole r actor)

def canDeleteRole (actor : AuthenticatedUser) (u : UnitOfWork) (r : RoleId) : Bool :=
  dominatesRole u.db actor r

def roleDeleted (u : UnitOfWork) (r : RoleId) (row : Role) (updatedBy : UserId) : UnitOfWork where
  db := ((u.db.replaceMenus r ∅).deleteUserLinks r).setRole r
    { row with isDeleted := true, updatedBy := some updatedBy }
  hooks := u.hooks ++ [.invalidateAll]
  revoked := u.revoked

theorem Removes.other_role (h : Removes ∅ {r} u u') (hj : j ≠ r) :
    canDeleteRole actor u' j = canDeleteRole actor u j := by
  have hrole : u'.db.role j = u.db.role j := by
    unfold Database.role
    rw [h.roleRows.kept j hj]
  have hmenuIds : u'.db.listMenuIds j = u.db.listMenuIds j := by
    unfold Database.listMenuIds
    congr 1
    ext link
    rw [Finset.mem_filter, Finset.mem_filter, h.roleMenus]
    constructor
    · rintro ⟨⟨hlink, -⟩, rfl⟩
      exact ⟨hlink, rfl⟩
    · rintro ⟨hlink, rfl⟩
      exact ⟨⟨hlink, hj⟩, rfl⟩
  have hcodes : u'.db.menuCodes = u.db.menuCodes := by
    unfold Database.menuCodes Database.activeMenu Database.menu
    rw [h.menus]
  unfold canDeleteRole dominatesRole requireRoleDominance requireAssignableMenus
    Database.listPermissionCodesForMenus
  rw [hrole, hmenuIds, hcodes]

theorem deleteOneRole_refused (h : canDeleteRole actor u r = false) :
    deleteOneRole actor r u = none := by
  cases hrow : u.db.role r with
  | none =>
    refine Work.attempt_error (e := requestInvalid 404) ?_
    unfold deleteRole requireRole
    rw [Work.run_bind_error]
    rw [Work.run_bind_ok (run_query _), Work.run_requireSome, hrow]
  | some row =>
    rw [canDeleteRole, dominatesRole, hrow, Option.any_some] at h
    have hrequire : (requireRole r).run u = .ok (row, u) := by
      unfold requireRole
      rw [Work.run_bind_ok (run_query _), Work.run_requireSome, hrow]
    cases hguard : requireRoleDominance u.db r row actor with
    | ok _ =>
      rw [hguard] at h
      cases h
    | error e =>
      refine Work.attempt_error (e := e) ?_
      unfold deleteRole
      rw [Work.run_bind_ok hrequire, Work.run_bind_ok (run_query _), Work.run_bind_error]
      rw [Work.run_check, id_eq, hguard]
      rfl

theorem deleteOneRole_accepted (h : canDeleteRole actor u r = true) :
    ∃ u', deleteOneRole actor r u = some u' ∧ Removes ∅ {r} u u' := by
  obtain ⟨row, hrow, hdominates⟩ : ∃ row, u.db.role r = some row ∧
      (requireRoleDominance u.db r row actor).isOk = true := by
    unfold canDeleteRole dominatesRole at h
    cases hrow : u.db.role r with
    | none =>
      rw [hrow] at h
      cases h
    | some row =>
      rw [hrow] at h
      exact ⟨row, rfl, h⟩
  have hrequire : (requireRole r).run u = .ok (row, u) := by
    unfold requireRole
    rw [Work.run_bind_ok (run_query _), Work.run_requireSome, hrow]
  have hguard : requireRoleDominance u.db r row actor = .ok () := by
    cases hguard : requireRoleDominance u.db r row actor with
    | ok _ => rfl
    | error e =>
      rw [hguard] at hdominates
      cases hdominates
  have hlookup : u.db.roles.lookup r = some row := (Option.filter_eq_some_iff.1 hrow).1
  refine ⟨roleDeleted u r row actor.userId, Work.attempt_ok ?_, ?_⟩
  · have hcheck : (Work.check (requireRoleDominance u.db r row actor) : Service Unit).run u =
        .ok ((), u) := by
      rw [Work.run_check, hguard]
      rfl
    unfold deleteRole
    rw [Work.run_bind_ok hrequire, Work.run_bind_ok (run_query _), id_eq, Work.run_bind_ok hcheck,
      Work.run_bind_ok (run_update _), Work.run_bind_ok (run_update _),
      Work.run_bind_ok (run_update _), run_addAfterCommitHook]
    rfl
  · exact {
      userRows := .nothing
      roleRows := Flags.insert hlookup rfl
      departments := rfl
      menus := rfl
      userRoles := by
        simp [roleDeleted, Database.setRole, Database.deleteUserLinks, Database.replaceMenus]
      roleMenus := by
        simp [roleDeleted, Database.setRole, Database.deleteUserLinks, Database.replaceMenus]
      hooks := by simp [roleDeleted]
      revoked := by simp [roleDeleted] }

theorem sweep_roles (actor : AuthenticatedUser) :
    Sweep (deleteOneRole actor) (canDeleteRole actor) fun B => Removes ∅ B where
  nothing _ := .nothing
  append h h' := by simpa using h.append h'
  accepts := deleteOneRole_accepted
  refuses := deleteOneRole_refused
  apart h hj := h.other_role hj

/-- The links of deleted roles. -/
def rolesUnlinked (u : UnitOfWork) (gone : List RoleId) : UnitOfWork :=
  { u with
    db := { u.db with
      userRoles := u.db.userRoles.filter fun link => link.2 ∉ gone
      roleMenus := u.db.roleMenus.filter fun link => link.1 ∉ gone } }

theorem rolesUnlinked_nil : rolesUnlinked u [] = u := by simp [rolesUnlinked]

theorem run_deleteRoleLinks (skippedIds ids : List RoleId) (u : UnitOfWork) :
    (forM ids (deleteRoleLinks skippedIds)).run u =
      .ok ((), rolesUnlinked u (ids.filter fun r => r ∉ skippedIds)) := by
  induction ids generalizing u with
  | nil =>
    rw [List.filter_nil, rolesUnlinked_nil]
    rfl
  | cons r ids ih =>
    rw [List.forM_cons]
    by_cases hskipped : r ∈ skippedIds
    · have hround : (deleteRoleLinks skippedIds r).run u = .ok ((), u) :=
        Work.run_when_neg (not_not.2 hskipped)
      rw [Work.run_bind_ok hround, ih, List.filter_cons_of_neg (by simpa using hskipped)]
    · have hround : (deleteRoleLinks skippedIds r).run u =
          .ok ((), { u with db := (u.db.replaceMenus r ∅).deleteUserLinks r }) := by
        refine (Work.run_when_pos hskipped).trans ?_
        rw [Work.run_bind_ok (run_update _), run_update]
      rw [Work.run_bind_ok hround, ih, List.filter_cons_of_pos (by simpa using hskipped)]
      simp [rolesUnlinked, Database.replaceMenus, Database.deleteUserLinks, Finset.filter_filter]

theorem removes_roles {roles : Table RoleId Role} {B : Set RoleId} {gone : List RoleId} {n : Nat}
    (hflags : Flags Role.audit B u.db.roles roles) (hgone : ∀ r, r ∈ gone ↔ r ∈ B)
    (hn : 0 < n ↔ B.Nonempty) : Removes ∅ B u
      { rolesUnlinked { u with db := { u.db with roles } } gone with
        hooks := u.hooks ++ if 0 < n then [.invalidateAll] else [] } where
  userRows := .nothing
  roleRows := hflags
  departments := rfl
  menus := rfl
  userRoles link := by simp [rolesUnlinked, hgone]
  roleMenus := by simp [rolesUnlinked, hgone]
  hooks hook := by
    rw [List.mem_append, ← hn]
    split
    · next h => simp [h]
    · next h => simp [h]
  revoked id := by simp [rolesUnlinked]

theorem isSome_role (db : Database) (r : RoleId) :
    (db.role r).isSome = Role.audit.live db.roles r := by
  unfold Database.role Audit.live
  exact Option.isSome_filter

theorem canDeleteRole_eq (actor : AuthenticatedUser) (u : UnitOfWork) (r : RoleId) :
    canDeleteRole actor u r = (Role.audit.live u.db.roles r &&
      allowed actor (dominatesRole u.db actor) r) := by
  unfold canDeleteRole allowed
  rw [← isSome_role, dominatesRole]
  cases u.db.role r with
  | none => simp
  | some row =>
    by_cases h : actor.isSuperuser
    · simp [h, requireRoleDominance]
      rfl
    · simp [h]

theorem batchDeleteRoles_run (actor : AuthenticatedUser) (ids : List RoleId) (u : UnitOfWork) :
    ∃ result u', (batchDeleteRoles ids actor).run u = .ok (result, u') ∧
      Removes ∅ {r | r ∈ ids ∧ canDeleteRole actor u r = true} u u' ∧
      result.skippedIds.Nodup ∧
      ∀ r, r ∈ result.skippedIds ↔ r ∈ ids ∧ canDeleteRole actor u r = false := by
  obtain ⟨roles, affected, skipped, hsoft⟩ : ∃ roles affected skipped,
      softDeleteMany Role.isDeleted (fun row => { row with isDeleted := true }) u.db.roles
        ((fromKeys ids).filter (allowed actor (dominatesRole u.db actor))) =
          (roles, affected, skipped) := ⟨_, _, _, rfl⟩
  have hsorts := sorts_softDeleteMany (x := Role.audit) hsoft
  unfold batchDeleteRoles
  rw [Work.run_bind_ok (run_query _), id_eq, dominance_filter]
  dsimp only
  rw [hsoft, Work.run_bind_ok (run_update _), Work.run_bind_ok (run_deleteRoleLinks _ _ _)]
  simp only [canDeleteRole_eq]
  have hhook (u : UnitOfWork) :
      (Work.when (0 < affected) (addAfterCommitHook .invalidateAll)).run u =
        .ok ((), { u with hooks := u.hooks ++ if 0 < affected then [.invalidateAll] else [] }) := by
    split
    · next h => rw [Work.run_when_pos h, run_addAfterCommitHook]
    · next h => rw [Work.run_when_neg h, List.append_nil]
  rw [Work.run_bind_ok (hhook _)]
  exact ⟨_, _, rfl, removes_roles hsorts.flags (fun id => hsorts.mem_gone) hsorts.affected,
    hsorts.nodup, hsorts.skipped⟩

end

end Rbac
