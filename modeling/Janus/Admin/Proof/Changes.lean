import Janus.Admin.Proof.Batch
import Janus.Admin.Proof.Codes

/-!
# What the operations do

An accepted operation does one of six things (`Change`, `Accepted.change`); what holds of all
operations is a case analysis over these.
-/

set_option autoImplicit false

namespace Rbac

open Janus Sql
open Departments (UserId)

/-! ## Accepted statements -/

section

variable {α β : Type} {s s' : UnitOfWork} {a : α} {b : β} {x : Unit}

theorem accepts_update {f : Database → Database} :
    Work.Accepts (update f) s x s' ↔ s' = { s with db := f s.db } := Work.accepts_write

theorem accepts_addAfterCommitHook {hook : PermCache.Hook} :
    Work.Accepts (addAfterCommitHook hook) s x s' ↔ s' = { s with hooks := s.hooks ++ [hook] } :=
  Work.accepts_write

/-- A hook that is registered under a condition. -/
theorem accepts_when_hook {c : Prop} [Decidable c] {hook : PermCache.Hook} :
    Work.Accepts (Work.when c (addAfterCommitHook hook)) s x s' ↔
      s' = { s with hooks := s.hooks ++ if c then [hook] else [] } := by
  rw [Work.accepts_when, accepts_addAfterCommitHook]
  by_cases hc : c
  · simp [hc]
  · simp [hc]

theorem accepts_revokeAllSessions {u : UserId} :
    Work.Accepts (revokeAllSessions u) s x s' ↔ s' = { s with revoked := s.revoked ++ [u] } :=
  Work.accepts_write

theorem accepts_when_revoke {c : Prop} [Decidable c] {u : UserId} :
    Work.Accepts (Work.when c (revokeAllSessions u)) s x s' ↔
      s' = { s with revoked := s.revoked ++ if c then [u] else [] } := by
  rw [Work.accepts_when, accepts_revokeAllSessions]
  by_cases hc : c
  · simp [hc]
  · simp [hc]

theorem accepts_query_then {f : Database → α} {p : α → Service β} :
    Work.Accepts (query f >>= p) s b s' ↔ Work.Accepts (p (f s.db)) s b s' :=
  Work.accepts_read_then

theorem accepts_update_then {f : Database → Database} {p : Unit → Service β} :
    Work.Accepts (update f >>= p) s b s' ↔ Work.Accepts (p ()) { s with db := f s.db } b s' :=
  Work.accepts_write_then

/-- A row that has to be there. -/
theorem accepts_found {f : Database → Option α} {e : Failure} :
    Work.Accepts (do
      let found ← query f
      Work.requireSome found e) s a s' ↔ f s.db = some a ∧ s' = s := by
  rw [accepts_query_then, Work.accepts_requireSome]

end

/-! ## Guards -/

section

variable {db : Database} {actor : AuthenticatedUser} {x : Unit}

/-- The actor holds what the menus carry. -/
def AssignableMenus (actor : AuthenticatedUser) (db : Database) (menuIds : Finset MenuId) : Prop :=
  ∀ m ∈ menuIds, db.menuCodes m ⊆ actor.permissions

/-- The actor holds what the role confers, which is not the mark of a superadmin. -/
def AssignableRole (actor : AuthenticatedUser) (db : Database) (r : RoleId) : Prop :=
  db.roleCodes r ⊆ actor.permissions ∧
    ∀ row, db.activeRole r = some row → row.code ≠ superadminRoleCode

theorem requireAssignableCode_ok {code : String} (h : requireAssignableCode code actor = .ok x)
    (hactor : ¬ actor.isSuperuser) : code ≠ superadminRoleCode := by
  unfold requireAssignableCode at h
  rw [if_neg hactor] at h
  split at h
  · cases h
  · assumption

theorem requireAssignableMenus_ok {menuIds : Finset MenuId}
    (h : requireAssignableMenus db menuIds actor = .ok x) (hactor : ¬ actor.isSuperuser) :
    AssignableMenus actor db menuIds := by
  intro m hm code hcode
  unfold requireAssignableMenus at h
  split at h
  · next hempty =>
    rw [hempty.resolve_left hactor] at hm
    simp at hm
  · split at h
    · next hsubset => exact hsubset (Database.mem_listPermissionCodesForMenus.2 ⟨m, hm, hcode⟩)
    · cases h

theorem requireRoleDominance_ok {r : RoleId} {role : Role}
    (h : requireRoleDominance db r role actor = .ok x) (hactor : ¬ actor.isSuperuser) :
    role.code ≠ superadminRoleCode ∧ AssignableMenus actor db (db.listMenuIds r) := by
  unfold requireRoleDominance at h
  rw [if_neg hactor] at h
  cases hcode : requireAssignableCode role.code actor with
  | error e =>
    rw [hcode] at h
    cases h
  | ok y =>
    rw [hcode] at h
    exact ⟨requireAssignableCode_ok hcode hactor, requireAssignableMenus_ok h hactor⟩

theorem requireAssignablePerms_ok {perms : Option String} {code : String}
    (h : requireAssignablePerms perms actor = .ok x) (hactor : ¬ actor.isSuperuser)
    (hperms : perms = some code) (hcode : code ≠ "") : code ∈ actor.permissions := by
  unfold requireAssignablePerms at h
  rw [if_neg hactor, hperms] at h
  dsimp only at h
  split at h
  · next hin => exact hin.resolve_left hcode
  · cases h

theorem requireAssignableRoles_ok {roleIds : Finset RoleId}
    (h : requireAssignableRoles db roleIds actor = .ok x) (hactor : ¬ actor.isSuperuser) :
    ∀ r ∈ roleIds, AssignableRole actor db r := by
  intro r hr
  unfold requireAssignableRoles at h
  split at h
  · next hempty =>
    rw [hempty.resolve_left hactor] at hr
    simp at hr
  · split at h
    · cases h
    · next hcodes =>
      split at h
      · cases h
      · next hmark =>
        constructor
        · intro code hcode
          refine not_not.1 hcodes ?_
          rw [Database.listPermissionCodesForRoles, Finset.mem_biUnion]
          exact ⟨r, hr, hcode⟩
        · intro row hrow hcode
          exact hmark (Database.mem_activeCodesByIds.2 ⟨r, hr, row, hrow, hcode⟩)

variable {s s' : UnitOfWork}

theorem accepts_requireRole {r : RoleId} {row : Role} :
    Work.Accepts (requireRole r) s row s' ↔ s.db.role r = some row ∧ s' = s := accepts_found

theorem accepts_requireMenu {m : MenuId} {row : Menu} :
    Work.Accepts (requireMenu m) s row s' ↔ s.db.menu m = some row ∧ s' = s := accepts_found

theorem accepts_requireUser {u : UserId} {row : User} :
    Work.Accepts (requireUser u) s row s' ↔ s.db.user u = some row ∧ s' = s := accepts_found

theorem accepts_validateMenus {menuIds : List MenuId} :
    Work.Accepts (validateMenus menuIds) s x s' ↔
      (∀ m ∈ menuIds, (s.db.menu m).isSome) ∧ s' = s := by
  have hall : s.db.existingMenuIds menuIds.toFinset = menuIds.toFinset ↔
      ∀ m ∈ menuIds, (s.db.menu m).isSome := by
    simp [Database.existingMenuIds, Finset.filter_eq_self]
  unfold validateMenus
  rw [Work.accepts_when, accepts_query_then, Work.accepts_require, hall]
  by_cases hnil : menuIds = []
  · simp [hnil]
  · simp [hnil]

theorem accepts_validateRoles {roleIds : List RoleId} :
    Work.Accepts (validateRoles roleIds) s x s' ↔
      (∀ r ∈ roleIds, (s.db.activeRole r).isSome) ∧ s' = s := by
  have hall : (roleIds.toFinset.filter fun r => (s.db.activeRole r).isSome) = roleIds.toFinset ↔
      ∀ r ∈ roleIds, (s.db.activeRole r).isSome := by
    simp [Finset.filter_eq_self]
  unfold validateRoles
  rw [Work.accepts_when, accepts_query_then, Work.accepts_require, hall]
  by_cases hnil : roleIds = []
  · simp [hnil]
  · simp [hnil]

/-! ### Guards without a verdict on permissions -/

theorem requireNotAbove_kept {parent : Menu} {currentId : Option MenuId}
    (h : Work.Accepts (requireNotAbove parent currentId) s x s') : s' = s := by
  cases currentId with
  | none => exact (Work.accepts_pure.1 h).2
  | some current =>
    unfold requireNotAbove at h
    rw [accepts_query_then, Work.accepts_then fun _ _ => Work.accepts_requireSome] at h
    obtain ⟨met, -, h⟩ := h
    exact (Work.accepts_require.1 h).2

theorem validateParent_kept {parentId currentId : Option MenuId}
    (h : Work.Accepts (validateParent parentId currentId) s x s') : s' = s := by
  cases parentId with
  | none => exact (Work.accepts_pure.1 h).2
  | some p =>
    unfold validateParent at h
    rw [Work.accepts_require_then, accepts_query_then,
      Work.accepts_then fun _ _ => Work.accepts_requireSome] at h
    obtain ⟨-, parent, -, h⟩ := h
    exact requireNotAbove_kept h

theorem validateNewParent_kept {parentId : Option (Option MenuId)} {current : MenuId}
    (h : Work.Accepts (validateNewParent parentId current) s x s') : s' = s := by
  cases parentId with
  | none => exact (Work.accepts_pure.1 h).2
  | some parentId => exact validateParent_kept h

theorem validateDepartment_kept {departmentId : Option Departments.DeptId}
    (h : Work.Accepts (validateDepartment departmentId) s x s') : s' = s := by
  cases departmentId with
  | none => exact (Work.accepts_pure.1 h).2
  | some d =>
    unfold validateDepartment at h
    rw [accepts_query_then] at h
    exact (Work.accepts_require.1 h).2

theorem validateNewDepartment_kept {departmentId : Option (Option Departments.DeptId)}
    (h : Work.Accepts (validateNewDepartment departmentId) s x s') : s' = s := by
  cases departmentId with
  | none => exact (Work.accepts_pure.1 h).2
  | some departmentId => exact validateDepartment_kept h

end

/-! ## Six kinds of changes -/

/-- The codes of a disabled menu that an operation makes active as they are. -/
def Operation.enables (db : Database) : Operation → MenuId → Set String
  | updateMenu m payload, m' =>
    {code | m' = m ∧ payload.status = some .active ∧ payload.perms = none ∧
      ∃ row, db.menu m = some row ∧ row.status = .disabled ∧ row.perms = some code ∧ code ≠ ""}
  | _, _ => ∅

def Operation.newRoleId : Operation → Option RoleId
  | createRole newId _ => some newId
  | _ => none

def Operation.newMenuId : Operation → Option MenuId
  | createMenu newId _ => some newId
  | _ => none

/-- What an accepted operation does. -/
inductive Change (actor : AuthenticatedUser) (op : Operation) (db : Database) :
    Database → List PermCache.Hook → Prop
  /-- Rows of users. -/
  | users (users : Table UserId User) (hooks : List PermCache.Hook) :
      Change actor op db { db with users } hooks
  /-- The roles of a user. -/
  | assigns {users : Table UserId User} {u : UserId} {roleIds : Finset RoleId}
      {hooks : List PermCache.Hook}
      (hactive : ∀ r ∈ roleIds, (db.activeRole r).isSome)
      (hguard : ¬ actor.isSuperuser → ∀ r ∈ roleIds, AssignableRole actor db r)
      (hinvalidates : u ∉ db.users ∨ .invalidateUser u ∈ hooks) :
      Change actor op db ({ db with users }.replaceRoles u roleIds) hooks
  /-- Deleted users and roles. -/
  | removes {users : Set UserId} {roles : Set RoleId} {db' : Database}
      {hooks : List PermCache.Hook} {revoked : List UserId}
      (hremoves : Removes users roles { db } { db := db', hooks, revoked }) :
      Change actor op db db' hooks
  /-- A role, new or old, and its menus. -/
  | role {r : RoleId} {row : Role} {menuIds : Finset MenuId} {hooks : List PermCache.Hook}
      (hmenus : ∀ m ∈ menuIds, (db.menu m).isSome ∨ (r, m) ∈ db.roleMenus)
      (hguard : ¬ actor.isSuperuser →
        row.code ≠ superadminRoleCode ∧ AssignableMenus actor db menuIds)
      (hinvalidates : op.newRoleId = some r ∧ r ∉ db.roles ∨ .invalidateAll ∈ hooks ∨
        menuIds = db.listMenuIds r ∧ ((db.setRole r row).activeRole r).map Role.code =
          (db.activeRole r).map Role.code) :
      Change actor op db ((db.setRole r row).replaceMenus r menuIds) hooks
  /-- A menu, new or old. -/
  | menu {m : MenuId} {row : Menu} {hooks : List PermCache.Hook}
      (hguard : ¬ actor.isSuperuser → ∀ code ∈ (db.setMenu m row).menuCodes m,
        code ∈ actor.permissions ∨ code ∈ db.menuCodes m ∨ code ∈ op.enables db m)
      (hinvalidates : op.newMenuId = some m ∧ m ∉ db.menus ∨ .invalidateAll ∈ hooks ∨
        (db.setMenu m row).menuCodes m = db.menuCodes m) :
      Change actor op db (db.setMenu m row) hooks
  /-- Deleted menus, which no role links. -/
  | removesMenus {menus : Table MenuId Menu} {hooks : List PermCache.Hook}
      (hrows : ∀ r m, (r, m) ∈ db.roleMenus → menus.lookup m = db.menus.lookup m)
      (hkeys : ∀ m ∈ db.menus, m ∈ menus) : Change actor op db { db with menus } hooks

section

variable {actor : AuthenticatedUser} {op : Operation} {db db' : Database}
  {hooks : List PermCache.Hook} {revoked : List UserId}

theorem accepts_answer {α : Type} {p : Service α} {s s' : UnitOfWork} {x : Unit}
    (h : Work.Accepts (p >>= fun _ => pure ()) s x s') : ∃ a, Work.Accepts p s a s' := by
  obtain ⟨a, t, ha, ht⟩ := Work.accepts_bind.1 h
  obtain ⟨-, rfl⟩ := Work.accepts_pure.1 ht
  exact ⟨a, ha⟩

/-! ### Roles -/

theorem createRole_change {newId : RoleId} {payload : RoleCreate} {detail : RoleDetail}
    (h : Work.Accepts (createRole newId payload actor) { db } detail
      { db := db', hooks, revoked }) :
    Change actor (.createRole newId payload) db db' hooks := by
  unfold createRole insertRole roleDetail at h
  rw [accepts_query_then, Work.accepts_require_then, Work.accepts_check_then,
    Work.accepts_then fun _ _ => accepts_validateMenus] at h
  obtain ⟨-, hcode, -, hmenus, h⟩ := h
  rw [accepts_query_then, Work.accepts_check_then, bind_assoc, accepts_query_then, bind_assoc,
    Work.accepts_require_then, accepts_update_then, accepts_update_then, accepts_query_then,
    Work.accepts_pure] at h
  obtain ⟨hassignable, hnew, -, heq⟩ := h
  cases heq
  refine .role (fun m hm => .inl (hmenus m (List.mem_toFinset.1 hm))) (fun hactor => ?_)
    (.inl ⟨rfl, by simpa using hnew⟩)
  exact ⟨requireAssignableCode_ok hcode hactor, requireAssignableMenus_ok hassignable hactor⟩

/-- The menus of a role after an update. -/
def updatedMenuIds (db : Database) (r : RoleId) (menuIds : Option (List MenuId)) : Finset MenuId :=
  (menuIds.map List.toFinset).getD (db.listMenuIds r)

theorem accepts_replaceNewMenus {r : RoleId} {menuIds : Option (List MenuId)} {s s' : UnitOfWork}
    {x : Unit} : Work.Accepts (replaceNewMenus r menuIds) s x s' ↔
      s' = { s with db := s.db.replaceMenus r (updatedMenuIds s.db r menuIds) } := by
  cases menuIds with
  | none => simp [replaceNewMenus, updatedMenuIds, Database.replaceMenus_listMenuIds]
  | some menuIds => exact accepts_update (f := fun db => db.replaceMenus r menuIds.toFinset)

theorem checkNewMenus_ok {menuIds : Option (List MenuId)} {s s' : UnitOfWork} {x : Unit}
    (h : Work.Accepts (checkNewMenus menuIds actor) s x s') : s' = s ∧
      ∀ ids ∈ menuIds, (∀ m ∈ ids, (s.db.menu m).isSome) ∧
        (¬ actor.isSuperuser → AssignableMenus actor s.db ids.toFinset) := by
  cases menuIds with
  | none => exact ⟨(Work.accepts_pure.1 h).2, nofun⟩
  | some menuIds =>
    unfold checkNewMenus at h
    rw [Work.accepts_then fun _ _ => accepts_validateMenus] at h
    obtain ⟨-, hmenus, h⟩ := h
    rw [accepts_query_then, Work.accepts_check] at h
    refine ⟨h.2, fun ids hids => ?_⟩
    cases hids
    exact ⟨hmenus, requireAssignableMenus_ok h.1⟩

theorem role_not_deleted {r : RoleId} {row : Role} (h : db.role r = some row) :
    row.isDeleted = false := by
  simpa using (Option.filter_eq_some_iff.1 h).2

/-- A row with the same code, status and flag. -/
theorem activeRole_setRole {r : RoleId} {old row : Role} (hold : db.role r = some old)
    (hcode : row.code = old.code) (hstatus : row.status = old.status)
    (hdeleted : row.isDeleted = old.isDeleted) :
    ((db.setRole r row).activeRole r).map Role.code = (db.activeRole r).map Role.code := by
  have hlive := role_not_deleted hold
  rw [hlive] at hdeleted
  simp only [Database.activeRole, Database.role_setRole, hold, if_pos, hdeleted, Option.filter_some,
    Bool.not_false, hstatus]
  split <;> simp [hcode]

theorem updateRole_change {r : RoleId} {payload : RoleUpdate} {detail : RoleDetail}
    (h : Work.Accepts (updateRole r payload actor) { db } detail { db := db', hooks, revoked }) :
    Change actor op db db' hooks := by
  unfold updateRole roleDetail at h
  rw [Work.accepts_then fun _ _ => accepts_requireRole] at h
  obtain ⟨row, hrow, h⟩ := h
  rw [accepts_query_then, Work.accepts_check_then, Work.accepts_bind] at h
  obtain ⟨hdominance, _, s, hcheck, h⟩ := h
  obtain ⟨rfl, hnew⟩ := checkNewMenus_ok hcheck
  rw [Work.accepts_require_then, accepts_update_then, Work.accepts_bind] at h
  obtain ⟨-, _, s, hreplace, h⟩ := h
  rw [accepts_replaceNewMenus] at hreplace
  subst hreplace
  rw [Work.accepts_bind] at h
  obtain ⟨_, s, hhook, h⟩ := h
  rw [accepts_when_hook] at hhook
  rw [accepts_query_then, Work.accepts_pure] at h
  obtain ⟨-, heq⟩ := h
  subst hhook
  cases heq
  refine .role (fun m hm => ?_) (fun hactor => ⟨(requireRoleDominance_ok hdominance hactor).1, ?_⟩) ?_
  · cases hids : payload.menuIds with
    | none =>
      rw [hids] at hm
      exact .inr (Database.mem_listMenuIds.1 hm)
    | some ids =>
      rw [hids] at hm
      exact .inl ((hnew ids hids).1 m (List.mem_toFinset.1 hm))
  · cases hids : payload.menuIds with
    | none => exact (requireRoleDominance_ok hdominance hactor).2
    | some ids => exact (hnew ids hids).2 hactor
  · by_cases hset : payload.status.join.isSome ∨ payload.menuIds.isSome
    · exact .inr (.inl (by simp [hset]))
    · obtain ⟨hstatus, hids⟩ := not_or.1 hset
      rw [Bool.not_eq_true, Option.isSome_eq_false_iff, Option.isNone_iff_eq_none] at hstatus hids
      refine .inr (.inr ⟨by simp [updatedMenuIds, hids]; rfl, activeRole_setRole hrow rfl ?_ rfl⟩)
      simp [Role.set, column, hstatus]

theorem deleteRole_change {r : RoleId} {x : Unit}
    (h : Work.Accepts (deleteRole r actor) { db } x { db := db', hooks, revoked }) :
    Change actor op db db' hooks :=
  .removes ((sweep_roles actor).accepted (Work.attempt_ok h))

theorem batchDeleteRoles_change {ids : List RoleId} {result : Departments.BatchResult}
    (h : Work.Accepts (batchDeleteRoles ids actor) { db } result { db := db', hooks, revoked }) :
    Change actor op db db' hooks := by
  obtain ⟨_, _, hrun, hremoves, -⟩ := batchDeleteRoles_run actor ids { db }
  cases hrun.symm.trans h
  exact .removes hremoves

/-! ### Menus -/

theorem mem_menuCodes_setMenu {m : MenuId} {row : Menu} {code : String} :
    code ∈ (db.setMenu m row).menuCodes m ↔ row.isDeleted = false ∧ row.status = .active ∧
      row.perms = some code ∧ code ≠ "" := by
  rw [Database.mem_menuCodes]
  simp [Database.menu_setMenu, Option.filter_eq_some_iff]

theorem createMenu_change {newId : MenuId} {payload : MenuCreate} {row : Menu}
    (h : Work.Accepts (createMenu newId payload actor) { db } row { db := db', hooks, revoked }) :
    Change actor (.createMenu newId payload) db db' hooks := by
  unfold createMenu insertMenu at h
  rw [Work.accepts_bind] at h
  obtain ⟨_, s, hparent, h⟩ := h
  obtain rfl := validateParent_kept hparent
  rw [Work.accepts_check_then, Work.accepts_check_then, bind_assoc, accepts_query_then, bind_assoc,
    Work.accepts_require_then, accepts_update_then, Work.accepts_pure] at h
  obtain ⟨-, hperms, hnew, -, heq⟩ := h
  cases heq
  refine .menu (fun hactor code hcode => .inl ?_) (.inl ⟨rfl, by simpa using hnew⟩)
  obtain ⟨-, -, hrow, hne⟩ := mem_menuCodes_setMenu.1 hcode
  exact requireAssignablePerms_ok hperms hactor hrow hne

theorem menu_not_deleted {m : MenuId} {row : Menu} (h : db.menu m = some row) :
    row.isDeleted = false := by
  simpa using (Option.filter_eq_some_iff.1 h).2

theorem updateMenu_ok {m : MenuId} {payload : MenuUpdate} {detail : Menu}
    (h : Work.Accepts (updateMenu m payload actor) { db } detail { db := db', hooks, revoked }) :
    ∃ old, db.menu m = some old ∧
      (payload.perms.isSome →
        requireAssignablePerms (payload.perms.getD old.perms) actor = .ok ()) ∧
      db' = db.setMenu m (old.set payload actor.userId) ∧
      hooks = if payload.status.isSome ∨ payload.perms.isSome then [.invalidateAll] else [] := by
  unfold updateMenu at h
  rw [Work.accepts_then fun _ _ => accepts_requireMenu] at h
  obtain ⟨old, hold, h⟩ := h
  rw [Work.accepts_bind] at h
  obtain ⟨_, s, hparent, h⟩ := h
  obtain rfl := validateNewParent_kept hparent
  rw [Work.accepts_check_then, Work.accepts_bind] at h
  obtain ⟨-, _, s, hperms, h⟩ := h
  have hvetted : s = { db } ∧ (payload.perms.isSome →
      requireAssignablePerms (payload.perms.getD old.perms) actor = .ok ()) := by
    rw [Work.accepts_when] at hperms
    rcases hperms with ⟨-, hcheck⟩ | ⟨hunset, rfl⟩
    · rw [Work.accepts_check] at hcheck
      exact ⟨hcheck.2, fun _ => hcheck.1⟩
    · exact ⟨rfl, fun hset => absurd hset hunset⟩
  obtain ⟨rfl, hvetted⟩ := hvetted
  rw [Work.accepts_require_then, accepts_update_then, Work.accepts_bind] at h
  obtain ⟨-, _, s, hhook, h⟩ := h
  rw [accepts_when_hook] at hhook
  rw [Work.accepts_pure] at h
  obtain ⟨-, heq⟩ := h
  subst hhook
  cases heq
  exact ⟨old, hold, hvetted, rfl, rfl⟩

theorem updateMenu_change {m : MenuId} {payload : MenuUpdate} {detail : Menu}
    (h : Work.Accepts (updateMenu m payload actor) { db } detail
      { db := db', hooks, revoked }) :
    Change actor (.updateMenu m payload) db db' hooks := by
  obtain ⟨old, hold, hvetted, rfl, rfl⟩ := updateMenu_ok h
  refine .menu (fun hactor code hcode => ?_) ?_
  · obtain ⟨-, hactive, hrow, hne⟩ := mem_menuCodes_setMenu.1 hcode
    cases hset : payload.perms with
    | some perms =>
      exact .inl (requireAssignablePerms_ok (hvetted (by simp [hset])) hactor hrow hne)
    | none =>
      have hkept : old.perms = some code := by
        rw [← hrow]
        simp [Menu.set, hset]
      cases hstatus : old.status with
      | active => exact .inr (.inl (Database.mem_menuCodes.2 ⟨old, hold, hstatus, hkept, hne⟩))
      | disabled =>
        have hset' : payload.status = some .active := by
          cases hpayload : payload.status with
          | none => simp [Menu.set, hpayload, hstatus] at hactive
          | some status => simpa [Menu.set, hpayload] using hactive
        exact .inr (.inr ⟨rfl, hset', hset, old, hold, hstatus, hkept, hne⟩)
  · by_cases hset : payload.status.isSome ∨ payload.perms.isSome
    · exact .inr (.inl (by simp [hset]))
    · obtain ⟨hstatus, hperms⟩ := not_or.1 hset
      rw [Bool.not_eq_true, Option.isSome_eq_false_iff, Option.isNone_iff_eq_none]
        at hstatus hperms
      refine .inr (.inr ?_)
      ext code
      rw [mem_menuCodes_setMenu, Database.mem_menuCodes]
      simp [Menu.set, hstatus, hperms, hold, menu_not_deleted hold]

/-- From `u` to `u'` menus have been deleted that no role links. -/
structure RemovesMenus (u u' : UnitOfWork) : Prop where
  rest : u' = { u with db := { u.db with menus := u'.db.menus } }
  rows : ∀ r m, (r, m) ∈ u.db.roleMenus → u'.db.menus.lookup m = u.db.menus.lookup m
  keys : ∀ m ∈ u.db.menus, m ∈ u'.db.menus

theorem RemovesMenus.refl (u : UnitOfWork) : RemovesMenus u u := ⟨rfl, fun _ _ _ => rfl, fun _ h => h⟩

theorem RemovesMenus.trans {u t u' : UnitOfWork} (h : RemovesMenus u t) (h' : RemovesMenus t u') :
    RemovesMenus u u' where
  rest := by
    rw [h'.rest, h.rest]
  rows r m hlink := by
    have hsame : t.db.roleMenus = u.db.roleMenus := by rw [h.rest]
    rw [h'.rows r m (hsame ▸ hlink), h.rows r m hlink]
  keys m hm := h'.keys m (h.keys m hm)

theorem RemovesMenus.change {u : UnitOfWork} (h : RemovesMenus { db } u) :
    Change actor op db u.db u.hooks := by
  rw [h.rest]
  exact .removesMenus h.rows h.keys

theorem deleteOneMenu_removes {u u' : UnitOfWork} {m : MenuId}
    (h : deleteOneMenu actor m u = some u') : RemovesMenus u u' := by
  cases hrow : u.db.menu m with
  | none =>
    rw [deleteOneMenu_missing hrow] at h
    cases h
  | some row =>
    rw [deleteOneMenu_found actor hrow] at h
    split at h
    · cases h
    · next hfree =>
      cases h
      have hunlinked : ∀ r, (r, m) ∉ u.db.roleMenus := by
        intro r hlink
        refine hfree ?_
        rw [Bool.or_eq_true]
        exact .inr (decide_eq_true ⟨(r, m), hlink, rfl⟩)
      refine ⟨rfl, fun r m' hlink => ?_, fun m' hm => Finmap.mem_insert.2 (.inr hm)⟩
      refine Finmap.lookup_insert_of_ne _ ?_
      rintro rfl
      exact hunlinked r hlink

theorem deleteMenu_change {m : MenuId} {x : Unit}
    (h : Work.Accepts (deleteMenu m actor) { db } x { db := db', hooks, revoked }) :
    Change actor op db db' hooks :=
  (deleteOneMenu_removes (Work.attempt_ok h)).change

theorem batchDeleteMenus_change {ids : List MenuId} {result : Departments.BatchResult}
    (h : Work.Accepts (batchDeleteMenus ids actor) { db } result { db := db', hooks, revoked }) :
    Change actor op db db' hooks := by
  obtain ⟨_, hrun⟩ := batchDeleteMenus_run actor ids { db }
  have hremoves : RemovesMenus { db } (each (deleteOneMenu actor) (Departments.fromKeys ids)
      { db }).1 := each_rel .refl .trans deleteOneMenu_removes
  rw [(Prod.mk.inj (Except.ok.inj (hrun.symm.trans h))).2] at hremoves
  exact hremoves.change

/-! ### Users -/

/-- The roles of a user that an operation creates or updates. -/
theorem assigns_change {users : Table UserId User} {u : UserId} {roleIds : List RoleId}
    (hactive : ∀ r ∈ roleIds, (db.activeRole r).isSome)
    (hassignable : requireAssignableRoles db roleIds.toFinset actor = .ok ())
    (hinvalidates : u ∉ db.users ∨ .invalidateUser u ∈ hooks) :
    Change actor op db ({ db with users }.replaceRoles u roleIds.toFinset) hooks :=
  .assigns (fun r hr => hactive r (List.mem_toFinset.1 hr)) (requireAssignableRoles_ok hassignable)
    hinvalidates

theorem createUser_change {security : Security} {newId : UserId} {payload : UserCreate}
    {detail : UserDetail} (h : Work.Accepts (createUser security newId payload actor) { db } detail
      { db := db', hooks, revoked }) : Change actor op db db' hooks := by
  unfold createUser insertUser userDetail at h
  rw [accepts_query_then, Work.accepts_require_then, accepts_query_then, Work.accepts_require_then,
    Work.accepts_bind] at h
  obtain ⟨-, -, _, s, hdepartment, h⟩ := h
  obtain rfl := validateDepartment_kept hdepartment
  rw [Work.accepts_then fun _ _ => accepts_validateRoles] at h
  obtain ⟨-, hactive, h⟩ := h
  rw [accepts_query_then, Work.accepts_check_then, Work.accepts_check_then, bind_assoc,
    accepts_query_then, bind_assoc, Work.accepts_require_then, accepts_update_then,
    accepts_update_then, accepts_query_then, Work.accepts_pure] at h
  obtain ⟨hassignable, -, hnew, -, heq⟩ := h
  cases heq
  exact assigns_change hactive hassignable (.inl (by simpa using hnew))

theorem updateUser_change {security : Security} {u : UserId} {payload : UserUpdate}
    {detail : UserDetail} (h : Work.Accepts (updateUser security u payload actor) { db } detail
      { db := db', hooks, revoked }) : Change actor op db db' hooks := by
  unfold updateUser userDetail at h
  rw [Work.accepts_then fun _ _ => accepts_requireUser] at h
  obtain ⟨old, -, h⟩ := h
  rw [accepts_query_then, Work.accepts_check_then, Work.accepts_check_then, Work.accepts_bind] at h
  obtain ⟨-, -, _, s, hdepartment, h⟩ := h
  obtain rfl := validateNewDepartment_kept hdepartment
  rw [Work.accepts_require_then, accepts_update_then, Work.accepts_bind] at h
  obtain ⟨-, _, s, hreplace, h⟩ := h
  rw [Work.accepts_bind] at h
  obtain ⟨_, t, hhook, h⟩ := h
  rw [Work.accepts_bind] at h
  obtain ⟨_, t', hrevoke, h⟩ := h
  rw [accepts_when_hook] at hhook
  rw [accepts_when_revoke] at hrevoke
  rw [accepts_query_then, Work.accepts_pure] at h
  obtain ⟨-, heq⟩ := h
  subst hrevoke
  subst hhook
  cases hids : payload.roleIds with
  | none =>
    rw [hids] at hreplace
    obtain ⟨-, rfl⟩ := Work.accepts_pure.1 hreplace
    cases heq
    exact .users _ _
  | some roleIds =>
    rw [hids] at hreplace
    unfold replaceNewRoles at hreplace
    rw [Work.accepts_then fun _ _ => accepts_validateRoles] at hreplace
    obtain ⟨-, hactive, hreplace⟩ := hreplace
    rw [accepts_query_then, Work.accepts_check_then, accepts_update] at hreplace
    obtain ⟨hassignable, rfl⟩ := hreplace
    cases heq
    exact assigns_change hactive hassignable (.inr (by simp [hids]))

theorem resetPassword_change {security : Security} {u : UserId} {newPassword : String} {x : Unit}
    (h : Work.Accepts (resetPassword security u newPassword actor) { db } x
      { db := db', hooks, revoked }) : Change actor op db db' hooks := by
  unfold resetPassword at h
  rw [Work.accepts_then fun _ _ => accepts_requireUser] at h
  obtain ⟨old, -, h⟩ := h
  rw [accepts_query_then, Work.accepts_check_then, Work.accepts_check_then, accepts_update_then,
    accepts_revokeAllSessions] at h
  obtain ⟨-, -, heq⟩ := h
  cases heq
  exact .users _ _

theorem deleteUser_change {u : UserId} {x : Unit}
    (h : Work.Accepts (deleteUser u actor) { db } x { db := db', hooks, revoked }) :
    Change actor op db db' hooks :=
  .removes ((sweep_users actor).accepted (Work.attempt_ok h))

theorem batchDeleteUsers_change {ids : List UserId} {result : Departments.BatchResult}
    (h : Work.Accepts (batchDeleteUsers ids actor) { db } result { db := db', hooks, revoked }) :
    Change actor op db db' hooks := by
  obtain ⟨_, _, hrun, hremoves, -⟩ := batchDeleteUsers_run actor ids { db }
  cases hrun.symm.trans h
  exact .removes hremoves

end

/-- What an accepted operation does. -/
theorem Accepted.change {actor : AuthenticatedUser} {op : Operation} {db db' : Database}
    {hooks : List PermCache.Hook} (h : Accepted actor op db db' hooks) :
    Change actor op db db' hooks := by
  obtain ⟨revoked, h⟩ := h
  cases op with
  | createRole newId payload =>
    obtain ⟨detail, h⟩ := accepts_answer h
    exact createRole_change h
  | updateRole r payload =>
    obtain ⟨detail, h⟩ := accepts_answer h
    exact updateRole_change h
  | deleteRole r => exact deleteRole_change h
  | batchDeleteRoles ids =>
    obtain ⟨result, h⟩ := accepts_answer h
    exact batchDeleteRoles_change h
  | createMenu newId payload =>
    obtain ⟨detail, h⟩ := accepts_answer h
    exact createMenu_change h
  | updateMenu m payload =>
    obtain ⟨detail, h⟩ := accepts_answer h
    exact updateMenu_change h
  | deleteMenu m => exact deleteMenu_change h
  | batchDeleteMenus ids =>
    obtain ⟨result, h⟩ := accepts_answer h
    exact batchDeleteMenus_change h
  | createUser security newId payload =>
    obtain ⟨detail, h⟩ := accepts_answer h
    exact createUser_change h
  | updateUser security u payload =>
    obtain ⟨detail, h⟩ := accepts_answer h
    exact updateUser_change h
  | resetPassword security u newPassword => exact resetPassword_change h
  | deleteUser u => exact deleteUser_change h
  | batchDeleteUsers ids =>
    obtain ⟨result, h⟩ := accepts_answer h
    exact batchDeleteUsers_change h

end Rbac
