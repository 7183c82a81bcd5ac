import Janus.Admin.Proof.Escalation

/-!
# Superadmins stay as they are

Every operation on a user or a role is guarded by dominance. `Accepted.respects`: an accepted
operation leaves the accounts and the roles that its actor does not dominate. So no run of requests
by actors that are no superadmins makes, unmakes or edits a superadmin (`superadmins_kept`).
-/

set_option autoImplicit false

namespace Rbac

open Janus Sql
open Departments (UserId)

/-! ## What a request leaves -/

/-- The actor's requests leave what the actor does not dominate. No account goes away. -/
structure Respects (actor : AuthenticatedUser) (db db' : Database) : Prop where
  kept : ∀ u ∈ db.users, u ∈ db'.users
  rows : ∀ u ∈ db.users, dominatesRoles db actor u = false →
    db'.users.lookup u = db.users.lookup u
  links : ∀ u r, u ∈ db.users → dominatesRoles db actor u = false →
    dominatesRole db actor r = false → (u, r) ∈ db.userRoles → (u, r) ∈ db'.userRoles
  roles : ∀ r row, db.role r = some row → dominatesRole db actor r = false →
    db'.role r = some row ∧ ∀ m, (r, m) ∈ db'.roleMenus ↔ (r, m) ∈ db.roleMenus

section

variable {actor : AuthenticatedUser} {op : Operation} {db db' : Database}
  {hooks : List PermCache.Hook} {revoked : List UserId} {u : UserId} {r : RoleId} {m : MenuId}

theorem dominatesRoles_of_ok {x : Unit} (h : requireDominance db u actor = .ok x) :
    dominatesRoles db actor u = true := by
  rw [dominatesRoles, h]
  rfl

theorem dominatesRole_of_ok {row : Role} {x : Unit} (hrow : db.role r = some row)
    (h : requireRoleDominance db r row actor = .ok x) : dominatesRole db actor r = true := by
  rw [dominatesRole, hrow, Option.any_some, h]
  rfl

theorem mem_roles_of_role {row : Role} (h : db.role r = some row) : r ∈ db.roles :=
  Finmap.mem_of_lookup_eq_some (Option.filter_eq_some_iff.1 h).1

/-! ### Roles and menus -/

/-- Menus are in nobody's account. -/
theorem respects_menus {menus : Table MenuId Menu} : Respects actor db { db with menus } where
  kept _ hu := hu
  rows _ _ _ := rfl
  links _ _ _ _ _ hlink := hlink
  roles _ _ hrow _ := ⟨hrow, fun _ => Iff.rfl⟩

/-- A role that is new, or that the actor dominates. -/
theorem respects_role {row : Role} {menuIds : Finset MenuId}
    (h : r ∉ db.roles ∨ dominatesRole db actor r = true) :
    Respects actor db ((db.setRole r row).replaceMenus r menuIds) where
  kept _ hu := hu
  rows _ _ _ := rfl
  links _ _ _ _ _ hlink := hlink
  roles r' row' hrow hfree := by
    have hne : r' ≠ r := by
      rintro rfl
      rcases h with hnew | hdominates
      · exact hnew (mem_roles_of_role hrow)
      · rw [hdominates] at hfree
        cases hfree
    refine ⟨?_, fun m => ?_⟩
    · show (db.setRole r row).role r' = some row'
      rw [Database.role_setRole, if_neg hne]
      exact hrow
    · rw [Database.mem_replaceMenus, if_neg hne]
      rfl

theorem createRole_respects {newId : RoleId} {payload : RoleCreate} {detail : RoleDetail}
    (h : Work.Accepts (createRole newId payload actor) { db } detail
      { db := db', hooks, revoked }) : Respects actor db db' := by
  unfold createRole insertRole roleDetail at h
  rw [accepts_query_then, Work.accepts_require_then, Work.accepts_check_then,
    Work.accepts_then fun _ _ => accepts_validateMenus] at h
  obtain ⟨-, -, -, -, h⟩ := h
  rw [accepts_query_then, Work.accepts_check_then, bind_assoc, accepts_query_then, bind_assoc,
    Work.accepts_require_then, accepts_update_then, accepts_update_then, accepts_query_then,
    Work.accepts_pure] at h
  obtain ⟨-, hnew, -, heq⟩ := h
  cases heq
  exact respects_role (.inl (by simpa using hnew))

theorem updateRole_respects {payload : RoleUpdate} {detail : RoleDetail}
    (h : Work.Accepts (updateRole r payload actor) { db } detail { db := db', hooks, revoked }) :
    Respects actor db db' := by
  unfold updateRole roleDetail at h
  rw [Work.accepts_then fun _ _ => accepts_requireRole] at h
  obtain ⟨row, hrow, h⟩ := h
  rw [accepts_query_then, Work.accepts_check_then, Work.accepts_bind] at h
  obtain ⟨hdominance, _, s, hcheck, h⟩ := h
  obtain ⟨rfl, -⟩ := checkNewMenus_ok hcheck
  rw [Work.accepts_require_then, accepts_update_then, Work.accepts_bind] at h
  obtain ⟨-, _, s, hreplace, h⟩ := h
  rw [accepts_replaceNewMenus] at hreplace
  subst hreplace
  rw [Work.accepts_bind] at h
  obtain ⟨_, s, hhook, h⟩ := h
  rw [accepts_when_hook] at hhook
  rw [accepts_query_then, Work.accepts_pure] at h
  obtain ⟨-, heq⟩ := h
  subst hhook
  cases heq
  exact respects_role (.inr (dominatesRole_of_ok hrow hdominance))

theorem createMenu_respects {newId : MenuId} {payload : MenuCreate} {row : Menu}
    (h : Work.Accepts (createMenu newId payload actor) { db } row { db := db', hooks, revoked }) :
    Respects actor db db' := by
  unfold createMenu insertMenu at h
  rw [Work.accepts_bind] at h
  obtain ⟨_, s, hparent, h⟩ := h
  obtain rfl := validateParent_kept hparent
  rw [Work.accepts_check_then, Work.accepts_check_then, bind_assoc, accepts_query_then, bind_assoc,
    Work.accepts_require_then, accepts_update_then, Work.accepts_pure] at h
  obtain ⟨-, -, -, -, heq⟩ := h
  cases heq
  exact respects_menus

theorem updateMenu_respects {payload : MenuUpdate} {row : Menu}
    (h : Work.Accepts (updateMenu m payload actor) { db } row { db := db', hooks, revoked }) :
    Respects actor db db' := by
  obtain ⟨old, -, -, rfl, -⟩ := updateMenu_ok h
  exact respects_menus

theorem RemovesMenus.respects {u : UnitOfWork} (h : RemovesMenus { db } u) :
    Respects actor db u.db := by
  rw [h.rest]
  exact respects_menus

theorem batchDeleteMenus_respects {ids : List MenuId} {result : Departments.BatchResult}
    (h : Work.Accepts (batchDeleteMenus ids actor) { db } result { db := db', hooks, revoked }) :
    Respects actor db db' := by
  obtain ⟨_, hrun⟩ := batchDeleteMenus_run actor ids { db }
  have hremoves : RemovesMenus { db } (each (deleteOneMenu actor) (Departments.fromKeys ids)
      { db }).1 := each_rel .refl .trans deleteOneMenu_removes
  rw [(Prod.mk.inj (Except.ok.inj (hrun.symm.trans h))).2] at hremoves
  exact hremoves.respects

/-! ### Deletes -/

/-- What a delete flags, the actor dominates. -/
theorem Removes.respects {A : Set UserId} {B : Set RoleId} {s : UnitOfWork}
    (h : Removes A B { db } s) (hA : ∀ u ∈ A, dominatesRoles db actor u = true)
    (hB : ∀ r ∈ B, dominatesRole db actor r = true) : Respects actor db s.db := by
  have huser {u : UserId} (hfree : dominatesRoles db actor u = false) : u ∉ A := by
    intro hu
    rw [hA u hu] at hfree
    cases hfree
  have hrole {r : RoleId} (hfree : dominatesRole db actor r = false) : r ∉ B := by
    intro hr
    rw [hB r hr] at hfree
    cases hfree
  refine ⟨fun u hu => ?_, fun u _ hfree => h.userRows.kept u (huser hfree),
    fun u r _ hu hr hlink => (h.userRoles (u, r)).2 ⟨hlink, huser hu, hrole hr⟩,
    fun r row hrow hfree => ⟨?_, fun m => ?_⟩⟩
  · rw [← Finmap.lookup_isSome] at hu ⊢
    by_cases hmem : u ∈ A
    · have hsome := congrArg Option.isSome (h.userRows.flagged u hmem)
      rw [Option.isSome_map, Option.isSome_map] at hsome
      rw [hsome]
      exact hu
    · rw [h.userRows.kept u hmem]
      exact hu
  · rw [← hrow]
    unfold Database.role
    rw [h.roleRows.kept r (hrole hfree)]
  · simpa using (h.roleMenus (r, m)).trans (and_iff_left (hrole hfree))

theorem deleteRole_respects {x : Unit}
    (h : Work.Accepts (deleteRole r actor) { db } x { db := db', hooks, revoked }) :
    Respects actor db db' := by
  have hattempt : deleteOneRole actor r { db } = some { db := db', hooks, revoked } :=
    Work.attempt_ok h
  refine Removes.respects ((sweep_roles actor).accepted hattempt) nofun fun r' hr => ?_
  obtain rfl : r' = r := hr
  cases hcan : canDeleteRole actor { db } r' with
  | true => exact hcan
  | false =>
    rw [deleteOneRole_refused hcan] at hattempt
    cases hattempt

theorem batchDeleteRoles_respects {ids : List RoleId} {result : Departments.BatchResult}
    (h : Work.Accepts (batchDeleteRoles ids actor) { db } result { db := db', hooks, revoked }) :
    Respects actor db db' := by
  obtain ⟨_, _, hrun, hremoves, -⟩ := batchDeleteRoles_run actor ids { db }
  cases hrun.symm.trans h
  exact hremoves.respects nofun fun r hr => hr.2

theorem deleteUser_respects {x : Unit}
    (h : Work.Accepts (deleteUser u actor) { db } x { db := db', hooks, revoked }) :
    Respects actor db db' := by
  have hattempt : deleteOneUser actor u { db } = some { db := db', hooks, revoked } :=
    Work.attempt_ok h
  refine Removes.respects ((sweep_users actor).accepted hattempt) (fun u' hu => ?_) nofun
  obtain rfl : u' = u := hu
  cases hcan : canDeleteUser actor { db } u' with
  | true => exact (Bool.and_eq_true_iff.1 hcan).2
  | false =>
    rw [deleteOneUser_refused hcan] at hattempt
    cases hattempt

theorem batchDeleteUsers_respects {ids : List UserId} {result : Departments.BatchResult}
    (h : Work.Accepts (batchDeleteUsers ids actor) { db } result { db := db', hooks, revoked }) :
    Respects actor db db' := by
  obtain ⟨_, _, hrun, hremoves, -⟩ := batchDeleteUsers_run actor ids { db }
  cases hrun.symm.trans h
  exact hremoves.respects (fun u hu => (Bool.and_eq_true_iff.1 hu.2).2) nofun

/-! ### Accounts -/

/-- An account that is new, or that the actor dominates. -/
theorem respects_user {row : User} (h : u ∉ db.users ∨ dominatesRoles db actor u = true) :
    Respects actor db (db.setUser u row) where
  kept _ hu := Finmap.mem_insert.2 (.inr hu)
  rows u' hu hfree := by
    refine Finmap.lookup_insert_of_ne _ ?_
    rintro rfl
    rcases h with hnew | hdominates
    · exact hnew hu
    · rw [hdominates] at hfree
      cases hfree
  links _ _ _ _ _ hlink := hlink
  roles _ _ hrow _ := ⟨hrow, fun _ => Iff.rfl⟩

theorem respects_replaceRoles {row : User} {roleIds : Finset RoleId}
    (h : u ∉ db.users ∨ dominatesRoles db actor u = true) :
    Respects actor db ((db.setUser u row).replaceRoles u roleIds) where
  kept := (respects_user h).kept
  rows := (respects_user h).rows
  links u' r hu hfree hrole hlink := by
    have hne : u' ≠ u := by
      rintro rfl
      rcases h with hnew | hdominates
      · exact hnew hu
      · rw [hdominates] at hfree
        cases hfree
    rw [Database.mem_replaceRoles, if_neg hne]
    exact hlink
  roles := (show Respects actor db (db.setUser u row) from respects_user h).roles

theorem createUser_respects {security : Security} {newId : UserId} {payload : UserCreate}
    {detail : UserDetail} (h : Work.Accepts (createUser security newId payload actor) { db } detail
      { db := db', hooks, revoked }) : Respects actor db db' := by
  unfold createUser insertUser userDetail at h
  rw [accepts_query_then, Work.accepts_require_then, accepts_query_then, Work.accepts_require_then,
    Work.accepts_bind] at h
  obtain ⟨-, -, _, s, hdepartment, h⟩ := h
  obtain rfl := validateDepartment_kept hdepartment
  rw [Work.accepts_then fun _ _ => accepts_validateRoles] at h
  obtain ⟨-, -, h⟩ := h
  rw [accepts_query_then, Work.accepts_check_then, Work.accepts_check_then, bind_assoc,
    accepts_query_then, bind_assoc, Work.accepts_require_then, accepts_update_then,
    accepts_update_then, accepts_query_then, Work.accepts_pure] at h
  obtain ⟨-, -, hnew, -, heq⟩ := h
  cases heq
  exact respects_replaceRoles (.inl (by simpa using hnew))

theorem updateUser_respects {security : Security} {payload : UserUpdate} {detail : UserDetail}
    (h : Work.Accepts (updateUser security u payload actor) { db } detail
      { db := db', hooks, revoked }) : Respects actor db db' := by
  unfold updateUser userDetail at h
  rw [Work.accepts_then fun _ _ => accepts_requireUser] at h
  obtain ⟨old, -, h⟩ := h
  rw [accepts_query_then, Work.accepts_check_then, Work.accepts_check_then, Work.accepts_bind] at h
  obtain ⟨hdominance, -, _, s, hdepartment, h⟩ := h
  obtain rfl := validateNewDepartment_kept hdepartment
  rw [Work.accepts_require_then, accepts_update_then, Work.accepts_bind] at h
  obtain ⟨-, _, s, hreplace, h⟩ := h
  rw [Work.accepts_bind] at h
  obtain ⟨_, t, hhook, h⟩ := h
  rw [Work.accepts_bind] at h
  obtain ⟨_, t', hrevoke, h⟩ := h
  rw [accepts_when_hook] at hhook
  rw [accepts_when_revoke] at hrevoke
  rw [accepts_query_then, Work.accepts_pure] at h
  obtain ⟨-, heq⟩ := h
  subst hrevoke
  subst hhook
  have hdominates : u ∉ db.users ∨ dominatesRoles db actor u = true :=
    .inr (dominatesRoles_of_ok hdominance)
  cases hids : payload.roleIds with
  | none =>
    rw [hids] at hreplace
    obtain ⟨-, rfl⟩ := Work.accepts_pure.1 hreplace
    cases heq
    exact respects_user hdominates
  | some roleIds =>
    rw [hids] at hreplace
    unfold replaceNewRoles at hreplace
    rw [Work.accepts_then fun _ _ => accepts_validateRoles] at hreplace
    obtain ⟨-, -, hreplace⟩ := hreplace
    rw [accepts_query_then, Work.accepts_check_then, accepts_update] at hreplace
    obtain ⟨-, rfl⟩ := hreplace
    cases heq
    exact respects_replaceRoles hdominates

theorem resetPassword_respects {security : Security} {newPassword : String} {x : Unit}
    (h : Work.Accepts (resetPassword security u newPassword actor) { db } x
      { db := db', hooks, revoked }) : Respects actor db db' := by
  unfold resetPassword at h
  rw [Work.accepts_then fun _ _ => accepts_requireUser] at h
  obtain ⟨old, -, h⟩ := h
  rw [accepts_query_then, Work.accepts_check_then, Work.accepts_check_then, accepts_update_then,
    accepts_revokeAllSessions] at h
  obtain ⟨hdominance, -, heq⟩ := h
  cases heq
  exact respects_user (.inr (dominatesRoles_of_ok hdominance))

theorem Accepted.respects (h : Accepted actor op db db' hooks) : Respects actor db db' := by
  obtain ⟨revoked, h⟩ := h
  cases op with
  | createRole newId payload =>
    obtain ⟨detail, h⟩ := accepts_answer h
    exact createRole_respects h
  | updateRole r payload =>
    obtain ⟨detail, h⟩ := accepts_answer h
    exact updateRole_respects h
  | deleteRole r => exact deleteRole_respects h
  | batchDeleteRoles ids =>
    obtain ⟨result, h⟩ := accepts_answer h
    exact batchDeleteRoles_respects h
  | createMenu newId payload =>
    obtain ⟨detail, h⟩ := accepts_answer h
    exact createMenu_respects h
  | updateMenu m payload =>
    obtain ⟨detail, h⟩ := accepts_answer h
    exact updateMenu_respects h
  | deleteMenu m => exact (deleteOneMenu_removes (Work.attempt_ok h)).respects
  | batchDeleteMenus ids =>
    obtain ⟨result, h⟩ := accepts_answer h
    exact batchDeleteMenus_respects h
  | createUser security newId payload =>
    obtain ⟨detail, h⟩ := accepts_answer h
    exact createUser_respects h
  | updateUser security u payload =>
    obtain ⟨detail, h⟩ := accepts_answer h
    exact updateUser_respects h
  | resetPassword security u newPassword => exact resetPassword_respects h
  | deleteUser u => exact deleteUser_respects h
  | batchDeleteUsers ids =>
    obtain ⟨result, h⟩ := accepts_answer h
    exact batchDeleteUsers_respects h

/-! ## Superadmins -/

/-- The user holds an active role with the mark. -/
def Database.IsSuperadmin (db : Database) (u : UserId) : Prop :=
  superadminRoleCode ∈ db.listActiveRoleCodes u

theorem isSuperadmin_iff : db.IsSuperadmin u ↔ ∃ r row, (u, r) ∈ db.userRoles ∧
    db.role r = some row ∧ row.status = .active ∧ row.code = superadminRoleCode := by
  unfold Database.IsSuperadmin
  rw [Database.mem_listActiveRoleCodes]
  constructor
  · rintro ⟨r, hlink, hcode⟩
    obtain ⟨row, hrow, hmark⟩ := Option.map_eq_some_iff.1 hcode
    obtain ⟨hrole, hactive⟩ := Database.activeRole_eq_some.1 hrow
    exact ⟨r, row, hlink, hrole, hactive, hmark⟩
  · rintro ⟨r, row, hlink, hrole, hactive, hmark⟩
    exact ⟨r, hlink, Option.map_eq_some_iff.2
      ⟨row, Database.activeRole_eq_some.2 ⟨hrole, hactive⟩, hmark⟩⟩

/-- Nobody but a superadmin dominates a superadmin. -/
theorem not_dominatesRoles (hactor : ¬ actor.isSuperuser) (h : db.IsSuperadmin u) :
    dominatesRoles db actor u = false := by
  obtain ⟨r, row, hlink, hrole, hactive, hmark⟩ := isSuperadmin_iff.1 h
  cases hverdict : requireDominance db u actor with
  | error e =>
    rw [dominatesRoles, hverdict]
    rfl
  | ok x =>
    rw [requireDominance, if_neg hactor] at hverdict
    have hassignable := requireAssignableRoles_ok hverdict hactor r
      (Database.mem_listRoleIds.2 hlink)
    exact absurd hmark (hassignable.2 row (Database.activeRole_eq_some.2 ⟨hrole, hactive⟩))

theorem not_dominatesRole {row : Role} (hactor : ¬ actor.isSuperuser) (hrow : db.role r = some row)
    (hmark : row.code = superadminRoleCode) : dominatesRole db actor r = false := by
  cases hverdict : requireRoleDominance db r row actor with
  | error e =>
    rw [dominatesRole, hrow, Option.any_some, hverdict]
    rfl
  | ok x => exact absurd hmark (requireRoleDominance_ok hverdict hactor).1

/-- The roles with the mark, the accounts that hold an active one, and who they are. Whoever is one
afterwards was one before, also where the account is new. -/
structure SuperadminsKept (db db' : Database) : Prop where
  kept : ∀ u ∈ db.users, u ∈ db'.users
  only : ∀ u, db'.IsSuperadmin u → db.IsSuperadmin u
  still : ∀ u ∈ db.users, db.IsSuperadmin u → db'.IsSuperadmin u
  rows : ∀ u ∈ db.users, db.IsSuperadmin u → db'.users.lookup u = db.users.lookup u
  roles : ∀ r row, db.role r = some row → row.code = superadminRoleCode →
    db'.role r = some row ∧ ∀ m, (r, m) ∈ db'.roleMenus ↔ (r, m) ∈ db.roleMenus

end

/-- A run of requests by actors that are no superadmins. -/
abbrev CommonRun : Database → Database → Prop :=
  Relation.ReflTransGen fun db db' =>
    ∃ actor op hooks, ¬ actor.isSuperuser ∧ Accepted actor op db db' hooks

section

variable {actor : AuthenticatedUser} {op : Operation} {db₀ db db' : Database}
  {hooks : List PermCache.Hook}

theorem Accepted.superadmins (h : Accepted actor op db db' hooks) (hactor : ¬ actor.isSuperuser) :
    SuperadminsKept db db' := by
  have hrespects := h.respects
  refine ⟨hrespects.kept, fun u hmark => ?_, fun u hu hmark => ?_,
    fun u hu hmark => hrespects.rows u hu (not_dominatesRoles hactor hmark),
    fun r row hrow hmark => hrespects.roles r row hrow (not_dominatesRole hactor hrow hmark)⟩
  · obtain ⟨r, row, hlink, hrole, hactive, hcode⟩ := isSuperadmin_iff.1 hmark
    obtain ⟨hlink, hrole⟩ := h.change.superadmin hactor hlink hrole hcode
    exact isSuperadmin_iff.2 ⟨r, row, hlink, hrole, hactive, hcode⟩
  · obtain ⟨r, row, hlink, hrole, hactive, hcode⟩ := isSuperadmin_iff.1 hmark
    have hfree := not_dominatesRole hactor hrole hcode
    exact isSuperadmin_iff.2 ⟨r, row,
      hrespects.links u r hu (not_dominatesRoles hactor hmark) hfree hlink,
      (hrespects.roles r row hrole hfree).1, hactive, hcode⟩

theorem SuperadminsKept.trans (h : SuperadminsKept db₀ db) (h' : SuperadminsKept db db') :
    SuperadminsKept db₀ db' where
  kept u hu := h'.kept u (h.kept u hu)
  only u hmark := h.only u (h'.only u hmark)
  still u hu hmark := h'.still u (h.kept u hu) (h.still u hu hmark)
  rows u hu hmark := (h'.rows u (h.kept u hu) (h.still u hu hmark)).trans (h.rows u hu hmark)
  roles r row hrow hmark := by
    obtain ⟨hrow', hmenus⟩ := h.roles r row hrow hmark
    obtain ⟨hrow'', hmenus'⟩ := h'.roles r row hrow' hmark
    exact ⟨hrow'', fun m => (hmenus' m).trans (hmenus m)⟩

/-- However often others use the admin services, superadmins stay the same accounts with the same
rows, and the roles with the mark stay as they are. -/
theorem superadmins_kept (h : CommonRun db₀ db) : SuperadminsKept db₀ db := by
  induction h with
  | refl => exact ⟨fun _ hu => hu, fun _ hmark => hmark, fun _ _ hmark => hmark, fun _ _ _ => rfl,
      fun _ _ hrow _ => ⟨hrow, fun _ => Iff.rfl⟩⟩
  | tail _ hstep ih =>
    obtain ⟨actor, op, hooks, hactor, haccepted⟩ := hstep
    exact ih.trans (haccepted.superadmins hactor)

end

/-- User 1 is a superadmin, and user 2 is not. -/
def twoAdmins : Database where
  users := (Finmap.singleton 1 { username := "root", employeeNo := "1" }).insert 2
    { username := "ann", employeeNo := "2" }
  departments := ∅
  roles := Finmap.singleton 3 { name := "Superadmin", code := superadminRoleCode }
  menus := ∅
  userRoles := {(1, 3)}
  roleMenus := ∅

/-- User 2 deletes its own account. -/
theorem superadmins_kept_delete : ∃ db,
    CommonRun twoAdmins db ∧ db.user 2 = none ∧ SuperadminsKept twoAdmins db := by
  have haccepted : ∃ db hooks, Accepted { userId := 2, permissions := ∅ } (.deleteUser 2)
      twoAdmins db hooks ∧ db.user 2 = none := ⟨_, _, ⟨_, rfl⟩, rfl⟩
  obtain ⟨db, hooks, haccepted, hgone⟩ := haccepted
  have hrun : CommonRun twoAdmins db := .single ⟨_, _, _, by decide, haccepted⟩
  exact ⟨db, hrun, hgone, superadmins_kept hrun⟩

end Rbac
