import Janus.Access.Grants
import Janus.Admin.Operations

/-!
# Effective codes as grants

The two queries of `AuthRepository` read off grants (`Database.permissions`, `Database.roleMarks`),
and what the writes of the services do to these.
-/

set_option autoImplicit false

namespace Rbac

open Departments (UserId)

/-! ## The queries -/

namespace Database

variable {db db' : Database} {u : UserId} {r : RoleId} {m : MenuId} {code : String}

theorem mem_listRoleIds : r ∈ db.listRoleIds u ↔ (u, r) ∈ db.userRoles := by
  simp [listRoleIds]

theorem mem_listMenuIds : m ∈ db.listMenuIds r ↔ (r, m) ∈ db.roleMenus := by
  simp [listMenuIds]

theorem activeRole_eq_some {row : Role} :
    db.activeRole r = some row ↔ db.role r = some row ∧ row.status = .active := by
  simp [activeRole, Option.filter_eq_some_iff]

theorem isSome_activeRole :
    (db.activeRole r).isSome ↔ ∃ row, db.role r = some row ∧ row.status = .active := by
  simp [Option.isSome_iff_exists, activeRole_eq_some]

theorem mem_menuCodes : code ∈ db.menuCodes m ↔
    ∃ row, db.menu m = some row ∧ row.status = .active ∧ row.perms = some code ∧ code ≠ "" := by
  simp only [menuCodes, activeMenu, Option.mem_toFinset, Option.mem_def, Option.filter_eq_some_iff,
    Option.bind_eq_some_iff, decide_eq_true_iff]
  constructor
  · rintro ⟨⟨row, ⟨hrow, hactive⟩, hperms⟩, hcode⟩
    exact ⟨row, hrow, hactive, hperms, hcode⟩
  · rintro ⟨row, hrow, hactive, hperms, hcode⟩
    exact ⟨⟨row, ⟨hrow, hactive⟩, hperms⟩, hcode⟩

theorem mem_roleCodes : code ∈ db.roleCodes r ↔
    (db.activeRole r).isSome ∧ ∃ m, (r, m) ∈ db.roleMenus ∧ code ∈ db.menuCodes m := by
  unfold roleCodes
  split
  · next h => simp [h, mem_listMenuIds]
  · next h => simp [h]

/-- The grants of `list_permission_codes`. -/
def permissions (db : Database) : Access.Grants UserId RoleId String where
  holds u r := (u, r) ∈ db.userRoles
  confers r := {code | code ∈ db.roleCodes r}

/-- The grants of `list_active_role_codes`. -/
def roleMarks (db : Database) : Access.Grants UserId RoleId String where
  holds u r := (u, r) ∈ db.userRoles
  confers r := {code | (db.activeRole r).map Role.code = some code}

theorem mem_listPermissionCodes :
    code ∈ db.listPermissionCodes u ↔ code ∈ db.permissions.effective u := by
  simp [listPermissionCodes, mem_listRoleIds, Access.Grants.mem_effective, permissions]

theorem mem_listActiveRoleCodes :
    code ∈ db.listActiveRoleCodes u ↔ code ∈ db.roleMarks.effective u := by
  simp [listActiveRoleCodes, mem_listRoleIds, Access.Grants.mem_effective, roleMarks]

theorem mem_listPermissionCodesForMenus {menuIds : Finset MenuId} :
    code ∈ db.listPermissionCodesForMenus menuIds ↔ ∃ m ∈ menuIds, code ∈ db.menuCodes m := by
  simp [listPermissionCodesForMenus]

theorem mem_activeCodesByIds {roleIds : Finset RoleId} : code ∈ db.activeCodesByIds roleIds ↔
    ∃ r ∈ roleIds, ∃ row, db.activeRole r = some row ∧ row.code = code := by
  simp [activeCodesByIds]

/-! ## Writes -/

theorem role_setRole {r' : RoleId} {row : Role} : (db.setRole r row).role r' =
    if r' = r then (some row).filter fun row => !row.isDeleted else db.role r' := by
  unfold role setRole
  split
  · next h => rw [h, Finmap.lookup_insert]
  · next h => rw [Finmap.lookup_insert_of_ne _ h]

theorem menu_setMenu {m' : MenuId} {row : Menu} : (db.setMenu m row).menu m' =
    if m' = m then (some row).filter fun row => !row.isDeleted else db.menu m' := by
  unfold menu setMenu
  split
  · next h => rw [h, Finmap.lookup_insert]
  · next h => rw [Finmap.lookup_insert_of_ne _ h]

theorem mem_replaceRoles {link : UserId × RoleId} {roleIds : Finset RoleId} :
    link ∈ (db.replaceRoles u roleIds).userRoles ↔
      if link.1 = u then link.2 ∈ roleIds else link ∈ db.userRoles := by
  obtain ⟨u', r⟩ := link
  simp only [replaceRoles, Finset.mem_union, Finset.mem_filter, Finset.mem_image, Prod.mk.injEq]
  split
  · next h => simp [h]
  · next h => simp [h, Ne.symm h]

theorem mem_replaceMenus {link : RoleId × MenuId} {menuIds : Finset MenuId} :
    link ∈ (db.replaceMenus r menuIds).roleMenus ↔
      if link.1 = r then link.2 ∈ menuIds else link ∈ db.roleMenus := by
  obtain ⟨r', m⟩ := link
  simp only [replaceMenus, Finset.mem_union, Finset.mem_filter, Finset.mem_image, Prod.mk.injEq]
  split
  · next h => simp [h]
  · next h => simp [h, Ne.symm h]

/-- A role's own menus, written again. -/
theorem replaceMenus_listMenuIds : db.replaceMenus r (db.listMenuIds r) = db := by
  have hlinks : (db.replaceMenus r (db.listMenuIds r)).roleMenus = db.roleMenus := by
    ext link
    rw [mem_replaceMenus]
    split
    · next h =>
      rw [mem_listMenuIds, ← h]
    · rfl
  exact congrArg (fun roleMenus => { db with roleMenus }) hlinks

end Database

end Rbac
