import Janus.Admin.Departments
import Janus.Auth.PermCache
import Janus.Sql.Work

/-!
# Roles, menus and users: the tables and their queries

The tables of `db/models/identity.py` that the admin services for roles, menus and users read and
write, the queries of `auth/repository.py`, and the state of a request's unit of work. The link
tables have unique pairs, so each is a set of pairs.

* `listPermissionCodes` … `listActiveRoleCodes`: the queries of `AuthRepository`.
* `Service`: a method of a service in its unit of work. An exception rolls the transaction back;
  its hooks run once it has been committed.
-/

set_option autoImplicit false

namespace Rbac

open Janus Sql
open Departments (DeptId UserId Department)

abbrev RoleId := Int
abbrev MenuId := Int

inductive ActiveStatus
  | active
  | disabled
deriving DecidableEq, Repr

inductive UserStatus
  | active
  | disabled
deriving DecidableEq, Repr

inductive MenuType
  | catalog
  | menu
  | button
deriving DecidableEq, Repr

structure Role where
  name : String
  code : String
  sortOrder : Int := 0
  status : ActiveStatus := .active
  remark : Option String := none
  createdBy : Option UserId := none
  createDept : Option DeptId := none
  updatedBy : Option UserId := none
  isDeleted : Bool := false
deriving DecidableEq, Repr

structure Menu where
  name : String
  parentId : Option MenuId := none
  menuType : MenuType
  perms : Option String := none
  path : Option String := none
  component : Option String := none
  queryParam : Option String := none
  isFrame : Bool := false
  isCache : Bool := true
  icon : Option String := none
  sortOrder : Int := 0
  visible : Bool := true
  status : ActiveStatus := .active
  remark : Option String := none
  createdBy : Option UserId := none
  createDept : Option DeptId := none
  updatedBy : Option UserId := none
  isDeleted : Bool := false
deriving DecidableEq, Repr

structure User where
  username : String
  employeeNo : String
  password : Option String := none
  realName : Option String := none
  email : Option String := none
  mobile : Option String := none
  departmentId : Option DeptId := none
  status : UserStatus := .active
  preferredLocale : String := "zh-CN"
  remark : Option String := none
  createdBy : Option UserId := none
  createDept : Option DeptId := none
  updatedBy : Option UserId := none
  isDeleted : Bool := false
deriving DecidableEq, Repr

structure Database where
  users : Table UserId User
  departments : Table DeptId Department
  roles : Table RoleId Role
  menus : Table MenuId Menu
  userRoles : Finset (UserId × RoleId)
  roleMenus : Finset (RoleId × MenuId)

/-! ## Queries -/

namespace Database

variable (db : Database)

/-- `BaseRepository.get`: the row, unless it is soft-deleted. -/
def user (u : UserId) : Option User := (db.users.lookup u).filter fun row => !row.isDeleted

def department (d : DeptId) : Option Department :=
  (db.departments.lookup d).filter fun row => !row.isDeleted

def role (r : RoleId) : Option Role := (db.roles.lookup r).filter fun row => !row.isDeleted

def menu (m : MenuId) : Option Menu := (db.menus.lookup m).filter fun row => !row.isDeleted

def listRoleIds (u : UserId) : Finset RoleId :=
  (db.userRoles.filter fun link => link.1 = u).image Prod.snd

def listMenuIds (r : RoleId) : Finset MenuId :=
  (db.roleMenus.filter fun link => link.1 = r).image Prod.snd

/-- The role is neither deleted nor disabled. -/
def activeRole (r : RoleId) : Option Role := (db.role r).filter fun row => row.status = .active

def activeMenu (m : MenuId) : Option Menu := (db.menu m).filter fun row => row.status = .active

/-- `Menu.perms` of an active menu, if it is a code. -/
def menuCodes (m : MenuId) : Finset String :=
  (((db.activeMenu m).bind Menu.perms).filter fun code => code ≠ "").toFinset

/-- The codes that an active role confers. -/
def roleCodes (r : RoleId) : Finset String :=
  if (db.activeRole r).isSome then (db.listMenuIds r).biUnion db.menuCodes else ∅

def listPermissionCodes (u : UserId) : Finset String := (db.listRoleIds u).biUnion db.roleCodes

def listPermissionCodesForRoles (roleIds : Finset RoleId) : Finset String :=
  roleIds.biUnion db.roleCodes

def listPermissionCodesForMenus (menuIds : Finset MenuId) : Finset String :=
  menuIds.biUnion db.menuCodes

def listActiveRoleCodes (u : UserId) : Finset String :=
  (db.listRoleIds u).biUnion fun r => ((db.activeRole r).map Role.code).toFinset

/-- The codes of the rows of `list_active_roles_by_ids`. -/
def activeCodesByIds (roleIds : Finset RoleId) : Finset String :=
  roleIds.biUnion fun r => ((db.activeRole r).map Role.code).toFinset

end Database

/-- The two queries of the permission snapshot loader. -/
def rbac : PermCache.Rbac Database where
  listPermissionCodes := Database.listPermissionCodes
  listActiveRoleCodes := Database.listActiveRoleCodes

/-! ## Writes -/

namespace Database

variable (db : Database)

def setUser (u : UserId) (row : User) : Database := { db with users := db.users.insert u row }

def setRole (r : RoleId) (row : Role) : Database := { db with roles := db.roles.insert r row }

def setMenu (m : MenuId) (row : Menu) : Database := { db with menus := db.menus.insert m row }

/-- `replace_roles`: all links of the user go, then the new ones come. -/
def replaceRoles (u : UserId) (roleIds : Finset RoleId) : Database :=
  { db with
    userRoles := (db.userRoles.filter fun link => link.1 ≠ u) ∪ roleIds.image fun r => (u, r) }

def replaceMenus (r : RoleId) (menuIds : Finset MenuId) : Database :=
  { db with
    roleMenus := (db.roleMenus.filter fun link => link.1 ≠ r) ∪ menuIds.image fun m => (r, m) }

def deleteUserLinks (r : RoleId) : Database :=
  { db with userRoles := db.userRoles.filter fun link => link.2 ≠ r }

end Database

/-! ## Units of work -/

def superadminRoleCode : String := "superadmin"

structure AuthenticatedUser where
  userId : UserId
  departmentId : Option DeptId := none
  permissions : Finset String
  roleCodes : Finset String := ∅

def AuthenticatedUser.isSuperuser (actor : AuthenticatedUser) : Prop :=
  superadminRoleCode ∈ actor.roleCodes

instance (actor : AuthenticatedUser) : Decidable actor.isSuperuser :=
  inferInstanceAs (Decidable (superadminRoleCode ∈ actor.roleCodes))

/-- The transaction, the after-commit hooks it has registered, and the users whose sessions it has
revoked. -/
structure UnitOfWork where
  db : Database
  hooks : List PermCache.Hook := []
  revoked : List UserId := []

inductive Failure
  | app (e : AppError)
  /-- A violated constraint of the database. -/
  | database
  /-- A loop that does not end. -/
  | hangs

abbrev Service (α : Type) := Work UnitOfWork Failure α

def requestInvalid (statusCode : Nat) : Failure := .app { code := .requestInvalid, statusCode }

def forbidden : Failure := .app { code := .authForbidden, statusCode := 403 }

def query {α : Type} (f : Database → α) : Service α := Work.read fun s => f s.db

def update (f : Database → Database) : Service Unit := Work.write fun s => { s with db := f s.db }

def addAfterCommitHook (hook : PermCache.Hook) : Service Unit :=
  Work.write fun s => { s with hooks := s.hooks ++ [hook] }

/-- `SessionStore.revoke_all_sessions`. -/
def revokeAllSessions (u : UserId) : Service Unit :=
  Work.write fun s => { s with revoked := s.revoked ++ [u] }

section

variable {u : UnitOfWork}

theorem run_query {α : Type} (f : Database → α) : (query f).run u = .ok (f u.db, u) := rfl

theorem run_update (f : Database → Database) :
    (update f).run u = .ok ((), { u with db := f u.db }) := rfl

theorem run_addAfterCommitHook (hook : PermCache.Hook) :
    (addAfterCommitHook hook).run u = .ok ((), { u with hooks := u.hooks ++ [hook] }) := rfl

theorem run_revokeAllSessions (id : UserId) :
    (revokeAllSessions id).run u = .ok ((), { u with revoked := u.revoked ++ [id] }) := rfl

end

/-- `BaseRepository.soft_delete_many`: the rows, the count of the affected and the skipped ids. -/
def softDeleteMany {V : Type} (isDeleted : V → Bool) (delete : V → V) (table : Table Int V)
    (ids : List Int) : Table Int V × Nat × List Int :=
  let requestedIds := Departments.fromKeys ids
  let live := fun id => (table.lookup id).any fun row => !isDeleted row
  let affectedIds := requestedIds.filter live
  let deleteRow := fun table id =>
    ((table.lookup id).map fun row => table.insert id (delete row)).getD table
  (affectedIds.foldl deleteRow table, affectedIds.length,
    (requestedIds.filter fun id => id ∉ affectedIds).mergeSort fun a b => a ≤ b)

/-- A column that is not nullable keeps its value unless a new one is set. -/
def column {α : Type} (field : Option (Option α)) (old : α) : α := field.join.getD old

/-- An explicit null for a column that is not nullable. -/
def setsNull {α : Type} (field : Option (Option α)) : Bool := field.any Option.isNone

end Rbac
