import Janus.Admin.Rbac

/-!
# Roles (`admin/roles/service.py`)

The guards are computations on the database; `_dominates_role` is the verdict of those that
`_require_role_dominance` makes.
-/

set_option autoImplicit false

namespace Rbac

open Janus Sql
open Departments (UserId BatchResult fromKeys)

structure RoleCreate where
  name : String
  code : String
  sortOrder : Int := 0
  status : ActiveStatus := .active
  remark : Option String := none
  menuIds : List MenuId := []

/-- A field that is not set is `none`; `menu_ids` that are null are left alone as well. -/
structure RoleUpdate where
  name : Option (Option String) := none
  sortOrder : Option (Option Int) := none
  status : Option (Option ActiveStatus) := none
  remark : Option (Option String) := none
  menuIds : Option (List MenuId) := none

/-- The row after `UPDATE`. -/
def Role.set (row : Role) (values : RoleUpdate) (updatedBy : UserId) : Role :=
  { row with
    name := column values.name row.name
    sortOrder := column values.sortOrder row.sortOrder
    status := column values.status row.status
    remark := values.remark.getD row.remark
    updatedBy := some updatedBy }

def RoleUpdate.violatesNotNull (values : RoleUpdate) : Bool :=
  setsNull values.name || setsNull values.sortOrder || setsNull values.status

abbrev RoleDetail := Role × Finset MenuId

namespace Database

variable (db : Database)

/-- `get_by_code` finds a role. -/
def hasRoleCode (code : String) : Bool :=
  decide (∃ r ∈ db.roles.keys, ((db.role r).any fun row => row.code = code) = true)

def existingMenuIds (menuIds : Finset MenuId) : Finset MenuId :=
  menuIds.filter fun m => (db.menu m).isSome

end Database

/-! ## Guards -/

def requireRole (r : RoleId) : Service Role := do
  let found ← query fun db => db.role r
  Work.requireSome found (requestInvalid 404)

def validateMenus (menuIds : List MenuId) : Service Unit :=
  Work.when (menuIds ≠ []) do
    let existing ← query fun db => db.existingMenuIds menuIds.toFinset
    Work.require (existing = menuIds.toFinset) (requestInvalid 400)

def requireAssignableCode (code : String) (actor : AuthenticatedUser) : Except Failure Unit :=
  if actor.isSuperuser then pure ()
  else if code = superadminRoleCode then throw forbidden
  else pure ()

def requireAssignableMenus (db : Database) (menuIds : Finset MenuId) (actor : AuthenticatedUser) :
    Except Failure Unit :=
  if actor.isSuperuser ∨ menuIds = ∅ then pure ()
  else if db.listPermissionCodesForMenus menuIds ⊆ actor.permissions then pure ()
  else throw forbidden

def requireRoleDominance (db : Database) (r : RoleId) (role : Role) (actor : AuthenticatedUser) :
    Except Failure Unit :=
  if actor.isSuperuser then pure ()
  else do
    requireAssignableCode role.code actor
    requireAssignableMenus db (db.listMenuIds r) actor

/-- A live role that the actor may manage. -/
def dominatesRole (db : Database) (actor : AuthenticatedUser) (r : RoleId) : Bool :=
  (db.role r).any fun role => (requireRoleDominance db r role actor).isOk

/-! ## Methods -/

def roleDetail (r : RoleId) (role : Role) : Service RoleDetail := do
  let menuIds ← query fun db => db.listMenuIds r
  pure (role, menuIds)

def insertRole (newId : RoleId) (row : Role) : Service Unit := do
  let taken ← query fun db => decide (newId ∈ db.roles)
  Work.require (taken = false) .database
  update fun db => db.setRole newId row

/-- `newId`: the id that the row gets from its default. -/
def createRole (newId : RoleId) (payload : RoleCreate) (actor : AuthenticatedUser) :
    Service RoleDetail := do
  let taken ← query fun db => db.hasRoleCode payload.code
  Work.require (taken = false) (requestInvalid 400)
  Work.check (requireAssignableCode payload.code actor)
  validateMenus payload.menuIds
  let db ← query id
  Work.check (requireAssignableMenus db payload.menuIds.toFinset actor)
  let role : Role :=
    { name := payload.name
      code := payload.code
      sortOrder := payload.sortOrder
      status := payload.status
      remark := payload.remark
      createdBy := some actor.userId
      createDept := actor.departmentId
      updatedBy := some actor.userId }
  insertRole newId role
  update fun db => db.replaceMenus newId payload.menuIds.toFinset
  roleDetail newId role

/-- The guards on the new menus of an update. -/
def checkNewMenus (menuIds : Option (List MenuId)) (actor : AuthenticatedUser) : Service Unit :=
  match menuIds with
  | none => pure ()
  | some menuIds => do
    validateMenus menuIds
    let db ← query id
    Work.check (requireAssignableMenus db menuIds.toFinset actor)

def replaceNewMenus (r : RoleId) (menuIds : Option (List MenuId)) : Service Unit :=
  match menuIds with
  | none => pure ()
  | some menuIds => update fun db => db.replaceMenus r menuIds.toFinset

def updateRole (r : RoleId) (payload : RoleUpdate) (actor : AuthenticatedUser) :
    Service RoleDetail := do
  let role ← requireRole r
  let db ← query id
  Work.check (requireRoleDominance db r role actor)
  checkNewMenus payload.menuIds actor
  Work.require (payload.violatesNotNull = false) .database
  let row := role.set payload actor.userId
  update fun db => db.setRole r row
  replaceNewMenus r payload.menuIds
  Work.when (payload.status.join.isSome ∨ payload.menuIds.isSome)
    (addAfterCommitHook .invalidateAll)
  roleDetail r row

def deleteRole (r : RoleId) (actor : AuthenticatedUser) : Service Unit := do
  let role ← requireRole r
  let db ← query id
  Work.check (requireRoleDominance db r role actor)
  update fun db => db.replaceMenus r ∅
  update fun db => db.deleteUserLinks r
  update fun db => db.setRole r { role with isDeleted := true, updatedBy := some actor.userId }
  addAfterCommitHook .invalidateAll

/-- The links of a deleted role. -/
def deleteRoleLinks (skippedIds : List RoleId) (r : RoleId) : Service Unit :=
  Work.when (r ∉ skippedIds) do
    update fun db => db.replaceMenus r ∅
    update fun db => db.deleteUserLinks r

def batchDeleteRoles (ids : List RoleId) (actor : AuthenticatedUser) : Service BatchResult := do
  let requestedIds := fromKeys ids
  let db ← query id
  let (deletableIds, dominanceSkipped) :=
    if actor.isSuperuser then (requestedIds, [])
    else requestedIds.partition (dominatesRole db actor)
  let (roles, affected, missingSkippedIds) :=
    softDeleteMany Role.isDeleted (fun row => { row with isDeleted := true }) db.roles deletableIds
  update fun db => { db with roles }
  let skippedIds := missingSkippedIds ++ dominanceSkipped
  forM requestedIds (deleteRoleLinks skippedIds)
  Work.when (0 < affected) (addAfterCommitHook .invalidateAll)
  pure ⟨requestedIds.length, affected, skippedIds⟩

end Rbac
