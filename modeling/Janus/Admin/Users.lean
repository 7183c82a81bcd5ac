import Janus.Admin.Rbac

/-!
# Users (`admin/users/service.py`)

`Security`: the settings, the classes of characters and the hash that passwords need. Sessions are
revoked within the unit of work; a Redis failure there would raise and roll it back.
-/

set_option autoImplicit false

namespace Rbac

open Janus Sql
open Departments (DeptId UserId BatchResult fromKeys)

structure UserCreate where
  username : String
  employeeNo : String
  password : Option String := none
  realName : Option String := none
  email : Option String := none
  mobile : Option String := none
  departmentId : Option DeptId := none
  status : UserStatus := .active
  preferredLocale : String := "zh-CN"
  remark : Option String := none
  roleIds : List RoleId := []

/-- A field that is not set is `none`; a null `password`, `status` or `role_ids` is left alone as
well. -/
structure UserUpdate where
  password : Option String := none
  realName : Option (Option String) := none
  email : Option (Option String) := none
  mobile : Option (Option String) := none
  departmentId : Option (Option DeptId) := none
  status : Option UserStatus := none
  preferredLocale : Option (Option String) := none
  remark : Option (Option String) := none
  roleIds : Option (List RoleId) := none

/-- `core/security.py`, `str.isalpha` and `str.isdigit`, and the setting for the length. -/
structure Security where
  passwordMinLength : Nat
  isAlpha : Char → Bool
  isDigit : Char → Bool
  hashPassword : String → String

def Security.passwordStrengthViolations (security : Security) (plain : String) : List String :=
  (if plain.length < security.passwordMinLength then ["too_short"] else []) ++
    (if plain.toList.any security.isAlpha then [] else ["no_letter"]) ++
    (if plain.toList.any security.isDigit then [] else ["no_digit"])

/-- The row after `UPDATE`; the password is hashed. -/
def User.set (row : User) (values : UserUpdate) (security : Security) (updatedBy : UserId) : User :=
  { row with
    password := (values.password.map security.hashPassword).or row.password
    realName := values.realName.getD row.realName
    email := values.email.getD row.email
    mobile := values.mobile.getD row.mobile
    departmentId := values.departmentId.getD row.departmentId
    status := values.status.getD row.status
    preferredLocale := column values.preferredLocale row.preferredLocale
    remark := values.remark.getD row.remark
    updatedBy := some updatedBy }

def UserUpdate.violatesNotNull (values : UserUpdate) : Bool := setsNull values.preferredLocale

abbrev UserDetail := User × Finset RoleId

namespace Database

variable (db : Database)

/-- `get_by_username` finds a user. -/
def hasUsername (username : String) : Bool :=
  decide (∃ u ∈ db.users.keys, ((db.user u).any fun row => row.username = username) = true)

def hasEmployeeNo (employeeNo : String) : Bool :=
  decide (∃ u ∈ db.users.keys, ((db.user u).any fun row => row.employeeNo = employeeNo) = true)

end Database

/-! ## Guards -/

def requireUser (u : UserId) : Service User := do
  let found ← query fun db => db.user u
  Work.requireSome found (requestInvalid 404)

def validateDepartment (departmentId : Option DeptId) : Service Unit :=
  match departmentId with
  | none => pure ()
  | some d => do
    let found ← query fun db => (db.department d).isSome
    Work.require (found = true) (requestInvalid 400)

/-- Roles exist and are active. -/
def validateRoles (roleIds : List RoleId) : Service Unit :=
  Work.when (roleIds ≠ []) do
    let active ← query fun db => roleIds.toFinset.filter fun r => (db.activeRole r).isSome
    Work.require (active = roleIds.toFinset) (requestInvalid 400)

def requireAssignableRoles (db : Database) (roleIds : Finset RoleId) (actor : AuthenticatedUser) :
    Except Failure Unit :=
  if actor.isSuperuser ∨ roleIds = ∅ then pure ()
  else if ¬ db.listPermissionCodesForRoles roleIds ⊆ actor.permissions then throw forbidden
  else if superadminRoleCode ∈ db.activeCodesByIds roleIds then throw forbidden
  else pure ()

def requireDominance (db : Database) (u : UserId) (actor : AuthenticatedUser) :
    Except Failure Unit :=
  if actor.isSuperuser then pure () else requireAssignableRoles db (db.listRoleIds u) actor

/-- A user whose roles the actor could assign. -/
def dominatesRoles (db : Database) (actor : AuthenticatedUser) (u : UserId) : Bool :=
  (requireDominance db u actor).isOk

def requirePasswordStrength (security : Security) (plain : String) : Except Failure Unit :=
  let violations := security.passwordStrengthViolations plain
  if violations = [] then pure ()
  else throw <| .app
    { code := .authPasswordTooWeak
      statusCode := 400
      params := violations.map fun label => ("violations", label) }

/-- A new password is strong. -/
def requireStrong (security : Security) (password : Option String) : Except Failure Unit :=
  match password with
  | none => pure ()
  | some plain => requirePasswordStrength security plain

/-! ## Methods -/

def userDetail (u : UserId) (user : User) : Service UserDetail := do
  let roleIds ← query fun db => db.listRoleIds u
  pure (user, roleIds)

def insertUser (newId : UserId) (row : User) : Service Unit := do
  let taken ← query fun db => decide (newId ∈ db.users)
  Work.require (taken = false) .database
  update fun db => db.setUser newId row

/-- `newId`: the id that the row gets from its default. -/
def createUser (security : Security) (newId : UserId) (payload : UserCreate)
    (actor : AuthenticatedUser) : Service UserDetail := do
  let taken ← query fun db => db.hasUsername payload.username
  Work.require (taken = false) (requestInvalid 400)
  let taken ← query fun db => db.hasEmployeeNo payload.employeeNo
  Work.require (taken = false) (requestInvalid 400)
  validateDepartment payload.departmentId
  validateRoles payload.roleIds
  let db ← query id
  Work.check (requireAssignableRoles db payload.roleIds.toFinset actor)
  Work.check (requireStrong security payload.password)
  let user : User :=
    { username := payload.username
      employeeNo := payload.employeeNo
      password := payload.password.map security.hashPassword
      realName := payload.realName
      email := payload.email
      mobile := payload.mobile
      departmentId := payload.departmentId
      status := payload.status
      preferredLocale := payload.preferredLocale
      remark := payload.remark
      createdBy := some actor.userId
      createDept := actor.departmentId
      updatedBy := some actor.userId }
  insertUser newId user
  update fun db => db.replaceRoles newId payload.roleIds.toFinset
  userDetail newId user

/-- The department of an update is validated if it is set. -/
def validateNewDepartment (departmentId : Option (Option DeptId)) : Service Unit :=
  match departmentId with
  | none => pure ()
  | some departmentId => validateDepartment departmentId

/-- The roles of an update are validated once the row has been written. -/
def replaceNewRoles (u : UserId) (roleIds : Option (List RoleId)) (actor : AuthenticatedUser) :
    Service Unit :=
  match roleIds with
  | none => pure ()
  | some roleIds => do
    validateRoles roleIds
    let db ← query id
    Work.check (requireAssignableRoles db roleIds.toFinset actor)
    update fun db => db.replaceRoles u roleIds.toFinset

def updateUser (security : Security) (u : UserId) (payload : UserUpdate)
    (actor : AuthenticatedUser) : Service UserDetail := do
  let user ← requireUser u
  let db ← query id
  Work.check (requireDominance db u actor)
  Work.check (requireStrong security payload.password)
  validateNewDepartment payload.departmentId
  Work.require (payload.violatesNotNull = false) .database
  let row := user.set payload security actor.userId
  update fun db => db.setUser u row
  replaceNewRoles u payload.roleIds actor
  Work.when (payload.roleIds.isSome ∨ payload.status.isSome)
    (addAfterCommitHook (.invalidateUser u))
  Work.when (payload.password.isSome ∨ payload.status = some .disabled) (revokeAllSessions u)
  userDetail u row

def resetPassword (security : Security) (u : UserId) (newPassword : String)
    (actor : AuthenticatedUser) : Service Unit := do
  let user ← requireUser u
  let db ← query id
  Work.check (requireDominance db u actor)
  Work.check (requirePasswordStrength security newPassword)
  update fun db => db.setUser u
    { user with
      password := some (security.hashPassword newPassword), updatedBy := some actor.userId }
  revokeAllSessions u

def deleteUser (u : UserId) (actor : AuthenticatedUser) : Service Unit := do
  let user ← requireUser u
  let db ← query id
  Work.check (requireDominance db u actor)
  update fun db => db.replaceRoles u ∅
  update fun db => db.setUser u { user with isDeleted := true, updatedBy := some actor.userId }
  revokeAllSessions u
  addAfterCommitHook (.invalidateUser u)

/-- The links and the snapshot of a deleted user. -/
def deleteRoleIds (skippedIds : List UserId) (u : UserId) : Service Unit :=
  Work.when (u ∉ skippedIds) do
    update fun db => db.replaceRoles u ∅
    addAfterCommitHook (.invalidateUser u)

def batchDeleteUsers (ids : List UserId) (actor : AuthenticatedUser) : Service BatchResult := do
  let requestedIds := fromKeys ids
  let db ← query id
  let (deletableIds, dominanceSkipped) :=
    if actor.isSuperuser then (requestedIds, [])
    else requestedIds.partition (dominatesRoles db actor)
  let (users, affected, baseSkippedIds) :=
    softDeleteMany User.isDeleted (fun row => { row with isDeleted := true }) db.users deletableIds
  update fun db => { db with users }
  let skippedIds := baseSkippedIds ++ dominanceSkipped
  forM requestedIds (deleteRoleIds skippedIds)
  forM (requestedIds.filter fun u => u ∉ skippedIds) revokeAllSessions
  pure ⟨requestedIds.length, affected, skippedIds⟩

end Rbac
