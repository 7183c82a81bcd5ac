import Janus.Admin.Rbac

/-!
# Menus (`admin/menus/service.py`)

The walk from a new parent to the root has no memory of where it has been, so it does not end in a
cycle that does not contain the menu (`meets`, `Failure.hangs`).
-/

set_option autoImplicit false

namespace Rbac

open Janus Sql
open Departments (UserId BatchResult fromKeys)

structure MenuCreate where
  name : String
  parentId : Option MenuId := none
  menuType : MenuType
  perms : Option String := none
  path : Option String := none
  component : Option String := none
  queryParam : Option String := none
  isFrame : Bool := false
  isCache : Bool := true
  icon : Option String := none
  sortOrder : Int := 0
  visible : Bool := true
  status : ActiveStatus := .active
  remark : Option String := none

/-- A field that is not set is `none`; a null `menu_type` or `status` is left alone as well. -/
structure MenuUpdate where
  name : Option (Option String) := none
  parentId : Option (Option MenuId) := none
  menuType : Option MenuType := none
  perms : Option (Option String) := none
  path : Option (Option String) := none
  component : Option (Option String) := none
  queryParam : Option (Option String) := none
  isFrame : Option (Option Bool) := none
  isCache : Option (Option Bool) := none
  icon : Option (Option String) := none
  sortOrder : Option (Option Int) := none
  visible : Option (Option Bool) := none
  status : Option ActiveStatus := none
  remark : Option (Option String) := none

/-- The row after `UPDATE`. -/
def Menu.set (row : Menu) (values : MenuUpdate) (updatedBy : UserId) : Menu :=
  { row with
    name := column values.name row.name
    parentId := values.parentId.getD row.parentId
    menuType := values.menuType.getD row.menuType
    perms := values.perms.getD row.perms
    path := values.path.getD row.path
    component := values.component.getD row.component
    queryParam := values.queryParam.getD row.queryParam
    isFrame := column values.isFrame row.isFrame
    isCache := column values.isCache row.isCache
    icon := values.icon.getD row.icon
    sortOrder := column values.sortOrder row.sortOrder
    visible := column values.visible row.visible
    status := values.status.getD row.status
    remark := values.remark.getD row.remark
    updatedBy := some updatedBy }

def MenuUpdate.violatesNotNull (values : MenuUpdate) : Bool :=
  setsNull values.name || setsNull values.isFrame || setsNull values.isCache ||
    setsNull values.sortOrder || setsNull values.visible

namespace Database

variable (db : Database)

def hasChildren (m : MenuId) : Bool :=
  decide (∃ c ∈ db.menus.keys, ((db.menu c).any fun row => row.parentId = some m) = true)

def isRoleGranted (m : MenuId) : Bool := decide (∃ link ∈ db.roleMenus, link.2 = m)

/-- The walk of `_validate_parent` from a row: whether it meets the menu; `none` if it has not
ended after that many rounds. -/
def meets (current : MenuId) : Nat → Menu → Option Bool
  | 0, _ => none
  | n + 1, cursor =>
    match cursor.parentId with
    | none => some false
    | some parentId =>
      if parentId = current then some true
      else
        match db.menu parentId with
        | none => some false
        | some next => meets current n next

end Database

/-! ## Guards -/

def requireMenu (m : MenuId) : Service Menu := do
  let found ← query fun db => db.menu m
  Work.requireSome found (requestInvalid 404)

/-- The walk from the parent, for a menu that exists. -/
def requireNotAbove (parent : Menu) (currentId : Option MenuId) : Service Unit :=
  match currentId with
  | none => pure ()
  | some current => do
    let met ← query fun db => db.meets current (db.menus.keys.card + 1) parent
    let met ← Work.requireSome met .hangs
    Work.require (met = false) (requestInvalid 400)

def validateParent (parentId currentId : Option MenuId) : Service Unit :=
  match parentId with
  | none => pure ()
  | some p => do
    Work.require (currentId ≠ some p) (requestInvalid 400)
    let found ← query fun db => db.menu p
    let parent ← Work.requireSome found (requestInvalid 400)
    requireNotAbove parent currentId

/-- The parent of an update is validated if it is set. -/
def validateNewParent (parentId : Option (Option MenuId)) (current : MenuId) : Service Unit :=
  match parentId with
  | none => pure ()
  | some parentId => validateParent parentId (some current)

/-- `not perms`. -/
def noCode (perms : Option String) : Prop := perms = none ∨ perms = some ""

instance (perms : Option String) : Decidable (noCode perms) := instDecidableOr

/-- A button has a code, and nothing else has one. -/
def validateKind (menuType : MenuType) (perms : Option String) : Except Failure Unit :=
  if menuType = .button ∧ noCode perms then throw (requestInvalid 400)
  else if menuType ≠ .button ∧ ¬ noCode perms then throw (requestInvalid 400)
  else pure ()

def requireAssignablePerms (perms : Option String) (actor : AuthenticatedUser) :
    Except Failure Unit :=
  if actor.isSuperuser then pure ()
  else
    match perms with
    | none => pure ()
    | some code =>
      if code = "" ∨ code ∈ actor.permissions then pure ()
      else throw forbidden

/-! ## Methods -/

def insertMenu (newId : MenuId) (row : Menu) : Service Unit := do
  let taken ← query fun db => decide (newId ∈ db.menus)
  Work.require (taken = false) .database
  update fun db => db.setMenu newId row

def createMenu (newId : MenuId) (payload : MenuCreate) (actor : AuthenticatedUser) :
    Service Menu := do
  validateParent payload.parentId none
  Work.check (validateKind payload.menuType payload.perms)
  Work.check (requireAssignablePerms payload.perms actor)
  let menu : Menu :=
    { name := payload.name
      parentId := payload.parentId
      menuType := payload.menuType
      perms := payload.perms
      path := payload.path
      component := payload.component
      queryParam := payload.queryParam
      isFrame := payload.isFrame
      isCache := payload.isCache
      icon := payload.icon
      sortOrder := payload.sortOrder
      visible := payload.visible
      status := payload.status
      remark := payload.remark
      createdBy := some actor.userId
      createDept := actor.departmentId
      updatedBy := some actor.userId }
  insertMenu newId menu
  pure menu

def updateMenu (m : MenuId) (payload : MenuUpdate) (actor : AuthenticatedUser) :
    Service Menu := do
  let menu ← requireMenu m
  validateNewParent payload.parentId m
  let effectiveType := payload.menuType.getD menu.menuType
  let effectivePerms := payload.perms.getD menu.perms
  Work.check (validateKind effectiveType effectivePerms)
  -- the code is vetted only if this edit sets it
  Work.when payload.perms.isSome (Work.check (requireAssignablePerms effectivePerms actor))
  Work.require (payload.violatesNotNull = false) .database
  let row := menu.set payload actor.userId
  update fun db => db.setMenu m row
  Work.when (payload.status.isSome ∨ payload.perms.isSome) (addAfterCommitHook .invalidateAll)
  pure row

def softDeleteMenu (m : MenuId) (row : Menu) (actor : AuthenticatedUser) : Service Unit :=
  update fun db => db.setMenu m { row with isDeleted := true, updatedBy := some actor.userId }

def deleteMenu (m : MenuId) (actor : AuthenticatedUser) : Service Unit := do
  let menu ← requireMenu m
  let inUse ← query fun db => db.hasChildren m || db.isRoleGranted m
  Work.require (inUse = false) (requestInvalid 400)
  softDeleteMenu m menu actor

/-- One round of `batch_delete_menus`: the count of the deleted and the skipped ids. -/
def batchRound (actor : AuthenticatedUser) (done : Nat × List MenuId) (m : MenuId) :
    Service (Nat × List MenuId) := do
  match ← query fun db => db.menu m with
  | none => pure (done.1, done.2 ++ [m])
  | some menu =>
    if ← query fun db => db.hasChildren m || db.isRoleGranted m then
      pure (done.1, done.2 ++ [m])
    else
      softDeleteMenu m menu actor
      pure (done.1 + 1, done.2)

def batchDeleteMenus (ids : List MenuId) (actor : AuthenticatedUser) : Service BatchResult := do
  let requestedIds := fromKeys ids
  let done ← requestedIds.foldlM (batchRound actor) (0, [])
  pure ⟨requestedIds.length, done.1, done.2⟩

end Rbac
