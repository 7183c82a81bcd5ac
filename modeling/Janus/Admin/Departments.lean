import Janus.Conc.Pool
import Janus.Conc.Raising
import Janus.Exceptions
import Janus.Forest.Parent
import Janus.Sql.Transaction

/-!
# Departments (`admin/departments/`, and the department of a user in `admin/users/service.py`)

A request is one transaction of its session, and a statement one command `(session, statement)`.
Statements read under `READ COMMITTED`; `SELECT … FOR UPDATE` and writes lock their rows until the
transaction ends and wait for rows that another one has locked (`Sql.Rows`).

* `Stmt`: the statements of the repositories, with their meaning `sem`. The checks of the user
  service that have nothing to do with departments are one statement with an open answer.
* `createDepartment` … `batchDeleteDepartments`: the methods of `DepartmentService`.
* `createUser`, `updateUser`: what the methods of `UserService` do to a user's department.
* `unitOfWork`: the transaction around a request.
-/

set_option autoImplicit false

namespace Departments

open Conc Janus Sql

abbrev DeptId := Int
abbrev UserId := Int

structure Department where
  name : String
  parentId : Option DeptId
  sortOrder : Int
  remark : Option String
  createdBy : Option UserId
  createDept : Option DeptId
  updatedBy : Option UserId
  isDeleted : Bool
deriving DecidableEq, Repr

/-- The columns of a user that concern departments. -/
structure User where
  departmentId : Option DeptId
  updatedBy : Option UserId
  isDeleted : Bool
deriving DecidableEq, Repr

inductive RowId
  | dept (d : DeptId)
  | user (u : UserId)
deriving DecidableEq, Repr

@[reducible] def Row : RowId → Type
  | .dept _ => Department
  | .user _ => User

abbrev Database := (k : RowId) → Option (Row k)

abbrev State (ι : Type) := Rows ι RowId Row

/-! ## Payloads -/

structure AuthenticatedUser where
  userId : UserId
  departmentId : Option DeptId

structure DepartmentCreate where
  name : String
  parentId : Option DeptId := none
  sortOrder : Int := 0
  remark : Option String := none

/-- `model_dump(exclude_unset=True)`: `none` where the field is not set. -/
structure DepartmentUpdate where
  name : Option String := none
  parentId : Option (Option DeptId) := none
  sortOrder : Option Int := none
  remark : Option (Option String) := none

structure UserCreate where
  departmentId : Option DeptId

structure UserUpdate where
  departmentId : Option (Option DeptId) := none

structure BatchResult where
  requested : Nat
  affected : Nat
  skippedIds : List DeptId
deriving DecidableEq, Repr

/-- The row after `UPDATE`. -/
def Department.set (row : Department) (values : DepartmentUpdate) (updatedBy : UserId) :
    Department :=
  { row with
    name := values.name.getD row.name
    parentId := values.parentId.getD row.parentId
    sortOrder := values.sortOrder.getD row.sortOrder
    remark := values.remark.getD row.remark
    updatedBy := some updatedBy }

def User.set (row : User) (values : UserUpdate) (updatedBy : UserId) : User :=
  { row with
    departmentId := values.departmentId.getD row.departmentId
    updatedBy := some updatedBy }

/-! ## Statements -/

inductive Stmt
  | getDepartment (d : DeptId)
  | getForUpdate (d : DeptId)
  | listAll
  | hasActiveChildren (d : DeptId)
  | hasActiveMembers (d : DeptId)
  | insertDepartment (d : DeptId) (row : Department)
  | updateDepartment (d : DeptId) (values : DepartmentUpdate) (updatedBy : UserId)
  | softDelete (d : DeptId) (updatedBy : UserId)
  | getUser (u : UserId)
  | otherChecks
  | insertUser (u : UserId) (row : User)
  | updateUser (u : UserId) (values : UserUpdate) (updatedBy : UserId)
  | commit
  | rollback

@[reducible] def Stmt.Answer : Stmt → Type
  | .getDepartment _ | .getForUpdate _ => Option Department
  | .listAll => List (DeptId × Department)
  | .hasActiveChildren _ | .hasActiveMembers _ => Bool
  | .getUser _ => Option User
  | .otherChecks => Except AppError Unit
  | _ => Unit

/-- A statement that the database refused (a lost connection, a deadlock, a violated index). -/
structure DatabaseError

@[reducible] def Resp {ι : Type} (c : ι × Stmt) : Type := Except DatabaseError c.2.Answer

/-- The department as `WHERE is_deleted = false` finds it. -/
def State.department {ι : Type} (s : State ι) (i : ι) (d : DeptId) : Option Department :=
  (s.view i (.dept d)).filter fun row => !row.isDeleted

def State.user {ι : Type} (s : State ι) (i : ι) (u : UserId) : Option User :=
  (s.view i (.user u)).filter fun row => !row.isDeleted

section Sem

variable {ι : Type} [DecidableEq ι]

/-- A statement that the database carries out. -/
def Executes (i : ι) : (st : Stmt) → State ι → st.Answer → State ι → Prop
  | .getDepartment d, s, r, s' => r = s.department i d ∧ s' = s
  | .getForUpdate d, s, r, s' =>
    r = s.department i d ∧
      ((r = none ∧ s' = s) ∨ (r ≠ none ∧ s.Free i (.dept d) ∧ s' = s.lock i (.dept d)))
  | .listAll, s, r, s' => (∀ d row, (d, row) ∈ r ↔ s.department i d = some row) ∧ s' = s
  | .hasActiveChildren d, s, r, s' =>
    (r = true ↔ ∃ c row, s.department i c = some row ∧ row.parentId = some d) ∧ s' = s
  | .hasActiveMembers d, s, r, s' =>
    (r = true ↔ ∃ u row, s.user i u = some row ∧ row.departmentId = some d) ∧ s' = s
  | .insertDepartment d row, s, _, s' =>
    s.view i (.dept d) = none ∧ s.Free i (.dept d) ∧ s' = s.write i (.dept d) row
  | .updateDepartment d values updatedBy, s, _, s' => ∃ row, s.view i (.dept d) = some row ∧
      s.Free i (.dept d) ∧ s' = s.write i (.dept d) (row.set values updatedBy)
  | .softDelete d updatedBy, s, _, s' => ∃ row, s.view i (.dept d) = some row ∧
      s.Free i (.dept d) ∧
        s' = s.write i (.dept d) { row with isDeleted := true, updatedBy := some updatedBy }
  | .getUser u, s, r, s' => r = s.user i u ∧ s' = s
  | .otherChecks, s, _, s' => s' = s
  | .insertUser u row, s, _, s' =>
    s.view i (.user u) = none ∧ s.Free i (.user u) ∧ s' = s.write i (.user u) row
  | .updateUser u values updatedBy, s, _, s' => ∃ row, s.view i (.user u) = some row ∧
      s.Free i (.user u) ∧ s' = s.write i (.user u) (row.set values updatedBy)
  | .commit, s, _, s' => s' = s.commit i
  | .rollback, s, _, s' => s' = s.rollback i

/-- The meaning of the commands; a refused statement changes nothing. -/
def sem : Sem (ι × Stmt) Resp (State ι) := fun c s r s' =>
  match r with
  | .ok r => Executes c.1 c.2 s r s'
  | .error _ => c.2 ≠ .rollback ∧ s' = s

end Sem

/-! ## The services -/

inductive ServiceError
  | app (e : AppError)
  | database (e : DatabaseError)

abbrev Service (ι α : Type) := Raising (ι × Stmt) Resp ServiceError α

variable {ι : Type} (session : ι)

def execute (st : Stmt) : Service ι st.Answer := do
  let r ← Raising.cmd (session, st)
  Raising.ofExcept .database r

def requestInvalid (statusCode : Nat) : ServiceError :=
  .app { code := .requestInvalid, statusCode }

def requireDepartment (d : DeptId) : Service ι Department := do
  match ← execute session (.getDepartment d) with
  | none => throw (requestInvalid 404)
  | some dept => pure dept

def requireParentExists (parentId : Option DeptId) : Service ι Unit :=
  match parentId with
  | none => pure ()
  | some q => do
    match ← execute session (.getDepartment q) with
    | none => throw (requestInvalid 400)
    | some _ => pure ()

/-- `create_department` locks the parent it has found. -/
def lockParent (parentId : Option DeptId) : Service ι Unit :=
  match parentId with
  | none => pure ()
  | some q => do
    match ← execute session (.getForUpdate q) with
    | none => throw (requestInvalid 400)
    | some _ => pure ()

/-- `newId`: the id that the row gets from its default. -/
def createDepartment (newId : DeptId) (payload : DepartmentCreate) (actor : AuthenticatedUser) :
    Service ι Unit := do
  requireParentExists session payload.parentId
  lockParent session payload.parentId
  execute session (.insertDepartment newId
    { name := payload.name
      parentId := payload.parentId
      sortOrder := payload.sortOrder
      remark := payload.remark
      createdBy := some actor.userId
      createDept := actor.departmentId
      updatedBy := some actor.userId
      isDeleted := false })

/-- The parent of a department in `all_depts`. -/
def parentIn (allDepts : List (DeptId × Department)) (cursor : DeptId) : Option DeptId :=
  (allDepts.lookup cursor).bind Department.parentId

/-- Whether the walk from the new parent meets the department. -/
def meets (allDepts : List (DeptId × Department)) (d newParent : DeptId) : Bool :=
  Forest.climbs (parentIn allDepts) d (allDepts.length + 2) (some newParent) []

def validateReparent (d : DeptId) (newParent : Option DeptId) : Service ι Unit :=
  match newParent with
  | none => pure ()
  | some q => do
    if q = d then
      throw (requestInvalid 400)
    else
      requireParentExists session (some q)
      let allDepts ← execute session .listAll
      if meets allDepts d q then
        throw (requestInvalid 400)
      else
        pure ()

/-- The parent of an update is validated if it is set. -/
def validateParentField (d : DeptId) (parentId : Option (Option DeptId)) : Service ι Unit :=
  match parentId with
  | none => pure ()
  | some newParent => validateReparent session d newParent

def updateDepartment (d : DeptId) (payload : DepartmentUpdate) (actor : AuthenticatedUser) :
    Service ι Unit := do
  let _ ← requireDepartment session d
  validateParentField session d payload.parentId
  execute session (.updateDepartment d payload actor.userId)

/-- The checks under the lock; `false` if the department must stay. -/
def isEmpty (d : DeptId) : Service ι Bool := do
  if ← execute session (.hasActiveChildren d) then
    pure false
  else
    let members ← execute session (.hasActiveMembers d)
    pure (!members)

def deleteDepartment (d : DeptId) (actor : AuthenticatedUser) : Service ι Unit := do
  let _ ← requireDepartment session d
  match ← execute session (.getForUpdate d) with
  | none => throw (requestInvalid 404)
  | some _ =>
    if ← isEmpty session d then
      execute session (.softDelete d actor.userId)
    else
      throw (requestInvalid 400)

/-- One round of `batch_delete_departments`: the count of the deleted and the skipped ids. -/
def batchRound (actor : AuthenticatedUser) (done : Nat × List DeptId) (d : DeptId) :
    Service ι (Nat × List DeptId) := do
  match ← execute session (.getForUpdate d) with
  | none => pure (done.1, done.2 ++ [d])
  | some _ =>
    if ← isEmpty session d then
      execute session (.softDelete d actor.userId)
      pure (done.1 + 1, done.2)
    else
      pure (done.1, done.2 ++ [d])

/-- `list(dict.fromkeys(ids))`. -/
def fromKeys (ids : List DeptId) : List DeptId :=
  ids.foldl (fun keys d => if d ∈ keys then keys else keys ++ [d]) []

def batchDeleteDepartments (ids : List DeptId) (actor : AuthenticatedUser) :
    Service ι BatchResult := do
  let requestedIds := fromKeys ids
  let done ← requestedIds.foldlM (batchRound session actor) (0, [])
  pure ⟨requestedIds.length, done.1, done.2⟩

/-! ### Users -/

/-- The checks on names, roles and the password. -/
def otherChecks : Service ι Unit := do
  let r ← execute session .otherChecks
  Raising.ofExcept .app r

def validateDepartment (departmentId : Option DeptId) : Service ι Unit :=
  requireParentExists session departmentId

/-- The department of an update is validated if it is set. -/
def validateDepartmentField (departmentId : Option (Option DeptId)) : Service ι Unit :=
  match departmentId with
  | none => pure ()
  | some departmentId => validateDepartment session departmentId

def createUser (newId : UserId) (payload : UserCreate) (actor : AuthenticatedUser) :
    Service ι Unit := do
  otherChecks session
  validateDepartment session payload.departmentId
  otherChecks session
  execute session (.insertUser newId
    { departmentId := payload.departmentId, updatedBy := some actor.userId, isDeleted := false })

def updateUser (u : UserId) (payload : UserUpdate) (actor : AuthenticatedUser) :
    Service ι Unit := do
  match ← execute session (.getUser u) with
  | none => throw (requestInvalid 404)
  | some _ =>
    otherChecks session
    validateDepartmentField session payload.departmentId
    execute session (.updateUser u payload actor.userId)
    otherChecks session

/-! ## Transactions -/

/-- The transaction is committed when the body returns and rolled back when it or the commit
raises. -/
def unitOfWork {α : Type} (body : Service ι α) : Service ι Unit :=
  tryCatch
    (do
      let _ ← body
      execute session .commit)
    fun e => do
      execute session .rollback
      throw e

inductive Call
  | createDepartment (newId : DeptId) (payload : DepartmentCreate)
  | updateDepartment (d : DeptId) (payload : DepartmentUpdate)
  | deleteDepartment (d : DeptId)
  | batchDeleteDepartments (ids : List DeptId)
  | createUser (newId : UserId) (payload : UserCreate)
  | updateUser (u : UserId) (payload : UserUpdate)

/-- A call by an actor. -/
structure Request where
  actor : AuthenticatedUser
  call : Call

def Request.prog (request : Request) : Service ι Unit :=
  unitOfWork session <|
    match request.call with
    | .createDepartment newId payload => createDepartment session newId payload request.actor
    | .updateDepartment d payload => updateDepartment session d payload request.actor
    | .deleteDepartment d => deleteDepartment session d request.actor
    | .batchDeleteDepartments ids => do
      let _ ← batchDeleteDepartments session ids request.actor
    | .createUser newId payload => createUser session newId payload request.actor
    | .updateUser u payload => updateUser session u payload request.actor

abbrev Requests (ι : Type) := Pool ι (ι × Stmt) Resp (Except ServiceError Unit) (State ι)

/-- Requests that have not begun, each with a session of its own. -/
def Requests.start (db : Database) (request : ι → Request) : Requests ι :=
  Pool.start (Rows.start db) fun i => ((request i).prog i).run

/-! ## Consistency -/

/-- An active department. -/
def Active (db : Database) (d : DeptId) : Prop :=
  ∃ row, db (.dept d) = some row ∧ row.isDeleted = false

/-- The parent of an active department. -/
def up (db : Database) (d : DeptId) : Option DeptId :=
  ((db (.dept d)).filter fun row => !row.isDeleted).bind Department.parentId

/-- A forest of active departments, with active users in active departments. -/
structure Consistent (db : Database) : Prop where
  parents : ∀ d q, up db d = some q → Active db q
  members : ∀ u row d, db (.user u) = some row → row.isDeleted = false →
    row.departmentId = some d → Active db d
  acyclic : Forest.Acyclic (up db)

end Departments
