import Janus.Admin.TreeList

/-!
# Department requests that run alone

The statements of the department requests as functions on tables, for a session that has the
database to itself.

* `Solo.execute`: the statements.
* `Solo.run`: the run of a method.
-/

set_option autoImplicit false

namespace Departments

open Conc Janus Sql

structure Tables where
  departments : Table DeptId Department
  users : Table UserId User

namespace Tables

variable (t : Tables)

def row : Database
  | .dept d => t.departments.lookup d
  | .user u => t.users.lookup u

def department (d : DeptId) : Option Department :=
  (t.departments.lookup d).filter fun row => !row.isDeleted

def user (u : UserId) : Option User := (t.users.lookup u).filter fun row => !row.isDeleted

def hasActiveChildren (d : DeptId) : Bool :=
  decide (∃ c ∈ t.departments.keys, ((t.department c).any fun row => row.parentId = some d) = true)

def hasActiveMembers (d : DeptId) : Bool :=
  decide (∃ u ∈ t.users.keys, ((t.user u).any fun row => row.departmentId = some d) = true)

def setDepartment (d : DeptId) (row : Department) : Tables :=
  { t with departments := t.departments.insert d row }

def setUser (u : UserId) (row : User) : Tables := { t with users := t.users.insert u row }

end Tables

/-- A session: the tables before its transaction and in it, and what the checks on names, roles and
the password find. -/
structure Solo where
  committed : Tables
  current : Tables
  otherChecks : Except AppError Unit := .ok ()

namespace Solo

def write (x : Solo) (f : Tables → Tables) : Solo := { x with current := f x.current }

/-- An insert is refused if there is such a row. -/
def insert {V : Type} (x : Solo) (found : Option V) (f : Tables → Tables) :
    Except DatabaseError Unit × Solo :=
  match found with
  | none => (.ok (), x.write f)
  | some _ => (.error ⟨⟩, x)

/-- An update is refused if there is no such row. -/
def update {V : Type} (x : Solo) (found : Option V) (f : V → Tables → Tables) :
    Except DatabaseError Unit × Solo :=
  match found with
  | none => (.error ⟨⟩, x)
  | some row => (.ok (), x.write (f row))

def execute (x : Solo) : (st : Stmt) → Except DatabaseError st.Answer × Solo
  | .getDepartment d | .getForUpdate d => (.ok (x.current.department d), x)
  | .listAll =>
    (.ok (Rbac.orderedRows Department.isDeleted Department.sortOrder x.current.departments), x)
  | .hasActiveChildren d => (.ok (x.current.hasActiveChildren d), x)
  | .hasActiveMembers d => (.ok (x.current.hasActiveMembers d), x)
  | .insertDepartment d row =>
    x.insert (x.current.departments.lookup d) fun t => t.setDepartment d row
  | .updateDepartment d values updatedBy =>
    x.update (x.current.departments.lookup d) fun row t =>
      t.setDepartment d (row.set values updatedBy)
  | .softDelete d updatedBy =>
    x.update (x.current.departments.lookup d) fun row t =>
      t.setDepartment d { row with isDeleted := true, updatedBy := some updatedBy }
  | .getUser u => (.ok (x.current.user u), x)
  | .otherChecks => (.ok x.otherChecks, x)
  | .insertUser u row => x.insert (x.current.users.lookup u) fun t => t.setUser u row
  | .updateUser u values updatedBy =>
    x.update (x.current.users.lookup u) fun row t => t.setUser u (row.set values updatedBy)
  | .commit => (.ok (), { x with committed := x.current })
  | .rollback => (.ok (), { x with current := x.committed })

def answer (c : Unit × Stmt) (x : Solo) : Resp c × Solo := x.execute c.2

/-- The run of a method. -/
def run {α : Type} (x : Solo) (p : Service Unit α) : Except ServiceError α × Solo :=
  p.run.eval answer x

end Solo

end Departments
