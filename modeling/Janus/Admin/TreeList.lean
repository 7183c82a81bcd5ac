import Mathlib.Data.Finset.Sort
import Mathlib.Data.Prod.Lex
import Janus.Admin.Menus
import Janus.Python.Str

/-!
# Lists of departments and menus (`list_departments`, `list_menus`)

Both services read all rows that are not deleted, in the order of their trees, and keep those that
match a keyword with everything above them. The walks up are written separately: that of the
departments tests a row when it comes to it, that of the menus before it goes on to it. `str.casefold`
and `str.lower` are parameters.

* `orderedRows`: the answer of `list_all`.
* `includeAncestors`, `listDepartments`: `DepartmentService.list_departments`.
* `includeParents`, `filterWithAncestors`, `listMenus`: `MenuService.list_menus`.
-/

set_option autoImplicit false

namespace Rbac

open Sql
open Departments (DeptId Department)

/-- The rows that are not deleted, by `sort_order` and id. -/
def orderedRows {V : Type} (isDeleted : V → Bool) (sortOrder : V → Int) (table : Table Int V) :
    List (Int × V) :=
  let order (id : Int) : Int ×ₗ Int := toLex (((table.lookup id).map sortOrder).getD 0, id)
  ((table.keys.image order).sort (· ≤ ·)).filterMap fun key =>
    ((table.lookup (ofLex key).2).filter fun row => !isDeleted row).map fun row =>
      ((ofLex key).2, row)

def Database.listAllDepartments (db : Database) : List (DeptId × Department) :=
  orderedRows Department.isDeleted Department.sortOrder db.departments

def Database.listAllMenus (db : Database) : List (MenuId × Menu) :=
  orderedRows Menu.isDeleted Menu.sortOrder db.menus

/-- A walk that goes on has fewer rows ahead. -/
theorem unseen_lt_of_lookup {V : Type} {rows : List (Int × V)} {seen : Finset Int} {id : Int}
    {row : V} (hrow : rows.lookup id = some row) (hnew : id ∉ seen) :
    ((rows.map Prod.fst).toFinset \ insert id seen).card <
      ((rows.map Prod.fst).toFinset \ seen).card := by
  have hmem : id ∈ (rows.map Prod.fst).toFinset := by
    rw [List.mem_toFinset]
    exact List.mem_map_of_mem (f := Prod.fst) (mem_of_lookup hrow)
  rw [Finset.sdiff_insert]
  exact Finset.card_erase_lt_of_mem (Finset.mem_sdiff.2 ⟨hmem, hnew⟩)

/-! ## Departments -/

/-- The walk from a department that matches: a department is included when the walk comes to it. -/
def includeAncestors (allDepts : List (DeptId × Department)) (cursor : Option DeptId)
    (seen included : Finset DeptId) : Finset DeptId :=
  match cursor with
  | none => included
  | some id =>
    if _hseen : id ∈ seen then included
    else
      match _hrow : allDepts.lookup id with
      | none => included
      | some current =>
        includeAncestors allDepts current.parentId (insert id seen) (insert id included)
termination_by ((allDepts.map Prod.fst).toFinset \ seen).card
decreasing_by exact unseen_lt_of_lookup _hrow _hseen

def departmentMatches (casefold : String → String) (needle : String) (dept : Department) : Bool :=
  Python.contains needle (casefold dept.name)

def filterDepartments (casefold : String → String) (needle : String)
    (departments : List (DeptId × Department)) : List (DeptId × Department) :=
  let includedIds := departments.foldl (fun included dept =>
    if departmentMatches casefold needle dept.2 then
      includeAncestors departments (some dept.1) ∅ included
    else included) ∅
  departments.filter fun dept => dept.1 ∈ includedIds

def listDepartments (casefold : String → String) (keyword : Option String) :
    Service (List (DeptId × Department)) := do
  let departments ← query Database.listAllDepartments
  match keyword with
  | none => pure departments
  | some keyword => pure (filterDepartments casefold (casefold keyword) departments)

/-! ## Menus -/

/-- The walk from a menu that matches: a parent is included before the walk goes on to it. -/
def includeParents (menusById : List (MenuId × Menu)) (cursor : Menu)
    (seenIds includedIds : Finset MenuId) : Finset MenuId :=
  match cursor.parentId with
  | none => includedIds
  | some parentId =>
    if _hseen : parentId ∈ seenIds then includedIds
    else
      match _hrow : menusById.lookup parentId with
      | none => includedIds
      | some parent =>
        includeParents menusById parent (insert parentId seenIds) (insert parentId includedIds)
termination_by ((menusById.map Prod.fst).toFinset \ seenIds).card
decreasing_by exact unseen_lt_of_lookup _hrow _hseen

def matchesKeyword (lower : String → String) (menu : Menu) (keyword : String) : Bool :=
  ([some menu.name, menu.perms, menu.path].filterMap id).any fun value =>
    Python.contains keyword (lower value)

def filterWithAncestors (lower : String → String) (allMenus : List (MenuId × Menu))
    (keyword : String) : List (MenuId × Menu) :=
  let includedIds := allMenus.foldl (fun included menu =>
    if matchesKeyword lower menu.2 keyword then
      includeParents allMenus menu.2 {menu.1} (insert menu.1 included)
    else included) ∅
  allMenus.filter fun menu => menu.1 ∈ includedIds

def listMenus (lower : String → String) (keyword : Option String) :
    Service (List (MenuId × Menu)) := do
  let allMenus ← query Database.listAllMenus
  let normalizedKeyword := (keyword.map fun keyword => lower (Python.strip keyword)).getD ""
  if normalizedKeyword = "" then pure allMenus
  else pure (filterWithAncestors lower allMenus normalizedKeyword)

end Rbac
