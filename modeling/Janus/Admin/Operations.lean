import Janus.Admin.Menus
import Janus.Admin.Roles
import Janus.Admin.Users

/-!
# The operations of the admin services

`Operation`: a call of one of the methods that write roles, menus and users. `Accepted`: the call
has been answered without an exception, and is committed with the hooks that it registered.
-/

set_option autoImplicit false

namespace Rbac

open Sql
open Departments (UserId)

inductive Operation
  | createRole (newId : RoleId) (payload : RoleCreate)
  | updateRole (r : RoleId) (payload : RoleUpdate)
  | deleteRole (r : RoleId)
  | batchDeleteRoles (ids : List RoleId)
  | createMenu (newId : MenuId) (payload : MenuCreate)
  | updateMenu (m : MenuId) (payload : MenuUpdate)
  | deleteMenu (m : MenuId)
  | batchDeleteMenus (ids : List MenuId)
  | createUser (security : Security) (newId : UserId) (payload : UserCreate)
  | updateUser (security : Security) (u : UserId) (payload : UserUpdate)
  | resetPassword (security : Security) (u : UserId) (newPassword : String)
  | deleteUser (u : UserId)
  | batchDeleteUsers (ids : List UserId)

/-- The method, without its answer. -/
def Operation.run (actor : AuthenticatedUser) : Operation → Service Unit
  | createRole newId payload => do
    let _ ← Rbac.createRole newId payload actor
  | updateRole r payload => do
    let _ ← Rbac.updateRole r payload actor
  | deleteRole r => Rbac.deleteRole r actor
  | batchDeleteRoles ids => do
    let _ ← Rbac.batchDeleteRoles ids actor
  | createMenu newId payload => do
    let _ ← Rbac.createMenu newId payload actor
  | updateMenu m payload => do
    let _ ← Rbac.updateMenu m payload actor
  | deleteMenu m => Rbac.deleteMenu m actor
  | batchDeleteMenus ids => do
    let _ ← Rbac.batchDeleteMenus ids actor
  | createUser security newId payload => do
    let _ ← Rbac.createUser security newId payload actor
  | updateUser security u payload => do
    let _ ← Rbac.updateUser security u payload actor
  | resetPassword security u newPassword => Rbac.resetPassword security u newPassword actor
  | deleteUser u => Rbac.deleteUser u actor
  | batchDeleteUsers ids => do
    let _ ← Rbac.batchDeleteUsers ids actor

/-- The request is accepted, and its transaction committed with these hooks. -/
def Accepted (actor : AuthenticatedUser) (op : Operation) (db db' : Database)
    (hooks : List PermCache.Hook) : Prop :=
  ∃ revoked, (op.run actor).Accepts { db } () { db := db', hooks, revoked }

end Rbac
