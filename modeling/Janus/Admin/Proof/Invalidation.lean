import Janus.Admin.Proof.Changes
import Janus.Auth.Proof.PermCache

/-!
# Permission snapshots are invalidated

* `Accepted.covers`: an operation that changes the codes of a user registers a hook that bumps a
  generation of the user's snapshots.
* `Linked`: the links name rows. Every operation keeps it, and a new row is then in no link.
-/

set_option autoImplicit false

namespace Rbac

open Departments (UserId)
open PermCache (Hook)

/-! ## Users whose codes stay -/

section

variable {db db' : Database} {u : UserId} {r : RoleId} {m : MenuId}

/-- The two queries answer the same. -/
def Unaffected (db db' : Database) (u : UserId) : Prop :=
  db'.listPermissionCodes u = db.listPermissionCodes u ∧
    db'.listActiveRoleCodes u = db.listActiveRoleCodes u

/-- The role confers the same codes under the same code of its own. -/
def SameRole (db db' : Database) (r : RoleId) : Prop :=
  db'.roleCodes r = db.roleCodes r ∧
    (db'.activeRole r).map Role.code = (db.activeRole r).map Role.code

theorem unaffected_of (hholds : ∀ r, (u, r) ∈ db'.userRoles ↔ (u, r) ∈ db.userRoles)
    (hroles : ∀ r, (u, r) ∈ db.userRoles → SameRole db db' r) : Unaffected db db' u := by
  have hpermissions : db'.permissions.effective u = db.permissions.effective u := by
    refine Access.Grants.effective_congr hholds fun r hr => ?_
    unfold Database.permissions
    dsimp only
    rw [(hroles r hr).1]
  have hmarks : db'.roleMarks.effective u = db.roleMarks.effective u := by
    refine Access.Grants.effective_congr hholds fun r hr => ?_
    unfold Database.roleMarks
    dsimp only
    rw [(hroles r hr).2]
  constructor
  · ext code
    rw [Database.mem_listPermissionCodes, Database.mem_listPermissionCodes, hpermissions]
  · ext code
    rw [Database.mem_listActiveRoleCodes, Database.mem_listActiveRoleCodes, hmarks]

theorem sameRole_of (hactive : (db'.activeRole r).map Role.code = (db.activeRole r).map Role.code)
    (hlinks : ∀ m, (r, m) ∈ db'.roleMenus ↔ (r, m) ∈ db.roleMenus)
    (hmenus : ∀ m, (r, m) ∈ db.roleMenus → db'.menuCodes m = db.menuCodes m) :
    SameRole db db' r := by
  refine ⟨?_, hactive⟩
  have hsome : (db'.activeRole r).isSome = (db.activeRole r).isSome := by
    simpa using congrArg Option.isSome hactive
  ext code
  rw [Database.mem_roleCodes, Database.mem_roleCodes, hsome]
  refine and_congr_right fun _ => exists_congr fun m => ?_
  rw [hlinks m]
  exact and_congr_right fun hlink => by rw [hmenus m hlink]

theorem activeRole_setRole_ne {r' : RoleId} {row : Role} (h : r' ≠ r) :
    (db.setRole r row).activeRole r' = db.activeRole r' := by
  unfold Database.activeRole
  rw [Database.role_setRole, if_neg h]

theorem menuCodes_setMenu_ne {m' : MenuId} {row : Menu} (h : m' ≠ m) :
    (db.setMenu m row).menuCodes m' = db.menuCodes m' := by
  unfold Database.menuCodes Database.activeMenu
  rw [Database.menu_setMenu, if_neg h]

end

/-! ## The operations -/

/-- The id that a new row gets is in no link yet. -/
structure Operation.Fresh (op : Operation) (db : Database) : Prop where
  role : ∀ r, op.newRoleId = some r → r ∉ db.roles → ∀ u, (u, r) ∉ db.userRoles
  menu : ∀ m, op.newMenuId = some m → m ∉ db.menus → ∀ r, (r, m) ∉ db.roleMenus

/-- The hooks bump a generation of the user's snapshots. -/
def Covers (hooks : List Hook) (u : UserId) : Prop := ∃ hook ∈ hooks, hook.genKey.Covers u

section

variable {actor : AuthenticatedUser} {op : Operation} {db db' : Database} {hooks : List Hook}
  {u : UserId}

theorem covers_all (h : .invalidateAll ∈ hooks) : Covers hooks u := ⟨_, h, .inl rfl⟩

theorem covers_user (h : .invalidateUser u ∈ hooks) : Covers hooks u := ⟨_, h, .inr rfl⟩

theorem Change.covers (h : Change actor op db db' hooks) (hfresh : op.Fresh db)
    (hu : u ∈ db.users) : Unaffected db db' u ∨ Covers hooks u := by
  cases h with
  | users users hooks => exact .inl ⟨rfl, rfl⟩
  | @assigns users u' roleIds hooks hactive hguard hinvalidates =>
    by_cases hsame : u = u'
    · subst hsame
      exact .inr (covers_user (hinvalidates.resolve_left (not_not.2 hu)))
    · refine .inl (unaffected_of (fun r => ?_) fun r _ => ⟨rfl, rfl⟩)
      rw [Database.mem_replaceRoles, if_neg hsame]
  | @removes users roles db' hooks revoked hremoves =>
    by_cases hmember : u ∈ users
    · exact .inr (covers_user ((hremoves.hooks _).2 (.inr (.inl ⟨u, hmember, rfl⟩))))
    · rcases roles.eq_empty_or_nonempty with rfl | hnonempty
      · have hroles : db'.roles = db.roles := hremoves.roleRows.eq_of_empty
        have hlinks (r : RoleId) (m : MenuId) :
            (r, m) ∈ db'.roleMenus ↔ (r, m) ∈ db.roleMenus := by
          simpa using hremoves.roleMenus (r, m)
        refine .inl (unaffected_of (fun r => ?_) fun r _ => sameRole_of ?_ (hlinks r) fun m _ => ?_)
        · simpa [hmember] using hremoves.userRoles (u, r)
        · unfold Database.activeRole Database.role
          rw [hroles]
        · unfold Database.menuCodes Database.activeMenu Database.menu
          rw [show db'.menus = db.menus from hremoves.menus]
      · exact .inr (covers_all ((hremoves.hooks _).2 (.inr (.inr ⟨hnonempty, rfl⟩))))
  | @role r row menuIds hooks hmenus hguard hinvalidates =>
    have hother (r' : RoleId) (hne : r' ≠ r) :
        SameRole db ((db.setRole r row).replaceMenus r menuIds) r' := by
      refine sameRole_of ?_ (fun m => ?_) fun m _ => rfl
      · exact congrArg _ (activeRole_setRole_ne hne)
      · rw [Database.mem_replaceMenus, if_neg hne]
        rfl
    rcases hinvalidates with ⟨hnew, hrow⟩ | hall | ⟨rfl, hactive⟩
    · refine .inl (unaffected_of (fun _ => Iff.rfl) fun r' hr' => hother r' ?_)
      rintro rfl
      exact hfresh.role _ hnew hrow u hr'
    · exact .inr (covers_all hall)
    · refine .inl (unaffected_of (fun _ => Iff.rfl) fun r' _ => ?_)
      by_cases hne : r' = r
      · subst hne
        refine sameRole_of hactive (fun m => ?_) fun m _ => rfl
        rw [Database.mem_replaceMenus, if_pos rfl, Database.mem_listMenuIds]
      · exact hother r' hne
  | @menu m row hooks hguard hinvalidates =>
    have hrole (r : RoleId) (hcodes : (r, m) ∈ db.roleMenus →
        (db.setMenu m row).menuCodes m = db.menuCodes m) : SameRole db (db.setMenu m row) r := by
      refine sameRole_of rfl (fun _ => Iff.rfl) fun m' hlink => ?_
      by_cases hne : m' = m
      · subst hne
        exact hcodes hlink
      · exact menuCodes_setMenu_ne hne
    rcases hinvalidates with ⟨hnew, hrow⟩ | hall | hsame
    · refine .inl (unaffected_of (fun _ => Iff.rfl) fun r _ => hrole r fun hlink => ?_)
      exact absurd hlink (hfresh.menu m hnew hrow r)
    · exact .inr (covers_all hall)
    · exact .inl (unaffected_of (fun _ => Iff.rfl) fun r _ => hrole r fun _ => hsame)
  | @removesMenus menus hooks hrows hkeys =>
    refine .inl (unaffected_of (fun _ => Iff.rfl) fun r _ => ?_)
    refine sameRole_of rfl (fun _ => Iff.rfl) fun m hlink => ?_
    unfold Database.menuCodes Database.activeMenu Database.menu
    rw [hrows r m hlink]

/-- An accepted operation that changes what a user may do registers a hook that bumps a generation
of the user's snapshots. -/
theorem invalidation_complete (h : Accepted actor op db db' hooks) (hfresh : op.Fresh db)
    (hu : u ∈ db.users) (hchanged : db'.listPermissionCodes u ≠ db.listPermissionCodes u ∨
      db'.listActiveRoleCodes u ≠ db.listActiveRoleCodes u) :
    ∃ hook ∈ hooks, hook.genKey.Covers u := by
  rcases h.change.covers hfresh hu with ⟨hcodes, hmarks⟩ | hcovers
  · exact absurd hchanged (not_or.2 ⟨not_not.2 hcodes, not_not.2 hmarks⟩)
  · exact hcovers

end

/-- User 1 has a code through role 2. -/
def holder : Database where
  users := Finmap.singleton 1 { username := "ann", employeeNo := "1" }
  departments := ∅
  roles := Finmap.singleton 2 { name := "Editors", code := "editor" }
  menus := Finmap.singleton 3
    { name := "Edit", menuType := .button, perms := some "system:menu:edit" }
  userRoles := {(1, 2)}
  roleMenus := {(2, 3)}

def admin : AuthenticatedUser where
  userId := 0
  permissions := {"system:menu:edit"}

theorem deleteRole_holder : ∃ db' hooks, Accepted admin (.deleteRole 2) holder db' hooks ∧
    db'.listPermissionCodes 1 = ∅ := by
  refine ⟨_, _, ⟨_, rfl⟩, ?_⟩
  decide

theorem invalidation_complete_delete : ∃ db' hooks,
    Accepted admin (.deleteRole 2) holder db' hooks ∧ ∃ hook ∈ hooks, hook.genKey.Covers 1 := by
  obtain ⟨db', hooks, haccepted, hempty⟩ := deleteRole_holder
  refine ⟨db', hooks, haccepted, invalidation_complete haccepted ⟨nofun, nofun⟩ (by decide) ?_⟩
  rw [hempty]
  exact .inl (by decide)

/-! ### Links name rows -/

/-- The links of a role or a menu that is not there are none. -/
structure Linked (db : Database) : Prop where
  roles : ∀ u r, (u, r) ∈ db.userRoles → r ∈ db.roles
  menus : ∀ r m, (r, m) ∈ db.roleMenus → m ∈ db.menus

section

variable {actor : AuthenticatedUser} {op : Operation} {db db' : Database} {hooks : List Hook}

theorem Linked.fresh (h : Linked db) : op.Fresh db where
  role r _ hnew u hlink := hnew (h.roles u r hlink)
  menu m _ hnew r hlink := hnew (h.menus r m hlink)

theorem mem_roles_of_activeRole {r : RoleId} (h : (db.activeRole r).isSome) : r ∈ db.roles := by
  obtain ⟨row, hrow, -⟩ := Database.isSome_activeRole.1 h
  exact Finmap.mem_of_lookup_eq_some (Option.filter_eq_some_iff.1 hrow).1

theorem mem_menus_of_menu {m : MenuId} (h : (db.menu m).isSome) : m ∈ db.menus := by
  obtain ⟨row, hrow⟩ := Option.isSome_iff_exists.1 h
  exact Finmap.mem_of_lookup_eq_some (Option.filter_eq_some_iff.1 hrow).1

theorem Flags.mem_iff {V : Type} {x : Audit V} {ids : Set Int} {table table' : Sql.Table Int V}
    (h : Flags x ids table table') (id : Int) : id ∈ table' ↔ id ∈ table := by
  rw [← Finmap.lookup_isSome, ← Finmap.lookup_isSome]
  by_cases hid : id ∈ ids
  · have hsome := congrArg Option.isSome (h.flagged id hid)
    simp only [Option.isSome_map] at hsome
    rw [hsome]
  · rw [h.kept id hid]

/-- The services remove no row and link only rows that they have found. -/
theorem Change.linked (h : Change actor op db db' hooks) (hlinked : Linked db) : Linked db' := by
  cases h with
  | users users hooks => exact ⟨hlinked.roles, hlinked.menus⟩
  | @assigns users u roleIds hooks hactive hguard hinvalidates =>
    refine ⟨fun u' r hlink => ?_, hlinked.menus⟩
    rw [Database.mem_replaceRoles] at hlink
    split at hlink
    · exact mem_roles_of_activeRole (hactive r hlink)
    · exact hlinked.roles u' r hlink
  | @removes users roles db' hooks revoked hremoves =>
    refine ⟨fun u r hlink => ?_, fun r m hlink => ?_⟩
    · exact (hremoves.roleRows.mem_iff r).2 (hlinked.roles u r ((hremoves.userRoles _).1 hlink).1)
    · rw [show db'.menus = db.menus from hremoves.menus]
      exact hlinked.menus r m ((hremoves.roleMenus _).1 hlink).1
  | @role r row menuIds hooks hmenus hguard hinvalidates =>
    refine ⟨fun u r' hlink => Finmap.mem_insert.2 (.inr (hlinked.roles u r' hlink)), fun r' m hlink => ?_⟩
    rw [Database.mem_replaceMenus] at hlink
    split at hlink
    · rcases hmenus m hlink with hsome | hold
      · exact mem_menus_of_menu hsome
      · exact hlinked.menus r m hold
    · exact hlinked.menus r' m hlink
  | @menu m row hooks hguard hinvalidates =>
    exact ⟨hlinked.roles, fun r m' hlink => Finmap.mem_insert.2 (.inr (hlinked.menus r m' hlink))⟩
  | @removesMenus menus hooks hrows hkeys =>
    exact ⟨hlinked.roles, fun r m hlink => hkeys m (hlinked.menus r m hlink)⟩

theorem Accepted.linked (h : Accepted actor op db db' hooks) (hlinked : Linked db) : Linked db' :=
  h.change.linked hlinked

end

end Rbac
