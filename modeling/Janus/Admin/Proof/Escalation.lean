import Mathlib.Logic.Relation
import Janus.Admin.Proof.Changes

/-!
# No escalation through roles, menus and users

* `Change.bounded`, `Change.superadmin`: what one accepted operation of an actor that is no
  superadmin gives to users. Beyond the actor's own permissions these are the codes of disabled
  menus that it makes active (`Operation.gains`).
* `contained_iff`: runs without such a gain are contained, and the first gain that matters is not.
* `reactivated_menu`: two requests that give the actor a code.
-/

set_option autoImplicit false

namespace Rbac

open Departments (UserId)
open PermCache (Hook)

/-! ## One operation -/

/-- The codes that a user gains from a disabled menu that an operation makes active. -/
def Operation.gains (op : Operation) (db : Database) (u : UserId) : Set String :=
  {code | ∃ r m, (u, r) ∈ db.userRoles ∧ (db.activeRole r).isSome ∧ (r, m) ∈ db.roleMenus ∧
    code ∈ op.enables db m}

section

variable {actor : AuthenticatedUser} {op : Operation} {db db' : Database} {hooks : List Hook}
  {u : UserId}

theorem role_of_activeRole {r : RoleId} {row : Role} (h : db.activeRole r = some row) :
    db.role r = some row := (Database.activeRole_eq_some.1 h).1

/-- An operation does not touch the roles that carry the mark, nor who holds them. -/
theorem Change.superadmin (h : Change actor op db db' hooks) (hactor : ¬ actor.isSuperuser)
    {r : RoleId} {row : Role} (hlink : (u, r) ∈ db'.userRoles) (hrow : db'.role r = some row)
    (hcode : row.code = superadminRoleCode) : (u, r) ∈ db.userRoles ∧ db.role r = some row := by
  cases h with
  | users users hooks => exact ⟨hlink, hrow⟩
  | @assigns users u' roleIds hooks hactive hguard hinvalidates =>
    refine ⟨?_, hrow⟩
    rw [Database.mem_replaceRoles] at hlink
    split at hlink
    · obtain ⟨row', hrow'⟩ := Option.isSome_iff_exists.1 (hactive r hlink)
      have hsame : some row = some row' := hrow.symm.trans (role_of_activeRole hrow')
      cases hsame
      exact absurd hcode ((hguard hactor r hlink).2 row hrow')
    · exact hlink
  | @removes users roles db' hooks revoked hremoves =>
    obtain ⟨hold, -, hkept⟩ := (hremoves.userRoles _).1 hlink
    refine ⟨hold, ?_⟩
    rw [← hrow]
    exact congrArg (Option.filter _) (hremoves.roleRows.kept r hkept).symm
  | @role r' row' menuIds hooks hmenus hguard hinvalidates =>
    refine ⟨hlink, ?_⟩
    have hset : (db.setRole r' row').role r = some row := hrow
    rw [Database.role_setRole] at hset
    split at hset
    · obtain ⟨hsame, -⟩ := Option.filter_eq_some_iff.1 hset
      cases hsame
      exact absurd hcode (hguard hactor).1
    · exact hset
  | menu hguard hinvalidates => exact ⟨hlink, hrow⟩
  | removesMenus hrows hkeys => exact ⟨hlink, hrow⟩

/-- Users gain codes of the actor and of the menus that become active. -/
theorem Change.bounded (h : Change actor op db db' hooks) (hactor : ¬ actor.isSuperuser) :
    Access.Grants.Bounded (fun u => {code | code ∈ actor.permissions} ∪ op.gains db u)
      db.permissions db'.permissions := by
  cases h with
  | users users hooks => exact .refl
  | @assigns users u' roleIds hooks hactive hguard hinvalidates =>
    refine Access.Grants.bounded_of fun u r hlink => ?_
    have hlink' : (u, r) ∈ ({ db with users }.replaceRoles u' roleIds).userRoles := hlink
    rw [Database.mem_replaceRoles] at hlink'
    split at hlink'
    · refine .inr fun code hcode => .inl ?_
      exact (hguard hactor r hlink').1 hcode
    · exact .inl ⟨hlink', Set.subset_union_left⟩
  | @removes users roles db' hooks revoked hremoves =>
    refine Access.Grants.bounded_of_le (fun u r hlink => ((hremoves.userRoles _).1 hlink).1)
      fun r code hcode => ?_
    have hmenus : db'.menus = db.menus := hremoves.menus
    obtain ⟨hactive, m, hlink, hcarried⟩ := Database.mem_roleCodes.1 hcode
    obtain ⟨hlink, hkept⟩ := (hremoves.roleMenus _).1 hlink
    refine Database.mem_roleCodes.2 ⟨?_, m, hlink, ?_⟩
    · have hrow : db'.roles.lookup r = db.roles.lookup r := hremoves.roleRows.kept r hkept
      unfold Database.activeRole Database.role at hactive ⊢
      rw [← hrow]
      exact hactive
    · unfold Database.menuCodes Database.activeMenu Database.menu at hcarried ⊢
      rw [← hmenus]
      exact hcarried
  | @role r' row' menuIds hooks hmenus hguard hinvalidates =>
    refine Access.Grants.bounded_of fun u r hlink => ?_
    by_cases hne : r = r'
    · subst hne
      refine .inr fun code hcode => .inl ?_
      obtain ⟨-, m, hlink, hcarried⟩ := Database.mem_roleCodes.1 hcode
      rw [Database.mem_replaceMenus, if_pos rfl] at hlink
      exact (hguard hactor).2 m hlink hcarried
    · refine .inl ⟨hlink, fun code hcode => .inl ?_⟩
      obtain ⟨hactive, m, hlink, hcarried⟩ := Database.mem_roleCodes.1 hcode
      rw [Database.mem_replaceMenus, if_neg hne] at hlink
      refine Database.mem_roleCodes.2 ⟨?_, m, hlink, hcarried⟩
      have hsame : (db.setRole r' row').activeRole r = db.activeRole r := by
        unfold Database.activeRole
        rw [Database.role_setRole, if_neg hne]
      rw [← hsame]
      exact hactive
  | @menu m row hooks hguard hinvalidates =>
    refine Access.Grants.bounded_of fun u r hlink => .inl ⟨hlink, fun code hcode => ?_⟩
    obtain ⟨hactive, m', hlinked, hcarried⟩ := Database.mem_roleCodes.1 hcode
    by_cases hne : m' = m
    · subst hne
      rcases hguard hactor code hcarried with hown | hold | hgain
      · exact .inr (.inl hown)
      · exact .inl (Database.mem_roleCodes.2 ⟨hactive, m', hlinked, hold⟩)
      · exact .inr (.inr ⟨r, m', hlink, hactive, hlinked, hgain⟩)
    · refine .inl (Database.mem_roleCodes.2 ⟨hactive, m', hlinked, ?_⟩)
      unfold Database.menuCodes Database.activeMenu at hcarried ⊢
      rw [Database.menu_setMenu, if_neg hne] at hcarried
      exact hcarried
  | @removesMenus menus hooks hrows hkeys =>
    refine Access.Grants.bounded_of_le (fun u r hlink => hlink) fun r code hcode => ?_
    obtain ⟨hactive, m, hlink, hcarried⟩ := Database.mem_roleCodes.1 hcode
    refine Database.mem_roleCodes.2 ⟨hactive, m, hlink, ?_⟩
    unfold Database.menuCodes Database.activeMenu Database.menu at hcarried ⊢
    rw [← hrows r m hlink]
    exact hcarried

/-- What a user gains with a menu, it has. -/
theorem Accepted.gains_subset (h : Accepted actor op db db' hooks) {code : String}
    (hgain : code ∈ op.gains db u) : code ∈ db'.listPermissionCodes u := by
  obtain ⟨r, m, hlink, hactive, hlinked, henabled⟩ := hgain
  cases op with
  | updateMenu m' payload =>
    obtain ⟨rfl, hstatus, hperms, old, hold, -, hcarried, hne⟩ := henabled
    obtain ⟨revoked, h⟩ := h
    obtain ⟨detail, h⟩ := accepts_answer h
    obtain ⟨old', hold', -, rfl, -⟩ := updateMenu_ok h
    cases hold.symm.trans hold'
    rw [Database.mem_listPermissionCodes]
    refine ⟨r, hlink, Database.mem_roleCodes.2 ⟨hactive, m, hlinked, ?_⟩⟩
    have hlive : old.isDeleted = false := menu_not_deleted hold
    refine mem_menuCodes_setMenu.2 ⟨hlive, ?_, ?_, hne⟩
    · simp [Menu.set, hstatus]
    · simp [Menu.set, hperms, hcarried]
  | _ => exact henabled.elim

end

/-! ## Runs -/

/-- The user is linked to a role with the mark, disabled or not. -/
def Database.HoldsSuperadmin (db : Database) (u : UserId) : Prop :=
  ∃ r row, (u, r) ∈ db.userRoles ∧ db.role r = some row ∧ row.code = superadminRoleCode

/-- Users have what they had and what is in `P`, and there is no new superadmin. -/
structure Contained (P : Finset String) (db₀ db : Database) : Prop where
  codes : ∀ u, db.listPermissionCodes u ⊆ db₀.listPermissionCodes u ∪ P
  marks : ∀ u, superadminRoleCode ∈ db.listActiveRoleCodes u →
    superadminRoleCode ∈ db₀.listActiveRoleCodes u
  superadmins : ∀ u, db.HoldsSuperadmin u → db₀.HoldsSuperadmin u

/-- A user gains a code outside `P` that it did not have in `db₀`, from a disabled menu that the
operation makes active. -/
def Operation.Escalates (op : Operation) (P : Finset String) (db₀ db : Database) : Prop :=
  ∃ u, ∃ code ∈ op.gains db u, code ∉ P ∧ code ∉ db₀.listPermissionCodes u

section

variable {actor : AuthenticatedUser} {op : Operation} {db₀ db db' : Database} {hooks : List Hook}
  {P : Finset String}

theorem Contained.refl : Contained P db db :=
  ⟨fun _ => Finset.subset_union_left, fun _ h => h, fun _ h => h⟩

/-- A run of operations of one actor, none of which escalates. -/
abbrev CarefulRun (actor : AuthenticatedUser) (db₀ : Database) : Database → Database → Prop :=
  Relation.ReflTransGen fun db db' =>
    ∃ op hooks, Accepted actor op db db' hooks ∧ ¬ op.Escalates actor.permissions db₀ db

theorem Contained.step (h : Contained actor.permissions db₀ db) (hactor : ¬ actor.isSuperuser)
    (haccepted : Accepted actor op db db' hooks)
    (hcareful : ¬ op.Escalates actor.permissions db₀ db) :
    Contained actor.permissions db₀ db' := by
  have hchange := haccepted.change
  refine ⟨fun u code hcode => ?_, fun u hmark => h.marks u ?_, fun u hholds => h.superadmins u ?_⟩
  · rw [Database.mem_listPermissionCodes] at hcode
    rcases hchange.bounded hactor u hcode with hold | hown | hgain
    · exact h.codes u (Database.mem_listPermissionCodes.2 hold)
    · exact Finset.mem_union_right _ hown
    · by_contra hnew
      rw [Finset.mem_union, not_or] at hnew
      exact hcareful ⟨u, code, hgain, hnew.2, hnew.1⟩
  · rw [Database.mem_listActiveRoleCodes] at hmark ⊢
    obtain ⟨r, hlink, hrow⟩ := hmark
    obtain ⟨row, hrow, hcode⟩ := Option.map_eq_some_iff.1 hrow
    obtain ⟨hrole, hactive⟩ := Database.activeRole_eq_some.1 hrow
    obtain ⟨hlink, hrole⟩ := hchange.superadmin hactor hlink hrole hcode
    refine ⟨r, hlink, ?_⟩
    exact Option.map_eq_some_iff.2 ⟨row, Database.activeRole_eq_some.2 ⟨hrole, hactive⟩, hcode⟩
  · obtain ⟨r, row, hlink, hrole, hcode⟩ := hholds
    obtain ⟨hlink, hrole⟩ := hchange.superadmin hactor hlink hrole hcode
    exact ⟨r, row, hlink, hrole, hcode⟩

theorem CarefulRun.contained (h : CarefulRun actor db₀ db₀ db) (hactor : ¬ actor.isSuperuser) :
    Contained actor.permissions db₀ db := by
  induction h with
  | refl => exact .refl
  | tail _ hstep ih =>
    obtain ⟨op, hooks, haccepted, hcareful⟩ := hstep
    exact ih.step hactor haccepted hcareful

/-- In every run none of whose operations escalates, users have what they had and what the actor
has; the first operation that escalates gives a user more. -/
theorem contained_iff (hactor : ¬ actor.isSuperuser) (h : CarefulRun actor db₀ db₀ db) :
    Contained actor.permissions db₀ db ∧ ∀ op db' hooks, Accepted actor op db db' hooks →
      (Contained actor.permissions db₀ db' ↔ ¬ op.Escalates actor.permissions db₀ db) := by
  have hcontained := h.contained hactor
  refine ⟨hcontained, fun op db' hooks haccepted => ⟨fun hafter => ?_, fun hcareful => ?_⟩⟩
  · rintro ⟨u, code, hgain, hnotin, hnothad⟩
    have hin := hafter.codes u (haccepted.gains_subset hgain)
    rcases Finset.mem_union.1 hin with hhad | hown
    · exact hnothad hhad
    · exact hnotin hown
  · exact hcontained.step hactor haccepted hcareful

end

/-! ## A disabled menu -/

def button (code : String) (status : ActiveStatus) : Menu where
  name := code
  menuType := .button
  perms := some code
  status := status

/-- User 1 edits roles and menus; nobody may delete users, and the menu for it is disabled. -/
def office : Database where
  users := Finmap.singleton 1 { username := "ann", employeeNo := "1" }
  departments := ∅
  roles := Finmap.singleton 2 { name := "Editors", code := "editor" }
  menus := ((Finmap.singleton 3 (button "system:role:edit" .active)).insert 4
    (button "system:menu:edit" .active)).insert 5 (button "system:user:remove" .disabled)
  userRoles := {(1, 2)}
  roleMenus := {(2, 3), (2, 4)}

def editor : AuthenticatedUser where
  userId := 1
  permissions := {"system:role:edit", "system:menu:edit"}
  roleCodes := {"editor"}

/-- The disabled menu is put on the own role. -/
def linkMenu : Operation := .updateRole 2 { menuIds := some [3, 4, 5] }

/-- The menu is enabled as it is. -/
def enableMenu : Operation := .updateMenu 5 { status := some .active }

theorem linkMenu_accepted : ∃ db hooks, Accepted editor linkMenu office db hooks ∧
    ∃ db' hooks', Accepted editor enableMenu db db' hooks' ∧
      "system:user:remove" ∈ db'.listPermissionCodes 1 := by
  refine ⟨_, _, ⟨_, rfl⟩, _, _, ⟨_, rfl⟩, ?_⟩
  decide

theorem linkMenu_careful : ¬ linkMenu.Escalates editor.permissions office office := by
  rintro ⟨u, code, ⟨r, m, -, -, -, henabled⟩, -⟩
  exact henabled

theorem contained_iff_linked : ∃ db hooks, Accepted editor linkMenu office db hooks ∧
    (Contained editor.permissions office db ∧ ∀ op db' hooks, Accepted editor op db db' hooks →
      (Contained editor.permissions office db' ↔ ¬ op.Escalates editor.permissions office db)) := by
  obtain ⟨db, hooks, haccepted, -⟩ := linkMenu_accepted
  refine ⟨db, hooks, haccepted, contained_iff (by decide) (.single ?_)⟩
  exact ⟨linkMenu, hooks, haccepted, linkMenu_careful⟩

/-- Two accepted operations give user 1 a code that it did not have. -/
theorem reactivated_menu : ∃ db, ¬ editor.isSuperuser ∧
    Relation.ReflTransGen (fun db db' => ∃ op hooks, Accepted editor op db db' hooks) office db ∧
      ¬ Contained editor.permissions office db := by
  obtain ⟨db, hooks, hlink, db', hooks', henable, hcode⟩ := linkMenu_accepted
  refine ⟨db', by decide, ?_, fun hcontained => ?_⟩
  · exact .tail (.single ⟨linkMenu, hooks, hlink⟩) ⟨enableMenu, hooks', henable⟩
  · exact absurd (hcontained.codes 1 hcode) (by decide)

end Rbac
