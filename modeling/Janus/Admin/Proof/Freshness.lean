import Janus.Admin.Proof.Invalidation
import Janus.Admin.Proof.Superadmins
import Janus.Auth.Proof.Settled

/-!
# From an admin request to the next permission check

Admin requests and snapshot readers run together. Every commit is of an accepted request, whose
hooks cover the users whose codes it changes, so a snapshot that is read once the requests have been
answered holds the codes of the tables as they are from then on (`snapshot_fresh`).
-/

set_option autoImplicit false

namespace Rbac

open Conc Versioned
open Departments (UserId)
open PermCache (Cmd Resp GenKey SnapshotKey Cached PermissionSnapshot CoversUser)

/-- The rows that say who may do what are the same. -/
structure Apart (db db' : Database) : Prop where
  users : ∀ u ∈ db.users, u ∈ db'.users
  roles : db'.roles = db.roles
  menus : db'.menus = db.menus
  userRoles : db'.userRoles = db.userRoles
  roleMenus : db'.roleMenus = db.roleMenus

theorem Apart.unaffected {db db' : Database} (h : Apart db db') (u : UserId) :
    Unaffected db db' u := by
  unfold Unaffected Database.listPermissionCodes Database.listActiveRoleCodes Database.roleCodes
    Database.listRoleIds Database.listMenuIds Database.menuCodes Database.activeMenu Database.menu
    Database.activeRole Database.role
  rw [h.roles, h.menus, h.userRoles, h.roleMenus]
  exact ⟨rfl, rfl⟩

theorem Apart.linked {db db' : Database} (h : Apart db db') (hlinked : Linked db) : Linked db' where
  roles u r hlink := by
    rw [h.roles]
    exact hlinked.roles u r (h.userRoles ▸ hlink)
  menus r m hlink := by
    rw [h.menus]
    exact hlinked.menus r m (h.roleMenus ▸ hlink)

section

variable {ι : Type} [DecidableEq ι] {tasks : ι → PermCache.Task Database}
  {s₀ : Sys Database GenKey SnapshotKey fun _ => Cached}
  {P₁ P₂ : Pool ι (Cmd Database) Resp (Option PermissionSnapshot)
    (Sys Database GenKey SnapshotKey fun _ => Cached)} {u : UserId}

/-- Each commit of the run is of a request that is accepted on the tables it commits on, or it
leaves the rows that say who may do what. -/
def Admitted (tasks : ι → PermCache.Task Database) (s : Sys Database GenKey SnapshotKey fun _ => Cached)
    (l : Log ι (Cmd Database) Resp) : Prop :=
  ∀ w change hooks v db, tasks w = .mutate change hooks → Committed l w (v + 1) → s.Had v db →
    (∃ actor op, Accepted actor op db (change db) hooks) ∨ Apart db (change db)

/-- In every version links name rows, and the user is there. -/
theorem Admitted.linked (h₁ : Pool.Reach (sem rbac.answer) evict
      (Pool.start s₀ fun i => (tasks i).prog) P₁) (hpast : s₀.past = [])
    (hadmitted : Admitted tasks P₁.shared P₁.log) (hlinked : Linked s₀.current)
    (hu : u ∈ s₀.current.users) {v : Nat} {db : Database} (hd : P₁.shared.Had v db) :
    Linked db ∧ u ∈ db.users := by
  induction v generalizing db with
  | zero =>
    have hfirst : s₀.Had 0 s₀.current := by simp [Sys.Had, hpast]
    rw [Sys.Had.unique hd (had_reach h₁ hfirst)]
    exact ⟨hlinked, hu⟩
  | succ v ih =>
    obtain ⟨old, hold⟩ := Sys.exists_had (Nat.le_of_succ_le hd.le)
    obtain ⟨hlinked', hu'⟩ := ih hold
    obtain ⟨w, change, hooks, hwriter, hcommit, rfl⟩ :=
      commit_own (fun i => (tasks i).follows_writes) h₁ hpast hold hd
    change (tasks w).writer = _ at hwriter
    cases htask : tasks w with
    | load u =>
      rw [htask] at hwriter
      cases hwriter
    | mutate change' hooks' =>
      rw [htask] at hwriter
      cases hwriter
      rcases hadmitted w change hooks' v old htask hcommit hold with
        ⟨actor, op, haccepted⟩ | hapart
      · exact ⟨haccepted.linked hlinked', haccepted.respects.kept u hu'⟩
      · exact ⟨hapart.linked hlinked', hapart.users u hu'⟩

/-- Each commit that changes the codes of the user comes with a hook that covers the user. -/
theorem Admitted.covers (h₁ : Pool.Reach (sem rbac.answer) evict
      (Pool.start s₀ fun i => (tasks i).prog) P₁) (hpast : s₀.past = [])
    (hadmitted : Admitted tasks P₁.shared P₁.log) (hlinked : Linked s₀.current)
    (hu : u ∈ s₀.current.users) : CoversUser rbac tasks P₁.shared P₁.log u := by
  intro w change hooks v db htask hcommit hd
  obtain ⟨hlinked', hu'⟩ := hadmitted.linked h₁ hpast hlinked hu hd
  rcases hadmitted w change hooks v db htask hcommit hd with ⟨actor, op, haccepted⟩ | hapart
  · exact haccepted.change.covers hlinked'.fresh hu'
  · exact .inl (hapart.unaffected u)

/-- A snapshot that is read from a moment on at which every admin request that has committed has
also run its hooks holds the codes of the tables as they are from that moment on. -/
theorem snapshot_fresh (hempty : ∀ k, s₀.entries k = none) (hpast : s₀.past = [])
    (hlinked : Linked s₀.current) (hu : u ∈ s₀.current.users)
    (h₁ : Pool.Reach (sem rbac.answer) evict (Pool.start s₀ fun i => (tasks i).prog) P₁)
    (hadmitted : Admitted tasks P₁.shared P₁.log) (hquiet : Quiet P₁) {r : ι}
    (hreader : tasks r = .load u) (hstart : own r P₁.log = [])
    (h₂ : Pool.Reach (sem rbac.answer) evict P₁ P₂) {snapshot : PermissionSnapshot}
    (hret : P₂.thread r = .ret (some snapshot)) :
    ∃ v₁ v₂ db₁ db₂, P₁.shared.version ≤ v₁ ∧ P₁.shared.version ≤ v₂ ∧
      P₂.shared.Had v₁ db₁ ∧ P₂.shared.Had v₂ db₂ ∧
      snapshot = ⟨db₁.listPermissionCodes u, db₂.listActiveRoleCodes u⟩ :=
  PermCache.snapshot_of_quiet rbac hempty hpast h₁ (hadmitted.covers h₁ hpast hlinked hu) hquiet
    hreader hstart h₂ hret

end

/-! ### A deleted role -/

/-- User 1 loads a snapshot after role 2 is deleted. -/
inductive Visit
  | delete
  | after
deriving DecidableEq

/-- What the deletion of role 2 leaves. -/
def withoutRole (db : Database) : Database :=
  match (deleteRole 2 admin).run { db } with
  | .ok (_, s) => s.db
  | .error _ => db

def visits : Visit → PermCache.Task Database
  | .after => .load 1
  | .delete => .mutate withoutRole [.invalidateAll]

/-- The pool once the role is deleted. -/
def roleDeletedPool : Pool Visit (Cmd Database) Resp (Option PermissionSnapshot)
    (Sys Database GenKey SnapshotKey fun _ => Cached) :=
  Pool.play (Versioned.Cmd.run rbac.answer)
    (Pool.start ⟨[], holder, fun _ => none, fun _ => none⟩ fun i => (visits i).prog)
    (List.replicate 2 .delete)

theorem accepted_withoutRole :
    Accepted admin (.deleteRole 2) holder (withoutRole holder) [.invalidateAll] := ⟨_, rfl⟩

theorem linked_holder : Linked holder := by
  constructor
  · intro u r hlink
    have hrow : (u, r) = (1, 2) := Finset.mem_singleton.1 hlink
    cases hrow
    decide
  · intro r m hlink
    have hrow : (r, m) = (2, 3) := Finset.mem_singleton.1 hlink
    cases hrow
    decide

theorem committed_roleDeleted {w : Visit} {v : Nat} (h : Committed roleDeletedPool.log w v) :
    w = .delete ∧ v = 1 := by
  have hlog : roleDeletedPool.log =
      [(.delete, ⟨.incr .global, 1⟩), (.delete, ⟨.commit withoutRole, 1⟩)] := rfl
  obtain ⟨f, hm⟩ := h
  rw [hlog] at hm
  simp only [List.mem_cons, Prod.mk.injEq, List.not_mem_nil, or_false] at hm
  rcases hm with ⟨-, he⟩ | ⟨rfl, he⟩
  · cases he
  · cases he
    exact ⟨rfl, rfl⟩

/-- The visit finds no permission any more. -/
theorem snapshot_fresh_deleted :
    let P₂ := Pool.play (Versioned.Cmd.run rbac.answer) roleDeletedPool (List.replicate 5 .after)
    P₂.thread .after = .ret (some ⟨∅, ∅⟩) ∧ ∃ v₁ v₂ db₁ db₂, 1 ≤ v₁ ∧ 1 ≤ v₂ ∧
      P₂.shared.Had v₁ db₁ ∧ P₂.shared.Had v₂ db₂ ∧
      (⟨∅, ∅⟩ : PermissionSnapshot) =
        ⟨db₁.listPermissionCodes 1, db₂.listActiveRoleCodes 1⟩ := by
  intro P₂
  have hret : P₂.thread .after = .ret (some ⟨∅, ∅⟩) := rfl
  have hreach : Pool.Reach (sem rbac.answer) evict
      (Pool.start ⟨[], holder, fun _ => none, fun _ => none⟩ fun i => (visits i).prog)
      roleDeletedPool := Pool.reach_play (sem_run rbac.answer) _ _
  have hreader : visits .after = .load 1 := rfl
  refine ⟨hret, snapshot_fresh (fun _ => rfl) rfl linked_holder (by decide) hreach
    (fun w change hooks v db htask hcommit hd => ?_) (fun w v hcommit => ?_) hreader rfl
    (Pool.reach_play (sem_run rbac.answer) _ _) hret⟩
  · obtain ⟨rfl, hv⟩ := committed_roleDeleted hcommit
    obtain rfl : v = 0 := by omega
    cases htask
    obtain rfl : db = holder := Sys.Had.unique hd rfl
    exact .inl ⟨admin, .deleteRole 2, accepted_withoutRole⟩
  · obtain ⟨rfl, -⟩ := committed_roleDeleted hcommit
    exact ⟨none, rfl⟩

end Rbac
