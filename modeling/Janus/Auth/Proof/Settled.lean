import Janus.Auth.Proof.PermCache
import Janus.Cache.Settled

/-!
# Permission snapshots once the mutations have ended

When every mutation that has committed has also run its hooks, and its hooks cover every user whose
codes it changed, a snapshot that is read from then on is made of the codes of states from then on
(`snapshot_of_quiet`), as if there were no cache.
-/

set_option autoImplicit false

namespace PermCache

open Conc Versioned

variable {D : Type}

/-- The change of a mutation, and the generations that its hooks bump. -/
def Task.writer : Task D → Option (Write D GenKey)
  | .load _ => none
  | .mutate change hooks => some (change, hooks.map Hook.genKey)

theorem loadAndSeed_writes {writer : Option (Write D GenKey)} {u : UserId} {key : SnapshotKey}
    {t : Trace (Cmd D) Resp} : (loadAndSeed key (loadPermissionSnapshot u) encode).Follows
      (ownWrites writer) (fun _ _ => True) t := by
  refine ⟨fun f hf => ?_, fun _ => ⟨fun f hf => ?_, fun _ => ⟨fun f hf => ?_, fun _ => trivial⟩⟩⟩
  all_goals cases hf

theorem loadSnapshot_writes {writer : Option (Write D GenKey)} (u : UserId) :
    (loadSnapshot u (loadPermissionSnapshot u)).Follows (ownWrites writer) (fun _ _ => True) [] := by
  simp only [loadSnapshot, readGenerations, getOrLoad, issue, Prog.cmd_bind, Prog.step_bind,
    Prog.pure_eq, Prog.ret_bind]
  refine ⟨fun f hf => (by cases hf), fun answer => ⟨fun f hf => (by cases hf), fun found => ?_⟩⟩
  cases found with
  | none => exact loadAndSeed_writes
  | some cached =>
    cases hd : decode cached with
    | none =>
      simp only [hd]
      exact loadAndSeed_writes
    | some snapshot =>
      simp only [hd]
      exact trivial

theorem mutate_writes (change : D → D) (hooks : List Hook) :
    (mutate change hooks).Follows (ownWrites (some (change, hooks.map Hook.genKey)))
      (fun _ t => ∀ hook ∈ hooks, ∃ g, ⟨.incr hook.genKey, g⟩ ∈ t) [] := by
  simp only [mutate, issue, Prog.cmd_bind]
  refine ⟨fun f hf => ⟨_, by cases hf; rfl⟩, fun v => ?_⟩
  refine (Prog.Follows.forM (I := fun rest t =>
    ∀ hook ∈ hooks, hook ∈ rest ∨ ∃ g, ⟨.incr hook.genKey, g⟩ ∈ t)
    (fun hook hm => .inl hm) fun hook rest t hI => ?_).mono
    fun _ t h hook hm => (h hook hm).resolve_left List.not_mem_nil
  have hnext (g : Nat) : ∀ hook' ∈ hooks, hook' ∈ rest ∨
      ∃ g', ⟨.incr hook'.genKey, g'⟩ ∈ (⟨.incr hook.genKey, g⟩ :: t : Trace (Cmd D) Resp) := by
    intro hook' hm
    rcases hI hook' hm with hm | ⟨g', hm⟩
    · rcases List.mem_cons.1 hm with rfl | hm
      · exact .inr ⟨g, List.mem_cons_self ..⟩
      · exact .inl hm
    · exact .inr ⟨g', List.mem_cons_of_mem _ hm⟩
  cases hook with
  | invalidateUser u | invalidateAll => exact ⟨fun f hf => (by cases hf), fun g => hnext g⟩

theorem Task.follows_writes (task : Task D) :
    task.prog.Follows (ownWrites task.writer) (fun _ t => Increments task.writer t) [] := by
  cases task with
  | load u =>
    refine .bind (loadSnapshot_writes u) fun _ t _ f bs hwriter => ?_
    cases hwriter
  | mutate change hooks =>
    refine .bind (mutate_writes change hooks) fun _ t h => ?_
    rintro _ _ ⟨⟩ b hb
    obtain ⟨hook, hm, rfl⟩ := List.mem_map.1 hb
    exact h hook hm

section

variable {ι : Type} (rbac : Rbac D)

/-- The two queries answer the same about `u`. -/
def Rbac.Same (d d' : D) (u : UserId) : Prop :=
  rbac.listPermissionCodes d' u = rbac.listPermissionCodes d u ∧
    rbac.listActiveRoleCodes d' u = rbac.listActiveRoleCodes d u

/-- Each commit of the run that changed the codes of `u` is of a mutation with a hook that covers
`u`. -/
def CoversUser (tasks : ι → Task D) (s : Sys D GenKey SnapshotKey fun _ => Cached)
    (l : Log ι (Cmd D) Resp) (u : UserId) : Prop :=
  ∀ w change hooks v d, tasks w = .mutate change hooks → Committed l w (v + 1) → s.Had v d →
    rbac.Same d (change d) u ∨ ∃ hook ∈ hooks, hook.genKey.Covers u

variable {tasks : ι → Task D} {u : UserId}

theorem CoversUser.complete {s : Sys D GenKey SnapshotKey fun _ => Cached} {l : Log ι (Cmd D) Resp}
    (h : CoversUser rbac tasks s l u) {q : Query}
    (hq : q = .permissionCodes u ∨ q = .activeRoleCodes u) :
    Complete (fun i => (tasks i).writer) rbac.answer (·.Covers u) s l q := by
  intro w f bs v d hwriter hcommit hd
  change (tasks w).writer = _ at hwriter
  cases htask : tasks w with
  | load u' =>
    rw [htask] at hwriter
    cases hwriter
  | mutate change hooks =>
    rw [htask] at hwriter
    cases hwriter
    rcases h w f hooks v d htask hcommit hd with hsame | ⟨hook, hm, hcovers⟩
    · left
      rcases hq with rfl | rfl
      · exact hsame.1
      · exact hsame.2
    · exact .inr ⟨hook.genKey, List.mem_map_of_mem hm, hcovers⟩

variable [DecidableEq ι] {s₀ : Sys D GenKey SnapshotKey fun _ => Cached}
  {P₁ P₂ : Pool ι (Cmd D) Resp (Option PermissionSnapshot) (Sys D GenKey SnapshotKey fun _ => Cached)}

/-- A snapshot that is loaded from a quiet moment on is made of the codes of states from that moment
on. -/
theorem snapshot_of_quiet (hempty : ∀ k, s₀.entries k = none) (hpast : s₀.past = [])
    (h₁ : Pool.Reach (sem rbac.answer) evict (Pool.start s₀ fun i => (tasks i).prog) P₁)
    (hcovers : CoversUser rbac tasks P₁.shared P₁.log u) (hquiet : Quiet P₁) {r : ι}
    (hreader : tasks r = .load u) (hstart : own r P₁.log = [])
    (h₂ : Pool.Reach (sem rbac.answer) evict P₁ P₂) {snapshot : PermissionSnapshot}
    (hret : P₂.thread r = .ret (some snapshot)) :
    ∃ v₁ v₂ d₁ d₂, P₁.shared.version ≤ v₁ ∧ P₁.shared.version ≤ v₂ ∧
      P₂.shared.Had v₁ d₁ ∧ P₂.shared.Had v₂ d₂ ∧
      snapshot = ⟨rbac.listPermissionCodes d₁ u, rbac.listActiveRoleCodes d₂ u⟩ := by
  have hord := (Pool.ordered_start fun i => (tasks i).follows).reach h₁
  have hsound₁ := coherent_reach rbac hempty h₁
  have hsound := coherent_reach rbac hempty (h₁.trans h₂)
  obtain ⟨answer, hloaded⟩ := (hord.reach h₂).post hret u snapshot hreader rfl
  have hversion : P₁.shared.version ≤ P₂.shared.version :=
    (had_reach h₂ P₁.shared.had_current).le
  have hread (b : GenKey) (hb : b.Covers u) : ReadGen P₂.log r b ((answer b).getD 0) := by
    refine ⟨_, answer, mem_own.1 hloaded.gens, ?_, rfl⟩
    rcases hb with rfl | rfl <;> simp
  -- the reader has read every counter at its value of the quiet moment or later
  have hgn (b : GenKey) (hb : b.Covers u) (w : ι) (g : Nat) (hbump : Bumped P₁.log w b g) :
      g ≤ (answer b).getD 0 :=
    readGen_after hord (hsound₁.bumped w b g hbump) hstart h₂ (hread b hb)
  have hsettled {q : Query} (hq : q = .permissionCodes u ∨ q = .activeRoleCodes u) :
      Settled rbac.answer (ReadGen P₂.log r) P₂.shared P₂.log q P₁.shared.version :=
    settled_of_quiet (fun i => (tasks i).follows_writes) h₁ hpast (hcovers.complete rbac hq) hquiet
      h₂ fun b hb => ⟨_, hread b hb, hgn b hb⟩
  rcases hloaded.source with ⟨cached, hhit, hdec⟩ | ⟨hp, hr⟩
  · have hneed (b : GenKey) (hb : b.Covers u) :
        need ⟨u, (answer .global).getD 0, (answer (.user u)).getD 0⟩ b =
          some ((answer b).getD 0) := by
      rcases hb with rfl | rfl <;> simp [need]
    have hbacked := (hsound.hits r _ cached (mem_own.1 hhit)).settled (m := P₁.shared.version)
      hversion fun xs hmakes y hy => by
        obtain ⟨_, _, rfl, -⟩ := hmakes
        refine settled_of_quiet (fun i => (tasks i).follows_writes) h₁ hpast
          (hcovers.complete rbac ?_) hquiet h₂ fun b hb => ⟨_, hneed b hb, hgn b hb⟩
        simp only [List.mem_cons, List.not_mem_nil, or_false] at hy
        exact hy.imp (fun h => by rw [h]) fun h => by rw [h]
    obtain ⟨xs, ⟨permissions, roleCodes, rfl, rfl⟩, hxs⟩ := hbacked
    rw [decode_encode] at hdec
    obtain rfl := Option.some.inj hdec
    obtain ⟨v₁, d₁, hv₁, hd₁, hp⟩ := hxs ⟨.permissionCodes u, permissions⟩ (by simp)
    obtain ⟨v₂, d₂, hv₂, hd₂, hr⟩ := hxs ⟨.activeRoleCodes u, roleCodes⟩ (by simp)
    have hp' : permissions = rbac.listPermissionCodes d₁ u := hp
    have hr' : roleCodes = rbac.listActiveRoleCodes d₂ u := hr
    exact ⟨v₁, v₂, d₁, d₂, hv₁, hv₂, hd₁, hd₂, by rw [hp', hr']⟩
  · obtain ⟨v₁, d₁, hv₁, hd₁, hp⟩ :=
      hsound.settled (mem_own.1 hp) hversion (hsettled (.inl rfl))
    obtain ⟨v₂, d₂, hv₂, hd₂, hr⟩ :=
      hsound.settled (mem_own.1 hr) hversion (hsettled (.inr rfl))
    refine ⟨v₁, v₂, d₁, d₂, hv₁, hv₂, hd₁, hd₂, ?_⟩
    cases snapshot
    simp_all [Rbac.answer]

end

end PermCache
