import Janus.GatewayAdmin.Proof.Invalidation

/-!
# From a catalog, grant or quota request to the next gateway call

The requests of the admin services run with the gateway's cached reads. Every commit is of an
accepted request, with the generations that its hooks bump, so a timely call that starts once the
requests have been answered sees the tables as they are from then on (`configuration_fresh`).
-/

set_option autoImplicit false

namespace GatewayAdmin

open Sql Conc Versioned
open Gateway (Query GatewaySys Fresh Resp Result)
open Rbac (AuthenticatedUser)

/-- The hooks that a process with a Redis runs; the routers are told by other means. -/
def bumps (hooks : List Hook) : List Gateway.Hook :=
  hooks.filterMap fun hook =>
    match hook with
    | .publishRouterInvalidation => none
    | .bumpGeneration hook => some hook

theorem Bumps.mem {hooks : List Hook} {q : Query} (h : Bumps hooks q) :
    ∃ b ∈ (bumps hooks).flatMap Gateway.Hook.counters, b ∈ q.counters := by
  obtain ⟨hook, hm, b, hb, hq⟩ := h
  exact ⟨b, List.mem_flatMap.2 ⟨hook, List.mem_filterMap.2 ⟨_, hm, rfl⟩, hb⟩, hq⟩

section

variable {ι : Type}

/-- The commits of the run are those of accepted requests on `tables 0`, `tables 1` and so on. -/
structure Administered (tasks : ι → Gateway.Task) (s₀ : GatewaySys) (l : Log ι Gateway.Cmd Resp)
    (tables : Nat → Tables) : Prop where
  view : s₀.current = (tables 0).view
  constraints : Constraints (tables 0)
  accepted : ∀ w change hooks v, tasks w = .mutate change hooks → Committed l w (v + 1) →
    change (tables v).view = (tables (v + 1)).view ∧ ∃ ctx actor request hooks',
      Accepted ctx actor request (tables v) (tables (v + 1)) hooks' ∧ hooks = bumps hooks'

variable [DecidableEq ι] {tasks : ι → Gateway.Task} {s₀ : GatewaySys}
  {P₁ P₂ : Pool ι Gateway.Cmd Resp Result GatewaySys} {tables : Nat → Tables}

/-- Each version is what its tables show, and these meet their constraints. -/
theorem Administered.shows
    (h₁ : Pool.Reach (sem Query.answer) evict (Pool.start s₀ fun i => (tasks i).prog) P₁)
    (hpast : s₀.past = []) (h : Administered tasks s₀ P₁.log tables) {v : Nat} {d : Gateway.Db}
    (hd : P₁.shared.Had v d) : d = (tables v).view ∧ Constraints (tables v) := by
  induction v generalizing d with
  | zero =>
    have hfirst : s₀.Had 0 s₀.current := by simp [Sys.Had, hpast]
    rw [Sys.Had.unique hd (had_reach h₁ hfirst)]
    exact ⟨h.view, h.constraints⟩
  | succ v ih =>
    obtain ⟨old, hold⟩ := Sys.exists_had (Nat.le_of_succ_le hd.le)
    obtain ⟨rfl, hconstraints⟩ := ih hold
    obtain ⟨w, change, counters, hwriter, hcommit, rfl⟩ :=
      commit_own (fun i => (tasks i).follows_writes) h₁ hpast hold hd
    change (tasks w).writer = _ at hwriter
    cases htask : tasks w with
    | resolveModel userId deptId requestedModel | activeQuotas userId deptId modelId =>
      rw [htask] at hwriter
      cases hwriter
    | mutate _ hooks =>
      rw [htask] at hwriter
      cases hwriter
      obtain ⟨hview, ctx, actor, request, hooks', haccepted, -⟩ :=
        h.accepted w change hooks v htask hcommit
      exact ⟨hview, (haccepted.leads hconstraints).2⟩

/-- Each commit that changes an answer bumps a generation under which the answer is cached. -/
theorem Administered.complete
    (h₁ : Pool.Reach (sem Query.answer) evict (Pool.start s₀ fun i => (tasks i).prog) P₁)
    (hpast : s₀.past = []) (h : Administered tasks s₀ P₁.log tables) (q : Query) :
    Complete (fun i => (tasks i).writer) Query.answer (· ∈ q.counters) P₁.shared P₁.log q := by
  intro w f counters v d hwriter hcommit hd
  obtain ⟨rfl, hconstraints⟩ := h.shows h₁ hpast hd
  change (tasks w).writer = _ at hwriter
  cases htask : tasks w with
  | resolveModel userId deptId requestedModel | activeQuotas userId deptId modelId =>
    rw [htask] at hwriter
    cases hwriter
  | mutate change hooks =>
    rw [htask] at hwriter
    cases hwriter
    obtain ⟨hview, ctx, actor, request, hooks', haccepted, rfl⟩ :=
      h.accepted w f hooks v htask hcommit
    rw [hview]
    exact ((haccepted.leads hconstraints).1.bumps q).imp_right Bumps.mem

/-- A timely call of the gateway that starts when every admin request that has committed has also
run its hooks returns what its statements answer on the tables from then on. -/
theorem configuration_fresh (hempty : ∀ k, s₀.entries k = none) (hpast : s₀.past = [])
    (h₁ : Pool.Reach (sem Query.answer) evict (Pool.start s₀ fun i => (tasks i).prog) P₁)
    (hadministered : Administered tasks s₀ P₁.log tables) (hquiet : Quiet P₁) {r : ι}
    (hstart : own r P₁.log = []) (h₂ : Pool.Reach (sem Query.answer) evict P₁ P₂)
    (htimely : Timely P₂.log) {result : Result} (hret : P₂.thread r = .ret result) :
    Fresh P₂.shared P₁.shared.version (tasks r) result :=
  Gateway.gatewayConfig_settled hempty hpast h₁ (hadministered.complete h₁ hpast) hquiet hstart h₂
    htimely hret

end

/-! ### The gateway after a deletion -/

theorem view_granted : granted.view = Gateway.granted := by
  simp [Tables.view, granted, Gateway.granted, LogicalModel.viewed, UserModelGrant.viewed, gpt,
    grantOfSeven, Gateway.gpt]

theorem view_revoked : revoked.view = Gateway.softDeleteGrant 5 Gateway.granted := by
  simp [Tables.view, revoked, granted, Gateway.granted, Gateway.softDeleteGrant,
    LogicalModel.viewed, UserModelGrant.viewed, gpt, grantOfSeven, Gateway.gpt]

/-- The tables before and after the deletion. -/
def deletion : Nat → Tables
  | 0 => granted
  | _ + 1 => revoked

/-- The call after the deletion does not get the model. -/
theorem configuration_fresh_deleted :
    let P₁ := Gateway.playRevocation (List.replicate 2 .admin)
    let P₂ := Pool.play (Versioned.Cmd.run Query.answer) P₁ (List.replicate 6 .later)
    P₂.thread .later = .ret (.resolved (.error (Gateway.modelNotGranted Gateway.gpt))) ∧
      Fresh P₂.shared 1 (Gateway.revocation .later)
        (.resolved (.error (Gateway.modelNotGranted Gateway.gpt))) := by
  intro P₁ P₂
  have hret : P₂.thread .later =
      .ret (.resolved (.error (Gateway.modelNotGranted Gateway.gpt))) := rfl
  have hlog : P₁.log = [(.admin, ⟨.incr (.grantUser 7), 1⟩),
      (.admin, ⟨.commit (Gateway.softDeleteGrant 5), 1⟩)] := rfl
  let gens : Gateway.Counter → Option Nat := Function.update (fun _ => none) (.grantUser 7) (some 1)
  have hlog₂ : P₂.log = [(.later, ⟨.query (.userGrantedModels 7 none), ∅⟩),
      (.later, ⟨.query (.logicalModelByName "gpt"), some Gateway.gpt⟩),
      (.later, ⟨.get (.resolve 0 1 0 7 0 "gpt"), none⟩), (.later, ⟨.gens [.grantDept 0], gens⟩),
      (.later, ⟨.gens [.grantUser 7], gens⟩), (.later, ⟨.gens [.catalog], gens⟩),
      (.admin, ⟨.incr (.grantUser 7), 1⟩),
      (.admin, ⟨.commit (Gateway.softDeleteGrant 5), 1⟩)] := rfl
  have hcommitted {w : Gateway.Caller} {v : Nat} (h : Committed P₁.log w v) :
      w = .admin ∧ v = 1 := by
    obtain ⟨f, hm⟩ := h
    rw [hlog] at hm
    simp only [List.mem_cons, Prod.mk.injEq, List.not_mem_nil, or_false] at hm
    rcases hm with ⟨-, he⟩ | ⟨rfl, he⟩
    · cases he
    · cases he
      exact ⟨rfl, rfl⟩
  have htimely : Timely P₂.log := by
    rw [hlog₂]
    refine ⟨fun b _ => ?_, fun b _ => ?_, fun b _ => ?_, trivial⟩ <;>
    · refine timelyRead_of_unqueried fun q a hq => ?_
      simp [Queried] at hq
  have hadministered : Administered Gateway.revocation ⟨[], Gateway.granted, fun _ => none,
      fun _ => none⟩ P₁.log deletion := by
    refine ⟨view_granted.symm, by decide, fun w change hooks v htask hcommit => ?_⟩
    obtain ⟨rfl, hv⟩ := hcommitted hcommit
    obtain rfl : v = 0 := by omega
    cases htask
    refine ⟨?_, context, admin, .deleteGrant 5, _, accepted_deleteGrant, rfl⟩
    exact (congrArg _ view_granted).trans view_revoked.symm
  refine ⟨hret, configuration_fresh (fun _ => rfl) rfl
    (Pool.reach_play (sem_run Query.answer) _ _) hadministered (fun w v hcommit => ?_) rfl
    (Pool.reach_play (sem_run _) _ _) htimely hret⟩
  obtain ⟨rfl, -⟩ := hcommitted hcommit
  exact ⟨.mutated, rfl⟩

end GatewayAdmin
