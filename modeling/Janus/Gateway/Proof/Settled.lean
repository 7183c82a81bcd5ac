import Janus.Gateway.Proof.Cache
import Janus.Cache.Settled

/-!
# Gateway configuration once the writes have ended

`gatewayConfig_settled`: when every write that has committed has also run its hooks, and its hooks
bump a generation under which each answer that it changed was cached, a timely call that starts then
returns what its statements answer from then on.
-/

set_option autoImplicit false

namespace Gateway

open Conc Janus Versioned

/-- The generations that a hook bumps. -/
def Hook.counters : Hook → List Counter
  | .bumpGrantCacheGeneration .user scopeId => [.grantUser scopeId]
  | .bumpGrantCacheGeneration .department scopeId => [.grantDept scopeId]
  | .bumpQuotaCacheGeneration .global _ => [.quotaGlobal]
  | .bumpQuotaCacheGeneration .user scopeId => (scopeId.map Counter.quotaUser).toList
  | .bumpQuotaCacheGeneration .department scopeId => (scopeId.map Counter.quotaDept).toList
  | .bumpCatalogCacheGeneration => [.catalog]

/-- The generations under which the answers to a statement are cached. -/
def Query.counters : Query → List Counter
  | .userGrantedModels userId deptId | .defaultModelId userId deptId =>
    [.grantUser userId, .grantDept (deptId.getD 0)]
  | .logicalModelByName _ | .logicalModelById _ => [.catalog]
  | .activeQuotas userId deptId _ =>
    [.quotaGlobal, .quotaUser userId, .quotaDept (deptId.getD 0)]

/-- The change of a write, and the generations that its hooks bump. -/
def Task.writer : Task → Option (Write Db Counter)
  | .mutate change hooks => some (change, hooks.flatMap Hook.counters)
  | .resolveModel .. | .activeQuotas .. => none

/-! ## What the calls write -/

section

variable {writer : Option (Write Db Counter)} {t : Trace Cmd Resp}

theorem getGeneration_writes (key : Counter) :
    (getGeneration key).Follows (ownWrites writer) (fun _ _ => True) t := ⟨nofun, fun _ => trivial⟩

/-- Three generation reads, then the rest. -/
theorem generations_writes {α : Type} {a b c : Counter} {f : Nat → Nat → Nat → Io α}
    (hf : ∀ x y z t', (f x y z).Follows (ownWrites writer) (fun _ _ => True) t') :
    (do
      let x ← getGeneration a
      let y ← getGeneration b
      let z ← getGeneration c
      f x y z).Follows (ownWrites writer) (fun _ _ => True) t :=
  .bind (getGeneration_writes a) fun x _ _ => .bind (getGeneration_writes b) fun y _ _ =>
    .bind (getGeneration_writes c) fun z _ _ => hf x y z _

theorem setCachedResolution_writes (userId : Int) (deptId : Option Int) (modelKey : String)
    (data : LogicalModel) : (setCachedResolution userId deptId modelKey data).Follows
      (ownWrites writer) (fun _ _ => True) t :=
  generations_writes fun _ _ _ _ => ⟨nofun, fun _ => trivial⟩

theorem setCachedQuotaConfig_writes (userId : Int) (deptId : Option Int) (modelId : Int)
    (data : List Quota) : (setCachedQuotaConfig userId deptId modelId data).Follows
      (ownWrites writer) (fun _ _ => True) t :=
  generations_writes fun _ _ _ _ => ⟨nofun, fun _ => trivial⟩

theorem findModel_writes (userId : Int) (deptId : Option Int) (requestedModel : Option String) :
    (findModel userId deptId requestedModel).Follows (ownWrites writer) (fun _ _ => True) t := by
  cases requestedModel with
  | some name => exact ⟨nofun, fun _ => trivial⟩
  | none =>
    refine ⟨nofun, fun id => ?_⟩
    cases id with
    | none => exact trivial
    | some id => exact ⟨nofun, fun _ => trivial⟩

theorem resolveModel_writes (userId : Int) (deptId : Option Int) (requestedModel : Option String) :
    (resolveModel userId deptId requestedModel).Follows (ownWrites writer) (fun _ _ => True) t := by
  refine .bind (generations_writes fun _ _ _ _ => ⟨nofun, fun _ => trivial⟩) fun cached _ _ => ?_
  cases cached with
  | some model => exact trivial
  | none =>
    refine .bind (findModel_writes userId deptId requestedModel) fun found _ _ => ?_
    cases found with
    | none => exact trivial
    | some model =>
      simp only [issue, Prog.cmd_bind]
      refine ⟨nofun, fun grants => ?_⟩
      beta_reduce
      split
      · exact trivial
      · exact .bind (setCachedResolution_writes ..) fun _ _ _ => trivial

theorem getActiveQuotasCached_writes (userId : Int) (deptId : Option Int) (modelId : Int) :
    (getActiveQuotasCached userId deptId modelId).Follows (ownWrites writer) (fun _ _ => True) t := by
  refine .bind (generations_writes fun _ _ _ _ => ⟨nofun, fun _ => trivial⟩) fun cached _ _ => ?_
  cases cached with
  | some quotas => exact trivial
  | none =>
    simp only [issue, Prog.cmd_bind]
    exact ⟨nofun, fun quotas => .bind (setCachedQuotaConfig_writes ..) fun _ _ _ => trivial⟩

/-- A hook increments its counters, and commits nothing. -/
theorem Hook.writes (hook : Hook) :
    hook.prog.Follows (ownWrites writer)
      (fun _ t' => t ⊆ t' ∧ ∀ b ∈ hook.counters, ∃ g, ⟨.incr b, g⟩ ∈ t') t := by
  have hbump (b : Counter) : (bumpGeneration b).Follows (ownWrites writer)
      (fun _ t' => t ⊆ t' ∧ ∀ b' ∈ [b], ∃ g, ⟨.incr b', g⟩ ∈ t') t := by
    refine ⟨nofun, fun g => ⟨List.subset_cons_self _ _, fun b' hb' => ⟨g, ?_⟩⟩⟩
    rw [List.mem_singleton.1 hb']
    exact List.mem_cons_self ..
  have hnone : (pure () : Io Unit).Follows (ownWrites writer)
      (fun _ t' => t ⊆ t' ∧ ∀ b' ∈ ([] : List Counter), ∃ g, ⟨.incr b', g⟩ ∈ t') t :=
    ⟨List.Subset.refl _, nofun⟩
  cases hook with
  | bumpGrantCacheGeneration scope scopeId => cases scope <;> exact hbump _
  | bumpQuotaCacheGeneration scope scopeId =>
    cases scope with
    | global => exact hbump _
    | user | department =>
      cases scopeId with
      | none => exact hnone
      | some id => exact hbump _
  | bumpCatalogCacheGeneration => exact hbump _

theorem mutate_writes (change : Db → Db) (hooks : List Hook) :
    (mutate change hooks).Follows (ownWrites (some (change, hooks.flatMap Hook.counters)))
      (fun _ t' => ∀ hook ∈ hooks, ∀ b ∈ hook.counters, ∃ g, ⟨.incr b, g⟩ ∈ t') [] := by
  simp only [mutate, issue, Prog.cmd_bind]
  refine ⟨fun f hf => ⟨_, by cases hf; rfl⟩, fun v => ?_⟩
  refine (Prog.Follows.forM (I := fun rest t' => ∀ hook ∈ hooks, hook ∈ rest ∨
    ∀ b ∈ hook.counters, ∃ g, ⟨.incr b, g⟩ ∈ t') (fun hook hm => .inl hm)
    fun hook rest t' hI => ?_).mono fun _ _ h hook hm => (h hook hm).resolve_left List.not_mem_nil
  refine hook.writes.mono fun _ t'' h hook' hm => ?_
  obtain ⟨hsub, hbumped⟩ := h
  rcases hI hook' hm with hm | hdone
  · rcases List.mem_cons.1 hm with rfl | hm
    · exact .inr hbumped
    · exact .inl hm
  · exact .inr fun b hb => (hdone b hb).imp fun g hg => hsub hg

end

theorem Task.follows_writes (task : Task) :
    task.prog.Follows (ownWrites task.writer) (fun _ t => Increments task.writer t) [] := by
  cases task with
  | resolveModel userId deptId requestedModel =>
    exact .bind (resolveModel_writes userId deptId requestedModel) fun _ _ _ => nofun
  | activeQuotas userId deptId modelId =>
    exact .bind (getActiveQuotasCached_writes userId deptId modelId) fun _ _ _ => nofun
  | mutate change hooks =>
    refine .bind (mutate_writes change hooks) fun _ t h => ?_
    rintro _ _ ⟨⟩ b hb
    obtain ⟨hook, hm, hb⟩ := List.mem_flatMap.1 hb
    exact h hook hm b hb

/-! ## What the calls read -/

/-- The answers of `xs` are cached under the generations of `k`. -/
def KeyedBy (k : Key) (xs : Answers) : Prop :=
  ∀ y ∈ xs, ∀ b ∈ y.1.counters, ∃ n, (b, n) ∈ k.counters

theorem Finds.keyedBy {userId : Int} {deptId deptId' : Option Int} {requestedModel : Option String}
    {modelKey : String} {xs : Answers} {model : Option LogicalModel} {x y z : Nat}
    (h : Finds userId deptId' requestedModel xs model) (hdept : deptId'.getD 0 = deptId.getD 0) :
    KeyedBy (.resolve x y z userId (deptId.getD 0) modelKey) xs := by
  intro a ha b hb
  cases h <;> simp only [List.mem_cons, List.not_mem_nil, or_false] at ha
  case noDefault =>
    subst ha
    simp only [Query.counters, hdept, List.mem_cons, List.not_mem_nil, or_false] at hb
    rcases hb with rfl | rfl <;> simp [Key.counters]
  case byDefault =>
    rcases ha with rfl | rfl <;>
      simp only [Query.counters, hdept, List.mem_cons, List.not_mem_nil, or_false] at hb
    · subst hb
      simp [Key.counters]
    · rcases hb with rfl | rfl <;> simp [Key.counters]
  case byName =>
    subst ha
    simp only [Query.counters, List.mem_cons, List.not_mem_nil, or_false] at hb
    subst hb
    simp [Key.counters]

theorem Resolves.keyedBy {userId : Int} {deptId deptId' : Option Int}
    {requestedModel : Option String} {modelKey : String} {xs : Answers}
    {result : Except AppError LogicalModel} {x y z : Nat}
    (h : Resolves userId deptId' requestedModel xs result) (hdept : deptId'.getD 0 = deptId.getD 0) :
    KeyedBy (.resolve x y z userId (deptId.getD 0) modelKey) xs := by
  cases h with
  | notFound hf => exact hf.keyedBy hdept
  | notGranted hf _ | granted hf _ =>
    refine List.forall_mem_cons.2 ⟨fun b hb => ?_, hf.keyedBy hdept⟩
    simp only [Query.counters, hdept, List.mem_cons, List.not_mem_nil, or_false] at hb
    rcases hb with rfl | rfl <;> simp [Key.counters]

theorem keyedBy_quotas {userId modelId : Int} {deptId deptId' : Option Int} {x y z : Nat}
    {quotas : List Quota} (hdept : deptId'.getD 0 = deptId.getD 0) :
    KeyedBy (.quotaCfg x y z userId (deptId.getD 0) modelId)
      [⟨.activeQuotas userId deptId' modelId, quotas⟩] := by
  refine List.forall_mem_singleton.2 fun b hb => ?_
  simp only [Query.counters, hdept, List.mem_cons, List.not_mem_nil, or_false] at hb
  rcases hb with rfl | rfl | rfl <;> simp [Key.counters]

theorem Makes.keyedBy {k : Key} {xs : Answers} {x : k.Value} (h : Makes k xs x) : KeyedBy k xs := by
  cases k with
  | resolve a b c userId deptKey modelKey =>
    obtain ⟨deptId, requestedModel, model, rfl, -, -, hr⟩ := h
    exact hr.keyedBy rfl
  | quotaCfg a b c userId deptKey modelId =>
    obtain ⟨deptId, quotas, rfl, -, rfl⟩ := h
    exact keyedBy_quotas rfl

section

variable {ι : Type} [DecidableEq ι] {tasks : ι → Task} {s₀ : GatewaySys}
  {P₁ P₂ : Pool ι Cmd Resp Result GatewaySys} {r : ι}

/-- What is served from a quiet moment on is made of answers from that moment on. -/
theorem Served.settled
    (h₁ : Pool.Reach (sem Query.answer) evict (Pool.start s₀ fun i => (tasks i).prog) P₁)
    (hpast : s₀.past = [])
    (hcomplete : ∀ q : Query, Complete (fun i => (tasks i).writer) Query.answer (· ∈ q.counters)
      P₁.shared P₁.log q) (hquiet : Quiet P₁) (hstart : own r P₁.log = [])
    (h₂ : Pool.Reach (sem Query.answer) evict P₁ P₂)
    (hbumped : ∀ w b g, Bumped P₁.log w b g → g ≤ P₁.shared.gen b)
    (hc : Coherent Query.answer need Makes P₂.shared P₂.log) {k : Key} {holds : k.Value → Prop}
    {made : Answers → Prop} (h : Served k holds made (own r P₂.log))
    (hmade : ∀ xs, made xs → KeyedBy k xs) :
    ∃ xs, (made xs ∨ ∃ x, holds x ∧ Makes k xs x) ∧
      ∀ y ∈ xs, ∃ d, Since P₂.shared P₁.shared.version d ∧ y.2 = y.1.answer d := by
  have hversion : P₁.shared.version ≤ P₂.shared.version :=
    (had_reach h₂ P₁.shared.had_current).le
  have hord := (Pool.ordered_start fun i => (tasks i).follows).reach h₁
  have hread (b : Counter) (n : Nat) (hn : (b, n) ∈ k.counters) : ReadGen P₂.log r b n := by
    obtain ⟨bs, answer, hm, hb, hread⟩ := h.1 (b, n) hn
    exact ⟨bs, answer, mem_own.1 hm, hb, hread⟩
  -- the call has read every counter of its key at its value of the quiet moment or later
  have hsettled {q : Query} {counts : Counter → Nat → Prop}
      (hcounts : ∀ b n, (b, n) ∈ k.counters → counts b n)
      (hq : ∀ b ∈ q.counters, ∃ n, (b, n) ∈ k.counters) :
      Settled Query.answer counts P₂.shared P₂.log q P₁.shared.version := by
    refine settled_of_quiet (fun i => (tasks i).follows_writes) h₁ hpast (hcomplete q) hquiet h₂
      fun b hb => ?_
    obtain ⟨n, hn⟩ := hq b hb
    exact ⟨n, hcounts b n hn, fun w g hbump =>
      readGen_after hord (hbumped w b g hbump) hstart h₂ (hread b n hn)⟩
  rcases h.2 with ⟨x, hx, hhit⟩ | ⟨xs, hxs, hqueries⟩
  · obtain ⟨xs, hmakes, hxs⟩ := (hc.hits r k x (mem_own.1 hhit)).settled hversion
      fun xs hmakes y hy => hsettled (fun b n hn => need_of_mem hn) (hmakes.keyedBy y hy)
    refine ⟨xs, .inr ⟨x, hx, hmakes⟩, fun y hy => ?_⟩
    obtain ⟨v, d, hv, hd, ha⟩ := hxs y hy
    exact ⟨d, ⟨v, hv, hd⟩, ha⟩
  · refine ⟨xs, .inl hxs, fun y hy => ?_⟩
    obtain ⟨v, d, hv, hd, ha⟩ := hc.settled (mem_own.1 (hqueries y hy)) hversion
      (hsettled hread (hmade xs hxs y hy))
    exact ⟨d, ⟨v, hv, hd⟩, ha⟩

/-- A timely call that starts when every write that has committed has ended returns what its
statements answer from then on. -/
theorem gatewayConfig_settled (hempty : ∀ k, s₀.entries k = none) (hpast : s₀.past = [])
    (h₁ : Pool.Reach (sem Query.answer) evict (Pool.start s₀ fun i => (tasks i).prog) P₁)
    (hcomplete : ∀ q : Query, Complete (fun i => (tasks i).writer) Query.answer (· ∈ q.counters)
      P₁.shared P₁.log q) (hquiet : Quiet P₁) (hstart : own r P₁.log = [])
    (h₂ : Pool.Reach (sem Query.answer) evict P₁ P₂) (htimely : Timely P₂.log) {result : Result}
    (hret : P₂.thread r = .ret result) :
    Fresh P₂.shared P₁.shared.version (tasks r) result := by
  have hord₀ : Pool.Ordered (fun _ => inOrder) (fun i => (tasks i).Post)
      (Pool.start s₀ fun i => (tasks i).prog) := Pool.ordered_start fun i => (tasks i).follows
  have hcoherent {P : Pool ι Cmd Resp Result GatewaySys}
      (h : Pool.Reach (sem Query.answer) evict (Pool.start s₀ fun i => (tasks i).prog) P)
      (ht : Timely P.log) : Coherent Query.answer need Makes P.shared P.log :=
    Coherent.reach (fun _ _ _ hg => hg) hord₀ (fun _ => .start hempty) h ht
  have hbumped := (hcoherent h₁ (htimely.suffix h₂.log_suffix)).bumped
  have hc := hcoherent (h₁.trans h₂) htimely
  have hpost := (hord₀.reach (h₁.trans h₂)).post hret
  cases htask : tasks r with
  | resolveModel userId deptId requestedModel =>
    rw [htask] at hpost
    cases result with
    | resolved result =>
      obtain ⟨x, y, z, hs⟩ := hpost
      obtain ⟨xs, hmade, hxs⟩ := hs.settled h₁ hpast hcomplete hquiet hstart h₂ hbumped hc
        fun xs hr => hr.keyedBy rfl
      rcases hmade with hr | ⟨_, ⟨model, rfl, rfl⟩, deptId', requested', model', hd, hreq, he, hr⟩
      · obtain ⟨d₁, d₂, d₃, hd₁, hd₂, hd₃, hres⟩ := hr.from hxs
        exact ⟨deptId, requestedModel, d₁, d₂, d₃, rfl, rfl, hd₁, hd₂, hd₃, hres⟩
      · cases he
        obtain ⟨d₁, d₂, d₃, hd₁, hd₂, hd₃, hres⟩ := hr.from hxs
        exact ⟨deptId', requested', d₁, d₂, d₃, hd, hreq, hd₁, hd₂, hd₃, hres⟩
    | quotas | mutated => exact hpost.elim
  | activeQuotas userId deptId modelId =>
    rw [htask] at hpost
    cases result with
    | quotas quotas =>
      obtain ⟨x, y, z, hs⟩ := hpost
      obtain ⟨xs, hmade, hxs⟩ := hs.settled h₁ hpast hcomplete hquiet hstart h₂ hbumped hc
        (by rintro _ rfl; exact keyedBy_quotas rfl)
      rcases hmade with rfl | ⟨_, rfl, deptId', quotas', hd, he, rfl⟩
      · obtain ⟨d, hsince, ha⟩ := hxs _ (List.mem_cons_self ..)
        exact ⟨deptId, d, rfl, hsince, ha⟩
      · cases he
        obtain ⟨d, hsince, ha⟩ := hxs _ (List.mem_cons_self ..)
        exact ⟨deptId', d, hd, hsince, ha⟩
    | resolved | mutated => exact hpost.elim
  | mutate change hooks =>
    rw [htask] at hpost
    cases result with
    | mutated => exact trivial
    | resolved | quotas => exact hpost.elim

end

end Gateway
