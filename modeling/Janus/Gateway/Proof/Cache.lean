import Janus.Gateway.Cache

/-!
# Stale gateway configuration

Any number of `resolve_model` and `_get_active_quotas_cached` calls and of admin writes run at the
same time. The setters read the generations again after the database statements, so an answer from
before a writer's commit can be stored under the generation from after its bump
(`resolveModel_serves_revoked`). In the runs in which no setter's generation read falls after such a
bump (`Timely`), a call that starts after a writer's bump returns what the statements answer on
states at or after the writer's commit (`gatewayConfig_fresh`).

* `resolveFrom`: what `resolve_model` computes from its statements, without a cache.
* `Resolves`: the same, from a list of answers.
-/

set_option autoImplicit false

namespace Gateway

open Conc Janus Versioned

abbrev Answers := List ((q : Query) × q.Answer)

/-! ## Resolution without a cache -/

/-- `findModel` when its statements read `d₁` and `d₂`. -/
def findFrom (userId : Int) (deptId : Option Int) (requestedModel : Option String) (d₁ d₂ : Db) :
    Option LogicalModel :=
  match requestedModel with
  | none => (d₁.getDefaultModelId userId deptId).bind d₂.getLogicalModelById
  | some name => d₂.getLogicalModelByName name

/-- `resolve_model` when its statements read `d₁`, `d₂` and `d₃`. -/
def resolveFrom (userId : Int) (deptId : Option Int) (requestedModel : Option String)
    (d₁ d₂ d₃ : Db) : Except AppError LogicalModel :=
  match findFrom userId deptId requestedModel d₁ d₂ with
  | none => .error modelNotFound
  | some model =>
    if model.id ∈ d₃.getUserGrantedModels userId deptId then .ok model
    else .error (modelNotGranted model)

section

variable (userId : Int) (deptId : Option Int)

/-- The statements of `findModel` with their answers, newest first, and what it finds. -/
inductive Finds : Option String → Answers → Option LogicalModel → Prop
  | noDefault : Finds none [⟨.defaultModelId userId deptId, none⟩] none
  | byDefault (id : Int) (model : Option LogicalModel) :
      Finds none [⟨.logicalModelById id, model⟩, ⟨.defaultModelId userId deptId, some id⟩] model
  | byName (name : String) (model : Option LogicalModel) :
      Finds (some name) [⟨.logicalModelByName name, model⟩] model

/-- The statements of a resolution with their answers, and its result. -/
inductive Resolves (requestedModel : Option String) : Answers → Except AppError LogicalModel → Prop
  | notFound {xs : Answers} : Finds userId deptId requestedModel xs none →
      Resolves requestedModel xs (.error modelNotFound)
  | notGranted {xs : Answers} {model : LogicalModel} {grants : Finset Int} :
      Finds userId deptId requestedModel xs (some model) → model.id ∉ grants →
      Resolves requestedModel (⟨.userGrantedModels userId deptId, grants⟩ :: xs)
        (.error (modelNotGranted model))
  | granted {xs : Answers} {model : LogicalModel} {grants : Finset Int} :
      Finds userId deptId requestedModel xs (some model) → model.id ∈ grants →
      Resolves requestedModel (⟨.userGrantedModels userId deptId, grants⟩ :: xs) (.ok model)

variable {userId deptId} {requestedModel : Option String} {xs : Answers} {P : Db → Prop}

theorem Finds.from {model : Option LogicalModel} (h : Finds userId deptId requestedModel xs model)
    (hxs : ∀ y ∈ xs, ∃ d, P d ∧ y.2 = y.1.answer d) :
    ∃ d₁ d₂, P d₁ ∧ P d₂ ∧ findFrom userId deptId requestedModel d₁ d₂ = model := by
  unfold findFrom
  cases h with
  | noDefault =>
    obtain ⟨d, hd, ha⟩ := hxs _ (List.mem_cons_self ..)
    have hnone : none = d.getDefaultModelId userId deptId := ha
    exact ⟨d, d, hd, hd, by rw [← hnone]; rfl⟩
  | byDefault id model =>
    obtain ⟨d₂, hd₂, ha₂⟩ := hxs _ (List.mem_cons_self ..)
    obtain ⟨d₁, hd₁, ha₁⟩ := hxs _ (List.mem_cons_of_mem _ (List.mem_cons_self ..))
    have hsome : some id = d₁.getDefaultModelId userId deptId := ha₁
    exact ⟨d₁, d₂, hd₁, hd₂, by rw [← hsome]; exact ha₂.symm⟩
  | byName name model =>
    obtain ⟨d, hd, ha⟩ := hxs _ (List.mem_cons_self ..)
    exact ⟨d, d, hd, hd, ha.symm⟩

/-- A resolution from answers of states that satisfy `P` is one from such states. -/
theorem Resolves.from {result : Except AppError LogicalModel}
    (h : Resolves userId deptId requestedModel xs result)
    (hxs : ∀ y ∈ xs, ∃ d, P d ∧ y.2 = y.1.answer d) :
    ∃ d₁ d₂ d₃, P d₁ ∧ P d₂ ∧ P d₃ ∧
      result = resolveFrom userId deptId requestedModel d₁ d₂ d₃ := by
  unfold resolveFrom
  cases h with
  | notFound hf =>
    obtain ⟨d₁, d₂, h₁, h₂, hm⟩ := hf.from hxs
    exact ⟨d₁, d₂, d₁, h₁, h₂, h₁, by rw [hm]⟩
  | notGranted hf hg | granted hf hg =>
    obtain ⟨d₁, d₂, h₁, h₂, hm⟩ := hf.from fun y hy => hxs y (List.mem_cons_of_mem _ hy)
    obtain ⟨d₃, h₃, ha⟩ := hxs _ (List.mem_cons_self ..)
    refine ⟨d₁, d₂, d₃, h₁, h₂, h₃, ?_⟩
    change _ = d₃.getUserGrantedModels userId deptId at ha
    subst ha
    rw [hm]
    simp [hg]

end

/-! ## Program order -/

/-- The generations a key embeds. -/
def Key.counters : Key → List (Counter × Nat)
  | .resolve catalogGen userGen deptGen userId deptId _ =>
    [(.catalog, catalogGen), (.grantUser userId, userGen), (.grantDept deptId, deptGen)]
  | .quotaCfg globalGen userGen deptGen userId deptId _ =>
    [(.quotaGlobal, globalGen), (.quotaUser userId, userGen), (.quotaDept deptId, deptGen)]

def need (k : Key) (b : Counter) : Option Nat := k.counters.lookup b

/-- An entry is what a reader with these key parts made of its answers. -/
def Makes : (k : Key) → Answers → k.Value → Prop
  | .resolve _ _ _ userId deptKey modelKey, xs, x => ∃ deptId requestedModel model,
      deptId.getD 0 = deptKey ∧ requestedModel.getD defaultModelSentinel = modelKey ∧
      x = .object model ∧ Resolves userId deptId requestedModel xs (.ok model)
  | .quotaCfg _ _ _ userId deptKey modelId, xs, x => ∃ (deptId : Option Int) (quotas : List Quota),
      deptId.getD 0 = deptKey ∧ x = .object quotas ∧
      xs = [⟨.activeQuotas userId deptId modelId, quotas⟩]

abbrev inOrder : Guard Cmd Resp := order need Makes

/-- `t` read the generation `n` of `b`. -/
def Reads (t : Trace Cmd Resp) (b : Counter) (n : Nat) : Prop :=
  ∃ bs, ∃ answer : Counter → Option Nat, ⟨.gens bs, answer⟩ ∈ t ∧ b ∈ bs ∧ (answer b).getD 0 = n

/-- `t` read every generation that `k` embeds. -/
def ReadsKey (t : Trace Cmd Resp) (k : Key) : Prop := ∀ p ∈ k.counters, Reads t p.1 p.2

/-- `t` queried every answer of `xs`. -/
def Queries (t : Trace Cmd Resp) (xs : Answers) : Prop := ∀ x ∈ xs, ⟨.query x.1, x.2⟩ ∈ t

theorem Reads.mono {t t' : Trace Cmd Resp} {b : Counter} {n : Nat} (h : Reads t b n) (hs : t ⊆ t') :
    Reads t' b n := by
  obtain ⟨bs, answer, hm, hb, hn⟩ := h
  exact ⟨bs, answer, hs hm, hb, hn⟩

theorem ReadsKey.mono {t t' : Trace Cmd Resp} {k : Key} (h : ReadsKey t k) (hs : t ⊆ t') :
    ReadsKey t' k := fun p hp => (h p hp).mono hs

theorem Queries.mono {t t' : Trace Cmd Resp} {xs : Answers} (h : Queries t xs) (hs : t ⊆ t') :
    Queries t' xs := fun x hx => hs (h x hx)

theorem mem_of_need {k : Key} {b : Counter} {n : Nat} (h : need k b = some n) :
    (b, n) ∈ k.counters := by
  unfold need at h
  obtain ⟨l₁, l₂, hl, -⟩ := List.lookup_eq_some_iff.1 h
  simp [hl]

theorem need_of_mem {k : Key} {b : Counter} {n : Nat} (h : (b, n) ∈ k.counters) :
    need k b = some n := by
  refine List.lookup_eq_some_iff.2 ?_
  cases k <;>
  · simp only [Key.counters, List.mem_cons, List.not_mem_nil, or_false] at h
    rcases h with h | h | h <;> cases h
    · exact ⟨[], _, rfl, by simp⟩
    · exact ⟨[_], _, rfl, by simp⟩
    · exact ⟨[_, _], [], rfl, by simp⟩

theorem ReadsKey.get {t : Trace Cmd Resp} {k : Key} (h : ReadsKey t k) : inOrder t (.get k) :=
  fun _ _ hn => h _ (mem_of_need hn)

theorem ReadsKey.set {t : Trace Cmd Resp} {k : Key} {xs : Answers} {x : k.Value} (h : ReadsKey t k)
    (hx : Makes k xs x) (hxs : Queries t xs) : inOrder t (.set k x) :=
  ⟨fun _ _ hn => h _ (mem_of_need hn), xs, hx, hxs⟩

/-! ### Getters and setters -/

/-- Three generation reads, then the rest. -/
theorem generations_follows {α : Type} {t : Trace Cmd Resp} {a b c : Counter}
    {f : Nat → Nat → Nat → Io α} {Q : α → Trace Cmd Resp → Prop}
    (hf : ∀ x y z t', t ⊆ t' → (∀ p ∈ [(a, x), (b, y), (c, z)], Reads t' p.1 p.2) →
      (f x y z).Follows inOrder Q t') :
    (do
      let x ← getGeneration a
      let y ← getGeneration b
      let z ← getGeneration c
      f x y z).Follows inOrder Q t := by
  simp only [getGeneration, issue, Prog.cmd_bind, Prog.step_bind, Prog.pure_eq, Prog.ret_bind]
  refine ⟨trivial, fun x => ⟨trivial, fun y => ⟨trivial, fun z => hf _ _ _ _ ?_ ?_⟩⟩⟩
  · exact fun e he => by simp [he]
  · intro p hp
    simp only [List.mem_cons, List.not_mem_nil, or_false] at hp
    rcases hp with rfl | rfl | rfl
    · exact ⟨[a], x, by simp, by simp, rfl⟩
    · exact ⟨[b], y, by simp, by simp, rfl⟩
    · exact ⟨[c], z, by simp, by simp, rfl⟩

/-- What a getter has done: it read the generations of its key, and what it answers was under that
key. -/
def Got (k : Key) {T : Type} (object : T → k.Value) (t : Trace Cmd Resp) (cached : Option T) :
    Prop :=
  ReadsKey t k ∧ ∀ data, cached = some data → ⟨.get k, some (object data)⟩ ∈ t

theorem getCachedResolution_follows (userId : Int) (deptId : Option Int) (modelKey : String)
    (t : Trace Cmd Resp) :
    (getCachedResolution userId deptId modelKey).Follows inOrder (fun cached t' =>
      ∃ catalogGen userGen deptGen,
        Got (.resolve catalogGen userGen deptGen userId (deptId.getD 0) modelKey) .object t' cached)
      t := by
  unfold getCachedResolution
  refine generations_follows fun x y z t' _ hk => ⟨ReadsKey.get hk, fun raw => ?_⟩
  refine ⟨x, y, z, ReadsKey.mono hk (List.subset_cons_self _ _), fun data hd => ?_⟩
  match raw, hd with
  | some (.object _), rfl => exact List.mem_cons_self ..

theorem getCachedQuotaConfig_follows (userId : Int) (deptId : Option Int) (modelId : Int)
    (t : Trace Cmd Resp) :
    (getCachedQuotaConfig userId deptId modelId).Follows inOrder (fun cached t' =>
      ∃ globalGen userGen deptGen,
        Got (.quotaCfg globalGen userGen deptGen userId (deptId.getD 0) modelId) .object t' cached)
      t := by
  unfold getCachedQuotaConfig
  refine generations_follows fun x y z t' _ hk => ⟨ReadsKey.get hk, fun raw => ?_⟩
  refine ⟨x, y, z, ReadsKey.mono hk (List.subset_cons_self _ _), fun data hd => ?_⟩
  match raw, hd with
  | some (.object _), rfl => exact List.mem_cons_self ..

theorem setCachedResolution_follows {userId : Int} {deptId : Option Int}
    {requestedModel : Option String} {model : LogicalModel} {xs : Answers} {t : Trace Cmd Resp}
    (hr : Resolves userId deptId requestedModel xs (.ok model)) (hxs : Queries t xs) :
    (setCachedResolution userId deptId (requestedModel.getD defaultModelSentinel) model).Follows
      inOrder (fun _ t' => t ⊆ t') t := by
  unfold setCachedResolution
  refine generations_follows fun x y z t' hs hk => ⟨?_, fun _ => List.Subset.trans hs (List.subset_cons_self _ _)⟩
  exact ReadsKey.set hk ⟨deptId, requestedModel, model, rfl, rfl, rfl, hr⟩ (hxs.mono hs)

theorem setCachedQuotaConfig_follows {userId : Int} {deptId : Option Int} {modelId : Int}
    {quotas : List Quota} {t : Trace Cmd Resp}
    (hxs : Queries t [⟨.activeQuotas userId deptId modelId, quotas⟩]) :
    (setCachedQuotaConfig userId deptId modelId quotas).Follows inOrder (fun _ t' => t ⊆ t') t := by
  unfold setCachedQuotaConfig
  refine generations_follows fun x y z t' hs hk => ⟨?_, fun _ => List.Subset.trans hs (List.subset_cons_self _ _)⟩
  exact ReadsKey.set hk ⟨deptId, quotas, rfl, rfl, rfl⟩ (hxs.mono hs)

theorem findModel_follows (userId : Int) (deptId : Option Int) (requestedModel : Option String)
    (t : Trace Cmd Resp) :
    (findModel userId deptId requestedModel).Follows inOrder (fun model t' => t ⊆ t' ∧
      ∃ xs, Finds userId deptId requestedModel xs model ∧ Queries t' xs) t := by
  unfold findModel
  cases requestedModel with
  | none =>
    simp only [issue, Prog.cmd_bind]
    refine ⟨trivial, fun id => ?_⟩
    cases id with
    | none => exact ⟨List.subset_cons_self _ _, _, .noDefault, by simp [Queries]⟩
    | some id =>
      refine ⟨trivial, fun model => ⟨?_, _, .byDefault id model, by simp [Queries]⟩⟩
      exact fun e he => by simp [he]
  | some name =>
    exact ⟨trivial, fun model => ⟨List.subset_cons_self _ _, _, .byName name model,
      by simp [Queries]⟩⟩

/-! ### Readers and writers -/

/-- How a reader with the key `k` came by its result: from the entry `x` that holds it, or from its
own statements. -/
def Served (k : Key) (holds : k.Value → Prop) (made : Answers → Prop) (t : Trace Cmd Resp) : Prop :=
  ReadsKey t k ∧ ((∃ x, holds x ∧ ⟨.get k, some x⟩ ∈ t) ∨ ∃ xs, made xs ∧ Queries t xs)

def ServedResolution (userId : Int) (deptId : Option Int) (requestedModel : Option String)
    (t : Trace Cmd Resp) (result : Except AppError LogicalModel) : Prop :=
  ∃ catalogGen userGen deptGen, Served
    (.resolve catalogGen userGen deptGen userId (deptId.getD 0)
      (requestedModel.getD defaultModelSentinel))
    (fun x => ∃ model, x = .object model ∧ result = .ok model)
    (fun xs => Resolves userId deptId requestedModel xs result) t

def ServedQuotas (userId : Int) (deptId : Option Int) (modelId : Int) (t : Trace Cmd Resp)
    (quotas : List Quota) : Prop :=
  ∃ globalGen userGen deptGen, Served
    (.quotaCfg globalGen userGen deptGen userId (deptId.getD 0) modelId)
    (· = .object quotas)
    (· = [⟨.activeQuotas userId deptId modelId, quotas⟩]) t

theorem resolveModel_follows (userId : Int) (deptId : Option Int) (requestedModel : Option String) :
    (resolveModel userId deptId requestedModel).Follows inOrder
      (fun result t => ServedResolution userId deptId requestedModel t result) [] := by
  unfold resolveModel
  refine .bind (getCachedResolution_follows userId deptId _ []) fun cached t hgot => ?_
  obtain ⟨x, y, z, hkey, hhit⟩ := hgot
  cases cached with
  | some model => exact ⟨x, y, z, hkey, .inl ⟨_, ⟨model, rfl, rfl⟩, hhit model rfl⟩⟩
  | none =>
    refine .bind (findModel_follows userId deptId requestedModel t) fun found t₁ hfound => ?_
    obtain ⟨hs, xs, hf, hxs⟩ := hfound
    cases found with
    | none => exact ⟨x, y, z, hkey.mono hs, .inr ⟨xs, .notFound hf, hxs⟩⟩
    | some model =>
      simp only [issue, Prog.cmd_bind]
      refine ⟨trivial, fun grants => ?_⟩
      have hs₁ := List.subset_cons_self (⟨.query (.userGrantedModels userId deptId), grants⟩ :
        Event Cmd Resp) t₁
      have hq : Queries _ (⟨.userGrantedModels userId deptId, grants⟩ :: xs) :=
        List.forall_mem_cons.2 ⟨List.mem_cons_self .., hxs.mono hs₁⟩
      have hkey₁ := (hkey.mono hs).mono hs₁
      by_cases hg : model.id ∈ grants
      · simp only [hg, not_true_eq_false, if_false]
        have hr := Resolves.granted hf hg
        refine .bind (setCachedResolution_follows hr hq) fun _ t₂ hs₂ => ?_
        exact ⟨x, y, z, hkey₁.mono hs₂, .inr ⟨_, hr, hq.mono hs₂⟩⟩
      · simp only [hg, not_false_eq_true, if_true]
        exact ⟨x, y, z, hkey₁, .inr ⟨_, .notGranted hf hg, hq⟩⟩

theorem getActiveQuotasCached_follows (userId : Int) (deptId : Option Int) (modelId : Int) :
    (getActiveQuotasCached userId deptId modelId).Follows inOrder
      (fun quotas t => ServedQuotas userId deptId modelId t quotas) [] := by
  unfold getActiveQuotasCached
  refine .bind (getCachedQuotaConfig_follows userId deptId modelId []) fun cached t hgot => ?_
  obtain ⟨x, y, z, hkey, hhit⟩ := hgot
  cases cached with
  | some quotas => exact ⟨x, y, z, hkey, .inl ⟨_, rfl, hhit quotas rfl⟩⟩
  | none =>
    simp only [issue, Prog.cmd_bind]
    refine ⟨trivial, fun quotas => ?_⟩
    have hs₁ := List.subset_cons_self (⟨.query (.activeQuotas userId deptId modelId), quotas⟩ :
      Event Cmd Resp) t
    have hq : Queries (⟨.query (.activeQuotas userId deptId modelId), quotas⟩ :: t)
        [⟨.activeQuotas userId deptId modelId, quotas⟩] := by simp [Queries]
    refine .bind (setCachedQuotaConfig_follows hq) fun _ t₂ hs₂ => ?_
    exact ⟨x, y, z, (hkey.mono hs₁).mono hs₂, .inr ⟨_, rfl, hq.mono hs₂⟩⟩

theorem bumpGeneration_follows (key : Counter) (t : Trace Cmd Resp) :
    (bumpGeneration key).Follows inOrder (fun _ _ => True) t := ⟨trivial, fun _ => trivial⟩

theorem hook_follows (hook : Hook) (t : Trace Cmd Resp) :
    hook.prog.Follows inOrder (fun _ _ => True) t := by
  cases hook with
  | bumpGrantCacheGeneration scope scopeId =>
    cases scope <;> exact bumpGeneration_follows _ t
  | bumpQuotaCacheGeneration scope scopeId =>
    cases scope with
    | global => exact bumpGeneration_follows _ t
    | user => cases scopeId <;> first | exact trivial | exact bumpGeneration_follows _ t
    | department => cases scopeId <;> first | exact trivial | exact bumpGeneration_follows _ t
  | bumpCatalogCacheGeneration => exact bumpGeneration_follows _ t

theorem mutate_follows (change : Db → Db) (hooks : List Hook) :
    (mutate change hooks).Follows inOrder (fun _ _ => True) [] := by
  simp only [mutate, issue, Prog.cmd_bind]
  refine ⟨fun _ _ hm => (nomatch hm), fun _ => ?_⟩
  exact Prog.Follows.forM (I := fun _ _ => True) trivial fun hook _ t _ => hook_follows hook t

inductive Task
  | resolveModel (userId : Int) (deptId : Option Int) (requestedModel : Option String)
  | activeQuotas (userId : Int) (deptId : Option Int) (modelId : Int)
  | mutate (change : Db → Db) (hooks : List Hook)

inductive Result
  | resolved (result : Except AppError LogicalModel)
  | quotas (quotas : List Quota)
  | mutated

def Task.prog : Task → Io Result
  | .resolveModel userId deptId requestedModel => do
    let result ← Gateway.resolveModel userId deptId requestedModel
    pure (.resolved result)
  | .activeQuotas userId deptId modelId => do
    let quotas ← getActiveQuotasCached userId deptId modelId
    pure (.quotas quotas)
  | .mutate change hooks => do
    Gateway.mutate change hooks
    pure .mutated

def Task.Post (task : Task) (result : Result) (t : Trace Cmd Resp) : Prop :=
  match task, result with
  | .resolveModel userId deptId requestedModel, .resolved result =>
    ServedResolution userId deptId requestedModel t result
  | .activeQuotas userId deptId modelId, .quotas quotas => ServedQuotas userId deptId modelId t quotas
  | .mutate .., .mutated => True
  | _, _ => False

theorem Task.follows (task : Task) : task.prog.Follows inOrder task.Post [] := by
  cases task with
  | resolveModel userId deptId requestedModel =>
    exact .bind (resolveModel_follows userId deptId requestedModel) fun _ _ h => h
  | activeQuotas userId deptId modelId =>
    exact .bind (getActiveQuotasCached_follows userId deptId modelId) fun _ _ h => h
  | mutate change hooks => exact .bind (mutate_follows change hooks) fun _ _ h => h

/-! ## Freshness -/

/-- The counters whose bump invalidates what the call reads. -/
def Counter.Covers (b : Counter) : Task → Prop
  | .resolveModel userId deptId _ =>
    b = .catalog ∨ b = .grantUser userId ∨ b = .grantDept (deptId.getD 0)
  | .activeQuotas userId deptId _ =>
    b = .quotaGlobal ∨ b = .quotaUser userId ∨ b = .quotaDept (deptId.getD 0)
  | .mutate .. => False

abbrev GatewaySys := Sys Db Counter Key Key.Value

/-- `d` was the committed state after `v` commits or more. -/
def Since (s : GatewaySys) (v : Nat) (d : Db) : Prop := ∃ v', v ≤ v' ∧ s.Had v' d

/-- The call returns what its statements answer on states from the `v`-th commit on. A missing
department is cached as department 0 and a missing model name as the sentinel. -/
def Fresh (s : GatewaySys) (v : Nat) : Task → Result → Prop
  | .resolveModel userId deptId requestedModel, .resolved result =>
    ∃ deptId' requestedModel' d₁ d₂ d₃, deptId'.getD 0 = deptId.getD 0 ∧
      requestedModel'.getD defaultModelSentinel = requestedModel.getD defaultModelSentinel ∧
      Since s v d₁ ∧ Since s v d₂ ∧ Since s v d₃ ∧
      result = resolveFrom userId deptId' requestedModel' d₁ d₂ d₃
  | .activeQuotas userId deptId modelId, .quotas quotas =>
    ∃ (deptId' : Option Int) (d : Db), deptId'.getD 0 = deptId.getD 0 ∧ Since s v d ∧
      quotas = d.getActiveQuotas userId deptId' modelId
  | _, _ => True

section

variable {ι : Type} [DecidableEq ι]

/-- A served result is made of answers from the commit of every writer that its key counts on. -/
theorem Served.fresh {s : GatewaySys} {l : Log ι Cmd Resp} (hc : Coherent Query.answer need Makes s l)
    {r w : ι} {k : Key} {holds : k.Value → Prop} {made : Answers → Prop}
    (h : Served k holds made (own r l)) {v g n : Nat} {b : Counter} (hcommit : Committed l w v)
    (hbump : Bumped l w b g) (hn : (b, n) ∈ k.counters) (hgn : g ≤ n) :
    ∃ xs, (made xs ∨ ∃ x, holds x ∧ Makes k xs x) ∧
      ∀ y ∈ xs, ∃ d, Since s v d ∧ y.2 = y.1.answer d := by
  obtain ⟨hkey, ⟨x, hx, hhit⟩ | ⟨xs, hmade, hxs⟩⟩ := h
  · have hb := hc.hits r k x (mem_own.1 hhit)
    obtain ⟨xs, hmakes, hxs⟩ := hb.fresh hcommit hbump (need_of_mem hn) hgn
    refine ⟨xs, .inr ⟨x, hx, hmakes⟩, fun y hy => ?_⟩
    obtain ⟨v', d, hv, hd, ha⟩ := hxs y hy
    exact ⟨d, ⟨v', hv, hd⟩, ha⟩
  · obtain ⟨bs, answer, hm, hb, hread⟩ := hkey (b, n) hn
    have hr : ReadGen l r b n := ⟨bs, answer, mem_own.1 hm, hb, hread⟩
    refine ⟨xs, .inl hmade, fun y hy => ?_⟩
    obtain ⟨v', d, hv, hd, ha⟩ := hc.queried (mem_own.1 (hxs y hy)) hr hcommit hbump hgn
    exact ⟨d, ⟨v', hv, hd⟩, ha⟩

/-- In a timely run, a call that starts after a writer has bumped a counter that covers it returns
what its statements answer on states at or after that writer's commit. -/
theorem gatewayConfig_fresh {tasks : ι → Task} {s₀ : GatewaySys} (hempty : ∀ k, s₀.entries k = none)
    {P₁ P₂ : Pool ι Cmd Resp Result GatewaySys}
    (h₁ : Pool.Reach (sem Query.answer) evict (Pool.start s₀ fun i => (tasks i).prog) P₁)
    {w r : ι} {v g : Nat} {b : Counter} (hcommit : Committed P₁.log w v)
    (hbump : Bumped P₁.log w b g) (hcov : b.Covers (tasks r)) (hstart : own r P₁.log = [])
    (h₂ : Pool.Reach (sem Query.answer) evict P₁ P₂) (htimely : Timely P₂.log) {result : Result}
    (hret : P₂.thread r = .ret result) : Fresh P₂.shared v (tasks r) result := by
  have hord₀ : Pool.Ordered (fun _ => inOrder) (fun i => (tasks i).Post)
      (Pool.start s₀ fun i => (tasks i).prog) := Pool.ordered_start fun i => (tasks i).follows
  have hcoherent {P : Pool ι Cmd Resp Result GatewaySys}
      (h : Pool.Reach (sem Query.answer) evict (Pool.start s₀ fun i => (tasks i).prog) P)
      (ht : Timely P.log) : Coherent Query.answer need Makes P.shared P.log :=
    Coherent.reach (fun _ _ _ hg => hg) hord₀ (fun _ => .start hempty) h ht
  have hlog := h₂.log_suffix
  have hbumped := (hcoherent h₁ (htimely.suffix hlog)).bumped w b g hbump
  have hc := hcoherent (h₁.trans h₂) htimely
  have hcommit' : Committed P₂.log w v := hcommit.imp fun _ hm => hlog.subset hm
  have hbump' : Bumped P₂.log w b g := hlog.subset hbump
  have hgn {k : Key} {holds : k.Value → Prop} {made : Answers → Prop} {n : Nat}
      (hs : Served k holds made (own r P₂.log)) (hn : (b, n) ∈ k.counters) : g ≤ n := by
    obtain ⟨bs, answer, hm, hb, hread⟩ := hs.1 (b, n) hn
    exact readGen_after (hord₀.reach h₁) hbumped hstart h₂ ⟨bs, answer, mem_own.1 hm, hb, hread⟩
  have hpost := (hord₀.reach (h₁.trans h₂)).post hret
  cases htask : tasks r with
  | resolveModel userId deptId requestedModel =>
    rw [htask] at hcov hpost
    cases result with
    | resolved result =>
      obtain ⟨x, y, z, hs⟩ := hpost
      obtain ⟨n, hn⟩ : ∃ n, (b, n) ∈ (Key.resolve x y z userId (deptId.getD 0)
          (requestedModel.getD defaultModelSentinel)).counters := by
        rcases hcov with rfl | rfl | rfl <;> simp [Key.counters]
      obtain ⟨xs, hmade, hxs⟩ := hs.fresh hc hcommit' hbump' hn (hgn hs hn)
      rcases hmade with hr | ⟨_, ⟨model, rfl, rfl⟩, deptId', requested', model', hd, hreq, he, hr⟩
      · obtain ⟨d₁, d₂, d₃, hd₁, hd₂, hd₃, hres⟩ := hr.from hxs
        exact ⟨deptId, requestedModel, d₁, d₂, d₃, rfl, rfl, hd₁, hd₂, hd₃, hres⟩
      · cases he
        obtain ⟨d₁, d₂, d₃, hd₁, hd₂, hd₃, hres⟩ := hr.from hxs
        exact ⟨deptId', requested', d₁, d₂, d₃, hd, hreq, hd₁, hd₂, hd₃, hres⟩
    | quotas | mutated => exact hpost.elim
  | activeQuotas userId deptId modelId =>
    rw [htask] at hcov hpost
    cases result with
    | quotas quotas =>
      obtain ⟨x, y, z, hs⟩ := hpost
      obtain ⟨n, hn⟩ : ∃ n, (b, n) ∈
          (Key.quotaCfg x y z userId (deptId.getD 0) modelId).counters := by
        rcases hcov with rfl | rfl | rfl <;> simp [Key.counters]
      obtain ⟨xs, hmade, hxs⟩ := hs.fresh hc hcommit' hbump' hn (hgn hs hn)
      rcases hmade with rfl | ⟨_, rfl, deptId', quotas', hd, he, rfl⟩
      · obtain ⟨d, hsince, ha⟩ := hxs _ (List.mem_cons_self ..)
        exact ⟨deptId, d, rfl, hsince, ha⟩
      · cases he
        obtain ⟨d, hsince, ha⟩ := hxs _ (List.mem_cons_self ..)
        exact ⟨deptId', d, hd, hsince, ha⟩
    | resolved | mutated => exact hpost.elim
  | mutate change hooks =>
    rw [htask] at hcov
    exact hcov.elim

end

/-! ## A grant that is deleted during a resolution -/

def gpt : LogicalModel := ⟨1, "gpt", none, none⟩

/-- User 7 is granted the one model. -/
def granted : Db where
  logicalModels := [{ toLogicalModel := gpt, status := .active, isDeleted := false }]
  grants := [⟨5, .user, 7, 1, false, false⟩]
  quotas := []

inductive Caller
  | slow
  | admin
  | later
deriving DecidableEq

/-- Two calls resolve the model for user 7, and the grant is deleted. -/
def revocation : Caller → Task
  | .slow | .later => .resolveModel 7 none (some "gpt")
  | .admin => .mutate (softDeleteGrant 5) [.bumpGrantCacheGeneration .user 7]

/-- What the calls of a schedule leave. -/
def playRevocation (schedule : List Caller) : Pool Caller Cmd Resp Result GatewaySys :=
  Pool.play (Cmd.run Query.answer)
    (Pool.start ⟨[], granted, fun _ => none, fun _ => none⟩ fun i => (revocation i).prog) schedule

theorem covers_later : (Counter.grantUser 7).Covers (revocation .later) := Or.inr (Or.inl rfl)

/-- After the deletion nothing resolves to the model. -/
theorem resolveFrom_revoked (deptId : Option Int) :
    resolveFrom 7 deptId (some "gpt") (softDeleteGrant 5 granted) (softDeleteGrant 5 granted)
      (softDeleteGrant 5 granted) = .error (modelNotGranted gpt) := rfl

/-- The slow call has read the grant when the admin deletes it and bumps; its setter then stores the
resolution under the new generation. -/
def overlapped : Pool Caller Cmd Resp Result GatewaySys :=
  playRevocation (List.replicate 6 .slow ++ List.replicate 2 .admin ++ List.replicate 4 .slow)

/-- A call that starts after that. -/
def served : Pool Caller Cmd Resp Result GatewaySys :=
  Pool.play (Cmd.run Query.answer) overlapped (List.replicate 4 .later)

theorem since_served {d : Db} (h : Since served.shared 1 d) : d = softDeleteGrant 5 granted := by
  obtain ⟨v, hv, hhad⟩ := h
  have hpast : served.shared.past = [granted] := rfl
  have hcurrent : served.shared.current = softDeleteGrant 5 granted := rfl
  rw [Sys.Had, hpast, hcurrent] at hhad
  obtain ⟨k, rfl⟩ : ∃ k, v = k + 1 := ⟨v - 1, by omega⟩
  cases k with
  | zero => exact (Option.some.inj hhad).symm
  | succ k => cases hhad

/-- The deleted grant is served again: the call that starts after the bump gets the model. -/
theorem resolveModel_serves_revoked :
    ∃ P₁ P₂ : Pool Caller Cmd Resp Result GatewaySys,
      Pool.Reach (sem Query.answer) evict
        (Pool.start ⟨[], granted, fun _ => none, fun _ => none⟩ fun i => (revocation i).prog) P₁ ∧
      Committed P₁.log .admin 1 ∧ Bumped P₁.log .admin (.grantUser 7) 1 ∧
      (Counter.grantUser 7).Covers (revocation .later) ∧ own .later P₁.log = [] ∧
      Pool.Reach (sem Query.answer) evict P₁ P₂ ∧
      P₂.thread .later = .ret (.resolved (.ok gpt)) ∧
      ¬ Fresh P₂.shared 1 (revocation .later) (.resolved (.ok gpt)) := by
  have hcommit : overlapped.log[5]? = some (.admin, ⟨.commit (softDeleteGrant 5), 1⟩) := rfl
  have hbump : overlapped.log[4]? = some (.admin, ⟨.incr (.grantUser 7), 1⟩) := rfl
  have hown : own .later overlapped.log = [] := rfl
  have hret : served.thread .later = .ret (.resolved (.ok gpt)) := rfl
  refine ⟨overlapped, served, Pool.reach_play (sem_run _) _ _, ⟨_, List.mem_of_getElem? hcommit⟩,
    List.mem_of_getElem? hbump, covers_later, hown, Pool.reach_play (sem_run _) _ _, hret, ?_⟩
  rintro ⟨deptId, requestedModel, d₁, d₂, d₃, -, hreq, hd₁, hd₂, hd₃, hresult⟩
  rw [since_served hd₁, since_served hd₂, since_served hd₃] at hresult
  cases requestedModel with
  | none => exact absurd hreq (by decide)
  | some name =>
    change name = "gpt" at hreq
    rw [hreq, resolveFrom_revoked] at hresult
    cases hresult

/-- Without an overlap the deletion is seen. -/
theorem gatewayConfig_fresh_sequential :
    let P₁ := playRevocation (List.replicate 2 .admin)
    let P₂ := Pool.play (Cmd.run Query.answer) P₁ (List.replicate 6 .later)
    P₂.thread .later = .ret (.resolved (.error (modelNotGranted gpt))) ∧
      Fresh P₂.shared 1 (revocation .later) (.resolved (.error (modelNotGranted gpt))) := by
  intro P₁ P₂
  have hret : P₂.thread .later = .ret (.resolved (.error (modelNotGranted gpt))) := rfl
  let gens : Counter → Option Nat := Function.update (fun _ => none) (.grantUser 7) (some 1)
  have hlog : P₂.log = [(.later, ⟨.query (.userGrantedModels 7 none), ∅⟩),
      (.later, ⟨.query (.logicalModelByName "gpt"), some gpt⟩),
      (.later, ⟨.get (.resolve 0 1 0 7 0 "gpt"), none⟩), (.later, ⟨.gens [.grantDept 0], gens⟩),
      (.later, ⟨.gens [.grantUser 7], gens⟩), (.later, ⟨.gens [.catalog], gens⟩),
      (.admin, ⟨.incr (.grantUser 7), 1⟩), (.admin, ⟨.commit (softDeleteGrant 5), 1⟩)] := rfl
  have htimely : Timely P₂.log := by
    rw [hlog]
    refine ⟨fun b _ => ?_, fun b _ => ?_, fun b _ => ?_, trivial⟩ <;>
    · refine timelyRead_of_unqueried fun q a hq => ?_
      simp [Queried] at hq
  exact ⟨hret, gatewayConfig_fresh (fun _ => rfl) (Pool.reach_play (sem_run _) _ _)
    ⟨softDeleteGrant 5, List.mem_of_getElem? (i := 1) rfl⟩ (List.mem_of_getElem? (i := 0) rfl)
    covers_later rfl (Pool.reach_play (sem_run _) _ _) htimely hret⟩

end Gateway
