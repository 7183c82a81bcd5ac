import Janus.Gateway.Proof.Accounts

/-!
# Quota and TPM reservations of a request

`reservations_reconciled_iff`: exactly when an admitted request settles or compensates every quota
reservation once and reconciles every TPM reservation once. What goes wrong otherwise is an
exception or a cancellation after the reservations that no cleanup catches (`CleansUp`).
-/

set_option autoImplicit false

namespace Gateway.Handler

open Conc Janus Python RateLimit

/-- The rules whose TPM bucket an admitted request has taken its estimate from. -/
def tpmReservations (w : World) : List Rule := w.rules.filter (·.tpmLimit.isSome)

/-- The reservations that a call settles or compensates. -/
def Cmd.settled : Cmd → List QuotaReservation
  | .settleReservations reservations _ _ | .compensateReservations reservations => reservations
  | _ => []

/-- The rules whose bucket a call reconciles. -/
def Cmd.reconciled : Cmd → List Rule
  | .settleTpm rules _ => rules.filter (·.tpmLimit.isSome)
  | _ => []

/-- Every quota reservation is settled or compensated exactly once, and every TPM reservation
reconciled exactly once. -/
structure Reconciled (w : World) (t : Calls) : Prop where
  quota : ∀ r, (t.flatMap (·.cmd.settled)).count r = (quotaReservations w).count r
  tpm : ∀ rule, (t.flatMap (·.cmd.reconciled)).count rule = (tpmReservations w).count rule

/-! ## When a cleanup is reached -/

/-- The upstream call raises, or what it returns passes the handler's helpers and, as a stream, is
started and has an iterator. -/
def OpenedCleansUp (w : World) (stream : Bool) (passes : Upstream → Prop) : Prop :=
  (∃ e, w.opened = .raises e) ∨
    ∃ u, w.opened = .value u ∧ passes u ∧ (stream = true → w.starts = true ∧ u.iterError = none)

def CompletionCleansUp (w : World) (stream : Bool) (params : Fields) : Prop :=
  ∃ cacheable, isCacheableRequest stream w.responseCacheEnabled params = .ok cacheable ∧
    match if cacheable then w.cached else none with
    | some cached => (extractUsage w.parseInt (.dict cached)).isOk
    | none => w.router = true ∧ OpenedCleansUp w stream fun u =>
        stream = true ∨ (extractUsage w.parseInt u.body).isOk

def NativeCleansUp (w : World) (stream : Bool) (features : Except Python.Error (Finset String))
    (usage : Value → Except Python.Error Usage) : Prop :=
  w.router = true ∧ OpenedCleansUp w stream fun u =>
    features.isOk ∧ (stream = true ∨ (usage u.body).isOk)

/-- Nothing raises between the quota check and the cleanup. -/
def CleansUp (w : World) (logicalModel : LogicalModel) : Request → Prop
  | .chatCompletions payload => CompletionCleansUp w payload.stream payload.extra
  | .messages payload =>
    NativeCleansUp w payload.stream
      (requestedFeaturesFromParams payload.messages (payload.nativeParams logicalModel))
      (extractAnthropicUsage w.parseInt)
  | .generateContent payload stream =>
    NativeCleansUp w stream
      (requestedFeaturesFromParams payload.contents (payload.nativeParams logicalModel))
      (extractGeminiUsageFromResponse w.parseInt)
  | .responses payload =>
    payload.requestedFeatures.isOk ∧ (w.router = false ∨ OpenedCleansUp w payload.stream fun u =>
      payload.stream = true ∨ (extractResponsesUsage w.parseInt u.body).isOk)
  | .embeddings _ =>
    w.router = true ∧ OpenedCleansUp w false fun u => (extractEmbeddingUsage w.parseInt u.body).isOk

section

variable {w : World}

theorem exitHelper_ne {T : Type} {result : Except Python.Error T} {exit : Exit} :
    exitHelper result exit ≠ .abandoned ↔ result.isOk = true ∧ exit ≠ .abandoned := by
  unfold exitHelper
  split <;> simp [*]

theorem exitRouter_ne {exit : Exit} :
    exitRouter w exit ≠ .abandoned ↔ w.router = true ∧ exit ≠ .abandoned := by
  unfold exitRouter
  split <;> simp [*]

theorem exitStream_ne {u : Upstream} :
    exitStream w u ≠ .abandoned ↔ w.starts = true ∧ u.iterError = none := by
  unfold exitStream exitIter
  cases w.starts <;> cases u.iterError <;> simp

theorem exitOpened_ne {exit : Upstream → Exit} {stream : Bool} {passes : Upstream → Prop}
    (h : ∀ u, exit u ≠ .abandoned ↔
      passes u ∧ (stream = true → w.starts = true ∧ u.iterError = none)) :
    exitOpened w.opened exit ≠ .abandoned ↔ OpenedCleansUp w stream passes := by
  unfold exitOpened OpenedCleansUp
  cases w.opened with
  | value u => simp [Awaited.elim, h u]
  | raises e => simp [Awaited.elim]
  | cancelled => simp [Awaited.elim]

theorem exitCompletion_ne {stream : Bool} {params : Fields} :
    exitCompletion w stream params ≠ .abandoned ↔ CompletionCleansUp w stream params := by
  unfold exitCompletion CompletionCleansUp
  cases isCacheableRequest stream w.responseCacheEnabled params with
  | error e => simp
  | ok cacheable =>
    simp only [Except.ok.injEq, exists_eq_left']
    cases (if cacheable then w.cached else none) with
    | some cached => simp [exitHelper_ne]
    | none =>
      simp only [exitRouter_ne]
      refine and_congr_right fun _ => exitOpened_ne fun u => ?_
      cases stream <;> simp [exitHelper_ne, exitStream_ne]

theorem exitNative_ne {stream : Bool} {features : Except Python.Error (Finset String)}
    {usage : Value → Except Python.Error Usage} :
    exitNative w stream features usage ≠ .abandoned ↔ NativeCleansUp w stream features usage := by
  unfold exitNative NativeCleansUp
  rw [exitRouter_ne]
  refine and_congr_right fun _ => exitOpened_ne fun u => ?_
  cases stream <;> simp [exitHelper_ne, exitStream_ne, and_comm]

theorem exitResponses_ne {payload : ResponsesRequest} :
    exitResponses w payload ≠ .abandoned ↔
      payload.requestedFeatures.isOk ∧
        (w.router = false ∨ OpenedCleansUp w payload.stream fun u =>
          payload.stream = true ∨ (extractResponsesUsage w.parseInt u.body).isOk) := by
  unfold exitResponses
  rw [exitHelper_ne]
  refine and_congr_right fun _ => ?_
  cases hr : w.router with
  | false => simp
  | true =>
    simp only [if_true, Bool.true_eq_false, false_or]
    refine exitOpened_ne fun u => ?_
    cases payload.stream <;> simp [exitHelper_ne, exitStream_ne]

theorem exitEmbeddings_ne :
    exitEmbeddings w ≠ .abandoned ↔ w.router = true ∧ OpenedCleansUp w false fun u =>
      (extractEmbeddingUsage w.parseInt u.body).isOk := by
  unfold exitEmbeddings
  rw [exitRouter_ne]
  refine and_congr_right fun _ => exitOpened_ne fun u => ?_
  simp [exitHelper_ne]

theorem exitOpened_denied {opened : Awaited Upstream} {exit : Upstream → Exit}
    (h : ∀ u, exit u ≠ .denied) : exitOpened opened exit ≠ .denied := by
  unfold exitOpened
  cases opened with
  | value u => exact h u
  | raises e => simp [Awaited.elim]
  | cancelled => simp [Awaited.elim]

theorem exitHelper_denied {T : Type} {result : Except Python.Error T} {exit : Exit}
    (h : exit ≠ .denied) : exitHelper result exit ≠ .denied := by
  unfold exitHelper
  split
  · exact h
  · simp

theorem exitRouter_denied {exit : Exit} (h : exit ≠ .denied) : exitRouter w exit ≠ .denied := by
  unfold exitRouter
  split
  · exact h
  · simp

theorem exitStream_denied {u : Upstream} : exitStream w u ≠ .denied := by
  unfold exitStream exitIter
  split <;> [split; skip] <;> simp

/-- Only the quota check denies. -/
theorem exit_denied {logicalModel : LogicalModel} {request : Request}
    (h : exit w logicalModel request = .denied) : ∃ e, w.quota = .raises e := by
  unfold exit exitQuota at h
  cases hq : w.quota with
  | raises e => exact ⟨e, rfl⟩
  | cancelled => simp [hq, Awaited.elim] at h
  | value q =>
    rw [hq] at h
    refine absurd h ?_
    have hstream (st : Bool) (u : Upstream) {x : Exit} (hx : x ≠ .denied) :
        (if st then exitStream w u else x) ≠ .denied := by
      split
      · exact exitStream_denied
      · exact hx
    have hfinal {T : Type} (result : Except Python.Error T) :
        exitHelper result .finalized ≠ .denied := exitHelper_denied (by simp)
    cases request with
    | chatCompletions payload =>
      show exitCompletion w _ _ ≠ .denied
      unfold exitCompletion
      split
      · simp
      · split
        · exact hfinal _
        · exact exitRouter_denied (exitOpened_denied fun u => hstream _ u (hfinal _))
    | messages payload =>
      refine exitRouter_denied (exitOpened_denied fun u => ?_)
      split
      · exact exitHelper_denied exitStream_denied
      · exact exitHelper_denied (hfinal _)
    | generateContent payload stream =>
      refine exitRouter_denied (exitOpened_denied fun u => ?_)
      split
      · exact exitHelper_denied exitStream_denied
      · exact exitHelper_denied (hfinal _)
    | responses payload =>
      refine exitHelper_denied ?_
      split
      · exact exitOpened_denied fun u => hstream _ u (hfinal _)
      · simp
    | embeddings payload => exact exitRouter_denied (exitOpened_denied fun u => hfinal _)

theorem exit_ne {logicalModel : LogicalModel} {request : Request} :
    exit w logicalModel request ≠ .abandoned ↔
      (∃ e, w.quota = .raises e) ∨ ∃ q, w.quota = .value q ∧ CleansUp w logicalModel request := by
  unfold exit exitQuota
  cases w.quota with
  | raises e => simp [Awaited.elim]
  | cancelled => simp [Awaited.elim]
  | value q =>
    cases request with
    | chatCompletions payload => simp [Awaited.elim, CleansUp, ← exitCompletion_ne]
    | messages payload => simp [Awaited.elim, CleansUp, ← exitNative_ne]
    | generateContent payload stream => simp [Awaited.elim, CleansUp, ← exitNative_ne]
    | responses payload => simp only [Awaited.elim, CleansUp, ← exitResponses_ne]; simp
    | embeddings payload => simp only [Awaited.elim, CleansUp, ← exitEmbeddings_ne]; simp

end

/-! ## Counting reservations -/

section

variable {w : World} {stream : Bool} {t : Calls}

/-- Where the calls of one kind name the same items, they name each as often as there are calls. -/
theorem count_named {β : Type} [DecidableEq β] {k : Kind} {named : Cmd → List β} {l : List β}
    (hnamed : ∀ t c, Own w stream t c → named c = if c.kind = some k then l else [])
    (h : Trace.Guarded (Own w stream) t) (b : β) :
    (t.flatMap (fun e => named e.cmd)).count b = calls k t * l.count b := by
  induction t with
  | nil => simp [calls]
  | cons e t ih =>
    rw [List.flatMap_cons, List.count_append, ih h.2, calls_cons, Nat.add_mul, Nat.add_comm]
    congr 1
    rw [hnamed _ _ h.1]
    unfold Cmd.tally
    split <;> simp

theorem count_settled (h : Trace.Guarded (Own w stream) t) (r : QuotaReservation) :
    (t.flatMap (·.cmd.settled)).count r = calls .quota t * (quotaReservations w).count r := by
  refine count_named (fun t c hown => ?_) h r
  cases c <;> simp_all [Cmd.settled, Cmd.kind, Own]

/-- The rules whose bucket a settlement of the request reconciles. -/
def reconciledRules (w : World) : List Rule :=
  (w.named .settleTpm).filter (·.tpmLimit.isSome)

theorem count_reconciled (h : Trace.Guarded (Own w stream) t) (rule : Rule) :
    (t.flatMap (·.cmd.reconciled)).count rule = calls .tpm t * (reconciledRules w).count rule := by
  refine count_named (fun t c hown => ?_) h rule
  cases c <;> simp_all [Cmd.reconciled, Cmd.kind, Own, reconciledRules]

end

/-- The rollback gets to every TPM reservation before it is cancelled, if it is. -/
def RollbackReconciles (w : World) : Prop :=
  ∀ done, w.rollbackCut .settleTpm = some done → ∀ rule ∈ w.rules.drop done, rule.tpmLimit = none

/-- No exception or cancellation leaves a reservation standing. -/
def NothingStands (w : World) (request : Request) : Prop :=
  (quotaReservations w = [] ∧ tpmReservations w = []) ∨
    (∃ e, w.quota = .raises e) ∧ RollbackReconciles w ∨
    ∃ q logicalModel, w.quota = .value q ∧ w.model = .ok logicalModel ∧
      CleansUp w logicalModel request

section

variable {w : World} {logicalModel : LogicalModel} {request : Request}

/-- Every exit but `abandoned` settles the quota reservations, if there are any. -/
theorem tally_quota (h : exit w logicalModel request ≠ .abandoned) (r : QuotaReservation) :
    (exit w logicalModel request).tally w .quota * (quotaReservations w).count r =
      (quotaReservations w).count r := by
  by_cases hq : quotaReservations w = []
  · simp [hq]
  · have hone : (exit w logicalModel request).tally w .quota = 1 := by
      cases hx : exit w logicalModel request with
      | abandoned => exact absurd hx h
      | finalized => simp [Exit.tally, quotaTally, tpmTally, hq]
      | streamed => simp [Exit.tally, streamTally, cleanupTally, spawnTally, quotaTally, tpmTally, slotsTally, hq]
      | denied =>
        obtain ⟨e, he⟩ := exit_denied hx
        exact absurd (by simp [quotaReservations, he]) hq
    rw [hone, Nat.one_mul]

theorem named_nil (hr : w.rules = []) (step : RollbackStep) : w.named step = [] := by
  unfold World.named World.reached
  split
  · split <;> simp [hr]
  · exact hr

/-- Every exit but `abandoned` calls one settlement, if there are rules. -/
theorem tally_tpm (h : exit w logicalModel request ≠ .abandoned) (rule : Rule) :
    (exit w logicalModel request).tally w .tpm * (reconciledRules w).count rule =
      (reconciledRules w).count rule := by
  by_cases hr : w.rules = []
  · simp [reconciledRules, named_nil hr]
  · have hone : (exit w logicalModel request).tally w .tpm = 1 := by
      cases hx : exit w logicalModel request with
      | abandoned => exact absurd hx h
      | finalized => simp [Exit.tally, quotaTally, tpmTally, hr]
      | streamed => simp [Exit.tally, streamTally, cleanupTally, spawnTally, quotaTally, tpmTally, slotsTally, hr]
      | denied =>
        unfold Exit.tally rollbackTally
        split <;> simp [tpmTally, slotsTally, hr]
    rw [hone, Nat.one_mul]

theorem eq_nil_of_count {β : Type} [DecidableEq β] {l : List β} (h : ∀ b, 0 = l.count b) :
    l = [] := by
  refine List.eq_nil_iff_forall_not_mem.2 fun b hb => ?_
  have := List.count_pos_iff.2 hb
  have := h b
  omega

/-- Only a rollback that is cancelled settles less than what was reserved. -/
theorem reconciledRules_iff : (∀ rule, (reconciledRules w).count rule = (tpmReservations w).count rule) ↔
    ∀ e, w.quota = .raises e → RollbackReconciles w := by
  unfold reconciledRules tpmReservations RollbackReconciles
  cases hq : w.quota with
  | value q => simp [← named_value hq]
  | cancelled => simp [World.named, hq]
  | raises e =>
    rw [← named_raises hq]
    unfold World.reached
    cases hcut : w.rollbackCut .settleTpm with
    | none => simp
    | some done =>
      dsimp only
      -- what the rollback does not get to must have no TPM limit
      have hsplit (rule : Rule) : (w.rules.filter (·.tpmLimit.isSome)).count rule =
          ((w.rules.take done).filter (·.tpmLimit.isSome)).count rule +
            ((w.rules.drop done).filter (·.tpmLimit.isSome)).count rule := by
        rw [← List.count_append, ← List.filter_append, List.take_append_drop]
      constructor
      · intro h _ _ done' hdone rule hrule
        cases hdone
        have hnil := eq_nil_of_count fun rule => (by
          have := h rule
          have := hsplit rule
          omega : 0 = ((w.rules.drop done).filter (·.tpmLimit.isSome)).count rule)
        simpa using List.filter_eq_nil_iff.1 hnil rule hrule
      · intro h rule
        have hnil : (w.rules.drop done).filter (·.tpmLimit.isSome) = [] :=
          List.filter_eq_nil_iff.2 fun rule hrule => by simp [h e rfl done rfl rule hrule]
        rw [hsplit, hnil, List.count_nil, Nat.add_zero]

theorem rollbackReconciles_of_nil (h : tpmReservations w = []) : RollbackReconciles w := by
  intro done _ rule hrule
  simpa using List.filter_eq_nil_iff.1 h rule (List.mem_of_mem_drop hrule)

end

theorem reservations_reconciled_iff {S : Type} {E : Sem Cmd Cmd.Resp S} {env : S → S → Prop}
    {w : World} {request : Request} {s s' : S} {outcome : Except Raised Unit} {t : Calls}
    (h : (serve w (handle w request)).run.Runs E env s [] outcome s' t)
    (hadmitted : ∃ e ∈ t, Admits e) : Reconciled w t ↔ NothingStands w request := by
  obtain ⟨logicalModel, hm, hcalls⟩ := h.post (serve_accounts request) hadmitted
  have hguard : Trace.Guarded (Own w request.stream) t :=
    (h.invariant (J := fun _ _ => True) (serve_accounts request) trivial trivial
      (fun _ _ _ _ => trivial) fun _ _ => trivial).2
  have hquota (r : QuotaReservation) := count_settled hguard r
  have htpm (rule : Rule) := count_reconciled hguard rule
  rw [hcalls] at hquota htpm
  by_cases hx : exit w logicalModel request = .abandoned
  · -- nothing was given back, so nothing may have been reserved
    simp only [hx, Exit.tally, Pi.zero_apply, Nat.zero_mul] at hquota htpm
    constructor
    · intro hr
      refine .inl ⟨eq_nil_of_count fun r => ?_, eq_nil_of_count fun rule => ?_⟩
      · rw [← hr.quota r, hquota r]
      · rw [← hr.tpm rule, htpm rule]
    · intro hn
      obtain ⟨hq, ht⟩ | ⟨⟨e, he⟩, -⟩ | ⟨q, model, hq, hm', hclean⟩ := hn
      · exact ⟨fun r => by rw [hquota r, hq]; rfl, fun rule => by rw [htpm rule, ht]; rfl⟩
      · exact absurd hx (exit_ne.2 (.inl ⟨e, he⟩))
      · rw [hm] at hm'
        cases hm'
        exact absurd hx (exit_ne.2 (.inr ⟨q, hq, hclean⟩))
  · have hreconciled : Reconciled w t ↔ ∀ e, w.quota = .raises e → RollbackReconciles w := by
      rw [← reconciledRules_iff]
      have htpm (rule : Rule) := (htpm rule).trans (tally_tpm hx rule)
      constructor
      · exact fun hr rule => (htpm rule).symm.trans (hr.tpm rule)
      · exact fun hr => ⟨fun r => (hquota r).trans (tally_quota hx r), fun rule => (htpm rule).trans (hr rule)⟩
    rw [hreconciled]
    constructor
    · intro hrollback
      obtain ⟨e, he⟩ | ⟨q, hq, hclean⟩ := exit_ne.1 hx
      · exact .inr (.inl ⟨⟨e, he⟩, hrollback e he⟩)
      · exact .inr (.inr ⟨q, logicalModel, hq, hm, hclean⟩)
    · intro hn e he
      obtain ⟨-, ht⟩ | ⟨-, hrollback⟩ | ⟨q, model, hq, -, -⟩ := hn
      · exact rollbackReconciles_of_nil ht
      · exact hrollback
      · rw [hq] at he
        cases he

/-! ## A parameter that the cache check cannot compare -/

/-- A call answers without a Redis failure. -/
def Succeeds : (c : Cmd) → c.Resp → Prop
  | .settleTpm .., answer => answer = .ok ()
  | .settleReservations .., answer => answer = .ok ()
  | .compensateReservations .., answer => answer = .ok ()
  | _, _ => True

def sampleRule : Rule where
  id := 3
  subjectType := "user"
  subjectId := some 7
  logicalModelId := none
  rpmLimit := none
  tpmLimit := some 60000
  tpmBurstLimit := none
  maxConcurrent := some 2

def sampleReservation : QuotaReservation where
  key := "quota:9:20250101"
  quotaId := 9
  metric := .requests
  scope := .user
  enforce := true
  limitValue := 1000

/-- A user with one rule and one quota, a response cache, and an upstream that answers a stream. -/
def sampleWorld : World where
  user := ⟨7, none, none⟩
  requestId := "r1"
  member := "m1"
  responseCacheEnabled := true
  responseCacheTtlSeconds := 300
  parseInt := fun _ => none
  fingerprint := fun _ _ _ => "f"
  support := fun _ _ _ => none
  accumulateAnthropicUsage := fun s _ => (s, none)
  accumulateGeminiUsage := fun s _ => (s, none)
  model := .ok ⟨1, "gpt", none, none⟩
  rules := [sampleRule]
  quota := .value { passed := true, reservations := [sampleReservation] }
  cached := none
  router := true
  opened := .value { body := .dict [] }
  starts := true
  lastRead := .resumed

/-- `{"messages": [], "n": null}`. -/
def nullChoices : Request := .chatCompletions ⟨none, false, [], [("n", .none)]⟩

/-- `None > 1` raises after both reservations. -/
theorem null_choices_stand :
    ∃ outcome t, (serve sampleWorld (handle sampleWorld nullChoices)).run.Runs
        (fun c (_ : Unit) r _ => Succeeds c r) (fun _ _ => True) () [] outcome () t ∧
      (∃ e ∈ t, Admits e) ∧ ¬ Reconciled sampleWorld t := by
  let check : Event Cmd Cmd.Resp :=
    ⟨.checkRateLimits "m1" 100 false [sampleRule], { allowed := true }⟩
  let quota : Event Cmd Cmd.Resp := ⟨.checkQuota 100 none, ()⟩
  refine ⟨.error (.exception (.python .typeError)), [quota, check], ?_, ⟨quota, by simp, trivial⟩, ?_⟩
  · exact ⟨(), { allowed := true }, (), trivial, trivial, (), (), (), trivial, trivial, rfl, rfl,
      trivial⟩
  · intro h
    exact absurd (h.quota sampleReservation) (by decide)

/-- The quota check raises. -/
def deniedWorld : World := { sampleWorld with quota := .raises .other }

def deniedTrace : Calls :=
  [⟨.releaseConcurrent "m1" [sampleRule], ()⟩, ⟨.releaseRpm "m1" [sampleRule], ()⟩,
    ⟨.settleTpm [sampleRule] 100, .ok ()⟩, ⟨.checkQuota 100 none, ()⟩,
    ⟨.checkRateLimits "m1" 100 false [sampleRule], { allowed := true }⟩]

theorem runs_denied :
    (serve deniedWorld (handle deniedWorld nullChoices)).run.Runs
      (fun c (_ : Unit) r _ => Succeeds c r) (fun _ _ => True) () []
      (.error (.exception .other)) () deniedTrace :=
  ⟨(), { allowed := true }, (), trivial, trivial, (), (), (), trivial, trivial,
    (), .ok (), (), trivial, rfl, (), (), (), trivial, trivial, (), (), (), trivial, trivial,
    rfl, rfl, trivial⟩

theorem reservations_reconciled_denied : Reconciled deniedWorld deniedTrace :=
  (reservations_reconciled_iff runs_denied ⟨⟨.checkQuota 100 none, ()⟩, by simp [deniedTrace], trivial⟩).2
    (.inr (.inl ⟨⟨.other, rfl⟩, fun _ hcut => by cases hcut⟩))

end Gateway.Handler
