import Janus.Gateway.Proof.Refinalize

/-!
# The billing dead letters

An entry names the request and the totals, but neither the counters and the amounts that had been
reserved on them nor the limits of the rules. `not_replayable`: two finalizations that write the
same entry and leave the same limits were to end differently.
-/

set_option autoImplicit false

namespace Gateway.Handler

open Conc Python RateLimit

/-- A replay of the entry completes every finalization that has written this entry and no other. It
may read the limits as that finalization has left them. -/
def Replayable (keyOf : String → QuotaEnforcer.Key) (decimal : Rat → Decimal)
    (entry : BillingFailure) : Prop :=
  ∃ replay : Limits → Limits, ∀ z limits quotaFault tpmFault,
    (finalizeOn keyOf decimal z { limits, quotaFault, tpmFault }).2.deadLetters = [entry] →
      SameLimits (replay (finalizeOn keyOf decimal z { limits, quotaFault, tpmFault }).2.limits)
        (finalizeOnce keyOf decimal z limits)

section

variable {keyOf : String → QuotaEnforcer.Key} {decimal : Rat → Decimal}
  {ctx : GatewayRequestContext} {logicalModel : LogicalModel} {rules : List Rule} {b : Books}
  {entry : BillingFailure}

/-! ## What a finalization writes -/

theorem quotaStep_deadLetters
    (h : entry ∈ (quotaStep keyOf decimal ctx logicalModel b).2.deadLetters) :
    entry ∈ b.deadLetters ∨ entry = quotaFailure ctx := by
  unfold quotaStep at h
  split at h
  · exact .inl h
  · split at h
    · exact .inl h
    · simpa using h

theorem tpmStep_deadLetters (h : entry ∈ (tpmStep ctx rules b).deadLetters) :
    entry ∈ b.deadLetters ∨ entry = tpmFailure ctx rules ∧ rules ≠ [] ∧ deltaTokens ctx ≠ 0 := by
  unfold tpmStep at h
  split at h
  · exact .inl h
  · next hrules =>
    split at h
    · exact .inl h
    · next hstop =>
      rcases List.mem_append.1 h with h | h
      · exact .inl h
      · refine .inr ⟨List.mem_singleton.1 h, hrules, fun hzero => ?_⟩
        -- without a delta there is no command that can fail
        have hwrites : bucketWrites (deltaTokens ctx) rules = [] := if_pos hzero
        unfold tpmRounds at hstop
        rw [hwrites] at hstop
        cases hstop

/-! ## Two quota settlements with one entry -/

/-- One reservation of tokens, `i` above what is to be settled. -/
def overReserved (ctx : GatewayRequestContext) (i : Int) : QuotaReservation :=
  { billedReservation with reserved := if Idle ctx then i else ctx.totalTokens + i }

def quotaTwin (ctx : GatewayRequestContext) (logicalModel : LogicalModel) (i : Int) : Finalization :=
  ⟨{ ctx with quotaReserved := true, quotaSettled := false }, logicalModel, [], [overReserved ctx i]⟩

theorem quotaTwin_adjustments {i : Int} (hi : i ≠ 0) :
    adjustments keyOf decimal (captured (quotaTwin ctx logicalModel i).ctx [overReserved ctx i])
      logicalModel = [(keyOf billedReservation.key, -i)] := by
  have hopen : openReservations (captured (quotaTwin ctx logicalModel i).ctx
      [overReserved ctx i]) = [overReserved ctx i] := rfl
  unfold adjustments
  rw [hopen]
  by_cases hidle : Idle ctx
  · have htwin : Idle (captured (quotaTwin ctx logicalModel i).ctx [overReserved ctx i]) := hidle
    rw [if_pos htwin]
    simp [QuotaEnforcer.refunds, enforced, overReserved, hidle, hi]
  · have htwin : ¬ Idle (captured (quotaTwin ctx logicalModel i).ctx [overReserved ctx i]) := hidle
    have htotal : (captured (quotaTwin ctx logicalModel i).ctx
        [overReserved ctx i]).totalTokens = ctx.totalTokens := rfl
    rw [if_neg htwin, htotal]
    simp [QuotaEnforcer.settlements, QuotaEnforcer.settlementAdjustmentForMetric, enforced,
      overReserved, metricOf, billedReservation, hidle, hi]

/-- The first command of the quota step fails. -/
theorem quotaStep_fails (h : adjustments keyOf decimal ctx logicalModel ≠ []) (limits : Limits) :
    quotaStep keyOf decimal ctx logicalModel { limits, quotaFault := some ⟨0, false⟩ } =
      (ctx, { limits, deadLetters := [quotaFailure ctx] }) := by
  have hopen : openReservations ctx ≠ [] := fun hnil => h (adjustments_nil hnil)
  have hfirst : 0 < commandsEach ctx * ((adjustments keyOf decimal ctx logicalModel).map
      QuotaEnforcer.increment).length := by
    rw [List.length_map]
    exact Nat.mul_pos (commandsEach_pos ctx) (List.length_pos_iff.2 h)
  have hrounds := rounds_struck (s := limits.quota) (φ := ⟨0, false⟩)
    (commandsEach_pos ctx) hfirst
  have hlanded : Fault.landed (commandsEach ctx) ⟨0, false⟩ = 0 := by simp [Fault.landed]
  rw [hlanded] at hrounds
  unfold quotaStep quotaRounds
  rw [if_neg hopen, hrounds]
  rfl

theorem quotaTwin_fails (keyOf : String → QuotaEnforcer.Key) (decimal : Rat → Decimal)
    (ctx : GatewayRequestContext) (logicalModel : LogicalModel) (limits : Limits) {i : Int} (hi : i ≠ 0) :
    (finalizeOn keyOf decimal (quotaTwin ctx logicalModel i)
      { limits, quotaFault := some ⟨0, false⟩ }).2 =
        { limits, deadLetters := [quotaFailure ctx] } := by
  have hadjust : adjustments keyOf decimal (captured (quotaTwin ctx logicalModel i).ctx
      (quotaTwin ctx logicalModel i).reservations) (quotaTwin ctx logicalModel i).logicalModel ≠ [] :=
    quotaTwin_adjustments hi ▸ List.cons_ne_nil _ _
  rw [finalizeOn_eq, quotaStep_fails hadjust]
  rfl

theorem quotaTwin_once {i : Int} (hi : i ≠ 0) (limits : Limits) :
    (finalizeOnce keyOf decimal (quotaTwin ctx logicalModel i) limits).quota.count
      (keyOf billedReservation.key) = limits.quota.count (keyOf billedReservation.key) - i := by
  have hadjust : adjustments keyOf decimal (captured (quotaTwin ctx logicalModel i).ctx
      (quotaTwin ctx logicalModel i).reservations) (quotaTwin ctx logicalModel i).logicalModel = _ :=
    quotaTwin_adjustments hi
  rw [finalizeOnce_quota, hadjust, QuotaEnforcer.count_increments, QuotaEnforcer.pairsAt_cons,
    if_pos rfl, QuotaEnforcer.pairsAt_nil]
  omega

/-- The counters were to lose 1 and 2. -/
theorem quotaFailure_not_replayable : ¬ Replayable keyOf decimal (quotaFailure ctx) := by
  rintro ⟨replay, h⟩
  let limits : Limits := ⟨QuotaEnforcer.freshState, emptyState⟩
  have htwin : ∀ i : Int, i ≠ 0 → (replay limits).quota.count (keyOf billedReservation.key) =
      limits.quota.count (keyOf billedReservation.key) - i := by
    intro i hi
    have hfails := quotaTwin_fails keyOf decimal ctx ⟨1, "gpt", none, none⟩ limits hi
    have hsame := h (quotaTwin ctx ⟨1, "gpt", none, none⟩ i) limits (some ⟨0, false⟩) none
      (by rw [hfails])
    rw [hfails] at hsame
    rw [← quotaTwin_once hi limits]
    exact hsame.1 _
  have hone := htwin 1 (by decide)
  have htwo := htwin 2 (by decide)
  omega

/-! ## Two settlements of a bucket with one entry -/

/-- The first rule has this limit, the others have none. -/
def limitedTo (limit : Int) : List Rule → List Rule
  | [] => []
  | rule :: rules =>
    { rule with tpmLimit := some limit, tpmBurstLimit := none } ::
      rules.map fun rule => { rule with tpmLimit := none }

def tpmTwin (ctx : GatewayRequestContext) (rules : List Rule) (limit : Int) : Finalization :=
  ⟨{ ctx with quotaReserved := false }, ⟨1, "gpt", none, none⟩, limitedTo limit rules, []⟩

theorem limitedTo_identities {limit : Int} :
    (limitedTo limit rules).map ruleIdentity = rules.map ruleIdentity := by
  cases rules with
  | nil => rfl
  | cons rule rules =>
    simp only [limitedTo, List.map_cons, List.map_map]
    rfl

theorem limitedTo_tpmRules {rule : Rule} {limit : Int} : tpmRules (limitedTo limit (rule :: rules)) =
    [({ rule with tpmLimit := some limit, tpmBurstLimit := none }, limit)] := by
  simp [tpmRules, limitedTo]

/-- The bucket of the first rule, which a settlement fills to 2. -/
def twinLimits (ctx : GatewayRequestContext) (rule : Rule) : Limits where
  quota := QuotaEnforcer.freshState
  limiter := { emptyState with
    buckets := Redis.Table.empty.set rule.tpmKey ⟨2 - deltaTokens ctx, 0⟩ (some 1860000) }

theorem tpmTwin_fails (keyOf : String → QuotaEnforcer.Key) (decimal : Rat → Decimal) (rule : Rule)
    (rules : List Rule) (limit : Int) (limits : Limits) (hdelta : deltaTokens ctx ≠ 0) :
    (finalizeOn keyOf decimal (tpmTwin ctx (rule :: rules) limit)
      { limits, tpmFault := some ⟨0, false⟩ }).2 =
        { limits, deadLetters := [tpmFailure ctx (rule :: rules)] } := by
  have hopen : openReservations (captured (tpmTwin ctx (rule :: rules) limit).ctx
      (tpmTwin ctx (rule :: rules) limit).reservations) = [] := by
    simp [openReservations, captured, tpmTwin]
  have hstep : ∀ b, quotaStep keyOf decimal (captured (tpmTwin ctx (rule :: rules) limit).ctx
      (tpmTwin ctx (rule :: rules) limit).reservations) (tpmTwin ctx (rule :: rules) limit).logicalModel
        b = (captured (tpmTwin ctx (rule :: rules) limit).ctx
          (tpmTwin ctx (rule :: rules) limit).reservations, b) := fun b => if_pos hopen
  have hwrites : bucketWrites (deltaTokens (tpmTwin ctx (rule :: rules) limit).ctx)
      (limitedTo limit (rule :: rules)) = [settleRule (deltaTokens ctx)
        ({ rule with tpmLimit := some limit, tpmBurstLimit := none }, limit)] := by
    show bucketWrites (deltaTokens ctx) _ = _
    unfold bucketWrites
    rw [if_neg hdelta, limitedTo_tpmRules]
    rfl
  have hfailure : tpmFailure (tpmTwin ctx (rule :: rules) limit).ctx (limitedTo limit (rule :: rules)) =
      tpmFailure ctx (rule :: rules) := by
    unfold tpmFailure
    rw [limitedTo_identities]
    rfl
  rw [finalizeOn_eq, hstep]
  show tpmStep (tpmTwin ctx (rule :: rules) limit).ctx (limitedTo limit (rule :: rules)) _ = _
  unfold tpmStep tpmRounds
  rw [if_neg (by simp [limitedTo])]
  rw [hwrites, hfailure]
  rfl

theorem tpmTwin_once (keyOf : String → QuotaEnforcer.Key) (decimal : Rat → Decimal) {rule : Rule}
    (rules : List Rule) {limit : Int} (hdelta : deltaTokens ctx ≠ 0) (hle : limit ≤ 2) :
    (finalizeOnce keyOf decimal (tpmTwin ctx (rule :: rules) limit)
      (twinLimits ctx rule)).limiter.bucket rule.tpmKey = some ⟨limit, 0⟩ := by
  let limited : Rule × Int := ({ rule with tpmLimit := some limit, tpmBurstLimit := none }, limit)
  have hbucket : (twinLimits ctx rule).limiter.bucket limited.1.tpmKey =
      some ⟨2 - deltaTokens ctx, 0⟩ := by
    have hlive : 0 < 1860000 := by decide
    exact Redis.Table.get_set_self hlive
  have hwrites : bucketWrites (deltaTokens ctx) (limitedTo limit (rule :: rules)) =
      [limited].map (settleRule (deltaTokens ctx)) := by
    unfold bucketWrites
    rw [if_neg hdelta, limitedTo_tpmRules]
  have hsettled : (applyAll ([limited].map (settleRule (deltaTokens ctx)))
      (twinLimits ctx rule).limiter).bucket limited.1.tpmKey = _ :=
    bucket_settles (List.nodup_singleton _) List.mem_cons_self
  rw [hbucket] at hsettled
  rw [finalizeOnce_limiter]
  show (applyAll (bucketWrites (deltaTokens ctx) (limitedTo limit (rule :: rules)))
    (twinLimits ctx rule).limiter).bucket limited.1.tpmKey = _
  rw [hwrites, hsettled]
  have htokens : min limit (2 - deltaTokens ctx + deltaTokens ctx) = limit := by omega
  exact congrArg (fun tokens => some (⟨tokens, 0⟩ : Bucket)) htokens

/-- The bucket was to end at 1 and at 2. -/
theorem tpmFailure_not_replayable (hrules : rules ≠ []) (hdelta : deltaTokens ctx ≠ 0) :
    ¬ Replayable keyOf decimal (tpmFailure ctx rules) := by
  rintro ⟨replay, h⟩
  obtain ⟨rule, rules, rfl⟩ := List.exists_cons_of_ne_nil hrules
  have htwin : ∀ limit : Int, limit ≤ 2 →
      (replay (twinLimits ctx rule)).limiter.bucket rule.tpmKey = some ⟨limit, 0⟩ := by
    intro limit hle
    have hfails := tpmTwin_fails keyOf decimal rule rules limit (twinLimits ctx rule) hdelta
    have hsame := h (tpmTwin ctx (rule :: rules) limit) (twinLimits ctx rule) none (some ⟨0, false⟩)
      (by rw [hfails])
    rw [hfails] at hsame
    rw [← tpmTwin_once keyOf decimal rules hdelta hle]
    exact hsame.2 _
  have hone := htwin 1 (by decide)
  have htwo := htwin 2 (by decide)
  rw [hone] at htwo
  exact absurd htwo (by decide)

end

/-- No entry that a finalization writes can be replayed. -/
theorem not_replayable (keyOf : String → QuotaEnforcer.Key) (decimal : Rat → Decimal)
    (z : Finalization) (limits : Limits) (quotaFault tpmFault : Option Fault) (entry : BillingFailure)
    (h : entry ∈ (finalizeOn keyOf decimal z { limits, quotaFault, tpmFault }).2.deadLetters) :
    ¬ Replayable keyOf decimal entry := by
  rw [finalizeOn_eq] at h
  rcases tpmStep_deadLetters h with h | ⟨rfl, hrules, hdelta⟩
  · rcases quotaStep_deadLetters h with h | rfl
    · cases h
    · exact quotaFailure_not_replayable
  · exact tpmFailure_not_replayable hrules hdelta

/-- The increment of the one quota fails, and its reservation of 100 tokens is not in the entry. -/
theorem billed_entry : quotaFailure (billedContext ⟨5, 7, 12⟩) ∈
    (finalizeOn billedKey (fun _ => .ofInt 0) billedFinalization
      { limits := bucketOf 900, quotaFault := some ⟨0, false⟩ }).2.deadLetters := by
  have hadjust : adjustments billedKey (fun _ => .ofInt 0) (captured billedFinalization.ctx
      billedFinalization.reservations) billedFinalization.logicalModel ≠ [] := by decide
  rw [finalizeOn_eq, quotaStep_fails hadjust]
  exact List.mem_cons_self

theorem unreplayable_entry : ¬ ∀ keyOf decimal z limits quotaFault tpmFault,
    ∀ entry ∈ (finalizeOn keyOf decimal z { limits, quotaFault, tpmFault }).2.deadLetters,
      Replayable keyOf decimal entry :=
  fun h => quotaFailure_not_replayable (h _ _ _ _ _ none _ billed_entry)

theorem billed_entry_not_replayable :
    ¬ Replayable billedKey (fun _ => .ofInt 0) (quotaFailure (billedContext ⟨5, 7, 12⟩)) :=
  not_replayable _ _ billedFinalization (bucketOf 900) (some ⟨0, false⟩) none _ billed_entry

end Gateway.Handler
