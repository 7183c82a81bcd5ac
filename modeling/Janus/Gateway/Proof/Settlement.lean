import Janus.Gateway.Proof.Bucket
import Janus.Gateway.Proof.Consumption
import Janus.Gateway.Proof.Ledger
import Janus.Gateway.Proof.QuotaFaults
import Janus.Gateway.Settlement

/-!
# What a finalization does to the limits

The two settlements are loops of writes (`settleReservations_tryEval`, `settleTpm_tryEval`), so under
a fault a prefix of them lands. `finalizeOn_eq`: a finalization is the quota step and then the TPM
step, whatever fails.
-/

set_option autoImplicit false

/-! ## The counters -/

namespace QuotaEnforcer

open Conc

section

variable {reservations : List QuotaReservation} {actualTokens : Int} {actualCost : Option Python.Decimal}
  {ending : Ending} {key : Key} {amount : Int} {pairs : List (Key × Int)} {s : State}

/-- The adjustments that `settle_reservations` makes, in order. -/
def settlements (reservations : List QuotaReservation) (actualTokens : Int)
    (actualCost : Option Python.Decimal) : List (Key × Int) :=
  reservations.filterMap fun res =>
    let adjustment := settlementAdjustmentForMetric res.metric res.reserved actualTokens actualCost
    if adjustment = 0 then none else some (res.key, adjustment)

/-- The adjustments that `compensate_reservations` makes, in order. -/
def refunds (reservations : List QuotaReservation) : List (Key × Int) :=
  reservations.filterMap fun res => if res.reserved = 0 then none else some (res.key, -res.reserved)

def increment (pair : Key × Int) (s : State) : State := s.incrby pair.1 pair.2

theorem count_increments :
    (applyAll (pairs.map increment) s).count key = s.count key + pairsAt key pairs := by
  induction pairs generalizing s with
  | nil => simp
  | cons pair pairs ih =>
    rw [List.map_cons, applyAll_cons, ih, pairsAt_cons, increment, count_incrby]
    split <;> omega

/-- Adjustments of 0 are left out. -/
theorem pairsAt_filterMap {f : QuotaReservation → Int} :
    pairsAt key (reservations.filterMap fun res =>
        if f res = 0 then none else some (res.key, f res)) =
      (reservations.map fun res => if res.key = key then f res else 0).sum := by
  induction reservations with
  | nil => rfl
  | cons res reservations ih =>
    rw [List.map_cons, List.sum_cons, ← ih]
    by_cases hzero : f res = 0
    · simp [hzero]
    · simp [hzero]

theorem pairsAt_refunds : pairsAt key (refunds reservations) =
    (reservations.map fun res => if res.key = key then -res.reserved else 0).sum := by
  rw [← pairsAt_filterMap]
  simp only [refunds, neg_eq_zero]

theorem incrby_get_tryEval (σ : Option Fault × State) :
    (do
      let _ ← Prog.cmd (C := Cmd) (.incrby key amount)
      let _ ← Prog.cmd (C := Cmd) (.get key)
      return : Prog Cmd Cmd.Resp Unit).tryEval (withFault (fun _ => true) (Cmd.run ending)) σ =
        Conc.round 2 (increment (key, amount)) σ := by
  obtain ⟨_ | ⟨_ | _ | n, applied⟩, s⟩ := σ
  · rfl
  · rfl
  · cases applied <;> simp [Prog.tryEval, withFault, Conc.round, Cmd.run, increment]
  · simp [Prog.tryEval, withFault, Conc.round, Cmd.run, increment]

theorem incrby_tryEval (σ : Option Fault × State) :
    (do
      let _ ← Prog.cmd (C := Cmd) (.incrby key amount)
      return : Prog Cmd Cmd.Resp Unit).tryEval (withFault (fun _ => true) (Cmd.run ending)) σ =
        Conc.round 1 (increment (key, amount)) σ := by
  obtain ⟨_ | ⟨_ | n, applied⟩, s⟩ := σ <;> rfl

theorem settleReservations_tryEval (σ : Option Fault × State) :
    (settleReservations reservations actualTokens actualCost).tryEval
      (withFault (fun _ => true) (Cmd.run ending)) σ =
        rounds 2 ((settlements reservations actualTokens actualCost).map increment) σ := by
  unfold settlements settleReservations
  rw [List.map_filterMap]
  refine Prog.tryEval_forM (fun res h => ?_) (fun res w h σ => ?_) σ
  · by_cases hzero :
        settlementAdjustmentForMetric res.metric res.reserved actualTokens actualCost = 0
    · simp only [hzero, ne_eq, not_true_eq_false, if_false]
      rfl
    · simp [hzero] at h
  · by_cases hzero :
        settlementAdjustmentForMetric res.metric res.reserved actualTokens actualCost = 0
    · simp [hzero] at h
    · simp only [hzero, if_false, Option.map_some, Option.some.injEq] at h
      subst h
      simp only [hzero, ne_eq, not_false_iff, if_true]
      exact incrby_get_tryEval σ

theorem compensateReservations_tryEval (σ : Option Fault × State) :
    (compensateReservations reservations).tryEval (withFault (fun _ => true) (Cmd.run ending)) σ =
      rounds 1 ((refunds reservations).map increment) σ := by
  unfold refunds compensateReservations
  rw [List.map_filterMap]
  refine Prog.tryEval_forM (fun res h => ?_) (fun res w h σ => ?_) σ
  · by_cases hzero : res.reserved = 0
    · simp only [hzero, ne_eq, not_true_eq_false, if_false]
      rfl
    · simp [hzero] at h
  · by_cases hzero : res.reserved = 0
    · simp [hzero] at h
    · simp only [hzero, if_false, Option.map_some, Option.some.injEq] at h
      subst h
      simp only [hzero, ne_eq, not_false_iff, if_true]
      exact incrby_tryEval σ

end

end QuotaEnforcer

/-! ## The buckets -/

namespace RateLimit

open Conc

section

variable {rules : List Rule} {rule : Rule} {delta limit : Int} {key : Key} {s : State}
  {pairs : List (Rule × Int)} {pair : Rule × Int}

/-- The rules with a token limit, and the limit. -/
def tpmRules (rules : List Rule) : List (Rule × Int) :=
  rules.filterMap fun rule => rule.tpmLimit.map (rule, ·)

/-- `_LUA_TPM_SETTLE` on the bucket of a rule. -/
def settleRule (delta : Int) (pair : Rule × Int) (s : State) : State :=
  s.tpmSettle pair.1.tpmKey delta (pair.1.burst pair.2) tpmBucketTtlMs pair.2

/-- The scripts that `settle_tpm` runs, in order. -/
def bucketWrites (delta : Int) (rules : List Rule) : List (State → State) :=
  if delta = 0 then [] else (tpmRules rules).map (settleRule delta)

theorem settleBucket_tryEval (σ : Option Fault × State) :
    (settleBucket rule.tpmKey delta (rule.burst limit) tpmBucketTtlMs limit).run.tryEval
      (withFault (fun _ => true) Cmd.run) σ =
        ((Conc.round 1 (settleRule delta (rule, limit)) σ).1.map .ok,
          (Conc.round 1 (settleRule delta (rule, limit)) σ).2) := by
  obtain ⟨_ | ⟨_ | n, applied⟩, s⟩ := σ <;> rfl

theorem settleTpm_tryEval (rules : List Rule) (delta : Int) (σ : Option Fault × State) :
    (settleTpm rules delta).run.tryEval (withFault (fun _ => true) Cmd.run) σ =
      ((rounds 1 (bucketWrites delta rules) σ).1.map .ok,
        (rounds 1 (bucketWrites delta rules) σ).2) := by
  unfold settleTpm bucketWrites
  by_cases hzero : delta = 0
  · simp only [hzero, ne_eq, not_true_eq_false, if_false, if_true]
    rfl
  · simp only [hzero, ne_eq, not_false_iff, if_true, if_false]
    unfold tpmRules
    rw [List.map_filterMap]
    refine Raising.tryEval_forM (fun rule h => ?_) (fun rule w h σ => ?_) σ
    · cases hlimit : rule.tpmLimit with
      | none => rfl
      | some limit => simp [hlimit] at h
    · cases hlimit : rule.tpmLimit with
      | none => simp [hlimit] at h
      | some limit =>
        simp only [hlimit, Option.map_some, Option.some.injEq] at h
        subst h
        exact settleBucket_tryEval σ

/-- Without a fault. -/
theorem settleTpm_eval : (settleTpm rules delta).run.eval Cmd.run s =
    (.ok (), applyAll (bucketWrites delta rules) s) := by
  have hrun := settleTpm_tryEval rules delta (none, s)
  rw [Prog.tryEval_withFault_none, rounds_none] at hrun
  obtain ⟨houtcome, hstate⟩ := Prod.mk.inj hrun
  exact Prod.ext (Option.some.inj houtcome) (Prod.mk.inj hstate).2

theorem bucketWrites_sets :
    (applyAll (bucketWrites delta rules) s).sets = s.sets ∧
      (applyAll (bucketWrites delta rules) s).time = s.time := by
  unfold bucketWrites
  split
  · exact ⟨rfl, rfl⟩
  · generalize tpmRules rules = pairs
    induction pairs generalizing s with
    | nil => exact ⟨rfl, rfl⟩
    | cons pair pairs ih =>
      have hwrite : (settleRule delta pair s).sets = s.sets ∧
          (settleRule delta pair s).time = s.time := by
        unfold settleRule State.tpmSettle
        split <;> exact ⟨rfl, rfl⟩
      rw [List.map_cons, applyAll_cons, ih.1, ih.2]
      exact hwrite

/-- What a settlement makes of a bucket. -/
def Bucket.settled (delta burst : Int) (bucket : Bucket) : Bucket :=
  { bucket with tokens := min burst (bucket.tokens + delta) }

theorem bucket_settleRule : (settleRule delta pair s).bucket pair.1.tpmKey =
    (s.bucket pair.1.tpmKey).map (.settled delta (pair.1.burst pair.2)) :=
  bucket_tpmSettle (by decide)

theorem bucket_settleRule_ne (h : pair.1.tpmKey ≠ key) :
    (settleRule delta pair s).bucket key = s.bucket key :=
  bucket_run_ne (c := .tpmSettle pair.1.tpmKey delta (pair.1.burst pair.2) tpmBucketTtlMs pair.2)
    fun hkey => h (Option.some.inj hkey)

theorem bucket_settles_ne (h : ∀ pair ∈ pairs, pair.1.tpmKey ≠ key) :
    (applyAll (pairs.map (settleRule delta)) s).bucket key = s.bucket key := by
  induction pairs generalizing s with
  | nil => rfl
  | cons pair pairs ih =>
    rw [List.map_cons, applyAll_cons, ih fun p hp => h p (List.mem_cons_of_mem _ hp)]
    exact bucket_settleRule_ne (h pair List.mem_cons_self)

theorem bucket_settles (hnodup : (pairs.map (·.1.tpmKey)).Nodup) (hpair : pair ∈ pairs) :
    (applyAll (pairs.map (settleRule delta)) s).bucket pair.1.tpmKey =
      (s.bucket pair.1.tpmKey).map (.settled delta (pair.1.burst pair.2)) := by
  induction pairs generalizing s with
  | nil => cases hpair
  | cons first pairs ih =>
    rw [List.map_cons, List.nodup_cons] at hnodup
    rw [List.map_cons, applyAll_cons]
    rcases List.mem_cons.1 hpair with rfl | hpair
    · rw [bucket_settles_ne fun p hp hkey => hnodup.1 (List.mem_map.2 ⟨p, hp, hkey⟩)]
      exact bucket_settleRule
    · have hne : first.1.tpmKey ≠ pair.1.tpmKey := fun hkey =>
        hnodup.1 (List.mem_map.2 ⟨pair, hpair, hkey.symm⟩)
      rw [ih hnodup.2 hpair, bucket_settleRule_ne hne]

theorem tpmRules_nodup (hids : DistinctIds rules) : ((tpmRules rules).map (·.1.tpmKey)).Nodup := by
  have hids' : ((tpmRules rules).map (·.1.id)).Nodup := by
    refine List.Nodup.sublist ?_ hids
    unfold tpmRules
    rw [List.map_filterMap]
    induction rules with
    | nil => exact .slnil
    | cons rule rules ih =>
      have hrest := ih (List.Nodup.of_cons hids)
      cases hlimit : rule.tpmLimit with
      | none =>
        rw [List.filterMap_cons_none (by simp [hlimit])]
        exact hrest.cons _
      | some limit =>
        rw [List.filterMap_cons_some (b := rule.id) (by simp [hlimit])]
        exact hrest.cons_cons _
  refine List.Nodup.map_on (fun p hp q hq hkey => ?_) (List.Nodup.of_map _ hids')
  exact List.inj_on_of_nodup_map hids' hp hq (tpmKey_inj hkey)

end

end RateLimit

/-! ## The two steps -/

namespace Gateway.Handler

open Conc Python RateLimit

section

variable (keyOf : String → QuotaEnforcer.Key) (decimal : Rat → Decimal)
  (ctx : GatewayRequestContext) (logicalModel : LogicalModel) (rules : List Rule) (b : Books)

/-- The upstream did no work. -/
def Idle : Prop := ctx.promptTokens = 0 ∧ ctx.completionTokens = 0

instance : Decidable (Idle ctx) := inferInstanceAs (Decidable (_ ∧ _))

/-- What the quota step adds to the counters, in order. -/
def adjustments : List (QuotaEnforcer.Key × Int) :=
  let reservations := (openReservations ctx).map (enforced keyOf decimal)
  if Idle ctx then QuotaEnforcer.refunds reservations
  else QuotaEnforcer.settlements reservations ctx.totalTokens
    ((computeCost logicalModel ctx.promptTokens ctx.completionTokens).map decimal)

/-- The quota step moves the counters by what its calls charge, less what was reserved. -/
theorem pairsAt_adjustments {t : Calls} {key : QuotaEnforcer.Key}
    (hquota : quotaCalls t = quotaBill ctx logicalModel) :
    QuotaEnforcer.pairsAt key (adjustments keyOf decimal ctx logicalModel) =
      ((openReservations ctx).map fun res =>
        if keyOf res.key = key then charged decimal t res - res.reserved else 0).sum := by
  unfold quotaBill at hquota
  unfold adjustments
  dsimp only
  by_cases hnil : openReservations ctx = []
  · rw [hnil]
    exact congrArg (QuotaEnforcer.pairsAt key) (ite_self _)
  rw [if_neg hnil] at hquota
  have hcharged (res : QuotaReservation) : charged decimal t res - res.reserved =
      ((quotaCalls t).map (Cmd.adjustment decimal res)).sum := by
    unfold charged
    omega
  by_cases hidle : Idle ctx
  · rw [if_pos (show _ ∧ _ from hidle)] at hquota
    rw [if_pos hidle, QuotaEnforcer.pairsAt_refunds, List.map_map]
    refine congrArg List.sum (List.map_congr_left fun res hres => ?_)
    rw [hcharged, hquota, List.map_singleton, List.sum_singleton, Cmd.adjustment, if_pos hres]
    rfl
  · rw [if_neg (show ¬ (_ ∧ _) from hidle)] at hquota
    rw [if_neg hidle]
    refine QuotaEnforcer.pairsAt_filterMap.trans ?_
    rw [List.map_map]
    refine congrArg List.sum (List.map_congr_left fun res hres => ?_)
    rw [hcharged, hquota, List.map_singleton, List.sum_singleton, Cmd.adjustment, if_pos hres]
    rfl

/-- The commands of one adjustment: a settlement reads the counter again. -/
def commandsEach : Nat := if Idle ctx then 1 else 2

/-- The reservation less the actual usage. -/
def deltaTokens : Int := reservedTokens ctx - ctx.totalTokens

def quotaFailure : BillingFailure :=
  ⟨"quota_settle", ctx.requestId, .redis, .quota ctx.userId ctx.logicalModelId ctx.totalTokens⟩

def tpmFailure : BillingFailure :=
  ⟨"tpm_settle", ctx.requestId, .redis,
    .tpm (deltaTokens ctx) (reservedTokens ctx) ctx.totalTokens (rules.map ruleIdentity)⟩

/-- The loop of the quota step. -/
def quotaRounds : Option Unit × Option Fault × QuotaEnforcer.State :=
  rounds (commandsEach ctx) ((adjustments keyOf decimal ctx logicalModel).map QuotaEnforcer.increment)
    (b.quotaFault, b.limits.quota)

/-- The loop of the TPM step. -/
def tpmRounds : Option Unit × Option Fault × RateLimit.State :=
  rounds 1 (bucketWrites (deltaTokens ctx) rules) (b.tpmFault, b.limits.limiter)

/-- The quota step on the books. -/
def quotaStep : GatewayRequestContext × Books :=
  if openReservations ctx = [] then (ctx, b)
  else
    match quotaRounds keyOf decimal ctx logicalModel b with
    | (some (), quotaFault, quota) =>
      ({ ctx with quotaSettled := true },
        { b with quotaFault, limits := { b.limits with quota } })
    | (none, quotaFault, quota) =>
      (ctx, { b with
        quotaFault, limits := { b.limits with quota }
        deadLetters := b.deadLetters ++ [quotaFailure ctx] })

/-- The TPM step on the books. -/
def tpmStep : Books :=
  if rules = [] then b
  else
    match tpmRounds ctx rules b with
    | (some (), tpmFault, limiter) => { b with tpmFault, limits := { b.limits with limiter } }
    | (none, tpmFault, limiter) =>
      { b with
        tpmFault, limits := { b.limits with limiter }
        deadLetters := b.deadLetters ++ [tpmFailure ctx rules] }

end

section

variable {keyOf : String → QuotaEnforcer.Key} {decimal : Rat → Decimal}
  {ctx : GatewayRequestContext} {logicalModel : LogicalModel} {rules : List Rule} {b : Books}

theorem eval_call {S : Type} {f : (c : Cmd) → S → c.Resp × S} {c : Cmd} {s : S} :
    (call c).run.eval f s = (.ok (f c s).1, (f c s).2) := rfl

/-- A settlement whose error is handled. `q` says what is done with its answer. -/
theorem eval_settling {S α : Type} {f : (c : Cmd) → S → c.Resp × S} {p : Io (Except Exn Unit)}
    {q : Except Exn Unit → Io α} {a : α} {handler : Exn → Io α} {s s' : S} {answer : Except Exn Unit}
    (h : p.run.eval f s = (.ok answer, s'))
    (hq : ∀ answer s, (q answer).run.eval f s =
      ((answer.map fun _ => a).mapError Raised.exception, s)) :
    (tryExcept (p >>= q) handler).run.eval f s =
      match answer with
      | .ok () => (.ok a, s')
      | .error e => (handler e).run.eval f s' := by
  have hbody : (p >>= q).run.eval f s = ((answer.map fun _ => a).mapError Raised.exception, s') := by
    rw [Raising.eval_bind_ok h, hq]
  unfold tryExcept
  refine (Prog.eval_bind (p := (p >>= q).run)).trans ?_
  rw [hbody]
  rcases answer with e | ⟨⟩ <;> rfl

theorem settling_eval {S α : Type} {f : (c : Cmd) → S → c.Resp × S} {a : α} (answer : Except Exn Unit)
    (s : S) : (settling answer >>= fun _ => pure a).run.eval f s =
      ((answer.map fun _ => a).mapError Raised.exception, s) := by
  rcases answer with e | ⟨⟩ <;> rfl

theorem onQuota_eq {p : Prog QuotaEnforcer.Cmd QuotaEnforcer.Cmd.Resp Unit} {k : Nat}
    {ws : List (QuotaEnforcer.State → QuotaEnforcer.State)}
    (h : ∀ σ, p.tryEval (withFault (fun _ => true) (QuotaEnforcer.Cmd.run .compensate)) σ =
      rounds k ws σ) :
    onQuota p b = (answerOf (rounds k ws (b.quotaFault, b.limits.quota)).1,
      { b with
        quotaFault := (rounds k ws (b.quotaFault, b.limits.quota)).2.1
        limits := { b.limits with quota := (rounds k ws (b.quotaFault, b.limits.quota)).2.2 } }) := by
  unfold onQuota
  rw [h]

theorem settleQuota_eval : (settleQuota ctx logicalModel).run.eval (perform keyOf decimal) b =
    (.ok (quotaStep keyOf decimal ctx logicalModel b).1,
      (quotaStep keyOf decimal ctx logicalModel b).2) := by
  unfold settleQuota quotaStep
  by_cases hskip : ctx.quotaSettled ∨ ¬ ctx.quotaReserved
  · have hnone : openReservations ctx = [] := if_pos hskip
    rw [if_pos hskip, if_pos hnone]
    rfl
  · have hopen : openReservations ctx = ctx.quotaReservations := if_neg hskip
    rw [if_neg hskip, hopen]
    by_cases hnil : ctx.quotaReservations = []
    · simp only [hnil, ne_eq, not_true_eq_false, if_false, if_true]
      rfl
    · have hperform : ∀ answer quotaFault quota,
          quotaRounds keyOf decimal ctx logicalModel b = (answer, quotaFault, quota) →
          (if Idle ctx then perform keyOf decimal (.compensateReservations ctx.quotaReservations) b
            else perform keyOf decimal (.settleReservations ctx.quotaReservations ctx.totalTokens
              (computeCost logicalModel ctx.promptTokens ctx.completionTokens)) b) =
            (answerOf answer, { b with quotaFault, limits := { b.limits with quota } }) := by
        intro answer quotaFault quota h
        unfold quotaRounds adjustments commandsEach at h
        rw [hopen] at h
        split
        · next hidle =>
          simp only [if_pos hidle] at h
          refine (onQuota_eq fun σ => QuotaEnforcer.compensateReservations_tryEval σ).trans ?_
          rw [h]
        · next hidle =>
          simp only [if_neg hidle] at h
          refine (onQuota_eq fun σ => QuotaEnforcer.settleReservations_tryEval σ).trans ?_
          rw [h]
      generalize quotaRounds keyOf decimal ctx logicalModel b = answer at hperform
      obtain ⟨answer, quotaFault, quota⟩ := answer
      have hanswer := hperform _ _ _ rfl
      simp only [hnil, ne_eq, not_false_iff, if_true, if_false]
      by_cases hidle : Idle ctx
      · rw [if_pos hidle] at hanswer
        unfold Idle at hidle
        simp only [if_pos hidle]
        refine (eval_settling (eval_call.trans (congrArg (fun r => (Except.ok r.1, r.2)) hanswer))
          settling_eval).trans ?_
        rcases answer with _ | ⟨⟩ <;> rfl
      · rw [if_neg hidle] at hanswer
        unfold Idle at hidle
        simp only [if_neg hidle]
        refine (eval_settling (eval_call.trans (congrArg (fun r => (Except.ok r.1, r.2)) hanswer))
          settling_eval).trans ?_
        rcases answer with _ | ⟨⟩ <;> rfl

theorem onLimiter_eq {p : RateLimit.Io Unit} {k : Nat} {ws : List (RateLimit.State → RateLimit.State)}
    (h : ∀ σ, p.run.tryEval (withFault (fun _ => true) RateLimit.Cmd.run) σ =
      ((rounds k ws σ).1.map .ok, (rounds k ws σ).2)) :
    onLimiter p b = (answerOf (rounds k ws (b.tpmFault, b.limits.limiter)).1,
      { b with
        tpmFault := (rounds k ws (b.tpmFault, b.limits.limiter)).2.1
        limits := { b.limits with limiter := (rounds k ws (b.tpmFault, b.limits.limiter)).2.2 } }) := by
  unfold onLimiter
  rw [h]
  dsimp only
  cases (rounds k ws (b.tpmFault, b.limits.limiter)).1 <;> rfl

theorem settleTpmOf_eval : (settleTpmOf ctx rules).run.eval (perform keyOf decimal) b =
    (.ok (), tpmStep ctx rules b) := by
  unfold settleTpmOf tpmStep
  by_cases hnil : rules = []
  · rw [if_neg (not_not.2 hnil), if_pos hnil]
    rfl
  · have hperform : ∀ answer tpmFault limiter, tpmRounds ctx rules b = (answer, tpmFault, limiter) →
        perform keyOf decimal (.settleTpm rules (deltaTokens ctx)) b =
          (answerOf answer, { b with tpmFault, limits := { b.limits with limiter } }) := by
      intro answer tpmFault limiter h
      unfold tpmRounds at h
      refine (onLimiter_eq fun σ => settleTpm_tryEval _ _ σ).trans ?_
      rw [h]
    generalize tpmRounds ctx rules b = answer at hperform
    obtain ⟨answer, tpmFault, limiter⟩ := answer
    have hanswer := hperform _ _ _ rfl
    rw [if_pos hnil, if_neg hnil]
    refine (eval_settling (a := ())
      (eval_call.trans (congrArg (fun r => (Except.ok r.1, r.2)) hanswer)) fun answer s => ?_).trans ?_
    · rcases answer with e | ⟨⟩ <;> rfl
    · rcases answer with _ | ⟨⟩ <;> rfl

theorem recordChannelHealth_eval :
    (recordChannelHealth ctx).run.eval (perform keyOf decimal) b = (.ok (), b) := by
  unfold recordChannelHealth
  cases ctx.channelId <;> rfl

theorem enqueueUsage_eval :
    (enqueueUsage ctx logicalModel).run.eval (perform keyOf decimal) b = (.ok (), b) := rfl

theorem enqueueLog_eval : (enqueueLog ctx).run.eval (perform keyOf decimal) b = (.ok (), b) := rfl

/-- The quota step leaves the usage alone. -/
theorem tpmStep_quotaStep : tpmStep (quotaStep keyOf decimal ctx logicalModel b).1 rules
    (quotaStep keyOf decimal ctx logicalModel b).2 =
      tpmStep ctx rules (quotaStep keyOf decimal ctx logicalModel b).2 := by
  unfold quotaStep
  split
  · rfl
  · split <;> rfl

end

/-- A finalization returns: it is the quota step and then the TPM step. -/
theorem finalizeOn_eq (keyOf : String → QuotaEnforcer.Key) (decimal : Rat → Decimal)
    (z : Finalization) (b : Books) : finalizeOn keyOf decimal z b =
      (.ok (quotaStep keyOf decimal (captured z.ctx z.reservations) z.logicalModel b).1,
        tpmStep (captured z.ctx z.reservations) z.rules
          (quotaStep keyOf decimal (captured z.ctx z.reservations) z.logicalModel b).2) := by
  unfold finalizeOn finalizeContext
  show (settleQuota (captured z.ctx z.reservations) z.logicalModel >>= _).run.eval _ b = _
  rw [Raising.eval_bind_ok settleQuota_eval, Raising.eval_bind_ok enqueueUsage_eval, Raising.eval_bind_ok enqueueLog_eval,
    Raising.eval_bind_ok recordChannelHealth_eval, Raising.eval_bind_ok settleTpmOf_eval]
  exact congrArg _ tpmStep_quotaStep

end Gateway.Handler
