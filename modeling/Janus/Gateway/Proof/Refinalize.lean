import Janus.Gateway.Proof.Settlement

/-!
# A second finalization

The quota step is done once when it has been completed; the TPM step has no flag.
`refinalize_iff`: when two finalizations leave the limits that one leaves.
-/

set_option autoImplicit false

namespace Gateway.Handler

open Conc Python RateLimit

/-- Every counter and every bucket is the same. -/
def SameLimits (l l' : Limits) : Prop :=
  (∀ key, l.quota.count key = l'.quota.count key) ∧ ∀ key, l.limiter.bucket key = l'.limiter.bucket key

section Steps

variable {keyOf : String → QuotaEnforcer.Key} {decimal : Rat → Decimal}
  {ctx : GatewayRequestContext} {logicalModel : LogicalModel} {rules : List Rule} {b : Books}

theorem commandsEach_pos (ctx : GatewayRequestContext) : 0 < commandsEach ctx := by
  unfold commandsEach
  split <;> omega

theorem adjustments_nil (h : openReservations ctx = []) :
    adjustments keyOf decimal ctx logicalModel = [] := by
  unfold adjustments
  rw [h]
  split <;> rfl

/-- Where the quota step stops, the context is as it was. -/
theorem quotaStep_struck (h : Fault.Strikes b.quotaFault
    (commandsEach ctx * (adjustments keyOf decimal ctx logicalModel).length)) :
    (quotaStep keyOf decimal ctx logicalModel b).1 = ctx := by
  obtain ⟨-, hstops⟩ := rounds_eq (commandsEach_pos ctx) ((adjustments keyOf decimal ctx logicalModel).map
    QuotaEnforcer.increment) b.quotaFault b.limits.quota
  rw [List.length_map] at hstops
  unfold quotaStep quotaRounds
  split
  · rfl
  · generalize rounds (commandsEach ctx) _ (b.quotaFault, b.limits.quota) = answer at hstops ⊢
    obtain ⟨_ | ⟨⟩, fault, quota⟩ := answer
    · rfl
    · exact nomatch hstops.2 h

/-- Otherwise nothing is open any more. -/
theorem quotaStep_open (h : ¬ Fault.Strikes b.quotaFault
    (commandsEach ctx * (adjustments keyOf decimal ctx logicalModel).length)) :
    openReservations (quotaStep keyOf decimal ctx logicalModel b).1 = [] := by
  obtain ⟨-, hstops⟩ := rounds_eq (commandsEach_pos ctx) ((adjustments keyOf decimal ctx logicalModel).map
    QuotaEnforcer.increment) b.quotaFault b.limits.quota
  rw [List.length_map] at hstops
  unfold quotaStep quotaRounds
  split
  · assumption
  · generalize rounds (commandsEach ctx) _ (b.quotaFault, b.limits.quota) = answer at hstops ⊢
    obtain ⟨_ | ⟨⟩, fault, quota⟩ := answer
    · exact absurd (hstops.1 rfl) h
    · exact if_pos (.inl rfl)

/-- Only the flag may change. -/
theorem quotaStep_flag (keyOf : String → QuotaEnforcer.Key) (decimal : Rat → Decimal)
    (ctx : GatewayRequestContext) (logicalModel : LogicalModel) (b : Books) : ∃ settled,
    (quotaStep keyOf decimal ctx logicalModel b).1 = { ctx with quotaSettled := settled } := by
  unfold quotaStep
  split
  · exact ⟨ctx.quotaSettled, rfl⟩
  · split
    · exact ⟨true, rfl⟩
    · exact ⟨ctx.quotaSettled, rfl⟩

theorem quotaStep_quota : (quotaStep keyOf decimal ctx logicalModel b).2.limits.quota =
    applyAll ((Fault.cut (commandsEach ctx) b.quotaFault
      (adjustments keyOf decimal ctx logicalModel)).map QuotaEnforcer.increment) b.limits.quota := by
  unfold quotaStep
  by_cases hnil : openReservations ctx = []
  · have hcut : Fault.cut (commandsEach ctx) b.quotaFault ([] : List (QuotaEnforcer.Key × Int)) = [] :=
      Fault.cut_eq (commandsEach_pos ctx) fun ⟨φ, _, h⟩ => by simp at h
    rw [if_pos hnil, adjustments_nil hnil, hcut]
    rfl
  · obtain ⟨hstate, -⟩ := rounds_eq (commandsEach_pos ctx) ((adjustments keyOf decimal ctx
      logicalModel).map QuotaEnforcer.increment) b.quotaFault b.limits.quota
    rw [if_neg hnil, Fault.map_cut, ← hstate]
    unfold quotaRounds
    split
    · next h => rw [h]
    · next h => rw [h]

theorem quotaStep_limiter :
    (quotaStep keyOf decimal ctx logicalModel b).2.limits.limiter = b.limits.limiter ∧
      (quotaStep keyOf decimal ctx logicalModel b).2.tpmFault = b.tpmFault := by
  unfold quotaStep
  split
  · exact ⟨rfl, rfl⟩
  · split <;> exact ⟨rfl, rfl⟩

theorem tpmStep_limiter : (tpmStep ctx rules b).limits.limiter =
    applyAll (Fault.cut 1 b.tpmFault (bucketWrites (deltaTokens ctx) rules)) b.limits.limiter := by
  unfold tpmStep
  by_cases hnil : rules = []
  · have hwrites : bucketWrites (deltaTokens ctx) rules = [] := by
      subst hnil
      unfold bucketWrites
      split <;> rfl
    have hcut : Fault.cut 1 b.tpmFault ([] : List (RateLimit.State → RateLimit.State)) = [] :=
      Fault.cut_eq Nat.one_pos fun ⟨φ, _, h⟩ => by simp at h
    rw [if_pos hnil, hwrites, hcut]
    rfl
  · rw [if_neg hnil, ← (rounds_eq Nat.one_pos _ b.tpmFault b.limits.limiter).1]
    unfold tpmRounds
    split
    · next h => rw [h]
    · next h => rw [h]

theorem tpmStep_quota : (tpmStep ctx rules b).limits.quota = b.limits.quota := by
  unfold tpmStep
  split
  · rfl
  · split <;> rfl

end Steps

/-! ## Both finalizations -/

section

variable (keyOf : String → QuotaEnforcer.Key) (decimal : Rat → Decimal) (z : Finalization)
  (limits : Limits) (quotaFault tpmFault : Option Fault)

/-- What the adjustments that the first finalization has made before its quota step stopped come to,
if it did: nothing. -/
def QuotaUntouched : Prop :=
  let ctx := captured z.ctx z.reservations
  let pairs := adjustments keyOf decimal ctx z.logicalModel
  Fault.Strikes quotaFault (commandsEach ctx * pairs.length) →
    ∀ key, QuotaEnforcer.pairsAt key (Fault.cut (commandsEach ctx) quotaFault pairs) = 0

/-- Every bucket that the first finalization has settled had nothing to settle, or is refunded up to
its burst. -/
def BucketsFull : Prop :=
  ∀ pair ∈ Fault.cut 1 tpmFault (tpmRules z.rules), ∀ bucket,
    limits.limiter.bucket pair.1.tpmKey = some bucket →
      deltaTokens z.ctx = 0 ∨
        0 < deltaTokens z.ctx ∧ pair.1.burst pair.2 ≤ bucket.tokens + deltaTokens z.ctx

variable {keyOf decimal z limits quotaFault tpmFault}

theorem deltaTokens_captured : deltaTokens (captured z.ctx z.reservations) = deltaTokens z.ctx := by
  unfold captured
  split <;> rfl

/-- The flag does not reopen what a finalization has captured. -/
theorem captured_flag {settled : Bool} :
    captured { captured z.ctx z.reservations with quotaSettled := settled } z.reservations =
      { captured z.ctx z.reservations with quotaSettled := settled } := by
  unfold captured
  by_cases h : z.reservations = [] <;> simp [h]

theorem finalizeOnce_quota : (finalizeOnce keyOf decimal z limits).quota =
    applyAll ((adjustments keyOf decimal (captured z.ctx z.reservations) z.logicalModel).map
      QuotaEnforcer.increment) limits.quota := by
  unfold finalizeOnce
  rw [finalizeOn_eq]
  exact tpmStep_quota.trans quotaStep_quota

/-- The counters after a finalization, by what its calls charge. -/
theorem finalizeOnce_count {t : Calls} {key : QuotaEnforcer.Key}
    (hquota : quotaCalls t = quotaBill (captured z.ctx z.reservations) z.logicalModel) :
    (finalizeOnce keyOf decimal z limits).quota.count key = limits.quota.count key +
      ((openReservations (captured z.ctx z.reservations)).map fun res =>
        if keyOf res.key = key then charged decimal t res - res.reserved else 0).sum := by
  rw [finalizeOnce_quota, QuotaEnforcer.count_increments]
  exact congrArg _ (pairsAt_adjustments keyOf decimal _ z.logicalModel hquota)

theorem finalizeOnce_limiter : (finalizeOnce keyOf decimal z limits).limiter =
    applyAll (bucketWrites (deltaTokens z.ctx) z.rules) limits.limiter := by
  unfold finalizeOnce
  rw [finalizeOn_eq]
  refine tpmStep_limiter.trans ?_
  rw [quotaStep_limiter.1, quotaStep_limiter.2, deltaTokens_captured]
  rfl

/-- The counters after both: what the first has made of them, and all the adjustments again if its
quota step has stopped. -/
theorem finalizeTwice_quota (keyOf : String → QuotaEnforcer.Key) (decimal : Rat → Decimal)
    (z : Finalization) (limits : Limits) (quotaFault tpmFault : Option Fault) : ∃ pairs,
    (finalizeTwice keyOf decimal z limits quotaFault tpmFault).quota =
      applyAll (pairs.map QuotaEnforcer.increment)
        (applyAll ((Fault.cut (commandsEach (captured z.ctx z.reservations)) quotaFault
          (adjustments keyOf decimal (captured z.ctx z.reservations) z.logicalModel)).map
            QuotaEnforcer.increment) limits.quota) ∧
    (Fault.Strikes quotaFault (commandsEach (captured z.ctx z.reservations) *
        (adjustments keyOf decimal (captured z.ctx z.reservations) z.logicalModel).length) →
      pairs = adjustments keyOf decimal (captured z.ctx z.reservations) z.logicalModel) ∧
    (¬ Fault.Strikes quotaFault (commandsEach (captured z.ctx z.reservations) *
        (adjustments keyOf decimal (captured z.ctx z.reservations) z.logicalModel).length) →
      pairs = []) := by
  let b : Books := { limits, quotaFault, tpmFault }
  let step := quotaStep keyOf decimal (captured z.ctx z.reservations) z.logicalModel b
  have hcaptured : captured step.1 z.reservations = step.1 := by
    obtain ⟨settled, hflag⟩ := quotaStep_flag keyOf decimal (captured z.ctx z.reservations)
      z.logicalModel b
    show captured (quotaStep _ _ _ _ _).1 _ = (quotaStep _ _ _ _ _).1
    rw [hflag]
    exact captured_flag
  refine ⟨adjustments keyOf decimal step.1 z.logicalModel, ?_, fun h => ?_, fun h => ?_⟩
  · unfold finalizeTwice
    rw [finalizeOn_eq]
    refine finalizeOnce_quota.trans ?_
    dsimp only
    rw [hcaptured, tpmStep_quota, quotaStep_quota]
  · rw [quotaStep_struck (b := b) h]
  · exact adjustments_nil (quotaStep_open (b := b) h)

theorem finalizeTwice_limiter :
    (finalizeTwice keyOf decimal z limits quotaFault tpmFault).limiter =
      applyAll (bucketWrites (deltaTokens z.ctx) z.rules)
        (applyAll (Fault.cut 1 tpmFault (bucketWrites (deltaTokens z.ctx) z.rules)) limits.limiter) := by
  let b : Books := { limits, quotaFault, tpmFault }
  have hdelta : deltaTokens (quotaStep keyOf decimal (captured z.ctx z.reservations)
      z.logicalModel b).1 = deltaTokens z.ctx := by
    obtain ⟨settled, hflag⟩ := quotaStep_flag keyOf decimal (captured z.ctx z.reservations)
      z.logicalModel b
    rw [hflag]
    exact deltaTokens_captured
  unfold finalizeTwice
  rw [finalizeOn_eq]
  refine finalizeOnce_limiter.trans ?_
  dsimp only
  rw [hdelta, tpmStep_limiter, quotaStep_limiter.1, quotaStep_limiter.2, deltaTokens_captured]

/-! ## When it is idempotent -/

/-- A second settlement changes nothing where there is nothing to settle or the bucket is full. -/
theorem settled_settled_iff {delta burst : Int} {bucket : Bucket} (h : delta ≠ 0) :
    (bucket.settled delta burst).settled delta burst = bucket.settled delta burst ↔
      0 < delta ∧ burst ≤ bucket.tokens + delta := by
  simp only [Bucket.settled, Bucket.mk.injEq, and_true]
  omega

theorem quota_refinalize_iff :
    (∀ key, (finalizeTwice keyOf decimal z limits quotaFault tpmFault).quota.count key =
      (finalizeOnce keyOf decimal z limits).quota.count key) ↔
        QuotaUntouched keyOf decimal z quotaFault := by
  obtain ⟨pairs, hquota, hstruck, hopen⟩ := finalizeTwice_quota keyOf decimal z limits
    quotaFault tpmFault
  unfold QuotaUntouched
  rw [hquota, finalizeOnce_quota]
  simp only [QuotaEnforcer.count_increments]
  by_cases h : Fault.Strikes quotaFault (commandsEach (captured z.ctx z.reservations) *
      (adjustments keyOf decimal (captured z.ctx z.reservations) z.logicalModel).length)
  · rw [hstruck h]
    refine ⟨fun hsame _ key => ?_, fun hzero key => ?_⟩
    · have hkey := hsame key
      omega
    · have hkey := hzero h key
      omega
  · rw [hopen h, Fault.cut_eq (commandsEach_pos _) h]
    exact iff_of_true (fun key => by simp) fun hstrikes => absurd hstrikes h

theorem limiter_refinalize_iff (hids : DistinctIds z.rules) :
    (∀ key, (finalizeTwice keyOf decimal z limits quotaFault tpmFault).limiter.bucket key =
      (finalizeOnce keyOf decimal z limits).limiter.bucket key) ↔
        BucketsFull z limits tpmFault := by
  unfold BucketsFull
  rw [finalizeTwice_limiter, finalizeOnce_limiter]
  by_cases hzero : deltaTokens z.ctx = 0
  · have hwrites : bucketWrites (deltaTokens z.ctx) z.rules = [] := if_pos hzero
    have hcut : Fault.cut 1 tpmFault ([] : List (RateLimit.State → RateLimit.State)) = [] :=
      Fault.cut_eq Nat.one_pos fun ⟨φ, _, h⟩ => by simp at h
    rw [hwrites, hcut]
    exact iff_of_true (fun _ => rfl) fun _ _ _ _ => .inl hzero
  · have hwrites : bucketWrites (deltaTokens z.ctx) z.rules =
        (tpmRules z.rules).map (settleRule (deltaTokens z.ctx)) := if_neg hzero
    have hnodup := tpmRules_nodup hids
    have hsub : (Fault.cut 1 tpmFault (tpmRules z.rules)).Sublist (tpmRules z.rules) := by
      cases tpmFault with
      | none => exact List.Sublist.refl _
      | some φ => exact List.take_sublist _ _
    rw [hwrites, ← Fault.map_cut]
    generalize tpmRules z.rules = pairs at hnodup hsub
    generalize Fault.cut 1 tpmFault pairs = landed at hsub ⊢
    have hlanded : (landed.map (·.1.tpmKey)).Nodup := hnodup.sublist (hsub.map _)
    constructor
    · -- a bucket of the first settlement shows the second
      intro hsame pair hpair bucket hbucket
      refine .inr ((settled_settled_iff hzero).1 ?_)
      have hkey := hsame pair.1.tpmKey
      rw [bucket_settles hnodup (hsub.subset hpair), bucket_settles hlanded hpair,
        bucket_settles hnodup (hsub.subset hpair), hbucket] at hkey
      exact Option.some.inj hkey
    · intro hfull key
      by_cases hmem : ∃ pair ∈ pairs, pair.1.tpmKey = key
      · obtain ⟨pair, hpair, rfl⟩ := hmem
        rw [bucket_settles hnodup hpair, bucket_settles hnodup hpair]
        by_cases hfirst : pair ∈ landed
        · rw [bucket_settles hlanded hfirst]
          cases hbucket : limits.limiter.bucket pair.1.tpmKey with
          | none => rfl
          | some bucket =>
            have hpair' := (hfull pair hfirst bucket hbucket).resolve_left hzero
            exact congrArg some ((settled_settled_iff hzero).2 hpair')
        · rw [bucket_settles_ne fun p hp hkey => hfirst ?_]
          exact List.inj_on_of_nodup_map hnodup (hsub.subset hp) hpair hkey ▸ hp
      · have hne : ∀ pair ∈ pairs, pair.1.tpmKey ≠ key := fun pair hpair hkey =>
          hmem ⟨pair, hpair, hkey⟩
        rw [bucket_settles_ne hne, bucket_settles_ne hne,
          bucket_settles_ne fun pair hpair => hne pair (hsub.subset hpair)]

end

/-- Two finalizations leave the limits that one leaves exactly if the first had not touched the
counters where its quota step stopped, and the buckets that it had settled are full or had nothing to
settle. -/
theorem refinalize_iff (keyOf : String → QuotaEnforcer.Key) (decimal : Rat → Decimal)
    (z : Finalization) (limits : Limits) (quotaFault tpmFault : Option Fault)
    (hids : DistinctIds z.rules) :
    SameLimits (finalizeTwice keyOf decimal z limits quotaFault tpmFault)
        (finalizeOnce keyOf decimal z limits) ↔
      QuotaUntouched keyOf decimal z quotaFault ∧ BucketsFull z limits tpmFault :=
  and_congr quota_refinalize_iff (limiter_refinalize_iff hids)

/-! ## A bucket below its burst -/

/-- The request has used 12 tokens of the 100 that it had reserved. -/
def billedFinalization : Finalization :=
  ⟨billedContext ⟨5, 7, 12⟩, ⟨1, "gpt", none, none⟩, [billedRule], [billedReservation]⟩

def billedKey (_ : String) : QuotaEnforcer.Key := ⟨.everyone, 0, .total, .tokens⟩

/-- The rule's bucket holds these tokens, of 1000. -/
def bucketOf (tokens : Int) : Limits where
  quota := QuotaEnforcer.freshState
  limiter := { emptyState with
    buckets := Redis.Table.empty.set billedRule.tpmKey ⟨tokens, 0⟩ (some 1860000) }

theorem bucketOf_bucket {tokens : Int} :
    (bucketOf tokens).limiter.bucket billedRule.tpmKey = some ⟨tokens, 0⟩ := by
  have hlive : 0 < 1860000 := by decide
  exact Redis.Table.get_set_self hlive

/-- From 900 tokens the first finalization makes 988 and the second 1000. -/
theorem refunded_twice : ¬ ∀ keyOf decimal z limits quotaFault tpmFault, DistinctIds z.rules →
    SameLimits (finalizeTwice keyOf decimal z limits quotaFault tpmFault)
      (finalizeOnce keyOf decimal z limits) := by
  intro h
  have hids : DistinctIds billedFinalization.rules := List.nodup_singleton _
  have hsame := h billedKey (fun _ => .ofInt 0) billedFinalization (bucketOf 900) none none hids
  have hfull := (limiter_refinalize_iff hids).1 hsame.2 (billedRule, 1000) List.mem_cons_self
    ⟨900, 0⟩ bucketOf_bucket
  exact absurd hfull (by decide)

/-- From 950 tokens both make 1000. -/
theorem refunded_once : SameLimits
    (finalizeTwice billedKey (fun _ => .ofInt 0) billedFinalization (bucketOf 950) none none)
    (finalizeOnce billedKey (fun _ => .ofInt 0) billedFinalization (bucketOf 950)) := by
  refine (refinalize_iff billedKey (fun _ => .ofInt 0) billedFinalization (bucketOf 950) none none
    (List.nodup_singleton _)).2 ⟨?_, fun pair hpair bucket hbucket => ?_⟩
  · rintro ⟨φ, h, -⟩
    cases h
  · obtain rfl : pair = (billedRule, 1000) := List.mem_singleton.1 hpair
    rw [bucketOf_bucket] at hbucket
    cases hbucket
    exact .inr (by decide)

end Gateway.Handler
