import Mathlib.Data.Rat.Cast.Order
import Mathlib.Algebra.Order.Field.Rat
import Mathlib.Algebra.Order.Floor.Ring
import Mathlib.Tactic.FieldSimp
import Mathlib.Tactic.Positivity
import Janus.Gateway.Proof.Gates
import Janus.Limit.Meter

/-!
# Token buckets

A bucket is a meter: its level at an instant is what its tokens and the refill since its timestamp
come to, up to its capacity (`State.level`, `metered`). So what the checks of a rule admit between
two instants is bounded as for a meter, in every run in which the bucket does not expire
(`tpm_throughput`). `expiry_refills_iff`: the rules for which a bucket that expires was full again.
-/

set_option autoImplicit false

namespace RateLimit

open Conc Redis Limit

/-! ## What the scripts do to a bucket -/

/-- The bucket that the scripts read. -/
def State.bucket (s : State) (key : Key) : Option Bucket := s.buckets.get s.time key

/-- The bucket that a command reads or writes. -/
def Cmd.bucketKey : Cmd → Option Key
  | .tpmCheck key .. => some key
  | .tpmSettle key .. => some key
  | _ => none

/-- The tokens that a check finds, after the refill. -/
def State.refilled (s : State) (key : Key) (nowMs limit refillRate : Int) : Int :=
  let bucket := (s.bucket key).getD ⟨limit, nowMs⟩
  min limit (bucket.tokens + (nowMs - bucket.ts) * refillRate / 60000)

section

variable {s : State} {key : Key} {nowMs limit requestTokens refillRate ttlMs delta : Int}

theorem tpmCheck_denied (h : s.refilled key nowMs limit refillRate < requestTokens) :
    s.tpmCheck key nowMs limit requestTokens refillRate ttlMs =
      ((false, s.refilled key nowMs limit refillRate, limit), s) := by
  unfold State.tpmCheck
  exact if_pos h

theorem tpmCheck_granted (h : requestTokens ≤ s.refilled key nowMs limit refillRate) :
    s.tpmCheck key nowMs limit requestTokens refillRate ttlMs =
      ((true, s.refilled key nowMs limit refillRate - requestTokens, limit), { s with
        buckets := s.buckets.set key ⟨s.refilled key nowMs limit refillRate - requestTokens, nowMs⟩
          (some (s.time + ttlMs.toNat)) }) := by
  have hn : ¬ s.refilled key nowMs limit refillRate < requestTokens := not_lt.2 h
  unfold State.tpmCheck
  exact if_neg hn

theorem bucket_tpmCheck_granted (h : requestTokens ≤ s.refilled key nowMs limit refillRate)
    (ht : 0 < ttlMs) :
    (s.tpmCheck key nowMs limit requestTokens refillRate ttlMs).1.1 = true ∧
      (s.tpmCheck key nowMs limit requestTokens refillRate ttlMs).2.bucket key =
        some ⟨s.refilled key nowMs limit refillRate - requestTokens, nowMs⟩ := by
  have hlive : s.time < s.time + ttlMs.toNat := by omega
  rw [tpmCheck_granted h]
  exact ⟨rfl, Table.get_set_self hlive⟩

theorem tpmSettle_none (h : s.bucket key = none) :
    s.tpmSettle key delta limit ttlMs refillRate = s := by
  unfold State.bucket at h
  simp only [State.tpmSettle, h]

theorem tpmSettle_some {b : Bucket} (h : s.bucket key = some b) :
    s.tpmSettle key delta limit ttlMs refillRate = { s with
      buckets := s.buckets.set key { b with tokens := min limit (b.tokens + delta) }
        (some (s.time + (if min limit (b.tokens + delta) < 0 ∧ 0 < refillRate then
          max ttlMs (-(min limit (b.tokens + delta) * 60000 / refillRate) + ttlMs)
        else ttlMs).toNat)) } := by
  unfold State.bucket at h
  simp only [State.tpmSettle, h]

theorem bucket_tpmSettle (ht : 0 < ttlMs) :
    (s.tpmSettle key delta limit ttlMs refillRate).bucket key =
      (s.bucket key).map fun b => { b with tokens := min limit (b.tokens + delta) } := by
  cases hb : s.bucket key with
  | none =>
    rw [tpmSettle_none hb]
    exact hb
  | some b =>
    rw [tpmSettle_some hb]
    have hlive : s.time < s.time + (if min limit (b.tokens + delta) < 0 ∧ 0 < refillRate then
        max ttlMs (-(min limit (b.tokens + delta) * 60000 / refillRate) + ttlMs)
      else ttlMs).toNat := by
      split <;> omega
    exact Table.get_set_self hlive

/-- The other commands leave a bucket and its deadline alone. -/
theorem buckets_run_ne {c : Cmd} (h : c.bucketKey ≠ some key) :
    (c.run s).2.buckets key = s.buckets key := by
  cases c with
  | tpmCheck k now limit requestTokens refillRate ttlMs =>
    have hk : key ≠ k := fun e => h (congrArg some e.symm)
    show (s.tpmCheck k now limit requestTokens refillRate ttlMs).2.buckets key = _
    unfold State.tpmCheck
    dsimp only
    split
    · rfl
    · exact Table.set_ne hk
  | tpmSettle k delta limit ttlMs refillRate =>
    have hk : key ≠ k := fun e => h (congrArg some e.symm)
    show (s.tpmSettle k delta limit ttlMs refillRate).buckets key = _
    unfold State.tpmSettle
    split
    · rfl
    · exact Table.set_ne hk
  | rpmCheck k now windowMs limit member =>
    show (s.addIfRoom k now windowMs limit member (windowMs + 1000)).2.buckets key = _
    unfold State.addIfRoom
    dsimp only
    split <;> rfl
  | concurrentCheck k now limit member timeoutMs =>
    show (s.addIfRoom k now timeoutMs limit member (timeoutMs + 10000)).2.buckets key = _
    unfold State.addIfRoom
    dsimp only
    split <;> rfl
  | zrem k member => rfl
  | emergencyAdmit rules now =>
    show (s.emergencyAdmit rules now).2.buckets key = _
    unfold State.emergencyAdmit
    dsimp only
    split <;> rfl

theorem bucket_run_ne {c : Cmd} (h : c.bucketKey ≠ some key) :
    (c.run s).2.bucket key = s.bucket key := by
  unfold State.bucket
  rw [time_run]
  exact Table.get_congr (buckets_run_ne h)

end

/-! ## The level of a bucket -/

/-- What the tokens and the refill since the timestamp come to at `t`. -/
def Bucket.level (limit refillRate : Int) (b : Bucket) (t : ℚ) : ℚ :=
  min limit (b.tokens + (refillRate / 60000 : ℚ) * (t - b.ts))

/-- A bucket that does not exist is full. -/
def State.level (s : State) (key : Key) (limit refillRate : Int) (t : ℚ) : ℚ :=
  match s.bucket key with
  | none => limit
  | some b => b.level limit refillRate t

section

variable {s s' : State} {key : Key} {nowMs limit requestTokens refillRate ttlMs delta : Int}
  {b : Bucket} {t t' : ℚ}

theorem level_le : s.level key limit refillRate t ≤ limit := by
  unfold State.level
  split
  · exact le_refl _
  · exact min_le_left _ _

/-- The level rises at most at the refill rate. -/
theorem level_rise (hr : 0 ≤ refillRate) (ht : t ≤ t') : s.level key limit refillRate t' ≤
    s.level key limit refillRate t + (refillRate / 60000 : ℚ) * (t' - t) := by
  have hrate : (0 : ℚ) ≤ refillRate / 60000 := by positivity
  have hflow := mul_nonneg hrate (sub_nonneg.2 ht)
  unfold State.level
  cases hb : s.bucket key with
  | none => linarith
  | some b =>
    simp only [Bucket.level]
    rw [← min_add_add_right]
    refine min_le_min (by linarith) ?_
    apply le_of_eq
    ring

theorem level_congr (h : s'.bucket key = s.bucket key) :
    s'.level key limit refillRate t = s.level key limit refillRate t := by
  simp only [State.level, h]

/-- A check finds no more than the level. -/
theorem refilled_le_level :
    (s.refilled key nowMs limit refillRate : ℚ) ≤ s.level key limit refillRate nowMs := by
  have hfloor (b : Bucket) : (((nowMs - b.ts) * refillRate / 60000 : Int) : ℚ) ≤
      (refillRate / 60000 : ℚ) * (nowMs - b.ts) := by
    have h := Int.ediv_mul_le ((nowMs - b.ts) * refillRate) (b := 60000) (by decide)
    have hcast : (((nowMs - b.ts) * refillRate / 60000 : Int) : ℚ) * 60000 ≤
        ((nowMs - b.ts) * refillRate : ℚ) := by exact_mod_cast h
    linarith
  unfold State.refilled State.level
  cases hb : s.bucket key with
  | none =>
    dsimp only [Option.getD_none]
    push_cast
    exact min_le_left _ _
  | some b =>
    dsimp only [Option.getD_some, Bucket.level]
    rw [Int.cast_min, Int.cast_add]
    exact min_le_min (le_refl _) (by linarith [hfloor b])

theorem level_check (h : s'.bucket key =
    some ⟨s.refilled key nowMs limit refillRate - requestTokens, nowMs⟩) :
    s'.level key limit refillRate nowMs ≤ s.level key limit refillRate nowMs - requestTokens := by
  have hfound : (s.refilled key nowMs limit refillRate : ℚ) ≤ s.level key limit refillRate nowMs :=
    refilled_le_level
  have hnew : s'.level key limit refillRate nowMs ≤
      ((s.refilled key nowMs limit refillRate - requestTokens : Int) : ℚ) := by
    simp only [State.level, h, Bucket.level, sub_self, mul_zero, add_zero]
    exact min_le_right _ _
  push_cast at hnew
  linarith

theorem level_settle (hb : s.bucket key = some b)
    (h : s'.bucket key = some { b with tokens := min limit (b.tokens + delta) }) :
    s'.level key limit refillRate t ≤ s.level key limit refillRate t + (max 0 delta : Int) := by
  have hmax : (0 : ℚ) ≤ (max 0 delta : Int) := by exact_mod_cast le_max_left 0 delta
  have hdelta : (delta : ℚ) ≤ (max 0 delta : Int) := by exact_mod_cast le_max_right 0 delta
  have htokens : ((min limit (b.tokens + delta) : Int) : ℚ) ≤ b.tokens + delta := by
    exact_mod_cast min_le_right _ _
  simp only [State.level, hb, h, Bucket.level]
  rw [← min_add_add_right]
  exact min_le_min (by linarith) (by linarith)

end

/-! ## A bucket is a meter -/

/-- What the commands of a log take from and give to the bucket at `key`. A settle before the first
admission finds no bucket. -/
def flows (key : Key) : Log Int Cmd Cmd.Resp → List (ℚ × Flow ℚ)
  | [] => []
  | (t, ⟨.tpmCheck k _ _ requestTokens _ _, answer⟩) :: l =>
    if k = key ∧ granted answer then ((t : ℚ), .spend requestTokens) :: flows key l else flows key l
  | (t, ⟨.tpmSettle k delta _ _ _, _⟩) :: l =>
    if k = key ∧ 0 < delta ∧ flows key l ≠ [] then ((t : ℚ), .credit delta) :: flows key l
    else flows key l
  | (_, ⟨_, _⟩) :: l => flows key l

theorem flows_cons_ne {key : Key} {t : Int} {c : Cmd} {r : c.Resp} {l : Log Int Cmd Cmd.Resp}
    (h : c.bucketKey ≠ some key) : flows key ((t, ⟨c, r⟩) :: l) = flows key l := by
  cases c with
  | tpmCheck k now limit requestTokens refillRate ttlMs =>
    exact if_neg fun hk => h (congrArg some hk.1)
  | tpmSettle k delta limit ttlMs refillRate => exact if_neg fun hk => h (congrArg some hk.1)
  | rpmCheck k now windowMs limit member => rfl
  | concurrentCheck k now limit member timeoutMs => rfl
  | zrem k member => rfl
  | emergencyAdmit rules now => rfl

/-- Time may pass, but the bucket does not expire. -/
def Keeps (key : Key) (s s' : State) : Prop := s'.bucket key = s.bucket key

section

variable {rule : Rule} {refillRate : Int} {s s₀ : State} {l : Log Int Cmd Cmd.Resp}

/-- The simulation of a rule's bucket by a meter. -/
structure Metering (rule : Rule) (refillRate : Int) (s : State) (l : Log Int Cmd Cmd.Resp) :
    Prop where
  metered : ∀ t : ℚ, (∀ e ∈ l, (e.1 : ℚ) ≤ t) → Metered (rule.burst refillRate : ℚ)
    (refillRate / 60000 : ℚ) t (s.level rule.tpmKey (rule.burst refillRate) refillRate t)
    (flows rule.tpmKey l)
  exists_iff : s.bucket rule.tpmKey = none ↔ flows rule.tpmKey l = []
  tokens_le : ∀ b, s.bucket rule.tpmKey = some b → b.tokens ≤ rule.burst refillRate

/-- Whatever leaves the bucket and its flows alone keeps the simulation. -/
theorem Metering.frame {s' : State} {l' : Log Int Cmd Cmd.Resp} (h : Metering rule refillRate s l)
    (hs : s'.bucket rule.tpmKey = s.bucket rule.tpmKey)
    (hl : flows rule.tpmKey l' = flows rule.tpmKey l) (hsub : l ⊆ l') :
    Metering rule refillRate s' l' where
  metered t ht := by
    rw [hl, level_congr hs]
    exact h.metered t fun e he => ht e (hsub he)
  exists_iff := by rw [hl, hs]; exact h.exists_iff
  tokens_le := by rw [hs]; exact h.tokens_le

/-- After a step at `t`, the meter waits. -/
theorem metered_from {t : Int} {e : Event Cmd Cmd.Resp} (hr : 0 ≤ refillRate)
    (h : Metered (rule.burst refillRate : ℚ) (refillRate / 60000 : ℚ) t
      (s.level rule.tpmKey (rule.burst refillRate) refillRate t) (flows rule.tpmKey ((t, e) :: l)))
    (t' : ℚ) (ht : ∀ e' ∈ (t, e) :: l, (e'.1 : ℚ) ≤ t') :
    Metered (rule.burst refillRate : ℚ) (refillRate / 60000 : ℚ) t'
      (s.level rule.tpmKey (rule.burst refillRate) refillRate t')
      (flows rule.tpmKey ((t, e) :: l)) := by
  have htt : (t : ℚ) ≤ t' := ht _ List.mem_cons_self
  exact .wait h htt (level_rise hr htt) level_le

theorem metering_start (h : s₀.bucket rule.tpmKey = none) : Metering rule refillRate s₀ [] where
  metered t _ := .start level_le
  exists_iff := by simp [h, flows]
  tokens_le b hb := by rw [h] at hb; cases hb

theorem metering_check {limit requestTokens t : Int} {s' : State}
    {r : Except RedisError (Bool × Int × Int)} (hr : 1 ≤ refillRate)
    (h : Metering rule refillRate s l) (hl : ∀ e ∈ l, e.1 ≤ t)
    (hlimit : limit = rule.burst refillRate) (hpos : 0 < requestTokens)
    (hrun : (r, s') =
      (Cmd.tpmCheck rule.tpmKey t limit requestTokens refillRate tpmBucketTtlMs).run s) :
    Metering rule refillRate s'
      ((t, ⟨.tpmCheck rule.tpmKey t limit requestTokens refillRate tpmBucketTtlMs, r⟩) :: l) := by
  subst hlimit
  have hnow : Metered (rule.burst refillRate : ℚ) (refillRate / 60000 : ℚ) t
      (s.level rule.tpmKey (rule.burst refillRate) refillRate t) (flows rule.tpmKey l) :=
    h.metered t fun e he => by exact_mod_cast hl e he
  have hsplit : r = .ok (s.tpmCheck rule.tpmKey t (rule.burst refillRate) requestTokens refillRate
      tpmBucketTtlMs).1 ∧ s' = (s.tpmCheck rule.tpmKey t (rule.burst refillRate) requestTokens
      refillRate tpmBucketTtlMs).2 := Prod.mk.inj hrun
  obtain ⟨rfl, rfl⟩ := hsplit
  rcases lt_or_ge (s.refilled rule.tpmKey t (rule.burst refillRate) refillRate) requestTokens with
    hshort | hroom
  · rw [tpmCheck_denied hshort]
    refine h.frame rfl (if_neg ?_) (List.subset_cons_self _ _)
    simp [granted]
  · obtain ⟨hgranted, hbucket⟩ := bucket_tpmCheck_granted hroom
      (show 0 < tpmBucketTtlMs by decide)
    have hflows : flows rule.tpmKey ((t, ⟨.tpmCheck rule.tpmKey t (rule.burst refillRate)
        requestTokens refillRate tpmBucketTtlMs, .ok (s.tpmCheck rule.tpmKey t
          (rule.burst refillRate) requestTokens refillRate tpmBucketTtlMs).1⟩) :: l) =
        ((t : ℚ), .spend requestTokens) :: flows rule.tpmKey l := by
      refine if_pos ⟨rfl, ?_⟩
      show (s.tpmCheck _ _ _ _ _ _).1.1 = true
      exact hgranted
    refine ⟨fun t' ht' => metered_from (by omega) ?_ t' ht', ?_, fun b hb => ?_⟩
    · rw [hflows]
      refine .spend hnow (by exact_mod_cast hpos.le) ?_ (level_check hbucket)
      have hle : (requestTokens : ℚ) ≤
          s.refilled rule.tpmKey t (rule.burst refillRate) refillRate := by exact_mod_cast hroom
      exact hle.trans refilled_le_level
    · rw [hflows, hbucket]
      simp
    · rw [hbucket] at hb
      cases hb
      have hle : s.refilled rule.tpmKey t (rule.burst refillRate) refillRate ≤
          rule.burst refillRate := min_le_left _ _
      dsimp only
      omega

theorem metering_settle {limit delta t : Int} {s' : State} {r : Except RedisError Bool}
    (hr : 1 ≤ refillRate) (h : Metering rule refillRate s l) (hl : ∀ e ∈ l, e.1 ≤ t)
    (hlimit : limit = rule.burst refillRate)
    (hrun : (r, s') =
      (Cmd.tpmSettle rule.tpmKey delta limit tpmBucketTtlMs refillRate).run s) :
    Metering rule refillRate s'
      ((t, ⟨.tpmSettle rule.tpmKey delta limit tpmBucketTtlMs refillRate, r⟩) :: l) := by
  subst hlimit
  have hnow : Metered (rule.burst refillRate : ℚ) (refillRate / 60000 : ℚ) t
      (s.level rule.tpmKey (rule.burst refillRate) refillRate t) (flows rule.tpmKey l) :=
    h.metered t fun e he => by exact_mod_cast hl e he
  obtain ⟨-, rfl⟩ := Prod.mk.inj hrun
  have hbucket : (s.tpmSettle rule.tpmKey delta (rule.burst refillRate) tpmBucketTtlMs
      refillRate).bucket rule.tpmKey = (s.bucket rule.tpmKey).map fun b =>
        { b with tokens := min (rule.burst refillRate) (b.tokens + delta) } :=
    bucket_tpmSettle (by decide)
  cases hb : s.bucket rule.tpmKey with
  | none =>
    rw [hb] at hbucket
    refine h.frame (hbucket.trans hb.symm) (if_neg ?_) (List.subset_cons_self _ _)
    exact fun hcredit => hcredit.2.2 (h.exists_iff.1 hb)
  | some b =>
    rw [hb] at hbucket
    have hflows : flows rule.tpmKey l ≠ [] := fun hnil => by
      rw [h.exists_iff.2 hnil] at hb
      cases hb
    have hlevel (t' : ℚ) : State.level _ rule.tpmKey (rule.burst refillRate) refillRate t' ≤
        s.level rule.tpmKey (rule.burst refillRate) refillRate t' + (max 0 delta : Int) :=
      level_settle hb hbucket
    refine ⟨fun t' ht' => metered_from (by omega) ?_ t' ht', ?_, fun b' hb' => ?_⟩
    · by_cases hpos : 0 < delta
      · have hcons : flows rule.tpmKey ((t, ⟨.tpmSettle rule.tpmKey delta (rule.burst refillRate)
            tpmBucketTtlMs refillRate, r⟩) :: l) =
            ((t : ℚ), .credit delta) :: flows rule.tpmKey l := if_pos ⟨rfl, hpos, hflows⟩
        rw [hcons]
        refine .credit hnow (by exact_mod_cast hpos.le) ?_ level_le
        have hmax : max 0 delta = delta := max_eq_right hpos.le
        have := hlevel t
        rwa [hmax] at this
      · have hsame : flows rule.tpmKey ((t, ⟨.tpmSettle rule.tpmKey delta (rule.burst refillRate)
            tpmBucketTtlMs refillRate, r⟩) :: l) = flows rule.tpmKey l :=
          if_neg fun hcredit => hpos hcredit.2.1
        rw [hsame]
        refine .wait hnow (le_refl _) ?_ level_le
        have hmax : max 0 delta = 0 := max_eq_left (not_lt.1 hpos)
        have := hlevel t
        rw [hmax] at this
        simpa using this
    · rw [hbucket]
      simp only [Option.map_some, reduceCtorEq, false_iff]
      unfold flows
      split
      · simp
      · exact hflows
    · rw [hbucket] at hb'
      cases hb'
      exact min_le_left _ _

/-- A run of the rule's commands and others, in which the bucket does not expire. -/
theorem metering (hr : 1 ≤ refillRate) (hrule : rule.tpmLimit = some refillRate)
    (hfresh : s₀.bucket rule.tpmKey = none)
    (hrun : Timeline (Clocked rule) (Keeps rule.tpmKey) s₀ s l) :
    Metering rule refillRate s l := by
  refine hrun.invariant (metering_start hfresh) (fun {s s' l t c r} h hl hE => ?_)
    fun h he => h.frame he rfl (List.Subset.refl _)
  obtain ⟨hissued, hstep⟩ := hE
  by_cases hkey : c.bucketKey = some rule.tpmKey
  · cases c with
    | tpmCheck k now limit requestTokens rate ttlMs =>
      cases hkey
      obtain ⟨rfl, hrate, hlimit, hpos, rfl⟩ := hissued.tpmCheck rfl
      cases hrule.symm.trans hrate
      exact metering_check hr h hl hlimit hpos hstep
    | tpmSettle k delta limit ttlMs rate =>
      cases hkey
      obtain ⟨hrate, hlimit, rfl⟩ := hissued.tpmSettle rfl
      cases hrule.symm.trans hrate
      exact metering_settle hr h hl hlimit hstep
    | rpmCheck => cases hkey
    | concurrentCheck => cases hkey
    | zrem => cases hkey
    | emergencyAdmit => cases hkey
  · have hs : s' = (c.run s).2 := congrArg Prod.snd hstep
    refine h.frame ?_ (flows_cons_ne hkey) (List.subset_cons_self _ _)
    rw [hs]
    exact bucket_run_ne hkey

/-- The tokens that admitted checks reserved between two instants. -/
def reserved (key : Key) (t₁ t₂ : ℚ) (l : Log Int Cmd Cmd.Resp) : ℚ :=
  within Flow.spent t₁ t₂ (flows key l)

/-- The positive deltas that settles applied between two instants. -/
def refunded (key : Key) (t₁ t₂ : ℚ) (l : Log Int Cmd Cmd.Resp) : ℚ :=
  within Flow.credited t₁ t₂ (flows key l)

theorem exists_last (l : Log Int Cmd Cmd.Resp) : ∃ t : ℚ, ∀ e ∈ l, (e.1 : ℚ) ≤ t := by
  induction l with
  | nil => exact ⟨0, fun e he => by cases he⟩
  | cons e l ih =>
    obtain ⟨t, ht⟩ := ih
    refine ⟨max e.1 t, fun e' he => ?_⟩
    rcases List.mem_cons.1 he with rfl | he
    · exact le_max_left _ _
    · exact (ht e' he).trans (le_max_right _ _)

theorem tpm_throughput (hrule : rule.tpmLimit = some refillRate) (hr : 1 ≤ refillRate)
    (hlimit : 1 ≤ rule.burst refillRate) (hfresh : s₀.bucket rule.tpmKey = none)
    (hrun : Timeline (Clocked rule) (Keeps rule.tpmKey) s₀ s l) :
    (∀ b, s.bucket rule.tpmKey = some b → b.tokens ≤ rule.burst refillRate) ∧
      ∀ t₁ t₂ : ℚ, t₁ ≤ t₂ → reserved rule.tpmKey t₁ t₂ l ≤
        rule.burst refillRate + refillRate * (t₂ - t₁) / 60000 + refunded rule.tpmKey t₁ t₂ l := by
  have h := metering hr hrule hfresh hrun
  refine ⟨h.tokens_le, fun t₁ t₂ ht => ?_⟩
  obtain ⟨t, hlast⟩ := exists_last l
  have hrate : (0 : ℚ) ≤ refillRate / 60000 := by
    have : (0 : ℚ) ≤ refillRate := by exact_mod_cast (by omega : 0 ≤ refillRate)
    positivity
  have hcap : (0 : ℚ) ≤ rule.burst refillRate := by exact_mod_cast (by omega : 0 ≤ rule.burst refillRate)
  have hwindow := (h.metered t hlast).window hrate hcap ht
  calc reserved rule.tpmKey t₁ t₂ l
      ≤ rule.burst refillRate + refillRate / 60000 * (t₂ - t₁) + refunded rule.tpmKey t₁ t₂ l :=
        hwindow
    _ = _ := by ring

end

/-- 1000 tokens a minute, and bursts of 100000. -/
def burstRule : Rule where
  id := 4
  subjectType := "user"
  subjectId := some 7
  logicalModelId := none
  rpmLimit := none
  tpmLimit := some 1000
  tpmBurstLimit := some 100000
  maxConcurrent := none

/-- A run goes on with what a command does. -/
theorem timeline_run {rule : Rule} {env : State → State → Prop} {s₀ s : State} {t : Int} {c : Cmd}
    {r : c.Resp} {l : Log Int Cmd Cmd.Resp} (h : Timeline (Clocked rule) env s₀ s l)
    (ht : ∀ e ∈ l, e.1 ≤ t) (hc : Issued rule t c) (hr : r = (c.run s).1) :
    Timeline (Clocked rule) env s₀ (c.run s).2 ((t, ⟨c, r⟩) :: l) := .cmd h ht ⟨hc, by rw [hr]⟩

abbrev burstCheck (t requestTokens : Int) : Cmd :=
  .tpmCheck burstRule.tpmKey t 100000 requestTokens 1000 tpmBucketTtlMs

abbrev burstSettle (delta : Int) : Cmd := .tpmSettle burstRule.tpmKey delta 100000 tpmBucketTtlMs 1000

/-- A request that empties the bucket, the refund of a part, and a request that takes all there is
six seconds after the first. -/
def burstLog : Log Int Cmd Cmd.Resp :=
  [(6000, ⟨burstCheck 6000 40100, .ok (true, 0, 100000)⟩), (6000, ⟨burstSettle 40000, .ok true⟩),
    (0, ⟨burstCheck 0 100000, .ok (true, 0, 100000)⟩)]

theorem runs_burst :
    ∃ s, Timeline (Clocked burstRule) (Keeps burstRule.tpmKey) emptyState s burstLog := by
  have hcheck {t n : Int} (hn : 0 < n) : Issued burstRule t (burstCheck t n) :=
    ⟨burstRule, fun _ => rfl, rfl, rfl, rfl, rfl, hn, rfl⟩
  have hsettle {t delta : Int} : Issued burstRule t (burstSettle delta) :=
    ⟨burstRule, fun _ => rfl, rfl, rfl, rfl, rfl⟩
  let s₁ := ((burstCheck 0 100000).run emptyState).2
  let s₂ := { s₁ with time := s₁.time + 6000 }
  let s₃ := ((burstSettle 40000).run s₂).2
  have h₁ : Timeline (Clocked burstRule) (Keeps burstRule.tpmKey) emptyState s₁ (burstLog.drop 2) :=
    timeline_run .start (fun e he => by cases he) (hcheck (by decide)) rfl
  have hkeeps : Keeps burstRule.tpmKey s₁ s₂ := by
    show s₂.bucket _ = s₁.bucket _
    decide +kernel
  have h₂ : Timeline (Clocked burstRule) (Keeps burstRule.tpmKey) emptyState s₃ (burstLog.drop 1) :=
    timeline_run (.env h₁ hkeeps) (by decide) hsettle (by decide +kernel)
  exact ⟨_, timeline_run h₂ (by decide) (hcheck (by decide)) (by decide +kernel)⟩

/-- The window admits as much as the bound allows. -/
theorem tpm_throughput_burst :
    reserved burstRule.tpmKey 0 6000 burstLog = 140100 ∧
      reserved burstRule.tpmKey 0 6000 burstLog ≤
        burstRule.burst 1000 + 1000 * (6000 - 0) / 60000 +
          refunded burstRule.tpmKey 0 6000 burstLog := by
  obtain ⟨s, hrun⟩ := runs_burst
  refine ⟨?_, ?_⟩
  · decide +kernel
  · exact_mod_cast (tpm_throughput rfl (by decide) (by decide) rfl hrun).2 0 6000 (by norm_num)

/-! ## Expiry -/

/-- The commands of a rule and others, at the time of the server. -/
def OnTime (rule : Rule) (t : Int) : Sem Cmd Cmd.Resp State :=
  fun c s r s' => (s.time : Int) = t ∧ Clocked rule t c s r s'

/-- From the deadline of a bucket on, the refill since its timestamp would have filled it up. -/
def RefillsBy (limit refillRate : Int) (cell : Cell Bucket) : Prop :=
  ∀ e : Nat, cell.expiresAt = some e → ∀ now : Int, e ≤ now →
    limit ≤ cell.val.tokens + (now - cell.val.ts) * refillRate / 60000

/-- In every run, a bucket of the rule that has expired was full again. -/
def ExpiryRefills (rule : Rule) (refillRate : Int) : Prop :=
  ∀ s₀ s l, s₀.buckets rule.tpmKey = none → Timeline (OnTime rule) Passes s₀ s l →
    ∀ cell, s.buckets rule.tpmKey = some cell → cell.live s.time = false →
      RefillsBy (rule.burst refillRate) refillRate cell

section

variable {s s' : State} {key : Key} {nowMs limit requestTokens refillRate ttlMs delta : Int}
  {rule : Rule} {cell : Cell Bucket}

/-- What a deadline has to satisfy. -/
theorem refillsBy_of_deadline {tokens ts : Int} {e : Nat} (hr : 0 ≤ refillRate)
    (h : (limit - tokens) * 60000 ≤ (e - ts) * refillRate) :
    RefillsBy limit refillRate ⟨⟨tokens, ts⟩, some e⟩ := by
  intro e' he now hnow
  cases he
  have hmono : (e - ts) * refillRate ≤ (now - ts) * refillRate :=
    mul_le_mul_of_nonneg_right (by omega) hr
  have hdiv : limit - tokens ≤ (now - ts) * refillRate / 60000 := by
    rw [Int.le_ediv_iff_mul_le (by decide)]
    exact h.trans hmono
  show limit ≤ tokens + (now - ts) * refillRate / 60000
  omega

/-- An admission leaves no debt, so the refill of 31 minutes is enough. -/
theorem refillsBy_check (hr : 1 ≤ refillRate) (hburst : limit ≤ 31 * refillRate)
    (hroom : requestTokens ≤ s.refilled key s.time limit refillRate) :
    RefillsBy limit refillRate ⟨⟨s.refilled key s.time limit refillRate - requestTokens, s.time⟩,
      some (s.time + tpmBucketTtlMs.toNat)⟩ := by
  refine refillsBy_of_deadline (by omega) ?_
  have httl : ((s.time + tpmBucketTtlMs.toNat : Nat) : Int) - s.time = 1860000 := by
    simp [tpmBucketTtlMs]
  rw [httl]
  omega

/-- A debt is repaid before the 31 minutes start. -/
theorem refillsBy_settle {tokens ts : Int} (hr : 1 ≤ refillRate) (hburst : limit ≤ 31 * refillRate)
    (hts : ts ≤ s.time) :
    RefillsBy limit refillRate ⟨⟨tokens, ts⟩, some (s.time +
      (if tokens < 0 ∧ 0 < refillRate then
        max tpmBucketTtlMs (-(tokens * 60000 / refillRate) + tpmBucketTtlMs)
      else tpmBucketTtlMs).toNat)⟩ := by
  refine refillsBy_of_deadline (by omega) ?_
  have httl : tpmBucketTtlMs = 1860000 := rfl
  split
  · next hdebt =>
    have hrepaid : -(tokens * 60000) ≤ -(tokens * 60000 / refillRate) * refillRate := by
      have := Int.ediv_mul_le (tokens * 60000) (b := refillRate) (by omega)
      have hneg := Int.neg_mul (tokens * 60000 / refillRate) refillRate
      omega
    generalize -(tokens * 60000 / refillRate) = recovery at hrepaid ⊢
    have hlong : recovery + 1860000 ≤
        ((s.time + (max tpmBucketTtlMs (recovery + tpmBucketTtlMs)).toNat : Nat) : Int) - ts := by
      omega
    have hscaled := mul_le_mul_of_nonneg_right hlong (by omega : 0 ≤ refillRate)
    have hsplit : (recovery + 1860000) * refillRate = recovery * refillRate + 1860000 * refillRate :=
      Int.add_mul _ _ _
    omega
  · next hclear =>
    have hlong : 1860000 ≤ ((s.time + tpmBucketTtlMs.toNat : Nat) : Int) - ts := by omega
    have hscaled := mul_le_mul_of_nonneg_right hlong (by omega : 0 ≤ refillRate)
    omega

/-- Every bucket refills by its deadline. -/
structure Repaid (rule : Rule) (refillRate : Int) (s : State) : Prop where
  refills : ∀ cell, s.buckets rule.tpmKey = some cell →
    cell.val.ts ≤ s.time ∧ RefillsBy (rule.burst refillRate) refillRate cell

theorem Repaid.run {l : Log Int Cmd Cmd.Resp} {s₀ : State} (hrule : rule.tpmLimit = some refillRate)
    (hr : 1 ≤ refillRate) (hburst : rule.burst refillRate ≤ 31 * refillRate)
    (hfresh : s₀.buckets rule.tpmKey = none) (hrun : Timeline (OnTime rule) Passes s₀ s l) :
    Repaid rule refillRate s := by
  refine hrun.invariant (J := fun s _ => Repaid rule refillRate s)
    ⟨fun cell hc => by rw [hfresh] at hc; cases hc⟩ (fun {s s' l t c r} h _ hE => ?_)
    (fun {s s' l} h he => ?_)
  · obtain ⟨rfl, hissued, hstep⟩ := hE
    have hs : s' = (c.run s).2 := congrArg Prod.snd hstep
    subst hs
    by_cases hkey : c.bucketKey = some rule.tpmKey
    · cases c with
      | tpmCheck k now limit requestTokens rate ttlMs =>
        cases hkey
        obtain ⟨rfl, hrate, rfl, -, rfl⟩ := hissued.tpmCheck rfl
        cases hrule.symm.trans hrate
        rcases lt_or_ge (s.refilled rule.tpmKey s.time (rule.burst refillRate) refillRate)
          requestTokens with hshort | hroom
        · have hsame : (Cmd.run (.tpmCheck rule.tpmKey s.time (rule.burst refillRate) requestTokens
              refillRate tpmBucketTtlMs) s).2 = s := congrArg Prod.snd (tpmCheck_denied hshort)
          rw [hsame]
          exact h
        · have hnew : (Cmd.run (.tpmCheck rule.tpmKey s.time (rule.burst refillRate) requestTokens
              refillRate tpmBucketTtlMs) s).2 = (s.tpmCheck rule.tpmKey s.time
                (rule.burst refillRate) requestTokens refillRate tpmBucketTtlMs).2 := rfl
          rw [hnew, tpmCheck_granted hroom]
          refine ⟨fun cell hc => ?_⟩
          cases Table.set_self.symm.trans hc
          exact ⟨le_refl _, refillsBy_check hr hburst hroom⟩
      | tpmSettle k delta limit ttlMs rate =>
        cases hkey
        obtain ⟨hrate, rfl, rfl⟩ := hissued.tpmSettle rfl
        cases hrule.symm.trans hrate
        show Repaid rule refillRate (s.tpmSettle rule.tpmKey delta (rule.burst refillRate)
          tpmBucketTtlMs refillRate)
        cases hb : s.bucket rule.tpmKey with
        | none =>
          rw [tpmSettle_none hb]
          exact h
        | some b =>
          obtain ⟨cell, hc, -, rfl⟩ := Table.get_eq_some.1 hb
          have hts := (h.refills cell hc).1
          rw [tpmSettle_some hb]
          refine ⟨fun cell' hc' => ?_⟩
          cases Table.set_self.symm.trans hc'
          exact ⟨hts, refillsBy_settle hr hburst hts⟩
      | rpmCheck => cases hkey
      | concurrentCheck => cases hkey
      | zrem => cases hkey
      | emergencyAdmit => cases hkey
    · refine ⟨fun cell hc => ?_⟩
      rw [buckets_run_ne hkey] at hc
      rw [time_run]
      exact h.refills cell hc
  · obtain ⟨d, rfl⟩ := he
    refine ⟨fun cell hc => ?_⟩
    obtain ⟨hts, hrefills⟩ := h.refills cell hc
    exact ⟨by push_cast; omega, hrefills⟩

/-- The first check of a bucket takes all of it. -/
def drain (rule : Rule) (refillRate : Int) : Cmd :=
  .tpmCheck rule.tpmKey 0 (rule.burst refillRate) (rule.burst refillRate) refillRate tpmBucketTtlMs

/-- The state in which the drained bucket has just expired. -/
def drainedState (rule : Rule) : State :=
  { emptyState with
    time := 1860000, buckets := emptyState.buckets.set rule.tpmKey ⟨0, 0⟩ (some 1860000) }

theorem runs_drained (hrule : rule.tpmLimit = some refillRate) (hpos : 0 < rule.burst refillRate) :
    Timeline (OnTime rule) Passes emptyState (drainedState rule)
      [(0, ⟨drain rule refillRate, .ok (true, 0, rule.burst refillRate)⟩)] := by
  have hissued : Issued rule 0 (drain rule refillRate) :=
    ⟨rule, fun _ => rfl, rfl, rfl, hrule, rfl, hpos, rfl⟩
  have hfull : emptyState.refilled rule.tpmKey 0 (rule.burst refillRate) refillRate =
      rule.burst refillRate := by
    simp [State.refilled, State.bucket, emptyState, Table.get, Table.find]
  have hstep : (drain rule refillRate).run emptyState = (.ok (true, 0, rule.burst refillRate),
      { emptyState with buckets := emptyState.buckets.set rule.tpmKey ⟨0, 0⟩ (some 1860000) }) := by
    show (Except.ok (emptyState.tpmCheck _ _ _ _ _ _).1, (emptyState.tpmCheck _ _ _ _ _ _).2) = _
    rw [tpmCheck_granted (le_of_eq hfull.symm), hfull, sub_self]
    simp only [emptyState, tpmBucketTtlMs, Nat.zero_add]
    rfl
  have hpass : Passes { emptyState with
      buckets := emptyState.buckets.set rule.tpmKey ⟨0, 0⟩ (some 1860000) } (drainedState rule) :=
    ⟨1860000, by simp [drainedState, emptyState]⟩
  exact .env (.cmd .start (fun e he => by cases he) ⟨rfl, hissued, hstep.symm⟩) hpass

theorem drainedState_bucket :
    (drainedState rule).buckets rule.tpmKey = some ⟨⟨0, 0⟩, some 1860000⟩ := Table.set_self

theorem expiry_refills_iff (hrule : rule.tpmLimit = some refillRate) (hr : 1 ≤ refillRate) :
    ExpiryRefills rule refillRate ↔ rule.burst refillRate ≤ 31 * refillRate := by
  constructor
  · intro h
    by_contra hburst
    have hrun := runs_drained hrule (by omega)
    have hfull := h _ _ _ rfl hrun _ drainedState_bucket rfl 1860000 rfl 1860000 (le_refl _)
    dsimp only at hfull
    omega
  · intro hburst s₀ s l hfresh hrun cell hc _
    exact ((Repaid.run hrule hr hburst hfresh hrun).refills cell hc).2

end

/-- Its bucket expires with a refill of 31000 tokens. -/
theorem burst_forgiven : ¬ ExpiryRefills burstRule 1000 := by
  intro h
  have hrun : Timeline (OnTime burstRule) Passes emptyState (drainedState burstRule) _ :=
    runs_drained rfl (show 0 < burstRule.burst 1000 by decide)
  have hfull := h _ _ _ rfl hrun _ drainedState_bucket rfl 1860000 rfl 1860000 (le_refl _)
  exact absurd hfull (by decide)

/-- Without a burst limit the bucket of the same rule refills in a minute. -/
theorem plain_refills : ExpiryRefills { burstRule with tpmBurstLimit := none } 1000 :=
  (expiry_refills_iff rfl (by decide)).2 (by decide)

end RateLimit
