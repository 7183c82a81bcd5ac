import Janus.Gateway.Proof.Settlement
import Janus.Gateway.Proof.Window

/-!
# A denial

The gates change what the limiter holds in three ways: a set loses the entries that have expired, it
gets the entry of the request, and a bucket is refilled and charged. `denial_leaves_no_trace`: of
these only the first and the refill are left after a denial.
-/

set_option autoImplicit false

namespace RateLimit

open Conc Redis

/-- The members of a set, as readers see them. -/
def State.members (s : State) (key : Key) : ZSet String := (s.sets.get s.time key).getD []

/-- How long an entry of a set counts. -/
def Key.windowMs : Key → Int
  | .rpm .. => 60000
  | .tpm .. => 0
  | .conc .. => concurrentStaleTimeoutSeconds * 1000

/-! ## What the commands do to the sets -/

section

variable {s : State} {key : Key} {z : ZSet String} {member : String} {nowMs windowMs limit ttlMs bound : Int}

theorem members_run_ne {c : Cmd} (h : c.setKey ≠ some key) :
    (c.run s).2.members key = s.members key := by
  unfold State.members
  rw [time_run, Table.get_congr (sets_run_ne h)]

theorem members_addMember (h : 0 < ttlMs) :
    (s.addMember key z member nowMs ttlMs).members key = z.add member nowMs := by
  have hlive : s.time < s.time + ttlMs.toNat := by omega
  unfold State.members State.addMember
  dsimp only
  rw [Table.get_set_self hlive]
  rfl

theorem members_dropStale :
    (s.dropStale key bound).members key = (s.members key).dropUpTo bound := by
  unfold State.members State.dropStale
  dsimp only
  rw [Table.get_alter_self]
  split
  · next h => exact h.symm
  · rfl

theorem members_zrem :
    ((Cmd.zrem key member).run s).2.members key = (s.members key).rem member := by
  unfold State.members Cmd.run
  dsimp only
  rw [Table.get_alter_self]
  cases s.sets.get s.time key with
  | none => rfl
  | some z =>
    by_cases h : z.rem member = [] <;> simp [Option.filter, h]

/-- The RPM and the concurrency check, by their shared part. -/
theorem members_addIfRoom (h : 0 < ttlMs) :
    (s.addIfRoom key nowMs windowMs limit member ttlMs).2.members key =
      if (s.addIfRoom key nowMs windowMs limit member ttlMs).1 then
        ((s.members key).dropUpTo (nowMs - windowMs)).add member nowMs
      else (s.members key).dropUpTo (nowMs - windowMs) := by
  unfold State.addIfRoom
  dsimp only
  split
  · exact members_dropStale
  · exact members_addMember h

end

/-! ## The sets during a check -/

section

variable {s₀ s s' : State} {key : Key} {z z' : ZSet String} {nowMs : Int} {member : String}
  {P P' : Key → Prop} {c : Cmd}

/-- The same set, or what is left of it when the entries that have expired are gone. -/
def Trimmed (nowMs : Int) (key : Key) (z z' : ZSet String) : Prop :=
  z' = z ∨ z' = z.dropUpTo (nowMs - key.windowMs)

theorem Trimmed.again (h : Trimmed nowMs key z z') :
    Trimmed nowMs key z (z'.dropUpTo (nowMs - key.windowMs)) := by
  rcases h with rfl | rfl
  · exact .inr rfl
  · exact .inr ZSet.dropUpTo_dropUpTo

/-- But for the entries of the request, which are in sets of `P` only, the sets are as they were. -/
structure Kept (nowMs : Int) (member : String) (s₀ s : State) (P : Key → Prop) : Prop where
  time : s.time = s₀.time
  sets : ∀ key, Trimmed nowMs key (s₀.members key) ((s.members key).rem member)
  entries : ∀ key, (s.members key).score member ≠ none → P key

theorem Kept.mono (h : Kept nowMs member s₀ s P) (hP : ∀ key, P key → P' key) :
    Kept nowMs member s₀ s P' := ⟨h.time, h.sets, fun key hkey => hP key (h.entries key hkey)⟩

theorem Kept.frame (h : Kept nowMs member s₀ s P) (ht : s'.time = s.time)
    (hs : ∀ key, s'.members key = s.members key) : Kept nowMs member s₀ s' P where
  time := ht.trans h.time
  sets key := by
    rw [hs]
    exact h.sets key
  entries key := by
    rw [hs]
    exact h.entries key

/-- A check on `key` trims its set, and enters the request if there is room. -/
theorem Kept.check {allowed : Bool} (h : Kept nowMs member s₀ s P) (hc : c.setKey = some key)
    (hkey : (c.run s).2.members key =
      if allowed then ((s.members key).dropUpTo (nowMs - key.windowMs)).add member nowMs
      else (s.members key).dropUpTo (nowMs - key.windowMs)) :
    Kept nowMs member s₀ (c.run s).2 fun k => P k ∨ allowed = true ∧ k = key where
  time := time_run.trans h.time
  sets k := by
    by_cases hk : k = key
    · subst hk
      have htrimmed : Trimmed nowMs k (s₀.members k)
          (((s.members k).dropUpTo (nowMs - k.windowMs)).rem member) := by
        rw [ZSet.rem_dropUpTo]
        exact (h.sets k).again
      rw [hkey]
      split
      · rw [ZSet.rem_add]
        exact htrimmed
      · exact htrimmed
    · rw [members_run_ne fun he => hk (Option.some.inj (he.symm.trans hc))]
      exact h.sets k
  entries k := by
    by_cases hk : k = key
    · subst hk
      rw [hkey]
      intro hscore
      cases allowed with
      | true => exact .inr ⟨rfl, rfl⟩
      | false => exact .inl (h.entries k fun hnone => hscore (ZSet.score_dropUpTo_none hnone))
    · rw [members_run_ne fun he => hk (Option.some.inj (he.symm.trans hc))]
      exact fun hscore => .inl (h.entries k hscore)

theorem Kept.zrem (h : Kept nowMs member s₀ s P) :
    Kept nowMs member s₀ ((Cmd.zrem key member).run s).2 fun k => P k ∧ k ≠ key where
  time := time_run.trans h.time
  sets k := by
    by_cases hk : k = key
    · subst hk
      rw [members_zrem, ZSet.rem_of_none ZSet.score_rem_self]
      exact h.sets k
    · have hne : (Cmd.zrem key member).setKey ≠ some k := fun he => hk (Option.some.inj he).symm
      rw [members_run_ne hne]
      exact h.sets k
  entries k := by
    by_cases hk : k = key
    · subst hk
      rw [members_zrem, ZSet.score_rem_self]
      exact fun hscore => absurd rfl hscore
    · have hne : (Cmd.zrem key member).setKey ≠ some k := fun he => hk (Option.some.inj he).symm
      rw [members_run_ne hne]
      exact fun hscore => ⟨h.entries k hscore, hk⟩

/-- Without an entry of the request the sets are as they were. -/
theorem Kept.trimmed (h : Kept nowMs member s₀ s fun _ => False) (key : Key) :
    Trimmed nowMs key (s₀.members key) (s.members key) := by
  have hnone : (s.members key).score member = none := not_not.1 (h.entries key)
  have hsets := h.sets key
  rw [ZSet.rem_of_none hnone] at hsets
  exact hsets

end

/-! ## The buckets during a check -/

section

variable {s₀ s s' : State} {key : Key} {nowMs estimatedTokens tpmLimit : Int} {rule : Rule}
  {acquired : List Rule}

/-- The bucket of a rule after a refill alone. -/
def State.pureRefill (s : State) (nowMs : Int) (pair : Rule × Int) : Bucket :=
  ⟨s.refilled pair.1.tpmKey nowMs (pair.1.burst pair.2) pair.2, nowMs⟩

/-- The buckets of these rules are refilled and charged, the others are as they were. -/
structure Charged (nowMs estimatedTokens : Int) (s₀ s : State) (acquired : List Rule) : Prop where
  charged : ∀ pair ∈ tpmRules acquired, s.bucket pair.1.tpmKey =
    some { s₀.pureRefill nowMs pair with
      tokens := (s₀.pureRefill nowMs pair).tokens - estimatedTokens }
  others : ∀ key, (∀ pair ∈ tpmRules acquired, pair.1.tpmKey ≠ key) → s.bucket key = s₀.bucket key

theorem Charged.frame (h : Charged nowMs estimatedTokens s₀ s acquired)
    (hs : ∀ key, s'.bucket key = s.bucket key) : Charged nowMs estimatedTokens s₀ s' acquired where
  charged pair hpair := (hs _).trans (h.charged pair hpair)
  others key hkey := (hs _).trans (h.others key hkey)

theorem mem_tpmRules {l : List Rule} {pair : Rule × Int} :
    pair ∈ tpmRules l ↔ pair.1 ∈ l ∧ pair.1.tpmLimit = some pair.2 := by
  unfold tpmRules
  simp only [List.mem_filterMap, Option.map_eq_some_iff]
  constructor
  · rintro ⟨rule, hrule, limit, hlimit, rfl⟩
    exact ⟨hrule, hlimit⟩
  · exact fun h => ⟨pair.1, h.1, pair.2, h.2, rfl⟩

/-- A check that takes its tokens, of a rule that has not been checked yet. -/
theorem Charged.check (h : Charged nowMs estimatedTokens s₀ s acquired)
    (hlimit : rule.tpmLimit = some tpmLimit) (hnew : ∀ r ∈ acquired, r.id ≠ rule.id)
    (hroom : estimatedTokens ≤ s.refilled rule.tpmKey nowMs (rule.burst tpmLimit) tpmLimit) :
    Charged nowMs estimatedTokens s₀ (s.tpmCheck rule.tpmKey nowMs (rule.burst tpmLimit)
      estimatedTokens tpmLimit tpmBucketTtlMs).2 (acquired ++ [rule]) := by
  have hne : ∀ pair ∈ tpmRules acquired, pair.1.tpmKey ≠ rule.tpmKey := fun pair hpair hk =>
    hnew pair.1 (mem_tpmRules.1 hpair).1 (tpmKey_inj hk)
  have hlive : 0 < tpmBucketTtlMs := by decide
  have hbucket := (bucket_tpmCheck_granted hroom hlive).2
  have hother : ∀ key, key ≠ rule.tpmKey → (s.tpmCheck rule.tpmKey nowMs (rule.burst tpmLimit)
      estimatedTokens tpmLimit tpmBucketTtlMs).2.bucket key = s.bucket key := fun key hk =>
    bucket_run_ne (c := .tpmCheck rule.tpmKey nowMs (rule.burst tpmLimit) estimatedTokens tpmLimit
      tpmBucketTtlMs) fun he => hk (Option.some.inj he).symm
  constructor
  · intro pair hpair
    obtain ⟨hmem, hpairlimit⟩ := mem_tpmRules.1 hpair
    rcases List.mem_append.1 hmem with hmem | hmem
    · have hold : pair ∈ tpmRules acquired := mem_tpmRules.2 ⟨hmem, hpairlimit⟩
      rw [hother _ (hne pair hold)]
      exact h.charged pair hold
    · obtain ⟨r, limit⟩ := pair
      obtain rfl : r = rule := List.mem_singleton.1 hmem
      obtain rfl : tpmLimit = limit := Option.some.inj (hlimit.symm.trans hpairlimit)
      rw [hbucket]
      unfold State.pureRefill State.refilled
      rw [h.others _ hne]
  · intro key hkey
    have hk : key ≠ rule.tpmKey := fun hk =>
      hkey (rule, tpmLimit) (mem_tpmRules.2 ⟨by simp, hlimit⟩) hk.symm
    rw [hother key hk]
    refine h.others key fun pair hpair => hkey pair ?_
    obtain ⟨hmem, hpairlimit⟩ := mem_tpmRules.1 hpair
    exact mem_tpmRules.2 ⟨List.mem_append_left _ hmem, hpairlimit⟩

/-- As it was, or refilled. -/
def Restored (nowMs : Int) (rules : List Rule) (s₀ s : State) (key : Key) : Prop :=
  s.bucket key = s₀.bucket key ∨
    ∃ pair ∈ tpmRules rules, pair.1.tpmKey = key ∧ s.bucket key = some (s₀.pureRefill nowMs pair)

/-- The settlement gives back what was charged. -/
theorem Charged.settle (h : Charged nowMs estimatedTokens s₀ s acquired) (hids : DistinctIds acquired)
    (hpos : estimatedTokens ≠ 0) {rules : List Rule} (hsub : acquired ⊆ rules) (key : Key) :
    Restored nowMs rules s₀ (applyAll (bucketWrites estimatedTokens acquired) s) key := by
  have hwrites : bucketWrites estimatedTokens acquired =
      (tpmRules acquired).map (settleRule estimatedTokens) := if_neg hpos
  rw [hwrites]
  by_cases hkey : ∃ pair ∈ tpmRules acquired, pair.1.tpmKey = key
  · obtain ⟨pair, hpair, rfl⟩ := hkey
    obtain ⟨hmem, hlimit⟩ := mem_tpmRules.1 hpair
    refine .inr ⟨pair, mem_tpmRules.2 ⟨hsub hmem, hlimit⟩, rfl, ?_⟩
    rw [bucket_settles (tpmRules_nodup hids) hpair, h.charged pair hpair]
    have hcap : (s₀.pureRefill nowMs pair).tokens ≤ pair.1.burst pair.2 := min_le_left _ _
    have htokens : min (pair.1.burst pair.2) ((s₀.pureRefill nowMs pair).tokens - estimatedTokens +
        estimatedTokens) = (s₀.pureRefill nowMs pair).tokens := by omega
    exact congrArg (fun tokens => some (⟨tokens, nowMs⟩ : Bucket)) htokens
  · have hne : ∀ pair ∈ tpmRules acquired, pair.1.tpmKey ≠ key := fun pair hpair hk =>
      hkey ⟨pair, hpair, hk⟩
    refine .inl ?_
    rw [bucket_settles_ne hne]
    exact h.others key hne

end

/-! ## The gates -/

section

variable {s₀ s s' : State} {nowMs estimatedTokens : Int} {member : String} {isStream : Bool}
  {rules rest : List Rule} {rule : Rule} {acquired : Acquired} {α β : Type}

/-- Where the gates passed so far have entered the request. -/
def EnteredAt (rules : List Rule) (acquired : Acquired) (key : Key) : Prop :=
  key ∈ rpmKeys acquired.rpm ∨ acquired.concurrent = true ∧ key ∈ concKeys rules

/-- What the limiter holds after the gates passed so far. -/
structure Holding (nowMs : Int) (member : String) (estimatedTokens : Int) (rules : List Rule)
    (s₀ : State) (acquired : Acquired) (s : State) : Prop where
  kept : Kept nowMs member s₀ s (EnteredAt rules acquired)
  charged : Charged nowMs estimatedTokens s₀ s acquired.tpm
  sub : acquired.tpm ⊆ rules
  ids : DistinctIds acquired.tpm
  pos : acquired.tpm ≠ [] → 0 < estimatedTokens

/-- What it holds before a gate. The ids of `rest` are new. -/
def BeforeGate (nowMs : Int) (member : String) (estimatedTokens : Int) (rules : List Rule)
    (s₀ : State) (rest : List Rule) (acquired : Acquired) (s : State) : Prop :=
  Holding nowMs member estimatedTokens rules s₀ acquired s ∧
    ∀ r ∈ acquired.tpm, ∀ r' ∈ rest, r.id ≠ r'.id

/-- How gates end: `J` holds where they pass, `D` where one denies. None of them fails. -/
def EndsIn (D : CheckResult → Acquired → State → Prop) (J : Acquired → State → Prop) :
    Except Stop Acquired × State → Prop
  | (.ok acquired, s) => J acquired s
  | (.error (.denied result acquired), s) => D result acquired s
  | (.error .redisError, _) => False

theorem endsIn_bind {D : CheckResult → Acquired → State → Prop} {J J' : Acquired → State → Prop}
    {g : Gate Acquired} {f : Acquired → Gate Acquired} (hg : EndsIn D J (g.run.eval Cmd.run s))
    (hf : ∀ acquired s, J acquired s → EndsIn D J' ((f acquired).run.eval Cmd.run s)) :
    EndsIn D J' ((g >>= f).run.eval Cmd.run s) := by
  rw [ExceptT.run_bind, Prog.eval_bind]
  generalize g.run.eval Cmd.run s = answer at hg ⊢
  obtain ⟨(⟨result, acquired⟩ | _) | acquired, s'⟩ := answer
  · exact hg
  · exact hg
  · exact hf acquired s' hg

/-- A gate whose command answers, and the rest. -/
theorem eval_gate {p : Prog Cmd Cmd.Resp (Except RedisError α)} {f : α → Gate β} {a : α} {s' : State}
    (h : p.eval Cmd.run s = (.ok a, s')) :
    (gate p >>= f).run.eval Cmd.run s = (f a).run.eval Cmd.run s' := by
  refine Raising.eval_bind_ok ((Prog.eval_bind (p := p)).trans ?_)
  rw [h]
  rfl

/-- One gate: its command, then the gate passed or a denial. -/
theorem endsIn_gate {D : CheckResult → Acquired → State → Prop} {J : Acquired → State → Prop} (c : Cmd) (acquired : Acquired)
    {p : Prog Cmd Cmd.Resp (Except RedisError (Bool × α))} {f : Bool × α → Gate Acquired}
    {allowed : Bool} {a : α}
    (hp : p.eval Cmd.run s = (.ok (allowed, a), (c.run s).2))
    (hpass : allowed = true → ∃ acquired', f (true, a) = pure acquired' ∧ J acquired' (c.run s).2)
    (hdeny : allowed = false →
      ∃ result, f (false, a) = throw (.denied result acquired) ∧ D result acquired (c.run s).2) :
    EndsIn D J ((gate p >>= f).run.eval Cmd.run s) := by
  rw [eval_gate hp]
  cases allowed with
  | true =>
    obtain ⟨acquired', hf, hJ⟩ := hpass rfl
    rw [hf]
    exact hJ
  | false =>
    obtain ⟨result, hf, hD⟩ := hdeny rfl
    rw [hf]
    exact hD

/-- What a check on a set answers and leaves. -/
theorem rpmCheck_members (s : State) (key : Key) (nowMs windowMs limit : Int) (member : String)
    (h : 0 < windowMs + 1000) :
    ∃ allowed a, ((Cmd.rpmCheck key nowMs windowMs limit member).run s).1 = .ok (allowed, a) ∧
      ((Cmd.rpmCheck key nowMs windowMs limit member).run s).2.members key =
        if allowed then ((s.members key).dropUpTo (nowMs - windowMs)).add member nowMs
        else (s.members key).dropUpTo (nowMs - windowMs) :=
  ⟨_, _, rfl, members_addIfRoom h⟩

theorem concurrentCheck_members (s : State) (key : Key) (nowMs limit : Int) (member : String)
    (timeoutMs : Int) (h : 0 < timeoutMs + 10000) :
    ∃ allowed a, ((Cmd.concurrentCheck key nowMs limit member timeoutMs).run s).1 = .ok (allowed, a) ∧
      ((Cmd.concurrentCheck key nowMs limit member timeoutMs).run s).2.members key =
        if allowed then ((s.members key).dropUpTo (nowMs - timeoutMs)).add member nowMs
        else (s.members key).dropUpTo (nowMs - timeoutMs) :=
  ⟨_, _, rfl, members_addIfRoom h⟩

theorem EnteredAt.rpm {acquired' : Acquired} {key : Key} {allowed : Bool}
    (hlimit : rule.rpmLimit.isSome = true) (hrpm : acquired'.rpm = acquired.rpm ++ [rule])
    (hconc : acquired'.concurrent = acquired.concurrent)
    (h : EnteredAt rules acquired key ∨ allowed = true ∧ key = rule.rpmKey) :
    EnteredAt rules acquired' key := by
  unfold EnteredAt at h ⊢
  rw [hrpm, hconc]
  rcases h with (h | h) | ⟨-, rfl⟩
  · left
    unfold rpmKeys at h ⊢
    rw [List.filter_append, List.map_append]
    exact List.mem_append_left _ h
  · exact .inr h
  · exact .inl (mem_rpmKeys (by simp) hlimit)

theorem EnteredAt.conc {acquired' : Acquired} {key : Key} {allowed : Bool} (hr : rule ∈ rules)
    (hlimit : rule.maxConcurrent.isSome = true) (hrpm : acquired'.rpm = acquired.rpm)
    (hconc : acquired'.concurrent = true)
    (h : EnteredAt rules acquired key ∨ allowed = true ∧ key = rule.concKey) :
    EnteredAt rules acquired' key := by
  unfold EnteredAt at h ⊢
  rw [hrpm, hconc]
  rcases h with (h | h) | ⟨-, rfl⟩
  · exact .inl h
  · exact .inr ⟨rfl, h.2⟩
  · exact .inr ⟨rfl, mem_concKeys hr hlimit⟩

theorem rpmGate_endsIn
    (h : BeforeGate nowMs member estimatedTokens rules s₀ (rule :: rest) acquired s) :
    EndsIn (fun _ => Holding nowMs member estimatedTokens rules s₀)
      (BeforeGate nowMs member estimatedTokens rules s₀ (rule :: rest))
      ((rpmGate nowMs member rule acquired).run.eval Cmd.run s) := by
  unfold rpmGate
  cases hlimit : rule.rpmLimit with
  | none => exact h
  | some rpmLimit =>
    let c : Cmd := .rpmCheck rule.rpmKey nowMs 60000 rpmLimit member
    have hkey : c.setKey = some rule.rpmKey := rfl
    obtain ⟨allowed, a, hanswer, hmembers⟩ :=
      rpmCheck_members s rule.rpmKey nowMs 60000 rpmLimit member (by decide)
    have hkept := h.1.kept.check hkey hmembers
    have hcharged : Charged nowMs estimatedTokens s₀ (c.run s).2 acquired.tpm :=
      h.1.charged.frame fun key => bucket_run_ne nofun
    refine endsIn_gate c acquired (Prod.ext hanswer rfl) (fun hallowed => ⟨_, rfl, ?_⟩)
      fun hdenied => ⟨_, rfl, ?_⟩
    · refine ⟨⟨hkept.mono fun key => ?_, hcharged, h.1.sub, h.1.ids, h.1.pos⟩, h.2⟩
      exact EnteredAt.rpm (by rw [hlimit]; rfl) rfl rfl
    · refine ⟨hkept.mono fun key hkey => ?_, hcharged, h.1.sub, h.1.ids, h.1.pos⟩
      rw [hdenied] at hkey
      exact hkey.resolve_right fun hfalse => nomatch hfalse.1

theorem tpmGate_endsIn (hr : rule ∈ rules) (hdistinct : DistinctIds (rule :: rest))
    (h : BeforeGate nowMs member estimatedTokens rules s₀ (rule :: rest) acquired s) :
    EndsIn (fun _ => Holding nowMs member estimatedTokens rules s₀)
      (BeforeGate nowMs member estimatedTokens rules s₀ rest)
      ((tpmGate nowMs estimatedTokens rule acquired).run.eval Cmd.run s) := by
  have hskip : BeforeGate nowMs member estimatedTokens rules s₀ rest acquired s :=
    ⟨h.1, fun r hr r' hr' => h.2 r hr r' (List.mem_cons_of_mem _ hr')⟩
  unfold tpmGate
  cases hlimit : rule.tpmLimit with
  | none => exact hskip
  | some tpmLimit =>
    by_cases hpos : 0 < estimatedTokens
    · let c : Cmd := .tpmCheck rule.tpmKey nowMs (rule.burst tpmLimit) estimatedTokens tpmLimit
        tpmBucketTtlMs
      have hkept : Kept nowMs member s₀ (c.run s).2 (EnteredAt rules acquired) :=
        h.1.kept.frame time_run fun key => members_run_ne nofun
      have hnew : ∀ r ∈ acquired.tpm, r.id ≠ rule.id := fun r hr =>
        h.2 r hr rule List.mem_cons_self
      dsimp only
      rw [if_pos hpos]
      by_cases hroom : estimatedTokens ≤ s.refilled rule.tpmKey nowMs (rule.burst tpmLimit) tpmLimit
      · have hanswer : (c.run s).1 = .ok (true, _, _) :=
          congrArg Except.ok (congrArg Prod.fst (tpmCheck_granted hroom))
        refine endsIn_gate c acquired (Prod.ext hanswer rfl) (fun _ => ⟨_, rfl, ?_⟩) nofun
        refine ⟨⟨hkept, h.1.charged.check hlimit hnew hroom, ?_, ?_, fun _ => hpos⟩, ?_⟩
        · exact List.append_subset.2 ⟨h.1.sub, fun r hr' => List.mem_singleton.1 hr' ▸ hr⟩
        · unfold DistinctIds
          rw [List.map_append]
          refine List.Nodup.append h.1.ids (List.nodup_singleton _) fun i hi hi' => ?_
          obtain ⟨r, hr, rfl⟩ := List.mem_map.1 hi
          exact hnew r hr (List.mem_singleton.1 hi')
        · intro r hr r' hr' hid
          rcases List.mem_append.1 hr with hr | hr
          · exact h.2 r hr r' (List.mem_cons_of_mem _ hr') hid
          · obtain rfl := List.mem_singleton.1 hr
            exact (List.nodup_cons.1 hdistinct).1 (List.mem_map.2 ⟨r', hr', hid.symm⟩)
      · have hdenied : s.tpmCheck rule.tpmKey nowMs (rule.burst tpmLimit) estimatedTokens tpmLimit
            tpmBucketTtlMs = _ := tpmCheck_denied (not_le.1 hroom)
        have hanswer : (c.run s).1 = .ok (false, _, _) :=
          congrArg Except.ok (congrArg Prod.fst hdenied)
        refine endsIn_gate c acquired (Prod.ext hanswer rfl) nofun fun _ => ⟨_, rfl, ?_⟩
        refine ⟨hkept, h.1.charged.frame fun key => ?_, h.1.sub, h.1.ids, h.1.pos⟩
        show State.bucket (s.tpmCheck _ _ _ _ _ _).2 key = s.bucket key
        rw [hdenied]
    · dsimp only
      rw [if_neg hpos]
      exact hskip

theorem concurrentGate_endsIn (hr : rule ∈ rules)
    (h : BeforeGate nowMs member estimatedTokens rules s₀ rest acquired s) :
    EndsIn (fun _ => Holding nowMs member estimatedTokens rules s₀)
      (BeforeGate nowMs member estimatedTokens rules s₀ rest)
      ((concurrentGate nowMs member isStream rule acquired).run.eval Cmd.run s) := by
  unfold concurrentGate
  cases hlimit : rule.maxConcurrent with
  | none => exact h
  | some maxConcurrent =>
    cases isStream with
    | false => exact h
    | true =>
      let c : Cmd := .concurrentCheck rule.concKey nowMs maxConcurrent member
        (concurrentStaleTimeoutSeconds * 1000)
      have hkey : c.setKey = some rule.concKey := rfl
      obtain ⟨allowed, a, hanswer, hmembers⟩ := concurrentCheck_members s rule.concKey nowMs
        maxConcurrent member (concurrentStaleTimeoutSeconds * 1000) (by decide)
      have hkept := h.1.kept.check hkey hmembers
      have hcharged : Charged nowMs estimatedTokens s₀ (c.run s).2 acquired.tpm :=
        h.1.charged.frame fun key => bucket_run_ne nofun
      refine endsIn_gate c acquired (Prod.ext hanswer rfl) (fun hallowed => ⟨_, rfl, ?_⟩)
        fun hdenied => ⟨_, rfl, ?_⟩
      · refine ⟨⟨hkept.mono fun key => ?_, hcharged, h.1.sub, h.1.ids, h.1.pos⟩, h.2⟩
        exact EnteredAt.conc hr (by rw [hlimit]; rfl) rfl rfl
      · refine ⟨hkept.mono fun key hkey => ?_, hcharged, h.1.sub, h.1.ids, h.1.pos⟩
        rw [hdenied] at hkey
        exact hkey.resolve_right fun hfalse => nomatch hfalse.1

theorem checkRule_endsIn (hr : rule ∈ rules) (hdistinct : DistinctIds (rule :: rest))
    (h : BeforeGate nowMs member estimatedTokens rules s₀ (rule :: rest) acquired s) :
    EndsIn (fun _ => Holding nowMs member estimatedTokens rules s₀)
      (BeforeGate nowMs member estimatedTokens rules s₀ rest)
      ((checkRule nowMs member estimatedTokens isStream acquired rule).run.eval Cmd.run s) :=
  endsIn_bind (rpmGate_endsIn h) fun _ _ h => endsIn_bind (tpmGate_endsIn hr hdistinct h) fun _ _ h =>
    concurrentGate_endsIn hr h

theorem gates_endsIn (hsub : rest ⊆ rules) (hdistinct : DistinctIds rest)
    (h : BeforeGate nowMs member estimatedTokens rules s₀ rest acquired s) :
    EndsIn (fun _ => Holding nowMs member estimatedTokens rules s₀) (fun _ _ => True)
      ((rest.foldlM (checkRule nowMs member estimatedTokens isStream) acquired).run.eval
        Cmd.run s) := by
  induction rest generalizing acquired s with
  | nil => exact trivial
  | cons rule rest ih =>
    rw [List.foldlM_cons]
    exact endsIn_bind (checkRule_endsIn (hsub List.mem_cons_self) hdistinct h) fun _ _ h =>
      ih (fun r hr => hsub (List.mem_cons_of_mem _ hr)) (List.nodup_cons.1 hdistinct).2 h

end

/-! ## The rollback -/

section

variable {s₀ s : State} {nowMs estimatedTokens : Int} {member : String} {rules : List Rule}
  {acquired : Acquired} {P : Key → Prop}

/-- A release takes the request out of the sets of its rules. -/
theorem release_kept {l : List Rule} {p : Rule → Bool} {keyOf : Rule → Key}
    (h : Kept nowMs member s₀ s fun key => key ∈ (l.filter p).map keyOf ∨ P key) :
    ∃ s', (suppress (forM l fun rule => if p rule then zrem (keyOf rule) member else pure ())).eval
        Cmd.run s = ((), s') ∧ Kept nowMs member s₀ s' P ∧ ∀ key, s'.bucket key = s.bucket key := by
  suffices hloop : ∃ s', (forM l fun rule =>
      if p rule then zrem (keyOf rule) member else pure ()).run.eval Cmd.run s = (.ok (), s') ∧
        Kept nowMs member s₀ s' P ∧ ∀ key, s'.bucket key = s.bucket key by
    obtain ⟨s', hrun, hkept⟩ := hloop
    refine ⟨s', ?_, hkept⟩
    unfold suppress
    rw [Prog.eval_bind, hrun]
    rfl
  induction l generalizing s with
  | nil => exact ⟨s, rfl, h.mono fun key hkey => hkey.resolve_left (List.not_mem_nil), fun _ => rfl⟩
  | cons rule l ih =>
    rw [List.forM_cons, ExceptT.run_bind, Prog.eval_bind]
    by_cases hp : p rule = true
    · rw [List.filter_cons_of_pos hp, List.map_cons] at h
      have hkept : Kept nowMs member s₀ ((Cmd.zrem (keyOf rule) member).run s).2 fun key =>
          key ∈ (l.filter p).map keyOf ∨ P key := by
        refine h.zrem.mono fun key hkey => ?_
        rcases hkey.1 with hmem | hP
        · exact .inl ((List.mem_cons.1 hmem).resolve_left hkey.2)
        · exact .inr hP
      obtain ⟨s', hrun, hkept', hbucket⟩ := ih hkept
      refine ⟨s', ?_, hkept', fun key => (hbucket key).trans (bucket_run_ne nofun)⟩
      rw [if_pos hp]
      exact hrun
    · rw [List.filter_cons_of_neg hp] at h
      obtain ⟨s', hrun, hkept⟩ := ih h
      refine ⟨s', ?_, hkept⟩
      rw [if_neg hp]
      exact hrun

/-- A step that may be left out, and the rest. -/
theorem eval_when {c : Prop} [Decidable c] {p rest : Prog Cmd Cmd.Resp Unit} {s' : State}
    (h : (if c then p else pure ()).eval Cmd.run s = ((), s')) :
    (if c then p >>= fun _ => rest else rest).eval Cmd.run s = rest.eval Cmd.run s' := by
  by_cases hc : c
  · rw [if_pos hc] at h ⊢
    rw [Prog.eval_bind, h]
  · rw [if_neg hc] at h ⊢
    cases h
    rfl

theorem rollback_restores
    (h : Holding nowMs member estimatedTokens rules s₀ acquired s) :
    ∃ s', (rollback member estimatedTokens rules acquired).eval Cmd.run s = ((), s') ∧
      Kept nowMs member s₀ s' (fun _ => False) ∧ ∀ key, Restored nowMs rules s₀ s' key := by
  have hrpm : ∃ s₁, (if acquired.rpm ≠ [] then releaseRpm member acquired.rpm else pure ()).eval
      Cmd.run s = ((), s₁) ∧ Kept nowMs member s₀ s₁ (fun key =>
        acquired.concurrent = true ∧ key ∈ concKeys rules) ∧
          Charged nowMs estimatedTokens s₀ s₁ acquired.tpm := by
    by_cases hne : acquired.rpm ≠ []
    · obtain ⟨s₁, hrun, hkept, hbucket⟩ := release_kept (p := (·.rpmLimit.isSome)) h.kept
      rw [if_pos hne]
      exact ⟨s₁, hrun, hkept, h.charged.frame hbucket⟩
    · rw [if_neg hne]
      refine ⟨s, rfl, h.kept.mono fun key hkey => hkey.resolve_left ?_, h.charged⟩
      rw [not_not.1 hne]
      exact List.not_mem_nil
  obtain ⟨s₁, hrun₁, hkept₁, hcharged⟩ := hrpm
  have htpm : ∃ s₂, (if acquired.tpm ≠ [] then suppress (settleTpm acquired.tpm estimatedTokens)
      else pure ()).eval Cmd.run s₁ = ((), s₂) ∧ Kept nowMs member s₀ s₂ (fun key =>
        acquired.concurrent = true ∧ key ∈ concKeys rules) ∧
          ∀ key, Restored nowMs rules s₀ s₂ key := by
    by_cases hne : acquired.tpm ≠ []
    · rw [if_pos hne]
      refine ⟨_, ?_, hkept₁.frame bucketWrites_sets.2 fun key => ?_,
        fun key => hcharged.settle h.ids (h.pos hne).ne' h.sub key⟩
      · unfold suppress
        rw [Prog.eval_bind, settleTpm_eval]
        rfl
      · unfold State.members
        rw [bucketWrites_sets.1, bucketWrites_sets.2]
    · rw [if_neg hne]
      refine ⟨s₁, rfl, hkept₁, fun key => .inl (hcharged.others key fun pair hpair => ?_)⟩
      rw [not_not.1 hne] at hpair
      cases hpair
  obtain ⟨s₂, hrun₂, hkept₂, hrestored⟩ := htpm
  have hconc : ∃ s₃, (if acquired.concurrent then releaseConcurrent member rules else pure ()).eval
      Cmd.run s₂ = ((), s₃) ∧ Kept nowMs member s₀ s₃ (fun _ => False) ∧
        ∀ key, s₃.bucket key = s₂.bucket key := by
    by_cases hconcurrent : acquired.concurrent = true
    · rw [if_pos hconcurrent]
      refine release_kept (p := (·.maxConcurrent.isSome)) (hkept₂.mono fun key hkey => .inl hkey.2)
    · rw [if_neg hconcurrent]
      exact ⟨s₂, rfl, hkept₂.mono fun key hkey => hconcurrent hkey.1, fun _ => rfl⟩
  obtain ⟨s₃, hrun₃, hkept₃, hbucket⟩ := hconc
  refine ⟨s₃, ?_, hkept₃, fun key => ?_⟩
  · unfold rollback
    exact (eval_when hrun₁).trans ((eval_when hrun₂).trans hrun₃)
  · unfold Restored
    rw [hbucket]
    exact hrestored key

theorem nothing_held (hfresh : ∀ key, (s.members key).score member = none) :
    BeforeGate nowMs member estimatedTokens rules s rules {} s where
  left := {
    kept := {
      time := rfl
      sets := fun key => .inl (ZSet.rem_of_none (hfresh key))
      entries := fun key hkey => absurd (hfresh key) hkey }
    charged := ⟨fun _ hpair => absurd hpair List.not_mem_nil, fun _ _ => rfl⟩
    sub := List.nil_subset _
    ids := List.nodup_nil
    pos := fun h => absurd rfl h }
  right _ hr := absurd hr List.not_mem_nil

end

/-- A denial leaves the sets as they were, but for entries that have expired, and the buckets as they
were or refilled. -/
theorem denial_leaves_no_trace {nowMs estimatedTokens : Int} {member : String} {isStream : Bool}
    {rules : List Rule} {s : State} (hids : DistinctIds rules)
    (hfresh : ∀ key, (s.members key).score member = none)
    (hdenied : ((checkRateLimits nowMs member estimatedTokens isStream rules).eval
      Cmd.run s).1.allowed = false) (key : Key) :
    Trimmed nowMs key (s.members key)
        (((checkRateLimits nowMs member estimatedTokens isStream rules).eval
          Cmd.run s).2.members key) ∧
      Restored nowMs rules s
        ((checkRateLimits nowMs member estimatedTokens isStream rules).eval Cmd.run s).2 key := by
  have hgates : EndsIn (fun _ => Holding nowMs member estimatedTokens rules s) (fun _ _ => True)
      ((rules.foldlM (checkRule nowMs member estimatedTokens isStream) {}).run.eval Cmd.run s) :=
    gates_endsIn (fun _ h => h) hids (nothing_held hfresh)
  unfold checkRateLimits at hdenied ⊢
  rw [Prog.eval_bind] at hdenied ⊢
  generalize (rules.foldlM (checkRule nowMs member estimatedTokens isStream) {}).run.eval Cmd.run s =
    answer at hgates hdenied ⊢
  obtain ⟨(⟨result, acquired⟩ | _) | acquired, s'⟩ := answer
  · obtain ⟨s'', hrun, hkept, hrestored⟩ := rollback_restores hgates
    dsimp only at hdenied ⊢
    rw [Prog.eval_bind, hrun] at hdenied ⊢
    exact ⟨hkept.trimmed key, hrestored key⟩
  · exact hgates.elim
  · cases hdenied

/-- The request enters the window, is denied its tokens, and leaves the window. -/
theorem denial_leaves_no_trace_tokens :
    Trimmed 0 limitedRule.rpmKey (emptyState.members limitedRule.rpmKey)
        (((checkRateLimits 0 "r1" 2000 false [limitedRule]).eval Cmd.run
          emptyState).2.members limitedRule.rpmKey) ∧
      Restored 0 [limitedRule] emptyState
        ((checkRateLimits 0 "r1" 2000 false [limitedRule]).eval Cmd.run emptyState).2
        limitedRule.rpmKey := by
  have hids : DistinctIds [limitedRule] := List.nodup_singleton _
  exact denial_leaves_no_trace hids (fun _ => rfl) (by rfl) limitedRule.rpmKey

end RateLimit
