import Janus.Conc.Clock
import Janus.Gateway.Proof.Counters

/-!
# How long the quota counters live

The counter of a day or a month gets its time to live when the check script finds it at zero, and
every later command keeps it. A key is only written while it is live, so none is ever made without a
deadline (`Sound`): a check writes within the period, a settlement soon after its check.
-/

set_option autoImplicit false

namespace QuotaEnforcer

open Conc Python Redis

/-- The first day after the period that a key names. -/
def periodEndDay : PeriodKey → Option Nat
  | .daily date => some date.tomorrow.ordinal
  | .monthly year month => some (daysBeforeYear (year + if month = 12 then 1 else 0) +
      daysBeforeMonth (year + if month = 12 then 1 else 0) (if month = 12 then 1 else month + 1) + 1)
  | .total => none

/-- The end of the period that a key names. -/
def periodEnd (period : PeriodKey) : Option Nat := (periodEndDay period).map (· * dayMicros)

/-- Microseconds of `n` seconds more than the grace of a counter. -/
def grace (n : Int) : Nat := ((quotaTtlGraceSeconds + n) * 1000000).toNat

/-- A counter of a day or a month has a deadline near the end of its grace. -/
def Expires (key : Key) (c : Cell Int) : Prop :=
  ∀ ends, periodEnd key.period = some ends → ∃ d, c.expiresAt = some d ∧
    ends + grace (-1) < d ∧ d ≤ ends + grace 1

def Sound (s : State) : Prop := ∀ key c, s.counters key = some c → Expires key c

def Present (s : State) (key : Key) : Prop := s.counters key ≠ none

/-- The counters of `key` are still live. -/
def Early (now : Nat) (key : Key) : Prop :=
  ∀ ends, periodEnd key.period = some ends → now ≤ ends + grace (-1)

section Cells

variable {s s' : State} {key k : Key} {a : Int} {e : Entry} {entries : List Entry}
  {incremented : List (Key × Int)} {i : Nat} {now : DateTime} {period : QuotaPeriod}

theorem periodEnd_daily :
    periodEnd (periodKeyAt .daily now) = some (DateTime.midnight now.date.tomorrow).instant := by
  rw [DateTime.instant_midnight]
  rfl

theorem periodEnd_monthly :
    periodEnd (periodKeyAt .monthly now) = some (DateTime.midnight now.date.nextMonth).instant := by
  have hday : periodEndDay (periodKeyAt .monthly now) = some now.date.nextMonth.ordinal := rfl
  rw [DateTime.instant_midnight, periodEnd, hday, Option.map_some]

/-- The end of the period of a key is after the instant the key was made. -/
theorem lt_periodEnd {ends : Nat} (h : periodEnd (periodKeyAt period now) = some ends) :
    now.instant < ends := by
  cases period with
  | daily =>
    rw [periodEnd_daily] at h
    rw [← Option.some.inj h]
    refine DateTime.instant_lt_midnight ?_
    rw [Date.ordinal_tomorrow]
    exact Nat.lt_succ_self _
  | monthly =>
    rw [periodEnd_monthly] at h
    rw [← Option.some.inj h]
    exact DateTime.instant_lt_midnight Date.ordinal_lt_nextMonth
  | total => exact absurd h nofun

theorem ttlSecondsAt_daily : ttlSecondsAt .daily now =
    some (max 1 (secondsTo now (.midnight now.date.tomorrow)) + quotaTtlGraceSeconds) := rfl

theorem ttlSecondsAt_monthly : ttlSecondsAt .monthly now =
    some (max 1 (secondsTo now (.midnight now.date.nextMonth)) + quotaTtlGraceSeconds) := rfl

/-- The time to live that goes with a key. -/
theorem ttlSecondsAt_eq {ends : Nat} (h : periodEnd (periodKeyAt period now) = some ends) :
    (ttlSecondsAt period now).getD 0 =
      max 1 (((ends : Int) - now.instant).tdiv 1000000) + quotaTtlGraceSeconds := by
  cases period with
  | daily =>
    rw [periodEnd_daily] at h
    rw [← Option.some.inj h, ttlSecondsAt_daily, Option.getD_some, secondsTo]
  | monthly =>
    rw [periodEnd_monthly] at h
    rw [← Option.some.inj h, ttlSecondsAt_monthly, Option.getD_some, secondsTo]
  | total => exact absurd h nofun

/-- A deadline set by the check is near the end of the grace. -/
theorem ttl_window {ends : Nat} (h : periodEnd (periodKeyAt period now) = some ends) :
    0 < (ttlSecondsAt period now).getD 0 ∧
      ends + grace (-1) < now.instant + ((ttlSecondsAt period now).getD 0).toNat * 1000000 ∧
      now.instant + ((ttlSecondsAt period now).getD 0).toNat * 1000000 ≤ ends + grace 1 := by
  have hlt := lt_periodEnd h
  rw [ttlSecondsAt_eq h, Int.tdiv_eq_ediv_of_nonneg (by omega)]
  unfold grace quotaTtlGraceSeconds
  generalize now.instant = n at hlt ⊢
  omega

/-! ## The commands -/

theorem incrby_self : (s.incrby key a).counters key =
    some ⟨s.count key + a, (s.counters.find s.now.instant key).bind Cell.expiresAt⟩ := by
  rw [counters_incrby]
  simp [Table.alter]

theorem incrby_ne (h : k ≠ key) : (s.incrby key a).counters k = s.counters k := by
  rw [counters_incrby, Table.alter_ne h]

theorem expire_self {ttl : Int} : (s.expire key ttl).counters key =
    (s.counters.find s.now.instant key).map
      fun c => ⟨c.val, some (s.now.instant + ttl.toNat * 1000000)⟩ := by
  rw [counters_expire]
  simp [Table.expire]

theorem expire_ne {ttl : Int} (h : k ≠ key) : (s.expire key ttl).counters k = s.counters k := by
  rw [counters_expire, Table.expire_ne h]

theorem present_incrby (h : Present s k) : Present (s.incrby key a) k := by
  by_cases hk : k = key
  · subst hk
    rw [Present, incrby_self]
    exact nofun
  · rw [Present, incrby_ne hk]
    exact h

/-- A counter that is written in time keeps its deadline. -/
theorem sound_incrby (h : Sound s) (hpresent : Present s key) (hearly : Early s.now.instant key) :
    Sound (s.incrby key a) := by
  intro k c hc
  by_cases hk : k = key
  · subst hk
    obtain ⟨old, hold⟩ := Option.ne_none_iff_exists'.1 hpresent
    rw [incrby_self] at hc
    rw [← Option.some.inj hc]
    intro ends hends
    obtain ⟨d, hd, hlo, hhi⟩ := h k old hold ends hends
    have hearly := hearly ends hends
    have hlive : old.live s.now.instant = true := by
      rw [Cell.live, hd, Option.all_some, decide_eq_true_eq]
      omega
    refine ⟨d, ?_, hlo, hhi⟩
    show (s.counters.find s.now.instant k).bind Cell.expiresAt = some d
    rw [Table.find_eq_some.2 ⟨hold, hlive⟩]
    exact hd
  · rw [incrby_ne hk] at hc
    exact h k c hc

/-- An entry of the check whose key and time to live were made at `now`. -/
def Fresh (now : Nat) (e : Entry) : Prop :=
  ∀ ends, periodEnd e.key.period = some ends → now < ends ∧ 0 < e.ttl ∧
    ends + grace (-1) < now + e.ttl.toNat * 1000000 ∧ now + e.ttl.toNat * 1000000 ≤ ends + grace 1

theorem Fresh.early {now : Nat} (h : Fresh now e) : Early now e.key := by
  intro ends hends
  have := (h ends hends).1
  omega

theorem count_absent (h : ¬ Present s key) : s.count key = 0 := by
  unfold State.count
  rw [Table.get_of_none (not_not.1 h)]
  rfl

theorem find_incrby : ∃ c, (s.incrby key a).counters.find s.now.instant key = some c := by
  have hget : (s.incrby key a).counters.get s.now.instant key = some (s.count key + a) := by
    rw [counters_incrby, Table.get_alter_self]
  obtain ⟨c, hc, -⟩ := Option.map_eq_some_iff.1 hget
  exact ⟨c, hc⟩

theorem present_reserve_self : Present (s.reserve e) e.key := by
  unfold State.reserve
  dsimp only
  split
  · obtain ⟨c, hc⟩ := (find_incrby : ∃ c, (s.incrby e.key e.reserve).counters.find _ _ = some c)
    rw [Present, expire_self, now_incrby, hc]
    exact nofun
  · rw [Present, incrby_self]
    exact nofun

theorem reserve_ne (h : k ≠ e.key) : (s.reserve e).counters k = s.counters k := by
  unfold State.reserve
  dsimp only
  split
  · rw [expire_ne h, incrby_ne h]
  · exact incrby_ne h

theorem present_reserve (h : Present s k) : Present (s.reserve e) k := by
  by_cases hk : k = e.key
  · rw [hk]
    exact present_reserve_self
  · rw [Present, reserve_ne hk]
    exact h

/-- The first reserve of a counter gives it its deadline, and so does one that finds it at zero. -/
theorem sound_reserve (h : Sound s) (hfresh : Fresh s.now.instant e) : Sound (s.reserve e) := by
  intro k c hc
  by_cases hk : k = e.key
  · subst hk
    unfold State.reserve at hc
    dsimp only at hc
    split at hc
    · rw [expire_self] at hc
      obtain ⟨c', -, rfl⟩ := Option.map_eq_some_iff.1 hc
      intro ends hends
      exact ⟨_, rfl, (hfresh ends hends).2.2⟩
    · next hkept =>
      by_cases hpresent : Present s e.key
      · exact sound_incrby h hpresent hfresh.early e.key c hc
      · intro ends hends
        refine absurd ⟨?_, (hfresh ends hends).2.1⟩ hkept
        rw [count_incrby, if_pos rfl, count_absent hpresent]
        exact Int.zero_add _
  · rw [reserve_ne hk] at hc
    exact h k c hc

theorem sound_undo (h : Sound s) (hpairs : ∀ pair ∈ incremented, Present s pair.1 ∧
    Early s.now.instant pair.1) : Sound (s.undo incremented) ∧
      ∀ k, Present s k → Present (s.undo incremented) k := by
  unfold State.undo
  induction incremented generalizing s with
  | nil => exact ⟨h, fun k hk => hk⟩
  | cons pair l ih =>
    obtain ⟨hpresent, hearly⟩ := hpairs pair List.mem_cons_self
    rw [List.foldl_cons]
    obtain ⟨hsound, hkeeps⟩ := ih (sound_incrby (a := -pair.2) h hpresent hearly) fun p hp =>
      ⟨present_incrby (hpairs p (List.mem_cons_of_mem _ hp)).1,
        (hpairs p (List.mem_cons_of_mem _ hp)).2⟩
    exact ⟨hsound, fun k hk => hkeeps k (present_incrby hk)⟩

/-- The check script keeps every counter sound, and leaves those of a check that passed present. -/
theorem sound_check {answer : Option (Nat × Int)} (h : Sound s)
    (hpairs : ∀ pair ∈ incremented, Present s pair.1 ∧ Early s.now.instant pair.1)
    (hfresh : ∀ e ∈ entries, Fresh s.now.instant e)
    (hrun : s.checkFrom i incremented entries = (answer, s')) :
    Sound s' ∧ (∀ k, Present s k → Present s' k) ∧
      (answer = none → ∀ e ∈ entries, Present s' e.key) := by
  induction entries generalizing s i incremented with
  | nil =>
    cases hrun
    exact ⟨h, fun k hk => hk, fun _ e he => absurd he List.not_mem_nil⟩
  | cons e entries ih =>
    have hsound := sound_reserve h (hfresh e List.mem_cons_self)
    have hpairs' : ∀ pair ∈ incremented ++ [(e.key, e.reserve)],
        Present (s.reserve e) pair.1 ∧ Early (s.reserve e).now.instant pair.1 := by
      intro pair hp
      rw [now_reserve]
      rcases List.mem_append.1 hp with hp | hp
      · exact ⟨present_reserve (hpairs pair hp).1, (hpairs pair hp).2⟩
      · rw [List.mem_singleton.1 hp]
        exact ⟨present_reserve_self, (hfresh e List.mem_cons_self).early⟩
    unfold State.checkFrom at hrun
    dsimp only at hrun
    split at hrun
    · cases hrun
      obtain ⟨hsound, hkeeps⟩ := sound_undo hsound hpairs'
      exact ⟨hsound, fun k hk => hkeeps k (present_reserve hk), fun h => by cases h⟩
    · have hfresh' : ∀ e' ∈ entries, Fresh (s.reserve e).now.instant e' := by
        rw [now_reserve]
        exact fun e' he' => hfresh e' (List.mem_cons_of_mem _ he')
      obtain ⟨hsound, hkeeps, hall⟩ := ih hsound hpairs' hfresh' hrun
      refine ⟨hsound, fun k hk => hkeeps k (present_reserve hk), fun hpassed e' he' => ?_⟩
      rcases List.mem_cons.1 he' with rfl | he'
      · exact hkeeps _ present_reserve_self
      · exact hall hpassed e' he'

end Cells

/-! ## Runs -/

abbrev StampedTrace := Trace Cmd (Stamped DateTime Cmd.Resp)

/-- The script runs at the instant its keys and its times to live were computed, and every later
command within the grace, less a second. -/
def Prompt (t : StampedTrace) : Prop :=
  ∀ entries τ answer, ⟨.check entries, (τ, answer)⟩ ∈ t →
    (∀ τ' d, ⟨.now, (τ', d)⟩ ∈ t → d = τ) ∧
    ∀ key amount τ' n, ⟨.incrby key amount, (τ', n)⟩ ∈ t → τ'.instant ≤ τ.instant + grace (-1)

section Run

variable {ι : Type} {requests : ι → Request} {r : Request} {t t' : StampedTrace} {s s' : State}
  {e : Entry} {entries : List Entry} {key : Key}

theorem Prompt.mono (h : Prompt t') (hsub : t ⊆ t') : Prompt t := by
  intro entries τ answer hcheck
  obtain ⟨hnow, hincrby⟩ := h entries τ answer (hsub hcheck)
  exact ⟨fun τ' d hd => hnow τ' d (hsub hd), fun k a τ' n hk => hincrby k a τ' n (hsub hk)⟩

theorem mem_admittedEntries (h : e ∈ admittedEntries (Trace.plain t)) :
    ∃ entries τ, ⟨.check entries, (τ, none)⟩ ∈ t ∧ e ∈ entries := by
  induction t with
  | nil => cases h
  | cons ev t ih =>
    obtain ⟨c, τ, answer⟩ := ev
    have hrest (h : e ∈ admittedEntries (Trace.plain t)) :
        ∃ entries τ', ⟨.check entries, (τ', none)⟩ ∈ (⟨c, (τ, answer)⟩ :: t : StampedTrace) ∧
          e ∈ entries := by
      obtain ⟨entries, τ', hmem, he⟩ := ih h
      exact ⟨entries, τ', List.mem_cons_of_mem _ hmem, he⟩
    cases c with
    | check entries =>
      cases answer with
      | none => exact ⟨entries, τ, List.mem_cons_self, h⟩
      | some failed => exact hrest h
    | now => exact hrest h
    | incrby => exact hrest h
    | get => exact hrest h
    | serve => exact hrest h

/-- An entry that was computed at the instant of the check. -/
theorem Computed.at {τ : DateTime} (h : Computed r (Trace.plain t) e)
    (hprompt : ∀ τ' d, ⟨.now, (τ', d)⟩ ∈ t → d = τ) : ∃ quota : Quota,
      e.key.period = periodKeyAt quota.period τ ∧ e.ttl = (ttlSecondsAt quota.period τ).getD 0 := by
  obtain ⟨quota, -, d, d', hd, hd', rfl⟩ := h
  obtain ⟨τ₁, hd⟩ := Trace.mem_plain hd
  obtain ⟨τ₂, hd'⟩ := Trace.mem_plain hd'
  cases hprompt τ₁ d hd
  cases hprompt τ₂ d' hd'
  refine ⟨quota, ?_, rfl⟩
  show (keyWith _ _ _ _).period = _
  unfold keyWith
  cases quota.scope <;> rfl

theorem Computed.fresh {τ : DateTime} (h : Computed r (Trace.plain t) e)
    (hprompt : ∀ τ' d, ⟨.now, (τ', d)⟩ ∈ t → d = τ) : Fresh τ.instant e := by
  obtain ⟨quota, hperiod, httl⟩ := h.at hprompt
  intro ends hends
  rw [hperiod] at hends
  rw [httl]
  exact ⟨lt_periodEnd hends, ttl_window hends⟩

variable [DecidableEq ι] {i : ι} {l : Log ι Cmd (Stamped DateTime Cmd.Resp)}

/-- The counters of the admitted requests are present. -/
def Kept (s : State) (l : Log ι Cmd (Stamped DateTime Cmd.Resp)) : Prop :=
  ∀ j, ∀ e ∈ admittedEntries (Trace.plain (own j l)), Present s e.key

theorem Kept.cons {c : Cmd} {answer : DateTime × c.Resp} (h : Kept s l)
    (hkeeps : ∀ k, Present s k → Present s' k)
    (hnew : ∀ entries, (⟨c, answer.2⟩ : Event Cmd Cmd.Resp) = ⟨.check entries, none⟩ →
      ∀ e ∈ entries, Present s' e.key) : Kept s' ((i, ⟨c, answer⟩) :: l) := by
  intro j e he
  by_cases hj : i = j
  · subst hj
    rw [own_cons_self, Trace.plain_cons] at he
    obtain ⟨τ, answer⟩ := answer
    cases c with
    | check entries =>
      cases answer with
      | none => exact hnew entries rfl e he
      | some failed => exact hkeeps _ (h i e he)
    | now => exact hkeeps _ (h i e he)
    | incrby => exact hkeeps _ (h i e he)
    | get => exact hkeeps _ (h i e he)
    | serve => exact hkeeps _ (h i e he)
  · rw [own_cons_ne hj] at he
    exact hkeeps _ (h j e he)

/-- A settlement of an admitted request finds its counter live. -/
theorem early_incrby {amount n : Int} (hguarded : Trace.Guarded
      (fun t c => Issued r (Trace.plain t) c) t)
    (hprompt : Prompt (⟨.incrby key amount, (s.now, n)⟩ :: t))
    (he : e ∈ admittedEntries (Trace.plain t)) (hkey : e.key = key) :
    Early s.now.instant key := by
  obtain ⟨entries, τ, hmem, hin⟩ := mem_admittedEntries he
  obtain ⟨t', hsub, hissued⟩ := hguarded.of_mem hmem
  have hcomputed := hissued.check entries rfl e hin
  obtain ⟨hnow, hincrby⟩ := hprompt entries τ none (List.mem_cons_of_mem _ hmem)
  have hfresh : Fresh τ.instant e := hcomputed.fresh fun τ' d hd =>
    hnow τ' d (List.mem_cons_of_mem _ (hsub hd))
  have hsoon := hincrby key amount s.now n List.mem_cons_self
  intro ends hends
  rw [← hkey] at hends
  have := (hfresh ends hends).1
  omega

/-- A command of a prompt run keeps the counters sound. -/
theorem sound_cmd {c : Cmd} {answer : DateTime × c.Resp}
    (hguarded : Trace.Guarded (fun t c => Issued r (Trace.plain t) c) (own i l))
    (hissued : Issued r (Trace.plain (own i l)) c)
    (hprompt : Prompt (own i ((i, ⟨c, answer⟩) :: l))) (hsound : Sound s) (hkept : Kept s l)
    (hE : sem.stamped (fun s => s.now) c s answer s') :
    Sound s' ∧ Kept s' ((i, ⟨c, answer⟩) :: l) := by
  obtain ⟨τ, answer⟩ := answer
  obtain ⟨rfl, hE⟩ := hE
  rw [own_cons_self] at hprompt
  cases c with
  | check entries =>
    have hfresh : ∀ e ∈ entries, Fresh s.now.instant e := by
      intro e he
      refine (hissued.check entries rfl e he).fresh fun τ' d hd => ?_
      exact (hprompt entries s.now answer List.mem_cons_self).1 τ' d (List.mem_cons_of_mem _ hd)
    obtain ⟨hsound, hkeeps, hall⟩ := sound_check hsound
      (fun pair hp => absurd hp List.not_mem_nil) hfresh hE.symm
    refine ⟨hsound, hkept.cons hkeeps fun entries' heq e he => ?_⟩
    cases heq
    exact hall rfl e he
  | incrby k a =>
    obtain ⟨-, rfl⟩ := hE
    obtain ⟨e, he, hkey⟩ := hissued.incrby k a rfl
    have hpresent : Present s k := hkey ▸ hkept i e he
    have hearly := early_incrby hguarded hprompt he hkey
    exact ⟨sound_incrby hsound hpresent hearly, hkept.cons (fun _ => present_incrby) nofun⟩
  | now =>
    obtain ⟨-, rfl⟩ := hE
    exact ⟨hsound, hkept.cons (fun _ h => h) nofun⟩
  | get k =>
    obtain ⟨-, rfl⟩ := hE
    exact ⟨hsound, hkept.cons (fun _ h => h) nofun⟩
  | serve =>
    cases hE
    exact ⟨hsound, hkept.cons (fun _ h => h) nofun⟩

/-- No counter of a day or a month outlives its grace. -/
theorem no_immortal_counters {s₀ : State}
    {P : Pool ι Cmd (Stamped DateTime Cmd.Resp) (Option CheckError) State}
    (hempty : ∀ key, s₀.counters key = none)
    (hreach : Pool.Reach (sem.stamped fun s => s.now) Ticks
      (Pool.start s₀ fun i => (request (requests i)).stamped) P)
    (hprompt : ∀ i, Prompt (own i P.log)) {key : Key} {c : Cell Int}
    (hc : P.shared.counters.find P.shared.now.instant key = some c) {ends : Nat}
    (hends : periodEnd key.period = some ends) :
    ∃ d, c.expiresAt = some d ∧ d ≤ ends + grace 1 := by
  have hfollows (i : ι) : ((request (requests i)).stamped (T := DateTime)).Follows
      (fun t c => Issued (requests i) (Trace.plain t) c) (fun a t => Ended a (Trace.plain t)) [] :=
    Prog.Follows.stamped request_follows
  have hsound : (∀ i, Prompt (own i P.log)) → Sound P.shared ∧ Kept P.shared P.log := by
    refine Pool.Reach.invariant (J := fun s l => (∀ i, Prompt (own i l)) → Sound s ∧ Kept s l)
      hfollows (fun _ => ⟨?_, ?_⟩) (fun {i c answer s s' l} hguarded hJ hissued hE hprompt => ?_)
      (fun hJ he hprompt => ?_) hreach
    · intro key c hc
      exact absurd ((hempty key).symm.trans hc) nofun
    · exact fun j e he => absurd he List.not_mem_nil
    · have hbefore : ∀ j, Prompt (own j l) := by
        intro j
        refine (hprompt j).mono fun e he => ?_
        rw [mem_own] at he ⊢
        exact List.mem_cons_of_mem _ he
      obtain ⟨hsound, hkept⟩ := hJ hbefore
      exact sound_cmd (hguarded i) hissued (hprompt i) hsound hkept hE
    · obtain ⟨hsound, hkept⟩ := hJ hprompt
      obtain ⟨hcounters, -⟩ := he
      unfold Sound Kept Present
      rw [hcounters]
      exact ⟨hsound, hkept⟩
  obtain ⟨d, hd, -, hhi⟩ := (hsound hprompt).1 key c (Table.find_eq_some.1 hc).1 ends hends
  exact ⟨d, hd, hhi⟩

end Run

/-- A request that has passed its check. -/
def stampedPool : Pool Unit Cmd (Stamped DateTime Cmd.Resp) (Option CheckError) State :=
  Pool.play (fun c s => ((s.now, (c.run .compensate s).1), (c.run .compensate s).2))
    (Pool.start freshState fun _ => (request tokenRequest).stamped) [(), (), ()]

theorem stampedPool_prompt (i : Unit) : Prompt (own i stampedPool.log) := by
  have hlog : own i stampedPool.log =
      [⟨.check [entryWith 400 none tokenQuota (keyAt tokenRequest tokenQuota newYear)
        (ttlSecondsAt .daily newYear)], (newYear, none)⟩, ⟨.now, (newYear, newYear)⟩,
        ⟨.now, (newYear, newYear)⟩] := rfl
  rw [hlog]
  intro entries τ answer hcheck
  simp only [List.mem_cons, List.not_mem_nil, or_false] at hcheck ⊢
  rcases hcheck with hcheck | hcheck | hcheck
  · cases hcheck
    refine ⟨fun τ' d hd => ?_, fun k a τ' n hk => ?_⟩
    · rcases hd with hd | hd | hd <;> cases hd <;> rfl
    · rcases hk with hk | hk | hk <;> cases hk
  · cases hcheck
  · cases hcheck

theorem stampedPool_expires : ∃ c d ends,
    stampedPool.shared.counters.find stampedPool.shared.now.instant
      (keyAt tokenRequest tokenQuota newYear) = some c ∧
    periodEnd (keyAt tokenRequest tokenQuota newYear).period = some ends ∧
    c.expiresAt = some d ∧ d ≤ ends + grace 1 := by
  have hreach : Pool.Reach (sem.stamped fun s => s.now) Ticks
      (Pool.start freshState fun _ : Unit => (request tokenRequest).stamped) stampedPool :=
    Pool.reach_play (fun c s => ⟨rfl, sem_run _ c s⟩) _ _
  have hsome : (stampedPool.shared.counters.find stampedPool.shared.now.instant
      (keyAt tokenRequest tokenQuota newYear)).isSome = true := by decide +kernel
  obtain ⟨c, hc⟩ := Option.isSome_iff_exists.1 hsome
  obtain ⟨d, hd, hle⟩ := no_immortal_counters (fun _ => rfl) hreach stampedPool_prompt hc
    periodEnd_daily
  exact ⟨c, d, _, hc, periodEnd_daily, hd, hle⟩

end QuotaEnforcer
