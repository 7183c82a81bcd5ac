import Janus.ChannelHealth.Tasks
import Janus.Conc.Clock
import Janus.Conc.Pool

/-!
# Probes of one channel at a time

Any number of runs of `probe_degraded_channels` over one Redis, in any order, a probe taking any time.
The lock of a probe expires, and a run deletes the key of the lock, whoever has set it.

* `inFlight`: the probe that a run has in flight, with the deadline of its lock.
* `Exclusive`, `Releases`, `CountsFailures`: one probe for each channel, no lock deleted that another
  run holds, no failed probe lost.
* `Careful`: a run that asks for the lock of a channel does not meet a probe that has outlived its own.
* `probes_exclusive_iff`: a careful run keeps all three, and a step that is not careful breaks them.
-/

set_option autoImplicit false

namespace ChannelHealth

open Conc Redis

/-! ## The order of a run -/

section Order

/-- The channel whose lock a run holds. -/
def holds : Trace Cmd Cmd.Resp → Option ChannelId
  | [] => none
  | ⟨.setLock channel _, acquired⟩ :: t => if acquired then some channel else holds t
  | ⟨.deleteLock _, _⟩ :: _ => none
  | _ :: t => holds t

/-- The state that a run has read last, and nothing else since but the clock. -/
def lastRead (channel : ChannelId) : Trace Cmd Cmd.Resp → Option ChannelState
  | ⟨.hgetall channel', state⟩ :: _ => if channel' = channel then some state else none
  | ⟨.time, _⟩ :: t => lastRead channel t
  | _ => none

/-- What a run issues. -/
def ProbeOrder (settings : Settings) : Guard Cmd Cmd.Resp := fun t c =>
  match c with
  | .setLock _ ttlSeconds => ttlSeconds = settings.probeIntervalSeconds ∧ holds t = none
  | .deleteLock channel => holds t = some channel
  | .deleteState channel => holds t = some channel ∧ ∃ e ∈ t, e.cmd = .srem channel
  | .hset channel fields => holds t = some channel ∧ ∃ state, lastRead channel t = some state ∧
      fields.probeFailures = some (state.probeFailures.getD 0 + 1)
  | .sadd _ => False
  | _ => True

variable {settings : Settings} {channel : ChannelId} {t : Trace Cmd Cmd.Resp}

theorem recordProbeSuccess_follows (h : holds t = some channel) :
    (recordProbeSuccess channel).Follows (ProbeOrder settings)
      (fun _ t => holds t = some channel) t :=
  ⟨trivial, fun _ => ⟨⟨h, _, List.mem_cons_self, rfl⟩, fun _ => ⟨trivial, fun _ => ⟨trivial, fun _ =>
    ⟨trivial, fun _ => h⟩⟩⟩⟩⟩

theorem probeFailed_follows (h : holds t = some channel) :
    (probeFailed settings channel).Follows (ProbeOrder settings)
      (fun _ t => holds t = some channel) t := by
  refine ⟨trivial, fun state => ⟨trivial, fun now => ⟨⟨h, state, ?_, rfl⟩, fun _ => ?_⟩⟩⟩
  · simp [lastRead]
  · show Prog.Follows _ _ (if _ then _ else _) _
    split
    · exact ⟨trivial, fun _ => ⟨trivial, fun _ => h⟩⟩
    · exact h

theorem probeSingleChannel_follows (h : holds t = some channel) :
    (probeSingleChannel settings channel).Follows (ProbeOrder settings)
      (fun _ t => holds t = some channel) t := by
  refine ⟨trivial, fun info => ?_⟩
  cases info with
  | none => exact h
  | some info =>
    refine ⟨trivial, fun success => ?_⟩
    cases success with
    | true => exact recordProbeSuccess_follows h
    | false => exact probeFailed_follows h

theorem probeRound_follows {probed : Nat} (h : holds t = none) :
    (probeRound settings probed channel).Follows (ProbeOrder settings)
      (fun _ t => holds t = none) t := by
  refine ⟨⟨rfl, h⟩, fun acquired => ?_⟩
  cases acquired with
  | false => exact h
  | true =>
    show Prog.Follows _ _ (probeSingleChannel settings channel >>= fun _ =>
      releaseProbeLock channel >>= fun _ => pure (probed + 1)) _
    exact Prog.Follows.bind (probeSingleChannel_follows rfl) fun _ t h => ⟨h, fun _ => rfl⟩

theorem probeDegradedChannels_follows :
    (probeDegradedChannels settings).Follows (ProbeOrder settings)
      (fun _ t => holds t = none) [] :=
  ⟨trivial, fun _ => Prog.Follows.foldlM (I := fun _ _ t => holds t = none) rfl
    fun _ _ _ _ h => probeRound_follows h⟩

end Order

/-! ## Probes in flight -/

/-- An answer, and when it was given. -/
abbrev Answer : Cmd → Type := Stamped Nat Cmd.Resp

/-- The probe that a run has in flight: its channel, and the deadline of its lock. -/
def inFlight : Trace Cmd Answer → Option (ChannelId × Nat)
  | [] => none
  | ⟨.setLock channel ttlSeconds, r⟩ :: t =>
    if r.2 then some (channel, r.1 + ttlSeconds.toNat * 1000) else inFlight t
  | ⟨.deleteLock _, _⟩ :: _ => none
  | _ :: t => inFlight t

theorem holds_plain (t : Trace Cmd Answer) :
    holds (Trace.plain t) = (inFlight t).map Prod.fst := by
  induction t with
  | nil => rfl
  | cons e t ih =>
    obtain ⟨c, τ, r⟩ := e
    cases c with
    | setLock channel ttlSeconds =>
      cases r with
      | false => exact ih
      | true => rfl
    | deleteLock channel => rfl
    | _ => exact ih

variable {ι : Type} [DecidableEq ι]

/-- Runs of the task, one for each `i`. -/
abbrev Probes (ι : Type) := Pool ι Cmd Answer Nat Store

def Probes.start (settings : Settings) (s₀ : Store) : Probes ι :=
  Pool.start s₀ fun _ => (probeDegradedChannels settings).stamped

abbrev timed : Sem Cmd Answer Store := sem.stamped Store.now

def Exclusive (l : Log ι Cmd Answer) : Prop :=
  ∀ i j channel d d', inFlight (own i l) = some (channel, d) →
    inFlight (own j l) = some (channel, d') → i = j

/-- Whenever a run deletes the key of a lock, the lock of no other run is still alive. -/
def Releases (l : Log ι Cmd Answer) : Prop :=
  ∀ i channel r l', (i, ⟨.deleteLock channel, r⟩) :: l' <:+ l →
    ∀ j d, j ≠ i → inFlight (own j l') = some (channel, d) → d ≤ r.1

def Cmd.records (channel : ChannelId) : Cmd → Bool
  | .hset channel' _ => channel' = channel
  | _ => false

/-- How many failed probes of the channel have been recorded. -/
def failures (channel : ChannelId) (l : Log ι Cmd Answer) : Nat :=
  l.countP fun e => e.2.cmd.records channel

/-- A channel that has not recovered has its failures counted. -/
def CountsFailures (s₀ s : Store) (l : Log ι Cmd Answer) : Prop :=
  ∀ channel, (∀ e ∈ l, e.2.cmd ≠ .srem channel) →
    (s.states channel).probeFailures.getD 0 =
      (s₀.states channel).probeFailures.getD 0 + failures channel l

/-- What the lock of a probe is for. -/
structure Guarded (s₀ s : Store) (l : Log ι Cmd Answer) : Prop where
  exclusive : Exclusive l
  releases : Releases l
  counts : CountsFailures s₀ s l

/-- A run does not ask for the lock of a channel while a probe is in flight that has outlived its
lock. -/
def Careful (s : Store) (l : Log ι Cmd Answer) : Cmd → Prop
  | .setLock channel _ => ∀ j d, inFlight (own j l) = some (channel, d) → s.now < d
  | _ => True

/-- If the step is a command, it is a careful one. -/
def StepsCarefully (P P' : Probes ι) : Prop :=
  ∀ i c r, P'.log = (i, ⟨c, r⟩) :: P.log → Careful P.shared P.log c

/-- The runs all of whose commands are careful. -/
abbrev CarefulReach : Probes ι → Probes ι → Prop :=
  Relation.ReflTransGen fun P P' => Pool.Step timed tick P P' ∧ StepsCarefully P P'

/-! ## One step -/

/-- The invariant of careful runs. -/
structure Inv (settings : Settings) (s₀ s : Store) (l : Log ι Cmd Answer) : Prop
    extends Guarded s₀ s l where
  locked : ∀ i channel d, inFlight (own i l) = some (channel, d) →
    s.locks channel = some ⟨(), some d⟩
  positive : ∀ i p, inFlight (own i l) = some p → 0 < settings.probeIntervalSeconds
  fresh : ∀ i channel state, holds (Trace.plain (own i l)) = some channel →
    lastRead channel (Trace.plain (own i l)) = some state →
    state.probeFailures = (s.states channel).probeFailures

variable {settings : Settings} {s₀ s s' : Store} {l : Log ι Cmd Answer} {i : ι} {c : Cmd}
  {r : Answer c} {channel : ChannelId}

theorem Inv.start : Inv settings s₀ s₀ ([] : Log ι Cmd Answer) where
  exclusive _ _ _ _ _ h := by cases h
  releases _ _ _ _ h := by cases List.eq_nil_of_suffix_nil h
  counts _ _ := by simp [failures]
  locked _ _ _ h := by cases h
  positive _ _ h := by cases h
  fresh _ _ _ h := by cases h

theorem inFlight_of_holds (h : holds (Trace.plain (own i l)) = some channel) :
    ∃ d, inFlight (own i l) = some (channel, d) := by
  rw [holds_plain] at h
  obtain ⟨⟨channel', d⟩, hp, rfl⟩ := Option.map_eq_some_iff.1 h
  exact ⟨d, hp⟩

/-- Two runs that are in flight with one channel are one run. -/
theorem Exclusive.eq_of_holds (h : Exclusive l) {k : ι} {d : Nat}
    (hi : holds (Trace.plain (own i l)) = some channel)
    (hk : inFlight (own k l) = some (channel, d)) : k = i := by
  obtain ⟨d', hd'⟩ := inFlight_of_holds hi
  exact h k i channel d d' hk hd'

theorem own_cons (i k : ι) (e : Event Cmd Answer) (l : Log ι Cmd Answer) :
    own k ((i, e) :: l) = if k = i then e :: own k l else own k l := by
  split
  · next h =>
    subst h
    exact own_cons_self ..
  · next h => exact own_cons_ne (Ne.symm h) ..

/-- The lock is deleted by the run in flight, or the step deletes no lock. -/
theorem Releases.cons (h : Releases l) (hc : ∀ ch, c = .deleteLock ch → ∀ j d, j ≠ i →
    inFlight (own j l) ≠ some (ch, d)) : Releases ((i, ⟨c, r⟩) :: l) := by
  intro i' ch r' l' hs j d hj hd
  rcases List.suffix_cons_iff.1 hs with heq | hs
  · cases heq
    exact absurd hd (hc ch rfl j d hj)
  · exact h i' ch r' l' hs j d hj hd

omit [DecidableEq ι] in
theorem failures_cons : failures channel ((i, ⟨c, r⟩) :: l) =
    failures channel l + if c.records channel then 1 else 0 := List.countP_cons ..

/-- A step that starts or ends no probe. -/
theorem Inv.same (h : Inv settings s₀ s l)
    (hflight : ∀ t, inFlight (⟨c, r⟩ :: t) = inFlight t) (hlocks : s'.locks = s.locks)
    (hrelease : ∀ ch, c ≠ .deleteLock ch) (hcounts : CountsFailures s₀ s' ((i, ⟨c, r⟩) :: l))
    (hfresh : ∀ k ch state, holds (Trace.plain (own k ((i, ⟨c, r⟩) :: l))) = some ch →
      lastRead ch (Trace.plain (own k ((i, ⟨c, r⟩) :: l))) = some state →
      state.probeFailures = (s'.states ch).probeFailures) :
    Inv settings s₀ s' ((i, ⟨c, r⟩) :: l) := by
  have hown (k : ι) : inFlight (own k ((i, ⟨c, r⟩) :: l)) = inFlight (own k l) := by
    rw [own_cons]
    split
    · exact hflight _
    · rfl
  refine ⟨⟨?_, h.releases.cons fun ch hc => absurd hc (hrelease ch), hcounts⟩, ?_, ?_, hfresh⟩
  · intro j k ch d d' hj hk
    rw [hown] at hj hk
    exact h.exclusive j k ch d d' hj hk
  · intro k ch d hk
    rw [hown] at hk
    rw [hlocks]
    exact h.locked k ch d hk
  · intro k p hk
    rw [hown] at hk
    exact h.positive k p hk

/-- A step that leaves locks and states as they are. -/
theorem Inv.quiet (h : Inv settings s₀ s l)
    (hflight : ∀ t, inFlight (⟨c, r⟩ :: t) = inFlight t) (hlocks : s'.locks = s.locks)
    (hstates : s'.states = s.states) (hrelease : ∀ ch, c ≠ .deleteLock ch)
    (hrecords : ∀ ch, c.records ch = false)
    (hread : ∀ ch t state, lastRead ch (⟨c, r.2⟩ :: t) = some state →
      lastRead ch t = some state ∨ state = s.states ch) :
    Inv settings s₀ s' ((i, ⟨c, r⟩) :: l) := by
  refine h.same hflight hlocks hrelease (fun ch hrecovered => ?_) fun k ch state hk hlast => ?_
  · rw [hstates, failures_cons, hrecords, if_neg Bool.false_ne_true]
    exact h.counts ch fun e he => hrecovered e (List.mem_cons_of_mem _ he)
  · rw [hstates]
    rw [own_cons] at hk hlast
    split at hk
    · next heq =>
      rw [if_pos heq, Trace.plain_cons] at hlast
      rw [holds_plain, hflight, ← holds_plain] at hk
      rcases hread ch _ state hlast with hlast | rfl
      · exact h.fresh k ch state hk hlast
      · rfl
    · next hne =>
      rw [if_neg hne] at hlast
      exact h.fresh k ch state hk hlast

/-- A step of the run in flight that changes the state of its channel. -/
theorem Inv.setState (h : Inv settings s₀ s l) (hi : holds (Trace.plain (own i l)) = some channel)
    (hflight : ∀ t, inFlight (⟨c, r⟩ :: t) = inFlight t) (hlocks : s'.locks = s.locks)
    (hstates : ∀ ch, ch ≠ channel → s'.states ch = s.states ch)
    (hrelease : ∀ ch, c ≠ .deleteLock ch) (hrecords : ∀ ch, ch ≠ channel → c.records ch = false)
    (hread : ∀ ch t, lastRead ch (⟨c, r.2⟩ :: t) = none)
    (hcounts : (∀ e ∈ (i, ⟨c, r⟩) :: l, e.2.cmd ≠ .srem channel) →
      (s'.states channel).probeFailures.getD 0 = (s₀.states channel).probeFailures.getD 0 +
        failures channel ((i, (⟨c, r⟩ : Event Cmd Answer)) :: l)) :
    Inv settings s₀ s' ((i, ⟨c, r⟩) :: l) := by
  refine h.same hflight hlocks hrelease (fun ch hrecovered => ?_) fun k ch state hk hlast => ?_
  · by_cases hch : ch = channel
    · subst hch
      exact hcounts hrecovered
    · rw [hstates ch hch, failures_cons, hrecords ch hch, if_neg Bool.false_ne_true]
      exact h.counts ch fun e he => hrecovered e (List.mem_cons_of_mem _ he)
  · rw [own_cons] at hk hlast
    split at hk
    · next heq =>
      rw [if_pos heq, Trace.plain_cons, hread] at hlast
      cases hlast
    · next hne =>
      rw [if_neg hne] at hlast
      have hch : ch ≠ channel := by
        rintro rfl
        obtain ⟨d, hd⟩ := inFlight_of_holds hk
        exact hne (h.exclusive.eq_of_holds hi hd)
      rw [hstates ch hch]
      exact h.fresh k ch state hk hlast

/-- The lock is taken. -/
theorem Inv.acquire {τ : Nat} {ttlSeconds : Int} (h : Inv settings s₀ s l)
    (hnone : ∀ j d, inFlight (own j l) ≠ some (channel, d)) (hpos : 0 < settings.probeIntervalSeconds)
    (hlock : s' = { s with locks := s.locks.set channel () (some (τ + ttlSeconds.toNat * 1000)) }) :
    Inv settings s₀ s' ((i, ⟨.setLock channel ttlSeconds, (τ, true)⟩) :: l) := by
  have hown (k : ι) : inFlight (own k ((i, ⟨.setLock channel ttlSeconds, (τ, true)⟩) :: l)) =
      if k = i then some (channel, τ + ttlSeconds.toNat * 1000) else inFlight (own k l) := by
    rw [own_cons]
    split <;> rfl
  have hreleases : Releases ((i, ⟨.setLock channel ttlSeconds, (τ, true)⟩) :: l) :=
    h.releases.cons fun ch hc => by cases hc
  refine ⟨⟨?_, hreleases, ?_⟩, ?_, fun k p _ => hpos, ?_⟩
  · intro j k ch d d' hj hk
    rw [hown] at hj hk
    split at hj <;> split at hk
    · next hji hki => rw [hji, hki]
    · cases hj
      exact absurd hk (hnone k d')
    · cases hk
      exact absurd hj (hnone j d)
    · exact h.exclusive j k ch d d' hj hk
  · intro ch hrecovered
    rw [hlock, failures_cons]
    exact h.counts ch fun e he => hrecovered e (List.mem_cons_of_mem _ he)
  · intro k ch d hk
    rw [hown] at hk
    rw [hlock]
    split at hk
    · cases hk
      exact Table.set_self
    · have hch : ch ≠ channel := by
        rintro rfl
        exact hnone k d hk
      exact (Table.set_ne hch).trans (h.locked k ch d hk)
  · intro k ch state hk hlast
    rw [own_cons] at hk hlast
    rw [hlock]
    split at hk
    · next heq =>
      rw [if_pos heq] at hlast
      cases hlast
    · next hne =>
      rw [if_neg hne] at hlast
      exact h.fresh k ch state hk hlast

/-- The lock is given back. -/
theorem Inv.release {r : Answer (.deleteLock channel)} (h : Inv settings s₀ s l)
    (hi : holds (Trace.plain (own i l)) = some channel)
    (hlock : s' = { s with locks := s.locks.del channel }) :
    Inv settings s₀ s' ((i, ⟨.deleteLock channel, r⟩) :: l) := by
  have hown (k : ι) : inFlight (own k ((i, ⟨.deleteLock channel, r⟩) :: l)) =
      if k = i then none else inFlight (own k l) := by
    rw [own_cons]
    split <;> rfl
  have hothers (k : ι) (p : ChannelId × Nat)
      (hk : inFlight (own k ((i, ⟨.deleteLock channel, r⟩) :: l)) = some p) :
      k ≠ i ∧ inFlight (own k l) = some p := by
    rw [hown] at hk
    split at hk
    · cases hk
    · next hne => exact ⟨hne, hk⟩
  refine ⟨⟨?_, h.releases.cons ?_, ?_⟩, ?_, ?_, ?_⟩
  · intro j k ch d d' hj hk
    exact h.exclusive j k ch d d' (hothers j _ hj).2 (hothers k _ hk).2
  · rintro ch hc j d hj hd
    cases hc
    exact hj (h.exclusive.eq_of_holds hi hd)
  · intro ch hrecovered
    rw [hlock, failures_cons]
    exact h.counts ch fun e he => hrecovered e (List.mem_cons_of_mem _ he)
  · intro k ch d hk
    obtain ⟨hne, hk'⟩ := hothers k _ hk
    have hch : ch ≠ channel := by
      rintro rfl
      exact hne (h.exclusive.eq_of_holds hi hk')
    rw [hlock]
    exact (Table.del_ne hch).trans (h.locked k ch d hk')
  · exact fun k p hk => h.positive k p (hothers k p hk).2
  · intro k ch state hk hlast
    rw [own_cons] at hk hlast
    rw [hlock]
    split at hk
    · cases hk
    · next hne =>
      rw [if_neg hne] at hlast
      exact h.fresh k ch state hk hlast

/-- What the answer of `SET NX` says. -/
theorem setLock_cases {ttlSeconds : Int} {r : Bool} (h : sem (.setLock channel ttlSeconds) s r s') :
    (r = true ∧ 0 < ttlSeconds ∧ s.locks.get s.now channel = none ∧
      s' = { s with locks := s.locks.set channel () (some (s.now + ttlSeconds.toNat * 1000)) }) ∨
    (r = false ∧ s' = s ∧ ¬ (0 < ttlSeconds ∧ s.locks.get s.now channel = none)) := by
  obtain ⟨hr, hs'⟩ := h
  simp only [Cmd.Answers, Cmd.run, Store.setLock] at hr hs'
  split at hs'
  · next hfree =>
    rw [if_pos hfree] at hr
    exact .inl ⟨hr, hfree.1, hfree.2, hs'⟩
  · next hheld =>
    rw [if_neg hheld] at hr
    exact .inr ⟨hr, hs', hheld⟩

/-- A lock that has not expired is seen. -/
theorem Inv.seen (h : Inv settings s₀ s l) {j : ι} {d : Nat}
    (hj : inFlight (own j l) = some (channel, d)) :
    s.locks.get s.now channel = if s.now < d then some () else none := by
  have hcell := h.locked j channel d hj
  split
  · next hlive => exact Table.get_eq_some.2 ⟨_, hcell, by simpa [Cell.live] using hlive, rfl⟩
  · next hdead =>
    cases hget : s.locks.get s.now channel with
    | none => rfl
    | some u =>
      obtain ⟨cell, hc, hlive, -⟩ := Table.get_eq_some.1 hget
      rw [hcell] at hc
      cases hc
      exact absurd (by simpa [Cell.live] using hlive) hdead

theorem Inv.step (h : Inv settings s₀ s l) (hG : ProbeOrder settings (Trace.plain (own i l)) c)
    (hcareful : Careful s l c) (hrun : timed c s r s') : Inv settings s₀ s' ((i, ⟨c, r⟩) :: l) := by
  obtain ⟨τ, r⟩ := r
  obtain ⟨hτ, hrun⟩ := hrun
  cases c with
  | sadd channel => exact hG.elim
  | setLock channel ttlSeconds =>
    rcases setLock_cases hrun with ⟨rfl, hpos, hfree, hs'⟩ | ⟨rfl, rfl, -⟩
    · have hnone (j : ι) (d : Nat) : inFlight (own j l) ≠ some (channel, d) := by
        intro hj
        rw [h.seen hj, if_pos (hcareful j d hj)] at hfree
        cases hfree
      have hnow : τ = s.now := hτ
      subst hnow
      exact h.acquire hnone (hG.1 ▸ hpos) hs'
    · exact h.quiet (fun _ => rfl) rfl rfl (by simp) (fun _ => rfl) fun _ _ _ hread => by cases hread
  | deleteLock channel => exact h.release hG hrun.2
  | deleteState channel =>
    refine h.setState hG.1 (fun _ => rfl) (by rw [hrun.2]; rfl) (fun ch hch => ?_) (by simp)
      (fun _ _ => rfl) (fun _ _ => rfl) fun hrecovered => ?_
    · rw [hrun.2]
      exact Function.update_of_ne hch ..
    · obtain ⟨e, he, hsrem⟩ := hG.2
      obtain ⟨e', he', rfl⟩ := List.mem_map.1 he
      exact absurd hsrem (hrecovered (i, e') (List.mem_cons_of_mem _ (mem_own.1 he')))
  | hset channel fields =>
    obtain ⟨hi, state, hlast, hfields⟩ := hG
    refine h.setState hi (fun _ => rfl) (by rw [hrun.2]; rfl) (fun ch hch => ?_) (by simp)
      (fun ch hch => by simpa [Cmd.records] using Ne.symm hch) (fun _ _ => rfl) fun hrecovered => ?_
    · rw [hrun.2]
      exact Function.update_of_ne hch ..
    · have hold := h.counts channel fun e he => hrecovered e (List.mem_cons_of_mem _ he)
      have hnew : (s'.states channel).probeFailures = fields.probeFailures := by
        rw [hrun.2]
        simp only [Cmd.run, Store.setState, Function.update_self, ChannelState.update, hfields]
        rfl
      rw [hnew, hfields, h.fresh i channel state hi hlast, failures_cons, Option.getD_some, hold]
      simp [Cmd.records, add_assoc]
  | hgetall channel =>
    refine h.quiet (fun _ => rfl) (by rw [hrun.2]; rfl) (by rw [hrun.2]; rfl) (by simp)
      (fun _ => rfl) fun ch t state hread => ?_
    simp only [lastRead] at hread
    split at hread
    · next hch =>
      cases hread
      exact .inr (hch ▸ hrun.1)
    · cases hread
  | time =>
    exact h.quiet (fun _ => rfl) (by rw [hrun.2]; rfl) (by rw [hrun.2]; rfl) (by simp)
      (fun _ => rfl) fun ch t state hread => .inl hread
  | _ =>
    exact h.quiet (fun _ => rfl) (by rw [hrun.2]; rfl) (by rw [hrun.2]; rfl) (by simp)
      (fun _ => rfl) fun _ _ _ hread => by cases hread

theorem Inv.tick (h : Inv settings s₀ s l) (ht : tick s s') : Inv settings s₀ s' l := by
  obtain ⟨d, rfl⟩ := ht
  exact ⟨⟨h.exclusive, h.releases, h.counts⟩, h.locked, h.positive, h.fresh⟩

/-! ## Runs -/

variable {P P' : Probes ι}

/-- What every thread issues, over its stamped trace. -/
abbrev StampedOrder (settings : Settings) : Guard Cmd Answer :=
  fun t c => ProbeOrder settings (Trace.plain t) c

theorem CarefulReach.reach {P₀ : Probes ι} (h : CarefulReach P₀ P) :
    Pool.Reach timed ChannelHealth.tick P₀ P := by
  induction h with
  | refl => exact .refl
  | tail _ hstep ih => exact ih.tail hstep.1

theorem CarefulReach.ordered (h : CarefulReach (Probes.start settings s₀ : Probes ι) P) :
    Pool.Ordered (fun _ => StampedOrder settings) (fun _ _ t => holds (Trace.plain t) = none) P :=
  Pool.Reach.follows (fun _ => Prog.Follows.stamped (T := Nat) (G := ProbeOrder settings)
    (Q := fun _ t => holds t = none) (t := []) probeDegradedChannels_follows) h.reach

theorem CarefulReach.inv (h : CarefulReach (Probes.start settings s₀ : Probes ι) P) :
    Inv settings s₀ P.shared P.log := by
  induction h with
  | refl => exact Inv.start
  | tail hbefore hstep ih =>
    obtain ⟨hstep, hcareful⟩ := hstep
    cases hstep with
    | env ht => exact ih.tick ht
    | @run i c k r s' hk hrun =>
      have hG := (CarefulReach.ordered hbefore i).2
      rw [hk] at hG
      exact ih.step hG.1 (hcareful i c r rfl) hrun

/-- A run that asks for the lock of a probe that has outlived it gets the lock. -/
theorem Inv.careful (h : Inv settings s₀ s l) (hG : ProbeOrder settings (Trace.plain (own i l)) c)
    (hrun : timed c s r s') (hexclusive : Exclusive ((i, ⟨c, r⟩) :: l)) : Careful s l c := by
  obtain ⟨τ, r⟩ := r
  cases c with
  | setLock channel ttlSeconds =>
    intro j d hj
    by_contra hexpired
    have hpos : 0 < ttlSeconds := by
      rw [hG.1]
      exact h.positive j _ hj
    have hfree : s.locks.get s.now channel = none := by rw [h.seen hj, if_neg hexpired]
    rcases setLock_cases hrun.2 with ⟨rfl, -⟩ | ⟨-, -, hheld⟩
    · have hne : j ≠ i := by
        rintro rfl
        have hnone := hG.2
        rw [holds_plain, hj] at hnone
        cases hnone
      refine hne (hexclusive j i channel d (τ + ttlSeconds.toNat * 1000) ?_ ?_)
      · rw [own_cons, if_neg hne]
        exact hj
      · rw [own_cons, if_pos rfl]
        rfl
    · exact hheld ⟨hpos, hfree⟩
  | _ => trivial

/-- In a run all of whose steps are careful there is one probe for each channel at a time, no run
deletes the lock of another, and no failure is lost; the first step that is not careful breaks it. -/
theorem probes_guarded_iff (h : CarefulReach (Probes.start settings s₀ : Probes ι) P) :
    Guarded s₀ P.shared P.log ∧ ∀ P', Pool.Step timed ChannelHealth.tick P P' →
      (Guarded s₀ P'.shared P'.log ↔ StepsCarefully P P') := by
  refine ⟨h.inv.toGuarded, fun P' hstep => ⟨fun hguarded i c r hlog => ?_, fun hcareful =>
    (CarefulReach.inv (h.tail ⟨hstep, hcareful⟩)).toGuarded⟩⟩
  cases hstep with
  | env ht => exact absurd (congrArg List.length hlog) (by simp)
  | @run i' c' k r' s' hk hrun =>
    cases hlog
    have hG := (h.ordered i).2
    rw [hk] at hG
    exact h.inv.careful hG.1 hrun hguarded.exclusive

/-! ## A probe that outlives its lock -/

/-- The channel has a key, and the upstream does not answer. -/
def failing : (c : Cmd) → c.Resp
  | .loadProbeInfo _ => some ⟨"openai", "gpt-4o", "sk-7", none⟩
  | c => Cmd.anyAnswer c

def timedRun (c : Cmd) (s : Store) : Answer c × Store :=
  ((s.now, (c.run failing s).1), (c.run failing s).2)

theorem timed_timedRun (c : Cmd) (s : Store) : timed c s (timedRun c s).1 (timedRun c s).2 :=
  ⟨rfl, sem_run failing c s⟩

/-- Channel 7 has just been degraded. -/
def degraded : Store :=
  { Store.empty 0 with
    degraded := [7]
    states := fun channel => if channel = 7 then { probeFailures := some 0 } else {} }

def fiveSeconds : Settings := { probeIntervalSeconds := 5 }

/-- The first run has begun its probe. -/
def probing : Probes Bool :=
  Pool.play timedRun (Probes.start fiveSeconds degraded) [false, false, false]

theorem careful_probing : CarefulReach (Probes.start fiveSeconds degraded) probing := by
  refine Pool.path_cons timed_timedRun rfl trivial (Pool.path_cons timed_timedRun rfl ?_ (Pool.path_cons timed_timedRun rfl trivial .refl))
  intro j d hj
  cases j <;> cases hj

/-- A second run asks for the lock while the first one's probe is in flight, and the first records
that its probe has failed. -/
def turnedAway : Probes Bool :=
  Pool.play timedRun (Probes.start fiveSeconds degraded)
    [false, true, false, true, false, false, false, false, false]

theorem careful_turnedAway : CarefulReach (Probes.start fiveSeconds degraded) turnedAway := by
  iterate 2 refine Pool.path_cons timed_timedRun rfl trivial ?_
  -- the first run meets no probe, the second one that still has its lock
  refine Pool.path_cons timed_timedRun rfl (fun j d hj => ?_) (Pool.path_cons timed_timedRun rfl (fun j d hj => ?_) ?_)
  · cases j <;> cases hj
  · cases j <;> cases hj
    decide
  iterate 5 refine Pool.path_cons timed_timedRun rfl trivial ?_
  exact .refl

/-- The second run probes nothing, and the failure is counted once. -/
theorem probes_guarded_iff_turnedAway : turnedAway.thread true = .ret 0 ∧
    (turnedAway.shared.states 7).probeFailures = some 1 ∧
    Guarded degraded turnedAway.shared turnedAway.log ∧
    ∀ P', Pool.Step timed ChannelHealth.tick turnedAway P' →
      (Guarded degraded P'.shared P'.log ↔ StepsCarefully turnedAway P') :=
  ⟨rfl, rfl, probes_guarded_iff careful_turnedAway⟩

/-- Eight seconds later a second run has begun its own; both fail and record it. -/
def overlapping : Probes Bool :=
  let P : Probes Bool := { probing with shared := { probing.shared with now := 8000 } }
  Pool.play timedRun P
    [true, true, true, false, true, false, true, false, true, false, true]

theorem reach_overlapping :
    Pool.Reach timed ChannelHealth.tick (Probes.start fiveSeconds degraded) overlapping :=
  careful_probing.reach.trans (.trans (.single (.env ⟨8000, rfl⟩))
    (Pool.reach_play timed_timedRun _ _))

/-- Two probes are in flight, one of two failures is lost, and the first run deletes the lock of the
second. -/
theorem probes_overlap : ∃ P P' : Probes Bool,
    Pool.Reach timed ChannelHealth.tick (Probes.start fiveSeconds degraded) P ∧
    Pool.Step timed ChannelHealth.tick P P' ∧ ¬ Exclusive P.log ∧
    ¬ CountsFailures degraded P.shared P.log ∧ ¬ Releases P'.log := by
  refine ⟨overlapping, Pool.advance timedRun overlapping false, reach_overlapping,
    Pool.step_advance timed_timedRun (i := false) rfl, fun h => ?_, fun h => ?_, fun h => ?_⟩
  · exact absurd (h false true 7 5000 13000 rfl rfl) (by decide)
  · have hcount := h 7 (by decide)
    exact absurd hcount (by decide)
  · exact absurd (h false 7 _ overlapping.log (List.suffix_refl _) true 13000 (by decide) rfl)
      (by decide)

end ChannelHealth
