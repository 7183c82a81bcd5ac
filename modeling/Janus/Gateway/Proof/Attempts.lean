import Janus.Gateway.Proof.Queue

/-!
# How often an event is claimed

An explicit retry counts an attempt, a recovery of a stale claim does not. `claims_bounded`: while no
recovery returns a claim of the event to the pending list, its copies are claimed three times for
each time it was enqueued. The copies are counted level by level, a level being the attempts so far:
a claim on level `n` pays for one push on level `n + 1` (`returned_of_guarded`), and only fresh
events are pushed on level 0. `abandonedPool`: workers that crash claim an event without end.
-/

set_option autoImplicit false

namespace Events

open Conc Python

/-- Items claimed. -/
def claims (p : Raw → Bool) : Event Cmd Cmd.Resp → Nat
  | ⟨.claim _, .ok (some envelope)⟩ => (envelope.payload.any p).toNat
  | _ => 0

/-- A recovery leaves the claims of `e` where they are. -/
def NoStale (e : Raw) (s : State) : Cmd → Prop
  | .recover cutoffMs => ∀ envelope ∈ s.inflight, envelope.payload.any (copyOf e) = true →
      ∃ claimedAt, envelope.claimedAtMs = some claimedAt ∧ cutoffMs < claimedAt
  | _ => True

/-- The steps in which no claim of `e` is recovered. -/
def steady (fits : Row → Bool) (e : Raw) : Sem Cmd Cmd.Resp State := fun c s r s' =>
  sem fits c s r s' ∧ NoStale e s c

/-! ## The pending list -/

section Pending

variable {fits : Row → Bool} {e : Raw} {s s' : State} {p : Raw → Bool}

theorem pending_recover {cutoffMs : Int} (hp : ∀ raw, p raw = true → copyOf e raw = true)
    (h : NoStale e s (.recover cutoffMs)) :
    (s.recover cutoffMs).2.pending.countP p = s.pending.countP p := by
  have hfold (envelopes : List Envelope) (acc : (Nat × Nat) × State)
      (hsteady : ∀ envelope ∈ envelopes, envelope.payload.any (copyOf e) = true →
        ∃ claimedAt, envelope.claimedAtMs = some claimedAt ∧ cutoffMs < claimedAt) :
      (envelopes.foldl (State.recoverOne cutoffMs) acc).2.pending.countP p =
        acc.2.pending.countP p := by
    induction envelopes generalizing acc with
    | nil => rfl
    | cons envelope envelopes ih =>
      rw [List.foldl_cons, ih _ fun other hother => hsteady other (List.mem_cons_of_mem _ hother)]
      have hown := hsteady envelope List.mem_cons_self
      obtain ⟨payload, claimedAt⟩ := envelope
      cases payload with
      | none => rfl
      | some raw =>
        cases claimedAt with
        | none => rfl
        | some claimedAt =>
          unfold State.recoverOne State.lrem
          dsimp only
          split
          · next hstale =>
            have hother : p raw = false := by
              by_contra hcopy
              rw [Bool.not_eq_false] at hcopy
              obtain ⟨at', hat, hlt⟩ := hown (hp raw hcopy)
              cases hat
              omega
            rw [List.countP_append, countP_single, hother]
            rfl
          · rfl
  exact hfold s.inflight ((0, 0), s) h

/-- What a push brings to the pending list and a claim takes from it. -/
theorem pending_cmd {c : Cmd} {r : c.Resp} (hp : ∀ raw, p raw = true → copyOf e raw = true)
    (hE : steady fits e c s r s') :
    s'.pending.countP p + claims p ⟨c, r⟩ = s.pending.countP p + returns p ⟨c, r⟩ := by
  obtain ⟨hrun | ⟨hraised, rfl⟩, hsteady⟩ := hE
  · cases c with
    | rpush queue raw =>
      cases hrun
      cases queue with
      | dlq => rfl
      | pending =>
        show (s.pending ++ [raw]).countP p + 0 = _ + (p raw).toNat
        rw [List.countP_append, countP_single]
        rfl
    | claim nowMs =>
      cases hrun
      unfold State.claim
      cases hpending : s.pending with
      | nil =>
        dsimp only
        rw [hpending]
        rfl
      | cons raw pending =>
        show pending.countP p + (p raw).toNat = (raw :: pending).countP p + 0
        rw [countP_toNat]
        omega
    | recover cutoffMs =>
      cases hrun
      show (s.recover cutoffMs).2.pending.countP p + 0 = _
      rw [pending_recover hp hsteady]
      rfl
    | insert rows =>
      unfold Cmd.run at hrun
      dsimp only at hrun
      split at hrun <;> cases hrun <;> rfl
    | outboxAppend raw =>
      cases hrun
      unfold State.append
      split <;> rfl
    | outboxAppendleft raw =>
      cases hrun
      unfold State.appendleft
      split <;> rfl
    | stuck => cases hrun
    | _ =>
      cases hrun
      rfl
  · cases c with
    | rpush queue raw =>
      cases hraised
      cases queue <;> rfl
    | claim nowMs =>
      cases hraised
      rfl
    | lrem envelope =>
      cases hraised
      rfl
    | recover cutoffMs =>
      cases hraised
      rfl
    | insert rows =>
      cases hraised
      rfl
    | _ => cases hraised

end Pending

/-! ## Levels -/

section Levels

variable {py : Builtins} {t : Trace Cmd Cmd.Resp} {e : Raw} {p : Raw → Bool}

theorem tally_claims : tally (claims p) t = (claimedRaws t).countP p := by
  induction t with
  | nil => rfl
  | cons ev t ih =>
    rw [tally_cons, ih]
    rcases ev with ⟨c, r⟩
    cases c with
    | claim nowMs =>
      rcases r with e | _ | ⟨_ | raw, claimedAt⟩
      · exact Nat.zero_add _
      · exact Nat.zero_add _
      · show 0 + _ = (claimedRaws t ++ []).countP p
        rw [List.append_nil, Nat.zero_add]
      · show (p raw).toNat + _ = (claimedRaws t ++ [raw]).countP p
        rw [List.countP_append, countP_single, Nat.add_comm]
    | _ => exact Nat.zero_add _

/-- A worker tries an event again once for each time it has claimed it. -/
theorem returned_of_guarded (h : Trace.Guarded (WorkerIssues py) t) (n : Int) :
    tally (returns (atLevel py.parse e (n + 1))) t ≤ tally (claims (atLevel py.parse e n)) t := by
  induction t with
  | nil => exact Nat.le_refl 0
  | cons ev t ih =>
    obtain ⟨hguard, ht⟩ := h
    have hrest := ih ht
    rw [tally_cons, tally_cons]
    rcases ev with ⟨c, r⟩
    cases c with
    | rpush queue raw' =>
      cases r with
      | error _ => cases queue <;> exact Nat.add_le_add (Nat.le_refl 0) hrest
      | ok _ =>
        cases queue with
        | dlq => exact Nat.add_le_add (Nat.le_refl 0) hrest
        | pending =>
          show (atLevel py.parse e (n + 1) raw').toNat + _ ≤ 0 + _
          change Pushed py t .pending raw' at hguard
          generalize hqueue : Queue.pending = queue at hguard
          cases hguard with
          | unparseable _ _ => cases hqueue
          | retried hclaimed hrecord hincr hfailed hspare =>
            rw [atLevel_retry hrecord hincr]
            cases hlevel : atLevel py.parse e n _ with
            | false =>
              rw [Bool.toNat_false]
              omega
            | true =>
              obtain ⟨rfl, rfl⟩ := of_decide_eq_true hlevel
              rw [tally_claims, Bool.toNat_true]
              omega
    | claim nowMs =>
      have hpos : 0 ≤ claims (atLevel py.parse e n) ⟨.claim nowMs, r⟩ := Nat.zero_le _
      show 0 + _ ≤ _
      omega
    | _ => exact Nat.add_le_add (Nat.le_refl 0) hrest

/-- What a request pushes is fresh. -/
theorem returned_fresh {n : Int} (hfresh : ∀ queue raw, ⟨.rpush queue raw, .ok ()⟩ ∈ t →
      core raw = e → attempts py.parse raw = 0) :
    tally (returns (atLevel py.parse e n)) t ≤ if n = 0 then tally (sends (copyOf e)) t else 0 := by
  induction t with
  | nil => exact Nat.zero_le _
  | cons ev t ih =>
    have hrest := ih fun queue raw hmem => hfresh queue raw (List.mem_cons_of_mem _ hmem)
    have hev : returns (atLevel py.parse e n) ev ≤ if n = 0 then sends (copyOf e) ev else 0 := by
      rcases ev with ⟨c, r⟩
      cases c with
      | rpush queue raw =>
        cases r with
        | error _ => cases queue <;> exact Nat.zero_le _
        | ok _ =>
          cases queue with
          | dlq => exact Nat.zero_le _
          | pending =>
            show (atLevel py.parse e n raw).toNat ≤ if n = 0 then (copyOf e raw).toNat else 0
            cases hlevel : atLevel py.parse e n raw with
            | false => exact Nat.zero_le _
            | true =>
              obtain ⟨hcore, hn⟩ := of_decide_eq_true hlevel
              have hzero := hfresh .pending raw List.mem_cons_self hcore
              have hcopy : copyOf e raw = true := decide_eq_true hcore
              rw [if_pos (hn.symm.trans hzero), hcopy]
      | _ => exact Nat.zero_le _
    rw [tally_cons, tally_cons]
    by_cases hn : n = 0
    · rw [if_pos hn] at hev hrest ⊢
      omega
    · rw [if_neg hn] at hev hrest ⊢
      omega

/-- Copies that have been tried at most twice are on the first three levels. -/
theorem claims_levels (hlevels : ∀ raw ∈ claimedRaws t, core raw = e →
      0 ≤ attempts py.parse raw ∧ attempts py.parse raw < maxRetryAttempts) :
    tally (claims (copyOf e)) t = tally (claims (atLevel py.parse e 0)) t +
      tally (claims (atLevel py.parse e 1)) t + tally (claims (atLevel py.parse e 2)) t := by
  rw [tally_claims, tally_claims, tally_claims, tally_claims]
  generalize claimedRaws t = raws at hlevels
  induction raws with
  | nil => rfl
  | cons raw raws ih =>
    have hrest := ih fun raw hraw => hlevels raw (List.mem_cons_of_mem _ hraw)
    have hown := hlevels raw List.mem_cons_self
    unfold maxRetryAttempts at hown
    rw [countP_toNat, countP_toNat, countP_toNat, countP_toNat, hrest]
    have hlevel : (copyOf e raw).toNat = (atLevel py.parse e 0 raw).toNat +
        (atLevel py.parse e 1 raw).toNat + (atLevel py.parse e 2 raw).toNat := by
      unfold copyOf atLevel
      by_cases hcore : core raw = e
      · obtain ⟨hlow, hhigh⟩ := hown hcore
        have hcases : attempts py.parse raw = 0 ∨ attempts py.parse raw = 1 ∨
            attempts py.parse raw = 2 := by omega
        rcases hcases with h | h | h <;> simp [hcore, h]
      · simp [hcore]
    omega

end Levels

/-! ## Runs -/

section Bounded

variable {ι : Type} [DecidableEq ι] [Fintype ι] {py : Builtins} {fits : Row → Bool} {s₀ : State}
  {job : ι → Job} {P : Pool ι Cmd Cmd.Resp Unit State} {e : Raw}

theorem attempts_fresh {payload : Fields} (h : payload.lookup attemptKey = none) :
    attempts py.parse (.json (.dict payload)) = 0 := by
  unfold attempts Raw.record Fields.get
  dsimp only
  rw [h, Option.getD_none, toIntOrZero_int]

/-- Of an event's copies, those outside the pending list are untried, those in it below the bound. -/
abbrev Levelled (py : Builtins) (e : Raw) (job : ι → Job) (P : Pool ι Cmd Cmd.Resp Unit State) :
    Prop :=
  Everywhere (fun raw => core raw = e → attempts py.parse raw = 0)
    (fun raw => core raw = e → 0 ≤ attempts py.parse raw ∧
      attempts py.parse raw < maxRetryAttempts) job P.shared P.log

omit [Fintype ι] in
theorem levelled_run
    (hstart : Lists (fun raw => core raw ≠ e) (fun raw => core raw ≠ e) s₀)
    (hfresh : ∀ i rounds payload, job i = .enqueueUsageEvent rounds payload →
      payload.lookup attemptKey = none)
    (hreach : Reach py fits s₀ job P) : Levelled py e job P := by
  refine everywhere_run hreach
    ⟨fun raw hraw hcore => absurd hcore (hstart.outbox raw hraw),
      fun raw hraw hcore => absurd hcore (hstart.pending raw hraw),
      fun envelope henvelope raw hraw hcore =>
        absurd hcore (hstart.inflight envelope henvelope raw hraw)⟩
    (fun i rounds payload hjob _ => attempts_fresh (hfresh i rounds payload hjob))
    (fun hzero hcore => ?_) (fun {raw raw' n} hlevel hrecord hincr hn hcore => ?_)
  · rw [hzero hcore]
    decide
  · obtain ⟨hcore', hattempts, hnext⟩ := incrementAttempt_eq hrecord hincr
    obtain ⟨hlow, -⟩ := hlevel (hcore'.symm.trans hcore)
    rw [hattempts]
    omega

/-- While no claim of the event is recovered, on each level what was claimed was pushed. -/
theorem claims_le_returns
    (hstart : Lists (fun raw => core raw ≠ e) (fun raw => core raw ≠ e) s₀)
    (h : Pool.Reach (steady fits e) Clock (Pool.start s₀ fun i => (job i).program py) P) (n : Int) :
    ∑ i, tally (claims (atLevel py.parse e n)) (own i P.log) ≤
      ∑ i, tally (returns (atLevel py.parse e n)) (own i P.log) := by
  have hp : ∀ raw, atLevel py.parse e n raw = true → copyOf e raw = true := fun raw hlevel =>
    decide_eq_true (of_decide_eq_true hlevel).1
  have hnone : s₀.pending.countP (atLevel py.parse e n) = 0 := by
    refine List.countP_eq_zero.2 fun raw hraw hlevel => ?_
    exact hstart.pending raw hraw (of_decide_eq_true hlevel).1
  have hrun : P.shared.pending.countP (atLevel py.parse e n) +
      (P.log.map fun ev => claims (atLevel py.parse e n) ev.2).sum =
      (P.log.map fun ev => returns (atLevel py.parse e n) ev.2).sum := by
    refine Pool.Reach.invariant (J := fun s l => s.pending.countP (atLevel py.parse e n) +
        (l.map fun ev => claims (atLevel py.parse e n) ev.2).sum =
        (l.map fun ev => returns (atLevel py.parse e n) ev.2).sum)
      (jobs_follow py job) hnone (fun {i c r s s' l} _ hJ _ hE => ?_) (fun hJ he => ?_) h
    · have hcmd := pending_cmd hp hE
      rw [List.map_cons, List.map_cons, List.sum_cons, List.sum_cons]
      dsimp only
      omega
    · obtain ⟨nowMs, rfl⟩ := he
      exact hJ
  have hclaims : ∑ i, tally (claims (atLevel py.parse e n)) (own i P.log) = _ := sum_own _ P.log
  have hreturns : ∑ i, tally (returns (atLevel py.parse e n)) (own i P.log) = _ :=
    sum_own _ P.log
  omega

/-- What is pushed on a level is a fresh event or was claimed on the level below. -/
theorem returns_le_claims (hwhere : Levelled py e job P) (hreach : Reach py fits s₀ job P)
    (n : Int) : ∑ i, tally (returns (atLevel py.parse e (n + 1))) (own i P.log) ≤
      (if n + 1 = 0 then ∑ i, enqueued e (job i) (own i P.log) else 0) +
        ∑ i, tally (claims (atLevel py.parse e n)) (own i P.log) := by
  have hthread (i : ι) : tally (returns (atLevel py.parse e (n + 1))) (own i P.log) ≤
      (if n + 1 = 0 then enqueued e (job i) (own i P.log) else 0) +
        tally (claims (atLevel py.parse e n)) (own i P.log) := by
    have hguarded := (hreach.follows (jobs_follow py job) i).1
    cases hjob : job i with
    | enqueueUsageEvent rounds payload =>
      have hreturned := returned_fresh (n := n + 1) (hwhere.pushed i rounds payload hjob)
      exact Nat.le_trans hreturned (Nat.le_add_right _ _)
    | flushUsageRecords =>
      rw [hjob] at hguarded
      exact Nat.le_trans (returned_of_guarded hguarded n) (Nat.le_add_left _ _)
  have hsum := Finset.sum_le_sum fun i (_ : i ∈ Finset.univ) => hthread i
  rw [Finset.sum_add_distrib] at hsum
  refine Nat.le_trans hsum (Nat.add_le_add_right ?_ _)
  split <;> simp

theorem claims_below (hwhere : Levelled py e job P) {n : Int} (hn : n < 0) :
    ∑ i, tally (claims (atLevel py.parse e n)) (own i P.log) = 0 := by
  refine Finset.sum_eq_zero fun i _ => ?_
  rw [tally_claims]
  refine List.countP_eq_zero.2 fun raw hraw hlevel => ?_
  obtain ⟨hcore, hattempts⟩ := of_decide_eq_true hlevel
  have hlow := (hwhere.claimed i raw hraw hcore).1
  omega

/-- While no claim of it is recovered, an event is claimed at most three times for each time it was
enqueued. -/
theorem claims_bounded
    (hstart : Lists (fun raw => core raw ≠ e) (fun raw => core raw ≠ e) s₀)
    (hfresh : ∀ i rounds payload, job i = .enqueueUsageEvent rounds payload →
      payload.lookup attemptKey = none)
    (h : Pool.Reach (steady fits e) Clock (Pool.start s₀ fun i => (job i).program py) P) :
    ∑ i, tally (claims (copyOf e)) (own i P.log) ≤
      maxRetryAttempts.toNat * ∑ i, enqueued e (job i) (own i P.log) := by
  have hreach : Reach py fits s₀ job P := h.mono fun hE => hE.1
  have hwhere : Levelled py e job P := levelled_run hstart hfresh hreach
  have hall : ∑ i, tally (claims (copyOf e)) (own i P.log) =
      ∑ i, tally (claims (atLevel py.parse e 0)) (own i P.log) +
      ∑ i, tally (claims (atLevel py.parse e 1)) (own i P.log) +
      ∑ i, tally (claims (atLevel py.parse e 2)) (own i P.log) := by
    rw [← Finset.sum_add_distrib, ← Finset.sum_add_distrib]
    exact Finset.sum_congr rfl fun i _ => claims_levels (hwhere.claimed i)
  have h₀ := claims_le_returns hstart h 0
  have h₁ := claims_le_returns hstart h 1
  have h₂ := claims_le_returns hstart h 2
  have h₀' := returns_le_claims hwhere hreach (-1)
  have h₁' := returns_le_claims hwhere hreach 0
  have h₂' := returns_le_claims hwhere hreach 1
  rw [if_pos (by decide), claims_below hwhere (by decide)] at h₀'
  rw [if_neg (by decide)] at h₁' h₂'
  rw [hall]
  show _ ≤ 3 * _
  change _ ≤ _ at h₀' h₁' h₂'
  norm_num at h₀' h₁' h₂'
  omega

end Bounded

/-! ## Workers that crash -/

def oneEvent : Fields := usageOf "alice" "r1"

/-- A request and four workers. -/
def fourWorkers (i : Fin 5) : Job :=
  if i = 0 then .enqueueUsageEvent 10 oneEvent else .flushUsageRecords

def fivePool : Pool (Fin 5) Cmd Cmd.Resp Unit State :=
  Pool.start emptyState fun i => (fourWorkers i).program plainPy

/-- Commands with a recovery only where nothing is in flight. -/
def runQuiet (c : Cmd) (s : State) : Option (c.Resp × State) :=
  match c with
  | .recover cutoffMs => if s.inflight = [] then Cmd.run (fun _ => true) (.recover cutoffMs) s else none
  | c => c.run (fun _ => true) s

theorem steady_runQuiet {e : Raw} {c : Cmd} {s s' : State} {r : c.Resp}
    (h : runQuiet c s = some (r, s')) : steady (fun _ => true) e c s r s' := by
  cases c with
  | recover cutoffMs =>
    unfold runQuiet at h
    dsimp only at h
    split at h
    · next hempty =>
      refine ⟨.inl h, fun envelope henvelope => ?_⟩
      rw [hempty] at henvelope
      cases henvelope
    · cases h
  | _ => exact ⟨.inl h, trivial⟩

theorem claims_bounded_quiet :
    ∑ i, tally (claims (copyOf (core (.json (.dict oneEvent)))))
      (own i (Pool.tryPlay runQuiet fivePool [0, 0, 1, 1, 1, 1]).log) ≤
      maxRetryAttempts.toNat * ∑ i, enqueued (core (.json (.dict oneEvent))) (fourWorkers i)
        (own i (Pool.tryPlay runQuiet fivePool [0, 0, 1, 1, 1, 1]).log) := by
  have hreach : Pool.Reach (steady (fun _ => true) (core (.json (.dict oneEvent)))) Clock
      (Pool.start emptyState fun i => (fourWorkers i).program plainPy)
      (Pool.tryPlay runQuiet fivePool [0, 0, 1, 1, 1, 1]) := by
    apply Pool.reach_tryPlay
    exact steady_runQuiet
  refine claims_bounded
    ⟨fun raw hraw => absurd hraw List.not_mem_nil, fun raw hraw => absurd hraw List.not_mem_nil,
      fun envelope henvelope => absurd henvelope List.not_mem_nil⟩
    (fun i rounds payload hjob => ?_) hreach
  unfold fourWorkers at hjob
  split at hjob
  · cases hjob
    decide
  · cases hjob

/-- More than the time after which a claim is stale. -/
def later (P : Pool (Fin 5) Cmd Cmd.Resp Unit State) : Pool (Fin 5) Cmd Cmd.Resp Unit State :=
  ⟨{ P.shared with nowMs := P.shared.nowMs + 300001 }, P.log, P.thread⟩

/-- One worker after the other recovers the claim of the one before, claims the event and crashes. -/
def abandonedPool : Pool (Fin 5) Cmd Cmd.Resp Unit State :=
  let crash (P : Pool (Fin 5) Cmd Cmd.Resp Unit State) (i : Fin 5) :=
    later (Pool.tryPlay (Cmd.run fun _ => true) P [i, i, i, i])
  crash (crash (crash (crash (Pool.tryPlay (Cmd.run fun _ => true) fivePool [0, 0]) 1) 2) 3) 4

theorem abandonedPool_reach : Reach plainPy (fun _ => true) emptyState fourWorkers abandonedPool := by
  have hplay (schedule : List (Fin 5)) (P : Pool (Fin 5) Cmd Cmd.Resp Unit State) :
      Pool.Reach (sem fun _ => true) Clock P (Pool.tryPlay (Cmd.run fun _ => true) P schedule) :=
    Pool.reach_tryPlay (fun h => .inl h) schedule P
  have hlater (P : Pool (Fin 5) Cmd Cmd.Resp Unit State) :
      Pool.Reach (sem fun _ => true) Clock P (later P) := .single (.env ⟨_, rfl⟩)
  have hcrash {P : Pool (Fin 5) Cmd Cmd.Resp Unit State} (i : Fin 5)
      (h : Reach plainPy (fun _ => true) emptyState fourWorkers P) :
      Reach plainPy (fun _ => true) emptyState fourWorkers
        (later (Pool.tryPlay (Cmd.run fun _ => true) P [i, i, i, i])) :=
    (h.trans (hplay _ P)).trans (hlater _)
  exact hcrash 4 (hcrash 3 (hcrash 2 (hcrash 1 (hplay [0, 0] fivePool))))

/-- An event enqueued once has been claimed four times, and is neither in the table nor a dead
letter. -/
theorem abandoned_claims : Reach plainPy (fun _ => true) emptyState fourWorkers abandonedPool ∧
    ∑ i, enqueued (core (.json (.dict oneEvent))) (fourWorkers i) (own i abandonedPool.log) = 1 ∧
    ∑ i, tally (claims (copyOf (core (.json (.dict oneEvent))))) (own i abandonedPool.log) = 4 ∧
    maxRetryAttempts.toNat = 3 ∧ abandonedPool.shared.table = [] ∧ abandonedPool.shared.dlq = [] :=
  ⟨abandonedPool_reach, by decide, by decide, rfl, rfl, rfl⟩

end Events
