import Janus.Gateway.Proof.QuotaCheck

/-!
# A quota check whose commands fail

The first command of a check, the script or the first increment, is the only one that can fail with
nothing reserved: after it the counters stand above where they were until the whole check is taken
back (`failed_check_iff`).
-/

set_option autoImplicit false

namespace QuotaEnforcer

open Conc

section Reserves

variable {s s₀ : State} {key : Key} {pairs : List (Key × Int)} {pair : Key × Int}
  {entries : List Entry}

/-- What the pairs come to at `key`. -/
def pairsAt (key : Key) (pairs : List (Key × Int)) : Int :=
  (pairs.map fun pair => if pair.1 = key then pair.2 else 0).sum

@[simp] theorem pairsAt_nil : pairsAt key [] = 0 := rfl

@[simp] theorem pairsAt_cons : pairsAt key (pair :: pairs) =
    (if pair.1 = key then pair.2 else 0) + pairsAt key pairs := rfl

@[simp] theorem pairsAt_append {pairs' : List (Key × Int)} :
    pairsAt key (pairs ++ pairs') = pairsAt key pairs + pairsAt key pairs' := by
  simp [pairsAt]

def reservedPairs (entries : List Entry) : List (Key × Int) := entries.map fun e => (e.key, e.reserve)

theorem pairsAt_reservedPairs :
    pairsAt key (reservedPairs entries) = amountAt key (·.reserve) entries := by
  unfold pairsAt reservedPairs amountAt
  rw [List.map_map]
  rfl

/-- The counters are above those of `s₀` by these pairs. -/
def Outstanding (s₀ : State) (pairs : List (Key × Int)) (s : State) : Prop :=
  ∀ key, s.count key = s₀.count key + pairsAt key pairs

/-- Some counter has moved. -/
def Moved (s₀ s : State) : Prop := ∃ key, s.count key ≠ s₀.count key

def Positive (pairs : List (Key × Int)) : Prop := ∀ pair ∈ pairs, 0 < pair.2

theorem pairsAt_nonneg (h : Positive pairs) : 0 ≤ pairsAt key pairs := by
  induction pairs with
  | nil => simp
  | cons pair pairs ih =>
    have hpair := h pair List.mem_cons_self
    have hrest := ih fun p hp => h p (List.mem_cons_of_mem _ hp)
    rw [pairsAt_cons]
    split <;> omega

/-- Reserves that stand show. -/
theorem Outstanding.moved (h : Outstanding s₀ pairs s) (hpos : Positive pairs) (hne : pairs ≠ []) :
    Moved s₀ s := by
  cases pairs with
  | nil => exact absurd rfl hne
  | cons pair pairs =>
    have hpair := hpos pair List.mem_cons_self
    have hrest : 0 ≤ pairsAt pair.1 pairs :=
      pairsAt_nonneg fun p hp => hpos p (List.mem_cons_of_mem _ hp)
    have hkey := h pair.1
    rw [pairsAt_cons, if_pos rfl] at hkey
    exact ⟨pair.1, by omega⟩

theorem Outstanding.incrby {amount : Int} (h : Outstanding s₀ pairs s) :
    Outstanding s₀ (pairs ++ [(key, amount)]) (s.incrby key amount) := by
  intro k
  rw [count_incrby, pairsAt_append, pairsAt_cons, pairsAt_nil, h k]
  dsimp only
  split <;> omega

theorem Outstanding.undo (h : Outstanding s₀ (pair :: pairs) s) :
    Outstanding s₀ pairs (s.incrby pair.1 (-pair.2)) := by
  intro k
  have hk := h k
  rw [pairsAt_cons] at hk
  rw [count_incrby]
  split
  · next heq =>
    rw [if_pos heq] at hk
    omega
  · next hne =>
    rw [if_neg hne] at hk
    omega

theorem Outstanding.expire {ttl : Int} (h : Outstanding s₀ pairs s) (httl : 0 < ttl) :
    Outstanding s₀ pairs (s.expire key ttl) := by
  intro k
  rw [count_expire httl, h k]

end Reserves

/-! ## The loop of single commands -/

section Fallback

variable {s₀ : State} {e : Entry} {entries : List Entry}

/-- The fault is still to come or never comes, and these pairs are reserved. -/
def Pending (s₀ : State) (pairs : List (Key × Int)) (σ : Option Fault × State) : Prop :=
  Silent σ.1 ∧ Outstanding s₀ pairs σ.2

/-- A command has failed, and it shows. -/
def Torn (s₀ : State) (σ : Option Fault × State) : Prop := Moved s₀ σ.2

theorem undo_attempts (pairs : List (Key × Int)) (hpos : Positive pairs) :
    Prog.Attempts (withFault (fun _ => true) FallbackCmd.run) (Pending s₀ pairs)
      (fallbackUndo pairs) (fun _ => Pending s₀ []) (Torn s₀) := by
  induction pairs with
  | nil => exact Prog.Attempts.ret (Q := fun _ => Pending s₀ [])
  | cons pair pairs ih =>
    have hrest : Positive pairs := fun p hp => hpos p (List.mem_cons_of_mem _ hp)
    refine Prog.Attempts.step (M := fun _ => Pending s₀ pairs) (fun σ hσ => ?_) fun _ => ih hrest
    refine Prog.reaches_silent hσ.1 (fun fault hf => ⟨hf, hσ.2.undo⟩) fun _ _ => ?_
    exact hσ.2.moved hpos (List.cons_ne_nil _ _)

theorem expireNew_attempts {pairs : List (Key × Int)} {key : Key} {ttl reserve count : Int}
    (hpos : Positive pairs) (hne : pairs ≠ []) :
    Prog.Attempts (withFault (fun _ => true) FallbackCmd.run) (Pending s₀ pairs)
      (expireNew key ttl reserve count) (fun _ => Pending s₀ pairs) (Torn s₀) := by
  unfold expireNew
  split
  · next h =>
    refine Prog.Attempts.step (M := fun _ => Pending s₀ pairs) (fun σ hσ => ?_) fun _ =>
      Prog.Attempts.ret (Q := fun _ => Pending s₀ pairs)
    exact Prog.reaches_silent hσ.1 (fun fault hf => ⟨hf, hσ.2.expire h.2⟩)
      fun _ _ => hσ.2.moved hpos hne
  · exact Prog.Attempts.ret (Q := fun _ => Pending s₀ pairs)

/-- What a check that returns leaves: everything reserved, or nothing. -/
def Decided (s₀ : State) (entries : List Entry) (failure : Option (Nat × Int))
    (σ : Option Fault × State) : Prop :=
  Pending s₀ (if failure.isSome then [] else reservedPairs entries) σ

theorem rounds_attempts (s₀ : State) (pre : List Entry) (post : List Entry)
    (hpos : Positive (reservedPairs (pre ++ post))) :
    Prog.Attempts (withFault (fun _ => true) FallbackCmd.run)
      (fun σ => Pending s₀ (reservedPairs pre) σ ∧ (pre = [] → σ.1 ≠ some ⟨0, false⟩))
      (fallbackRounds ((pre ++ post).map (·.key)) (argvOf (pre ++ post)) post.length pre.length
        (reservedPairs pre))
      (fun result => Decided s₀ (pre ++ post) (failureOf result)) (Torn s₀) := by
  induction post generalizing pre with
  | nil =>
    intro σ hσ
    have hall : reservedPairs (pre ++ []) = reservedPairs pre := by rw [List.append_nil]
    show Pending s₀ (reservedPairs (pre ++ [])) σ
    rw [hall]
    exact hσ.1
  | cons e post ih =>
    have hsplit : pre ++ e :: post = pre ++ [e] ++ post := by simp
    have hpairs : reservedPairs (pre ++ [e]) = reservedPairs pre ++ [(e.key, e.reserve)] := by
      simp [reservedPairs]
    have hpos' : Positive (reservedPairs (pre ++ [e])) := fun p hp => hpos p <| by
      rw [hsplit]
      unfold reservedPairs at hp ⊢
      rw [List.map_append]
      exact List.mem_append_left _ hp
    have hne : reservedPairs (pre ++ [e]) ≠ [] := by simp [reservedPairs]
    have hargs (k : Nat) (hk : k < 4) :
        (argvOf (pre ++ e :: post))[1 + pre.length * 4 + k]? = (argsOf e)[k]? := argvOf_at hk
    rw [List.length_cons, fallbackRounds]
    dsimp only
    rw [← Nat.add_zero (1 + pre.length * 4), hargs 0 (by omega), Nat.add_zero, hargs 1 (by omega),
      hargs 2 (by omega), hargs 3 (by omega), keys_at]
    refine Prog.Attempts.bind (M := fun _ => Pending s₀ (reservedPairs (pre ++ [e])))
      (Prog.Attempts.step (fun σ hσ => ?_) fun count => Prog.Attempts.ret) fun count => ?_
    · -- the increment fails with the reserves of `pre` standing
      refine Prog.reaches_silent hσ.1.1 (fun fault hf => ⟨hf, ?_⟩) fun _ hfault => ?_
      · rw [hpairs]
        exact hσ.1.2.incrby
      · have hpre : pre ≠ [] := fun hnil => hσ.2 hnil hfault
        refine hσ.1.2.moved (fun p hp => hpos p ?_) (by simpa [reservedPairs] using hpre)
        unfold reservedPairs at hp ⊢
        rw [List.map_append]
        exact List.mem_append_left _ hp
    · refine Prog.Attempts.bind (expireNew_attempts hpos' hne) fun _ => ?_
      by_cases hbreach : (if e.enforce = true then (1 : Int) else 0) = 1 ∧ e.limit < count
      · rw [← hpairs, if_pos hbreach]
        refine Prog.Attempts.bind (undo_attempts _ hpos') fun _ σ hσ => ?_
        exact hσ
      · have hrest := ih (pre ++ [e]) (hsplit ▸ hpos)
        rw [← hpairs, if_neg hbreach]
        simp only [List.append_assoc, List.singleton_append, List.length_append,
          List.length_singleton] at hrest ⊢
        exact Prog.Attempts.pre hrest fun σ hσ => ⟨hσ, fun h => by simp at h⟩

end Fallback

/-! ## The check, on both paths -/

section Check

variable {s₀ : State} {entries : List Entry} {path : CheckPath}

theorem outstanding_nil {s : State} (h : Outstanding s₀ [] s) (key : Key) :
    s.count key = s₀.count key := by
  rw [h key, pairsAt_nil, Int.add_zero]

theorem checkFrom_decided {s : State} {fault : Option Fault} (hf : Silent fault)
    (h : Outstanding s₀ [] s) :
    Decided s₀ entries (s.checkFrom 0 [] entries).1 (fault, (s.checkFrom 0 [] entries).2) := by
  generalize hcheck : s.checkFrom 0 [] entries = checked
  obtain ⟨failure, s'⟩ := checked
  refine ⟨hf, fun key => ?_⟩
  cases failure with
  | none =>
    have hcount : s'.count key = s.count key + amountAt key (·.reserve) entries :=
      checkFrom_passed hcheck
    rw [outstanding_nil h] at hcount
    rw [hcount, if_neg (by simp), pairsAt_reservedPairs]
  | some failure =>
    have hcount : s'.count key = s.count key - pairsAt key [] := checkFrom_failed hcheck
    rw [outstanding_nil h] at hcount
    rw [hcount]
    simp

/-- The check after a command that has not failed. -/
theorem check_attempts (hpos : Positive (reservedPairs entries)) :
    Prog.Attempts (runCheck path) (fun σ => Pending s₀ [] σ ∧ σ.1 ≠ some ⟨0, false⟩)
      (Prog.cmd (C := Cmd) (.check entries)) (Decided s₀ entries) (Torn s₀) := by
  refine Prog.Attempts.step (fun σ hσ => ?_) fun failure => Prog.Attempts.ret
  cases path with
  | script =>
    show Prog.Reaches (Decided s₀ entries) (Torn s₀)
      (withFault Cmd.isRedis (Cmd.run .compensate) (.check entries) σ)
    exact Prog.reaches_silent (R := Cmd.Resp) (c := .check entries) (f := Cmd.run .compensate) hσ.1.1
      (fun fault hf => checkFrom_decided hf hσ.1.2) fun _ hfault => absurd hfault hσ.2
  | fallback =>
    have hrounds := rounds_attempts s₀ [] entries hpos σ ⟨hσ.1, fun _ => hσ.2⟩
    have hrun : runCheck .fallback (.check entries) σ =
        (((runCheckFallback (entries.map (·.key)) (argvOf entries)).tryEval
          (withFault (fun _ => true) FallbackCmd.run) σ).1.map failureOf,
        ((runCheckFallback (entries.map (·.key)) (argvOf entries)).tryEval
          (withFault (fun _ => true) FallbackCmd.run) σ).2) := rfl
    rw [hrun]
    have hsame : runCheckFallback (entries.map (fun e : Entry => e.key)) (argvOf entries) =
        fallbackRounds (([] ++ entries).map (fun e : Entry => e.key)) (argvOf ([] ++ entries)) entries.length
          ([] : List Entry).length (reservedPairs []) := rfl
    rw [← hsame] at hrounds
    generalize (runCheckFallback (entries.map (fun e : Entry => e.key)) (argvOf entries)).tryEval
      (withFault (fun _ => true) FallbackCmd.run) σ = answer at hrounds ⊢
    obtain ⟨_ | result, σ'⟩ := answer
    · exact hrounds
    · exact hrounds

/-- Its first command is the first of the call. -/
theorem check_first (hne : entries ≠ []) :
    Prog.Attempts (runCheck path) (fun σ => σ = (some ⟨0, false⟩, s₀))
      (Prog.cmd (C := Cmd) (.check entries)) (fun _ _ => False) (fun σ => σ.2 = s₀) := by
  refine Prog.Attempts.step (M := fun _ _ => False) (fun σ hσ => ?_) fun _ _ h => h.elim
  subst hσ
  cases path with
  | script => rfl
  | fallback =>
    cases entries with
    | nil => exact absurd rfl hne
    | cons e entries => rfl

end Check

/-! ## `check_and_increment` -/

section Call

variable {path : CheckPath} {r : Request} {s₀ : State} {fault : Option Nat}

/-- The check and what follows it, once the keys and the entries are known. -/
def afterKeys (r : Request) (keys : List Key) (entries : List Entry) :
    Prog Cmd Cmd.Resp (Except CheckError QuotaCheckResult) := do
  match ← Prog.cmd (C := Cmd) (.check entries) with
  | some (failedIndex, count) =>
    match r.quotas[failedIndex]? with
    | some quota => return .error (.quotaLimitExceeded quota (pointsFromRedis quota.metric count))
    | none => return .error .indexError
  | none =>
    let warnings ← (r.quotas.zip keys).mapM warningFor
    return .ok {
      passed := true
      warnings := warnings.filterMap id
      reservations := (r.quotas.zip keys).map (reservationFor r.estimatedTokens r.estimatedCost) }

/-- No command of Redis comes before the check. -/
theorem tryEval_checkAndIncrement (path : CheckPath) (hne : r.quotas ≠ []) (σ : Option Fault × State) :
    ∃ keys entries, entries ≠ [] ∧ Positive (reservedPairs entries) ∧
      (checkAndIncrement r.userId r.departmentId r.quotas r.estimatedTokens
        r.estimatedCost).tryEval (runCheck path) σ =
          (afterKeys r keys entries).tryEval (runCheck path) σ := by
  let keys := r.quotas.map fun quota =>
    keyWith r.userId r.departmentId quota (periodKeyAt quota.period σ.2.now)
  let entries := (r.quotas.zip keys).map fun pair =>
    entryWith r.estimatedTokens r.estimatedCost pair.1 pair.2 (ttlSecondsAt pair.1.period σ.2.now)
  have hkeys : (r.quotas.mapM (keyForQuota r.userId r.departmentId)).tryEval (runCheck path) σ =
      (some keys, σ) := Prog.tryEval_mapM fun quota _ => rfl
  have hentries : ((r.quotas.zip keys).mapM (entryFor r.estimatedTokens r.estimatedCost)).tryEval
      (runCheck path) σ = (some entries, σ) := Prog.tryEval_mapM fun pair _ => rfl
  refine ⟨keys, entries, ?_, ?_, ?_⟩
  · obtain ⟨quota, quotas, hquotas⟩ := List.exists_cons_of_ne_nil hne
    simp [entries, keys, hquotas]
  · intro pair hpair
    unfold reservedPairs at hpair
    obtain ⟨e, he, rfl⟩ := List.mem_map.1 hpair
    obtain ⟨p, -, rfl⟩ := List.mem_map.1 he
    exact reserveForMetric_pos
  · unfold checkAndIncrement
    rw [if_neg hne]
    show ((r.quotas.mapM (keyForQuota r.userId r.departmentId)) >>= _).tryEval (runCheck path) σ = _
    rw [Prog.tryEval_bind, hkeys]
    dsimp only
    rw [Prog.tryEval_bind, hentries]
    rfl

/-- Reading the counters changes none of them. -/
theorem warningFor_attempts {pairs : List (Key × Int)} (hpos : Positive pairs) (hne : pairs ≠ [])
    (pair : Quota × Key) : Prog.Attempts (runCheck path) (Pending s₀ pairs) (warningFor pair)
      (fun _ => Pending s₀ pairs) (Torn s₀) := by
  refine Prog.Attempts.bind (M := fun _ => Pending s₀ pairs)
    (Prog.Attempts.step (fun σ hσ => ?_) fun _ => Prog.Attempts.ret) fun count => ?_
  · show Prog.Reaches (fun _ => Pending s₀ pairs) (Torn s₀)
      (withFault Cmd.isRedis (Cmd.run .compensate) (.get pair.2) σ)
    exact Prog.reaches_silent hσ.1 (fun fault hf => ⟨hf, hσ.2⟩) fun _ _ => hσ.2.moved hpos hne
  · dsimp only
    split
    · exact Prog.Attempts.ret (Q := fun _ => Pending s₀ pairs)
    · exact Prog.Attempts.ret (Q := fun _ => Pending s₀ pairs)

/-- What the call leaves unless its first command fails: a denial leaves every counter where it was,
a command that fails does not. -/
theorem afterKeys_attempts (path : CheckPath) (r : Request) (keys : List Key)
    {entries : List Entry} (hne : entries ≠ [])
    (hpos : Positive (reservedPairs entries)) :
    Prog.Attempts (runCheck path) (fun σ => Pending s₀ [] σ ∧ σ.1 ≠ some ⟨0, false⟩)
      (afterKeys r keys entries)
      (fun outcome σ => ∀ e, outcome = .error e → ∀ key, σ.2.count key = s₀.count key)
      (Torn s₀) := by
  refine Prog.Attempts.bind (check_attempts hpos) fun failure => ?_
  cases failure with
  | some failure =>
    dsimp only
    cases r.quotas[failure.1]? with
    | some quota => exact fun σ hσ _ _ => outstanding_nil hσ.2
    | none => exact fun σ hσ _ _ => outstanding_nil hσ.2
  | none =>
    have hpairs : reservedPairs entries ≠ [] := by simpa [reservedPairs] using hne
    refine Prog.Attempts.bind (Prog.Attempts.mapM (warningFor_attempts hpos hpairs)) fun _ => ?_
    intro σ _ e he
    cases he

/-- What the call leaves if its first command fails. -/
theorem afterKeys_first (path : CheckPath) (r : Request) (keys : List Key) {entries : List Entry}
    (hne : entries ≠ []) :
    Prog.Attempts (runCheck path) (fun σ => σ = (some ⟨0, false⟩, s₀)) (afterKeys r keys entries)
      (fun _ _ => False) (fun σ => σ.2 = s₀) :=
  Prog.Attempts.bind (check_first hne) fun _ _ h => h.elim

/-- A command of Redis fails during the call. -/
def Fails (path : CheckPath) (r : Request) (fault : Option Nat) (s : State) : Prop :=
  (checkWithFault path r fault s).1 = none

/-- The call raises the Redis error, or an error of its own. -/
def Raises (path : CheckPath) (r : Request) (fault : Option Nat) (s : State) : Prop :=
  Fails path r fault s ∨ ∃ e, (checkWithFault path r fault s).1 = some (.error e)

/-- A check that raises leaves every counter where it was exactly if the command that fails, if one
does, is its first. -/
theorem failed_check_iff (path : CheckPath) (r : Request) (fault : Option Nat) (s : State) :
    (Raises path r fault s → ∀ key, (checkWithFault path r fault s).2.count key = s.count key) ↔
      (Fails path r fault s → fault = some 0) := by
  unfold Raises Fails
  by_cases hnil : r.quotas = []
  · -- without quotas there is no command
    have hcall : checkWithFault path r fault s = (some (.ok { passed := true }), s) := by
      unfold checkWithFault checkAndIncrement
      rw [if_pos hnil]
      rfl
    rw [hcall]
    exact iff_of_true (fun _ _ => rfl) nofun
  · obtain ⟨keys, entries, hne, hpos, hrun⟩ :=
      tryEval_checkAndIncrement path hnil (fault.map (⟨·, false⟩), s)
    have hcall : checkWithFault path r fault s =
        (((afterKeys r keys entries).tryEval (runCheck path) (fault.map (⟨·, false⟩), s)).1,
          ((afterKeys r keys entries).tryEval (runCheck path) (fault.map (⟨·, false⟩), s)).2.2) := by
      unfold checkWithFault
      rw [hrun]
    rw [hcall]
    by_cases hfirst : fault = some 0
    · subst hfirst
      have h := afterKeys_first path r keys hne (some ⟨0, false⟩, s) rfl
      refine iff_of_true (fun _ key => ?_) fun _ => rfl
      show State.count (Prod.snd (Prod.snd ((afterKeys r keys entries).tryEval (runCheck path)
        (some ⟨0, false⟩, s)))) key = _
      generalize (afterKeys r keys entries).tryEval (runCheck path) (some ⟨0, false⟩, s) = answer
        at h ⊢
      obtain ⟨_ | outcome, σ⟩ := answer
      · exact congrArg (fun s => State.count s key) h
      · exact h.elim
    · have hsilent : Silent (fault.map (⟨·, false⟩)) := by
        intro φ hφ
        obtain ⟨k, -, rfl⟩ := Option.map_eq_some_iff.1 hφ
        rfl
      have hlater : fault.map (⟨·, false⟩) ≠ some (⟨0, false⟩ : Fault) := by
        intro h
        obtain ⟨k, hk, hzero⟩ := Option.map_eq_some_iff.1 h
        injection hzero with hzero
        exact hfirst (hk.trans (congrArg some hzero))
      have hstart : Outstanding s [] s := fun key => by simp
      have h := afterKeys_attempts path r keys hne hpos
        (fault.map (⟨·, false⟩), s) ⟨⟨hsilent, hstart⟩, hlater⟩
      generalize (afterKeys r keys entries).tryEval (runCheck path) (fault.map (⟨·, false⟩), s) =
        answer at h ⊢
      obtain ⟨_ | outcome, σ⟩ := answer
      · refine iff_of_false (fun hsame => ?_) fun hfail => hfirst (hfail rfl)
        obtain ⟨key, hkey⟩ := h
        exact hkey (hsame (.inl rfl) key)
      · have hdenied : ∀ e, outcome = .error e → ∀ key, σ.2.count key = s.count key := h
        refine iff_of_true (fun hraises => ?_) fun hfail => nomatch hfail
        rcases hraises with hfail | ⟨e, he⟩
        · cases hfail
        · exact hdenied e (Option.some.inj he)

end Call

/-! ## A read that fails after the increments -/

/-- The script reserves 400 tokens, the read of the counter fails, and they stay. -/
theorem read_strands : ¬ ∀ path r fault s, Raises path r fault s →
    ∀ key, (checkWithFault path r fault s).2.count key = s.count key := by
  intro h
  have hraises : Raises .script tokenRequest (some 1) freshState := .inl (by rfl)
  have hcount := h _ _ _ _ hraises (keyAt tokenRequest tokenQuota newYear)
  exact absurd hcount (by decide)

end QuotaEnforcer
