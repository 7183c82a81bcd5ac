import Mathlib.Data.Finset.Card
import Janus.Auth.Throttle

/-!
# How many failures a username is granted

An attempt that has found no lock is `Waiting` until its failure is counted, and `Recording` until
the counter has its deadline and the lock is set. The lock bounds the count by itself only while
nobody is on the way (`Bounded.locked`): attempts that are let in side by side are all counted
(`crowd`). `failures_bounded`: if an attempt is let in beside others only while the counter has room
for all of them, and the counter has its deadline before it is full, then at most `maxFailures`
failures are counted in one life of the counter.
-/

set_option autoImplicit false

namespace Login

open Conc Redis

/-! ## Program order -/

section Order

variable {p : ThrottlePolicy} {a : Attempt} {u : String} {t : Trace Cmd Cmd.Resp}

/-- The attempt found no lock. -/
def Passed (u : String) (t : Trace Cmd Cmd.Resp) : Prop := ⟨.existsLock u, false⟩ ∈ t

def Counted (u : String) (t : Trace Cmd Cmd.Resp) : Prop := ∃ n : Nat, ⟨.incrFail u, n⟩ ∈ t

/-- The attempt created the counter and has not given it its deadline. -/
def Creating (p : ThrottlePolicy) (u : String) (t : Trace Cmd Cmd.Resp) : Prop :=
  ⟨.incrFail u, (1 : Nat)⟩ ∈ t ∧ ⟨.expireFail u p.failureWindowSeconds, ()⟩ ∉ t

/-- The attempt filled the counter and has not set the lock. -/
def Locking (p : ThrottlePolicy) (u : String) (t : Trace Cmd Cmd.Resp) : Prop :=
  (∃ n : Nat, p.maxFailures ≤ n ∧ ⟨.incrFail u, n⟩ ∈ t) ∧ ⟨.setLock u p.lockoutSeconds, ()⟩ ∉ t

/-- The attempt has been counted and is not done with that. -/
def Recording (p : ThrottlePolicy) (u : String) (t : Trace Cmd Cmd.Resp) : Prop :=
  Creating p u t ∨ Locking p u t

/-- Let in and not counted yet. -/
structure LetIn (u : String) (t : Trace Cmd Cmd.Resp) : Prop where
  passed : Passed u t
  uncounted : ¬ Counted u t
  undated : ∀ ttl, ⟨.expireFail u ttl, ()⟩ ∉ t
  unlocked : ∀ ttl, ⟨.setLock u ttl, ()⟩ ∉ t

/-- What an attempt issues. -/
def AttemptIssues (p : ThrottlePolicy) (a : Attempt) (t : Trace Cmd Cmd.Resp) : Cmd → Prop
  | .incrFail u => u = a.username ∧ LetIn u t
  | .expireFail u ttl => u = a.username ∧ ttl = p.failureWindowSeconds ∧
      ⟨.incrFail u, (1 : Nat)⟩ ∈ t ∧ ⟨.setLock u p.lockoutSeconds, ()⟩ ∉ t
  | .setLock u ttl => u = a.username ∧ ttl = p.lockoutSeconds
  | _ => True

theorem LetIn.cons {e : Event Cmd Cmd.Resp} (h : LetIn u t) (hincr : ∀ n : Nat, e ≠ ⟨.incrFail u, n⟩)
    (hexpire : ∀ ttl, e ≠ ⟨.expireFail u ttl, ()⟩) (hlock : ∀ ttl, e ≠ ⟨.setLock u ttl, ()⟩) :
    LetIn u (e :: t) where
  passed := List.mem_cons_of_mem _ h.passed
  uncounted := by
    rintro ⟨n, hm⟩
    rcases List.mem_cons.1 hm with heq | hm
    · exact hincr n heq.symm
    · exact h.uncounted ⟨n, hm⟩
  undated ttl hm := by
    rcases List.mem_cons.1 hm with heq | hm
    · exact hexpire ttl heq.symm
    · exact h.undated ttl hm
  unlocked ttl hm := by
    rcases List.mem_cons.1 hm with heq | hm
    · exact hlock ttl heq.symm
    · exact h.unlocked ttl hm

theorem recordLogin_follows {userId : Option Int} {outcome : AuditOutcome}
    {reason : Option LoginFailureReason} :
    (recordLogin a userId outcome reason).Follows (AttemptIssues p a)
      (fun _ t' => LetIn u t → LetIn u t') t := by
  refine Raising.Follows.cmd_bind trivial fun written => ?_
  have hkeep (h : LetIn u t) : LetIn u (⟨.appendLoginLog _, written⟩ :: t) := h.cons nofun nofun nofun
  cases written with
  | error e => exact hkeep
  | ok _ => exact hkeep

theorem recordIpFailure_follows {ip : Option String} :
    (recordIpFailure p ip).Follows (AttemptIssues p a) (fun _ _ => True) t := by
  cases ip with
  | none => exact trivial
  | some ip =>
    refine Raising.Follows.cmd_bind trivial fun ipCount => ?_
    split
    · exact Raising.Follows.cmd trivial fun _ => trivial
    · exact trivial

theorem recordFailure_follows (h : LetIn a.username t) {ip : Option String} :
    (recordFailure p a.username ip).Follows (AttemptIssues p a) (fun _ _ => True) t := by
  refine Raising.Follows.cmd_bind ⟨rfl, h⟩ fun count => ?_
  have hlock (t' : Trace Cmd Cmd.Resp) :
      Raising.Follows (AttemptIssues p a) (fun _ _ => True) (do
        if p.maxFailures ≤ count then
          issue (.setLock a.username p.lockoutSeconds)
        recordIpFailure p ip) t' := by
    split
    · exact Raising.Follows.cmd_bind ⟨rfl, rfl⟩ fun _ => recordIpFailure_follows
    · exact recordIpFailure_follows
  by_cases hone : count = 1
  · subst hone
    rw [if_pos rfl]
    refine Raising.Follows.cmd_bind ⟨rfl, rfl, List.mem_cons_self, ?_⟩ fun _ => hlock _
    intro hm
    rcases List.mem_cons.1 hm with heq | hm
    · cases heq
    · exact h.unlocked _ hm
  · rw [if_neg hone]
    exact hlock _

theorem fail_follows (h : LetIn a.username t) {userId : Option Int} {reason : LoginFailureReason} :
    (fail p a userId reason).Follows (AttemptIssues p a) (fun _ _ => True) t := by
  refine Raising.Follows.bind (recordLogin_follows (u := a.username)) ?_ fun _ _ _ => trivial
  intro _ t' hkeep
  exact Raising.Follows.bind (recordFailure_follows (hkeep h)) (fun _ _ _ => trivial)
    fun _ _ _ => trivial

/-- The check of the address keeps the username let in. -/
theorem ipCheck_follows (h : LetIn a.username t) :
    Raising.Follows (AttemptIssues p a) (fun outcome t => outcome = .ok false → LetIn a.username t)
      (match a.requestIp with
        | none => pure false
        | some ip => isIpLimited p ip) t := by
  cases a.requestIp with
  | none => exact fun _ => h
  | some ip =>
    refine Raising.Follows.cmd_bind trivial fun raw => ?_
    have hkeep : LetIn a.username (⟨.getIp ip, raw⟩ :: t) :=
      h.cons (fun n h => by cases h) (fun ttl h => by cases h) fun ttl h => by cases h
    cases raw with
    | none => exact fun _ => hkeep
    | some raw => exact fun _ => hkeep

theorem isRefused_follows :
    (isRefused p a).Follows (AttemptIssues p a)
      (fun outcome t => outcome = .ok false → LetIn a.username t) [] := by
  refine Raising.Follows.cmd_bind trivial fun locked => ?_
  cases locked with
  | true =>
    intro h
    cases h
  | false =>
    refine ipCheck_follows ⟨List.mem_cons_self, ?_, ?_, ?_⟩
    · rintro ⟨n, hm⟩
      rcases hm with _ | ⟨_, hm⟩
      cases hm
    · intro ttl hm
      rcases hm with _ | ⟨_, hm⟩
      cases hm
    · intro ttl hm
      rcases hm with _ | ⟨_, hm⟩
      cases hm

theorem isMismatch_follows (h : LetIn a.username t) {user : User} :
    (isMismatch a user).Follows (AttemptIssues p a) (fun _ t' => LetIn a.username t') t := by
  unfold isMismatch
  cases user.password with
  | none => exact h
  | some hash =>
    refine Raising.Follows.cmd_bind trivial fun verified => ?_
    have hkeep : LetIn a.username (⟨.verifyPassword hash a.password, verified⟩ :: t) :=
      h.cons nofun nofun nofun
    exact hkeep

theorem authenticatePassword_follows :
    (authenticatePassword p a).run.Follows (AttemptIssues p a) (fun _ _ => True) [] := by
  refine Raising.Follows.bind isRefused_follows ?_ fun _ _ _ => trivial
  intro refused t hrefused
  cases refused with
  | true =>
    exact Raising.Follows.bind (recordLogin_follows (u := a.username)) (fun _ _ _ => trivial)
      fun _ _ _ => trivial
  | false =>
    have h := hrefused rfl
    refine Raising.Follows.cmd_bind trivial fun found => ?_
    have h₁ : LetIn a.username (⟨.getUserByUsername a.username, found⟩ :: t) := h.cons nofun nofun nofun
    refine Raising.Follows.bind (P := fun _ t' => LetIn a.username t') ?_ ?_ fun _ _ _ => trivial
    · cases found with
      | error e => exact h₁
      | ok user => exact h₁
    · intro user t₂ h₂
      cases user with
      | none => exact fail_follows h₂
      | some user =>
        refine Raising.Follows.bind (isMismatch_follows h₂) ?_ fun _ _ _ => trivial
        intro mismatch t₃ h₃
        cases mismatch with
        | true => exact fail_follows h₃
        | false =>
          refine Raising.Follows.cmd_bind trivial fun _ => ?_
          exact Raising.Follows.bind (recordLogin_follows (u := a.username)) (fun _ _ _ => trivial)
            fun _ _ _ => trivial

end Order

/-! ## Runs -/

section Runs

variable {ι : Type} [DecidableEq ι] {p : ThrottlePolicy} {u : String} {attempt : ι → Attempt}
  {P : Attempts ι}

/-- The counter of `u`, as readers see it. -/
def failures (s : Store) (u : String) : Nat := (s.fails.get s.now u).getD 0

/-- Let in, still running, and not counted. -/
structure Waiting (u : String) (t : Trace Cmd Cmd.Resp)
    (thread : Prog Cmd Cmd.Resp (Except LoginError User)) : Prop where
  passed : Passed u t
  uncounted : ¬ Counted u t
  running : ∀ a, thread ≠ .ret a

/-- Attempt `i` is waiting. -/
def Waits (u : String) (P : Attempts ι) (i : ι) : Prop := Waiting u (own i P.log) (P.thread i)

open Classical in
/-- The attempts that are waiting. -/
noncomputable def waiting (u : String) (P : Attempts ι) : Finset ι :=
  (P.log.map Prod.fst).toFinset.filter (Waits u P)

theorem mem_waiting {i : ι} : i ∈ waiting u P ↔ Waits u P i := by
  classical
  unfold waiting
  rw [Finset.mem_filter, List.mem_toFinset]
  refine ⟨fun h => h.2, fun h => ⟨?_, h⟩⟩
  exact List.mem_map_of_mem (mem_own.1 h.passed)

/-- Nobody who was let in is still on the way. -/
def Quiet (p : ThrottlePolicy) (u : String) (P : Attempts ι) : Prop :=
  ∀ j, ¬ Waits u P j ∧ ¬ Recording p u (own j P.log)

/-- An attempt is let in beside others only while the counter has room for all of them, and the
counter has its deadline before it is full. -/
def Admissible (p : ThrottlePolicy) (u : String) (P : Attempts ι) : Cmd → Prop
  | .existsLock u' => u' = u → P.shared.locks.get P.shared.now u = none →
      Quiet p u P ∨ failures P.shared u + (waiting u P).card < p.maxFailures
  | .expireFail u' _ => u' = u → failures P.shared u < p.maxFailures ∨ failures P.shared u ≤ 1
  | _ => True

/-- If the step is a command, it is an admissible one. -/
def StepsOrderly (p : ThrottlePolicy) (u : String) (P P' : Attempts ι) : Prop :=
  ∀ i c r, P'.log = (i, ⟨c, r⟩) :: P.log → Admissible p u P c

/-- The runs all of whose commands are admissible. -/
abbrev OrderlyReach (p : ThrottlePolicy) (u : String) : Attempts ι → Attempts ι → Prop :=
  Relation.ReflTransGen fun P P' => Pool.Step sem tick P P' ∧ StepsOrderly p u P P'

theorem OrderlyReach.reach {P₀ P : Attempts ι} (h : OrderlyReach p u P₀ P) :
    Pool.Reach sem tick P₀ P := by
  induction h with
  | refl => exact .refl
  | tail _ hstep ih => exact ih.tail hstep.1

/-- No attempt on `u` has succeeded. -/
def NoReset (u : String) (l : Log ι Cmd Cmd.Resp) : Prop := ∀ e ∈ l, e.2.cmd ≠ .deleteBoth u

/-- The lock lasts as long as the counter. -/
def Outlasts (s : Store) (u : String) : Prop :=
  ∃ cell lock deadline expiry, s.fails u = some cell ∧ cell.expiresAt = some deadline ∧
    s.locks u = some lock ∧ lock.expiresAt = some expiry ∧ deadline ≤ expiry

/-- The counter of `u` and the attempts on the way to it. -/
structure Bounded (p : ThrottlePolicy) (u : String) (P : Attempts ι) : Prop where
  total : failures P.shared u + (waiting u P).card ≤ p.maxFailures
  bound : counted u P.log ≤ p.maxFailures
  alive : ∀ n, P.shared.fails.get P.shared.now u = some n → counted u P.log ≤ n
  dated : ∀ cell deadline, P.shared.fails u = some cell → cell.expiresAt = some deadline →
    deadline ≤ P.shared.now + p.failureWindowSeconds
  undated : ∀ cell, P.shared.fails u = some cell → cell.expiresAt = none →
    ∃ j, Creating p u (own j P.log)
  locked : p.maxFailures ≤ failures P.shared u →
    (∃ j, Recording p u (own j P.log)) ∨ Outlasts P.shared u

/-! ### Time -/

theorem failures_pos {s : Store} (h : 1 ≤ failures s u) :
    s.fails.get s.now u = some (failures s u) := by
  unfold failures at h ⊢
  cases hget : s.fails.get s.now u with
  | none => simp [hget] at h
  | some n => rfl

theorem failures_tick {s s' : Store} (ht : tick s s') (h : 1 ≤ failures s' u) :
    failures s' u = failures s u := by
  have hlater := failures_pos h
  obtain ⟨d, rfl⟩ := ht
  have hnow : s.fails.get s.now u = some (failures { s with now := s.now + d } u) :=
    Table.get_anti hlater (Nat.le_add_right _ _)
  unfold failures at hnow ⊢
  rw [hnow]
  rfl

theorem Bounded.tick {s' : Store} (hmax : 1 ≤ p.maxFailures) (h : Bounded p u P)
    (ht : tick P.shared s') : Bounded p u ⟨s', P.log, P.thread⟩ where
  total := by
    have htotal := h.total
    have hsame : (waiting u ⟨s', P.log, P.thread⟩).card = (waiting u P).card := rfl
    by_cases hpos : 1 ≤ failures s' u
    · rw [failures_tick ht hpos, hsame]
      exact htotal
    · rw [hsame]
      simp only at hpos ⊢
      omega
  bound := h.bound
  alive n hn := by
    obtain ⟨d, rfl⟩ := ht
    exact h.alive n (Table.get_anti hn (Nat.le_add_right _ _))
  dated cell deadline hcell hd := by
    obtain ⟨d, rfl⟩ := ht
    have hle := h.dated cell deadline hcell hd
    simp only
    omega
  undated cell hcell hnone := by
    obtain ⟨d, rfl⟩ := ht
    exact h.undated cell hcell hnone
  locked hfull := by
    have hpos : 1 ≤ failures s' u := Nat.le_trans hmax hfull
    rw [failures_tick ht hpos] at hfull
    obtain ⟨d, rfl⟩ := ht
    exact h.locked hfull

/-! ### One command -/

section Cmd

variable {i : ι} {c : Cmd} {r : c.Resp} {k : c.Resp → Prog Cmd Cmd.Resp (Except LoginError User)}
  {s' : Store}

/-- The pool after a command. -/
def Attempts.after (P : Attempts ι) (i : ι) (c : Cmd) (r : c.Resp)
    (k : c.Resp → Prog Cmd Cmd.Resp (Except LoginError User)) (s' : Store) : Attempts ι :=
  ⟨s', (i, ⟨c, r⟩) :: P.log, Function.update P.thread i (k r)⟩

/-- Only a lock check lets an attempt in, and only the count lets it go on. -/
theorem waits_of_after {j : ι} (hk : P.thread i = .step c k) (h : Waits u (P.after i c r k s') j) :
    (Waits u P j ∧ (j = i → ∀ n : Nat, (⟨c, r⟩ : Event Cmd Cmd.Resp) ≠ ⟨.incrFail u, n⟩)) ∨
      (j = i ∧ (⟨c, r⟩ : Event Cmd Cmd.Resp) = ⟨.existsLock u, false⟩) := by
  obtain ⟨hpassed, huncounted, hrunning⟩ := h
  by_cases hji : j = i
  · subst hji
    simp only [Attempts.after, Passed, Counted, own_cons_self] at hpassed huncounted
    rcases List.mem_cons.1 hpassed with heq | hpassed
    · exact .inr ⟨rfl, heq.symm⟩
    · refine .inl ⟨⟨hpassed, ?_, ?_⟩, ?_⟩
      · rintro ⟨n, hm⟩
        exact huncounted ⟨n, List.mem_cons_of_mem _ hm⟩
      · intro a ha
        rw [ha] at hk
        cases hk
      · intro _ n heq
        exact huncounted ⟨n, by rw [heq]; exact List.mem_cons_self⟩
  · simp only [Attempts.after, own_cons_ne (Ne.symm hji)] at hpassed huncounted
    simp only [Attempts.after, Function.update_of_ne hji] at hrunning
    exact .inl ⟨⟨hpassed, huncounted, hrunning⟩, fun heq => absurd heq hji⟩

theorem waiting_after (s' : Store) (hk : P.thread i = .step c k)
    (hcheck : (⟨c, r⟩ : Event Cmd Cmd.Resp) ≠ ⟨.existsLock u, false⟩) :
    (waiting u (P.after i c r k s')).card ≤ (waiting u P).card := by
  refine Finset.card_le_card fun j hj => ?_
  rw [mem_waiting] at hj ⊢
  rcases waits_of_after hk hj with ⟨h, -⟩ | ⟨-, heq⟩
  · exact h
  · exact absurd heq hcheck

theorem waiting_after_check (s' : Store) (hk : P.thread i = .step c k) :
    (waiting u (P.after i c r k s')).card ≤ (waiting u P).card + 1 := by
  refine Nat.le_trans (Finset.card_le_card (t := insert i (waiting u P)) fun j hj => ?_)
    (Finset.card_insert_le i _)
  rw [mem_waiting] at hj
  rw [Finset.mem_insert, mem_waiting]
  rcases waits_of_after hk hj with ⟨h, -⟩ | ⟨h, -⟩
  · exact .inr h
  · exact .inl h

theorem waiting_after_incr (s' : Store) {n : Nat}
    {k : Nat → Prog Cmd Cmd.Resp (Except LoginError User)} (hk : P.thread i = .step (.incrFail u) k) (hin : LetIn u (own i P.log)) :
    (waiting u (P.after i (.incrFail u) n k s')).card + 1 ≤ (waiting u P).card := by
  have hi : i ∈ waiting u P := by
    rw [mem_waiting]
    refine ⟨hin.passed, hin.uncounted, fun a ha => ?_⟩
    rw [ha] at hk
    cases hk
  rw [← Finset.card_erase_add_one hi]
  refine Nat.add_le_add_right (Finset.card_le_card fun j hj => ?_) 1
  rw [mem_waiting] at hj
  rw [Finset.mem_erase, mem_waiting]
  rcases waits_of_after hk hj with ⟨h, hne⟩ | ⟨-, heq⟩
  · exact ⟨fun hji => hne hji n rfl, h⟩
  · cases heq

/-- What is on the way stays on the way until its deadline or its lock is set. -/
theorem creating_after {j : ι} (h : Creating p u (own j P.log))
    (hc : ∀ ttl, c ≠ .expireFail u ttl) : Creating p u (own j (P.after i c r k s').log) := by
  by_cases hij : i = j
  · subst hij
    simp only [Attempts.after, own_cons_self]
    refine ⟨List.mem_cons_of_mem _ h.1, fun hm => ?_⟩
    rcases List.mem_cons.1 hm with heq | hm
    · cases heq
      exact hc _ rfl
    · exact h.2 hm
  · simp only [Attempts.after, own_cons_ne hij]
    exact h

theorem locking_after {j : ι} (h : Locking p u (own j P.log)) (hc : ∀ ttl, c ≠ .setLock u ttl) :
    Locking p u (own j (P.after i c r k s').log) := by
  by_cases hij : i = j
  · subst hij
    simp only [Attempts.after, own_cons_self]
    obtain ⟨⟨n, hn, hm⟩, hnot⟩ := h
    refine ⟨⟨n, hn, List.mem_cons_of_mem _ hm⟩, fun hm => ?_⟩
    rcases List.mem_cons.1 hm with heq | hm
    · cases heq
      exact hc _ rfl
    · exact hnot hm
  · simp only [Attempts.after, own_cons_ne hij]
    exact h

theorem recording_after {j : ι} (h : Recording p u (own j P.log))
    (hexpire : ∀ ttl, c ≠ .expireFail u ttl) (hlock : ∀ ttl, c ≠ .setLock u ttl) :
    Recording p u (own j (P.after i c r k s').log) :=
  h.imp (fun h => creating_after h hexpire) fun h => locking_after h hlock

/-- A command that leaves the counter and the lock alone. -/
theorem Bounded.frame (h : Bounded p u P) (hnow : s'.now = P.shared.now)
    (hfails : s'.fails u = P.shared.fails u) (hlocks : s'.locks u = P.shared.locks u)
    (htotal : failures P.shared u + (waiting u (P.after i c r k s')).card ≤ p.maxFailures)
    (hcounted : counted u ((i, ⟨c, r⟩) :: P.log) = counted u P.log)
    (hexpire : ∀ ttl, c ≠ .expireFail u ttl) (hlock : ∀ ttl, c ≠ .setLock u ttl) :
    Bounded p u (P.after i c r k s') := by
  have hget : s'.fails.get s'.now u = P.shared.fails.get P.shared.now u := by
    rw [hnow]
    exact Table.get_congr hfails
  have hfailures : failures s' u = failures P.shared u := by
    unfold failures
    rw [hget]
  have hoiled : Outlasts P.shared u → Outlasts s' u := by
    rintro ⟨cell, lock, deadline, expiry, hcell, hd, hl, he, hle⟩
    exact ⟨cell, lock, deadline, expiry, hfails.trans hcell, hd, hlocks.trans hl, he, hle⟩
  refine ⟨?_, ?_, ?_, ?_, ?_, ?_⟩
  · show failures s' u + _ ≤ _
    rw [hfailures]
    exact htotal
  · show counted u ((i, ⟨c, r⟩) :: P.log) ≤ _
    rw [hcounted]
    exact h.bound
  · intro n hn
    show counted u ((i, ⟨c, r⟩) :: P.log) ≤ n
    rw [hcounted]
    exact h.alive n (hget.symm.trans hn)
  · intro cell deadline hcell hd
    show deadline ≤ s'.now + _
    rw [hnow]
    exact h.dated cell deadline (hfails.symm.trans hcell) hd
  · intro cell hcell hnone
    obtain ⟨j, hj⟩ := h.undated cell (hfails.symm.trans hcell) hnone
    exact ⟨j, creating_after hj hexpire⟩
  · intro hfull
    rcases h.locked (hfailures ▸ hfull) with ⟨j, hj⟩ | hout
    · exact .inl ⟨j, recording_after hj hexpire hlock⟩
    · exact .inr (hoiled hout)

/-- `INCR` of the counter of `u`. -/
theorem incr_spec {s : Store} {n : Nat} (hc : sem (.incrFail u) s n s') :
    n = failures s u + 1 ∧ s'.now = s.now ∧ failures s' u = n ∧
      s'.fails u = some ⟨n, (s.fails.find s.now u).bind Cell.expiresAt⟩ := by
  obtain ⟨hn, rfl⟩ := hc
  have hn : n = failures s u + 1 := hn
  have hget : (incr s.fails s.now u).2.get s.now u = some (failures s u + 1) := by
    unfold incr
    rw [Table.get_alter_self]
    rfl
  refine ⟨hn, rfl, ?_, ?_⟩
  · show ((incr s.fails s.now u).2.get s.now u).getD 0 = n
    rw [hget, hn]
    rfl
  · show (Login.incr s.fails s.now u).2 u = _
    rw [hn]
    simp [Login.incr, Table.alter, failures]

theorem counted_incr {n : Nat} (h : Bounded p u P) (hn : n = failures P.shared u + 1) :
    counted u ((i, ⟨.incrFail u, n⟩) :: P.log) ≤ n := by
  have hwrong : (if wrongPassword (own i P.log) then 1 else 0) ≤ 1 := by split <;> omega
  simp only [counted, if_true]
  split
  · next hone =>
    have hone : n = 1 := hone
    omega
  · next hmore =>
    have hmore : n ≠ 1 := hmore
    have halive := h.alive _ (failures_pos (by omega))
    omega

/-- An attempt is counted. -/
theorem Bounded.incr {n : Nat} {k : Nat → Prog Cmd Cmd.Resp (Except LoginError User)}
    (h : Bounded p u P) (hk : P.thread i = .step (.incrFail u) k) (hin : LetIn u (own i P.log))
    (hc : sem (.incrFail u) P.shared n s') : Bounded p u (P.after i (.incrFail u) n k s') := by
  obtain ⟨hn, hnow, hfailures, hcell⟩ := incr_spec hc
  have hwait := waiting_after_incr (n := n) s' hk hin
  have htotal := h.total
  have hcounted := counted_incr (i := i) h hn
  have hown : own i (P.after i (.incrFail u) n k s').log = ⟨.incrFail u, n⟩ :: own i P.log :=
    own_cons_self i _ _
  refine ⟨?_, ?_, ?_, ?_, ?_, ?_⟩
  · show failures s' u + _ ≤ _
    omega
  · show counted u ((i, ⟨.incrFail u, n⟩) :: P.log) ≤ _
    omega
  · intro m hm
    show counted u ((i, ⟨.incrFail u, n⟩) :: P.log) ≤ m
    have hm : s'.fails.get s'.now u = some m := hm
    unfold failures at hfailures
    rw [hm, Option.getD_some] at hfailures
    omega
  · intro cell deadline hcell' hd
    show deadline ≤ s'.now + _
    obtain rfl : _ = cell := Option.some.inj (hcell.symm.trans hcell')
    obtain ⟨cell₀, hfind, hd₀⟩ := Option.bind_eq_some_iff.1 hd
    rw [hnow]
    exact h.dated cell₀ deadline (Table.find_eq_some.1 hfind).1 hd₀
  · intro cell hcell' hnone
    obtain rfl : _ = cell := Option.some.inj (hcell.symm.trans hcell')
    cases hfind : P.shared.fails.find P.shared.now u with
    | none =>
      -- the counter was not there, so the attempt has created it
      have hone : n = 1 := by
        rw [hn]
        unfold failures Table.get
        rw [hfind]
        rfl
      subst hone
      refine ⟨i, ?_, ?_⟩
      · rw [hown]
        exact List.mem_cons_self
      · rw [hown]
        intro hm
        rcases List.mem_cons.1 hm with heq | hm
        · cases heq
        · exact hin.undated _ hm
    | some cell₀ =>
      have hnone : (some cell₀).bind Cell.expiresAt = none := hfind ▸ hnone
      obtain ⟨j, hj⟩ := h.undated cell₀ (Table.find_eq_some.1 hfind).1 hnone
      exact ⟨j, creating_after hj nofun⟩
  · intro hfull
    have hfull : p.maxFailures ≤ failures s' u := hfull
    refine .inl ⟨i, .inr ⟨⟨n, ?_, ?_⟩, ?_⟩⟩
    · omega
    · rw [hown]
      exact List.mem_cons_self
    · rw [hown]
      intro hm
      rcases List.mem_cons.1 hm with heq | hm
      · cases heq
      · exact hin.unlocked _ hm

/-- The counter gets its deadline. -/
theorem Bounded.expire {k : Unit → Prog Cmd Cmd.Resp (Except LoginError User)} (h : Bounded p u P)
    (hk : P.thread i = .step (.expireFail u p.failureWindowSeconds) k)
    (hcreated : ⟨.incrFail u, (1 : Nat)⟩ ∈ own i P.log)
    (hunlocked : ⟨.setLock u p.lockoutSeconds, ()⟩ ∉ own i P.log)
    (hroom : failures P.shared u < p.maxFailures ∨ failures P.shared u ≤ 1)
    (hc : sem (.expireFail u p.failureWindowSeconds) P.shared () s') :
    Bounded p u (P.after i (.expireFail u p.failureWindowSeconds) () k s') := by
  have hs' : s' = { P.shared with
    fails := P.shared.fails.expire P.shared.now u p.failureWindowSeconds } := hc
  have hcell : s'.fails u = (P.shared.fails.find P.shared.now u).map fun cell =>
      ⟨cell.val, some (P.shared.now + p.failureWindowSeconds)⟩ := by
    rw [hs']
    exact Function.update_self u _ _
  have hnow : s'.now = P.shared.now := by rw [hs']
  -- a counter that is read afterwards was read before
  have hget {n : Nat} (hn : s'.fails.get s'.now u = some n) :
      P.shared.fails.get P.shared.now u = some n := by
    obtain ⟨cell, hcell', -, hval⟩ := Table.get_eq_some.1 hn
    rw [hcell] at hcell'
    obtain ⟨cell₀, hfind, rfl⟩ := Option.map_eq_some_iff.1 hcell'
    unfold Table.get
    rw [hfind, ← hval]
    rfl
  have hfailures : failures s' u ≤ failures P.shared u := by
    by_cases hpos : 1 ≤ failures s' u
    · have hread := hget (failures_pos hpos)
      have hsame : failures P.shared u = failures s' u := by
        conv_lhs => unfold failures
        rw [hread]
        rfl
      omega
    · omega
  have hwait := waiting_after (r := ()) (u := u) s' hk nofun
  have htotal := h.total
  refine ⟨?_, ?_, ?_, ?_, ?_, ?_⟩
  · show failures s' u + _ ≤ _
    omega
  · exact h.bound
  · exact fun n hn => h.alive n (hget hn)
  · intro cell deadline hcell' hd
    show deadline ≤ s'.now + _
    have hcell' : s'.fails u = some cell := hcell'
    rw [hcell] at hcell'
    obtain ⟨cell₀, -, rfl⟩ := Option.map_eq_some_iff.1 hcell'
    injection hd with hd
    omega
  · intro cell hcell' hnone
    have hcell' : s'.fails u = some cell := hcell'
    rw [hcell] at hcell'
    obtain ⟨cell₀, -, rfl⟩ := Option.map_eq_some_iff.1 hcell'
    cases hnone
  · intro hfull
    have hfull : p.maxFailures ≤ failures s' u := hfull
    -- the counter is full with the failure of this very attempt, which sets the lock next
    have hlocking : Locking p u (own i P.log) := ⟨⟨1, by omega, hcreated⟩, hunlocked⟩
    exact .inl ⟨i, .inr (locking_after hlocking nofun)⟩

/-- The lock is set. -/
theorem Bounded.lock {k : Unit → Prog Cmd Cmd.Resp (Except LoginError User)}
    (hmax : 1 ≤ p.maxFailures) (hpolicy : p.failureWindowSeconds ≤ p.lockoutSeconds)
    (h : Bounded p u P) (hk : P.thread i = .step (.setLock u p.lockoutSeconds) k)
    (hc : sem (.setLock u p.lockoutSeconds) P.shared () s') :
    Bounded p u (P.after i (.setLock u p.lockoutSeconds) () k s') := by
  have hs' : s' = { P.shared with
    locks := P.shared.locks.set u () (some (P.shared.now + p.lockoutSeconds)) } := hc
  have hwait := waiting_after (r := ()) (u := u) s' hk nofun
  have htotal := h.total
  subst hs'
  refine ⟨Nat.le_trans (Nat.add_le_add_left hwait _) htotal, h.bound, h.alive, h.dated, ?_, ?_⟩
  · intro cell hcell hnone
    obtain ⟨j, hj⟩ := h.undated cell hcell hnone
    exact ⟨j, creating_after hj nofun⟩
  · intro hfull
    have hpos : 1 ≤ failures P.shared u := Nat.le_trans hmax hfull
    obtain ⟨cell, hcell, -, -⟩ := Table.get_eq_some.1 (failures_pos hpos)
    cases hd : cell.expiresAt with
    | none =>
      obtain ⟨j, hj⟩ := h.undated cell hcell hd
      exact .inl ⟨j, .inl (creating_after hj nofun)⟩
    | some deadline =>
      have hle := h.dated cell deadline hcell hd
      refine .inr ⟨cell, _, deadline, _, hcell, hd, Table.set_self, rfl, ?_⟩
      omega

/-- An attempt that finds no lock is let in. -/
theorem Bounded.check {r : Bool} {k : Bool → Prog Cmd Cmd.Resp (Except LoginError User)}
    (h : Bounded p u P) (hmax : 1 ≤ p.maxFailures) (hk : P.thread i = .step (.existsLock u) k)
    (hadm : Admissible p u P (.existsLock u)) (hc : sem (.existsLock u) P.shared r s') :
    Bounded p u (P.after i (.existsLock u) r k s') := by
  obtain ⟨hr, rfl⟩ := hc
  refine h.frame rfl rfl rfl ?_ rfl nofun nofun
  cases r with
  | true =>
    have hwait := waiting_after (r := true) (u := u) P.shared hk (by nofun)
    exact Nat.le_trans (Nat.add_le_add_left hwait _) h.total
  | false =>
    have hwait := waiting_after_check (r := false) (u := u) P.shared hk
    have hnone : P.shared.locks.get P.shared.now u = none := by
      have hfalse : (P.shared.locks.get P.shared.now u).isSome = false := hr.symm
      simpa using hfalse
    rcases hadm rfl hnone with hquiet | hroom
    · -- nobody is on the way, so a full counter would have left a lock that outlasts it
      have hempty : waiting u P = ∅ := by
        refine Finset.eq_empty_of_forall_notMem fun j hj => ?_
        exact (hquiet j).1 (mem_waiting.1 hj)
      have hroom : failures P.shared u < p.maxFailures := by
        by_contra hfull
        have hfull := Nat.not_lt.1 hfull
        rcases h.locked hfull with ⟨j, hj⟩ | ⟨cell, lock, deadline, expiry, hcell, hd, hl, he, hle⟩
        · exact (hquiet j).2 hj
        · obtain ⟨cell', hcell', hlive, -⟩ := Table.get_eq_some.1
            (failures_pos (Nat.le_trans hmax hfull))
          obtain rfl : cell = cell' := Option.some.inj (hcell.symm.trans hcell')
          have hlock : lock.live P.shared.now = true := by
            simp only [Cell.live, hd, he, Option.all_some, decide_eq_true_eq] at hlive ⊢
            omega
          rw [Table.get_eq_some.2 ⟨lock, hl, hlock, rfl⟩] at hnone
          cases hnone
      rw [hempty, Finset.card_empty] at hwait
      omega
    · omega

/-- A command keeps the bound, if it is admissible and no success. -/
theorem Bounded.cmd (h : Bounded p u P) (hmax : 1 ≤ p.maxFailures)
    (hpolicy : p.failureWindowSeconds ≤ p.lockoutSeconds) (hk : P.thread i = .step c k)
    {a : Attempt} (hissued : AttemptIssues p a (own i P.log) c) (hadm : Admissible p u P c)
    (hreset : c ≠ .deleteBoth u) (hc : sem c P.shared r s') : Bounded p u (P.after i c r k s') := by
  have hsame (hcheck : ∀ u', c ≠ .existsLock u') :
      failures P.shared u + (waiting u (P.after i c r k s')).card ≤ p.maxFailures := by
    have hwait := waiting_after (r := r) (u := u) s' hk fun heq => by
      cases heq
      exact hcheck u rfl
    exact Nat.le_trans (Nat.add_le_add_left hwait _) h.total
  cases c with
  | existsLock u' =>
    by_cases hu : u' = u
    · subst hu
      exact h.check hmax hk hadm hc
    · obtain ⟨-, rfl⟩ := hc
      have hwait := waiting_after (r := r) (u := u) P.shared hk fun heq => by
        cases heq
        exact hu rfl
      refine h.frame rfl rfl rfl ?_ rfl nofun nofun
      exact Nat.le_trans (Nat.add_le_add_left hwait _) h.total
  | incrFail u' =>
    by_cases hu : u' = u
    · subst hu
      exact h.incr hk hissued.2 hc
    · have hcounted : counted u ((i, ⟨.incrFail u', r⟩) :: P.log) = counted u P.log := by
        simp only [counted, if_neg hu]
      refine h.frame ?_ ?_ ?_ (hsame nofun) hcounted nofun nofun
      · rw [hc.2]
      · rw [hc.2]
        simp only [Login.incr, Table.alter_ne (Ne.symm hu)]
      · rw [hc.2]
  | expireFail u' ttl =>
    by_cases hu : u' = u
    · subst hu
      obtain ⟨-, rfl, hcreated, hunlocked⟩ := hissued
      exact h.expire hk hcreated hunlocked (hadm rfl) hc
    · have hs' : s' = _ := hc
      have hne (ttl' : Nat) : Cmd.expireFail u' ttl ≠ .expireFail u ttl' := by
        intro heq
        cases heq
        exact hu rfl
      refine h.frame ?_ ?_ ?_ (hsame nofun) rfl hne nofun
      · rw [hs']
      · rw [hs']
        exact Table.expire_ne (Ne.symm hu)
      · rw [hs']
  | setLock u' ttl =>
    by_cases hu : u' = u
    · subst hu
      obtain ⟨-, rfl⟩ := hissued
      exact h.lock hmax hpolicy hk hc
    · have hs' : s' = _ := hc
      have hne (ttl' : Nat) : Cmd.setLock u' ttl ≠ .setLock u ttl' := by
        intro heq
        cases heq
        exact hu rfl
      refine h.frame ?_ ?_ ?_ (hsame nofun) rfl nofun hne
      · rw [hs']
      · rw [hs']
      · rw [hs']
        exact Table.set_ne (Ne.symm hu)
  | deleteBoth u' =>
    have hu : u ≠ u' := fun heq => hreset (by rw [heq])
    have hs' : s' = _ := hc
    refine h.frame ?_ ?_ ?_ (hsame nofun) rfl nofun nofun
    · rw [hs']
    · rw [hs']
      exact Table.del_ne hu
    · rw [hs']
      exact Table.del_ne hu
  | getIp ip =>
    obtain ⟨-, rfl⟩ := hc
    exact h.frame rfl rfl rfl (hsame nofun) rfl nofun nofun
  | incrIp ip =>
    obtain ⟨-, rfl⟩ := hc
    exact h.frame rfl rfl rfl (hsame nofun) rfl nofun nofun
  | expireIp ip ttl =>
    have hs' : s' = _ := hc
    subst hs'
    exact h.frame rfl rfl rfl (hsame nofun) rfl nofun nofun
  | getUserByUsername _ | verifyPassword _ _ | appendLoginLog _ =>
    have hs' : s' = P.shared := hc
    subst hs'
    exact h.frame rfl rfl rfl (hsame nofun) rfl nofun nofun

end Cmd

theorem OrderlyReach.bounded {s₀ : Store} (hmax : 1 ≤ p.maxFailures)
    (hpolicy : p.failureWindowSeconds ≤ p.lockoutSeconds) (h₀ : s₀.fails u = none)
    (h : OrderlyReach p u (Attempts.start p s₀ attempt) P) (hreset : NoReset u P.log) :
    Bounded p u P := by
  induction h with
  | refl =>
    have hnone : s₀.fails.get s₀.now u = none := Table.get_of_none h₀
    have hempty : waiting u (Attempts.start p s₀ attempt) = ∅ := by
      refine Finset.eq_empty_of_forall_notMem fun j hj => ?_
      have hpassed := (mem_waiting.1 hj).passed
      cases hpassed
    have hzero : failures s₀ u = 0 := by
      unfold failures
      rw [hnone]
      rfl
    refine ⟨?_, Nat.zero_le _, fun _ _ => Nat.zero_le _, ?_, ?_, ?_⟩
    · rw [hempty]
      show failures s₀ u + 0 ≤ _
      omega
    · intro cell deadline hcell _
      exact absurd (h₀.symm.trans hcell) nofun
    · intro cell hcell _
      exact absurd (h₀.symm.trans hcell) nofun
    · intro hfull
      have hfull : p.maxFailures ≤ failures s₀ u := hfull
      omega
  | @tail P P' hbefore hstep ih =>
    obtain ⟨hstep, hadm⟩ := hstep
    have hfollows := (OrderlyReach.reach hbefore).follows fun i =>
      authenticatePassword_follows (p := p) (a := attempt i)
    cases hstep with
    | env ht => exact (ih hreset).tick hmax ht
    | @run i c k r s' hk hc =>
      have hissued := (hfollows i).2
      rw [hk] at hissued
      have hbefore : Bounded p u P := ih fun e he => hreset e (List.mem_cons_of_mem _ he)
      exact hbefore.cmd hmax hpolicy hk hissued.1 (hadm i c r rfl) (hreset _ List.mem_cons_self) hc

/-- At most `maxFailures` wrong passwords are counted in one life of the counter, if attempts are
let in beside others only while the counter has room for all of them. -/
theorem failures_bounded {s₀ : Store} (hmax : 1 ≤ p.maxFailures)
    (hpolicy : p.failureWindowSeconds ≤ p.lockoutSeconds) (h₀ : s₀.fails u = none)
    (h : OrderlyReach p u (Attempts.start p s₀ attempt) P) (hreset : NoReset u P.log) :
    counted u P.log ≤ p.maxFailures := (OrderlyReach.bounded hmax hpolicy h₀ h hreset).bound

/-- Only attempts that have begun are waiting. -/
theorem card_waiting_le : (waiting u P).card ≤ (P.log.map Prod.fst).dedup.length := by
  classical
  rw [← List.card_toFinset]
  exact Finset.card_le_card (Finset.filter_subset _ _)

end Runs

/-! ## Two attempts that fill the counter, and six at once -/

/-- The policy of the default settings. -/
def defaults : ThrottlePolicy := ⟨5, 900, 900, 50, 300⟩

/-- The commands when every username has a password and every password is wrong. -/
def Cmd.run : (c : Cmd) → Store → c.Resp × Store
  | .existsLock u, s => ((s.locks.get s.now u).isSome, s)
  | .getIp ip, s => (s.ips.get s.now ip, s)
  | .incrFail u, s =>
    ((incr s.fails s.now u).1, { s with fails := (incr s.fails s.now u).2 })
  | .expireFail u ttl, s => ((), { s with fails := s.fails.expire s.now u ttl })
  | .setLock u ttl, s => ((), { s with locks := s.locks.set u () (some (s.now + ttl)) })
  | .incrIp ip, s => ((incr s.ips s.now ip).1, { s with ips := (incr s.ips s.now ip).2 })
  | .expireIp ip ttl, s => ((), { s with ips := s.ips.expire s.now ip ttl })
  | .deleteBoth u, s => ((), { s with fails := s.fails.del u, locks := s.locks.del u })
  | .getUserByUsername _, s => (.ok (some ⟨1, some "argon2"⟩), s)
  | .verifyPassword _ _, s => (false, s)
  | .appendLoginLog _, s => (.ok (), s)

theorem sem_run (c : Cmd) (s : Store) : sem c s (c.run s).1 (c.run s).2 := by
  cases c with
  | existsLock _ | getIp _ | incrFail _ | incrIp _ => exact ⟨rfl, rfl⟩
  | _ => rfl

def noFailures : Store := ⟨0, Table.empty, Table.empty, Table.empty⟩

def alice : Attempt := { username := "alice", password := "guess" }

/-- A policy that allows two failures. -/
def strict : ThrottlePolicy := { defaults with maxFailures := 2 }

inductive Guess
  | first
  | second
  | late
deriving DecidableEq

/-- Two attempts at a time, and one after them. -/
def threeGuesses : Attempts Guess :=
  Pool.play Cmd.run (Attempts.start strict noFailures fun _ => alice)
    [.first, .second, .first, .second, .first, .second, .first, .second, .first, .first, .second,
      .second, .late, .late]

theorem orderly_threeGuesses :
    OrderlyReach strict "alice" (Attempts.start strict noFailures fun _ => alice) threeGuesses := by
  have hnobody : waiting "alice" (Attempts.start strict noFailures fun _ : Guess => alice) = ∅ :=
    Finset.card_eq_zero.1 (Nat.le_zero.1 card_waiting_le)
  -- the counter has room for both
  refine Pool.path_cons sem_run rfl (fun _ _ => .inr ?_) ?_
  · rw [hnobody]
    decide
  refine Pool.path_cons sem_run rfl (fun _ _ => .inr ?_) ?_
  · exact Nat.lt_succ_of_le (Nat.add_le_add_left card_waiting_le 0)
  iterate 7 refine Pool.path_cons sem_run rfl trivial ?_
  -- the counter gets its deadline before the second failure
  refine Pool.path_cons sem_run rfl (fun _ => .inr (Nat.le_refl 1)) ?_
  iterate 2 refine Pool.path_cons sem_run rfl trivial ?_
  -- the third attempt meets the lock
  refine Pool.path_cons sem_run rfl (fun _ hlock => by cases hlock) ?_
  exact Pool.path_cons sem_run rfl trivial .refl

/-- Two wrong passwords are counted, and the third attempt is refused. -/
theorem failures_bounded_threeGuesses :
    threeGuesses.thread .late = .ret (.error authAccountLocked) ∧ counted "alice" threeGuesses.log = 2 ∧
      counted "alice" threeGuesses.log ≤ strict.maxFailures := by
  refine ⟨rfl, rfl, failures_bounded (by decide) (by decide) rfl orderly_threeGuesses ?_⟩
  unfold NoReset
  decide

/-- Six attempts verify their passwords before the first of them is counted. -/
def crowdSchedule : List (Fin 6) :=
  [0, 1, 2, 3, 4, 5, 0, 1, 2, 3, 4, 5, 0, 1, 2, 3, 4, 5, 0, 1, 2, 3, 4, 5, 0, 0, 1, 2, 3, 4, 4, 5, 5]

def crowd : Attempts (Fin 6) :=
  Pool.play Cmd.run (Attempts.start defaults noFailures fun _ => alice) crowdSchedule

/-- Six wrong passwords are counted where five are allowed. -/
theorem crowd_exceeds :
    ¬ ∀ (ι : Type) [DecidableEq ι] (p : ThrottlePolicy) (u : String) (attempt : ι → Attempt)
      (s₀ : Store) (P : Attempts ι), 1 ≤ p.maxFailures →
      p.failureWindowSeconds ≤ p.lockoutSeconds → s₀.fails u = none →
      Pool.Reach sem tick (Attempts.start p s₀ attempt) P → NoReset u P.log →
      counted u P.log ≤ p.maxFailures := by
  intro h
  have hreach : Pool.Reach sem tick (Attempts.start defaults noFailures fun _ => alice) crowd :=
    Pool.reach_play sem_run crowdSchedule _
  have hreset : NoReset "alice" crowd.log := by
    unfold NoReset
    decide
  have hsix : counted "alice" crowd.log = 6 := rfl
  have hle := h (Fin 6) defaults "alice" (fun _ => alice) noFailures crowd (by decide) (by decide) rfl
    hreach hreset
  rw [hsix] at hle
  exact absurd hle (by decide)

end Login
