import Janus.Snowflake.WorkerId

/-!
# Who holds a worker id

A replica holds an id from its claim until it has fired or released. Its key has its token until the
key lapses, and only its own commands move the deadline (`Kept`). As long as no id is claimed whose
holder has let the time to live pass since its last renewal, no two replicas hold one id
(`lease_exclusive`). `partitionedCluster`: a heartbeat that cannot reach Redis finds out after the
key has lapsed.
-/

set_option autoImplicit false

namespace Snowflake

open Conc Redis

/-! ## Holding -/

/-- The id that a replica holds, from its own commands. -/
def holds : Trace Cmd Cmd.Resp → Option Nat
  | [] => none
  | ⟨.setNx workerId _ _, .ok true⟩ :: _ => some workerId
  | ⟨.release _ _, _⟩ :: _ => none
  | ⟨.onLeaseLost, _⟩ :: _ => none
  | _ :: t => holds t

/-- When Redis carried out the last claim or renewal that was answered. -/
def renewedAt : Trace Cmd (Stamped Nat Cmd.Resp) → Nat
  | [] => 0
  | ⟨.setNx _ _ _, (now, .ok true)⟩ :: _ => now
  | ⟨.renew _ _ _, (now, .ok true)⟩ :: _ => now
  | _ :: t => renewedAt t

/-! ## Program order -/

section Order

variable {r : Replica} {t : Trace Cmd Cmd.Resp} {workerId : Nat}

/-- What a replica issues. -/
def LeaseIssues (r : Replica) (t : Trace Cmd Cmd.Resp) : Cmd → Prop
  | .setNx _ token ttlSeconds => token = r.token ∧ ttlSeconds = r.ttlSeconds ∧ holds t = none
  | .renew workerId token ttlSeconds =>
    token = r.token ∧ ttlSeconds = r.ttlSeconds ∧ holds t = some workerId
  | .release _ token => token = r.token
  | _ => True

theorem claimFrom_follows {n candidate : Nat} (h : holds t = none) :
    (claimFrom r n candidate).Follows (LeaseIssues r) (fun result t => match result with
      | .ok (some workerId) => holds t = some workerId
      | _ => holds t = none) t := by
  induction n generalizing candidate t with
  | zero => exact h
  | succ n ih =>
    refine ⟨⟨rfl, rfl, h⟩, fun answer => ?_⟩
    rcases answer with e | _ | _
    · exact h
    · exact ih h
    · exact ⟨trivial, fun _ => rfl⟩

theorem heartbeatRounds_follows {rounds last : Nat} (h : holds t = some workerId) :
    (heartbeatRounds r workerId rounds last).Follows (LeaseIssues r) (fun _ _ => True) t := by
  induction rounds generalizing last t with
  | zero => trivial
  | succ rounds ih =>
    refine ⟨trivial, fun _ => ⟨⟨rfl, rfl, h⟩, fun answer => ?_⟩⟩
    rcases answer with e | _ | _
    · cases e with
      | cancelled => trivial
      | redisError =>
        refine ⟨trivial, fun now => ?_⟩
        show Prog.Follows _ _ (if r.ttlSeconds * 1000 ≤ now - last then _ else _) _
        split
        · exact ⟨trivial, fun _ => trivial⟩
        · exact ih h
    · exact ⟨trivial, fun _ => trivial⟩
    · exact ⟨trivial, fun now => ih h⟩

theorem acquireWorkerId_follows (h : holds t = none) :
    (acquireWorkerId r).Follows (LeaseIssues r) (fun result t => match result with
      | .ok (some workerId) => holds t = some workerId
      | _ => True) t := by
  refine Prog.Follows.bind (claimFrom_follows h) fun result t h => ?_
  rcases result with (_ | _) | _ | workerId
  · show Prog.Follows _ _ (if r.isLocal = true then _ else _) _
    split
    · exact ⟨trivial, fun _ => trivial⟩
    · trivial
  · trivial
  · show Prog.Follows _ _ (if r.isLocal = true then _ else _) _
    split
    · exact ⟨trivial, fun _ => trivial⟩
    · trivial
  · exact h

theorem lifespan_follows : (lifespan r).Follows (LeaseIssues r) (fun _ _ => True) [] := by
  refine Prog.Follows.bind (acquireWorkerId_follows rfl) fun result t h => ?_
  rcases result with _ | _ | workerId
  · trivial
  · trivial
  · have hbeat : (runHeartbeat r workerId).Follows (LeaseIssues r) (fun _ _ => True) t :=
      ⟨trivial, fun now => heartbeatRounds_follows h⟩
    exact Prog.Follows.bind hbeat fun _ t _ => ⟨rfl, fun _ => trivial⟩

end Order

/-! ## Keys -/

section Keys

variable {s s' : Leases} {workerId workerId' ttlSeconds : Nat} {token : String} {cell : Cell String}

theorem token_of_live (h : s.keys workerId = some cell) (hlive : cell.live s.now = true) :
    s.token workerId = some cell.val := Table.get_eq_some.2 ⟨cell, h, hlive, rfl⟩

/-- A key is read with its own token or not at all. -/
theorem token_ne (h : s.keys workerId = some cell) (hne : cell.val ≠ token) :
    s.token workerId ≠ some token := by
  intro hread
  obtain ⟨cell', hcell', -, hval⟩ := Table.get_eq_some.1 hread
  rw [h] at hcell'
  cases hcell'
  exact hne hval

theorem renew_other (h : s.keys workerId = some cell) (hne : cell.val ≠ token) :
    (s.renew workerId' token ttlSeconds).2.keys workerId = s.keys workerId := by
  unfold Leases.renew
  split
  · next hread =>
    have hkey : workerId ≠ workerId' := by
      intro heq
      rw [heq] at h
      exact token_ne h hne hread
    exact Table.expire_ne hkey
  · rfl

theorem release_other (h : s.keys workerId = some cell) (hne : cell.val ≠ token) :
    (s.release workerId' token).2.keys workerId = s.keys workerId := by
  unfold Leases.release
  split
  · next hread =>
    have hkey : workerId ≠ workerId' := by
      intro heq
      rw [heq] at h
      exact token_ne h hne hread
    exact Table.del_ne hkey
  · rfl

/-- A live key is not claimed. -/
theorem setNx_other (h : s.keys workerId = some cell)
    (hlive : workerId' = workerId → cell.live s.now = true) :
    (s.setNx workerId' token ttlSeconds).2.keys workerId = s.keys workerId := by
  unfold Leases.setNx
  split
  · next hnone =>
    have hkey : workerId ≠ workerId' := by
      intro heq
      rw [← heq, token_of_live h (hlive heq.symm)] at hnone
      cases hnone
    exact Table.set_ne hkey
  · rfl

theorem now_setNx : (s.setNx workerId token ttlSeconds).2.now = s.now := by
  unfold Leases.setNx
  split <;> rfl

theorem now_renew : (s.renew workerId token ttlSeconds).2.now = s.now := by
  unfold Leases.renew
  split <;> rfl

theorem now_release : (s.release workerId token).2.now = s.now := by
  unfold Leases.release
  split <;> rfl

/-- A renewal moves the deadline of its own key, or does nothing. -/
theorem renew_self {deadline : Nat} (h : s.keys workerId = some ⟨token, some deadline⟩) :
    (s.renew workerId token ttlSeconds).2.keys workerId =
      some ⟨token, some (s.now + ttlSeconds * 1000)⟩ ∨
    s.renew workerId token ttlSeconds = (false, s) := by
  unfold Leases.renew
  split
  · next hread =>
    left
    obtain ⟨cell, hcell, hlive, -⟩ := Table.get_eq_some.1 hread
    rw [h] at hcell
    cases hcell
    show s.keys.expire s.now workerId (ttlSeconds * 1000) workerId = _
    unfold Table.expire
    rw [Function.update_self, Table.find_eq_some.2 ⟨h, hlive⟩]
    rfl
  · exact .inr rfl

end Keys

/-! ## Runs -/

section Runs

variable {ι : Type} [DecidableEq ι] {replica : ι → Replica} {s₀ : Leases}

abbrev Cluster (ι : Type) := Pool ι Cmd (Stamped Nat Cmd.Resp) Unit Leases

/-- The id that a replica of the cluster holds. -/
def Cluster.holds (P : Cluster ι) (i : ι) : Option Nat := Snowflake.holds (Trace.plain (own i P.log))

/-- Replicas that have not begun yet. -/
def Cluster.start (s₀ : Leases) (replica : ι → Replica) : Cluster ι :=
  Pool.start s₀ fun i => (lifespan (replica i)).stamped

abbrev Cluster.Step : Cluster ι → Cluster ι → Prop :=
  Pool.Step (sem.stamped Leases.now) Passes

/-- If the step is a claim of an id that is carried out, answered or not, then its holders have been
renewed within their time to live. -/
def InTime (replica : ι → Replica) (P P' : Cluster ι) : Prop :=
  ∀ j workerId token ttlSeconds answer,
    P'.log = (j, ⟨.setNx workerId token ttlSeconds, answer⟩) :: P.log →
    P'.shared.keys workerId ≠ P.shared.keys workerId → ∀ i, P.holds i = some workerId →
      P.shared.now < renewedAt (own i P.log) + (replica i).ttlSeconds * 1000

/-- The runs all of whose claims are in time. -/
abbrev TimelyReach (replica : ι → Replica) : Cluster ι → Cluster ι → Prop :=
  Relation.ReflTransGen fun P P' => P.Step P' ∧ InTime replica P P'

/-- The key of an id that is held has the holder's token, and a deadline that its last renewal
bounds from below. -/
def Kept (replica : ι → Replica) (s : Leases) (l : Log ι Cmd (Stamped Nat Cmd.Resp)) : Prop :=
  ∀ i workerId, Snowflake.holds (Trace.plain (own i l)) = some workerId →
    renewedAt (own i l) ≤ s.now ∧
    ∃ deadline, s.keys workerId = some ⟨(replica i).token, some deadline⟩ ∧
      renewedAt (own i l) + (replica i).ttlSeconds * 1000 ≤ deadline

theorem Kept.env {s s' : Leases} {l : Log ι Cmd (Stamped Nat Cmd.Resp)} (h : Kept replica s l)
    (he : Passes s s') : Kept replica s' l := by
  obtain ⟨now, hle, rfl⟩ := he
  intro i workerId hholds
  obtain ⟨hnow, hkey⟩ := h i workerId hholds
  exact ⟨hnow.trans hle, hkey⟩

/-- What a command of another replica does to the key of a holder. -/
theorem keys_other {c : Cmd} {t : Trace Cmd Cmd.Resp} {r : Replica} {answer : c.Resp} {s s' : Leases}
    {workerId : Nat} {cell : Cell String} (hissued : LeaseIssues r t c) (hE : sem c s answer s')
    (hcell : s.keys workerId = some cell) (hne : cell.val ≠ r.token)
    (hlive : ∀ token ttlSeconds, c = .setNx workerId token ttlSeconds →
      s'.keys workerId ≠ s.keys workerId → cell.live s.now = true) :
    s'.keys workerId = s.keys workerId ∧ s.now ≤ s'.now := by
  cases c with
  | setNx workerId' token ttlSeconds =>
    have hpassed : s.now ≤ s'.now := by
      rcases hE with ⟨-, rfl⟩ | ⟨-, rfl | rfl⟩
      · exact Nat.le_of_eq now_setNx.symm
      · exact Nat.le_of_eq now_setNx.symm
      · exact Nat.le_refl _
    refine ⟨?_, hpassed⟩
    by_contra hmoved
    have hkeys : (s.setNx workerId' token ttlSeconds).2.keys workerId = s.keys workerId := by
      refine setNx_other hcell fun heq => ?_
      subst heq
      exact hlive token ttlSeconds rfl hmoved
    rcases hE with ⟨-, rfl⟩ | ⟨-, rfl | rfl⟩
    · exact hmoved hkeys
    · exact hmoved hkeys
    · exact hmoved rfl
  | renew workerId' token ttlSeconds =>
    obtain ⟨rfl, -, -⟩ := hissued
    have hkeys : (s.renew workerId' r.token ttlSeconds).2.keys workerId = s.keys workerId :=
      renew_other hcell hne
    rcases hE with ⟨-, rfl⟩ | ⟨-, rfl | rfl⟩
    · exact ⟨hkeys, Nat.le_of_eq now_renew.symm⟩
    · exact ⟨hkeys, Nat.le_of_eq now_renew.symm⟩
    · exact ⟨rfl, Nat.le_refl _⟩
  | release workerId' token =>
    cases hissued
    have hkeys : (s.release workerId' r.token).2.keys workerId = s.keys workerId :=
      release_other hcell hne
    rcases hE with ⟨-, rfl⟩ | ⟨-, rfl | rfl⟩
    · exact ⟨hkeys, Nat.le_of_eq now_release.symm⟩
    · exact ⟨hkeys, Nat.le_of_eq now_release.symm⟩
    · exact ⟨rfl, Nat.le_refl _⟩
  | sleep seconds =>
    obtain ⟨now, hle, rfl⟩ := hE
    exact ⟨rfl, hle⟩
  | setWorkerId _ =>
    cases hE
    exact ⟨rfl, Nat.le_refl _⟩
  | monotonic =>
    cases hE
    exact ⟨rfl, Nat.le_refl _⟩
  | onLeaseLost =>
    cases hE
    exact ⟨rfl, Nat.le_refl _⟩

/-- What a command of its own does to the key of a holder. -/
theorem keys_self {c : Cmd} {t : Trace Cmd (Stamped Nat Cmd.Resp)} {r : Replica} {answer : c.Resp}
    {s s' : Leases} {workerId : Nat} (hissued : LeaseIssues r (Trace.plain t) c)
    (hE : sem c s answer s')
    (hold : holds (Trace.plain t) = some workerId → renewedAt t ≤ s.now ∧
      ∃ deadline, s.keys workerId = some ⟨r.token, some deadline⟩ ∧
        renewedAt t + r.ttlSeconds * 1000 ≤ deadline)
    (hholds : holds (⟨c, answer⟩ :: Trace.plain t) = some workerId) :
    renewedAt (⟨c, (s.now, answer)⟩ :: t) ≤ s'.now ∧
      ∃ deadline, s'.keys workerId = some ⟨r.token, some deadline⟩ ∧
        renewedAt (⟨c, (s.now, answer)⟩ :: t) + r.ttlSeconds * 1000 ≤ deadline := by
  cases c with
  | setNx workerId' token ttlSeconds =>
    obtain ⟨rfl, rfl, hnone⟩ := hissued
    have hkept (hfalse : answer ≠ .ok true) : False := by
      have hsame : holds (⟨.setNx workerId' r.token r.ttlSeconds, answer⟩ :: Trace.plain t) =
          holds (Trace.plain t) := by
        rcases answer with e | _ | _
        · rfl
        · rfl
        · exact absurd rfl hfalse
      rw [hsame, hnone] at hholds
      cases hholds
    rcases answer with e | _ | _
    · exact (hkept nofun).elim
    · exact (hkept nofun).elim
    · cases hholds
      rcases hE with ⟨hok, rfl⟩ | ⟨⟨e, he⟩, -⟩
      · injection hok with hok
        unfold Leases.setNx at hok ⊢
        split at hok
        · next hfree =>
          rw [if_pos hfree]
          exact ⟨Nat.le_refl _, _, Table.set_self, Nat.le_refl _⟩
        · cases hok
      · cases he
  | renew workerId' token ttlSeconds =>
    obtain ⟨rfl, rfl, hown⟩ := hissued
    cases hown.symm.trans hholds
    obtain ⟨hnow, deadline, hkey, hle⟩ := hold hown
    have hmoved : (s.renew workerId r.token r.ttlSeconds).2.keys workerId =
        some ⟨r.token, some (s.now + r.ttlSeconds * 1000)⟩ ∨
      s.renew workerId r.token r.ttlSeconds = (false, s) := renew_self hkey
    rcases hE with ⟨rfl, rfl⟩ | ⟨⟨e, rfl⟩, hcarried⟩
    · rcases hmoved with hmoved | hlapsed
      · rw [now_renew]
        cases hanswer : (s.renew workerId r.token r.ttlSeconds).1 with
        | true => exact ⟨Nat.le_refl _, _, hmoved, Nat.le_refl _⟩
        | false => exact ⟨hnow, _, hmoved, Nat.add_le_add_right hnow _⟩
      · rw [hlapsed]
        exact ⟨hnow, deadline, hkey, hle⟩
    · rcases hcarried with rfl | rfl
      · rcases hmoved with hmoved | hlapsed
        · rw [now_renew]
          exact ⟨hnow, _, hmoved, Nat.add_le_add_right hnow _⟩
        · rw [hlapsed]
          exact ⟨hnow, deadline, hkey, hle⟩
      · exact ⟨hnow, deadline, hkey, hle⟩
  | release _ _ => cases hholds
  | onLeaseLost => cases hholds
  | sleep seconds =>
    obtain ⟨now, hpassed, rfl⟩ := hE
    obtain ⟨hnow, hkey⟩ := hold hholds
    exact ⟨hnow.trans hpassed, hkey⟩
  | setWorkerId _ =>
    cases hE
    exact hold hholds
  | monotonic =>
    cases hE
    exact hold hholds

theorem TimelyReach.reach {P₀ P : Cluster ι} (h : TimelyReach replica P₀ P) :
    Pool.Reach (sem.stamped Leases.now) Passes P₀ P := by
  induction h with
  | refl => exact .refl
  | tail _ hstep ih => exact ih.tail hstep.1

theorem TimelyReach.kept {P : Cluster ι} (htokens : Function.Injective fun i => (replica i).token)
    (h : TimelyReach replica (Cluster.start s₀ replica) P) : Kept replica P.shared P.log := by
  induction h with
  | refl => exact fun i workerId hholds => nomatch hholds
  | @tail P P' hbefore hstep ih =>
    obtain ⟨hstep, htime⟩ := hstep
    have hfollows := (TimelyReach.reach hbefore).follows fun i =>
      Prog.Follows.stamped (T := Nat) (t := []) (lifespan_follows (r := replica i))
    cases hstep with
    | env he => exact ih.env he
    | @run j c k answer s' hk hE =>
      obtain ⟨hstamp, hE⟩ := hE
      have hissued := (hfollows j).2
      rw [hk] at hissued
      have hissued : LeaseIssues (replica j) (Trace.plain (own j P.log)) c := hissued.1
      obtain ⟨τ, answer⟩ := answer
      change τ = P.shared.now at hstamp
      subst hstamp
      intro i workerId hholds
      by_cases hij : j = i
      · subst hij
        rw [own_cons_self] at hholds ⊢
        exact keys_self hissued hE (ih j workerId) hholds
      · rw [own_cons_ne hij] at hholds ⊢
        obtain ⟨hnow, deadline, hkey, hle⟩ := ih i workerId hholds
        have hne : (replica i).token ≠ (replica j).token := fun heq => hij (htokens heq.symm)
        have hlive (token : String) (ttlSeconds : Nat) (hc : c = .setNx workerId token ttlSeconds)
            (hclaimed : s'.keys workerId ≠ P.shared.keys workerId) :
            (⟨(replica i).token, some deadline⟩ : Cell String).live P.shared.now = true := by
          subst hc
          have hlt := htime j workerId token ttlSeconds _ rfl hclaimed i hholds
          unfold Cell.live
          simp only [Option.all_some, decide_eq_true_eq]
          omega
        obtain ⟨hkeys, hpassed⟩ := keys_other hissued hE hkey hne hlive
        exact ⟨hnow.trans hpassed, deadline, hkeys.trans hkey, hle⟩

/-- No two replicas hold one id, as long as no id is claimed whose holder has let its time to live
pass since its last renewal. -/
theorem lease_exclusive {P : Cluster ι} (htokens : Function.Injective fun i => (replica i).token)
    (h : TimelyReach replica (Cluster.start s₀ replica) P) :
    ∀ i j workerId, P.holds i = some workerId → P.holds j = some workerId → i = j := by
  intro i j workerId hi hj
  obtain ⟨-, deadline, hkey, -⟩ := TimelyReach.kept htokens h i workerId hi
  obtain ⟨-, deadline', hkey', -⟩ := TimelyReach.kept htokens h j workerId hj
  rw [hkey] at hkey'
  injection hkey' with hcell
  injection hcell with htoken _
  exact htokens htoken

end Runs

/-! ## Two replicas -/

/-- The commands when nothing fails; a replica that sleeps lets the time pass. -/
def Cmd.run : (c : Cmd) → Leases → c.Resp × Leases
  | .setNx workerId token ttlSeconds, s =>
    (.ok (s.setNx workerId token ttlSeconds).1, (s.setNx workerId token ttlSeconds).2)
  | .renew workerId token ttlSeconds, s =>
    (.ok (s.renew workerId token ttlSeconds).1, (s.renew workerId token ttlSeconds).2)
  | .release workerId token, s => (.ok (s.release workerId token).1, (s.release workerId token).2)
  | .setWorkerId _, s => ((), s)
  | .sleep seconds, s => ((), { s with now := s.now + seconds * 1000 })
  | .monotonic, s => (s.now, s)
  | .onLeaseLost, s => ((), s)

theorem sem_run (c : Cmd) (s : Leases) : sem c s (c.run s).1 (c.run s).2 := by
  cases c with
  | sleep seconds => exact ⟨s.now + seconds * 1000, Nat.le_add_right _ _, rfl⟩
  | setNx _ _ _ => exact .inl ⟨rfl, rfl⟩
  | renew _ _ _ => exact .inl ⟨rfl, rfl⟩
  | release _ _ => exact .inl ⟨rfl, rfl⟩
  | _ => rfl

def twoReplicas (i : Bool) : Replica := ⟨if i then "b" else "a", 30, false, 10⟩

def noLeases : Leases := ⟨0, Table.empty⟩

/-- The commands with the time at which they run. -/
def Cmd.runStamped (c : Cmd) (s : Leases) : (Nat × c.Resp) × Leases :=
  ((s.now, (c.run s).1), (c.run s).2)

theorem sem_runStamped (c : Cmd) (s : Leases) :
    sem.stamped Leases.now c s (c.runStamped s).1 (c.runStamped s).2 := ⟨rfl, sem_run c s⟩

/-- Both start, and the second finds the first id taken. -/
def startedCluster : Cluster Bool :=
  Pool.play Cmd.runStamped (Cluster.start noLeases twoReplicas) [false, true, true]

theorem startedCluster_timely :
    TimelyReach twoReplicas (Cluster.start noLeases twoReplicas) startedCluster := by
  have hfree {P P' : Cluster Bool} {j : Bool} {workerId : Nat} {answer : Nat × Except Raised Bool}
      (hlog : P'.log = (j, ⟨.setNx workerId (twoReplicas j).token 30, answer⟩) :: P.log)
      (hheld : P'.shared.keys workerId = P.shared.keys workerId ∨ ∀ i, P.holds i ≠ some workerId) :
      InTime twoReplicas P P' := by
    intro j' workerId' token ttlSeconds answer' hlog' hclaimed i hi
    rw [hlog] at hlog'
    cases hlog'
    rcases hheld with hrefused | hnone
    · exact absurd hrefused hclaimed
    · exact absurd hi (hnone i)
  have hstep {P : Cluster Bool} {i : Bool} {c : Cmd} {k : Nat × c.Resp → Prog _ _ Unit}
      (hk : P.thread i = .step c k) : P.Step (Pool.advance Cmd.runStamped P i) :=
    Pool.step_advance sem_runStamped hk
  refine .tail (.tail (.tail .refl ⟨hstep (i := false) rfl, hfree (j := false) rfl (.inr ?_)⟩)
    ⟨hstep (i := true) rfl, hfree (j := true) rfl (.inl rfl)⟩)
    ⟨hstep (i := true) rfl, hfree (j := true) rfl (.inr ?_)⟩
  · decide
  · decide

theorem lease_exclusive_started : startedCluster.holds false = some 0 ∧
    startedCluster.holds true = some 1 ∧
    ∀ i j workerId, startedCluster.holds i = some workerId → startedCluster.holds j = some workerId →
      i = j :=
  ⟨by decide, by decide, lease_exclusive (by decide) startedCluster_timely⟩

/-- The heartbeat of the first replica cannot reach Redis; the second one starts after 30 seconds. -/
def partitionedCluster : Cluster Bool :=
  let cut (c : Cmd) (s : Leases) : (Nat × c.Resp) × Leases :=
    match c with
    | .renew _ _ _ => ((s.now, .error .redisError), s)
    | c => c.runStamped s
  Pool.play cut (Cluster.start noLeases twoReplicas)
    [false, false, false, false, false, false, false, false, false, false, true]

theorem lapsed_twice_held :
    Pool.Reach (sem.stamped Leases.now) Passes (Cluster.start noLeases twoReplicas)
      partitionedCluster ∧
    partitionedCluster.holds false = some 0 ∧ partitionedCluster.holds true = some 0 := by
  refine ⟨?_, by decide, by decide⟩
  apply Pool.reach_play
  intro c s
  cases c with
  | renew workerId token ttlSeconds => exact ⟨rfl, .inr ⟨⟨.redisError, rfl⟩, .inr rfl⟩⟩
  | _ => exact sem_runStamped _ s

end Snowflake
