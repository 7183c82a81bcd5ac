import Janus.Gateway.Proof.Outbox
import Janus.Gateway.Served

/-!
# One row for each request

The queue delivers at least once (`event_conserved`), the unique index makes it at most once
(`ids_unique`), and the name of a request tells its events from those of the others
(`rows_origin`). So a drained system has exactly one row for each request (`billed_once`), provided
that no two requests have one name and that no outbox was full. `shared_id_billed_once`: two
requests with the same `X-Request-ID` make one row.
-/

set_option autoImplicit false

namespace Events

open Conc Python

/-! ## Rows of the table -/

section Table

variable {table rows : List Row} {id : Value}

theorem insertRow_mem {row row' : Row} (h : row' ∈ insertRow table row) :
    row' ∈ table ∨ row' = row := by
  unfold insertRow at h
  split at h
  · exact .inl h
  · rcases List.mem_append.1 h with h | h
    · exact .inl h
    · exact .inr (List.mem_singleton.1 h)

theorem insert_origin {row : Row} (h : row ∈ insertIgnoreConflicts table rows) :
    row ∈ table ∨ row ∈ rows := by
  unfold insertIgnoreConflicts at h
  induction rows generalizing table with
  | nil => exact .inl h
  | cons first rows ih =>
    rcases ih h with h | h
    · rcases insertRow_mem h with h | rfl
      · exact .inl h
      · exact .inr List.mem_cons_self
    · exact .inr (List.mem_cons_of_mem _ h)

/-- The unique index. -/
theorem insert_unique (hid : id.isSome = true) (h : table.countP (·.requestId = id) ≤ 1) :
    (insertIgnoreConflicts table rows).countP (·.requestId = id) ≤ 1 := by
  unfold insertIgnoreConflicts
  induction rows generalizing table with
  | nil => exact h
  | cons row rows ih =>
    refine ih ?_
    unfold insertRow
    split
    · exact h
    · next hfree =>
      rw [List.countP_append, countP_single]
      by_cases hrow : row.requestId = id
      · have hzero : table.countP (·.requestId = id) = 0 := by
          refine List.countP_eq_zero.2 fun other hother hsame => hfree ⟨by rwa [hrow], ?_⟩
          have hother' : other.requestId = row.requestId := by
            rw [hrow]
            exact of_decide_eq_true hsame
          exact List.any_eq_true.2 ⟨other, hother, decide_eq_true hother'⟩
        rw [hzero, decide_eq_true hrow]
        exact Nat.le_refl 1
      · rw [decide_eq_false hrow, Bool.toNat_false]
        exact h

/-- An element that `p` picks once is all that it picks. -/
theorem filter_eq_single {α : Type} {l : List α} {p : α → Bool} {a : α} (ha : a ∈ l)
    (hp : p a = true) (hcount : l.countP p ≤ 1) : l.filter p = [a] := by
  have hmem : a ∈ l.filter p := List.mem_filter.2 ⟨ha, hp⟩
  rw [List.countP_eq_length_filter] at hcount
  match hl : l.filter p, hmem, hcount with
  | [b], hmem, _ => rw [List.mem_singleton.1 hmem]
  | b :: c :: rest, _, hcount =>
    simp only [List.length_cons] at hcount
    omega

end Table

/-! ## Requests -/

section Billing

variable {ι : Type} [DecidableEq ι] {py : Builtins} {fits : Row → Bool} {text : Rat → String}
  {served : ι → Option Served} {s₀ : State} {P : Pool ι Cmd Cmd.Resp Unit State}

/-- The event of a request. -/
def Served.raw (text : Rat → String) (request : Served) : Raw := .json (.dict (request.payload text))

theorem requestId_payload (request : Served) :
    requestId (request.payload text) = .str request.http.requestId := rfl

omit [DecidableEq ι] in
theorem job_of_served {i : ι} {rounds : Nat} {payload : Fields}
    (h : servedJob text (served i) = .enqueueUsageEvent rounds payload) :
    ∃ request, served i = some request ∧ payload = request.payload text := by
  cases hi : served i with
  | none =>
    rw [hi] at h
    cases h
  | some request =>
    rw [hi] at h
    cases h
    exact ⟨request, rfl, rfl⟩

/-- Nothing is on its way to the table: the lists are empty, and no call has an item of the outbox
in hand. -/
structure Drained (P : Pool ι Cmd Cmd.Resp Unit State) : Prop where
  outbox : P.shared.outbox = []
  pending : P.shared.pending = []
  inflight : P.shared.inflight = []
  dlq : P.shared.dlq = []
  hands : ∀ i, (Events.hands (own i P.log)).1 = none

/-- Every row is the row of a request. -/
theorem rows_origin (h : Reach py fits s₀ (fun i => servedJob text (served i)) P)
    (hlists : Lists (fun _ => False) (fun _ => False) s₀) (htable : s₀.table = []) :
    ∀ row ∈ P.shared.table, ∃ i request, served i = some request ∧
      toUsageRow py (request.payload text) = .ok row := by
  have hitems {P : Pool ι Cmd Cmd.Resp Unit State}
      (h : Reach py fits s₀ (fun i => servedJob text (served i)) P) :
      Everywhere (fun raw => ∃ i request, served i = some request ∧ raw = request.raw text)
        (fun raw => ∃ i request, served i = some request ∧ core raw = core (request.raw text))
        (fun i => servedJob text (served i)) P.shared P.log := by
    refine everywhere_run h
      ⟨fun raw hraw => (hlists.outbox raw hraw).elim, fun raw hraw => (hlists.pending raw hraw).elim,
        fun envelope henvelope raw hraw => (hlists.inflight envelope henvelope raw hraw).elim⟩
      (fun i rounds payload hjob => ?_) (fun ⟨i, request, hi, hraw⟩ => ⟨i, request, hi, by rw [hraw]⟩)
      (fun ⟨i, request, hi, hcore⟩ hrecord hincr _ => ?_)
    · obtain ⟨request, hi, rfl⟩ := job_of_served hjob
      exact ⟨i, request, hi, rfl⟩
    · exact ⟨i, request, hi, (incrementAttempt_eq hrecord hincr).1.trans hcore⟩
  induction h with
  | refl =>
    intro row hrow
    change row ∈ s₀.table at hrow
    rw [htable] at hrow
    cases hrow
  | @tail P' P'' hbefore hstep ih =>
    cases hstep with
    | env he =>
      obtain ⟨nowMs, rfl⟩ := he
      exact ih
    | @run j c k r s' hk hE =>
      intro row hrow
      rcases table_eq hE with heq | ⟨rows, n, hev, heq⟩
      · exact ih row (heq ▸ hrow)
      · cases hev
        change row ∈ s'.table at hrow
        rw [heq] at hrow
        rcases insert_origin hrow with hrow | hrow
        · exact ih row hrow
        · have hfollows := (Pool.Reach.follows
            (jobs_follow py fun i => servedJob text (served i)) hbefore j).2
          rw [hk] at hfollows
          have hissued := hfollows.1
          cases hj : served j with
          | some request =>
            rw [hj] at hissued
            cases hissued
          | none =>
            rw [hj] at hissued
            change usageRows py [] (records (own j P'.log)) = .ok rows ∧ _ at hissued
            obtain ⟨fields, hfields, hown⟩ := usageRows_mem hissued.1 hrow
            obtain ⟨raw, hraw, hrecord⟩ := List.mem_filterMap.1 hfields
            obtain ⟨i, request, hi, hcore⟩ := (hitems hbefore).claimed j raw hraw
            have hsame : toUsageRow py fields = toUsageRow py (request.payload text) ∧
              requestId fields = requestId (request.payload text) := core_row hcore hrecord rfl
            exact ⟨i, request, hi, hsame.1 ▸ hown⟩

/-- The unique index holds at all times. -/
theorem ids_unique {job : ι → Job} {id : Value} (h : Reach py fits s₀ job P)
    (hid : id.isSome = true) (htable : s₀.table = []) :
    P.shared.table.countP (·.requestId = id) ≤ 1 := by
  refine Pool.Reach.invariant (J := fun s _ => s.table.countP (·.requestId = id) ≤ 1)
    (jobs_follow py job) ?_ (fun _ hJ _ hE => ?_) (fun hJ he => ?_) h
  · rw [htable]
    exact Nat.zero_le 1
  · rcases table_eq hE with heq | ⟨rows, n, -, heq⟩
    · rw [heq]
      exact hJ
    · rw [heq]
      exact insert_unique hid hJ
  · obtain ⟨nowMs, rfl⟩ := he
    exact hJ

/-- A worker does not touch the outbox. -/
theorem worker_outbox {t : Trace Cmd Cmd.Resp} {p : Raw → Bool}
    (h : Trace.Guarded (WorkerIssues py) t) : tally (parks p) t = 0 ∧ tally (takes p) t = 0 := by
  induction t with
  | nil => exact ⟨rfl, rfl⟩
  | cons ev t ih =>
    obtain ⟨hguard, ht⟩ := h
    obtain ⟨hparks, htakes⟩ := ih ht
    rw [tally_cons, tally_cons, hparks, htakes]
    rcases ev with ⟨c, r⟩
    cases c with
    | outboxPopleft => cases hguard
    | outboxAppend raw => cases hguard
    | outboxAppendleft raw => cases hguard
    | _ => exact ⟨rfl, rfl⟩

omit [DecidableEq ι] in
theorem tally_drops {l : Log ι Cmd Cmd.Resp} {p : Raw → Bool}
    (h : ∀ raw ∈ dropped l, p raw = false) : (l.map fun ev => drops p ev.2).sum = 0 := by
  induction l with
  | nil => rfl
  | cons e l ih =>
    have hlater : ∀ raw ∈ dropped l, p raw = false := fun raw hraw => h raw (dropped_sub hraw)
    rw [List.map_cons, List.sum_cons, ih hlater]
    obtain ⟨i, c, r⟩ := e
    have hr {r : Option Raw} (hmem : ∀ raw ∈ r.toList, p raw = false) :
        (r.any p).toNat + 0 = 0 := by
      cases r with
      | none => rfl
      | some raw =>
        rw [Option.any_some, hmem raw List.mem_cons_self]
        rfl
    cases c with
    | outboxAppend raw => exact hr fun raw hraw => h raw (List.mem_append_right _ hraw)
    | outboxAppendleft raw => exact hr fun raw hraw => h raw (List.mem_append_right _ hraw)
    | _ => rfl

/-- The event of a finished request has reached Redis. -/
theorem reached_of_drained [Fintype ι] {e : Raw} {i : ι} {request : Served}
    (h : Reach py fits s₀ (fun i => servedJob text (served i)) P) (houtbox : s₀.outbox = [])
    (hkept : ∀ raw ∈ dropped P.log, copyOf e raw = false) (hdrained : Drained P)
    (hi : served i = some request) (hover : hands (own i P.log) = (none, false))
    (he : copyOf e (request.raw text) = true) :
    0 < ∑ i, enqueued e (servedJob text (served i)) (own i P.log) := by
  have hledger := outbox_ledger (p := copyOf e) h
  have htakes : ∑ i, tally (takes (copyOf e)) (own i P.log) = _ := sum_own _ P.log
  have hparks : ∑ i, tally (parks (copyOf e)) (own i P.log) = _ := sum_own _ P.log
  rw [hdrained.outbox, houtbox, tally_drops hkept, ← htakes, ← hparks, List.countP_nil] at hledger
  -- each thread passes on what it takes, and the finished one its own event
  have hthread (k : ι) : tally (takes (copyOf e)) (own k P.log) + (if k = i then 1 else 0) ≤
      enqueued e (servedJob text (served k)) (own k P.log) + tally (parks (copyOf e)) (own k P.log) := by
    have hguarded := (h.follows (jobs_follow py fun i => servedJob text (served i)) k).1
    cases hk : served k with
    | none =>
      rw [hk] at hguarded
      have hki : k ≠ i := by
        rintro rfl
        rw [hi] at hk
        cases hk
      obtain ⟨hparks, htakes⟩ := worker_outbox (p := copyOf e) hguarded
      rw [hparks, htakes, if_neg hki]
      exact Nat.zero_le _
    | some other =>
      rw [hk] at hguarded
      have hbalance := request_balanced (p := copyOf e) hguarded
      show _ ≤ tally (sends (copyOf e)) (own k P.log) + _
      unfold held at hbalance
      rw [hdrained.hands k, Option.any_none, Bool.toNat_false] at hbalance
      by_cases hki : k = i
      · subst hki
        cases hi.symm.trans hk
        change _ = _ + (copyOf e (request.raw text)).toNat at hbalance
        rw [hover, he, Bool.toNat_true, Bool.false_and, Bool.toNat_false] at hbalance
        rw [if_pos rfl]
        omega
      · have hheld : ((hands (own k P.log)).2 && copyOf e (.json (.dict (other.payload text)))).toNat ≤
            (copyOf e (.json (.dict (other.payload text)))).toNat := by
          cases (hands (own k P.log)).2 with
          | true => exact Nat.le_refl _
          | false => exact Nat.zero_le _
        rw [if_neg hki]
        omega
  have hsum := Finset.sum_le_sum fun k (_ : k ∈ Finset.univ) => hthread k
  rw [Finset.sum_add_distrib, Finset.sum_add_distrib, Finset.sum_ite_eq' Finset.univ i,
    if_pos (Finset.mem_univ i)] at hsum
  omega

/-- In a drained system there is exactly one row with the name of a finished request, and it is the
request's own, provided that no other request has the name and no outbox has dropped the event. -/
theorem billed_once [Fintype ι] (h : Reach py fits s₀ (fun i => servedJob text (served i)) P)
    (hlists : Lists (fun _ => False) (fun _ => False) s₀) (htable : s₀.table = [])
    (hdrained : Drained P) {i : ι} {request : Served} (hi : served i = some request)
    (hover : hands (own i P.log) = (none, false))
    (hname : ∀ j other, served j = some other →
      other.http.requestId = request.http.requestId → j = i)
    (hkept : ∀ raw ∈ dropped P.log, core raw ≠ core (request.raw text)) :
    ∃ row, toUsageRow py (request.payload text) = .ok row ∧
      P.shared.table.filter (·.requestId = .str request.http.requestId) = [row] := by
  have houtbox : s₀.outbox = [] := List.eq_nil_iff_forall_not_mem.2 hlists.outbox
  have hreached := reached_of_drained h houtbox (fun raw hraw => decide_eq_false (hkept raw hraw))
    hdrained hi hover (copyOf_core (request.raw text))
  have hconserved := event_conserved (e := core (request.raw text)) h
  have hcopies : copies (core (request.raw text)) P.shared = 0 := by
    unfold copies
    rw [hdrained.pending, hdrained.inflight, hdrained.dlq]
    rfl
  have hcommitted : 0 < ∑ k, committed (core (request.raw text)) (own k P.log) := by omega
  obtain ⟨row, hrow, hown⟩ : ∃ row ∈ P.shared.table,
      toUsageRow py (request.payload text) = .ok row := by
    obtain ⟨-, fields, hfields, row, hrow, hsame⟩ := committed_of_pos h hcommitted
    cases hfields
    rcases hsame with hown | ⟨-, hsame⟩
    · exact ⟨row, hrow, hown⟩
    · obtain ⟨j, other, hj, hother⟩ := rows_origin h hlists htable row hrow
      rw [toUsageRow_requestId hother, requestId_payload, requestId_payload, py.str_str,
        py.str_str] at hsame
      have hij := hname j other hj hsame
      subst hij
      cases hj.symm.trans hi
      exact ⟨row, hrow, hother⟩
  refine ⟨row, hown, filter_eq_single hrow ?_ (ids_unique h rfl htable)⟩
  rw [toUsageRow_requestId hown, requestId_payload]
  exact decide_eq_true rfl

end Billing

/-! ## A shared name -/

/-- A request of a user, with the header as the client sent it. -/
def requestOf (header : String) (userId : Int) : Served where
  http := ⟨some header, "u", "h"⟩
  event := {
    requestId := "", userId, apiKeyId := none, logicalModelId := some 10, logicalModelName := none,
    channelId := none, upstreamModel := none, promptTokens := 1000, completionTokens := 500,
    totalTokens := 1500, cost := none, status := .success, cacheHit := false,
    downgradedFeatures := none }
  latencyMs := some 900
  rounds := 10

/-- Two requests and a worker; the requests have the given headers. -/
def twoServed (first second : String) (i : Fin 3) : Option Served :=
  if i = 0 then some (requestOf first 1) else if i = 1 then some (requestOf second 2) else none

/-- Both requests are finalized, then the worker writes their batch. -/
def servedPool (first second : String) : Pool (Fin 3) Cmd Cmd.Resp Unit State :=
  Pool.tryPlay (Cmd.run fun _ => true)
    (Pool.start emptyState fun i =>
      (servedJob (fun _ => "") (twoServed first second i)).program plainPy)
    [0, 0, 1, 1, 2, 2, 2, 2, 2, 2, 2, 2, 2, 2, 2]

theorem servedPool_reach (first second : String) : Reach plainPy (fun _ => true) emptyState
    (fun i => servedJob (fun _ => "") (twoServed first second i)) (servedPool first second) :=
  Pool.reach_tryPlay (fun h => .inl h) _ _

theorem billed_once_pair : ∃ row,
    toUsageRow plainPy ((requestOf "r2" 2).payload fun _ => "") = .ok row ∧
      (servedPool "r1" "r2").shared.table.filter
        (·.requestId = .str (requestOf "r2" 2).http.requestId) = [row] := by
  refine billed_once (servedPool_reach "r1" "r2")
    ⟨fun raw hraw => absurd hraw List.not_mem_nil, fun raw hraw => absurd hraw List.not_mem_nil,
      fun envelope henvelope => absurd henvelope List.not_mem_nil⟩ rfl
    ⟨rfl, rfl, rfl, rfl, by decide⟩ (i := 1) rfl rfl (fun j other hj hname => ?_)
    fun raw hraw => absurd hraw List.not_mem_nil
  unfold twoServed at hj
  split at hj
  · cases hj
    exact absurd hname (by decide)
  · split at hj
    · assumption
    · cases hj

/-- The first request parks its event while Redis is down, the second one has taken it up. -/
def replayedPool : Pool (Fin 3) Cmd Cmd.Resp Unit State :=
  let down (c : Cmd) (s : State) : Option (c.Resp × State) :=
    match c with
    | .rpush _ _ => some (.error .redisError, s)
    | c => c.run (fun _ => true) s
  Pool.tryPlay down
    (Pool.start emptyState fun i => (servedJob (fun _ => "") (twoServed "r1" "r2" i)).program plainPy)
    [0, 0, 0, 1]

theorem replayedPool_reach : Reach plainPy (fun _ => true) emptyState
    (fun i => servedJob (fun _ => "") (twoServed "r1" "r2" i)) replayedPool := by
  apply Pool.reach_tryPlay
  intro c s r s' h
  cases c with
  | rpush queue raw =>
    cases h
    exact .inr ⟨rfl, rfl⟩
  | _ => exact .inl h

/-- Two finished requests of different users with one `X-Request-ID`: everything is drained, and
only the first one has a row. And while one request replays the event of another, no list has the
event and the table has no row. -/
theorem shared_id_billed_once :
    (Reach plainPy (fun _ => true) emptyState
        (fun i => servedJob (fun _ => "") (twoServed "r1" "r1" i)) (servedPool "r1" "r1") ∧
      Drained (servedPool "r1" "r1") ∧ dropped (servedPool "r1" "r1").log = [] ∧
      hands (own 0 (servedPool "r1" "r1").log) = (none, false) ∧
      hands (own 1 (servedPool "r1" "r1").log) = (none, false) ∧
      (servedPool "r1" "r1").shared.table.map (·.userId) = [.int 1]) ∧
    (Reach plainPy (fun _ => true) emptyState
        (fun i => servedJob (fun _ => "") (twoServed "r1" "r2" i)) replayedPool ∧
      hands (own 0 replayedPool.log) = (none, false) ∧ replayedPool.shared.outbox = [] ∧
      replayedPool.shared.pending = [] ∧ replayedPool.shared.inflight = [] ∧
      replayedPool.shared.dlq = [] ∧ replayedPool.shared.table = []) :=
  ⟨⟨servedPool_reach "r1" "r1", ⟨rfl, rfl, rfl, rfl, by decide⟩, rfl, rfl, rfl, rfl⟩,
    replayedPool_reach, rfl, rfl, rfl, rfl, rfl, rfl⟩

end Events
