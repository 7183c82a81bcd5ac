import Mathlib.Algebra.Order.BigOperators.Group.Finset
import Mathlib.Data.List.Count
import Janus.Conc.Pool
import Janus.Gateway.Proof.Worker

/-!
# No event is lost from the queue

The lists keep a ledger for every event `e`: a push puts a copy in, a removal takes at most one out,
a claim and a recovery move copies (`copies_cmd`). A request passes items on (`request_balanced`),
a worker's removals are covered.

* `program_follows`: what a request and a worker issue, in terms of their own events.
* `event_conserved`: as many copies and committed items as events that reached Redis.
* `event_kept`: every event that reached Redis is in a list or committed.
-/

set_option autoImplicit false

namespace Events

open Conc Python

/-! ## Program order of a request -/

section Request

variable {t : Trace Cmd Cmd.Resp} {payload : Fields} {rounds : Nat}

/-- What a request has in hand: the item it has taken from the outbox, and whether it still has its
own event. -/
def hands : Trace Cmd Cmd.Resp → Option Raw × Bool
  | [] => (none, true)
  | ⟨.outboxPopleft, some raw⟩ :: t => (some raw, (hands t).2)
  | ⟨.rpush _ _, .ok _⟩ :: t => (none, (hands t).1.isSome && (hands t).2)
  | ⟨.outboxAppendleft _, _⟩ :: t => (none, (hands t).2)
  | ⟨.outboxAppend _, _⟩ :: _ => (none, false)
  | _ :: t => hands t

/-- What the end of a request issues. -/
inductive RequestIssues (payload : Fields) (t : Trace Cmd Cmd.Resp) : Cmd → Prop
  | pop : hands t = (none, true) → RequestIssues payload t .outboxPopleft
  | replay {raw : Raw} : hands t = (some raw, true) → RequestIssues payload t (.rpush .pending raw)
  | putBack {raw : Raw} : hands t = (some raw, true) →
      RequestIssues payload t (.outboxAppendleft raw)
  | push {t' : Trace Cmd Cmd.Resp} : hands t = (none, true) → t = ⟨.outboxPopleft, none⟩ :: t' →
      RequestIssues payload t (.rpush .pending (.json (.dict payload)))
  | park : hands t = (none, true) →
      RequestIssues payload t (.outboxAppend (.json (.dict payload)))
  | stuck : hands t = (none, true) → RequestIssues payload t .stuck

theorem park_follows (h : hands t = (none, true)) :
    (park (.json (.dict payload))).Follows (RequestIssues payload)
      (fun _ t' => hands t' = (none, false)) t := ⟨.park h, fun _ => rfl⟩

theorem flushOutbox_follows (h : hands t = (none, true)) :
    (flushOutbox rounds).Follows (RequestIssues payload) (fun outcome t' =>
      hands t' = (none, true) ∧
        (outcome = .ok () → ∃ t'', t' = ⟨.outboxPopleft, none⟩ :: t'')) t := by
  induction rounds generalizing t with
  | zero => exact ⟨.stuck h, nofun⟩
  | succ rounds ih =>
    refine ⟨.pop h, fun answer => ?_⟩
    cases answer with
    | none => exact ⟨h, fun _ => ⟨t, rfl⟩⟩
    | some raw =>
      have htaken : hands (⟨.outboxPopleft, some raw⟩ :: t) = (some raw, true) := by
        show (some raw, (hands t).2) = _
        rw [h]
      refine ⟨.replay htaken, fun answer => ?_⟩
      match answer with
      | .ok () =>
        refine ih ?_
        show (none, (hands (⟨.outboxPopleft, some raw⟩ :: t)).1.isSome && _) = _
        rw [htaken]
        rfl
      | .error e =>
        refine ⟨.putBack htaken, fun dropped => ⟨?_, nofun⟩⟩
        show (none, (hands (⟨.outboxPopleft, some raw⟩ :: t)).2) = _
        rw [htaken]

theorem enqueue_follows : (enqueueEvent rounds payload).Follows (RequestIssues payload)
    (fun _ t' => hands t' = (none, false)) [] := by
  refine Prog.Follows.bind (flushOutbox_follows rfl) fun outcome t hflushed => ?_
  obtain ⟨h, hdrained⟩ := hflushed
  match outcome with
  | .error e => exact park_follows h
  | .ok () =>
    obtain ⟨t', ht'⟩ := hdrained rfl
    refine ⟨.push h ht', fun answer => ?_⟩
    match answer with
    | .ok () =>
      show (none, (hands t).1.isSome && _) = _
      rw [h]
      rfl
    | .error e => exact park_follows h

/-- What a request has in hand, of the items that `p` picks. -/
def held (p : Raw → Bool) (payload : Fields) (t : Trace Cmd Cmd.Resp) : Nat :=
  ((hands t).1.any p).toNat + ((hands t).2 && p (.json (.dict payload))).toNat

/-- A request only passes items on. -/
theorem request_balanced {p : Raw → Bool} (h : Trace.Guarded (RequestIssues payload) t) :
    tally (sends p) t + tally (parks p) t + held p payload t =
      tally (takes p) t + (p (.json (.dict payload))).toNat := by
  induction t with
  | nil => simp [held, hands]
  | cons ev t ih =>
    obtain ⟨hguard, ht⟩ := h
    have hrest := ih ht
    unfold held at hrest ⊢
    rcases ev with ⟨c, r⟩
    simp only [tally_cons]
    cases hguard with
    | pop hhands =>
      cases r with
      | none => simpa [sends, parks, takes, hands] using hrest
      | some raw =>
        simp only [sends, parks, takes, hands, hhands, Option.any_some, Option.any_none,
          Bool.toNat_false, Bool.true_and] at hrest ⊢
        omega
    | replay hhands =>
      cases r with
      | error e => simpa [sends, parks, takes, hands] using hrest
      | ok _ =>
        simp only [sends, parks, takes, hands, hhands, Option.any_some, Option.any_none,
          Option.isSome_some, Bool.toNat_false, Bool.true_and] at hrest ⊢
        omega
    | putBack hhands =>
      simp only [sends, parks, takes, hands, hhands, Option.any_some, Option.any_none,
        Bool.toNat_false, Bool.true_and] at hrest ⊢
      omega
    | push hhands _ =>
      cases r with
      | error e => simpa [sends, parks, takes, hands] using hrest
      | ok _ =>
        simp only [sends, parks, takes, hands, hhands, Option.any_none, Option.isSome_none,
          Bool.toNat_false, Bool.true_and, Bool.false_and] at hrest ⊢
        omega
    | park hhands =>
      simp only [sends, parks, takes, hands, hhands, Option.any_none, Bool.toNat_false,
        Bool.true_and, Bool.false_and] at hrest ⊢
      omega
    | stuck _ => cases r

/-- A request removes nothing. -/
theorem request_removes {p : Raw → Bool} (h : Trace.Guarded (RequestIssues payload) t) :
    tally (removes p) t = 0 := by
  induction t with
  | nil => rfl
  | cons ev t ih =>
    obtain ⟨hguard, ht⟩ := h
    rcases ev with ⟨c, r⟩
    rw [tally_cons, ih ht]
    cases hguard with
    | _ => rfl

end Request

/-! ## Jobs -/

section Jobs

variable {py : Builtins} {job : Job}

/-- What a job issues. -/
def Issues (py : Builtins) : Job → Guard Cmd Cmd.Resp
  | .enqueueUsageEvent _ payload => RequestIssues payload
  | .flushUsageRecords => WorkerIssues py

def Finished (py : Builtins) : Job → Trace Cmd Cmd.Resp → Prop
  | .enqueueUsageEvent _ _, t => hands t = (none, false)
  | .flushUsageRecords, t => Flushed py t

theorem program_follows (job : Job) :
    (job.program py).Follows (Issues py job) (fun _ t => Finished py job t) [] := by
  cases job with
  | enqueueUsageEvent rounds payload => exact Prog.Follows.bind enqueue_follows fun _ _ h => h
  | flushUsageRecords => exact Prog.Follows.bind flush_follows fun _ _ h => h

theorem jobs_follow {ι : Type} (py : Builtins) (job : ι → Job) : ∀ i, ((job i).program py).Follows
    (Issues py (job i)) (fun _ t => Finished py (job i) t) [] := fun i => program_follows (job i)

/-- The copies of `e` that a request has brought to Redis. -/
def enqueued (e : Raw) : Job → Trace Cmd Cmd.Resp → Nat
  | .enqueueUsageEvent _ _, t => tally (sends (copyOf e)) t
  | .flushUsageRecords, _ => 0

/-- The ledger of one thread. -/
theorem job_balanced {e : Raw} {t : Trace Cmd Cmd.Resp} (h : Trace.Guarded (Issues py job) t) :
    enqueued e job t + tally (removes (copyOf e)) t ≤
      tally (sends (copyOf e)) t + committed e t := by
  cases job with
  | enqueueUsageEvent rounds payload =>
    rw [request_removes h]
    show tally (sends (copyOf e)) t + 0 ≤ _
    omega
  | flushUsageRecords =>
    have hcover := covered_of_guarded h e
    change _ + 0 ≤ _ at hcover
    show 0 + _ ≤ _
    omega

end Jobs

/-! ## The lists -/

section Lists

variable {s s' : State} {e : Raw} {fits : Row → Bool}

def DeadLetter.raw : DeadLetter → Option Raw
  | .payload item => some item
  | .envelope claim => claim.payload

/-- The copies of `e` in Redis. -/
def copies (e : Raw) (s : State) : Nat :=
  s.pending.countP (copyOf e) + s.inflight.countP (·.payload.any (copyOf e)) +
    s.dlq.countP (·.raw.any (copyOf e))

theorem countP_single {α : Type} {p : α → Bool} (a : α) : [a].countP p = (p a).toNat :=
  countP_toNat p a []

/-- A removal takes one copy at most. -/
theorem copies_lrem (envelope : Envelope) :
    copies e s ≤ copies e (s.lrem envelope) + (envelope.payload.any (copyOf e)).toNat := by
  have hcount := List.countP_erase (·.payload.any (copyOf e)) s.inflight envelope
  unfold copies State.lrem
  dsimp only
  rw [hcount]
  split
  · next h =>
    rw [h.2, Bool.toNat_true]
    omega
  · omega

theorem copies_rpush {queue : Queue} {raw : Raw} :
    copies e (s.rpush queue raw) = copies e s + (copyOf e raw).toNat := by
  unfold copies
  cases queue with
  | pending =>
    dsimp only [State.rpush]
    rw [List.countP_append, countP_single]
    omega
  | dlq =>
    dsimp only [State.rpush]
    rw [List.countP_append, countP_single]
    dsimp only [DeadLetter.raw, Option.any_some]
    omega

theorem copies_claim {nowMs : Int} : copies e (s.claim nowMs).2 = copies e s := by
  unfold State.claim copies
  cases hpending : s.pending with
  | nil => rw [hpending]
  | cons raw pending =>
    dsimp only
    rw [List.countP_append, countP_single, countP_toNat]
    dsimp only [Option.any_some]
    omega

/-- A dead letter takes its envelope's place. -/
theorem copies_dead (envelope : Envelope) : copies e s ≤
    copies e ({ s with dlq := s.dlq ++ [DeadLetter.envelope envelope] }.lrem envelope) := by
  have hlrem := copies_lrem (e := e) (s := { s with dlq := s.dlq ++ [.envelope envelope] }) envelope
  have hpush : copies e { s with dlq := s.dlq ++ [DeadLetter.envelope envelope] } =
      copies e s + (envelope.payload.any (copyOf e)).toNat := by
    unfold copies
    dsimp only
    rw [List.countP_append, countP_single]
    dsimp only [DeadLetter.raw]
    omega
  omega

theorem copies_recoverOne {cutoffMs : Int} {acc : (Nat × Nat) × State} {envelope : Envelope} :
    copies e acc.2 ≤ copies e (State.recoverOne cutoffMs acc envelope).2 := by
  obtain ⟨counts, s⟩ := acc
  obtain ⟨payload, claimedAt⟩ := envelope
  cases payload with
  | none => exact copies_dead _
  | some raw =>
    cases claimedAt with
    | none => exact copies_dead _
    | some claimedAt =>
      unfold State.recoverOne
      dsimp only
      split
      · have hlrem := copies_lrem (e := e) (s := s.rpush .pending raw) ⟨some raw, some claimedAt⟩
        rw [copies_rpush, Option.any_some] at hlrem
        change copies e s ≤ copies e ((s.rpush .pending raw).lrem _)
        omega
      · exact Nat.le_refl _

theorem copies_recover {cutoffMs : Int} : copies e s ≤ copies e (s.recover cutoffMs).2 := by
  have hfold (envelopes : List Envelope) (acc : (Nat × Nat) × State) :
      copies e acc.2 ≤ copies e (envelopes.foldl (State.recoverOne cutoffMs) acc).2 := by
    induction envelopes generalizing acc with
    | nil => exact Nat.le_refl _
    | cons envelope envelopes ih => exact Nat.le_trans copies_recoverOne (ih _)
  exact hfold s.inflight ((0, 0), s)

theorem copies_append {raw : Raw} : copies e (s.append raw).2 = copies e s := by
  unfold State.append
  split <;> rfl

theorem copies_appendleft {raw : Raw} : copies e (s.appendleft raw).2 = copies e s := by
  unfold State.appendleft
  split <;> rfl

/-- The ledger of one command. -/
theorem copies_cmd {c : Cmd} {r : c.Resp} (h : sem fits c s r s') :
    copies e s + sends (copyOf e) ⟨c, r⟩ ≤ copies e s' + removes (copyOf e) ⟨c, r⟩ := by
  rcases h with hrun | ⟨hraised, rfl⟩
  · cases c with
    | rpush queue raw =>
      cases hrun
      show _ + (copyOf e raw).toNat ≤ _ + 0
      rw [copies_rpush]
      exact Nat.le_refl _
    | claim nowMs =>
      cases hrun
      show _ + 0 ≤ _ + 0
      rw [copies_claim]
    | lrem envelope =>
      cases hrun
      have hlrem := copies_lrem (e := e) (s := s) envelope
      exact hlrem
    | recover cutoffMs =>
      cases hrun
      exact copies_recover
    | insert rows =>
      unfold Cmd.run at hrun
      dsimp only at hrun
      split at hrun <;> cases hrun <;> exact Nat.le_refl _
    | outboxAppendleft raw =>
      cases hrun
      exact Nat.le_of_eq copies_appendleft.symm
    | outboxAppend raw =>
      cases hrun
      exact Nat.le_of_eq copies_append.symm
    | outboxPopleft =>
      cases hrun
      show _ + 0 ≤ _ + 0
      exact Nat.le_refl _
    | now =>
      cases hrun
      exact Nat.le_refl _
    | stuck => cases hrun
  · cases c with
    | rpush queue raw =>
      cases hraised
      exact Nat.le_refl _
    | claim nowMs =>
      cases hraised
      exact Nat.le_refl _
    | lrem envelope =>
      cases hraised
      exact Nat.le_refl _
    | recover cutoffMs =>
      cases hraised
      exact Nat.le_refl _
    | insert rows =>
      cases hraised
      exact Nat.le_refl _
    | _ => cases hraised

end Lists

/-! ## Where items come from -/

/-- Items in the outbox are `O`, items on their way from the pending list to the table `Q`. -/
structure Lists (O Q : Raw → Prop) (s : State) : Prop where
  outbox : ∀ raw ∈ s.outbox, O raw
  pending : ∀ raw ∈ s.pending, Q raw
  inflight : ∀ envelope ∈ s.inflight, ∀ raw, envelope.payload = some raw → Q raw

/-- What a command puts into the outbox is `O`, into the pending list `Q`. -/
def Puts (O Q : Raw → Prop) : Cmd → Prop
  | .rpush .pending raw => Q raw
  | .outboxAppend raw => O raw
  | .outboxAppendleft raw => O raw
  | _ => True

section Origin

variable {O Q : Raw → Prop} {s s' : State} {fits : Row → Bool} {raw : Raw}

theorem Lists.lrem (h : Lists O Q s) (envelope : Envelope) : Lists O Q (s.lrem envelope) where
  outbox := h.outbox
  pending := h.pending
  inflight other hother := h.inflight other (List.mem_of_mem_erase hother)

theorem Lists.rpush {queue : Queue} (h : Lists O Q s) (hraw : Puts O Q (.rpush queue raw)) :
    Lists O Q (s.rpush queue raw) := by
  cases queue with
  | dlq => exact ⟨h.outbox, h.pending, h.inflight⟩
  | pending =>
    refine ⟨h.outbox, fun other hother => ?_, h.inflight⟩
    rcases List.mem_append.1 hother with hother | hother
    · exact h.pending other hother
    · rw [List.mem_singleton.1 hother]
      exact hraw

theorem Lists.claim {nowMs : Int} (h : Lists O Q s) : Lists O Q (s.claim nowMs).2 := by
  unfold State.claim
  split
  · exact h
  · next raw pending hpending =>
    have hmem {other : Raw} (hother : other ∈ raw :: pending) : Q other :=
      h.pending other (hpending ▸ hother)
    refine ⟨h.outbox, fun other hother => hmem (List.mem_cons_of_mem _ hother), ?_⟩
    intro envelope henvelope other hpayload
    rcases List.mem_append.1 henvelope with henvelope | henvelope
    · exact h.inflight envelope henvelope other hpayload
    · rw [List.mem_singleton.1 henvelope] at hpayload
      cases hpayload
      exact hmem List.mem_cons_self

theorem Lists.recover {cutoffMs : Int} (h : Lists O Q s) : Lists O Q (s.recover cutoffMs).2 := by
  have hfold (envelopes : List Envelope) (acc : (Nat × Nat) × State) (hacc : Lists O Q acc.2)
      (hsub : ∀ envelope ∈ envelopes, ∀ raw, envelope.payload = some raw → Q raw) :
      Lists O Q (envelopes.foldl (State.recoverOne cutoffMs) acc).2 := by
    induction envelopes generalizing acc with
    | nil => exact hacc
    | cons envelope envelopes ih =>
      refine ih _ ?_ fun other hother => hsub other (List.mem_cons_of_mem _ hother)
      have hpayload := hsub envelope List.mem_cons_self
      have hletter : Lists O Q { acc.2 with dlq := acc.2.dlq ++ [DeadLetter.envelope envelope] } :=
        ⟨hacc.outbox, hacc.pending, hacc.inflight⟩
      have hdead := hletter.lrem envelope
      unfold State.recoverOne
      dsimp only
      split
      · exact hdead
      · next raw hraw =>
        have hpush : Lists O Q (acc.2.rpush .pending raw) := hacc.rpush (hpayload raw hraw)
        split
        · exact hdead
        · split
          · exact hpush.lrem envelope
          · exact hacc
  exact hfold s.inflight ((0, 0), s) h h.inflight

theorem Lists.append (h : Lists O Q s) (hraw : O raw) : Lists O Q (s.append raw).2 := by
  unfold State.append
  split
  · refine ⟨fun other hother => ?_, h.pending, h.inflight⟩
    rcases List.mem_append.1 hother with hother | hother
    · exact h.outbox other (List.mem_of_mem_tail hother)
    · rwa [List.mem_singleton.1 hother]
  · refine ⟨fun other hother => ?_, h.pending, h.inflight⟩
    rcases List.mem_append.1 hother with hother | hother
    · exact h.outbox other hother
    · rwa [List.mem_singleton.1 hother]

theorem Lists.appendleft (h : Lists O Q s) (hraw : O raw) : Lists O Q (s.appendleft raw).2 := by
  unfold State.appendleft
  split
  · refine ⟨fun other hother => ?_, h.pending, h.inflight⟩
    rcases List.mem_cons.1 hother with rfl | hother
    · exact hraw
    · exact h.outbox other (List.mem_of_mem_dropLast hother)
  · refine ⟨fun other hother => ?_, h.pending, h.inflight⟩
    rcases List.mem_cons.1 hother with rfl | hother
    · exact hraw
    · exact h.outbox other hother

/-- Lists change by what a command puts into them. -/
theorem Lists.cmd {c : Cmd} {r : c.Resp} (h : Lists O Q s) (hE : sem fits c s r s')
    (hputs : Puts O Q c) : Lists O Q s' := by
  rcases hE with hrun | ⟨-, rfl⟩
  · cases c with
    | rpush queue raw =>
      cases hrun
      exact h.rpush hputs
    | claim nowMs =>
      cases hrun
      exact h.claim
    | lrem envelope =>
      cases hrun
      exact h.lrem envelope
    | recover cutoffMs =>
      cases hrun
      exact h.recover
    | insert rows =>
      unfold Cmd.run at hrun
      dsimp only at hrun
      split at hrun <;> cases hrun <;> exact ⟨h.outbox, h.pending, h.inflight⟩
    | outboxAppend raw =>
      cases hrun
      exact h.append hputs
    | outboxAppendleft raw =>
      cases hrun
      exact h.appendleft hputs
    | outboxPopleft =>
      cases hrun
      exact ⟨fun raw hraw => h.outbox raw (List.mem_of_mem_tail hraw), h.pending, h.inflight⟩
    | now =>
      cases hrun
      exact h
    | stuck => cases hrun
  · exact h

/-- An item in hand was there before or has just been taken. -/
theorem hands_cons {ev : Event Cmd Cmd.Resp} {t : Trace Cmd Cmd.Resp}
    (h : (hands (ev :: t)).1 = some raw) :
    (hands t).1 = some raw ∨ ev = ⟨.outboxPopleft, some raw⟩ := by
  rcases ev with ⟨c, r⟩
  cases c with
  | outboxPopleft =>
    cases r with
    | none => exact .inl h
    | some raw' =>
      cases h
      exact .inr rfl
  | rpush queue raw' =>
    cases r with
    | error e => exact .inl h
    | ok _ => cases h
  | outboxAppend raw' => cases h
  | outboxAppendleft raw' => cases h
  | _ => exact .inl h

theorem claimedRaws_cons {ev : Event Cmd Cmd.Resp} {t : Trace Cmd Cmd.Resp}
    (h : raw ∈ claimedRaws (ev :: t)) : raw ∈ claimedRaws t ∨
      ∃ nowMs envelope, envelope.payload = some raw ∧ ev = ⟨.claim nowMs, .ok (some envelope)⟩ := by
  rcases ev with ⟨c, r⟩
  cases c with
  | claim nowMs =>
    rcases r with e | _ | envelope
    · exact .inl h
    · exact .inl h
    · rcases List.mem_append.1 h with h | h
      · exact .inl h
      · exact .inr ⟨nowMs, envelope, Option.mem_toList.1 h, rfl⟩
  | _ => exact .inl h

/-- What a claim answers was pending. -/
theorem claim_payload {nowMs : Int} {envelope : Envelope}
    (hclaim : (s.claim nowMs).1 = some envelope) (hraw : envelope.payload = some raw) :
    raw ∈ s.pending := by
  unfold State.claim at hclaim
  split at hclaim
  · cases hclaim
  · next raw' pending hpending =>
    cases hclaim
    cases hraw
    rw [hpending]
    exact List.mem_cons_self

end Origin

/-! ## Runs -/

/-- Between the commands the clock of a worker moves, either way. -/
def Clock (s s' : State) : Prop := ∃ nowMs, s' = { s with nowMs }

/-- What requests and workers reach from `s₀` on, in any order; one that crashes does nothing
more. -/
abbrev Reach {ι : Type} [DecidableEq ι] (py : Builtins) (fits : Row → Bool) (s₀ : State)
    (job : ι → Job) (P : Pool ι Cmd Cmd.Resp Unit State) : Prop :=
  Pool.Reach (sem fits) Clock (Pool.start s₀ fun i => (job i).program py) P

/-- A copy of `e` is in a list. -/
def Present (e : Raw) (s : State) : Prop :=
  (∃ raw ∈ s.pending, core raw = e) ∨
  (∃ envelope ∈ s.inflight, ∃ raw, envelope.payload = some raw ∧ core raw = e) ∨
  ∃ dead ∈ s.dlq, ∃ raw, dead.raw = some raw ∧ core raw = e

/-- What reached Redis: the pushes of the requests, and what was there before. -/
inductive Reached {ι : Type} (s₀ : State) (job : ι → Job) (l : Log ι Cmd Cmd.Resp) (raw : Raw) : Prop
  | enqueued (i : ι) (rounds : Nat) (payload : Fields) :
      job i = .enqueueUsageEvent rounds payload → (i, ⟨.rpush .pending raw, .ok ()⟩) ∈ l →
      Reached s₀ job l raw
  | before : Present (core raw) s₀ → Reached s₀ job l raw

/-- A transaction with a copy of the event has been committed, and the table has the event's row or
one with its request id. -/
def Committed {ι : Type} [DecidableEq ι] (py : Builtins) (P : Pool ι Cmd Cmd.Resp Unit State)
    (raw : Raw) : Prop :=
  (∃ i, ∃ raw' ∈ written (own i P.log), core raw' = core raw) ∧
    ∃ fields, raw.record = some fields ∧ Recorded py P.shared.table fields

section Run

variable {ι : Type} [DecidableEq ι] {py : Builtins} {fits : Row → Bool} {s₀ s : State}
  {job : ι → Job} {P : Pool ι Cmd Cmd.Resp Unit State} {e raw : Raw}

theorem any_copyOf {o : Option Raw} (h : o.any (copyOf e) = true) :
    ∃ raw, o = some raw ∧ core raw = e := by
  cases o with
  | none => cases h
  | some raw => exact ⟨raw, rfl, of_decide_eq_true h⟩

theorem present_of_copies (h : 0 < copies e s) : Present e s := by
  unfold copies at h
  by_cases hpending : 0 < s.pending.countP (copyOf e)
  · obtain ⟨raw, hraw, hcopy⟩ := List.countP_pos_iff.1 hpending
    exact .inl ⟨raw, hraw, of_decide_eq_true hcopy⟩
  by_cases hinflight : 0 < s.inflight.countP (·.payload.any (copyOf e))
  · obtain ⟨envelope, henvelope, hcopy⟩ := List.countP_pos_iff.1 hinflight
    exact .inr (.inl ⟨envelope, henvelope, any_copyOf hcopy⟩)
  · have hdlq : 0 < s.dlq.countP (·.raw.any (copyOf e)) := by omega
    obtain ⟨dead, hdead, hcopy⟩ := List.countP_pos_iff.1 hdlq
    exact .inr (.inr ⟨dead, hdead, any_copyOf hcopy⟩)

theorem copies_of_present (h : Present e s) : 0 < copies e s := by
  unfold copies
  rcases h with ⟨raw, hraw, hcore⟩ | ⟨envelope, henvelope, raw, hpayload, hcore⟩ |
    ⟨dead, hdead, raw, hpayload, hcore⟩
  · have hpos : 0 < s.pending.countP (copyOf e) :=
      List.countP_pos_iff.2 ⟨raw, hraw, decide_eq_true hcore⟩
    omega
  · have hpos : 0 < s.inflight.countP (·.payload.any (copyOf e)) := by
      refine List.countP_pos_iff.2 ⟨envelope, henvelope, ?_⟩
      rw [hpayload]
      exact decide_eq_true hcore
    omega
  · have hpos : 0 < s.dlq.countP (·.raw.any (copyOf e)) := by
      refine List.countP_pos_iff.2 ⟨dead, hdead, ?_⟩
      rw [hpayload]
      exact decide_eq_true hcore
    omega

theorem copies_run (h : Reach py fits s₀ job P) :
    copies e s₀ + (P.log.map fun ev => sends (copyOf e) ev.2).sum ≤
      copies e P.shared + (P.log.map fun ev => removes (copyOf e) ev.2).sum := by
  refine Pool.Reach.invariant (J := fun s l =>
      copies e s₀ + (l.map fun ev => sends (copyOf e) ev.2).sum ≤
        copies e s + (l.map fun ev => removes (copyOf e) ev.2).sum)
    (jobs_follow py job) (Nat.le_refl _)
    (fun {i c r s s' l} _ hJ _ hE => ?_) (fun hJ he => ?_) h
  · have hcmd := copies_cmd (e := e) hE
    rw [List.map_cons, List.map_cons, List.sum_cons, List.sum_cons]
    dsimp only
    omega
  · obtain ⟨nowMs, rfl⟩ := he
    exact hJ

/-- As many copies and committed items as events that reached Redis. -/
theorem event_conserved [Fintype ι] (h : Reach py fits s₀ job P) :
    copies e s₀ + ∑ i, enqueued e (job i) (own i P.log) ≤
      copies e P.shared + ∑ i, committed e (own i P.log) := by
  have hlists := copies_run (e := e) h
  have hsends : ∑ i, tally (sends (copyOf e)) (own i P.log) =
      (P.log.map fun ev => sends (copyOf e) ev.2).sum := sum_own _ P.log
  have hremoves : ∑ i, tally (removes (copyOf e)) (own i P.log) =
      (P.log.map fun ev => removes (copyOf e) ev.2).sum := sum_own _ P.log
  have hthreads : ∑ i, (enqueued e (job i) (own i P.log) +
      tally (removes (copyOf e)) (own i P.log)) ≤
      ∑ i, (tally (sends (copyOf e)) (own i P.log) + committed e (own i P.log)) :=
    Finset.sum_le_sum fun i _ => job_balanced
      (h.follows (jobs_follow py job) i).1
  rw [Finset.sum_add_distrib, Finset.sum_add_distrib] at hthreads
  omega

theorem table_recover {cutoffMs : Int} : (s.recover cutoffMs).2.table = s.table := by
  have hfold (envelopes : List Envelope) (acc : (Nat × Nat) × State) :
      (envelopes.foldl (State.recoverOne cutoffMs) acc).2.table = acc.2.table := by
    induction envelopes generalizing acc with
    | nil => rfl
    | cons envelope envelopes ih =>
      rw [List.foldl_cons, ih]
      unfold State.recoverOne State.lrem
      dsimp only
      split
      · rfl
      · split
        · rfl
        · split <;> rfl
  exact hfold s.inflight ((0, 0), s)

/-- Only an insert that commits changes the table. -/
theorem table_eq {c : Cmd} {r : c.Resp} {s' : State} (h : sem fits c s r s') :
    s'.table = s.table ∨ ∃ rows n, (⟨c, r⟩ : Event Cmd Cmd.Resp) = ⟨.insert rows, .ok n⟩ ∧
      s'.table = insertIgnoreConflicts s.table rows := by
  rcases h with hrun | ⟨-, rfl⟩
  · cases c with
    | insert rows =>
      unfold Cmd.run at hrun
      dsimp only at hrun
      split at hrun
      · cases hrun
        exact .inr ⟨rows, _, rfl, rfl⟩
      · cases hrun
        exact .inl rfl
    | rpush queue raw =>
      cases hrun
      cases queue <;> exact .inl rfl
    | claim nowMs =>
      cases hrun
      left
      unfold State.claim
      split <;> rfl
    | recover cutoffMs =>
      cases hrun
      exact .inl table_recover
    | outboxAppend raw =>
      cases hrun
      left
      unfold State.append
      split <;> rfl
    | outboxAppendleft raw =>
      cases hrun
      left
      unfold State.appendleft
      split <;> rfl
    | stuck => cases hrun
    | _ =>
      cases hrun
      exact .inl rfl
  · exact .inl rfl

theorem insert_run {rows : List Row} {n : Nat} {s' : State}
    (h : sem fits (.insert rows) s (.ok n) s') : s'.table = insertIgnoreConflicts s.table rows := by
  rcases h with hrun | ⟨hraised, -⟩
  · unfold Cmd.run at hrun
    dsimp only at hrun
    split at hrun
    · cases hrun
      rfl
    · cases hrun
  · cases hraised

theorem table_cmd {c : Cmd} {r : c.Resp} {s' : State} (h : sem fits c s r s') :
    s.table ⊆ s'.table := by
  rcases table_eq h with heq | ⟨rows, n, -, heq⟩
  · rw [heq]
    exact List.Subset.refl _
  · rw [heq]
    exact insert_subset

/-- The items of a committed transaction are recorded for good. -/
theorem written_recorded (h : Reach py fits s₀ job P) :
    ∀ i, ∀ raw ∈ written (own i P.log), ∀ fields, raw.record = some fields →
      Recorded py P.shared.table fields := by
  refine Pool.Reach.invariant (J := fun s l => ∀ i, ∀ raw ∈ written (own i l), ∀ fields,
      raw.record = some fields → Recorded py s.table fields)
    (jobs_follow py job) (fun i raw hraw => absurd hraw List.not_mem_nil)
    (fun {j c r s s' l} _ hJ hissued hE => ?_) (fun hJ he => ?_) h
  · intro i raw hraw fields hfields
    have hold (hraw : raw ∈ written (own i l)) : Recorded py s'.table fields :=
      (hJ i raw hraw fields hfields).mono (table_cmd hE)
    by_cases hij : j = i
    · subst hij
      rw [own_cons_self] at hraw
      cases c with
      | insert rows =>
        cases r with
        | error _ => exact hold hraw
        | ok n =>
          rcases List.mem_append.1 hraw with hraw | hraw
          · exact hold hraw
          · cases hjob : job j with
            | enqueueUsageEvent rounds payload =>
              rw [hjob] at hissued
              cases hissued
            | flushUsageRecords =>
              rw [hjob] at hissued
              have hin : fields ∈ records (own j l) :=
                List.mem_filterMap.2 ⟨raw, (List.mem_filter.1 hraw).1, hfields⟩
              have htable := insert_run hE
              rw [htable]
              exact insert_recorded hissued.1 hin
      | _ => exact hold hraw
    · rw [own_cons_ne hij] at hraw
      exact hold hraw
  · obtain ⟨nowMs, rfl⟩ := he
    exact hJ

theorem sends_pos {t : Trace Cmd Cmd.Resp} {queue : Queue}
    (h : ⟨.rpush queue raw, .ok ()⟩ ∈ t) : 0 < tally (sends (copyOf (core raw))) t := by
  induction t with
  | nil => cases h
  | cons ev t ih =>
    rw [tally_cons]
    rcases List.mem_cons.1 h with rfl | h
    · show 0 < (copyOf (core raw) raw).toNat + _
      rw [copyOf_core, Bool.toNat_true]
      omega
    · have hrest := ih h
      omega

theorem committed_of_pos [Fintype ι] (h : Reach py fits s₀ job P)
    (hpos : 0 < ∑ i, committed (core raw) (own i P.log)) : Committed py P raw := by
  obtain ⟨i, -, hi⟩ := Finset.exists_ne_zero_of_sum_ne_zero (Nat.pos_iff_ne_zero.1 hpos)
  obtain ⟨raw', hraw', hcopy⟩ := List.countP_pos_iff.1 (Nat.pos_of_ne_zero hi)
  have hcore : core raw' = core raw := of_decide_eq_true hcopy
  have hrecord : raw'.record.isSome = true := written_record hraw'
  obtain ⟨fields', hfields'⟩ := Option.isSome_iff_exists.1 hrecord
  obtain ⟨fields, hfields, -⟩ := core_record hcore hfields'
  have hcopies : toUsageRow py fields' = toUsageRow py fields ∧ requestId fields' = requestId fields :=
    core_row hcore hfields' hfields
  obtain ⟨hrows, hids⟩ := hcopies
  refine ⟨⟨i, raw', hraw', hcore⟩, fields, hfields, ?_⟩
  obtain ⟨row, hrow, hsame⟩ := written_recorded h i raw' hraw' fields' hfields'
  exact ⟨row, hrow, by rw [← hrows, ← hids]; exact hsame⟩

/-- Every event that reached Redis is in a list or committed, and of `n` events that are copies of
one another there are `n` copies and commits. -/
theorem event_kept [Fintype ι] (h : Reach py fits s₀ job P) (raw : Raw) :
    copies (core raw) s₀ + ∑ i, enqueued (core raw) (job i) (own i P.log) ≤
        copies (core raw) P.shared + ∑ i, committed (core raw) (own i P.log) ∧
      (Reached s₀ job P.log raw → Present (core raw) P.shared ∨ Committed py P raw) := by
  have hconserved := event_conserved (e := core raw) h
  refine ⟨hconserved, fun hreached => ?_⟩
  have hpos : 0 < copies (core raw) s₀ + ∑ i, enqueued (core raw) (job i) (own i P.log) := by
    cases hreached with
    | enqueued i rounds payload hjob hpush =>
      have hown := sends_pos (mem_own.2 hpush)
      have hle : enqueued (core raw) (job i) (own i P.log) ≤
          ∑ i, enqueued (core raw) (job i) (own i P.log) :=
        Finset.single_le_sum (f := fun i => enqueued (core raw) (job i) (own i P.log))
          (fun _ _ => Nat.zero_le _) (Finset.mem_univ i)
      rw [hjob] at hle
      change tally (sends (copyOf (core raw))) (own i P.log) ≤ _ at hle
      omega
    | before hbefore =>
      have hold := copies_of_present hbefore
      omega
  by_cases hpresent : 0 < copies (core raw) P.shared
  · exact .inl (present_of_copies hpresent)
  · exact .inr (committed_of_pos h (by omega))

/-- All items in the lists and in the hands of the threads. -/
structure Everywhere {ι : Type} [DecidableEq ι] (O Q : Raw → Prop) (job : ι → Job) (s : State)
    (l : Log ι Cmd Cmd.Resp) : Prop where
  lists : Lists O Q s
  hands : ∀ i raw, (hands (own i l)).1 = some raw → O raw
  claimed : ∀ i, ∀ raw ∈ claimedRaws (own i l), Q raw
  pushed : ∀ i rounds payload, job i = .enqueueUsageEvent rounds payload →
    ∀ queue raw, ⟨.rpush queue raw, .ok ()⟩ ∈ own i l → O raw

/-- What a thread puts into the lists. -/
theorem Everywhere.puts {O Q : Raw → Prop} {j : ι} {c : Cmd} {l : Log ι Cmd Cmd.Resp}
    (h : Everywhere O Q job s l)
    (hpayload : ∀ i rounds payload, job i = .enqueueUsageEvent rounds payload →
      O (.json (.dict payload)))
    (hqueued : ∀ {raw}, O raw → Q raw)
    (hretry : ∀ {raw raw' n}, Q raw → raw.record.isSome = true →
      incrementAttempt py.parse raw = .ok (raw', n) → n < maxRetryAttempts → Q raw')
    (hissued : Issues py (job j) (own j l) c) : Puts O Q c := by
  cases hjob : job j with
  | enqueueUsageEvent rounds payload =>
    rw [hjob] at hissued
    cases hissued with
    | replay hhands => exact hqueued (h.hands j _ (by rw [hhands]))
    | putBack hhands => exact h.hands j _ (by rw [hhands])
    | push _ _ => exact hqueued (hpayload j rounds payload hjob)
    | park _ => exact hpayload j rounds payload hjob
    | pop _ => trivial
    | stuck _ => trivial
  | flushUsageRecords =>
    rw [hjob] at hissued
    cases c with
    | rpush queue raw =>
      cases queue with
      | dlq => trivial
      | pending =>
        show Q raw
        generalize hqueue : Queue.pending = queue at hissued
        cases hissued with
        | unparseable _ _ => cases hqueue
        | retried hclaimed hrecord hincr _ _ =>
          refine hretry (h.claimed j _ hclaimed) hrecord hincr ?_
          unfold queueOf at hqueue
          split at hqueue
          · cases hqueue
          · next hlt => exact Int.not_le.1 hlt
    | outboxAppend raw => cases hissued
    | outboxAppendleft raw => cases hissued
    | _ => trivial

/-- What holds of the payloads and of every retry holds of every item. -/
theorem everywhere_run {O Q : Raw → Prop} (h : Reach py fits s₀ job P) (hstart : Lists O Q s₀)
    (hpayload : ∀ i rounds payload, job i = .enqueueUsageEvent rounds payload →
      O (.json (.dict payload)))
    (hqueued : ∀ {raw}, O raw → Q raw)
    (hretry : ∀ {raw raw' n}, Q raw → raw.record.isSome = true →
      incrementAttempt py.parse raw = .ok (raw', n) → n < maxRetryAttempts → Q raw') :
    Everywhere O Q job P.shared P.log := by
  refine Pool.Reach.invariant (J := Everywhere O Q job) (jobs_follow py job)
    ⟨hstart, fun i raw hraw => (by cases hraw), fun i raw hraw => absurd hraw List.not_mem_nil,
      fun i rounds payload hjob queue raw hraw => absurd hraw List.not_mem_nil⟩
    (fun {j c r s s' l} _ hJ hissued hE => ?_) (fun hJ he => ?_) h
  · refine ⟨hJ.lists.cmd hE (hJ.puts hpayload hqueued hretry hissued), fun i raw hraw => ?_,
      fun i raw hraw => ?_, fun i rounds payload hjob queue raw hraw => ?_⟩
    · by_cases hij : j = i
      · subst hij
        rw [own_cons_self] at hraw
        rcases hands_cons hraw with hraw | heq
        · exact hJ.hands j raw hraw
        · cases heq
          rcases hE with hrun | ⟨hraised, -⟩
          · have hhead : s.outbox.head? = some raw := by
              unfold Cmd.run at hrun
              exact (Prod.ext_iff.1 (Option.some.inj hrun)).1
            exact hJ.lists.outbox raw (List.mem_of_head? hhead)
          · cases hraised
      · rw [own_cons_ne hij] at hraw
        exact hJ.hands i raw hraw
    · by_cases hij : j = i
      · subst hij
        rw [own_cons_self] at hraw
        rcases claimedRaws_cons hraw with hraw | ⟨nowMs, envelope, henvelope, heq⟩
        · exact hJ.claimed j raw hraw
        · cases heq
          rcases hE with hrun | ⟨hraised, -⟩
          · have hclaim : Except.ok (s.claim nowMs).1 = .ok (some envelope) :=
              (Prod.ext_iff.1 (Option.some.inj hrun)).1
            exact hJ.lists.pending raw (claim_payload (Except.ok.inj hclaim) henvelope)
          · cases hraised
      · rw [own_cons_ne hij] at hraw
        exact hJ.claimed i raw hraw
    · by_cases hij : j = i
      · subst hij
        rw [own_cons_self] at hraw
        rcases List.mem_cons.1 hraw with heq | hraw
        · cases heq
          rw [hjob] at hissued
          cases hissued with
          | replay hhands => exact hJ.hands j raw (by rw [hhands])
          | push _ _ => exact hpayload j rounds payload hjob
        · exact hJ.pushed j rounds payload hjob queue raw hraw
      · rw [own_cons_ne hij] at hraw
        exact hJ.pushed i rounds payload hjob queue raw hraw
  · obtain ⟨nowMs, rfl⟩ := he
    exact ⟨⟨hJ.lists.outbox, hJ.lists.pending, hJ.lists.inflight⟩, hJ.hands, hJ.claimed, hJ.pushed⟩

end Run

/-- A request on text values and the built-ins it needs. -/
def plainPy : Builtins where
  parse _ := none
  decimal _ := none
  str
    | .str s => s
    | _ => ""
  str_str _ := rfl

def emptyState : State := ⟨0, [], [], [], [], []⟩

def usageOf (user request : String) : Fields :=
  [("user_id", .str user), ("logical_model_id", .int 10), ("request_id", .str request)]

/-- A request enqueues its event, and a worker crashes after the claim. -/
def crashedPool : Pool Bool Cmd Cmd.Resp Unit State :=
  Pool.tryPlay (Cmd.run fun _ => true)
    (Pool.start emptyState fun isWorker => (if isWorker then Job.flushUsageRecords
      else .enqueueUsageEvent 10 (usageOf "alice" "r1")).program plainPy)
    [false, false, true, true, true, true]

theorem event_kept_crashed :
    Present (core (.json (.dict (usageOf "alice" "r1")))) crashedPool.shared ∨
      Committed plainPy crashedPool (.json (.dict (usageOf "alice" "r1"))) :=
  (event_kept (Pool.reach_tryPlay (fun h => .inl h) _ _) _).2
    (.enqueued false 10 (usageOf "alice" "r1") rfl
      (List.mem_of_getElem? (i := 4) rfl))

end Events
