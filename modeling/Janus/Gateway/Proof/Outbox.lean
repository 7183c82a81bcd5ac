import Janus.Gateway.Proof.Queue

/-!
# The outbox loses nothing but what it drops

* `outbox_conserved`: at every moment each event of a call has been pushed, or is parked, or is in
  the hands of a call, or was dropped by a full outbox.
* `outbox_fifo`: while no call takes, parks or puts back an item when another one holds one, what
  was dropped was parked before everything that is still parked.
* `outbox_ordered`: calls that do not overlap push in the order of the calls.
* `overlapped_drops_newest`: without that, a failed replay drops the event parked last.
-/

set_option autoImplicit false

namespace Events

open Conc Python

/-! ## What a command does to the outbox -/

/-- Items dropped by a full outbox. -/
def drops (p : Raw → Bool) : Event Cmd Cmd.Resp → Nat
  | ⟨.outboxAppend _, dropped⟩ => (dropped.any p).toNat
  | ⟨.outboxAppendleft _, dropped⟩ => (dropped.any p).toNat
  | _ => 0

section Commands

variable {fits : Row → Bool} {s s' : State} {p : Raw → Bool}

theorem State.full.ne_nil (h : s.full) : s.outbox ≠ [] := by
  intro hnil
  unfold State.full at h
  rw [hnil] at h
  exact absurd h (by decide)

/-- A full outbox drops the item that was parked first. -/
theorem append_full (h : s.full) (raw : Raw) : ∃ first rest, s.outbox = first :: rest ∧
    (s.append raw).1 = some first ∧ (s.append raw).2.outbox = rest ++ [raw] := by
  unfold State.append
  rw [if_pos h]
  cases houtbox : s.outbox with
  | nil => exact absurd houtbox h.ne_nil
  | cons first rest => exact ⟨first, rest, rfl, rfl, rfl⟩

theorem append_room (h : ¬ s.full) (raw : Raw) :
    (s.append raw).1 = none ∧ (s.append raw).2.outbox = s.outbox ++ [raw] := by
  unfold State.append
  rw [if_neg h]
  exact ⟨rfl, rfl⟩

/-- Put back on a full outbox, an item drops the one that was parked last. -/
theorem appendleft_full (h : s.full) (raw : Raw) : ∃ front last, s.outbox = front ++ [last] ∧
    (s.appendleft raw).1 = some last ∧ (s.appendleft raw).2.outbox = raw :: front := by
  refine ⟨s.outbox.dropLast, s.outbox.getLast h.ne_nil, ?_⟩
  unfold State.appendleft
  rw [if_pos h]
  exact ⟨(List.dropLast_append_getLast h.ne_nil).symm, List.getLast?_eq_some_getLast h.ne_nil, rfl⟩

theorem appendleft_room (h : ¬ s.full) (raw : Raw) :
    (s.appendleft raw).1 = none ∧ (s.appendleft raw).2.outbox = raw :: s.outbox := by
  unfold State.appendleft
  rw [if_neg h]
  exact ⟨rfl, rfl⟩

/-- The commands of the queue leave the outbox alone. -/
theorem outbox_other {c : Cmd} {r : c.Resp} (hE : sem fits c s r s')
    (hother : c ≠ .outboxPopleft ∧ (∀ raw, c ≠ .outboxAppend raw) ∧
      ∀ raw, c ≠ .outboxAppendleft raw) : s'.outbox = s.outbox := by
  rcases hE with hrun | ⟨-, rfl⟩
  · cases c with
    | rpush queue raw =>
      cases hrun
      cases queue <;> rfl
    | claim nowMs =>
      cases hrun
      unfold State.claim
      split <;> rfl
    | recover cutoffMs =>
      cases hrun
      have hfold (envelopes : List Envelope) (acc : (Nat × Nat) × State) :
          (envelopes.foldl (State.recoverOne cutoffMs) acc).2.outbox = acc.2.outbox := by
        induction envelopes generalizing acc with
        | nil => rfl
        | cons envelope envelopes ih =>
          rw [List.foldl_cons, ih]
          unfold State.recoverOne State.lrem
          dsimp only
          split
          · rfl
          · split
            · rfl
            · split <;> rfl
      exact hfold s.inflight ((0, 0), s)
    | insert rows =>
      unfold Cmd.run at hrun
      dsimp only at hrun
      split at hrun <;> cases hrun <;> rfl
    | outboxPopleft => exact absurd rfl hother.1
    | outboxAppend raw => exact absurd rfl (hother.2.1 raw)
    | outboxAppendleft raw => exact absurd rfl (hother.2.2 raw)
    | stuck => cases hrun
    | _ =>
      cases hrun
      rfl
  · rfl

/-- A command that never raises has run. -/
theorem run_of_sem {c : Cmd} {r : c.Resp} (hraised : c.raised = none) (hE : sem fits c s r s') :
    c.run fits s = some (r, s') := by
  rcases hE with hrun | ⟨hr, -⟩
  · exact hrun
  · rw [hraised] at hr
    cases hr

/-- The ledger of the outbox. -/
theorem outbox_cmd {c : Cmd} {r : c.Resp} (hE : sem fits c s r s') :
    s'.outbox.countP p + takes p ⟨c, r⟩ + drops p ⟨c, r⟩ = s.outbox.countP p + parks p ⟨c, r⟩ := by
  have hraised {r : c.Resp} (h : c.raised = some r) : c ≠ .outboxPopleft ∧
      (∀ raw, c ≠ .outboxAppend raw) ∧ ∀ raw, c ≠ .outboxAppendleft raw := by
    cases c with
    | outboxPopleft => cases h
    | outboxAppend raw => cases h
    | outboxAppendleft raw => cases h
    | _ => exact ⟨nofun, nofun, nofun⟩
  cases c with
  | outboxPopleft =>
    rcases hE with hrun | ⟨h, -⟩
    · cases hrun
      cases houtbox : s.outbox with
      | nil => rfl
      | cons first rest =>
        show rest.countP p + (p first).toNat + 0 = (first :: rest).countP p + 0
        rw [countP_toNat]
        omega
    · exact absurd rfl (hraised h).1
  | outboxAppend raw =>
    rcases hE with hrun | ⟨h, -⟩
    · cases hrun
      show (s.append raw).2.outbox.countP p + 0 + ((s.append raw).1.any p).toNat =
        s.outbox.countP p + (p raw).toNat
      by_cases hfull : s.full
      · obtain ⟨first, rest, houtbox, hdropped, hafter⟩ := append_full hfull raw
        rw [hdropped, hafter, houtbox, List.countP_append, countP_single, countP_toNat,
          Option.any_some]
        omega
      · obtain ⟨hdropped, hafter⟩ := append_room hfull raw
        rw [hdropped, hafter, List.countP_append, countP_single]
        rfl
    · exact absurd rfl ((hraised h).2.1 raw)
  | outboxAppendleft raw =>
    rcases hE with hrun | ⟨h, -⟩
    · cases hrun
      show (s.appendleft raw).2.outbox.countP p + 0 + ((s.appendleft raw).1.any p).toNat =
        s.outbox.countP p + (p raw).toNat
      by_cases hfull : s.full
      · obtain ⟨front, last, houtbox, hdropped, hafter⟩ := appendleft_full hfull raw
        rw [hdropped, hafter, houtbox, List.countP_append, countP_single, countP_toNat,
          Option.any_some]
        omega
      · obtain ⟨hdropped, hafter⟩ := appendleft_room hfull raw
        rw [hdropped, hafter, countP_toNat, Option.any_none, Bool.toNat_false]
        omega
    · exact absurd rfl ((hraised h).2.2 raw)
  | _ =>
    rw [outbox_other hE ⟨nofun, nofun, nofun⟩]
    rfl

end Commands

/-! ## Calls -/

/-- A call of `enqueue_event` for each thread. -/
def callJob {ι : Type} (calls : ι → Nat × Fields) (i : ι) : Job :=
  .enqueueUsageEvent (calls i).1 (calls i).2

/-- The event of a call. -/
def eventOf {ι : Type} (calls : ι → Nat × Fields) (i : ι) : Raw := .json (.dict (calls i).2)

section Lists

variable {ι : Type}

/-- What the calls have parked, oldest first. -/
def parked : Log ι Cmd Cmd.Resp → List Raw
  | [] => []
  | (_, ⟨.outboxAppend raw, _⟩) :: l => parked l ++ [raw]
  | _ :: l => parked l

/-- What a full outbox has dropped, oldest first. -/
def dropped : Log ι Cmd Cmd.Resp → List Raw
  | [] => []
  | (_, ⟨.outboxAppend _, raw⟩) :: l => dropped l ++ raw.toList
  | (_, ⟨.outboxAppendleft _, raw⟩) :: l => dropped l ++ raw.toList
  | _ :: l => dropped l

/-- What has reached Redis, oldest first. -/
def pushed : Log ι Cmd Cmd.Resp → List Raw
  | [] => []
  | (_, ⟨.rpush .pending raw, .ok _⟩) :: l => pushed l ++ [raw]
  | _ :: l => pushed l

variable [DecidableEq ι]

/-- The events of the calls in the order of their first commands. -/
def called (calls : ι → Nat × Fields) : Log ι Cmd Cmd.Resp → List Raw
  | [] => []
  | (i, _) :: l => if own i l = [] then called calls l ++ [eventOf calls i] else called calls l

/-- The command takes an item, parks one or puts one back. -/
def moves : Event Cmd Cmd.Resp → Bool
  | ⟨.outboxPopleft, taken⟩ => taken.isSome
  | ⟨.outboxAppend _, _⟩ | ⟨.outboxAppendleft _, _⟩ => true
  | _ => false

/-- No call takes, parks or puts back an item while another one holds an item of the outbox. -/
def Solo : Log ι Cmd Cmd.Resp → Prop
  | [] => True
  | (i, e) :: l => Solo l ∧ (moves e = true → ∀ j, j ≠ i → (hands (own j l)).1 = none)

/-- A call that has not begun or is over. -/
def Idle (j : ι) (l : Log ι Cmd Cmd.Resp) : Prop := own j l = [] ∨ hands (own j l) = (none, false)

/-- Each call begins after the one before is over. -/
def NoOverlap : Log ι Cmd Cmd.Resp → Prop
  | [] => True
  | (i, _) :: l => NoOverlap l ∧ ∀ j, j ≠ i → Idle j l

end Lists

section Calls

variable {ι : Type} [DecidableEq ι] {py : Builtins} {fits : Row → Bool} {s₀ s s' : State}
  {calls : ι → Nat × Fields} {P : Pool ι Cmd Cmd.Resp Unit State} {l : Log ι Cmd Cmd.Resp}

theorem outbox_ledger {job : ι → Job} {p : Raw → Bool} (h : Reach py fits s₀ job P) :
    P.shared.outbox.countP p + (P.log.map fun ev => takes p ev.2).sum +
      (P.log.map fun ev => drops p ev.2).sum =
      s₀.outbox.countP p + (P.log.map fun ev => parks p ev.2).sum := by
  refine Pool.Reach.invariant (J := fun s l => s.outbox.countP p +
      (l.map fun ev => takes p ev.2).sum + (l.map fun ev => drops p ev.2).sum =
      s₀.outbox.countP p + (l.map fun ev => parks p ev.2).sum)
    (jobs_follow py job) rfl (fun {i c r s s' l} _ hJ _ hE => ?_) (fun hJ he => ?_) h
  · have hcmd := outbox_cmd (p := p) hE
    simp only [List.map_cons, List.sum_cons]
    omega
  · obtain ⟨nowMs, rfl⟩ := he
    exact hJ

/-- Each event of a call has been pushed, or is parked, or is in the hands of a call, or was
dropped. -/
theorem outbox_conserved [Fintype ι] (h : Reach py fits s₀ (callJob calls) P) (p : Raw → Bool) :
    s₀.outbox.countP p + ∑ i, (p (eventOf calls i)).toNat =
      ∑ i, tally (sends p) (own i P.log) + P.shared.outbox.countP p +
        ∑ i, held p (calls i).2 (own i P.log) + ∑ i, tally (drops p) (own i P.log) := by
  have hledger := outbox_ledger (p := p) h
  have htakes : ∑ i, tally (takes p) (own i P.log) = _ := sum_own _ P.log
  have hdrops : ∑ i, tally (drops p) (own i P.log) = _ := sum_own _ P.log
  have hparks : ∑ i, tally (parks p) (own i P.log) = _ := sum_own _ P.log
  have hthreads : ∑ i, (tally (sends p) (own i P.log) + tally (parks p) (own i P.log) +
      held p (calls i).2 (own i P.log)) =
      ∑ i, (tally (takes p) (own i P.log) + (p (eventOf calls i)).toNat) :=
    Finset.sum_congr rfl fun i _ =>
      request_balanced (h.follows (jobs_follow py (callJob calls)) i).1
  simp only [Finset.sum_add_distrib] at hthreads
  omega

/-! ### Dropped items -/

/-- The item that a call holds, if any. -/
def Holder (l : Log ι Cmd Cmd.Resp) (item : List Raw) : Prop :=
  (item = [] ∧ ∀ i, (hands (own i l)).1 = none) ∨
  ∃ i raw, item = [raw] ∧ (hands (own i l)).1 = some raw ∧
    ∀ j, j ≠ i → (hands (own j l)).1 = none

theorem Holder.eq_of_some {item : List Raw} {i : ι} {raw : Raw} (h : Holder l item)
    (hi : (hands (own i l)).1 = some raw) :
    item = [raw] ∧ ∀ j, j ≠ i → (hands (own j l)).1 = none := by
  rcases h with ⟨-, hnone⟩ | ⟨i', raw', hitem, hi', hnone⟩
  · rw [hnone i] at hi
    cases hi
  · by_cases hii : i = i'
    · subst hii
      cases hi'.symm.trans hi
      exact ⟨hitem, hnone⟩
    · rw [hnone i hii] at hi
      cases hi

theorem Holder.eq_nil {item : List Raw} (h : Holder l item)
    (hnone : ∀ i, (hands (own i l)).1 = none) : item = [] := by
  rcases h with ⟨hitem, -⟩ | ⟨i, raw, -, hi, -⟩
  · exact hitem
  · rw [hnone i] at hi
    cases hi

/-- A command after which its call holds what it held before. -/
theorem Holder.same {item : List Raw} {j : ι} {ev : Event Cmd Cmd.Resp} (h : Holder l item)
    (hsame : (hands (ev :: own j l)).1 = (hands (own j l)).1) : Holder ((j, ev) :: l) item := by
  have hall (i : ι) : (hands (own i ((j, ev) :: l))).1 = (hands (own i l)).1 := by
    by_cases hij : j = i
    · subst hij
      rw [own_cons_self]
      exact hsame
    · rw [own_cons_ne hij]
  rcases h with ⟨hitem, hnone⟩ | ⟨i, raw, hitem, hi, hnone⟩
  · exact .inl ⟨hitem, fun i => (hall i).trans (hnone i)⟩
  · exact .inr ⟨i, raw, hitem, (hall i).trans hi, fun k hk => (hall k).trans (hnone k hk)⟩

/-- A command after which no call holds anything. -/
theorem Holder.emptied {j : ι} {ev : Event Cmd Cmd.Resp} (hown : (hands (ev :: own j l)).1 = none)
    (hnone : ∀ i, i ≠ j → (hands (own i l)).1 = none) : Holder ((j, ev) :: l) [] := by
  refine .inl ⟨rfl, fun i => ?_⟩
  by_cases hij : j = i
  · subst hij
    rw [own_cons_self]
    exact hown
  · rw [own_cons_ne hij]
    exact hnone i (Ne.symm hij)

/-- The outbox is the end of all that was parked; before it comes the item in hand, and before that
what has been pushed or dropped. -/
structure Fifo (s₀ s : State) (l : Log ι Cmd Cmd.Resp) (gone item : List Raw) : Prop where
  order : s₀.outbox ++ parked l = gone ++ (item ++ s.outbox)
  holder : Holder l item
  dropped : (dropped l).Sublist gone
  room : item.length + s.outbox.length ≤ outboxMaxPerQueue

/-- A command that moves no item, after which its call holds what it held before. -/
theorem Fifo.aside {j : ι} {e : Event Cmd Cmd.Resp} {gone item : List Raw}
    (h : Fifo s₀ s l gone item) (houtbox : s'.outbox = s.outbox)
    (hparked : parked ((j, e) :: l) = parked l)
    (hdropped : Events.dropped ((j, e) :: l) = Events.dropped l)
    (hsame : (hands (e :: own j l)).1 = (hands (own j l)).1) :
    Fifo s₀ s' ((j, e) :: l) gone item where
  order := by rw [houtbox, hparked, h.order]
  holder := h.holder.same hsame
  dropped := hdropped ▸ h.dropped
  room := houtbox ▸ h.room

/-- While a call moves an item, no other one holds any. -/
theorem holds_none {e : Event Cmd Cmd.Resp} {j : ι} (hsolo : Solo ((j, e) :: l))
    (hmoves : moves e = true) (hj : (hands (own j l)).1 = none) (i : ι) :
    (hands (own i l)).1 = none := by
  by_cases hij : i = j
  · rw [hij, hj]
  · exact hsolo.2 hmoves i hij

theorem Fifo.pop {j : ι} {gone item : List Raw} (h : Fifo s₀ s l gone item)
    (hsolo : Solo ((j, ⟨.outboxPopleft, s.outbox.head?⟩) :: l))
    (hhands : hands (own j l) = (none, true)) : ∃ gone item,
      Fifo s₀ { s with outbox := s.outbox.tail } ((j, ⟨.outboxPopleft, s.outbox.head?⟩) :: l)
        gone item := by
  cases houtbox : s.outbox with
  | nil => exact ⟨gone, item, h.aside houtbox.symm rfl rfl rfl⟩
  | cons first later =>
    rw [houtbox] at hsolo
    have hnone := holds_none hsolo rfl (congrArg Prod.fst hhands)
    have hitem := h.holder.eq_nil hnone
    subst hitem
    have horder := h.order
    have hroom := h.room
    rw [houtbox] at horder hroom
    refine ⟨gone, [first], horder, .inr ⟨j, first, rfl, ?_, fun i hij => ?_⟩, h.dropped, ?_⟩
    · rw [own_cons_self]
      rfl
    · rw [own_cons_ne (Ne.symm hij)]
      exact hnone i
    · simp only [List.length_cons, List.length_nil, List.tail_cons] at hroom ⊢
      omega

theorem Fifo.replayed {j : ι} {gone item : List Raw} {raw : Raw} {n : Unit}
    (h : Fifo s₀ s l gone item) (houtbox : s'.outbox = s.outbox)
    (hhands : hands (own j l) = (some raw, true)) : ∃ gone item,
      Fifo s₀ s' ((j, ⟨.rpush .pending raw, .ok n⟩) :: l) gone item := by
  obtain ⟨rfl, hnone⟩ := h.holder.eq_of_some (i := j) (by rw [hhands])
  refine ⟨gone ++ [raw], [], ?_, .emptied rfl hnone, ?_, ?_⟩
  · rw [houtbox, List.append_assoc]
    exact h.order
  · exact h.dropped.trans (List.sublist_append_left _ _)
  · have hroom := h.room
    rw [houtbox]
    simp only [List.length_cons, List.length_nil] at hroom ⊢
    omega

/-- An item that is put back finds its place free. -/
theorem Fifo.putBack {j : ι} {gone item : List Raw} {raw : Raw} (h : Fifo s₀ s l gone item)
    (hhands : hands (own j l) = (some raw, true)) : ∃ gone item,
      Fifo s₀ (s.appendleft raw).2 ((j, ⟨.outboxAppendleft raw, (s.appendleft raw).1⟩) :: l)
        gone item := by
  obtain ⟨rfl, hnone⟩ := h.holder.eq_of_some (i := j) (by rw [hhands])
  have hroom := h.room
  simp only [List.length_cons, List.length_nil] at hroom
  have hfull : ¬ s.full := by
    unfold State.full
    omega
  obtain ⟨hdropped, hafter⟩ := appendleft_room hfull raw
  refine ⟨gone, [], ?_, .emptied rfl hnone, ?_, ?_⟩
  · rw [hafter]
    exact h.order
  · show (Events.dropped l ++ (s.appendleft raw).1.toList).Sublist gone
    rw [hdropped, Option.toList_none, List.append_nil]
    exact h.dropped
  · rw [hafter]
    simp only [List.length_cons, List.length_nil]
    omega

theorem Fifo.park {j : ι} {gone item : List Raw} {raw : Raw} (h : Fifo s₀ s l gone item)
    (hsolo : Solo ((j, ⟨.outboxAppend raw, (s.append raw).1⟩) :: l))
    (hhands : hands (own j l) = (none, true)) : ∃ gone item,
      Fifo s₀ (s.append raw).2 ((j, ⟨.outboxAppend raw, (s.append raw).1⟩) :: l) gone item := by
  have hnone := holds_none hsolo rfl (congrArg Prod.fst hhands)
  have hitem := h.holder.eq_nil hnone
  subst hitem
  have horder := h.order
  have hroom := h.room
  simp only [List.length_nil, List.nil_append] at hroom horder
  by_cases hfull : s.full
  · obtain ⟨first, rest, houtbox, hdropped, hafter⟩ := append_full hfull raw
    rw [houtbox] at horder hroom
    refine ⟨gone ++ [first], [], ?_, .emptied rfl fun i _ => hnone i, ?_, ?_⟩
    · show s₀.outbox ++ (parked l ++ [_]) = _
      rw [← List.append_assoc, horder, hafter]
      simp
    · show (Events.dropped l ++ (s.append _).1.toList).Sublist _
      rw [hdropped]
      exact List.Sublist.append h.dropped (List.Sublist.refl _)
    · rw [hafter]
      simp only [List.length_cons, List.length_append, List.length_nil] at hroom ⊢
      omega
  · obtain ⟨hdropped, hafter⟩ := append_room hfull raw
    refine ⟨gone, [], ?_, .emptied rfl fun i _ => hnone i, ?_, ?_⟩
    · show s₀.outbox ++ (parked l ++ [_]) = _
      rw [← List.append_assoc, horder, hafter]
      simp
    · show (Events.dropped l ++ (s.append _).1.toList).Sublist _
      rw [hdropped, Option.toList_none, List.append_nil]
      exact h.dropped
    · rw [hafter]
      unfold State.full at hfull
      simp only [List.length_cons, List.length_append, List.length_nil]
      omega

theorem fifo_cmd {c : Cmd} {r : c.Resp} {j : ι} {gone item : List Raw}
    (h : Fifo s₀ s l gone item) (hsolo : Solo ((j, ⟨c, r⟩) :: l))
    (hissued : RequestIssues (calls j).2 (own j l) c) (hE : sem fits c s r s') :
    ∃ gone item, Fifo s₀ s' ((j, ⟨c, r⟩) :: l) gone item := by
  cases hissued with
  | pop hhands =>
    cases run_of_sem rfl hE
    exact h.pop hsolo hhands
  | @replay raw hhands =>
    have houtbox : s'.outbox = s.outbox := outbox_other hE ⟨nofun, nofun, nofun⟩
    cases r with
    | error e => exact ⟨gone, item, h.aside houtbox rfl rfl rfl⟩
    | ok _ => exact h.replayed houtbox hhands
  | @putBack raw hhands =>
    cases run_of_sem rfl hE
    exact h.putBack hhands
  | push hhands _ =>
    have houtbox : s'.outbox = s.outbox := outbox_other hE ⟨nofun, nofun, nofun⟩
    refine ⟨gone, item, h.aside houtbox ?_ ?_ ?_⟩
    · cases r <;> rfl
    · rfl
    · rw [hhands]
      cases r with
      | error e => exact congrArg Prod.fst hhands
      | ok _ => rfl
  | park hhands =>
    cases run_of_sem rfl hE
    exact h.park hsolo hhands
  | stuck _ => cases r

/-- What was dropped was parked before everything in hand and everything still parked. -/
theorem outbox_fifo (h : Reach py fits s₀ (callJob calls) P)
    (hroom : s₀.outbox.length ≤ outboxMaxPerQueue) (hsolo : Solo P.log) :
    ∃ gone item, Fifo s₀ P.shared P.log gone item := by
  have hrun : Solo P.log → ∃ gone item, Fifo s₀ P.shared P.log gone item := by
    refine Pool.Reach.invariant (J := fun s l => Solo l → ∃ gone item, Fifo s₀ s l gone item)
      (jobs_follow py (callJob calls)) (fun _ => ⟨[], [], ?_⟩)
      (fun {j c r s s' l} _ hJ hissued hE hsolo => ?_) (fun hJ he hsolo => ?_) h
    · refine ⟨List.append_nil _, .inl ⟨rfl, fun i => rfl⟩, List.Sublist.refl _, ?_⟩
      simpa using hroom
    · obtain ⟨gone, item, hfifo⟩ := hJ hsolo.1
      exact fifo_cmd hfifo hsolo hissued hE
    · obtain ⟨gone, item, hfifo⟩ := hJ hsolo
      obtain ⟨nowMs, rfl⟩ := he
      exact ⟨gone, item, hfifo.order, hfifo.holder, hfifo.dropped, hfifo.room⟩
  exact hrun hsolo

/-! ### The order of the calls -/

/-- What is still to be pushed when call `i` alone is under way. -/
def rest (calls : ι → Nat × Fields) (i : ι) (s : State) (l : Log ι Cmd Cmd.Resp) : List Raw :=
  (hands (own i l)).1.toList ++
    (s.outbox ++ if own i l ≠ [] ∧ (hands (own i l)).2 = true then [eventOf calls i] else [])

theorem rest_idle {i : ι} (h : Idle i l) : rest calls i s l = s.outbox := by
  unfold rest
  rcases h with hnil | hover
  · rw [hnil]
    simp [hands]
  · rw [hover]
    simp

/-- All events so far are what was pushed and then what is still to be pushed, in that order. -/
structure InOrder (calls : ι → Nat × Fields) (s₀ s : State) (l : Log ι Cmd Cmd.Resp) (i : ι) :
    Prop where
  order : s₀.outbox ++ called calls l = pushed l ++ rest calls i s l
  drained : (hands (own i l)).2 = true → (own i l).head? = some ⟨.outboxPopleft, none⟩ → s.outbox = []

/-- The own event of a call that is not over comes last. -/
theorem InOrder.before {j : ι} (h : InOrder calls s₀ s l j) (ev : Event Cmd Cmd.Resp)
    (hopen : (hands (own j l)).2 = true) : s₀.outbox ++ called calls ((j, ev) :: l) =
      pushed l ++ ((hands (own j l)).1.toList ++ (s.outbox ++ [eventOf calls j])) := by
  have horder := h.order
  unfold rest at horder
  show s₀.outbox ++ (if own j l = [] then called calls l ++ [eventOf calls j]
    else called calls l) = _
  by_cases hnil : own j l = []
  · rw [if_pos hnil, ← List.append_assoc, horder, hnil]
    simp [hands]
  · rw [if_neg hnil, horder, if_pos ⟨hnil, hopen⟩]

theorem rest_cons {j : ι} {ev : Event Cmd Cmd.Resp} : rest calls j s ((j, ev) :: l) =
    (hands (ev :: own j l)).1.toList ++
      (s.outbox ++ if (hands (ev :: own j l)).2 = true then [eventOf calls j] else []) := by
  unfold rest
  rw [own_cons_self]
  simp

theorem not_full_of_append {raw : Raw} (h : (s.append raw).1 = none) : ¬ s.full := by
  intro hfull
  obtain ⟨first, _, -, hsome, -⟩ := append_full hfull raw
  rw [hsome] at h
  cases h

theorem not_full_of_appendleft {raw : Raw} (h : (s.appendleft raw).1 = none) : ¬ s.full := by
  intro hfull
  obtain ⟨_, last, -, hsome, -⟩ := appendleft_full hfull raw
  rw [hsome] at h
  cases h

section InOrder

variable {j : ι} {raw : Raw}

theorem InOrder.pop (h : InOrder calls s₀ s l j) (hhands : hands (own j l) = (none, true)) :
    InOrder calls s₀ { s with outbox := s.outbox.tail }
      ((j, ⟨.outboxPopleft, s.outbox.head?⟩) :: l) j := by
  have hbefore := h.before ⟨.outboxPopleft, s.outbox.head?⟩ (by rw [hhands])
  constructor
  · rw [hbefore, rest_cons, hhands]
    cases houtbox : s.outbox with
    | nil =>
      show _ = pushed l ++ ((hands (own j l)).1.toList ++ ([] ++
        if (hands (own j l)).2 = true then [eventOf calls j] else []))
      rw [hhands]
      rfl
    | cons first later =>
      show _ = pushed l ++ ([first] ++ (later ++ if (hands (own j l)).2 = true then
        [eventOf calls j] else []))
      rw [hhands]
      rfl
  · intro _ hhead
    rw [own_cons_self] at hhead
    cases houtbox : s.outbox with
    | nil => rfl
    | cons first later =>
      rw [houtbox] at hhead
      cases hhead

theorem InOrder.replay {r : (Cmd.rpush .pending raw).Resp} (h : InOrder calls s₀ s l j)
    (houtbox : s'.outbox = s.outbox) (hhands : hands (own j l) = (some raw, true)) :
    InOrder calls s₀ s' ((j, ⟨.rpush .pending raw, r⟩) :: l) j := by
  have hbefore := h.before ⟨.rpush .pending raw, r⟩ (by rw [hhands])
  constructor
  · rw [hbefore, rest_cons, houtbox]
    cases r with
    | error e =>
      show _ = pushed l ++ ((hands (own j l)).1.toList ++ (s.outbox ++
        if (hands (own j l)).2 = true then [eventOf calls j] else []))
      rw [hhands]
      rfl
    | ok _ =>
      show _ = (pushed l ++ [raw]) ++ ([] ++ (s.outbox ++
        if ((hands (own j l)).1.isSome && (hands (own j l)).2) = true then [eventOf calls j]
        else []))
      rw [hhands]
      simp
  · intro _ hhead
    rw [own_cons_self] at hhead
    cases hhead

theorem InOrder.putBack (h : InOrder calls s₀ s l j)
    (hdropped : dropped ((j, ⟨.outboxAppendleft raw, (s.appendleft raw).1⟩) :: l) = [])
    (hhands : hands (own j l) = (some raw, true)) :
    InOrder calls s₀ (s.appendleft raw).2
      ((j, ⟨.outboxAppendleft raw, (s.appendleft raw).1⟩) :: l) j := by
  have hbefore := h.before ⟨.outboxAppendleft raw, (s.appendleft raw).1⟩ (by rw [hhands])
  have hnone : (s.appendleft raw).1 = none :=
    Option.toList_eq_nil_iff.1 (List.append_eq_nil_iff.1 hdropped).2
  obtain ⟨-, hafter⟩ := appendleft_room (not_full_of_appendleft hnone) raw
  constructor
  · rw [hbefore, rest_cons, hafter, hhands]
    show _ = pushed l ++ ([] ++ ((raw :: s.outbox) ++ if (hands (own j l)).2 = true then
      [eventOf calls j] else []))
    rw [hhands]
    rfl
  · intro _ hhead
    rw [own_cons_self] at hhead
    cases hhead

/-- The own event is pushed when the outbox is empty. -/
theorem InOrder.push {t : Trace Cmd Cmd.Resp} {r : (Cmd.rpush .pending (eventOf calls j)).Resp}
    (h : InOrder calls s₀ s l j) (houtbox : s'.outbox = s.outbox)
    (hhands : hands (own j l) = (none, true)) (ht : own j l = ⟨.outboxPopleft, none⟩ :: t) :
    InOrder calls s₀ s' ((j, ⟨.rpush .pending (eventOf calls j), r⟩) :: l) j := by
  have hbefore := h.before ⟨.rpush .pending (eventOf calls j), r⟩ (by rw [hhands])
  have hempty : s.outbox = [] := h.drained (by rw [hhands]) (by rw [ht]; rfl)
  constructor
  · rw [hbefore, rest_cons, houtbox, hempty, hhands]
    cases r with
    | error e =>
      show _ = pushed l ++ ((hands (own j l)).1.toList ++ ([] ++
        if (hands (own j l)).2 = true then [eventOf calls j] else []))
      rw [hhands]
      rfl
    | ok _ =>
      show _ = (pushed l ++ [eventOf calls j]) ++ ([] ++ ([] ++
        if ((hands (own j l)).1.isSome && (hands (own j l)).2) = true then [eventOf calls j]
        else []))
      rw [hhands]
      simp
  · intro _ hhead
    rw [own_cons_self] at hhead
    cases hhead

theorem InOrder.park (h : InOrder calls s₀ s l j)
    (hdropped : dropped ((j, ⟨.outboxAppend (eventOf calls j), (s.append (eventOf calls j)).1⟩) :: l)
      = []) (hhands : hands (own j l) = (none, true)) :
    InOrder calls s₀ (s.append (eventOf calls j)).2
      ((j, ⟨.outboxAppend (eventOf calls j), (s.append (eventOf calls j)).1⟩) :: l) j := by
  have hbefore := h.before ⟨.outboxAppend (eventOf calls j), (s.append (eventOf calls j)).1⟩
    (by rw [hhands])
  have hnone : (s.append (eventOf calls j)).1 = none :=
    Option.toList_eq_nil_iff.1 (List.append_eq_nil_iff.1 hdropped).2
  obtain ⟨-, hafter⟩ := append_room (not_full_of_append hnone) (eventOf calls j)
  constructor
  · rw [hbefore, rest_cons, hhands]
    show _ = pushed l ++ ([] ++ ((s.append (eventOf calls j)).2.outbox ++ []))
    rw [hafter]
    simp
  · intro _ hhead
    rw [own_cons_self] at hhead
    cases hhead

end InOrder

theorem inOrder_cmd {c : Cmd} {r : c.Resp} {j : ι} (h : InOrder calls s₀ s l j)
    (hdropped : dropped ((j, ⟨c, r⟩) :: l) = [])
    (hissued : RequestIssues (calls j).2 (own j l) c) (hE : sem fits c s r s') :
    InOrder calls s₀ s' ((j, ⟨c, r⟩) :: l) j := by
  cases hissued with
  | pop hhands =>
    cases run_of_sem rfl hE
    exact h.pop hhands
  | @replay raw hhands => exact h.replay (outbox_other hE ⟨nofun, nofun, nofun⟩) hhands
  | @putBack raw hhands =>
    cases run_of_sem rfl hE
    exact h.putBack hdropped hhands
  | @push t hhands ht => exact h.push (outbox_other hE ⟨nofun, nofun, nofun⟩) hhands ht
  | park hhands =>
    cases run_of_sem rfl hE
    exact h.park hdropped hhands
  | stuck _ => cases r

omit [DecidableEq ι] in
theorem dropped_sub {e : ι × Event Cmd Cmd.Resp} : dropped l ⊆ dropped (e :: l) := by
  obtain ⟨i, c, r⟩ := e
  cases c with
  | outboxAppend raw => exact List.subset_append_left _ _
  | outboxAppendleft raw => exact List.subset_append_left _ _
  | _ => exact List.Subset.refl _

/-- Calls that do not overlap push in the order of the calls. -/
theorem outbox_ordered (h : Reach py fits s₀ (callJob calls) P) (hcalls : NoOverlap P.log)
    (hdropped : dropped P.log = []) : pushed P.log <+: s₀.outbox ++ called calls P.log := by
  have hrun : NoOverlap P.log → dropped P.log = [] →
      ∀ i, (∀ j, j ≠ i → Idle j P.log) → InOrder calls s₀ P.shared P.log i := by
    refine Pool.Reach.invariant (J := fun s l => NoOverlap l → dropped l = [] →
        ∀ i, (∀ j, j ≠ i → Idle j l) → InOrder calls s₀ s l i)
      (jobs_follow py (callJob calls)) (fun _ _ i _ => ⟨?_, fun _ hhead => by cases hhead⟩)
      (fun {j c r s s' l} _ hJ hissued hE hcalls hdropped i hidle => ?_)
      (fun hJ he hcalls hdropped i hidle => ?_) h
    · rw [rest_idle (.inl rfl)]
      exact List.append_nil _
    · have hbefore := hJ hcalls.1 (List.subset_nil.1 (hdropped ▸ dropped_sub)) j hcalls.2
      have hown := inOrder_cmd hbefore hdropped hissued hE
      by_cases hij : i = j
      · rw [hij]
        exact hown
      · -- call `j` is over, and call `i` had not begun or was over before
        have hi : Idle i ((j, ⟨c, r⟩) :: l) := by
          have hidle_i := hcalls.2 i hij
          unfold Idle at hidle_i ⊢
          rwa [own_cons_ne (Ne.symm hij)]
        have hj := hidle j (Ne.symm hij)
        constructor
        · rw [rest_idle hi]
          have horder := hown.order
          rw [rest_idle hj] at horder
          exact horder
        · intro hopen hhead
          rcases hi with hnil | hover
          · rw [hnil] at hhead
            cases hhead
          · rw [hover] at hopen
            cases hopen
    · obtain ⟨nowMs, rfl⟩ := he
      have hsame := hJ hcalls hdropped i hidle
      exact ⟨hsame.order, hsame.drained⟩
  cases hlog : P.log with
  | nil => exact List.nil_prefix
  | cons e l =>
    obtain ⟨i, ev⟩ := e
    rw [← hlog]
    have hidle : ∀ j, j ≠ i → Idle j P.log := by
      intro j hj
      rw [hlog] at hcalls ⊢
      have hj' := hcalls.2 j hj
      unfold Idle at hj' ⊢
      rwa [own_cons_ne (Ne.symm hj)]
    exact ⟨_, (hrun hcalls hdropped i hidle).order.symm⟩

/-- No event is lost or doubled; what was dropped is older than what is parked, as long as no call
moves an item of the outbox while another one holds one; and calls that do not overlap keep their
order. -/
theorem outbox_kept [Fintype ι] (h : Reach py fits s₀ (callJob calls) P)
    (hroom : s₀.outbox.length ≤ outboxMaxPerQueue) :
    (∀ p : Raw → Bool, s₀.outbox.countP p + ∑ i, (p (eventOf calls i)).toNat =
      ∑ i, tally (sends p) (own i P.log) + P.shared.outbox.countP p +
        ∑ i, held p (calls i).2 (own i P.log) + ∑ i, tally (drops p) (own i P.log)) ∧
    (Solo P.log → ∃ gone item, Fifo s₀ P.shared P.log gone item) ∧
    (NoOverlap P.log → dropped P.log = [] → pushed P.log <+: s₀.outbox ++ called calls P.log) :=
  ⟨outbox_conserved h, outbox_fifo h hroom, outbox_ordered h⟩

end Calls

/-! ## Two calls during an outage -/

def twoCalls (second : Bool) : Nat × Fields :=
  (10, if second then usageOf "bob" "r2" else usageOf "alice" "r1")

def outageState (outbox : List Raw) : State := ⟨0, outbox, [], [], [], []⟩

theorem sem_failed (raw : Raw) (s : State) : sem (fun _ => true) (.rpush .pending raw) s
    (.error .redisError) s := .inr ⟨rfl, rfl⟩

/-- The push of the first call fails, and it parks its event. The second call begins when Redis is
up again: it takes the event from the outbox, pushes it, and then pushes its own. -/
theorem outbox_kept_replayed : ∃ P : Pool Bool Cmd Cmd.Resp Unit State,
    Solo P.log ∧ NoOverlap P.log ∧ parked P.log = [eventOf twoCalls false] ∧
    (∀ p : Raw → Bool, emptyState.outbox.countP p + ∑ i, (p (eventOf twoCalls i)).toNat =
      ∑ i, tally (sends p) (own i P.log) + P.shared.outbox.countP p +
        ∑ i, held p (twoCalls i).2 (own i P.log) + ∑ i, tally (drops p) (own i P.log)) ∧
    (Solo P.log → ∃ gone item, Fifo emptyState P.shared P.log gone item) ∧
    (NoOverlap P.log → dropped P.log = [] →
      pushed P.log <+: emptyState.outbox ++ called twoCalls P.log) := by
  have h₀ : Reach plainPy (fun _ => true) emptyState (callJob twoCalls) _ := .refl
  have h₁ := h₀.tail (.run (i := false) rfl (.inl rfl))
  have h₂ := h₁.tail (.run (i := false) rfl (sem_failed _ _))
  have h₃ := h₂.tail (.run (i := false) rfl (.inl rfl))
  have h₄ := h₃.tail (.run (i := true) rfl (.inl rfl))
  have h₅ := h₄.tail (.run (i := true) rfl (.inl rfl))
  have h₆ := h₅.tail (.run (i := true) rfl (.inl rfl))
  have h₇ := h₆.tail (.run (i := true) rfl (.inl rfl))
  refine ⟨_, ?_, ?_, rfl, outbox_kept h₇ (Nat.zero_le _)⟩
  · refine ⟨⟨⟨⟨⟨⟨⟨trivial, ?_⟩, ?_⟩, ?_⟩, ?_⟩, ?_⟩, ?_⟩, ?_⟩
    all_goals
      intro _ j hj
      cases j
      all_goals first | rfl | exact absurd rfl hj
  · refine ⟨⟨⟨⟨⟨⟨⟨trivial, ?_⟩, ?_⟩, ?_⟩, ?_⟩, ?_⟩, ?_⟩, ?_⟩
    all_goals
      intro j hj
      cases j
      all_goals first | exact .inl rfl | exact .inr rfl | exact absurd rfl hj

def parkedItem (request : String) : Raw := .json (.dict (usageOf "carol" request))

/-- An outbox that an outage has filled. -/
def fullOutbox : List Raw :=
  parkedItem "p0" :: parkedItem "p1" :: List.replicate 9998 (parkedItem "p2")

/-- Both calls replay an item while Redis is down. The second one fails first, puts its item back
and parks its event; the first one then puts its item back on a full outbox, which drops the event
that was parked last. -/
theorem overlapped_drops_newest : ∃ P : Pool Bool Cmd Cmd.Resp Unit State,
    Reach plainPy (fun _ => true) (outageState fullOutbox) (callJob twoCalls) P ∧
    (outageState fullOutbox).outbox.length ≤ outboxMaxPerQueue ∧
    P.shared.outbox = fullOutbox ∧ parked P.log = [eventOf twoCalls true] ∧
    dropped P.log = [eventOf twoCalls true] ∧
    ¬ ∃ gone item, Fifo (outageState fullOutbox) P.shared P.log gone item := by
  have hrest : (List.replicate 9998 (parkedItem "p2")).length = 9998 := List.length_replicate
  unfold fullOutbox
  generalize List.replicate 9998 (parkedItem "p2") = items at hrest
  have hfull : ¬ (outageState items).full := by
    unfold State.full outboxMaxPerQueue outageState
    dsimp only
    omega
  have hfull' : ¬ (outageState (parkedItem "p1" :: items)).full := by
    unfold State.full outboxMaxPerQueue outageState
    simp only [List.length_cons]
    omega
  have hfull'' : (outageState (parkedItem "p1" :: (items ++ [eventOf twoCalls true]))).full := by
    unfold State.full outboxMaxPerQueue outageState
    simp only [List.length_cons, List.length_append, List.length_nil]
    omega
  have hpop (first : Raw) (later : List Raw) : sem (fun _ => true) .outboxPopleft
      (outageState (first :: later)) (some first) (outageState later) := .inl rfl
  have hfail (raw : Raw) (outbox : List Raw) : sem (fun _ => true) (.rpush .pending raw)
      (outageState outbox) (.error .redisError) (outageState outbox) := .inr ⟨rfl, rfl⟩
  have hput : sem (fun _ => true) (.outboxAppendleft (parkedItem "p1")) (outageState items) none
      (outageState (parkedItem "p1" :: items)) := by
    refine .inl ?_
    show some _ = some _
    unfold State.appendleft
    rw [if_neg hfull]
    rfl
  have hpark : sem (fun _ => true) (.outboxAppend (eventOf twoCalls true))
      (outageState (parkedItem "p1" :: items)) none
      (outageState (parkedItem "p1" :: (items ++ [eventOf twoCalls true]))) := by
    refine .inl ?_
    show some _ = some _
    unfold State.append
    rw [if_neg hfull']
    rfl
  have hdrop : sem (fun _ => true) (.outboxAppendleft (parkedItem "p0"))
      (outageState (parkedItem "p1" :: (items ++ [eventOf twoCalls true])))
      (some (eventOf twoCalls true))
      (outageState (parkedItem "p0" :: parkedItem "p1" :: items)) := by
    refine .inl ?_
    show some _ = some _
    have hend : parkedItem "p1" :: (items ++ [eventOf twoCalls true]) =
        (parkedItem "p1" :: items) ++ [eventOf twoCalls true] := rfl
    unfold State.appendleft
    rw [if_pos hfull'']
    unfold outageState
    dsimp only
    rw [hend, List.getLast?_concat, List.dropLast_concat]
  have h₀ : Reach plainPy (fun _ => true)
      (outageState (parkedItem "p0" :: parkedItem "p1" :: items)) (callJob twoCalls) _ := .refl
  have h₁ := h₀.tail (.run (i := false) rfl (hpop _ _))
  have h₂ := h₁.tail (.run (i := true) rfl (hpop _ _))
  have h₃ := h₂.tail (.run (i := true) rfl (hfail _ _))
  have h₄ := h₃.tail (.run (i := true) rfl hput)
  have h₅ := h₄.tail (.run (i := true) rfl hpark)
  have h₆ := h₅.tail (.run (i := false) rfl (hfail _ _))
  have h₇ := h₆.tail (.run (i := false) rfl hdrop)
  refine ⟨_, h₇, ?_, rfl, rfl, rfl, ?_⟩
  · unfold outageState outboxMaxPerQueue
    simp only [List.length_cons]
    omega
  · rintro ⟨gone, item, hfifo⟩
    have hgone : [eventOf twoCalls true].Sublist gone := hfifo.dropped
    have horder : (parkedItem "p0" :: parkedItem "p1" :: items) ++ [eventOf twoCalls true] =
        gone ++ (item ++ (parkedItem "p0" :: parkedItem "p1" :: items)) := hfifo.order
    have hlen := congrArg List.length horder
    have hlen' := hgone.length_le
    simp only [List.length_append, List.length_cons, List.length_nil] at hlen hlen'
    cases gone with
    | nil => cases hgone
    | cons first later =>
      have hfirst : parkedItem "p0" = first := (List.cons.inj horder).1
      have hnil : later = [] := List.eq_nil_of_length_eq_zero (by
        simp only [List.length_cons] at hlen
        omega)
      rw [hnil, ← hfirst] at hgone
      have hmem : eventOf twoCalls true ∈ [parkedItem "p0"] := hgone.subset List.mem_cons_self
      exact absurd (List.mem_singleton.1 hmem) (by decide)

end Events
