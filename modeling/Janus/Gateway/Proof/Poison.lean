import Janus.Gateway.Proof.Billing

/-!
# A good event among bad ones

One worker flushes again and again, new events come in at any time, nothing fails. A batch is
written as a whole or tried again as a whole, so a good event shares the fate of its batch. If every
text of the batches that take it can be loaded, no bad event is in the batch that takes it for its
last attempt, its neighbours' attempts can be counted, and no earlier event of a batch has its request
id, it is written in the end and never given up (`good_event_committed`): the place in the pending
list falls with every flush, and the attempts left with every retry. `poisoned_given_up`: one
neighbour without a `user_id` sends it to the dead letters.
-/

set_option autoImplicit false

namespace Events

open Conc Python

/-- The commands when nothing fails. -/
def calm (fits : Row → Bool) : Sem Cmd Cmd.Resp State := fun c s r s' => c.run fits s = some (r, s')

/-- What happens around a worker: events come in and the clock moves. -/
def Arrivals (s s' : State) : Prop :=
  ∃ more nowMs outbox, s' = { s with pending := s.pending ++ more, nowMs, outbox }

theorem arrivals_refl (s : State) : Arrivals s s := ⟨[], s.nowMs, s.outbox, by rw [List.append_nil]⟩

/-- The runs of the batch writer, one after the other. -/
def Flushes (py : Builtins) (fits : Row → Bool) (s : Nat → State) (t : Nat → Trace Cmd Cmd.Resp) :
    Prop :=
  ∀ n, ∃ count, (flushUsageRecords py).Runs (calm fits) Arrivals (s n) [] count (s (n + 1)) (t n)

/-- The database takes the whole batch. -/
def Clean (py : Builtins) (fits : Row → Bool) (batch : List Raw) : Prop :=
  ∃ rows, usageRows py [] (batch.filterMap Raw.record) = .ok rows ∧ rows.all fits = true

/-! ## One run -/

section Flush

variable {py : Builtins} {fits : Row → Bool} {s s' : State} {t t' : Trace Cmd Cmd.Resp} {e raw : Raw}

theorem sem_of_calm {c : Cmd} {r : c.Resp} (h : calm fits c s r s') : sem fits c s r s' := .inl h

/-- A claim is one that has an envelope or found nothing. -/
def claimsMade : Event Cmd Cmd.Resp → Nat
  | ⟨.claim _, _⟩ => 1
  | _ => 0

theorem claimedRaws_suffix (h : t' <:+ t) : claimedRaws t' <+: claimedRaws t := by
  obtain ⟨later, rfl⟩ := h
  induction later with
  | nil => exact List.prefix_refl _
  | cons ev later ih =>
    refine ih.trans ?_
    rw [List.cons_append]
    rcases ev with ⟨c, r⟩
    cases c with
    | claim nowMs =>
      rcases r with e | _ | envelope
      · exact List.prefix_refl _
      · exact List.prefix_refl _
      · exact List.prefix_append _ _
    | _ => exact List.prefix_refl _

/-- A batch that failed is not clean, nor is any that it is the beginning of. -/
theorem not_clean_of_failed (hcalm : ∀ rows e, ⟨.insert rows, .error e⟩ ∈ t' → rows.all fits = false)
    (hfailed : BatchFailed py t') (h : t' <:+ t) : ¬ Clean py fits (claimedRaws t) := by
  rintro ⟨rows, hrows, hfits⟩
  obtain ⟨later, hlater⟩ := claimedRaws_suffix h
  rw [← hlater, List.filterMap_append] at hrows
  obtain ⟨rows', hrows', hsub⟩ := usageRows_append hrows
  obtain ⟨e, he⟩ := hfailed rows' hrows'
  have hfits' : rows'.all fits = true :=
    List.all_eq_true.2 fun row hrow => List.all_eq_true.1 hfits row (hsub hrow)
  rw [hcalm rows' e he] at hfits'
  cases hfits'

/-- What a recovery does to the lists. -/
theorem recover_effect {cutoffMs : Int} : s.pending <+: (s.recover cutoffMs).2.pending ∧
    (s.recover cutoffMs).2.inflight ⊆ s.inflight ∧
    ∀ dead ∈ (s.recover cutoffMs).2.dlq, dead ∈ s.dlq ∨
      ∃ envelope ∈ s.inflight, dead = .envelope envelope ∧
        (envelope.payload = none ∨ envelope.claimedAtMs = none) := by
  have hfold (envelopes : List Envelope) (acc : (Nat × Nat) × State)
      (hsub : envelopes ⊆ s.inflight) (hpending : s.pending <+: acc.2.pending)
      (hinflight : acc.2.inflight ⊆ s.inflight)
      (hdead : ∀ dead ∈ acc.2.dlq, dead ∈ s.dlq ∨ ∃ envelope ∈ s.inflight,
        dead = .envelope envelope ∧ (envelope.payload = none ∨ envelope.claimedAtMs = none)) :
      s.pending <+: (envelopes.foldl (State.recoverOne cutoffMs) acc).2.pending ∧
      (envelopes.foldl (State.recoverOne cutoffMs) acc).2.inflight ⊆ s.inflight ∧
      ∀ dead ∈ (envelopes.foldl (State.recoverOne cutoffMs) acc).2.dlq, dead ∈ s.dlq ∨
        ∃ envelope ∈ s.inflight, dead = .envelope envelope ∧
          (envelope.payload = none ∨ envelope.claimedAtMs = none) := by
    induction envelopes generalizing acc with
    | nil => exact ⟨hpending, hinflight, hdead⟩
    | cons envelope envelopes ih =>
      have hlater : envelopes ⊆ s.inflight := fun _ h => hsub (List.mem_cons_of_mem _ h)
      have herase : acc.2.inflight.erase envelope ⊆ s.inflight :=
        List.Subset.trans List.erase_subset hinflight
      have hbury (hbad : envelope.payload = none ∨ envelope.claimedAtMs = none) :
          ∀ dead ∈ acc.2.dlq ++ [DeadLetter.envelope envelope], dead ∈ s.dlq ∨
            ∃ envelope ∈ s.inflight, dead = .envelope envelope ∧
              (envelope.payload = none ∨ envelope.claimedAtMs = none) := by
        intro dead hmem
        rcases List.mem_append.1 hmem with hmem | hmem
        · exact hdead dead hmem
        · exact .inr ⟨envelope, hsub List.mem_cons_self, List.mem_singleton.1 hmem, hbad⟩
      rw [List.foldl_cons]
      cases hpayload : envelope.payload with
      | none =>
        have hone : State.recoverOne cutoffMs acc envelope = ((acc.1.1, acc.1.2 + 1),
            { acc.2 with dlq := acc.2.dlq ++ [DeadLetter.envelope envelope] }.lrem envelope) := by
          unfold State.recoverOne
          rw [hpayload]
        rw [hone]
        exact ih _ hlater hpending herase (hbury (.inl hpayload))
      | some raw =>
        cases hat : envelope.claimedAtMs with
        | none =>
          have hone : State.recoverOne cutoffMs acc envelope = ((acc.1.1, acc.1.2 + 1),
              { acc.2 with dlq := acc.2.dlq ++ [DeadLetter.envelope envelope] }.lrem envelope) := by
            unfold State.recoverOne
            rw [hpayload, hat]
          rw [hone]
          exact ih _ hlater hpending herase (hbury (.inr hat))
        | some claimedAt =>
          by_cases hstale : claimedAt ≤ cutoffMs
          · have hone : State.recoverOne cutoffMs acc envelope = ((acc.1.1 + 1, acc.1.2),
                { acc.2 with pending := acc.2.pending ++ [raw] }.lrem envelope) := by
              unfold State.recoverOne
              rw [hpayload, hat]
              exact if_pos hstale
            rw [hone]
            exact ih _ hlater (hpending.trans (List.prefix_append _ _)) herase hdead
          · have hone : State.recoverOne cutoffMs acc envelope = acc := by
              unfold State.recoverOne
              rw [hpayload, hat]
              exact if_neg hstale
            rw [hone]
            exact ih _ hlater hpending hinflight hdead
  exact hfold s.inflight ((0, 0), s) (List.Subset.refl _) (List.prefix_refl _)
    (List.Subset.refl _) fun dead hdead => .inl hdead

/-- Only a claim takes from the pending list, and it takes the first item. -/
theorem pending_effect {c : Cmd} {r : c.Resp} (h : calm fits c s r s')
    (hclaim : ∀ nowMs, c ≠ .claim nowMs) : s.pending <+: s'.pending := by
  cases c with
  | rpush queue raw =>
    cases h
    cases queue with
    | pending => exact List.prefix_append _ _
    | dlq => exact List.prefix_refl _
  | claim nowMs => exact absurd rfl (hclaim nowMs)
  | recover cutoffMs =>
    cases h
    exact recover_effect.1
  | insert rows =>
    unfold calm Cmd.run at h
    dsimp only at h
    split at h <;> cases h <;> exact List.prefix_refl _
  | outboxAppend raw =>
    cases h
    unfold State.append
    split <;> exact List.prefix_refl _
  | outboxAppendleft raw =>
    cases h
    unfold State.appendleft
    split <;> exact List.prefix_refl _
  | stuck => cases h
  | _ =>
    cases h
    exact List.prefix_refl _

theorem dlq_effect {c : Cmd} {r : c.Resp} (h : calm fits c s r s') :
    ∀ dead ∈ s'.dlq, dead ∈ s.dlq ∨
      (∃ raw, (⟨c, r⟩ : Event Cmd Cmd.Resp) = ⟨.rpush .dlq raw, .ok ()⟩ ∧ dead = .payload raw) ∨
      ∃ envelope ∈ s.inflight, dead = .envelope envelope ∧
        (envelope.payload = none ∨ envelope.claimedAtMs = none) := by
  intro dead hdead
  cases c with
  | rpush queue raw =>
    cases h
    cases queue with
    | pending => exact .inl hdead
    | dlq =>
      rcases List.mem_append.1 hdead with hdead | hdead
      · exact .inl hdead
      · exact .inr (.inl ⟨raw, rfl, List.mem_singleton.1 hdead⟩)
  | claim nowMs =>
    cases h
    left
    unfold State.claim at hdead
    split at hdead <;> exact hdead
  | recover cutoffMs =>
    cases h
    rcases recover_effect.2.2 dead hdead with hdead | hbad
    · exact .inl hdead
    · exact .inr (.inr hbad)
  | insert rows =>
    unfold calm Cmd.run at h
    dsimp only at h
    split at h <;> cases h <;> exact .inl hdead
  | outboxAppend raw =>
    cases h
    left
    unfold State.append at hdead
    split at hdead <;> exact hdead
  | outboxAppendleft raw =>
    cases h
    left
    unfold State.appendleft at hdead
    split at hdead <;> exact hdead
  | stuck => cases h
  | _ =>
    cases h
    exact .inl hdead

/-- A new envelope has the time of its claim. -/
theorem inflight_effect {c : Cmd} {r : c.Resp} (h : calm fits c s r s') :
    ∀ envelope ∈ s'.inflight, envelope ∈ s.inflight ∨ envelope.claimedAtMs.isSome = true := by
  intro envelope henvelope
  cases c with
  | rpush queue raw =>
    cases h
    cases queue <;> exact .inl henvelope
  | claim nowMs =>
    cases h
    unfold State.claim at henvelope
    split at henvelope
    · exact .inl henvelope
    · rcases List.mem_append.1 henvelope with henvelope | henvelope
      · exact .inl henvelope
      · rw [List.mem_singleton.1 henvelope]
        exact .inr rfl
  | lrem other =>
    cases h
    exact .inl (List.mem_of_mem_erase henvelope)
  | recover cutoffMs =>
    cases h
    exact .inl (recover_effect.2.1 henvelope)
  | insert rows =>
    unfold calm Cmd.run at h
    dsimp only at h
    split at h <;> cases h <;> exact .inl henvelope
  | outboxAppend raw =>
    cases h
    left
    unfold State.append at henvelope
    split at henvelope <;> exact henvelope
  | outboxAppendleft raw =>
    cases h
    left
    unfold State.appendleft at henvelope
    split at henvelope <;> exact henvelope
  | stuck => cases h
  | _ =>
    cases h
    exact .inl henvelope

theorem returns_pos (h : ⟨.rpush .pending raw, .ok ()⟩ ∈ t) :
    0 < tally (returns fun _ => true) t := by
  induction t with
  | nil => cases h
  | cons ev t ih =>
    rw [tally_cons]
    rcases List.mem_cons.1 h with rfl | h
    · show 0 < 1 + _
      omega
    · have hlater := ih h
      omega

theorem claims_pos {nowMs : Int} {r : Except Failure (Option Envelope)}
    (h : ⟨.claim nowMs, r⟩ ∈ t) : 0 < tally claimsMade t := by
  induction t with
  | nil => cases h
  | cons ev t ih =>
    rw [tally_cons]
    rcases List.mem_cons.1 h with rfl | h
    · show 0 < 1 + _
      omega
    · have hlater := ih h
      omega

/-! ## The row of one event -/

/-- An event with the first request id keeps a later one of its batch with the second from the table: the
batch skips it, or the unique index does. -/
def Shadows (py : Builtins) (id id' : Value) : Prop :=
  id.truthy = true ∧ id'.truthy = true ∧ py.str id = py.str id' ∨ id'.isSome = true ∧ id = id'

theorem not_skipped_after {seen : List String} {first fields : Fields}
    (hskip : ¬ Skipped py seen fields) (hfirst : ¬ Shadows py (requestId first) (requestId fields)) :
    ¬ Skipped py (seenAfter py seen first) fields := by
  rintro ⟨htruthy, hseen⟩
  unfold seenAfter at hseen
  split at hseen
  · next hnamed =>
    rcases List.mem_cons.1 hseen with hsame | hseen
    · exact hfirst (.inl ⟨hnamed, htruthy, hsame.symm⟩)
    · exact hskip ⟨htruthy, hseen⟩
  · exact hskip ⟨htruthy, hseen⟩

/-- An event that no earlier one shadows makes a row, after the rows of the earlier ones. -/
theorem usageRows_split {seen : List String} {pre post : List Fields} {fields : Fields}
    {rows : List Row} (h : usageRows py seen (pre ++ fields :: post) = .ok rows)
    (hskip : ¬ Skipped py seen fields)
    (hpre : ∀ other ∈ pre, ¬ Shadows py (requestId other) (requestId fields)) :
    ∃ rows₁ row rows₂, rows = rows₁ ++ row :: rows₂ ∧ usageRows py seen pre = .ok rows₁ ∧
      toUsageRow py fields = .ok row := by
  induction pre generalizing seen rows with
  | nil =>
    rcases usageRows_cons h with ⟨hskipped, -⟩ | ⟨-, row, rest, rfl, hrow, -⟩
    · exact absurd hskipped hskip
    · exact ⟨[], row, rest, rfl, rfl, hrow⟩
  | cons first pre ih =>
    have hlater : ∀ other ∈ pre, ¬ Shadows py (requestId other) (requestId fields) :=
      fun other hother => hpre other (List.mem_cons_of_mem _ hother)
    rw [usageRows_eq]
    rcases usageRows_cons h with ⟨hskipped, h⟩ | ⟨hfirst, row₀, rest, rfl, hrow₀, h⟩
    · rw [if_pos hskipped]
      exact ih h hskip hlater
    · obtain ⟨rows₁, row, rows₂, rfl, hrows₁, hrow⟩ :=
        ih h (not_skipped_after hskip (hpre first List.mem_cons_self)) hlater
      rw [if_neg hfirst, hrow₀, hrows₁]
      exact ⟨row₀ :: rows₁, row, rows₂, rfl, rfl, hrow⟩

/-- A committed batch leaves the row of an event that no earlier one shadows, unless another row of the
table has its request id. -/
theorem insert_own {table : List Row} {pre post : List Fields} {fields : Fields} {rows : List Row}
    (h : usageRows py [] (pre ++ fields :: post) = .ok rows)
    (hpre : ∀ other ∈ pre, ¬ Shadows py (requestId other) (requestId fields))
    (htable : ∀ row ∈ table, row.requestId.isSome = true → row.requestId = requestId fields →
      toUsageRow py fields = .ok row) :
    ∃ row ∈ insertIgnoreConflicts table rows, toUsageRow py fields = .ok row := by
  have hfresh : ¬ Skipped py [] fields := fun hskip => absurd hskip.2 List.not_mem_nil
  obtain ⟨rows₁, row, rows₂, rfl, hrows₁, hrow⟩ := usageRows_split h hfresh hpre
  have hsub : insertRow (insertIgnoreConflicts table rows₁) row ⊆
      insertIgnoreConflicts table (rows₁ ++ row :: rows₂) := by
    unfold insertIgnoreConflicts
    rw [List.foldl_append, List.foldl_cons]
    exact insert_subset
  by_cases hconflict : row.requestId.isSome = true ∧
      (insertIgnoreConflicts table rows₁).any (·.requestId = row.requestId) = true
  · obtain ⟨hsome, hany⟩ := hconflict
    obtain ⟨other, hother, hsame⟩ := List.any_eq_true.1 hany
    have hid : other.requestId = requestId fields :=
      (of_decide_eq_true hsame).trans (toUsageRow_requestId hrow)
    rw [toUsageRow_requestId hrow] at hsome
    rcases insert_origin hother with hold | hearlier
    · exact ⟨other, hsub (insertRow_subset hother), htable other hold (hid ▸ hsome) hid⟩
    · obtain ⟨fields', hfields', hrow'⟩ := usageRows_mem hrows₁ hearlier
      rw [toUsageRow_requestId hrow'] at hid
      exact absurd (.inr ⟨hsome, hid⟩) (hpre fields' hfields')
  · refine ⟨row, hsub ?_, hrow⟩
    unfold insertRow
    rw [if_neg hconflict]
    exact List.mem_append_right _ List.mem_cons_self

/-! ## A run so far -/

/-- Facts about a run so far: where the items of the pending list come from and go to. -/
structure Along (py : Builtins) (fits : Row → Bool) (s₀ s : State) (t : Trace Cmd Cmd.Resp) :
    Prop where
  infra : ∀ ev ∈ t, ¬ Infra ev
  unfit : ∀ rows e, ⟨.insert rows, .error e⟩ ∈ t → rows.all fits = false
  pushed : ∀ raw, ⟨.rpush .pending raw, .ok ()⟩ ∈ t → raw ∈ s.pending
  waiting : ∀ pre raw post, s₀.pending = pre ++ raw :: post → raw ∈ claimedRaws t ∨
    ∃ pre' post', s.pending = pre' ++ raw :: post' ∧
      pre'.length + tally claimsMade t ≤ pre.length
  dead : ∀ dead ∈ s.dlq, ∀ raw, dead.raw = some raw → (∃ dead ∈ s₀.dlq, dead.raw = some raw) ∨
    (∃ envelope ∈ s₀.inflight, envelope.claimedAtMs = none ∧ envelope.payload = some raw) ∨
    ⟨.rpush .dlq raw, .ok ()⟩ ∈ t
  stamped : ∀ envelope ∈ s.inflight, envelope ∈ s₀.inflight ∨ envelope.claimedAtMs.isSome = true
  table : written t = [] ∧ s.table = s₀.table ∨ written t ≠ [] ∧ ∃ rows,
    usageRows py [] (records t) = .ok rows ∧ rows.all fits = true ∧
      s.table = insertIgnoreConflicts s₀.table rows

theorem Along.start : Along py fits s s [] where
  infra := fun _ hev => absurd hev List.not_mem_nil
  unfit := fun _ _ he => absurd he List.not_mem_nil
  pushed := fun _ hraw => absurd hraw List.not_mem_nil
  waiting := fun pre _ post hpending => .inr ⟨pre, post, hpending, Nat.le_refl _⟩
  dead := fun dead hdead _ hraw => .inl ⟨dead, hdead, hraw⟩
  stamped := fun _ henvelope => .inl henvelope
  table := .inl ⟨rfl, rfl⟩

theorem Along.env {s₀ : State} (h : Along py fits s₀ s t) (he : Arrivals s s') :
    Along py fits s₀ s' t := by
  obtain ⟨more, nowMs, outbox, rfl⟩ := he
  refine ⟨h.infra, h.unfit, fun raw hraw => List.mem_append_left _ (h.pushed raw hraw), ?_, h.dead,
    h.stamped, h.table⟩
  intro pre raw post hpending
  rcases h.waiting pre raw post hpending with hclaimed | ⟨pre', post', hat, hle⟩
  · exact .inl hclaimed
  · refine .inr ⟨pre', post' ++ more, ?_, hle⟩
    show s.pending ++ more = _
    rw [hat, List.append_assoc, List.cons_append]

section Cmd

variable {s₀ : State} {c : Cmd} {r : c.Resp}

theorem not_infra (hE : calm fits c s r s') : ¬ Infra ⟨c, r⟩ := by
  cases c with
  | rpush queue raw =>
    cases hE
    exact fun h => h
  | claim nowMs =>
    cases hE
    exact fun h => h
  | lrem envelope =>
    cases hE
    exact fun h => h
  | recover cutoffMs =>
    cases hE
    exact fun h => h
  | _ => exact fun h => h

/-- The database refuses only what the columns do not take. -/
theorem insert_refused {rows : List Row} {e : Failure}
    (hE : calm fits (.insert rows) s (.error e) s') : rows.all fits = false := by
  unfold calm Cmd.run at hE
  dsimp only at hE
  split at hE
  · cases hE
  · next hfits => exact Bool.not_eq_true _ ▸ hfits

theorem insert_taken {rows : List Row} {n : Nat}
    (hE : calm fits (.insert rows) s (.ok n) s') : rows.all fits = true := by
  unfold calm Cmd.run at hE
  dsimp only at hE
  split at hE
  · next hfits => exact hfits
  · cases hE

/-- A worker claims nothing after its first retry. -/
theorem pushed_cmd (h : ⟨.rpush .pending raw, .ok ()⟩ ∈ t → raw ∈ s.pending)
    (hissued : WorkerIssues py t c) (hE : calm fits c s r s')
    (hev : ⟨.rpush .pending raw, .ok ()⟩ ∈ (⟨c, r⟩ : Event Cmd Cmd.Resp) :: t) :
    raw ∈ s'.pending := by
  rcases List.mem_cons.1 hev with heq | hbefore
  · cases heq
    cases hE
    exact List.mem_append_right _ List.mem_cons_self
  · by_cases hclaim : ∀ nowMs, c ≠ .claim nowMs
    · exact (pending_effect hE hclaim).subset (h hbefore)
    · obtain ⟨nowMs, hc⟩ := not_forall.1 hclaim
      rw [not_not] at hc
      subst hc
      have hnone : tally (returns fun _ => true) t = 0 := hissued.1 _
      have hpos : 0 < tally (returns fun _ => true) t := returns_pos hbefore
      omega

/-- An item is claimed, or as many claims nearer to the front as there were. -/
theorem waiting_cmd {pre' post' : List Raw} (hat : s.pending = pre' ++ raw :: post')
    (hE : calm fits c s r s') : raw ∈ claimedRaws (⟨c, r⟩ :: t) ∨
      ∃ pre post, s'.pending = pre ++ raw :: post ∧
        pre.length + claimsMade ⟨c, r⟩ ≤ pre'.length := by
  by_cases hclaim : ∀ nowMs, c ≠ .claim nowMs
  · obtain ⟨more, hmore⟩ := pending_effect hE hclaim
    refine .inr ⟨pre', post' ++ more, ?_, ?_⟩
    · rw [← hmore, hat, List.append_assoc, List.cons_append]
    · have hzero : claimsMade ⟨c, r⟩ = 0 := by
        cases c with
        | claim nowMs => exact absurd rfl (hclaim nowMs)
        | _ => rfl
      omega
  · obtain ⟨nowMs, hc⟩ := not_forall.1 hclaim
    rw [not_not] at hc
    subst hc
    cases hE
    cases pre' with
    | nil =>
      left
      have hfirst : (s.claim nowMs).1 = some ⟨some raw, some nowMs⟩ := by
        unfold State.claim
        rw [hat]
        rfl
      rw [hfirst]
      exact List.mem_append_right _ List.mem_cons_self
    | cons first pre' =>
      right
      have hrest : (s.claim nowMs).2.pending = pre' ++ raw :: post' := by
        unfold State.claim
        rw [hat]
        rfl
      exact ⟨pre', post', hrest, Nat.le_refl _⟩

/-- A worker writes once, and claims nothing afterwards. -/
theorem table_cmd_calm (h : Along py fits s₀ s t) (hissued : WorkerIssues py t c)
    (hE : calm fits c s r s') : written (⟨c, r⟩ :: t) = [] ∧ s'.table = s₀.table ∨
      written (⟨c, r⟩ :: t) ≠ [] ∧ ∃ rows, usageRows py [] (records (⟨c, r⟩ :: t)) = .ok rows ∧
        rows.all fits = true ∧ s'.table = insertIgnoreConflicts s₀.table rows := by
  have hkeep (hrecords : records (⟨c, r⟩ :: t) = records t)
      (hwritten : written (⟨c, r⟩ :: t) = written t) (htable : s'.table = s.table) :
      written (⟨c, r⟩ :: t) = [] ∧ s'.table = s₀.table ∨
      written (⟨c, r⟩ :: t) ≠ [] ∧ ∃ rows, usageRows py [] (records (⟨c, r⟩ :: t)) = .ok rows ∧
        rows.all fits = true ∧ s'.table = insertIgnoreConflicts s₀.table rows := by
    rw [hrecords, hwritten, htable]
    exact h.table
  have hsame (hev : ∀ rows n, (⟨c, r⟩ : Event Cmd Cmd.Resp) ≠ ⟨.insert rows, .ok n⟩) :
      s'.table = s.table := by
    rcases table_eq (sem_of_calm hE) with heq | ⟨rows, n, hins, -⟩
    · exact heq
    · exact absurd hins (hev rows n)
  cases c with
  | insert rows =>
    cases r with
    | error e => exact hkeep rfl rfl (hsame fun rows n h => by cases h)
    | ok n =>
      obtain ⟨hrows, hunwritten⟩ := hissued
      have htable : s'.table = insertIgnoreConflicts s.table rows := insert_run (sem_of_calm hE)
      rcases h.table with ⟨-, hstart⟩ | ⟨hwritten, -⟩
      swap
      · exact absurd hunwritten hwritten
      rw [hstart] at htable
      by_cases hempty : written (⟨.insert rows, .ok n⟩ :: t) = []
      · refine .inl ⟨hempty, ?_⟩
        have hnone : records t = [] := by
          change written t ++ (claimedRaws t).filter (·.record.isSome) = [] at hempty
          rw [hunwritten, List.nil_append, List.filter_eq_nil_iff] at hempty
          exact List.filterMap_eq_nil_iff.2 fun raw hraw =>
            Option.not_isSome_iff_eq_none.1 (hempty raw hraw)
        rw [hnone] at hrows
        cases hrows
        exact htable
      · exact .inr ⟨hempty, rows, hrows, insert_taken hE, htable⟩
  | claim nowMs =>
    rcases h.table with ⟨hunwritten, hstart⟩ | ⟨hwritten, -⟩
    · exact .inl ⟨hunwritten, (hsame fun rows n h => by cases h).trans hstart⟩
    · exact absurd hissued.2 hwritten
  | _ => exact hkeep rfl rfl (hsame fun rows n h => by cases h)

theorem Along.cmd (h : Along py fits s₀ s t) (hissued : WorkerIssues py t c)
    (hE : calm fits c s r s') : Along py fits s₀ s' (⟨c, r⟩ :: t) where
  infra ev hev := by
    rcases List.mem_cons.1 hev with rfl | hev
    · exact not_infra hE
    · exact h.infra ev hev
  unfit rows e he := by
    rcases List.mem_cons.1 he with heq | he
    · cases heq
      exact insert_refused hE
    · exact h.unfit rows e he
  pushed raw hev := pushed_cmd (h.pushed raw) hissued hE hev
  waiting pre raw post hpending := by
    rcases h.waiting pre raw post hpending with hclaimed | ⟨pre', post', hat, hle⟩
    · exact .inl ((claimedRaws_suffix (List.suffix_cons _ _)).subset hclaimed)
    · rcases waiting_cmd hat hE with hclaimed | ⟨pre'', post'', hat', hle'⟩
      · exact .inl hclaimed
      · refine .inr ⟨pre'', post'', hat', ?_⟩
        rw [tally_cons]
        omega
  dead dead hdead raw hraw := by
    rcases dlq_effect hE dead hdead with hdead | ⟨raw', hev, rfl⟩ | ⟨envelope, henvelope, rfl, hbad⟩
    · rcases h.dead dead hdead raw hraw with hold | hold | hpushed
      · exact .inl hold
      · exact .inr (.inl hold)
      · exact .inr (.inr (List.mem_cons_of_mem _ hpushed))
    · cases hraw
      rw [hev]
      exact .inr (.inr List.mem_cons_self)
    · change envelope.payload = some raw at hraw
      rcases hbad with hbad | hbad
      · rw [hbad] at hraw
        cases hraw
      · rcases h.stamped envelope henvelope with hold | hstamped
        · exact .inr (.inl ⟨envelope, hold, hbad, hraw⟩)
        · rw [hbad] at hstamped
          cases hstamped
  stamped envelope henvelope := by
    rcases inflight_effect hE envelope henvelope with henvelope | hstamped
    · exact h.stamped envelope henvelope
    · exact .inr hstamped
  table := table_cmd_calm h hissued hE

end Cmd

/-- One run of the batch writer. -/
theorem flush_along {count : Except Failure Nat}
    (h : (flushUsageRecords py).Runs (calm fits) Arrivals s [] count s' t) :
    Along py fits s s' t ∧ Trace.Guarded (WorkerIssues py) t ∧ Flushed py t := by
  obtain ⟨halong, hguarded⟩ := h.invariant (J := Along py fits s) flush_follows trivial .start
    (fun _ h hissued hE => h.cmd hissued hE) (fun h he => h.env he)
  exact ⟨halong, hguarded, h.post flush_follows⟩

theorem Along.handled (h : Along py fits s s' t) (hflushed : Flushed py t)
    (hraw : raw ∈ claimedRaws t) (hrecord : raw.record.isSome = true)
    (hloads : ∀ other ∈ claimedRaws t, other.raises = false) :
    raw ∈ written t ∨ ¬ Clean py fits (claimedRaws t) ∧
      ((∃ other ∈ claimedRaws t, other.record.isSome = true ∧
        ∃ e, incrementAttempt py.parse other = .error e) ∨ Retried py t raw) := by
  cases hflushed.handled with
  | raised ev hev hraised => exact absurd hraised (h.infra ev hev)
  | unloadable other hother hraises =>
    rw [hloads other hother] at hraises
    cases hraises
  | unreadable other e hother hsome hfailed hincr =>
    exact .inr ⟨not_clean_of_failed h.unfit hfailed (List.suffix_refl _),
      .inl ⟨other, hother, hsome, e, hincr⟩⟩
  | written hwritten => exact .inl (hwritten raw hraw hrecord)
  | retried hfailed hretried =>
    exact .inr ⟨not_clean_of_failed h.unfit hfailed (List.suffix_refl _),
      .inr (hretried raw hraw hrecord)⟩

/-- A flush claims an item of the pending list or brings it nearer. -/
theorem Along.nearer {pre post : List Raw} (h : Along py fits s s' t) (hflushed : Flushed py t)
    (hat : s.pending = pre ++ raw :: post) : raw ∈ claimedRaws t ∨
      ∃ pre' post', s'.pending = pre' ++ raw :: post' ∧ pre'.length < pre.length := by
  rcases h.waiting pre raw post hat with hclaimed | ⟨pre', post', hat', hle⟩
  · exact .inl hclaimed
  · rcases hflushed.claimed with ⟨ev, hev, hraised⟩ | ⟨now, r, hclaim⟩
    · exact absurd hraised (h.infra ev hev)
    · have hpos : 0 < tally claimsMade t := claims_pos hclaim
      exact .inr ⟨pre', post', hat', by omega⟩

end Flush

/-! ## All runs -/

/-- The batch claims a copy of `e`. -/
def Claimed (e : Raw) (batch : List Raw) : Prop := ∃ copy ∈ batch, core copy = e

/-- The batch spares the copies of `e`, which have the request id `id`: all its texts can be loaded, it is
written, with no event before the first copy that shadows it, or it is not the last attempt of a copy
and all its events can be tried again. -/
structure Spared (py : Builtins) (fits : Row → Bool) (e : Raw) (id : Value) (batch : List Raw) :
    Prop where
  loads : ∀ other ∈ batch, other.raises = false
  lasts : Clean py fits batch ∨
    (∀ copy ∈ batch, core copy = e → attempts py.parse copy + 1 < maxRetryAttempts) ∧
      ∀ other ∈ batch, other.record.isSome = true →
        ∃ next, incrementAttempt py.parse other = .ok next
  foremost : Clean py fits batch → ∀ other ∈ batch.takeWhile (fun other => core other ≠ e),
    ∀ fields, other.record = some fields → ¬ Shadows py (requestId fields) id

/-- No copy of `e` is a dead letter, or a claim without a time, which a recovery gives up. -/
structure Alive (e : Raw) (s : State) : Prop where
  dlq : ∀ dead ∈ s.dlq, ∀ raw, dead.raw = some raw → core raw ≠ e
  inflight : ∀ envelope ∈ s.inflight, envelope.claimedAtMs = none →
    ∀ raw, envelope.payload = some raw → core raw ≠ e

section Flushes

variable {py : Builtins} {fits : Row → Bool} {s : Nat → State} {t : Nat → Trace Cmd Cmd.Resp}
  {e raw : Raw} {fields : Fields} {id : Value}

theorem Flushes.along (h : Flushes py fits s t) (n : Nat) :
    Along py fits (s n) (s (n + 1)) (t n) ∧ Trace.Guarded (WorkerIssues py) (t n) ∧
      Flushed py (t n) := by
  obtain ⟨count, hrun⟩ := h n
  exact flush_along hrun

/-- A spared event does not become a dead letter. -/
theorem Flushes.alive (h : Flushes py fits s t) (hrecord : raw.record.isSome = true)
    (hspared : ∀ n, Claimed (core raw) (claimedRaws (t n)) →
      Spared py fits (core raw) id (claimedRaws (t n))) (halive : Alive (core raw) (s 0)) (n : Nat) : Alive (core raw) (s n) := by
  induction n with
  | zero => exact halive
  | succ n ih =>
    obtain ⟨halong, hguarded, -⟩ := h.along n
    refine ⟨fun dead hdead raw' hraw' hcore => ?_, fun envelope henvelope hat raw' hraw' => ?_⟩
    · rcases halong.dead dead hdead raw' hraw' with
        ⟨old, hold, hsame⟩ | ⟨envelope, henvelope, hat, hsame⟩ | hpush
      · exact ih.dlq old hold raw' hsame hcore
      · exact ih.inflight envelope henvelope hat raw' hsame hcore
      · obtain ⟨t', hs, hpushed⟩ := hguarded.before hpush
        have hs' : t' <:+ t n := (List.suffix_cons _ _).trans hs
        change Pushed py t' .dlq raw' at hpushed
        generalize hqueue : Queue.dlq = queue at hpushed
        cases hpushed with
        | unparseable _ hnone =>
          obtain ⟨fields, hfields⟩ := Option.isSome_iff_exists.1 hrecord
          obtain ⟨fields', hfields', -⟩ := core_record hcore.symm hfields
          rw [hnone] at hfields'
          cases hfields'
        | @retried raw₁ _ k hclaimed hsome hincr hfailed _ =>
          obtain ⟨hcore₁, -, hk⟩ := incrementAttempt_eq hsome hincr
          have hclaimed' : raw₁ ∈ claimedRaws (t n) := (claimedRaws_suffix hs').subset hclaimed
          have hunfit : ∀ rows e, ⟨.insert rows, .error e⟩ ∈ t' → rows.all fits = false :=
            fun rows e he => halong.unfit rows e (hs'.subset he)
          have hcopy : core raw₁ = core raw := hcore₁.symm.trans hcore
          rcases (hspared n ⟨raw₁, hclaimed', hcopy⟩).lasts with hclean | ⟨hleft, -⟩
          · exact not_clean_of_failed hunfit hfailed hs' hclean
          · have hless := hleft raw₁ hclaimed' hcopy
            have hpending : queueOf k = .pending := if_neg (by omega)
            rw [hpending] at hqueue
            cases hqueue
    · rcases halong.stamped envelope henvelope with hold | hstamped
      · exact ih.inflight envelope hold hat raw' hraw'
      · rw [hat] at hstamped
        cases hstamped

/-- A spared event is written in the end. -/
theorem Flushes.written (h : Flushes py fits s t) (hrecord : raw.record.isSome = true)
    (hspared : ∀ n, Claimed (core raw) (claimedRaws (t n)) →
      Spared py fits (core raw) id (claimedRaws (t n))) {n : Nat} (hmem : raw ∈ (s n).pending) : ∃ m, ∃ raw' ∈ written (t m), core raw' = core raw := by
  obtain ⟨pre, post, hat⟩ := List.append_of_mem hmem
  generalize hleft : (maxRetryAttempts - attempts py.parse raw).toNat = left
  induction left using Nat.strong_induction_on generalizing raw pre post n with
  | _ left ihLeft =>
    generalize hplace : pre.length = place
    induction place using Nat.strong_induction_on generalizing pre post n with
    | _ place ihPlace =>
      obtain ⟨halong, -, hflushed⟩ := h.along n
      rcases halong.nearer hflushed hat with hclaimed | ⟨pre', post', hat', hlt⟩
      · have hbatch := hspared n ⟨raw, hclaimed, rfl⟩
        rcases halong.handled hflushed hclaimed hrecord hbatch.loads with hwritten | ⟨hdirty, hend⟩
        · exact ⟨n, raw, hwritten, rfl⟩
        · rcases hbatch.lasts with hclean | ⟨hlast, hreadable⟩
          · exact absurd hclean hdirty
          · rcases hend with ⟨other, hother, hsome, e, herror⟩ | ⟨raw', k, hincr, hpush⟩
            · obtain ⟨next, hnext⟩ := hreadable other hother hsome
              cases hnext.symm.trans herror
            · obtain ⟨hcore, hattempts, hk⟩ := incrementAttempt_eq hrecord hincr
              have hless := hlast raw hclaimed rfl
              have hpending : queueOf k = .pending := if_neg (by omega)
              rw [hpending] at hpush
              have hmem' : raw' ∈ (s (n + 1)).pending := halong.pushed raw' hpush
              obtain ⟨pre', post', hat'⟩ := List.append_of_mem hmem'
              obtain ⟨fields, hfields⟩ := Option.isSome_iff_exists.1 hrecord
              obtain ⟨fields', hfields', -⟩ := core_record hcore.symm hfields
              have hrecord' : raw'.record.isSome = true := by rw [hfields']; rfl
              have hless : (maxRetryAttempts - attempts py.parse raw').toNat < left := by omega
              rw [← hcore] at hspared ⊢
              exact ihLeft _ hless hrecord' hspared hmem' pre' post' hat' rfl
      · have hmem' : raw ∈ (s (n + 1)).pending := by
          rw [hat']
          exact List.mem_append_right _ List.mem_cons_self
        exact ihPlace pre'.length (by omega) hmem' pre' post' hat' rfl

theorem written_claimed {t : Trace Cmd Cmd.Resp} (h : raw ∈ written t) : raw ∈ claimedRaws t := by
  induction t with
  | nil => cases h
  | cons ev t ih =>
    have hsub : claimedRaws t ⊆ claimedRaws (ev :: t) :=
      (claimedRaws_suffix (List.suffix_cons _ _)).subset
    rcases ev with ⟨c, r⟩
    cases c with
    | insert rows =>
      cases r with
      | error _ => exact hsub (ih h)
      | ok n =>
        rcases List.mem_append.1 h with h | h
        · exact hsub (ih h)
        · exact (List.mem_filter.1 h).1
    | _ => exact hsub (ih h)

/-- A batch up to the first copy of an event. -/
theorem split_claimed {e : Raw} {batch : List Raw} (h : Claimed e batch) :
    ∃ pre copy post, batch = pre ++ copy :: post ∧ core copy = e ∧
      pre = batch.takeWhile fun other => core other ≠ e := by
  obtain ⟨copy, hcopy, hcore⟩ := h
  induction batch with
  | nil => cases hcopy
  | cons first batch ih =>
    by_cases hfirst : core first = e
    · refine ⟨[], first, batch, rfl, hfirst, ?_⟩
      rw [List.takeWhile_cons_of_neg (by simpa using hfirst)]
    · rcases List.mem_cons.1 hcopy with rfl | hcopy
      · exact absurd hcore hfirst
      · obtain ⟨pre, copy, post, hbatch, hcore, hpre⟩ := ih hcopy
        refine ⟨first :: pre, copy, post, by rw [hbatch, List.cons_append], hcore, ?_⟩
        rw [List.takeWhile_cons_of_pos (by simpa using hfirst), hpre]

/-- A written batch leaves the row of an event that it spares. -/
theorem Along.own {s s' : State} {t : Trace Cmd Cmd.Resp} {copy : Raw}
    (h : Along py fits s s' t) (hrecord : raw.record = some fields) (hcopy : copy ∈ written t)
    (hcore : core copy = core raw)
    (hspared : Spared py fits (core raw) (requestId fields) (claimedRaws t))
    (htable : ∀ row ∈ s.table, row.requestId.isSome = true → row.requestId = requestId fields →
      toUsageRow py fields = .ok row) :
    ∃ row ∈ s'.table, toUsageRow py fields = .ok row := by
  rcases h.table with ⟨hnone, -⟩ | ⟨-, rows, hrows, hfits, htable'⟩
  · rw [hnone] at hcopy
    cases hcopy
  obtain ⟨pre, first, post, hbatch, hfirst, hpre⟩ :=
    split_claimed ⟨copy, written_claimed hcopy, hcore⟩
  obtain ⟨fields', hfields', -⟩ := core_record hfirst.symm hrecord
  obtain ⟨hrow_eq, hid_eq⟩ : toUsageRow py fields' = toUsageRow py fields ∧
    requestId fields' = requestId fields := core_row hfirst hfields' hrecord
  have hclean : Clean py fits (claimedRaws t) := ⟨rows, hrows, hfits⟩
  have hsplit : records t = pre.filterMap Raw.record ++ fields' :: post.filterMap Raw.record := by
    unfold records
    rw [hbatch, List.filterMap_append, List.filterMap_cons_some hfields']
  rw [htable', ← hrow_eq]
  rw [hsplit] at hrows
  refine insert_own hrows (fun other hother => ?_) fun row hrow hsome hid => ?_
  · obtain ⟨raw', hraw', hother⟩ := List.mem_filterMap.1 hother
    rw [hpre] at hraw'
    rw [hid_eq]
    exact hspared.foremost hclean raw' hraw' other hother
  · rw [hid_eq] at hid
    rw [hrow_eq]
    exact htable row hrow hsome hid

/-- An event in the pending list that its batches spare and whose request id no other row of the table
has: its own row is written in the end, and it never is a dead letter. -/
theorem good_event_committed (h : Flushes py fits s t) (hmem : raw ∈ (s 0).pending)
    (hrecord : raw.record = some fields) (halive : Alive (core raw) (s 0))
    (hspared : ∀ n, Claimed (core raw) (claimedRaws (t n)) →
      Spared py fits (core raw) (requestId fields) (claimedRaws (t n)))
    (htable : ∀ n, Claimed (core raw) (claimedRaws (t n)) → ∀ row ∈ (s n).table,
      row.requestId.isSome = true → row.requestId = requestId fields →
        toUsageRow py fields = .ok row) :
    (∃ n, ∃ row ∈ (s n).table, toUsageRow py fields = .ok row) ∧
      ∀ n, ∀ dead ∈ (s n).dlq, ∀ raw', dead.raw = some raw' → core raw' ≠ core raw := by
  have hsome : raw.record.isSome = true := by rw [hrecord]; rfl
  refine ⟨?_, fun n => (h.alive hsome hspared halive n).dlq⟩
  obtain ⟨m, copy, hwritten, hcore⟩ := h.written hsome hspared hmem
  have hclaimed : Claimed (core raw) (claimedRaws (t m)) := ⟨copy, written_claimed hwritten, hcore⟩
  obtain ⟨row, hrow, hown⟩ :=
    (h.along m).1.own hrecord hwritten hcore (hspared m hclaimed) (htable m hclaimed)
  exact ⟨m + 1, row, hrow, hown⟩

end Flushes

/-! ## One bad neighbour -/

/-- What a run of the batch writer leaves. -/
def afterFlush (s : State) : State × Trace Cmd Cmd.Resp :=
  ((flushUsageRecords plainPy).tryRun (Cmd.run fun _ => true) s []).elim (s, []) (·.2)

/-- The states between the runs. -/
def flushesFrom (s₀ : State) : Nat → State
  | 0 => s₀
  | n + 1 => (afterFlush (flushesFrom s₀ n)).1

theorem flushes_flushesFrom (s₀ : State) : Flushes plainPy (fun _ => true) (flushesFrom s₀)
    fun n => (afterFlush (flushesFrom s₀ n)).2 := by
  intro n
  have hanswer {t : Trace Cmd Cmd.Resp} {c : Cmd} (s : State) (h : WorkerIssues plainPy t c) :
      (c.run (fun _ => true) s).isSome = true := by
    cases c with
    | insert rows =>
      unfold Cmd.run
      dsimp only
      split <;> rfl
    | stuck => exact h.elim
    | _ => rfl
  have hfollows : (flushUsageRecords plainPy).Follows (WorkerIssues plainPy)
      (fun _ t => Flushed plainPy t) [] := flush_follows
  have hruns := hfollows.tryRun_isSome hanswer (flushesFrom s₀ n)
  obtain ⟨⟨count, s', t⟩, hrun⟩ := Option.isSome_iff_exists.1 hruns
  have hafter : afterFlush (flushesFrom s₀ n) = (s', t) := by
    unfold afterFlush
    rw [hrun]
    rfl
  refine ⟨count, ?_⟩
  show Prog.Runs _ _ _ _ _ _ (afterFlush (flushesFrom s₀ n)).1 (afterFlush (flushesFrom s₀ n)).2
  rw [hafter]
  exact Prog.runs_tryRun arrivals_refl (fun hE => hE) hrun

def goodEvent : Raw := .json (.dict (usageOf "alice" "r1"))

/-- An event without a `user_id`. -/
def badEvent : Raw := .json (.dict [("logical_model_id", .int 10), ("request_id", .str "r2")])

def pendingState (pending : List Raw) : State := { emptyState with pending }

/-- No JSON, an event and a later one with the same request id. -/
def mixedState : State := pendingState [.text "oops", goodEvent, .json (.dict (usageOf "bob" "r1"))]

theorem good_event_among_others : (∃ n, ∃ row ∈ (flushesFrom mixedState n).table,
      toUsageRow plainPy (usageOf "alice" "r1") = .ok row) ∧
    ∀ n, ∀ dead ∈ (flushesFrom mixedState n).dlq, ∀ raw, dead.raw = some raw →
      core raw ≠ core goodEvent := by
  -- after the first run nothing changes
  have hquiet (n : Nat) : flushesFrom mixedState (n + 1) = flushesFrom mixedState 1 := by
    induction n with
    | zero => rfl
    | succ n ih =>
      show (afterFlush (flushesFrom mixedState (n + 1))).1 = _
      rw [ih]
      rfl
  have hclaims (n : Nat) (h : Claimed (core goodEvent)
      (claimedRaws (afterFlush (flushesFrom mixedState n)).2)) : n = 0 := by
    cases n with
    | zero => rfl
    | succ n =>
      rw [hquiet n] at h
      obtain ⟨copy, hcopy, -⟩ := h
      cases hcopy
  have hbatch : claimedRaws (afterFlush (flushesFrom mixedState 0)).2 = mixedState.pending := rfl
  refine good_event_committed (flushes_flushesFrom _)
    (List.mem_cons_of_mem _ List.mem_cons_self) rfl
    ⟨fun dead hdead => absurd hdead List.not_mem_nil,
      fun envelope henvelope => absurd henvelope List.not_mem_nil⟩
    (fun n hclaimed => ?_) (fun n hclaimed row hrow => ?_)
  · cases hclaims n hclaimed
    rw [hbatch]
    refine ⟨by decide, .inl ⟨_, rfl, rfl⟩, fun _ other hother fields hrecord => ?_⟩
    change other ∈ [Raw.text "oops"] at hother
    cases List.mem_singleton.1 hother
    cases hrecord
  · cases hclaims n hclaimed
    cases hrow

/-- The event that is written among harmless neighbours is given up after three runs with one that has
no `user_id`. -/
theorem poisoned_given_up :
    Flushes plainPy (fun _ => true) (flushesFrom (pendingState [goodEvent, badEvent]))
      (fun n => (afterFlush (flushesFrom (pendingState [goodEvent, badEvent]) n)).2) ∧
    (toUsageRow plainPy (usageOf "alice" "r1")).isOk = true ∧
    (flushesFrom (pendingState [goodEvent, badEvent]) 3).dlq.map (fun dead => dead.raw.map core) =
      [some (core goodEvent), some (core badEvent)] ∧
    (flushesFrom (pendingState [goodEvent, badEvent]) 3).table = [] ∧
    (flushesFrom (pendingState [goodEvent, badEvent]) 3).pending = [] ∧
    (flushesFrom (pendingState [goodEvent, badEvent]) 3).inflight = [] :=
  ⟨flushes_flushesFrom _, by decide, by decide, by decide, by decide, by decide⟩

end Events
