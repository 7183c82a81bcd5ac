import Janus.Gateway.Proof.Items

/-!
# What a worker of the queue does

The amounts of a trace count copies of one event `e` (an item without its attempts). A worker removes
an envelope only against a copy that it has pushed itself or against an item of a batch that it has
committed, so its removals are covered by its pushes and its commits at all times
(`covered_of_guarded`). `flush_follows` is the program order of one run of the batch writer, and
`Flushed` what it has done in the end.
-/

set_option autoImplicit false

namespace Events

open Conc Python

/-! ## Amounts of a trace -/

section Amounts

variable {t : Trace Cmd Cmd.Resp} {e : Raw}

/-- What the events of a trace come to. -/
def tally (f : Event Cmd Cmd.Resp → Nat) (t : Trace Cmd Cmd.Resp) : Nat := (t.map f).sum

@[simp] theorem tally_nil (f : Event Cmd Cmd.Resp → Nat) : tally f [] = 0 := rfl

@[simp] theorem tally_cons (f : Event Cmd Cmd.Resp → Nat) (ev : Event Cmd Cmd.Resp)
    (t : Trace Cmd Cmd.Resp) : tally f (ev :: t) = f ev + tally f t := by
  unfold tally
  rw [List.map_cons, List.sum_cons]

/-- An event without its attempts is `e`. -/
def copyOf (e raw : Raw) : Bool := core raw = e

@[simp] theorem copyOf_core (raw : Raw) : copyOf (core raw) raw = true := decide_eq_true rfl

/-- Items pushed onto a list. -/
def sends (p : Raw → Bool) : Event Cmd Cmd.Resp → Nat
  | ⟨.rpush _ raw, .ok _⟩ => (p raw).toNat
  | _ => 0

/-- Items pushed onto the pending list. -/
def returns (p : Raw → Bool) : Event Cmd Cmd.Resp → Nat
  | ⟨.rpush .pending raw, .ok _⟩ => (p raw).toNat
  | _ => 0

/-- Items taken off the in-flight list. -/
def removes (p : Raw → Bool) : Event Cmd Cmd.Resp → Nat
  | ⟨.lrem envelope, .ok _⟩ => (envelope.payload.any p).toNat
  | _ => 0

/-- Items put into the outbox. -/
def parks (p : Raw → Bool) : Event Cmd Cmd.Resp → Nat
  | ⟨.outboxAppend raw, _⟩ => (p raw).toNat
  | ⟨.outboxAppendleft raw, _⟩ => (p raw).toNat
  | _ => 0

/-- Items taken from the outbox. -/
def takes (p : Raw → Bool) : Event Cmd Cmd.Resp → Nat
  | ⟨.outboxPopleft, some raw⟩ => (p raw).toNat
  | _ => 0

/-- The payloads claimed so far, in the order of the claims. -/
def claimedRaws : Trace Cmd Cmd.Resp → List Raw
  | [] => []
  | ⟨.claim _, .ok (some envelope)⟩ :: t => claimedRaws t ++ envelope.payload.toList
  | _ :: t => claimedRaws t

/-- The batch of a worker. -/
def records (t : Trace Cmd Cmd.Resp) : List Fields := (claimedRaws t).filterMap Raw.record

/-- The items whose transaction has been committed. -/
def written : Trace Cmd Cmd.Resp → List Raw
  | [] => []
  | ⟨.insert _, .ok _⟩ :: t => written t ++ (claimedRaws t).filter (·.record.isSome)
  | _ :: t => written t

theorem written_record {raw : Raw} (h : raw ∈ written t) : raw.record.isSome = true := by
  induction t with
  | nil => cases h
  | cons ev t ih =>
    rcases ev with ⟨c, r⟩
    cases c with
    | insert rows =>
      cases r with
      | error _ => exact ih h
      | ok n =>
        rcases List.mem_append.1 h with h | h
        · exact ih h
        · exact (List.mem_filter.1 h).2
    | _ => exact ih h

def committed (e : Raw) (t : Trace Cmd Cmd.Resp) : Nat := (written t).countP (copyOf e)

theorem committed_cons (ev : Event Cmd Cmd.Resp) : committed e t ≤ committed e (ev :: t) := by
  unfold committed
  rcases ev with ⟨c, r⟩
  cases c with
  | insert rows =>
    cases r with
    | ok n =>
      show _ ≤ (written t ++ _).countP _
      rw [List.countP_append]
      omega
    | error _ => exact Nat.le_refl _
  | _ => exact Nat.le_refl _

/-- The copies of `e` in a part of a batch. -/
def share (e : Raw) (items : List ClaimedEvent) : Nat := items.countP fun item => copyOf e item.raw

theorem countP_toNat {α : Type} (p : α → Bool) (a : α) (l : List α) :
    (a :: l).countP p = (p a).toNat + l.countP p := by
  rw [List.countP_cons, Nat.add_comm]
  cases p a <;> rfl

theorem share_cons (item : ClaimedEvent) (items : List ClaimedEvent) :
    share e (item :: items) = (copyOf e item.raw).toNat + share e items := countP_toNat _ item items

/-- The removals so far, and those of `items`, are covered by pushes and commits. -/
def Covered (t : Trace Cmd Cmd.Resp) (items : List ClaimedEvent) : Prop :=
  ∀ e, tally (removes (copyOf e)) t + share e items ≤ tally (sends (copyOf e)) t + committed e t

theorem Covered.cons {items : List ClaimedEvent} {ev : Event Cmd Cmd.Resp} (h : Covered t items)
    (hev : ∀ e, removes (copyOf e) ev = 0) : Covered (ev :: t) items := by
  intro e
  have hcover := h e
  have hgrow := committed_cons (e := e) (t := t) ev
  rw [tally_cons, tally_cons, hev e]
  omega

/-- A push pays for one removal. -/
theorem Covered.push {item : ClaimedEvent} {items : List ClaimedEvent} {queue : Queue} {raw : Raw}
    (h : Covered t items) (hraw : core raw = core item.raw) :
    Covered (⟨.rpush queue raw, .ok ()⟩ :: t) (item :: items) := by
  intro e
  have hcover := h e
  have hsame : copyOf e item.raw = copyOf e raw := by
    unfold copyOf
    rw [hraw]
  rw [tally_cons, tally_cons, share_cons, hsame]
  show 0 + tally (removes (copyOf e)) t + _ ≤ (copyOf e raw).toNat + _ + committed e t
  omega

/-- A removal that is covered may be made. -/
theorem Covered.lt {item : ClaimedEvent} {items : List ClaimedEvent} (h : Covered t (item :: items)) :
    tally (removes (copyOf (core item.raw))) t < tally (sends (copyOf (core item.raw))) t +
      committed (core item.raw) t := by
  have hcover := h (core item.raw)
  rw [share_cons, copyOf_core, Bool.toNat_true] at hcover
  omega

theorem Covered.lrem {item : ClaimedEvent} {items : List ClaimedEvent} {n : Nat}
    (h : Covered t (item :: items)) (hpayload : item.envelope.payload = some item.raw) :
    Covered (⟨.lrem item.envelope, .ok n⟩ :: t) items := by
  intro e
  have hcover := h e
  rw [share_cons] at hcover
  rw [tally_cons, tally_cons]
  show (item.envelope.payload.any (copyOf e)).toNat + _ + _ ≤ 0 + _ + committed e t
  rw [hpayload, Option.any_some]
  omega

end Amounts

/-! ## Program order of a worker -/

section Worker

variable {py : Builtins} {t t' : Trace Cmd Cmd.Resp} {items claimed : List ClaimedEvent}

/-- The batch has not been written: it makes no rows, or the insert failed. -/
def BatchFailed (py : Builtins) (t : Trace Cmd Cmd.Resp) : Prop :=
  ∀ rows, usageRows py [] (records t) = .ok rows → ∃ e, ⟨.insert rows, .error e⟩ ∈ t

/-- Copies of `e` that were tried `n` times. -/
def atLevel (parse : String → Option Int) (e : Raw) (n : Int) (raw : Raw) : Bool :=
  core raw = e ∧ attempts parse raw = n

/-- The items that a worker has still to try again have been claimed and not pushed yet. -/
def Spare (py : Builtins) (t : Trace Cmd Cmd.Resp) (items : List ClaimedEvent) : Prop :=
  ∀ e n, tally (returns (atLevel py.parse e (n + 1))) t +
    items.countP (fun item => atLevel py.parse e n item.raw) ≤
      (claimedRaws t).countP (atLevel py.parse e n)

def queueOf (attempt : Int) : Queue := if maxRetryAttempts ≤ attempt then .dlq else .pending

/-- What a worker pushes: payloads that are no events, and events of a batch that failed. -/
inductive Pushed (py : Builtins) (t : Trace Cmd Cmd.Resp) : Queue → Raw → Prop
  | unparseable {raw : Raw} : raw ∈ claimedRaws t → raw.record = none → Pushed py t .dlq raw
  | retried {raw raw' : Raw} {n : Int} : raw ∈ claimedRaws t → raw.record.isSome = true →
      incrementAttempt py.parse raw = .ok (raw', n) → BatchFailed py t →
      tally (returns (atLevel py.parse (core raw) (attempts py.parse raw + 1))) t <
        (claimedRaws t).countP (atLevel py.parse (core raw) (attempts py.parse raw)) →
      Pushed py t (queueOf n) raw'

/-- What a worker issues. -/
def WorkerIssues (py : Builtins) (t : Trace Cmd Cmd.Resp) : Cmd → Prop
  | .rpush queue raw => Pushed py t queue raw
  | .claim _ => (∀ p, tally (returns p) t = 0) ∧ written t = []
  | .lrem envelope => ∃ raw, envelope.payload = some raw ∧
      tally (removes (copyOf (core raw))) t <
        tally (sends (copyOf (core raw))) t + committed (core raw) t
  | .insert rows => usageRows py [] (records t) = .ok rows ∧ written t = []
  | .outboxPopleft | .outboxAppendleft _ | .outboxAppend _ | .stuck => False
  | _ => True

/-- A worker's removals are covered at all times. -/
theorem covered_of_guarded (h : Trace.Guarded (WorkerIssues py) t) : Covered t [] := by
  induction t with
  | nil => exact fun e => Nat.le_refl 0
  | cons ev t ih =>
    obtain ⟨hguard, ht⟩ := h
    have hcover := ih ht
    rcases ev with ⟨c, r⟩
    cases c with
    | lrem envelope =>
      cases r with
      | error _ => exact hcover.cons fun e => rfl
      | ok n =>
        obtain ⟨raw, hpayload, hlt⟩ := hguard
        intro e
        have hle := hcover e
        rw [tally_cons, tally_cons]
        show (envelope.payload.any (copyOf e)).toNat + _ + _ ≤ 0 + _ + committed e t
        rw [hpayload, Option.any_some]
        by_cases he : core raw = e
        · subst he
          rw [copyOf_core, Bool.toNat_true]
          change tally _ t + 0 ≤ _ at hle
          show 1 + tally _ t + 0 ≤ _
          omega
        · have hne : copyOf e raw = false := decide_eq_false he
          rw [hne, Bool.toNat_false]
          omega
    | _ => exact hcover.cons fun e => rfl

/-- What a worker has claimed. -/
structure Claims (t : Trace Cmd Cmd.Resp) (claimed : List ClaimedEvent) : Prop where
  raws : claimed.map (·.raw) = claimedRaws t
  payload : ∀ item ∈ claimed, item.envelope.payload = some item.raw
  covered : Covered t []
  unreturned : ∀ p, tally (returns p) t = 0
  unwritten : written t = []

theorem Claims.cons {ev : Event Cmd Cmd.Resp} (h : Claims t claimed)
    (hclaims : claimedRaws (ev :: t) = claimedRaws t) (hwritten : written (ev :: t) = written t)
    (hremoves : ∀ e, removes (copyOf e) ev = 0)
    (hreturns : ∀ p, returns p ev = 0) : Claims (ev :: t) claimed where
  raws := h.raws.trans hclaims.symm
  payload := h.payload
  covered := h.covered.cons hremoves
  unreturned p := by rw [tally_cons, hreturns p, h.unreturned p]
  unwritten := hwritten.trans h.unwritten

/-- Nothing more is claimed. -/
structure SameClaims (t t' : Trace Cmd Cmd.Resp) : Prop where
  raws : claimedRaws t' = claimedRaws t
  sub : t ⊆ t'

theorem SameClaims.refl : SameClaims t t := ⟨rfl, List.Subset.refl _⟩

theorem SameClaims.trans {t'' : Trace Cmd Cmd.Resp} (h : SameClaims t t') (h' : SameClaims t' t'') :
    SameClaims t t'' := ⟨h'.raws.trans h.raws, List.Subset.trans h.sub h'.sub⟩

theorem SameClaims.cons {ev : Event Cmd Cmd.Resp} (h : claimedRaws (ev :: t) = claimedRaws t) :
    SameClaims t (ev :: t) := ⟨h, List.subset_cons_self _ _⟩

theorem SameClaims.records (h : SameClaims t t') : records t' = records t := by
  unfold Events.records
  rw [h.raws]

theorem BatchFailed.mono (h : BatchFailed py t) (hs : SameClaims t t') : BatchFailed py t' := by
  intro rows hrows
  rw [hs.records] at hrows
  obtain ⟨e, he⟩ := h rows hrows
  exact ⟨e, hs.sub he⟩

/-- A retry is one level up. -/
theorem atLevel_retry {raw raw' e : Raw} {n m : Int} (hrecord : raw.record.isSome = true)
    (hincr : incrementAttempt py.parse raw = .ok (raw', n)) :
    atLevel py.parse e (m + 1) raw' = atLevel py.parse e m raw := by
  obtain ⟨hcore, hattempts, hn⟩ := incrementAttempt_eq hrecord hincr
  unfold atLevel
  rw [hcore, hattempts, hn]
  simp

theorem Spare.lt {item : ClaimedEvent} (h : Spare py t (item :: items)) :
    tally (returns (atLevel py.parse (core item.raw) (attempts py.parse item.raw + 1))) t <
      (claimedRaws t).countP (atLevel py.parse (core item.raw) (attempts py.parse item.raw)) := by
  have hspare := h (core item.raw) (attempts py.parse item.raw)
  have hown : atLevel py.parse (core item.raw) (attempts py.parse item.raw) item.raw = true :=
    decide_eq_true ⟨rfl, rfl⟩
  rw [List.countP_cons, if_pos hown] at hspare
  omega

/-- An item is tried again once. -/
theorem Spare.push {item : ClaimedEvent} {queue : Queue} {raw' : Raw} {n : Int} {k : Nat}
    (h : Spare py t (item :: items)) (hrecord : item.raw.record.isSome = true)
    (hincr : incrementAttempt py.parse item.raw = .ok (raw', n)) :
    Spare py (⟨.lrem item.envelope, .ok k⟩ :: ⟨.rpush queue raw', .ok ()⟩ :: t) items := by
  intro e m
  have hspare := h e m
  have hlevel : atLevel py.parse e (m + 1) raw' = atLevel py.parse e m item.raw :=
    atLevel_retry hrecord hincr
  rw [List.countP_cons] at hspare
  rw [tally_cons, tally_cons]
  show 0 + (_ + _) + _ ≤ (claimedRaws t).countP _
  have hone : returns (atLevel py.parse e (m + 1)) ⟨.rpush queue raw', .ok ()⟩ ≤
      if atLevel py.parse e m item.raw = true then 1 else 0 := by
    rw [← hlevel]
    cases queue with
    | dlq => exact Nat.zero_le _
    | pending =>
      show (atLevel py.parse e (m + 1) raw').toNat ≤ _
      cases atLevel py.parse e (m + 1) raw' <;> simp
  omega

/-- A command of the queue has raised. -/
def Infra : Event Cmd Cmd.Resp → Prop
  | ⟨.rpush _ _, .error _⟩ => True
  | ⟨.claim _, .error _⟩ => True
  | ⟨.lrem _, .error _⟩ => True
  | ⟨.recover _, .error _⟩ => True
  | _ => False

/-- The loop of the claims. -/
theorem claimLoop_follows {n : Nat} (h : Claims t claimed) :
    (claimLoop n claimed).Follows (WorkerIssues py) (fun claimed t' =>
      (claimed = [] ∧ ∃ ev ∈ t', Infra ev) ∨
      Claims t' claimed ∧ (0 < n → ∃ now r, ⟨.claim now, r⟩ ∈ t') ∧ t ⊆ t') t := by
  induction n generalizing claimed t with
  | zero => exact .inr ⟨h, fun hn => absurd hn (Nat.lt_irrefl 0), List.Subset.refl _⟩
  | succ n ih =>
    have hread {now : Int} : Claims (⟨.now, now⟩ :: t) claimed :=
      h.cons rfl rfl (fun e => rfl) fun p => rfl
    refine ⟨trivial, fun now => ⟨⟨hread.unreturned, hread.unwritten⟩, fun answer => ?_⟩⟩
    have hlater {claimed' : List ClaimedEvent} (hclaims : Claims (⟨.claim now, answer⟩ ::
        ⟨.now, now⟩ :: t) claimed') : (claimLoop n claimed').Follows (WorkerIssues py)
        (fun claimed t' => (claimed = [] ∧ ∃ ev ∈ t', Infra ev) ∨ Claims t' claimed ∧
          (0 < n + 1 → ∃ now r, ⟨.claim now, r⟩ ∈ t') ∧ t ⊆ t')
        (⟨.claim now, answer⟩ :: ⟨.now, now⟩ :: t) := by
      refine Prog.Follows.mono (ih hclaims) fun claimed t' h => ?_
      rcases h with hraised | ⟨hclaims, -, hsub⟩
      · exact .inl hraised
      · refine .inr ⟨hclaims, fun _ => ⟨now, answer, hsub List.mem_cons_self⟩, ?_⟩
        exact List.Subset.trans (List.subset_cons_of_subset _ (List.subset_cons_self _ _)) hsub
    have hcover : Covered (⟨.claim now, answer⟩ :: ⟨.now, now⟩ :: t) [] :=
      hread.covered.cons fun e => rfl
    have hunreturned : ∀ p, tally (returns p) (⟨.claim now, answer⟩ :: ⟨.now, now⟩ :: t) = 0 := by
      intro p
      rw [tally_cons, hread.unreturned p]
      rfl
    rcases answer with e | _ | ⟨_ | raw, claimedAt⟩
    · exact .inl ⟨rfl, _, List.mem_cons_self, trivial⟩
    · refine .inr ⟨⟨h.raws, h.payload, hcover, hunreturned, h.unwritten⟩,
        fun _ => ⟨now, _, List.mem_cons_self⟩, ?_⟩
      exact List.subset_cons_of_subset _ (List.subset_cons_self _ _)
    · refine hlater ⟨?_, h.payload, hcover, hunreturned, h.unwritten⟩
      show _ = claimedRaws t ++ []
      rw [List.append_nil]
      exact h.raws
    · refine hlater ⟨?_, fun item hitem => ?_, hcover, hunreturned, h.unwritten⟩
      · rw [List.map_append, h.raws]
        rfl
      · rcases List.mem_append.1 hitem with hitem | hitem
        · exact h.payload item hitem
        · rw [List.mem_singleton.1 hitem]

theorem ack_follows {acked : Nat} (hcover : Covered t items)
    (hitems : ∀ item ∈ items, item.envelope.payload = some item.raw) :
    (ackClaimed items acked).Follows (WorkerIssues py) (fun _ t' => SameClaims t t' ∧
      written t' = written t) t := by
  induction items generalizing t acked with
  | nil => exact ⟨.refl, rfl⟩
  | cons item items ih =>
    have hpayload := hitems item List.mem_cons_self
    refine ⟨⟨item.raw, hpayload, hcover.lt⟩, fun answer => ?_⟩
    cases answer with
    | error e => exact ⟨.cons rfl, rfl⟩
    | ok n =>
      refine Prog.Follows.mono (ih (hcover.lrem hpayload)
        fun item hitem => hitems item (List.mem_cons_of_mem _ hitem)) fun _ t' h => ?_
      exact ⟨SameClaims.trans (.cons rfl) h.1, h.2⟩

theorem dlq_follows (h : Claims t claimed) (hitems : ∀ item ∈ items,
      item.envelope.payload = some item.raw ∧ item.raw ∈ claimedRaws t ∧ item.raw.record = none) :
    (dlqClaimed items).Follows (WorkerIssues py)
      (fun _ t' => SameClaims t t' ∧ Claims t' claimed) t := by
  induction items generalizing t with
  | nil => exact ⟨.refl, h⟩
  | cons item items ih =>
    obtain ⟨hpayload, hclaimed, hrecord⟩ := hitems item List.mem_cons_self
    refine ⟨.unparseable hclaimed hrecord, fun answer => ?_⟩
    match answer with
    | .error e => exact ⟨.cons rfl, h.cons rfl rfl (fun e => rfl) fun p => rfl⟩
    | .ok () =>
      have hpaid : Covered (⟨.rpush .dlq item.raw, .ok ()⟩ :: t) [item] := h.covered.push rfl
      have hunreturned : ∀ p, tally (returns p) (⟨.rpush .dlq item.raw, .ok ()⟩ :: t) = 0 := by
        intro p
        rw [tally_cons, h.unreturned p]
        rfl
      refine ⟨⟨item.raw, hpayload, hpaid.lt⟩, fun answer => ?_⟩
      have hs : SameClaims t (⟨.lrem item.envelope, answer⟩ :: ⟨.rpush .dlq item.raw, .ok ()⟩ :: t) :=
        SameClaims.trans (.cons rfl) (.cons rfl)
      have hunreturned' : ∀ p, tally (returns p) (⟨.lrem item.envelope, answer⟩ ::
          ⟨.rpush .dlq item.raw, .ok ()⟩ :: t) = 0 := by
        intro p
        rw [tally_cons, hunreturned p]
        rfl
      cases answer with
      | error e =>
        exact ⟨hs, h.raws, h.payload, (h.covered.cons fun e => rfl).cons fun e => rfl, hunreturned',
          h.unwritten⟩
      | ok n =>
        refine Prog.Follows.mono (ih ⟨h.raws, h.payload, hpaid.lrem hpayload, hunreturned', h.unwritten⟩
          fun item hitem => hitems item (List.mem_cons_of_mem _ hitem)) fun _ t' h => ?_
        exact ⟨SameClaims.trans hs h.1, h.2⟩

/-- The events of a batch that failed are back in the pending list or given up. -/
def Retried (py : Builtins) (t : Trace Cmd Cmd.Resp) (raw : Raw) : Prop :=
  ∃ raw' n, incrementAttempt py.parse raw = .ok (raw', n) ∧ ⟨.rpush (queueOf n) raw', .ok ()⟩ ∈ t

theorem retry_follows (hcover : Covered t []) (hspare : Spare py t items) (hitems : ∀ item ∈ items,
      item.envelope.payload = some item.raw ∧ item.raw ∈ claimedRaws t ∧
      item.raw.record.isSome = true) (hfailed : BatchFailed py t) :
    (retryOrDlqClaimed py.parse maxRetryAttempts items).Follows (WorkerIssues py)
      (fun _ t' => SameClaims t t' ∧ ((∃ ev ∈ t', Infra ev) ∨
        (∃ item ∈ items, ∃ e, incrementAttempt py.parse item.raw = .error e) ∨
        ∀ item ∈ items, Retried py t' item.raw)) t := by
  induction items generalizing t with
  | nil => exact ⟨.refl, .inr (.inr fun item hitem => absurd hitem List.not_mem_nil)⟩
  | cons item items ih =>
    obtain ⟨hpayload, hclaimed, hrecord⟩ := hitems item List.mem_cons_self
    unfold retryOrDlqClaimed
    cases hincr : incrementAttempt py.parse item.raw with
    | error e => exact ⟨.refl, .inr (.inl ⟨item, List.mem_cons_self, e, hincr⟩)⟩
    | ok next =>
      obtain ⟨payload, n⟩ := next
      refine ⟨.retried hclaimed hrecord hincr hfailed hspare.lt, fun answer => ?_⟩
      match answer with
      | .error e => exact ⟨.cons rfl, .inl ⟨_, List.mem_cons_self, trivial⟩⟩
      | .ok () =>
        have hpaid : Covered (⟨.rpush (queueOf n) payload, .ok ()⟩ :: t) [item] :=
          hcover.push (incrementAttempt_eq hrecord hincr).1
        refine ⟨⟨item.raw, hpayload, hpaid.lt⟩, fun answer => ?_⟩
        cases answer with
        | error e => exact ⟨SameClaims.trans (.cons rfl) (.cons rfl),
            .inl ⟨_, List.mem_cons_self, trivial⟩⟩
        | ok k =>
          refine Prog.Follows.mono (ih (hpaid.lrem hpayload) (hspare.push hrecord hincr)
            (fun item hitem => hitems item (List.mem_cons_of_mem _ hitem))
            (hfailed.mono (SameClaims.trans (.cons rfl) (.cons rfl)))) fun _ t' h => ?_
          obtain ⟨hs, hend⟩ := h
          refine ⟨SameClaims.trans (SameClaims.trans (.cons rfl) (.cons rfl)) hs, ?_⟩
          rcases hend with hraised | ⟨bad, hbad, hunreadable⟩ | hretried
          · exact .inl hraised
          · exact .inr (.inl ⟨bad, List.mem_cons_of_mem _ hbad, hunreadable⟩)
          · refine .inr (.inr fun item' hitem' => ?_)
            rcases List.mem_cons.1 hitem' with rfl | hitem'
            · refine ⟨payload, n, hincr, hs.sub ?_⟩
              exact List.mem_cons_of_mem _ List.mem_cons_self
            · exact hretried item' hitem'

/-- How a worker ends: a command raised, a text could not be loaded or an attempt not be counted, or the
batch was written or tried again. -/
inductive Handled (py : Builtins) (t : Trace Cmd Cmd.Resp) : Prop
  | raised (ev : Event Cmd Cmd.Resp) : ev ∈ t → Infra ev → Handled py t
  | unloadable (raw : Raw) : raw ∈ claimedRaws t → raw.raises = true → Handled py t
  | unreadable (raw : Raw) (e : Failure) : raw ∈ claimedRaws t → raw.record.isSome = true →
      BatchFailed py t → incrementAttempt py.parse raw = .error e → Handled py t
  | written : (∀ raw ∈ claimedRaws t, raw.record.isSome = true → raw ∈ written t) → Handled py t
  | retried : BatchFailed py t →
      (∀ raw ∈ claimedRaws t, raw.record.isSome = true → Retried py t raw) → Handled py t

theorem Claims.records (h : Claims t claimed) :
    claimed.filterMap (fun item => item.raw.record) = records t := by
  unfold Events.records
  rw [← h.raws, List.filterMap_map]
  rfl

theorem Claims.of_filter {p : ClaimedEvent → Bool} {item : ClaimedEvent} (h : Claims t claimed)
    (hitem : item ∈ claimed.filter p) : item.envelope.payload = some item.raw ∧
      item.raw ∈ claimedRaws t ∧ p item = true := by
  obtain ⟨hmem, hp⟩ := List.mem_filter.1 hitem
  refine ⟨h.payload item hmem, ?_, hp⟩
  rw [← h.raws]
  exact List.mem_map_of_mem hmem

/-- A commit pays for the removal of its batch. -/
theorem Claims.written {rows : List Row} {n : Nat} (h : Claims t claimed) :
    Covered (⟨.insert rows, .ok n⟩ :: t) (claimed.filter fun item => item.raw.record.isSome) := by
  intro e
  have hcover := h.covered e
  have hbatch : share e (claimed.filter fun item => item.raw.record.isSome) =
      ((claimedRaws t).filter (·.record.isSome)).countP (copyOf e) := by
    unfold share
    rw [← h.raws, List.filter_map, List.countP_map]
    rfl
  have hcommit : committed e (⟨.insert rows, .ok n⟩ :: t) = committed e t +
      ((claimedRaws t).filter (·.record.isSome)).countP (copyOf e) := by
    show (Events.written t ++ _).countP _ = _
    rw [List.countP_append]
    rfl
  rw [tally_cons, tally_cons, hbatch, hcommit]
  show 0 + _ + _ ≤ 0 + _ + _
  change _ + 0 ≤ _ at hcover
  omega

/-- Nothing of the batch has been tried again. -/
theorem Claims.spare (h : Claims t claimed) (p : ClaimedEvent → Bool) :
    Spare py t (claimed.filter p) := by
  intro e n
  rw [h.unreturned, ← h.raws, List.countP_map, Nat.zero_add]
  exact List.Sublist.countP_le List.filter_sublist

/-- Every retried item of a batch that has been claimed. -/
theorem Claims.retried (h : Claims t claimed) (hs : SameClaims t t') (hfailed : BatchFailed py t)
    (hend : (∃ ev ∈ t', Infra ev) ∨
      (∃ item ∈ claimed.filter fun item => item.raw.record.isSome,
        ∃ e, incrementAttempt py.parse item.raw = .error e) ∨
      ∀ item ∈ claimed.filter fun item => item.raw.record.isSome, Retried py t' item.raw) :
    Handled py t' := by
  rcases hend with ⟨ev, hev, hraised⟩ | ⟨item, hitem, e, hunreadable⟩ | hretried
  · exact .raised ev hev hraised
  · obtain ⟨-, hclaimed, hrecord⟩ := h.of_filter hitem
    rw [← hs.raws] at hclaimed
    exact .unreadable item.raw e hclaimed hrecord (hfailed.mono hs) hunreadable
  · refine .retried (hfailed.mono hs) fun raw hraw hrecord => ?_
    rw [hs.raws, ← h.raws] at hraw
    obtain ⟨item, hitem, rfl⟩ := List.mem_map.1 hraw
    exact hretried item (List.mem_filter.2 ⟨hitem, hrecord⟩)

/-- What a finished worker has done. -/
structure Flushed (py : Builtins) (t : Trace Cmd Cmd.Resp) : Prop where
  claimed : (∃ ev ∈ t, Infra ev) ∨ ∃ now r, ⟨.claim now, r⟩ ∈ t
  handled : Handled py t

/-- After the claims. -/
theorem batch_follows (h : Claims t claimed) (hclaim : ∃ now r, ⟨.claim now, r⟩ ∈ t) :
    (do
      dlqClaimed (claimed.filter fun item => item.raw.record.isNone)
      if claimed.filterMap (fun item => item.raw.record) = [] then return .ok 0
      match ← bulkInsertUsage py (claimed.filterMap fun item => item.raw.record) with
      | .error _ =>
        retryOrDlqClaimed py.parse maxRetryAttempts
          (claimed.filter fun item => item.raw.record.isSome)
        return .ok 0
      | .ok written =>
        let _ ← ackClaimed (claimed.filter fun item => item.raw.record.isSome) 0
        return .ok written : Prog Cmd Cmd.Resp (Except Failure Nat)).Follows (WorkerIssues py)
        (fun _ t' => Flushed py t') t := by
  refine Prog.Follows.bind (dlq_follows h fun item hitem => ?_) fun _ t₁ hdlq => ?_
  · obtain ⟨hpayload, hclaimed, hrecord⟩ := h.of_filter hitem
    exact ⟨hpayload, hclaimed, Option.isNone_iff_eq_none.1 hrecord⟩
  obtain ⟨hs, h₁⟩ := hdlq
  obtain ⟨now, r, hclaim⟩ := hclaim
  rw [h₁.records]
  by_cases hempty : records t₁ = []
  · rw [if_pos hempty]
    refine ⟨.inr ⟨now, r, hs.sub hclaim⟩, .written fun raw hraw hrecord => ?_⟩
    obtain ⟨fields, hfields⟩ := Option.isSome_iff_exists.1 hrecord
    have hmem : fields ∈ records t₁ := List.mem_filterMap.2 ⟨raw, hraw, hfields⟩
    rw [hempty] at hmem
    cases hmem
  rw [if_neg hempty]
  unfold bulkInsertUsage
  cases hrows : usageRows py [] (records t₁) with
  | error e =>
    show Prog.Follows _ _ (retryOrDlqClaimed py.parse maxRetryAttempts
      (claimed.filter fun item => item.raw.record.isSome) >>=
        fun _ => pure (Except.ok 0 : Except Failure Nat)) _
    have hfailed : BatchFailed py t₁ := by
      intro rows hrows'
      rw [hrows] at hrows'
      cases hrows'
    refine Prog.Follows.bind (retry_follows h₁.covered (h₁.spare _)
      (fun item hitem => h₁.of_filter hitem) hfailed) fun _ t₂ hretry => ?_
    exact ⟨.inr ⟨now, r, hretry.1.sub (hs.sub hclaim)⟩, h₁.retried hretry.1 hfailed hretry.2⟩
  | ok rows =>
    refine ⟨⟨hrows, h₁.unwritten⟩, fun answer => ?_⟩
    cases answer with
    | error e =>
      show Prog.Follows _ _ (retryOrDlqClaimed py.parse maxRetryAttempts
        (claimed.filter fun item => item.raw.record.isSome) >>=
        fun _ => pure (Except.ok 0 : Except Failure Nat)) _
      have h₂ : Claims (⟨.insert rows, .error e⟩ :: t₁) claimed :=
        h₁.cons rfl rfl (fun e => rfl) fun p => rfl
      have hfailed : BatchFailed py (⟨.insert rows, .error e⟩ :: t₁) := by
        intro rows' hrows'
        cases hrows.symm.trans hrows'
        exact ⟨e, List.mem_cons_self⟩
      refine Prog.Follows.bind (retry_follows h₂.covered (h₂.spare _)
        (fun item hitem => h₂.of_filter hitem) hfailed) fun _ t₃ hretry => ?_
      refine ⟨.inr ⟨now, r, hretry.1.sub ?_⟩, h₂.retried hretry.1 hfailed hretry.2⟩
      exact List.mem_cons_of_mem _ (hs.sub hclaim)
    | ok n =>
      show Prog.Follows _ _ (ackClaimed (claimed.filter fun item => item.raw.record.isSome) 0 >>=
        fun _ => pure (Except.ok n : Except Failure Nat)) _
      refine Prog.Follows.bind (ack_follows h₁.written fun item hitem => (h₁.of_filter hitem).1)
        fun _ t₃ hack => ?_
      obtain ⟨hs', hwritten⟩ := hack
      refine ⟨.inr ⟨now, r, hs'.sub (List.mem_cons_of_mem _ (hs.sub hclaim))⟩,
        .written fun raw hraw hrecord => ?_⟩
      rw [hs'.raws] at hraw
      rw [hwritten]
      exact List.mem_append_right _ (List.mem_filter.2 ⟨hraw, hrecord⟩)

theorem flush_follows :
    (flushUsageRecords py).Follows (WorkerIssues py) (fun _ t => Flushed py t) [] := by
  have hstart : Claims [] [] :=
    ⟨rfl, fun item hitem => absurd hitem List.not_mem_nil, fun e => Nat.le_refl 0, fun p => rfl, rfl⟩
  have hrecover : (recoverStaleClaims defaultInflightStaleSeconds).Follows (WorkerIssues py)
      (fun _ t => Claims t []) [] := by
    refine ⟨trivial, fun now => ⟨trivial, fun answer => ?_⟩⟩
    have hclaims : Claims [⟨.recover (now - defaultInflightStaleSeconds * 1000), answer⟩,
        ⟨.now, now⟩] [] :=
      (hstart.cons rfl rfl (fun e => rfl) fun p => rfl).cons rfl rfl (fun e => rfl) fun p => rfl
    cases answer with
    | error e => exact hclaims
    | ok counts => exact hclaims
  unfold flushUsageRecords
  refine Prog.Follows.bind hrecover fun _ t h => ?_
  refine Prog.Follows.bind (claimLoop_follows h) fun claimed t₁ hclaimed => ?_
  rcases hclaimed with ⟨rfl, ev, hev, hraised⟩ | ⟨hclaims, hclaim, -⟩
  · exact ⟨.inl ⟨ev, hev, hraised⟩, .raised ev hev hraised⟩
  · obtain ⟨now, r, hclaim⟩ := hclaim (by decide)
    by_cases hraises : claimed.any (fun item => item.raw.raises) = true
    · rw [if_pos hraises]
      obtain ⟨item, hitem, hraises⟩ := List.any_eq_true.1 hraises
      refine ⟨.inr ⟨now, r, hclaim⟩, .unloadable item.raw ?_ hraises⟩
      rw [← hclaims.raws]
      exact List.mem_map_of_mem hitem
    · rw [if_neg hraises]
      exact batch_follows hclaims ⟨now, r, hclaim⟩

end Worker

end Events
