import Janus.Gateway.Exits

/-!
# What a request gives back

`calls k t` counts the calls of a trace that settle or compensate the quota reservations, that
settle the TPM reservations, that release the concurrency slots, and that spawn a stream's
finalizer. `serve_accounts`: in every run that was admitted these are what the request's `exit`
gives back.
-/

set_option autoImplicit false

namespace Gateway.Handler

open Conc Janus Python RateLimit

/-! ## Counting -/

inductive Kind
  | quota
  | tpm
  | slots
  | spawn
deriving DecidableEq

def Cmd.kind : Cmd → Option Kind
  | .settleReservations .. | .compensateReservations _ => some .quota
  | .settleTpm .. => some .tpm
  | .releaseConcurrent .. => some .slots
  | .spawnFinalizer _ => some .spawn
  | _ => none

abbrev Calls := Trace Cmd Cmd.Resp

def calls (k : Kind) (t : Calls) : Nat := t.countP fun e => e.cmd.kind = some k

/-- Every call succeeds. -/
def succeeding : (c : Cmd) → Unit → Cmd.Resp c × Unit
  | .checkRateLimits .., s => ({ allowed := true }, s)
  | .settleTpm .., s => (.ok (), s)
  | .settleReservations .., s => (.ok (), s)
  | .compensateReservations _, s => (.ok (), s)
  | .checkQuota .., s => ((), s)
  | .releaseRpm .., s => ((), s)
  | .releaseConcurrent .., s => ((), s)
  | .enqueueUsageEvent _, s => ((), s)
  | .enqueueLogEvent _, s => ((), s)
  | .recordChannelHealth .., s => ((), s)
  | .recordBillingFailure .., s => ((), s)
  | .callUpstream .., s => ((), s)
  | .setCachedResponse .., s => ((), s)
  | .spawnFinalizer _, s => ((), s)
  | .aclose, s => ((), s)
  | .yield .., s => ((), s)

/-- How often a part of a request calls each kind. -/
abbrev Tally := Kind → Nat

def Cmd.tally (c : Cmd) : Tally := fun k => if c.kind = some k then 1 else 0

/-- The rules that the calls of a step name: only the rollback may get to fewer of them. -/
def World.named (w : World) (step : RollbackStep) : List Rule :=
  match w.quota with
  | .raises _ => w.reached step
  | _ => w.rules

/-- The calls of a request name its own member, rules and reservations, and admission is the first
of them. -/
def Own (w : World) (stream : Bool) : Guard Cmd Cmd.Resp := fun t c =>
  match c with
  | .checkRateLimits member _ isStream rules =>
    t = [] ∧ member = w.member ∧ isStream = stream ∧ rules = w.rules
  | .settleTpm rules _ => rules = w.named .settleTpm
  | .releaseRpm member rules => member = w.member ∧ rules = w.named .releaseRpm
  | .releaseConcurrent member rules => member = w.member ∧ rules = w.named .releaseConcurrent
  | .settleReservations reservations _ _ | .compensateReservations reservations =>
    reservations = quotaReservations w
  | _ => True

theorem calls_cons (k : Kind) (t : Calls) (c : Cmd) (r : Cmd.Resp c) :
    calls k (⟨c, r⟩ :: t) = calls k t + c.tally k := by
  unfold calls Cmd.tally
  rw [List.countP_cons]
  simp only [decide_eq_true_eq]

/-- Whatever was called before, `p` calls each kind as `d` says and ends as `O` says. -/
def Gives {α : Type} (w : World) (stream : Bool) (d : Tally) (O : Except Raised α → Prop)
    (p : Io α) : Prop :=
  ∀ t : Calls, Raising.Follows (Own w stream)
    (fun outcome t' => O outcome ∧ ∀ k, calls k t' = calls k t + d k) p t

/-- A program that returns. -/
def Returns {α : Type} (outcome : Except Raised α) : Prop := outcome.isOk = true

/-- A program that raises. -/
def Raises {α : Type} (outcome : Except Raised α) : Prop := outcome.isOk = false

/-- Whatever is raised is an `Exception`. -/
def Catchable {α : Type} (outcome : Except Raised α) : Prop :=
  ∀ e, outcome = .error e → ∃ x, e = .exception x

def Anyhow {α : Type} (_ : Except Raised α) : Prop := True

theorem catchable_ok{α : Type} (a : α) : Catchable (.ok a) := by
  intro e he
  cases he

namespace Gives

variable {w : World} {stream : Bool} {α β : Type} {d d' : Tally}
  {O P : Except Raised α → Prop}

theorem pure {a : α} (h : O (.ok a)) : Gives w stream 0 O (Pure.pure a) :=
  fun _ => Raising.Follows.pure ⟨h, fun _ => rfl⟩

theorem raise {e : Exn} (h : O (.error (.exception e))) : Gives w stream 0 O (Handler.raise e) :=
  fun _ => Raising.Follows.throw ⟨h, fun _ => rfl⟩

theorem throw {e : Raised} (h : O (.error e)) : Gives w stream 0 O (MonadExcept.throw e) :=
  fun _ => Raising.Follows.throw ⟨h, fun _ => rfl⟩

theorem mono {p : Io α} (h : Gives w stream d P p) (hPO : ∀ outcome, P outcome → O outcome) :
    Gives w stream d O p :=
  fun t => (h t).mono fun _ _ hr => ⟨hPO _ hr.1, hr.2⟩

theorem of_eq {p : Io α} (h : Gives w stream d O p) (hd : d = d') : Gives w stream d' O p := hd ▸ h

theorem call {c : Cmd} {O : Except Raised (Cmd.Resp c) → Prop} (hc : ∀ t, Own w stream t c)
    (h : ∀ r, O (.ok r)) : Gives w stream c.tally O (Handler.call c) := by
  exact fun t => Raising.Follows.cmd (hc t) fun r => ⟨h r, fun k => calls_cons k t c r⟩

/-- A call that gives nothing back. -/
theorem aside {c : Cmd} {O : Except Raised (Cmd.Resp c) → Prop} (hc : ∀ t, Own w stream t c)
    (hk : c.kind = none) (h : ∀ r, O (.ok r)) : Gives w stream 0 O (Handler.call c) := by
  have htally : c.tally = 0 := by
    funext k
    unfold Cmd.tally
    rw [hk]
    rfl
  exact htally ▸ Gives.call hc h

/-- A part, and the rest: where the part can raise, the rest gives nothing back. -/
theorem bind {p : Io α} {f : α → Io β} {O : Except Raised β → Prop} (hp : Gives w stream d P p)
    (herror : ∀ e, P (.error e) → O (.error e) ∧ d' = 0)
    (hf : ∀ a, P (.ok a) → Gives w stream d' O (f a)) : Gives w stream (d + d') O (p >>= f) := by
  refine fun t => Raising.Follows.bind (hp t) (fun a t' h => ?_) (fun e t' h => ?_)
  · refine (hf a h.1 t').mono fun o t'' h' => ⟨h'.1, fun k => ?_⟩
    rw [h'.2 k, h.2 k, Pi.add_apply, Nat.add_assoc]
  · obtain ⟨hO, rfl⟩ := herror e h.1
    exact ⟨hO, h.2⟩

/-- A part that returns and gives nothing back, and the rest. -/
theorem skip {p : Io α} {f : α → Io β} {O : Except Raised β → Prop}
    (hp : Gives w stream 0 Returns p) (hf : ∀ a, Gives w stream d O (f a)) :
    Gives w stream d O (p >>= f) :=
  zero_add d ▸ bind hp (fun _ h => by cases h) fun a _ => hf a

/-- A part that returns, and the rest gives nothing back. -/
theorem last {p : Io α} {f : α → Io β} {O : Except Raised β → Prop}
    (hp : Gives w stream d Returns p) (hf : ∀ a, Gives w stream 0 O (f a)) :
    Gives w stream d O (p >>= f) :=
  add_zero d ▸ bind hp (fun _ h => by cases h) fun a _ => hf a

/-- A part that raises skips the rest. -/
theorem bind_raises {p : Io α} {f : α → Io β} {O : Except Raised β → Prop}
    (hp : Gives w stream d P p) (hraise : ∀ outcome, P outcome → Raises outcome)
    (hO : ∀ e, O (.error e)) : Gives w stream d O (p >>= f) := by
  refine fun t => Raising.Follows.bind (hp t) (fun a t' h => ?_) (fun e t' h => ⟨hO e, h.2⟩)
  cases hraise _ h.1

/-- Where the body can return, or raise what is not caught, the handler gives nothing back. -/
theorem tryExcept {p : Io α} {handler : Exn → Io α} (hp : Gives w stream d P p)
    (hok : ∀ a, P (.ok a) → O (.ok a) ∧ d' = 0)
    (hpass : ∀ e, P (.error e) → (∃ x, e = .exception x) ∨ O (.error e) ∧ d' = 0)
    (hcatch : ∀ x, P (.error (.exception x)) → Gives w stream d' O (handler x)) :
    Gives w stream (d + d') O (Handler.tryExcept p handler) := by
  refine fun t => Raising.Follows.tryCatch (hp t) (fun a t' h => ?_) (fun e t' h => ?_)
  · obtain ⟨hO, rfl⟩ := hok a h.1
    exact ⟨hO, h.2⟩
  · cases e with
    | exception x =>
      refine (hcatch x h.1 t').mono fun o t'' h' => ⟨h'.1, fun k => ?_⟩
      rw [h'.2 k, h.2 k, Pi.add_apply, Nat.add_assoc]
    | cancelled =>
      obtain ⟨x, hx⟩ | ⟨hO, rfl⟩ := hpass _ h.1
      · cases hx
      · exact ⟨hO, h.2⟩
    | generatorExit =>
      obtain ⟨x, hx⟩ | ⟨hO, rfl⟩ := hpass _ h.1
      · cases hx
      · exact ⟨hO, h.2⟩

/-- A part whose exceptions are all handled. -/
theorem caught {p : Io α} {handler : Exn → Io α} (hp : Gives w stream d Catchable p)
    (hhandler : ∀ x, Gives w stream 0 Returns (handler x)) :
    Gives w stream d Returns (Handler.tryExcept p handler) :=
  (tryExcept hp (fun _ _ => ⟨rfl, rfl⟩) (fun e h => .inl (h e rfl)) fun x _ => hhandler x).of_eq
    (add_zero d)

end Gives

/-! ## The cleanups -/

section

variable {w : World} {stream : Bool}

/-- One call for the quota reservations, if there are any. -/
def quotaTally (w : World) : Tally := fun k => if k = .quota ∧ quotaReservations w ≠ [] then 1 else 0

/-- One call for the TPM reservations, if there are rules. -/
def tpmTally (w : World) : Tally := fun k => if k = .tpm ∧ w.rules ≠ [] then 1 else 0

/-- One call for the slots, if there are rules. -/
def slotsTally (w : World) : Tally := fun k => if k = .slots ∧ w.rules ≠ [] then 1 else 0

def spawnTally : Tally := fun k => if k = .spawn then 1 else 0

/-- What the rollback gives back: it is left at the first call that is cancelled. -/
def rollbackTally (w : World) : Tally :=
  tpmTally w + if w.rollbackCut .settleTpm = none ∧ w.rollbackCut .releaseRpm = none then slotsTally w
    else 0

/-- What a stream's finalizer gives back, and the finalizer itself. -/
def cleanupTally (w : World) : Tally := slotsTally w + (quotaTally w + tpmTally w)

def streamTally (w : World) : Tally := spawnTally + cleanupTally w

theorem quotaTally_nil (h : quotaReservations w = []) : quotaTally w = 0 := by
  funext k
  simp [quotaTally, h]

theorem quotaTally_call {c : Cmd} (hc : c.kind = some .quota) (h : quotaReservations w ≠ []) :
    quotaTally w = c.tally := by
  funext k
  simp [quotaTally, Cmd.tally, hc, h, eq_comm]

theorem tpmTally_call {c : Cmd} (hc : c.kind = some .tpm) (h : w.rules ≠ []) :
    tpmTally w = c.tally := by
  funext k
  simp [tpmTally, Cmd.tally, hc, h, eq_comm]

theorem slotsTally_call {c : Cmd} (hc : c.kind = some .slots) (h : w.rules ≠ []) :
    slotsTally w = c.tally := by
  funext k
  simp [slotsTally, Cmd.tally, hc, h, eq_comm]

theorem settling_gives {d : Tally} {p : Io (Except Exn Unit)} (hp : Gives w stream d Returns p) :
    Gives w stream d Catchable (p >>= settling) := by
  refine Gives.last hp fun answer => ?_
  cases answer with
  | ok u => exact Gives.pure (catchable_ok _)
  | error e => exact Gives.raise (by intro _ he; cases he; exact ⟨e, rfl⟩)

/-- A settlement, then what gives nothing back. -/
theorem settling_then_gives {α : Type} {d : Tally} {p : Io (Except Exn Unit)} {f : Unit → Io α}
    (hp : Gives w stream d Returns p) (hf : ∀ u, Gives w stream 0 Catchable (f u)) :
    Gives w stream d Catchable (p >>= fun answer => settling answer >>= f) := by
  refine Gives.last hp fun answer => ?_
  cases answer with
  | ok u => exact hf u
  | error e => exact Gives.raise (by intro _ he; cases he; exact ⟨e, rfl⟩)

theorem settleQuota_gives {ctx : GatewayRequestContext} {logicalModel : LogicalModel}
    (hr : ctx.quotaReserved = true) (hs : ctx.quotaSettled = false)
    (hres : ctx.quotaReservations = quotaReservations w) :
    Gives w stream (quotaTally w) Returns (settleQuota ctx logicalModel) := by
  unfold settleQuota
  rw [if_neg (by simp [hr, hs])]
  refine Gives.caught ?_ fun x => Gives.skip (Gives.aside (fun _ => trivial) rfl fun _ => rfl)
    fun _ => Gives.pure rfl
  rw [hres]
  by_cases hne : quotaReservations w ≠ []
  · simp only [if_pos hne]
    split
    · rw [quotaTally_call (c := .compensateReservations (quotaReservations w)) rfl hne]
      exact settling_then_gives (Gives.call (fun _ => rfl) fun _ => rfl)
        fun _ => Gives.pure (catchable_ok _)
    · rw [quotaTally_call (c := .settleReservations (quotaReservations w) ctx.totalTokens _) rfl hne]
      exact settling_then_gives (Gives.call (fun _ => rfl) fun _ => rfl)
        fun _ => Gives.pure (catchable_ok _)
  · simp only [if_neg hne]
    rw [quotaTally_nil (not_not.1 hne)]
    exact Gives.pure (catchable_ok _)

theorem tpmTally_nil (h : w.rules = []) : tpmTally w = 0 := by
  funext k
  simp [tpmTally, h]

theorem slotsTally_nil (h : w.rules = []) : slotsTally w = 0 := by
  funext k
  simp [slotsTally, h]

theorem settleTpm_gives {deltaTokens : Int} {rules : List Rule} (hne : w.rules ≠ [])
    (hnamed : rules = w.named .settleTpm) : Gives w stream (tpmTally w) Catchable
      (do settling (← call (.settleTpm rules deltaTokens))) := by
  rw [tpmTally_call (c := .settleTpm rules deltaTokens) rfl hne]
  exact settling_gives (Gives.call (fun _ => hnamed) fun _ => rfl)

theorem named_value {q : QuotaCheckResult} (hq : w.quota = .value q) (step : RollbackStep) :
    w.rules = w.named step := by
  unfold World.named
  rw [hq]

theorem named_raises {e : Exn} (hq : w.quota = .raises e) (step : RollbackStep) :
    w.reached step = w.named step := by
  unfold World.named
  rw [hq]

variable {q : QuotaCheckResult}

theorem settleTpmOf_gives (hq : w.quota = .value q) (ctx : GatewayRequestContext) :
    Gives w stream (tpmTally w) Returns (settleTpmOf ctx w.rules) := by
  unfold settleTpmOf
  by_cases hne : w.rules ≠ []
  · rw [if_pos hne]
    exact Gives.caught (settleTpm_gives hne (named_value hq _)) fun x =>
      Gives.aside (fun _ => trivial) rfl fun _ => rfl
  · rw [if_neg hne, tpmTally_nil (not_not.1 hne)]
    exact Gives.pure rfl

/-- The finalizer settles both kinds of reservations, and returns. -/
theorem finalizeGatewayRequest_gives {ctx : GatewayRequestContext} {logicalModel : LogicalModel}
    (hq : w.quota = .value q) (hr : ctx.quotaReserved = true) (hs : ctx.quotaSettled = false)
    (hres : ctx.quotaReservations = []) :
    Gives w stream (quotaTally w + tpmTally w) Returns
      (finalizeGatewayRequest ctx logicalModel w.rules (quotaReservations w)) := by
  unfold finalizeGatewayRequest
  refine Gives.bind (settleQuota_gives (w := w) ?_ ?_ ?_) (fun _ h => by cases h) fun ctx' _ => ?_
  · split <;> exact hr
  · split <;> exact hs
  · split
    · rfl
    · rename_i hnil
      rw [hres, not_not.1 hnil]
  · refine Gives.skip (Gives.aside (fun _ => trivial) rfl fun _ => rfl) fun _ => ?_
    refine Gives.skip (Gives.aside (fun _ => trivial) rfl fun _ => rfl) fun _ => ?_
    refine Gives.skip ?_ fun _ => settleTpmOf_gives hq ctx'
    unfold recordChannelHealth
    split
    · exact Gives.pure rfl
    · exact Gives.aside (fun _ => trivial) rfl fun _ => rfl

theorem releaseConcurrent_gives {rules : List Rule} (hne : w.rules ≠ [])
    (hnamed : rules = w.named .releaseConcurrent) :
    Gives w stream (slotsTally w) Returns (call (.releaseConcurrent w.member rules)) := by
  rw [slotsTally_call (c := .releaseConcurrent w.member rules) rfl hne]
  exact Gives.call (fun _ => ⟨rfl, hnamed⟩) fun _ => rfl

theorem suppress_gives {d : Tally} {p : Io Unit} (hp : Gives w stream d Catchable p) :
    Gives w stream d Returns (suppressException p) := Gives.caught hp fun _ => Gives.pure rfl

theorem Returns.catchable {α : Type} {outcome : Except Raised α} (h : Returns outcome) :
    Catchable outcome := by
  cases outcome with
  | ok a => exact catchable_ok a
  | error e => cases h

/-- A step of the rollback raises exactly if it is cancelled. -/
theorem rollbackStep_gives {d : Tally} {step : RollbackStep} {body : List Rule → Io Unit}
    (hbody : Gives w stream d Catchable (body (w.reached step))) :
    Gives w stream d (fun outcome => outcome.isOk = true ↔ w.rollbackCut step = none)
      (rollbackStep w step body) := by
  unfold rollbackStep
  refine Gives.last (suppress_gives hbody) fun _ => ?_
  cases hcut : w.rollbackCut step with
  | none => exact Gives.pure (by simp [Except.isOk, Except.toBool])
  | some done => exact Gives.throw (by simp [Except.isOk, Except.toBool])

theorem rollback_gives {e : Exn} (hq : w.quota = .raises e) (estimatedTokens : Int) :
    Gives w stream (rollbackTally w) Anyhow (rollbackRateLimitReservations w estimatedTokens) := by
  unfold rollbackRateLimitReservations rollbackTally
  by_cases hne : w.rules ≠ []
  · rw [if_pos hne]
    refine Gives.bind (rollbackStep_gives (settleTpm_gives hne (named_raises hq _)))
      (fun e h => ⟨trivial, ?_⟩) fun _ h => ?_
    · rw [if_neg fun hnone => by cases h.2 hnone.1]
    have hsettled : w.rollbackCut .settleTpm = none := h.1 rfl
    have hrpm : Gives w stream 0 Catchable
        (call (.releaseRpm w.member (w.reached .releaseRpm)) : Io Unit) :=
      Gives.aside (fun _ => ⟨rfl, named_raises hq _⟩) rfl catchable_ok
    refine (Gives.bind (rollbackStep_gives hrpm) (fun e h => ⟨trivial, ?_⟩) fun _ h => ?_).of_eq
      (zero_add _)
    · rw [if_neg fun hnone => by cases h.2 hnone.2]
    rw [if_pos ⟨hsettled, h.1 rfl⟩]
    exact (rollbackStep_gives ((releaseConcurrent_gives hne (named_raises hq _)).mono
      fun _ => Returns.catchable)).mono fun _ _ => trivial
  · rw [if_neg hne, tpmTally_nil (not_not.1 hne), slotsTally_nil (not_not.1 hne), ite_self]
    exact Gives.pure trivial

/-! ## Streams -/

theorem finalizeStream_gives {ctx : GatewayRequestContext} {logicalModel : LogicalModel}
    (hq : w.quota = .value q) (hr : ctx.quotaReserved = true) (hs : ctx.quotaSettled = false)
    (hres : ctx.quotaReservations = []) :
    Gives w stream (cleanupTally w) Returns
      (finalizeStream w logicalModel ctx (quotaReservations w)) := by
  unfold finalizeStream
  refine Gives.skip (Gives.aside (fun _ => trivial) rfl fun _ => rfl) fun _ => ?_
  have hrest : Gives w stream (quotaTally w + tpmTally w) Returns
      (suppressException (finalizeGatewayRequest ctx logicalModel w.rules (quotaReservations w))) :=
    suppress_gives ((finalizeGatewayRequest_gives hq hr hs hres).mono fun _ => Returns.catchable)
  by_cases hne : w.rules ≠ []
  · rw [if_pos hne]
    exact Gives.bind (releaseConcurrent_gives hne (named_value hq _)) (fun _ h => by cases h) fun _ _ => hrest
  · rw [if_neg hne, cleanupTally, slotsTally_nil (not_not.1 hne)]
    rw [zero_add]
    exact hrest

theorem pump_gives {σ : Type} (onChunk : σ → Chunk → σ × Except Python.Error String) (s : σ)
    (pulls : List Pull) : Gives w stream 0 Returns (pump onChunk s pulls) := by
  induction pulls generalizing s with
  | nil => exact Gives.pure rfl
  | cons pull pulls ih =>
    cases pull with
    | expired => exact Gives.pure rfl
    | idle => exact Gives.pure rfl
    | fails e => exact Gives.pure rfl
    | disconnected => exact Gives.pure rfl
    | chunk chunk read =>
      unfold pump
      split
      · exact Gives.pure rfl
      · refine Gives.skip (Gives.aside (fun _ => trivial) rfl fun _ => rfl) fun _ => ?_
        cases read.raised with
        | none => exact ih _
        | some e => exact Gives.pure rfl

theorem yieldLast_gives (last : Option (Piece × String)) :
    Gives w stream 0 Returns (yieldLast w last) := by
  cases last with
  | none => exact Gives.pure rfl
  | some data =>
    exact Gives.skip (Gives.aside (fun _ => trivial) rfl fun _ => rfl) fun _ => Gives.pure rfl

/-! ## The exits -/

def Exit.tally (w : World) : Exit → Tally
  | .denied => rollbackTally w
  | .abandoned => 0
  | .finalized => quotaTally w + tpmTally w
  | .streamed => streamTally w

def Awaited.outcome {T : Type} : Awaited T → Except Raised T
  | .value a => .ok a
  | .raises e => .error (.exception e)
  | .cancelled => .error .cancelled

section

variable {σ : Type} {logicalModel : LogicalModel}
  {onChunk : σ → Chunk → σ × Except Python.Error String} {start : σ} {u : Upstream}
  {last : UsageStatus → Option (Piece × String)} {status : Exn → UsageStatus} {reraise : Exn → Exn}
  {complete : σ → GatewayRequestContext}

theorem finishStream_gives {ctx : GatewayRequestContext} {statusValue : UsageStatus}
    (hq : w.quota = .value q) (hr : ctx.quotaReserved = true) (hs : ctx.quotaSettled = false)
    (hres : ctx.quotaReservations = []) (raised : Option Raised) :
    Gives w stream (streamTally w) Anyhow
      (finishStream w logicalModel status reraise ctx statusValue (quotaReservations w) raised) := by
  unfold finishStream
  have hspawn (ctx : GatewayRequestContext) :
      Gives w stream spawnTally Returns (call (.spawnFinalizer ctx)) := by
    refine (Gives.call (c := .spawnFinalizer ctx) (fun _ => trivial) fun _ => rfl).of_eq ?_
    funext k
    simp [Cmd.tally, Cmd.kind, spawnTally, eq_comm]
  refine Gives.bind (hspawn _) (fun _ h => by cases h) fun _ _ => ?_
  refine Gives.last (finalizeStream_gives hq hr hs hres) fun _ => ?_
  cases raised with
  | none => exact Gives.pure trivial
  | some e =>
    cases e with
    | exception e => exact Gives.raise trivial
    | cancelled => exact Gives.throw trivial
    | generatorExit => exact Gives.throw trivial

/-- However a generator ends that gets its iterator, its cleanup has run once. -/
theorem streamBody_gives (hq : w.quota = .value q) (hr : ∀ s, (complete s).quotaReserved = true)
    (hs : ∀ s, (complete s).quotaSettled = false) (hres : ∀ s, (complete s).quotaReservations = []) :
    Gives w stream ((exitIter u).tally w) Anyhow
      (streamBody w logicalModel onChunk start u last status reraise complete
        (quotaReservations w)) := by
  unfold streamBody exitIter
  cases u.iterError with
  | some e => exact Gives.raise trivial
  | none =>
    refine Gives.skip (pump_gives onChunk start u.pulls) fun p => ?_
    obtain ⟨s, ending⟩ := p
    have hfinish (statusValue : UsageStatus) (raised : Option Raised) :
        Gives w stream (streamTally w) Anyhow
          (finishStream w logicalModel status reraise (complete s) statusValue
            (quotaReservations w) raised) := finishStream_gives hq (hr s) (hs s) (hres s) raised
    cases ending with
    | raised e => exact hfinish _ _
    | exhausted => exact Gives.skip (yieldLast_gives _) fun raised => hfinish _ raised
    | timedOut => exact Gives.skip (yieldLast_gives _) fun raised => hfinish _ raised

end

theorem reservations_eq (hq : w.quota = .value q) :
    q.reservations = quotaReservations w := by
  unfold quotaReservations
  rw [hq]

theorem Awaited.apply_elim {T β γ : Type} (g : β → γ) (value : T → β) (raises cancelled : β)
    (a : Awaited T) :
    g (a.elim value raises cancelled) = a.elim (fun v => g (value v)) (g raises) (g cancelled) := by
  cases a <;> rfl

theorem await_gives {T : Type} (a : Awaited T) :
    Gives w stream 0 (fun outcome => outcome = a.outcome) (await a) := by
  cases a with
  | value a => exact Gives.pure rfl
  | raises e => exact Gives.raise rfl
  | cancelled => exact Gives.throw rfl

/-- An awaited call whose exceptions a handler cleans up after, and the rest. -/
theorem guarded_gives {α β : Type} {p : Io α} {handler : Exn → Io α} {f : α → Io β} {a : Awaited α}
    {d : Tally} {d' : α → Tally} (hp : Gives w stream 0 (fun outcome => outcome = a.outcome) p)
    (hhandler : ∀ e, a = .raises e → Gives w stream d Raises (handler e))
    (hf : ∀ v, a = .value v → Gives w stream (d' v) Anyhow (f v)) :
    Gives w stream (a.elim d' d 0) Anyhow (tryExcept p handler >>= f) := by
  cases a with
  | value v =>
    have hret : Gives w stream (0 + 0) (fun outcome => outcome = .ok v) (tryExcept p handler) :=
      Gives.tryExcept hp (fun _ h => ⟨h, rfl⟩) (fun _ h => by cases h) fun _ h => by cases h
    refine (Gives.bind hret (fun _ h => by cases h) fun b h => ?_).of_eq (zero_add (d' v))
    cases h
    exact hf v rfl
  | raises e =>
    have hraise : Gives w stream (0 + d) Raises (tryExcept p handler) :=
      Gives.tryExcept hp (fun _ h => by cases h) (fun e h => by cases h; exact .inl ⟨_, rfl⟩)
        fun x h => by cases h; exact hhandler e rfl
    exact (Gives.bind_raises hraise (fun _ h => h) fun _ => trivial).of_eq (zero_add d)
  | cancelled =>
    have hraise : Gives w stream (0 + 0) Raises (tryExcept p handler) :=
      Gives.tryExcept hp (fun _ h => by cases h) (fun e h => by cases h; exact .inr ⟨rfl, rfl⟩)
        fun _ h => by cases h
    exact Gives.bind_raises hraise (fun _ h => h) fun _ => trivial

theorem callUpstream_gives (method : String) (kwargs : Fields) :
    Gives w stream 0 (fun outcome => outcome = w.opened.outcome) (callUpstream w method kwargs) :=
  Gives.skip (Gives.aside (fun _ => trivial) rfl fun _ => rfl) fun _ => await_gives w.opened

section

variable {α : Type} {logicalModel : LogicalModel} {estimatedTokens : Int} {exit : Exit}

theorem checkQuota_gives {f : QuotaCheckResult → Io α}
    (hf : ∀ q, w.quota = .value q → Gives w stream (exit.tally w) Anyhow (f q)) :
    Gives w stream ((exitQuota w exit).tally w) Anyhow
      (checkQuota w logicalModel estimatedTokens >>= f) := by
  have hbody : Gives w stream 0 (fun outcome => outcome = w.quota.outcome) (do
      call (.checkQuota estimatedTokens (computeCost logicalModel estimatedTokens 0))
      await w.quota) :=
    Gives.skip (Gives.aside (fun _ => trivial) rfl fun _ => rfl) fun _ => await_gives w.quota
  have hhandler (e : Exn) (he : w.quota = .raises e) : Gives w stream (rollbackTally w) Raises (do
      rollbackRateLimitReservations w estimatedTokens
      raise e : Io QuotaCheckResult) :=
    (Gives.bind (O := Raises) (rollback_gives he estimatedTokens) (fun _ _ => ⟨rfl, rfl⟩)
      fun _ _ => Gives.raise rfl).of_eq (add_zero _)
  unfold exitQuota
  rw [Awaited.apply_elim (Exit.tally w)]
  exact guarded_gives hbody hhandler hf

theorem openUpstream_gives {f : Upstream → Io α} {attempt : Io Upstream}
    {opened : Awaited Upstream} {exitOf : Upstream → Exit} (hq : w.quota = .value q)
    (hattempt : Gives w stream 0 (fun outcome => outcome = opened.outcome) attempt)
    (hf : ∀ u, opened = .value u → Gives w stream ((exitOf u).tally w) Anyhow (f u)) :
    Gives w stream ((exitOpened opened exitOf).tally w) Anyhow
      (openUpstream w logicalModel estimatedTokens stream q attempt >>= f) := by
  have hres : q.reservations = quotaReservations w := by
    unfold quotaReservations
    rw [hq]
  have hhandler (e : Exn) : Gives w stream (quotaTally w + tpmTally w) Raises (do
      let ctx := (baseContext w logicalModel estimatedTokens stream).markError
        (usageStatusForException e)
      finalizeGatewayRequest ctx logicalModel w.rules q.reservations
      raise (.app (upstreamError e)) : Io Upstream) := by
    rw [reservations_eq hq]
    exact Gives.last (finalizeGatewayRequest_gives hq rfl rfl rfl) fun _ => Gives.raise rfl
  unfold exitOpened
  rw [Awaited.apply_elim (Exit.tally w)]
  exact guarded_gives hattempt (fun e _ => hhandler e) hf

theorem pyHelper_gives {T : Type} {result : Except Python.Error T} {f : T → Io α}
    (hf : ∀ a, result = .ok a → Gives w stream (exit.tally w) Anyhow (f a)) :
    Gives w stream ((exitHelper result exit).tally w) Anyhow (pyHelper result >>= f) := by
  unfold exitHelper
  cases result with
  | ok a => exact hf a rfl
  | error e => exact Gives.bind_raises (Gives.throw (O := Raises) rfl) (fun _ h => h) fun _ => trivial

theorem getRouter_gives {f : Unit → Io α} (hf : Gives w stream (exit.tally w) Anyhow (f ())) :
    Gives w stream ((exitRouter w exit).tally w) Anyhow (getRouter w >>= f) := by
  unfold exitRouter getRouter
  by_cases hr : w.router = true
  · rw [if_pos hr, if_pos hr]
    exact hf
  · rw [if_neg hr, if_neg hr]
    exact Gives.bind_raises (Gives.raise (O := Raises) rfl) (fun _ h => h) fun _ => trivial

end

end

/-! ## Serving -/

section

variable {w : World} {stream : Bool} {α : Type}

theorem serve_bind (p : Io α) (f : α → Io Reply) :
    serve w (p >>= f) = p >>= fun a => serve w (f a) := by
  unfold serve
  rw [bind_assoc]

/-- A reply that is not a stream, after the finalizer. -/
theorem finalized_gives {ctx : GatewayRequestContext} {logicalModel : LogicalModel}
    {q : QuotaCheckResult} {f : Unit → Io Unit} (hq : w.quota = .value q)
    (hr : ctx.quotaReserved = true) (hs : ctx.quotaSettled = false)
    (hres : ctx.quotaReservations = []) (hf : ∀ u, Gives w stream 0 Anyhow (f u)) :
    Gives w stream (Exit.finalized.tally w) Anyhow
      (finalizeGatewayRequest ctx logicalModel w.rules q.reservations >>= f) := by
  rw [reservations_eq hq]
  exact Gives.last (finalizeGatewayRequest_gives hq hr hs hres) hf

/-- A helper that may raise on the way to the reply, and what gives nothing back. -/
theorem encoded_gives {T : Type} {content : Except Python.Error T} {f : T → Io Unit}
    (hf : ∀ v, Gives w stream 0 Anyhow (f v)) :
    Gives w stream 0 Anyhow (pyHelper content >>= f) := by
  cases content with
  | ok v => exact hf v
  | error e => exact Gives.throw trivial

/-- A JSON reply. -/
theorem reply_gives (content : Except Python.Error Value) (headers : Headers) :
    Gives w stream 0 Anyhow (serve w (do
      let content ← pyHelper content
      pure (.json content headers))) := by
  rw [serve_bind]
  exact encoded_gives fun _ => Gives.pure trivial

theorem serve_streaming_gives {generator : Io Unit} {headers : Headers} {u : Upstream}
    (h : Gives w stream ((exitIter u).tally w) Anyhow generator) :
    Gives w stream ((exitStream w u).tally w) Anyhow
      (serve w (pure (.streaming generator headers))) := by
  show Gives w stream _ Anyhow (if w.starts then generator else pure ())
  unfold exitStream
  by_cases hst : w.starts = true
  · rw [if_pos hst, if_pos hst]
    exact h
  · rw [if_neg hst, if_neg hst]
    exact Gives.pure trivial

section

variable {logicalModel : LogicalModel} {estimatedTokens : Int} {features : Finset String}
  {u : Upstream} {q : QuotaCheckResult}

theorem streamOpenai_gives (hq : w.quota = .value q) :
    Gives w stream ((exitIter u).tally w) Anyhow
      (streamOpenai w logicalModel estimatedTokens features (quotaReservations w) u) := by
  unfold streamOpenai
  exact streamBody_gives hq (fun _ => rfl) (fun _ => rfl) fun _ => rfl

theorem streamNative_gives (hq : w.quota = .value q) {accumulate : Accumulate}
    {provider timeoutEvent : String} :
    Gives w stream ((exitIter u).tally w) Anyhow
      (streamNative w logicalModel estimatedTokens accumulate provider timeoutEvent features
        (quotaReservations w) u) := by
  unfold streamNative
  exact streamBody_gives hq (fun _ => rfl) (fun _ => rfl) fun _ => rfl

theorem streamResponses_gives (hq : w.quota = .value q) {provider : Option String}
    {downgradedFeatures : Option (List String)} :
    Gives w stream ((exitIter u).tally w) Anyhow
      (streamResponses w logicalModel estimatedTokens provider downgradedFeatures
        (quotaReservations w) u) := by
  unfold streamResponses
  exact streamBody_gives hq (fun _ => rfl) (fun _ => rfl) fun _ => rfl

end

/-! ## Each endpoint -/

/-- The request passed the rate limits. -/
def Admits : Event Cmd Cmd.Resp → Prop
  | ⟨.checkRateLimits .., result⟩ => result.allowed = true
  | ⟨.checkQuota .., _⟩ => True
  | _ => False

/-- A run that was admitted calls each kind as its exit says. -/
def Accounted (w : World) (request : Request) (t : Calls) : Prop :=
  (∃ e ∈ t, Admits e) →
    ∃ logicalModel, w.model = .ok logicalModel ∧
      ∀ k, calls k t = (exit w logicalModel request).tally w k

theorem accounted_nil {request : Request} : Accounted w request [] := by
  intro h
  obtain ⟨e, he, -⟩ := h
  cases he

theorem admission_follows (request : Request) {estimatedTokens : Int} {p : Unit → Io Unit}
    {logicalModel : LogicalModel} (hm : w.model = .ok logicalModel)
    (hp : Gives w request.stream ((exit w logicalModel request).tally w) Anyhow (p ())) :
    Raising.Follows (Own w request.stream) (fun _ t => Accounted w request t)
      (checkRateLimits w estimatedTokens request.stream >>= p) [] := by
  have hrest (t : Calls) (ht : ∀ k, calls k t = 0) :
      Raising.Follows (Own w request.stream) (fun _ t => Accounted w request t) (p ()) t := by
    refine (hp t).mono fun _ t' h _ => ⟨logicalModel, hm, fun k => ?_⟩
    rw [h.2 k, ht k, Nat.zero_add]
  unfold checkRateLimits
  by_cases hne : w.rules ≠ []
  · rw [if_pos hne]
    rw [bind_assoc]
    refine Raising.Follows.cmd_bind ⟨rfl, rfl, rfl, rfl⟩ fun r => ?_
    by_cases hr : r.allowed = true
    · rw [if_pos hr]
      exact hrest _ fun k => by cases k <;> rfl
    · rw [if_neg hr]
      refine Raising.Follows.throw fun h => ?_
      obtain ⟨e, he, hadm⟩ := h
      rw [List.mem_singleton] at he
      subst he
      exact absurd hadm hr
  · rw [if_neg hne]
    exact hrest [] fun _ => rfl

/-- A handler resolves the model first. -/
theorem resolveModel_follows (request : Request) {f : LogicalModel → Io Unit}
    (hf : ∀ logicalModel, w.model = .ok logicalModel →
      Raising.Follows (Own w request.stream) (fun _ t => Accounted w request t) (f logicalModel) []) :
    Raising.Follows (Own w request.stream) (fun _ t => Accounted w request t)
      (resolveModel w >>= f) [] := by
  unfold resolveModel
  cases hm : w.model with
  | ok logicalModel => exact hf logicalModel hm
  | error e => exact Raising.Follows.throw accounted_nil

theorem pyHelper_ok_bind {T U : Type} {a : T} {f : T → Io U} : (pyHelper (.ok a) >>= f) = f a := rfl

theorem openaiChatCompletions_follows (payload : OpenAIRequest) :
    Raising.Follows (Own w payload.stream) (fun _ t => Accounted w (.chatCompletions payload) t)
      (serve w (openaiChatCompletions w payload)) [] := by
  unfold openaiChatCompletions executeCompletion
  rw [serve_bind]
  refine resolveModel_follows (.chatCompletions payload) fun logicalModel hm => ?_
  rw [serve_bind]
  cases hfeatures : requestedFeaturesFromParams payload.messages payload.extra with
  | error e => exact Raising.Follows.throw accounted_nil
  | ok requestedFeatures =>
    show Raising.Follows _ _ (serve w (_ >>= _)) []
    rw [serve_bind]
    refine admission_follows (.chatCompletions payload) hm ?_
    rw [serve_bind]
    refine checkQuota_gives fun q hq => ?_
    rw [serve_bind]
    show Gives _ _ (Exit.tally w (exitCompletion w payload.stream payload.extra)) _ _
    unfold exitCompletion
    cases hcache : isCacheableRequest payload.stream w.responseCacheEnabled payload.extra with
    | error e => exact Gives.bind_raises (Gives.throw (O := Raises) rfl) (fun _ h => h) fun _ => trivial
    | ok cacheable =>
      rw [pyHelper_ok_bind]
      dsimp only
      cases hcached : (if cacheable then w.cached else none) with
      | some cached =>
        dsimp only
        rw [serve_bind]
        refine pyHelper_gives fun usage _ => ?_
        rw [serve_bind]
        exact finalized_gives hq rfl rfl rfl fun _ => Gives.pure trivial
      | none =>
        dsimp only
        rw [serve_bind]
        refine getRouter_gives ?_
        rw [serve_bind]
        refine openUpstream_gives hq (callUpstream_gives _ _) fun u _ => ?_
        by_cases hst : payload.stream = true
        · rw [if_pos hst, if_pos hst, reservations_eq hq]
          exact serve_streaming_gives (streamOpenai_gives hq)
        · rw [if_neg hst, if_neg hst, serve_bind]
          refine pyHelper_gives fun usage _ => ?_
          rw [serve_bind]
          refine finalized_gives hq rfl rfl rfl fun _ => ?_
          rw [serve_bind]
          refine encoded_gives fun storable => ?_
          rw [serve_bind]
          refine encoded_gives fun content => ?_
          split
          · rw [serve_bind]
            exact Gives.skip (Gives.aside (fun _ => trivial) rfl fun _ => rfl)
              fun _ => Gives.pure trivial
          · exact Gives.pure trivial

theorem finalizeNative_gives {logicalModel : LogicalModel} {estimatedTokens : Int} {usage : Usage}
    {channelId : Option Int} {upstreamModel : Option String}
    {downgradedFeatures : Option (List String)} {q : QuotaCheckResult} {u : Upstream}
    (hq : w.quota = .value q) :
    Gives w stream (Exit.finalized.tally w) Anyhow
      (serve w (finalizeNative w logicalModel estimatedTokens usage channelId upstreamModel
        downgradedFeatures q u)) := by
  unfold finalizeNative
  rw [serve_bind]
  exact finalized_gives hq rfl rfl rfl fun _ => reply_gives _ _

theorem anthropicMessages_follows (payload : AnthropicRequest) :
    Raising.Follows (Own w payload.stream) (fun _ t => Accounted w (.messages payload) t)
      (serve w (anthropicMessages w payload)) [] := by
  unfold anthropicMessages
  rw [serve_bind]
  refine resolveModel_follows (.messages payload) fun logicalModel hm => ?_
  rw [serve_bind]
  refine admission_follows (.messages payload) hm ?_
  rw [serve_bind]
  refine checkQuota_gives fun q hq => ?_
  rw [serve_bind]
  refine getRouter_gives ?_
  rw [serve_bind]
  refine openUpstream_gives hq (callUpstream_gives _ _) fun u _ => ?_
  by_cases hst : payload.stream = true
  · rw [if_pos hst, if_pos hst, serve_bind, reservations_eq hq]
    exact pyHelper_gives fun requestedFeatures _ => serve_streaming_gives (streamNative_gives hq)
  · rw [if_neg hst, if_neg hst, serve_bind]
    refine pyHelper_gives fun usage _ => ?_
    rw [serve_bind]
    exact pyHelper_gives fun requestedFeatures _ => finalizeNative_gives hq

theorem geminiGenerateContent_follows (payload : GeminiRequest) (stream : Bool) :
    Raising.Follows (Own w stream) (fun _ t => Accounted w (.generateContent payload stream) t)
      (serve w (geminiGenerateContent w payload stream)) [] := by
  unfold geminiGenerateContent
  rw [serve_bind]
  refine resolveModel_follows (.generateContent payload stream) fun logicalModel hm => ?_
  rw [serve_bind]
  refine admission_follows (.generateContent payload stream) hm ?_
  rw [serve_bind]
  refine checkQuota_gives fun q hq => ?_
  rw [serve_bind]
  refine getRouter_gives ?_
  rw [serve_bind]
  refine openUpstream_gives hq (callUpstream_gives _ _) fun u _ => ?_
  by_cases hst : stream = true
  · rw [if_pos hst, if_pos hst, serve_bind, reservations_eq hq]
    exact pyHelper_gives fun requestedFeatures _ => serve_streaming_gives (streamNative_gives hq)
  · rw [if_neg hst, if_neg hst, serve_bind]
    refine pyHelper_gives fun usage _ => ?_
    rw [serve_bind]
    exact pyHelper_gives fun requestedFeatures _ => finalizeNative_gives hq

theorem embeddingsImpl_follows (payload : EmbeddingsRequest) :
    Raising.Follows (Own w false) (fun _ t => Accounted w (.embeddings payload) t)
      (serve w (embeddingsImpl w payload)) [] := by
  unfold embeddingsImpl
  rw [serve_bind]
  refine resolveModel_follows (.embeddings payload) fun logicalModel hm => ?_
  rw [serve_bind]
  refine admission_follows (.embeddings payload) hm ?_
  rw [serve_bind]
  refine checkQuota_gives fun q hq => ?_
  rw [serve_bind]
  refine getRouter_gives ?_
  rw [serve_bind]
  refine openUpstream_gives hq (callUpstream_gives _ _) fun u _ => ?_
  rw [serve_bind]
  refine pyHelper_gives fun usage _ => ?_
  rw [serve_bind]
  exact finalized_gives hq rfl rfl rfl fun _ => reply_gives _ _

theorem responsesImpl_follows (payload : ResponsesRequest) :
    Raising.Follows (Own w payload.stream) (fun _ t => Accounted w (.responses payload) t)
      (serve w (responsesImpl w payload)) [] := by
  unfold responsesImpl
  rw [serve_bind]
  refine resolveModel_follows (.responses payload) fun logicalModel hm => ?_
  rw [serve_bind]
  refine admission_follows (.responses payload) hm ?_
  rw [serve_bind]
  refine checkQuota_gives fun q hq => ?_
  rw [serve_bind]
  refine pyHelper_gives fun requestedFeatures _ => ?_
  rw [serve_bind]
  -- the upstream call as the handler sees it: without a router it raises
  have hopened : (if w.router then exitOpened w.opened fun u =>
        if payload.stream then exitStream w u
        else exitHelper (extractResponsesUsage w.parseInt u.body) .finalized
      else .finalized) =
      exitOpened (if w.router then w.opened
          else .raises (.app { code := .modelUnavailable, statusCode := 503 })) fun u =>
        if payload.stream then exitStream w u
        else exitHelper (extractResponsesUsage w.parseInt u.body) .finalized := by
    split <;> rfl
  rw [hopened]
  refine openUpstream_gives hq ?_ fun u _ => ?_
  · unfold getRouter
    by_cases hr : w.router = true
    · rw [if_pos hr, if_pos hr]
      exact callUpstream_gives _ _
    · rw [if_neg hr, if_neg hr]
      exact Gives.raise rfl
  · by_cases hst : payload.stream = true
    · rw [if_pos hst, if_pos hst, reservations_eq hq]
      exact serve_streaming_gives (streamResponses_gives hq)
    · rw [if_neg hst, if_neg hst, serve_bind]
      refine pyHelper_gives fun usage _ => ?_
      rw [serve_bind]
      exact finalized_gives hq rfl rfl rfl fun _ => reply_gives _ _

/-- The count of every run (module doc). -/
theorem serve_accounts (request : Request) :
    Raising.Follows (Own w request.stream) (fun _ t => Accounted w request t)
      (serve w (handle w request)) [] := by
  cases request with
  | chatCompletions payload => exact openaiChatCompletions_follows payload
  | messages payload => exact anthropicMessages_follows payload
  | generateContent payload stream => exact geminiGenerateContent_follows payload stream
  | responses payload => exact responsesImpl_follows payload
  | embeddings payload => exact embeddingsImpl_follows payload

end

end Gateway.Handler
