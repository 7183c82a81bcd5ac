import Janus.Conc.Triple
import Janus.Gateway.Proof.Accounts

/-!
# How streams end

`loopEnding` is how a generator's loop ends, from the upstream's pulls and the client's reads.
`outcome_integrity_iff`: exactly when one finalizer is spawned whose status says whether the
upstream was exhausted, and what is yielded after the loop says how it ended.
-/

set_option autoImplicit false

namespace Gateway.Handler

open Conc Janus Python RateLimit Prog

/-! ## The end of a loop -/

/-- What ends a loop. The generators do not tell the first two timeouts from the upstream's own. -/
inductive LoopEnd
  | exhausted
  | timedOut
  | upstreamTimeout
  | raised (e : Raised)
deriving DecidableEq, Repr

def LoopEnd.ending : LoopEnd → Ending
  | exhausted => .exhausted
  | timedOut => .timedOut
  | upstreamTimeout => .timedOut
  | raised e => .raised e

def Exn.loopEnd : Exn → LoopEnd
  | .timeout => .upstreamTimeout
  | e => .raised (.exception e)

/-- How the loop of a generator ends. -/
def loopEnding {σ : Type} (onChunk : σ → Chunk → σ × Except Python.Error String) :
    σ → List Pull → LoopEnd
  | _, [] => .exhausted
  | _, .expired :: _ => .timedOut
  | _, .idle :: _ => .timedOut
  | _, .fails e :: _ => e.loopEnd
  | _, .disconnected :: _ => .raised .cancelled
  | s, .chunk chunk read :: pulls =>
    match onChunk s chunk with
    | (_, .error e) => .raised (.exception (.python e))
    | (s, .ok _) =>
      match read.raised with
      | none => loopEnding onChunk s pulls
      | some e => .raised e

inductive Generator
  | openai (requestedFeatures : Finset String)
  | anthropic (requestedFeatures : Finset String)
  | gemini (requestedFeatures : Finset String)
  | responses (provider : Option String) (downgradedFeatures : Option (List String))

namespace Generator

def body (w : World) (logicalModel : LogicalModel) (estimatedTokens : Int)
    (quotaReservations : List QuotaReservation) (u : Upstream) : Generator → Io Unit
  | openai features => streamOpenai w logicalModel estimatedTokens features quotaReservations u
  | anthropic features =>
    streamAnthropicNative w logicalModel estimatedTokens features quotaReservations u
  | gemini features => streamGeminiNative w logicalModel estimatedTokens features quotaReservations u
  | responses provider downgradedFeatures =>
    streamResponses w logicalModel estimatedTokens provider downgradedFeatures quotaReservations u

def ending (w : World) (u : Upstream) : Generator → LoopEnd
  | openai _ => loopEnding (OpenaiStream.onChunk w.parseInt) {} u.pulls
  | anthropic _ =>
    loopEnding (NativeUsage.onChunk w.accumulateAnthropicUsage) ⟨emptyUsage, ""⟩ u.pulls
  | gemini _ => loopEnding (NativeUsage.onChunk w.accumulateGeminiUsage) ⟨emptyUsage, ""⟩ u.pulls
  | responses _ _ => loopEnding (ResponsesStream.onChunk w.parseInt) {} u.pulls

/-- The generator yields a terminator after an exhausted upstream. -/
def terminates : Generator → Bool
  | openai _ => true
  | _ => false

end Generator

/-- One finalizer is spawned, its status and that of every usage event say whether the upstream was
exhausted, and the last piece fits how the loop ended. -/
structure OutcomeIntegrity (ending : LoopEnd) (t : Calls) : Prop where
  spawned : calls .spawn t = 1
  status : ∀ ctx, (⟨.spawnFinalizer ctx, ()⟩ : Event Cmd Cmd.Resp) ∈ t →
    (ctx.status = .success ↔ ending = .exhausted)
  recorded : ∀ payload, (⟨.enqueueUsageEvent payload, ()⟩ : Event Cmd Cmd.Resp) ∈ t →
    (payload.status = .success ↔ ending = .exhausted)
  done : ∀ data, (⟨.yield .done data, ()⟩ : Event Cmd Cmd.Resp) ∈ t → ending = .exhausted
  timeout : ∀ data, (⟨.yield .timeout data, ()⟩ : Event Cmd Cmd.Resp) ∈ t → ending = .timedOut

/-- The generator gets its iterator, is not closed at a chunk, sees no timeout but its own, and is not
cancelled at its terminator. -/
def EndsPlainly (w : World) (u : Upstream) (g : Generator) : Prop :=
  u.iterError = none ∧ g.ending w u ≠ .raised .generatorExit ∧ g.ending w u ≠ .upstreamTimeout ∧
    ¬ (g.terminates = true ∧ g.ending w u = .exhausted ∧ w.lastRead = .cancelled)

/-! ## What a generator calls -/

/-- The calls of a generator whose loop ends as `ending` and which records `status`. -/
def Expected (ending : Ending) (status : UsageStatus) : Cmd → Prop
  | .spawnFinalizer ctx => ctx.status = status
  | .enqueueUsageEvent payload => payload.status = status
  | .yield .done _ => ending = .exhausted
  | .yield .timeout _ => ending = .timedOut
  | _ => True

/-- `p` makes only the expected calls and ends as `O` says. -/
abbrev Calling {α : Type} (ending : Ending) (status : UsageStatus) (O : Except Raised α → Prop)
    (p : Io α) : Prop := Raising.Issues (Expected ending status) O p

section

variable {ending : Ending} {status : UsageStatus}

theorem call_bind {α : Type} {I : Cmd → Prop} {c : Cmd} {O : Except Raised α → Prop}
    {f : Cmd.Resp c → Io α} (hc : I c) (hf : ∀ r, Raising.Issues I O (f r)) :
    Raising.Issues I O (call c >>= f) := ⟨hc, hf⟩

/-! ## What a cleanup calls -/

/-- The calls of a cleanup that records `status`. It yields nothing. -/
def Cleaning (status : UsageStatus) : Cmd → Prop
  | .enqueueUsageEvent payload => payload.status = status
  | .spawnFinalizer _ | .yield _ _ => False
  | _ => True

/-- `p` makes only the calls of a cleanup and ends as `O` says. -/
abbrev Cleans {α : Type} (status : UsageStatus) (O : Except Raised α → Prop) (p : Io α) : Prop :=
  Raising.Issues (Cleaning status) O p

theorem Cleans.calling {α : Type} {O : Except Raised α → Prop} {p : Io α}
    (hp : Cleans status O p) : Calling ending status O p := by
  refine Prog.Issues.weaken hp fun c hc => ?_
  cases c with
  | spawnFinalizer ctx => cases hc
  | yield piece data => cases hc
  | _ => exact hc

/-- A handler catches whatever a program with only `Exception`s raises. -/
theorem tryExcept_cleans {α : Type} {p : Io α} {handler : Exn → Io α}
    {O O' : Except Raised α → Prop} (hp : Cleans status O p)
    (hcatch : ∀ outcome, O outcome → Catchable outcome) (hok : ∀ a, O (.ok a) → O' (.ok a))
    (hhandler : ∀ e, Cleans status O' (handler e)) : Cleans status O' (tryExcept p handler) := by
  refine Raising.Issues.tryCatch hp hok fun e he => ?_
  obtain ⟨x, rfl⟩ := hcatch _ he e rfl
  exact hhandler x

theorem catchable_exception {α : Type} (e : Exn) :
    Catchable (.error (.exception e) : Except Raised α) := by
  intro e' he
  cases he
  exact ⟨e, rfl⟩

theorem settling_cleans {α : Type} {O : Except Raised α → Prop} {answer : Except Exn Unit}
    {f : Unit → Io α} (hO : ∀ e, O (.error (.exception e))) (hf : ∀ u, Cleans status O (f u)) :
    Cleans status O (settling answer >>= f) := by
  cases answer with
  | ok u => exact hf u
  | error e => exact Raising.Issues.throw (hO e)

/-- The context that the settlement returns, if it does, has this status. -/
def HasStatus (status : UsageStatus) : Except Raised GatewayRequestContext → Prop
  | .ok ctx => ctx.status = status
  | .error _ => True

theorem settleQuota_cleans {ctx : GatewayRequestContext} {logicalModel : LogicalModel}
    (hctx : ctx.status = status) :
    Cleans status (fun outcome => Returns outcome ∧ HasStatus status outcome)
      (settleQuota ctx logicalModel) := by
  have hok : Cleans status (fun outcome => Returns outcome ∧ HasStatus status outcome)
      (pure ctx) := Raising.Issues.pure ⟨rfl, hctx⟩
  -- the body may raise an `Exception`, the handler catches it
  have hbody {a : GatewayRequestContext} (ha : a.status = status) :
      Cleans status (fun outcome => Catchable outcome ∧ HasStatus status outcome) (pure a) :=
    Raising.Issues.pure ⟨catchable_ok a, ha⟩
  unfold settleQuota
  split
  · exact hok
  · refine tryExcept_cleans
      (O := fun outcome => Catchable outcome ∧ HasStatus status outcome) ?_ (fun _ h => h.1)
      (fun a h => ⟨rfl, h.2⟩) fun e => call_bind trivial fun _ => hok
    dsimp only
    split
    · split
      · exact call_bind trivial fun _ => settling_cleans (fun e => ⟨catchable_exception e, trivial⟩)
          fun _ => hbody hctx
      · exact call_bind trivial fun _ => settling_cleans (fun e => ⟨catchable_exception e, trivial⟩)
          fun _ => hbody hctx
    · exact hbody hctx

theorem settleTpmOf_cleans (ctx : GatewayRequestContext) (rules : List Rule) :
    Cleans status Returns (settleTpmOf ctx rules) := by
  unfold settleTpmOf
  split
  · refine tryExcept_cleans (O := Catchable) ?_ (fun _ h => h) (fun _ _ => rfl)
      fun e => Raising.Issues.cmd trivial fun _ => rfl
    refine call_bind trivial fun answer => ?_
    cases answer with
    | ok u => exact Raising.Issues.pure (catchable_ok u)
    | error e => exact Raising.Issues.throw (catchable_exception e)
  · exact Raising.Issues.pure rfl

theorem not_returns_error {α : Type} {e : Raised} {P : Prop}
    (h : Returns (.error e : Except Raised α)) : P := nomatch h

theorem finalizeGatewayRequest_cleans {ctx : GatewayRequestContext} {logicalModel : LogicalModel}
    {rules : List Rule} {reservations : List QuotaReservation} (hctx : ctx.status = status) :
    Cleans status Returns (finalizeGatewayRequest ctx logicalModel rules reservations) := by
  unfold finalizeGatewayRequest
  refine Raising.Issues.bind (settleQuota_cleans ?_) (fun ctx' hctx' => ?_)
    fun _ h => not_returns_error h.1
  · split <;> exact hctx
  · refine call_bind hctx'.2 fun _ => call_bind trivial fun _ => ?_
    refine Raising.Issues.bind (O := Returns) ?_ (fun _ _ => settleTpmOf_cleans ctx' rules)
      fun _ h => not_returns_error h
    unfold recordChannelHealth
    split
    · exact Raising.Issues.pure rfl
    · exact Raising.Issues.cmd trivial fun _ => rfl

/-- The cleanup of a stream never raises. -/
theorem finalizeStream_cleans {w : World} {ctx : GatewayRequestContext}
    {logicalModel : LogicalModel} {reservations : List QuotaReservation}
    (hctx : ctx.status = status) :
    Cleans status Returns (finalizeStream w logicalModel ctx reservations) := by
  have hfinalize : Cleans status Returns
      (suppressException (finalizeGatewayRequest ctx logicalModel w.rules reservations)) :=
    tryExcept_cleans (finalizeGatewayRequest_cleans hctx) (fun _ => Returns.catchable)
      (fun _ _ => rfl) fun _ => Raising.Issues.pure rfl
  unfold finalizeStream
  refine call_bind trivial fun _ => ?_
  split
  · exact call_bind trivial fun _ => hfinalize
  · exact hfinalize

/-! ## What the loop calls -/

/-- The loop yields chunks only and ends as `loopEnding` says. -/
theorem pump_calling {σ : Type} (onChunk : σ → Chunk → σ × Except Python.Error String) (s : σ)
    (pulls : List Pull) :
    Calling ending status
      (fun outcome => ∃ s', outcome = .ok (s', (loopEnding onChunk s pulls).ending))
      (pump onChunk s pulls) := by
  induction pulls generalizing s with
  | nil => exact Raising.Issues.pure ⟨s, rfl⟩
  | cons pull pulls ih =>
    cases pull with
    | expired => exact Raising.Issues.pure ⟨s, rfl⟩
    | idle => exact Raising.Issues.pure ⟨s, rfl⟩
    | fails e => cases e <;> exact Raising.Issues.pure ⟨s, rfl⟩
    | disconnected => exact Raising.Issues.pure ⟨s, rfl⟩
    | chunk chunk read =>
      unfold pump loopEnding
      rcases onChunk s chunk with ⟨s', e | data⟩
      · exact Raising.Issues.pure ⟨s', rfl⟩
      · refine call_bind trivial fun _ => ?_
        dsimp only
        cases read.raised with
        | none => exact ih s'
        | some e => exact Raising.Issues.pure ⟨s', rfl⟩

/-! ## The recorded status -/

/-- The status when the loop is left without an exception. -/
def loopStatus (ending : Ending) : UsageStatus := if ending = .timedOut then .timeout else .success

/-- What a generator raises: its loop's exception, or what its last read does. -/
def raisedBy (w : World) (last : UsageStatus → Option (Piece × String)) (ending : Ending) :
    Option Raised :=
  match ending with
  | .raised e => some e
  | ending => (last (loopStatus ending)).bind fun _ => w.lastRead.raised

def recordedStatus (status : Exn → UsageStatus) (ending : Ending) (raised : Option Raised) :
    UsageStatus :=
  match raised with
  | some (.exception e) => status e
  | some .cancelled => .error
  | _ => loopStatus ending

section

variable {w : World} {σ : Type} {logicalModel : LogicalModel}
  {onChunk : σ → Chunk → σ × Except Python.Error String} {start : σ} {u : Upstream}
  {last : UsageStatus → Option (Piece × String)} {errorStatus : Exn → UsageStatus}
  {reraise : Exn → Exn} {complete : σ → GatewayRequestContext}
  {reservations : List QuotaReservation}

theorem finishStream_calling {ctx : GatewayRequestContext} {raised : Option Raised} :
    Calling ending (recordedStatus errorStatus ending raised) (fun _ => True)
      (finishStream w logicalModel errorStatus reraise ctx (loopStatus ending) reservations raised) := by
  unfold finishStream
  refine call_bind ?_ fun _ => ?_
  · rcases raised with _ | e
    · rfl
    · cases e <;> rfl
  · refine Raising.Issues.bind (Cleans.calling (finalizeStream_cleans ?_)) (fun _ _ => ?_) fun _ _ => trivial
    · rcases raised with _ | e
      · rfl
      · cases e <;> rfl
    · rcases raised with _ | e
      · exact Raising.Issues.pure trivial
      · cases e <;> exact Raising.Issues.throw trivial

theorem yieldLast_calling {piece : Option (Piece × String)}
    (hfit : ∀ p data, piece = some (p, data) → Expected ending status (.yield p data)) :
    Calling ending status
      (fun outcome => outcome = .ok (piece.bind fun _ => w.lastRead.raised))
      (yieldLast w piece) := by
  unfold yieldLast
  rcases piece with _ | ⟨p, data⟩
  · exact Raising.Issues.pure rfl
  · exact call_bind (hfit p data rfl) fun _ => Raising.Issues.pure rfl

/-- A generator makes only the calls that its loop's ending and its recorded status allow. -/
theorem streamBody_calling (hending : ending = (loopEnding onChunk start u.pulls).ending)
    (hdone : ∀ st data, last st = some (.done, data) → st ≠ .timeout)
    (htimeout : ∀ st data, last st = some (.timeout, data) → st = .timeout) :
    Calling ending (recordedStatus errorStatus ending (raisedBy w last ending)) (fun _ => True)
      (streamBody w logicalModel onChunk start u last errorStatus reraise complete reservations) := by
  unfold streamBody
  cases u.iterError with
  | some e => exact Raising.Issues.throw trivial
  | none =>
    refine Raising.Issues.bind (pump_calling onChunk start u.pulls) (fun p hp => ?_) fun e he => ?_
    · obtain ⟨s', hs⟩ := hp
      rw [← hending] at hs
      cases hs
      cases ending with
      | raised e => exact finishStream_calling
      | exhausted =>
        refine Raising.Issues.bind (yieldLast_calling fun p data hlast => ?_) (fun raised hr => ?_)
          fun e he => by cases he
        · cases p with
          | chunk => trivial
          | done => rfl
          | timeout => cases htimeout _ data hlast
        · cases hr
          exact finishStream_calling
      | timedOut =>
        refine Raising.Issues.bind (yieldLast_calling fun p data hlast => ?_) (fun raised hr => ?_)
          fun e he => by cases he
        · cases p with
          | chunk => trivial
          | done => exact absurd rfl (hdone _ data hlast)
          | timeout => rfl
        · cases hr
          exact finishStream_calling
    · obtain ⟨s', hs⟩ := he
      cases hs

/-- A generator whose loop times out yields its timeout event. -/
theorem streamBody_timeout {data : String} (hiter : u.iterError = none)
    (hlast : last .timeout = some (.timeout, data))
    (hending : (loopEnding onChunk start u.pulls).ending = .timedOut) (t : Calls) :
    Raising.Follows (fun _ _ => True)
      (fun _ t' => (⟨.yield .timeout data, ()⟩ : Event Cmd Cmd.Resp) ∈ t')
      (streamBody w logicalModel onChunk start u last errorStatus reraise complete reservations) t := by
  have hpump : Raising.Issues (fun _ => True) (fun outcome => ∃ s', outcome = .ok (s', .timedOut))
      (pump onChunk start u.pulls) := by
    rw [← hending]
    have hcalling : Calling .timedOut .success _ (pump onChunk start u.pulls) :=
      pump_calling onChunk start u.pulls
    exact Prog.Issues.weaken hcalling fun _ _ => trivial
  unfold streamBody
  rw [hiter]
  refine Raising.Follows.bind (Prog.Issues.follows hpump t) (fun p t' hp => ?_) fun e t' he => ?_
  · obtain ⟨s', hs⟩ := hp
    cases hs
    dsimp only
    rw [if_pos rfl, hlast]
    refine Raising.Follows.cmd_bind trivial fun _ => ?_
    exact Prog.Follows.mono (Prog.Follows.suffix _ _) fun _ _ h => h.subset List.mem_cons_self
  · obtain ⟨s', hs⟩ := he
    cases hs

/-- The recorded status is right unless the generator was closed at a chunk, or cancelled at a last
piece after an exhausted upstream. -/
theorem recordedStatus_iff (herror : ∀ e, errorStatus e ≠ .success) :
    (recordedStatus errorStatus ending (raisedBy w last ending) = .success ↔ ending = .exhausted) ↔
      ending ≠ .raised .generatorExit ∧
        ¬ ((last .success).isSome = true ∧ ending = .exhausted ∧ w.lastRead = .cancelled) := by
  cases ending with
  | exhausted =>
    simp only [raisedBy, loopStatus, reduceCtorEq, if_false, iff_true, ne_eq, not_false_iff,
      true_and]
    cases last .success with
    | none => simp [recordedStatus, loopStatus]
    | some piece => cases w.lastRead <;> simp [recordedStatus, loopStatus, Read.raised]
  | timedOut =>
    simp only [raisedBy, loopStatus, if_true, reduceCtorEq, iff_false, ne_eq, not_false_iff,
      true_and, false_and, and_false]
    cases last .timeout with
    | none => simp [recordedStatus, loopStatus]
    | some piece => cases w.lastRead <;> simp [recordedStatus, loopStatus, Read.raised]
  | raised e =>
    cases e with
    | exception e => simp [raisedBy, recordedStatus, herror e]
    | cancelled => simp [raisedBy, recordedStatus]
    | generatorExit => simp [raisedBy, recordedStatus, loopStatus]

variable {S : Type} {E : Sem Cmd Cmd.Resp S} {env : S → S → Prop} {s s' : S}
  {outcome : Except Raised Unit} {t : Calls}

theorem streamBody_expected (hending : ending = (loopEnding onChunk start u.pulls).ending)
    (hdone : ∀ st data, last st = some (.done, data) → st ≠ .timeout)
    (htimeout : ∀ st data, last st = some (.timeout, data) → st = .timeout)
    (hrun : (streamBody w logicalModel onChunk start u last errorStatus reraise complete
      reservations).run.Runs E env s [] outcome s' t) {e : Event Cmd Cmd.Resp} (he : e ∈ t) :
    Expected ending (recordedStatus errorStatus ending (raisedBy w last ending)) e.cmd := by
  have hguard : Trace.Guarded (fun _ c =>
      Expected ending (recordedStatus errorStatus ending (raisedBy w last ending)) c) t :=
    (hrun.invariant (J := fun _ _ => True)
      ((streamBody_calling hending hdone htimeout).follows []) trivial trivial
      (fun _ _ _ _ => trivial) fun _ _ => trivial).2
  obtain ⟨_, -, h⟩ := hguard.of_mem he
  exact h

/-- A generator that has an iterator spawns one finalizer, and one that has none spawns none. -/
theorem streamBody_spawns
    (hrun : (streamBody w logicalModel onChunk start u last errorStatus reraise complete
      (quotaReservations w)).run.Runs E env s [] outcome s' t)
    (hr : ∀ s, (complete s).quotaReserved = true) (hs : ∀ s, (complete s).quotaSettled = false)
    (hres : ∀ s, (complete s).quotaReservations = []) :
    calls .spawn t = if u.iterError.isSome then 0 else 1 := by
  -- a generator does not look at how the quota check ended
  have hgives : Gives { w with quota := .value ⟨true, [], quotaReservations w⟩ } true
      ((exitIter u).tally w) Anyhow (streamBody w logicalModel onChunk start u last errorStatus
        reraise complete (quotaReservations w)) :=
    streamBody_gives (w := { w with quota := .value ⟨true, [], quotaReservations w⟩ }) rfl hr hs hres
  have hcount : calls .spawn t = (exitIter u).tally w .spawn := by
    rw [(hrun.post (hgives [])).2 .spawn]
    exact Nat.zero_add _
  rw [hcount]
  cases hiter : u.iterError with
  | some e => simp [exitIter, hiter, Exit.tally]
  | none =>
    simp [exitIter, hiter, Exit.tally, streamTally, cleanupTally, spawnTally, slotsTally,
      quotaTally, tpmTally]

/-- The outcome of one generator, from how its loop ends and what the client does with its last
piece. -/
theorem streamBody_integrity
    (hrun : (streamBody w logicalModel onChunk start u last errorStatus reraise complete
      (quotaReservations w)).run.Runs E env s [] outcome s' t)
    (hdone : ∀ st data, last st = some (.done, data) → st ≠ .timeout)
    (htimeout : ∀ st data, last st = some (.timeout, data) → st = .timeout)
    (hevent : ∃ data, last .timeout = some (.timeout, data)) (herror : ∀ e, errorStatus e ≠ .success)
    (hr : ∀ s, (complete s).quotaReserved = true) (hs : ∀ s, (complete s).quotaSettled = false)
    (hres : ∀ s, (complete s).quotaReservations = []) :
    OutcomeIntegrity (loopEnding onChunk start u.pulls) t ↔
      u.iterError = none ∧ loopEnding onChunk start u.pulls ≠ .raised .generatorExit ∧
        loopEnding onChunk start u.pulls ≠ .upstreamTimeout ∧
        ¬ ((last .success).isSome = true ∧ loopEnding onChunk start u.pulls = .exhausted ∧
          w.lastRead = .cancelled) := by
  have hyields (hiter : u.iterError = none)
      (hending : (loopEnding onChunk start u.pulls).ending = .timedOut) :
      ∃ data, (⟨.yield .timeout data, ()⟩ : Event Cmd Cmd.Resp) ∈ t := by
    obtain ⟨data, hlast⟩ := hevent
    exact ⟨data, hrun.post (streamBody_timeout hiter hlast hending [])⟩
  generalize hend : loopEnding onChunk start u.pulls = loopEnd at hyields ⊢
  have hexpected {e : Event Cmd Cmd.Resp} (he : e ∈ t) :=
    streamBody_expected (hend ▸ rfl : loopEnd.ending = _) hdone htimeout hrun he
  have hspawn := streamBody_spawns hrun hr hs hres
  cases hiter : u.iterError with
  | some e =>
    simp only [reduceCtorEq, false_and, iff_false]
    intro h
    rw [h.spawned, hiter] at hspawn
    cases hspawn
  | none =>
    have hone : calls .spawn t = 1 := by
      rw [hspawn, hiter]
      rfl
    have hexhausted : loopEnd.ending = .exhausted ↔ loopEnd = .exhausted := by
      cases loopEnd <;> simp [LoopEnd.ending]
    have hclosed : loopEnd.ending = .raised .generatorExit ↔ loopEnd = .raised .generatorExit := by
      cases loopEnd <;> simp [LoopEnd.ending]
    have hstatus : (recordedStatus errorStatus loopEnd.ending (raisedBy w last loopEnd.ending) =
        .success ↔ loopEnd.ending = .exhausted) ↔ _ := recordedStatus_iff herror
    simp only [hexhausted, hclosed, ne_eq] at hstatus
    constructor
    · intro h
      obtain ⟨e, he, hkind⟩ : ∃ e ∈ t, e.cmd.kind = some .spawn := by
        have hpos : 0 < calls .spawn t := by omega
        obtain ⟨e, he, hk⟩ := List.countP_pos_iff.1 hpos
        exact ⟨e, he, by simpa using hk⟩
      obtain ⟨c, answer⟩ := e
      cases c <;> try cases hkind
      rename_i ctx
      have hctx := h.status ctx he
      rw [show ctx.status = _ from hexpected he] at hctx
      refine ⟨rfl, (hstatus.1 hctx).1, fun hupstream => ?_, (hstatus.1 hctx).2⟩
      obtain ⟨data, hyield⟩ := hyields hiter (hupstream ▸ rfl)
      rw [h.timeout data hyield] at hupstream
      cases hupstream
    · intro h
      obtain ⟨-, hclose, hupstream, hlast⟩ := h
      have hrecorded := hstatus.2 ⟨hclose, hlast⟩
      refine ⟨hone, fun ctx he => ?_, fun payload he => ?_, fun data he => hexhausted.1 (hexpected he),
        fun data he => ?_⟩
      · rwa [show ctx.status = _ from hexpected he]
      · rwa [show payload.status = _ from hexpected he]
      · have htimed : loopEnd.ending = .timedOut := hexpected he
        cases loopEnd with
        | timedOut => rfl
        | upstreamTimeout => exact absurd rfl hupstream
        | exhausted => cases htimed
        | raised e => cases htimed

end

end

section

variable {S : Type} {E : Sem Cmd Cmd.Resp S} {env : S → S → Prop} {w : World}
  {logicalModel : LogicalModel} {estimatedTokens : Int} {u : Upstream} {s s' : S}
  {outcome : Except Raised Unit} {t : Calls}

theorem usageStatusForException_ne (e : Exn) : usageStatusForException e ≠ .success := by
  unfold usageStatusForException
  split <;> simp

/-- The last piece of a generator without a terminator. -/
theorem timeout_only {event : String} {st : UsageStatus} {p : Piece} {data : String}
    (h : (if st = .timeout then some (Piece.timeout, event) else none) = some (p, data)) :
    p = .timeout ∧ st = .timeout := by
  split at h
  · cases h
    exact ⟨rfl, ‹_›⟩
  · cases h

theorem streamOpenai_integrity {features : Finset String}
    (hrun : (streamOpenai w logicalModel estimatedTokens features (quotaReservations w) u).run.Runs
      E env s [] outcome s' t) :
    OutcomeIntegrity (loopEnding (OpenaiStream.onChunk w.parseInt) {} u.pulls) t ↔
      EndsPlainly w u (.openai features) := by
  unfold streamOpenai at hrun
  refine (streamBody_integrity hrun (fun st data h => ?_) (fun st data h => ?_)
    ⟨_, rfl⟩ usageStatusForException_ne (fun _ => rfl) (fun _ => rfl) fun _ => rfl).trans ?_
  · intro hst
    simp [hst] at h
  · cases st <;> simp at h ⊢
  · simp [EndsPlainly, Generator.ending, Generator.terminates]

theorem streamNative_integrity {accumulate : Accumulate} {provider event : String}
    {features : Finset String}
    (hrun : (streamNative w logicalModel estimatedTokens accumulate provider event features
      (quotaReservations w) u).run.Runs E env s [] outcome s' t) :
    OutcomeIntegrity (loopEnding (NativeUsage.onChunk accumulate) ⟨emptyUsage, ""⟩ u.pulls) t ↔
      u.iterError = none ∧
        loopEnding (NativeUsage.onChunk accumulate) ⟨emptyUsage, ""⟩ u.pulls ≠
          .raised .generatorExit ∧
        loopEnding (NativeUsage.onChunk accumulate) ⟨emptyUsage, ""⟩ u.pulls ≠ .upstreamTimeout := by
  unfold streamNative at hrun
  refine (streamBody_integrity hrun (fun st data h => ?_) (fun st data h => (timeout_only h).2)
    ⟨_, rfl⟩ usageStatusForException_ne (fun _ => rfl) (fun _ => rfl) fun _ => rfl).trans ?_
  · cases (timeout_only h).1
  · simp

theorem streamResponses_integrity {provider : Option String}
    {downgradedFeatures : Option (List String)}
    (hrun : (streamResponses w logicalModel estimatedTokens provider downgradedFeatures
      (quotaReservations w) u).run.Runs E env s [] outcome s' t) :
    OutcomeIntegrity (loopEnding (ResponsesStream.onChunk w.parseInt) {} u.pulls) t ↔
      u.iterError = none ∧
        loopEnding (ResponsesStream.onChunk w.parseInt) {} u.pulls ≠ .raised .generatorExit ∧
        loopEnding (ResponsesStream.onChunk w.parseInt) {} u.pulls ≠ .upstreamTimeout := by
  unfold streamResponses at hrun
  refine (streamBody_integrity hrun (fun st data h => ?_) (fun st data h => (timeout_only h).2)
    ⟨_, rfl⟩ (fun _ => by simp) (fun _ => rfl) (fun _ => rfl) fun _ => rfl).trans ?_
  · cases (timeout_only h).1
  · simp

theorem outcome_integrity_iff {g : Generator}
    (hrun : (g.body w logicalModel estimatedTokens (quotaReservations w) u).run.Runs E env s []
      outcome s' t) : OutcomeIntegrity (g.ending w u) t ↔ EndsPlainly w u g := by
  cases g with
  | openai features => exact streamOpenai_integrity hrun
  | anthropic features =>
    exact (streamNative_integrity hrun).trans (by simp [EndsPlainly, Generator.ending, Generator.terminates])
  | gemini features =>
    exact (streamNative_integrity hrun).trans (by simp [EndsPlainly, Generator.ending, Generator.terminates])
  | responses provider downgradedFeatures =>
    exact (streamResponses_integrity hrun).trans (by simp [EndsPlainly, Generator.ending, Generator.terminates])

end

/-! ## A generator closed at a chunk -/

/-- A user without rules or quotas. -/
def streamWorld : World where
  user := ⟨7, none, none⟩
  requestId := "r1"
  member := "m1"
  responseCacheEnabled := false
  responseCacheTtlSeconds := 300
  parseInt := fun _ => none
  fingerprint := fun _ _ _ => "f"
  support := fun _ _ _ => none
  accumulateAnthropicUsage := fun s _ => (s, none)
  accumulateGeminiUsage := fun s _ => (s, none)
  model := .ok ⟨1, "gpt", none, none⟩
  rules := []
  quota := .value { passed := true }
  cached := none
  router := true
  opened := .value { body := .none }
  starts := true
  lastRead := .resumed

/-- Two chunks, for a client that does with the first what `read` says. -/
def twoChunks (read : Read) : Upstream where
  body := .none
  pulls := [.chunk { body := .none, text := .ok "a" } read,
    .chunk { body := .none, text := .ok "b" } .resumed]

/-- A run of the Anthropic generator for that client. -/
def NativeRun (read : Read) (outcome : Except Raised Unit) (t : Calls) : Prop :=
  ((Generator.anthropic ∅).body streamWorld ⟨1, "gpt", none, none⟩ 100
    (quotaReservations streamWorld) (twoChunks read)).run.Runs
      (fun _ (_ : Unit) _ _ => True) (fun _ _ => True) () [] outcome () t

/-- The client closes the generator at the first of two chunks, and the finalizer records a
success. -/
theorem closed_stream_succeeds :
    ∃ outcome t, NativeRun .closed outcome t ∧
      ¬ OutcomeIntegrity ((Generator.anthropic ∅).ending streamWorld (twoChunks .closed)) t := by
  refine ⟨_, _, ⟨(), (), (), trivial, trivial, (), (), (), trivial, trivial, (), (), (), trivial,
    trivial, (), (), (), trivial, trivial, (), (), (), trivial, trivial, rfl, rfl, trivial⟩, ?_⟩
  intro h
  have hspawned := h.status _ (.tail _ (.tail _ (.tail _ (.head _))))
  exact absurd (hspawned.1 rfl) (by decide)

theorem runs_read : ∃ outcome t, NativeRun .resumed outcome t :=
  ⟨_, _, (), (), (), trivial, trivial, (), (), (), trivial, trivial, (), (), (), trivial, trivial,
    (), (), (), trivial, trivial, (), (), (), trivial, trivial, (), (), (), trivial, trivial,
    rfl, rfl, trivial⟩

theorem outcome_integrity_read :
    ∃ outcome t, NativeRun .resumed outcome t ∧
      OutcomeIntegrity ((Generator.anthropic ∅).ending streamWorld (twoChunks .resumed)) t := by
  obtain ⟨outcome, t, hrun⟩ := runs_read
  exact ⟨outcome, t, hrun, (outcome_integrity_iff hrun).2 ⟨rfl, by decide, by decide, by decide⟩⟩

end Gateway.Handler
