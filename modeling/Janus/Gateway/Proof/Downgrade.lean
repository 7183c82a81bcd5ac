import Janus.Conc.Adds
import Janus.Gateway.Proof.Accounts

/-!
# The downgrade header and the usage event (`capabilities.py` and the completion endpoints)

A usage event lists the features that the deployment lacks, and the reply's header is to list the
same. `exchange` is `serve` with the reply, whose headers are sent before its generator runs.

* `Records d O p`: whatever the calls answer, `p` records the events `d`; from `Raising.Adds`.
* `Fair w H d p`: a reply after the events `d` shows what they say if and only if `H` does not hold.
* `Hidden`: the chat streams and the answers without a JSON form whose model lacks a feature.
* `downgrade_visible_iff`: in every run the header and the event agree unless it is hidden.
-/

set_option autoImplicit false

namespace Gateway.Handler

open Conc Janus Python RateLimit

/-! ## What a request records -/

def Cmd.recorded : Cmd → Multiset (Option (List String))
  | .enqueueUsageEvent payload => {payload.downgradedFeatures}
  | _ => 0

/-- The downgraded features of the usage events. -/
def recorded (t : Calls) : Multiset (Option (List String)) := (t.map fun e => e.cmd.recorded).sum

theorem recorded_cons (c : Cmd) (r : Cmd.Resp c) (t : Calls) :
    recorded (⟨c, r⟩ :: t) = recorded t + c.recorded := by
  unfold recorded
  rw [List.map_cons, List.sum_cons, add_comm]

/-- Whatever was called before, `p` records the usage events `d` and ends as `O` says. -/
abbrev Records {α : Type} (d : Multiset (Option (List String))) (O : Except Raised α → Prop)
    (p : Io α) : Prop := Raising.Adds (fun _ _ => True) recorded d O p

namespace Records

variable {α β : Type} {d D : Multiset (Option (List String))} {O P : Except Raised α → Prop}

theorem call {c : Cmd} {O : Except Raised (Cmd.Resp c) → Prop} (h : ∀ r, O (.ok r)) :
    Records c.recorded O (Handler.call c) :=
  Raising.Adds.cmd (fun _ => trivial) (fun t r => recorded_cons c r t) h

/-- A part that returns and records nothing, and the rest. -/
theorem silent {p : Io α} {f : α → Io β} {O : Except Raised β → Prop} (hp : Records 0 Returns p)
    (hf : ∀ a, Records d O (f a)) : Records d O (p >>= f) :=
  Raising.Adds.skip hp (fun _ h => by cases h) fun a _ => hf a

/-- A part that returns, and the rest records nothing. -/
theorem before {p : Io α} {f : α → Io β} {O : Except Raised β → Prop} (hp : Records d Returns p)
    (hf : ∀ a, Records 0 O (f a)) : Records d O (p >>= f) :=
  Raising.Adds.last hp (fun _ h => by cases h) fun a _ => hf a

/-- A call that records nothing, and the rest. -/
theorem call_bind {c : Cmd} {f : Cmd.Resp c → Io α} (hc : c.recorded = 0)
    (hf : ∀ r, Records d O (f r)) : Records d O (Handler.call c >>= f) :=
  silent (hc ▸ call fun _ => rfl) hf

theorem raise {e : Exn} (h : O (.error (.exception e))) : Records 0 O (Handler.raise e) :=
  Raising.Adds.throw h

/-- Whatever the body raises, the handler records nothing. -/
theorem tryExcept {p : Io α} {handler : Exn → Io α} (hp : Records d P p)
    (hok : ∀ a, P (.ok a) → O (.ok a) ∧ D = 0)
    (hpass : ∀ e, P (.error e) → (∃ x, e = .exception x) ∨ O (.error e) ∧ D = 0)
    (hcatch : ∀ x, P (.error (.exception x)) → Records D O (handler x)) :
    Records (d + D) O (Handler.tryExcept p handler) := by
  refine hp.tryCatch hok fun e h => ?_
  obtain ⟨x, rfl⟩ | ⟨hO, rfl⟩ := hpass e h
  · exact hcatch x h
  · cases e with
    | exception x => exact hcatch x h
    | cancelled => exact Raising.Adds.throw hO
    | generatorExit => exact Raising.Adds.throw hO

/-- A part whose exceptions are all handled. -/
theorem caught {p : Io α} {handler : Exn → Io α} (hp : Records d P p)
    (hok : ∀ a, P (.ok a) → O (.ok a)) (hcatchable : ∀ outcome, P outcome → Catchable outcome)
    (hcatch : ∀ x, Records 0 O (handler x)) : Records d O (Handler.tryExcept p handler) :=
  add_zero d ▸ tryExcept hp (fun a h => ⟨hok a h, rfl⟩)
    (fun e h => .inl (hcatchable _ h e rfl)) fun x _ => hcatch x

end Records

theorem catchable_raise {α : Type} (e : Exn) :
    Catchable (.error (.exception e) : Except Raised α) := by
  intro _ he
  cases he
  exact ⟨e, rfl⟩

/-! ## The finalizer -/

section

variable {α : Type} {ctx : GatewayRequestContext} {logicalModel : LogicalModel}
  {w : World} {O : Except Raised α → Prop}

theorem settling_records (answer : Except Exn Unit) : Records 0 Catchable (settling answer) := by
  cases answer with
  | ok u => exact Raising.Adds.pure (catchable_ok _)
  | error e => exact Records.raise (catchable_raise e)

/-- An outcome that keeps the downgraded features. -/
def KeepsFeatures (features : Option (List String))
    (outcome : Except Raised GatewayRequestContext) : Prop :=
  Catchable outcome ∧ ∀ ctx, outcome = .ok ctx → ctx.downgradedFeatures = features

theorem keepsFeatures_ok {features : Option (List String)} (h : ctx.downgradedFeatures = features) :
    KeepsFeatures features (.ok ctx) := by
  refine ⟨catchable_ok _, fun ctx' hctx => ?_⟩
  cases hctx
  exact h

theorem keepsFeatures_error {features : Option (List String)} {e : Exn} :
    KeepsFeatures features (.error (.exception e)) :=
  ⟨catchable_raise e, fun _ h => by cases h⟩

theorem settleQuota_records :
    Records 0 (fun outcome => Returns outcome ∧ KeepsFeatures ctx.downgradedFeatures outcome)
      (settleQuota ctx logicalModel) := by
  have hsettling (answer : Except Exn Unit) :
      Records 0 (KeepsFeatures ctx.downgradedFeatures)
        (settling answer >>= fun _ => pure { ctx with quotaSettled := true }) := by
    refine Raising.Adds.skip (settling_records answer) (fun e h => ?_) fun _ _ =>
      Raising.Adds.pure (keepsFeatures_ok rfl)
    obtain ⟨x, rfl⟩ := h e rfl
    exact ⟨keepsFeatures_error, rfl⟩
  unfold settleQuota
  split
  · exact Raising.Adds.pure ⟨rfl, keepsFeatures_ok rfl⟩
  · refine Records.caught (P := KeepsFeatures ctx.downgradedFeatures) ?_ (fun a h => ⟨rfl, h⟩)
      (fun _ h => h.1) fun x => ?_
    · dsimp only
      split
      · split
        · exact Records.call_bind rfl hsettling
        · exact Records.call_bind rfl hsettling
      · exact Raising.Adds.pure (keepsFeatures_ok rfl)
    · exact Records.call_bind rfl fun _ => Raising.Adds.pure ⟨rfl, keepsFeatures_ok rfl⟩

theorem settleTpmOf_records (rules : List Rule) : Records 0 Returns (settleTpmOf ctx rules) := by
  unfold settleTpmOf
  split
  · refine Records.caught (P := Catchable) (Records.call_bind rfl settling_records) (fun _ _ => rfl)
      (fun _ h => h) fun x => ?_
    exact Records.call fun _ => rfl
  · exact Raising.Adds.pure rfl

theorem finalizeGatewayRequest_records {rules : List Rule} {reservations : List QuotaReservation}
    {features : Option (List String)} (h : ctx.downgradedFeatures = features) :
    Records {features} Returns
      (finalizeGatewayRequest ctx logicalModel rules reservations) := by
  unfold finalizeGatewayRequest
  dsimp only
  generalize hctx : (if reservations ≠ [] then { ctx with quotaReservations := reservations }
    else ctx) = withReservations
  have hsame : withReservations.downgradedFeatures = features := by
    rw [← hctx, ← h]
    split <;> rfl
  refine Raising.Adds.skip settleQuota_records (fun e h => by cases h.1) fun ctx' h => ?_
  have hkept : ctx'.downgradedFeatures = features := (h.2.2 ctx' rfl).trans hsame
  rw [← hkept]
  have henqueue : Records {ctx'.downgradedFeatures} Returns (enqueueUsage ctx' logicalModel) :=
    Records.call fun _ => rfl
  refine henqueue.before fun _ => Records.call_bind rfl fun _ => ?_
  refine Records.silent ?_ fun _ => settleTpmOf_records _
  unfold recordChannelHealth
  split
  · exact Raising.Adds.pure rfl
  · exact Records.call fun _ => rfl

/-! ## Streams -/

theorem suppress_records {d : Multiset (Option (List String))} {p : Io Unit}
    (hp : Records d Catchable p) : Records d Returns (suppressException p) :=
  Records.caught hp (fun _ _ => rfl) (fun _ h => h) fun _ => Raising.Adds.pure rfl

theorem finalizeStream_records {reservations : List QuotaReservation}
    {features : Option (List String)} (h : ctx.downgradedFeatures = features) :
    Records {features} Returns (finalizeStream w logicalModel ctx reservations) := by
  have hfinalize : Records {features} Returns
      (suppressException (finalizeGatewayRequest ctx logicalModel w.rules reservations)) :=
    suppress_records ((finalizeGatewayRequest_records h).mono fun _ => Returns.catchable)
  unfold finalizeStream
  refine Records.call_bind rfl fun _ => ?_
  split
  · exact Records.call_bind rfl fun _ => hfinalize
  · exact hfinalize

/-- What the loop of a generator has accumulated when it ends. -/
def loopState {σ : Type} (onChunk : σ → Chunk → σ × Except Python.Error String) :
    σ → List Pull → σ
  | s, .chunk chunk read :: pulls =>
    match onChunk s chunk with
    | (s, .error _) => s
    | (s, .ok _) =>
      match read.raised with
      | none => loopState onChunk s pulls
      | some _ => s
  | s, _ => s

theorem pump_records {σ : Type} (onChunk : σ → Chunk → σ × Except Python.Error String) (s : σ)
    (pulls : List Pull) : Records 0
      (fun outcome => ∃ ending, outcome = .ok (loopState onChunk s pulls, ending))
      (pump onChunk s pulls) := by
  induction pulls generalizing s with
  | nil => exact Raising.Adds.pure ⟨_, rfl⟩
  | cons pull pulls ih =>
    cases pull with
    | expired => exact Raising.Adds.pure ⟨_, rfl⟩
    | idle => exact Raising.Adds.pure ⟨_, rfl⟩
    | fails e => exact Raising.Adds.pure ⟨_, rfl⟩
    | disconnected => exact Raising.Adds.pure ⟨_, rfl⟩
    | chunk chunk read =>
      unfold pump loopState
      cases hchunk : onChunk s chunk with
      | mk s' data =>
        cases data with
        | error e => exact Raising.Adds.pure ⟨_, rfl⟩
        | ok data =>
          refine Records.call_bind rfl fun _ => ?_
          dsimp only
          cases read.raised with
          | none => exact ih s'
          | some e => exact Raising.Adds.pure ⟨_, rfl⟩

theorem yieldLast_records (last : Option (Piece × String)) :
    Records 0 Returns (yieldLast w last) := by
  cases last with
  | none => exact Raising.Adds.pure rfl
  | some data => exact Records.call_bind rfl fun _ => Raising.Adds.pure rfl

section

variable {σ : Type} {onChunk : σ → Chunk → σ × Except Python.Error String} {start : σ}
  {u : Upstream} {last : UsageStatus → Option (Piece × String)} {status : Exn → UsageStatus}
  {reraise : Exn → Exn} {complete : σ → GatewayRequestContext}
  {reservations : List QuotaReservation}

theorem finishStream_records {statusValue : UsageStatus} {features : Option (List String)}
    (h : ctx.downgradedFeatures = features) (raised : Option Raised) : Records {features} Anyhow
      (finishStream w logicalModel status reraise ctx statusValue reservations raised) := by
  unfold finishStream
  refine Records.call_bind rfl fun _ => ?_
  refine Records.before (finalizeStream_records h) fun _ => ?_
  cases raised with
  | none => exact Raising.Adds.pure trivial
  | some e =>
    cases e with
    | exception e => exact Records.raise trivial
    | cancelled => exact Raising.Adds.throw trivial
    | generatorExit => exact Raising.Adds.throw trivial

/-- A generator that gets its iterator records one event. -/
theorem streamBody_records (hiter : u.iterError = none) :
    Records {(complete (loopState onChunk start u.pulls)).downgradedFeatures} Anyhow
      (streamBody w logicalModel onChunk start u last status reraise complete reservations) := by
  unfold streamBody
  rw [hiter]
  refine Raising.Adds.skip (pump_records onChunk start u.pulls) ?_ ?_
  · rintro e ⟨ending, h⟩
    cases h
  rintro ⟨s, ending⟩ ⟨ending', h⟩
  cases h
  cases ending with
  | raised e => exact finishStream_records rfl _
  | exhausted => exact (yieldLast_records _).silent fun raised => finishStream_records rfl raised
  | timedOut => exact (yieldLast_records _).silent fun raised => finishStream_records rfl raised

theorem streamBody_records_none {e : Exn} (hiter : u.iterError = some e) :
    Records 0 Anyhow
      (streamBody w logicalModel onChunk start u last status reraise complete reservations) := by
  unfold streamBody
  rw [hiter]
  exact Records.raise trivial

end

end

/-! ## Before the reply -/

section

variable {w : World} {logicalModel : LogicalModel} {estimatedTokens : Int}

theorem await_records {T : Type} (a : Awaited T) :
    Records 0 (fun outcome => outcome = a.outcome) (await a) := by
  cases a with
  | value a => exact Raising.Adds.pure rfl
  | raises e => exact Records.raise rfl
  | cancelled => exact Raising.Adds.throw rfl

theorem rollbackStep_records {step : RollbackStep} {body : List Rule → Io Unit}
    (hbody : Records 0 Catchable (body (w.reached step))) :
    Records 0 Anyhow (rollbackStep w step body) := by
  refine (suppress_records hbody).silent fun _ => ?_
  split
  · exact Raising.Adds.throw trivial
  · exact Raising.Adds.pure trivial

theorem rollback_records :
    Records 0 Anyhow (rollbackRateLimitReservations w estimatedTokens) := by
  unfold rollbackRateLimitReservations
  split
  · refine Raising.Adds.skip (rollbackStep_records (Records.call_bind rfl settling_records))
      (fun _ _ => ⟨trivial, rfl⟩) fun _ _ => ?_
    refine Raising.Adds.skip (rollbackStep_records (Records.call catchable_ok))
      (fun _ _ => ⟨trivial, rfl⟩) fun _ _ => ?_
    exact rollbackStep_records (Records.call catchable_ok)
  · exact Raising.Adds.pure trivial

/-- The quota check answers what it does, or raises. -/
theorem checkQuota_records :
    Records 0 (fun outcome => ∀ q, outcome = .ok q ↔ w.quota = .value q)
      (checkQuota w logicalModel estimatedTokens) := by
  have hbody : Records 0 (fun outcome => outcome = w.quota.outcome) (do
      call (.checkQuota estimatedTokens (computeCost logicalModel estimatedTokens 0))
      await w.quota) := Records.call_bind rfl fun _ => await_records w.quota
  unfold checkQuota
  cases hquota : w.quota with
  | value q =>
    rw [hquota] at hbody
    refine Records.tryExcept (D := 0) hbody (fun a h => ⟨fun q' => ?_, rfl⟩)
      (fun e h => by cases h) fun x h => by cases h
    cases h
    simp
  | raises e =>
    rw [hquota] at hbody
    refine Records.tryExcept (D := 0) hbody (fun a h => by cases h)
      (fun e h => .inl (by cases h; exact ⟨_, rfl⟩)) fun x _ => ?_
    refine Raising.Adds.skip rollback_records (fun e _ => ⟨fun q => ?_, rfl⟩)
      fun _ _ => Records.raise fun q => ?_
    · simp
    · simp
  | cancelled =>
    rw [hquota] at hbody
    refine Records.tryExcept (D := 0) hbody (fun a h => by cases h)
      (fun e h => .inr ⟨fun q => ?_, rfl⟩) fun x h => by cases h
    simp

/-- Opening the upstream answers what it does; where it raises, an event without features may be
recorded. -/
theorem openUpstream_records {stream : Bool} {q : QuotaCheckResult} {attempt : Io Upstream}
    {opened : Awaited Upstream}
    (hattempt : Records 0 (fun outcome => outcome = opened.outcome) attempt) :
    ∃ d, (∀ features ∈ d, features = none) ∧ ((∃ u, opened = .value u) → d = 0) ∧
      Records d (fun outcome => ∀ u, outcome = .ok u ↔ opened = .value u)
        (openUpstream w logicalModel estimatedTokens stream q attempt) := by
  unfold openUpstream
  cases opened with
  | value u =>
    refine ⟨0, by simp, fun _ => rfl, ?_⟩
    refine Records.tryExcept (d := 0) (D := 0) hattempt (fun a h => ⟨fun u' => ?_, rfl⟩)
      (fun e h => by cases h) fun x h => by cases h
    cases h
    simp
  | raises e =>
    refine ⟨{none}, by simp, by simp, ?_⟩
    refine zero_add ({none} : Multiset (Option (List String))) ▸
      Records.tryExcept (D := {none}) hattempt (fun a h => by cases h)
      (fun e h => .inl (by cases h; exact ⟨_, rfl⟩)) fun x _ => ?_
    refine Records.before (finalizeGatewayRequest_records ?_) fun _ => ?_
    · rfl
    · exact Records.raise (by simp)
  | cancelled =>
    refine ⟨0, by simp, fun _ => rfl, ?_⟩
    refine Records.tryExcept (d := 0) (D := 0) hattempt (fun a h => by cases h)
      (fun e h => .inr ⟨fun u => ?_, rfl⟩) fun x h => by cases h
    simp

end

/-! ## What the client sees -/

/-- The headers of a reply; those of an exception are its handler's, which sets none of these. -/
def replyHeaders : Except Raised Reply → Headers
  | .ok (.json _ headers) | .ok (.streaming _ headers) => headers
  | .error _ => []

/-- What comes after the headers: the generator, unless the client is gone. -/
def afterHeaders (w : World) : Except Raised Reply → Prog Cmd Cmd.Resp Unit
  | .ok (.streaming generator _) => if w.starts then generator.run >>= fun _ => pure () else pure ()
  | _ => pure ()

/-- A request and its reply, whose headers are sent before its generator runs. -/
def exchange (w : World) (handler : Io Reply) : Prog Cmd Cmd.Resp (Except Raised Reply) := do
  let reply ← handler.run
  afterHeaders w reply
  pure reply

theorem exchange_serve (w : World) (handler : Io Reply) :
    (exchange w handler >>= fun _ => pure ()) = (serve w handler).run >>= fun _ => pure () := by
  unfold exchange serve
  simp only [ExceptT.run_bind, bind_assoc]
  refine bind_congr fun reply => ?_
  cases reply with
  | error e => rfl
  | ok reply =>
    cases reply with
    | json content headers => rfl
    | streaming generator headers =>
      dsimp only [afterHeaders]
      split
      · simp only [bind_assoc, pure_bind]
      · rfl

/-- The header is there if and only if features are downgraded, and lists them. -/
def Shows (headers : Headers) (features : Option (List String)) : Prop :=
  ((∃ value, ("X-Gateway-Downgraded", value) ∈ headers) ↔ features.getD [] ≠ []) ∧
    ∀ value, ("X-Gateway-Downgraded", value) ∈ headers →
      value = ",".intercalate (features.getD [])

/-- The reply shows what every usage event of the request says. -/
def Visible (reply : Except Raised Reply) (t : Calls) : Prop :=
  ∀ features ∈ recorded t, Shows (replyHeaders reply) features

theorem not_mem_quotaHeaders {q : QuotaCheckResult} {value : String} :
    ("X-Gateway-Downgraded", value) ∉ quotaHeaders q := by
  unfold quotaHeaders
  split <;> simp

theorem mem_downgradedHeader {features : Option (List String)} {value : String} :
    ("X-Gateway-Downgraded", value) ∈ downgradedHeader features ↔
      features.getD [] ≠ [] ∧ value = ",".intercalate (features.getD []) := by
  unfold downgradedHeader
  split <;> simp_all

theorem shows_nil {features : Option (List String)} :
    Shows [] features ↔ features.getD [] = [] := by
  simp [Shows]

theorem shows_quotaHeaders {q : QuotaCheckResult} {features : Option (List String)} :
    Shows (quotaHeaders q) features ↔ features.getD [] = [] := by
  simp [Shows, not_mem_quotaHeaders]

theorem shows_downgradedHeader {q : QuotaCheckResult} {features : Option (List String)} :
    Shows (quotaHeaders q ++ downgradedHeader features) features := by
  simp only [Shows, List.mem_append, not_mem_quotaHeaders, false_or, mem_downgradedHeader]
  constructor
  · constructor
    · rintro ⟨value, h, -⟩
      exact h
    · exact fun h => ⟨_, h, rfl⟩
  · exact fun value h => h.2

theorem detect_eq_nil {support : Support} {features : Finset String}
    {upstreamModel provider : Option String} :
    (detectDowngradedFeatures support features upstreamModel provider).getD [] = [] ↔
      detectDowngradedFeatures support features upstreamModel provider = none := by
  unfold detectDowngradedFeatures
  cases upstreamModel with
  | none => simp
  | some model =>
    dsimp only
    split
    · simp
    · split
      · simp
      · next h => simp [h]

/-! ## Replies -/

section

variable {w : World} {α : Type} {H : Prop} {d D : Multiset (Option (List String))}
  {logicalModel : LogicalModel} {estimatedTokens : Int}

theorem exchange_bind {G : Guard Cmd Cmd.Resp} {Q : Except Raised Reply → Calls → Prop}
    {P : Except Raised α → Calls → Prop} {p : Io α} {f : α → Io Reply} {t : Calls}
    (hp : Raising.Follows G P p t) (hok : ∀ a t, P (.ok a) t → (exchange w (f a)).Follows G Q t)
    (herror : ∀ e t, P (.error e) t → Q (.error e) t) : (exchange w (p >>= f)).Follows G Q t := by
  unfold exchange
  rw [ExceptT.run_bind, bind_assoc]
  refine Prog.Follows.bind hp fun outcome t h => ?_
  cases outcome with
  | ok a => exact hok a t h
  | error e => exact herror e t h

/-- Where `d` has been recorded, the rest of a request is visible unless `H`. -/
def Fair (w : World) (H : Prop) (d : Multiset (Option (List String))) (p : Io Reply) : Prop :=
  ∀ t, recorded t = d →
    (exchange w p).Follows (fun _ _ => True) (fun reply t' => Visible reply t' ↔ ¬ H) t

namespace Fair

theorem bind {P : Except Raised α → Prop} {p : Io α} {f : α → Io Reply} (hp : Records D P p)
    (hok : ∀ a, P (.ok a) → Fair w H (d + D) (f a))
    (herror : ∀ e, P (.error e) → ((∀ features ∈ d + D, features.getD [] = []) ↔ ¬ H)) :
    Fair w H d (p >>= f) := by
  intro t ht
  refine exchange_bind (hp t) (fun a t' h => hok a h.1 t' (ht ▸ h.2)) fun e t' h => ?_
  rw [← herror e h.1, Visible, h.2, ht]
  exact forall₂_congr fun features _ => shows_nil

theorem json {content : Value} {headers : Headers}
    (h : (∀ features ∈ d, Shows headers features) ↔ ¬ H) :
    Fair w H d (pure (.json content headers)) := by
  rintro t rfl
  exact h

theorem streaming {generator : Io Unit} {headers : Headers}
    (hgenerator : w.starts = true → Records D Anyhow generator)
    (hstarts : w.starts = true → ((∀ features ∈ d + D, Shows headers features) ↔ ¬ H))
    (hgone : w.starts = false → ((∀ features ∈ d, Shows headers features) ↔ ¬ H)) :
    Fair w H d (pure (.streaming generator headers)) := by
  intro t ht
  have hexchange : exchange w (pure (.streaming generator headers)) =
      (if w.starts then generator.run >>= fun _ => pure () else pure ()) >>= fun _ =>
        pure (Except.ok (.streaming generator headers)) := rfl
  rw [hexchange]
  cases hst : w.starts with
  | false =>
    have h := hgone hst
    rw [← ht] at h
    exact h
  | true =>
    rw [if_pos rfl, bind_assoc]
    refine Prog.Follows.bind (hgenerator hst t) fun outcome t' h => ?_
    show Visible _ _ ↔ _
    rw [← hstarts hst, Visible, h.2, ht]
    rfl

theorem openUpstream {stream : Bool} {q : QuotaCheckResult} {attempt : Io Upstream}
    {opened : Awaited Upstream} {f : Upstream → Io Reply}
    (hattempt : Records 0 (fun outcome => outcome = opened.outcome) attempt)
    (hvalue : ∀ u, opened = .value u → Fair w H 0 (f u))
    (hother : (∀ u, opened ≠ .value u) → ¬ H) :
    Fair w H 0 (openUpstream w logicalModel estimatedTokens stream q attempt >>= f) := by
  obtain ⟨d, hnone, hempty, hrecords⟩ := openUpstream_records (w := w) hattempt
  refine bind hrecords (fun u h => ?_) fun e h => ?_
  · have hu := (h u).1 rfl
    rw [hempty ⟨u, hu⟩]
    exact hvalue u hu
  · have hno := hother fun u hu => by cases (h u).2 hu
    rw [zero_add]
    refine iff_of_true (fun features hfeatures => ?_) hno
    rw [hnone features hfeatures]
    rfl

theorem pyHelper {T : Type} {result : Except Python.Error T} {f : T → Io Reply}
    (hok : ∀ a, result = .ok a → Fair w H d (f a))
    (herror : ∀ e, result = .error e → ((∀ features ∈ d, features.getD [] = []) ↔ ¬ H)) :
    Fair w H d (pyHelper result >>= f) := by
  cases result with
  | ok a => exact hok a rfl
  | error e =>
    refine bind (D := 0) (Raising.Adds.throw (O := Raises) rfl) (fun _ h => by cases h)
      fun e' _ => ?_
    rw [add_zero]
    exact herror e rfl

end Fair

end

/-! ## The condition -/

/-- The quota check passes, and litellm answers. -/
structure Answers (w : World) (u : Upstream) : Prop where
  quota : ∃ q, w.quota = .value q
  router : w.router = true
  opened : w.opened = .value u

/-- litellm knows that the model does not support a requested feature. -/
def Lacks (support : Support) (requestedFeatures : Finset String)
    (upstreamModel provider : Option String) : Prop :=
  ∃ model, upstreamModel = some model ∧ model ≠ "" ∧ ∃ feature ∈ requestedFeatures,
    let provider := orText provider (providerFromModel model)
    support feature (stripProviderPrefix model provider) provider = some false

theorem detect_ne_none {support : Support} {features : Finset String}
    {upstreamModel provider : Option String} :
    detectDowngradedFeatures support features upstreamModel provider ≠ none ↔
      Lacks support features upstreamModel provider := by
  unfold detectDowngradedFeatures Lacks
  cases upstreamModel with
  | none => simp
  | some model =>
    simp only [Option.some.injEq, exists_eq_left']
    split
    · next h =>
      obtain rfl | rfl := h <;> simp
    · next h =>
      obtain ⟨-, hmodel⟩ := not_or.1 h
      simp [hmodel, List.filter_eq_nil_iff]

/-- An answer of a model that lacks a requested feature, of which no reply is made. -/
def HiddenAnswer (w : World) (features : Except Python.Error (Finset String))
    (usage : Value → Except Python.Error Usage) (content : Upstream → Except Python.Error Value)
    (upstreamModel provider : Upstream → Option String) : Prop :=
  ∃ requestedFeatures u, features = .ok requestedFeatures ∧ Answers w u ∧
    (usage u.body).isOk = true ∧ (content u).isOk = false ∧
    Lacks w.support requestedFeatures (upstreamModel u) (provider u)

/-- What the chunks that are read, and then the response, say of the deployment. -/
def openaiSeen (w : World) (u : Upstream) : OpenaiStream :=
  (loopState (OpenaiStream.onChunk w.parseInt) {} u.pulls).observe u.view

/-- A stream of a model that lacks a requested feature. -/
def HiddenStream (w : World) (features : Except Python.Error (Finset String)) : Prop :=
  ∃ requestedFeatures u, features = .ok requestedFeatures ∧ Answers w u ∧
    w.starts = true ∧ u.iterError = none ∧
    Lacks w.support requestedFeatures (openaiSeen w u).upstreamModel (openaiSeen w u).provider

/-- The response cache has no answer. -/
def CacheMisses (w : World) (params : Fields) (cacheable : Bool) : Prop :=
  isCacheableRequest false w.responseCacheEnabled params = .ok cacheable ∧
    (cacheable = true → w.cached = none)

/-- The content of a chat reply: before it is made, the response cache looks at the answer. -/
def completionContent (cacheable : Bool) (u : Upstream) : Except Python.Error Value := do
  let _ ← isStorable cacheable u.body
  u.dump

/-- A downgrade that the client does not see: that of a chat stream, and of an answer that is not a
stream and of which no reply is made. -/
def Hidden (w : World) : Request → Prop
  | .chatCompletions payload =>
    if payload.stream then
      HiddenStream w (requestedFeaturesFromParams payload.messages payload.extra)
    else
      ∃ cacheable, CacheMisses w payload.extra cacheable ∧
        HiddenAnswer w (requestedFeaturesFromParams payload.messages payload.extra)
          (extractUsage w.parseInt) (completionContent cacheable)
          (fun u => (extractRoutingInfo u.view).2) fun u => providerFromResponse u.view
  | .messages payload =>
    payload.stream = false ∧ ∃ logicalModel, w.model = .ok logicalModel ∧
      HiddenAnswer w
        (requestedFeaturesFromParams payload.messages (payload.nativeParams logicalModel))
        (extractAnthropicUsage w.parseInt) Upstream.dump (fun u => u.metadata.deployment)
        fun _ => some "anthropic"
  | .generateContent payload stream =>
    stream = false ∧ ∃ logicalModel, w.model = .ok logicalModel ∧
      HiddenAnswer w
        (requestedFeaturesFromParams payload.contents (payload.nativeParams logicalModel))
        (extractGeminiUsageFromResponse w.parseInt) Upstream.dump
        (fun u => u.metadata.deployment.or (extractRoutingInfo u.view).2) fun _ => some "gemini"
  | .responses payload =>
    payload.stream = false ∧ HiddenAnswer w payload.requestedFeatures
      (extractResponsesUsage w.parseInt) Upstream.dump
      (fun u => orText u.metadata.deployment (responseModel u.body))
      fun u => providerFromMetadata u.metadata
  | .embeddings _ => False

theorem hidden_answers {w : World} {request : Request} (h : Hidden w request) :
    ∃ u, Answers w u := by
  cases request with
  | chatCompletions payload =>
    unfold Hidden at h
    dsimp only at h
    split at h
    · obtain ⟨_, u, -, hanswers, -⟩ := h
      exact ⟨u, hanswers⟩
    · obtain ⟨_, -, _, u, -, hanswers, -⟩ := h
      exact ⟨u, hanswers⟩
  | messages payload =>
    obtain ⟨-, _, -, _, u, -, hanswers, -⟩ := h
    exact ⟨u, hanswers⟩
  | generateContent payload stream =>
    obtain ⟨-, _, -, _, u, -, hanswers, -⟩ := h
    exact ⟨u, hanswers⟩
  | responses payload =>
    obtain ⟨-, _, u, -, hanswers, -⟩ := h
    exact ⟨u, hanswers⟩
  | embeddings payload => exact h.elim

section

variable {w : World} {u : Upstream} {H : Prop} {logicalModel : LogicalModel} {estimatedTokens : Int}
  {features : Except Python.Error (Finset String)} {requestedFeatures : Finset String}
  {usage : Value → Except Python.Error Usage} {content : Upstream → Except Python.Error Value}
  {upstreamModel provider : Upstream → Option String}

theorem Answers.eq {u' : Upstream} (h : Answers w u) (h' : Answers w u') : u' = u := by
  have heq := h'.opened.symm.trans h.opened
  cases heq
  rfl

theorem Fair.checkQuota {f : QuotaCheckResult → Io Reply} (hH : H → ∃ u, Answers w u)
    (hvalue : ∀ q, w.quota = .value q → Fair w H 0 (f q)) :
    Fair w H 0 (checkQuota w logicalModel estimatedTokens >>= f) := by
  refine Fair.bind (D := 0) checkQuota_records (fun q h => hvalue q ((h q).1 rfl)) fun e h => ?_
  have hno : ¬ H := by
    intro hidden
    obtain ⟨u, hanswers⟩ := hH hidden
    obtain ⟨q, hq⟩ := hanswers.quota
    cases (h q).2 hq
  simp [hno]

theorem Fair.getRouter {f : Unit → Io Reply} (hH : H → ∃ u, Answers w u)
    (hf : w.router = true → Fair w H 0 (f ())) : Fair w H 0 (getRouter w >>= f) := by
  unfold Handler.getRouter
  split
  · next h => exact hf h
  · next h =>
    have hno : ¬ H := by
      intro hidden
      obtain ⟨u, hanswers⟩ := hH hidden
      exact h hanswers.router
    refine Fair.bind (D := 0) (Records.raise (O := Raises) rfl) (fun _ h => by cases h)
      fun e _ => ?_
    simp [hno]

theorem callUpstream_records (method : String) (kwargs : Fields) :
    Records 0 (fun outcome => outcome = w.opened.outcome) (callUpstream w method kwargs) :=
  Records.call_bind rfl fun _ => await_records w.opened

/-- The upstream call of an endpoint that has its router. -/
theorem Fair.callUpstream {stream : Bool} {q : QuotaCheckResult} {method : String}
    {kwargs : Fields} {f : Upstream → Io Reply} (hH : H → ∃ u, Answers w u)
    (hvalue : ∀ u, w.opened = .value u → Fair w H 0 (f u)) :
    Fair w H 0 (Handler.openUpstream w logicalModel estimatedTokens stream q
      (Handler.callUpstream w method kwargs) >>= f) := by
  refine Fair.openUpstream (callUpstream_records method kwargs) hvalue fun h hidden => ?_
  obtain ⟨u, hanswers⟩ := hH hidden
  exact h u hanswers.opened

theorem hiddenAnswer_iff (h : Answers w u) (hfeatures : features = .ok requestedFeatures)
    (husage : (usage u.body).isOk = true) :
    HiddenAnswer w features usage content upstreamModel provider ↔ (content u).isOk = false ∧
      detectDowngradedFeatures w.support requestedFeatures (upstreamModel u) (provider u) ≠
        none := by
  rw [detect_ne_none]
  constructor
  · rintro ⟨requestedFeatures', u', hfeatures', h', -, hdump, hlacks⟩
    cases h.eq h'
    cases hfeatures.symm.trans hfeatures'
    exact ⟨hdump, hlacks⟩
  · rintro ⟨hdump, hlacks⟩
    exact ⟨requestedFeatures, u, hfeatures, h, husage, hdump, hlacks⟩

theorem not_hiddenAnswer (h : Answers w u) {e : Python.Error} (husage : usage u.body = .error e) :
    ¬ HiddenAnswer w features usage content upstreamModel provider := by
  rintro ⟨_, u', -, h', hisOk, -⟩
  cases h.eq h'
  rw [husage] at hisOk
  cases hisOk

theorem not_hiddenAnswer_of_features {e : Python.Error} (hfeatures : features = .error e) :
    ¬ HiddenAnswer w features usage content upstreamModel provider := by
  rintro ⟨_, _, h, -⟩
  cases hfeatures.symm.trans h

theorem hiddenStream_iff (h : Answers w u) (hfeatures : features = .ok requestedFeatures) :
    HiddenStream w features ↔ w.starts = true ∧ u.iterError = none ∧
      detectDowngradedFeatures w.support requestedFeatures (openaiSeen w u).upstreamModel
        (openaiSeen w u).provider ≠ none := by
  rw [detect_ne_none]
  constructor
  · rintro ⟨requestedFeatures', u', hfeatures', h', hrest⟩
    cases h.eq h'
    cases hfeatures.symm.trans hfeatures'
    exact hrest
  · exact fun hrest => ⟨requestedFeatures, u, hfeatures, h, hrest⟩

theorem Fair.finalized {ctx : GatewayRequestContext} {rules : List Rule}
    {reservations : List QuotaReservation} {f : Unit → Io Reply}
    (downgraded : Option (List String)) (hctx : ctx.downgradedFeatures = downgraded)
    (hf : Fair w H {downgraded} (f ())) :
    Fair w H 0 (finalizeGatewayRequest ctx logicalModel rules reservations >>= f) := by
  refine Fair.bind (finalizeGatewayRequest_records hctx) (fun _ _ => ?_) fun e h => by cases h
  rw [zero_add]
  exact hf

/-- A helper on the way to the reply: if it raises, the client sees nothing of a downgrade. -/
theorem Fair.reply {T : Type} {result : Except Python.Error T} {downgraded : Option (List String)}
    {f : T → Io Reply} (hnil : downgraded.getD [] = [] ↔ downgraded = none)
    (hH : result.isOk = false → (H ↔ downgraded ≠ none))
    (hf : ∀ a, result = .ok a → Fair w H {downgraded} (f a)) :
    Fair w H {downgraded} (Handler.pyHelper result >>= f) := by
  refine Fair.pyHelper hf fun e he => ?_
  rw [hH (by rw [he]; rfl)]
  simp [hnil]

/-- An answer that is not a stream: it is finalized, and then turned to JSON. -/
theorem Fair.answer {ctx : GatewayRequestContext} {rules : List Rule}
    {reservations : List QuotaReservation} {downgraded : Option (List String)}
    {f : Value → Io Reply} (hctx : ctx.downgradedFeatures = downgraded)
    (hnil : downgraded.getD [] = [] ↔ downgraded = none)
    (hH : H ↔ u.dump.isOk = false ∧ downgraded ≠ none)
    (hf : ∀ content, ¬ H → Fair w H {downgraded} (f content)) :
    Fair w H 0 (finalizeGatewayRequest ctx logicalModel rules reservations >>= fun _ =>
      Handler.pyHelper u.dump >>= f) := by
  refine Fair.finalized downgraded hctx ?_
  refine Fair.reply hnil (fun hdump => hH.trans (and_iff_right hdump)) fun content hdump => ?_
  refine hf content fun hidden => ?_
  rw [hdump] at hH
  cases (hH.1 hidden).1

theorem Fair.call_bind {d : Multiset (Option (List String))} {c : Cmd} {f : Cmd.Resp c → Io Reply}
    (hc : c.recorded = 0) (hf : ∀ r, Fair w H d (f r)) : Fair w H d (call c >>= f) := by
  have hcall : Records 0 Returns (call c) := hc ▸ Records.call fun _ => rfl
  refine Fair.bind hcall (fun r _ => ?_) fun e h => by cases h
  rw [add_zero]
  exact hf r

/-- A JSON reply that has the header. -/
theorem Fair.shown {content : Value} {q : QuotaCheckResult} {downgraded : Option (List String)}
    (h : ¬ H) : Fair w H {downgraded}
      (pure (.json content (quotaHeaders q ++ downgradedHeader downgraded))) := by
  refine Fair.json (iff_of_true (fun features hfeatures => ?_) h)
  rw [Multiset.mem_singleton] at hfeatures
  rw [hfeatures]
  exact shows_downgradedHeader

end

/-! ## Each endpoint -/

/-- The request has passed the rate limits. -/
def Accepted (t : Calls) : Prop := ∃ e ∈ t, Admits e

/-- Whatever the calls answer, an accepted request is visible if and only if it is not hidden. -/
def Exact (w : World) (request : Request) (p : Io Reply) : Prop :=
  (exchange w p).Follows (fun _ _ => True)
    (fun reply t => Accepted t → (Visible reply t ↔ ¬ Hidden w request)) []

section

variable {w : World} {request : Request}

theorem not_accepted_nil : ¬ Accepted [] := by
  rintro ⟨e, he, -⟩
  cases he

theorem Exact.resolveModel {f : LogicalModel → Io Reply}
    (hf : ∀ logicalModel, w.model = .ok logicalModel → Exact w request (f logicalModel)) :
    Exact w request (resolveModel w >>= f) := by
  unfold Handler.resolveModel
  cases hmodel : w.model with
  | ok logicalModel => exact hf logicalModel hmodel
  | error e => exact fun h => absurd h not_accepted_nil

theorem Exact.pyHelper {T : Type} {result : Except Python.Error T} {f : T → Io Reply}
    (hf : ∀ a, result = .ok a → Exact w request (f a)) :
    Exact w request (pyHelper result >>= f) := by
  cases hresult : result with
  | ok a => exact hf a hresult
  | error e => exact fun h => absurd h not_accepted_nil

/-- The rate limits; a request that they reject is not accepted. -/
theorem Exact.checkRateLimits {estimatedTokens : Int} {stream : Bool} {f : Unit → Io Reply}
    (hf : Fair w (Hidden w request) 0 (f ())) :
    Exact w request (checkRateLimits w estimatedTokens stream >>= f) := by
  unfold Handler.checkRateLimits
  split
  · rw [bind_assoc]
    have hcall : Raising.Follows (fun _ _ => True) (fun outcome t => ∃ r : CheckResult,
        outcome = .ok r ∧ t = [⟨.checkRateLimits w.member estimatedTokens stream w.rules, r⟩])
        (call (.checkRateLimits w.member estimatedTokens stream w.rules)) [] :=
      ⟨trivial, fun r => ⟨r, rfl, rfl⟩⟩
    refine exchange_bind hcall ?_ ?_
    · rintro r t ⟨r', hr, rfl⟩
      cases hr
      by_cases hallowed : r.allowed = true
      · rw [if_pos hallowed]
        exact (hf _ rfl).mono fun _ _ h _ => h
      · rw [if_neg hallowed]
        rintro ⟨e, he, hadmits⟩
        rw [List.mem_singleton] at he
        subst he
        exact absurd hadmits hallowed
    · rintro e t ⟨r, hr, -⟩
      cases hr
  · exact (hf [] rfl).mono fun _ _ h _ => h

theorem isOk_of_eq {T : Type} {result : Except Python.Error T} {a : T} (h : result = .ok a) :
    result.isOk = true := by
  rw [h]
  rfl

/-! ### Chat completions -/

theorem hidden_stream {payload : OpenAIRequest} (hstream : payload.stream = true) :
    Hidden w (.chatCompletions payload) ↔
      HiddenStream w (requestedFeaturesFromParams payload.messages payload.extra) := by
  unfold Hidden
  dsimp only
  rw [if_pos hstream]

theorem hidden_completion {payload : OpenAIRequest} (hstream : payload.stream = false) :
    Hidden w (.chatCompletions payload) ↔ ∃ cacheable, CacheMisses w payload.extra cacheable ∧
      HiddenAnswer w (requestedFeaturesFromParams payload.messages payload.extra)
        (extractUsage w.parseInt) (completionContent cacheable)
        (fun u => (extractRoutingInfo u.view).2) fun u => providerFromResponse u.view := by
  unfold Hidden
  dsimp only
  rw [if_neg (by simp [hstream])]

theorem hidden_answer {payload : OpenAIRequest} {cacheable : Bool} (hstream : payload.stream = false)
    (hmiss : CacheMisses w payload.extra cacheable) :
    Hidden w (.chatCompletions payload) ↔
      HiddenAnswer w (requestedFeaturesFromParams payload.messages payload.extra)
        (extractUsage w.parseInt) (completionContent cacheable)
        (fun u => (extractRoutingInfo u.view).2) fun u => providerFromResponse u.view := by
  rw [hidden_completion hstream]
  constructor
  · rintro ⟨cacheable', hmiss', h⟩
    cases hmiss.1.symm.trans hmiss'.1
    exact h
  · exact fun h => ⟨cacheable, hmiss, h⟩

theorem completionContent_of_storable {cacheable storable : Bool} {u : Upstream}
    (h : isStorable cacheable u.body = .ok storable) : completionContent cacheable u = u.dump := by
  unfold completionContent
  rw [h]
  rfl

theorem completionContent_isOk_of_storable {cacheable : Bool} {u : Upstream}
    (h : (isStorable cacheable u.body).isOk = false) : (completionContent cacheable u).isOk = false := by
  unfold completionContent
  cases hstorable : isStorable cacheable u.body with
  | ok storable =>
    rw [hstorable] at h
    cases h
  | error e => rfl

/-- A stream is never cacheable. -/
theorem isCacheableRequest_stream {enabled : Bool} {params : Fields} :
    isCacheableRequest true enabled params = .ok false := rfl

/-- The cache is asked, without an answer. -/
theorem not_hidden_of_cache {payload : OpenAIRequest}
    (h : ∀ cacheable,
      isCacheableRequest payload.stream w.responseCacheEnabled payload.extra = .ok cacheable →
        cacheable = true ∧ w.cached ≠ none) : ¬ Hidden w (.chatCompletions payload) := by
  cases hstream : payload.stream with
  | true =>
    rw [hstream] at h
    cases (h false isCacheableRequest_stream).1
  | false =>
    rw [hidden_completion hstream]
    rintro ⟨cacheable, ⟨hcacheable, hmiss⟩, -⟩
    rw [hstream] at h
    obtain ⟨htrue, hcached⟩ := h cacheable hcacheable
    exact hcached (hmiss htrue)

/-- The header is sent before the chunks say which model answers. -/
theorem streamOpenai_fair {H : Prop} {logicalModel : LogicalModel} {estimatedTokens : Int}
    {requestedFeatures : Finset String} {q : QuotaCheckResult} {u : Upstream}
    {reservations : List QuotaReservation}
    (hH : H ↔ w.starts = true ∧ u.iterError = none ∧
      detectDowngradedFeatures w.support requestedFeatures (openaiSeen w u).upstreamModel
        (openaiSeen w u).provider ≠ none) :
    Fair w H 0 (pure (.streaming
      (streamOpenai w logicalModel estimatedTokens requestedFeatures reservations u)
      (quotaHeaders q))) := by
  cases hiter : u.iterError with
  | some e =>
    have hno : ¬ H := by simp [hH, hiter]
    refine Fair.streaming (D := 0) (fun _ => streamBody_records_none hiter) ?_ ?_
    · simp [hno]
    · simp [hno]
  | none =>
    refine Fair.streaming (fun _ => streamBody_records hiter) (fun hstarts => ?_) fun hgone => ?_
    · rw [zero_add, hH]
      simp only [Multiset.mem_singleton, forall_eq, shows_quotaHeaders, hstarts, hiter, true_and,
        not_not]
      exact detect_eq_nil
    · simp [hH, hgone]

theorem openaiChatCompletions_exact (payload : OpenAIRequest) :
    Exact w (.chatCompletions payload) (openaiChatCompletions w payload) := by
  unfold openaiChatCompletions executeCompletion
  refine Exact.resolveModel fun logicalModel _ => ?_
  refine Exact.pyHelper fun requestedFeatures hfeatures => ?_
  refine Exact.checkRateLimits (Fair.checkQuota hidden_answers fun q hq => ?_)
  refine Fair.pyHelper (fun cacheable hcacheable => ?_) fun e he => ?_
  · dsimp only
    cases hcached : (if cacheable then w.cached else none) with
    | some cached =>
      have hhit : ¬ Hidden w (.chatCompletions payload) := by
        refine not_hidden_of_cache fun cacheable' h => ?_
        cases hcacheable.symm.trans h
        cases cacheable with
        | false => cases hcached
        | true => exact ⟨rfl, fun hnone => by simp [hnone] at hcached⟩
      refine Fair.pyHelper (fun usage _ => Fair.finalized none rfl (Fair.json ?_)) fun e _ => by
        simp [hhit]
      refine iff_of_true (fun features hnone => ?_) hhit
      rw [Multiset.mem_singleton.1 hnone]
      exact shows_quotaHeaders.2 rfl
    | none =>
      dsimp only
      refine Fair.getRouter hidden_answers fun hrouter => ?_
      refine Fair.callUpstream hidden_answers fun u hu => ?_
      have hanswers : Answers w u := ⟨⟨q, hq⟩, hrouter, hu⟩
      cases hstream : payload.stream with
      | true =>
        rw [if_pos rfl]
        exact streamOpenai_fair
          ((hidden_stream hstream).trans (hiddenStream_iff hanswers hfeatures))
      | false =>
        have hmiss : CacheMisses w payload.extra cacheable := by
          refine ⟨hstream ▸ hcacheable, fun htrue => ?_⟩
          rwa [if_pos htrue] at hcached
        rw [if_neg Bool.false_ne_true]
        refine Fair.pyHelper (fun usage husage => Fair.finalized _ rfl ?_) fun e he => ?_
        · have hH := (hidden_answer hstream hmiss).trans
            (hiddenAnswer_iff hanswers hfeatures (isOk_of_eq husage))
          -- first the response cache looks at the answer, then the reply is made
          refine Fair.reply detect_eq_nil (fun hstorable => hH.trans (and_iff_right ?_))
            fun storable hstorable => ?_
          · exact completionContent_isOk_of_storable hstorable
          refine Fair.reply detect_eq_nil (fun hdump => hH.trans (and_iff_right ?_))
            fun content hdump => ?_
          · rwa [completionContent_of_storable hstorable]
          have hshown : ¬ Hidden w (.chatCompletions payload) := by
            rw [hH, completionContent_of_storable hstorable, hdump]
            exact fun h => Bool.noConfusion h.1
          split
          · exact Fair.call_bind rfl fun _ => Fair.shown hshown
          · exact Fair.shown hshown
        · have hno : ¬ Hidden w (.chatCompletions payload) := fun hidden =>
            not_hiddenAnswer hanswers he ((hidden_answer hstream hmiss).1 hidden)
          simp [hno]
  · have hno : ¬ Hidden w (.chatCompletions payload) := not_hidden_of_cache fun cacheable h => by
      cases he.symm.trans h
    simp [hno]

/-! ### The other endpoints -/

/-- A stream whose event says what its header says. -/
theorem Fair.shownStream {H : Prop} {σ : Type} {logicalModel : LogicalModel}
    {onChunk : σ → Chunk → σ × Except Python.Error String} {start : σ} {u : Upstream}
    {last : UsageStatus → Option (Piece × String)} {status : Exn → UsageStatus}
    {reraise : Exn → Exn} {complete : σ → GatewayRequestContext}
    {reservations : List QuotaReservation} {q : QuotaCheckResult}
    {downgraded : Option (List String)} (hno : ¬ H)
    (hcomplete : ∀ s, (complete s).downgradedFeatures = downgraded) :
    Fair w H 0 (pure (.streaming
      (streamBody w logicalModel onChunk start u last status reraise complete reservations)
      (quotaHeaders q ++ downgradedHeader downgraded))) := by
  cases hiter : u.iterError with
  | some e =>
    refine Fair.streaming (D := 0) (fun _ => streamBody_records_none hiter) ?_ ?_
    · simp [hno]
    · simp [hno]
  | none =>
    refine Fair.streaming (fun _ => streamBody_records hiter) (fun _ => ?_) fun _ => ?_
    · rw [zero_add, hcomplete]
      refine iff_of_true (fun features hfeatures => ?_) hno
      rw [Multiset.mem_singleton.1 hfeatures]
      exact shows_downgradedHeader
    · simp [hno]

theorem finalizeNative_fair {H : Prop} {logicalModel : LogicalModel} {estimatedTokens : Int}
    {usage : Usage} {channelId : Option Int} {upstreamModel : Option String}
    {downgraded : Option (List String)} {q : QuotaCheckResult} {u : Upstream}
    (hnil : downgraded.getD [] = [] ↔ downgraded = none)
    (hH : H ↔ u.dump.isOk = false ∧ downgraded ≠ none) :
    Fair w H 0 (finalizeNative w logicalModel estimatedTokens usage channelId upstreamModel
      downgraded q u) := by
  unfold finalizeNative
  exact Fair.answer rfl hnil hH fun content h => Fair.shown h

/-- The streams that know the deployment before they start. -/
theorem Fair.native {H : Prop} {logicalModel : LogicalModel} {estimatedTokens : Int}
    {accumulate : Accumulate} {provider timeoutEvent : String} {requestedFeatures : Finset String}
    {reservations : List QuotaReservation} {u : Upstream} {q : QuotaCheckResult} (hno : ¬ H) :
    Fair w H 0 (pure (.streaming
      (streamNative w logicalModel estimatedTokens accumulate provider timeoutEvent
        requestedFeatures reservations u)
      (quotaHeaders q ++ downgradedHeader (detectDowngradedFeatures w.support requestedFeatures
        u.metadata.deployment (some provider))))) := by
  unfold streamNative
  exact Fair.shownStream hno fun _ => rfl

theorem hidden_messages {payload : AnthropicRequest} {logicalModel : LogicalModel}
    (hmodel : w.model = .ok logicalModel) (hstream : payload.stream = false) :
    Hidden w (.messages payload) ↔ HiddenAnswer w
      (requestedFeaturesFromParams payload.messages (payload.nativeParams logicalModel))
      (extractAnthropicUsage w.parseInt) Upstream.dump (fun u => u.metadata.deployment)
      fun _ => some "anthropic" := by
  constructor
  · rintro ⟨-, logicalModel', hmodel', h⟩
    cases hmodel.symm.trans hmodel'
    exact h
  · exact fun h => ⟨hstream, logicalModel, hmodel, h⟩

theorem anthropicMessages_exact (payload : AnthropicRequest) :
    Exact w (.messages payload) (anthropicMessages w payload) := by
  unfold anthropicMessages
  refine Exact.resolveModel fun logicalModel hmodel => ?_
  refine Exact.checkRateLimits (Fair.checkQuota hidden_answers fun q hq => ?_)
  refine Fair.getRouter hidden_answers fun hrouter => ?_
  refine Fair.callUpstream hidden_answers fun u hu => ?_
  have hanswers : Answers w u := ⟨⟨q, hq⟩, hrouter, hu⟩
  cases hstream : payload.stream with
  | true =>
    have hno : ¬ Hidden w (.messages payload) := by
      rintro ⟨h, -⟩
      cases hstream.symm.trans h
    rw [if_pos rfl]
    refine Fair.pyHelper (fun requestedFeatures _ => ?_) fun e _ => by simp [hno]
    exact Fair.native hno
  | false =>
    have hhidden := hidden_messages hmodel hstream
    rw [if_neg Bool.false_ne_true]
    refine Fair.pyHelper (fun usage husage => ?_) fun e he => ?_
    · refine Fair.pyHelper (fun requestedFeatures hfeatures => ?_) fun e he => ?_
      · exact finalizeNative_fair detect_eq_nil
          (hhidden.trans (hiddenAnswer_iff hanswers hfeatures (isOk_of_eq husage)))
      · have hno : ¬ Hidden w (.messages payload) := by
          rw [hhidden]
          exact not_hiddenAnswer_of_features he
        simp [hno]
    · have hno : ¬ Hidden w (.messages payload) := by
        rw [hhidden]
        exact not_hiddenAnswer hanswers he
      simp [hno]

theorem hidden_generate {payload : GeminiRequest} {stream : Bool} {logicalModel : LogicalModel}
    (hmodel : w.model = .ok logicalModel) (hstream : stream = false) :
    Hidden w (.generateContent payload stream) ↔ HiddenAnswer w
      (requestedFeaturesFromParams payload.contents (payload.nativeParams logicalModel))
      (extractGeminiUsageFromResponse w.parseInt) Upstream.dump
      (fun u => u.metadata.deployment.or (extractRoutingInfo u.view).2) fun _ => some "gemini" := by
  constructor
  · rintro ⟨-, logicalModel', hmodel', h⟩
    cases hmodel.symm.trans hmodel'
    exact h
  · exact fun h => ⟨hstream, logicalModel, hmodel, h⟩

theorem geminiGenerateContent_exact (payload : GeminiRequest) (stream : Bool) :
    Exact w (.generateContent payload stream) (geminiGenerateContent w payload stream) := by
  unfold geminiGenerateContent
  refine Exact.resolveModel fun logicalModel hmodel => ?_
  refine Exact.checkRateLimits (Fair.checkQuota hidden_answers fun q hq => ?_)
  refine Fair.getRouter hidden_answers fun hrouter => ?_
  refine Fair.callUpstream hidden_answers fun u hu => ?_
  have hanswers : Answers w u := ⟨⟨q, hq⟩, hrouter, hu⟩
  cases hstream : stream with
  | true =>
    have hno : ¬ Hidden w (.generateContent payload true) := by
      rintro ⟨h, -⟩
      cases h
    rw [if_pos rfl]
    refine Fair.pyHelper (fun requestedFeatures _ => ?_) fun e _ => by simp [hno]
    exact Fair.native hno
  | false =>
    have hhidden : Hidden w (.generateContent payload false) ↔ _ := hidden_generate hmodel rfl
    rw [if_neg Bool.false_ne_true]
    refine Fair.pyHelper (fun usage husage => ?_) fun e he => ?_
    · refine Fair.pyHelper (fun requestedFeatures hfeatures => ?_) fun e he => ?_
      · exact finalizeNative_fair detect_eq_nil
          (hhidden.trans (hiddenAnswer_iff hanswers hfeatures (isOk_of_eq husage)))
      · have hno : ¬ Hidden w (.generateContent payload false) := by
          rw [hhidden]
          exact not_hiddenAnswer_of_features he
        simp [hno]
    · have hno : ¬ Hidden w (.generateContent payload false) := by
        rw [hhidden]
        exact not_hiddenAnswer hanswers he
      simp [hno]

/-- The answer of an upstream call that gets its router itself. -/
def routed (w : World) : Awaited Upstream :=
  if w.router then w.opened else .raises (.app { code := .modelUnavailable, statusCode := 503 })

theorem routed_records (method : String) (kwargs : Fields) :
    Records 0 (fun outcome => outcome = (routed w).outcome) (do
      getRouter w
      callUpstream w method kwargs) := by
  unfold getRouter routed
  split
  · exact callUpstream_records method kwargs
  · exact Raising.Adds.throw rfl

theorem routed_eq {u : Upstream} : routed w = .value u ↔ w.router = true ∧ w.opened = .value u := by
  unfold routed
  split <;> simp_all

theorem hidden_responses {payload : ResponsesRequest} (hstream : payload.stream = false) :
    Hidden w (.responses payload) ↔ HiddenAnswer w payload.requestedFeatures
      (extractResponsesUsage w.parseInt) Upstream.dump
      (fun u => orText u.metadata.deployment (responseModel u.body))
      fun u => providerFromMetadata u.metadata :=
  and_iff_right hstream

theorem responsesImpl_exact (payload : ResponsesRequest) :
    Exact w (.responses payload) (responsesImpl w payload) := by
  unfold responsesImpl
  refine Exact.resolveModel fun logicalModel _ => ?_
  refine Exact.checkRateLimits (Fair.checkQuota hidden_answers fun q hq => ?_)
  refine Fair.pyHelper (fun requestedFeatures hfeatures => ?_) fun e he => ?_
  · refine Fair.openUpstream (routed_records _ _) (fun u hu => ?_) fun h hidden => ?_
    · obtain ⟨hrouter, hopened⟩ := routed_eq.1 hu
      have hanswers : Answers w u := ⟨⟨q, hq⟩, hrouter, hopened⟩
      cases hstream : payload.stream with
      | true =>
        have hno : ¬ Hidden w (.responses payload) := by
          rintro ⟨h, -⟩
          cases hstream.symm.trans h
        rw [if_pos rfl]
        unfold streamResponses
        exact Fair.shownStream hno fun _ => rfl
      | false =>
        have hhidden := hidden_responses (w := w) hstream
        rw [if_neg Bool.false_ne_true]
        refine Fair.pyHelper (fun usage husage => ?_) fun e he => ?_
        · refine Fair.answer rfl detect_eq_nil
            (hhidden.trans (hiddenAnswer_iff hanswers hfeatures (isOk_of_eq husage))) fun _ h => ?_
          exact Fair.shown h
        · have hno : ¬ Hidden w (.responses payload) := by
            rw [hhidden]
            exact not_hiddenAnswer hanswers he
          simp [hno]
    · obtain ⟨u, hanswers⟩ := hidden_answers hidden
      exact h u (routed_eq.2 ⟨hanswers.router, hanswers.opened⟩)
  · have hno : ¬ Hidden w (.responses payload) := by
      rintro ⟨-, h⟩
      exact not_hiddenAnswer_of_features he h
    simp [hno]

/-- An embedding has no features. -/
theorem embeddingsImpl_exact (payload : EmbeddingsRequest) :
    Exact w (.embeddings payload) (embeddingsImpl w payload) := by
  have hno : ¬ Hidden w (.embeddings payload) := id
  unfold embeddingsImpl
  refine Exact.resolveModel fun logicalModel _ => ?_
  refine Exact.checkRateLimits (Fair.checkQuota hidden_answers fun q _ => ?_)
  refine Fair.getRouter hidden_answers fun _ => ?_
  refine Fair.callUpstream hidden_answers fun u _ => ?_
  refine Fair.pyHelper (fun usage _ => Fair.finalized none rfl ?_) fun e _ => by simp [hno]
  refine Fair.pyHelper (fun content _ => Fair.json ?_) fun e _ => by simp [hno]
  refine iff_of_true (fun features hnone => ?_) hno
  rw [Multiset.mem_singleton.1 hnone]
  exact shows_quotaHeaders.2 rfl

theorem handle_exact (request : Request) : Exact w request (handle w request) := by
  cases request with
  | chatCompletions payload => exact openaiChatCompletions_exact payload
  | messages payload => exact anthropicMessages_exact payload
  | generateContent payload stream => exact geminiGenerateContent_exact payload stream
  | responses payload => exact responsesImpl_exact payload
  | embeddings payload => exact embeddingsImpl_exact payload

/-- In every run of an accepted request, whatever its features and its deployment, the header and
the usage event agree if and only if the downgrade is not hidden. -/
theorem downgrade_visible_iff {S : Type} {E : Sem Cmd Cmd.Resp S} {env : S → S → Prop}
    {s s' : S} {reply : Except Raised Reply} {t : Calls}
    (hrun : (exchange w (handle w request)).Runs E env s [] reply s' t) (haccepted : Accepted t) :
    Visible reply t ↔ ¬ Hidden w request :=
  hrun.post (handle_exact request) haccepted

end

/-! ## A stream of a model without tools -/

/-- Tools, for a model that does not support them. -/
def toolsRequest (stream : Bool) : OpenAIRequest where
  model := some "gpt"
  stream := stream
  messages := []
  extra := [("tools", .list [.str "search"])]

def toolsWorld : World where
  user := ⟨7, none, none⟩
  requestId := "r1"
  member := "m1"
  responseCacheEnabled := false
  responseCacheTtlSeconds := 300
  parseInt := fun _ => none
  fingerprint := fun _ _ _ => "f"
  support := fun _ _ _ => some false
  accumulateAnthropicUsage := fun s _ => (s, none)
  accumulateGeminiUsage := fun s _ => (s, none)
  model := .ok ⟨1, "gpt", none, none⟩
  rules := []
  quota := .value { passed := true }
  cached := none
  router := true
  opened := .value {
    body := .none
    view := { model := some "small" }
    pulls := [.chunk { body := .none, view := { model := some "small" }, text := .ok "a" }
      .resumed] }
  starts := true
  lastRead := .resumed

def ToolsRun (stream : Bool) (reply : Except Raised Reply) (t : Calls) : Prop :=
  (exchange toolsWorld (handle toolsWorld (.chatCompletions (toolsRequest stream)))).Runs
    (fun _ (_ : Unit) _ _ => True) (fun _ _ => True) () [] reply () t

def Cmd.isCheckQuota : Cmd → Bool
  | .checkQuota .. => true
  | _ => false

theorem accepted_of_any {t : Calls} (h : t.any (fun e => e.cmd.isCheckQuota) = true) :
    Accepted t := by
  obtain ⟨⟨c, r⟩, he, hc⟩ := List.any_eq_true.1 h
  refine ⟨_, he, ?_⟩
  unfold Cmd.isCheckQuota at hc
  split at hc
  · next heq =>
    cases heq
    trivial
  · cases hc

theorem toolsRun_exists (stream : Bool) : ∃ reply t, ToolsRun stream reply t ∧ Accepted t := by
  have hrun {reply : Except Raised Reply} {t : Calls}
      (h : (exchange toolsWorld (handle toolsWorld (.chatCompletions (toolsRequest stream)))).tryRun
        (fun c s => some (succeeding c s)) () [] = some (reply, (), t)) : ToolsRun stream reply t :=
    Prog.runs_tryRun (fun _ => trivial) (fun _ => trivial) h
  cases stream with
  | true => exact ⟨_, _, hrun rfl, accepted_of_any rfl⟩
  | false => exact ⟨_, _, hrun rfl, accepted_of_any rfl⟩

theorem downgrade_visible_answer : ∃ reply t, ToolsRun false reply t ∧
    (Visible reply t ↔ ¬ Hidden toolsWorld (.chatCompletions (toolsRequest false))) := by
  obtain ⟨reply, t, hrun, haccepted⟩ := toolsRun_exists false
  exact ⟨reply, t, hrun, downgrade_visible_iff hrun haccepted⟩

/-- The event lists the tools, which the headers do not. -/
theorem streamed_downgrade_hidden : ∃ reply t, ToolsRun true reply t ∧ Accepted t ∧
    ¬ Visible reply t := by
  obtain ⟨reply, t, hrun, haccepted⟩ := toolsRun_exists true
  refine ⟨reply, t, hrun, haccepted, fun hvisible => ?_⟩
  refine (hrun.post (handle_exact _) haccepted).1 hvisible ?_
  refine ⟨_, _, rfl, ⟨⟨_, rfl⟩, rfl, rfl⟩, rfl, rfl, "small", rfl, by decide, "tools", ?_, rfl⟩
  decide

end Gateway.Handler
