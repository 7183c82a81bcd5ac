import Janus.Gateway.Proof.Accounts
import Janus.Gateway.Settlement

/-!
# What a request consumed

The quota step asks whether the prompt and the completion are zero, the TPM step and the usage event
take the total. `charged` is what the calls of the quota step leave of a reservation, once carried
out. `consumption_agrees_iff`: the three agree unless a usage with tokens is given back, or one
without a total leaves a request or a cost charged. The OpenAI extractor takes the three numbers as
they come; that of Anthropic adds them up, so the three always agree there (`anthropic_coherent`).
-/

set_option autoImplicit false

namespace Gateway.Handler

open Conc Python RateLimit

/-! ## The calls of a trace that say what was consumed -/

def Cmd.bills : Cmd → Bool
  | .settleReservations .. | .compensateReservations _ | .settleTpm .. | .enqueueUsageEvent _ => true
  | _ => false

/-- In the order of the calls. -/
def billing : Calls → List Cmd
  | [] => []
  | e :: t => billing t ++ [e.cmd].filter Cmd.bills

def quotaCalls (t : Calls) : List Cmd := (billing t).filter (·.kind = some .quota)

def tpmDeltas (t : Calls) : List Int :=
  (billing t).filterMap fun
    | .settleTpm _ deltaTokens => some deltaTokens
    | _ => none

def recordedTotals (t : Calls) : List Int :=
  (billing t).filterMap fun
    | .enqueueUsageEvent payload => some payload.totalTokens
    | _ => none

/-- Whatever was called before, `p` makes the billing calls `l` and ends as `O` says. -/
def Bills {α : Type} (l : List Cmd) (O : Except Raised α → Prop) (p : Io α) : Prop :=
  ∀ t : Calls, Raising.Follows (fun _ _ => True)
    (fun outcome t' => O outcome ∧ billing t' = billing t ++ l) p t

namespace Bills

variable {α β : Type} {l l' : List Cmd} {O P : Except Raised α → Prop}

theorem pure {a : α} (h : O (.ok a)) : Bills [] O (Pure.pure a) :=
  fun _ => Raising.Follows.pure ⟨h, (List.append_nil _).symm⟩

theorem raise {e : Exn} (h : O (.error (.exception e))) : Bills [] O (Handler.raise e) :=
  fun _ => Raising.Follows.throw ⟨h, (List.append_nil _).symm⟩

theorem call {c : Cmd} {O : Except Raised (Cmd.Resp c) → Prop} (h : ∀ r, O (.ok r)) :
    Bills ([c].filter Cmd.bills) O (Handler.call c) :=
  fun _ => Raising.Follows.cmd trivial fun r => ⟨h r, rfl⟩

/-- A part, and the rest: where the part can raise, the rest bills nothing. -/
theorem bind {p : Io α} {f : α → Io β} {O : Except Raised β → Prop} (hp : Bills l P p)
    (herror : ∀ e, P (.error e) → O (.error e) ∧ l' = [])
    (hf : ∀ a, P (.ok a) → Bills l' O (f a)) : Bills (l ++ l') O (p >>= f) := by
  refine fun t => Raising.Follows.bind (hp t) (fun a t' h => ?_) fun e t' h => ?_
  · refine (hf a h.1 t').mono fun o t'' h' => ⟨h'.1, ?_⟩
    rw [h'.2, h.2, List.append_assoc]
  · obtain ⟨hO, rfl⟩ := herror e h.1
    exact ⟨hO, by rw [h.2, List.append_nil]⟩

/-- A part that returns, and the rest. -/
theorem follow {p : Io α} {f : α → Io β} {O : Except Raised β → Prop} (hp : Bills l Returns p)
    (hf : ∀ a, Bills l' O (f a)) : Bills (l ++ l') O (p >>= f) :=
  bind hp (fun _ h => by cases h) fun a _ => hf a

/-- A part that returns, and the rest bills nothing. -/
theorem last {p : Io α} {f : α → Io β} {O : Except Raised β → Prop} (hp : Bills l Returns p)
    (hf : ∀ a, Bills [] O (f a)) : Bills l O (p >>= f) := by
  rw [← List.append_nil l]
  exact follow hp hf

/-- A part whose exceptions are all handled. -/
theorem caught {p : Io α} {handler : Exn → Io α} (hp : Bills l P p)
    (hcatch : ∀ outcome, P outcome → Catchable outcome) (hok : ∀ a, P (.ok a) → O (.ok a))
    (hhandler : ∀ x, Bills [] O (handler x)) : Bills l O (Handler.tryExcept p handler) := by
  refine fun t => Raising.Follows.tryCatch (hp t) (fun a t' h => ⟨hok a h.1, h.2⟩)
    fun e t' h => ?_
  obtain ⟨x, rfl⟩ := hcatch _ h.1 e rfl
  refine (hhandler x t').mono fun o t'' h' => ⟨h'.1, ?_⟩
  rw [h'.2, h.2, List.append_nil]

end Bills

/-! ## What the finalizer calls -/

section Finalizer

variable (ctx : GatewayRequestContext) (logicalModel : LogicalModel) (rules : List Rule)
  (reservations : List QuotaReservation)

/-- The context once the finalizer has its reservations. -/
def captured : GatewayRequestContext :=
  if reservations ≠ [] then { ctx with quotaReservations := reservations } else ctx

/-- The reservations that the quota step settles or gives back. -/
def openReservations : List QuotaReservation :=
  if ctx.quotaSettled ∨ ¬ ctx.quotaReserved then [] else ctx.quotaReservations

def reservedTokens : Int :=
  if ctx.tpmEstimatedTokens = 0 then estimatedTokensPerRequest else ctx.tpmEstimatedTokens

def quotaBill : List Cmd :=
  if openReservations ctx = [] then []
  else if ctx.promptTokens = 0 ∧ ctx.completionTokens = 0 then
    [.compensateReservations (openReservations ctx)]
  else
    [.settleReservations (openReservations ctx) ctx.totalTokens
      (computeCost logicalModel ctx.promptTokens ctx.completionTokens)]

def tpmBill : List Cmd :=
  if rules = [] then [] else [.settleTpm rules (reservedTokens ctx - ctx.totalTokens)]

/-- What the quota step leaves, where it returns, is the context with or without its flag. -/
def Flagged (outcome : Except Raised GatewayRequestContext) : Prop :=
  ∀ ctx', outcome = .ok ctx' → ∃ settled, ctx' = { ctx with quotaSettled := settled }

/-- A settlement that may fail, then the flag. -/
theorem settle_bills {l : List Cmd} {p : Io (Except Exn Unit)} (hp : Bills l Returns p) :
    Bills l (fun outcome => Catchable outcome ∧ Flagged ctx outcome)
      (p >>= fun answer => settling answer >>= fun _ => pure { ctx with quotaSettled := true }) := by
  refine Bills.last hp fun answer => ?_
  cases answer with
  | ok u =>
    refine Bills.pure ⟨catchable_ok _, fun ctx' h => ?_⟩
    cases h
    exact ⟨true, rfl⟩
  | error e =>
    refine Bills.raise ⟨fun e' h => ?_, fun ctx' h => ?_⟩
    · cases h
      exact ⟨e, rfl⟩
    · cases h

theorem settleQuota_bills : Bills (quotaBill ctx logicalModel)
    (fun outcome => Returns outcome ∧ Flagged ctx outcome) (settleQuota ctx logicalModel) := by
  have hunchanged : Flagged ctx (.ok ctx) := by
    intro ctx' h
    cases h
    exact ⟨ctx.quotaSettled, rfl⟩
  unfold settleQuota quotaBill openReservations
  by_cases hskip : ctx.quotaSettled ∨ ¬ ctx.quotaReserved
  · rw [if_pos hskip, if_pos hskip, if_pos rfl]
    exact Bills.pure ⟨rfl, hunchanged⟩
  · simp only [if_neg hskip]
    refine Bills.caught (P := fun outcome => Catchable outcome ∧ Flagged ctx outcome) ?_
      (fun _ h => h.1) (fun _ h => ⟨rfl, h.2⟩) fun x => ?_
    · by_cases hnil : ctx.quotaReservations = []
      · simp only [hnil, ne_eq, not_true_eq_false, if_false, if_true]
        exact Bills.pure ⟨catchable_ok _, hunchanged⟩
      · simp only [hnil, ne_eq, not_false_iff, if_true, if_false]
        split
        · exact settle_bills ctx (Bills.call fun _ => rfl)
        · exact settle_bills ctx (Bills.call fun _ => rfl)
    · exact Bills.follow (l := []) (Bills.call fun _ => rfl) fun _ => Bills.pure ⟨rfl, hunchanged⟩

theorem settleTpmOf_bills : Bills (tpmBill ctx rules) Returns (settleTpmOf ctx rules) := by
  unfold settleTpmOf tpmBill
  by_cases hnil : rules = []
  · rw [if_neg (not_not.2 hnil), if_pos hnil]
    exact Bills.pure rfl
  · rw [if_pos hnil, if_neg hnil]
    refine Bills.caught (P := Catchable) ?_ (fun _ h => h) (fun _ _ => rfl) fun _ =>
      Bills.call fun _ => rfl
    refine Bills.last (Bills.call fun _ => rfl) fun answer => ?_
    cases answer with
    | ok u => exact Bills.pure (catchable_ok u)
    | error e =>
      refine Bills.raise fun e' h => ?_
      cases h
      exact ⟨e, rfl⟩

theorem enqueueUsage_bills : ∃ payload : UsageEvent, payload.totalTokens = ctx.totalTokens ∧
    Bills [.enqueueUsageEvent payload] Returns (enqueueUsage ctx logicalModel) :=
  ⟨_, rfl, Bills.call fun _ => rfl⟩

theorem finalizeGatewayRequest_bills : ∃ payload : UsageEvent,
    payload.totalTokens = ctx.totalTokens ∧
      Bills (quotaBill (captured ctx reservations) logicalModel ++ (.enqueueUsageEvent payload ::
          tpmBill ctx rules)) Returns
        (finalizeGatewayRequest ctx logicalModel rules reservations) := by
  have hfields : (captured ctx reservations).totalTokens = ctx.totalTokens ∧
      tpmBill (captured ctx reservations) rules = tpmBill ctx rules := by
    unfold captured
    split <;> exact ⟨rfl, rfl⟩
  obtain ⟨payload, htotal, hevent⟩ := enqueueUsage_bills (captured ctx reservations) logicalModel
  refine ⟨payload, htotal.trans hfields.1, ?_⟩
  rw [← hfields.2]
  refine Bills.bind (settleQuota_bills (captured ctx reservations) logicalModel)
    (fun _ h => by cases h.1) fun ctx' h => ?_
  obtain ⟨settled, rfl⟩ := h.2 ctx' rfl
  refine Bills.follow (l := [.enqueueUsageEvent payload]) hevent fun _ => ?_
  refine Bills.follow (l := []) (Bills.call fun _ => rfl) fun _ => ?_
  refine Bills.follow (l := []) ?_ fun _ => settleTpmOf_bills (captured ctx reservations) rules
  unfold recordChannelHealth
  split
  · exact Bills.pure rfl
  · exact Bills.call fun _ => rfl

end Finalizer

/-! ## Agreement -/

/-- What a call adds to the counter of a reservation. -/
def Cmd.adjustment (decimal : Rat → Decimal) (res : QuotaReservation) : Cmd → Int
  | .settleReservations reservations actualTokens actualCost =>
    if res ∈ reservations then QuotaEnforcer.settlementAdjustmentForMetric (metricOf res.metric)
      res.reserved actualTokens (actualCost.map decimal)
    else 0
  | .compensateReservations reservations => if res ∈ reservations then -res.reserved else 0
  | _ => 0

/-- What is charged in the end where `res` was reserved. -/
def charged (decimal : Rat → Decimal) (t : Calls) (res : QuotaReservation) : Int :=
  res.reserved + ((quotaCalls t).map (Cmd.adjustment decimal res)).sum

/-- Nothing is charged on any quota, the TPM reservation is given back in full, and the usage event
records no tokens. -/
structure ConsumesNothing (decimal : Rat → Decimal) (reservations : List QuotaReservation)
    (rules : List Rule) (reserved : Int) (t : Calls) : Prop where
  quota : ∀ res ∈ reservations, charged decimal t res = 0
  tpm : tpmDeltas t = if rules = [] then [] else [reserved]
  recorded : recordedTotals t = [0]

/-- The token quotas are charged `n`, the TPM reservation is adjusted to `n`, and the usage event
records `n`. -/
structure Charges (decimal : Rat → Decimal) (n : Int) (reservations : List QuotaReservation)
    (rules : List Rule) (reserved : Int) (t : Calls) : Prop where
  pos : 0 < n
  quota : ∀ res ∈ reservations, res.metric = .tokens → charged decimal t res = n
  tpm : tpmDeltas t = if rules = [] then [] else [reserved - n]
  recorded : recordedTotals t = [n]

/-- One amount everywhere. -/
def Agrees (decimal : Rat → Decimal) (reservations : List QuotaReservation) (rules : List Rule)
    (reserved : Int) (t : Calls) : Prop :=
  ConsumesNothing decimal reservations rules reserved t ∨
    ∃ n, Charges decimal n reservations rules reserved t

/-- Where the quota step finds no work, there is no total, or no token quota; where it finds work
without a total, no quota counts requests, and the cost of the work is nothing on any quota. -/
structure Coherent (decimal : Rat → Decimal) (ctx : GatewayRequestContext)
    (logicalModel : LogicalModel) (reservations : List QuotaReservation) : Prop where
  idle : ctx.promptTokens = 0 ∧ ctx.completionTokens = 0 → ctx.totalTokens ≠ 0 →
    ∀ res ∈ reservations, res.metric ≠ .tokens
  requests : ¬ (ctx.promptTokens = 0 ∧ ctx.completionTokens = 0) → ctx.totalTokens = 0 →
    ∀ res ∈ reservations, res.metric = .requests → res.reserved = 0
  cost : ¬ (ctx.promptTokens = 0 ∧ ctx.completionTokens = 0) → ctx.totalTokens = 0 →
    ∀ res ∈ reservations, res.metric = .cost → QuotaEnforcer.toMicro
      ((computeCost logicalModel ctx.promptTokens ctx.completionTokens).map decimal) = 0

section Agreement

variable {ctx : GatewayRequestContext} {logicalModel : LogicalModel} {rules : List Rule}
  {reservations : List QuotaReservation} {S : Type} {E : Sem Cmd Cmd.Resp S} {env : S → S → Prop}
  {s s' : S} {outcome : Except Raised Unit} {t : Calls} {decimal : Rat → Decimal}
  {opened : List QuotaReservation} {res : QuotaReservation} {reserved : Int}

theorem captured_usage (ctx : GatewayRequestContext) (reservations : List QuotaReservation) :
    (captured ctx reservations).promptTokens = ctx.promptTokens ∧
    (captured ctx reservations).completionTokens = ctx.completionTokens ∧
      (captured ctx reservations).totalTokens = ctx.totalTokens := by
  unfold captured
  split <;> exact ⟨rfl, rfl, rfl⟩

/-- What the three consumers of a run are told. -/
theorem finalize_tells (hrun : (finalizeGatewayRequest ctx logicalModel rules reservations).run.Runs
    E env s [] outcome s' t) :
    quotaCalls t = quotaBill (captured ctx reservations) logicalModel ∧
      tpmDeltas t = (if rules = [] then [] else [reservedTokens ctx - ctx.totalTokens]) ∧
        recordedTotals t = [ctx.totalTokens] := by
  obtain ⟨payload, htotal, hbills⟩ := finalizeGatewayRequest_bills ctx logicalModel rules reservations
  have hbilling : billing t = quotaBill (captured ctx reservations) logicalModel ++
      (.enqueueUsageEvent payload :: tpmBill ctx rules) := (hrun.post (hbills [])).2
  unfold quotaCalls tpmDeltas recordedTotals
  rw [hbilling]
  unfold quotaBill tpmBill
  refine ⟨?_, ?_, ?_⟩
  · split
    · split <;> simp [Cmd.kind]
    · split <;> split <;> simp [Cmd.kind]
  · split
    · split <;> simp
    · split <;> split <;> simp
  · split
    · split <;> simp [htotal]
    · split <;> split <;> simp [htotal]

/-- A reservation that is given back. -/
theorem charged_compensated (h : quotaCalls t = [.compensateReservations opened])
    (hres : res ∈ opened) : charged decimal t res = 0 := by
  unfold charged
  rw [h, List.map_singleton, List.sum_singleton, Cmd.adjustment, if_pos hres]
  omega

/-- A reservation that is settled. -/
theorem charged_settled {n : Int} {cost : Option Rat}
    (h : quotaCalls t = [.settleReservations opened n cost]) (hres : res ∈ opened) :
    charged decimal t res = match res.metric with
      | .tokens => n
      | .requests => res.reserved
      | .cost => QuotaEnforcer.toMicro (cost.map decimal) := by
  unfold charged
  rw [h, List.map_singleton, List.sum_singleton, Cmd.adjustment, if_pos hres]
  cases res.metric with
  | tokens =>
    show res.reserved + (n - res.reserved) = n
    omega
  | requests => exact Int.add_zero _
  | cost =>
    show res.reserved + (QuotaEnforcer.toMicro _ - res.reserved) = QuotaEnforcer.toMicro _
    omega

/-- The usage event says which of the two it must be. -/
theorem agrees_iff {total : Int} (hpos : 0 ≤ total)
    (htpm : tpmDeltas t = if rules = [] then [] else [reserved - total])
    (hrecorded : recordedTotals t = [total]) :
    Agrees decimal opened rules reserved t ↔
      (total = 0 → ∀ res ∈ opened, charged decimal t res = 0) ∧
        (total ≠ 0 → ∀ res ∈ opened, res.metric = .tokens → charged decimal t res = total) := by
  constructor
  · rintro (h | ⟨n, h⟩)
    · have hzero : total = 0 := List.singleton_inj.1 (hrecorded.symm.trans h.recorded)
      exact ⟨fun _ => h.quota, fun hne => absurd hzero hne⟩
    · have hn : total = n := List.singleton_inj.1 (hrecorded.symm.trans h.recorded)
      have hpos := h.pos
      subst hn
      exact ⟨fun hzero => by omega, fun _ => h.quota⟩
  · rintro ⟨hnothing, hcharges⟩
    by_cases hzero : total = 0
    · subst hzero
      rw [Int.sub_zero] at htpm
      exact .inl ⟨hnothing rfl, htpm, hrecorded⟩
    · exact .inr ⟨total, by omega, hcharges hzero, htpm, hrecorded⟩

/-- The three consumers agree exactly if their readings of the usage do. -/
theorem consumption_agrees_iff (decimal : Rat → Decimal)
    (hrun : (finalizeGatewayRequest ctx logicalModel rules reservations).run.Runs E env s [] outcome
      s' t) (htotal : 0 ≤ ctx.totalTokens) :
    Agrees decimal (openReservations (captured ctx reservations)) rules (reservedTokens ctx) t ↔
      Coherent decimal ctx logicalModel (openReservations (captured ctx reservations)) := by
  obtain ⟨hquota, htpm, hrecorded⟩ := finalize_tells hrun
  obtain ⟨hprompt, hcompletion, htotal'⟩ := captured_usage ctx reservations
  unfold quotaBill at hquota
  rw [hprompt, hcompletion, htotal'] at hquota
  rw [agrees_iff htotal htpm hrecorded]
  generalize openReservations (captured ctx reservations) = opened at hquota ⊢
  by_cases hnil : opened = []
  · -- no quota to agree with
    subst hnil
    exact iff_of_true ⟨fun _ _ h => absurd h List.not_mem_nil, fun _ _ h => absurd h List.not_mem_nil⟩
      ⟨fun _ _ _ h => absurd h List.not_mem_nil, fun _ _ _ h => absurd h List.not_mem_nil,
        fun _ _ _ h => absurd h List.not_mem_nil⟩
  rw [if_neg hnil] at hquota
  by_cases hwork : ctx.promptTokens = 0 ∧ ctx.completionTokens = 0
  · rw [if_pos hwork] at hquota
    constructor
    · rintro ⟨-, hcharges⟩
      refine ⟨fun _ hne res hres hmetric => hne ?_, fun h => absurd hwork h, fun h => absurd hwork h⟩
      exact (hcharges hne res hres hmetric).symm.trans (charged_compensated hquota hres)
    · intro h
      exact ⟨fun _ res hres => charged_compensated hquota hres,
        fun hne res hres hmetric => absurd hmetric (h.idle hwork hne res hres)⟩
  · rw [if_neg hwork] at hquota
    have hsettled {res : QuotaReservation} (hres : res ∈ opened) : charged decimal t res = _ :=
      charged_settled hquota hres
    constructor
    · rintro ⟨hnothing, -⟩
      refine ⟨fun h => absurd h hwork, fun _ hzero res hres hmetric => ?_,
        fun _ hzero res hres hmetric => ?_⟩
      · have hcharged := hnothing hzero res hres
        rwa [hsettled hres, hmetric] at hcharged
      · have hcharged := hnothing hzero res hres
        rwa [hsettled hres, hmetric] at hcharged
    · intro h
      refine ⟨fun hzero res hres => ?_, fun hne res hres hmetric => ?_⟩
      · rw [hsettled hres]
        cases hmetric : res.metric with
        | tokens => exact hzero
        | requests => exact h.requests hwork hzero res hres hmetric
        | cost => exact h.cost hwork hzero res hres hmetric
      · rw [hsettled hres, hmetric]

end Agreement

/-! ## What the extractors promise -/

section Extractors

variable {parse : String → Option Int} {response : Value} {usage : Usage}

theorem ok_of_bind {α β ε : Type} {x : Except ε α} {f : α → Except ε β} {b : β}
    (h : (x >>= f) = .ok b) : ∃ a, x = .ok a ∧ f a = .ok b := by
  cases x with
  | ok a => exact ⟨a, rfl, h⟩
  | error e => cases h

theorem anthropic_total (h : extractAnthropicUsage parse response = .ok usage) :
    usage.totalTokens = usage.promptTokens + usage.completionTokens := by
  have hmapping (respUsage : Value) (hm : (do
      let input ← (← getItem respUsage "input_tokens" (.int 0)).toInt parse
      let output ← (← getItem respUsage "output_tokens" (.int 0)).toInt parse
      pure ⟨input, output, input + output⟩) = Except.ok usage) :
      usage.totalTokens = usage.promptTokens + usage.completionTokens := by
    obtain ⟨_, -, hm⟩ := ok_of_bind hm
    obtain ⟨_, -, hm⟩ := ok_of_bind hm
    obtain ⟨_, -, hm⟩ := ok_of_bind hm
    obtain ⟨_, -, hm⟩ := ok_of_bind hm
    cases hm
    rfl
  unfold extractAnthropicUsage at h
  split at h
  · exact hmapping _ h
  · dsimp only at h
    split at h
    · obtain ⟨_, -, h⟩ := ok_of_bind h
      obtain ⟨_, -, h⟩ := ok_of_bind h
      cases h
      rfl
    · exact hmapping _ h

/-- What an Anthropic answer reports is charged and recorded alike. -/
theorem anthropic_coherent {decimal : Rat → Decimal} {ctx : GatewayRequestContext}
    {logicalModel : LogicalModel} {reservations : List QuotaReservation}
    (h : extractAnthropicUsage parse response = .ok usage) (hprompt : 0 ≤ usage.promptTokens)
    (hcompletion : 0 ≤ usage.completionTokens) :
    Coherent decimal (ctx.setUsage usage) logicalModel reservations := by
  have htotal := anthropic_total h
  have hidle : usage.promptTokens = 0 ∧ usage.completionTokens = 0 ↔ usage.totalTokens = 0 := by
    omega
  exact ⟨fun hzero hne => absurd (hidle.1 hzero) hne, fun hne hzero => absurd (hidle.2 hzero) hne,
    fun hne hzero => absurd (hidle.2 hzero) hne⟩

end Extractors

/-! ## A reply without a total -/

def billedRule : Rule where
  id := 1
  subjectType := "global"
  subjectId := none
  logicalModelId := none
  rpmLimit := none
  tpmLimit := some 1000
  tpmBurstLimit := none
  maxConcurrent := none

def billedReservation : QuotaReservation where
  key := "quota:g:0:total:tokens"
  quotaId := 1
  metric := .tokens
  scope := .global
  enforce := true
  limitValue := 1000
  reserved := 100

def billedRequest : QuotaReservation where
  key := "quota:g:0:total:requests"
  quotaId := 2
  metric := .requests
  scope := .global
  enforce := true
  limitValue := 1000
  reserved := 1

def billedContext (usage : Usage) : GatewayRequestContext :=
  { requestId := "r1", userId := 7, departmentId := none, apiKeyId := none,
    requestedModel := some "gpt", logicalModelId := some 1, logicalModelName := some "gpt",
    promptTokens := usage.promptTokens, completionTokens := usage.completionTokens,
    totalTokens := usage.totalTokens, quotaReserved := true, tpmEstimatedTokens := 100 }

/-- A run of the finalizer on this usage, with a token and a request quota. -/
def FinalizerRun (usage : Usage) (outcome : Except Raised Unit) (t : Calls) : Prop :=
  (finalizeGatewayRequest (billedContext usage) ⟨1, "gpt", none, none⟩ [billedRule]
    [billedReservation, billedRequest]).run.Runs (fun _ (_ : Unit) _ _ => True) (fun _ _ => True) () []
      outcome () t

theorem finalizerRun_exists (usage : Usage) : ∃ outcome t, FinalizerRun usage outcome t := by
  unfold FinalizerRun
  exact ⟨_, Prog.runs_eval (f := succeeding) (fun _ => trivial) (fun _ _ => trivial) _ () []⟩

/-- The TPM reservation is given back and 0 tokens are recorded, with a request charged. -/
theorem no_total_disagrees : ∃ response usage,
    extractUsage (fun _ => none) response = .ok usage ∧ 0 ≤ usage.promptTokens ∧
      0 ≤ usage.completionTokens ∧ 0 ≤ usage.totalTokens ∧
        ∃ outcome t, FinalizerRun usage outcome t ∧ recordedTotals t = [0] ∧
          (∀ decimal, charged decimal t billedRequest = 1) ∧
          ∀ decimal, ¬ Agrees decimal [billedReservation, billedRequest] [billedRule] 100 t := by
  refine ⟨.dict [("usage", .dict [("prompt_tokens", .int 5), ("completion_tokens", .int 7)])],
    ⟨5, 7, 0⟩, by rfl, by decide, by decide, by decide, ?_⟩
  obtain ⟨outcome, t, hrun⟩ := finalizerRun_exists ⟨5, 7, 0⟩
  obtain ⟨hquota, -, hrecorded⟩ := finalize_tells hrun
  have hcharged (decimal : Rat → Decimal) : charged decimal t billedRequest = 1 :=
    charged_settled hquota (List.mem_cons_of_mem _ List.mem_cons_self)
  refine ⟨outcome, t, hrun, hrecorded, hcharged, fun decimal h => ?_⟩
  rcases h with h | ⟨n, h⟩
  · have hnothing := h.quota billedRequest (List.mem_cons_of_mem _ List.mem_cons_self)
    rw [hcharged] at hnothing
    cases hnothing
  · have hn := List.singleton_inj.1 (hrecorded.symm.trans h.recorded)
    have hpos := h.pos
    rw [← hn] at hpos
    exact absurd hpos (by decide)

theorem agrees_with_total : ∃ outcome t, FinalizerRun ⟨5, 7, 12⟩ outcome t ∧
    ∀ decimal, Agrees decimal [billedReservation, billedRequest] [billedRule] 100 t := by
  obtain ⟨outcome, t, hrun⟩ := finalizerRun_exists ⟨5, 7, 12⟩
  refine ⟨outcome, t, hrun, fun decimal => (consumption_agrees_iff decimal hrun (by decide)).2 ?_⟩
  exact ⟨fun h => absurd h.1 (by decide), fun _ h => absurd h (by decide),
    fun _ h => absurd h (by decide)⟩

end Gateway.Handler
