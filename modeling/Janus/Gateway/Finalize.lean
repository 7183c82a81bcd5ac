import Janus.Gateway.Context

/-!
# The request finalizer (`gateway/finalize.py`)

Each step catches its own exceptions. Metrics and timings are left out.
-/

set_option autoImplicit false

namespace Gateway.Handler

open Conc RateLimit

/-- Settles against the reservations, or gives them back when the upstream did no work. -/
def settleQuota (ctx : GatewayRequestContext) (logicalModel : LogicalModel) :
    Io GatewayRequestContext := do
  if ctx.quotaSettled ∨ ¬ ctx.quotaReserved then
    pure ctx
  else
    tryExcept
      (do
        let shouldCompensate := ctx.promptTokens = 0 ∧ ctx.completionTokens = 0
        if ctx.quotaReservations ≠ [] then
          if shouldCompensate then
            settling (← call (.compensateReservations ctx.quotaReservations))
          else
            let cost := computeCost logicalModel ctx.promptTokens ctx.completionTokens
            settling (← call (.settleReservations ctx.quotaReservations ctx.totalTokens cost))
          pure { ctx with quotaSettled := true }
        else
          pure ctx)
      (fun e => do
        call (.recordBillingFailure "quota_settle" ctx.requestId e
          (.quota ctx.userId ctx.logicalModelId ctx.totalTokens))
        pure ctx)

def enqueueUsage (ctx : GatewayRequestContext) (logicalModel : LogicalModel) : Io Unit :=
  call (.enqueueUsageEvent {
    requestId := ctx.requestId
    userId := ctx.userId
    apiKeyId := ctx.apiKeyId
    logicalModelId := ctx.logicalModelId
    logicalModelName := ctx.logicalModelName
    channelId := ctx.channelId
    upstreamModel := ctx.upstreamModel
    promptTokens := ctx.promptTokens
    completionTokens := ctx.completionTokens
    totalTokens := ctx.totalTokens
    cost := computeCost logicalModel ctx.promptTokens ctx.completionTokens
    status := ctx.status
    cacheHit := ctx.cacheHit
    downgradedFeatures := ctx.downgradedFeatures })

def enqueueLog (ctx : GatewayRequestContext) : Io Unit :=
  call (.enqueueLogEvent {
    requestId := ctx.requestId
    userId := ctx.userId
    apiKeyId := ctx.apiKeyId
    logicalModelId := ctx.logicalModelId
    model := orText ctx.logicalModelName ctx.requestedModel
    channelId := ctx.channelId
    upstreamModel := ctx.upstreamModel
    provider := ctx.provider
    statusCode := ctx.httpStatusCode
    errorCode := ctx.errorCode
    tokensIn := ctx.promptTokens
    tokensOut := ctx.completionTokens
    cacheHit := ctx.cacheHit
    stream := ctx.stream })

/-- The error class is the error code, which no handler sets, or the status. -/
def recordChannelHealth (ctx : GatewayRequestContext) : Io Unit :=
  match ctx.channelId with
  | none => pure ()
  | some channelId =>
    let success : Bool := ctx.status = .success
    call (.recordChannelHealth channelId success (if success then none else some ctx.status))

def ruleIdentity (rule : Rule) : RuleIdentity :=
  ⟨rule.id, rule.subjectType, rule.subjectId, rule.logicalModelId⟩

/-- `_settle_tpm`: the reservation less the actual usage, either sign. -/
def settleTpmOf (ctx : GatewayRequestContext) (rules : List Rule) : Io Unit := do
  if rules ≠ [] then
    let reservedTokens :=
      if ctx.tpmEstimatedTokens = 0 then estimatedTokensPerRequest else ctx.tpmEstimatedTokens
    let deltaTokens := reservedTokens - ctx.totalTokens
    tryExcept
      (do settling (← call (.settleTpm rules deltaTokens)))
      (fun e => call (.recordBillingFailure "tpm_settle" ctx.requestId e
        (.tpm deltaTokens reservedTokens ctx.totalTokens (rules.map ruleIdentity))))

def finalizeGatewayRequest (ctx : GatewayRequestContext) (logicalModel : LogicalModel)
    (rules : List Rule) (reservations : List QuotaReservation) : Io Unit := do
  let ctx := if reservations ≠ [] then { ctx with quotaReservations := reservations } else ctx
  let ctx ← settleQuota ctx logicalModel
  enqueueUsage ctx logicalModel
  enqueueLog ctx
  recordChannelHealth ctx
  settleTpmOf ctx rules

end Gateway.Handler
