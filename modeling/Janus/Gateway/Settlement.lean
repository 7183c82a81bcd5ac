import Janus.Conc.Fault
import Janus.Gateway.Finalize
import Janus.Gateway.Quota

/-!
# Finalization on Redis

The calls of the finalizer that settle, on the quota counters and the limiter's buckets. In each of
the two steps one Redis command may fail; what the finalizer then writes to the billing dead letters
is kept. The other calls change no counter and no bucket.

* `perform`: the calls.
* `finalizeOn`: a finalization, and the context that it leaves. `finalizeTwice`: two of them.
-/

set_option autoImplicit false

namespace Gateway.Handler

open Conc Python RateLimit

structure Limits where
  quota : QuotaEnforcer.State
  limiter : RateLimit.State

/-- An entry of the billing dead letters. -/
structure BillingFailure where
  kind : String
  requestId : String
  error : Exn
  detail : BillingDetail
deriving DecidableEq

/-- The limits, the faults still to come in the two steps, and the dead letters, newest last. -/
structure Books where
  limits : Limits
  quotaFault : Option Fault := none
  tpmFault : Option Fault := none
  deadLetters : List BillingFailure := []

def metricOf : QuotaMetric → QuotaEnforcer.QuotaMetric
  | .tokens => .tokens
  | .requests => .requests
  | .cost => .cost

def scopeOf : QuotaScope → QuotaEnforcer.QuotaScope
  | .user => .user
  | .department => .department
  | .global => .global

section

variable (keyOf : String → QuotaEnforcer.Key) (decimal : Rat → Decimal)

/-- A reservation as the enforcer reads it. -/
def enforced (res : QuotaReservation) : QuotaEnforcer.QuotaReservation where
  key := keyOf res.key
  quotaId := res.quotaId
  metric := metricOf res.metric
  scope := scopeOf res.scope
  enforce := res.enforce
  limitValue := decimal res.limitValue
  reserved := res.reserved

/-- The answer of a settlement that may stop. -/
def answerOf (outcome : Option Unit) : Except Exn Unit :=
  match outcome with
  | some () => .ok ()
  | none => .error .redis

/-- A settlement of the quotas, of which one command may fail. -/
def onQuota (p : Prog QuotaEnforcer.Cmd QuotaEnforcer.Cmd.Resp Unit) (b : Books) :
    Except Exn Unit × Books :=
  let (outcome, fault, quota) := p.tryEval (withFault (fun _ => true) (QuotaEnforcer.Cmd.run .compensate))
    (b.quotaFault, b.limits.quota)
  (answerOf outcome, { b with quotaFault := fault, limits := { b.limits with quota } })

/-- A settlement of the buckets, of which one command may fail. -/
def onLimiter (p : RateLimit.Io Unit) (b : Books) : Except Exn Unit × Books :=
  let (outcome, fault, limiter) := p.run.tryEval (withFault (fun _ => true) RateLimit.Cmd.run)
    (b.tpmFault, b.limits.limiter)
  (answerOf (outcome.map fun _ => ()), { b with
    tpmFault := fault, limits := { b.limits with limiter } })

def perform : (c : Cmd) → Books → c.Resp × Books
  | .settleReservations reservations actualTokens actualCost, b =>
    onQuota (QuotaEnforcer.settleReservations (reservations.map (enforced keyOf decimal)) actualTokens
      (actualCost.map decimal)) b
  | .compensateReservations reservations, b =>
    onQuota (QuotaEnforcer.compensateReservations (reservations.map (enforced keyOf decimal))) b
  | .settleTpm rules deltaTokens, b => onLimiter (RateLimit.settleTpm rules deltaTokens) b
  | .recordBillingFailure kind requestId error detail, b =>
    ((), { b with deadLetters := b.deadLetters ++ [⟨kind, requestId, error, detail⟩] })
  | .checkRateLimits .., b => ({ allowed := true }, b)
  | .checkQuota .., b => ((), b)
  | .releaseRpm .., b => ((), b)
  | .releaseConcurrent .., b => ((), b)
  | .enqueueUsageEvent _, b => ((), b)
  | .enqueueLogEvent _, b => ((), b)
  | .recordChannelHealth .., b => ((), b)
  | .callUpstream .., b => ((), b)
  | .setCachedResponse .., b => ((), b)
  | .spawnFinalizer _, b => ((), b)
  | .aclose, b => ((), b)
  | .yield .., b => ((), b)

/-- `finalize_gateway_request`, with the context that it has changed. -/
def finalizeContext (ctx : GatewayRequestContext) (logicalModel : LogicalModel) (rules : List Rule)
    (reservations : List QuotaReservation) : Io GatewayRequestContext := do
  let ctx := if reservations ≠ [] then { ctx with quotaReservations := reservations } else ctx
  let ctx ← settleQuota ctx logicalModel
  enqueueUsage ctx logicalModel
  enqueueLog ctx
  recordChannelHealth ctx
  settleTpmOf ctx rules
  pure ctx

theorem finalizeGatewayRequest_eq (ctx : GatewayRequestContext) (logicalModel : LogicalModel)
    (rules : List Rule) (reservations : List QuotaReservation) :
    finalizeGatewayRequest ctx logicalModel rules reservations =
      (do let _ ← finalizeContext ctx logicalModel rules reservations; pure ()) := by
  simp [finalizeGatewayRequest, finalizeContext]

/-- What a finalization is given. -/
structure Finalization where
  ctx : GatewayRequestContext
  logicalModel : LogicalModel
  rules : List Rule
  reservations : List QuotaReservation

/-- The finalization on the books. -/
def finalizeOn (z : Finalization) (b : Books) : Except Raised GatewayRequestContext × Books :=
  (finalizeContext z.ctx z.logicalModel z.rules z.reservations).run.eval (perform keyOf decimal) b

/-- A finalization in which nothing fails. -/
def finalizeOnce (z : Finalization) (limits : Limits) : Limits :=
  (finalizeOn keyOf decimal z { limits }).2.limits

/-- A finalization in which commands may fail, and a second one on the context that it leaves. -/
def finalizeTwice (z : Finalization) (limits : Limits) (quotaFault tpmFault : Option Fault) :
    Limits :=
  let (outcome, b) := finalizeOn keyOf decimal z { limits, quotaFault, tpmFault }
  let ctx :=
    match outcome with
    | .ok ctx => ctx
    | .error _ => z.ctx
  finalizeOnce keyOf decimal { z with ctx } b.limits

end

end Gateway.Handler
