import Janus.Conc.Raising
import Janus.Exceptions
import Janus.Gateway.RateLimit
import Janus.Gateway.Usage

/-!
# The world of one gateway request (`gateway/context.py` and what the handlers call)

A handler is a program over the calls that change anything (`Cmd`); what it only learns from the
outside, the database, litellm and the client, is an argument (`World`). `Raised` separates
`Exception` from the two ways a coroutine is torn down, which no `except Exception` sees.

The quota check, the upstream call and the rollback may be cancelled; the finalizer is not, which a
stream runs shielded. Clock readings are left out: a stream's pulls say when a timer fires.
-/

set_option autoImplicit false

namespace Gateway.Handler

open Conc Janus Python RateLimit

/-! ## Exceptions -/

inductive LitellmError
  | timeout
  | rateLimit
  | other
deriving DecidableEq, Repr

/-- `timeout` is Python's own `TimeoutError`, which litellm's is not. -/
inductive Exn
  | app (e : AppError)
  | python (e : Python.Error)
  | litellm (e : LitellmError)
  | redis
  | timeout
  | other
deriving DecidableEq, Repr

inductive Raised
  | exception (e : Exn)
  | cancelled
  | generatorExit
deriving DecidableEq, Repr

/-- How an awaited call ends. -/
inductive Awaited (T : Type)
  | value (a : T)
  | raises (e : Exn)
  | cancelled

/-! ## What the handlers pass around -/

structure AuthenticatedUser where
  userId : Int
  departmentId : Option Int
  apiKeyId : Option Int

structure QuotaReservation where
  key : String
  quotaId : Int
  metric : QuotaMetric
  scope : QuotaScope
  enforce : Bool
  limitValue : Rat
  reserved : Int := 1
deriving DecidableEq

structure QuotaWarning where
  quotaId : Int
  metric : QuotaMetric
  period : QuotaPeriod
  current : Rat
  limit : Rat

structure QuotaCheckResult where
  passed : Bool
  warnings : List QuotaWarning := []
  reservations : List QuotaReservation := []

inductive UsageStatus
  | success
  | error
  | timeout
deriving DecidableEq, Repr

structure GatewayRequestContext where
  requestId : String
  userId : Int
  departmentId : Option Int
  apiKeyId : Option Int
  requestedModel : Option String
  logicalModelId : Option Int
  logicalModelName : Option String
  channelId : Option Int := none
  upstreamModel : Option String := none
  provider : Option String := none
  promptTokens : Int := 0
  completionTokens : Int := 0
  totalTokens : Int := 0
  status : UsageStatus := .success
  errorCode : Option String := none
  httpStatusCode : Nat := 200
  stream : Bool := false
  cacheHit : Bool := false
  downgradedFeatures : Option (List String) := none
  quotaReserved : Bool := false
  quotaSettled : Bool := false
  quotaReservations : List QuotaReservation := []
  tpmEstimatedTokens : Int := 0

namespace GatewayRequestContext

variable (ctx : GatewayRequestContext)

def setUsage (usage : Usage) : GatewayRequestContext :=
  { ctx with
    promptTokens := usage.promptTokens
    completionTokens := usage.completionTokens
    totalTokens := usage.totalTokens }

def markError (status : UsageStatus) : GatewayRequestContext :=
  { ctx with status, httpStatusCode := 502, errorCode := none }

end GatewayRequestContext

/-- The payload of a usage event; `cost` is sent as its exact text. -/
structure UsageEvent where
  requestId : String
  userId : Int
  apiKeyId : Option Int
  logicalModelId : Option Int
  logicalModelName : Option String
  channelId : Option Int
  upstreamModel : Option String
  promptTokens : Int
  completionTokens : Int
  totalTokens : Int
  cost : Option Rat
  status : UsageStatus
  cacheHit : Bool
  downgradedFeatures : Option (List String)

/-- The payload of a gateway log event. -/
structure LogEvent where
  requestId : String
  userId : Int
  apiKeyId : Option Int
  logicalModelId : Option Int
  model : Option String
  channelId : Option Int
  upstreamModel : Option String
  provider : Option String
  statusCode : Nat
  errorCode : Option String
  tokensIn : Int
  tokensOut : Int
  cacheHit : Bool
  stream : Bool

/-- What a billing failure keeps of a rule. -/
structure RuleIdentity where
  id : Int
  subjectType : String
  subjectId : Option Int
  logicalModelId : Option Int
deriving DecidableEq

/-- The `detail` of a billing failure of the quota settlement and of the TPM settlement. -/
inductive BillingDetail
  | quota (userId : Int) (logicalModelId : Option Int) (totalTokens : Int)
  | tpm (deltaTokens reservedTokens totalTokens : Int) (rules : List RuleIdentity)
deriving DecidableEq

/-! ## Calls -/

/-- What a generator yields: a chunk of the upstream, the terminator, or its timeout event. -/
inductive Piece
  | chunk
  | done
  | timeout
deriving DecidableEq, Repr

inductive Cmd
  | checkRateLimits (member : String) (estimatedTokens : Int) (isStream : Bool) (rules : List Rule)
  | checkQuota (estimatedTokens : Int) (estimatedCost : Option Rat)
  | settleTpm (rules : List Rule) (deltaTokens : Int)
  | releaseRpm (member : String) (rules : List Rule)
  | releaseConcurrent (member : String) (rules : List Rule)
  | settleReservations (reservations : List QuotaReservation) (actualTokens : Int)
      (actualCost : Option Rat)
  | compensateReservations (reservations : List QuotaReservation)
  | enqueueUsageEvent (payload : UsageEvent)
  | enqueueLogEvent (payload : LogEvent)
  | recordChannelHealth (channelId : Int) (success : Bool) (errorClass : Option UsageStatus)
  | recordBillingFailure (kind requestId : String) (error : Exn) (detail : BillingDetail)
  | callUpstream (method : String) (kwargs : Fields)
  | setCachedResponse (modelId : Int) (fingerprint : String) (data : Value) (ttlSeconds : Int)
  | spawnFinalizer (ctx : GatewayRequestContext)
  | aclose
  | yield (piece : Piece) (data : String)

/-- Settling and compensating let a Redis error through; the other calls answer without one. -/
@[reducible] def Cmd.Resp : Cmd → Type
  | .checkRateLimits .. => CheckResult
  | .settleTpm .. | .settleReservations .. | .compensateReservations .. => Except Exn Unit
  | _ => Unit

abbrev Io (α : Type) := Raising Cmd Cmd.Resp Raised α

def call (c : Cmd) : Io (Cmd.Resp c) := Raising.cmd c

def raise {α : Type} (e : Exn) : Io α := throw (Raised.exception e)

/-- A pure helper of the source that may raise. -/
def pyHelper {α : Type} (result : Except Python.Error α) : Io α :=
  Raising.ofExcept (fun e => .exception (.python e)) result

/-- An awaited call whose outcome is known. -/
def await {α : Type} : Awaited α → Io α
  | .value a => pure a
  | .raises e => raise e
  | .cancelled => throw Raised.cancelled

/-- `try: body except Exception as e: handler(e)`. -/
def tryExcept {α : Type} (body : Io α) (handler : Exn → Io α) : Io α :=
  tryCatch body fun raised =>
    match raised with
    | .exception e => handler e
    | raised => throw raised

/-- `with suppress(Exception)`. -/
def suppressException (body : Io Unit) : Io Unit := tryExcept body fun _ => pure ()

/-- A settlement call, whose error propagates. -/
def settling (answer : Except Exn Unit) : Io Unit :=
  match answer with
  | .ok () => pure ()
  | .error e => raise e

/-! ## The world -/

/-- What the client does with a chunk: it reads on, closes the generator, or disconnects while the
chunk is sent. -/
inductive Read
  | resumed
  | closed
  | cancelled
deriving DecidableEq, Repr

/-- A stream item: the litellm object, its routing information and its serialisation. -/
structure Chunk where
  body : Value
  view : RoutingView := {}
  text : Except Python.Error String

/-- One round of a stream's loop: the duration cap is over, the idle timer fires, the upstream
raises, the client disconnects, or a chunk arrives. After the last round the upstream is exhausted. -/
inductive Pull
  | expired
  | idle
  | fails (e : Exn)
  | disconnected
  | chunk (chunk : Chunk) (read : Read)

/-- What the upstream call returns, and its JSON form. `iterError` is what `response.__aiter__()`
raises, if it does. -/
structure Upstream where
  body : Value
  dump : Except Python.Error Value := .ok body
  view : RoutingView := {}
  metadata : Metadata := {}
  iterError : Option Exn := none
  pulls : List Pull := []

/-- The awaits of `_rollback_rate_limit_reservations`. -/
inductive RollbackStep
  | settleTpm
  | releaseRpm
  | releaseConcurrent
deriving DecidableEq, Repr

/-- The usage so far and the unfinished line of a native byte stream. -/
structure NativeUsage where
  usage : Usage
  buffer : String

/-- A native stream's usage parser, and whether the bytes raised. -/
abbrev Accumulate := NativeUsage → Chunk → NativeUsage × Option Python.Error

/-- Everything a request learns from outside the gateway's own code. `orphaned` is what the quota
check had reserved when it was cancelled; `rollbackCut` says for how many rules a step of the rollback
was done when it was cancelled, if it was. -/
structure World where
  user : AuthenticatedUser
  requestId : String
  member : String
  responseCacheEnabled : Bool
  responseCacheTtlSeconds : Int
  parseInt : String → Option Int
  fingerprint : String → List Value → Fields → String
  support : Support
  accumulateAnthropicUsage : Accumulate
  accumulateGeminiUsage : Accumulate
  model : Except Exn LogicalModel
  rules : List Rule
  quota : Awaited QuotaCheckResult
  orphaned : List QuotaReservation := []
  rollbackCut : RollbackStep → Option Nat := fun _ => none
  cached : Option Fields
  router : Bool
  opened : Awaited Upstream
  starts : Bool
  lastRead : Read

end Gateway.Handler
