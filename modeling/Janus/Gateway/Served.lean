import Janus.Gateway.Context
import Janus.Gateway.Events

/-!
# The usage event of a request (`main.py`, `router.py`, `finalize.py`)

The middleware names every HTTP request, by its header where it has one; the finalizer sends the
name as `request_id`, on which the table deduplicates.

* `TraceIdMiddleware.dispatch`, `requestId`: the name of a request.
* `usagePayload`: the payload that `_enqueue_usage` hands to `enqueue_usage_event`.
-/

set_option autoImplicit false

namespace Events

open Python Gateway.Handler

/-- A request as it comes in: its `x-request-id`, and what `str(uuid4())` gives it in the middleware
and in the handler. -/
structure HttpRequest where
  xRequestId : Option String
  uuid : String
  handlerUuid : String

/-- `text or default`. -/
def textOr (text : Option String) (default : String) : String :=
  match text with
  | none => default
  | some s => if s = "" then default else s

/-- What `TraceIdMiddleware.dispatch` stores as `request.state.trace_id`. -/
def HttpRequest.traceId (request : HttpRequest) : String := textOr request.xRequestId request.uuid

/-- `_request_id`. -/
def HttpRequest.requestId (request : HttpRequest) : String :=
  textOr (some request.traceId) request.handlerUuid

def optional {α : Type} (value : α → Value) : Option α → Value
  | some a => value a
  | none => .none

def statusText : UsageStatus → String
  | .success => "success"
  | .error => "error"
  | .timeout => "timeout"

/-- The payload of `_enqueue_usage`; `text` is `str` on the cost. -/
def usagePayload (text : Rat → String) (event : UsageEvent) (latencyMs : Option Int) : Fields :=
  [("request_id", .str event.requestId),
    ("user_id", .int event.userId),
    ("api_key_id", optional .int event.apiKeyId),
    ("logical_model_id", optional .int event.logicalModelId),
    ("logical_model_name", optional .str event.logicalModelName),
    ("channel_id", optional .int event.channelId),
    ("upstream_model", optional .str event.upstreamModel),
    ("prompt_tokens", .int event.promptTokens),
    ("completion_tokens", .int event.completionTokens),
    ("total_tokens", .int event.totalTokens),
    ("cost", optional (fun cost => .str (text cost)) event.cost),
    ("status", .str (statusText event.status)),
    ("latency_ms", optional .int latencyMs),
    ("cache_hit", .bool event.cacheHit),
    ("downgraded_features", optional (fun names => .list (names.map .str)) event.downgradedFeatures)]

/-- A request that has been served: what its handler has to report but for the name. -/
structure Served where
  http : HttpRequest
  event : UsageEvent
  latencyMs : Option Int
  rounds : Nat

def Served.payload (text : Rat → String) (served : Served) : Fields :=
  usagePayload text { served.event with requestId := served.http.requestId } served.latencyMs

/-- A thread finalizes a request, or is a run of the batch writer. -/
def servedJob (text : Rat → String) : Option Served → Job
  | some served => .enqueueUsageEvent served.rounds (served.payload text)
  | none => .flushUsageRecords

end Events
