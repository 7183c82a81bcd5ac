import Janus.Gateway.Finalize
import Janus.Gateway.ResponseCache

/-!
# The completion endpoints (`gateway/router.py`)

A handler answers with a JSON body or with a generator that the server runs afterwards, when the
client is still there (`World.starts`). `pump` is the loop that all four generators share; each
passes what it does with a chunk.

* `executeCompletion`, `anthropicMessages`, `geminiGenerateContent`: the handlers.
* `streamOpenai`, `streamNative`: the generators.
-/

set_option autoImplicit false

namespace Gateway.Handler

open Conc Janus Python RateLimit

/-! ## Requests and replies -/

structure OpenAIRequest where
  model : Option String
  stream : Bool
  messages : List Value
  extra : Fields

structure AnthropicRequest where
  model : Option String
  maxTokens : Int
  stream : Bool
  system : Value
  messages : List Value
  extra : Fields

structure GeminiRequest where
  contents : List Value
  systemInstruction : Value
  generationConfig : Option Fields
  tools : Value
  toolConfig : Value
  safetySettings : Value
  cachedContent : Value

inductive Reply
  | json (content : Value) (headers : Headers)
  | streaming (generator : Io Unit) (headers : Headers)

/-- A handler, and then its generator unless the client is gone before the first step. -/
def serve (w : World) (handler : Io Reply) : Io Unit := do
  match ← handler with
  | .json _ _ => pure ()
  | .streaming generator _ => if w.starts then generator else pure ()

/-! ## Shared helpers -/

def upstreamError : Exn → AppError
  | .litellm .rateLimit => { code := .upstreamRateLimited, statusCode := 429 }
  | .litellm .timeout => { code := .upstreamTimeout, statusCode := 504 }
  | _ => { code := .upstreamError, statusCode := 502 }

def usageStatusForException : Exn → UsageStatus
  | .litellm .timeout => .timeout
  | _ => .error

def quotaHeaders (quotaResult : QuotaCheckResult) : Headers :=
  if quotaResult.warnings.isEmpty then []
  else [("X-Gateway-Quota-Warnings", toString quotaResult.warnings.length)]

section

variable (w : World) (logicalModel : LogicalModel) (estimatedTokens : Int)

def baseContext (stream : Bool) : GatewayRequestContext where
  requestId := w.requestId
  userId := w.user.userId
  departmentId := w.user.departmentId
  apiKeyId := w.user.apiKeyId
  requestedModel := some logicalModel.name
  logicalModelId := some logicalModel.id
  logicalModelName := some logicalModel.name
  stream := stream
  quotaReserved := true
  tpmEstimatedTokens := estimatedTokens

/-- `service.resolve_model`. -/
def resolveModel : Io LogicalModel := Raising.ofExcept .exception w.model

/-- `_check_rate_limits`: the rules are the request's own from here on. -/
def checkRateLimits (isStream : Bool) : Io Unit := do
  if w.rules ≠ [] then
    let rlResult ← call (.checkRateLimits w.member estimatedTokens isStream w.rules)
    if rlResult.allowed then pure ()
    else raise (.app { code := .rateLimitExceeded, statusCode := 429 })

/-- The rules that a step of the rollback gets to. -/
def World.reached (step : RollbackStep) : List Rule :=
  match w.rollbackCut step with
  | none => w.rules
  | some done => w.rules.take done

/-- One `with suppress(Exception)` of the rollback, which lets a cancellation pass. -/
def rollbackStep (step : RollbackStep) (body : List Rule → Io Unit) : Io Unit := do
  suppressException (body (w.reached step))
  if (w.rollbackCut step).isSome then throw Raised.cancelled

/-- `_rollback_rate_limit_reservations`. -/
def rollbackRateLimitReservations : Io Unit := do
  if w.rules ≠ [] then
    rollbackStep w .settleTpm fun rules => do settling (← call (.settleTpm rules estimatedTokens))
    rollbackStep w .releaseRpm fun rules => call (.releaseRpm w.member rules)
    rollbackStep w .releaseConcurrent fun rules => call (.releaseConcurrent w.member rules)

/-- `service.check_quota`, and the rollback when it raises. -/
def checkQuota : Io QuotaCheckResult :=
  tryExcept
    (do
      call (.checkQuota estimatedTokens (computeCost logicalModel estimatedTokens 0))
      await w.quota)
    (fun e => do
      rollbackRateLimitReservations w estimatedTokens
      raise e)

/-- `RouterManager.get_router()`. -/
def getRouter : Io Unit :=
  if w.router then pure ()
  else raise (.app { code := .modelUnavailable, statusCode := 503 })

/-- The upstream call; when it raises, the request is finalized as an error. -/
def openUpstream (stream : Bool) (quotaResult : QuotaCheckResult) (attempt : Io Upstream) :
    Io Upstream :=
  tryExcept attempt fun e => do
    let ctx := (baseContext w logicalModel estimatedTokens stream).markError
      (usageStatusForException e)
    finalizeGatewayRequest ctx logicalModel w.rules quotaResult.reservations
    raise (.app (upstreamError e))

def callUpstream (method : String) (kwargs : Fields) : Io Upstream := do
  call (.callUpstream method kwargs)
  await w.opened

/-! ## Streams -/

/-- `_finalize_stream`. -/
def finalizeStream (ctx : GatewayRequestContext) (quotaReservations : List QuotaReservation) :
    Io Unit := do
  call .aclose
  if w.rules ≠ [] then
    call (.releaseConcurrent w.member w.rules)
  suppressException (finalizeGatewayRequest ctx logicalModel w.rules quotaReservations)

end

/-- How a stream's loop ends. -/
inductive Ending
  | exhausted
  | timedOut
  | raised (e : Raised)
deriving DecidableEq, Repr

/-- `except TimeoutError` catches the idle timer's, and just as well the upstream's own. -/
def Exn.ending : Exn → Ending
  | .timeout => .timedOut
  | e => .raised (.exception e)

/-- Where a read leaves the generator that is suspended at a `yield`. -/
def Read.raised : Read → Option Raised
  | .resumed => none
  | .closed => some .generatorExit
  | .cancelled => some .cancelled

/-- The loop of a generator: `onChunk` updates what it accumulates and answers what it yields. -/
def pump {σ : Type} (onChunk : σ → Chunk → σ × Except Python.Error String) (s : σ) :
    List Pull → Io (σ × Ending)
  | [] => pure (s, .exhausted)
  | .expired :: _ => pure (s, .timedOut)
  | .idle :: _ => pure (s, .timedOut)
  | .fails e :: _ => pure (s, e.ending)
  | .disconnected :: _ => pure (s, .raised .cancelled)
  | .chunk chunk read :: pulls =>
    match onChunk s chunk with
    | (s, .error e) => pure (s, .raised (.exception (.python e)))
    | (s, .ok data) => do
      call (.yield .chunk data)
      match read.raised with
      | none => pump onChunk s pulls
      | some e => pure (s, .raised e)

/-- The chunk after the loop, if there is one. -/
def yieldLast (w : World) (last : Option (Piece × String)) : Io (Option Raised) :=
  match last with
  | none => pure none
  | some (piece, data) => do
    call (.yield piece data)
    pure w.lastRead.raised

/-- The `except` clauses and the `finally` of a generator: `status` is that of an exception, and
`reraise` what is raised then. -/
def finishStream (w : World) (logicalModel : LogicalModel) (status : Exn → UsageStatus)
    (reraise : Exn → Exn) (ctx : GatewayRequestContext) (statusValue : UsageStatus)
    (quotaReservations : List QuotaReservation) (raised : Option Raised) : Io Unit := do
  let statusValue : UsageStatus :=
    match raised with
    | some (.exception e) => status e
    | some .cancelled => .error
    | _ => statusValue
  let ctx := { ctx with status := statusValue }
  call (.spawnFinalizer ctx)
  finalizeStream w logicalModel ctx quotaReservations
  match raised with
  | none => pure ()
  | some (.exception e) => raise (reraise e)
  | some e => throw e

/-- A generator from its loop on; `last` is the chunk after the loop, and `complete` the context
that its cleanup gets. -/
def streamBody {σ : Type} (w : World) (logicalModel : LogicalModel)
    (onChunk : σ → Chunk → σ × Except Python.Error String) (start : σ) (u : Upstream)
    (last : UsageStatus → Option (Piece × String)) (status : Exn → UsageStatus) (reraise : Exn → Exn)
    (complete : σ → GatewayRequestContext) (quotaReservations : List QuotaReservation) :
    Io Unit :=
  match u.iterError with
  | some e => raise e
  | none => do
    let (s, ending) ← pump onChunk start u.pulls
    let statusValue : UsageStatus := if ending = .timedOut then .timeout else .success
    let raised ←
      match ending with
      | .raised e => pure (some e)
      | _ => yieldLast w (last statusValue)
    finishStream w logicalModel status reraise (complete s) statusValue quotaReservations raised

/-- `a or b` on optional ids. -/
def orId (a b : Option Int) : Option Int :=
  match a with
  | some n => if n = 0 then b else some n
  | none => b

/-- The locals of `_stream_openai`. -/
structure OpenaiStream where
  usage : Usage := emptyUsage
  channelId : Option Int := none
  upstreamModel : Option String := none
  provider : Option String := none

def OpenaiStream.observe (s : OpenaiStream) (view : RoutingView) : OpenaiStream :=
  let (chunkChannelId, chunkUpstreamModel) := extractRoutingInfo view
  { s with
    channelId := orId s.channelId chunkChannelId
    upstreamModel := orText s.upstreamModel chunkUpstreamModel
    provider := orText s.provider (providerFromResponse view) }

def OpenaiStream.onChunk (parse : String → Option Int) (s : OpenaiStream) (chunk : Chunk) :
    OpenaiStream × Except Python.Error String :=
  let s := s.observe chunk.view
  match extractUsage parse chunk.body with
  | .error e => (s, .error e)
  | .ok chunkUsage =>
    let s := if chunkUsage.totalTokens ≠ 0 then { s with usage := chunkUsage } else s
    (s, chunk.text.map fun text => "data: " ++ text ++ "\n\n")

def openaiTimeoutEvent : String :=
  "data: \x7b\"error\": \x7b\"message\": \"stream timed out\", " ++
  "\"type\": \"timeout\", \"code\": \"stream_timeout\"\x7d\x7d\n\n"

/-- `_stream_openai`. -/
def streamOpenai (w : World) (logicalModel : LogicalModel) (estimatedTokens : Int)
    (requestedFeatures : Finset String) (quotaReservations : List QuotaReservation)
    (u : Upstream) : Io Unit :=
  streamBody w logicalModel (OpenaiStream.onChunk w.parseInt) {} u
    (fun status => some (if status = .timeout then (.timeout, openaiTimeoutEvent)
      else (.done, "data: [DONE]\n\n")))
    usageStatusForException (fun e => .app (upstreamError e))
    (fun s =>
      let s := s.observe u.view
      { (baseContext w logicalModel estimatedTokens true).setUsage s.usage with
        channelId := s.channelId
        upstreamModel := s.upstreamModel
        provider := s.provider
        downgradedFeatures := detectDowngradedFeatures w.support requestedFeatures
          s.upstreamModel s.provider })
    quotaReservations

/-- What a native stream does with its bytes. -/
def NativeUsage.onChunk (accumulate : Accumulate) (s : NativeUsage) (chunk : Chunk) :
    NativeUsage × Except Python.Error String :=
  match chunk.text with
  | .error e => (s, .error e)
  | .ok text =>
    match accumulate s chunk with
    | (s, some e) => (s, .error e)
    | (s, none) => (s, .ok text)

/-- `_stream_anthropic_native` and `_stream_gemini_native`. -/
def streamNative (w : World) (logicalModel : LogicalModel) (estimatedTokens : Int)
    (accumulate : Accumulate) (provider : String) (timeoutEvent : String)
    (requestedFeatures : Finset String) (quotaReservations : List QuotaReservation)
    (u : Upstream) : Io Unit :=
  streamBody w logicalModel (NativeUsage.onChunk accumulate) ⟨emptyUsage, ""⟩ u
    (fun status => if status = .timeout then some (.timeout, timeoutEvent) else none)
    usageStatusForException (fun e => .app (upstreamError e))
    (fun s =>
      { (baseContext w logicalModel estimatedTokens true).setUsage s.usage with
        channelId := channelIdFromMetadata u.metadata
        upstreamModel := u.metadata.deployment
        provider := some provider
        downgradedFeatures := detectDowngradedFeatures w.support requestedFeatures
          u.metadata.deployment (some provider) })
    quotaReservations

def anthropicTimeoutEvent : String :=
  "event: error\ndata: \x7b\"type\": \"error\", \"error\": " ++
  "\x7b\"type\": \"timeout_error\", \"message\": \"stream timed out\"\x7d\x7d\n\n"

def geminiTimeoutEvent : String :=
  "data: \x7b\"error\": \x7b\"code\": 504, \"status\": \"DEADLINE_EXCEEDED\", " ++
  "\"message\": \"stream timed out\"\x7d\x7d\n\n"

def streamAnthropicNative (w : World) (logicalModel : LogicalModel) (estimatedTokens : Int) :
    Finset String → List QuotaReservation → Upstream → Io Unit :=
  streamNative w logicalModel estimatedTokens w.accumulateAnthropicUsage "anthropic"
    anthropicTimeoutEvent

def streamGeminiNative (w : World) (logicalModel : LogicalModel) (estimatedTokens : Int) :
    Finset String → List QuotaReservation → Upstream → Io Unit :=
  streamNative w logicalModel estimatedTokens w.accumulateGeminiUsage "gemini" geminiTimeoutEvent

/-! ## Handlers -/

/-- `_execute_completion`. -/
def executeCompletion (w : World) (messages : List Value) (stream : Bool) (params : Fields) :
    Io Reply := do
  let logicalModel ← resolveModel w
  let outputCap := params.get "max_completion_tokens" (params.get "max_tokens" .none)
  let estimatedTokens :=
    estimateRequestTokens (.list messages) (coerceMaxCompletion w.parseInt outputCap)
  let requestedFeatures ← pyHelper (requestedFeaturesFromParams messages params)
  checkRateLimits w estimatedTokens stream
  let quotaResult ← checkQuota w logicalModel estimatedTokens
  let cacheable ← pyHelper (isCacheableRequest stream w.responseCacheEnabled params)
  let cached := if cacheable then w.cached else none
  match cached with
  | some cached => do
    -- a hit is finalized with its recorded usage
    let usage ← pyHelper (extractUsage w.parseInt (.dict cached))
    let ctx := { (baseContext w logicalModel estimatedTokens false).setUsage usage with
      cacheHit := true }
    finalizeGatewayRequest ctx logicalModel w.rules quotaResult.reservations
    pure (.json (.dict cached) (quotaHeaders quotaResult))
  | none => do
    getRouter w
    let streamOptions : Fields :=
      if stream then [("stream_options", .dict [("include_usage", .bool true)])] else []
    let response ← openUpstream w logicalModel estimatedTokens stream quotaResult
      (callUpstream w "acompletion" ([("model", .str logicalModel.name), ("messages", .list messages),
        ("stream", .bool stream)] ++ streamOptions ++ params))
    if stream then
      pure (.streaming
        (streamOpenai w logicalModel estimatedTokens requestedFeatures quotaResult.reservations
          response)
        (quotaHeaders quotaResult))
    else
      let usage ← pyHelper (extractUsage w.parseInt response.body)
      let (channelId, upstreamModel) := extractRoutingInfo response.view
      let provider := providerFromResponse response.view
      let downgradedFeatures :=
        detectDowngradedFeatures w.support requestedFeatures upstreamModel provider
      let ctx := { (baseContext w logicalModel estimatedTokens false).setUsage usage with
        channelId, upstreamModel, provider, downgradedFeatures }
      finalizeGatewayRequest ctx logicalModel w.rules quotaResult.reservations
      let storable ← pyHelper (isStorable cacheable response.body)
      let content ← pyHelper response.dump
      if storable then
        call (.setCachedResponse logicalModel.id
          (w.fingerprint logicalModel.name messages params) content w.responseCacheTtlSeconds)
      pure (.json content (quotaHeaders quotaResult ++ downgradedHeader downgradedFeatures))

def openaiChatCompletions (w : World) (payload : OpenAIRequest) : Io Reply :=
  executeCompletion w payload.messages payload.stream payload.extra

/-- What a native endpoint does with a reply that is not a stream. -/
def finalizeNative (w : World) (logicalModel : LogicalModel) (estimatedTokens : Int)
    (usage : Usage) (channelId : Option Int) (upstreamModel : Option String)
    (downgradedFeatures : Option (List String)) (quotaResult : QuotaCheckResult)
    (response : Upstream) : Io Reply := do
  let ctx := { (baseContext w logicalModel estimatedTokens false).setUsage usage with
    channelId, upstreamModel, downgradedFeatures }
  finalizeGatewayRequest ctx logicalModel w.rules quotaResult.reservations
  let content ← pyHelper response.dump
  pure (.json content (quotaHeaders quotaResult ++ downgradedHeader downgradedFeatures))

/-- A field that is sent unless it is `None`. -/
def optField (name : String) (value : Value) : Fields :=
  if value.isSome then [(name, value)] else []

def AnthropicRequest.nativeParams (payload : AnthropicRequest) (logicalModel : LogicalModel) :
    Fields :=
  [("model", .str logicalModel.name), ("messages", .list payload.messages),
    ("max_tokens", .int payload.maxTokens), ("stream", .bool payload.stream)] ++
  optField "system" payload.system ++ payload.extra ++ [("litellm_metadata", .dict [])]

def anthropicMessages (w : World) (payload : AnthropicRequest) : Io Reply := do
  let logicalModel ← resolveModel w
  let estimatedTokens := estimateRequestTokens (.list payload.messages) payload.maxTokens
  checkRateLimits w estimatedTokens payload.stream
  let quotaResult ← checkQuota w logicalModel estimatedTokens
  let nativeParams := payload.nativeParams logicalModel
  getRouter w
  let response ← openUpstream w logicalModel estimatedTokens payload.stream quotaResult
    (callUpstream w "aanthropic_messages" nativeParams)
  let channelId := channelIdFromMetadata response.metadata
  let upstreamModel := response.metadata.deployment
  if payload.stream then
    let requestedFeatures ← pyHelper (requestedFeaturesFromParams payload.messages nativeParams)
    let downgradedFeatures :=
      detectDowngradedFeatures w.support requestedFeatures upstreamModel (some "anthropic")
    pure (.streaming
      (streamAnthropicNative w logicalModel estimatedTokens requestedFeatures
        quotaResult.reservations response)
      (quotaHeaders quotaResult ++ downgradedHeader downgradedFeatures))
  else
    let usage ← pyHelper (extractAnthropicUsage w.parseInt response.body)
    let requestedFeatures ← pyHelper (requestedFeaturesFromParams payload.messages nativeParams)
    let downgradedFeatures :=
      detectDowngradedFeatures w.support requestedFeatures upstreamModel (some "anthropic")
    finalizeNative w logicalModel estimatedTokens usage channelId upstreamModel downgradedFeatures
      quotaResult response

def GeminiRequest.nativeParams (payload : GeminiRequest) (logicalModel : LogicalModel) : Fields :=
  [("model", .str logicalModel.name), ("contents", .list payload.contents),
    ("litellm_metadata", .dict [])] ++
  optField "systemInstruction" payload.systemInstruction ++
  (match payload.generationConfig with
    | some config => [("generationConfig", .dict config)]
    | none => []) ++
  optField "tools" payload.tools ++ optField "toolConfig" payload.toolConfig ++
  optField "safetySettings" payload.safetySettings ++
  optField "cachedContent" payload.cachedContent

/-- `stream` is the `:streamGenerateContent` path. -/
def geminiGenerateContent (w : World) (payload : GeminiRequest) (stream : Bool) : Io Reply := do
  let logicalModel ← resolveModel w
  let genConfig := payload.generationConfig.getD []
  let estimatedTokens := estimateRequestTokens (.list payload.contents)
    (coerceMaxCompletion w.parseInt (Fields.get genConfig "maxOutputTokens" .none))
  checkRateLimits w estimatedTokens stream
  let quotaResult ← checkQuota w logicalModel estimatedTokens
  getRouter w
  let nativeParams := payload.nativeParams logicalModel
  let response ← openUpstream w logicalModel estimatedTokens stream quotaResult
    (callUpstream w (if stream then "agenerate_content_stream" else "agenerate_content")
      nativeParams)
  let channelId := channelIdFromMetadata response.metadata
  let upstreamModel := response.metadata.deployment
  if stream then
    let requestedFeatures ← pyHelper (requestedFeaturesFromParams payload.contents nativeParams)
    let downgradedFeatures :=
      detectDowngradedFeatures w.support requestedFeatures upstreamModel (some "gemini")
    pure (.streaming
      (streamGeminiNative w logicalModel estimatedTokens requestedFeatures
        quotaResult.reservations response)
      (quotaHeaders quotaResult ++ downgradedHeader downgradedFeatures))
  else
    let usage ← pyHelper (extractGeminiUsageFromResponse w.parseInt response.body)
    -- litellm does not always fill the metadata; the response may know
    let (fallbackChannelId, fallbackUpstreamModel) := extractRoutingInfo response.view
    let channelId := channelId.or fallbackChannelId
    let upstreamModel := upstreamModel.or fallbackUpstreamModel
    let requestedFeatures ← pyHelper (requestedFeaturesFromParams payload.contents nativeParams)
    let downgradedFeatures :=
      detectDowngradedFeatures w.support requestedFeatures upstreamModel (some "gemini")
    finalizeNative w logicalModel estimatedTokens usage channelId upstreamModel downgradedFeatures
      quotaResult response

end Gateway.Handler
