import Janus.Gateway.Router

/-!
# The other endpoints (`gateway/endpoints_v1.py`)

`embeddingsImpl` and `responsesImpl` with its generator, from the blocks of `Janus.Gateway.Router`;
`handle` dispatches over all five request kinds.
-/

set_option autoImplicit false

namespace Gateway.Handler

open Conc Janus Python RateLimit

/-- `input` is a text or a list of texts. -/
structure EmbeddingsRequest where
  model : String
  input : Value
  encodingFormat : Option String
  dimensions : Option Int

/-- `input` is a text or a list. -/
structure ResponsesRequest where
  model : String
  input : Value
  stream : Bool
  maxOutputTokens : Option Int
  temperature : Option Python.Float
  instructions : Option String
  extra : Fields

def optValue {α : Type} (f : α → Value) (a : Option α) : Value := (a.map f).getD .none

/-- `_response_model`. -/
def responseModel (response : Value) : Option String :=
  match response.getattr "model" .none, response with
  | .str model, _ => some model
  | _, .dict fields =>
    match Fields.get fields "model" .none with
    | .str model => some model
    | _ => none
  | _, _ => none

/-! ## Embeddings -/

def embeddingsImpl (w : World) (payload : EmbeddingsRequest) : Io Reply := do
  let logicalModel ← resolveModel w
  let estimatedTokens := estimateRequestTokens payload.input 0
  checkRateLimits w estimatedTokens false
  let quotaResult ← checkQuota w logicalModel estimatedTokens
  getRouter w
  let response ← openUpstream w logicalModel estimatedTokens false quotaResult
    (callUpstream w "aembedding"
      ([("model", .str logicalModel.name), ("input", payload.input),
        ("litellm_metadata", .dict [])] ++
      optField "encoding_format" (optValue .str payload.encodingFormat) ++
      optField "dimensions" (optValue .int payload.dimensions)))
  let usage ← pyHelper (extractEmbeddingUsage w.parseInt response.body)
  let ctx := { (baseContext w logicalModel estimatedTokens false).setUsage usage with
    channelId := channelIdFromMetadata response.metadata
    upstreamModel := orText response.metadata.deployment (responseModel response.body) }
  finalizeGatewayRequest ctx logicalModel w.rules quotaResult.reservations
  let content ← pyHelper response.dump
  pure (.json content (quotaHeaders quotaResult))

/-! ## Responses -/

/-- The tokens counted so far. -/
structure ResponsesStream where
  promptTokens : Int := 0
  completionTokens : Int := 0

def ResponsesStream.onChunk (parse : String → Option Int) (s : ResponsesStream) (chunk : Chunk) :
    ResponsesStream × Except Python.Error String :=
  match chunk.text, extractResponsesUsage parse chunk.body with
  | .error e, _ => (s, .error e)
  | .ok _, .error e => (s, .error e)
  | .ok data, .ok usage =>
    (if usage.totalTokens ≠ 0 then ⟨usage.promptTokens, usage.completionTokens⟩ else s,
      .ok ("data: " ++ data ++ "\n\n"))

/-- `_stream_responses`: every exception is an error, and is raised again as it is. -/
def streamResponses (w : World) (logicalModel : LogicalModel) (estimatedTokens : Int)
    (provider : Option String) (downgradedFeatures : Option (List String))
    (quotaReservations : List QuotaReservation) (u : Upstream) : Io Unit :=
  streamBody w logicalModel (ResponsesStream.onChunk w.parseInt) {} u
    (fun status => if status = .timeout then some (.timeout, openaiTimeoutEvent) else none)
    (fun _ => .error) id
    (fun s =>
      { (baseContext w logicalModel estimatedTokens true).setUsage
          ⟨s.promptTokens, s.completionTokens, s.promptTokens + s.completionTokens⟩ with
        channelId := channelIdFromMetadata u.metadata
        upstreamModel := u.metadata.deployment
        provider, downgradedFeatures })
    quotaReservations

/-- `payload.model_dump(exclude={"model", "stream", "input"})`. -/
def ResponsesRequest.payloadData (payload : ResponsesRequest) : Fields :=
  [("max_output_tokens", optValue .int payload.maxOutputTokens),
    ("temperature", optValue .float payload.temperature),
    ("instructions", optValue .str payload.instructions)] ++ payload.extra

def ResponsesRequest.requestedFeatures (payload : ResponsesRequest) :
    Except Python.Error (Finset String) :=
  requestedFeaturesFromParams [.dict [("role", .str "user"), ("content", payload.input)]]
    payload.payloadData

/-- `_responses_impl`: the features are read before the upstream call and the router inside it. -/
def responsesImpl (w : World) (payload : ResponsesRequest) : Io Reply := do
  let logicalModel ← resolveModel w
  let estimatedTokens := estimateRequestTokens payload.input
    (coerceMaxCompletion w.parseInt (optValue .int payload.maxOutputTokens))
  checkRateLimits w estimatedTokens payload.stream
  let quotaResult ← checkQuota w logicalModel estimatedTokens
  let requestedFeatures ← pyHelper payload.requestedFeatures
  let response ← openUpstream w logicalModel estimatedTokens payload.stream quotaResult (do
    getRouter w
    callUpstream w "aresponses"
      ([("model", .str logicalModel.name), ("input", payload.input),
        ("litellm_metadata", .dict [])] ++
      payload.payloadData.filter (fun field => field.2.isSome) ++
      (if payload.stream then [("stream", .bool true)] else [])))
  let channelId := channelIdFromMetadata response.metadata
  let provider := providerFromMetadata response.metadata
  if payload.stream then
    let downgradedFeatures := detectDowngradedFeatures w.support requestedFeatures
      response.metadata.deployment provider
    pure (.streaming
      (streamResponses w logicalModel estimatedTokens provider downgradedFeatures
        quotaResult.reservations response)
      (quotaHeaders quotaResult ++ downgradedHeader downgradedFeatures))
  else
    let usage ← pyHelper (extractResponsesUsage w.parseInt response.body)
    let upstreamModel := orText response.metadata.deployment (responseModel response.body)
    let downgradedFeatures :=
      detectDowngradedFeatures w.support requestedFeatures upstreamModel provider
    let ctx := { (baseContext w logicalModel estimatedTokens false).setUsage usage with
      channelId, upstreamModel, provider, downgradedFeatures }
    finalizeGatewayRequest ctx logicalModel w.rules quotaResult.reservations
    let content ← pyHelper response.dump
    pure (.json content (quotaHeaders quotaResult ++ downgradedHeader downgradedFeatures))

/-! ## Dispatch -/

inductive Request
  | chatCompletions (payload : OpenAIRequest)
  | messages (payload : AnthropicRequest)
  | generateContent (payload : GeminiRequest) (stream : Bool)
  | responses (payload : ResponsesRequest)
  | embeddings (payload : EmbeddingsRequest)

def Request.stream : Request → Bool
  | .chatCompletions payload => payload.stream
  | .messages payload => payload.stream
  | .generateContent _ stream => stream
  | .responses payload => payload.stream
  | .embeddings _ => false

def handle (w : World) : Request → Io Reply
  | .chatCompletions payload => openaiChatCompletions w payload
  | .messages payload => anthropicMessages w payload
  | .generateContent payload stream => geminiGenerateContent w payload stream
  | .responses payload => responsesImpl w payload
  | .embeddings payload => embeddingsImpl w payload

end Gateway.Handler
