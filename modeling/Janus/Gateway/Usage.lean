import Janus.Gateway.Capabilities
import Janus.Gateway.Repository

/-!
# Usage of a response (`gateway/usage.py`, the extractors of `router.py` and `endpoints_v1.py`)

A response is a mapping or an object; a token count that `int` rejects raises.
-/

set_option autoImplicit false

namespace Gateway

open Python

structure Usage where
  promptTokens : Int
  completionTokens : Int
  totalTokens : Int
deriving DecidableEq, Repr

def emptyUsage : Usage := ⟨0, 0, 0⟩

def computeCost (model : LogicalModel) (promptTokens completionTokens : Int) : Option Rat :=
  match model.priceInput, model.priceOutput with
  | some input, some output => some ((promptTokens * input + completionTokens * output) / 1000000)
  | _, _ => none

/-- `getattr(v, name, None)`, and where that is `None`, `v.get(name)` of a mapping. -/
def field (v : Value) (name : String) : Value :=
  match v.getattr name .none, v with
  | .none, .dict fields => Fields.get fields name .none
  | attr, _ => attr

/-- `v.get(name, default)` on a value that need not be a mapping. -/
def getItem (v : Value) (name : String) (default : Value) : Except Error Value :=
  match v with
  | .dict fields => .ok (Fields.get fields name default)
  | _ => .error .attributeError

section

variable (parse : String → Option Int)

def usageValue (usage : Value) (key : String) : Except Error Int :=
  match usage with
  | .dict fields => (Fields.get fields key (.int 0)).toIntOrZero parse
  | v => (v.getattr key (.int 0)).toIntOrZero parse

/-- `_extract_usage`: chat completions. -/
def extractUsage (response : Value) : Except Error Usage :=
  match field response "usage" with
  | .none => pure emptyUsage
  | usage => do
    let prompt ← usageValue parse usage "prompt_tokens"
    let completion ← usageValue parse usage "completion_tokens"
    let total ← usageValue parse usage "total_tokens"
    pure ⟨prompt, completion, total⟩

def extractAnthropicUsage (response : Value) : Except Error Usage := do
  let fromMapping (respUsage : Value) : Except Error Usage := do
    let input ← (← getItem respUsage "input_tokens" (.int 0)).toInt parse
    let output ← (← getItem respUsage "output_tokens" (.int 0)).toInt parse
    pure ⟨input, output, input + output⟩
  match response with
  | .dict fields =>
    let usage := Fields.get fields "usage" .none
    fromMapping (if usage.truthy then usage else .dict [])
  | _ =>
    let usage := response.getattr "usage" .none
    if usage.hasattr "input_tokens" then
      let input ← (usage.getattr "input_tokens" (.int 0)).toIntOrZero parse
      let output ← (usage.getattr "output_tokens" (.int 0)).toIntOrZero parse
      pure ⟨input, output, input + output⟩
    else
      fromMapping (.dict [])

def extractGeminiUsageFromResponse (response : Value) : Except Error Usage := do
  let fromMapping (usageMeta : Value) : Except Error Usage := do
    let prompt ← (← getItem usageMeta "promptTokenCount" (.int 0)).toInt parse
    let completion ← (← getItem usageMeta "candidatesTokenCount" (.int 0)).toInt parse
    let total ← (← getItem usageMeta "totalTokenCount" (.int 0)).toInt parse
    pure ⟨prompt, completion, if total = 0 then prompt + completion else total⟩
  match response with
  | .dict fields =>
    let usageMeta := Fields.get fields "usageMetadata" .none
    fromMapping (if usageMeta.truthy then usageMeta else .dict [])
  | _ =>
    match response.getattr "usage_metadata" .none with
    | .none => fromMapping (.dict [])
    | usageMeta => do
      let prompt ← (usageMeta.getattr "prompt_token_count" (.int 0)).toIntOrZero parse
      let completion ← (usageMeta.getattr "candidates_token_count" (.int 0)).toIntOrZero parse
      let total ← (usageMeta.getattr "total_token_count" (.int 0)).toIntOrZero parse
      pure ⟨prompt, completion, total⟩

def extractEmbeddingUsage (response : Value) : Except Error Usage :=
  match field response "usage" with
  | .none => pure emptyUsage
  | usage => do
    let prompt ← usageValue parse usage "prompt_tokens"
    let total ← usageValue parse usage "total_tokens"
    pure ⟨prompt, 0, if total = 0 then prompt else total⟩

/-- The usage is on the response, or one level down on a terminal stream event. -/
def extractResponsesUsage (response : Value) : Except Error Usage :=
  let usage :=
    match field response "usage" with
    | .none => field (field response "response") "usage"
    | usage => usage
  match usage with
  | .none => pure emptyUsage
  | usage => do
    let prompt ← usageValue parse usage "input_tokens"
    let completion ← usageValue parse usage "output_tokens"
    let total ← usageValue parse usage "total_tokens"
    pure ⟨prompt, completion, if total = 0 then prompt + completion else total⟩

end

/-! ## Routing information -/

/-- What litellm's `model_info` says about the selected deployment; `id` after `int`. -/
structure ModelInfo where
  id : Option Int := none
  upstreamModel : Option String := none
  provider : Option String := none

/-- `response.model` and `response._hidden_params["model_info"]`. -/
structure RoutingView where
  model : Option String := none
  modelInfo : Option ModelInfo := none

/-- `litellm_metadata` after the call. -/
structure Metadata where
  modelInfo : Option ModelInfo := none
  deployment : Option String := none

def extractRoutingInfo (view : RoutingView) : Option Int × Option String :=
  match view.modelInfo with
  | none => (none, view.model)
  | some info =>
    match info.upstreamModel with
    | none => (info.id, view.model)
    | some model =>
      match info.provider with
      | some provider =>
        let pre := provider ++ "/"
        (info.id, some (if pre.toList.isPrefixOf model.toList then model else pre ++ model))
      | none => (info.id, some model)

def providerFromResponse (view : RoutingView) : Option String :=
  match view.modelInfo.bind (·.provider) with
  | some provider => some provider
  | none => (extractRoutingInfo view).2.bind fun model => (splitSlash model).map (·.1)

def channelIdFromMetadata (metadata : Metadata) : Option Int := metadata.modelInfo.bind (·.id)

def providerFromMetadata (metadata : Metadata) : Option String :=
  match metadata.modelInfo.bind (·.provider) with
  | some provider => some provider
  | none => metadata.deployment.bind fun model => (splitSlash model).map (·.1)

end Gateway
