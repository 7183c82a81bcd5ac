import Janus.Python.Str
import Janus.Python.Value

/-!
# Requested and downgraded features (`gateway/capabilities.py`)

What litellm knows about a model is a parameter (`Support`). Looking a content part's type up in a
set of texts raises when the type is unhashable, so `requestedFeaturesFromParams` may raise.
-/

set_option autoImplicit false

namespace Gateway

open Python

mutual

/-- `_contains_key`: a mapping key at any depth. -/
def containsKey (key : String) : Value → Bool
  | .dict fields => fieldsContainKey key fields
  | .list xs => listContainsKey key xs
  | _ => false

def listContainsKey (key : String) : List Value → Bool
  | [] => false
  | x :: xs => containsKey key x || listContainsKey key xs

def fieldsContainKey (key : String) : List (String × Value) → Bool
  | [] => false
  | (name, value) :: fields =>
    name == key || containsKey key value || fieldsContainKey key fields

end

def messagesIncludeCacheControl (messages : List Value) : Bool :=
  listContainsKey "cache_control" messages

def messagesIncludeTools (messages : List Value) : Bool :=
  messages.any fun message =>
    match message with
    | .dict fields =>
      (match Fields.get fields "role" .none with
        | .str role => role == "tool"
        | _ => false) ||
      (Fields.get fields "tool_calls" .none).isSome ||
      (Fields.get fields "function_call" .none).isSome
    | _ => false

/-- One content part: `type` in a set of texts, then the other marks of an image. -/
def partIsVision (part : Value) : Except Error Bool :=
  match part with
  | .dict fields => do
    if ← (Fields.get fields "type" .none).inTexts ["image_url", "input_image"] then
      pure true
    else
      pure ((Fields.get fields "image_url" .none).isSome ||
        (Fields.get fields "source" .none).isSome)
  | _ => pure false

def messagesIncludeVision (messages : List Value) : Except Error Bool :=
  messages.anyM fun message =>
    match message with
    | .dict fields =>
      match Fields.get fields "content" .none with
      | .list parts => parts.anyM partIsVision
      | _ => pure false
    | _ => pure false

/-- The features that the parameters and messages ask for, in the order of the source's tests. -/
def requestedFeaturesFromParams (messages : List Value) (params : Fields) :
    Except Error (Finset String) := do
  let given (keys : List String) : Bool := keys.any fun key => (params.get key .none).isSome
  let feature (name : String) (requested : Bool) : Finset String :=
    if requested then {name} else ∅
  let vision ← messagesIncludeVision messages
  pure (feature "prompt_caching"
      (messagesIncludeCacheControl messages || given ["cachedContent", "cached_content"]) ∪
    feature "reasoning" (given ["thinking", "reasoning_effort"]) ∪
    feature "response_schema" (given ["response_format"]) ∪
    feature "tools" (given ["tools", "functions"] || messagesIncludeTools messages) ∪
    feature "tool_choice" (given ["tool_choice", "function_call"]) ∪
    feature "parallel_tool_calls" (given ["parallel_tool_calls"]) ∪
    feature "vision" vision)

/-- `_feature_supported(feature, model=, provider=)`: what litellm knows; an error is `none`. -/
abbrev Support := String → String → Option String → Option Bool

/-- The part of a model name before its first slash, and the part after it. -/
def splitSlash (model : String) : Option (String × String) :=
  let provider := model.toList.takeWhile (· != '/')
  if provider.length < model.length then
    some (String.ofList provider, String.ofList (model.toList.drop (provider.length + 1)))
  else
    none

def providerFromModel (model : String) : Option String :=
  (splitSlash model).bind fun (provider, _) => if provider = "" then none else some provider

def stripProviderPrefix (model : String) (provider : Option String) : String :=
  match provider with
  | some p =>
    if p ≠ "" ∧ (p ++ "/").toList.isPrefixOf model.toList then
      String.ofList (model.toList.drop (p.length + 1))
    else
      ((splitSlash model).map (·.2)).getD model
  | none => ((splitSlash model).map (·.2)).getD model

/-- `a or b` on optional texts. -/
def orText (a b : Option String) : Option String :=
  match a with
  | some s => if s = "" then b else some s
  | none => b

/-- The requested features that the selected model is known not to support, sorted; `none` where the
source returns `None`. -/
def detectDowngradedFeatures (support : Support) (requestedFeatures : Finset String)
    (upstreamModel provider : Option String) : Option (List String) :=
  match upstreamModel with
  | none => none
  | some upstreamModel =>
    if requestedFeatures = ∅ ∨ upstreamModel = "" then
      none
    else
      let provider := orText provider (providerFromModel upstreamModel)
      let model := stripProviderPrefix upstreamModel provider
      let downgraded := (sorted requestedFeatures).filter fun feature =>
        support feature model provider = some false
      if downgraded = [] then none else some downgraded

abbrev Headers := List (String × String)

def downgradedHeader (features : Option (List String)) : Headers :=
  match features with
  | none | some [] => []
  | some features => [("X-Gateway-Downgraded", ",".intercalate features)]

end Gateway
