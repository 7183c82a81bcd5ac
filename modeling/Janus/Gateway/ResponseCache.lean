import Janus.Python.Value

/-!
# Eligibility for the response cache (`gateway/response_cache.py`)

The parameters of a request are any JSON values; comparing a non-number with 1 raises.
-/

set_option autoImplicit false

namespace Gateway

open Python

/-- `isinstance(v, (int, float)) and not isinstance(v, bool) and v == 0`. -/
def isZeroNumber : Value → Bool
  | .int n => n == 0
  | .float (.finite q) => q == 0
  | _ => false

def isCacheableRequest (stream responseCacheEnabled : Bool) (params : Fields) :
    Except Error Bool := do
  if stream then return false
  if !responseCacheEnabled then return false
  if ← (params.get "n" (.int 1)).gt 1 then return false
  if !isZeroNumber (params.get "temperature" .none) then return false
  return !((params.get "tools" .none).truthy || (params.get "tool_choice" .none).truthy)

/-- `getattr(v, name, None)`, and where that is falsy, `v.get(name)` of a dict. -/
def attrOrKey (v : Value) (name : String) : Value :=
  let attr := v.getattr name .none
  if attr.truthy then attr
  else
    match v with
    | .dict fields => Fields.get fields name .none
    | _ => .none

def isCacheableResponse (response : Value) : Except Error Bool := do
  let choices := attrOrKey response "choices"
  if !choices.truthy then return false
  let first ← choices.getIndex 0
  return first.isSome && !(attrOrKey (attrOrKey first "message") "tool_calls").truthy

/-- `fingerprint is not None and is_cacheable_response(response)`. -/
def isStorable (cacheable : Bool) (response : Value) : Except Error Bool :=
  if cacheable then isCacheableResponse response else .ok false

end Gateway
