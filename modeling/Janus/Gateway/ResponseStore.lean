import Mathlib
import Janus.Conc.Pool
import Janus.Gateway.Router
import Janus.Python.Json

/-!
# The response cache in Redis (`gateway/response_cache.py`)

A response is found by the text of its key, which ends in a hash of the request's text. `Completion`s
are requests whose handlers run side by side on one cache, each with the catalog generation it
read; an entry may expire at any time. The generators of streams do not use the cache.

* `computeFingerprint`, `responseCacheKey`: `compute_fingerprint`, `_response_cache_key`.
* `Completion.Same`: what two requests have in common that are meant to share a response.
-/

set_option autoImplicit false

namespace Gateway

open Python

section

variable (texts : Json.Texts) (digest : String → String)

/-- The text that `compute_fingerprint` hashes. -/
def fingerprintText (model : String) (messages : List Value) (params : Fields) : String :=
  Json.dumps texts
    (.dict [("model", .str model), ("messages", .list messages), ("params", .dict params)])

/-- `digest` is `hashlib.sha256(raw.encode()).hexdigest()[:32]`. -/
def computeFingerprint (model : String) (messages : List Value) (params : Fields) : String :=
  digest (fingerprintText texts model messages params)

end

/-- `_response_cache_key`. -/
def responseCacheKey (catalogGen modelId : Int) (fingerprint : String) : String :=
  s!"janus:gw:v1:resp:{catalogGen}:m:{modelId}:h:{fingerprint}"

namespace Handler

open Conc

/-! ## Redis -/

/-- `json.dumps(…, default=str)`, which may raise, and `json.loads`. -/
structure JsonTexts where
  dumps : Value → Option String
  loads : String → Option Value

/-- The texts that are stored. -/
abbrev Entries := String → Option String

/-- `get_cached_response`, for the generation it read. -/
def getCachedResponse (json : JsonTexts) (entries : Entries) (catalogGen modelId : Int)
    (fingerprint : String) : Option Fields :=
  match (entries (responseCacheKey catalogGen modelId fingerprint)).bind json.loads with
  | some (.dict fields) => some fields
  | _ => none

/-- `set_cached_response`, for the generation it read; whatever raises is suppressed. -/
def setCachedResponse (json : JsonTexts) (entries : Entries) (catalogGen modelId : Int)
    (fingerprint : String) (data : Value) : Entries :=
  match json.dumps data with
  | none => entries
  | some raw => Function.update entries (responseCacheKey catalogGen modelId fingerprint) (some raw)

/-- What the calls of a handler do to the entries. Redis may fail. -/
def cacheSem (json : JsonTexts) : Sem Cmd Cmd.Resp Entries := fun c entries _ entries' =>
  match c with
  | .setCachedResponse modelId fingerprint data _ => entries' = entries ∨
      ∃ catalogGen, entries' = setCachedResponse json entries catalogGen modelId fingerprint data
  | _ => entries' = entries

/-- An entry expires. -/
def expire (entries entries' : Entries) : Prop :=
  ∃ key, entries' = Function.update entries key none

/-! ## Requests -/

/-- A request for a completion, whose body was decoded from JSON. -/
structure Completion (texts : Json.Texts) (digest : String → String) where
  world : World
  payload : OpenAIRequest
  model : LogicalModel
  resolved : world.model = .ok model
  fingerprint : world.fingerprint = computeFingerprint texts digest
  messages : ∀ message ∈ payload.messages, Json.decoded texts message = true
  params : Json.decoded texts (.dict payload.extra) = true

namespace Completion

variable {texts : Json.Texts} {digest : String → String}

def text (q : Completion texts digest) : String :=
  fingerprintText texts q.model.name q.payload.messages q.payload.extra

def handler (q : Completion texts digest) : Prog Cmd Cmd.Resp (Except Raised Reply) :=
  (openaiChatCompletions q.world q.payload).run

/-- The same model, and the same messages and parameters up to the order of keys. -/
structure Same (q q' : Completion texts digest) : Prop where
  modelId : q.model.id = q'.model.id
  modelName : q.model.name = q'.model.name
  messages : List.Forall₂ (fun x y => Json.canon x = Json.canon y) q.payload.messages
    q'.payload.messages
  params : ∀ key, (q.payload.extra.lookup key).map Json.canon =
    (q'.payload.extra.lookup key).map Json.canon

/-- The text of the key of `q` in that generation. -/
def key (q : Completion texts digest) (catalogGen : Int) : String :=
  responseCacheKey catalogGen q.model.id
    (q.world.fingerprint q.model.name q.payload.messages q.payload.extra)

def Cacheable (q : Completion texts digest) : Prop :=
  isCacheableRequest q.payload.stream q.world.responseCacheEnabled q.payload.extra = .ok true

/-- The JSON form of what the upstream answers to `q`. -/
def Upstreamed (q : Completion texts digest) (content : Value) : Prop :=
  q.payload.stream = false ∧ ∃ u, q.world.opened = .value u ∧ u.dump = .ok content

/-- What `q` gets from the entries. Redis may fail. -/
def Reads (json : JsonTexts) (q : Completion texts digest) (entries : Entries) : Prop :=
  q.world.cached = none ∨ ∃ catalogGen, q.world.cached =
    getCachedResponse json entries catalogGen q.model.id
      (q.world.fingerprint q.model.name q.payload.messages q.payload.extra)

end Completion

end Handler

end Gateway
