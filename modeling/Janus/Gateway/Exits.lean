import Janus.Gateway.Endpoints

/-!
# How an admitted request leaves

Which cleanup a request reaches, from what it learns from outside (`exit`). The handlers are
compared with it in `Janus.Gateway.Proof.Accounts`.
-/

set_option autoImplicit false

namespace Gateway.Handler

open Janus Python RateLimit

/-- What `check_quota` reserved. -/
def quotaReservations (w : World) : List QuotaReservation :=
  match w.quota with
  | .value quotaResult => quotaResult.reservations
  | .raises _ => []
  | .cancelled => w.orphaned

/-- How an admitted request leaves: its quota check raises, nothing is given back, the finalizer
runs, or its generator's cleanup runs. -/
inductive Exit
  | denied
  | abandoned
  | finalized
  | streamed
deriving DecidableEq

/-- By how the call ends. -/
def Awaited.elim {T β : Type} (value : T → β) (raises cancelled : β) : Awaited T → β
  | .value a => value a
  | .raises _ => raises
  | .cancelled => cancelled

/-- How the request leaves when its quota check ends as it does. -/
def exitQuota (w : World) (exit : Exit) : Exit := w.quota.elim (fun _ => exit) .denied .abandoned

/-- How the request leaves when the upstream call ends as `opened` says. -/
def exitOpened (opened : Awaited Upstream) (exit : Upstream → Exit) : Exit :=
  opened.elim exit .finalized .abandoned

/-- A helper of the source that may raise, and otherwise the rest. -/
def exitHelper {T : Type} (result : Except Python.Error T) (exit : Exit) : Exit :=
  if result.isOk then exit else .abandoned

def exitRouter (w : World) (exit : Exit) : Exit := if w.router then exit else .abandoned

/-- A generator that cannot get its iterator never reaches its cleanup. -/
def exitIter (u : Upstream) : Exit := if u.iterError.isNone then .streamed else .abandoned

/-- How a streaming reply leaves. -/
def exitStream (w : World) (u : Upstream) : Exit := if w.starts then exitIter u else .abandoned

/-! ## Each endpoint -/

/-- After the quota check: the response cache, then the router and the upstream call. -/
def exitCompletion (w : World) (stream : Bool) (params : Fields) : Exit :=
  match isCacheableRequest stream w.responseCacheEnabled params with
  | .error _ => .abandoned
  | .ok cacheable =>
    match if cacheable then w.cached else none with
    | some cached => exitHelper (extractUsage w.parseInt (.dict cached)) .finalized
    | none => exitRouter w (exitOpened w.opened fun u =>
        if stream then exitStream w u
        else exitHelper (extractUsage w.parseInt u.body) .finalized)

/-- After the quota check: the router and the upstream call, then the features and the usage. -/
def exitNative (w : World) (stream : Bool) (features : Except Python.Error (Finset String))
    (usage : Value → Except Python.Error Usage) : Exit :=
  exitRouter w (exitOpened w.opened fun u =>
    if stream then exitHelper features (exitStream w u)
    else exitHelper (usage u.body) (exitHelper features .finalized))

/-- After the quota check: the features, then the upstream call with the router inside it. -/
def exitResponses (w : World) (payload : ResponsesRequest) : Exit :=
  exitHelper payload.requestedFeatures
    (if w.router then exitOpened w.opened fun u =>
        if payload.stream then exitStream w u
        else exitHelper (extractResponsesUsage w.parseInt u.body) .finalized
      else .finalized)

def exitEmbeddings (w : World) : Exit :=
  exitRouter w (exitOpened w.opened fun u =>
    exitHelper (extractEmbeddingUsage w.parseInt u.body) .finalized)

/-- How an admitted request leaves (module doc). -/
def exit (w : World) (logicalModel : LogicalModel) (request : Request) : Exit :=
  exitQuota w <|
    match request with
    | .chatCompletions payload => exitCompletion w payload.stream payload.extra
    | .messages payload =>
      exitNative w payload.stream
        (requestedFeaturesFromParams payload.messages (payload.nativeParams logicalModel))
        (extractAnthropicUsage w.parseInt)
    | .generateContent payload stream =>
      exitNative w stream
        (requestedFeaturesFromParams payload.contents (payload.nativeParams logicalModel))
        (extractGeminiUsageFromResponse w.parseInt)
    | .responses payload => exitResponses w payload
    | .embeddings _ => exitEmbeddings w

end Gateway.Handler
