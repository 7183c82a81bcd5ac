import Janus.Core.ChannelCrypto
import Janus.GatewayAdmin.Tables

/-!
# Building and replacing routers (`gateway/router_factory.py`, `RouterManager.rebuild`)

A router is known by the model list that `build_router` gives to LiteLLM; whether LiteLLM takes it
is a parameter (`Litellm`). Encryption keys and other settings stay the same while the process runs.

* `litellmParams`: the parameters of one deployment, with those of `extra_config` that are allowed.
* `modelList`, `buildRouter`: what is given to LiteLLM, and the router if LiteLLM takes it.
* `Manager.rebuild`: the router is built again unless the fingerprint of its rows is the same.
-/

set_option autoImplicit false

namespace RouterFactory

open ChannelCrypto
open Python (Fields Value eqItems)
open GatewayAdmin (RouterDeploymentRow Protocol)

def allowedExtraKeys : List String :=
  ["api_version", "region_name", "vertex_project", "vertex_location", "aws_access_key_id",
    "aws_secret_access_key", "aws_region_name"]

/-- `params[key] = value`, if there is a value. -/
def setIfSome (params : Fields) (key : String) : Option Value → Fields
  | none => params
  | some value => params.set key value

/-- The parameters that a row has of its own. -/
def baseParams (apiKey : String) (row : RouterDeploymentRow) : Fields :=
  let params : Fields :=
    [("model", .str (row.provider ++ "/" ++ row.upstreamModel)), ("api_key", .str apiKey)]
  let params := setIfSome params "api_base" (row.apiBase.map .str)
  let params := setIfSome params "rpm" (row.keyRpmLimit.map .int)
  setIfSome params "tpm" (row.keyTpmLimit.map .int)

/-- The loop over the items of `extra_config`. -/
def addExtra (params : Fields) : Fields → Fields
  | [] => params
  | (k, v) :: items =>
    addExtra (if k ∈ allowedExtraKeys ∧ v.isSome = true then params.set k v else params) items

def litellmParams (apiKey : String) (row : RouterDeploymentRow) : Fields :=
  match row.extraConfig with
  | none => baseParams apiKey row
  | some extra => addExtra (baseParams apiKey row) extra.fields

structure Deployment where
  modelName : String
  litellmParams : Fields
  modelInfo : Fields
  weight : Int
  priority : Int

/-- LiteLLM's `Router(model_list=…)`, whose other arguments do not depend on the rows. It raises where
it cannot set a deployment up, and returns where it can set up each of them. -/
structure Litellm where
  accepts : Deployment → Bool
  returns : List Deployment → Bool
  returns_of_accepts : ∀ modelList, (∀ d ∈ modelList, accepts d = true) → returns modelList = true

/-- The router that LiteLLM has made from this list. -/
structure Router where
  modelList : List Deployment

/-- A key cannot be decrypted, or LiteLLM raises. -/
inductive BuildError
  | crypto (e : ChannelCrypto.Error)
  | litellm
deriving DecidableEq, Repr

section

variable {Nonce : Type} (litellm : Litellm) (fernet : Fernet Nonce) (raw : Option String)

def deploymentOf (apiKey : String) (row : RouterDeploymentRow) : Deployment where
  modelName := row.logicalModelName
  litellmParams := litellmParams apiKey row
  modelInfo := [("id", .str (toString row.channelId)),
    ("channel_key_id", .str (toString row.channelKeyId)), ("provider", .str row.provider),
    ("upstream_model", .str row.upstreamModel)]
  weight := row.deploymentWeight * row.keyWeight
  priority := row.deploymentPriority

def deployment (row : RouterDeploymentRow) : Except BuildError Deployment :=
  match decryptChannelKey fernet raw row.apiKeyEncrypted with
  | .ok apiKey => .ok (deploymentOf apiKey row)
  | .error e => .error (.crypto e)

/-- The loop over the rows. -/
def modelList (rows : List RouterDeploymentRow) : Except BuildError (List Deployment) :=
  rows.mapM (deployment fernet raw)

def buildRouter (rows : List RouterDeploymentRow) : Except BuildError Router := do
  let modelList ← modelList fernet raw rows
  if litellm.returns modelList then pure { modelList } else .error .litellm

end

/-! ## `RouterManager.rebuild` -/

/-- A row of `_fingerprint`. -/
structure RowFingerprint where
  logicalModelName : String
  logicalModelId : Int
  upstreamModel : String
  provider : String
  protocol : Protocol
  apiBase : Option String
  extraItems : Fields
  apiKeyEncrypted : String
  channelId : Int
  channelKeyId : Int
  deploymentWeight : Int
  deploymentPriority : Int
  keyWeight : Int
  keyRpmLimit : Option Int
  keyTpmLimit : Option Int
deriving DecidableEq

def rowFingerprint (row : RouterDeploymentRow) : RowFingerprint where
  logicalModelName := row.logicalModelName
  logicalModelId := row.logicalModelId
  upstreamModel := row.upstreamModel
  provider := row.provider
  protocol := row.protocol
  apiBase := row.apiBase
  extraItems := (row.extraConfig.getD .empty).sortedItems
  apiKeyEncrypted := row.apiKeyEncrypted
  channelId := row.channelId
  channelKeyId := row.channelKeyId
  deploymentWeight := row.deploymentWeight
  deploymentPriority := row.deploymentPriority
  keyWeight := row.keyWeight
  keyRpmLimit := row.keyRpmLimit
  keyTpmLimit := row.keyTpmLimit

abbrev Fingerprint := List RowFingerprint

def fingerprint (rows : List RouterDeploymentRow) : Fingerprint := rows.map rowFingerprint

/-- `==` of two rows of fingerprints. -/
def RowFingerprint.eq (x y : RowFingerprint) : Bool :=
  decide ({ x with extraItems := [] } = { y with extraItems := [] }) &&
    eqItems x.extraItems y.extraItems

def Fingerprint.eq : Fingerprint → Fingerprint → Bool
  | [], [] => true
  | x :: xs, y :: ys => x.eq y && Fingerprint.eq xs ys
  | _, _ => false

/-- The rows of channels that are not degraded. -/
def withoutDegraded (degraded : Finset Int) (rows : List RouterDeploymentRow) :
    List RouterDeploymentRow := rows.filter fun row => decide (row.channelId ∉ degraded)

/-- `_router` and `_router_fingerprint`. -/
structure Manager where
  router : Option Router := none
  fingerprint : Option Fingerprint := none

namespace Manager

variable {Nonce : Type} (litellm : Litellm) (fernet : Fernet Nonce) (raw : Option String)

/-- The rows have been read, and the ids of degraded channels (none if Redis fails). -/
def rebuild (rows : List RouterDeploymentRow) (degraded : Finset Int) (m : Manager) :
    Except BuildError Manager :=
  let rows := withoutDegraded degraded rows
  let current := RouterFactory.fingerprint rows
  if m.router.isSome = true ∧ m.fingerprint.any current.eq = true then .ok m
  else (buildRouter litellm fernet raw rows).map fun router =>
    { router := some router, fingerprint := some current }

/-- The managers after any rebuilds; one that raises leaves the manager. -/
inductive Reachable : Manager → Prop
  | start : Reachable {}
  | rebuild {m m' : Manager} (rows : List RouterDeploymentRow) (degraded : Finset Int)
      (h : Reachable m) (hm : m.rebuild litellm fernet raw rows degraded = .ok m') : Reachable m'

end Manager

end RouterFactory
