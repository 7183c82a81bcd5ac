import Janus.Cache.Versioned
import Janus.Exceptions
import Janus.Gateway.Repository

/-!
# Cached gateway configuration (`gateway/cache.py`, `gateway/service.py`)

Model resolutions and quota rules are cached under keys that embed a shared, the user's and the
department's generation. Getting and setting an entry are two functions, and each reads the three
generations itself. Redis does not fail here; an entry may disappear at any time, which stands for
its TTL.

* `resolveModel`, `getActiveQuotasCached`: the two readers of `GatewayService`.
* `mutate`: an admin write: commit, then the after-commit hooks that bump generations.
-/

set_option autoImplicit false

namespace Gateway

open Conc Janus

/-- `janus:gw:v1:catalog:gen`, `janus:gw:v1:grant:gen:u:{id}` and so on. -/
inductive Counter
  | catalog
  | grantUser (id : Int)
  | grantDept (id : Int)
  | quotaGlobal
  | quotaUser (id : Int)
  | quotaDept (id : Int)
deriving DecidableEq

/-- `_resolve_cache_key` and `_quota_cache_key`. -/
inductive Key
  | resolve (catalogGen userGen deptGen : Nat) (userId deptId : Int) (model : String)
  | quotaCfg (globalGen userGen deptGen : Nat) (userId deptId modelId : Int)
deriving DecidableEq

/-- A cached JSON text: what `json.dumps` wrote, or a text `json.loads` rejects. -/
inductive Cached (T : Type)
  | object (data : T)
  | malformed

def Cached.loads {T : Type} : Cached T → Option T
  | .object data => some data
  | .malformed => none

/-- A resolution is cached with the fields of `LogicalModel`, quota rules with those of `Quota`;
decimals are stored as their exact texts. -/
@[reducible] def Key.Value : Key → Type
  | .resolve .. => Cached LogicalModel
  | .quotaCfg .. => Cached (List Quota)

abbrev Cmd := Versioned.Cmd Db Counter Key Key.Value Query
abbrev Resp : Cmd → Type := Versioned.Cmd.Resp Query.Answer
abbrev Io (α : Type) := Prog Cmd Resp α

abbrev issue (c : Cmd) : Io (Resp c) := Prog.cmd c

/-! ## `gateway/cache.py` -/

/-- One `GET`; a counter that was never incremented reads as 0. -/
def getGeneration (key : Counter) : Io Nat := do
  let val ← issue (.gens [key])
  pure ((val key).getD 0)

def bumpGeneration (key : Counter) : Io Unit := do
  let _ ← issue (.incr key)

def bumpGrantGeneration (userId deptId : Option Int) : Io Unit := do
  if let some id := userId then bumpGeneration (.grantUser id)
  if let some id := deptId then bumpGeneration (.grantDept id)

def bumpQuotaGeneration (userId deptId : Option Int) (isGlobal : Bool) : Io Unit := do
  if isGlobal then bumpGeneration .quotaGlobal
  if let some id := userId then bumpGeneration (.quotaUser id)
  if let some id := deptId then bumpGeneration (.quotaDept id)

def getCachedResolution (userId : Int) (deptId : Option Int) (requestedModel : String) :
    Io (Option LogicalModel) := do
  let catalogGen ← getGeneration .catalog
  let userGen ← getGeneration (.grantUser userId)
  let deptGen ← getGeneration (.grantDept (deptId.getD 0))
  let raw ← issue
    (.get (.resolve catalogGen userGen deptGen userId (deptId.getD 0) requestedModel))
  pure (raw.bind Cached.loads)

def setCachedResolution (userId : Int) (deptId : Option Int) (requestedModel : String)
    (data : LogicalModel) : Io Unit := do
  let catalogGen ← getGeneration .catalog
  let userGen ← getGeneration (.grantUser userId)
  let deptGen ← getGeneration (.grantDept (deptId.getD 0))
  issue (.set (.resolve catalogGen userGen deptGen userId (deptId.getD 0) requestedModel)
    (.object data))

def getCachedQuotaConfig (userId : Int) (deptId : Option Int) (modelId : Int) :
    Io (Option (List Quota)) := do
  let globalGen ← getGeneration .quotaGlobal
  let userGen ← getGeneration (.quotaUser userId)
  let deptGen ← getGeneration (.quotaDept (deptId.getD 0))
  let raw ← issue (.get (.quotaCfg globalGen userGen deptGen userId (deptId.getD 0) modelId))
  pure (raw.bind Cached.loads)

def setCachedQuotaConfig (userId : Int) (deptId : Option Int) (modelId : Int)
    (data : List Quota) : Io Unit := do
  let globalGen ← getGeneration .quotaGlobal
  let userGen ← getGeneration (.quotaUser userId)
  let deptGen ← getGeneration (.quotaDept (deptId.getD 0))
  issue (.set (.quotaCfg globalGen userGen deptGen userId (deptId.getD 0) modelId) (.object data))

/-! ## `gateway/service.py` -/

def defaultModelSentinel : String := "\x00__janus_default__"

def modelNotFound : AppError := { code := .modelNotFound, statusCode := 404 }

def modelNotGranted (model : LogicalModel) : AppError :=
  { code := .modelNotGranted, statusCode := 403, params := [("model", model.name)] }

/-- The logical model the request names, or the default one; `none` raises `modelNotFound`. -/
def findModel (userId : Int) (deptId : Option Int) (requestedModel : Option String) :
    Io (Option LogicalModel) :=
  match requestedModel with
  | none => do
    match ← issue (.query (.defaultModelId userId deptId)) with
    | none => pure none
    | some defaultModelId => issue (.query (.logicalModelById defaultModelId))
  | some name => issue (.query (.logicalModelByName name))

def resolveModel (userId : Int) (deptId : Option Int) (requestedModel : Option String) :
    Io (Except AppError LogicalModel) := do
  let cacheModelKey := requestedModel.getD defaultModelSentinel
  match ← getCachedResolution userId deptId cacheModelKey with
  | some cached => pure (.ok cached)
  | none =>
    match ← findModel userId deptId requestedModel with
    | none => pure (.error modelNotFound)
    | some logicalModel => do
      let grants ← issue (.query (.userGrantedModels userId deptId))
      if logicalModel.id ∉ grants then
        pure (.error (modelNotGranted logicalModel))
      else do
        setCachedResolution userId deptId cacheModelKey logicalModel
        pure (.ok logicalModel)

def getActiveQuotasCached (userId : Int) (deptId : Option Int) (logicalModelId : Int) :
    Io (List Quota) := do
  match ← getCachedQuotaConfig userId deptId logicalModelId with
  | some cached => pure cached
  | none =>
    let quotas ← issue (.query (.activeQuotas userId deptId logicalModelId))
    setCachedQuotaConfig userId deptId logicalModelId quotas
    pure quotas

/-! ## Admin writes -/

/-- The after-commit hooks of the grant, quota and catalog services. -/
inductive Hook
  | bumpGrantCacheGeneration (scope : GrantScope) (scopeId : Int)
  | bumpQuotaCacheGeneration (scope : QuotaScope) (scopeId : Option Int)
  | bumpCatalogCacheGeneration

def Hook.prog : Hook → Io Unit
  | .bumpGrantCacheGeneration .user scopeId => bumpGrantGeneration (some scopeId) none
  | .bumpGrantCacheGeneration .department scopeId => bumpGrantGeneration none (some scopeId)
  | .bumpQuotaCacheGeneration .global _ => bumpQuotaGeneration none none true
  | .bumpQuotaCacheGeneration .user scopeId => bumpQuotaGeneration scopeId none false
  | .bumpQuotaCacheGeneration .department scopeId => bumpQuotaGeneration none scopeId false
  | .bumpCatalogCacheGeneration => bumpGeneration .catalog

/-- A transaction that changes the tables by `change`, and its hooks. -/
def mutate (change : Db → Db) (hooks : List Hook) : Io Unit := do
  let _ ← issue (.commit change)
  forM hooks Hook.prog

def softDeleteGrant (id : Int) (d : Db) : Db :=
  { d with grants := d.grants.map fun g => if g.id = id then { g with isDeleted := true } else g }

/-- `GrantService.delete_grant`, once it has read the grant. -/
def deleteGrant (grant : UserModelGrant) : Io Unit :=
  mutate (softDeleteGrant grant.id) [.bumpGrantCacheGeneration grant.scope grant.scopeId]

end Gateway
