import Janus.GatewayAdmin.Tables

/-!
# Grants and quotas (`admin/grants/service.py`, `admin/quota/service.py`)

The subject of a grant and the identity of a quota are never updated. After a write the generation
of the subject is bumped.
-/

set_option autoImplicit false

namespace GatewayAdmin

open Sql
open Gateway (ActiveStatus GrantScope QuotaScope QuotaPeriod QuotaMetric)
open Rbac (AuthenticatedUser column setsNull)

/-! ## Grants -/

structure GrantCreate where
  scope : GrantScope
  scopeId : Int
  logicalModelId : Int
  isDefault : Bool := false
  remark : Option String := none

/-- A field that is not set is `none`, and an explicit null is `some none`. -/
structure GrantUpdate where
  isDefault : Option (Option Bool) := none
  remark : Option (Option String) := none

def UserModelGrant.set (row : UserModelGrant) (values : GrantUpdate) (updatedBy : Int) :
    UserModelGrant :=
  { row with
    isDefault := column values.isDefault row.isDefault
    remark := values.remark.getD row.remark
    updatedBy := some updatedBy }

def GrantUpdate.fits (values : GrantUpdate) : Bool := !setsNull values.isDefault

/-- The user or the department exists. -/
def Tables.hasSubject (db : Tables) : GrantScope → Int → Bool
  | .user, id => decide (id ∈ db.users)
  | .department, id => decide (id ∈ db.departments)

def requireModelExists (id : Int) : Service Unit := do
  let found ← query fun db => (models.get db id).isSome
  Work.require (found = true) (.requestInvalid 400)

/-- The default grant of the subject is one no more. -/
def clearDefault (scope : GrantScope) (scopeId : Int) (actor : AuthenticatedUser) : Service Unit := do
  let current ← query fun db =>
    first (fun row => row.scope == scope && row.scopeId == scopeId && row.isDefault &&
      !row.isDeleted) db.grants
  match current with
  | none => pure ()
  | some (id, row) =>
    grants.update id { row with isDefault := false, updatedBy := some actor.userId } true

def createGrant (newId : Int) (payload : GrantCreate) (actor : AuthenticatedUser) :
    Service UserModelGrant := do
  let found ← query fun db => db.hasSubject payload.scope payload.scopeId
  Work.require (found = true) (.requestInvalid 400)
  requireModelExists payload.logicalModelId
  grants.requireNone
    (fun row => row.scope == payload.scope && row.scopeId == payload.scopeId &&
      row.logicalModelId == payload.logicalModelId) none (.requestInvalid 400)
  Work.when (payload.isDefault = true) (clearDefault payload.scope payload.scopeId actor)
  let grant : UserModelGrant :=
    { toBaseEntity := .created actor
      scope := payload.scope
      scopeId := payload.scopeId
      logicalModelId := payload.logicalModelId
      isDefault := payload.isDefault
      remark := payload.remark }
  grants.create newId grant true
  addAfterCommitHook (.bumpGeneration (.bumpGrantCacheGeneration payload.scope payload.scopeId))
  pure grant

def updateGrant (id : Int) (payload : GrantUpdate) (actor : AuthenticatedUser) :
    Service UserModelGrant := do
  let grant ← grants.require id
  Work.when (payload.isDefault = some (some true) ∧ grant.isDefault = false)
    (clearDefault grant.scope grant.scopeId actor)
  let row := grant.set payload actor.userId
  grants.update id row payload.fits
  addAfterCommitHook (.bumpGeneration (.bumpGrantCacheGeneration grant.scope grant.scopeId))
  pure row

def deleteGrant (id : Int) (actor : AuthenticatedUser) : Service Unit := do
  let grant ← grants.require id
  grants.softDelete id { grant with isDeleted := true, updatedBy := some actor.userId }
  addAfterCommitHook (.bumpGeneration (.bumpGrantCacheGeneration grant.scope grant.scopeId))

/-! ## Quotas -/

structure QuotaCreate where
  scope : QuotaScope
  scopeId : Option Int := none
  logicalModelId : Option Int := none
  period : QuotaPeriod
  metric : QuotaMetric := .tokens
  limitValue : Rat
  enforce : Bool := true
  status : ActiveStatus := .active
  remark : Option String := none

structure QuotaUpdate where
  limitValue : Option (Option Rat) := none
  enforce : Option (Option Bool) := none
  status : Option (Option ActiveStatus) := none
  remark : Option (Option String) := none

/-- A limit as `Numeric(14, 6)` stores it. -/
def limit (x : Rat) (old : Rat) : Rat := (numeric 14 6 x).getD old

def limitFits (x : Rat) : Bool := (numeric 14 6 x).isSome

def Quota.set (row : Quota) (values : QuotaUpdate) (updatedBy : Int) : Quota :=
  { row with
    limitValue := (values.limitValue.join.map fun x => limit x row.limitValue).getD row.limitValue
    enforce := column values.enforce row.enforce
    status := column values.status row.status
    remark := values.remark.getD row.remark
    updatedBy := some updatedBy }

def QuotaUpdate.fits (values : QuotaUpdate) : Bool :=
  !(setsNull values.limitValue || setsNull values.enforce || setsNull values.status) &&
    values.limitValue.join.all limitFits

def validateScope (scope : QuotaScope) (scopeId : Option Int) : Service Unit := do
  Work.require (¬ (scope = .global ∧ scopeId ≠ none)) (.requestInvalid 400)
  Work.require (¬ (scope ≠ .global ∧ scopeId = none)) (.requestInvalid 400)

def requireGlobalAllowed (scope : QuotaScope) (actor : AuthenticatedUser) : Service Unit :=
  Work.require (scope = .global → actor.isSuperuser) .authForbidden

def requireVisibleQuota (id : Int) (actor : AuthenticatedUser) : Service Quota := do
  let quota ← quotas.require id
  requireGlobalAllowed quota.scope actor
  pure quota

/-- The model of a quota exists if it is for one model. -/
def requireModelIfSet (logicalModelId : Option Int) : Service Unit :=
  match logicalModelId with
  | none => pure ()
  | some modelId => requireModelExists modelId

/-- The subject of a quota exists if it is one user or one department. -/
def Tables.hasQuotaSubject (db : Tables) (scope : QuotaScope) (scopeId : Option Int) : Bool :=
  match scope, scopeId with
  | .user, some id => decide (id ∈ db.users)
  | .department, some id => decide (id ∈ db.departments)
  | _, _ => true

def bumpQuota (quota : Quota) : Service Unit :=
  addAfterCommitHook (.bumpGeneration (.bumpQuotaCacheGeneration quota.scope quota.scopeId))

def createQuota (newId : Int) (payload : QuotaCreate) (actor : AuthenticatedUser) :
    Service Quota := do
  validateScope payload.scope payload.scopeId
  requireGlobalAllowed payload.scope actor
  let found ← query fun db => db.hasQuotaSubject payload.scope payload.scopeId
  Work.require (found = true) (.requestInvalid 400)
  requireModelIfSet payload.logicalModelId
  let quota : Quota :=
    { toBaseEntity := .created actor
      scope := payload.scope
      scopeId := payload.scopeId
      logicalModelId := payload.logicalModelId
      period := payload.period
      metric := payload.metric
      limitValue := limit payload.limitValue 0
      enforce := payload.enforce
      status := payload.status
      remark := payload.remark }
  quotas.requireNone (fun row => row.identity == quota.identity) none .requestConflict
  quotas.create newId quota (limitFits payload.limitValue)
  bumpQuota quota
  pure quota

def updateQuota (id : Int) (payload : QuotaUpdate) (actor : AuthenticatedUser) : Service Quota := do
  let quota ← requireVisibleQuota id actor
  let row := quota.set payload actor.userId
  quotas.update id row payload.fits
  bumpQuota row
  pure row

def deleteQuota (id : Int) (actor : AuthenticatedUser) : Service Unit := do
  let quota ← requireVisibleQuota id actor
  quotas.softDelete id { quota with isDeleted := true, updatedBy := some actor.userId }
  bumpQuota quota

end GatewayAdmin
