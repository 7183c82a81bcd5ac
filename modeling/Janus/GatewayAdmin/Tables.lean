import Mathlib.Data.Prod.Lex
import Janus.Admin.Rbac
import Janus.Gateway.Cache
import Janus.Python.Dict
import Janus.Sql.Index

/-!
# The gateway's configuration (`db/models/model_catalog.py`, `grant.py`, `quota.py`)

The tables that the catalog, grant and quota services write and the gateway reads, with their
constraints. Ids and other integers fit their columns; decimals are rounded to theirs.

* `view`: the tables as the cached queries of the gateway see them.
* `getRouterConfig`: the expansion that a router is built from.
* `Service`: a method of a service in its unit of work.
-/

set_option autoImplicit false

namespace GatewayAdmin

open Sql
open Gateway (ActiveStatus GrantScope QuotaScope QuotaPeriod QuotaMetric)
open Rbac (AuthenticatedUser)

inductive Protocol
  | anthropic
  | openai
  | gemini
deriving DecidableEq, Repr

/-- The columns of every table. -/
structure BaseEntity where
  isDeleted : Bool := false
  createdBy : Option Int := none
  createDept : Option Int := none
  updatedBy : Option Int := none
deriving DecidableEq

def BaseEntity.created (actor : AuthenticatedUser) : BaseEntity where
  createdBy := some actor.userId
  createDept := actor.departmentId
  updatedBy := some actor.userId

structure UpstreamChannel extends BaseEntity where
  name : String
  provider : String
  protocol : Protocol
  apiBase : Option String
  extraConfig : Option Python.Dict
  status : ActiveStatus
  remark : Option String

structure ChannelKey extends BaseEntity where
  channelId : Int
  keyAlias : String
  apiKeyEncrypted : String
  keyHint : String
  status : ActiveStatus
  rpmLimit : Option Int
  tpmLimit : Option Int
  weight : Int
  priority : Int
  remark : Option String

structure LogicalModel extends BaseEntity where
  name : String
  displayName : String
  category : Option String
  sortOrder : Int
  contextLength : Option Int
  priceInput : Option Rat
  priceOutput : Option Rat
  status : ActiveStatus
  remark : Option String

structure ModelDeployment extends BaseEntity where
  logicalModelId : Int
  channelId : Int
  upstreamModel : String
  weight : Int
  priority : Int
  status : ActiveStatus
  remark : Option String

structure UserModelGrant extends BaseEntity where
  scope : GrantScope
  scopeId : Int
  logicalModelId : Int
  isDefault : Bool
  remark : Option String

structure Quota extends BaseEntity where
  scope : QuotaScope
  scopeId : Option Int
  logicalModelId : Option Int
  period : QuotaPeriod
  metric : QuotaMetric
  limitValue : Rat
  enforce : Bool
  status : ActiveStatus
  remark : Option String

/-- `users` and `departments`: the ids of the rows that are not deleted. -/
structure Tables where
  users : Finset Int
  departments : Finset Int
  channels : Table Int UpstreamChannel
  keys : Table Int ChannelKey
  models : Table Int LogicalModel
  deployments : Table Int ModelDeployment
  grants : Table Int UserModelGrant
  quotas : Table Int Quota

/-- A decimal as `Numeric(precision, scale)` stores it: rounded half away from zero, or out of its
range. -/
def numeric (precision scale : Nat) (x : Rat) : Option Rat :=
  let magnitude := ⌊|x| * 10 ^ scale + 1 / 2⌋
  if magnitude < 10 ^ precision then some ((if x < 0 then -magnitude else magnitude) / 10 ^ scale)
  else none

/-! ## Constraints -/

/-- The entry of a row in an index `WHERE is_deleted = false`. -/
def indexed {V κ : Type} (base : V → BaseEntity) (key : V → κ) (row : V) : Option κ :=
  if (base row).isDeleted then none else some (key row)

def UserModelGrant.subject (grant : UserModelGrant) : GrantScope × Int := (grant.scope, grant.scopeId)

/-- `uq_grant_one_default`. -/
def UserModelGrant.default (grant : UserModelGrant) : Option (GrantScope × Int) :=
  if grant.isDefault = true ∧ grant.isDeleted = false then some grant.subject else none

/-- What `uq_quota_scope_model_period_metric_active` covers; nulls are not distinct. -/
def Quota.identity (quota : Quota) :
    QuotaScope × Option Int × Option Int × QuotaPeriod × QuotaMetric :=
  (quota.scope, quota.scopeId, quota.logicalModelId, quota.period, quota.metric)

/-- `ck_quota_scope_id_presence`. -/
def Quota.ScopeIdPresence (quota : Quota) : Prop := quota.scope = .global ↔ quota.scopeId = none

instance (quota : Quota) : Decidable quota.ScopeIdPresence :=
  inferInstanceAs (Decidable (quota.scope = .global ↔ quota.scopeId = none))

/-- The unique indexes and the check of the schema. -/
structure Constraints (t : Tables) : Prop where
  channelName : Unique (indexed UpstreamChannel.toBaseEntity UpstreamChannel.name) t.channels
  modelName : Unique (indexed LogicalModel.toBaseEntity LogicalModel.name) t.models
  carrier : Unique (indexed ModelDeployment.toBaseEntity fun d => (d.logicalModelId, d.channelId))
    t.deployments
  grant : Unique (indexed UserModelGrant.toBaseEntity fun g => (g.subject, g.logicalModelId)) t.grants
  oneDefault : Unique UserModelGrant.default t.grants
  quota : Unique (indexed Quota.toBaseEntity Quota.identity) t.quotas
  scopeIdPresence : ∀ id ∈ t.quotas.keys, ∀ row ∈ t.quotas.lookup id, row.ScopeIdPresence

instance (t : Tables) : Decidable (Constraints t) :=
  decidable_of_iff
    (Unique (indexed UpstreamChannel.toBaseEntity UpstreamChannel.name) t.channels ∧
      Unique (indexed LogicalModel.toBaseEntity LogicalModel.name) t.models ∧
      Unique (indexed ModelDeployment.toBaseEntity fun d => (d.logicalModelId, d.channelId))
        t.deployments ∧
      Unique (indexed UserModelGrant.toBaseEntity fun g => (g.subject, g.logicalModelId)) t.grants ∧
      Unique UserModelGrant.default t.grants ∧
      Unique (indexed Quota.toBaseEntity Quota.identity) t.quotas ∧
      ∀ id ∈ t.quotas.keys, ∀ row ∈ t.quotas.lookup id, row.ScopeIdPresence)
    ⟨fun ⟨h₁, h₂, h₃, h₄, h₅, h₆, h₇⟩ => ⟨h₁, h₂, h₃, h₄, h₅, h₆, h₇⟩,
      fun h => ⟨h.channelName, h.modelName, h.carrier, h.grant, h.oneDefault, h.quota,
        h.scopeIdPresence⟩⟩

/-! ## What the gateway reads -/

def LogicalModel.viewed (id : Int) (row : LogicalModel) : Gateway.LogicalModelRow where
  id := id
  name := row.name
  priceInput := row.priceInput
  priceOutput := row.priceOutput
  status := row.status
  isDeleted := row.isDeleted

def UserModelGrant.viewed (id : Int) (row : UserModelGrant) : Gateway.UserModelGrant where
  id := id
  scope := row.scope
  scopeId := row.scopeId
  logicalModelId := row.logicalModelId
  isDefault := row.isDefault
  isDeleted := row.isDeleted

def Quota.viewed (id : Int) (row : Quota) : Gateway.QuotaRow where
  id := id
  scope := row.scope
  scopeId := row.scopeId
  logicalModelId := row.logicalModelId
  period := row.period
  metric := row.metric
  limitValue := row.limitValue
  enforce := row.enforce
  status := row.status
  isDeleted := row.isDeleted

/-- The tables behind `GatewayRepository`; a statement without an order reads rows by their ids. -/
def Tables.view (t : Tables) : Gateway.Db where
  logicalModels := (rows t.models).map fun entry => entry.2.viewed entry.1
  grants := (rows t.grants).map fun entry => entry.2.viewed entry.1
  quotas := (rows t.quotas).map fun entry => entry.2.viewed entry.1

structure RouterDeploymentRow where
  logicalModelName : String
  logicalModelId : Int
  upstreamModel : String
  provider : String
  protocol : Protocol
  apiBase : Option String
  extraConfig : Option Python.Dict
  apiKeyEncrypted : String
  channelId : Int
  channelKeyId : Int
  deploymentWeight : Int
  deploymentPriority : Int
  keyWeight : Int
  keyRpmLimit : Option Int
  keyTpmLimit : Option Int

/-- A row of the join of `get_router_config`. -/
structure Expansion where
  modelId : Int
  model : LogicalModel
  deploymentId : Int
  deployment : ModelDeployment
  channelId : Int
  channel : UpstreamChannel
  keyId : Int
  key : ChannelKey

/-- The conditions of the joins and of the `WHERE`. -/
def Expansion.Selected (x : Expansion) : Prop :=
  x.deployment.logicalModelId = x.modelId ∧ x.channelId = x.deployment.channelId ∧
    x.key.channelId = x.channelId ∧
    (x.model.isDeleted = false ∧ x.deployment.isDeleted = false ∧ x.channel.isDeleted = false ∧
      x.key.isDeleted = false) ∧
    x.model.status = .active ∧ x.deployment.status = .active ∧ x.channel.status = .active ∧
    x.key.status = .active

instance (x : Expansion) : Decidable x.Selected := by
  delta Expansion.Selected
  infer_instance

/-- `ORDER BY`; `before` is the order of the database on names. -/
def Expansion.le (before : String → String → Bool) (x y : Expansion) : Bool :=
  if x.model.name = y.model.name then
    decide (toLex (x.deployment.priority, toLex (x.key.priority, toLex (x.channelId, x.keyId))) ≤
      toLex (y.deployment.priority, toLex (y.key.priority, toLex (y.channelId, y.keyId))))
  else before x.model.name y.model.name

def Tables.expansions (t : Tables) : List Expansion :=
  ((rows t.models).flatMap fun m => (rows t.deployments).flatMap fun d =>
    (rows t.channels).flatMap fun c => (rows t.keys).map fun k =>
      { modelId := m.1, model := m.2, deploymentId := d.1, deployment := d.2, channelId := c.1,
        channel := c.2, keyId := k.1, key := k.2 }).filter fun x => decide x.Selected

def Expansion.row (x : Expansion) : RouterDeploymentRow where
  logicalModelName := x.model.name
  logicalModelId := x.modelId
  upstreamModel := x.deployment.upstreamModel
  provider := x.channel.provider
  protocol := x.channel.protocol
  apiBase := x.channel.apiBase
  extraConfig := x.channel.extraConfig
  apiKeyEncrypted := x.key.apiKeyEncrypted
  channelId := x.channelId
  channelKeyId := x.keyId
  deploymentWeight := x.deployment.weight
  deploymentPriority := x.deployment.priority
  keyWeight := x.key.weight
  keyRpmLimit := x.key.rpmLimit
  keyTpmLimit := x.key.tpmLimit

/-- `GatewayRepository.get_router_config`. -/
def Tables.getRouterConfig (before : String → String → Bool) (t : Tables) :
    List RouterDeploymentRow :=
  (t.expansions.mergeSort (Expansion.le before)).map Expansion.row

/-! ## Units of work -/

/-- An after-commit hook. -/
inductive Hook
  | publishRouterInvalidation
  | bumpGeneration (hook : Gateway.Hook)

/-- The transaction and its hooks. -/
structure UnitOfWork where
  db : Tables
  hooks : List Hook := []

inductive Failure
  | requestInvalid (statusCode : Nat)
  | requestConflict
  | authForbidden
  /-- A violated constraint, or a value that does not fit its column. -/
  | database
  /-- An upstream key that cannot be encrypted. -/
  | encryption
  /-- A URL that `urlsplit` rejects. -/
  | valueError
deriving DecidableEq, Repr

abbrev Service (α : Type) := Work UnitOfWork Failure α

def query {α : Type} (f : Tables → α) : Service α := Work.read fun s => f s.db

/-- The changed tables are flushed. -/
def flush (f : Tables → Tables) : Service Unit := do
  let db ← query f
  Work.require (Constraints db) .database
  Work.write fun s => { s with db := f s.db }

def addAfterCommitHook (hook : Hook) : Service Unit :=
  Work.write fun s => { s with hooks := s.hooks ++ [hook] }

/-- A repository: a table, and how its rows are base entities. -/
structure Repository (V : Type) where
  table : Tables → Table Int V
  put : Tables → Table Int V → Tables
  base : V → BaseEntity

def channels : Repository UpstreamChannel where
  table := Tables.channels
  put db channels := { db with channels }
  base := UpstreamChannel.toBaseEntity

def keys : Repository ChannelKey where
  table := Tables.keys
  put db keys := { db with keys }
  base := ChannelKey.toBaseEntity

def models : Repository LogicalModel where
  table := Tables.models
  put db models := { db with models }
  base := LogicalModel.toBaseEntity

def deployments : Repository ModelDeployment where
  table := Tables.deployments
  put db deployments := { db with deployments }
  base := ModelDeployment.toBaseEntity

def grants : Repository UserModelGrant where
  table := Tables.grants
  put db grants := { db with grants }
  base := UserModelGrant.toBaseEntity

def quotas : Repository Quota where
  table := Tables.quotas
  put db quotas := { db with quotas }
  base := Quota.toBaseEntity

namespace Repository

variable {V : Type} (repo : Repository V)

/-- The row, unless it is soft-deleted. -/
def get (db : Tables) (id : Int) : Option V :=
  ((repo.table db).lookup id).filter fun row => !(repo.base row).isDeleted

/-- The row has to be there. -/
def require (id : Int) : Service V := do
  let found ← query fun db => repo.get db id
  Work.requireSome found (.requestInvalid 404)

/-- No row may be one that `p` selects, unless it is `currentId`. -/
def requireNone (p : V → Bool) (currentId : Option Int) (failure : Failure) : Service Unit := do
  let found ← query fun db =>
    first (fun row => !(repo.base row).isDeleted && p row) (repo.table db)
  Work.require (∀ entry ∈ found, some entry.1 = currentId) failure

/-- The id of the new row must not be taken, and its values must fit their columns. -/
def create (newId : Int) (row : V) (fits : Bool) : Service Unit := do
  let taken ← query fun db => decide (newId ∈ repo.table db)
  Work.require (taken = false ∧ fits = true) .database
  flush fun db => repo.put db ((repo.table db).insert newId row)

/-- The row with its new values; nulls must not be set where the column has none. -/
def update (id : Int) (row : V) (fits : Bool) : Service Unit := do
  Work.require (fits = true) .database
  flush fun db => repo.put db ((repo.table db).insert id row)

/-- The row with its flag and its audit column set. -/
def softDelete (id : Int) (row : V) : Service Unit :=
  flush fun db => repo.put db ((repo.table db).insert id row)

end Repository

end GatewayAdmin
