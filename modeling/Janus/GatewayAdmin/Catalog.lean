import Janus.Core.ChannelCrypto
import Janus.GatewayAdmin.Tables

/-!
# Channels, keys, models and deployments (`admin/catalog/service.py`)

`Context`: what a request finds besides the tables. Every write is followed by two hooks, one for
the routers and one for the cached resolutions.
-/

set_option autoImplicit false

namespace GatewayAdmin

open Sql
open Gateway (ActiveStatus)
open Rbac (AuthenticatedUser column setsNull)
open ChannelCrypto (Fernet encryptChannelKey keyHint)

/-! ## Payloads -/

structure UpstreamChannelCreate where
  name : String
  provider : String
  protocol : Protocol
  apiBase : Option String := none
  extraConfig : Option Python.Dict := none
  status : ActiveStatus := .active
  remark : Option String := none

/-- A field that is not set is `none`, and an explicit null is `some none`. -/
structure UpstreamChannelUpdate where
  name : Option (Option String) := none
  provider : Option (Option String) := none
  protocol : Option (Option Protocol) := none
  apiBase : Option (Option String) := none
  extraConfig : Option (Option Python.Dict) := none
  status : Option (Option ActiveStatus) := none
  remark : Option (Option String) := none

structure ChannelKeyCreate where
  channelId : Int
  keyAlias : String
  apiKey : String
  status : ActiveStatus := .active
  rpmLimit : Option Int := none
  tpmLimit : Option Int := none
  weight : Int := 1
  priority : Int := 0
  remark : Option String := none

structure ChannelKeyUpdate where
  channelId : Option (Option Int) := none
  keyAlias : Option (Option String) := none
  status : Option (Option ActiveStatus) := none
  rpmLimit : Option (Option Int) := none
  tpmLimit : Option (Option Int) := none
  weight : Option (Option Int) := none
  priority : Option (Option Int) := none
  remark : Option (Option String) := none

structure LogicalModelCreate where
  name : String
  displayName : String
  category : Option String := none
  sortOrder : Int := 0
  contextLength : Option Int := none
  priceInput : Option Rat := none
  priceOutput : Option Rat := none
  status : ActiveStatus := .active
  remark : Option String := none

structure LogicalModelUpdate where
  name : Option (Option String) := none
  displayName : Option (Option String) := none
  category : Option (Option String) := none
  sortOrder : Option (Option Int) := none
  contextLength : Option (Option Int) := none
  priceInput : Option (Option Rat) := none
  priceOutput : Option (Option Rat) := none
  status : Option (Option ActiveStatus) := none
  remark : Option (Option String) := none

structure ModelDeploymentCreate where
  logicalModelId : Int
  channelId : Int
  upstreamModel : String
  weight : Int := 1
  priority : Int := 0
  status : ActiveStatus := .active
  remark : Option String := none

structure ModelDeploymentUpdate where
  logicalModelId : Option (Option Int) := none
  channelId : Option (Option Int) := none
  upstreamModel : Option (Option String) := none
  weight : Option (Option Int) := none
  priority : Option (Option Int) := none
  status : Option (Option ActiveStatus) := none
  remark : Option (Option String) := none

/-! ### Rows after an `UPDATE` -/

def UpstreamChannel.set (row : UpstreamChannel) (values : UpstreamChannelUpdate) (updatedBy : Int) :
    UpstreamChannel :=
  { row with
    name := column values.name row.name
    provider := column values.provider row.provider
    protocol := column values.protocol row.protocol
    apiBase := values.apiBase.getD row.apiBase
    extraConfig := values.extraConfig.getD row.extraConfig
    status := column values.status row.status
    remark := values.remark.getD row.remark
    updatedBy := some updatedBy }

def UpstreamChannelUpdate.fits (values : UpstreamChannelUpdate) : Bool :=
  !(setsNull values.name || setsNull values.provider || setsNull values.protocol ||
    setsNull values.status)

def ChannelKey.set (row : ChannelKey) (values : ChannelKeyUpdate) (updatedBy : Int) : ChannelKey :=
  { row with
    channelId := column values.channelId row.channelId
    keyAlias := column values.keyAlias row.keyAlias
    status := column values.status row.status
    rpmLimit := values.rpmLimit.getD row.rpmLimit
    tpmLimit := values.tpmLimit.getD row.tpmLimit
    weight := column values.weight row.weight
    priority := column values.priority row.priority
    remark := values.remark.getD row.remark
    updatedBy := some updatedBy }

def ChannelKeyUpdate.fits (values : ChannelKeyUpdate) : Bool :=
  !(setsNull values.channelId || setsNull values.keyAlias || setsNull values.status ||
    setsNull values.weight || setsNull values.priority)

/-- A price as `Numeric(12, 6)` stores it. -/
def price (x : Option Rat) : Option Rat := x.bind (numeric 12 6)

def priceFits (x : Option Rat) : Bool := x.all fun x => (numeric 12 6 x).isSome

def LogicalModel.set (row : LogicalModel) (values : LogicalModelUpdate) (updatedBy : Int) :
    LogicalModel :=
  { row with
    name := column values.name row.name
    displayName := column values.displayName row.displayName
    category := values.category.getD row.category
    sortOrder := column values.sortOrder row.sortOrder
    contextLength := values.contextLength.getD row.contextLength
    priceInput := (values.priceInput.map price).getD row.priceInput
    priceOutput := (values.priceOutput.map price).getD row.priceOutput
    status := column values.status row.status
    remark := values.remark.getD row.remark
    updatedBy := some updatedBy }

def LogicalModelUpdate.fits (values : LogicalModelUpdate) : Bool :=
  !(setsNull values.name || setsNull values.displayName || setsNull values.sortOrder ||
    setsNull values.status) &&
    values.priceInput.all priceFits && values.priceOutput.all priceFits

def ModelDeployment.set (row : ModelDeployment) (values : ModelDeploymentUpdate) (updatedBy : Int) :
    ModelDeployment :=
  { row with
    logicalModelId := column values.logicalModelId row.logicalModelId
    channelId := column values.channelId row.channelId
    upstreamModel := column values.upstreamModel row.upstreamModel
    weight := column values.weight row.weight
    priority := column values.priority row.priority
    status := column values.status row.status
    remark := values.remark.getD row.remark
    updatedBy := some updatedBy }

def ModelDeploymentUpdate.fits (values : ModelDeploymentUpdate) : Bool :=
  !(setsNull values.logicalModelId || setsNull values.channelId || setsNull values.upstreamModel ||
    setsNull values.weight || setsNull values.priority || setsNull values.status)

/-! ## Guards -/

/-- `urlsplit` gives the scheme and the host of a URL, or raises; the verdict of `_is_internal_host`;
the settings; and the randomness of a ciphertext. -/
structure Context where
  Nonce : Type
  fernet : Fernet Nonce
  nonce : Nonce
  channelEncryptionKeys : Option String
  urlsplit : String → Option (String × Option String)
  isInternalHost : String → Bool
  environment : String

def requireCatalogWildcard (actor : AuthenticatedUser) : Service Unit :=
  Work.require (actor.isSuperuser ∨ "ai:catalog:*" ∈ actor.permissions) .authForbidden

/-- Whether the parts of a URL are allowed. -/
def Context.allows (ctx : Context) (scheme : String) (hostname : Option String) : Bool :=
  match hostname with
  | none | some "" => false
  | some host => decide (scheme = "https") ||
      (decide (scheme = "http") && decide (ctx.environment ∉ ["prod", "production"]) &&
        ctx.isInternalHost host)

def validateApiBase (ctx : Context) (apiBase : Option String) : Service Unit :=
  match apiBase with
  | none => pure ()
  | some url => do
    let parsed ← Work.requireSome (ctx.urlsplit url) .valueError
    Work.require (ctx.allows parsed.1 parsed.2 = true) (.requestInvalid 400)

def requireActiveChannel (id : Int) : Service UpstreamChannel := do
  let channel ← channels.require id
  Work.require (channel.status = .active) (.requestInvalid 400)
  pure channel

def requireActiveModel (id : Int) : Service LogicalModel := do
  let model ← models.require id
  Work.require (model.status = .active) (.requestInvalid 400)
  pure model

def ensureChannelNameUnique (name : String) (currentId : Option Int) : Service Unit :=
  channels.requireNone (fun row => row.name == name) currentId (.requestInvalid 400)

def ensureModelNameUnique (name : String) (currentId : Option Int) : Service Unit :=
  models.requireNone (fun row => row.name == name) currentId (.requestInvalid 400)

def ensureDeploymentUnique (logicalModelId channelId : Int) (currentId : Option Int) :
    Service Unit :=
  deployments.requireNone
    (fun row => row.logicalModelId == logicalModelId && row.channelId == channelId) currentId
    (.requestInvalid 400)

/-- `count_active_deployments` of a channel or of a model is not zero. -/
def Tables.inUse (db : Tables) (p : ModelDeployment → Bool) : Bool :=
  (first (fun row => p row && !row.isDeleted && row.status == .active) db.deployments).isSome

/-- The hooks of every write to the catalog. -/
def publish : Service Unit := do
  addAfterCommitHook .publishRouterInvalidation
  addAfterCommitHook (.bumpGeneration .bumpCatalogCacheGeneration)

/-- A check on a field that is set to a value. -/
def onValue {α : Type} (field : Option (Option α)) (check : α → Service Unit) : Service Unit :=
  match field.join with
  | none => pure ()
  | some value => check value

/-- A row that a set field refers to; a null refers to none. -/
def onSet {V : Type} (field : Option (Option Int)) (check : Int → Service V) : Service Unit :=
  match field with
  | none => pure ()
  | some none => throw (.requestInvalid 404)
  | some (some id) => do
    let _ ← check id

/-! ## Channels -/

def createChannel (ctx : Context) (newId : Int) (payload : UpstreamChannelCreate)
    (actor : AuthenticatedUser) : Service UpstreamChannel := do
  requireCatalogWildcard actor
  validateApiBase ctx payload.apiBase
  ensureChannelNameUnique payload.name none
  let channel : UpstreamChannel :=
    { toBaseEntity := .created actor
      name := payload.name
      provider := payload.provider
      protocol := payload.protocol
      apiBase := payload.apiBase
      extraConfig := payload.extraConfig
      status := payload.status
      remark := payload.remark }
  channels.create newId channel true
  publish
  pure channel

def updateChannel (ctx : Context) (id : Int) (payload : UpstreamChannelUpdate)
    (actor : AuthenticatedUser) : Service UpstreamChannel := do
  let channel ← channels.require id
  requireCatalogWildcard actor
  validateApiBase ctx payload.apiBase.join
  onValue payload.name fun name => ensureChannelNameUnique name (some id)
  let row := channel.set payload actor.userId
  channels.update id row payload.fits
  publish
  pure row

def deleteChannel (id : Int) (actor : AuthenticatedUser) : Service Unit := do
  let channel ← channels.require id
  requireCatalogWildcard actor
  let inUse ← query fun db => db.inUse fun row => row.channelId == id
  Work.require (inUse = false) .requestConflict
  channels.softDelete id { channel with isDeleted := true, updatedBy := some actor.userId }
  publish

/-! ## Keys -/

def encrypt (ctx : Context) (plaintext : String) : Service String :=
  Work.check ((encryptChannelKey ctx.fernet ctx.channelEncryptionKeys ctx.nonce plaintext).mapError
    fun _ => .encryption)

def createKey (ctx : Context) (newId : Int) (payload : ChannelKeyCreate)
    (actor : AuthenticatedUser) : Service ChannelKey := do
  requireCatalogWildcard actor
  let _ ← channels.require payload.channelId
  let apiKeyEncrypted ← encrypt ctx payload.apiKey
  let key : ChannelKey :=
    { toBaseEntity := .created actor
      channelId := payload.channelId
      keyAlias := payload.keyAlias
      apiKeyEncrypted
      keyHint := keyHint payload.apiKey
      status := payload.status
      rpmLimit := payload.rpmLimit
      tpmLimit := payload.tpmLimit
      weight := payload.weight
      priority := payload.priority
      remark := payload.remark }
  keys.create newId key true
  publish
  pure key

def updateKey (id : Int) (payload : ChannelKeyUpdate) (actor : AuthenticatedUser) :
    Service ChannelKey := do
  let key ← keys.require id
  requireCatalogWildcard actor
  onValue payload.channelId fun channelId => do
    let _ ← channels.require channelId
  let row := key.set payload actor.userId
  keys.update id row payload.fits
  publish
  pure row

def deleteKey (id : Int) (actor : AuthenticatedUser) : Service Unit := do
  let key ← keys.require id
  requireCatalogWildcard actor
  keys.softDelete id { key with isDeleted := true, updatedBy := some actor.userId }
  publish

def rotateKey (ctx : Context) (id : Int) (newApiKey : String) (actor : AuthenticatedUser) :
    Service ChannelKey := do
  let key ← keys.require id
  requireCatalogWildcard actor
  let apiKeyEncrypted ← encrypt ctx newApiKey
  let row : ChannelKey :=
    { key with apiKeyEncrypted, keyHint := keyHint newApiKey, updatedBy := some actor.userId }
  keys.update id row true
  publish
  pure row

/-! ## Models -/

def createModel (newId : Int) (payload : LogicalModelCreate) (actor : AuthenticatedUser) :
    Service LogicalModel := do
  requireCatalogWildcard actor
  ensureModelNameUnique payload.name none
  let model : LogicalModel :=
    { toBaseEntity := .created actor
      name := payload.name
      displayName := payload.displayName
      category := payload.category
      sortOrder := payload.sortOrder
      contextLength := payload.contextLength
      priceInput := price payload.priceInput
      priceOutput := price payload.priceOutput
      status := payload.status
      remark := payload.remark }
  models.create newId model (priceFits payload.priceInput && priceFits payload.priceOutput)
  publish
  pure model

def updateModel (id : Int) (payload : LogicalModelUpdate) (actor : AuthenticatedUser) :
    Service LogicalModel := do
  let model ← models.require id
  requireCatalogWildcard actor
  onValue payload.name fun name => ensureModelNameUnique name (some id)
  let row := model.set payload actor.userId
  models.update id row payload.fits
  publish
  pure row

def deleteModel (id : Int) (actor : AuthenticatedUser) : Service Unit := do
  let model ← models.require id
  requireCatalogWildcard actor
  let inUse ← query fun db => db.inUse fun row => row.logicalModelId == id
  Work.require (inUse = false) .requestConflict
  models.softDelete id { model with isDeleted := true, updatedBy := some actor.userId }
  publish

/-! ## Deployments -/

def createDeployment (newId : Int) (payload : ModelDeploymentCreate) (actor : AuthenticatedUser) :
    Service ModelDeployment := do
  requireCatalogWildcard actor
  let _ ← requireActiveModel payload.logicalModelId
  let _ ← requireActiveChannel payload.channelId
  ensureDeploymentUnique payload.logicalModelId payload.channelId none
  let deployment : ModelDeployment :=
    { toBaseEntity := .created actor
      logicalModelId := payload.logicalModelId
      channelId := payload.channelId
      upstreamModel := payload.upstreamModel
      weight := payload.weight
      priority := payload.priority
      status := payload.status
      remark := payload.remark }
  deployments.create newId deployment true
  publish
  pure deployment

def updateDeployment (id : Int) (payload : ModelDeploymentUpdate) (actor : AuthenticatedUser) :
    Service ModelDeployment := do
  let deployment ← deployments.require id
  requireCatalogWildcard actor
  onSet payload.logicalModelId requireActiveModel
  onSet payload.channelId requireActiveChannel
  let row := deployment.set payload actor.userId
  Work.when (payload.logicalModelId.isSome ∨ payload.channelId.isSome)
    (ensureDeploymentUnique row.logicalModelId row.channelId (some id))
  deployments.update id row payload.fits
  publish
  pure row

def deleteDeployment (id : Int) (actor : AuthenticatedUser) : Service Unit := do
  let deployment ← deployments.require id
  requireCatalogWildcard actor
  deployments.softDelete id { deployment with isDeleted := true, updatedBy := some actor.userId }
  publish

end GatewayAdmin
