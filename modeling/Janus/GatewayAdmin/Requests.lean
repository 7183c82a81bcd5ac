import Janus.GatewayAdmin.Catalog
import Janus.GatewayAdmin.Grants

/-!
# The requests of the catalog, grant and quota services

`Request`: a call of one of the methods that write. `Accepted`: the call has been answered without
an exception, and is committed with the hooks that it registered.
-/

set_option autoImplicit false

namespace GatewayAdmin

open Sql
open Rbac (AuthenticatedUser)

inductive Request
  | createChannel (newId : Int) (payload : UpstreamChannelCreate)
  | updateChannel (id : Int) (payload : UpstreamChannelUpdate)
  | deleteChannel (id : Int)
  | createKey (newId : Int) (payload : ChannelKeyCreate)
  | updateKey (id : Int) (payload : ChannelKeyUpdate)
  | rotateKey (id : Int) (newApiKey : String)
  | deleteKey (id : Int)
  | createModel (newId : Int) (payload : LogicalModelCreate)
  | updateModel (id : Int) (payload : LogicalModelUpdate)
  | deleteModel (id : Int)
  | createDeployment (newId : Int) (payload : ModelDeploymentCreate)
  | updateDeployment (id : Int) (payload : ModelDeploymentUpdate)
  | deleteDeployment (id : Int)
  | createGrant (newId : Int) (payload : GrantCreate)
  | updateGrant (id : Int) (payload : GrantUpdate)
  | deleteGrant (id : Int)
  | createQuota (newId : Int) (payload : QuotaCreate)
  | updateQuota (id : Int) (payload : QuotaUpdate)
  | deleteQuota (id : Int)

/-- The method, without its answer. -/
def Request.run (ctx : Context) (actor : AuthenticatedUser) : Request → Service Unit
  | createChannel newId payload => do
    let _ ← GatewayAdmin.createChannel ctx newId payload actor
  | updateChannel id payload => do
    let _ ← GatewayAdmin.updateChannel ctx id payload actor
  | deleteChannel id => GatewayAdmin.deleteChannel id actor
  | createKey newId payload => do
    let _ ← GatewayAdmin.createKey ctx newId payload actor
  | updateKey id payload => do
    let _ ← GatewayAdmin.updateKey id payload actor
  | rotateKey id newApiKey => do
    let _ ← GatewayAdmin.rotateKey ctx id newApiKey actor
  | deleteKey id => GatewayAdmin.deleteKey id actor
  | createModel newId payload => do
    let _ ← GatewayAdmin.createModel newId payload actor
  | updateModel id payload => do
    let _ ← GatewayAdmin.updateModel id payload actor
  | deleteModel id => GatewayAdmin.deleteModel id actor
  | createDeployment newId payload => do
    let _ ← GatewayAdmin.createDeployment newId payload actor
  | updateDeployment id payload => do
    let _ ← GatewayAdmin.updateDeployment id payload actor
  | deleteDeployment id => GatewayAdmin.deleteDeployment id actor
  | createGrant newId payload => do
    let _ ← GatewayAdmin.createGrant newId payload actor
  | updateGrant id payload => do
    let _ ← GatewayAdmin.updateGrant id payload actor
  | deleteGrant id => GatewayAdmin.deleteGrant id actor
  | createQuota newId payload => do
    let _ ← GatewayAdmin.createQuota newId payload actor
  | updateQuota id payload => do
    let _ ← GatewayAdmin.updateQuota id payload actor
  | deleteQuota id => GatewayAdmin.deleteQuota id actor

/-- The request is accepted, and its transaction committed with these hooks. -/
def Accepted (ctx : Context) (actor : AuthenticatedUser) (request : Request) (db db' : Tables)
    (hooks : List Hook) : Prop :=
  (request.run ctx actor).Accepts { db } () { db := db', hooks }

end GatewayAdmin
