import Mathlib.Data.Finset.Basic
import Mathlib.Data.List.MinMax
import Mathlib.Data.Rat.Defs

/-!
# The gateway's queries (`gateway/repository.py`)

Each query is one statement over the last committed tables. Rows carry the columns the queries
filter by and those the gateway reads; `LogicalModel` and `Quota` are what it reads of a row.
-/

set_option autoImplicit false

namespace Gateway

inductive ActiveStatus
  | active
  | disabled
deriving DecidableEq, Repr

inductive GrantScope
  | user
  | department
deriving DecidableEq, Repr

inductive QuotaScope
  | user
  | department
  | global
deriving DecidableEq, Repr

inductive QuotaPeriod
  | daily
  | monthly
  | total
deriving DecidableEq, Repr

inductive QuotaMetric
  | tokens
  | requests
  | cost
deriving DecidableEq, Repr

structure LogicalModel where
  id : Int
  name : String
  priceInput : Option Rat
  priceOutput : Option Rat
deriving DecidableEq

structure LogicalModelRow extends LogicalModel where
  status : ActiveStatus
  isDeleted : Bool

structure UserModelGrant where
  id : Int
  scope : GrantScope
  scopeId : Int
  logicalModelId : Int
  isDefault : Bool
  isDeleted : Bool

/-- `scopeId` is `none` for the global scope, `logicalModelId` for a quota over all models. -/
structure Quota where
  id : Int
  scope : QuotaScope
  scopeId : Option Int
  logicalModelId : Option Int
  period : QuotaPeriod
  metric : QuotaMetric
  limitValue : Rat
  enforce : Bool
deriving DecidableEq

structure QuotaRow extends Quota where
  status : ActiveStatus
  isDeleted : Bool

structure Db where
  logicalModels : List LogicalModelRow
  grants : List UserModelGrant
  quotas : List QuotaRow

/-- The grants of the user and, where there is one, of the department. -/
def UserModelGrant.appliesTo (g : UserModelGrant) (userId : Int) (deptId : Option Int) : Bool :=
  match g.scope with
  | .user => g.scopeId == userId
  | .department => some g.scopeId == deptId

/-- `case((scope == "user", 0), else_=1)`. -/
def UserModelGrant.scopeRank (g : UserModelGrant) : Nat :=
  match g.scope with
  | .user => 0
  | .department => 1

def QuotaRow.appliesTo (q : QuotaRow) (userId : Int) (deptId : Option Int) : Bool :=
  match q.scope with
  | .user => q.scopeId == some userId
  | .global => q.scopeId == none
  | .department => deptId.isSome && q.scopeId == deptId

namespace Db

variable (d : Db)

def getUserGrantedModels (userId : Int) (deptId : Option Int) : Finset Int :=
  ((d.grants.filter fun g => !g.isDeleted && g.appliesTo userId deptId).map
    (·.logicalModelId)).toFinset

/-- `ORDER BY scope_rank LIMIT 1`. -/
def getDefaultModelId (userId : Int) (deptId : Option Int) : Option Int :=
  ((d.grants.filter fun g => !g.isDeleted && g.isDefault && g.appliesTo userId deptId).argmin
    UserModelGrant.scopeRank).map (·.logicalModelId)

def getLogicalModelByName (name : String) : Option LogicalModel :=
  (d.logicalModels.find? fun m => !m.isDeleted && m.status == .active && m.name == name).map
    (·.toLogicalModel)

def getLogicalModelById (id : Int) : Option LogicalModel :=
  (d.logicalModels.find? fun m => !m.isDeleted && m.status == .active && m.id == id).map
    (·.toLogicalModel)

def getActiveQuotas (userId : Int) (deptId : Option Int) (logicalModelId : Int) : List Quota :=
  (d.quotas.filter fun q => !q.isDeleted && q.status == .active && q.appliesTo userId deptId &&
    (q.logicalModelId == some logicalModelId || q.logicalModelId == none)).map (·.toQuota)

end Db

/-! ## The statements as commands -/

inductive Query
  | userGrantedModels (userId : Int) (deptId : Option Int)
  | defaultModelId (userId : Int) (deptId : Option Int)
  | logicalModelByName (name : String)
  | logicalModelById (id : Int)
  | activeQuotas (userId : Int) (deptId : Option Int) (logicalModelId : Int)

@[reducible] def Query.Answer : Query → Type
  | .userGrantedModels .. => Finset Int
  | .defaultModelId .. => Option Int
  | .logicalModelByName _ | .logicalModelById _ => Option LogicalModel
  | .activeQuotas .. => List Quota

def Query.answer : (q : Query) → Db → q.Answer
  | .userGrantedModels userId deptId, d => d.getUserGrantedModels userId deptId
  | .defaultModelId userId deptId, d => d.getDefaultModelId userId deptId
  | .logicalModelByName name, d => d.getLogicalModelByName name
  | .logicalModelById id, d => d.getLogicalModelById id
  | .activeQuotas userId deptId logicalModelId, d => d.getActiveQuotas userId deptId logicalModelId

end Gateway
