import Janus.Gateway.Quota
import Janus.Gateway.Settlement
import Janus.Python.Strftime

/-!
# The texts of the quota counters (`gateway/quota.py`, `db/models/quota.py`)

In Redis a counter is found by the text of its key. `keyTextAt` is that text at the time of the
call, `Key.text` the text of a `Key`. The table holds at most one quota that is not deleted for each
subject, model, period and metric.

* `keyTextAt`: `_key_for_quota`.
* `Call.SameCounter`: what two calls have in common whose counters are meant to be one.
* `Db.UniqueActive`: the index of the table.
-/

set_option autoImplicit false

namespace QuotaEnforcer

open Conc Python

/-! ## Texts -/

def QuotaMetric.value : QuotaMetric → String
  | .tokens => "tokens"
  | .requests => "requests"
  | .cost => "cost"

/-- `_period_key` at the time `now`. -/
def periodTextAt (period : QuotaPeriod) (now : DateTime) : String :=
  match period with
  | .daily => now.date.strftime "%Y-%m-%d"
  | .monthly => now.date.strftime "%Y-%m"
  | .total => "total"

/-- An id that may be `None`, in an f-string. -/
def idText : Option Int → String
  | none => "None"
  | some id => toString id

/-- `_key_for_quota` at the time `now`. -/
def keyTextAt (userId : Int) (departmentId : Option Int) (quota : Quota) (now : DateTime) :
    String :=
  let modelId := quota.logicalModelId.getD 0
  let periodKey := periodTextAt quota.period now
  let metric := quota.metric.value
  match quota.scope with
  | .user => s!"quota:u:{userId}:{modelId}:{periodKey}:{metric}"
  | .department =>
    let deptId := idText (quota.scopeId <|> departmentId)
    s!"quota:d:{deptId}:{modelId}:{periodKey}:{metric}"
  | .global => s!"quota:g:{modelId}:{periodKey}:{metric}"

/-! ## Keys as texts -/

/-- The year has four digits, the month and the day two. -/
def PeriodKey.parts : PeriodKey → List (List Char)
  | .daily d => [Text.padded 4 d.year, Text.padded 2 d.month, Text.padded 2 d.day]
  | .monthly year month => [Text.padded 4 year, Text.padded 2 month]
  | .total => ["total".toList]

def PeriodKey.chars (period : PeriodKey) : List Char := ['-'].intercalate period.parts

def Subject.parts : Subject → List (List Char)
  | .user userId => [['u'], (toString userId).toList]
  | .department departmentId => [['d'], (idText departmentId).toList]
  | .everyone => [['g']]

def Key.parts (key : Key) : List (List Char) :=
  "quota".toList :: key.subject.parts ++
    [(toString key.modelId).toList, key.period.chars, key.metric.value.toList]

def Key.text (key : Key) : String := String.ofList ([':'].intercalate key.parts)

/-! ## Calls -/

/-- A call of `_key_for_quota`, and the time it reads. -/
structure Call where
  userId : Int
  departmentId : Option Int
  quota : Quota
  now : DateTime

def Call.keyText (c : Call) : String := keyTextAt c.userId c.departmentId c.quota c.now

/-- Whose usage the quota counts: no one's own if it is global. -/
def Call.subject (c : Call) : Option Int :=
  match c.quota.scope with
  | .user => some c.userId
  | .department => c.quota.scopeId <|> c.departmentId
  | .global => none

/-- The two times are on one day, in one month, or any at all. -/
def SamePeriod (period : QuotaPeriod) (now now' : DateTime) : Prop :=
  match period with
  | .daily => now.date = now'.date
  | .monthly => now.date.year = now'.date.year ∧ now.date.month = now'.date.month
  | .total => True

structure Call.SameCounter (c c' : Call) : Prop where
  scope : c.quota.scope = c'.quota.scope
  subject : c.subject = c'.subject
  logicalModel : c.quota.logicalModelId = c'.quota.logicalModelId
  period : c.quota.period = c'.quota.period
  times : SamePeriod c.quota.period c.now c'.now
  metric : c.quota.metric = c'.quota.metric

end QuotaEnforcer

/-! ## The table -/

namespace Gateway

/-- The columns of `uq_quota_scope_model_period_metric_active`. -/
def Quota.indexed (q : Quota) :
    QuotaScope × Option Int × Option Int × QuotaPeriod × QuotaMetric :=
  (q.scope, q.scopeId, q.logicalModelId, q.period, q.metric)

/-- The index: nulls are equal, and rows that are deleted do not count. -/
def Db.UniqueActive (d : Db) : Prop :=
  ((d.quotas.filter fun q => !q.isDeleted).map (·.indexed)).Nodup

instance (d : Db) : Decidable d.UniqueActive := inferInstanceAs (Decidable (List.Nodup _))

end Gateway

namespace Gateway.Handler

open Python

def periodOf : QuotaPeriod → QuotaEnforcer.QuotaPeriod
  | .daily => .daily
  | .monthly => .monthly
  | .total => .total

/-- A quota as the enforcer reads it. -/
def enforcedQuota (decimal : Rat → Decimal) (q : Quota) : QuotaEnforcer.Quota where
  id := q.id
  scope := scopeOf q.scope
  scopeId := q.scopeId
  logicalModelId := q.logicalModelId
  period := periodOf q.period
  metric := metricOf q.metric
  limitValue := decimal q.limitValue
  enforce := q.enforce

end Gateway.Handler
