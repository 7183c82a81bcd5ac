import Janus.Conc.Raising
import Janus.Python.Datetime
import Janus.Python.Decimal
import Janus.Redis.Table

/-!
# Quotas (`gateway/quota.py`)

A quota is a counter in Redis for each period. The check script, `INCRBY` and `GET` are one command
each, and so is every reading of the clock; `serve` stands for the upstream call between the check
and the finalizer, and its answer for what the finalizer found.

* `sem`: the script and the commands.
* `checkAndIncrement`, `settleReservations`, `compensateReservations`: the public methods.
* `request`: a request from its check to its settlement.
-/

set_option autoImplicit false

namespace QuotaEnforcer

open Conc Python Redis

inductive QuotaMetric
  | tokens
  | requests
  | cost
deriving DecidableEq, Repr

inductive QuotaPeriod
  | daily
  | monthly
  | total
deriving DecidableEq, Repr

inductive QuotaScope
  | user
  | department
  | global
deriving DecidableEq, Repr

structure Quota where
  id : Int
  scope : QuotaScope
  scopeId : Option Int
  logicalModelId : Option Int
  period : QuotaPeriod
  metric : QuotaMetric
  limitValue : Decimal
  enforce : Bool
deriving DecidableEq, Repr

/-! ## Keys -/

inductive PeriodKey
  | daily (date : Date)
  | monthly (year month : Nat)
  | total
deriving DecidableEq

/-- Whose counter it is: `u:{user}`, `d:{department}` or `g`. -/
inductive Subject
  | user (userId : Int)
  | department (departmentId : Option Int)
  | everyone
deriving DecidableEq, Repr

/-- `quota:{subject}:{model}:{period}:{metric}`. -/
structure Key where
  subject : Subject
  modelId : Int
  period : PeriodKey
  metric : QuotaMetric
deriving DecidableEq

/-- One quota of the check script: its key and its four arguments. -/
structure Entry where
  key : Key
  ttl : Int
  limit : Int
  enforce : Bool
  reserve : Int
deriving DecidableEq

/-! ## Commands -/

structure State where
  now : DateTime
  counters : Table Key Int

def State.count (s : State) (key : Key) : Int := (s.counters.get s.now.instant key).getD 0

/-- How the upstream call ends, for the finalizer: with usage to settle, or with none. -/
inductive Ending
  | settle (actualTokens : Int) (actualCost : Option Decimal)
  | compensate
deriving DecidableEq, Repr

inductive Cmd
  | now
  | check (entries : List Entry)
  | incrby (key : Key) (amount : Int)
  | get (key : Key)
  | serve

/-- The check answers the index of the quota that failed, and its count. -/
@[reducible] def Cmd.Resp : Cmd → Type
  | .now => DateTime
  | .check _ => Option (Nat × Int)
  | .incrby _ _ => Int
  | .get _ => Int
  | .serve => Ending

/-- `INCRBY`: the time to live stays. -/
def State.incrby (s : State) (key : Key) (amount : Int) : State :=
  { s with counters := s.counters.alter s.now.instant key fun _ => some (s.count key + amount) }

def State.expire (s : State) (key : Key) (ttl : Int) : State :=
  { s with counters := s.counters.expire s.now.instant key (ttl.toNat * 1000000) }

/-- One round of the loop, before the comparison. -/
def State.reserve (s : State) (e : Entry) : State :=
  let s' := s.incrby e.key e.reserve
  if s'.count e.key = e.reserve ∧ 0 < e.ttl then s'.expire e.key e.ttl else s'

/-- `DECRBY` of what was incremented. -/
def State.undo (s : State) (incremented : List (Key × Int)) : State :=
  incremented.foldl (fun s pair => s.incrby pair.1 (-pair.2)) s

/-- `_QUOTA_CHECK_LUA` from the quota with index `i` on. -/
def State.checkFrom (s : State) (i : Nat) (incremented : List (Key × Int)) :
    List Entry → Option (Nat × Int) × State
  | [] => (none, s)
  | e :: entries =>
    let s := s.reserve e
    let incremented := incremented ++ [(e.key, e.reserve)]
    if e.enforce ∧ e.limit < s.count e.key then (some (i, s.count e.key), s.undo incremented)
    else s.checkFrom (i + 1) incremented entries

/-- The upstream call may end in any way; the other commands are functions of the state. -/
def sem : Sem Cmd Cmd.Resp State
  | .now, s, r, s' => r = s.now ∧ s' = s
  | .check entries, s, r, s' => (r, s') = s.checkFrom 0 [] entries
  | .incrby key amount, s, r, s' => r = s'.count key ∧ s' = s.incrby key amount
  | .get key, s, r, s' => r = s.count key ∧ s' = s
  | .serve, s, _, s' => s' = s

/-- The commands when the upstream call ends as `e`. -/
def Cmd.run (e : Ending) : (c : Cmd) → State → c.Resp × State
  | .now, s => (s.now, s)
  | .check entries, s => s.checkFrom 0 [] entries
  | .incrby key amount, s => ((s.incrby key amount).count key, s.incrby key amount)
  | .get key, s => (s.count key, s)
  | .serve, s => (e, s)

theorem sem_run (e : Ending) (c : Cmd) (s : State) : sem c s (c.run e s).1 (c.run e s).2 := by
  cases c with
  | now => exact ⟨rfl, rfl⟩
  | check entries => rfl
  | incrby key amount => exact ⟨rfl, rfl⟩
  | get key => exact ⟨rfl, rfl⟩
  | serve => rfl

/-! ## The public methods -/

structure QuotaWarning where
  quotaId : Int
  metric : QuotaMetric
  period : QuotaPeriod
  current : Rat
  limit : Decimal

structure QuotaReservation where
  key : Key
  quotaId : Int
  metric : QuotaMetric
  scope : QuotaScope
  enforce : Bool
  limitValue : Decimal
  reserved : Int

structure QuotaCheckResult where
  passed : Bool
  warnings : List QuotaWarning := []
  reservations : List QuotaReservation := []

/-- `QuotaLimitExceeded`, or an index that is out of range. -/
inductive CheckError
  | quotaLimitExceeded (quota : Quota) (current : Rat)
  | indexError

def quotaTtlGraceSeconds : Int := 1800 + 300

def micro : Decimal := .ofInt 1000000

def periodKeyAt (period : QuotaPeriod) (now : DateTime) : PeriodKey :=
  match period with
  | .daily => .daily now.date
  | .monthly => .monthly now.date.year now.date.month
  | .total => .total

def periodKey (period : QuotaPeriod) : Prog Cmd Cmd.Resp PeriodKey := do
  let now ← Prog.cmd (C := Cmd) .now
  pure (periodKeyAt period now)

/-- Seconds from `now` to `ending`, cut to an integer. -/
def secondsTo (now ending : DateTime) : Int :=
  ((ending.instant : Int) - (now.instant : Int)).tdiv 1000000

def ttlSecondsAt (period : QuotaPeriod) (now : DateTime) : Option Int :=
  match period with
  | .daily => some (max 1 (secondsTo now (.midnight now.date.tomorrow)) + quotaTtlGraceSeconds)
  | .monthly => some (max 1 (secondsTo now (.midnight now.date.nextMonth)) + quotaTtlGraceSeconds)
  | .total => none

def ttlSeconds (period : QuotaPeriod) : Prog Cmd Cmd.Resp (Option Int) := do
  let now ← Prog.cmd (C := Cmd) .now
  pure (ttlSecondsAt period now)

def keyWith (userId : Int) (departmentId : Option Int) (quota : Quota) (period : PeriodKey) : Key :=
  let modelId := quota.logicalModelId.getD 0
  match quota.scope with
  | .user => ⟨.user userId, modelId, period, quota.metric⟩
  | .department => ⟨.department (quota.scopeId <|> departmentId), modelId, period, quota.metric⟩
  | .global => ⟨.everyone, modelId, period, quota.metric⟩

def keyForQuota (userId : Int) (departmentId : Option Int) (quota : Quota) :
    Prog Cmd Cmd.Resp Key := do
  let period ← periodKey quota.period
  pure (keyWith userId departmentId quota period)

def toMicro (cost : Option Decimal) : Int := ((cost.getD (.ofInt 0)).mul micro).toInt

def reserveForMetric (metric : QuotaMetric) (estimatedTokens : Int)
    (estimatedCost : Option Decimal) : Int :=
  match metric with
  | .requests => 1
  | .tokens => max 1 estimatedTokens
  | .cost => max 1 (toMicro estimatedCost)

def settlementAdjustmentForMetric (metric : QuotaMetric) (reserved actualTokens : Int)
    (actualCost : Option Decimal) : Int :=
  match metric with
  | .requests => 0
  | .tokens => actualTokens - reserved
  | .cost => toMicro actualCost - reserved

def pointsFromRedis (metric : QuotaMetric) (raw : Int) : Rat :=
  match metric with
  | .cost => raw / 1000000
  | _ => raw

/-- The limit as the script compares it. -/
def redisLimit (quota : Quota) : Int :=
  match quota.metric with
  | .cost => (quota.limitValue.mul micro).toInt
  | _ => quota.limitValue.toInt

def entryWith (estimatedTokens : Int) (estimatedCost : Option Decimal) (quota : Quota) (key : Key)
    (ttl : Option Int) : Entry where
  key := key
  ttl := ttl.getD 0
  limit := redisLimit quota
  enforce := quota.enforce
  reserve := reserveForMetric quota.metric estimatedTokens estimatedCost

def entryFor (estimatedTokens : Int) (estimatedCost : Option Decimal) (pair : Quota × Key) :
    Prog Cmd Cmd.Resp Entry := do
  let ttl ← ttlSeconds pair.1.period
  pure (entryWith estimatedTokens estimatedCost pair.1 pair.2 ttl)

def warningFor (pair : Quota × Key) : Prog Cmd Cmd.Resp (Option QuotaWarning) := do
  let (quota, key) := pair
  let count ← Prog.cmd (C := Cmd) (.get key)
  let current := pointsFromRedis quota.metric count
  if quota.enforce = false ∧ quota.limitValue.toRat < current then
    pure (some {
      quotaId := quota.id, metric := quota.metric, period := quota.period, current,
      limit := quota.limitValue })
  else pure none

def reservationFor (estimatedTokens : Int) (estimatedCost : Option Decimal) (pair : Quota × Key) :
    QuotaReservation where
  key := pair.2
  quotaId := pair.1.id
  metric := pair.1.metric
  scope := pair.1.scope
  enforce := pair.1.enforce
  limitValue := pair.1.limitValue
  reserved := reserveForMetric pair.1.metric estimatedTokens estimatedCost

def checkAndIncrement (userId : Int) (departmentId : Option Int) (quotas : List Quota)
    (estimatedTokens : Int) (estimatedCost : Option Decimal) :
    Prog Cmd Cmd.Resp (Except CheckError QuotaCheckResult) := do
  if quotas = [] then return .ok { passed := true }
  let keys ← quotas.mapM (keyForQuota userId departmentId)
  let entries ← (quotas.zip keys).mapM (entryFor estimatedTokens estimatedCost)
  match ← Prog.cmd (C := Cmd) (.check entries) with
  | some (failedIndex, count) =>
    match quotas[failedIndex]? with
    | some quota => return .error (.quotaLimitExceeded quota (pointsFromRedis quota.metric count))
    | none => return .error .indexError
  | none =>
    let warnings ← (quotas.zip keys).mapM warningFor
    return .ok {
      passed := true
      warnings := warnings.filterMap id
      reservations := (quotas.zip keys).map (reservationFor estimatedTokens estimatedCost) }

def settleReservations (reservations : List QuotaReservation) (actualTokens : Int)
    (actualCost : Option Decimal) : Prog Cmd Cmd.Resp Unit :=
  forM reservations fun res => do
    let adjustment :=
      settlementAdjustmentForMetric res.metric res.reserved actualTokens actualCost
    if adjustment ≠ 0 then
      let _ ← Prog.cmd (C := Cmd) (.incrby res.key adjustment)
      let _ ← Prog.cmd (C := Cmd) (.get res.key)

def compensateReservations (reservations : List QuotaReservation) : Prog Cmd Cmd.Resp Unit :=
  forM reservations fun res => do
    if res.reserved ≠ 0 then
      let _ ← Prog.cmd (C := Cmd) (.incrby res.key (-res.reserved))

/-! ## Requests -/

structure Request where
  userId : Int
  departmentId : Option Int
  quotas : List Quota
  estimatedTokens : Int
  estimatedCost : Option Decimal

/-- A request that is admitted ends once; one that is never scheduled again stays in flight. -/
def request (r : Request) : Prog Cmd Cmd.Resp (Option CheckError) := do
  match ← checkAndIncrement r.userId r.departmentId r.quotas r.estimatedTokens r.estimatedCost with
  | .error e => return some e
  | .ok result =>
    match ← Prog.cmd (C := Cmd) .serve with
    | .settle actualTokens actualCost =>
      settleReservations result.reservations actualTokens actualCost
    | .compensate => compensateReservations result.reservations
    return none

end QuotaEnforcer
