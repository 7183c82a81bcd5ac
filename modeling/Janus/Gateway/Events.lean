import Janus.Conc.Prog
import Janus.Python.Decimal
import Janus.Python.Value

/-!
# The usage queue (`gateway/events.py`, `gateway/usage_batch.py`, `db/bulk.py`)

Usage events go from the request to a pending list in Redis, from there to the in-flight list of the
claims, and into the table `usage_record`; failed ones go back to the pending list or to the
dead-letter list. Every Redis command and script, every transaction and every step of the
process-local outbox is one command; one that raises has no effect. A text in a list is what it
decodes to (`Raw`).

* `Cmd.run`: the scripts, the insert and the outbox.
* `enqueueEvent`, `claimBatch`, `ackClaimed`, `retryOrDlqClaimed`, `dlqClaimed`,
  `recoverStaleClaims`: the functions of the queue.
* `flushUsageRecords`: the batch writer.
-/

set_option autoImplicit false

namespace Events

open Conc Python

/-! ## Items and rows -/

/-- A text in a list: the JSON it decodes to, or no JSON. `json.loads` raises a `JSONDecodeError` on a
`text`, and something else on an `unloadable`: a `ValueError` on an integer of too many digits, a
`RecursionError` on lists in lists. -/
inductive Raw
  | json (value : Value)
  | text (s : String)
  | unloadable (s : String)
deriving DecidableEq

def Raw.raises : Raw → Bool
  | .unloadable _ => true
  | _ => false

/-- `json.loads`, where it gives an object. -/
def Raw.record : Raw → Option Fields
  | .json (.dict fields) => some fields
  | _ => none

/-- The payload and the time of a claim, `none` where the envelope has no such entry. -/
structure Envelope where
  payload : Option Raw
  claimedAtMs : Option Int
deriving DecidableEq

/-- The script of the recovery moves whole envelopes to the dead-letter list, everything else
payloads. -/
inductive DeadLetter
  | payload (raw : Raw)
  | envelope (e : Envelope)
deriving DecidableEq

/-- A row of `usage_record` as the insert binds it; the database adds the key and the time. -/
structure Row where
  userId : Value
  apiKeyId : Value
  logicalModelId : Value
  channelId : Value
  upstreamModel : Value
  promptTokens : Value
  completionTokens : Value
  totalTokens : Value
  cost : Option Decimal
  status : Value
  latencyMs : Value
  requestId : Value
  downgradedFeatures : Value
deriving DecidableEq

/-! ## Commands -/

/-- `nowMs` is the clock of the worker that reads it. -/
structure State where
  nowMs : Int
  outbox : List Raw
  pending : List Raw
  inflight : List Envelope
  dlq : List DeadLetter
  table : List Row

/-- `loads` and `dumps` are what those of `json` raise on integers of too many digits, or too deep. -/
inductive Failure
  | redisError
  | database
  | keyError
  | loads
  | dumps
  | python (e : Python.Error)
deriving DecidableEq, Repr

inductive Queue
  | pending
  | dlq
deriving DecidableEq, Repr

/-- `stuck` has no answer: it stands where a loop has more rounds than its bound. -/
inductive Cmd
  | now
  | rpush (queue : Queue) (raw : Raw)
  | claim (nowMs : Int)
  | lrem (envelope : Envelope)
  | recover (cutoffMs : Int)
  | insert (rows : List Row)
  | outboxPopleft
  | outboxAppendleft (raw : Raw)
  | outboxAppend (raw : Raw)
  | stuck

/-- The outbox answers what it has dropped, which no caller looks at. -/
@[reducible] def Cmd.Resp : Cmd → Type
  | .now => Int
  | .rpush _ _ => Except Failure Unit
  | .claim _ => Except Failure (Option Envelope)
  | .lrem _ => Except Failure Nat
  | .recover _ => Except Failure (Nat × Nat)
  | .insert _ => Except Failure Nat
  | .outboxPopleft => Option Raw
  | .outboxAppendleft _ => Option Raw
  | .outboxAppend _ => Option Raw
  | .stuck => Empty

def State.rpush (s : State) : Queue → Raw → State
  | .pending, raw => { s with pending := s.pending ++ [raw] }
  | .dlq, raw => { s with dlq := s.dlq ++ [.payload raw] }

/-- `_LUA_CLAIM_EVENT`. -/
def State.claim (s : State) (nowMs : Int) : Option Envelope × State :=
  match s.pending with
  | [] => (none, s)
  | raw :: pending =>
    let envelope : Envelope := ⟨some raw, some nowMs⟩
    (some envelope, { s with pending, inflight := s.inflight ++ [envelope] })

/-- `LREM key 1 envelope`. -/
def State.lrem (s : State) (envelope : Envelope) : State :=
  { s with inflight := s.inflight.erase envelope }

/-- One round of `_LUA_RECOVER_STALE`. -/
def State.recoverOne (cutoffMs : Int) (acc : (Nat × Nat) × State) (envelope : Envelope) :
    (Nat × Nat) × State :=
  let ((recovered, dlqd), s) := acc
  let dead := ((recovered, dlqd + 1),
    { s with dlq := s.dlq ++ [DeadLetter.envelope envelope] }.lrem envelope)
  match envelope.payload with
  | none => dead
  | some payload =>
    match envelope.claimedAtMs with
    | none => dead
    | some claimedAt =>
      if claimedAt ≤ cutoffMs then
        ((recovered + 1, dlqd), { s with pending := s.pending ++ [payload] }.lrem envelope)
      else acc

def State.recover (s : State) (cutoffMs : Int) : (Nat × Nat) × State :=
  s.inflight.foldl (State.recoverOne cutoffMs) ((0, 0), s)

/-- `ON CONFLICT (request_id) DO NOTHING`: a null never conflicts. -/
def insertRow (table : List Row) (row : Row) : List Row :=
  if row.requestId.isSome ∧ table.any (·.requestId = row.requestId) then table else table ++ [row]

def insertIgnoreConflicts (table : List Row) (rows : List Row) : List Row :=
  rows.foldl insertRow table

def outboxMaxPerQueue : Nat := 10000

/-- A `deque` of this length drops an item at the other end when it takes one. -/
def State.full (s : State) : Prop := outboxMaxPerQueue ≤ s.outbox.length

instance (s : State) : Decidable s.full := inferInstanceAs (Decidable (_ ≤ _))

/-- `box.append`. -/
def State.append (s : State) (raw : Raw) : Option Raw × State :=
  if s.full then (s.outbox.head?, { s with outbox := s.outbox.tail ++ [raw] })
  else (none, { s with outbox := s.outbox ++ [raw] })

/-- `box.appendleft`. -/
def State.appendleft (s : State) (raw : Raw) : Option Raw × State :=
  if s.full then (s.outbox.getLast?, { s with outbox := raw :: s.outbox.dropLast })
  else (none, { s with outbox := raw :: s.outbox })

/-- The commands when none of them raises. `fits` says which rows the columns take. -/
def Cmd.run (fits : Row → Bool) : (c : Cmd) → State → Option (c.Resp × State)
  | .now, s => some (s.nowMs, s)
  | .rpush queue raw, s => some (.ok (), s.rpush queue raw)
  | .claim nowMs, s => some (.ok (s.claim nowMs).1, (s.claim nowMs).2)
  | .lrem envelope, s => some (.ok (if envelope ∈ s.inflight then 1 else 0), s.lrem envelope)
  | .recover cutoffMs, s => some (.ok (s.recover cutoffMs).1, (s.recover cutoffMs).2)
  | .insert rows, s =>
    if rows.all fits then
      let table := insertIgnoreConflicts s.table rows
      some (.ok (table.length - s.table.length), { s with table })
    else some (.error .database, s)
  | .outboxPopleft, s => some (s.outbox.head?, { s with outbox := s.outbox.tail })
  | .outboxAppendleft raw, s => some ((s.appendleft raw).1, (s.appendleft raw).2)
  | .outboxAppend raw, s => some ((s.append raw).1, (s.append raw).2)
  | .stuck, _ => none

/-- How a command raises. -/
def Cmd.raised : (c : Cmd) → Option c.Resp
  | .rpush _ _ => some (.error .redisError)
  | .claim _ => some (.error .redisError)
  | .lrem _ => some (.error .redisError)
  | .recover _ => some (.error .redisError)
  | .insert _ => some (.error .database)
  | _ => none

/-- Commands succeed, or raise without an effect. -/
def sem (fits : Row → Bool) : Sem Cmd Cmd.Resp State := fun c s r s' =>
  c.run fits s = some (r, s') ∨ c.raised = some r ∧ s' = s

/-! ## The queue -/

structure ClaimedEvent where
  raw : Raw
  envelope : Envelope

def maxRetryAttempts : Int := 3
def defaultBatchSize : Nat := 100
def defaultInflightStaleSeconds : Int := 300

/-- `while box`, for so many rounds. -/
def flushOutbox : Nat → Prog Cmd Cmd.Resp (Except Failure Unit)
  | 0 => .step .stuck nofun
  | rounds + 1 => do
    match ← Prog.cmd (C := Cmd) .outboxPopleft with
    | none => return .ok ()
    | some item =>
      match ← Prog.cmd (C := Cmd) (.rpush .pending item) with
      | .ok () => flushOutbox rounds
      | .error e =>
        let _ ← Prog.cmd (C := Cmd) (.outboxAppendleft item)
        return .error e

/-- `except Exception` of `enqueue_event`. -/
def park (serialized : Raw) : Prog Cmd Cmd.Resp Bool := do
  let _ ← Prog.cmd (C := Cmd) (.outboxAppend serialized)
  return false

def enqueueEvent (rounds : Nat) (payload : Fields) : Prog Cmd Cmd.Resp Bool := do
  let serialized := Raw.json (.dict payload)
  match ← flushOutbox rounds with
  | .error _ => park serialized
  | .ok () =>
    match ← Prog.cmd (C := Cmd) (.rpush .pending serialized) with
    | .ok () => return true
    | .error _ => park serialized

def decodeClaimed (envelope : Envelope) : Option ClaimedEvent :=
  envelope.payload.map fun raw => ⟨raw, envelope⟩

/-- The loop of `claim_batch`. -/
def claimLoop : Nat → List ClaimedEvent → Prog Cmd Cmd.Resp (List ClaimedEvent)
  | 0, claimed => return claimed
  | n + 1, claimed => do
    let now ← Prog.cmd (C := Cmd) .now
    match ← Prog.cmd (C := Cmd) (.claim now) with
    | .error _ => return []
    | .ok none => return claimed
    | .ok (some envelope) =>
      match decodeClaimed envelope with
      | some item => claimLoop n (claimed ++ [item])
      | none => claimLoop n claimed

def claimBatch (batchSize : Nat) : Prog Cmd Cmd.Resp (List ClaimedEvent) := claimLoop batchSize []

/-- The count of the envelopes removed before an exception. -/
def ackClaimed : List ClaimedEvent → Nat → Prog Cmd Cmd.Resp Nat
  | [], acked => return acked
  | item :: items, acked => do
    match ← Prog.cmd (C := Cmd) (.lrem item.envelope) with
    | .error _ => return acked
    | .ok n => ackClaimed items (acked + n)

section Attempts

variable (parse : String → Option Int)

def attemptKey : String := "_attempt"

/-- What `_increment_attempt` counts the attempts of. -/
def attemptPayload : Raw → Except Failure Fields
  | .json (.dict fields) => .ok fields
  | .json value => .ok [("raw", value)]
  | .text s => .ok [("raw", .str s)]
  | .unloadable _ => .error .loads

/-- `sys.int_info.default_max_str_digits`. -/
def maxStrDigits : Nat := 4300

/-- `_increment_attempt`; `parse` is `int` on texts. -/
def incrementAttempt (raw : Raw) : Except Failure (Raw × Int) := do
  let payload ← attemptPayload raw
  match (Fields.get payload attemptKey (.int 0)).toIntOrZero parse with
  | .error e => .error (.python e)
  | .ok n =>
    if (Nat.toDigits 10 (n + 1).natAbs).length ≤ maxStrDigits then
      .ok (.json (.dict (Fields.set payload attemptKey (.int (n + 1)))), n + 1)
    else .error .dumps

/-- An exception ends the loop. -/
def retryOrDlqClaimed (maxAttempts : Int) : List ClaimedEvent → Prog Cmd Cmd.Resp Unit
  | [] => return ()
  | item :: items => do
    match incrementAttempt parse item.raw with
    | .error _ => return ()
    | .ok (payload, attempts) =>
      let queue := if maxAttempts ≤ attempts then Queue.dlq else Queue.pending
      match ← Prog.cmd (C := Cmd) (.rpush queue payload) with
      | .error _ => return ()
      | .ok () =>
        match ← Prog.cmd (C := Cmd) (.lrem item.envelope) with
        | .error _ => return ()
        | .ok _ => retryOrDlqClaimed maxAttempts items

end Attempts

def dlqClaimed : List ClaimedEvent → Prog Cmd Cmd.Resp Unit
  | [] => return ()
  | item :: items => do
    match ← Prog.cmd (C := Cmd) (.rpush .dlq item.raw) with
    | .error _ => return ()
    | .ok () =>
      match ← Prog.cmd (C := Cmd) (.lrem item.envelope) with
      | .error _ => return ()
      | .ok _ => dlqClaimed items

def recoverStaleClaims (staleAfterSeconds : Int) : Prog Cmd Cmd.Resp Nat := do
  let now ← Prog.cmd (C := Cmd) .now
  match ← Prog.cmd (C := Cmd) (.recover (now - staleAfterSeconds * 1000)) with
  | .ok (recovered, _) => return recovered
  | .error _ => return 0

/-! ## The batch writer -/

/-- The built-ins of the batch writer: `int` and `Decimal` on values, `str` on request ids. -/
structure Builtins where
  parse : String → Option Int
  decimal : Value → Option Decimal
  str : Value → String
  str_str : ∀ s, str (.str s) = s

section Flush

variable (py : Builtins)

/-- `data[key]`. -/
def getRequired (data : Fields) (key : String) : Except Failure Value :=
  match data.lookup key with
  | some value => .ok value
  | none => .error .keyError

def toUsageRow (data : Fields) : Except Failure Row := do
  let costRaw := data.get "cost" .none
  let cost := if costRaw.isSome then py.decimal costRaw else none
  let userId ← getRequired data "user_id"
  let logicalModelId ← getRequired data "logical_model_id"
  pure {
    userId, logicalModelId, cost
    apiKeyId := data.get "api_key_id" .none
    channelId := data.get "channel_id" .none
    upstreamModel := data.get "upstream_model" .none
    promptTokens := data.get "prompt_tokens" (.int 0)
    completionTokens := data.get "completion_tokens" (.int 0)
    totalTokens := data.get "total_tokens" (.int 0)
    status := data.get "status" (.str "error")
    latencyMs := data.get "latency_ms" .none
    requestId := data.get "request_id" .none
    downgradedFeatures := data.get "downgraded_features" .none }

/-- The rows of a batch, one for each request id. -/
def usageRows (seen : List String) : List Fields → Except Failure (List Row)
  | [] => .ok []
  | record :: records => do
    let requestId := record.get "request_id" .none
    if requestId.truthy then
      if py.str requestId ∈ seen then usageRows seen records
      else
        let row ← toUsageRow py record
        let rows ← usageRows (py.str requestId :: seen) records
        pure (row :: rows)
    else
      let row ← toUsageRow py record
      let rows ← usageRows seen records
      pure (row :: rows)

def bulkInsertUsage (records : List Fields) : Prog Cmd Cmd.Resp (Except Failure Nat) :=
  match usageRows py [] records with
  | .error e => return .error e
  | .ok rows => Prog.cmd (C := Cmd) (.insert rows)

/-- The loop of `json.loads` catches `JSONDecodeError` and `TypeError` only: what else it raises ends the
run before anything is given up or written. -/
def flushUsageRecords : Prog Cmd Cmd.Resp (Except Failure Nat) := do
  let _ ← recoverStaleClaims defaultInflightStaleSeconds
  let claimed ← claimBatch defaultBatchSize
  if claimed.any fun item => item.raw.raises then return .error .loads
  let validClaims := claimed.filter fun item => item.raw.record.isSome
  let records := claimed.filterMap fun item => item.raw.record
  let unparseable := claimed.filter fun item => item.raw.record.isNone
  dlqClaimed unparseable
  if records = [] then return .ok 0
  match ← bulkInsertUsage py records with
  | .error _ =>
    retryOrDlqClaimed py.parse maxRetryAttempts validClaims
    return .ok 0
  | .ok written =>
    let _ ← ackClaimed validClaims 0
    return .ok written

/-- What a process runs: the end of a request, or a tick of the batch writer. -/
inductive Job
  | enqueueUsageEvent (rounds : Nat) (payload : Fields)
  | flushUsageRecords

def Job.program : Job → Prog Cmd Cmd.Resp Unit
  | .enqueueUsageEvent rounds payload => do
    let _ ← enqueueEvent rounds payload
  | .flushUsageRecords => do
    let _ ← Events.flushUsageRecords py

end Flush

end Events
