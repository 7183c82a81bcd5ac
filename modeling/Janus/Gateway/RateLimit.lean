import Janus.Conc.Raising
import Janus.Python.Value
import Janus.Redis.Table
import Janus.Redis.ZSet

/-!
# Rate limits (`gateway/rate_limit.py`)

Every Lua script and `ZREM` is one command on the limiter's keys; a command that raises
`RedisError` has no effect. The clock of the caller is read once, so it is an argument.

* `Cmd.run`: the scripts.
* `checkRateLimits`, `releaseRpm`, `releaseConcurrent`, `settleTpm`: the public functions.
* `estimateRequestTokens`: the tokens a request reserves.
-/

set_option autoImplicit false

namespace RateLimit

open Conc Python Redis

/-! ## Estimates -/

def estimatedTokensPerRequest : Int := 100
def charsPerToken : Nat := 4
def maxUpfrontEstimate : Int := 4000
def maxCompletionCeiling : Int := 200000

/-- `_count_parts_chars`. -/
def countPartsChars (parts : List Value) : Nat :=
  (parts.map fun part =>
    match part with
    | .dict fields =>
      match Fields.get fields "text" .none with
      | .str text => text.length
      | _ => 0
    | _ => 0).sum

def countItemChars (item : Fields) : Nat :=
  match item.get "parts" .none with
  | .list parts => countPartsChars parts
  | _ =>
    match item.get "content" .none with
    | .none =>
      match item.get "text" .none with
      | .str text => text.length
      | _ => 0
    | .str content => content.length
    | .list parts => countPartsChars parts
    | _ => 0

def countInputChars (value : Value) : Nat :=
  match value with
  | .str s => s.length
  | .list items =>
    (items.map fun item =>
      match item with
      | .str s => s.length
      | .dict fields => countItemChars fields
      | _ => 0).sum
  | _ => 0

def clampCompletion (value : Int) : Int := max 0 (min value maxCompletionCeiling)

/-- `parse` is `int` on texts, blanks stripped. -/
def coerceMaxCompletion (parse : String → Option Int) (value : Value) : Int :=
  match value with
  | .int n => clampCompletion n
  | .str s => ((parse s).map clampCompletion).getD 0
  | _ => 0

def estimateRequestTokens (messages : Value) (maxCompletion : Int) : Int :=
  let totalChars := countInputChars messages
  let promptEstimate :=
    if totalChars = 0 then estimatedTokensPerRequest
    else min (max estimatedTokensPerRequest (totalChars / charsPerToken : Nat)) maxUpfrontEstimate
  promptEstimate + clampCompletion maxCompletion

/-! ## Keys and scripts -/

structure Rule where
  id : Int
  subjectType : String
  subjectId : Option Int
  logicalModelId : Option Int
  rpmLimit : Option Int
  tpmLimit : Option Int
  tpmBurstLimit : Option Int
  maxConcurrent : Option Int
deriving DecidableEq, Repr

structure SubjectKey where
  subjectType : String
  subjectId : Int
  modelId : Int
deriving DecidableEq, Repr

def subjectKey (rule : Rule) : SubjectKey :=
  ⟨rule.subjectType, rule.subjectId.getD 0, rule.logicalModelId.getD 0⟩

/-- `rl:rpm:{id}:{subject}`, `rl:tpm:..` and `rl:conc:..`. -/
inductive Key
  | rpm (ruleId : Int) (subject : SubjectKey)
  | tpm (ruleId : Int) (subject : SubjectKey)
  | conc (ruleId : Int) (subject : SubjectKey)
deriving DecidableEq, Repr

def Rule.rpmKey (rule : Rule) : Key := .rpm rule.id (subjectKey rule)
def Rule.tpmKey (rule : Rule) : Key := .tpm rule.id (subjectKey rule)
def Rule.concKey (rule : Rule) : Key := .conc rule.id (subjectKey rule)

/-- `rule.get("tpm_burst_limit") or tpm_limit`. -/
def Rule.burst (rule : Rule) (tpmLimit : Int) : Int :=
  match rule.tpmBurstLimit with
  | some burst => if burst = 0 then tpmLimit else burst
  | none => tpmLimit

structure Bucket where
  tokens : Int
  ts : Int
deriving DecidableEq, Repr

/-- `time` is the server's clock in milliseconds, `windows` the process-local emergency state. -/
structure State where
  time : Nat
  sets : Table Key (ZSet String)
  buckets : Table Key Bucket
  windows : SubjectKey → Option (Int × Int)

inductive RedisError
  | unavailable
deriving DecidableEq, Repr

inductive Cmd
  | rpmCheck (key : Key) (nowMs windowMs limit : Int) (member : String)
  | tpmCheck (key : Key) (nowMs limit requestTokens refillRate ttlMs : Int)
  | concurrentCheck (key : Key) (nowMs limit : Int) (member : String) (timeoutMs : Int)
  | tpmSettle (key : Key) (delta limit ttlMs refillRate : Int)
  | zrem (key : Key) (member : String)
  | emergencyAdmit (rules : List Rule) (nowMs : Int)

/-- A check answers whether it allowed, its count and its limit, the RPM check also the lowest score of a
denial; a settlement answers whether there was a bucket. -/
@[reducible] def Cmd.Resp : Cmd → Type
  | .rpmCheck .. => Except RedisError (Bool × Int × Int × Int)
  | .tpmCheck .. | .concurrentCheck .. => Except RedisError (Bool × Int × Int)
  | .tpmSettle .. => Except RedisError Bool
  | .zrem .. => Except RedisError Unit
  | .emergencyAdmit .. => Bool

/-- The members of a set, without those whose score is at most `bound`. -/
def State.freshSet (s : State) (key : Key) (bound : Int) : ZSet String :=
  ((s.sets.get s.time key).getD []).dropUpTo bound

/-- `ZREMRANGEBYSCORE`: an emptied set is deleted. -/
def State.dropStale (s : State) (key : Key) (bound : Int) : State :=
  { s with sets := s.sets.alter s.time key fun _ =>
      if s.freshSet key bound = [] then none else some (s.freshSet key bound) }

/-- `ZADD` and `PEXPIRE`. -/
def State.addMember (s : State) (key : Key) (z : ZSet String) (member : String) (nowMs : Int)
    (ttlMs : Int) : State :=
  { s with sets := s.sets.set key (z.add member nowMs) (some (s.time + ttlMs.toNat)) }

/-- The shared part of the RPM and concurrency checks. -/
def State.addIfRoom (s : State) (key : Key) (nowMs windowMs limit : Int) (member : String)
    (ttlMs : Int) : Bool × State :=
  let z := s.freshSet key (nowMs - windowMs)
  if limit ≤ z.card then (false, s.dropStale key (nowMs - windowMs))
  else (true, s.addMember key z member nowMs ttlMs)

/-- `_LUA_TPM_CHECK`. -/
def State.tpmCheck (s : State) (key : Key) (nowMs limit requestTokens refillRate ttlMs : Int) :
    (Bool × Int × Int) × State :=
  let bucket := (s.buckets.get s.time key).getD ⟨limit, nowMs⟩
  let refill := (nowMs - bucket.ts) * refillRate / 60000
  let tokens := min limit (bucket.tokens + refill)
  if tokens < requestTokens then ((false, tokens, limit), s)
  else ((true, tokens - requestTokens, limit), { s with
    buckets := s.buckets.set key ⟨tokens - requestTokens, nowMs⟩ (some (s.time + ttlMs.toNat)) })

/-- `_LUA_TPM_SETTLE`: a bucket in debt lives until the refill has repaid it. -/
def State.tpmSettle (s : State) (key : Key) (delta limit ttlMs refillRate : Int) : State :=
  match s.buckets.get s.time key with
  | none => s
  | some bucket =>
    let tokens := min limit (bucket.tokens + delta)
    let recoveryMs := -(tokens * 60000 / refillRate)
    let effectiveTtl := if tokens < 0 ∧ 0 < refillRate then max ttlMs (recoveryMs + ttlMs) else ttlMs
    { s with
      buckets := s.buckets.set key { bucket with tokens } (some (s.time + effectiveTtl.toNat)) }

def emergencyWindowSeconds : Int := 60
def emergencyDefaultMaxPerWindow : Int := 60

/-- `_emergency_admit`: headroom for every subject first, then the increments. -/
def State.emergencyAdmit (s : State) (rules : List Rule) (nowMs : Int) : Bool × State :=
  let window := nowMs / 1000 / emergencyWindowSeconds
  let count (windows : SubjectKey → Option (Int × Int)) (subject : SubjectKey) : Int :=
    match windows subject with
    | some (w, n) => if w = window then n else 0
    | none => 0
  if rules.any fun rule => rule.rpmLimit.getD emergencyDefaultMaxPerWindow ≤
      count s.windows (subjectKey rule) then
    (false, s)
  else
    (true, { s with windows := rules.foldl (fun windows rule =>
      Function.update windows (subjectKey rule)
        (some (window, count windows (subjectKey rule) + 1))) s.windows })

def Cmd.run : (c : Cmd) → State → c.Resp × State
  | .rpmCheck key nowMs windowMs limit member, s =>
    let z := s.freshSet key (nowMs - windowMs)
    let (allowed, s') := s.addIfRoom key nowMs windowMs limit member (windowMs + 1000)
    (.ok (allowed, if allowed then z.card + 1 else z.card, limit,
      if allowed then -1 else z.lowest.getD (-1)), s')
  | .tpmCheck key nowMs limit requestTokens refillRate ttlMs, s =>
    let (answer, s') := s.tpmCheck key nowMs limit requestTokens refillRate ttlMs
    (.ok answer, s')
  | .concurrentCheck key nowMs limit member timeoutMs, s =>
    let z := s.freshSet key (nowMs - timeoutMs)
    let (allowed, s') := s.addIfRoom key nowMs timeoutMs limit member (timeoutMs + 10000)
    (.ok (allowed, if allowed then z.card + 1 else z.card, limit), s')
  | .tpmSettle key delta limit ttlMs refillRate, s =>
    (.ok (s.buckets.get s.time key).isSome, s.tpmSettle key delta limit ttlMs refillRate)
  | .zrem key member, s =>
    (.ok (), { s with sets := s.sets.alter s.time key fun z =>
      (z.map (·.rem member)).filter (· ≠ []) })
  | .emergencyAdmit rules nowMs, s => s.emergencyAdmit rules nowMs

/-- Every command succeeds. -/
def sem : Sem Cmd Cmd.Resp State := fun c s r s' => (r, s') = c.run s

/-! ## The public functions -/

abbrev Io (α : Type) := Raising Cmd Cmd.Resp RedisError α

/-- `ZREM` and the settle script may raise `RedisError`. -/
def zrem (key : Key) (member : String) : Io Unit :=
  ExceptT.mk (Prog.cmd (C := Cmd) (.zrem key member))

def settleBucket (key : Key) (delta limit ttlMs refillRate : Int) : Io Unit :=
  ExceptT.mk (Prog.cmd (C := Cmd) (.tpmSettle key delta limit ttlMs refillRate) >>= fun answer =>
    pure (answer.map fun _ => ()))

/-- `with suppress(RedisError)`. -/
def suppress (p : Io Unit) : Prog Cmd Cmd.Resp Unit := do
  let _ ← p.run
  pure ()

def releaseRpm (member : String) (rules : List Rule) : Prog Cmd Cmd.Resp Unit :=
  suppress (forM rules fun rule =>
    if rule.rpmLimit.isSome then zrem rule.rpmKey member else pure ())

def releaseConcurrent (member : String) (rules : List Rule) : Prog Cmd Cmd.Resp Unit :=
  suppress (forM rules fun rule =>
    if rule.maxConcurrent.isSome then zrem rule.concKey member else pure ())

def tpmBucketTtlMs : Int := 1860000
def concurrentStaleTimeoutSeconds : Int := 2100

def settleTpm (rules : List Rule) (deltaTokens : Int) : Io Unit := do
  if deltaTokens ≠ 0 then
    forM rules fun rule =>
      match rule.tpmLimit with
      | some tpmLimit => settleBucket rule.tpmKey deltaTokens (rule.burst tpmLimit)
          tpmBucketTtlMs tpmLimit
      | none => pure ()

inductive DeniedReason
  | rpmExceeded
  | tpmExceeded
  | concurrentExceeded
  | degradedRateLimited
deriving DecidableEq, Repr

structure CheckResult where
  allowed : Bool
  rpmRemaining : Option Int := none
  tpmRemaining : Option Int := none
  concurrentRemaining : Option Int := none
  retryAfterSeconds : Option Int := none
  deniedReason : Option DeniedReason := none
deriving DecidableEq, Repr

/-- The gates passed so far, and the remaining counts they answered. -/
structure Acquired where
  rpm : List Rule := []
  tpm : List Rule := []
  concurrent : Bool := false
  rpmRemaining : Option Int := none
  tpmRemaining : Option Int := none
  concurrentRemaining : Option Int := none

/-- Why the gates stop early: a denial with the gates passed before it, or a failing command. -/
inductive Stop
  | denied (result : CheckResult) (acquired : Acquired)
  | redisError

abbrev Gate (α : Type) := Raising Cmd Cmd.Resp Stop α

abbrev gate {α : Type} (p : Prog Cmd Cmd.Resp (Except RedisError α)) : Gate α :=
  ExceptT.mk (p >>= fun answer =>
    match answer with
    | .ok a => pure (.ok a)
    | .error _ => pure (.error .redisError))

section Check

variable (nowMs : Int) (member : String) (estimatedTokens : Int) (isStream : Bool)

def rpmGate (rule : Rule) (acquired : Acquired) : Gate Acquired :=
  match rule.rpmLimit with
  | none => pure acquired
  | some rpmLimit => do
    let (allowed, current, limit, oldest) ←
      gate (Prog.cmd (C := Cmd) (.rpmCheck rule.rpmKey nowMs 60000 rpmLimit member))
    if allowed then
      pure { acquired with
        rpm := acquired.rpm ++ [rule], rpmRemaining := some (max 0 (limit - current)) }
    else
      let retryAfter := if 0 ≤ oldest then max 1 ((oldest + 60000 - nowMs + 999) / 1000) else 60
      throw (.denied {
        allowed := false, rpmRemaining := some 0, retryAfterSeconds := some retryAfter,
        deniedReason := some .rpmExceeded } acquired)

def tpmGate (rule : Rule) (acquired : Acquired) : Gate Acquired :=
  match rule.tpmLimit with
  | none => pure acquired
  | some tpmLimit =>
    if 0 < estimatedTokens then do
      let (allowed, current, _) ← gate (Prog.cmd (C := Cmd) (.tpmCheck rule.tpmKey nowMs (rule.burst tpmLimit)
        estimatedTokens tpmLimit tpmBucketTtlMs))
      if allowed then
        pure { acquired with tpm := acquired.tpm ++ [rule], tpmRemaining := some current }
      else
        throw (.denied {
          allowed := false, tpmRemaining := some 0, retryAfterSeconds := some 10,
          deniedReason := some .tpmExceeded } acquired)
    else pure acquired

def concurrentGate (rule : Rule) (acquired : Acquired) : Gate Acquired :=
  match rule.maxConcurrent with
  | none => pure acquired
  | some maxConcurrent =>
    if isStream then do
      let (allowed, current, limit) ← gate (Prog.cmd (C := Cmd) (.concurrentCheck rule.concKey nowMs
        maxConcurrent member (concurrentStaleTimeoutSeconds * 1000)))
      if allowed then
        pure { acquired with
          concurrent := true, concurrentRemaining := some (max 0 (limit - current)) }
      else
        throw (.denied {
          allowed := false, concurrentRemaining := some 0, retryAfterSeconds := some 5,
          deniedReason := some .concurrentExceeded } acquired)
    else pure acquired

def checkRule (acquired : Acquired) (rule : Rule) : Gate Acquired := do
  let acquired ← rpmGate nowMs member rule acquired
  let acquired ← tpmGate nowMs estimatedTokens rule acquired
  concurrentGate nowMs member isStream rule acquired

/-- Releases every gate that was passed. -/
def rollback (rules : List Rule) (acquired : Acquired) : Prog Cmd Cmd.Resp Unit := do
  if acquired.rpm ≠ [] then releaseRpm member acquired.rpm
  if acquired.tpm ≠ [] then suppress (settleTpm acquired.tpm estimatedTokens)
  if acquired.concurrent then releaseConcurrent member rules

def checkRateLimits (rules : List Rule) : Prog Cmd Cmd.Resp CheckResult := do
  match ← (rules.foldlM (checkRule nowMs member estimatedTokens isStream) {}).run with
  | .ok acquired =>
    pure {
      allowed := true, rpmRemaining := acquired.rpmRemaining,
      tpmRemaining := acquired.tpmRemaining,
      concurrentRemaining := acquired.concurrentRemaining }
  | .error (.denied result acquired) => do
    rollback member estimatedTokens rules acquired
    pure result
  | .error .redisError => do
    if ← Prog.cmd (.emergencyAdmit rules nowMs) then
      pure { allowed := true }
    else
      pure {
        allowed := false, retryAfterSeconds := some emergencyWindowSeconds,
        deniedReason := some .degradedRateLimited }

end Check

end RateLimit
