import Mathlib.Algebra.Order.Field.Rat
import Janus.Conc.Prog
import Janus.Redis.Table

/-!
# The store of channel health (`channel_health/redis_store.py`)

The outcomes of the requests of a channel are counted in hashes, one for each minute; a set holds the
channels that are degraded, a hash the state of each, a key the lock of its probe. The clocks of the
workers and of Redis are one clock, in milliseconds.

* `Cmd`: the commands of Redis that the module issues, and what the probe asks of the database and of
  the upstream (`sem`). A pipeline that is no transaction is its commands one after the other.
* `recordRequestOutcome` … `releaseProbeLock`: the functions of the module.
-/

set_option autoImplicit false

namespace ChannelHealth

open Conc Redis

abbrev ChannelId := Int

/-- The hash of a minute. -/
abbrev Bucket := String → Option Int

def Bucket.empty : Bucket := fun _ => none

/-- `HINCRBY`. -/
def Bucket.add (bucket : Bucket) (field : String) (amount : Int) : Bucket :=
  Function.update bucket field (some ((bucket field).getD 0 + amount))

/-- The state hash of a channel; a field that was never set is `none`. -/
structure ChannelState where
  status : Option String := none
  degradedSince : Option Nat := none
  probeFailures : Option Int := none
  lastProbeAt : Option Nat := none
deriving DecidableEq, Repr

/-- `HSET` with a mapping: the fields that are given. -/
def ChannelState.update (state fields : ChannelState) : ChannelState where
  status := fields.status <|> state.status
  degradedSince := fields.degradedSince <|> state.degradedSince
  probeFailures := fields.probeFailures <|> state.probeFailures
  lastProbeAt := fields.lastProbeAt <|> state.lastProbeAt

/-- What `_get_probe_info` loads. -/
structure ProbeInfo where
  provider : String
  upstreamModel : String
  apiKey : String
  apiBase : Option String
deriving DecidableEq, Repr

/-! ## Commands -/

/-- `buckets (c, m)` is `ch:health:{c}:{m}`, `degraded` is `ch:health:degraded`, `states c` is
`ch:health:state:{c}` and `locks c` is `ch:health:probe:lock:{c}`. -/
structure Store where
  now : Nat
  buckets : Table (ChannelId × Int) Bucket
  degraded : List ChannelId
  states : ChannelId → ChannelState
  locks : Table ChannelId Unit

def Store.empty (now : Nat) : Store := ⟨now, Table.empty, [], fun _ => {}, Table.empty⟩

inductive Cmd
  | time
  | hincrby (channel : ChannelId) (minute : Int) (field : String) (amount : Int)
  | expire (channel : ChannelId) (minute : Int) (ttlSeconds : Int)
  | hget (channel : ChannelId) (minute : Int) (field : String)
  | sadd (channel : ChannelId)
  | srem (channel : ChannelId)
  | smembers
  | hgetall (channel : ChannelId)
  | hset (channel : ChannelId) (fields : ChannelState)
  | deleteState (channel : ChannelId)
  | deleteBuckets (channel : ChannelId) (minutes : List Int)
  | setLock (channel : ChannelId) (ttlSeconds : Int)
  | deleteLock (channel : ChannelId)
  | publish (topic : String)
  | loadProbeInfo (channel : ChannelId)
  | acompletion (model : String) (apiKey : String) (apiBase : Option String)
  | disable (channel : ChannelId)
deriving DecidableEq

/-- `acompletion` answers whether it returned. -/
@[reducible] def Cmd.Resp : Cmd → Type
  | .time => Nat
  | .hget .. => Option Int
  | .sadd _ | .setLock .. | .acompletion .. => Bool
  | .smembers => List ChannelId
  | .hgetall _ => ChannelState
  | .loadProbeInfo _ => Option ProbeInfo
  | _ => Unit

namespace Store

variable (s : Store)

def hincrby (channel : ChannelId) (minute : Int) (field : String) (amount : Int) : Store :=
  { s with
    buckets := s.buckets.alter s.now (channel, minute) fun bucket =>
      some ((bucket.getD Bucket.empty).add field amount) }

/-- `EXPIRE`: a deadline that has passed deletes the key. -/
def expire (channel : ChannelId) (minute : Int) (ttlSeconds : Int) : Store :=
  { s with
    buckets :=
      if ttlSeconds ≤ 0 then s.buckets.del (channel, minute)
      else s.buckets.expire s.now (channel, minute) (ttlSeconds.toNat * 1000) }

def hget (channel : ChannelId) (minute : Int) (field : String) : Option Int :=
  (s.buckets.get s.now (channel, minute)).bind (· field)

def setState (channel : ChannelId) (state : ChannelState) : Store :=
  { s with states := Function.update s.states channel state }

/-- `SET key "1" EX ttl NX`; Redis refuses a time to live that is not positive, and the caller takes
the error for a lock that is held. -/
def setLock (channel : ChannelId) (ttlSeconds : Int) : Bool × Store :=
  if 0 < ttlSeconds ∧ s.locks.get s.now channel = none then
    (true, { s with locks := s.locks.set channel () (some (s.now + ttlSeconds.toNat * 1000)) })
  else (false, s)

end Store

/-- The commands on the store; what it does not know is answered by `answer`. -/
def Cmd.run (answer : (c : Cmd) → c.Resp) : (c : Cmd) → Store → c.Resp × Store
  | .time, s => (s.now, s)
  | .hincrby channel minute field amount, s => ((), s.hincrby channel minute field amount)
  | .expire channel minute ttlSeconds, s => ((), s.expire channel minute ttlSeconds)
  | .hget channel minute field, s => (s.hget channel minute field, s)
  | .sadd channel, s =>
    (!s.degraded.contains channel, { s with degraded := s.degraded.insert channel })
  | .srem channel, s => ((), { s with degraded := s.degraded.filter (· ≠ channel) })
  | .smembers, s => (s.degraded, s)
  | .hgetall channel, s => (s.states channel, s)
  | .hset channel fields, s => ((), s.setState channel ((s.states channel).update fields))
  | .deleteState channel, s => ((), s.setState channel {})
  | .deleteBuckets channel minutes, s =>
    ((), { s with buckets := minutes.foldl (fun t minute => t.del (channel, minute)) s.buckets })
  | .setLock channel ttlSeconds, s => s.setLock channel ttlSeconds
  | .deleteLock channel, s => ((), { s with locks := s.locks.del channel })
  | .publish _, s => ((), s)
  | .loadProbeInfo channel, s => (answer (.loadProbeInfo channel), s)
  | .acompletion model apiKey apiBase, s => (answer (.acompletion model apiKey apiBase), s)
  | .disable _, s => ((), s)

/-- The members of the set are answered in any order, the database and the upstream answer anything. -/
def Cmd.Answers : (c : Cmd) → c.Resp → c.Resp → Prop
  | .smembers, members, members' => members'.Perm members
  | .loadProbeInfo _, _, _ | .acompletion .., _, _ => True
  | .time, r, r' | .hget .., r, r' | .sadd _, r, r' | .setLock .., r, r' | .hgetall _, r, r' => r' = r
  | _, _, _ => True

/-- Some answer, for the commands of which any will do. -/
def Cmd.anyAnswer : (c : Cmd) → c.Resp
  | .time => 0
  | .hget .. => none
  | .sadd _ | .setLock .. | .acompletion .. => false
  | .smembers => []
  | .hgetall _ => {}
  | .loadProbeInfo _ => none
  | .hincrby .. | .expire .. | .srem _ | .hset .. | .deleteState _ | .deleteBuckets ..
  | .deleteLock _ | .publish _ | .disable _ => ()

def sem : Sem Cmd Cmd.Resp Store :=
  fun c s r s' => c.Answers (c.run Cmd.anyAnswer s).1 r ∧ s' = (c.run Cmd.anyAnswer s).2

/-- Whatever the database and the upstream answer, it is a run of the command. -/
theorem sem_run (answer : (c : Cmd) → c.Resp) (c : Cmd) (s : Store) :
    sem c s (c.run answer s).1 (c.run answer s).2 := by
  cases c with
  | smembers => exact ⟨List.Perm.refl _, rfl⟩
  | time | hget | sadd | setLock | hgetall => exact ⟨rfl, rfl⟩
  | _ => exact ⟨trivial, rfl⟩

/-- Time passes. -/
def tick (s s' : Store) : Prop := ∃ d, s' = { s with now := s.now + d }

theorem tick_refl (s : Store) : tick s s := ⟨0, rfl⟩

/-! ## Health recording -/

abbrev Redis (α : Type) := Prog Cmd Cmd.Resp α

abbrev redis (c : Cmd) : Redis c.Resp := Prog.cmd c

/-- The minute of a reading of the clock. -/
def minute (now : Nat) : Int := (now / 60000 : Nat)

def currentMinuteBucket : Redis Int := do
  let now ← redis .time
  pure (minute now)

/-- The fields of a failed request; an empty error class counts as none. -/
def recordError (channel : ChannelId) (bucket : Int) : Option String → Redis Unit
  | none => redis (.hincrby channel bucket "error" 1)
  | some errorClass => do
    redis (.hincrby channel bucket "error" 1)
    if errorClass ≠ "" then
      redis (.hincrby channel bucket errorClass 1)

def recordRequestOutcome (channel : ChannelId) (success : Bool) (errorClass : Option String)
    (windowSeconds : Int) : Redis Unit := do
  let bucket ← currentMinuteBucket
  let ttl := windowSeconds + 120
  redis (.hincrby channel bucket "total" 1)
  (if success then pure () else recordError channel bucket errorClass)
  redis (.expire channel bucket ttl)

structure ErrorRate where
  total : Int
  errors : Int
  rate : Rat
deriving DecidableEq, Repr

def ErrorRate.ofCounts (total errors : Int) : ErrorRate :=
  ⟨total, errors, if 0 < total then errors / total else 0⟩

/-- The two reads of a bucket, added to the sums so far. -/
def readBucket (channel : ChannelId) (sums : Int × Int) (bucket : Int) : Redis (Int × Int) := do
  let t ← redis (.hget channel bucket "total")
  let e ← redis (.hget channel bucket "error")
  pure (sums.1 + t.getD 0, sums.2 + e.getD 0)

/-- `current_bucket - i for i in range(n)`. -/
def bucketsFrom (currentBucket : Int) (n : Nat) : List Int :=
  (List.range n).map fun i : Nat => currentBucket - (i : Int)

def getErrorRate (channel : ChannelId) (windowSeconds : Int) : Redis ErrorRate := do
  let currentBucket ← currentMinuteBucket
  let numBuckets := (windowSeconds / 60 + 1).toNat
  let sums ← (bucketsFrom currentBucket numBuckets).foldlM (readBucket channel) (0, 0)
  pure (ErrorRate.ofCounts sums.1 sums.2)

/-! ## Degraded set -/

def addToDegraded (channel : ChannelId) : Redis Bool := redis (.sadd channel)

def removeFromDegraded (channel : ChannelId) : Redis Unit := redis (.srem channel)

def getDegradedChannelIds : Redis (List ChannelId) := redis .smembers

/-! ## Channel state -/

def getChannelState (channel : ChannelId) : Redis ChannelState := redis (.hgetall channel)

def updateChannelState (channel : ChannelId) (fields : ChannelState) : Redis Unit :=
  redis (.hset channel fields)

/-- The hash and the buckets of the last ten minutes. -/
def clearChannelState (channel : ChannelId) : Redis Unit := do
  redis (.deleteState channel)
  let currentBucket ← currentMinuteBucket
  redis (.deleteBuckets channel (bucketsFrom currentBucket 10))

/-! ## Probe lock -/

def acquireProbeLock (channel : ChannelId) (ttlSeconds : Int) : Redis Bool :=
  redis (.setLock channel ttlSeconds)

def releaseProbeLock (channel : ChannelId) : Redis Unit := redis (.deleteLock channel)

end ChannelHealth
