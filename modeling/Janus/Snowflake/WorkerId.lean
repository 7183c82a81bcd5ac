import Janus.Conc.Clock
import Janus.Conc.Pool
import Janus.Redis.Table
import Janus.Snowflake.Generator

/-!
# The lease of a worker id (`core/worker_id.py`)

A replica takes a key in Redis for its worker id, under a token of its own, and renews it from a
heartbeat. Every command of Redis is atomic; one that raises was carried out or not. Time is Redis
time in milliseconds; what a replica reads off its own monotonic clock may be anything.

* `sem`: the commands and the two scripts.
* `acquireWorkerId`, `runHeartbeat`, `release`: the functions of the module.
* `lifespan`: the part of `main.py` that calls them.
-/

set_option autoImplicit false

namespace Snowflake

open Conc Redis

/-! ## Commands -/

/-- The keys hold tokens. -/
structure Leases where
  now : Nat
  keys : Table Nat String

inductive Raised
  | redisError
  | cancelled
deriving DecidableEq, Repr

inductive Cmd
  | setNx (workerId : Nat) (token : String) (ttlSeconds : Nat)
  | renew (workerId : Nat) (token : String) (ttlSeconds : Nat)
  | release (workerId : Nat) (token : String)
  | setWorkerId (workerId : Nat)
  | sleep (seconds : Nat)
  | monotonic
  | onLeaseLost
deriving DecidableEq, Repr

@[reducible] def Cmd.Resp : Cmd → Type
  | .setNx _ _ _ => Except Raised Bool
  | .renew _ _ _ => Except Raised Bool
  | .release _ _ => Except Raised Bool
  | .setWorkerId _ => Unit
  | .sleep _ => Unit
  | .monotonic => Nat
  | .onLeaseLost => Unit

def Leases.token (s : Leases) (workerId : Nat) : Option String := s.keys.get s.now workerId

/-- `SET key token NX EX ttl`. -/
def Leases.setNx (s : Leases) (workerId : Nat) (token : String) (ttlSeconds : Nat) :
    Bool × Leases :=
  if s.token workerId = none then
    (true, { s with keys := s.keys.set workerId token (some (s.now + ttlSeconds * 1000)) })
  else (false, s)

/-- `_RENEW_LUA`. -/
def Leases.renew (s : Leases) (workerId : Nat) (token : String) (ttlSeconds : Nat) : Bool × Leases :=
  if s.token workerId = some token then
    (true, { s with keys := s.keys.expire s.now workerId (ttlSeconds * 1000) })
  else (false, s)

/-- `_RELEASE_LUA`. -/
def Leases.release (s : Leases) (workerId : Nat) (token : String) : Bool × Leases :=
  if s.token workerId = some token then (true, { s with keys := s.keys.del workerId })
  else (false, s)

/-- A command of Redis answers, or raises and was carried out or not. -/
def answers (result : Bool × Leases) (s : Leases) (r : Except Raised Bool) (s' : Leases) : Prop :=
  r = .ok result.1 ∧ s' = result.2 ∨ (∃ e, r = .error e) ∧ (s' = result.2 ∨ s' = s)

/-- The time that passes. -/
def Passes (s s' : Leases) : Prop := ∃ now, s.now ≤ now ∧ s' = { s with now }

def sem : Sem Cmd Cmd.Resp Leases
  | .setNx workerId token ttlSeconds, s, r, s' =>
    answers (s.setNx workerId token ttlSeconds) s r s'
  | .renew workerId token ttlSeconds, s, r, s' =>
    answers (s.renew workerId token ttlSeconds) s r s'
  | .release workerId token, s, r, s' => answers (s.release workerId token) s r s'
  | .sleep _, s, _, s' => Passes s s'
  | .setWorkerId _, s, _, s' => s' = s
  | .monotonic, s, _, s' => s' = s
  | .onLeaseLost, s, _, s' => s' = s

/-! ## The module -/

/-- The settings of a replica, its token and the rounds of its heartbeat before it is cancelled. -/
structure Replica where
  token : String
  ttlSeconds : Nat
  isLocal : Bool
  rounds : Nat
deriving DecidableEq, Repr

/-- `WorkerIdUnavailableError`, when Redis could not be reached or every id is held; or the start is
cancelled. -/
inductive AcquireError
  | unreachable
  | exhausted
  | cancelled
deriving DecidableEq, Repr

def tryClaim (workerId : Nat) (token : String) (ttlSeconds : Nat) :
    Prog Cmd Cmd.Resp (Except Raised Bool) :=
  Prog.cmd (C := Cmd) (.setNx workerId token ttlSeconds)

/-- The loop over so many candidates: the id that was claimed. -/
def claimFrom (r : Replica) : Nat → Nat → Prog Cmd Cmd.Resp (Except Raised (Option Nat))
  | 0, _ => return .ok none
  | n + 1, candidate => do
    match ← tryClaim candidate r.token r.ttlSeconds with
    | .error e => return .error e
    | .ok true =>
      Prog.cmd (C := Cmd) (.setWorkerId candidate)
      return .ok (some candidate)
    | .ok false => claimFrom r n (candidate + 1)

/-- The id of the lease; in `local` a replica goes on without one. -/
def acquireWorkerId (r : Replica) :
    Prog Cmd Cmd.Resp (Except AcquireError (Option Nat)) := do
  match ← claimFrom r (maxWorkerId + 1) 0 with
  | .ok (some workerId) => return .ok (some workerId)
  | .error .cancelled => return .error .cancelled
  | .error .redisError =>
    if r.isLocal then
      Prog.cmd (C := Cmd) (.setWorkerId 0)
      return .ok none
    else return .error .unreachable
  | .ok none =>
    if r.isLocal then
      Prog.cmd (C := Cmd) (.setWorkerId 0)
      return .ok none
    else return .error .exhausted

def heartbeatInterval (ttlSeconds : Nat) : Nat := max 1 (ttlSeconds / 3)

/-- The rounds of the heartbeat; `last` is the time of the last renewal. -/
def heartbeatRounds (r : Replica) (workerId : Nat) : Nat → Nat → Prog Cmd Cmd.Resp Unit
  | 0, _ => return ()
  | rounds + 1, last => do
    Prog.cmd (C := Cmd) (.sleep (heartbeatInterval r.ttlSeconds))
    match ← Prog.cmd (C := Cmd) (.renew workerId r.token r.ttlSeconds) with
    | .error .cancelled => return ()
    | .error .redisError =>
      let now ← Prog.cmd (C := Cmd) .monotonic
      if r.ttlSeconds * 1000 ≤ now - last then Prog.cmd (C := Cmd) .onLeaseLost
      else heartbeatRounds r workerId rounds last
    | .ok false => Prog.cmd (C := Cmd) .onLeaseLost
    | .ok true =>
      let now ← Prog.cmd (C := Cmd) .monotonic
      heartbeatRounds r workerId rounds now

def runHeartbeat (r : Replica) (workerId : Nat) : Prog Cmd Cmd.Resp Unit := do
  let now ← Prog.cmd (C := Cmd) .monotonic
  heartbeatRounds r workerId r.rounds now

def release (r : Replica) (workerId : Nat) : Prog Cmd Cmd.Resp Unit := do
  let _ ← Prog.cmd (C := Cmd) (.release workerId r.token)

/-- A replica from its start to its shutdown. -/
def lifespan (r : Replica) : Prog Cmd Cmd.Resp Unit := do
  match ← acquireWorkerId r with
  | .ok (some workerId) =>
    runHeartbeat r workerId
    release r workerId
  | _ => return ()

end Snowflake
