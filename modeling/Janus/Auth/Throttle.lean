import Janus.Conc.Pool
import Janus.Conc.Raising
import Janus.Exceptions
import Janus.Redis.Table

/-!
# Password logins (`core/login_throttle.py`, `authenticate_password` in `auth/service.py`)

Failures are counted per username and per IP; a username whose count reaches the limit is locked.
The check, the lookup, the verification and the recording are commands of their own, so attempts
interleave at each of them. What the database and argon2 answer is left open (`sem`).

* `isLocked`, `isIpLimited`, `recordFailure`, `reset`: the methods of `LoginThrottle`.
* `authenticatePassword`: an attempt up to its session, which `Session.loginSession` opens.
-/

set_option autoImplicit false

namespace Login

open Conc Janus Redis

structure ThrottlePolicy where
  maxFailures : Nat
  lockoutSeconds : Nat
  failureWindowSeconds : Nat
  ipMaxFailures : Nat
  ipWindowSeconds : Nat

/-- The columns of a user that a login reads; no password for a user of the SSO only. -/
structure User where
  id : Int
  password : Option String
deriving DecidableEq, Repr

inductive AuditOutcome
  | success
  | failure
deriving DecidableEq, Repr

inductive LoginFailureReason
  | accountLocked
  | userNotFound
  | badCredentials
deriving DecidableEq, Repr

/-- A row of `login_log`. -/
structure LoginLog where
  userId : Option Int
  username : String
  status : AuditOutcome
  failureReason : Option LoginFailureReason
  requestIp : Option String
  userAgent : Option String
  traceId : Option String
deriving DecidableEq, Repr

/-! ## Redis and the rest -/

/-- `login:fail:{username}`, `login:lock:{username}` and `login:ip:{ip}`. -/
structure Store where
  now : Nat
  fails : Table String Nat
  locks : Table String Unit
  ips : Table String Nat

inductive Cmd
  | existsLock (username : String)
  | getIp (ip : String)
  | incrFail (username : String)
  | expireFail (username : String) (ttl : Nat)
  | setLock (username : String) (ttl : Nat)
  | incrIp (ip : String)
  | expireIp (ip : String) (ttl : Nat)
  | deleteBoth (username : String)
  | getUserByUsername (username : String)
  | verifyPassword (hash plain : String)
  | appendLoginLog (row : LoginLog)
deriving DecidableEq

/-- A statement the database refused. -/
structure DatabaseError

@[reducible] def Cmd.Resp : Cmd → Type
  | .existsLock _ => Bool
  | .getIp _ => Option Nat
  | .incrFail _ | .incrIp _ => Nat
  | .getUserByUsername _ => Except DatabaseError (Option User)
  | .verifyPassword _ _ => Bool
  | .appendLoginLog _ => Except DatabaseError Unit
  | _ => Unit

/-- `INCR`: the new value; a counter that was not there has no deadline yet. -/
def incr (t : Table String Nat) (now : Nat) (k : String) : Nat × Table String Nat :=
  ((t.get now k).getD 0 + 1, t.alter now k fun v => some (v.getD 0 + 1))

/-- The meaning of the commands. -/
def sem : Sem Cmd Cmd.Resp Store := fun c s r s' =>
  match c with
  | .existsLock u => r = (s.locks.get s.now u).isSome ∧ s' = s
  | .getIp ip => r = s.ips.get s.now ip ∧ s' = s
  | .incrFail u => r = (incr s.fails s.now u).1 ∧ s' = { s with fails := (incr s.fails s.now u).2 }
  | .expireFail u ttl => s' = { s with fails := s.fails.expire s.now u ttl }
  | .setLock u ttl => s' = { s with locks := s.locks.set u () (some (s.now + ttl)) }
  | .incrIp ip => r = (incr s.ips s.now ip).1 ∧ s' = { s with ips := (incr s.ips s.now ip).2 }
  | .expireIp ip ttl => s' = { s with ips := s.ips.expire s.now ip ttl }
  | .deleteBoth u => s' = { s with fails := s.fails.del u, locks := s.locks.del u }
  | .getUserByUsername _ | .verifyPassword _ _ | .appendLoginLog _ => s' = s

/-- Time passes. -/
def tick (s s' : Store) : Prop := ∃ d, s' = { s with now := s.now + d }

/-! ## `LoginThrottle` -/

inductive LoginError
  | app (e : AppError)
  | database (e : DatabaseError)

abbrev LoginM (α : Type) := Raising Cmd Cmd.Resp LoginError α

abbrev issue (c : Cmd) : LoginM c.Resp := Raising.cmd c

def isLocked (username : String) : LoginM Bool := issue (.existsLock username)

def isIpLimited (p : ThrottlePolicy) (ip : String) : LoginM Bool := do
  match ← issue (.getIp ip) with
  | none => pure false
  | some raw => pure (decide (p.ipMaxFailures ≤ raw))

/-- The end of `record_failure`: the counter of the IP. -/
def recordIpFailure (p : ThrottlePolicy) (ip : Option String) : LoginM Unit :=
  match ip with
  | none => pure ()
  | some ip => do
    let ipCount ← issue (.incrIp ip)
    if ipCount = 1 then
      issue (.expireIp ip p.ipWindowSeconds)

def recordFailure (p : ThrottlePolicy) (username : String) (ip : Option String) : LoginM Unit := do
  let count ← issue (.incrFail username)
  if count = 1 then
    issue (.expireFail username p.failureWindowSeconds)
  if p.maxFailures ≤ count then
    issue (.setLock username p.lockoutSeconds)
  recordIpFailure p ip

def reset (username : String) : LoginM Unit := issue (.deleteBoth username)

/-! ## `authenticate_password` -/

/-- The arguments of `authenticate_password`. -/
structure Attempt where
  username : String
  password : String
  requestIp : Option String := none
  userAgent : Option String := none
  traceId : Option String := none

def recordLogin (a : Attempt) (userId : Option Int) (outcome : AuditOutcome)
    (reason : Option LoginFailureReason) : LoginM Unit := do
  let written ← issue
    (.appendLoginLog ⟨userId, a.username, outcome, reason, a.requestIp, a.userAgent, a.traceId⟩)
  Raising.ofExcept .database written

def authAccountLocked : LoginError := .app { code := .authAccountLocked, statusCode := 429 }

def authInvalidToken : LoginError := .app { code := .authInvalidToken, statusCode := 401 }

/-- The two checks before the lookup. -/
def isRefused (p : ThrottlePolicy) (a : Attempt) : LoginM Bool := do
  if ← isLocked a.username then
    pure true
  else
    match a.requestIp with
    | none => pure false
    | some ip => isIpLimited p ip

/-- A failed attempt: the audit row, the counters, the error. -/
def fail (p : ThrottlePolicy) (a : Attempt) (userId : Option Int) (reason : LoginFailureReason) :
    LoginM User := do
  recordLogin a userId .failure (some reason)
  recordFailure p a.username a.requestIp
  throw authInvalidToken

/-- The user has no password, or it is not the one given. -/
def isMismatch (a : Attempt) (user : User) : LoginM Bool :=
  match user.password with
  | none => pure true
  | some hash => do
    let verified ← issue (.verifyPassword hash a.password)
    pure (!verified)

def authenticatePassword (p : ThrottlePolicy) (a : Attempt) : LoginM User := do
  if ← isRefused p a then
    recordLogin a none .failure (some .accountLocked)
    throw authAccountLocked
  else
    let user ← Raising.ofExcept .database (← issue (.getUserByUsername a.username))
    match user with
    | none => fail p a none .userNotFound
    | some user =>
      if ← isMismatch a user then
        fail p a (some user.id) .badCredentials
      else
        reset a.username
        -- the session is opened here
        recordLogin a (some user.id) .success none
        pure user

/-! ## Attempts side by side -/

section Pool

variable {ι : Type}

abbrev Attempts (ι : Type) := Pool ι Cmd Cmd.Resp (Except LoginError User) Store

/-- Attempts that have not begun. -/
def Attempts.start (p : ThrottlePolicy) (s₀ : Store) (attempt : ι → Attempt) : Attempts ι :=
  Pool.start s₀ fun i => (authenticatePassword p (attempt i)).run

/-- The attempt verified a wrong password. -/
def wrongPassword : Trace Cmd Cmd.Resp → Bool
  | [] => false
  | ⟨.verifyPassword _ _, false⟩ :: _ => true
  | _ :: t => wrongPassword t

/-- The wrong passwords of `u` whose failure was counted since its counter was created last. -/
def counted [DecidableEq ι] (u : String) : Log ι Cmd Cmd.Resp → Nat
  | [] => 0
  | (i, ⟨.incrFail u', n⟩) :: l =>
    if u' = u then
      (if n = 1 then 0 else counted u l) + if wrongPassword (own i l) then 1 else 0
    else counted u l
  | _ :: l => counted u l

end Pool

end Login
