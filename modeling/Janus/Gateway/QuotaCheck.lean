import Janus.Conc.Fault
import Janus.Gateway.Quota

/-!
# The check of the quotas, twice (`gateway/quota.py`)

`check_and_increment` hands its quotas over as `keys` and `argv`: to the script, where the client has
scripts, and else to a loop of single commands. The script counts from 1, the loop from 0. Both
answer `[0, -1, -1]`, or `[1, index, count]` for the quota that failed; an index that is out of range
is an error. The limits come from a `Numeric(14, 6)`, so a number of Lua holds them exactly.

* `quotaCheckLua`: `_QUOTA_CHECK_LUA`.
* `runCheckFallback`: `_run_check_fallback`.
* `runCheck`: the commands of `check_and_increment` where one of them may fail.
-/

set_option autoImplicit false

namespace QuotaEnforcer

open Conc

/-- `argv` of `check_and_increment`. -/
def argvOf (entries : List Entry) : List Int :=
  (entries.length : Int) ::
    entries.flatMap fun e => [e.ttl, e.limit, if e.enforce then 1 else 0, e.reserve]

/-! ## The script -/

/-- `KEYS[i]` and `ARGV[i]`. -/
def luaIndex {α : Type} (l : List α) : Nat → Option α
  | 0 => none
  | i + 1 => l[i]?

/-- `DECRBY` for every pair of `incremented`. -/
def luaUndo (keys : List Key) : List (Nat × Int) → State → Option State
  | [], s => some s
  | pair :: incremented, s => do
    let key ← luaIndex keys pair.1
    luaUndo keys incremented (s.incrby key (-pair.2))

/-- The rounds of the loop from `i` on. -/
def luaRounds (keys : List Key) (argv : List Int) :
    Nat → Nat → List (Nat × Int) → State → Option (List Int × State)
  | 0, _, _, s => some ([0, -1, -1], s)
  | rounds + 1, i, incremented, s => do
    let base := 1 + (i - 1) * 4
    let ttl ← luaIndex argv (base + 1)
    let limit ← luaIndex argv (base + 2)
    let enforce ← luaIndex argv (base + 3)
    let reserve ← luaIndex argv (base + 4)
    let key ← luaIndex keys i
    let s := s.incrby key reserve
    let count := s.count key
    let s := if count = reserve ∧ 0 < ttl then s.expire key ttl else s
    let incremented := incremented ++ [(i, reserve)]
    if enforce = 1 ∧ limit < count then do
      let s ← luaUndo keys incremented s
      some ([1, (i : Int) - 1, count], s)
    else luaRounds keys argv rounds (i + 1) incremented s

/-- `_QUOTA_CHECK_LUA`. -/
def quotaCheckLua (keys : List Key) (argv : List Int) (s : State) : Option (List Int × State) := do
  let n ← luaIndex argv 1
  luaRounds keys argv n.toNat 1 [] s

/-! ## The loop of single commands -/

inductive FallbackCmd
  | incrby (key : Key) (amount : Int)
  | expire (key : Key) (ttl : Int)

@[reducible] def FallbackCmd.Resp : FallbackCmd → Type
  | .incrby _ _ => Int
  | .expire _ _ => Unit

def FallbackCmd.run : (c : FallbackCmd) → State → c.Resp × State
  | .incrby key amount, s => ((s.incrby key amount).count key, s.incrby key amount)
  | .expire key ttl, s => ((), s.expire key ttl)

/-- `incrby(key, -amount)` for every pair of `incremented`. -/
def fallbackUndo : List (Key × Int) → Prog FallbackCmd FallbackCmd.Resp Unit
  | [] => return ()
  | pair :: incremented => do
    let _ ← Prog.cmd (C := FallbackCmd) (.incrby pair.1 (-pair.2))
    fallbackUndo incremented

/-- `expire` on a counter that the round has created. -/
def expireNew (key : Key) (ttl reserve count : Int) : Prog FallbackCmd FallbackCmd.Resp Unit :=
  if count = reserve ∧ 0 < ttl then Prog.cmd (C := FallbackCmd) (.expire key ttl) else return ()

/-- The rounds of the loop from `index` on. -/
def fallbackRounds (keys : List Key) (argv : List Int) :
    Nat → Nat → List (Key × Int) → Prog FallbackCmd FallbackCmd.Resp (Option (List Int))
  | 0, _, _ => return some [0, -1, -1]
  | rounds + 1, index, incremented => do
    let base := 1 + index * 4
    match argv[base]?, argv[base + 1]?, argv[base + 2]?, argv[base + 3]?, keys[index]? with
    | some ttl, some limit, some enforce, some reserve, some key =>
      let count ← Prog.cmd (C := FallbackCmd) (.incrby key reserve)
      expireNew key ttl reserve count
      let incremented := incremented ++ [(key, reserve)]
      if enforce = 1 ∧ limit < count then
        fallbackUndo incremented
        return some [1, index, count]
      else fallbackRounds keys argv rounds (index + 1) incremented
    | _, _, _, _, _ => return none

def runCheckFallback (keys : List Key) (argv : List Int) :
    Prog FallbackCmd FallbackCmd.Resp (Option (List Int)) :=
  match argv[0]? with
  | some quotaCount => fallbackRounds keys argv quotaCount.toNat 0 []
  | none => return none

/-! ## Failing commands -/

/-- Whether the client has scripts. -/
inductive CheckPath
  | script
  | fallback
deriving DecidableEq

/-- Readings of the clock and the upstream call are no commands of Redis. -/
def Cmd.isRedis : Cmd → Bool
  | .check _ | .incrby .. | .get _ => true
  | .now | .serve => false

/-- The failed index and its count. -/
def failureOf : Option (List Int) → Option (Nat × Int)
  | some [1, index, count] => some (index.toNat, count)
  | _ => none

/-- `_run_check` and the other commands of `check_and_increment`, of which one may fail. -/
def runCheck (path : CheckPath) :
    (c : Cmd) → Option Fault × State → Option c.Resp × (Option Fault × State)
  | .check entries, s =>
    match path with
    | .script => withFault Cmd.isRedis (Cmd.run .compensate) (.check entries) s
    | .fallback =>
      let (result, s) := (runCheckFallback (entries.map (·.key)) (argvOf entries)).tryEval
        (withFault (fun _ => true) FallbackCmd.run) s
      (result.map failureOf, s)
  | .now, s => withFault Cmd.isRedis (Cmd.run .compensate) .now s
  | .incrby key amount, s => withFault Cmd.isRedis (Cmd.run .compensate) (.incrby key amount) s
  | .get key, s => withFault Cmd.isRedis (Cmd.run .compensate) (.get key) s
  | .serve, s => withFault Cmd.isRedis (Cmd.run .compensate) .serve s

/-- `check_and_increment` when the command after the first `fault` ones fails without effect; no
result where it does. -/
def checkWithFault (path : CheckPath) (r : Request) (fault : Option Nat) (s : State) :
    Option (Except CheckError QuotaCheckResult) × State :=
  let (outcome, _, s) := (checkAndIncrement r.userId r.departmentId r.quotas r.estimatedTokens
    r.estimatedCost).tryEval (runCheck path) (fault.map (⟨·, false⟩), s)
  (outcome, s)

end QuotaEnforcer
