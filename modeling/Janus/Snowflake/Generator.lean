import Mathlib.Data.Int.Bitwise

/-!
# Snowflake ids (`core/snowflake.py`)

An id is a millisecond since the epoch, a worker id and a sequence number. The generator keeps the
last millisecond and its sequence number, behind a lock. `nextId` is given what the clock will show,
one reading for each look at it; a call whose loop uses up the readings does not return.

* `setWorkerId`, `nextId`: the two functions.
* `run`: calls one after the other, from the import of the module on.
-/

set_option autoImplicit false

namespace Snowflake

def epochMs : Int := 1735689600000

def workerIdBits : Nat := 10
def sequenceBits : Nat := 12

def maxWorkerId : Nat := 1 <<< workerIdBits - 1
def maxSequence : Nat := 1 <<< sequenceBits - 1

def workerIdShift : Nat := sequenceBits
def timestampShift : Nat := sequenceBits + workerIdBits

def maxRollbackWaitMs : Int := 1000

abbrev WorkerId := { workerId : Int // 0 ≤ workerId ∧ workerId ≤ maxWorkerId }

/-- The globals of the module. -/
structure Generator where
  workerId : WorkerId
  lastMs : Int
  sequence : Nat
  sequence_le : sequence ≤ maxSequence
deriving DecidableEq

/-- The globals at the import. -/
def Generator.init : Generator := ⟨⟨0, by decide⟩, -1, 0, by decide⟩

inductive Error
  | valueError (workerId : Int)
  | clockRollback (rollbackMs : Int)
deriving DecidableEq, Repr

def setWorkerId (g : Generator) (workerId : Int) : Except Error Generator :=
  if h : 0 ≤ workerId ∧ workerId ≤ maxWorkerId then .ok { g with workerId := ⟨workerId, h⟩ }
  else .error (.valueError workerId)

/-- `while again(now): now = _now_ms()`. -/
def waitWhile (again : Int → Bool) (now : Int) : List Int → Option (Int × List Int)
  | [] => if again now then none else some (now, [])
  | next :: readings =>
    if again now then waitWhile again next readings else some (now, next :: readings)

/-- The id of a millisecond, a worker and a sequence number. -/
def encode (now : Int) (workerId : WorkerId) (sequence : Nat) : Int :=
  Int.lor (Int.lor ((now - epochMs) <<< timestampShift) (workerId.val <<< workerIdShift)) sequence

/-- The next sequence number in a millisecond, 0 where there is none. -/
def nextSequence (g : Generator) : Nat := (g.sequence + 1) &&& maxSequence

theorem nextSequence_le (g : Generator) : nextSequence g ≤ maxSequence := Nat.and_le_right

/-- The last statements: the state is written, the id returned. -/
def mint (g : Generator) (now : Int) (sequence : Nat) (h : sequence ≤ maxSequence)
    (readings : List Int) : Except Error Int × Generator × List Int :=
  (.ok (encode now g.workerId sequence), { g with lastMs := now, sequence, sequence_le := h },
    readings)

def nextId (g : Generator) : List Int → Option (Except Error Int × Generator × List Int)
  | [] => none
  | now :: readings =>
    if now < g.lastMs ∧ maxRollbackWaitMs < g.lastMs - now then
      some (.error (.clockRollback (g.lastMs - now)), g, readings)
    else do
      let (now, readings) ← waitWhile (· < g.lastMs) now readings
      if now = g.lastMs then
        if nextSequence g = 0 then
          let (now, readings) ← waitWhile (· ≤ g.lastMs) now readings
          some (mint g now 0 (Nat.zero_le _) readings)
        else some (mint g now (nextSequence g) (nextSequence_le g) readings)
      else some (mint g now 0 (Nat.zero_le _) readings)

/-! ## Runs -/

inductive Call
  | nextId
  | setWorkerId (workerId : Int)
deriving DecidableEq, Repr

/-- A call that has returned or raised. -/
structure Done where
  before : Generator
  call : Call
  answer : Except Error (Option Int)
  after : Generator

/-- A call, and what the clock will show after it. -/
def Call.exec (g : Generator) (readings : List Int) : Call → Option (Done × List Int)
  | .nextId =>
    match Snowflake.nextId g readings with
    | none => none
    | some (.ok id, g', later) => some (⟨g, .nextId, .ok (some id), g'⟩, later)
    | some (.error e, g', later) => some (⟨g, .nextId, .error e, g'⟩, later)
  | .setWorkerId workerId =>
    match Snowflake.setWorkerId g workerId with
    | .ok g' => some (⟨g, .setWorkerId workerId, .ok none, g'⟩, readings)
    | .error e => some (⟨g, .setWorkerId workerId, .error e, g⟩, readings)

/-- The calls of a process as long as they return. -/
def run (g : Generator) : List Call → List Int → List Done
  | [], _ => []
  | call :: calls, readings =>
    match call.exec g readings with
    | none => []
    | some (done, later) => done :: run done.after calls later

end Snowflake
