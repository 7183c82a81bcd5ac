import Mathlib.Logic.Function.Basic
import Janus.Snowflake.Generator

/-!
# Ids of many replicas (`main.py`, `core/worker_id.py`, `core/snowflake.py`)

Replicas start, take a lease on a worker id, mint ids and stop, in any order. Each has a clock of its
own, which never goes back. A lease has one holder at a time, until it is released, lost or lapsed;
what the holder does with its generator after that is its own affair.

* `Fleet.step`: the steps of the replicas and of the leases.
* `Fleet.run`: several of them.
-/

set_option autoImplicit false

namespace Snowflake

/-- The module of a running process, and whether the process has taken its lease. -/
structure Process where
  generator : Generator
  pinned : Bool

/-- `clock` is the last reading, `starts` counts the processes so far. -/
structure Node where
  clock : Int
  starts : Nat
  process : Option Process

/-- An id, the process that minted it, and the millisecond and the worker id of its generator. -/
structure MintedId (ρ : Type) where
  replica : ρ
  start : Nat
  workerId : WorkerId
  ms : Int
  id : Int

structure Fleet (ρ : Type) where
  node : ρ → Node
  holder : WorkerId → Option ρ
  minted : List (MintedId ρ)

/-- `mint` has the readings of the clock during the call; a lease ends by a release, by a loss or by
its time to live. -/
inductive Action (ρ : Type)
  | start (r : ρ)
  | acquire (r : ρ) (workerId : WorkerId)
  | mint (r : ρ) (readings : List Int)
  | leaseEnds (workerId : WorkerId)
  | stop (r : ρ)

section Step

variable {ρ : Type} [DecidableEq ρ]

def Fleet.withNode (F : Fleet ρ) (r : ρ) (n : Node) : Fleet ρ :=
  { F with node := Function.update F.node r n }

def Fleet.start (F : Fleet ρ) (r : ρ) : Option (Fleet ρ) :=
  match (F.node r).process with
  | some _ => none
  | none => some (F.withNode r
      { F.node r with starts := (F.node r).starts + 1, process := some ⟨.init, false⟩ })

def Fleet.acquire (F : Fleet ρ) (r : ρ) (workerId : WorkerId) : Option (Fleet ρ) :=
  match (F.node r).process, F.holder workerId with
  | some ⟨g, false⟩, none =>
    match setWorkerId g workerId with
    | .ok g' => some { F.withNode r { F.node r with process := some ⟨g', true⟩ } with
        holder := Function.update F.holder workerId (some r) }
    | .error _ => none
  | _, _ => none

def Fleet.mint (F : Fleet ρ) (r : ρ) (readings : List Int) : Option (Fleet ρ) :=
  match (F.node r).process with
  | some ⟨g, true⟩ =>
    if ((F.node r).clock :: readings).Pairwise (· ≤ ·) then
      let node (g' : Generator) : Node :=
        ⟨readings.getLast?.getD (F.node r).clock, (F.node r).starts, some ⟨g', true⟩⟩
      match nextId g readings with
      | some (.ok id, g', []) => some { F.withNode r (node g') with
          minted := ⟨r, (F.node r).starts, g.workerId, g'.lastMs, id⟩ :: F.minted }
      | some (.error _, g', []) => some (F.withNode r (node g'))
      | _ => none
    else none
  | _ => none

def Fleet.stop (F : Fleet ρ) (r : ρ) : Option (Fleet ρ) :=
  match (F.node r).process with
  | some _ => some (F.withNode r { F.node r with process := none })
  | none => none

def Fleet.step (F : Fleet ρ) : Action ρ → Option (Fleet ρ)
  | .start r => F.start r
  | .acquire r workerId => F.acquire r workerId
  | .mint r readings => F.mint r readings
  | .leaseEnds workerId => some { F with holder := Function.update F.holder workerId none }
  | .stop r => F.stop r

def Fleet.run (F : Fleet ρ) : List (Action ρ) → Option (Fleet ρ)
  | [] => some F
  | a :: actions => (F.step a).bind fun F' => F'.run actions

end Step

/-- Nothing has started; the clocks show anything. -/
def Fleet.init {ρ : Type} (clock : ρ → Int) : Fleet ρ := ⟨fun r => ⟨clock r, 0, none⟩, fun _ => none, []⟩

end Snowflake
