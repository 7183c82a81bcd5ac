import Mathlib.Logic.Relation

/-!
# The live router (`gateway/router_manager.py`)

Admin writes are followed by an invalidation, for which the subscriber sets an event. The debounce
worker waits for the event, then for a quiet window, and rebuilds; a poll rebuilds from time to
time as well. Tasks switch only where one awaits, so a step takes a task from one such place to the
next. The catalog is the number of its commits so far, and a router the number at which its rows
were read; a rebuild that finds its rows unchanged keeps the router, which then is as good as new.

* `enterOuter`, `enterInner`, `startRebuild`: the worker up to where it awaits again.
* `Step`: the steps of the tasks.
-/

set_option autoImplicit false

namespace RouterManager

/-- The tasks that rebuild. -/
inductive Task
  | worker
  | poll
deriving DecidableEq, Repr

/-- Where the debounce worker is. -/
inductive Worker
  | created
  | outerWait
  | innerWait
  | rebuilding
  | ended
deriving DecidableEq, Repr

/-- What has happened: a signal after so many commits, a rebuild of the worker that has started, and
one that has raised. -/
inductive Event
  | signal (version : Nat)
  | started
  | raised
deriving DecidableEq, Repr

/-- `holder` has `_lock`, and `loaded` is what it has read since; `log` has the latest event
first. -/
structure State where
  version : Nat
  event : Bool
  worker : Worker
  polling : Bool
  holder : Option Task
  loaded : Option Nat
  router : Nat
  log : List Event
deriving DecidableEq, Repr

/-- The tasks have been created; the startup has built the router. -/
structure State.Start (s : State) : Prop where
  event : s.event = false
  worker : s.worker = .created
  polling : s.polling = false
  holder : s.holder = none
  loaded : s.loaded = none
  router : s.router ≤ s.version
  log : s.log = []

namespace State

variable (s : State)

/-- The inner loop: the event is cleared, so that `wait_for` has to wait. -/
def enterInner : State := { s with event := false, worker := .innerWait }

/-- The outer loop: `wait` does not wait if the event is set. -/
def enterOuter : State := if s.event then s.enterInner else { s with worker := .outerWait }

/-- The window has passed: `rebuild` is called. -/
def startRebuild : State := { s with worker := .rebuilding, log := .started :: s.log }

/-- The task is in a call of `rebuild`. -/
def Rebuilding : Task → Prop
  | .worker => s.worker = .rebuilding
  | .poll => s.polling = true

/-- The call of `rebuild` has returned. -/
def returned : Task → State
  | .worker => s.enterOuter
  | .poll => { s with polling := false }

/-- The call of `rebuild` has raised; both tasks go on. -/
def raised : Task → State
  | .worker => ({ s with log := .raised :: s.log } : State).enterOuter
  | .poll => { s with polling := false }

/-- The lock is given back if the task has it. -/
def release (t : Task) : State :=
  if s.holder = some t then { s with holder := none, loaded := none } else s

end State

inductive Step : State → State → Prop
  /-- An admin write is committed. -/
  | commit (s : State) : Step s { s with version := s.version + 1 }
  /-- The subscriber gets a message. -/
  | signal (s : State) : Step s { s with event := true, log := .signal s.version :: s.log }
  | begin (s : State) (hworker : s.worker = .created) : Step s s.enterOuter
  /-- The outer `wait` returns. -/
  | wake (s : State) (hworker : s.worker = .outerWait) (hevent : s.event = true) :
      Step s s.enterInner
  /-- `wait_for` returns. -/
  | extend (s : State) (hworker : s.worker = .innerWait) (hevent : s.event = true) :
      Step s s.enterInner
  /-- `wait_for` times out, even if the event has just been set. -/
  | timeout (s : State) (hworker : s.worker = .innerWait) : Step s s.startRebuild
  | poll (s : State) (hpoll : s.polling = false) : Step s { s with polling := true }
  | acquire (s : State) (t : Task) (htask : s.Rebuilding t) (hfree : s.holder = none) :
      Step s { s with holder := some t, loaded := none }
  | load (s : State) (t : Task) (htask : s.Rebuilding t) (hheld : s.holder = some t)
      (hnew : s.loaded = none) : Step s { s with loaded := some s.version }
  /-- The router is replaced, or found unchanged. -/
  | finish (s : State) (t : Task) (v : Nat) (htask : s.Rebuilding t) (hheld : s.holder = some t)
      (hloaded : s.loaded = some v) :
      Step s (({ s with router := v } : State).release t |>.returned t)
  | raise (s : State) (t : Task) (htask : s.Rebuilding t) : Step s ((s.release t).raised t)
  /-- The worker is cancelled at the shutdown. -/
  | cancel (s : State) : Step s ({ s.release .worker with worker := .ended })

/-- The states of all runs. -/
def Reachable (s : State) : Prop := ∃ s₀, State.Start s₀ ∧ Relation.ReflTransGen Step s₀ s

end RouterManager
