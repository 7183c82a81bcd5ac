import Janus.Conc.Raising

/-!
# The unit of work of a session (`db/session.py`)

A body writes in a transaction and registers hooks; the unit of work commits and then runs the
hooks, or rolls back. What the commit, the rollback and the hooks do is left open: each succeeds or
raises (`Behaviour`). A cancellation is an exception that is raised where the task awaits.

* `addAfterCommitHook`, `commitSession`, `unitOfWork`: the functions of the module.
* `Body`: what a body registers and writes, in order, and how it ends.
-/

set_option autoImplicit false

namespace DbSession

open Conc

section

variable {D H E : Type}

/-- The calls on the session, its `info` and its hooks. -/
inductive Cmd (D H : Type)
  | write (change : D → D)
  | addHook (hook : H)
  | popHooks
  | commit
  | rollback
  | close
  | call (hook : H)

@[reducible] def Cmd.Resp (E : Type) : Cmd D H → Type
  | .popHooks => List H
  | .commit | .rollback | .call _ => Except E Unit
  | _ => Unit

/-- `D` is the database and `E` the exceptions. -/
abbrev Io (D H E α : Type) := Raising (Cmd D H) (Cmd.Resp E) E α

/-- The answer of a call that may raise. -/
def answer (r : Except E Unit) : Io D H E Unit := Raising.ofExcept id r

def commit : Io D H E Unit := do
  let r ← (Raising.cmd Cmd.commit : Io D H E (Except E Unit))
  answer r

def rollback : Io D H E Unit := do
  let r ← (Raising.cmd Cmd.rollback : Io D H E (Except E Unit))
  answer r

def callHook (hook : H) : Io D H E Unit := do
  let r ← (Raising.cmd (Cmd.call hook) : Io D H E (Except E Unit))
  answer r

def addAfterCommitHook (hook : H) : Io D H E Unit := Raising.cmd (Cmd.addHook hook)

/-- The hooks leave `session.info`, and are called one after the other. -/
def runAfterCommitHooks : Io D H E Unit := do
  let hooks ← (Raising.cmd Cmd.popHooks : Io D H E (List H))
  forM hooks callHook

/-- The end of a transaction that has failed. -/
def abandon (e : E) : Io D H E Unit := do
  rollback
  let _ ← (Raising.cmd Cmd.popHooks : Io D H E (List H))
  throw e

def commitSession : Io D H E Unit := do
  tryCatch commit abandon
  runAfterCommitHooks

/-- The session is closed however the block ends. -/
def withSession (block : Io D H E Unit) : Io D H E Unit := do
  let outcome ← block.attempt
  let _ ← (Raising.cmd Cmd.close : Io D H E Unit)
  answer outcome

def unitOfWork (body : Io D H E Unit) : Io D H E Unit :=
  withSession do
    match ← body.attempt with
    | .error e => abandon e
    | .ok () => commitSession

/-! ## Bodies -/

inductive Action (D H : Type)
  | write (change : D → D)
  | hook (hook : H)

/-- A body that returns, raises or is cancelled after its actions. -/
structure Body (D H E : Type) where
  actions : List (Action D H)
  outcome : Except E Unit

def Action.prog : Action D H → Io D H E Unit
  | .write change => Raising.cmd (Cmd.write change)
  | .hook h => addAfterCommitHook h

def Body.prog (body : Body D H E) : Io D H E Unit := do
  forM body.actions Action.prog
  answer body.outcome

/-- The hooks that a body registers, in order. -/
def Body.hooks (body : Body D H E) : List H :=
  body.actions.filterMap fun
    | .write _ => none
    | .hook h => some h

/-- The database that a body leaves in its transaction. -/
def Body.apply (body : Body D H E) (d : D) : D :=
  body.actions.foldl (fun d action =>
    match action with
    | .write change => change d
    | .hook _ => d) d

/-! ## The session and the database -/

/-- How the calls end; a hook may behave differently each time it is called. -/
structure Behaviour (H E : Type) where
  commit : Except E Unit
  rollback : Except E Unit
  hook : Nat → H → Except E Unit

/-- The committed data, the data as the transaction sees it, `session.info`, and the hooks that have
been called. -/
structure World (D H : Type) where
  committed : D
  pending : D
  hooks : List H
  attempts : List H

/-- A session that has just been opened. -/
def World.start (d : D) : World D H := ⟨d, d, [], []⟩

/-- A rollback that raises has lost its connection, and so its transaction. -/
def Cmd.run (behaviour : Behaviour H E) : (c : Cmd D H) → World D H → Cmd.Resp E c × World D H
  | .write change, w => ((), { w with pending := change w.pending })
  | .addHook hook, w => ((), { w with hooks := w.hooks ++ [hook] })
  | .popHooks, w => (w.hooks, { w with hooks := [] })
  | .commit, w =>
    match behaviour.commit with
    | .ok () => (.ok (), { w with committed := w.pending })
    | .error e => (.error e, w)
  | .rollback, w => (behaviour.rollback, { w with pending := w.committed })
  | .close, w => ((), { w with pending := w.committed })
  | .call hook, w =>
    (behaviour.hook w.attempts.length hook, { w with attempts := w.attempts ++ [hook] })

/-- A unit of work from its start to its end. -/
def Body.run (body : Body D H E) (behaviour : Behaviour H E) (d : D) :
    Except E Unit × World D H :=
  (unitOfWork body.prog).run.eval (Cmd.run behaviour) (World.start d)

end

end DbSession
