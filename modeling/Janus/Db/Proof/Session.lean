import Janus.Db.Session

/-!
# Hooks and commits

A unit of work that fails leaves the database as it was and calls no hook (`run_failed`). After a
commit the hooks are called in order up to the first one that raises (`run_committed`), so all of
them are called exactly if none but the last raises (`allOrNothing_iff`).
-/

set_option autoImplicit false

namespace DbSession

open Conc

variable {D H E : Type} {body : Body D H E} {behaviour : Behaviour H E} {w w' : World D H} {d : D}
  {e : E}

/-! ## Bodies -/

/-- What the actions of a body leave. -/
def World.after (w : World D H) (actions : List (Action D H)) : World D H :=
  { w with
    pending := (Body.mk (E := Empty) actions (.ok ())).apply w.pending
    hooks := w.hooks ++ (Body.mk (E := Empty) actions (.ok ())).hooks }

theorem actions_eval (actions : List (Action D H)) :
    (forM actions Action.prog : Io D H E Unit).run.eval (Cmd.run behaviour) w =
      (.ok (), w.after actions) := by
  induction actions generalizing w with
  | nil =>
    simp [World.after, Body.apply, Body.hooks]
    rfl
  | cons action actions ih =>
    have haction : action.prog.run.eval (Cmd.run (E := E) behaviour) w =
        (.ok (), w.after [action]) := by
      cases action <;> simp [World.after, Body.apply, Body.hooks] <;> rfl
    rw [List.forM_cons, Raising.eval_bind_ok haction, ih]
    cases action <;> simp [World.after, Body.apply, Body.hooks]

theorem answer_eval (r : Except E Unit) :
    (answer r : Io D H E Unit).run.eval (Cmd.run behaviour) w = (r, w) := by
  cases r <;> rfl

theorem body_eval : body.prog.run.eval (Cmd.run behaviour) w =
    (body.outcome, w.after body.actions) := by
  refine (Raising.eval_bind_ok (actions_eval body.actions)).trans ?_
  exact answer_eval body.outcome

/-! ## Ends -/

/-- The hooks that are called: those up to the first one that raises. -/
def tried (behaviour : Behaviour H E) : Nat → List H → List H
  | _, [] => []
  | n, h :: hooks =>
    match behaviour.hook n h with
    | .ok () => h :: tried behaviour (n + 1) hooks
    | .error _ => [h]

theorem hooks_eval (hooks : List H) :
    ((forM hooks callHook : Io D H E Unit).run.eval (Cmd.run behaviour) w).2 =
      { w with attempts := w.attempts ++ tried behaviour w.attempts.length hooks } := by
  induction hooks generalizing w with
  | nil => simp [tried]; rfl
  | cons h hooks ih =>
    rw [List.forM_cons]
    have hcall : (callHook h : Io D H E Unit).run.eval (Cmd.run behaviour) w =
        (behaviour.hook w.attempts.length h, { w with attempts := w.attempts ++ [h] }) :=
      answer_eval _
    cases hh : behaviour.hook w.attempts.length h with
    | ok u =>
      rw [hh] at hcall
      rw [Raising.eval_bind_ok hcall, ih]
      simp [tried, hh]
    | error e =>
      rw [hh] at hcall
      rw [Raising.eval_bind_error hcall]
      simp [tried, hh]

variable (behaviour w e) in
/-- A transaction that is abandoned is rolled back, whether or not the rollback raises. -/
theorem abandon_eval : ∃ e' hooks, (abandon e : Io D H E Unit).run.eval (Cmd.run behaviour) w =
    (.error e', { w with pending := w.committed, hooks }) := by
  have hrollback : (rollback : Io D H E Unit).run.eval (Cmd.run behaviour) w =
      (behaviour.rollback, { w with pending := w.committed }) := answer_eval _
  unfold abandon
  cases hr : behaviour.rollback with
  | ok u =>
    rw [hr] at hrollback
    rw [Raising.eval_bind_ok hrollback]
    exact ⟨e, [], rfl⟩
  | error e' =>
    rw [hr] at hrollback
    rw [Raising.eval_bind_error hrollback]
    exact ⟨e', w.hooks, rfl⟩

variable (behaviour w) in
theorem commit_eval : (commit : Io D H E Unit).run.eval (Cmd.run behaviour) w =
    match behaviour.commit with
    | .ok () => (.ok (), { w with committed := w.pending })
    | .error e => (.error e, w) := by
  have hcommit : (commit : Io D H E Unit).run.eval (Cmd.run behaviour) w =
      (answer (Cmd.run behaviour .commit w).1 : Io D H E Unit).run.eval (Cmd.run behaviour)
        (Cmd.run (E := E) behaviour .commit w).2 := rfl
  rw [hcommit, answer_eval]
  rfl

theorem commitSession_committed (h : behaviour.commit = .ok ()) :
    ((commitSession : Io D H E Unit).run.eval (Cmd.run behaviour) w).2 =
      { w with
        committed := w.pending
        hooks := []
        attempts := w.attempts ++ tried behaviour w.attempts.length w.hooks } := by
  have hcommit := commit_eval behaviour w
  rw [h] at hcommit
  unfold commitSession
  rw [Raising.eval_bind_ok (Raising.eval_tryCatch_ok hcommit)]
  exact hooks_eval w.hooks

variable (w) in
theorem commitSession_failed (h : behaviour.commit = .error e) :
    ∃ hooks, ((commitSession : Io D H E Unit).run.eval (Cmd.run behaviour) w).2 =
      { w with pending := w.committed, hooks } := by
  have hcommit := commit_eval behaviour w
  rw [h] at hcommit
  obtain ⟨e', hooks, habandon⟩ := abandon_eval behaviour w e
  have htry : (tryCatch commit abandon : Io D H E Unit).run.eval (Cmd.run behaviour) w =
      (.error e', { w with pending := w.committed, hooks }) :=
    (Raising.eval_tryCatch_error hcommit).trans habandon
  unfold commitSession
  rw [Raising.eval_bind_error htry]
  exact ⟨hooks, rfl⟩

/-- A session leaves what its block has committed. -/
theorem withSession_eval {block : Io D H E Unit}
    (h : (block.run.eval (Cmd.run behaviour) w).2 = w') :
    ((withSession block).run.eval (Cmd.run behaviour) w).2 = { w' with pending := w'.committed } := by
  subst h
  unfold withSession
  rw [Raising.eval_bind_ok Raising.eval_attempt]
  refine (congrArg Prod.snd (Raising.eval_bind_ok (a := ()) rfl)).trans ?_
  rw [answer_eval]
  rfl

/-! ## Units of work -/

variable (body behaviour d) in
/-- The block of a unit of work, once its body has ended. -/
theorem run_eq (p : Io D H E Unit) (h : (match body.outcome with
    | .error e => abandon e
    | .ok () => commitSession) = p)
    (hw : (p.run.eval (Cmd.run behaviour) ((World.start d).after body.actions)).2 = w') :
    (body.run behaviour d).2 = { w' with pending := w'.committed } := by
  unfold Body.run unitOfWork
  refine withSession_eval ?_
  have hattempt : body.prog.attempt.run.eval (Cmd.run behaviour) (World.start d) =
      (.ok body.outcome, (World.start d).after body.actions) := by
    rw [Raising.eval_attempt, body_eval]
  subst h hw
  refine congrArg Prod.snd ((Raising.eval_bind_ok hattempt).trans ?_)
  cases body.outcome <;> rfl

/-- A unit of work that fails leaves nothing and calls no hook. -/
theorem run_failed (h : body.outcome = .error e ∨ body.outcome = .ok () ∧ behaviour.commit = .error e) :
    let w := (body.run behaviour d).2
    w.attempts = [] ∧ w.committed = d ∧ w.pending = d := by
  intro w
  have hstart : w = { (World.start d : World D H) with hooks := w.hooks } := by
    rcases h with hbody | ⟨hbody, hcommit⟩
    · obtain ⟨e', hooks, habandon⟩ := abandon_eval behaviour ((World.start d).after body.actions) e
      have hrun := run_eq body behaviour d (abandon e)
        (by rw [hbody]) (congrArg Prod.snd habandon)
      exact hrun.trans (by rw [show w.hooks = hooks from congrArg World.hooks hrun]; rfl)
    · obtain ⟨hooks, hfailed⟩ := commitSession_failed ((World.start d).after body.actions) hcommit
      have hrun := run_eq body behaviour d commitSession
        (by rw [hbody]) hfailed
      exact hrun.trans (by rw [show w.hooks = hooks from congrArg World.hooks hrun]; rfl)
  rw [hstart]
  exact ⟨rfl, rfl, rfl⟩

/-- After a commit the hooks are called up to the first one that raises. -/
theorem run_committed (hbody : body.outcome = .ok ()) (hcommit : behaviour.commit = .ok ()) :
    let w := (body.run behaviour d).2
    w.attempts = tried behaviour 0 body.hooks ∧ w.committed = body.apply d := by
  intro w
  have hrun := run_eq body behaviour d commitSession
    (by rw [hbody]) (commitSession_committed hcommit)
  rw [show w = _ from hrun]
  exact ⟨rfl, rfl⟩

/-! ## All or nothing -/

/-- A unit of work whose body or commit fails calls no hook and is rolled back; otherwise every hook
is called once, in order, and what was committed stays. -/
def AllOrNothing (body : Body D H E) (behaviour : Behaviour H E) (d : D) : Prop :=
  let w := (body.run behaviour d).2
  (∀ e, body.outcome = .error e ∨ body.outcome = .ok () ∧ behaviour.commit = .error e →
    w.attempts = [] ∧ w.committed = d ∧ w.pending = d) ∧
  (body.outcome = .ok () → behaviour.commit = .ok () →
    w.attempts = body.hooks ∧ w.committed = body.apply d)

/-- All hooks are called exactly if none that is followed by another one raises. -/
theorem tried_eq_iff {n : Nat} {hooks : List H} : tried behaviour n hooks = hooks ↔
    ∀ i h, hooks[i]? = some h → i + 1 < hooks.length → behaviour.hook (n + i) h = .ok () := by
  induction hooks generalizing n with
  | nil => simp [tried]
  | cons h hooks ih =>
    unfold tried
    cases hh : behaviour.hook n h with
    | ok u =>
      simp only [List.cons.injEq, true_and, ih]
      constructor
      · intro hrest i h' hi hlt
        cases i with
        | zero =>
          simp only [List.getElem?_cons_zero, Option.some.injEq] at hi
          rw [← hi]
          exact hh
        | succ i =>
          have hnext := hrest i h' (by simpa using hi) (by simpa using hlt)
          rwa [show n + (i + 1) = n + 1 + i by omega]
      · intro hall i h' hi hlt
        have hnext := hall (i + 1) h' (by simpa using hi) (by simpa using hlt)
        rwa [show n + (i + 1) = n + 1 + i by omega] at hnext
    | error e =>
      cases hooks with
      | nil => simp
      | cons h' hooks =>
        constructor
        · intro heq
          simp at heq
        · intro hall
          have hfirst := hall 0 h rfl (by simp)
          rw [Nat.add_zero, hh] at hfirst
          cases hfirst

/-- A unit of work is all or nothing exactly if, where body and commit succeed, every hook but the
last one does. -/
theorem allOrNothing_iff : AllOrNothing body behaviour d ↔
    (body.outcome = .ok () → behaviour.commit = .ok () → ∀ i h, body.hooks[i]? = some h →
      i + 1 < body.hooks.length → behaviour.hook i h = .ok ()) := by
  constructor
  · intro hall hbody hcommit
    have hattempts := (hall.2 hbody hcommit).1
    rw [(run_committed hbody hcommit).1, tried_eq_iff] at hattempts
    simpa using hattempts
  · intro hhooks
    refine ⟨fun e h => run_failed h, fun hbody hcommit => ?_⟩
    obtain ⟨hattempts, hcommitted⟩ := run_committed (d := d) hbody hcommit
    refine ⟨?_, hcommitted⟩
    rw [hattempts, tried_eq_iff]
    simpa using hhooks hbody hcommit

/-- A user's deletion registers two invalidations, and the first one raises. -/
def twoHooks : Body Nat String Unit := ⟨[.hook "user 1", .write (· + 1), .hook "user 2"], .ok ()⟩

def firstRaises : Behaviour String Unit :=
  ⟨.ok (), .ok (), fun n _ => if n = 0 then .error () else .ok ()⟩

/-- The second hook is never called, though the commit has succeeded. -/
theorem second_hook_lost : (twoHooks.run firstRaises 0).2.committed = 1 ∧
    (twoHooks.run firstRaises 0).2.attempts = ["user 1"] ∧
    ¬ AllOrNothing twoHooks firstRaises 0 := by
  refine ⟨rfl, rfl, fun h => ?_⟩
  have hlost := (h.2 rfl rfl).1
  exact absurd hlost (by decide)

end DbSession
