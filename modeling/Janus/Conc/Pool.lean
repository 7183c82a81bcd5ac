import Mathlib.Algebra.BigOperators.Group.Finset.Piecewise
import Janus.Conc.Prog

/-!
# Pools of programs over one shared state

A `Pool` is a shared state, one program for each thread `i : ι`, and the log of the commands
issued so far with the thread that issued each. A step of the pool is one command of one thread,
or one step of the environment (time passing, a key expiring). Every interleaving of the threads
is a path of `Pool.Step`; a thread that crashes is one that is never scheduled again, and a thread
that starts late is one whose first command comes late.

* `own i l`: thread `i`'s own trace in the log `l`.
* `Pool.play`, `Pool.tryPlay`: the run of a schedule when the commands are functions of the state,
  total or partial.
* `Pool.Ordered`: each thread keeps to its program order, whatever the others do
  (`Ordered.reach`).
* `Reach.post`: the postcondition of a thread that has returned, in terms of its own trace.
* `Reach.invariant`: an invariant of state and log that every guarded command and every step of
  the environment keeps holds in every reachable pool (`Ordered.invariant` from any pool on).
-/

set_option autoImplicit false

namespace Conc

/-- The commands issued so far and by whom, newest first. -/
abbrev Log (ι C : Type) (R : C → Type) := List (ι × Event C R)

section Own

variable {ι C : Type} {R : C → Type} [DecidableEq ι]

/-- Thread `i`'s own trace. -/
def own (i : ι) (l : Log ι C R) : Trace C R :=
  l.filterMap fun e => if e.1 = i then some e.2 else none

@[simp] theorem own_nil (i : ι) : own i ([] : Log ι C R) = [] := rfl

@[simp] theorem own_cons_self (i : ι) (e : Event C R) (l : Log ι C R) :
    own i ((i, e) :: l) = e :: own i l := by simp [own]

@[simp] theorem own_cons_ne {i j : ι} (h : j ≠ i) (e : Event C R) (l : Log ι C R) :
    own i ((j, e) :: l) = own i l := by simp [own, h]

theorem mem_own {i : ι} {e : Event C R} {l : Log ι C R} : e ∈ own i l ↔ (i, e) ∈ l := by
  simp only [own, List.mem_filterMap, Prod.exists]
  constructor
  · rintro ⟨j, e', hm, he⟩
    split at he
    · cases he
      simp_all
    · cases he
  · exact fun h => ⟨i, e, h, by simp⟩

theorem own_subset_cons (i : ι) (e : ι × Event C R) (l : Log ι C R) : own i l ⊆ own i (e :: l) := by
  intro e' he
  rw [mem_own] at he ⊢
  exact List.mem_cons_of_mem _ he

/-- What the events of a log come to, thread by thread. -/
theorem sum_own [Fintype ι] {M : Type} [AddCommMonoid M] (f : Event C R → M) (l : Log ι C R) :
    ∑ i, ((own i l).map f).sum = (l.map fun e => f e.2).sum := by
  induction l with
  | nil => simp
  | cons e l ih =>
    obtain ⟨j, e⟩ := e
    have hstep (i : ι) : ((own i ((j, e) :: l)).map f).sum =
        (if i = j then f e else 0) + ((own i l).map f).sum := by
      by_cases hij : i = j
      · subst hij
        simp
      · rw [own_cons_ne (Ne.symm hij), if_neg hij, zero_add]
    simp only [hstep, Finset.sum_add_distrib, Finset.sum_ite_eq', Finset.mem_univ, if_true, ih,
      List.map_cons, List.sum_cons]

end Own

/-- A shared state, the log, and the remaining program of every thread. -/
structure Pool (ι C : Type) (R : C → Type) (α S : Type) where
  shared : S
  log : Log ι C R
  thread : ι → Prog C R α

namespace Pool

variable {ι C : Type} {R : C → Type} {α S : Type} [DecidableEq ι]

/-- One step of the pool: a command of a thread, or a step of the environment. -/
inductive Step (E : Sem C R S) (env : S → S → Prop) : Pool ι C R α S → Pool ι C R α S → Prop
  | run {P : Pool ι C R α S} {i : ι} {c : C} {k : R c → Prog C R α} {r : R c} {s' : S} :
      P.thread i = .step c k → E c P.shared r s' →
      Step E env P ⟨s', (i, ⟨c, r⟩) :: P.log, Function.update P.thread i (k r)⟩
  | env {P : Pool ι C R α S} {s' : S} : env P.shared s' → Step E env P ⟨s', P.log, P.thread⟩

/-- The pools that some interleaving reaches from `P₀`. -/
abbrev Reach (E : Sem C R S) (env : S → S → Prop) (P₀ P : Pool ι C R α S) : Prop :=
  Relation.ReflTransGen (Step E env) P₀ P

/-- The start of a run: nothing logged yet. -/
def start (s : S) (thread : ι → Prog C R α) : Pool ι C R α S := ⟨s, [], thread⟩

/-- The next command of thread `i`, if it has not returned. -/
def advance (f : (c : C) → S → R c × S) (P : Pool ι C R α S) (i : ι) : Pool ι C R α S :=
  match P.thread i with
  | .ret _ => P
  | .step c k => ⟨(f c P.shared).2, (i, ⟨c, (f c P.shared).1⟩) :: P.log,
      Function.update P.thread i (k (f c P.shared).1)⟩

/-- The run that a schedule determines. -/
def play (f : (c : C) → S → R c × S) (P : Pool ι C R α S) (schedule : List ι) : Pool ι C R α S :=
  schedule.foldl (advance f) P

/-- The next command of thread `i`, if it has not returned and the command has an answer. -/
def tryAdvance (f : (c : C) → S → Option (R c × S)) (P : Pool ι C R α S) (i : ι) : Pool ι C R α S :=
  match P.thread i with
  | .ret _ => P
  | .step c k =>
    match f c P.shared with
    | none => P
    | some (r, s') => ⟨s', (i, ⟨c, r⟩) :: P.log, Function.update P.thread i (k r)⟩

def tryPlay (f : (c : C) → S → Option (R c × S)) (P : Pool ι C R α S) (schedule : List ι) :
    Pool ι C R α S := schedule.foldl (tryAdvance f) P

/-- Every thread has returned. -/
def Done (P : Pool ι C R α S) : Prop := ∀ i, ∃ a, P.thread i = .ret a

variable {E : Sem C R S} {env : S → S → Prop} {G : ι → Guard C R}
  {Q : ι → α → Trace C R → Prop} {s₀ : S} {thread : ι → Prog C R α} {P₀ P : Pool ι C R α S}

/-- A thread that has not returned makes a step. -/
theorem step_advance {f : (c : C) → S → R c × S} (hE : ∀ c s, E c s (f c s).1 (f c s).2) {i : ι}
    {c : C} {k : R c → Prog C R α} (hk : P.thread i = .step c k) : Step E env P (advance f P i) := by
  unfold advance
  rw [hk]
  exact .run hk (hE c P.shared)

/-- A schedule begins with a step of its first thread, if the condition on steps allows the command. -/
theorem path_cons {ok : Pool ι C R α S → ι → C → Prop} {f : (c : C) → S → R c × S}
    (hE : ∀ c s, E c s (f c s).1 (f c s).2) {i : ι} {schedule : List ι} {c : C}
    {k : R c → Prog C R α} (hk : P.thread i = .step c k) (hok : ok P i c)
    (h : Relation.ReflTransGen (fun P P' => Step E env P P' ∧
      ∀ i c r, P'.log = (i, ⟨c, r⟩) :: P.log → ok P i c)
      (advance f P i) (play f (advance f P i) schedule)) :
    Relation.ReflTransGen (fun P P' => Step E env P P' ∧
      ∀ i c r, P'.log = (i, ⟨c, r⟩) :: P.log → ok P i c) P (play f P (i :: schedule)) := by
  refine .head ⟨step_advance hE hk, fun i' c' r hlog => ?_⟩ h
  unfold advance at hlog
  rw [hk] at hlog
  injection hlog with hevent _
  cases hevent
  exact hok

theorem reach_play {f : (c : C) → S → R c × S} (hE : ∀ c s, E c s (f c s).1 (f c s).2)
    (schedule : List ι) (P : Pool ι C R α S) : Reach E env P (play f P schedule) := by
  induction schedule generalizing P with
  | nil => exact .refl
  | cons i schedule ih =>
    refine .trans ?_ (ih (advance f P i))
    cases hk : P.thread i with
    | ret a =>
      unfold advance
      rw [hk]
    | step c k => exact .single (step_advance hE hk)

theorem reach_tryPlay {f : (c : C) → S → Option (R c × S)}
    (hE : ∀ {c s r s'}, f c s = some (r, s') → E c s r s') (schedule : List ι)
    (P : Pool ι C R α S) : Reach E env P (tryPlay f P schedule) := by
  induction schedule generalizing P with
  | nil => exact .refl
  | cons i schedule ih =>
    refine .trans ?_ (ih (tryAdvance f P i))
    unfold tryAdvance
    split
    · exact .refl
    · next c k hk =>
      split
      · exact .refl
      · next r s' hr => exact .single (.run hk (hE hr))

/-- Each thread has kept and will keep to its program order. -/
def Ordered (G : ι → Guard C R) (Q : ι → α → Trace C R → Prop) (P : Pool ι C R α S) : Prop :=
  ∀ i, Trace.Guarded (G i) (own i P.log) ∧ (P.thread i).Follows (G i) (Q i) (own i P.log)

theorem ordered_start (h : ∀ i, (thread i).Follows (G i) (Q i) []) :
    Ordered G Q (start s₀ thread) := fun i => ⟨trivial, h i⟩

theorem Ordered.reach (h₀ : Ordered G Q P₀) (h : Reach E env P₀ P) : Ordered G Q P := by
  induction h with
  | refl => exact h₀
  | tail _ hstep ih =>
    cases hstep with
    | env _ => exact ih
    | @run j c k r s' hk _ =>
      intro i
      by_cases hij : i = j
      · subst hij
        have hi := (ih i).2
        rw [hk] at hi
        simpa using ⟨⟨hi.1, (ih i).1⟩, hi.2 r⟩
      · simpa [Ne.symm hij, Function.update_of_ne hij] using ih i

/-- An invariant of the guarded commands and of the environment holds from any ordered pool on. -/
theorem Ordered.invariant {J : S → Log ι C R → Prop} (h₀ : Ordered G Q P₀)
    (hinit : J P₀.shared P₀.log)
    (hcmd : ∀ {i c r s s' l}, (∀ k, Trace.Guarded (G k) (own k l)) → J s l → G i (own i l) c →
      E c s r s' → J s' ((i, ⟨c, r⟩) :: l))
    (henv : ∀ {s s' l}, J s l → env s s' → J s' l) (h : Reach E env P₀ P) :
    J P.shared P.log := by
  induction h with
  | refl => exact hinit
  | tail h hstep ih =>
    cases hstep with
    | env he => exact henv ih he
    | @run j c k r s' hk he =>
      have hf := h₀.reach h
      have hj := (hf j).2
      rw [hk] at hj
      exact hcmd (fun i => (hf i).1) ih hj.1 he

/-- Each thread keeps to its program order. -/
theorem Reach.follows (h₀ : ∀ i, (thread i).Follows (G i) (Q i) [])
    (h : Reach E env (start s₀ thread) P) : Ordered G Q P := (ordered_start h₀).reach h

/-- The postcondition of a thread that has returned. -/
theorem Ordered.post (h : Ordered G Q P) {i : ι} {a : α} (hi : P.thread i = .ret a) :
    Q i a (own i P.log) := by
  have := (h i).2
  rwa [hi] at this

theorem Reach.post (h₀ : ∀ i, (thread i).Follows (G i) (Q i) [])
    (h : Reach E env (start s₀ thread) P) {i : ι} {a : α} (hi : P.thread i = .ret a) :
    Q i a (own i P.log) := (h.follows h₀).post hi

/-- An invariant of the guarded commands and of the environment holds in every reachable pool. -/
theorem Reach.invariant {J : S → Log ι C R → Prop} (h₀ : ∀ i, (thread i).Follows (G i) (Q i) [])
    (hinit : J s₀ [])
    (hcmd : ∀ {i c r s s' l}, (∀ k, Trace.Guarded (G k) (own k l)) → J s l → G i (own i l) c →
      E c s r s' → J s' ((i, ⟨c, r⟩) :: l))
    (henv : ∀ {s s' l}, J s l → env s s' → J s' l)
    (h : Reach E env (start s₀ thread) P) : J P.shared P.log :=
  (ordered_start h₀).invariant hinit hcmd henv h

/-- A run of some of the steps. -/
theorem Reach.mono {E' : Sem C R S} (h : Reach E env P₀ P)
    (hE : ∀ {c s r s'}, E c s r s' → E' c s r s') : Reach E' env P₀ P := by
  induction h with
  | refl => exact .refl
  | tail _ hstep ih =>
    cases hstep with
    | env he => exact ih.tail (.env he)
    | run hk he => exact ih.tail (.run hk (hE he))

/-- The log only grows. -/
theorem Reach.log_suffix (h : Reach E env P₀ P) : P₀.log <:+ P.log := by
  induction h with
  | refl => exact List.suffix_refl _
  | tail _ hstep ih =>
    cases hstep with
    | env _ => exact ih
    | run _ _ => exact ih.trans (List.suffix_cons _ _)

end Pool

end Conc
