import Mathlib.Data.List.Forall2
import Mathlib.Logic.Relation
import Mathlib.Logic.Function.Basic

/-!
# Programs over atomic commands

`Prog C R α` is a coroutine that issues atomic commands `c : C`, each answered by a value of
`R c`, and returns an `α`. It is a monad, so a program is written in `do`-notation; between two
commands anything else may happen. What a program did is its `Trace`, newest event first.

* `Prog.eval`, `Prog.tryRun`: the run of a program when the commands are functions of the state,
  total or partial.
* `Prog.Runs`: a run of one program with its trace; an environment acts around every command.
* `Prog.Follows`: the program order. `p.Follows G Q t`: continuing the trace `t`, and whatever the
  answers are, `p` issues only commands that the guard `G` allows after the events so far, and
  `Q` holds of its result and its whole trace. There is one rule for each of `pure`, `>>=`, a
  command and a loop (`Follows.bind`, `Follows.step_iff`, `Follows.forM`, `Follows.foldlM`).
* `Runs.guarded`, `Runs.post`, `Runs.invariant`: what a run inherits from `Follows` and from an
  invariant of the guarded commands and of the environment.
-/

set_option autoImplicit false

namespace Conc

/-- A program that issues commands `c : C`, each answered by a value of `R c`. -/
inductive Prog (C : Type) (R : C → Type) (α : Type) : Type
  | ret (a : α)
  | step (c : C) (k : R c → Prog C R α)

/-- One command and its answer. -/
structure Event (C : Type) (R : C → Type) where
  cmd : C
  resp : R cmd

/-- Newest event first. -/
abbrev Trace (C : Type) (R : C → Type) := List (Event C R)

/-- The meaning of the commands: `E c s r s'` when `c` in `s` may answer `r` and leave `s'`. -/
abbrev Sem (C : Type) (R : C → Type) (S : Type) := (c : C) → S → R c → S → Prop

/-- What a program may issue after a trace. -/
abbrev Guard (C : Type) (R : C → Type) := Trace C R → C → Prop

/-- Every command of the trace was allowed by the guard when it was issued. -/
def Trace.Guarded {C : Type} {R : C → Type} (G : Guard C R) : Trace C R → Prop
  | [] => True
  | e :: t => G t e.cmd ∧ Trace.Guarded G t

/-- What the guard checked when an event of the trace was issued. -/
theorem Trace.Guarded.before {C : Type} {R : C → Type} {G : Guard C R} {t : Trace C R}
    {e : Event C R} (h : Trace.Guarded G t) (he : e ∈ t) : ∃ t', e :: t' <:+ t ∧ G t' e.cmd := by
  induction t with
  | nil => cases he
  | cons e' t ih =>
    rcases List.mem_cons.1 he with rfl | he
    · exact ⟨t, List.suffix_refl _, h.1⟩
    · obtain ⟨t', hs, hg⟩ := ih h.2 he
      exact ⟨t', hs.trans (List.suffix_cons _ _), hg⟩

theorem Trace.Guarded.of_mem {C : Type} {R : C → Type} {G : Guard C R} {t : Trace C R}
    {e : Event C R} (h : Trace.Guarded G t) (he : e ∈ t) : ∃ t', t' ⊆ t ∧ G t' e.cmd := by
  obtain ⟨t', hs, hg⟩ := h.before he
  exact ⟨t', List.Subset.trans (List.subset_cons_self _ _) hs.subset, hg⟩

namespace Prog

variable {C : Type} {R : C → Type} {S α β : Type}

def bind : Prog C R α → (α → Prog C R β) → Prog C R β
  | ret a, f => f a
  | step c k, f => step c fun r => (k r).bind f

instance : Monad (Prog C R) where
  pure := ret
  bind := bind

/-- The program that issues one command. -/
def cmd (c : C) : Prog C R (R c) := step c ret

@[simp] theorem pure_eq (a : α) : (pure a : Prog C R α) = ret a := rfl
@[simp] theorem ret_bind (a : α) (f : α → Prog C R β) : (ret a >>= f) = f a := rfl
@[simp] theorem step_bind (c : C) (k : R c → Prog C R α) (f : α → Prog C R β) :
    (step c k >>= f) = step c fun r => k r >>= f := rfl
@[simp] theorem cmd_bind (c : C) (f : R c → Prog C R β) : (cmd c >>= f) = step c f := rfl
@[simp] theorem map_eq (f : α → β) (p : Prog C R α) : f <$> p = p >>= fun a => ret (f a) := rfl

theorem bind_ret (p : Prog C R α) : (p >>= ret) = p := by
  induction p with
  | ret a => rfl
  | step c k ih => simp only [step_bind, ih]

theorem bind_assoc {γ : Type} (p : Prog C R α) (f : α → Prog C R β) (g : β → Prog C R γ) :
    (p >>= f) >>= g = p >>= fun a => f a >>= g := by
  induction p with
  | ret a => rfl
  | step c k ih => simp only [step_bind, ih]

instance : LawfulMonad (Prog C R) := LawfulMonad.mk' _ bind_ret (fun _ _ => rfl) bind_assoc

/-! ## Runs of one program -/

/-- The run of a program when the commands are functions of the state. -/
def eval (f : (c : C) → S → R c × S) : Prog C R α → S → α × S
  | ret a, s => (a, s)
  | step c k, s => (k (f c s).1).eval f (f c s).2

theorem eval_cmd {f : (c : C) → S → R c × S} {c : C} {s : S} : (cmd c).eval f s = f c s := rfl

theorem eval_bind {f : (c : C) → S → R c × S} {p : Prog C R α} {g : α → Prog C R β} {s : S} :
    (p >>= g).eval f s = (g (p.eval f s).1).eval f (p.eval f s).2 := by
  induction p generalizing s with
  | ret a => rfl
  | step c k ih => exact ih (f c s).1

/-- `p.Runs E env s t a s' t'`: `p`, continuing `t` from `s`, may return `a` and leave `s'` and
the trace `t'`, the environment acting before every command and before the return. -/
def Runs (E : Sem C R S) (env : S → S → Prop) :
    Prog C R α → S → Trace C R → α → S → Trace C R → Prop
  | ret a, s, t, b, s', t' => b = a ∧ t' = t ∧ env s s'
  | step c k, s, t, b, s', t' => ∃ s₁ r s₂, env s s₁ ∧ E c s₁ r s₂ ∧
      (k r).Runs E env s₂ (⟨c, r⟩ :: t) b s' t'

variable {E : Sem C R S} {env : S → S → Prop} {s s' : S} {t t' : Trace C R}

@[simp] theorem runs_ret {a b : α} :
    (ret a : Prog C R α).Runs E env s t b s' t' ↔ b = a ∧ t' = t ∧ env s s' := Iff.rfl

/-- A run of a sequence is a run of the first program followed by one of the second. -/
theorem Runs.of_bind {p : Prog C R α} {f : α → Prog C R β} {b : β} (hrefl : ∀ s, env s s)
    (h : (p >>= f).Runs E env s t b s' t') :
    ∃ a s₁ t₁, p.Runs E env s t a s₁ t₁ ∧ (f a).Runs E env s₁ t₁ b s' t' := by
  induction p generalizing s t with
  | ret a => exact ⟨a, s, t, ⟨rfl, rfl, hrefl s⟩, h⟩
  | step c k ih =>
    obtain ⟨s₁, r, s₂, he, hc, hk⟩ := h
    obtain ⟨a, s₃, t₃, h₁, h₂⟩ := ih r hk
    exact ⟨a, s₃, t₃, ⟨s₁, r, s₂, he, hc, h₁⟩, h₂⟩

/-- The environment may act before a run. -/
theorem Runs.of_env {p : Prog C R α} {s₁ : S} {a : α}
    (htrans : ∀ {a b c}, env a b → env b c → env a c) (he : env s s₁)
    (h : p.Runs E env s₁ t a s' t') : p.Runs E env s t a s' t' := by
  cases p with
  | ret b => exact ⟨h.1, h.2.1, htrans he h.2.2⟩
  | step c k =>
    obtain ⟨s₂, r, s₃, he', hc, hk⟩ := h
    exact ⟨s₂, r, s₃, htrans he he', hc, hk⟩

/-- The run `eval` computes is a run in a quiet environment, on states that mirror those of `eval`. -/
theorem runs_eval_of {T : Type} {f : (c : C) → T → R c × T} {Mirrors : S → T → Prop}
    (hrefl : ∀ s, env s s)
    (hE : ∀ c {s x}, Mirrors s x → ∃ s', E c s (f c x).1 s' ∧ Mirrors s' (f c x).2)
    (p : Prog C R α) {x : T} (h : Mirrors s x) (t : Trace C R) :
    ∃ s' t', p.Runs E env s t (p.eval f x).1 s' t' ∧ Mirrors s' (p.eval f x).2 := by
  induction p generalizing s x t with
  | ret a => exact ⟨s, t, ⟨rfl, rfl, hrefl s⟩, h⟩
  | step c k ih =>
    obtain ⟨s₁, hc, h₁⟩ := hE c h
    obtain ⟨s', t', hk, h'⟩ := ih (f c x).1 h₁ (⟨c, (f c x).1⟩ :: t)
    exact ⟨s', t', ⟨s, _, s₁, hrefl s, hc, hk⟩, h'⟩

theorem runs_eval {f : (c : C) → S → R c × S} (hrefl : ∀ s, env s s)
    (hE : ∀ c s, E c s (f c s).1 (f c s).2) (p : Prog C R α) (s : S) (t : Trace C R) :
    ∃ t', p.Runs E env s t (p.eval f s).1 (p.eval f s).2 t' := by
  have hmirror : ∀ c {s x}, s = x → ∃ s', E c s (f c x).1 s' ∧ s' = (f c x).2 := by
    rintro c s x rfl
    exact ⟨_, hE c s, rfl⟩
  obtain ⟨s', t', h, rfl⟩ := runs_eval_of hrefl hmirror p (rfl : s = s) t
  exact ⟨t', h⟩

/-- The run of a program, with its trace, when the commands are partial functions of the state. -/
def tryRun (f : (c : C) → S → Option (R c × S)) :
    Prog C R α → S → Trace C R → Option (α × S × Trace C R)
  | ret a, s, t => some (a, s, t)
  | step c k, s, t =>
    match f c s with
    | none => none
    | some (r, s') => (k r).tryRun f s' (⟨c, r⟩ :: t)

theorem runs_tryRun {f : (c : C) → S → Option (R c × S)} (hrefl : ∀ s, env s s)
    (hE : ∀ {c s r s'}, f c s = some (r, s') → E c s r s') {p : Prog C R α} {a : α}
    (h : p.tryRun f s t = some (a, s', t')) : p.Runs E env s t a s' t' := by
  induction p generalizing s t with
  | ret b =>
    cases h
    exact ⟨rfl, rfl, hrefl _⟩
  | step c k ih =>
    unfold tryRun at h
    cases hf : f c s with
    | none =>
      rw [hf] at h
      cases h
    | some answer =>
      rw [hf] at h
      exact ⟨s, answer.1, answer.2, hrefl s, hE hf, ih answer.1 h⟩

/-! ## Program order -/

/-- The program order judgement (module doc). -/
def Follows (G : Guard C R) (Q : α → Trace C R → Prop) : Prog C R α → Trace C R → Prop
  | ret a, t => Q a t
  | step c k, t => G t c ∧ ∀ r, (k r).Follows G Q (⟨c, r⟩ :: t)

namespace Follows

variable {G : Guard C R} {Q Q' : α → Trace C R → Prop}

@[simp] theorem ret_iff {a : α} : (ret a).Follows G Q t ↔ Q a t := Iff.rfl

theorem step_iff {c : C} {k : R c → Prog C R α} :
    (step c k).Follows G Q t ↔ G t c ∧ ∀ r, (k r).Follows G Q (⟨c, r⟩ :: t) := Iff.rfl

theorem mono {p : Prog C R α} (h : p.Follows G Q t) (hQ : ∀ a t, Q a t → Q' a t) :
    p.Follows G Q' t := by
  induction p generalizing t with
  | ret a => exact hQ _ _ h
  | step c k ih => exact ⟨h.1, fun r => ih r (h.2 r)⟩

theorem bind_iff {p : Prog C R α} {f : α → Prog C R β} {Q : β → Trace C R → Prop} :
    (p >>= f).Follows G Q t ↔ p.Follows G (fun a t => (f a).Follows G Q t) t := by
  induction p generalizing t with
  | ret a => rfl
  | step c k ih => simp only [step_bind, step_iff, ih]

theorem bind {p : Prog C R α} {f : α → Prog C R β} {P : α → Trace C R → Prop}
    {Q : β → Trace C R → Prop} (hp : p.Follows G P t)
    (hf : ∀ a t, P a t → (f a).Follows G Q t) : (p >>= f).Follows G Q t :=
  bind_iff.2 (hp.mono hf)

/-- A program extends the trace. -/
theorem suffix (p : Prog C R α) (t : Trace C R) :
    p.Follows (fun _ _ => True) (fun _ t' => t <:+ t') t := by
  induction p generalizing t with
  | ret a => exact List.suffix_refl t
  | step c k ih =>
    refine ⟨trivial, fun r => (ih r (⟨c, r⟩ :: t)).mono fun _ _ h => ?_⟩
    exact (List.suffix_cons _ _).trans h

/-- A loop keeps an invariant of its remaining list that each round keeps. -/
theorem forM {γ : Type} {l : List γ} {body : γ → Prog C R PUnit}
    {I : List γ → Trace C R → Prop} (hI : I l t)
    (hbody : ∀ x xs t, I (x :: xs) t → (body x).Follows G (fun _ t => I xs t) t) :
    (forM l body).Follows G (fun _ t => I [] t) t := by
  induction l generalizing t with
  | nil => exact hI
  | cons x xs ih =>
    rw [List.forM_cons]
    exact bind (hbody x xs t hI) fun _ t h => ih h

/-- A loop with an accumulator. -/
theorem foldlM {γ : Type} {l : List γ} {body : β → γ → Prog C R β} {b : β}
    {I : List γ → β → Trace C R → Prop} (hI : I l b t)
    (hbody : ∀ x xs b t, I (x :: xs) b t → (body b x).Follows G (fun b t => I xs b t) t) :
    (l.foldlM body b).Follows G (fun b t => I [] b t) t := by
  induction l generalizing t b with
  | nil => exact hI
  | cons x xs ih =>
    rw [List.foldlM_cons]
    exact bind (hbody x xs b t hI) fun _ t h => ih h

/-- A loop that collects the results of its rounds. `K` says what a result is, in terms of the
trace so far. -/
theorem mapM {γ : Type} {l : List γ} {body : γ → Prog C R β} {J : Trace C R → Prop}
    {K : Trace C R → γ → β → Prop}
    (hmono : ∀ {t t' x y}, t <:+ t' → K t x y → K t' x y) (hJ : J t)
    (hbody : ∀ x ∈ l, ∀ t, J t →
      (body x).Follows G (fun y t' => J t' ∧ t <:+ t' ∧ K t' x y) t) :
    (l.mapM body).Follows G (fun ys t' => J t' ∧ t <:+ t' ∧ List.Forall₂ (K t') l ys) t := by
  induction l generalizing t with
  | nil => exact ⟨hJ, List.suffix_refl _, .nil⟩
  | cons x xs ih =>
    rw [List.mapM_cons]
    refine bind (hbody x List.mem_cons_self t hJ) fun y t₁ hy => ?_
    obtain ⟨hJ₁, hs₁, hxy⟩ := hy
    refine bind (ih hJ₁ fun x hx => hbody x (List.mem_cons_of_mem _ hx)) fun ys t₂ hys => ?_
    obtain ⟨hJ₂, hs₂, hrest⟩ := hys
    exact ⟨hJ₂, hs₁.trans hs₂, .cons (hmono hs₂ hxy) hrest⟩

/-- What holds before every command and at the return holds now. -/
theorem here {I : Trace C R → Prop} {p : Prog C R α} (h : p.Follows G Q t)
    (hG : ∀ t c, G t c → I t) (hQ : ∀ a t, Q a t → I t) : I t := by
  cases p with
  | ret a => exact hQ a t h
  | step c k => exact hG t c h.1

/-- A program runs through when the commands that it may issue have an answer. -/
theorem tryRun_isSome {f : (c : C) → S → Option (R c × S)} {p : Prog C R α} (h : p.Follows G Q t)
    (hf : ∀ {t c} s, G t c → (f c s).isSome = true) (s : S) : (p.tryRun f s t).isSome = true := by
  induction p generalizing s t with
  | ret a => rfl
  | step c k ih =>
    unfold tryRun
    obtain ⟨answer, hanswer⟩ := Option.isSome_iff_exists.1 (hf s h.1)
    rw [hanswer]
    exact ih answer.1 (h.2 answer.1) answer.2

end Follows

/-! ## What a run inherits -/

namespace Runs

variable {G : Guard C R} {Q : α → Trace C R → Prop} {p : Prog C R α} {a : α}

theorem post (h : p.Runs E env s t a s' t') (hp : p.Follows G Q t) : Q a t' := by
  induction p generalizing s t with
  | ret b =>
    obtain ⟨rfl, rfl, -⟩ := h
    exact hp
  | step c k ih =>
    obtain ⟨s₁, r, s₂, -, -, hk⟩ := h
    exact ih r hk (hp.2 r)

/-- An invariant of the guarded commands and of the environment holds at the return. -/
theorem invariant {J : S → Trace C R → Prop} (h : p.Runs E env s t a s' t')
    (hp : p.Follows G Q t) (ht : Trace.Guarded G t) (h₀ : J s t)
    (hcmd : ∀ {s t c r s'}, Trace.Guarded G t → J s t → G t c → E c s r s' →
      J s' (⟨c, r⟩ :: t))
    (henv : ∀ {s t s'}, J s t → env s s' → J s' t) : J s' t' ∧ Trace.Guarded G t' := by
  induction p generalizing s t with
  | ret b =>
    obtain ⟨-, rfl, he⟩ := h
    exact ⟨henv h₀ he, ht⟩
  | step c k ih =>
    obtain ⟨s₁, r, s₂, he, hc, hk⟩ := h
    exact ih r hk (hp.2 r) ⟨hp.1, ht⟩ (hcmd ht (henv h₀ he) hp.1 hc)

end Runs

end Prog

end Conc
