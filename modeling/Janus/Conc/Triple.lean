import Janus.Conc.Raising

/-!
# Triples

`Prog.Triple E env P p Q`: every run of `p` from a state where `P` holds ends in one where `Q` holds
of its result. The environment acts between the commands, so the assertions between them are stable
under it. `Raising.Triple` is the same judgement over both ways a program that may raise ends.
-/

set_option autoImplicit false

namespace Conc

variable {C : Type} {R : C → Type} {S α β ε : Type}

namespace Prog

def Triple (E : Sem C R S) (env : S → S → Prop) (P : S → Prop) (p : Prog C R α)
    (Q : α → S → Prop) : Prop :=
  ∀ ⦃s t a s' t'⦄, P s → p.Runs E env s t a s' t' → Q a s'

variable {E : Sem C R S} {env : S → S → Prop} {P P' : S → Prop}

/-- The environment keeps an assertion. -/
def Stable (env : S → S → Prop) (P : S → Prop) : Prop := ∀ ⦃s s'⦄, P s → env s s' → P s'

namespace Triple

theorem ret {a : α} {Q : α → S → Prop} (hQ : Stable env (Q a)) :
    Triple E env (Q a) (Prog.ret a) Q := by
  intro s t b s' t' h hr
  obtain ⟨rfl, -, he⟩ := hr
  exact hQ h he

theorem step {c : C} {k : R c → Prog C R α} {M : R c → S → Prop} {Q : α → S → Prop}
    (hP : Stable env P) (hc : ∀ s r s', P s → E c s r s' → M r s')
    (hk : ∀ r, Triple E env (M r) (k r) Q) : Triple E env P (Prog.step c k) Q := by
  intro s t a s' t' h hr
  obtain ⟨s₁, r, s₂, he, hE, hk'⟩ := hr
  exact hk r (hc _ _ _ (hP h he) hE) hk'

theorem bind {p : Prog C R α} {f : α → Prog C R β} {M : α → S → Prop} {Q : β → S → Prop}
    (hrefl : ∀ s, env s s) (hp : Triple E env P p M) (hf : ∀ a, Triple E env (M a) (f a) Q) :
    Triple E env P (p >>= f) Q := by
  intro s t b s' t' h hr
  obtain ⟨a, s₁, t₁, h₁, h₂⟩ := Runs.of_bind hrefl hr
  exact hf a (hp h h₁) h₂

theorem pre {p : Prog C R α} {Q : α → S → Prop} (h : Triple E env P p Q) (hP : ∀ s, P' s → P s) :
    Triple E env P' p Q := fun _ _ _ _ _ hs hr => h (hP _ hs) hr

theorem post {p : Prog C R α} {Q Q' : α → S → Prop} (h : Triple E env P p Q)
    (hQ : ∀ a s, Q a s → Q' a s) : Triple E env P p Q' :=
  fun _ _ _ _ _ hs hr => hQ _ _ (h hs hr)

/-- A loop with an accumulator keeps an invariant of its remaining list. -/
theorem foldlM {γ : Type} {l : List γ} {body : β → γ → Prog C R β} {b : β}
    {I : List γ → β → S → Prop} (hrefl : ∀ s, env s s) (hI : ∀ b, Stable env (I [] b))
    (hbody : ∀ x xs b, Triple E env (I (x :: xs) b) (body b x) (I xs)) :
    Triple E env (I l b) (l.foldlM body b) (I []) := by
  induction l generalizing b with
  | nil => exact ret (hI b)
  | cons x xs ih =>
    rw [List.foldlM_cons]
    exact bind hrefl (hbody x xs b) fun _ => ih

end Triple

/-! ## A run over its own trace -/

/-- The answers are allowed ones, and the state is the trace. -/
def Traced (A : (c : C) → R c → Prop) : Sem C R (Trace C R) :=
  fun c t r t' => A c r ∧ t' = ⟨c, r⟩ :: t

theorem stable_eq {P : S → Prop} : Stable Eq P := fun _ _ h he => he ▸ h

/-- A run extends its trace. -/
theorem Runs.suffix {p : Prog C R α} {s s' : S} {t t' : Trace C R} {a : α}
    (h : p.Runs E env s t a s' t') : t <:+ t' := by
  induction p generalizing s t with
  | ret b => exact h.2.1 ▸ List.suffix_refl _
  | step c k ih =>
    obtain ⟨s₁, r, s₂, -, -, hk⟩ := h
    exact (List.suffix_cons _ _).trans (ih r hk)

/-- To its own trace, a run in any environment is a run of its own. -/
theorem Runs.traced {A : (c : C) → R c → Prop} {p : Prog C R α} {s s' : S} {t t' : Trace C R} {a : α}
    (h : p.Runs E env s t a s' t') (hA : ∀ e ∈ t', A e.cmd e.resp) :
    p.Runs (Traced A) Eq t t a t' t' := by
  induction p generalizing s t with
  | ret b => exact ⟨h.1, h.2.1, h.2.1.symm⟩
  | step c k ih =>
    obtain ⟨s₁, r, s₂, -, -, hk⟩ := h
    have hr : A c r := hA ⟨c, r⟩ (hk.suffix.subset List.mem_cons_self)
    exact ⟨t, r, ⟨c, r⟩ :: t, rfl, ⟨hr, rfl⟩, ih r hk⟩

/-! ## Programs of few commands -/

/-- Every command of the program is one of `I`, and its result one of `O`. -/
def Issues (I : C → Prop) (O : α → Prop) : Prog C R α → Prop
  | ret a => O a
  | step c k => I c ∧ ∀ r, Issues I O (k r)

namespace Issues

variable {I : C → Prop} {O : α → Prop}

theorem bind {p : Prog C R α} {f : α → Prog C R β} {O' : β → Prop} (hp : p.Issues I O)
    (hf : ∀ a, O a → (f a).Issues I O') : (p >>= f).Issues I O' := by
  induction p with
  | ret a => exact hf a hp
  | step c k ih => exact ⟨hp.1, fun r => ih r (hp.2 r)⟩

theorem weaken {I' : C → Prop} {p : Prog C R α} (hp : p.Issues I O) (hI : ∀ c, I c → I' c) :
    p.Issues I' O := by
  induction p with
  | ret a => exact hp
  | step c k ih => exact ⟨hI c hp.1, fun r => ih r (hp.2 r)⟩

theorem cmd_bind {c : C} {f : R c → Prog C R β} {O : β → Prop} :
    (cmd c >>= f).Issues I O ↔ I c ∧ ∀ r, (f r).Issues I O := Iff.rfl

/-- A loop with an accumulator. -/
theorem foldlM {γ : Type} {l : List γ} {body : β → γ → Prog C R β} {b : β} {O : β → Prop} (hb : O b)
    (hbody : ∀ x ∈ l, ∀ b, O b → (body b x).Issues I O) : (l.foldlM body b).Issues I O := by
  induction l generalizing b with
  | nil => exact hb
  | cons x xs ih =>
    rw [List.foldlM_cons]
    exact bind (hbody x List.mem_cons_self b hb) fun b' hb' =>
      ih hb' fun y hy => hbody y (List.mem_cons_of_mem _ hy)

/-- A loop that collects the results of its rounds. -/
theorem mapM {γ : Type} {l : List γ} {body : γ → Prog C R β} {K : γ → β → Prop}
    (hbody : ∀ x ∈ l, (body x).Issues I (K x)) : (l.mapM body).Issues I (List.Forall₂ K l) := by
  induction l with
  | nil => exact .nil
  | cons x xs ih =>
    rw [List.mapM_cons]
    refine bind (hbody x List.mem_cons_self) fun y hy => ?_
    refine bind (ih fun x hx => hbody x (List.mem_cons_of_mem _ hx)) fun ys hys => ?_
    exact .cons hy hys

theorem follows {p : Prog C R α} (hp : p.Issues I O) (t : Trace C R) :
    p.Follows (fun _ c => I c) (fun a _ => O a) t := by
  induction p generalizing t with
  | ret a => exact hp
  | step c k ih => exact ⟨hp.1, fun r => ih r (hp.2 r) _⟩

/-- An assertion that every command and the environment keep holds after the program. -/
theorem triple {p : Prog C R α} (hp : p.Issues I O) (hP : Stable env P)
    (hc : ∀ c s r s', I c → P s → E c s r s' → P s') : Triple E env P p fun _ s => P s := by
  induction p with
  | ret a => exact Triple.ret (Q := fun _ => P) hP
  | step c k ih =>
    exact Triple.step hP (fun s r s' hs hr => hc c s r s' hp.1 hs hr) fun r => ih r (hp.2 r)

end Issues

end Prog

namespace Raising

open Prog (Stable)

/-- Every command of the program is one of `I`, and it ends as `O` says. -/
def Issues (I : C → Prop) (O : Except ε α → Prop) (p : Raising C R ε α) : Prop :=
  Prog.Issues I O p.run

namespace Issues

variable {I : C → Prop} {O : Except ε α → Prop}

theorem pure {a : α} (h : O (.ok a)) : Issues I O (Pure.pure a : Raising C R ε α) := h

theorem throw {e : ε} (h : O (.error e)) : Issues I O (MonadExcept.throw e : Raising C R ε α) := h

theorem cmd {c : C} {O : Except ε (R c) → Prop} (hc : I c) (h : ∀ r, O (.ok r)) :
    Issues I O (Raising.cmd c) := ⟨hc, h⟩

theorem bind {p : Raising C R ε α} {f : α → Raising C R ε β} {O' : Except ε β → Prop}
    (hp : Issues I O p) (hf : ∀ a, O (.ok a) → Issues I O' (f a))
    (he : ∀ e, O (.error e) → O' (.error e)) : Issues I O' (p >>= f) :=
  Prog.Issues.bind hp fun outcome h =>
    match outcome, h with
    | .ok a, h => hf a h
    | .error e, h => he e h

theorem tryCatch {p : Raising C R ε α} {handler : ε → Raising C R ε α} {O' : Except ε α → Prop}
    (hp : Issues I O p) (hok : ∀ a, O (.ok a) → O' (.ok a))
    (he : ∀ e, O (.error e) → Issues I O' (handler e)) :
    Issues I O' (MonadExcept.tryCatch p handler) :=
  Prog.Issues.bind hp fun outcome h =>
    match outcome, h with
    | .ok a, h => hok a h
    | .error e, h => he e h

theorem forM {γ : Type} {l : List γ} {body : γ → Raising C R ε PUnit}
    (hbody : ∀ x ∈ l, Issues I (fun _ => True) (body x)) : Issues I (fun _ => True) (forM l body) := by
  induction l with
  | nil => exact trivial
  | cons x xs ih =>
    rw [List.forM_cons]
    exact bind (hbody x List.mem_cons_self) (fun _ _ => ih fun y hy => hbody y (List.mem_cons_of_mem _ hy))
      fun _ _ => trivial

/-- A loop with an accumulator that every round keeps, as long as none raises. -/
theorem foldlM {γ : Type} {l : List γ} {body : β → γ → Raising C R ε β} {b : β}
    {O : Except ε β → Prop} (hb : O (.ok b))
    (hbody : ∀ x ∈ l, ∀ b, O (.ok b) → Issues I O (body b x)) : Issues I O (l.foldlM body b) := by
  induction l generalizing b with
  | nil => exact hb
  | cons x xs ih =>
    rw [List.foldlM_cons]
    exact bind (hbody x List.mem_cons_self b hb)
      (fun b' hb' => ih hb' fun y hy => hbody y (List.mem_cons_of_mem _ hy)) fun _ h => h

end Issues

/-- What holds after a return, and what after an exception. -/
def Ends (Q : α → S → Prop) (X : ε → S → Prop) : Except ε α → S → Prop
  | .ok a => Q a
  | .error e => X e

def Triple (E : Sem C R S) (env : S → S → Prop) (P : S → Prop) (p : Raising C R ε α)
    (Q : Except ε α → S → Prop) : Prop := Prog.Triple E env P p.run Q

namespace Triple

variable {E : Sem C R S} {env : S → S → Prop} {P : S → Prop}

theorem pure {a : α} {Q : Except ε α → S → Prop} (hQ : Stable env (Q (.ok a))) :
    Triple E env (Q (.ok a)) (Pure.pure a : Raising C R ε α) Q := Prog.Triple.ret hQ

theorem throw {e : ε} {Q : Except ε α → S → Prop} (hQ : Stable env (Q (.error e))) :
    Triple E env (Q (.error e)) (MonadExcept.throw e : Raising C R ε α) Q := Prog.Triple.ret hQ

theorem bind {p : Raising C R ε α} {f : α → Raising C R ε β} {M : Except ε α → S → Prop}
    {Q : Except ε β → S → Prop} (hrefl : ∀ s, env s s) (hp : Triple E env P p M)
    (hf : ∀ a, Triple E env (M (.ok a)) (f a) Q)
    (he : ∀ e s, M (.error e) s → Q (.error e) s) (hstable : ∀ e, Stable env (Q (.error e))) :
    Triple E env P (p >>= f) Q := by
  refine Prog.Triple.bind hrefl hp fun outcome => ?_
  cases outcome with
  | ok a => exact hf a
  | error e =>
    exact Prog.Triple.pre (Prog.Triple.ret (Q := Q) (hstable e)) (he e)

/-- A loop keeps an invariant of the remaining list; an exception ends it. -/
theorem forM {γ : Type} {l : List γ} {body : γ → Raising C R ε PUnit} {I : List γ → S → Prop}
    {X : ε → S → Prop} (hrefl : ∀ s, env s s) (hI : Stable env (I []))
    (hX : ∀ e, Stable env (X e))
    (hbody : ∀ x xs, Triple E env (I (x :: xs)) (body x) (Ends (fun _ => I xs) X)) :
    Triple E env (I l) (forM l body) (Ends (fun _ => I []) X) := by
  induction l with
  | nil => exact pure (Q := Ends (fun _ => I []) X) hI
  | cons x xs ih =>
    rw [List.forM_cons]
    exact bind hrefl (hbody x xs) (fun _ => ih) (fun _ _ h => h) hX

/-- A loop with an accumulator. -/
theorem foldlM {γ : Type} {l : List γ} {body : β → γ → Raising C R ε β} {b : β}
    {I : List γ → β → S → Prop} {X : ε → S → Prop} (hrefl : ∀ s, env s s)
    (hI : ∀ b, Stable env (I [] b)) (hX : ∀ e, Stable env (X e))
    (hbody : ∀ x xs b, Triple E env (I (x :: xs) b) (body b x) (Ends (I xs) X)) :
    Triple E env (I l b) (l.foldlM body b) (Ends (I []) X) := by
  induction l generalizing b with
  | nil => exact pure (Q := Ends (I []) X) (hI b)
  | cons x xs ih =>
    rw [List.foldlM_cons]
    exact bind hrefl (hbody x xs b) (fun _ => ih) (fun _ _ h => h) hX

end Triple

end Raising

end Conc
