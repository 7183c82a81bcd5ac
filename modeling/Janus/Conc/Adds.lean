import Mathlib.Algebra.Group.Defs
import Janus.Conc.Raising

/-!
# Measures of a trace

`p.Adds G μ d O`: whatever was done before, `p` issues only what the guard allows, adds `d` to the
measure `μ` of the trace, and ends as `O` says. There is one rule for each way to build a program;
in a sequence and in a handler the measures add up.
-/

set_option autoImplicit false

namespace Conc.Raising

variable {C : Type} {R : C → Type} {ε α β M : Type} [AddMonoid M]

def Adds (G : Guard C R) (μ : Trace C R → M) (d : M) (O : Except ε α → Prop)
    (p : Raising C R ε α) : Prop :=
  ∀ t, Follows G (fun outcome t' => O outcome ∧ μ t' = μ t + d) p t

namespace Adds

variable {G : Guard C R} {μ : Trace C R → M} {d d' : M} {O P : Except ε α → Prop}

theorem pure {a : α} (h : O (.ok a)) : Adds G μ 0 O (Pure.pure a : Raising C R ε α) :=
  fun _ => Follows.pure ⟨h, (add_zero _).symm⟩

theorem throw {e : ε} (h : O (.error e)) : Adds G μ 0 O (MonadExcept.throw e : Raising C R ε α) :=
  fun _ => Follows.throw ⟨h, (add_zero _).symm⟩

theorem cmd {c : C} {O : Except ε (R c) → Prop} (hG : ∀ t, G t c)
    (hμ : ∀ t r, μ (⟨c, r⟩ :: t) = μ t + d) (h : ∀ r, O (.ok r)) : Adds G μ d O (Raising.cmd c) :=
  fun t => Follows.cmd (hG t) fun r => ⟨h r, hμ t r⟩

theorem mono {p : Raising C R ε α} (h : Adds G μ d P p) (hPO : ∀ outcome, P outcome → O outcome) :
    Adds G μ d O p :=
  fun t => (h t).mono fun _ _ hr => ⟨hPO _ hr.1, hr.2⟩

/-- A part, and the rest: where the part can raise, the rest adds nothing. -/
theorem bind {p : Raising C R ε α} {f : α → Raising C R ε β} {O : Except ε β → Prop}
    (hp : Adds G μ d P p) (herror : ∀ e, P (.error e) → O (.error e) ∧ d' = 0)
    (hf : ∀ a, P (.ok a) → Adds G μ d' O (f a)) : Adds G μ (d + d') O (p >>= f) := by
  refine fun t => Follows.bind (hp t) (fun a t' h => ?_) (fun e t' h => ?_)
  · refine (hf a h.1 t').mono fun outcome t'' h' => ⟨h'.1, ?_⟩
    rw [h'.2, h.2, add_assoc]
  · obtain ⟨hO, rfl⟩ := herror e h.1
    exact ⟨hO, by rw [h.2, add_zero]⟩

/-- A part that adds nothing, and the rest. -/
theorem skip {p : Raising C R ε α} {f : α → Raising C R ε β} {O : Except ε β → Prop}
    (hp : Adds G μ 0 P p) (herror : ∀ e, P (.error e) → O (.error e) ∧ d = 0)
    (hf : ∀ a, P (.ok a) → Adds G μ d O (f a)) : Adds G μ d O (p >>= f) :=
  zero_add d ▸ bind hp herror hf

/-- A part, and the rest adds nothing. -/
theorem last {p : Raising C R ε α} {f : α → Raising C R ε β} {O : Except ε β → Prop}
    (hp : Adds G μ d P p) (herror : ∀ e, P (.error e) → O (.error e))
    (hf : ∀ a, P (.ok a) → Adds G μ 0 O (f a)) : Adds G μ d O (p >>= f) :=
  add_zero d ▸ bind hp (fun e h => ⟨herror e h, rfl⟩) hf

/-- A body and its handler: where the body can return, the handler adds nothing. -/
theorem tryCatch {p : Raising C R ε α} {handler : ε → Raising C R ε α} (hp : Adds G μ d P p)
    (hok : ∀ a, P (.ok a) → O (.ok a) ∧ d' = 0)
    (herror : ∀ e, P (.error e) → Adds G μ d' O (handler e)) :
    Adds G μ (d + d') O (MonadExcept.tryCatch p handler) := by
  refine fun t => Follows.tryCatch (hp t) (fun a t' h => ?_) (fun e t' h => ?_)
  · obtain ⟨hO, rfl⟩ := hok a h.1
    exact ⟨hO, by rw [h.2, add_zero]⟩
  · refine (herror e h.1 t').mono fun outcome t'' h' => ⟨h'.1, ?_⟩
    rw [h'.2, h.2, add_assoc]

end Adds

end Conc.Raising
