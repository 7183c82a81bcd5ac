import Janus.Conc.Pool

/-!
# Timed runs

`Timeline E env s₀ s l`: from `s₀`, commands were issued in some order, each at an instant that is
not before those of the commands before it, and the environment acted between them; `s` is the state
reached and `l` the log of the commands with their instants, newest first. `E t` is the meaning of
a command that is issued at `t`.
-/

set_option autoImplicit false

namespace Conc

inductive Timeline {T C S : Type} {R : C → Type} [LE T] (E : T → Sem C R S) (env : S → S → Prop)
    (s₀ : S) : S → Log T C R → Prop
  | start : Timeline E env s₀ s₀ []
  | cmd {s s' : S} {l : Log T C R} {t : T} {c : C} {r : R c} : Timeline E env s₀ s l →
      (∀ e ∈ l, e.1 ≤ t) → E t c s r s' → Timeline E env s₀ s' ((t, ⟨c, r⟩) :: l)
  | env {s s' : S} {l : Log T C R} : Timeline E env s₀ s l → env s s' → Timeline E env s₀ s' l

namespace Timeline

variable {T C S : Type} {R : C → Type} [LE T] {E : T → Sem C R S} {env : S → S → Prop} {s₀ s : S}
  {l : Log T C R}

/-- An invariant of the commands and of the environment holds in every timed run. -/
theorem invariant {J : S → Log T C R → Prop} (h : Timeline E env s₀ s l) (hinit : J s₀ [])
    (hcmd : ∀ {s s' l t c r}, J s l → (∀ e ∈ l, e.1 ≤ t) → E t c s r s' → J s' ((t, ⟨c, r⟩) :: l))
    (henv : ∀ {s s' l}, J s l → env s s' → J s' l) : J s l := by
  induction h with
  | start => exact hinit
  | cmd _ ht hE ih => exact hcmd ih ht hE
  | env _ he ih => exact henv ih he

end Timeline

end Conc
