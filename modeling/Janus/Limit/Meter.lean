import Mathlib.Algebra.Order.Field.Basic
import Mathlib.Algebra.BigOperators.Group.List.Basic
import Mathlib.Algebra.Order.BigOperators.Group.List
import Mathlib.Tactic.Linarith
import Mathlib.Tactic.Ring

/-!
# Meters

A meter has a level that is at most `cap` and rises at most at `rate`. What is spent is within the
level, and a credit raises the level by no more than its amount. `Metered` are the runs of a meter;
`Metered.window`: what it spends between two instants is at most its capacity, what flows in
between them, and the credits given between them.
-/

set_option autoImplicit false

namespace Limit

variable {K : Type} [Field K] [LinearOrder K]

inductive Flow (K : Type)
  | spend (amount : K)
  | credit (amount : K)

namespace Flow

def spent : Flow K → K
  | spend a => a
  | credit _ => 0

def credited : Flow K → K
  | spend _ => 0
  | credit a => a

end Flow

/-- The sum of a part of the flows at the instants from `t₁` to `t₂`. -/
def within (part : Flow K → K) (t₁ t₂ : K) (l : List (K × Flow K)) : K :=
  (l.map fun e => if t₁ ≤ e.1 ∧ e.1 ≤ t₂ then part e.2 else 0).sum

/-- The runs of a meter: instant, level, and the flows so far, newest first. -/
inductive Metered (cap rate : K) : K → K → List (K × Flow K) → Prop
  | start {t level : K} : level ≤ cap → Metered cap rate t level []
  | wait {t t' level level' : K} {l : List (K × Flow K)} : Metered cap rate t level l → t ≤ t' →
      level' ≤ level + rate * (t' - t) → level' ≤ cap → Metered cap rate t' level' l
  | spend {t level level' a : K} {l : List (K × Flow K)} : Metered cap rate t level l → 0 ≤ a →
      a ≤ level → level' ≤ level - a → Metered cap rate t level' ((t, .spend a) :: l)
  | credit {t level level' a : K} {l : List (K × Flow K)} : Metered cap rate t level l → 0 ≤ a →
      level' ≤ level + a → level' ≤ cap → Metered cap rate t level' ((t, .credit a) :: l)

section

variable {cap rate t t₁ t₂ level a : K} {l : List (K × Flow K)} {part : Flow K → K} {f : Flow K}

@[simp] theorem within_nil : within part t₁ t₂ [] = 0 := rfl

theorem within_cons_in (h₁ : t₁ ≤ t) (h₂ : t ≤ t₂) :
    within part t₁ t₂ ((t, f) :: l) = part f + within part t₁ t₂ l := by
  simp [within, h₁, h₂]

theorem within_cons_out (h : ¬ (t₁ ≤ t ∧ t ≤ t₂)) :
    within part t₁ t₂ ((t, f) :: l) = within part t₁ t₂ l := by
  simp [within, h]

namespace Metered

/-- Before `t₁` nothing counts. -/
theorem within_eq_zero (h : Metered cap rate t level l) (ht : t < t₁) :
    within part t₁ t₂ l = 0 := by
  induction h with
  | start _ => rfl
  | wait _ htt _ _ ih => exact ih (lt_of_le_of_lt htt ht)
  | spend _ _ _ _ ih =>
    rw [within_cons_out (fun h => absurd h.1 (not_le.2 ht))]
    exact ih ht
  | credit _ _ _ _ ih =>
    rw [within_cons_out (fun h => absurd h.1 (not_le.2 ht))]
    exact ih ht

variable [IsStrictOrderedRing K]

/-- From `t₁` on, what was spent and what is left came from the capacity, the inflow and the
credits; the bound on what was spent is kept when the level falls into debt. -/
theorem balance (hrate : 0 ≤ rate) (h : Metered cap rate t level l) (ht : t₁ ≤ t₂)
    (hcap : 0 ≤ cap) :
    within Flow.spent t₁ t₂ l ≤ cap + rate * (t₂ - t₁) + within Flow.credited t₁ t₂ l ∧
      (t₁ ≤ t → t ≤ t₂ → within Flow.spent t₁ t₂ l + level ≤
        cap + rate * (t - t₁) + within Flow.credited t₁ t₂ l) := by
  have hinflow : 0 ≤ rate * (t₂ - t₁) := mul_nonneg hrate (sub_nonneg.2 ht)
  induction h with
  | @start t level hl =>
    simp only [within_nil, add_zero, zero_add]
    refine ⟨by linarith, fun h₁ _ => ?_⟩
    have := mul_nonneg hrate (sub_nonneg.2 h₁)
    linarith
  | @wait t t' level level' l hm htt hrise hle ih =>
    refine ⟨ih.1, fun h₁ h₂ => ?_⟩
    by_cases hbefore : t < t₁
    · rw [hm.within_eq_zero hbefore, hm.within_eq_zero hbefore]
      have := mul_nonneg hrate (sub_nonneg.2 h₁)
      linarith
    · have hprev := ih.2 (not_lt.1 hbefore) (htt.trans h₂)
      have hsplit : rate * (t' - t₁) = rate * (t - t₁) + rate * (t' - t) := by ring
      linarith
  | @spend t level level' a l hm ha hal hl ih =>
    by_cases hin : t₁ ≤ t ∧ t ≤ t₂
    · rw [within_cons_in hin.1 hin.2, within_cons_in hin.1 hin.2]
      have hprev := ih.2 hin.1 hin.2
      have hmono := mul_le_mul_of_nonneg_left (sub_le_sub_right hin.2 t₁) hrate
      simp only [Flow.spent, Flow.credited]
      exact ⟨by linarith, fun _ _ => by linarith⟩
    · rw [within_cons_out hin, within_cons_out hin]
      exact ⟨ih.1, fun h₁ h₂ => absurd ⟨h₁, h₂⟩ hin⟩
  | @credit t level level' a l hm ha hl hle ih =>
    by_cases hin : t₁ ≤ t ∧ t ≤ t₂
    · rw [within_cons_in hin.1 hin.2, within_cons_in hin.1 hin.2]
      have hprev := ih.2 hin.1 hin.2
      simp only [Flow.spent, Flow.credited]
      exact ⟨by linarith [ih.1], fun _ _ => by linarith⟩
    · rw [within_cons_out hin, within_cons_out hin]
      exact ⟨ih.1, fun h₁ h₂ => absurd ⟨h₁, h₂⟩ hin⟩

/-- The throughput of a meter (module doc). -/
theorem window (h : Metered cap rate t level l) (hrate : 0 ≤ rate) (hcap : 0 ≤ cap) (ht : t₁ ≤ t₂) :
    within Flow.spent t₁ t₂ l ≤ cap + rate * (t₂ - t₁) + within Flow.credited t₁ t₂ l :=
  (balance hrate h ht hcap).1

end Metered

end

end Limit
