import Mathlib.Algebra.Order.Group.Defs
import Mathlib.Algebra.Order.Group.Basic
import Mathlib.Data.List.Basic
import Mathlib.Tactic.Abel

/-!
# Sliding windows

`Windowed stamp w limit l`: the elements of `l`, newest first, were admitted one after the other,
each when fewer than `limit` of those still standing had a stamp in the window of width `w` that
ends at its own; any of them may have been withdrawn since. `Windowed.count_le`: no window of width
`w`, wherever it ends, holds more than `limit` of them.
-/

set_option autoImplicit false

namespace Limit

variable {α T : Type} [AddCommGroup T] [LinearOrder T]

inductive Windowed (stamp : α → T) (w : T) (limit : Nat) : List α → Prop
  | nil : Windowed stamp w limit []
  | enter {a : α} {l : List α} : Windowed stamp w limit l → (∀ b ∈ l, stamp b ≤ stamp a) →
      l.countP (fun b => stamp a - w < stamp b) < limit → Windowed stamp w limit (a :: l)
  | withdraw {l l' : List α} : Windowed stamp w limit l → l'.Sublist l → Windowed stamp w limit l'

variable [IsOrderedAddMonoid T] {stamp : α → T} {w : T} {limit : Nat} {l : List α}

theorem Windowed.count_le (h : Windowed stamp w limit l) (t : T) :
    l.countP (fun b => t - w < stamp b ∧ stamp b ≤ t) ≤ limit := by
  induction h with
  | nil => exact Nat.zero_le _
  | @enter a l _ hold hroom ih =>
    by_cases hin : t - w < stamp a ∧ stamp a ≤ t
    · -- everything in the window at `t` was in the window of `a`
      have hsub : l.countP (fun b => t - w < stamp b ∧ stamp b ≤ t) ≤
          l.countP (fun b => stamp a - w < stamp b) := by
        refine List.countP_mono_left fun b _ hb => ?_
        simp only [decide_eq_true_eq] at hb ⊢
        exact lt_of_le_of_lt (sub_le_sub_right hin.2 w) hb.1
      rw [List.countP_cons_of_pos (by simpa using hin)]
      omega
    · rw [List.countP_cons_of_neg (by simpa using hin)]
      exact ih
  | withdraw _ hsub ih => exact le_trans hsub.countP_le ih

end Limit
