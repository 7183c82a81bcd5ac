import Mathlib.Data.Set.Basic

/-!
# What users may do through roles

Users hold roles, and a role confers codes. A user's effective codes are those of the roles that it
holds (`Grants.effective`).

* `Bounded P g g'`: from `g` to `g'` no user `u` gains a code outside `P u`. `bounded_of` gets it from
  what happens to the single roles.
* `effective_congr`: codes depend on the roles that are held and on what these confer.
-/

set_option autoImplicit false

namespace Access

structure Grants (U R C : Type) where
  holds : U → R → Prop
  confers : R → Set C

namespace Grants

variable {U R C : Type} {g g' : Grants U R C} {P : U → Set C}

def effective (g : Grants U R C) (u : U) : Set C := {c | ∃ r, g.holds u r ∧ c ∈ g.confers r}

theorem mem_effective {u : U} {c : C} :
    c ∈ g.effective u ↔ ∃ r, g.holds u r ∧ c ∈ g.confers r := Iff.rfl

/-- No user gains a code that it is not allowed to gain. -/
def Bounded (P : U → Set C) (g g' : Grants U R C) : Prop :=
  ∀ u, g'.effective u ⊆ g.effective u ∪ P u

theorem Bounded.refl : Bounded P g g := fun _ => Set.subset_union_left

/-- A role that is held before and after confers nothing new outside `P`, and one with a new holder
confers nothing outside `P` at all. -/
theorem bounded_of (h : ∀ u r, g'.holds u r →
    g.holds u r ∧ g'.confers r ⊆ g.confers r ∪ P u ∨ g'.confers r ⊆ P u) : Bounded P g g' := by
  rintro u c ⟨r, hr, hc⟩
  rcases h u r hr with ⟨hold, hkept⟩ | hnew
  · rcases hkept hc with hc | hc
    · exact .inl ⟨r, hold, hc⟩
    · exact .inr hc
  · exact .inr (hnew hc)

/-- Fewer holders and fewer codes. -/
theorem bounded_of_le (hholds : ∀ u r, g'.holds u r → g.holds u r)
    (hconfers : ∀ r, g'.confers r ⊆ g.confers r) : Bounded P g g' :=
  bounded_of fun u r hr => .inl ⟨hholds u r hr, (hconfers r).trans Set.subset_union_left⟩

/-- Equal codes from equal roles that confer the same. -/
theorem effective_congr {u : U} (hholds : ∀ r, g'.holds u r ↔ g.holds u r)
    (hconfers : ∀ r, g.holds u r → g'.confers r = g.confers r) :
    g'.effective u = g.effective u := by
  ext c
  rw [mem_effective, mem_effective]
  refine exists_congr fun r => ?_
  rw [hholds r]
  constructor
  · rintro ⟨hr, hc⟩
    rw [hconfers r hr] at hc
    exact ⟨hr, hc⟩
  · rintro ⟨hr, hc⟩
    rw [← hconfers r hr] at hc
    exact ⟨hr, hc⟩

end Grants

end Access
