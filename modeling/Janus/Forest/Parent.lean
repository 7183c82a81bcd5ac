import Mathlib.Logic.Relation
import Mathlib.Data.List.Basic

/-!
# Forests given by parents

`up x` is the parent of `x`. `Above up x y`: `y` is `x` or one of its ancestors. `Rooted`: a relation
without cycles, as `Acyclic` of the parents; a new edge makes none if it does not lead back
(`Rooted.insert`). `climbs` looks for a node above another one, with the nodes seen so far;
`not_above_of_climbs`: with enough rounds it misses none.
-/

set_option autoImplicit false

namespace Forest

variable {α : Type}

section Rooted

variable {r r' : α → α → Prop} {x y d q : α}

/-- No edge leads back to where it starts. -/
def Rooted (r : α → α → Prop) : Prop := ∀ a b, r a b → ¬ Relation.ReflTransGen r b a

theorem Rooted.anti (h : Rooted r) (hsub : ∀ a b, r' a b → r a b) : Rooted r' :=
  fun a b hab hba => h a b (hsub a b hab) (Relation.ReflTransGen.mono hsub b a hba)

/-- What is reached with one more edge is reached without it, or before it and from it on. -/
theorem reached_of_insert (h : Relation.ReflTransGen r' x y)
    (hsub : ∀ a b, r' a b → r a b ∨ (a = d ∧ b = q)) : Relation.ReflTransGen r x y ∨
      (Relation.ReflTransGen r x d ∧ Relation.ReflTransGen r q y) := by
  induction h with
  | refl => exact .inl .refl
  | @tail b c _ hbc ih =>
    rcases hsub b c hbc with hold | ⟨rfl, rfl⟩
    · rcases ih with hxb | ⟨hxd, hqb⟩
      · exact .inl (hxb.tail hold)
      · exact .inr ⟨hxd, hqb.tail hold⟩
    · rcases ih with hxb | ⟨hxd, -⟩
      · exact .inr ⟨hxb, .refl⟩
      · exact .inr ⟨hxd, .refl⟩

/-- An edge that does not lead back makes no cycle. -/
theorem Rooted.insert (h : Rooted r) (hback : ¬ Relation.ReflTransGen r q d)
    (hsub : ∀ a b, r' a b → r a b ∨ (a = d ∧ b = q)) : Rooted r' := by
  intro a b hab hba
  rcases hsub a b hab with hold | ⟨rfl, rfl⟩
  · rcases reached_of_insert hba hsub with hba | ⟨hbd, hqa⟩
    · exact h a b hold hba
    · exact hback ((hqa.tail hold).trans hbd)
  · rcases reached_of_insert hba hsub with hqd | ⟨hqd, -⟩
    · exact hback hqd
    · exact hback hqd

end Rooted

variable {up : α → Option α} {x y : α}

/-- `y` is `x` or an ancestor of `x`. -/
def Above (up : α → Option α) : α → α → Prop :=
  Relation.ReflTransGen fun a b => up a = some b

/-- No node is above its own parent. -/
def Acyclic (up : α → Option α) : Prop := Rooted fun a b => up a = some b

theorem above_iff : Above up x y ↔ x = y ∨ ∃ b, up x = some b ∧ Above up b y :=
  Relation.ReflTransGen.cases_head_iff

/-- A set that has the parents of its members has what is above them. -/
theorem Above.mem {S : α → Prop} (h : Above up x y) (hx : S x)
    (hS : ∀ a b, S a → up a = some b → S b) : S y := by
  induction h with
  | refl => exact hx
  | tail _ hab ih => exact hS _ _ ih hab

/-! ## Looking for an ancestor -/

/-- The nodes seen so far are not the target, and their parents have been seen or come next. -/
def Searched (up : α → Option α) (target : α) (cursor : Option α) (seen : List α) : Prop :=
  ∀ a ∈ seen, a ≠ target ∧ ∀ b, up a = some b → b ∈ seen ∨ cursor = some b

theorem Searched.step {target cursor : α} {seen : List α}
    (h : Searched up target (some cursor) seen) (hne : cursor ≠ target) :
    Searched up target (up cursor) (cursor :: seen) := by
  intro a ha
  rcases List.mem_cons.1 ha with rfl | ha
  · exact ⟨hne, fun b hb => .inr hb⟩
  · refine ⟨(h a ha).1, fun b hb => ?_⟩
    rcases (h a ha).2 b hb with hm | heq
    · exact .inl (List.mem_cons_of_mem _ hm)
    · injection heq with heq
      rw [heq]
      exact .inl List.mem_cons_self

/-- A search that has come to an end has seen all that is above what it saw. -/
theorem Searched.not_above {target : α} {cursor : Option α} {seen : List α}
    (h : Searched up target cursor seen) (hend : ∀ b, cursor = some b → b ∈ seen) (hx : x ∈ seen) :
    ¬ Above up x target := by
  intro habove
  have hmem : target ∈ seen := by
    refine habove.mem (S := fun a => a ∈ seen) hx fun a b ha hb => ?_
    exact ((h a ha).2 b hb).elim id (hend b)
  exact (h target hmem).1 rfl

section Climbs

variable [DecidableEq α]

/-- Whether `target` is met from `cursor` on before a node that was seen or has no parent. -/
def climbs (up : α → Option α) (target : α) : Nat → Option α → List α → Bool
  | 0, _, _ => false
  | _ + 1, none, _ => false
  | n + 1, some cursor, seen =>
    if cursor ∈ seen then false
    else if cursor = target then true
    else climbs up target n (up cursor) (cursor :: seen)

/-- The keys that have not been seen. -/
def unseen (keys seen : List α) : Nat := (keys.filter fun k => decide (k ∉ seen)).length

/-- The rounds that a search needs. -/
def rounds (keys : List α) (cursor : Option α) (seen : List α) : Nat :=
  match cursor with
  | none => 1
  | some _ => unseen keys seen + 2

theorem unseen_cons_lt {keys seen : List α} (hx : x ∈ keys) (hnew : x ∉ seen) :
    unseen keys (x :: seen) < unseen keys seen := by
  have hsub : (keys.filter fun k => decide (k ∉ x :: seen)).Sublist
      (keys.filter fun k => decide (k ∉ seen)) := by
    refine List.monotone_filter_right keys fun k hk => ?_
    simp only [List.mem_cons, not_or, decide_eq_true_eq] at hk ⊢
    exact hk.2
  refine Nat.lt_of_le_of_ne hsub.length_le fun heq => ?_
  have hmem : x ∈ keys.filter fun k => decide (k ∉ seen) := by
    simp [hx, hnew]
  rw [← hsub.eq_of_length heq] at hmem
  simp at hmem

/-- A search with enough rounds finds the target above what it has seen and where it stands. -/
theorem not_above_of_climbs {target : α} {keys : List α} (hkeys : ∀ a b, up a = some b → a ∈ keys)
    {n : Nat} {cursor : Option α} {seen : List α} (h : climbs up target n cursor seen = false)
    (hn : rounds keys cursor seen ≤ n)
    (hs : Searched up target cursor seen) (hx : x ∈ seen ∨ cursor = some x) :
    ¬ Above up x target := by
  induction n generalizing cursor seen with
  | zero =>
    cases cursor with
    | none => simp [rounds] at hn
    | some c => simp [rounds] at hn
  | succ n ih =>
    cases cursor with
    | none => exact hs.not_above nofun (hx.resolve_right nofun)
    | some c =>
      simp only [climbs] at h
      split at h
      · next hseen =>
        refine hs.not_above (fun b hb => ?_) ?_
        · injection hb with hb
          rwa [← hb]
        · rcases hx with hx | heq
          · exact hx
          · injection heq with heq
            rwa [← heq]
      · next hnew =>
        split at h
        · cases h
        · next hne =>
          refine ih h ?_ (hs.step hne) ?_
          · cases hup : up c with
            | none =>
              simp only [rounds] at hn ⊢
              omega
            | some b =>
              have hlt := unseen_cons_lt (hkeys c b hup) hnew
              simp only [rounds] at hn ⊢
              omega
          · left
            rcases hx with hx | heq
            · exact List.mem_cons_of_mem _ hx
            · injection heq with heq
              rw [heq]
              exact List.mem_cons_self

end Climbs

end Forest
