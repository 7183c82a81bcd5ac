import Janus.Admin.Menus

/-!
# The walk from a new parent

`_validate_parent` follows the parents of existing menus without remembering them.

* `meets_above`: what a walk that has ended says.
* `meets_isSome`: a walk ends if it comes to the menu or to a root.
* `meets_enough`: the rounds of the model suffice for every walk that ends, so `Failure.hangs` is a
  walk that does not end (`validateParent_hangs`).
* `validateParent_exact_iff`: when the check ends and is exact.
-/

set_option autoImplicit false

namespace Rbac

open Janus Sql Forest

namespace Database

variable {db : Database} {c p q : MenuId} {row : Menu} {b : Bool} {n : Nat}

/-- The parent of an existing menu. -/
def parentMenu (db : Database) (m : MenuId) : Option MenuId := (db.menu m).bind Menu.parentId

theorem parentMenu_eq (h : db.menu p = some row) : db.parentMenu p = row.parentId := by
  simp [parentMenu, h]

theorem above_absent {x y : MenuId} (h : db.menu x = none) : Above db.parentMenu x y ↔ x = y := by
  rw [above_iff]
  simp [parentMenu, h]

/-! ## The answer of a walk -/

theorem meets_above (h : db.meets c n row = some b) :
    b = true ↔ ∃ q, row.parentId = some q ∧ Above db.parentMenu q c := by
  induction n generalizing row with
  | zero => cases h
  | succ n ih =>
    simp only [meets] at h
    split at h
    · next hroot =>
      cases h
      simp [hroot]
    · next q hq =>
      rw [hq]
      simp only [Option.some.injEq, exists_eq_left']
      split at h
      · next hqc =>
        cases h
        subst hqc
        simp only [true_iff]
        exact Relation.ReflTransGen.refl
      · next hqc =>
        split at h
        · next habsent =>
          cases h
          rw [above_absent habsent]
          simpa using hqc
        · next next hnext =>
          rw [ih h, above_iff, parentMenu_eq hnext, or_iff_right hqc]

/-! ## The end of a walk -/

/-- A round is the last one, or it passes on to the parent. -/
theorem meets_round (db : Database) (c : MenuId) (row : Menu) :
    (∃ b, ∀ n, db.meets c (n + 1) row = some b) ∨ ∃ q next, row.parentId = some q ∧ q ≠ c ∧
      db.menu q = some next ∧ ∀ n, db.meets c (n + 1) row = db.meets c n next := by
  cases hq : row.parentId with
  | none => exact .inl ⟨false, fun n => by simp [meets, hq]⟩
  | some q =>
    by_cases hqc : q = c
    · exact .inl ⟨true, fun n => by simp [meets, hq, hqc]⟩
    · cases hnext : db.menu q with
      | none => exact .inl ⟨false, fun n => by simp [meets, hq, hqc, hnext]⟩
      | some next => exact .inr ⟨q, next, rfl, hqc, hnext, fun n => by simp [meets, hq, hqc, hnext]⟩

theorem meets_succ (h : db.meets c n row = some b) : db.meets c (n + 1) row = some b := by
  induction n generalizing row with
  | zero => cases h
  | succ n ih =>
    rcases meets_round db c row with ⟨b', hlast⟩ | ⟨q, next, -, -, -, hround⟩
    · rw [hlast] at h ⊢
      exact h
    · rw [hround] at h ⊢
      exact ih h

theorem meets_mono {m : Nat} (h : db.meets c n row = some b) (hle : n ≤ m) :
    db.meets c m row = some b := by
  induction m, hle using Nat.le_induction with
  | base => exact h
  | succ m _ ih => exact meets_succ ih

/-- A walk that comes to the menu or to a root ends. -/
theorem meets_isSome {x : MenuId} (habove : Above db.parentMenu p x)
    (hx : x = c ∨ db.parentMenu x = none) (hp : db.menu p = some row) (hpc : p ≠ c) :
    ∃ n, (db.meets c n row).isSome = true := by
  induction habove using Relation.ReflTransGen.head_induction_on generalizing row with
  | refl =>
    have hroot : row.parentId = none := (parentMenu_eq hp).symm.trans (hx.resolve_left hpc)
    exact ⟨1, by simp [meets, hroot]⟩
  | @head p q hq _ ih =>
    rw [parentMenu_eq hp] at hq
    by_cases hqc : q = c
    · exact ⟨1, by simp [meets, hq, hqc]⟩
    · cases hnext : db.menu q with
      | none => exact ⟨1, by simp [meets, hq, hqc, hnext]⟩
      | some next =>
        obtain ⟨n, hn⟩ := ih hnext hqc
        exact ⟨n + 1, by simpa [meets, hq, hqc, hnext] using hn⟩

/-- A walk that ends has come to the menu or to a root. -/
theorem above_of_meets (h : (db.meets c n row).isSome = true) (hp : db.menu p = some row) :
    ∃ x, Above db.parentMenu p x ∧ (x = c ∨ db.parentMenu x = none) := by
  induction n generalizing p row with
  | zero => cases h
  | succ n ih =>
    cases hq : row.parentId with
    | none => exact ⟨p, .refl, .inr ((parentMenu_eq hp).trans hq)⟩
    | some q =>
      have hedge : db.parentMenu p = some q := (parentMenu_eq hp).trans hq
      by_cases hqc : q = c
      · exact ⟨q, .single hedge, .inl hqc⟩
      · cases hnext : db.menu q with
        | none => exact ⟨q, .single hedge, .inr (by simp [parentMenu, hnext])⟩
        | some next =>
          simp only [meets, hq, if_neg hqc, hnext] at h
          obtain ⟨x, habove, hx⟩ := ih h hnext
          exact ⟨x, .head hedge habove, hx⟩

/-! ## Enough rounds -/

theorem unseen_lt {seen : Finset MenuId} (hp : db.menu p = some row) (hseen : p ∉ seen) :
    (db.menus.keys \ insert p seen).card < (db.menus.keys \ seen).card := by
  have hkey : p ∈ db.menus.keys := by
    obtain ⟨hlookup, -⟩ := Option.filter_eq_some_iff.1 hp
    exact Finmap.mem_keys.2 (Finmap.mem_iff.2 ⟨_, hlookup⟩)
  rw [Finset.sdiff_insert]
  exact Finset.card_erase_lt_of_mem (Finset.mem_sdiff.2 ⟨hkey, hseen⟩)

/-- The walk passes a menu only once: those passed before need more rounds than are left. -/
theorem meets_unseen {seen : Finset MenuId} (h : db.meets c (n + 1) row = some b)
    (hleast : db.meets c n row = none) (hp : db.menu p = some row)
    (hseen : ∀ a ∈ seen, ∀ ra, db.menu a = some ra → db.meets c (n + 1) ra = none) :
    db.meets c (db.menus.keys \ seen).card row = some b := by
  have hnew {n : Nat} {p : MenuId} {row : Menu} {seen : Finset MenuId}
      (h : db.meets c n row = some b) (hp : db.menu p = some row)
      (hseen : ∀ a ∈ seen, ∀ ra, db.menu a = some ra → db.meets c n ra = none) : p ∉ seen := by
    intro hps
    rw [hseen p hps row hp] at h
    cases h
  induction n generalizing p row seen with
  | zero =>
    have hlt := unseen_lt hp (hnew h hp hseen)
    exact meets_mono h (by omega)
  | succ n ih =>
    have hlt := unseen_lt hp (hnew h hp hseen)
    obtain ⟨k, hk⟩ := Nat.exists_eq_add_of_lt hlt
    rcases meets_round db c row with ⟨b', hlast⟩ | ⟨q, next, -, -, hnext, hround⟩
    · rw [hlast] at hleast
      cases hleast
    · have hrest : db.meets c (db.menus.keys \ insert p seen).card next = some b := by
        refine ih ((hround _).symm.trans h) ((hround _).symm.trans hleast) hnext fun a ha ra hra => ?_
        rcases Finset.mem_insert.1 ha with rfl | ha
        · rw [hp] at hra
          cases hra
          exact hleast
        · cases hpast : db.meets c (n + 1) ra with
          | none => rfl
          | some b' =>
            have hnone := hseen a ha ra hra
            rw [meets_succ hpast] at hnone
            cases hnone
      rw [hk, hround]
      exact meets_mono hrest (Nat.le_add_right _ _)

/-- A walk that ends does so in as many rounds as there are menus. -/
theorem meets_enough (h : db.meets c n row = some b) (hp : db.menu p = some row) :
    db.meets c (db.menus.keys.card + 1) row = some b := by
  obtain ⟨m, b', hm, hleast⟩ : ∃ m b', db.meets c (m + 1) row = some b' ∧ db.meets c m row = none := by
    induction n with
    | zero => cases h
    | succ n ih =>
      cases hn : db.meets c n row with
      | none => exact ⟨n, b, h, hn⟩
      | some b' =>
        have heq := (meets_succ hn).symm.trans h
        exact ih (hn.trans heq)
  have hseen := meets_unseen hm hleast hp fun a (ha : a ∈ (∅ : Finset MenuId)) => by simp at ha
  rw [Finset.sdiff_empty] at hseen
  have hle := meets_succ hseen
  cases Nat.le_total n (db.menus.keys.card + 1) with
  | inl hn => exact meets_mono h hn
  | inr hn => exact hle.trans ((meets_mono hle hn).symm.trans h)

end Database

/-! ## The check -/

section

variable {u : UnitOfWork} {c p : MenuId} {row : Menu}

/-- What the check says of a parent that exists. -/
theorem validateParent_run (hp : u.db.menu p = some row) (hpc : p ≠ c) :
    (validateParent (some p) (some c)).run u =
      match u.db.meets c (u.db.menus.keys.card + 1) row with
      | none => .error .hangs
      | some true => .error (requestInvalid 400)
      | some false => .ok ((), u) := by
  have hne : (some c : Option MenuId) ≠ some p := fun h => hpc (Option.some.inj h).symm
  have hself : (Work.require ((some c : Option MenuId) ≠ some p) (requestInvalid 400) :
      Service Unit).run u = .ok ((), u) := Work.run_require.trans (if_pos hne)
  have hfound : (Work.requireSome (u.db.menu p) (requestInvalid 400) : Service Menu).run u =
      .ok (row, u) := by rw [Work.run_requireSome, hp]
  unfold validateParent
  rw [Work.run_bind_ok hself, Work.run_bind_ok (run_query _), Work.run_bind_ok hfound]
  unfold requireNotAbove
  rw [Work.run_bind_ok (run_query _)]
  cases hmet : u.db.meets c (u.db.menus.keys.card + 1) row with
  | none => exact Work.run_bind_error rfl
  | some met => cases met <;> rfl

theorem validateParent_self : (validateParent (some p) (some p)).run u =
    .error (requestInvalid 400) := by
  unfold validateParent
  refine Work.run_bind_error (Work.run_require.trans (if_neg ?_))
  simp

/-- The model gives up on a walk if and only if the walk does not end. -/
theorem validateParent_hangs (hp : u.db.menu p = some row) :
    (validateParent (some p) (some c)).run u = .error .hangs ↔
      p ≠ c ∧ ∀ n, u.db.meets c n row = none := by
  by_cases hpc : p = c
  · subst hpc
    rw [validateParent_self]
    simp [requestInvalid]
  · rw [validateParent_run hp hpc]
    constructor
    · intro h
      refine ⟨hpc, fun n => ?_⟩
      cases hn : u.db.meets c n row with
      | none => rfl
      | some b =>
        rw [Database.meets_enough hn hp] at h
        cases b <;> cases h
    · rintro ⟨-, hnever⟩
      rw [hnever]

/-- The check ends, and it rejects a parent that is the menu or below it. -/
def ChecksExactly (u : UnitOfWork) (c p : MenuId) : Prop :=
  (validateParent (some p) (some c)).run u ≠ .error .hangs ∧
  ((validateParent (some p) (some c)).run u = .error (requestInvalid 400) ↔
    Above u.db.parentMenu p c)

/-- The check of an existing parent ends and is exact if and only if the way up from the parent comes
to the menu or to an end. -/
theorem validateParent_exact_iff (hp : u.db.menu p = some row) : ChecksExactly u c p ↔
    Above u.db.parentMenu p c ∨
      ∃ x, Above u.db.parentMenu p x ∧ u.db.parentMenu x = none := by
  unfold ChecksExactly
  by_cases hpc : p = c
  · subst hpc
    rw [validateParent_self]
    have hrefl : Above u.db.parentMenu p p := .refl
    simp [hrefl, requestInvalid]
  · rw [ne_eq, validateParent_hangs hp]
    constructor
    · rintro ⟨hends, -⟩
      obtain ⟨n, hn⟩ : ∃ n, u.db.meets c n row ≠ none := by
        by_contra hnever
        exact hends ⟨hpc, fun n => by_contra fun hn => hnever ⟨n, hn⟩⟩
      obtain ⟨x, habove, rfl | hx⟩ := Database.above_of_meets (Option.isSome_iff_ne_none.2 hn) hp
      · exact .inl habove
      · exact .inr ⟨x, habove, hx⟩
    · intro hway
      obtain ⟨x, habove, hx⟩ : ∃ x, Above u.db.parentMenu p x ∧
          (x = c ∨ u.db.parentMenu x = none) := by
        rcases hway with habove | ⟨x, habove, hx⟩
        · exact ⟨c, habove, .inl rfl⟩
        · exact ⟨x, habove, .inr hx⟩
      obtain ⟨n, hn⟩ := Database.meets_isSome habove hx hp hpc
      obtain ⟨b, hb⟩ := Option.isSome_iff_exists.1 hn
      refine ⟨fun hhangs => ?_, ?_⟩
      · rw [hhangs.2 n] at hb
        cases hb
      · have habove_iff : Above u.db.parentMenu p c ↔ b = true := by
          rw [Database.meets_above hb, above_iff, Database.parentMenu_eq hp,
            or_iff_right hpc]
        rw [habove_iff, validateParent_run hp hpc, Database.meets_enough hb hp]
        cases b <;> simp

end

/-! ## A cycle -/

def menuRow (parentId : Option MenuId) : Menu := { name := "menu", parentId, menuType := .menu }

/-- Menus with their parents. -/
def menuTable (rows : List (MenuId × Option MenuId)) : UnitOfWork where
  db :=
    { users := ∅, departments := ∅, roles := ∅, userRoles := ∅, roleMenus := ∅
      menus := rows.foldl (fun t row => t.insert row.1 (menuRow row.2)) ∅ }

/-- Menu 2 is below menu 1. -/
theorem validateParent_exact_iff_below : ChecksExactly (menuTable [(1, none), (2, some 1)]) 1 2 :=
  (validateParent_exact_iff (show (menuTable [(1, none), (2, some 1)]).db.menu 2 =
    some (menuRow (some 1)) from rfl)).2 (.inl (.single rfl))

/-- Menus 1 and 2 are each other's parent: menu 3 cannot be put below them, and the check does not
end. -/
theorem cycle_hangs : (validateParent (some 1) (some 3)).run
      (menuTable [(1, some 2), (2, some 1), (3, none)]) = .error .hangs ∧
    (∀ n, (menuTable [(1, some 2), (2, some 1), (3, none)]).db.meets 3 n (menuRow (some 2)) = none) ∧
    ¬ ChecksExactly (menuTable [(1, some 2), (2, some 1), (3, none)]) 3 1 := by
  have hnever (n : Nat) :
      (menuTable [(1, some 2), (2, some 1), (3, none)]).db.meets 3 n (menuRow (some 2)) = none ∧
      (menuTable [(1, some 2), (2, some 1), (3, none)]).db.meets 3 n (menuRow (some 1)) = none := by
    induction n with
    | zero => exact ⟨rfl, rfl⟩
    | succ n ih => exact ⟨ih.2, ih.1⟩
  have hparent : (menuTable [(1, some 2), (2, some 1), (3, none)]).db.menu 1 =
      some (menuRow (some 2)) := rfl
  have hhangs := (validateParent_hangs hparent).2 ⟨by decide, fun n => (hnever n).1⟩
  exact ⟨hhangs, fun n => (hnever n).1, fun hexact => hexact.1 hhangs⟩

end Rbac
