import Mathlib.Data.List.DropRight

/-!
# Numerals in texts

The decimal text of a number has digits, and at most a sign before them; no other number has it, also
when it is padded with zeros (`repr_int_inj`, `padded_inj`). A text that is joined from parts
without the separator determines them (`joined_inj`).
-/

set_option autoImplicit false

namespace Text

/-- The digits of `n`, with zeros before them up to `width`. -/
def padded (width n : Nat) : List Char := (Nat.toDigits 10 n).leftpad width '0'

section Numbers

variable {width m n : Nat} {a b : Int} {c : Char}

theorem isDigit_of_mem_padded (h : c ∈ padded width n) : c.isDigit = true := by
  unfold padded List.leftpad at h
  rcases List.mem_append.1 h with h | h
  · rw [List.eq_of_mem_replicate h]
    decide
  · exact Nat.isDigit_of_mem_toDigits (by decide) (by decide) h

/-- Reading the digits gives the number back. -/
theorem ofDigitChars_padded : Nat.ofDigitChars 10 (padded width n) 0 = n := by
  unfold padded List.leftpad
  rw [Nat.ofDigitChars_append, Nat.ofDigitChars_replicate_zero, Nat.mul_zero,
    Nat.ofDigitChars_ten_toDigits]

theorem padded_inj : padded width m = padded width n ↔ m = n := by
  refine ⟨fun h => ?_, fun h => h ▸ rfl⟩
  have hread := congrArg (Nat.ofDigitChars 10 · 0) h
  simpa only [ofDigitChars_padded] using hread

/-- A numeral without padding. -/
theorem toList_repr_nat : n.repr.toList = padded 0 n := by
  rw [Nat.toList_repr]
  simp [padded, List.leftpad]

theorem toList_repr_int : a.repr.toList =
    if 0 ≤ a then padded 0 a.toNat else '-' :: padded 0 (-a).toNat := by
  rw [Int.repr_eq_if]
  split
  · exact toList_repr_nat
  · rw [String.toList_append, toList_repr_nat]
    rfl

theorem mem_repr_int (h : c ∈ a.repr.toList) : c = '-' ∨ c.isDigit = true := by
  rw [toList_repr_int] at h
  split at h
  · exact .inr (isDigit_of_mem_padded h)
  · rcases List.mem_cons.1 h with rfl | h
    · exact .inl rfl
    · exact .inr (isDigit_of_mem_padded h)

theorem minus_notMem_padded : '-' ∉ padded width n := by
  intro h
  have hdigit := isDigit_of_mem_padded h
  revert hdigit
  decide

theorem repr_int_inj : a.repr = b.repr ↔ a = b := by
  refine ⟨fun h => ?_, fun h => h ▸ rfl⟩
  have hlist := congrArg String.toList h
  rw [toList_repr_int, toList_repr_int] at hlist
  split at hlist
  · split at hlist
    · have := padded_inj.1 hlist
      omega
    · exact absurd (hlist ▸ List.mem_cons_self) minus_notMem_padded
  · split at hlist
    · exact absurd (hlist ▸ List.mem_cons_self) minus_notMem_padded
    · have := padded_inj.1 (List.cons.inj hlist).2
      omega

end Numbers

/-! ## Joined texts -/

section Joined

variable {α : Type} [DecidableEq α] {sep : α} {parts parts' : List (List α)}

/-- The parts of a text are those it is cut into. -/
theorem joined_inj (h : ∀ part ∈ parts, sep ∉ part) (h' : ∀ part ∈ parts', sep ∉ part)
    (hne : parts ≠ []) (hne' : parts' ≠ []) :
    [sep].intercalate parts = [sep].intercalate parts' ↔ parts = parts' := by
  refine ⟨fun heq => ?_, fun heq => heq ▸ rfl⟩
  have hcut := congrArg (List.splitOn sep) heq
  rwa [List.splitOn_intercalate sep h hne, List.splitOn_intercalate sep h' hne'] at hcut

end Joined

end Text
