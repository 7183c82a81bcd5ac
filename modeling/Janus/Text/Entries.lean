import Mathlib.Data.List.DropRight

/-!
# The entries of a text

A text is cut at a separator; its entries are the parts that are not blank, without the blanks
around them. A text and what is appended after a separator have the entries of both
(`entries_append_cons`), so those appended last are found from the right, whatever comes before
them (`fromRight`).
-/

set_option autoImplicit false

namespace Text

variable {α : Type} {blank : α → Bool} {sep : α} {x y : List α}
  {parts : List (List α)}

/-- A text without the blanks around it. -/
def strip (blank : α → Bool) (x : List α) : List α := (x.dropWhile blank).rdropWhile blank

theorem strip_eq_nil : strip blank x = [] ↔ ∀ a ∈ x, blank a = true := by
  unfold strip
  rw [List.rdropWhile_eq_nil_iff]
  constructor
  · intro h a ha
    rw [← List.takeWhile_append_dropWhile (p := blank) (l := x)] at ha
    rcases List.mem_append.1 ha with ha | ha
    · exact List.mem_takeWhile_imp ha
    · exact h a ha
  · exact fun h a ha => h a ((List.dropWhile_sublist blank).subset ha)

/-- What stands at the `n`-th place from the right of a list that ends in `n` others. -/
theorem fromRight (xs ys : List α) :
    (xs ++ ys)[(xs ++ ys).length - ys.length]? = ys.head? := by
  rw [List.length_append, Nat.add_sub_cancel, List.getElem?_append_right le_rfl, Nat.sub_self,
    List.head?_eq_getElem?]

variable [DecidableEq α]

def entries (blank : α → Bool) (sep : α) (x : List α) : List (List α) :=
  ((x.splitOn sep).map (strip blank)).filter (· ≠ [])

/-- A part without separators that is not blank is one entry. -/
theorem entries_of_part (hsep : sep ∉ x) (hblank : ∃ a ∈ x, blank a = false) :
    entries blank sep x = [strip blank x] := by
  have hne : strip blank x ≠ [] := by
    obtain ⟨a, ha, hfalse⟩ := hblank
    intro h
    rw [strip_eq_nil.1 h a ha] at hfalse
    cases hfalse
  simp [entries, List.splitOn_eq_singleton hsep, hne]

/-- The entries of two texts around a separator. -/
theorem entries_append_cons :
    entries blank sep (x ++ sep :: y) = entries blank sep x ++ entries blank sep y := by
  simp [entries, List.splitOn_append_cons_self]

/-- The parts of a text that is joined from them. -/
theorem entries_intercalate
    (h : ∀ part ∈ parts, sep ∉ part ∧ ∃ a ∈ part, blank a = false) :
    entries blank sep ([sep].intercalate parts) = parts.map (strip blank) := by
  induction parts with
  | nil => simp [entries, strip]
  | cons part parts ih =>
    obtain ⟨hsep, hblank⟩ := h part List.mem_cons_self
    cases parts with
    | nil => simp [entries_of_part hsep hblank]
    | cons next parts =>
      have hrest := ih fun part' hmem => h part' (List.mem_cons_of_mem _ hmem)
      rw [List.intercalate_cons_cons, List.append_assoc, List.singleton_append,
        entries_append_cons, entries_of_part hsep hblank, hrest, List.map_cons (l := next :: parts),
        List.singleton_append]

end Text
