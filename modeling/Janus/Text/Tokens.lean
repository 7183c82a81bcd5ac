import Mathlib.Data.List.Basic

/-!
# Texts that are read back

What a writer puts into a text is determined by the text, although nothing separates it from what
comes after it, if the text says itself where it ends: a token ends where a character comes that no
token has (`token_inj`), and a quoted text at the quote that is not escaped (`quoted_inj`).
-/

set_option autoImplicit false

namespace Text

/-- No character that `p` allows comes first. -/
def Stops (p : Char → Bool) (rest : List Char) : Prop := ∀ c ∈ rest.head?, p c = false

section Tokens

variable {p : Char → Bool} {a b r s : List Char} {c : Char}

theorem stops_nil : Stops p [] := by simp [Stops]

theorem stops_cons (h : p c = false) : Stops p (c :: r) := by simpa [Stops] using h

theorem takeWhile_token (ha : ∀ c ∈ a, p c = true) (hr : Stops p r) : (a ++ r).takeWhile p = a := by
  have hrest : r.takeWhile p = [] := by
    cases r with
    | nil => rfl
    | cons c r => rw [List.takeWhile_cons, hr c rfl]; rfl
  rw [List.takeWhile_append_of_pos ha, hrest, List.append_nil]

theorem token_inj (ha : ∀ c ∈ a, p c = true) (hb : ∀ c ∈ b, p c = true) (hr : Stops p r)
    (hs : Stops p s) (h : a ++ r = b ++ s) : a = b ∧ r = s := by
  have hab : a = b := by rw [← takeWhile_token ha hr, h, takeWhile_token hb hs]
  subst hab
  exact ⟨rfl, List.append_cancel_left h⟩

end Tokens

/-! ## Quoted texts -/

/-- A way to write the characters of a text so that each can be read back and none looks like the
closing quote. -/
structure Escaping where
  escape : Char → List Char
  unescape : List Char → Option (Char × List Char)
  unescape_escape : ∀ c rest, unescape (escape c ++ rest) = some (c, rest)
  head_ne : ∀ c, ∃ d ds, escape c = d :: ds ∧ d ≠ '"'

namespace Escaping

variable (e : Escaping) {cs ds r s : List Char} {c d : Char}

/-- The text in quotes. -/
def quoted (cs : List Char) : List Char := '"' :: (cs.flatMap e.escape ++ ['"'])

theorem escape_inj (h : e.escape c ++ r = e.escape d ++ s) : c = d ∧ r = s := by
  have hread := congrArg e.unescape h
  rw [e.unescape_escape, e.unescape_escape, Option.some.injEq, Prod.mk.injEq] at hread
  exact hread

theorem body_inj (h : cs.flatMap e.escape ++ '"' :: r = ds.flatMap e.escape ++ '"' :: s) :
    cs = ds ∧ r = s := by
  induction cs generalizing ds with
  | nil =>
    cases ds with
    | nil => exact ⟨rfl, (List.cons.inj h).2⟩
    | cons d ds =>
      obtain ⟨x, xs, hx, hne⟩ := e.head_ne d
      rw [List.flatMap_cons, hx] at h
      exact absurd (List.cons.inj h).1.symm hne
  | cons c cs ih =>
    cases ds with
    | nil =>
      obtain ⟨x, xs, hx, hne⟩ := e.head_ne c
      rw [List.flatMap_cons, hx] at h
      exact absurd (List.cons.inj h).1 hne
    | cons d ds =>
      rw [List.flatMap_cons, List.flatMap_cons, List.append_assoc, List.append_assoc] at h
      obtain ⟨rfl, hrest⟩ := e.escape_inj h
      obtain ⟨rfl, rfl⟩ := ih hrest
      exact ⟨rfl, rfl⟩

theorem quoted_inj (h : e.quoted cs ++ r = e.quoted ds ++ s) : cs = ds ∧ r = s := by
  simp only [quoted, List.cons_append, List.append_assoc, List.nil_append, List.cons.injEq,
    true_and] at h
  exact e.body_inj h

end Escaping

end Text
