import Mathlib.Data.List.Basic

/-!
# Sorted sets

A sorted set as the list of its members with their scores. `score` is what a reader sees of a
member; the lemmas say what each command does to the score of one member.
-/

set_option autoImplicit false

namespace Redis

/-- Members with their scores. -/
abbrev ZSet (μ : Type) := List (μ × Int)

namespace ZSet

variable {μ : Type} [DecidableEq μ]

/-- `ZSCORE`. -/
def score (z : ZSet μ) (m : μ) : Option Int := (z.find? (·.1 = m)).map (·.2)

/-- `ZREM`. -/
def rem (z : ZSet μ) (m : μ) : ZSet μ := z.filter (·.1 ≠ m)

/-- `ZADD`: a member that is present gets the new score. -/
def add (z : ZSet μ) (m : μ) (s : Int) : ZSet μ := (m, s) :: z.rem m

/-- `ZREMRANGEBYSCORE -inf bound`. -/
def dropUpTo (z : ZSet μ) (bound : Int) : ZSet μ := z.filter (bound < ·.2)

/-- `ZCARD`. -/
def card (z : ZSet μ) : Nat := z.length

/-- The lowest score, as `ZRANGE 0 0 WITHSCORES` finds it. -/
def lowest (z : ZSet μ) : Option Int := (z.map (·.2)).min?

variable {z : ZSet μ} {m m' : μ} {s bound : Int}

@[simp] theorem score_nil : score ([] : ZSet μ) m = none := rfl

@[simp] theorem score_rem_self : (z.rem m).score m = none := by
  unfold score rem
  simp [List.find?_filter]

theorem score_rem_ne (h : m' ≠ m) : (z.rem m).score m' = z.score m' := by
  unfold score rem
  rw [List.find?_filter]
  congr 2
  funext x
  by_cases hx : x.1 = m'
  · simp [hx, h]
  · simp [hx]

@[simp] theorem score_add_self : (z.add m s).score m = some s := by simp [score, add]

theorem score_add_ne (h : m' ≠ m) : (z.add m s).score m' = z.score m' := by
  have hm : ¬ m = m' := fun e => h e.symm
  have hadd : (z.add m s).score m' = (z.rem m).score m' := by
    simp only [score, add, List.find?_cons, hm, decide_false]
  rw [hadd, score_rem_ne h]

/-- Dropping low scores keeps a member whose score is above the bound. -/
theorem score_dropUpTo_of_lt (h : z.score m = some s) (hs : bound < s) :
    (z.dropUpTo bound).score m = some s := by
  unfold score dropUpTo at *
  induction z with
  | nil => cases h
  | cons x z ih =>
    by_cases hx : x.1 = m
    · simp only [List.find?_cons, hx, decide_true, Option.map_some, Option.some.injEq] at h
      simp [h, hs, hx]
    · simp only [List.find?_cons, hx, decide_false] at h
      by_cases hb : bound < x.2
      · simpa [List.filter_cons, hb, List.find?_cons, hx] using ih h
      · simpa [List.filter_cons, hb] using ih h

/-- A member that is absent stays absent. -/
theorem score_dropUpTo_none (h : z.score m = none) : (z.dropUpTo bound).score m = none := by
  unfold score dropUpTo at *
  simp only [Option.map_eq_none_iff, List.find?_eq_none, decide_eq_true_eq] at *
  exact fun x hx => h x (List.mem_filter.1 hx).1

/-! ## The set as a whole -/

theorem rem_of_none (h : z.score m = none) : z.rem m = z := by
  unfold score at h
  simp only [Option.map_eq_none_iff, List.find?_eq_none, decide_eq_true_eq] at h
  exact List.filter_eq_self.2 fun x hx => by simpa using h x hx

theorem rem_add : (z.add m s).rem m = z.rem m := by simp [add, rem]

theorem rem_dropUpTo : (z.dropUpTo bound).rem m = (z.rem m).dropUpTo bound := by
  unfold dropUpTo rem
  exact List.filter_comm _ _ _

omit [DecidableEq μ] in
theorem dropUpTo_dropUpTo : (z.dropUpTo bound).dropUpTo bound = z.dropUpTo bound := by
  simp [dropUpTo]

end ZSet

end Redis
