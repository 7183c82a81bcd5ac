import Mathlib.Data.List.Basic
import Mathlib.Data.Finmap
import Mathlib.Logic.Relation

/-!
# The body of a unit of work

`Work S ε α` reads and changes a state `S` and returns an `α`, or raises an `ε` and leaves nothing.
`Accepts p s a s'`: from `s` the body ends with `a` in `s'`. There is one lemma for each way to
build a body, so that an accepted body comes apart into the steps it made. `run_bind_ok`,
`run_bind_error`: a body step by step.

`Table`: rows by their primary key.
-/

set_option autoImplicit false

namespace Sql

/-- A table: at most one row for each key. -/
abbrev Table (K V : Type) := Finmap fun _ : K => V

abbrev Work (S ε α : Type) := StateT S (Except ε) α

namespace Work

variable {S ε α β : Type}

/-- The body ends with `a` and leaves `s'`. -/
def Accepts (p : Work S ε α) (s : S) (a : α) (s' : S) : Prop := p.run s = .ok (a, s')

def read (f : S → α) : Work S ε α := fun s => .ok (f s, s)

def write (f : S → S) : Work S ε Unit := fun s => .ok ((), f s)

/-- Raises unless the condition holds. -/
def require (c : Prop) [Decidable c] (e : ε) : Work S ε Unit := if c then pure () else throw e

/-- The value, or an exception if there is none. -/
def requireSome (x : Option α) (e : ε) : Work S ε α :=
  match x with
  | some a => pure a
  | none => throw e

/-- The outcome of a computation without effects. -/
def check (x : Except ε α) : Work S ε α := fun s => x.map fun a => (a, s)

/-- The body, if the condition holds. -/
def when (c : Prop) [Decidable c] (p : Work S ε Unit) : Work S ε Unit := if c then p else pure ()

section

variable {p : Work S ε α} {f : α → Work S ε β} {s s' : S} {a : α} {b : β} {u : Unit} {e : ε}

/-! ### Runs -/

theorem run_bind_ok (h : p.run s = .ok (a, s')) : (p >>= f).run s = (f a).run s' := by
  rw [StateT.run_bind, h]
  rfl

theorem run_bind_error (h : p.run s = .error e) : (p >>= f).run s = .error e := by
  rw [StateT.run_bind, h]
  rfl

theorem run_require {c : Prop} [Decidable c] :
    (require c e : Work S ε Unit).run s = if c then .ok ((), s) else .error e := by
  unfold require
  split <;> rfl

theorem run_requireSome {x : Option α} : (requireSome x e : Work S ε α).run s =
    match x with
    | some a => .ok (a, s)
    | none => .error e := by
  cases x <;> rfl

theorem run_check {x : Except ε α} : (check x : Work S ε α).run s = x.map fun a => (a, s) := rfl

theorem run_when_pos {c : Prop} [Decidable c] {q : Work S ε Unit} (h : c) :
    (when c q).run s = q.run s := by
  rw [when, if_pos h]

theorem run_when_neg {c : Prop} [Decidable c] {q : Work S ε Unit} (h : ¬ c) :
    (when c q).run s = .ok ((), s) := by
  rw [when, if_neg h]
  rfl

/-! ### Accepted bodies -/

@[simp] theorem accepts_pure {c : α} : Accepts (pure c : Work S ε α) s a s' ↔ a = c ∧ s' = s := by
  constructor
  · intro h
    cases h
    exact ⟨rfl, rfl⟩
  · rintro ⟨rfl, rfl⟩
    rfl

@[simp] theorem accepts_throw : ¬ Accepts (throw e : Work S ε α) s a s' := by
  intro h
  cases h

@[simp] theorem accepts_read {g : S → α} :
    Accepts (read g : Work S ε α) s a s' ↔ a = g s ∧ s' = s := by
  constructor
  · intro h
    cases h
    exact ⟨rfl, rfl⟩
  · rintro ⟨rfl, rfl⟩
    rfl

@[simp] theorem accepts_write {g : S → S} :
    Accepts (write g : Work S ε Unit) s u s' ↔ s' = g s := by
  constructor
  · intro h
    cases h
    rfl
  · rintro rfl
    rfl

/-- Both parts of a sequence are accepted. -/
@[simp] theorem accepts_bind :
    Accepts (p >>= f) s b s' ↔ ∃ a t, Accepts p s a t ∧ Accepts (f a) t b s' := by
  unfold Accepts
  rw [StateT.run_bind]
  cases hp : p.run s with
  | error e =>
    constructor
    · intro h
      cases h
    · rintro ⟨a, t, ha, -⟩
      cases ha
  | ok r =>
    constructor
    · exact fun h => ⟨r.1, r.2, rfl, h⟩
    · rintro ⟨a, t, ha, hb⟩
      cases ha
      exact hb

@[simp] theorem accepts_require {c : Prop} [Decidable c] :
    Accepts (require c e : Work S ε Unit) s u s' ↔ c ∧ s' = s := by
  unfold require
  split
  · next h => simp [h]
  · next h => simp [h]

@[simp] theorem accepts_requireSome {x : Option α} :
    Accepts (requireSome x e : Work S ε α) s a s' ↔ x = some a ∧ s' = s := by
  cases x with
  | none => simp [requireSome]
  | some c => simp [requireSome, eq_comm]

@[simp] theorem accepts_check {x : Except ε α} :
    Accepts (check x : Work S ε α) s a s' ↔ x = .ok a ∧ s' = s := by
  cases x with
  | error e =>
    constructor
    · intro h
      cases h
    · rintro ⟨h, -⟩
      cases h
  | ok c =>
    constructor
    · intro h
      cases h
      exact ⟨rfl, rfl⟩
    · rintro ⟨h, rfl⟩
      cases h
      rfl

@[simp] theorem accepts_when {c : Prop} [Decidable c] {q : Work S ε Unit} :
    Accepts (when c q) s u s' ↔ (c ∧ Accepts q s u s') ∨ (¬ c ∧ s' = s) := by
  unfold when
  split
  · next h => simp [h]
  · next h => simp [h]

/-- A body that leaves the state, and the rest. -/
theorem accepts_then {P : α → Prop} (hp : ∀ a t, Accepts p s a t ↔ P a ∧ t = s) :
    Accepts (p >>= f) s b s' ↔ ∃ a, P a ∧ Accepts (f a) s b s' := by
  rw [accepts_bind]
  constructor
  · rintro ⟨a, t, ha, hb⟩
    obtain ⟨hP, rfl⟩ := (hp a t).1 ha
    exact ⟨a, hP, hb⟩
  · rintro ⟨a, hP, hb⟩
    exact ⟨a, s, (hp a s).2 ⟨hP, rfl⟩, hb⟩

/-- A read, and the rest. -/
theorem accepts_read_then {g : S → α} :
    Accepts (read g >>= f) s b s' ↔ Accepts (f (g s)) s b s' := by
  rw [accepts_then fun _ _ => accepts_read, exists_eq_left]

/-- A write, and the rest. -/
theorem accepts_write_then {g : S → S} {f : Unit → Work S ε β} :
    Accepts (write g >>= f) s b s' ↔ Accepts (f ()) (g s) b s' := by
  rw [accepts_bind]
  constructor
  · rintro ⟨_, t, ht, hb⟩
    rw [accepts_write] at ht
    exact ht ▸ hb
  · exact fun hb => ⟨(), g s, accepts_write.2 rfl, hb⟩

theorem accepts_require_then {c : Prop} [Decidable c] {f : Unit → Work S ε β} :
    Accepts (require c e >>= f) s b s' ↔ c ∧ Accepts (f ()) s b s' := by
  rw [accepts_then fun _ _ => accepts_require]
  exact ⟨fun ⟨_, hc, hb⟩ => ⟨hc, hb⟩, fun ⟨hc, hb⟩ => ⟨(), hc, hb⟩⟩

theorem accepts_check_then {x : Except ε Unit} {f : Unit → Work S ε β} :
    Accepts (check x >>= f) s b s' ↔ x = .ok () ∧ Accepts (f ()) s b s' := by
  rw [accepts_then fun _ _ => accepts_check]
  exact ⟨fun ⟨_, hx, hb⟩ => ⟨hx, hb⟩, fun ⟨hx, hb⟩ => ⟨(), hx, hb⟩⟩

end

end Work

end Sql
