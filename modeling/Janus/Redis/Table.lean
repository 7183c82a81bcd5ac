import Mathlib.Logic.Function.Basic
import Mathlib.Data.Option.Basic

/-!
# Key tables with a time to live

One keyspace of a Redis server: `Table κ α` maps a key to its `Cell`, a value and the time from
which it counts as absent. An expired cell may stay in the table; no reader sees it (`Table.get`).

* `Table.set`, `Table.del`: `SET` with or without a deadline, `DEL`.
* `Table.alter`: a read-modify-write that keeps the deadline (`SADD`, `SREM`, `INCRBY`).
* `Table.expire`: `EXPIRE` on a key that is present.
-/

set_option autoImplicit false

namespace Redis

/-- A value and the time from which it is expired. -/
structure Cell (α : Type) where
  val : α
  expiresAt : Option Nat
deriving DecidableEq, Repr

def Cell.live {α : Type} (now : Nat) (c : Cell α) : Bool := c.expiresAt.all (now < ·)

theorem Cell.live_anti {α : Type} {c : Cell α} {n n' : Nat} (h : c.live n' = true) (hn : n ≤ n') :
    c.live n = true := by
  cases he : c.expiresAt with
  | none => simp [live, he]
  | some d =>
    simp only [live, he, Option.all_some, decide_eq_true_eq] at h ⊢
    omega

abbrev Table (κ α : Type) := κ → Option (Cell α)

namespace Table

variable {κ α : Type} {t : Table κ α} {now : Nat} {k k' : κ} {v : α}

def empty : Table κ α := fun _ => none

/-- The cell of `k` that readers see at `now`. -/
def find (t : Table κ α) (now : Nat) (k : κ) : Option (Cell α) := (t k).filter (Cell.live now)

def get (t : Table κ α) (now : Nat) (k : κ) : Option α := (t.find now k).map Cell.val

theorem find_eq_some {c : Cell α} :
    t.find now k = some c ↔ t k = some c ∧ c.live now = true := Option.filter_eq_some_iff

theorem get_eq_some : t.get now k = some v ↔ ∃ c, t k = some c ∧ c.live now ∧ c.val = v := by
  simp [get, find_eq_some, and_assoc]

/-- What is readable at a later time is readable now. -/
theorem get_anti {now' : Nat} (h : t.get now' k = some v) (hn : now ≤ now') :
    t.get now k = some v := by
  obtain ⟨c, hc, hl, hv⟩ := get_eq_some.1 h
  exact get_eq_some.2 ⟨c, hc, Cell.live_anti hl hn, hv⟩

theorem get_of_none (h : t k = none) : t.get now k = none := by simp [get, find, h]

theorem get_congr {t' : Table κ α} (h : t k = t' k) : t.get now k = t'.get now k := by
  simp only [get, find, h]

@[simp] theorem empty_apply : (empty : Table κ α) k = none := rfl

variable [DecidableEq κ]

def set (t : Table κ α) (k : κ) (v : α) (expiresAt : Option Nat) : Table κ α :=
  Function.update t k (some ⟨v, expiresAt⟩)

def del (t : Table κ α) (k : κ) : Table κ α := Function.update t k none

/-- Replaces the value that readers see at `k` and keeps its deadline; `none` removes the key. -/
def alter (t : Table κ α) (now : Nat) (k : κ) (f : Option α → Option α) : Table κ α :=
  Function.update t k ((f (t.get now k)).map fun v => ⟨v, (t.find now k).bind Cell.expiresAt⟩)

def expire (t : Table κ α) (now : Nat) (k : κ) (ttl : Nat) : Table κ α :=
  Function.update t k ((t.find now k).map fun c => ⟨c.val, some (now + ttl)⟩)

@[simp] theorem set_self {e : Option Nat} : t.set k v e k = some ⟨v, e⟩ := by simp [set]
@[simp] theorem set_ne {e : Option Nat} (h : k' ≠ k) : t.set k v e k' = t k' := by simp [set, h]
@[simp] theorem del_self : t.del k k = none := by simp [del]
@[simp] theorem del_ne (h : k' ≠ k) : t.del k k' = t k' := by simp [del, h]
@[simp] theorem alter_ne {f : Option α → Option α} (h : k' ≠ k) :
    t.alter now k f k' = t k' := by simp [alter, h]
@[simp] theorem expire_ne {ttl : Nat} (h : k' ≠ k) : t.expire now k ttl k' = t k' := by
  simp [expire, h]

/-- The cell that an alteration leaves. -/
theorem alter_eq_some {f : Option α → Option α} {c : Cell α} :
    t.alter now k f k = some c ↔
      f (t.get now k) = some c.val ∧ c.expiresAt = (t.find now k).bind Cell.expiresAt := by
  unfold alter
  rw [Function.update_self, Option.map_eq_some_iff]
  constructor
  · rintro ⟨v, hv, rfl⟩
    exact ⟨hv, rfl⟩
  · exact fun h => ⟨c.val, h.1, by rw [← h.2]⟩

theorem get_set_self {e : Nat} (h : now < e) : (t.set k v (some e)).get now k = some v :=
  get_eq_some.2 ⟨⟨v, some e⟩, set_self, by simpa [Cell.live] using h, rfl⟩

theorem get_set_ne {e : Option Nat} (h : k' ≠ k) : (t.set k v e).get now k' = t.get now k' :=
  get_congr (set_ne h)

theorem get_alter_self {f : Option α → Option α} :
    (t.alter now k f).get now k = f (t.get now k) := by
  cases hf : f (t.get now k) with
  | none => exact get_of_none (by simp [alter, hf])
  | some v =>
    refine get_eq_some.2 ⟨_, by simp only [alter, hf, Option.map_some, Function.update_self]; rfl,
      ?_, rfl⟩
    cases hc : t.find now k with
    | none => rfl
    | some c => exact (find_eq_some.1 hc).2

/-- An altered value is readable for as long as the old one was. -/
theorem get_alter_later {now' : Nat} {f : Option α → Option α} (h : t.get now' k = some v)
    (hn : now ≤ now') : (t.alter now k f).get now' k = f (some v) := by
  obtain ⟨c, hc, hlive, rfl⟩ := get_eq_some.1 h
  have hfind : t.find now k = some c := find_eq_some.2 ⟨hc, Cell.live_anti hlive hn⟩
  have hself : t.alter now k f k = (f (some c.val)).map fun v => ⟨v, c.expiresAt⟩ := by
    simp [alter, get, hfind]
  cases hf : f (some c.val) with
  | none =>
    rw [hf] at hself
    exact get_of_none hself
  | some w =>
    rw [hf] at hself
    exact get_eq_some.2 ⟨_, hself, hlive, rfl⟩

/-- The new deadline. -/
theorem get_expire_self {now' ttl : Nat} (h : t.get now k = some v) (hn : now' < now + ttl) :
    (t.expire now k ttl).get now' k = some v := by
  obtain ⟨c, hc, hlive, rfl⟩ := get_eq_some.1 h
  have hself : t.expire now k ttl k = some ⟨c.val, some (now + ttl)⟩ := by
    simp [expire, find_eq_some.2 ⟨hc, hlive⟩]
  refine get_eq_some.2 ⟨_, hself, ?_, rfl⟩
  simpa [Cell.live] using hn

theorem get_alter_ne {f : Option α → Option α} (h : k' ≠ k) :
    (t.alter now k f).get now k' = t.get now k' := get_congr (alter_ne h)

/-- A positive time to live hides nothing yet. -/
theorem get_expire {ttl : Nat} (h : 0 < ttl) : (t.expire now k ttl).get now k' = t.get now k' := by
  by_cases hk : k' = k
  · subst hk
    have hset : t.expire now k' ttl k' =
        (t.find now k').map fun c => ⟨c.val, some (now + ttl)⟩ := by simp [expire]
    cases hc : t.find now k' with
    | none =>
      rw [hc] at hset
      rw [get_of_none hset, get, hc, Option.map_none]
    | some c =>
      rw [hc] at hset
      have hlive : Cell.live now (⟨c.val, some (now + ttl)⟩ : Cell α) = true := by
        simpa [Cell.live] using h
      rw [get_eq_some.2 ⟨_, hset, hlive, rfl⟩, get, hc, Option.map_some]
  · exact get_congr (expire_ne hk)

end Table

end Redis
