import Mathlib.Data.List.Nodup
import Janus.Sql.Work

/-!
# One key after the other

`each attempt ks s` attempts an operation on every key of a list in turn; a key that is refused
leaves the state as it is.

* `Work.attempt`: a body as such an operation.
* `foldl_tally`: a loop that counts the keys it has done and lists those it has refused.
* `Sweep`: attempts that do not get in each other's way. Which keys are refused can then be told
  beforehand, and what the accepted ones do adds up (`Sweep.each_eq`).
-/

set_option autoImplicit false

namespace Sql

variable {K S : Type}

/-- The state in the end and the keys that were refused. -/
def each (attempt : K → S → Option S) : List K → S → S × List K
  | [], s => (s, [])
  | k :: ks, s =>
    match attempt k s with
    | some s' => each attempt ks s'
    | none => ((each attempt ks s).1, k :: (each attempt ks s).2)

section

variable {attempt : K → S → Option S} {s s' : S} {k : K} {ks : List K}

@[simp] theorem each_nil : each attempt [] s = (s, []) := rfl

theorem each_accepted (h : attempt k s = some s') :
    each attempt (k :: ks) s = each attempt ks s' := by
  rw [each, h]

theorem each_refused (h : attempt k s = none) :
    each attempt (k :: ks) s = ((each attempt ks s).1, k :: (each attempt ks s).2) := by
  rw [each, h]

/-- What every accepted attempt keeps to, the whole keeps to. -/
theorem each_rel {R : S → S → Prop} (hrefl : ∀ s, R s s)
    (htrans : ∀ {s t s'}, R s t → R t s' → R s s')
    (hone : ∀ {k s s'}, attempt k s = some s' → R s s') : R s (each attempt ks s).1 := by
  induction ks generalizing s with
  | nil => exact hrefl s
  | cons k ks ih =>
    cases h : attempt k s with
    | none =>
      rw [each_refused h]
      exact ih
    | some s' =>
      rw [each_accepted h]
      exact htrans (hone h) ih

theorem each_sublist : List.Sublist (each attempt ks s).2 ks := by
  induction ks generalizing s with
  | nil => simp
  | cons k ks ih =>
    cases h : attempt k s with
    | none =>
      rw [each_refused h]
      exact ih.cons_cons k
    | some s' =>
      rw [each_accepted h]
      exact ih.cons k

end

/-! ## Requests -/

namespace Work

variable {ε : Type} {p : Work S ε Unit} {s s' : S}

/-- A body; a rejected one leaves nothing. -/
def attempt (p : Work S ε Unit) (s : S) : Option S :=
  match p.run s with
  | .ok (_, s') => some s'
  | .error _ => none

theorem attempt_ok (h : p.run s = .ok ((), s')) : attempt p s = some s' := by
  rw [attempt, h]

theorem attempt_error {e : ε} (h : p.run s = .error e) : attempt p s = none := by
  rw [attempt, h]

end Work

/-! ## Loops -/

/-- One round: the count of the accepted keys, the refused keys and the state. -/
def tally (attempt : K → S → Option S) (done : (Nat × List K) × S) (k : K) : (Nat × List K) × S :=
  match attempt k done.2 with
  | some s' => ((done.1.1 + 1, done.1.2), s')
  | none => ((done.1.1, done.1.2 ++ [k]), done.2)

section

variable {attempt : K → S → Option S} {s s' : S} {k : K} {count : Nat × List K}

theorem tally_accepted (h : attempt k s = some s') :
    tally attempt (count, s) k = ((count.1 + 1, count.2), s') := by
  simp only [tally, h]

theorem tally_refused (h : attempt k s = none) :
    tally attempt (count, s) k = ((count.1, count.2 ++ [k]), s) := by
  simp only [tally, h]

end

theorem foldl_tally (attempt : K → S → Option S) (ks : List K) (n : Nat) (refused : List K)
    (s : S) : ∃ n', ks.foldl (tally attempt) ((n, refused), s) =
      ((n', refused ++ (each attempt ks s).2), (each attempt ks s).1) := by
  induction ks generalizing n refused s with
  | nil => exact ⟨n, by simp⟩
  | cons k ks ih =>
    rw [List.foldl_cons]
    cases h : attempt k s with
    | none =>
      rw [tally_refused h]
      obtain ⟨n', hn⟩ := ih n (refused ++ [k]) s
      refine ⟨n', hn.trans ?_⟩
      simp [each_refused h]
    | some s' =>
      rw [tally_accepted h, each_accepted h]
      exact ih (n + 1) refused s'

/-- A loop whose rounds always end, as a function of the state. -/
theorem Work.run_foldlM {ε β : Type} {f : β → K → Work S ε β} {g : β × S → K → β × S}
    (hround : ∀ b k s, (f b k).run s = .ok (g (b, s) k)) (ks : List K) (b : β) (s : S) :
    (ks.foldlM f b).run s = .ok (ks.foldl g (b, s)) := by
  induction ks generalizing b s with
  | nil => rfl
  | cons k ks ih =>
    rw [List.foldlM_cons, run_bind_ok (hround b k s), ih, List.foldl_cons]

/-! ## Sweeps -/

/-- `can s k`: the attempt is accepted; `Does ks s s'`: what the attempts on the keys `ks` do. -/
structure Sweep (attempt : K → S → Option S) (can : S → K → Bool)
    (Does : Set K → S → S → Prop) : Prop where
  nothing : ∀ s, Does ∅ s s
  append : ∀ {A B s t s'}, Does A s t → Does B t s' → Does (A ∪ B) s s'
  accepts : ∀ {s k}, can s k = true → ∃ s', attempt k s = some s' ∧ Does {k} s s'
  refuses : ∀ {s k}, can s k = false → attempt k s = none
  apart : ∀ {s s' k j}, Does {k} s s' → j ≠ k → can s' j = can s j

theorem Sweep.accepted {attempt : K → S → Option S} {can : S → K → Bool}
    {Does : Set K → S → S → Prop} (h : Sweep attempt can Does) {k : K} {s s' : S}
    (hs : attempt k s = some s') : Does {k} s s' := by
  cases hcan : can s k with
  | false =>
    rw [h.refuses hcan] at hs
    cases hs
  | true =>
    obtain ⟨t, ht, hdoes⟩ := h.accepts hcan
    rw [ht] at hs
    cases hs
    exact hdoes

/-- Every key is judged by the first state. -/
theorem Sweep.each_eq {attempt : K → S → Option S} {can : S → K → Bool}
    {Does : Set K → S → S → Prop} (h : Sweep attempt can Does) {ks : List K} (hnodup : ks.Nodup)
    (s : S) : Does {k | k ∈ ks ∧ can s k = true} s (each attempt ks s).1 ∧
      (each attempt ks s).2 = ks.filter fun k => !can s k := by
  induction ks generalizing s with
  | nil => simpa using h.nothing s
  | cons k ks ih =>
    obtain ⟨hk, hnodup⟩ := List.nodup_cons.1 hnodup
    cases hcan : can s k with
    | false =>
      obtain ⟨hdoes, hrefused⟩ := ih hnodup s
      rw [each_refused (h.refuses hcan), hrefused]
      refine ⟨?_, by simp [hcan]⟩
      have hset : {j | j ∈ k :: ks ∧ can s j = true} = {j | j ∈ ks ∧ can s j = true} := by
        ext j
        simp only [Set.mem_ofPred_eq, List.mem_cons]
        constructor
        · rintro ⟨rfl | hj, hcan'⟩
          · simp [hcan] at hcan'
          · exact ⟨hj, hcan'⟩
        · exact fun hj => ⟨.inr hj.1, hj.2⟩
      rw [hset]
      exact hdoes
    | true =>
      obtain ⟨s', hs', hone⟩ := h.accepts hcan
      obtain ⟨hdoes, hrefused⟩ := ih hnodup s'
      have hsame : ∀ j ∈ ks, can s' j = can s j := fun j hj =>
        h.apart hone fun hjk => hk (hjk ▸ hj)
      rw [each_accepted hs', hrefused]
      constructor
      · have hset : {j | j ∈ k :: ks ∧ can s j = true} =
            {k} ∪ {j | j ∈ ks ∧ can s' j = true} := by
          ext j
          simp only [Set.mem_ofPred_eq, List.mem_cons, Set.mem_union, Set.mem_singleton_iff]
          constructor
          · rintro ⟨rfl | hj, hcan'⟩
            · exact .inl rfl
            · exact .inr ⟨hj, (hsame j hj).trans hcan'⟩
          · rintro (rfl | ⟨hj, hcan'⟩)
            · exact ⟨.inl rfl, hcan⟩
            · exact ⟨.inr hj, (hsame j hj).symm.trans hcan'⟩
        rw [hset]
        exact h.append hone hdoes
      · rw [List.filter_cons_of_neg (by simp [hcan])]
        exact List.filter_congr fun j hj => by rw [hsame j hj]

end Sql
