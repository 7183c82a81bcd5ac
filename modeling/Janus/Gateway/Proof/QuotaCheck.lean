import Janus.Gateway.QuotaCheck
import Janus.Gateway.Proof.Counters

/-!
# Both checks of the quotas reserve all or nothing

`State.checkFrom` is what the two programs have in common: the script (`quotaCheckLua_eq`) and the
loop of single commands (`runCheckFallback_eq`) compute it on the quotas that they are handed. It
fails at the first enforced quota whose counter is above its limit after all reserves up to it
(`checkFrom_firstBreach`). `check_agrees` puts this together.
-/

set_option autoImplicit false

namespace QuotaEnforcer

open Conc

/-! ## The first breach -/

section Breach

variable {s s' : State} {e : Entry} {entries : List Entry} {incremented : List (Key × Int)} {i k : Nat}
  {count : Int}

/-- The counter of the quota `i` after all reserves up to it is above its limit. -/
def Breach (s : State) (entries : List Entry) (i : Nat) (count : Int) : Prop :=
  ∃ e, entries[i]? = some e ∧ e.enforce = true ∧
    count = s.count e.key + amountAt e.key (·.reserve) (entries.take (i + 1)) ∧ e.limit < count

def FirstBreach (s : State) (entries : List Entry) (i : Nat) (count : Int) : Prop :=
  Breach s entries i count ∧ ∀ j < i, ∀ c, ¬ Breach s entries j c

theorem breach_zero : Breach s (e :: entries) 0 count ↔
    e.enforce = true ∧ count = (s.reserve e).count e.key ∧ e.limit < count := by
  rw [count_reserve, if_pos rfl]
  constructor
  · intro ⟨e', he', henforce, hcount, hlimit⟩
    cases he'
    simp only [List.take_succ_cons, List.take_zero, amountAt_cons, amountAt_nil, if_pos] at hcount
    exact ⟨henforce, by omega, hlimit⟩
  · intro ⟨henforce, hcount, hlimit⟩
    refine ⟨e, rfl, henforce, ?_, hlimit⟩
    simp only [List.take_succ_cons, List.take_zero, amountAt_cons, amountAt_nil, if_pos]
    omega

theorem breach_succ :
    Breach s (e :: entries) (k + 1) count ↔ Breach (s.reserve e) entries k count := by
  unfold Breach
  simp only [List.getElem?_cons_succ, List.take_succ_cons, amountAt_cons, count_reserve,
    Int.add_assoc]

/-- The check fails where the first breach is. -/
theorem checkFrom_firstBreach : (s.checkFrom i incremented entries).1 = some (k, count) ↔
    ∃ n, k = i + n ∧ FirstBreach s entries n count := by
  induction entries generalizing s i incremented k with
  | nil =>
    constructor
    · intro h
      cases h
    · intro h
      obtain ⟨n, -, ⟨e, he, -⟩, -⟩ := h
      simp at he
  | cons e entries ih =>
    unfold State.checkFrom
    dsimp only
    by_cases hbreach : e.enforce = true ∧ e.limit < (s.reserve e).count e.key
    · rw [if_pos hbreach]
      have hzero : Breach s (e :: entries) 0 ((s.reserve e).count e.key) :=
        breach_zero.2 ⟨hbreach.1, rfl, hbreach.2⟩
      constructor
      · intro h
        cases h
        exact ⟨0, rfl, hzero, fun j hj => absurd hj (Nat.not_lt_zero j)⟩
      · intro h
        obtain ⟨n, hk, hn, hfirst⟩ := h
        cases n with
        | zero =>
          obtain ⟨-, rfl, -⟩ := breach_zero.1 hn
          rw [hk]
          rfl
        | succ n => exact absurd hzero (hfirst 0 (Nat.succ_pos n) _)
    · rw [if_neg hbreach, ih]
      have hzero (c : Int) : ¬ Breach s (e :: entries) 0 c := by
        intro h
        obtain ⟨henforce, rfl, hlimit⟩ := breach_zero.1 h
        exact hbreach ⟨henforce, hlimit⟩
      constructor
      · intro h
        obtain ⟨n, hk, hn, hfirst⟩ := h
        refine ⟨n + 1, by omega, breach_succ.2 hn, fun j hj c => ?_⟩
        cases j with
        | zero => exact hzero c
        | succ j =>
          rw [breach_succ]
          exact hfirst j (by omega) c
      · intro h
        obtain ⟨n, hk, hn, hfirst⟩ := h
        cases n with
        | zero => exact absurd hn (hzero count)
        | succ n =>
          refine ⟨n, by omega, breach_succ.1 hn, fun j hj c => ?_⟩
          rw [← breach_succ]
          exact hfirst (j + 1) (by omega) c

end Breach

/-! ## The arguments -/

section Arguments

variable {s : State} {e : Entry} {pre post : List Entry} {incremented : List (Key × Int)}

/-- The four arguments of a quota. -/
def argsOf (e : Entry) : List Int := [e.ttl, e.limit, if e.enforce then 1 else 0, e.reserve]

theorem argvOf_at {k : Nat} (hk : k < 4) :
    (argvOf (pre ++ e :: post))[1 + pre.length * 4 + k]? = (argsOf e)[k]? := by
  have hlength : (((pre ++ e :: post).length : Int) :: pre.flatMap argsOf).length =
      1 + pre.length * 4 := by
    simp [argsOf, List.length_flatMap]
    omega
  have hargv : argvOf (pre ++ e :: post) =
      (((pre ++ e :: post).length : Int) :: pre.flatMap argsOf) ++
        (argsOf e ++ post.flatMap argsOf) := by
    show _ :: (pre ++ e :: post).flatMap argsOf = _
    rw [List.flatMap_append, List.flatMap_cons, List.cons_append]
  rw [hargv, List.getElem?_append_right (by omega), hlength, Nat.add_sub_cancel_left,
    List.getElem?_append_left (by simpa [argsOf] using hk)]

theorem keys_at : ((pre ++ e :: post).map (·.key))[pre.length]? = some e.key := by
  rw [List.map_append, List.getElem?_append_right (by simp)]
  simp

theorem enforced_iff : ((if e.enforce = true then (1 : Int) else 0) = 1) ↔ e.enforce = true := by
  cases e.enforce <;> simp

theorem count_incrby_eq_reserve :
    (s.incrby e.key e.reserve).count e.key = (s.reserve e).count e.key := by
  rw [count_incrby, count_reserve, if_pos rfl, if_pos rfl]

/-- One round without the comparison. -/
theorem reserve_eq : (if (s.reserve e).count e.key = e.reserve ∧ 0 < e.ttl
    then (s.incrby e.key e.reserve).expire e.key e.ttl else s.incrby e.key e.reserve) =
    s.reserve e := by
  rw [← count_incrby_eq_reserve]
  rfl

end Arguments

/-! ## The script -/

section Script

variable {s : State} {entries : List Entry}

/-- The pairs of the script point at the pairs of `checkFrom`. -/
theorem luaUndo_eq {keys : List Key} {pairs : List (Nat × Int)} {incremented : List (Key × Int)}
    (h : List.Forall₂ (fun pair pair' => luaIndex keys pair.1 = some pair'.1 ∧ pair.2 = pair'.2)
      pairs incremented) : luaUndo keys pairs s = some (s.undo incremented) := by
  induction h generalizing s with
  | nil => rfl
  | cons hpair _ ih =>
    unfold luaUndo
    rw [hpair.1, hpair.2]
    exact ih

/-- An answer of the check as the two programs give it. -/
def answerOf : Option (Nat × Int) → List Int
  | none => [0, -1, -1]
  | some (i, count) => [1, i, count]

theorem luaRounds_eq (pre : List Entry) {post : List Entry} {pairs : List (Nat × Int)}
    {incremented : List (Key × Int)}
    (h : List.Forall₂ (fun pair pair' =>
      luaIndex ((pre ++ post).map (·.key)) pair.1 = some pair'.1 ∧ pair.2 = pair'.2)
      pairs incremented) :
    luaRounds ((pre ++ post).map (·.key)) (argvOf (pre ++ post)) post.length (pre.length + 1) pairs s =
      some (answerOf (s.checkFrom pre.length incremented post).1,
        (s.checkFrom pre.length incremented post).2) := by
  induction post generalizing pre s pairs incremented with
  | nil => rfl
  | cons e post ih =>
    have hargs (k : Nat) (hk : k < 4) : luaIndex (argvOf (pre ++ e :: post))
        (1 + (pre.length + 1 - 1) * 4 + (k + 1)) = (argsOf e)[k]? := argvOf_at hk
    have hkey : luaIndex ((pre ++ e :: post).map (·.key)) (pre.length + 1) = some e.key := keys_at
    have hpairs : List.Forall₂ (fun pair pair' =>
        luaIndex ((pre ++ e :: post).map (·.key)) pair.1 = some pair'.1 ∧ pair.2 = pair'.2)
        (pairs ++ [(pre.length + 1, e.reserve)]) (incremented ++ [(e.key, e.reserve)]) :=
      List.rel_append h (.cons ⟨hkey, rfl⟩ .nil)
    rw [List.length_cons, luaRounds, hargs 0 (by omega), hargs 1 (by omega), hargs 2 (by omega),
      hargs 3 (by omega), hkey]
    show (if _ then _ else _ : Option (List Int × State)) = _
    simp only [count_incrby_eq_reserve, reserve_eq, enforced_iff]
    unfold State.checkFrom
    dsimp only
    by_cases hbreach : e.enforce = true ∧ e.limit < (s.reserve e).count e.key
    · rw [if_pos hbreach, if_pos hbreach, luaUndo_eq hpairs]
      simp [answerOf]
    · rw [if_neg hbreach, if_neg hbreach]
      have hlater : List.Forall₂ (fun pair pair' =>
          luaIndex ((pre ++ [e] ++ post).map (·.key)) pair.1 = some pair'.1 ∧ pair.2 = pair'.2)
          (pairs ++ [(pre.length + 1, e.reserve)]) (incremented ++ [(e.key, e.reserve)]) := by
        rw [List.append_assoc]
        exact hpairs
      have hrest := ih (s := s.reserve e) (pre ++ [e]) hlater
      simp only [List.append_assoc, List.singleton_append, List.length_append,
        List.length_singleton] at hrest
      exact hrest

theorem quotaCheckLua_eq : quotaCheckLua (entries.map (·.key)) (argvOf entries) s =
    some (answerOf (s.checkFrom 0 [] entries).1, (s.checkFrom 0 [] entries).2) :=
  luaRounds_eq [] .nil

end Script

/-! ## The loop of single commands -/

section Fallback

variable {s : State} {entries : List Entry}

theorem eval_fallbackUndo {incremented : List (Key × Int)} :
    (fallbackUndo incremented).eval FallbackCmd.run s = ((), s.undo incremented) := by
  induction incremented generalizing s with
  | nil => rfl
  | cons pair incremented ih => exact ih

theorem eval_expireNew {key : Key} {ttl reserve count : Int} :
    (expireNew key ttl reserve count).eval FallbackCmd.run s =
      ((), if count = reserve ∧ 0 < ttl then s.expire key ttl else s) := by
  unfold expireNew
  split <;> rfl

theorem eval_fallbackRounds (pre : List Entry) {post : List Entry}
    (incremented : List (Key × Int)) :
    (fallbackRounds ((pre ++ post).map (·.key)) (argvOf (pre ++ post)) post.length pre.length
      incremented).eval FallbackCmd.run s =
      (some (answerOf (s.checkFrom pre.length incremented post).1),
        (s.checkFrom pre.length incremented post).2) := by
  induction post generalizing pre s incremented with
  | nil => rfl
  | cons e post ih =>
    have hargs (k : Nat) (hk : k < 4) :
        (argvOf (pre ++ e :: post))[1 + pre.length * 4 + k]? = (argsOf e)[k]? := argvOf_at hk
    rw [List.length_cons, fallbackRounds]
    dsimp only
    rw [← Nat.add_zero (1 + pre.length * 4), hargs 0 (by omega), Nat.add_zero, hargs 1 (by omega),
      hargs 2 (by omega), hargs 3 (by omega), keys_at]
    show ((expireNew e.key e.ttl e.reserve ((s.incrby e.key e.reserve).count e.key) >>= fun _ =>
      if (if e.enforce = true then (1 : Int) else 0) = 1 ∧
          e.limit < (s.incrby e.key e.reserve).count e.key then
        fallbackUndo (incremented ++ [(e.key, e.reserve)]) >>= fun _ =>
          pure (some [1, (pre.length : Int), (s.incrby e.key e.reserve).count e.key])
      else fallbackRounds ((pre ++ e :: post).map (·.key)) (argvOf (pre ++ e :: post)) post.length
        (pre.length + 1) (incremented ++ [(e.key, e.reserve)])).eval FallbackCmd.run
          (s.incrby e.key e.reserve)) = _
    rw [Prog.eval_bind, eval_expireNew]
    dsimp only
    simp only [count_incrby_eq_reserve, reserve_eq, enforced_iff]
    unfold State.checkFrom
    dsimp only
    by_cases hbreach : e.enforce = true ∧ e.limit < (s.reserve e).count e.key
    · rw [if_pos hbreach, if_pos hbreach, Prog.eval_bind, eval_fallbackUndo]
      rfl
    · rw [if_neg hbreach, if_neg hbreach]
      have hrest := ih (s := s.reserve e) (pre ++ [e]) (incremented ++ [(e.key, e.reserve)])
      simp only [List.append_assoc, List.singleton_append, List.length_append,
        List.length_singleton] at hrest
      exact hrest

theorem runCheckFallback_eq :
    (runCheckFallback (entries.map (·.key)) (argvOf entries)).eval FallbackCmd.run s =
      (some (answerOf (s.checkFrom 0 [] entries).1), (s.checkFrom 0 [] entries).2) :=
  eval_fallbackRounds [] []

end Fallback

/-! ## Both -/

/-- What a check of the quotas has to do. -/
structure AllOrNothing (s : State) (entries : List Entry) (answer : List Int) (s' : State) : Prop where
  failed : ∀ (i : Nat) count, answer = [1, (i : Int), count] ↔ FirstBreach s entries i count
  restored : (∃ i count, FirstBreach s entries i count) → ∀ key, s'.count key = s.count key
  passed : (¬ ∃ i count, FirstBreach s entries i count) → answer = [0, -1, -1] ∧
    ∀ key, s'.count key = s.count key + amountAt key (·.reserve) entries

theorem checkFrom_allOrNothing (s : State) (entries : List Entry) :
    AllOrNothing s entries (answerOf (s.checkFrom 0 [] entries).1) (s.checkFrom 0 [] entries).2 := by
  have hbreach (i : Nat) (count : Int) : (s.checkFrom 0 [] entries).1 = some (i, count) ↔
      FirstBreach s entries i count := by
    rw [checkFrom_firstBreach]
    constructor
    · intro ⟨n, hn, hfirst⟩
      rw [hn, Nat.zero_add]
      exact hfirst
    · intro hfirst
      exact ⟨i, (Nat.zero_add i).symm, hfirst⟩
  generalize hcheck : s.checkFrom 0 [] entries = checked at hbreach
  obtain ⟨answer, s'⟩ := checked
  cases answer with
  | none =>
    have hnone : ¬ ∃ i count, FirstBreach s entries i count := by
      intro ⟨i, count, hfirst⟩
      cases (hbreach i count).2 hfirst
    refine ⟨fun i count => ?_, fun hfirst => absurd hfirst hnone, fun _ => ⟨rfl, fun key => ?_⟩⟩
    · constructor
      · intro h
        cases h
      · intro hfirst
        exact absurd ⟨i, count, hfirst⟩ hnone
    · exact checkFrom_passed hcheck
  | some failure =>
    obtain ⟨k, c⟩ := failure
    have hfirst : FirstBreach s entries k c := (hbreach k c).1 rfl
    refine ⟨fun i count => ?_, fun _ key => ?_, fun hnone => absurd ⟨k, c, hfirst⟩ hnone⟩
    · rw [← hbreach]
      constructor
      · intro h
        simp only [answerOf, List.cons.injEq, Int.natCast_inj, and_true, true_and] at h
        rw [h.1, h.2]
      · intro h
        cases h
        rfl
    · rw [checkFrom_failed hcheck]
      simp

end QuotaEnforcer
