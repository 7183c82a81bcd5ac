import Janus.Conc.Raising

/-!
# Programs whose commands fail

A command that fails raises, and a program that does not catch it stops there, with what its
commands have done so far.

* `Prog.tryEval`: the run of a program when the commands are functions of the state that may fail.
* `withFault`: commands of which one fails. It may have taken effect all the same.
* `Prog.Attempts`: every run from `P` returns with `Q` or stops with `X`. There is one rule for each
  of `pure`, `>>=`, a command and a loop.
* `rounds`: a loop of writes under a fault. `rounds_eq`: what has landed in the end is a prefix of
  the writes (`Fault.cut`), all of them unless the fault strikes.
-/

set_option autoImplicit false

namespace Conc

variable {C : Type} {R : C → Type} {S α β : Type}

/-- A failing command: how many succeed before it, and whether it takes effect. -/
structure Fault where
  after : Nat
  applied : Bool
deriving DecidableEq

/-- Commands of which one fails, if there is a fault. Only the fallible ones count. -/
def withFault (fallible : C → Bool) (f : (c : C) → S → R c × S) (c : C) :
    Option Fault × S → Option (R c) × (Option Fault × S)
  | (fault, s) =>
    if fallible c then
      match fault with
      | none => (some (f c s).1, none, (f c s).2)
      | some ⟨0, applied⟩ => (none, none, if applied then (f c s).2 else s)
      | some ⟨n + 1, applied⟩ => (some (f c s).1, some ⟨n, applied⟩, (f c s).2)
    else (some (f c s).1, fault, (f c s).2)

/-- A fault whose command takes no effect. -/
def Silent (fault : Option Fault) : Prop := ∀ φ, fault = some φ → φ.applied = false

namespace Prog

def tryEval (f : (c : C) → S → Option (R c) × S) : Prog C R α → S → Option α × S
  | ret a, s => (some a, s)
  | step c k, s =>
    match f c s with
    | (some r, s) => (k r).tryEval f s
    | (none, s) => (none, s)

variable {f : (c : C) → S → Option (R c) × S}

theorem tryEval_bind {p : Prog C R α} {g : α → Prog C R β} {s : S} :
    (p >>= g).tryEval f s =
      match p.tryEval f s with
      | (some a, s) => (g a).tryEval f s
      | (none, s) => (none, s) := by
  induction p generalizing s with
  | ret a => rfl
  | step c k ih =>
    simp only [step_bind, tryEval]
    rcases f c s with ⟨_ | r, s'⟩
    · rfl
    · exact ih r

/-- Without a fault it is the plain run. -/
theorem tryEval_withFault_none {fallible : C → Bool} {f : (c : C) → S → R c × S}
    {p : Prog C R α} {s : S} : p.tryEval (withFault fallible f) (none, s) =
      (some (p.eval f s).1, none, (p.eval f s).2) := by
  induction p generalizing s with
  | ret a => rfl
  | step c k ih =>
    have hc : withFault fallible f c (none, s) = (some (f c s).1, none, (f c s).2) := by
      simp [withFault]
    simp only [tryEval, hc, eval]
    exact ih _

/-! ## Attempts -/

/-- What holds after a return, and what where it stops. -/
def Reaches (Q : α → S → Prop) (X : S → Prop) : Option α × S → Prop
  | (some a, s) => Q a s
  | (none, s) => X s

def Attempts (f : (c : C) → S → Option (R c) × S) (P : S → Prop) (p : Prog C R α)
    (Q : α → S → Prop) (X : S → Prop) : Prop :=
  ∀ s, P s → Reaches Q X (p.tryEval f s)

namespace Attempts

variable {P P' X : S → Prop}

theorem ret {a : α} {Q : α → S → Prop} : Attempts f (Q a) (Prog.ret a) Q X := fun _ h => h

theorem step {c : C} {k : R c → Prog C R α} {M : R c → S → Prop} {Q : α → S → Prop}
    (hc : ∀ s, P s → Reaches M X (f c s)) (hk : ∀ r, Attempts f (M r) (k r) Q X) :
    Attempts f P (Prog.step c k) Q X := by
  intro s hs
  have h := hc s hs
  unfold tryEval
  generalize f c s = answer at h ⊢
  rcases answer with ⟨_ | r, s'⟩
  · exact h
  · exact hk r s' h

theorem bind {p : Prog C R α} {g : α → Prog C R β} {M : α → S → Prop} {Q : β → S → Prop}
    (hp : Attempts f P p M X) (hg : ∀ a, Attempts f (M a) (g a) Q X) :
    Attempts f P (p >>= g) Q X := by
  intro s hs
  have h := hp s hs
  rw [tryEval_bind]
  generalize p.tryEval f s = answer at h ⊢
  rcases answer with ⟨_ | a, s'⟩
  · exact h
  · exact hg a s' h

theorem pre {p : Prog C R α} {Q : α → S → Prop} (h : Attempts f P p Q X) (hP : ∀ s, P' s → P s) :
    Attempts f P' p Q X := fun s hs => h s (hP s hs)

/-- A loop that keeps an assertion and collects its results. -/
theorem mapM {γ : Type} {l : List γ} {body : γ → Prog C R β}
    (hbody : ∀ x, Attempts f P (body x) (fun _ => P) X) :
    Attempts f P (l.mapM body) (fun _ => P) X := by
  induction l with
  | nil => exact ret (Q := fun _ => P)
  | cons x xs ih =>
    rw [List.mapM_cons]
    exact bind (hbody x) fun _ => bind ih fun _ => ret (Q := fun _ => P)

end Attempts

/-- A command under a silent fault succeeds, or stops where it was. -/
theorem reaches_silent {fallible : C → Bool} {f : (c : C) → S → R c × S} {c : C}
    {σ : Option Fault × S} {M : R c → Option Fault × S → Prop} {X : Option Fault × S → Prop}
    (hsilent : Silent σ.1) (hok : ∀ fault, Silent fault → M (f c σ.2).1 (fault, (f c σ.2).2))
    (hfail : fallible c = true → σ.1 = some ⟨0, false⟩ → X (none, σ.2)) :
    Reaches M X (withFault fallible f c σ) := by
  obtain ⟨fault, s⟩ := σ
  by_cases hc : fallible c = true
  · rcases fault with _ | ⟨_ | n, applied⟩
    · simp only [withFault, hc, if_true]
      exact hok none nofun
    · have happlied : applied = false := hsilent _ rfl
      subst happlied
      simp only [withFault, hc, if_true]
      exact hfail hc rfl
    · have happlied : applied = false := hsilent _ rfl
      subst happlied
      simp only [withFault, hc, if_true]
      refine hok _ fun φ hφ => ?_
      injection hφ with hφ
      rw [← hφ]
  · simp only [withFault, hc]
    exact hok fault hsilent

/-- A loop whose rounds change nothing. -/
theorem tryEval_mapM {γ : Type} {l : List γ} {body : γ → Prog C R β} {g : γ → β} {s : S}
    (hbody : ∀ x ∈ l, (body x).tryEval f s = (some (g x), s)) :
    (l.mapM body).tryEval f s = (some (l.map g), s) := by
  induction l with
  | nil => rfl
  | cons x xs ih =>
    have hrest := ih fun y hy => hbody y (List.mem_cons_of_mem _ hy)
    rw [List.mapM_cons, tryEval_bind, hbody x List.mem_cons_self]
    dsimp only
    rw [tryEval_bind, hrest]
    rfl

end Prog

/-! ## Loops of writes -/

/-- The writes, one after the other. -/
def applyAll (ws : List (S → S)) (s : S) : S := ws.foldl (fun s w => w s) s

@[simp] theorem applyAll_nil (s : S) : applyAll [] s = s := rfl

@[simp] theorem applyAll_cons (w : S → S) (ws : List (S → S)) (s : S) :
    applyAll (w :: ws) s = applyAll ws (w s) := rfl

/-- A write, the first of `k` commands, under a fault. -/
def round (k : Nat) (w : S → S) : Option Fault × S → Option Unit × (Option Fault × S)
  | (none, s) => (some (), none, w s)
  | (some φ, s) =>
    if φ.after = 0 then (none, none, if φ.applied then w s else s)
    else if φ.after < k then (none, none, w s)
    else (some (), some ⟨φ.after - k, φ.applied⟩, w s)

def rounds (k : Nat) : List (S → S) → Option Fault × S → Option Unit × (Option Fault × S)
  | [], σ => (some (), σ)
  | w :: ws, σ =>
    match round k w σ with
    | (some (), σ) => rounds k ws σ
    | (none, σ) => (none, σ)

/-- The fault falls on one of the commands. -/
def Fault.Strikes (fault : Option Fault) (commands : Nat) : Prop :=
  ∃ φ, fault = some φ ∧ φ.after < commands

/-- How many writes have landed where the fault strikes. -/
def Fault.landed (k : Nat) (φ : Fault) : Nat :=
  if φ.after % k = 0 then φ.after / k + φ.applied.toNat else φ.after / k + 1

section Rounds

variable {k : Nat} {ws : List (S → S)} {w : S → S} {s : S} {φ : Fault}

theorem rounds_none : rounds k ws (none, s) = (some (), none, applyAll ws s) := by
  induction ws generalizing s with
  | nil => rfl
  | cons w ws ih => exact ih

theorem rounds_missed (hk : 0 < k) (h : k * ws.length ≤ φ.after) : rounds k ws (some φ, s) =
    (some (), some ⟨φ.after - k * ws.length, φ.applied⟩, applyAll ws s) := by
  induction ws generalizing s φ with
  | nil => rfl
  | cons w ws ih =>
    rw [List.length_cons, Nat.mul_succ] at h
    have hround : round k w (some φ, s) = (some (), some ⟨φ.after - k, φ.applied⟩, w s) := by
      have hzero : ¬ φ.after = 0 := by omega
      have hfirst : ¬ φ.after < k := by omega
      simp only [round, hzero, hfirst, if_false]
    have hrest := ih (s := w s) (φ := ⟨φ.after - k, φ.applied⟩) (by dsimp only; omega)
    unfold rounds
    rw [hround]
    dsimp only at hrest ⊢
    rw [hrest, List.length_cons, Nat.mul_succ, Nat.sub_sub, Nat.add_comm k]
    rfl

theorem rounds_struck (hk : 0 < k) (h : φ.after < k * ws.length) :
    rounds k ws (some φ, s) = (none, none, applyAll (ws.take (φ.landed k)) s) := by
  induction ws generalizing s φ with
  | nil => simp at h
  | cons w ws ih =>
    rw [List.length_cons, Nat.mul_succ] at h
    unfold rounds round
    by_cases hzero : φ.after = 0
    · have hlanded : φ.landed k = φ.applied.toNat := by simp [Fault.landed, hzero]
      simp only [hzero, if_true, hlanded]
      cases φ.applied <;> simp
    · by_cases hfirst : φ.after < k
      · have hlanded : φ.landed k = 1 := by
          simp [Fault.landed, Nat.mod_eq_of_lt hfirst, Nat.div_eq_of_lt hfirst, hzero]
        simp only [hzero, if_false, hfirst, if_true, hlanded]
        rfl
      · have hrest := ih (s := w s) (φ := ⟨φ.after - k, φ.applied⟩) (by dsimp only; omega)
        have hlanded : φ.landed k = Fault.landed k ⟨φ.after - k, φ.applied⟩ + 1 := by
          have hge : k ≤ φ.after := by omega
          unfold Fault.landed
          dsimp only
          rw [Nat.mod_eq_sub_mod hge, Nat.div_eq_sub_div hk hge]
          split <;> omega
        simp only [hzero, if_false, hfirst, hrest, hlanded]
        rfl

/-- The part of a list of writes that lands. -/
def Fault.cut (k : Nat) {γ : Type} : Option Fault → List γ → List γ
  | none, l => l
  | some φ, l => l.take (φ.landed k)

theorem Fault.map_cut {γ δ : Type} {g : γ → δ} {fault : Option Fault} {l : List γ} :
    (Fault.cut k fault l).map g = Fault.cut k fault (l.map g) := by
  cases fault with
  | none => rfl
  | some φ => exact List.map_take

/-- A fault that strikes no command cuts nothing off. -/
theorem Fault.cut_eq {γ : Type} {fault : Option Fault} {l : List γ} (hk : 0 < k)
    (h : ¬ Fault.Strikes fault (k * l.length)) : Fault.cut k fault l = l := by
  cases fault with
  | none => rfl
  | some φ =>
    have hafter : k * l.length ≤ φ.after := Nat.le_of_not_lt fun hlt => h ⟨φ, rfl, hlt⟩
    have hdiv : l.length ≤ φ.after / k := (Nat.le_div_iff_mul_le hk).2 (Nat.mul_comm k _ ▸ hafter)
    refine List.take_of_length_le ?_
    unfold Fault.landed
    split <;> omega

/-- The writes that a loop makes, and whether it stops. -/
theorem rounds_eq (hk : 0 < k) (ws : List (S → S)) (fault : Option Fault) (s : S) :
    (rounds k ws (fault, s)).2.2 = applyAll (Fault.cut k fault ws) s ∧
      ((rounds k ws (fault, s)).1 = none ↔ Fault.Strikes fault (k * ws.length)) := by
  by_cases h : Fault.Strikes fault (k * ws.length)
  · obtain ⟨φ, rfl, hlt⟩ := h
    rw [rounds_struck hk hlt]
    exact ⟨rfl, iff_of_true rfl ⟨φ, rfl, hlt⟩⟩
  · rw [Fault.cut_eq hk h]
    cases fault with
    | none =>
      rw [rounds_none]
      exact ⟨rfl, iff_of_false nofun h⟩
    | some φ =>
      rw [rounds_missed hk (Nat.le_of_not_lt fun hlt => h ⟨φ, rfl, hlt⟩)]
      exact ⟨rfl, iff_of_false nofun h⟩

end Rounds

namespace Prog

variable {fallible : C → Bool} {f : (c : C) → S → R c × S} {k : Nat} {γ : Type}

/-- A loop whose rounds write or do nothing. -/
theorem tryEval_forM {l : List γ} {body : γ → Prog C R PUnit} {write : γ → Option (S → S)}
    (hskip : ∀ x, write x = none → body x = ret ())
    (hwrite : ∀ x w, write x = some w → ∀ σ,
      (body x).tryEval (withFault fallible f) σ = round k w σ) (σ : Option Fault × S) :
    (forM l body).tryEval (withFault fallible f) σ = rounds k (l.filterMap write) σ := by
  induction l generalizing σ with
  | nil => rfl
  | cons x xs ih =>
    rw [List.forM_cons]
    cases hx : write x with
    | none =>
      rw [hskip x hx, List.filterMap_cons_none hx]
      exact ih σ
    | some w =>
      rw [tryEval_bind, hwrite x w hx, List.filterMap_cons_some hx]
      unfold rounds
      rcases round k w σ with ⟨_ | u, σ'⟩
      · rfl
      · exact ih σ'

end Prog

namespace Raising

variable {fallible : C → Bool} {f : (c : C) → S → R c × S} {k : Nat} {ε γ : Type}

/-- A loop whose rounds write or do nothing, and raise nothing. -/
theorem tryEval_forM {l : List γ} {body : γ → Raising C R ε PUnit} {write : γ → Option (S → S)}
    (hskip : ∀ x, write x = none → (body x).run = Prog.ret (.ok ()))
    (hwrite : ∀ x w, write x = some w → ∀ σ, (body x).run.tryEval (withFault fallible f) σ =
      ((round k w σ).1.map .ok, (round k w σ).2)) (σ : Option Fault × S) :
    (forM l body).run.tryEval (withFault fallible f) σ =
      ((rounds k (l.filterMap write) σ).1.map .ok, (rounds k (l.filterMap write) σ).2) := by
  induction l generalizing σ with
  | nil => rfl
  | cons x xs ih =>
    rw [List.forM_cons, ExceptT.run_bind]
    cases hx : write x with
    | none =>
      rw [hskip x hx, List.filterMap_cons_none hx]
      exact ih σ
    | some w =>
      rw [Prog.tryEval_bind, hwrite x w hx, List.filterMap_cons_some hx]
      unfold rounds
      rcases round k w σ with ⟨_ | u, σ'⟩
      · rfl
      · exact ih σ'

end Raising

end Conc
