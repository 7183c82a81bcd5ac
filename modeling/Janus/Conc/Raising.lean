import Janus.Conc.Prog

/-!
# Programs that may raise

`Raising C R ε α` is a program over commands that returns an `α` or raises an `ε`; it is the
exception transformer over `Prog`, so `throw` and `tryCatch` are the language's own.
`Raising.Follows` is the program order judgement over both ways to end, with one rule for each way
to build such a program.
-/

set_option autoImplicit false

namespace Conc

abbrev Raising (C : Type) (R : C → Type) (ε α : Type) := ExceptT ε (Prog C R) α

namespace Raising

variable {C : Type} {R : C → Type} {ε α β : Type}

def cmd (c : C) : Raising C R ε (R c) := ExceptT.lift (Prog.cmd c)

/-- A value or an exception of a pure computation. -/
def ofExcept {ε' : Type} (f : ε' → ε) : Except ε' α → Raising C R ε α
  | .ok a => pure a
  | .error e => throw (f e)

/-- The outcome of a body, as a value. -/
def attempt (p : Raising C R ε α) : Raising C R ε (Except ε α) :=
  ExceptT.mk (p.run >>= fun outcome => pure (.ok outcome))

/-! ## Runs on functions of the state -/

section

variable {S : Type} {f : (c : C) → S → R c × S} {p : Raising C R ε α} {g : α → Raising C R ε β}
  {s s' : S}

theorem eval_bind_ok {a : α} (h : p.run.eval f s = (.ok a, s')) :
    (p >>= g).run.eval f s = (g a).run.eval f s' := by
  rw [ExceptT.run_bind, Prog.eval_bind, h]

theorem eval_bind_error {e : ε} (h : p.run.eval f s = (.error e, s')) :
    (p >>= g).run.eval f s = (.error e, s') := by
  rw [ExceptT.run_bind, Prog.eval_bind, h]
  rfl

/-- A loop whose rounds always return, as a function of the state. -/
theorem eval_foldlM {ι : Type} {body : β → ι → Raising C R ε β} {round : β × S → ι → β × S}
    (hround : ∀ b i s, (body b i).run.eval f s = (.ok (round (b, s) i).1, (round (b, s) i).2))
    (l : List ι) (b : β) (s : S) : (l.foldlM body b).run.eval f s =
      (.ok (l.foldl round (b, s)).1, (l.foldl round (b, s)).2) := by
  induction l generalizing b s with
  | nil => rfl
  | cons i l ih =>
    rw [List.foldlM_cons, eval_bind_ok (hround b i s), ih, List.foldl_cons]

theorem eval_attempt :
    p.attempt.run.eval f s = (.ok (p.run.eval f s).1, (p.run.eval f s).2) := Prog.eval_bind

theorem eval_tryCatch_ok {handler : ε → Raising C R ε α} {a : α}
    (h : p.run.eval f s = (.ok a, s')) :
    (tryCatch p handler).run.eval f s = (.ok a, s') := by
  have hp : Prog.eval f (p : Prog C R (Except ε α)) s = (.ok a, s') := h
  refine Prog.eval_bind.trans ?_
  rw [hp]
  rfl

theorem eval_tryCatch_error {handler : ε → Raising C R ε α} {e : ε}
    (h : p.run.eval f s = (.error e, s')) :
    (tryCatch p handler).run.eval f s = (handler e).run.eval f s' := by
  have hp : Prog.eval f (p : Prog C R (Except ε α)) s = (.error e, s') := h
  refine Prog.eval_bind.trans ?_
  rw [hp]
  rfl

end

/-! ## Program order -/

/-- `Q` holds of how the program ends and of its trace (module doc). -/
def Follows (G : Guard C R) (Q : Except ε α → Trace C R → Prop) (p : Raising C R ε α)
    (t : Trace C R) : Prop := Prog.Follows G Q p.run t

namespace Follows

variable {G : Guard C R} {t : Trace C R} {P Q : Except ε α → Trace C R → Prop}

theorem pure {a : α} (h : Q (.ok a) t) : Follows G Q (Pure.pure a : Raising C R ε α) t := h

theorem throw {e : ε} (h : Q (.error e) t) : Follows G Q (MonadExcept.throw e : Raising C R ε α) t :=
  h

theorem cmd {c : C} {Q : Except ε (R c) → Trace C R → Prop} (hG : G t c)
    (h : ∀ r, Q (.ok r) (⟨c, r⟩ :: t)) : Follows G Q (Raising.cmd c) t := ⟨hG, h⟩

theorem mono {p : Raising C R ε α} (h : Follows G P p t) (hPQ : ∀ r t, P r t → Q r t) :
    Follows G Q p t := Prog.Follows.mono h hPQ

theorem bind {p : Raising C R ε α} {f : α → Raising C R ε β}
    {Q : Except ε β → Trace C R → Prop} (hp : Follows G P p t)
    (hok : ∀ a t, P (.ok a) t → Follows G Q (f a) t)
    (herror : ∀ e t, P (.error e) t → Q (.error e) t) : Follows G Q (p >>= f) t := by
  refine Prog.Follows.bind hp fun outcome t h => ?_
  cases outcome with
  | ok a => exact hok a t h
  | error e => exact herror e t h

/-- A command, then the rest. -/
theorem cmd_bind {c : C} {f : R c → Raising C R ε β} {Q : Except ε β → Trace C R → Prop}
    (hG : G t c) (h : ∀ r, Follows G Q (f r) (⟨c, r⟩ :: t)) :
    Follows G Q (Raising.cmd c >>= f) t := ⟨hG, h⟩

theorem tryCatch {p : Raising C R ε α} {handler : ε → Raising C R ε α}
    {Q : Except ε α → Trace C R → Prop} (hp : Follows G P p t)
    (hok : ∀ a t, P (.ok a) t → Q (.ok a) t)
    (herror : ∀ e t, P (.error e) t → Follows G Q (handler e) t) :
    Follows G Q (MonadExcept.tryCatch p handler) t := by
  refine Prog.Follows.bind hp fun outcome t h => ?_
  cases outcome with
  | ok a => exact hok a t h
  | error e => exact herror e t h

end Follows

end Raising

end Conc
