import Janus.Conc.Prog

/-!
# Stamped runs

A program whose commands are answered with the instant at which they ran. The program does not see
the stamps: its program order is that of the program itself (`Follows.stamped`).
-/

set_option autoImplicit false

namespace Conc

variable {C : Type} {R : C → Type} {S T α : Type}

/-- An answer and the instant of the command. -/
abbrev Stamped (T : Type) (R : C → Type) : C → Type := fun c => T × R c

/-- The commands, stamped by the clock of the state. -/
def Sem.stamped (E : Sem C R S) (clock : S → T) : Sem C (Stamped T R) S :=
  fun c s r s' => r.1 = clock s ∧ E c s r.2 s'

/-- The trace without its stamps. -/
def Trace.plain (t : Trace C (Stamped T R)) : Trace C R := t.map fun e => ⟨e.cmd, e.resp.2⟩

@[simp] theorem Trace.plain_cons {c : C} {r : T × R c} {t : Trace C (Stamped T R)} :
    Trace.plain (⟨c, r⟩ :: t) = ⟨c, r.2⟩ :: Trace.plain t := rfl

theorem Trace.mem_plain {c : C} {r : R c} {t : Trace C (Stamped T R)}
    (h : ⟨c, r⟩ ∈ Trace.plain t) : ∃ τ, ⟨c, (τ, r)⟩ ∈ t := by
  obtain ⟨⟨c', τ, r'⟩, he, heq⟩ := List.mem_map.1 h
  cases heq
  exact ⟨τ, he⟩

namespace Prog

def stamped : Prog C R α → Prog C (Stamped T R) α
  | ret a => ret a
  | step c k => step c fun r => (k r.2).stamped

theorem Follows.stamped {G : Guard C R} {Q : α → Trace C R → Prop} {p : Prog C R α}
    {t : Trace C (Stamped T R)} (h : p.Follows G Q (Trace.plain t)) :
    (p.stamped (T := T)).Follows (fun t c => G (Trace.plain t) c) (fun a t => Q a (Trace.plain t)) t := by
  induction p generalizing t with
  | ret a => exact h
  | step c k ih => exact ⟨h.1, fun r => ih r.2 (h.2 r.2)⟩

end Prog

end Conc
