import Janus.Snowflake.Proof.Generator

/-!
# Clock rollbacks during a call

`Prompt`: a call raises as soon as it reads a clock that is too far behind, wherever it stands.
`next_id` tests its first reading only; its two loops read on (`Waiting`). `prompt_iff` says for
which readings the call is prompt all the same; an id always carries a reading that is not behind.
-/

set_option autoImplicit false

namespace Snowflake

variable {g g' : Generator} {again : Int → Bool} {first now now' id : Int}
  {before readings rest later : List Int}

/-- The clock is too far behind the last millisecond for a wait. -/
def FarBehind (g : Generator) (now : Int) : Prop := maxRollbackWaitMs < g.lastMs - now

instance : Decidable (FarBehind g now) := inferInstanceAs (Decidable (_ < _))

/-- Whatever a call reads, a reading that is too far behind ends it. -/
def Prompt (g : Generator) (readings : List Int) : Prop :=
  ∀ before now rest, readings = before ++ now :: rest → nextId g before = none →
    FarBehind g now →
    nextId g readings = some (.error (.clockRollback (g.lastMs - now)), g, rest)

/-- After these readings the call waits for another one: it has read nothing, or it waits for the
last millisecond to come back, or, with all its numbers used, for it to be over. -/
def Waiting (g : Generator) : List Int → Prop
  | [] => True
  | first :: readings => ¬ FarBehind g first ∧
      ((∀ now ∈ first :: readings, now < g.lastMs) ∨
        (nextSequence g = 0 ∧ ∀ now ∈ first :: readings, now ≤ g.lastMs))

theorem waiting_cons : Waiting g (first :: readings) ↔ ¬ FarBehind g first ∧
    ((∀ now ∈ first :: readings, now < g.lastMs) ∨
      (nextSequence g = 0 ∧ ∀ now ∈ first :: readings, now ≤ g.lastMs)) := Iff.rfl

/-! ## Loops -/

/-- A loop reads on as long as its readings say so. -/
theorem waitWhile_eq_none :
    waitWhile again now readings = none ↔ ∀ r ∈ now :: readings, again r = true := by
  induction readings generalizing now with
  | nil =>
    unfold waitWhile
    simp
  | cons next readings ih =>
    unfold waitWhile
    split
    · next hagain =>
      simp [ih, hagain]
    · next hstop =>
      simp only [Bool.not_eq_true] at hstop
      simp [hstop]

/-! ## Where a call stands -/

/-- The loops of a call whose first reading is not too far behind. -/
theorem nextId_of_near (h : ¬ FarBehind g first) : nextId g (first :: readings) = (do
    let (now, readings) ← waitWhile (· < g.lastMs) first readings
    if now = g.lastMs then
      if nextSequence g = 0 then
        let (now, readings) ← waitWhile (· ≤ g.lastMs) now readings
        some (mint g now 0 (Nat.zero_le _) readings)
      else some (mint g now (nextSequence g) (nextSequence_le g) readings)
    else some (mint g now 0 (Nat.zero_le _) readings)) := by
  show (if _ then _ else _) = _
  rw [if_neg fun hfar => h hfar.2]

theorem nextId_of_far (h : FarBehind g first) :
    nextId g (first :: readings) = some (.error (.clockRollback (g.lastMs - first)), g, readings) := by
  have hlt : first < g.lastMs := by
    unfold FarBehind maxRollbackWaitMs at h
    omega
  show (if _ then _ else _) = _
  rw [if_pos ⟨hlt, h⟩]

/-- What the first loop leaves has come back, and it has skipped nothing but smaller readings. -/
theorem waitWhile_split (h : waitWhile again first readings = some (now, later)) :
    ∃ skipped, first :: readings = skipped ++ now :: later ∧ ∀ r ∈ skipped, again r = true := by
  induction readings generalizing first with
  | nil =>
    unfold waitWhile at h
    split at h
    · cases h
    · cases h
      exact ⟨[], rfl, List.forall_mem_nil _⟩
  | cons next readings ih =>
    unfold waitWhile at h
    split at h
    · next hagain =>
      obtain ⟨skipped, heq, hall⟩ := ih h
      refine ⟨first :: skipped, by rw [heq, List.cons_append], ?_⟩
      exact List.forall_mem_cons.2 ⟨hagain, hall⟩
    · cases h
      exact ⟨[], rfl, List.forall_mem_nil _⟩

/-- A call waits exactly after the readings that say so. -/
theorem nextId_eq_none : nextId g readings = none ↔ Waiting g readings := by
  cases readings with
  | nil => exact ⟨fun _ => trivial, fun _ => rfl⟩
  | cons first readings =>
    rw [waiting_cons]
    by_cases hfar : FarBehind g first
    · rw [nextId_of_far hfar]
      simp [hfar]
    · rw [nextId_of_near hfar, and_iff_right hfar]
      cases hwait : waitWhile (· < g.lastMs) first readings with
      | none =>
        have hall : ∀ r ∈ first :: readings, r < g.lastMs := by
          simpa using waitWhile_eq_none.1 hwait
        exact ⟨fun _ => .inl hall, fun _ => rfl⟩
      | some result =>
        obtain ⟨now, later⟩ := result
        obtain ⟨skipped, heq, hskipped⟩ := waitWhile_split hwait
        obtain ⟨hmem, hstop, -⟩ := waitWhile_eq hwait
        have hge : g.lastMs ≤ now := by simpa using hstop
        have hnot : ¬ ∀ r ∈ first :: readings, r < g.lastMs := fun hall => by
          have hlt := hall now hmem
          omega
        rw [or_iff_right hnot]
        change (if now = g.lastMs then _ else _) = _ ↔ _
        by_cases hsame : now = g.lastMs
        · rw [if_pos hsame]
          by_cases hfull : nextSequence g = 0
          · rw [if_pos hfull, and_iff_right hfull]
            have hspin : waitWhile (· ≤ g.lastMs) now later = none ↔
                ∀ r ∈ first :: readings, r ≤ g.lastMs := by
              rw [waitWhile_eq_none, heq, List.forall_mem_append]
              simp only [decide_eq_true_eq] at hskipped ⊢
              constructor
              · exact fun hlater => ⟨fun r hr => (hskipped r hr).le, hlater⟩
              · exact fun hall => hall.2
            rw [← hspin]
            cases waitWhile (· ≤ g.lastMs) now later with
            | none => exact ⟨fun _ => rfl, fun _ => rfl⟩
            | some spun => exact ⟨nofun, nofun⟩
          · rw [if_neg hfull]
            exact ⟨nofun, fun h => absurd h.1 hfull⟩
        · rw [if_neg hsame]
          refine ⟨nofun, fun h => absurd (h.2 now hmem) ?_⟩
          omega

/-! ## Rollbacks -/

/-- A call raises at its first reading or not at all. -/
theorem nextId_raised {e : Error} (h : nextId g readings = some (.error e, g', later)) :
    ∃ first, readings = first :: later ∧ FarBehind g first := by
  cases readings with
  | nil => cases h
  | cons first readings =>
    by_cases hfar : FarBehind g first
    · rw [nextId_of_far hfar] at h
      cases h
      exact ⟨first, rfl, hfar⟩
    · rw [nextId_of_near hfar] at h
      cases hwait : waitWhile (· < g.lastMs) first readings with
      | none =>
        rw [hwait] at h
        cases h
      | some result =>
        rw [hwait] at h
        change (if result.1 = g.lastMs then _ else _) = _ at h
        split at h
        · split at h
          · cases hspin : waitWhile (· ≤ g.lastMs) result.1 result.2 with
            | none =>
              rw [hspin] at h
              cases h
            | some spun =>
              rw [hspin] at h
              cases h
          · cases h
        · cases h

/-- A call that returns has read a clock that is not behind. -/
theorem nextId_current (h : nextId g readings = some (.ok id, g', later)) :
    g.lastMs ≤ g'.lastMs ∧ g'.lastMs ∈ readings := by
  obtain ⟨hminted, -⟩ := nextId_ok h
  refine ⟨?_, hminted.clock⟩
  have hlater := hminted.later
  unfold Later at hlater
  omega

/-- A call is prompt exactly if no reading that it takes while it waits is too far behind, the first
one apart; and what it returns is never behind. -/
theorem prompt_iff :
    (Prompt g readings ↔ ∀ before now rest, readings = before ++ now :: rest → before ≠ [] →
      Waiting g before → ¬ FarBehind g now) ∧
    ∀ id g' later, nextId g readings = some (.ok id, g', later) →
      g.lastMs ≤ g'.lastMs ∧ g'.lastMs ∈ readings := by
  refine ⟨⟨fun hprompt before now rest heq hne hwaiting hfar => ?_, fun hnear => ?_⟩,
    fun id g' later => nextId_current⟩
  · have hanswer := hprompt before now rest heq (nextId_eq_none.2 hwaiting) hfar
    obtain ⟨first, hfirst, hfar'⟩ := nextId_raised hanswer
    cases before with
    | nil => exact hne rfl
    | cons r before =>
      rw [heq, List.cons_append] at hfirst
      obtain ⟨rfl, -⟩ := List.cons.inj hfirst
      exact hwaiting.1 hfar'
  · intro before now rest heq hnone hfar
    cases before with
    | nil =>
      rw [heq, List.nil_append]
      exact nextId_of_far hfar
    | cons first before =>
      exact absurd hfar (hnear _ now rest heq (List.cons_ne_nil _ _) (nextId_eq_none.1 hnone))

/-- A generator that has minted its first id. -/
def minted : Generator := { Generator.init with lastMs := epochMs + 2000 }

/-- The clock goes back by half a second, and by a second and a half more while the call waits: it
waits on, for two seconds, and returns an id. -/
theorem late_rollback :
    (nextId .init [epochMs + 2000]).map (·.2.1) = some minted ∧
    nextId minted [epochMs + 1500, epochMs, epochMs + 1999, epochMs + 2001] =
      some (.ok (2001 * 2 ^ 22), { minted with lastMs := epochMs + 2001 }, []) ∧
    ¬ Prompt minted [epochMs + 1500, epochMs, epochMs + 1999, epochMs + 2001] := by
  refine ⟨by decide, by decide, fun h => ?_⟩
  have hanswer := h [epochMs + 1500] epochMs _ rfl (by decide) (by decide)
  exact absurd hanswer (by decide)

end Snowflake
