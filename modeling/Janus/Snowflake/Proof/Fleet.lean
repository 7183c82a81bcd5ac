import Janus.Snowflake.Fleet
import Janus.Snowflake.Proof.Generator

/-!
# Ids across a hand-over

The last millisecond of a generator is not passed on with the worker id. `ids_unique`: the ids of a
fleet are distinct as long as no process reads a millisecond in which another one has minted under
the same worker id. `handedOver_twice`: the clock of the next holder is behind.
-/

set_option autoImplicit false

namespace Snowflake

section Fleet

variable {ρ : Type} [DecidableEq ρ] {F F' : Fleet ρ} {r r' : ρ} {n : Node} {a : Action ρ}

@[simp] theorem withNode_self : (F.withNode r n).node r = n := by simp [Fleet.withNode]

@[simp] theorem withNode_ne (h : r' ≠ r) : (F.withNode r n).node r' = F.node r' := by
  simp [Fleet.withNode, h]

@[simp] theorem withNode_minted : (F.withNode r n).minted = F.minted := rfl

/-! ## One step -/

/-- The id has been minted by a process that has since come at most to `g`. -/
def UpTo (m : MintedId ρ) (g : Generator) : Prop :=
  ∃ seq ≤ maxSequence, m.id = encode m.ms m.workerId seq ∧
    (m.ms < g.lastMs ∨ m.ms = g.lastMs ∧ seq ≤ g.sequence)

/-- What is true of the ids at all times. -/
structure Sound (F : Fleet ρ) : Prop where
  ids : ∀ m ∈ F.minted, ∃ seq ≤ maxSequence, m.id = encode m.ms m.workerId seq
  starts : ∀ m ∈ F.minted, m.start ≤ (F.node m.replica).starts
  current : ∀ r p, (F.node r).process = some p → ∀ m ∈ F.minted, m.replica = r →
    m.start = (F.node r).starts → UpTo m p.generator
  nodup : (F.minted.map (·.id)).Nodup

/-- No reading of the call is a millisecond in which another process has minted under the worker id
of this one. -/
def Fresh (F : Fleet ρ) : Action ρ → Prop
  | .mint r readings => ∀ p ∈ (F.node r).process, ∀ m ∈ F.minted,
      m.workerId = p.generator.workerId → (m.replica, m.start) ≠ (r, (F.node r).starts) →
      m.ms ∉ readings
  | _ => True

instance (F : Fleet ρ) : (a : Action ρ) → Decidable (Fresh F a)
  | .mint r readings => inferInstanceAs (Decidable (∀ p ∈ (F.node r).process, ∀ m ∈ F.minted,
      m.workerId = p.generator.workerId → (m.replica, m.start) ≠ (r, (F.node r).starts) →
      m.ms ∉ readings))
  | .start _ | .acquire _ _ | .leaseEnds _ | .stop _ => isTrue trivial

/-- A step that mints nothing and lets no process go back keeps the ids sound. -/
theorem Sound.quiet {g : Option Process} {clock : Int} (h : Sound F)
    (hg : ∀ p, g = some p → ∀ m ∈ F.minted, m.replica = r → m.start = (F.node r).starts →
      UpTo m p.generator) :
    Sound (F.withNode r ⟨clock, (F.node r).starts, g⟩) where
  ids := h.ids
  starts := by
    intro m hm
    have hle := h.starts m hm
    by_cases hr : m.replica = r
    · rw [hr, withNode_self]
      rw [hr] at hle
      exact hle
    · rw [withNode_ne hr]
      exact hle
  current := by
    intro r' p hp m hm hreplica hstart
    by_cases hr : r' = r
    · subst hr
      rw [withNode_self] at hp hstart
      exact hg p hp m hm hreplica hstart
    · rw [withNode_ne hr] at hp hstart
      exact h.current r' p hp m hm hreplica hstart
  nodup := h.nodup

omit [DecidableEq ρ] in
theorem Sound.holder {holder : WorkerId → Option ρ} (h : Sound F) :
    Sound { F with holder } := ⟨h.ids, h.starts, h.current, h.nodup⟩

theorem Sound.start (h : Sound F) (hstep : F.start r = some F') : Sound F' := by
  unfold Fleet.start at hstep
  split at hstep
  · cases hstep
  · cases hstep
    refine ⟨h.ids, fun m hm => ?_, fun r' p hp m hm hreplica hstart => ?_, h.nodup⟩
    · have hle := h.starts m hm
      by_cases hr : m.replica = r
      · rw [hr, withNode_self]
        rw [hr] at hle
        exact Nat.le_succ_of_le hle
      · rw [withNode_ne hr]
        exact hle
    · -- a new process has minted nothing
      by_cases hr : r' = r
      · subst hr
        have hle := h.starts m hm
        rw [withNode_self] at hstart
        rw [hreplica] at hle
        change m.start = (F.node r').starts + 1 at hstart
        omega
      · rw [withNode_ne hr] at hp hstart
        exact h.current r' p hp m hm hreplica hstart

theorem Sound.acquire {workerId : WorkerId} (h : Sound F)
    (hstep : F.acquire r workerId = some F') : Sound F' := by
  unfold Fleet.acquire at hstep
  split at hstep
  · next g hp _ =>
    cases hset : setWorkerId g workerId with
    | error e =>
      rw [hset] at hstep
      cases hstep
    | ok g' =>
      rw [hset] at hstep
      cases hstep
      obtain ⟨-, hms, hseq⟩ := setWorkerId_ok hset
      refine Sound.holder (h.quiet fun p hp' m hm hreplica hstart => ?_)
      cases hp'
      obtain ⟨seq, hle, hid, hupto⟩ := h.current r _ hp m hm hreplica hstart
      rw [← hms, ← hseq] at hupto
      exact ⟨seq, hle, hid, hupto⟩
  · cases hstep

omit [DecidableEq ρ] in
/-- What a process has minted so far is not minted again. -/
theorem UpTo.not_again {m : MintedId ρ} {g g' : Generator} (h : UpTo m g) (hlater : Later g g') :
    m.id ≠ encode g'.lastMs g.workerId g'.sequence := by
  obtain ⟨seq, hle, hid, hupto⟩ := h
  intro heq
  rw [hid] at heq
  obtain ⟨hms, -, hseq⟩ := encode_inj hle g'.sequence_le heq
  unfold Later at hlater
  omega

omit [DecidableEq ρ] in
theorem UpTo.trans {m : MintedId ρ} {g g' : Generator} (h : UpTo m g) (hlater : Later g g') :
    UpTo m g' := by
  obtain ⟨seq, hle, hid, hupto⟩ := h
  refine ⟨seq, hle, hid, ?_⟩
  unfold Later at hlater
  omega

theorem Sound.mint {readings : List Int} (h : Sound F) (hfresh : Fresh F (.mint r readings))
    (hstep : F.mint r readings = some F') : Sound F' := by
  unfold Fleet.mint at hstep
  split at hstep
  · next g hp =>
    split at hstep
    · dsimp only at hstep
      split at hstep
      · next id g' hnext =>
        cases hstep
        obtain ⟨⟨hclock, hworker, hlater, rfl⟩, -⟩ := nextId_ok hnext
        have hown (m : MintedId ρ) (hm : m ∈ F.minted) (hreplica : m.replica = r)
            (hstart : m.start = (F.node r).starts) : UpTo m g := h.current r _ hp m hm hreplica hstart
        have hnew : ∀ m ∈ F.minted, m.id ≠ encode g'.lastMs g.workerId g'.sequence := by
          intro m hm heq
          by_cases hsame : (m.replica, m.start) = (r, (F.node r).starts)
          · obtain ⟨hreplica, hstart⟩ := Prod.mk.inj hsame
            exact (hown m hm hreplica hstart).not_again hlater heq
          · obtain ⟨seq, hle, hid⟩ := h.ids m hm
            rw [hid] at heq
            obtain ⟨hms, hw, -⟩ := encode_inj hle g'.sequence_le heq
            refine hfresh _ hp m hm hw hsame ?_
            rw [hms]
            exact hclock
        have hquiet : Sound (F.withNode r ⟨readings.getLast?.getD (F.node r).clock,
            (F.node r).starts, some ⟨g', true⟩⟩) := by
          refine h.quiet fun p hp' m hm hreplica hstart => ?_
          cases hp'
          exact (hown m hm hreplica hstart).trans hlater
        refine ⟨fun m hm => ?_, fun m hm => ?_, fun r' p hp' m hm hreplica hstart => ?_, ?_⟩
        · rcases List.mem_cons.1 hm with rfl | hm
          · exact ⟨g'.sequence, g'.sequence_le, rfl⟩
          · exact h.ids m hm
        · rcases List.mem_cons.1 hm with rfl | hm
          · show (F.node r).starts ≤ ((F.withNode r _).node r).starts
            rw [withNode_self]
          · exact hquiet.starts m hm
        · rcases List.mem_cons.1 hm with rfl | hm
          · change r = r' at hreplica
            subst hreplica
            change ((F.withNode r _).node r).process = some p at hp'
            rw [withNode_self] at hp'
            cases hp'
            exact ⟨g'.sequence, g'.sequence_le, rfl, .inr ⟨rfl, Nat.le_refl _⟩⟩
          · exact hquiet.current r' p hp' m hm hreplica hstart
        · refine List.nodup_cons.2 ⟨fun hmem => ?_, h.nodup⟩
          obtain ⟨m, hm, heq⟩ := List.mem_map.1 hmem
          exact hnew m hm heq
      · next g' hnext =>
        cases hstep
        obtain ⟨rfl, -⟩ := nextId_error hnext
        refine h.quiet fun p hp' m hm hreplica hstart => ?_
        cases hp'
        exact h.current r _ hp m hm hreplica hstart
      · cases hstep
    · cases hstep
  · cases hstep

theorem Sound.stop (h : Sound F) (hstep : F.stop r = some F') : Sound F' := by
  unfold Fleet.stop at hstep
  split at hstep
  · cases hstep
    exact h.quiet fun p hp => nomatch hp
  · cases hstep

theorem Sound.step (h : Sound F) (hfresh : Fresh F a) (hstep : F.step a = some F') : Sound F' := by
  cases a with
  | start r => exact h.start hstep
  | acquire r workerId => exact h.acquire hstep
  | mint r readings => exact h.mint hfresh hstep
  | leaseEnds workerId =>
    cases hstep
    exact h.holder
  | stop r => exact h.stop hstep

/-! ## Runs -/

/-- Every step of the run is fresh. -/
def AllFresh (F : Fleet ρ) : List (Action ρ) → Prop
  | [] => True
  | a :: actions => Fresh F a ∧ ∀ F' ∈ F.step a, AllFresh F' actions

instance decidableAllFresh (F : Fleet ρ) : (actions : List (Action ρ)) →
    Decidable (AllFresh F actions)
  | [] => isTrue trivial
  | a :: actions =>
    have : ∀ F', Decidable (AllFresh F' actions) := fun F' => decidableAllFresh F' actions
    inferInstanceAs (Decidable (Fresh F a ∧ ∀ F' ∈ F.step a, AllFresh F' actions))

theorem Sound.run {actions : List (Action ρ)} (h : Sound F) (hfresh : AllFresh F actions)
    (hrun : F.run actions = some F') : Sound F' := by
  induction actions generalizing F with
  | nil =>
    cases hrun
    exact h
  | cons a actions ih =>
    unfold Fleet.run at hrun
    obtain ⟨F₁, hstep, hrest⟩ := Option.bind_eq_some_iff.1 hrun
    exact ih (h.step hfresh.1 hstep) (hfresh.2 F₁ hstep) hrest

omit [DecidableEq ρ] in
theorem sound_init {clock : ρ → Int} : Sound (Fleet.init clock) where
  ids := fun _ hm => absurd hm List.not_mem_nil
  starts := fun _ hm => absurd hm List.not_mem_nil
  current := fun _ _ _ _ hm => absurd hm List.not_mem_nil
  nodup := .nil

/-- No id is minted twice in a run in which no process reads a millisecond of another one that had
the same worker id. -/
theorem fleet_ids_unique {clock : ρ → Int} {actions : List (Action ρ)}
    (hfresh : AllFresh (Fleet.init clock) actions)
    (hrun : (Fleet.init clock).run actions = some F) : (F.minted.map (·.id)).Nodup :=
  (sound_init.run hfresh hrun).nodup

end Fleet

/-! ## A hand-over -/

/-- One replica mints an id in the given millisecond and stops; the next one takes its worker id. -/
def handOver (first second : Int) : List (Action Bool) :=
  [.start false, .acquire false Generator.init.workerId, .mint false [epochMs + first],
    .leaseEnds Generator.init.workerId, .stop false,
    .start true, .acquire true Generator.init.workerId, .mint true [epochMs + second]]

theorem fleet_ids_unique_later : ∃ F, (Fleet.init fun _ => epochMs).run (handOver 5 6) = some F ∧
    F.minted.length = 2 ∧ (F.minted.map (·.id)).Nodup := by
  have hruns : ((Fleet.init fun _ => epochMs).run (handOver 5 6)).isSome = true := by decide
  obtain ⟨F, hF⟩ := Option.isSome_iff_exists.1 hruns
  have hlength : (((Fleet.init fun _ => epochMs).run (handOver 5 6)).map
      fun F => F.minted.length) = some 2 := by decide
  rw [hF] at hlength
  injection hlength with hlength
  exact ⟨F, hF, hlength, fleet_ids_unique (by decide) hF⟩

/-- The clock of the second replica is behind: it mints the id of the first one again. -/
theorem handedOver_twice : ((Fleet.init fun _ => epochMs).run (handOver 5 5)).map
    (fun F => F.minted.map fun m => (m.replica, m.id)) =
      some [(true, 5 * 2 ^ 22), (false, 5 * 2 ^ 22)] := by
  decide

end Snowflake
