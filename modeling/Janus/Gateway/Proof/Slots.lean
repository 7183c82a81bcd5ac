import Janus.Gateway.Proof.Gates
import Janus.Gateway.RateLimit

/-!
# The concurrency slots of one member

`State.score s key m` is what the sorted set at `key` says of the member `m`. `Others` is what
everyone else may do: they never touch this member, but may evict it as stale where the environment
`evicts`. Under it a check fills only slots of its rules, all of them when it admits a stream and
nobody evicts (`checkRateLimits_triple`), and none when it is no stream (`checkRateLimits_absent`); a
release empties the slots of the rules that it is given, and no others (`releaseConcurrent_inSlots`).
-/

set_option autoImplicit false

namespace RateLimit

open Conc Redis Prog

def State.score (s : State) (key : Key) (m : String) : Option Int :=
  ((s.sets.get s.time key).getD []).score m

def Key.isConc : Key → Bool
  | .conc .. => true
  | _ => false

/-- What the other clients and time may do to the slots of `m`. -/
def Others (evicts : Bool) (m : String) (s s' : State) : Prop :=
  ∀ key, key.isConc = true → s'.score key m = s.score key m ∨ evicts = true ∧ s'.score key m = none

/-- `m` holds no slot. -/
def Absent (m : String) (s : State) : Prop := ∀ key, key.isConc = true → s.score key m = none

/-- `m` holds slots of these rules only. -/
def Within (m : String) (rules : List Rule) (s : State) : Prop :=
  ∀ key, key.isConc = true → s.score key m ≠ none →
    ∃ rule ∈ rules, rule.maxConcurrent.isSome ∧ key = rule.concKey

/-- `m` holds a slot of each of these rules that has a limit. -/
def Holds (m : String) (rules : List Rule) (s : State) : Prop :=
  ∀ rule ∈ rules, rule.maxConcurrent.isSome = true → s.score rule.concKey m ≠ none

section

variable {evicts : Bool} {m : String} {rules : List Rule} {s s' : State} {key key' : Key}

theorem Others.refl (s : State) : Others evicts m s s := fun _ _ => .inl rfl

theorem Absent.others (h : Absent m s) (he : Others evicts m s s') : Absent m s' := by
  intro key hk
  obtain h₂ | h₂ := he key hk
  · rw [h₂, h key hk]
  · exact h₂.2

theorem Within.others (h : Within m rules s) (he : Others evicts m s s') : Within m rules s' := by
  intro key hk hs
  obtain h₂ | h₂ := he key hk
  · exact h key hk (h₂ ▸ hs)
  · exact absurd h₂.2 hs

theorem Holds.others (h : Holds m rules s) (he : Others false m s s') : Holds m rules s' := by
  intro rule hr hc
  obtain h₂ | h₂ := he rule.concKey rfl
  · rw [h₂]
    exact h rule hr hc
  · cases h₂.1

theorem Absent.within (h : Absent m s) : Within m rules s := fun key hk hs => absurd (h key hk) hs

/-! ## The scripts -/

theorem score_addMember_self {z : ZSet String} {nowMs ttlMs : Int} (h : 0 < ttlMs) :
    (s.addMember key z m nowMs ttlMs).score key m = some nowMs := by
  have hlive : s.time < s.time + ttlMs.toNat := by omega
  unfold State.score State.addMember
  rw [Table.get_set_self hlive]
  exact ZSet.score_add_self

theorem score_addMember_ne {z : ZSet String} {m' : String} {nowMs ttlMs : Int} (h : key' ≠ key) :
    (s.addMember key z m nowMs ttlMs).score key' m' = s.score key' m' := by
  unfold State.score State.addMember
  rw [Table.get_set_ne h]

theorem score_dropStale_ne {m' : String} {bound : Int} (h : key' ≠ key) :
    (s.dropStale key bound).score key' m' = s.score key' m' := by
  unfold State.score State.dropStale
  rw [Table.get_alter_ne h]

/-- Admission at a key leaves every other key alone. -/
theorem score_addIfRoom_ne {m' : String} {nowMs windowMs limit ttlMs : Int} (h : key' ≠ key) :
    (s.addIfRoom key nowMs windowMs limit m ttlMs).2.score key' m' = s.score key' m' := by
  unfold State.addIfRoom
  dsimp only
  split
  · exact score_dropStale_ne h
  · exact score_addMember_ne h

/-- A command that can touch the slots of nobody. -/
def Cmd.inert : Cmd → Bool
  | .concurrentCheck .. => false
  | .rpmCheck key .. => !key.isConc
  | .zrem key _ => !key.isConc
  | _ => true

theorem score_inert {c : Cmd} (hc : c.inert = true) (hk : key.isConc = true) :
    (c.run s).2.score key m = s.score key m := by
  cases c with
  | rpmCheck key' nowMs windowMs limit member =>
    have hne : key ≠ key' := by rintro rfl; simp [Cmd.inert, hk] at hc
    exact score_addIfRoom_ne hne
  | zrem key' member =>
    have hne : key ≠ key' := by rintro rfl; simp [Cmd.inert, hk] at hc
    simp only [Cmd.run, State.score, Table.get_alter_ne hne]
  | tpmCheck key' nowMs limit requestTokens refillRate ttlMs =>
    simp only [Cmd.run, State.tpmCheck]
    split <;> rfl
  | tpmSettle key' delta limit ttlMs refillRate =>
    simp only [Cmd.run, State.tpmSettle]
    split <;> rfl
  | concurrentCheck => cases hc
  | emergencyAdmit rules nowMs =>
    simp only [Cmd.run, State.emergencyAdmit]
    split <;> rfl

/-- To the slots, an inert command is a step of somebody else. -/
theorem Others.of_inert {c : Cmd} (hc : c.inert = true) : Others evicts m s (c.run s).2 :=
  fun _ hk => .inl (score_inert hc hk)

theorem score_concurrentCheck_ne {nowMs limit timeoutMs : Int} {m' : String} (h : key' ≠ key) :
    ((Cmd.concurrentCheck key nowMs limit m timeoutMs).run s).2.score key' m' =
      s.score key' m' := score_addIfRoom_ne h

/-- An admitted check fills the member's slot. -/
theorem score_concurrentCheck_self {nowMs limit timeoutMs : Int} (ht : 0 ≤ timeoutMs)
    (h : (s.addIfRoom key nowMs timeoutMs limit m (timeoutMs + 10000)).1 = true) :
    ((Cmd.concurrentCheck key nowMs limit m timeoutMs).run s).2.score key m = some nowMs := by
  show (s.addIfRoom key nowMs timeoutMs limit m (timeoutMs + 10000)).2.score key m = some nowMs
  unfold State.addIfRoom at *
  dsimp only at *
  split at h
  · cases h
  · rename_i hlt
    rw [if_neg hlt]
    exact score_addMember_self (by omega)

theorem score_zrem_self : ((Cmd.zrem key m).run s).2.score key m = none := by
  unfold State.score
  simp only [Cmd.run, Table.get_alter_self]
  cases hz : s.sets.get s.time key with
  | none => rfl
  | some z =>
    show ((Option.filter _ (some (z.rem m))).getD []).score m = none
    rw [Option.filter_some]
    split
    · exact ZSet.score_rem_self
    · rfl

theorem score_zrem_ne {m' : String} (h : key' ≠ key) :
    ((Cmd.zrem key m).run s).2.score key' m' = s.score key' m' := by
  unfold State.score
  simp only [Cmd.run, Table.get_alter_ne h]

/-! ## Triples of the gates -/

/-- What a command leaves, when it always succeeds. -/
theorem cmd_triple {c : Cmd} {P : State → Prop} {Q : c.Resp → State → Prop}
    (hP : Stable (Others evicts m) P) (hQ : ∀ r, Stable (Others evicts m) (Q r))
    (h : ∀ s, P s → Q (c.run s).1 (c.run s).2) :
    Prog.Triple sem (Others evicts m) P (Prog.cmd c) Q := by
  refine Prog.Triple.step hP (fun s r s' hs hr => ?_) fun r => Prog.Triple.ret (hQ r)
  have heq : (r, s') = c.run s := hr
  have hres := h s hs
  rw [← heq] at hres
  exact hres

/-- A gate whose command answers without an error. -/
theorem gate_triple {α : Type} {p : Prog Cmd Cmd.Resp (Except RedisError α)} {P : State → Prop}
    {M : α → State → Prop} (hM : ∀ a, Stable (Others evicts m) (M a))
    (hp : Prog.Triple sem (Others evicts m) P p fun r s => ∃ a, r = .ok a ∧ M a s) :
    Raising.Triple sem (Others evicts m) P (gate p) (Raising.Ends M fun _ _ => False) := by
  refine Prog.Triple.bind Others.refl hp fun r => ?_
  cases r with
  | ok a =>
    refine Prog.Triple.pre (Prog.Triple.ret (Q := Raising.Ends M fun _ _ => False) (hM a)) ?_
    intro s hs
    obtain ⟨b, hb, hM⟩ := hs
    cases hb
    exact hM
  | error e =>
    intro s t a s' t' hs _
    obtain ⟨b, hb, -⟩ := hs
    cases hb

/-- The slots of a stream that has passed the gates of `done`. -/
structure Slots (evicts : Bool) (m : String) (done : List Rule) (s : State) : Prop where
  within : Within m done s
  holds : evicts = false → Holds m done s

theorem Slots.stable {done : List Rule} : Stable (Others evicts m) (Slots evicts m done) := by
  intro s s' h he
  refine ⟨h.within.others he, fun hq => ?_⟩
  subst hq
  exact (h.holds rfl).others he

theorem within_stable : Stable (Others evicts m) (Within m rules) := fun _ _ h he => h.others he


/-- The gates stop early only by a denial, and then hold nothing but slots of `rules`. -/
def Denied (m : String) (rules : List Rule) : Stop → State → Prop
  | .denied result _, s => result.allowed = false ∧ Within m rules s
  | .redisError, _ => False

theorem denied_stable (e : Stop) : Stable (Others evicts m) (Denied m rules e) := by
  cases e with
  | denied result acquired => exact fun _ _ h he => ⟨h.1, h.2.others he⟩
  | redisError => exact fun _ _ h _ => h

theorem Within.mono {done : List Rule} (h : Within m done s) (hsub : done ⊆ rules) :
    Within m rules s := by
  intro key hk hs
  obtain ⟨rule, hr, hlimit⟩ := h key hk hs
  exact ⟨rule, hsub hr, hlimit⟩

section

variable {done : List Rule} {nowMs estimatedTokens : Int} {rule : Rule} {acquired : Acquired}

/-- A gate returns with the slots of `done`, or denies. -/
abbrev Gated (evicts : Bool) (m : String) (rules done : List Rule) :
    Except Stop Acquired → State → Prop :=
  Raising.Ends (fun _ => Slots evicts m done) (Denied m rules)

theorem gated_ok (acquired : Acquired) :
    Raising.Triple sem (Others evicts m) (Slots evicts m done) (pure acquired)
      (Gated evicts m rules done) :=
  Raising.Triple.pure (Q := Gated evicts m rules done) Slots.stable

theorem gated_denied {result : CheckResult} {P : State → Prop} (hr : result.allowed = false)
    (hP : ∀ s, P s → Within m rules s) :
    Raising.Triple sem (Others evicts m) P (throw (.denied result acquired))
      (Gated evicts m rules done) :=
  Prog.Triple.pre (Raising.Triple.throw (Q := Gated evicts m rules done)
    (denied_stable (.denied result acquired)))
    fun s hs => ⟨hr, hP s hs⟩

/-- A gate command that touches no slot. -/
theorem inert_gate_triple {α : Type} {p : Prog Cmd Cmd.Resp (Except RedisError α)}
    (hp : Prog.Triple sem (Others evicts m) (Slots evicts m done) p
      fun r s => (∃ a, r = .ok a) ∧ Slots evicts m done s) :
    Raising.Triple sem (Others evicts m) (Slots evicts m done) (gate p)
      (Raising.Ends (fun _ => Slots evicts m done) fun _ _ => False) :=
  gate_triple (fun _ => Slots.stable) (hp.post fun r s h => by
    obtain ⟨⟨a, ha⟩, hs⟩ := h
    exact ⟨a, ha, hs⟩)

theorem ok_slots_stable {α : Type} (r : Except RedisError α) :
    Stable (Others evicts m) fun s => (∃ a, r = .ok a) ∧ Slots evicts m done s :=
  fun _ _ h he => ⟨h.1, Slots.stable h.2 he⟩

theorem rpmGate_triple (hsub : done ⊆ rules) :
    Raising.Triple sem (Others evicts m) (Slots evicts m done) (rpmGate nowMs m rule acquired)
      (Gated evicts m rules done) := by
  unfold rpmGate
  cases rule.rpmLimit with
  | none => exact gated_ok acquired
  | some rpmLimit =>
    refine Raising.Triple.bind Others.refl (inert_gate_triple (cmd_triple Slots.stable
      (fun r => ok_slots_stable r) fun s hs => ⟨⟨_, rfl⟩, Slots.stable hs (Others.of_inert rfl)⟩)) (fun answer => ?_)
      (fun _ _ h => h.elim) denied_stable
    obtain ⟨allowed, current, limit, oldest⟩ := answer
    cases allowed with
    | true => exact gated_ok _
    | false => exact gated_denied rfl fun s hs => hs.within.mono hsub

theorem tpmGate_triple (hsub : done ⊆ rules) :
    Raising.Triple sem (Others evicts m) (Slots evicts m done)
      (tpmGate nowMs estimatedTokens rule acquired) (Gated evicts m rules done) := by
  unfold tpmGate
  cases rule.tpmLimit with
  | none => exact gated_ok acquired
  | some tpmLimit =>
    by_cases hest : 0 < estimatedTokens
    · simp only [if_pos hest]
      refine Raising.Triple.bind Others.refl (inert_gate_triple (cmd_triple Slots.stable
        (fun r => ok_slots_stable r) fun s hs => ⟨⟨_, rfl⟩, Slots.stable hs (Others.of_inert rfl)⟩)) (fun answer => ?_)
        (fun _ _ h => h.elim) denied_stable
      obtain ⟨allowed, current, limit⟩ := answer
      cases allowed with
      | true => exact gated_ok _
      | false => exact gated_denied rfl fun s hs => hs.within.mono hsub
    · simp only [if_neg hest]
      exact gated_ok acquired

/-- The concurrency gate of a stream fills the slot of its rule. -/
theorem concurrentGate_triple (hsub : done ++ [rule] ⊆ rules) :
    Raising.Triple sem (Others evicts m) (Slots evicts m done)
      (concurrentGate nowMs m true rule acquired) (Gated evicts m rules (done ++ [rule])) := by
  unfold concurrentGate
  cases hmax : rule.maxConcurrent with
  | none =>
    refine Prog.Triple.pre (gated_ok acquired) fun s hs => ⟨fun key hk hsc => ?_, fun hq r hr hl => ?_⟩
    · obtain ⟨r, hr, hlimit⟩ := hs.within key hk hsc
      exact ⟨r, List.mem_append_left _ hr, hlimit⟩
    · rcases List.mem_append.1 hr with hr | hr
      · exact hs.holds hq r hr hl
      · rw [List.mem_singleton.1 hr, hmax] at hl
        cases hl
  | some maxConcurrent =>
    simp only [if_true]
    refine Raising.Triple.bind Others.refl (gate_triple (M := fun answer s =>
        Within m (done ++ [rule]) s ∧ (answer.1 = true → Slots evicts m (done ++ [rule]) s))
      ?_ (cmd_triple Slots.stable ?_ ?_)) (fun answer => ?_) (fun _ _ h => h.elim) denied_stable
    · exact fun answer s s' h he => ⟨h.1.others he, fun ha => Slots.stable (h.2 ha) he⟩
    · intro r s s' h he
      obtain ⟨a, ha, hw, hs⟩ := h
      exact ⟨a, ha, hw.others he, fun h => Slots.stable (hs h) he⟩
    · intro s hs
      have hwithin : Within m (done ++ [rule]) ((Cmd.concurrentCheck rule.concKey nowMs
          maxConcurrent m (concurrentStaleTimeoutSeconds * 1000)).run s).2 := by
        intro key hk hsc
        by_cases hkey : key = rule.concKey
        · exact ⟨rule, by simp, by simp [hmax], hkey⟩
        · rw [score_concurrentCheck_ne hkey] at hsc
          obtain ⟨r, hr, hlimit⟩ := hs.within key hk hsc
          exact ⟨r, List.mem_append_left _ hr, hlimit⟩
      refine ⟨_, rfl, hwithin, fun hadmitted => ⟨hwithin, fun hq r hr hl => ?_⟩⟩
      by_cases hkey : r.concKey = rule.concKey
      · rw [hkey, score_concurrentCheck_self (by decide) hadmitted]
        simp
      · rw [score_concurrentCheck_ne hkey]
        rcases List.mem_append.1 hr with hr | hr
        · exact hs.holds hq r hr hl
        · exact absurd (by rw [List.mem_singleton.1 hr]) hkey
    · obtain ⟨allowed, current, limit⟩ := answer
      cases allowed with
      | true => exact Prog.Triple.pre (gated_ok _) fun s hs => hs.2 rfl
      | false => exact gated_denied rfl fun s hs => hs.1.mono hsub

theorem checkRule_triple (hsub : done ++ [rule] ⊆ rules) :
    Raising.Triple sem (Others evicts m) (Slots evicts m done)
      (checkRule nowMs m estimatedTokens true acquired rule)
      (Gated evicts m rules (done ++ [rule])) := by
  have hdone : done ⊆ rules := fun r hr => hsub (List.mem_append_left _ hr)
  unfold checkRule
  refine Raising.Triple.bind Others.refl (rpmGate_triple hdone) (fun acquired => ?_)
    (fun _ _ h => h) denied_stable
  refine Raising.Triple.bind Others.refl (tpmGate_triple hdone) (fun acquired => ?_)
    (fun _ _ h => h) denied_stable
  exact concurrentGate_triple hsub

/-- The gates of a stream over all its rules. -/
theorem gates_triple :
    Raising.Triple sem (Others evicts m) (Absent m)
      (rules.foldlM (checkRule nowMs m estimatedTokens true) acquired)
      (Gated evicts m rules rules) := by
  let I (xs : List Rule) (_ : Acquired) (s : State) : Prop :=
    ∃ done, rules = done ++ xs ∧ Slots evicts m done s
  have hloop : Raising.Triple sem (Others evicts m) (I rules acquired)
      (rules.foldlM (checkRule nowMs m estimatedTokens true) acquired)
      (Raising.Ends (I []) (Denied m rules)) := by
    refine Raising.Triple.foldlM Others.refl (fun _ s s' h he => ?_) denied_stable
      fun rule rest acquired => ?_
    · obtain ⟨done, hrules, hs⟩ := h
      exact ⟨done, hrules, Slots.stable hs he⟩
    · intro s t a s' t' h hr
      obtain ⟨done, hrules, hs⟩ := h
      have hsub : done ++ [rule] ⊆ rules := by
        rw [hrules, List.append_cons done rule rest]
        exact List.subset_append_left _ _
      have hend := checkRule_triple hsub hs hr
      cases a with
      | ok acquired => exact ⟨done ++ [rule], by rw [hrules, List.append_assoc]; rfl, hend⟩
      | error e => exact hend
  refine Prog.Triple.post (Prog.Triple.pre hloop fun s hs => ⟨[], rfl, hs.within, ?_⟩) ?_
  · exact fun _ rule hr => by cases hr
  · intro outcome s h
    cases outcome with
    | ok acquired =>
      obtain ⟨done, hrules, hs⟩ := h
      rw [List.append_nil] at hrules
      exact hrules ▸ hs
    | error e => exact h

end

/-! ## Triples of the public functions -/

theorem absent_stable : Stable (Others evicts m) (Absent m) := fun _ _ h he => h.others he

theorem within_nil (h : Within m [] s) : Absent m s := by
  intro key hk
  by_contra hs
  obtain ⟨rule, hr, -⟩ := h key hk hs
  cases hr

theorem suppress_triple {P : State → Prop} {Q : State → Prop} {p : Io Unit}
    (hQ : Stable (Others evicts m) Q)
    (hp : Raising.Triple sem (Others evicts m) P p fun _ s => Q s) :
    Prog.Triple sem (Others evicts m) P (suppress p) fun _ s => Q s :=
  Prog.Triple.bind Others.refl hp fun _ => Prog.Triple.ret (Q := fun _ => Q) hQ

/-- The slots that a stream takes under these rules. -/
def slotKeys (rules : List Rule) : Set Key :=
  {key | ∃ rule ∈ rules, rule.maxConcurrent.isSome = true ∧ key = rule.concKey}

/-- `m` holds slots in `K` only, and those in `L` unless they were evicted. -/
structure InSlots (evicts : Bool) (m : String) (K L : Set Key) (s : State) : Prop where
  only : ∀ key, key.isConc = true → s.score key m ≠ none → key ∈ K
  all : evicts = false → ∀ key ∈ L, key.isConc = true → s.score key m ≠ none

section

variable {K K' L L' : Set Key}

theorem InSlots.mono (h : InSlots evicts m K L s) (hK : K ⊆ K') (hL : L' ⊆ L) : InSlots evicts m K' L' s :=
  ⟨fun key hk hs => hK (h.only key hk hs), fun hq key hl hk => h.all hq key (hL hl) hk⟩

theorem inSlots_stable : Stable (Others evicts m) (InSlots evicts m K L) := by
  intro s s' h he
  refine ⟨fun key hk hs => ?_, fun hq key hl hk => ?_⟩
  · obtain h₂ | h₂ := he key hk
    · exact h.only key hk (h₂ ▸ hs)
    · exact absurd h₂.2 hs
  · obtain h₂ | h₂ := he key hk
    · rw [h₂]
      exact h.all hq key hl hk
    · rw [hq] at h₂
      cases h₂.1

/-- A `ZREM` of the member's slot. -/
theorem zrem_inSlots :
    Raising.Triple sem (Others evicts m) (InSlots evicts m K L) (zrem key m)
      (Raising.Ends (fun _ => InSlots evicts m (K \ {key}) (L \ {key})) fun _ _ => False) := by
  refine cmd_triple (c := .zrem key m)
    (Q := Raising.Ends (fun _ => InSlots evicts m (K \ {key}) (L \ {key})) fun _ _ => False) inSlots_stable
    (fun r => ?_) fun s h => ⟨fun key' hk hs => ?_, fun hq key' hl hk => ?_⟩
  · cases r with
    | ok u => exact inSlots_stable
    | error e => exact fun _ _ h _ => h
  · by_cases hkey : key' = key
    · exact absurd (hkey ▸ score_zrem_self) hs
    · rw [score_zrem_ne hkey] at hs
      exact ⟨h.only key' hk hs, hkey⟩
  · rw [score_zrem_ne hl.2]
    exact h.all hq key' hl.1 hk

theorem slotKeys_nil : slotKeys [] = ∅ := by
  simp [slotKeys]

theorem slotKeys_append {l : List Rule} : slotKeys (l ++ rules) = slotKeys l ∪ slotKeys rules := by
  ext key
  simp only [slotKeys, List.mem_append, Set.mem_ofPred_eq, Set.mem_union, or_and_right, exists_or]

theorem slotKeys_cons {rule : Rule} : slotKeys (rule :: rules) =
    if rule.maxConcurrent.isSome = true then {rule.concKey} ∪ slotKeys rules else slotKeys rules := by
  split
  · ext key
    simp [slotKeys, *]
  · ext key
    simp [slotKeys, *]

/-- A release empties the slots of its rules, and no others. -/
theorem releaseConcurrent_inSlots :
    Prog.Triple sem (Others evicts m) (InSlots evicts m K L) (releaseConcurrent m rules)
      fun _ => InSlots evicts m (K \ slotKeys rules) (L \ slotKeys rules) := by
  refine suppress_triple inSlots_stable ?_
  -- the slots of the rules that the loop still has to go through are left
  let I (rest : List Rule) (s : State) : Prop := ∃ K' L', K' \ slotKeys rest ⊆ K \ slotKeys rules ∧
    L \ slotKeys rules ⊆ L' \ slotKeys rest ∧ InSlots evicts m K' L' s
  have hI (rest : List Rule) : Stable (Others evicts m) (I rest) := by
    rintro s s' ⟨K', L', hK, hL, h⟩ he
    exact ⟨K', L', hK, hL, inSlots_stable h he⟩
  refine Prog.Triple.post (Prog.Triple.pre (Raising.Triple.forM (I := I) (X := fun _ _ => False)
    Others.refl (hI []) (fun _ _ _ h _ => h) fun rule rest => ?_) fun s h => ?_) ?_
  · rintro s t outcome s' t' ⟨K', L', hK, hL, h⟩ hr
    rw [slotKeys_cons] at hK hL
    by_cases hl : rule.maxConcurrent.isSome = true
    · rw [if_pos hl] at hr
      rw [if_pos hl, ← Set.sdiff_sdiff] at hK hL
      have hend := zrem_inSlots h hr
      cases outcome with
      | ok u => exact ⟨_, _, hK, hL, hend⟩
      | error e => exact hend
    · rw [if_neg hl] at hr hK hL
      obtain ⟨rfl, -, he⟩ := hr
      exact ⟨K', L', hK, hL, inSlots_stable h he⟩
  · exact ⟨K, L, subset_rfl, subset_rfl, h⟩
  · intro outcome s h
    cases outcome with
    | ok u =>
      obtain ⟨K', L', hK, hL, h⟩ := h
      rw [slotKeys_nil, Set.sdiff_empty] at hK hL
      exact h.mono hK hL
    | error e => exact h.elim

theorem Within.inSlots (h : Within m rules s) : InSlots evicts m (slotKeys rules) ∅ s :=
  ⟨h, fun _ _ hl => hl.elim⟩

theorem InSlots.absent (h : InSlots evicts m ∅ L s) : Absent m s := by
  intro key hk
  by_contra hs
  exact (h.only key hk hs).elim

/-- A release empties every slot of its rules. -/
theorem releaseConcurrent_triple :
    Prog.Triple sem (Others evicts m) (Within m rules) (releaseConcurrent m rules)
      fun _ s => Absent m s := by
  intro s t outcome s' t' h hr
  have hwithin : InSlots evicts m (slotKeys rules) ∅ s := h.inSlots
  have hslots := releaseConcurrent_inSlots hwithin hr
  rw [Set.sdiff_self] at hslots
  exact hslots.absent

end

/-- To the slots, an inert program is a step of somebody else. -/
theorem inert_triple {α : Type} {p : Prog Cmd Cmd.Resp α} {P : State → Prop}
    (hp : p.Issues (·.inert = true) fun _ => True) (hP : Stable (Others evicts m) P) :
    Prog.Triple sem (Others evicts m) P p fun _ s => P s :=
  hp.triple hP fun c s r s' hc hs hr => by
    have heq : s' = (c.run s).2 := congrArg Prod.snd (show (r, s') = c.run s from hr)
    exact heq ▸ hP hs (Others.of_inert hc)

theorem releaseRpm_inert {l : List Rule} : (releaseRpm m l).Issues (·.inert = true) fun _ => True := by
  refine suppress_issues (Raising.Issues.forM fun rule _ => ?_)
  split
  · exact ⟨rfl, fun _ => trivial⟩
  · exact trivial

theorem settleTpm_inert {l : List Rule} {deltaTokens : Int} :
    Raising.Issues (·.inert = true) (fun _ => True) (settleTpm l deltaTokens) := by
  unfold settleTpm
  split
  · refine Raising.Issues.forM fun rule _ => ?_
    split
    · exact ⟨rfl, fun _ => trivial⟩
    · exact trivial
  · exact trivial

/-- The rollback of a denied request keeps its slots within the rules. -/
theorem rollback_triple {estimatedTokens : Int} {acquired : Acquired} :
    Prog.Triple sem (Others evicts m) (Within m rules) (rollback m estimatedTokens rules acquired)
      fun _ s => Within m rules s := by
  have hrelease : Prog.Triple sem (Others evicts m) (Within m rules)
      (if acquired.concurrent then releaseConcurrent m rules else pure ())
      fun _ s => Within m rules s := by
    split
    · exact Prog.Triple.post releaseConcurrent_triple fun _ _ h => h.within
    · exact Prog.Triple.ret (Q := fun _ => Within m rules) within_stable
  have hsettle : Prog.Triple sem (Others evicts m) (Within m rules) (do
      if acquired.tpm ≠ [] then suppress (settleTpm acquired.tpm estimatedTokens)
      if acquired.concurrent then releaseConcurrent m rules) fun _ s => Within m rules s := by
    by_cases htpm : acquired.tpm ≠ []
    · simp only [if_pos htpm]
      exact Prog.Triple.bind Others.refl
        (inert_triple (suppress_issues settleTpm_inert) within_stable) fun _ => hrelease
    · simp only [if_neg htpm]
      exact hrelease
  unfold rollback
  by_cases hrpm : acquired.rpm ≠ []
  · simp only [if_pos hrpm]
    exact Prog.Triple.bind Others.refl (inert_triple releaseRpm_inert within_stable)
      fun _ => hsettle
  · simp only [if_neg hrpm]
    exact hsettle

/-- What a check leaves of a stream that held no slot. -/
def Checked (evicts : Bool) (m : String) (rules : List Rule) (result : CheckResult) (s : State) :
    Prop :=
  Within m rules s ∧ (result.allowed = true → evicts = false → Holds m rules s)

theorem checked_stable (result : CheckResult) :
    Stable (Others evicts m) (Checked evicts m rules result) := by
  intro s s' h he
  refine ⟨h.1.others he, fun ha hq => ?_⟩
  subst hq
  exact (h.2 ha rfl).others he

theorem checkRateLimits_triple {nowMs estimatedTokens : Int} :
    Prog.Triple sem (Others evicts m) (Absent m)
      (checkRateLimits nowMs m estimatedTokens true rules) (Checked evicts m rules) := by
  unfold checkRateLimits
  refine Prog.Triple.bind Others.refl gates_triple fun outcome => ?_
  cases outcome with
  | ok acquired =>
    exact Prog.Triple.pre (Prog.Triple.ret (Q := Checked evicts m rules) (checked_stable _))
      fun s hs => ⟨hs.within, fun _ hq => hs.holds hq⟩
  | error stop =>
    cases stop with
    | denied result acquired =>
      intro s t a s' t' hs hr
      obtain ⟨hdenied, hw⟩ : result.allowed = false ∧ Within m rules s := hs
      obtain ⟨_, s₁, t₁, h₁, h₂⟩ := Runs.of_bind Others.refl hr
      have hw' := rollback_triple hw h₁
      obtain ⟨rfl, -, he⟩ := h₂
      exact ⟨hw'.others he, fun ha => by rw [hdenied] at ha; cases ha⟩
    | redisError => exact fun _ _ _ _ _ h _ => h.elim

end

/-! ## Requests that are no streams -/

/-- A command that can take a slot. -/
def Cmd.takesSlot : Cmd → Bool
  | .concurrentCheck .. => true
  | .rpmCheck key .. => key.isConc
  | _ => false

section

variable {evicts : Bool} {m : String} {rules : List Rule} {s : State} {nowMs estimatedTokens : Int}
  {rule : Rule} {acquired : Acquired}

/-- The program takes no slot, however it ends. -/
abbrev Slotless {ε α : Type} (p : Raising Cmd Cmd.Resp ε α) : Prop :=
  Raising.Issues (·.takesSlot = false) (fun _ => True) p

theorem gate_slotless {α : Type} {c : Cmd} (hc : c.takesSlot = false)
    {k : c.Resp → Prog Cmd Cmd.Resp (Except RedisError α)} {f : α → Gate Acquired}
    (hk : ∀ r, (k r).Issues (·.takesSlot = false) fun _ => True) (hf : ∀ a, Slotless (f a)) :
    Slotless (gate (.step c k) >>= f) := by
  refine Raising.Issues.bind (O := fun _ => True) ⟨hc, fun r => ?_⟩ (fun a _ => hf a) fun _ _ => trivial
  refine Prog.Issues.bind (hk r) fun answer _ => ?_
  cases answer <;> exact trivial

theorem rpmGate_slotless : Slotless (rpmGate nowMs m rule acquired) := by
  unfold rpmGate
  split
  · exact trivial
  · refine gate_slotless rfl (fun _ => trivial) fun answer => ?_
    dsimp only
    split <;> exact trivial

theorem tpmGate_slotless : Slotless (tpmGate nowMs estimatedTokens rule acquired) := by
  unfold tpmGate
  split
  · exact trivial
  · split
    · refine gate_slotless rfl (fun _ => trivial) fun answer => ?_
      dsimp only
      split <;> exact trivial
    · exact trivial

theorem concurrentGate_slotless : Slotless (concurrentGate nowMs m false rule acquired) := by
  unfold concurrentGate
  split <;> exact trivial

theorem checkRule_slotless : Slotless (checkRule nowMs m estimatedTokens false acquired rule) :=
  Raising.Issues.bind rpmGate_slotless (fun _ _ => Raising.Issues.bind tpmGate_slotless
    (fun _ _ => concurrentGate_slotless) fun _ _ => trivial) fun _ _ => trivial

theorem takesSlot_of_inert {c : Cmd} (hc : c.inert = true) : c.takesSlot = false := by
  cases c with
  | rpmCheck => simpa [Cmd.inert, Cmd.takesSlot] using hc
  | concurrentCheck => cases hc
  | _ => rfl

theorem rollback_slotless : (rollback m estimatedTokens rules acquired).Issues (·.takesSlot = false)
    fun _ => True := by
  have hrpm : (releaseRpm m acquired.rpm).Issues (·.takesSlot = false) fun _ => True :=
    releaseRpm_inert.weaken fun _ => takesSlot_of_inert
  have htpm : (suppress (settleTpm acquired.tpm estimatedTokens)).Issues (·.takesSlot = false)
      fun _ => True :=
    (suppress_issues settleTpm_inert).weaken fun _ => takesSlot_of_inert
  have hconcurrent : (releaseConcurrent m rules).Issues (·.takesSlot = false) fun _ => True := by
    refine suppress_issues (Raising.Issues.forM fun rule _ => ?_)
    split
    · exact ⟨rfl, fun _ => trivial⟩
    · exact trivial
  have hrelease : (if acquired.concurrent then releaseConcurrent m rules else pure ()).Issues
      (Cmd.takesSlot · = false) fun _ => True := by
    split
    · exact hconcurrent
    · exact trivial
  have hsettle : (do
      if acquired.tpm ≠ [] then suppress (settleTpm acquired.tpm estimatedTokens)
      if acquired.concurrent then releaseConcurrent m rules).Issues (Cmd.takesSlot · = false)
        fun _ => True := by
    by_cases ht : acquired.tpm ≠ []
    · simp only [if_pos ht]
      exact Prog.Issues.bind htpm fun _ _ => hrelease
    · simp only [if_neg ht]
      exact hrelease
  unfold rollback
  by_cases hne : acquired.rpm ≠ []
  · simp only [if_pos hne]
    exact Prog.Issues.bind hrpm fun _ _ => hsettle
  · simp only [if_neg hne]
    exact hsettle

/-- A check of a request that is no stream takes no slot. -/
theorem checkRateLimits_slotless :
    (checkRateLimits nowMs m estimatedTokens false rules).Issues (·.takesSlot = false)
      fun _ => True := by
  refine Prog.Issues.bind (O := fun _ => True)
    (Raising.Issues.foldlM trivial fun rule _ acquired _ => checkRule_slotless) fun outcome _ => ?_
  rcases outcome with stop | acquired
  · cases stop with
    | denied result acquired => exact Prog.Issues.bind rollback_slotless fun _ _ => trivial
    | redisError =>
      refine ⟨rfl, fun admitted => ?_⟩
      cases admitted <;> exact trivial
  · exact trivial

theorem score_zrem_of_none {key key' : Key} {member : String} (h : s.score key m = none) :
    ((Cmd.zrem key' member).run s).2.score key m = none := by
  by_cases hkey : key = key'
  · subst hkey
    by_cases hm : m = member
    · subst hm
      exact score_zrem_self
    · unfold State.score at *
      simp only [Cmd.run, Table.get_alter_self]
      cases hz : s.sets.get s.time key with
      | none => rfl
      | some z =>
        rw [hz] at h
        show ((Option.filter _ (some (z.rem member))).getD []).score m = none
        rw [Option.filter_some]
        split
        · exact (ZSet.score_rem_ne hm).trans h
        · rfl
  · rw [score_zrem_ne hkey]
    exact h

theorem Absent.slotless {c : Cmd} (h : Absent m s) (hc : c.takesSlot = false) :
    Absent m (c.run s).2 := by
  intro key hk
  cases c with
  | zrem key' member => exact score_zrem_of_none (h key hk)
  | concurrentCheck => cases hc
  | rpmCheck =>
    rw [score_inert (by simpa [Cmd.inert, Cmd.takesSlot] using hc) hk]
    exact h key hk
  | _ =>
    rw [score_inert rfl hk]
    exact h key hk

theorem checkRateLimits_absent :
    Prog.Triple sem (Others evicts m) (Absent m)
      (checkRateLimits nowMs m estimatedTokens false rules) fun _ s => Absent m s :=
  checkRateLimits_slotless.triple absent_stable fun c s r s' hc h hr => by
    have heq : s' = (c.run s).2 := congrArg Prod.snd (show (r, s') = c.run s from hr)
    exact heq ▸ h.slotless hc

end

end RateLimit
