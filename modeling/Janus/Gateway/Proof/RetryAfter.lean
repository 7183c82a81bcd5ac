import Janus.Gateway.Proof.Denial

/-!
# The retry-after of an RPM denial

A denial finds the window full, since no admission overfills it, and answers how long its oldest
entry still counts. The set outlives its entries (`Stocked`), so nothing but the trimming makes room
before (`retry_after_exact`).
-/

set_option autoImplicit false

namespace RateLimit

open Conc Redis

/-! ## What the commands leave in the cell of a set -/

section

variable {s : State} {key : Key} {member : String} {bound : Int} {cell : Cell (ZSet String)}

/-- What a trim leaves of a live set. -/
theorem dropStale_cell (h : (s.dropStale key bound).sets key = some cell) :
    ∃ old, s.sets key = some old ∧ cell.expiresAt = old.expiresAt ∧
      cell.val = old.val.dropUpTo bound := by
  obtain ⟨hval, hexpires⟩ := (Table.alter_eq_some (f := fun _ =>
    if s.freshSet key bound = [] then none else some (s.freshSet key bound))).1 h
  cases hfind : s.sets.find s.time key with
  | none =>
    have hnil : s.freshSet key bound = [] := by
      unfold State.freshSet Table.get
      rw [hfind]
      rfl
    rw [if_pos hnil] at hval
    cases hval
  | some old =>
    have hfresh : s.freshSet key bound = old.val.dropUpTo bound := by
      unfold State.freshSet Table.get
      rw [hfind]
      rfl
    rw [hfind] at hexpires
    refine ⟨old, (Table.find_eq_some.1 hfind).1, hexpires, ?_⟩
    split at hval
    · cases hval
    · rw [← hfresh]
      exact (Option.some.inj hval).symm

theorem zrem_cell (h : ((Cmd.zrem key member).run s).2.sets key = some cell) :
    ∃ old, s.sets key = some old ∧ cell.expiresAt = old.expiresAt ∧
      cell.val = old.val.rem member := by
  obtain ⟨hval, hexpires⟩ := (Table.alter_eq_some (f := fun z : Option (ZSet String) =>
    (z.map fun z => ZSet.rem z member).filter (· ≠ []))).1 h
  unfold Table.get at hval
  cases hfind : s.sets.find s.time key with
  | none =>
    rw [hfind] at hval
    cases hval
  | some old =>
    rw [hfind] at hval hexpires
    have hrem := (Option.filter_eq_some_iff.1 hval).1
    exact ⟨old, (Table.find_eq_some.1 hfind).1, hexpires, (Option.some.inj hrem).symm⟩

end

/-! ## The set of a rule over a history -/

section

variable {rule : Rule} {limit offset t : Int} {s s' s₀ : State} {l l' : Log Int Cmd Cmd.Resp}
  {cell old : Cell (ZSet String)}

/-- The set holds no more than the limit, its scores are readings of the history, and it outlives
them. -/
structure CellSound (limit offset : Int) (l : Log Int Cmd Cmd.Resp) (cell : Cell (ZSet String)) :
    Prop where
  card : (cell.val.card : Int) ≤ limit
  stamped : ∀ x ∈ cell.val, ∃ e ∈ l, e.1 = x.2
  outlives : ∃ d, cell.expiresAt = some d ∧ ∀ x ∈ cell.val, x.2 + offset + 61000 ≤ d

def Stocked (rule : Rule) (limit offset : Int) (s : State) (l : Log Int Cmd Cmd.Resp) : Prop :=
  ∀ cell, s.sets rule.rpmKey = some cell → CellSound limit offset l cell

theorem CellSound.shrink (h : CellSound limit offset l old) (hval : cell.val.Sublist old.val)
    (hexpires : cell.expiresAt = old.expiresAt) (hsub : l ⊆ l') : CellSound limit offset l' cell where
  card := by
    have hle := hval.length_le
    have hcard := h.card
    unfold ZSet.card at hcard ⊢
    omega
  stamped x hx := by
    obtain ⟨e, he, hstamp⟩ := h.stamped x (hval.subset hx)
    exact ⟨e, hsub he, hstamp⟩
  outlives := by
    obtain ⟨d, hd, hout⟩ := h.outlives
    exact ⟨d, hexpires.trans hd, fun x hx => hout x (hval.subset hx)⟩

theorem Stocked.frame (h : Stocked rule limit offset s l)
    (hsets : s'.sets rule.rpmKey = s.sets rule.rpmKey) (hsub : l ⊆ l') :
    Stocked rule limit offset s' l' := fun cell hcell =>
  (h cell (hsets ▸ hcell)).shrink (List.Sublist.refl _) rfl hsub

/-- The set as a check finds it. -/
theorem freshSet_eq (s : State) (key : Key) (bound : Int) : s.freshSet key bound = [] ∨
    ∃ cell, s.sets key = some cell ∧ cell.live s.time = true ∧
      s.freshSet key bound = cell.val.dropUpTo bound := by
  cases hfind : s.sets.find s.time key with
  | none =>
    left
    unfold State.freshSet Table.get
    rw [hfind]
    rfl
  | some cell =>
    obtain ⟨hcell, hlive⟩ := Table.find_eq_some.1 hfind
    refine .inr ⟨cell, hcell, hlive, ?_⟩
    unfold State.freshSet Table.get
    rw [hfind]
    rfl

theorem Stocked.check_granted {member : String} {r : Except RedisError (Bool × Int × Int × Int)}
    (h : Stocked rule limit offset s l) (hl : ∀ e ∈ l, e.1 ≤ t) (hlow : t + offset ≤ s.time)
    (hroom : ((s.freshSet rule.rpmKey (t - 60000)).card : Int) < limit) :
    Stocked rule limit offset
      (s.addMember rule.rpmKey (s.freshSet rule.rpmKey (t - 60000)) member t (60000 + 1000))
      ((t, ⟨.rpmCheck rule.rpmKey t 60000 limit member, r⟩) :: l) := by
  have hstamped : ∀ x ∈ s.freshSet rule.rpmKey (t - 60000), ∃ e ∈ l, e.1 = x.2 := by
    intro x hx
    rcases freshSet_eq s rule.rpmKey (t - 60000) with hnil | ⟨cell, hcell, -, hval⟩
    · rw [hnil] at hx
      cases hx
    · rw [hval] at hx
      exact (h cell hcell).stamped x (List.filter_sublist.subset hx)
  intro cell hcell
  obtain rfl : _ = cell := Option.some.inj (Table.set_self.symm.trans hcell)
  refine ⟨?_, ?_, _, rfl, ?_⟩
  · have hrem := List.length_filter_le (fun x : String × Int => decide (x.1 ≠ member))
      (s.freshSet rule.rpmKey (t - 60000))
    simp only [ZSet.card, ZSet.add, ZSet.rem, List.length_cons] at hroom ⊢
    omega
  · intro x hx
    rcases List.mem_cons.1 hx with rfl | hx
    · exact ⟨_, List.mem_cons_self, rfl⟩
    · obtain ⟨e, he, hstamp⟩ := hstamped x (List.filter_sublist.subset hx)
      exact ⟨e, List.mem_cons_of_mem _ he, hstamp⟩
  · intro x hx
    have hle : x.2 ≤ t := by
      rcases List.mem_cons.1 hx with rfl | hx
      · exact le_refl _
      · obtain ⟨e, he, hstamp⟩ := hstamped x (List.filter_sublist.subset hx)
        exact hstamp ▸ hl e he
    push_cast
    omega

theorem Stocked.step {c : Cmd} {r : c.Resp} (hrule : rule.rpmLimit = some limit)
    (h : Stocked rule limit offset s l) (hl : ∀ e ∈ l, e.1 ≤ t)
    (hE : Synced rule offset t c s r s') : Stocked rule limit offset s' ((t, ⟨c, r⟩) :: l) := by
  obtain ⟨hlow, -, hissued, hstep⟩ := hE
  by_cases hkey : c.setKey = some rule.rpmKey
  · cases c with
    | rpmCheck k now windowMs limit' member =>
      cases hkey
      obtain ⟨rfl, rfl, hlimit⟩ := hissued.rpmCheck.2.2 rfl
      cases hrule.symm.trans hlimit
      rcases lt_or_ge ((s.freshSet rule.rpmKey (now - 60000)).card : Int) limit with hroom | hfull
      · rw [rpmCheck_granted hroom] at hstep
        obtain ⟨rfl, rfl⟩ := Prod.mk.inj hstep
        exact h.check_granted hl hlow hroom
      · rw [rpmCheck_denied hfull] at hstep
        obtain ⟨rfl, rfl⟩ := Prod.mk.inj hstep
        intro cell hcell
        obtain ⟨old, hold, hexpires, hval⟩ := dropStale_cell hcell
        exact (h old hold).shrink (hval ▸ List.filter_sublist) hexpires (List.subset_cons_self _ _)
    | zrem k member =>
      cases hkey
      obtain rfl : s' = ((Cmd.zrem rule.rpmKey member).run s).2 := congrArg Prod.snd hstep
      intro cell hcell
      obtain ⟨old, hold, hexpires, hval⟩ := zrem_cell hcell
      exact (h old hold).shrink (hval ▸ List.filter_sublist) hexpires (List.subset_cons_self _ _)
    | concurrentCheck k now limit' member timeoutMs =>
      cases hkey
      exact absurd rfl (hissued.concurrentCheck.2.1 _ _)
    | tpmCheck => cases hkey
    | tpmSettle => cases hkey
    | emergencyAdmit => cases hkey
  · obtain rfl : s' = (c.run s).2 := congrArg Prod.snd hstep
    exact h.frame (sets_run_ne hkey) (List.subset_cons_self _ _)

theorem stocked (hrule : rule.rpmLimit = some limit) (hempty : s₀.sets rule.rpmKey = none)
    (hrun : Timeline (Synced rule offset) Passes s₀ s l) : Stocked rule limit offset s l := by
  refine hrun.invariant (J := fun s l => Stocked rule limit offset s l) (fun cell hcell => ?_)
    (fun h hl hE => h.step hrule hl hE) fun h he => ?_
  · rw [hempty] at hcell
    cases hcell
  · obtain ⟨d, rfl⟩ := he
    exact h.frame rfl (List.Subset.refl _)

/-! ## The set while nothing is admitted -/

/-- An admission at `key`, or a rollback there. -/
def Changes (key : Key) : Event Cmd Cmd.Resp → Prop
  | ⟨.rpmCheck k _ _ _ _, answer⟩ => k = key ∧ granted answer = true
  | ⟨.zrem k _, _⟩ => k = key
  | _ => False

/-- The commands that neither admit a request of the rule nor take one back. -/
def Waiting (rule : Rule) (offset : Int) (t : Int) : Sem Cmd Cmd.Resp State :=
  fun c s r s' => Synced rule offset t c s r s' ∧ ¬ Changes rule.rpmKey ⟨c, r⟩

/-- They leave the set, or trim it. -/
theorem Waiting.sets {c : Cmd} {r : c.Resp} (hE : Waiting rule offset t c s r s') :
    s'.sets rule.rpmKey = s.sets rule.rpmKey ∨
      s'.sets rule.rpmKey = (s.dropStale rule.rpmKey (t - 60000)).sets rule.rpmKey := by
  obtain ⟨⟨-, -, hissued, hstep⟩, hquiet⟩ := hE
  by_cases hkey : c.setKey = some rule.rpmKey
  · cases c with
    | rpmCheck k now windowMs limit member =>
      cases hkey
      obtain ⟨rfl, rfl, -⟩ := hissued.rpmCheck.2.2 rfl
      rcases lt_or_ge ((s.freshSet rule.rpmKey (now - 60000)).card : Int) limit with hroom | hfull
      · rw [rpmCheck_granted hroom] at hstep
        obtain ⟨rfl, rfl⟩ := Prod.mk.inj hstep
        exact absurd ⟨rfl, rfl⟩ hquiet
      · rw [rpmCheck_denied hfull] at hstep
        obtain ⟨rfl, rfl⟩ := Prod.mk.inj hstep
        exact .inr rfl
    | zrem k member =>
      cases hkey
      exact absurd rfl hquiet
    | concurrentCheck k now limit member timeoutMs =>
      cases hkey
      exact absurd rfl (hissued.concurrentCheck.2.1 _ _)
    | tpmCheck => cases hkey
    | tpmSettle => cases hkey
    | emergencyAdmit => cases hkey
  · obtain rfl : s' = (c.run s).2 := congrArg Prod.snd hstep
    exact .inl (sets_run_ne hkey)

section

variable {z : ZSet String} {d : Nat} {oldest : Int}

/-- Nothing is added to the set. -/
theorem waiting_shrinks (hz : s₀.sets rule.rpmKey = some ⟨z, some d⟩)
    (hrun : Timeline (Waiting rule offset) Passes s₀ s l) :
    ∀ cell, s.sets rule.rpmKey = some cell → cell.val.Sublist z := by
  refine hrun.invariant (J := fun s _ => ∀ cell, s.sets rule.rpmKey = some cell → cell.val.Sublist z)
    (fun cell hcell => ?_) (fun ih _ hE cell hcell => ?_) fun ih he => ?_
  · rw [hz] at hcell
    cases hcell
    exact List.Sublist.refl _
  · rcases hE.sets with hsets | hsets
    · exact ih cell (hsets ▸ hcell)
    · rw [hsets] at hcell
      obtain ⟨old, hold, -, hval⟩ := dropStale_cell hcell
      rw [hval]
      exact List.filter_sublist.trans (ih old hold)
  · obtain ⟨d, rfl⟩ := he
    exact ih

theorem dropUpTo_of_lowest {bound : Int} (hlow : ∀ x ∈ z, oldest ≤ x.2) (h : bound < oldest) :
    z.dropUpTo bound = z :=
  List.filter_eq_self.2 fun x hx => by
    have := hlow x hx
    simp only [decide_eq_true_eq]
    omega

/-- Nothing is dropped from it before the oldest entry ages out. -/
theorem waiting_keeps (hz : s₀.sets rule.rpmKey = some ⟨z, some d⟩) (hne : z ≠ [])
    (hlow : ∀ x ∈ z, oldest ≤ x.2) (hd : oldest + offset + 61000 ≤ d)
    (hrun : Timeline (Waiting rule offset) Passes s₀ s l) (hl : ∀ e ∈ l, e.1 < oldest + 60000) :
    s.sets rule.rpmKey = some ⟨z, some d⟩ := by
  refine hrun.invariant (J := fun s l => (∀ e ∈ l, e.1 < oldest + 60000) →
    s.sets rule.rpmKey = some ⟨z, some d⟩) (fun _ => hz) (fun {s s' l t c r} ih _ hE hl => ?_)
    (fun ih he => ?_) hl
  · have hold := ih fun e he => hl e (List.mem_cons_of_mem _ he)
    have ht : t < oldest + 60000 := hl _ List.mem_cons_self
    rcases hE.sets with hsets | hsets
    · exact hsets.trans hold
    · have htime : s.time ≤ t + offset + 1000 := hE.1.2.1
      have hlive : ∀ e, some d = some e → s.time < e := by
        intro e he
        cases he
        omega
      have hfresh : s.freshSet rule.rpmKey (t - 60000) = z := by
        unfold State.freshSet Table.get
        rw [find_sets hold hlive]
        exact dropUpTo_of_lowest hlow (by omega)
      rw [hsets, dropStale_sets hold hlive (hfresh ▸ hne), hfresh]
  · obtain ⟨d, rfl⟩ := he
    exact ih

end

/-! ## The checks of a single rule -/

section

variable {nowMs estimatedTokens : Int} {member : String} {isStream : Bool}

/-- Seconds until the oldest entry ages out, rounded up. -/
def retryAfter (z : ZSet String) (nowMs : Int) : Int :=
  if 0 ≤ z.lowest.getD (-1) then max 1 ((z.lowest.getD (-1) + 60000 - nowMs + 999) / 1000) else 60

theorem single_denied (hrule : rule.rpmLimit = some limit)
    (hfull : limit ≤ (s.freshSet rule.rpmKey (nowMs - 60000)).card) :
    (checkRateLimits nowMs member estimatedTokens isStream [rule]).eval Cmd.run s =
      ({ allowed := false, rpmRemaining := some 0,
         retryAfterSeconds := some (retryAfter (s.freshSet rule.rpmKey (nowMs - 60000)) nowMs),
         deniedReason := some .rpmExceeded }, s.dropStale rule.rpmKey (nowMs - 60000)) := by
  have hgate : (rpmGate nowMs member rule {}).run.eval Cmd.run s = (.error (.denied {
      allowed := false, rpmRemaining := some 0,
      retryAfterSeconds := some (retryAfter (s.freshSet rule.rpmKey (nowMs - 60000)) nowMs),
      deniedReason := some .rpmExceeded } {}), s.dropStale rule.rpmKey (nowMs - 60000)) := by
    unfold rpmGate
    rw [hrule]
    dsimp only
    rw [eval_gate (Prog.eval_cmd.trans (rpmCheck_denied hfull))]
    rfl
  have hcheck : (checkRule nowMs member estimatedTokens isStream {} rule).run.eval Cmd.run s = _ :=
    Raising.eval_bind_error hgate
  unfold checkRateLimits
  rw [Prog.eval_bind, List.foldlM_cons, Raising.eval_bind_error hcheck]
  rfl

/-- A denial of the other two gates of a rule. -/
def OtherDenial (rule : Rule) (result : CheckResult) : Prop :=
  result.deniedReason ≠ some .rpmExceeded ∧ ¬ (rule.tpmLimit = none ∧ rule.maxConcurrent = none)

theorem tpmGate_other {acquired : Acquired} :
    EndsIn (fun result _ _ => OtherDenial rule result) (fun _ _ => True)
      ((tpmGate nowMs estimatedTokens rule acquired).run.eval Cmd.run s) := by
  unfold tpmGate
  cases hlimit : rule.tpmLimit with
  | none => exact trivial
  | some tpmLimit =>
    dsimp only
    split
    · refine endsIn_gate (.tpmCheck rule.tpmKey nowMs (rule.burst tpmLimit) estimatedTokens tpmLimit
        tpmBucketTtlMs) acquired (Prod.ext rfl rfl) (fun _ => ⟨_, rfl, trivial⟩) fun _ => ⟨_, rfl, ?_⟩
      exact ⟨nofun, fun h => by rw [hlimit] at h; cases h.1⟩
    · exact trivial

theorem concurrentGate_other {acquired : Acquired} :
    EndsIn (fun result _ _ => OtherDenial rule result) (fun _ _ => True)
      ((concurrentGate nowMs member isStream rule acquired).run.eval Cmd.run s) := by
  unfold concurrentGate
  cases hlimit : rule.maxConcurrent with
  | none => exact trivial
  | some maxConcurrent =>
    dsimp only
    split
    · refine endsIn_gate (.concurrentCheck rule.concKey nowMs maxConcurrent member
        (concurrentStaleTimeoutSeconds * 1000)) acquired (Prod.ext rfl rfl)
        (fun _ => ⟨_, rfl, trivial⟩) fun _ => ⟨_, rfl, ?_⟩
      exact ⟨nofun, fun h => by rw [hlimit] at h; cases h.2⟩
    · exact trivial

/-- The RPM gate lets a request through. -/
def PassesRpm (rule : Rule) (result : CheckResult) : Prop :=
  result.deniedReason ≠ some .rpmExceeded ∧
    (rule.tpmLimit = none → rule.maxConcurrent = none → result.allowed = true)

theorem single_granted (hrule : rule.rpmLimit = some limit)
    (hroom : ((s.freshSet rule.rpmKey (nowMs - 60000)).card : Int) < limit) :
    PassesRpm rule
      ((checkRateLimits nowMs member estimatedTokens isStream [rule]).eval Cmd.run s).1 := by
  have hgate : ∃ acquired s', (rpmGate nowMs member rule {}).run.eval Cmd.run s =
      (.ok acquired, s') := by
    unfold rpmGate
    rw [hrule]
    dsimp only
    rw [eval_gate (Prog.eval_cmd.trans (rpmCheck_granted hroom))]
    exact ⟨_, _, rfl⟩
  obtain ⟨acquired, s', hgate⟩ := hgate
  have hgates : EndsIn (fun result _ _ => OtherDenial rule result) (fun _ _ => True)
      (([rule].foldlM (checkRule nowMs member estimatedTokens isStream) {}).run.eval Cmd.run s) := by
    rw [List.foldlM_cons]
    refine endsIn_bind (J := fun _ _ => True) ?_ fun _ _ _ => trivial
    unfold checkRule
    rw [Raising.eval_bind_ok hgate]
    exact endsIn_bind tpmGate_other fun _ _ _ => concurrentGate_other
  unfold checkRateLimits
  rw [Prog.eval_bind]
  generalize ([rule].foldlM (checkRule nowMs member estimatedTokens isStream) {}).run.eval Cmd.run s =
    answer at hgates ⊢
  obtain ⟨(⟨result, acquired⟩ | _) | acquired, s'⟩ := answer
  · dsimp only
    rw [Prog.eval_bind]
    exact ⟨hgates.1, fun htpm hconc => absurd ⟨htpm, hconc⟩ hgates.2⟩
  · exact hgates.elim
  · exact ⟨nofun, fun _ _ => rfl⟩

end

/-! ## The promise -/

/-- A full window and its oldest entry. -/
theorem full_oldest {z : ZSet String} (hne : z ≠ []) :
    ∃ oldest, z.lowest = some oldest ∧ (∃ x ∈ z, x.2 = oldest) ∧ ∀ x ∈ z, oldest ≤ x.2 := by
  cases hlow : z.lowest with
  | none =>
    unfold ZSet.lowest at hlow
    rw [List.min?_eq_none_iff, List.map_eq_nil_iff] at hlow
    exact absurd hlow hne
  | some oldest =>
    obtain ⟨hmem, hle⟩ := List.min?_eq_some_iff.1 hlow
    obtain ⟨x, hx, hscore⟩ := List.mem_map.1 hmem
    exact ⟨oldest, rfl, ⟨x, hx, hscore⟩, fun y hy => hle y.2 (List.mem_map.2 ⟨y, hy, rfl⟩)⟩

/-- The set that a denial leaves. -/
theorem denied_full {now : Int} (hlimit : 1 ≤ limit) (h : Stocked rule limit offset s l)
    (hfull : limit ≤ (s.freshSet rule.rpmKey (now - 60000)).card) :
    ∃ z d, s.freshSet rule.rpmKey (now - 60000) = z ∧ z ≠ [] ∧ (z.card : Int) = limit ∧
      (s.dropStale rule.rpmKey (now - 60000)).sets rule.rpmKey = some ⟨z, some d⟩ ∧
      (∀ x ∈ z, ∃ e ∈ l, e.1 = x.2) ∧ ∀ x ∈ z, x.2 + offset + 61000 ≤ d := by
  have hne : s.freshSet rule.rpmKey (now - 60000) ≠ [] := by
    intro hnil
    rw [hnil] at hfull
    simp only [ZSet.card, List.length_nil] at hfull
    omega
  obtain ⟨⟨z, e⟩, hcell, hlive, hfresh⟩ := (freshSet_eq s rule.rpmKey (now - 60000)).resolve_left hne
  have hsound := h _ hcell
  obtain ⟨d, hd, hout⟩ := hsound.outlives
  dsimp only at hd hout hfresh
  subst hd
  have hlive' : ∀ d', some d = some d' → s.time < d' := by
    intro d' hd'
    cases hd'
    simpa [Cell.live] using hlive
  have hsub : (s.freshSet rule.rpmKey (now - 60000)).Sublist z := hfresh ▸ List.filter_sublist
  refine ⟨_, d, rfl, hne, ?_, dropStale_sets hcell hlive' hne,
    fun x hx => hsound.stamped x (hsub.subset hx), fun x hx => hout x (hsub.subset hx)⟩
  have hcard : (z.card : Int) ≤ limit := hsound.card
  have hle := hsub.length_le
  unfold ZSet.card at hfull hcard ⊢
  omega

/-- A retry-after of `r` seconds is exact: with no admission or rollback in between, a check `r`
seconds later passes the window, and a check up to `r - 1` seconds later is denied again. -/
theorem retry_after_exact {s₁ s₂ : State} {l₂ : Log Int Cmd Cmd.Resp} {now r : Int}
    {member₁ member₂ : String} {tokens₁ tokens₂ : Int} {isStream₁ isStream₂ : Bool}
    {result : CheckResult} (hrule : rule.rpmLimit = some limit) (hlimit : 1 ≤ limit)
    (hempty : s₀.sets rule.rpmKey = none) (hrun : Timeline (Synced rule offset) Passes s₀ s l)
    (hclock : ∀ e ∈ l, 0 ≤ e.1)
    (hcheck : (checkRateLimits now member₁ tokens₁ isStream₁ [rule]).eval Cmd.run s = (result, s₁))
    (hreason : result.deniedReason = some .rpmExceeded) (hretry : result.retryAfterSeconds = some r)
    (hwait : Timeline (Waiting rule offset) Passes s₁ s₂ l₂) (hl₂ : ∀ e ∈ l₂, e.1 ≤ t)
    (htime : s₂.time ≤ t + offset + 1000) :
    (now + 1000 * r ≤ t → PassesRpm rule
      ((checkRateLimits t member₂ tokens₂ isStream₂ [rule]).eval Cmd.run s₂).1) ∧
    (1 < r → t ≤ now + 1000 * (r - 1) →
      ((checkRateLimits t member₂ tokens₂ isStream₂ [rule]).eval Cmd.run s₂).1.deniedReason =
        some .rpmExceeded) := by
  have hfull : limit ≤ (s.freshSet rule.rpmKey (now - 60000)).card := by
    by_contra hroom
    have hpass : PassesRpm rule
        ((checkRateLimits now member₁ tokens₁ isStream₁ [rule]).eval Cmd.run s).1 :=
      single_granted hrule (not_le.1 hroom)
    rw [hcheck] at hpass
    exact hpass.1 hreason
  rw [single_denied hrule hfull] at hcheck
  obtain ⟨rfl, rfl⟩ := Prod.mk.inj hcheck
  obtain ⟨z, d, hz, hne, hcard, hset, hstamped, hout⟩ :=
    denied_full hlimit (stocked hrule hempty hrun) hfull
  obtain ⟨oldest, hlowest, ⟨x, hx, hscore⟩, hle⟩ := full_oldest hne
  have hpos : 0 ≤ oldest := by
    obtain ⟨e, he, hstamp⟩ := hstamped x hx
    have := hclock e he
    omega
  have hd : oldest + offset + 61000 ≤ d := hscore ▸ hout x hx
  -- the seconds until the oldest entry ages out
  obtain rfl : max 1 ((oldest + 60000 - now + 999) / 1000) = r := by
    have hr := Option.some.inj hretry
    rw [hz, retryAfter, hlowest, Option.getD_some, if_pos hpos] at hr
    exact hr
  refine ⟨fun ht => single_granted hrule ?_, fun hr ht => ?_⟩
  · have hage : oldest ≤ t - 60000 := by omega
    rcases freshSet_eq s₂ rule.rpmKey (t - 60000) with hnil | ⟨cell, hcell, -, hval⟩
    · rw [hnil]
      simp only [ZSet.card, List.length_nil]
      omega
    · -- the oldest entry is gone
      have hsub := waiting_shrinks hset hwait cell hcell
      have hfewer : (z.dropUpTo (t - 60000)).length < z.length := by
        refine List.length_filter_lt_length_iff_exists.2 ⟨x, hx, ?_⟩
        simp only [decide_eq_true_eq]
        omega
      have hlength := (hsub.filter (fun x => decide (t - 60000 < x.2))).length_le
      rw [hval]
      unfold ZSet.card at hcard ⊢
      unfold ZSet.dropUpTo at hfewer ⊢
      omega
  · have hearly : t < oldest + 60000 := by omega
    have hkept : s₂.sets rule.rpmKey = some ⟨z, some d⟩ := waiting_keeps hset hne hle hd hwait
      fun e he => lt_of_le_of_lt (hl₂ e he) hearly
    have hlive : ∀ e, some d = some e → s₂.time < e := by
      intro e he
      cases he
      omega
    have hfresh : s₂.freshSet rule.rpmKey (t - 60000) = z := by
      unfold State.freshSet Table.get
      rw [find_sets hkept hlive]
      exact dropUpTo_of_lowest hle (by omega)
    rw [single_denied hrule (by rw [hfresh]; exact hcard.ge)]

end

/-- Half a minute after the only admission. -/
def halfMinute : State :=
  { ((Cmd.rpmCheck rpmRule.rpmKey 0 60000 1 "m1").run emptyState).2 with time := 30000 }

/-- What the denial of another request leaves then. -/
def deniedState : State := halfMinute.dropStale rpmRule.rpmKey (30000 - 60000)

/-- It is to come back in 30 seconds: then there is room, and 29 seconds later there is none. -/
theorem retry_after_exact_sample :
    PassesRpm rpmRule ((checkRateLimits 60000 "m3" 100 false [rpmRule]).eval Cmd.run
        deniedState).1 ∧
      ((checkRateLimits 59000 "m3" 100 false [rpmRule]).eval Cmd.run deniedState).1.deniedReason =
        some .rpmExceeded := by
  let admission : Int × Event Cmd Cmd.Resp :=
    (0, ⟨.rpmCheck rpmRule.rpmKey 0 60000 1 "m1", .ok (true, 1, 1, -1)⟩)
  have hfirst : Timeline (Synced rpmRule 0) Passes emptyState _ [admission] :=
    .cmd .start (fun e he => by cases he)
      ⟨by decide, by decide, ⟨rpmRule, fun _ => rfl, rfl, rfl, rfl, rfl⟩, rfl⟩
  have hrun : Timeline (Synced rpmRule 0) Passes emptyState halfMinute [admission] :=
    hfirst.env ⟨30000, rfl⟩
  have hclock : ∀ e ∈ [admission], 0 ≤ e.1 := by
    intro e he
    obtain rfl := List.mem_singleton.1 he
    exact le_refl _
  have hfull : (1 : Int) ≤ (halfMinute.freshSet rpmRule.rpmKey (30000 - 60000)).card := by decide
  have hretry : retryAfter (halfMinute.freshSet rpmRule.rpmKey (30000 - 60000)) 30000 = 30 := by decide
  have hcheck : (checkRateLimits 30000 "m2" 100 false [rpmRule]).eval Cmd.run halfMinute =
      (_, deniedState) := single_denied rfl hfull
  rw [hretry] at hcheck
  have hempty : ∀ t : Int, ∀ e ∈ ([] : Log Int Cmd Cmd.Resp), e.1 ≤ t :=
    fun t e he => absurd he List.not_mem_nil
  constructor
  · exact (retry_after_exact rfl (by decide) rfl hrun hclock hcheck rfl rfl .start (hempty 60000)
      (by decide)).1 (by decide)
  · exact (retry_after_exact rfl (by decide) rfl hrun hclock hcheck rfl rfl .start (hempty 59000)
      (by decide)).2 (by decide) (by decide)

end RateLimit
