import Janus.Snowflake.Generator
import Mathlib.Tactic.Ring

/-!
# Ids of one process

The millisecond and the sequence number of the generator go up with every id (`nextId_ok`), whatever
the clock shows, and they can be read off the id (`decode_encode`). So the ids of a process are
distinct, and in order under one worker id: `next_id_correct`.
-/

set_option autoImplicit false

namespace Snowflake

/-! ## The layout -/

section Layout

variable {now now' : Int} {w w' : WorkerId} {seq seq' : Nat}

/-- The millisecond since the epoch, the worker id and the sequence number. -/
def decode (id : Int) : Int × Int × Int :=
  (id >>> timestampShift, Int.land (id >>> workerIdShift) maxWorkerId, Int.land id maxSequence)

/-- The readings whose millisecond fits into its 41 bits. -/
def InRange (now : Int) : Prop := epochMs ≤ now ∧ now < epochMs + 2 ^ 41

instance : Decidable (InRange now) := inferInstanceAs (Decidable (_ ∧ _))

/-- The low bits that a shift leaves free. -/
theorem lor_shiftLeft {a : Int} {k b : Nat} (hb : b < 2 ^ k) :
    Int.lor (a <<< k) (b : Int) = a * 2 ^ k + b := by
  cases a with
  | ofNat a =>
    show ((a <<< k ||| b : Nat) : Int) = _
    rw [← Nat.shiftLeft_add_eq_or_of_lt hb, Nat.shiftLeft_eq]
    push_cast
    rfl
  | negSucc n =>
    have hones : ((2 ^ k * n + (2 ^ k - 1) : Nat) : Int) = 2 ^ k * n + (2 ^ k - 1) := by
      push_cast [Nat.cast_sub (show 1 ≤ 2 ^ k from Nat.one_le_two_pow)]
      rfl
    have hshift : Int.negSucc n <<< k = Int.negSucc (2 ^ k * n + (2 ^ k - 1)) := by
      rw [Int.shiftLeft_eq, Int.negSucc_eq, Int.negSucc_eq, hones]
      ring
    -- clearing the bits of `b` takes `b` away
    have hlow : Nat.ldiff (2 ^ k * n + (2 ^ k - 1)) b = 2 ^ k * n + (2 ^ k - (b + 1)) := by
      apply Nat.eq_of_testBit_eq
      intro j
      rw [Nat.testBit_ldiff, Nat.testBit_two_pow_mul_add _ (by omega),
        Nat.testBit_two_pow_mul_add _ (by omega)]
      split
      · rw [Nat.testBit_two_pow_sub_succ hb, Nat.testBit_two_pow_sub_one]
      · next hj =>
        have hhigh : b < 2 ^ j := hb.trans_le (Nat.pow_le_pow_right (by omega) (by omega))
        rw [Nat.testBit_lt_two_pow hhigh]
        simp
    have hrest : ((2 ^ k * n + (2 ^ k - (b + 1)) : Nat) : Int) = 2 ^ k * n + (2 ^ k - (b + 1)) := by
      push_cast [Nat.cast_sub (show b + 1 ≤ 2 ^ k from hb)]
      rfl
    rw [hshift]
    show Int.negSucc (Nat.ldiff (2 ^ k * n + (2 ^ k - 1)) b) = _
    rw [hlow, Int.negSucc_eq, Int.negSucc_eq, hrest]
    ring

/-- The fields of an id do not overlap. -/
theorem encode_eq (hseq : seq ≤ maxSequence) :
    encode now w seq = (now - epochMs) * 2 ^ 22 + w.val * 2 ^ 12 + seq := by
  obtain ⟨b, hb⟩ := Int.eq_ofNat_of_zero_le w.property.1
  have hb' : b < 1024 := by
    have hle := w.property.2
    have hmax : (maxWorkerId : Int) = 1023 := rfl
    omega
  have hseq' : seq < 2 ^ sequenceBits := Nat.lt_succ_of_le hseq
  have hworker : b <<< 12 < 2 ^ timestampShift := by
    show b <<< 12 < 2 ^ 22
    rw [Nat.shiftLeft_eq]
    omega
  have hfirst : Int.lor ((now - epochMs) <<< timestampShift) ((b : Int) <<< workerIdShift) =
      ((now - epochMs) * 2 ^ 10 + b) <<< sequenceBits := by
    show Int.lor ((now - epochMs) <<< timestampShift) ((b <<< 12 : Nat) : Int) = _
    rw [lor_shiftLeft hworker, Int.shiftLeft_eq, Nat.shiftLeft_eq]
    show _ * 2 ^ 22 + _ = _ * 2 ^ 12
    push_cast
    ring
  unfold encode
  rw [hb]
  show Int.lor (Int.lor ((now - epochMs) <<< timestampShift) ((b : Int) <<< workerIdShift)) seq = _
  rw [hfirst, lor_shiftLeft hseq']
  show _ * 2 ^ 12 + _ = _
  ring

theorem encode_bounds (hnow : InRange now) (hseq : seq ≤ maxSequence) :
    0 ≤ encode now w seq ∧ encode now w seq < 2 ^ 63 := by
  rw [encode_eq hseq]
  obtain ⟨hlow, hhigh⟩ := hnow
  obtain ⟨hw, hw'⟩ := w.property
  have hmaxw : (maxWorkerId : Int) = 1023 := rfl
  have hseq' : (seq : Int) ≤ 4095 := by exact_mod_cast hseq
  omega

/-- Ids are different as soon as one of their fields is, whatever the clocks show. -/
theorem encode_inj (hseq : seq ≤ maxSequence) (hseq' : seq' ≤ maxSequence)
    (h : encode now w seq = encode now' w' seq') : now = now' ∧ w = w' ∧ seq = seq' := by
  rw [encode_eq hseq, encode_eq hseq'] at h
  have hmaxw : (maxWorkerId : Int) = 1023 := rfl
  have hmaxs : maxSequence = 4095 := rfl
  obtain ⟨hw, hw'⟩ := w.property
  obtain ⟨hv, hv'⟩ := w'.property
  have hfields : now = now' ∧ w.val = w'.val ∧ seq = seq' := by omega
  exact ⟨hfields.1, Subtype.ext hfields.2.1, hfields.2.2⟩

theorem decode_encode (hnow : InRange now) (hseq : seq ≤ maxSequence) :
    decode (encode now w seq) = (now - epochMs, w.val, (seq : Int)) := by
  obtain ⟨a, ha⟩ := Int.eq_ofNat_of_zero_le (show 0 ≤ now - epochMs by have := hnow.1; omega)
  obtain ⟨b, hb⟩ := Int.eq_ofNat_of_zero_le w.property.1
  have hb' : b < 1024 := by
    have hle := w.property.2
    have hmaxw : (maxWorkerId : Int) = 1023 := rfl
    omega
  have hseq' : seq < 4096 := Nat.lt_succ_of_le hseq
  have hid : encode now w seq = ((a * 2 ^ 22 + b * 2 ^ 12 + seq : Nat) : Int) := by
    rw [encode_eq hseq, ha, hb]
    push_cast
    rfl
  generalize hn : a * 2 ^ 22 + b * 2 ^ 12 + seq = n at hid
  have htime : n >>> 22 = a := by
    rw [Nat.shiftRight_eq_div_pow]
    omega
  have hworker : n >>> 12 &&& (2 ^ 10 - 1) = b := by
    rw [Nat.and_two_pow_sub_one_eq_mod, Nat.shiftRight_eq_div_pow]
    omega
  have hsequence : n &&& (2 ^ 12 - 1) = seq := by
    rw [Nat.and_two_pow_sub_one_eq_mod]
    omega
  unfold decode
  rw [hid, ha, hb]
  show (((n >>> 22 : Nat) : Int), ((n >>> 12 &&& (2 ^ 10 - 1) : Nat) : Int),
    ((n &&& (2 ^ 12 - 1) : Nat) : Int)) = _
  rw [htime, hworker, hsequence]

end Layout

/-! ## One call -/

section Call

variable {g g' : Generator} {readings later : List Int} {again : Int → Bool} {now now' id : Int}
  {e : Error}

theorem waitWhile_eq (h : waitWhile again now readings = some (now', later)) :
    now' ∈ now :: readings ∧ again now' = false ∧ later <:+ readings := by
  induction readings generalizing now with
  | nil =>
    unfold waitWhile at h
    split at h
    · cases h
    · next hstop =>
      cases h
      exact ⟨List.mem_cons_self, by simpa using hstop, List.suffix_refl _⟩
  | cons next readings ih =>
    unfold waitWhile at h
    split at h
    · obtain ⟨hmem, hstop, hlater⟩ := ih h
      exact ⟨List.mem_cons_of_mem _ hmem, hstop, hlater.trans (List.suffix_cons _ _)⟩
    · next hstop =>
      cases h
      exact ⟨List.mem_cons_self, by simpa using hstop, List.suffix_refl _⟩

/-- The millisecond and the sequence number go up. -/
def Later (g g' : Generator) : Prop :=
  g.lastMs < g'.lastMs ∨ g.lastMs = g'.lastMs ∧ g.sequence < g'.sequence

theorem Later.trans {g'' : Generator} (h : Later g g') (h' : Later g' g'') : Later g g'' := by
  unfold Later at *
  omega

theorem nextSequence_eq (h : nextSequence g ≠ 0) : nextSequence g = g.sequence + 1 := by
  have hle : g.sequence ≤ 4095 := g.sequence_le
  have hmod : nextSequence g = (g.sequence + 1) % 2 ^ 12 :=
    Nat.and_two_pow_sub_one_eq_mod (g.sequence + 1) 12
  omega

/-- What a call that returns an id has done. -/
structure Minted (g g' : Generator) (readings : List Int) (id : Int) : Prop where
  clock : g'.lastMs ∈ readings
  worker : g'.workerId = g.workerId
  later : Later g g'
  eq : id = encode g'.lastMs g.workerId g'.sequence

theorem nextId_ok (h : nextId g readings = some (.ok id, g', later)) :
    Minted g g' readings id ∧ later <:+ readings := by
  cases readings with
  | nil => cases h
  | cons first readings =>
    unfold nextId at h
    dsimp only at h
    split at h
    · cases h
    · cases hwait : waitWhile (· < g.lastMs) first readings with
      | none =>
        rw [hwait] at h
        cases h
      | some waited =>
        obtain ⟨now, rest⟩ := waited
        obtain ⟨hmem, hstop, hrest⟩ := waitWhile_eq hwait
        have hge : g.lastMs ≤ now := by simpa using hstop
        have hsuffix : rest <:+ first :: readings := hrest.trans (List.suffix_cons _ _)
        rw [hwait] at h
        change (if now = g.lastMs then _ else _) = _ at h
        by_cases hsame : now = g.lastMs
        · rw [if_pos hsame] at h
          by_cases hfull : nextSequence g = 0
          · rw [if_pos hfull] at h
            cases hspin : waitWhile (· ≤ g.lastMs) now rest with
            | none =>
              rw [hspin] at h
              cases h
            | some spun =>
              obtain ⟨now', rest'⟩ := spun
              obtain ⟨hmem', hstop', hrest'⟩ := waitWhile_eq hspin
              have hlt : g.lastMs < now' := by simpa using hstop'
              rw [hspin] at h
              cases h
              refine ⟨⟨?_, rfl, .inl hlt, rfl⟩, hrest'.trans hsuffix⟩
              rcases List.mem_cons.1 hmem' with heq | hmem'
              · rw [heq]
                exact hmem
              · exact hsuffix.subset hmem'
          · rw [if_neg hfull] at h
            cases h
            refine ⟨⟨hmem, rfl, .inr ⟨hsame.symm, ?_⟩, rfl⟩, hsuffix⟩
            show g.sequence < nextSequence g
            rw [nextSequence_eq hfull]
            omega
        · rw [if_neg hsame] at h
          cases h
          refine ⟨⟨hmem, rfl, .inl ?_, rfl⟩, hsuffix⟩
          show g.lastMs < now
          omega

/-- A call that raises leaves everything as it was. -/
theorem nextId_error (h : nextId g readings = some (.error e, g', later)) :
    g' = g ∧ later <:+ readings := by
  cases readings with
  | nil => cases h
  | cons first readings =>
    unfold nextId at h
    dsimp only at h
    split at h
    · cases h
      exact ⟨rfl, List.suffix_cons _ _⟩
    · cases hwait : waitWhile (· < g.lastMs) first readings with
      | none =>
        rw [hwait] at h
        cases h
      | some waited =>
        obtain ⟨now, rest⟩ := waited
        rw [hwait] at h
        change (if now = g.lastMs then _ else _) = _ at h
        split at h
        · split at h
          · cases hspin : waitWhile (· ≤ g.lastMs) now rest with
            | none =>
              rw [hspin] at h
              cases h
            | some spun =>
              rw [hspin] at h
              cases h
          · cases h
        · cases h

theorem setWorkerId_ok {workerId : Int} (h : setWorkerId g workerId = .ok g') :
    g'.workerId.val = workerId ∧ g'.lastMs = g.lastMs ∧ g'.sequence = g.sequence := by
  unfold setWorkerId at h
  split at h
  · cases h
    exact ⟨rfl, rfl, rfl⟩
  · cases h

/-- What a call has done. -/
inductive Called (readings : List Int) : Done → Prop
  | minted {g g' : Generator} {id : Int} : Minted g g' readings id →
      Called readings ⟨g, .nextId, .ok (some id), g'⟩
  | pinned {g g' : Generator} {workerId : Int} : g'.workerId.val = workerId →
      g'.lastMs = g.lastMs → g'.sequence = g.sequence →
      Called readings ⟨g, .setWorkerId workerId, .ok none, g'⟩
  | raised {g : Generator} {call : Call} {e : Error} : Called readings ⟨g, call, .error e, g⟩

theorem Call.exec_called {call : Call} {done : Done} (h : call.exec g readings = some (done, later)) :
    done.before = g ∧ Called readings done ∧ later <:+ readings := by
  cases call with
  | nextId =>
    unfold Call.exec at h
    cases hnext : Snowflake.nextId g readings with
    | none =>
      rw [hnext] at h
      cases h
    | some result =>
      obtain ⟨answer, g', rest⟩ := result
      rw [hnext] at h
      cases answer with
      | ok id =>
        cases h
        obtain ⟨hminted, hrest⟩ := nextId_ok hnext
        exact ⟨rfl, .minted hminted, hrest⟩
      | error e =>
        cases h
        obtain ⟨rfl, hrest⟩ := nextId_error hnext
        exact ⟨rfl, .raised, hrest⟩
  | setWorkerId workerId =>
    unfold Call.exec at h
    dsimp only at h
    cases hset : Snowflake.setWorkerId g workerId with
    | ok g' =>
      rw [hset] at h
      cases h
      obtain ⟨hworker, hms, hseq⟩ := setWorkerId_ok hset
      exact ⟨rfl, .pinned hworker hms hseq, List.suffix_refl _⟩
    | error e =>
      rw [hset] at h
      cases h
      exact ⟨rfl, .raised, List.suffix_refl _⟩

/-- Neither the millisecond nor the sequence number ever goes down. -/
theorem Called.upward {done : Done} (h : Called readings done) : Later done.before done.after ∨
    done.after.lastMs = done.before.lastMs ∧ done.after.sequence = done.before.sequence := by
  cases h with
  | minted hminted => exact .inl hminted.later
  | pinned _ hms hseq => exact .inr ⟨hms, hseq⟩
  | raised => exact .inr ⟨rfl, rfl⟩

end Call

/-! ## Runs -/

section Runs

variable {g : Generator} {calls : List Call} {readings : List Int} {done done' : Done}

/-- Every call of a run, with the readings of the whole run. -/
theorem run_called (hmem : done ∈ run g calls readings) : Called readings done := by
  induction calls generalizing g readings with
  | nil => cases hmem
  | cons call calls ih =>
    unfold run at hmem
    cases hexec : call.exec g readings with
    | none =>
      rw [hexec] at hmem
      cases hmem
    | some result =>
      obtain ⟨first, rest⟩ := result
      obtain ⟨-, hcalled, hrest⟩ := Call.exec_called hexec
      rw [hexec] at hmem
      rcases List.mem_cons.1 hmem with rfl | hmem
      · exact hcalled
      · cases ih hmem with
        | minted hminted =>
          exact .minted ⟨hrest.subset hminted.clock, hminted.worker, hminted.later, hminted.eq⟩
        | pinned hworker hms hseq => exact .pinned hworker hms hseq
        | raised => exact .raised

/-- An id that is minted in a run is later than its start. -/
theorem run_later {id : Int} (hmem : done ∈ run g calls readings)
    (hid : done.answer = .ok (some id)) : Later g done.after := by
  induction calls generalizing g readings with
  | nil => cases hmem
  | cons call calls ih =>
    unfold run at hmem
    cases hexec : call.exec g readings with
    | none =>
      rw [hexec] at hmem
      cases hmem
    | some result =>
      obtain ⟨first, rest⟩ := result
      obtain ⟨rfl, hcalled, -⟩ := Call.exec_called hexec
      rw [hexec] at hmem
      rcases List.mem_cons.1 hmem with rfl | hmem
      · cases hcalled with
        | minted hminted => exact hminted.later
        | pinned _ _ _ => cases hid
        | raised => cases hid
      · have hlater := ih hmem
        rcases hcalled.upward with hfirst | ⟨hms, hseq⟩
        · exact hfirst.trans hlater
        · unfold Later at hlater ⊢
          omega

/-- The ids of a run come in the order of their milliseconds and sequence numbers. -/
theorem run_pairwise : (run g calls readings).Pairwise fun done done' =>
    ∀ id, done'.answer = .ok (some id) → Later done.after done'.after := by
  induction calls generalizing g readings with
  | nil => exact .nil
  | cons call calls ih =>
    unfold run
    cases call.exec g readings with
    | none => exact .nil
    | some result => exact .cons (fun done' hmem id hid => run_later hmem hid) ih

/-- Later ids under one worker id are greater, and later ids are different under any. -/
theorem encode_lt {g g' : Generator} {w w' : WorkerId} (h : Later g g') :
    encode g.lastMs w g.sequence ≠ encode g'.lastMs w' g'.sequence ∧
      (w = w' → encode g.lastMs w g.sequence < encode g'.lastMs w' g'.sequence) := by
  constructor
  · intro heq
    obtain ⟨hms, -, hseq⟩ := encode_inj g.sequence_le g'.sequence_le heq
    unfold Later at h
    omega
  · intro hw
    rw [encode_eq g.sequence_le, encode_eq g'.sequence_le, hw]
    have hle : (g.sequence : Int) ≤ 4095 := by exact_mod_cast g.sequence_le
    unfold Later at h
    omega

/-- The ids of a process, for every sequence of its calls and of the readings of its clock. -/
theorem next_id_correct (hclock : ∀ now ∈ readings, InRange now) :
    (∀ done ∈ run .init calls readings, ∀ id, done.answer = .ok (some id) →
      0 ≤ id ∧ id < 2 ^ 63 ∧ done.after.lastMs ∈ readings ∧
      decode id =
        (done.after.lastMs - epochMs, done.before.workerId.val, (done.after.sequence : Int))) ∧
    (run .init calls readings).Pairwise (fun done done' => ∀ id id',
      done.answer = .ok (some id) → done'.answer = .ok (some id') →
      id ≠ id' ∧ (done.before.workerId = done'.before.workerId → id < id')) ∧
    ∀ done ∈ run .init calls readings, ∀ e, done.answer = .error e →
      done.after.lastMs = done.before.lastMs ∧ done.after.sequence = done.before.sequence := by
  refine ⟨fun done hmem id hid => ?_, ?_, fun done hmem e he => ?_⟩
  · cases run_called hmem with
    | @minted g g' id' hminted =>
      cases hid
      have hrange := hclock _ hminted.clock
      obtain ⟨hlow, hhigh⟩ := encode_bounds (w := g.workerId) hrange g'.sequence_le
      rw [hminted.eq]
      exact ⟨hlow, hhigh, hminted.clock, decode_encode hrange g'.sequence_le⟩
    | pinned _ _ _ => cases hid
    | raised => cases hid
  · refine run_pairwise.imp_of_mem fun {done done'} hmem hmem' hlater id id' hid hid' => ?_
    cases run_called hmem with
    | @minted g₁ g₁' _ hminted =>
      cases run_called hmem' with
      | @minted g₂ g₂' _ hminted' =>
        cases hid
        cases hid'
        rw [hminted.eq, hminted'.eq]
        exact encode_lt (hlater _ rfl)
      | pinned _ _ _ => cases hid'
      | raised => cases hid'
    | pinned _ _ _ => cases hid
    | raised => cases hid
  · cases run_called hmem with
    | minted _ => cases he
    | pinned _ _ _ => cases he
    | raised => exact ⟨rfl, rfl⟩

/-- Two ids in one millisecond, a clock that goes back by a second and a half, and another worker. -/
theorem next_id_correct_rollback :
    (run .init [.nextId, .nextId, .nextId, .setWorkerId 7, .nextId]
      [epochMs + 2000, epochMs + 2000, epochMs + 500, epochMs + 1999, epochMs + 2000]).map
        (·.answer) = [.ok (some (2000 * 2 ^ 22)), .ok (some (2000 * 2 ^ 22 + 1)),
          .error (.clockRollback 1500), .ok none, .ok (some (2000 * 2 ^ 22 + 7 * 2 ^ 12 + 2))] ∧
    (run .init [.nextId, .nextId, .nextId, .setWorkerId 7, .nextId]
      [epochMs + 2000, epochMs + 2000, epochMs + 500, epochMs + 1999, epochMs + 2000]).Pairwise
        (fun done done' => ∀ id id', done.answer = .ok (some id) → done'.answer = .ok (some id') →
          id ≠ id' ∧ (done.before.workerId = done'.before.workerId → id < id')) :=
  ⟨by decide, (next_id_correct (by decide)).2.1⟩

end Runs

end Snowflake
