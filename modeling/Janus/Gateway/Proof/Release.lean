import Janus.Gateway.Proof.Reservations
import Janus.Gateway.Proof.Slots

/-!
# The concurrency slots of a request

The handlers' calls on the limiter run its functions (`limiter`), with everyone else's commands in
between. `slot_released_iff`: exactly when an admitted request has given its slots back in the end.
-/

set_option autoImplicit false

namespace Gateway.Handler

open Conc Janus Python RateLimit Prog

/-- What the calls do to the limiter, without a Redis failure; the others leave it to the
environment. -/
def limiter (evicts : Bool) (m : String) : Sem Cmd Cmd.Resp State
  | .checkRateLimits member estimatedTokens isStream rules, s, r, s' => ∃ nowMs t',
      (RateLimit.checkRateLimits nowMs member estimatedTokens isStream rules).Runs sem
        (Others evicts m) s [] r s' t'
  | .settleTpm rules deltaTokens, s, r, s' => ∃ outcome t',
      (settleTpm rules deltaTokens).run.Runs sem (Others evicts m) s [] outcome s' t' ∧
        r = outcome.mapError fun _ => .redis
  | .releaseRpm member rules, s, _, s' => ∃ t',
      (releaseRpm member rules).Runs sem (Others evicts m) s [] () s' t'
  | .releaseConcurrent member rules, s, _, s' => ∃ t',
      (releaseConcurrent member rules).Runs sem (Others evicts m) s [] () s' t'
  | _, s, _, s' => Others evicts m s s'

/-- The request is in no slot of its rules. -/
def SlotFree (w : World) (s : State) : Prop :=
  ∀ rule ∈ w.rules, rule.maxConcurrent.isSome = true → s.score rule.concKey w.member = none

/-- The features that a handler detects after the quota check. -/
def FeaturesPass (logicalModel : LogicalModel) : Request → Prop
  | .messages payload =>
    (requestedFeaturesFromParams payload.messages (payload.nativeParams logicalModel)).isOk
  | .generateContent payload _ =>
    (requestedFeaturesFromParams payload.contents (payload.nativeParams logicalModel)).isOk
  | .responses payload => payload.requestedFeatures.isOk
  | _ => True

/-- The rollback is not cancelled before it has released every slot. -/
def RollbackReleases (w : World) : Prop :=
  w.rollbackCut .settleTpm = none ∧ w.rollbackCut .releaseRpm = none ∧
    slotKeys w.rules ⊆ slotKeys (w.reached .releaseConcurrent)

/-- The request is no stream; or its quota check raises, and the rollback gets to its slots; or its
generator starts and gets its iterator. -/
def SlotReturned (w : World) (request : Request) : Prop :=
  request.stream = false ∨ (∃ e, w.quota = .raises e) ∧ RollbackReleases w ∨
    ∃ q logicalModel u, w.quota = .value q ∧ w.model = .ok logicalModel ∧
      FeaturesPass logicalModel request ∧ w.router = true ∧ w.opened = .value u ∧
      w.starts = true ∧ u.iterError = none

section

variable {w : World}

theorem exitRouter_streamed {exit : Exit} :
    exitRouter w exit = .streamed ↔ w.router = true ∧ exit = .streamed := by
  unfold exitRouter
  split <;> simp [*]

theorem exitHelper_streamed {T : Type} {result : Except Python.Error T} {exit : Exit} :
    exitHelper result exit = .streamed ↔ result.isOk = true ∧ exit = .streamed := by
  unfold exitHelper
  split <;> simp [*]

theorem exitStream_streamed {u : Upstream} :
    exitStream w u = .streamed ↔ w.starts = true ∧ u.iterError = none := by
  unfold exitStream exitIter
  cases w.starts <;> cases u.iterError <;> simp

theorem exitOpened_streamed {exit : Upstream → Exit} :
    exitOpened w.opened exit = .streamed ↔ ∃ u, w.opened = .value u ∧ exit u = .streamed := by
  unfold exitOpened
  cases w.opened <;> simp [Awaited.elim]

theorem exitNative_streamed {features : Except Python.Error (Finset String)}
    {usage : Value → Except Python.Error Usage} :
    exitNative w true features usage = .streamed ↔
      features.isOk = true ∧ w.router = true ∧
        ∃ u, w.opened = .value u ∧ w.starts = true ∧ u.iterError = none := by
  simp only [exitNative, if_true, exitRouter_streamed, exitOpened_streamed, exitHelper_streamed,
    exitStream_streamed]
  constructor
  · intro h
    obtain ⟨hr, u, hu, hf, hstart⟩ := h
    exact ⟨hf, hr, u, hu, hstart⟩
  · intro h
    obtain ⟨hf, hr, u, hu, hstart⟩ := h
    exact ⟨hr, u, hu, hf, hstart⟩

/-- After the quota check, a stream's cleanup is reached when nothing raises before it. -/
theorem exit_streamed {logicalModel : LogicalModel} {request : Request} {q : QuotaCheckResult}
    (hq : w.quota = .value q) (hs : request.stream = true) :
    exit w logicalModel request = .streamed ↔
      FeaturesPass logicalModel request ∧ w.router = true ∧
        ∃ u, w.opened = .value u ∧ w.starts = true ∧ u.iterError = none := by
  unfold exit exitQuota
  rw [hq]
  simp only [Awaited.elim]
  cases request with
  | chatCompletions payload =>
    have hst : payload.stream = true := hs
    simp [exitCompletion, isCacheableRequest, hst, exitRouter_streamed, exitOpened_streamed,
      exitStream_streamed, FeaturesPass, pure, Except.pure]
  | messages payload =>
    have hst : payload.stream = true := hs
    dsimp only
    rw [hst, exitNative_streamed]
    rfl
  | generateContent payload stream =>
    have hst : stream = true := hs
    dsimp only
    rw [hst, exitNative_streamed]
    rfl
  | responses payload =>
    have hst : payload.stream = true := hs
    simp only [exitResponses, hst, if_true, exitHelper_streamed, FeaturesPass]
    refine and_congr_right fun _ => ?_
    cases hr : w.router with
    | true => simp [exitOpened_streamed, exitStream_streamed]
    | false => simp
  | embeddings payload => cases hs

end

/-! ## The state of the limiter along a run -/

/-- The request was let in. -/
def CheckedIn (w : World) (stream : Bool) (t : Calls) : Prop :=
  ∃ estimatedTokens r, (⟨.checkRateLimits w.member estimatedTokens stream w.rules, r⟩ :
    Event Cmd Cmd.Resp) ∈ t ∧ r.allowed = true

/-- The rules whose slots a call releases. -/
def Cmd.released : Cmd → List Rule
  | .releaseConcurrent _ rules => rules
  | _ => []

/-- The slots that the calls `t` of a stream have taken and not released. -/
def taken (w : World) (t : Calls) : Set RateLimit.Key :=
  slotKeys w.rules \ slotKeys (t.flatMap (·.cmd.released))

/-- What the limiter holds of a stream after the calls `t`. -/
def SlotInv (evicts : Bool) (w : World) (s : State) (t : Calls) : Prop :=
  InSlots evicts w.member {key | t ≠ [] ∧ key ∈ taken w t} {key | CheckedIn w true t ∧ key ∈ taken w t} s

section

variable {evicts : Bool} {w : World} {s s' : State} {t : Calls} {stream : Bool}

theorem taken_cons {c : Cmd} {r : c.Resp} :
    taken w (⟨c, r⟩ :: t) = taken w t \ slotKeys c.released := by
  unfold taken
  rw [List.flatMap_cons, slotKeys_append, Set.union_comm, Set.sdiff_sdiff]

theorem CheckedIn.of_cons {c : Cmd} {r : c.Resp} (h : CheckedIn w stream (⟨c, r⟩ :: t))
    (hc : ∀ estimatedTokens, c ≠ .checkRateLimits w.member estimatedTokens stream w.rules) :
    CheckedIn w stream t := by
  obtain ⟨estimatedTokens, result, hmem, hallowed⟩ := h
  rcases List.mem_cons.1 hmem with heq | hmem
  · cases heq
    exact absurd rfl (hc estimatedTokens)
  · exact ⟨estimatedTokens, result, hmem, hallowed⟩

/-- A call that the slots cannot tell from somebody else's. -/
theorem SlotInv.aside {c : Cmd} {r : c.Resp} (h : SlotInv evicts w s t) (hk : c.released = [])
    (hc : ∀ estimatedTokens, c ≠ .checkRateLimits w.member estimatedTokens true w.rules)
    (hkeep : ∀ P, Stable (Others evicts w.member) P → P s → P s') :
    SlotInv evicts w s' (⟨c, r⟩ :: t) := by
  refine (hkeep _ inSlots_stable h).mono ?_ ?_
  · rw [taken_cons, hk, slotKeys_nil, Set.sdiff_empty]
    exact fun key hkey => ⟨List.cons_ne_nil _ _, hkey.2⟩
  · rw [taken_cons, hk, slotKeys_nil, Set.sdiff_empty]
    exact fun key hkey => ⟨hkey.1.of_cons hc, hkey.2⟩

/-- What the limiter's functions keep of the slots. -/
theorem SlotInv.cmd {c : Cmd} {r : c.Resp} (h : SlotInv evicts w s t) (hown : Own w true t c)
    (hE : limiter evicts w.member c s r s') : SlotInv evicts w s' (⟨c, r⟩ :: t) := by
  cases c with
  | checkRateLimits member estimatedTokens isStream rules =>
    obtain ⟨rfl, rfl, rfl, rfl⟩ := hown
    obtain ⟨nowMs, t', hrun⟩ := hE
    have habsent : Absent w.member s :=
      InSlots.absent (h.mono (fun key hkey => hkey.1 rfl) (Set.empty_subset _))
    obtain ⟨hwithin, hholds⟩ := checkRateLimits_triple habsent hrun
    have htaken : taken w [⟨.checkRateLimits w.member estimatedTokens true w.rules, r⟩] =
        slotKeys w.rules := by
      simp [taken, Cmd.released, slotKeys_nil]
    unfold SlotInv
    rw [htaken]
    refine ⟨fun key hk hs => ⟨List.cons_ne_nil _ _, hwithin key hk hs⟩, fun hq key hkey _ => ?_⟩
    obtain ⟨⟨estimated, result, hmem, hallowed⟩, rule, hrule, hlimit, rfl⟩ := hkey
    cases List.mem_singleton.1 hmem
    exact hholds hallowed hq rule hrule hlimit
  | releaseConcurrent member rules =>
    obtain ⟨rfl, -⟩ := hown
    obtain ⟨t', hrun⟩ := hE
    refine (releaseConcurrent_inSlots h hrun).mono ?_ ?_
    · rw [taken_cons]
      exact fun key hkey => ⟨List.cons_ne_nil _ _, hkey.1.2, hkey.2⟩
    · rw [taken_cons]
      exact fun key hkey => ⟨⟨hkey.1.of_cons fun _ hc => (by cases hc), hkey.2.1⟩, hkey.2.2⟩
  | releaseRpm member rules =>
    obtain ⟨t', hrun⟩ := hE
    refine h.aside rfl (fun _ hc => by cases hc) fun P hP hs => ?_
    exact inert_triple releaseRpm_inert hP hs hrun
  | settleTpm rules deltaTokens =>
    obtain ⟨outcome, t', hrun, -⟩ := hE
    refine h.aside rfl (fun _ hc => by cases hc) fun P hP hs => ?_
    exact inert_triple settleTpm_inert hP hs hrun
  | _ => exact h.aside rfl (fun _ hc => by cases hc) fun P hP hs => hP hs hE

/-- A request that is no stream never takes a slot. -/
theorem absent_cmd {c : Cmd} {r : c.Resp} (h : Absent w.member s) (hown : Own w false t c)
    (hE : limiter evicts w.member c s r s') : Absent w.member s' := by
  cases c with
  | checkRateLimits member estimatedTokens isStream rules =>
    obtain ⟨-, rfl, rfl, -⟩ := hown
    obtain ⟨nowMs, t', hrun⟩ := hE
    exact checkRateLimits_absent h hrun
  | releaseConcurrent member rules =>
    obtain ⟨rfl, -⟩ := hown
    obtain ⟨t', hrun⟩ := hE
    exact releaseConcurrent_triple (h.within : Within w.member rules s) hrun
  | releaseRpm member rules =>
    obtain ⟨t', hrun⟩ := hE
    exact inert_triple releaseRpm_inert absent_stable h hrun
  | settleTpm rules deltaTokens =>
    obtain ⟨outcome, t', hrun, -⟩ := hE
    exact inert_triple settleTpm_inert absent_stable h hrun
  | _ => exact h.others hE

/-! ## Which slots are released -/

theorem mem_released (h : Trace.Guarded (Own w stream) t) {rule : Rule} :
    rule ∈ t.flatMap (·.cmd.released) ↔
      1 ≤ calls .slots t ∧ rule ∈ w.named .releaseConcurrent := by
  have hcount : (t.flatMap (·.cmd.released)).count rule =
      calls .slots t * (w.named .releaseConcurrent).count rule :=
    count_named (fun t c hown => by cases c <;> simp_all [Cmd.released, Cmd.kind, Own]) h rule
  rw [← List.count_pos_iff, ← List.count_pos_iff, hcount]
  exact CanonicallyOrderedAdd.mul_pos

/-- The calls have released every slot if there was one, for rules that have them all. -/
theorem taken_eq_empty (h : Trace.Guarded (Own w stream) t)
    (hlimit : ∃ rule ∈ w.rules, rule.maxConcurrent.isSome = true) : taken w t = ∅ ↔
      1 ≤ calls .slots t ∧ slotKeys w.rules ⊆ slotKeys (w.named .releaseConcurrent) := by
  unfold taken
  rw [Set.sdiff_eq_empty]
  constructor
  · intro hall
    obtain ⟨rule, hrule, hmax⟩ := hlimit
    obtain ⟨r, hr, -, -⟩ := hall ⟨rule, hrule, hmax, rfl⟩
    refine ⟨((mem_released h).1 hr).1, fun key hkey => ?_⟩
    obtain ⟨r, hr, hlimit⟩ := hall hkey
    exact ⟨r, ((mem_released h).1 hr).2, hlimit⟩
  · intro hcalled key hkey
    obtain ⟨r, hr, hlimit⟩ := hcalled.2 hkey
    exact ⟨r, (mem_released h).2 ⟨hcalled.1, hr⟩, hlimit⟩

theorem tally_slots {exit : Exit} (hrules : w.rules ≠ []) : 1 ≤ exit.tally w .slots ↔
    exit = .streamed ∨
      exit = .denied ∧ w.rollbackCut .settleTpm = none ∧ w.rollbackCut .releaseRpm = none := by
  cases exit with
  | denied =>
    unfold Exit.tally rollbackTally
    split <;> simp_all [tpmTally, slotsTally]
  | _ =>
    simp [Exit.tally, streamTally, cleanupTally, spawnTally, tpmTally, slotsTally, quotaTally, hrules]

theorem slotReturned_iff {logicalModel : LogicalModel} {request : Request}
    (hm : w.model = .ok logicalModel) (hstream : request.stream = true) :
    SlotReturned w request ↔ exit w logicalModel request = .denied ∧ RollbackReleases w ∨
      exit w logicalModel request = .streamed := by
  constructor
  · intro h
    obtain hno | ⟨⟨e, he⟩, hrollback⟩ | ⟨q, model, u, hq, hm', hf, hr, ho, hst, hi⟩ := h
    · rw [hstream] at hno
      cases hno
    · refine .inl ⟨?_, hrollback⟩
      unfold exit exitQuota
      rw [he]
      rfl
    · rw [hm] at hm'
      cases hm'
      exact .inr ((exit_streamed hq hstream).2 ⟨hf, hr, u, ho, hst, hi⟩)
  · intro h
    rcases h with ⟨h, hrollback⟩ | h
    · exact .inr (.inl ⟨exit_denied h, hrollback⟩)
    · cases hq : w.quota with
      | raises e => simp [exit, exitQuota, hq, Awaited.elim] at h
      | cancelled => simp [exit, exitQuota, hq, Awaited.elim] at h
      | value q =>
        obtain ⟨hf, hr, u, ho, hst, hi⟩ := (exit_streamed hq hstream).1 h
        exact .inr (.inr ⟨q, logicalModel, u, hq, hm, hf, hr, ho, hst, hi⟩)

/-- A stream has released what it took exactly if its slots are returned. -/
theorem taken_eq_empty_iff {logicalModel : LogicalModel} {request : Request}
    (hm : w.model = .ok logicalModel) (hstream : request.stream = true)
    (hguard : Trace.Guarded (Own w stream) t)
    (hcalls : calls .slots t = (exit w logicalModel request).tally w .slots)
    (hlimit : ∃ rule ∈ w.rules, rule.maxConcurrent.isSome = true) :
    taken w t = ∅ ↔ SlotReturned w request := by
  have hrules : w.rules ≠ [] := by
    obtain ⟨rule, hrule, -⟩ := hlimit
    exact List.ne_nil_of_mem hrule
  rw [taken_eq_empty hguard hlimit, hcalls, tally_slots hrules, slotReturned_iff hm hstream]
  constructor
  · intro h
    obtain ⟨hstreamed | ⟨hdenied, hsettle, hrpm⟩, hall⟩ := h
    · exact .inr hstreamed
    · obtain ⟨e, he⟩ := exit_denied hdenied
      rw [← named_raises he] at hall
      exact .inl ⟨hdenied, hsettle, hrpm, hall⟩
  · intro h
    rcases h with ⟨hdenied, hsettle, hrpm, hall⟩ | hstreamed
    · obtain ⟨e, he⟩ := exit_denied hdenied
      rw [named_raises he] at hall
      exact ⟨.inr ⟨hdenied, hsettle, hrpm⟩, hall⟩
    · refine ⟨.inl hstreamed, ?_⟩
      cases hq : w.quota with
      | raises e => simp [exit, exitQuota, hq, Awaited.elim] at hstreamed
      | cancelled => simp [exit, exitQuota, hq, Awaited.elim] at hstreamed
      | value q => rw [← named_value hq]

/-- A request that was let in: where it is no stream, its quota check raises and the rollback is not
cut, or its generator starts, it is in no slot in the end; and in no other case, unless somebody
evicts it. -/
theorem slot_released_iff {request : Request} {outcome : Except Raised Unit}
    (hfresh : Absent w.member s)
    (hrun : (serve w (handle w request)).run.Runs (limiter evicts w.member)
      (Others evicts w.member) s [] outcome s' t)
    (hin : CheckedIn w request.stream t)
    (hlimit : ∃ rule ∈ w.rules, rule.maxConcurrent.isSome = true) :
    (SlotReturned w request → Absent w.member s') ∧
      (evicts = false → SlotFree w s' → SlotReturned w request) := by
  cases hstream : request.stream with
  | false =>
    have habsent : Absent w.member s' :=
      (hrun.invariant (J := fun s _ => Absent w.member s) (serve_accounts request) trivial hfresh
        (fun _ h hown hE => absent_cmd h (hstream ▸ hown) hE) fun h he => h.others he).1
    exact ⟨fun _ => habsent, fun _ _ => .inl hstream⟩
  | true =>
    have hadmitted : ∃ e ∈ t, Admits e := by
      obtain ⟨estimatedTokens, r, hmem, hr⟩ := hin
      exact ⟨_, hmem, hr⟩
    obtain ⟨logicalModel, hm, hcalls⟩ := hrun.post (serve_accounts request) hadmitted
    have hstart : SlotInv evicts w s [] :=
      ⟨fun key hk hs => absurd (hfresh key hk) hs, fun _ _ hkey => by
        obtain ⟨⟨_, _, hmem, _⟩, _⟩ := hkey
        cases hmem⟩
    obtain ⟨hinv, hguard⟩ := hrun.invariant (J := SlotInv evicts w) (serve_accounts request) trivial
      hstart (fun _ h hown hE => h.cmd (hstream ▸ hown) hE) fun h he => inSlots_stable h he
    rw [← taken_eq_empty_iff hm hstream hguard (hcalls .slots) hlimit]
    constructor
    · intro hempty
      refine InSlots.absent (hinv.mono (fun key hkey => ?_) (Set.empty_subset _))
      exact hempty ▸ hkey.2
    · intro hq hfree
      rw [Set.eq_empty_iff_forall_notMem]
      intro key hkey
      obtain ⟨rule, hrule, hmax, rfl⟩ := hkey.1
      exact hinv.all hq _ ⟨hstream ▸ hin, hkey⟩ rfl (hfree rule hrule hmax)

end
/-! ## The slot of a stream without a router -/

def noSlots : State := ⟨0, Redis.Table.empty, Redis.Table.empty, fun _ => none⟩

/-- No deployment is loaded. -/
def routerlessWorld : World := { sampleWorld with router := false }

def emptyStream : Request := .chatCompletions ⟨none, true, [], []⟩

/-- The limiter after the check at its time 0. -/
def afterCheck : CheckResult × State :=
  (RateLimit.checkRateLimits 0 "m1" 100 true [sampleRule]).eval RateLimit.Cmd.run noSlots

def routerlessTrace : Calls :=
  [⟨.checkQuota 100 none, ()⟩, ⟨.checkRateLimits "m1" 100 true [sampleRule], afterCheck.1⟩]

theorem checkedIn_routerless : CheckedIn routerlessWorld true routerlessTrace :=
  ⟨100, afterCheck.1, by simp [routerlessTrace, routerlessWorld, sampleWorld], by decide⟩

theorem runs_routerless :
    (serve routerlessWorld (handle routerlessWorld emptyStream)).run.Runs
      (limiter false "m1") (Others false "m1") noSlots []
      (.error (.exception (.app { code := .modelUnavailable, statusCode := 503 })))
      afterCheck.2 routerlessTrace := by
  have hruns : ∃ t', (RateLimit.checkRateLimits 0 "m1" 100 true [sampleRule]).Runs sem
      (Others false "m1") noSlots [] afterCheck.1 afterCheck.2 t' :=
    runs_eval Others.refl (fun _ _ => rfl) _ _ _
  obtain ⟨t', hcheck⟩ := hruns
  have hquiet : Others false "m1" afterCheck.2 afterCheck.2 := Others.refl _
  exact ⟨noSlots, afterCheck.1, afterCheck.2, Others.refl _, ⟨0, t', hcheck⟩,
    afterCheck.2, (), afterCheck.2, hquiet, hquiet, rfl, rfl, hquiet⟩

/-- `get_router` raises outside the `try`, and the slot stays taken. -/
theorem missing_router_keeps_slot :
    Absent "m1" noSlots ∧
      ∃ outcome s' t, (serve routerlessWorld (handle routerlessWorld emptyStream)).run.Runs
          (limiter false "m1") (Others false "m1") noSlots [] outcome s' t ∧
        CheckedIn routerlessWorld true t ∧ ¬ SlotFree routerlessWorld s' := by
  refine ⟨fun _ _ => rfl, _, _, _, runs_routerless, checkedIn_routerless, fun h => ?_⟩
  exact absurd (h sampleRule (by simp [routerlessWorld, sampleWorld]) rfl) (by decide)

/-- A run of the theorem: what it says of the stream without a router. -/
theorem slot_released_routerless : ¬ SlotFree routerlessWorld afterCheck.2 := by
  intro hfree
  have hreturned := (slot_released_iff (fun _ _ => rfl) runs_routerless checkedIn_routerless
    ⟨sampleRule, by simp [routerlessWorld, sampleWorld], rfl⟩).2 rfl hfree
  obtain hno | ⟨⟨e, he⟩, -⟩ | ⟨q, model, u, -, -, -, hr, -⟩ := hreturned
  · cases hno
  · cases he
  · cases hr

end Gateway.Handler
