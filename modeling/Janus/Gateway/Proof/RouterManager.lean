import Janus.Gateway.RouterManager
import Mathlib.Data.List.Basic
import Mathlib.Order.Basic

/-!
# No invalidation is lost

A signal is served while the event is set or the worker waits for its window to pass, as the worker
then rebuilds later on; and once the worker has started to rebuild after the signal (`Served`).
`signals_answered`: a worker that has nothing to wait for has answered every signal. What it has
built is as new as the signal, unless the rebuild has raised (`router_fresh`).
-/

set_option autoImplicit false

namespace RouterManager

variable {s s' : State} {t : Task} {v : Nat} {before after : List Event}

/-- A rebuild has started since the signal, and has ended in a router as new as the signal or in an
exception. -/
def Done (s : State) (v : Nat) (before : List Event) : Prop :=
  .started ∈ before ∧ (v ≤ s.router ∨ .raised ∈ before)

/-- A rebuild has started since the signal, and goes on with rows as new as the signal. -/
def Underway (s : State) (v : Nat) (before : List Event) : Prop :=
  .started ∈ before ∧ s.worker = .rebuilding ∧
    ∀ w, s.holder = some .worker → s.loaded = some w → v ≤ w

/-- The state of a signal after `v` commits, since which `before` has happened. -/
def Served (s : State) (v : Nat) (before : List Event) : Prop :=
  s.worker = .ended ∨ s.event = true ∨ s.worker = .innerWait ∨ Underway s v before ∨
    Done s v before

/-- The invariant of all interleavings. -/
structure Inv (s : State) : Prop where
  router : s.router ≤ s.version
  loaded : ∀ w, s.loaded = some w → s.router ≤ w ∧ w ≤ s.version
  holder : s.holder = some .worker → s.worker = .rebuilding
  signals : ∀ v, .signal v ∈ s.log → v ≤ s.version
  served : ∀ before v after, s.log = before ++ .signal v :: after → Served s v before

/-- Every signal has been followed by the start of a rebuild. -/
def Answered (log : List Event) : Prop :=
  ∀ before v after, log = before ++ .signal v :: after → .started ∈ before

theorem inv_start (h : State.Start s) : Inv s where
  router := h.router
  loaded w hw := by
    rw [h.loaded] at hw
    cases hw
  holder hheld := by
    rw [h.holder] at hheld
    cases hheld
  signals v hmem := by
    rw [h.log] at hmem
    cases hmem
  served before v after heq := by
    rw [h.log] at heq
    simp at heq

/-! ## Where the worker goes -/

/-- A signal in a longer log is the new event or an older one. -/
theorem split_cons {e : Event} {log : List Event} (h : e :: log = before ++ .signal v :: after) :
    (before = [] ∧ e = .signal v) ∨ ∃ rest, before = e :: rest ∧ log = rest ++ .signal v :: after := by
  cases before with
  | nil =>
    rw [List.nil_append] at h
    exact .inl ⟨rfl, (List.cons.inj h).1⟩
  | cons e' rest =>
    rw [List.cons_append] at h
    obtain ⟨rfl, hrest⟩ := List.cons.inj h
    exact .inr ⟨rest, rfl, hrest⟩

/-- Without the lock the worker may go to wait for its window. -/
theorem Inv.enterInner (h : Inv s) (hfree : s.holder ≠ some .worker) : Inv s.enterInner where
  router := h.router
  loaded := h.loaded
  holder hheld := absurd hheld hfree
  signals := h.signals
  served _ _ _ _ := .inr (.inr (.inl rfl))

/-- It may go to wait for the event once it has done what it was asked to. -/
theorem Inv.enterOuter (h : Inv s) (hfree : s.holder ≠ some .worker)
    (hdone : s.event = false → ∀ before v after, s.log = before ++ .signal v :: after →
      Done s v before) : Inv s.enterOuter := by
  unfold State.enterOuter
  split
  · exact h.enterInner hfree
  · next hevent =>
    have hclear : s.event = false := by simpa using hevent
    exact ⟨h.router, h.loaded, fun hheld => absurd hheld hfree, h.signals,
      fun before v after heq => .inr (.inr (.inr (.inr (hdone hclear before v after heq))))⟩

theorem Inv.startRebuild (h : Inv s) (hfree : s.holder ≠ some .worker) : Inv s.startRebuild where
  router := h.router
  loaded := h.loaded
  holder hheld := absurd hheld hfree
  signals v hmem := by
    rcases List.mem_cons.1 hmem with heq | hmem
    · cases heq
    · exact h.signals v hmem
  served before v after heq := by
    rcases split_cons heq with ⟨-, he⟩ | ⟨rest, rfl, -⟩
    · cases he
    · exact .inr (.inr (.inr (.inl ⟨List.mem_cons_self, rfl, fun w hheld _ => absurd hheld hfree⟩)))

/-! ## The lock -/

@[simp] theorem release_version : (s.release t).version = s.version := by
  unfold State.release
  split <;> rfl

@[simp] theorem release_event : (s.release t).event = s.event := by
  unfold State.release
  split <;> rfl

@[simp] theorem release_worker : (s.release t).worker = s.worker := by
  unfold State.release
  split <;> rfl

@[simp] theorem release_router : (s.release t).router = s.router := by
  unfold State.release
  split <;> rfl

@[simp] theorem release_log : (s.release t).log = s.log := by
  unfold State.release
  split <;> rfl

theorem release_holder : (s.release t).holder ≠ some t := by
  unfold State.release
  split
  · simp
  · next h => exact h

/-- Giving the lock back takes the rows with it. -/
theorem release_cases : ((s.release t).holder = none ∧ (s.release t).loaded = none) ∨
    ((s.release t).holder = s.holder ∧ (s.release t).loaded = s.loaded) := by
  unfold State.release
  split
  · exact .inl ⟨rfl, rfl⟩
  · exact .inr ⟨rfl, rfl⟩

/-- What is underway stays underway when the lock is given back. -/
theorem Underway.release (h : Underway s v before) : Underway (s.release t) v before := by
  refine ⟨h.1, by simpa using h.2.1, fun w hheld hloaded => ?_⟩
  rcases release_cases (s := s) (t := t) with ⟨hnone, -⟩ | ⟨hholder, hsame⟩
  · rw [hnone] at hheld
    cases hheld
  · rw [hholder] at hheld
    rw [hsame] at hloaded
    exact h.2.2 w hheld hloaded

theorem Inv.release (h : Inv s) (t : Task) : Inv (s.release t) where
  router := by simpa using h.router
  loaded w hw := by
    rcases release_cases (s := s) (t := t) with ⟨-, hnone⟩ | ⟨-, hsame⟩
    · rw [hnone] at hw
      cases hw
    · rw [hsame] at hw
      simpa using h.loaded w hw
  holder hheld := by
    rcases release_cases (s := s) (t := t) with ⟨hnone, -⟩ | ⟨hholder, -⟩
    · rw [hnone] at hheld
      cases hheld
    · rw [hholder] at hheld
      simpa using h.holder hheld
  signals := by simpa using h.signals
  served before v after heq := by
    rw [release_log] at heq
    rcases h.served before v after heq with hended | hevent | hinner | hunderway | hdone
    · exact .inl (by simpa using hended)
    · exact .inr (.inl (by simpa using hevent))
    · exact .inr (.inr (.inl (by simpa using hinner)))
    · exact .inr (.inr (.inr (.inl hunderway.release)))
    · exact .inr (.inr (.inr (.inr ⟨hdone.1, by simpa using hdone.2⟩)))

/-! ## Steps -/

/-- A worker that does not rebuild does not have the lock. -/
theorem Inv.free_of_worker (h : Inv s) (hworker : s.worker ≠ .rebuilding) :
    s.holder ≠ some .worker := fun hheld => hworker (h.holder hheld)

theorem Inv.setPolling {polling : Bool} (h : Inv s) : Inv { s with polling } :=
  ⟨h.router, h.loaded, h.holder, h.signals, h.served⟩

/-- A worker that is alive and neither rebuilds nor waits for its window has nothing left to do. -/
theorem Inv.done_of_waiting (h : Inv s) (hended : s.worker ≠ .ended)
    (hinner : s.worker ≠ .innerWait) (hrebuilding : s.worker ≠ .rebuilding)
    (hevent : s.event = false) (hlog : s.log = before ++ .signal v :: after) : Done s v before := by
  rcases h.served before v after hlog with h' | hset | h' | hunderway | hdone
  · exact absurd h' hended
  · rw [hevent] at hset
    cases hset
  · exact absurd h' hinner
  · exact absurd hunderway.2.1 hrebuilding
  · exact hdone

/-- A state that differs only in what the lock protects: it keeps its invariant if the worker's rows
are new enough. -/
theorem Inv.locked {holder : Option Task} {loaded : Option Nat} (h : Inv s)
    (hloaded : ∀ w, loaded = some w → s.router ≤ w ∧ w ≤ s.version)
    (hholder : holder = some .worker → s.worker = .rebuilding)
    (hrows : ∀ w, holder = some .worker → loaded = some w → w = s.version) :
    Inv { s with holder, loaded } where
  router := h.router
  loaded := hloaded
  holder := hholder
  signals := h.signals
  served before v after heq := by
    have hv : v ≤ s.version := h.signals v (by
      have hlog : s.log = before ++ .signal v :: after := heq
      rw [hlog]
      simp)
    rcases h.served before v after heq with hended | hevent | hinner | hunderway | hdone
    · exact .inl hended
    · exact .inr (.inl hevent)
    · exact .inr (.inr (.inl hinner))
    · refine .inr (.inr (.inr (.inl ⟨hunderway.1, hunderway.2.1, fun w hheld hw => ?_⟩)))
      rw [hrows w hheld hw]
      exact hv
    · exact .inr (.inr (.inr (.inr hdone)))

/-- What the worker was rebuilding for is done if it ends with new enough rows or raises. -/
theorem Inv.done_of_ended (h : Inv s) (hworker : s.worker = .rebuilding) (hevent : s.event = false)
    (hlog : s.log = before ++ .signal v :: after) :
    Underway s v before ∨ Done s v before := by
  rcases h.served before v after hlog with hended | hset | hinner | hunderway | hdone
  · rw [hworker] at hended
    cases hended
  · rw [hevent] at hset
    cases hset
  · rw [hworker] at hinner
    cases hinner
  · exact .inl hunderway
  · exact .inr hdone

theorem Inv.finish (h : Inv s) (htask : s.Rebuilding t) (hheld : s.holder = some t)
    (hloaded : s.loaded = some v) :
    Inv ((({ s with router := v } : State).release t).returned t) := by
  obtain ⟨hle, hversion⟩ := h.loaded v hloaded
  have hrouter : Inv { s with router := v } :=
    ⟨hversion, fun w hw => by
      have heq : s.loaded = some w := hw
      rw [hloaded] at heq
      cases heq
      exact ⟨Nat.le_refl _, hversion⟩, h.holder, h.signals, fun before u after heq => by
        rcases h.served before u after heq with hended | hevent | hinner | hunderway | hdone
        · exact .inl hended
        · exact .inr (.inl hevent)
        · exact .inr (.inr (.inl hinner))
        · exact .inr (.inr (.inr (.inl hunderway)))
        · exact .inr (.inr (.inr (.inr ⟨hdone.1, hdone.2.imp_left fun hu => Nat.le_trans hu hle⟩)))⟩
  cases t with
  | worker =>
    refine (hrouter.release .worker).enterOuter release_holder fun hevent before u after hlog => ?_
    rw [release_event] at hevent
    rw [release_log] at hlog
    have hworker : s.worker = .rebuilding := htask
    refine ⟨?_, ?_⟩
    · rcases h.done_of_ended hworker hevent hlog with hunderway | hdone
      · exact hunderway.1
      · exact hdone.1
    · rcases h.done_of_ended hworker hevent hlog with hunderway | hdone
      · exact .inl (by simpa using hunderway.2.2 v hheld hloaded)
      · exact hdone.2.imp_left fun hu => by simpa using Nat.le_trans hu hle
  | poll => exact (hrouter.release .poll).setPolling

/-- An event that is no signal leaves the signals where they are. -/
theorem Inv.logged {e : Event} (h : Inv s) (he : ∀ v, e ≠ .signal v) :
    Inv { s with log := e :: s.log } where
  router := h.router
  loaded := h.loaded
  holder := h.holder
  signals v hmem := by
    rcases List.mem_cons.1 hmem with heq | hmem
    · exact absurd heq.symm (he v)
    · exact h.signals v hmem
  served before v after heq := by
    rcases split_cons heq with ⟨-, hsignal⟩ | ⟨rest, rfl, hlog⟩
    · exact absurd hsignal (he v)
    · rcases h.served rest v after hlog with hended | hevent | hinner | hunderway | hdone
      · exact .inl hended
      · exact .inr (.inl hevent)
      · exact .inr (.inr (.inl hinner))
      · exact .inr (.inr (.inr (.inl ⟨List.mem_cons_of_mem _ hunderway.1, hunderway.2⟩)))
      · exact .inr (.inr (.inr (.inr ⟨List.mem_cons_of_mem _ hdone.1,
          hdone.2.imp_right (List.mem_cons_of_mem _)⟩)))

theorem Inv.raise (h : Inv s) (htask : s.Rebuilding t) : Inv ((s.release t).raised t) := by
  cases t with
  | worker =>
    have hlogged := (h.release .worker).logged (e := .raised) nofun
    refine hlogged.enterOuter release_holder fun hevent before v after heq => ?_
    have hevent' : s.event = false := by simpa using hevent
    rcases split_cons heq with ⟨-, hsignal⟩ | ⟨rest, rfl, hlog⟩
    · cases hsignal
    · rw [release_log] at hlog
      refine ⟨List.mem_cons_of_mem _ ?_, .inr List.mem_cons_self⟩
      rcases h.done_of_ended htask hevent' hlog with hunderway | hdone
      · exact hunderway.1
      · exact hdone.1
  | poll => exact (h.release .poll).setPolling

theorem Inv.step (h : Inv s) (hstep : Step s s') : Inv s' := by
  cases hstep with
  | commit =>
    refine ⟨Nat.le_succ_of_le h.router, fun w hw => ?_, h.holder, fun v hv => ?_, h.served⟩
    · exact ⟨(h.loaded w hw).1, Nat.le_succ_of_le (h.loaded w hw).2⟩
    · exact Nat.le_succ_of_le (h.signals v hv)
  | signal =>
    refine ⟨h.router, h.loaded, h.holder, fun v hmem => ?_, fun _ _ _ _ => .inr (.inl rfl)⟩
    rcases List.mem_cons.1 hmem with heq | hmem
    · cases heq
      exact Nat.le_refl _
    · exact h.signals v hmem
  | begin hworker =>
    refine h.enterOuter (h.free_of_worker (by simp [hworker])) fun hevent before v after hlog => ?_
    exact h.done_of_waiting (by simp [hworker]) (by simp [hworker]) (by simp [hworker]) hevent hlog
  | wake hworker _ => exact h.enterInner (h.free_of_worker (by simp [hworker]))
  | extend hworker _ => exact h.enterInner (h.free_of_worker (by simp [hworker]))
  | timeout hworker => exact h.startRebuild (h.free_of_worker (by simp [hworker]))
  | poll => exact h.setPolling
  | acquire t htask hfree =>
    refine h.locked nofun (fun hheld => ?_) nofun
    cases hheld
    exact htask
  | load t htask hheld hnew =>
    refine h.locked (fun w hw => ?_) h.holder fun w _ hw => (Option.some.inj hw).symm
    cases hw
    exact ⟨h.router, Nat.le_refl _⟩
  | finish t v htask hheld hloaded => exact h.finish htask hheld hloaded
  | raise t htask => exact h.raise htask
  | cancel =>
    have hrelease := h.release .worker
    exact ⟨hrelease.router, hrelease.loaded, fun hheld => absurd hheld release_holder,
      hrelease.signals, fun _ _ _ _ => .inl rfl⟩

theorem Inv.reach (h : Reachable s) : Inv s := by
  obtain ⟨s₀, hstart, hrun⟩ := h
  induction hrun with
  | refl => exact inv_start hstart
  | tail _ hstep ih => exact ih.step hstep

/-! ## Signals -/

/-- A worker that waits with the event clear has started to rebuild since the last signal. -/
theorem signals_answered (h : Reachable s) (hworker : s.worker = .outerWait)
    (hevent : s.event = false) : Answered s.log := by
  intro before v after hlog
  have hdone := (Inv.reach h).done_of_waiting (by simp [hworker]) (by simp [hworker])
    (by simp [hworker]) hevent hlog
  exact hdone.1

/-- Two signals, the second in the turn in which the window of the first one times out: the worker
rebuilds, and once more as the event is still set. -/
def burst : State := ⟨2, false, .outerWait, false, none, none, 2,
  [.started, .started, .signal 2, .signal 1]⟩

theorem reachable_burst : Reachable burst := by
  refine ⟨⟨0, false, .created, false, none, none, 0, []⟩, ⟨rfl, rfl, rfl, rfl, rfl, Nat.le_refl _,
    rfl⟩, ?_⟩
  have hcreated : Step ⟨0, false, .created, false, none, none, 0, []⟩
      ⟨0, false, .outerWait, false, none, none, 0, []⟩ := .begin _ rfl
  have hsignal : Step ⟨1, false, .outerWait, false, none, none, 0, []⟩
      ⟨1, true, .outerWait, false, none, none, 0, [.signal 1]⟩ := .signal _
  have hwake : Step ⟨1, true, .outerWait, false, none, none, 0, [.signal 1]⟩
      ⟨1, false, .innerWait, false, none, none, 0, [.signal 1]⟩ := .wake _ rfl rfl
  have hagain : Step ⟨2, false, .innerWait, false, none, none, 0, [.signal 1]⟩
      ⟨2, true, .innerWait, false, none, none, 0, [.signal 2, .signal 1]⟩ := .signal _
  have htimeout : Step ⟨2, true, .innerWait, false, none, none, 0, [.signal 2, .signal 1]⟩
      ⟨2, true, .rebuilding, false, none, none, 0, [.started, .signal 2, .signal 1]⟩ :=
    .timeout _ rfl
  have hacquire := Step.acquire
    ⟨2, true, .rebuilding, false, none, none, 0, [.started, .signal 2, .signal 1]⟩ .worker rfl rfl
  have hload := Step.load ⟨2, true, .rebuilding, false, some .worker, none, 0,
    [.started, .signal 2, .signal 1]⟩ .worker rfl rfl rfl
  have hfinish : Step ⟨2, true, .rebuilding, false, some .worker, some 2, 0,
      [.started, .signal 2, .signal 1]⟩
      ⟨2, false, .innerWait, false, none, none, 2, [.started, .signal 2, .signal 1]⟩ :=
    .finish _ .worker 2 rfl rfl rfl
  have htimeout' := Step.timeout
    ⟨2, false, .innerWait, false, none, none, 2, [.started, .signal 2, .signal 1]⟩ rfl
  have hacquire' := Step.acquire ⟨2, false, .rebuilding, false, none, none, 2,
    [.started, .started, .signal 2, .signal 1]⟩ .worker rfl rfl
  have hload' := Step.load ⟨2, false, .rebuilding, false, some .worker, none, 2,
    [.started, .started, .signal 2, .signal 1]⟩ .worker rfl rfl rfl
  have hfinish' : Step ⟨2, false, .rebuilding, false, some .worker, some 2, 2,
      [.started, .started, .signal 2, .signal 1]⟩ burst := .finish _ .worker 2 rfl rfl rfl
  have hfirst := ((((Relation.ReflTransGen.single hcreated).tail (.commit _)).tail hsignal).tail
    hwake).tail (.commit _)
  have hsecond := ((((hfirst.tail hagain).tail htimeout).tail hacquire).tail hload).tail hfinish
  exact (((hsecond.tail htimeout').tail hacquire').tail hload').tail hfinish'

theorem signals_answered_burst : Answered [.started, .started, .signal 2, .signal 1] :=
  signals_answered reachable_burst rfl rfl

/-- The live router is then as new as each signal, unless a rebuild has raised since. -/
theorem router_fresh (h : Reachable s) (hworker : s.worker = .outerWait)
    (hevent : s.event = false) (hlog : s.log = before ++ .signal v :: after) :
    v ≤ s.router ∨ .raised ∈ before := by
  have hdone := (Inv.reach h).done_of_waiting (by simp [hworker]) (by simp [hworker])
    (by simp [hworker]) hevent hlog
  exact hdone.2

end RouterManager
