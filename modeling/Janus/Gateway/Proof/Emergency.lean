import Janus.Conc.Timeline
import Janus.Gateway.Proof.Gates

/-!
# The emergency limiter

The counts of a window are those of the requests that it has admitted as long as no admitted request
names a subject twice: such a request is charged twice (`charged_admit`). `emergency_fair_iff`: in a
run without one, the next call is fair exactly if it is not one either.
-/

set_option autoImplicit false

namespace RateLimit

open Conc

def windowIndex (nowMs : Int) : Int := nowMs / 1000 / emergencyWindowSeconds

def Rule.cap (rule : Rule) : Int := rule.rpmLimit.getD emergencyDefaultMaxPerWindow

def subjects (rules : List Rule) : List SubjectKey := rules.map subjectKey

/-- The count of a subject in a window. -/
def chargedIn (windows : SubjectKey → Option (Int × Int)) (window : Int) (subject : SubjectKey) : Int :=
  match windows subject with
  | some (w, n) => if w = window then n else 0
  | none => 0

def State.charged (s : State) (window : Int) (subject : SubjectKey) : Int :=
  chargedIn s.windows window subject

/-- Every subject has admitted fewer requests than the rule allows. -/
def Headroom (s : State) (rules : List Rule) (nowMs : Int) : Prop :=
  ∀ rule ∈ rules, s.charged (windowIndex nowMs) (subjectKey rule) < rule.cap

/-- Phase 2. -/
def charge (window : Int) (rules : List Rule) (windows : SubjectKey → Option (Int × Int)) :
    SubjectKey → Option (Int × Int) :=
  rules.foldl (fun windows rule => Function.update windows (subjectKey rule)
    (some (window, chargedIn windows window (subjectKey rule) + 1))) windows

section

variable {s s' : State} {rules : List Rule} {nowMs window : Int} {subject : SubjectKey}
  {windows : SubjectKey → Option (Int × Int)}

theorem admit_headroom (h : Headroom s rules nowMs) : s.emergencyAdmit rules nowMs =
    (true, { s with windows := charge (windowIndex nowMs) rules s.windows }) := by
  unfold State.emergencyAdmit
  refine if_neg ?_
  rw [List.any_eq_true]
  rintro ⟨rule, hrule, hfull⟩
  exact absurd (h rule hrule) (not_lt.2 (of_decide_eq_true hfull))

theorem admit_full (h : ¬ Headroom s rules nowMs) : s.emergencyAdmit rules nowMs = (false, s) := by
  unfold State.emergencyAdmit
  refine if_pos ?_
  rw [List.any_eq_true]
  simp only [Headroom, not_forall, not_lt] at h
  obtain ⟨rule, hrule, hfull⟩ := h
  exact ⟨rule, hrule, decide_eq_true hfull⟩

/-- Every rule charges its subject. -/
theorem chargedIn_charge : chargedIn (charge window rules windows) window subject =
    chargedIn windows window subject + (subjects rules).count subject := by
  unfold charge subjects
  induction rules generalizing windows with
  | nil => simp
  | cons rule rules ih =>
    rw [List.foldl_cons, ih, List.map_cons, List.count_cons]
    by_cases hsubject : subjectKey rule = subject
    · simp [chargedIn, hsubject]
      omega
    · simp [chargedIn, hsubject, Ne.symm hsubject]

/-- In another window the charged subjects have no count. -/
theorem chargedIn_charge_ne {other : Int} (h : window ≠ other) :
    chargedIn (charge window rules windows) other subject =
      if subject ∈ subjects rules then 0 else chargedIn windows other subject := by
  unfold charge subjects
  induction rules generalizing windows with
  | nil => simp
  | cons rule rules ih =>
    rw [List.foldl_cons, ih, List.map_cons]
    by_cases hsubject : subject = subjectKey rule
    · simp [chargedIn, hsubject, h]
    · simp [chargedIn, hsubject]

end

/-! ## Fairness -/

/-- The requests naming a subject that a window has admitted. -/
def admittedIn (window : Int) (subject : SubjectKey) : Log Int Cmd Cmd.Resp → Int
  | [] => 0
  | (t, ⟨.emergencyAdmit rules _, admitted⟩) :: l =>
    admittedIn window subject l +
      if admitted = true ∧ windowIndex t = window ∧ subject ∈ subjects rules then 1 else 0
  | (_, ⟨_, _⟩) :: l => admittedIn window subject l

/-- What a call does after the history `l`: an admission charges every subject once and stays within
the caps, a denial charges none and has a subject that has admitted as many as the cap. -/
structure Fair (s : State) (l : Log Int Cmd Cmd.Resp) (rules : List Rule) (nowMs : Int) : Prop where
  charged : ∀ subject, (s.emergencyAdmit rules nowMs).2.charged (windowIndex nowMs) subject =
    s.charged (windowIndex nowMs) subject +
      if (s.emergencyAdmit rules nowMs).1 = true ∧ subject ∈ subjects rules then 1 else 0
  capped : (s.emergencyAdmit rules nowMs).1 = true → ∀ rule ∈ rules,
    (s.emergencyAdmit rules nowMs).2.charged (windowIndex nowMs) (subjectKey rule) ≤ rule.cap
  denied : (s.emergencyAdmit rules nowMs).1 = false → ∃ rule ∈ rules,
    rule.cap ≤ admittedIn (windowIndex nowMs) (subjectKey rule) l

/-- The rules name no subject twice, or leave no headroom. -/
def NamesOnce (s : State) (rules : List Rule) (nowMs : Int) : Prop :=
  Headroom s rules nowMs → (subjects rules).Nodup

/-- Commands of which every emergency call meets `P`. -/
def Calls (P : State → List Rule → Int → Prop) (t : Int) : Sem Cmd Cmd.Resp State :=
  fun c s r s' => (r, s') = c.run s ∧ ∀ rules now, c = .emergencyAdmit rules now → now = t ∧ P s rules t

section

variable {s s' s₀ : State} {rules : List Rule} {nowMs window t : Int} {subject : SubjectKey}
  {l : Log Int Cmd Cmd.Resp}

theorem windowIndex_mono (h : t ≤ nowMs) : windowIndex t ≤ windowIndex nowMs := by
  unfold windowIndex emergencyWindowSeconds
  omega

/-- The other commands charge no one. -/
theorem windows_run_ne {c : Cmd} (h : ∀ rules now, c ≠ .emergencyAdmit rules now) :
    (c.run s).2.windows = s.windows := by
  cases c with
  | rpmCheck k now windowMs limit member =>
    show (s.addIfRoom k now windowMs limit member (windowMs + 1000)).2.windows = _
    unfold State.addIfRoom
    dsimp only
    split <;> rfl
  | tpmCheck k now limit requestTokens refillRate ttlMs =>
    show (s.tpmCheck k now limit requestTokens refillRate ttlMs).2.windows = _
    unfold State.tpmCheck
    dsimp only
    split <;> rfl
  | concurrentCheck k now limit member timeoutMs =>
    show (s.addIfRoom k now timeoutMs limit member (timeoutMs + 10000)).2.windows = _
    unfold State.addIfRoom
    dsimp only
    split <;> rfl
  | tpmSettle k delta limit ttlMs refillRate =>
    show (s.tpmSettle k delta limit ttlMs refillRate).windows = _
    unfold State.tpmSettle
    split <;> rfl
  | zrem k member => rfl
  | emergencyAdmit rules now => exact absurd rfl (h rules now)

theorem admittedIn_cons_ne {c : Cmd} {r : c.Resp} (h : ∀ rules now, c ≠ .emergencyAdmit rules now) :
    admittedIn window subject ((t, ⟨c, r⟩) :: l) = admittedIn window subject l := by
  cases c with
  | emergencyAdmit rules now => exact absurd rfl (h rules now)
  | rpmCheck => rfl
  | tpmCheck => rfl
  | concurrentCheck => rfl
  | tpmSettle => rfl
  | zrem => rfl

/-- A window that is still to come has admitted no one. -/
theorem admittedIn_later (h : ∀ e ∈ l, windowIndex e.1 < window) : admittedIn window subject l = 0 := by
  induction l with
  | nil => rfl
  | cons e l ih =>
    obtain ⟨t, c, r⟩ := e
    have hrest := ih fun e he => h e (List.mem_cons_of_mem _ he)
    have ht : windowIndex t < window := h _ List.mem_cons_self
    cases c with
    | emergencyAdmit rules now =>
      show admittedIn window subject l + _ = 0
      rw [hrest, if_neg fun hadmitted => absurd hadmitted.2.1 ht.ne, Int.add_zero]
    | rpmCheck => exact hrest
    | tpmCheck => exact hrest
    | concurrentCheck => exact hrest
    | tpmSettle => exact hrest
    | zrem => exact hrest

/-- In the latest window and after it, the counts are those of the requests admitted. -/
def Counted (s : State) (l : Log Int Cmd Cmd.Resp) : Prop :=
  ∀ window, (∀ e ∈ l, windowIndex e.1 ≤ window) → ∀ subject,
    s.charged window subject = admittedIn window subject l

theorem count_subjects (h : (subjects rules).Nodup) :
    ((subjects rules).count subject : Int) = if subject ∈ subjects rules then 1 else 0 := by
  split
  · next hmem => rw [List.count_eq_one_of_mem h hmem, Nat.cast_one]
  · next hmem => rw [List.count_eq_zero_of_not_mem hmem, Nat.cast_zero]

theorem Counted.admit (h : Counted s l) (hl : ∀ e ∈ l, e.1 ≤ t) (honce : NamesOnce s rules t) :
    Counted (s.emergencyAdmit rules t).2
      ((t, ⟨.emergencyAdmit rules t, (s.emergencyAdmit rules t).1⟩) :: l) := by
  intro window hwindow subject
  have ht : windowIndex t ≤ window := hwindow _ List.mem_cons_self
  have hold := h window (fun e he => hwindow e (List.mem_cons_of_mem _ he)) subject
  show State.charged (s.emergencyAdmit rules t).2 window subject = admittedIn window subject l +
    if (s.emergencyAdmit rules t).1 = true ∧ windowIndex t = window ∧ subject ∈ subjects rules
      then 1 else 0
  by_cases hroom : Headroom s rules t
  · rw [admit_headroom hroom, ← hold]
    show chargedIn (charge (windowIndex t) rules s.windows) window subject =
      chargedIn s.windows window subject + _
    by_cases hsame : windowIndex t = window
    · subst hsame
      rw [chargedIn_charge, count_subjects (honce hroom)]
      simp
    · rw [chargedIn_charge_ne hsame]
      split
      · -- a subject charged in an earlier window
        have hlater : admittedIn window subject l = 0 := admittedIn_later fun e he => by
          have := windowIndex_mono (hl e he)
          omega
        have hzero : chargedIn s.windows window subject = 0 := hold.trans hlater
        simp [hsame, hzero]
      · simp [hsame]
  · rw [admit_full hroom, hold]
    simp

theorem counted (hempty : ∀ subject, s₀.windows subject = none)
    (hrun : Timeline (Calls NamesOnce) Passes s₀ s l) : Counted s l := by
  refine hrun.invariant (J := Counted) (fun window _ subject => ?_)
    (fun {s s' l t c r} ih hl hE => ?_) fun ih he => ?_
  · simp [State.charged, chargedIn, hempty, admittedIn]
  · obtain ⟨hstep, hcall⟩ := hE
    by_cases hc : ∃ rules now, c = .emergencyAdmit rules now
    · obtain ⟨rules, now, rfl⟩ := hc
      obtain ⟨rfl, honce⟩ := hcall rules now rfl
      obtain ⟨rfl, rfl⟩ := Prod.mk.inj hstep
      exact ih.admit hl honce
    · have hc' : ∀ rules now, c ≠ .emergencyAdmit rules now := fun rules now he => hc ⟨rules, now, he⟩
      obtain rfl : s' = (c.run s).2 := congrArg Prod.snd hstep
      intro window hwindow subject
      rw [admittedIn_cons_ne hc', State.charged, windows_run_ne hc']
      exact ih window (fun e he => hwindow e (List.mem_cons_of_mem _ he)) subject
  · obtain ⟨d, rfl⟩ := he
    exact ih

/-- A call that names no subject twice is fair. -/
theorem Counted.fair (h : Counted s l) (hl : ∀ e ∈ l, e.1 ≤ t) (honce : NamesOnce s rules t) :
    Fair s l rules t := by
  by_cases hroom : Headroom s rules t
  · have hcharged : ∀ subject, (s.emergencyAdmit rules t).2.charged (windowIndex t) subject =
        s.charged (windowIndex t) subject + if subject ∈ subjects rules then 1 else 0 := by
      intro subject
      rw [admit_headroom hroom, ← count_subjects (honce hroom)]
      exact chargedIn_charge
    have hadmitted : (s.emergencyAdmit rules t).1 = true := by rw [admit_headroom hroom]
    refine ⟨fun subject => ?_, fun _ rule hrule => ?_, fun hdenied => ?_⟩
    · rw [hcharged, hadmitted]
      simp
    · have hbelow := hroom rule hrule
      have hmem : subjectKey rule ∈ subjects rules := List.mem_map_of_mem hrule
      rw [hcharged, if_pos hmem]
      omega
    · rw [hadmitted] at hdenied
      cases hdenied
  · have hdenied : s.emergencyAdmit rules t = (false, s) := admit_full hroom
    refine ⟨fun subject => ?_, fun hadmitted => ?_, fun _ => ?_⟩
    · rw [hdenied]
      simp
    · rw [hdenied] at hadmitted
      cases hadmitted
    · simp only [Headroom, not_forall, not_lt] at hroom
      obtain ⟨rule, hrule, hfull⟩ := hroom
      refine ⟨rule, hrule, ?_⟩
      rw [← h (windowIndex t) (fun e he => windowIndex_mono (hl e he))]
      exact hfull

/-- A fair call charges no subject twice. -/
theorem Fair.once (h : Fair s l rules t) : NamesOnce s rules t := by
  intro hroom
  rw [List.nodup_iff_count_le_one]
  intro subject
  have hcharged := h.charged subject
  rw [admit_headroom hroom] at hcharged
  have hcount : chargedIn (charge (windowIndex t) rules s.windows) (windowIndex t) subject =
      chargedIn s.windows (windowIndex t) subject + (subjects rules).count subject := chargedIn_charge
  have hsame : chargedIn (charge (windowIndex t) rules s.windows) (windowIndex t) subject =
      chargedIn s.windows (windowIndex t) subject +
        if true = true ∧ subject ∈ subjects rules then 1 else 0 := hcharged
  split at hsame <;> omega

end

/-- In a run whose calls name no subject twice, the next call is fair exactly if it names none twice
or leaves no headroom. -/
theorem emergency_fair_iff {s₀ s : State} {l : Log Int Cmd Cmd.Resp} {rules : List Rule} {nowMs : Int}
    (hempty : ∀ subject, s₀.windows subject = none)
    (hrun : Timeline (Calls NamesOnce) Passes s₀ s l) (hl : ∀ e ∈ l, e.1 ≤ nowMs) :
    Fair s l rules nowMs ↔ NamesOnce s rules nowMs :=
  ⟨fun h => h.once, fun h => (counted hempty hrun).fair hl h⟩

/-! ## Two rules for everyone -/

/-- A rule for everyone and every model. The database keeps two of them, as their columns are null. -/
def everyoneRule (id : Int) (rpmLimit : Option Int) : Rule where
  id := id
  subjectType := "global"
  subjectId := none
  logicalModelId := none
  rpmLimit := rpmLimit
  tpmLimit := none
  tpmBurstLimit := none
  maxConcurrent := none

/-- One request is charged twice, past the cap of 1. -/
theorem charged_twice : ¬ ∀ s l rules nowMs, Timeline (Calls fun _ _ _ => True) Passes emptyState s l →
    (∀ e ∈ l, e.1 ≤ nowMs) → Fair s l rules nowMs := by
  intro h
  have hempty : ∀ e ∈ ([] : Log Int Cmd Cmd.Resp), e.1 ≤ 0 := fun e he => absurd he List.not_mem_nil
  have hfair := h emptyState [] [everyoneRule 1 (some 1), everyoneRule 2 none] 0 .start hempty
  have hcapped := hfair.capped (by decide) (everyoneRule 1 (some 1)) List.mem_cons_self
  exact absurd hcapped (by decide)

/-- A rule for everyone and one for a user. -/
def mixedRules : List Rule :=
  [everyoneRule 1 (some 5), { everyoneRule 2 none with subjectType := "user", subjectId := some 7 }]

/-- Two requests under both rules, in one window. -/
theorem charged_once : ∃ s l, Timeline (Calls NamesOnce) Passes emptyState s l ∧
    admittedIn 0 (subjectKey (everyoneRule 1 (some 5))) l = 1 ∧ Fair s l mixedRules 1000 ∧
    (s.emergencyAdmit mixedRules 1000).2.charged 0 (subjectKey (everyoneRule 1 (some 5))) = 2 := by
  have hnames : ∀ s nowMs, NamesOnce s mixedRules nowMs := fun s nowMs _ => by decide
  have hfirst : Timeline (Calls NamesOnce) Passes emptyState
      ((Cmd.emergencyAdmit mixedRules 0).run emptyState).2
      [(0, ⟨.emergencyAdmit mixedRules 0, true⟩)] := by
    refine .cmd .start (fun e he => absurd he List.not_mem_nil) ⟨rfl, fun rules now h => ?_⟩
    cases h
    exact ⟨rfl, hnames _ _⟩
  have hbefore : ∀ e ∈ [((0 : Int), (⟨.emergencyAdmit mixedRules 0, true⟩ : Event Cmd Cmd.Resp))],
      e.1 ≤ 1000 := by
    intro e he
    rw [List.mem_singleton.1 he]
    decide
  exact ⟨_, _, hfirst, by decide, (emergency_fair_iff (fun _ => rfl) hfirst hbefore).2 (hnames _ _),
    by decide⟩

end RateLimit
