import Janus.Conc.Timeline
import Janus.Conc.Triple
import Janus.Gateway.RateLimit

/-!
# The commands of one rule

`Cmd.of rule nowMs`: the commands that the public functions issue for a rule when they read the
clock at `nowMs`. Everything about one rule's keys is proved of timed runs of `Issued` commands: the
rule is fixed, the other rules are any others. `checkRateLimits_issued` and its companions say that
the public functions issue nothing else.
-/

set_option autoImplicit false

namespace RateLimit

open Conc

/-- The commands for one rule, at one reading of the clock. -/
def Cmd.of (rule : Rule) (nowMs : Int) : Cmd → Prop
  | .rpmCheck key now windowMs limit _ =>
    key = rule.rpmKey ∧ now = nowMs ∧ windowMs = 60000 ∧ rule.rpmLimit = some limit
  | .tpmCheck key now limit requestTokens refillRate ttlMs =>
    key = rule.tpmKey ∧ now = nowMs ∧ rule.tpmLimit = some refillRate ∧
      limit = rule.burst refillRate ∧ 0 < requestTokens ∧ ttlMs = tpmBucketTtlMs
  | .concurrentCheck key now limit _ timeoutMs =>
    key = rule.concKey ∧ now = nowMs ∧ rule.maxConcurrent = some limit ∧
      timeoutMs = concurrentStaleTimeoutSeconds * 1000
  | .tpmSettle key _ limit ttlMs refillRate =>
    key = rule.tpmKey ∧ rule.tpmLimit = some refillRate ∧ limit = rule.burst refillRate ∧
      ttlMs = tpmBucketTtlMs
  | .zrem key _ => key = rule.rpmKey ∨ key = rule.concKey
  | .emergencyAdmit _ _ => True

/-- A command for this rule, or for one of another id. -/
def Issued (rule : Rule) (nowMs : Int) (c : Cmd) : Prop :=
  ∃ rule' : Rule, (rule'.id = rule.id → rule' = rule) ∧ c.of rule' nowMs

/-- The commands of a rule and others, at the readings of a clock. -/
def Clocked (rule : Rule) (t : Int) : Sem Cmd Cmd.Resp State :=
  fun c s r s' => Issued rule t c ∧ (r, s') = c.run s

/-- Time passes. -/
def Passes (s s' : State) : Prop := ∃ d : Nat, s' = { s with time := s.time + d }

def emptyState : State := ⟨0, Redis.Table.empty, Redis.Table.empty, fun _ => none⟩

/-- What a check answers. -/
def granted {α : Type} : Except RedisError (Bool × α) → Bool
  | .ok (allowed, _) => allowed
  | .error _ => false

section

variable {rule : Rule} {nowMs : Int} {key : Key} {member : String} {s : State}

theorem time_run {c : Cmd} : (c.run s).2.time = s.time := by
  cases c with
  | rpmCheck k now windowMs limit member =>
    show (s.addIfRoom k now windowMs limit member (windowMs + 1000)).2.time = _
    unfold State.addIfRoom
    dsimp only
    split <;> rfl
  | tpmCheck k now limit requestTokens refillRate ttlMs =>
    show (s.tpmCheck k now limit requestTokens refillRate ttlMs).2.time = _
    unfold State.tpmCheck
    dsimp only
    split <;> rfl
  | concurrentCheck k now limit member timeoutMs =>
    show (s.addIfRoom k now timeoutMs limit member (timeoutMs + 10000)).2.time = _
    unfold State.addIfRoom
    dsimp only
    split <;> rfl
  | tpmSettle k delta limit ttlMs refillRate =>
    show (s.tpmSettle k delta limit ttlMs refillRate).time = _
    unfold State.tpmSettle
    split <;> rfl
  | zrem k member => rfl
  | emergencyAdmit rules now =>
    show (s.emergencyAdmit rules now).2.time = _
    unfold State.emergencyAdmit
    dsimp only
    split <;> rfl

theorem Issued.rpmCheck {now windowMs limit : Int}
    (h : Issued rule nowMs (.rpmCheck key now windowMs limit member)) :
    (∀ id subject, key ≠ .tpm id subject) ∧ (∀ id subject, key ≠ .conc id subject) ∧
      (key = rule.rpmKey → now = nowMs ∧ windowMs = 60000 ∧ rule.rpmLimit = some limit) := by
  obtain ⟨rule', hid, rfl, hargs⟩ := h
  refine ⟨nofun, nofun, fun hk => ?_⟩
  rwa [hid (Key.rpm.inj hk).1] at hargs

theorem Issued.tpmCheck {now limit requestTokens refillRate ttlMs : Int}
    (h : Issued rule nowMs (.tpmCheck key now limit requestTokens refillRate ttlMs)) :
    key = rule.tpmKey → now = nowMs ∧ rule.tpmLimit = some refillRate ∧
      limit = rule.burst refillRate ∧ 0 < requestTokens ∧ ttlMs = tpmBucketTtlMs := by
  obtain ⟨rule', hid, rfl, hargs⟩ := h
  intro hk
  rwa [hid (Key.tpm.inj hk).1] at hargs

theorem Issued.concurrentCheck {now limit timeoutMs : Int}
    (h : Issued rule nowMs (.concurrentCheck key now limit member timeoutMs)) :
    (∀ id subject, key ≠ .tpm id subject) ∧ (∀ id subject, key ≠ .rpm id subject) ∧
      (key = rule.concKey → now = nowMs ∧ rule.maxConcurrent = some limit ∧
        timeoutMs = concurrentStaleTimeoutSeconds * 1000) := by
  obtain ⟨rule', hid, rfl, hargs⟩ := h
  refine ⟨nofun, nofun, fun hk => ?_⟩
  rwa [hid (Key.conc.inj hk).1] at hargs

theorem Issued.tpmSettle {delta limit ttlMs refillRate : Int}
    (h : Issued rule nowMs (.tpmSettle key delta limit ttlMs refillRate)) :
    key = rule.tpmKey → rule.tpmLimit = some refillRate ∧ limit = rule.burst refillRate ∧
      ttlMs = tpmBucketTtlMs := by
  obtain ⟨rule', hid, rfl, hargs⟩ := h
  intro hk
  rwa [hid (Key.tpm.inj hk).1] at hargs

end

/-! ## What the public functions issue -/

section

variable {member : String} {nowMs estimatedTokens : Int} {isStream : Bool} {rules : List Rule}

/-- A command for one of the rules. -/
def OneOf (rules : List Rule) (nowMs : Int) (c : Cmd) : Prop := ∃ rule ∈ rules, c.of rule nowMs

theorem suppress_issues {I : Cmd → Prop} {p : Io Unit} (hp : Raising.Issues I (fun _ => True) p) :
    (suppress p).Issues I fun _ => True :=
  Prog.Issues.bind hp fun _ _ => trivial

theorem releaseRpm_issued {l : List Rule} (hl : l ⊆ rules) :
    (releaseRpm member l).Issues (OneOf rules nowMs) fun _ => True := by
  refine suppress_issues (Raising.Issues.forM fun rule hr => ?_)
  split
  · exact ⟨⟨rule, hl hr, .inl rfl⟩, fun _ => trivial⟩
  · exact trivial

theorem releaseConcurrent_issued {l : List Rule} (hl : l ⊆ rules) :
    (releaseConcurrent member l).Issues (OneOf rules nowMs) fun _ => True := by
  refine suppress_issues (Raising.Issues.forM fun rule hr => ?_)
  split
  · exact ⟨⟨rule, hl hr, .inr rfl⟩, fun _ => trivial⟩
  · exact trivial

theorem settleTpm_issued {l : List Rule} {deltaTokens : Int} (hl : l ⊆ rules) :
    Raising.Issues (OneOf rules nowMs) (fun _ => True) (settleTpm l deltaTokens) := by
  unfold settleTpm
  split
  · refine Raising.Issues.forM fun rule hr => ?_
    split
    · next tpmLimit hlimit =>
      exact ⟨⟨rule, hl hr, rfl, hlimit, rfl, rfl⟩, fun _ => trivial⟩
    · exact trivial
  · exact trivial

/-- The gates passed so far are gates of these rules. -/
def Acquired.Of (rules : List Rule) (acquired : Acquired) : Prop :=
  acquired.rpm ⊆ rules ∧ acquired.tpm ⊆ rules

/-- Gates end with gates of these rules, whether they go on or deny. -/
def PassedOf (rules : List Rule) : Except Stop Acquired → Prop
  | .ok acquired => acquired.Of rules
  | .error (.denied _ acquired) => acquired.Of rules
  | .error .redisError => ∃ rule, rule ∈ rules

theorem snoc_subset {l : List Rule} {rule : Rule} (hl : l ⊆ rules) (hr : rule ∈ rules) :
    l ++ [rule] ⊆ rules :=
  List.append_subset.2 ⟨hl, by simpa using hr⟩

variable {rule : Rule} {acquired : Acquired}

/-- A gate is one command, which may raise, and then a result or a denial. -/
theorem gate_issued {α : Type} {p : Prog Cmd Cmd.Resp (Except RedisError α)}
    {f : α → Gate Acquired} (hr : rule ∈ rules) (hp : p.Issues (OneOf rules nowMs) fun _ => True)
    (hf : ∀ a, Raising.Issues (OneOf rules nowMs) (PassedOf rules) (f a)) :
    Raising.Issues (OneOf rules nowMs) (PassedOf rules) (gate p >>= f) := by
  refine Raising.Issues.bind (O := fun outcome => PassedOf rules (outcome.map fun _ => {}))
    (Prog.Issues.bind hp fun answer _ => ?_) (fun a _ => hf a) fun e he => he
  cases answer with
  | ok a => exact ⟨List.nil_subset _, List.nil_subset _⟩
  | error e => exact ⟨rule, hr⟩

theorem rpmGate_issued (hr : rule ∈ rules) (h : acquired.Of rules) :
    Raising.Issues (OneOf rules nowMs) (PassedOf rules) (rpmGate nowMs member rule acquired) := by
  unfold rpmGate
  split
  · exact h
  · next rpmLimit hlimit =>
    refine gate_issued hr ⟨⟨rule, hr, rfl, rfl, rfl, hlimit⟩, fun _ => trivial⟩ fun answer => ?_
    dsimp only
    split
    · exact ⟨snoc_subset h.1 hr, h.2⟩
    · exact h

theorem tpmGate_issued (hr : rule ∈ rules) (h : acquired.Of rules) :
    Raising.Issues (OneOf rules nowMs) (PassedOf rules)
      (tpmGate nowMs estimatedTokens rule acquired) := by
  unfold tpmGate
  split
  · exact h
  · next tpmLimit hlimit =>
    split
    · next hpos =>
      refine gate_issued hr ⟨⟨rule, hr, rfl, rfl, hlimit, rfl, hpos, rfl⟩, fun _ => trivial⟩
        fun answer => ?_
      dsimp only
      split
      · exact ⟨h.1, snoc_subset h.2 hr⟩
      · exact h
    · exact h

theorem concurrentGate_issued (hr : rule ∈ rules) (h : acquired.Of rules) :
    Raising.Issues (OneOf rules nowMs) (PassedOf rules)
      (concurrentGate nowMs member isStream rule acquired) := by
  unfold concurrentGate
  split
  · exact h
  · next maxConcurrent hlimit =>
    split
    · refine gate_issued hr ⟨⟨rule, hr, rfl, rfl, hlimit, rfl⟩, fun _ => trivial⟩ fun answer => ?_
      dsimp only
      split
      · exact h
      · exact h
    · exact h

theorem checkRule_issued (hr : rule ∈ rules) (h : acquired.Of rules) :
    Raising.Issues (OneOf rules nowMs) (PassedOf rules)
      (checkRule nowMs member estimatedTokens isStream acquired rule) :=
  Raising.Issues.bind (rpmGate_issued hr h)
    (fun _ h => Raising.Issues.bind (tpmGate_issued hr h)
      (fun _ h => concurrentGate_issued hr h) fun _ h => h) fun _ h => h

theorem rollback_issued (h : acquired.Of rules) :
    (rollback member estimatedTokens rules acquired).Issues (OneOf rules nowMs) fun _ => True := by
  have hconcurrent : (if acquired.concurrent then releaseConcurrent member rules
      else pure ()).Issues (OneOf rules nowMs) fun _ => True := by
    split
    · exact releaseConcurrent_issued (List.Subset.refl _)
    · exact trivial
  have htpm : (do
      if acquired.tpm ≠ [] then suppress (settleTpm acquired.tpm estimatedTokens)
      if acquired.concurrent then releaseConcurrent member rules).Issues (OneOf rules nowMs)
        fun _ => True := by
    by_cases ht : acquired.tpm ≠ []
    · simp only [if_pos ht]
      exact Prog.Issues.bind (suppress_issues (settleTpm_issued h.2)) fun _ _ => hconcurrent
    · simp only [if_neg ht]
      exact hconcurrent
  unfold rollback
  by_cases hrpm : acquired.rpm ≠ []
  · simp only [if_pos hrpm]
    exact Prog.Issues.bind (releaseRpm_issued h.1) fun _ _ => htpm
  · simp only [if_neg hrpm]
    exact htpm

/-- A check issues commands for its rules only. -/
theorem checkRateLimits_issued :
    (checkRateLimits nowMs member estimatedTokens isStream rules).Issues (OneOf rules nowMs)
      fun _ => True := by
  refine Prog.Issues.bind (O := PassedOf rules)
    (Raising.Issues.foldlM ⟨List.nil_subset _, List.nil_subset _⟩
      fun rule hr acquired h => checkRule_issued hr h) fun outcome h => ?_
  rcases outcome with stop | acquired
  · cases stop with
    | denied result acquired => exact Prog.Issues.bind (rollback_issued h) fun _ _ => trivial
    | redisError =>
      obtain ⟨rule, hr⟩ := h
      refine ⟨⟨rule, hr, trivial⟩, fun admitted => ?_⟩
      cases admitted with
      | true => exact trivial
      | false => exact trivial
  · exact trivial

end

end RateLimit
