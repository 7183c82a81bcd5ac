import Mathlib.Data.List.Nodup
import Mathlib.Tactic.Ring
import Janus.Gateway.Proof.Gates

/-!
# The ledger of one request

What a request holds at a key, from its own commands (`amount`): the tokens it took from a bucket,
below zero, or its entry in a sorted set. A gate that grants takes its `weight`, a rollback gives
everything back, and the settlement leaves minus the actual usage at the buckets that exist (`live`).
`ledger_balanced_iff`: which failures of gate scripts the books survive.
-/

set_option autoImplicit false

namespace RateLimit

open Conc Prog Python

/-! ## What a request holds -/

/-- What the commands of `member` come to at `key`. The refill and the cap of a bucket are left out;
where a settlement finds no bucket, it does nothing, and there is nothing to hold. -/
def amount (member : String) (key : Key) : Trace Cmd Cmd.Resp → Int
  | [] => 0
  | ⟨.rpmCheck k _ _ _ m, answer⟩ :: t =>
    if k = key ∧ m = member ∧ granted answer then 1 else amount member key t
  | ⟨.tpmCheck k _ _ requestTokens _ _, answer⟩ :: t =>
    if k = key ∧ granted answer then amount member key t - requestTokens else amount member key t
  | ⟨.concurrentCheck k _ _ m _, answer⟩ :: t =>
    if k = key ∧ m = member ∧ granted answer then 1 else amount member key t
  | ⟨.tpmSettle k delta _ _ _, answer⟩ :: t =>
    match answer with
    | .ok true => if k = key then amount member key t + delta else amount member key t
    | .ok false => if k = key then 0 else amount member key t
    | .error _ => amount member key t
  | ⟨.zrem k m, _⟩ :: t => if k = key ∧ m = member then 0 else amount member key t
  | ⟨.emergencyAdmit _ _, _⟩ :: t => amount member key t

/-- The keys of the gates that granted. -/
def grantedKeys : Trace Cmd Cmd.Resp → List Key
  | [] => []
  | ⟨.rpmCheck k _ _ _ _, answer⟩ :: t => if granted answer then k :: grantedKeys t else grantedKeys t
  | ⟨.tpmCheck k _ _ _ _ _, answer⟩ :: t =>
    if granted answer then k :: grantedKeys t else grantedKeys t
  | ⟨.concurrentCheck k _ _ _ _, answer⟩ :: t =>
    if granted answer then k :: grantedKeys t else grantedKeys t
  | _ :: t => grantedKeys t

/-- The answer of the emergency limiter, if a gate script failed. -/
def emergency : Trace Cmd Cmd.Resp → Option Bool
  | [] => none
  | ⟨.emergencyAdmit _ _, admitted⟩ :: _ => some admitted
  | _ :: t => emergency t

/-- What a granted gate takes. -/
def weight (estimatedTokens : Int) : Key → Int
  | .tpm _ _ => -estimatedTokens
  | _ => 1

/-- Gate scripts may fail; everything else succeeds. The settlements find the buckets of `live`. -/
def GatesMayFail (live : Key → Bool) : (c : Cmd) → c.Resp → Prop
  | .tpmSettle key .., answer => answer = .ok (live key)
  | .zrem .., answer => answer = .ok ()
  | _, _ => True

/-- A request, with the settlement of its finalizer when it is admitted. -/
def admitAndSettle (nowMs : Int) (member : String) (estimatedTokens : Int) (isStream : Bool)
    (rules : List Rule) (actualTokens : Int) : Prog Cmd Cmd.Resp CheckResult := do
  let result ← checkRateLimits nowMs member estimatedTokens isStream rules
  if result.allowed then
    let reservedTokens :=
      if estimatedTokens = 0 then estimatedTokensPerRequest else estimatedTokens
    let _ ← (settleTpm rules (reservedTokens - actualTokens)).run
  pure result

/-- The books of a request: the actual usage at the buckets that exist if it was admitted, nothing if it
was denied. -/
structure Balanced (live : Key → Bool) (member : String) (rules : List Rule) (actualTokens : Int)
    (result : CheckResult) (t : Trace Cmd Cmd.Resp) : Prop where
  admitted : result.allowed = true → ∀ rule ∈ rules, rule.tpmLimit.isSome = true →
    live rule.tpmKey = true → amount member rule.tpmKey t = -actualTokens
  denied : result.allowed = false → ∀ rule ∈ rules, amount member rule.tpmKey t = 0 ∧
    amount member rule.rpmKey t = 0 ∧ amount member rule.concKey t = 0

/-- If a gate script fails, then the emergency limiter admits after every bucket that exists was
checked, or denies before anything was granted. -/
def Survives (live : Key → Bool) (rules : List Rule) (t : Trace Cmd Cmd.Resp) : Prop :=
  match emergency t with
  | none => True
  | some true => ∀ rule ∈ rules, rule.tpmLimit.isSome = true → live rule.tpmKey = true →
    rule.tpmKey ∈ grantedKeys t
  | some false => grantedKeys t = []

/-- One command over its own trace. -/
theorem traced_cmd {live : Key → Bool} {c : Cmd} {P : Trace Cmd Cmd.Resp → Prop} {Q : c.Resp → Trace Cmd Cmd.Resp → Prop}
    (h : ∀ r t, P t → GatesMayFail live c r → Q r (⟨c, r⟩ :: t)) :
    Prog.Triple (Traced (GatesMayFail live)) Eq P (Prog.cmd c) Q := by
  refine Prog.Triple.step stable_eq (M := Q) (fun t r t' hP hE => ?_) fun r =>
    Prog.Triple.ret stable_eq
  obtain ⟨hr, rfl⟩ := hE
  exact h r t hP hr

/-! ## Releases and settlements -/

/-- The books at `t`: what is held at every key, the gates granted, and the emergency limiter. -/
structure Books (member : String) (f : Key → Int) (keys : List Key) (answer : Option Bool)
    (t : Trace Cmd Cmd.Resp) : Prop where
  amounts : ∀ key, amount member key t = f key
  granted : grantedKeys t = keys
  emergency : emergency t = answer

section

variable {live : Key → Bool} {member : String} {f f' : Key → Int} {keys : List Key}
  {answer : Option Bool} {l : List Rule} {key : Key}

/-- A program that takes the books from `f` to `f'` and does not raise. -/
abbrev Booking (live : Key → Bool) (member : String) (keys : List Key) (answer : Option Bool) (f : Key → Int)
    (p : Io Unit) (f' : Key → Int) : Prop :=
  Raising.Triple (Traced (GatesMayFail live)) Eq (Books member f keys answer) p
    (Raising.Ends (fun _ => Books member f' keys answer) fun _ _ => False)

theorem booking_skip : Booking live member keys answer f (pure ()) f :=
  Raising.Triple.pure (Q := Raising.Ends (fun _ => Books member f keys answer) fun _ _ => False)
    stable_eq

theorem booking_zrem : Booking live member keys answer f (zrem key member)
    (Function.update f key 0) := by
  refine Prog.Triple.step stable_eq
    (M := Raising.Ends (fun _ => Books member (Function.update f key 0) keys answer) fun _ _ => False)
    (fun t r t' h hE => ?_) fun r => Prog.Triple.ret stable_eq
  obtain ⟨hr, rfl⟩ := hE
  cases hr
  refine ⟨fun k => ?_, h.granted, h.emergency⟩
  by_cases hk : key = k
  · subst hk
    rw [Function.update_self]
    exact if_pos ⟨rfl, rfl⟩
  · rw [Function.update_of_ne (Ne.symm hk), ← h.amounts k]
    exact if_neg fun hc => hk hc.1

theorem amount_settle {k : Key} {delta limit ttlMs refillRate : Int} {found : Bool}
    {t : Trace Cmd Cmd.Resp} :
    amount member k (⟨.tpmSettle key delta limit ttlMs refillRate, .ok found⟩ :: t) =
      if key = k then if found then amount member k t + delta else 0 else amount member k t := by
  cases found <;> rfl

/-- A bucket that exists is credited, and one that does not has nothing to give back. -/
def settled (live : Key → Bool) (delta : Int) (key : Key) (f : Key → Int) : Key → Int :=
  Function.update f key (if live key then f key + delta else 0)

theorem booking_settle {delta limit ttlMs refillRate : Int} :
    Booking live member keys answer f (settleBucket key delta limit ttlMs refillRate)
      (settled live delta key f) := by
  refine Prog.Triple.step stable_eq
    (M := fun r t => r.isOk = true ∧ Books member (settled live delta key f) keys answer t)
    (fun t r t' h hE => ?_) fun r => ?_
  · obtain ⟨hr, rfl⟩ := hE
    cases hr
    refine ⟨rfl, fun k => ?_, h.granted, h.emergency⟩
    rw [amount_settle]
    unfold settled
    by_cases hk : key = k
    · subst hk
      rw [Function.update_self, if_pos rfl, h.amounts key]
    · rw [Function.update_of_ne (Ne.symm hk), if_neg hk, h.amounts k]
  · cases r with
    | ok found =>
      refine Prog.Triple.pre (Prog.Triple.ret (Q := Raising.Ends
        (fun _ => Books member (settled live delta key f) keys answer) fun _ _ => False)
        (a := .ok ()) stable_eq) ?_
      exact fun t h => h.2
    | error e =>
      intro t t₁ r t' t₂ h hrun
      cases h.1

theorem booking_forM {body : Rule → Io Unit} {effect : (Key → Int) → Rule → Key → Int}
    (hbody : ∀ rule f, Booking live member keys answer f (body rule) (effect f rule)) :
    Booking live member keys answer f (forM l body) (l.foldl effect f) := by
  induction l generalizing f with
  | nil => exact booking_skip
  | cons rule l ih =>
    rw [List.forM_cons]
    exact Raising.Triple.bind (fun _ => rfl) (hbody rule f) (fun _ => ih) (fun _ _ h => h)
      fun _ => stable_eq

/-- A loop that clears the keys of some rules. -/
theorem foldl_clear {p : Rule → Bool} {keyOf : Rule → Key} :
    l.foldl (fun f rule => if p rule then Function.update f (keyOf rule) 0 else f) f key =
      if key ∈ (l.filter p).map keyOf then 0 else f key := by
  induction l generalizing f with
  | nil => simp
  | cons rule l ih =>
    rw [List.foldl_cons, ih]
    by_cases hp : p rule = true
    · rw [if_pos hp, List.filter_cons_of_pos hp, List.map_cons]
      by_cases hk : keyOf rule = key
      · subst hk
        simp
      · rw [Function.update_of_ne (Ne.symm hk)]
        simp only [List.mem_cons, Ne.symm hk, false_or]
    · rw [if_neg hp, List.filter_cons_of_neg hp]

/-- A loop that settles the buckets of some rules. -/
theorem foldl_settled {p : Rule → Bool} {keyOf : Rule → Key} {delta : Int} :
    l.foldl (fun f rule => if p rule then settled live delta (keyOf rule) f else f) f key =
      if live key then f key + delta * ((l.filter p).map keyOf).count key
      else if key ∈ (l.filter p).map keyOf then 0 else f key := by
  induction l generalizing f with
  | nil => simp
  | cons rule l ih =>
    rw [List.foldl_cons, ih]
    by_cases hp : p rule = true
    · rw [if_pos hp, List.filter_cons_of_pos hp, List.map_cons]
      unfold settled
      by_cases hk : keyOf rule = key
      · subst hk
        rw [Function.update_self, List.count_cons_self]
        cases live (keyOf rule) with
        | true =>
          simp only [if_true]
          push_cast
          ring
        | false => simp
      · rw [Function.update_of_ne (Ne.symm hk), List.count_cons_of_ne hk]
        simp only [List.mem_cons, Ne.symm hk, false_or]
    · rw [if_neg hp, List.filter_cons_of_neg hp]

/-- What is left when the entries at some keys are removed. -/
def without (keys : List Key) (f : Key → Int) : Key → Int := fun key =>
  if key ∈ keys then 0 else f key

def rpmKeys (l : List Rule) : List Key := (l.filter (·.rpmLimit.isSome)).map (·.rpmKey)
def tpmKeys (l : List Rule) : List Key := (l.filter (·.tpmLimit.isSome)).map (·.tpmKey)
def concKeys (l : List Rule) : List Key := (l.filter (·.maxConcurrent.isSome)).map (·.concKey)

/-- A program that cannot raise takes the books from `f` to `f'`. -/
abbrev Bookkeeping (live : Key → Bool) (member : String) (keys : List Key) (answer : Option Bool) (f : Key → Int)
    (p : Prog Cmd Cmd.Resp Unit) (f' : Key → Int) : Prop :=
  Prog.Triple (Traced (GatesMayFail live)) Eq (Books member f keys answer) p
    fun _ => Books member f' keys answer

theorem booking_suppress {p : Io Unit} (hp : Booking live member keys answer f p f') :
    Bookkeeping live member keys answer f (suppress p) f' := by
  refine Prog.Triple.bind (fun _ => rfl) hp fun outcome => ?_
  cases outcome with
  | ok u => exact Prog.Triple.ret (Q := fun _ => Books member f' keys answer) stable_eq
  | error e => exact fun _ _ _ _ _ h _ => h.elim

/-- A release removes the member at the keys of the rules that have a limit. -/
theorem booking_release {p : Rule → Bool} {keyOf : Rule → Key} :
    Bookkeeping live member keys answer f
      (suppress (forM l fun rule => if p rule then zrem (keyOf rule) member else pure ()))
      (without ((l.filter p).map keyOf) f) := by
  have hbody (rule : Rule) (f : Key → Int) : Booking live member keys answer f
      (if p rule then zrem (keyOf rule) member else pure ())
      (if p rule then Function.update f (keyOf rule) 0 else f) := by
    split
    · exact booking_zrem
    · exact booking_skip
  have heffect : l.foldl (fun f rule => if p rule then Function.update f (keyOf rule) 0 else f) f =
      without ((l.filter p).map keyOf) f := funext fun key => foldl_clear
  rw [← heffect]
  exact booking_suppress (booking_forM hbody)

theorem booking_releaseRpm :
    Bookkeeping live member keys answer f (releaseRpm member l) (without (rpmKeys l) f) :=
  booking_release

theorem booking_releaseConcurrent :
    Bookkeeping live member keys answer f (releaseConcurrent member l) (without (concKeys l) f) :=
  booking_release

/-- What a settlement leaves of `f`. -/
def credited (live : Key → Bool) (delta : Int) (l : List Rule) (f : Key → Int) : Key → Int :=
  fun key => if live key then f key + delta * (tpmKeys l).count key
    else if delta ≠ 0 ∧ key ∈ tpmKeys l then 0 else f key

theorem booking_settleTpm {delta : Int} :
    Booking live member keys answer f (settleTpm l delta) (credited live delta l f) := by
  unfold settleTpm
  by_cases hdelta : delta = 0
  · subst hdelta
    have hsame : credited live 0 l f = f := by
      funext key
      unfold credited
      simp
    rw [hsame]
    exact booking_skip
  · have heffect : l.foldl (fun f rule => if rule.tpmLimit.isSome then
        settled live delta rule.tpmKey f else f) f = credited live delta l f := by
      funext key
      unfold credited
      rw [foldl_settled]
      simp only [ne_eq, hdelta, not_false_eq_true, true_and, tpmKeys]
    rw [if_pos hdelta, ← heffect]
    refine booking_forM fun rule f => ?_
    cases rule.tpmLimit with
    | none => exact booking_skip
    | some tpmLimit => exact booking_settle

end

/-! ## The gates -/

/-- What is held while the gates pass: the weight of every gate granted. -/
def taken (estimatedTokens : Int) (keys : List Key) : Key → Int := fun key =>
  if key ∈ keys then weight estimatedTokens key else 0

/-- The gates granted so far, and what the check remembers of them. The keys in `free` are those of
the gates to come. -/
structure Passing (member : String) (estimatedTokens : Int) (rules : List Rule) (free : List Key)
    (acquired : Acquired) (t : Trace Cmd Cmd.Resp) : Prop where
  books : Books member (taken estimatedTokens (grantedKeys t)) (grantedKeys t) none t
  unused : ∀ key ∈ free, key ∉ grantedKeys t
  rpm : ∀ rule ∈ acquired.rpm, rule.rpmLimit.isSome = true
  rpm_mem : ∀ rule ∈ rules, rule.rpmKey ∈ grantedKeys t → rule ∈ acquired.rpm
  tpm : ∀ rule ∈ acquired.tpm, rule.tpmLimit.isSome = true ∧ rule.tpmKey ∈ grantedKeys t
  tpm_mem : ∀ rule ∈ rules, rule.tpmKey ∈ grantedKeys t → rule ∈ acquired.tpm
  tpm_nodup : (acquired.tpm.map (·.tpmKey)).Nodup
  conc : ∀ rule ∈ rules, rule.concKey ∈ grantedKeys t →
    acquired.concurrent = true ∧ rule.maxConcurrent.isSome = true
  of_rules : ∀ key ∈ grantedKeys t, ∃ rule ∈ rules,
    key = rule.rpmKey ∨ key = rule.tpmKey ∨ key = rule.concKey

section

variable {live : Key → Bool} {member : String} {estimatedTokens nowMs : Int} {isStream : Bool}
  {rules : List Rule} {free : List Key} {acquired : Acquired} {t : Trace Cmd Cmd.Resp} {rule : Rule} {key : Key}

theorem Passing.mono {free' : List Key} (h : Passing member estimatedTokens rules free acquired t)
    (hsub : free' ⊆ free) : Passing member estimatedTokens rules free' acquired t :=
  { h with unused := fun key hk => h.unused key (hsub hk) }

/-- A denial or a failure of a gate leaves the books as they are. -/
theorem Passing.frame {e : Event Cmd Cmd.Resp}
    (h : Passing member estimatedTokens rules free acquired t)
    (ha : ∀ key, amount member key (e :: t) = amount member key t)
    (hg : grantedKeys (e :: t) = grantedKeys t) (he : emergency (e :: t) = emergency t) :
    Passing member estimatedTokens rules free acquired (e :: t) := by
  refine ⟨⟨fun key => ?_, ?_, ?_⟩, ?_, h.rpm, ?_, ?_, ?_, h.tpm_nodup, ?_, ?_⟩
  · rw [ha, hg]
    exact h.books.amounts key
  · rw [hg]
  · rw [he]
    exact h.books.emergency
  · rw [hg]
    exact h.unused
  · rw [hg]
    exact h.rpm_mem
  · rw [hg]
    exact h.tpm
  · rw [hg]
    exact h.tpm_mem
  · rw [hg]
    exact h.conc
  · rw [hg]
    exact h.of_rules

/-- The books after one more gate was granted. -/
theorem taken_cons {keys : List Key} {k : Key} : taken estimatedTokens (key :: keys) k =
    if key = k then weight estimatedTokens key else taken estimatedTokens keys k := by
  unfold taken
  by_cases hk : key = k
  · subst hk
    simp
  · simp [hk, Ne.symm hk]

theorem rpmKey_inj {r r' : Rule} (h : r.rpmKey = r'.rpmKey) : r.id = r'.id := (Key.rpm.inj h).1
theorem tpmKey_inj {r r' : Rule} (h : r.tpmKey = r'.tpmKey) : r.id = r'.id := (Key.tpm.inj h).1
theorem concKey_inj {r r' : Rule} (h : r.concKey = r'.concKey) : r.id = r'.id := (Key.conc.inj h).1

/-- The rules of a request have different ids. -/
def DistinctIds (rules : List Rule) : Prop := (rules.map (·.id)).Nodup

theorem DistinctIds.eq (h : DistinctIds rules) {r r' : Rule} (hr : r ∈ rules) (hr' : r' ∈ rules)
    (hid : r.id = r'.id) : r = r' := List.inj_on_of_nodup_map h hr hr' hid

/-- What one more granted gate does to the trace. -/
structure Grants (member : String) (estimatedTokens : Int) (key : Key) (e : Event Cmd Cmd.Resp)
    (t : Trace Cmd Cmd.Resp) : Prop where
  amounts : ∀ k, amount member k (e :: t) =
    if key = k then amount member k t + weight estimatedTokens key else amount member k t
  granted : grantedKeys (e :: t) = key :: grantedKeys t
  emergency : emergency (e :: t) = emergency t

theorem Grants.books {e : Event Cmd Cmd.Resp} (hg : Grants member estimatedTokens key e t)
    (h : Passing member estimatedTokens rules free acquired t) (hfree : key ∈ free) :
    Books member (taken estimatedTokens (grantedKeys (e :: t))) (grantedKeys (e :: t)) none
      (e :: t) := by
  refine ⟨fun k => ?_, rfl, hg.emergency.trans h.books.emergency⟩
  rw [hg.granted, taken_cons, hg.amounts k, h.books.amounts k]
  by_cases hk : key = k
  · subst hk
    rw [if_pos rfl, if_pos rfl, taken, if_neg (h.unused key hfree), Int.zero_add]
  · rw [if_neg hk, if_neg hk]

theorem Grants.unused {e : Event Cmd Cmd.Resp} {free' : List Key}
    (hg : Grants member estimatedTokens key e t)
    (h : Passing member estimatedTokens rules (key :: free') acquired t) (hkey : key ∉ free') :
    ∀ k ∈ free', k ∉ grantedKeys (e :: t) := by
  intro k hk
  rw [hg.granted, List.mem_cons, not_or]
  exact ⟨fun he => hkey (he ▸ hk), h.unused k (List.mem_cons_of_mem _ hk)⟩

theorem Grants.mem_iff {e : Event Cmd Cmd.Resp} {k : Key}
    (hg : Grants member estimatedTokens key e t) :
    k ∈ grantedKeys (e :: t) ↔ k = key ∨ k ∈ grantedKeys t := by
  rw [hg.granted, List.mem_cons]

/-- The grant of a gate is none of another gate. -/
theorem Grants.of_ne {e : Event Cmd Cmd.Resp} {k : Key}
    (hg : Grants member estimatedTokens key e t) (hk : k ∈ grantedKeys (e :: t)) (hne : k ≠ key) :
    k ∈ grantedKeys t :=
  (hg.mem_iff.1 hk).resolve_left hne

theorem Grants.of_rules {e : Event Cmd Cmd.Resp} (hg : Grants member estimatedTokens key e t)
    (h : Passing member estimatedTokens rules free acquired t) (hr : rule ∈ rules)
    (hkey : key = rule.rpmKey ∨ key = rule.tpmKey ∨ key = rule.concKey) :
    ∀ k ∈ grantedKeys (e :: t), ∃ rule ∈ rules,
      k = rule.rpmKey ∨ k = rule.tpmKey ∨ k = rule.concKey := by
  intro k hk
  rcases hg.mem_iff.1 hk with rfl | hk
  · exact ⟨rule, hr, hkey⟩
  · exact h.of_rules k hk

theorem Passing.rpm_granted {e : Event Cmd Cmd.Resp} {acquired' : Acquired} (hids : DistinctIds rules)
    (hr : rule ∈ rules) (hlimit : rule.rpmLimit.isSome = true)
    (h : Passing member estimatedTokens rules (rule.rpmKey :: free) acquired t)
    (hkey : rule.rpmKey ∉ free) (hg : Grants member estimatedTokens rule.rpmKey e t)
    (hrpm : acquired'.rpm = acquired.rpm ++ [rule]) (htpm : acquired'.tpm = acquired.tpm)
    (hconc : acquired'.concurrent = acquired.concurrent) :
    Passing member estimatedTokens rules free acquired' (e :: t) := by
  refine ⟨hg.books h List.mem_cons_self, hg.unused h hkey, ?_, ?_, ?_, ?_, ?_, ?_, ?_⟩
  · rw [hrpm]
    intro r hr'
    rcases List.mem_append.1 hr' with hr' | hr'
    · exact h.rpm r hr'
    · rw [List.mem_singleton.1 hr']
      exact hlimit
  · rw [hrpm]
    intro r hr' hk
    rcases hg.mem_iff.1 hk with hk | hk
    · rw [hids.eq hr' hr (rpmKey_inj hk)]
      simp
    · exact List.mem_append_left _ (h.rpm_mem r hr' hk)
  · rw [htpm]
    exact fun r hr' => ⟨(h.tpm r hr').1, hg.mem_iff.2 (.inr (h.tpm r hr').2)⟩
  · rw [htpm]
    exact fun r hr' hk => h.tpm_mem r hr' (hg.of_ne hk fun he => by cases he)
  · rw [htpm]
    exact h.tpm_nodup
  · rw [hconc]
    exact fun r hr' hk => h.conc r hr' (hg.of_ne hk fun he => by cases he)
  · exact hg.of_rules h hr (.inl rfl)

theorem Passing.tpm_granted {e : Event Cmd Cmd.Resp} {acquired' : Acquired} (hids : DistinctIds rules)
    (hr : rule ∈ rules) (hlimit : rule.tpmLimit.isSome = true)
    (h : Passing member estimatedTokens rules (rule.tpmKey :: free) acquired t)
    (hkey : rule.tpmKey ∉ free) (hg : Grants member estimatedTokens rule.tpmKey e t)
    (hrpm : acquired'.rpm = acquired.rpm) (htpm : acquired'.tpm = acquired.tpm ++ [rule])
    (hconc : acquired'.concurrent = acquired.concurrent) :
    Passing member estimatedTokens rules free acquired' (e :: t) := by
  refine ⟨hg.books h List.mem_cons_self, hg.unused h hkey, ?_, ?_, ?_, ?_, ?_, ?_, ?_⟩
  · rw [hrpm]
    exact h.rpm
  · rw [hrpm]
    exact fun r hr' hk => h.rpm_mem r hr' (hg.of_ne hk fun he => by cases he)
  · rw [htpm]
    intro r hr'
    rcases List.mem_append.1 hr' with hr' | hr'
    · exact ⟨(h.tpm r hr').1, hg.mem_iff.2 (.inr (h.tpm r hr').2)⟩
    · rw [List.mem_singleton.1 hr']
      exact ⟨hlimit, hg.mem_iff.2 (.inl rfl)⟩
  · rw [htpm]
    intro r hr' hk
    rcases hg.mem_iff.1 hk with hk | hk
    · rw [hids.eq hr' hr (tpmKey_inj hk)]
      simp
    · exact List.mem_append_left _ (h.tpm_mem r hr' hk)
  · rw [htpm, List.map_append, List.nodup_append]
    refine ⟨h.tpm_nodup, List.nodup_singleton _, ?_⟩
    intro k hk k' hk' heq
    obtain ⟨r, hr', rfl⟩ := List.mem_map.1 hk
    rw [List.map_singleton, List.mem_singleton] at hk'
    rw [heq, hk'] at hk
    have hgranted := (h.tpm r hr').2
    rw [heq, hk'] at hgranted
    exact h.unused _ List.mem_cons_self hgranted
  · rw [hconc]
    exact fun r hr' hk => h.conc r hr' (hg.of_ne hk fun he => by cases he)
  · exact hg.of_rules h hr (.inr (.inl rfl))

theorem Passing.conc_granted {e : Event Cmd Cmd.Resp} {acquired' : Acquired}
    (hids : DistinctIds rules) (hr : rule ∈ rules) (hlimit : rule.maxConcurrent.isSome = true)
    (h : Passing member estimatedTokens rules (rule.concKey :: free) acquired t)
    (hkey : rule.concKey ∉ free) (hg : Grants member estimatedTokens rule.concKey e t)
    (hrpm : acquired'.rpm = acquired.rpm) (htpm : acquired'.tpm = acquired.tpm)
    (hconc : acquired'.concurrent = true) :
    Passing member estimatedTokens rules free acquired' (e :: t) := by
  refine ⟨hg.books h List.mem_cons_self, hg.unused h hkey, ?_, ?_, ?_, ?_, ?_, ?_, ?_⟩
  · rw [hrpm]
    exact h.rpm
  · rw [hrpm]
    exact fun r hr' hk => h.rpm_mem r hr' (hg.of_ne hk fun he => by cases he)
  · rw [htpm]
    exact fun r hr' => ⟨(h.tpm r hr').1, hg.mem_iff.2 (.inr (h.tpm r hr').2)⟩
  · rw [htpm]
    exact fun r hr' hk => h.tpm_mem r hr' (hg.of_ne hk fun he => by cases he)
  · rw [htpm]
    exact h.tpm_nodup
  · intro r hr' hk
    rcases hg.mem_iff.1 hk with hk | hk
    · rw [hids.eq hr' hr (concKey_inj hk)]
      exact ⟨hconc, hlimit⟩
    · exact ⟨hconc, (h.conc r hr' hk).2⟩
  · exact hg.of_rules h hr (.inr (.inr rfl))

theorem Passing.amount_unused (h : Passing member estimatedTokens rules (key :: free) acquired t) :
    amount member key t = 0 := by
  rw [h.books.amounts key]
  exact if_neg (h.unused key List.mem_cons_self)

theorem grants_rpm {now windowMs limit : Int} {r : Except RedisError (Bool × Int × Int × Int)}
    (h : Passing member estimatedTokens rules (rule.rpmKey :: free) acquired t)
    (hr : granted r = true) :
    Grants member estimatedTokens rule.rpmKey
      ⟨.rpmCheck rule.rpmKey now windowMs limit member, r⟩ t where
  amounts k := by
    by_cases hk : rule.rpmKey = k
    · subst hk
      rw [if_pos rfl, h.amount_unused]
      exact if_pos ⟨rfl, rfl, hr⟩
    · rw [if_neg hk]
      exact if_neg fun hc => hk hc.1
  granted := if_pos hr
  emergency := rfl

theorem grants_tpm {now limit refillRate ttlMs : Int} {r : Except RedisError (Bool × Int × Int)}
    (hr : granted r = true) :
    Grants member estimatedTokens rule.tpmKey
      ⟨.tpmCheck rule.tpmKey now limit estimatedTokens refillRate ttlMs, r⟩ t where
  amounts k := by
    by_cases hk : rule.tpmKey = k
    · subst hk
      rw [if_pos rfl]
      exact if_pos ⟨rfl, hr⟩
    · rw [if_neg hk]
      exact if_neg fun hc => hk hc.1
  granted := if_pos hr
  emergency := rfl

theorem grants_conc {now limit timeoutMs : Int} {r : Except RedisError (Bool × Int × Int)}
    (h : Passing member estimatedTokens rules (rule.concKey :: free) acquired t)
    (hr : granted r = true) :
    Grants member estimatedTokens rule.concKey
      ⟨.concurrentCheck rule.concKey now limit member timeoutMs, r⟩ t where
  amounts k := by
    by_cases hk : rule.concKey = k
    · subst hk
      rw [if_pos rfl, h.amount_unused]
      exact if_pos ⟨rfl, rfl, hr⟩
    · rw [if_neg hk]
      exact if_neg fun hc => hk hc.1
  granted := if_pos hr
  emergency := rfl

/-- Every bucket of the rules was checked, or its gate is still to come. -/
def Reserved (rules : List Rule) (free : List Key) (t : Trace Cmd Cmd.Resp) : Prop :=
  ∀ rule ∈ rules, rule.tpmLimit.isSome = true →
    rule.tpmKey ∈ grantedKeys t ∨ rule.tpmKey ∈ free

/-- How the gates end. -/
def GateEnd (member : String) (estimatedTokens : Int) (rules : List Rule) (free : List Key) :
    Except Stop Acquired → Trace Cmd Cmd.Resp → Prop
  | .ok acquired, t =>
    Passing member estimatedTokens rules free acquired t ∧ Reserved rules free t
  | .error (.denied result acquired), t =>
    result.allowed = false ∧ Passing member estimatedTokens rules [] acquired t
  | .error .redisError, t => ∃ acquired, Passing member estimatedTokens rules [] acquired t

/-- Before a gate. -/
abbrev AtGate (member : String) (estimatedTokens : Int) (rules : List Rule) (free : List Key)
    (acquired : Acquired) (t : Trace Cmd Cmd.Resp) : Prop :=
  Passing member estimatedTokens rules free acquired t ∧ Reserved rules free t

/-- A gate command and the rest: `M` is what holds when it answers. -/
theorem traced_gate {α : Type} {p : Prog Cmd Cmd.Resp (Except RedisError α)}
    {P : Trace Cmd Cmd.Resp → Prop} {M : α → Trace Cmd Cmd.Resp → Prop} {f : α → Gate Acquired}
    (hp : Prog.Triple (Traced (GatesMayFail live)) Eq P p
      (Raising.Ends M fun _ t => ∃ acquired, Passing member estimatedTokens rules [] acquired t))
    (hf : ∀ a, Raising.Triple (Traced (GatesMayFail live)) Eq (M a) (f a)
      (GateEnd member estimatedTokens rules free)) :
    Raising.Triple (Traced (GatesMayFail live)) Eq P (gate p >>= f)
      (GateEnd member estimatedTokens rules free) := by
  let Q : Except Stop α → Trace Cmd Cmd.Resp → Prop := Raising.Ends M fun e t =>
    e = Stop.redisError ∧ ∃ acquired, Passing member estimatedTokens rules [] acquired t
  have hgate : Raising.Triple (Traced (GatesMayFail live)) Eq P (gate p) Q := by
    refine Prog.Triple.bind (fun _ => rfl) hp fun answer => ?_
    cases answer with
    | ok a => exact Prog.Triple.ret (Q := Q) (a := .ok a) stable_eq
    | error e =>
      refine Prog.Triple.pre (Prog.Triple.ret (Q := Q) (a := .error .redisError) stable_eq) ?_
      exact fun t h => ⟨rfl, h⟩
  refine Raising.Triple.bind (fun _ => rfl) hgate hf (fun e t h => ?_) fun _ => stable_eq
  obtain ⟨rfl, h⟩ := h
  exact h

theorem Reserved.drop {key : Key} (h : Reserved rules (key :: free) t)
    (hne : ∀ rule ∈ rules, rule.tpmLimit.isSome = true → rule.tpmKey ≠ key) :
    Reserved rules free t := by
  intro r hr hlimit
  rcases h r hr hlimit with hg | hf
  · exact .inl hg
  · rcases List.mem_cons.1 hf with hk | hf
    · exact absurd hk (hne r hr hlimit)
    · exact .inr hf

theorem Reserved.cons {e : Event Cmd Cmd.Resp} (h : Reserved rules free t)
    (hsub : grantedKeys t ⊆ grantedKeys (e :: t)) : Reserved rules free (e :: t) := by
  intro r hr hlimit
  exact (h r hr hlimit).imp_left fun hg => hsub hg

/-- After a gate's answer: the books for whatever the check remembers next, or the books as they
were. -/
def Answered (member : String) (estimatedTokens : Int) (rules : List Rule) (free : List Key)
    (acquired : Acquired) (N : Acquired → Prop) (allowed : Bool) (t : Trace Cmd Cmd.Resp) : Prop :=
  if allowed then ∀ acquired', N acquired' → AtGate member estimatedTokens rules free acquired' t
  else Passing member estimatedTokens rules [] acquired t

/-- One gate: its command, then the gates passed or a denial. -/
theorem gate_ledger {α : Type} {key : Key} {p : Prog Cmd Cmd.Resp (Except RedisError (Bool × α))}
    {N : Acquired → Prop} {f : Bool × α → Gate Acquired}
    (hp : Prog.Triple (Traced (GatesMayFail live)) Eq
      (AtGate member estimatedTokens rules (key :: free) acquired) p
        (Raising.Ends (fun a => Answered member estimatedTokens rules free acquired N a.1)
          fun _ t => ∃ acquired, Passing member estimatedTokens rules [] acquired t))
    (hpass : ∀ a, ∃ acquired', f (true, a) = pure acquired' ∧ N acquired')
    (hdeny : ∀ a, ∃ result, f (false, a) = throw (.denied result acquired) ∧
      result.allowed = false) :
    Raising.Triple (Traced (GatesMayFail live)) Eq
      (AtGate member estimatedTokens rules (key :: free) acquired) (gate p >>= f)
      (GateEnd member estimatedTokens rules free) := by
  refine traced_gate hp fun a => ?_
  obtain ⟨allowed, a⟩ := a
  cases allowed with
  | true =>
    obtain ⟨acquired', hf, hnext⟩ := hpass a
    rw [hf]
    refine Prog.Triple.pre (Raising.Triple.pure
      (Q := GateEnd member estimatedTokens rules free) stable_eq) ?_
    exact fun t h => h acquired' hnext
  | false =>
    obtain ⟨result, hf, hresult⟩ := hdeny a
    rw [hf]
    refine Prog.Triple.pre (Raising.Triple.throw
      (Q := GateEnd member estimatedTokens rules free) stable_eq) ?_
    exact fun t h => ⟨hresult, h⟩

theorem rpmGate_ledger (hids : DistinctIds rules) (hr : rule ∈ rules) (hkey : rule.rpmKey ∉ free) :
    Raising.Triple (Traced (GatesMayFail live)) Eq
      (AtGate member estimatedTokens rules (rule.rpmKey :: free) acquired)
      (rpmGate nowMs member rule acquired) (GateEnd member estimatedTokens rules free) := by
  unfold rpmGate
  cases hlimit : rule.rpmLimit with
  | none =>
    refine Prog.Triple.pre (Raising.Triple.pure
      (Q := GateEnd member estimatedTokens rules free) stable_eq) ?_
    intro t h
    exact ⟨h.1.mono (List.subset_cons_self _ _), h.2.drop fun r _ _ => nofun⟩
  | some rpmLimit =>
    refine gate_ledger (N := fun acquired' => acquired'.rpm = acquired.rpm ++ [rule] ∧
      acquired'.tpm = acquired.tpm ∧ acquired'.concurrent = acquired.concurrent)
      (traced_cmd fun answer t h _ => ?_) (fun a => ⟨_, rfl, rfl, rfl, rfl⟩) fun a => ⟨_, rfl, rfl⟩
    have hrefused {r : Except RedisError (Bool × Int × Int × Int)} (hr : granted r = false) :
        Passing member estimatedTokens rules [] acquired
          (⟨.rpmCheck rule.rpmKey nowMs 60000 rpmLimit member, r⟩ :: t) :=
      (h.1.frame (fun k => by simp [amount, hr]) (by simp [grantedKeys, hr]) rfl).mono
        (List.nil_subset _)
    rcases answer with e | ⟨allowed, a⟩
    · exact ⟨acquired, hrefused rfl⟩
    · cases allowed with
      | true =>
        intro acquired' hnext
        have hg : Grants member estimatedTokens rule.rpmKey
            ⟨.rpmCheck rule.rpmKey nowMs 60000 rpmLimit member, .ok (true, a)⟩ t := grants_rpm h.1 rfl
        refine ⟨h.1.rpm_granted hids hr (by rw [hlimit]; rfl) hkey hg hnext.1 hnext.2.1 hnext.2.2, ?_⟩
        refine (h.2.drop fun r _ _ => nofun).cons ?_
        rw [hg.granted]
        exact List.subset_cons_self _ _
      | false => exact hrefused rfl

theorem tpmGate_ledger (hids : DistinctIds rules) (hr : rule ∈ rules) (hkey : rule.tpmKey ∉ free)
    (hpos : 0 < estimatedTokens) :
    Raising.Triple (Traced (GatesMayFail live)) Eq
      (AtGate member estimatedTokens rules (rule.tpmKey :: free) acquired)
      (tpmGate nowMs estimatedTokens rule acquired) (GateEnd member estimatedTokens rules free) := by
  unfold tpmGate
  cases hlimit : rule.tpmLimit with
  | none =>
    refine Prog.Triple.pre (Raising.Triple.pure
      (Q := GateEnd member estimatedTokens rules free) stable_eq) ?_
    intro t h
    refine ⟨h.1.mono (List.subset_cons_self _ _), h.2.drop fun r hr' hsome hk => ?_⟩
    rw [hids.eq hr' hr (tpmKey_inj hk), hlimit] at hsome
    cases hsome
  | some tpmLimit =>
    dsimp only
    rw [if_pos hpos]
    refine gate_ledger (N := fun acquired' => acquired'.rpm = acquired.rpm ∧
      acquired'.tpm = acquired.tpm ++ [rule] ∧ acquired'.concurrent = acquired.concurrent)
      (traced_cmd fun answer t h _ => ?_) (fun a => ⟨_, rfl, rfl, rfl, rfl⟩) fun a => ⟨_, rfl, rfl⟩
    have hrefused {r : Except RedisError (Bool × Int × Int)} (hr : granted r = false) :
        Passing member estimatedTokens rules [] acquired (⟨.tpmCheck rule.tpmKey nowMs
          (rule.burst tpmLimit) estimatedTokens tpmLimit tpmBucketTtlMs, r⟩ :: t) :=
      (h.1.frame (fun k => by simp [amount, hr]) (by simp [grantedKeys, hr]) rfl).mono
        (List.nil_subset _)
    rcases answer with e | ⟨allowed, a⟩
    · exact ⟨acquired, hrefused rfl⟩
    · cases allowed with
      | true =>
        intro acquired' hnext
        have hg : Grants member estimatedTokens rule.tpmKey ⟨.tpmCheck rule.tpmKey nowMs
            (rule.burst tpmLimit) estimatedTokens tpmLimit tpmBucketTtlMs, .ok (true, a)⟩ t :=
          grants_tpm rfl
        refine ⟨h.1.tpm_granted hids hr (by rw [hlimit]; rfl) hkey hg hnext.1 hnext.2.1 hnext.2.2, ?_⟩
        intro r hr' hsome
        rw [hg.granted, List.mem_cons]
        rcases h.2 r hr' hsome with hold | hfree
        · exact .inl (.inr hold)
        · exact (List.mem_cons.1 hfree).imp_left .inl
      | false => exact hrefused rfl

theorem concurrentGate_ledger (hids : DistinctIds rules) (hr : rule ∈ rules)
    (hkey : rule.concKey ∉ free) :
    Raising.Triple (Traced (GatesMayFail live)) Eq
      (AtGate member estimatedTokens rules (rule.concKey :: free) acquired)
      (concurrentGate nowMs member isStream rule acquired)
      (GateEnd member estimatedTokens rules free) := by
  have hskip : Raising.Triple (Traced (GatesMayFail live)) Eq
      (AtGate member estimatedTokens rules (rule.concKey :: free) acquired)
      (pure acquired : Gate Acquired) (GateEnd member estimatedTokens rules free) := by
    refine Prog.Triple.pre (Raising.Triple.pure
      (Q := GateEnd member estimatedTokens rules free) stable_eq) ?_
    intro t h
    exact ⟨h.1.mono (List.subset_cons_self _ _), h.2.drop fun r _ _ => nofun⟩
  unfold concurrentGate
  cases hlimit : rule.maxConcurrent with
  | none => exact hskip
  | some maxConcurrent =>
    cases isStream with
    | false => exact hskip
    | true =>
      refine gate_ledger (N := fun acquired' => acquired'.rpm = acquired.rpm ∧
        acquired'.tpm = acquired.tpm ∧ acquired'.concurrent = true)
        (traced_cmd fun answer t h _ => ?_) (fun a => ⟨_, rfl, rfl, rfl, rfl⟩)
        fun a => ⟨_, rfl, rfl⟩
      have hrefused {r : Except RedisError (Bool × Int × Int)} (hr : granted r = false) :
          Passing member estimatedTokens rules [] acquired (⟨.concurrentCheck rule.concKey nowMs
            maxConcurrent member (concurrentStaleTimeoutSeconds * 1000), r⟩ :: t) :=
        (h.1.frame (fun k => by simp [amount, hr]) (by simp [grantedKeys, hr]) rfl).mono
          (List.nil_subset _)
      rcases answer with e | ⟨allowed, a⟩
      · exact ⟨acquired, hrefused rfl⟩
      · cases allowed with
        | true =>
          intro acquired' hnext
          have hg : Grants member estimatedTokens rule.concKey ⟨.concurrentCheck rule.concKey nowMs
              maxConcurrent member (concurrentStaleTimeoutSeconds * 1000), .ok (true, a)⟩ t :=
            grants_conc h.1 rfl
          refine ⟨h.1.conc_granted hids hr (by rw [hlimit]; rfl) hkey hg hnext.1 hnext.2.1
            hnext.2.2, ?_⟩
          refine (h.2.drop fun r _ _ => nofun).cons ?_
          rw [hg.granted]
          exact List.subset_cons_self _ _
        | false => exact hrefused rfl

/-- The keys of the gates of some rules, in the order of the check. -/
def gateKeys (l : List Rule) : List Key :=
  l.flatMap fun rule => [rule.rpmKey, rule.tpmKey, rule.concKey]

theorem mem_gateKeys {l : List Rule} {k : Key} : k ∈ gateKeys l ↔
    ∃ r ∈ l, k = r.rpmKey ∨ k = r.tpmKey ∨ k = r.concKey := by
  simp [gateKeys]

/-- A gate that ends early is not followed by another one. -/
theorem gateEnd_bind {free' : List Key} {g : Gate Acquired} {f : Acquired → Gate Acquired}
    {P : Trace Cmd Cmd.Resp → Prop}
    (hg : Raising.Triple (Traced (GatesMayFail live)) Eq P g (GateEnd member estimatedTokens rules free))
    (hf : ∀ acquired, Raising.Triple (Traced (GatesMayFail live)) Eq
      (AtGate member estimatedTokens rules free acquired) (f acquired)
      (GateEnd member estimatedTokens rules free')) :
    Raising.Triple (Traced (GatesMayFail live)) Eq P (g >>= f)
      (GateEnd member estimatedTokens rules free') :=
  Raising.Triple.bind (fun _ => rfl) hg hf
    (fun e t h => by cases e <;> exact h) fun _ => stable_eq

theorem checkRule_ledger {rest : List Rule} (hids : DistinctIds rules)
    (hsub : rule :: rest ⊆ rules) (hdistinct : DistinctIds (rule :: rest))
    (hpos : 0 < estimatedTokens) :
    Raising.Triple (Traced (GatesMayFail live)) Eq
      (AtGate member estimatedTokens rules (gateKeys (rule :: rest)) acquired)
      (checkRule nowMs member estimatedTokens isStream acquired rule)
      (GateEnd member estimatedTokens rules (gateKeys rest)) := by
  have hr : rule ∈ rules := hsub List.mem_cons_self
  have hother : ∀ r ∈ rest, rule.id ≠ r.id := by
    intro r hr' hid
    have := (List.nodup_cons.1 hdistinct).1
    exact this (List.mem_map.2 ⟨r, hr', hid.symm⟩)
  have hrpm : rule.rpmKey ∉ rule.tpmKey :: rule.concKey :: gateKeys rest := by
    simp only [List.mem_cons, mem_gateKeys, not_or, not_exists, not_and]
    exact ⟨nofun, nofun, fun r hr' => ⟨fun hk => hother r hr' (rpmKey_inj hk), nofun, nofun⟩⟩
  have htpm : rule.tpmKey ∉ rule.concKey :: gateKeys rest := by
    simp only [List.mem_cons, mem_gateKeys, not_or, not_exists, not_and]
    exact ⟨nofun, fun r hr' => ⟨nofun, fun hk => hother r hr' (tpmKey_inj hk), nofun⟩⟩
  have hconc : rule.concKey ∉ gateKeys rest := by
    simp only [mem_gateKeys, not_or, not_exists, not_and]
    exact fun r hr' => ⟨nofun, nofun, fun hk => hother r hr' (concKey_inj hk)⟩
  exact gateEnd_bind (rpmGate_ledger hids hr hrpm) fun _ =>
    gateEnd_bind (tpmGate_ledger hids hr htpm hpos) fun _ => concurrentGate_ledger hids hr hconc

theorem gates_ledger {rest : List Rule} (hids : DistinctIds rules) (hsub : rest ⊆ rules)
    (hdistinct : DistinctIds rest) (hpos : 0 < estimatedTokens) :
    Raising.Triple (Traced (GatesMayFail live)) Eq
      (AtGate member estimatedTokens rules (gateKeys rest) acquired)
      (rest.foldlM (checkRule nowMs member estimatedTokens isStream) acquired)
      (GateEnd member estimatedTokens rules []) := by
  induction rest generalizing acquired with
  | nil => exact Raising.Triple.pure (Q := GateEnd member estimatedTokens rules []) stable_eq
  | cons rule rest ih =>
    rw [List.foldlM_cons]
    exact gateEnd_bind (checkRule_ledger hids hsub hdistinct hpos) fun _ =>
      ih (fun r hr => hsub (List.mem_cons_of_mem _ hr)) (List.nodup_cons.1 hdistinct).2

/-! ## The rollback -/

/-- What a rollback leaves of `f`. -/
def rolledBack (live : Key → Bool) (estimatedTokens : Int) (rules : List Rule) (acquired : Acquired)
    (f : Key → Int) : Key → Int :=
  without (if acquired.concurrent then concKeys rules else [])
    (credited live estimatedTokens acquired.tpm (without (rpmKeys acquired.rpm) f))

theorem without_nil {f : Key → Int} : without [] f = f := funext fun key => by simp [without]

theorem bookkeeping_skip {keys : List Key} {answer : Option Bool} {f : Key → Int} :
    Bookkeeping live member keys answer f (pure ()) f :=
  Prog.Triple.ret (Q := fun _ => Books member f keys answer) stable_eq

theorem rollback_books {keys : List Key} {answer : Option Bool} {f : Key → Int} :
    Bookkeeping live member keys answer f (rollback member estimatedTokens rules acquired)
      (rolledBack live estimatedTokens rules acquired f) := by
  have hconc (g : Key → Int) : Bookkeeping live member keys answer g
      (if acquired.concurrent then releaseConcurrent member rules else pure ())
      (without (if acquired.concurrent then concKeys rules else []) g) := by
    split
    · exact booking_releaseConcurrent
    · rw [without_nil]
      exact bookkeeping_skip
  have htpm (g : Key → Int) : Bookkeeping live member keys answer g (do
      if acquired.tpm ≠ [] then suppress (settleTpm acquired.tpm estimatedTokens)
      if acquired.concurrent then releaseConcurrent member rules)
      (without (if acquired.concurrent then concKeys rules else [])
        (credited live estimatedTokens acquired.tpm g)) := by
    by_cases ht : acquired.tpm ≠ []
    · simp only [if_pos ht]
      exact Prog.Triple.bind (fun _ => rfl) (booking_suppress booking_settleTpm) fun _ => hconc _
    · simp only [if_neg ht]
      rw [not_not] at ht
      have hsame : credited live estimatedTokens [] g = g := by
        funext key
        unfold credited tpmKeys
        simp
      rw [ht, hsame]
      exact hconc g
  unfold rollback rolledBack
  by_cases hrpm : acquired.rpm ≠ []
  · simp only [if_pos hrpm]
    exact Prog.Triple.bind (fun _ => rfl) booking_releaseRpm fun _ => htpm _
  · simp only [if_neg hrpm]
    rw [not_not] at hrpm
    simp only [hrpm, rpmKeys, List.filter_nil, List.map_nil, without_nil]
    exact htpm f

theorem rpmKey_not_mem_concKeys {l : List Rule} : rule.rpmKey ∉ concKeys l := by
  simp [concKeys, Rule.rpmKey, Rule.concKey]

theorem tpmKey_not_mem_concKeys {l : List Rule} : rule.tpmKey ∉ concKeys l := by
  simp [concKeys, Rule.tpmKey, Rule.concKey]

theorem tpmKey_not_mem_rpmKeys {l : List Rule} : rule.tpmKey ∉ rpmKeys l := by
  simp [rpmKeys, Rule.tpmKey, Rule.rpmKey]

theorem concKey_not_mem_rpmKeys {l : List Rule} : rule.concKey ∉ rpmKeys l := by
  simp [rpmKeys, Rule.concKey, Rule.rpmKey]

theorem rpmKey_not_mem_tpmKeys {l : List Rule} : rule.rpmKey ∉ tpmKeys l := by
  simp [tpmKeys, Rule.rpmKey, Rule.tpmKey]

theorem concKey_not_mem_tpmKeys {l : List Rule} : rule.concKey ∉ tpmKeys l := by
  simp [tpmKeys, Rule.concKey, Rule.tpmKey]

theorem mem_tpmKeys {l : List Rule} (hr : rule ∈ l) (hlimit : rule.tpmLimit.isSome = true) :
    rule.tpmKey ∈ tpmKeys l :=
  List.mem_map.2 ⟨rule, List.mem_filter.2 ⟨hr, hlimit⟩, rfl⟩

theorem mem_rpmKeys {l : List Rule} (hr : rule ∈ l) (hlimit : rule.rpmLimit.isSome = true) :
    rule.rpmKey ∈ rpmKeys l :=
  List.mem_map.2 ⟨rule, List.mem_filter.2 ⟨hr, hlimit⟩, rfl⟩

theorem mem_concKeys {l : List Rule} (hr : rule ∈ l) (hlimit : rule.maxConcurrent.isSome = true) :
    rule.concKey ∈ concKeys l :=
  List.mem_map.2 ⟨rule, List.mem_filter.2 ⟨hr, hlimit⟩, rfl⟩

theorem credited_of_not_mem {delta : Int} {l : List Rule} {f : Key → Int} (h : key ∉ tpmKeys l) :
    credited live delta l f key = f key := by
  have hnone : ¬ (delta ≠ 0 ∧ key ∈ tpmKeys l) := fun hc => h hc.2
  unfold credited
  rw [List.count_eq_zero_of_not_mem h, if_neg hnone]
  simp

/-- A settlement of what a bucket holds. -/
theorem credited_self {delta : Int} {l : List Rule} {f : Key → Int} (hnodup : (tpmKeys l).Nodup)
    (hmem : key ∈ tpmKeys l) (hf : f key = -delta) : credited live delta l f key = 0 := by
  unfold credited
  rw [List.count_eq_one_of_mem hnodup hmem, hf]
  by_cases hdelta : delta = 0
  · simp [hdelta]
  · simp [hdelta, hmem]

/-- A denied request holds nothing after its rollback. -/
theorem Passing.rolledBack (h : Passing member estimatedTokens rules free acquired t)
    (hr : rule ∈ rules) {k : Key} (hk : k = rule.rpmKey ∨ k = rule.tpmKey ∨ k = rule.concKey) :
    rolledBack live estimatedTokens rules acquired (taken estimatedTokens (grantedKeys t)) k = 0 := by
  unfold RateLimit.rolledBack
  rcases hk with rfl | rfl | rfl
  · have hconc : rule.rpmKey ∉ if acquired.concurrent then concKeys rules else [] := by
      split
      · exact rpmKey_not_mem_concKeys
      · exact List.not_mem_nil
    rw [without, if_neg hconc, credited_of_not_mem rpmKey_not_mem_tpmKeys, without, taken]
    by_cases hg : rule.rpmKey ∈ grantedKeys t
    · have hmem := h.rpm_mem rule hr hg
      have hin : rule.rpmKey ∈ rpmKeys acquired.rpm := mem_rpmKeys hmem (h.rpm rule hmem)
      rw [if_pos hin]
    · rw [if_neg hg, ite_self]
  · have hconc : rule.tpmKey ∉ if acquired.concurrent then concKeys rules else [] := by
      split
      · exact tpmKey_not_mem_concKeys
      · exact List.not_mem_nil
    rw [without, if_neg hconc]
    by_cases hg : rule.tpmKey ∈ grantedKeys t
    · have hmem := h.tpm_mem rule hr hg
      have hnodup : (tpmKeys acquired.tpm).Nodup :=
        h.tpm_nodup.sublist (List.filter_sublist.map _)
      refine credited_self hnodup (mem_tpmKeys hmem (h.tpm rule hmem).1) ?_
      rw [without, if_neg tpmKey_not_mem_rpmKeys, taken, if_pos hg]
      rfl
    · have hnot : rule.tpmKey ∉ tpmKeys acquired.tpm := by
        intro hmem
        obtain ⟨r, hr', hk⟩ := List.mem_map.1 hmem
        have hgr := (h.tpm r (List.mem_of_mem_filter hr')).2
        rw [hk] at hgr
        exact hg hgr
      rw [credited_of_not_mem hnot, without, if_neg tpmKey_not_mem_rpmKeys, taken, if_neg hg]
  · by_cases hconc : rule.concKey ∈ if acquired.concurrent then concKeys rules else []
    · rw [without, if_pos hconc]
    · have hfree : rule.concKey ∉ grantedKeys t := by
        intro hg
        obtain ⟨hacquired, hlimit⟩ := h.conc rule hr hg
        rw [if_pos hacquired] at hconc
        exact hconc (mem_concKeys hr hlimit)
      rw [without, if_neg hconc, credited_of_not_mem concKey_not_mem_tpmKeys, without,
        if_neg concKey_not_mem_rpmKeys, taken, if_neg hfree]

/-! ## The books of a request -/

/-- How a check ends: with every gate passed, with nothing held, or at the emergency limiter. -/
inductive CheckEnd (member : String) (estimatedTokens : Int) (rules : List Rule)
    (result : CheckResult) (t : Trace Cmd Cmd.Resp) : Prop
  | passed (acquired : Acquired) : result.allowed = true →
      AtGate member estimatedTokens rules [] acquired t → CheckEnd member estimatedTokens rules result t
  | denied : result.allowed = false → emergency t = none →
      (∀ rule ∈ rules, amount member rule.tpmKey t = 0 ∧ amount member rule.rpmKey t = 0 ∧
        amount member rule.concKey t = 0) → CheckEnd member estimatedTokens rules result t
  | degraded (acquired : Acquired) (t₀ : Trace Cmd Cmd.Resp) (nowMs : Int) :
      Passing member estimatedTokens rules [] acquired t₀ →
      t = ⟨.emergencyAdmit rules nowMs, result.allowed⟩ :: t₀ →
      CheckEnd member estimatedTokens rules result t

theorem checkRateLimits_ledger (hids : DistinctIds rules) (hpos : 0 < estimatedTokens) :
    Prog.Triple (Traced (GatesMayFail live)) Eq (fun t => t = [])
      (checkRateLimits nowMs member estimatedTokens isStream rules)
      (CheckEnd member estimatedTokens rules) := by
  have hgates : Raising.Triple (Traced (GatesMayFail live)) Eq (fun t => t = [])
      (rules.foldlM (checkRule nowMs member estimatedTokens isStream) {})
      (GateEnd member estimatedTokens rules []) := by
    refine Prog.Triple.pre (gates_ledger hids (List.Subset.refl _) hids hpos) ?_
    intro t ht
    subst ht
    refine ⟨⟨⟨fun k => ?_, rfl, rfl⟩, ?_, ?_, ?_, ?_, ?_, ?_, ?_, ?_⟩, fun r hr _ => .inr ?_⟩
    · simp [amount, taken, grantedKeys]
    · simp [grantedKeys]
    · exact fun r hr => by cases hr
    · exact fun r _ hk => by cases hk
    · exact fun r hr => by cases hr
    · exact fun r _ hk => by cases hk
    · exact List.nodup_nil
    · exact fun r _ hk => by cases hk
    · exact fun k hk => by cases hk
    · exact mem_gateKeys.2 ⟨r, hr, .inr (.inl rfl)⟩
  refine Prog.Triple.bind (fun _ => rfl) hgates fun outcome => ?_
  rcases outcome with stop | acquired
  · cases stop with
    | denied result acquired =>
      intro t t₁ r t' t₂ h hrun
      obtain ⟨hresult, hpassing⟩ := h
      have hbooks : Prog.Triple (Traced (GatesMayFail live)) Eq
          (Books member (taken estimatedTokens (grantedKeys t)) (grantedKeys t) none)
          (rollback member estimatedTokens rules acquired >>= fun _ => pure result)
          fun r t' => r = result ∧ Books member (rolledBack live estimatedTokens rules acquired
            (taken estimatedTokens (grantedKeys t))) (grantedKeys t) none t' := by
        refine Prog.Triple.bind (fun _ => rfl) rollback_books fun _ => ?_
        exact Prog.Triple.pre (Prog.Triple.ret (Q := fun r t' => r = result ∧ Books member _ _ _ t')
          stable_eq) fun _ h => ⟨rfl, h⟩
      obtain ⟨rfl, hend⟩ := hbooks hpassing.books hrun
      refine .denied hresult hend.emergency fun rule hr => ⟨?_, ?_, ?_⟩
      · rw [hend.amounts]
        exact hpassing.rolledBack hr (.inr (.inl rfl))
      · rw [hend.amounts]
        exact hpassing.rolledBack hr (.inl rfl)
      · rw [hend.amounts]
        exact hpassing.rolledBack hr (.inr (.inr rfl))
    | redisError =>
      refine Prog.Triple.step stable_eq (M := fun admitted t => ∃ acquired t₀,
        Passing member estimatedTokens rules [] acquired t₀ ∧
          t = ⟨.emergencyAdmit rules nowMs, admitted⟩ :: t₀) (fun t r t' h hE => ?_) fun admitted => ?_
      · obtain ⟨acquired, h⟩ := h
        exact ⟨acquired, t, h, hE.2⟩
      · cases admitted with
        | true =>
          refine Prog.Triple.pre (Prog.Triple.ret (Q := CheckEnd member estimatedTokens rules)
            stable_eq) ?_
          intro t h
          obtain ⟨acquired, t₀, h, ht⟩ := h
          exact .degraded acquired t₀ nowMs h ht
        | false =>
          refine Prog.Triple.pre (Prog.Triple.ret (Q := CheckEnd member estimatedTokens rules)
            stable_eq) ?_
          intro t h
          obtain ⟨acquired, t₀, h, ht⟩ := h
          exact .degraded acquired t₀ nowMs h ht
  · refine Prog.Triple.pre (Prog.Triple.ret (Q := CheckEnd member estimatedTokens rules)
      stable_eq) ?_
    exact fun t h => .passed acquired rfl h

theorem DistinctIds.tpmKeys_nodup (hids : DistinctIds rules) : (tpmKeys rules).Nodup := by
  refine List.Nodup.map_on (fun r hr r' hr' hk => ?_) ((List.Nodup.of_map _ hids).filter _)
  exact hids.eq (List.mem_of_mem_filter hr) (List.mem_of_mem_filter hr') (tpmKey_inj hk)

/-- What a settlement leaves at a bucket of the rules that exists. -/
theorem credited_live (hids : DistinctIds rules) (hr : rule ∈ rules)
    (hlimit : rule.tpmLimit.isSome = true) (hlive : live rule.tpmKey = true) {f : Key → Int}
    {delta : Int} : credited live delta rules f rule.tpmKey = f rule.tpmKey + delta := by
  unfold credited
  rw [if_pos hlive, List.count_eq_one_of_mem hids.tpmKeys_nodup (mem_tpmKeys hr hlimit)]
  simp

/-- The settlement and the answer. -/
theorem settle_ledger {result : CheckResult} {delta : Int} {f : Key → Int} {keys : List Key}
    {answer : Option Bool} :
    Prog.Triple (Traced (GatesMayFail live)) Eq (Books member f keys answer)
      ((settleTpm rules delta).run >>= fun _ => pure result)
      fun r t => r = result ∧
        Books member (credited live delta rules f) keys answer t := by
  refine Prog.Triple.bind (fun _ => rfl) booking_settleTpm fun outcome => ?_
  cases outcome with
  | ok u =>
    refine Prog.Triple.pre (Prog.Triple.ret (Q := fun r t => r = result ∧ Books member
      (credited live delta rules f) keys answer t) stable_eq) ?_
    exact fun t h => ⟨rfl, h⟩
  | error e => exact fun _ _ _ _ _ h _ => h.elim

theorem weight_ne_zero (hpos : 0 < estimatedTokens) : weight estimatedTokens key ≠ 0 := by
  cases key <;> simp [weight]
  omega

theorem taken_eq_zero_iff (hpos : 0 < estimatedTokens) {keys : List Key} :
    taken estimatedTokens keys key = 0 ↔ key ∉ keys := by
  unfold taken
  split
  · next hk => simp [hk, weight_ne_zero hpos]
  · next hk => simp [hk]

/-- A bucket ends at minus the usage exactly when it was checked. -/
theorem taken_tpm_iff (hpos : 0 < estimatedTokens) {keys : List Key} {actual : Int} :
    taken estimatedTokens keys rule.tpmKey + (estimatedTokens - actual) = -actual ↔
      rule.tpmKey ∈ keys := by
  unfold taken
  split
  · next hk =>
    simp only [hk, iff_true]
    show -estimatedTokens + (estimatedTokens - actual) = -actual
    omega
  · next hk =>
    simp only [hk, iff_false]
    omega

/-- The books of an admitted request after its settlement. -/
theorem balanced_admitted (hids : DistinctIds rules) (hpos : 0 < estimatedTokens)
    {result : CheckResult} {actual : Int} {keys : List Key} {answer : Option Bool}
    (hallowed : result.allowed = true)
    (h : Books member (credited live (estimatedTokens - actual) rules (taken estimatedTokens keys))
      keys answer t) :
    Balanced live member rules actual result t ↔ ∀ rule ∈ rules, rule.tpmLimit.isSome = true →
      live rule.tpmKey = true → rule.tpmKey ∈ keys := by
  have hiff (rule : Rule) (hr : rule ∈ rules) (hlimit : rule.tpmLimit.isSome = true)
      (hlive : live rule.tpmKey = true) :
      amount member rule.tpmKey t = -actual ↔ rule.tpmKey ∈ keys := by
    rw [h.amounts, credited_live hids hr hlimit hlive]
    exact taken_tpm_iff hpos
  constructor
  · intro hb rule hr hlimit hlive
    exact (hiff rule hr hlimit hlive).1 (hb.admitted hallowed rule hr hlimit hlive)
  · intro hk
    refine ⟨fun _ rule hr hlimit hlive =>
      (hiff rule hr hlimit hlive).2 (hk rule hr hlimit hlive), ?_⟩
    rw [hallowed]
    exact nofun

/-- The books of a request that the emergency limiter denied. -/
theorem balanced_degraded (hpos : 0 < estimatedTokens) {result : CheckResult} {actual : Int}
    {acquired : Acquired} {t₀ : Trace Cmd Cmd.Resp}
    (hdenied : result.allowed = false) (h : Passing member estimatedTokens rules [] acquired t₀)
    (hamount : ∀ key, amount member key t = amount member key t₀) :
    Balanced live member rules actual result t ↔ grantedKeys t₀ = [] := by
  have hzero (key : Key) : amount member key t = 0 ↔ key ∉ grantedKeys t₀ := by
    rw [hamount, h.books.amounts]
    exact taken_eq_zero_iff hpos
  constructor
  · intro hb
    refine List.eq_nil_iff_forall_not_mem.2 fun key hkey => ?_
    obtain ⟨rule, hr, hcase⟩ := h.of_rules key hkey
    obtain ⟨htpm, hrpm, hconc⟩ := hb.denied hdenied rule hr
    rcases hcase with rfl | rfl | rfl
    · exact (hzero _).1 hrpm hkey
    · exact (hzero _).1 htpm hkey
    · exact (hzero _).1 hconc hkey
  · intro hnil
    have hall (key : Key) : amount member key t = 0 := by
      rw [hzero, hnil]
      exact List.not_mem_nil
    refine ⟨fun ha => ?_, fun _ rule _ => ⟨hall _, hall _, hall _⟩⟩
    rw [hdenied] at ha
    cases ha

theorem admitAndSettle_ledger (hids : DistinctIds rules) (hpos : 0 < estimatedTokens)
    {actual : Int} :
    Prog.Triple (Traced (GatesMayFail live)) Eq (fun t => t = [])
      (admitAndSettle nowMs member estimatedTokens isStream rules actual)
      fun result t => Balanced live member rules actual result t ↔ Survives live rules t := by
  refine Prog.Triple.bind (fun _ => rfl) (checkRateLimits_ledger hids hpos) fun result => ?_
  cases hallowed : result.allowed with
  | true =>
    rw [if_pos rfl, if_neg (by omega)]
    intro t t₁ r t' t₂ h hrun
    cases h with
    | passed acquired _ h =>
      obtain ⟨rfl, hb⟩ := settle_ledger h.1.books hrun
      rw [balanced_admitted hids hpos hallowed hb, Survives, hb.emergency]
      refine iff_of_true (fun rule hr hlimit _ => ?_) trivial
      exact (h.2 rule hr hlimit).resolve_right List.not_mem_nil
    | denied hdenied =>
      rw [hallowed] at hdenied
      cases hdenied
    | degraded acquired t₀ now h ht =>
      subst ht
      rw [hallowed] at hrun
      have hbooks : Books member (taken estimatedTokens (grantedKeys t₀)) (grantedKeys t₀)
          (some true) (⟨.emergencyAdmit rules now, true⟩ :: t₀) := ⟨h.books.amounts, rfl, rfl⟩
      obtain ⟨rfl, hb⟩ := settle_ledger hbooks hrun
      rw [balanced_admitted hids hpos hallowed hb, Survives, hb.emergency, hb.granted]
  | false =>
    rw [if_neg nofun]
    intro t t₁ r t' t₂ h hrun
    obtain ⟨rfl, -, rfl⟩ := hrun
    cases h with
    | passed acquired hpassed h =>
      rw [hallowed] at hpassed
      cases hpassed
    | denied _ hemergency h =>
      rw [Survives, hemergency]
      refine iff_of_true ⟨fun ha => ?_, fun _ => h⟩ trivial
      rw [hallowed] at ha
      cases ha
    | degraded acquired t₀ now h ht =>
      subst ht
      have hanswer : emergency (⟨.emergencyAdmit rules now, r.allowed⟩ :: t₀) = some false := by
        rw [hallowed]
        rfl
      have hiff : Balanced live member rules actual r (⟨.emergencyAdmit rules now, r.allowed⟩ :: t₀) ↔
          grantedKeys t₀ = [] := balanced_degraded hpos hallowed h fun _ => rfl
      rw [hiff, Survives, hanswer]
      exact Iff.rfl

theorem estimateRequestTokens_pos {messages : Value} {maxCompletion : Int} :
    0 < estimateRequestTokens messages maxCompletion := by
  have hclamp : 0 ≤ clampCompletion maxCompletion := le_max_left _ _
  unfold estimateRequestTokens
  dsimp only
  split
  · simp only [estimatedTokensPerRequest]
    omega
  · simp only [estimatedTokensPerRequest, maxUpfrontEstimate]
    omega

end

/-- The books of a request come out exactly when they survive the failures of its gate scripts,
whatever other requests do between its commands, and whichever buckets are there when it settles. -/
theorem ledger_balanced_iff {S : Type} (E : Sem Cmd Cmd.Resp S) (env : S → S → Prop)
    (live : Key → Bool) {nowMs actualTokens maxCompletion : Int} {member : String} {messages : Value} {isStream : Bool}
    {rules : List Rule} {s s' : S} {result : CheckResult} {t : Trace Cmd Cmd.Resp}
    (hids : DistinctIds rules) (hA : ∀ e ∈ t, GatesMayFail live e.cmd e.resp)
    (hrun : (admitAndSettle nowMs member (estimateRequestTokens messages maxCompletion) isStream
      rules actualTokens).Runs E env s [] result s' t) :
    Balanced live member rules actualTokens result t ↔ Survives live rules t :=
  admitAndSettle_ledger hids estimateRequestTokens_pos rfl (hrun.traced hA)

/-- A gate script that fails has no effect; every other command succeeds. -/
def Cmd.failed : (c : Cmd) → Option c.Resp
  | .rpmCheck .. | .tpmCheck .. | .concurrentCheck .. => some (.error .unavailable)
  | _ => none

def faulty : Sem Cmd Cmd.Resp State := fun c s r s' => (r, s') = c.run s ∨ c.failed = some r ∧ s' = s

def limitedRule : Rule :=
  { id := 1, subjectType := "user", subjectId := some 7, logicalModelId := none, rpmLimit := some 1,
    tpmLimit := some 1000, tpmBurstLimit := none, maxConcurrent := none }

/-- The emergency limiter has no room in the minute of the request. -/
def crowdedState : State :=
  { emptyState with
    windows := Function.update emptyState.windows (subjectKey limitedRule) (some (0, 60)) }

/-- The token check fails after the request check passed, and the emergency limiter denies: the entry
of the request stays. -/
theorem degraded_denial_keeps_entry : ∃ s result t,
    (admitAndSettle 0 "r1" (estimateRequestTokens .none 0) false [limitedRule] 50).Runs faulty Eq
      crowdedState [] result s t ∧ result.allowed = false ∧
      amount "r1" limitedRule.rpmKey t = 1 ∧ ∀ live, (∀ e ∈ t, GatesMayFail live e.cmd e.resp) ∧
        ¬ Balanced live "r1" [limitedRule] 50 result t := by
  refine ⟨_, _, _, ⟨_, .ok (true, 1, 1, -1), _, rfl, .inl rfl, _, .error .unavailable, _, rfl,
    .inr ⟨rfl, rfl⟩, _, false, _, rfl, .inl rfl, rfl, rfl, rfl⟩, rfl, rfl, fun live => ⟨?_, fun h => ?_⟩⟩
  · simp [GatesMayFail]
  · have hentry : (1 : Int) = 0 := (h.denied rfl limitedRule List.mem_cons_self).2.1
    omega

/-- A rule whose bucket nobody has used yet. -/
def freshRule : Rule := { limitedRule with id := 2, rpmLimit := none }

/-- The token check of the second rule fails, the emergency limiter admits, and the settlement finds
the bucket of the first rule only. -/
theorem degraded_admission_balanced : ∃ s result t,
    (admitAndSettle 0 "r1" (estimateRequestTokens .none 0) false [limitedRule, freshRule] 50).Runs
      faulty Eq emptyState [] result s t ∧ result.allowed = true ∧
      amount "r1" limitedRule.tpmKey t = -50 ∧
      Balanced (fun key => key = limitedRule.tpmKey) "r1" [limitedRule, freshRule] 50 result t := by
  have hrun : (admitAndSettle 0 "r1" (estimateRequestTokens .none 0) false
      [limitedRule, freshRule] 50).Runs faulty Eq emptyState [] _ _ _ :=
    ⟨_, .ok (true, 1, 1, -1), _, rfl, .inl rfl, _, .ok (true, 900, 1000), _, rfl, .inl rfl,
      _, .error .unavailable, _, rfl, .inr ⟨rfl, rfl⟩, _, true, _, rfl, .inl rfl,
      _, .ok true, _, rfl, .inl rfl, _, .ok false, _, rfl, .inl rfl, rfl, rfl, rfl⟩
  have hids : DistinctIds [limitedRule, freshRule] := by
    unfold DistinctIds
    decide
  refine ⟨_, _, _, hrun, rfl, rfl, (ledger_balanced_iff faulty Eq _ hids ?_ hrun).2 ?_⟩
  · simp [GatesMayFail, limitedRule, freshRule, Rule.tpmKey]
  · intro rule hr _ hlive
    rw [of_decide_eq_true hlive]
    exact List.mem_cons_self

end RateLimit
