import Janus.Conc.Pool

/-!
# Caches versioned by generation counters

A database with its committed states, generation counters, and a cache. A writer commits a change
and then increments the counters it invalidates. A reader reads counters, looks a cache key up,
queries the last committed state on a miss and writes the cache under a key that embeds counter
values (`need`). Entries may disappear at any time.

* `Covered`: no writer whose increment a generation already counts committed after a version.
* `Timely`: a reader's counter read comes after no writer that committed after one of the
  reader's queries and has incremented that counter (`Straddles`).
* `Coherent`: the invariant. `Coherent.cmd` keeps it over every timely command of the program order
  `order`; every cached value and every queried answer is `Backed` by states that no counted writer
  has superseded (`Backed.fresh`).
-/

set_option autoImplicit false

namespace Versioned

open Conc

variable {ι D B K Q : Type} {V : K → Type} {A : Q → Type}

/-- The database's committed states, the generation counters, and the cache. -/
structure Sys (D B K : Type) (V : K → Type) where
  past : List D
  current : D
  gens : B → Option Nat
  entries : (k : K) → Option (V k)

namespace Sys

/-- The number of commits so far. -/
def version (s : Sys D B K V) : Nat := s.past.length

/-- `d` was the committed state after `v` commits. -/
def Had (s : Sys D B K V) (v : Nat) (d : D) : Prop := (s.past ++ [s.current])[v]? = some d

/-- A counter that was never incremented reads as 0. -/
def gen (s : Sys D B K V) (b : B) : Nat := (s.gens b).getD 0

theorem had_current (s : Sys D B K V) : s.Had s.version s.current := by
  simp [Had, version]

end Sys

inductive Cmd (D B K : Type) (V : K → Type) (Q : Type)
  | gens (bs : List B)
  | get (k : K)
  | set (k : K) (v : V k)
  | query (q : Q)
  | commit (f : D → D)
  | incr (b : B)

/-- `gens bs` answers the counters in `bs` at one moment, `commit` its place in the commit order,
`incr` the new value. -/
@[reducible] def Cmd.Resp (A : Q → Type) : Cmd D B K V Q → Type
  | .gens _ => B → Option Nat
  | .get k => Option (V k)
  | .set _ _ => Unit
  | .query q => A q
  | .commit _ | .incr _ => Nat

section Semantics

variable [DecidableEq B] [DecidableEq K] (ans : (q : Q) → D → A q)

def Cmd.run : (c : Cmd D B K V Q) → Sys D B K V → c.Resp A × Sys D B K V
  | .gens _, s => (s.gens, s)
  | .get k, s => (s.entries k, s)
  | .set k v, s => ((), { s with entries := Function.update s.entries k (some v) })
  | .query q, s => (ans q s.current, s)
  | .commit f, s =>
    (s.version + 1, { s with past := s.past ++ [s.current], current := f s.current })
  | .incr b, s => (s.gen b + 1, { s with gens := Function.update s.gens b (some (s.gen b + 1)) })

/-- Only the counters that were asked for are answered. -/
def Cmd.Answers : (c : Cmd D B K V Q) → c.Resp A → c.Resp A → Prop
  | .gens bs, r, r' => ∀ b ∈ bs, r b = r' b
  | .get _, r, r' | .query _, r, r' | .commit _, r, r' | .incr _, r, r' | .set _ _, r, r' => r = r'

def sem : Sem (Cmd D B K V Q) (Cmd.Resp A) (Sys D B K V) := fun c s r s' =>
  c.Answers r (c.run ans s).1 ∧ s' = (c.run ans s).2

/-- Cache entries disappear. -/
def evict (s s' : Sys D B K V) : Prop :=
  s'.past = s.past ∧ s'.current = s.current ∧ s'.gens = s.gens ∧
    ∀ k, s'.entries k = s.entries k ∨ s'.entries k = none

theorem sem_run (c : Cmd D B K V Q) (s : Sys D B K V) : sem ans c s (c.run ans s).1 (c.run ans s).2 := by
  refine ⟨?_, rfl⟩
  cases c with
  | gens bs => exact fun _ _ => rfl
  | _ => rfl

end Semantics

/-! ## What the log says -/

abbrev History (ι D B K : Type) (V : K → Type) (Q : Type) (A : Q → Type) := Log ι (Cmd D B K V Q) (Cmd.Resp A)

/-- `w` committed as the `v`-th commit. -/
def Committed (l : History ι D B K V Q A) (w : ι) (v : Nat) : Prop :=
  ∃ f, (w, ⟨.commit f, v⟩) ∈ l

/-- `w` incremented `b` to `g`. -/
def Bumped (l : History ι D B K V Q A) (w : ι) (b : B) (g : Nat) : Prop := (w, ⟨.incr b, g⟩) ∈ l

/-- `r` read the generation `n` of `b`. -/
def ReadGen (l : History ι D B K V Q A) (r : ι) (b : B) (n : Nat) : Prop :=
  ∃ bs, ∃ answer : B → Option Nat, (r, ⟨.gens bs, answer⟩) ∈ l ∧ b ∈ bs ∧ (answer b).getD 0 = n

/-- `r` queried `q` and got `a`. -/
def Queried (l : History ι D B K V Q A) (r : ι) (q : Q) (a : A q) : Prop := (r, ⟨.query q, a⟩) ∈ l

/-- `w` committed after one of `r`'s queries. -/
def Straddles (l : History ι D B K V Q A) (r w : ι) : Prop :=
  ∃ newer older q a, l = newer ++ (r, ⟨.query q, a⟩) :: older ∧ ∃ v, Committed newer w v

/-- No writer whose increment of `b` the generation `n` counts committed after version `v`. -/
def Covered (l : History ι D B K V Q A) (b : B) (n v : Nat) : Prop :=
  ∀ w v' g, Committed l w v' → Bumped l w b g → g ≤ n → v' ≤ v

/-- When `r` reads `b` after `l`, no writer that has incremented `b` committed after one of `r`'s
queries. -/
def TimelyRead (l : History ι D B K V Q A) (r : ι) (b : B) : Prop :=
  ∀ w g, Bumped l w b g → ¬ Straddles l r w

/-- Every counter read of the log was timely. -/
def Timely : History ι D B K V Q A → Prop
  | [] => True
  | (r, ⟨.gens bs, _⟩) :: l => (∀ b ∈ bs, TimelyRead l r b) ∧ Timely l
  | _ :: l => Timely l

theorem Timely.tail {e : ι × Event (Cmd D B K V Q) (Cmd.Resp A)} {l : History ι D B K V Q A}
    (h : Timely (e :: l)) : Timely l := by
  obtain ⟨r, c, a⟩ := e
  cases c with
  | gens bs => exact h.2
  | _ => exact h

theorem Timely.suffix {l l' : History ι D B K V Q A} (h : Timely l) (hs : l' <:+ l) : Timely l' := by
  obtain ⟨newer, rfl⟩ := hs
  induction newer with
  | nil => exact h
  | cons e newer ih => exact ih h.tail

theorem Straddles.cons {l : History ι D B K V Q A} {r w : ι} (h : Straddles l r w)
    (e : ι × Event (Cmd D B K V Q) (Cmd.Resp A)) : Straddles (e :: l) r w := by
  obtain ⟨newer, older, q, a, rfl, v, f, hm⟩ := h
  exact ⟨e :: newer, older, q, a, rfl, v, f, List.mem_cons_of_mem _ hm⟩

/-- A commit straddles every query that is already there. -/
theorem Queried.straddles {l : History ι D B K V Q A} {r w : ι} {q : Q} {a : A q}
    (h : Queried l r q a) (f : D → D) (v : Nat) : Straddles ((w, ⟨.commit f, v⟩) :: l) r w := by
  obtain ⟨newer, older, rfl⟩ := List.append_of_mem h
  exact ⟨_ :: newer, older, q, a, rfl, v, f, List.mem_cons_self ..⟩

/-- A reader that has not queried is straddled by nobody. -/
theorem timelyRead_of_unqueried {l : History ι D B K V Q A} {r : ι} {b : B}
    (h : ∀ q a, ¬ Queried l r q a) : TimelyRead l r b := by
  rintro w g - ⟨newer, older, q, a, rfl, -⟩
  exact h q a (by simp [Queried])

/-! ## The program order -/

section Order

variable [DecidableEq ι] (need : K → B → Option Nat)
  (Makes : (k : K) → List ((q : Q) × A q) → V k → Prop)

/-- A value is written only under generations the reader read, and made of answers to its queries;
a key is looked up only under generations the reader read; a writer commits before it increments. -/
def order : Guard (Cmd D B K V Q) (Cmd.Resp A) := fun t c =>
  let readGen (b : B) (n : Nat) := ∃ bs, ∃ answer : B → Option Nat, ⟨.gens bs, answer⟩ ∈ t ∧
    b ∈ bs ∧ (answer b).getD 0 = n
  match c with
  | .set k v => (∀ b n, need k b = some n → readGen b n) ∧
      ∃ xs, Makes k xs v ∧ ∀ x ∈ xs, ⟨.query x.1, x.2⟩ ∈ t
  | .get k => ∀ b n, need k b = some n → readGen b n
  | .commit _ => ∀ b g, ⟨.incr b, g⟩ ∉ t
  | _ => True

end Order

/-! ## Coherence -/

section Coherence

variable (ans : (q : Q) → D → A q) (need : K → B → Option Nat)
  (Makes : (k : K) → List ((q : Q) × A q) → V k → Prop)

/-- `x` under the key `k` is made of answers from states that no writer counted by `k` has
superseded. -/
structure Backed (s : Sys D B K V) (l : History ι D B K V Q A) (k : K) (x : V k) : Prop where
  le : ∀ b n, need k b = some n → n ≤ s.gen b
  made : ∃ xs, Makes k xs x ∧ ∀ y ∈ xs, ∃ v d, s.Had v d ∧ y.2 = ans y.1 d ∧
    ∀ b n, need k b = some n → Covered l b n v

/-- The invariant (module doc). -/
structure Coherent (s : Sys D B K V) (l : History ι D B K V Q A) : Prop where
  bumped : ∀ w b g, Bumped l w b g → g ≤ s.gen b
  committed : ∀ w v, Committed l w v → v ≤ s.version
  gens : ∀ r b n, ReadGen l r b n → n ≤ s.gen b
  read : ∀ r q a, Queried l r q a → ∃ v d, s.Had v d ∧ a = ans q d ∧
    (∀ w v', Committed l w v' → v' ≤ v ∨ Straddles l r w) ∧
    ∀ b n, ReadGen l r b n → Covered l b n v
  entries : ∀ k x, s.entries k = some x → Backed ans need Makes s l k x
  hits : ∀ r k x, (r, ⟨.get k, some x⟩) ∈ l → Backed ans need Makes s l k x

variable {ans need Makes} {s s' : Sys D B K V} {l : History ι D B K V Q A} {i : ι}
  {c : Cmd D B K V Q} {r : c.Resp A}

theorem committed_cons {w : ι} {v : Nat} (h : Committed ((i, ⟨c, r⟩) :: l) w v) :
    Committed l w v ∨ i = w ∧ ∃ f, (⟨c, r⟩ : Event (Cmd D B K V Q) (Cmd.Resp A)) = ⟨.commit f, v⟩ := by
  obtain ⟨f, hm⟩ := h
  rcases List.mem_cons.1 hm with he | hm
  · cases he
    exact .inr ⟨rfl, f, rfl⟩
  · exact .inl ⟨f, hm⟩

theorem readGen_cons {r' : ι} {b : B} {n : Nat} (h : ReadGen ((i, ⟨c, r⟩) :: l) r' b n) :
    ReadGen l r' b n ∨ i = r' ∧ ∃ bs, ∃ answer : B → Option Nat, b ∈ bs ∧
      (answer b).getD 0 = n ∧
      (⟨c, r⟩ : Event (Cmd D B K V Q) (Cmd.Resp A)) = ⟨.gens bs, answer⟩ := by
  obtain ⟨bs, answer, hm, hb, hn⟩ := h
  rcases List.mem_cons.1 hm with he | hm
  · cases he
    exact .inr ⟨rfl, bs, answer, hb, hn, rfl⟩
  · exact .inl ⟨bs, answer, hm, hb, hn⟩

theorem Backed.evict {k : K} {x : V k} (h : Backed ans need Makes s l k x) (he : evict s s') :
    Backed ans need Makes s' l k x := by
  obtain ⟨hp, hcur, hgens, -⟩ := he
  refine ⟨fun b n hn => ?_, ?_⟩
  · simpa [Sys.gen, hgens] using h.le b n hn
  · simpa [Sys.Had, hp, hcur] using h.made

theorem Coherent.evict (h : Coherent ans need Makes s l) (he : evict s s') :
    Coherent ans need Makes s' l := by
  have hb := fun k x (hx : Backed ans need Makes s l k x) => hx.evict he
  obtain ⟨hp, hcur, hgens, hent⟩ := he
  refine ⟨fun w b g hbump => ?_, fun w v hcm => ?_, fun r' b n hr => ?_, fun r' q a hq => ?_,
    fun k x hx => ?_, fun r' k x hm => hb k x (h.hits r' k x hm)⟩
  · simpa [Sys.gen, hgens] using h.bumped w b g hbump
  · simpa [Sys.version, hp] using h.committed w v hcm
  · simpa [Sys.gen, hgens] using h.gens r' b n hr
  · simpa [Sys.Had, hp, hcur] using h.read r' q a hq
  · rcases hent k with hk | hk
    · exact hb k x (h.entries k x (hk ▸ hx))
    · rw [hk] at hx
      cases hx

/-- The invariant at a start with an empty cache. -/
theorem Coherent.start (h : ∀ k, s.entries k = none) :
    Coherent ans need Makes s ([] : History ι D B K V Q A) where
  bumped := fun _ _ _ hm => nomatch hm
  committed := fun _ _ ⟨_, hm⟩ => nomatch hm
  gens := fun _ _ _ ⟨_, _, hm, _⟩ => nomatch hm
  read := fun _ _ _ hm => nomatch hm
  entries := fun k x hx => by rw [h k] at hx; cases hx
  hits := fun _ _ _ hm => nomatch hm

/-! ### Freshness -/

/-- A cached value is made of answers from states at or after every commit that its key counts. -/
theorem Backed.fresh {k : K} {x : V k} (h : Backed ans need Makes s l k x) {w : ι} {v g n : Nat}
    {b : B} (hcm : Committed l w v) (hb : Bumped l w b g) (hn : need k b = some n) (hgn : g ≤ n) :
    ∃ xs, Makes k xs x ∧ ∀ y ∈ xs, ∃ v' d, v ≤ v' ∧ s.Had v' d ∧ y.2 = ans y.1 d := by
  obtain ⟨xs, hmake, hxs⟩ := h.made
  refine ⟨xs, hmake, fun y hy => ?_⟩
  obtain ⟨v', d, hd, ha, hcov⟩ := hxs y hy
  exact ⟨v', d, hcov b n hn w v g hcm hb hgn, hd, ha⟩

/-- A queried answer is from a state at or after every commit that a generation the reader read
counts. -/
theorem Coherent.queried (h : Coherent ans need Makes s l) {r' w : ι} {q : Q} {a : A q}
    {v g n : Nat} {b : B} (hq : Queried l r' q a) (hr : ReadGen l r' b n) (hcm : Committed l w v)
    (hb : Bumped l w b g) (hgn : g ≤ n) : ∃ v' d, v ≤ v' ∧ s.Had v' d ∧ a = ans q d := by
  obtain ⟨v', d, hd, ha, -, hcov⟩ := h.read r' q a hq
  exact ⟨v', d, hcov b n hr w v g hcm hb hgn, hd, ha⟩

/-! ### Every step keeps it -/

variable [DecidableEq ι] [DecidableEq B] [DecidableEq K]

theorem gen_mono (h : sem ans c s r s') (b : B) : s.gen b ≤ s'.gen b := by
  rw [h.2]
  cases c with
  | incr b' =>
    by_cases hb : b = b'
    · subst hb
      simp [Cmd.run, Sys.gen]
    · simp [Cmd.run, Sys.gen, Function.update_of_ne hb]
  | _ => exact Nat.le_refl _

theorem version_mono (h : sem ans c s r s') : s.version ≤ s'.version := by
  rw [h.2]
  cases c with
  | commit f => simp [Cmd.run, Sys.version]
  | _ => exact Nat.le_refl _

theorem had_mono (h : sem ans c s r s') {v : Nat} {d : D} (hd : s.Had v d) : s'.Had v d := by
  rw [h.2]
  cases c with
  | commit f =>
    have hlt : v < (s.past ++ [s.current]).length := (List.getElem?_eq_some_iff.1 hd).1
    simp only [Cmd.run, Sys.Had]
    rw [List.getElem?_append_left hlt]
    exact hd
  | _ => exact hd

/-- A version that covers a generation goes on covering it: later increments have larger values,
and their writers' commits come first. -/
theorem Covered.cmd {b : B} {n v : Nat} (h : Covered l b n v) (hn : n ≤ s.gen b)
    (hg : order need Makes (own i l) c) (hc : sem ans c s r s') :
    Covered ((i, ⟨c, r⟩) :: l) b n v := by
  intro w v' g hcm hbump hgn
  rcases List.mem_cons.1 hbump with he | hb
  · cases he
    have hr : g = s.gen b + 1 := hc.1
    omega
  · rcases committed_cons hcm with hcm | ⟨hi, f, he⟩
    · exact h w v' g hcm hb hgn
    · cases he
      cases hi
      exact absurd (mem_own.2 hb) (hg b g)

theorem Backed.cmd {k : K} {x : V k} (h : Backed ans need Makes s l k x)
    (hg : order need Makes (own i l) c) (hc : sem ans c s r s') :
    Backed ans need Makes s' ((i, ⟨c, r⟩) :: l) k x where
  le b n hn := Nat.le_trans (h.le b n hn) (gen_mono hc b)
  made := by
    obtain ⟨xs, hmake, hxs⟩ := h.made
    refine ⟨xs, hmake, fun y hy => ?_⟩
    obtain ⟨v, d, hd, hans, hcov⟩ := hxs y hy
    exact ⟨v, d, had_mono hc hd, hans, fun b n hn => (hcov b n hn).cmd (h.le b n hn) hg hc⟩

theorem Coherent.cmd (h : Coherent ans need Makes s l) (hg : order need Makes (own i l) c)
    (hc : sem ans c s r s') (ht : Timely ((i, ⟨c, r⟩) :: l)) :
    Coherent ans need Makes s' ((i, ⟨c, r⟩) :: l) where
  bumped w b g hb := by
    rcases List.mem_cons.1 hb with he | hb
    · cases he
      have hr : g = s.gen b + 1 := hc.1
      rw [hc.2, hr]
      simp [Cmd.run, Sys.gen]
    · exact Nat.le_trans (h.bumped w b g hb) (gen_mono hc b)
  committed w v hcm := by
    rcases committed_cons hcm with hcm | ⟨-, f, he⟩
    · exact Nat.le_trans (h.committed w v hcm) (version_mono hc)
    · cases he
      have hr : v = s.version + 1 := hc.1
      rw [hc.2, hr]
      simp [Cmd.run, Sys.version]
  gens r' b n hr := by
    rcases readGen_cons hr with hr | ⟨-, bs, answer, hb, rfl, he⟩
    · exact Nat.le_trans (h.gens r' b n hr) (gen_mono hc b)
    · cases he
      have ha : answer b = s.gens b := hc.1 b hb
      rw [ha]
      exact gen_mono hc b
  read r' q a hquery := by
    rcases List.mem_cons.1 hquery with he | hq
    · -- a query reads the current state, which every commit so far led to
      cases he
      have ha : a = ans q s.current := hc.1
      refine ⟨s.version, s.current, had_mono hc s.had_current, ha, fun w v' hcm => ?_,
        fun b n hr w v' g hcm _ _ => ?_⟩ <;>
      · rcases committed_cons hcm with hcm | ⟨-, f, he⟩
        · first
          | exact .inl (h.committed w v' hcm)
          | exact h.committed w v' hcm
        · cases he
    · obtain ⟨v, d, hd, ha, hcommit, hcov⟩ := h.read r' q a hq
      refine ⟨v, d, had_mono hc hd, ha, fun w v' hcm => ?_, fun b n hr => ?_⟩
      · rcases committed_cons hcm with hcm | ⟨hi, f, he⟩
        · exact (hcommit w v' hcm).imp_right (·.cons _)
        · cases he
          cases hi
          exact .inr (Queried.straddles hq f v')
      · rcases readGen_cons hr with hr | ⟨rfl, bs, answer, hb, -, he⟩
        · exact (hcov b n hr).cmd (h.gens r' b n hr) hg hc
        · -- a counter read after the query: timeliness covers it
          cases he
          intro w v' g hcm hbump _
          rcases committed_cons hcm with hcm | ⟨-, f, he⟩
          · rcases List.mem_cons.1 hbump with he | hbump
            · cases he
            · exact (hcommit w v' hcm).resolve_right (ht.1 b hb w g hbump)
          · cases he
  entries k x hx := by
    by_cases hset : c = .set k x
    · subst hset
      obtain ⟨hgens, xs, hmake, hxs⟩ := hg
      have hread (b : B) (n : Nat) (hn : need k b = some n) : ReadGen l i b n := by
        obtain ⟨bs, answer, hm, hb, he⟩ := hgens b n hn
        exact ⟨bs, answer, mem_own.1 hm, hb, he⟩
      have hg' : order need Makes (own i l) (.set k x) := ⟨hgens, xs, hmake, hxs⟩
      refine Backed.cmd ⟨fun b n hn => h.gens i b n (hread b n hn), xs, hmake, fun y hy => ?_⟩ hg' hc
      obtain ⟨v, d, hd, ha, -, hcov⟩ := h.read i y.1 y.2 (mem_own.1 (hxs y hy))
      exact ⟨v, d, hd, ha, fun b n hn => hcov b n (hread b n hn)⟩
    · refine (h.entries k x ?_).cmd hg hc
      rw [hc.2] at hx
      cases c with
      | set k' x' =>
        by_cases hk : k = k'
        · subst hk
          simp only [Cmd.run, Function.update_self, Option.some.injEq] at hx
          exact absurd (hx ▸ rfl) hset
        · simpa [Cmd.run, Function.update_of_ne hk] using hx
      | _ => exact hx
  hits r' k x hm := by
    rcases List.mem_cons.1 hm with he | hm
    · cases he
      have hr : some x = s.entries k := hc.1
      exact (h.entries k x hr.symm).cmd hg hc
    · exact (h.hits r' k x hm).cmd hg hc

/-- Every timely run is coherent. -/
theorem Coherent.reach {α : Type} {G : ι → Guard (Cmd D B K V Q) (Cmd.Resp A)}
    {post : ι → α → Trace (Cmd D B K V Q) (Cmd.Resp A) → Prop}
    {P₁ P₂ : Pool ι (Cmd D B K V Q) (Cmd.Resp A) α (Sys D B K V)}
    (hG : ∀ i t c, G i t c → order need Makes t c) (h₁ : Pool.Ordered G post P₁)
    (h : Timely P₁.log → Coherent ans need Makes P₁.shared P₁.log)
    (h₂ : Pool.Reach (sem ans) Versioned.evict P₁ P₂) :
    Timely P₂.log → Coherent ans need Makes P₂.shared P₂.log :=
  h₁.invariant (J := fun s l => Timely l → Coherent ans need Makes s l) h
    (fun _ hJ hg hc ht => (hJ ht.tail).cmd (hG _ _ _ hg) hc ht) (fun hJ he ht => (hJ ht).evict he) h₂

/-- A reader that starts after an increment reads no smaller generation. -/
theorem readGen_after {α : Type} {G : ι → Guard (Cmd D B K V Q) (Cmd.Resp A)}
    {post : ι → α → Trace (Cmd D B K V Q) (Cmd.Resp A) → Prop}
    {P₁ P₂ : Pool ι (Cmd D B K V Q) (Cmd.Resp A) α (Sys D B K V)} (h₁ : Pool.Ordered G post P₁)
    {b : B} {g : Nat} (hbump : g ≤ P₁.shared.gen b) {r' : ι} (hstart : own r' P₁.log = [])
    (h : Pool.Reach (sem ans) Versioned.evict P₁ P₂) {n : Nat} (hr : ReadGen P₂.log r' b n) :
    g ≤ n := by
  refine (h₁.invariant (J := fun s l => g ≤ s.gen b ∧ ∀ n, ReadGen l r' b n → g ≤ n)
    ⟨hbump, fun n hr => ?_⟩ (fun _ hJ _ hc => ⟨Nat.le_trans hJ.1 (gen_mono hc b), fun n hr => ?_⟩)
    (fun hJ he => ⟨by simpa [Sys.gen, he.2.2.1] using hJ.1, hJ.2⟩) h).2 n hr
  · obtain ⟨bs, answer, hm, -⟩ := hr
    have := mem_own.2 hm
    rw [hstart] at this
    cases this
  · rcases readGen_cons hr with hr | ⟨-, bs, answer, hb, rfl, he⟩
    · exact hJ.2 n hr
    · cases he
      have ha : answer b = _ := hc.1 b hb
      rw [ha]
      exact hJ.1

end Coherence

end Versioned
