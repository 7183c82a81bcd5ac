import Janus.Cache.Versioned

/-!
# Settled versions

A cache that is never stale answers as the database itself does once its writers have finished. A
version is `Settled` for a query when every commit up to it either leaves the answer as it was or
comes from a writer that the reader's generations count.

* `Chronicle.reach`: every version is the one before it, changed by the commit that the log has
  there.
* `Settled.answer`: an answer that no counted writer has superseded is one from the settled version
  on.
* `settled_of_quiet`: a moment is settled at which every writer that has committed has ended, if
  what a writer changes it also invalidates (`Complete`).
-/

set_option autoImplicit false

namespace Versioned

open Conc

variable {ι D B K Q : Type} {V : K → Type} {A : Q → Type}

/-! ## Versions and commits -/

theorem Sys.Had.le {s : Sys D B K V} {v : Nat} {d : D} (h : s.Had v d) : v ≤ s.version := by
  have hlt : v < (s.past ++ [s.current]).length := (List.getElem?_eq_some_iff.1 h).1
  simp only [List.length_append, List.length_singleton] at hlt
  exact Nat.le_of_lt_succ hlt

theorem Sys.exists_had {s : Sys D B K V} {v : Nat} (h : v ≤ s.version) : ∃ d, s.Had v d := by
  have hlt : v < (s.past ++ [s.current]).length := by
    simp only [List.length_append, List.length_singleton]
    exact Nat.lt_succ_of_le h
  exact ⟨_, List.getElem?_eq_getElem hlt⟩

theorem Sys.Had.unique {s : Sys D B K V} {v : Nat} {d d' : D} (h : s.Had v d) (h' : s.Had v d') :
    d = d' := by
  have he : some d = some d' := h.symm.trans h'
  exact Option.some.inj he

/-- Each version from the first on is the one before it under the commit that the log has there. -/
def Chronicle (first : Nat) (s : Sys D B K V) (l : History ι D B K V Q A) : Prop :=
  first ≤ s.version ∧ ∀ v, first ≤ v → v < s.version → ∃ w f, (w, ⟨.commit f, v + 1⟩) ∈ l ∧
    ∀ d, s.Had v d → s.Had (v + 1) (f d)

section

variable {ans : (q : Q) → D → A q} {first : Nat} {s s' : Sys D B K V}
  {l : History ι D B K V Q A}

theorem Chronicle.evict (h : Chronicle first s l) (he : evict s s') : Chronicle first s' l := by
  obtain ⟨hp, hcur, -, -⟩ := he
  simpa [Chronicle, Sys.Had, Sys.version, hp, hcur] using h

variable [DecidableEq B] [DecidableEq K]

theorem had_iff {i : Cmd D B K V Q} {r : i.Resp A} (h : sem ans i s r s') {v : Nat} {d : D}
    (hv : v ≤ s.version) : s'.Had v d ↔ s.Had v d := by
  constructor
  · intro hd
    obtain ⟨d', hd'⟩ := Sys.exists_had hv
    rwa [hd.unique (had_mono h hd')]
  · exact had_mono h

theorem Chronicle.cmd (h : Chronicle first s l) {i : ι} {c : Cmd D B K V Q} {r : c.Resp A}
    (hc : sem ans c s r s') : Chronicle first s' ((i, ⟨c, r⟩) :: l) := by
  refine ⟨Nat.le_trans h.1 (version_mono hc), fun v hv hlt => ?_⟩
  by_cases hold : v < s.version
  · obtain ⟨w, f, hm, hd⟩ := h.2 v hv hold
    refine ⟨w, f, List.mem_cons_of_mem _ hm, fun d hhad => ?_⟩
    exact had_mono hc (hd d ((had_iff hc (Nat.le_of_lt hold)).1 hhad))
  · -- only a commit makes a new version
    obtain ⟨hr, hs⟩ := hc
    cases c with
    | commit f =>
      have hversion : s'.version = s.version + 1 := by
        rw [hs]
        simp [Cmd.run, Sys.version]
      obtain rfl : v = s.version := by omega
      have hr' : r = s.version + 1 := hr
      refine ⟨i, f, by rw [hr']; exact List.mem_cons_self .., fun d hhad => ?_⟩
      have hd : d = s.current :=
        ((had_iff ⟨hr, hs⟩ (Nat.le_refl _)).1 hhad).unique s.had_current
      have hcurrent : s'.Had s'.version s'.current := s'.had_current
      rw [hversion, hs] at hcurrent
      rw [hd, hs]
      exact hcurrent
    | _ =>
      rw [hs] at hlt
      exact absurd hlt hold

/-- Every version since the start of a run is a commit of the log. -/
theorem Chronicle.reach [DecidableEq ι] {α : Type} {s₀ : Sys D B K V}
    {thread : ι → Prog (Cmd D B K V Q) (Cmd.Resp A) α}
    {P : Pool ι (Cmd D B K V Q) (Cmd.Resp A) α (Sys D B K V)}
    (h : Pool.Reach (sem ans) Versioned.evict (Pool.start s₀ thread) P) :
    Chronicle s₀.version P.shared P.log := by
  induction h with
  | refl => exact ⟨Nat.le_refl _, fun v hv hlt => absurd hlt (Nat.not_lt.2 hv)⟩
  | tail _ hstep ih =>
    cases hstep with
    | run _ hc => exact ih.cmd hc
    | env he => exact ih.evict he

/-- What was a version stays one. -/
theorem had_reach [DecidableEq ι] {α : Type}
    {P₁ P₂ : Pool ι (Cmd D B K V Q) (Cmd.Resp A) α (Sys D B K V)}
    (h : Pool.Reach (sem ans) Versioned.evict P₁ P₂) {v : Nat} {d : D}
    (hd : P₁.shared.Had v d) : P₂.shared.Had v d := by
  induction h with
  | refl => exact hd
  | tail _ hstep ih =>
    cases hstep with
    | run _ hc => exact had_mono hc ih
    | env he => simpa [Sys.Had, he.1, he.2.1] using ih

end

/-! ## Settled queries -/

/-- Every commit up to version `m` leaves the answer to `q` as it was, or its writer has made an
increment that `counts` counts. -/
def Settled (ans : (q : Q) → D → A q) (counts : B → Nat → Prop) (s : Sys D B K V)
    (l : History ι D B K V Q A) (q : Q) (m : Nat) : Prop :=
  ∀ v d d', v < m → s.Had v d → s.Had (v + 1) d' → ans q d' = ans q d ∨
    ∃ w b g n, Committed l w (v + 1) ∧ Bumped l w b g ∧ counts b n ∧ g ≤ n

section

variable {ans : (q : Q) → D → A q} {counts : B → Nat → Prop} {s : Sys D B K V}
  {l : History ι D B K V Q A} {q : Q} {m : Nat}

/-- From a version that covers what is counted on, the answer stays up to the settled version. -/
theorem Settled.steady (h : Settled ans counts s l q m) {v : Nat} {d : D} (hd : s.Had v d)
    (hcov : ∀ b n, counts b n → Covered l b n v) {k : Nat} (hk : v + k ≤ m) {d' : D}
    (hd' : s.Had (v + k) d') : ans q d' = ans q d := by
  induction k generalizing d' with
  | zero => rw [Sys.Had.unique hd' hd]
  | succ k ih =>
    obtain ⟨e, he⟩ := Sys.exists_had (Nat.le_of_succ_le hd'.le)
    rcases h (v + k) e d' (by omega) he hd' with hsame | ⟨w, b, g, n, hcm, hbump, hcount, hgn⟩
    · rw [hsame, ih (by omega) he]
    · -- a counted writer's commit is covered, so it is not a later one
      have hle : v + k + 1 ≤ v := hcov b n hcount w (v + k + 1) g hcm hbump hgn
      omega

theorem Settled.answer (h : Settled ans counts s l q m) (hm : m ≤ s.version) {v : Nat} {d : D}
    (hd : s.Had v d) (hcov : ∀ b n, counts b n → Covered l b n v) :
    ∃ v' d', m ≤ v' ∧ s.Had v' d' ∧ ans q d' = ans q d := by
  by_cases hle : m ≤ v
  · exact ⟨v, d, hle, hd, rfl⟩
  · obtain ⟨d', hd'⟩ := Sys.exists_had hm
    have hk : v + (m - v) = m := by omega
    exact ⟨m, d', Nat.le_refl _, hd', h.steady hd hcov (Nat.le_of_eq hk) (by rwa [hk])⟩

/-- What a coherent cache holds is made of answers from the settled version on. -/
theorem Backed.settled {need : K → B → Option Nat}
    {Makes : (k : K) → List ((q : Q) × A q) → V k → Prop} {k : K} {x : V k}
    (h : Backed ans need Makes s l k x) (hm : m ≤ s.version)
    (hsettled : ∀ xs, Makes k xs x → ∀ y ∈ xs,
      Settled ans (fun b n => need k b = some n) s l y.1 m) :
    ∃ xs, Makes k xs x ∧ ∀ y ∈ xs, ∃ v d, m ≤ v ∧ s.Had v d ∧ y.2 = ans y.1 d := by
  obtain ⟨xs, hmake, hxs⟩ := h.made
  refine ⟨xs, hmake, fun y hy => ?_⟩
  obtain ⟨v, d, hd, ha, hcov⟩ := hxs y hy
  obtain ⟨v', d', hle, hd', hsame⟩ := (hsettled xs hmake y hy).answer hm hd hcov
  exact ⟨v', d', hle, hd', ha.trans hsame.symm⟩

/-- So is what a reader has queried. -/
theorem Coherent.settled {need : K → B → Option Nat}
    {Makes : (k : K) → List ((q : Q) × A q) → V k → Prop} (h : Coherent ans need Makes s l)
    {r : ι} {a : A q} (hq : Queried l r q a) (hm : m ≤ s.version)
    (hsettled : Settled ans (ReadGen l r) s l q m) :
    ∃ v d, m ≤ v ∧ s.Had v d ∧ a = ans q d := by
  obtain ⟨v, d, hd, ha, -, hcov⟩ := h.read r q a hq
  obtain ⟨v', d', hle, hd', hsame⟩ := hsettled.answer hm hd hcov
  exact ⟨v', d', hle, hd', ha.trans hsame.symm⟩

end

/-! ## Writers that have ended -/

section

/-- A writer's change, and the counters that it increments behind it. -/
abbrev Write (D B : Type) := (D → D) × List B

/-- Only a writer commits, and only its own change. -/
def ownWrites (writer : Option (Write D B)) : Guard (Cmd D B K V Q) (Cmd.Resp A) := fun _ c =>
  ∀ f, c = .commit f → ∃ bs, writer = some (f, bs)

/-- A writer that has ended has incremented its counters. -/
def Increments (writer : Option (Write D B)) (t : Trace (Cmd D B K V Q) (Cmd.Resp A)) : Prop :=
  ∀ f bs, writer = some (f, bs) → ∀ b ∈ bs, ∃ g, ⟨.incr b, g⟩ ∈ t

variable (writer : ι → Option (Write D B)) (ans : (q : Q) → D → A q)

/-- Each commit that changes the answer to `q` is of a writer that increments a counter of
`relevant`. -/
def Complete (relevant : B → Prop) (s : Sys D B K V) (l : History ι D B K V Q A) (q : Q) : Prop :=
  ∀ w f bs v d, writer w = some (f, bs) → Committed l w (v + 1) → s.Had v d →
    ans q (f d) = ans q d ∨ ∃ b ∈ bs, relevant b

variable {writer ans} [DecidableEq ι] [DecidableEq B] [DecidableEq K] {α : Type}
  {P₁ P₂ : Pool ι (Cmd D B K V Q) (Cmd.Resp A) α (Sys D B K V)}

/-- Every thread that has committed has ended. -/
def Quiet (P : Pool ι (Cmd D B K V Q) (Cmd.Resp A) α (Sys D B K V)) : Prop :=
  ∀ w v, Committed P.log w v → ∃ a, P.thread w = .ret a

variable {s₀ : Sys D B K V} {thread : ι → Prog (Cmd D B K V Q) (Cmd.Resp A) α}
  {relevant : B → Prop} {q : Q}

/-- Each commit is its writer's. -/
theorem commit_own (hthread : ∀ i, (thread i).Follows (ownWrites (writer i))
      (fun _ t => Increments (writer i) t) [])
    (h₁ : Pool.Reach (sem ans) Versioned.evict (Pool.start s₀ thread) P₁) (hpast : s₀.past = [])
    {v : Nat} {d d' : D} (hd : P₁.shared.Had v d) (hd' : P₁.shared.Had (v + 1) d') :
    ∃ w f bs, writer w = some (f, bs) ∧ Committed P₁.log w (v + 1) ∧ d' = f d := by
  have hzero : s₀.version = 0 := by simp [Sys.version, hpast]
  have hord := (Pool.ordered_start hthread).reach h₁
  obtain ⟨w, f, hm, hstep⟩ := (Chronicle.reach h₁).2 v (by omega) hd'.le
  obtain ⟨t, -, hown⟩ := (hord w).1.of_mem (mem_own.2 hm)
  obtain ⟨bs, hwriter⟩ := hown f rfl
  exact ⟨w, f, bs, hwriter, ⟨f, hm⟩, hd'.unique (hstep d hd)⟩

/-- At a quiet moment, each commit that changed the answer is followed by a relevant increment. -/
theorem Complete.incremented (hthread : ∀ i, (thread i).Follows (ownWrites (writer i))
      (fun _ t => Increments (writer i) t) [])
    (h₁ : Pool.Reach (sem ans) Versioned.evict (Pool.start s₀ thread) P₁) (hpast : s₀.past = [])
    (hcomplete : Complete writer ans relevant P₁.shared P₁.log q) (hquiet : Quiet P₁) {v : Nat}
    {d d' : D} (hd : P₁.shared.Had v d) (hd' : P₁.shared.Had (v + 1) d') :
    ans q d' = ans q d ∨
      ∃ w b g, Committed P₁.log w (v + 1) ∧ Bumped P₁.log w b g ∧ relevant b := by
  obtain ⟨w, f, bs, hwriter, hcommit, rfl⟩ := commit_own hthread h₁ hpast hd hd'
  rcases hcomplete w f bs v d hwriter hcommit hd with hsame | ⟨b, hb, hrelevant⟩
  · exact .inl hsame
  · obtain ⟨a, hret⟩ := hquiet w (v + 1) hcommit
    obtain ⟨g, hbump⟩ := ((Pool.ordered_start hthread).reach h₁).post hret f bs hwriter b hb
    exact .inr ⟨w, b, g, hcommit, mem_own.1 hbump, hrelevant⟩

/-- A query is settled at a quiet moment for a reader that counts the increments until then. -/
theorem settled_of_quiet (hthread : ∀ i, (thread i).Follows (ownWrites (writer i))
      (fun _ t => Increments (writer i) t) [])
    (h₁ : Pool.Reach (sem ans) Versioned.evict (Pool.start s₀ thread) P₁) (hpast : s₀.past = [])
    (hcomplete : Complete writer ans relevant P₁.shared P₁.log q) (hquiet : Quiet P₁)
    (h₂ : Pool.Reach (sem ans) Versioned.evict P₁ P₂) {counts : B → Nat → Prop}
    (hcounts : ∀ b, relevant b → ∃ n, counts b n ∧ ∀ w g, Bumped P₁.log w b g → g ≤ n) :
    Settled ans counts P₂.shared P₂.log q P₁.shared.version := by
  intro v d d' hlt hd hd'
  have hlog := h₂.log_suffix.subset
  obtain ⟨e, he⟩ := Sys.exists_had (Nat.le_of_lt hlt)
  obtain ⟨e', he'⟩ := Sys.exists_had (Nat.succ_le_of_lt hlt)
  obtain rfl := hd.unique (had_reach h₂ he)
  obtain rfl := hd'.unique (had_reach h₂ he')
  rcases hcomplete.incremented hthread h₁ hpast hquiet he he' with hsame | ⟨w, b, g, hcm, hbump, hb⟩
  · exact .inl hsame
  · obtain ⟨n, hn, hle⟩ := hcounts b hb
    exact .inr ⟨w, b, g, n, hcm.imp fun _ hm => hlog hm, hlog hbump, hn, hle w g hbump⟩

end

end Versioned
