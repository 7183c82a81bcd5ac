import Janus.Auth.PermCache

/-!
# No stale permission snapshot

Any number of snapshot readers and of admin mutations run at the same time. A reader reads both
generations in one `MGET` before it queries anything, so its counter reads are timely and the cache
stays coherent; a reader that starts after a mutation's invalidation gets a snapshot of states at
or after that mutation's commit (`loadSnapshot_fresh`).
-/

set_option autoImplicit false

namespace PermCache

open Conc Versioned

variable {D : Type}

/-- The generations a snapshot key embeds. -/
def need (k : SnapshotKey) : GenKey → Option Nat
  | .global => some k.globalGen
  | .user u => if u = k.userId then some k.userGen else none

/-- A cached text is the encoding of the answers to the loader's two queries. -/
def Makes (k : SnapshotKey) (xs : List ((q : Query) × q.Answer)) (x : Cached) : Prop :=
  ∃ permissions roleCodes : Finset String,
    xs = [⟨.permissionCodes k.userId, permissions⟩, ⟨.activeRoleCodes k.userId, roleCodes⟩] ∧
    x = encode ⟨permissions, roleCodes⟩

/-- The generation that a hook bumps. -/
def Hook.genKey : Hook → GenKey
  | .invalidateUser u => .user u
  | .invalidateAll => .global

/-- The program order of readers and mutations: generations are read before any query. -/
def readFirst : Guard (Cmd D) Resp := fun t c =>
  order need Makes t c ∧ ∀ bs, c = .gens bs → ∀ q a, ⟨.query q, a⟩ ∉ t

/-- A reader or a mutation. -/
inductive Task (D : Type)
  | load (u : UserId)
  | mutate (change : D → D) (hooks : List Hook)

def Task.prog : Task D → Io D (Option PermissionSnapshot)
  | .load u => do
    let snapshot ← loadSnapshot u (loadPermissionSnapshot u)
    pure (some snapshot)
  | .mutate change hooks => do
    PermCache.mutate change hooks
    pure none

/-- How a reader came by its snapshot. -/
structure Loaded (u : UserId) (t : Trace (Cmd D) Resp) (snapshot : PermissionSnapshot)
    (answer : GenKey → Option Nat) : Prop where
  gens : ⟨.gens [.global, .user u], answer⟩ ∈ t
  source :
    (∃ cached, ⟨.get ⟨u, (answer .global).getD 0, (answer (.user u)).getD 0⟩, some cached⟩ ∈ t ∧
      decode cached = some snapshot) ∨
    (⟨.query (.permissionCodes u), snapshot.permissions⟩ ∈ t ∧
      ⟨.query (.activeRoleCodes u), snapshot.roleCodes⟩ ∈ t)

theorem loadAndSeed_follows {u : UserId} {answer : GenKey → Option Nat}
    {t : Trace (Cmd D) Resp} (hg : ⟨.gens [.global, .user u], answer⟩ ∈ t) :
    (loadAndSeed ⟨u, (answer .global).getD 0, (answer (.user u)).getD 0⟩
      (loadPermissionSnapshot u) encode).Follows readFirst
      (fun snapshot t => Loaded u t snapshot answer) t := by
  refine ⟨⟨trivial, nofun⟩, fun permissions => ⟨⟨trivial, nofun⟩, fun roleCodes => ⟨⟨⟨?_, ?_⟩, nofun⟩,
    fun _ => ⟨by simp [hg], .inr ⟨by simp, by simp⟩⟩⟩⟩⟩
  · intro b n hb
    refine ⟨_, answer, List.mem_cons_of_mem _ (List.mem_cons_of_mem _ hg), ?_⟩
    cases b with
    | global => simpa [need] using hb
    | user u' =>
      simp only [need] at hb
      split at hb
      · next hu =>
        subst hu
        simpa using hb
      · cases hb
  · refine ⟨_, ⟨permissions, roleCodes, rfl, rfl⟩, fun x hx => ?_⟩
    simp only [List.mem_cons, List.not_mem_nil, or_false] at hx
    rcases hx with rfl | rfl <;> simp

theorem loadSnapshot_follows (u : UserId) :
    (loadSnapshot u (loadPermissionSnapshot u) : Io D PermissionSnapshot).Follows readFirst
      (fun snapshot t => ∃ answer, Loaded u t snapshot answer) [] := by
  simp only [loadSnapshot, readGenerations, getOrLoad, issue, Prog.cmd_bind, Prog.step_bind,
    Prog.pure_eq, Prog.ret_bind]
  refine ⟨⟨trivial, fun _ _ _ _ hm => nomatch hm⟩, fun answer => ?_⟩
  have hkey : order need Makes [(⟨.gens [.global, .user u], answer⟩ : Event (Cmd D) Resp)]
      (.get ⟨u, (answer .global).getD 0, (answer (.user u)).getD 0⟩) := by
    intro b n hb
    refine ⟨_, answer, List.mem_cons_self .., ?_⟩
    cases b with
    | global => simpa [need] using hb
    | user u' =>
      simp only [need] at hb
      split at hb
      · next hu =>
        subst hu
        simpa using hb
      · cases hb
  refine ⟨⟨hkey, nofun⟩, fun found => ?_⟩
  cases found with
  | none => exact (loadAndSeed_follows (by simp)).mono fun _ _ h => ⟨answer, h⟩
  | some cached =>
    cases hd : decode cached with
    | none =>
      simp only [hd]
      exact (loadAndSeed_follows (by simp)).mono fun _ _ h => ⟨answer, h⟩
    | some snapshot =>
      simp only [hd]
      exact ⟨answer, by simp, .inl ⟨cached, by simp, hd⟩⟩

theorem mutate_follows (change : D → D) (hooks : List Hook) :
    (mutate change hooks).Follows readFirst (fun _ _ => True) [] := by
  simp only [mutate, issue, Prog.cmd_bind]
  refine ⟨⟨fun _ _ hm => (nomatch hm), nofun⟩, fun _ => ?_⟩
  refine Prog.Follows.forM (I := fun _ _ => True) trivial fun hook _ _ _ => ?_
  cases hook <;> exact ⟨⟨trivial, nofun⟩, fun _ => trivial⟩

theorem Task.follows (task : Task D) : task.prog.Follows readFirst (fun result t =>
    ∀ u snapshot, task = .load u → result = some snapshot → ∃ answer, Loaded u t snapshot answer)
    [] := by
  cases task with
  | load u =>
    refine .bind (loadSnapshot_follows u) fun snapshot t h => ?_
    rintro _ _ ⟨⟩ ⟨⟩
    exact h
  | mutate change hooks => exact .bind (mutate_follows change hooks) fun _ _ _ => nofun

/-! ## Runs -/

section

variable {ι : Type} [DecidableEq ι] (rbac : Rbac D)

/-- Generations are read before anything is queried, so every run is timely. -/
theorem timely_cmd {i : ι} {c : Cmd D} {r : Resp c} {l : Log ι (Cmd D) Resp} (h : Timely l)
    (hg : readFirst (own i l) c) : Timely ((i, ⟨c, r⟩) :: l) := by
  cases c with
  | gens bs =>
    exact ⟨fun b _ => timelyRead_of_unqueried fun q a hq => hg.2 bs rfl q a (mem_own.2 hq), h⟩
  | _ => exact h

theorem timely_reach {tasks : ι → Task D} {s₀ : Sys D GenKey SnapshotKey fun _ => Cached}
    {P : Pool ι (Cmd D) Resp _ _}
    (h : Pool.Reach (sem rbac.answer) evict (Pool.start s₀ fun i => (tasks i).prog) P) :
    Timely P.log :=
  h.invariant (J := fun _ l => Timely l) (fun i => (tasks i).follows) trivial
    (fun _ hJ hg _ => timely_cmd hJ hg) fun hJ _ => hJ

/-- The invariant of all interleavings. -/
theorem coherent_reach {tasks : ι → Task D} {s₀ : Sys D GenKey SnapshotKey fun _ => Cached}
    (hempty : ∀ k, s₀.entries k = none) {P : Pool ι (Cmd D) Resp _ _}
    (h : Pool.Reach (sem rbac.answer) evict (Pool.start s₀ fun i => (tasks i).prog) P) :
    Coherent rbac.answer need Makes P.shared P.log :=
  Coherent.reach (fun _ _ _ hg => hg.1) (Pool.ordered_start fun i => (tasks i).follows)
    (fun _ => .start hempty) h (timely_reach rbac h)

/-- The counters whose increment invalidates `u`'s snapshot. -/
def GenKey.Covers (b : GenKey) (u : UserId) : Prop := b = .global ∨ b = .user u

/-- A reader that starts after a mutation has incremented a counter that covers `u` returns the
permissions and the roles of states at or after that mutation's commit. The database is arbitrary:
with one whose answers carry their commit number, this says that the reads were that late. -/
theorem loadSnapshot_fresh {tasks : ι → Task D} {s₀ : Sys D GenKey SnapshotKey fun _ => Cached}
    (hempty : ∀ k, s₀.entries k = none) {P₁ P₂ : Pool ι (Cmd D) Resp _ _}
    (h₁ : Pool.Reach (sem rbac.answer) evict (Pool.start s₀ fun i => (tasks i).prog) P₁)
    {w r : ι} {v g : Nat} {b : GenKey} {u : UserId} {snapshot : PermissionSnapshot}
    (hcommit : Committed P₁.log w v) (hbump : Bumped P₁.log w b g) (hcov : b.Covers u)
    (hreader : tasks r = .load u) (hstart : own r P₁.log = [])
    (h₂ : Pool.Reach (sem rbac.answer) evict P₁ P₂) (hret : P₂.thread r = .ret (some snapshot)) :
    ∃ v₁ v₂ d₁ d₂, v ≤ v₁ ∧ v ≤ v₂ ∧ P₂.shared.Had v₁ d₁ ∧ P₂.shared.Had v₂ d₂ ∧
      snapshot = ⟨rbac.listPermissionCodes d₁ u, rbac.listActiveRoleCodes d₂ u⟩ := by
  have hord := (Pool.ordered_start fun i => (tasks i).follows).reach h₁
  have hbumped := (coherent_reach rbac hempty h₁).bumped w b g hbump
  have hsound := coherent_reach rbac hempty (h₁.trans h₂)
  obtain ⟨answer, hloaded⟩ := (hord.reach h₂).post hret u snapshot hreader rfl
  -- the counter that `w` incremented was read at `g` or later
  have hread : ReadGen P₂.log r b ((answer b).getD 0) := by
    refine ⟨_, answer, mem_own.1 hloaded.gens, ?_, rfl⟩
    rcases hcov with rfl | rfl <;> simp
  have hgn : g ≤ (answer b).getD 0 :=
    readGen_after hord hbumped hstart h₂ hread
  have hlog := h₂.log_suffix.subset
  have hcommit' : Committed P₂.log w v := hcommit.imp fun _ hm => hlog hm
  rcases hloaded.source with ⟨cached, hhit, hdec⟩ | ⟨hp, hr⟩
  · have hneed : need ⟨u, (answer .global).getD 0, (answer (.user u)).getD 0⟩ b =
        some ((answer b).getD 0) := by
      rcases hcov with rfl | rfl <;> simp [need]
    obtain ⟨xs, ⟨permissions, roleCodes, rfl, rfl⟩, hxs⟩ :=
      (hsound.hits r _ cached (mem_own.1 hhit)).fresh hcommit' (hlog hbump) hneed hgn
    rw [decode_encode] at hdec
    obtain rfl := Option.some.inj hdec
    obtain ⟨v₁, d₁, hv₁, hd₁, hp⟩ := hxs ⟨.permissionCodes u, permissions⟩ (by simp)
    obtain ⟨v₂, d₂, hv₂, hd₂, hr⟩ := hxs ⟨.activeRoleCodes u, roleCodes⟩ (by simp)
    have hp' : permissions = rbac.listPermissionCodes d₁ u := hp
    have hr' : roleCodes = rbac.listActiveRoleCodes d₂ u := hr
    exact ⟨v₁, v₂, d₁, d₂, hv₁, hv₂, hd₁, hd₂, by rw [hp', hr']⟩
  · obtain ⟨v₁, d₁, hv₁, hd₁, hp⟩ :=
      hsound.queried (mem_own.1 hp) hread hcommit' (hlog hbump) hgn
    obtain ⟨v₂, d₂, hv₂, hd₂, hr⟩ :=
      hsound.queried (mem_own.1 hr) hread hcommit' (hlog hbump) hgn
    refine ⟨v₁, v₂, d₁, d₂, hv₁, hv₂, hd₁, hd₂, ?_⟩
    cases snapshot
    simp_all [Rbac.answer]

end

/-- A database that says whether user 7's role was revoked. -/
def revocable : Rbac Bool where
  listPermissionCodes revoked _ := if revoked then ∅ else {"admin:write"}
  listActiveRoleCodes revoked _ := if revoked then ∅ else {"admin"}

/-- One mutation that revokes the role, and one reader. -/
def revocation : Bool → Task Bool
  | true => .mutate (fun _ => true) [.invalidateUser 7]
  | false => .load 7

/-- The pool after the mutation, and after the reader that follows it. -/
def revoked : Pool Bool (Cmd Bool) Resp (Option PermissionSnapshot)
    (Sys Bool GenKey SnapshotKey fun _ => Cached) :=
  Pool.play (Cmd.run revocable.answer)
    (Pool.start ⟨[], false, fun _ => none, fun _ => none⟩ fun i => (revocation i).prog)
    (List.replicate 2 true)

/-- The reader sees the revocation. -/
theorem loadSnapshot_fresh_revoked :
    ∃ snapshot, (Pool.play (Cmd.run revocable.answer) revoked
        (List.replicate 5 false)).thread false = .ret (some snapshot) ∧
      snapshot.permissions = ∅ := by
  refine ⟨_, rfl, ?_⟩
  obtain ⟨v₁, v₂, d₁, d₂, hv₁, -, hd₁, -, hs⟩ := loadSnapshot_fresh revocable (v := 1) (g := 1)
    (w := true) (r := false) (fun _ => rfl) (Pool.reach_play (sem_run revocable.answer) (List.replicate 2 true) _)
    ⟨fun _ => true, List.mem_of_getElem? (i := 1) rfl⟩ (List.mem_of_getElem? (i := 0) rfl)
    (.inr rfl) rfl rfl
    (Pool.reach_play (sem_run revocable.answer) (List.replicate 5 false) revoked) rfl
  have hstate : [false, true][v₁]? = some d₁ := hd₁
  obtain rfl : d₁ = true := by
    match v₁, hv₁, hstate with
    | 1, _, h => exact (Option.some.inj h).symm
    | n + 2, _, h => simp at h
  rw [hs]
  rfl

end PermCache
