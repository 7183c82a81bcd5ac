import Janus.Conc.Triple
import Janus.Session.Proof.Index

/-!
# What `list_all_sessions` shows

A listing that runs alone drops only members whose record is gone, so a session that is in the
indexes when it begins is shown or has expired (`listAllSessions_shows`). With `Indexes` this makes
the listing of an idle system complete (`sessions_indexed`). `strayed`: a revocation that took the
index for empty before a login removes the user after it.
-/

set_option autoImplicit false

namespace Session

open Conc Redis Prog

/-! ## A listing alone -/

section Alone

variable {n : NewSession} {c : Cmd} {r : c.Resp} {s s' : Store}

/-- The session as a listing shows it. -/
def NewSession.info (n : NewSession) : SessionInfo :=
  ⟨n.accessJti, n.userId, n.ip, n.userAgent, n.loginAt⟩

/-- The index has the session as long as its record is readable, and the record is its own. -/
structure Held (n : NewSession) (s : Store) : Prop where
  covered : Covered s n
  record : ∀ raw, s.strings.get s.now (.access n.accessJti) = some raw → raw = n.accessRecord

theorem Held.tick (h : Held n s) (ht : tick s s') : Held n s' where
  covered := h.covered.tick ht
  record raw hraw := by
    rw [tick_strings ht] at hraw
    exact h.record raw (Table.get_anti hraw (tick_now ht))

/-- What a listing issues, when it drops only members without a record. -/
def Listing (s : Store) : Cmd → Prop
  | .get _ | .smembers _ | .existsIndex _ | .smembersUsers | .sremUsers _ => True
  | .srem _ j => Dead s (.access j)
  | _ => False

theorem Listing.not_set {k : Key} (h : Listing s c) : ∀ v ex, c ≠ .set k v ex := by
  rintro v ex rfl
  exact h

theorem Held.cmd (h : Held n s) (hl : Listing s c) (hc : sem c s r s') : Held n s' where
  covered := by
    refine h.covered.cmd hc hl.not_set ?_ ?_ ?_
    · rintro u rfl
      exact hl
    · rintro rfl
      exact hl.elim
    · rintro ttl rfl
      exact hl.elim
  record raw hraw := by
    rcases strings_shrink hc hl.not_set with he | he
    · rw [now_of_sem hc, Table.get_congr he] at hraw
      exact h.record raw hraw
    · rw [Table.get_of_none he] at hraw
      cases hraw

/-- The session has expired, or `p`. -/
def Shown (n : NewSession) (p : Prop) (s : Store) : Prop :=
  Held n s ∧ (Dead s (.access n.accessJti) ∨ p)

theorem Shown.tick {p : Prop} (h : Shown n p s) (ht : tick s s') : Shown n p s' :=
  ⟨h.1.tick ht, h.2.imp_left fun hd => hd.tick ht⟩

theorem stable_shown (p : Prop) : Stable tick (Shown n p) := fun _ _ h ht => h.tick ht

theorem Shown.cmd {p : Prop} (h : Shown n p s) (hl : Listing s c) (hc : sem c s r s') :
    Shown n p s' := ⟨h.1.cmd hl hc, h.2.imp_left fun hd => hd.cmd hc hl.not_set⟩

theorem Shown.mono {p q : Prop} (h : Shown n p s) (hpq : p → q) : Shown n q s :=
  ⟨h.1, h.2.imp_right hpq⟩

/-- A program that has only to return. -/
theorem triple_ret {α : Type} {a : α} {p : Prop} {q : α → Prop} (h : p → q a) :
    Triple sem tick (Shown n p) (Prog.ret a : Redis α) fun a => Shown n (q a) :=
  Triple.pre (Triple.ret (stable_shown (q a))) fun _ hs => hs.mono h

theorem triple_step {α : Type} {p : Prop} {q : α → Prop} {k : c.Resp → Redis α}
    (hl : ∀ s, Listing s c) (hk : ∀ r, Triple sem tick (Shown n p) (k r) fun a => Shown n (q a)) :
    Triple sem tick (Shown n p) (Prog.step c k) fun a => Shown n (q a) :=
  Triple.step (stable_shown p) (fun s _ _ hs hc => hs.cmd (hl s) hc) hk

theorem pruneUserIndex_shows (u : UserId) (p : Prop) :
    Triple sem tick (Shown n p) (pruneUserIndex u) fun _ => Shown n p := by
  refine triple_step (fun _ => trivial) fun remaining => ?_
  cases remaining with
  | true => exact triple_ret id
  | false => exact triple_step (fun _ => trivial) fun _ => triple_ret id

/-- One round: the member is shown, or has no record any more. -/
theorem listMember_shows {u : UserId} {j : Jti} {rest : List Jti} {sessions : List SessionInfo}
    {p : Prop} :
    Triple sem tick
      (Shown n (p ∨ n.info ∈ sessions ∨ (u = n.userId ∧ n.accessJti ∈ j :: rest)))
      (listMember u sessions j)
      (fun sessions' => Shown n (p ∨ n.info ∈ sessions' ∨ (u = n.userId ∧ n.accessJti ∈ rest))) := by
  let before : Prop := p ∨ n.info ∈ sessions ∨ (u = n.userId ∧ n.accessJti ∈ rest)
  let M : Option Raw → Store → Prop := fun raw s =>
    Shown n (before ∨ (u = n.userId ∧ j = n.accessJti ∧ raw = some n.accessRecord)) s ∧
      (raw = none → Dead s (.access j))
  have hM (raw : Option Raw) : Stable tick (M raw) :=
    fun s s' hs ht => ⟨hs.1.tick ht, fun hraw => (hs.2 hraw).tick ht⟩
  simp only [listMember, redis, Prog.cmd_bind]
  refine Triple.step (M := M) (stable_shown _) ?_ fun raw => ?_
  · intro s raw s' hs hc
    have hstore : s' = s := hc.2
    have hread : raw = s.strings.get s.now (.access j) := hc.1
    subst hstore
    refine ⟨⟨hs.1, ?_⟩, fun hraw => by rw [hraw] at hread; exact hread.symm⟩
    rcases hs.2 with hdead | hp | hm | ⟨hu, hm⟩
    · exact .inl hdead
    · exact .inr (.inl (.inl hp))
    · exact .inr (.inl (.inr (.inl hm)))
    · rcases List.mem_cons.1 hm with rfl | hm
      · cases raw with
        | none => exact .inl hread.symm
        | some raw =>
          have hrecord := hs.1.record raw hread.symm
          subst hrecord
          exact .inr (.inr ⟨hu, rfl, rfl⟩)
      · exact .inr (.inl (.inr (.inr ⟨hu, hm⟩)))
  · cases raw with
    | none =>
      refine Triple.step (M := fun _ => Shown n before) (hM none) ?_ fun _ => triple_ret id
      intro s _ s' hs hc
      have hgone : Listing s (.srem u j) := hs.2 rfl
      refine Shown.cmd ?_ hgone hc
      refine hs.1.mono fun hp => hp.elim id ?_
      rintro ⟨-, -, hraw⟩
      cases hraw
    | some raw =>
      refine Triple.pre (P := Shown n (before ∨ (u = n.userId ∧ j = n.accessJti ∧
        some raw = some n.accessRecord))) ?_ fun s hs => hs.1
      cases hp : parseRecord raw with
      | none =>
        simp only [hp]
        refine triple_ret fun h => h.elim id ?_
        rintro ⟨-, -, hraw⟩
        injection hraw with hraw
        subst hraw
        cases hp
      | some record =>
        simp only [hp]
        refine triple_ret fun h => ?_
        rcases h with (hp | hm | hrest) | ⟨rfl, rfl, hraw⟩
        · exact .inl hp
        · exact .inr (.inl (List.mem_append_left _ hm))
        · exact .inr (.inr hrest)
        · injection hraw with hraw
          subst hraw
          injection hp with hp
          subst hp
          exact .inr (.inl (List.mem_append_right _ List.mem_cons_self))

/-- The sessions of the user are shown. -/
theorem listUserSessions_shows (u : UserId) (p : Prop) :
    Triple sem tick (Shown n (p ∨ u = n.userId)) (listUserSessions u)
      fun found => Shown n (p ∨ n.info ∈ found) := by
  let I : List Jti → List SessionInfo → Store → Prop := fun l found =>
    Shown n (p ∨ n.info ∈ found ∨ (u = n.userId ∧ n.accessJti ∈ l))
  simp only [listUserSessions, redis, Prog.cmd_bind]
  refine Triple.step (M := fun jtis => I jtis []) (stable_shown _) ?_ fun jtis => ?_
  · intro s jtis s' hs hc
    have hstore : s' = s := hc.2
    have hperm : jtis.Perm ((s.index.get s.now u).getD []) := hc.1
    subst hstore
    refine ⟨hs.1, ?_⟩
    rcases hs.2 with hdead | hp | rfl
    · exact .inl hdead
    · exact .inr (.inl hp)
    · by_cases hdead : Dead s' (.access n.accessJti)
      · exact .inl hdead
      · obtain ⟨members, hmembers, hm⟩ := hs.1.covered s'.now (Nat.le_refl _) hdead
        rw [hmembers] at hperm
        exact .inr (.inr (.inr ⟨rfl, hperm.symm.subset hm⟩))
  · have hloop := Triple.foldlM (E := sem) (I := I) (l := jtis) (b := []) tick_refl
      (fun found => stable_shown _) fun j rest found => listMember_shows
    refine Triple.bind tick_refl hloop fun found => ?_
    refine Triple.bind tick_refl (pruneUserIndex_shows u _) fun _ => triple_ret ?_
    rintro (hp | hm | ⟨-, hm⟩)
    · exact .inl hp
    · exact .inr hm
    · cases hm

theorem listUser_shows {rawUid : RawUid} {rest : List RawUid} {sessions : List SessionInfo} :
    Triple sem tick (Shown n (n.info ∈ sessions ∨ .int n.userId ∈ rawUid :: rest))
      (listUser sessions rawUid)
      fun sessions' => Shown n (n.info ∈ sessions' ∨ .int n.userId ∈ rest) := by
  cases rawUid with
  | text t =>
    refine triple_step (fun _ => trivial) fun _ => triple_ret ?_
    intro h
    simpa using h
  | int u =>
    have hfound := listUserSessions_shows (n := n) u (n.info ∈ sessions ∨ .int n.userId ∈ rest)
    refine Triple.bind tick_refl (Triple.pre hfound fun s hs => hs.mono ?_) fun found => ?_
    · intro h
      simp only [List.mem_cons, RawUid.int.injEq] at h
      rcases h with hm | hu | hm
      · exact .inl (.inl hm)
      · exact .inr hu.symm
      · exact .inl (.inr hm)
    · split
      · next hempty =>
        refine triple_step (fun _ => trivial) fun _ => triple_ret ?_
        rw [hempty]
        intro h
        simpa using h
      · refine triple_ret ?_
        rintro ((hm | hm) | hm)
        · exact .inl (List.mem_append_left _ hm)
        · exact .inr hm
        · exact .inl (List.mem_append_right _ hm)

/-- A session in the indexes is shown, or has expired. -/
theorem listAllSessions_shows : Triple sem tick
    (fun s => Held n s ∧ (Dead s (.access n.accessJti) ∨ .int n.userId ∈ s.users))
    listAllSessions fun sessions => Shown n (n.info ∈ sessions) := by
  have hstable : Stable tick fun s =>
      Held n s ∧ (Dead s (.access n.accessJti) ∨ .int n.userId ∈ s.users) := by
    intro s s' hs ht
    have husers : s'.users = s.users := by
      obtain ⟨d, rfl⟩ := ht
      rfl
    rw [husers]
    exact ⟨hs.1.tick ht, hs.2.imp_left fun hd => hd.tick ht⟩
  simp only [listAllSessions, redis, Prog.cmd_bind]
  refine Triple.step (M := fun users => Shown n (n.info ∈ [] ∨ .int n.userId ∈ users)) hstable ?_
    fun users => ?_
  · intro s users s' hs hc
    have hstore : s' = s := hc.2
    have hperm : users.Perm s.users := hc.1
    subst hstore
    exact ⟨hs.1, hs.2.imp_right fun hm => .inr (hperm.symm.subset hm)⟩
  · have hloop := Triple.foldlM (E := sem) (l := users) (b := [])
      (I := fun l sessions => Shown n (n.info ∈ sessions ∨ .int n.userId ∈ l)) tick_refl
      (fun _ => stable_shown _) fun rawUid rest sessions => listUser_shows
    exact Triple.post hloop fun sessions s hs => hs.mono fun h => by simpa using h

end Alone

/-! ## Listing an idle system -/

section Idle

variable {ι : Type} [DecidableEq ι] {call : ι → Call}

/-- The session is in its user's index, and the user in `sess:users`. -/
def Listable (s : Store) (n : NewSession) : Prop :=
  (∃ jtis, s.index.get s.now n.userId = some jtis ∧ n.accessJti ∈ jtis) ∧ .int n.userId ∈ s.users

/-- Every active access jti is that of a login whose session is in the indexes. -/
def AllListable (call : ι → Call) (s : Store) : Prop :=
  ∀ j, ¬ Dead s (.access j) → ∃ i n, call i = .createSession n ∧ n.accessJti = j ∧ Listable s n

/-- A listing from `s` that nothing disturbs shows every session that is active at its end. -/
def ListsAll (call : ι → Call) (s : Store) : Prop :=
  ∀ sessions s' t, listAllSessions.Runs sem tick s [] sessions s' t →
    ∀ j, ¬ Dead s' (.access j) → ∃ i n, call i = .createSession n ∧ n.accessJti = j ∧
      n.info ∈ sessions

/-- Every active session of an idle system is in the indexes, and a listing shows it. -/
theorem sessions_indexed {now₀ : Nat} {P : Clients ι} (hmint : MintedOnce call)
    (httl : ∀ i n, call i = .createSession n → n.accessTtl ≤ n.refreshTtl)
    (h : CarefulReach call (Clients.start now₀ call) P) (hidle : P.Idle) :
    AllListable call P.shared ∧ ListsAll call P.shared := by
  have hindexes := CarefulReach.indexes hmint httl h
  -- the login of an active session is over, so it has indexed it
  have horigin (j : Jti) (hlive : ¬ Dead P.shared (.access j)) : ∃ i n,
      call i = .createSession n ∧ n.accessJti = j ∧ Held n P.shared ∧ .int n.userId ∈ P.shared.users := by
    obtain ⟨raw, hraw⟩ := Option.ne_none_iff_exists'.1 hlive
    obtain ⟨cell, hcell, -, hval⟩ := Table.get_eq_some.1 hraw
    obtain ⟨i, n, hi, rfl, hdid, hrecord, -⟩ := hindexes.origin j cell hcell
    have hreturned : ∃ a, P.thread i = .ret a := (hidle i).resolve_left hdid.ne_nil
    obtain ⟨a, ha⟩ := hreturned
    have hdone := (CarefulReach.reach h).post (fun i => (call i).prog_indexes) ha
    obtain ⟨hindexed, henrolled⟩ := hdone n hi
    refine ⟨i, n, hi, rfl, ⟨hindexes.indexed i n hi hindexed, fun raw' hraw' => ?_⟩, ?_⟩
    · rw [hraw] at hraw'
      injection hraw' with heq
      rw [← heq, ← hval, hrecord]
    · exact (hindexes.enrolled i n hi henrolled).resolve_left hlive
  refine ⟨fun j hlive => ?_, fun sessions s' t hruns j hlive => ?_⟩
  · obtain ⟨i, n, hi, rfl, hheld, husers⟩ := horigin j hlive
    exact ⟨i, n, hi, rfl, hheld.covered _ (Nat.le_refl _) hlive, husers⟩
  · have hbefore : ¬ Dead P.shared (.access j) := by
      intro hdead
      refine hlive (dead_of_runs hruns (listAllSessions_follows (S := creating [])) ?_ hdead).1
      rintro t v ex ⟨m, hm, -⟩
      cases hm
    obtain ⟨i, n, hi, rfl, hheld, husers⟩ := horigin j hbefore
    have hshown := listAllSessions_shows ⟨hheld, .inr husers⟩ hruns
    exact ⟨i, n, hi, rfl, hshown.2.resolve_left hlive⟩

end Idle

/-! ## Two logins and a revocation -/

def phone : NewSession := { laptop with accessJti := "a2", refreshHash := "r2" }

/-- The laptop logs in and is logged out, the phone logs in. -/
def household : Fin 3 → Call
  | 0 => .createSession laptop
  | 1 => .revokeAccess "a1"
  | 2 => .createSession phone

theorem mintedOnce_household : MintedOnce household := by
  intro i j n m hi hj heq
  match i, j with
  | 0, 0 | 1, 1 | 2, 2 => rfl
  | 0, 2 | 2, 0 =>
    cases hi
    cases hj
    exact absurd heq (by decide)
  | 1, _ => cases hi
  | 0, 1 | 2, 1 => cases hj

theorem ttl_household {i : Fin 3} {n : NewSession} (hi : household i = .createSession n) :
    n.accessTtl ≤ n.refreshTtl := by
  match i with
  | 0 | 2 =>
    cases hi
    decide
  | 1 => cases hi

/-- The two logins take turns, and the laptop is logged out after them. -/
def loginSchedule : List (Fin 3) :=
  [0, 2, 0, 2, 0, 2, 0, 2, 0, 2, 1, 1, 1, 1, 1].filterMap fun n =>
    if h : n < 3 then some ⟨n, h⟩ else none

def afterLogins : Clients (Fin 3) := Pool.play Cmd.run (Clients.start 0 household) loginSchedule

/-- The deadline of the index comes after those of the access records. -/
theorem careful_expire {s : Store} {l : Log (Fin 3) Cmd Cmd.Resp} {i : Fin 3} {u : UserId} {ttl : Nat}
    (hmem : ∀ n, household i = .createSession n → n.accessJti ∈ (s.index.get s.now u).getD [])
    (hlaptop : s.strings.get (s.now + ttl) (.access "a1") = none)
    (hphone : s.strings.get (s.now + ttl) (.access "a2") = none) :
    Careful household s l i (.expire u ttl) := by
  refine ⟨fun n hn => .inr (hmem n hn), fun k n hk _ _ => ?_⟩
  match k with
  | 0 =>
    cases hk
    exact hlaptop
  | 1 => cases hk
  | 2 =>
    cases hk
    exact hphone

theorem careful_afterLogins : CarefulReach household (Clients.start 0 household) afterLogins := by
  -- the records are written and the jtis added
  iterate 6 refine Pool.path_cons sem_run rfl trivial ?_
  refine Pool.path_cons sem_run rfl (careful_expire ?_ rfl rfl) ?_
  · intro n hn
    cases hn
    decide
  refine Pool.path_cons sem_run rfl (careful_expire ?_ rfl rfl) ?_
  · intro n hn
    cases hn
    decide
  -- the user is enrolled, and one record and its jti are taken away
  iterate 7 refine Pool.path_cons sem_run rfl trivial ?_
  exact .refl

/-- The phone's session is active, in the indexes and listed, and the laptop's is gone. -/
theorem sessions_indexed_afterLogins : ¬ Dead afterLogins.shared (.access "a2") ∧
    Dead afterLogins.shared (.access "a1") ∧ AllListable household afterLogins.shared ∧
      ListsAll household afterLogins.shared := by
  refine ⟨nofun, rfl, sessions_indexed mintedOnce_household (fun _ _ => ttl_household)
    careful_afterLogins fun i => ?_⟩
  match i with
  | 0 | 1 | 2 => exact .inr ⟨(), rfl⟩

/-- The phone's login runs between the revocation's `EXISTS` and its `SREM`. -/
def strayedSchedule : List (Fin 3) :=
  [0, 0, 0, 0, 0, 1, 1, 1, 1, 2, 2, 2, 2, 2, 1, 1].filterMap fun n =>
    if h : n < 3 then some ⟨n, h⟩ else none

def strayed : Clients (Fin 3) := Pool.play Cmd.run (Clients.start 0 household) strayedSchedule

/-- The phone's session is active and its user is not in `sess:users`. -/
theorem strayed_unlisted :
    ¬ ∀ (ι : Type) [DecidableEq ι] (call : ι → Call) (now₀ : Nat) (P : Clients ι), MintedOnce call →
      (∀ i n, call i = .createSession n → n.accessTtl ≤ n.refreshTtl) →
      Pool.Reach sem tick (Clients.start now₀ call) P → P.Idle →
      AllListable call P.shared ∧ ListsAll call P.shared := by
  intro h
  have hidle : strayed.Idle := by
    intro i
    match i with
    | 0 | 1 | 2 => exact .inr ⟨(), rfl⟩
  have hlisted := (h (Fin 3) household 0 strayed mintedOnce_household
    (fun _ _ => ttl_household)
    (Pool.reach_play sem_run strayedSchedule _) hidle).1
  obtain ⟨i, n, -, -, -, husers⟩ := hlisted "a2" nofun
  have hnone : strayed.shared.users = [] := rfl
  rw [hnone] at husers
  cases husers

end Session
