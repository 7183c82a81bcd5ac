import Janus.Session.Service

/-!
# The program order of the session store

What each method may issue and in which order, as one guard (`Scope.guard`): a session's refresh
record is written after its access record and its index entry after both; a record is deleted only
after it was read; an access record is read only if its jti was named by the caller, listed by an
index or bound to a consumed refresh token. The methods' judgements (`*_follows`) hold for
arbitrary answers, so they say nothing about Redis; the invariants of the other modules add that.

* `Did`, `ReadHash`, `Listed`, `Bound`, `Won`: what a trace has seen.
* `Closed`: every access record that was read was deleted, with the refresh record it names.
* `Kept`: what a method that creates no session keeps of the trace before it.
-/

set_option autoImplicit false

namespace Session

open Conc

abbrev Tr := Trace Cmd Cmd.Resp

/-! ## What a trace has seen -/

def Did (t : Tr) (c : Cmd) : Prop := ∃ r, ⟨c, r⟩ ∈ t

/-- An access record of `j` naming the refresh hash `h` was read. -/
def ReadHash (t : Tr) (j : Jti) (h : RefreshHash) : Prop :=
  ∃ raw rec, ⟨.get (.access j), some raw⟩ ∈ t ∧ parseRecord raw = some rec ∧
    rec.refreshHash = some h

/-- An index answered with `j` among its members. -/
def Listed (t : Tr) (j : Jti) : Prop := ∃ u, ∃ l : List Jti, ⟨.smembers u, l⟩ ∈ t ∧ j ∈ l

/-- The refresh token `h` of user `u`, bound to the access jti `j`, was consumed. -/
def Won (t : Tr) (h : RefreshHash) (u : UserId) (j : Jti) : Prop :=
  ∃ raw rec, ⟨.getdel (.refresh h), some raw⟩ ∈ t ∧ parseRecord raw = some rec ∧
    rec.userId = some u ∧ rec.accessJti = some j

def Bound (t : Tr) (j : Jti) : Prop := ∃ h u, Won t h u j

/-- A refresh record was written. -/
def Opened (t : Tr) : Prop := ∃ h v ex, Did t (.set (.refresh h) v ex)

def NewSession.setAccess (n : NewSession) : Cmd :=
  .set (.access n.accessJti) n.accessRecord n.accessTtl

def NewSession.setRefresh (n : NewSession) : Cmd :=
  .set (.refresh n.refreshHash) n.refreshRecord n.refreshTtl

/-- The read of `raw` at the access record of `j` was followed through. -/
def ClosedAt (t : Tr) (j : Jti) (raw : Raw) : Prop :=
  Did t (.delete (.access j)) ∧ ∀ rec h, parseRecord raw = some rec → rec.refreshHash = some h →
    Did t (.delete (.refresh h))

/-- Every read but those in `X` was followed through. -/
def ClosedBut (X : Jti → Raw → Prop) (t : Tr) : Prop :=
  ∀ j raw, ⟨.get (.access j), some raw⟩ ∈ t → X j raw ∨ ClosedAt t j raw

def Closed (t : Tr) : Prop := ClosedBut (fun _ _ => False) t

theorem Did.mono {t t' : Tr} {c : Cmd} (h : Did t c) (hs : t ⊆ t') : Did t' c :=
  h.imp fun _ hm => hs hm

theorem Listed.mono {t t' : Tr} {j : Jti} (h : Listed t j) (hs : t ⊆ t') : Listed t' j :=
  let ⟨u, l, hm, hj⟩ := h
  ⟨u, l, hs hm, hj⟩

theorem Won.mono {t t' : Tr} {h : RefreshHash} {u : UserId} {j : Jti} (hw : Won t h u j)
    (hs : t ⊆ t') : Won t' h u j :=
  let ⟨raw, rec, hm, hr⟩ := hw
  ⟨raw, rec, hs hm, hr⟩

theorem Bound.mono {t t' : Tr} {j : Jti} (h : Bound t j) (hs : t ⊆ t') : Bound t' j :=
  let ⟨h', u, hw⟩ := h
  ⟨h', u, hw.mono hs⟩

theorem ClosedAt.mono {t t' : Tr} {j : Jti} {raw : Raw} (h : ClosedAt t j raw) (hs : t ⊆ t') :
    ClosedAt t' j raw :=
  ⟨h.1.mono hs, fun rec h' hp hh => (h.2 rec h' hp hh).mono hs⟩

/-! ## The guard -/

/-- The sessions a program may create after a trace, the refresh tokens it presents and the access
tokens its caller names. -/
structure Scope where
  opens : Tr → NewSession → Prop
  presents : RefreshHash → Prop
  names : Jti → Prop

/-- The program order (module doc). -/
def Scope.guard (S : Scope) : Guard Cmd Cmd.Resp := fun t c =>
  match c with
  | .set (.access j) v ex => ∃ n, S.opens t n ∧
      Cmd.set (.access j) v ex = n.setAccess
  | .set (.refresh h) v ex => ∃ n, S.opens t n ∧ Did t n.setAccess ∧
      Cmd.set (.refresh h) v ex = n.setRefresh
  | .set (.used h) _ _ => S.presents h
  | .sadd u j => ∃ n : NewSession, Did t n.setAccess ∧ Did t n.setRefresh ∧
      u = n.userId ∧ j = n.accessJti
  | .get (.access j) => S.names j ∨ Listed t j ∨ Bound t j
  | .delete (.access j) => Did t (.get (.access j))
  | .delete (.refresh h) => ∃ j, ReadHash t j h
  | .getdel (.refresh h) => S.presents h
  | .delete (.used _) | .getdel _ => False
  | _ => True

/-- `revoke_all_sessions` creates nothing, and its walk needs no jti to be named. -/
def walking : Scope := ⟨fun _ _ => False, fun _ => False, fun _ => False⟩

theorem walking_no_set (t : Tr) (k : Key) (v : Raw) (ex : Nat) : ¬ walking.guard t (.set k v ex) := by
  cases k with
  | access _ => exact fun ⟨_, hn, _⟩ => hn
  | refresh _ => exact fun ⟨_, hn, _⟩ => hn
  | used _ => exact id

/-- What a method that creates no session keeps. -/
structure Kept (t t' : Tr) : Prop where
  sub : t ⊆ t'
  closed : ∀ X, ClosedBut X t → ClosedBut X t'
  unopened : ¬ Opened t → ¬ Opened t'

namespace Kept

variable {t t' t₁ t₂ t₃ : Tr} {j : Jti} {raw : Raw}

theorem refl (t : Tr) : Kept t t := ⟨fun _ h => h, fun _ => id, id⟩

theorem trans (h₁ : Kept t₁ t₂) (h₂ : Kept t₂ t₃) : Kept t₁ t₃ :=
  ⟨fun _ h => h₂.sub (h₁.sub h), fun X h => h₂.closed X (h₁.closed X h),
    h₂.unopened ∘ h₁.unopened⟩

/-- A command that reads no access record and writes no refresh record. -/
def Inert : Cmd → Prop
  | .get (.access _) | .set (.refresh _) _ _ => False
  | _ => True

/-- A step that is no new read and writes no refresh record. -/
theorem step {e : Event Cmd Cmd.Resp} (hr : ∀ j raw, e ≠ ⟨.get (.access j), some raw⟩)
    (hw : ∀ h v ex r, e ≠ ⟨.set (.refresh h) v ex, r⟩) : Kept t (e :: t) where
  sub := List.subset_cons_self _ _
  closed X h j raw hm := by
    rcases List.mem_cons.1 hm with he | hm
    · exact absurd he.symm (hr j raw)
    · exact (h j raw hm).imp_right (·.mono (List.subset_cons_self _ _))
  unopened h := by
    rintro ⟨h', v, ex, r', hm⟩
    rcases List.mem_cons.1 hm with he | hm
    · exact hw _ _ _ _ he.symm
    · exact h ⟨h', v, ex, r', hm⟩

theorem inert {c : Cmd} (hc : Inert c) (r : c.Resp) : Kept t (⟨c, r⟩ :: t) :=
  step (fun _ _ he => by cases he; exact hc) (fun _ _ _ _ he => by cases he; exact hc)

/-- A missing access record leaves nothing to delete. -/
theorem missed (j : Jti) : Kept t (⟨.get (.access j), none⟩ :: t) :=
  step (fun _ _ he => by cases he) (fun _ _ _ _ he => by cases he)

/-- A read that is followed through later. -/
theorem read (h : Kept (⟨.get (.access j), some raw⟩ :: t) t') (hc : ClosedAt t' j raw) :
    Kept t t' where
  sub _ hm := h.sub (List.mem_cons_of_mem _ hm)
  closed X hX j' raw' hm := by
    have hopen : ClosedBut (fun j' raw' => X j' raw' ∨ (j' = j ∧ raw' = raw))
        (⟨.get (.access j), some raw⟩ :: t) := by
      intro j' raw' hm
      rcases List.mem_cons.1 hm with he | hm
      · cases he
        exact .inl (.inr ⟨rfl, rfl⟩)
      · exact (hX j' raw' hm).imp .inl (·.mono (List.subset_cons_self _ _))
    rcases h.closed _ hopen j' raw' hm with (hx | ⟨rfl, rfl⟩) | hc'
    · exact .inl hx
    · exact .inr hc
    · exact .inr hc'
  unopened hu := by
    refine h.unopened ?_
    rintro ⟨h', v, ex, r', hm⟩
    rcases List.mem_cons.1 hm with he | hm
    · cases he
    · exact hu ⟨h', v, ex, r', hm⟩

end Kept

/-! ## The methods -/

section Methods

variable {S : Scope} {t : Tr}

theorem pruneUserIndex_follows (u : UserId) :
    (pruneUserIndex u).Follows S.guard (fun _ t' => Kept t t') t := by
  refine ⟨trivial, fun remaining => ?_⟩
  have h : Kept t (⟨.existsIndex u, remaining⟩ :: t) := .inert (by trivial) _
  cases remaining with
  | true => exact h
  | false => exact ⟨trivial, fun _ => h.trans (.inert (by trivial) _)⟩

/-- The end of a walk's round: the refresh record named by a record that was read. -/
theorem deleteNamed_follows {j : Jti} {raw : Raw} {rec : Record} {t₁ : Tr}
    (hp : parseRecord raw = some rec) (hd : Did t₁ (.delete (.access j)))
    (h : Kept (⟨.get (.access j), some raw⟩ :: t) t₁) :
    (match rec.refreshHash with
      | some h => redis (.delete (.refresh h))
      | none => pure () : Redis Unit).Follows S.guard
      (fun _ t' => Kept t t' ∧ ⟨.get (.access j), some raw⟩ ∈ t') t₁ := by
  have hm : ⟨.get (.access j), some raw⟩ ∈ t₁ := h.sub (List.mem_cons_self ..)
  cases hh : rec.refreshHash with
  | none =>
    refine ⟨h.read ⟨hd, fun rec' h' hp' hh' => ?_⟩, hm⟩
    simp_all
  | some rh =>
    refine ⟨⟨j, raw, rec, hm, hp, hh⟩, fun r => ?_⟩
    refine ⟨(h.trans (.inert (by trivial) r)).read
      ⟨hd.mono (List.subset_cons_self _ _), fun rec' h' hp' hh' => ⟨r, ?_⟩⟩,
      List.mem_cons_of_mem _ hm⟩
    obtain rfl : rec = rec' := by simp_all
    obtain rfl : rh = h' := by simp_all
    exact List.mem_cons_self ..

theorem revokeMember_follows {j : Jti} (hj : S.names j ∨ Listed t j ∨ Bound t j) :
    (revokeMember j).Follows S.guard
      (fun _ t' => Kept t t' ∧ Did t' (.get (.access j))) t := by
  refine ⟨hj, fun raw => ⟨⟨raw, List.mem_cons_self ..⟩, fun r => ?_⟩⟩
  have hr : Did (⟨.get (.access j), raw⟩ :: t) (.get (.access j)) := ⟨raw, List.mem_cons_self ..⟩
  cases raw with
  | none =>
    have h : Kept t (⟨.delete (.access j), r⟩ :: ⟨.get (.access j), none⟩ :: t) :=
      (Kept.missed j).trans (.inert (by trivial) r)
    exact ⟨h, hr.mono (List.subset_cons_self _ _)⟩
  | some raw =>
    have h : Kept (⟨.get (.access j), some raw⟩ :: t)
        (⟨.delete (.access j), r⟩ :: ⟨.get (.access j), some raw⟩ :: t) := .inert (by trivial) _
    have hd : Did (⟨.delete (.access j), r⟩ :: ⟨.get (.access j), some raw⟩ :: t)
        (.delete (.access j)) := ⟨r, List.mem_cons_self ..⟩
    cases hp : parseRecord raw with
    | none =>
      simp only [Option.bind_some, hp]
      exact ⟨h.read ⟨hd, fun rec h' hp' => by simp [hp] at hp'⟩, hr.mono h.sub⟩
    | some rec =>
      simp only [Option.bind_some, hp]
      exact (deleteNamed_follows hp hd h).mono fun _ t' hk => ⟨hk.1, some raw, hk.2⟩

theorem revokeAccess_follows {j : Jti} (hj : S.names j ∨ Listed t j ∨ Bound t j) :
    (revokeAccess j).Follows S.guard (fun _ t' => Kept t t') t := by
  refine ⟨hj, fun raw => ⟨⟨raw, List.mem_cons_self ..⟩, fun r => ?_⟩⟩
  cases raw with
  | none => exact (Kept.missed j).trans (.inert (by trivial) r)
  | some raw =>
    have h : Kept (⟨.get (.access j), some raw⟩ :: t)
        (⟨.delete (.access j), r⟩ :: ⟨.get (.access j), some raw⟩ :: t) := .inert (by trivial) _
    have hd : Did (⟨.delete (.access j), r⟩ :: ⟨.get (.access j), some raw⟩ :: t)
        (.delete (.access j)) := ⟨r, List.mem_cons_self ..⟩
    cases hp : parseRecord raw with
    | none =>
      simp only [Option.bind_some, hp]
      exact h.read ⟨hd, fun rec h' hp' => by simp [hp] at hp'⟩
    | some rec =>
      simp only [Option.bind_some, hp]
      cases hu : rec.userId with
      | none => exact (deleteNamed_follows hp hd h).mono fun _ _ hk => hk.1
      | some u =>
        simp only [redis, Prog.cmd_bind]
        refine ⟨trivial, fun r' => .bind (pruneUserIndex_follows u) fun _ t' hk => ?_⟩
        have hk' := (Kept.inert (t := _) (c := .srem u j) trivial r').trans hk
        exact (deleteNamed_follows hp (hd.mono hk'.sub) (h.trans hk')).mono fun _ _ hk => hk.1

/-- The walk reads every member it is given. -/
theorem walk_follows {jtis : List Jti} (u : UserId) (hl : ∀ j ∈ jtis, Listed t j) :
    (do
      forM jtis revokeMember
      redis (.deleteIndex u)
      redis (.sremUsers (.int u)) : Redis Unit).Follows S.guard
      (fun _ t' => Kept t t' ∧ ∀ j ∈ jtis, Did t' (.get (.access j))) t := by
  let I : List Jti → Tr → Prop := fun l t' => Kept t t' ∧
    ∀ j ∈ jtis, j ∈ l ∨ Did t' (.get (.access j))
  have hI : I jtis t := ⟨.refl t, fun j hj => .inl hj⟩
  have hJ : ∀ j l t₁, (I (j :: l) t₁ ∧ ∀ j' ∈ j :: l, Listed t₁ j') →
      (revokeMember j).Follows S.guard (fun _ t₂ => I l t₂ ∧ ∀ j' ∈ l, Listed t₂ j') t₁ := by
    rintro j l t₁ ⟨⟨hk, hr⟩, hl⟩
    refine (revokeMember_follows (.inr (.inl (hl j (List.mem_cons_self ..))))).mono
      fun _ t₂ ⟨hk', hd⟩ => ⟨⟨hk.trans hk', fun j' hj' => ?_⟩, fun j' hj' =>
        (hl j' (List.mem_cons_of_mem _ hj')).mono hk'.sub⟩
    rcases hr j' hj' with hm | hm
    · rcases List.mem_cons.1 hm with rfl | hm
      · exact .inr hd
      · exact .inl hm
    · exact .inr (hm.mono hk'.sub)
  have hwalk := Prog.Follows.forM (I := fun l t' => I l t' ∧ ∀ j ∈ l, Listed t' j) ⟨hI, hl⟩ hJ
  refine Prog.Follows.bind hwalk fun _ t' ⟨⟨hk, hr⟩, _⟩ => ⟨trivial, fun _ => ⟨trivial, fun _ => ?_⟩⟩
  refine ⟨(hk.trans (.inert (by trivial) _)).trans (.inert (by trivial) _), fun j hj => ?_⟩
  rcases hr j hj with hm | hm
  · cases hm
  · exact hm.mono (List.Subset.trans (List.subset_cons_self _ _) (List.subset_cons_self _ _))

theorem revokeAllSessions_follows (u : UserId) :
    (revokeAllSessions u).Follows S.guard (fun _ t' => Kept t t') t := by
  refine ⟨trivial, fun jtis => ?_⟩
  refine (walk_follows u fun j hj => ⟨u, jtis, List.mem_cons_self .., hj⟩).mono fun _ t' hk => ?_
  exact (Kept.inert (by trivial) _).trans hk.1

/-- What `consume_refresh` returns says what it saw. -/
structure Consumed (h : RefreshHash) (t t' : Tr) (result : RefreshConsumeResult) : Prop where
  kept : Kept t t'
  ok : result.outcome = .ok → ∃ u j, result.userId = some u ∧ result.oldAccessJti = some j ∧
    Won t' h u j
  replayed : result.outcome = .reuseDetected → ⟨.getdel (.refresh h), none⟩ ∈ t'

theorem consumeRefresh_follows {h : RefreshHash} (ttl : Nat) (hp : S.presents h) :
    (consumeRefresh h ttl).Follows S.guard (fun result t' => Consumed h t t' result) t := by
  simp only [consumeRefresh, redis, Prog.cmd_bind]
  refine ⟨hp, fun raw => ?_⟩
  have hk : Kept t (⟨.getdel (.refresh h), raw⟩ :: t) := .inert (by trivial) _
  cases raw with
  | some raw =>
    cases hr : parseRecord raw with
    | none =>
      simp only [hr]
      exact ⟨hk, nofun, nofun⟩
    | some rec =>
      simp only [hr]
      split
      case h_1 u j hu hj =>
        refine ⟨hp, fun r => ⟨hk.trans (.inert (by trivial) r), fun _ => ?_, nofun⟩⟩
        exact ⟨u, j, rfl, rfl, raw, rec, by simp, hr, hu, hj⟩
      case h_2 => exact ⟨hk, nofun, nofun⟩
  | none =>
    refine ⟨trivial, fun used => ?_⟩
    have hk' := hk.trans (Kept.inert (c := .get (.used h)) trivial used)
    cases used with
    | none => exact ⟨hk', nofun, nofun⟩
    | some used =>
      cases hu : (parseRecord used).bind Record.userId with
      | none =>
        simp only [hu]
        exact ⟨hk', nofun, nofun⟩
      | some u =>
        simp only [hu]
        refine Prog.Follows.bind (revokeAllSessions_follows u) fun _ t' hr => ?_
        exact ⟨hk'.trans hr, nofun, fun _ => hr.sub (by simp)⟩

/-! ### Creating -/

/-- The trace of `create_session`. -/
def NewSession.trace (n : NewSession) (t : Tr) : Tr :=
  ⟨.saddUsers (.int n.userId), ()⟩ :: ⟨.expire n.userId n.refreshTtl, ()⟩ ::
    ⟨.sadd n.userId n.accessJti, ()⟩ :: ⟨.set (.refresh n.refreshHash) n.refreshRecord
      n.refreshTtl, ()⟩ :: ⟨.set (.access n.accessJti) n.accessRecord n.accessTtl, ()⟩ :: t

theorem createSession_follows {n : NewSession} (h₁ : S.opens t n)
    (h₂ : S.opens (⟨.set (.access n.accessJti) n.accessRecord n.accessTtl, ()⟩ :: t) n) :
    (createSession n).Follows S.guard (fun _ t' => t' = n.trace t) t := by
  refine ⟨⟨n, h₁, rfl⟩, fun _ => ⟨⟨n, h₂, ⟨(), ?_⟩, rfl⟩, fun _ => ⟨⟨n, ⟨(), ?_⟩, ⟨(), ?_⟩, rfl, rfl⟩,
    fun _ => ⟨trivial, fun _ => ⟨trivial, fun _ => rfl⟩⟩⟩⟩⟩
  · exact List.mem_cons_self ..
  · exact List.mem_cons_of_mem _ (List.mem_cons_self ..)
  · exact List.mem_cons_self ..

theorem NewSession.subset_trace (n : NewSession) (t : Tr) : t ⊆ n.trace t := by
  intro e he
  simp [NewSession.trace, he]

theorem NewSession.setAccess_mem_trace (n : NewSession) (t : Tr) :
    ⟨.set (.access n.accessJti) n.accessRecord n.accessTtl, ()⟩ ∈ n.trace t := by
  simp only [NewSession.trace, List.mem_cons, true_or, or_true]

theorem NewSession.setRefresh_mem_trace (n : NewSession) (t : Tr) :
    ⟨.set (.refresh n.refreshHash) n.refreshRecord n.refreshTtl, ()⟩ ∈ n.trace t := by
  simp only [NewSession.trace, List.mem_cons, true_or, or_true]

theorem NewSession.closed_trace (n : NewSession) {X : Jti → Raw → Prop} (h : ClosedBut X t) :
    ClosedBut X (n.trace t) := by
  intro j raw hm
  simp only [NewSession.trace, List.mem_cons] at hm
  rcases hm with he | he | he | he | he | hm
  iterate 5 cases he
  exact (h j raw hm).imp_right (·.mono (n.subset_trace t))

/-! ### Listing -/

theorem listMember_follows {u : UserId} {j : Jti} (sessions : List SessionInfo)
    (hj : S.names j ∨ Listed t j ∨ Bound t j) :
    (listMember u sessions j).Follows S.guard (fun _ t' => t ⊆ t') t := by
  simp only [listMember, redis, Prog.cmd_bind]
  refine ⟨hj, fun raw => ?_⟩
  have h₁ : t ⊆ ⟨.get (.access j), raw⟩ :: t := List.subset_cons_self _ _
  cases raw with
  | none => exact ⟨trivial, fun _ => List.Subset.trans h₁ (List.subset_cons_self _ _)⟩
  | some raw =>
    cases hp : parseRecord raw with
    | none =>
      simp only [hp]
      exact h₁
    | some rec =>
      simp only [hp]
      exact h₁

theorem listUserSessions_follows (u : UserId) :
    (listUserSessions u).Follows S.guard (fun _ t' => t ⊆ t') t := by
  simp only [listUserSessions, redis, Prog.cmd_bind]
  refine ⟨trivial, fun jtis => ?_⟩
  let I : List Jti → List SessionInfo → Tr → Prop :=
    fun l _ t' => t ⊆ t' ∧ ∀ j ∈ l, Listed t' j
  have hI : I jtis [] (⟨.smembers u, jtis⟩ :: t) :=
    ⟨List.subset_cons_self _ _, fun j hj => ⟨u, jtis, List.mem_cons_self .., hj⟩⟩
  have hloop := Prog.Follows.foldlM (G := S.guard) hI fun j l sessions t₁ ⟨hs, hl⟩ =>
    (listMember_follows (u := u) sessions (.inr (.inl (hl j (List.mem_cons_self ..))))).mono
      fun _ t₂ hs' => ⟨List.Subset.trans hs hs', fun j' hj' =>
        (hl j' (List.mem_cons_of_mem _ hj')).mono hs'⟩
  refine Prog.Follows.bind hloop fun _ t₁ hI => ?_
  exact Prog.Follows.bind (pruneUserIndex_follows u) fun _ t₂ hk =>
    List.Subset.trans hI.1 hk.sub

theorem listAllSessions_follows :
    listAllSessions.Follows S.guard (fun _ t' => t ⊆ t') t := by
  simp only [listAllSessions, redis, Prog.cmd_bind]
  refine ⟨trivial, fun userIds => ?_⟩
  refine (Prog.Follows.foldlM (G := S.guard) (I := fun _ _ t' => t ⊆ t')
    (List.subset_cons_self _ _) fun rawUid _ sessions t₁ hs => ?_)
  cases rawUid with
  | text s => exact ⟨trivial, fun _ => List.Subset.trans hs (List.subset_cons_self _ _)⟩
  | int u =>
    refine Prog.Follows.bind (listUserSessions_follows u) fun found t₂ hs' => ?_
    split
    · exact ⟨trivial, fun _ =>
      List.Subset.trans (List.Subset.trans hs hs') (List.subset_cons_self _ _)⟩
    · exact List.Subset.trans hs hs'

end Methods

end Session
