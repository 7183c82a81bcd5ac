import Janus.Conc.Pool
import Janus.Session.Proof.Revoke

/-!
# The indexes of the sessions

Calls of the session store run in any interleaving. A jti is written once and indexed after that, so
a member that a listing drops or a revocation removes is dead for good (`missed`, `erased`). What
can go wrong is left as conditions on single commands (`Careful`): the index is deleted, or the user
taken from `sess:users`, when a session is there again; and the index lapses while a login is adding
to it. Without that every active session is indexed as soon as its login is over (`Indexes.cmd`).
-/

set_option autoImplicit false

namespace Session

open Conc Redis

/-! ## Program order -/

section Order

variable {t t' : Tr} {j : Jti} {call : Call}

/-- A member of an index was found without its record. -/
def Missed (t : Tr) (j : Jti) : Prop :=
  ∃ t₁, ⟨.get (.access j), none⟩ :: t₁ <:+ t ∧ Listed t₁ j

/-- A record was read and then deleted. -/
def Erased (t : Tr) (j : Jti) : Prop :=
  ∃ t₁, ⟨.delete (.access j), ()⟩ :: t₁ <:+ t ∧ ∃ raw, ⟨.get (.access j), some raw⟩ ∈ t₁

theorem Did.ne_nil {c : Cmd} (h : Did t c) : t ≠ [] := by
  obtain ⟨_, hm⟩ := h
  exact List.ne_nil_of_mem hm

theorem Missed.of_cons {e : Event Cmd Cmd.Resp} (h : Missed (e :: t) j) :
    Missed t j ∨ (e = ⟨.get (.access j), none⟩ ∧ Listed t j) := by
  obtain ⟨t₁, hs, hl⟩ := h
  rcases List.suffix_cons_iff.1 hs with heq | hs
  · obtain ⟨rfl, rfl⟩ := List.cons.inj heq
    exact .inr ⟨rfl, hl⟩
  · exact .inl ⟨t₁, hs, hl⟩

theorem Erased.of_cons {e : Event Cmd Cmd.Resp} (h : Erased (e :: t) j) :
    Erased t j ∨ (e = ⟨.delete (.access j), ()⟩ ∧ ∃ raw, ⟨.get (.access j), some raw⟩ ∈ t) := by
  obtain ⟨t₁, hs, hr⟩ := h
  rcases List.suffix_cons_iff.1 hs with heq | hs
  · obtain ⟨rfl, rfl⟩ := List.cons.inj heq
    exact .inr ⟨rfl, hr⟩
  · exact .inl ⟨t₁, hs, hr⟩

/-- What a call issues, as far as the indexes depend on it. -/
def IndexIssues (call : Call) (t : Tr) : Cmd → Prop
  | .set (.access j) v ex =>
    t = [] ∧ ∃ n, call = .createSession n ∧ Cmd.set (.access j) v ex = n.setAccess
  | .sadd u j => ∃ n, call = .createSession n ∧ u = n.userId ∧ j = n.accessJti ∧ Did t n.setAccess
  | .expire u ttl => ∃ n, call = .createSession n ∧ u = n.userId ∧ ttl = n.refreshTtl
  | .saddUsers m => ∃ n, call = .createSession n ∧ m = .int n.userId
  | .srem _ j => Missed t j ∨ Erased t j
  | _ => True

/-- The login has given the index its time to live. -/
def Indexed (t : Tr) (n : NewSession) : Prop := Did t (.expire n.userId n.refreshTtl)

/-- The login has put the user into `sess:users`. -/
def Enrolled (t : Tr) (n : NewSession) : Prop := Did t (.saddUsers (.int n.userId))

/-- What a call has done when it returns. -/
def IndexDone (call : Call) (t : Tr) : Prop :=
  ∀ n, call = .createSession n → Indexed t n ∧ Enrolled t n

theorem createSession_indexes (n : NewSession) :
    (createSession n).Follows (IndexIssues (.createSession n))
      (fun _ t => Indexed t n ∧ Enrolled t n) [] := by
  refine ⟨⟨rfl, n, rfl, rfl⟩, fun _ => ⟨trivial, fun _ => ?_⟩⟩
  refine ⟨⟨n, rfl, rfl, rfl, ⟨(), ?_⟩⟩, fun _ => ⟨⟨n, rfl, rfl, rfl⟩, fun _ => ⟨⟨n, rfl, rfl⟩, ?_⟩⟩⟩
  · exact List.mem_cons_of_mem _ List.mem_cons_self
  · exact fun _ => ⟨⟨(), List.mem_cons_of_mem _ List.mem_cons_self⟩, ⟨(), List.mem_cons_self⟩⟩

theorem pruneUserIndex_indexes (u : UserId) :
    (pruneUserIndex u).Follows (IndexIssues call) (fun _ t' => t <:+ t') t := by
  refine ⟨trivial, fun remaining => ?_⟩
  have hs : t <:+ ⟨.existsIndex u, remaining⟩ :: t := List.suffix_cons _ _
  cases remaining with
  | true => exact hs
  | false => exact ⟨trivial, fun _ => hs.trans (List.suffix_cons _ _)⟩

/-- The end of a revocation: the refresh record, if the access record named one. -/
theorem deleteNamed_indexes (record : Record) :
    (match record.refreshHash with
      | some h => redis (.delete (.refresh h))
      | none => pure () : Redis Unit).Follows (IndexIssues call) (fun _ _ => True) t := by
  cases record.refreshHash with
  | none => trivial
  | some h => exact ⟨trivial, fun _ => trivial⟩

theorem revokeAccess_indexes (j : Jti) :
    (revokeAccess j).Follows (IndexIssues call) (fun _ _ => True) t := by
  simp only [revokeAccess, redis, Prog.cmd_bind]
  refine ⟨trivial, fun raw => ⟨trivial, fun _ => ?_⟩⟩
  cases raw with
  | none => trivial
  | some raw =>
    have herased : Erased (⟨.delete (.access j), ()⟩ :: ⟨.get (.access j), some raw⟩ :: t) j :=
      ⟨_, List.suffix_refl _, raw, List.mem_cons_self⟩
    cases hp : parseRecord raw with
    | none =>
      simp only [Option.bind_some, hp]
      trivial
    | some record =>
      simp only [Option.bind_some, hp]
      cases record.userId with
      | none => exact deleteNamed_indexes record
      | some u =>
        refine ⟨.inr herased, fun _ => ?_⟩
        exact Prog.Follows.bind (pruneUserIndex_indexes u) fun _ t₁ _ => deleteNamed_indexes record

theorem revokeMember_indexes (j : Jti) :
    (revokeMember j).Follows (IndexIssues call) (fun _ _ => True) t := by
  simp only [revokeMember, redis, Prog.cmd_bind]
  refine ⟨trivial, fun raw => ⟨trivial, fun _ => ?_⟩⟩
  cases raw.bind parseRecord with
  | none => trivial
  | some record => exact deleteNamed_indexes record

theorem revokeAllSessions_indexes (u : UserId) :
    (revokeAllSessions u).Follows (IndexIssues call) (fun _ _ => True) t := by
  simp only [revokeAllSessions, redis, Prog.cmd_bind]
  refine ⟨trivial, fun jtis => ?_⟩
  refine Prog.Follows.bind (Prog.Follows.forM (I := fun _ _ => True) trivial
    fun j _ _ _ => revokeMember_indexes j) fun _ t₁ _ => ?_
  exact ⟨trivial, fun _ => ⟨trivial, fun _ => trivial⟩⟩

theorem listMember_indexes (u : UserId) (sessions : List SessionInfo) (hj : Listed t j) :
    (listMember u sessions j).Follows (IndexIssues call) (fun _ t' => t <:+ t') t := by
  simp only [listMember, redis, Prog.cmd_bind]
  refine ⟨trivial, fun raw => ?_⟩
  have hs : t <:+ ⟨.get (.access j), raw⟩ :: t := List.suffix_cons _ _
  cases raw with
  | none =>
    refine ⟨.inl ⟨t, List.suffix_refl _, hj⟩, fun _ => ?_⟩
    exact hs.trans (List.suffix_cons _ _)
  | some raw =>
    cases hp : parseRecord raw with
    | none =>
      simp only [hp]
      exact hs
    | some record =>
      simp only [hp]
      exact hs

theorem listUserSessions_indexes (u : UserId) :
    (listUserSessions u).Follows (IndexIssues call) (fun _ t' => t <:+ t') t := by
  simp only [listUserSessions, redis, Prog.cmd_bind]
  refine ⟨trivial, fun jtis => ?_⟩
  let I : List Jti → List SessionInfo → Tr → Prop :=
    fun l _ t' => t <:+ t' ∧ ∀ j ∈ l, Listed t' j
  have hI : I jtis [] (⟨.smembers u, jtis⟩ :: t) :=
    ⟨List.suffix_cons _ _, fun j hj => ⟨u, jtis, List.mem_cons_self, hj⟩⟩
  have hloop := Prog.Follows.foldlM (G := IndexIssues call) hI fun j l sessions t₁ hI₁ =>
    (listMember_indexes u sessions (hI₁.2 j List.mem_cons_self)).mono
      fun _ t₂ hs => ⟨hI₁.1.trans hs, fun j' hj' =>
        (hI₁.2 j' (List.mem_cons_of_mem _ hj')).mono hs.subset⟩
  refine Prog.Follows.bind hloop fun _ t₁ hI => ?_
  exact Prog.Follows.bind (pruneUserIndex_indexes u) fun _ t₂ hs => hI.1.trans hs

theorem listAllSessions_indexes :
    listAllSessions.Follows (IndexIssues call) (fun _ _ => True) t := by
  simp only [listAllSessions, redis, Prog.cmd_bind]
  refine ⟨trivial, fun userIds => ?_⟩
  refine Prog.Follows.foldlM (I := fun _ _ _ => True) trivial fun rawUid _ sessions t₁ _ => ?_
  cases rawUid with
  | text s => exact ⟨trivial, fun _ => trivial⟩
  | int u =>
    refine Prog.Follows.bind (listUserSessions_indexes u) fun found t₂ _ => ?_
    split
    · exact ⟨trivial, fun _ => trivial⟩
    · trivial

theorem consumeRefresh_indexes (h : RefreshHash) (ttl : Nat) :
    (consumeRefresh h ttl).Follows (IndexIssues call) (fun _ _ => True) t := by
  simp only [consumeRefresh, redis, Prog.cmd_bind]
  refine ⟨trivial, fun raw => ?_⟩
  cases raw with
  | some raw =>
    cases hp : parseRecord raw with
    | none =>
      simp only [hp]
      trivial
    | some record =>
      simp only [hp]
      split
      · exact ⟨trivial, fun _ => trivial⟩
      · trivial
  | none =>
    refine ⟨trivial, fun used => ?_⟩
    cases used with
    | none => trivial
    | some used =>
      cases hu : (parseRecord used).bind Record.userId with
      | none =>
        simp only [hu]
        trivial
      | some u =>
        simp only [hu]
        exact Prog.Follows.bind (revokeAllSessions_indexes u) fun _ _ _ => trivial

theorem Call.prog_indexes (call : Call) :
    call.prog.Follows (IndexIssues call) (fun _ t => IndexDone call t) [] := by
  have hother (h : ∀ n, call ≠ .createSession n) (t : Tr) : IndexDone call t :=
    fun n hn => absurd hn (h n)
  cases call with
  | createSession n =>
    refine (createSession_indexes n).mono fun _ t h n' hn' => ?_
    cases hn'
    exact h
  | isAccessActive j => exact ⟨trivial, fun _ => hother nofun _⟩
  | revokeAccess j => exact (revokeAccess_indexes j).mono fun _ t _ => hother nofun t
  | consumeRefresh h ttl =>
    exact Prog.Follows.bind (consumeRefresh_indexes h ttl) fun _ t _ => hother nofun t
  | revokeAllSessions u => exact (revokeAllSessions_indexes u).mono fun _ t _ => hother nofun t
  | listUserSessions u =>
    exact Prog.Follows.bind (listUserSessions_indexes u) fun _ t _ => hother nofun t
  | listAllSessions => exact Prog.Follows.bind listAllSessions_indexes fun _ t _ => hother nofun t

end Order

/-! ## Runs -/

section Runs

variable {ι : Type} [DecidableEq ι] {call : ι → Call}

/-- Redis and any number of clients, one call each. -/
abbrev Clients (ι : Type) := Pool ι Cmd Cmd.Resp Unit Store

/-- Clients that have not begun their calls. -/
def Clients.start (now₀ : Nat) (call : ι → Call) : Clients ι :=
  Pool.start (Store.empty now₀) fun i => (call i).prog

/-- No call is in progress. -/
def Clients.Idle (P : Clients ι) : Prop := ∀ i, own i P.log = [] ∨ ∃ a, P.thread i = .ret a

/-- No index entry of a session that is still active is taken away by the command. -/
def Careful (call : ι → Call) (s : Store) (l : Log ι Cmd Cmd.Resp) (i : ι) : Cmd → Prop
  | .deleteIndex u => ∀ k n, call k = .createSession n → n.userId = u → Indexed (own k l) n →
      Dead s (.access n.accessJti)
  | .sremUsers (.int u) => ∀ k n, call k = .createSession n → n.userId = u → Enrolled (own k l) n →
      Dead s (.access n.accessJti)
  | .expire u ttl =>
    -- the index has not lapsed since `SADD`, and no earlier session outlives the new deadline
    (∀ n, call i = .createSession n →
      Dead s (.access n.accessJti) ∨ n.accessJti ∈ (s.index.get s.now u).getD []) ∧
    ∀ k n, call k = .createSession n → n.userId = u → Indexed (own k l) n →
      s.strings.get (s.now + ttl) (.access n.accessJti) = none
  | _ => True

/-- If the step is a command, it is a careful one. -/
def StepsCarefully (call : ι → Call) (P P' : Clients ι) : Prop :=
  ∀ i c r, P'.log = (i, ⟨c, r⟩) :: P.log → Careful call P.shared P.log i c

/-- The runs all of whose commands are careful. -/
abbrev CarefulReach (call : ι → Call) : Clients ι → Clients ι → Prop :=
  Relation.ReflTransGen fun P P' => Pool.Step sem tick P P' ∧ StepsCarefully call P P'

theorem CarefulReach.reach {P₀ P : Clients ι} (h : CarefulReach call P₀ P) :
    Pool.Reach sem tick P₀ P := by
  induction h with
  | refl => exact .refl
  | tail _ hstep ih => exact ih.tail hstep.1

/-- The login that mints `j` has written its access record. -/
def Written (call : ι → Call) (l : Log ι Cmd Cmd.Resp) (j : Jti) : Prop :=
  ∃ k n, call k = .createSession n ∧ n.accessJti = j ∧ Did (own k l) n.setAccess

/-- The access record has been written and will not be there again. -/
def Gone (call : ι → Call) (s : Store) (l : Log ι Cmd Cmd.Resp) (j : Jti) : Prop :=
  Written call l j ∧ Dead s (.access j)

/-- As long as the access record is readable, the index has its jti. -/
def Covered (s : Store) (n : NewSession) : Prop :=
  ∀ now, s.now ≤ now → s.strings.get now (.access n.accessJti) ≠ none →
    ∃ jtis, s.index.get now n.userId = some jtis ∧ n.accessJti ∈ jtis

/-- What the records and the indexes have to do with each other. -/
structure Indexes (call : ι → Call) (s : Store) (l : Log ι Cmd Cmd.Resp) : Prop where
  origin : ∀ j cell, s.strings (.access j) = some cell → ∃ k n, call k = .createSession n ∧
    n.accessJti = j ∧ Did (own k l) n.setAccess ∧ cell.val = n.accessRecord ∧
    ∃ deadline, cell.expiresAt = some deadline ∧ deadline ≤ s.now + n.accessTtl
  members : ∀ u cell j, s.index u = some cell → j ∈ cell.val → Written call l j
  listed : ∀ i j, Listed (own i l) j → Written call l j
  read : ∀ i j raw, ⟨.get (.access j), some raw⟩ ∈ own i l → Written call l j
  missed : ∀ i j, Missed (own i l) j → Gone call s l j
  erased : ∀ i j, Erased (own i l) j → Gone call s l j
  indexed : ∀ k n, call k = .createSession n → Indexed (own k l) n → Covered s n
  enrolled : ∀ k n, call k = .createSession n → Enrolled (own k l) n →
    Dead s (.access n.accessJti) ∨ .int n.userId ∈ s.users

/-! ### Time -/

variable {s s' : Store} {l : Log ι Cmd Cmd.Resp} {j : Jti} {n : NewSession}

theorem Gone.tick (h : Gone call s l j) (ht : tick s s') : Gone call s' l j := ⟨h.1, h.2.tick ht⟩

theorem Covered.tick (h : Covered s n) (ht : tick s s') : Covered s' n := by
  obtain ⟨d, rfl⟩ := ht
  exact fun now hnow => h now (Nat.le_trans (Nat.le_add_right _ _) hnow)

theorem Indexes.tick (h : Indexes call s l) (ht : tick s s') : Indexes call s' l where
  origin j cell hj := by
    rw [tick_strings ht] at hj
    obtain ⟨k, n, hk, hjti, hdid, hval, deadline, he, hle⟩ := h.origin j cell hj
    have hnow := tick_now ht
    exact ⟨k, n, hk, hjti, hdid, hval, deadline, he, by omega⟩
  members := by
    obtain ⟨d, rfl⟩ := ht
    exact h.members
  listed := h.listed
  read := h.read
  missed i j hm := (h.missed i j hm).tick ht
  erased i j he := (h.erased i j he).tick ht
  indexed k n hk hn := (h.indexed k n hk hn).tick ht
  enrolled k n hk hn := by
    have husers : s'.users = s.users := by
      obtain ⟨d, rfl⟩ := ht
      rfl
    rw [husers]
    exact (h.enrolled k n hk hn).imp_left fun hd => hd.tick ht

/-! ### One command -/

section Cmd

variable {i : ι} {c : Cmd} {r : c.Resp}

/-- No two logins mint one jti. -/
def MintedOnce (call : ι → Call) : Prop :=
  ∀ i j n m, call i = .createSession n → call j = .createSession m →
    n.accessJti = m.accessJti → i = j

theorem Written.cons (e : ι × Event Cmd Cmd.Resp) (h : Written call l j) :
    Written call (e :: l) j := by
  obtain ⟨k, n, hk, hj, hdid⟩ := h
  exact ⟨k, n, hk, hj, hdid.mono (own_subset_cons k e l)⟩

/-- A login that has begun has written its record. -/
theorem not_set_of_begun {k : ι} (hmint : MintedOnce call) (hk : call k = .createSession n)
    (hbegun : own k l ≠ []) (hissued : IndexIssues (call i) (own i l) c) :
    ∀ v ex, c ≠ .set (.access n.accessJti) v ex := by
  rintro v ex rfl
  obtain ⟨hnil, m, hi, heq⟩ := hissued
  simp only [NewSession.setAccess, Cmd.set.injEq, Key.access.injEq] at heq
  have hki : k = i := hmint k i n m hk hi heq.1
  rw [hki] at hbegun
  exact hbegun hnil

/-- A record is written once. -/
theorem Written.not_set (hmint : MintedOnce call) (h : Written call l j)
    (hissued : IndexIssues (call i) (own i l) c) : ∀ v ex, c ≠ .set (.access j) v ex := by
  obtain ⟨k, n, hk, rfl, hdid⟩ := h
  exact not_set_of_begun hmint hk hdid.ne_nil hissued

theorem Gone.cmd (hmint : MintedOnce call) (h : Gone call s l j)
    (hissued : IndexIssues (call i) (own i l) c) (hc : sem c s r s') :
    Gone call s' ((i, ⟨c, r⟩) :: l) j :=
  ⟨h.1.cons _, h.2.cmd hc (h.1.not_set hmint hissued)⟩

/-- What `DEL` leaves behind. -/
theorem dead_delete {k : Key} (hc : sem (.delete k) s () s') : Dead s' k := by
  rw [hc.2]
  exact Table.get_of_none Table.del_self

/-- A record that is read after a command was there before it. -/
theorem get_of_get_cmd {k : Key} {now : Nat} (hc : sem c s r s') (hset : ∀ v ex, c ≠ .set k v ex)
    (h : s'.strings.get now k ≠ none) : s.strings.get now k ≠ none := by
  rcases strings_shrink hc hset with he | he
  · rwa [← Table.get_congr he]
  · exact absurd (Table.get_of_none he) h

theorem Covered.cmd (hcov : Covered s n) (hc : sem c s r s')
    (hset : ∀ v ex, c ≠ .set (.access n.accessJti) v ex)
    (hsrem : ∀ u, c = .srem u n.accessJti → Dead s (.access n.accessJti))
    (hdel : c = .deleteIndex n.userId → Dead s (.access n.accessJti))
    (hexpire : ∀ ttl, c = .expire n.userId ttl →
      s.strings.get (s.now + ttl) (.access n.accessJti) = none) : Covered s' n := by
  intro now hnow hread
  rw [now_of_sem hc] at hnow
  have hbefore := get_of_get_cmd hc hset hread
  obtain ⟨jtis, hjtis, hmem⟩ := hcov now hnow hbefore
  have hlive : ¬ Dead s (.access n.accessJti) := by
    intro hdead
    obtain ⟨v, hv⟩ := Option.ne_none_iff_exists'.1 hbefore
    unfold Dead at hdead
    rw [Table.get_anti hv hnow] at hdead
    cases hdead
  have hstate : s' = (c.run s).2 := hc.2
  subst hstate
  cases c with
  | sadd u j =>
    by_cases hu : n.userId = u
    · subst hu
      have halter := Table.get_alter_later (f := fun jtis => some ((jtis.getD []).insert j)) hjtis hnow
      exact ⟨jtis.insert j, halter, List.mem_insert_of_mem hmem⟩
    · refine ⟨jtis, ?_, hmem⟩
      rw [← hjtis]
      refine Table.get_congr ?_
      simp only [Cmd.run, Table.alter_ne hu]
  | srem u j =>
    by_cases hu : n.userId = u
    · subst hu
      have hj : n.accessJti ≠ j := fun heq => hlive (hsrem n.userId (by rw [heq]))
      have hmem' : n.accessJti ∈ jtis.erase j := (List.mem_erase_of_ne hj).2 hmem
      refine ⟨jtis.erase j, ?_, hmem'⟩
      have halter := Table.get_alter_later (f := removeMember j) hjtis hnow
      refine halter.trans ?_
      exact if_neg (List.ne_nil_of_mem hmem')
    · refine ⟨jtis, ?_, hmem⟩
      rw [← hjtis]
      exact Table.get_congr (Table.alter_ne hu)
  | expire u ttl =>
    by_cases hu : n.userId = u
    · subst hu
      have hlt : now < s.now + ttl := by
        by_contra hge
        obtain ⟨v, hv⟩ := Option.ne_none_iff_exists'.1 hbefore
        have hlate := Table.get_anti hv (Nat.not_lt.1 hge)
        rw [hexpire ttl rfl] at hlate
        cases hlate
      exact ⟨jtis, Table.get_expire_self (Table.get_anti hjtis hnow) hlt, hmem⟩
    · exact ⟨jtis, (Table.get_congr (Table.expire_ne hu)).trans hjtis, hmem⟩
  | deleteIndex u =>
    by_cases hu : n.userId = u
    · exact absurd (hdel (by rw [hu])) hlive
    · exact ⟨jtis, (Table.get_congr (Table.del_ne hu)).trans hjtis, hmem⟩
  | _ => exact ⟨jtis, hjtis, hmem⟩

/-- `EXPIRE` covers the session whose login issues it, if the index still has it. -/
theorem covered_expire (hc : sem (.expire n.userId n.refreshTtl) s () s')
    (hindex : Dead s (.access n.accessJti) ∨
      n.accessJti ∈ (s.index.get s.now n.userId).getD [])
    (hdeadline : ∀ now, s.strings.get now (.access n.accessJti) ≠ none → now < s.now + n.refreshTtl) :
    Covered s' n := by
  intro now hnow hread
  have hstate : s' = ((Cmd.expire n.userId n.refreshTtl).run s).2 := hc.2
  subst hstate
  rcases hindex with hdead | hmem
  · exact absurd (hdead.tick ⟨now - s.now, rfl⟩) (by
      have hsame : s.now + (now - s.now) = now := Nat.add_sub_cancel' hnow
      unfold Dead
      rw [hsame]
      exact hread)
  · cases hjtis : s.index.get s.now n.userId with
    | none => simp [hjtis] at hmem
    | some jtis =>
      rw [hjtis] at hmem
      exact ⟨jtis, Table.get_expire_self hjtis (hdeadline now hread), hmem⟩

/-- Only `SREM` takes a user from `sess:users`. -/
theorem users_of_sem {m : RawUid} (hc : sem c s r s') (hsrem : c ≠ .sremUsers m)
    (hm : m ∈ s.users) : m ∈ s'.users := by
  have hstate : s' = (c.run s).2 := hc.2
  subst hstate
  cases c with
  | saddUsers m' => exact List.mem_insert_of_mem hm
  | sremUsers m' =>
    have hne : m ≠ m' := fun heq => hsrem (by rw [heq])
    exact (List.mem_erase_of_ne hne).2 hm
  | _ => exact hm

/-! ### What one command leaves of each part -/

theorem Indexes.origin_cmd (h : Indexes call s l) (hissued : IndexIssues (call i) (own i l) c)
    (hc : sem c s r s') {cell : Cell Raw} (hj : s'.strings (.access j) = some cell) :
    ∃ k n, call k = .createSession n ∧ n.accessJti = j ∧
      Did (own k ((i, ⟨c, r⟩) :: l)) n.setAccess ∧ cell.val = n.accessRecord ∧
      ∃ deadline, cell.expiresAt = some deadline ∧ deadline ≤ s.now + n.accessTtl := by
  rcases cell_origin hc hj with ho | ⟨v, ex, rfl, rfl⟩
  · obtain ⟨k, n, hk, hjti, hdid, hval, hdeadline⟩ := h.origin j cell ho
    exact ⟨k, n, hk, hjti, hdid.mono (own_subset_cons k _ l), hval, hdeadline⟩
  · obtain ⟨-, n, hi, heq⟩ := hissued
    simp only [NewSession.setAccess, Cmd.set.injEq, Key.access.injEq] at heq
    obtain ⟨rfl, rfl, rfl⟩ := heq
    refine ⟨i, n, hi, rfl, ⟨(), ?_⟩, rfl, _, rfl, Nat.le_refl _⟩
    rw [own_cons_self]
    exact List.mem_cons_self

/-- A member without a record is that of a session whose record has gone. -/
theorem Indexes.missed_cmd (hmint : MintedOnce call) (h : Indexes call s l)
    (hissued : IndexIssues (call i) (own i l) c) (hc : sem c s r s') {k : ι}
    (hm : Missed (own k ((i, ⟨c, r⟩) :: l)) j) : Gone call s' ((i, ⟨c, r⟩) :: l) j := by
  by_cases hik : i = k
  · subst hik
    rw [own_cons_self] at hm
    rcases hm.of_cons with hm | ⟨heq, hl⟩
    · exact (h.missed i j hm).cmd hmint hissued hc
    · cases heq
      have hread : none = s.strings.get s.now (.access j) := hc.1
      exact Gone.cmd hmint ⟨h.listed i j hl, hread.symm⟩ hissued hc
  · rw [own_cons_ne hik] at hm
    exact (h.missed k j hm).cmd hmint hissued hc

theorem Indexes.erased_cmd (hmint : MintedOnce call) (h : Indexes call s l)
    (hissued : IndexIssues (call i) (own i l) c) (hc : sem c s r s') {k : ι}
    (he : Erased (own k ((i, ⟨c, r⟩) :: l)) j) : Gone call s' ((i, ⟨c, r⟩) :: l) j := by
  by_cases hik : i = k
  · subst hik
    rw [own_cons_self] at he
    rcases he.of_cons with he | ⟨heq, raw, hread⟩
    · exact (h.erased i j he).cmd hmint hissued hc
    · cases heq
      exact ⟨(h.read i j raw hread).cons _, dead_delete hc⟩
  · rw [own_cons_ne hik] at he
    exact (h.erased k j he).cmd hmint hissued hc

/-- The careful commands leave an indexed session covered, and a login covers its own. -/
theorem Indexes.indexed_cmd (hmint : MintedOnce call)
    (httl : ∀ i n, call i = .createSession n → n.accessTtl ≤ n.refreshTtl)
    (h : Indexes call s l) (hissued : IndexIssues (call i) (own i l) c) (hc : sem c s r s')
    (hcareful : Careful call s l i c) {k : ι} (hk : call k = .createSession n)
    (hn : Indexed (own k ((i, ⟨c, r⟩) :: l)) n) : Covered s' n := by
  by_cases hbefore : Indexed (own k l) n
  · have hset := not_set_of_begun hmint hk (Did.ne_nil hbefore) hissued
    refine (h.indexed k n hk hbefore).cmd hc hset ?_ ?_ ?_
    · rintro u rfl
      rcases hissued with hm | he
      · exact (h.missed i _ hm).2
      · exact (h.erased i _ he).2
    · rintro rfl
      exact hcareful k n hk rfl hbefore
    · rintro ttl rfl
      exact hcareful.2 k n hk rfl hbefore
  · obtain ⟨hik, heq⟩ : i = k ∧ c = .expire n.userId n.refreshTtl := by
      obtain ⟨_, hm⟩ := hn
      rcases List.mem_cons.1 (mem_own.1 hm) with heq | hm
      · cases heq
        exact ⟨rfl, rfl⟩
      · exact absurd ⟨_, mem_own.2 hm⟩ hbefore
    subst hik heq
    refine covered_expire hc (hcareful.1 n hk) fun now hread => ?_
    obtain ⟨v, hv⟩ := Option.ne_none_iff_exists'.1 hread
    obtain ⟨cell, hcell, hlive, -⟩ := Table.get_eq_some.1 hv
    obtain ⟨k, m, hm, hj, -, -, deadline, hd, hle⟩ := h.origin _ cell hcell
    obtain rfl : k = i := hmint k i m n hm hk hj
    obtain rfl : m = n := Call.createSession.inj (hm.symm.trans hk)
    have hms := httl k m hk
    simp only [Cell.live, hd, Option.all_some, decide_eq_true_eq] at hlive
    omega

theorem Indexes.enrolled_cmd (hmint : MintedOnce call) (h : Indexes call s l)
    (hissued : IndexIssues (call i) (own i l) c) (hc : sem c s r s')
    (hcareful : Careful call s l i c) {k : ι} (hk : call k = .createSession n)
    (hn : Enrolled (own k ((i, ⟨c, r⟩) :: l)) n) :
    Dead s' (.access n.accessJti) ∨ .int n.userId ∈ s'.users := by
  by_cases hbefore : Enrolled (own k l) n
  · have hset := not_set_of_begun hmint hk (Did.ne_nil hbefore) hissued
    rcases h.enrolled k n hk hbefore with hdead | husers
    · exact .inl (hdead.cmd hc hset)
    · by_cases hsrem : c = .sremUsers (.int n.userId)
      · subst hsrem
        exact .inl (Dead.cmd (hcareful k n hk rfl hbefore) hc hset)
      · exact .inr (users_of_sem hc hsrem husers)
  · obtain rfl : c = .saddUsers (.int n.userId) := by
      obtain ⟨_, hm⟩ := hn
      rcases List.mem_cons.1 (mem_own.1 hm) with heq | hm
      · cases heq
        rfl
      · exact absurd ⟨_, mem_own.2 hm⟩ hbefore
    rw [hc.2]
    exact .inr List.mem_insert_self

theorem Indexes.cmd (hmint : MintedOnce call)
    (httl : ∀ i n, call i = .createSession n → n.accessTtl ≤ n.refreshTtl)
    (h : Indexes call s l) (hissued : IndexIssues (call i) (own i l) c) (hc : sem c s r s')
    (hcareful : Careful call s l i c) : Indexes call s' ((i, ⟨c, r⟩) :: l) where
  origin j cell hj := by
    rw [now_of_sem hc]
    exact h.origin_cmd hissued hc hj
  members u cell j hu hj := by
    rcases index_origin hc hu hj with ⟨cell₀, h₀, hm⟩ | rfl
    · exact (h.members u cell₀ j h₀ hm).cons _
    · obtain ⟨n, hi, -, rfl, hdid⟩ := hissued
      exact Written.cons _ ⟨i, n, hi, rfl, hdid⟩
  listed k j hl := by
    obtain ⟨u, jtis, hm, hj⟩ := hl
    rcases List.mem_cons.1 (mem_own.1 hm) with heq | hm
    · cases heq
      obtain ⟨cell, hcell, hmem⟩ := mem_of_smembers hc hj
      exact (h.members u cell j hcell hmem).cons _
    · exact (h.listed k j ⟨u, jtis, mem_own.2 hm, hj⟩).cons _
  read k j raw hm := by
    rcases List.mem_cons.1 (mem_own.1 hm) with heq | hm
    · cases heq
      have hread : some raw = s.strings.get s.now (.access j) := hc.1
      obtain ⟨cell, hcell, -, -⟩ := Table.get_eq_some.1 hread.symm
      obtain ⟨k, n, hk, hjti, hdid, -⟩ := h.origin j cell hcell
      exact Written.cons _ ⟨k, n, hk, hjti, hdid⟩
    · exact (h.read k j raw (mem_own.2 hm)).cons _
  missed _ _ hm := h.missed_cmd hmint hissued hc hm
  erased _ _ he := h.erased_cmd hmint hissued hc he
  indexed _ _ hk hn := h.indexed_cmd hmint httl hissued hc hcareful hk hn
  enrolled _ _ hk hn := h.enrolled_cmd hmint hissued hc hcareful hk hn

end Cmd

theorem CarefulReach.indexes {now₀ : Nat} {P : Clients ι} (hmint : MintedOnce call)
    (httl : ∀ i n, call i = .createSession n → n.accessTtl ≤ n.refreshTtl)
    (h : CarefulReach call (Clients.start now₀ call) P) : Indexes call P.shared P.log := by
  induction h with
  | refl =>
    refine ⟨nofun, nofun, ?_, ?_, ?_, ?_, ?_, ?_⟩
    · rintro i j ⟨u, jtis, hm, -⟩
      cases hm
    · exact fun i j raw hm => nomatch hm
    · rintro i j ⟨t₁, hs, -⟩
      cases List.suffix_nil.1 hs
    · rintro i j ⟨t₁, hs, -⟩
      cases List.suffix_nil.1 hs
    · exact fun k n _ hn => absurd rfl (Did.ne_nil hn)
    · exact fun k n _ hn => absurd rfl (Did.ne_nil hn)
  | @tail P P' hbefore hstep ih =>
    obtain ⟨hstep, hcareful⟩ := hstep
    have hfollows := (CarefulReach.reach hbefore).follows fun i => (call i).prog_indexes
    cases hstep with
    | env ht => exact ih.tick ht
    | @run i c k r s' hk hc =>
      have hissued := (hfollows i).2
      rw [hk] at hissued
      exact ih.cmd hmint httl hissued.1 hc (hcareful i c r rfl)

end Runs

end Session
