import Mathlib.Data.List.Nodup
import Janus.Session.Proof.Frame

/-!
# What `revoke_all_sessions` revokes

A `history` is a sequence of calls from an empty Redis, with time passing between and inside them.
The walk of `revoke_all_sessions` reaches a refresh token only through the access record of its
session, and the two records have different TTLs: a session whose access record has expired when
the walk looks for it keeps its refresh token (`revokeAllSessions_leaves_refresh`).

`revokeAllSessions_complete_iff`: the call revokes everything the user was issued exactly when its
walk `Found` the access record of every session that still has a record at its end.
-/

set_option autoImplicit false

namespace Session

open Conc Redis

/-! ## Histories -/

/-- A call of the session store. -/
inductive Call
  | createSession (n : NewSession)
  | isAccessActive (jti : Jti)
  | revokeAccess (jti : Jti)
  | consumeRefresh (hash : RefreshHash) (usedMarkerTtl : Nat)
  | revokeAllSessions (u : UserId)
  | listUserSessions (u : UserId)
  | listAllSessions

def Call.prog : Call → Redis Unit
  | .createSession n => Session.createSession n
  | .isAccessActive j => do let _ ← Session.isAccessActive j
  | .revokeAccess j => Session.revokeAccess j
  | .consumeRefresh h ttl => do let _ ← Session.consumeRefresh h ttl
  | .revokeAllSessions u => Session.revokeAllSessions u
  | .listUserSessions u => do let _ ← Session.listUserSessions u
  | .listAllSessions => do let _ ← Session.listAllSessions

def history (calls : List Call) : Redis Unit := forM calls Call.prog

/-- The sessions a history creates. -/
def created (calls : List Call) : List NewSession :=
  calls.filterMap fun
    | .createSession n => some n
    | _ => none

/-- Freshly minted: no two sessions share an access jti or a refresh hash. -/
structure Distinct (ns : List NewSession) : Prop where
  jtis : (ns.map NewSession.accessJti).Nodup
  hashes : (ns.map NewSession.refreshHash).Nodup

/-- `calls`, one after another from `s`, may leave `s'`. -/
def Ran (calls : List Call) (s s' : Store) : Prop :=
  ∃ t, (history calls).Runs sem tick s [] () s' t

/-! ## Program order and invariants of a history -/

/-- A history may create the sessions in `ns`; its callers may present and name anything. -/
def creating (ns : List NewSession) : Scope := ⟨fun _ n => n ∈ ns, fun _ => True, fun _ => True⟩

theorem Call.prog_follows {ns : List NewSession} {call : Call} {t : Tr}
    (h : ∀ n, call = .createSession n → n ∈ ns) :
    call.prog.Follows (creating ns).guard (fun _ _ => True) t := by
  cases call with
  | createSession n => exact (createSession_follows (h n rfl) (h n rfl)).mono fun _ _ _ => trivial
  | isAccessActive j => exact ⟨trivial, fun _ => trivial⟩
  | revokeAccess j => exact (revokeAccess_follows (.inl trivial)).mono fun _ _ _ => trivial
  | consumeRefresh rh ttl =>
    exact .bind (consumeRefresh_follows ttl trivial) fun _ _ _ => trivial
  | revokeAllSessions u => exact (revokeAllSessions_follows u).mono fun _ _ _ => trivial
  | listUserSessions u => exact .bind (listUserSessions_follows u) fun _ _ _ => trivial
  | listAllSessions => exact .bind listAllSessions_follows fun _ _ _ => trivial

theorem history_follows (calls : List Call) (t : Tr) :
    (history calls).Follows (creating (created calls)).guard (fun _ _ => True) t := by
  refine (Prog.Follows.forM (I := fun l _ => ∀ n, .createSession n ∈ l → n ∈ created calls)
    (fun n hn => List.mem_filterMap.2 ⟨_, hn, rfl⟩) fun call l t₁ hl => ?_).mono
    fun _ _ _ => trivial
  exact (Call.prog_follows fun n hn => hl n (hn ▸ List.mem_cons_self ..)).mono
    fun _ _ _ n hn => hl n (List.mem_cons_of_mem _ hn)

theorem Ran.recorded {calls : List Call} {now₀ : Nat} {s : Store}
    (h : Ran calls (Store.empty now₀) s) : Recorded (created calls) s := by
  obtain ⟨t, h⟩ := h
  have h₀ : Recorded (created calls) (Store.empty now₀) := by
    constructor <;> intro _ _ hc <;> cases hc
  refine (h.invariant (J := fun s _ => Recorded (created calls) s) (history_follows calls [])
    trivial h₀ ?_ ?_).1
  · exact fun _ hJ hg hc => hJ.cmd (fun _ _ hn => hn) hg hc
  · exact fun hJ ht => hJ.tick ht

/-- A run whose program order writes no cell of `k` keeps it dead. -/
theorem dead_of_runs {α : Type} {S : Scope} {Q : α → Tr → Prop} {p : Redis α} {a : α}
    {s s' : Store} {t' : Tr} {k : Key} (h : p.Runs sem tick s [] a s' t')
    (hp : p.Follows S.guard Q []) (hk : ∀ t v ex, ¬ S.guard t (.set k v ex)) (hd : Dead s k) :
    Dead s' k ∧ ∀ raw : Raw, ⟨.getdel k, some raw⟩ ∉ t' := by
  refine (h.invariant (J := fun s t => Dead s k ∧ ∀ raw : Raw, ⟨.getdel k, some raw⟩ ∉ t) hp
    trivial ⟨hd, fun _ => List.not_mem_nil⟩ ?_ fun hJ ht => ⟨hJ.1.tick ht, hJ.2⟩).1
  intro s t c r s' _ hJ hg hc
  refine ⟨hJ.1.cmd hc fun v ex he => hk t v ex (he ▸ hg), fun raw hm => ?_⟩
  rcases List.mem_cons.1 hm with he | hm
  · cases he
    have hr : some raw = s.strings.get s.now k := hc.1
    rw [hJ.1] at hr
    cases hr
  · exact hJ.2 raw hm

/-- A session the history does not create stays dead through it. -/
theorem Ran.dead {calls : List Call} {s s' : Store} {n : NewSession} {ns : List NewSession}
    (h : Ran calls s s') (hn : n ∈ ns) (hfresh : Distinct (ns ++ created calls)) :
    (Dead s (.access n.accessJti) → Dead s' (.access n.accessJti)) ∧
      (Dead s (.refresh n.refreshHash) → Dead s' (.refresh n.refreshHash)) := by
  obtain ⟨t, h⟩ := h
  have hne (m : NewSession) (hm : m ∈ created calls) :
      n.accessJti ≠ m.accessJti ∧ n.refreshHash ≠ m.refreshHash := by
    obtain ⟨hj, hr⟩ := hfresh
    rw [List.map_append, List.nodup_append] at hj hr
    exact ⟨hj.2.2 _ (List.mem_map_of_mem hn) _ (List.mem_map_of_mem hm),
      hr.2.2 _ (List.mem_map_of_mem hn) _ (List.mem_map_of_mem hm)⟩
  constructor
  · refine fun hd => (dead_of_runs h (history_follows calls []) ?_ hd).1
    rintro t v ex ⟨m, hm, he⟩
    simp only [NewSession.setAccess, Cmd.set.injEq, Key.access.injEq] at he
    exact (hne m hm).1 he.1
  · refine fun hd => (dead_of_runs h (history_follows calls []) ?_ hd).1
    rintro t v ex ⟨m, hm, -, he⟩
    simp only [NewSession.setRefresh, Cmd.set.injEq, Key.refresh.injEq] at he
    exact (hne m hm).2 he.1

/-! ## The walk -/

/-- The walk of `revoke_all_sessions` found the access record of `n` still there. -/
def Found (walk : Tr) (n : NewSession) : Prop :=
  ∃ raw : Raw, ⟨.get (.access n.accessJti), some raw⟩ ∈ walk

theorem Found.mono {t t' : Tr} {n : NewSession} (h : Found t n) (hs : t ⊆ t') : Found t' n :=
  h.imp fun _ hm => hs hm

/-- The record at `k` in `s` is there until after `now`. -/
def Outlives (s : Store) (k : Key) (now : Nat) : Prop := (s.strings.get now k).isSome

/-- The walk from `s₀`, in `s` after the trace `t`. -/
structure WalkInv (ns : List NewSession) (s₀ s : Store) (t : Tr) : Prop where
  now : s₀.now ≤ s.now
  recorded : Recorded ns s
  shrink : ∀ k, s.strings k = s₀.strings k ∨ s.strings k = none
  reads : ∀ j raw, ⟨.get (.access j), some raw⟩ ∈ t →
    (∃ n ∈ ns, n.accessJti = j ∧ raw = n.accessRecord) ∧ Outlives s₀ (.access j) s₀.now
  deleted : ∀ k, Did t (.delete k) → s.strings k = none
  refresh : ∀ n ∈ ns, Found t n ∨
    s.strings (.refresh n.refreshHash) = s₀.strings (.refresh n.refreshHash)
  access : ∀ n ∈ ns, Found t n ∨ ¬ Outlives s₀ (.access n.accessJti) s.now ∨
    (s.strings (.access n.accessJti) = s₀.strings (.access n.accessJti) ∧
      ¬ Did t (.get (.access n.accessJti)))

theorem Outlives.anti {s : Store} {k : Key} {now now' : Nat} (h : Outlives s k now')
    (hn : now ≤ now') : Outlives s k now := by
  obtain ⟨v, hv⟩ := Option.isSome_iff_exists.1 h
  simp [Outlives, Table.get_anti hv hn]

/-- A record that a shrunken store shows was there before. -/
theorem outlives_of_shrink {s₀ s : Store} {k : Key} {v : Raw}
    (hs : s.strings k = s₀.strings k ∨ s.strings k = none)
    (h : s.strings.get s.now k = some v) : Outlives s₀ k s.now := by
  rcases hs with he | he
  · rw [Outlives, Table.get, Table.find, ← he]
    simp only [Table.get, Table.find] at h
    simp [h]
  · simp [Table.get_of_none he] at h

theorem WalkInv.tick {ns : List NewSession} {s₀ s s' : Store} {t : Tr} (h : WalkInv ns s₀ s t)
    (ht : tick s s') : WalkInv ns s₀ s' t where
  now := Nat.le_trans h.now (tick_now ht)
  recorded := h.recorded.tick ht
  shrink k := tick_strings ht ▸ h.shrink k
  reads := h.reads
  deleted k hk := tick_strings ht ▸ h.deleted k hk
  refresh n hn := tick_strings ht ▸ h.refresh n hn
  access n hn := by
    rw [tick_strings ht]
    exact (h.access n hn).imp_right (·.imp_left fun hd ho => hd (ho.anti (tick_now ht)))

theorem WalkInv.cmd {ns : List NewSession} {s₀ s s' : Store} {t : Tr} {c : Cmd} {r : c.Resp}
    (hns : Distinct ns) (h : WalkInv ns s₀ s t) (hg : walking.guard t c) (hc : sem c s r s') :
    WalkInv ns s₀ s' (⟨c, r⟩ :: t) where
  now := now_of_sem hc ▸ h.now
  recorded := h.recorded.cmd (S := walking) (fun _ _ hn => hn.elim) hg hc
  shrink k := by
    rcases strings_shrink (k := k) hc fun v ex he => walking_no_set t k v ex (he ▸ hg) with he | he
    · rw [he]
      exact h.shrink k
    · exact .inr he
  reads j raw hm := by
    rcases List.mem_cons.1 hm with he | hm
    · cases he
      have hr : some raw = s.strings.get s.now (.access j) := hc.1
      exact ⟨h.recorded.get_access hr.symm, (outlives_of_shrink (h.shrink _) hr.symm).anti h.now⟩
    · exact h.reads j raw hm
  deleted k hk := by
    obtain ⟨r', hm⟩ := hk
    rcases List.mem_cons.1 hm with he | hm
    · cases he
      rw [hc.2]
      simp [Cmd.run]
    · have hnone := h.deleted k ⟨r', hm⟩
      rcases strings_shrink (k := k) hc fun v ex he => walking_no_set t k v ex (he ▸ hg) with he | he
      · rw [he, hnone]
      · exact he
  refresh n hn := by
    have hsub := List.subset_cons_self (⟨c, r⟩ : Event Cmd Cmd.Resp) t
    rcases h.refresh n hn with hf | hsame
    · exact .inl (hf.mono hsub)
    by_cases hdel : c = .delete (.refresh n.refreshHash)
    · subst hdel
      -- the deleted hash was named by a record that was read: that of `n`
      obtain ⟨j, raw, rec, hread, hp, hh⟩ := hg
      obtain ⟨⟨m, hm, rfl, rfl⟩, -⟩ := h.reads j raw hread
      obtain rfl : _ = rec := Option.some.inj hp
      obtain rfl := List.inj_on_of_nodup_map hns.hashes hm hn (Option.some.inj hh)
      exact .inl ⟨_, hsub hread⟩
    · refine .inr ?_
      rw [strings_of_sem hc (fun v ex he => walking_no_set t _ v ex (he ▸ hg)) hdel ?_, hsame]
      rintro rfl
      exact hg
  access n hn := by
    have hsub := List.subset_cons_self (⟨c, r⟩ : Event Cmd Cmd.Resp) t
    rw [now_of_sem hc]
    rcases h.access n hn with hf | hnone | ⟨hsame, hunread⟩
    · exact .inl (hf.mono hsub)
    · exact .inr (.inl hnone)
    by_cases hget : c = .get (.access n.accessJti)
    · subst hget
      have hr : r = s.strings.get s.now (.access n.accessJti) := hc.1
      cases r with
      | some raw => exact .inl ⟨raw, List.mem_cons_self ..⟩
      | none =>
        refine .inr (.inl fun ho => ?_)
        simp only [Table.get, Table.find, hsame] at hr
        simp [Outlives, Table.get, Table.find, ← hr] at ho
    · refine .inr (.inr ⟨?_, ?_⟩)
      · rw [strings_of_sem hc (fun v ex he => walking_no_set t _ v ex (he ▸ hg)) ?_ ?_, hsame]
        · rintro rfl
          exact hunread hg
        · rintro rfl
          exact hg
      · rintro ⟨r', hm⟩
        rcases List.mem_cons.1 hm with he | hm
        · cases he
          exact hget rfl
        · exact hunread ⟨r', hm⟩

/-- What the walk from `s₀` to `s₁` did. -/
theorem walk_inv {ns : List NewSession} {u : UserId} {s₀ s₁ : Store} {walk : Tr}
    (hns : Distinct ns) (h₀ : Recorded ns s₀)
    (h : (revokeAllSessions u).Runs sem tick s₀ [] () s₁ walk) :
    WalkInv ns s₀ s₁ walk ∧ Closed walk := by
  have hf := revokeAllSessions_follows (S := walking) (t := []) u
  have hinit : WalkInv ns s₀ s₀ [] := by
    refine ⟨Nat.le_refl _, h₀, fun _ => .inl rfl, fun _ _ hm => ?_, fun _ hm => ?_, fun _ _ => .inr rfl,
      fun _ _ => .inr (.inr ⟨rfl, fun hm => ?_⟩)⟩
    · cases hm
    · obtain ⟨_, hm⟩ := hm
      cases hm
    · obtain ⟨_, hm⟩ := hm
      cases hm
  refine ⟨(h.invariant hf trivial hinit (fun _ hJ hg hc => hJ.cmd hns hg hc)
    fun hJ ht => hJ.tick ht).1, (h.post hf).closed _ ?_⟩
  intro _ _ hm
  cases hm

/-! ## What stays usable -/

/-- Neither token of `n` can be used any more. -/
def Unusable (s : Store) (n : NewSession) : Prop :=
  (∀ active s' t, (isAccessActive n.accessJti).Runs sem tick s [] active s' t →
    active = false) ∧
  ∀ ttl result s' t, (consumeRefresh n.refreshHash ttl).Runs sem tick s [] result s' t →
    result.outcome ≠ .ok

theorem unusable_of_dead {s : Store} {n : NewSession} (ha : Dead s (.access n.accessJti))
    (hr : Dead s (.refresh n.refreshHash)) : Unusable s n := by
  refine ⟨fun active s' t h => ?_, fun ttl result s' t h hok => ?_⟩
  · obtain ⟨s₁, r, s₂, ht, hc, rfl, -⟩ := h
    have hd := ha.tick ht
    have hr : active = (s₁.strings.get s₁.now (.access n.accessJti)).isSome := hc.1
    rw [hr, hd]
    rfl
  · have hf := consumeRefresh_follows (S := creating []) (t := []) (h := n.refreshHash) ttl trivial
    obtain ⟨u, j, -, -, raw, rec, hm, -⟩ := (h.post hf).ok hok
    refine (dead_of_runs h hf ?_ hr).2 raw hm
    rintro t v ex ⟨m, hm, -⟩
    cases hm

theorem usable_of_access {s : Store} {n : NewSession} {v : Raw}
    (h : s.strings.get s.now (.access n.accessJti) = some v) : ¬ Unusable s n := by
  intro hu
  obtain ⟨t, ht⟩ := Prog.runs_eval (E := sem) tick_refl (fun c s => sem_run c s)
    (isAccessActive n.accessJti) s []
  have hb := hu.1 _ _ _ ht
  simp [isAccessActive, Prog.cmd, Prog.eval, Cmd.run, h] at hb

theorem usable_of_refresh {s : Store} {n : NewSession}
    (h : s.strings.get s.now (.refresh n.refreshHash) = some n.refreshRecord) :
    ¬ Unusable s n := by
  intro hu
  obtain ⟨t, ht⟩ := Prog.runs_eval (E := sem) tick_refl (fun c s => sem_run c s)
    (consumeRefresh n.refreshHash 0) s []
  refine hu.2 _ _ _ _ ht ?_
  simp [consumeRefresh, Prog.eval, Cmd.run, h, parseRecord, NewSession.refreshRecord]

/-- Whatever is called from `s₁` on without creating a session for `u`, no token `u` was issued
by `calls` can be used. -/
def RevokedForGood (calls : List Call) (u : UserId) (s₁ : Store) : Prop :=
  ∀ later s₂, Distinct (created calls ++ created later) →
    (∀ n ∈ created later, n.userId ≠ u) → Ran later s₁ s₂ →
    ∀ n ∈ created calls, n.userId = u → Unusable s₂ n

theorem ran_nil (s : Store) : Ran [] s s := ⟨[], rfl, rfl, tick_refl s⟩

/-- A session that was found is deleted whole. -/
theorem deleted_of_found {ns : List NewSession} {s₀ s₁ : Store} {walk : Tr} {n : NewSession}
    {raw : Raw} {k : Key} (hns : Distinct ns) (hinv : WalkInv ns s₀ s₁ walk)
    (hclosed : Closed walk) (hn : n ∈ ns) (hread : ⟨.get (.access n.accessJti), some raw⟩ ∈ walk)
    (hk : k = .access n.accessJti ∨ k = .refresh n.refreshHash) : Did walk (.delete k) := by
  obtain ⟨⟨m, hm, hj, rfl⟩, -⟩ := hinv.reads _ raw hread
  obtain rfl := List.inj_on_of_nodup_map hns.jtis hm hn hj
  obtain ⟨haccess, hrefresh⟩ := (hclosed _ _ hread).resolve_left id
  rcases hk with rfl | rfl
  · exact haccess
  · exact hrefresh _ _ rfl rfl

/-- The walk found the record of every session whose access record and index entry outlast it,
and of none whose access record had expired before it. -/
theorem found_of_outlives {ns : List NewSession} {u : UserId} {s₀ s₁ : Store} {walk : Tr}
    (hns : Distinct ns) (h₀ : Recorded ns s₀)
    (h : (revokeAllSessions u).Runs sem tick s₀ [] () s₁ walk) {n : NewSession} (hn : n ∈ ns) :
    (Found walk n → Outlives s₀ (.access n.accessJti) s₀.now) ∧
      (Outlives s₀ (.access n.accessJti) s₁.now →
        (∃ l, s₀.index.get s₁.now u = some l ∧ n.accessJti ∈ l) → Found walk n) := by
  obtain ⟨hinv, -⟩ := walk_inv hns h₀ h
  refine ⟨fun ⟨raw, hread⟩ => (hinv.reads _ raw hread).2, fun hout ⟨l, hl, hmem⟩ => ?_⟩
  obtain ⟨s₂, jtis, s₃, ht, hc, hwalk⟩ := h
  have hlisted : ∀ j ∈ jtis, Listed [⟨.smembers u, jtis⟩] j :=
    fun j hj => ⟨u, jtis, List.mem_cons_self .., hj⟩
  -- the index entry outlasts the call, so it is among the members that are walked
  have hjtis : n.accessJti ∈ jtis := by
    have hperm : jtis.Perm ((s₂.index.get s₂.now u).getD []) := hc.1
    have hle : s₂.now ≤ s₁.now := now_of_sem hc ▸ now_of_runs hwalk
    obtain ⟨d, rfl⟩ := ht
    rw [Table.get_anti hl hle] at hperm
    exact hperm.symm.subset hmem
  have hdid := (hwalk.post (walk_follows (S := walking) u hlisted)).2 _ hjtis
  rcases hinv.access n hn with hf | hno | ⟨-, hunread⟩
  · exact hf
  · exact absurd hout hno
  · exact absurd hdid hunread

/-- Exactly what `revoke_all_sessions` misses: a session of which a record outlives the call and
whose access record its walk did not find. The walk cannot find an access record that had expired
before the call, and it finds one that outlives the call together with its index entry. -/
theorem revokeAllSessions_complete_iff {calls : List Call} {u : UserId} {now₀ : Nat}
    {s₀ s₁ : Store} {walk : Tr} (hns : Distinct (created calls))
    (hcalls : Ran calls (Store.empty now₀) s₀)
    (hrev : (revokeAllSessions u).Runs sem tick s₀ [] () s₁ walk) :
    (RevokedForGood calls u s₁ ↔
      ∀ n ∈ created calls, n.userId = u →
        (Outlives s₀ (.access n.accessJti) s₁.now ∨ Outlives s₀ (.refresh n.refreshHash) s₁.now) →
        Found walk n) ∧
    ∀ n ∈ created calls, (Found walk n → Outlives s₀ (.access n.accessJti) s₀.now) ∧
      (Outlives s₀ (.access n.accessJti) s₁.now →
        (∃ l, s₀.index.get s₁.now u = some l ∧ n.accessJti ∈ l) → Found walk n) := by
  have hrec := hcalls.recorded
  obtain ⟨hinv, hclosed⟩ := walk_inv hns hrec hrev
  refine ⟨?_, fun n hn => found_of_outlives hns hrec hrev hn⟩
  constructor
  · intro hgood n hn hu hout
    by_contra hnf
    have hun := hgood [] s₁ (by simpa [created] using hns) (by simp [created]) (ran_nil s₁) n hn hu
    rcases hout with hout | hout
    · obtain ⟨raw, hraw⟩ := Option.isSome_iff_exists.1 hout
      rcases hinv.access n hn with hf | hnone | ⟨hsame, -⟩
      · exact hnf hf
      · exact hnone hout
      · refine usable_of_access (v := raw) ?_ hun
        simpa [Table.get, Table.find, hsame] using hraw
    · obtain ⟨raw, hraw⟩ := Option.isSome_iff_exists.1 hout
      rcases hinv.refresh n hn with hf | hsame
      · exact hnf hf
      · have hget : s₁.strings.get s₁.now (.refresh n.refreshHash) = some raw := by
          simpa [Table.get, Table.find, hsame] using hraw
        obtain ⟨m, hm, hh, rfl⟩ := hinv.recorded.get_refresh hget
        obtain rfl := List.inj_on_of_nodup_map hns.hashes hm hn hh
        exact usable_of_refresh hget hun
  · intro hcond later s₂ hfresh _ hlater n hn hu
    have hdead (k : Key) (hk : k = .access n.accessJti ∨ k = .refresh n.refreshHash) :
        Dead s₁ k := by
      by_contra hne
      obtain ⟨v, hv⟩ := Option.ne_none_iff_exists'.1 hne
      have hout := outlives_of_shrink (hinv.shrink k) hv
      obtain ⟨raw, hread⟩ := hcond n hn hu (by rcases hk with rfl | rfl <;> simp [hout])
      have hdel : s₁.strings k = none := hinv.deleted k (deleted_of_found hns hinv hclosed hn hread hk)
      simp [Table.get_of_none hdel] at hv
    obtain ⟨ha, hr⟩ := hlater.dead hn hfresh
    exact unusable_of_dead (ha (hdead _ (.inl rfl))) (hr (hdead _ (.inr rfl)))

/-- A session whose access record expires a fortnight before its refresh record. -/
def laptop : NewSession where
  userId := 7
  accessJti := "a1"
  accessTtl := 900
  refreshHash := "r1"
  refreshTtl := 1209600
  loginAt := "2026-01-01T00:00:00+00:00"

/-- Redis after the login of `laptop` at time 0. -/
def afterLogin : Store := ((history [.createSession laptop]).eval Cmd.run (Store.empty 0)).2

/-- Redis after everything of user 7 was revoked `d` seconds later. -/
def afterRevoke (d : Nat) : Store :=
  ((revokeAllSessions 7).eval Cmd.run { afterLogin with now := d }).2

theorem ran_afterLogin : Ran [.createSession laptop] (Store.empty 0) afterLogin := by
  obtain ⟨t, ht⟩ := Prog.runs_eval (E := sem) tick_refl sem_run
    (history [.createSession laptop]) (Store.empty 0) []
  exact ⟨t, ht⟩

theorem runs_afterRevoke (d : Nat) : ∃ walk, (revokeAllSessions 7).Runs sem tick afterLogin [] ()
    (afterRevoke d) walk := by
  obtain ⟨walk, h⟩ := Prog.runs_eval (E := sem) tick_refl sem_run (revokeAllSessions 7)
    { afterLogin with now := d } []
  refine ⟨walk, h.of_env ?_ ⟨d, ?_⟩⟩
  · rintro a b c ⟨d₁, rfl⟩ ⟨d₂, rfl⟩
    exact ⟨d₁ + d₂, by simp [Nat.add_assoc]⟩
  · have : afterLogin.now = 0 := rfl
    simp [this]

/-- Once the access record has expired, its refresh token survives `revoke_all_sessions`. -/
theorem revokeAllSessions_leaves_refresh :
    ¬ ∀ (calls : List Call) (u : UserId) (now₀ : Nat) (s₀ s₁ : Store) (walk : Tr),
      Distinct (created calls) → (∀ n ∈ created calls, n.accessTtl < n.refreshTtl) →
      Ran calls (Store.empty now₀) s₀ →
      (revokeAllSessions u).Runs sem tick s₀ [] () s₁ walk → RevokedForGood calls u s₁ := by
  intro h
  obtain ⟨walk, hwalk⟩ := runs_afterRevoke 1000
  have hgood := h [.createSession laptop] 7 0 _ _ walk ⟨by decide, by decide⟩ (by decide)
    ran_afterLogin hwalk
  refine usable_of_refresh (n := laptop) rfl (hgood [] _ ⟨by decide, by decide⟩ (by decide)
    (ran_nil _) laptop (by decide) rfl)

/-- While the access record is there, the walk finds it and the refresh token is revoked. -/
theorem revokeAllSessions_complete_laptop : ∃ walk, Found walk laptop ∧
    RevokedForGood [.createSession laptop] 7 (afterRevoke 60) := by
  obtain ⟨walk, hwalk⟩ := runs_afterRevoke 60
  obtain ⟨hiff, hfound⟩ :=
    revokeAllSessions_complete_iff ⟨by decide, by decide⟩ ran_afterLogin hwalk
  have hlaptop : Found walk laptop :=
    (hfound laptop (by decide)).2 rfl ⟨["a1"], rfl, by decide⟩
  refine ⟨walk, hlaptop, hiff.2 fun n hn _ _ => ?_⟩
  obtain rfl : n = laptop := by simpa [created] using hn
  exact hlaptop

end Session
