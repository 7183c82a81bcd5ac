import Janus.Session.Proof.Requests

/-!
# The response to a replayed refresh token

Any number of `refresh_session` calls present one refresh token at the same time. The call that
consumes it creates the new session in later steps, so the replay that another call detects can
revoke everything of the user before the new session is in the user's index: the family survives
(`theft_response_misses`).

* `Minting`: the calls mint tokens of their own that occur nowhere yet.
* `Family`: the invariant. An index entry, and so a read, of a new jti comes only after the new
  refresh record was written; what is deleted then is never written again.
* `theft_response_iff`: the family is revoked exactly when the walk of some call found each new
  session, or its time is over.
-/

set_option autoImplicit false

namespace Session

open Conc Janus Redis

section

variable {ι : Type} [DecidableEq ι] (K : Crypto) (cfg : Settings) (token : String)
  (mint : ι → Minted) (client : ι → Client)

/-- A call that presents the token and reports the outcome it observed. -/
abbrev replays (i : ι) : Redis (RefreshOutcome × Except AppError TokenPair) :=
  refreshObserved K cfg token (mint i) (client i)

/-- The program order of the calls. -/
abbrev order (i : ι) : Guard Cmd Cmd.Resp :=
  ((Request.refresh token (mint i) (client i)).scope K cfg).guard

/-- The calls mint tokens of their own, which occur nowhere in `s₀`. -/
structure Minting (s₀ : Store) : Prop where
  jti : ∀ i k, (mint i).accessJti = (mint k).accessJti → i = k
  hash : ∀ i k, (mint i).refreshHash K = (mint k).refreshHash K → i = k
  token : ∀ i, (mint i).refreshHash K ≠ K.hashRefreshToken token
  access : ∀ i, s₀.strings (.access (mint i).accessJti) = none
  refresh : ∀ i, s₀.strings (.refresh ((mint i).refreshHash K)) = none
  index : ∀ i u cell, s₀.index u = some cell → (mint i).accessJti ∉ cell.val
  named : ∀ i k cell rec, s₀.strings k = some cell → parseRecord cell.val = some rec →
    rec.refreshHash ≠ some ((mint i).refreshHash K) ∧ rec.accessJti ≠ some (mint i).accessJti

/-- A call read the access record of `i`'s new session. -/
def FoundNew (l : Log ι Cmd Cmd.Resp) (i : ι) : Prop :=
  ∃ k, ∃ raw : Raw, (k, ⟨.get (.access (mint i).accessJti), some raw⟩) ∈ l

/-- A call read the access record of `i`'s new session when its time was over. -/
def FoundLate (l : Log ι Cmd Cmd.Resp) (i : ι) : Prop :=
  ∃ k, (k, ⟨.get (.access (mint i).accessJti), none⟩) ∈ l

/-- What the stored records say about the new tokens. -/
structure Records (s : Store) : Prop where
  access : ∀ j cell rec i, s.strings (.access j) = some cell → parseRecord cell.val = some rec →
    rec.refreshHash = some ((mint i).refreshHash K) → j = (mint i).accessJti
  ours : ∀ i cell, s.strings (.access (mint i).accessJti) = some cell →
    ∃ u, cell.val = ((mint i).session K cfg (client i) u).accessRecord
  refresh : ∀ h cell rec i, s.strings (.refresh h) = some cell → parseRecord cell.val = some rec →
    rec.accessJti = some (mint i).accessJti → h = (mint i).refreshHash K

/-- What the calls have seen of the new tokens. -/
structure Seen (l : Log ι Cmd Cmd.Resp) : Prop where
  hash : ∀ k j i, ReadHash (own k l) j ((mint i).refreshHash K) → j = (mint i).accessJti
  ours : ∀ k i raw, (k, ⟨.get (.access (mint i).accessJti), some raw⟩) ∈ l →
    ∃ u, raw = ((mint i).session K cfg (client i) u).accessRecord
  listed : ∀ k i, Listed (own k l) (mint i).accessJti → Opened (own i l)
  bound : ∀ k i, ¬ Bound (own k l) (mint i).accessJti

/-- The invariant (module doc). -/
structure Family (s : Store) (l : Log ι Cmd Cmd.Resp) : Prop where
  records : Records K cfg mint client s
  index : ∀ i u cell, s.index u = some cell → (mint i).accessJti ∈ cell.val → Opened (own i l)
  seen : Seen K cfg mint client l
  accessGone : ∀ k i, Did (own k l) (.delete (.access (mint i).accessJti)) →
    Opened (own i l) ∧ s.strings (.access (mint i).accessJti) = none
  refreshGone : ∀ k i, Did (own k l) (.delete (.refresh ((mint i).refreshHash K))) →
    Opened (own i l) ∧ s.strings (.refresh ((mint i).refreshHash K)) = none
  written : ∀ i b, s.strings (.refresh ((mint i).refreshHash K)) = some b → Opened (own i l)
  spared : ∀ i, Opened (own i l) →
    FoundNew mint l i ∨ s.strings (.refresh ((mint i).refreshHash K)) ≠ none
  held : ∀ i v ex, Did (own i l) (.set (.access (mint i).accessJti) v ex) →
    FoundNew mint l i ∨ FoundLate mint l i ∨ s.strings (.access (mint i).accessJti) ≠ none
  late : ∀ i, FoundLate mint l i → Opened (own i l) ∧ Dead s (.access (mint i).accessJti)
  deadline : cfg.accessTtl ≤ cfg.refreshTtl → ∀ i a,
    s.strings (.access (mint i).accessJti) = some a → ∃ d, a.expiresAt = some d ∧
    (¬ Opened (own i l) → d ≤ s.now + cfg.refreshTtl) ∧
    ∀ b, s.strings (.refresh ((mint i).refreshHash K)) = some b →
      ∃ d', b.expiresAt = some d' ∧ d ≤ d'

variable {K cfg token mint client}

omit [DecidableEq ι] in
/-- What a call writes under a session key is its own new session's. -/
theorem set_of_order {i : ι} {t : Tr} {k : Key} {v : Raw} {ex : Nat}
    (hg : order K cfg token mint client i t (.set k v ex)) (hk : ∀ h, k ≠ .used h) :
    ¬ Opened t ∧ ∃ u, Cmd.set k v ex = ((mint i).session K cfg (client i) u).setAccess ∨
      Cmd.set k v ex = ((mint i).session K cfg (client i) u).setRefresh := by
  cases k with
  | access j =>
    obtain ⟨n, ⟨⟨u, j', -, rfl⟩, hnew⟩, he⟩ := hg
    exact ⟨hnew, u, .inl he⟩
  | refresh h =>
    obtain ⟨n, ⟨⟨u, j', -, rfl⟩, hnew⟩, -, he⟩ := hg
    exact ⟨hnew, u, .inr he⟩
  | used h => exact absurd rfl (hk h)

variable {s s' : Store} {l : Log ι Cmd Cmd.Resp} {i : ι} {c : Cmd} {r : c.Resp} {s₀ : Store}

omit [DecidableEq ι] in
/-- The access record of a new session is written by the call that minted its jti. -/
theorem set_access_order (hm : Minting K token mint s₀) {k : ι} {t : Tr} {v : Raw} {ex : Nat}
    (hg : order K cfg token mint client i t (.set (.access (mint k).accessJti) v ex)) :
    k = i ∧ ¬ Opened t ∧ ex = cfg.accessTtl := by
  obtain ⟨hnew, u, he | he⟩ := set_of_order hg (by simp)
  · simp only [NewSession.setAccess, Cmd.set.injEq, Key.access.injEq] at he
    exact ⟨hm.jti k i he.1, hnew, he.2.2⟩
  · simp [NewSession.setRefresh] at he

omit [DecidableEq ι] in
/-- So is its refresh record. -/
theorem set_refresh_order (hm : Minting K token mint s₀) {k : ι} {t : Tr} {v : Raw} {ex : Nat}
    (hg : order K cfg token mint client i t (.set (.refresh ((mint k).refreshHash K)) v ex)) :
    k = i ∧ ¬ Opened t ∧ ex = cfg.refreshTtl := by
  obtain ⟨hnew, u, he | he⟩ := set_of_order hg (by simp)
  · simp [NewSession.setAccess] at he
  · simp only [NewSession.setRefresh, Cmd.set.injEq, Key.refresh.injEq] at he
    exact ⟨hm.hash k i he.1, hnew, he.2.2⟩

theorem Records.cmd (hm : Minting K token mint s₀) (h : Records K cfg mint client s)
    (hg : order K cfg token mint client i (own i l) c) (hc : sem c s r s') :
    Records K cfg mint client s' where
  access j cell rec k hj hp hr := by
    rcases cell_origin hc hj with ho | ⟨v, ex, rfl, rfl⟩
    · exact h.access j cell rec k ho hp hr
    · obtain ⟨-, u, he | he⟩ := set_of_order hg (by simp)
      · simp only [NewSession.setAccess, Cmd.set.injEq, Key.access.injEq] at he
        obtain ⟨rfl, rfl, rfl⟩ := he
        cases hp
        obtain rfl := hm.hash i k (Option.some.inj hr)
        rfl
      · simp [NewSession.setRefresh] at he
  ours k cell hj := by
    rcases cell_origin hc hj with ho | ⟨v, ex, rfl, rfl⟩
    · exact h.ours k cell ho
    · obtain ⟨-, u, he | he⟩ := set_of_order hg (by simp)
      · simp only [NewSession.setAccess, Cmd.set.injEq, Key.access.injEq] at he
        obtain ⟨hjti, rfl, rfl⟩ := he
        obtain rfl := hm.jti k i hjti
        exact ⟨u, rfl⟩
      · simp [NewSession.setRefresh] at he
  refresh rh cell rec k hj hp hr := by
    rcases cell_origin hc hj with ho | ⟨v, ex, rfl, rfl⟩
    · exact h.refresh rh cell rec k ho hp hr
    · obtain ⟨-, u, he | he⟩ := set_of_order hg (by simp)
      · simp [NewSession.setAccess] at he
      · simp only [NewSession.setRefresh, Cmd.set.injEq, Key.refresh.injEq] at he
        obtain ⟨rfl, rfl, rfl⟩ := he
        cases hp
        obtain rfl := hm.jti i k (Option.some.inj hr)
        rfl

theorem did_cons {k : ι} {c' : Cmd} (h : Did (own k ((i, ⟨c, r⟩) :: l)) c') :
    Did (own k l) c' ∨ k = i ∧ c' = c := by
  obtain ⟨r', hm⟩ := h
  rcases List.mem_cons.1 (mem_own.1 hm) with he | hm
  · cases he
    exact .inr ⟨rfl, rfl⟩
  · exact .inl ⟨r', mem_own.2 hm⟩

theorem Seen.cmd (hm : Minting K token mint s₀) (h : Family K cfg mint client s l)
    (hg : order K cfg token mint client i (own i l) c) (hc : sem c s r s') :
    Seen K cfg mint client ((i, ⟨c, r⟩) :: l) where
  hash k j i' := by
    rintro ⟨raw, rec, hmem, hp, hh⟩
    rcases List.mem_cons.1 (mem_own.1 hmem) with he | hmem
    · cases he
      have hr : some raw = s.strings.get s.now (.access j) := hc.1
      obtain ⟨cell, hcell, -, rfl⟩ := Table.get_eq_some.1 hr.symm
      exact h.records.access j cell rec i' hcell hp hh
    · exact h.seen.hash k j i' ⟨raw, rec, mem_own.2 hmem, hp, hh⟩
  ours k i' raw hmem := by
    rcases List.mem_cons.1 hmem with he | hmem
    · cases he
      have hr : some raw = s.strings.get s.now (.access (mint i').accessJti) := hc.1
      obtain ⟨cell, hcell, -, rfl⟩ := Table.get_eq_some.1 hr.symm
      exact h.records.ours i' cell hcell
    · exact h.seen.ours k i' raw hmem
  listed k i' := by
    rintro ⟨u, jtis, hmem, hj⟩
    rcases List.mem_cons.1 (mem_own.1 hmem) with he | hmem
    · cases he
      obtain ⟨cell, hcell, hj⟩ := mem_of_smembers hc hj
      exact (h.index i' u cell hcell hj).cons _
    · exact (h.seen.listed k i' ⟨u, jtis, mem_own.2 hmem, hj⟩).cons _
  bound k i' := by
    rintro ⟨rh, u, raw, rec, hmem, hp, hu, hj⟩
    rcases List.mem_cons.1 (mem_own.1 hmem) with he | hmem
    · cases he
      have hr : some raw = s.strings.get s.now (.refresh rh) := hc.1
      obtain ⟨cell, hcell, -, rfl⟩ := Table.get_eq_some.1 hr.symm
      have hrh := h.records.refresh rh cell rec i' hcell hp hj
      have hpres : rh = K.hashRefreshToken token := hg
      exact hm.token i' (hrh.symm.trans hpres)
    · exact h.seen.bound k i' ⟨rh, u, raw, rec, mem_own.2 hmem, hp, hu, hj⟩

/-- A new access record is read only when its session is complete. -/
theorem Family.opened_of_get (h : Family K cfg mint client s l) {k i : ι} {t : Tr}
    (hs : t ⊆ own k l)
    (hg : order K cfg token mint client k t (.get (.access (mint i).accessJti))) :
    Opened (own i l) := by
  rcases hg with hname | hlisted | hbound
  · exact hname.elim
  · exact h.seen.listed k i (hlisted.mono hs)
  · exact absurd (hbound.mono hs) (h.seen.bound k i)

theorem Family.opened_of_read (h : Family K cfg mint client s l)
    (hguard : ∀ k, Trace.Guarded (order K cfg token mint client k) (own k l)) {k i : ι}
    (hd : Did (own k l) (.get (.access (mint i).accessJti))) : Opened (own i l) := by
  obtain ⟨r, hmem⟩ := hd
  obtain ⟨t, hs, hg⟩ := (hguard k).of_mem hmem
  exact h.opened_of_get hs hg

/-- A jti is put into the index by the call that minted it, after its refresh record. -/
theorem Family.index_cmd (hm : Minting K token mint s₀)
    (hguard : ∀ k, Trace.Guarded (order K cfg token mint client k) (own k l))
    (h : Family K cfg mint client s l) (hg : order K cfg token mint client i (own i l) c)
    (hc : sem c s r s') {k : ι} {u : Int} {cell : Cell (List String)} (hu : s'.index u = some cell)
    (hj : (mint k).accessJti ∈ cell.val) : Opened (own k ((i, ⟨c, r⟩) :: l)) := by
  rcases index_origin hc hu hj with ⟨cell₀, hu₀, hj₀⟩ | rfl
  · exact (h.index k u cell₀ hu₀ hj₀).cons _
  · obtain ⟨n, hacc, href, rfl, hjti⟩ := hg
    obtain ⟨r', hmem⟩ := hacc
    obtain ⟨t, hs, hgt⟩ := (hguard i).of_mem hmem
    change order K cfg token mint client i t (.set (.access n.accessJti) _ _) at hgt
    rw [← hjti] at hgt
    obtain ⟨rfl, -⟩ := set_access_order hm hgt
    exact Opened.cons ⟨_, _, _, href⟩ _

/-- An access record that was deleted does not come back. -/
theorem Family.accessGone_cmd (hm : Minting K token mint s₀)
    (hguard : ∀ k, Trace.Guarded (order K cfg token mint client k) (own k l))
    (h : Family K cfg mint client s l) (hg : order K cfg token mint client i (own i l) c)
    (hc : sem c s r s') {k i' : ι}
    (hd : Did (own k ((i, ⟨c, r⟩) :: l)) (.delete (.access (mint i').accessJti))) :
    Opened (own i' ((i, ⟨c, r⟩) :: l)) ∧ s'.strings (.access (mint i').accessJti) = none := by
  have hdel : Did (own k l) (.delete (.access (mint i').accessJti)) ∨
      c = .delete (.access (mint i').accessJti) := (did_cons hd).imp_right fun he => he.2.symm
  rcases hdel with hd | rfl
  · obtain ⟨hopen, hnone⟩ := h.accessGone k i' hd
    have hset : ∀ v ex, c ≠ .set (.access (mint i').accessJti) v ex := by
      rintro v ex rfl
      obtain ⟨rfl, hnew, -⟩ := set_access_order hm hg
      exact hnew hopen
    refine ⟨hopen.cons _, ?_⟩
    rcases strings_shrink hc hset with he | he
    · rw [he, hnone]
    · exact he
  · refine ⟨(h.opened_of_read hguard hg).cons _, ?_⟩
    rw [hc.2]
    simp [Cmd.run]

theorem Family.refreshGone_cmd (hm : Minting K token mint s₀)
    (hguard : ∀ k, Trace.Guarded (order K cfg token mint client k) (own k l))
    (h : Family K cfg mint client s l) (hg : order K cfg token mint client i (own i l) c)
    (hc : sem c s r s') {k i' : ι}
    (hd : Did (own k ((i, ⟨c, r⟩) :: l)) (.delete (.refresh ((mint i').refreshHash K)))) :
    Opened (own i' ((i, ⟨c, r⟩) :: l)) ∧
      s'.strings (.refresh ((mint i').refreshHash K)) = none := by
  have hdel : Did (own k l) (.delete (.refresh ((mint i').refreshHash K))) ∨
      c = .delete (.refresh ((mint i').refreshHash K)) :=
    (did_cons hd).imp_right fun he => he.2.symm
  rcases hdel with hd | rfl
  · obtain ⟨hopen, hnone⟩ := h.refreshGone k i' hd
    have hset : ∀ v ex, c ≠ .set (.refresh ((mint i').refreshHash K)) v ex := by
      rintro v ex rfl
      obtain ⟨rfl, hnew, -⟩ := set_refresh_order hm hg
      exact hnew hopen
    refine ⟨hopen.cons _, ?_⟩
    rcases strings_shrink hc hset with he | he
    · rw [he, hnone]
    · exact he
  · obtain ⟨j, hread⟩ := hg
    obtain rfl := h.seen.hash i j i' hread
    obtain ⟨raw, rec, hmem, -⟩ := hread
    refine ⟨(h.opened_of_read hguard ⟨_, hmem⟩).cons _, ?_⟩
    rw [hc.2]
    simp [Cmd.run]

theorem Family.written_cmd (hm : Minting K token mint s₀) (h : Family K cfg mint client s l)
    (hg : order K cfg token mint client i (own i l) c) (hc : sem c s r s') {i' : ι} {b : Cell Raw}
    (hb : s'.strings (.refresh ((mint i').refreshHash K)) = some b) :
    Opened (own i' ((i, ⟨c, r⟩) :: l)) := by
  rcases cell_origin hc hb with ho | ⟨v, ex, rfl, -⟩
  · exact (h.written i' b ho).cons _
  · obtain ⟨rfl, -⟩ := set_refresh_order hm hg
    exact ⟨_, v, ex, r, by simp⟩

/-- A refresh record is deleted by a call that has found the new session. -/
theorem Family.spared_cmd (hm : Minting K token mint s₀) (h : Family K cfg mint client s l)
    (hg : order K cfg token mint client i (own i l) c) (hc : sem c s r s') {i' : ι}
    (hopen : Opened (own i' ((i, ⟨c, r⟩) :: l))) : FoundNew mint ((i, ⟨c, r⟩) :: l) i' ∨
      s'.strings (.refresh ((mint i').refreshHash K)) ≠ none := by
  by_cases hold : Opened (own i' l)
  · rcases h.spared i' hold with ⟨k, raw, hf⟩ | hthere
    · exact .inl ⟨k, raw, List.mem_cons_of_mem _ hf⟩
    by_cases hdel : c = .delete (.refresh ((mint i').refreshHash K))
    · subst hdel
      obtain ⟨j, hread⟩ := hg
      obtain rfl := h.seen.hash i j i' hread
      obtain ⟨raw, rec, hmem, -⟩ := hread
      exact .inl ⟨i, raw, List.mem_cons_of_mem _ (mem_own.1 hmem)⟩
    · by_cases hset : ∃ v ex, c = .set (.refresh ((mint i').refreshHash K)) v ex
      · obtain ⟨v, ex, rfl⟩ := hset
        exact .inr (by rw [hc.2]; simp [Cmd.run])
      · refine .inr ?_
        rw [strings_of_sem hc (fun v ex he => hset ⟨v, ex, he⟩) hdel ?_]
        · exact hthere
        · rintro rfl
          have hpres : (mint i').refreshHash K = K.hashRefreshToken token := hg
          exact hm.token i' hpres
  · -- the call has just written its refresh record
    obtain ⟨rh, v, ex, r', hmem⟩ := hopen
    rcases List.mem_cons.1 (mem_own.1 hmem) with he | hmem
    · cases he
      obtain ⟨-, u, he | he⟩ := set_of_order hg (by simp)
      · simp [NewSession.setAccess] at he
      · simp only [NewSession.setRefresh, Cmd.set.injEq, Key.refresh.injEq] at he
        obtain ⟨rfl, -⟩ := he
        refine .inr ?_
        rw [hc.2]
        simp [Cmd.run, Minted.session]
    · exact absurd ⟨rh, v, ex, r', mem_own.2 hmem⟩ hold

/-- An access record is deleted by a call that has read it, in its time or after. -/
theorem Family.held_cmd (h : Family K cfg mint client s l)
    (hg : order K cfg token mint client i (own i l) c) (hc : sem c s r s') {i' : ι} {v : Raw}
    {ex : Nat} (hdid : Did (own i' ((i, ⟨c, r⟩) :: l)) (.set (.access (mint i').accessJti) v ex)) :
    FoundNew mint ((i, ⟨c, r⟩) :: l) i' ∨ FoundLate mint ((i, ⟨c, r⟩) :: l) i' ∨
      s'.strings (.access (mint i').accessJti) ≠ none := by
  by_cases hset : ∃ v ex, c = .set (.access (mint i').accessJti) v ex
  · obtain ⟨v, ex, rfl⟩ := hset
    exact .inr (.inr (by rw [hc.2]; simp [Cmd.run]))
  have hold := (did_cons hdid).resolve_right fun he => hset ⟨v, ex, he.2.symm⟩
  rcases h.held i' v ex hold with ⟨k, raw, hf⟩ | ⟨k, hf⟩ | hthere
  · exact .inl ⟨k, raw, List.mem_cons_of_mem _ hf⟩
  · exact .inr (.inl ⟨k, List.mem_cons_of_mem _ hf⟩)
  by_cases hdel : c = .delete (.access (mint i').accessJti)
  · subst hdel
    obtain ⟨read, hmem⟩ := hg
    cases read with
    | some raw => exact .inl ⟨i, raw, List.mem_cons_of_mem _ (mem_own.1 hmem)⟩
    | none => exact .inr (.inl ⟨i, List.mem_cons_of_mem _ (mem_own.1 hmem)⟩)
  · refine .inr (.inr ?_)
    rw [strings_of_sem hc (fun v ex he => hset ⟨v, ex, he⟩) hdel ?_]
    · exact hthere
    · rintro rfl
      exact hg

/-- An access record whose time is over is not written again. -/
theorem Family.late_cmd (hm : Minting K token mint s₀) (h : Family K cfg mint client s l)
    (hg : order K cfg token mint client i (own i l) c) (hc : sem c s r s') {i' : ι}
    (hlate : FoundLate mint ((i, ⟨c, r⟩) :: l) i') :
    Opened (own i' ((i, ⟨c, r⟩) :: l)) ∧ Dead s' (.access (mint i').accessJti) := by
  obtain ⟨k, hmem⟩ := hlate
  have hnow : Opened (own i' l) ∧ Dead s (.access (mint i').accessJti) := by
    rcases List.mem_cons.1 hmem with he | hmem
    · cases he
      exact ⟨h.opened_of_get (List.Subset.refl _) hg, hc.1.symm⟩
    · exact h.late i' ⟨k, hmem⟩
  refine ⟨hnow.1.cons _, hnow.2.cmd hc ?_⟩
  rintro v ex rfl
  obtain ⟨rfl, hnew, -⟩ := set_access_order hm hg
  exact hnew hnow.1

/-- A new access record with the shorter time to live does not outlive the refresh record of its
session. -/
theorem Family.deadline_cmd (hm : Minting K token mint s₀) (httl : cfg.accessTtl ≤ cfg.refreshTtl)
    (h : Family K cfg mint client s l) (hg : order K cfg token mint client i (own i l) c)
    (hc : sem c s r s') {i' : ι} {a : Cell Raw}
    (ha : s'.strings (.access (mint i').accessJti) = some a) : ∃ d, a.expiresAt = some d ∧
      (¬ Opened (own i' ((i, ⟨c, r⟩) :: l)) → d ≤ s.now + cfg.refreshTtl) ∧
      ∀ b, s'.strings (.refresh ((mint i').refreshHash K)) = some b →
        ∃ d', b.expiresAt = some d' ∧ d ≤ d' := by
  rcases cell_origin hc ha with ho | ⟨v, ex, rfl, rfl⟩
  · obtain ⟨d, hd, hnew, hle⟩ := h.deadline httl i' a ho
    refine ⟨d, hd, fun hno => hnew fun hop => hno (hop.cons _), fun b hb => ?_⟩
    rcases cell_origin hc hb with hob | ⟨v, ex, rfl, rfl⟩
    · exact hle b hob
    · obtain ⟨rfl, hno, rfl⟩ := set_refresh_order hm hg
      exact ⟨_, rfl, hnew hno⟩
  · obtain ⟨rfl, hno, rfl⟩ := set_access_order hm hg
    refine ⟨_, rfl, fun _ => Nat.add_le_add_left httl _, fun b hb => ?_⟩
    rcases cell_origin hc hb with hob | ⟨v', ex', he', -⟩
    · exact absurd (h.written i' b hob) hno
    · cases he'

theorem Family.cmd (hm : Minting K token mint s₀)
    (hguard : ∀ k, Trace.Guarded (order K cfg token mint client k) (own k l))
    (h : Family K cfg mint client s l) (hg : order K cfg token mint client i (own i l) c)
    (hc : sem c s r s') : Family K cfg mint client s' ((i, ⟨c, r⟩) :: l) where
  records := h.records.cmd hm hg hc
  index _ _ _ hu hj := h.index_cmd hm hguard hg hc hu hj
  seen := Seen.cmd hm h hg hc
  accessGone _ _ hd := h.accessGone_cmd hm hguard hg hc hd
  refreshGone _ _ hd := h.refreshGone_cmd hm hguard hg hc hd
  written _ _ hb := h.written_cmd hm hg hc hb
  spared _ hopen := h.spared_cmd hm hg hc hopen
  held _ _ _ hdid := h.held_cmd hg hc hdid
  late _ hlate := h.late_cmd hm hg hc hlate
  deadline httl i' a ha := by
    rw [now_of_sem hc]
    exact h.deadline_cmd hm httl hg hc ha

theorem Family.tick (h : Family K cfg mint client s l) (ht : tick s s') :
    Family K cfg mint client s' l := by
  have hlate : ∀ i, FoundLate mint l i → Opened (own i l) ∧ Dead s' (.access (mint i).accessJti) :=
    fun i hl => (h.late i hl).imp_right fun hdead => hdead.tick ht
  obtain ⟨d, rfl⟩ := ht
  refine ⟨⟨h.records.access, h.records.ours, h.records.refresh⟩, h.index, h.seen, h.accessGone,
    h.refreshGone, h.written, h.spared, h.held, hlate, fun httl i a ha => ?_⟩
  obtain ⟨e, he, hnew, hle⟩ := h.deadline httl i a ha
  refine ⟨e, he, fun hno => ?_, hle⟩
  have := hnew hno
  show e ≤ s.now + d + cfg.refreshTtl
  omega

theorem Minting.family (hm : Minting K token mint s₀) : Family K cfg mint client s₀ [] where
  records :=
    { access := fun j cell rec i hc hp hh => absurd hh (hm.named i _ cell rec hc hp).1
      ours := fun i cell hc => by rw [hm.access i] at hc; cases hc
      refresh := fun rh cell rec i hc hp hj => absurd hj (hm.named i _ cell rec hc hp).2 }
  index i u cell hu hj := absurd hj (hm.index i u cell hu)
  seen :=
    { hash := fun k j i ⟨_, _, hmem, _⟩ => nomatch hmem
      ours := fun k i raw hmem => nomatch hmem
      listed := fun k i ⟨_, _, hmem, _⟩ => nomatch hmem
      bound := fun k i ⟨_, _, _, _, hmem, _⟩ => nomatch hmem }
  accessGone k i := fun ⟨_, hmem⟩ => nomatch hmem
  refreshGone k i := fun ⟨_, hmem⟩ => nomatch hmem
  written i b hb := by rw [hm.refresh i] at hb; cases hb
  spared i := fun ⟨_, _, _, _, hmem⟩ => nomatch hmem
  held i v ex := fun ⟨_, hmem⟩ => nomatch hmem
  late i := fun ⟨_, hmem⟩ => nomatch hmem
  deadline _ i a ha := by rw [hm.access i] at ha; cases ha

/-! ## Complete runs -/

abbrev ReplayPool (ι : Type) := Pool ι Cmd Cmd.Resp (RefreshOutcome × Except AppError TokenPair) Store

/-- Some call observed the replay. -/
def Detected (P : ReplayPool ι) : Prop := ∃ i reply, P.thread i = .ret (.reuseDetected, reply)

/-- `i` answered with a new token pair. -/
def Issued (P : ReplayPool ι) (i : ι) : Prop := ∃ outcome p, P.thread i = .ret (outcome, .ok p)

/-- The record is still stored, but its time is over. -/
def Expired (s : Store) (k : Key) : Prop := ∃ cell, s.strings k = some cell ∧ cell.live s.now = false

omit [DecidableEq ι] in
theorem Expired.dead {k : Key} (h : Expired s k) : Dead s k := by
  obtain ⟨cell, hcell, hexp⟩ := h
  simpa [Dead, Table.get, Table.find, hcell] using hexp

theorem expired_of_dead {k : Key} (h : Dead s k) (hne : s.strings k ≠ none) : Expired s k := by
  obtain ⟨cell, hcell⟩ := Option.ne_none_iff_exists'.1 hne
  exact ⟨cell, hcell, by simpa [Dead, Table.get, Table.find, hcell] using h⟩

/-- The time of `i`'s new session is over: that of its refresh record, and that of its access record
where this one may be the longer (a walk that reads it later deletes what is left of it). -/
def LapsedNew (K : Crypto) (cfg : Settings) (mint : ι → Minted) (P : ReplayPool ι) (i : ι) : Prop :=
  Expired P.shared (.refresh ((mint i).refreshHash K)) ∧
    (cfg.accessTtl ≤ cfg.refreshTtl ∨ Expired P.shared (.access (mint i).accessJti) ∨
      FoundLate mint P.log i)

omit [DecidableEq ι] in
theorem replays_follows (i : ι) :
    (replays K cfg token mint client i).Follows (order K cfg token mint client i)
      (fun reply t => Closed t ∧ ∀ p, reply.2 = .ok p →
        Granted K cfg (K.hashRefreshToken token) (mint i) (client i) t p) [] := by
  have h₀ : ¬ Opened [] := fun ⟨_, _, _, _, hm⟩ => nomatch hm
  have hclosed : Closed [] := fun _ _ hm => nomatch hm
  exact (refreshObserved_follows h₀).mono fun reply t ⟨hc, hg⟩ => ⟨hc hclosed, hg⟩

/-- For one new session: both its tokens are dead at the end exactly when some call's walk found
it or its time is over. -/
theorem revoked_iff_found (hm : Minting K token mint s₀) {P : ReplayPool ι}
    (hreach : Pool.Reach sem tick (Pool.start s₀ (replays K cfg token mint client)) P)
    (hdone : P.Done) {i : ι} (hi : Issued P i) :
    (Dead P.shared (.access (mint i).accessJti) ∧
        Dead P.shared (.refresh ((mint i).refreshHash K))) ↔
      FoundNew mint P.log i ∨ LapsedNew K cfg mint P i := by
  have hfam : Family K cfg mint client P.shared P.log :=
    hreach.invariant (J := Family K cfg mint client) replays_follows hm.family
      (fun hguard hJ hg hc => hJ.cmd hm hguard hg hc) fun hJ ht => hJ.tick ht
  obtain ⟨outcome, p, hp⟩ := hi
  obtain ⟨u, j, -, -, hsub⟩ := (hreach.post replays_follows hp).2 p rfl
  have hopened : Opened (own i P.log) :=
    ⟨_, _, _, (), hsub (NewSession.setRefresh_mem_trace _ _)⟩
  have hwritten := hfam.held i _ _ ⟨(), hsub (NewSession.setAccess_mem_trace _ _)⟩
  constructor
  · rintro ⟨haccess, hrefresh⟩
    rcases hfam.spared i hopened with hfound | hrec
    · exact .inl hfound
    rcases hwritten with hfound | hlate | hacc
    · exact .inl hfound
    · exact .inr ⟨expired_of_dead hrefresh hrec, .inr (.inr hlate)⟩
    · exact .inr ⟨expired_of_dead hrefresh hrec, .inr (.inl (expired_of_dead haccess hacc))⟩
  · rintro (⟨k, raw, hread⟩ | ⟨hexp, hlapsed⟩)
    · obtain ⟨reply, hk⟩ := hdone k
      have hcl := ((hreach.post replays_follows hk).1 _ raw (mem_own.2 hread)).resolve_left id
      obtain ⟨u, rfl⟩ := hfam.seen.ours k i raw hread
      exact ⟨Table.get_of_none (hfam.accessGone k i hcl.1).2,
        Table.get_of_none (hfam.refreshGone k i (hcl.2 _ _ rfl rfl)).2⟩
    · refine ⟨?_, hexp.dead⟩
      rcases hlapsed with httl | haccess | hlate
      · -- the access record's deadline is no later than the refresh record's
        obtain ⟨cell, hcell, hexp⟩ := hexp
        by_contra hne
        obtain ⟨v, hv⟩ := Option.ne_none_iff_exists'.1 hne
        obtain ⟨a, ha, hlive, -⟩ := Table.get_eq_some.1 hv
        obtain ⟨d, hd, -, hle⟩ := hfam.deadline httl i a ha
        obtain ⟨d', hd', hdd⟩ := hle cell hcell
        simp only [Cell.live, hd, hd', Option.all_some, decide_eq_true_eq,
          decide_eq_false_iff_not] at hlive hexp
        omega
      · exact haccess.dead
      · exact (hfam.late i hlate).2

/-- When the replay is detected, the family is revoked exactly if, for every pair issued, the walk
of some call found its session, or its time is over. -/
theorem theft_response_iff (hm : Minting K token mint s₀) {P : ReplayPool ι}
    (hreach : Pool.Reach sem tick (Pool.start s₀ (replays K cfg token mint client)) P)
    (hdone : P.Done) :
    (Detected P → ∀ i, Issued P i → Dead P.shared (.access (mint i).accessJti) ∧
        Dead P.shared (.refresh ((mint i).refreshHash K))) ↔
      (Detected P → ∀ i, Issued P i →
        FoundNew mint P.log i ∨ LapsedNew K cfg mint P i) := by
  refine imp_congr_right fun _ => forall_congr' fun i => imp_congr_right fun hi => ?_
  exact revoked_iff_found hm hreach hdone hi

end

/-- Two calls that present `r0`, run in the order of the schedule. -/
def replayRun (schedule : List Bool) : ReplayPool Bool :=
  Pool.play Cmd.run (Pool.start loggedIn (replays plainCrypto fortnight "r0" replayMint fun _ => {}))
    schedule

theorem replayRun_reach (schedule : List Bool) : Pool.Reach sem tick
    (Pool.start loggedIn (replays plainCrypto fortnight "r0" replayMint fun _ => {}))
    (replayRun schedule) := Pool.reach_play sem_run schedule _

theorem minting_replay : Minting plainCrypto "r0" replayMint loggedIn where
  jti i k h := by cases i <;> cases k <;> first | rfl | exact absurd h (by decide)
  hash i k h := by cases i <;> cases k <;> first | rfl | exact absurd h (by decide)
  token i := by cases i <;> decide
  access i := by cases i <;> rfl
  refresh i := by cases i <;> rfl
  index i u cell hu := by
    by_cases h7 : u = 7
    · subst h7
      cases hu
      cases i <;> decide
    · simp [loggedIn, createSession, Prog.eval, Prog.cmd, Cmd.run, Store.empty, h7] at hu
  named i k cell rec hk hp := by
    by_cases hr : k = .refresh "r0"
    · subst hr
      cases hk
      cases hp
      cases i <;> decide
    · by_cases ha : k = .access "a0"
      · subst ha
        cases hk
        cases hp
        cases i <;> decide
      · simp [loggedIn, createSession, Prog.eval, Prog.cmd, Cmd.run, Store.empty, hr, ha] at hk

/-- The winner consumes the token, the loser detects the replay and revokes everything, and only
then does the winner create its session, which is usable. -/
theorem theft_response_misses :
    ¬ ∀ (K : Crypto) (cfg : Settings) (token : String) (mint : Bool → Minted)
      (client : Bool → Client) (s₀ : Store) (P : ReplayPool Bool),
      Minting K token mint s₀ → cfg.accessTtl < cfg.refreshTtl →
      Pool.Reach sem tick (Pool.start s₀ (replays K cfg token mint client)) P → P.Done →
      Detected P → ∀ i, Issued P i → Dead P.shared (.access (mint i).accessJti) ∧
        Dead P.shared (.refresh ((mint i).refreshHash K)) := by
  intro h
  let schedule := List.replicate 2 true ++ List.replicate 8 false ++ List.replicate 7 true
  have hdone : (replayRun schedule).Done := by
    intro i
    cases i <;> exact ⟨_, rfl⟩
  obtain ⟨-, hrefresh⟩ := h plainCrypto fortnight "r0" replayMint _ loggedIn (replayRun schedule)
    minting_replay (by decide) (replayRun_reach schedule) hdone ⟨false, _, rfl⟩ true ⟨_, _, rfl⟩
  exact absurd hrefresh (by simp [Dead]; decide)

/-- When the replay comes after the winner's session is complete, the walk finds it. -/
theorem theft_response_iff_sequential :
    let P := replayRun (List.replicate 12 true ++ List.replicate 8 false)
    Detected P ∧ Dead P.shared (.access "a1") ∧ Dead P.shared (.refresh "r1") := by
  intro P
  have hdone : P.Done := by
    intro i
    cases i <;> exact ⟨_, rfl⟩
  have hdetected : Detected P := ⟨false, _, rfl⟩
  have hiff := theft_response_iff minting_replay
    (replayRun_reach (List.replicate 12 true ++ List.replicate 8 false)) hdone
  have hfound : FoundNew replayMint P.log true :=
    ⟨false, _, List.mem_of_getElem? (i := 4) rfl⟩
  refine ⟨hdetected, hiff.2 (fun _ i hi => ?_) hdetected true ⟨_, _, rfl⟩⟩
  cases i with
  | true => exact .inl hfound
  | false =>
    obtain ⟨_, _, hp⟩ := hi
    cases hp

end Session
