import Janus.Session.Proof.Order

/-!
# What one Redis command does to the session keys

* `cell_origin`: a cell that is there after a command was there before or was written by it.
* `strings_shrink`: a key that is not written keeps its cell or loses it.
* `Dead`: no reader sees the key; only a write ends that (`Dead.cmd`, `Dead.tick`).
* `Recorded`: every session record in Redis is that of a created session.
-/

set_option autoImplicit false

namespace Session

open Conc Redis

variable {c : Cmd} {r : c.Resp} {s s' : Store} {k : Key}

theorem tick_refl (s : Store) : tick s s := ⟨0, rfl⟩

theorem sem_run (c : Cmd) (s : Store) : sem c s (c.run s).1 (c.run s).2 := by
  refine ⟨?_, rfl⟩
  cases c with
  | smembers _ | smembersUsers => exact List.Perm.refl _
  | get _ | getdel _ | existsKey _ | existsIndex _ => rfl
  | _ => trivial

theorem tick_strings (h : tick s s') : s'.strings = s.strings := by
  obtain ⟨d, rfl⟩ := h
  rfl

theorem tick_now (h : tick s s') : s.now ≤ s'.now := by
  obtain ⟨d, rfl⟩ := h
  exact Nat.le_add_right _ _

theorem now_of_sem (h : sem c s r s') : s'.now = s.now := by
  rw [h.2]
  cases c <;> rfl

theorem now_of_runs {α : Type} {p : Redis α} {a : α} {t t' : Tr}
    (h : p.Runs sem tick s t a s' t') : s.now ≤ s'.now := by
  induction p generalizing s t with
  | ret b => exact tick_now h.2.2
  | step c k ih =>
    obtain ⟨s₁, r, s₂, ht, hc, hk⟩ := h
    have h₁ := tick_now ht
    have h₂ := ih r hk
    rw [now_of_sem hc] at h₂
    omega

/-- Only `SET`, `DEL` and `GETDEL` of a string key change it. -/
theorem strings_of_sem (h : sem c s r s') (hset : ∀ v ex, c ≠ .set k v ex)
    (hdel : c ≠ .delete k) (hgetdel : c ≠ .getdel k) : s'.strings k = s.strings k := by
  rw [h.2]
  cases c with
  | set k' v ex =>
    have : k ≠ k' := fun e => hset v ex (e ▸ rfl)
    simp [Cmd.run, this]
  | delete k' =>
    have : k ≠ k' := fun e => hdel (e ▸ rfl)
    simp [Cmd.run, this]
  | getdel k' =>
    have : k ≠ k' := fun e => hgetdel (e ▸ rfl)
    simp [Cmd.run, this]
  | _ => rfl

theorem strings_shrink (h : sem c s r s') (hset : ∀ v ex, c ≠ .set k v ex) :
    s'.strings k = s.strings k ∨ s'.strings k = none := by
  by_cases hk : c = .delete k ∨ c = .getdel k
  · rcases hk with rfl | rfl <;> exact .inr (by rw [h.2]; simp [Cmd.run])
  · exact .inl (strings_of_sem h hset (fun e => hk (.inl e)) fun e => hk (.inr e))

theorem cell_origin {cell : Cell Raw} (h : sem c s r s') (hk : s'.strings k = some cell) :
    s.strings k = some cell ∨ ∃ v ex, c = .set k v ex ∧ cell = ⟨v, some (s.now + ex)⟩ := by
  by_cases hset : ∃ v ex, c = .set k v ex
  · obtain ⟨v, ex, rfl⟩ := hset
    refine .inr ⟨v, ex, rfl, ?_⟩
    rw [h.2] at hk
    simpa [Cmd.run, eq_comm] using hk
  · rcases strings_shrink (k := k) h (fun v ex e => hset ⟨v, ex, e⟩) with he | he
    · exact .inl (he ▸ hk)
    · simp [he] at hk

/-- A member of an index was there before or was added by the command. -/
theorem index_origin {u : UserId} {cell : Cell (List Jti)} {j : Jti} (h : sem c s r s')
    (hu : s'.index u = some cell) (hj : j ∈ cell.val) :
    (∃ cell₀, s.index u = some cell₀ ∧ j ∈ cell₀.val) ∨ c = .sadd u j := by
  have hget (l : List Jti) (hl : s.index.get s.now u = some l) (hm : j ∈ l) :
      ∃ cell₀, s.index u = some cell₀ ∧ j ∈ cell₀.val := by
    obtain ⟨cell₀, hc₀, -, hv⟩ := Table.get_eq_some.1 hl
    exact ⟨cell₀, hc₀, hv ▸ hm⟩
  rw [h.2] at hu
  cases c with
  | sadd u' j' =>
    by_cases he : u = u'
    · subst he
      simp only [Cmd.run, Table.alter, Function.update_self, Option.map_some,
        Option.some.injEq] at hu
      subst hu
      rcases List.mem_insert_iff.1 hj with rfl | hm
      · exact .inr rfl
      · cases hl : s.index.get s.now u with
        | none => simp [hl] at hm
        | some l => exact .inl (hget l hl (by simpa [hl] using hm))
    · exact .inl ⟨cell, by simpa [Cmd.run, he] using hu, hj⟩
  | srem u' j' =>
    by_cases he : u = u'
    · subst he
      simp only [Cmd.run, Table.alter, Function.update_self] at hu
      cases hl : s.index.get s.now u with
      | none => simp [hl, removeMember] at hu
      | some l =>
        simp only [hl, removeMember] at hu
        split at hu
        · cases hu
        · cases hu
          exact .inl (hget l hl (List.mem_of_mem_erase hj))
    · exact .inl ⟨cell, by simpa [Cmd.run, he] using hu, hj⟩
  | expire u' ttl =>
    by_cases he : u = u'
    · subst he
      simp only [Cmd.run, Table.expire, Function.update_self, Option.map_eq_some_iff] at hu
      obtain ⟨cell₀, hf, rfl⟩ := hu
      exact .inl ⟨cell₀, (Table.find_eq_some.1 hf).1, hj⟩
    · exact .inl ⟨cell, by simpa [Cmd.run, he] using hu, hj⟩
  | deleteIndex u' =>
    by_cases he : u = u'
    · simp [Cmd.run, he] at hu
    · exact .inl ⟨cell, by simpa [Cmd.run, he] using hu, hj⟩
  | _ => exact .inl ⟨cell, hu, hj⟩

/-- What an index answers is in it. -/
theorem mem_of_smembers {u : UserId} {l : List Jti} {j : Jti} (h : sem (.smembers u) s l s')
    (hj : j ∈ l) : ∃ cell, s.index u = some cell ∧ j ∈ cell.val := by
  have hperm : l.Perm ((s.index.get s.now u).getD []) := h.1
  have hm := hperm.subset hj
  cases hl : s.index.get s.now u with
  | none => simp [hl] at hm
  | some l' =>
    obtain ⟨cell, hc, -, hv⟩ := Table.get_eq_some.1 hl
    exact ⟨cell, hc, by simpa [hl, hv] using hm⟩

/-! ## Dead keys -/

/-- No reader sees the key, now or later. -/
def Dead (s : Store) (k : Key) : Prop := s.strings.get s.now k = none

theorem Dead.tick (h : Dead s k) (ht : tick s s') : Dead s' k := by
  by_contra hne
  obtain ⟨v, hv⟩ := Option.ne_none_iff_exists'.1 hne
  rw [tick_strings ht] at hv
  simp [Dead, Table.get_anti hv (tick_now ht)] at h

theorem Dead.cmd (h : Dead s k) (hc : sem c s r s') (hset : ∀ v ex, c ≠ .set k v ex) :
    Dead s' k := by
  rcases strings_shrink (k := k) hc hset with he | he
  · simpa [Dead, Table.get, Table.find, he, now_of_sem hc] using h
  · exact Table.get_of_none he

/-! ## Recorded sessions -/

/-- Every session record is that of a session in `ns`. -/
structure Recorded (ns : List NewSession) (s : Store) : Prop where
  access : ∀ j cell, s.strings (.access j) = some cell →
    ∃ n ∈ ns, n.accessJti = j ∧ cell.val = n.accessRecord
  refresh : ∀ h cell, s.strings (.refresh h) = some cell →
    ∃ n ∈ ns, n.refreshHash = h ∧ cell.val = n.refreshRecord

theorem Recorded.tick {ns : List NewSession} (h : Recorded ns s) (ht : tick s s') :
    Recorded ns s' := by
  obtain ⟨d, rfl⟩ := ht
  exact ⟨h.access, h.refresh⟩

theorem Recorded.cmd {S : Scope} {t : Tr} {ns : List NewSession} (h : Recorded ns s)
    (hS : ∀ t n, S.opens t n → n ∈ ns) (hg : S.guard t c) (hc : sem c s r s') :
    Recorded ns s' where
  access j cell hj := by
    rcases cell_origin hc hj with ho | ⟨v, ex, rfl, rfl⟩
    · exact h.access j cell ho
    · obtain ⟨n, hn, he⟩ := hg
      simp only [NewSession.setAccess, Cmd.set.injEq, Key.access.injEq] at he
      exact ⟨n, hS t n hn, he.1.symm, he.2.1⟩
  refresh rh cell hj := by
    rcases cell_origin hc hj with ho | ⟨v, ex, rfl, rfl⟩
    · exact h.refresh rh cell ho
    · obtain ⟨n, hn, -, he⟩ := hg
      simp only [NewSession.setRefresh, Cmd.set.injEq, Key.refresh.injEq] at he
      exact ⟨n, hS t n hn, he.1.symm, he.2.1⟩

/-- What is read at an access key is a created session's record. -/
theorem Recorded.get_access {ns : List NewSession} {j : Jti} {raw : Raw} (h : Recorded ns s)
    (hr : s.strings.get s.now (.access j) = some raw) :
    ∃ n ∈ ns, n.accessJti = j ∧ raw = n.accessRecord := by
  obtain ⟨cell, hc, -, hv⟩ := Table.get_eq_some.1 hr
  obtain ⟨n, hn, hj, hval⟩ := h.access j cell hc
  exact ⟨n, hn, hj, hv ▸ hval⟩

theorem Recorded.get_refresh {ns : List NewSession} {rh : RefreshHash} {raw : Raw}
    (h : Recorded ns s) (hr : s.strings.get s.now (.refresh rh) = some raw) :
    ∃ n ∈ ns, n.refreshHash = rh ∧ raw = n.refreshRecord := by
  obtain ⟨cell, hc, -, hv⟩ := Table.get_eq_some.1 hr
  obtain ⟨n, hn, hj, hval⟩ := h.refresh rh cell hc
  exact ⟨n, hn, hj, hv ▸ hval⟩

end Session
