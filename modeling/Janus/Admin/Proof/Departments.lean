import Janus.Admin.Proof.DepartmentOrder

/-!
# The invariant of the department requests

A child is created under the row lock of its parent, and a department is deleted under its own. A
department that is moved and a user that is attached are put under a row that is not locked. `Inv`
says what the open transactions have seen and written, and that it still holds: a department on which
something is `Pending` is active and has not been found empty by a delete that is still open, and
the parents together with the moves under way have no cycle (`Leads`). `Inv.keep` is for the
statements inside a transaction, `Inv.commit` and `Inv.rollback` for its end.
-/

set_option autoImplicit false

namespace Departments

open Conc Sql Forest

/-! ## The parents -/

section Up

variable {db db' : Database} {d q : DeptId}

theorem up_eq_some : up db d = some q ↔
    ∃ row, db (.dept d) = some row ∧ row.isDeleted = false ∧ row.parentId = some q := by
  simp [up, Option.bind_eq_some_iff, Option.filter_eq_some_iff, and_assoc]

theorem Active.congr (h : Active db d) (he : db' (.dept d) = db (.dept d)) : Active db' d := by
  unfold Active at h ⊢
  rwa [he]

theorem department_eq_some {ι : Type} {s : State ι} {i : ι} {row : Department} :
    s.department i d = some row ↔ s.view i (.dept d) = some row ∧ row.isDeleted = false := by
  simp [State.department, Option.filter_eq_some_iff]

theorem user_eq_some {ι : Type} {s : State ι} {i : ι} {u : UserId} {row : User} :
    s.user i u = some row ↔ s.view i (.user u) = some row ∧ row.isDeleted = false := by
  simp [State.user, Option.filter_eq_some_iff]

theorem parentIn_eq_up {allDepts : List (DeptId × Department)}
    (hall : ∀ d row, (d, row) ∈ allDepts ↔ db (.dept d) = some row ∧ row.isDeleted = false) :
    parentIn allDepts = up db := by
  funext c
  cases hfound : allDepts.lookup c with
  | none =>
    have hup : up db c = none := by
      refine Option.eq_none_iff_forall_ne_some.2 fun q hq => ?_
      obtain ⟨row, hrow, hactive, -⟩ := up_eq_some.1 hq
      have hne := List.lookup_eq_none_iff.1 hfound _ ((hall c row).2 ⟨hrow, hactive⟩)
      simp at hne
    rw [hup, parentIn, hfound]
    rfl
  | some row =>
    obtain ⟨hrow, hactive⟩ := (hall c row).1 (mem_of_lookup hfound)
    rw [parentIn, hfound, up, hrow]
    simp [Option.filter, hactive]

/-- The walk misses no ancestor. -/
theorem not_above_of_meets {allDepts : List (DeptId × Department)}
    (hall : ∀ d row, (d, row) ∈ allDepts ↔ db (.dept d) = some row ∧ row.isDeleted = false)
    (h : meets allDepts d q = false) : ¬ Above (up db) q d := by
  have hkeys : ∀ a b, parentIn allDepts a = some b → a ∈ allDepts.map Prod.fst := by
    intro a b hab
    obtain ⟨row, hfound, -⟩ := Option.bind_eq_some_iff.1 hab
    exact List.mem_map_of_mem (mem_of_lookup hfound)
  rw [← parentIn_eq_up hall]
  refine not_above_of_climbs hkeys h ?_ nofun (.inr rfl)
  simp [Forest.rounds, Forest.unseen]

end Up

/-! ## The invariant -/

section Writes

variable {ι : Type} {i : ι} {d q : DeptId} {call : Call} {db db' : Database} {t t' : Tr ι}

/-- The call has found `q`, under which it puts a row without locking `q`. -/
def Pending (call : Call) (i : ι) (t : Tr ι) (q : DeptId) : Prop :=
  call.attaches = some q ∧ Found i t q ∧ ¬ Finished i t

/-- The call moves `d` under `q` and has checked that. -/
def Moving (call : Call) (i : ι) (t : Tr ι) (d q : DeptId) : Prop :=
  call.Moves d q ∧ Checked i t d q ∧ ¬ Finished i t

theorem Moving.pending (h : Moving call i t d q) : Pending call i t q := by
  obtain ⟨⟨payload, rfl, hparent⟩, hchecked, hopen⟩ := h
  refine ⟨?_, hchecked.1, hopen⟩
  simp [Call.attaches, hparent]

/-- What a written department row is. -/
inductive DeptWrite (call : Call) (db : Database) (i : ι) (t : Tr ι) (d : DeptId)
    (row : Department) : Prop
  | created {payload : DepartmentCreate} : call = .createDepartment d payload →
      db (.dept d) = none → row.isDeleted = false → row.parentId = payload.parentId →
      (∀ q, payload.parentId = some q → Locked i t q) → DeptWrite call db i t d row
  | kept {values : DepartmentUpdate} {old : Department} : call = .updateDepartment d values →
      db (.dept d) = some old → row.isDeleted = old.isDeleted → row.parentId = old.parentId →
      DeptWrite call db i t d row
  | moved {values : DepartmentUpdate} {old : Department} : call = .updateDepartment d values →
      db (.dept d) = some old → row.isDeleted = old.isDeleted →
      (∀ q, row.parentId = some q → Moving call i t d q) → DeptWrite call db i t d row
  | deleted : call.Deletes → row.isDeleted = true → Emptied i t d → DeptWrite call db i t d row

/-- What a written user row is. -/
inductive UserWrite (call : Call) (db : Database) (i : ι) (t : Tr ι) (u : UserId) (row : User) :
    Prop
  | attached : ¬ call.Deletes → (∀ q, row.departmentId = some q → Pending call i t q) →
      UserWrite call db i t u row
  | kept {old : User} : ¬ call.Deletes → db (.user u) = some old →
      row.isDeleted = old.isDeleted → row.departmentId = old.departmentId →
      UserWrite call db i t u row

/-- A written row stays what it is while the committed row does not change and the transaction goes
on. -/
theorem DeptWrite.mono {row : Department} (h : DeptWrite call db i t d row) (hs : t ⊆ t')
    (hopen : ¬ Finished i t → ¬ Finished i t') (he : db' (.dept d) = db (.dept d)) :
    DeptWrite call db' i t' d row := by
  cases h with
  | created hcall hnone hactive hparent hlocked =>
    exact .created hcall (he.trans hnone) hactive hparent fun q hq => (hlocked q hq).mono hs
  | kept hcall hold hsame hparent => exact .kept hcall (he.trans hold) hsame hparent
  | moved hcall hold hsame hmoving =>
    refine .moved hcall (he.trans hold) hsame fun q hq => ?_
    obtain ⟨hmoves, hchecked, hopen'⟩ := hmoving q hq
    exact ⟨hmoves, hchecked.mono hs, hopen hopen'⟩
  | deleted hcall hdeleted hemptied => exact .deleted hcall hdeleted (hemptied.mono hs)

theorem UserWrite.mono {u : UserId} {row : User} (h : UserWrite call db i t u row) (hs : t ⊆ t')
    (hopen : ¬ Finished i t → ¬ Finished i t') (he : db' (.user u) = db (.user u)) :
    UserWrite call db' i t' u row := by
  cases h with
  | attached hcall hpending =>
    refine .attached hcall fun q hq => ?_
    obtain ⟨hattaches, hfound, hopen'⟩ := hpending q hq
    exact ⟨hattaches, hfound.mono hs, hopen hopen'⟩
  | kept hcall hold hsame hdept => exact .kept hcall (he.trans hold) hsame hdept

end Writes

section Inv

variable {ι : Type} [DecidableEq ι] {i j : ι} {d q : DeptId} {call : ι → Call} {s s' : State ι}
  {l : Log ι (ι × Stmt) Resp}

/-- `q` is the parent of `d`, or a move of `d` under `q` is under way. -/
def Leads (call : ι → Call) (db : Database) (l : Log ι (ι × Stmt) Resp) (d q : DeptId) : Prop :=
  up db d = some q ∨ ∃ j, Moving (call j) j (own j l) d q

/-- What the open transactions have seen still holds. -/
structure Inv (call : ι → Call) (s : State ι) (l : Log ι (ι × Stmt) Resp) : Prop where
  sound : s.Sound
  parents : ∀ d q, up s.committed d = some q → Active s.committed q
  members : ∀ u row d, s.committed (.user u) = some row → row.isDeleted = false →
    row.departmentId = some d → Active s.committed d
  dept : ∀ i d row, s.writes i (.dept d) = some row →
    DeptWrite (call i) s.committed i (own i l) d row
  user : ∀ i u row, s.writes i (.user u) = some row →
    UserWrite (call i) s.committed i (own i l) u row
  locked : ∀ i d, Locked i (own i l) d → ¬ Finished i (own i l) →
    s.locks (.dept d) = some i ∧ Active s.committed d
  childless : ∀ i d, Emptied i (own i l) d → ¬ Finished i (own i l) →
    ∀ c, up s.committed c = some d → ∃ row, s.writes i (.dept c) = some row ∧ row.isDeleted = true
  memberless : ∀ i d, Emptied i (own i l) d → ¬ Finished i (own i l) →
    ∀ u row, s.committed (.user u) = some row → row.isDeleted = false → row.departmentId ≠ some d
  pending : ∀ i q, Pending (call i) i (own i l) q → Active s.committed q ∧
    ∀ j, Emptied j (own j l) q → Finished j (own j l)
  rooted : Rooted (Leads call s.committed l)

theorem Inv.consistent (h : Inv call s l) : Consistent s.committed :=
  ⟨h.parents, h.members, h.rooted.anti fun _ _ hab => .inl hab⟩

section Event

variable {k : ι} {e : Event (ι × Stmt) Resp}

/-- What a transaction has seen is old, or it is the new event. -/
theorem saw_cons {st : Stmt} {r : st.Answer} (hs : Saw k (own k ((i, e) :: l)) st r) :
    Saw k (own k l) st r ∨ (k = i ∧ e = ⟨(i, st), .ok r⟩) := by
  by_cases hik : i = k
  · subst hik
    rw [own_cons_self] at hs
    rcases List.mem_cons.1 hs with heq | hs
    · exact .inr ⟨rfl, heq.symm⟩
    · exact .inl hs
  · rw [own_cons_ne hik] at hs
    exact .inl hs

theorem emptied_cons (hs : Emptied k (own k ((i, e) :: l)) d) : Emptied k (own k l) d ∨
    (k = i ∧ Emptied i (e :: own i l) d ∧ ¬ Emptied i (own i l) d) := by
  by_cases hold : Emptied k (own k l) d
  · exact .inl hold
  · by_cases hik : i = k
    · subst hik
      rw [own_cons_self] at hs
      exact .inr ⟨rfl, hs, hold⟩
    · rw [own_cons_ne hik] at hs
      exact absurd hs hold

/-- A transaction that the event does not end stays open. -/
theorem open_cons (hends : ¬ Finished i (own i l) → ¬ Finished i (e :: own i l))
    (hk : ¬ Finished k (own k l)) : ¬ Finished k (own k ((i, e) :: l)) := by
  by_cases hik : i = k
  · subst hik
    rw [own_cons_self]
    exact hends hk
  · rw [own_cons_ne hik]
    exact hk

theorem open_of_cons (hk : ¬ Finished k (own k ((i, e) :: l))) : ¬ Finished k (own k l) :=
  fun hf => hk (hf.mono (own_subset_cons k (i, e) l))

/-- A move is old, or it has just passed its walk. -/
theorem leads_cons {db : Database} (hab : Leads call db ((i, e) :: l) d q) : Leads call db l d q ∨
    (Moving (call i) i (e :: own i l) d q ∧ ¬ Checked i (own i l) d q) := by
  rcases hab with hup | ⟨k, hm⟩
  · exact .inl (.inl hup)
  · by_cases hold : Checked k (own k l) d q
    · exact .inl (.inr ⟨k, hm.1, hold, open_of_cons hm.2.2⟩)
    · by_cases hik : i = k
      · subst hik
        rw [own_cons_self] at hm
        exact .inr ⟨hm, hold⟩
      · rw [own_cons_ne hik] at hm
        exact absurd hm.2.1 hold

omit [DecidableEq ι] in
/-- A call moves one department under one parent. -/
theorem Moving.unique {t : Trace (ι × Stmt) Resp} {d' q' : DeptId} (h : Moving (call i) i t d q)
    (h' : Moving (call i) i t d' q') : d' = d ∧ q' = q := by
  obtain ⟨⟨payload, hcall, hparent⟩, -⟩ := h
  obtain ⟨⟨payload', hcall', hparent'⟩, -⟩ := h'
  rw [hcall] at hcall'
  injection hcall' with hd hpayload
  rw [← hpayload, hparent] at hparent'
  injection hparent' with hq
  injection hq with hq
  exact ⟨hd.symm, hq.symm⟩

/-- A new move whose place is not below its department closes no cycle. -/
theorem Inv.rooted_cons (h : Inv call s l)
    (hmoving : ∀ d q, Moving (call i) i (e :: own i l) d q → ¬ Checked i (own i l) d q →
      ¬ Relation.ReflTransGen (Leads call s.committed l) q d) :
    Rooted (Leads call s.committed ((i, e) :: l)) := by
  by_cases hfresh : ∃ d q, Moving (call i) i (e :: own i l) d q ∧ ¬ Checked i (own i l) d q
  · obtain ⟨d, q, hm, hnew⟩ := hfresh
    refine h.rooted.insert (hmoving d q hm hnew) fun a b hab => ?_
    exact (leads_cons hab).imp_right fun hab => hm.unique hab.1
  · exact h.rooted.anti fun a b hab =>
      (leads_cons hab).resolve_right fun hnew => hfresh ⟨a, b, hnew⟩

/-- A place that is waited for stays: nobody finds it empty who has not ended. -/
theorem Inv.pending_cons (h : Inv call s l)
    (hemptied : ∀ d, Emptied i (e :: own i l) d → ¬ Emptied i (own i l) d →
      ∀ k, ¬ Pending (call k) k (own k l) d)
    (hpending : ∀ q row, e = ⟨(i, .getDepartment q), .ok (some row)⟩ →
      (call i).attaches = some q → Active s.committed q ∧
        ∀ j, Emptied j (own j l) q → Finished j (own j l))
    (hk : Pending (call k) k (own k ((i, e) :: l)) q) : Active s.committed q ∧
      ∀ j, Emptied j (own j ((i, e) :: l)) q → Finished j (own j ((i, e) :: l)) := by
  obtain ⟨hattaches, ⟨row, hs⟩, hf⟩ := hk
  have hnow : Active s.committed q ∧ ∀ j, Emptied j (own j l) q → Finished j (own j l) := by
    rcases saw_cons hs with hold | ⟨rfl, heq⟩
    · exact h.pending k q ⟨hattaches, ⟨row, hold⟩, open_of_cons hf⟩
    · exact hpending q row heq hattaches
  refine ⟨hnow.1, fun j hj => ?_⟩
  rcases emptied_cons hj with hold | ⟨rfl, hnew, hfresh⟩
  · exact (hnow.2 j hold).mono (own_subset_cons j (i, e) l)
  · rcases saw_cons hs with hold | ⟨-, heq⟩
    · exact absurd ⟨hattaches, ⟨row, hold⟩, open_of_cons hf⟩ (hemptied q hnew hfresh k)
    · -- the event is not both
      subst heq
      refine absurd ⟨?_, ?_⟩ hfresh
      · exact (List.mem_cons.1 hnew.1).resolve_left nofun
      · exact (List.mem_cons.1 hnew.2).resolve_left nofun

end Event

/-- A statement inside a transaction: it commits nothing and ends nothing. -/
theorem Inv.keep {e : Event (ι × Stmt) Resp} (h : Inv call s l)
    (hcommitted : s'.committed = s.committed) (hsound : s'.Sound)
    (hheld : ∀ k j, s.locks k = some j → s'.locks k = some j)
    (hdept : ∀ j d row, s'.writes j (.dept d) = some row → s.writes j (.dept d) = some row ∨
      DeptWrite (call j) s.committed j (own j ((i, e) :: l)) d row)
    (huser : ∀ j u row, s'.writes j (.user u) = some row → s.writes j (.user u) = some row ∨
      UserWrite (call j) s.committed j (own j ((i, e) :: l)) u row)
    (hdeleted : ∀ j c row, s.writes j (.dept c) = some row → row.isDeleted = true →
      ∃ row', s'.writes j (.dept c) = some row' ∧ row'.isDeleted = true)
    (hends : ¬ Finished i (own i l) → ¬ Finished i (e :: own i l))
    (hlocked : ∀ d row, e = ⟨(i, .getForUpdate d), .ok (some row)⟩ →
      s'.locks (.dept d) = some i ∧ Active s.committed d)
    (hemptied : ∀ d, Emptied i (e :: own i l) d → ¬ Emptied i (own i l) d →
      (∀ c, up s.committed c = some d →
        ∃ row, s.writes i (.dept c) = some row ∧ row.isDeleted = true) ∧
      (∀ u row, s.committed (.user u) = some row → row.isDeleted = false →
        row.departmentId ≠ some d) ∧
      ∀ k, ¬ Pending (call k) k (own k l) d)
    (hpending : ∀ q row, e = ⟨(i, .getDepartment q), .ok (some row)⟩ →
      (call i).attaches = some q → Active s.committed q ∧
        ∀ j, Emptied j (own j l) q → Finished j (own j l))
    (hmoving : ∀ d q, Moving (call i) i (e :: own i l) d q → ¬ Checked i (own i l) d q →
      ¬ Relation.ReflTransGen (Leads call s.committed l) q d) :
    Inv call s' ((i, e) :: l) := by
  have hsub (k : ι) := own_subset_cons k (i, e) l
  refine ⟨hsound, ?_, ?_, ?_, ?_, ?_, ?_, ?_, ?_, ?_⟩ <;> rw [hcommitted]
  · exact h.parents
  · exact h.members
  · intro k d row hw
    rcases hdept k d row hw with hold | hnew
    · exact (h.dept k d row hold).mono (hsub k) (fun hk => open_cons hends hk) rfl
    · exact hnew
  · intro k u row hw
    rcases huser k u row hw with hold | hnew
    · exact (h.user k u row hold).mono (hsub k) (fun hk => open_cons hends hk) rfl
    · exact hnew
  · rintro k d ⟨row, hs⟩ hf
    rcases saw_cons hs with hold | ⟨rfl, heq⟩
    · obtain ⟨hlock, hactive⟩ := h.locked k d ⟨row, hold⟩ (open_of_cons hf)
      exact ⟨hheld _ _ hlock, hactive⟩
    · exact hlocked d row heq
  · intro k d hs hf c hc
    have hw : ∃ row, s.writes k (.dept c) = some row ∧ row.isDeleted = true := by
      rcases emptied_cons hs with hold | ⟨rfl, hnew, hfresh⟩
      · exact h.childless k d hold (open_of_cons hf) c hc
      · exact (hemptied d hnew hfresh).1 c hc
    obtain ⟨row, hrow, hdel⟩ := hw
    exact hdeleted k c row hrow hdel
  · intro k d hs hf u row hrow
    rcases emptied_cons hs with hold | ⟨rfl, hnew, hfresh⟩
    · exact h.memberless k d hold (open_of_cons hf) u row hrow
    · exact (hemptied d hnew hfresh).2.1 u row hrow
  · exact fun k q hk => h.pending_cons (fun d hd hfresh => (hemptied d hd hfresh).2.2) hpending hk
  · exact h.rooted_cons hmoving

/-! ## The end of a transaction -/

/-- The end of a transaction that leaves `db'` committed. -/
theorem Inv.finish {e : Event (ι × Stmt) Resp} {db' : Database} (h : Inv call s l)
    (hends : Finished i (e :: own i l)) (hconsistent : Consistent db')
    (hrows : ∀ k j, j ≠ i → s.locks k = some j → db' k = s.committed k)
    (hchildless : ∀ j d, j ≠ i → Emptied j (own j l) d → ¬ Finished j (own j l) →
      ∀ c, up db' c = some d → up s.committed c = some d)
    (hmemberless : ∀ j d, j ≠ i → Emptied j (own j l) d → ¬ Finished j (own j l) →
      ∀ u row, db' (.user u) = some row → row.isDeleted = false → row.departmentId = some d →
        ∃ row', s.committed (.user u) = some row' ∧ row'.isDeleted = false ∧
          row'.departmentId = some d)
    (hpending : ∀ j q, j ≠ i → Pending (call j) j (own j l) q → Active db' q)
    (hrooted : Rooted fun d q => up db' d = some q ∨ Leads call s.committed l d q) :
    Inv call (s.finish i db') ((i, e) :: l) := by
  -- nothing is said of a transaction that has ended, and nothing new of the others
  have hother (k : ι) (hopen : ¬ Finished k (own k ((i, e) :: l))) :
      k ≠ i ∧ own k ((i, e) :: l) = own k l := by
    by_cases hik : i = k
    · subst hik
      rw [own_cons_self] at hopen
      exact absurd hends hopen
    · exact ⟨Ne.symm hik, own_cons_ne hik _ _⟩
  have hwriter (k : ι) (key : RowId) (v : Row key) (hw : (s.finish i db').writes k key = some v) :
      k ≠ i ∧ s.writes k key = some v := by
    by_cases hki : k = i
    · subst hki
      simp at hw
    · rw [Rows.finish_writes_other hki] at hw
      exact ⟨hki, hw⟩
  refine ⟨h.sound.finish db', hconsistent.parents, hconsistent.members, ?_, ?_, ?_, ?_, ?_, ?_, ?_⟩
  · intro k d row hw
    obtain ⟨hki, hw⟩ := hwriter k _ row hw
    rw [own_cons_ne (Ne.symm hki)]
    exact (h.dept k d row hw).mono (List.Subset.refl _) id (hrows _ k hki (h.sound k _ row hw))
  · intro k u row hw
    obtain ⟨hki, hw⟩ := hwriter k _ row hw
    rw [own_cons_ne (Ne.symm hki)]
    exact (h.user k u row hw).mono (List.Subset.refl _) id (hrows _ k hki (h.sound k _ row hw))
  · intro k d hlocked hopen
    obtain ⟨hki, hown⟩ := hother k hopen
    rw [hown] at hlocked hopen
    obtain ⟨hlock, hactive⟩ := h.locked k d hlocked hopen
    exact ⟨Rows.finish_locks.2 ⟨hlock, hki⟩, hactive.congr (hrows _ k hki hlock)⟩
  · intro k d hemptied hopen c hc
    obtain ⟨hki, hown⟩ := hother k hopen
    rw [hown] at hemptied hopen
    rw [Rows.finish_writes_other hki]
    exact h.childless k d hemptied hopen c (hchildless k d hki hemptied hopen c hc)
  · intro k d hemptied hopen u row hrow hactive hdept
    obtain ⟨hki, hown⟩ := hother k hopen
    rw [hown] at hemptied hopen
    obtain ⟨row', hrow', hactive', hdept'⟩ :=
      hmemberless k d hki hemptied hopen u row hrow hactive hdept
    exact h.memberless k d hemptied hopen u row' hrow' hactive' hdept'
  · intro k q hp
    obtain ⟨hki, hown⟩ := hother k hp.2.2
    rw [hown] at hp
    refine ⟨hpending k q hki hp, fun j hj => ?_⟩
    by_cases hji : i = j
    · subst hji
      rw [own_cons_self]
      exact hends
    · rw [own_cons_ne hji] at hj ⊢
      exact (h.pending k q hp).2 j hj
  · refine hrooted.anti fun a b hab => ?_
    rcases hab with hup | ⟨k, hm⟩
    · exact .inl hup
    · obtain ⟨-, hown⟩ := hother k hm.2.2
      rw [hown] at hm
      exact .inr (.inr ⟨k, hm⟩)

/-- An active department stays one, unless it is deleted after it was found empty. -/
theorem Inv.active_view (h : Inv call s l) (hq : Active s.committed q) :
    Active (s.view i) q ∨ ((call i).Deletes ∧ Emptied i (own i l) q) := by
  obtain ⟨old, hold, hactive⟩ := hq
  cases hw : s.writes i (.dept q) with
  | none => exact .inl ⟨old, (Rows.view_of_unwritten hw).trans hold, hactive⟩
  | some row =>
    have hview : s.view i (.dept q) = some row := Rows.view_of_written hw
    cases h.dept i q row hw with
    | created _ _ hrow _ _ => exact .inl ⟨row, hview, hrow⟩
    | kept _ hold' hsame _ | moved _ hold' hsame _ =>
      rw [hold] at hold'
      injection hold' with hold'
      rw [← hold'] at hsame
      exact .inl ⟨row, hview, hsame.trans hactive⟩
    | deleted hdeletes _ hemptied => exact .inr ⟨hdeletes, hemptied⟩

/-- The parent of a department is an old one, or that of the row that the call creates or moves. -/
theorem Inv.up_view (h : Inv call s l) (hup : up (s.view i) d = some q) :
    up s.committed d = some q ∨ (¬ (call i).Deletes ∧
      ((s.committed (.dept d) = none ∧ Locked i (own i l) q ∧
          ∃ payload, call i = .createDepartment d payload) ∨
        Moving (call i) i (own i l) d q)) := by
  obtain ⟨row, hrow, hactive, hparent⟩ := up_eq_some.1 hup
  cases hw : s.writes i (.dept d) with
  | none =>
    rw [Rows.view_of_unwritten hw] at hrow
    exact .inl (up_eq_some.2 ⟨row, hrow, hactive, hparent⟩)
  | some row' =>
    rw [Rows.view_of_written hw] at hrow
    injection hrow with heq
    subst heq
    cases h.dept i d row' hw with
    | created hcall hnone _ hpayload hlocked =>
      refine .inr ⟨?_, .inl ⟨hnone, hlocked q (hpayload.symm.trans hparent), _, hcall⟩⟩
      rw [hcall]
      exact id
    | kept _ hold hsame hkept =>
      exact .inl (up_eq_some.2 ⟨_, hold, hsame.symm.trans hactive, hkept.symm.trans hparent⟩)
    | moved hcall _ _ hmoving =>
      refine .inr ⟨?_, .inr (hmoving q hparent)⟩
      rw [hcall]
      exact id
    | deleted _ hdeleted _ =>
      rw [hactive] at hdeleted
      cases hdeleted

/-- The department of an active user is an old one, or the call attaches the user to it. -/
theorem Inv.member_view (h : Inv call s l) {u : UserId} {row : User}
    (hrow : s.view i (.user u) = some row) (hactive : row.isDeleted = false)
    (hdept : row.departmentId = some d) :
    (∃ row', s.committed (.user u) = some row' ∧ row'.isDeleted = false ∧
      row'.departmentId = some d) ∨ (¬ (call i).Deletes ∧ Pending (call i) i (own i l) d) := by
  cases hw : s.writes i (.user u) with
  | none =>
    rw [Rows.view_of_unwritten hw] at hrow
    exact .inl ⟨row, hrow, hactive, hdept⟩
  | some row' =>
    rw [Rows.view_of_written hw] at hrow
    injection hrow with heq
    subst heq
    cases h.user i u row' hw with
    | attached hcall hpending => exact .inr ⟨hcall, hpending d hdept⟩
    | kept _ hold hsame hkept =>
      exact .inl ⟨_, hold, hsame.symm.trans hactive, hkept.symm.trans hdept⟩

/-- The parents after a commit, with the moves under way, have no cycle: a department that is created
is not above its parent, and a move of the transaction was under way. -/
theorem Inv.rooted_view (h : Inv call s l) (hopen : ¬ Finished i (own i l)) :
    Rooted fun d q => up (s.view i) d = some q ∨ Leads call s.committed l d q := by
  by_cases hnew : ∃ d q, up (s.view i) d = some q ∧ ¬ Leads call s.committed l d q
  · obtain ⟨d, q, hup, hfresh⟩ := hnew
    obtain ⟨-, hcreated | hm⟩ := (h.up_view hup).resolve_left fun hold => hfresh (.inl hold)
    · obtain ⟨hnone, hlocked, payload, hcall⟩ := hcreated
      have hinactive : ¬ Active s.committed d := by
        rintro ⟨row, hrow, -⟩
        rw [hnone] at hrow
        cases hrow
      refine h.rooted.insert (d := d) (q := q) ?_ fun a b hab => ?_
      · intro hback
        rcases Relation.ReflTransGen.cases_tail hback with heq | ⟨c, -, hc⟩
        · rw [heq] at hinactive
          exact hinactive (h.locked i q hlocked hopen).2
        · rcases hc with hc | ⟨j, hm⟩
          · exact hinactive (h.parents c d hc)
          · exact hinactive (h.pending j d hm.pending).1
      · rcases hab with hab | hab
        · rcases h.up_view hab with hold | ⟨-, ⟨-, -, payload', hcall'⟩ | hm⟩
          · exact .inl (.inl hold)
          · rw [hcall] at hcall'
            injection hcall' with hda
            subst hda
            rw [hup] at hab
            injection hab with hqb
            exact .inr ⟨rfl, hqb.symm⟩
          · exact .inl (.inr ⟨i, hm⟩)
        · exact .inl hab
    · exact absurd (.inr ⟨i, hm⟩) hfresh
  · refine h.rooted.anti fun d q hdq => ?_
    rcases hdq with hup | hold
    · by_contra hfresh
      exact hnew ⟨d, q, hup, hfresh⟩
    · exact hold

theorem Inv.consistent_view (h : Inv call s l) (hopen : ¬ Finished i (own i l)) :
    Consistent (s.view i) := by
  refine ⟨fun d q hup => ?_, fun u row d hrow hactive hdept => ?_, ?_⟩
  · have hq : Active s.committed q := by
      rcases h.up_view hup with hold | ⟨-, ⟨-, hlocked, -⟩ | hm⟩
      · exact h.parents d q hold
      · exact (h.locked i q hlocked hopen).2
      · exact (h.pending i q hm.pending).1
    refine (h.active_view hq).resolve_right ?_
    rintro ⟨hdeletes, hemptied⟩
    -- the child was deleted as well
    have hold := (h.up_view hup).resolve_right fun hnew => hnew.1 hdeletes
    obtain ⟨row, hw, hdeleted⟩ := h.childless i q hemptied hopen d hold
    obtain ⟨row', hrow', hactive, -⟩ := up_eq_some.1 hup
    rw [Rows.view_of_written hw] at hrow'
    injection hrow' with heq
    rw [heq, hactive] at hdeleted
    cases hdeleted
  · have hd : Active s.committed d := by
      rcases h.member_view hrow hactive hdept with ⟨row', hrow', hactive', hdept'⟩ | ⟨-, hp⟩
      · exact h.members u row' d hrow' hactive' hdept'
      · exact (h.pending i d hp).1
    refine (h.active_view hd).resolve_right ?_
    rintro ⟨hdeletes, hemptied⟩
    obtain ⟨row', hrow', hactive', hdept'⟩ :=
      (h.member_view hrow hactive hdept).resolve_right fun hnew => hnew.1 hdeletes
    exact h.memberless i d hemptied hopen u row' hrow' hactive' hdept'
  · exact (h.rooted_view hopen).anti fun _ _ hup => .inl hup

theorem Inv.commit {e : Event (ι × Stmt) Resp} (h : Inv call s l)
    (hopen : ¬ Finished i (own i l)) (hends : Finished i (e :: own i l))
    (hguard : ∀ j d, Emptied j (own j l) d → Locked j (own j l) d) :
    Inv call (s.commit i) ((i, e) :: l) := by
  refine h.finish hends (h.consistent_view hopen) ?_ ?_ ?_ ?_ (h.rooted_view hopen)
  · intro k j hji hlock
    exact h.sound.view_of_locked hlock (Ne.symm hji)
  · intro j d hji hemptied hopen' c hc
    refine (h.up_view hc).resolve_right ?_
    rintro ⟨-, ⟨-, hlocked, -⟩ | hm⟩
    · have hlock := (h.locked j d (hguard j d hemptied) hopen').1
      rw [(h.locked i d hlocked hopen).1] at hlock
      injection hlock with heq
      exact hji heq.symm
    · exact hopen' ((h.pending i d hm.pending).2 j hemptied)
  · intro j d _ hemptied hopen' u row hrow hactive hdept
    refine (h.member_view hrow hactive hdept).resolve_right ?_
    rintro ⟨-, hp⟩
    exact hopen' ((h.pending i d hp).2 j hemptied)
  · intro j q _ hp
    obtain ⟨hactive, hfound⟩ := h.pending j q hp
    exact (h.active_view hactive).resolve_right fun hdel => hopen (hfound i hdel.2)

theorem Inv.rollback {e : Event (ι × Stmt) Resp} (h : Inv call s l)
    (hends : Finished i (e :: own i l)) : Inv call (s.rollback i) ((i, e) :: l) := by
  refine h.finish hends h.consistent ?_ ?_ ?_ ?_ ?_
  · exact fun _ _ _ _ => rfl
  · exact fun _ _ _ _ _ _ hc => hc
  · exact fun _ _ _ _ _ _ row hrow hactive hdept => ⟨row, hrow, hactive, hdept⟩
  · exact fun j q _ hp => (h.pending j q hp).1
  · exact h.rooted.anti fun _ _ hab => hab.elim .inl id

end Inv

end Departments
