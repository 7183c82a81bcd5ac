import Janus.Admin.Proof.Departments

/-!
# The department forest under concurrent requests

`Careful` rules out that a delete finds a department empty while a child or a user is on its way to
it, and that two moves on their way to each other close a cycle: nothing but row locks on the parent,
which neither `update_department` nor the user service takes, would prevent that (`orphaned`). In
every careful run all that is committed is a consistent forest (`forest_consistent`).
-/

set_option autoImplicit false

namespace Departments

open Conc Sql Forest

section Runs

variable {ι : Type} [DecidableEq ι] {call : ι → Call}

/-- Nothing is put under a department that an open delete has found empty, or the other way round,
and no move closes a cycle with the moves under way. -/
def Careful (call : ι → Call) (s : State ι) (l : Log ι (ι × Stmt) Resp) (i : ι) : Stmt → Prop
  | .getDepartment q => (call i).attaches = some q → ∀ j, Emptied j (own j l) q → Finished j (own j l)
  | .hasActiveMembers d =>
    (∃ u row, s.user i u = some row ∧ row.departmentId = some d) ∨
      ((∀ c row, s.department i c = some row → row.parentId ≠ some d) ∧
        ∀ j, ¬ Pending (call j) j (own j l) d)
  | .listAll => ∀ d q, (call i).Moves d q →
    Above (up (s.view i)) q d ∨ ¬ Relation.ReflTransGen (Leads call s.committed l) q d
  | _ => True

/-- If the step is a statement, it is a careful one. -/
def StepsCarefully (call : ι → Call) (P P' : Requests ι) : Prop :=
  ∀ i st r, P'.log = (i, ⟨(i, st), r⟩) :: P.log → Careful call P.shared P.log i st

/-- The runs all of whose statements are careful. -/
abbrev CarefulReach (call : ι → Call) : Requests ι → Requests ι → Prop :=
  Relation.ReflTransGen fun P P' =>
    Pool.Step sem (fun _ _ => False) P P' ∧ StepsCarefully call P P'

theorem CarefulReach.reach {P₀ P : Requests ι} (h : CarefulReach call P₀ P) :
    Pool.Reach sem (fun _ _ => False) P₀ P := by
  induction h with
  | refl => exact .refl
  | tail _ hstep ih => exact ih.tail hstep.1

end Runs

/-! ## What a statement tells -/

section Tells

variable {ι : Type} {i : ι} {t : Tr ι} {d q : DeptId} {e : Event (ι × Stmt) Resp}

/-- What was seen is the last event, or was seen before. -/
theorem Saw.of_cons {st : Stmt} {r : st.Answer} (h : Saw i (e :: t) st r) :
    e = ⟨(i, st), .ok r⟩ ∨ Saw i t st r := (List.mem_cons.1 h).imp_left Eq.symm

theorem Saw.of_cons_ne {st st' : Stmt} {r : st.Answer} {x : Resp (i, st')}
    (h : Saw i (⟨(i, st'), x⟩ :: t) st r) (hne : st' ≠ st) : Saw i t st r := by
  refine h.of_cons.resolve_left fun heq => ?_
  injection heq with heq
  injection heq with _ heq
  exact hne heq

/-- The statements whose answers decide what is issued later, and the end of the transaction. -/
def Stmt.Tells : Stmt → Prop
  | .getDepartment _ | .getForUpdate _ | .listAll | .hasActiveChildren _ | .hasActiveMembers _
  | .commit | .rollback => True
  | _ => False

/-- An error, or an answer that decides nothing. -/
def Silent (i : ι) (e : Event (ι × Stmt) Resp) : Prop :=
  ∀ st r, e = ⟨(i, st), .ok r⟩ → ¬ st.Tells

theorem Silent.saw {st : Stmt} {r : st.Answer} (he : Silent i e) (h : Saw i (e :: t) st r)
    (ht : st.Tells) : Saw i t st r := h.of_cons.resolve_left fun heq => he st r heq ht

theorem silent_error {st : Stmt} {x : DatabaseError} : Silent i ⟨(i, st), .error x⟩ := by
  intro st' r heq
  injection heq with heq hval
  injection heq with _ heq
  subst heq
  cases hval

theorem silent_ok {st : Stmt} {r : st.Answer} (h : ¬ st.Tells) : Silent i ⟨(i, st), .ok r⟩ := by
  intro st' r' heq
  injection heq with heq
  injection heq with _ heq
  rwa [← heq]

theorem Silent.opens (he : Silent i e) (h : ¬ Finished i t) : ¬ Finished i (e :: t) := by
  intro hf
  exact h (hf.imp (fun hs => he.saw hs trivial) fun hs => he.saw hs trivial)

theorem Silent.emptied (he : Silent i e) (h : Emptied i (e :: t) d) : Emptied i t d :=
  ⟨he.saw h.1 trivial, he.saw h.2 trivial⟩

theorem Silent.checked (he : Silent i e) (h : Checked i (e :: t) d q) : Checked i t d q := by
  obtain ⟨⟨row, hfound⟩, allDepts, hall, hmeets⟩ := h
  exact ⟨⟨row, he.saw hfound trivial⟩, allDepts, he.saw hall trivial, hmeets⟩

theorem Emptied.of_cons_ne {st : Stmt} {x : Resp (i, st)}
    (h : Emptied i (⟨(i, st), x⟩ :: t) d)
    (hne : st ≠ .hasActiveChildren d ∧ st ≠ .hasActiveMembers d) : Emptied i t d :=
  ⟨h.1.of_cons_ne hne.1, h.2.of_cons_ne hne.2⟩

theorem Checked.of_cons_ne {st : Stmt} {x : Resp (i, st)}
    (h : Checked i (⟨(i, st), x⟩ :: t) d q) (hne : st ≠ .getDepartment q ∧ st ≠ .listAll) :
    Checked i t d q := by
  obtain ⟨⟨row, hfound⟩, allDepts, hall, hmeets⟩ := h
  exact ⟨⟨row, hfound.of_cons_ne hne.1⟩, allDepts, hall.of_cons_ne hne.2, hmeets⟩

/-- A statement that does not end the transaction. -/
theorem opens_of_ne {st : Stmt} {x : Resp (i, st)} (h : ¬ Finished i t)
    (hne : st ≠ .commit ∧ st ≠ .rollback) : ¬ Finished i (⟨(i, st), x⟩ :: t) := by
  rintro (hs | hs)
  · exact h (.inl (hs.of_cons_ne hne.1))
  · exact h (.inr (hs.of_cons_ne hne.2))

end Tells

/-! ## The statements -/

section Statements

variable {ι : Type} [DecidableEq ι] {i : ι} {d q : DeptId} {call : ι → Call} {s s' : State ι}
  {l : Log ι (ι × Stmt) Resp} {e : Event (ι × Stmt) Resp}

/-- A statement that leaves the rows and the locks as they are. -/
theorem Inv.read (h : Inv call s l) (hends : ¬ Finished i (own i l) → ¬ Finished i (e :: own i l))
    (hlocked : ∀ d row, e ≠ ⟨(i, .getForUpdate d), .ok (some row)⟩)
    (hemptied : ∀ d, Emptied i (e :: own i l) d → ¬ Emptied i (own i l) d →
      (∀ c, up s.committed c = some d →
        ∃ row, s.writes i (.dept c) = some row ∧ row.isDeleted = true) ∧
      (∀ u row, s.committed (.user u) = some row → row.isDeleted = false →
        row.departmentId ≠ some d) ∧
      ∀ k, ¬ Pending (call k) k (own k l) d)
    (hpending : ∀ q row, e = ⟨(i, .getDepartment q), .ok (some row)⟩ →
      (call i).attaches = some q → Active s.committed q ∧
        ∀ j, Emptied j (own j l) q → Finished j (own j l))
    (hmoving : ∀ d q, Moving (call i) i (e :: own i l) d q → ¬ Checked i (own i l) d q →
      ¬ Relation.ReflTransGen (Leads call s.committed l) q d) : Inv call s ((i, e) :: l) := by
  apply h.keep rfl h.sound
  · exact fun _ _ hk => hk
  · exact fun _ _ _ hw => .inl hw
  · exact fun _ _ _ hw => .inl hw
  · exact fun _ _ row hw hd => ⟨row, hw, hd⟩
  · exact hends
  · exact fun d row heq => absurd heq (hlocked d row)
  · exact hemptied
  · exact hpending
  · exact hmoving

/-- A statement that tells nothing and leaves the rows as they are. -/
theorem Inv.silent (h : Inv call s l) (he : Silent i e) : Inv call s ((i, e) :: l) := by
  apply h.read he.opens
  · exact fun d row heq => he _ _ heq trivial
  · exact fun d hnew hold => absurd (he.emptied hnew) hold
  · exact fun q row heq => absurd trivial (he _ _ heq)
  · exact fun d q hm hold => absurd (he.checked hm.2.1) hold

/-- A statement that tells nothing and writes one row. -/
theorem Inv.write {k : RowId} {v : Row k} (h : Inv call s l) (he : Silent i e)
    (hfree : s.Free i k)
    (hdept : ∀ d row, (⟨k, v⟩ : Sigma Row) = ⟨.dept d, row⟩ →
      DeptWrite (call i) s.committed i (e :: own i l) d row ∧
        ∀ old, s.writes i (.dept d) = some old → old.isDeleted = true → row.isDeleted = true)
    (huser : ∀ u row, (⟨k, v⟩ : Sigma Row) = ⟨.user u, row⟩ →
      UserWrite (call i) s.committed i (e :: own i l) u row) :
    Inv call (s.write i k v) ((i, e) :: l) := by
  refine h.keep rfl (h.sound.write hfree) (fun _ _ => Rows.write_held hfree) ?_ ?_ ?_ he.opens
    ?_ ?_ ?_ ?_
  · intro j d row hw
    rcases Rows.writes_write hw with ⟨rfl, heq⟩ | hold
    · rw [own_cons_self]
      exact .inr (hdept d row heq.symm).1
    · exact .inl hold
  · intro j u row hw
    rcases Rows.writes_write hw with ⟨rfl, heq⟩ | hold
    · rw [own_cons_self]
      exact .inr (huser u row heq.symm)
    · exact .inl hold
  · intro j c old hold hd
    by_cases hji : j = i
    · subst hji
      by_cases hk : .dept c = k
      · subst hk
        exact ⟨v, Rows.write_self, (hdept c v rfl).2 old hold hd⟩
      · rw [Rows.write_ne hk]
        exact ⟨old, hold, hd⟩
    · rw [Rows.write_other hji]
      exact ⟨old, hold, hd⟩
  · exact fun d row heq => absurd trivial (he _ _ heq)
  · exact fun d hnew hold => absurd (he.emptied hnew) hold
  · exact fun q row heq => absurd trivial (he _ _ heq)
  · exact fun d q hm hold => absurd (he.checked hm.2.1) hold

/-- A department that the transaction sees is an active one, or its own new one. -/
theorem Inv.active_of_seen {row : Department} (h : Inv call s l)
    (hseen : s.department i d = some row) : Active s.committed d ∨
      ∃ payload, call i = .createDepartment d payload ∧ s.committed (.dept d) = none ∧
        ∀ q, payload.parentId = some q → Locked i (own i l) q := by
  obtain ⟨hview, hactive⟩ := department_eq_some.1 hseen
  cases hw : s.writes i (.dept d) with
  | none =>
    rw [Rows.view_of_unwritten hw] at hview
    exact .inl ⟨row, hview, hactive⟩
  | some row' =>
    rw [Rows.view_of_written hw] at hview
    injection hview with heq
    subst heq
    cases h.dept i d row' hw with
    | created hcall hnone _ _ hlocked => exact .inr ⟨_, hcall, hnone, hlocked⟩
    | kept _ hold hsame _ | moved _ hold hsame _ => exact .inl ⟨_, hold, hsame.symm.trans hactive⟩
    | deleted _ hdeleted _ =>
      rw [hactive] at hdeleted
      cases hdeleted

theorem Inv.getDepartment {r : Option Department} (h : Inv call s l)
    (hguard : Trace.Guarded (TxIssues (call i) i) (own i l))
    (hcareful : Careful call s l i (.getDepartment q)) (hr : r = s.department i q) :
    Inv call s ((i, ⟨(i, .getDepartment q), .ok r⟩) :: l) := by
  apply h.read
  · exact fun hopen => opens_of_ne hopen ⟨nofun, nofun⟩
  · intro d row heq
    cases heq
  · exact fun d hnew hold => absurd (hnew.of_cons_ne ⟨nofun, nofun⟩) hold
  · intro q' row heq hattaches
    cases heq
    refine ⟨?_, hcareful hattaches⟩
    rcases h.active_of_seen hr.symm with hactive | ⟨payload, hcall, -⟩
    · exact hactive
    · rw [hcall] at hattaches
      cases hattaches
  · intro d q' hm hold
    -- the list was read after the parent was found
    obtain ⟨-, allDepts, hall, hmeets⟩ := hm.2.1
    have hall' := hall.of_cons_ne nofun
    obtain ⟨t, hsub, -, -, hfound⟩ := hguard.of_mem hall'
    exact absurd ⟨(hfound d q' hm.1).mono hsub, allDepts, hall', hmeets⟩ hold

theorem Inv.getForUpdate {r : Option Department} (h : Inv call s l)
    (hopen : ¬ Finished i (own i l)) (hissued : StmtIssues (call i) i (own i l) (.getForUpdate d))
    (he : Executes i (.getForUpdate d) s r s') :
    Inv call s' ((i, ⟨(i, .getForUpdate d), .ok r⟩) :: l) := by
  obtain ⟨hr, hlock⟩ := he
  have hactive (row : Department) (hrow : r = some row) : Active s.committed d := by
    rw [hrow] at hr
    rcases h.active_of_seen hr.symm with hactive | ⟨payload, hcall, -, hlocked⟩
    · exact hactive
    · rcases hissued with hdeletes | ⟨newId, payload', hcall', hparent⟩
      · rw [hcall] at hdeletes
        cases hdeletes
      · rw [hcall] at hcall'
        injection hcall' with _ hpayload
        subst hpayload
        exact (h.locked i d (hlocked d hparent) hopen).2
  have hstate : s'.committed = s.committed ∧ s'.writes = s.writes ∧ s'.Sound ∧
      (∀ k j, s.locks k = some j → s'.locks k = some j) ∧
      ∀ row, r = some row → s'.locks (.dept d) = some i := by
    rcases hlock with ⟨rfl, rfl⟩ | ⟨-, hfree, rfl⟩
    · exact ⟨rfl, rfl, h.sound, fun _ _ hk => hk, nofun⟩
    · refine ⟨rfl, rfl, h.sound.lock hfree, fun _ _ => Rows.lock_held hfree, fun _ _ => ?_⟩
      simp [Rows.lock_locks]
  obtain ⟨hcommitted, hwrites, hsound, hheld, hlocks⟩ := hstate
  apply h.keep hcommitted hsound hheld
  · intro j d row hw
    rw [hwrites] at hw
    exact .inl hw
  · intro j u row hw
    rw [hwrites] at hw
    exact .inl hw
  · intro j c row hw hd
    rw [hwrites]
    exact ⟨row, hw, hd⟩
  · exact fun hopen => opens_of_ne hopen ⟨nofun, nofun⟩
  · intro d' row heq
    cases heq
    exact ⟨hlocks row rfl, hactive row rfl⟩
  · exact fun d' hnew hold => absurd (hnew.of_cons_ne ⟨nofun, nofun⟩) hold
  · intro q row heq
    cases heq
  · exact fun d' q hm hold => absurd (hm.2.1.of_cons_ne ⟨nofun, nofun⟩) hold

theorem Inv.listAll {r : List (DeptId × Department)} (h : Inv call s l)
    (hcareful : Careful call s l i .listAll)
    (hr : ∀ d row, (d, row) ∈ r ↔ s.department i d = some row) :
    Inv call s ((i, ⟨(i, .listAll), .ok r⟩) :: l) := by
  apply h.read
  · exact fun hopen => opens_of_ne hopen ⟨nofun, nofun⟩
  · intro d row heq
    cases heq
  · exact fun d hnew hold => absurd (hnew.of_cons_ne ⟨nofun, nofun⟩) hold
  · intro q row heq
    cases heq
  · intro d q hm hold
    obtain ⟨⟨row, hfound⟩, allDepts, hall, hmeets⟩ := hm.2.1
    have hfound' : Found i (own i l) q := ⟨row, hfound.of_cons_ne nofun⟩
    rcases hall.of_cons with heq | hall
    · cases heq
      refine (hcareful d q hm.1).resolve_left (not_above_of_meets (fun d row => ?_) hmeets)
      rw [hr, department_eq_some]
    · exact absurd ⟨hfound', allDepts, hall, hmeets⟩ hold

theorem Inv.hasActiveChildren {r : Bool} (h : Inv call s l)
    (hguard : Trace.Guarded (TxIssues (call i) i) (own i l)) :
    Inv call s ((i, ⟨(i, .hasActiveChildren d), .ok r⟩) :: l) := by
  apply h.read
  · exact fun hopen => opens_of_ne hopen ⟨nofun, nofun⟩
  · intro d row heq
    cases heq
  · intro d' hnew hold
    -- the members are looked for after the children
    have hmembers := hnew.2.of_cons_ne nofun
    obtain ⟨t, hsub, -, -, -, -, hchildren⟩ := hguard.of_mem hmembers
    exact absurd ⟨hchildren.mono hsub, hmembers⟩ hold
  · intro q row heq
    cases heq
  · exact fun d' q hm hold => absurd (hm.2.1.of_cons_ne ⟨nofun, nofun⟩) hold

theorem Inv.hasActiveMembers {r : Bool} (h : Inv call s l)
    (hissued : StmtIssues (call i) i (own i l) (.hasActiveMembers d))
    (hcareful : Careful call s l i (.hasActiveMembers d))
    (hr : r = true ↔ ∃ u row, s.user i u = some row ∧ row.departmentId = some d) :
    Inv call s ((i, ⟨(i, .hasActiveMembers d), .ok r⟩) :: l) := by
  obtain ⟨hdeletes, -, hchildren⟩ := hissued
  apply h.read
  · exact fun hopen => opens_of_ne hopen ⟨nofun, nofun⟩
  · intro d row heq
    cases heq
  · intro d' hnew hold
    rcases hnew.2.of_cons with heq | hmembers
    · cases heq
      have hnone : ¬ ∃ u row, s.user i u = some row ∧ row.departmentId = some d :=
        fun hm => nomatch hr.2 hm
      obtain ⟨hempty, hpending⟩ := hcareful.resolve_left hnone
      refine ⟨fun c hc => ?_, fun u row hrow hactive hdept => ?_, hpending⟩
      · obtain ⟨row, hrow, hactive, hparent⟩ := up_eq_some.1 hc
        cases hw : s.writes i (.dept c) with
        | none =>
          have hview := (Rows.view_of_unwritten hw).trans hrow
          exact absurd hparent (hempty c row (department_eq_some.2 ⟨hview, hactive⟩))
        | some row' =>
          refine ⟨row', rfl, ?_⟩
          cases h.dept i c row' hw with
          | created hcall | kept hcall | moved hcall =>
            rw [hcall] at hdeletes
            cases hdeletes
          | deleted _ hdeleted _ => exact hdeleted
      · cases hw : s.writes i (.user u) with
        | none =>
          have hview := (Rows.view_of_unwritten hw).trans hrow
          exact hnone ⟨u, row, user_eq_some.2 ⟨hview, hactive⟩, hdept⟩
        | some row' =>
          cases h.user i u row' hw with
          | attached hcall | kept hcall => exact absurd hdeletes hcall
    · exact absurd ⟨hnew.1.of_cons_ne nofun, hmembers⟩ hold
  · intro q row heq
    cases heq
  · exact fun d' q hm hold => absurd (hm.2.1.of_cons_ne ⟨nofun, nofun⟩) hold

theorem Inv.insertDepartment {row : Department} (h : Inv call s l)
    (hissued : StmtIssues (call i) i (own i l) (.insertDepartment d row))
    (he : Executes i (.insertDepartment d row) s () s') :
    Inv call s' ((i, ⟨(i, .insertDepartment d row), .ok ()⟩) :: l) := by
  obtain ⟨hnone, hfree, rfl⟩ := he
  obtain ⟨payload, hcall, hparent, hactive, hlocked⟩ := hissued
  obtain ⟨hunwritten, habsent⟩ := Option.or_eq_none_iff.1 hnone
  refine h.write (silent_ok id) hfree (fun d' row' heq => ?_)
    fun u row' heq => nomatch heq
  cases heq
  refine ⟨.created hcall habsent hactive hparent fun q hq => ?_, fun old hold => ?_⟩
  · exact (hlocked q hq).mono (List.subset_cons_self _ _)
  · rw [hunwritten] at hold
    cases hold

theorem Inv.updateDepartment {values : DepartmentUpdate} {updatedBy : UserId} (h : Inv call s l)
    (hopen : ¬ Finished i (own i l))
    (hissued : StmtIssues (call i) i (own i l) (.updateDepartment d values updatedBy))
    (he : Executes i (.updateDepartment d values updatedBy) s () s') :
    Inv call s' ((i, ⟨(i, .updateDepartment d values updatedBy), .ok ()⟩) :: l) := by
  obtain ⟨row, hrow, hfree, rfl⟩ := he
  obtain ⟨hcall, hchecked⟩ := hissued
  have hopen' : ¬ Finished i (⟨(i, .updateDepartment d values updatedBy), .ok ()⟩ :: own i l) :=
    opens_of_ne hopen ⟨nofun, nofun⟩
  have hsub := List.subset_cons_self
    (⟨(i, .updateDepartment d values updatedBy), .ok ()⟩ : Event (ι × Stmt) Resp) (own i l)
  -- what the transaction has made of the committed row so far
  have hbefore : ∃ old, s.committed (.dept d) = some old ∧ row.isDeleted = old.isDeleted ∧
      (row.parentId = old.parentId ∨
        ∀ q, row.parentId = some q → Moving (call i) i (own i l) d q) := by
    cases hw : s.writes i (.dept d) with
    | none => exact ⟨row, (Rows.view_of_unwritten hw).symm.trans hrow, rfl, .inl rfl⟩
    | some row' =>
      rw [Rows.view_of_written hw] at hrow
      injection hrow with heq
      subst heq
      cases h.dept i d row' hw with
      | created hcall' =>
        rw [hcall] at hcall'
        cases hcall'
      | kept _ hold hsame hparent => exact ⟨_, hold, hsame, .inl hparent⟩
      | moved _ hold hsame hmoving => exact ⟨_, hold, hsame, .inr hmoving⟩
      | deleted hdeletes =>
        rw [hcall] at hdeletes
        cases hdeletes
  obtain ⟨old, hold, hsame, hplace⟩ := hbefore
  refine h.write (silent_ok id) hfree (fun d' row' heq => ?_)
    fun u row' heq => nomatch heq
  cases heq
  refine ⟨?_, fun row' hw hdeleted => ?_⟩
  · cases hfield : values.parentId with
    | none =>
      have hparent : (row.set values updatedBy).parentId = row.parentId := by
        simp [Department.set, hfield]
      rcases hplace with hkept | hmoving
      · exact .kept hcall hold hsame (hparent.trans hkept)
      · refine .moved hcall hold hsame fun q hq => ?_
        obtain ⟨hmoves, hchecked', -⟩ := hmoving q (hparent.symm.trans hq)
        exact ⟨hmoves, hchecked'.mono hsub, hopen'⟩
    | some newParent =>
      refine .moved hcall hold hsame fun q hq => ?_
      have hnew : values.parentId = some (some q) := by
        rw [hfield, ← hq]
        simp [Department.set, hfield]
      exact ⟨⟨values, hcall, hnew⟩, (hchecked q hnew).mono hsub, hopen'⟩
  · rw [Rows.view_of_written hw] at hrow
    injection hrow with heq
    rwa [← heq]

theorem Inv.softDelete {updatedBy : UserId} (h : Inv call s l)
    (hissued : StmtIssues (call i) i (own i l) (.softDelete d updatedBy))
    (he : Executes i (.softDelete d updatedBy) s () s') :
    Inv call s' ((i, ⟨(i, .softDelete d updatedBy), .ok ()⟩) :: l) := by
  obtain ⟨row, hrow, hfree, rfl⟩ := he
  obtain ⟨hdeletes, -, hemptied⟩ := hissued
  refine h.write (silent_ok id) hfree (fun d' row' heq => ?_)
    fun u row' heq => nomatch heq
  cases heq
  exact ⟨.deleted hdeletes rfl (hemptied.mono (List.subset_cons_self _ _)), fun _ _ _ => rfl⟩

theorem Inv.insertUser {u : UserId} {row : User} (h : Inv call s l)
    (hopen : ¬ Finished i (own i l))
    (hissued : StmtIssues (call i) i (own i l) (.insertUser u row))
    (he : Executes i (.insertUser u row) s () s') :
    Inv call s' ((i, ⟨(i, .insertUser u row), .ok ()⟩) :: l) := by
  obtain ⟨-, hfree, rfl⟩ := he
  obtain ⟨payload, hcall, hdept, hfound⟩ := hissued
  refine h.write (silent_ok id) hfree (fun d row' heq => nomatch heq) fun u' row' heq => ?_
  cases heq
  refine .attached ?_ fun q hq => ?_
  · rw [hcall]
    exact id
  · rw [hdept] at hq
    refine ⟨?_, (hfound q hq).mono (List.subset_cons_self _ _), opens_of_ne hopen ⟨nofun, nofun⟩⟩
    rw [hcall]
    exact hq

theorem Inv.updateUser {u : UserId} {values : UserUpdate} {updatedBy : UserId} (h : Inv call s l)
    (hopen : ¬ Finished i (own i l))
    (hissued : StmtIssues (call i) i (own i l) (.updateUser u values updatedBy))
    (he : Executes i (.updateUser u values updatedBy) s () s') :
    Inv call s' ((i, ⟨(i, .updateUser u values updatedBy), .ok ()⟩) :: l) := by
  obtain ⟨row, hrow, hfree, rfl⟩ := he
  obtain ⟨hcall, hfound⟩ := hissued
  have hopen' : ¬ Finished i (⟨(i, .updateUser u values updatedBy), .ok ()⟩ :: own i l) :=
    opens_of_ne hopen ⟨nofun, nofun⟩
  have hsub := List.subset_cons_self
    (⟨(i, .updateUser u values updatedBy), .ok ()⟩ : Event (ι × Stmt) Resp) (own i l)
  have hcall' : ¬ (call i).Deletes := by
    rw [hcall]
    exact id
  refine h.write (silent_ok id) hfree (fun d row' heq => nomatch heq) fun u' row' heq => ?_
  cases heq
  cases hfield : values.departmentId with
  | some departmentId =>
    refine .attached hcall' fun q hq => ?_
    have hnew : values.departmentId = some (some q) := by
      rw [hfield, ← hq]
      simp [User.set, hfield]
    refine ⟨?_, (hfound q hnew).mono hsub, hopen'⟩
    simp [hcall, Call.attaches, hnew]
  | none =>
    have hdept : (row.set values updatedBy).departmentId = row.departmentId := by
      simp [User.set, hfield]
    cases hw : s.writes i (.user u) with
    | none => exact .kept hcall' ((Rows.view_of_unwritten hw).symm.trans hrow) rfl hdept
    | some row' =>
      rw [Rows.view_of_written hw] at hrow
      injection hrow with heq
      subst heq
      cases h.user i u row' hw with
      | attached _ hpending =>
        refine .attached hcall' fun q hq => ?_
        obtain ⟨hattaches, hfound', -⟩ := hpending q (hdept.symm.trans hq)
        exact ⟨hattaches, hfound'.mono hsub, hopen'⟩
      | kept _ hold hsame hkept => exact .kept hcall' hold hsame (hdept.trans hkept)

/-- One careful statement. -/
theorem Inv.step {c : ι × Stmt} {r : Resp c}
    (hguard : ∀ k, Trace.Guarded (TxIssues (call k) k) (own k l)) (h : Inv call s l)
    (hissued : TxIssues (call i) i (own i l) c) (hcareful : Careful call s l i c.2)
    (he : sem c s r s') : Inv call s' ((i, ⟨c, r⟩) :: l) := by
  obtain ⟨i', st⟩ := c
  obtain ⟨rfl, hopen, hissued⟩ := hissued
  cases r with
  | error x =>
    obtain ⟨-, rfl⟩ := he
    exact h.silent silent_error
  | ok r =>
    cases st with
    | getDepartment q =>
      obtain ⟨hr, rfl⟩ := he
      exact h.getDepartment (hguard i') hcareful hr
    | getForUpdate d => exact h.getForUpdate hopen hissued he
    | listAll =>
      obtain ⟨hr, rfl⟩ := he
      exact h.listAll hcareful hr
    | hasActiveChildren d =>
      obtain ⟨-, rfl⟩ := he
      exact h.hasActiveChildren (hguard i')
    | hasActiveMembers d =>
      obtain ⟨hr, rfl⟩ := he
      exact h.hasActiveMembers hissued hcareful hr
    | insertDepartment d row => exact h.insertDepartment hissued he
    | updateDepartment d values updatedBy => exact h.updateDepartment hopen hissued he
    | softDelete d updatedBy => exact h.softDelete hissued he
    | getUser u =>
      obtain ⟨-, rfl⟩ := he
      exact h.silent (silent_ok id)
    | otherChecks =>
      have hstate : s' = s := he
      subst hstate
      exact h.silent (silent_ok id)
    | insertUser u row => exact h.insertUser hopen hissued he
    | updateUser u values updatedBy => exact h.updateUser hopen hissued he
    | commit =>
      have hstate : s' = s.commit i' := he
      subst hstate
      refine h.commit hopen (.inl List.mem_cons_self) fun j d hemptied => ?_
      obtain ⟨t, hsub, -, -, -, hlocked⟩ := (hguard j).of_mem hemptied.1
      exact hlocked.mono hsub
    | rollback =>
      have hstate : s' = s.rollback i' := he
      subst hstate
      exact h.rollback (.inr List.mem_cons_self)

theorem inv_start {db : Database} (hdb : Consistent db) : Inv call (Rows.start db) [] where
  sound := Rows.sound_start db
  parents := hdb.parents
  members := hdb.members
  dept := nofun
  user := nofun
  locked := by
    rintro i d ⟨row, hm⟩
    cases hm
  childless := by
    rintro i d ⟨hm, -⟩
    cases hm
  memberless := by
    rintro i d ⟨hm, -⟩
    cases hm
  pending := by
    rintro i q ⟨-, ⟨row, hm⟩, -⟩
    cases hm
  rooted := by
    refine hdb.acyclic.anti fun a b hab => hab.resolve_right ?_
    rintro ⟨j, -, ⟨⟨row, hm⟩, -⟩, -⟩
    cases hm

end Statements

/-! ## Every careful run -/

section Forest

variable {ι : Type} [DecidableEq ι] {db : Database} {request : ι → Request} {P : Requests ι}

theorem CarefulReach.inv (hdb : Consistent db)
    (h : CarefulReach (fun i => (request i).call) (Requests.start db request) P) :
    Inv (fun i => (request i).call) P.shared P.log := by
  induction h with
  | refl => exact inv_start hdb
  | @tail P P' hbefore hstep ih =>
    obtain ⟨hstep, hcareful⟩ := hstep
    have hfollows := (CarefulReach.reach hbefore).follows fun i => (request i).prog_follows
    cases hstep with
    | env he => cases he
    | @run i c k r s' hk he =>
      have hissued := (hfollows i).2
      rw [hk] at hissued
      obtain ⟨i', st⟩ := c
      obtain rfl : i' = i := hissued.1.1
      exact ih.step (fun k => (hfollows k).1) hissued.1 (hcareful _ st r rfl) he

/-- Starting from a consistent forest, every careful run has only committed consistent forests. -/
theorem forest_consistent (hdb : Consistent db)
    (h : CarefulReach (fun i => (request i).call) (Requests.start db request) P) :
    Consistent P.shared.committed := (CarefulReach.inv hdb h).consistent

end Forest

/-! ## A department is created, and one is deleted while a user is on the way to it -/

def manager : AuthenticatedUser := ⟨7, none⟩

def office : Department where
  name := "office"
  parentId := none
  sortOrder := 0
  remark := none
  createdBy := some 7
  createDept := none
  updatedBy := some 7
  isDeleted := false

/-- One department and no users. -/
def company : Database
  | .dept d => if d = 1 then some office else none
  | .user _ => none

theorem consistent_company : Consistent company := by
  have hup (d : DeptId) : up company d = none := by
    by_cases hd : d = 1
    · simp [up, company, hd, office]
    · simp [up, company, hd]
  refine ⟨fun d q h => ?_, fun u row d hu => ?_, fun d q h => ?_⟩
  · rw [hup] at h
    cases h
  · cases hu
  · cases (hup d).symm.trans h

/-- One careful statement of a run. -/
theorem CarefulReach.run {ι : Type} [DecidableEq ι] {call : ι → Call} {P₀ P : Requests ι}
    (h : CarefulReach call P₀ P) (i : ι) (st : Stmt)
    {k : Resp (i, st) → Prog (ι × Stmt) Resp (Except ServiceError Unit)}
    (hk : P.thread i = .step (i, st) k) (r : Resp (i, st)) {s' : State ι}
    (he : sem (i, st) P.shared r s') (hcareful : Careful call P.shared P.log i st) :
    CarefulReach call P₀ ⟨s', (i, ⟨(i, st), r⟩) :: P.log, Function.update P.thread i (k r)⟩ := by
  refine h.tail ⟨.run hk he, fun i' st' r' hlog => ?_⟩
  injection hlog with hevent _
  cases hevent
  exact hcareful

/-- A department and a user are created in the office, which somebody tries to delete. -/
def growth : Fin 3 → Request
  | 0 => ⟨manager, .createDepartment 2 ⟨"annex", some 1, 0, none⟩⟩
  | 1 => ⟨manager, .createUser 10 ⟨some 1⟩⟩
  | 2 => ⟨manager, .deleteDepartment 1⟩

/-- The delete waits for the new department and is refused; the office, the annex and the user are
there in the end. -/
theorem forest_consistent_growth : ∃ P : Requests (Fin 3), P.Done ∧
    Active P.shared.committed 1 ∧ Active P.shared.committed 2 ∧
      (P.shared.committed (.user 10)).isSome ∧ Consistent P.shared.committed := by
  have h₀ : CarefulReach (fun i => (growth i).call) (Requests.start company growth)
      (Requests.start company growth) := .refl
  have h₁ := h₀.run 0 (.getDepartment 1) rfl (.ok (some office)) ⟨rfl, rfl⟩ nofun
  have h₂ := h₁.run 1 .otherChecks rfl (.ok (.ok ())) rfl trivial
  have h₃ := h₂.run 2 (.getDepartment 1) rfl (.ok (some office)) ⟨rfl, rfl⟩ nofun
  have h₄ := h₃.run 0 (.getForUpdate 1) rfl (.ok (some office)) ⟨rfl, .inr ⟨nofun, nofun, rfl⟩⟩
    trivial
  -- nobody has looked for children yet
  have h₅ := h₄.run 1 (.getDepartment 1) rfl (.ok (some office)) ⟨rfl, rfl⟩
    fun _ j hj => nomatch mem_own.1 hj.1
  have h₆ := h₅.run 0 (.insertDepartment 2 _) rfl (.ok ()) ⟨rfl, nofun, rfl⟩ trivial
  have h₇ := h₆.run 1 .otherChecks rfl (.ok (.ok ())) rfl trivial
  have h₈ := h₇.run 0 .commit rfl (.ok ()) rfl trivial
  have h₉ := h₈.run 2 (.getForUpdate 1) rfl (.ok (some office)) ⟨rfl, .inr ⟨nofun, nofun, rfl⟩⟩
    trivial
  have h₁₀ := h₉.run 2 (.hasActiveChildren 1) rfl (.ok true)
    ⟨⟨fun _ => ⟨2, _, rfl, rfl⟩, fun _ => rfl⟩, rfl⟩ trivial
  have h₁₁ := h₁₀.run 1 (.insertUser 10 _) rfl (.ok ()) ⟨rfl, nofun, rfl⟩ trivial
  have h₁₂ := h₁₁.run 2 .rollback rfl (.ok ()) rfl trivial
  have h₁₃ := h₁₂.run 1 .commit rfl (.ok ()) rfl trivial
  refine ⟨_, fun i => ?_, ⟨_, rfl, rfl⟩, ⟨_, rfl, rfl⟩, rfl, forest_consistent consistent_company h₁₃⟩
  match i with
  | 0 | 1 | 2 => exact ⟨_, rfl⟩

/-- A user is created in the office while it is deleted. -/
def clash : Fin 2 → Request
  | 0 => ⟨manager, .createUser 10 ⟨some 1⟩⟩
  | 1 => ⟨manager, .deleteDepartment 1⟩

/-- One statement of a run. -/
theorem reach_run {ι : Type} [DecidableEq ι] {P₀ P : Requests ι}
    (h : Pool.Reach sem (fun _ _ => False) P₀ P) (i : ι) (st : Stmt)
    {k : Resp (i, st) → Prog (ι × Stmt) Resp (Except ServiceError Unit)}
    (hk : P.thread i = .step (i, st) k) (r : Resp (i, st)) {s' : State ι}
    (he : sem (i, st) P.shared r s') : Pool.Reach sem (fun _ _ => False) P₀
      ⟨s', (i, ⟨(i, st), r⟩) :: P.log, Function.update P.thread i (k r)⟩ := h.tail (.run hk he)

/-- The user's department is found, then deleted, then taken. -/
theorem orphaned : ¬ ∀ (ι : Type) [DecidableEq ι] (db : Database) (request : ι → Request)
    (P : Requests ι), Consistent db →
    Pool.Reach sem (fun _ _ => False) (Requests.start db request) P →
    Consistent P.shared.committed := by
  intro h
  have hchildless (c : DeptId) (row : Department)
      (hc : State.department (Rows.start company : State (Fin 2)) 1 c = some row) :
      row.parentId ≠ some 1 := by
    obtain ⟨hrow, -⟩ := department_eq_some.1 hc
    have hrow' : (if c = 1 then some office else none : Option Department) = some row := hrow
    split at hrow'
    · cases hrow'
      nofun
    · cases hrow'
  have h₀ : Pool.Reach sem (fun _ _ => False) (Requests.start company clash)
      (Requests.start company clash) := .refl
  have h₁ := reach_run h₀ 0 .otherChecks rfl (.ok (.ok ())) rfl
  have h₂ := reach_run h₁ 0 (.getDepartment 1) rfl (.ok (some office)) ⟨rfl, rfl⟩
  have h₃ := reach_run h₂ 1 (.getDepartment 1) rfl (.ok (some office)) ⟨rfl, rfl⟩
  have h₄ := reach_run h₃ 1 (.getForUpdate 1) rfl (.ok (some office))
    ⟨rfl, .inr ⟨nofun, nofun, rfl⟩⟩
  have h₅ := reach_run h₄ 1 (.hasActiveChildren 1) rfl (.ok false)
    ⟨⟨nofun, fun ⟨c, row, hc, hparent⟩ => absurd hparent (hchildless c row hc)⟩, rfl⟩
  have h₆ := reach_run h₅ 1 (.hasActiveMembers 1) rfl (.ok false)
    ⟨⟨nofun, fun ⟨_, _, hm, _⟩ => nomatch hm⟩, rfl⟩
  have h₇ := reach_run h₆ 1 (.softDelete 1 7) rfl (.ok ())
    ⟨office, rfl, fun _ hj => (Option.some.inj hj).symm, rfl⟩
  have h₈ := reach_run h₇ 1 .commit rfl (.ok ()) rfl
  have h₉ := reach_run h₈ 0 .otherChecks rfl (.ok (.ok ())) rfl
  have h₁₀ := reach_run h₉ 0 (.insertUser 10 _) rfl (.ok ()) ⟨rfl, nofun, rfl⟩
  have h₁₁ := reach_run h₁₀ 0 .commit rfl (.ok ()) rfl
  obtain ⟨row, hrow, hactive⟩ :=
    (h (Fin 2) company clash _ consistent_company h₁₁).members 10 _ 1 rfl rfl rfl
  cases hrow
  cases hactive

end Departments
