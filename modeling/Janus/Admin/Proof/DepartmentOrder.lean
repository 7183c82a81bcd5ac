import Janus.Admin.Departments

/-!
# The program order of the department requests

`Body`: a part of a transaction that neither commits nor rolls back. `TxIssues` says what a request
issues after what it saw: a child is inserted under a parent that it has locked, a department is
moved when its new parent was found and not met on the walk, a department is deleted under its lock
after both checks found nothing.
-/

set_option autoImplicit false

namespace Departments

open Conc

abbrev Tr (ι : Type) := Trace (ι × Stmt) Resp

section Order

variable {ι : Type} {i : ι} {t t' : Tr ι} {d q : DeptId}

/-! ## What a trace has seen -/

def Saw (i : ι) (t : Tr ι) (st : Stmt) (r : st.Answer) : Prop :=
  (⟨(i, st), .ok r⟩ : Event (ι × Stmt) Resp) ∈ t

def Found (i : ι) (t : Tr ι) (d : DeptId) : Prop := ∃ row, Saw i t (.getDepartment d) (some row)

def Locked (i : ι) (t : Tr ι) (d : DeptId) : Prop := ∃ row, Saw i t (.getForUpdate d) (some row)

/-- The new parent was found, and the walk from it did not meet the department. -/
def Checked (i : ι) (t : Tr ι) (d q : DeptId) : Prop :=
  Found i t q ∧ ∃ allDepts, Saw i t .listAll allDepts ∧ meets allDepts d q = false

/-- Both checks found the department empty. -/
def Emptied (i : ι) (t : Tr ι) (d : DeptId) : Prop :=
  Saw i t (.hasActiveChildren d) false ∧ Saw i t (.hasActiveMembers d) false

/-- The transaction has ended. -/
def Finished (i : ι) (t : Tr ι) : Prop := Saw i t .commit () ∨ Saw i t .rollback ()

theorem Saw.mono {st : Stmt} {r : st.Answer} (h : Saw i t st r) (hs : t ⊆ t') : Saw i t' st r := hs h

theorem Found.mono (h : Found i t d) (hs : t ⊆ t') : Found i t' d := h.imp fun _ h => h.mono hs

theorem Locked.mono (h : Locked i t d) (hs : t ⊆ t') : Locked i t' d := h.imp fun _ h => h.mono hs

theorem Checked.mono (h : Checked i t d q) (hs : t ⊆ t') : Checked i t' d q :=
  ⟨h.1.mono hs, h.2.imp fun _ h => ⟨h.1.mono hs, h.2⟩⟩

theorem Emptied.mono (h : Emptied i t d) (hs : t ⊆ t') : Emptied i t' d :=
  ⟨h.1.mono hs, h.2.mono hs⟩

theorem Finished.mono (h : Finished i t) (hs : t ⊆ t') : Finished i t' :=
  h.imp (fun h => h.mono hs) fun h => h.mono hs

/-! ## What is issued -/

/-- The department that a call puts a row under without locking it. -/
def Call.attaches : Call → Option DeptId
  | .updateDepartment _ payload => payload.parentId.join
  | .createUser _ payload => payload.departmentId
  | .updateUser _ payload => payload.departmentId.join
  | _ => none

/-- The call deletes departments. -/
def Call.Deletes : Call → Prop
  | .deleteDepartment _ | .batchDeleteDepartments _ => True
  | _ => False

/-- The call moves `d` under `q`. -/
def Call.Moves (call : Call) (d q : DeptId) : Prop :=
  ∃ payload, call = .updateDepartment d payload ∧ payload.parentId = some (some q)

/-- What a request issues. -/
def StmtIssues (call : Call) (i : ι) (t : Tr ι) : Stmt → Prop
  | .getForUpdate d => call.Deletes ∨
      ∃ newId payload, call = .createDepartment newId payload ∧ payload.parentId = some d
  | .listAll => ∀ d q, call.Moves d q → Found i t q
  | .hasActiveChildren d => call.Deletes ∧ Locked i t d
  | .hasActiveMembers d => call.Deletes ∧ Locked i t d ∧ Saw i t (.hasActiveChildren d) false
  | .insertDepartment d row => ∃ payload, call = .createDepartment d payload ∧
      row.parentId = payload.parentId ∧ row.isDeleted = false ∧
        ∀ q, payload.parentId = some q → Locked i t q
  | .updateDepartment d values _ => call = .updateDepartment d values ∧
      ∀ q, values.parentId = some (some q) → Checked i t d q
  | .softDelete d _ => call.Deletes ∧ Locked i t d ∧ Emptied i t d
  | .insertUser u row => ∃ payload, call = .createUser u payload ∧
      row.departmentId = payload.departmentId ∧ ∀ q, payload.departmentId = some q → Found i t q
  | .updateUser u values _ => call = .updateUser u values ∧
      ∀ q, values.departmentId = some (some q) → Found i t q
  | _ => True

/-- A statement of the own session, before the end of the transaction. -/
def TxIssues (call : Call) (i : ι) : Guard (ι × Stmt) Resp := fun t c =>
  c.1 = i ∧ ¬ Finished i t ∧ StmtIssues call i t c.2

/-! ## Bodies -/

variable {α β : Type} {call : Call}

/-- The part keeps the transaction open, and `P` holds when it returns. -/
def Body (call : Call) (i : ι) (P : α → Tr ι → Prop) (p : Service ι α) (t : Tr ι) : Prop :=
  Raising.Follows (TxIssues call i)
    (fun outcome t => ¬ Finished i t ∧ ∀ a, outcome = .ok a → P a t) p t

namespace Body

theorem pure {P : α → Tr ι → Prop} {a : α} (ht : ¬ Finished i t) (h : P a t) :
    Body call i P (Pure.pure a) t := by
  refine ⟨ht, fun b hb => ?_⟩
  injection hb with hb
  rwa [← hb]

theorem throw {P : α → Tr ι → Prop} {e : ServiceError} (ht : ¬ Finished i t) :
    Body call i P (MonadExcept.throw e) t := ⟨ht, nofun⟩

theorem bind {P : α → Tr ι → Prop} {Q : β → Tr ι → Prop} {p : Service ι α} {f : α → Service ι β}
    (hp : Body call i P p t)
    (hf : ∀ a t', ¬ Finished i t' → P a t' → Body call i Q (f a) t') :
    Body call i Q (p >>= f) t :=
  Raising.Follows.bind hp (fun a t' h => hf a t' h.1 (h.2 a rfl)) fun _ _ h => ⟨h.1, nofun⟩

theorem mono {P Q : α → Tr ι → Prop} {p : Service ι α} (hp : Body call i P p t)
    (hPQ : ∀ a t', P a t' → Q a t') : Body call i Q p t :=
  Raising.Follows.mono hp fun _ _ h => ⟨h.1, fun a ha => hPQ _ _ (h.2 a ha)⟩

/-- A statement that does not end the transaction. -/
theorem execute {st : Stmt} {P : st.Answer → Tr ι → Prop} (ht : ¬ Finished i t)
    (hst : st ≠ .commit ∧ st ≠ .rollback) (hg : StmtIssues call i t st)
    (h : ∀ r, P r (⟨(i, st), .ok r⟩ :: t)) : Body call i P (Departments.execute i st) t := by
  have hopen (r : Resp (i, st)) : ¬ Finished i (⟨(i, st), r⟩ :: t) := by
    rintro (hm | hm)
    · rcases List.mem_cons.1 hm with heq | hm
      · injection heq with heq _
        exact hst.1 (congrArg Prod.snd heq).symm
      · exact ht (.inl hm)
    · rcases List.mem_cons.1 hm with heq | hm
      · injection heq with heq _
        exact hst.2 (congrArg Prod.snd heq).symm
      · exact ht (.inr hm)
  refine Raising.Follows.cmd_bind ⟨rfl, ht, hg⟩ fun r => ?_
  cases r with
  | error e => exact ⟨hopen _, nofun⟩
  | ok r =>
    refine ⟨hopen _, fun a ha => ?_⟩
    injection ha with ha
    rw [← ha]
    exact h r

/-- A loop with an accumulator. -/
theorem foldlM {γ : Type} {l : List γ} {body : β → γ → Service ι β} {b : β} (ht : ¬ Finished i t)
    (hbody : ∀ b x t', ¬ Finished i t' → Body call i (fun _ _ => True) (body b x) t') :
    Body call i (fun _ _ => True) (l.foldlM body b) t := by
  induction l generalizing b t with
  | nil => exact pure ht trivial
  | cons x l ih =>
    rw [List.foldlM_cons]
    exact bind (hbody b x t ht) fun b' t' ht' _ => ih ht'

end Body

/-! ## The services -/

theorem requireDepartment_body (ht : ¬ Finished i t) :
    Body call i (fun _ _ => True) (requireDepartment i d) t := by
  refine Body.bind (P := fun _ _ => True)
    (Body.execute ht ⟨nofun, nofun⟩ trivial fun _ => trivial) fun found t' ht' _ => ?_
  cases found with
  | none => exact Body.throw ht'
  | some dept => exact Body.pure ht' trivial

theorem requireParentExists_body (ht : ¬ Finished i t) {parentId : Option DeptId} :
    Body call i (fun _ t' => ∀ q, parentId = some q → Found i t' q)
      (requireParentExists i parentId) t := by
  cases parentId with
  | none => exact Body.pure ht nofun
  | some q =>
    refine Body.bind (P := fun found t' => Saw i t' (.getDepartment q) found)
      (Body.execute ht ⟨nofun, nofun⟩ trivial fun _ => List.mem_cons_self) fun found t' ht' h => ?_
    cases found with
    | none => exact Body.throw ht'
    | some row =>
      refine Body.pure ht' fun q' hq' => ?_
      injection hq' with heq
      rw [← heq]
      exact ⟨row, h⟩

theorem lockParent_body (ht : ¬ Finished i t) {newId : DeptId} {payload : DepartmentCreate} :
    Body (.createDepartment newId payload) i
      (fun _ t' => ∀ q, payload.parentId = some q → Locked i t' q)
      (lockParent i payload.parentId) t := by
  cases hparent : payload.parentId with
  | none => exact Body.pure ht nofun
  | some q =>
    refine Body.bind (P := fun found t' => Saw i t' (.getForUpdate q) found)
      (Body.execute ht ⟨nofun, nofun⟩ (.inr ⟨newId, payload, rfl, hparent⟩)
        fun _ => List.mem_cons_self) fun found t' ht' h => ?_
    cases found with
    | none => exact Body.throw ht'
    | some row =>
      refine Body.pure ht' fun q' hq' => ?_
      injection hq' with heq
      rw [← heq]
      exact ⟨row, h⟩

theorem createDepartment_body (ht : ¬ Finished i t) {newId : DeptId} {payload : DepartmentCreate}
    {actor : AuthenticatedUser} :
    Body (.createDepartment newId payload) i (fun _ _ => True)
      (createDepartment i newId payload actor) t := by
  refine Body.bind (requireParentExists_body ht) fun _ t₁ ht₁ _ => ?_
  refine Body.bind (lockParent_body ht₁) fun _ t₂ ht₂ hlocked => ?_
  exact Body.execute ht₂ ⟨nofun, nofun⟩ ⟨payload, rfl, rfl, rfl, hlocked⟩ fun _ => trivial

theorem validateReparent_body (ht : ¬ Finished i t) {payload : DepartmentUpdate}
    {newParent : Option DeptId} (hfield : payload.parentId = some newParent) :
    Body (.updateDepartment d payload) i (fun _ t' => ∀ q, newParent = some q → Checked i t' d q)
      (validateReparent i d newParent) t := by
  cases newParent with
  | none => exact Body.pure ht nofun
  | some q =>
    show Body _ i _ (if q = d then throw (requestInvalid 400) else _) t
    split
    · exact Body.throw ht
    · refine Body.bind (requireParentExists_body ht) fun _ t₁ ht₁ hfound => ?_
      have hissued : StmtIssues (.updateDepartment d payload) i t₁ .listAll := by
        rintro d' q' ⟨payload', heq, hparent⟩
        injection heq with _ heq
        subst heq
        rw [hfield] at hparent
        injection hparent with hparent
        exact hfound q' hparent
      refine Body.bind (P := fun allDepts t' => Found i t' q ∧ Saw i t' .listAll allDepts)
        (Body.execute ht₁ ⟨nofun, nofun⟩ hissued fun allDepts => ?_) fun allDepts t₂ ht₂ h => ?_
      · exact ⟨(hfound q rfl).mono (List.subset_cons_self _ _), List.mem_cons_self⟩
      · split
        · exact Body.throw ht₂
        · next hmeets =>
          refine Body.pure ht₂ fun q' hq' => ?_
          injection hq' with heq
          rw [← heq]
          exact ⟨h.1, allDepts, h.2, by simpa using hmeets⟩

theorem updateDepartment_body (ht : ¬ Finished i t) {payload : DepartmentUpdate}
    {actor : AuthenticatedUser} :
    Body (.updateDepartment d payload) i (fun _ _ => True)
      (updateDepartment i d payload actor) t := by
  refine Body.bind (requireDepartment_body ht) fun _ t₁ ht₁ _ => ?_
  have hchecked : Body (.updateDepartment d payload) i
      (fun _ t' => ∀ q, payload.parentId = some (some q) → Checked i t' d q)
      (validateParentField i d payload.parentId) t₁ := by
    cases hfield : payload.parentId with
    | none => exact Body.pure ht₁ nofun
    | some newParent =>
      refine (validateReparent_body ht₁ hfield).mono fun _ t' h q hq => h q ?_
      injection hq
  refine Body.bind hchecked fun _ t₂ ht₂ hchecked => ?_
  exact Body.execute ht₂ ⟨nofun, nofun⟩ ⟨rfl, hchecked⟩ fun _ => trivial

theorem isEmpty_body (ht : ¬ Finished i t) (hcall : call.Deletes) (hlocked : Locked i t d) :
    Body call i (fun empty t' => Locked i t' d ∧ (empty = true → Emptied i t' d))
      (isEmpty i d) t := by
  refine Body.bind (P := fun children t' => Locked i t' d ∧ Saw i t' (.hasActiveChildren d) children)
    (Body.execute ht ⟨nofun, nofun⟩ ⟨hcall, hlocked⟩ fun children => ?_) fun children t₁ ht₁ h₁ => ?_
  · exact ⟨hlocked.mono (List.subset_cons_self _ _), List.mem_cons_self⟩
  · cases children with
    | true => exact Body.pure ht₁ ⟨h₁.1, nofun⟩
    | false =>
      refine Body.bind (P := fun members t' => Locked i t' d ∧
          Saw i t' (.hasActiveChildren d) false ∧ Saw i t' (.hasActiveMembers d) members)
        (Body.execute ht₁ ⟨nofun, nofun⟩ ⟨hcall, h₁⟩ fun members => ?_) fun members t₂ ht₂ h₂ => ?_
      · have hs := List.subset_cons_self
          (⟨(i, .hasActiveMembers d), .ok members⟩ : Event (ι × Stmt) Resp) t₁
        exact ⟨h₁.1.mono hs, h₁.2.mono hs, List.mem_cons_self⟩
      · refine Body.pure ht₂ ⟨h₂.1, fun hempty => ?_⟩
        cases members with
        | true => cases hempty
        | false => exact h₂.2

theorem deleteDepartment_body (ht : ¬ Finished i t) {actor : AuthenticatedUser} :
    Body (.deleteDepartment d) i (fun _ _ => True) (deleteDepartment i d actor) t := by
  refine Body.bind (requireDepartment_body ht) fun _ t₁ ht₁ _ => ?_
  refine Body.bind (P := fun found t' => Saw i t' (.getForUpdate d) found)
    (Body.execute ht₁ ⟨nofun, nofun⟩ (.inl trivial) fun _ => List.mem_cons_self)
    fun found t₂ ht₂ h₂ => ?_
  cases found with
  | none => exact Body.throw ht₂
  | some row =>
    refine Body.bind (isEmpty_body ht₂ trivial ⟨row, h₂⟩) fun empty t₃ ht₃ h₃ => ?_
    cases empty with
    | true =>
      exact Body.execute ht₃ ⟨nofun, nofun⟩ ⟨trivial, h₃.1, h₃.2 rfl⟩ fun _ => trivial
    | false => exact Body.throw ht₃

theorem batchRound_body (ht : ¬ Finished i t) {ids : List DeptId} {actor : AuthenticatedUser}
    {done : Nat × List DeptId} :
    Body (.batchDeleteDepartments ids) i (fun _ _ => True) (batchRound i actor done d) t := by
  refine Body.bind (P := fun found t' => Saw i t' (.getForUpdate d) found)
    (Body.execute ht ⟨nofun, nofun⟩ (.inl trivial) fun _ => List.mem_cons_self)
    fun found t₁ ht₁ h₁ => ?_
  cases found with
  | none => exact Body.pure ht₁ trivial
  | some row =>
    refine Body.bind (isEmpty_body ht₁ trivial ⟨row, h₁⟩) fun empty t₂ ht₂ h₂ => ?_
    cases empty with
    | true =>
      refine Body.bind (P := fun _ _ => True)
        (Body.execute ht₂ ⟨nofun, nofun⟩ ⟨trivial, h₂.1, h₂.2 rfl⟩ fun _ => trivial)
        fun _ t₃ ht₃ _ => ?_
      exact Body.pure ht₃ trivial
    | false => exact Body.pure ht₂ trivial

theorem batchDeleteDepartments_body (ht : ¬ Finished i t) {ids : List DeptId}
    {actor : AuthenticatedUser} :
    Body (.batchDeleteDepartments ids) i (fun _ _ => True)
      (batchDeleteDepartments i ids actor) t := by
  refine Body.bind (Body.foldlM ht fun done d t' ht' => batchRound_body ht') fun _ t₁ ht₁ _ => ?_
  exact Body.pure ht₁ trivial

theorem otherChecks_body (ht : ¬ Finished i t) {P : Tr ι → Prop} (h : P t)
    (hP : ∀ r, P t → P (⟨(i, .otherChecks), .ok r⟩ :: t)) :
    Body call i (fun _ t' => P t') (otherChecks i) t := by
  refine Body.bind (P := fun _ t' => P t')
    (Body.execute ht ⟨nofun, nofun⟩ trivial fun r => hP r h) fun r t₁ ht₁ h₁ => ?_
  cases r with
  | error e => exact Body.throw ht₁
  | ok _ => exact Body.pure ht₁ h₁

theorem createUser_body (ht : ¬ Finished i t) {newId : UserId} {payload : UserCreate}
    {actor : AuthenticatedUser} :
    Body (.createUser newId payload) i (fun _ _ => True) (createUser i newId payload actor) t := by
  refine Body.bind (otherChecks_body ht (P := fun _ => True) trivial fun _ _ => trivial)
    fun _ t₁ ht₁ _ => ?_
  refine Body.bind (requireParentExists_body ht₁) fun _ t₂ ht₂ hfound => ?_
  refine Body.bind (otherChecks_body ht₂
    (P := fun t' => ∀ q, payload.departmentId = some q → Found i t' q) hfound
    fun r h q hq => (h q hq).mono (List.subset_cons_self _ _)) fun _ t₃ ht₃ h₃ => ?_
  exact Body.execute ht₃ ⟨nofun, nofun⟩ ⟨payload, rfl, rfl, h₃⟩ fun _ => trivial

theorem updateUser_body (ht : ¬ Finished i t) {u : UserId} {payload : UserUpdate}
    {actor : AuthenticatedUser} :
    Body (.updateUser u payload) i (fun _ _ => True) (updateUser i u payload actor) t := by
  refine Body.bind (P := fun _ _ => True)
    (Body.execute ht ⟨nofun, nofun⟩ trivial fun _ => trivial) fun found t₁ ht₁ _ => ?_
  cases found with
  | none => exact Body.throw ht₁
  | some row =>
    refine Body.bind (otherChecks_body ht₁ (P := fun _ => True) trivial fun _ _ => trivial)
      fun _ t₂ ht₂ _ => ?_
    have hfield : Body (.updateUser u payload) i
        (fun _ t' => ∀ q, payload.departmentId = some (some q) → Found i t' q)
        (validateDepartmentField i payload.departmentId) t₂ := by
      cases payload.departmentId with
      | none => exact Body.pure ht₂ nofun
      | some departmentId =>
        refine (requireParentExists_body ht₂).mono fun _ t' h q hq => h q ?_
        injection hq
    refine Body.bind hfield fun _ t₃ ht₃ hfound => ?_
    refine Body.bind (P := fun _ _ => True)
      (Body.execute ht₃ ⟨nofun, nofun⟩ ⟨rfl, hfound⟩ fun _ => trivial) fun _ t₄ ht₄ _ => ?_
    exact otherChecks_body ht₄ (P := fun _ => True) trivial fun _ _ => trivial

/-! ## The transaction -/

theorem unitOfWork_follows {body : Service ι α} (hbody : Body call i (fun _ _ => True) body []) :
    (unitOfWork i body).Follows (TxIssues call i) (fun _ _ => True) [] := by
  refine Raising.Follows.tryCatch (P := fun outcome t =>
    ∀ e, outcome = .error e → ¬ Finished i t) ?_ (fun _ _ _ => trivial) ?_
  · refine Raising.Follows.bind hbody (fun a t h => ?_) fun e t h e' _ => h.1
    refine Raising.Follows.cmd_bind ⟨rfl, h.1, trivial⟩ fun r => ?_
    cases r with
    | ok _ => exact nofun
    | error e =>
      intro e' _ hfinished
      rcases hfinished with hm | hm
      · rcases List.mem_cons.1 hm with heq | hm
        · cases heq
        · exact h.1 (.inl hm)
      · rcases List.mem_cons.1 hm with heq | hm
        · cases heq
        · exact h.1 (.inr hm)
  · intro e t h
    refine Raising.Follows.bind (P := fun _ _ => True) ?_ (fun _ _ _ => trivial) fun _ _ _ => trivial
    refine Raising.Follows.cmd_bind ⟨rfl, h e rfl, trivial⟩ fun r => ?_
    cases r with
    | ok _ => exact trivial
    | error _ => exact trivial

theorem Request.prog_follows (request : Request) :
    (request.prog i).run.Follows (TxIssues request.call i) (fun _ _ => True) [] := by
  have hopen : ¬ Finished i ([] : Tr ι) := by
    rintro (hm | hm)
    · cases hm
    · cases hm
  refine unitOfWork_follows ?_
  cases request.call with
  | createDepartment newId payload => exact createDepartment_body hopen
  | updateDepartment d payload => exact updateDepartment_body hopen
  | deleteDepartment d => exact deleteDepartment_body hopen
  | batchDeleteDepartments ids =>
    exact Body.bind (batchDeleteDepartments_body hopen) fun _ t₁ ht₁ _ => Body.pure ht₁ trivial
  | createUser newId payload => exact createUser_body hopen
  | updateUser u payload => exact updateUser_body hopen

end Order

end Departments
