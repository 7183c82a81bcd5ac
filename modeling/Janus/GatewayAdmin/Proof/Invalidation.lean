import Janus.Gateway.Proof.Settled
import Janus.GatewayAdmin.Proof.Changes

/-!
# The gateway's caches are invalidated

`Change.bumps`: if a request changes the answer to a cached statement, it bumps a generation under
which the answer was cached. `Change.publishes`: if it changes the expansion of the routers, it tells
them. With `Accepted.leads`: `configuration_invalidated`.
-/

set_option autoImplicit false

namespace GatewayAdmin

open Sql
open Gateway (GrantScope QuotaScope Query Counter)
open Rbac (AuthenticatedUser)

/-- A hook bumps a generation under which answers to the statement are cached. -/
def Bumps (hooks : List Hook) (q : Query) : Prop :=
  ∃ hook, .bumpGeneration hook ∈ hooks ∧ ∃ b ∈ hook.counters, b ∈ q.counters

section

variable {db db' : Tables} {hooks : List Hook}

/-! ## Answers that stay -/

theorem grants_filter_congr {scope : GrantScope} {scopeId : Int}
    {grants : Table Int UserModelGrant} {p : Gateway.UserModelGrant → Bool}
    (htouches : Touches UserModelGrant.subject (scope, scopeId) db.grants grants)
    (hp : ∀ g, p g = true → g.scope = scope → g.scopeId ≠ scopeId) :
    ({ db with grants } : Tables).view.grants.filter p = db.view.grants.filter p := by
  refine filter_rows_congr (f := fun id (row : UserModelGrant) => row.viewed id) fun id => ?_
  have hnone (x : Option UserModelGrant) (hx : ∀ row ∈ x, row.subject = (scope, scopeId)) :
      (x.map fun row => row.viewed id).filter p = none := by
    refine Option.filter_eq_none_iff.2 fun g hg hpass => ?_
    obtain ⟨row, hrow, rfl⟩ := Option.map_eq_some_iff.1 hg
    obtain ⟨hscope, hscopeId⟩ := Prod.mk.inj (hx row hrow)
    exact hp _ hpass hscope hscopeId
  rcases htouches id with hsame | ⟨hold, hnew⟩
  · rw [hsame]
  · rw [hnone _ hold, hnone _ hnew]

theorem quotas_filter_congr {scope : QuotaScope} {scopeId : Option Int} {quotas : Table Int Quota}
    {p : Gateway.QuotaRow → Bool}
    (htouches : Touches (fun row : Quota => (row.scope, row.scopeId)) (scope, scopeId) db.quotas quotas)
    (hp : ∀ q, p q = true → q.scope = scope → q.scopeId ≠ scopeId) :
    ({ db with quotas } : Tables).view.quotas.filter p = db.view.quotas.filter p := by
  refine filter_rows_congr (f := fun id (row : Quota) => row.viewed id) fun id => ?_
  have hnone (x : Option Quota) (hx : ∀ row ∈ x, (row.scope, row.scopeId) = (scope, scopeId)) :
      (x.map fun row => row.viewed id).filter p = none := by
    refine Option.filter_eq_none_iff.2 fun q hq hpass => ?_
    obtain ⟨row, hrow, rfl⟩ := Option.map_eq_some_iff.1 hq
    obtain ⟨hscope, hscopeId⟩ := Prod.mk.inj (hx row hrow)
    exact hp _ hpass hscope hscopeId
  rcases htouches id with hsame | ⟨hold, hnew⟩
  · rw [hsame]
  · rw [hnone _ hold, hnone _ hnew]

/-- A grant that applies to a user is one of the user or of the department. -/
theorem subject_of_appliesTo {g : Gateway.UserModelGrant} {userId : Int} {deptId : Option Int}
    (h : g.appliesTo userId deptId = true) :
    g.scope = .user ∧ g.scopeId = userId ∨ g.scope = .department ∧ g.scopeId = deptId.getD 0 := by
  unfold Gateway.UserModelGrant.appliesTo at h
  cases hscope : g.scope with
  | user =>
    rw [hscope] at h
    exact .inl ⟨rfl, by simpa using h⟩
  | department =>
    rw [hscope] at h
    refine .inr ⟨rfl, ?_⟩
    have hdept : some g.scopeId = deptId := by simpa using h
    rw [← hdept]
    rfl

theorem bumps_grant {scope : GrantScope} {scopeId userId : Int} {deptId : Option Int} {q : Query}
    (hq : q.counters = [.grantUser userId, .grantDept (deptId.getD 0)])
    (hsubject : scope = .user ∧ scopeId = userId ∨ scope = .department ∧ scopeId = deptId.getD 0) :
    Bumps [.bumpGeneration (.bumpGrantCacheGeneration scope scopeId)] q := by
  rcases hsubject with ⟨rfl, rfl⟩ | ⟨rfl, rfl⟩
  · exact ⟨_, List.mem_singleton.2 rfl, _, List.mem_singleton.2 rfl, by simp [hq]⟩
  · exact ⟨_, List.mem_singleton.2 rfl, _, List.mem_singleton.2 rfl, by simp [hq]⟩

theorem bumps_quota {scope : QuotaScope} {scopeId : Option Int} {userId modelId : Int}
    {deptId : Option Int} (hpresent : scope = .global ↔ scopeId = none) {q : Gateway.QuotaRow}
    (h : q.appliesTo userId deptId = true) (hscope : q.scope = scope) (hscopeId : q.scopeId = scopeId) :
    Bumps [.bumpGeneration (.bumpQuotaCacheGeneration scope scopeId)]
      (.activeQuotas userId deptId modelId) := by
  unfold Gateway.QuotaRow.appliesTo at h
  subst hscope
  subst hscopeId
  refine ⟨_, List.mem_singleton.2 rfl, ?_⟩
  cases hscope : q.scope with
  | global => exact ⟨_, List.mem_singleton.2 rfl, by simp [Query.counters]⟩
  | user =>
    rw [hscope] at h
    have huser : q.scopeId = some userId := by simpa using h
    exact ⟨.quotaUser userId, by simp [Gateway.Hook.counters, huser], by simp [Query.counters]⟩
  | department =>
    rw [hscope, Bool.and_eq_true] at h
    have hdept : q.scopeId = deptId := by simpa using h.2
    obtain ⟨id, hid⟩ := Option.isSome_iff_exists.1 h.1
    exact ⟨.quotaDept id, by simp [Gateway.Hook.counters, hdept, hid],
      by simp [Query.counters, hid]⟩

/-- An answer that a request changes is not found under its generations any more. -/
theorem Change.bumps (h : Change db db' hooks) (q : Query) :
    q.answer db'.view = q.answer db.view ∨ Bumps hooks q := by
  cases h with
  | catalog hgrants hquotas =>
    cases q with
    | userGrantedModels userId deptId | defaultModelId userId deptId =>
      left
      simp only [Query.answer, Gateway.Db.getUserGrantedModels, Gateway.Db.getDefaultModelId,
        Tables.view, hgrants]
    | activeQuotas userId deptId modelId =>
      left
      simp only [Query.answer, Gateway.Db.getActiveQuotas, Tables.view, hquotas]
    | logicalModelByName name | logicalModelById id =>
      exact .inr ⟨.bumpCatalogCacheGeneration, by simp, .catalog, by simp [Gateway.Hook.counters],
        by simp [Query.counters]⟩
  | @grants grants scope scopeId htouches =>
    have hgranted {userId : Int} {deptId : Option Int} {p : Gateway.UserModelGrant → Bool}
        (hp : ∀ g, p g = true → g.appliesTo userId deptId = true)
        (hfree : ¬ (scope = .user ∧ scopeId = userId ∨
          scope = .department ∧ scopeId = deptId.getD 0)) :
        ({ db with grants } : Tables).view.grants.filter p = db.view.grants.filter p := by
      refine grants_filter_congr htouches fun g hpass hscope hscopeId => hfree ?_
      subst hscope
      subst hscopeId
      exact subject_of_appliesTo (hp g hpass)
    cases q with
    | userGrantedModels userId deptId =>
      by_cases hsubject : scope = .user ∧ scopeId = userId ∨
          scope = .department ∧ scopeId = deptId.getD 0
      · exact .inr (bumps_grant rfl hsubject)
      · left
        simp only [Query.answer, Gateway.Db.getUserGrantedModels]
        rw [hgranted (fun g hg => (Bool.and_eq_true_iff.1 hg).2) hsubject]
    | defaultModelId userId deptId =>
      by_cases hsubject : scope = .user ∧ scopeId = userId ∨
          scope = .department ∧ scopeId = deptId.getD 0
      · exact .inr (bumps_grant rfl hsubject)
      · left
        simp only [Query.answer, Gateway.Db.getDefaultModelId]
        rw [hgranted (fun g hg => (Bool.and_eq_true_iff.1 hg).2) hsubject]
    | logicalModelByName name | logicalModelById id | activeQuotas userId deptId modelId =>
      exact .inl rfl
  | @quotas quotas scope scopeId hpresent htouches =>
    cases q with
    | activeQuotas userId deptId modelId =>
      by_cases hbumps : Bumps [.bumpGeneration (.bumpQuotaCacheGeneration scope scopeId)]
          (.activeQuotas userId deptId modelId)
      · exact .inr hbumps
      · left
        simp only [Query.answer, Gateway.Db.getActiveQuotas]
        rw [quotas_filter_congr htouches fun q hpass hscope hscopeId => hbumps ?_]
        have happlies := (Bool.and_eq_true_iff.1 (Bool.and_eq_true_iff.1 hpass).1).2
        exact bumps_quota hpresent happlies hscope hscopeId
    | userGrantedModels userId deptId | defaultModelId userId deptId | logicalModelByName name
      | logicalModelById id => exact .inl rfl

theorem Change.publishes (h : Change db db' hooks) (before : String → String → Bool) :
    db'.getRouterConfig before = db.getRouterConfig before ∨ .publishRouterInvalidation ∈ hooks := by
  cases h with
  | catalog hgrants hquotas => exact .inr (List.mem_cons_self ..)
  | grants htouches => exact .inl rfl
  | quotas hpresent htouches => exact .inl rfl

end

/-- An accepted request that changes what the gateway reads bumps a generation under which it was
cached, or tells the routers. -/
theorem configuration_invalidated {ctx : Context} {actor : AuthenticatedUser} {request : Request}
    {db db' : Tables} {hooks : List Hook} (h : Accepted ctx actor request db db' hooks)
    (hdb : Constraints db) :
    (∀ q : Query, q.answer db'.view ≠ q.answer db.view → Bumps hooks q) ∧
      ∀ before, db'.getRouterConfig before ≠ db.getRouterConfig before →
        .publishRouterInvalidation ∈ hooks := by
  obtain ⟨hchange, -⟩ := h.leads hdb
  exact ⟨fun q hq => (hchange.bumps q).resolve_left hq,
    fun before hne => (hchange.publishes before).resolve_left hne⟩

/-! ### A grant that is deleted -/

def gpt : LogicalModel :=
  { name := "gpt", displayName := "GPT", category := none, sortOrder := 0, contextLength := none,
    priceInput := none, priceOutput := none, status := .active, remark := none }

def grantOfSeven : UserModelGrant :=
  { scope := .user, scopeId := 7, logicalModelId := 1, isDefault := false, remark := none }

/-- User 7 is granted the one model. -/
def granted : Tables where
  users := {7}
  departments := ∅
  channels := ∅
  keys := ∅
  models := Finmap.singleton 1 gpt
  deployments := ∅
  grants := Finmap.singleton 5 grantOfSeven
  quotas := ∅

def admin : AuthenticatedUser where
  userId := 1
  permissions := {"ai:grant:remove"}

/-- What the deletion of the grant leaves. -/
def revoked : Tables :=
  { granted with
    grants := Finmap.singleton 5 { grantOfSeven with isDeleted := true, updatedBy := some 1 } }

def context : Context where
  Nonce := Unit
  fernet := { isKey _ := true, encrypt _ _ plaintext := plaintext, decrypt _ text := some text }
  nonce := ()
  channelEncryptionKeys := none
  urlsplit _ := none
  isInternalHost _ := false
  environment := "dev"

theorem accepted_deleteGrant : Accepted context admin (.deleteGrant 5) granted revoked
    [.bumpGeneration (.bumpGrantCacheGeneration .user 7)] := rfl

theorem configuration_invalidated_deleteGrant :
    Bumps [.bumpGeneration (.bumpGrantCacheGeneration .user 7)] (.userGrantedModels 7 none) := by
  refine (configuration_invalidated accepted_deleteGrant (by decide)).1 _ ?_
  simp only [Query.answer, Gateway.Db.getUserGrantedModels, Tables.view, granted, revoked,
    rows_singleton]
  decide

end GatewayAdmin
