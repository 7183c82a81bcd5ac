import Janus.Admin.Proof.Changes
import Janus.GatewayAdmin.Requests

/-!
# What the requests do

An accepted request does one of three things (`Change`, `Accepted.leads`): it writes to the
catalog, to grants of one subject, or to quotas of one subject, and registers the hooks for these.
-/

set_option autoImplicit false

namespace GatewayAdmin

open Sql
open Gateway (GrantScope QuotaScope)
open Rbac (AuthenticatedUser)

/-! ## Accepted statements -/

section

variable {α β V : Type} {s s' : UnitOfWork} {a : α} {b : β} {row : V} {x : Unit} {id : Int}
  {repo : Repository V}

theorem accepts_query_then {f : Tables → α} {p : α → Service β} :
    Work.Accepts (query f >>= p) s b s' ↔ Work.Accepts (p (f s.db)) s b s' :=
  Work.accepts_read_then

theorem accepts_addAfterCommitHook {hook : Hook} :
    Work.Accepts (addAfterCommitHook hook) s x s' ↔ s' = { s with hooks := s.hooks ++ [hook] } :=
  Work.accepts_write

theorem accepts_flush {f : Tables → Tables} : Work.Accepts (flush f) s x s' ↔
    Constraints (f s.db) ∧ s' = { s with db := f s.db } := by
  unfold flush
  rw [accepts_query_then, Work.accepts_require_then, Work.accepts_write]

theorem accepts_repoRequire : Work.Accepts (repo.require id) s row s' ↔
    repo.get s.db id = some row ∧ s' = s := by
  unfold Repository.require
  rw [accepts_query_then, Work.accepts_requireSome]

theorem accepts_requireNone {p : V → Bool} {currentId : Option Int} {failure : Failure} :
    Work.Accepts (repo.requireNone p currentId failure) s x s' ↔
      (∀ entry ∈ first (fun row => !(repo.base row).isDeleted && p row) (repo.table s.db),
        some entry.1 = currentId) ∧ s' = s := by
  unfold Repository.requireNone
  rw [accepts_query_then, Work.accepts_require]

theorem accepts_create {fits : Bool} : Work.Accepts (repo.create id row fits) s x s' ↔
    id ∉ repo.table s.db ∧ fits = true ∧
      Constraints (repo.put s.db ((repo.table s.db).insert id row)) ∧
      s' = { s with db := repo.put s.db ((repo.table s.db).insert id row) } := by
  unfold Repository.create
  rw [accepts_query_then, Work.accepts_require_then, accepts_flush, decide_eq_false_iff_not,
    and_assoc]

theorem accepts_update {fits : Bool} : Work.Accepts (repo.update id row fits) s x s' ↔
    fits = true ∧ Constraints (repo.put s.db ((repo.table s.db).insert id row)) ∧
      s' = { s with db := repo.put s.db ((repo.table s.db).insert id row) } := by
  unfold Repository.update
  rw [Work.accepts_require_then, accepts_flush]

theorem accepts_softDelete : Work.Accepts (repo.softDelete id row) s x s' ↔
    Constraints (repo.put s.db ((repo.table s.db).insert id row)) ∧
      s' = { s with db := repo.put s.db ((repo.table s.db).insert id row) } := accepts_flush

theorem accepts_publish : Work.Accepts publish s x s' ↔
    s' = { s with
      hooks := s.hooks ++
        [.publishRouterInvalidation, .bumpGeneration .bumpCatalogCacheGeneration] } := by
  unfold publish
  rw [Work.accepts_bind]
  constructor
  · rintro ⟨_, t, ht, hs⟩
    rw [accepts_addAfterCommitHook] at ht hs
    rw [hs, ht]
    simp
  · rintro rfl
    refine ⟨(), _, accepts_addAfterCommitHook.2 rfl, accepts_addAfterCommitHook.2 ?_⟩
    simp

/-- A repository's row is in its table. -/
theorem lookup_of_get (h : repo.get s.db id = some row) :
    (repo.table s.db).lookup id = some row ∧ (repo.base row).isDeleted = false := by
  obtain ⟨hrow, hlive⟩ := Option.filter_eq_some_iff.1 h
  exact ⟨hrow, by simpa using hlive⟩

end

/-! ### Guards leave the tables -/

/-- The body checks something and changes nothing. -/
def Checks {α : Type} (p : Service α) : Prop := ∀ s a s', Work.Accepts p s a s' → s' = s

section

variable {α β V : Type} {p : Service α} {s s' : UnitOfWork} {b : β}

theorem Checks.accepts (h : Checks p) {f : α → Service β} (hb : Work.Accepts (p >>= f) s b s') :
    ∃ a, Work.Accepts p s a s ∧ Work.Accepts (f a) s b s' := by
  obtain ⟨a, t, ha, hf⟩ := Work.accepts_bind.1 hb
  obtain rfl := h s a t ha
  exact ⟨a, ha, hf⟩

theorem Checks.bind (h : Checks p) {f : α → Service β} (hf : ∀ a, Checks (f a)) :
    Checks (p >>= f) := by
  intro s b s' hb
  obtain ⟨a, -, hb⟩ := h.accepts hb
  exact hf a s b s' hb

theorem checks_pure {a : α} : Checks (pure a : Service α) :=
  fun _ _ _ h => (Work.accepts_pure.1 h).2

theorem checks_query {f : Tables → α} : Checks (query f) := fun _ _ _ h => (Work.accepts_read.1 h).2

theorem checks_require {c : Prop} [Decidable c] {e : Failure} :
    Checks (Work.require c e : Service Unit) := fun _ _ _ h => (Work.accepts_require.1 h).2

theorem checks_requireSome {x : Option α} {e : Failure} :
    Checks (Work.requireSome x e : Service α) := fun _ _ _ h => (Work.accepts_requireSome.1 h).2

theorem checks_check {x : Except Failure α} : Checks (Work.check x : Service α) :=
  fun _ _ _ h => (Work.accepts_check.1 h).2

theorem checks_when {c : Prop} [Decidable c] {q : Service Unit} (h : Checks q) :
    Checks (Work.when c q) := by
  intro s a s' ha
  rcases Work.accepts_when.1 ha with ⟨-, hq⟩ | ⟨-, hs⟩
  · exact h s a s' hq
  · exact hs

theorem checks_repoRequire {repo : Repository V} {id : Int} : Checks (repo.require id) :=
  checks_query.bind fun _ => checks_requireSome

theorem checks_requireNone {repo : Repository V} {p : V → Bool} {currentId : Option Int}
    {failure : Failure} : Checks (repo.requireNone p currentId failure) :=
  checks_query.bind fun _ => checks_require

theorem checks_validateApiBase {ctx : Context} {apiBase : Option String} :
    Checks (validateApiBase ctx apiBase) := by
  cases apiBase with
  | none => exact checks_pure
  | some url => exact checks_requireSome.bind fun _ => checks_require

theorem checks_requireActiveChannel {id : Int} : Checks (requireActiveChannel id) :=
  checks_repoRequire.bind fun _ => checks_require.bind fun _ => checks_pure

theorem checks_requireActiveModel {id : Int} : Checks (requireActiveModel id) :=
  checks_repoRequire.bind fun _ => checks_require.bind fun _ => checks_pure

theorem checks_onValue {field : Option (Option α)} {check : α → Service Unit}
    (h : ∀ value, Checks (check value)) : Checks (onValue field check) := by
  unfold onValue
  split
  · exact checks_pure
  · exact h _

theorem checks_onSet {field : Option (Option Int)} {check : Int → Service V}
    (h : ∀ id, Checks (check id)) : Checks (onSet field check) := by
  unfold onSet
  split
  · exact checks_pure
  · exact fun _ _ _ h => (Work.accepts_throw h).elim
  · exact (h _).bind fun _ => checks_pure

theorem checks_requireModelExists {id : Int} : Checks (requireModelExists id) :=
  checks_query.bind fun _ => checks_require

theorem checks_requireModelIfSet {logicalModelId : Option Int} :
    Checks (requireModelIfSet logicalModelId) := by
  cases logicalModelId with
  | none => exact checks_pure
  | some modelId => exact checks_requireModelExists

theorem checks_validateScope {scope : QuotaScope} {scopeId : Option Int} :
    Checks (validateScope scope scopeId) := checks_require.bind fun _ => checks_require

end

/-! ## Three kinds of changes -/

/-- The rows in which the tables differ belong to `owner`. -/
def Touches {V κ : Type} (owned : V → κ) (owner : κ) (table table' : Table Int V) : Prop :=
  ∀ id, table'.lookup id = table.lookup id ∨
    (∀ row ∈ table.lookup id, owned row = owner) ∧ ∀ row ∈ table'.lookup id, owned row = owner

section

variable {V κ : Type} {owned : V → κ} {owner : κ} {table table' table'' : Table Int V} {id : Int}
  {row : V}

theorem Touches.refl : Touches owned owner table table := fun _ => .inl rfl

theorem Touches.insert (h : Touches owned owner table table') (hnew : owned row = owner)
    (hold : ∀ old ∈ table'.lookup id, owned old = owner) :
    Touches owned owner table (table'.insert id row) := by
  intro i
  by_cases hi : i = id
  · subst hi
    refine .inr ⟨fun old hrow => ?_, fun new hrow => ?_⟩
    · rcases h i with hsame | ⟨howned, -⟩
      · exact hold old (hsame ▸ hrow)
      · exact howned old hrow
    · rw [Finmap.lookup_insert] at hrow
      cases hrow
      exact hnew
  · rw [Finmap.lookup_insert_of_ne _ hi]
    exact h i

end

/-- What an accepted request does. -/
inductive Change (db : Tables) : Tables → List Hook → Prop
  /-- Channels, keys, models or deployments. -/
  | catalog {db' : Tables} (hgrants : db'.grants = db.grants) (hquotas : db'.quotas = db.quotas) :
      Change db db' [.publishRouterInvalidation, .bumpGeneration .bumpCatalogCacheGeneration]
  /-- Grants of a subject. -/
  | grants {grants : Table Int UserModelGrant} {scope : GrantScope} {scopeId : Int}
      (htouches : Touches UserModelGrant.subject (scope, scopeId) db.grants grants) :
      Change db { db with grants } [.bumpGeneration (.bumpGrantCacheGeneration scope scopeId)]
  /-- Quotas of a subject. -/
  | quotas {quotas : Table Int Quota} {scope : QuotaScope} {scopeId : Option Int}
      (hpresent : scope = .global ↔ scopeId = none)
      (htouches : Touches (fun row => (row.scope, row.scopeId)) (scope, scopeId) db.quotas quotas) :
      Change db { db with quotas } [.bumpGeneration (.bumpQuotaCacheGeneration scope scopeId)]

theorem Constraints.presence {db : Tables} (h : Constraints db) {id : Int} {quota : Quota}
    (hquota : db.quotas.lookup id = some quota) : quota.ScopeIdPresence :=
  h.scopeIdPresence id (Finmap.mem_keys.2 (Finmap.mem_of_lookup_eq_some hquota)) quota hquota

/-- Wherever the body ends, it has made such a change, and the constraints hold. -/
def Leads {α : Type} (db : Tables) (p : Service α) : Prop :=
  ∀ a t, Work.Accepts p { db } a t → Change db t.db t.hooks ∧ Constraints t.db

section

variable {α β V : Type} {db : Tables} {p : Service α} {f : α → Service β}

theorem Leads.check (hp : Checks p) (hf : ∀ a, Leads db (f a)) : Leads db (p >>= f) := by
  intro b t h
  obtain ⟨a, -, h⟩ := hp.accepts h
  exact hf a b t h

theorem Leads.found {repo : Repository V} {id : Int} {f : V → Service β}
    (hf : ∀ row, repo.get db id = some row → Leads db (f row)) :
    Leads db (repo.require id >>= f) := by
  intro b t h
  obtain ⟨row, hrow, h⟩ := checks_repoRequire.accepts h
  exact hf row (accepts_repoRequire.1 hrow).1 b t h

theorem Leads.answer (h : Leads db p) : Leads db (p >>= fun _ => pure ()) := by
  intro b t hb
  obtain ⟨a, t', ha, ht⟩ := Work.accepts_bind.1 hb
  obtain ⟨-, rfl⟩ := Work.accepts_pure.1 ht
  exact h a t ha

/-! ### The catalog -/

/-- The body writes to the catalog and to nothing else. -/
def WritesCatalog (db : Tables) (p : Service Unit) : Prop := ∀ x t, Work.Accepts p { db } x t →
  t.hooks = [] ∧ t.db.grants = db.grants ∧ t.db.quotas = db.quotas ∧ Constraints t.db

theorem leads_publish {write : Service Unit} (hwrite : WritesCatalog db write) :
    Leads db (write >>= fun _ => publish) := by
  intro y t h
  obtain ⟨x, t₁, hw, hp⟩ := Work.accepts_bind.1 h
  obtain ⟨hhooks, hgrants, hquotas, hdb⟩ := hwrite x t₁ hw
  obtain rfl := accepts_publish.1 hp
  dsimp only
  rw [hhooks]
  exact ⟨.catalog hgrants hquotas, hdb⟩

theorem leads_publish_answer {write : Service Unit} {a : α} (hwrite : WritesCatalog db write) :
    Leads db (write >>= fun _ => publish >>= fun _ => pure a) := by
  intro y t h
  obtain ⟨x, t₁, hw, h⟩ := Work.accepts_bind.1 h
  obtain ⟨z, t₂, hp, h⟩ := Work.accepts_bind.1 h
  obtain ⟨-, rfl⟩ := Work.accepts_pure.1 h
  exact leads_publish hwrite z t (Work.accepts_bind.2 ⟨x, t₁, hw, hp⟩)

/-- A repository of the catalog. -/
structure Repository.OfCatalog (repo : Repository V) : Prop where
  grants : ∀ db table, (repo.put db table).grants = db.grants
  quotas : ∀ db table, (repo.put db table).quotas = db.quotas

theorem channels_ofCatalog : channels.OfCatalog := ⟨fun _ _ => rfl, fun _ _ => rfl⟩
theorem keys_ofCatalog : keys.OfCatalog := ⟨fun _ _ => rfl, fun _ _ => rfl⟩
theorem models_ofCatalog : models.OfCatalog := ⟨fun _ _ => rfl, fun _ _ => rfl⟩
theorem deployments_ofCatalog : deployments.OfCatalog := ⟨fun _ _ => rfl, fun _ _ => rfl⟩

variable {repo : Repository V} {id : Int} {row : V} {fits : Bool}

theorem Repository.OfCatalog.create (h : repo.OfCatalog) :
    WritesCatalog db (repo.create id row fits) := by
  intro x t ha
  obtain ⟨-, -, hdb, rfl⟩ := accepts_create.1 ha
  exact ⟨rfl, h.grants _ _, h.quotas _ _, hdb⟩

theorem Repository.OfCatalog.update (h : repo.OfCatalog) :
    WritesCatalog db (repo.update id row fits) := by
  intro x t ha
  obtain ⟨-, hdb, rfl⟩ := accepts_update.1 ha
  exact ⟨rfl, h.grants _ _, h.quotas _ _, hdb⟩

theorem Repository.OfCatalog.softDelete (h : repo.OfCatalog) :
    WritesCatalog db (repo.softDelete id row) := by
  intro x t ha
  obtain ⟨hdb, rfl⟩ := accepts_softDelete.1 ha
  exact ⟨rfl, h.grants _ _, h.quotas _ _, hdb⟩

end

section

variable {ctx : Context} {actor : AuthenticatedUser} {request : Request} {db db' : Tables}
  {hooks : List Hook} {id newId : Int}

theorem createChannel_leads (payload : UpstreamChannelCreate) :
    Leads db (createChannel ctx newId payload actor) :=
  .check checks_require fun _ => .check checks_validateApiBase fun _ =>
    .check checks_requireNone fun _ => leads_publish_answer channels_ofCatalog.create

theorem updateChannel_leads (payload : UpstreamChannelUpdate) :
    Leads db (updateChannel ctx id payload actor) :=
  .check checks_repoRequire fun _ => .check checks_require fun _ =>
    .check checks_validateApiBase fun _ => .check (checks_onValue fun _ => checks_requireNone) fun _ =>
      leads_publish_answer channels_ofCatalog.update

theorem deleteChannel_leads : Leads db (deleteChannel id actor) :=
  .check checks_repoRequire fun _ => .check checks_require fun _ => .check checks_query fun _ =>
    .check checks_require fun _ => leads_publish channels_ofCatalog.softDelete

theorem createKey_leads (payload : ChannelKeyCreate) :
    Leads db (createKey ctx newId payload actor) :=
  .check checks_require fun _ => .check checks_repoRequire fun _ => .check checks_check fun _ =>
    leads_publish_answer keys_ofCatalog.create

theorem updateKey_leads (payload : ChannelKeyUpdate) : Leads db (updateKey id payload actor) :=
  .check checks_repoRequire fun _ => .check checks_require fun _ =>
    .check (checks_onValue fun _ => checks_repoRequire.bind fun _ => checks_pure) fun _ =>
      leads_publish_answer keys_ofCatalog.update

theorem deleteKey_leads : Leads db (deleteKey id actor) :=
  .check checks_repoRequire fun _ => .check checks_require fun _ =>
    leads_publish keys_ofCatalog.softDelete

theorem rotateKey_leads (newApiKey : String) : Leads db (rotateKey ctx id newApiKey actor) :=
  .check checks_repoRequire fun _ => .check checks_require fun _ => .check checks_check fun _ =>
    leads_publish_answer keys_ofCatalog.update

theorem createModel_leads (payload : LogicalModelCreate) :
    Leads db (createModel newId payload actor) :=
  .check checks_require fun _ => .check checks_requireNone fun _ =>
    leads_publish_answer models_ofCatalog.create

theorem updateModel_leads (payload : LogicalModelUpdate) : Leads db (updateModel id payload actor) :=
  .check checks_repoRequire fun _ => .check checks_require fun _ =>
    .check (checks_onValue fun _ => checks_requireNone) fun _ =>
      leads_publish_answer models_ofCatalog.update

theorem deleteModel_leads : Leads db (deleteModel id actor) :=
  .check checks_repoRequire fun _ => .check checks_require fun _ => .check checks_query fun _ =>
    .check checks_require fun _ => leads_publish models_ofCatalog.softDelete

theorem createDeployment_leads (payload : ModelDeploymentCreate) :
    Leads db (createDeployment newId payload actor) :=
  .check checks_require fun _ => .check checks_requireActiveModel fun _ =>
    .check checks_requireActiveChannel fun _ => .check checks_requireNone fun _ =>
      leads_publish_answer deployments_ofCatalog.create

theorem updateDeployment_leads (payload : ModelDeploymentUpdate) :
    Leads db (updateDeployment id payload actor) :=
  .check checks_repoRequire fun _ => .check checks_require fun _ =>
    .check (checks_onSet fun _ => checks_requireActiveModel) fun _ =>
      .check (checks_onSet fun _ => checks_requireActiveChannel) fun _ =>
        .check (checks_when checks_requireNone) fun _ =>
          leads_publish_answer deployments_ofCatalog.update

theorem deleteDeployment_leads : Leads db (deleteDeployment id actor) :=
  .check checks_repoRequire fun _ => .check checks_require fun _ =>
    leads_publish deployments_ofCatalog.softDelete

/-! ### Grants -/

/-- The default grant of a subject is a grant of that subject. -/
theorem clearDefault_touches {scope : GrantScope} {scopeId : Int} {x : Unit} {t : UnitOfWork}
    (h : Work.Accepts (clearDefault scope scopeId actor) { db } x t) : ∃ grants,
      t = { db := { db with grants } } ∧
        Touches UserModelGrant.subject (scope, scopeId) db.grants grants := by
  unfold clearDefault at h
  rw [accepts_query_then] at h
  split at h
  · exact ⟨db.grants, (Work.accepts_pure.1 h).2, .refl⟩
  · next id row hfirst =>
    obtain ⟨-, -, rfl⟩ := accepts_update.1 h
    obtain ⟨hlookup, hselected⟩ := of_first hfirst
    simp only [Bool.and_eq_true, beq_iff_eq] at hselected
    obtain ⟨⟨⟨hscope, hscopeId⟩, -⟩, -⟩ := hselected
    have hsubject : row.subject = (scope, scopeId) := by rw [UserModelGrant.subject, hscope, hscopeId]
    refine ⟨_, rfl, Touches.refl.insert hsubject fun old hold => ?_⟩
    rw [hlookup] at hold
    cases hold
    exact hsubject

/-- The default grant is cleared under a condition. -/
theorem clearDefault_when {c : Prop} [Decidable c] {scope : GrantScope} {scopeId : Int} {x : Unit}
    {t : UnitOfWork} (h : Work.Accepts (Work.when c (clearDefault scope scopeId actor)) { db } x t) :
    ∃ grants, t = { db := { db with grants } } ∧
      Touches UserModelGrant.subject (scope, scopeId) db.grants grants := by
  rcases Work.accepts_when.1 h with ⟨-, hclear⟩ | ⟨-, rfl⟩
  · exact clearDefault_touches hclear
  · exact ⟨db.grants, rfl, .refl⟩

theorem createGrant_leads (payload : GrantCreate) : Leads db (createGrant newId payload actor) := by
  refine .check checks_query fun _ => .check checks_require fun _ =>
    .check checks_requireModelExists fun _ => .check checks_requireNone fun _ => ?_
  intro a t h
  obtain ⟨_, t₁, hclear, h⟩ := Work.accepts_bind.1 h
  obtain ⟨grants, rfl, htouches⟩ := clearDefault_when hclear
  obtain ⟨_, t₂, hcreate, h⟩ := Work.accepts_bind.1 h
  obtain ⟨hnew, -, hdb, rfl⟩ := accepts_create.1 hcreate
  obtain ⟨_, t₃, hhook, h⟩ := Work.accepts_bind.1 h
  obtain rfl := accepts_addAfterCommitHook.1 hhook
  obtain ⟨-, rfl⟩ := Work.accepts_pure.1 h
  refine ⟨.grants (htouches.insert rfl fun old hold => ?_), hdb⟩
  exact absurd (Finmap.mem_of_lookup_eq_some hold) hnew

theorem updateGrant_leads (payload : GrantUpdate) : Leads db (updateGrant id payload actor) := by
  refine .found fun grant hgrant => ?_
  intro a t h
  obtain ⟨_, t₁, hclear, h⟩ := Work.accepts_bind.1 h
  obtain ⟨grants, rfl, htouches⟩ := clearDefault_when hclear
  obtain ⟨_, t₂, hupdate, h⟩ := Work.accepts_bind.1 h
  obtain ⟨-, hdb, rfl⟩ := accepts_update.1 hupdate
  obtain ⟨_, t₃, hhook, h⟩ := Work.accepts_bind.1 h
  obtain rfl := accepts_addAfterCommitHook.1 hhook
  obtain ⟨-, rfl⟩ := Work.accepts_pure.1 h
  have hlookup : db.grants.lookup id = some grant := (Option.filter_eq_some_iff.1 hgrant).1
  refine ⟨.grants (htouches.insert rfl fun old hold => ?_), hdb⟩
  rcases htouches id with hsame | ⟨-, howned⟩
  · have hrow : some old = some grant := by rw [← hlookup, ← hsame]; exact hold.symm
    cases hrow
    rfl
  · exact howned old hold

theorem deleteGrant_leads : Leads db (deleteGrant id actor) := by
  refine .found fun grant hgrant => ?_
  intro a t h
  obtain ⟨_, t₁, hdelete, h⟩ := Work.accepts_bind.1 h
  obtain ⟨hdb, rfl⟩ := accepts_softDelete.1 hdelete
  obtain rfl := accepts_addAfterCommitHook.1 h
  have hlookup : db.grants.lookup id = some grant := (Option.filter_eq_some_iff.1 hgrant).1
  refine ⟨.grants (Touches.refl.insert rfl fun old hold => ?_), hdb⟩
  cases hlookup.symm.trans hold
  rfl

/-! ### Quotas -/

theorem createQuota_leads (payload : QuotaCreate) : Leads db (createQuota newId payload actor) := by
  intro a t h
  obtain ⟨x, hscope, h⟩ := checks_validateScope.accepts h
  unfold validateScope at hscope
  rw [Work.accepts_require_then, Work.accepts_require] at hscope
  obtain ⟨hglobal, hother, -⟩ := hscope
  have hpresent : payload.scope = .global ↔ payload.scopeId = none :=
    ⟨fun hscope => not_not.1 fun hsome => hglobal ⟨hscope, hsome⟩,
      fun hnone => not_not.1 fun hscope => hother ⟨hscope, hnone⟩⟩
  refine Leads.check checks_require (fun _ => .check checks_query fun _ =>
    .check checks_require fun _ => .check checks_requireModelIfSet fun _ =>
      .check checks_requireNone fun _ => ?_) a t h
  intro a t h
  obtain ⟨_, t₁, hcreate, h⟩ := Work.accepts_bind.1 h
  obtain ⟨hnew, -, hdb, rfl⟩ := accepts_create.1 hcreate
  obtain ⟨_, t₂, hhook, h⟩ := Work.accepts_bind.1 h
  obtain rfl := accepts_addAfterCommitHook.1 hhook
  obtain ⟨-, rfl⟩ := Work.accepts_pure.1 h
  refine ⟨.quotas hpresent (Touches.refl.insert rfl fun old hold => ?_), hdb⟩
  exact absurd (Finmap.mem_of_lookup_eq_some hold) hnew

/-- A quota that is found is changed, and its subject stays. -/
theorem visible_leads {α : Type} {f : Quota → Service α}
    (hf : ∀ quota, db.quotas.lookup id = some quota → Leads db (f quota)) :
    Leads db (requireVisibleQuota id actor >>= f) := by
  unfold requireVisibleQuota
  rw [bind_assoc]
  refine .found fun quota hquota => ?_
  rw [bind_assoc]
  refine .check checks_require fun _ => ?_
  rw [pure_bind]
  exact hf quota (Option.filter_eq_some_iff.1 hquota).1

theorem quota_change {quota row : Quota} (hpresent : quota.ScopeIdPresence)
    (hquota : db.quotas.lookup id = some quota) (hscope : row.scope = quota.scope)
    (hscopeId : row.scopeId = quota.scopeId) :
    Change db { db with quotas := db.quotas.insert id row }
      [.bumpGeneration (.bumpQuotaCacheGeneration row.scope row.scopeId)] := by
  refine .quotas (by rw [hscope, hscopeId]; exact hpresent) (Touches.refl.insert rfl fun old hold => ?_)
  rw [hquota] at hold
  cases hold
  rw [hscope, hscopeId]

theorem updateQuota_leads (hdb : Constraints db) (payload : QuotaUpdate) :
    Leads db (updateQuota id payload actor) := by
  refine visible_leads fun quota hquota => ?_
  intro a t h
  obtain ⟨_, t₁, hupdate, h⟩ := Work.accepts_bind.1 h
  obtain ⟨-, hdb', rfl⟩ := accepts_update.1 hupdate
  obtain ⟨_, t₂, hhook, h⟩ := Work.accepts_bind.1 h
  obtain rfl := accepts_addAfterCommitHook.1 hhook
  obtain ⟨-, rfl⟩ := Work.accepts_pure.1 h
  exact ⟨quota_change (hdb.presence hquota) hquota rfl rfl, hdb'⟩

theorem deleteQuota_leads (hdb : Constraints db) : Leads db (deleteQuota id actor) := by
  refine visible_leads fun quota hquota => ?_
  intro a t h
  obtain ⟨_, t₁, hdelete, h⟩ := Work.accepts_bind.1 h
  obtain ⟨hdb', rfl⟩ := accepts_softDelete.1 hdelete
  obtain rfl := accepts_addAfterCommitHook.1 h
  exact ⟨quota_change (hdb.presence hquota) hquota rfl rfl, hdb'⟩

/-- An accepted request does one of the three. -/
theorem Accepted.leads (h : Accepted ctx actor request db db' hooks) (hdb : Constraints db) :
    Change db db' hooks ∧ Constraints db' := by
  have hleads : Leads db (request.run ctx actor) := by
    cases request with
    | createChannel newId payload => exact (createChannel_leads payload).answer
    | updateChannel id payload => exact (updateChannel_leads payload).answer
    | deleteChannel id => exact deleteChannel_leads
    | createKey newId payload => exact (createKey_leads payload).answer
    | updateKey id payload => exact (updateKey_leads payload).answer
    | rotateKey id newApiKey => exact (rotateKey_leads newApiKey).answer
    | deleteKey id => exact deleteKey_leads
    | createModel newId payload => exact (createModel_leads payload).answer
    | updateModel id payload => exact (updateModel_leads payload).answer
    | deleteModel id => exact deleteModel_leads
    | createDeployment newId payload => exact (createDeployment_leads payload).answer
    | updateDeployment id payload => exact (updateDeployment_leads payload).answer
    | deleteDeployment id => exact deleteDeployment_leads
    | createGrant newId payload => exact (createGrant_leads payload).answer
    | updateGrant id payload => exact (updateGrant_leads payload).answer
    | deleteGrant id => exact deleteGrant_leads
    | createQuota newId payload => exact (createQuota_leads payload).answer
    | updateQuota id payload => exact (updateQuota_leads hdb payload).answer
    | deleteQuota id => exact deleteQuota_leads hdb
  exact hleads () _ h

end

end GatewayAdmin
