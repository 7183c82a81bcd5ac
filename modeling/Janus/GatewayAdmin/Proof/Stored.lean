import Janus.GatewayAdmin.Proof.Invalidation

/-!
# Requests do not fail at the database

The services look for a row with the same name, the same deployment, the same grant or the same
quota before they write, and clear a subject's default grant before they set another.
`storable_not_refused`: after any run of accepted requests, a request whose values fit their columns
and whose new id is free violates no index and no check of the schema.

* `Stores`: a body that does not fail at the database.
* `Cleared`: what `clearDefault` leaves.
-/

set_option autoImplicit false

namespace GatewayAdmin

open Sql
open Gateway (GrantScope QuotaScope)
open Rbac (AuthenticatedUser column setsNull)

/-- From `s` on, the body does not fail at the database. -/
def Stores {α : Type} (s : UnitOfWork) (p : Service α) : Prop := p.run s ≠ .error .database

/-! ## Bodies -/

section

variable {α β V : Type} {s : UnitOfWork} {p : Service α} {repo : Repository V} {id : Int} {row : V}
  {fits : Bool} {e : Failure}

theorem Stores.bind {f : α → Service β} (hp : Stores s p)
    (hf : ∀ a t, Work.Accepts p s a t → Stores t (f a)) : Stores s (p >>= f) := by
  unfold Stores at hp ⊢
  cases hrun : p.run s with
  | error e =>
    rw [Work.run_bind_error hrun]
    rintro ⟨⟩
    exact hp hrun
  | ok r =>
    rw [Work.run_bind_ok hrun]
    exact hf r.1 r.2 hrun

theorem Stores.check {f : α → Service β} (hc : Checks p) (hp : Stores s p)
    (hf : ∀ a, Work.Accepts p s a s → Stores s (f a)) : Stores s (p >>= f) := by
  refine hp.bind fun a t ha => ?_
  obtain rfl := hc s a t ha
  exact hf a ha

/-- A body that has an answer does not fail. -/
theorem stores_of_ok {a : α} {t : UnitOfWork} (h : p.run s = .ok (a, t)) : Stores s p := by
  rw [Stores, h]
  intro hfail
  cases hfail

theorem stores_pure {a : α} : Stores s (pure a : Service α) := stores_of_ok rfl

theorem stores_query {f : Tables → α} : Stores s (query f) := stores_of_ok rfl

theorem stores_addAfterCommitHook {hook : Hook} : Stores s (addAfterCommitHook hook) :=
  stores_of_ok rfl

theorem stores_publish : Stores s publish :=
  stores_addAfterCommitHook.bind fun _ _ _ => stores_addAfterCommitHook

theorem stores_require {c : Prop} [Decidable c] (he : e ≠ .database) :
    Stores s (Work.require c e : Service Unit) := by
  unfold Stores
  rw [Work.run_require]
  split
  · intro hfail
    cases hfail
  · intro hfail
    cases hfail
    exact he rfl

theorem stores_requireSome {x : Option α} (he : e ≠ .database) :
    Stores s (Work.requireSome x e : Service α) := by
  unfold Stores
  cases x with
  | some a => exact stores_of_ok Work.run_requireSome
  | none =>
    rw [Work.run_requireSome]
    intro hfail
    cases hfail
    exact he rfl

theorem stores_when {c : Prop} [Decidable c] {q : Service Unit} (h : c → Stores s q) :
    Stores s (Work.when c q) := by
  by_cases hc : c
  · rw [Stores, Work.run_when_pos hc]
    exact h hc
  · exact stores_of_ok (Work.run_when_neg hc)

theorem stores_repoRequire : Stores s (repo.require id) :=
  stores_query.bind fun _ _ _ => stores_requireSome (by decide)

theorem stores_requireNone {p : V → Bool} {currentId : Option Int} (he : e ≠ .database) :
    Stores s (repo.requireNone p currentId e) :=
  stores_query.bind fun _ _ _ => stores_require he

theorem stores_flush {f : Tables → Tables} (hdb : Constraints (f s.db)) : Stores s (flush f) := by
  refine .check checks_query stores_query fun db hquery => ?_
  obtain ⟨rfl, -⟩ := Work.accepts_read.1 hquery
  unfold Stores
  rw [Work.run_bind_ok (by rw [Work.run_require, if_pos hdb])]
  exact stores_of_ok rfl

theorem stores_create (hnew : id ∉ repo.table s.db) (hfits : fits = true)
    (hdb : Constraints (repo.put s.db ((repo.table s.db).insert id row))) :
    Stores s (repo.create id row fits) := by
  refine .check checks_query stores_query fun taken hquery => ?_
  obtain ⟨rfl, -⟩ := Work.accepts_read.1 hquery
  unfold Stores
  rw [Work.run_bind_ok (by rw [Work.run_require, if_pos ⟨decide_eq_false hnew, hfits⟩])]
  exact stores_flush hdb

theorem stores_update (hfits : fits = true)
    (hdb : Constraints (repo.put s.db ((repo.table s.db).insert id row))) :
    Stores s (repo.update id row fits) := by
  unfold Stores Repository.update
  rw [Work.run_bind_ok (by rw [Work.run_require, if_pos hfits])]
  exact stores_flush hdb

/-- A write that is followed by the hooks. -/
theorem Stores.published {write : Service Unit} (h : Stores s write) :
    Stores s (write >>= fun _ => publish) := h.bind fun _ _ _ => stores_publish

theorem Stores.answered {write hooks : Service Unit} {a : α} (h : Stores s write)
    (hhooks : ∀ t, Stores t hooks) :
    Stores s (write >>= fun _ => hooks >>= fun _ => pure a) :=
  h.bind fun _ _ _ => (hhooks _).bind fun _ _ _ => stores_pure

/-! ### Guards -/

theorem stores_wildcard {actor : AuthenticatedUser} : Stores s (requireCatalogWildcard actor) :=
  stores_require (by decide)

theorem stores_validateApiBase {ctx : Context} {apiBase : Option String} :
    Stores s (validateApiBase ctx apiBase) := by
  cases apiBase with
  | none => exact stores_pure
  | some url => exact (stores_requireSome (by decide)).bind fun _ _ _ => stores_require (by decide)

theorem stores_requireActiveChannel : Stores s (requireActiveChannel id) :=
  stores_repoRequire.bind fun _ _ _ => (stores_require (by decide)).bind fun _ _ _ => stores_pure

theorem stores_requireActiveModel : Stores s (requireActiveModel id) :=
  stores_repoRequire.bind fun _ _ _ => (stores_require (by decide)).bind fun _ _ _ => stores_pure

theorem stores_onValue {field : Option (Option α)} {check : α → Service Unit}
    (h : ∀ value, Stores s (check value)) : Stores s (onValue field check) := by
  unfold onValue
  split
  · exact stores_pure
  · exact h _

theorem stores_onSet {field : Option (Option Int)} {check : Int → Service V}
    (h : ∀ id, Stores s (check id)) : Stores s (onSet field check) := by
  unfold onSet
  split
  · exact stores_pure
  · intro hfail
    cases hfail
  · exact (h _).bind fun _ _ _ => stores_pure

theorem stores_encrypt {ctx : Context} {plaintext : String} : Stores s (encrypt ctx plaintext) := by
  unfold Stores encrypt
  rw [Work.run_check]
  cases ChannelCrypto.encryptChannelKey ctx.fernet ctx.channelEncryptionKeys ctx.nonce plaintext <;>
    intro hfail <;> cases hfail

theorem stores_requireModelExists : Stores s (requireModelExists id) :=
  stores_query.bind fun _ _ _ => stores_require (by decide)

theorem stores_requireModelIfSet {logicalModelId : Option Int} :
    Stores s (requireModelIfSet logicalModelId) := by
  cases logicalModelId with
  | none => exact stores_pure
  | some modelId => exact stores_requireModelExists

/-! ## Entries that are free -/

variable {κ : Type} {base : V → BaseEntity} {key : V → κ} {table : Table Int V} {k : κ}

theorem indexed_eq_some : indexed base key row = some k ↔
    (base row).isDeleted = false ∧ key row = k := by
  unfold indexed
  split
  · next h => simp [h]
  · next h => simp [h]

/-- Who has been found to have the entry is the only one to have it. -/
theorem holder_of_first (hunique : Unique (indexed base key) table) {p : V → Bool}
    (hp : ∀ row, p row = true ↔ key row = k) {currentId : Option Int}
    (hfound : ∀ entry ∈ first (fun row => !(base row).isDeleted && p row) table,
      some entry.1 = currentId) {j : Int} {row' : V} (hrow : table.lookup j = some row')
    (hentry : indexed base key row' = some k) : some j = currentId := by
  obtain ⟨hlive, hkey⟩ := indexed_eq_some.1 hentry
  cases hfirst : first (fun row => !(base row).isDeleted && p row) table with
  | none =>
    have hno := first_eq_none.1 hfirst j row' hrow
    rw [hlive, (hp row').2 hkey] at hno
    cases hno
  | some entry =>
    obtain ⟨hlookup, hselected⟩ := of_first hfirst
    rw [Bool.and_eq_true, Bool.not_eq_true', hp] at hselected
    rw [hunique j row' entry.1 entry.2 k hrow hlookup hentry (indexed_eq_some.2 hselected)]
    exact hfound entry hfirst

/-- A new row with an entry that nobody has. -/
theorem unique_created (hunique : Unique (indexed base key) table) {p : V → Bool}
    (hp : ∀ row', p row' = true ↔ key row' = key row)
    (hfound : ∀ entry ∈ first (fun row => !(base row).isDeleted && p row) table,
      some entry.1 = none) : Unique (indexed base key) (table.insert id row) := by
  refine hunique.insert fun k j row' hk hrow hentry => ?_
  obtain ⟨-, rfl⟩ := indexed_eq_some.1 hk
  cases holder_of_first hunique hp hfound hrow hentry

/-- A row with an entry that nobody else has. -/
theorem unique_updated (hunique : Unique (indexed base key) table) {p : V → Bool}
    (hp : ∀ row', p row' = true ↔ key row' = key row)
    (hfound : ∀ entry ∈ first (fun row => !(base row).isDeleted && p row) table,
      some entry.1 = some id) : Unique (indexed base key) (table.insert id row) := by
  refine hunique.insert fun k j row' hk hrow hentry => ?_
  obtain ⟨-, rfl⟩ := indexed_eq_some.1 hk
  exact Option.some.inj (holder_of_first hunique hp hfound hrow hentry)

end

section

variable {ctx : Context} {actor : AuthenticatedUser} {db : Tables} {id newId : Int}

/-! ## The catalog -/

theorem createChannel_stores (hdb : Constraints db) (payload : UpstreamChannelCreate)
    (hnew : newId ∉ db.channels) : Stores { db } (createChannel ctx newId payload actor) := by
  refine .check checks_require stores_wildcard fun _ _ =>
    .check checks_validateApiBase stores_validateApiBase fun _ _ =>
    .check checks_requireNone (stores_requireNone (by decide)) fun _ hname => ?_
  refine Stores.answered (stores_create hnew rfl { hdb with channelName := ?_ })
    fun _ => stores_publish
  exact unique_created hdb.channelName (fun _ => beq_iff_eq) (accepts_requireNone.1 hname).1

/-- A name that is set is nobody else's. -/
theorem unique_renamed {V : Type} {repo : Repository V} {name : V → String}
    (hunique : Unique (indexed repo.base name) (repo.table db)) {field : Option (Option String)}
    {row old : V} {x : Unit} (hold : repo.get db id = some old)
    (hdeleted : (repo.base row).isDeleted = (repo.base old).isDeleted)
    (hrow : name row = column field (name old)) (hfield : setsNull field = false)
    (hcheck : Work.Accepts (onValue field fun new =>
      repo.requireNone (fun row => name row == new) (some id) (.requestInvalid 400)) { db } x { db }) :
    Unique (indexed repo.base name) ((repo.table db).insert id row) := by
  have hlookup : (repo.table db).lookup id = some old := (Option.filter_eq_some_iff.1 hold).1
  rcases field with - | - | new
  · refine hunique.update hlookup (.inr ?_)
    unfold indexed
    rw [hdeleted, hrow]
    rfl
  · cases hfield
  · have hname : name row = new := hrow
    exact unique_updated hunique (fun row' => by rw [beq_iff_eq, hname])
      (accepts_requireNone.1 hcheck).1

theorem updateChannel_stores (hdb : Constraints db) (payload : UpstreamChannelUpdate)
    (hfits : payload.fits = true) : Stores { db } (updateChannel ctx id payload actor) := by
  refine .check checks_repoRequire stores_repoRequire fun old hold =>
    .check checks_require stores_wildcard fun _ _ =>
    .check checks_validateApiBase stores_validateApiBase fun _ _ =>
    .check (checks_onValue fun _ => checks_requireNone)
      (stores_onValue fun _ => stores_requireNone (by decide)) fun _ hname => ?_
  refine Stores.answered (stores_update hfits { hdb with channelName := ?_ }) fun _ => stores_publish
  refine unique_renamed hdb.channelName (accepts_repoRequire.1 hold).1 rfl rfl ?_ hname
  simp only [UpstreamChannelUpdate.fits, Bool.not_eq_true', Bool.or_eq_false_iff] at hfits
  exact hfits.1.1.1

theorem softDeleted_unique {V κ : Type} {base : V → BaseEntity} {key : V → κ} {table : Table Int V}
    (hunique : Unique (indexed base key) table) {row : V} (h : (base row).isDeleted = true) :
    Unique (indexed base key) (table.insert id row) := by
  refine hunique.insert fun k j row' hk _ _ => ?_
  rw [indexed_eq_some, h] at hk
  cases hk.1

theorem deleteChannel_stores (hdb : Constraints db) : Stores { db } (deleteChannel id actor) := by
  refine .check checks_repoRequire stores_repoRequire fun old _ =>
    .check checks_require stores_wildcard fun _ _ => .check checks_query stores_query fun _ _ =>
    .check checks_require (stores_require (by decide)) fun _ _ => ?_
  exact (stores_flush { hdb with channelName := softDeleted_unique hdb.channelName rfl }).published

/-- Keys have no index. -/
theorem Constraints.keys (hdb : Constraints db) (keys : Table Int ChannelKey) :
    Constraints { db with keys } := { hdb with }

theorem createKey_stores (hdb : Constraints db) (payload : ChannelKeyCreate)
    (hnew : newId ∉ db.keys) : Stores { db } (createKey ctx newId payload actor) :=
  .check checks_require stores_wildcard fun _ _ =>
    .check checks_repoRequire stores_repoRequire fun _ _ => .check checks_check stores_encrypt
      fun _ _ => .answered (stores_create hnew rfl (hdb.keys _)) fun _ => stores_publish

theorem updateKey_stores (hdb : Constraints db) (payload : ChannelKeyUpdate)
    (hfits : payload.fits = true) : Stores { db } (updateKey id payload actor) :=
  .check checks_repoRequire stores_repoRequire fun _ _ =>
    .check checks_require stores_wildcard fun _ _ =>
    .check (checks_onValue fun _ => checks_repoRequire.bind fun _ => checks_pure)
      (stores_onValue fun _ => stores_repoRequire.bind fun _ _ _ => stores_pure) fun _ _ =>
      .answered (stores_update hfits (hdb.keys _)) fun _ => stores_publish

theorem deleteKey_stores (hdb : Constraints db) : Stores { db } (deleteKey id actor) :=
  .check checks_repoRequire stores_repoRequire fun _ _ =>
    .check checks_require stores_wildcard fun _ _ => (stores_flush (hdb.keys _)).published

theorem rotateKey_stores (hdb : Constraints db) (newApiKey : String) :
    Stores { db } (rotateKey ctx id newApiKey actor) :=
  .check checks_repoRequire stores_repoRequire fun _ _ =>
    .check checks_require stores_wildcard fun _ _ => .check checks_check stores_encrypt fun _ _ =>
      .answered (stores_update rfl (hdb.keys _)) fun _ => stores_publish

theorem createModel_stores (hdb : Constraints db) (payload : LogicalModelCreate)
    (hnew : newId ∉ db.models)
    (hfits : (priceFits payload.priceInput && priceFits payload.priceOutput) = true) :
    Stores { db } (createModel newId payload actor) := by
  refine .check checks_require stores_wildcard fun _ _ =>
    .check checks_requireNone (stores_requireNone (by decide)) fun _ hname => ?_
  refine Stores.answered (stores_create hnew hfits { hdb with modelName := ?_ })
    fun _ => stores_publish
  exact unique_created hdb.modelName (fun _ => beq_iff_eq) (accepts_requireNone.1 hname).1

theorem updateModel_stores (hdb : Constraints db) (payload : LogicalModelUpdate)
    (hfits : payload.fits = true) : Stores { db } (updateModel id payload actor) := by
  refine .check checks_repoRequire stores_repoRequire fun old hold =>
    .check checks_require stores_wildcard fun _ _ =>
    .check (checks_onValue fun _ => checks_requireNone)
      (stores_onValue fun _ => stores_requireNone (by decide)) fun _ hname => ?_
  refine Stores.answered (stores_update hfits { hdb with modelName := ?_ }) fun _ => stores_publish
  refine unique_renamed hdb.modelName (accepts_repoRequire.1 hold).1 rfl rfl ?_ hname
  simp only [LogicalModelUpdate.fits, Bool.and_eq_true, Bool.not_eq_true', Bool.or_eq_false_iff]
    at hfits
  exact hfits.1.1.1.1.1

theorem deleteModel_stores (hdb : Constraints db) : Stores { db } (deleteModel id actor) := by
  refine .check checks_repoRequire stores_repoRequire fun old _ =>
    .check checks_require stores_wildcard fun _ _ => .check checks_query stores_query fun _ _ =>
    .check checks_require (stores_require (by decide)) fun _ _ => ?_
  exact (stores_flush { hdb with modelName := softDeleted_unique hdb.modelName rfl }).published

theorem pair_beq {a b c d : Int} : (a == c && b == d) = true ↔ (a, b) = (c, d) := by
  rw [Bool.and_eq_true, beq_iff_eq, beq_iff_eq, Prod.mk.injEq]

theorem createDeployment_stores (hdb : Constraints db) (payload : ModelDeploymentCreate)
    (hnew : newId ∉ db.deployments) : Stores { db } (createDeployment newId payload actor) := by
  refine .check checks_require stores_wildcard fun _ _ =>
    .check checks_requireActiveModel stores_requireActiveModel fun _ _ =>
    .check checks_requireActiveChannel stores_requireActiveChannel fun _ _ =>
    .check checks_requireNone (stores_requireNone (by decide)) fun _ hfree => ?_
  refine Stores.answered (stores_create hnew rfl { hdb with carrier := ?_ }) fun _ => stores_publish
  exact unique_created hdb.carrier (fun _ => pair_beq) (accepts_requireNone.1 hfree).1

theorem updateDeployment_stores (hdb : Constraints db) (payload : ModelDeploymentUpdate)
    (hfits : payload.fits = true) : Stores { db } (updateDeployment id payload actor) := by
  refine .check checks_repoRequire stores_repoRequire fun old hold =>
    .check checks_require stores_wildcard fun _ _ =>
    .check (checks_onSet fun _ => checks_requireActiveModel)
      (stores_onSet fun _ => stores_requireActiveModel) fun _ _ =>
    .check (checks_onSet fun _ => checks_requireActiveChannel)
      (stores_onSet fun _ => stores_requireActiveChannel) fun _ _ =>
    .check (checks_when checks_requireNone) (stores_when fun _ => stores_requireNone (by decide))
      fun _ hfree => ?_
  refine Stores.answered (stores_update hfits { hdb with carrier := ?_ }) fun _ => stores_publish
  rcases Work.accepts_when.1 hfree with ⟨-, hfree⟩ | ⟨hunset, -⟩
  · exact unique_updated hdb.carrier (fun _ => pair_beq) (accepts_requireNone.1 hfree).1
  · -- neither of the two is set, so the row keeps its entry
    have hlookup : db.deployments.lookup id = some old :=
      (Option.filter_eq_some_iff.1 (accepts_repoRequire.1 hold).1).1
    rw [not_or, Option.not_isSome_iff_eq_none, Option.not_isSome_iff_eq_none] at hunset
    refine hdb.carrier.update hlookup (.inr ?_)
    simp [indexed, ModelDeployment.set, hunset.1, hunset.2, column]

theorem deleteDeployment_stores (hdb : Constraints db) :
    Stores { db } (deleteDeployment id actor) :=
  .check checks_repoRequire stores_repoRequire fun _ _ =>
    .check checks_require stores_wildcard fun _ _ =>
      (stores_flush { hdb with carrier := softDeleted_unique hdb.carrier rfl }).published

/-! ## Grants -/

theorem UserModelGrant.default_eq_some {row : UserModelGrant} {subject : GrantScope × Int} :
    row.default = some subject ↔
      (row.isDefault = true ∧ row.isDeleted = false) ∧ row.subject = subject := by
  unfold UserModelGrant.default
  split
  · next h => simp [h]
  · next h => simp [h]

/-- The entry of a grant in the index of subjects and models. -/
abbrev UserModelGrant.entry (row : UserModelGrant) : Option ((GrantScope × Int) × Int) :=
  indexed UserModelGrant.toBaseEntity (fun g => (g.subject, g.logicalModelId)) row

/-- The grants of before, but under the condition the subject has no default. -/
structure Cleared (c : Prop) (subject : GrantScope × Int) (grants grants' : Table Int UserModelGrant) :
    Prop where
  ids : ∀ id ∈ grants', id ∈ grants
  entries : ∀ id row', grants'.lookup id = some row' →
    ∃ row, grants.lookup id = some row ∧ row'.entry = row.entry
  kept : ∀ id row, grants.lookup id = some row → row.isDefault = false ∨ ¬ c →
    grants'.lookup id = some row
  noDefault : c → ∀ id row', grants'.lookup id = some row' → row'.default ≠ some subject

theorem Cleared.refl {c : Prop} {subject : GrantScope × Int} {grants : Table Int UserModelGrant}
    (h : c → ∀ id row, grants.lookup id = some row → row.default ≠ some subject) :
    Cleared c subject grants grants where
  ids _ hid := hid
  entries _ row hrow := ⟨row, hrow, rfl⟩
  kept _ _ hrow _ := hrow
  noDefault := h

/-- The row of a default grant that is one no more. -/
def UserModelGrant.cleared (row : UserModelGrant) (actor : AuthenticatedUser) : UserModelGrant :=
  { row with isDefault := false, updatedBy := some actor.userId }

theorem cleared_insert {c : Prop} {subject : GrantScope × Int} {row : UserModelGrant}
    (hdb : Constraints db) (hc : c) (hrow : db.grants.lookup id = some row) (hdefault : row.default = some subject) :
    Cleared c subject db.grants (db.grants.insert id (row.cleared actor)) where
  ids i hi := by
    rcases Finmap.mem_insert.1 hi with rfl | hi
    · exact Finmap.mem_of_lookup_eq_some hrow
    · exact hi
  entries i row' hrow' := by
    by_cases hid : i = id
    · subst hid
      rw [Finmap.lookup_insert] at hrow'
      cases hrow'
      exact ⟨row, hrow, rfl⟩
    · rw [Finmap.lookup_insert_of_ne _ hid] at hrow'
      exact ⟨row', hrow', rfl⟩
  kept i old hold hkept := by
    by_cases hid : i = id
    · subst hid
      cases hrow.symm.trans hold
      rcases hkept with hno | hno
      · rw [(UserModelGrant.default_eq_some.1 hdefault).1.1] at hno
        cases hno
      · exact absurd hc hno
    · rw [Finmap.lookup_insert_of_ne _ hid]
      exact hold
  noDefault _ i row' hrow' hsome := by
    by_cases hid : i = id
    · subst hid
      rw [Finmap.lookup_insert] at hrow'
      cases hrow'
      cases (UserModelGrant.default_eq_some.1 hsome).1.1
    · rw [Finmap.lookup_insert_of_ne _ hid] at hrow'
      exact hid (hdb.oneDefault i row' id row subject hrow' hrow hsome hdefault)

/-- The default grant of the subject, if there is one, is found. -/
theorem clearDefault_cleared {c : Prop} {scope : GrantScope} {scopeId : Int} {x : Unit}
    {t : UnitOfWork} (hdb : Constraints db) (hc : c)
    (h : Work.Accepts (clearDefault scope scopeId actor) { db } x t) : ∃ grants,
      t = { db := { db with grants } } ∧ Constraints { db with grants } ∧
        Cleared c (scope, scopeId) db.grants grants := by
  unfold clearDefault at h
  rw [accepts_query_then] at h
  split at h
  · next hfirst =>
    refine ⟨db.grants, (Work.accepts_pure.1 h).2, hdb, .refl fun _ id row hrow hsome => ?_⟩
    have hno := first_eq_none.1 hfirst id row hrow
    obtain ⟨⟨hdefault, hlive⟩, hsubject⟩ := UserModelGrant.default_eq_some.1 hsome
    obtain ⟨rfl, rfl⟩ := Prod.mk.inj hsubject
    simp [hdefault, hlive] at hno
  · next id row hfirst =>
    obtain ⟨-, hdb', rfl⟩ := accepts_update.1 h
    obtain ⟨hlookup, hselected⟩ := of_first hfirst
    simp only [Bool.and_eq_true, beq_iff_eq, Bool.not_eq_true'] at hselected
    obtain ⟨⟨⟨rfl, rfl⟩, hdefault⟩, hlive⟩ := hselected
    have hsome : row.default = some (row.scope, row.scopeId) :=
      UserModelGrant.default_eq_some.2 ⟨⟨hdefault, hlive⟩, rfl⟩
    exact ⟨_, rfl, hdb', cleared_insert hdb hc hlookup hsome⟩

theorem clearDefault_when_cleared {c : Prop} [Decidable c] {scope : GrantScope} {scopeId : Int}
    {x : Unit} {t : UnitOfWork} (hdb : Constraints db)
    (h : Work.Accepts (Work.when c (clearDefault scope scopeId actor)) { db } x t) : ∃ grants,
      t = { db := { db with grants } } ∧ Constraints { db with grants } ∧
        Cleared c (scope, scopeId) db.grants grants := by
  rcases Work.accepts_when.1 h with ⟨hc, hclear⟩ | ⟨hc, rfl⟩
  · exact clearDefault_cleared hdb hc hclear
  · exact ⟨db.grants, rfl, hdb, .refl fun hc' => absurd hc' hc⟩

theorem clearDefault_stores {scope : GrantScope} {scopeId : Int} (hdb : Constraints db) :
    Stores { db } (clearDefault scope scopeId actor) := by
  refine .check checks_query stores_query fun current hquery => ?_
  obtain ⟨rfl, -⟩ := Work.accepts_read.1 hquery
  split
  · exact stores_pure
  · next id row hfirst =>
    obtain ⟨hlookup, -⟩ := of_first hfirst
    refine stores_update rfl { hdb with grant := ?_, oneDefault := ?_ }
    · exact hdb.grant.update hlookup (.inr rfl)
    · exact hdb.oneDefault.update hlookup (.inl rfl)

theorem createGrant_stores (hdb : Constraints db) (payload : GrantCreate) (hnew : newId ∉ db.grants) :
    Stores { db } (createGrant newId payload actor) := by
  refine .check checks_query stores_query fun _ _ =>
    .check checks_require (stores_require (by decide)) fun _ _ =>
    .check checks_requireModelExists stores_requireModelExists fun _ _ =>
    .check checks_requireNone (stores_requireNone (by decide)) fun _ hfree =>
    (stores_when fun _ => clearDefault_stores hdb).bind fun _ t hclear => ?_
  obtain ⟨grants, rfl, hdb', hcleared⟩ := clearDefault_when_cleared hdb hclear
  refine Stores.answered (stores_create (fun hid => hnew (hcleared.ids newId hid)) rfl
    { hdb' with grant := ?_, oneDefault := ?_ }) fun _ => stores_addAfterCommitHook
  · -- nobody had the entry before the default was cleared, and nobody has it now
    refine hdb'.grant.insert fun k j row' hk hrow hentry => ?_
    obtain ⟨row, hrow, hsame⟩ := hcleared.entries j row' hrow
    obtain ⟨-, rfl⟩ := indexed_eq_some.1 hk
    have hholder := holder_of_first hdb.grant (fun g => by simp [UserModelGrant.subject])
      (accepts_requireNone.1 hfree).1 hrow (hsame.symm.trans hentry)
    cases hholder
  · refine hdb'.oneDefault.insert fun k j row' hk hrow hentry => ?_
    obtain ⟨⟨hdefault, -⟩, rfl⟩ := UserModelGrant.default_eq_some.1 hk
    exact absurd hentry (hcleared.noDefault hdefault j row' hrow)

theorem updateGrant_stores (hdb : Constraints db) (payload : GrantUpdate)
    (hfits : payload.fits = true) : Stores { db } (updateGrant id payload actor) := by
  refine .check checks_repoRequire stores_repoRequire fun grant hgrant =>
    (stores_when fun _ => clearDefault_stores hdb).bind fun _ t hclear => ?_
  obtain ⟨grants, rfl, hdb', hcleared⟩ := clearDefault_when_cleared hdb hclear
  obtain ⟨hlookup, hlive⟩ := lookup_of_get (accepts_repoRequire.1 hgrant).1
  have hkept : grants.lookup id = some grant := by
    refine hcleared.kept id grant hlookup ?_
    cases grant.isDefault <;> simp
  refine Stores.answered (stores_update hfits { hdb' with grant := ?_, oneDefault := ?_ })
    fun _ => stores_addAfterCommitHook
  · exact hdb'.grant.update hkept (.inr rfl)
  · by_cases hset : payload.isDefault = some (some true) ∧ grant.isDefault = false
    · -- the subject has no default left
      refine hdb'.oneDefault.insert fun k j row' hk hrow hentry => ?_
      obtain ⟨-, rfl⟩ := UserModelGrant.default_eq_some.1 hk
      exact absurd hentry (hcleared.noDefault hset j row' hrow)
    · refine hdb'.oneDefault.update hkept ?_
      rcases hvalue : payload.isDefault with - | - | - | -
      · exact .inr (by simp [UserModelGrant.default, UserModelGrant.set, UserModelGrant.subject,
          hvalue, column])
      · simp [GrantUpdate.fits, setsNull, hvalue] at hfits
      · exact .inl (by simp [UserModelGrant.default, UserModelGrant.set, hvalue, column])
      · have hdefault : grant.isDefault = true := by simpa [hvalue] using hset
        exact .inr (by simp [UserModelGrant.default, UserModelGrant.set, UserModelGrant.subject,
          hvalue, column, hdefault])

theorem deleteGrant_stores (hdb : Constraints db) : Stores { db } (deleteGrant id actor) := by
  refine .check checks_repoRequire stores_repoRequire fun grant hgrant => ?_
  have hlookup := (lookup_of_get (accepts_repoRequire.1 hgrant).1).1
  refine (stores_flush { hdb with grant := ?_, oneDefault := ?_ }).bind
    fun _ _ _ => stores_addAfterCommitHook
  · exact softDeleted_unique hdb.grant rfl
  · refine hdb.oneDefault.update hlookup (.inl ?_)
    simp [UserModelGrant.default]

/-! ## Quotas -/

theorem presence_insert {row : Quota} (hdb : Constraints db) (hrow : row.ScopeIdPresence) :
    ∀ i ∈ (db.quotas.insert id row).keys, ∀ row' ∈ (db.quotas.insert id row).lookup i,
      row'.ScopeIdPresence := by
  intro i _ row' hrow'
  by_cases hid : i = id
  · subst hid
    rw [Finmap.lookup_insert] at hrow'
    cases hrow'
    exact hrow
  · rw [Finmap.lookup_insert_of_ne _ hid] at hrow'
    exact hdb.presence hrow'

theorem createQuota_stores (hdb : Constraints db) (payload : QuotaCreate) (hnew : newId ∉ db.quotas)
    (hfits : limitFits payload.limitValue = true) :
    Stores { db } (createQuota newId payload actor) := by
  refine .check checks_validateScope
    ((stores_require (by decide)).bind fun _ _ _ => stores_require (by decide)) fun _ hscope =>
    .check checks_require (stores_require (by decide)) fun _ _ =>
    .check checks_query stores_query fun _ _ =>
    .check checks_require (stores_require (by decide)) fun _ _ =>
    .check checks_requireModelIfSet stores_requireModelIfSet fun _ _ =>
    .check checks_requireNone (stores_requireNone (by decide)) fun _ hfree => ?_
  unfold validateScope at hscope
  rw [Work.accepts_require_then, Work.accepts_require] at hscope
  obtain ⟨hglobal, hother, -⟩ := hscope
  refine Stores.answered (stores_create hnew hfits { hdb with quota := ?_, scopeIdPresence := ?_ })
    fun _ => stores_addAfterCommitHook
  · exact unique_created hdb.quota (fun _ => beq_iff_eq) (accepts_requireNone.1 hfree).1
  · exact presence_insert hdb ⟨fun hscope => not_not.1 fun hsome => hglobal ⟨hscope, hsome⟩,
      fun hnone => not_not.1 fun hscope => hother ⟨hscope, hnone⟩⟩

/-- A quota that is found keeps its identity. -/
theorem visible_stores {α : Type} {f : Quota → Service α}
    (hf : ∀ quota, db.quotas.lookup id = some quota → Stores { db } (f quota)) :
    Stores { db } (requireVisibleQuota id actor >>= f) := by
  unfold requireVisibleQuota
  rw [bind_assoc]
  refine .check checks_repoRequire stores_repoRequire fun quota hquota => ?_
  rw [bind_assoc]
  refine .check checks_require (stores_require (by decide)) fun _ _ => ?_
  rw [pure_bind]
  exact hf quota (lookup_of_get (accepts_repoRequire.1 hquota).1).1

theorem updateQuota_stores (hdb : Constraints db) (payload : QuotaUpdate)
    (hfits : payload.fits = true) : Stores { db } (updateQuota id payload actor) := by
  refine visible_stores fun quota hquota => ?_
  refine Stores.answered (stores_update hfits { hdb with quota := ?_, scopeIdPresence := ?_ })
    fun _ => stores_addAfterCommitHook
  · exact hdb.quota.update hquota (.inr rfl)
  · have hpresent := hdb.presence hquota
    exact presence_insert hdb hpresent

theorem deleteQuota_stores (hdb : Constraints db) : Stores { db } (deleteQuota id actor) := by
  refine visible_stores fun quota hquota => ?_
  refine (stores_flush { hdb with quota := ?_, scopeIdPresence := ?_ }).bind
    fun _ _ _ => stores_addAfterCommitHook
  · exact softDeleted_unique hdb.quota rfl
  · have hpresent := hdb.presence hquota
    exact presence_insert hdb hpresent

end

/-! ## Runs of requests -/

/-- The id of a new row is free, and the values fit their columns. -/
def Request.Storable (db : Tables) : Request → Prop
  | createChannel newId _ => newId ∉ db.channels
  | updateChannel _ payload => payload.fits = true
  | createKey newId _ => newId ∉ db.keys
  | updateKey _ payload => payload.fits = true
  | createModel newId payload => newId ∉ db.models ∧
      (priceFits payload.priceInput && priceFits payload.priceOutput) = true
  | updateModel _ payload => payload.fits = true
  | createDeployment newId _ => newId ∉ db.deployments
  | updateDeployment _ payload => payload.fits = true
  | createGrant newId _ => newId ∉ db.grants
  | updateGrant _ payload => payload.fits = true
  | createQuota newId payload => newId ∉ db.quotas ∧ limitFits payload.limitValue = true
  | updateQuota _ payload => payload.fits = true
  | deleteChannel _ | rotateKey _ _ | deleteKey _ | deleteModel _ | deleteDeployment _
  | deleteGrant _ | deleteQuota _ => True

/-- The tables that accepted requests lead to. -/
def Runs : Tables → Tables → Prop :=
  Relation.ReflTransGen fun db db' => ∃ ctx actor request hooks,
    Accepted ctx actor request db db' hooks

section

variable {db₀ db : Tables}

theorem Runs.constraints (h : Runs db₀ db) (hdb : Constraints db₀) : Constraints db := by
  induction h with
  | refl => exact hdb
  | tail _ hstep ih =>
    obtain ⟨ctx, actor, request, hooks, haccepted⟩ := hstep
    exact (haccepted.leads ih).2

theorem Request.stores {request : Request} (hdb : Constraints db) (h : request.Storable db)
    (ctx : Context) (actor : AuthenticatedUser) : Stores { db } (request.run ctx actor) := by
  have answer {α : Type} {p : Service α} (hp : Stores { db } p) :
      Stores { db } (p >>= fun _ => pure ()) := hp.bind fun _ _ _ => stores_pure
  cases request with
  | createChannel newId payload => exact answer (createChannel_stores hdb payload h)
  | updateChannel id payload => exact answer (updateChannel_stores hdb payload h)
  | deleteChannel id => exact deleteChannel_stores hdb
  | createKey newId payload => exact answer (createKey_stores hdb payload h)
  | updateKey id payload => exact answer (updateKey_stores hdb payload h)
  | rotateKey id newApiKey => exact answer (rotateKey_stores hdb newApiKey)
  | deleteKey id => exact deleteKey_stores hdb
  | createModel newId payload => exact answer (createModel_stores hdb payload h.1 h.2)
  | updateModel id payload => exact answer (updateModel_stores hdb payload h)
  | deleteModel id => exact deleteModel_stores hdb
  | createDeployment newId payload => exact answer (createDeployment_stores hdb payload h)
  | updateDeployment id payload => exact answer (updateDeployment_stores hdb payload h)
  | deleteDeployment id => exact deleteDeployment_stores hdb
  | createGrant newId payload => exact answer (createGrant_stores hdb payload h)
  | updateGrant id payload => exact answer (updateGrant_stores hdb payload h)
  | deleteGrant id => exact deleteGrant_stores hdb
  | createQuota newId payload => exact answer (createQuota_stores hdb payload h.1 h.2)
  | updateQuota id payload => exact answer (updateQuota_stores hdb payload h)
  | deleteQuota id => exact deleteQuota_stores hdb

/-- After any run of accepted requests the constraints hold, and no request is refused by them. -/
theorem storable_not_refused (hdb : Constraints db₀) (hruns : Runs db₀ db) {request : Request}
    (hstorable : request.Storable db) (ctx : Context) (actor : AuthenticatedUser) :
    Constraints db ∧ (request.run ctx actor).run { db } ≠ .error .database :=
  ⟨hruns.constraints hdb, request.stores (hruns.constraints hdb) hstorable ctx actor⟩

end

def regrant : GrantCreate where
  scope := .user
  scopeId := 7
  logicalModelId := 1
  isDefault := true

/-- The grant that was deleted is made again. -/
theorem storable_not_refused_again : Constraints revoked ∧
    ((Request.createGrant 6 regrant).run context admin).run { db := revoked } ≠ .error .database := by
  have hfree : (Request.createGrant 6 regrant).Storable revoked := by
    change 6 ∉ revoked.grants
    decide
  exact storable_not_refused (show Constraints granted by decide)
    (.single ⟨_, _, _, _, accepted_deleteGrant⟩) hfree context admin

end GatewayAdmin
