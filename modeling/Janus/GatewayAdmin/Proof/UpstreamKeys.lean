import Janus.Core.Proof.ChannelCrypto
import Janus.GatewayAdmin.Proof.RouterConfig

/-!
# Routers use the keys that were given

Requests create, rotate, move and delete upstream keys, and the list of encryption keys changes in
between. `Vault.Sound`: every stored key decrypts to the text that was given for it last.
`live_router_keys`: a rebuild then does not fail, and the live router has these texts.

* `Vault`: the setting, the tables, and the text that was given last for each key.
* `Leaves`: a body that leaves the stored keys.
-/

set_option autoImplicit false

namespace GatewayAdmin

open Sql ChannelCrypto
open Rbac (AuthenticatedUser)
open RouterFactory (Litellm Manager deploymentOf modelList withoutDegraded)

/-! ## What is left as it is -/

/-- The body leaves the stored keys. -/
def Leaves {α : Type} (p : Service α) : Prop :=
  ∀ s a t, Work.Accepts p s a t → t.db.keys = s.db.keys

section

variable {α β V : Type} {p : Service α} {repo : Repository V} {id : Int} {row : V} {fits : Bool}

theorem Checks.leaves (h : Checks p) : Leaves p := by
  intro s a t ha
  rw [h s a t ha]

theorem Leaves.bind {f : α → Service β} (hp : Leaves p) (hf : ∀ a, Leaves (f a)) :
    Leaves (p >>= f) := by
  intro s b t h
  obtain ⟨a, t₁, ha, hb⟩ := Work.accepts_bind.1 h
  exact (hf a t₁ b t hb).trans (hp s a t₁ ha)

theorem leaves_hook {hook : Hook} : Leaves (addAfterCommitHook hook) := by
  intro s a t h
  rw [accepts_addAfterCommitHook.1 h]

theorem leaves_publish : Leaves publish := leaves_hook.bind fun _ => leaves_hook

/-- A repository of another table. -/
def Repository.Aside (repo : Repository V) : Prop := ∀ db table, (repo.put db table).keys = db.keys

theorem Repository.Aside.create (h : repo.Aside) : Leaves (repo.create id row fits) := by
  intro s a t ha
  obtain ⟨-, -, -, rfl⟩ := accepts_create.1 ha
  exact h _ _

theorem Repository.Aside.update (h : repo.Aside) : Leaves (repo.update id row fits) := by
  intro s a t ha
  obtain ⟨-, -, rfl⟩ := accepts_update.1 ha
  exact h _ _

theorem Repository.Aside.softDelete (h : repo.Aside) : Leaves (repo.softDelete id row) := by
  intro s a t ha
  obtain ⟨-, rfl⟩ := accepts_softDelete.1 ha
  exact h _ _

theorem leaves_when {c : Prop} [Decidable c] {q : Service Unit} (h : Leaves q) :
    Leaves (Work.when c q) := by
  intro s a t ha
  rcases Work.accepts_when.1 ha with ⟨-, hq⟩ | ⟨-, rfl⟩
  · exact h s a t hq
  · rfl

/-- A write to another table, the hooks and the answer. -/
theorem Leaves.written {write hooks : Service Unit} {a : α} (h : Leaves write) (hh : Leaves hooks) :
    Leaves (write >>= fun _ => hooks >>= fun _ => pure a) :=
  h.bind fun _ => hh.bind fun _ => checks_pure.leaves

end

theorem channels_aside : channels.Aside := fun _ _ => rfl
theorem models_aside : models.Aside := fun _ _ => rfl
theorem deployments_aside : deployments.Aside := fun _ _ => rfl
theorem grants_aside : grants.Aside := fun _ _ => rfl
theorem quotas_aside : quotas.Aside := fun _ _ => rfl

/-- The text that is given last for each key, after the request. -/
def Request.given (request : Request) (given : Int → String) : Int → String :=
  match request with
  | createKey newId payload => Function.update given newId payload.apiKey
  | rotateKey id newApiKey => Function.update given id newApiKey
  | _ => given

/-- The requests that write to keys. -/
def Request.writesKeys : Request → Bool
  | createKey .. | updateKey .. | rotateKey .. | deleteKey .. => true
  | _ => false

section

variable {ctx : Context} {actor : AuthenticatedUser} {db db' : Tables} {hooks : List Hook}

theorem leaves_clearDefault {scope : Gateway.GrantScope} {scopeId : Int} :
    Leaves (clearDefault scope scopeId actor) := by
  refine checks_query.leaves.bind fun current => ?_
  split
  · exact checks_pure.leaves
  · exact grants_aside.update

theorem leaves_visible {α : Type} {id : Int} {f : Quota → Service α} (hf : ∀ quota, Leaves (f quota)) :
    Leaves (requireVisibleQuota id actor >>= f) :=
  ((checks_repoRequire.leaves.bind fun _ => checks_require.leaves.bind fun _ => checks_pure.leaves)).bind
    hf

theorem Request.leaves {request : Request} (h : request.writesKeys = false) :
    Leaves (request.run ctx actor) := by
  have answer {α : Type} {p : Service α} (hp : Leaves p) : Leaves (p >>= fun _ => pure ()) :=
    hp.bind fun _ => checks_pure.leaves
  cases request with
  | createChannel newId payload =>
    exact answer (checks_require.leaves.bind fun _ => checks_validateApiBase.leaves.bind fun _ =>
      checks_requireNone.leaves.bind fun _ => .written channels_aside.create leaves_publish)
  | updateChannel id payload =>
    exact answer (checks_repoRequire.leaves.bind fun _ => checks_require.leaves.bind fun _ =>
      checks_validateApiBase.leaves.bind fun _ =>
      (checks_onValue fun _ => checks_requireNone).leaves.bind fun _ =>
        .written channels_aside.update leaves_publish)
  | deleteChannel id =>
    exact checks_repoRequire.leaves.bind fun _ => checks_require.leaves.bind fun _ =>
      checks_query.leaves.bind fun _ => checks_require.leaves.bind fun _ =>
        channels_aside.softDelete.bind fun _ => leaves_publish
  | createModel newId payload =>
    exact answer (checks_require.leaves.bind fun _ => checks_requireNone.leaves.bind fun _ =>
      .written models_aside.create leaves_publish)
  | updateModel id payload =>
    exact answer (checks_repoRequire.leaves.bind fun _ => checks_require.leaves.bind fun _ =>
      (checks_onValue fun _ => checks_requireNone).leaves.bind fun _ =>
        .written models_aside.update leaves_publish)
  | deleteModel id =>
    exact checks_repoRequire.leaves.bind fun _ => checks_require.leaves.bind fun _ =>
      checks_query.leaves.bind fun _ => checks_require.leaves.bind fun _ =>
        models_aside.softDelete.bind fun _ => leaves_publish
  | createDeployment newId payload =>
    exact answer (checks_require.leaves.bind fun _ => checks_requireActiveModel.leaves.bind fun _ =>
      checks_requireActiveChannel.leaves.bind fun _ => checks_requireNone.leaves.bind fun _ =>
        .written deployments_aside.create leaves_publish)
  | updateDeployment id payload =>
    exact answer (checks_repoRequire.leaves.bind fun _ => checks_require.leaves.bind fun _ =>
      (checks_onSet fun _ => checks_requireActiveModel).leaves.bind fun _ =>
      (checks_onSet fun _ => checks_requireActiveChannel).leaves.bind fun _ =>
      (checks_when checks_requireNone).leaves.bind fun _ =>
        .written deployments_aside.update leaves_publish)
  | deleteDeployment id =>
    exact checks_repoRequire.leaves.bind fun _ => checks_require.leaves.bind fun _ =>
      deployments_aside.softDelete.bind fun _ => leaves_publish
  | createGrant newId payload =>
    exact answer (checks_query.leaves.bind fun _ => checks_require.leaves.bind fun _ =>
      checks_requireModelExists.leaves.bind fun _ => checks_requireNone.leaves.bind fun _ =>
      (leaves_when leaves_clearDefault).bind fun _ => .written grants_aside.create leaves_hook)
  | updateGrant id payload =>
    exact answer (checks_repoRequire.leaves.bind fun _ =>
      (leaves_when leaves_clearDefault).bind fun _ => .written grants_aside.update leaves_hook)
  | deleteGrant id =>
    exact checks_repoRequire.leaves.bind fun _ => grants_aside.softDelete.bind fun _ => leaves_hook
  | createQuota newId payload =>
    exact answer (checks_validateScope.leaves.bind fun _ => checks_require.leaves.bind fun _ =>
      checks_query.leaves.bind fun _ => checks_require.leaves.bind fun _ =>
      checks_requireModelIfSet.leaves.bind fun _ => checks_requireNone.leaves.bind fun _ =>
        .written quotas_aside.create leaves_hook)
  | updateQuota id payload =>
    exact answer (leaves_visible fun _ => .written quotas_aside.update leaves_hook)
  | deleteQuota id =>
    exact leaves_visible fun _ => quotas_aside.softDelete.bind fun _ => leaves_hook
  | createKey | updateKey | rotateKey | deleteKey => cases h

/-! ## What is written -/

theorem lookup_insert_cases {V : Type} {table : Table Int V} {id i : Int} {row row' : V}
    (h : (table.insert id row).lookup i = some row') :
    i = id ∧ row' = row ∨ i ≠ id ∧ table.lookup i = some row' := by
  by_cases hi : i = id
  · subst hi
    rw [Finmap.lookup_insert] at h
    exact .inl ⟨rfl, (Option.some.inj h).symm⟩
  · rw [Finmap.lookup_insert_of_ne _ hi] at h
    exact .inr ⟨hi, h⟩

/-- The hooks and the answer leave the tables. -/
theorem db_of_written {α : Type} {write : Service Unit} {a b : α} {s t : UnitOfWork}
    (h : Work.Accepts (write >>= fun _ => publish >>= fun _ => pure a) s b t) :
    ∃ x t₁, Work.Accepts write s x t₁ ∧ t.db = t₁.db := by
  obtain ⟨x, t₁, hwrite, h⟩ := Work.accepts_bind.1 h
  obtain ⟨_, t₂, hpublish, h⟩ := Work.accepts_bind.1 h
  obtain ⟨-, rfl⟩ := Work.accepts_pure.1 h
  exact ⟨x, t₁, hwrite, by rw [accepts_publish.1 hpublish]⟩

theorem readable_of_encrypt {plaintext ciphertext : String} {s t : UnitOfWork}
    (h : Work.Accepts (encrypt ctx plaintext) s ciphertext t) :
    Readable ctx.fernet ctx.channelEncryptionKeys ciphertext plaintext := by
  obtain ⟨h, -⟩ := Work.accepts_check.1 h
  cases hencrypt : encryptChannelKey ctx.fernet ctx.channelEncryptionKeys ctx.nonce plaintext with
  | error e =>
    rw [hencrypt] at h
    cases h
  | ok text =>
    rw [hencrypt] at h
    cases h
    exact readable_encrypt hencrypt

/-- A stored key is one of before, or a ciphertext of the text that has just been given. -/
theorem Accepted.stored {request : Request} (h : Accepted ctx actor request db db' hooks)
    (given : Int → String) {id : Int} {row' : ChannelKey} (hrow : db'.keys.lookup id = some row') :
    Readable ctx.fernet ctx.channelEncryptionKeys row'.apiKeyEncrypted (request.given given id) ∨
      ∃ row, db.keys.lookup id = some row ∧ row'.apiKeyEncrypted = row.apiKeyEncrypted ∧
        request.given given id = given id := by
  -- a row that is written again with its ciphertext
  have hagain {i : Int} {old new : ChannelKey} (hold : keys.get db i = some old)
      (hrow : (db.keys.insert i new).lookup id = some row')
      (hsame : new.apiKeyEncrypted = old.apiKeyEncrypted) :
      ∃ row, db.keys.lookup id = some row ∧ row'.apiKeyEncrypted = row.apiKeyEncrypted := by
    rcases lookup_insert_cases hrow with ⟨rfl, rfl⟩ | ⟨-, hrow⟩
    · exact ⟨old, (Option.filter_eq_some_iff.1 hold).1, hsame⟩
    · exact ⟨row', hrow, rfl⟩
  by_cases hwrites : request.writesKeys = false
  · have hkeys : db'.keys = db.keys := request.leaves hwrites _ _ _ h
    rw [hkeys] at hrow
    refine .inr ⟨row', hrow, rfl, ?_⟩
    cases request <;> first | rfl | cases hwrites
  · cases request with
    | createKey newId payload =>
      obtain ⟨_, t, h, hanswer⟩ := Work.accepts_bind.1 h
      obtain ⟨-, rfl⟩ := Work.accepts_pure.1 hanswer
      obtain ⟨_, -, h⟩ := checks_require.accepts h
      obtain ⟨_, -, h⟩ := checks_repoRequire.accepts h
      obtain ⟨ciphertext, hencrypt, h⟩ := checks_check.accepts h
      obtain ⟨_, t, hcreate, hdb⟩ := db_of_written h
      obtain ⟨-, -, -, rfl⟩ := accepts_create.1 hcreate
      change db' = _ at hdb
      subst hdb
      rcases lookup_insert_cases hrow with ⟨rfl, rfl⟩ | ⟨hid, hrow⟩
      · refine .inl ?_
        rw [Request.given, Function.update_self]
        exact readable_of_encrypt hencrypt
      · exact .inr ⟨row', hrow, rfl, Function.update_of_ne hid _ _⟩
    | updateKey i payload =>
      obtain ⟨_, t, h, hanswer⟩ := Work.accepts_bind.1 h
      obtain ⟨-, rfl⟩ := Work.accepts_pure.1 hanswer
      obtain ⟨old, hold, h⟩ := checks_repoRequire.accepts h
      obtain ⟨_, -, h⟩ := checks_require.accepts h
      obtain ⟨_, -, h⟩ :=
        (checks_onValue fun _ => checks_repoRequire.bind fun _ => checks_pure).accepts h
      obtain ⟨_, t, hupdate, hdb⟩ := db_of_written h
      obtain ⟨-, -, rfl⟩ := accepts_update.1 hupdate
      change db' = _ at hdb
      subst hdb
      obtain ⟨row, hlookup, hsame⟩ := hagain (accepts_repoRequire.1 hold).1 hrow rfl
      exact .inr ⟨row, hlookup, hsame, rfl⟩
    | rotateKey i newApiKey =>
      obtain ⟨_, t, h, hanswer⟩ := Work.accepts_bind.1 h
      obtain ⟨-, rfl⟩ := Work.accepts_pure.1 hanswer
      obtain ⟨old, -, h⟩ := checks_repoRequire.accepts h
      obtain ⟨_, -, h⟩ := checks_require.accepts h
      obtain ⟨ciphertext, hencrypt, h⟩ := checks_check.accepts h
      obtain ⟨_, t, hupdate, hdb⟩ := db_of_written h
      obtain ⟨-, -, rfl⟩ := accepts_update.1 hupdate
      change db' = _ at hdb
      subst hdb
      rcases lookup_insert_cases hrow with ⟨rfl, rfl⟩ | ⟨hid, hrow⟩
      · refine .inl ?_
        rw [Request.given, Function.update_self]
        exact readable_of_encrypt hencrypt
      · exact .inr ⟨row', hrow, rfl, Function.update_of_ne hid _ _⟩
    | deleteKey i =>
      obtain ⟨old, hold, h⟩ := checks_repoRequire.accepts h
      obtain ⟨_, -, h⟩ := checks_require.accepts h
      obtain ⟨_, t, hdelete, hpublish⟩ := Work.accepts_bind.1 h
      obtain ⟨-, rfl⟩ := accepts_softDelete.1 hdelete
      cases accepts_publish.1 hpublish
      obtain ⟨row, hlookup, hsame⟩ := hagain (accepts_repoRequire.1 hold).1 hrow rfl
      exact .inr ⟨row, hlookup, hsame, rfl⟩
    | _ => exact absurd rfl hwrites

end

/-! ## Runs -/

/-- The setting `channel_encryption_keys`, the tables, and the text that was given last for each
key. -/
structure Vault where
  raw : Option String
  db : Tables
  given : Int → String

/-- An accepted request, or a new list of encryption keys that has the old ones. -/
inductive Vault.Step (ctx : Context) : Vault → Vault → Prop
  | request (v : Vault) (actor : AuthenticatedUser) (request : Request) (nonce : ctx.Nonce)
      (db' : Tables) (hooks : List Hook)
      (h : Accepted { ctx with nonce, channelEncryptionKeys := v.raw } actor request v.db db' hooks) :
      Step ctx v { v with db := db', given := request.given v.given }
  | rekey (v : Vault) (raw' : Option String) (h : Retains ctx.fernet v.raw raw') :
      Step ctx v { v with raw := raw' }

/-- There was no upstream key at first. -/
def Vault.Reachable (ctx : Context) (v : Vault) : Prop :=
  ∃ v₀, v₀.db.keys = ∅ ∧ Relation.ReflTransGen (Vault.Step ctx) v₀ v

/-- Every stored key decrypts to the text that was given for it last. -/
def Vault.Sound (ctx : Context) (v : Vault) : Prop :=
  ∀ id row, v.db.keys.lookup id = some row →
    Readable ctx.fernet v.raw row.apiKeyEncrypted (v.given id)

section

variable {ctx : Context} {v v' : Vault}

theorem Vault.Sound.step (h : v.Sound ctx) (hstep : Vault.Step ctx v v') : v'.Sound ctx := by
  cases hstep with
  | request actor request nonce db' hooks haccepted =>
    intro id row' hrow
    rcases haccepted.stored v.given hrow with hnew | ⟨row, hold, hsame, hgiven⟩
    · exact hnew
    · dsimp only
      rw [hsame, hgiven]
      exact h id row hold
  | rekey raw' hretains =>
    intro id row hrow
    exact (h id row hrow).mono hretains

theorem Vault.Reachable.sound (h : v.Reachable ctx) : v.Sound ctx := by
  obtain ⟨v₀, hempty, hrun⟩ := h
  induction hrun with
  | refl =>
    intro id row hrow
    rw [hempty] at hrow
    cases hrow
  | tail _ hstep ih => exact ih.step hstep

/-- The row of a route has the ciphertext of its key. -/
theorem key_of_route {before : String → String → Bool} {db : Tables} {row : RouterDeploymentRow}
    (h : row ∈ db.getRouterConfig before) : ∃ key, db.keys.lookup row.channelKeyId = some key ∧
      row.apiKeyEncrypted = key.apiKeyEncrypted := by
  obtain ⟨x, hx, rfl⟩ := List.mem_map.1 h
  obtain ⟨⟨-, -, -, hkey⟩, -⟩ := Tables.mem_expansions.1 (List.mem_mergeSort.1 hx)
  exact ⟨x.key, hkey, rfl⟩

theorem Vault.Sound.decrypt (h : v.Sound ctx) (hlawful : ctx.fernet.Lawful)
    {before : String → String → Bool} {row : RouterDeploymentRow}
    (hrow : row ∈ v.db.getRouterConfig before) :
    decryptChannelKey ctx.fernet v.raw row.apiKeyEncrypted = .ok (v.given row.channelKeyId) := by
  obtain ⟨key, hkey, hsame⟩ := key_of_route hrow
  rw [hsame]
  exact (h _ _ hkey).decrypt hlawful

end

/-- The deployment is one of the row, with this text as its key. -/
def Serves (given : Int → String) (row : RouterDeploymentRow) (d : RouterFactory.Deployment) : Prop :=
  d.modelName = row.logicalModelName ∧
    d.litellmParams.lookup "api_key" = some (.str (given row.channelKeyId))

section

variable {ctx : Context} {v : Vault} {rows : List RouterDeploymentRow}

/-- The model list of the rows has the texts that were given. -/
theorem modelList_given (h : ∀ row ∈ rows,
      decryptChannelKey ctx.fernet v.raw row.apiKeyEncrypted = .ok (v.given row.channelKeyId)) :
    modelList ctx.fernet v.raw rows =
      .ok (rows.map fun row => deploymentOf (v.given row.channelKeyId) row) := by
  rw [RouterFactory.modelList_eq_ok, List.forall₂_map_right_iff, List.forall₂_same]
  exact fun row hrow => RouterFactory.deployment_eq_ok.2 ⟨_, h row hrow, rfl⟩

theorem serves_deploymentOf (given : Int → String) (rows : List RouterDeploymentRow) :
    List.Forall₂ (Serves given) rows (rows.map fun row => deploymentOf (given row.channelKeyId) row) := by
  rw [List.forall₂_map_right_iff, List.forall₂_same]
  exact fun row _ => ⟨rfl, RouterFactory.lookup_apiKey⟩

theorem Serves.same {given : Int → String} {row : RouterDeploymentRow}
    {x y : RouterFactory.Deployment} (h : Serves given row x) (hsame : x.Same y) :
    Serves given row y := by
  obtain ⟨hname, hkey⟩ := h
  refine ⟨hsame.modelName.symm.trans hname, ?_⟩
  have hvalue := hsame.params "api_key"
  rw [hkey] at hvalue
  generalize y.litellmParams.lookup "api_key" = value at hvalue
  cases hvalue with
  | some hvw =>
    rcases hvw with rfl | heq
    · rfl
    · rw [Python.Value.str_eq.1 heq]

theorem serves_same {given : Int → String} {fresh ds : List RouterFactory.Deployment}
    (h : List.Forall₂ (Serves given) rows fresh)
    (hsame : List.Forall₂ RouterFactory.Deployment.Same fresh ds) :
    List.Forall₂ (Serves given) rows ds := by
  induction h generalizing ds with
  | nil =>
    cases hsame
    exact .nil
  | cons hd _ ih =>
    cases hsame with
    | cons hfirst hrest => exact .cons (hd.same hfirst) (ih hrest)

/-- Whatever has been created, rotated, moved and deleted, and however the encryption keys were
changed in between, a rebuild returns if LiteLLM can set up the routes' deployments, and the live
router then calls every upstream with the key that was given for it last. -/
theorem live_router_keys (hlawful : ctx.fernet.Lawful) (hv : v.Reachable ctx) {litellm : Litellm}
    {m : Manager} (hm : m.Reachable litellm ctx.fernet v.raw) (before : String → String → Bool)
    (degraded : Finset Int)
    (haccepts : ∀ row ∈ withoutDegraded degraded (v.db.getRouterConfig before),
      litellm.accepts (deploymentOf (v.given row.channelKeyId) row) = true) :
    ∃ m' router,
      m.rebuild litellm ctx.fernet v.raw (v.db.getRouterConfig before) degraded = .ok m' ∧
      m'.router = some router ∧
      List.Forall₂ (Serves v.given) (withoutDegraded degraded (v.db.getRouterConfig before))
        router.modelList := by
  have hlist : modelList ctx.fernet v.raw (withoutDegraded degraded (v.db.getRouterConfig before)) =
      .ok ((withoutDegraded degraded (v.db.getRouterConfig before)).map fun row =>
        deploymentOf (v.given row.channelKeyId) row) :=
    modelList_given fun row hrow => hv.sound.decrypt hlawful (List.mem_filter.1 hrow).1
  have hbuilt := RouterFactory.buildRouter_eq_ok.2
    ⟨hlist, litellm.returns_of_accepts _ (List.forall_mem_map.2 haccepts)⟩
  obtain ⟨m', hm'⟩ :
      ∃ m', m.rebuild litellm ctx.fernet v.raw (v.db.getRouterConfig before) degraded = .ok m' := by
    unfold Manager.rebuild
    dsimp only
    split
    · exact ⟨_, rfl⟩
    · rw [hbuilt]
      exact ⟨_, rfl⟩
  obtain ⟨router, fresh, hrouter, hfresh, hsame⟩ := Manager.rebuild_current hm hm'
  rw [hlist] at hfresh
  cases hfresh
  exact ⟨m', router, hm', hrouter, serves_same (serves_deploymentOf _ _) hsame⟩

end

/-! ### A key that is created -/

/-- A character as so many strokes and a stop. -/
def strokes (c : Char) : List Char := List.replicate c.toNat '|' ++ ['.']

def countStrokes : Nat → List Char → List Char
  | _, [] => []
  | n, c :: cs => if c = '|' then countStrokes (n + 1) cs else Char.ofNat n :: countStrokes 0 cs

theorem countStrokes_strokes (n k : Nat) (cs : List Char) :
    countStrokes n (List.replicate k '|' ++ '.' :: cs) = Char.ofNat (n + k) :: countStrokes 0 cs := by
  induction k generalizing n with
  | zero => simp [countStrokes]
  | succ k ih =>
    rw [List.replicate_succ, List.cons_append, countStrokes, if_pos rfl, ih, Nat.succ_add_eq_add_succ]

theorem countStrokes_flatMap (cs : List Char) : countStrokes 0 (cs.flatMap strokes) = cs := by
  induction cs with
  | nil => rfl
  | cons c cs ih =>
    rw [List.flatMap_cons, strokes, List.append_assoc, List.cons_append, List.nil_append,
      countStrokes_strokes, ih, Nat.zero_add, Char.ofNat_toNat]

def strokeFernet : Fernet Unit where
  isKey key := key == fernetKey
  encrypt _ _ plaintext := String.ofList (plaintext.toList.flatMap strokes)
  decrypt _ text := some (String.ofList (countStrokes 0 text.toList))

theorem lawful_strokeFernet : strokeFernet.Lawful where
  ascii key nonce plaintext _ c hc := by
    simp only [strokeFernet, String.toList_ofList, List.mem_flatMap, strokes, List.mem_append,
      List.mem_replicate, List.mem_singleton] at hc
    obtain ⟨_, -, ⟨-, rfl⟩ | rfl⟩ := hc <;> decide
  decrypt_encrypt key nonce plaintext _ := by
    simp [strokeFernet, countStrokes_flatMap]
  authentic key key' nonce plaintext other _ _ h := by
    simp only [strokeFernet, String.toList_ofList, countStrokes_flatMap, String.ofList_toList,
      Option.some.injEq] at h
    exact h.symm

def strokeContext : Context where
  Nonce := Unit
  fernet := strokeFernet
  nonce := ()
  channelEncryptionKeys := some fernetKey
  urlsplit _ := none
  isInternalHost _ := false
  environment := "dev"

def mini : LogicalModel :=
  { name := "mini", displayName := "Mini", category := none, sortOrder := 0, contextLength := none,
    priceInput := none, priceOutput := none, status := .active, remark := none }

def miniEast : ModelDeployment :=
  { logicalModelId := 1, channelId := 2, upstreamModel := "mini", weight := 1, priority := 0,
    status := .active, remark := none }

/-- A model on a channel that has no key yet. -/
def keyless : Tables where
  users := ∅
  departments := ∅
  channels := Finmap.singleton 2 east
  keys := ∅
  models := Finmap.singleton 1 mini
  deployments := Finmap.singleton 4 miniEast
  grants := ∅
  quotas := ∅

def eastKey : ChannelKeyCreate where
  channelId := 2
  keyAlias := "main"
  apiKey := "s"

def storedEastKey : ChannelKey :=
  { toBaseEntity := .created catalogAdmin, channelId := 2, keyAlias := "main",
    apiKeyEncrypted := strokeFernet.encrypt fernetKey () "s", keyHint := keyHint "s", status := .active,
    rpmLimit := none, tpmLimit := none, weight := 1, priority := 0, remark := none }

/-- The channel has its key. -/
def keyed : Tables := { keyless with keys := Finmap.singleton 3 storedEastKey }

theorem accepted_createKey : Accepted strokeContext catalogAdmin (.createKey 3 eastKey) keyless keyed
    [.publishRouterInvalidation, .bumpGeneration .bumpCatalogCacheGeneration] := rfl

theorem live_router_keys_east : ∃ m' router d,
    ({} : Manager).rebuild openaiOnly strokeFernet (some fernetKey)
      (keyed.getRouterConfig fun a b => decide (a < b)) ∅ = .ok m' ∧
    m'.router = some router ∧ router.modelList = [d] ∧
    d.litellmParams.lookup "api_key" = some (.str "s") := by
  have hreach : Vault.Reachable strokeContext
      ⟨some fernetKey, keyed, (Request.createKey 3 eastKey).given fun _ => ""⟩ :=
    ⟨⟨some fernetKey, keyless, fun _ => ""⟩, rfl, .single
      (.request ⟨some fernetKey, keyless, fun _ => ""⟩ catalogAdmin (.createKey 3 eastKey) () keyed _
        accepted_createKey)⟩
  have hroutes : withoutDegraded ∅ (keyed.getRouterConfig fun a b => decide (a < b)) =
      [(⟨1, mini, 4, miniEast, 2, east, 3, storedEastKey⟩ : Expansion).row] := by
    have hone : keyed.expansions = [⟨1, mini, 4, miniEast, 2, east, 3, storedEastKey⟩] := by
      simp only [Tables.expansions, keyed, keyless, rows_singleton, List.flatMap_cons,
        List.flatMap_nil, List.map_cons, List.map_nil, List.append_nil]
      rfl
    rw [Tables.getRouterConfig, hone, List.mergeSort_singleton]
    rfl
  have hstart : Manager.Reachable openaiOnly strokeFernet (some fernetKey) {} := .start
  obtain ⟨m', router, hrebuild, hrouter, hserves⟩ :=
    live_router_keys lawful_strokeFernet hreach hstart (fun a b => decide (a < b)) ∅ (by
      rw [hroutes]
      exact List.forall_mem_singleton.2 rfl)
  rw [hroutes] at hserves
  obtain ⟨d, ds, hd, hnil, hlist⟩ := List.forall₂_cons_left_iff.1 hserves
  rw [List.forall₂_nil_left_iff.1 hnil] at hlist
  exact ⟨m', router, d, hrebuild, hrouter, hlist, hd.2⟩

end GatewayAdmin
