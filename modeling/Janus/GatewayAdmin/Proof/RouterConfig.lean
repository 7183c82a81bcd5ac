import Janus.Gateway.Proof.RouterFactory
import Janus.GatewayAdmin.Proof.Invalidation

/-!
# The expansion of the routers

The order of the statement leaves no choice between two rows: names and carriers are unique
(`getRouterConfig_ordered`). So routers are replaced only by others (`rebuild_unchanged`). A channel or
a model that is deleted had no route (`getRouterConfig_deleted`).
-/

set_option autoImplicit false

namespace GatewayAdmin

open Sql
open Rbac (AuthenticatedUser)

/-! ## One order -/

/-- The order of the database on names. -/
structure Collation (before : String → String → Bool) : Prop where
  irrefl : ∀ a, before a a = false
  trans : ∀ a b c, before a b = true → before b c = true → before a c = true
  total : ∀ a b, a ≠ b → before a b = true ∨ before b a = true

section

variable {before : String → String → Bool} {db : Tables} {x y z : Expansion}

/-- What is compared when the names are the same. -/
def Expansion.rank (x : Expansion) : Int ×ₗ Int ×ₗ Int ×ₗ Int :=
  toLex (x.deployment.priority, toLex (x.key.priority, toLex (x.channelId, x.keyId)))

theorem Expansion.le_of_name (h : x.model.name = y.model.name) :
    x.le before y = true ↔ x.rank ≤ y.rank := by
  rw [Expansion.le, if_pos h, decide_eq_true_iff]
  rfl

theorem Expansion.le_of_ne (h : x.model.name ≠ y.model.name) :
    x.le before y = before x.model.name y.model.name := by
  rw [Expansion.le, if_neg h]

theorem Collation.ordered (hb : Collation before) (hxy : x.le before y = true)
    (hyz : y.le before z = true) : x.le before z = true := by
  by_cases h₁ : x.model.name = y.model.name
  · by_cases h₂ : y.model.name = z.model.name
    · rw [Expansion.le_of_name h₁] at hxy
      rw [Expansion.le_of_name h₂] at hyz
      exact (Expansion.le_of_name (h₁.trans h₂)).2 (hxy.trans hyz)
    · rw [Expansion.le_of_ne h₂, ← h₁] at hyz
      rw [Expansion.le_of_ne (h₁ ▸ h₂)]
      exact hyz
  · rw [Expansion.le_of_ne h₁] at hxy
    by_cases h₂ : y.model.name = z.model.name
    · rw [Expansion.le_of_ne (h₂ ▸ h₁), ← h₂]
      exact hxy
    · rw [Expansion.le_of_ne h₂] at hyz
      have hxz := hb.trans _ _ _ hxy hyz
      rw [Expansion.le_of_ne]
      · exact hxz
      · intro h
        rw [h, hb.irrefl] at hxz
        cases hxz

theorem Collation.decided (hb : Collation before) (x y : Expansion) :
    (x.le before y || y.le before x) = true := by
  rw [Bool.or_eq_true]
  by_cases h : x.model.name = y.model.name
  · rw [Expansion.le_of_name h, Expansion.le_of_name h.symm]
    exact le_total x.rank y.rank
  · rw [Expansion.le_of_ne h, Expansion.le_of_ne (Ne.symm h)]
    exact hb.total _ _ h

theorem Tables.mem_expansions : x ∈ db.expansions ↔
    (db.models.lookup x.modelId = some x.model ∧
      db.deployments.lookup x.deploymentId = some x.deployment ∧
      db.channels.lookup x.channelId = some x.channel ∧ db.keys.lookup x.keyId = some x.key) ∧
    x.Selected := by
  simp only [Tables.expansions, List.mem_filter, decide_eq_true_iff, List.mem_flatMap, List.mem_map,
    Prod.exists, mem_rows]
  refine and_congr_left fun _ => ⟨?_, ?_⟩
  · rintro ⟨_, _, hmodel, _, _, hdeployment, _, _, hchannel, _, _, hkey, rfl⟩
    exact ⟨hmodel, hdeployment, hchannel, hkey⟩
  · rintro ⟨hmodel, hdeployment, hchannel, hkey⟩
    exact ⟨_, _, hmodel, _, _, hdeployment, _, _, hchannel, _, _, hkey, rfl⟩

/-- Two routes of the same rank are the same: the names and the carriers are unique. -/
theorem Constraints.route (hdb : Constraints db) (hb : Collation before) (hx : x ∈ db.expansions)
    (hy : y ∈ db.expansions) (hxy : x.le before y = true) (hyx : y.le before x = true) : x = y := by
  have hname : x.model.name = y.model.name := by
    by_contra hne
    rw [Expansion.le_of_ne hne] at hxy
    rw [Expansion.le_of_ne (Ne.symm hne)] at hyx
    have hself := hb.trans _ _ _ hxy hyx
    rw [hb.irrefl] at hself
    cases hself
  rw [Expansion.le_of_name hname] at hxy
  rw [Expansion.le_of_name hname.symm] at hyx
  have hrank : x.rank = y.rank := le_antisymm hxy hyx
  obtain ⟨-, hrank⟩ := Prod.mk.inj (congrArg ofLex hrank)
  obtain ⟨-, hrank⟩ := Prod.mk.inj (congrArg ofLex hrank)
  obtain ⟨hchannelId, hkeyId⟩ := Prod.mk.inj (congrArg ofLex hrank)
  obtain ⟨⟨hmodel, hdeployment, hchannel, hkey⟩, hof, hthrough, -, ⟨hlive, hlive', -, -⟩, -⟩ :=
    Tables.mem_expansions.1 hx
  obtain ⟨⟨hmodel', hdeployment', hchannel', hkey'⟩, hof', hthrough', -, ⟨hlive₂, hlive₂', -, -⟩, -⟩ :=
    Tables.mem_expansions.1 hy
  have hmodelId : x.modelId = y.modelId :=
    hdb.modelName _ _ _ _ y.model.name hmodel hmodel' (by simp [indexed, hlive, hname])
      (by simp [indexed, hlive₂])
  have hcarrier : x.deploymentId = y.deploymentId := by
    refine hdb.carrier _ _ _ _ (y.modelId, y.channelId) hdeployment hdeployment' ?_ ?_
    · simp [indexed, hlive', hof, ← hthrough, hmodelId, hchannelId]
    · simp [indexed, hlive₂', hof', ← hthrough']
  obtain ⟨modelId, model, deploymentId, deployment, channelId, channel, keyId, key⟩ := x
  dsimp only at hmodelId hcarrier hchannelId hkeyId hmodel hdeployment hchannel hkey
  subst hmodelId hcarrier hchannelId hkeyId
  obtain rfl := Option.some.inj (hmodel.symm.trans hmodel')
  obtain rfl := Option.some.inj (hdeployment.symm.trans hdeployment')
  obtain rfl := Option.some.inj (hchannel.symm.trans hchannel')
  obtain rfl := Option.some.inj (hkey.symm.trans hkey')
  rfl

/-- Whatever order the database finds the routes in, the statement returns the same rows. -/
theorem getRouterConfig_ordered (hdb : Constraints db) (hb : Collation before)
    {found : List Expansion} (hperm : found.Perm db.expansions)
    (hsorted : found.Pairwise fun x y => x.le before y = true) :
    found.map Expansion.row = db.getRouterConfig before := by
  have hmerged : (db.expansions.mergeSort (Expansion.le before)).Pairwise
      fun x y => x.le before y = true := by
    refine List.pairwise_mergeSort (fun x y z hxy hyz => ?_) (fun x y => hb.decided x y) _
    exact hb.ordered hxy hyz
  have hsame : found = db.expansions.mergeSort (Expansion.le before) := by
    refine List.Perm.eq_of_pairwise (fun x y hx hy => ?_) hsorted hmerged
      (hperm.trans (List.mergeSort_perm _ _).symm)
    exact hdb.route hb (hperm.mem_iff.1 hx) (List.mem_mergeSort.1 hy)
  rw [hsame, Tables.getRouterConfig]

/-- A rebuild that reads an unchanged configuration keeps the router that is live, in whatever order
the database finds the routes. -/
theorem rebuild_unchanged {litellm : RouterFactory.Litellm} {Nonce : Type}
    {fernet : ChannelCrypto.Fernet Nonce} {raw : Option String} (hdb : Constraints db)
    (hb : Collation before) (hplain : ∀ id channel, db.channels.lookup id = some channel →
      RouterFactory.PlainExtra channel.extraConfig)
    {found found' : List Expansion} (hperm : found.Perm db.expansions)
    (hsorted : found.Pairwise fun x y => x.le before y = true) (hperm' : found'.Perm db.expansions)
    (hsorted' : found'.Pairwise fun x y => x.le before y = true) {degraded : Finset Int}
    {m m' : RouterFactory.Manager}
    (hm : m.rebuild litellm fernet raw (found.map Expansion.row) degraded = .ok m') :
    m'.rebuild litellm fernet raw (found'.map Expansion.row) degraded = .ok m' := by
  rw [getRouterConfig_ordered hdb hb hperm hsorted] at hm
  rw [getRouterConfig_ordered hdb hb hperm' hsorted']
  refine RouterFactory.Manager.rebuild_again (fun row hrow => ?_) hm
  obtain ⟨x, hx, rfl⟩ := List.mem_map.1 hrow
  obtain ⟨⟨-, -, hchannel, -⟩, -⟩ := Tables.mem_expansions.1 (List.mem_mergeSort.1 hx)
  exact hplain x.channelId x.channel hchannel

end

/-! ### A model on one channel -/

def east : UpstreamChannel :=
  { name := "east", provider := "openai", protocol := .openai, apiBase := none, extraConfig := none,
    status := .active, remark := none }

def west : UpstreamChannel := { east with name := "west" }

def gptEast : ModelDeployment :=
  { logicalModelId := 1, channelId := 2, upstreamModel := "gpt", weight := 1, priority := 0,
    status := .active, remark := none }

def mainKey : ChannelKey :=
  { channelId := 2, keyAlias := "main", apiKeyEncrypted := "s", keyHint := "***", status := .active,
    rpmLimit := none, tpmLimit := none, weight := 1, priority := 0, remark := none }

/-- The only route is through channel 2. -/
def routed : Tables :=
  { granted with
    channels := Finmap.singleton 2 east
    keys := Finmap.singleton 3 mainKey
    deployments := Finmap.singleton 4 gptEast }

def route : Expansion := ⟨1, gpt, 4, gptEast, 2, east, 3, mainKey⟩

theorem expansions_routed : routed.expansions = [route] := by
  simp only [Tables.expansions, routed, granted, rows_singleton, List.flatMap_cons, List.flatMap_nil,
    List.map_cons, List.map_nil, List.append_nil]
  rfl

theorem collation_lt : Collation fun a b => decide (a < b) where
  irrefl a := by simp
  trans a b c hab hbc := by
    simp only [decide_eq_true_iff] at hab hbc ⊢
    exact hab.trans hbc
  total a b h := by
    simpa only [decide_eq_true_iff] using lt_or_gt_of_ne h

def callsOpenai (d : RouterFactory.Deployment) : Bool :=
  match d.litellmParams.lookup "model" with
  | some (.str model) => "openai/".toList.isPrefixOf model.toList
  | _ => false

/-- LiteLLM with no other provider than OpenAI. -/
def openaiOnly : RouterFactory.Litellm where
  accepts := callsOpenai
  returns modelList := modelList.all callsOpenai
  returns_of_accepts _ h := List.all_eq_true.2 h

/-- A key of Fernet's form: 32 bytes in URL-safe Base64. -/
def fernetKey : String := "AAAAAAAAAAAAAAAAAAAAAAAAAAAAAAAAAAAAAAAAAAA="

theorem rebuild_unchanged_route : ∃ m' : RouterFactory.Manager,
    ({} : RouterFactory.Manager).rebuild openaiOnly context.fernet (some fernetKey) [route.row] ∅ =
      .ok m' ∧
    m'.rebuild openaiOnly context.fernet (some fernetKey) [route.row] ∅ = .ok m' := by
  have hperm : [route].Perm routed.expansions := by rw [expansions_routed]
  have hplain : ∀ id channel, routed.channels.lookup id = some channel →
      RouterFactory.PlainExtra channel.extraConfig := by
    intro id channel hchannel extra hextra
    have hid : id = 2 :=
      (Finmap.mem_singleton _ _ _).1 (Finmap.mem_of_lookup_eq_some hchannel)
    subst hid
    cases hchannel
    cases hextra
  obtain ⟨m', hm'⟩ : ∃ m', ({} : RouterFactory.Manager).rebuild openaiOnly
      context.fernet (some fernetKey) [route.row] ∅ = .ok m' := ⟨_, rfl⟩
  refine ⟨m', hm', rebuild_unchanged (by decide) collation_lt hplain hperm ?_ hperm ?_ hm'⟩
  · exact List.pairwise_singleton _ _
  · exact List.pairwise_singleton _ _

/-! ## Deletions -/

section

variable {db db' : Tables} {id : Int}

/-- `expansions`, with the conditions where the rows are joined. -/
theorem Tables.expansions_eq : db.expansions = (rows db.models).flatMap fun m =>
    (rows db.deployments).flatMap fun d => (rows db.channels).flatMap fun c =>
      ((rows db.keys).map fun k => (⟨m.1, m.2, d.1, d.2, c.1, c.2, k.1, k.2⟩ : Expansion)).filter
        fun x => decide x.Selected := by
  simp only [Tables.expansions, List.filter_flatMap]

theorem not_inUse {p : ModelDeployment → Bool} (h : db.inUse p = false) {i : Int}
    {row : ModelDeployment} (hrow : db.deployments.lookup i = some row) (hp : p row = true) :
    ¬ (row.isDeleted = false ∧ row.status = .active) := by
  rw [Tables.inUse, Option.isSome_eq_false_iff, Option.isNone_iff_eq_none, first_eq_none] at h
  rintro ⟨hlive, hactive⟩
  have hno := h i row hrow
  simp [hp, hlive, hactive] at hno

theorem expansions_deleteChannel {old row : UpstreamChannel} (hold : db.channels.lookup id = some old)
    (hfree : db.inUse (fun d => d.channelId == id) = false) :
    ({ db with channels := db.channels.insert id row } : Tables).expansions = db.expansions := by
  rw [Tables.expansions_eq, Tables.expansions_eq]
  refine List.flatMap_congr fun m _ => List.flatMap_congr fun d hd => ?_
  refine flatMap_rows_insert (f := fun i c => ((rows db.keys).map fun k =>
    (⟨m.1, m.2, d.1, d.2, i, c, k.1, k.2⟩ : Expansion)).filter fun x => decide x.Selected) hold ?_
  -- no active deployment goes through the channel
  have hnil (c : UpstreamChannel) : ((rows db.keys).map fun k =>
      (⟨m.1, m.2, d.1, d.2, id, c, k.1, k.2⟩ : Expansion)).filter (fun x => decide x.Selected) = [] := by
    rw [List.filter_eq_nil_iff]
    intro x hx hselected
    obtain ⟨k, -, rfl⟩ := List.mem_map.1 hx
    obtain ⟨-, hthrough, -, ⟨-, hlive, -, -⟩, -, hactive, -⟩ := of_decide_eq_true hselected
    exact not_inUse hfree (mem_rows.1 hd) (by simpa using hthrough.symm) ⟨hlive, hactive⟩
  rw [hnil, hnil]

theorem expansions_deleteModel {old row : LogicalModel} (hold : db.models.lookup id = some old)
    (hfree : db.inUse (fun d => d.logicalModelId == id) = false) :
    ({ db with models := db.models.insert id row } : Tables).expansions = db.expansions := by
  rw [Tables.expansions_eq, Tables.expansions_eq]
  refine flatMap_rows_insert (f := fun i m => (rows db.deployments).flatMap fun d =>
    (rows db.channels).flatMap fun c => ((rows db.keys).map fun k =>
      (⟨i, m, d.1, d.2, c.1, c.2, k.1, k.2⟩ : Expansion)).filter fun x => decide x.Selected) hold ?_
  refine List.flatMap_congr fun d hd => List.flatMap_congr fun c _ => ?_
  have hnil (m : LogicalModel) : ((rows db.keys).map fun k =>
      (⟨id, m, d.1, d.2, c.1, c.2, k.1, k.2⟩ : Expansion)).filter (fun x => decide x.Selected) = [] := by
    rw [List.filter_eq_nil_iff]
    intro x hx hselected
    obtain ⟨k, -, rfl⟩ := List.mem_map.1 hx
    obtain ⟨hof, -, -, ⟨-, hlive, -, -⟩, -, hactive, -⟩ := of_decide_eq_true hselected
    exact not_inUse hfree (mem_rows.1 hd) (by simpa using hof) ⟨hlive, hactive⟩
  rw [hnil, hnil]

/-- What a deletion that no active deployment stands against writes. -/
theorem of_guardedDelete {V : Type} (repo : Repository V) {actor : AuthenticatedUser}
    {p : ModelDeployment → Bool} {deleted : V → V} {hooks : List Hook}
    (h : Work.Accepts (do
      let old ← repo.require id
      requireCatalogWildcard actor
      let inUse ← query fun db => db.inUse p
      Work.require (inUse = false) .requestConflict
      repo.softDelete id (deleted old)
      publish) { db } () { db := db', hooks }) :
    ∃ old, (repo.table db).lookup id = some old ∧ db.inUse p = false ∧
      db' = repo.put db ((repo.table db).insert id (deleted old)) := by
  obtain ⟨old, hold, h⟩ := checks_repoRequire.accepts h
  obtain ⟨-, -, h⟩ := checks_require.accepts h
  rw [accepts_query_then, Work.accepts_require_then, Work.accepts_bind] at h
  obtain ⟨hfree, x, t, hdelete, h⟩ := h
  obtain ⟨-, rfl⟩ := accepts_softDelete.1 hdelete
  cases accepts_publish.1 h
  exact ⟨old, (lookup_of_get (accepts_repoRequire.1 hold).1).1, hfree, rfl⟩

/-- A channel or a model that is deleted takes no route away. -/
theorem getRouterConfig_deleted {ctx : Context} {actor : AuthenticatedUser} {request : Request}
    {hooks : List Hook} (h : Accepted ctx actor request db db' hooks)
    (hrequest : request = .deleteChannel id ∨ request = .deleteModel id)
    (before : String → String → Bool) : db'.getRouterConfig before = db.getRouterConfig before := by
  have hsame : db'.expansions = db.expansions := by
    rcases hrequest with rfl | rfl
    · obtain ⟨old, hold, hfree, rfl⟩ := of_guardedDelete channels h
      exact expansions_deleteChannel hold hfree
    · obtain ⟨old, hold, hfree, rfl⟩ := of_guardedDelete models h
      exact expansions_deleteModel hold hfree
  rw [Tables.getRouterConfig, hsame, Tables.getRouterConfig]

end

/-! ### A channel without deployments -/

def catalogAdmin : AuthenticatedUser where
  userId := 1
  permissions := {"ai:catalog:*"}

def spare : Tables := { routed with channels := (Finmap.singleton 6 west).insert 2 east }

/-- What the deletion of channel 6 leaves. -/
def retired : Tables :=
  { spare with channels := spare.channels.insert 6 { west with isDeleted := true, updatedBy := some 1 } }

theorem accepted_deleteChannel : Accepted context catalogAdmin (.deleteChannel 6) spare retired
    [.publishRouterInvalidation, .bumpGeneration .bumpCatalogCacheGeneration] := by
  have hfree : spare.inUse (fun d => d.channelId == 6) = false := by
    simp only [Tables.inUse, first, spare, routed, rows_singleton]
    rfl
  have hfound : channels.get spare 6 = some west := rfl
  refine Work.accepts_bind.2 ⟨_, _, accepts_repoRequire.2 ⟨hfound, rfl⟩, ?_⟩
  refine Work.accepts_require_then.2 ⟨by decide, ?_⟩
  rw [accepts_query_then, Work.accepts_require_then]
  refine ⟨hfree, Work.accepts_bind.2 ⟨(), _, accepts_softDelete.2 ⟨?_, rfl⟩, rfl⟩⟩
  decide

theorem getRouterConfig_deleted_west :
    (retired.getRouterConfig fun a b => decide (a < b)) =
      spare.getRouterConfig fun a b => decide (a < b) :=
  getRouterConfig_deleted accepted_deleteChannel (.inl rfl) _

end GatewayAdmin
