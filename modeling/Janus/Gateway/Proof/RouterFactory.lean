import Janus.Gateway.RouterFactory

/-!
# The live router is the one that its rows build

* `lookup_litellmParams`: what `extra_config` adds never replaces the model, the key, the base URL or
  the limits.
* `Manager.rebuild_current`: after a rebuild the live router is the same as one that is built from
  the rows that the rebuild has read, whether it was replaced or kept.
-/

set_option autoImplicit false

namespace RouterFactory

open ChannelCrypto
open Python (Fields Value eqItems)
open GatewayAdmin (RouterDeploymentRow)

/-! ## Parameters -/

section

variable {params items : Fields} {key k : String} {v : Value} {apiKey : String}
  {row row' : RouterDeploymentRow}

theorem lookup_addExtra (hnodup : (items.map Prod.fst).Nodup) : (addExtra params items).lookup k =
    if k ∈ allowedExtraKeys ∧ (items.lookup k).any Value.isSome = true then items.lookup k
    else params.lookup k := by
  induction items generalizing params with
  | nil => simp [addExtra]
  | cons entry items ih =>
    obtain ⟨l, x⟩ := entry
    obtain ⟨hnew, hnodup⟩ := List.nodup_cons.1 hnodup
    rw [addExtra, ih hnodup, List.lookup_cons]
    by_cases hk : k = l
    · subst hk
      have hnone : items.lookup k = none := by
        rw [List.lookup_eq_none_iff]
        intro entry hm
        simpa using fun h : k = entry.1 => hnew (List.mem_map.2 ⟨entry, hm, h.symm⟩)
      rw [hnone, if_neg (by simp)]
      simp only [beq_self_eq_true, Option.any_some]
      by_cases hset : k ∈ allowedExtraKeys ∧ x.isSome = true
      · rw [if_pos hset, Python.Fields.lookup_set, if_pos rfl, if_pos hset]
      · rw [if_neg hset, if_neg hset]
    · have hne : (k == l) = false := by simpa using hk
      simp only [hne]
      by_cases hset : l ∈ allowedExtraKeys ∧ x.isSome = true
      · rw [if_pos hset, Python.Fields.lookup_set, if_neg hk]
      · rw [if_neg hset]

/-- The value that `extra_config` has for a key. -/
def extraValue (row : RouterDeploymentRow) (key : String) : Option Value :=
  (row.extraConfig.getD .empty).get? key

/-- An allowed key of `extra_config` is set; other keys keep what the row says. -/
theorem lookup_litellmParams : (litellmParams apiKey row).lookup k =
    if k ∈ allowedExtraKeys ∧ (extraValue row k).any Value.isSome = true then extraValue row k
    else (baseParams apiKey row).lookup k := by
  unfold litellmParams extraValue
  cases row.extraConfig with
  | none => simp [Python.Dict.empty, Python.Dict.get?]
  | some extra => exact lookup_addExtra extra.nodup

theorem lookup_setIfSome {x : Option Value} :
    (setIfSome params key x).lookup k = if k = key then x.or (params.lookup k) else params.lookup k := by
  cases x with
  | none => simp [setIfSome]
  | some x =>
    rw [setIfSome, Python.Fields.lookup_set, Option.some_or]

/-- No `extra_config` replaces the key of the channel. -/
theorem lookup_apiKey : (litellmParams apiKey row).lookup "api_key" = some (.str apiKey) := by
  have hkey : "api_key" ∉ allowedExtraKeys := by decide
  rw [lookup_litellmParams, if_neg fun h => hkey h.1]
  simp [baseParams, lookup_setIfSome, List.lookup_cons]

end

/-! ## Fingerprints -/

/-- The values are the same or equal, or both are missing. -/
abbrev SameValue : Option Value → Option Value → Prop :=
  Option.Rel fun x y => x = y ∨ x.eq y = true

theorem SameValue.refl (x : Option Value) : SameValue x x := by
  cases x with
  | none => exact .none
  | some v => exact .some (.inl rfl)

/-- The same deployment, up to `==` of the values in its parameters. -/
structure Deployment.Same (x y : Deployment) : Prop where
  modelName : x.modelName = y.modelName
  params : ∀ key, SameValue (x.litellmParams.lookup key) (y.litellmParams.lookup key)
  modelInfo : x.modelInfo = y.modelInfo
  weight : x.weight = y.weight
  priority : x.priority = y.priority

section

variable {Nonce : Type} {litellm : Litellm} {fernet : Fernet Nonce} {raw : Option String}
  {row row' : RouterDeploymentRow} {rows rows' : List RouterDeploymentRow} {ds : List Deployment}
  {router : Router}

theorem deployment_eq_ok {d : Deployment} : deployment fernet raw row = .ok d ↔
    ∃ apiKey, decryptChannelKey fernet raw row.apiKeyEncrypted = .ok apiKey ∧
      deploymentOf apiKey row = d := by
  unfold deployment
  cases decryptChannelKey fernet raw row.apiKeyEncrypted with
  | error e => simp
  | ok apiKey => simp

/-- What a fingerprint does not tell apart makes no difference to a deployment. -/
theorem deployment_same {d' : Deployment}
    (h : (rowFingerprint row).eq (rowFingerprint row') = true)
    (hd' : deployment fernet raw row' = .ok d') :
    ∃ d, deployment fernet raw row = .ok d ∧ d.Same d' := by
  simp only [RowFingerprint.eq, rowFingerprint, Bool.and_eq_true, decide_eq_true_iff,
    RowFingerprint.mk.injEq, true_and] at h
  obtain ⟨⟨hname, -, hmodel, hprovider, -, hbase, hkey, hchannel, hkeyId, hweight, hpriority,
    hkeyWeight, hrpm, htpm⟩, hitems⟩ := h
  obtain ⟨apiKey, hplain, rfl⟩ := deployment_eq_ok.1 hd'
  refine ⟨deploymentOf apiKey row, deployment_eq_ok.2 ⟨apiKey, hkey ▸ hplain, rfl⟩, hname,
    fun key => ?_, ?_, ?_, hpriority⟩
  · have hvalue := Python.Dict.get?_of_eqItems hitems key
    have hbaseParams : baseParams apiKey row = baseParams apiKey row' := by
      unfold baseParams
      rw [hprovider, hmodel, hbase, hrpm, htpm]
    simp only [deploymentOf]
    rw [lookup_litellmParams, lookup_litellmParams, hbaseParams]
    change Option.Rel _ (extraValue row key) (extraValue row' key) at hvalue
    generalize extraValue row key = x at hvalue ⊢
    generalize extraValue row' key = y at hvalue ⊢
    cases hvalue with
    | none => exact .refl _
    | @some v w hvw =>
      rw [Option.any_some, Option.any_some, Value.isSome_of_eq hvw]
      split
      · exact .some (.inr hvw)
      · exact .refl _
  · simp [deploymentOf, hchannel, hkeyId, hprovider, hmodel]
  · simp [deploymentOf, hweight, hkeyWeight]

theorem modelList_cons : modelList fernet raw (row :: rows) =
    (deployment fernet raw row).bind fun d => (modelList fernet raw rows).map fun ds => d :: ds := by
  simp only [modelList, List.mapM_cons]
  rfl

/-- The deployments of a model list are those of its rows. -/
theorem modelList_eq_ok : modelList fernet raw rows = .ok ds ↔
    List.Forall₂ (fun row d => deployment fernet raw row = .ok d) rows ds := by
  induction rows generalizing ds with
  | nil =>
    rw [List.forall₂_nil_left_iff]
    simp [modelList, pure, Except.pure, eq_comm]
  | cons row rows ih =>
    rw [modelList_cons, List.forall₂_cons_left_iff]
    cases hrow : deployment fernet raw row with
    | error e => simp [Except.bind]
    | ok d =>
      cases hrows : modelList fernet raw rows with
      | error e =>
        constructor
        · intro h
          cases h
        · rintro ⟨d', ds', -, hrest, -⟩
          rw [← ih, hrows] at hrest
          cases hrest
      | ok ds' =>
        constructor
        · intro h
          cases h
          exact ⟨d, ds', rfl, ih.1 hrows, rfl⟩
        · rintro ⟨d', ds'', hd, hrest, rfl⟩
          cases hd
          rw [← ih, hrows] at hrest
          cases hrest
          rfl

/-- A router is made from the model list of its rows, if LiteLLM takes it. -/
theorem buildRouter_eq_ok : buildRouter litellm fernet raw rows = .ok router ↔
    modelList fernet raw rows = .ok router.modelList ∧ litellm.returns router.modelList = true := by
  unfold buildRouter
  cases hlist : modelList fernet raw rows with
  | error e =>
    constructor
    · intro h
      cases h
    · intro h
      cases h.1
  | ok ds =>
    show (if litellm.returns ds = true then Except.ok (Router.mk ds) else .error BuildError.litellm) = _ ↔ _
    split
    · next hreturns =>
      constructor
      · intro h
        cases h
        exact ⟨rfl, hreturns⟩
      · intro h
        cases h.1
        rfl
    · next hraises =>
      constructor
      · intro h
        cases h
      · intro h
        cases h.1
        exact absurd h.2 hraises

/-- The same fingerprint, the same model list. -/
theorem modelList_same (h : Fingerprint.eq (fingerprint rows) (fingerprint rows') = true)
    (hbuilt : modelList fernet raw rows' = .ok ds) :
    ∃ fresh, modelList fernet raw rows = .ok fresh ∧ List.Forall₂ Deployment.Same fresh ds := by
  rw [modelList_eq_ok] at hbuilt
  simp only [modelList_eq_ok]
  induction hbuilt generalizing rows with
  | nil =>
    cases rows with
    | nil => exact ⟨[], .nil, .nil⟩
    | cons row rows => cases h
  | cons hd' _ ih =>
    cases rows with
    | nil => cases h
    | cons row rows =>
      simp only [fingerprint, List.map_cons, Fingerprint.eq, Bool.and_eq_true] at h
      obtain ⟨d, hd, hsame⟩ := deployment_same h.1 hd'
      obtain ⟨fresh, hfresh, hrest⟩ := ih h.2
      exact ⟨d :: fresh, .cons hd hfresh, .cons hsame hrest⟩

/-- The values of `extra_config` are those that JSON has. -/
def PlainExtra (extraConfig : Option Python.Dict) : Prop :=
  ∀ extra ∈ extraConfig, ∀ entry ∈ extra.fields, entry.2.plain = true

theorem rowFingerprint_self (h : PlainExtra row.extraConfig) :
    (rowFingerprint row).eq (rowFingerprint row) = true := by
  rw [RowFingerprint.eq, decide_eq_true rfl, Bool.true_and]
  refine Python.eqItems_self fun entry hm => ?_
  have hm : entry ∈ (row.extraConfig.getD .empty).fields := List.mem_mergeSort.1 hm
  cases hextra : row.extraConfig with
  | none =>
    rw [hextra] at hm
    cases hm
  | some extra =>
    rw [hextra] at hm
    exact h extra hextra entry hm

theorem fingerprint_self (h : ∀ row ∈ rows, PlainExtra row.extraConfig) :
    Fingerprint.eq (fingerprint rows) (fingerprint rows) = true := by
  induction rows with
  | nil => rfl
  | cons row rows ih =>
    obtain ⟨hfirst, hrest⟩ := List.forall_mem_cons.1 h
    rw [fingerprint, List.map_cons, Fingerprint.eq, rowFingerprint_self hfirst, Bool.true_and]
    exact ih hrest

/-! ## Rebuilds -/

variable {m m' : Manager} {degraded : Finset Int}

/-- A rebuild keeps the router under the same fingerprint, or replaces it. -/
theorem Manager.rebuild_cases (hm : m.rebuild litellm fernet raw rows degraded = .ok m') :
    (m' = m ∧ m.router.isSome = true ∧ ∃ old, m.fingerprint = some old ∧
      Fingerprint.eq (RouterFactory.fingerprint (withoutDegraded degraded rows)) old = true) ∨
    ∃ router, buildRouter litellm fernet raw (withoutDegraded degraded rows) = .ok router ∧
      m' = ⟨some router, some (RouterFactory.fingerprint (withoutDegraded degraded rows))⟩ := by
  unfold Manager.rebuild at hm
  dsimp only at hm
  split at hm
  · next hkept =>
    cases hm
    obtain ⟨old, hold, hsame⟩ := (Option.any_eq_true _ _).1 hkept.2
    exact .inl ⟨rfl, hkept.1, old, hold, hsame⟩
  · cases hbuilt : buildRouter litellm fernet raw (withoutDegraded degraded rows) with
    | error e =>
      rw [hbuilt] at hm
      cases hm
    | ok router =>
      rw [hbuilt] at hm
      cases hm
      exact .inr ⟨router, rfl, rfl⟩

/-- The live router was built from the rows of its fingerprint. -/
def Manager.Sound (litellm : Litellm) (fernet : Fernet Nonce) (raw : Option String) (m : Manager) : Prop :=
  ∀ router, m.router = some router → ∃ rows,
    m.fingerprint = some (RouterFactory.fingerprint rows) ∧ buildRouter litellm fernet raw rows = .ok router

theorem Manager.Sound.rebuild (h : m.Sound litellm fernet raw)
    (hm : m.rebuild litellm fernet raw rows degraded = .ok m') : m'.Sound litellm fernet raw := by
  rcases Manager.rebuild_cases hm with ⟨rfl, -⟩ | ⟨router, hbuilt, rfl⟩
  · exact h
  · intro router' hrouter
    cases hrouter
    exact ⟨_, rfl, hbuilt⟩

theorem Manager.Reachable.sound (h : m.Reachable litellm fernet raw) : m.Sound litellm fernet raw := by
  induction h with
  | start => exact fun router hrouter => by cases hrouter
  | rebuild rows degraded _ hm ih => exact ih.rebuild hm

/-- After a rebuild the live router has a deployment for each row that is not degraded, with the
values that the row has now. -/
theorem Manager.rebuild_current (h : m.Reachable litellm fernet raw)
    (hm : m.rebuild litellm fernet raw rows degraded = .ok m') :
    ∃ router fresh, m'.router = some router ∧
      modelList fernet raw (withoutDegraded degraded rows) = .ok fresh ∧
      List.Forall₂ Deployment.Same fresh router.modelList := by
  rcases Manager.rebuild_cases hm with ⟨rfl, hsome, old, hold, heq⟩ | ⟨router, hbuilt, rfl⟩
  · obtain ⟨router, hrouter⟩ := Option.isSome_iff_exists.1 hsome
    obtain ⟨rows', hrows', hbuilt⟩ := h.sound router hrouter
    rw [hold, Option.some.injEq] at hrows'
    subst hrows'
    obtain ⟨fresh, hfresh, hsame⟩ := modelList_same heq (buildRouter_eq_ok.1 hbuilt).1
    exact ⟨router, fresh, hrouter, hfresh, hsame⟩
  · refine ⟨router, router.modelList, rfl, (buildRouter_eq_ok.1 hbuilt).1,
      List.forall₂_same.2 fun d _ => ?_⟩
    exact ⟨rfl, fun key => .refl _, rfl, rfl, rfl⟩

/-- The rows of the live router do not replace it. -/
theorem Manager.rebuild_again (hplain : ∀ row ∈ rows, PlainExtra row.extraConfig)
    (hm : m.rebuild litellm fernet raw rows degraded = .ok m') :
    m'.rebuild litellm fernet raw rows degraded = .ok m' := by
  have hsame : m'.router.isSome = true ∧ m'.fingerprint.any
      (Fingerprint.eq (RouterFactory.fingerprint (withoutDegraded degraded rows))) = true := by
    rcases Manager.rebuild_cases hm with ⟨rfl, hsome, old, hold, heq⟩ | ⟨router, -, rfl⟩
    · exact ⟨hsome, by rw [hold]; exact heq⟩
    · exact ⟨rfl, fingerprint_self fun row hrow => hplain row (List.mem_filter.1 hrow).1⟩
  unfold Manager.rebuild
  exact if_pos hsame

end

end RouterFactory
