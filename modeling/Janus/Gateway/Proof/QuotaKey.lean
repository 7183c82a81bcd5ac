import Janus.Conc.Triple
import Janus.Gateway.QuotaKey

/-!
# Quota counters do not collide

The text of a key determines the key (`Key.text_inj`): its parts have no colon, those of a period no
hyphen. So two calls of `_key_for_quota` answer one text exactly when they are for one counter, and
the quotas that are checked for a request have one counter each (`quota_keys_injective`).
-/

set_option autoImplicit false

namespace QuotaEnforcer

open Conc Python

variable {userId : Int} {departmentId : Option Int} {quota quota' : Quota} {now now' : DateTime}
  {key key' : Key} {period period' : PeriodKey}

/-! ## No colon in a part -/

theorem separator_notMem_padded {c : Char} {width n : Nat} (hc : c.isDigit = false) :
    c ∉ Text.padded width n := by
  intro h
  have hdigit := Text.isDigit_of_mem_padded h
  rw [hc] at hdigit
  cases hdigit

theorem colon_notMem_int {a : Int} : ':' ∉ (toString a).toList := by
  intro h
  rcases Text.mem_repr_int h with h | h <;> revert h <;> decide

theorem colon_notMem_idText {id : Option Int} : ':' ∉ (idText id).toList := by
  cases id with
  | none => decide
  | some a => exact colon_notMem_int

theorem hyphen_notMem_parts : ∀ part ∈ period.parts, '-' ∉ part := by
  intro part hpart
  cases period with
  | daily d =>
    simp only [PeriodKey.parts, List.mem_cons, List.not_mem_nil, or_false] at hpart
    rcases hpart with rfl | rfl | rfl <;> exact Text.minus_notMem_padded
  | monthly year month =>
    simp only [PeriodKey.parts, List.mem_cons, List.not_mem_nil, or_false] at hpart
    rcases hpart with rfl | rfl <;> exact Text.minus_notMem_padded
  | total =>
    rw [List.mem_singleton.1 hpart]
    decide

theorem colon_notMem_chars : ':' ∉ period.chars := by
  have hpadded {width n : Nat} : ':' ∉ Text.padded width n := separator_notMem_padded (by decide)
  cases period with
  | daily d => simp [PeriodKey.chars, PeriodKey.parts, hpadded]
  | monthly year month => simp [PeriodKey.chars, PeriodKey.parts, hpadded]
  | total => decide

theorem colon_notMem_value {metric : QuotaMetric} : ':' ∉ metric.value.toList := by
  cases metric <;> decide

theorem colon_notMem_subject {subject : Subject} : ∀ part ∈ subject.parts, ':' ∉ part := by
  intro part hpart
  cases subject with
  | user userId =>
    simp only [Subject.parts, List.mem_cons, List.not_mem_nil, or_false] at hpart
    rcases hpart with rfl | rfl
    · decide
    · exact colon_notMem_int
  | department departmentId =>
    simp only [Subject.parts, List.mem_cons, List.not_mem_nil, or_false] at hpart
    rcases hpart with rfl | rfl
    · decide
    · exact colon_notMem_idText
  | everyone =>
    rw [List.mem_singleton.1 hpart]
    decide

theorem colon_notMem_parts : ∀ part ∈ key.parts, ':' ∉ part := by
  intro part hpart
  simp only [Key.parts, List.cons_append, List.mem_cons, List.mem_append, List.not_mem_nil,
    or_false] at hpart
  rcases hpart with rfl | hsubject | rfl | rfl | rfl
  · decide
  · exact colon_notMem_subject part hsubject
  · exact colon_notMem_int
  · exact colon_notMem_chars
  · exact colon_notMem_value

/-! ## Texts determine keys -/

theorem idText_inj {id id' : Option Int} : idText id = idText id' ↔ id = id' := by
  -- no numeral starts with the letter of `None`
  have hnone (a : Int) : "None" ≠ a.repr := by
    intro h
    have hmem : 'N' ∈ a.repr.toList := h ▸ List.mem_cons_self
    rcases Text.mem_repr_int hmem with hN | hN <;> revert hN <;> decide
  cases id with
  | none =>
    cases id' with
    | none => simp
    | some b => simp [idText, hnone b]
  | some a =>
    cases id' with
    | none => simp [idText, (hnone a).symm]
    | some b =>
      show a.repr = b.repr ↔ some a = some b
      rw [Text.repr_int_inj, Option.some_inj]

theorem PeriodKey.chars_inj : period.chars = period'.chars ↔ period = period' := by
  refine ⟨fun h => ?_, fun h => h ▸ rfl⟩
  have hne (period : PeriodKey) : period.parts ≠ [] := by cases period <;> simp [PeriodKey.parts]
  have hparts := (Text.joined_inj hyphen_notMem_parts hyphen_notMem_parts (hne _) (hne _)).1 h
  cases period with
  | daily d =>
    cases period' with
    | daily d' =>
      simp only [PeriodKey.parts, List.cons.injEq, Text.padded_inj, and_true] at hparts
      rw [Date.ext_fields hparts.1 hparts.2.1 hparts.2.2]
    | monthly year month => simp [PeriodKey.parts] at hparts
    | total => simp [PeriodKey.parts] at hparts
  | monthly year month =>
    cases period' with
    | daily d => simp [PeriodKey.parts] at hparts
    | monthly year' month' =>
      simp only [PeriodKey.parts, List.cons.injEq, Text.padded_inj, and_true] at hparts
      rw [hparts.1, hparts.2]
    | total => simp [PeriodKey.parts] at hparts
  | total =>
    cases period' with
    | daily d => simp [PeriodKey.parts] at hparts
    | monthly year month => simp [PeriodKey.parts] at hparts
    | total => rfl

theorem QuotaMetric.value_inj {metric metric' : QuotaMetric} :
    metric.value = metric'.value ↔ metric = metric' := by
  cases metric <;> cases metric' <;> decide

theorem Key.parts_inj : key.parts = key'.parts ↔ key = key' := by
  refine ⟨fun h => ?_, fun h => h ▸ rfl⟩
  obtain ⟨subject, modelId, period, metric⟩ := key
  obtain ⟨subject', modelId', period', metric'⟩ := key'
  cases subject with
  | user userId =>
    cases subject' with
    | user userId' =>
      simpa [Key.parts, Subject.parts, String.toList_inj, Text.repr_int_inj, PeriodKey.chars_inj,
        QuotaMetric.value_inj] using h
    | department departmentId' => simp [Key.parts, Subject.parts] at h
    | everyone => simp [Key.parts, Subject.parts] at h
  | department departmentId =>
    cases subject' with
    | user userId' => simp [Key.parts, Subject.parts] at h
    | department departmentId' =>
      simpa [Key.parts, Subject.parts, String.toList_inj, Text.repr_int_inj, idText_inj,
        PeriodKey.chars_inj, QuotaMetric.value_inj] using h
    | everyone => simp [Key.parts, Subject.parts] at h
  | everyone =>
    cases subject' with
    | user userId' => simp [Key.parts, Subject.parts] at h
    | department departmentId' => simp [Key.parts, Subject.parts] at h
    | everyone =>
      simpa [Key.parts, Subject.parts, String.toList_inj, Text.repr_int_inj, PeriodKey.chars_inj,
        QuotaMetric.value_inj] using h

theorem Key.text_inj : key.text = key'.text ↔ key = key' := by
  have hne (key : Key) : key.parts ≠ [] := by simp [Key.parts]
  rw [Key.text, Key.text, String.ofList_inj,
    Text.joined_inj colon_notMem_parts colon_notMem_parts (hne _) (hne _), Key.parts_inj]

/-! ## The key of a call -/

theorem periodTextAt_eq {period : QuotaPeriod} :
    periodTextAt period now = String.ofList (periodKeyAt period now).chars := by
  cases period with
  | daily =>
    simp [periodTextAt, periodKeyAt, Date.strftime, Date.strftimeChars, Date.directive,
      PeriodKey.chars, PeriodKey.parts]
  | monthly =>
    simp [periodTextAt, periodKeyAt, Date.strftime, Date.strftimeChars, Date.directive,
      PeriodKey.chars, PeriodKey.parts]
  | total => rfl

/-- The text of a call is that of its key. -/
theorem keyTextAt_eq : keyTextAt userId departmentId quota now =
    (keyWith userId departmentId quota (periodKeyAt quota.period now)).text := by
  have hself (s : String) : toString s = s := rfl
  apply String.toList_inj.1
  unfold keyTextAt keyWith
  rw [periodTextAt_eq]
  cases quota.scope <;> simp [Key.text, Key.parts, Subject.parts, hself]

theorem isDate_leapDay : IsDate 2024 2 29 :=
  ⟨by decide, by decide, by decide, by decide, by decide⟩

def leapDay : DateTime := .midnight (.of isDate_leapDay)

example : keyTextAt 7 none ⟨1, .user, some 7, some 3, .daily, .tokens, .ofInt 100, true⟩ leapDay =
    "quota:u:7:3:2024-02-29:tokens" := by
  decide

theorem periodKeyAt_inj {period period' : QuotaPeriod} :
    periodKeyAt period now = periodKeyAt period' now' ↔
      period = period' ∧ SamePeriod period now now' := by
  cases period <;> cases period' <;> simp [periodKeyAt, SamePeriod]

/-- Ids of models are positive, so 0 stands for all models only. -/
theorem modelId_inj (h : ∀ m ∈ quota.logicalModelId, 0 < m)
    (h' : ∀ m ∈ quota'.logicalModelId, 0 < m) :
    quota.logicalModelId.getD 0 = quota'.logicalModelId.getD 0 ↔
      quota.logicalModelId = quota'.logicalModelId := by
  cases hm : quota.logicalModelId with
  | none =>
    cases hm' : quota'.logicalModelId with
    | none => simp
    | some m' =>
      have := h' m' hm'
      simp
      omega
  | some m =>
    have := h m hm
    cases hm' : quota'.logicalModelId with
    | none =>
      simp
      omega
    | some m' => simp

/-- Whose counter a call is for. -/
def Call.counted (c : Call) : Subject :=
  match c.quota.scope with
  | .user => .user c.userId
  | .department => .department (c.quota.scopeId <|> c.departmentId)
  | .global => .everyone

theorem Call.counted_inj {c c' : Call} :
    c.counted = c'.counted ↔ c.quota.scope = c'.quota.scope ∧ c.subject = c'.subject := by
  unfold Call.counted Call.subject
  cases c.quota.scope <;> cases c'.quota.scope <;> simp

theorem keyWith_eq {c : Call} : keyWith c.userId c.departmentId c.quota period =
    ⟨c.counted, c.quota.logicalModelId.getD 0, period, c.quota.metric⟩ := by
  unfold keyWith Call.counted
  cases c.quota.scope <;> rfl

/-- The texts of two calls are equal when the calls are for one counter, and only then. -/
theorem Call.keyText_inj {c c' : Call} (h : ∀ m ∈ c.quota.logicalModelId, 0 < m)
    (h' : ∀ m ∈ c'.quota.logicalModelId, 0 < m) : c.keyText = c'.keyText ↔ c.SameCounter c' := by
  unfold Call.keyText
  rw [keyTextAt_eq, keyTextAt_eq, Key.text_inj, keyWith_eq, keyWith_eq, Key.mk.injEq,
    Call.counted_inj, modelId_inj h h', periodKeyAt_inj]
  constructor
  · rintro ⟨⟨hscope, hsubject⟩, hmodel, ⟨hperiod, htimes⟩, hmetric⟩
    exact ⟨hscope, hsubject, hmodel, hperiod, htimes, hmetric⟩
  · rintro ⟨hscope, hsubject, hmodel, hperiod, htimes, hmetric⟩
    exact ⟨⟨hscope, hsubject⟩, hmodel, ⟨hperiod, htimes⟩, hmetric⟩

/-! ## The quotas of one request -/

section Request

variable {d : Gateway.Db} {decimal : Rat → Decimal} {logicalModelId estimatedTokens : Int}
  {estimatedCost : Option Decimal}

open Gateway.Handler

theorem scopeOf_inj {scope scope' : Gateway.QuotaScope} :
    scopeOf scope = scopeOf scope' ↔ scope = scope' := by
  cases scope <;> cases scope' <;> simp [scopeOf]

theorem periodOf_inj {period period' : Gateway.QuotaPeriod} :
    periodOf period = periodOf period' ↔ period = period' := by
  cases period <;> cases period' <;> simp [periodOf]

theorem metricOf_inj {metric metric' : Gateway.QuotaMetric} :
    metricOf metric = metricOf metric' ↔ metric = metric' := by
  cases metric <;> cases metric' <;> simp [metricOf]

/-- The id of a scope is the one that the query asks for. -/
theorem scopeId_of_applies {row : Gateway.QuotaRow} (h : row.appliesTo userId departmentId = true) :
    row.scopeId = match row.scope with
      | .user => some userId
      | .department => departmentId
      | .global => none := by
  unfold Gateway.QuotaRow.appliesTo at h
  cases hs : row.scope <;> simp_all

/-- A row that the query answers is not deleted, applies to the request and is for its model or for
all models. -/
theorem of_selected {row : Gateway.QuotaRow}
    (h : (!row.isDeleted && row.status == .active && row.appliesTo userId departmentId &&
      (row.logicalModelId == some logicalModelId || row.logicalModelId == none)) = true) :
    row.isDeleted = false ∧ row.appliesTo userId departmentId = true ∧
      ∀ m ∈ row.logicalModelId, m = logicalModelId := by
  simp only [Bool.and_eq_true, Bool.or_eq_true, Bool.not_eq_true', beq_iff_eq] at h
  obtain ⟨⟨⟨hdeleted, -⟩, happlies⟩, hmodel⟩ := h
  refine ⟨hdeleted, happlies, fun m hm => ?_⟩
  rcases hmodel with hmodel | hmodel
  · rw [hmodel] at hm
    exact (Option.some.inj hm).symm
  · rw [hmodel] at hm
    cases hm

/-- Two rows that one query answers differ in more than their scope's id. -/
theorem selected_ne {row row' : Gateway.QuotaRow} (h : row.appliesTo userId departmentId = true)
    (h' : row'.appliesTo userId departmentId = true) (hne : row.indexed ≠ row'.indexed) :
    ¬ (⟨userId, departmentId, enforcedQuota decimal row.toQuota, now⟩ : Call).SameCounter
      ⟨userId, departmentId, enforcedQuota decimal row'.toQuota, now'⟩ := by
  intro hsame
  have hscope : row.scope = row'.scope := scopeOf_inj.1 hsame.scope
  have hid : row.scopeId = row'.scopeId := by
    rw [scopeId_of_applies h, scopeId_of_applies h', hscope]
  have hmodel : row.logicalModelId = row'.logicalModelId := hsame.logicalModel
  have hperiod : row.period = row'.period := periodOf_inj.1 hsame.period
  have hmetric : row.metric = row'.metric := metricOf_inj.1 hsame.metric
  apply hne
  unfold Gateway.Quota.indexed
  rw [hscope, hid, hmodel, hperiod, hmetric]

/-- At whatever times the keys of two quotas of one request are made, their texts differ. -/
theorem keys_pairwise (hunique : d.UniqueActive) (hpos : 0 < logicalModelId) :
    ((d.getActiveQuotas userId departmentId logicalModelId).map (enforcedQuota decimal)).Pairwise
      fun q q' => ∀ now now',
        keyTextAt userId departmentId q now ≠ keyTextAt userId departmentId q' now' := by
  unfold Gateway.Db.getActiveQuotas
  rw [List.map_map, List.pairwise_map]
  have hrows := List.pairwise_map.1 hunique
  have hsub := List.monotone_filter_right d.quotas (p := fun q =>
      !q.isDeleted && q.status == .active && q.appliesTo userId departmentId &&
        (q.logicalModelId == some logicalModelId || q.logicalModelId == none))
    (q := fun q => !q.isDeleted) fun row hrow => by simp [(of_selected hrow).1]
  refine (hrows.sublist hsub).imp_of_mem fun {row row'} hrow hrow' hne now now' htext => ?_
  obtain ⟨-, happlies, hmodel⟩ := of_selected (List.mem_filter.1 hrow).2
  obtain ⟨-, happlies', hmodel'⟩ := of_selected (List.mem_filter.1 hrow').2
  refine selected_ne happlies happlies' hne ((Call.keyText_inj ?_ ?_).1 htext)
  · exact fun m hm => hmodel m hm ▸ hpos
  · exact fun m hm => hmodel' m hm ▸ hpos

/-- A key of the quota, made at some time. -/
def Keyed (userId : Int) (departmentId : Option Int) (quota : Quota) (key : Key) : Prop :=
  ∃ now, key.text = keyTextAt userId departmentId quota now

/-- What the check of a request counts: one counter for each of its quotas, and none twice. -/
def Cmd.Separate (userId : Int) (departmentId : Option Int) (quotas : List Quota) : Cmd → Prop
  | .check entries =>
    List.Forall₂ (fun q e => Keyed userId departmentId q e.key) quotas entries ∧
      (entries.map (·.key.text)).Nodup
  | _ => True

theorem mem_of_forall₂ {α β : Type} {R : α → β → Prop} {l : List α} {l' : List β} {b : β}
    (h : List.Forall₂ R l l') (hb : b ∈ l') : ∃ a ∈ l, R a b := by
  induction h with
  | nil => cases hb
  | @cons a b' l l' hab _ ih =>
    rcases List.mem_cons.1 hb with rfl | hb
    · exact ⟨a, List.mem_cons_self, hab⟩
    · obtain ⟨a', ha', hrel⟩ := ih hb
      exact ⟨a', List.mem_cons_of_mem _ ha', hrel⟩

section Check

variable {quotas : List Quota} {keys : List Key} {entries : List Entry}

/-- The entries of a check have the keys of its quotas. -/
theorem keyed_entries
    (hkeys : List.Forall₂ (Keyed userId departmentId) quotas keys)
    (hentries : List.Forall₂ (fun (pair : Quota × Key) e => e.key = pair.2)
      (quotas.zip keys) entries) :
    List.Forall₂ (fun q e => Keyed userId departmentId q e.key) quotas entries := by
  induction hkeys generalizing entries with
  | nil =>
    cases hentries
    exact .nil
  | cons hkey _ ih =>
    rw [List.zip_cons_cons] at hentries
    cases hentries with
    | cons he hrest => exact .cons (he ▸ hkey) (ih hrest)

theorem nodup_of_keyed
    (h : List.Forall₂ (fun q e => Keyed userId departmentId q e.key) quotas entries)
    (hpairs : quotas.Pairwise fun q q' => ∀ now now',
      keyTextAt userId departmentId q now ≠ keyTextAt userId departmentId q' now') :
    (entries.map (·.key.text)).Nodup := by
  induction h with
  | nil => simp
  | @cons q e quotas entries hkey hrest ih =>
    obtain ⟨hhead, htail⟩ := List.pairwise_cons.1 hpairs
    rw [List.map_cons, List.nodup_cons]
    refine ⟨fun hmem => ?_, ih htail⟩
    obtain ⟨e', he', htext⟩ := List.mem_map.1 hmem
    obtain ⟨q', hq', now', hnow'⟩ := mem_of_forall₂ hrest he'
    obtain ⟨now, hnow⟩ := hkey
    exact hhead q' hq' now now' (hnow.symm.trans (htext.symm.trans hnow'))

theorem entryFor_issues {pair : Quota × Key} : (entryFor estimatedTokens estimatedCost pair).Issues
    (Cmd.Separate userId departmentId quotas) fun e => e.key = pair.2 :=
  ⟨trivial, fun _ => rfl⟩

theorem warningFor_issues {pair : Quota × Key} :
    (warningFor pair).Issues (Cmd.Separate userId departmentId quotas) fun _ => True := by
  refine ⟨trivial, fun count => ?_⟩
  show Prog.Issues _ _ (ite _ (Prog.ret _) (Prog.ret _))
  split <;> trivial

/-- The commands of a check but the script are readings. -/
theorem checkAndIncrement_separate
    (hpairs : quotas.Pairwise fun q q' => ∀ now now',
      keyTextAt userId departmentId q now ≠ keyTextAt userId departmentId q' now') :
    (checkAndIncrement userId departmentId quotas estimatedTokens estimatedCost).Issues
      (Cmd.Separate userId departmentId quotas) fun _ => True := by
  unfold checkAndIncrement
  split
  · trivial
  · refine Prog.Issues.bind (Prog.Issues.mapM (K := Keyed userId departmentId) fun q _ =>
      ⟨trivial, fun now => ⟨now, keyTextAt_eq.symm⟩⟩) fun keys hkeys => ?_
    refine Prog.Issues.bind (Prog.Issues.mapM fun pair _ => entryFor_issues)
      fun entries hentries => ?_
    have hkeyed := keyed_entries hkeys hentries
    refine Prog.Issues.cmd_bind.2 ⟨⟨hkeyed, nodup_of_keyed hkeyed hpairs⟩, fun answer => ?_⟩
    cases answer with
    | none =>
      exact Prog.Issues.bind (Prog.Issues.mapM fun pair _ => warningFor_issues) fun _ _ => trivial
    | some failed =>
      dsimp only
      split <;> trivial

end Check

/-- Two calls answer one text exactly when they are for one counter, and the quotas that are checked
for a request have one counter each. -/
theorem quota_keys_injective :
    (∀ c c' : Call, (∀ m ∈ c.quota.logicalModelId, 0 < m) → (∀ m ∈ c'.quota.logicalModelId, 0 < m) →
      (c.keyText = c'.keyText ↔ c.SameCounter c')) ∧
    ∀ (d : Gateway.Db) (decimal : Rat → Decimal) (userId : Int) (departmentId : Option Int)
      (logicalModelId estimatedTokens : Int) (estimatedCost : Option Decimal),
      d.UniqueActive → 0 < logicalModelId →
      let quotas := (d.getActiveQuotas userId departmentId logicalModelId).map (enforcedQuota decimal)
      (checkAndIncrement userId departmentId quotas estimatedTokens estimatedCost).Issues
        (Cmd.Separate userId departmentId quotas) fun _ => True :=
  ⟨fun _ _ h h' => Call.keyText_inj h h',
    fun _ _ _ _ _ _ _ hunique hpos => checkAndIncrement_separate (keys_pairwise hunique hpos)⟩

def modelQuota : Gateway.QuotaRow where
  id := 1
  scope := .user
  scopeId := some 7
  logicalModelId := some 3
  period := .daily
  metric := .tokens
  limitValue := 100
  enforce := true
  status := .active
  isDeleted := false

/-- A limit over all models. -/
def overallQuota : Gateway.QuotaRow := { modelQuota with
  id := 2
  logicalModelId := none }

def rowCall (row : Gateway.QuotaRow) : Call :=
  ⟨7, none, enforcedQuota (fun _ => .ofInt 100) row.toQuota, leapDay⟩

/-- A user's quota on one model and its quota on all of them. -/
theorem quota_keys_injective_two :
    (rowCall modelQuota).keyText ≠ (rowCall overallQuota).keyText ∧
    let quotas := (Gateway.Db.getActiveQuotas ⟨[], [], [modelQuota, overallQuota]⟩ 7 none 3).map
      (enforcedQuota fun _ => .ofInt 100)
    (checkAndIncrement 7 none quotas 50 none).Issues (Cmd.Separate 7 none quotas) fun _ => True := by
  refine ⟨fun htext => ?_, quota_keys_injective.2 _ _ _ _ _ _ _ (by decide) (by decide)⟩
  have hsame := (quota_keys_injective.1 _ _ (by decide) (by decide)).1 htext
  exact absurd hsame.logicalModel (by decide)

end Request

end QuotaEnforcer
