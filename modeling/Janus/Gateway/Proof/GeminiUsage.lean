import Janus.Gateway.Proof.Chunks

/-!
# Gemini usage, streamed and not

The reply that is not a stream falls back to the sum of the two counts where it has no total, the
stream does not: they agree where there is a total or nothing was counted
(`gemini_usage_agrees_iff`).
-/

set_option autoImplicit false

namespace Gateway.Handler

open Python Text

section Gemini

variable {codec : Codec} {chunks : List (List UInt8)} {usageMeta : Fields}
  {prompt completion total : Int}

/-- The three counts of a `usageMetadata` object. -/
def Counted (usageMeta : Fields) (prompt completion total : Int) : Prop :=
  tokenCount usageMeta "promptTokenCount" = some prompt ∧
    tokenCount usageMeta "candidatesTokenCount" = some completion ∧
      tokenCount usageMeta "totalTokenCount" = some total

/-- An object with no `usageMetadata`. -/
def Bare (data : Value) : Prop :=
  ∃ fields : Fields, data = .dict fields ∧ fields.get "usageMetadata" .none = .none

/-- One data line has the metadata object, the others are objects with none. -/
def OnlyMetadata (codec : Codec) (chunks : List (List UInt8)) (usageMeta : Fields) : Prop :=
  LinesHold codec.loads (fun _ => True) (completeLines '\n' (decoded codec chunks)) ∧
    ∃ before after fields, dataEvents codec.loads (decoded codec chunks) =
        before ++ .dict fields :: after ∧
      Fields.get fields "usageMetadata" .none = .dict usageMeta ∧
      (∀ data ∈ before, Bare data) ∧ ∀ data ∈ after, Bare data

theorem tokenCount_nil (name : String) : tokenCount [] name = some 0 := rfl

/-- An empty object has no counts. -/
theorem Counted.of_nil (h : Counted [] prompt completion total) :
    prompt = 0 ∧ completion = 0 ∧ total = 0 := by
  obtain ⟨hprompt, hcompletion, htotal⟩ := h
  rw [tokenCount_nil] at hprompt hcompletion htotal
  injection hprompt with hprompt
  injection hcompletion with hcompletion
  injection htotal with htotal
  exact ⟨hprompt.symm, hcompletion.symm, htotal.symm⟩

theorem extractGemini_of_counted {parse : String → Option Int} {response : Fields}
    (hresponse : response.get "usageMetadata" .none = .dict usageMeta)
    (h : Counted usageMeta prompt completion total) :
    extractGeminiUsageFromResponse parse (.dict response) =
      .ok ⟨prompt, completion, if total = 0 then prompt + completion else total⟩ := by
  obtain ⟨hprompt, hcompletion, htotal⟩ := h
  have hmeta : (if (Value.dict usageMeta).truthy then .dict usageMeta else .dict []) =
      Value.dict usageMeta := by
    cases usageMeta with
    | nil => rfl
    | cons _ _ => rfl
  have hp := intItem_of_tokenCount parse hprompt
  have hc := intItem_of_tokenCount parse hcompletion
  have ht := intItem_of_tokenCount parse htotal
  simp only [extractGeminiUsageFromResponse, hresponse, hmeta]
  simp only [intItem, getItem_dict, bind, Except.bind] at hp hc ht ⊢
  simp only [hp, hc, ht]
  rfl

theorem metadataCounts_of_counted {fields : Fields}
    (hfields : fields.get "usageMetadata" .none = .dict usageMeta)
    (h : Counted usageMeta prompt completion total) (hne : usageMeta ≠ []) :
    metadataCounts (.dict fields) = some ⟨prompt, completion, total⟩ := by
  obtain ⟨hprompt, hcompletion, htotal⟩ := h
  have htruthy : (Value.dict usageMeta).truthy = true := by
    cases usageMeta with
    | nil => exact absurd rfl hne
    | cons _ _ => rfl
  simp [metadataCounts, asFields, hfields, htruthy, hprompt, hcompletion, htotal]

theorem metadataCounts_of_empty {fields : Fields}
    (h : (fields.get "usageMetadata" .none).truthy = false) : metadataCounts (.dict fields) = none := by
  simp [metadataCounts, asFields, h]

theorem Bare.counts {data : Value} (h : Bare data) :
    metadataCounts data = none ∧ GeminiCounts data := by
  obtain ⟨fields, rfl, hnone⟩ := h
  have hfalsy : (fields.get "usageMetadata" .none).truthy = false := by
    rw [hnone]
    rfl
  refine ⟨metadataCounts_of_empty hfalsy, fields, rfl, fun htruthy => ?_⟩
  rw [hfalsy] at htruthy
  cases htruthy

/-- The usage of a stream with one `usageMetadata`. -/
theorem feed_onlyMetadata (honly : OnlyMetadata codec chunks usageMeta)
    (h : Counted usageMeta prompt completion total) :
    (feed (accumulateGeminiUsage codec) freshUsage chunks).2 = none ∧
      (feed (accumulateGeminiUsage codec) freshUsage chunks).1.usage =
        if total ≠ 0 then ⟨prompt, completion, total⟩ else emptyUsage := by
  obtain ⟨hlines, before, after, fields, hevents, hfields, hbefore, hafter⟩ := honly
  have hdata : GeminiCounts (.dict fields) ∧
      geminiTotals [.dict fields] =
        if total ≠ 0 then ⟨prompt, completion, total⟩ else emptyUsage := by
    by_cases hne : usageMeta = []
    · subst hne
      obtain ⟨rfl, rfl, rfl⟩ := h.of_nil
      have hfalsy : (fields.get "usageMetadata" .none).truthy = false := by
        rw [hfields]
        rfl
      refine ⟨⟨fields, rfl, fun htruthy => ?_⟩, ?_⟩
      · rw [hfalsy] at htruthy
        cases htruthy
      · simp [geminiTotals, metadataCounts_of_empty hfalsy]
    · have hcounts := metadataCounts_of_counted hfields h hne
      refine ⟨⟨fields, rfl, fun _ => by simp [hcounts]⟩, ?_⟩
      by_cases htotal : total = 0
      · simp [geminiTotals, hcounts, htotal]
      · simp [geminiTotals, hcounts, htotal]
  have hnone (events : List Value) (hbare : ∀ data ∈ events, Bare data) :
      events.filterMap metadataCounts = [] :=
    List.filterMap_eq_nil_iff.2 fun data hm => (hbare data hm).counts.1
  have htotals : geminiTotals (dataEvents codec.loads (decoded codec chunks)) =
      geminiTotals [.dict fields] := by
    have hcons : Value.dict fields :: after = [Value.dict fields] ++ after := rfl
    rw [hevents, hcons, geminiTotals, geminiTotals, List.filterMap_append, List.filterMap_append,
      hnone before hbefore, hnone after hafter, List.append_nil, List.nil_append]
  have hold : LinesHold codec.loads GeminiCounts (completeLines '\n' (decoded codec chunks)) := by
    intro line hline
    obtain ⟨d, hd, -⟩ := hlines line hline
    refine ⟨d, hd, fun data heq => ?_⟩
    have hmem : data ∈ dataEvents codec.loads (decoded codec chunks) := by
      refine List.mem_filterMap.2 ⟨line, hline, ?_⟩
      simp [lineEvent, hd, heq]
    rw [hevents] at hmem
    rcases List.mem_append.1 hmem with hm | hm
    · exact (hbefore data hm).counts.2
    · rcases List.mem_cons.1 hm with rfl | hm
      · exact hdata.1
      · exact (hafter data hm).counts.2
  have hevent : ∀ events data, GeminiCounts data →
      geminiEvent codec.parseInt (geminiTotals events) data =
        .ok (geminiTotals (events ++ [data])) := fun _ _ => geminiEvent_totals
  have hwalk := walkLines_totals hevent hold []
  obtain ⟨herror, husage, -⟩ := feed_spec codec (geminiEvent codec.parseInt) chunks
    (s := freshUsage) (by decide)
  have htext : freshUsage.buffer.toList ++ decoded codec chunks = decoded codec chunks := rfl
  have hfresh : freshUsage.usage = geminiTotals [] := rfl
  rw [htext, hfresh, hwalk] at herror husage
  refine ⟨herror, husage.trans ?_⟩
  rw [← hdata.2, ← htotals]
  rfl

/-- The stream's usage is that of the same reply at once, if there is a total or no count. -/
theorem gemini_usage_agrees_iff {response : Fields} (honly : OnlyMetadata codec chunks usageMeta)
    (hresponse : response.get "usageMetadata" .none = .dict usageMeta)
    (h : Counted usageMeta prompt completion total) :
    extractGeminiUsageFromResponse codec.parseInt (.dict response) =
        .ok (feed (accumulateGeminiUsage codec) freshUsage chunks).1.usage ↔
      total ≠ 0 ∨ (prompt = 0 ∧ completion = 0) := by
  rw [extractGemini_of_counted hresponse h, (feed_onlyMetadata honly h).2]
  by_cases htotal : total = 0
  · subst htotal
    constructor
    · intro heq
      simp [emptyUsage] at heq
      omega
    · rintro (hne | ⟨rfl, rfl⟩)
      · exact absurd rfl hne
      · rfl
  · simp [htotal]

/-- A stream of one data line. -/
theorem onlyMetadata_of_line (line : List Char) {fields : Fields}
    (hlines : completeLines '\n' (decoded codec chunks) = [line])
    (hline : lineData codec.loads line = .ok (some (.dict fields)))
    (hfields : fields.get "usageMetadata" .none = .dict usageMeta) :
    OnlyMetadata codec chunks usageMeta := by
  refine ⟨?_, [], [], fields, ?_, hfields, nofun, nofun⟩
  · rw [hlines]
    intro l hl
    rw [List.mem_singleton] at hl
    subst hl
    exact ⟨_, hline, fun _ _ => trivial⟩
  · have hevent : lineEvent codec.loads line = some (.dict fields) := by simp [lineEvent, hline]
    rw [dataEvents, hlines, List.filterMap_cons_some hevent]
    rfl

end Gemini

/-! ## With a total and without one -/

def withTotal : Fields := [("promptTokenCount", .int 3), ("totalTokenCount", .int 7)]

def withTotalText : String :=
  "\x7b\"usageMetadata\": \x7b\"promptTokenCount\": 3, \"totalTokenCount\": 7\x7d\x7d"

theorem onlyMetadata_withTotal :
    OnlyMetadata (knowing withTotalText (.dict [("usageMetadata", .dict withTotal)]))
      [asciiBytes ("data: " ++ withTotalText ++ "\n")] withTotal :=
  onlyMetadata_of_line (dataPrefix ++ withTotalText.toList) (by decide) rfl rfl

theorem gemini_usage_agrees_withTotal :
    extractGeminiUsageFromResponse (fun _ => none) (.dict [("usageMetadata", .dict withTotal)]) =
      .ok (feed (accumulateGeminiUsage
        (knowing withTotalText (.dict [("usageMetadata", .dict withTotal)]))) freshUsage
        [asciiBytes ("data: " ++ withTotalText ++ "\n")]).1.usage :=
  (gemini_usage_agrees_iff onlyMetadata_withTotal rfl ⟨rfl, rfl, rfl⟩).2 (.inl (by decide))

def withoutTotal : Fields := [("promptTokenCount", .int 3), ("candidatesTokenCount", .int 4)]

def withoutTotalText : String :=
  "\x7b\"usageMetadata\": \x7b\"promptTokenCount\": 3, \"candidatesTokenCount\": 4\x7d\x7d"

theorem onlyMetadata_withoutTotal :
    OnlyMetadata (knowing withoutTotalText (.dict [("usageMetadata", .dict withoutTotal)]))
      [asciiBytes ("data: " ++ withoutTotalText ++ "\n")] withoutTotal :=
  onlyMetadata_of_line (dataPrefix ++ withoutTotalText.toList) (by decide) rfl rfl

/-- Without a total the stream records no usage at all. -/
theorem withoutTotal_differs : ¬ ∀ (codec : Codec) (chunks : List (List UInt8))
    (usageMeta response : Fields) (prompt completion total : Int),
    OnlyMetadata codec chunks usageMeta →
    response.get "usageMetadata" .none = .dict usageMeta →
    Counted usageMeta prompt completion total →
    extractGeminiUsageFromResponse codec.parseInt (.dict response) =
      .ok (feed (accumulateGeminiUsage codec) freshUsage chunks).1.usage := by
  intro h
  have hcounted : Counted withoutTotal 3 4 0 := ⟨rfl, rfl, rfl⟩
  have heq := h _ _ _ [("usageMetadata", .dict withoutTotal)] 3 4 0 onlyMetadata_withoutTotal rfl
    hcounted
  rw [(feed_onlyMetadata onlyMetadata_withoutTotal hcounted).2,
    extractGemini_of_counted rfl hcounted] at heq
  cases heq

end Gateway.Handler
