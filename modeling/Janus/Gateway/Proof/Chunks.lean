import Janus.Gateway.Sse
import Janus.Python.Alike

/-!
# Native streams, chunk by chunk

What a parser makes of a stream depends on its complete lines only, wherever the chunks end
(`feed_spec`). A split inside a character changes the characters that the bytes decode to, but not
the skeleton of the text; under `Codec.Ordinary` the JSON of a line stays alike, so the counts in it
stay the same (`chunks_invariant`).
-/

set_option autoImplicit false

namespace Gateway.Handler

open Python Text

/-! ## A feed is a walk over the lines -/

section Feed

variable {codec : Codec} {event : Usage → Value → Except Python.Error Usage}
  {loads : String → Except Python.Error Value} {s : NativeUsage} {usage : Usage}
  {chunks : List (List UInt8)}

theorem walkLines_append (l₁ l₂ : List (List Char)) : walkLines loads event usage (l₁ ++ l₂) =
    match walkLines loads event usage l₁ with
    | (usage, some e) => (usage, some e)
    | (usage, none) => walkLines loads event usage l₂ := by
  induction l₁ generalizing usage with
  | nil => rfl
  | cons line l₁ ih =>
    simp only [List.cons_append, walkLines]
    cases lineData loads line with
    | error e => rfl
    | ok d =>
      cases d with
      | none => exact ih
      | some data =>
        cases hevent : event usage data with
        | error e => simp only [hevent]
        | ok usage =>
          simp only [hevent]
          exact ih

/-- The text that the chunks decode to, one by one. -/
def decoded (codec : Codec) (chunks : List (List UInt8)) : List Char :=
  chunks.flatMap fun rawBytes => (codec.decode rawBytes).toList

/-- A feed ends as the walk over the lines of the whole text does; if it comes to the end, the
buffer is the unfinished line. -/
theorem feed_spec (codec : Codec) (event : Usage → Value → Except Python.Error Usage)
    (chunks : List (List UInt8)) {s : NativeUsage} (hs : '\n' ∉ s.buffer.toList) :
    (feed (accumulateUsage codec event) s chunks).2 =
        (walkLines codec.loads event s.usage
          (completeLines '\n' (s.buffer.toList ++ decoded codec chunks))).2 ∧
      (feed (accumulateUsage codec event) s chunks).1.usage =
        (walkLines codec.loads event s.usage
          (completeLines '\n' (s.buffer.toList ++ decoded codec chunks))).1 ∧
      ((feed (accumulateUsage codec event) s chunks).2 = none →
        (feed (accumulateUsage codec event) s chunks).1.buffer.toList =
          unfinished '\n' (s.buffer.toList ++ decoded codec chunks)) := by
  induction chunks generalizing s with
  | nil =>
    have htext : s.buffer.toList ++ decoded codec [] = s.buffer.toList := by simp [decoded]
    rw [htext, completeLines_of_not_mem hs, unfinished_of_not_mem hs]
    exact ⟨rfl, rfl, fun _ => rfl⟩
  | cons rawBytes chunks ih =>
    have htext : s.buffer.toList ++ decoded codec (rawBytes :: chunks) =
        (s.buffer.toList ++ (codec.decode rawBytes).toList) ++ decoded codec chunks := by
      simp [decoded]
    have hrest := unfinished_append '\n' (s.buffer.toList ++ (codec.decode rawBytes).toList)
      (decoded codec chunks)
    rw [htext, completeLines_append, hrest, walkLines_append]
    simp only [feed, accumulateUsage]
    cases hwalk : walkLines codec.loads event s.usage
        (completeLines '\n' (s.buffer.toList ++ (codec.decode rawBytes).toList)) with
    | mk usage e =>
      cases e with
      | some e => exact ⟨rfl, rfl, nofun⟩
      | none =>
        -- the unfinished line goes on with the next chunk
        have hbuffer : (String.ofList (unfinished '\n'
            (s.buffer.toList ++ (codec.decode rawBytes).toList))).toList =
            unfinished '\n' (s.buffer.toList ++ (codec.decode rawBytes).toList) := by simp
        have hnext := @ih ⟨usage, String.ofList (unfinished '\n'
          (s.buffer.toList ++ (codec.decode rawBytes).toList))⟩
        simp only [hbuffer] at hnext
        exact hnext not_mem_unfinished

end Feed

/-! ## The counts of a stream -/

section Counts

def asFields : Value → Option Fields
  | .dict fields => some fields
  | _ => none

/-- The integer under a name, 0 if it is absent. -/
def tokenCount (fields : Fields) (name : String) : Option Int :=
  match fields.get name (.int 0) with
  | .int n => some n
  | _ => none

/-- The `input_tokens` of a `message_start`. -/
def inputTokens (data : Value) : Option Int := do
  let fields ← asFields data
  if fields.get "type" (.str "") = .str "message_start" then
    let message ← asFields (orEmpty (fields.get "message" .none))
    let usage ← asFields (orEmpty (message.get "usage" .none))
    tokenCount usage "input_tokens"
  else none

/-- The `output_tokens` of a `message_delta`. -/
def outputTokens (data : Value) : Option Int := do
  let fields ← asFields data
  if fields.get "type" (.str "") = .str "message_delta" then
    let usage ← asFields (orEmpty (fields.get "usage" .none))
    tokenCount usage "output_tokens"
  else none

/-- The three counts of a `usageMetadata`. -/
def metadataCounts (data : Value) : Option Usage := do
  let fields ← asFields data
  let usageMeta := fields.get "usageMetadata" .none
  if usageMeta.truthy then
    let usageMeta ← asFields usageMeta
    let prompt ← tokenCount usageMeta "promptTokenCount"
    let completion ← tokenCount usageMeta "candidatesTokenCount"
    let total ← tokenCount usageMeta "totalTokenCount"
    some ⟨prompt, completion, total⟩
  else none

/-- An object whose token counts are integers or absent. -/
def AnthropicCounts (data : Value) : Prop :=
  ∃ fields : Fields, data = .dict fields ∧
    (fields.get "type" (.str "") = .str "message_start" → (inputTokens data).isSome) ∧
    (fields.get "type" (.str "") = .str "message_delta" → (outputTokens data).isSome)

def GeminiCounts (data : Value) : Prop :=
  ∃ fields : Fields, data = .dict fields ∧
    ((fields.get "usageMetadata" .none).truthy → (metadataCounts data).isSome)

def lastNonzero (counts : List Int) : Int := ((counts.filter (· ≠ 0)).getLast?).getD 0

def anthropicTotals (events : List Value) : Usage :=
  ⟨lastNonzero (events.filterMap inputTokens), lastNonzero (events.filterMap outputTokens),
    lastNonzero (events.filterMap inputTokens) + lastNonzero (events.filterMap outputTokens)⟩

def geminiTotals (events : List Value) : Usage :=
  (((events.filterMap metadataCounts).filter (·.totalTokens ≠ 0)).getLast?).getD emptyUsage

variable {parse : String → Option Int} {data : Value} {usage : Usage} {events : List Value}

theorem lastNonzero_append (counts : List Int) (n : Int) :
    lastNonzero (counts ++ [n]) = if n ≠ 0 then n else lastNonzero counts := by
  by_cases hn : n = 0
  · simp [lastNonzero, hn]
  · simp [lastNonzero, List.filter_append, hn]

/-- What a parser does with an integer or absent count. -/
theorem intItem_of_tokenCount (parse : String → Option Int) {fields : Fields} {name : String} {n : Int}
    (h : tokenCount fields name = some n) : intItem parse (.dict fields) name = .ok n := by
  unfold tokenCount at h
  split at h
  · next m hm =>
    injection h with h
    subst h
    simp [intItem, getItem, hm, Value.toInt, bind, Except.bind]
  · cases h

theorem getItem_dict {fields : Fields} {name : String} {default : Value} :
    getItem (.dict fields) name default = .ok (fields.get name default) := rfl

/-- A value that is an object or empty, as the parsers read it. -/
theorem eq_dict_of_asFields {v : Value} {fields : Fields} (h : asFields v = some fields) :
    v = .dict fields := by
  cases v with
  | dict _ =>
    injection h with h
    rw [h]
  | _ => cases h

theorem anthropicEvent_start {fields : Fields} {n : Int}
    (htype : fields.get "type" (.str "") = .str "message_start")
    (h : inputTokens (.dict fields) = some n) :
    anthropicEvent parse usage (.dict fields) = .ok (if n ≠ 0 then
      { usage with promptTokens := n, totalTokens := n + usage.completionTokens } else usage) := by
  simp only [inputTokens, asFields, Option.bind_eq_bind, Option.bind_some, htype, if_true] at h
  obtain ⟨message, hmessage, h⟩ := Option.bind_eq_some_iff.1 h
  obtain ⟨msgUsage, husage, h⟩ := Option.bind_eq_some_iff.1 h
  have hcount := intItem_of_tokenCount parse h
  simp only [anthropicEvent, getItem_dict, htype, eq_dict_of_asFields hmessage,
    eq_dict_of_asFields husage, hcount, bind, Except.bind, if_true]
  split <;> rfl

theorem anthropicEvent_delta {fields : Fields} {n : Int}
    (htype : fields.get "type" (.str "") = .str "message_delta")
    (h : outputTokens (.dict fields) = some n) :
    anthropicEvent parse usage (.dict fields) = .ok (if n ≠ 0 then
      { usage with completionTokens := n, totalTokens := usage.promptTokens + n } else usage) := by
  simp only [outputTokens, asFields, Option.bind_eq_bind, Option.bind_some, htype, if_true] at h
  obtain ⟨deltaUsage, husage, h⟩ := Option.bind_eq_some_iff.1 h
  have hcount := intItem_of_tokenCount parse h
  have hne : ¬ Value.str "message_delta" = .str "message_start" := by
    intro heq
    injection heq with heq
    exact absurd heq (by decide)
  simp only [anthropicEvent, getItem_dict, htype, eq_dict_of_asFields husage, hcount, bind,
    Except.bind, if_neg hne, if_true]
  split <;> rfl

theorem anthropicEvent_other {fields : Fields}
    (hstart : fields.get "type" (.str "") ≠ .str "message_start")
    (hdelta : fields.get "type" (.str "") ≠ .str "message_delta") :
    anthropicEvent parse usage (.dict fields) = .ok usage := by
  simp only [anthropicEvent, getItem_dict, bind, Except.bind, if_neg hstart, if_neg hdelta]
  rfl

theorem inputTokens_of_ne {fields : Fields}
    (h : fields.get "type" (.str "") ≠ .str "message_start") : inputTokens (.dict fields) = none := by
  simp [inputTokens, asFields, h]

theorem outputTokens_of_ne {fields : Fields}
    (h : fields.get "type" (.str "") ≠ .str "message_delta") :
    outputTokens (.dict fields) = none := by
  simp [outputTokens, asFields, h]

/-- An event brings the totals up to date. -/
theorem anthropicEvent_totals (h : AnthropicCounts data) :
    anthropicEvent parse (anthropicTotals events) data =
      .ok (anthropicTotals (events ++ [data])) := by
  obtain ⟨fields, rfl, hstart, hdelta⟩ := h
  by_cases htype : fields.get "type" (.str "") = .str "message_start"
  · obtain ⟨n, hn⟩ := Option.isSome_iff_exists.1 (hstart htype)
    have hother : outputTokens (.dict fields) = none := by
      apply outputTokens_of_ne
      rw [htype]
      intro heq
      injection heq with heq
      exact absurd heq (by decide)
    rw [anthropicEvent_start htype hn]
    by_cases hzero : n = 0
    · simp [anthropicTotals, hn, hother, lastNonzero_append, hzero]
    · simp [anthropicTotals, hn, hother, lastNonzero_append, hzero]
  · by_cases htype' : fields.get "type" (.str "") = .str "message_delta"
    · obtain ⟨n, hn⟩ := Option.isSome_iff_exists.1 (hdelta htype')
      have hother := inputTokens_of_ne htype
      rw [anthropicEvent_delta htype' hn]
      by_cases hzero : n = 0
      · simp [anthropicTotals, hn, hother, lastNonzero_append, hzero]
      · simp [anthropicTotals, hn, hother, lastNonzero_append, hzero]
    · rw [anthropicEvent_other htype htype']
      simp [anthropicTotals, inputTokens_of_ne htype, outputTokens_of_ne htype']

theorem geminiEvent_counts {fields : Fields} {counts : Usage}
    (h : metadataCounts (.dict fields) = some counts) : geminiEvent parse usage (.dict fields) =
      .ok (if counts.totalTokens ≠ 0 then counts else usage) := by
  simp only [metadataCounts, asFields, Option.bind_eq_bind, Option.bind_some] at h
  split at h
  · next htruthy =>
    obtain ⟨usageMeta, hmeta, h⟩ := Option.bind_eq_some_iff.1 h
    obtain ⟨prompt, hprompt, h⟩ := Option.bind_eq_some_iff.1 h
    obtain ⟨completion, hcompletion, h⟩ := Option.bind_eq_some_iff.1 h
    obtain ⟨total, htotal, h⟩ := Option.bind_eq_some_iff.1 h
    injection h with h
    have hmeta := eq_dict_of_asFields hmeta
    rw [hmeta] at htruthy
    simp only [geminiEvent, getItem_dict, hmeta, htruthy, bind, Except.bind, if_true,
      intItem_of_tokenCount parse hprompt, intItem_of_tokenCount parse hcompletion,
      intItem_of_tokenCount parse htotal, ← h]
    split <;> rfl
  · cases h

theorem geminiEvent_totals (h : GeminiCounts data) :
    geminiEvent parse (geminiTotals events) data = .ok (geminiTotals (events ++ [data])) := by
  obtain ⟨fields, rfl, hcounts⟩ := h
  by_cases htruthy : (fields.get "usageMetadata" .none).truthy
  · obtain ⟨counts, hc⟩ := Option.isSome_iff_exists.1 (hcounts htruthy)
    rw [geminiEvent_counts hc]
    by_cases hzero : counts.totalTokens = 0
    · simp [geminiTotals, hc, hzero]
    · simp [geminiTotals, hc, hzero, List.filter_append]
  · have hnone : metadataCounts (.dict fields) = none := by
      simp [metadataCounts, asFields, htruthy]
    simp only [geminiEvent, getItem_dict, bind, Except.bind, if_neg htruthy]
    simp [geminiTotals, hnone, pure, Except.pure]

end Counts

/-! ## The events of a text -/

section Events

variable {loads : String → Except Python.Error Value} {lines : List (List Char)}
  {event : Usage → Value → Except Python.Error Usage}

/-- The JSON of a line that is not skipped. -/
def lineEvent (loads : String → Except Python.Error Value) (line : List Char) : Option Value :=
  match lineData loads line with
  | .ok d => d
  | .error _ => none

/-- What the complete lines of a text hold. -/
def dataEvents (loads : String → Except Python.Error Value) (text : List Char) : List Value :=
  (completeLines '\n' text).filterMap (lineEvent loads)

/-- Every line is skipped or holds JSON with `P`. -/
def LinesHold (loads : String → Except Python.Error Value) (P : Value → Prop)
    (lines : List (List Char)) : Prop :=
  ∀ line ∈ lines, ∃ d, lineData loads line = .ok d ∧ ∀ data, d = some data → P data

/-- A walk keeps the totals up to date. -/
theorem walkLines_totals {P : Value → Prop} {totals : List Value → Usage}
    (hevent : ∀ events data, P data →
      event (totals events) data = .ok (totals (events ++ [data])))
    (h : LinesHold loads P lines) (events : List Value) :
    walkLines loads event (totals events) lines =
      (totals (events ++ lines.filterMap (lineEvent loads)), none) := by
  induction lines generalizing events with
  | nil => simp [walkLines]
  | cons line lines ih =>
    obtain ⟨d, hd, hP⟩ := h line List.mem_cons_self
    have hrest : LinesHold loads P lines := fun l hl => h l (List.mem_cons_of_mem _ hl)
    simp only [walkLines, hd]
    cases d with
    | none =>
      have hskip : lineEvent loads line = none := by simp [lineEvent, hd]
      rw [List.filterMap_cons_none hskip]
      exact ih hrest events
    | some data =>
      have hline : lineEvent loads line = some data := by simp [lineEvent, hd]
      simp only [hevent events data (hP data rfl)]
      rw [ih hrest, List.filterMap_cons_some hline, List.append_assoc]
      rfl

end Events

/-! ## Texts with the same skeleton -/

/-- Two ways to end a `loads` that nothing tells apart. -/
inductive AlikeResults : Except Python.Error Value → Except Python.Error Value → Prop
  | ok {v w : Value} : Alike v w → AlikeResults (.ok v) (.ok w)
  | error (e : Python.Error) : AlikeResults (.error e) (.error e)

/-- The decoder keeps ASCII bytes and makes other characters of every run of others, and JSON does
not tell characters outside ASCII apart. -/
structure Codec.Ordinary (codec : Codec) : Prop where
  decode : ∀ rawBytes, asciiSkeleton (codec.decode rawBytes) = skeleton asciiByte rawBytes
  loads : ∀ s t, asciiSkeleton s = asciiSkeleton t → AlikeResults (codec.loads s) (codec.loads t)

section Alike

variable {codec : Codec} {v w : Value} {fs gs : Fields}

theorem alike_orEmpty (h : Alike v w) : Alike (orEmpty v) (orEmpty w) := by
  unfold orEmpty
  rw [h.truthy]
  split
  · exact h
  · exact .dict Iff.rfl fun _ _ => .none

theorem asFields_alike (h : Alike v w) :
    Option.Rel (fun fs gs => Alike (.dict fs) (.dict gs)) (asFields v) (asFields w) := by
  cases h with
  | dict hempty hlookup => exact .some (.dict hempty hlookup)
  | _ => exact .none

theorem bind_congr_rel {α β γ : Type} {r : α → β → Prop} {a : Option α} {b : Option β}
    {f : α → Option γ} {g : β → Option γ} (h : Option.Rel r a b) (hfg : ∀ x y, r x y → f x = g y) :
    a.bind f = b.bind g := by
  cases h with
  | some hxy => exact hfg _ _ hxy
  | none => rfl

theorem tokenCount_alike (h : Alike (.dict fs) (.dict gs)) (name : String) (hname : Ascii name) :
    tokenCount fs name = tokenCount gs name := by
  have hget := h.get hname (.int 0)
  unfold tokenCount
  generalize fs.get name (.int 0) = a at hget ⊢
  generalize gs.get name (.int 0) = b at hget ⊢
  cases hget <;> rfl

theorem type_alike (h : Alike (.dict fs) (.dict gs)) (s : String) (hs : Ascii s) :
    fs.get "type" (.str "") = .str s ↔ gs.get "type" (.str "") = .str s :=
  (h.get (by decide) (.str rfl)).eq_str hs

theorem inputTokens_alike (h : Alike v w) : inputTokens v = inputTokens w := by
  refine bind_congr_rel (asFields_alike h) fun fs gs hfields => ?_
  simp only [type_alike hfields "message_start" (by decide)]
  split
  · refine bind_congr_rel (asFields_alike (alike_orEmpty (hfields.get (by decide) .none)))
      fun _ _ hmessage => ?_
    refine bind_congr_rel (asFields_alike (alike_orEmpty (hmessage.get (by decide) .none)))
      fun _ _ husage => ?_
    exact tokenCount_alike husage _ (by decide)
  · rfl

theorem outputTokens_alike (h : Alike v w) : outputTokens v = outputTokens w := by
  refine bind_congr_rel (asFields_alike h) fun fs gs hfields => ?_
  simp only [type_alike hfields "message_delta" (by decide)]
  split
  · refine bind_congr_rel (asFields_alike (alike_orEmpty (hfields.get (by decide) .none)))
      fun _ _ husage => ?_
    exact tokenCount_alike husage _ (by decide)
  · rfl

theorem metadataCounts_alike (h : Alike v w) : metadataCounts v = metadataCounts w := by
  refine bind_congr_rel (asFields_alike h) fun fs gs hfields => ?_
  have hmeta : Alike (fs.get "usageMetadata" .none) (gs.get "usageMetadata" .none) :=
    hfields.get (by decide) .none
  simp only [hmeta.truthy]
  split
  · refine bind_congr_rel (asFields_alike hmeta) fun _ _ hcounts => ?_
    rw [tokenCount_alike hcounts "promptTokenCount" (by decide),
      tokenCount_alike hcounts "candidatesTokenCount" (by decide),
      tokenCount_alike hcounts "totalTokenCount" (by decide)]
  · rfl

theorem anthropicCounts_alike (h : Alike v w) (hv : AnthropicCounts v) : AnthropicCounts w := by
  obtain ⟨fields, rfl, hstart, hdelta⟩ := hv
  rw [inputTokens_alike h] at hstart
  rw [outputTokens_alike h] at hdelta
  cases h with
  | dict hempty hlookup =>
    have hfields := Alike.dict hempty hlookup
    refine ⟨_, rfl, fun htype => hstart ?_, fun htype => hdelta ?_⟩
    · exact (type_alike hfields _ (by decide)).2 htype
    · exact (type_alike hfields _ (by decide)).2 htype

theorem geminiCounts_alike (h : Alike v w) (hv : GeminiCounts v) : GeminiCounts w := by
  obtain ⟨fields, rfl, hcounts⟩ := hv
  rw [metadataCounts_alike h] at hcounts
  cases h with
  | dict hempty hlookup =>
    have hfields := Alike.dict hempty hlookup
    refine ⟨_, rfl, fun htruthy => hcounts ?_⟩
    rwa [(hfields.get (by decide) .none).truthy]

/-- What a line holds is known from its skeleton, up to characters outside ASCII. -/
theorem lineData_alike (h : codec.Ordinary) {line line' : List Char}
    (hline : skeleton asciiChar line = skeleton asciiChar line') :
    (∃ e, lineData codec.loads line = .error e ∧ lineData codec.loads line' = .error e) ∨
      ∃ d d', lineData codec.loads line = .ok d ∧ lineData codec.loads line' = .ok d' ∧
        Option.Rel Alike d d' := by
  have hplain : dataPrefix.map asciiChar = dataPrefix.map some := by decide
  have hstarts : dataPrefix.isPrefixOf line = true ↔ dataPrefix.isPrefixOf line' = true := by
    rw [List.isPrefixOf_iff_prefix, List.isPrefixOf_iff_prefix,
      prefix_skeleton hplain fun _ _ _ => asciiChar_inj,
      prefix_skeleton hplain fun _ _ _ => asciiChar_inj, hline]
  unfold lineData
  by_cases hdata : dataPrefix.isPrefixOf line = true
  · have hdata' := hstarts.1 hdata
    rw [if_pos hdata, if_pos hdata']
    have hrest : asciiSkeleton (String.ofList (line.drop 6)) =
        asciiSkeleton (String.ofList (line'.drop 6)) := by
      have hdrop := skeleton_drop hplain (List.isPrefixOf_iff_prefix.1 hdata)
      have hdrop' := skeleton_drop hplain (List.isPrefixOf_iff_prefix.1 hdata')
      rw [hline, ← hdrop'] at hdrop
      have hlength : dataPrefix.length = 6 := rfl
      simpa [asciiSkeleton, hlength] using hdrop
    have hloads := h.loads _ _ hrest
    generalize codec.loads (String.ofList (line.drop 6)) = a at hloads ⊢
    generalize codec.loads (String.ofList (line'.drop 6)) = b at hloads ⊢
    cases hloads with
    | ok hvalues => exact .inr ⟨_, _, rfl, rfl, .some hvalues⟩
    | error e =>
      cases e with
      | valueError => exact .inr ⟨none, none, rfl, rfl, .none⟩
      | _ => exact .inl ⟨_, rfl, rfl⟩
  · rw [if_neg hdata, if_neg fun hdata' => hdata (hstarts.2 hdata')]
    exact .inr ⟨none, none, rfl, rfl, .none⟩

/-- The lines of texts with one skeleton have the same skeletons. -/
theorem completeLines_alike {text text' : List Char}
    (h : skeleton asciiChar text = skeleton asciiChar text') :
    List.Forall₂ (fun line line' => skeleton asciiChar line = skeleton asciiChar line')
      (completeLines '\n' text) (completeLines '\n' text') := by
  have hnewline : asciiChar '\n' = some '\n' := by decide
  have hinj : ∀ c, asciiChar c = some '\n' → c = '\n' := fun c hc => asciiChar_inj hc hnewline
  have hsplit := splitOn_skeleton (x := text) hnewline hinj
  have hsplit' := splitOn_skeleton (x := text') hnewline hinj
  rw [h, hsplit'] at hsplit
  have hmap : (completeLines '\n' text').map (skeleton asciiChar) =
      (completeLines '\n' text).map (skeleton asciiChar) := by
    rw [completeLines, completeLines, List.map_dropLast, List.map_dropLast, hsplit]
  have hsame : List.Forall₂ Eq ((completeLines '\n' text).map (skeleton asciiChar))
      ((completeLines '\n' text').map (skeleton asciiChar)) := by
    rw [hmap]
    exact List.forall₂_same.2 fun _ _ => rfl
  exact List.forall₂_map_right_iff.1 (List.forall₂_map_left_iff.1 hsame)

section Lines

variable {lines lines' : List (List Char)} {P : Value → Prop}

theorem linesHold_alike (h : codec.Ordinary) (hP : ∀ {v w}, Alike v w → P v → P w)
    (hlines : List.Forall₂ (fun line line' => skeleton asciiChar line = skeleton asciiChar line')
      lines lines') (hold : LinesHold codec.loads P lines) : LinesHold codec.loads P lines' := by
  induction hlines with
  | nil => exact nofun
  | @cons line line' _ _ hskeleton _ ih =>
    obtain ⟨d, hd, hPd⟩ := hold line List.mem_cons_self
    intro line₁ hline₁
    rcases List.mem_cons.1 hline₁ with rfl | hrest
    · rcases lineData_alike h hskeleton with ⟨e, he, -⟩ | ⟨d₀, d', hd₀, hd', halike⟩
      · rw [hd] at he
        cases he
      · rw [hd] at hd₀
        injection hd₀ with hd₀
        subst hd₀
        refine ⟨d', hd', fun data hdata => ?_⟩
        subst hdata
        cases halike with
        | some hvalues => exact hP hvalues (hPd _ rfl)
    · exact ih (fun l hl => hold l (List.mem_cons_of_mem _ hl)) line₁ hrest

/-- Counts that alike values agree in are those of alike lines. -/
theorem filterMap_alike (h : codec.Ordinary) {α : Type} {f : Value → Option α}
    (hf : ∀ {v w}, Alike v w → f v = f w)
    (hlines : List.Forall₂ (fun line line' => skeleton asciiChar line = skeleton asciiChar line')
      lines lines') :
    (lines.filterMap (lineEvent codec.loads)).filterMap f =
      (lines'.filterMap (lineEvent codec.loads)).filterMap f := by
  induction hlines with
  | nil => rfl
  | cons hline _ ih =>
    rcases lineData_alike h hline with ⟨e, he, he'⟩ | ⟨d, d', hd, hd', halike⟩
    · simpa [List.filterMap_cons, lineEvent, he, he'] using ih
    · cases halike with
      | none => simpa [List.filterMap_cons, lineEvent, hd, hd'] using ih
      | some hvalues =>
        simp [List.filterMap_cons, lineEvent, hd, hd', hf hvalues, ih]

end Lines

theorem skeleton_decoded (h : codec.Ordinary) (chunks : List (List UInt8)) :
    skeleton asciiChar (decoded codec chunks) =
      skeleton asciiChar (codec.decode chunks.flatten).toList := by
  have hbytes : skeleton asciiChar (decoded codec chunks) = skeleton asciiByte chunks.flatten := by
    induction chunks with
    | nil => rfl
    | cons rawBytes chunks ih =>
      have hhead := h.decode rawBytes
      unfold asciiSkeleton at hhead
      rw [decoded, List.flatMap_cons, List.flatten_cons, skeleton_append, skeleton_append, hhead]
      exact congrArg (fun l => List.foldr push l (skeleton asciiByte rawBytes)) ih
  exact hbytes.trans (h.decode chunks.flatten).symm

end Alike

/-! ## Any way to split a stream -/

section Split

variable {codec : Codec} {event : Usage → Value → Except Python.Error Usage}
  {chunks chunks' : List (List UInt8)} {s : NativeUsage}

/-- The state of a stream at its start. -/
def freshUsage : NativeUsage := ⟨emptyUsage, ""⟩

/-- The parser ends with `usage`, whether the stream comes in these chunks or at once, and between
the chunks it holds back the unfinished line. -/
def StreamsTo (accumulate : NativeUsage → List UInt8 → NativeUsage × Option Python.Error)
    (codec : Codec) (chunks : List (List UInt8)) (usage : Usage) : Prop :=
  ((feed accumulate freshUsage chunks).1.usage = usage ∧
      (feed accumulate freshUsage chunks).2 = none) ∧
    ((feed accumulate freshUsage [chunks.flatten]).1.usage = usage ∧
      (feed accumulate freshUsage [chunks.flatten]).2 = none) ∧
    ∀ n, (feed accumulate freshUsage (chunks.take n)).1.buffer.toList =
      (decoded codec (chunks.take n)).rtakeWhile (· ≠ '\n')

theorem feed_append_none
    {accumulate : NativeUsage → List UInt8 → NativeUsage × Option Python.Error}
    (h : (feed accumulate s (chunks ++ chunks')).2 = none) : (feed accumulate s chunks).2 = none := by
  induction chunks generalizing s with
  | nil => rfl
  | cons rawBytes chunks ih =>
    simp only [List.cons_append, feed] at h ⊢
    cases hstep : accumulate s rawBytes with
    | mk s' e =>
      simp only [hstep] at h ⊢
      cases e with
      | some e => cases h
      | none => exact ih h

/-- A parser that keeps its totals up to date, on a stream in any chunks. -/
theorem feed_totals {P : Value → Prop} {totals : List Value → Usage} (chunks : List (List UInt8))
    (h : codec.Ordinary)
    (hevent : ∀ events data, P data →
      event (totals events) data = .ok (totals (events ++ [data])))
    (hP : ∀ {v w}, Alike v w → P v → P w)
    (htotals : ∀ {lines lines' : List (List Char)},
      List.Forall₂ (fun line line' => skeleton asciiChar line = skeleton asciiChar line')
        lines lines' →
      totals (lines.filterMap (lineEvent codec.loads)) =
        totals (lines'.filterMap (lineEvent codec.loads)))
    (hstart : totals [] = emptyUsage)
    (hold : LinesHold codec.loads P
      (completeLines '\n' (codec.decode chunks.flatten).toList)) :
    (feed (accumulateUsage codec event) freshUsage chunks).1.usage =
        totals (dataEvents codec.loads (codec.decode chunks.flatten).toList) ∧
      (feed (accumulateUsage codec event) freshUsage chunks).2 = none := by
  have hlines := completeLines_alike (skeleton_decoded h chunks).symm
  have hwalk := walkLines_totals hevent (linesHold_alike h hP hlines hold) []
  rw [hstart, List.nil_append, ← htotals hlines] at hwalk
  obtain ⟨herror, husage, -⟩ := feed_spec codec event chunks (s := freshUsage) (by decide)
  have htext : freshUsage.buffer.toList ++ decoded codec chunks = decoded codec chunks := rfl
  have hfresh : freshUsage.usage = emptyUsage := rfl
  rw [htext, hfresh, hwalk] at herror husage
  exact ⟨husage, herror⟩

/-- The same with the buffer, and at once. -/
theorem streamsTo_totals {P : Value → Prop} {totals : List Value → Usage} (h : codec.Ordinary)
    (hevent : ∀ events data, P data →
      event (totals events) data = .ok (totals (events ++ [data])))
    (hP : ∀ {v w}, Alike v w → P v → P w)
    (htotals : ∀ {lines lines' : List (List Char)},
      List.Forall₂ (fun line line' => skeleton asciiChar line = skeleton asciiChar line')
        lines lines' →
      totals (lines.filterMap (lineEvent codec.loads)) =
        totals (lines'.filterMap (lineEvent codec.loads)))
    (hstart : totals [] = emptyUsage)
    (hold : LinesHold codec.loads P
      (completeLines '\n' (codec.decode chunks.flatten).toList)) :
    StreamsTo (accumulateUsage codec event) codec chunks
      (totals (dataEvents codec.loads (codec.decode chunks.flatten).toList)) := by
  have hflat : [chunks.flatten].flatten = chunks.flatten := by simp
  have hsplit := feed_totals chunks h hevent hP htotals hstart hold
  have honce := feed_totals [chunks.flatten] h hevent hP htotals hstart (by rwa [hflat])
  rw [hflat] at honce
  refine ⟨hsplit, honce, fun n => ?_⟩
  have hnone : (feed (accumulateUsage codec event) freshUsage (chunks.take n)).2 = none := by
    have hall := hsplit.2
    rw [← List.take_append_drop n chunks] at hall
    exact feed_append_none hall
  obtain ⟨-, -, hbuffer⟩ := feed_spec codec event (chunks.take n) (s := freshUsage) (by decide)
  rw [hbuffer hnone, unfinished_eq_rtakeWhile]
  rfl

/-- However a stream is split, its usage is that of its complete lines. -/
theorem usage_of_chunks (h : codec.Ordinary) (chunks : List (List UInt8)) :
    (LinesHold codec.loads AnthropicCounts
        (completeLines '\n' (codec.decode chunks.flatten).toList) →
      StreamsTo (accumulateAnthropicUsage codec) codec chunks
        (anthropicTotals (dataEvents codec.loads (codec.decode chunks.flatten).toList))) ∧
    (LinesHold codec.loads GeminiCounts
        (completeLines '\n' (codec.decode chunks.flatten).toList) →
      StreamsTo (accumulateGeminiUsage codec) codec chunks
        (geminiTotals (dataEvents codec.loads (codec.decode chunks.flatten).toList))) := by
  constructor
  · refine streamsTo_totals h (fun _ _ => anthropicEvent_totals) anthropicCounts_alike (fun hlines => ?_) rfl
    unfold anthropicTotals
    rw [filterMap_alike h inputTokens_alike hlines, filterMap_alike h outputTokens_alike hlines]
  · refine streamsTo_totals h (fun _ _ => geminiEvent_totals) geminiCounts_alike (fun hlines => ?_) rfl
    unfold geminiTotals
    rw [filterMap_alike h metadataCounts_alike hlines]

end Split

/-! ## A stream of one event -/

section Example

def deltaText : String :=
  "\x7b\"type\": \"message_delta\", \"usage\": \x7b\"output_tokens\": 7\x7d\x7d"

def deltaData : Value :=
  .dict [("type", .str "message_delta"), ("usage", .dict [("output_tokens", .int 7)])]

/-- It knows one JSON text, and replaces every byte that is no ASCII character. -/
def knowing (text : String) (data : Value) : Codec where
  decode rawBytes := String.ofList (rawBytes.map fun b =>
    if b.toNat < 128 then Char.ofNat b.toNat else Char.ofNat 65533)
  loads s := if s = text then .ok data else .error .valueError
  parseInt _ := none

def deltaCodec : Codec := knowing deltaText deltaData

theorem alike_dict_refl {fields : Fields} (h : ∀ key v, fields.lookup key = some v → Alike v v) :
    Alike (.dict fields) (.dict fields) := by
  refine .dict Iff.rfl fun key _ => ?_
  cases hv : fields.lookup key with
  | none => exact .none
  | some v => exact .some (h key v hv)

theorem ordinary_deltaCodec : deltaCodec.Ordinary := by
  constructor
  · intro rawBytes
    have hbyte (b : UInt8) : asciiChar (if b.toNat < 128 then Char.ofNat b.toNat
        else Char.ofNat 65533) = asciiByte b := by
      unfold asciiByte
      split
      · next hb =>
        have hvalid : (Char.ofNat b.toNat).toNat = b.toNat := by
          have hascii : ∀ n < 128, (Char.ofNat n).toNat = n := by decide
          exact hascii b.toNat hb
        simp [asciiChar, hvalid, hb]
      · rfl
    have hskeleton : skeleton asciiChar (rawBytes.map fun b =>
        if b.toNat < 128 then Char.ofNat b.toNat else Char.ofNat 65533) =
          skeleton asciiByte rawBytes := by
      simp only [skeleton, List.foldr_map, hbyte]
    simpa [asciiSkeleton, deltaCodec, knowing] using hskeleton
  · intro s t hst
    have hascii : Ascii deltaText := by decide
    show AlikeResults (if s = deltaText then _ else _) (if t = deltaText then _ else _)
    by_cases hs : s = deltaText
    · have ht : t = deltaText := by
        subst hs
        exact (eq_of_asciiSkeleton hascii hst).symm
      rw [if_pos hs, if_pos ht]
      refine .ok (alike_dict_refl fun key v hv => ?_)
      simp only [List.lookup_cons, List.lookup_nil] at hv
      split at hv
      · cases hv
        exact .str rfl
      · split at hv
        · cases hv
          refine alike_dict_refl fun key v hv => ?_
          simp only [List.lookup_cons, List.lookup_nil] at hv
          split at hv
          · cases hv
            exact .int 7
          · cases hv
        · cases hv
    · have ht : t ≠ deltaText := by
        rintro rfl
        exact hs (eq_of_asciiSkeleton hascii hst.symm).symm
      rw [if_neg hs, if_neg ht]
      exact .error _

def asciiBytes (s : String) : List UInt8 := s.toList.map fun c => UInt8.ofNat c.toNat

/-- The event, cut inside a name and before the newline. -/
def deltaChunks : List (List UInt8) :=
  [asciiBytes "data: \x7b\"type\": \"mess",
    asciiBytes "age_delta\", \"usage\": \x7b\"output_tokens\": 7\x7d\x7d", [10]]

theorem usage_of_deltaChunks :
    StreamsTo (accumulateAnthropicUsage deltaCodec) deltaCodec deltaChunks ⟨0, 7, 7⟩ := by
  have hlines : completeLines '\n' (deltaCodec.decode deltaChunks.flatten).toList =
      [dataPrefix ++ deltaText.toList] := by decide
  have hline : lineData deltaCodec.loads (dataPrefix ++ deltaText.toList) = .ok (some deltaData) := by
    rfl
  have htotals : anthropicTotals (dataEvents deltaCodec.loads
      (deltaCodec.decode deltaChunks.flatten).toList) = ⟨0, 7, 7⟩ := by
    simp only [dataEvents, hlines, List.filterMap_cons, lineEvent, hline]
    rfl
  have h := (usage_of_chunks ordinary_deltaCodec deltaChunks).1 ?_
  · rwa [htotals] at h
  · rw [hlines]
    intro line hm
    rw [List.mem_singleton] at hm
    subst hm
    refine ⟨some deltaData, hline, fun data hdata => ?_⟩
    cases hdata
    exact ⟨_, rfl, nofun, fun _ => rfl⟩

end Example

end Gateway.Handler
