import Janus.Gateway.Proof.GeminiUsage
import Janus.Gateway.Proof.Streams

/-!
# Native streams and what their upstream sends

Only the decoding of a line's JSON is guarded. `AnthropicReadable` and `GeminiReadable` say which
JSON the rest of a parser takes: an object whose usage is an object or empty, with counts that `int`
takes. `native_survives_iff`: exactly then no parser raises and the client gets every chunk.
-/

set_option autoImplicit false

namespace Gateway.Handler

open Conc Python Text

/-! ## What the parsers take -/

section Readable

variable {parse : String → Option Int} {usage : Usage} {data v : Value} {name : String}

/-- `int(v.get(name, 0))` of an object. -/
def Countable (parse : String → Option Int) (v : Value) (name : String) : Prop :=
  ∃ fields : Fields, v = .dict fields ∧ ∃ n, (fields.get name (.int 0)).toInt parse = .ok n

def AnthropicReadable (parse : String → Option Int) (data : Value) : Prop :=
  ∃ fields : Fields, data = .dict fields ∧
    (fields.get "type" (.str "") = .str "message_start" →
      ∃ message : Fields, orEmpty (fields.get "message" .none) = .dict message ∧
        Countable parse (orEmpty (message.get "usage" .none)) "input_tokens") ∧
    (fields.get "type" (.str "") = .str "message_delta" →
      Countable parse (orEmpty (fields.get "usage" .none)) "output_tokens")

def GeminiReadable (parse : String → Option Int) (data : Value) : Prop :=
  ∃ fields : Fields, data = .dict fields ∧
    ((fields.get "usageMetadata" .none).truthy →
      Countable parse (fields.get "usageMetadata" .none) "promptTokenCount" ∧
        Countable parse (fields.get "usageMetadata" .none) "candidatesTokenCount" ∧
          Countable parse (fields.get "usageMetadata" .none) "totalTokenCount")

theorem intItem_isOk : (intItem parse v name).isOk = true ↔ Countable parse v name := by
  unfold Countable intItem
  cases v with
  | dict fields =>
    simp only [getItem_dict, bind, Except.bind, Value.dict.injEq, exists_eq_left']
    cases (Fields.get fields name (.int 0)).toInt parse <;> simp [Except.isOk, Except.toBool]
  | _ => simp [getItem, bind, Except.bind, Except.isOk, Except.toBool]

theorem ok_bind {α β ε : Type} (a : α) (f : α → Except ε β) : (Except.ok a >>= f) = f a := rfl

/-- What reads a count and then returns raises where the count does. -/
theorem countEvent_isOk {f : Int → Except Python.Error Usage} (hf : ∀ n, (f n).isOk = true) :
    (intItem parse v name >>= f).isOk = true ↔ Countable parse v name := by
  rw [← intItem_isOk]
  cases intItem parse v name with
  | ok n => exact iff_of_true (hf n) rfl
  | error e => exact iff_of_false Bool.false_ne_true Bool.false_ne_true

theorem ite_isOk {p : Prop} [Decidable p] {a b : Usage} :
    (if p then pure a else pure b : Except Python.Error Usage).isOk = true := by
  split <;> rfl

theorem start_ne_delta : Value.str "message_start" ≠ .str "message_delta" := by
  intro heq
  injection heq with heq
  exact absurd heq (by decide)

theorem anthropicEvent_isOk :
    (anthropicEvent parse usage data).isOk = true ↔ AnthropicReadable parse data := by
  unfold AnthropicReadable
  cases data with
  | dict fields =>
    simp only [Value.dict.injEq, exists_eq_left', anthropicEvent, getItem_dict, ok_bind]
    by_cases hstart : Fields.get fields "type" (.str "") = .str "message_start"
    · simp only [hstart, start_ne_delta, if_true, forall_const, false_implies, and_true]
      cases orEmpty (Fields.get fields "message" .none) with
      | dict message =>
        simp only [getItem_dict, ok_bind, Value.dict.injEq, exists_eq_left']
        exact countEvent_isOk fun _ => ite_isOk
      | _ => simp [getItem, bind, Except.bind, Except.isOk, Except.toBool]
    · by_cases hdelta : Fields.get fields "type" (.str "") = .str "message_delta"
      · simp only [hdelta, start_ne_delta.symm, if_true, forall_const, false_implies, true_and]
        exact countEvent_isOk fun _ => ite_isOk
      · simp only [hstart, hdelta, if_false, false_implies, and_true, iff_true]
        rfl
  | _ => simp [anthropicEvent, getItem, bind, Except.bind, Except.isOk, Except.toBool]

theorem geminiEvent_isOk :
    (geminiEvent parse usage data).isOk = true ↔ GeminiReadable parse data := by
  unfold GeminiReadable
  cases data with
  | dict fields =>
    simp only [Value.dict.injEq, exists_eq_left', geminiEvent, getItem_dict, ok_bind]
    by_cases htruthy : (Fields.get fields "usageMetadata" .none).truthy
    · simp only [htruthy, if_true, forall_const]
      generalize Fields.get fields "usageMetadata" .none = usageMeta
      rw [← intItem_isOk, ← intItem_isOk]
      cases intItem parse usageMeta "promptTokenCount" with
      | error e => exact iff_of_false Bool.false_ne_true fun h => Bool.false_ne_true h.1
      | ok prompt =>
        simp only [ok_bind]
        cases intItem parse usageMeta "candidatesTokenCount" with
        | error e => exact iff_of_false Bool.false_ne_true fun h => Bool.false_ne_true h.2.1
        | ok completion =>
          exact (countEvent_isOk fun _ => ite_isOk).trans
            ⟨fun h => ⟨rfl, rfl, h⟩, fun h => h.2.2⟩
    · rw [if_neg htruthy]
      exact iff_of_true rfl fun h => absurd h htruthy
  | _ => simp [geminiEvent, getItem, bind, Except.bind, Except.isOk, Except.toBool]

end Readable

/-! ## What a feed takes -/

section Feed

variable {codec : Codec} {event : Usage → Value → Except Python.Error Usage} {P : Value → Prop}
  {loads : String → Except Python.Error Value} {lines : List (List Char)}

theorem linesHold_cons {line : List Char} : LinesHold loads P (line :: lines) ↔
    (∃ d, lineData loads line = .ok d ∧ ∀ data, d = some data → P data) ∧
      LinesHold loads P lines := List.forall_mem_cons

/-- A walk comes to its end exactly if every line is skipped or holds JSON that its event takes. -/
theorem walkLines_none_iff (hevent : ∀ usage data, (event usage data).isOk = true ↔ P data)
    (usage : Usage) : (walkLines loads event usage lines).2 = none ↔ LinesHold loads P lines := by
  induction lines generalizing usage with
  | nil => exact iff_of_true rfl nofun
  | cons line lines ih =>
    rw [linesHold_cons]
    unfold walkLines
    cases lineData loads line with
    | error e => simp
    | ok d =>
      cases d with
      | none => simpa using ih usage
      | some data =>
        have hdata := hevent usage data
        cases hstep : event usage data with
        | error e =>
          rw [hstep] at hdata
          have hnot : ¬ P data := fun h => Bool.false_ne_true (hdata.2 h)
          simp [hstep, hnot]
        | ok usage' =>
          rw [hstep] at hdata
          have hP : P data := hdata.1 rfl
          simpa [hstep, hP] using ih usage'

theorem feed_none_iff (event : Usage → Value → Except Python.Error Usage)
    (hevent : ∀ usage data, (event usage data).isOk = true ↔ P data)
    (chunks : List (List UInt8)) :
    (feed (accumulateUsage codec event) freshUsage chunks).2 = none ↔
      LinesHold codec.loads P (completeLines '\n' (decoded codec chunks)) := by
  have hspec := (feed_spec codec event chunks (s := freshUsage) (by decide)).1
  rw [hspec]
  exact walkLines_none_iff hevent _

end Feed

/-! ## What a client gets -/

/-- What a generator has yielded, in order. -/
def sent : Calls → List String
  | [] => []
  | ⟨.yield _ data, _⟩ :: t => sent t ++ [data]
  | _ :: t => sent t

theorem sent_yield (piece : Piece) (data : String) (t : Calls) :
    sent (⟨.yield piece data, ()⟩ :: t) = sent t ++ [data] := rfl

theorem sent_quiet {c : Cmd} {r : Cmd.Resp c} {t : Calls} (hc : ∀ piece data, c ≠ .yield piece data) :
    sent (⟨c, r⟩ :: t) = sent t := by
  cases c with
  | yield piece data => exact absurd rfl (hc piece data)
  | _ => rfl

/-- How a program ends and what it has made of what was sent. -/
abbrev Sends {α : Type} (Q : Except Raised α → List String → Prop) (p : Io α) (t : Calls) : Prop :=
  Raising.Follows (fun _ _ => True) (fun outcome t' => Q outcome (sent t')) p t

theorem Cleans.sends {α : Type} {status : UsageStatus} {O : Except Raised α → Prop} {p : Io α}
    (hp : Cleans status O p) (t : Calls) :
    Sends (fun outcome out => O outcome ∧ out = sent t) p t := by
  have hprog : ∀ (q : Prog Cmd Cmd.Resp (Except Raised α)) (t' : Calls), sent t' = sent t →
      q.Issues (Cleaning status) O →
      q.Follows (fun _ _ => True) (fun outcome t' => O outcome ∧ sent t' = sent t) t' := by
    intro q
    induction q with
    | ret outcome => exact fun t' ht h => ⟨h, ht⟩
    | step c k ih =>
      intro t' ht h
      refine ⟨trivial, fun r => ih r _ ?_ (h.2 r)⟩
      rw [sent_quiet, ht]
      rintro piece data rfl
      exact h.1
  exact hprog p.run t rfl hp

section Generator

variable {codec : Codec} {w : World} {logicalModel : LogicalModel} {estimatedTokens : Int}
  {features : Finset String} {reservations : List QuotaReservation} {u : Upstream}
  {accumulate : NativeUsage → List UInt8 → NativeUsage × Option Python.Error}
  {chunks : List (List UInt8)}

theorem latin1Bytes_latin1 (rawBytes : List UInt8) : latin1Bytes (latin1 rawBytes) = rawBytes := by
  have hbyte (b : UInt8) : UInt8.ofNat (Char.ofNat b.toNat).toNat = b := by
    have hvalid : b.toNat.isValidChar := .inl (by have := b.toNat_lt; omega)
    have hchar : Char.ofNat b.toNat = Char.ofNatAux b.toNat hvalid := dif_pos hvalid
    have htoNat : (Char.ofNatAux b.toNat hvalid).toNat = b.toNat := rfl
    rw [hchar, htoNat]
    simp
  simp [latin1Bytes, latin1, Function.comp_def, hbyte]

theorem onBytes_byteChunk (s : NativeUsage) (rawBytes : List UInt8) :
    NativeUsage.onChunk (onBytes accumulate) s (byteChunk rawBytes) =
      match accumulate s rawBytes with
      | (s, some e) => (s, .error e)
      | (s, none) => (s, .ok (latin1 rawBytes)) := by
  cases h : accumulate s rawBytes with
  | mk s' outcome =>
    cases outcome <;> simp [NativeUsage.onChunk, onBytes, byteChunk, latin1Bytes_latin1, h]

/-- The upstream sends these chunks and ends, and the client reads all of them. -/
def delivery (u : Upstream) (chunks : List (List UInt8)) : Upstream :=
  { u with
    iterError := none
    pulls := chunks.map fun rawBytes => .chunk (byteChunk rawBytes) .resumed }

/-- How a loop over the chunks ends, and what it yields. -/
theorem pump_sends (s : NativeUsage) (t : Calls) :
    Sends (fun outcome out =>
        match (feed accumulate s chunks).2 with
        | none => (∃ s', outcome = .ok (s', .exhausted)) ∧ out = sent t ++ chunks.map latin1
        | some e => ∃ s', outcome = .ok (s', .raised (.exception (.python e))))
      (pump (NativeUsage.onChunk (onBytes accumulate)) s (delivery u chunks).pulls) t := by
  induction chunks generalizing s t with
  | nil => exact ⟨⟨s, rfl⟩, by simp⟩
  | cons rawBytes chunks ih =>
    have hcons : (delivery u (rawBytes :: chunks)).pulls =
        .chunk (byteChunk rawBytes) .resumed :: (delivery u chunks).pulls := rfl
    rw [hcons]
    unfold pump
    rw [onBytes_byteChunk]
    simp only [feed]
    rcases accumulate s rawBytes with ⟨s', _ | e⟩
    · refine Raising.Follows.cmd_bind trivial fun _ => ?_
      have hrest := ih s' (⟨.yield .chunk (latin1 rawBytes), ()⟩ :: t)
      rw [sent_yield, List.append_assoc] at hrest
      exact hrest
    · exact ⟨s', rfl⟩

/-- The end of a generator sends nothing and raises what its `except` clauses make of an exception. -/
theorem finishStream_sends (status : Exn → UsageStatus) (reraise : Exn → Exn)
    {ctx : GatewayRequestContext} (statusValue : UsageStatus) (raised : Option Exn) (t : Calls) :
    Sends (fun outcome out => out = sent t ∧
        outcome = match raised with
          | none => .ok ()
          | some e => .error (.exception (reraise e)))
      (finishStream w logicalModel status reraise ctx statusValue reservations
        (raised.map .exception)) t := by
  unfold finishStream
  refine Raising.Follows.cmd_bind trivial fun _ => ?_
  refine Raising.Follows.bind (Cleans.sends (finalizeStream_cleans rfl) _)
    (fun _ t' h => ?_) fun e t' h => not_returns_error h.1
  have hsent : sent t' = sent t := h.2.trans (sent_quiet fun _ _ => Cmd.noConfusion)
  cases raised with
  | none => exact ⟨hsent, rfl⟩
  | some e => exact ⟨hsent, rfl⟩

/-- A native generator ends with its upstream, or as its parser does. -/
theorem streamNative_sends (provider timeoutEvent : String) (t : Calls) :
    Sends (fun outcome out =>
        match (feed accumulate freshUsage chunks).2 with
        | none => outcome = .ok () ∧ out = sent t ++ chunks.map latin1
        | some e => outcome = .error (.exception (.app (upstreamError (.python e)))))
      (streamNative w logicalModel estimatedTokens (onBytes accumulate) provider timeoutEvent
        features reservations (delivery u chunks)) t := by
  have hstart : (⟨emptyUsage, ""⟩ : NativeUsage) = freshUsage := rfl
  have hiter : (delivery u chunks).iterError = none := rfl
  unfold streamNative streamBody
  rw [hstart, hiter]
  refine Raising.Follows.bind (pump_sends freshUsage t) (fun p t' hp => ?_) fun e t' he => ?_
  · cases hfeed : (feed accumulate freshUsage chunks).2 with
    | none =>
      rw [hfeed] at hp
      obtain ⟨⟨s', hs⟩, hout⟩ := hp
      cases hs
      refine (finishStream_sends usageStatusForException (fun e => .app (upstreamError e))
        .success none t').mono fun outcome t'' h => ?_
      exact ⟨h.2, h.1.trans hout⟩
    | some e =>
      rw [hfeed] at hp
      obtain ⟨s', hs⟩ := hp
      cases hs
      exact (finishStream_sends usageStatusForException (fun e => .app (upstreamError e))
        (if Ending.raised (.exception (.python e)) = .timedOut then .timeout else .success)
        (some (.python e)) t').mono fun outcome t'' h => h.2
  · cases hfeed : (feed accumulate freshUsage chunks).2 with
    | none =>
      rw [hfeed] at he
      obtain ⟨⟨s', hs⟩, -⟩ := he
      cases hs
    | some e' =>
      rw [hfeed] at he
      obtain ⟨s', hs⟩ := he
      cases hs

end Generator

/-! ## Both protocols -/

inductive Native
  | anthropic
  | gemini

namespace Native

def accumulate (codec : Codec) :
    Native → NativeUsage → List UInt8 → NativeUsage × Option Python.Error
  | anthropic => accumulateAnthropicUsage codec
  | gemini => accumulateGeminiUsage codec

def Readable (parse : String → Option Int) : Native → Value → Prop
  | anthropic => AnthropicReadable parse
  | gemini => GeminiReadable parse

/-- The generator of an upstream that sends these chunks. -/
def generator (w : World) (codec : Codec) (logicalModel : LogicalModel) (estimatedTokens : Int)
    (features : Finset String) (reservations : List QuotaReservation) (u : Upstream)
    (chunks : List (List UInt8)) : Native → Io Unit
  | anthropic => streamAnthropicNative (withCodec w codec) logicalModel estimatedTokens features
      reservations (delivery u chunks)
  | gemini => streamGeminiNative (withCodec w codec) logicalModel estimatedTokens features
      reservations (delivery u chunks)

/-- The parser returns on every chunk, and the generator yields all of them and returns. -/
def Survives (native : Native) (codec : Codec) (chunks : List (List UInt8))
    (outcome : Except Raised Unit) (t : Calls) : Prop :=
  (feed (native.accumulate codec) freshUsage chunks).2 = none ∧ outcome = .ok () ∧
    sent t = chunks.map latin1

end Native

section Survival

variable {native : Native} {codec : Codec} {w : World} {logicalModel : LogicalModel}
  {estimatedTokens : Int} {features : Finset String} {reservations : List QuotaReservation}
  {u : Upstream} {chunks : List (List UInt8)} {S : Type} {E : Sem Cmd Cmd.Resp S}
  {env : S → S → Prop} {s s' : S} {outcome : Except Raised Unit} {t : Calls}

theorem generator_sends : Sends (fun outcome out =>
      match (feed (native.accumulate codec) freshUsage chunks).2 with
      | none => outcome = .ok () ∧ out = chunks.map latin1
      | some e => outcome = .error (.exception (.app (upstreamError (.python e)))))
    (native.generator w codec logicalModel estimatedTokens features reservations u chunks) [] := by
  cases native with
  | anthropic => exact streamNative_sends _ _ []
  | gemini => exact streamNative_sends _ _ []

/-- A native stream survives its upstream exactly if every data line that is JSON is readable. -/
theorem native_survives_iff
    (hrun : (native.generator w codec logicalModel estimatedTokens features reservations u
      chunks).run.Runs E env s [] outcome s' t) :
    native.Survives codec chunks outcome t ↔
      LinesHold codec.loads (native.Readable codec.parseInt)
        (completeLines '\n' (decoded codec chunks)) := by
  have hfeed : (feed (native.accumulate codec) freshUsage chunks).2 = none ↔
      LinesHold codec.loads (native.Readable codec.parseInt)
        (completeLines '\n' (decoded codec chunks)) := by
    cases native with
    | anthropic =>
      exact feed_none_iff (anthropicEvent codec.parseInt) (fun _ _ => anthropicEvent_isOk) chunks
    | gemini =>
      exact feed_none_iff (geminiEvent codec.parseInt) (fun _ _ => geminiEvent_isOk) chunks
  rw [← hfeed]
  constructor
  · intro h
    exact h.1
  · intro hnone
    have hsends := hrun.post generator_sends
    rw [hnone] at hsends
    exact ⟨hnone, hsends⟩

end Survival

/-! ## A list where an object is read -/

/-- A data line that holds an empty list. -/
def listLine : List (List UInt8) := [asciiBytes "data: []\n"]

def emptyUpstream : Upstream where
  body := .none

/-- A run of the Anthropic generator on these chunks. -/
def BytesRun (codec : Codec) (chunks : List (List UInt8)) (outcome : Except Raised Unit)
    (t : Calls) : Prop :=
  (Native.anthropic.generator streamWorld codec ⟨1, "gpt", none, none⟩ 100 ∅ [] emptyUpstream
    chunks).run.Runs (fun _ (_ : Unit) _ _ => True) (fun _ _ => True) () [] outcome () t

theorem bytesRun_exists (codec : Codec) (chunks : List (List UInt8)) :
    ∃ outcome t, BytesRun codec chunks outcome t := by
  unfold BytesRun
  exact ⟨_, Prog.runs_eval (f := succeeding) (fun _ => trivial) (fun _ _ => trivial) _ () []⟩

/-- A data line that holds a list aborts the response. -/
theorem list_aborts : ∃ outcome t, BytesRun (knowing "[]" (.list [])) listLine outcome t ∧
    ¬ Native.anthropic.Survives (knowing "[]" (.list [])) listLine outcome t := by
  obtain ⟨outcome, t, hrun⟩ := bytesRun_exists (knowing "[]" (.list [])) listLine
  have hfeed : (feed (accumulateAnthropicUsage (knowing "[]" (.list []))) freshUsage listLine).2 =
      some .attributeError := by decide
  refine ⟨outcome, t, hrun, fun h => ?_⟩
  have hnone := h.1
  rw [show (feed (Native.anthropic.accumulate _) freshUsage listLine).2 = _ from hfeed] at hnone
  cases hnone

theorem delta_readable : LinesHold deltaCodec.loads (Native.anthropic.Readable deltaCodec.parseInt)
    (completeLines '\n' (decoded deltaCodec deltaChunks)) := by
  have hlines : completeLines '\n' (decoded deltaCodec deltaChunks) =
      [dataPrefix ++ deltaText.toList] := by decide
  have hline : lineData deltaCodec.loads (dataPrefix ++ deltaText.toList) = .ok (some deltaData) := by
    rfl
  rw [hlines]
  intro line hm
  rw [List.mem_singleton] at hm
  subst hm
  refine ⟨some deltaData, hline, fun data hdata => ?_⟩
  cases hdata
  exact ⟨_, rfl, nofun, fun _ => ⟨_, rfl, _, rfl⟩⟩

theorem delta_survives : ∃ outcome t, BytesRun deltaCodec deltaChunks outcome t ∧
    Native.anthropic.Survives deltaCodec deltaChunks outcome t := by
  obtain ⟨outcome, t, hrun⟩ := bytesRun_exists deltaCodec deltaChunks
  exact ⟨outcome, t, hrun, (native_survives_iff hrun).2 delta_readable⟩

end Gateway.Handler
