import Mathlib
import Janus.Conc.Triple
import Janus.Gateway.ResponseStore
import Janus.Gateway.Proof.Streams
import Janus.Python.Proof.Json

/-!
# Whose response a cached response is

The text of a key determines its parts (`responseCacheKey_inj`), and the hashed text determines the
request up to the order of keys (`fingerprintText_inj`). A handler stores only what the upstream
answered to its own request (`handler_issues`), so every entry of the cache is an answer to each
request that finds it (`Kept.cmd`), and every reply is an answer to a request with the same model,
messages and parameters (`replies_same`).
-/

set_option autoImplicit false

namespace Gateway

open Conc Python RateLimit Text

/-! ## Keys -/

section

variable {gen gen' id id' : Int} {fingerprint fingerprint' : String}

theorem responseCacheKey_toList : (responseCacheKey gen id fingerprint).toList =
    "janus:gw:v1:resp:".toList ++ (gen.repr.toList ++
      (":m:".toList ++ (id.repr.toList ++ (":h:".toList ++ fingerprint.toList)))) := by
  have hkey : responseCacheKey gen id fingerprint =
      "janus:gw:v1:resp:" ++ gen.repr ++ ":m:" ++ id.repr ++ ":h:" ++ fingerprint := rfl
  rw [hkey]
  simp only [String.toList_append, List.append_assoc]

theorem ne_colon_of_repr {n : Int} : ∀ c ∈ n.repr.toList, (c != ':') = true := by
  intro c hc
  rw [bne_iff_ne]
  rintro rfl
  rcases mem_repr_int hc with h | h
  all_goals revert h; decide

theorem responseCacheKey_inj
    (h : responseCacheKey gen id fingerprint = responseCacheKey gen' id' fingerprint') :
    gen = gen' ∧ id = id' ∧ fingerprint = fingerprint' := by
  have hlist := congrArg String.toList h
  rw [responseCacheKey_toList, responseCacheKey_toList] at hlist
  have hstops {part : List Char} (hpart : part.head? = some ':') (rest : List Char) :
      Stops (fun c => c != ':') (part ++ rest) := by
    rw [Stops, List.head?_append, hpart]
    intro c hc
    cases hc
    rfl
  obtain ⟨hgen, hrest⟩ := token_inj ne_colon_of_repr ne_colon_of_repr (hstops rfl _)
    (hstops rfl _) (List.append_cancel_left hlist)
  obtain ⟨hid, hend⟩ := token_inj ne_colon_of_repr ne_colon_of_repr (hstops rfl _)
    (hstops rfl _) (List.append_cancel_left hrest)
  exact ⟨repr_int_inj.1 (String.toList_inj.1 hgen), repr_int_inj.1 (String.toList_inj.1 hid),
    String.toList_inj.1 (List.append_cancel_left hend)⟩

end

/-- The text that is hashed determines the request up to the order of keys. -/
theorem fingerprintText_inj {texts : Json.Texts} {model model' : String}
    {messages messages' : List Value} {params params' : Fields}
    (hm : Json.decodedList texts messages = true) (hm' : Json.decodedList texts messages' = true)
    (hp : Json.decoded texts (.dict params) = true)
    (hp' : Json.decoded texts (.dict params') = true) :
    fingerprintText texts model messages params = fingerprintText texts model' messages' params' ↔
      model = model' ∧ List.Forall₂ (fun x y => Json.canon x = Json.canon y) messages messages' ∧
        ∀ key, (params.lookup key).map Json.canon = (params'.lookup key).map Json.canon := by
  have hdecoded {model : String} {messages : List Value} {params : Fields}
      (hm : Json.decodedList texts messages = true)
      (hp : Json.decoded texts (.dict params) = true) : Json.decoded texts
        (.dict [("model", .str model), ("messages", .list messages), ("params", .dict params)])
          = true := by
    simp only [Json.decoded, Json.decodedFields, hm, Bool.true_and, Bool.and_true]
    rw [← Json.decoded, hp]
    rfl
  have hkeys : ["model", "messages", "params"].Nodup := by decide
  rw [fingerprintText, fingerprintText, Json.dumps_inj (hdecoded hm hp) (hdecoded hm' hp'),
    ← Json.canon_list, ← Json.canon_dict (Json.decoded_dict hp).1 (Json.decoded_dict hp').1]
  refine (Json.canon_dict (by exact hkeys) (by exact hkeys)).trans
    ⟨fun h => ⟨?_, ?_, ?_⟩, fun h key => ?_⟩
  · exact Value.str.inj (Option.some.inj (h "model"))
  · exact Option.some.inj (h "messages")
  · exact Option.some.inj (h "params")
  · obtain ⟨hmodel, hmessages, hparams⟩ := h
    rw [hmodel]
    simp only [List.lookup_cons]
    cases key == "model" with
    | true => rfl
    | false =>
      cases key == "messages" with
      | true => exact congrArg some hmessages
      | false =>
        cases key == "params" with
        | true => exact congrArg some hparams
        | false => rfl

namespace Handler

namespace Completion

variable {texts : Json.Texts} {digest : String → String} {q q' : Completion texts digest}

theorem text_inj : q.text = q'.text ↔ q.model.name = q'.model.name ∧
    List.Forall₂ (fun x y => Json.canon x = Json.canon y) q.payload.messages q'.payload.messages ∧
      ∀ key, (q.payload.extra.lookup key).map Json.canon =
        (q'.payload.extra.lookup key).map Json.canon :=
  fingerprintText_inj (Json.decodedList_iff.2 q.messages) (Json.decodedList_iff.2 q'.messages)
    q.params q'.params

theorem fingerprint_eq :
    q.world.fingerprint q.model.name q.payload.messages q.payload.extra = digest q.text := by
  rw [q.fingerprint]
  rfl

/-- Two requests share a key in one generation only, and only if they are the same. -/
theorem key_inj {texts' : Set String} (hdigest : Set.InjOn digest texts') (hq : q.text ∈ texts')
    (hq' : q'.text ∈ texts') {gen gen' : Int} :
    q.key gen = q'.key gen' ↔ gen = gen' ∧ q.Same q' := by
  unfold key
  rw [fingerprint_eq, fingerprint_eq]
  refine ⟨fun h => ?_, fun h => ?_⟩
  · obtain ⟨hgen, hid, hfingerprint⟩ := responseCacheKey_inj h
    obtain ⟨hname, hmessages, hparams⟩ := text_inj.1 (hdigest hq hq' hfingerprint)
    exact ⟨hgen, hid, hname, hmessages, hparams⟩
  · obtain ⟨hgen, hsame⟩ := h
    have htext := text_inj.2 ⟨hsame.modelName, hsame.messages, hsame.params⟩
    rw [hgen, hsame.modelId, htext]

end Completion

/-! ## What a handler stores -/

def Cmd.stores : Cmd → Bool
  | .setCachedResponse .. => true
  | _ => false

/-- The program stores no response. -/
abbrev Storeless {α : Type} (p : Io α) : Prop :=
  Raising.Issues (fun c => c.stores = false) (fun _ => True) p

section

variable {α β : Type} {p : Io α} {f : α → Io β} {w : World} {logicalModel : LogicalModel}
  {estimatedTokens : Int} {rules : List Rule} {ctx : GatewayRequestContext}

theorem Storeless.bind (hp : Storeless p) (hf : ∀ a, Storeless (f a)) : Storeless (p >>= f) :=
  Raising.Issues.bind hp (fun a _ => hf a) fun _ _ => trivial

theorem Storeless.call {c : Cmd} (hc : c.stores = false) : Storeless (call c) :=
  Raising.Issues.cmd hc fun _ => trivial

theorem storeless_pure (a : α) : Storeless (pure a) := Raising.Issues.pure trivial

theorem storeless_raise (e : Exn) : Storeless (raise e : Io α) := Raising.Issues.throw trivial

theorem Storeless.tryExcept {handler : Exn → Io α} (hp : Storeless p)
    (hhandler : ∀ e, Storeless (handler e)) : Storeless (tryExcept p handler) := by
  refine Raising.Issues.tryCatch hp (fun _ _ => trivial) fun raised _ => ?_
  cases raised with
  | exception e => exact hhandler e
  | _ => exact Raising.Issues.throw trivial

theorem storeless_settling (answer : Except Exn Unit) : Storeless (settling answer) := by
  cases answer with
  | ok u => exact storeless_pure u
  | error e => exact storeless_raise e

theorem settleQuota_storeless : Storeless (settleQuota ctx logicalModel) := by
  unfold settleQuota
  split
  · exact storeless_pure ctx
  · refine Storeless.tryExcept ?_ fun e => (Storeless.call rfl).bind fun _ => storeless_pure ctx
    dsimp only
    split
    · split
      · exact (Storeless.call rfl).bind fun _ => (storeless_settling _).bind fun _ => storeless_pure _
      · exact (Storeless.call rfl).bind fun _ => (storeless_settling _).bind fun _ => storeless_pure _
    · exact storeless_pure ctx

theorem settleTpmOf_storeless : Storeless (settleTpmOf ctx rules) := by
  unfold settleTpmOf
  split
  · exact Storeless.tryExcept ((Storeless.call rfl).bind fun _ => storeless_settling _)
      fun e => Storeless.call rfl
  · exact storeless_pure _

theorem finalizeGatewayRequest_storeless {reservations : List QuotaReservation} :
    Storeless (finalizeGatewayRequest ctx logicalModel rules reservations) := by
  unfold finalizeGatewayRequest
  refine settleQuota_storeless.bind fun ctx' => ?_
  refine (Storeless.call rfl).bind fun _ => (Storeless.call rfl).bind fun _ => ?_
  refine Storeless.bind ?_ fun _ => settleTpmOf_storeless
  unfold recordChannelHealth
  split
  · exact storeless_pure _
  · exact Storeless.call rfl

theorem checkRateLimits_storeless {isStream : Bool} :
    Storeless (checkRateLimits w estimatedTokens isStream) := by
  unfold checkRateLimits
  split
  · refine (Storeless.call rfl).bind fun rlResult => ?_
    split
    · exact storeless_pure _
    · exact storeless_raise _
  · exact storeless_pure _

theorem suppressException_storeless {body : Io Unit} (h : Storeless body) :
    Storeless (suppressException body) := h.tryExcept fun _ => storeless_pure _

theorem rollbackStep_storeless {step : RollbackStep} {body : List Rule → Io Unit}
    (h : Storeless (body (w.reached step))) : Storeless (rollbackStep w step body) := by
  refine (suppressException_storeless h).bind fun _ => ?_
  split
  · exact Raising.Issues.throw trivial
  · exact storeless_pure _

theorem rollback_storeless : Storeless (rollbackRateLimitReservations w estimatedTokens) := by
  unfold rollbackRateLimitReservations
  split
  · refine (rollbackStep_storeless ((Storeless.call rfl).bind fun _ =>
      storeless_settling _)).bind fun _ => ?_
    refine (rollbackStep_storeless (Storeless.call rfl)).bind fun _ => ?_
    exact rollbackStep_storeless (Storeless.call rfl)
  · exact storeless_pure _

theorem storeless_await (outcome : Awaited α) : Storeless (await outcome) := by
  cases outcome with
  | value a => exact storeless_pure a
  | raises e => exact storeless_raise e
  | cancelled => exact Raising.Issues.throw trivial

theorem checkQuota_storeless : Storeless (checkQuota w logicalModel estimatedTokens) :=
  ((Storeless.call rfl).bind fun _ => storeless_await _).tryExcept fun e =>
    rollback_storeless.bind fun _ => storeless_raise e

theorem getRouter_storeless : Storeless (getRouter w) := by
  unfold getRouter
  split
  · exact storeless_pure _
  · exact storeless_raise _

/-- The call returns what the upstream answers. -/
theorem openUpstream_issues {stream : Bool} {quotaResult : QuotaCheckResult} {method : String}
    {kwargs : Fields} : Raising.Issues (fun c => c.stores = false)
      (fun outcome => ∀ u, outcome = .ok u → w.opened = .value u)
      (openUpstream w logicalModel estimatedTokens stream quotaResult
        (callUpstream w method kwargs)) := by
  have hthrow {P : Upstream → Prop} (e : Raised) : Raising.Issues (fun c => c.stores = false)
      (fun outcome => ∀ u, outcome = .ok u → P u) (throw e : Io Upstream) := by
    refine Raising.Issues.throw fun u hu => ?_
    cases hu
  refine Raising.Issues.tryCatch (O := fun outcome => ∀ u, outcome = .ok u → w.opened = .value u)
    ⟨rfl, fun _ => ?_⟩ (fun _ h => h) fun raised _ => ?_
  · cases hopened : w.opened with
    | value u =>
      refine Raising.Issues.pure fun u' hu => ?_
      cases hu
      rfl
    | raises e => exact hthrow (.exception e)
    | cancelled => exact hthrow .cancelled
  · cases raised with
    | exception e =>
      refine Raising.Issues.bind finalizeGatewayRequest_storeless (fun _ _ => ?_) fun _ _ u hu => ?_
      · exact hthrow (.exception (.app (upstreamError e)))
      · cases hu
    | cancelled | generatorExit => exact hthrow _

end

namespace Completion

variable {texts : Json.Texts} {digest : String → String} (q : Completion texts digest)

/-- What the handler stores is what the upstream answers to `q`, under the fingerprint of `q`. -/
def Stores : Cmd → Prop
  | .setCachedResponse modelId fingerprint data _ => modelId = q.model.id ∧
      fingerprint = q.world.fingerprint q.model.name q.payload.messages q.payload.extra ∧
      q.Cacheable ∧ q.Upstreamed data
  | _ => True

/-- A JSON reply is what the upstream answers to `q`, or a hit. -/
def Answers : Except Raised Reply → Prop
  | .ok (.json content _) =>
    q.Upstreamed content ∨ ∃ cached, q.world.cached = some cached ∧ content = .dict cached
  | _ => True

variable {q}

theorem stores_of_storeless {c : Cmd} (h : c.stores = false) : q.Stores c := by
  cases c with
  | setCachedResponse => cases h
  | _ => trivial

/-- A part of the handler that stores nothing. -/
theorem issues_bind {α : Type} {p : Io α} {f : α → Io Reply} (hp : Storeless p)
    (hf : ∀ a, Raising.Issues q.Stores q.Answers (f a)) :
    Raising.Issues q.Stores q.Answers (p >>= f) :=
  Raising.Issues.bind (Prog.Issues.weaken hp fun _ => stores_of_storeless) (fun a _ => hf a)
    fun _ _ => trivial

theorem issues_ofExcept {α ε : Type} {g : ε → Raised} {result : Except ε α} {f : α → Io Reply}
    (hf : ∀ a, result = .ok a → Raising.Issues q.Stores q.Answers (f a)) :
    Raising.Issues q.Stores q.Answers (Raising.ofExcept g result >>= f) := by
  cases result with
  | ok a => exact hf a rfl
  | error e => exact Raising.Issues.throw trivial

theorem cacheable_of_isStorable {cacheable : Bool} {response : Value}
    (h : isStorable cacheable response = .ok true) : cacheable = true := by
  cases cacheable with
  | true => rfl
  | false => cases h

theorem handler_issues (q : Completion texts digest) : q.handler.Issues q.Stores q.Answers := by
  suffices h : Raising.Issues q.Stores q.Answers (openaiChatCompletions q.world q.payload) from h
  unfold openaiChatCompletions executeCompletion resolveModel
  refine issues_ofExcept fun logicalModel hmodel => ?_
  obtain rfl : q.model = logicalModel := Except.ok.inj (q.resolved.symm.trans hmodel)
  refine issues_ofExcept fun requestedFeatures _ => ?_
  refine issues_bind checkRateLimits_storeless fun _ => ?_
  refine issues_bind checkQuota_storeless fun quotaResult => ?_
  refine issues_ofExcept fun cacheable hcacheable => ?_
  dsimp only
  cases hcached : (if cacheable then q.world.cached else none) with
  | some cached =>
    refine issues_ofExcept fun usage _ => ?_
    refine issues_bind finalizeGatewayRequest_storeless fun _ => ?_
    refine Raising.Issues.pure (.inr ⟨cached, ?_, rfl⟩)
    cases cacheable with
    | true => exact hcached
    | false => cases hcached
  | none =>
    refine issues_bind getRouter_storeless fun _ => ?_
    refine Raising.Issues.bind (Prog.Issues.weaken openUpstream_issues fun _ => stores_of_storeless)
      (fun response hresponse => ?_) fun _ _ => trivial
    cases hstream : q.payload.stream with
    | true =>
      rw [if_pos rfl]
      exact Raising.Issues.pure trivial
    | false =>
      rw [if_neg Bool.false_ne_true]
      refine issues_ofExcept fun usage _ => ?_
      refine issues_bind finalizeGatewayRequest_storeless fun _ => ?_
      refine issues_ofExcept fun storable hstorable => ?_
      refine issues_ofExcept fun content hcontent => ?_
      have hanswer : q.Upstreamed content := ⟨hstream, response, hresponse response rfl, hcontent⟩
      split
      · next hstore =>
        refine ⟨⟨rfl, rfl, ?_, hanswer⟩, fun _ => Or.inl hanswer⟩
        rw [hstore] at hstorable
        rw [Cacheable, hcacheable, cacheable_of_isStorable hstorable]
      · exact Raising.Issues.pure (.inl hanswer)

end Completion

/-! ## The cache -/

section

variable {ι : Type} {texts : Json.Texts} {digest : String → String} {json : JsonTexts}
  {requests : ι → Completion texts digest} {entries entries' : Entries}

/-- Every entry is what the upstream answered to a request with its key. -/
def Kept (json : JsonTexts) (requests : ι → Completion texts digest) (entries : Entries) : Prop :=
  ∀ key raw, entries key = some raw → ∃ i catalogGen data, key = (requests i).key catalogGen ∧
    (requests i).Cacheable ∧ (requests i).Upstreamed data ∧ json.dumps data = some raw

theorem Kept.expire (h : Kept json requests entries) (he : expire entries entries') :
    Kept json requests entries' := by
  obtain ⟨gone, rfl⟩ := he
  intro key raw hentry
  by_cases hkey : key = gone
  · rw [hkey, Function.update_self] at hentry
    cases hentry
  · rw [Function.update_of_ne hkey] at hentry
    exact h key raw hentry

theorem Kept.stored {i : ι} {catalogGen : Int} {data : Value} (h : Kept json requests entries)
    (hcacheable : (requests i).Cacheable) (hdata : (requests i).Upstreamed data) :
    Kept json requests (setCachedResponse json entries catalogGen (requests i).model.id
      ((requests i).world.fingerprint (requests i).model.name (requests i).payload.messages
        (requests i).payload.extra) data) := by
  unfold setCachedResponse
  split
  · exact h
  · next raw hraw =>
    intro key raw' hentry
    by_cases hkey : key = (requests i).key catalogGen
    · refine ⟨i, catalogGen, data, hkey, hcacheable, hdata, ?_⟩
      rw [hkey, Completion.key, Function.update_self] at hentry
      rw [hraw, hentry]
    · rw [Completion.key] at hkey
      rw [Function.update_of_ne hkey] at hentry
      exact h key raw' hentry

theorem Kept.cmd {i : ι} {c : Cmd} {r : Cmd.Resp c} (h : Kept json requests entries)
    (hstores : (requests i).Stores c) (hc : cacheSem json c entries r entries') :
    Kept json requests entries' := by
  cases c with
  | setCachedResponse modelId fingerprint data ttlSeconds =>
    obtain ⟨rfl, rfl, hcacheable, hdata⟩ := hstores
    rcases hc with rfl | ⟨catalogGen, rfl⟩
    · exact h
    · exact h.stored hcacheable hdata
  | _ =>
    obtain rfl : entries' = entries := hc
    exact h

variable [DecidableEq ι] {P : Pool ι Cmd Cmd.Resp (Except Raised Reply) Entries}

/-- The runs of the requests side by side, from an empty cache. -/
def Reached (json : JsonTexts) (requests : ι → Completion texts digest)
    (P : Pool ι Cmd Cmd.Resp (Except Raised Reply) Entries) : Prop :=
  Pool.Reach (cacheSem json) Handler.expire
    (Pool.start (fun _ => none) fun i => (requests i).handler) P

theorem kept_reached (hP : Reached json requests P) : Kept json requests P.shared :=
  Pool.Reach.invariant (J := fun entries _ => Kept json requests entries)
    (G := fun i _ c => (requests i).Stores c) (Q := fun i outcome _ => (requests i).Answers outcome)
    (fun i => ((requests i).handler_issues).follows []) (fun _ _ h => by cases h)
    (fun _ h hstores hc => h.cmd hstores hc) (fun h he => h.expire he) hP

theorem answers_reached (hP : Reached json requests P) {i : ι} {outcome : Except Raised Reply}
    (hi : P.thread i = .ret outcome) : (requests i).Answers outcome :=
  Pool.Reach.post (G := fun i _ c => (requests i).Stores c)
    (Q := fun i outcome _ => (requests i).Answers outcome)
    (fun i => ((requests i).handler_issues).follows []) hP hi

/-- A reply without a stream is what the upstream answers to the request, or what was stored of its
answer to one with the same model, messages and parameters. -/
theorem replies_same (hdigest : Set.InjOn digest (Set.range fun i => (requests i).text))
    (hP : Reached json requests P) {i : ι} {content : Value} {headers : Headers}
    (hi : P.thread i = .ret (.ok (.json content headers)))
    (hreads : ∃ P₁, Reached json requests P₁ ∧
      Pool.Reach (cacheSem json) Handler.expire P₁ P ∧ (requests i).Reads json P₁.shared) :
    (requests i).Upstreamed content ∨ ∃ j data raw, (requests i).Same (requests j) ∧
      (requests j).Cacheable ∧ (requests j).Upstreamed data ∧ json.dumps data = some raw ∧
      json.loads raw = some content := by
  rcases answers_reached hP hi with hanswer | ⟨cached, hcached, rfl⟩
  · exact .inl hanswer
  · right
    obtain ⟨P₁, hP₁, -, hnone | ⟨catalogGen, hread⟩⟩ := hreads
    · cases hcached.symm.trans hnone
    · rw [hcached] at hread
      unfold getCachedResponse at hread
      split at hread
      · next fields hloads =>
        cases hread
        obtain ⟨raw, hentry, hraw⟩ := Option.bind_eq_some_iff.1 hloads
        obtain ⟨j, gen, data, hkey, hcacheable, hdata, hdumps⟩ := kept_reached hP₁ _ raw hentry
        have hsame := (Completion.key_inj hdigest ⟨i, rfl⟩ ⟨j, rfl⟩).1 hkey
        exact ⟨j, data, raw, hsame.2, hcacheable, hdata, hdumps, hraw⟩
      · cases hread

end

/-! ### A hit -/

/-- The texts of a program whose only float is zero. -/
def zeroTexts : Json.Texts where
  isDouble q := decide (q = 0)
  repr _ := "0.0"
  str _ := "object"
  repr_inj p q hp hq _ := (of_decide_eq_true hp).trans (of_decide_eq_true hq).symm
  repr_chars _ _ := List.all_eq_true.1 (by decide)
  repr_point _ _ := .inl (by decide)

/-- A completion that says hello. -/
def helloAnswer : Fields :=
  [("choices", .list [.dict [("message", .dict [("content", .str "hello")])]])]

/-- The text of that completion, and its decoding. -/
def helloJson : JsonTexts where
  dumps x := some (Json.dumps zeroTexts x)
  loads raw := if raw = Json.dumps zeroTexts (.dict helloAnswer) then some (.dict helloAnswer) else none

def helloWorld (cached : Option Fields) : World :=
  { streamWorld with
    responseCacheEnabled := true
    fingerprint := computeFingerprint zeroTexts id
    cached := cached
    opened := .value { body := .dict helloAnswer } }

/-- Someone says hi, with temperature zero. -/
def helloRequest (cached : Option Fields) : Completion zeroTexts id where
  world := helloWorld cached
  payload := ⟨some "gpt", false, [.dict [("role", .str "user"), ("content", .str "hi")]],
    [("temperature", .int 0)]⟩
  model := ⟨1, "gpt", none, none⟩
  resolved := rfl
  fingerprint := rfl
  messages := by decide
  params := by decide

/-- The second request is a hit. -/
def helloRequests (second : Bool) : Completion zeroTexts id :=
  helloRequest (if second then some helloAnswer else none)

/-- Every call answers, and a response is stored in generation 1. -/
def helloCall : (c : Cmd) → Entries → Cmd.Resp c × Entries
  | .setCachedResponse modelId fingerprint data _, entries =>
    ((), setCachedResponse helloJson entries 1 modelId fingerprint data)
  | .checkRateLimits .., entries => ({ allowed := true }, entries)
  | .settleTpm .., entries | .settleReservations .., entries | .compensateReservations .., entries =>
    (.ok (), entries)
  | .checkQuota .., entries | .releaseRpm .., entries | .releaseConcurrent .., entries
  | .enqueueUsageEvent .., entries | .enqueueLogEvent .., entries
  | .recordChannelHealth .., entries | .recordBillingFailure .., entries
  | .callUpstream .., entries | .spawnFinalizer .., entries | .aclose, entries
  | .yield .., entries => ((), entries)

theorem helloCall_sem (c : Cmd) (entries : Entries) :
    cacheSem helloJson c entries (helloCall c entries).1 (helloCall c entries).2 := by
  cases c with
  | setCachedResponse => exact .inr ⟨1, rfl⟩
  | _ => rfl

/-- The first request has ended. -/
def storedPool : Pool Bool Cmd Cmd.Resp (Except Raised Reply) Entries :=
  Pool.play helloCall (Pool.start (fun _ => none) fun i => (helloRequests i).handler)
    (List.replicate 5 false)

/-- Both requests have ended. -/
def hitPool : Pool Bool Cmd Cmd.Resp (Except Raised Reply) Entries :=
  Pool.play helloCall storedPool (List.replicate 3 true)

theorem storedPool_reached : Reached helloJson helloRequests storedPool :=
  Pool.reach_play helloCall_sem _ _

theorem hitPool_reach : Pool.Reach (cacheSem helloJson) Handler.expire storedPool hitPool :=
  Pool.reach_play helloCall_sem _ _

theorem storedPool_shared : storedPool.shared = setCachedResponse helloJson (fun _ => none) 1 1
    ((helloRequests true).world.fingerprint "gpt" (helloRequests true).payload.messages
      (helloRequests true).payload.extra) (.dict helloAnswer) := rfl

theorem reads_storedPool : (helloRequests true).Reads helloJson storedPool.shared := by
  have hentry : storedPool.shared ((helloRequests true).key 1) =
      some (Json.dumps zeroTexts (.dict helloAnswer)) := by
    rw [storedPool_shared]
    exact Function.update_self ((helloRequests true).key 1)
      (some (Json.dumps zeroTexts (.dict helloAnswer))) fun _ => none
  have hloads : helloJson.loads (Json.dumps zeroTexts (.dict helloAnswer)) =
      some (.dict helloAnswer) := if_pos rfl
  refine .inr ⟨1, ?_⟩
  rw [getCachedResponse, ← Completion.key, hentry, Option.bind_some, hloads]
  rfl

theorem replies_same_hit : ∃ headers,
    hitPool.thread true = .ret (.ok (.json (.dict helloAnswer) headers)) ∧
      ((helloRequests true).Upstreamed (.dict helloAnswer) ∨ ∃ j data raw,
        (helloRequests true).Same (helloRequests j) ∧ (helloRequests j).Cacheable ∧
          (helloRequests j).Upstreamed data ∧ helloJson.dumps data = some raw ∧
          helloJson.loads raw = some (.dict helloAnswer)) := by
  have hreplied : hitPool.thread true = .ret (.ok (.json (.dict helloAnswer) [])) := rfl
  exact ⟨[], hreplied, replies_same Function.injective_id.injOn
    (storedPool_reached.trans hitPool_reach) hreplied
    ⟨storedPool, storedPool_reached, hitPool_reach, reads_storedPool⟩⟩

end Handler

end Gateway
