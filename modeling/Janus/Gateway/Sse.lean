import Janus.Gateway.Context
import Janus.Text.Lines

/-!
# Usage of native streams (`gateway/router.py`)

Each parser takes the bytes of a chunk and the unfinished line of the chunks before it. A chunk that
is no text and no bytes has raised before (`Chunk.text`). What a data line does to the usage is
known after the last read that may raise, so an event that raises leaves the usage as it was.

* `accumulateAnthropicUsage`, `accumulateGeminiUsage`: the parsers.
* `anthropicEvent`, `geminiEvent`: what they do with the JSON of a data line.
* `withCodec`: the world whose native generators read bytes with them.
-/

set_option autoImplicit false

namespace Gateway.Handler

open Python

/-- `bytes.decode("utf-8", errors="replace")`, `json.loads` and `int` on texts. The `ValueError` of
`loads` is that of a text that is no JSON. -/
structure Codec where
  decode : List UInt8 → String
  loads : String → Except Python.Error Value
  parseInt : String → Option Int

/-- `v or {}`. -/
def orEmpty (v : Value) : Value := if v.truthy then v else .dict []

section Events

variable (parse : String → Option Int)

/-- `int(v.get(name, 0))`. -/
def intItem (v : Value) (name : String) : Except Python.Error Int := do
  (← getItem v name (.int 0)).toInt parse

def anthropicEvent (usage : Usage) (data : Value) : Except Python.Error Usage := do
  let eventType ← getItem data "type" (.str "")
  if eventType = .str "message_start" then
    let message := orEmpty (← getItem data "message" .none)
    let msgUsage := orEmpty (← getItem message "usage" .none)
    let inputTokens ← intItem parse msgUsage "input_tokens"
    if inputTokens ≠ 0 then
      pure { usage with
        promptTokens := inputTokens, totalTokens := inputTokens + usage.completionTokens }
    else pure usage
  else if eventType = .str "message_delta" then
    let deltaUsage := orEmpty (← getItem data "usage" .none)
    let outputTokens ← intItem parse deltaUsage "output_tokens"
    if outputTokens ≠ 0 then
      pure { usage with
        completionTokens := outputTokens, totalTokens := usage.promptTokens + outputTokens }
    else pure usage
  else pure usage

def geminiEvent (usage : Usage) (data : Value) : Except Python.Error Usage := do
  let usageMeta ← getItem data "usageMetadata" .none
  if usageMeta.truthy then
    let prompt ← intItem parse usageMeta "promptTokenCount"
    let completion ← intItem parse usageMeta "candidatesTokenCount"
    let total ← intItem parse usageMeta "totalTokenCount"
    if total ≠ 0 then pure ⟨prompt, completion, total⟩ else pure usage
  else pure usage

end Events

/-! ## Lines -/

def dataPrefix : List Char := ['d', 'a', 't', 'a', ':', ' ']

/-- The JSON of a line; none where the line is skipped. -/
def lineData (loads : String → Except Python.Error Value) (line : List Char) :
    Except Python.Error (Option Value) :=
  if dataPrefix.isPrefixOf line then
    match loads (String.ofList (line.drop 6)) with
    | .ok data => .ok (some data)
    | .error .valueError => .ok none
    | .error e => .error e
  else .ok none

/-- The loop over the complete lines, and what it raises. -/
def walkLines (loads : String → Except Python.Error Value)
    (event : Usage → Value → Except Python.Error Usage) :
    Usage → List (List Char) → Usage × Option Python.Error
  | usage, [] => (usage, none)
  | usage, line :: lines =>
    match lineData loads line with
    | .error e => (usage, some e)
    | .ok none => walkLines loads event usage lines
    | .ok (some data) =>
      match event usage data with
      | .error e => (usage, some e)
      | .ok usage => walkLines loads event usage lines

/-- What the two parsers share. -/
def accumulateUsage (codec : Codec) (event : Usage → Value → Except Python.Error Usage)
    (s : NativeUsage) (rawBytes : List UInt8) : NativeUsage × Option Python.Error :=
  let text := s.buffer.toList ++ (codec.decode rawBytes).toList
  let (usage, e) := walkLines codec.loads event s.usage (Text.completeLines '\n' text)
  (⟨usage, String.ofList (Text.unfinished '\n' text)⟩, e)

/-- `_accumulate_anthropic_usage`. -/
def accumulateAnthropicUsage (codec : Codec) :
    NativeUsage → List UInt8 → NativeUsage × Option Python.Error :=
  accumulateUsage codec (anthropicEvent codec.parseInt)

/-- `_accumulate_gemini_usage`. -/
def accumulateGeminiUsage (codec : Codec) :
    NativeUsage → List UInt8 → NativeUsage × Option Python.Error :=
  accumulateUsage codec (geminiEvent codec.parseInt)

/-- The chunks of a stream one by one, with one buffer; a parser that raises ends it. -/
def feed (accumulate : NativeUsage → List UInt8 → NativeUsage × Option Python.Error) :
    NativeUsage → List (List UInt8) → NativeUsage × Option Python.Error
  | s, [] => (s, none)
  | s, rawBytes :: chunks =>
    match accumulate s rawBytes with
    | (s, some e) => (s, some e)
    | (s, none) => feed accumulate s chunks

/-! ## The parsers in a generator -/

/-- Bytes as a text of one character for each byte. -/
def latin1 (rawBytes : List UInt8) : String :=
  String.ofList (rawBytes.map fun b => Char.ofNat b.toNat)

def latin1Bytes (text : String) : List UInt8 := text.toList.map fun c => UInt8.ofNat c.toNat

def byteChunk (rawBytes : List UInt8) : Chunk where
  body := .none
  text := .ok (latin1 rawBytes)

def onBytes (accumulate : NativeUsage → List UInt8 → NativeUsage × Option Python.Error) :
    Accumulate := fun s chunk =>
  match chunk.text with
  | .ok text => accumulate s (latin1Bytes text)
  | .error e => (s, some e)

def withCodec (w : World) (codec : Codec) : World :=
  { w with
    accumulateAnthropicUsage := onBytes (accumulateAnthropicUsage codec)
    accumulateGeminiUsage := onBytes (accumulateGeminiUsage codec) }

end Gateway.Handler
