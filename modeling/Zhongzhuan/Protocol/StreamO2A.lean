import Zhongzhuan.Kit.Dict
import Zhongzhuan.Kit.Json
import Zhongzhuan.Kit.Lines
import Zhongzhuan.Kit.Separated
import Zhongzhuan.Kit.Text
import Zhongzhuan.Kit.Translator
import Zhongzhuan.Kit.Utf8

/-!
# `StreamO2A`: from OpenAI chunks to an Anthropic stream

The model of `proxy/protocol/stream_o2a.py`.

* `OpenAIChunk.read` is what `_handle_openai_chunk` reads of a parsed chunk; it has no result
  where the source raises (a field that is not a dictionary where `.get` is called on it, an index
  that cannot be a dictionary key, an infinite count).
* `StreamO2A.handleOpenaiChunk`, `handleToolCalls`, `finish` and `finishWithError` are the
  methods, and `finishSafely` is the end of a stream.
* `StreamO2A.feed` takes bytes: line ends are normalised in the whole buffer, complete events are
  cut off, and a buffer over the limit is dropped.

Ids drawn from `uuid4`, `str` and `int` of values that are not strings, and the dictionary key a
float stands for are parameters.  What is only counted for the log is left out.
-/

namespace Zhongzhuan.Protocol

open Kit

/-! ## Events -/

/-- A content block as it is announced. -/
inductive ContentBlock
  | text
  | toolUse (id name : Json)
deriving DecidableEq

/-- What is added to a content block. -/
inductive BlockDelta
  | text (text : String)
  | inputJson (partialJson : Json)
deriving DecidableEq

/-- An Anthropic event. -/
inductive AnthropicEvent
  | messageStart (id model : Json)
  | ping
  | contentBlockStart (index : ℕ) (block : ContentBlock)
  | contentBlockDelta (index : ℕ) (delta : BlockDelta)
  | contentBlockStop (index : ℕ)
  | messageDelta (stopReason : String) (outputTokens : ℕ)
  | error (err : Fields)
  | messageStop
deriving DecidableEq

namespace AnthropicEvent

/-- The name of an event. -/
def name : AnthropicEvent → String
  | .messageStart .. => "message_start"
  | .ping => "ping"
  | .contentBlockStart .. => "content_block_start"
  | .contentBlockDelta .. => "content_block_delta"
  | .contentBlockStop .. => "content_block_stop"
  | .messageDelta .. => "message_delta"
  | .error .. => "error"
  | .messageStop => "message_stop"

/-- The object of a content block. -/
def blockJson : ContentBlock → Json
  | .text => .obj [("type", .str "text"), ("text", .str "")]
  | .toolUse id name =>
    .obj [("type", .str "tool_use"), ("id", id), ("name", name), ("input", .obj [])]

/-- The object of a delta. -/
def deltaJson : BlockDelta → Json
  | .text text => .obj [("type", .str "text_delta"), ("text", .str text)]
  | .inputJson partialJson =>
    .obj [("type", .str "input_json_delta"), ("partial_json", partialJson)]

/-- The payload of an event beside its type. -/
def data : AnthropicEvent → Fields
  | .messageStart id model =>
    [("message", .obj [("id", id), ("type", .str "message"), ("role", .str "assistant"),
      ("model", model), ("content", .arr []), ("stop_reason", .null), ("stop_sequence", .null),
      ("usage", .obj [("input_tokens", .int 0), ("output_tokens", .int 0)])])]
  | .ping | .messageStop => []
  | .contentBlockStart index block => [("index", .int index), ("content_block", blockJson block)]
  | .contentBlockDelta index delta => [("index", .int index), ("delta", deltaJson delta)]
  | .contentBlockStop index => [("index", .int index)]
  | .messageDelta stopReason outputTokens =>
    [("delta", .obj [("stop_reason", .str stopReason), ("stop_sequence", .null)]),
      ("usage", .obj [("output_tokens", .int outputTokens)])]
  | .error err => [("error", .obj err)]

/-- `_sse_event`. -/
def bytes (e : AnthropicEvent) : Bytes :=
  Utf8.encode ("event: " ++ e.name ++ "\ndata: "
    ++ dumps (.obj (("type", .str e.name) :: e.data)) ++ "\n\n").toList

end AnthropicEvent

/-! ## Reading a chunk -/

/-- What a translator of streams is given and calls outside itself. -/
structure StreamEnv where
  model : String
  loads : String → Loaded
  /-- `str(v)` of a value that is not a string. -/
  strOf : Json → String
  /-- `int(x)` of a float that is positive; `some none` when it is not, `none` when it is
  infinite and `int` raises. -/
  floatCount : String → Option (Option ℕ)
  /-- The value a float is equal to as the key of a dictionary. -/
  floatKey : String → Json

/-- What `StreamO2A` draws besides. -/
structure O2AEnv extends StreamEnv where
  /-- `msg_` and random digits. -/
  messageId : String
  /-- `toolu_` and random digits, for the block with this index. -/
  toolId : ℕ → String

namespace StreamEnv

variable (env : StreamEnv)

/-- `str(v)`. -/
def textOf : Json → String
  | .str text => text
  | v => env.strOf v

/-- A value as the key of a dictionary: what is equal in Python is the same key. -/
def dictKey : Json → Option Json
  | .bool b => some (.int (if b then 1 else 0))
  | .float text => some (env.floatKey text)
  | .arr _ | .obj _ => none
  | v => some v

/-- A count of tokens, when it is a positive number. -/
def positiveCount : Option Json → Option (Option ℕ)
  | some (.int n) => some (if 0 < n then some n.toNat else none)
  | some (.bool b) => some (if b then some 1 else none)
  | some (.float text) => env.floatCount text
  | _ => some none

/-- A count in `usage`. -/
def readCount (key : String) (fields : Fields) : Option (Option ℕ) :=
  match fields.get "usage" with
  | some (.obj usage) => env.positiveCount (Fields.get usage key)
  | _ => some none

end StreamEnv

/-- A fragment of a tool call. -/
structure ToolDelta where
  /-- The index as the key of a dictionary. -/
  key : Json
  /-- Absent when it is empty. -/
  id : Option Json
  name : Json
  /-- Absent when they are empty. -/
  arguments : Option Json
deriving DecidableEq

/-- The choice of a chunk. -/
structure ChunkChoice where
  /-- Absent when it is empty. -/
  content : Option String := none
  toolCalls : List ToolDelta := []
  /-- Absent when it is empty. -/
  finishReason : Option String := none
deriving DecidableEq

/-- What the translator reads of a chunk. -/
structure OpenAIChunk where
  /-- Absent when it is empty. -/
  id : Option Json := none
  model : Json := .str ""
  /-- A positive count. -/
  completionTokens : Option ℕ := none
  /-- Empty when there is no error. -/
  error : Fields := []
  choice : Option ChunkChoice := none
deriving DecidableEq

/-- A value that is not empty. -/
def nonempty (v : Option Json) : Option Json := v.filter Json.truthy

/-- `v or {}` where `.get` is called on the result. -/
def objectOr (v : Option Json) : Option Fields :=
  match nonempty v with
  | none => some []
  | some (.obj fields) => some fields
  | some _ => none

namespace OpenAIChunk

variable (env : O2AEnv)

/-- An entry of `tool_calls` that is a dictionary. -/
def readTool (fields : Fields) : Option ToolDelta := do
  let function ← objectOr (fields.get "function")
  let key ← env.dictKey ((fields.get "index").getD (.int 0))
  return {
    key := key
    id := nonempty (fields.get "id")
    name := (function.get "name").getD (.str "")
    arguments := nonempty (function.get "arguments") }

/-- The entries of `tool_calls` that are dictionaries. -/
def readTools : List Json → Option (List ToolDelta)
  | [] => some []
  | .obj fields :: rest => do return (← readTool env fields) :: (← readTools rest)
  | _ :: rest => readTools rest

/-- `tool_calls`; the characters of a string and the keys of a dictionary are no dictionaries. -/
def readToolCalls (delta : Fields) : Option (List ToolDelta) :=
  match nonempty (delta.get "tool_calls") with
  | none | some (.str _) | some (.obj _) => some []
  | some (.arr items) => readTools env items
  | some _ => none

/-- `finish_reason`.  It is only looked up in a table of strings, in which a value that is no
string is found as little as an empty one; a finished translator does not look at it. -/
def readFinish (finished : Bool) (choice : Fields) : Option (Option String) :=
  match nonempty (choice.get "finish_reason") with
  | none => some none
  | some (.str reason) => some (some reason)
  | some v => if finished ∨ (env.dictKey v).isSome then some (some "") else none

/-- A choice. -/
def readChoice (finished : Bool) : Json → Option ChunkChoice
  | .obj choice => do
    let delta ← objectOr (Fields.get choice "delta")
    let toolCalls ← readToolCalls env delta
    let finishReason ← readFinish env finished choice
    return {
      content := (nonempty (delta.get "content")).map env.textOf
      toolCalls := toolCalls
      finishReason := finishReason }
  | _ => none

/-- The first of `choices`. -/
def readChoices (finished : Bool) (fields : Fields) : Option (Option ChunkChoice) :=
  match nonempty (fields.get "choices") with
  | none => some none
  | some (.arr (choice :: _)) => (readChoice env finished choice).map some
  | some _ => none

/-- `error`, when it is a dictionary. -/
def readError (fields : Fields) : Fields :=
  match fields.get "error" with
  | some (.obj err) => err
  | _ => []

/-- What is read of a parsed chunk.  The choices of a chunk with an error are not looked at. -/
def read (finished : Bool) : Json → Option OpenAIChunk
  | .obj fields => do
    let tokens ← env.readCount "completion_tokens" fields
    let error := readError fields
    let choice ←
      match readChoices env finished fields with
      | some choice => some choice
      | none => if error = [] then none else some none
    return {
      id := nonempty (Fields.get fields "id")
      model := (Fields.get fields "model").getD (.str "")
      completionTokens := tokens
      error := error
      choice := choice }
  | _ => none

end OpenAIChunk

/-! ## The translator -/

/-- `MAP_FINISH_REASON_O2A`. -/
def mapFinishReasonO2A : List (String × String) :=
  [("stop", "end_turn"), ("length", "max_tokens"), ("tool_calls", "tool_use"),
    ("content_filter", "end_turn"), ("function_call", "tool_use"), ("refusal", "end_turn"),
    ("pause_turn", "end_turn")]

/-- The stop reason of a finish reason. -/
def stopReasonOf (finishReason : Option String) : String :=
  match finishReason with
  | none => "end_turn"
  | some reason => (mapFinishReasonO2A.lookup reason).getD "end_turn"

/-- The label of a translator. -/
inductive StreamState
  | init
  | started
  | textBlock
  | toolBlock
  | done
deriving DecidableEq, Repr

/-- The attributes of `StreamO2A` beside its buffer. -/
structure StreamO2A where
  state : StreamState := .init
  currentIndex : ℕ := 0
  toolIndexMap : Dict Json ℕ := .empty
  nextBlockIndex : ℕ := 0
  outputChars : ℕ := 0
  finished : Bool := false
  upstreamCompletionTokens : Option ℕ := none
deriving DecidableEq

namespace StreamO2A

variable (env : O2AEnv) (s : StreamO2A)

/-- `_emit_message_start`, with the ping after it. -/
def emitMessageStart (id : Option Json) (model : Json) : List AnthropicEvent :=
  [.messageStart (id.getD (.str env.messageId))
    (if env.model = "" then model else .str env.model), .ping]

/-- The beginning of the message at the first chunk with a choice. -/
def start (chunk : OpenAIChunk) : StreamO2A × List AnthropicEvent :=
  if s.state = .init then
    ({ s with state := .started }, emitMessageStart env chunk.id chunk.model)
  else (s, [])

/-- The text of a chunk. -/
def handleContent : Option String → StreamO2A × List AnthropicEvent
  | none => (s, [])
  | some content =>
    let s := { s with outputChars := s.outputChars + content.length }
    match s.state with
    | .started =>
      ({ s with currentIndex := 0, nextBlockIndex := 1, state := .textBlock },
        [.contentBlockStart 0 .text, .contentBlockDelta 0 (.text content)])
    | .textBlock => (s, [.contentBlockDelta 0 (.text content)])
    | .toolBlock =>
      ({ s with
          currentIndex := s.nextBlockIndex
          nextBlockIndex := s.nextBlockIndex + 1
          state := .textBlock },
        [.contentBlockStart s.nextBlockIndex .text,
          .contentBlockDelta s.nextBlockIndex (.text content)])
    | .init | .done => (s, [])

/-- The arguments of a fragment. -/
def argumentsDelta (index : ℕ) : Option Json → List AnthropicEvent
  | none => []
  | some arguments => [.contentBlockDelta index (.inputJson arguments)]

/-- What is closed before a tool block is opened. -/
def closeBefore : List AnthropicEvent :=
  match s.state with
  | .textBlock => [.contentBlockStop 0]
  | .toolBlock => [.contentBlockStop s.currentIndex]
  | .init | .started | .done => []

/-- A fragment of a tool call. -/
def handleToolCall (tool : ToolDelta) : StreamO2A × List AnthropicEvent :=
  match s.toolIndexMap.get? tool.key with
  | some index => (s, argumentsDelta index tool.arguments)
  | none =>
    ({ s with
        nextBlockIndex := s.nextBlockIndex + 1
        toolIndexMap := s.toolIndexMap.set tool.key s.nextBlockIndex
        currentIndex := s.nextBlockIndex
        state := .toolBlock },
      s.closeBefore
        ++ .contentBlockStart s.nextBlockIndex
            (.toolUse (tool.id.getD (.str (env.toolId s.nextBlockIndex))) tool.name)
          :: argumentsDelta s.nextBlockIndex tool.arguments)

/-- `_handle_tool_calls`. -/
def handleToolCalls (s : StreamO2A) : List ToolDelta → StreamO2A × List AnthropicEvent
  | [] => (s, [])
  | tool :: tools =>
    let first := s.handleToolCall env tool
    let rest := handleToolCalls first.1 tools
    (rest.1, first.2 ++ rest.2)

/-- What stands before a message that ends: its beginning, or the end of its open block. -/
def closeBlock : List AnthropicEvent :=
  match s.state with
  | .init => emitMessageStart env none (.str "")
  | .textBlock | .toolBlock => [.contentBlockStop s.currentIndex]
  | .started | .done => []

/-- `_finish`. -/
def finish (finishReason : Option String) : StreamO2A × List AnthropicEvent :=
  if s.finished then (s, [])
  else
    let estimate := max 1 (s.outputChars / 4)
    let outputTokens :=
      match s.upstreamCompletionTokens with
      | some n => if n = 0 then estimate else n
      | none => estimate
    ({ s with state := .done, finished := true },
      s.closeBlock env ++ [.messageDelta (stopReasonOf finishReason) outputTokens, .messageStop])

/-- `_finish_with_error`. -/
def finishWithError (err : Fields) : StreamO2A × List AnthropicEvent :=
  if s.finished then (s, [])
  else
    ({ s with state := .done, finished := true },
      s.closeBlock env ++ [.error err, .messageDelta "error" (s.upstreamCompletionTokens.getD 0),
        .messageStop])

/-- The finish reason of a chunk. -/
def handleFinish : Option String → StreamO2A × List AnthropicEvent
  | none => (s, [])
  | some reason => s.finish env (some reason)

/-- The capture of the counts of a chunk. -/
def captureUsage (chunk : OpenAIChunk) : StreamO2A :=
  match chunk.completionTokens with
  | some n => { s with upstreamCompletionTokens := some n }
  | none => s

/-- A chunk with a choice. -/
def handleChoice (chunk : OpenAIChunk) (choice : ChunkChoice) :
    StreamO2A × List AnthropicEvent :=
  let started := s.start env chunk
  let text := started.1.handleContent choice.content
  let tools := text.1.handleToolCalls env choice.toolCalls
  let closing := tools.1.handleFinish env choice.finishReason
  (closing.1, started.2 ++ text.2 ++ tools.2 ++ closing.2)

/-- `_handle_openai_chunk`. -/
def handleOpenaiChunk (chunk : OpenAIChunk) : StreamO2A × List AnthropicEvent :=
  let s := s.captureUsage chunk
  if chunk.error ≠ [] then s.finishWithError env chunk.error
  else
    match chunk.choice with
    | none => (s, [])
    | some choice => s.handleChoice env chunk choice

/-- `finish_safely`. -/
def finishSafely : List AnthropicEvent := (s.finish env none).2

/-! ## Bytes -/

/-- `_MAX_BUFFER`. -/
def maxBuffer : ℕ := 8 * 1024 * 1024

/-- `buffer.replace(b"\r\n", b"\n")`. -/
def replaceCrlf : Bytes → Bytes
  | [] => []
  | b :: bs => if b = cr ∧ bs.head? = some lf then replaceCrlf bs else b :: replaceCrlf bs

/-- The text after `data:` of the lines of an event that have it. -/
def dataLines (lines : List Bytes) : List (List Char) :=
  lines.filterMap fun raw =>
    let line := (Utf8.decodeReplacing raw).rdropWhile (· = '\r')
    if "data:".toList.isPrefixOf line then some ((line.drop 5).dropWhile isSpace) else none

/-- The lines of an event. -/
def eventLines (block : Bytes) : List Bytes :=
  let cut := separate [lf] [] block
  cut.1 ++ [cut.2]

/-- What a complete event of the upstream says. -/
inductive StreamItem
  /-- No data, or data that is not JSON. -/
  | nothing
  | sentinel
  | json (v : Json)
  /-- `json.loads` raised something that is not caught. -/
  | broken
deriving DecidableEq

/-- The data of an event. -/
def readEvent (block : Bytes) : StreamItem :=
  let lines := dataLines (eventLines block)
  if lines = [] then .nothing
  else
    let data := ['\n'].intercalate lines
    if strip data = "[DONE]".toList then .sentinel
    else
      match env.loads (String.ofList data) with
      | .value v => .json v
      | .rejected => .nothing
      | .raised _ => .broken

/-- An event, or the exception it raises. -/
def handleItem : StreamItem → Option (StreamO2A × List AnthropicEvent)
  | .nothing => some (s, [])
  | .sentinel => some (s.finish env none)
  | .json v => (OpenAIChunk.read env s.finished v).map (s.handleOpenaiChunk env)
  | .broken => none

/-- The complete events in a buffer, and what is left of it. -/
def scan (buffer chunk : Bytes) : List Bytes × Bytes :=
  let cut := separate [lf, lf] [] (replaceCrlf (buffer ++ chunk))
  (cut.1, if maxBuffer < cut.2.length then [] else cut.2)

/-- `feed`, `done` and `finish_safely` of the translator. -/
def translator : Translator UInt8 Bytes Bytes StreamO2A AnthropicEvent where
  scan := scan
  handle s block := s.handleItem env (readEvent env block)
  finished := StreamO2A.finished
  close s := s.finishSafely env

end StreamO2A

end Zhongzhuan.Protocol
