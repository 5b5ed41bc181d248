import Zhongzhuan.Protocol.StreamO2A

/-!
# `StreamA2O`: from an Anthropic stream to OpenAI chunks

The model of `proxy/protocol/stream_a2o.py`.

* `AnthropicInput.read` is what the handlers read of an event; it has no result where the source
  raises.
* `StreamA2O.handleEvent` is `_handle_event` with the handlers it calls, `handleLine` one line of
  `feed`, and `finishSafely` the end of a stream.
* `StreamA2O.translator` takes bytes: a byte order mark at the head is dropped, complete lines are
  cut off, and a buffer over the limit is dropped.
-/

namespace Zhongzhuan.Protocol

open Kit

/-! ## Chunks -/

/-- What `StreamA2O` sends. -/
inductive OpenAIFrame
  | chunk (id model : Json) (delta : Fields) (finishReason : Json) (usage : Option (ℕ × ℕ))
  /-- `_done_marker`. -/
  | doneMarker
deriving DecidableEq

/-- The bytes of a frame. -/
def OpenAIFrame.bytes (created : ℤ) : OpenAIFrame → Bytes
  | .doneMarker => Utf8.encode "data: [DONE]\n\n".toList
  | .chunk id model delta finishReason usage =>
    let usageField := match usage with
      | some (input, output) =>
        [("usage", Json.obj [("prompt_tokens", .int input), ("completion_tokens", .int output),
          ("total_tokens", .int (input + output : ℕ))])]
      | none => []
    Utf8.encode ("data: " ++ dumps (.obj
      ([("id", id), ("object", .str "chat.completion.chunk"), ("created", .int created),
        ("model", model), ("choices", .arr [.obj [("index", .int 0), ("delta", .obj delta),
          ("finish_reason", finishReason)]])] ++ usageField)) ++ "\n\n").toList

/-! ## Reading an event -/

/-- What `StreamA2O` draws besides. -/
structure A2OEnv extends StreamEnv where
  /-- `chatcmpl-` and random digits. -/
  chunkId : String
  created : ℤ

/-- What the handlers read of an event. -/
inductive AnthropicInput
  | messageStart (id : Option Json) (model : Json) (inputTokens : Option ℕ)
  /-- The start of a tool block; the index is the key of a dictionary. -/
  | toolStart (key id name : Json)
  /-- A text that is not empty. -/
  | text (content : Json)
  /-- Arguments; absent when they are empty. -/
  | inputJson (key : Json) (partialJson : Option Json)
  | messageDelta (stopReason : Option Json) (outputTokens : Option ℕ)
  | messageStop
  | error (message : Json)
  /-- An event without an effect. -/
  | nothing
deriving DecidableEq

namespace AnthropicInput

variable (env : A2OEnv)

/-- The object that is read. -/
def asObject : Json → Option Fields
  | .obj fields => some fields
  | _ => none

/-- What `_on_message_start` reads. -/
def readMessageStart (data : Json) : Option AnthropicInput := do
  let fields ← asObject data
  let message ← objectOr (fields.get "message")
  let tokens ← env.readCount "input_tokens" message
  return .messageStart (nonempty (message.get "id")) ((message.get "model").getD (.str "")) tokens

/-- What `_on_content_block_start` reads. -/
def readBlockStart (data : Json) : Option AnthropicInput := do
  let fields ← asObject data
  let block ← objectOr (fields.get "content_block")
  if block.get "type" = some (.str "tool_use") then
    let key ← env.dictKey ((fields.get "index").getD (.int 0))
    return .toolStart key ((block.get "id").getD (.str "")) ((block.get "name").getD (.str ""))
  else return .nothing

/-- What `_on_content_block_delta` reads. -/
def readBlockDelta (data : Json) : Option AnthropicInput := do
  let fields ← asObject data
  let delta ← objectOr (fields.get "delta")
  if delta.get "type" = some (.str "text_delta") then
    match nonempty (delta.get "text") with
    | some content => return .text content
    | none => return .nothing
  else if delta.get "type" = some (.str "input_json_delta") then
    let key ← env.dictKey ((fields.get "index").getD (.int 0))
    return .inputJson key (nonempty (delta.get "partial_json"))
  else return .nothing

/-- What is read of a `message_delta`. -/
def readMessageDelta (data : Json) : Option AnthropicInput := do
  let fields ← asObject data
  let delta ← objectOr (fields.get "delta")
  let tokens ← env.readCount "output_tokens" fields
  return .messageDelta (nonempty (delta.get "stop_reason")) tokens

/-- What is read of an `error`. -/
def readErrorEvent (data : Json) : Option AnthropicInput := do
  let fields ← asObject data
  let err ← objectOr (fields.get "error")
  return .error ((err.get "message").getD (.str "upstream stream error"))

/-- What the handler of an event type reads; a message that was opened is not opened again. -/
def read (opened : Bool) (eventType : String) (data : Json) : Option AnthropicInput :=
  if eventType = "message_start" then
    if opened then some .nothing else readMessageStart env data
  else if eventType = "content_block_start" then readBlockStart env data
  else if eventType = "content_block_delta" then readBlockDelta env data
  else if eventType = "message_delta" then readMessageDelta env data
  else if eventType = "message_stop" then some .messageStop
  else if eventType = "error" then readErrorEvent data
  else some .nothing

end AnthropicInput

/-! ## The translator -/

/-- `MAP_STOP_REASON_A2O`. -/
def mapStopReasonA2O : List (String × String) :=
  [("end_turn", "stop"), ("max_tokens", "length"), ("tool_use", "tool_calls"),
    ("stop_sequence", "stop"), ("refusal", "content_filter"), ("pause_turn", "stop")]

/-- The attributes of `StreamA2O` beside its buffer. -/
structure StreamA2O where
  /-- The state is not `INIT`. -/
  opened : Bool := false
  chunkId : Json
  toolOaiIndex : ℕ := 0
  blockToOaiToolIndex : Dict Json ℕ := .empty
  /-- Absent when it is empty. -/
  stopReason : Option Json := none
  finished : Bool := false
  pendingEvent : Option String := none
  dataLines : List (List Char) := []
  inputTokens : ℕ := 0
  outputTokens : ℕ := 0
deriving DecidableEq

namespace StreamA2O

variable (env : A2OEnv) (s : StreamA2O)

/-- A new translator. -/
def fresh : StreamA2O := { chunkId := .str env.chunkId }

/-- A chunk without usage. -/
def chunkOf (delta : Fields) (finishReason : Json) : OpenAIFrame :=
  .chunk s.chunkId (.str env.model) delta finishReason none

/-- The delta that carries a fragment of a tool call. -/
def toolDelta (call : Fields) : Fields := [("tool_calls", .arr [.obj call])]

/-- The start of a tool block. -/
def onToolStart (key id name : Json) : StreamA2O × List OpenAIFrame :=
  ({ s with
      toolOaiIndex := s.toolOaiIndex + 1
      blockToOaiToolIndex := s.blockToOaiToolIndex.set key s.toolOaiIndex },
    [s.chunkOf env (toolDelta [("index", .int s.toolOaiIndex), ("id", id),
      ("type", .str "function"),
      ("function", .obj [("name", name), ("arguments", .str "")])]) .null])

/-- The index of a tool block; a block that was not announced is given one of its own. -/
def toolIndexOf (key : Json) : StreamA2O × ℕ :=
  match s.blockToOaiToolIndex.get? key with
  | some index => (s, index)
  | none =>
    ({ s with
        toolOaiIndex := s.toolOaiIndex + 1
        blockToOaiToolIndex := s.blockToOaiToolIndex.set key s.toolOaiIndex },
      s.toolOaiIndex)

/-- Arguments of a tool block. -/
def onInputJson (key : Json) (partialJson : Option Json) : StreamA2O × List OpenAIFrame :=
  let known := s.toolIndexOf key
  match partialJson with
  | some arguments =>
    (known.1, [known.1.chunkOf env (toolDelta [("index", .int known.2),
      ("function", .obj [("arguments", arguments)])]) .null])
  | none => (known.1, [])

/-- The finish reason of a stop reason. -/
def finishReasonOf (stopReason : Option Json) : String :=
  match stopReason with
  | none => "stop"
  | some (.str reason) => (mapStopReasonA2O.lookup reason).getD "stop"
  | some _ => "stop"

/-- `_on_message_stop`; a stop reason that cannot be a key of the table raises. -/
def onMessageStop : Option (StreamA2O × List OpenAIFrame) :=
  if s.finished then some (s, [])
  else if s.stopReason.all fun v => (env.dictKey v).isSome then
    some ({ s with opened := true, finished := true },
      [.chunk s.chunkId (.str env.model) [] (.str (finishReasonOf s.stopReason))
        (some (s.inputTokens, s.outputTokens)), .doneMarker])
  else none

/-- `_finish_with_error`. -/
def finishWithError (message : Json) : StreamA2O × List OpenAIFrame :=
  if s.finished then (s, [])
  else
    ({ s with opened := true, finished := true },
      [s.chunkOf env [("content", .str ("\n[stream error: " ++ env.textOf message ++ "]"))] .null,
        s.chunkOf env [] (.str "stop"), .doneMarker])

/-- `_handle_event` on what was read. -/
def handleInput : AnthropicInput → Option (StreamA2O × List OpenAIFrame)
  | .messageStart id model inputTokens =>
    let s :=
      { s with
        opened := true
        chunkId := id.getD s.chunkId
        inputTokens := inputTokens.getD s.inputTokens }
    some (s, [.chunk s.chunkId (if env.model = "" then model else .str env.model)
      [("role", .str "assistant"), ("content", .str "")] .null none])
  | .toolStart key id name => some (s.onToolStart env key id name)
  | .text content => some (s, [s.chunkOf env [("content", content)] .null])
  | .inputJson key partialJson => some (s.onInputJson env key partialJson)
  | .messageDelta stopReason outputTokens =>
    some ({ s with
      stopReason := stopReason.or s.stopReason
      outputTokens := outputTokens.getD s.outputTokens }, [])
  | .messageStop => s.onMessageStop env
  | .error message => some (s.finishWithError env message)
  | .nothing => some (s, [])

/-- `_handle_event`. -/
def handleEvent (eventType : Option String) (data : Json) :
    Option (StreamA2O × List OpenAIFrame) :=
  match eventType with
  | none => some (s, [])
  | some eventType => (AnthropicInput.read env s.opened eventType data).bind (s.handleInput env)

/-- What has accumulated before a blank line. -/
inductive PendingData
  /-- No data, or data that is not JSON. -/
  | nothing
  | json (v : Json)
  /-- `json.loads` raised something that is not caught. -/
  | broken
deriving DecidableEq

/-- The data that is dispatched. -/
def pendingData : PendingData :=
  let data := ['\n'].intercalate s.dataLines
  if s.dataLines = [] ∨ strip data = [] then .nothing
  else
    match env.loads (String.ofList data) with
    | .value v => .json v
    | .rejected => .nothing
    | .raised _ => .broken

/-- An event is over. -/
def clear : StreamA2O := { s with pendingEvent := none, dataLines := [] }

/-- A blank line: `_dispatch_pending_data`, and the event type is forgotten. -/
def dispatch : Option (StreamA2O × List OpenAIFrame) :=
  match s.pendingData env with
  | .nothing => some (s.clear, [])
  | .json v => s.clear.handleEvent env s.pendingEvent v
  | .broken => none

/-- One line. -/
def handleLine (raw : Bytes) : Option (StreamA2O × List OpenAIFrame) :=
  let line := (Utf8.decodeReplacing raw).rdropWhile (· = '\r')
  if line = [] then s.dispatch env
  else if "event:".toList.isPrefixOf line then
    some ({ s with pendingEvent := some (String.ofList (strip (line.drop 6))) }, [])
  else if "data:".toList.isPrefixOf line then
    some ({ s with dataLines := s.dataLines ++ [(line.drop 5).dropWhile isSpace] }, [])
  else some (s, [])

/-- `finish_safely`. -/
def finishSafely : List OpenAIFrame :=
  if s.finished then []
  else [s.chunkOf env [] (s.stopReason.getD (.str "stop")), .doneMarker]

/-! ## Bytes -/

/-- `_UTF8_BOM`. -/
def utf8Bom : Bytes := [0xEF, 0xBB, 0xBF]

/-- The buffer and whether its head was looked at. -/
structure HeadBuffer where
  bomDone : Bool := false
  buffer : Bytes := []
deriving DecidableEq

/-- The byte order mark at the head of the stream. -/
def HeadBuffer.stripBom (h : HeadBuffer) : HeadBuffer :=
  if h.bomDone then h
  else if h.buffer.take 3 = utf8Bom then ⟨true, h.buffer.drop 3⟩
  else if 3 ≤ h.buffer.length ∨ ¬ h.buffer.isPrefixOf utf8Bom then ⟨true, h.buffer⟩
  else h

/-- The complete lines in a buffer, and what is left of it. -/
def scan (h : HeadBuffer) (chunk : Bytes) : List Bytes × HeadBuffer :=
  let h := { h with buffer := h.buffer ++ chunk }.stripBom
  let cut := separate [lf] [] h.buffer
  (cut.1, ⟨h.bomDone, if StreamO2A.maxBuffer < cut.2.length then [] else cut.2⟩)

/-- `feed`, `done` and `finish_safely` of the translator. -/
def translator : Translator UInt8 HeadBuffer Bytes StreamA2O OpenAIFrame where
  scan := scan
  handle s line := s.handleLine env line
  finished := StreamA2O.finished
  close s := s.finishSafely env

end StreamA2O

end Zhongzhuan.Protocol
