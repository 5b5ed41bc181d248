import Zhongzhuan.Kit.Separated
import Zhongzhuan.Kit.Translator
import Zhongzhuan.Protocol.ResponsesEmitter
import Zhongzhuan.Protocol.SseParser
import Zhongzhuan.Protocol.StreamO2A
import Zhongzhuan.Protocol.ToolAccumulator

/-!
# `ResponsesTurnBridge`: from OpenAI chunks to a Responses stream

The model of `proxy/protocol/responses_bridge.py` with the accumulators of
`turn_accumulator.py`.  It drives `Sse.Parser`, `ToolCallCollection` and `Emitter`.

* `TurnChunk.read` is what `_process` reads of a parsed chunk.  It has no result where the source
  raises, and none for an index that is not an integer or a call id that is not a string, which
  are not on the wire.
* The methods of the bridge take the bridge and return it with the frames they write; `andThen`
  makes two calls one after the other.
* Closing a tool call asks `json.loads`, which may raise, and then the method has no result.

Accumulator fields that no method of the bridge reads are left out.
-/

namespace Zhongzhuan.Protocol

open Kit

/-! ## Accumulators -/

/-- `TextAccumulator`. -/
structure TextAccumulator where
  outputIndex : ℕ
  itemId : String
  text : String := ""
deriving DecidableEq

/-- `EphemeralReasoningAccumulator`. -/
structure EphemeralReasoningAccumulator where
  outputIndex : ℕ
  itemId : String
  text : String := ""
  done : Bool := false
deriving DecidableEq

/-- `TurnAccumulator`. -/
structure TurnAccumulator where
  responseId : String
  messages : List TextAccumulator := []
  reasoning : Option EphemeralReasoningAccumulator := none
  tools : ToolCallCollection
  /-- `OutputIndexAllocator`. -/
  nextIndex : ℕ := 0
deriving DecidableEq

/-! ## Reading a chunk -/

/-- What a bridge is given and calls outside itself. -/
structure TurnEnv extends EmitterEnv where
  responseId : String
  model : String
  createdAt : ℤ
  /-- `reasoning_event_mode`. -/
  mode : String
  loads : String → Loaded

/-- An entry of `tool_calls`. -/
structure TurnTool where
  index : ℤ
  /-- Empty when it is absent. -/
  callId : String
  /-- Empty when it is absent. -/
  name : String
  /-- Empty when they are absent. -/
  arguments : String
deriving DecidableEq

/-- The choice of a chunk. -/
structure TurnChoice where
  /-- Empty when it is absent. -/
  reasoning : String := ""
  /-- Empty when it is absent. -/
  content : String := ""
  tools : List TurnTool := []
  /-- Absent when it is empty. -/
  finishReason : Option Json := none
deriving DecidableEq

/-- What the bridge reads of a chunk. -/
structure TurnChunk where
  /-- `prompt_tokens` and `completion_tokens`, when one of them counts. -/
  usage : Option (Json × Json) := none
  choice : Option TurnChoice := none
deriving DecidableEq

namespace TurnChunk

/-- A text, which is empty when it is absent. -/
def readText (v : Option Json) : Option String :=
  match nonempty v with
  | none => some ""
  | some (.str text) => some text
  | some _ => none

/-- `index`. -/
def readIndex (v : Option Json) : Option ℤ :=
  match nonempty v with
  | none => some 0
  | some (.int n) => some n
  | some _ => none

/-- An entry of `tool_calls`. -/
def readTool : Json → Option TurnTool
  | .obj fields => do
    let index ← readIndex (Fields.get fields "index")
    let callId ← readText (Fields.get fields "id")
    let function ← objectOr (Fields.get fields "function")
    let name ← readText (function.get "name")
    let arguments ← readText (function.get "arguments")
    return ⟨index, callId, name, arguments⟩
  | _ => none

/-- `tool_calls`. -/
def readTools (v : Option Json) : Option (List TurnTool) :=
  match nonempty v with
  | none => some []
  | some (.arr items) => items.mapM readTool
  | some _ => none

/-- `reasoning_content`; a bridge that writes no reasoning does not look at it. -/
def readReasoning (mode : String) (v : Option Json) : Option String :=
  if mode = "disabled" then some "" else readText v

/-- A choice. -/
def readChoice (mode : String) : Json → Option TurnChoice
  | .obj choice => do
    let delta ← objectOr (Fields.get choice "delta")
    let reasoning ← readReasoning mode (delta.get "reasoning_content")
    let content ← readText (delta.get "content")
    let tools ← readTools (delta.get "tool_calls")
    return ⟨reasoning, content, tools, nonempty (Fields.get choice "finish_reason")⟩
  | _ => none

/-- The first of `choices`. -/
def readChoices (mode : String) (fields : Fields) : Option (Option TurnChoice) :=
  match nonempty (fields.get "choices") with
  | none => some none
  | some (.arr (choice :: _)) => (readChoice mode choice).map some
  | some _ => none

/-- `v or 0`. -/
def readCount (v : Option Json) : Json := (nonempty v).getD (.int 0)

/-- `usage`. -/
def readUsage (fields : Fields) : Option (Json × Json) :=
  match fields.get "usage" with
  | some (.obj usage) =>
    let counts :=
      (readCount (Fields.get usage "prompt_tokens"),
        readCount (Fields.get usage "completion_tokens"))
    if counts.1.truthy || counts.2.truthy then some counts else none
  | _ => none

/-- What is read of a parsed chunk. -/
def read (mode : String) (fields : Fields) : Option TurnChunk :=
  (readChoices mode fields).map fun choice => ⟨readUsage fields, choice⟩

end TurnChunk

/-! ## The bridge -/

/-- `ResponsesTurnBridge`. -/
structure TurnBridge where
  acc : TurnAccumulator
  emitter : Emitter
  finished : Bool := false
  started : Bool := false
  usage : Json × Json := (.int 0, .int 0)
  /-- The output indices that `_msg_done` maps to `True`. -/
  msgDone : List ℕ := []
  /-- The output indices that `_tool_done` maps to `True`. -/
  toolDone : List ℕ := []
deriving DecidableEq

namespace TurnBridge

/-- A new bridge. -/
def fresh (env : TurnEnv) : TurnBridge where
  acc := { responseId := env.responseId, tools := { responseId := env.responseId } }
  emitter := .fresh env.responseId env.model env.createdAt

/-- The response has not ended. -/
def Going (s : TurnBridge) : Prop := s.emitter.state ∉ EmitterState.terminal

instance (s : TurnBridge) : Decidable (Going s) := by
  unfold Going
  infer_instance

/-- A call of the emitter. -/
def call (f : Emitter → Emitter × List WireEvent) (s : TurnBridge) :
    TurnBridge × List WireEvent :=
  ({ s with emitter := (f s.emitter).1 }, (f s.emitter).2)

/-- One call and then another. -/
def andThen (f g : TurnBridge → TurnBridge × List WireEvent) (s : TurnBridge) :
    TurnBridge × List WireEvent :=
  ((g (f s).1).1, (f s).2 ++ (g (f s).1).2)

/-- A call that is made under a condition. -/
def callIf (p : Bool) (f : TurnBridge → TurnBridge × List WireEvent) (s : TurnBridge) :
    TurnBridge × List WireEvent :=
  if p then f s else (s, [])

/-- `_ensure_started`. -/
def ensureStarted (s : TurnBridge) : TurnBridge × List WireEvent :=
  if s.started then (s, []) else call Emitter.start { s with started := true }

/-! ### Messages -/

/-- The part of a message. -/
def textPart (text : String) : Json :=
  .obj [("type", .str "output_text"), ("annotations", .arr []), ("logprobs", .arr []),
    ("text", .str text)]

/-- What the frames about an item begin with. -/
def itemFields (itemId : String) (outputIndex : ℕ) : Fields :=
  [("item_id", .str itemId), ("output_index", .int outputIndex)]

/-- The item of a message. -/
def messageItem (msg : TextAccumulator) (extra : Fields) : OutputItem where
  id := msg.itemId
  outputIndex := msg.outputIndex
  itemType := .message
  role := "assistant"
  extra := extra

/-- `_open_message`. -/
def openMessage (msg : TextAccumulator) : TurnBridge → TurnBridge × List WireEvent :=
  andThen (call (·.openItem (messageItem msg [])))
    (call (·.delta "response.content_part.added"
      (itemFields msg.itemId msg.outputIndex
        ++ [("content_index", .int 0), ("part", textPart "")])))

/-- `_emit_output_text_delta`. -/
def emitOutputTextDelta (msg : TextAccumulator) (text : String) :
    TurnBridge → TurnBridge × List WireEvent :=
  call (·.delta "response.output_text.delta"
    (itemFields msg.itemId msg.outputIndex
      ++ [("content_index", .int 0), ("delta", .str text), ("logprobs", .arr [])]))

/-- `_close_message`. -/
def closeMessage (status : String) (msg : TextAccumulator) (s : TurnBridge) :
    TurnBridge × List WireEvent :=
  if msg.outputIndex ∈ s.msgDone then (s, [])
  else
    andThen
      (call (·.delta "response.output_text.done"
        (itemFields msg.itemId msg.outputIndex
          ++ [("content_index", .int 0), ("text", .str msg.text), ("logprobs", .arr [])])))
      (andThen
        (call (·.delta "response.content_part.done"
          (itemFields msg.itemId msg.outputIndex
            ++ [("content_index", .int 0), ("part", textPart msg.text)])))
        (call (·.closeItem (messageItem msg [("content", .arr [textPart msg.text])]) status)))
      { s with msgDone := s.msgDone ++ [msg.outputIndex] }

/-- `_close_current_message`. -/
def closeCurrentMessage (s : TurnBridge) : TurnBridge × List WireEvent :=
  match s.acc.messages.getLast? with
  | none => (s, [])
  | some msg => closeMessage "completed" msg s

/-- `self._acc.new_message(...)`. -/
def newMessage (s : TurnBridge) : TurnBridge × TextAccumulator :=
  let msg : TextAccumulator :=
    ⟨s.acc.nextIndex, makeMessageItemId s.acc.responseId s.acc.nextIndex, ""⟩
  ({ s with
      acc :=
        { s.acc with
          messages := s.acc.messages ++ [msg]
          nextIndex := s.acc.nextIndex + 1 } }, msg)

/-- `msg.append(...)` on the last message. -/
def appendText (text : String) (s : TurnBridge) : TurnBridge :=
  { s with
    acc :=
      { s.acc with
        messages := s.acc.messages.modifyLast fun msg => { msg with text := msg.text ++ text } } }

/-- The text that `_handle_content` gives to the message. -/
def emitText (text : String) (s : TurnBridge) : TurnBridge × List WireEvent :=
  match s.acc.messages.getLast? with
  | some msg => emitOutputTextDelta msg text (s.appendText text)
  | none =>
    andThen (openMessage s.newMessage.2)
      (fun s' => emitOutputTextDelta s.newMessage.2 text (s'.appendText text)) s.newMessage.1

/-! ### Reasoning -/

/-- `_reasoning_enabled`. -/
def reasoningEnabled (env : TurnEnv) : Bool := env.mode ≠ "disabled"

/-- `_REASONING_EVENT`. -/
def reasoningEvent (mode : String) : String :=
  if mode = "reasoning_text" then "reasoning_text" else "reasoning_summary_text"

/-- `_REASONING_PART_EVENT`. -/
def reasoningPartEvent (mode : String) : String :=
  if mode = "reasoning_text" then "reasoning_text_part" else "reasoning_summary_part"

/-- The part of a reasoning item. -/
def summaryPart (text : String) : Json :=
  .obj [("type", .str "summary_text"), ("text", .str text)]

/-- The item of the reasoning. -/
def reasoningItem (rea : EphemeralReasoningAccumulator) (extra : Fields) : OutputItem where
  id := rea.itemId
  outputIndex := rea.outputIndex
  itemType := .reasoning
  extra := extra

variable (env : TurnEnv)

/-- A frame about the reasoning. -/
def reasoningDelta (event : String) (rea : EphemeralReasoningAccumulator) (key : String)
    (v : Json) : TurnBridge → TurnBridge × List WireEvent :=
  call (·.delta ("response." ++ event)
    (itemFields rea.itemId rea.outputIndex ++ [("summary_index", .int 0), (key, v)]))

/-- `_open_reasoning`. -/
def openReasoning (s : TurnBridge) : TurnBridge × List WireEvent :=
  if !reasoningEnabled env || s.acc.reasoning.isSome then (s, [])
  else
    let rea : EphemeralReasoningAccumulator :=
      ⟨s.acc.nextIndex, makeReasoningItemId s.acc.responseId s.acc.nextIndex, "", false⟩
    andThen (call (·.openItem (reasoningItem rea [])))
      (reasoningDelta (reasoningPartEvent env.mode ++ ".added") rea "part" (summaryPart ""))
      { s with acc := { s.acc with reasoning := some rea, nextIndex := s.acc.nextIndex + 1 } }

/-- `_emit_reasoning_delta`. -/
def emitReasoningDelta (text : String) (s : TurnBridge) : TurnBridge × List WireEvent :=
  if !reasoningEnabled env then (s, [])
  else
    match s.acc.reasoning with
    | none => (s, [])
    | some rea =>
      if text = "" then (s, [])
      else
        reasoningDelta (reasoningEvent env.mode ++ ".delta") rea "delta" (.str text)
          { s with acc := { s.acc with reasoning := some { rea with text := rea.text ++ text } } }

/-- `_close_reasoning`. -/
def closeReasoning (status : String) (s : TurnBridge) : TurnBridge × List WireEvent :=
  if !reasoningEnabled env then (s, [])
  else
    match s.acc.reasoning with
    | none => (s, [])
    | some rea =>
      if rea.done then (s, [])
      else
        andThen (reasoningDelta (reasoningEvent env.mode ++ ".done") rea "text" (.str rea.text))
          (andThen
            (reasoningDelta (reasoningPartEvent env.mode ++ ".done") rea "part"
              (summaryPart rea.text))
            (call (·.closeItem (reasoningItem rea [("summary", .arr [summaryPart rea.text])])
              status)))
          { s with acc := { s.acc with reasoning := some { rea with done := true } } }

/-! ### Content -/

/-- `content.split(word)`. -/
def splitText (word : String) (content : String) : List (List Char) :=
  (separate word.toList [] content.toList).1 ++ [(separate word.toList [] content.toList).2]

/-- `content.replace(word, "")`. -/
def dropWord (word : String) (content : String) : String :=
  String.ofList (splitText word content).flatten

/-- `word in content`. -/
def hasWord (word content : String) : Bool := isInfix word.toList content.toList

/-- What is left of a content without the first wrapper. -/
def unwrapThinking (content : String) : String :=
  if hasWord " thinking" content then dropWord " thinking" content else content

/-- `think_part`. -/
def thinkPart (content : String) : String :=
  String.ofList ((splitText " response" content).headD [])

/-- `text_part`, or all of the content. -/
def textOf (content : String) : String :=
  if hasWord " response" content then
    String.ofList ((" response".toList).intercalate (splitText " response" content).tail)
  else content

/-- `_handle_content`. -/
def handleContent (content : String) (s : TurnBridge) : TurnBridge × List WireEvent :=
  let rest := unwrapThinking content
  andThen (callIf (hasWord " thinking" content) (openReasoning env))
    (andThen
      (callIf (hasWord " response" rest)
        (andThen (emitReasoningDelta env (thinkPart rest)) (closeReasoning env "completed")))
      (callIf (textOf rest ≠ "") (emitText (textOf rest)))) s

/-! ### Tool calls -/

/-- `_tool_item_id`. -/
def toolItemId (acc : ToolCallAccumulator) : String :=
  if acc.itemId = "" then makeFunctionCallItemId acc.callId else acc.itemId

/-- The item of a tool call. -/
def toolItem (acc : ToolCallAccumulator) (extra : Fields) : OutputItem where
  id := toolItemId acc
  outputIndex := acc.outputIndex
  itemType := .functionCall
  callId := acc.callId
  name := acc.name
  extra := extra ++ Emitter.textField "namespace" acc.nameSpace

/-- `_open_tool_call`. -/
def openToolCall (acc : ToolCallAccumulator) : TurnBridge → TurnBridge × List WireEvent :=
  call (·.openItem (toolItem acc []))

/-- `_emit_tool_args_delta`. -/
def emitToolArgsDelta (acc : ToolCallAccumulator) (arguments : String) :
    TurnBridge → TurnBridge × List WireEvent :=
  call (·.delta "response.function_call_arguments.delta"
    (itemFields (toolItemId acc) acc.outputIndex ++ [("delta", .str arguments)]))

/-- The name and the namespace of a call that is opened. -/
def nameNew (tool : TurnTool) (acc : ToolCallAccumulator) : ToolCallAccumulator :=
  let split := splitNamespaceName tool.name
  let acc := acc.replaceName (if split.2 = "" then tool.name else split.2)
  if split.1 = "" then acc else { acc with nameSpace := split.1 }

/-- The name, the namespace and the call id that a fragment of a known call brings. -/
def nameKnown (tool : TurnTool) (acc : ToolCallAccumulator) : ToolCallAccumulator :=
  let split := splitNamespaceName tool.name
  let acc := acc.replaceName (if split.1 = "" then tool.name else split.2)
  (if split.1 = "" then acc else { acc with nameSpace := split.1 }).bindCallId tool.callId

/-- A change of a tool call. -/
def modifyTool (ref : ℕ) (f : ToolCallAccumulator → ToolCallAccumulator) (s : TurnBridge) :
    TurnBridge :=
  { s with acc := { s.acc with tools := s.acc.tools.modify ref f } }

/-- A frame about a tool call. -/
def withTool (ref : ℕ) (f : ToolCallAccumulator → TurnBridge → TurnBridge × List WireEvent)
    (s : TurnBridge) : TurnBridge × List WireEvent :=
  match s.acc.tools.accs[ref]? with
  | some acc => f acc s
  | none => (s, [])

/-- The object that a fragment belongs to, which is opened when it is new. -/
def findTool (tool : TurnTool) (s : TurnBridge) : ℕ × (TurnBridge × List WireEvent) :=
  match s.acc.tools.get tool.callId (some tool.index) with
  | some ref => (ref, s.modifyTool ref (nameKnown tool), [])
  | none =>
    let ensured := s.acc.tools.ensure s.acc.nextIndex tool.callId (some tool.index)
    let s :=
      { s with acc := { s.acc with tools := ensured.2, nextIndex := s.acc.nextIndex + 1 } }
    (ensured.1, withTool ensured.1 openToolCall (s.modifyTool ensured.1 (nameNew tool)))

/-- `_handle_tool_call`. -/
def handleToolCall (tool : TurnTool) (s : TurnBridge) : TurnBridge × List WireEvent :=
  let found := s.findTool tool
  andThen (fun _ => found.2)
    (callIf (tool.arguments ≠ "") fun s =>
      withTool found.1 (fun acc => emitToolArgsDelta acc tool.arguments)
        (s.modifyTool found.1 (·.appendArguments tool.arguments))) s

/-- The loop over `tool_calls`. -/
def handleToolCalls : List TurnTool → TurnBridge → TurnBridge × List WireEvent
  | [], s => (s, [])
  | tool :: tools, s => andThen (handleToolCall tool) (handleToolCalls tools) s

/-- `_close_tool_call`, on the object at a position. -/
def closeToolCall (status : String) (ref : ℕ) (s : TurnBridge) :
    Option (TurnBridge × List WireEvent) :=
  match s.acc.tools.accs[ref]? with
  | none => some (s, [])
  | some acc =>
    if acc.outputIndex ∈ s.toolDone then some (s, [])
    else
      let item := toolItem acc [("arguments", .str acc.arguments)]
      let verdict := acc.validate env.loads
      let s := { s.modifyTool ref (·.noteVerdict verdict) with
        toolDone := s.toolDone ++ [acc.outputIndex] }
      match verdict with
      | .valid =>
        some (andThen
          (call (·.delta "response.function_call_arguments.done"
            (itemFields (toolItemId acc) acc.outputIndex
              ++ [("arguments", .str acc.arguments)])))
          (call (·.closeItem item status)) s)
      | .invalid => some (call (·.closeItem item "incomplete") s)
      | .raised _ => none

/-! ### The end -/

/-- Calls one after another, as long as none raises. -/
def callAll (f : ℕ → TurnBridge → Option (TurnBridge × List WireEvent)) :
    List ℕ → TurnBridge → Option (TurnBridge × List WireEvent)
  | [], s => some (s, [])
  | ref :: refs, s =>
    (f ref s).bind fun first =>
      (callAll f refs first.1).map fun rest => (rest.1, first.2 ++ rest.2)

/-- The loop over the messages in `_close_all`. -/
def closeMessages (status : String) : List TextAccumulator → TurnBridge →
    TurnBridge × List WireEvent
  | [], s => (s, [])
  | msg :: msgs, s => andThen (closeMessage status msg) (closeMessages status msgs) s

/-- `_close_all`. -/
def closeAll (status : String) (s : TurnBridge) : Option (TurnBridge × List WireEvent) :=
  let first := andThen (closeMessages status s.acc.messages) (closeReasoning env status) s
  (callAll (closeToolCall env status) first.1.acc.tools.refs first.1).map fun rest =>
    (rest.1, first.2 ++ rest.2)

/-- `_emit_terminal`. -/
def emitTerminal (truncated : Bool) : TurnBridge → TurnBridge × List WireEvent :=
  if truncated then
    call (·.terminate env.toEmitterEnv .incomplete "" [("reason", .str "max_output_tokens")] [])
  else call (·.terminate env.toEmitterEnv .completed "" [] [])

/-- `_close_all` and the terminal event. -/
def closeTurn (truncated : Bool) (s : TurnBridge) : Option (TurnBridge × List WireEvent) :=
  (closeAll env (if truncated then "incomplete" else "completed") s).map fun closed =>
    andThen (fun _ => closed) (emitTerminal env truncated) s

/-- What `_process` does with a finish reason. -/
def handleFinish (reason : Option Json) (s : TurnBridge) :
    Option (TurnBridge × List WireEvent) :=
  match reason with
  | none => some (s, [])
  | some reason => closeTurn env (reason = .str "length") s

/-- The deltas of a choice. -/
def handleDeltas (choice : TurnChoice) : TurnBridge → TurnBridge × List WireEvent :=
  andThen
    (callIf (choice.reasoning ≠ "")
      (andThen (openReasoning env) (emitReasoningDelta env choice.reasoning)))
    (andThen (callIf (choice.content ≠ "") (handleContent env choice.content))
      (callIf (choice.tools ≠ [])
        (andThen closeCurrentMessage (handleToolCalls choice.tools))))

/-- `_process`. -/
def process (chunk : TurnChunk) (s : TurnBridge) : Option (TurnBridge × List WireEvent) :=
  let s := { s with usage := chunk.usage.getD s.usage }
  match chunk.choice with
  | none => some (s, [])
  | some choice =>
    let deltas := andThen ensureStarted (handleDeltas env choice) s
    (handleFinish env choice.finishReason deltas.1).map fun rest =>
      (rest.1, deltas.2 ++ rest.2)

/-- `_finish`. -/
def finish (s : TurnBridge) : Option (TurnBridge × List WireEvent) :=
  (closeTurn env false s.ensureStarted.1).map fun closed =>
    ({ closed.1 with acc := { closed.1.acc with reasoning := none }, finished := true },
      s.ensureStarted.2 ++ closed.2)

/-- `finish_safely`. -/
def finishSafely (s : TurnBridge) : Option (TurnBridge × List WireEvent) :=
  if s.finished then some (s, []) else finish env s

/-! ### Bytes -/

/-- What the parser hands over for a chunk of bytes. -/
inductive TurnItem
  | frame (frame : SseFrame)
  /-- The parser raised. -/
  | broken
deriving DecidableEq

/-- The frames that a chunk of bytes completes. -/
def scan (parser : Sse.Parser) (bytes : Bytes) : List TurnItem × Sse.Parser :=
  -- the parser of the bridge never asks `json.loads`
  let outcome := parser.feed (.default fun _ => .accepts) bytes
  (match outcome.result with
    | .ok frames => frames.map .frame
    | .error _ => [.broken], outcome.parser)

/-- What a frame says. -/
inductive TurnFrame
  /-- The sentinel, no data, or data that is not a JSON object. -/
  | nothing
  | object (fields : Fields)
  /-- `json.loads` raised something that is not caught. -/
  | broken
deriving DecidableEq

/-- The data of a frame. -/
def readFrame (frame : SseFrame) : TurnFrame :=
  let data := stripText frame.data
  if data = "[DONE]" ∨ data = "" then .nothing
  else
    match env.loads data with
    | .value (.obj fields) => .object fields
    | .value _ | .rejected => .nothing
    | .raised _ => .broken

/-- A frame, or the exception it raises. -/
def handleItem (s : TurnBridge) : TurnItem → Option (TurnBridge × List WireEvent)
  | .broken => none
  | .frame frame =>
    match readFrame env frame with
    | .nothing => some (s, [])
    | .broken => none
    | .object fields => (TurnChunk.read env.mode fields).bind fun chunk => s.process env chunk

/-- `feed` and `finish_safely`, which writes nothing when it raises. -/
def translator : Translator UInt8 Sse.Parser TurnItem TurnBridge WireEvent where
  scan := scan
  handle := handleItem env
  finished := TurnBridge.finished
  close s := ((finishSafely env s).map Prod.snd).getD []

end TurnBridge

end Zhongzhuan.Protocol
