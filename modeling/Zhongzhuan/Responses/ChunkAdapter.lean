import Zhongzhuan.Protocol.SseParser
import Zhongzhuan.Responses.Pipeline

/-!
# `UpstreamSSEChunkAdapter`: from upstream frames to chunks

The model of `responses_v3/upstream_chunk_adapter.py`, in its three dialects.

* `Adapter` is the object; `trackTool`, `closeTool`, `closeAllTools` and `finish` are the
  bookkeeping all dialects share.
* `frameToChunks` translates one complete frame.  It raises when `json.loads` raises
  something other than a `ValueError` or a `TypeError`, and when `int` meets an infinity:
  `_int_or` does not catch the `OverflowError`.
* `iterChunks` is the generator over a list of byte strings: the parser, the translation of
  each frame, and the flush at the end.  An exception ends it; the chunks yielded before stay.

What `int` does with a string or a float, and what `str` does with a value that is not a
string, are parameters of `AdapterEnv`.  The count of dropped events and the log are left out.
-/

namespace Zhongzhuan.Responses

open Kit Protocol

/-- The wire dialects. -/
inductive Dialect
  | openai
  | anthropic
  | responses
deriving DecidableEq, Repr

/-- The dialect an adapter decodes, and what it calls outside itself. -/
structure AdapterEnv where
  dialect : Dialect
  loads : String → Loaded
  /-- `int(text)`; `none` is the `ValueError`. -/
  intOfText : String → Option ℤ
  /-- `int(x)` of a float: `none` is the `ValueError` of a NaN, an error the text of the
  `OverflowError` of an infinity. -/
  intOfFloat : String → Except String (Option ℤ)
  /-- `str(v)` of a value that is not a string. -/
  strOf : Json → String

namespace AdapterEnv

/-- `_loads`. -/
def loadsObject (env : AdapterEnv) (data : String) : Except String (Option Fields) :=
  let text := stripText data
  if text = "" ∨ text = "[DONE]" then .ok none
  else
    match env.loads text with
    | .value (.obj fields) => .ok (some fields)
    | .value _ | .rejected => .ok none
    | .raised message => .error message

/-- `_int_or(value, 0)`. -/
def intOr (env : AdapterEnv) : Option Json → Except String ℤ
  | some (.int n) => .ok n
  | some (.bool b) => .ok (if b then 1 else 0)
  | some (.str text) => .ok ((env.intOfText text).getD 0)
  | some (.float text) => (env.intOfFloat text).map (·.getD 0)
  | none | some .null | some (.arr _) | some (.obj _) => .ok 0

/-- `str(value or "")`. -/
def strOr (env : AdapterEnv) : Option Json → String
  | none => ""
  | some (.str text) => text
  | some v => if v.truthy then env.strOf v else ""

end AdapterEnv

/-- `a or b` on the results of two `get` calls. -/
def orElse (a b : Option Json) : Option Json :=
  match a with
  | some v => if v.truthy then some v else b
  | none => b

/-- `value if isinstance(value, dict) else {}`. -/
def fieldsOf : Option Json → Fields
  | some (.obj fields) => fields
  | _ => []

/-- The items of a list; what is not a list is passed over like an empty one. -/
def itemsOf : Option Json → List Json
  | some (.arr items) => items
  | _ => []

/-- The attributes of `UpstreamSSEChunkAdapter` beside its parser. -/
structure Adapter where
  finished : Bool := false
  openTools : Dict ℤ String := .empty
  /-- A set. -/
  closedTools : List ℤ := []
  usage : Fields := []

namespace Adapter

/-! ## Tool bookkeeping -/

/-- `_track_tool`. -/
def trackTool (a : Adapter) (index : ℤ) (callId : String) : Adapter :=
  if index ∈ a.closedTools then a
  else
    let known := (a.openTools.get? index).getD ""
    { a with openTools := a.openTools.set index (if callId = "" then known else callId) }

/-- `_close_tool`. -/
def closeTool (a : Adapter) (index : ℤ) : Adapter × List Chunk :=
  if index ∈ a.closedTools then (a, [])
  else
    match a.openTools.get? index with
    | none => (a, [])
    | some callId =>
      ({ a with
          openTools := a.openTools.erase index
          closedTools := a.closedTools ++ [index] },
        [.toolCallDone callId "" (some index)])

/-- The loop of `_close_all_tools`. -/
def closeTools (a : Adapter) : List ℤ → Adapter × List Chunk
  | [] => (a, [])
  | index :: rest =>
    let closed := a.closeTool index
    let more := closed.1.closeTools rest
    (more.1, closed.2 ++ more.2)

/-- `_close_all_tools`: in the order the calls were opened. -/
def closeAllTools (a : Adapter) : Adapter × List Chunk := a.closeTools a.openTools.keys

/-- `_finish`. -/
def finish (a : Adapter) : Adapter × List Chunk :=
  if a.finished then (a, [])
  else
    let closed := { a with finished := true }.closeAllTools
    (closed.1, closed.2 ++ [.finish])

/-! ## Usage -/

/-- The first of several spellings of a count that is present, under its common name. -/
def countField (env : AdapterEnv) (usage : Fields) (name : String) :
    List String → Except String Fields
  | [] => .ok []
  | key :: keys =>
    match usage.get key with
    | some v => do return [(name, .int (← env.intOr (some v)))]
    | none => countField env usage name keys

/-- The usage object of a payload: its own, or that of its `response`. -/
def usageOf (payload : Fields) : Fields :=
  match fieldsOf (payload.get "usage") with
  | [] => fieldsOf ((fieldsOf (payload.get "response")).get "usage")
  | usage => usage

/-- The counts `_capture_usage` reads from a payload. -/
def normalUsage (env : AdapterEnv) (payload : Fields) : Except String Fields := do
  let usage := usageOf payload
  let input ← countField env usage "input_tokens" ["input_tokens", "prompt_tokens"]
  let output ← countField env usage "output_tokens" ["output_tokens", "completion_tokens"]
  let total ← countField env usage "total_tokens" ["total_tokens"]
  return input ++ output ++ total

/-- The counts of a payload that has a `usage` field at all. -/
def reportedUsage (env : AdapterEnv) (payload : Fields) : Except String Fields :=
  if (payload.get "usage").isSome then normalUsage env payload else .ok []

/-- The end of `_capture_usage`: no counts leave the last ones in place. -/
def noteUsage (a : Adapter) (norm : Fields) : Adapter :=
  if norm = [] then a else { a with usage := norm }

/-- `_capture_usage`. -/
def captureUsage (env : AdapterEnv) (a : Adapter) (payload : Fields) :
    Except String Adapter := do
  return a.noteUsage (← normalUsage env payload)

/-! ## Chat Completions -/

/-- `_openai_tool_calls` on the entries of an array. -/
def openaiToolCalls (env : AdapterEnv) (a : Adapter) :
    List Json → Except String (Adapter × List Chunk)
  | [] => .ok (a, [])
  | .obj entry :: rest => do
    let index ← env.intOr (Fields.get entry "index")
    let function := fieldsOf (Fields.get entry "function")
    let callId := env.strOr (Fields.get entry "id")
    let more ← openaiToolCalls env (a.trackTool index callId) rest
    return (more.1,
      .toolCall callId (env.strOr (function.get "name")) (env.strOr (function.get "arguments"))
        "" (some index) :: more.2)
  | _ :: rest => openaiToolCalls env a rest

/-- A field of a delta that is a nonempty string. -/
def nonemptyText (delta : Fields) (key : String) : Option String :=
  match delta.get key with
  | some (.str text) => if text = "" then none else some text
  | _ => none

/-- The `delta` of a choice. -/
def openaiDelta (env : AdapterEnv) (a : Adapter) (delta : Fields) :
    Except String (Adapter × List Chunk) := do
  let text := (nonemptyText delta "content").toList.map Chunk.text
  let reasoning := (nonemptyText delta "reasoning_content").toList.map Chunk.reasoning
  let calls ← openaiToolCalls env a (itemsOf (delta.get "tool_calls"))
  return (calls.1, text ++ reasoning ++ calls.2)

/-- The loop over the choices. -/
def openaiChoices (env : AdapterEnv) (a : Adapter) :
    List Json → Except String (Adapter × List Chunk)
  | [] => .ok (a, [])
  | .obj choice :: rest => do
    let read ← openaiDelta env a (fieldsOf (Fields.get choice "delta"))
    let stopped :=
      if ((Fields.get choice "finish_reason").getD .null).truthy then read.1.finish
      else (read.1, [])
    let more ← openaiChoices env stopped.1 rest
    return (more.1, read.2 ++ stopped.2 ++ more.2)
  | _ :: rest => openaiChoices env a rest

/-- `_openai_chunks`; the usage is captured when the payload has the field. -/
def openaiChunks (env : AdapterEnv) (a : Adapter) (payload : Fields) :
    Except String (Adapter × List Chunk) := do
  let read ← openaiChoices env a (itemsOf (payload.get "choices"))
  let norm ← reportedUsage env payload
  return (read.1.noteUsage norm, read.2)

/-! ## Anthropic -/

/-- `_anthropic_block_start`. -/
def anthropicBlockStart (env : AdapterEnv) (a : Adapter) (payload : Fields) :
    Except String (Adapter × List Chunk) :=
  match payload.get "content_block" with
  | some (.obj block) =>
    if Fields.get block "type" = some (.str "tool_use") then do
      let index ← env.intOr (payload.get "index")
      let callId := env.strOr (Fields.get block "id")
      return (a.trackTool index callId,
        [.toolCall callId (env.strOr (Fields.get block "name")) "" "" (some index)])
    else .ok (a, [])
  | _ => .ok (a, [])

/-- `_anthropic_block_delta`. -/
def anthropicBlockDelta (env : AdapterEnv) (a : Adapter) (payload : Fields) :
    Except String (List Chunk) :=
  match payload.get "delta" with
  | some (.obj delta) =>
    let type := env.strOr (Fields.get delta "type")
    if type = "text_delta" then
      let text := env.strOr (Fields.get delta "text")
      .ok (if text = "" then [] else [.text text])
    else if type = "input_json_delta" then do
      let index ← env.intOr (payload.get "index")
      return [.toolCall ((a.openTools.get? index).getD "") ""
        (env.strOr (Fields.get delta "partial_json")) "" (some index)]
    else .ok []
  | _ => .ok []

/-- `_anthropic_chunks`. -/
def anthropicChunks (env : AdapterEnv) (a : Adapter) (event : String) (payload : Fields) :
    Except String (Adapter × List Chunk) :=
  if event = "message_stop" then .ok a.finish
  else if event = "message_delta" then do
    let a ←
      match payload.get "usage" with
      | some (.obj _) => a.captureUsage env payload
      | _ => .ok a
    let delta := fieldsOf (payload.get "delta")
    return if ((delta.get "stop_reason").getD .null).truthy then a.finish else (a, [])
  else if event = "content_block_start" then a.anthropicBlockStart env payload
  else if event = "content_block_delta" then do return (a, ← a.anthropicBlockDelta env payload)
  else if event = "content_block_stop" then do
    return a.closeTool (← env.intOr (payload.get "index"))
  else .ok (a, [])

/-! ## Native Responses -/

/-- The items a native upstream announces that are passed on. -/
def nativeItem (env : AdapterEnv) (type : String) (payload : Fields) :
    Except String (List Chunk) :=
  match payload.get "item" with
  | some (.obj item) =>
    if env.strOr (Fields.get item "type") ∈ ["message", "function_call"] then .ok []
    else do
      let index ← env.intOr (payload.get "output_index")
      return [.rawOutputItem type (Fields.put "output_index" (.int index) item)]
  | _ => .ok []

/-- A fragment of arguments from a native upstream. -/
def nativeArguments (env : AdapterEnv) (a : Adapter) (payload : Fields) :
    Except String (Adapter × List Chunk) := do
  let index ← env.intOr (payload.get "output_index")
  let callId := env.strOr (orElse (payload.get "call_id") (payload.get "item_id"))
  let own := env.strOr (payload.get "namespace")
  let nameSpace :=
    if own = "" then env.strOr ((fieldsOf (payload.get "item")).get "namespace") else own
  return (a.trackTool index callId,
    [.toolCall callId (env.strOr (payload.get "name")) (env.strOr (payload.get "delta"))
      nameSpace (some index)])

/-- `_native_chunks`. -/
def nativeChunks (env : AdapterEnv) (a : Adapter) (event : String) (payload : Fields) :
    Except String (Adapter × List Chunk) :=
  let type := env.strOr (orElse (payload.get "type") (some (.str event)))
  let delta := env.strOr (payload.get "delta")
  if type = "response.output_text.delta" then
    .ok (a, if delta = "" then [] else [.text delta])
  else if type = "response.output_item.added" ∨ type = "response.output_item.done" then do
    return (a, ← nativeItem env type payload)
  else if type = "response.reasoning_summary_text.delta" then
    .ok (a, if delta = "" then [] else [.reasoning delta])
  else if type = "response.function_call_arguments.delta" then a.nativeArguments env payload
  else if type = "response.function_call_arguments.done" then do
    return a.closeTool (← env.intOr (payload.get "output_index"))
  else if type ∈ ["response.completed", "response.failed", "response.incomplete"] then do
    return (← a.captureUsage env payload).finish
  else .ok (a, [])

/-! ## Frames and bytes -/

/-- `SseFrame.is_done_sentinel`. -/
def isDoneSentinel (frame : SseFrame) : Bool := stripText frame.data = "[DONE]"

/-- `SseFrame.event_type`. -/
def eventType (frame : SseFrame) : String :=
  match frame.event with
  | some event => if event = "" then "message" else event
  | none => "message"

/-- `_frame_to_chunks`. -/
def frameToChunks (env : AdapterEnv) (a : Adapter) (frame : SseFrame) :
    Except String (Adapter × List Chunk) :=
  if isDoneSentinel frame then .ok a.finish
  else do
    match ← env.loadsObject frame.data with
    | none => return (a, [])
    | some payload =>
      match env.dialect with
      | .anthropic => a.anthropicChunks env (eventType frame) payload
      | .responses => a.nativeChunks env (eventType frame) payload
      | .openai => a.openaiChunks env payload

end Adapter

/-- The generator `iter_chunks` between two steps: what it has yielded, and whether an
exception has ended it. -/
structure Adapting where
  adapter : Adapter := {}
  yielded : List Chunk := []
  broken : Bool := false

namespace Adapting

/-- One frame. -/
def frame (env : AdapterEnv) (g : Adapting) (frame : SseFrame) : Adapting :=
  if g.broken then g
  else
    match g.adapter.frameToChunks env frame with
    | .error _ => { g with broken := true }
    | .ok done => { g with adapter := done.1, yielded := g.yielded ++ done.2 }

/-- The frames one call of the parser returns, or the exception it raises. -/
def frames (env : AdapterEnv) (g : Adapting) : Except PyError (List SseFrame) → Adapting
  | .error _ => { g with broken := true }
  | .ok frames => runSchedule (Adapting.frame env) g frames

end Adapting

/-- `SSEParser()`, which does not look at the JSON of a frame. -/
def adapterParser : Sse.Config := .default fun _ => .accepts

/-- The loop of `iter_chunks` over the byte strings, with the parser. -/
def feedAll (env : AdapterEnv) (parser : Sse.Parser) (g : Adapting) :
    List Bytes → Sse.Parser × Adapting
  | [] => (parser, g)
  | raw :: rest =>
    if raw = [] ∨ g.broken then feedAll env parser g rest
    else
      let fed := parser.feed adapterParser raw
      feedAll env fed.parser (g.frames env fed.result) rest

/-- `iter_chunks`: the chunks of a byte stream. -/
def iterChunks (env : AdapterEnv) (stream : List Bytes) : Adapting :=
  let fed := feedAll env .fresh {} stream
  if fed.2.broken then fed.2 else fed.2.frames env (fed.1.flush adapterParser).result

end Zhongzhuan.Responses
