import Zhongzhuan.Kit.Json
import Zhongzhuan.Protocol.Models
import Zhongzhuan.Protocol.ToolAccumulator

/-!
# The events of a response stream

The events `ResponsePipeline` emits, with the dictionaries the source builds for them, field
by field.  An event is its type and its `data`; `sseFrame` is the text both become on the
wire.  Items are dictionaries as well, so that an upstream item can be passed on as it came.
-/

namespace Zhongzhuan.Responses

open Kit Protocol

/-- The event types of the stream. -/
inductive EventType
  | created
  | inProgress
  | outputItemAdded
  | outputItemDone
  | reasoningSummaryPartAdded
  | reasoningSummaryTextDelta
  | reasoningSummaryTextDone
  | reasoningSummaryPartDone
  | contentPartAdded
  | outputTextDelta
  | outputTextDone
  | contentPartDone
  | functionCallArgumentsDelta
  | functionCallArgumentsDone
  | completed
  | failed
  | incomplete
deriving DecidableEq, Repr

/-- The name of an event type on the wire. -/
def EventType.value : EventType → String
  | .created => "response.created"
  | .inProgress => "response.in_progress"
  | .outputItemAdded => "response.output_item.added"
  | .outputItemDone => "response.output_item.done"
  | .reasoningSummaryPartAdded => "response.reasoning_summary_part.added"
  | .reasoningSummaryTextDelta => "response.reasoning_summary_text.delta"
  | .reasoningSummaryTextDone => "response.reasoning_summary_text.done"
  | .reasoningSummaryPartDone => "response.reasoning_summary_part.done"
  | .contentPartAdded => "response.content_part.added"
  | .outputTextDelta => "response.output_text.delta"
  | .outputTextDone => "response.output_text.done"
  | .contentPartDone => "response.content_part.done"
  | .functionCallArgumentsDelta => "response.function_call_arguments.delta"
  | .functionCallArgumentsDone => "response.function_call_arguments.done"
  | .completed => "response.completed"
  | .failed => "response.failed"
  | .incomplete => "response.incomplete"

/-- One event: what `_emit` is called with. -/
structure Event where
  type : EventType
  data : Fields
deriving DecidableEq, Repr

/-- `sse_frame`, before the encoding to UTF-8. -/
def sseFrame (event : Event) : String :=
  "event: " ++ event.type.value ++ "\ndata: " ++ dumps (.obj event.data) ++ "\n\n"

/-- An event whose `data` begins with its type. -/
def Event.make (type : EventType) (fields : Fields) : Event :=
  ⟨type, ("type", .str type.value) :: fields⟩

/-- A status an item or a response is reported with. -/
inductive Status
  | inProgress
  | completed
  | incomplete
  | failed
deriving DecidableEq, Repr

/-- The text of a status. -/
def Status.value : Status → String
  | .inProgress => "in_progress"
  | .completed => "completed"
  | .incomplete => "incomplete"
  | .failed => "failed"

/-- `"incomplete" if incomplete else "completed"`. -/
def closingStatus (incomplete : Bool) : Status := if incomplete then .incomplete else .completed

/-! ## Items -/

/-- A reasoning item; the summary is empty until the item is closed. -/
def reasoningItem (id : String) (status : Status) (summary : Option String) : Fields :=
  [("id", .str id), ("type", .str "reasoning"), ("status", .str status.value),
    ("summary", .arr (summary.toList.map fun text =>
      .obj [("type", .str "summary_text"), ("text", .str text)]))]

/-- A text part. -/
def textPart (text : String) : Json :=
  .obj [("type", .str "output_text"), ("text", .str text), ("annotations", .arr [])]

/-- The assistant message as the stream shows it; no content until it is closed. -/
def messageItem (id : String) (status : Status) (text : Option String) : Fields :=
  [("id", .str id), ("type", .str "message"), ("status", .str status.value),
    ("role", .str "assistant"), ("content", .arr (text.toList.map textPart))]

/-- `{"namespace": ns} if ns else {}`. -/
def namespaceField (nameSpace : String) : Fields :=
  if nameSpace = "" then [] else [("namespace", .str nameSpace)]

/-- `_tool_item_id`. -/
def toolItemId (acc : ToolCallAccumulator) : String :=
  if acc.itemId = "" then makeFunctionCallItemId acc.callId else acc.itemId

/-- A function call without its namespace. -/
def bareFunctionCallItem (acc : ToolCallAccumulator) (status : Status) (arguments : String) :
    Fields :=
  [("id", .str (toolItemId acc)), ("type", .str "function_call"),
    ("status", .str status.value), ("call_id", .str acc.callId), ("name", .str acc.name),
    ("arguments", .str arguments)]

/-- A function call. -/
def functionCallItem (acc : ToolCallAccumulator) (status : Status) (arguments : String) :
    Fields :=
  bareFunctionCallItem acc status arguments ++ namespaceField acc.nameSpace

/-! ## Events -/

/-- `response.output_item.added`. -/
def itemAdded (index : ℕ) (item : Fields) : Event :=
  .make .outputItemAdded [("output_index", .int index), ("item", .obj item)]

/-- `response.output_item.done`. -/
def itemDone (index : ℕ) (item : Fields) : Event :=
  .make .outputItemDone [("output_index", .int index), ("item", .obj item)]

/-- `response.reasoning_summary_part.added`. -/
def reasoningPartAdded (id : String) (index : ℕ) : Event :=
  .make .reasoningSummaryPartAdded
    [("item_id", .str id), ("output_index", .int index), ("summary_index", .int 0),
      ("part", .obj [("type", .str "summary_text"), ("text", .str "")])]

/-- `response.reasoning_summary_text.delta`. -/
def reasoningDelta (id : String) (index : ℕ) (delta : String) : Event :=
  .make .reasoningSummaryTextDelta
    [("item_id", .str id), ("output_index", .int index), ("summary_index", .int 0),
      ("delta", .str delta)]

/-- `response.reasoning_summary_text.done`. -/
def reasoningTextDone (id : String) (index : ℕ) (text : String) : Event :=
  .make .reasoningSummaryTextDone
    [("item_id", .str id), ("output_index", .int index), ("summary_index", .int 0),
      ("text", .str text)]

/-- `response.reasoning_summary_part.done`. -/
def reasoningPartDone (id : String) (index : ℕ) (text : String) : Event :=
  .make .reasoningSummaryPartDone
    [("item_id", .str id), ("output_index", .int index), ("summary_index", .int 0),
      ("part", .obj [("type", .str "summary_text"), ("text", .str text)])]

/-- `response.content_part.added`. -/
def contentPartAdded (index : ℕ) (id : String) : Event :=
  .make .contentPartAdded
    [("output_index", .int index), ("item_id", .str id), ("content_index", .int 0),
      ("part", textPart "")]

/-- `response.output_text.delta`. -/
def textDelta (index : ℕ) (delta : String) : Event :=
  .make .outputTextDelta [("output_index", .int index), ("delta", .str delta)]

/-- `response.output_text.done`. -/
def textDone (index : ℕ) (id text : String) : Event :=
  .make .outputTextDone
    [("output_index", .int index), ("item_id", .str id), ("content_index", .int 0),
      ("text", .str text)]

/-- `response.content_part.done`. -/
def contentPartDone (index : ℕ) (id text : String) : Event :=
  .make .contentPartDone
    [("output_index", .int index), ("item_id", .str id), ("content_index", .int 0),
      ("part", textPart text)]

/-- `response.function_call_arguments.delta`. -/
def argumentsDelta (index : ℕ) (callId delta : String) : Event :=
  .make .functionCallArgumentsDelta
    [("output_index", .int index), ("call_id", .str callId), ("delta", .str delta)]

/-- `response.function_call_arguments.done`. -/
def argumentsDone (index : ℕ) (callId arguments : String) : Event :=
  .make .functionCallArgumentsDone
    [("output_index", .int index), ("call_id", .str callId), ("arguments", .str arguments)]

/-- `response.created` and `response.in_progress`. -/
def openingEvents (responseId : String) : List Event :=
  let response : Json :=
    .obj [("id", .str responseId), ("status", .str Status.inProgress.value)]
  [.make .created [("response", response)], .make .inProgress [("response", response)]]

/-- The terminal event of a status. -/
def terminalType : Status → EventType
  | .incomplete => .incomplete
  | .failed => .failed
  | .completed | .inProgress => .completed

/-- The terminal event of a truncated stream.  `sanitize_message` leaves the message of
`incomplete_details` as it is: no reason has a credential or a run of white space in it. -/
def truncatedEvent (responseId : String) (status : Status) (reason : TerminalReason) : Event :=
  .make (terminalType status) [("response", .obj
    [("id", .str responseId), ("status", .str status.value),
      ("incomplete_details", .obj [("reason", .str reason.value),
        ("message", .str ("upstream stream terminated: " ++ reason.value))]),
      ("terminal_reason", .str reason.value)])]

/-- The terminal event of a finished stream. -/
def completedEvent (responseId : String) : Event :=
  .make .completed [("response", .obj
    [("id", .str responseId), ("status", .str Status.completed.value)])]

/-- The terminal event of an exception inside the pipeline. -/
def internalFailedEvent (responseId message : String) : Event :=
  .make .failed [("response", .obj
    [("id", .str responseId), ("status", .str Status.failed.value),
      ("error", .obj [("type", .str "server_error"), ("message", .str message)]),
      ("terminal_reason", .str TerminalReason.upstreamError.value)])]

end Zhongzhuan.Responses
