import Zhongzhuan.Kit.Dict
import Zhongzhuan.Kit.Fields
import Zhongzhuan.Kit.ItemStream
import Zhongzhuan.Kit.JsonText
import Zhongzhuan.Kit.Schedule
import Zhongzhuan.Kit.Utf8

/-!
# `ResponsesEventEmitter`

The model of `proxy/protocol/responses_emitter.py` with the transition table of
`responses_models.py`: the writer of the events of one response.

* `isLegalTransition` is the table; `Emitter.transition` refuses a move that is not in it.
* `start`, `openItem`, `closeItem`, `delta` and `terminate` return the frames they write.
* A `Call` is a call of one of them with its arguments, and `emit` makes it.

What is left open at the end is closed in the order in which Python iterates over a set, which
is a parameter (`SetOrder`).  The counters of `EmitStats` are left out; no method reads them.
-/

namespace Zhongzhuan.Protocol

open Kit

/-- `EmitterState`. -/
inductive EmitterState
  | init
  | queued
  | created
  | inProgress
  | streaming
  | completing
  | completed
  | failed
  | incomplete
  | cancelled
deriving DecidableEq, Repr

namespace EmitterState

/-- The string of the enumeration member. -/
def value : EmitterState → String
  | .init => "init"
  | .queued => "queued"
  | .created => "created"
  | .inProgress => "in_progress"
  | .streaming => "streaming"
  | .completing => "completing"
  | .completed => "completed"
  | .failed => "failed"
  | .incomplete => "incomplete"
  | .cancelled => "cancelled"

/-- `TERMINAL_EMITTER_STATES`. -/
def terminal : List EmitterState := [.completed, .failed, .incomplete, .cancelled]

/-- `ALLOWED_TRANSITIONS`. -/
def allowedTransitions : EmitterState → List EmitterState
  | .init => [.queued, .created]
  | .queued => [.created]
  | .created => [.inProgress]
  | .inProgress => [.streaming, .completing]
  | .streaming => [.streaming, .completing]
  | .completing => terminal
  | .completed | .failed | .incomplete | .cancelled => []

/-- `is_legal_transition`. -/
def isLegalTransition (src dst : EmitterState) : Bool := dst ∈ src.allowedTransitions

/-- `transition_label`. -/
def transitionLabel (src dst : EmitterState) : String := src.value ++ "->" ++ dst.value

end EmitterState

/-- `ResponseStatus`. -/
inductive ResponseStatus
  | queued
  | inProgress
  | completed
  | failed
  | incomplete
  | cancelled
deriving DecidableEq, Repr

namespace ResponseStatus

/-- The string of the enumeration member. -/
def value : ResponseStatus → String
  | .queued => "queued"
  | .inProgress => "in_progress"
  | .completed => "completed"
  | .failed => "failed"
  | .incomplete => "incomplete"
  | .cancelled => "cancelled"

/-- The state `terminate` leaves. -/
def emitterState : ResponseStatus → EmitterState
  | .failed => .failed
  | .incomplete => .incomplete
  | .cancelled => .cancelled
  | .completed | .queued | .inProgress => .completed

end ResponseStatus

/-- `ItemType`. -/
inductive ItemType
  | message
  | reasoning
  | functionCall
  | functionCallOutput
  | customToolCall
  | customToolCallOutput
  | fileSearchCall
  | webSearchCall
  | computerCall
  | computerCallOutput
  | codeInterpreterCall
  | imageGenerationCall
  | localShellCall
  | localShellCallOutput
  | mcpCall
  | mcpListTools
  | mcpApprovalRequest
  | mcpApprovalResponse
deriving DecidableEq, Repr

/-- The string of the enumeration member. -/
def ItemType.value : ItemType → String
  | .message => "message"
  | .reasoning => "reasoning"
  | .functionCall => "function_call"
  | .functionCallOutput => "function_call_output"
  | .customToolCall => "custom_tool_call"
  | .customToolCallOutput => "custom_tool_call_output"
  | .fileSearchCall => "file_search_call"
  | .webSearchCall => "web_search_call"
  | .computerCall => "computer_call"
  | .computerCallOutput => "computer_call_output"
  | .codeInterpreterCall => "code_interpreter_call"
  | .imageGenerationCall => "image_generation_call"
  | .localShellCall => "local_shell_call"
  | .localShellCallOutput => "local_shell_call_output"
  | .mcpCall => "mcp_call"
  | .mcpListTools => "mcp_list_tools"
  | .mcpApprovalRequest => "mcp_approval_request"
  | .mcpApprovalResponse => "mcp_approval_response"

/-- `OutputItem`, without the status, which the emitter does not read. -/
structure OutputItem where
  id : String
  outputIndex : ℕ
  itemType : ItemType
  role : String := ""
  callId : String := ""
  name : String := ""
  extra : Fields := []
deriving DecidableEq, Repr

/-- An event on the wire. -/
structure WireEvent where
  event : String
  data : Fields
deriving DecidableEq, Repr

/-- The bytes of an event. -/
def WireEvent.bytes (e : WireEvent) : List UInt8 :=
  Utf8.encode ("event: " ++ e.event ++ "\ndata: " ++ compactDumps (.obj e.data) ++ "\n\n").toList

/-- What a call of the emitter writes. -/
inductive Written
  | event (e : WireEvent)
  /-- `SSE_HEARTBEAT_FRAME`. -/
  | heartbeat
deriving DecidableEq, Repr

/-- The order in which Python iterates over a set of strings. -/
structure SetOrder where
  order : List String → List String
  perm : ∀ ids, (order ids).Perm ids

/-- What the emitter calls outside itself. -/
structure EmitterEnv where
  setOrder : SetOrder
  /-- `sanitize_message`. -/
  sanitize : String → String

/-- `ResponsesEventEmitter`. -/
structure Emitter where
  responseId : String
  model : String
  createdAt : ℤ
  state : EmitterState
  seq : ℕ
  completedEmitted : Bool
  /-- A set. -/
  openItems : List String
  announcedItems : Dict String OutputItem
  /-- A set. -/
  doneItems : List String
  illegal : List String
deriving DecidableEq

namespace Emitter

/-- A new emitter. -/
def fresh (responseId model : String) (createdAt : ℤ) : Emitter where
  responseId := responseId
  model := model
  createdAt := createdAt
  state := .init
  seq := 0
  completedEmitted := false
  openItems := []
  announcedItems := .empty
  doneItems := []
  illegal := []

/-- `self._illegal.append(...)`. -/
def refuse (e : Emitter) (label : String) : Emitter := { e with illegal := e.illegal ++ [label] }

/-- `_transition`. -/
def transition (e : Emitter) (dst : EmitterState) : Emitter :=
  if e.state.isLegalTransition dst then { e with state := dst }
  else e.refuse (e.state.transitionLabel dst)

/-- `_frame`. -/
def frame (e : Emitter) (event : String) (data : Fields) : Emitter × WireEvent :=
  ({ e with seq := e.seq + 1 },
    ⟨event, Fields.put "sequence_number" (.int (e.seq + 1 : ℕ)) data⟩)

/-- `_response_object`. -/
def responseObject (e : Emitter) (status : String) : Fields :=
  [("id", .str e.responseId), ("object", .str "response"), ("created_at", .int e.createdAt),
    ("status", .str status), ("model", .str e.model), ("output", .arr []), ("error", .null)]

/-- The frame of a change of the response. -/
def responseFrame (e : Emitter) (event : String) (response : Fields) : Emitter × WireEvent :=
  e.frame event [("type", .str event), ("response", .obj response)]

/-- `start`. -/
def start (e : Emitter) : Emitter × List WireEvent :=
  if e.state ≠ .init then (e, [])
  else
    let e := e.transition .created
    let (e, created) := e.responseFrame "response.created" (e.responseObject "in_progress")
    let e := e.transition .inProgress
    let (e, inProgress) := e.responseFrame "response.in_progress" (e.responseObject "in_progress")
    (e, [created, inProgress])

/-- `d.update(other)`. -/
def updateFields (fields other : Fields) : Fields :=
  other.foldl (fun fields field => Fields.put field.1 field.2 fields) fields

/-- A field that is left out when it is empty. -/
def textField (key text : String) : Fields := if text = "" then [] else [(key, .str text)]

/-- `_item_wire`. -/
def itemWire (item : OutputItem) (status : String) : Fields :=
  updateFields
    ([("id", .str item.id), ("type", .str item.itemType.value), ("status", .str status)]
      ++ textField "role" item.role ++ textField "call_id" item.callId
      ++ textField "name" item.name)
    item.extra

/-- The frame of a change of an item. -/
def itemFrame (e : Emitter) (event : String) (outputIndex : ℕ) (item : Fields) :
    Emitter × WireEvent :=
  e.frame event
    [("type", .str event), ("output_index", .int outputIndex), ("item", .obj item)]

/-- `open_item`. -/
def openItem (e : Emitter) (item : OutputItem) : Emitter × List WireEvent :=
  if item.id ∈ e.openItems ∨ item.id ∈ e.doneItems then
    (e.refuse ("duplicate_added:" ++ item.id), [])
  else
    let e := e.transition .streaming
    let e :=
      { e with
        openItems := e.openItems ++ [item.id]
        announcedItems := e.announcedItems.set item.id item }
    let (e, added) := e.itemFrame "response.output_item.added" item.outputIndex
      (itemWire item "in_progress")
    (e, [added])

/-- An item is no longer open. -/
def settle (e : Emitter) (id : String) : Emitter :=
  { e with
    openItems := e.openItems.filter (· ≠ id)
    announcedItems := e.announcedItems.erase id
    doneItems := e.doneItems ++ [id] }

/-- `close_item`. -/
def closeItem (e : Emitter) (item : OutputItem) (status : String) : Emitter × List WireEvent :=
  if item.id ∈ e.doneItems then (e, [])
  else if item.id ∉ e.openItems then (e.refuse ("close_without_open:" ++ item.id), [])
  else
    let (e, done) := (e.settle item.id).itemFrame "response.output_item.done" item.outputIndex
      (itemWire item status)
    (e, [done])

/-- `delta`. -/
def delta (e : Emitter) (event : String) (data : Fields) : Emitter × List WireEvent :=
  if e.state ∈ EmitterState.terminal then (e.refuse ("delta_after_terminal:" ++ event), [])
  else
    let (e, frame) := (e.transition .streaming).frame event (Fields.put "type" (.str event) data)
    (e, [frame])

/-- `_close_open_item`. -/
def closeOpenItem (e : Emitter) (id : String) : Emitter × WireEvent :=
  match e.announcedItems.get? id with
  | some item =>
    (e.settle id).itemFrame "response.output_item.done" item.outputIndex
      (itemWire item "incomplete")
  | none =>
    (e.settle id).itemFrame "response.output_item.done" 0
      [("id", .str id), ("status", .str "incomplete")]

/-- The loop over the open items in `terminate`. -/
def closeOpenItems (e : Emitter) : List String → Emitter × List WireEvent
  | [] => (e, [])
  | id :: ids =>
    let (e, done) := e.closeOpenItem id
    let (e, more) := e.closeOpenItems ids
    (e, done :: more)

/-- A field that is left out when the object is empty. -/
def objectField (key : String) (fields : Fields) : Fields :=
  if fields = [] then [] else [(key, .obj fields)]

/-- The response object of a terminal event. -/
def terminalObject (env : EmitterEnv) (e : Emitter) (status : ResponseStatus)
    (terminalReason : String) (incompleteDetails error : Fields) : Fields :=
  let details :=
    if incompleteDetails ≠ [] then incompleteDetails
    else if status = .incomplete then
      [("reason", .str (if terminalReason = "" then "unknown" else terminalReason)),
        ("message", .str (env.sanitize "incomplete"))]
    else []
  let object :=
    updateFields (e.responseObject status.value) (objectField "incomplete_details" details)
  updateFields (updateFields object (objectField "error" error))
    (textField "terminal_reason" terminalReason)

/-- `terminate`. -/
def terminate (env : EmitterEnv) (e : Emitter) (status : ResponseStatus)
    (terminalReason : String) (incompleteDetails error : Fields) : Emitter × List WireEvent :=
  if e.completedEmitted then (e, [])
  else
    let e := e.transition .completing
    let (e, dones) := e.closeOpenItems (env.setOrder.order e.openItems)
    let (e, final) := e.responseFrame ("response." ++ status.value)
      (e.terminalObject env status terminalReason incompleteDetails error)
    (({ e with completedEmitted := true }).transition status.emitterState, dones ++ [final])

end Emitter

/-- A call of a method. -/
inductive EmitterCall
  | start
  | openItem (item : OutputItem)
  | closeItem (item : OutputItem) (status : String)
  | delta (event : String) (data : Fields)
  | terminate (status : ResponseStatus) (terminalReason : String)
      (incompleteDetails error : Fields)
  | heartbeat
deriving DecidableEq, Repr

/-- What a call writes. -/
def Emitter.emit (env : EmitterEnv) (e : Emitter) : EmitterCall → Emitter × List Written
  | .start => Prod.map id (List.map .event) e.start
  | .openItem item => Prod.map id (List.map .event) (e.openItem item)
  | .closeItem item status => Prod.map id (List.map .event) (e.closeItem item status)
  | .delta event data => Prod.map id (List.map .event) (e.delta event data)
  | .terminate status reason details error =>
    Prod.map id (List.map .event) (e.terminate env status reason details error)
  | .heartbeat => (e, [.heartbeat])

end Zhongzhuan.Protocol
