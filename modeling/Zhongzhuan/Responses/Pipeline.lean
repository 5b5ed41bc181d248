import Zhongzhuan.Kit.Dict
import Zhongzhuan.Kit.Schedule
import Zhongzhuan.Responses.ArgsPatch
import Zhongzhuan.Responses.Events
import Zhongzhuan.Responses.MultiAgent

/-!
# `ResponsePipeline`: from upstream chunks to the client's stream

The model of `responses_v3/pipeline.py`.  The fields of `Pipeline` are the attributes of the
object; each method returns the events it passes to `_emit`, in order, with the object it
leaves behind.

* `Chunk` is the vocabulary of `_translate_chunk`; `translateChunk` follows its branches.
  A chunk can raise (`json.loads` or the orchestrator can), and then the events it had
  emitted are in the event log but never reach the client: `Translated` keeps both.
* `receive` is one turn of the consumer loop of `run`.  Once an exception has been caught
  the loop has ended, and `receive` leaves everything as it is.
* `run` is the whole generator: the reset, the two opening events, the loop and the
  terminal decision.  What puts entries on its queue is outside: a run is given by the list
  of arrivals and the entry that ends it.
* `outputItems` is what the caller persists.

`json.loads` and the orchestrator's `handle` are parameters of `Env`; the answer of `handle`
may depend on all requests made before.  Strings are Unicode strings, so the lone surrogates
that `sse_frame` cannot encode are outside the model, and so are the writes of the event log
and a store that fails.
-/

namespace Zhongzhuan.Responses

open Kit Protocol

/-! ## What the pipeline is built with -/

/-- Where a special call is executed. -/
inductive Execution
  | client
  | server
deriving DecidableEq, Repr

/-- The arguments of `MultiAgentOrchestrator.handle`. -/
structure HandleRequest where
  nameSpace : String
  name : String
  callId : String
  arguments : String
  outputIndex : ℕ
deriving DecidableEq, Repr

/-- The arguments of the constructor, and what the code calls outside itself. -/
structure Env where
  responseId : String
  emitEmptyReasoning : Bool := false
  strictTerminal : Bool := false
  /-- The orchestrator: the earlier requests, the request, and the item or the text of the
  exception. -/
  multiAgent : Option (List HandleRequest → HandleRequest → Except String Fields) := none
  toolSearchEnabled : Bool := false
  toolSearchMode : Execution := .client
  spawnExecution : Execution := .client
  lastUserText : String := ""
  loads : String → Loaded

/-- The chunk vocabulary of the pipeline. -/
inductive Chunk
  | text (delta : String)
  | reasoning (delta : String)
  | toolCall (callId name arguments nameSpace : String) (sourceIndex : Option ℤ)
  | toolCallDone (callId arguments : String) (sourceIndex : Option ℤ)
  | rawOutputItem (event : String) (item : Fields)
  | finish
deriving DecidableEq, Repr

/-- Which of the two protocols a special call belongs to. -/
inductive SpecialKind
  | toolSearch
  | multiAgent
deriving DecidableEq, Repr

/-- An entry of `_special_calls`. -/
structure SpecialCall where
  name : String
  kind : SpecialKind
  args : String
deriving DecidableEq, Repr

/-- An item that has been announced: its id and its `output_index`. -/
structure OpenItem where
  id : String
  outputIndex : ℕ
deriving DecidableEq, Repr

/-- The label `ResponsePipeline.state`. -/
inductive LiveState
  | init
  | inProgress
  | streaming
  | ended (status : Status)
deriving DecidableEq, Repr

/-- `PipelineStats`, without the count of heartbeats, which the monitor keeps. -/
structure PipelineStats where
  clientDisconnects : ℕ := 0
  truncatedStreams : ℕ := 0
  terminalReason : Option TerminalReason := none
deriving DecidableEq, Repr

/-- The attributes of `ResponsePipeline`. -/
structure Pipeline where
  state : LiveState := .init
  stats : PipelineStats := {}
  tools : ToolCallCollection
  specialCalls : Dict String SpecialCall := .empty
  openRawItems : Dict ℕ Fields := .empty
  synthesizedItems : List (ℕ × Fields) := []
  openMessage : Option OpenItem := none
  messageItem : Option OpenItem := none
  messageText : List String := []
  messagePartId : Option String := none
  openReasoning : Option OpenItem := none
  reasoningText : List String := []
  reasoningPartId : Option String := none
  outputIndex : ℕ := 0
  sawProviderFinish : Bool := false
  hadInvalidToolArgs : Bool := false
  /-- The requests made to the orchestrator so far. -/
  handled : List HandleRequest := []

/-- A pipeline as the constructor leaves it. -/
def Pipeline.fresh (env : Env) : Pipeline where
  tools := { responseId := env.responseId }

/-- What one chunk does: the object afterwards, the events passed to `_emit`, and the text of
the exception that cut the method short. -/
structure Translated where
  pipeline : Pipeline
  emitted : List Event
  raised : Option String := none

namespace Pipeline

/-- The counter after `_next_output_index`, which returns `p.outputIndex`. -/
def bumpIndex (p : Pipeline) : Pipeline := { p with outputIndex := p.outputIndex + 1 }

/-! ## Reasoning -/

/-- `_close_reasoning`. -/
def closeReasoning (p : Pipeline) (incomplete : Bool) : Pipeline × List Event :=
  match p.openReasoning with
  | none => (p, [])
  | some item =>
    let text := String.join p.reasoningText
    ({ p with openReasoning := none, reasoningPartId := none },
      [reasoningTextDone item.id item.outputIndex text]
        ++ (if p.reasoningPartId.isSome then
              [reasoningPartDone item.id item.outputIndex text] else [])
        ++ [itemDone item.outputIndex
              (reasoningItem item.id (closingStatus incomplete) (some text))])

/-- The opening of a reasoning item, with its two events. -/
def openReasoningItem (env : Env) (p : Pipeline) : Pipeline × List Event :=
  let id := makeReasoningItemId env.responseId p.outputIndex
  ({ p.bumpIndex with
      openReasoning := some ⟨id, p.outputIndex⟩
      reasoningText := []
      reasoningPartId := some ("pt_" ++ id) },
    [itemAdded p.outputIndex (reasoningItem id .inProgress none),
      reasoningPartAdded id p.outputIndex])

/-- `_ensure_reasoning_lifecycle`: an empty reasoning item from beginning to end, when the
stream has had none and nothing else is open. -/
def ensureReasoningLifecycle (env : Env) (p : Pipeline) : Pipeline × List Event :=
  if !env.emitEmptyReasoning then (p, [])
  else if p.openReasoning.isSome || !p.reasoningText.isEmpty then (p, [])
  else if p.openMessage.isSome || !p.tools.listAll.isEmpty then (p, [])
  else
    let opened := p.openReasoningItem env
    let closed := opened.1.closeReasoning false
    (closed.1, opened.2
      ++ [reasoningDelta (makeReasoningItemId env.responseId p.outputIndex) p.outputIndex ""]
      ++ closed.2)

/-- The branch of a reasoning chunk. -/
def translateReasoning (env : Env) (p : Pipeline) (delta : String) : Pipeline × List Event :=
  if delta = "" then (p, [])
  else
    let opened := if p.openReasoning.isSome then (p, []) else p.openReasoningItem env
    match opened.1.openReasoning with
    | none => opened
    | some item =>
      ({ opened.1 with
          reasoningText := opened.1.reasoningText ++ [delta]
          state := .streaming },
        opened.2 ++ [reasoningDelta item.id item.outputIndex delta])

/-! ## Text -/

/-- The opening of the message item: an open reasoning item is closed first. -/
def openMessageItem (env : Env) (p : Pipeline) : Pipeline × List Event :=
  let closed := p.closeReasoning false
  let ensured := closed.1.ensureReasoningLifecycle env
  let p := ensured.1
  let id := makeMessageItemId env.responseId p.outputIndex
  ({ p.bumpIndex with
      openMessage := some ⟨id, p.outputIndex⟩
      messageItem := some ⟨id, p.outputIndex⟩
      messagePartId := some ("pt_" ++ id) },
    closed.2 ++ ensured.2 ++
      [itemAdded p.outputIndex (Responses.messageItem id .inProgress none),
        contentPartAdded p.outputIndex id])

/-- The branch of a text chunk. -/
def translateText (env : Env) (p : Pipeline) (delta : String) : Pipeline × List Event :=
  let opened := if p.openMessage.isSome then (p, []) else p.openMessageItem env
  match opened.1.openMessage with
  | none => opened
  | some item =>
    ({ opened.1 with messageText := opened.1.messageText ++ [delta], state := .streaming },
      opened.2 ++ [textDelta item.outputIndex delta])

/-! ## Items passed through -/

/-- The branch of an upstream item: it gets an index of its own, whichever of the two events
it came with. -/
def translateRaw (p : Pipeline) (event : String) (item : Fields) : Pipeline × List Event :=
  let index := p.outputIndex
  let item := item.put "output_index" (.int index)
  let isDone := ".done".toList.isSuffixOf event.toList
  let synthesized := p.synthesizedItems.filter (·.1 ≠ index) ++ [(index, item)]
  let p := { p.bumpIndex with synthesizedItems := synthesized, state := .streaming }
  if isDone then
    ({ p with openRawItems := p.openRawItems.erase index }, [itemDone index item])
  else
    ({ p with openRawItems := p.openRawItems.set index item }, [itemAdded index item])

/-! ## Special calls -/

/-- The second half of `_special_kind`: the bare name of a multi-agent call, by its namespace,
by its own name, or by a flattened spelling of both. -/
def multiAgentName (name nameSpace : String) : Option String :=
  let split := splitNamespaceName name
  let nameSpace := if split.1 = "" then nameSpace else split.1
  let name := if split.2 = "" then name else split.2
  if nameSpace = multiAgentNamespace || name ∈ multiAgentTools then some name
  else if '-' ∈ name.toList then
    let parts := rpartition '-' name.toList
    let sub := String.ofList parts.2
    if String.ofList parts.1 = multiAgentNamespace && sub ∈ multiAgentTools then some sub
    else none
  else none

/-- `_special_kind`: the kind of a special call and its bare name. -/
def specialKind (env : Env) (name nameSpace : String) : Option (SpecialKind × String) :=
  if env.toolSearchEnabled && name = toolSearchName then some (.toolSearch, name)
  else if env.multiAgent.isNone then none
  else (multiAgentName name nameSpace).map fun bare => (.multiAgent, bare)

/-- `_special_calls.setdefault(...)` and the fragment added to it. -/
def accumulateSpecial (p : Pipeline) (callId : String) (kind : SpecialKind) (name : String)
    (fragment : String) : Pipeline :=
  let call := (p.specialCalls.get? callId).getD ⟨name, kind, ""⟩
  let call := { call with
    name := if call.name = "" then name else call.name
    args := call.args ++ fragment }
  { p with specialCalls := p.specialCalls.set callId call }

/-- `_emit_special_item` for the next index, with the record for `output_items`. -/
def emitSpecialItem (p : Pipeline) (item : Fields) : Pipeline × List Event :=
  ({ p.bumpIndex with synthesizedItems := p.synthesizedItems ++ [(p.outputIndex, item)] },
    [itemAdded p.outputIndex item, itemDone p.outputIndex item])

/-- `_parse_args`. -/
def parseArgs (loads : String → Loaded) (text : String) : Except String Fields :=
  if stripText text = "" then .ok [] else objectOf loads (stripText text)

/-- `_special_calls.pop(call_id, None)`. -/
def dropSpecial (p : Pipeline) (callId : String) : Pipeline :=
  { p with specialCalls := p.specialCalls.erase callId }

/-- The end of a `tool_search` call. -/
def finalizeToolSearch (env : Env) (p : Pipeline) (callId args : String) : Translated :=
  let arguments := if args = "" then "\x7b\x7d" else args
  let call := p.emitSpecialItem
    (buildToolSearchCall p.outputIndex callId arguments env.responseId)
  match env.toolSearchMode with
  | .client => ⟨call.1.dropSpecial callId, call.2, none⟩
  | .server =>
    match parseArgs env.loads args with
    | .error message => ⟨call.1, call.2, some message⟩
    | .ok parsed =>
      let answer := call.1.emitSpecialItem
        (buildToolSearchFunctionCallOutput call.1.outputIndex callId env.responseId
          (parsed.get "query") (parsed.get "limit"))
      ⟨answer.1.dropSpecial callId, call.2 ++ answer.2, none⟩

/-- The error item of a `spawn_agent` call whose arguments cannot be completed. -/
def rejectItem (callId : String) : Fields :=
  [("id", .str (makeFunctionCallItemId callId ++ "-err")),
    ("type", .str "function_call_output"),
    ("call_id", .str callId),
    ("output", .str (dumps (.obj [("error", .str
      "spawn_agent requires a non-empty message; retry with an explicit instruction")])))]

/-- The echo of a multi-agent call. -/
def multiAgentCallItem (callId name arguments : String) : Fields :=
  [("id", .str (makeFunctionCallItemId callId)), ("type", .str "function_call"),
    ("status", .str Status.completed.value), ("call_id", .str callId), ("name", .str name),
    ("arguments", .str arguments), ("namespace", .str multiAgentNamespace)]

/-- The arguments of a multi-agent call after the patch, and whether the call is rejected.
The two dictionaries the source compares come from one text, so that they are equal exactly
when they have the same fields in the same order. -/
def patchArguments (env : Env) (p : Pipeline) (name args : String) :
    Except String (String × Bool) :=
  if name = "spawn_agent" then do
    match ← patchSpawnAgentArguments env.loads args env.lastUserText
        (String.join p.messageText) with
    | some patched =>
      let orig ← parseArgs env.loads args
      return (if patched = orig then args else dumps (.obj patched), false)
    | none => return (args, env.spawnExecution = .client)
  else .ok (args, false)

/-- The end of a multi-agent call. -/
def finalizeMultiAgent (env : Env)
    (handle : List HandleRequest → HandleRequest → Except String Fields) (p : Pipeline)
    (callId name args : String) : Translated :=
  match patchArguments env p name args with
  | .error message => ⟨p, [], some message⟩
  | .ok (patched, rejected) =>
    let call := p.emitSpecialItem (multiAgentCallItem callId name patched)
    let refused :=
      if rejected then call.1.emitSpecialItem (rejectItem callId) else (call.1, [])
    match env.spawnExecution with
    | .client => ⟨refused.1.dropSpecial callId, call.2 ++ refused.2, none⟩
    | .server =>
      let request : HandleRequest :=
        ⟨multiAgentNamespace, name, callId, patched, refused.1.outputIndex⟩
      let asked := { refused.1 with handled := refused.1.handled ++ [request] }
      match handle refused.1.handled request with
      | .error message => ⟨asked.bumpIndex, call.2 ++ refused.2, some message⟩
      | .ok result =>
        let answer := asked.emitSpecialItem result
        ⟨answer.1.dropSpecial callId, call.2 ++ refused.2 ++ answer.2, none⟩

/-- `_finalize_special_call`: `none` when the call is not a special one.  The last branch of
the source, for a call that became special while the feature was off, keeps the overriding
arguments and goes on as for an ordinary call. -/
def finalizeSpecialCall (env : Env) (p : Pipeline) (callId arguments : String) :
    Translated ⊕ Pipeline :=
  match p.specialCalls.get? callId with
  | none => .inr p
  | some call =>
    let args := if arguments = "" then call.args else arguments
    let p := { p with specialCalls := p.specialCalls.set callId { call with args := args } }
    match call.kind, env.multiAgent with
    | .toolSearch, _ =>
      if env.toolSearchEnabled then .inl (p.finalizeToolSearch env callId args) else .inr p
    | .multiAgent, some handle => .inl (p.finalizeMultiAgent env handle callId call.name args)
    | .multiAgent, none => .inr p

/-! ## Ordinary calls -/

/-- The branch of a tool-call fragment that is not special. -/
def translateToolCall (p : Pipeline) (callId name fragment nameSpace : String)
    (sourceIndex : Option ℤ) : Pipeline × List Event :=
  let found := p.tools.ensure p.outputIndex callId sourceIndex
  let tools := found.2.modify found.1 fun acc =>
    (acc.absorbName name nameSpace).appendArguments fragment
  match tools.accs[found.1]? with
  | none => ({ p with tools := tools }, [])
  | some acc =>
    let delta := argumentsDelta acc.outputIndex acc.callId fragment
    if acc.itemAdded then ({ p with tools := tools, state := .streaming }, [delta])
    else
      ({ p with
          tools := tools.modify found.1 fun acc => { acc with itemAdded := true }
          outputIndex := max p.outputIndex (acc.outputIndex + 1)
          state := .streaming },
        [itemAdded acc.outputIndex (functionCallItem acc .inProgress ""), delta])

/-- The branch of a `tool_call_done` that is not special. -/
def translateToolCallDone (env : Env) (p : Pipeline) (callId arguments : String)
    (sourceIndex : Option ℤ) : Translated :=
  match p.tools.get callId sourceIndex with
  | none => ⟨p, [], none⟩
  | some ref =>
    let tools := p.tools.modify ref (·.appendArguments arguments)
    match tools.accs[ref]? with
    | none => ⟨{ p with tools := tools }, [], none⟩
    | some acc =>
      match acc.validate env.loads with
      | .raised message => ⟨{ p with tools := tools }, [], some message⟩
      | .valid =>
        ⟨{ p with
            tools := tools.modify ref fun acc => (acc.noteVerdict .valid).markItemDone },
          [argumentsDone acc.outputIndex acc.callId acc.arguments,
            itemDone acc.outputIndex (functionCallItem acc .completed acc.arguments)],
          none⟩
      | .invalid =>
        ⟨{ p with
            tools := tools.modify ref (·.markItemDone)
            hadInvalidToolArgs := true },
          [itemDone acc.outputIndex (functionCallItem acc .incomplete acc.arguments)],
          none⟩

/-- `_translate_chunk`. -/
def translateChunk (env : Env) (p : Pipeline) : Chunk → Translated
  | .rawOutputItem event item =>
    let done := p.translateRaw event item
    ⟨done.1, done.2, none⟩
  | .reasoning delta =>
    let done := p.translateReasoning env delta
    ⟨done.1, done.2, none⟩
  | .text delta =>
    let done := p.translateText env delta
    ⟨done.1, done.2, none⟩
  | .toolCall callId name arguments nameSpace sourceIndex =>
    match specialKind env name nameSpace with
    | some (kind, bare) => ⟨p.accumulateSpecial callId kind bare arguments, [], none⟩
    | none =>
      let done := p.translateToolCall callId name arguments nameSpace sourceIndex
      ⟨done.1, done.2, none⟩
  | .toolCallDone callId arguments sourceIndex =>
    match p.finalizeSpecialCall env callId arguments with
    | .inl special => special
    | .inr p => p.translateToolCallDone env callId arguments sourceIndex
  | .finish => ⟨{ p with sawProviderFinish := true }, [], none⟩

theorem translateChunk_of_special {env : Env} {p : Pipeline}
    {callId name arguments nameSpace bare : String} {sourceIndex : Option ℤ}
    {kind : SpecialKind} (special : specialKind env name nameSpace = some (kind, bare)) :
    p.translateChunk env (.toolCall callId name arguments nameSpace sourceIndex)
      = ⟨p.accumulateSpecial callId kind bare arguments, [], none⟩ := by
  rw [translateChunk, special]

theorem translateChunk_of_ordinary {env : Env} {p : Pipeline}
    {callId name arguments nameSpace : String} {sourceIndex : Option ℤ}
    (ordinary : specialKind env name nameSpace = none) :
    p.translateChunk env (.toolCall callId name arguments nameSpace sourceIndex)
      = ⟨(p.translateToolCall callId name arguments nameSpace sourceIndex).1,
          (p.translateToolCall callId name arguments nameSpace sourceIndex).2, none⟩ := by
  rw [translateChunk, ordinary]

theorem translateChunk_of_ordinary_done {env : Env} {p : Pipeline}
    {callId arguments : String} {sourceIndex : Option ℤ}
    (ordinary : p.specialCalls.get? callId = none) :
    p.translateChunk env (.toolCallDone callId arguments sourceIndex)
      = p.translateToolCallDone env callId arguments sourceIndex := by
  rw [translateChunk, finalizeSpecialCall, ordinary]

/-! ## The end of the stream -/

/-- The closing of the message item. -/
def closeMessage (p : Pipeline) (incomplete : Bool) : Pipeline × List Event :=
  match p.openMessage with
  | none => (p, [])
  | some item =>
    let text := String.join p.messageText
    ({ p with openMessage := none, messagePartId := none },
      [textDone item.outputIndex item.id text]
        ++ (if p.messagePartId.isSome then
              [contentPartDone item.outputIndex item.id text] else [])
        ++ [itemDone item.outputIndex
              (Responses.messageItem item.id (closingStatus incomplete) (some text))])

/-- A call the closing loop has to close. -/
def isPending (acc : ToolCallAccumulator) : Bool :=
  !acc.isComplete && acc.itemAdded && !acc.itemDone

/-- The closing of the calls still open; their items leave without the namespace. -/
def closeTools (p : Pipeline) (incomplete : Bool) : Pipeline × List Event :=
  ({ p with tools := { p.tools with
      accs := p.tools.accs.mapIdx fun ref acc =>
        if ref ∈ p.tools.refs ∧ isPending acc then acc.markItemDone else acc } },
    (p.tools.listAll.filter isPending).map fun acc =>
      itemDone acc.outputIndex
        (bareFunctionCallItem acc (closingStatus incomplete) acc.arguments))

/-- The closing of the items passed through. -/
def closeRaw (p : Pipeline) : Pipeline × List Event :=
  ({ p with openRawItems := .empty },
    p.openRawItems.entries.map fun entry =>
      itemDone entry.1 (Fields.put "status" (.str Status.incomplete.value) entry.2))

/-- `_close_open_items`. -/
def closeOpenItems (p : Pipeline) (incomplete : Bool) : Pipeline × List Event :=
  let reasoning := p.closeReasoning incomplete
  let message := reasoning.1.closeMessage incomplete
  let tools := message.1.closeTools incomplete
  let raw := tools.1.closeRaw
  (raw.1, reasoning.2 ++ message.2 ++ tools.2 ++ raw.2)

/-- `_terminal_frames`. -/
def terminalFrames (env : Env) (p : Pipeline) (reason : TerminalReason) (strict : Bool) :
    Pipeline × List Event :=
  let closed := p.closeOpenItems true
  let status : Status :=
    if strict then (if reason.isTimeout then .incomplete else .failed) else .completed
  ({ closed.1 with
      state := .ended status
      stats := { closed.1.stats with
        terminalReason := some reason
        truncatedStreams := closed.1.stats.truncatedStreams + 1 } },
    closed.2 ++ [truncatedEvent env.responseId status reason])

/-- `_completed_frames`. -/
def completedFrames (env : Env) (p : Pipeline) : Pipeline × List Event :=
  let closed := p.closeOpenItems false
  ({ closed.1 with state := .ended .completed },
    closed.2 ++ [completedEvent env.responseId])

/-- `_internal_failed_frames`. -/
def internalFailedFrames (env : Env) (p : Pipeline) (message : String) :
    Pipeline × List Event :=
  let closed := p.closeOpenItems true
  ({ closed.1 with
      state := .ended .failed
      stats := { closed.1.stats with terminalReason := some .upstreamError } },
    closed.2 ++ [internalFailedEvent env.responseId message])

/-! ## The output array -/

/-- The message as `output_items` reports it. -/
def messageOutput (p : Pipeline) (item : OpenItem) : Fields :=
  [("id", .str item.id), ("type", .str "message"), ("role", .str "assistant"),
    ("status", .str (closingStatus (p.state ≠ .ended .completed)).value),
    ("content", .arr [textPart (String.join p.messageText)])]

/-- A call as `output_items` reports it. -/
def toolOutput (acc : ToolCallAccumulator) : Fields :=
  functionCallItem acc (closingStatus (!acc.argumentsDone)) acc.arguments

/-- The items `output_items` collects, with their indexes, before it sorts them. -/
def collectedItems (p : Pipeline) : List (ℕ × Fields) :=
  (p.messageItem.toList.map fun item => (item.outputIndex, p.messageOutput item))
    ++ ((p.tools.listAll.filter (·.itemAdded)).map fun acc =>
          (acc.outputIndex, toolOutput acc))
    ++ p.synthesizedItems

/-- `output_items`: a stable sort by index. -/
def outputItems (p : Pipeline) : List Fields :=
  (p.collectedItems.mergeSort fun a b => a.1 ≤ b.1).map Prod.snd

end Pipeline

/-! ## The run -/

/-- A frame of the client's stream. -/
inductive Frame
  | event (e : Event)
  | heartbeat
deriving DecidableEq, Repr

/-- An entry of the queue that does not end the loop. -/
inductive Arrival
  | chunk (c : Chunk)
  | heartbeat
deriving DecidableEq, Repr

/-- The entry that ends the loop. -/
inductive Ending
  | upstreamEnd
  | upstreamError
  | timeout (reason : TerminalReason)
  | clientCancel
deriving DecidableEq, Repr

/-- The consumer loop between two entries: the frames yielded, the events emitted, and the
exception that ended it. -/
structure Loop where
  pipeline : Pipeline
  frames : List Frame := []
  emitted : List Event := []
  internalError : Option String := none

namespace Loop

/-- One entry. -/
def receive (env : Env) (loop : Loop) (arrival : Arrival) : Loop :=
  match loop.internalError, arrival with
  | some _, _ => loop
  | none, .heartbeat => { loop with frames := loop.frames ++ [.heartbeat] }
  | none, .chunk c =>
    let done := loop.pipeline.translateChunk env c
    match done.raised with
    | none =>
      { pipeline := done.pipeline
        frames := loop.frames ++ done.emitted.map .event
        emitted := loop.emitted ++ done.emitted
        internalError := none }
    | some message =>
      { pipeline := done.pipeline
        frames := loop.frames
        emitted := loop.emitted ++ done.emitted
        internalError := some message }

/-- The events passed to `_emit` by code that does not raise. -/
def yields (loop : Loop) (done : Pipeline × List Event) : Loop :=
  { loop with
    pipeline := done.1
    frames := loop.frames ++ done.2.map .event
    emitted := loop.emitted ++ done.2 }

end Loop

/-- The assignments at the start of `run`.  The attributes of the reasoning item, the message
item and the two part ids are not among them. -/
def Pipeline.reset (env : Env) (p : Pipeline) : Pipeline :=
  { p with
    openMessage := none
    outputIndex := 0
    sawProviderFinish := false
    hadInvalidToolArgs := false
    messageText := []
    tools := { responseId := env.responseId }
    specialCalls := .empty
    openRawItems := .empty
    synthesizedItems := [] }

/-- The loop as it starts: the reset, and the two opening events. -/
def startLoop (env : Env) (p : Pipeline) : Loop :=
  let opening := openingEvents env.responseId
  Loop.yields { pipeline := p } ({ p.reset env with state := .inProgress }, opening)

/-- Whether the upstream produced a chunk. -/
def produced (arrivals : List Arrival) : Bool :=
  arrivals.any fun
    | .chunk _ => true
    | .heartbeat => false

/-- `terminal_reason` after the entry that ends the loop. -/
def endingReason (p : Pipeline) (arrivals : List Arrival) : Ending → Option TerminalReason
  | .timeout reason => some reason
  | .upstreamError =>
    some (if produced arrivals then .upstreamTruncated else .upstreamConnect)
  | .upstreamEnd =>
    if p.sawProviderFinish then none
    else some (if produced arrivals then .upstreamTruncated else .upstreamConnect)
  | .clientCancel => none

/-- The effect of the entry that ends the loop on the object. -/
def noteEnding (p : Pipeline) : Ending → Pipeline
  | .clientCancel =>
    { p with stats := { p.stats with clientDisconnects := p.stats.clientDisconnects + 1 } }
  | _ => p

/-- What follows the loop: one of the four ways to end the stream. -/
def conclude (env : Env) (p : Pipeline) (error : Option String)
    (reason : Option TerminalReason) : Pipeline × List Event :=
  match error with
  | some message => p.internalFailedFrames env message
  | none =>
    if p.hadInvalidToolArgs then
      p.terminalFrames env (reason.getD .invalidToolArguments) true
    else
      match reason with
      | some reason => p.terminalFrames env reason env.strictTerminal
      | none => p.completedFrames env

/-- **`run`**: the stream of one response.  An exception inside the loop takes the place of
the ending. -/
def run (env : Env) (p : Pipeline) (arrivals : List Arrival) (ending : Ending) : Loop :=
  let loop := runSchedule (Loop.receive env) (startLoop env p) arrivals
  match loop.internalError with
  | some message => loop.yields (conclude env loop.pipeline (some message) none)
  | none =>
    loop.yields (conclude env (noteEnding loop.pipeline ending) none
      (endingReason loop.pipeline arrivals ending))

/-- The events among the frames the client received. -/
def Loop.events (loop : Loop) : List Event :=
  loop.frames.filterMap fun
    | .event e => some e
    | .heartbeat => none

end Zhongzhuan.Responses
