import Zhongzhuan.Kit.Schedule
import Zhongzhuan.Responses.Budget
import Zhongzhuan.Responses.Pipeline
import Zhongzhuan.Store.BackgroundJobs

/-!
# `BackgroundWorker`: one execution of a background job

The model of `_JobRun` and of `run_job` after the claim in `responses_v3/background.py`.  The
worker reads the same chunks as the live pipeline, charges a budget for them, and writes what
it does to the store: `StoreCall` is one statement against the tables of the response, and an
execution is the list of them.

* `JobRun.chargeChunk` follows the branches of `_charge_chunk`.  A charge can hit a ceiling
  and `json.loads` can raise; both end the stream (`Halt`).
* `JobStream.turn` is one turn of the loop of `_stream`; what ends the loop when no chunk
  does is a `JobEnding`.
* `concludeJob` is the terminal handler: the open items are closed, the output is saved and
  the three terminal writes follow.
* `runJob` is the whole of it: the status and the store calls, in order.

The clock readings, the answers of `is_cancel_requested` and the flags the heartbeat sets are
the input of the run, and so is the upstream.  `json.loads` and `sha256` are parameters of
`JobEnv`.  The live emitter, which nobody reads, and a store that fails are outside the model.
-/

namespace Zhongzhuan.Responses

open Kit Protocol Store

/-! ## What the worker writes -/

/-- The event types of the log: those of the live stream, and two of its own. -/
inductive LogType
  | stream (type : EventType)
  | queued
  | cancelled
deriving DecidableEq, Repr

/-- The text of the column `event_type`. -/
def LogType.value : LogType → String
  | .stream type => type.value
  | .queued => "response.queued"
  | .cancelled => "response.cancelled"

/-- A row of `response_events`; the sequence number is its position. -/
structure LogEvent where
  type : LogType
  data : Fields
deriving DecidableEq, Repr

/-- An event of the live stream in the log. -/
def Event.logged (event : Event) : LogEvent := ⟨.stream event.type, event.data⟩

/-- The columns `update_status` writes, all of them every time. -/
structure StatusUpdate where
  status : RunStatus
  terminalReason : String := ""
  incompleteDetails : Option Fields := none
  error : String := ""
  usage : Option Fields := none
  output : Option (List Fields) := none
deriving DecidableEq, Repr

/-- One statement of the worker against the tables of the response. -/
inductive StoreCall
  | updateStatus (update : StatusUpdate)
  | appendEvent (event : LogEvent)
  /-- One row of `save_output_items`. -/
  | saveOutputItem (seq : ℕ) (item : Fields)
  | markTerminal (status : RunStatus)
  /-- The write of `mark_failed` to the response: a status and a reason, and no output. -/
  | failResponse (reason : String)
deriving DecidableEq, Repr

/-- `_emit` for each of the events. -/
def appendAll (events : List Event) : List StoreCall :=
  events.map fun event => .appendEvent event.logged

/-- `save_output_items`. -/
def saveOutputItems (items : List Fields) : List StoreCall :=
  items.mapIdx StoreCall.saveOutputItem

/-! ## The run -/

/-- What the worker is built with, and what it calls outside itself. -/
structure JobEnv where
  responseId : String
  budget : ExecutionBudget := backgroundBudget
  maxBackgroundCalls : ℕ := 64
  loads : String → Loaded
  digest : String → String := id

/-- The chunks the worker tells apart: the vocabulary of the pipeline, a text that states
its tokens, a chunk that is no dictionary, the two chunks of the agentic loop, and anything
else. -/
inductive JobChunk
  | unified (c : Chunk)
  | counted (text : String) (tokens : ℤ)
  | plain (text : String)
  | toolRound
  | toolResult (signature : String) (failed : Bool)
  | unknown
deriving DecidableEq, Repr

/-- `_JobRun`; the flags `stopped` and `cancelled` are part of the input of a run. -/
structure JobRun where
  bgToolCalls : ℕ := 0
  textParts : List String := []
  messageOutputIndex : Option ℕ := none
  messageDone : Bool := false
  nextIndex : ℕ := 0
  sawFinish : Bool := false
  tools : ToolCallCollection
deriving DecidableEq

/-- A run as `__post_init__` leaves it. -/
def JobRun.fresh (env : JobEnv) : JobRun where
  tools := { responseId := env.responseId }

/-- Why the loop ends inside a chunk: a ceiling, or an exception with the name of its type. -/
inductive Halt
  | ceiling (reason : TerminalReason)
  | raised (error : String)
deriving DecidableEq, Repr

/-- What one chunk does. -/
structure Charged where
  run : JobRun
  ledger : BudgetLedger
  emitted : List Event := []
  halt : Option Halt := none

/-- What a method that closes items does; `raised` when `json.loads` did. -/
structure Closing where
  run : JobRun
  emitted : List Event := []
  raised : Bool := false

namespace JobRun

variable (env : JobEnv)

/-! ### Items -/

/-- `message_item`. -/
def messageItem (run : JobRun) (incomplete : Bool) : Fields :=
  [("id", .str (makeMessageItemId env.responseId (run.messageOutputIndex.getD 0))),
    ("type", .str "message"), ("role", .str "assistant"),
    ("status", .str (closingStatus incomplete).value),
    ("content", .arr [textPart (String.join run.textParts)])]

/-- `tool_item`. -/
def toolItem (acc : ToolCallAccumulator) : Fields :=
  [("id", .str (if acc.itemId = "" then
      makeFunctionCallItemIdStable env.responseId acc.outputIndex else acc.itemId)),
    ("type", .str "function_call"),
    ("status", .str (closingStatus (!acc.argumentsDone)).value),
    ("call_id", .str acc.callId), ("name", .str acc.name),
    ("arguments", .str acc.arguments)] ++ namespaceField acc.nameSpace

/-- The item of a call when it is announced. -/
def openToolItem (acc : ToolCallAccumulator) : Fields :=
  [("id", .str acc.itemId), ("type", .str "function_call"),
    ("status", .str Status.inProgress.value), ("call_id", .str acc.callId),
    ("name", .str acc.name), ("arguments", .str "")] ++ namespaceField acc.nameSpace

/-- The message when it is announced. -/
def openMessageItem (index : ℕ) : Fields :=
  [("id", .str (makeMessageItemId env.responseId index)), ("type", .str "message"),
    ("status", .str Status.inProgress.value), ("role", .str "assistant")]

/-- The items `output_items` collects, with their indexes, before it sorts them. -/
def collectedItems (run : JobRun) (incomplete : Bool) : List (ℕ × Fields) :=
  (run.messageOutputIndex.toList.map fun index => (index, run.messageItem env incomplete))
    ++ (run.tools.listAll.filter (·.itemAdded)).map fun acc =>
        (acc.outputIndex, toolItem env acc)

/-- `output_items`: a stable sort by index. -/
def outputItems (run : JobRun) (incomplete : Bool) : List Fields :=
  ((run.collectedItems env incomplete).mergeSort fun a b => a.1 ≤ b.1).map Prod.snd

/-! ### Tool calls -/

/-- `_close_tool_item`. -/
def closeToolItem (run : JobRun) (ref : ℕ) : Closing :=
  match run.tools.accs[ref]? with
  | none => ⟨run, [], false⟩
  | some acc =>
    if acc.itemDone then ⟨run, [], false⟩
    else
      match acc.validate env.loads with
      | .raised _ => ⟨run, [], true⟩
      | verdict =>
        let noted := acc.noteVerdict verdict
        ⟨{ run with tools := run.tools.modify ref fun acc =>
            (acc.noteVerdict verdict).markItemDone },
          (if verdict = .valid then
              [argumentsDone noted.outputIndex noted.callId noted.arguments] else [])
            ++ [itemDone noted.outputIndex (toolItem env noted)],
          false⟩

/-- The exception of `json.loads` in the terms of the loop. -/
def haltOf (closing : Closing) : Option Halt :=
  if closing.raised then some (.raised "RecursionError") else none

/-- What a fragment does to its call, once the call has an index: `ensure`, the name, the
arguments, and the announcement of a new item. -/
def addFragment (run : JobRun) (outputIndex : ℕ) (callId name fragment nameSpace : String)
    (sourceIndex : ℤ) : JobRun × ℕ × List Event :=
  let found := run.tools.ensure outputIndex callId (some sourceIndex)
  let tools := found.2.modify found.1 fun acc =>
    (acc.absorbName name nameSpace).appendArguments fragment
  match tools.accs[found.1]? with
  | none => ({ run with tools := tools }, found.1, [])
  | some acc =>
    let delta := argumentsDelta acc.outputIndex acc.callId fragment
    if acc.itemAdded then ({ run with tools := tools }, found.1, [delta])
    else
      ({ run with tools := tools.modify found.1 fun acc => { acc with itemAdded := true } },
        found.1, [itemAdded acc.outputIndex (openToolItem acc), delta])

/-- `_charge_tool_call`.  A fragment with neither a source index nor a call id is a whole
call: it is charged and closed at once, under the position of its chunk. -/
def chargeToolCall (run : JobRun) (ledger : BudgetLedger) (index : ℕ)
    (callId name fragment nameSpace : String) (sourceIndex : Option ℤ) : Charged :=
  let streamed := sourceIndex.isSome || callId ≠ ""
  let source : ℤ := sourceIndex.getD index
  let continues (run : JobRun) (ledger : BudgetLedger) (outputIndex : ℕ) : Charged :=
    let added := run.addFragment outputIndex callId name fragment nameSpace source
    if streamed then ⟨added.1, ledger, added.2.2, none⟩
    else
      let closed := added.1.closeToolItem env added.2.1
      ⟨closed.run, ledger, added.2.2 ++ closed.emitted, haltOf closed⟩
  match run.tools.get callId (some source) with
  | some ref => continues run ledger ((run.tools.accs[ref]?.map (·.outputIndex)).getD 0)
  | none =>
    let opens (ledger : BudgetLedger) : Charged :=
      let run := { run with bgToolCalls := run.bgToolCalls + 1 }
      if env.maxBackgroundCalls < run.bgToolCalls then
        ⟨run, ledger, [], some (.ceiling .backgroundBudgetExhausted)⟩
      else
        continues { run with nextIndex := run.nextIndex + 1 } ledger run.nextIndex
    if streamed then opens ledger
    else
      match toolSignature env.loads env.digest name fragment with
      | .error _ => ⟨run, ledger, [], some (.raised "RecursionError")⟩
      | .ok signature =>
        match ledger.chargeToolCall env.budget signature name with
        | (ledger, some reason) => ⟨run, ledger, [], some (.ceiling reason)⟩
        | (ledger, none) => opens ledger

/-- `_settle_tool_call`.  A terminator of a call that is closed or was never opened does
nothing. -/
def settleToolCall (run : JobRun) (ledger : BudgetLedger) (callId arguments : String)
    (sourceIndex : Option ℤ) : Charged :=
  match run.tools.get callId sourceIndex with
  | none => ⟨run, ledger, [], none⟩
  | some ref =>
    match run.tools.accs[ref]? with
    | none => ⟨run, ledger, [], none⟩
    | some acc =>
      if acc.itemDone then ⟨run, ledger, [], none⟩
      else
        let acc := acc.appendArguments arguments
        let run := { run with tools := run.tools.modify ref (·.appendArguments arguments) }
        match toolSignature env.loads env.digest acc.name acc.arguments with
        | .error _ => ⟨run, ledger, [], some (.raised "RecursionError")⟩
        | .ok signature =>
          match ledger.chargeToolCall env.budget signature acc.name with
          | (ledger, some reason) => ⟨run, ledger, [], some (.ceiling reason)⟩
          | (ledger, none) =>
            let closed := run.closeToolItem env ref
            ⟨closed.run, ledger, closed.emitted, haltOf closed⟩

/-! ### Text -/

/-- The tokens of a text nobody counted: one for four characters. -/
def estimateTokens (text : String) : ℤ :=
  if text = "" then 0 else max 1 (text.length / 4 : ℕ)

/-- `_charge_text`. -/
def chargeText (run : JobRun) (ledger : BudgetLedger) (text : String) (tokens : ℤ) : Charged :=
  match ledger.chargeOutputTokens env.budget tokens with
  | (ledger, some reason) => ⟨run, ledger, [], some (.ceiling reason)⟩
  | (ledger, none) =>
    if text = "" then ⟨run, ledger, [], none⟩
    else
      match run.messageOutputIndex with
      | some index =>
        ⟨{ run with textParts := run.textParts ++ [text] }, ledger, [textDelta index text], none⟩
      | none =>
        let index := run.nextIndex
        ⟨{ run with
            nextIndex := index + 1
            messageOutputIndex := some index
            textParts := run.textParts ++ [text] },
          ledger, [itemAdded index (openMessageItem env index), textDelta index text], none⟩

/-! ### One chunk -/

/-- `_charge_chunk`.  A reasoning chunk has a `delta` and takes the branch of the text; an
item passed through has neither `delta` nor `text` and is dropped. -/
def chargeChunk (run : JobRun) (ledger : BudgetLedger) (index : ℕ) : JobChunk → Charged
  | .toolRound =>
    let charged := ledger.chargeRound env.budget
    ⟨run, charged.1, [], charged.2.map .ceiling⟩
  | .toolResult signature failed =>
    let charged := ledger.chargeToolResult env.budget signature failed
    ⟨run, charged.1, [], charged.2.map .ceiling⟩
  | .unified (.toolCall callId name arguments nameSpace sourceIndex) =>
    run.chargeToolCall env ledger index callId name arguments nameSpace sourceIndex
  | .unified (.toolCallDone callId arguments sourceIndex) =>
    run.settleToolCall env ledger callId arguments sourceIndex
  | .unified .finish => ⟨{ run with sawFinish := true }, ledger, [], none⟩
  | .unified (.text delta) | .unified (.reasoning delta) =>
    run.chargeText env ledger delta (estimateTokens delta)
  | .counted text tokens => run.chargeText env ledger text tokens
  | .plain text => run.chargeText env ledger text 1
  | .unified (.rawOutputItem _ _) | .unknown => ⟨run, ledger, [], none⟩

/-! ### The end of the stream -/

/-- The loop over the calls in `_close_open_items`, by their positions. -/
def closeCalls : List ℕ → JobRun → Closing
  | [], run => ⟨run, [], false⟩
  | ref :: rest, run =>
    match run.tools.accs[ref]? with
    | none => closeCalls rest run
    | some acc =>
      if acc.itemAdded && !acc.itemDone then
        let closed := run.closeToolItem env ref
        if closed.raised then closed
        else
          let later := closeCalls rest closed.run
          ⟨later.run, closed.emitted ++ later.emitted, later.raised⟩
      else closeCalls rest run

/-- `_close_open_items`. -/
def closeOpenItems (run : JobRun) (incomplete : Bool) : Closing :=
  match run.messageOutputIndex, run.messageDone with
  | some index, false =>
    let run := { run with messageDone := true }
    let closed := closeCalls env run.tools.refs run
    ⟨closed.run, itemDone index (run.messageItem env incomplete) :: closed.emitted,
      closed.raised⟩
  | _, _ => closeCalls env run.tools.refs run

end JobRun

/-! ## The terminal handlers -/

/-- Which of the four handlers ends the run, with what it reports. -/
inductive JobTerminal
  | tripped (reason : TerminalReason)
  | completed (outputTokens : ℤ)
  | cancelled
  | failed (error : String)
deriving DecidableEq, Repr

namespace JobTerminal

/-- The status the handler writes. -/
def status : JobTerminal → RunStatus
  | .tripped _ => .incomplete
  | .completed _ => .completed
  | .cancelled => .cancelled
  | .failed _ => .failed

/-- Whether the handler closes the items as incomplete. -/
def incomplete : JobTerminal → Bool
  | .completed _ => false
  | _ => true

/-- `_TERMINAL_EVENT`. -/
def eventType : JobTerminal → LogType
  | .tripped _ => .stream .incomplete
  | .completed _ => .stream .completed
  | .cancelled => .cancelled
  | .failed _ => .stream .failed

/-- `to_incomplete_details` of a tripped run. -/
def details (reason : TerminalReason) : Fields :=
  [("reason", .str reason.value),
    ("message", .str ("background job terminated: " ++ reason.value))]

/-- `{"output_tokens": n}`. -/
def usage (outputTokens : ℤ) : Fields := [("output_tokens", .int outputTokens)]

/-- The error a failed run reports. -/
def serverError : Json :=
  .obj [("type", .str "server_error"), ("message", .str "background job failed")]

/-- The row of the response. -/
def update (terminal : JobTerminal) (items : List Fields) : StatusUpdate :=
  match terminal with
  | .tripped reason =>
    { status := .incomplete, terminalReason := reason.value,
      incompleteDetails := some (details reason), output := some items }
  | .completed outputTokens =>
    { status := .completed, terminalReason := TerminalReason.normalFinish.value,
      usage := some (usage outputTokens), output := some items }
  | .cancelled =>
    { status := .cancelled, terminalReason := TerminalReason.cancelledByClient.value,
      output := some items }
  | .failed error =>
    { status := .failed, terminalReason := TerminalReason.upstreamError.value,
      error := error, output := some items }

/-- What the terminal event carries beside the response. -/
def extra (terminal : JobTerminal) (items : List Fields) : Fields :=
  let output : String × Json := ("output", .arr (items.map .obj))
  match terminal with
  | .tripped reason =>
    [("terminal_reason", .str reason.value), ("incomplete_details", .obj (details reason)),
      output]
  | .completed outputTokens => [("usage", .obj (usage outputTokens)), output]
  | .cancelled =>
    [("terminal_reason", .str TerminalReason.cancelledByClient.value), output]
  | .failed _ => [("error", serverError), output]

/-- `_persist_terminal`. -/
def event (terminal : JobTerminal) (responseId : String) (items : List Fields) : LogEvent where
  type := terminal.eventType
  data :=
    [("type", .str terminal.eventType.value),
      ("response", .obj [("id", .str responseId), ("status", .str terminal.status.value)])]
      ++ terminal.extra items

/-- The writes of a handler after the items are closed. -/
def calls (terminal : JobTerminal) (responseId : String) (items : List Fields) :
    List StoreCall :=
  saveOutputItems items ++
    [.updateStatus (terminal.update items), .appendEvent (terminal.event responseId items),
      .markTerminal terminal.status]

end JobTerminal

variable (env : JobEnv)

/-- `_finish_failed`: an exception while the partial output is salvaged loses the output and
nothing else. -/
def failJob (run : JobRun) (error : String) : List StoreCall :=
  let closed := run.closeOpenItems env true
  let items := if closed.raised then [] else closed.run.outputItems env true
  appendAll closed.emitted ++ (JobTerminal.failed error).calls env.responseId items

/-- The terminal handler of a run: its status and what it writes.  An exception inside one of
the other handlers is caught by `run_job` and ends in `_finish_failed`. -/
def concludeJob (run : JobRun) : JobTerminal → RunStatus × List StoreCall
  | .failed error => (.failed, failJob env run error)
  | terminal =>
    let closed := run.closeOpenItems env terminal.incomplete
    if closed.raised then
      (.failed, appendAll closed.emitted ++ failJob env closed.run "RecursionError")
    else
      (terminal.status, appendAll closed.emitted ++
        terminal.calls env.responseId (closed.run.outputItems env terminal.incomplete))

/-! ## The execution -/

/-- One turn of the loop: the seconds since the start, and the chunk that arrived. -/
structure JobTurn where
  elapsed : ℚ
  chunk : JobChunk
deriving DecidableEq, Repr

/-- What ends the loop when no chunk does. -/
inductive JobEnding
  /-- The upstream is exhausted; the clock and the cancel flag as they are read afterwards. -/
  | eof (elapsed : ℚ) (cancelled : Bool)
  /-- `stop_scheduling`, which only `cancel` calls. -/
  | stopped (elapsed : ℚ)
  /-- The cancel flag at the head of a turn. -/
  | cancelled
  /-- The deadline passes at the head of a turn or while a chunk is awaited. -/
  | deadline
  /-- The upstream raises. -/
  | raised (error : String)
deriving DecidableEq, Repr

/-- The loop of `_stream` between two turns. -/
structure JobStream where
  run : JobRun
  ledger : BudgetLedger := {}
  emitted : List Event := []
  index : ℕ := 0
  halt : Option Halt := none

namespace JobStream

/-- The loop before its first turn. -/
def start : JobStream where
  run := .fresh env

/-- One turn; after the end of the loop there are none. -/
def turn (stream : JobStream) (turn : JobTurn) : JobStream :=
  match stream.halt with
  | some _ => stream
  | none =>
    match BudgetLedger.checkWallTime env.budget turn.elapsed with
    | some reason => { stream with halt := some (.ceiling reason) }
    | none =>
      let charged := stream.run.chargeChunk env stream.ledger stream.index turn.chunk
      { run := charged.run
        ledger := charged.ledger
        emitted := stream.emitted ++ charged.emitted
        index := stream.index + 1
        halt := charged.halt }

/-- The handler `run_job` calls after the loop. -/
def terminal (stream : JobStream) (ending : JobEnding) : JobTerminal :=
  match stream.halt, ending with
  | some (.ceiling reason), _ => .tripped reason
  | some (.raised error), _ => .failed error
  | none, .eof elapsed cancelled =>
    match BudgetLedger.checkWallTime env.budget elapsed with
    | some reason => .tripped reason
    | none => if cancelled then .cancelled else .completed stream.ledger.outputTokens
  | none, .stopped elapsed =>
    match BudgetLedger.checkWallTime env.budget elapsed with
    | some reason => .tripped reason
    | none => .cancelled
  | none, .cancelled => .cancelled
  | none, .deadline => .tripped .maxResponseTime
  | none, .raised error => .failed error

end JobStream

/-- What an execution meets: the cancel flag before it starts, the turns of its loop and what
ends it. -/
structure JobInput where
  cancelledEarly : Bool := false
  turns : List JobTurn
  ending : JobEnding
deriving DecidableEq, Repr

/-- The loop after all turns. -/
def streamOf (input : JobInput) : JobStream :=
  runSchedule (JobStream.turn env) (.start env) input.turns

/-- The first writes of `_execute`. -/
def openingCalls (responseId : String) : List StoreCall :=
  .updateStatus { status := .inProgress } :: appendAll (openingEvents responseId)

/-- **`run_job` after the claim**: the status it returns and everything it writes.  A job
cancelled while it was queued is not started. -/
def runJob (input : JobInput) : RunStatus × List StoreCall :=
  if input.cancelledEarly then concludeJob env (.fresh env) .cancelled
  else
    let stream := streamOf env input
    let done := concludeJob env stream.run (stream.terminal env input.ending)
    (done.1, openingCalls env.responseId ++ appendAll stream.emitted ++ done.2)

/-! ## The other writers -/

/-- The event of an expired job. -/
def expiredEvent (responseId : String) : LogEvent where
  type := .stream .incomplete
  data :=
    [("type", .str EventType.incomplete.value),
      ("response", .obj [("id", .str responseId), ("status", .str RunStatus.expired.value)]),
      ("incomplete_details", .obj [("reason", .str "expired")])]

/-- `_finalize_expired`. -/
def finalizeExpired (responseId : String) : List StoreCall :=
  [.updateStatus { status := .expired, terminalReason := "expired" },
    .appendEvent (expiredEvent responseId)]

/-- The part of `mark_failed` that concerns the response. -/
def failExhausted : List StoreCall := [.failResponse "recovery_exhausted"]

end Zhongzhuan.Responses
