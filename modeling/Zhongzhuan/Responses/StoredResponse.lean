import Zhongzhuan.Responses.JobRun

/-!
# The rows of a background response

What the store holds of one background response: the `responses` row, the rows of
`response_output_items` by their `seq`, the rows of `response_events` and the status of the
job.  `StoredResponse.perform` executes one statement of the worker.

* `update_status` writes every column, so that a status without an output clears the output.
* A row of `response_output_items` is inserted or replaced by its `seq` and never deleted:
  saving a list overwrites the first rows and leaves the others (`execute_saveOutputItems`).
-/

namespace Zhongzhuan.Responses

open Kit Store

/-- The rows of one response; an output column that is empty text reads as no items. -/
structure StoredResponse where
  status : RunStatus
  output : List Fields
  items : List Fields
  log : List LogEvent
  job : RunStatus
deriving DecidableEq, Repr

/-- `response.queued`. -/
def queuedEvent (responseId : String) : LogEvent where
  type := .queued
  data := [("type", .str LogType.queued.value),
    ("response", .obj [("id", .str responseId), ("status", .str RunStatus.queued.value)])]

/-- The rows `enqueue` writes. -/
def StoredResponse.enqueued (responseId : String) : StoredResponse where
  status := .queued
  output := []
  items := []
  log := [queuedEvent responseId]
  job := .queued

/-- An insertion or replacement by the primary key; the keys in use are `0, 1, …`. -/
def upsertRow (rows : List Fields) (seq : ℕ) (item : Fields) : List Fields :=
  if seq < rows.length then rows.set seq item else rows ++ [item]

namespace StoredResponse

/-- One statement. -/
def perform (rows : StoredResponse) : StoreCall → StoredResponse
  | .updateStatus update =>
    { rows with status := update.status, output := update.output.getD [] }
  | .appendEvent event => { rows with log := rows.log ++ [event] }
  | .saveOutputItem seq item => { rows with items := upsertRow rows.items seq item }
  | .markTerminal status => { rows with job := status }
  | .failResponse _ => { rows with status := .failed }

/-- Several statements in order. -/
def execute (rows : StoredResponse) (calls : List StoreCall) : StoredResponse :=
  runSchedule perform rows calls

variable (rows : StoredResponse)

theorem execute_append (first second : List StoreCall) :
    rows.execute (first ++ second) = (rows.execute first).execute second :=
  runSchedule_append perform rows first second

@[simp] theorem execute_nil : rows.execute [] = rows := rfl

@[simp] theorem execute_cons (call : StoreCall) (calls : List StoreCall) :
    rows.execute (call :: calls) = (rows.perform call).execute calls := rfl

/-! ## Saving a list -/

theorem foldl_upsertRow (items written stale : List Fields) :
    (items.zipIdx written.length).foldl (fun rows entry => upsertRow rows entry.2 entry.1)
        (written ++ stale)
      = written ++ items ++ stale.drop items.length := by
  induction items generalizing written stale with
  | nil => simp
  | cons item rest ih =>
      have first : upsertRow (written ++ stale) written.length item
          = (written ++ [item]) ++ stale.drop 1 := by
        unfold upsertRow
        cases stale with
        | nil => simp
        | cons old older => simp
      have length : written.length + 1 = (written ++ [item]).length := by simp
      rw [List.zipIdx_cons, List.foldl_cons, first, length, ih]
      simp

theorem execute_saves (items : List Fields) (n : ℕ) :
    rows.execute ((items.zipIdx n).map fun entry => .saveOutputItem entry.2 entry.1)
      = { rows with
          items := (items.zipIdx n).foldl (fun rows entry => upsertRow rows entry.2 entry.1)
            rows.items } := by
  induction items generalizing rows n with
  | nil => rfl
  | cons item rest ih =>
      rw [List.zipIdx_cons, List.map_cons, execute_cons, ih]
      rfl

theorem execute_saveOutputItems (items : List Fields) :
    rows.execute (saveOutputItems items)
      = { rows with items := items ++ rows.items.drop items.length } := by
  have calls : saveOutputItems items
      = (items.zipIdx 0).map fun entry => .saveOutputItem entry.2 entry.1 := by
    rw [saveOutputItems, List.mapIdx_eq_zipIdx_map]
  rw [calls, execute_saves]
  have saved := foldl_upsertRow items [] rows.items
  simp only [List.length_nil, List.nil_append] at saved
  rw [saved]

theorem execute_calls (terminal : JobTerminal) (responseId : String) (items : List Fields) :
    rows.execute (terminal.calls responseId items)
      = { status := terminal.status
          output := items
          items := items ++ rows.items.drop items.length
          log := rows.log ++ [terminal.event responseId items]
          job := terminal.status } := by
  rw [JobTerminal.calls, execute_append, execute_saveOutputItems]
  cases terminal <;> rfl

end StoredResponse

/-! ## What a run writes -/

/-- The events of items, which are all a run writes between its opening and its end. -/
def EventType.isItem : EventType → Bool
  | .outputItemAdded | .outputItemDone | .functionCallArgumentsDelta
  | .functionCallArgumentsDone | .outputTextDelta => true
  | _ => false

/-- Every event is one of an item. -/
structure ItemEvents (events : List Event) : Prop where
  isItem : ∀ event ∈ events, event.type.isItem = true

namespace ItemEvents

theorem nil : ItemEvents [] := ⟨nofun⟩

theorem cons {first : Event} {rest : List Event} (here : first.type.isItem = true)
    (later : ItemEvents rest) : ItemEvents (first :: rest) :=
  ⟨List.forall_mem_cons.mpr ⟨here, later.isItem⟩⟩

theorem append {first second : List Event} (h : ItemEvents first) (h' : ItemEvents second) :
    ItemEvents (first ++ second) :=
  ⟨fun event mem => (List.mem_append.mp mem).elim (h.isItem event) (h'.isItem event)⟩

end ItemEvents

variable (env : JobEnv)

namespace JobRun

variable (run : JobRun)

theorem closeToolItem_events (ref : ℕ) : ItemEvents (run.closeToolItem env ref).emitted := by
  unfold closeToolItem
  split
  · exact .nil
  · split
    · exact .nil
    · split
      · exact .nil
      · refine .append ?_ (.cons rfl .nil)
        split
        · exact .cons rfl .nil
        · exact .nil

theorem addFragment_events (outputIndex : ℕ) (callId name fragment nameSpace : String)
    (sourceIndex : ℤ) :
    ItemEvents (run.addFragment outputIndex callId name fragment nameSpace sourceIndex).2.2 := by
  unfold addFragment
  dsimp only
  split
  · exact .nil
  · split
    · exact .cons rfl .nil
    · exact .cons rfl (.cons rfl .nil)

theorem chargeToolCall_events (ledger : BudgetLedger) (index : ℕ)
    (callId name fragment nameSpace : String) (sourceIndex : Option ℤ) :
    ItemEvents
      (run.chargeToolCall env ledger index callId name fragment nameSpace sourceIndex).emitted := by
  unfold chargeToolCall
  dsimp only
  repeat' split
  all_goals first
    | exact .nil
    | exact addFragment_events ..
    | exact .append (addFragment_events ..) (closeToolItem_events ..)

theorem settleToolCall_events (ledger : BudgetLedger) (callId arguments : String)
    (sourceIndex : Option ℤ) :
    ItemEvents (run.settleToolCall env ledger callId arguments sourceIndex).emitted := by
  unfold settleToolCall
  dsimp only
  repeat' split
  all_goals first
    | exact .nil
    | exact closeToolItem_events ..

theorem chargeText_events (ledger : BudgetLedger) (text : String) (tokens : ℤ) :
    ItemEvents (run.chargeText env ledger text tokens).emitted := by
  unfold chargeText
  dsimp only
  repeat' split
  all_goals first
    | exact .nil
    | exact .cons rfl .nil
    | exact .cons rfl (.cons rfl .nil)

theorem chargeChunk_events (ledger : BudgetLedger) (index : ℕ) (c : JobChunk) :
    ItemEvents (run.chargeChunk env ledger index c).emitted := by
  cases c with
  | toolRound | toolResult signature failed | unknown => exact .nil
  | counted text tokens => exact chargeText_events ..
  | plain text => exact chargeText_events ..
  | unified c =>
      cases c with
      | text delta | reasoning delta => exact chargeText_events ..
      | toolCall callId name arguments nameSpace sourceIndex => exact chargeToolCall_events ..
      | toolCallDone callId arguments sourceIndex => exact settleToolCall_events ..
      | rawOutputItem event item | finish => exact .nil

theorem closeCalls_events (refs : List ℕ) : ItemEvents (closeCalls env refs run).emitted := by
  induction refs generalizing run with
  | nil => exact .nil
  | cons ref rest ih =>
      unfold closeCalls
      split
      · exact ih run
      · split
        · dsimp only
          split
          · exact closeToolItem_events ..
          · exact .append (closeToolItem_events ..) (ih _)
        · exact ih run

theorem closeOpenItems_events (incomplete : Bool) :
    ItemEvents (run.closeOpenItems env incomplete).emitted := by
  unfold closeOpenItems
  split
  · exact .cons rfl (closeCalls_events ..)
  · exact closeCalls_events ..

theorem outputItems_of_single {run : JobRun} {incomplete : Bool} {entry : ℕ × Fields}
    (single : run.collectedItems env incomplete = [entry]) :
    run.outputItems env incomplete = [entry.2] := by
  rw [outputItems, single, List.mergeSort_singleton, List.map_singleton]

theorem outputItems_of_nil {run : JobRun} {incomplete : Bool}
    (none : run.collectedItems env incomplete = []) : run.outputItems env incomplete = [] := by
  rw [outputItems, none, List.mergeSort_nil, List.map_nil]

end JobRun

theorem streamOf_events (input : JobInput) : ItemEvents (streamOf env input).emitted := by
  refine runSchedule_invariant (fun stream : JobStream => ItemEvents stream.emitted) ?_ .nil
    input.turns
  intro stream turn events
  unfold JobStream.turn
  split
  · exact events
  · split
    · exact events
    · exact events.append (JobRun.chargeChunk_events ..)

/-- What a terminal handler writes: the events of the items it closes, and its own writes. -/
inductive Concluded : List StoreCall → RunStatus → Prop
  | calls {events : List Event} (isItem : ItemEvents events) (terminal : JobTerminal)
      (items : List Fields) :
      Concluded (appendAll events ++ terminal.calls env.responseId items) terminal.status

variable {env}

theorem Concluded.after {calls : List StoreCall} {status : RunStatus}
    (done : Concluded env calls status) {events : List Event} (isItem : ItemEvents events) :
    Concluded env (appendAll events ++ calls) status := by
  obtain ⟨isItem', terminal, items⟩ := done
  rw [← List.append_assoc, appendAll, appendAll, ← List.map_append]
  exact .calls (isItem.append isItem') terminal items

variable (env)

theorem failJob_concluded (run : JobRun) (error : String) :
    Concluded env (failJob env run error) .failed :=
  .calls (run.closeOpenItems_events env true) (.failed error) _

theorem concludeJob_concluded (run : JobRun) (terminal : JobTerminal) :
    Concluded env (concludeJob env run terminal).2 (concludeJob env run terminal).1 := by
  cases terminal with
  | failed error => exact failJob_concluded env run error
  | tripped reason | completed outputTokens | cancelled =>
      unfold concludeJob
      dsimp only
      split
      · exact (failJob_concluded env _ _).after (run.closeOpenItems_events env _)
      · exact .calls (run.closeOpenItems_events env _) _ _

/-- **What a run writes** that was not cancelled before its start: the opening, events of
items, and the writes of one handler. -/
theorem runJob_concluded {input : JobInput} (started : input.cancelledEarly = false) :
    ∃ calls, (runJob env input).2 = openingCalls env.responseId ++ calls
      ∧ Concluded env calls (runJob env input).1 := by
  have done := concludeJob_concluded env (streamOf env input).run
    ((streamOf env input).terminal env input.ending)
  unfold runJob
  rw [started]
  exact ⟨_, List.append_assoc .., done.after (streamOf_events env input)⟩

/-- What a run writes when `json.loads` does not raise over the calls it closes at its end. -/
theorem runJob_of_sound {input : JobInput} (started : input.cancelledEarly = false)
    {terminal : JobTerminal}
    (handler : (streamOf env input).terminal env input.ending = terminal)
    {closed : Closing}
    (closing : (streamOf env input).run.closeOpenItems env terminal.incomplete = closed)
    (sound : closed.raised = false) :
    (runJob env input).2 = openingCalls env.responseId ++ appendAll (streamOf env input).emitted
      ++ (appendAll closed.emitted
        ++ terminal.calls env.responseId (closed.run.outputItems env terminal.incomplete)) := by
  have done : (concludeJob env (streamOf env input).run terminal).2 = appendAll closed.emitted
      ++ terminal.calls env.responseId (closed.run.outputItems env terminal.incomplete) := by
    cases terminal with
    | failed error =>
        show failJob env _ _ = _
        unfold failJob
        rw [show (streamOf env input).run.closeOpenItems env true = closed from closing]
        dsimp only
        rw [sound]
        rfl
    | tripped reason | completed outputTokens | cancelled =>
        unfold concludeJob
        dsimp only
        rw [closing, sound]
        rfl
  unfold runJob
  rw [started]
  dsimp only
  rw [handler, done]
  rfl

theorem runJob_cancelledEarly {input : JobInput} (early : input.cancelledEarly = true) :
    runJob env input = (.cancelled, JobTerminal.cancelled.calls env.responseId []) := by
  have refs : (JobRun.fresh env).tools.refs = [] := rfl
  have closed : (JobRun.fresh env).closeOpenItems env true = ⟨.fresh env, [], false⟩ := by
    simp [JobRun.closeOpenItems, refs, JobRun.closeCalls, show
      (JobRun.fresh env).messageOutputIndex = none from rfl]
  have items : (JobRun.fresh env).outputItems env true = [] :=
    JobRun.outputItems_of_nil env rfl
  unfold runJob concludeJob
  simp [early, JobTerminal.incomplete, closed, items, appendAll, JobTerminal.status]

theorem execute_runJob_status (rows : StoredResponse) (input : JobInput) :
    (rows.execute (runJob env input).2).status = (runJob env input).1
      ∧ (rows.execute (runJob env input).2).job = (runJob env input).1 := by
  cases early : input.cancelledEarly with
  | true =>
      rw [runJob_cancelledEarly env early, StoredResponse.execute_calls]
      exact ⟨rfl, rfl⟩
  | false =>
      obtain ⟨calls, split, done⟩ := runJob_concluded env early
      rw [split, StoredResponse.execute_append]
      generalize (runJob env input).1 = status at done ⊢
      obtain ⟨_, terminal, items⟩ := done
      rw [StoredResponse.execute_append, StoredResponse.execute_calls]
      exact ⟨rfl, rfl⟩

end Zhongzhuan.Responses
