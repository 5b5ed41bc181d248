import Zhongzhuan.Responses.ClosedParts

/-!
# One body or many deltas

An assistant message comes as one body through `chatcompletions_to_responses`, or as deltas
through the adapter and the pipeline.  The client should not see which.

* `ChatMessage.item` is an item of the answer but for its id, for either spelling of the name.
* `answer_of_carries` is the body, and `completed_of_parses`, `spoiled_of_rejects` and
  `output_identified` are the stream.
* `bothDeliveries_iff` says when the two answers are one.
-/

namespace Zhongzhuan.Responses

open Kit Protocol

/-! ## Items up to their ids -/

/-- Two items that agree on everything but their ids. -/
def SameButId (item item' : Fields) : Prop := ∀ key, key ≠ "id" → item.get key = item'.get key

namespace SameButId

variable {item item' item'' : Fields}

theorem symm (h : SameButId item item') : SameButId item' item :=
  fun key other => (h key other).symm

theorem trans (h : SameButId item item') (h' : SameButId item' item'') :
    SameButId item item'' :=
  fun key other => (h key other).trans (h' key other)

theorem cons (id : Json) (fields : Fields) : SameButId (("id", id) :: fields) fields := by
  intro key other
  have miss : (key == "id") = false := by simpa using other
  show List.lookup key (("id", id) :: fields) = _
  rw [List.lookup_cons, miss]
  rfl

end SameButId

/-- The fields of a message item. -/
def messageFields (text : String) : Fields :=
  [("type", .str "message"), ("role", .str "assistant"), ("content", .arr [textPart text]),
    ("status", .str Status.completed.value)]

namespace ChatCall

variable (call : ChatCall)

/-- The fields of a call item, with the name it is shown under. -/
def fields (name : String) : Fields :=
  [("type", .str "function_call"), ("call_id", .str call.id), ("name", .str name),
    ("arguments", .str call.arguments), ("status", .str Status.completed.value)]
    ++ namespaceField call.space

/-- The name a body shows, which may be empty. -/
def bodyName : String := if call.space = "" then call.name else (splitNamespaceName call.name).2

variable {call}

theorem bodyName_eq_shownName_iff (named : call.name ≠ "") :
    call.bodyName = call.shownName ↔
      (call.space ≠ "" → (splitNamespaceName call.name).2 ≠ "") := by
  unfold bodyName shownName space
  by_cases plain : (splitNamespaceName call.name).1 = ""
  · simp [plain]
  · by_cases bare : (splitNamespaceName call.name).2 = ""
    · simp [plain, bare, Ne.symm named]
    · simp [plain, bare]

end ChatCall

/-- The item of a part of the message. -/
def ChatMessage.item (m : ChatMessage) (shown : ChatCall → String) : Slot → Fields
  | .message => messageFields m.content
  | .call index =>
    ((m.callAt index).getD ⟨"", "", ""⟩).fields (shown ((m.callAt index).getD ⟨"", "", ""⟩))

theorem ChatMessage.item_call {m : ChatMessage} {index : ℤ} {call : ChatCall}
    (found : m.callAt index = some call) (shown : ChatCall → String) :
    m.item shown (.call index) = call.fields (shown call) := by
  simp only [ChatMessage.item, found, Option.getD_some]

/-! ## The body -/

section Body

variable (answer : AnswerEnv)

theorem callItem_of_isEntry {call : ChatCall} {entry : Json} (is : call.IsEntry entry) :
    ∃ id, Protocol.callItem answer entry
      = some (.obj (("id", id) :: call.fields call.bodyName)) := by
  obtain ⟨tc, fn, rfl, id, function, name, arguments⟩ := is
  have object : objectOr (some (.obj fn)) = some fn := by
    unfold objectOr nonempty
    cases fn <;> rfl
  unfold Protocol.callItem
  dsimp only
  rw [function, object, Option.map_some, id, name, arguments]
  exact ⟨_, rfl⟩

theorem callItems_of_entries {calls : List ChatCall} {entries : List Json}
    (are : List.Forall₂ ChatCall.IsEntry calls entries) :
    ∃ items : List Fields, callItems answer entries = some (items.map .obj)
      ∧ List.Forall₂ (fun call item => SameButId (call.fields call.bodyName) item)
          calls items := by
  induction are with
  | nil => exact ⟨[], rfl, .nil⟩
  | cons is _ ih =>
      obtain ⟨id, item⟩ := callItem_of_isEntry answer is
      obtain ⟨items, made, each⟩ := ih
      refine ⟨_ :: items, ?_, .cons (SameButId.cons id _).symm each⟩
      rw [callItems, item, made]
      rfl

theorem calls_eq_map (m : ChatMessage) :
    m.calls = (List.range m.calls.length).map fun index : ℕ =>
      (m.callAt index).getD ⟨"", "", ""⟩ := by
  refine List.ext_getElem (by simp) fun i low _ => ?_
  rw [List.getElem_map, List.getElem_range, ChatMessage.callAt_natCast,
    List.getElem?_eq_getElem low, Option.getD_some]

theorem answer_of_carries {m : ChatMessage} {resp : Fields} (carried : Carries m resp)
    (model : String) :
    ∃ (out : Fields) (items : List Fields), chatcompletionsToResponses answer resp model = some out
      ∧ out.get "status" = some (.str Status.completed.value)
      ∧ out.get "output" = some (.arr (items.map .obj))
      ∧ List.Forall₂ (fun slot item => SameButId (m.item ChatCall.bodyName slot) item)
          m.slots items := by
  obtain ⟨choice, fields, more, entries, choices, message, _, content, toolCalls, are⟩ :=
    carried.message
  obtain ⟨usage, isUsage⟩ := carried.usage
  obtain ⟨items, made, each⟩ := callItems_of_entries answer are
  have object : ∀ fields : Fields, objectOr (some (.obj fields)) = some fields := by
    intro fields
    unfold objectOr nonempty
    cases fields <;> rfl
  have read : answerMessage resp = some fields := by
    unfold answerMessage
    rw [choices]
    show (objectOr (some (.obj choice))).bind _ = _
    rw [object, Option.bind_some, message, object]
  have calls : List.Forall₂ (fun slot item => SameButId (m.item ChatCall.bodyName slot) item)
      ((List.range m.calls.length).map fun index : ℕ => Slot.call index) items := by
    rw [calls_eq_map m, List.forall₂_map_left_iff] at each
    rw [List.forall₂_map_left_iff]
    exact each
  unfold chatcompletionsToResponses
  rw [read, Option.bind_some, toolCalls, Option.bind_some, made, Option.bind_some, isUsage,
    Option.map_some]
  by_cases silent : m.content = ""
  · have slots : m.slots = (List.range m.calls.length).map fun index : ℕ => Slot.call index := by
      unfold ChatMessage.slots
      rw [if_pos silent, List.nil_append]
    rw [silent] at content
    rw [← slots] at calls
    cases said : Fields.get fields "content" with
    | none => exact ⟨_, items, rfl, rfl, rfl, calls⟩
    | some value =>
        rw [said] at content
        cases value with
        | str text =>
            obtain rfl : text = "" := content
            dsimp only
            rw [if_pos rfl]
            exact ⟨_, items, rfl, rfl, rfl, calls⟩
        | _ => exact ⟨_, items, rfl, rfl, rfl, calls⟩
  · have slots : m.slots
        = .message :: (List.range m.calls.length).map fun index : ℕ => Slot.call index := by
      unfold ChatMessage.slots
      rw [if_neg silent, List.singleton_append]
    have said : Fields.get fields "content" = some (.str m.content) := by
      unfold contentText at content
      split at content
      case h_1 text held => rw [held, content]
      case h_2 => exact absurd content.symm silent
    rw [said, slots]
    dsimp only
    rw [if_neg silent]
    exact ⟨_, _ :: items, rfl, rfl, rfl, .cons (SameButId.cons _ _).symm calls⟩

end Body

/-! ## The stream -/

/-- Special-call handling is off. -/
structure SpecialOff (env : Env) : Prop where
  search : env.toolSearchEnabled = false
  agents : env.multiAgent = none

theorem SpecialOff.ordinary {env : Env} (off : SpecialOff env) (name nameSpace : String) :
    Pipeline.specialKind env name nameSpace = none := by
  unfold Pipeline.specialKind
  rw [off.search, off.agents]
  rfl

variable {env : Env} {m : ChatMessage} {p : Pipeline}

/-! ### Its items -/

theorem messageOutput_same {item : OpenItem} (ended : p.state = .ended .completed) :
    SameButId (messageFields (String.join p.messageText)) (p.messageOutput item) := by
  intro key other
  have id : (key == "id") = false := by simpa using other
  unfold messageFields Pipeline.messageOutput Fields.get
  rw [ended]
  by_cases status : key = "status"
  · subst status
    rfl
  · have miss : (key == "status") = false := by simpa using status
    simp [List.lookup_cons, id, miss]

theorem toolOutput_same (call : ChatCall) (responseId : String) (place : ℕ × ℤ) :
    SameButId (call.fields call.shownName)
      (Pipeline.toolOutput (call.accumulator responseId place call.arguments true)) := by
  intro key other
  have id : (key == "id") = false := by simpa using other
  unfold ChatCall.fields Pipeline.toolOutput functionCallItem bareFunctionCallItem Fields.get
    ChatCall.accumulator
  by_cases status : key = "status"
  · subst status
    rfl
  · have miss : (key == "status") = false := by simpa using status
    simp [List.lookup_cons, id, miss]

/-- The pipeline after a finish. -/
def Pipeline.finished (p : Pipeline) : Pipeline := { p with sawProviderFinish := true }

theorem Noted.finish {deltas : List Signal} {closed : List ℤ} {places : List (ℕ × Slot)}
    (h : Noted env m deltas closed places p) :
    Noted env m deltas closed places p.finished :=
  ⟨h.slots, h.increasing, h.below, h.owner, h.accs, h.filed, h.message, h.opened, h.text,
    h.special, h.handled, h.valid⟩

theorem after_terminators (off : SpecialOff env) (proper : m.Proper) (sent : Streamed m) :
    (∀ call ∈ m.calls, parsesObject env.loads call.arguments = true) ∧
        (∃ q places, (startLoop env (.fresh env)).pipeline.after env
            (sent.deltas.map Signal.chunk ++ (opened sent.deltas).map m.terminator) = some q
          ∧ q.synthesizedItems = []
          ∧ Noted env m sent.deltas (opened sent.deltas) places q)
      ∨ (∃ call ∈ m.calls, parsesObject env.loads call.arguments = false) ∧
        ∀ q, (startLoop env (.fresh env)).pipeline.after env
            (sent.deltas.map Signal.chunk ++ (opened sent.deltas).map m.terminator) = some q →
          q.hadInvalidToolArgs = true := by
  have of := sent.conforming.toDeltasOf
  have whole : SentWhole env m sent.deltas := fun _ _ _ _ _ call _ special => by
    rw [off.ordinary] at special
    cases special
  obtain ⟨q, places, reached, made, noted⟩ := noted_of_deltas env proper of whole
  have calls : ∀ index ∈ opened sent.deltas, ∃ call ∈ m.calls,
      argumentsAt index sent.deltas = call.arguments := by
    intro index mem
    obtain ⟨call, found⟩ := of.callAt mem
    exact ⟨call, ChatMessage.mem_of_callAt found, (sent.conforming.calls index call found).2⟩
  rw [after_append, reached, Option.bind_some]
  rcases noted.close_all (fun call _ => off.ordinary call.name "") of fun _ mem => mem with
    ⟨parse, q', reached', made', noted'⟩ | ⟨⟨index, mem, rejected⟩, spoiled⟩
  · refine .inl ⟨fun call mem => ?_, q', places, reached', made'.trans made, ?_⟩
    · obtain ⟨position, low, rfl⟩ := List.mem_iff_getElem.mp mem
      have found : m.callAt position = some m.calls[position] := by
        rw [ChatMessage.callAt_natCast, List.getElem?_eq_getElem low]
      obtain ⟨seen, arguments⟩ := sent.conforming.calls position _ found
      rw [← arguments]
      exact parse position (mem_opened.mpr seen)
    · rwa [List.nil_append] at noted'
  · obtain ⟨call, inside, arguments⟩ := calls index mem
    exact .inr ⟨⟨call, inside, arguments ▸ rejected⟩, spoiled⟩

theorem after_chunks (sent : Streamed m) {q : Pipeline}
    (reached : p.after env
      (sent.deltas.map Signal.chunk ++ (opened sent.deltas).map m.terminator) = some q) :
    p.after env sent.chunks = some q.finished :=
  after_concat reached rfl

/-- **A stream whose calls all parse** is completed, and shows the parts in the order in which
they first appeared. -/
theorem completed_of_parses (off : SpecialOff env) (proper : m.Proper) (sent : Streamed m)
    (parses : ∀ call ∈ m.calls, parsesObject env.loads call.arguments = true)
    {arrivals : List Arrival} (read : chunksOf arrivals = sent.chunks) :
    (run env (.fresh env) arrivals .upstreamEnd).pipeline.state = .ended .completed
      ∧ List.Forall₂ (fun slot item => SameButId (m.item ChatCall.shownName slot) item)
          (slotsOf sent.deltas)
          (run env (.fresh env) arrivals .upstreamEnd).pipeline.outputItems := by
  have of := sent.conforming.toDeltasOf
  rcases after_terminators off proper sent with ⟨_, q, places, reached, made, noted⟩ | ⟨bad, _⟩
  case inr =>
    obtain ⟨call, mem, rejected⟩ := bad
    rw [parses call mem] at rejected
    cases rejected
  have whole := after_chunks sent reached
  rw [← read] at whole
  obtain ⟨returned, pipeline⟩ :=
    @runSchedule_of_after env _ arrivals (startLoop env (.fresh env)) rfl whole
  have all : ∀ place ∈ callPlaces places, place.2 ∈ opened sent.deltas :=
    fun place inside => (noted.placed.mp ⟨place, inside, rfl⟩).1
  obtain ⟨state, output, text⟩ := noted.finish.completed all rfl arrivals
  have slots : places.map Prod.snd = slotsOf sent.deltas := by
    refine noted.slots.trans (List.filter_eq_self.mpr fun slot _ => ?_)
    cases slot with
    | message => rfl
    | call index =>
        simp only [Slot.listed, off.ordinary]
        cases m.callAt index <;> rfl
  have final : (run env (.fresh env) arrivals .upstreamEnd).pipeline
      = (conclude env q.finished none
          (endingReason q.finished arrivals .upstreamEnd)).1 := by
    rw [run_of_returned returned, ← pipeline]
    rfl
  rw [final]
  refine ⟨state, ?_⟩
  have nothing : q.finished.synthesizedItems = [] := made
  rw [output, nothing, List.map_nil, List.append_nil, ← slots, List.forall₂_map_left_iff,
    List.forall₂_map_right_iff, List.forall₂_same]
  rintro ⟨index, slot⟩ mem
  cases slot with
  | message =>
      have same := @messageOutput_same _ ((conclude env q.finished none
        (endingReason q.finished arrivals
          .upstreamEnd)).1.messageItem.getD ⟨"", index⟩) state
      rw [text, sent.conforming.text] at same
      exact same
  | call source =>
      have opens := all (index, source) (mem_callPlaces.mpr mem)
      obtain ⟨call, found⟩ := of.callAt opens
      have same := toolOutput_same call env.responseId (index, source)
      rw [← (sent.conforming.calls source call found).2] at same
      rw [ChatMessage.item_call found]
      unfold Pipeline.placedItem
      dsimp only
      rw [Noted.accumulatorAt_of_callAt found, decide_eq_true opens]
      exact (sent.conforming.calls source call found).2 ▸ same

theorem conclude_spoiled {error : Option String} {reason : Option TerminalReason}
    (spoiled : error ≠ none ∨ p.hadInvalidToolArgs = true) :
    (conclude env p error reason).1.state ≠ .ended .completed := by
  have strict : ∀ reason : TerminalReason,
      (p.terminalFrames env reason true).1.state ≠ .ended .completed := by
    intro reason
    unfold Pipeline.terminalFrames
    cases reason.isTimeout <;> exact nofun
  unfold conclude
  cases error with
  | some message => exact nofun
  | none =>
      have invalid := spoiled.resolve_left (not_not_intro rfl)
      rw [invalid]
      exact strict _

theorem spoiled_of_rejects (off : SpecialOff env) (proper : m.Proper) (sent : Streamed m)
    {call : ChatCall} (mem : call ∈ m.calls)
    (rejects : parsesObject env.loads call.arguments = false)
    {arrivals : List Arrival} (read : chunksOf arrivals = sent.chunks) :
    (run env (.fresh env) arrivals .upstreamEnd).pipeline.state ≠ .ended .completed := by
  rcases after_terminators off proper sent with ⟨parse, _⟩ | ⟨_, spoiled⟩
  · have parses := parse call mem
    rw [rejects] at parses
    cases parses
  · cases reached : (startLoop env (.fresh env)).pipeline.after env
        (sent.deltas.map Signal.chunk ++ (opened sent.deltas).map m.terminator) with
    | none =>
        have cut : (startLoop env (.fresh env)).pipeline.after env (chunksOf arrivals) = none := by
          rw [read]
          unfold Streamed.chunks
          rw [after_append, reached]
          rfl
        obtain ⟨message, raised⟩ :=
          @raises_of_after env arrivals (startLoop env (.fresh env)) rfl cut
        rw [run_of_raised raised]
        exact conclude_spoiled (.inl nofun)
    | some q =>
        have whole := after_chunks sent reached
        rw [← read] at whole
        obtain ⟨returned, pipeline⟩ :=
          @runSchedule_of_after env _ arrivals (startLoop env (.fresh env)) rfl whole
        have invalid : (loopOf env (.fresh env) arrivals).pipeline.hadInvalidToolArgs = true := by
          unfold loopOf
          rw [pipeline]
          exact spoiled q reached
        rw [run_of_returned returned]
        exact conclude_spoiled (.inr invalid)

/-! ### Its ids -/

/-- Every call has an id, whatever the chunks said. -/
structure Identified (p : Pipeline) : Prop where
  calls : p.tools.Holds fun acc => acc.callId ≠ ""
  special : p.specialCalls = .empty
  made : p.synthesizedItems = []

theorem bindCallId_ne {acc : ToolCallAccumulator} (named : acc.callId ≠ "") (callId : String) :
    (acc.bindCallId callId).callId ≠ "" := by
  unfold ToolCallAccumulator.bindCallId
  split
  case isTrue _ => exact named
  case isFalse given => exact given

namespace Identified

theorem of_same (h : Identified p) {q : Pipeline} (books : q.books = p.books)
    (ledger : q.ledger = p.ledger) : Identified q := by
  have tools : q.tools = p.tools := congrArg Prod.fst books
  have special : q.specialCalls = p.specialCalls := congrArg Prod.fst ledger
  have made : q.synthesizedItems = p.synthesizedItems :=
    congrArg (fun ledger => ledger.2.2) ledger
  exact ⟨tools ▸ h.calls, special.trans h.special, made.trans h.made⟩

theorem translateToolCallDone (h : Identified p) (callId arguments : String)
    (sourceIndex : Option ℤ) :
    Identified (p.translateToolCallDone env callId arguments sourceIndex).pipeline := by
  have changed : ∀ ref, Identified
      { p with tools := p.tools.modify ref fun acc => acc.appendArguments arguments } :=
    fun ref => ⟨h.calls.modify ref fun _ named => named, h.special, h.made⟩
  unfold Pipeline.translateToolCallDone
  split
  · exact h
  · rename_i ref _
    dsimp only
    split
    · exact changed ref
    · split
      · exact changed ref
      · exact ⟨(changed ref).calls.modify ref fun _ named => named, h.special, h.made⟩
      · exact ⟨(changed ref).calls.modify ref fun _ named => named, h.special, h.made⟩

theorem translateChunk (h : Identified p) (off : SpecialOff env) {c : Chunk}
    (own : ∀ event item, c ≠ .rawOutputItem event item) :
    Identified (p.translateChunk env c).pipeline := by
  cases c with
  | text delta => exact h.of_same (translateText_books delta) (translateText_ledger delta)
  | reasoning delta =>
      exact h.of_same (translateReasoning_books delta) (translateReasoning_ledger delta)
  | rawOutputItem event item => exact absurd rfl (own event item)
  | finish => exact ⟨h.calls, h.special, h.made⟩
  | toolCall callId name arguments nameSpace sourceIndex =>
      have kept : ∀ acc : ToolCallAccumulator, acc.callId ≠ "" →
          ((acc.absorbName name nameSpace).appendArguments arguments).callId ≠ "" := by
        intro acc named
        obtain ⟨given, space, same⟩ := absorbName_eq acc name nameSpace
        rw [same]
        exact named
      obtain ⟨acc, tools, index, _, held, same⟩ := translateToolCall_spec callId name arguments
        nameSpace sourceIndex h.calls (fun acc named => bindCallId_ne named callId) kept
        (fun _ named => named)
        (ToolCallCollection.newAccumulator_callId_ne _ _ callId sourceIndex)
      rw [Pipeline.translateChunk_of_ordinary (off.ordinary name nameSpace), same]
      exact ⟨held, h.special, h.made⟩
  | toolCallDone callId arguments sourceIndex =>
      have none : p.specialCalls.get? callId = none := by
        rw [h.special]
        rfl
      rw [Pipeline.translateChunk_of_ordinary_done none]
      exact h.translateToolCallDone callId arguments sourceIndex

theorem runSchedule (off : SpecialOff env) (arrivals : List Arrival) {loop : Loop}
    (h : Identified loop.pipeline)
    (own : ∀ c ∈ chunksOf arrivals, ∀ event item, c ≠ .rawOutputItem event item) :
    Identified (Kit.runSchedule (Loop.receive env) loop arrivals).pipeline := by
  induction arrivals generalizing loop with
  | nil => exact h
  | cons arrival rest ih =>
      rw [runSchedule_cons]
      cases arrival with
      | heartbeat =>
          rw [← receive_heartbeat_pipeline loop] at h
          exact ih h own
      | chunk c =>
          have first := own c List.mem_cons_self
          refine ih ?_ fun c' mem => own c' (List.mem_cons_of_mem c mem)
          cases running : loop.internalError with
          | none =>
              rw [receive_pipeline running]
              exact h.translateChunk off first
          | some message =>
              unfold Loop.receive
              rw [running]
              exact h

theorem output (h : Identified p) (error : Option String) (reason : Option TerminalReason) :
    ∀ item ∈ (conclude env p error reason).1.outputItems,
      item.get "call_id" ≠ some (.str "") := by
  have content := @conclude_content env p error reason
  have tools := @conclude_tools env p error reason
  intro item mem
  obtain ⟨entry, collected, rfl⟩ := List.mem_map.mp mem
  rw [List.mem_mergeSort] at collected
  unfold Pipeline.collectedItems at collected
  rw [content.synthesizedItems, h.made, List.append_nil, tools] at collected
  rcases List.mem_append.mp collected with message | call
  · obtain ⟨open', _, rfl⟩ := List.mem_map.mp message
    exact nofun
  · obtain ⟨acc, inside, rfl⟩ := List.mem_map.mp call
    obtain ⟨old, listed, same⟩ := mem_listAll_closeTools.mp (List.mem_of_mem_filter inside)
    obtain ⟨ref, _, held⟩ := ToolCallCollection.mem_listAll.mp listed
    have named := h.calls.each old (List.mem_of_getElem? held)
    have still : acc.callId = old.callId := by
      rw [same]
      split <;> rfl
    intro empty
    have given : (Pipeline.toolOutput acc).get "call_id" = some (.str acc.callId) := rfl
    rw [given, still] at empty
    exact named (Json.str.inj (Option.some.inj empty))

end Identified

/-- **A stream gives every call an id**, one of its own making when the upstream gave none. -/
theorem output_identified (off : SpecialOff env) (sent : Streamed m) {arrivals : List Arrival}
    (read : chunksOf arrivals = sent.chunks) :
    ∀ item ∈ (run env (.fresh env) arrivals .upstreamEnd).pipeline.outputItems,
      item.get "call_id" ≠ some (.str "") := by
  have own : ∀ c ∈ chunksOf arrivals, ∀ event item, c ≠ .rawOutputItem event item := by
    rw [read]
    rintro c mem event item rfl
    unfold Streamed.chunks at mem
    rcases List.mem_append.mp mem with front | last
    · rcases List.mem_append.mp front with delta | terminator
      · obtain ⟨s, _, isRaw⟩ := List.mem_map.mp delta
        cases s <;> cases isRaw
      · obtain ⟨index, _, isRaw⟩ := List.mem_map.mp terminator
        cases isRaw
    · cases List.mem_singleton.mp last
  have start : Identified (startLoop env (.fresh env)).pipeline :=
    ⟨.fresh _ env.responseId, rfl, rfl⟩
  have held := Identified.runSchedule off arrivals start own
  cases error : (loopOf env (.fresh env) arrivals).internalError with
  | none =>
      rw [run_of_returned error]
      have noted :
          Identified (noteEnding (loopOf env (.fresh env) arrivals).pipeline .upstreamEnd) := held
      exact noted.output none _
  | some message =>
      rw [run_of_raised error]
      exact @Identified.output env _ held (some message) none

/-! ## The two answers -/

/-- **One answer**: the same status, and the same items up to their ids. -/
structure SameAnswer (answer : Option Fields) (p : Pipeline) : Prop where
  status : ∃ status : Status, p.state = .ended status
    ∧ answer.bind (·.get "status") = some (.str status.value)
  items : ∃ items : List Fields, answer.bind (·.get "output") = some (.arr (items.map .obj))
    ∧ List.Forall₂ SameButId items p.outputItems

/-- **The messages and streams of which the two deliveries make one answer.** -/
structure StreamsAlike (env : Env) (sent : Streamed m) : Prop where
  identified : ∀ call ∈ m.calls, call.id ≠ ""
  parses : ∀ call ∈ m.calls, parsesObject env.loads call.arguments = true
  named : ∀ call ∈ m.calls, call.space ≠ "" → (splitNamespaceName call.name).2 ≠ ""
  ordered : slotsOf sent.deltas = m.slots

/-- A part that the message has. -/
def Slot.Of (m : ChatMessage) : Slot → Prop
  | .message => True
  | .call index => ∃ call, m.callAt index = some call

theorem slots_of {slot : Slot} (mem : slot ∈ m.slots) : slot.Of m := by
  unfold ChatMessage.slots at mem
  rcases List.mem_append.mp mem with text | call
  · split at text
    · cases text
    · obtain rfl := List.mem_singleton.mp text
      trivial
  · obtain ⟨position, low, rfl⟩ := List.mem_map.mp call
    have inside := List.mem_range.mp low
    refine ⟨m.calls[position], ?_⟩
    rw [ChatMessage.callAt_natCast, List.getElem?_eq_getElem inside]

theorem DeltasOf.slot_of {deltas : List Signal} (of : DeltasOf m deltas) {slot : Slot}
    (mem : slot ∈ slotsOf deltas) : slot.Of m := by
  cases slot with
  | message => trivial
  | call index => exact of.callAt (mem_opened.mpr mem)

theorem exists_slot {call : ChatCall} (mem : call ∈ m.calls) :
    ∃ index : ℤ, m.callAt index = some call ∧ Slot.call index ∈ m.slots := by
  obtain ⟨position, low, rfl⟩ := List.mem_iff_getElem.mp mem
  refine ⟨position, ?_, List.mem_append_right _ (List.mem_map.mpr ⟨position, ?_, rfl⟩)⟩
  · rw [ChatMessage.callAt_natCast]
    exact List.getElem?_eq_getElem low
  · exact List.mem_range.mpr low

theorem slot_unique (distinct : (m.calls.map ChatCall.id).Nodup) {slot slot' : Slot}
    (of : slot.Of m) (of' : slot'.Of m) {shown shown' : ChatCall → String}
    (same : SameButId (m.item shown slot) (m.item shown' slot')) : slot = slot' := by
  have type := same "type" (by decide)
  have callId := same "call_id" (by decide)
  cases slot with
  | message =>
      cases slot' with
      | message => rfl
      | call index =>
          have clash : some (Json.str "message") = some (.str "function_call") := type
          exact absurd clash (by decide)
  | call index =>
      obtain ⟨call, found⟩ := of
      cases slot' with
      | message =>
          have clash : some (Json.str "function_call") = some (.str "message") := type
          exact absurd clash (by decide)
      | call index' =>
          obtain ⟨call', found'⟩ := of'
          rw [ChatMessage.item_call found, ChatMessage.item_call found'] at callId
          have ids : some (Json.str call.id) = some (.str call'.id) := callId
          rw [ChatMessage.index_unique distinct found found' (Json.str.inj (Option.some.inj ids))]

theorem forall₂_comp {α β γ : Type} {R : α → β → Prop} {S : β → γ → Prop} {T : α → γ → Prop}
    (comp : ∀ a b c, R a b → S b c → T a c) {as : List α} {bs : List β} {cs : List γ}
    (first : List.Forall₂ R as bs) (second : List.Forall₂ S bs cs) : List.Forall₂ T as cs := by
  induction first generalizing cs with
  | nil =>
      cases second
      exact .nil
  | cons here _ ih =>
      cases second with
      | cons here' rest => exact .cons (comp _ _ _ here here') (ih rest)

/-- **Both deliveries make one answer** of a message, with the special calls off, exactly when
every call has an id and arguments that are a JSON object, no call has a name that is only a
namespace, and the parts first appear in the stream in the order of the body. -/
theorem bothDeliveries_iff (answer : AnswerEnv) (env : Env) (off : SpecialOff env)
    (upstream : AdapterEnv) (chat : upstream.dialect = .openai) (m : ChatMessage)
    (distinct : (m.calls.map ChatCall.id).Nodup) (named : ∀ call ∈ m.calls, call.name ≠ "")
    (resp : Fields) (model : String) (carried : Carries m resp) (sent : Streamed m)
    (stream : List Bytes) (whole : (framesOf stream).2 = false)
    (said : Says upstream (framesOf stream).1 sent.signals) (arrivals : List Arrival)
    (read : chunksOf arrivals = (iterChunks upstream stream).yielded) :
    SameAnswer (chatcompletionsToResponses answer resp model)
        (run env (.fresh env) arrivals .upstreamEnd).pipeline ↔
      StreamsAlike env sent := by
  obtain ⟨out, items, made, status, output, body⟩ := answer_of_carries answer carried model
  rw [sent.yielded chat whole said] at read
  rw [made]
  constructor
  · rintro ⟨⟨ended, state, isEnded⟩, items', isOutput, same⟩
    have completed : ended = .completed := by
      have value : some (Json.str ended.value) = some (.str Status.completed.value) :=
        isEnded.symm.trans status
      have value' := Json.str.inj (Option.some.inj value)
      revert value'
      cases ended <;> decide
    rw [completed] at state
    have sameItems : items' = items := by
      have both : some (Json.arr (items'.map .obj)) = some (.arr (items.map .obj)) :=
        isOutput.symm.trans output
      exact List.map_injective_iff.mpr (fun _ _ same => Json.obj.inj same)
        (Json.arr.inj (Option.some.inj both))
    rw [sameItems] at same
    have shown : List.Forall₂ (fun slot item => SameButId (m.item ChatCall.bodyName slot) item)
        m.slots (run env (.fresh env) arrivals .upstreamEnd).pipeline.outputItems :=
      forall₂_comp (by exact fun _ _ _ first second => SameButId.trans first second) body same
    have identified : ∀ call ∈ m.calls, call.id ≠ "" := by
      intro call mem blank
      obtain ⟨index, found, isPart⟩ := exists_slot mem
      obtain ⟨item, inside, like⟩ := (exists_partner shown).1 _ isPart
      have given : (m.item ChatCall.bodyName (.call index)).get "call_id"
          = some (.str call.id) := by
        rw [ChatMessage.item_call found]
        rfl
      refine output_identified off sent read item inside ?_
      rw [← like "call_id" (by decide), given, blank]
    have proper : m.Proper := ⟨distinct, identified, named⟩
    have parses : ∀ call ∈ m.calls, parsesObject env.loads call.arguments = true := by
      intro call mem
      by_contra rejected
      exact spoiled_of_rejects off proper sent mem (Bool.not_eq_true _ ▸ rejected) read state
    have streamed : List.Forall₂ (fun item slot => SameButId item (m.item ChatCall.shownName slot))
        (run env (.fresh env) arrivals .upstreamEnd).pipeline.outputItems
        (slotsOf sent.deltas) :=
      ((completed_of_parses off proper sent parses read).2.imp fun _ _ like => like.symm).flip
    have both : List.Forall₂ (fun slot slot' => SameButId (m.item ChatCall.bodyName slot)
        (m.item ChatCall.shownName slot')) m.slots (slotsOf sent.deltas) :=
      forall₂_comp (by exact fun _ _ _ first second => SameButId.trans first second) shown streamed
    have ordered : m.slots = slotsOf sent.deltas := by
      obtain ⟨pairs, front, back, each⟩ := exists_zip_of_forall₂ both
      rw [front, back]
      refine List.map_congr_left fun pair mem => ?_
      refine slot_unique distinct (slots_of ?_) (sent.conforming.toDeltasOf.slot_of ?_)
        (each pair mem)
      · rw [front]
        exact List.mem_map_of_mem mem
      · rw [back]
        exact List.mem_map_of_mem mem
    refine ⟨identified, parses, fun call mem => ?_, ordered.symm⟩
    obtain ⟨index, found, isPart⟩ := exists_slot mem
    rw [← ordered] at both
    have like := List.forall₂_same.mp both _ isPart "name" (by decide)
    rw [ChatMessage.item_call found, ChatMessage.item_call found] at like
    have names : some (Json.str call.bodyName) = some (.str call.shownName) := like
    exact (ChatCall.bodyName_eq_shownName_iff (named call mem)).mp
      (Json.str.inj (Option.some.inj names))
  · rintro ⟨identified, parses, bare, ordered⟩
    have proper : m.Proper := ⟨distinct, identified, named⟩
    obtain ⟨state, streamed⟩ := completed_of_parses off proper sent parses read
    rw [ordered] at streamed
    refine ⟨⟨.completed, state, status⟩, items, output, ?_⟩
    have names : ∀ slot ∈ m.slots,
        m.item ChatCall.bodyName slot = m.item ChatCall.shownName slot := by
      intro slot mem
      cases slot with
      | message => rfl
      | call index =>
          obtain ⟨call, found⟩ := slots_of mem
          have inside := ChatMessage.mem_of_callAt found
          rw [ChatMessage.item_call found, ChatMessage.item_call found,
            (ChatCall.bodyName_eq_shownName_iff (named call inside)).mpr (bare call inside)]
    have back : List.Forall₂ (fun item slot => SameButId item (m.item ChatCall.shownName slot))
        items m.slots := by
      refine (((List.forall₂_and_left _ _).mpr ⟨names, body⟩).imp fun slot item both => ?_).flip
      have like : SameButId (m.item ChatCall.bodyName slot) item := both.2
      rw [both.1] at like
      exact like.symm
    exact forall₂_comp (by exact fun _ _ _ first second => SameButId.trans first second) back
      streamed

/-- A message of one call. -/
def singleCall (arguments : String) : ChatMessage := ⟨"", [⟨"c", "f", arguments⟩]⟩

/-- Its body. -/
def singleBody (arguments : String) : Fields :=
  [("choices", .arr [.obj
    [("message", .obj [("tool_calls", .arr [.obj [("id", .str "c"),
        ("function", .obj [("name", .str "f"), ("arguments", .str arguments)])]])]),
      ("finish_reason", .str "tool_calls")]])]

theorem singleBody_carries (arguments : String) :
    Carries (singleCall arguments) (singleBody arguments) :=
  ⟨⟨_, _, [], _, rfl, rfl, List.mem_cons_of_mem _ List.mem_cons_self, rfl, rfl,
    .cons ⟨_, _, rfl, rfl, rfl, rfl, rfl⟩ .nil⟩, [], rfl⟩

/-- Its stream of one delta. -/
def singleSent (arguments : String) : Streamed (singleCall arguments) where
  deltas := [.call 0 "c" "f" arguments]
  conforming := by
    have only : ∀ index call, (singleCall arguments).callAt index = some call →
        index = 0 ∧ call = ⟨"c", "f", arguments⟩ := by
      intro index call found
      obtain ⟨position, rfl, held⟩ := ChatMessage.exists_of_callAt found
      cases position with
      | zero => exact ⟨rfl, (Option.some.inj held).symm⟩
      | succ position => cases held
    refine ⟨⟨?each, ?first⟩, rfl, ?calls⟩
    case each =>
      intro s mem
      obtain rfl := List.mem_singleton.mp mem
      exact ⟨_, rfl, .inr rfl, .inr rfl⟩
    case first =>
      intro before index id name fragment after split _ call found
      obtain ⟨_, rfl⟩ := only index call found
      have mem : Signal.call index id name fragment ∈ [Signal.call 0 "c" "f" arguments] := by
        rw [split]
        exact List.mem_append_right _ List.mem_cons_self
      cases List.mem_singleton.mp mem
      exact ⟨rfl, rfl⟩
    case calls =>
      intro index call found
      obtain ⟨rfl, rfl⟩ := only index call found
      refine ⟨by simp [slotsOf, Signal.slot?], ?_⟩
      show String.join [arguments] = arguments
      simp [String.join]
  furtherStops := 0

/-- The payload of its delta. -/
def singlePayload (arguments : String) : Fields :=
  callPayload [("index", .int 0), ("id", .str "c"),
    ("function", .obj [("name", .str "f"), ("arguments", .str arguments)])]

/-- The bytes of the stream. -/
def singleStream (arguments : String) : List Bytes :=
  [bytesOf ("data: " ++ dumps (.obj (singlePayload arguments)) ++ "\n\ndata: [DONE]\n\n")]

/-- What the adapter yields for them. -/
def singleArrivals (arguments : String) : List Arrival :=
  [.chunk (.toolCall "c" "f" arguments "" (some 0)), .chunk (.toolCallDone "c" "" (some 0)),
    .chunk .finish]

/-- A clock that stands still. -/
def stillClock : AnswerEnv where
  now := 0
  strOf := dumps

/-- An empty object for the arguments. -/
theorem singleCall_sameAnswer :
    SameAnswer (chatcompletionsToResponses stillClock (singleBody "\x7b\x7d") "m")
      (run plainEnv (.fresh plainEnv) (singleArrivals "\x7b\x7d") .upstreamEnd).pipeline := by
  refine (bothDeliveries_iff stillClock plainEnv ⟨rfl, rfl⟩
    (chatReading [singlePayload "\x7b\x7d"]) rfl (singleCall "\x7b\x7d") (by decide) (by decide)
    (singleBody "\x7b\x7d") "m" (singleBody_carries "\x7b\x7d") (singleSent "\x7b\x7d")
    (singleStream "\x7b\x7d") (by decide +kernel) ?said (singleArrivals "\x7b\x7d")
    (by decide +kernel)).mpr ⟨by decide, by decide, by decide, by decide⟩
  case said =>
    exact ⟨[([.call 0 "c" "f" "\x7b\x7d"], []), ([.stop], [])], by decide +kernel, rfl⟩

/-- No arguments at all: the body is answered as completed, the stream as failed. -/
theorem emptyCall_answers_differ :
    ¬ ∀ (answer : AnswerEnv) (env : Env) (_ : SpecialOff env) (upstream : AdapterEnv)
      (_ : upstream.dialect = .openai) (m : ChatMessage) (_ : (m.calls.map ChatCall.id).Nodup)
      (_ : ∀ call ∈ m.calls, call.name ≠ "") (resp : Fields) (model : String)
      (_ : Carries m resp) (sent : Streamed m) (stream : List Bytes)
      (_ : (framesOf stream).2 = false) (_ : Says upstream (framesOf stream).1 sent.signals)
      (arrivals : List Arrival) (_ : chunksOf arrivals = (iterChunks upstream stream).yielded),
      SameAnswer (chatcompletionsToResponses answer resp model)
        (run env (.fresh env) arrivals .upstreamEnd).pipeline := by
  intro all
  have same := all stillClock plainEnv ⟨rfl, rfl⟩ (chatReading [singlePayload ""]) rfl
    (singleCall "") (by decide) (by decide) (singleBody "") "m" (singleBody_carries "")
    (singleSent "") (singleStream "") (by decide +kernel)
    ⟨[([.call 0 "c" "f" ""], []), ([.stop], [])], by decide +kernel, rfl⟩ (singleArrivals "")
    (by decide +kernel)
  obtain ⟨status, state, reported⟩ := same.status
  have failed : (run plainEnv (.fresh plainEnv) (singleArrivals "") .upstreamEnd).pipeline.state
      = .ended .failed := by
    decide +kernel
  obtain rfl : status = .failed := LiveState.ended.inj (state.symm.trans failed)
  have completed : (chatcompletionsToResponses stillClock (singleBody "") "m").bind
      (Fields.get · "status") = some (.str "completed") := rfl
  have clash : some (Json.str "completed") = some (.str "failed") := completed.symm.trans reported
  exact absurd clash (by decide)

end Zhongzhuan.Responses
