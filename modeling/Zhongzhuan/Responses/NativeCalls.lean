import Zhongzhuan.Responses.CallReports
import Zhongzhuan.Responses.CompletionSignals
import Zhongzhuan.Responses.HonestTerminal
import Zhongzhuan.Responses.SpecialDeltas

/-!
# The calls of a native Responses upstream

A native upstream announces a function call with an `output_item.added` that carries its name
and its call id; the argument events that follow name only the item.

* `NativeStream` is a conforming stream: any number of calls, each with its own events in
  their order, interleaved with each other and with anything else.
* `Relayed` is what the client should receive of a call.
* The adapter drops the announcements and derives the calls from the argument deltas, so that
  no call ever has a name (`Chunk.Nameless`, `Anonymous`): `nativeCalls_relayed_iff`.
-/

namespace Zhongzhuan.Responses

open Kit Protocol

/-! ## A conforming stream -/

/-- The events of a function call; everything else a native upstream sends is `other`. -/
inductive NativeEvent
  | callAdded (index : ℤ) (itemId callId name : String)
  | argumentsDelta (index : ℤ) (itemId delta : String)
  | argumentsDone (index : ℤ) (itemId arguments : String)
  | callDone (index : ℤ) (itemId callId name arguments : String)
  | other
deriving DecidableEq, Repr

/-- The `output_index` of a call event. -/
def NativeEvent.index? : NativeEvent → Option ℤ
  | .callAdded index _ _ _ | .argumentsDelta index _ _ | .argumentsDone index _ _
  | .callDone index _ _ _ _ => some index
  | .other => none

/-- A function call of the upstream, with the deltas of its arguments. -/
structure NativeCall where
  index : ℤ
  itemId : String
  callId : String
  name : String
  deltas : List String
deriving DecidableEq, Repr

namespace NativeCall

/-- The concatenated arguments. -/
def arguments (call : NativeCall) : String := String.join call.deltas

/-- The events of the call, in their order. -/
def events (call : NativeCall) : List NativeEvent :=
  .callAdded call.index call.itemId call.callId call.name
    :: call.deltas.map (.argumentsDelta call.index call.itemId)
    ++ [.argumentsDone call.index call.itemId call.arguments,
        .callDone call.index call.itemId call.callId call.name call.arguments]

end NativeCall

/-- A conforming stream: every call has an index of its own and its events in order; what
stands between them is arbitrary. -/
structure NativeStream where
  events : List NativeEvent
  calls : List NativeCall
  distinct : (calls.map NativeCall.index).Nodup
  ordered : ∀ call ∈ calls,
    events.filter (fun e => e.index? = some call.index) = call.events
  known : ∀ e ∈ events, ∀ index ∈ e.index?, ∃ call ∈ calls, call.index = index
  named : ∀ call ∈ calls, call.name ≠ "" ∧ call.callId ≠ ""

/-- The item of a call event. -/
structure CallItem (payload : Fields) (itemId callId name arguments : String) : Prop where
  item : ∃ item, payload.get "item" = some (.obj item)
    ∧ Fields.get item "type" = some (.str "function_call")
    ∧ Fields.get item "id" = some (.str itemId)
    ∧ Fields.get item "call_id" = some (.str callId)
    ∧ Fields.get item "name" = some (.str name)
    ∧ Fields.get item "arguments" = some (.str arguments)

/-- The payload of a call event, by the fields the API documents: the argument events carry
the item id and the index, and neither a name nor a call id nor an item. -/
def NativeEvent.Payload (payload : Fields) : NativeEvent → Prop
  | .callAdded index itemId callId name =>
    payload.get "type" = some (.str "response.output_item.added")
      ∧ payload.get "output_index" = some (.int index)
      ∧ CallItem payload itemId callId name ""
  | .argumentsDelta index itemId delta =>
    payload.get "type" = some (.str "response.function_call_arguments.delta")
      ∧ payload.get "output_index" = some (.int index)
      ∧ payload.get "item_id" = some (.str itemId)
      ∧ payload.get "delta" = some (.str delta)
      ∧ payload.get "call_id" = none ∧ payload.get "name" = none
      ∧ payload.get "namespace" = none ∧ payload.get "item" = none
  | .argumentsDone index itemId arguments =>
    payload.get "type" = some (.str "response.function_call_arguments.done")
      ∧ payload.get "output_index" = some (.int index)
      ∧ payload.get "item_id" = some (.str itemId)
      ∧ payload.get "arguments" = some (.str arguments)
  | .callDone index itemId callId name arguments =>
    payload.get "type" = some (.str "response.output_item.done")
      ∧ payload.get "output_index" = some (.int index)
      ∧ CallItem payload itemId callId name arguments
  | .other =>
    (∃ type, payload.get "type" = some (.str type) ∧ type ≠ ""
      ∧ type ≠ "response.function_call_arguments.delta"
      ∧ type ≠ "response.function_call_arguments.done")
    ∧ ∀ item, payload.get "item" = some (.obj item) → isCallItem item = false

/-- The data of a frame carries the event; the sentinel is one of the others. -/
def NativeEvent.Carried (upstream : AdapterEnv) (data : String) (e : NativeEvent) : Prop :=
  if stripText data = "[DONE]" then e = .other
  else ∃ payload, upstream.loadsObject data = .ok (some payload) ∧ e.Payload payload

theorem NativeEvent.Carried.of_payload {upstream : AdapterEnv} {data : String} {payload : Fields}
    {e : NativeEvent} (ordinary : stripText data ≠ "[DONE]")
    (loads : upstream.loadsObject data = .ok (some payload)) (shape : e.Payload payload) :
    e.Carried upstream data := by
  unfold NativeEvent.Carried
  rw [if_neg ordinary]
  exact ⟨payload, loads, shape⟩

/-! ## No chunk has a name -/

/-- The chunk names no call: its fragment has neither name nor namespace, and its item is not
a function call. -/
def Chunk.Nameless : Chunk → Prop
  | .toolCall _ name _ nameSpace _ => name = "" ∧ nameSpace = ""
  | .rawOutputItem _ item => isCallItem item = false
  | _ => True

variable {upstream : AdapterEnv} {a : Adapter}

theorem finish_nameless (a : Adapter) : ∀ c ∈ a.finish.2, c.Nameless := by
  intro c mem
  rcases finish_kinds a c mem with rfl | ⟨id, index, rfl⟩ <;> trivial

theorem closeTool_nameless (a : Adapter) (index : ℤ) : ∀ c ∈ (a.closeTool index).2, c.Nameless := by
  intro c mem
  have one : c ∈ (a.closeTools [index]).2 := List.mem_append_left _ mem
  obtain ⟨id, i, rfl⟩ := closeTools_kinds a [index] c one
  trivial

theorem nativeItem_nameless {type : String} {payload : Fields} {chunks : List Chunk}
    (read : Adapter.nativeItem upstream type payload = .ok chunks) :
    ∀ c ∈ chunks, c.Nameless := by
  unfold Adapter.nativeItem at read
  split at read
  case h_1 item _ =>
    split at read
    · cases read
      exact nofun
    case isFalse other =>
      obtain ⟨index, _, read⟩ := bind_eq_ok read
      cases read
      intro c mem
      obtain rfl := List.mem_singleton.mp mem
      show isCallItem (Fields.put "output_index" (.int index) item) = false
      rw [isCallItem_put (by decide)]
      by_contra call
      have type : Fields.get item "type" = some (.str "function_call") := by
        simpa [isCallItem] using call
      exact other (by simp [AdapterEnv.strOr, type])
  case h_2 =>
    cases read
    exact nofun

theorem nativeChunks_nameless {event : String} {payload : Fields} {done : Adapter × List Chunk}
    (unnamed : nativeType upstream event payload = "response.function_call_arguments.delta" →
      payload.get "name" = none ∧ payload.get "namespace" = none ∧ payload.get "item" = none)
    (read : a.nativeChunks upstream event payload = .ok done) : ∀ c ∈ done.2, c.Nameless := by
  have named : upstream.strOr (orElse (payload.get "type") (some (.str event)))
      = nativeType upstream event payload := rfl
  unfold Adapter.nativeChunks at read
  dsimp only at read
  rw [named] at read
  split at read
  · cases read
    intro c mem
    split at mem
    · cases mem
    · obtain rfl := List.mem_singleton.mp mem
      trivial
  · split at read
    · obtain ⟨chunks, isChunks, read⟩ := bind_eq_ok read
      cases read
      exact nativeItem_nameless isChunks
    · split at read
      · cases read
        intro c mem
        split at mem
        · cases mem
        · obtain rfl := List.mem_singleton.mp mem
          trivial
      · split at read
        case isTrue fragment =>
          obtain ⟨name, nameSpace, item⟩ := unnamed fragment
          obtain ⟨index, _, read⟩ := bind_eq_ok read
          cases read
          intro c mem
          obtain rfl := List.mem_singleton.mp mem
          simp only [Chunk.Nameless, name, nameSpace, item]
          exact ⟨rfl, rfl⟩
        case isFalse _ =>
          split at read
          · obtain ⟨index, _, read⟩ := bind_eq_ok read
            cases read
            exact closeTool_nameless a index
          · split at read
            · obtain ⟨noted, _, read⟩ := bind_eq_ok read
              cases read
              exact finish_nameless noted
            · cases read
              exact nofun

theorem nativeType_of_type {event type : String} {payload : Fields}
    (typed : payload.get "type" = some (.str type)) (nonempty : type ≠ "") :
    nativeType upstream event payload = type := by
  have truthy : (Json.str type).truthy = true := by simp [Json.truthy, nonempty]
  simp [nativeType, typed, orElse, truthy, AdapterEnv.strOr]

/-- **The adapter never learns a name**: no chunk of a conforming native stream carries one. -/
theorem frameToChunks_nameless (native : upstream.dialect = .responses) {frame : SseFrame}
    {e : NativeEvent} (carried : e.Carried upstream frame.data) {done : Adapter × List Chunk}
    (read : a.frameToChunks upstream frame = .ok done) : ∀ c ∈ done.2, c.Nameless := by
  unfold Adapter.frameToChunks at read
  unfold NativeEvent.Carried at carried
  by_cases sentinel : stripText frame.data = "[DONE]"
  · rw [if_pos (by simp [Adapter.isDoneSentinel, sentinel])] at read
    cases read
    exact finish_nameless a
  · rw [if_neg (by simp [Adapter.isDoneSentinel, sentinel])] at read
    rw [if_neg sentinel] at carried
    obtain ⟨payload, isPayload, shape⟩ := carried
    simp only [isPayload, native, bind, Except.bind] at read
    refine nativeChunks_nameless (fun fragment => ?_) read
    have other : ∀ type, payload.get "type" = some (.str type) → type ≠ "" →
        type = "response.function_call_arguments.delta" := fun type typed nonempty =>
      (nativeType_of_type typed nonempty).symm.trans fragment
    cases e with
    | callAdded index itemId callId name => exact absurd (other _ shape.1 (by decide)) (by decide)
    | argumentsDelta index itemId delta =>
        obtain ⟨_, _, _, _, _, name, nameSpace, item⟩ := shape
        exact ⟨name, nameSpace, item⟩
    | argumentsDone index itemId arguments => exact absurd (other _ shape.1 (by decide)) (by decide)
    | callDone index itemId callId name arguments =>
        exact absurd (other _ shape.1 (by decide)) (by decide)
    | other =>
        obtain ⟨⟨type, typed, nonempty, notDelta, _⟩, _⟩ := shape
        exact absurd (other type typed nonempty) notDelta

theorem yielded_nameless (native : upstream.dialect = .responses) {frames : List SseFrame}
    {events : List NativeEvent}
    (carried : List.Forall₂ (fun e frame => e.Carried upstream frame.data) events frames)
    {g : Adapting} (before : ∀ c ∈ g.yielded, c.Nameless) :
    ∀ c ∈ (runSchedule (Adapting.frame upstream) g frames).yielded, c.Nameless := by
  induction carried generalizing g with
  | nil => exact before
  | cons here _ ih =>
      refine ih ?_
      unfold Adapting.frame
      split
      · exact before
      · split
        · exact before
        case h_2 done read =>
          intro c mem
          rcases List.mem_append.mp mem with old | new
          · exact before c old
          · exact frameToChunks_nameless native here read c new

/-! ## No item has a name -/

/-- A call nobody named. -/
def Unnamed (acc : ToolCallAccumulator) : Prop := acc.name = "" ∧ acc.nameSpace = ""

theorem Unnamed.bindCallId {acc : ToolCallAccumulator} (h : Unnamed acc) (callId : String) :
    Unnamed (acc.bindCallId callId) := by
  unfold ToolCallAccumulator.bindCallId
  split <;> exact h

theorem Unnamed.absorbName {acc : ToolCallAccumulator} (h : Unnamed acc) :
    Unnamed (acc.absorbName "" "") := by
  have split : splitNamespaceName "" = ("", "") := by decide
  simp [ToolCallAccumulator.absorbName, ToolCallAccumulator.restoreName, split,
    ToolCallAccumulator.replaceName, ToolCallAccumulator.applyNamespace]
  exact h

/-- The loop over a stream whose calls have no names. -/
structure Anonymous (loop : Loop) : Prop where
  running : loop.internalError = none
  special : loop.pipeline.specialCalls = .empty
  calls : loop.pipeline.tools.Holds Unnamed
  raw : ∀ entry ∈ loop.pipeline.openRawItems.entries, isCallItem entry.2 = false
  reports : ∀ report ∈ callReports loop.events, report.item.get "name" = some (.str "")

variable {env : Env} {p : Pipeline}

theorem startLoop_anonymous (env : Env) (p : Pipeline) : Anonymous (startLoop env p) :=
  ⟨rfl, rfl, .fresh Unnamed env.responseId, nofun, nofun⟩

/-- The reports of a chunk without a name, and what it leaves. -/
structure StaysAnonymous (p : Pipeline) (done : Translated) : Prop where
  special : done.pipeline.specialCalls = p.specialCalls
  calls : done.pipeline.tools.Holds Unnamed
  raw : (∀ entry ∈ p.openRawItems.entries, isCallItem entry.2 = false) →
    ∀ entry ∈ done.pipeline.openRawItems.entries, isCallItem entry.2 = false
  reports : ∀ report ∈ callReports done.emitted, report.item.get "name" = some (.str "")

theorem get_name_functionCallItem {acc : ToolCallAccumulator} (unnamed : Unnamed acc)
    (status : Status) (arguments : String) :
    Fields.get (functionCallItem acc status arguments) "name" = some (.str "") := by
  have same : Fields.get (functionCallItem acc status arguments) "name"
      = some (.str acc.name) := rfl
  rw [same, unnamed.1]

theorem translateRaw_others {event : String} {item : Fields} (other : isCallItem item = false)
    (others : ∀ entry ∈ p.openRawItems.entries, isCallItem entry.2 = false) :
    ∀ entry ∈ (p.translateRaw event item).1.openRawItems.entries,
      isCallItem entry.2 = false := by
  have kept : ∀ index v, p.openRawItems.get? index = some v → isCallItem v = false :=
    fun index v held => others (index, v) (Dict.mem_entries.mpr held)
  rintro ⟨index, v⟩ mem
  rw [Dict.mem_entries] at mem
  unfold Pipeline.translateRaw at mem
  dsimp only at mem
  split at mem
  · by_cases here : index = p.outputIndex
    · subst here
      simp at mem
    · exact kept index v ((Dict.get?_erase_of_ne p.openRawItems here).symm.trans mem)
  · simp only [Dict.get?_set] at mem
    split at mem
    · cases mem
      exact (isCallItem_put (by decide) _ item).trans other
    · exact kept index v mem

theorem translateChunk_anonymous (reliable : Reliable env) (plain : p.specialCalls = .empty)
    (calls : p.tools.Holds Unnamed) {c : Chunk} (nameless : c.Nameless) :
    StaysAnonymous p (p.translateChunk env c) := by
  have quiet : ∀ done : Pipeline × List Event, done.1.ledger = p.ledger →
      done.1.tools = p.tools → callReports done.2 = [] →
      StaysAnonymous p ⟨done.1, done.2, none⟩ := by
    intro done ledger tools silent
    have raw : done.1.openRawItems = p.openRawItems :=
      congrArg (fun ledger => ledger.2.1) ledger
    refine ⟨congrArg Prod.fst ledger, by rw [tools]; exact calls, fun others => by rwa [raw],
      fun report mem => ?_⟩
    rw [show callReports _ = [] from silent] at mem
    cases mem
  cases c with
  | text delta =>
      exact quiet _ (translateText_ledger delta) (congrArg Prod.fst (translateText_books delta))
        (translateText_reports delta)
  | reasoning delta =>
      exact quiet _ (translateReasoning_ledger delta)
        (congrArg Prod.fst (translateReasoning_books delta)) (translateReasoning_reports delta)
  | finish => exact quiet (_, []) rfl rfl rfl
  | rawOutputItem event item =>
      have other : isCallItem item = false := nameless
      have tools : (p.translateRaw event item).1.tools = p.tools :=
        congrArg Prod.fst (translateRaw_books event item)
      refine ⟨?_, ?_, fun others => translateRaw_others other others, fun report mem => ?_⟩
      · show (p.translateRaw event item).1.specialCalls = _
        unfold Pipeline.translateRaw
        dsimp only
        split <;> rfl
      · show (p.translateRaw event item).1.tools.Holds Unnamed
        rw [tools]
        exact calls
      · have silent : callReports (p.translateChunk env (.rawOutputItem event item)).emitted = [] :=
          translateRaw_reports event other
        rw [silent] at mem
        cases mem
  | toolCall callId name fragment nameSpace sourceIndex =>
      obtain ⟨rfl, rfl⟩ := nameless
      rw [Pipeline.translateChunk_of_ordinary (specialKind_of_unnamed env)]
      obtain ⟨acc, tools, index, unnamed, held, same⟩ := translateToolCall_spec callId ""
        fragment "" sourceIndex calls (fun _ h => h.bindCallId callId)
        (fun _ h => h.absorbName) (fun _ h => h) ⟨rfl, rfl⟩
      rw [same]
      refine ⟨rfl, held, id, fun report mem => ?_⟩
      have announced : callReports (announcement acc
          ++ [argumentsDelta acc.outputIndex acc.callId fragment])
          = callReports (announcement acc) := by
        rw [callReports_append]
        exact List.append_nil _
      rw [show callReports _ = callReports (announcement acc) from announced] at mem
      unfold announcement at mem
      split at mem
      · cases mem
      · obtain rfl := List.mem_singleton.mp mem
        exact get_name_functionCallItem unnamed _ _
  | toolCallDone callId arguments sourceIndex =>
      have ordinary : p.specialCalls.get? callId = none := by rw [plain]; rfl
      rw [Pipeline.translateChunk_of_ordinary_done ordinary]
      have shut : ∀ acc, Unnamed acc →
          Unnamed ((acc.noteVerdict (acc.validate env.loads)).markItemDone) := by
        intro acc unnamed
        cases acc.validate env.loads <;> exact unnamed
      rcases translateToolCallDone_spec callId arguments sourceIndex calls reliable.loads
        (fun _ h => h) shut with ⟨_, same⟩ | ⟨acc, tools, valid, unnamed, held, _, same⟩
      · rw [same]
        exact quiet (p, []) rfl rfl rfl
      · rw [same]
        refine ⟨rfl, held, id, fun report mem => ?_⟩
        unfold terminatorEvents at mem
        cases valid <;> obtain rfl := List.mem_singleton.mp mem <;>
          exact get_name_functionCallItem unnamed _ _

theorem Anonymous.receive {loop : Loop} (h : Anonymous loop) (reliable : Reliable env)
    {arrival : Arrival} (nameless : ∀ c, arrival = .chunk c → c.Nameless) :
    Anonymous (loop.receive env arrival) := by
  cases arrival with
  | heartbeat =>
      have events := @receive_heartbeat_events env loop
      have pipeline := @receive_heartbeat_pipeline env loop
      refine ⟨?_, ?_, ?_, ?_, ?_⟩
      · exact runSchedule_returns reliable [.heartbeat] h.running
      · rw [pipeline, h.special]
      · rw [pipeline]
        exact h.calls
      · rw [pipeline]
        exact h.raw
      · rw [events]
        exact h.reports
  | chunk c =>
      obtain ⟨special, calls, raw, reports⟩ :=
        translateChunk_anonymous reliable h.special h.calls (nameless c rfl)
      obtain ⟨running, pipeline, events⟩ :=
        receive_of_returned h.running (translateChunk_returns reliable c)
      refine ⟨running, ?_, ?_, ?_, ?_⟩
      · rw [pipeline, special, h.special]
      · rw [pipeline]
        exact calls
      · rw [pipeline]
        exact raw h.raw
      · rw [events, callReports_append]
        intro report mem
        rcases List.mem_append.mp mem with old | new
        · exact h.reports report old
        · exact reports report new

theorem Anonymous.run {loop : Loop} (h : Anonymous loop) (reliable : Reliable env)
    {arrivals : List Arrival} (nameless : ∀ c ∈ chunksOf arrivals, c.Nameless) :
    Anonymous (runSchedule (Loop.receive env) loop arrivals) := by
  induction arrivals generalizing loop with
  | nil => exact h
  | cons arrival rest ih =>
      rw [runSchedule_cons]
      refine ih (h.receive reliable ?_) fun c mem => nameless c ?_
      · rintro c rfl
        exact nameless c (List.mem_cons_self ..)
      · cases arrival with
        | heartbeat => exact mem
        | chunk first => exact List.mem_cons_of_mem _ mem

theorem run_anonymous (env : Env) (reliable : Reliable env) (p : Pipeline)
    {arrivals : List Arrival} (nameless : ∀ c ∈ chunksOf arrivals, c.Nameless) (ending : Ending) :
    ∀ report ∈ callReports (run env p arrivals ending).events,
      report.item.get "name" = some (.str "") := by
  have loop : Anonymous (loopOf env p arrivals) :=
    (startLoop_anonymous env p).run reliable nameless
  rw [run_of_returned loop.running, events_yields, callReports_append]
  intro report mem
  rcases List.mem_append.mp mem with old | new
  · exact loop.reports report old
  · have raw : (noteEnding (loopOf env p arrivals).pipeline ending).openRawItems
        = (loopOf env p arrivals).pipeline.openRawItems := by
      cases ending <;> rfl
    have tools : (noteEnding (loopOf env p arrivals).pipeline ending).tools
        = (loopOf env p arrivals).pipeline.tools := by
      cases ending <;> rfl
    obtain ⟨incomplete, reports, _⟩ := @conclude_reports env
      (noteEnding (loopOf env p arrivals).pipeline ending) (by rw [raw]; exact loop.raw) none
      (endingReason (loopOf env p arrivals).pipeline arrivals ending)
    rw [reports, tools] at new
    obtain ⟨acc, pending, rfl⟩ := List.mem_map.mp new
    obtain ⟨ref, _, found⟩ := ToolCallCollection.mem_listAll.mp (List.mem_of_mem_filter pending)
    have unnamed := loop.calls.each acc (List.mem_of_getElem? found)
    show some (Json.str acc.name) = _
    rw [unnamed.1]

/-! ## What the client receives -/

/-- The item is the upstream's call: its name, its call id and its arguments. -/
def NativeCall.isItem (call : NativeCall) (item : Fields) : Bool :=
  item.get "name" = some (.str call.name) && item.get "call_id" = some (.str call.callId)
    && item.get "arguments" = some (.str call.arguments)

/-- The client's stream closes exactly one function call item that is the upstream's call. -/
def Relayed (call : NativeCall) (events : List Event) : Prop :=
  ((callReports events).filter fun report => report.closing && call.isItem report.item).length = 1

instance (call : NativeCall) (events : List Event) : Decidable (Relayed call events) :=
  inferInstanceAs (Decidable (_ = _))

/-- **When the calls of a conforming native upstream reach the client**: only when it makes
none. -/
theorem nativeCalls_relayed_iff (env : Env) (reliable : Reliable env) (upstream : AdapterEnv)
    (native : upstream.dialect = .responses) (sent : NativeStream) (stream : List Bytes)
    (carried : List.Forall₂ (fun e frame => e.Carried upstream frame.data) sent.events
      (framesOf stream).1)
    (p : Pipeline) (arrivals : List Arrival)
    (read : chunksOf arrivals = (iterChunks upstream stream).yielded) (ending : Ending) :
    (∀ call ∈ sent.calls, Relayed call (run env p arrivals ending).events) ↔
      sent.calls = [] := by
  have nameless : ∀ c ∈ chunksOf arrivals, c.Nameless := by
    rw [read, iterChunks_eq]
    exact yielded_nameless native carried nofun
  have reports := run_anonymous env reliable p nameless ending
  constructor
  · intro relayed
    refine List.eq_nil_iff_forall_not_mem.mpr fun call mem => ?_
    have one := relayed call mem
    have unseen : (callReports (run env p arrivals ending).events).filter
        (fun report => report.closing && call.isItem report.item) = [] := by
      refine List.filter_eq_nil_iff.mpr fun report inside => ?_
      have name := reports report inside
      have differs : some (Json.str "") ≠ some (Json.str call.name) := by
        simpa using (sent.named call mem).1.symm
      simp [NativeCall.isItem, name, differs]
    unfold Relayed at one
    rw [unseen] at one
    cases one
  · intro none call mem
    rw [none] at mem
    cases mem

/-! ## One call -/

/-- The frames of a stream with one call, `f` with the arguments of an empty object: the text
of each and what it parses to. -/
def oneCallFrames : List (String × Fields) :=
  [("\x7b\"type\":\"response.output_item.added\",\"output_index\":0,"
      ++ "\"item\":\x7b\"type\":\"function_call\",\"id\":\"fc_1\",\"call_id\":\"call_1\","
      ++ "\"name\":\"f\",\"arguments\":\"\"\x7d\x7d",
      [("type", .str "response.output_item.added"), ("output_index", .int 0), ("item",
        .obj [("type", .str "function_call"), ("id", .str "fc_1"), ("call_id", .str "call_1"),
        ("name", .str "f"), ("arguments", .str "")])]),
    ("\x7b\"type\":\"response.function_call_arguments.delta\",\"item_id\":\"fc_1\","
      ++ "\"output_index\":0,\"delta\":\"\x7b\x7d\"\x7d",
      [("type", .str "response.function_call_arguments.delta"), ("item_id", .str "fc_1"),
        ("output_index", .int 0), ("delta", .str "\x7b\x7d")]),
    ("\x7b\"type\":\"response.function_call_arguments.done\",\"item_id\":\"fc_1\","
      ++ "\"output_index\":0,\"arguments\":\"\x7b\x7d\"\x7d",
      [("type", .str "response.function_call_arguments.done"), ("item_id", .str "fc_1"),
        ("output_index", .int 0), ("arguments", .str "\x7b\x7d")]),
    ("\x7b\"type\":\"response.output_item.done\",\"output_index\":0,"
      ++ "\"item\":\x7b\"type\":\"function_call\",\"id\":\"fc_1\",\"call_id\":\"call_1\","
      ++ "\"name\":\"f\",\"arguments\":\"\x7b\x7d\"\x7d\x7d",
      [("type", .str "response.output_item.done"), ("output_index", .int 0), ("item",
        .obj [("type", .str "function_call"), ("id", .str "fc_1"), ("call_id", .str "call_1"),
        ("name", .str "f"), ("arguments", .str "\x7b\x7d")])]),
    ("\x7b\"type\":\"response.completed\"\x7d",
      [("type", .str "response.completed")])]

/-- The events of these frames. -/
def oneCall : NativeStream where
  events := [.callAdded 0 "fc_1" "call_1" "f", .argumentsDelta 0 "fc_1" "\x7b\x7d",
    .argumentsDone 0 "fc_1" "\x7b\x7d", .callDone 0 "fc_1" "call_1" "f" "\x7b\x7d", .other]
  calls := [⟨0, "fc_1", "call_1", "f", ["\x7b\x7d"]⟩]
  distinct := by decide
  ordered := by decide
  known := by decide
  named := by decide

/-- The upstream that sends them. -/
def oneCallUpstream : AdapterEnv where
  dialect := .responses
  loads := fun text =>
    match oneCallFrames.find? fun frame => frame.1 = text with
    | some frame => .value (.obj frame.2)
    | none => .rejected
  intOfText := fun _ => none
  intOfFloat := fun _ => .ok none
  strOf := fun v => dumps v

/-- Their bytes. -/
def oneCallStream : List Bytes :=
  oneCallFrames.map fun frame => bytesOf "data: " ++ bytesOf frame.1 ++ [10, 10]

/-- What the adapter yields for them. -/
def oneCallArrivals : List Arrival :=
  [.chunk (.toolCall "fc_1" "" "\x7b\x7d" "" (some 0)), .chunk (.toolCallDone "fc_1" "" (some 0)),
    .chunk .finish]

theorem oneCall_payloads :
    List.Forall₂ (fun frame e => NativeEvent.Payload frame.2 e) oneCallFrames oneCall.events := by
  refine .cons ?added (.cons ?delta (.cons ?done (.cons ?itemDone (.cons ?other .nil))))
  case added => exact ⟨rfl, rfl, ⟨_, rfl, rfl, rfl, rfl, rfl, rfl⟩⟩
  case delta => exact ⟨rfl, rfl, rfl, rfl, rfl, rfl, rfl, rfl⟩
  case done => exact ⟨rfl, rfl, rfl, rfl⟩
  case itemDone => exact ⟨rfl, rfl, ⟨_, rfl, rfl, rfl, rfl, rfl, rfl⟩⟩
  case other => exact ⟨⟨_, rfl, by decide, by decide, by decide⟩, nofun⟩

theorem oneCall_carried :
    List.Forall₂ (fun e frame => e.Carried oneCallUpstream frame.data) oneCall.events
      (framesOf oneCallStream).1 := by
  have datas : (framesOf oneCallStream).1.map SseFrame.data = oneCallFrames.map Prod.fst := by
    decide +kernel
  have parsed : ∀ frame ∈ oneCallFrames, stripText frame.1 ≠ "[DONE]"
      ∧ oneCallUpstream.loadsObject frame.1 = .ok (some frame.2) := by
    decide +kernel
  have carried : List.Forall₂ (fun frame e => e.Carried oneCallUpstream frame.1)
      oneCallFrames oneCall.events :=
    ((List.forall₂_and_left _ _).mpr ⟨parsed, oneCall_payloads⟩).imp fun _ _ held =>
      NativeEvent.Carried.of_payload held.1.1 held.1.2 held.2
  have each : List.Forall₂ (fun e data => e.Carried oneCallUpstream data) oneCall.events
      ((framesOf oneCallStream).1.map SseFrame.data) := by
    rw [datas, List.forall₂_map_right_iff]
    exact carried.flip
  exact List.forall₂_map_right_iff.mp each

theorem oneCall_read :
    chunksOf oneCallArrivals = (iterChunks oneCallUpstream oneCallStream).yielded := by
  decide +kernel

theorem oneCall_not_relayed :
    ¬ ∀ call ∈ oneCall.calls,
      Relayed call (run plainEnv (.fresh plainEnv) oneCallArrivals .upstreamEnd).events := by
  intro relayed
  have none := (nativeCalls_relayed_iff plainEnv plainEnv_reliable oneCallUpstream rfl oneCall
    oneCallStream oneCall_carried (.fresh plainEnv) oneCallArrivals oneCall_read
    .upstreamEnd).mp relayed
  exact absurd none (by decide)

/-- The client receives the call without its name, under the item's id. -/
theorem oneCall_lost :
    ¬ ∀ (env : Env) (_ : Reliable env) (upstream : AdapterEnv) (_ : upstream.dialect = .responses)
      (sent : NativeStream) (stream : List Bytes)
      (_ : List.Forall₂ (fun e frame => e.Carried upstream frame.data) sent.events
        (framesOf stream).1)
      (p : Pipeline) (arrivals : List Arrival)
      (_ : chunksOf arrivals = (iterChunks upstream stream).yielded) (ending : Ending),
      ∀ call ∈ sent.calls, Relayed call (run env p arrivals ending).events := by
  intro all
  have relayed := all plainEnv plainEnv_reliable oneCallUpstream rfl oneCall oneCallStream
    oneCall_carried (.fresh plainEnv) oneCallArrivals oneCall_read .upstreamEnd
    ⟨0, "fc_1", "call_1", "f", ["\x7b\x7d"]⟩ (by decide)
  exact absurd relayed (by decide +kernel)

end Zhongzhuan.Responses
