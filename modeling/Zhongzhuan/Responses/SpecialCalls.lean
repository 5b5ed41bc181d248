import Zhongzhuan.Responses.CallFragments
import Zhongzhuan.Responses.WellFormedStream

/-!
# Special calls in the pipeline

A `tool_search` or `multi_agent_v1` call leaves the pipeline as one item of its own instead
of an ordinary function call.  The pipeline recognises a fragment by its name and collects by
its call id.

* `isSpecialItem` is what the client sees of a special call; `Watch` follows one call id
  through the loop: the fragments collected for it and the items announced for it.
* `translateChunk_foreign`: a chunk with another call id changes neither.
* `Watch.first`, `Watch.run_foreign` and `Watch.last` are the phases of a call: its first
  fragment, everything of other calls, and the terminator that turns it into an item.
-/

namespace Zhongzhuan.Responses

open Kit Protocol

/-! ## What the client sees -/

/-- An item synthesised for the special call `callId`: a `tool_search_call`, or a function
call in the multi-agent namespace. -/
def isSpecialItem (callId : String) (item : Fields) : Bool :=
  (item.get "type" = some (.str "tool_search_call")
      || item.get "type" = some (.str "function_call")
        && item.get "namespace" = some (.str multiAgentNamespace))
    && item.get "call_id" = some (.str callId)

/-- The special item an event announces. -/
def Event.specialItem (callId : String) (e : Event) : Option Fields :=
  match e.type, e.data.get "item" with
  | .outputItemAdded, some (.obj item) => if isSpecialItem callId item then some item else none
  | _, _ => none

/-- The special items a list of events announces for a call. -/
def specialItems (callId : String) (events : List Event) : List Fields :=
  events.filterMap (Event.specialItem callId)

variable {env : Env} {p : Pipeline} {callId : String}

@[simp] theorem specialItems_nil : specialItems callId [] = [] := rfl

@[simp] theorem specialItems_append (events more : List Event) :
    specialItems callId (events ++ more)
      = specialItems callId events ++ specialItems callId more := by
  unfold specialItems
  rw [List.filterMap_append]

theorem specialItem_of_type {e : Event} (type : e.type ≠ .outputItemAdded) :
    e.specialItem callId = none := by
  unfold Event.specialItem
  split
  case h_1 added _ => exact absurd added type
  case h_2 => rfl

theorem specialItems_of_types {events : List Event}
    (types : ∀ e ∈ events, e.type ≠ .outputItemAdded) : specialItems callId events = [] := by
  unfold specialItems
  rw [List.filterMap_eq_nil_iff]
  exact fun e mem => specialItem_of_type (types e mem)

theorem specialItem_itemAdded (index : ℕ) (item : Fields) :
    (itemAdded index item).specialItem callId
      = if isSpecialItem callId item then some item else none := rfl

theorem specialItems_announced {index : ℕ} {item : Fields} {events : List Event}
    (plain : isSpecialItem callId item = false)
    (types : ∀ e ∈ events, e.type ≠ .outputItemAdded) :
    specialItems callId (itemAdded index item :: events) = [] := by
  have rest : specialItems callId events = [] := specialItems_of_types types
  unfold specialItems at rest ⊢
  rw [List.filterMap_cons, specialItem_itemAdded, plain]
  exact rest

/-! ### Items that are not special -/

theorem isSpecialItem_rejectItem (other : String) :
    isSpecialItem callId (Pipeline.rejectItem other) = false := rfl

theorem isSpecialItem_output {item : Fields}
    (type : item.get "type" = some (.str "function_call_output")) :
    isSpecialItem callId item = false := by
  simp [isSpecialItem, type]

theorem isSpecialItem_toolSearchCall (index : ℕ) (other arguments responseId : String) :
    isSpecialItem callId (buildToolSearchCall index other arguments responseId)
      = decide (other = callId) := by
  simp [isSpecialItem, buildToolSearchCall, Fields.get, List.lookup]

theorem isSpecialItem_multiAgentCallItem (other name arguments : String) :
    isSpecialItem callId (Pipeline.multiAgentCallItem other name arguments)
      = decide (other = callId) := by
  simp [isSpecialItem, Pipeline.multiAgentCallItem, Fields.get, List.lookup]

theorem isSpecialItem_functionCallItem {acc : ToolCallAccumulator} (status : Status)
    (arguments : String) (ordinary : acc.nameSpace ≠ multiAgentNamespace) :
    isSpecialItem callId (functionCallItem acc status arguments) = false := by
  unfold functionCallItem namespaceField
  split <;> simp [isSpecialItem, bareFunctionCallItem, Fields.get, List.lookup, ordinary]

/-! ## Ordinary calls stay ordinary -/

theorem rpartition_prefix (sep : Char) (text : List Char) :
    (rpartition sep text).1 <+: text := by
  unfold rpartition
  rw [← List.reverse_suffix, List.reverse_reverse]
  exact (List.drop_suffix _ _).trans (List.dropWhile_suffix _)

/-- A flattened name never carries the multi-agent namespace: what stands before the last
separator still begins with `mcp__`. -/
theorem splitNamespaceName_fst_ne (name : String) :
    (splitNamespaceName name).1 ≠ multiAgentNamespace := by
  have cut : ∀ sep, startsWith name namespacePrefix →
      String.ofList (rpartition sep name.toList).1 ≠ multiAgentNamespace := by
    intro sep flattened same
    have front : namespacePrefix.toList <+: name.toList :=
      List.isPrefixOf_iff_prefix.mp flattened
    have part : multiAgentNamespace.toList <+: name.toList := by
      rw [← same, String.toList_ofList]
      exact rpartition_prefix sep _
    -- the two beginnings differ in their second letter
    obtain ⟨rest, isFront⟩ := front
    obtain ⟨rest', isPart⟩ := part
    rw [← isFront] at isPart
    simp [multiAgentNamespace, namespacePrefix] at isPart
  unfold splitNamespaceName
  split
  case isTrue flattened =>
    split
    · exact cut '.' flattened
    · split
      · exact cut '-' flattened
      · exact fun h => by simp [multiAgentNamespace] at h
  case isFalse _ => exact fun h => by simp [multiAgentNamespace] at h

/-- The call is outside the multi-agent namespace. -/
def Ordinary (acc : ToolCallAccumulator) : Prop := acc.nameSpace ≠ multiAgentNamespace

theorem Ordinary.replaceName {acc : ToolCallAccumulator} (h : Ordinary acc) (name : String) :
    Ordinary (acc.replaceName name) := by
  unfold ToolCallAccumulator.replaceName
  split <;> exact h

theorem Ordinary.bindCallId {acc : ToolCallAccumulator} (h : Ordinary acc) (id : String) :
    Ordinary (acc.bindCallId id) := by
  unfold ToolCallAccumulator.bindCallId
  split <;> exact h

theorem Ordinary.absorbName {acc : ToolCallAccumulator} (h : Ordinary acc) (name : String) :
    Ordinary (acc.absorbName name "") := by
  show Ordinary ((acc.restoreName name).applyNamespace "")
  unfold ToolCallAccumulator.applyNamespace ToolCallAccumulator.restoreName
  rw [if_pos rfl]
  dsimp only
  split
  case isTrue _ => exact h.replaceName name
  case isFalse _ =>
    refine Ordinary.replaceName ?_ _
    exact splitNamespaceName_fst_ne name

/-! ## Chunks of other calls -/

/-- What the pipeline relies on: `json.loads` reports bad text by a `ValueError`, and the
orchestrator answers every request with a `function_call_output`. -/
structure Reliable (env : Env) : Prop where
  loads : ∀ text message, env.loads text ≠ .raised message
  handle : ∀ handle, env.multiAgent = some handle → ∀ earlier request,
    ∃ item, handle earlier request = .ok item
      ∧ item.get "type" = some (.str "function_call_output")

theorem plainEnv_reliable : Reliable plainEnv where
  loads := fun text message raised => by
    simp only [plainEnv] at raised
    split at raised <;> cases raised
  handle := nofun

theorem Reliable.answers (reliable : Reliable env)
    {handle : List HandleRequest → HandleRequest → Except String Fields}
    (given : env.multiAgent = some handle) {earlier : List HandleRequest}
    {request : HandleRequest} {answer : Except String Fields}
    (asked : handle earlier request = answer) :
    ∃ item, answer = .ok item ∧ item.get "type" = some (.str "function_call_output") := by
  subst asked
  exact reliable.handle handle given earlier request

/-- A chunk of a Chat Completions upstream that does not carry the call id. -/
def Chunk.Foreign (callId : String) : Chunk → Prop
  | .toolCall id _ _ nameSpace _ => id ≠ callId ∧ nameSpace = ""
  | .toolCallDone id _ _ => id ≠ callId
  | .rawOutputItem _ _ => False
  | .text _ | .reasoning _ | .finish => True

/-- The text a chunk adds to the message. -/
def Chunk.messageText : Chunk → List String
  | .text delta => [delta]
  | _ => []

/-- A step from `p` to `q` that leaves the call `callId` alone: the fragments collected for it
stay, no item is announced for it, and `texts` is all the message gains. -/
structure Unnoticed (callId : String) (p : Pipeline) (texts : List String) (q : Pipeline)
    (events : List Event) : Prop where
  pending : q.specialCalls.get? callId = p.specialCalls.get? callId
  silent : specialItems callId events = []
  texts : q.messageText = p.messageText ++ texts
  calls : p.tools.Holds Ordinary → q.tools.Holds Ordinary

namespace Unnoticed

variable {q r : Pipeline} {texts more : List String} {events events' : List Event}

theorem of_same (special : q.specialCalls = p.specialCalls) (tools : q.tools = p.tools)
    (text : q.messageText = p.messageText) (silent : specialItems callId events = []) :
    Unnoticed callId p [] q events where
  pending := by rw [special]
  silent := silent
  texts := by rw [text, List.append_nil]
  calls := fun h => by rwa [tools]

theorem trans (one : Unnoticed callId p texts q events)
    (two : Unnoticed callId q more r events') :
    Unnoticed callId p (texts ++ more) r (events ++ events') where
  pending := two.pending.trans one.pending
  silent := by rw [specialItems_append, one.silent, two.silent, List.append_nil]
  texts := by rw [two.texts, one.texts, List.append_assoc]
  calls := fun h => two.calls (one.calls h)

end Unnoticed

theorem closeReasoning_unnoticed (incomplete : Bool) :
    Unnoticed callId p [] (p.closeReasoning incomplete).1 (p.closeReasoning incomplete).2 := by
  unfold Pipeline.closeReasoning
  split
  · exact .of_same rfl rfl rfl rfl
  · refine .of_same rfl rfl rfl ?_
    dsimp only
    split <;> rfl

theorem openReasoningItem_unnoticed :
    Unnoticed callId p [] (p.openReasoningItem env).1 (p.openReasoningItem env).2 :=
  .of_same rfl rfl rfl rfl

theorem ensureReasoningLifecycle_unnoticed :
    Unnoticed callId p [] (p.ensureReasoningLifecycle env).1
      (p.ensureReasoningLifecycle env).2 := by
  unfold Pipeline.ensureReasoningLifecycle
  split
  · exact .of_same rfl rfl rfl rfl
  · split
    · exact .of_same rfl rfl rfl rfl
    · split
      · exact .of_same rfl rfl rfl rfl
      · have opened : Unnoticed callId p [] (p.openReasoningItem env).1 _ :=
          openReasoningItem_unnoticed
        have spoken : Unnoticed callId (p.openReasoningItem env).1 []
            (p.openReasoningItem env).1
            [reasoningDelta (makeReasoningItemId env.responseId p.outputIndex) p.outputIndex ""] :=
          .of_same rfl rfl rfl rfl
        exact (opened.trans spoken).trans (closeReasoning_unnoticed false)

theorem translateReasoning_unnoticed (delta : String) :
    Unnoticed callId p [] (p.translateReasoning env delta).1
      (p.translateReasoning env delta).2 := by
  have opened : Unnoticed callId p []
      (if p.openReasoning.isSome then (p, []) else p.openReasoningItem env).1
      (if p.openReasoning.isSome then (p, []) else p.openReasoningItem env).2 := by
    split
    · exact .of_same rfl rfl rfl rfl
    · exact openReasoningItem_unnoticed
  unfold Pipeline.translateReasoning
  split
  · exact .of_same rfl rfl rfl rfl
  · dsimp only
    split
    · exact opened
    · refine opened.trans ?_
      exact .of_same rfl rfl rfl rfl

theorem openMessageItem_unnoticed :
    Unnoticed callId p [] (p.openMessageItem env).1 (p.openMessageItem env).2 := by
  have closed : Unnoticed callId p [] (p.closeReasoning false).1 _ :=
    closeReasoning_unnoticed false
  have ensured : Unnoticed callId (p.closeReasoning false).1 []
      ((p.closeReasoning false).1.ensureReasoningLifecycle env).1 _ :=
    ensureReasoningLifecycle_unnoticed
  exact (closed.trans ensured).trans (.of_same rfl rfl rfl rfl)

theorem translateText_unnoticed (delta : String) :
    Unnoticed callId p [delta] (p.translateText env delta).1 (p.translateText env delta).2 := by
  have opened : Unnoticed callId p []
      (if p.openMessage.isSome then (p, []) else p.openMessageItem env).1
      (if p.openMessage.isSome then (p, []) else p.openMessageItem env).2 := by
    split
    · exact .of_same rfl rfl rfl rfl
    · exact openMessageItem_unnoticed
  have here :
      (if p.openMessage.isSome then (p, []) else p.openMessageItem env).1.openMessage.isSome := by
    split
    case isTrue held => exact held
    case isFalse _ => rfl
  unfold Pipeline.translateText
  dsimp only
  split
  case h_1 none => rw [none] at here; cases here
  case h_2 item _ => exact opened.trans ⟨rfl, rfl, rfl, id⟩

/-! ### The end of another special call -/

section Others

variable {other : String}

theorem specialItems_emitSpecialItem {item : Fields} (q : Pipeline)
    (plain : isSpecialItem callId item = false) :
    specialItems callId (q.emitSpecialItem item).2 = [] := by
  refine specialItems_announced plain fun e mem => ?_
  obtain rfl : e = itemDone q.outputIndex item := by simpa using mem
  exact nofun

theorem emitSpecialItem_unnoticed {item : Fields} (plain : isSpecialItem callId item = false) :
    Unnoticed callId p [] (p.emitSpecialItem item).1 (p.emitSpecialItem item).2 :=
  .of_same rfl rfl rfl (specialItems_emitSpecialItem p plain)

theorem Unnoticed.drops {q : Pipeline} {texts : List String} {events : List Event}
    (h : Unnoticed callId p texts q events) (ne : other ≠ callId) :
    Unnoticed callId p texts (q.dropSpecial other) events where
  pending := (Dict.get?_erase_of_ne _ (Ne.symm ne)).trans h.pending
  silent := h.silent
  texts := h.texts
  calls := h.calls

theorem objectOf_of_reliable (reliable : Reliable env) (text : String) :
    ∃ fields, objectOf env.loads text = .ok fields := by
  unfold objectOf
  split
  case h_1 fields _ => exact ⟨fields, rfl⟩
  case h_2 => exact ⟨[], rfl⟩
  case h_3 => exact ⟨[], rfl⟩
  case h_4 message raised => exact absurd raised (reliable.loads text message)

theorem parseArgs_of_reliable (reliable : Reliable env) (text : String) :
    ∃ fields, Pipeline.parseArgs env.loads text = .ok fields := by
  unfold Pipeline.parseArgs
  split
  · exact ⟨[], rfl⟩
  · exact objectOf_of_reliable reliable _

theorem patchSpawnAgentArguments_of_reliable (reliable : Reliable env)
    (args lastUserText leaderText : String) :
    ∃ patched, patchSpawnAgentArguments env.loads args lastUserText leaderText = .ok patched := by
  unfold patchSpawnAgentArguments
  split
  case' isFalse _ =>
    obtain ⟨fields, isRead⟩ := objectOf_of_reliable reliable args
    rw [isRead]
  all_goals
    simp only [bind, Except.bind]
    split
    · exact ⟨_, rfl⟩
    · split
      · exact ⟨_, rfl⟩
      · split <;> exact ⟨_, rfl⟩

theorem patchArguments_of_reliable (reliable : Reliable env) (p : Pipeline)
    (name args : String) : ∃ patched, p.patchArguments env name args = .ok patched := by
  unfold Pipeline.patchArguments
  split
  case isFalse _ => exact ⟨_, rfl⟩
  case isTrue _ =>
    obtain ⟨patched, isPatched⟩ := patchSpawnAgentArguments_of_reliable reliable args
      env.lastUserText (String.join p.messageText)
    obtain ⟨orig, isParsed⟩ := parseArgs_of_reliable reliable args
    simp only [isPatched, isParsed, bind, Except.bind]
    cases patched <;> exact ⟨_, rfl⟩

theorem finalizeToolSearch_unnoticed (reliable : Reliable env) (ne : other ≠ callId)
    (args : String) :
    (p.finalizeToolSearch env other args).raised = none
      ∧ Unnoticed callId p [] (p.finalizeToolSearch env other args).pipeline
          (p.finalizeToolSearch env other args).emitted := by
  have call : ∀ arguments, isSpecialItem callId
      (buildToolSearchCall p.outputIndex other arguments env.responseId) = false := by
    intro arguments
    rw [isSpecialItem_toolSearchCall, decide_eq_false ne]
  obtain ⟨parsed, isParsed⟩ := parseArgs_of_reliable reliable args
  unfold Pipeline.finalizeToolSearch
  dsimp only
  split
  case h_1 _ => exact ⟨rfl, (emitSpecialItem_unnoticed (call _)).drops ne⟩
  case h_2 _ =>
    rw [isParsed]
    refine ⟨rfl, Unnoticed.drops ?_ ne⟩
    exact (emitSpecialItem_unnoticed (call _)).trans
      (emitSpecialItem_unnoticed (isSpecialItem_output rfl))

theorem finalizeMultiAgent_unnoticed (reliable : Reliable env) (ne : other ≠ callId)
    {handle : List HandleRequest → HandleRequest → Except String Fields}
    (given : env.multiAgent = some handle) (name args : String) :
    (p.finalizeMultiAgent env handle other name args).raised = none
      ∧ Unnoticed callId p [] (p.finalizeMultiAgent env handle other name args).pipeline
          (p.finalizeMultiAgent env handle other name args).emitted := by
  obtain ⟨⟨patched, rejected⟩, isPatched⟩ := patchArguments_of_reliable reliable p name args
  have call : isSpecialItem callId (Pipeline.multiAgentCallItem other name patched) = false := by
    rw [isSpecialItem_multiAgentCallItem, decide_eq_false ne]
  have echoed : Unnoticed callId p []
      (p.emitSpecialItem (Pipeline.multiAgentCallItem other name patched)).1 _ :=
    emitSpecialItem_unnoticed call
  unfold Pipeline.finalizeMultiAgent
  rw [isPatched]
  dsimp only
  have refused : ∀ q : Pipeline, Unnoticed callId q []
      (if rejected then q.emitSpecialItem (Pipeline.rejectItem other) else (q, [])).1
      (if rejected then q.emitSpecialItem (Pipeline.rejectItem other) else (q, [])).2 := by
    intro q
    split
    · exact emitSpecialItem_unnoticed (isSpecialItem_rejectItem other)
    · exact .of_same rfl rfl rfl rfl
  split
  case h_1 _ => exact ⟨rfl, (echoed.trans (refused _)).drops ne⟩
  case h_2 _ =>
    split
    case h_1 message failed =>
      obtain ⟨item, answered, _⟩ := reliable.answers given failed
      cases answered
    case h_2 result asked =>
      obtain ⟨item, answered, type⟩ := reliable.answers given asked
      cases answered
      refine ⟨rfl, Unnoticed.drops ?_ ne⟩
      refine (echoed.trans (refused _)).trans ?_
      exact .of_same rfl rfl rfl (specialItems_emitSpecialItem _ (isSpecialItem_output type))

theorem translateToolCallDone_unnoticed (reliable : Reliable env)
    (ordinary : p.tools.Holds Ordinary) (arguments : String) (sourceIndex : Option ℤ) :
    (p.translateToolCallDone env other arguments sourceIndex).raised = none
      ∧ Unnoticed callId p [] (p.translateToolCallDone env other arguments sourceIndex).pipeline
        (p.translateToolCallDone env other arguments sourceIndex).emitted := by
  have shut : ∀ acc, Ordinary acc →
      Ordinary ((acc.noteVerdict (acc.validate env.loads)).markItemDone) := by
    intro acc good
    cases acc.validate env.loads <;> exact good
  rcases translateToolCallDone_spec other arguments sourceIndex ordinary reliable.loads
    (fun _ good => good) shut with
    ⟨_, same⟩ | ⟨acc, tools, valid, _, held, _, same⟩
  · rw [same]
    exact ⟨rfl, .of_same rfl rfl rfl rfl⟩
  · rw [same]
    refine ⟨rfl, rfl, ?_, (List.append_nil _).symm, fun _ => held⟩
    cases valid <;> rfl

theorem translateDone_unnoticed (reliable : Reliable env) (ne : other ≠ callId)
    (ordinary : p.tools.Holds Ordinary) (arguments : String) (sourceIndex : Option ℤ) :
    (p.translateChunk env (.toolCallDone other arguments sourceIndex)).raised = none
      ∧ Unnoticed callId p []
        (p.translateChunk env (.toolCallDone other arguments sourceIndex)).pipeline
        (p.translateChunk env (.toolCallDone other arguments sourceIndex)).emitted := by
  cases held : p.specialCalls.get? other with
  | none =>
      rw [Pipeline.translateChunk_of_ordinary_done held]
      exact translateToolCallDone_unnoticed reliable ordinary arguments sourceIndex
  | some call =>
      let q : Pipeline :=
        { p with
          specialCalls := p.specialCalls.set other
            { call with args := if arguments = "" then call.args else arguments } }
      have noted : Unnoticed callId p [] q [] :=
        ⟨Dict.get?_set_of_ne _ _ (Ne.symm ne), rfl, (List.append_nil _).symm, id⟩
      have after : ∀ done : Translated,
          done.raised = none ∧ Unnoticed callId q [] done.pipeline done.emitted →
          done.raised = none ∧ Unnoticed callId p [] done.pipeline done.emitted :=
        fun done h => ⟨h.1, noted.trans h.2⟩
      rw [Pipeline.translateChunk, Pipeline.finalizeSpecialCall, held]
      dsimp only
      split
      case h_1 done isDone =>
        split at isDone
        case h_1 =>
          split at isDone
          · cases isDone
            exact after _ (finalizeToolSearch_unnoticed reliable ne _)
          · cases isDone
        case h_2 handle given =>
          cases isDone
          exact after _ (finalizeMultiAgent_unnoticed reliable ne given _ _)
        case h_3 => cases isDone
      case h_2 q' isLeft =>
        have same : q' = q := by
          split at isLeft
          · split at isLeft
            · cases isLeft
            · exact (Sum.inr.inj isLeft).symm
          · cases isLeft
          · exact (Sum.inr.inj isLeft).symm
        subst same
        have still : q.tools.Holds Ordinary := ordinary
        exact after _ (translateToolCallDone_unnoticed reliable still arguments sourceIndex)

end Others

theorem accumulateSpecial_unnoticed {other : String} (ne : other ≠ callId) (kind : SpecialKind)
    (name fragment : String) :
    Unnoticed callId p [] (p.accumulateSpecial other kind name fragment) [] :=
  ⟨Dict.get?_set_of_ne _ _ (Ne.symm ne), rfl, (List.append_nil _).symm, id⟩

theorem translateToolCall_ordinary (ordinary : p.tools.Holds Ordinary)
    (other name arguments : String) (sourceIndex : Option ℤ) :
    ∃ acc tools index, Ordinary acc ∧ tools.Holds Ordinary
      ∧ p.translateToolCall other name arguments "" sourceIndex
        = ({ p with tools := tools, outputIndex := index, state := .streaming },
            announcement acc ++ [argumentsDelta acc.outputIndex acc.callId arguments]) := by
  have new : Ordinary (p.tools.newAccumulator p.outputIndex other sourceIndex) := by
    show "" ≠ multiAgentNamespace
    decide
  exact translateToolCall_spec other name arguments "" sourceIndex ordinary
    (fun acc good => Ordinary.bindCallId good other)
    (fun acc good => Ordinary.absorbName good name) (fun _ good => good) new

theorem translateToolCall_unnoticed (ordinary : p.tools.Holds Ordinary)
    (other name arguments : String) (sourceIndex : Option ℤ) :
    Unnoticed callId p [] (p.translateToolCall other name arguments "" sourceIndex).1
      (p.translateToolCall other name arguments "" sourceIndex).2 := by
  obtain ⟨acc, tools, index, good, held, same⟩ :=
    translateToolCall_ordinary ordinary other name arguments sourceIndex
  rw [same]
  refine ⟨rfl, ?_, (List.append_nil _).symm, fun _ => held⟩
  rw [specialItems_append]
  unfold announcement
  split
  · rfl
  · rw [specialItems_announced (isSpecialItem_functionCallItem _ _ good) (by simp)]
    rfl

theorem translateToolCall_answered (ordinary : p.tools.Holds Ordinary)
    (other name arguments : String) (sourceIndex : Option ℤ) :
    ∃ e ∈ (p.translateToolCall other name arguments "" sourceIndex).2,
      e.type = .functionCallArgumentsDelta := by
  obtain ⟨acc, tools, index, _, _, same⟩ :=
    translateToolCall_ordinary ordinary other name arguments sourceIndex
  rw [same]
  exact ⟨_, List.mem_append_right _ (List.mem_singleton.mpr rfl), rfl⟩

/-- **A chunk of another call** changes nothing for the call `callId`, and raises nothing. -/
theorem translateChunk_foreign (reliable : Reliable env) {c : Chunk} (foreign : c.Foreign callId)
    (ordinary : p.tools.Holds Ordinary) :
    (p.translateChunk env c).raised = none
      ∧ Unnoticed callId p c.messageText (p.translateChunk env c).pipeline
          (p.translateChunk env c).emitted := by
  cases c with
  | rawOutputItem event item => exact foreign.elim
  | reasoning delta => exact ⟨rfl, translateReasoning_unnoticed delta⟩
  | text delta => exact ⟨rfl, translateText_unnoticed delta⟩
  | finish => exact ⟨rfl, .of_same rfl rfl rfl rfl⟩
  | toolCallDone other arguments sourceIndex =>
      exact translateDone_unnoticed reliable foreign ordinary arguments sourceIndex
  | toolCall other name arguments nameSpace sourceIndex =>
      obtain ⟨ne, rfl⟩ := foreign
      cases special : Pipeline.specialKind env name "" with
      | some found =>
          rw [Pipeline.translateChunk_of_special special]
          exact ⟨rfl, accumulateSpecial_unnoticed ne _ _ _⟩
      | none =>
          rw [Pipeline.translateChunk_of_ordinary special]
          exact ⟨rfl, translateToolCall_unnoticed ordinary other name arguments sourceIndex⟩

/-! ## The call in the loop -/

/-- The chunk of an arrival. -/
def Arrival.chunk? : Arrival → Option Chunk
  | .chunk c => some c
  | .heartbeat => none

/-- The chunks among the arrivals. -/
def chunksOf (arrivals : List Arrival) : List Chunk := arrivals.filterMap Arrival.chunk?

/-- The loop as the call `callId` sees it: the fragments collected, the items announced and
the text of the message so far. -/
structure Watch (callId : String) (pending : Option SpecialCall) (items : List Fields)
    (texts : List String) (loop : Loop) : Prop where
  running : loop.internalError = none
  pending : loop.pipeline.specialCalls.get? callId = pending
  items : specialItems callId loop.events = items
  texts : loop.pipeline.messageText = texts
  calls : loop.pipeline.tools.Holds Ordinary

section Loops

variable {loop : Loop} {pending : Option SpecialCall} {items : List Fields}
  {texts : List String}

theorem receive_of_returned {c : Chunk} (running : loop.internalError = none)
    (returned : (loop.pipeline.translateChunk env c).raised = none) :
    (loop.receive env (.chunk c)).internalError = none
      ∧ (loop.receive env (.chunk c)).pipeline = (loop.pipeline.translateChunk env c).pipeline
      ∧ (loop.receive env (.chunk c)).events
          = loop.events ++ (loop.pipeline.translateChunk env c).emitted := by
  simp [Loop.receive, running, returned, Loop.events, List.filterMap_map]

theorem startLoop_watch (env : Env) (p : Pipeline) (callId : String) :
    Watch callId none [] [] (startLoop env p) :=
  ⟨rfl, rfl, rfl, rfl, .fresh Ordinary env.responseId⟩

theorem Watch.foreign (h : Watch callId pending items texts loop) (reliable : Reliable env)
    {c : Chunk} (foreign : c.Foreign callId) :
    Watch callId pending items (texts ++ c.messageText) (loop.receive env (.chunk c)) := by
  obtain ⟨returned, unnoticed⟩ := translateChunk_foreign reliable foreign h.calls
  obtain ⟨running, pipeline, events⟩ := receive_of_returned h.running returned
  refine ⟨running, ?_, ?_, ?_, ?_⟩
  · rw [pipeline, unnoticed.pending, h.pending]
  · rw [events, specialItems_append, h.items, unnoticed.silent, List.append_nil]
  · rw [pipeline, unnoticed.texts, h.texts]
  · rw [pipeline]
    exact unnoticed.calls h.calls

theorem Watch.run_foreign (h : Watch callId pending items texts loop) (reliable : Reliable env)
    (arrivals : List Arrival) (foreign : ∀ c ∈ chunksOf arrivals, c.Foreign callId) :
    Watch callId pending items (texts ++ (chunksOf arrivals).flatMap Chunk.messageText)
      (runSchedule (Loop.receive env) loop arrivals) := by
  induction arrivals generalizing loop texts with
  | nil => simpa [chunksOf] using h
  | cons arrival rest ih =>
      rw [runSchedule_cons]
      cases arrival with
      | heartbeat =>
          refine ih ?_ foreign
          have same : loop.receive env .heartbeat
              = { loop with frames := loop.frames ++ [.heartbeat] } := by
            simp [Loop.receive, h.running]
          rw [same]
          refine ⟨h.running, h.pending, ?_, h.texts, h.calls⟩
          rw [← h.items]
          simp [Loop.events]
      | chunk c =>
          have step := h.foreign reliable (foreign c (List.mem_cons_self ..))
          have more := ih step fun c' mem => foreign c' (List.mem_cons_of_mem _ mem)
          rw [List.append_assoc] at more
          exact more

theorem Watch.first (h : Watch callId none items texts loop) {name bare : String}
    {kind : SpecialKind} (fragment : String) (sourceIndex : Option ℤ)
    (special : Pipeline.specialKind env name "" = some (kind, bare)) :
    Watch callId (some ⟨bare, kind, fragment⟩) items texts
      (loop.receive env (.chunk (.toolCall callId name fragment "" sourceIndex))) := by
  have step : loop.pipeline.translateChunk env (.toolCall callId name fragment "" sourceIndex)
      = ⟨loop.pipeline.accumulateSpecial callId kind bare fragment, [], none⟩ :=
    Pipeline.translateChunk_of_special special
  obtain ⟨running, pipeline, events⟩ := receive_of_returned h.running (by rw [step])
  rw [step] at pipeline events
  refine ⟨running, ?_, ?_, ?_, ?_⟩
  · rw [pipeline]
    simp [Pipeline.accumulateSpecial, h.pending]
  · rw [events, List.append_nil, h.items]
  · rw [pipeline]
    exact h.texts
  · rw [pipeline]
    exact h.calls

/-- The arguments of the item, from the collected ones: an empty `tool_search` call gets an
empty object, and `spawn_agent` may be patched. -/
def settledArguments (env : Env) (kind : SpecialKind) (name : String) (texts : List String)
    (args : String) : Except String String :=
  match kind with
  | .toolSearch => .ok (if args = "" then "\x7b\x7d" else args)
  | .multiAgent =>
    ({ Pipeline.fresh env with messageText := texts }.patchArguments env name args).map Prod.fst

/-- A step that ends the call `callId` with one item. -/
structure Settles (callId : String) (p : Pipeline) (item : Fields) (done : Translated) :
    Prop where
  returned : done.raised = none
  dropped : done.pipeline.specialCalls.get? callId = none
  announced : specialItems callId done.emitted = [item]
  texts : done.pipeline.messageText = p.messageText
  tools : done.pipeline.tools = p.tools

theorem specialItems_emitted {item : Fields} (q : Pipeline)
    (special : isSpecialItem callId item = true) :
    specialItems callId (q.emitSpecialItem item).2 = [item] := by
  show [itemAdded q.outputIndex item, itemDone q.outputIndex item].filterMap _ = _
  rw [List.filterMap_cons, specialItem_itemAdded, special]
  rfl

theorem finalizeToolSearch_settles (reliable : Reliable env) (p : Pipeline)
    (callId name args : String) :
    ∃ item settled, settledArguments env .toolSearch name p.messageText args = .ok settled
      ∧ item.get "arguments" = some (.str settled)
      ∧ Settles callId p item (p.finalizeToolSearch env callId args) := by
  obtain ⟨parsed, isParsed⟩ := parseArgs_of_reliable reliable args
  let arguments := if args = "" then "\x7b\x7d" else args
  let item := buildToolSearchCall p.outputIndex callId arguments env.responseId
  have nonempty : arguments ≠ "" := by
    show (if args = "" then "\x7b\x7d" else args) ≠ ""
    split
    · decide
    · assumption
  have call : specialItems callId (p.emitSpecialItem item).2 = [item] :=
    specialItems_emitted p (by rw [isSpecialItem_toolSearchCall, decide_eq_true rfl])
  refine ⟨item, arguments, rfl, ?_, ?_⟩
  · show some (Json.str (if arguments = "" then "\x7b\x7d" else arguments)) = _
    rw [if_neg nonempty]
  · unfold Pipeline.finalizeToolSearch
    dsimp only
    split
    case h_1 _ => exact ⟨rfl, Dict.get?_erase_self _ _, call, rfl, rfl⟩
    case h_2 _ =>
      rw [isParsed]
      refine ⟨rfl, Dict.get?_erase_self _ _, ?_, rfl, rfl⟩
      show specialItems callId ((p.emitSpecialItem item).2 ++ (Pipeline.emitSpecialItem _ _).2) = _
      rw [specialItems_append, call, specialItems_emitSpecialItem _ (isSpecialItem_output rfl)]
      rfl

theorem finalizeMultiAgent_settles (reliable : Reliable env) (p : Pipeline)
    {handle : List HandleRequest → HandleRequest → Except String Fields}
    (given : env.multiAgent = some handle) (callId name args : String) :
    ∃ item settled, settledArguments env .multiAgent name p.messageText args = .ok settled
      ∧ item.get "arguments" = some (.str settled)
      ∧ Settles callId p item (p.finalizeMultiAgent env handle callId name args) := by
  obtain ⟨⟨patched, rejected⟩, isPatched⟩ := patchArguments_of_reliable reliable p name args
  let item := Pipeline.multiAgentCallItem callId name patched
  have call : specialItems callId (p.emitSpecialItem item).2 = [item] :=
    specialItems_emitted p (by rw [isSpecialItem_multiAgentCallItem, decide_eq_true rfl])
  refine ⟨item, patched, ?_, rfl, ?_⟩
  · show Except.map Prod.fst (p.patchArguments env name args) = _
    rw [isPatched]
    rfl
  · have refused : ∀ q : Pipeline,
        Unnoticed callId q []
          (if rejected then q.emitSpecialItem (Pipeline.rejectItem callId) else (q, [])).1
          (if rejected then q.emitSpecialItem (Pipeline.rejectItem callId) else (q, [])).2
        ∧ (if rejected then q.emitSpecialItem (Pipeline.rejectItem callId)
            else (q, [])).1.tools = q.tools := by
      intro q
      split
      · exact ⟨emitSpecialItem_unnoticed (isSpecialItem_rejectItem callId), rfl⟩
      · exact ⟨.of_same rfl rfl rfl rfl, rfl⟩
    obtain ⟨unnoticed, tools⟩ := refused (p.emitSpecialItem item).1
    have texts := unnoticed.texts
    rw [List.append_nil] at texts
    unfold Pipeline.finalizeMultiAgent
    rw [isPatched]
    dsimp only
    split
    case h_1 _ =>
      refine ⟨rfl, Dict.get?_erase_self _ _, ?_, texts, tools⟩
      show specialItems callId ((p.emitSpecialItem item).2 ++ _) = _
      rw [specialItems_append, call, unnoticed.silent]
      rfl
    case h_2 _ =>
      split
      case h_1 message failed =>
        obtain ⟨item, answered, _⟩ := reliable.answers given failed
        cases answered
      case h_2 result asked =>
        obtain ⟨_, answered, type⟩ := reliable.answers given asked
        cases answered
        refine ⟨rfl, Dict.get?_erase_self _ _, ?_, texts, tools⟩
        show specialItems callId
          ((p.emitSpecialItem item).2 ++ _ ++ (Pipeline.emitSpecialItem _ _).2) = _
        rw [specialItems_append, specialItems_append, call, unnoticed.silent,
          specialItems_emitSpecialItem _ (isSpecialItem_output type)]
        rfl

theorem Watch.last {name bare args : String} {kind : SpecialKind}
    (h : Watch callId (some ⟨bare, kind, args⟩) items texts loop) (reliable : Reliable env)
    (sourceIndex : Option ℤ) (special : Pipeline.specialKind env name "" = some (kind, bare)) :
    ∃ item settled, settledArguments env kind bare texts args = .ok settled
      ∧ item.get "arguments" = some (.str settled)
      ∧ Watch callId none (items ++ [item]) texts
          (loop.receive env (.chunk (.toolCallDone callId "" sourceIndex))) := by
  have enabled := specialKind_enabled special
  let q : Pipeline :=
    { loop.pipeline with
      specialCalls := loop.pipeline.specialCalls.set callId ⟨bare, kind, args⟩ }
  have ended : ∀ {item : Fields} {done : Translated},
      loop.pipeline.translateChunk env (.toolCallDone callId "" sourceIndex) = done →
      Settles callId q item done →
      Watch callId none (items ++ [item]) texts
        (loop.receive env (.chunk (.toolCallDone callId "" sourceIndex))) := by
    rintro item done rfl settles
    obtain ⟨running, pipeline, events⟩ := receive_of_returned h.running settles.returned
    refine ⟨running, ?_, ?_, ?_, ?_⟩
    · rw [pipeline, settles.dropped]
    · rw [events, specialItems_append, h.items, settles.announced]
    · rw [pipeline, settles.texts]
      exact h.texts
    · rw [pipeline, settles.tools]
      exact h.calls
  have held : loop.pipeline.specialCalls.get? callId = some ⟨bare, kind, args⟩ :=
    h.pending
  have same : q.messageText = texts := h.texts
  cases kind with
  | toolSearch =>
      obtain ⟨item, settled, isSettled, arguments, settles⟩ :=
        finalizeToolSearch_settles reliable q callId bare args
      rw [same] at isSettled
      refine ⟨item, settled, isSettled, arguments, ended ?_ settles⟩
      rw [Pipeline.translateChunk, Pipeline.finalizeSpecialCall, held]
      simp [show env.toolSearchEnabled = true from enabled, q]
  | multiAgent =>
      obtain ⟨handle, given⟩ := Option.isSome_iff_exists.mp enabled
      obtain ⟨item, settled, isSettled, arguments, settles⟩ :=
        finalizeMultiAgent_settles reliable q given callId bare args
      rw [same] at isSettled
      refine ⟨item, settled, isSettled, arguments, ended ?_ settles⟩
      rw [Pipeline.translateChunk, Pipeline.finalizeSpecialCall, held]
      simp [given, q]

end Loops

/-! ### The end of the stream announces nothing -/

theorem specialItems_map_itemDone {α : Type} (l : List α) (f : α → ℕ × Fields) :
    specialItems callId (l.map fun x => itemDone (f x).1 (f x).2) = [] :=
  specialItems_of_types fun e mem => by
    obtain ⟨x, _, rfl⟩ := List.mem_map.mp mem
    exact nofun

theorem specialItems_closeOpenItems (p : Pipeline) (incomplete : Bool) :
    specialItems callId (p.closeOpenItems incomplete).2 = [] := by
  have message : ∀ q : Pipeline, specialItems callId (q.closeMessage incomplete).2 = [] := by
    intro q
    unfold Pipeline.closeMessage
    split
    · rfl
    · dsimp only
      split <;> rfl
  have tools : ∀ q : Pipeline, specialItems callId (q.closeTools incomplete).2 = [] := fun q =>
    specialItems_map_itemDone (q.tools.listAll.filter Pipeline.isPending) fun acc =>
      (acc.outputIndex,
        bareFunctionCallItem acc (closingStatus incomplete) acc.arguments)
  have raw : ∀ q : Pipeline, specialItems callId q.closeRaw.2 = [] := fun q =>
    specialItems_map_itemDone q.openRawItems.entries fun entry =>
      (entry.1, Fields.put "status" (.str Status.incomplete.value) entry.2)
  unfold Pipeline.closeOpenItems
  dsimp only
  rw [specialItems_append, specialItems_append, specialItems_append,
    (closeReasoning_unnoticed incomplete).silent, message, tools, raw]
  rfl

theorem specialItems_conclude (p : Pipeline) (error : Option String)
    (reason : Option TerminalReason) :
    specialItems callId (conclude env p error reason).2 = [] := by
  have terminal : ∀ reason strict,
      specialItems callId (p.terminalFrames env reason strict).2 = [] := by
    intro reason strict
    unfold Pipeline.terminalFrames
    dsimp only
    rw [specialItems_append, specialItems_closeOpenItems]
    refine specialItems_of_types fun e mem => ?_
    obtain rfl := List.mem_singleton.mp mem
    show terminalType _ ≠ _
    unfold terminalType
    split <;> exact nofun
  unfold conclude
  split
  case h_1 message =>
    unfold Pipeline.internalFailedFrames
    dsimp only
    rw [specialItems_append, specialItems_closeOpenItems]
    rfl
  case h_2 =>
    split
    case isTrue _ => exact terminal _ _
    case isFalse _ =>
      split
      case h_1 => exact terminal _ _
      case h_2 =>
        unfold Pipeline.completedFrames
        dsimp only
        rw [specialItems_append, specialItems_closeOpenItems]
        rfl

theorem specialItems_run (env : Env) (p : Pipeline) (arrivals : List Arrival) (ending : Ending) :
    specialItems callId (run env p arrivals ending).events
      = specialItems callId
          (runSchedule (Loop.receive env) (startLoop env p) arrivals).events := by
  unfold run
  dsimp only
  split <;> rw [events_yields, specialItems_append, specialItems_conclude, List.append_nil]

end Zhongzhuan.Responses
