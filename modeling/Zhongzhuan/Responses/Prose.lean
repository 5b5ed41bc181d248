import Zhongzhuan.Responses.SpecialCalls

/-!
# The prose of a response

The message and the reasoning of a response live in attributes that only the text and the
reasoning branches of `_translate_chunk` look at.

* `Pipeline.prose` collects these attributes, `withProse` puts others in their place.
* `translateChunk_withProse`: every other chunk commutes with such a replacement, so that it
  neither reads nor changes them.
* `Prose.Tidy` is what holds of them in every run, and `MessageSeen` and `ReasoningSeen` what
  they remember of the chunks.
* `translateChunk_returns`: with a reliable environment no chunk raises.
-/

namespace Zhongzhuan.Responses

open Kit Protocol

/-- The attributes of the message item, of the reasoning item, and the counters nothing
reads. -/
structure Prose where
  openMessage : Option OpenItem
  messageItem : Option OpenItem
  messagePartId : Option String
  openReasoning : Option OpenItem
  reasoningText : List String
  reasoningPartId : Option String
  stats : PipelineStats

/-- The prose of a pipeline. -/
def Pipeline.prose (p : Pipeline) : Prose where
  openMessage := p.openMessage
  messageItem := p.messageItem
  messagePartId := p.messagePartId
  openReasoning := p.openReasoning
  reasoningText := p.reasoningText
  reasoningPartId := p.reasoningPartId
  stats := p.stats

/-- The pipeline with other prose. -/
def Pipeline.withProse (p : Pipeline) (prose : Prose) : Pipeline :=
  { p with
    openMessage := prose.openMessage
    messageItem := prose.messageItem
    messagePartId := prose.messagePartId
    openReasoning := prose.openReasoning
    reasoningText := prose.reasoningText
    reasoningPartId := prose.reasoningPartId
    stats := prose.stats }

/-- A translation that ends in a pipeline with other prose. -/
def Translated.withProse (done : Translated) (prose : Prose) : Translated :=
  { done with pipeline := done.pipeline.withProse prose }

/-- A chunk of the text or of the reasoning. -/
def Chunk.isProse : Chunk → Bool
  | .text _ | .reasoning _ => true
  | _ => false

variable {env : Env} {p : Pipeline} {prose : Prose}

@[simp] theorem prose_withProse : (p.withProse prose).prose = prose := rfl

@[simp] theorem withProse_prose : p.withProse p.prose = p := rfl

theorem eq_of_prose {q : Pipeline} (same : q.prose = p.prose) :
    q.openMessage = p.openMessage ∧ q.messageItem = p.messageItem
      ∧ q.messagePartId = p.messagePartId ∧ q.openReasoning = p.openReasoning
      ∧ q.reasoningText = p.reasoningText ∧ q.reasoningPartId = p.reasoningPartId :=
  ⟨congrArg Prose.openMessage same, congrArg Prose.messageItem same,
    congrArg Prose.messagePartId same, congrArg Prose.openReasoning same,
    congrArg Prose.reasoningText same, congrArg Prose.reasoningPartId same⟩

/-! ## Chunks that are not prose -/

section Frame

theorem translateRaw_withProse (event : String) (item : Fields) :
    (p.withProse prose).translateRaw event item
      = ((p.translateRaw event item).1.withProse prose, (p.translateRaw event item).2) := by
  unfold Pipeline.translateRaw
  dsimp only
  split <;> rfl

theorem translateToolCall_withProse (callId name fragment nameSpace : String)
    (sourceIndex : Option ℤ) :
    (p.withProse prose).translateToolCall callId name fragment nameSpace sourceIndex
      = ((p.translateToolCall callId name fragment nameSpace sourceIndex).1.withProse prose,
          (p.translateToolCall callId name fragment nameSpace sourceIndex).2) := by
  unfold Pipeline.translateToolCall
  dsimp only [Pipeline.withProse]
  split
  · rfl
  · split <;> rfl

theorem translateToolCallDone_withProse (callId arguments : String) (sourceIndex : Option ℤ) :
    (p.withProse prose).translateToolCallDone env callId arguments sourceIndex
      = (p.translateToolCallDone env callId arguments sourceIndex).withProse prose := by
  unfold Pipeline.translateToolCallDone
  dsimp only [Pipeline.withProse]
  split
  · rfl
  · split
    · rfl
    · split <;> rfl

theorem finalizeToolSearch_withProse (callId args : String) :
    (p.withProse prose).finalizeToolSearch env callId args
      = (p.finalizeToolSearch env callId args).withProse prose := by
  unfold Pipeline.finalizeToolSearch
  dsimp only
  split
  · rfl
  · split <;> rfl

theorem finalizeMultiAgent_withProse
    (handle : List HandleRequest → HandleRequest → Except String Fields)
    (callId name args : String) :
    (p.withProse prose).finalizeMultiAgent env handle callId name args
      = (p.finalizeMultiAgent env handle callId name args).withProse prose := by
  have same : (p.withProse prose).patchArguments env name args
      = p.patchArguments env name args := rfl
  unfold Pipeline.finalizeMultiAgent
  rw [same]
  cases p.patchArguments env name args with
  | error message => rfl
  | ok patched =>
      obtain ⟨arguments, rejected⟩ := patched
      cases rejected <;> simp only [Bool.false_eq_true, ↓reduceIte] <;>
        cases env.spawnExecution with
      | client => rfl
      | server =>
          dsimp only [Pipeline.emitSpecialItem, Pipeline.withProse, Pipeline.bumpIndex]
          split <;> rfl

theorem finalizeSpecialCall_withProse (callId arguments : String) :
    (p.withProse prose).finalizeSpecialCall env callId arguments
      = (p.finalizeSpecialCall env callId arguments).map (·.withProse prose)
          (·.withProse prose) := by
  have same : (p.withProse prose).specialCalls = p.specialCalls := rfl
  unfold Pipeline.finalizeSpecialCall
  rw [same]
  cases p.specialCalls.get? callId with
  | none => rfl
  | some call =>
      dsimp only
      split
      · split
        · exact congrArg Sum.inl
            (finalizeToolSearch_withProse (p := { p with specialCalls := _ }) callId _)
        · rfl
      · exact congrArg Sum.inl
          (finalizeMultiAgent_withProse (p := { p with specialCalls := _ }) _ callId call.name _)
      · rfl

theorem translateChunk_withProse {c : Chunk} (other : c.isProse = false) (prose : Prose) :
    (p.withProse prose).translateChunk env c = (p.translateChunk env c).withProse prose := by
  cases c with
  | text delta => cases other
  | reasoning delta => cases other
  | rawOutputItem event item =>
      simp only [Pipeline.translateChunk, translateRaw_withProse]
      rfl
  | toolCall callId name arguments nameSpace sourceIndex =>
      simp only [Pipeline.translateChunk]
      cases Pipeline.specialKind env name nameSpace with
      | some special => rfl
      | none =>
          simp only [translateToolCall_withProse]
          rfl
  | toolCallDone callId arguments sourceIndex =>
      simp only [Pipeline.translateChunk, finalizeSpecialCall_withProse]
      cases p.finalizeSpecialCall env callId arguments with
      | inl special => rfl
      | inr q => exact translateToolCallDone_withProse callId arguments sourceIndex
  | finish => rfl

theorem translateChunk_prose {c : Chunk} (other : c.isProse = false) :
    (p.translateChunk env c).pipeline.prose = p.prose := by
  have same := @translateChunk_withProse env p _ other p.prose
  rw [withProse_prose] at same
  rw [same]
  rfl

end Frame

/-! ## What the prose remembers -/

/-- A chunk of the text. -/
def Chunk.isText : Chunk → Bool
  | .text _ => true
  | _ => false

/-- A chunk of the reasoning that is not empty; an empty one is skipped. -/
def Chunk.isThought : Chunk → Bool
  | .reasoning delta => delta ≠ ""
  | _ => false

/-- An item is open exactly as long as its part is, and a message once opened is kept for the
output array. -/
structure Tidy (p : Pipeline) : Prop where
  message : p.openMessage = none → p.messagePartId = none
  reasoning : p.openReasoning = none → p.reasoningPartId = none
  kept : p.openMessage.isSome → p.messageItem.isSome

/-- The prose after some chunks: whether there was text among them, and reasoning. -/
structure Remembers (chunks : List Chunk) (p : Pipeline) : Prop extends Tidy p where
  spoke : p.messageItem.isSome = chunks.any Chunk.isText
  thought : p.reasoningText.isEmpty = !chunks.any Chunk.isThought

theorem Tidy.of_prose {q : Pipeline} (same : q.prose = p.prose) (h : Tidy p) : Tidy q := by
  obtain ⟨message, item, part, reasoning, _, summary⟩ := eq_of_prose same
  refine ⟨?_, ?_, ?_⟩
  · rw [message, part]
    exact h.message
  · rw [reasoning, summary]
    exact h.reasoning
  · rw [message, item]
    exact h.kept

theorem closeReasoning_tidy (h : Tidy p) (incomplete : Bool) :
    Tidy (p.closeReasoning incomplete).1 := by
  unfold Pipeline.closeReasoning
  cases held : p.openReasoning with
  | none => exact h
  | some item => exact ⟨h.message, fun _ => rfl, h.kept⟩

/-- The attributes of the message and the text of the reasoning, before and after. -/
structure SameRecord (p q : Pipeline) : Prop where
  openMessage : q.openMessage = p.openMessage
  messageItem : q.messageItem = p.messageItem
  messagePartId : q.messagePartId = p.messagePartId
  reasoningText : q.reasoningText = p.reasoningText

theorem closeReasoning_record (incomplete : Bool) :
    SameRecord p (p.closeReasoning incomplete).1 := by
  unfold Pipeline.closeReasoning
  cases p.openReasoning <;> exact ⟨rfl, rfl, rfl, rfl⟩

theorem ensureReasoningLifecycle_record :
    SameRecord p (p.ensureReasoningLifecycle env).1 := by
  unfold Pipeline.ensureReasoningLifecycle
  split
  · exact ⟨rfl, rfl, rfl, rfl⟩
  · split
    · exact ⟨rfl, rfl, rfl, rfl⟩
    · rename_i silent
      split
      · exact ⟨rfl, rfl, rfl, rfl⟩
      · have empty : p.openReasoning = none ∧ p.reasoningText = [] := by
          simpa using silent
        exact ⟨rfl, rfl, rfl, empty.2.symm⟩

theorem ensureReasoningLifecycle_tidy (h : Tidy p) :
    Tidy (p.ensureReasoningLifecycle env).1 := by
  unfold Pipeline.ensureReasoningLifecycle
  split
  · exact h
  · split
    · exact h
    · split
      · exact h
      · exact ⟨h.message, fun _ => rfl, h.kept⟩

theorem translateText_remembers {chunks : List Chunk} (h : Remembers chunks p)
    (delta : String) :
    Remembers (chunks ++ [.text delta]) (p.translateText env delta).1 := by
  have thoughts : (chunks ++ [Chunk.text delta]).any Chunk.isThought
      = chunks.any Chunk.isThought := by
    rw [List.any_append]
    exact Bool.or_false _
  have spoken : (chunks ++ [Chunk.text delta]).any Chunk.isText = true := by
    rw [List.any_append]
    exact Bool.or_true _
  unfold Pipeline.translateText
  cases held : p.openMessage with
  | some item =>
      simp only [Option.isSome_some, if_true, held]
      refine ⟨⟨nofun, h.reasoning, fun _ => ?_⟩, ?_, ?_⟩
      · exact h.kept (by rw [held]; rfl)
      · rw [spoken]
        exact h.kept (by rw [held]; rfl)
      · rw [thoughts]
        exact h.thought
  | none =>
      simp only [Option.isSome_none, Bool.false_eq_true, if_false]
      have closed := closeReasoning_tidy h.toTidy false
      have ensured := @ensureReasoningLifecycle_tidy env _ closed
      have text : ((p.closeReasoning false).1.ensureReasoningLifecycle env).1.reasoningText
          = p.reasoningText :=
        ensureReasoningLifecycle_record.reasoningText.trans
          (closeReasoning_record false).reasoningText
      refine ⟨⟨nofun, ensured.reasoning, fun _ => rfl⟩, ?_, ?_⟩
      · rw [spoken]
        rfl
      · rw [thoughts, ← h.thought, ← text]
        rfl

theorem translateReasoning_remembers {chunks : List Chunk} (h : Remembers chunks p)
    (delta : String) :
    Remembers (chunks ++ [.reasoning delta]) (p.translateReasoning env delta).1 := by
  have texts : (chunks ++ [Chunk.reasoning delta]).any Chunk.isText = chunks.any Chunk.isText := by
    rw [List.any_append]
    exact Bool.or_false _
  unfold Pipeline.translateReasoning
  by_cases skipped : delta = ""
  · have thoughts : (chunks ++ [Chunk.reasoning delta]).any Chunk.isThought
        = chunks.any Chunk.isThought := by
      simp [Chunk.isThought, skipped]
    rw [if_pos skipped]
    exact ⟨h.toTidy, h.spoke.trans texts.symm, h.thought.trans (by rw [thoughts])⟩
  · have thoughts : (chunks ++ [Chunk.reasoning delta]).any Chunk.isThought = true := by
      simp [Chunk.isThought, skipped]
    rw [if_neg skipped]
    cases held : p.openReasoning with
    | some item =>
        simp only [Option.isSome_some, if_true, held]
        exact ⟨⟨h.message, nofun, h.kept⟩, h.spoke.trans texts.symm, by simp [thoughts]⟩
    | none =>
        simp only [Option.isSome_none, Bool.false_eq_true, if_false,
          Pipeline.openReasoningItem]
        exact ⟨⟨h.message, nofun, h.kept⟩, h.spoke.trans texts.symm, by simp [thoughts]⟩

theorem translateChunk_remembers {chunks : List Chunk} (h : Remembers chunks p) (c : Chunk) :
    Remembers (chunks ++ [c]) (p.translateChunk env c).pipeline := by
  cases prosaic : c.isProse with
  | true =>
      cases c with
      | text delta => exact translateText_remembers h delta
      | reasoning delta => exact translateReasoning_remembers h delta
      | _ => cases prosaic
  | false =>
      have same := @translateChunk_prose env p _ prosaic
      obtain ⟨_, item, _, _, text, _⟩ := eq_of_prose same
      have silent : c.isText = false ∧ c.isThought = false := by
        cases c <;> first | exact ⟨rfl, rfl⟩ | cases prosaic
      refine ⟨h.toTidy.of_prose same, ?_, ?_⟩
      · rw [item, h.spoke, List.any_append]
        simp [silent.1]
      · rw [text, h.thought, List.any_append]
        simp [silent.2]

theorem receive_pipeline {loop : Loop} (running : loop.internalError = none) (c : Chunk) :
    (loop.receive env (.chunk c)).pipeline
      = (loop.pipeline.translateChunk env c).pipeline := by
  unfold Loop.receive
  rw [running]
  dsimp only
  split <;> rfl

theorem receive_heartbeat_pipeline (loop : Loop) :
    (loop.receive env .heartbeat).pipeline = loop.pipeline := by
  unfold Loop.receive
  cases loop.internalError <;> rfl

theorem receive_heartbeat_events (loop : Loop) :
    (loop.receive env .heartbeat).events = loop.events := by
  cases raised : loop.internalError <;> simp [Loop.receive, raised, Loop.events]

theorem runSchedule_of_raised {loop : Loop} {message : String}
    (raised : loop.internalError = some message) (arrivals : List Arrival) :
    runSchedule (Loop.receive env) loop arrivals = loop := by
  induction arrivals with
  | nil => rfl
  | cons arrival rest ih =>
      have still : loop.receive env arrival = loop := by
        unfold Loop.receive
        rw [raised]
      rw [runSchedule_cons, still, ih]

/-- An exception ends the loop, so that what a run remembers is a beginning of what arrived:
all of it when there was none. -/
theorem runSchedule_remembers (env : Env) (arrivals : List Arrival) {loop : Loop}
    {chunks : List Chunk} (h : Remembers chunks loop.pipeline) :
    ∃ heard, heard <+: chunksOf arrivals
      ∧ ((runSchedule (Loop.receive env) loop arrivals).internalError = none →
          heard = chunksOf arrivals)
      ∧ Remembers (chunks ++ heard) (runSchedule (Loop.receive env) loop arrivals).pipeline := by
  induction arrivals generalizing loop chunks with
  | nil => exact ⟨[], List.prefix_rfl, fun _ => rfl, by rwa [List.append_nil]⟩
  | cons arrival rest ih =>
      rw [runSchedule_cons]
      cases arrival with
      | heartbeat =>
          exact ih (receive_heartbeat_pipeline loop ▸ h)
      | chunk c =>
          cases raised : loop.internalError with
          | some message =>
              have still : loop.receive env (.chunk c) = loop := by
                unfold Loop.receive
                rw [raised]
              rw [still, runSchedule_of_raised raised]
              refine ⟨[], List.nil_prefix, fun running => ?_, by rwa [List.append_nil]⟩
              rw [raised] at running
              cases running
          | none =>
              have step := @translateChunk_remembers env _ _ h c
              rw [← receive_pipeline raised] at step
              obtain ⟨heard, begins, complete, remembered⟩ := ih step
              refine ⟨c :: heard, ?_, fun running => ?_, ?_⟩
              · exact List.cons_prefix_cons.mpr ⟨rfl, begins⟩
              · rw [complete running]
                rfl
              · rwa [List.append_assoc] at remembered

/-! ## The end of a run -/

/-- The loop of a run, before its ending. -/
def loopOf (env : Env) (p : Pipeline) (arrivals : List Arrival) : Loop :=
  runSchedule (Loop.receive env) (startLoop env p) arrivals

theorem run_of_raised {arrivals : List Arrival} {message : String}
    (raised : (loopOf env p arrivals).internalError = some message) (ending : Ending) :
    run env p arrivals ending = (loopOf env p arrivals).yields
      (conclude env (loopOf env p arrivals).pipeline (some message) none) := by
  unfold loopOf at raised ⊢
  simp only [run, raised]

theorem run_of_returned {arrivals : List Arrival}
    (returned : (loopOf env p arrivals).internalError = none) (ending : Ending) :
    run env p arrivals ending = (loopOf env p arrivals).yields
      (conclude env (noteEnding (loopOf env p arrivals).pipeline ending) none
        (endingReason (loopOf env p arrivals).pipeline arrivals ending)) := by
  unfold loopOf at returned ⊢
  simp only [run, returned]

/-- Everything is closed, and what the prose remembers is kept. -/
structure Closed (p q : Pipeline) : Prop where
  openMessage : q.openMessage = none
  messageItem : q.messageItem = p.messageItem
  messagePartId : q.messagePartId = none
  openReasoning : q.openReasoning = none
  reasoningText : q.reasoningText = p.reasoningText
  reasoningPartId : q.reasoningPartId = none

theorem Closed.noted {q : Pipeline} (h : Closed p q) (state : LiveState)
    (stats : PipelineStats) : Closed p { q with state := state, stats := stats } :=
  ⟨h.1, h.2, h.3, h.4, h.5, h.6⟩

theorem closeOpenItems_closed (h : Tidy p) (incomplete : Bool) :
    Closed p (p.closeOpenItems incomplete).1 := by
  have message := h.message
  have reasoning := h.reasoning
  unfold Pipeline.closeOpenItems Pipeline.closeReasoning
  cases thinking : p.openReasoning <;> unfold Pipeline.closeMessage <;>
    cases speaking : p.openMessage <;> constructor <;>
    simp_all [Pipeline.closeTools, Pipeline.closeRaw]

theorem conclude_closed (h : Tidy p) (error : Option String) (reason : Option TerminalReason) :
    Closed p (conclude env p error reason).1 := by
  have cut : ∀ reason strict, Closed p (p.terminalFrames env reason strict).1 :=
    fun reason strict => (closeOpenItems_closed h true).noted _ _
  unfold conclude
  split
  · exact (closeOpenItems_closed h true).noted _ _
  · split
    · exact cut _ _
    · split
      · exact cut _ _
      · exact (closeOpenItems_closed h false).noted _ _

/-- **What a run from a new pipeline leaves behind**: the message item and the reasoning text
of the chunks it heard, and no item open. -/
theorem run_remembers (env : Env) (arrivals : List Arrival) (ending : Ending) :
    ∃ heard, heard <+: chunksOf arrivals
      ∧ ((loopOf env (.fresh env) arrivals).internalError = none → heard = chunksOf arrivals)
      ∧ ∃ last, Remembers heard last
        ∧ Closed last (run env (.fresh env) arrivals ending).pipeline := by
  have start : Remembers [] (startLoop env (.fresh env)).pipeline :=
    ⟨⟨fun _ => rfl, fun _ => rfl, nofun⟩, rfl, rfl⟩
  obtain ⟨heard, begins, complete, remembered⟩ := runSchedule_remembers env arrivals start
  refine ⟨heard, begins, complete, ?_⟩
  rw [List.nil_append] at remembered
  cases error : (loopOf env (.fresh env) arrivals).internalError with
  | some message =>
      rw [run_of_raised error]
      exact ⟨_, remembered, conclude_closed remembered.toTidy _ _⟩
  | none =>
      have noted : Remembers heard
          (noteEnding (loopOf env (.fresh env) arrivals).pipeline ending) := by
        cases ending <;> exact ⟨⟨remembered.message, remembered.reasoning, remembered.kept⟩,
          remembered.spoke, remembered.thought⟩
      rw [run_of_returned error]
      exact ⟨_, noted, conclude_closed noted.toTidy _ _⟩

/-! ## A reliable environment -/

theorem finalizeToolSearch_returns (reliable : Reliable env) (callId args : String) :
    (p.finalizeToolSearch env callId args).raised = none := by
  obtain ⟨parsed, isParsed⟩ := parseArgs_of_reliable reliable args
  unfold Pipeline.finalizeToolSearch
  dsimp only
  split
  · rfl
  · rw [isParsed]

theorem finalizeMultiAgent_returns (reliable : Reliable env)
    {handle : List HandleRequest → HandleRequest → Except String Fields}
    (given : env.multiAgent = some handle) (callId name args : String) :
    (p.finalizeMultiAgent env handle callId name args).raised = none := by
  obtain ⟨⟨patched, rejected⟩, isPatched⟩ := patchArguments_of_reliable reliable p name args
  unfold Pipeline.finalizeMultiAgent
  rw [isPatched]
  dsimp only
  split
  · rfl
  · split
    case h_1 message failed =>
      obtain ⟨item, answered, _⟩ := reliable.answers given failed
      cases answered
    case h_2 => rfl

theorem translateToolCallDone_returns (reliable : Reliable env) (callId arguments : String)
    (sourceIndex : Option ℤ) :
    (p.translateToolCallDone env callId arguments sourceIndex).raised = none := by
  unfold Pipeline.translateToolCallDone
  split
  · rfl
  · dsimp only
    split
    · rfl
    · rename_i acc _
      cases verdict : acc.validate env.loads with
      | valid => rfl
      | invalid => rfl
      | raised message =>
          unfold ToolCallAccumulator.validate at verdict
          dsimp only at verdict
          split at verdict
          · cases verdict
          · split at verdict
            case h_4 said => exact absurd said (reliable.loads _ _)
            all_goals cases verdict

theorem translateChunk_returns (reliable : Reliable env) (c : Chunk) :
    (p.translateChunk env c).raised = none := by
  cases c with
  | toolCall callId name arguments nameSpace sourceIndex =>
      simp only [Pipeline.translateChunk]
      cases Pipeline.specialKind env name nameSpace <;> rfl
  | toolCallDone callId arguments sourceIndex =>
      have plain : ∀ q : Pipeline,
          (q.translateToolCallDone env callId arguments sourceIndex).raised = none :=
        fun q => translateToolCallDone_returns reliable callId arguments sourceIndex
      simp only [Pipeline.translateChunk, Pipeline.finalizeSpecialCall]
      cases p.specialCalls.get? callId with
      | none => exact plain p
      | some call =>
          dsimp only
          cases call.kind with
          | toolSearch =>
              cases env.toolSearchEnabled with
              | true => exact finalizeToolSearch_returns reliable callId _
              | false => exact plain _
          | multiAgent =>
              cases given : env.multiAgent with
              | none => exact plain _
              | some handle => exact finalizeMultiAgent_returns reliable given callId _ _
  | _ => rfl

theorem runSchedule_returns (reliable : Reliable env) (arrivals : List Arrival) {loop : Loop}
    (running : loop.internalError = none) :
    (runSchedule (Loop.receive env) loop arrivals).internalError = none := by
  refine runSchedule_invariant (fun loop : Loop => loop.internalError = none) ?_ running arrivals
  intro loop arrival running
  cases arrival with
  | heartbeat =>
      unfold Loop.receive
      rw [running]
  | chunk c => exact (receive_of_returned running (translateChunk_returns reliable c)).1

/-! ## What the prose leaves alone -/

/-- The special calls, the items passed through and the items of other origin. -/
def Pipeline.ledger (p : Pipeline) :
    Dict String SpecialCall × Dict ℕ Fields × List (ℕ × Fields) :=
  (p.specialCalls, p.openRawItems, p.synthesizedItems)

theorem closeReasoning_ledger (incomplete : Bool) :
    (p.closeReasoning incomplete).1.ledger = p.ledger := by
  unfold Pipeline.closeReasoning
  cases p.openReasoning <;> rfl

theorem ensureReasoningLifecycle_ledger :
    (p.ensureReasoningLifecycle env).1.ledger = p.ledger := by
  unfold Pipeline.ensureReasoningLifecycle
  split
  · rfl
  · split
    · rfl
    · split <;> rfl

theorem translateText_ledger (delta : String) :
    (p.translateText env delta).1.ledger = p.ledger := by
  unfold Pipeline.translateText
  cases held : p.openMessage with
  | some item => simp only [Option.isSome_some, if_true, held, Pipeline.ledger]
  | none =>
      simp only [Option.isSome_none, Bool.false_eq_true, if_false]
      exact ensureReasoningLifecycle_ledger.trans (closeReasoning_ledger false)

theorem translateReasoning_ledger (delta : String) :
    (p.translateReasoning env delta).1.ledger = p.ledger := by
  unfold Pipeline.translateReasoning
  split
  · rfl
  · cases held : p.openReasoning with
    | some item => simp only [Option.isSome_some, if_true, held, Pipeline.ledger]
    | none => rfl

/-! ## Which chunks touch the calls -/

/-- A fragment of an ordinary call. -/
def Chunk.isCall (env : Env) : Chunk → Bool
  | .toolCall _ name _ nameSpace _ => (Pipeline.specialKind env name nameSpace).isNone
  | _ => false

/-- The calls, and the two flags the terminal decision reads. -/
def Pipeline.books (p : Pipeline) : ToolCallCollection × Bool × Bool :=
  (p.tools, p.hadInvalidToolArgs, p.sawProviderFinish)

theorem closeReasoning_books (incomplete : Bool) :
    (p.closeReasoning incomplete).1.books = p.books := by
  unfold Pipeline.closeReasoning
  cases p.openReasoning <;> rfl

theorem ensureReasoningLifecycle_books : (p.ensureReasoningLifecycle env).1.books = p.books := by
  unfold Pipeline.ensureReasoningLifecycle
  split
  · rfl
  · split
    · rfl
    · split <;> rfl

theorem translateText_books (delta : String) :
    (p.translateText env delta).1.books = p.books := by
  unfold Pipeline.translateText
  cases held : p.openMessage with
  | some item => simp only [Option.isSome_some, if_true, held, Pipeline.books]
  | none =>
      simp only [Option.isSome_none, Bool.false_eq_true, if_false]
      exact ensureReasoningLifecycle_books.trans (closeReasoning_books false)

theorem translateReasoning_books (delta : String) :
    (p.translateReasoning env delta).1.books = p.books := by
  unfold Pipeline.translateReasoning
  split
  · rfl
  · cases held : p.openReasoning with
    | some item => simp only [Option.isSome_some, if_true, held, Pipeline.books]
    | none => rfl

theorem translateRaw_books (event : String) (item : Fields) :
    (p.translateRaw event item).1.books = p.books := by
  unfold Pipeline.translateRaw
  dsimp only
  split <;> rfl

theorem finalizeToolSearch_books (callId args : String) :
    (p.finalizeToolSearch env callId args).pipeline.books = p.books := by
  unfold Pipeline.finalizeToolSearch
  dsimp only
  split
  · rfl
  · split <;> rfl

theorem finalizeMultiAgent_books
    (handle : List HandleRequest → HandleRequest → Except String Fields)
    (callId name args : String) :
    (p.finalizeMultiAgent env handle callId name args).pipeline.books = p.books := by
  unfold Pipeline.finalizeMultiAgent
  split
  · rfl
  · rename_i patched rejected _
    have refused : ∀ q : Pipeline, q.books = p.books →
        (if rejected then q.emitSpecialItem (Pipeline.rejectItem callId)
          else (q, [])).1.books = p.books := by
      intro q same
      split <;> exact same
    dsimp only
    split
    · exact refused _ rfl
    · split <;> exact refused _ rfl

theorem finalizeSpecialCall_books (callId arguments : String) :
    (p.finalizeSpecialCall env callId arguments).elim (·.pipeline.books) (·.books)
      = p.books := by
  unfold Pipeline.finalizeSpecialCall
  cases p.specialCalls.get? callId with
  | none => rfl
  | some call =>
      dsimp only
      split
      · split
        · exact finalizeToolSearch_books callId _
        · rfl
      · exact finalizeMultiAgent_books _ callId _ _
      · rfl

theorem closeReasoning_tools (incomplete : Bool) :
    (p.closeReasoning incomplete).1.tools = p.tools :=
  congrArg Prod.fst (closeReasoning_books incomplete)

theorem translateToolCall_refs (callId name fragment nameSpace : String)
    (sourceIndex : Option ℤ) :
    (p.translateToolCall callId name fragment nameSpace sourceIndex).1.tools.refs
      = (p.tools.ensure p.outputIndex callId sourceIndex).2.refs := by
  unfold Pipeline.translateToolCall
  dsimp only
  split
  · rfl
  · split <;> rfl

theorem translateToolCallDone_calls (h : p.tools.Holds fun _ => True)
    (callId arguments : String) (sourceIndex : Option ℤ) :
    (p.translateToolCallDone env callId arguments sourceIndex).pipeline.tools.Holds
        (fun _ => True)
      ∧ (p.translateToolCallDone env callId arguments sourceIndex).pipeline.tools.refs
        = p.tools.refs := by
  have changed : ∀ ref f, (p.tools.modify ref f).Holds fun _ => True :=
    fun ref f => h.modify ref fun _ _ => trivial
  unfold Pipeline.translateToolCallDone
  split
  · exact ⟨h, rfl⟩
  · dsimp only
    split
    · exact ⟨changed _ _, rfl⟩
    · split
      · exact ⟨changed _ _, rfl⟩
      · exact ⟨(changed _ _).modify _ fun _ _ => trivial, rfl⟩
      · exact ⟨(changed _ _).modify _ fun _ _ => trivial, rfl⟩

/-- **A fragment of an ordinary call is what makes the collection of calls nonempty.** -/
theorem translateChunk_calls (h : p.tools.Holds fun _ => True) (c : Chunk) :
    (p.translateChunk env c).pipeline.tools.Holds (fun _ => True)
      ∧ (p.translateChunk env c).pipeline.tools.refs.isEmpty
        = (p.tools.refs.isEmpty && !c.isCall env) := by
  have kept : ∀ tools, tools = p.tools → c.isCall env = false →
      tools.Holds (fun _ => True)
        ∧ tools.refs.isEmpty = (p.tools.refs.isEmpty && !c.isCall env) := by
    rintro tools rfl foreign
    rw [foreign]
    exact ⟨h, (Bool.and_true _).symm⟩
  cases c with
  | text delta => exact kept _ (congrArg Prod.fst (translateText_books delta)) rfl
  | reasoning delta => exact kept _ (congrArg Prod.fst (translateReasoning_books delta)) rfl
  | rawOutputItem event item => exact kept _ (congrArg Prod.fst (translateRaw_books event item)) rfl
  | finish => exact kept _ rfl rfl
  | toolCall callId name arguments nameSpace sourceIndex =>
      cases special : Pipeline.specialKind env name nameSpace with
      | some found =>
          obtain ⟨kind, bare⟩ := found
          rw [Pipeline.translateChunk_of_special special]
          exact kept _ rfl (by simp [Chunk.isCall, special])
      | none =>
          obtain ⟨acc, tools, index, _, held, same⟩ := translateToolCall_spec callId name
            arguments nameSpace sourceIndex h (fun _ _ => trivial) (fun _ _ => trivial)
            (fun _ _ => trivial) trivial
          rw [Pipeline.translateChunk_of_ordinary special]
          refine ⟨by rw [same]; exact held, ?_⟩
          have mem := p.tools.ensure_mem_refs p.outputIndex callId sourceIndex
          simp only [Chunk.isCall, special, Option.isNone_none, Bool.not_true, Bool.and_false,
            translateToolCall_refs]
          exact List.isEmpty_eq_false_iff_exists_mem.mpr ⟨_, mem⟩
  | toolCallDone callId arguments sourceIndex =>
      have passed := @finalizeSpecialCall_books env p callId arguments
      simp only [Pipeline.translateChunk]
      cases done : p.finalizeSpecialCall env callId arguments with
      | inl special =>
          rw [done] at passed
          exact kept _ (congrArg Prod.fst passed) rfl
      | inr q =>
          rw [done] at passed
          have same : q.tools = p.tools := congrArg Prod.fst passed
          obtain ⟨held, refs⟩ := @translateToolCallDone_calls env _ (same ▸ h) callId
            arguments sourceIndex
          refine ⟨held, ?_⟩
          rw [refs, same]
          exact (Bool.and_true _).symm

end Zhongzhuan.Responses
