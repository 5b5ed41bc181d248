import Zhongzhuan.Protocol.EmitterLaw
import Zhongzhuan.Protocol.TurnBridge

/-!
# The text of an answer, through `ResponsesTurnBridge`

What the bridge writes as `response.output_text.delta`, for a turn without reasoning up to its
first finish reason.  `_handle_content` takes the words ` thinking` and ` response` for the
wrappers of some providers, and every occurrence of one costs characters of the answer: the deltas
are the contents exactly when no content has one of the words (`answerText_iff`).

`Writes f text` says what a method adds to the answer while the response is going on.
-/

namespace Zhongzhuan.Protocol

open Kit

/-- The text that an event adds to the answer. -/
def WireEvent.answerText (e : WireEvent) : List Char :=
  if e.event = "response.output_text.delta" then
    match e.data.get "delta" with
    | some (.str text) => text.toList
    | _ => []
  else []

/-- The answer in a stream of events. -/
def answerText (events : List WireEvent) : List Char := events.flatMap WireEvent.answerText

@[simp] theorem answerText_append (events more : List WireEvent) :
    answerText (events ++ more) = answerText events ++ answerText more :=
  List.flatMap_append

namespace TurnBridge

/-! ## Words -/

theorem intercalate_splitText (word content : String) :
    word.toList.intercalate (splitText word content) = content.toList :=
  intercalate_separate _ _ _

theorem splitText_of_hasWord {word content : String} (nonempty : word.toList ≠ [])
    (has : hasWord word content = true) :
    ∃ first second rest, splitText word content = first :: second :: rest := by
  rw [hasWord, isInfix_iff] at has
  have pieces := mt (separate_eq_nil_iff nonempty content.toList).mp (not_not.mpr has)
  unfold splitText
  obtain ⟨first, more, split⟩ := List.exists_cons_of_ne_nil pieces
  rw [split]
  cases more with
  | nil => exact ⟨first, _, [], rfl⟩
  | cons second more => exact ⟨first, second, _, rfl⟩

theorem length_flatten_le_intercalate (sep : List Char) (parts : List (List Char)) :
    parts.flatten.length ≤ (sep.intercalate parts).length := by
  induction parts with
  | nil => simp
  | cons part parts ih =>
      by_cases last : parts = []
      · simp [last]
      · rw [List.intercalate_cons_of_ne_nil last]
        simp only [List.flatten_cons, List.length_append]
        omega

theorem length_dropWord {word content : String} (nonempty : word.toList ≠ [])
    (has : hasWord word content = true) :
    (dropWord word content).toList.length < content.toList.length := by
  obtain ⟨first, second, rest, split⟩ := splitText_of_hasWord nonempty has
  have whole := intercalate_splitText word content
  rw [split, List.intercalate_cons_of_ne_nil (by simp)] at whole
  have shorter := length_flatten_le_intercalate word.toList (second :: rest)
  have some := List.length_pos_iff.mpr nonempty
  rw [dropWord, split, ← whole, String.toList_ofList, List.flatten_cons]
  simp only [List.length_append]
  omega

theorem length_unwrapThinking (content : String) :
    (unwrapThinking content).toList.length ≤ content.toList.length := by
  unfold unwrapThinking
  split
  case isTrue has => exact (length_dropWord (by decide) has).le
  case isFalse _ => exact le_rfl

theorem length_textOf {content : String} (has : hasWord " response" content = true) :
    (textOf content).toList.length < content.toList.length := by
  obtain ⟨first, second, rest, split⟩ := splitText_of_hasWord (by decide) has
  have whole := intercalate_splitText " response" content
  rw [split, List.intercalate_cons_of_ne_nil (by simp)] at whole
  rw [textOf, if_pos has, split, ← whole, String.toList_ofList, List.tail_cons]
  simp only [List.length_append, String.length_toList]
  have some : 0 < " response".length := by decide
  omega

/-- A content without the words of a wrapper. -/
def Plain (content : String) : Prop :=
  hasWord " thinking" content = false ∧ hasWord " response" content = false

instance (content : String) : Decidable (Plain content) := by
  unfold Plain
  infer_instance

/-- The text that the message gets of a content. -/
def keptText (content : String) : String := textOf (unwrapThinking content)

theorem keptText_of_plain {content : String} (plain : Plain content) :
    keptText content = content := by
  rw [keptText, unwrapThinking, plain.1, if_neg (by simp), textOf, plain.2, if_neg (by simp)]

theorem length_keptText_le (content : String) :
    (keptText content).toList.length ≤ content.toList.length := by
  refine le_trans ?_ (length_unwrapThinking content)
  unfold keptText
  cases has : hasWord " response" (unwrapThinking content) with
  | true => exact (length_textOf has).le
  | false => rw [textOf, has, if_neg (by simp)]

theorem length_keptText_lt {content : String} (wrapped : ¬ Plain content) :
    (keptText content).toList.length < content.toList.length := by
  cases thinking : hasWord " thinking" content with
  | true =>
      have shorter : (unwrapThinking content).toList.length < content.toList.length := by
        rw [unwrapThinking, if_pos thinking]
        exact length_dropWord (by decide) thinking
      refine lt_of_le_of_lt ?_ shorter
      unfold keptText
      cases has : hasWord " response" (unwrapThinking content) with
      | true => exact (length_textOf has).le
      | false => rw [textOf, has, if_neg (by simp)]
  | false =>
      have kept : unwrapThinking content = content := by
        rw [unwrapThinking, thinking, if_neg (by simp)]
      have response : hasWord " response" content = true := by
        by_contra none
        exact wrapped ⟨thinking, by simpa using none⟩
      rw [keptText, kept]
      exact length_textOf response

theorem flatMap_keptText_iff (contents : List String) :
    contents.flatMap (fun content => (keptText content).toList)
        = contents.flatMap String.toList
      ↔ ∀ content ∈ contents, Plain content := by
  constructor
  · intro same content mem
    by_contra wrapped
    have lengths := congrArg List.length same
    rw [List.length_flatMap, List.length_flatMap] at lengths
    refine absurd lengths (ne_of_lt ?_)
    exact List.sum_lt_sum _ _ (fun content _ => length_keptText_le content)
      ⟨content, mem, length_keptText_lt wrapped⟩
  · intro plain
    refine List.flatMap_congr fun content mem => ?_
    rw [keptText_of_plain (plain content mem)]

/-! ## What the methods add to the answer -/

/-- A method that adds a text to the answer of a response that is going on. -/
def Writes (f : TurnBridge → TurnBridge × List WireEvent) (text : List Char) : Prop :=
  ∀ s, Going s → Going (f s).1 ∧ answerText (f s).2 = text

theorem going_transition {e : Emitter} (going : e.state ∉ EmitterState.terminal) :
    (e.transition .streaming).state ∉ EmitterState.terminal := by
  unfold Emitter.transition
  split
  case isTrue _ => simp [EmitterState.terminal]
  case isFalse _ => exact going

theorem answerText_of_ne {e : WireEvent} (other : e.event ≠ "response.output_text.delta") :
    e.answerText = [] := if_neg other

section Emitter

variable {e : Emitter}

theorem openItem_going (going : e.state ∉ EmitterState.terminal) (item : OutputItem) :
    (e.openItem item).1.state ∉ EmitterState.terminal
      ∧ answerText (e.openItem item).2 = [] := by
  unfold Emitter.openItem
  split
  case isTrue _ => exact ⟨going, rfl⟩
  case isFalse _ => exact ⟨going_transition going, rfl⟩

theorem closeItem_going (going : e.state ∉ EmitterState.terminal) (item : OutputItem)
    (status : String) :
    (e.closeItem item status).1.state ∉ EmitterState.terminal
      ∧ answerText (e.closeItem item status).2 = [] := by
  unfold Emitter.closeItem
  split
  case isTrue _ => exact ⟨going, rfl⟩
  case isFalse _ =>
    split
    case isTrue _ => exact ⟨going, rfl⟩
    case isFalse _ => exact ⟨going, rfl⟩

theorem delta_going (going : e.state ∉ EmitterState.terminal) (event : String) (data : Fields) :
    (e.delta event data).1.state ∉ EmitterState.terminal
      ∧ answerText (e.delta event data).2
        = WireEvent.answerText ((e.transition .streaming).frame event
            (Fields.put "type" (.str event) data)).2 := by
  unfold Emitter.delta
  rw [if_neg going]
  refine ⟨going_transition going, ?_⟩
  rw [answerText, List.flatMap_singleton]

theorem start_going (going : e.state ∉ EmitterState.terminal) :
    e.start.1.state ∉ EmitterState.terminal ∧ answerText e.start.2 = [] := by
  unfold Emitter.start
  split
  case isTrue _ => exact ⟨going, rfl⟩
  case isFalse fresh =>
    have init : e.state = .init := not_not.mp fresh
    have created : e.transition .created = { e with state := .created } := by
      rw [Emitter.transition, if_pos (by rw [init]; rfl)]
    rw [created]
    have begun : EmitterState.inProgress ∉ EmitterState.terminal := by decide
    exact ⟨begun, rfl⟩

end Emitter

theorem Writes.call {f : Emitter → Emitter × List WireEvent} {text : List Char}
    (writes : ∀ e : Emitter, e.state ∉ EmitterState.terminal →
      (f e).1.state ∉ EmitterState.terminal ∧ answerText (f e).2 = text) :
    Writes (TurnBridge.call f) text :=
  fun s going => writes s.emitter going

theorem Writes.andThen {f g : TurnBridge → TurnBridge × List WireEvent} {text more : List Char}
    (first : Writes f text) (second : Writes g more) :
    Writes (TurnBridge.andThen f g) (text ++ more) := by
  intro s going
  obtain ⟨going', wrote⟩ := first s going
  obtain ⟨going'', wrote'⟩ := second (f s).1 going'
  exact ⟨going'', by rw [TurnBridge.andThen, answerText_append, wrote, wrote']⟩

theorem Writes.silent {f g : TurnBridge → TurnBridge × List WireEvent}
    (first : Writes f []) (second : Writes g []) : Writes (TurnBridge.andThen f g) [] :=
  first.andThen second

theorem Writes.callIf {f : TurnBridge → TurnBridge × List WireEvent} (p : Bool)
    (writes : Writes f []) : Writes (TurnBridge.callIf p f) [] := by
  intro s going
  unfold TurnBridge.callIf
  split
  case isTrue _ => exact writes s going
  case isFalse _ => exact ⟨going, rfl⟩

theorem writes_openItem (item : OutputItem) : Writes (call (·.openItem item)) [] :=
  .call fun _ going => openItem_going going item

theorem writes_closeItem (item : OutputItem) (status : String) :
    Writes (call (·.closeItem item status)) [] :=
  .call fun _ going => closeItem_going going item status

theorem writes_delta {event : String} (other : event ≠ "response.output_text.delta")
    (data : Fields) : Writes (call (·.delta event data)) [] := by
  refine .call fun e going => ?_
  obtain ⟨going', wrote⟩ := delta_going going event data
  exact ⟨going', wrote.trans (answerText_of_ne other)⟩

theorem writes_start : Writes ensureStarted [] := by
  intro s going
  unfold ensureStarted
  split
  case isTrue _ => exact ⟨going, rfl⟩
  case isFalse _ =>
    exact (Writes.call fun _ going => start_going going) { s with started := true } going

/-! ### Messages and reasoning -/

theorem writes_emitOutputTextDelta (msg : TextAccumulator) (text : String) :
    Writes (emitOutputTextDelta msg text) text.toList := by
  refine .call fun e going => ?_
  obtain ⟨going', wrote⟩ := delta_going going "response.output_text.delta"
    (itemFields msg.itemId msg.outputIndex
      ++ [("content_index", .int 0), ("delta", .str text), ("logprobs", .arr [])])
  exact ⟨going', wrote⟩

theorem writes_openMessage (msg : TextAccumulator) : Writes (openMessage msg) [] :=
  (writes_openItem _).silent (writes_delta (by decide) _)

theorem writes_emitText (text : String) : Writes (emitText text) text.toList := by
  intro s going
  unfold emitText
  split
  case h_1 msg _ => exact writes_emitOutputTextDelta msg text (s.appendText text) going
  case h_2 _ =>
    refine ((writes_openMessage s.newMessage.2).andThen (g := fun s' =>
      emitOutputTextDelta s.newMessage.2 text (s'.appendText text)) ?_) s.newMessage.1 going
    exact fun s' going' => writes_emitOutputTextDelta _ text (s'.appendText text) going'

theorem writes_closeMessage (status : String) (msg : TextAccumulator) :
    Writes (closeMessage status msg) [] := by
  intro s going
  unfold closeMessage
  split
  case isTrue _ => exact ⟨going, rfl⟩
  case isFalse _ =>
    exact ((writes_delta (by decide) _).silent
      ((writes_delta (by decide) _).silent (writes_closeItem _ _))) _ going

theorem writes_closeCurrentMessage : Writes closeCurrentMessage [] := by
  intro s going
  unfold closeCurrentMessage
  split
  case h_1 _ => exact ⟨going, rfl⟩
  case h_2 msg _ => exact writes_closeMessage _ msg s going

variable (env : TurnEnv)

theorem reasoning_ne (mode : String) {suffix : String}
    (known : suffix ∈ [".added", ".delta", ".done"]) :
    "response." ++ (reasoningEvent mode ++ suffix) ≠ "response.output_text.delta"
      ∧ "response." ++ (reasoningPartEvent mode ++ suffix) ≠ "response.output_text.delta" := by
  simp only [List.mem_cons, List.not_mem_nil, or_false] at known
  unfold reasoningEvent reasoningPartEvent
  split
  case isTrue _ => rcases known with rfl | rfl | rfl <;> decide
  case isFalse _ => rcases known with rfl | rfl | rfl <;> decide

theorem writes_openReasoning : Writes (openReasoning env) [] := by
  intro s going
  unfold openReasoning
  split
  case isTrue _ => exact ⟨going, rfl⟩
  case isFalse _ =>
    exact ((writes_openItem _).silent
      (writes_delta (reasoning_ne env.mode (by simp)).2 _)) _ going

theorem writes_emitReasoningDelta (text : String) : Writes (emitReasoningDelta env text) [] := by
  intro s going
  unfold emitReasoningDelta
  split
  case isTrue _ => exact ⟨going, rfl⟩
  case isFalse _ =>
    split
    case h_1 _ => exact ⟨going, rfl⟩
    case h_2 rea _ =>
      split
      case isTrue _ => exact ⟨going, rfl⟩
      case isFalse _ => exact writes_delta (reasoning_ne env.mode (by simp)).1 _ _ going

theorem writes_closeReasoning (status : String) : Writes (closeReasoning env status) [] := by
  intro s going
  unfold closeReasoning
  split
  case isTrue _ => exact ⟨going, rfl⟩
  case isFalse _ =>
    split
    case h_1 _ => exact ⟨going, rfl⟩
    case h_2 rea _ =>
      split
      case isTrue _ => exact ⟨going, rfl⟩
      case isFalse _ =>
        exact ((writes_delta (reasoning_ne env.mode (by simp)).1 _).silent
          ((writes_delta (reasoning_ne env.mode (by simp)).2 _).silent
            (writes_closeItem _ _))) _ going

theorem writes_handleContent (content : String) :
    Writes (handleContent env content) (keptText content).toList := by
  have wrappers : Writes (callIf (hasWord " response" (unwrapThinking content))
      (andThen (emitReasoningDelta env (thinkPart (unwrapThinking content)))
        (closeReasoning env "completed"))) [] :=
    .callIf _ ((writes_emitReasoningDelta env _).silent (writes_closeReasoning env _))
  have text : Writes (callIf (textOf (unwrapThinking content) ≠ "")
      (emitText (textOf (unwrapThinking content)))) (keptText content).toList := by
    intro s going
    unfold callIf
    split
    case isTrue _ => exact writes_emitText _ s going
    case isFalse none =>
      have empty : textOf (unwrapThinking content) = "" := by simpa using none
      exact ⟨going, by rw [keptText, empty]; rfl⟩
  have all := (Writes.callIf (hasWord " thinking" content) (writes_openReasoning env)).andThen
    (wrappers.andThen text)
  rw [List.nil_append, List.nil_append] at all
  intro s going
  unfold handleContent
  exact all s going

/-! ### Tool calls and the end -/

theorem writes_withTool {f : ToolCallAccumulator → TurnBridge → TurnBridge × List WireEvent}
    (writes : ∀ acc, Writes (f acc) []) (ref : ℕ) : Writes (withTool ref f) [] := by
  intro s going
  unfold withTool
  split
  case h_1 acc _ => exact writes acc s going
  case h_2 _ => exact ⟨going, rfl⟩

theorem writes_handleToolCall (tool : TurnTool) : Writes (handleToolCall tool) [] := by
  have found : Writes (fun s => (s.findTool tool).2) [] := by
    intro s going
    dsimp only
    unfold findTool
    split
    case h_1 ref _ => exact ⟨going, rfl⟩
    case h_2 _ => exact writes_withTool (fun acc => writes_openItem _) _ _ going
  intro s going
  have rest : Writes (callIf (tool.arguments ≠ "") fun s' =>
      withTool (s.findTool tool).1 (fun acc => emitToolArgsDelta acc tool.arguments)
        (s'.modifyTool (s.findTool tool).1 (·.appendArguments tool.arguments))) [] := by
    refine .callIf _ fun s' going' => ?_
    exact writes_withTool (fun acc => writes_delta (by decide) _) _
      (s'.modifyTool _ (·.appendArguments tool.arguments)) going'
  obtain ⟨going', wrote⟩ := found s going
  obtain ⟨going'', wrote'⟩ := rest _ going'
  refine ⟨going'', ?_⟩
  rw [handleToolCall, andThen, answerText_append, wrote]
  exact wrote'

theorem writes_handleToolCalls (tools : List TurnTool) : Writes (handleToolCalls tools) [] := by
  induction tools with
  | nil => exact fun s going => ⟨going, rfl⟩
  | cons tool tools ih =>
      intro s going
      exact ((writes_handleToolCall tool).silent ih) s going

theorem writes_handleDeltas (choice : TurnChoice) :
    Writes (handleDeltas env choice) (keptText choice.content).toList := by
  have reasoning : Writes (callIf (choice.reasoning ≠ "")
      (andThen (openReasoning env) (emitReasoningDelta env choice.reasoning))) [] :=
    .callIf _ ((writes_openReasoning env).silent (writes_emitReasoningDelta env _))
  have tools : Writes (callIf (choice.tools ≠ [])
      (andThen closeCurrentMessage (handleToolCalls choice.tools))) [] :=
    .callIf _ (writes_closeCurrentMessage.silent (writes_handleToolCalls _))
  have content : Writes (callIf (choice.content ≠ "") (handleContent env choice.content))
      (keptText choice.content).toList := by
    intro s going
    unfold callIf
    split
    case isTrue _ => exact writes_handleContent env _ s going
    case isFalse none =>
      have empty : choice.content = "" := by simpa using none
      exact ⟨going, by rw [empty]; rfl⟩
  have all := reasoning.andThen (content.andThen tools)
  rwa [List.nil_append, List.append_nil] at all

/-! ### The end -/

theorem answerText_closeOpenItems (e : Emitter) (ids : List String) :
    answerText (e.closeOpenItems ids).2 = [] := by
  induction ids generalizing e with
  | nil => rfl
  | cons id ids ih =>
      have first : (e.closeOpenItem id).2.answerText = [] := by
        unfold Emitter.closeOpenItem
        split
        case h_1 item _ => rfl
        case h_2 _ => rfl
      show (e.closeOpenItem id).2.answerText ++ answerText _ = []
      rw [first, ih]
      rfl

theorem answerText_terminate (env : EmitterEnv) (e : Emitter) (status : ResponseStatus)
    (reason : String) (details error : Fields) :
    answerText (e.terminate env status reason details error).2 = [] := by
  unfold Emitter.terminate
  split
  case isTrue _ => rfl
  case isFalse _ =>
    dsimp only
    rw [answerText_append, answerText_closeOpenItems]
    cases status <;> rfl

theorem answerText_emitTerminal (truncated : Bool) (s : TurnBridge) :
    answerText (emitTerminal env truncated s).2 = [] := by
  unfold emitTerminal
  split
  case isTrue _ => exact answerText_terminate _ _ _ _ _ _
  case isFalse _ => exact answerText_terminate _ _ _ _ _ _

theorem writes_closeMessages (status : String) (msgs : List TextAccumulator) :
    Writes (closeMessages status msgs) [] := by
  induction msgs with
  | nil => exact fun s going => ⟨going, rfl⟩
  | cons msg msgs ih => exact (writes_closeMessage status msg).silent ih

variable {env}

theorem validate_of_quiet (quiet : ∀ text message, env.loads text ≠ .raised message)
    (acc : ToolCallAccumulator) :
    acc.validate env.loads = .valid ∨ acc.validate env.loads = .invalid := by
  unfold ToolCallAccumulator.validate
  dsimp only
  split
  case isTrue _ => exact .inr rfl
  case isFalse _ =>
    cases loaded : env.loads (stripText acc.arguments) with
    | value v => cases v <;> simp
    | rejected => exact .inr rfl
    | raised message => exact absurd loaded (quiet _ _)

theorem closeToolCall_of_quiet (quiet : ∀ text message, env.loads text ≠ .raised message)
    (status : String) (ref : ℕ) {s : TurnBridge} (going : Going s) :
    ∃ next, closeToolCall env status ref s = some next ∧ Going next.1
      ∧ answerText next.2 = [] := by
  unfold closeToolCall
  split
  case h_1 _ => exact ⟨_, rfl, going, rfl⟩
  case h_2 acc _ =>
    split
    case isTrue _ => exact ⟨_, rfl, going, rfl⟩
    case isFalse _ =>
      dsimp only
      rcases validate_of_quiet quiet acc with valid | invalid
      · rw [valid]
        exact ⟨_, rfl, ((writes_delta (by decide) _).silent (writes_closeItem _ _)) _ going⟩
      · rw [invalid]
        exact ⟨_, rfl, writes_closeItem _ _ _ going⟩

theorem callAll_of_quiet (quiet : ∀ text message, env.loads text ≠ .raised message)
    (status : String) (refs : List ℕ) {s : TurnBridge} (going : Going s) :
    ∃ next, callAll (closeToolCall env status) refs s = some next
      ∧ answerText next.2 = [] := by
  induction refs generalizing s with
  | nil => exact ⟨_, rfl, rfl⟩
  | cons ref refs ih =>
      obtain ⟨first, closed, going', wrote⟩ := closeToolCall_of_quiet quiet status ref going
      obtain ⟨rest, closed', wrote'⟩ := ih going'
      refine ⟨(rest.1, first.2 ++ rest.2), ?_, by rw [answerText_append, wrote, wrote']; rfl⟩
      rw [callAll, closed, Option.bind_some, closed']
      rfl

theorem handleFinish_of_quiet (quiet : ∀ text message, env.loads text ≠ .raised message)
    (reason : Option Json) {s : TurnBridge} (going : Going s) :
    ∃ next, handleFinish env reason s = some next ∧ answerText next.2 = []
      ∧ (reason = none → next.1 = s) := by
  cases reason with
  | none => exact ⟨_, rfl, rfl, fun _ => rfl⟩
  | some reason =>
      have closes : ∃ next,
          closeAll env (if reason = .str "length" then "incomplete" else "completed") s
            = some next ∧ answerText next.2 = [] := by
        obtain ⟨going', wrote⟩ := ((writes_closeMessages
          (if reason = .str "length" then "incomplete" else "completed") s.acc.messages).silent
          (writes_closeReasoning env _)) s going
        obtain ⟨rest, closed, wrote'⟩ := callAll_of_quiet quiet
          (if reason = .str "length" then "incomplete" else "completed") _ going'
        refine ⟨_, by rw [closeAll, closed]; rfl, ?_⟩
        rw [answerText_append, wrote, wrote']
        rfl
      obtain ⟨next, closed, wrote⟩ := closes
      have closed' : closeTurn env (reason = .str "length") s
          = some (andThen (fun _ => next) (emitTerminal env (reason = .str "length")) s) := by
        unfold closeTurn
        simp only [decide_eq_true_eq]
        rw [closed]
        rfl
      refine ⟨_, closed', ?_, fun absent => by cases absent⟩
      rw [andThen, answerText_append, wrote, answerText_emitTerminal]
      rfl

/-! ## Turns -/

/-- Chunks one after another. -/
def processAll (env : TurnEnv) : List TurnChunk → TurnBridge →
    Option (TurnBridge × List WireEvent)
  | [], s => some (s, [])
  | chunk :: chunks, s =>
    (process env chunk s).bind fun first =>
      (processAll env chunks first.1).map fun rest => (rest.1, first.2 ++ rest.2)

/-- The contents of the chunks. -/
def contentsOf (chunks : List TurnChunk) : List String :=
  chunks.flatMap fun chunk => chunk.choice.toList.map TurnChoice.content

/-- A turn up to its first finish reason. -/
def UpToFinish (chunks : List TurnChunk) : Prop :=
  ∀ chunk ∈ chunks.dropLast, ∀ choice ∈ chunk.choice, choice.finishReason = none

theorem process_of_quiet (quiet : ∀ text message, env.loads text ≠ .raised message)
    (chunk : TurnChunk) {s : TurnBridge} (going : Going s) :
    ∃ next, process env chunk s = some next
      ∧ answerText next.2 = (contentsOf [chunk]).flatMap (fun content => (keptText content).toList)
      ∧ ((∀ choice ∈ chunk.choice, choice.finishReason = none) → Going next.1) := by
  unfold process contentsOf
  cases chosen : chunk.choice with
  | none => exact ⟨_, rfl, by simp [chosen, answerText], fun _ => going⟩
  | some choice =>
      have deltas := writes_start.andThen (writes_handleDeltas env choice)
        { s with usage := chunk.usage.getD s.usage } going
      rw [List.nil_append] at deltas
      obtain ⟨going', wrote⟩ := deltas
      obtain ⟨rest, ended, silent, same⟩ :=
        handleFinish_of_quiet quiet choice.finishReason going'
      dsimp only
      rw [ended]
      refine ⟨_, rfl, ?_, fun open_ => ?_⟩
      · rw [answerText_append, wrote, silent]
        simp [chosen]
      · show Going rest.1
        rw [same (open_ choice rfl)]
        exact going'

theorem processAll_of_quiet (quiet : ∀ text message, env.loads text ≠ .raised message)
    {chunks : List TurnChunk} (upTo : UpToFinish chunks) {s : TurnBridge} (going : Going s) :
    ∃ next, processAll env chunks s = some next
      ∧ answerText next.2
        = (contentsOf chunks).flatMap fun content => (keptText content).toList := by
  induction chunks generalizing s with
  | nil => exact ⟨_, rfl, rfl⟩
  | cons chunk chunks ih =>
      obtain ⟨first, processed, wrote, goesOn⟩ := process_of_quiet quiet chunk going
      have later : ∃ next, processAll env chunks first.1 = some next ∧ answerText next.2
          = (contentsOf chunks).flatMap fun content => (keptText content).toList := by
        by_cases last : chunks = []
        · subst last
          exact ⟨_, rfl, rfl⟩
        · have here : chunk ∈ (chunk :: chunks).dropLast := by
            rw [List.dropLast_cons_of_ne_nil last]
            exact List.mem_cons_self
          refine ih (fun c mem => upTo c ?_) (goesOn (upTo chunk here))
          rw [List.dropLast_cons_of_ne_nil last]
          exact List.mem_cons_of_mem _ mem
      obtain ⟨rest, processed', wrote'⟩ := later
      refine ⟨(rest.1, first.2 ++ rest.2), ?_, ?_⟩
      · rw [processAll, processed, Option.bind_some, processed']
        rfl
      · rw [answerText_append, wrote, wrote', ← List.flatMap_append]
        simp [contentsOf]

/-- **The answer is what the contents say exactly when none has a word of a wrapper.** -/
theorem answerText_iff (quiet : ∀ text message, env.loads text ≠ .raised message)
    {chunks : List TurnChunk} (upTo : UpToFinish chunks) :
    (∃ next, processAll env chunks (fresh env) = some next
        ∧ answerText next.2 = (contentsOf chunks).flatMap String.toList)
      ↔ ∀ content ∈ contentsOf chunks, Plain content := by
  have going : Going (fresh env) := by
    show EmitterState.init ∉ EmitterState.terminal
    decide
  obtain ⟨next, processed, wrote⟩ := processAll_of_quiet quiet upTo going
  rw [← flatMap_keptText_iff, ← wrote]
  constructor
  · rintro ⟨next', processed', same⟩
    obtain rfl : next = next' := Option.some.inj (processed.symm.trans processed')
    exact same
  · intro same
    exact ⟨next, processed, same⟩

/-- A bridge whose upstream calls no tools. -/
def talkEnv : TurnEnv where
  toEmitterEnv := insertionOrder
  responseId := "resp_1"
  model := "m"
  createdAt := 10
  mode := "reasoning_summary_text"
  loads _ := .rejected

/-- A chunk with a content. -/
def contentChunk (content : String) (finishReason : Option Json) : TurnChunk where
  choice := some { content := content, finishReason := finishReason }

/-- An answer in two deltas. -/
def greeting : List TurnChunk := [contentChunk "Hel" none, contentChunk "lo" (some (.str "stop"))]

theorem greeting_kept :
    (∃ next, processAll talkEnv greeting (fresh talkEnv) = some next
        ∧ answerText next.2 = (contentsOf greeting).flatMap String.toList)
      ↔ ∀ content ∈ contentsOf greeting, Plain content :=
  answerText_iff (fun _ _ => by simp [talkEnv])
    (by simp [UpToFinish, greeting, contentChunk])

/-- An answer that speaks of thinking. -/
def keptThinking : List TurnChunk :=
  [contentChunk "I kept" none, contentChunk " thinking." (some (.str "stop"))]

/-- The word is missing from the answer. -/
theorem keptThinking_lost :
    ¬ ∃ next, processAll talkEnv keptThinking (fresh talkEnv) = some next
      ∧ answerText next.2 = (contentsOf keptThinking).flatMap String.toList := by
  have written : (processAll talkEnv keptThinking (fresh talkEnv)).map
      (fun next => answerText next.2) = some "I kept.".toList := by decide +kernel
  rintro ⟨next, processed, same⟩
  rw [processed, Option.map_some, same] at written
  exact absurd (Option.some.inj written) (by decide)

end TurnBridge

end Zhongzhuan.Protocol
