import Zhongzhuan.Protocol.StreamO2A

/-!
# The shape of an Anthropic stream

`Phase.next` is the law of an Anthropic stream as an automaton: a message starts, its blocks are
numbered from zero on and open one at a time, what is added to a block has its type, and the
message is closed by one `message_delta` and one `message_stop`.

`StreamO2A` keeps to it as long as every chunk is `ProperChunk` in the state that finds it:
no text comes while a tool block is open, arguments go only to the last tool block that was
opened, and a finished translator is given no tool call that it would still write.
`anthropicStream_iff` says that these are exactly the streams that are well formed.
-/

namespace Zhongzhuan.Protocol

open Kit

/-! ## The law -/

/-- Where an Anthropic stream stands. -/
inductive Phase
  | before
  /-- So many blocks were opened, and all of them are closed. -/
  | between (blocks : ℕ)
  /-- This block is open, and it is a tool block or not. -/
  | inside (index : ℕ) (tool : Bool)
  | closing
  | over
deriving DecidableEq

namespace Phase

/-- A block is a tool block. -/
def isTool : ContentBlock → Bool
  | .text => false
  | .toolUse .. => true

/-- A delta is for tool blocks. -/
def isToolDelta : BlockDelta → Bool
  | .text _ => false
  | .inputJson _ => true

/-- What an event does to a stream; nothing when it is not allowed there. -/
def next : Phase → AnthropicEvent → Option Phase
  | .before, .messageStart .. => some (.between 0)
  | .between n, .ping => some (.between n)
  | .between n, .error _ => some (.between n)
  | .between n, .contentBlockStart index block =>
    if index = n then some (.inside n (isTool block)) else none
  | .between _, .messageDelta .. => some .closing
  | .inside n tool, .contentBlockDelta index delta =>
    if index = n ∧ isToolDelta delta = tool then some (.inside n tool) else none
  | .inside n _, .contentBlockStop index => if index = n then some (.between (n + 1)) else none
  | .closing, .messageStop => some .over
  | _, _ => none

/-- Where events lead. -/
def follow : Phase → List AnthropicEvent → Option Phase
  | p, [] => some p
  | p, e :: events => (p.next e).bind (follow · events)

theorem follow_append (p : Phase) (events more : List AnthropicEvent) :
    p.follow (events ++ more) = (p.follow events).bind (follow · more) := by
  induction events generalizing p with
  | nil => rfl
  | cons e events ih =>
      rw [List.cons_append, follow, follow]
      cases p.next e with
      | none => rfl
      | some q => exact ih q

end Phase

/-- **The law of an Anthropic stream** that has come to its end. -/
def WellFormedAnthropic (events : List AnthropicEvent) : Prop :=
  Phase.before.follow events = some .over

instance (events : List AnthropicEvent) : Decidable (WellFormedAnthropic events) :=
  inferInstanceAs (Decidable (_ = _))

namespace StreamO2A

variable (env : O2AEnv)

/-! ## What the translator must be given -/

/-- A fragment of a tool call: a new call does not come after the end, and arguments are for the
block that was opened last. -/
def ProperTool (s : StreamO2A) (tool : ToolDelta) : Prop :=
  match s.toolIndexMap.get? tool.key with
  | none => s.finished = false
  | some index => tool.arguments = none ∨ (s.state = .toolBlock ∧ s.currentIndex = index)

/-- Fragments one after another. -/
def ProperTools (s : StreamO2A) : List ToolDelta → Prop
  | [] => True
  | tool :: tools => s.ProperTool tool ∧ ProperTools (s.handleToolCall env tool).1 tools

/-- A chunk: an error, or a choice without text for an open tool block. -/
def ProperChunk (s : StreamO2A) (chunk : OpenAIChunk) : Prop :=
  chunk.error = [] → ∀ choice ∈ chunk.choice,
    (choice.content ≠ none → s.state ≠ .toolBlock) ∧
      ProperTools env (((s.captureUsage chunk).start env chunk).1.handleContent choice.content).1
        choice.toolCalls

/-- An event that says nothing, ends the stream or is a proper chunk. -/
def ProperItem (s : StreamO2A) : StreamItem → Prop
  | .nothing | .sentinel => True
  | .json v => ∀ chunk ∈ OpenAIChunk.read env s.finished v, ProperChunk env s chunk
  | .broken => False

/-! ## Steps -/

/-- A translator and where its stream stands. -/
def Stands (s : StreamO2A) (p : Phase) : Prop :=
  match s.state with
  | .init => p = .before ∧ s.finished = false ∧ s.nextBlockIndex = 0 ∧ s.toolIndexMap = .empty
  | .started =>
    p = .between 0 ∧ s.finished = false ∧ s.nextBlockIndex = 0 ∧ s.toolIndexMap = .empty
  | .textBlock => p = .inside 0 false ∧ s.finished = false ∧ s.currentIndex = 0
    ∧ s.nextBlockIndex = 1 ∧ s.toolIndexMap = .empty
  | .toolBlock => p = .inside s.currentIndex true ∧ s.finished = false
    ∧ s.nextBlockIndex = s.currentIndex + 1
  | .done => p = .over ∧ s.finished = true

/-- A step that keeps to the law exactly when `ok` holds. -/
structure Obeys (p : Phase) (step : StreamO2A × List AnthropicEvent) (ok : Prop) : Prop where
  good : ok → ∃ q, p.follow step.2 = some q ∧ Stands step.1 q
  bad : ¬ ok → p.follow step.2 = none

variable {env} {s : StreamO2A} {p : Phase} {ok : Prop}

theorem Obeys.congr {step : StreamO2A × List AnthropicEvent} {ok' : Prop} (h : Obeys p step ok)
    (same : ok ↔ ok') : Obeys p step ok' :=
  ⟨fun good => h.good (same.mpr good), fun bad => h.bad fun good => bad (same.mp good)⟩

theorem Obeys.of_follow {step : StreamO2A × List AnthropicEvent} {q : Phase}
    (follow : p.follow step.2 = some q) (stands : Stands step.1 q) : Obeys p step True :=
  ⟨fun _ => ⟨q, follow, stands⟩, fun bad => absurd trivial bad⟩

theorem Obeys.then {first second : StreamO2A × List AnthropicEvent} {ok' : Prop}
    (h : Obeys p first ok)
    (h' : ∀ q, Stands first.1 q → Obeys q second ok') :
    Obeys p (second.1, first.2 ++ second.2) (ok ∧ ok') := by
  constructor
  · rintro ⟨good, good'⟩
    obtain ⟨q, follow, stands⟩ := h.good good
    obtain ⟨r, follow', stands'⟩ := (h' q stands).good good'
    exact ⟨r, by rw [Phase.follow_append, follow]; exact follow', stands'⟩
  · intro bad
    rw [Phase.follow_append]
    by_cases good : ok
    · obtain ⟨q, follow, stands⟩ := h.good good
      rw [follow]
      exact (h' q stands).bad fun good' => bad ⟨good, good'⟩
    · rw [h.bad good]
      rfl

theorem stands_captureUsage (stands : Stands s p) (chunk : OpenAIChunk) :
    Stands (s.captureUsage chunk) p := by
  unfold captureUsage
  cases chunk.completionTokens <;> exact stands

variable (env) in
theorem obeys_start (stands : Stands s p) (chunk : OpenAIChunk) :
    Obeys p (s.start env chunk) True := by
  unfold start
  by_cases init : s.state = .init
  · rw [if_pos init]
    unfold Stands at stands
    rw [init] at stands
    obtain ⟨rfl, going, none, empty⟩ := stands
    exact Obeys.of_follow (q := .between 0) rfl ⟨rfl, going, none, empty⟩
  · rw [if_neg init]
    exact Obeys.of_follow (q := p) rfl stands

theorem obeys_handleContent (stands : Stands s p) (content : Option String) :
    Obeys p (s.handleContent content) (content ≠ none → s.state ≠ .toolBlock) := by
  cases content with
  | none => exact ⟨fun _ => ⟨p, rfl, stands⟩, fun bad => absurd (fun h => absurd rfl h) bad⟩
  | some text =>
      unfold handleContent
      unfold Stands at stands
      cases state : s.state with
      | toolBlock =>
          rw [state] at stands
          obtain ⟨rfl, _, _⟩ := stands
          exact ⟨fun ok => absurd rfl (ok (by simp)), fun _ => rfl⟩
      | init | done =>
          rw [state] at stands
          refine ⟨fun _ => ⟨p, rfl, ?_⟩, fun bad => absurd (fun _ => (by decide)) bad⟩
          unfold Stands
          simpa [state] using stands
      | started =>
          rw [state] at stands
          obtain ⟨rfl, going, _, empty⟩ := stands
          refine ⟨fun _ => ⟨.inside 0 false, rfl, ?_⟩, fun bad => absurd (fun _ => (by decide)) bad⟩
          exact ⟨rfl, going, rfl, rfl, empty⟩
      | textBlock =>
          rw [state] at stands
          obtain ⟨rfl, rest⟩ := stands
          refine ⟨fun _ => ⟨.inside 0 false, rfl, ?_⟩, fun bad => absurd (fun _ => (by decide)) bad⟩
          unfold Stands
          simpa [state] using rest

theorem follow_argumentsDelta (p : Phase) (index : ℕ) (arguments : Option Json) :
    p.follow (argumentsDelta index arguments)
      = if arguments = none ∨ p = .inside index true then some p else none := by
  cases arguments with
  | none => rfl
  | some arguments =>
      show (p.next (.contentBlockDelta index (.inputJson arguments))).bind some = _
      cases p with
      | inside n tool =>
          cases tool <;> simp [Phase.next, Phase.isToolDelta, eq_comm]
      | _ => simp [Phase.next]

theorem obeys_handleToolCall (stands : Stands s p) (begun : s.state ≠ .init) (tool : ToolDelta) :
    Obeys p (s.handleToolCall env tool) (s.ProperTool tool) := by
  unfold handleToolCall ProperTool
  cases known : s.toolIndexMap.get? tool.key with
  | some index =>
      dsimp only
      have here : p = .inside index true ↔ s.state = .toolBlock ∧ s.currentIndex = index := by
        unfold Stands at stands
        cases state : s.state <;> rw [state] at stands <;> obtain ⟨rfl, _⟩ := stands <;> simp
      constructor
      · intro ok
        exact ⟨p, by rw [follow_argumentsDelta, if_pos (ok.imp_right here.mpr)], stands⟩
      · intro bad
        rw [follow_argumentsDelta, if_neg fun allowed => bad (allowed.imp_right here.mp)]
  | none =>
      -- a new block is opened, after the block that is open was closed
      dsimp only
      have opens : ∀ n, n = s.nextBlockIndex → p.follow s.closeBefore = some (.between n) →
          s.finished = false → Obeys p
            ({ s with
                nextBlockIndex := s.nextBlockIndex + 1
                toolIndexMap := s.toolIndexMap.set tool.key s.nextBlockIndex
                currentIndex := s.nextBlockIndex
                state := .toolBlock },
              s.closeBefore ++ .contentBlockStart s.nextBlockIndex
                (.toolUse (tool.id.getD (.str (env.toolId s.nextBlockIndex))) tool.name)
                  :: argumentsDelta s.nextBlockIndex tool.arguments)
            (s.finished = false) := by
        rintro n rfl closes going
        refine (Obeys.of_follow (q := .inside s.nextBlockIndex true) ?_ ?_).congr (by simp [going])
        · rw [Phase.follow_append, closes]
          have inside := follow_argumentsDelta (.inside s.nextBlockIndex true) s.nextBlockIndex
            tool.arguments
          simpa [Phase.follow, Phase.next, Phase.isTool] using inside
        · exact ⟨rfl, going, rfl⟩
      unfold Stands at stands
      cases state : s.state with
      | init => exact absurd state begun
      | started =>
          rw [state] at stands
          obtain ⟨rfl, going, count, _⟩ := stands
          exact opens 0 count.symm (by simp [closeBefore, state, Phase.follow]) going
      | textBlock =>
          rw [state] at stands
          obtain ⟨rfl, going, _, count, _⟩ := stands
          exact opens 1 count.symm (by simp [closeBefore, state, Phase.follow, Phase.next]) going
      | toolBlock =>
          rw [state] at stands
          obtain ⟨rfl, going, count⟩ := stands
          exact opens _ count.symm (by simp [closeBefore, state, Phase.follow, Phase.next]) going
      | done =>
          rw [state] at stands
          obtain ⟨rfl, ended⟩ := stands
          constructor
          · intro going
            rw [ended] at going
            cases going
          · intro _
            simp [closeBefore, state, Phase.follow, Phase.next]

theorem begun_handleToolCall (begun : s.state ≠ .init) (tool : ToolDelta) :
    (s.handleToolCall env tool).1.state ≠ .init := by
  unfold handleToolCall
  split
  · exact begun
  · exact StreamState.noConfusion

variable (env) in
theorem obeys_handleToolCalls (stands : Stands s p) (begun : s.state ≠ .init)
    (tools : List ToolDelta) : Obeys p (s.handleToolCalls env tools) (ProperTools env s tools) := by
  induction tools generalizing s p with
  | nil => exact Obeys.of_follow (q := p) rfl stands
  | cons tool tools ih =>
      exact (obeys_handleToolCall stands begun tool).then fun q stands' =>
        ih stands' (begun_handleToolCall begun tool)

variable (env) in
theorem follow_closeBlock (stands : Stands s p) (going : s.finished = false) :
    ∃ n, p.follow (s.closeBlock env) = some (.between n) := by
  unfold Stands at stands
  unfold closeBlock
  cases state : s.state with
  | init | started =>
      rw [state] at stands
      obtain ⟨rfl, _⟩ := stands
      exact ⟨0, rfl⟩
  | textBlock =>
      rw [state] at stands
      obtain ⟨rfl, _, current, _⟩ := stands
      exact ⟨1, by simp [Phase.follow, Phase.next, current]⟩
  | toolBlock =>
      rw [state] at stands
      obtain ⟨rfl, _⟩ := stands
      exact ⟨s.currentIndex + 1, by simp [Phase.follow, Phase.next]⟩
  | done =>
      rw [state] at stands
      rw [stands.2] at going
      cases going

theorem obeys_finish (stands : Stands s p) (finishReason : Option String) :
    Obeys p (s.finish env finishReason) True := by
  unfold finish
  by_cases ended : s.finished = true
  · rw [if_pos ended]
    exact Obeys.of_follow (q := p) rfl stands
  · rw [if_neg ended]
    obtain ⟨n, closes⟩ := follow_closeBlock env stands (Bool.eq_false_iff.mpr ended)
    refine Obeys.of_follow (q := .over) ?_ ⟨rfl, rfl⟩
    rw [Phase.follow_append, closes]
    rfl

theorem obeys_finishWithError (stands : Stands s p) (err : Fields) :
    Obeys p (s.finishWithError env err) True := by
  unfold finishWithError
  by_cases ended : s.finished = true
  · rw [if_pos ended]
    exact Obeys.of_follow (q := p) rfl stands
  · rw [if_neg ended]
    obtain ⟨n, closes⟩ := follow_closeBlock env stands (Bool.eq_false_iff.mpr ended)
    refine Obeys.of_follow (q := .over) ?_ ⟨rfl, rfl⟩
    rw [Phase.follow_append, closes]
    rfl

variable (env) in
theorem obeys_handleFinish (stands : Stands s p) (finishReason : Option String) :
    Obeys p (s.handleFinish env finishReason) True := by
  cases finishReason with
  | none => exact Obeys.of_follow (q := p) rfl stands
  | some reason => exact obeys_finish stands (some reason)

theorem begun_start (chunk : OpenAIChunk) : (s.start env chunk).1.state ≠ .init := by
  unfold start
  split
  case isTrue _ => exact StreamState.noConfusion
  case isFalse begun => exact begun

theorem begun_handleContent (begun : s.state ≠ .init) (content : Option String) :
    (s.handleContent content).1.state ≠ .init := by
  unfold handleContent
  cases content with
  | none => exact begun
  | some text =>
      dsimp only
      split
      · exact StreamState.noConfusion
      · exact begun
      · exact StreamState.noConfusion
      all_goals exact begun

theorem toolBlock_start (chunk : OpenAIChunk) :
    (s.start env chunk).1.state = .toolBlock ↔ s.state = .toolBlock := by
  unfold start
  split
  case isTrue init =>
    rw [init]
    exact ⟨StreamState.noConfusion, StreamState.noConfusion⟩
  case isFalse _ => exact Iff.rfl

theorem state_captureUsage (chunk : OpenAIChunk) : (s.captureUsage chunk).state = s.state := by
  unfold captureUsage
  split <;> rfl

theorem obeys_handleOpenaiChunk (stands : Stands s p) (chunk : OpenAIChunk) :
    Obeys p (s.handleOpenaiChunk env chunk) (ProperChunk env s chunk) := by
  have stands := stands_captureUsage stands chunk
  unfold handleOpenaiChunk ProperChunk
  by_cases failed : chunk.error = []
  case neg =>
    rw [if_pos failed]
    exact (obeys_finishWithError stands _).congr
      ⟨fun _ good => absurd good failed, fun _ => trivial⟩
  rw [if_neg (not_not.mpr failed)]
  cases chosen : chunk.choice with
  | none =>
      exact (Obeys.of_follow (q := p) rfl stands).congr (by simp)
  | some choice =>
      have started := obeys_start env stands chunk
      have whole := started.then fun q stands' =>
        (obeys_handleContent stands' choice.content).then fun q stands' =>
          (obeys_handleToolCalls env stands'
            (begun_handleContent (begun_start chunk) _) choice.toolCalls).then fun q stands' =>
              obeys_handleFinish env stands' choice.finishReason
      simp only [← List.append_assoc] at whole
      have label : ((s.captureUsage chunk).start env chunk).1.state = .toolBlock
          ↔ s.state = .toolBlock := by
        rw [toolBlock_start, state_captureUsage]
      refine whole.congr ?_
      simp [failed, label]

theorem obeys_handleItem (stands : Stands s p) {item : StreamItem}
    {next : StreamO2A × List AnthropicEvent} (handled : s.handleItem env item = some next) :
    Obeys p next (ProperItem env s item) := by
  cases item with
  | nothing =>
      cases handled
      exact Obeys.of_follow (q := p) rfl stands
  | sentinel =>
      cases handled
      exact obeys_finish stands none
  | json v =>
      obtain ⟨chunk, read, rfl⟩ := Option.map_eq_some_iff.mp handled
      refine (obeys_handleOpenaiChunk stands chunk).congr ?_
      show _ ↔ ∀ chunk ∈ OpenAIChunk.read env s.finished v, ProperChunk env s chunk
      rw [read]
      simp
  | broken => cases handled

/-! ## Streams -/

theorem anthropic_law (env : O2AEnv) :
    (translator env).Law (fun s block => ProperItem env s (readEvent env block)) (fun _ => True)
      (fun s past => ∃ p, Phase.before.follow past = some p ∧ Stands s p)
      (fun past => Phase.before.follow past = none) WellFormedAnthropic where
  keeps := by
    rintro s past block next ⟨p, follow, stands⟩ handled proper
    obtain ⟨q, follow', stands'⟩ := (obeys_handleItem stands handled).good proper
    exact ⟨q, by rw [Phase.follow_append, follow]; exact follow', stands'⟩
  spoils := by
    rintro s past block next ⟨p, follow, stands⟩ handled improper
    rw [Phase.follow_append, follow]
    exact (obeys_handleItem stands handled).bad improper
  spoiled past more spoiled := by rw [Phase.follow_append, spoiled]; rfl
  bad past spoiled good := by
    rw [WellFormedAnthropic, spoiled] at good
    cases good
  ends := by
    rintro s past ⟨p, follow, stands⟩
    refine iff_of_true ?_ trivial
    show Phase.before.follow (past ++ s.finishSafely env) = some .over
    rw [Phase.follow_append, follow]
    show p.follow (s.finish env none).2 = some .over
    unfold finish
    by_cases ended : s.finished = true
    · rw [if_pos ended]
      unfold Stands at stands
      cases state : s.state <;> rw [state] at stands
      case done => exact congrArg some stands.1
      all_goals
        rw [stands.2.1] at ended
        cases ended
    · rw [if_neg ended]
      obtain ⟨n, closes⟩ := follow_closeBlock env stands (Bool.eq_false_iff.mpr ended)
      rw [Phase.follow_append, closes]
      rfl

/-- **The streams for which the output is well formed**, in any chunks: those in which every event
that the translator takes is proper in the state that finds it. -/
theorem anthropicStream_iff (env : O2AEnv) (chunks : List Bytes) :
    (∃ out, (translator env).output [] {} chunks = some out ∧ WellFormedAnthropic out)
      ↔ (translator env).Along (fun s block => ProperItem env s (readEvent env block))
          (fun _ => True) [] {} chunks := by
  have fresh : Stands {} .before := ⟨rfl, rfl, rfl, rfl⟩
  have begins : ∃ p, Phase.before.follow [] = some p ∧ Stands {} p := ⟨.before, rfl, fresh⟩
  exact (anthropic_law env).good_iff_along begins chunks

/-- A chunk of a model with the delta `delta`. -/
def deltaChunk (delta : Fields) : Json :=
  .obj [("choices", .arr [.obj [("delta", .obj delta)]])]

/-- An entry of `tool_calls`. -/
def toolEntry (index : ℤ) (id name arguments : String) : Json :=
  .obj [("index", .int index), ("id", .str id),
    ("function", .obj [("name", .str name), ("arguments", .str arguments)])]

/-- An upstream of which every event is one letter. -/
def letterLoads (letters : List (String × Json)) (text : String) : Loaded :=
  match letters.lookup text with
  | some v => .value v
  | none => .rejected

/-- An environment in which the letters `letters` stand for JSON texts. -/
def letterEnv (letters : List (String × Json)) : O2AEnv where
  model := "m"
  messageId := "msg_1"
  toolId index := "toolu_" ++ toString index
  loads := letterLoads letters
  strOf _ := ""
  floatCount _ := some none
  floatKey := .float

/-- A tool call, and text after it. -/
def toolThenText : O2AEnv :=
  letterEnv [("a", deltaChunk [("tool_calls", .arr [toolEntry 0 "call_1" "f" "\x7b\x7d"])]),
    ("b", deltaChunk [("content", .str "Hi")])]

/-- The text block is opened while the tool block is open. -/
theorem toolThenText_illFormed :
    ¬ ∃ out, (translator toolThenText).output [] {}
        [Utf8.encode "data: a\n\ndata: b\n\n".toList] = some out
      ∧ WellFormedAnthropic out := by
  have written : (translator toolThenText).output [] {}
      [Utf8.encode "data: a\n\ndata: b\n\n".toList]
      = some [.messageStart (.str "msg_1") (.str "m"), .ping,
        .contentBlockStart 0 (.toolUse (.str "call_1") (.str "f")),
        .contentBlockDelta 0 (.inputJson (.str "\x7b\x7d")), .contentBlockStart 1 .text,
        .contentBlockDelta 1 (.text "Hi"), .contentBlockStop 1, .messageDelta "end_turn" 1,
        .messageStop] := by decide +kernel
  rintro ⟨out, same, good⟩
  rw [written] at same
  cases same
  exact absurd good (by decide)

end StreamO2A

end Zhongzhuan.Protocol
