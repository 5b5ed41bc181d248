import Zhongzhuan.Protocol.AnthropicStream

/-!
# What the blocks of an Anthropic stream carry

Up to the chunk that ends a message, `StreamO2A` loses nothing that it is given: the texts come
to the contents, and every tool index has one tool block, with the id and the name of its first
fragment and with all its arguments (`chunks_carried`).

A chunk with an error is not looked at any further, so what it carries beside the error is left
out by design (`errorWithContent_dropped`), and a tool call without an id is given one.
-/

namespace Zhongzhuan.Protocol

open Kit

/-! ## What is written -/

/-- The texts of a stream. -/
def textsOf (events : List AnthropicEvent) : List String :=
  events.filterMap fun e =>
    match e with
    | .contentBlockDelta _ (.text text) => some text
    | _ => none

/-- The blocks that are announced with this index. -/
def startsAt (index : ℕ) (events : List AnthropicEvent) : List ContentBlock :=
  events.filterMap fun e =>
    match e with
    | .contentBlockStart i block => if i = index then some block else none
    | _ => none

/-- The arguments that are sent to the block with this index. -/
def inputsAt (index : ℕ) (events : List AnthropicEvent) : List Json :=
  events.filterMap fun e =>
    match e with
    | .contentBlockDelta i (.inputJson arguments) => if i = index then some arguments else none
    | _ => none

/-! ## What is given -/

/-- The choice of a chunk, unless the chunk is an error. -/
def OpenAIChunk.used (chunk : OpenAIChunk) : Option ChunkChoice :=
  if chunk.error = [] then chunk.choice else none

/-- The contents of chunks. -/
def contentsOf (chunks : List OpenAIChunk) : List String :=
  chunks.filterMap fun chunk => chunk.used.bind ChunkChoice.content

/-- The tool-call fragments of chunks. -/
def fragmentsOf (chunks : List OpenAIChunk) : List ToolDelta :=
  chunks.flatMap fun chunk => (chunk.used.map ChunkChoice.toolCalls).getD []

/-- The arguments of the fragments with this index. -/
def argumentsFor (key : Json) (tools : List ToolDelta) : List Json :=
  tools.filterMap fun tool => if tool.key = key then tool.arguments else none

/-- A chunk that does not end the message. -/
def OpenAIChunk.Continues (chunk : OpenAIChunk) : Prop :=
  chunk.error = [] ∧ ∀ choice ∈ chunk.choice, choice.finishReason = none

namespace StreamO2A

/-- Chunks one after another. -/
def handleChunks (env : O2AEnv) (s : StreamO2A) :
    List OpenAIChunk → StreamO2A × List AnthropicEvent
  | [] => (s, [])
  | chunk :: chunks =>
    let first := s.handleOpenaiChunk env chunk
    let rest := handleChunks env first.1 chunks
    (rest.1, first.2 ++ rest.2)

variable {env : O2AEnv}

/-- The tool block of an index. -/
structure HasBlock (env : O2AEnv) (events : List AnthropicEvent) (tools : List ToolDelta)
    (key : Json) (index : ℕ) : Prop where
  /-- One block is announced, as the first fragment has it. -/
  announced : ∃ first, tools.find? (fun tool => tool.key = key) = some first
    ∧ startsAt index events = [.toolUse (first.id.getD (.str (env.toolId index))) first.name]
  /-- The fragments are sent to it. -/
  filled : inputsAt index events = argumentsFor key tools

/-- What a translator that is not finished has written of what it was given. -/
structure Carries (env : O2AEnv) (s : StreamO2A) (events : List AnthropicEvent)
    (contents : List String) (tools : List ToolDelta) : Prop where
  texts : textsOf events = contents
  block : ∀ key index, s.toolIndexMap.get? key = some index →
    HasBlock env events tools key index ∧ index < s.nextBlockIndex
  mapped : ∀ tool ∈ tools, ∃ index, s.toolIndexMap.get? tool.key = some index
  apart : ∀ key key' index, s.toolIndexMap.get? key = some index →
    s.toolIndexMap.get? key' = some index → key = key'
  fresh : ∀ index, s.nextBlockIndex ≤ index →
    startsAt index events = [] ∧ inputsAt index events = []
  owned : ∀ index id name, .toolUse id name ∈ startsAt index events →
    ∃ key, s.toolIndexMap.get? key = some index
  early : s.state = .init ∨ s.state = .started → s.nextBlockIndex = 0 ∧ s.toolIndexMap = .empty
  going : s.state ≠ .done

variable {s : StreamO2A} {events : List AnthropicEvent} {contents : List String}
  {tools : List ToolDelta}

@[simp] theorem textsOf_append (events more : List AnthropicEvent) :
    textsOf (events ++ more) = textsOf events ++ textsOf more := List.filterMap_append

@[simp] theorem startsAt_append (index : ℕ) (events more : List AnthropicEvent) :
    startsAt index (events ++ more) = startsAt index events ++ startsAt index more :=
  List.filterMap_append

@[simp] theorem inputsAt_append (index : ℕ) (events more : List AnthropicEvent) :
    inputsAt index (events ++ more) = inputsAt index events ++ inputsAt index more :=
  List.filterMap_append

theorem Carries.say (c : Carries env s events contents tools) (more : List AnthropicEvent)
    (starts : ∀ index, startsAt index more = []) (inputs : ∀ index, inputsAt index more = [])
    (s' : StreamO2A) (map : s'.toolIndexMap = s.toolIndexMap)
    (next : s'.nextBlockIndex = s.nextBlockIndex)
    (early : s'.state = .init ∨ s'.state = .started → s.state = .init ∨ s.state = .started)
    (going : s'.state ≠ .done) :
    Carries env s' (events ++ more) (contents ++ textsOf more) tools where
  texts := by rw [textsOf_append, c.texts]
  block := by
    rw [map, next]
    intro key index known
    obtain ⟨⟨announced, filled⟩, below⟩ := c.block key index known
    refine ⟨⟨?_, ?_⟩, below⟩
    · rw [startsAt_append, starts, List.append_nil]
      exact announced
    · rw [inputsAt_append, inputs, List.append_nil, filled]
  mapped := by
    rw [map]
    exact c.mapped
  apart := by
    rw [map]
    exact c.apart
  fresh := by
    rw [next]
    intro index above
    rw [startsAt_append, inputsAt_append, starts, inputs, List.append_nil, List.append_nil]
    exact c.fresh index above
  owned := by
    rw [map]
    intro index id name mem
    rw [startsAt_append, starts, List.append_nil] at mem
    exact c.owned index id name mem
  early := by
    rw [map, next]
    exact fun h => c.early (early h)
  going := going

theorem Carries.congr (c : Carries env s events contents tools) (s' : StreamO2A)
    (map : s'.toolIndexMap = s.toolIndexMap) (next : s'.nextBlockIndex = s.nextBlockIndex)
    (state : s'.state = s.state) : Carries env s' events contents tools := by
  have same := c.say [] (fun _ => rfl) (fun _ => rfl) s' map next
    (by rw [state]; exact id) (by rw [state]; exact c.going)
  simpa [textsOf] using same

theorem Carries.openText (c : Carries env s events contents tools) (s' : StreamO2A)
    (map : s'.toolIndexMap = s.toolIndexMap) (next : s'.nextBlockIndex = s.nextBlockIndex + 1)
    (state : s'.state = .textBlock) :
    Carries env s' (events ++ [.contentBlockStart s.nextBlockIndex .text]) contents tools where
  texts := by
    rw [textsOf_append, c.texts]
    exact List.append_nil _
  block := by
    rw [map, next]
    intro key index known
    obtain ⟨⟨announced, filled⟩, below⟩ := c.block key index known
    have other : s.nextBlockIndex ≠ index := below.ne'
    refine ⟨⟨?_, ?_⟩, below.trans (Nat.lt_succ_self _)⟩
    · rw [startsAt_append]
      simpa [startsAt, other] using announced
    · rw [inputsAt_append, filled]
      exact List.append_nil _
  mapped := by
    rw [map]
    exact c.mapped
  apart := by
    rw [map]
    exact c.apart
  fresh := by
    rw [next]
    intro index above
    have other : s.nextBlockIndex ≠ index := by omega
    obtain ⟨starts, inputs⟩ := c.fresh index (by omega)
    rw [startsAt_append, inputsAt_append, starts, inputs]
    simp [startsAt, inputsAt, other]
  owned := by
    rw [map]
    intro index id name mem
    rw [startsAt_append, List.mem_append] at mem
    rcases mem with before | now
    · exact c.owned index id name before
    · by_cases here : s.nextBlockIndex = index <;> simp [startsAt, here] at now
  early h := by rw [state] at h; exact absurd h (by decide)
  going := by rw [state]; exact StreamState.noConfusion

theorem Carries.handleContent (c : Carries env s events contents tools) (begun : s.state ≠ .init)
    (content : Option String) :
    Carries env (s.handleContent content).1 (events ++ (s.handleContent content).2)
      (contents ++ content.toList) tools := by
  cases content with
  | none => simpa [StreamO2A.handleContent] using c
  | some text =>
      have speaks : ∀ (s' : StreamO2A) (n : ℕ), s'.state = .textBlock →
          ∀ {events}, Carries env s' events contents tools →
            Carries env s' (events ++ [.contentBlockDelta n (.text text)]) (contents ++ [text])
              tools :=
        fun s' n state _ c' => c'.say _ (fun _ => rfl) (fun _ => rfl) s' rfl rfl id c'.going
      unfold StreamO2A.handleContent
      cases state : s.state with
      | init => exact absurd state begun
      | done => exact absurd state c.going
      | started =>
          obtain ⟨none, _⟩ := c.early (.inr state)
          have opened := c.openText
            { s with
              outputChars := s.outputChars + text.length
              currentIndex := 0
              nextBlockIndex := 1
              state := .textBlock } rfl (by rw [none]) rfl
          rw [none] at opened
          simpa using speaks _ 0 rfl opened
      | textBlock =>
          have same := c.congr
            { s with
              outputChars := s.outputChars + text.length } rfl rfl rfl
          have spoken := speaks { s with outputChars := s.outputChars + text.length } 0 state same
          simpa [state] using spoken
      | toolBlock =>
          have opened := c.openText
            { s with
              outputChars := s.outputChars + text.length
              currentIndex := s.nextBlockIndex
              nextBlockIndex := s.nextBlockIndex + 1
              state := .textBlock } rfl rfl rfl
          simpa using speaks _ s.nextBlockIndex rfl opened

theorem startsAt_argumentsDelta (index j : ℕ) (arguments : Option Json) :
    startsAt j (argumentsDelta index arguments) = [] := by
  cases arguments <;> rfl

theorem inputsAt_argumentsDelta_self (index : ℕ) (arguments : Option Json) :
    inputsAt index (argumentsDelta index arguments) = arguments.toList := by
  cases arguments <;> simp [argumentsDelta, inputsAt]

theorem inputsAt_argumentsDelta_of_ne {index j : ℕ} (other : index ≠ j)
    (arguments : Option Json) : inputsAt j (argumentsDelta index arguments) = [] := by
  cases arguments <;> simp [argumentsDelta, inputsAt, other]

theorem textsOf_argumentsDelta (index : ℕ) (arguments : Option Json) :
    textsOf (argumentsDelta index arguments) = [] := by
  cases arguments <;> rfl

theorem argumentsFor_append (key : Json) (tools more : List ToolDelta) :
    argumentsFor key (tools ++ more) = argumentsFor key tools ++ argumentsFor key more :=
  List.filterMap_append

theorem argumentsFor_self (tool : ToolDelta) :
    argumentsFor tool.key [tool] = tool.arguments.toList := by
  cases given : tool.arguments <;> simp [argumentsFor, given]

theorem argumentsFor_of_ne {tool : ToolDelta} {key : Json} (other : tool.key ≠ key) :
    argumentsFor key [tool] = [] := by
  simp [argumentsFor, other]

theorem Carries.addArguments (c : Carries env s events contents tools) {tool : ToolDelta}
    {index : ℕ} (known : s.toolIndexMap.get? tool.key = some index) :
    Carries env s (events ++ argumentsDelta index tool.arguments) contents
      (tools ++ [tool]) where
  texts := by
    rw [textsOf_append, textsOf_argumentsDelta, c.texts]
    exact List.append_nil _
  block := by
    intro key j here
    obtain ⟨⟨⟨first, found, announced⟩, filled⟩, below⟩ := c.block key j here
    refine ⟨⟨⟨first, ?_, ?_⟩, ?_⟩, below⟩
    · rw [List.find?_append, found]
      rfl
    · rw [startsAt_append, startsAt_argumentsDelta, List.append_nil]
      exact announced
    · rw [inputsAt_append, argumentsFor_append, filled]
      by_cases same : tool.key = key
      · subst same
        obtain rfl : index = j := Option.some.inj (known.symm.trans here)
        rw [inputsAt_argumentsDelta_self, argumentsFor_self]
      · have other : index ≠ j := by
          rintro rfl
          exact same (c.apart _ _ _ known here)
        rw [inputsAt_argumentsDelta_of_ne other, argumentsFor_of_ne same]
  mapped := by
    intro t mem
    rcases List.mem_append.mp mem with before | now
    · exact c.mapped t before
    · rw [List.mem_singleton.mp now]
      exact ⟨index, known⟩
  apart := c.apart
  fresh := by
    intro j above
    have other : index ≠ j := ((c.block _ _ known).2.trans_le above).ne
    obtain ⟨starts, inputs⟩ := c.fresh j above
    rw [startsAt_append, inputsAt_append, starts, inputs, startsAt_argumentsDelta,
      inputsAt_argumentsDelta_of_ne other]
    exact ⟨rfl, rfl⟩
  owned := by
    intro j id name mem
    rw [startsAt_append, startsAt_argumentsDelta, List.append_nil] at mem
    exact c.owned j id name mem
  early := c.early
  going := c.going

theorem Carries.openTool (c : Carries env s events contents tools) {tool : ToolDelta}
    (new : s.toolIndexMap.get? tool.key = none) :
    Carries env
      { s with
        nextBlockIndex := s.nextBlockIndex + 1
        toolIndexMap := s.toolIndexMap.set tool.key s.nextBlockIndex
        currentIndex := s.nextBlockIndex
        state := .toolBlock }
      (events ++ .contentBlockStart s.nextBlockIndex
          (.toolUse (tool.id.getD (.str (env.toolId s.nextBlockIndex))) tool.name)
        :: argumentsDelta s.nextBlockIndex tool.arguments)
      contents (tools ++ [tool]) := by
  have missing : ∀ t ∈ tools, t.key ≠ tool.key := by
    intro t mem same
    obtain ⟨index, known⟩ := c.mapped t mem
    rw [same, new] at known
    cases known
  have unseen : tools.find? (fun t => t.key = tool.key) = none := by
    rw [List.find?_eq_none]
    intro t mem
    simpa using missing t mem
  have noArguments : argumentsFor tool.key tools = [] := by
    unfold argumentsFor
    rw [List.filterMap_eq_nil_iff]
    intro t mem
    rw [if_neg (missing t mem)]
  obtain ⟨noStart, noInput⟩ := c.fresh s.nextBlockIndex le_rfl
  have starts : ∀ j, s.nextBlockIndex ≠ j → startsAt j (.contentBlockStart s.nextBlockIndex
      (.toolUse (tool.id.getD (.str (env.toolId s.nextBlockIndex))) tool.name)
        :: argumentsDelta s.nextBlockIndex tool.arguments) = [] := by
    intro j other
    cases given : tool.arguments <;> simp [startsAt, argumentsDelta, other]
  have inputs : ∀ j, s.nextBlockIndex ≠ j → inputsAt j (.contentBlockStart s.nextBlockIndex
      (.toolUse (tool.id.getD (.str (env.toolId s.nextBlockIndex))) tool.name)
        :: argumentsDelta s.nextBlockIndex tool.arguments) = [] := by
    intro j other
    exact inputsAt_argumentsDelta_of_ne other tool.arguments
  refine ⟨?_, ?_, ?_, ?_, ?_, ?_, ?_, StreamState.noConfusion⟩
  · rw [textsOf_append, c.texts]
    show contents ++ textsOf (argumentsDelta _ _) = contents
    rw [textsOf_argumentsDelta, List.append_nil]
  · intro key j here
    dsimp only at here ⊢
    rw [Dict.get?_set] at here
    by_cases same : key = tool.key
    · subst same
      rw [if_pos rfl] at here
      obtain rfl := Option.some.inj here
      refine ⟨⟨⟨tool, ?_, ?_⟩, ?_⟩, Nat.lt_succ_self _⟩
      · rw [List.find?_append, unseen]
        simp
      · rw [startsAt_append, noStart]
        cases given : tool.arguments <;> simp [startsAt, argumentsDelta]
      · rw [inputsAt_append, noInput, argumentsFor_append, noArguments, argumentsFor_self]
        exact inputsAt_argumentsDelta_self _ _
    · rw [if_neg same] at here
      obtain ⟨⟨⟨first, found, announced⟩, filled⟩, below⟩ := c.block key j here
      refine ⟨⟨⟨first, ?_, ?_⟩, ?_⟩, below.trans (Nat.lt_succ_self _)⟩
      · rw [List.find?_append, found]
        rfl
      · rw [startsAt_append, starts j below.ne', List.append_nil]
        exact announced
      · rw [inputsAt_append, inputs j below.ne', argumentsFor_append, filled,
          argumentsFor_of_ne (Ne.symm same)]
  · intro t mem
    dsimp only
    rw [Dict.get?_set]
    split
    case isTrue _ => exact ⟨_, rfl⟩
    case isFalse other =>
      rcases List.mem_append.mp mem with before | now
      · exact c.mapped t before
      · rw [List.mem_singleton.mp now] at other
        exact absurd rfl other
  · intro key key' j here here'
    dsimp only at here here'
    rw [Dict.get?_set] at here here'
    split at here <;> split at here'
    case isTrue.isTrue same same' => rw [same, same']
    case isTrue.isFalse _ _ =>
      have below := (c.block key' j here').2
      rw [Option.some.inj here] at below
      exact absurd below (lt_irrefl j)
    case isFalse.isTrue _ _ =>
      have below := (c.block key j here).2
      rw [Option.some.inj here'] at below
      exact absurd below (lt_irrefl j)
    case isFalse.isFalse _ _ => exact c.apart key key' j here here'
  · intro j above
    dsimp only at above
    have other : s.nextBlockIndex ≠ j := by omega
    obtain ⟨noStart, noInput⟩ := c.fresh j (by omega)
    rw [startsAt_append, inputsAt_append, noStart, noInput, starts j other, inputs j other]
    exact ⟨rfl, rfl⟩
  · intro j id name mem
    dsimp only
    rw [startsAt_append, List.mem_append] at mem
    by_cases here : s.nextBlockIndex = j
    · exact ⟨tool.key, by rw [Dict.get?_set_self, here]⟩
    · rw [starts j here] at mem
      obtain ⟨key, known⟩ := c.owned j id name (mem.resolve_right List.not_mem_nil)
      refine ⟨key, ?_⟩
      rw [Dict.get?_set_of_ne _ _ fun same => ?_]
      · exact known
      · rw [same, new] at known
        cases known
  · rintro (h | h) <;> cases h

/-- What a chunk writes that neither announces nor fills a block. -/
def Silent (more : List AnthropicEvent) : Prop :=
  textsOf more = [] ∧ ∀ index, startsAt index more = [] ∧ inputsAt index more = []

theorem Silent.append {more rest : List AnthropicEvent} (h : Silent more) (h' : Silent rest) :
    Silent (more ++ rest) := by
  refine ⟨by rw [textsOf_append, h.1, h'.1]; rfl, fun index => ⟨?_, ?_⟩⟩
  · rw [startsAt_append, (h.2 index).1, (h'.2 index).1]
    rfl
  · rw [inputsAt_append, (h.2 index).2, (h'.2 index).2]
    rfl

theorem Carries.silent (c : Carries env s events contents tools) {more : List AnthropicEvent}
    (silent : Silent more) : Carries env s (events ++ more) contents tools := by
  have said := c.say _ (fun index => (silent.2 index).1) (fun index => (silent.2 index).2) s rfl rfl
    id c.going
  rwa [silent.1, List.append_nil] at said

variable (env) in
theorem silent_emitMessageStart (id : Option Json) (model : Json) :
    Silent (emitMessageStart env id model) := ⟨rfl, fun _ => ⟨rfl, rfl⟩⟩

theorem silent_closeBlock (s : StreamO2A) : Silent (s.closeBlock env) := by
  unfold closeBlock
  split
  · exact silent_emitMessageStart env _ _
  all_goals exact ⟨rfl, fun _ => ⟨rfl, rfl⟩⟩

theorem silent_closeBefore (s : StreamO2A) : Silent s.closeBefore := by
  unfold closeBefore
  split <;> exact ⟨rfl, fun _ => ⟨rfl, rfl⟩⟩

theorem silent_finish (s : StreamO2A) (finishReason : Option String) :
    Silent (s.finish env finishReason).2 := by
  unfold finish
  split
  · exact ⟨rfl, fun _ => ⟨rfl, rfl⟩⟩
  · exact (silent_closeBlock s).append ⟨rfl, fun _ => ⟨rfl, rfl⟩⟩

theorem silent_finishWithError (s : StreamO2A) (err : Fields) :
    Silent (s.finishWithError env err).2 := by
  unfold finishWithError
  split
  · exact ⟨rfl, fun _ => ⟨rfl, rfl⟩⟩
  · exact (silent_closeBlock s).append ⟨rfl, fun _ => ⟨rfl, rfl⟩⟩

theorem Carries.handleToolCall (c : Carries env s events contents tools) (tool : ToolDelta) :
    Carries env (s.handleToolCall env tool).1 (events ++ (s.handleToolCall env tool).2) contents
      (tools ++ [tool]) := by
  unfold StreamO2A.handleToolCall
  cases known : s.toolIndexMap.get? tool.key with
  | some index => exact c.addArguments known
  | none =>
      have opened := (c.silent (silent_closeBefore s)).openTool known
      simpa using opened

theorem Carries.handleToolCalls (c : Carries env s events contents tools)
    (more : List ToolDelta) :
    Carries env (s.handleToolCalls env more).1 (events ++ (s.handleToolCalls env more).2) contents
      (tools ++ more) := by
  induction more generalizing s events tools with
  | nil => simpa [StreamO2A.handleToolCalls] using c
  | cons tool more ih =>
      have rest := ih (c.handleToolCall tool)
      simpa [StreamO2A.handleToolCalls] using rest

theorem Carries.start (c : Carries env s events contents tools) (chunk : OpenAIChunk) :
    Carries env (s.start env chunk).1 (events ++ (s.start env chunk).2) contents tools := by
  unfold StreamO2A.start
  split
  case isTrue init =>
    obtain ⟨none, empty⟩ := c.early (.inl init)
    have said := (c.silent (silent_emitMessageStart env chunk.id chunk.model)).say
      [] (fun _ => rfl) (fun _ => rfl) { s with state := .started } rfl rfl
      (fun _ => .inl init) StreamState.noConfusion
    simpa [textsOf] using said
  case isFalse _ => simpa using c

theorem Carries.handleChoice (c : Carries env s events contents tools) (chunk : OpenAIChunk)
    (choice : ChunkChoice) :
    let text := ((s.start env chunk).1.handleContent choice.content)
    let called := text.1.handleToolCalls env choice.toolCalls
    Carries env called.1 (events ++ (s.start env chunk).2 ++ text.2 ++ called.2)
      (contents ++ choice.content.toList) (tools ++ choice.toolCalls) :=
  ((c.start chunk).handleContent (begun_start chunk) choice.content).handleToolCalls
    choice.toolCalls

theorem Carries.handleOpenaiChunk (c : Carries env s events contents tools) {chunk : OpenAIChunk}
    (continues : chunk.Continues) :
    Carries env (s.handleOpenaiChunk env chunk).1 (events ++ (s.handleOpenaiChunk env chunk).2)
      (contents ++ contentsOf [chunk]) (tools ++ fragmentsOf [chunk]) := by
  have counted : Carries env (s.captureUsage chunk) events contents tools := by
    unfold captureUsage
    split
    · exact c.congr _ rfl rfl rfl
    · exact c
  obtain ⟨good, goesOn⟩ := continues
  unfold StreamO2A.handleOpenaiChunk
  rw [if_neg (not_not.mpr good)]
  cases chosen : chunk.choice with
  | none => simpa [contentsOf, fragmentsOf, OpenAIChunk.used, chosen] using counted
  | some choice =>
      have carried := counted.handleChoice chunk choice
      have open' : choice.finishReason = none := goesOn choice (by rw [chosen]; rfl)
      have given : contentsOf [chunk] = choice.content.toList := by
        cases content : choice.content <;>
          simp [contentsOf, OpenAIChunk.used, good, chosen, content]
      have given' : fragmentsOf [chunk] = choice.toolCalls := by
        simp [fragmentsOf, OpenAIChunk.used, good, chosen]
      rw [given, given']
      simpa [StreamO2A.handleChoice, open', handleFinish, List.append_assoc] using carried

theorem carries_fresh (env : O2AEnv) : Carries env {} [] [] [] where
  texts := rfl
  block key index known := by cases known
  mapped := by simp
  apart key key' index known := by cases known
  fresh _ _ := ⟨rfl, rfl⟩
  owned _ _ _ mem := absurd mem List.not_mem_nil
  early _ := ⟨rfl, rfl⟩
  going := StreamState.noConfusion

theorem contentsOf_append (chunks more : List OpenAIChunk) :
    contentsOf (chunks ++ more) = contentsOf chunks ++ contentsOf more := List.filterMap_append

theorem fragmentsOf_append (chunks more : List OpenAIChunk) :
    fragmentsOf (chunks ++ more) = fragmentsOf chunks ++ fragmentsOf more := List.flatMap_append

theorem handleChunks_append (s : StreamO2A) (chunks more : List OpenAIChunk) :
    s.handleChunks env (chunks ++ more)
      = (((s.handleChunks env chunks).1.handleChunks env more).1,
        (s.handleChunks env chunks).2
          ++ ((s.handleChunks env chunks).1.handleChunks env more).2) := by
  induction chunks generalizing s with
  | nil => rfl
  | cons chunk chunks ih =>
      rw [List.cons_append, handleChunks, handleChunks, ih]
      simp

theorem Carries.handleChunks (c : Carries env s events contents tools) {chunks : List OpenAIChunk}
    (continues : ∀ chunk ∈ chunks, chunk.Continues) :
    Carries env (s.handleChunks env chunks).1 (events ++ (s.handleChunks env chunks).2)
      (contents ++ contentsOf chunks) (tools ++ fragmentsOf chunks) := by
  induction chunks generalizing s events contents tools with
  | nil => simpa [StreamO2A.handleChunks, contentsOf, fragmentsOf] using c
  | cons chunk chunks ih =>
      have first := c.handleOpenaiChunk (continues chunk List.mem_cons_self)
      have rest := ih first fun chunk' mem => continues chunk' (List.mem_cons_of_mem _ mem)
      have parts : contentsOf (chunk :: chunks) = contentsOf [chunk] ++ contentsOf chunks :=
        contentsOf_append [chunk] chunks
      have parts' : fragmentsOf (chunk :: chunks) = fragmentsOf [chunk] ++ fragmentsOf chunks :=
        fragmentsOf_append [chunk] chunks
      rw [parts, parts', StreamO2A.handleChunks]
      simpa [List.append_assoc] using rest

/-- **What was given is what the blocks carry.** -/
structure Delivered (env : O2AEnv) (events : List AnthropicEvent) (contents : List String)
    (tools : List ToolDelta) : Prop where
  texts : textsOf events = contents
  /-- Every index has a tool block of its own, and there are no others. -/
  blocks : ∃ blockOf : Json → ℕ,
    (∀ tool ∈ tools, ∀ tool' ∈ tools, blockOf tool.key = blockOf tool'.key → tool.key = tool'.key)
      ∧ (∀ tool ∈ tools, HasBlock env events tools tool.key (blockOf tool.key))
      ∧ ∀ index id name, .toolUse id name ∈ startsAt index events →
          ∃ tool ∈ tools, blockOf tool.key = index

theorem Carries.delivered (c : Carries env s events contents tools) :
    Delivered env events contents tools where
  texts := c.texts
  blocks := by
    refine ⟨fun key => (s.toolIndexMap.get? key).getD 0, ?_, ?_, ?_⟩
    · intro tool mem tool' mem' same
      obtain ⟨index, known⟩ := c.mapped tool mem
      obtain ⟨index', known'⟩ := c.mapped tool' mem'
      simp only [known, known', Option.getD_some] at same
      subst same
      exact c.apart _ _ _ known known'
    · intro tool mem
      obtain ⟨index, known⟩ := c.mapped tool mem
      simp only [known, Option.getD_some]
      exact (c.block _ _ known).1
    · intro index id name mem
      obtain ⟨key, known⟩ := c.owned index id name mem
      obtain ⟨first, found, _⟩ := (c.block key index known).1.announced
      have key' : first.key = key := by simpa using List.find?_some found
      exact ⟨first, List.mem_of_find?_eq_some found, by simp [key', known]⟩

theorem Delivered.silent (d : Delivered env events contents tools) {more : List AnthropicEvent}
    (silent : Silent more) : Delivered env (events ++ more) contents tools where
  texts := by rw [textsOf_append, silent.1, d.texts, List.append_nil]
  blocks := by
    obtain ⟨blockOf, apart, blocks, owned⟩ := d.blocks
    refine ⟨blockOf, apart, fun tool mem => ?_, fun index id name mem => ?_⟩
    · obtain ⟨announced, filled⟩ := blocks tool mem
      refine ⟨?_, ?_⟩
      · rw [startsAt_append, (silent.2 _).1, List.append_nil]
        exact announced
      · rw [inputsAt_append, (silent.2 _).2, List.append_nil, filled]
    · rw [startsAt_append, (silent.2 _).1, List.append_nil] at mem
      exact owned index id name mem

theorem Carries.last (c : Carries env s events contents tools) (chunk : OpenAIChunk) :
    Delivered env (events ++ (s.handleOpenaiChunk env chunk).2) (contents ++ contentsOf [chunk])
      (tools ++ fragmentsOf [chunk]) := by
  by_cases failed : chunk.error = []
  case neg =>
    have nothing : contentsOf [chunk] = [] ∧ fragmentsOf [chunk] = [] := by
      simp [contentsOf, fragmentsOf, OpenAIChunk.used, failed]
    rw [nothing.1, nothing.2, List.append_nil, List.append_nil, StreamO2A.handleOpenaiChunk,
      if_pos failed]
    exact c.delivered.silent (silent_finishWithError _ _)
  have counted : Carries env (s.captureUsage chunk) events contents tools := by
    unfold captureUsage
    split
    · exact c.congr _ rfl rfl rfl
    · exact c
  unfold StreamO2A.handleOpenaiChunk
  rw [if_neg (not_not.mpr failed)]
  cases chosen : chunk.choice with
  | none => simpa [contentsOf, fragmentsOf, OpenAIChunk.used, chosen] using counted.delivered
  | some choice =>
      have carried := (counted.handleChoice chunk choice).delivered
      have given : contentsOf [chunk] = choice.content.toList := by
        cases content : choice.content <;>
          simp [contentsOf, OpenAIChunk.used, failed, chosen, content]
      have given' : fragmentsOf [chunk] = choice.toolCalls := by
        simp [fragmentsOf, OpenAIChunk.used, failed, chosen]
      have closing : ∀ s' : StreamO2A, Silent (s'.handleFinish env choice.finishReason).2 := by
        intro s'
        cases choice.finishReason with
        | none => exact ⟨rfl, fun _ => ⟨rfl, rfl⟩⟩
        | some reason => exact silent_finish s' (some reason)
      rw [given, given']
      have whole := carried.silent (closing (StreamO2A.handleToolCalls env
        (((s.captureUsage chunk).start env chunk).1.handleContent choice.content).1
          choice.toolCalls).1)
      simpa [StreamO2A.handleChoice, List.append_assoc] using whole

/-- **Up to the chunk that ends the message nothing is lost**: every content is a text of the
stream, and every tool index has one tool block with the id and the name of its first fragment and
all its arguments. -/
theorem chunks_carried (env : O2AEnv) (body : List OpenAIChunk) (last : OpenAIChunk)
    (continues : ∀ chunk ∈ body, chunk.Continues) :
    Delivered env (handleChunks env {} (body ++ [last])).2 (contentsOf (body ++ [last]))
      (fragmentsOf (body ++ [last])) := by
  have carried := ((carries_fresh env).handleChunks continues).last last
  rw [handleChunks_append, contentsOf_append, fragmentsOf_append]
  simpa [StreamO2A.handleChunks] using carried

/-- Two calls whose arguments alternate, with a text between them. -/
def interleaved : List OpenAIChunk :=
  [{ choice := some { content := some "Hm", toolCalls :=
      [⟨.int 0, some (.str "call_1"), .str "f", some (.str "\x7b")⟩] } },
    { choice := some { toolCalls := [⟨.int 1, none, .str "g", none⟩] } },
    { choice := some { content := some "so", toolCalls :=
      [⟨.int 0, none, .str "", some (.str "\x7d")⟩] } }]

theorem interleaved_carried :
    Delivered (letterEnv []) (handleChunks (letterEnv []) {}
        (interleaved ++ [{ choice := some { finishReason := some "tool_calls" } }])).2
      (contentsOf (interleaved ++ [{ choice := some { finishReason := some "tool_calls" } }]))
      (fragmentsOf (interleaved ++ [{ choice := some { finishReason := some "tool_calls" } }])) :=
  chunks_carried (letterEnv []) interleaved { choice := some { finishReason := some "tool_calls" } }
    (by simp [interleaved, OpenAIChunk.Continues])

/-- A chunk with an error and a text. -/
def errorWithContent : Json :=
  .obj [("error", .obj [("message", .str "boom")]),
    ("choices", .arr [.obj [("delta", .obj [("content", .str "Hi")])]])]

/-- The text is read, and not written. -/
theorem errorWithContent_dropped :
    ∃ chunk, OpenAIChunk.read (letterEnv []) false errorWithContent = some chunk
      ∧ chunk.choice.bind ChunkChoice.content = some "Hi"
      ∧ textsOf (handleChunks (letterEnv []) {} [chunk]).2 = [] :=
  ⟨{ error := [("message", .str "boom")], choice := some { content := some "Hi" } },
    by decide, by decide, by decide⟩

end StreamO2A

end Zhongzhuan.Protocol
