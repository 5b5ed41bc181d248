import Zhongzhuan.Responses.CompletionSignals

/-!
# The terminators of the tool calls

The three dialects of the adapter do the same five things: pass something on, track a call with
its chunk, close a call, finish, and note a usage.  A frame asks for a list of these `Move`s
(`frame_moves`), so what holds of the chunks of every stream follows from what each move keeps.

* `Ledger` relates the bookkeeping to the chunks yielded so far: a call that is open has its
  `tool_call` among them and no terminator, a closed one its only terminator, with a `tool_call`
  before it.
* `Settled` is a call that was tracked before the finish: its terminator comes, and before the
  finish if there is one.
* `terminators_of_stream` is the outcome for every sequence of frames.
-/

namespace Zhongzhuan.Responses

open Kit Protocol

/-! ## Moves -/

/-- What a frame can ask for. -/
inductive Move
  /-- A chunk that is neither a terminator nor the finish. -/
  | pass (c : Chunk)
  | track (index : ℤ) (callId name arguments nameSpace : String)
  | close (index : ℤ)
  | finish
  | note (norm : Fields)

namespace Adapter

/-- One move. -/
def move (a : Adapter) : Move → Adapter × List Chunk
  | .pass c => (a, [c])
  | .track index callId name arguments nameSpace =>
    (a.trackTool index callId, [.toolCall callId name arguments nameSpace (some index)])
  | .close index => a.closeTool index
  | .finish => a.finish
  | .note norm => (a.noteUsage norm, [])

/-- Some moves, one after the other. -/
def moves (a : Adapter) : List Move → Adapter × List Chunk
  | [] => (a, [])
  | m :: ms =>
    let first := a.move m
    let rest := first.1.moves ms
    (rest.1, first.2 ++ rest.2)

theorem moves_append (a : Adapter) (ms more : List Move) :
    a.moves (ms ++ more)
      = (((a.moves ms).1.moves more).1, (a.moves ms).2 ++ ((a.moves ms).1.moves more).2) := by
  induction ms generalizing a with
  | nil => rfl
  | cons m ms ih => simp only [List.cons_append, moves, ih, List.append_assoc]

end Adapter

/-- A chunk that is neither a terminator nor the finish. -/
def Chunk.isPlain : Chunk → Bool
  | .toolCallDone .. | .finish => false
  | _ => true

/-- A chunk is passed on only if it is plain. -/
def Move.Lawful : Move → Prop
  | .pass c => c.isPlain = true
  | _ => True

/-- The indexes that moves track before they finish. -/
def trackedFirst : List Move → List ℤ
  | [] => []
  | .finish :: _ => []
  | .track index .. :: ms => index :: trackedFirst ms
  | _ :: ms => trackedFirst ms

theorem trackedFirst_append {ms : List Move} (running : Move.finish ∉ ms) (more : List Move) :
    trackedFirst (ms ++ more) = trackedFirst ms ++ trackedFirst more := by
  induction ms with
  | nil => rfl
  | cons m ms ih =>
      have rest := ih fun mem => running (List.mem_cons_of_mem _ mem)
      cases m with
      | finish => exact absurd List.mem_cons_self running
      | track index => exact congrArg (index :: ·) rest
      | _ => exact rest

/-! ## The calls a frame announces -/

/-- The indexes of the entries of a `tool_calls` array. -/
def toolIndexes (env : AdapterEnv) (entries : List Json) : List ℤ :=
  entries.filterMap fun entry =>
    match entry with
    | .obj fields => (env.intOr (Fields.get fields "index")).toOption
    | _ => none

/-- The indexes of the tool-call deltas of some choices, up to the first that finishes. -/
def openaiAnnounced (env : AdapterEnv) : List Json → List ℤ
  | [] => []
  | .obj choice :: rest =>
    toolIndexes env (itemsOf ((fieldsOf (Fields.get choice "delta")).get "tool_calls"))
      ++ if ((Fields.get choice "finish_reason").getD .null).truthy then []
        else openaiAnnounced env rest
  | _ :: rest => openaiAnnounced env rest

/-- The index of a `tool_use` block that starts. -/
def anthropicAnnounced (env : AdapterEnv) (event : String) (payload : Fields) : List ℤ :=
  if event = "content_block_start" then
    match payload.get "content_block" with
    | some (.obj block) =>
      if Fields.get block "type" = some (.str "tool_use") then
        (env.intOr (payload.get "index")).toOption.toList
      else []
    | _ => []
  else []

/-- The index of a native argument delta. -/
def nativeAnnounced (env : AdapterEnv) (event : String) (payload : Fields) : List ℤ :=
  if env.strOr (orElse (payload.get "type") (some (.str event)))
      = "response.function_call_arguments.delta" then
    (env.intOr (payload.get "output_index")).toOption.toList
  else []

/-- The indexes of the tool-call deltas, the `tool_use` blocks and the native argument deltas of
a frame, as far as they come before its own finish. -/
def announced (env : AdapterEnv) (frame : SseFrame) : List ℤ :=
  if Adapter.isDoneSentinel frame then []
  else
    match env.loadsObject frame.data with
    | .ok (some payload) =>
      match env.dialect with
      | .anthropic => anthropicAnnounced env (Adapter.eventType frame) payload
      | .responses => nativeAnnounced env (Adapter.eventType frame) payload
      | .openai => openaiAnnounced env (itemsOf (payload.get "choices"))
    | _ => []

/-! ## A frame is a list of moves -/

theorem mem_trackedFirst_append {ms : List Move} {i : ℤ} (mem : i ∈ trackedFirst ms)
    (more : List Move) : i ∈ trackedFirst (ms ++ more) := by
  induction ms with
  | nil => exact absurd mem List.not_mem_nil
  | cons m ms ih =>
      cases m with
      | finish => exact absurd mem List.not_mem_nil
      | track index =>
          refine List.mem_cons.mpr ?_
          exact (List.mem_cons.mp mem).imp_right ih
      | _ => exact ih mem

section

variable {env : AdapterEnv} {a : Adapter} {done : Adapter × List Chunk}

/-- A result that moves bring about, which track these indexes before they finish; some do not
finish at all. -/
def Moved (goesOn : Prop) (a : Adapter) (done : Adapter × List Chunk) (indexes : List ℤ) : Prop :=
  ∃ ms, a.moves ms = done ∧ (∀ m ∈ ms, m.Lawful) ∧ (goesOn → Move.finish ∉ ms)
    ∧ ∀ i ∈ indexes, i ∈ trackedFirst ms

variable {goesOn : Prop} {indexes : List ℤ}

theorem Moved.none (a : Adapter) : Moved goesOn a (a, []) [] :=
  ⟨[], rfl, List.forall_mem_nil _, fun _ => List.not_mem_nil, List.forall_mem_nil _⟩

theorem Moved.one {m : Move} (lawful : m.Lawful) (going : goesOn → Move.finish ≠ m)
    (a : Adapter) : Moved goesOn a (a.move m) (trackedFirst [m]) := by
  refine ⟨[m], ?_, List.forall_mem_singleton.mpr lawful, ?_, fun _ mem => mem⟩
  · simp only [Adapter.moves, List.append_nil]
  · intro goes mem
    exact going goes (List.mem_singleton.mp mem)

theorem Moved.pass {cs : List Chunk} (plain : ∀ c ∈ cs, c.isPlain = true) (a : Adapter) :
    Moved goesOn a (a, cs) [] := by
  refine ⟨cs.map .pass, ?_, ?_, ?_, List.forall_mem_nil _⟩
  · clear plain
    induction cs with
    | nil => rfl
    | cons c cs ih =>
        simp only [List.map_cons, Adapter.moves, Adapter.move, ih, List.singleton_append]
  · intro m mem
    obtain ⟨c, inside, rfl⟩ := List.mem_map.mp mem
    exact plain c inside
  · intro _ mem
    obtain ⟨c, _, isFinish⟩ := List.mem_map.mp mem
    cases isFinish

theorem Moved.andThen {next : Adapter × List Chunk} {more : List ℤ}
    (first : Moved True a done indexes) (second : Moved goesOn done.1 next more) :
    Moved goesOn a (next.1, done.2 ++ next.2) (indexes ++ more) := by
  obtain ⟨ms, rfl, lawful, running, tracked⟩ := first
  obtain ⟨ms', rfl, lawful', going, tracked'⟩ := second
  have stays : Move.finish ∉ ms := running trivial
  refine ⟨ms ++ ms', Adapter.moves_append a ms ms', ?_, ?_, ?_⟩
  · exact List.forall_mem_append.mpr ⟨lawful, lawful'⟩
  · intro goes mem
    exact (List.mem_append.mp mem).elim stays (going goes)
  · rw [trackedFirst_append stays]
    intro i mem
    rcases List.mem_append.mp mem with left | right
    · exact List.mem_append_left _ (tracked i left)
    · exact List.mem_append_right _ (tracked' i right)

theorem Moved.andAfter {next : Adapter × List Chunk} {more : List ℤ}
    (first : Moved goesOn a done indexes) (second : Moved False done.1 next more) :
    Moved False a (next.1, done.2 ++ next.2) indexes := by
  obtain ⟨ms, rfl, lawful, -, tracked⟩ := first
  obtain ⟨ms', rfl, lawful', -, -⟩ := second
  refine ⟨ms ++ ms', Adapter.moves_append a ms ms', ?_, False.elim, ?_⟩
  · exact List.forall_mem_append.mpr ⟨lawful, lawful'⟩
  · intro i mem
    exact mem_trackedFirst_append (tracked i mem) ms'

theorem Moved.finish (a : Adapter) : Moved False a a.finish [] :=
  .one (m := .finish) trivial False.elim a

theorem Moved.close (a : Adapter) (index : ℤ) : Moved goesOn a (a.closeTool index) [] :=
  .one (m := .close index) trivial (fun _ => Move.noConfusion) a

theorem Moved.note (a : Adapter) (norm : Fields) : Moved goesOn a (a.noteUsage norm, []) [] :=
  .one (m := .note norm) trivial (fun _ => Move.noConfusion) a

theorem Moved.track (a : Adapter) (index : ℤ) (callId name arguments nameSpace : String) :
    Moved goesOn a (a.trackTool index callId,
      [.toolCall callId name arguments nameSpace (some index)]) [index] :=
  .one (m := .track index callId name arguments nameSpace) trivial
    (fun _ => Move.noConfusion) a

/-! ### Chat Completions -/

theorem openaiToolCalls_moved {entries : List Json}
    (read : a.openaiToolCalls env entries = .ok done) :
    Moved True a done (toolIndexes env entries) := by
  induction entries generalizing a done with
  | nil =>
      cases read
      exact .none a
  | cons entry rest ih =>
      cases entry with
      | obj entry =>
          obtain ⟨index, isIndex, read⟩ := bind_eq_ok read
          obtain ⟨more, isMore, read⟩ := bind_eq_ok read
          cases read
          have here : toolIndexes env (.obj entry :: rest) = [index] ++ toolIndexes env rest := by
            simp only [toolIndexes, List.filterMap_cons, isIndex, Except.toOption,
              List.singleton_append]
          rw [here]
          exact (Moved.track a index _ _ _ _).andThen (ih isMore)
      | _ => exact ih read

theorem openaiDelta_moved {delta : Fields} (read : a.openaiDelta env delta = .ok done) :
    Moved True a done (toolIndexes env (itemsOf (delta.get "tool_calls"))) := by
  obtain ⟨calls, isCalls, read⟩ := bind_eq_ok read
  cases read
  refine (Moved.pass ?_ a).andThen (openaiToolCalls_moved isCalls)
  intro c mem
  rcases List.mem_append.mp mem with text | reasoning
  · obtain ⟨_, _, rfl⟩ := List.mem_map.mp text
    rfl
  · obtain ⟨_, _, rfl⟩ := List.mem_map.mp reasoning
    rfl

theorem openaiChoices_moved {choices : List Json}
    (read : a.openaiChoices env choices = .ok done) :
    Moved False a done (openaiAnnounced env choices) := by
  induction choices generalizing a done with
  | nil =>
      cases read
      exact .none a
  | cons choice rest ih =>
      cases choice with
      | obj choice =>
          obtain ⟨delta, isDelta, read⟩ := bind_eq_ok read
          obtain ⟨more, isMore, read⟩ := bind_eq_ok read
          cases read
          have first := openaiDelta_moved isDelta
          unfold openaiAnnounced
          split
          case isTrue stops =>
            -- what the later choices track comes after the finish
            rw [if_pos stops] at isMore
            rw [List.append_assoc]
            exact first.andThen ((Moved.finish delta.1).andAfter (ih isMore))
          case isFalse goes =>
            rw [if_neg goes] at isMore
            rw [List.append_assoc]
            exact first.andThen (ih isMore)
      | _ => exact ih read

theorem openaiChunks_moved {payload : Fields} (read : a.openaiChunks env payload = .ok done) :
    Moved False a done (openaiAnnounced env (itemsOf (payload.get "choices"))) := by
  obtain ⟨choices, isChoices, read⟩ := bind_eq_ok read
  obtain ⟨norm, _, read⟩ := bind_eq_ok read
  cases read
  have both := (openaiChoices_moved isChoices).andAfter (Moved.note choices.1 norm)
  rwa [List.append_nil] at both

/-! ### Anthropic -/

theorem anthropicBlockStart_moved {payload : Fields}
    (read : a.anthropicBlockStart env payload = .ok done) :
    Moved False a done (anthropicAnnounced env "content_block_start" payload) := by
  unfold anthropicAnnounced
  rw [if_pos rfl]
  unfold Adapter.anthropicBlockStart at read
  cases isBlock : payload.get "content_block" with
  | none =>
    rw [isBlock] at read
    cases read
    exact .none a
  | some item =>
    rw [isBlock] at read
    cases item with
    | obj block =>
      dsimp only at read ⊢
      split at read
      case isTrue isTool =>
        obtain ⟨index, isIndex, read⟩ := bind_eq_ok read
        cases read
        simp only [isTool, if_true, isIndex, Except.toOption, Option.toList_some]
        exact .track a index _ _ _ _
      case isFalse noTool =>
        cases read
        simp only [noTool, if_false]
        exact .none a
    | _ =>
      cases read
      exact .none a

theorem anthropicBlockDelta_plain {payload : Fields} {chunks : List Chunk}
    (read : a.anthropicBlockDelta env payload = .ok chunks) : ∀ c ∈ chunks, c.isPlain = true := by
  unfold Adapter.anthropicBlockDelta at read
  split at read
  · dsimp only at read
    split at read
    · cases read
      split
      · exact List.forall_mem_nil _
      · exact List.forall_mem_singleton.mpr rfl
    · split at read
      · obtain ⟨index, _, read⟩ := bind_eq_ok read
        cases read
        exact List.forall_mem_singleton.mpr rfl
      · cases read
        exact List.forall_mem_nil _
  · cases read
    exact List.forall_mem_nil _

theorem anthropicAnnounced_other {event : String} (other : event ≠ "content_block_start")
    (payload : Fields) : anthropicAnnounced env event payload = [] :=
  if_neg other

theorem anthropicChunks_moved {event : String} {payload : Fields}
    (read : a.anthropicChunks env event payload = .ok done) :
    Moved False a done (anthropicAnnounced env event payload) := by
  unfold Adapter.anthropicChunks at read
  split at read
  case isTrue isStop =>
    cases read
    rw [isStop, anthropicAnnounced_other (by decide)]
    exact .finish a
  split at read
  case isTrue isDelta =>
    rw [isDelta, anthropicAnnounced_other (by decide)]
    have stopped : ∀ (norm : Fields) (stops : Bool),
        Moved False a (if stops then (a.noteUsage norm).finish else (a.noteUsage norm, [])) [] := by
      intro norm stops
      cases stops
      · exact .note a norm
      · exact (Moved.note a norm).andThen (.finish _)
    dsimp only at read
    split at read
    · obtain ⟨noted, isNoted, read⟩ := bind_eq_ok read
      cases read
      obtain ⟨norm, _, isNorm⟩ := bind_eq_ok isNoted
      cases isNorm
      exact stopped norm _
    · cases read
      exact stopped [] _
  split at read
  case isTrue isStart =>
    rw [isStart]
    exact anthropicBlockStart_moved read
  case isFalse noStart =>
    rw [anthropicAnnounced_other noStart]
    split at read
    · obtain ⟨chunks, isChunks, read⟩ := bind_eq_ok read
      cases read
      exact .pass (anthropicBlockDelta_plain isChunks) a
    · split at read
      · obtain ⟨index, _, read⟩ := bind_eq_ok read
        cases read
        exact .close a index
      · cases read
        exact .none a

/-! ### Native Responses -/

theorem nativeItem_plain {type : String} {payload : Fields} {chunks : List Chunk}
    (read : Adapter.nativeItem env type payload = .ok chunks) :
    ∀ c ∈ chunks, c.isPlain = true := by
  unfold Adapter.nativeItem at read
  split at read
  · split at read
    · cases read
      exact List.forall_mem_nil _
    · obtain ⟨index, _, read⟩ := bind_eq_ok read
      cases read
      exact List.forall_mem_singleton.mpr rfl
  · cases read
    exact List.forall_mem_nil _

theorem nativeChunks_moved {event : String} {payload : Fields}
    (read : a.nativeChunks env event payload = .ok done) :
    Moved False a done (nativeAnnounced env event payload) := by
  have delta : ∀ (text : String) (chunk : String → Chunk), (chunk text).isPlain = true →
      Moved False a (a, if text = "" then [] else [chunk text]) [] := by
    intro text chunk plain
    refine .pass ?_ a
    split
    · exact List.forall_mem_nil _
    · exact List.forall_mem_singleton.mpr plain
  unfold Adapter.nativeChunks at read
  unfold nativeAnnounced
  dsimp only at read
  generalize env.strOr (orElse (payload.get "type") (some (.str event))) = type at read ⊢
  by_cases isArguments : type = "response.function_call_arguments.delta"
  · subst isArguments
    obtain ⟨index, isIndex, read⟩ := bind_eq_ok read
    cases read
    simp only [if_true, isIndex, Except.toOption, Option.toList_some]
    exact .track a index _ _ _ _
  rw [if_neg isArguments]
  split at read
  · cases read
    exact delta _ Chunk.text rfl
  split at read
  · obtain ⟨chunks, isChunks, read⟩ := bind_eq_ok read
    cases read
    exact .pass (nativeItem_plain isChunks) a
  split at read
  · cases read
    exact delta _ Chunk.reasoning rfl
  split at read
  · obtain ⟨index, _, read⟩ := bind_eq_ok read
    cases read
    exact .close a index
  split at read
  · obtain ⟨noted, isNoted, read⟩ := bind_eq_ok read
    cases read
    obtain ⟨norm, _, isNorm⟩ := bind_eq_ok isNoted
    cases isNorm
    exact (Moved.note a norm).andThen (.finish _)
  · cases read
    exact .none a

theorem frame_moves {frame : SseFrame} (read : a.frameToChunks env frame = .ok done) :
    Moved False a done (announced env frame) := by
  unfold Adapter.frameToChunks at read
  unfold announced
  split at read
  case isTrue isDone =>
    cases read
    rw [if_pos isDone]
    exact .finish a
  case isFalse goes =>
    rw [if_neg goes]
    obtain ⟨payload, isPayload, read⟩ := bind_eq_ok read
    rw [isPayload]
    cases payload with
    | none =>
        cases read
        exact .none a
    | some payload =>
        dsimp only at read ⊢
        cases isDialect : env.dialect with
        | anthropic =>
            rw [isDialect] at read
            exact anthropicChunks_moved read
        | responses =>
            rw [isDialect] at read
            exact nativeChunks_moved read
        | openai =>
            rw [isDialect] at read
            exact openaiChunks_moved read

end

/-! ## The ledger of the calls -/

/-- The index a terminator is for. -/
def Chunk.terminated? : Chunk → Option (Option ℤ)
  | .toolCallDone _ _ index => some index
  | _ => none

/-- The index a fragment is for. -/
def Chunk.called? : Chunk → Option (Option ℤ)
  | .toolCall _ _ _ _ index => some index
  | _ => none

/-- The indexes of the terminators among some chunks. -/
def terminators (chunks : List Chunk) : List (Option ℤ) := chunks.filterMap Chunk.terminated?

/-- The indexes of the fragments among some chunks. -/
def fragments (chunks : List Chunk) : List (Option ℤ) := chunks.filterMap Chunk.called?

theorem terminators_append (chunks more : List Chunk) :
    terminators (chunks ++ more) = terminators chunks ++ terminators more :=
  List.filterMap_append

theorem fragments_append (chunks more : List Chunk) :
    fragments (chunks ++ more) = fragments chunks ++ fragments more :=
  List.filterMap_append

/-- A terminator comes after a fragment of its call. -/
def CalledFirst (chunks : List Chunk) : Prop :=
  ∀ pre c post index, chunks = pre ++ c :: post → c.terminated? = some index →
    index ∈ fragments pre

theorem CalledFirst.append {chunks more : List Chunk} (first : CalledFirst chunks)
    (called : ∀ c ∈ more, ∀ index, c.terminated? = some index → index ∈ fragments chunks) :
    CalledFirst (chunks ++ more) := by
  intro pre c post index split terminates
  rcases List.append_eq_append_iff.mp split with ⟨mid, isPre, isMore⟩ | ⟨mid, isChunks, isRest⟩
  · rw [isPre, fragments_append]
    have inside : c ∈ more := isMore ▸ List.mem_append_right _ List.mem_cons_self
    exact List.mem_append_left _ (called c inside index terminates)
  · cases mid with
    | nil =>
        rw [List.nil_append] at isRest
        rw [List.append_nil] at isChunks
        have inside : c ∈ more := isRest ▸ List.mem_cons_self
        rw [← isChunks]
        exact called c inside index terminates
    | cons b mid =>
        obtain ⟨rfl, -⟩ := List.cons_eq_cons.mp isRest
        exact first pre c mid index isChunks terminates

/-- What the bookkeeping says of the chunks yielded so far. -/
structure Ledger (a : Adapter) (chunks : List Chunk) : Prop where
  called_of_open : ∀ i, (a.openTools.get? i).isSome → some i ∈ fragments chunks
  open_or_closed : ∀ i, (a.openTools.get? i).isSome → i ∉ a.closedTools
  closed_iff : ∀ i, i ∈ a.closedTools ↔ some i ∈ terminators chunks
  once : (terminators chunks).Nodup
  calledFirst : CalledFirst chunks

namespace Ledger

variable {a : Adapter} {chunks : List Chunk}

theorem start : Ledger {} [] where
  called_of_open _ isOpen := by simp at isOpen
  open_or_closed _ _ := List.not_mem_nil
  closed_iff _ := iff_of_false List.not_mem_nil List.not_mem_nil
  once := List.nodup_nil
  calledFirst pre c post index split := by simp at split

theorem quiet (ledger : Ledger a chunks) {more : List Chunk} (silent : terminators more = [])
    {next : Adapter} (sameOpen : next.openTools = a.openTools)
    (sameClosed : next.closedTools = a.closedTools) : Ledger next (chunks ++ more) where
  called_of_open i isOpen := by
    rw [fragments_append]
    exact List.mem_append_left _ (ledger.called_of_open i (sameOpen ▸ isOpen))
  open_or_closed i isOpen := by
    rw [sameClosed]
    exact ledger.open_or_closed i (sameOpen ▸ isOpen)
  closed_iff i := by rw [sameClosed, terminators_append, silent, List.append_nil, ledger.closed_iff]
  once := by
    rw [terminators_append, silent, List.append_nil]
    exact ledger.once
  calledFirst := by
    refine ledger.calledFirst.append ?_
    intro c mem index terminates
    have inside : index ∈ terminators more := List.mem_filterMap.mpr ⟨c, mem, terminates⟩
    rw [silent] at inside
    exact absurd inside List.not_mem_nil

theorem track (ledger : Ledger a chunks) (index : ℤ) (callId name arguments nameSpace : String) :
    Ledger (a.trackTool index callId)
      (chunks ++ [.toolCall callId name arguments nameSpace (some index)]) := by
  have fragment : Ledger a (chunks ++ [.toolCall callId name arguments nameSpace (some index)]) :=
    ledger.quiet rfl rfl rfl
  unfold Adapter.trackTool
  split
  · exact fragment
  case isFalse notClosed =>
    refine { fragment with called_of_open := ?_, open_or_closed := ?_ }
    · intro i isOpen
      by_cases same : i = index
      · rw [fragments_append, same]
        exact List.mem_append_right _ List.mem_cons_self
      · rw [Dict.get?_set_of_ne _ _ same] at isOpen
        exact fragment.called_of_open i isOpen
    · intro i isOpen
      by_cases same : i = index
      · rw [same]
        exact notClosed
      · rw [Dict.get?_set_of_ne _ _ same] at isOpen
        exact fragment.open_or_closed i isOpen

theorem close (ledger : Ledger a chunks) (index : ℤ) :
    Ledger (a.closeTool index).1 (chunks ++ (a.closeTool index).2) := by
  unfold Adapter.closeTool
  split
  · exact ledger.quiet rfl rfl rfl
  case isFalse notClosed =>
    cases found : a.openTools.get? index with
    | none => exact ledger.quiet rfl rfl rfl
    | some callId =>
        have isOpen : (a.openTools.get? index).isSome := by rw [found, Option.isSome_some]
        have fresh : some index ∉ terminators chunks := mt (ledger.closed_iff index).mpr notClosed
        have onlyOther : ∀ i, ((a.openTools.erase index).get? i).isSome →
            i ≠ index ∧ (a.openTools.get? i).isSome := by
          intro i stillOpen
          by_cases same : i = index
          · rw [same, Dict.get?_erase_self] at stillOpen
            cases stillOpen
          · rw [Dict.get?_erase_of_ne _ same] at stillOpen
            exact ⟨same, stillOpen⟩
        constructor
        · intro i stillOpen
          rw [fragments_append]
          exact List.mem_append_left _ (ledger.called_of_open i (onlyOther i stillOpen).2)
        · intro i stillOpen
          obtain ⟨other, wasOpen⟩ := onlyOther i stillOpen
          simp only [List.mem_append, List.mem_singleton, not_or]
          exact ⟨ledger.open_or_closed i wasOpen, other⟩
        · intro i
          rw [terminators_append]
          simp only [List.mem_append, ledger.closed_iff, terminators, Chunk.terminated?,
            List.filterMap_cons, List.filterMap_nil, List.mem_singleton, Option.some.injEq]
        · rw [terminators_append]
          exact List.nodup_append.mpr ⟨ledger.once, List.nodup_singleton _,
            fun i mem j single => by
              rw [List.mem_singleton.mp single]
              exact ne_of_mem_of_not_mem mem fresh⟩
        · refine ledger.calledFirst.append ?_
          intro c mem i terminates
          rw [List.mem_singleton.mp mem] at terminates
          cases terminates
          exact ledger.called_of_open index isOpen

theorem closeTools (ledger : Ledger a chunks) (indexes : List ℤ) :
    Ledger (a.closeTools indexes).1 (chunks ++ (a.closeTools indexes).2) := by
  induction indexes generalizing a chunks with
  | nil => exact ledger.quiet rfl rfl rfl
  | cons index rest ih =>
      unfold Adapter.closeTools
      rw [← List.append_assoc]
      exact ih (ledger.close index)

end Ledger

/-! ## The finish -/

/-- The latch of the finish. -/
structure Latched (a : Adapter) (chunks : List Chunk) : Prop where
  finished_iff : a.finished = true ↔ Chunk.finish ∈ chunks
  once : chunks.count .finish ≤ 1

/-- A call that was tracked before the finish: while nothing has finished it is open or has its
terminator, and a finish comes after its terminator. -/
structure Settled (i : ℤ) (a : Adapter) (chunks : List Chunk) : Prop where
  running : a.finished = false → (a.openTools.get? i).isSome ∨ some i ∈ terminators chunks
  before : ∀ pre post, chunks = pre ++ .finish :: post → some i ∈ terminators pre

section

variable {a next : Adapter} {chunks more : List Chunk} {i : ℤ}

theorem Latched.quiet (latched : Latched a chunks) (same : next.finished = a.finished)
    (silent : Chunk.finish ∉ more) : Latched next (chunks ++ more) where
  finished_iff := by rw [same, latched.finished_iff, List.mem_append, or_iff_left silent]
  once := by
    rw [List.count_append, List.count_eq_zero_of_not_mem silent, Nat.add_zero]
    exact latched.once

theorem Settled.quiet (settled : Settled i a chunks) (silent : Chunk.finish ∉ more)
    (running : next.finished = false →
      (next.openTools.get? i).isSome ∨ some i ∈ terminators (chunks ++ more)) :
    Settled i next (chunks ++ more) where
  running := running
  before pre post split := by
    rcases List.append_eq_append_iff.mp split with ⟨mid, -, isMore⟩ | ⟨mid, isChunks, isRest⟩
    · exact absurd (isMore ▸ List.mem_append_right _ List.mem_cons_self) silent
    · cases mid with
      | nil =>
          rw [List.nil_append] at isRest
          exact absurd (isRest ▸ List.mem_cons_self) silent
      | cons b mid =>
          obtain ⟨rfl, -⟩ := List.cons_eq_cons.mp isRest
          exact settled.before pre mid isChunks

theorem Settled.kept (mem : some i ∈ terminators chunks) (more : List Chunk) :
    some i ∈ terminators (chunks ++ more) := by
  rw [terminators_append]
  exact List.mem_append_left _ mem

theorem closeTools_silent (a : Adapter) (indexes : List ℤ) :
    Chunk.finish ∉ (a.closeTools indexes).2 := by
  intro mem
  obtain ⟨_, _, isDone⟩ := closeTools_kinds a indexes _ mem
  cases isDone

theorem closeTool_silent (a : Adapter) (index : ℤ) : Chunk.finish ∉ (a.closeTool index).2 :=
  fun mem => closeTools_silent a [index] (List.mem_append_left _ mem)

theorem closeTool_settles (ledger : Ledger a chunks) (index : ℤ)
    (settled : (a.openTools.get? i).isSome ∨ some i ∈ terminators chunks) :
    some i ∈ terminators (chunks ++ (a.closeTool index).2)
      ∨ i ≠ index ∧ ((a.closeTool index).1.openTools.get? i).isSome := by
  rcases settled with isOpen | closed
  · unfold Adapter.closeTool
    split
    case isTrue wasClosed =>
      refine .inr ⟨?_, isOpen⟩
      rintro rfl
      exact ledger.open_or_closed i isOpen wasClosed
    case isFalse =>
      by_cases same : i = index
      · subst same
        obtain ⟨callId, found⟩ := Option.isSome_iff_exists.mp isOpen
        rw [found, terminators_append]
        exact .inl (List.mem_append_right _ List.mem_cons_self)
      · refine .inr ⟨same, ?_⟩
        split
        · exact isOpen
        · change ((a.openTools.erase index).get? i).isSome = true
          rw [Dict.get?_erase_of_ne _ same]
          exact isOpen
  · exact .inl (Settled.kept closed _)

theorem closeTools_settles (ledger : Ledger a chunks) {indexes : List ℤ}
    (settled : (a.openTools.get? i).isSome ∧ i ∈ indexes ∨ some i ∈ terminators chunks) :
    some i ∈ terminators (chunks ++ (a.closeTools indexes).2) := by
  induction indexes generalizing a chunks with
  | nil =>
      refine Settled.kept (settled.resolve_left ?_) _
      exact fun both => List.not_mem_nil both.2
  | cons index rest ih =>
      unfold Adapter.closeTools
      rw [← List.append_assoc]
      refine ih (ledger.close index) ?_
      rcases closeTool_settles ledger index (settled.imp_left And.left) with closed | ⟨other, stays⟩
      · exact .inr closed
      · rcases settled with ⟨-, inside⟩ | closed
        · exact .inl ⟨stays, (List.mem_cons.mp inside).resolve_left other⟩
        · exact .inr (Settled.kept closed _)

end

/-! ## What a move keeps -/

namespace Adapter

theorem finish_of_finished {a : Adapter} (finished : a.finished = true) : a.finish = (a, []) :=
  if_pos finished

theorem finish_of_running {a : Adapter} (running : a.finished = false) :
    a.finish
      = (({ a with finished := true }.closeTools a.openTools.keys).1,
        ({ a with finished := true }.closeTools a.openTools.keys).2 ++ [.finish]) := by
  unfold finish
  rw [running]
  rfl

theorem move_finished (a : Adapter) {m : Move} (other : m ≠ .finish) :
    (a.move m).1.finished = a.finished := by
  cases m with
  | pass c => rfl
  | track index callId => exact trackTool_finished index callId
  | close index => exact closeTool_finished index
  | finish => exact absurd rfl other
  | note norm =>
      obtain ⟨usage, noted⟩ := a.exists_noteUsage norm
      change (a.noteUsage norm).finished = a.finished
      rw [noted]

theorem move_silent (a : Adapter) {m : Move} (lawful : m.Lawful) (other : m ≠ .finish) :
    Chunk.finish ∉ (a.move m).2 := by
  cases m with
  | pass c =>
      intro mem
      have plain : c.isPlain = true := lawful
      rw [← List.mem_singleton.mp mem] at plain
      cases plain
  | track index callId name arguments nameSpace =>
      intro mem
      cases List.mem_singleton.mp mem
  | close index => exact closeTool_silent a index
  | finish => exact absurd rfl other
  | note norm => exact List.not_mem_nil

end Adapter

section

variable {a : Adapter} {chunks : List Chunk} {m : Move} {i : ℤ}

theorem Ledger.finish (ledger : Ledger a chunks) :
    Ledger a.finish.1 (chunks ++ a.finish.2) := by
  cases finished : a.finished with
  | true =>
      rw [Adapter.finish_of_finished finished]
      exact ledger.quiet rfl rfl rfl
  | false =>
      rw [Adapter.finish_of_running finished, ← List.append_assoc]
      have latched : Ledger { a with finished := true } chunks :=
        { ledger with }
      exact (latched.closeTools a.openTools.keys).quiet rfl rfl rfl

theorem Ledger.move (ledger : Ledger a chunks) (lawful : m.Lawful) :
    Ledger (a.move m).1 (chunks ++ (a.move m).2) := by
  cases m with
  | pass c =>
      refine ledger.quiet ?_ rfl rfl
      have plain : c.isPlain = true := lawful
      cases c with
      | toolCallDone callId arguments index => cases plain
      | _ => rfl
  | track index callId name arguments nameSpace =>
      exact ledger.track index callId name arguments nameSpace
  | close index => exact ledger.close index
  | finish => exact ledger.finish
  | note norm =>
      obtain ⟨usage, noted⟩ := a.exists_noteUsage norm
      change Ledger (a.noteUsage norm) (chunks ++ [])
      rw [noted]
      exact ledger.quiet rfl rfl rfl

theorem Latched.finish (latched : Latched a chunks) :
    Latched a.finish.1 (chunks ++ a.finish.2) := by
  cases finished : a.finished with
  | true =>
      rw [Adapter.finish_of_finished finished]
      exact latched.quiet rfl List.not_mem_nil
  | false =>
      have silent : Chunk.finish ∉ chunks := by
        rw [← latched.finished_iff, finished]
        exact Bool.false_ne_true
      have silentTools := closeTools_silent { a with finished := true } a.openTools.keys
      rw [Adapter.finish_of_running finished]
      constructor
      · refine iff_of_true (closeTools_finished _ _) ?_
        exact List.mem_append_right _ (List.mem_append_right _ List.mem_cons_self)
      · rw [List.count_append, List.count_append, List.count_eq_zero_of_not_mem silent,
          List.count_eq_zero_of_not_mem silentTools]
        exact le_refl 1

theorem Latched.move (latched : Latched a chunks) (lawful : m.Lawful) :
    Latched (a.move m).1 (chunks ++ (a.move m).2) := by
  by_cases isFinish : m = .finish
  · subst isFinish
    exact latched.finish
  · exact latched.quiet (a.move_finished isFinish) (a.move_silent lawful isFinish)

theorem Settled.finish (ledger : Ledger a chunks) (latched : Latched a chunks)
    (settled : Settled i a chunks) : Settled i a.finish.1 (chunks ++ a.finish.2) := by
  cases finished : a.finished with
  | true =>
      rw [Adapter.finish_of_finished finished, List.append_nil]
      exact settled
  | false =>
      have silent : Chunk.finish ∉ chunks := by
        rw [← latched.finished_iff, finished]
        exact Bool.false_ne_true
      have silentTools := closeTools_silent { a with finished := true } a.openTools.keys
      have marked : Ledger { a with finished := true } chunks := { ledger with }
      have terminated : some i ∈ terminators
          (chunks ++ ({ a with finished := true }.closeTools a.openTools.keys).2) := by
        refine closeTools_settles marked ?_
        exact (settled.running finished).imp_left fun isOpen => ⟨isOpen, Dict.mem_keys.mpr isOpen⟩
      rw [Adapter.finish_of_running finished, ← List.append_assoc]
      constructor
      · intro running
        exact .inr (Settled.kept terminated _)
      · intro pre post split
        have runs : Chunk.finish
            ∉ chunks ++ ({ a with finished := true }.closeTools a.openTools.keys).2 := by
          rw [List.mem_append, not_or]
          exact ⟨silent, silentTools⟩
        -- what comes before the only finish is all that was yielded
        rcases List.append_eq_append_iff.mp split with ⟨mid, isPre, -⟩ | ⟨mid, isAll, isRest⟩
        · rw [isPre]
          exact Settled.kept terminated mid
        · cases mid with
          | nil =>
              rw [List.append_nil] at isAll
              rwa [← isAll]
          | cons b mid =>
              obtain ⟨rfl, -⟩ := List.cons_eq_cons.mp isRest
              refine absurd ?_ runs
              rw [isAll]
              exact List.mem_append_right _ List.mem_cons_self

theorem Settled.move (ledger : Ledger a chunks) (latched : Latched a chunks)
    (settled : Settled i a chunks) (lawful : m.Lawful) :
    Settled i (a.move m).1 (chunks ++ (a.move m).2) := by
  by_cases isFinish : m = .finish
  · subst isFinish
    exact Settled.finish ledger latched settled
  refine settled.quiet (a.move_silent lawful isFinish) ?_
  intro running
  rw [a.move_finished isFinish] at running
  have before := settled.running running
  cases m with
  | pass c => exact before.imp_right fun mem => Settled.kept mem _
  | track index callId name arguments nameSpace =>
      refine before.imp ?_ fun mem => Settled.kept mem _
      intro isOpen
      change ((a.trackTool index callId).openTools.get? i).isSome
      unfold Adapter.trackTool
      split
      · exact isOpen
      · rw [Dict.get?_set]
        split
        · rfl
        · exact isOpen
  | close index =>
      rcases closeTool_settles ledger index before with closed | ⟨-, stays⟩
      · exact .inr closed
      · exact .inl stays
  | finish => exact absurd rfl isFinish
  | note norm =>
      obtain ⟨usage, noted⟩ := a.exists_noteUsage norm
      change ((a.noteUsage norm).openTools.get? i).isSome ∨ some i ∈ terminators (chunks ++ [])
      rw [noted, List.append_nil]
      exact before

theorem Settled.of_track (ledger : Ledger a chunks) (latched : Latched a chunks)
    (running : a.finished = false) (callId name arguments nameSpace : String) :
    Settled i (a.trackTool i callId)
      (chunks ++ [.toolCall callId name arguments nameSpace (some i)]) := by
  constructor
  · intro _
    unfold Adapter.trackTool
    split
    case isTrue closed => exact .inr (Settled.kept ((ledger.closed_iff i).mp closed) _)
    case isFalse =>
      refine .inl ?_
      rw [Dict.get?_set_self]
      rfl
  · intro pre post split
    have inside : Chunk.finish ∈ chunks ++ [.toolCall callId name arguments nameSpace (some i)] :=
      split ▸ List.mem_append_right _ List.mem_cons_self
    rcases List.mem_append.mp inside with before | now
    · rw [← latched.finished_iff, running] at before
      cases before
    · cases List.mem_singleton.mp now

/-! ## What a stream keeps -/

theorem moves_kept {ms : List Move} (lawful : ∀ m ∈ ms, m.Lawful) (ledger : Ledger a chunks)
    (latched : Latched a chunks) :
    Ledger (a.moves ms).1 (chunks ++ (a.moves ms).2)
      ∧ Latched (a.moves ms).1 (chunks ++ (a.moves ms).2) := by
  induction ms generalizing a chunks with
  | nil =>
      rw [Adapter.moves, List.append_nil]
      exact ⟨ledger, latched⟩
  | cons m ms ih =>
      obtain ⟨here, rest⟩ := List.forall_mem_cons.mp lawful
      rw [Adapter.moves, ← List.append_assoc]
      exact ih rest (ledger.move here) (latched.move here)

theorem moves_settled {ms : List Move} (lawful : ∀ m ∈ ms, m.Lawful) (ledger : Ledger a chunks)
    (latched : Latched a chunks) (settled : Settled i a chunks) :
    Settled i (a.moves ms).1 (chunks ++ (a.moves ms).2) := by
  induction ms generalizing a chunks with
  | nil =>
      rw [Adapter.moves, List.append_nil]
      exact settled
  | cons m ms ih =>
      obtain ⟨here, rest⟩ := List.forall_mem_cons.mp lawful
      rw [Adapter.moves, ← List.append_assoc]
      exact ih rest (ledger.move here) (latched.move here)
        (Settled.move ledger latched settled here)

theorem settled_of_tracked {ms : List Move} (lawful : ∀ m ∈ ms, m.Lawful)
    (ledger : Ledger a chunks) (latched : Latched a chunks) (running : a.finished = false)
    (tracked : i ∈ trackedFirst ms) : Settled i (a.moves ms).1 (chunks ++ (a.moves ms).2) := by
  induction ms generalizing a chunks with
  | nil => exact absurd tracked List.not_mem_nil
  | cons m ms ih =>
      obtain ⟨here, rest⟩ := List.forall_mem_cons.mp lawful
      rw [Adapter.moves, ← List.append_assoc]
      have later : m ≠ .finish → i ∈ trackedFirst ms →
          Settled i ((a.move m).1.moves ms).1
            (chunks ++ (a.move m).2 ++ ((a.move m).1.moves ms).2) := by
        intro goes inside
        exact ih rest (ledger.move here) (latched.move here)
          ((a.move_finished goes).trans running) inside
      cases m with
      | finish => exact absurd tracked List.not_mem_nil
      | track index callId name arguments nameSpace =>
          rcases List.mem_cons.mp tracked with rfl | inside
          · exact moves_settled rest (ledger.move here) (latched.move here)
              (Settled.of_track ledger latched running callId name arguments nameSpace)
          · exact later Move.noConfusion inside
      | pass c => exact later Move.noConfusion tracked
      | close index => exact later Move.noConfusion tracked
      | note norm => exact later Move.noConfusion tracked

end

namespace Adapting

/-- The bookkeeping agrees with what has been yielded. -/
def Agrees (g : Adapting) : Prop :=
  Ledger g.adapter g.yielded ∧ Latched g.adapter g.yielded

variable {env : AdapterEnv} {g : Adapting}

theorem Agrees.frame (agrees : g.Agrees) (frame : SseFrame) : (g.frame env frame).Agrees := by
  unfold Adapting.frame
  split
  · exact agrees
  · split
    · exact agrees
    case h_2 done read =>
      obtain ⟨ms, rfl, lawful, -⟩ := frame_moves read
      exact moves_kept lawful agrees.1 agrees.2

theorem Agrees.run (agrees : g.Agrees) (frames : List SseFrame) :
    (runSchedule (Adapting.frame env) g frames).Agrees :=
  runSchedule_invariant Agrees (fun _ frame kept => kept.frame frame) agrees frames

theorem Agrees.announce (agrees : g.Agrees) (running : Chunk.finish ∉ g.yielded)
    {frame : SseFrame} {i : ℤ} (here : i ∈ announced env frame) :
    ((g.frame env frame).broken = true ∧ (g.frame env frame).yielded = g.yielded)
      ∨ Settled i (g.frame env frame).adapter (g.frame env frame).yielded := by
  have notFinished : g.adapter.finished = false := by
    rw [← agrees.2.finished_iff] at running
    exact Bool.eq_false_of_not_eq_true running
  unfold Adapting.frame
  split
  case isTrue broken => exact .inl ⟨broken, rfl⟩
  case isFalse =>
    split
    · exact .inl ⟨rfl, rfl⟩
    case h_2 done read =>
      obtain ⟨ms, rfl, lawful, -, tracked⟩ := frame_moves read
      exact .inr (settled_of_tracked lawful agrees.1 agrees.2 notFinished (tracked i here))

theorem Agrees.stays_settled (agrees : g.Agrees) {i : ℤ} (settled : Settled i g.adapter g.yielded)
    (frames : List SseFrame) :
    Settled i (runSchedule (Adapting.frame env) g frames).adapter
      (runSchedule (Adapting.frame env) g frames).yielded := by
  refine (runSchedule_invariant
    (fun g : Adapting => g.Agrees ∧ Settled i g.adapter g.yielded) ?_
    ⟨agrees, settled⟩ frames).2
  rintro g frame ⟨agrees, settled⟩
  refine ⟨agrees.frame frame, ?_⟩
  unfold Adapting.frame
  split
  · exact settled
  · split
    · exact settled
    case h_2 done read =>
      obtain ⟨ms, rfl, lawful, -⟩ := frame_moves read
      exact moves_settled lawful agrees.1 agrees.2 settled

end Adapting

/-- **The terminators of the tool calls.**  For every sequence of frames in every dialect, with
`chunks` what the adapter yields: there is one finish at most and one terminator at most for an
index; a call that is announced by a frame before the finish has its terminator before it; and a
terminator comes after a fragment of its call. -/
theorem terminators_of_stream (env : AdapterEnv) (frames : List SseFrame) :
    (adaptFrames env frames).yielded.count .finish ≤ 1
      ∧ (terminators (adaptFrames env frames).yielded).Nodup
      ∧ (∀ before frame after, frames = before ++ frame :: after →
          Chunk.finish ∉ (adaptFrames env before).yielded →
          ∀ i ∈ announced env frame, ∀ pre post,
            (adaptFrames env frames).yielded = pre ++ .finish :: post → some i ∈ terminators pre)
      ∧ CalledFirst (adaptFrames env frames).yielded := by
  have start : Adapting.Agrees {} :=
    ⟨.start, iff_of_false Bool.false_ne_true List.not_mem_nil, Nat.zero_le 1⟩
  have kept : ∀ frames, (adaptFrames env frames).Agrees := fun frames => start.run frames
  obtain ⟨ledger, latched⟩ := kept frames
  refine ⟨latched.once, ledger.once, ?_, ledger.calledFirst⟩
  rintro before frame after rfl running i here pre post split
  have whole : adaptFrames env (before ++ frame :: after)
      = runSchedule (Adapting.frame env) ((adaptFrames env before).frame env frame) after :=
    runSchedule_append _ _ before (frame :: after)
  rw [whole] at split
  rcases (kept before).announce running here with ⟨broken, same⟩ | settled
  · -- a frame that raises is the last: no finish follows
    rw [runSchedule_frame_of_broken broken, same] at split
    exact absurd (split ▸ List.mem_append_right _ List.mem_cons_self) running
  · exact (((kept before).frame frame).stays_settled settled after).before pre post split

/-- A chat frame with a fragment of one call, and the sentinel. -/
def callThenDone : List SseFrame :=
  ["\x7b\"choices\":[\x7b\"delta\":\x7b\"tool_calls\":["
      ++ "\x7b\"index\":0,\"id\":\"call_1\"\x7d]\x7d\x7d]\x7d",
    "[DONE]"].map fun data => ⟨none, data, none, none, []⟩

/-- The chat upstream that sends them. -/
def chatUpstream : AdapterEnv where
  dialect := .openai
  loads := fun text =>
    if some text = callThenDone.head?.map SseFrame.data then
      .value (.obj [("choices", .arr [.obj [("delta", .obj [("tool_calls",
        .arr [.obj [("index", .int 0), ("id", .str "call_1")]])])]])])
    else .rejected
  intOfText := fun _ => none
  intOfFloat := fun _ => .ok none
  strOf := fun v => dumps v

/-- The finish comes after the terminator of the call. -/
theorem callThenDone_terminated :
    some 0 ∈ terminators
      [.toolCall "call_1" "" "" "" (some 0), .toolCallDone "call_1" "" (some 0)] :=
  (terminators_of_stream chatUpstream callThenDone).2.2.1 [] (callThenDone.get ⟨0, by decide⟩)
    (callThenDone.drop 1) rfl List.not_mem_nil 0 (by decide +kernel) _ [] (by decide +kernel)

end Zhongzhuan.Responses
