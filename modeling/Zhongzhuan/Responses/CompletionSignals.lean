import Zhongzhuan.Responses.ChatSignals

/-!
# How an upstream says that it is done

A byte stream is, for the adapter, the list of its complete frames: `framesOf` is what the
parser makes of it and `iterChunks_eq` says that nothing else matters.

Among the frames some end the stream.  `isCompletion` are the positive signals of the three
dialects, `isFailure` the two terminal events by which a native upstream reports that it did
not complete.  The adapter makes one `finish` chunk of either (`finish_mem_iff`).
-/

namespace Zhongzhuan.Responses

open Kit Protocol

/-! ## The frames of a byte stream -/

/-- The frames the parser returns for the byte strings, and the parser they leave; `none` when
it raised. -/
def parseFrames (parser : Sse.Parser) : List Bytes → List SseFrame × Option Sse.Parser
  | [] => ([], some parser)
  | raw :: rest =>
    if raw = [] then parseFrames parser rest
    else
      let fed := parser.feed adapterParser raw
      match fed.result with
      | .error _ => ([], none)
      | .ok frames =>
        let more := parseFrames fed.parser rest
        (frames ++ more.1, more.2)

/-- The frames of a byte stream, and whether the parser raised after them. -/
def framesOf (stream : List Bytes) : List SseFrame × Bool :=
  match parseFrames .fresh stream with
  | (frames, none) => (frames, true)
  | (frames, some parser) =>
    match (parser.flush adapterParser).result with
    | .error _ => (frames, true)
    | .ok last => (frames ++ last, false)

/-- The adapter over a list of frames. -/
def adaptFrames (env : AdapterEnv) (frames : List SseFrame) : Adapting :=
  runSchedule (Adapting.frame env) {} frames

/-- The generator after the parser raised, if it did. -/
def Adapting.cut (g : Adapting) (raised : Bool) : Adapting :=
  { g with broken := g.broken || raised }

variable {env : AdapterEnv}

theorem runSchedule_frame_of_broken {g : Adapting} (broken : g.broken = true)
    (frames : List SseFrame) : runSchedule (Adapting.frame env) g frames = g := by
  induction frames with
  | nil => rfl
  | cons frame rest ih =>
      have still : g.frame env frame = g := if_pos broken
      rw [runSchedule_cons, still, ih]

theorem feedAll_of_broken {g : Adapting} (broken : g.broken = true) (parser : Sse.Parser)
    (stream : List Bytes) : (feedAll env parser g stream).2 = g := by
  induction stream with
  | nil => rfl
  | cons raw rest ih =>
      rw [feedAll, if_pos (.inr broken)]
      exact ih

theorem Adapting.cut_false (g : Adapting) : g.cut false = g := by
  unfold cut
  rw [Bool.or_false]

theorem Adapting.cut_true (g : Adapting) : g.cut true = { g with broken := true } := by
  unfold cut
  rw [Bool.or_true]

theorem Adapting.cut_of_broken {g : Adapting} (broken : g.broken = true) (raised : Bool) :
    g.cut raised = g := by
  unfold cut
  rw [broken, Bool.true_or, ← broken]

/-- Over the byte strings the adapter does what it does over their frames, and the parser
moves on unless one of the two has raised. -/
theorem feedAll_eq (parser : Sse.Parser) (g : Adapting) (stream : List Bytes) :
    (feedAll env parser g stream).2
        = (runSchedule (Adapting.frame env) g (parseFrames parser stream).1).cut
            (parseFrames parser stream).2.isNone
      ∧ ((feedAll env parser g stream).2.broken = false →
          (parseFrames parser stream).2 = some (feedAll env parser g stream).1) := by
  induction stream generalizing parser g with
  | nil => exact ⟨(Adapting.cut_false g).symm, fun _ => rfl⟩
  | cons raw rest ih =>
      cases broken : g.broken with
      | true =>
          rw [feedAll_of_broken broken, runSchedule_frame_of_broken broken]
          refine ⟨?_, fun going => ?_⟩
          · exact (Adapting.cut_of_broken broken _).symm
          · rw [broken] at going
            cases going
      | false =>
          by_cases empty : raw = []
          · simp only [feedAll, parseFrames, empty, true_or, if_true]
            exact ih parser g
          · simp only [feedAll, parseFrames, empty, broken, Bool.false_eq_true, or_self,
              if_false]
            cases (parser.feed adapterParser raw).result with
            | error e =>
                have ended : (g.frames env (.error e)).broken = true := rfl
                rw [feedAll_of_broken ended]
                exact ⟨(Adapting.cut_true g).symm, fun going => absurd going (by simp [ended])⟩
            | ok frames =>
                have next := ih (parser.feed adapterParser raw).parser
                  (g.frames env (.ok frames))
                rw [runSchedule_append]
                exact next

theorem iterChunks_eq (env : AdapterEnv) (stream : List Bytes) :
    iterChunks env stream = (adaptFrames env (framesOf stream).1).cut (framesOf stream).2 := by
  obtain ⟨fed, parser⟩ := @feedAll_eq env .fresh {} stream
  unfold iterChunks framesOf adaptFrames
  dsimp only
  cases going : (feedAll env .fresh {} stream).2.broken with
  | true =>
      rw [if_pos rfl]
      cases rest : parseFrames .fresh stream with
      | mk frames left =>
          rw [rest] at fed
          cases left with
          | none => exact fed
          | some left =>
              have whole : (feedAll env .fresh {} stream).2
                  = runSchedule (Adapting.frame env) {} frames :=
                fed.trans (Adapting.cut_false _)
              have broken : (runSchedule (Adapting.frame env) {} frames).broken = true :=
                whole ▸ going
              dsimp only
              split
              · rw [whole, Adapting.cut_of_broken broken]
              · rw [whole, runSchedule_append, runSchedule_frame_of_broken broken,
                  Adapting.cut_false]
  | false =>
      have left := parser going
      rw [if_neg (by simp)]
      cases rest : parseFrames .fresh stream with
      | mk frames found =>
          rw [rest] at fed left
          cases left
          have whole : (feedAll env .fresh {} stream).2
              = runSchedule (Adapting.frame env) {} frames :=
            fed.trans (Adapting.cut_false _)
          dsimp only
          cases ((feedAll env .fresh {} stream).1.flush adapterParser).result with
          | error e =>
              rw [whole]
              exact (Adapting.cut_true _).symm
          | ok last =>
              rw [whole]
              dsimp only
              rw [runSchedule_append, Adapting.cut_false]
              rfl

/-! ## Signals of the end -/

/-- The type of a native event. -/
def nativeType (env : AdapterEnv) (event : String) (payload : Fields) : String :=
  env.strOr (orElse (payload.get "type") (some (.str event)))

/-- A choice with a `finish_reason`. -/
def choiceStops : Json → Bool
  | .obj choice => ((Fields.get choice "finish_reason").getD .null).truthy
  | _ => false

/-- A payload that says in its dialect that the answer is complete. -/
def payloadCompletes (env : AdapterEnv) (event : String) (payload : Fields) : Bool :=
  match env.dialect with
  | .openai => (itemsOf (payload.get "choices")).any choiceStops
  | .anthropic =>
    event = "message_stop" || event = "message_delta"
      && (((fieldsOf (payload.get "delta")).get "stop_reason").getD .null).truthy
  | .responses => nativeType env event payload = "response.completed"

/-- A native payload that says that the answer is not complete. -/
def payloadFails (env : AdapterEnv) (event : String) (payload : Fields) : Bool :=
  env.dialect = .responses
    && (nativeType env event payload = "response.failed"
      || nativeType env event payload = "response.incomplete")

/-- The payload of a frame. -/
def payloadOf (env : AdapterEnv) (frame : SseFrame) : Option Fields :=
  match env.loadsObject frame.data with
  | .ok payload => payload
  | .error _ => none

/-- A positive completion signal. -/
def isCompletion (env : AdapterEnv) (frame : SseFrame) : Bool :=
  Adapter.isDoneSentinel frame
    || (payloadOf env frame).any (payloadCompletes env (Adapter.eventType frame))

/-- A terminal event `response.failed` or `response.incomplete`. -/
def isFailure (env : AdapterEnv) (frame : SseFrame) : Bool :=
  !Adapter.isDoneSentinel frame
    && (payloadOf env frame).any (payloadFails env (Adapter.eventType frame))

/-- What a translation does about the end: it marks the adapter finished when it has to, and
yields the `finish` chunk the first time. -/
structure Ends (a : Adapter) (stops : Bool) (done : Adapter × List Chunk) : Prop where
  finished : done.1.finished = (a.finished || stops)
  chunk : Chunk.finish ∈ done.2 ↔ a.finished = false ∧ stops = true

variable {a : Adapter}

theorem Ends.quiet {done : Adapter × List Chunk} (finished : done.1.finished = a.finished)
    (chunks : Chunk.finish ∉ done.2) : Ends a false done where
  finished := by rw [finished, Bool.or_false]
  chunk := by simp [chunks]

theorem Ends.finish (a : Adapter) : Ends a true a.finish := by
  unfold Adapter.finish
  cases finished : a.finished with
  | true => exact ⟨by simp [finished], by simp [finished]⟩
  | false =>
      refine ⟨?_, by simp [finished]⟩
      rw [finished]
      exact closeTools_finished { a with finished := true } _

theorem trackTool_finished (index : ℤ) (callId : String) :
    (a.trackTool index callId).finished = a.finished := by
  unfold Adapter.trackTool
  split <;> rfl

theorem closeTool_finished (index : ℤ) : (a.closeTool index).1.finished = a.finished := by
  unfold Adapter.closeTool
  split
  · rfl
  · split <;> rfl

theorem Ends.closeTool (a : Adapter) (index : ℤ) : Ends a false (a.closeTool index) := by
  refine .quiet (closeTool_finished index) fun mem => ?_
  unfold Adapter.closeTool at mem
  split at mem
  · cases mem
  · split at mem <;> simp at mem

theorem accept_ends (a : Adapter) (signal : Signal) :
    Ends a (signal = .stop) (a.accept signal) := by
  cases signal with
  | text delta => exact .quiet rfl (by simp [Adapter.accept])
  | reasoning delta => exact .quiet rfl (by simp [Adapter.accept])
  | call index callId name arguments =>
      exact .quiet (trackTool_finished index callId) (by simp [Adapter.accept])
  | stop => exact .finish a

theorem acceptAll_ends (a : Adapter) (signals : List Signal) :
    Ends a (decide (Signal.stop ∈ signals)) (a.acceptAll signals) := by
  induction signals generalizing a with
  | nil => exact .quiet rfl (by simp [Adapter.acceptAll])
  | cons signal rest ih =>
      obtain ⟨finished, chunk⟩ := accept_ends a signal
      obtain ⟨later, more⟩ := ih (a.accept signal).1
      constructor
      · show ((a.accept signal).1.acceptAll rest).1.finished = _
        rw [later, finished]
        cases a.finished <;> simp [List.mem_cons, eq_comm]
      · show Chunk.finish ∈ (a.accept signal).2 ++ ((a.accept signal).1.acceptAll rest).2 ↔ _
        rw [List.mem_append, chunk, more, finished]
        by_cases here : signal = .stop <;> cases a.finished <;> simp [here, eq_comm]

/-! ### Chat Completions -/

theorem bind_eq_ok {α β : Type} {x : Except String α} {f : α → Except String β} {b : β}
    (done : (x >>= f) = .ok b) : ∃ a, x = .ok a ∧ f a = .ok b := by
  cases x with
  | error message => cases done
  | ok a => exact ⟨a, rfl, done⟩

theorem entrySignals_stop {entries : List Json} {signals : List Signal}
    (read : entrySignals env entries = .ok signals) : Signal.stop ∉ signals := by
  induction entries generalizing signals with
  | nil =>
      cases read
      exact List.not_mem_nil
  | cons entry rest ih =>
      cases entry with
      | obj entry =>
          obtain ⟨index, _, read⟩ := bind_eq_ok read
          obtain ⟨more, isMore, read⟩ := bind_eq_ok read
          cases read
          simpa using ih isMore
      | _ => exact ih read

theorem deltaSignals_stop {delta : Fields} {signals : List Signal}
    (read : deltaSignals env delta = .ok signals) : Signal.stop ∉ signals := by
  obtain ⟨calls, isCalls, read⟩ := bind_eq_ok read
  cases read
  simpa using entrySignals_stop isCalls

theorem choiceSignals_stop {choices : List Json} {signals : List Signal}
    (read : choiceSignals env choices = .ok signals) :
    Signal.stop ∈ signals ↔ choices.any choiceStops = true := by
  induction choices generalizing signals with
  | nil =>
      cases read
      simp
  | cons choice rest ih =>
      cases choice with
      | obj choice =>
          obtain ⟨delta, isDelta, read⟩ := bind_eq_ok read
          obtain ⟨more, isMore, read⟩ := bind_eq_ok read
          cases read
          have silent := deltaSignals_stop isDelta
          rw [List.mem_append, List.mem_append, ih isMore, List.any_cons, Bool.or_eq_true]
          simp only [silent, false_or, choiceStops]
          split <;> simp_all
      | _ => simpa [choiceStops] using ih read

theorem noteUsage_finished (norm : Fields) : (a.noteUsage norm).finished = a.finished := by
  unfold Adapter.noteUsage
  split <;> rfl

theorem openaiChunks_ends {payload : Fields} {done : Adapter × List Chunk}
    (read : a.openaiChunks env payload = .ok done) :
    Ends a ((itemsOf (payload.get "choices")).any choiceStops) done := by
  rw [openaiChunks_eq] at read
  cases signals : payloadSignals env payload with
  | error message =>
      rw [signals] at read
      cases read
  | ok said =>
      rw [signals] at read
      cases read
      obtain ⟨choices, isChoices, signals⟩ := bind_eq_ok signals
      obtain ⟨norm, _, signals⟩ := bind_eq_ok signals
      cases signals
      have stops := choiceSignals_stop isChoices
      obtain ⟨finished, chunk⟩ := acceptAll_ends a choices
      have same : decide (Signal.stop ∈ choices)
          = (itemsOf (payload.get "choices")).any choiceStops := by
        rw [Bool.eq_iff_iff, decide_eq_true_eq, stops]
      rw [← same]
      exact ⟨(noteUsage_finished norm).trans finished, chunk⟩

/-! ### Anthropic -/

theorem captureUsage_finished {payload : Fields} {noted : Adapter}
    (read : a.captureUsage env payload = .ok noted) : noted.finished = a.finished := by
  obtain ⟨norm, _, read⟩ := bind_eq_ok read
  cases read
  exact noteUsage_finished norm

theorem Ends.of_finished {b : Adapter} {stops : Bool} {done : Adapter × List Chunk}
    (h : Ends b stops done) (same : b.finished = a.finished) : Ends a stops done := by
  obtain ⟨finished, chunk⟩ := h
  rw [same] at finished chunk
  exact ⟨finished, chunk⟩

theorem anthropicBlockStart_ends {payload : Fields} {done : Adapter × List Chunk}
    (read : a.anthropicBlockStart env payload = .ok done) : Ends a false done := by
  unfold Adapter.anthropicBlockStart at read
  split at read
  · split at read
    · obtain ⟨index, _, read⟩ := bind_eq_ok read
      cases read
      exact .quiet (trackTool_finished index _) (by simp)
    · cases read
      exact .quiet rfl List.not_mem_nil
  · cases read
    exact .quiet rfl List.not_mem_nil

theorem anthropicBlockDelta_quiet {payload : Fields} {chunks : List Chunk}
    (read : a.anthropicBlockDelta env payload = .ok chunks) : Chunk.finish ∉ chunks := by
  unfold Adapter.anthropicBlockDelta at read
  split at read
  · dsimp only at read
    split at read
    · cases read
      split <;> simp
    · split at read
      · obtain ⟨index, _, read⟩ := bind_eq_ok read
        cases read
        simp
      · cases read
        exact List.not_mem_nil
  · cases read
    exact List.not_mem_nil

theorem anthropicChunks_ends {event : String} {payload : Fields} {done : Adapter × List Chunk}
    (read : a.anthropicChunks env event payload = .ok done) :
    Ends a (event = "message_stop" || event = "message_delta"
      && (((fieldsOf (payload.get "delta")).get "stop_reason").getD .null).truthy) done := by
  unfold Adapter.anthropicChunks at read
  split at read
  case isTrue stop =>
    cases read
    simpa [stop] using Ends.finish a
  case isFalse going =>
    simp only [going, decide_false, Bool.false_or]
    split at read
    case isTrue delta =>
      have noting : ∃ noted : Adapter, noted.finished = a.finished ∧ done
          = if (((fieldsOf (payload.get "delta")).get "stop_reason").getD .null).truthy then
              noted.finish
            else (noted, []) := by
        dsimp only at read
        split at read
        · obtain ⟨noted, isNoted, read⟩ := bind_eq_ok read
          exact ⟨noted, captureUsage_finished isNoted, (Except.ok.inj read).symm⟩
        · obtain ⟨noted, isNoted, read⟩ := bind_eq_ok read
          cases isNoted
          exact ⟨a, rfl, (Except.ok.inj read).symm⟩
      obtain ⟨noted, same, rfl⟩ := noting
      simp only [delta, decide_true, Bool.true_and]
      split
      case isTrue reason =>
        rw [reason]
        exact (Ends.finish noted).of_finished same
      case isFalse reason =>
        rw [Bool.eq_false_iff.mpr reason]
        exact .quiet same List.not_mem_nil
    case isFalse other =>
      simp only [other, decide_false, Bool.false_and]
      split at read
      · exact anthropicBlockStart_ends read
      · split at read
        · obtain ⟨chunks, isChunks, read⟩ := bind_eq_ok read
          cases read
          exact .quiet rfl (anthropicBlockDelta_quiet isChunks)
        · split at read
          · obtain ⟨index, _, read⟩ := bind_eq_ok read
            cases read
            exact .closeTool a index
          · cases read
            exact .quiet rfl List.not_mem_nil

/-! ### Native Responses -/

theorem nativeItem_quiet {type : String} {payload : Fields} {chunks : List Chunk}
    (read : Adapter.nativeItem env type payload = .ok chunks) : Chunk.finish ∉ chunks := by
  unfold Adapter.nativeItem at read
  split at read
  · split at read
    · cases read
      exact List.not_mem_nil
    · obtain ⟨index, _, read⟩ := bind_eq_ok read
      cases read
      simp
  · cases read
    exact List.not_mem_nil

theorem nativeChunks_ends {event : String} {payload : Fields} {done : Adapter × List Chunk}
    (read : a.nativeChunks env event payload = .ok done) :
    Ends a (nativeType env event payload
      ∈ ["response.completed", "response.failed", "response.incomplete"]) done := by
  have named : env.strOr (orElse (payload.get "type") (some (.str event)))
      = nativeType env event payload := rfl
  unfold Adapter.nativeChunks at read
  dsimp only at read
  rw [named] at read
  generalize nativeType env event payload = type at read ⊢
  split at read
  case isTrue text =>
    subst text
    cases read
    exact .quiet rfl (by split <;> simp)
  case isFalse _ =>
    split at read
    case isTrue item =>
      obtain ⟨chunks, isChunks, read⟩ := bind_eq_ok read
      cases read
      rcases item with rfl | rfl <;> exact .quiet rfl (nativeItem_quiet isChunks)
    case isFalse _ =>
      split at read
      case isTrue reasoning =>
        subst reasoning
        cases read
        exact .quiet rfl (by split <;> simp)
      case isFalse _ =>
        split at read
        case isTrue fragment =>
          subst fragment
          obtain ⟨index, _, read⟩ := bind_eq_ok read
          cases read
          exact .quiet (trackTool_finished index _) (by simp)
        case isFalse _ =>
          split at read
          case isTrue terminator =>
            subst terminator
            obtain ⟨index, _, read⟩ := bind_eq_ok read
            cases read
            exact .closeTool a index
          case isFalse _ =>
            split at read
            case isTrue terminal =>
              obtain ⟨noted, isNoted, read⟩ := bind_eq_ok read
              cases read
              rw [decide_eq_true terminal]
              exact (Ends.finish noted).of_finished (captureUsage_finished isNoted)
            case isFalse other =>
              cases read
              rw [decide_eq_false other]
              exact .quiet rfl List.not_mem_nil

/-! ## The finish chunk -/

/-- **A frame finishes the adapter exactly when it is a signal of the end**, positive or
not. -/
theorem frameToChunks_ends {frame : SseFrame} {done : Adapter × List Chunk}
    (read : a.frameToChunks env frame = .ok done) :
    Ends a (isCompletion env frame || isFailure env frame) done := by
  unfold Adapter.frameToChunks at read
  unfold isCompletion isFailure
  cases sentinel : Adapter.isDoneSentinel frame with
  | true =>
      rw [sentinel] at read
      cases read
      exact .finish a
  | false =>
      rw [sentinel] at read
      simp only [Bool.false_or, Bool.not_false, Bool.true_and]
      obtain ⟨payload, isPayload, read⟩ := bind_eq_ok read
      unfold payloadOf
      rw [isPayload]
      cases payload with
      | none =>
          cases read
          exact .quiet rfl List.not_mem_nil
      | some payload =>
          simp only [Option.any_some, payloadCompletes, payloadFails]
          cases dialect : env.dialect with
          | openai =>
              simp only [dialect] at read
              simpa using openaiChunks_ends read
          | anthropic =>
              simp only [dialect] at read
              simpa using anthropicChunks_ends read
          | responses =>
              simp only [dialect] at read
              have ends := nativeChunks_ends read
              simpa [Bool.or_assoc] using ends

theorem runSchedule_finish {frames : List SseFrame} {g : Adapting}
    (whole : (runSchedule (Adapting.frame env) g frames).broken = false) :
    Chunk.finish ∈ (runSchedule (Adapting.frame env) g frames).yielded ↔
      Chunk.finish ∈ g.yielded ∨ g.adapter.finished = false
        ∧ ∃ frame ∈ frames, (isCompletion env frame || isFailure env frame) = true := by
  induction frames generalizing g with
  | nil => simp
  | cons frame rest ih =>
      rw [runSchedule_cons] at whole ⊢
      rw [ih whole]
      cases broken : g.broken with
      | true =>
          have still : g.frame env frame = g := if_pos broken
          rw [still, runSchedule_frame_of_broken broken, broken] at whole
          cases whole
      | false =>
          cases read : g.adapter.frameToChunks env frame with
          | error message =>
              have cut : (g.frame env frame).broken = true := by
                simp [Adapting.frame, broken, read]
              rw [runSchedule_frame_of_broken cut, cut] at whole
              cases whole
          | ok done =>
              have next : g.frame env frame
                  = { g with adapter := done.1, yielded := g.yielded ++ done.2 } := by
                simp [Adapting.frame, broken, read]
              obtain ⟨finished, chunk⟩ := frameToChunks_ends read
              rw [next]
              simp only [List.mem_append, chunk, finished, List.mem_cons, exists_eq_or_imp,
                Bool.or_eq_false_iff]
              cases g.adapter.finished with
              | true => simp
              | false =>
                  cases stops : (isCompletion env frame || isFailure env frame) <;> simp_all

theorem finish_mem_iff (env : AdapterEnv) (frames : List SseFrame)
    (whole : (adaptFrames env frames).broken = false) :
    Chunk.finish ∈ (adaptFrames env frames).yielded ↔
      ∃ frame ∈ frames, isCompletion env frame = true ∨ isFailure env frame = true := by
  rw [adaptFrames, runSchedule_finish whole]
  simp

end Zhongzhuan.Responses
