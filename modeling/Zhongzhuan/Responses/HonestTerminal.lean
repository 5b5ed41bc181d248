import Zhongzhuan.Responses.CompletionSignals
import Zhongzhuan.Responses.Prose

/-!
# How the client's stream ends, and how the upstream's did

The terminal event is decided from two flags of the pipeline: whether a `finish` chunk came,
and whether a call was closed with arguments that are no JSON object.

* `rejects` is the second, one terminator at a time; `translateChunk_flags` says what a chunk
  does to both flags.
* `conclude_completed_iff`: under strict terminals, `response.completed` is written exactly
  when there is nothing to report.
* `honestEnd_iff` puts the adapter before the pipeline.  The adapter turns the two terminal
  events of a failed upstream into the same `finish` chunk as a completion, so that only an
  exception or a rejected call keeps such a stream from ending in `response.completed`.
-/

namespace Zhongzhuan.Responses

open Kit Protocol

variable {env : Env} {p : Pipeline}

/-! ## Calls closed with bad arguments -/

/-- The id belongs to a special call that `_finalize_special_call` takes over. -/
def Pipeline.specialPending (env : Env) (p : Pipeline) (callId : String) : Bool :=
  match p.specialCalls.get? callId with
  | none => false
  | some call =>
    match call.kind with
    | .toolSearch => env.toolSearchEnabled
    | .multiAgent => env.multiAgent.isSome

/-- The call a terminator closes, with the arguments it closes it with. -/
def Pipeline.closingCall (p : Pipeline) (callId arguments : String) (sourceIndex : Option ℤ) :
    Option ToolCallAccumulator :=
  (p.tools.get callId sourceIndex).bind fun ref =>
    (p.tools.accs[ref]?).map (·.appendArguments arguments)

/-- The chunk is the terminator of an ordinary call whose arguments are no JSON object. -/
def rejects (env : Env) (p : Pipeline) : Chunk → Bool
  | .toolCallDone callId arguments sourceIndex =>
    !p.specialPending env callId
      && (p.closingCall callId arguments sourceIndex).any (·.validate env.loads = .invalid)
  | _ => false

theorem finalizeSpecialCall_isLeft (callId arguments : String) :
    (p.finalizeSpecialCall env callId arguments).isLeft = p.specialPending env callId := by
  unfold Pipeline.finalizeSpecialCall Pipeline.specialPending
  cases p.specialCalls.get? callId with
  | none => rfl
  | some call =>
      dsimp only
      cases call.kind with
      | toolSearch => cases env.toolSearchEnabled <;> rfl
      | multiAgent => cases env.multiAgent <;> rfl

theorem translateToolCall_flags (callId name fragment nameSpace : String)
    (sourceIndex : Option ℤ) :
    (p.translateToolCall callId name fragment nameSpace sourceIndex).1.books.2 = p.books.2 := by
  unfold Pipeline.translateToolCall
  dsimp only
  split
  · rfl
  · split <;> rfl

theorem getElem?_modify_self {ref : ℕ} {tools : ToolCallCollection}
    (f : ToolCallAccumulator → ToolCallAccumulator) :
    (tools.modify ref f).accs[ref]? = (tools.accs[ref]?).map f := by
  simp

theorem translateToolCallDone_flags (callId arguments : String) (sourceIndex : Option ℤ) :
    (p.translateToolCallDone env callId arguments sourceIndex).pipeline.books.2
      = (p.hadInvalidToolArgs || (p.closingCall callId arguments sourceIndex).any
            (·.validate env.loads = .invalid), p.sawProviderFinish) := by
  unfold Pipeline.translateToolCallDone Pipeline.closingCall
  cases p.tools.get callId sourceIndex with
  | none => simp [Pipeline.books]
  | some ref =>
      simp only [Option.bind_some, getElem?_modify_self]
      cases (p.tools.accs[ref]?).map (·.appendArguments arguments) with
      | none => simp [Pipeline.books]
      | some acc =>
          cases verdict : acc.validate env.loads <;> simp [Pipeline.books, verdict]

theorem translateChunk_flags (env : Env) (p : Pipeline) (c : Chunk) :
    (p.translateChunk env c).pipeline.books.2
      = (p.hadInvalidToolArgs || rejects env p c, p.sawProviderFinish || decide (c = .finish)) := by
  have same : ∀ q : Pipeline, q.books = p.books → c ≠ .finish → rejects env p c = false →
      q.books.2 = (p.hadInvalidToolArgs || rejects env p c,
        p.sawProviderFinish || decide (c = .finish)) := by
    intro q kept other accepted
    rw [kept, accepted, decide_eq_false other, Bool.or_false, Bool.or_false]
    rfl
  cases c with
  | text delta => exact same _ (translateText_books delta) (by simp) rfl
  | reasoning delta => exact same _ (translateReasoning_books delta) (by simp) rfl
  | rawOutputItem event item => exact same _ (translateRaw_books event item) (by simp) rfl
  | finish => simp [Pipeline.translateChunk, Pipeline.books, rejects]
  | toolCall callId name arguments nameSpace sourceIndex =>
      cases special : Pipeline.specialKind env name nameSpace with
      | some found =>
          obtain ⟨kind, bare⟩ := found
          rw [Pipeline.translateChunk_of_special special]
          exact same _ rfl (by simp) rfl
      | none =>
          rw [Pipeline.translateChunk_of_ordinary special]
          rw [translateToolCall_flags]
          simp [Pipeline.books, rejects]
  | toolCallDone callId arguments sourceIndex =>
      have passed := @finalizeSpecialCall_books env p callId arguments
      have pending := @finalizeSpecialCall_isLeft env p callId arguments
      simp only [Pipeline.translateChunk]
      cases done : p.finalizeSpecialCall env callId arguments with
      | inl special =>
          rw [done] at passed pending
          refine same _ passed (by simp) ?_
          simp [rejects, ← pending]
      | inr q =>
          rw [done] at passed pending
          have books : q.books = p.books := passed
          have tools : q.tools = p.tools := congrArg Prod.fst books
          have invalid : q.hadInvalidToolArgs = p.hadInvalidToolArgs :=
            congrArg (fun books => books.2.1) books
          have saw : q.sawProviderFinish = p.sawProviderFinish :=
            congrArg (fun books => books.2.2) books
          dsimp only
          rw [translateToolCallDone_flags]
          simp [rejects, ← pending, Pipeline.closingCall, tools, invalid, saw]

/-! ## The loop -/

/-- The arrival is a terminator of a call with bad arguments. -/
def Loop.rejects (env : Env) (loop : Loop) : Arrival → Bool
  | .chunk c => Responses.rejects env loop.pipeline c
  | .heartbeat => false

/-- Every call that was closed had a JSON object for its arguments. -/
def AllAccepted (env : Env) (p : Pipeline) (arrivals : List Arrival) : Prop :=
  Along (Loop.receive env) (fun loop arrival => loop.rejects env arrival = false)
    (startLoop env p) arrivals

theorem receive_flags {loop : Loop} (running : loop.internalError = none) (arrival : Arrival) :
    (loop.receive env arrival).pipeline.hadInvalidToolArgs
        = (loop.pipeline.hadInvalidToolArgs || loop.rejects env arrival)
      ∧ (loop.receive env arrival).pipeline.sawProviderFinish
        = (loop.pipeline.sawProviderFinish || decide (arrival = .chunk .finish)) := by
  cases arrival with
  | heartbeat =>
      unfold Loop.receive
      rw [running]
      exact ⟨(Bool.or_false _).symm, (Bool.or_false _).symm⟩
  | chunk c =>
      have flags := translateChunk_flags env loop.pipeline c
      rw [receive_pipeline running]
      refine ⟨congrArg Prod.fst flags, (congrArg Prod.snd flags).trans ?_⟩
      simp only [Arrival.chunk.injEq]

theorem runSchedule_flags (reliable : Reliable env) (arrivals : List Arrival) {loop : Loop}
    (running : loop.internalError = none) :
    ((runSchedule (Loop.receive env) loop arrivals).pipeline.hadInvalidToolArgs = false ↔
        loop.pipeline.hadInvalidToolArgs = false
          ∧ Along (Loop.receive env) (fun loop arrival => loop.rejects env arrival = false)
            loop arrivals)
      ∧ ((runSchedule (Loop.receive env) loop arrivals).pipeline.sawProviderFinish = true ↔
        loop.pipeline.sawProviderFinish = true ∨ Chunk.finish ∈ chunksOf arrivals) := by
  induction arrivals generalizing loop with
  | nil => simp [chunksOf]
  | cons arrival rest ih =>
      have next : (loop.receive env arrival).internalError = none :=
        runSchedule_returns reliable [arrival] running
      obtain ⟨invalid, saw⟩ := @receive_flags env _ running arrival
      obtain ⟨invalid', saw'⟩ := ih next
      rw [runSchedule_cons, invalid', saw', invalid, saw, along_cons]
      constructor
      · rw [Bool.or_eq_false_iff, and_assoc]
      · cases arrival with
        | heartbeat => simp [chunksOf, Arrival.chunk?]
        | chunk c =>
            have here : chunksOf (.chunk c :: rest) = c :: chunksOf rest := rfl
            rw [here, List.mem_cons, Bool.or_eq_true, decide_eq_true_eq, Arrival.chunk.injEq,
              or_assoc, @eq_comm _ c]

/-! ## The terminal event -/

/-- The stream ends with an event of this type. -/
def EndsWith (events : List Event) (type : EventType) : Prop :=
  ∃ before e, events = before ++ [e] ∧ e.type = type

theorem EndsWith.unique {events : List Event} {one two : EventType} (h : EndsWith events one)
    (h' : EndsWith events two) : one = two := by
  obtain ⟨before, e, same, rfl⟩ := h
  obtain ⟨before', e', same', rfl⟩ := h'
  rw [same] at same'
  have last : [e] = [e'] := (List.append_inj' same' rfl).2
  rw [List.singleton_injective last]

/-- What `conclude` ends with, under strict terminals. -/
def terminalOf (p : Pipeline) (error : Option String) (reason : Option TerminalReason) :
    EventType :=
  match error, p.hadInvalidToolArgs, reason with
  | some _, _, _ => .failed
  | none, true, reason =>
    if (reason.getD .invalidToolArguments).isTimeout then .incomplete else .failed
  | none, false, some reason => if reason.isTimeout then .incomplete else .failed
  | none, false, none => .completed

theorem conclude_endsWith (strict : env.strictTerminal = true) (error : Option String)
    (reason : Option TerminalReason) (events : List Event) :
    EndsWith (events ++ (conclude env p error reason).2) (terminalOf p error reason) := by
  have cut : ∀ reason : TerminalReason,
      EndsWith (events ++ (p.terminalFrames env reason true).2)
        (if reason.isTimeout then .incomplete else .failed) := by
    intro reason
    refine ⟨events ++ (p.closeOpenItems true).2, _, (List.append_assoc _ _ _).symm, ?_⟩
    cases reason.isTimeout <;> rfl
  unfold conclude terminalOf
  cases error with
  | some message =>
      exact ⟨events ++ (p.closeOpenItems true).2, _, (List.append_assoc _ _ _).symm, rfl⟩
  | none =>
      cases p.hadInvalidToolArgs with
      | true => exact cut _
      | false =>
          cases reason with
          | some reason =>
              simp only [strict]
              exact cut reason
          | none =>
              exact ⟨events ++ (p.closeOpenItems false).2, _, (List.append_assoc _ _ _).symm, rfl⟩

theorem terminalOf_mem (error : Option String) (reason : Option TerminalReason) :
    terminalOf p error reason = .completed ∨ terminalOf p error reason = .failed
      ∨ terminalOf p error reason = .incomplete := by
  unfold terminalOf
  split
  · exact .inr (.inl rfl)
  · split
    · exact .inr (.inr rfl)
    · exact .inr (.inl rfl)
  · split
    · exact .inr (.inr rfl)
    · exact .inr (.inl rfl)
  · exact .inl rfl

theorem terminalOf_completed_iff (error : Option String) (reason : Option TerminalReason) :
    terminalOf p error reason = .completed ↔
      error = none ∧ p.hadInvalidToolArgs = false ∧ reason = none := by
  unfold terminalOf
  split
  · simp
  · split <;> simp_all
  · split <;> simp
  · simp_all

/-- **When a run ends in `response.completed`** under strict terminals: the stream ended by
itself, it had a `finish` chunk, and every call that was closed had a JSON object for its
arguments. -/
theorem run_endsWith (reliable : Reliable env) (strict : env.strictTerminal = true)
    (p : Pipeline) (arrivals : List Arrival) {ending : Ending}
    (uncancelled : ending ≠ .clientCancel) :
    ∃ type, EndsWith (run env p arrivals ending).events type
      ∧ (type = .completed ∨ type = .failed ∨ type = .incomplete)
      ∧ (type = .completed ↔ ending = .upstreamEnd ∧ Chunk.finish ∈ chunksOf arrivals
          ∧ AllAccepted env p arrivals) := by
  have returned : (loopOf env p arrivals).internalError = none :=
    runSchedule_returns reliable arrivals rfl
  obtain ⟨invalid, saw⟩ := runSchedule_flags reliable arrivals
    (show (startLoop env p).internalError = none from rfl)
  have noted : (noteEnding (loopOf env p arrivals).pipeline ending).hadInvalidToolArgs
      = (loopOf env p arrivals).pipeline.hadInvalidToolArgs := by
    cases ending <;> rfl
  have reason : endingReason (loopOf env p arrivals).pipeline arrivals ending = none ↔
      ending = .upstreamEnd ∧ Chunk.finish ∈ chunksOf arrivals := by
    have finished : (loopOf env p arrivals).pipeline.sawProviderFinish = true ↔
        Chunk.finish ∈ chunksOf arrivals := by
      rw [loopOf, saw]
      exact or_iff_right Bool.false_ne_true
    cases ending with
    | upstreamEnd =>
        rw [← finished]
        unfold endingReason
        split <;> simp_all
    | upstreamError => simp [endingReason]
    | timeout reason => simp [endingReason]
    | clientCancel => exact absurd rfl uncancelled
  refine ⟨terminalOf (noteEnding (loopOf env p arrivals).pipeline ending) none
    (endingReason (loopOf env p arrivals).pipeline arrivals ending), ?_, terminalOf_mem _ _, ?_⟩
  · rw [run_of_returned returned, events_yields]
    exact conclude_endsWith strict none _ _
  · rw [terminalOf_completed_iff, noted, reason, loopOf, invalid]
    constructor
    · rintro ⟨-, ⟨-, accepted⟩, ended, finished⟩
      exact ⟨ended, finished, accepted⟩
    · rintro ⟨ended, finished, accepted⟩
      exact ⟨rfl, ⟨rfl, accepted⟩, ended, finished⟩

/-! ## The upstream before the pipeline -/

/-- A terminal event of a native upstream. -/
def isTerminalEvent (upstream : AdapterEnv) (frame : SseFrame) : Bool :=
  isFailure upstream frame
    || upstream.dialect = .responses && !Adapter.isDoneSentinel frame
      && isCompletion upstream frame

/-- The terminal event of the stream, the last one if there are several, is `response.failed`
or `response.incomplete`. -/
def endsInFailure (upstream : AdapterEnv) (frames : List SseFrame) : Bool :=
  (frames.filter (isTerminalEvent upstream)).getLast?.any (isFailure upstream)

theorem exists_failure {upstream : AdapterEnv} {frames : List SseFrame}
    (failed : endsInFailure upstream frames = true) :
    ∃ frame ∈ frames, isFailure upstream frame = true := by
  obtain ⟨frame, last, failure⟩ := (Option.any_eq_true _ _).mp failed
  exact ⟨frame, List.mem_of_mem_filter (List.mem_of_getLast? last), failure⟩

/-- The entry with which the generator ends the pipeline's queue. -/
def Adapting.ending (g : Adapting) : Ending :=
  if g.broken then .upstreamError else .upstreamEnd

/-- The client's stream ends as the upstream's did: a failed or incomplete upstream is not
reported as completed, and one without a positive completion signal is reported as failed or
incomplete. -/
structure HonestEnd (upstream : AdapterEnv) (frames : List SseFrame) (events : List Event) :
    Prop where
  failure : endsInFailure upstream frames = true → ¬ EndsWith events .completed
  truncated : (∀ frame ∈ frames, isCompletion upstream frame = false) →
    EndsWith events .failed ∨ EndsWith events .incomplete

/-- **When the client's stream ends as the upstream's did**, under strict terminals: if the
upstream failed (its terminal event says so, or that event is all the completion it signals),
then something else went wrong as well, an exception of the adapter or a call closed with
arguments that are no JSON object. -/
theorem honestEnd_iff (env : Env) (reliable : Reliable env) (strict : env.strictTerminal = true)
    (upstream : AdapterEnv) (stream : List Bytes) (p : Pipeline) (arrivals : List Arrival)
    (read : chunksOf arrivals = (iterChunks upstream stream).yielded) :
    HonestEnd upstream (framesOf stream).1
        (run env p arrivals (iterChunks upstream stream).ending).events ↔
      ((endsInFailure upstream (framesOf stream).1 = true
          ∨ (∀ frame ∈ (framesOf stream).1, isCompletion upstream frame = false)
            ∧ ∃ frame ∈ (framesOf stream).1, isFailure upstream frame = true) →
        (iterChunks upstream stream).broken = true ∨ ¬ AllAccepted env p arrivals) := by
  have uncancelled : (iterChunks upstream stream).ending ≠ .clientCancel := by
    unfold Adapting.ending
    split <;> exact nofun
  obtain ⟨type, ends, kinds, completed⟩ := run_endsWith reliable strict p arrivals uncancelled
  have going : (iterChunks upstream stream).ending = .upstreamEnd ↔
      (iterChunks upstream stream).broken = false := by
    unfold Adapting.ending
    cases (iterChunks upstream stream).broken <;> simp
  have signalled : (iterChunks upstream stream).broken = false →
      (Chunk.finish ∈ chunksOf arrivals ↔ ∃ frame ∈ (framesOf stream).1,
        isCompletion upstream frame = true ∨ isFailure upstream frame = true) := by
    intro whole
    rw [iterChunks_eq] at whole read
    rw [read]
    exact finish_mem_iff upstream _ (Bool.or_eq_false_iff.mp whole).1
  have isCompleted : EndsWith (run env p arrivals (iterChunks upstream stream).ending).events
      .completed ↔ type = .completed :=
    ⟨fun h => ends.unique h, fun h => h ▸ ends⟩
  have failing : (∃ frame ∈ (framesOf stream).1, isFailure upstream frame = true) →
      (¬ EndsWith (run env p arrivals (iterChunks upstream stream).ending).events .completed ↔
        (iterChunks upstream stream).broken = true ∨ ¬ AllAccepted env p arrivals) := by
    rintro ⟨frame, mem, failure⟩
    rw [isCompleted, completed, going]
    cases whole : (iterChunks upstream stream).broken with
    | true => simp
    | false =>
        have finished := (signalled whole).mpr ⟨frame, mem, .inr failure⟩
        simp [finished]
  constructor
  · rintro ⟨failure, truncated⟩ (failed | ⟨unsigned, failed⟩)
    · exact (failing (exists_failure failed)).mp (failure failed)
    · refine (failing failed).mp fun h => ?_
      rcases truncated unsigned with h' | h' <;> cases h.unique h'
  · intro excused
    refine ⟨fun failed => ?_, fun unsigned => ?_⟩
    · exact (failing (exists_failure failed)).mpr (excused (.inl failed))
    · have incomplete : ¬ EndsWith
          (run env p arrivals (iterChunks upstream stream).ending).events .completed := by
        by_cases failed : ∃ frame ∈ (framesOf stream).1, isFailure upstream frame = true
        · exact (failing failed).mpr (excused (.inr ⟨unsigned, failed⟩))
        · rw [isCompleted, completed, going]
          rintro ⟨whole, finished, _⟩
          obtain ⟨frame, mem, positive | failure⟩ := (signalled whole).mp finished
          · rw [unsigned frame mem] at positive
            cases positive
          · exact failed ⟨frame, mem, failure⟩
      rw [isCompleted] at incomplete
      rcases kinds with rfl | rfl | rfl
      · exact absurd rfl incomplete
      · exact .inl ends
      · exact .inr ends

/-- A native upstream whose payloads are empty objects: the events carry their names. -/
def nativeUpstream : AdapterEnv where
  dialect := .responses
  loads := plainEnv.loads
  intOfText := fun _ => none
  intOfFloat := fun _ => .ok none
  strOf := fun _ => ""

/-- The bytes of a text. -/
def bytesOf (text : String) : Bytes := text.toUTF8.data.toList

/-- The pipeline of `plainEnv` with strict terminals. -/
def strictEnv : Env := { plainEnv with strictTerminal := true }

theorem strictEnv_reliable : Reliable strictEnv where
  loads := fun text message raised => by
    simp only [strictEnv, plainEnv] at raised
    split at raised <;> cases raised
  handle := nofun

/-- A call without arguments, and then the failure. -/
def rejectedStream : List Bytes :=
  [bytesOf "event: response.function_call_arguments.delta\ndata: \x7b\x7d\n\n",
    bytesOf "event: response.failed\ndata: \x7b\x7d\n\n"]

/-- What the adapter yields for it. -/
def rejectedArrivals : List Arrival :=
  [.chunk (.toolCall "" "" "" "" (some 0)), .chunk (.toolCallDone "" "" (some 0)),
    .chunk .finish]

theorem rejectedStream_honest :
    HonestEnd nativeUpstream (framesOf rejectedStream).1
      (run strictEnv (.fresh strictEnv) rejectedArrivals
        (iterChunks nativeUpstream rejectedStream).ending).events :=
  (honestEnd_iff strictEnv strictEnv_reliable rfl nativeUpstream rejectedStream
    (.fresh strictEnv) rejectedArrivals (by decide +kernel)).mpr
    fun _ => .inr fun accepted => absurd accepted.2.1 (by decide)

/-- The failure alone. -/
def failedStream : List Bytes :=
  [bytesOf "event: response.failed\ndata: \x7b\x7d\n\n"]

/-- It is reported to the client as `response.completed`. -/
theorem failedStream_not_honest :
    ¬ ∀ (env : Env) (upstream : AdapterEnv) (stream : List Bytes) (arrivals : List Arrival),
      Reliable env → env.strictTerminal = true →
      chunksOf arrivals = (iterChunks upstream stream).yielded →
      HonestEnd upstream (framesOf stream).1
        (run env (.fresh env) arrivals (iterChunks upstream stream).ending).events := by
  intro honest
  have ended := honest strictEnv nativeUpstream failedStream [.chunk .finish]
    strictEnv_reliable rfl (by decide +kernel)
  have events : (run strictEnv (.fresh strictEnv) [.chunk .finish]
      (iterChunks nativeUpstream failedStream).ending).events
      = openingEvents "r" ++ [completedEvent "r"] := by
    decide +kernel
  exact ended.failure (by decide +kernel) ⟨_, _, events, rfl⟩

end Zhongzhuan.Responses
