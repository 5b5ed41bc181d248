import Zhongzhuan.Responses.JobEnd
import Zhongzhuan.Responses.Prose

/-!
# What the store keeps of the reasoning

`event_log` states that reasoning is never persisted and leaves it to its callers to redact
what they append.  The live pipeline appends every event as the client receives it, and the
background worker takes a reasoning chunk for text.

* `Alike` relates two chunks that differ at most in the text of a reasoning chunk.
* `liveRows` and `jobRows` are what a live run and a background run leave in the store.
* `thoughts` reads the reasoning back from the log of a live run: `thoughts_run`.  So two
  runs leave the same rows only when they were given the same reasoning
  (`reasoningRows_iff`).
-/

namespace Zhongzhuan.Responses

open Kit Protocol

/-! ## What is persisted -/

/-- The rows of a response: the event log, the output column and the output items. -/
structure PersistedRows where
  log : List LogEvent
  output : List Fields
  items : List Fields

/-- What a live run leaves: the events it emitted, and its output in both places. -/
def liveRows (env : Env) (p : Pipeline) (arrivals : List Arrival) (ending : Ending) :
    PersistedRows :=
  let done := run env p arrivals ending
  ⟨done.emitted.map Event.logged, done.pipeline.outputItems, done.pipeline.outputItems⟩

/-- The background run over the same chunks, at the readings of a clock. -/
def jobInputOf (clock : ℕ → ℚ) (chunks : List Chunk) (ending : JobEnding) : JobInput where
  turns := chunks.mapIdx fun n c => ⟨clock n, .unified c⟩
  ending := ending

/-- What a background run leaves in the rows it found. -/
def jobRows (env : JobEnv) (rows : StoredResponse) (clock : ℕ → ℚ) (chunks : List Chunk)
    (ending : JobEnding) : PersistedRows :=
  let done := rows.execute (runJob env (jobInputOf clock chunks ending)).2
  ⟨done.log, done.output, done.items⟩

/-- The reasoning a chunk carries. -/
def Chunk.thought : Chunk → Option String
  | .reasoning delta => some delta
  | _ => none

/-- Two chunks that differ at most in the text of a reasoning chunk, which is not empty. -/
inductive Alike : Chunk → Chunk → Prop
  | same {c : Chunk} (other : c.thought = none) : Alike c c
  | reasoning {delta delta' : String} (nonempty : delta ≠ "") (nonempty' : delta' ≠ "") :
      Alike (.reasoning delta) (.reasoning delta')

/-- Two entries of the queue. -/
inductive AlikeArrival : Arrival → Arrival → Prop
  | heartbeat : AlikeArrival .heartbeat .heartbeat
  | chunk {c c' : Chunk} (alike : Alike c c') : AlikeArrival (.chunk c) (.chunk c')

/-! ## The reasoning in a log -/

/-- The reasoning an event carries; an empty delta is the one the pipeline adds itself. -/
def thoughtOf (event : Event) : Option String :=
  if event.type = .reasoningSummaryTextDelta then
    match event.data.get "delta" with
    | some (.str delta) => if delta = "" then none else some delta
    | _ => none
  else none

/-- The reasoning in a log. -/
def thoughts (events : List Event) : List String := events.filterMap thoughtOf

theorem thoughts_append (first second : List Event) :
    thoughts (first ++ second) = thoughts first ++ thoughts second :=
  List.filterMap_append

variable {env : Env} {p : Pipeline}

theorem closeReasoning_thoughts (incomplete : Bool) :
    thoughts (p.closeReasoning incomplete).2 = [] := by
  unfold Pipeline.closeReasoning
  split
  · rfl
  · dsimp only
    split <;> rfl

theorem ensureReasoningLifecycle_thoughts :
    thoughts (p.ensureReasoningLifecycle env).2 = [] := by
  unfold Pipeline.ensureReasoningLifecycle
  split
  · rfl
  · split
    · rfl
    · split
      · rfl
      · dsimp only
        rw [thoughts_append, thoughts_append, closeReasoning_thoughts]
        rfl

theorem translateText_thoughts (delta : String) :
    thoughts (p.translateText env delta).2 = [] := by
  unfold Pipeline.translateText
  cases held : p.openMessage with
  | some item =>
      simp only [Option.isSome_some, if_true, held]
      rfl
  | none =>
      simp only [Option.isSome_none, Bool.false_eq_true, if_false, Pipeline.openMessageItem]
      rw [thoughts_append, thoughts_append, thoughts_append, closeReasoning_thoughts,
        ensureReasoningLifecycle_thoughts]
      rfl

theorem translateReasoning_thoughts {delta : String} (nonempty : delta ≠ "") :
    thoughts (p.translateReasoning env delta).2 = [delta] := by
  have carried : ∀ id index, thoughtOf (reasoningDelta id index delta) = some delta := by
    intro id index
    show (if delta = "" then none else some delta) = some delta
    rw [if_neg nonempty]
  unfold Pipeline.translateReasoning
  rw [if_neg nonempty]
  cases held : p.openReasoning with
  | some item =>
      simp only [Option.isSome_some, if_true, held]
      simp [thoughts, carried]
  | none =>
      simp only [Option.isSome_none, Bool.false_eq_true, if_false, Pipeline.openReasoningItem]
      rw [thoughts_append]
      simp [thoughts, carried]
      exact ⟨rfl, rfl⟩

theorem translateRaw_thoughts (event : String) (item : Fields) :
    thoughts (p.translateRaw event item).2 = [] := by
  unfold Pipeline.translateRaw
  dsimp only
  split <;> rfl

theorem finalizeToolSearch_thoughts (callId args : String) :
    thoughts (p.finalizeToolSearch env callId args).emitted = [] := by
  unfold Pipeline.finalizeToolSearch
  dsimp only
  split
  · rfl
  · split <;> rfl

theorem finalizeMultiAgent_thoughts
    (handle : List HandleRequest → HandleRequest → Except String Fields)
    (callId name args : String) :
    thoughts (p.finalizeMultiAgent env handle callId name args).emitted = [] := by
  have refused : ∀ (rejected : Bool) (q : Pipeline), thoughts
      (if rejected then q.emitSpecialItem (Pipeline.rejectItem callId) else (q, [])).2 = [] := by
    intro rejected q
    cases rejected <;> rfl
  unfold Pipeline.finalizeMultiAgent
  split
  · rfl
  · dsimp only
    split
    · rw [thoughts_append, refused]
      rfl
    · split
      · rw [thoughts_append, refused]
        rfl
      · rw [thoughts_append, thoughts_append, refused]
        rfl

theorem translateToolCall_thoughts (callId name fragment nameSpace : String)
    (sourceIndex : Option ℤ) :
    thoughts (p.translateToolCall callId name fragment nameSpace sourceIndex).2 = [] := by
  unfold Pipeline.translateToolCall
  dsimp only
  split
  · rfl
  · split <;> rfl

theorem translateToolCallDone_thoughts (callId arguments : String) (sourceIndex : Option ℤ) :
    thoughts (p.translateToolCallDone env callId arguments sourceIndex).emitted = [] := by
  unfold Pipeline.translateToolCallDone
  dsimp only
  split
  · rfl
  · split
    · rfl
    · split <;> rfl

theorem translateChunk_thoughts {c : Chunk} (said : c.thought ≠ some "") :
    thoughts (p.translateChunk env c).emitted = c.thought.toList := by
  cases c with
  | text delta => exact translateText_thoughts delta
  | reasoning delta => exact translateReasoning_thoughts fun empty => said (congrArg some empty)
  | rawOutputItem event item => exact translateRaw_thoughts event item
  | finish => rfl
  | toolCall callId name arguments nameSpace sourceIndex =>
      unfold Pipeline.translateChunk
      dsimp only
      split
      · rfl
      · exact translateToolCall_thoughts ..
  | toolCallDone callId arguments sourceIndex =>
      unfold Pipeline.translateChunk
      dsimp only
      split
      case h_1 special done =>
        unfold Pipeline.finalizeSpecialCall at done
        split at done
        · cases done
        · dsimp only at done
          split at done
          · split at done
            · cases done
              exact finalizeToolSearch_thoughts ..
            · cases done
          · cases done
            exact finalizeMultiAgent_thoughts ..
          · cases done
      case h_2 q _ => exact translateToolCallDone_thoughts ..

theorem closeOpenItems_thoughts (incomplete : Bool) :
    thoughts (p.closeOpenItems incomplete).2 = [] := by
  have message : ∀ q : Pipeline, thoughts (q.closeMessage incomplete).2 = [] := by
    intro q
    unfold Pipeline.closeMessage
    split
    · rfl
    · dsimp only
      split <;> rfl
  have tools : ∀ q : Pipeline, thoughts (q.closeTools incomplete).2 = [] := by
    intro q
    refine List.filterMap_eq_nil_iff.mpr fun event mem => ?_
    obtain ⟨acc, _, rfl⟩ := List.mem_map.mp mem
    rfl
  have raw : ∀ q : Pipeline, thoughts q.closeRaw.2 = [] := by
    intro q
    refine List.filterMap_eq_nil_iff.mpr fun event mem => ?_
    obtain ⟨entry, _, rfl⟩ := List.mem_map.mp mem
    rfl
  unfold Pipeline.closeOpenItems
  dsimp only
  rw [thoughts_append, thoughts_append, thoughts_append, closeReasoning_thoughts, message, tools,
    raw]
  rfl

theorem conclude_thoughts (error : Option String) (reason : Option TerminalReason) :
    thoughts (conclude env p error reason).2 = [] := by
  have cut : ∀ (reason : TerminalReason) strict,
      thoughts (p.terminalFrames env reason strict).2 = [] := by
    intro reason strict
    have silent : ∀ status : Status,
        thoughts [truncatedEvent env.responseId status reason] = [] := by
      intro status
      cases status <;> rfl
    unfold Pipeline.terminalFrames
    dsimp only
    rw [thoughts_append, closeOpenItems_thoughts, silent]
    rfl
  unfold conclude
  split
  · unfold Pipeline.internalFailedFrames
    dsimp only
    rw [thoughts_append, closeOpenItems_thoughts]
    rfl
  · split
    · exact cut _ _
    · split
      · exact cut _ _
      · unfold Pipeline.completedFrames
        dsimp only
        rw [thoughts_append, closeOpenItems_thoughts]
        rfl

/-! ## Over a run -/

/-- No reasoning chunk is empty. -/
def Outspoken (arrivals : List Arrival) : Prop :=
  ∀ c ∈ chunksOf arrivals, c.thought ≠ some ""

/-- The reasoning of some arrivals. -/
def arrivalThoughts (arrivals : List Arrival) : List String :=
  (chunksOf arrivals).filterMap Chunk.thought

theorem runSchedule_thoughts (reliable : Reliable env) {arrivals : List Arrival}
    (outspoken : Outspoken arrivals) {loop : Loop} (running : loop.internalError = none) :
    thoughts (runSchedule (Loop.receive env) loop arrivals).emitted
      = thoughts loop.emitted ++ arrivalThoughts arrivals := by
  induction arrivals generalizing loop with
  | nil => exact (List.append_nil _).symm
  | cons arrival rest ih =>
      have next : (loop.receive env arrival).internalError = none :=
        runSchedule_returns reliable [arrival] running
      rw [runSchedule_cons]
      cases arrival with
      | heartbeat =>
          rw [ih outspoken next]
          have same : (loop.receive env .heartbeat).emitted = loop.emitted := by
            simp [Loop.receive, running]
          rw [same]
          rfl
      | chunk c =>
          obtain ⟨said, later⟩ := List.forall_mem_cons.mp outspoken
          rw [ih later next]
          have emitted : (loop.receive env (.chunk c)).emitted
              = loop.emitted ++ (loop.pipeline.translateChunk env c).emitted := by
            simp [Loop.receive, running, translateChunk_returns reliable c]
          rw [emitted, thoughts_append, translateChunk_thoughts said, List.append_assoc]
          congr 1
          show _ = (c :: chunksOf rest).filterMap Chunk.thought
          cases thought : c.thought <;> simp [thought, arrivalThoughts]

theorem thoughts_run (reliable : Reliable env) (p : Pipeline) {arrivals : List Arrival}
    (outspoken : Outspoken arrivals) (ending : Ending) :
    thoughts (run env p arrivals ending).emitted = arrivalThoughts arrivals := by
  have running : (loopOf env p arrivals).internalError = none :=
    runSchedule_returns reliable arrivals rfl
  have heard : thoughts (loopOf env p arrivals).emitted = arrivalThoughts arrivals :=
    runSchedule_thoughts reliable outspoken rfl
  rw [run_of_returned running]
  show thoughts (_ ++ _) = _
  rw [thoughts_append, heard, conclude_thoughts, List.append_nil]

theorem Alike.thought_ne {c c' : Chunk} (alike : Alike c c') :
    c.thought ≠ some "" ∧ c'.thought ≠ some "" := by
  cases alike with
  | same other =>
      rw [other]
      exact ⟨nofun, nofun⟩
  | reasoning nonempty nonempty' =>
      exact ⟨fun empty => nonempty (Option.some.inj empty),
        fun empty => nonempty' (Option.some.inj empty)⟩

theorem outspoken_of_alike {arrivals arrivals' : List Arrival}
    (alike : List.Forall₂ AlikeArrival arrivals arrivals') :
    Outspoken arrivals ∧ Outspoken arrivals' := by
  induction alike with
  | nil => exact ⟨nofun, nofun⟩
  | cons here _ ih =>
      cases here with
      | heartbeat => exact ih
      | chunk alike =>
          exact ⟨List.forall_mem_cons.mpr ⟨alike.thought_ne.1, ih.1⟩,
            List.forall_mem_cons.mpr ⟨alike.thought_ne.2, ih.2⟩⟩

theorem eq_of_arrivalThoughts {arrivals arrivals' : List Arrival}
    (alike : List.Forall₂ AlikeArrival arrivals arrivals')
    (same : arrivalThoughts arrivals = arrivalThoughts arrivals') : arrivals = arrivals' := by
  induction alike with
  | nil => rfl
  | cons here later ih =>
      cases here with
      | heartbeat => rw [ih same]
      | @chunk c c' alike =>
          have first : ∀ c rest, arrivalThoughts (.chunk c :: rest)
              = c.thought.toList ++ arrivalThoughts rest := by
            intro c rest
            show (c :: chunksOf rest).filterMap Chunk.thought = _
            cases thought : c.thought <;> simp [thought, arrivalThoughts]
          rw [first, first] at same
          cases alike with
          | same other =>
              rw [ih (List.append_cancel_left same)]
          | reasoning nonempty nonempty' =>
              obtain ⟨delta, rest⟩ := List.cons.inj same
              rw [delta, ih rest]

theorem logged_injective : Function.Injective Event.logged := by
  intro a b same
  cases a
  cases b
  simpa [Event.logged] using same

/-- **When two runs that differ in their reasoning leave the same rows**, live and in the
background: only when the reasoning does not differ. -/
theorem reasoningRows_iff (env : Env) (reliable : Reliable env) (p : Pipeline) (job : JobEnv)
    (rows : StoredResponse) (clock : ℕ → ℚ) {arrivals arrivals' : List Arrival}
    (alike : List.Forall₂ AlikeArrival arrivals arrivals') (ending : Ending)
    (jobEnding : JobEnding) :
    (liveRows env p arrivals ending = liveRows env p arrivals' ending
        ∧ jobRows job rows clock (chunksOf arrivals) jobEnding
          = jobRows job rows clock (chunksOf arrivals') jobEnding)
      ↔ arrivals = arrivals' := by
  constructor
  · rintro ⟨live, _⟩
    obtain ⟨outspoken, outspoken'⟩ := outspoken_of_alike alike
    have emitted : (run env p arrivals ending).emitted = (run env p arrivals' ending).emitted :=
      logged_injective.list_map (congrArg PersistedRows.log live)
    refine eq_of_arrivalThoughts alike ?_
    rw [← thoughts_run reliable p outspoken ending, emitted,
      thoughts_run reliable p outspoken' ending]
  · rintro rfl
    exact ⟨rfl, rfl⟩

theorem oneThought_alike :
    List.Forall₂ AlikeArrival [.chunk (.reasoning "a"), .chunk .finish]
      [.chunk (.reasoning "b"), .chunk .finish] :=
  .cons (.chunk (.reasoning (by decide) (by decide))) (.cons (.chunk (.same rfl)) .nil)

theorem oneThought_rows :
    ¬ (liveRows plainEnv (.fresh plainEnv) [.chunk (.reasoning "a"), .chunk .finish] .upstreamEnd
          = liveRows plainEnv (.fresh plainEnv) [.chunk (.reasoning "b"), .chunk .finish]
            .upstreamEnd
        ∧ jobRows plainJobEnv (.enqueued "r") (fun _ => 0) [.reasoning "a", .finish] (.eof 0 false)
          = jobRows plainJobEnv (.enqueued "r") (fun _ => 0) [.reasoning "b", .finish]
            (.eof 0 false)) := by
  intro same
  have equal := (reasoningRows_iff plainEnv plainEnv_reliable (.fresh plainEnv) plainJobEnv
    (.enqueued "r") (fun _ => 0) oneThought_alike .upstreamEnd (.eof 0 false)).mp same
  exact absurd equal (by decide)

/-- The word is in the log of the live run. -/
theorem oneThought_persisted :
    ¬ ∀ (env : Env) (_ : Reliable env) (p : Pipeline) (job : JobEnv) (rows : StoredResponse)
      (clock : ℕ → ℚ) (arrivals arrivals' : List Arrival)
      (_ : List.Forall₂ AlikeArrival arrivals arrivals') (ending : Ending)
      (jobEnding : JobEnding),
      liveRows env p arrivals ending = liveRows env p arrivals' ending
        ∧ jobRows job rows clock (chunksOf arrivals) jobEnding
          = jobRows job rows clock (chunksOf arrivals') jobEnding := by
  intro all
  have live := (all plainEnv plainEnv_reliable (.fresh plainEnv) plainJobEnv (.enqueued "r")
    (fun _ => 0) _ _ oneThought_alike .upstreamEnd (.eof 0 false)).1
  exact absurd (congrArg PersistedRows.log live) (by decide +kernel)

end Zhongzhuan.Responses
