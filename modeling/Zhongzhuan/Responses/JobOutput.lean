import Zhongzhuan.Responses.HonestTerminal
import Zhongzhuan.Responses.JobMirror

/-!
# When the background output is the live one

`_JobRun.output_items` means to mirror `ResponsePipeline.output_items` field for field.  It
does for text and for calls.  A reasoning chunk is text to the worker and an item of its own
to the pipeline; an item passed through is dropped by the one and kept by the other; and the
empty reasoning item of the pipeline takes an index the worker does not know of.

* `Spoken` and `Kept` are what the two readers make of any stream.
* `background_output_iff` is the exact condition under which the arrays agree.
-/

namespace Zhongzhuan.Responses

open Kit Protocol

variable {env : Env} {p : Pipeline} {job : JobEnv} {run : JobRun}

/-! ## A worker whose `json.loads` does not raise -/

theorem toolSignature_of_quiet (quiet : ∀ text message, job.loads text ≠ .raised message)
    (name arguments message : String) :
    toolSignature job.loads job.digest name arguments ≠ .error message := by
  intro failed
  unfold toolSignature canonicalArguments at failed
  dsimp only at failed
  split at failed
  · cases failed
  · split at failed
    case h_1 raised => exact quiet _ _ raised
    all_goals cases failed

theorem unreadable_of_quiet (quiet : ∀ text message, job.loads text ≠ .raised message)
    (acc : ToolCallAccumulator) : ¬ Unreadable job acc := by
  rintro ⟨_, message, raised⟩
  unfold ToolCallAccumulator.validate at raised
  dsimp only at raised
  split at raised
  · cases raised
  · split at raised
    case h_4 said => exact quiet _ _ said
    all_goals cases raised

theorem haltOf_closeToolItem (quiet : ∀ text message, job.loads text ≠ .raised message)
    (run : JobRun) (ref : ℕ) : JobRun.haltOf (run.closeToolItem job ref) = none := by
  unfold JobRun.haltOf
  rw [if_neg]
  intro raised
  obtain ⟨acc, _, unreadable⟩ := JobRun.closeToolItem_raised.mp raised
  exact unreadable_of_quiet quiet acc unreadable

theorem chargeChunk_unraised (quiet : ∀ text message, job.loads text ≠ .raised message)
    (run : JobRun) (ledger : BudgetLedger) (index : ℕ) (c : JobChunk) (error : String) :
    (run.chargeChunk job ledger index c).halt ≠ some (.raised error) := by
  have text : ∀ delta tokens,
      (run.chargeText job ledger delta tokens).halt ≠ some (.raised error) := by
    intro delta tokens
    unfold JobRun.chargeText
    split
    · exact nofun
    · dsimp only
      split
      · exact nofun
      · split <;> exact nofun
  cases c with
  | toolRound =>
      show (Option.map _ _) ≠ _
      cases (ledger.chargeRound job.budget).2 <;> exact nofun
  | toolResult signature failed =>
      show (Option.map _ _) ≠ _
      cases (ledger.chargeToolResult job.budget signature failed).2 <;> exact nofun
  | unknown => exact nofun
  | counted delta tokens => exact text delta tokens
  | plain delta => exact text delta 1
  | unified c =>
      cases c with
      | text delta | reasoning delta => exact text delta _
      | rawOutputItem event item | finish => exact nofun
      | toolCallDone callId arguments sourceIndex =>
          show (run.settleToolCall job ledger callId arguments sourceIndex).halt ≠ _
          unfold JobRun.settleToolCall
          split
          · exact nofun
          · split
            · exact nofun
            · split
              · exact nofun
              · dsimp only
                split
                case h_1 failed => exact absurd failed (toolSignature_of_quiet quiet _ _ _)
                case h_2 =>
                  split
                  · exact nofun
                  · dsimp only
                    rw [haltOf_closeToolItem quiet]
                    exact nofun
      | toolCall callId name arguments nameSpace sourceIndex =>
          show (run.chargeToolCall job ledger index callId name arguments nameSpace
            sourceIndex).halt ≠ _
          unfold JobRun.chargeToolCall
          dsimp only
          repeat' split
          all_goals first
            | (rw [haltOf_closeToolItem quiet]; exact nofun)
            | (rename_i failed; exact absurd failed (toolSignature_of_quiet quiet _ _ _))
            | exact nofun

theorem workerAfter_unraised (quiet : ∀ text message, job.loads text ≠ .raised message)
    (clock : ℕ → ℚ) (chunks : List Chunk) (error : String) :
    (workerAfter job clock chunks).halt ≠ some (.raised error) := by
  refine runSchedule_invariant (fun stream : JobStream => stream.halt ≠ some (.raised error))
    ?_ ?_ _
  · intro stream turn unraised
    unfold JobStream.turn
    split
    · exact unraised
    · split
      · exact nofun
      · exact chargeChunk_unraised quiet _ _ _ _ error
  · show none ≠ _
    exact nofun

theorem runJob_output (quiet : ∀ text message, job.loads text ≠ .raised message)
    (rows : StoredResponse) (clock : ℕ → ℚ) (chunks : List Chunk) (elapsed : ℚ)
    (within : ∀ reason, (workerAfter job clock chunks).terminal job (.eof elapsed false)
      ≠ .tripped reason) :
    (workerAfter job clock chunks).halt = none
      ∧ ∃ tools closed, tools.bare = (workerAfter job clock chunks).run.tools.bare
        ∧ (rows.execute
            (runJob job (jobInputOf clock chunks (.eof elapsed false))).2).output
          = JobRun.outputItems job
              { (workerAfter job clock chunks).run with tools := tools, messageDone := closed }
              false := by
  have running : (workerAfter job clock chunks).halt = none := by
    cases halted : (workerAfter job clock chunks).halt with
    | none => rfl
    | some halt =>
        cases halt with
        | raised error => exact absurd halted (workerAfter_unraised quiet clock chunks error)
        | ceiling reason =>
            refine absurd ?_ (within reason)
            simp [JobStream.terminal, halted]
  have handler : (workerAfter job clock chunks).terminal job (.eof elapsed false)
      = .completed (workerAfter job clock chunks).ledger.outputTokens := by
    unfold JobStream.terminal at within ⊢
    simp only [running] at within ⊢
    split at within
    · exact absurd rfl (within _)
    · rfl
  obtain ⟨tools, closed, same, closing⟩ :=
    @JobRun.closeOpenItems_tools job (workerAfter job clock chunks).run false
  have sound : ((workerAfter job clock chunks).run.closeOpenItems job false).raised = false := by
    rw [← Bool.not_eq_true, JobRun.closeOpenItems_raised]
    rintro ⟨acc, _, _, unreadable⟩
    exact unreadable_of_quiet quiet acc unreadable
  refine ⟨running, tools, closed, same, ?_⟩
  have input : streamOf job (jobInputOf clock chunks (.eof elapsed false))
      = workerAfter job clock chunks := rfl
  rw [runJob_of_sound job rfl (input ▸ handler) rfl (input ▸ sound),
    StoredResponse.execute_append, StoredResponse.execute_append,
    StoredResponse.execute_calls, input]
  show ((workerAfter job clock chunks).run.closeOpenItems job false).run.outputItems job false = _
  rw [closing]

/-! ## What the worker makes of a stream -/

/-- The text a chunk has for the worker. -/
def Chunk.spoken : Chunk → List String
  | .text delta | .reasoning delta => [delta]
  | _ => []

/-- The words of a run and the index of its message. -/
def JobRun.words (run : JobRun) : List String × Option ℕ := (run.textParts, run.messageOutputIndex)

theorem JobRun.closeToolItem_words (run : JobRun) (ref : ℕ) :
    (run.closeToolItem job ref).run.words = run.words := by
  obtain ⟨tools, _, closed⟩ := @closeToolItem_tools job run ref
  rw [closed]
  rfl

theorem JobRun.addFragment_words (run : JobRun) (outputIndex : ℕ)
    (callId name fragment nameSpace : String) (sourceIndex : ℤ) :
    (run.addFragment outputIndex callId name fragment nameSpace sourceIndex).1.words
      = run.words := by
  unfold addFragment
  dsimp only
  split
  · rfl
  · split <;> rfl

theorem JobRun.chargeToolCall_words (run : JobRun) (ledger : BudgetLedger) (index : ℕ)
    (callId name fragment nameSpace : String) (sourceIndex : Option ℤ) :
    (run.chargeToolCall job ledger index callId name fragment nameSpace sourceIndex).run.words
      = run.words := by
  unfold chargeToolCall
  dsimp only
  repeat' split
  all_goals first
    | rfl
    | exact addFragment_words ..
    | exact (closeToolItem_words _ _).trans (addFragment_words ..)

/-- The message of the worker is all that was said or thought. -/
structure Spoken (chunks : List Chunk) (run : JobRun) : Prop where
  text : run.textParts = chunks.flatMap Chunk.spoken
  message : run.messageOutputIndex.isSome = !(chunks.flatMap Chunk.spoken).isEmpty

theorem Spoken.step {chunks : List Chunk} (h : Spoken chunks run) {c : Chunk} (wire : c.Wire)
    {ledger : BudgetLedger} {index : ℕ}
    (within : (run.chargeChunk job ledger index (.unified c)).halt = none) :
    Spoken (chunks ++ [c]) (run.chargeChunk job ledger index (.unified c)).run := by
  have said : (chunks ++ [c]).flatMap Chunk.spoken = chunks.flatMap Chunk.spoken ++ c.spoken := by
    rw [List.flatMap_append, List.flatMap_singleton]
  have silent : c.spoken = [] → ∀ after : JobRun, after.words = run.words →
      Spoken (chunks ++ [c]) after := by
    intro nothing after same
    rw [nothing, List.append_nil] at said
    have text : after.textParts = run.textParts := congrArg Prod.fst same
    have message : after.messageOutputIndex = run.messageOutputIndex := congrArg Prod.snd same
    exact ⟨by rw [text, h.text, said], by rw [message, h.message, said]⟩
  have aloud : ∀ delta, delta ≠ "" → c.spoken = [delta] →
      (run.chargeText job ledger delta (JobRun.estimateTokens delta)).halt = none →
      Spoken (chunks ++ [c])
        (run.chargeText job ledger delta (JobRun.estimateTokens delta)).run := by
    intro delta nonempty words within
    rw [JobRun.chargeText_run nonempty within]
    rw [words] at said
    exact ⟨by rw [said, ← h.text], by simp [said]⟩
  cases c with
  | text delta => exact aloud delta wire rfl within
  | reasoning delta => exact aloud delta wire rfl within
  | rawOutputItem event item => exact silent rfl _ rfl
  | finish => exact silent rfl _ rfl
  | toolCall callId name arguments nameSpace sourceIndex =>
      exact silent rfl _ (JobRun.chargeToolCall_words ..)
  | toolCallDone callId arguments sourceIndex =>
      obtain ⟨rfl, _⟩ := wire
      obtain ⟨tools, _, settled⟩ :=
        @JobRun.settleToolCall_tools job run ledger callId sourceIndex
      refine silent rfl _ ?_
      show (run.settleToolCall job ledger callId "" sourceIndex).run.words = _
      rw [settled]
      rfl

theorem spoken_run (clock : ℕ → ℚ) {chunks : List Chunk} (wire : AllWire chunks)
    (running : (workerAfter job clock chunks).halt = none) :
    Spoken chunks (workerAfter job clock chunks).run := by
  induction chunks using List.reverseRecOn with
  | nil => exact ⟨rfl, rfl⟩
  | append_singleton chunks c ih =>
      rw [workerAfter_snoc] at running ⊢
      obtain ⟨earlier, within, charged⟩ := turn_of_running running
      have before := ih (fun c' mem => wire c' (List.mem_append_left _ mem)) earlier
      rw [charged]
      exact before.step (wire c (List.mem_append_right _ (List.mem_singleton_self c))) within

/-! ## What the pipeline makes of a stream -/

/-- An item passed through. -/
def Chunk.isRaw : Chunk → Bool
  | .rawOutputItem _ _ => true
  | _ => false

/-- The message of the pipeline is all that was said, and the items of other origin are those
passed through, which carry an index of their own. -/
structure Kept (chunks : List Chunk) (p : Pipeline) : Prop where
  special : p.specialCalls = .empty
  calls : p.tools.Holds fun _ => True
  text : p.messageText = chunks.flatMap Chunk.messageText
  passed : chunks.any Chunk.isRaw = true →
    ∃ entry ∈ p.synthesizedItems, (entry.2.get "output_index").isSome = true
  own : chunks.any Chunk.isRaw = false → p.synthesizedItems = []

theorem Kept.of_ledger {chunks : List Chunk} (h : Kept chunks p) {c : Chunk} {q : Pipeline}
    (other : c.isRaw = false) (ledger : q.ledger = p.ledger)
    (calls : q.tools.Holds fun _ => True)
    (text : q.messageText = p.messageText ++ c.messageText) : Kept (chunks ++ [c]) q := by
  have special : q.specialCalls = p.specialCalls := congrArg Prod.fst ledger
  have others : q.synthesizedItems = p.synthesizedItems :=
    congrArg (fun ledger => ledger.2.2) ledger
  have raw : (chunks ++ [c]).any Chunk.isRaw = chunks.any Chunk.isRaw := by
    simp [other]
  refine ⟨special.trans h.special, calls, ?_, ?_, ?_⟩
  · rw [text, h.text, List.flatMap_append, List.flatMap_singleton]
  · rw [raw, others]
    exact h.passed
  · rw [raw, others]
    exact h.own

theorem Kept.step {chunks : List Chunk} (h : Kept chunks p) (alone : env.multiAgent = none)
    (unsearched : env.toolSearchEnabled = false) {c : Chunk} (wire : c.Wire) :
    Kept (chunks ++ [c]) (p.translateChunk env c).pipeline := by
  cases c with
  | text delta =>
      refine h.of_ledger rfl (translateText_ledger delta) ?_
        (@translateText_unnoticed env p "" delta).texts
      exact (@translateChunk_calls env _ h.calls (.text delta)).1
  | reasoning delta =>
      refine h.of_ledger rfl (translateReasoning_ledger delta) ?_
        (@translateReasoning_unnoticed env p "" delta).texts
      exact (@translateChunk_calls env _ h.calls (.reasoning delta)).1
  | finish => exact h.of_ledger rfl rfl h.calls (List.append_nil _).symm
  | rawOutputItem event item =>
      have others : (p.translateRaw event item).1.synthesizedItems
          = p.synthesizedItems.filter (·.1 ≠ p.outputIndex)
            ++ [(p.outputIndex, item.put "output_index" (.int p.outputIndex))] := by
        unfold Pipeline.translateRaw
        dsimp only
        split <;> rfl
      have rest : (p.translateRaw event item).1.specialCalls = p.specialCalls
          ∧ (p.translateRaw event item).1.messageText = p.messageText := by
        unfold Pipeline.translateRaw
        dsimp only
        split <;> exact ⟨rfl, rfl⟩
      refine ⟨rest.1.trans h.special, ?_, ?_, fun _ => ?_, fun none => ?_⟩
      · exact (@translateChunk_calls env _ h.calls (.rawOutputItem event item)).1
      · rw [List.flatMap_append, ← h.text]
        exact rest.2.trans (List.append_nil _).symm
      · refine ⟨_, others ▸ List.mem_append_right _ (List.mem_singleton_self _), ?_⟩
        dsimp only
        rw [Fields.get_put_self]
        rfl
      · simp [Chunk.isRaw] at none
  | toolCall callId name arguments nameSpace sourceIndex =>
      have ordinary : Pipeline.specialKind env name nameSpace = none := by
        simp [Pipeline.specialKind, alone, unsearched]
      obtain ⟨_, tools, index, _, held, same⟩ := translateToolCall_spec callId name
        arguments nameSpace sourceIndex h.calls (fun _ _ => trivial) (fun _ _ => trivial)
        (fun _ _ => trivial) trivial
      rw [Pipeline.translateChunk_of_ordinary ordinary, same]
      exact h.of_ledger rfl rfl held (List.append_nil _).symm
  | toolCallDone callId arguments sourceIndex =>
      obtain ⟨rfl, _⟩ := wire
      obtain ⟨tools, failed, bare, closed⟩ :=
        @translateToolCallDone_tools env p callId sourceIndex
      rw [Pipeline.translateChunk_of_ordinary_done (by rw [h.special]; rfl), closed]
      exact h.of_ledger rfl rfl (h.calls.of_bare bare fun _ => Iff.rfl) (List.append_nil _).symm

theorem kept_run (alone : env.multiAgent = none) (unsearched : env.toolSearchEnabled = false)
    {chunks : List Chunk} (wire : AllWire chunks) :
    Kept chunks (pipelineAfter env (startLoop env (.fresh env)).pipeline chunks) := by
  induction chunks using List.reverseRecOn with
  | nil => exact ⟨rfl, .fresh _ env.responseId, rfl, nofun, fun _ => rfl⟩
  | append_singleton chunks c ih =>
      rw [pipelineAfter_snoc]
      have before := ih fun c' mem => wire c' (List.mem_append_left _ mem)
      exact before.step alone unsearched
        (wire c (List.mem_append_right _ (List.mem_singleton_self c)))

/-! ## The empty reasoning item -/

/-- The live message has index one, that of the worker has index zero. -/
structure Ahead (env : Env) (p : Pipeline) (run : JobRun) : Prop where
  speaking : p.openMessage = some ⟨makeMessageItemId env.responseId 1, 1⟩
  message : p.messageItem = some ⟨makeMessageItemId env.responseId 1, 1⟩
  worker : run.messageOutputIndex = some 0

theorem Ahead.step (h : Ahead env p run) {c : Chunk} (wire : c.Wire)
    {ledger : BudgetLedger} {index : ℕ}
    (within : (run.chargeChunk job ledger index (.unified c)).halt = none) :
    Ahead env (p.translateChunk env c).pipeline
      (run.chargeChunk job ledger index (.unified c)).run := by
  have live : (p.translateChunk env c).pipeline.openMessage = p.openMessage
      ∧ (p.translateChunk env c).pipeline.messageItem = p.messageItem := by
    cases text : c.isText with
    | false => exact translateChunk_message text
    | true =>
        cases c with
        | text delta =>
            simp [Pipeline.translateChunk, Pipeline.translateText, h.speaking]
        | _ => cases text
  have worker : (run.chargeChunk job ledger index (.unified c)).run.messageOutputIndex
      = run.messageOutputIndex := by
    have aloud : ∀ delta, delta ≠ "" →
        (run.chargeText job ledger delta (JobRun.estimateTokens delta)).halt = none →
        (run.chargeText job ledger delta (JobRun.estimateTokens delta)).run.messageOutputIndex
          = run.messageOutputIndex := by
      intro delta nonempty within
      rw [JobRun.chargeText_run nonempty within, h.worker]
      rfl
    cases c with
    | text delta => exact aloud delta wire within
    | reasoning delta => exact aloud delta wire within
    | rawOutputItem event item | finish => rfl
    | toolCall callId name arguments nameSpace sourceIndex =>
        exact congrArg Prod.snd (JobRun.chargeToolCall_words ..)
    | toolCallDone callId arguments sourceIndex =>
        obtain ⟨rfl, _⟩ := wire
        obtain ⟨tools, _, settled⟩ :=
          @JobRun.settleToolCall_tools job run ledger callId sourceIndex
        show (run.settleToolCall job ledger callId "" sourceIndex).run.messageOutputIndex = _
        rw [settled]
  exact ⟨live.1.trans h.speaking, live.2.trans h.message, worker.trans h.worker⟩

theorem outputIndex_of_quiet (alone : env.multiAgent = none)
    (unsearched : env.toolSearchEnabled = false) {chunks : List Chunk} (wire : AllWire chunks)
    (shared : ∀ c ∈ chunks, c.isShared = true) (quiet : chunks.all (Chunk.isQuiet env) = true)
    (silent : chunks.any Chunk.isText = false) :
    (pipelineAfter env (startLoop env (.fresh env)).pipeline chunks).outputIndex = 0 := by
  induction chunks using List.reverseRecOn with
  | nil => rfl
  | append_singleton chunks c ih =>
      have earlier : AllWire chunks := fun c' mem => wire c' (List.mem_append_left _ mem)
      have last : c ∈ chunks ++ [c] := List.mem_append_right _ (List.mem_singleton_self c)
      rw [List.all_append, Bool.and_eq_true] at quiet
      rw [List.any_append, Bool.or_eq_false_iff] at silent
      have before := ih earlier (fun c' mem => shared c' (List.mem_append_left _ mem)) quiet.1
        silent.1
      have special := (kept_run alone unsearched earlier).special
      rw [pipelineAfter_snoc, ← before]
      have kind := shared c last
      cases c with
      | text delta => simp [Chunk.isText] at silent
      | reasoning delta => cases kind
      | rawOutputItem event item => cases kind
      | finish => rfl
      | toolCall callId name arguments nameSpace sourceIndex =>
          simp [Chunk.isQuiet, Chunk.isCall, Pipeline.specialKind, alone, unsearched] at quiet
      | toolCallDone callId arguments sourceIndex =>
          obtain ⟨rfl, _⟩ := wire _ last
          obtain ⟨tools, failed, _, closed⟩ := @translateToolCallDone_tools env
            (pipelineAfter env (startLoop env (.fresh env)).pipeline chunks) callId sourceIndex
          rw [Pipeline.translateChunk_of_ordinary_done (by rw [special]; rfl), closed]

theorem Mirrors.ahead (h : Mirrors env p run) (emits : env.emitEmptyReasoning = true)
    (index : p.outputIndex = 0) (silent : p.messageItem.isSome = false)
    (uncalled : p.tools.refs.isEmpty = true) {delta : String} (nonempty : delta ≠ "")
    {ledger : BudgetLedger} {n : ℕ}
    (within : (run.chargeChunk job ledger n (.unified (.text delta))).halt = none) :
    Ahead env (p.translateChunk env (.text delta)).pipeline
      (run.chargeChunk job ledger n (.unified (.text delta))).run := by
  have unspoken : p.messageItem = none := Option.not_isSome_iff_eq_none.mp (by simp [silent])
  have mute : p.openMessage = none := h.speaking.trans unspoken
  have listed : p.tools.listAll.isEmpty = true := h.presented.listAll_isEmpty.trans uncalled
  have worker : run.messageOutputIndex = none := by
    have none := h.message.symm.trans unspoken
    exact Option.map_eq_none_iff.mp none
  have closed : p.closeReasoning false = (p, []) := by
    unfold Pipeline.closeReasoning
    rw [h.unthinking]
  have ensured : (p.ensureReasoningLifecycle env).1.outputIndex = 1 := by
    simp [Pipeline.ensureReasoningLifecycle, emits, h.unthinking, h.thoughtless, mute, listed,
      Pipeline.openReasoningItem, Pipeline.closeReasoning, Pipeline.bumpIndex, index]
  have item : (p.translateText env delta).1.openMessage
        = some ⟨makeMessageItemId env.responseId 1, 1⟩
      ∧ (p.translateText env delta).1.messageItem
        = some ⟨makeMessageItemId env.responseId 1, 1⟩ := by
    simp [Pipeline.translateText, mute, Pipeline.openMessageItem, closed, ensured]
  refine ⟨item.1, item.2, ?_⟩
  show (run.chargeText job ledger delta (JobRun.estimateTokens delta)).run.messageOutputIndex = _
  rw [JobRun.chargeText_run nonempty within, worker, h.index, index]
  rfl

/-- **With text first, the live message is one index ahead**, if the pipeline writes an empty
reasoning item. -/
theorem ahead_run (same : job.responseId = env.responseId) (alone : env.multiAgent = none)
    (unsearched : env.toolSearchEnabled = false) (emits : env.emitEmptyReasoning = true)
    (clock : ℕ → ℚ) {chunks : List Chunk} (wire : AllWire chunks)
    (shared : ∀ c ∈ chunks, c.isShared = true) (first : textFirst env chunks = true)
    (running : (workerAfter job clock chunks).halt = none) :
    Ahead env (pipelineAfter env (startLoop env (.fresh env)).pipeline chunks)
      (workerAfter job clock chunks).run := by
  induction chunks using List.reverseRecOn with
  | nil => cases first
  | append_singleton chunks c ih =>
      have last : c ∈ chunks ++ [c] := List.mem_append_right _ (List.mem_singleton_self c)
      have earlierWire : AllWire chunks := fun c' mem => wire c' (List.mem_append_left _ mem)
      have earlierShared : ∀ c' ∈ chunks, c'.isShared = true :=
        fun c' mem => shared c' (List.mem_append_left _ mem)
      rw [workerAfter_snoc] at running ⊢
      obtain ⟨earlier, within, charged⟩ := turn_of_running running
      rw [pipelineAfter_snoc, charged]
      cases already : textFirst env chunks with
      | true =>
          exact (ih earlierWire earlierShared already earlier).step (wire c last) within
      | false =>
          -- this is the first text, and nothing but terminators came before it
          rw [textFirst_snoc, already, Bool.false_or, Bool.and_eq_true] at first
          obtain ⟨text, quiet⟩ := first
          have silent : chunks.any Chunk.isText = false := by
            rw [← textFirst_of_quiet quiet, already]
          have before := mirrors_run same alone unsearched clock earlierWire earlierShared
            (fun _ => already) earlier
          have index := outputIndex_of_quiet alone unsearched earlierWire earlierShared quiet
            silent
          have uncalled : chunks.any (Chunk.isCall env) = false := by
            rw [List.any_eq_false]
            intro c' mem call
            have still := List.all_eq_true.mp quiet c' mem
            simp [Chunk.isQuiet, call] at still
          have spoke := (remembers_pipelineAfter env chunks).spoke
          have refs := (refs_pipelineAfter env chunks).2
          rw [silent] at spoke
          rw [uncalled] at refs
          generalize pipelineAfter env (startLoop env (.fresh env)).pipeline chunks = q
            at before index spoke refs ⊢
          cases c with
          | text delta => exact before.ahead emits index spoke refs (wire _ last) within
          | _ => cases text

/-! ## The condition -/

theorem mem_jobOutput {incomplete : Bool} {item : Fields} :
    item ∈ run.outputItems job incomplete
      ↔ ∃ index, (index, item) ∈ run.collectedItems job incomplete := by
  simp [JobRun.outputItems, List.mem_map, List.mem_mergeSort]

theorem mem_liveOutput {item : Fields} :
    item ∈ p.outputItems ↔ ∃ index, (index, item) ∈ p.collectedItems := by
  simp [Pipeline.outputItems, List.mem_map, List.mem_mergeSort]

theorem get_toolOutput (acc : ToolCallAccumulator) :
    (Pipeline.toolOutput acc).get "content" = none := by
  unfold Pipeline.toolOutput functionCallItem namespaceField
  split <;> rfl

theorem get_toolItem (acc : ToolCallAccumulator) :
    (JobRun.toolItem job acc).get "output_index" = none := by
  unfold JobRun.toolItem namespaceField
  by_cases bare : acc.nameSpace = ""
  · rw [if_pos bare]
    rfl
  · rw [if_neg bare]
    rfl

theorem get_output_index_of_job {incomplete : Bool} {item : Fields}
    (mem : item ∈ run.outputItems job incomplete) : item.get "output_index" = none := by
  obtain ⟨index, inside⟩ := mem_jobOutput.mp mem
  rcases List.mem_append.mp inside with message | call
  · obtain ⟨_, _, same⟩ := List.mem_map.mp message
    cases same
    rfl
  · obtain ⟨acc, _, same⟩ := List.mem_map.mp call
    cases same
    exact get_toolItem acc

theorem message_of_content (own : p.synthesizedItems = []) {item : Fields}
    (mem : item ∈ p.outputItems) (content : item.get "content" ≠ none) :
    ∃ message, p.messageItem = some message ∧ item = p.messageOutput message := by
  obtain ⟨index, inside⟩ := mem_liveOutput.mp mem
  unfold Pipeline.collectedItems at inside
  rw [own, List.append_nil] at inside
  rcases List.mem_append.mp inside with spoken | call
  · obtain ⟨message, held, same⟩ := List.mem_map.mp spoken
    cases same
    exact ⟨message, Option.mem_toList.mp held, rfl⟩
  · obtain ⟨acc, _, same⟩ := List.mem_map.mp call
    cases same
    exact absurd (get_toolOutput acc) content

theorem length_spoken {chunks : List Chunk} (wire : AllWire chunks) :
    (String.join (chunks.flatMap Chunk.messageText)).length
        ≤ (String.join (chunks.flatMap Chunk.spoken)).length
      ∧ ((∃ c ∈ chunks, c.thought ≠ none) →
        (String.join (chunks.flatMap Chunk.messageText)).length
          < (String.join (chunks.flatMap Chunk.spoken)).length) := by
  induction chunks with
  | nil => exact ⟨Nat.le_refl _, nofun⟩
  | cons c rest ih =>
      obtain ⟨here, later⟩ := List.forall_mem_cons.mp wire
      obtain ⟨le, lt⟩ := ih later
      simp only [List.flatMap_cons, String.join_append, String.length_append,
        List.exists_mem_cons_iff]
      have same : c.thought = none → c.messageText = c.spoken := by
        intro plain
        cases c <;> first | rfl | cases plain
      cases thought : c.thought with
      | none =>
          rw [same thought]
          refine ⟨by omega, fun some => ?_⟩
          have := lt (by simpa using some)
          omega
      | some delta =>
          cases c with
          | reasoning delta =>
              have long : 0 < delta.length := by
                rw [Nat.pos_iff_ne_zero, Ne, String.length_eq_zero_iff]
                exact here
              simp only [Chunk.messageText, Chunk.spoken, String.join_nil, String.join_cons,
                String.length_append, String.length_empty]
              exact ⟨by omega, fun _ => by omega⟩
          | _ => cases thought

theorem messageItem_mem {incomplete : Bool} (spoke : run.messageOutputIndex.isSome = true) :
    run.messageItem job incomplete ∈ run.outputItems job incomplete := by
  obtain ⟨index, held⟩ := Option.isSome_iff_exists.mp spoke
  refine mem_jobOutput.mpr ⟨index, List.mem_append_left _ ?_⟩
  exact List.mem_map.mpr ⟨index, Option.mem_toList.mpr held, rfl⟩

theorem message_of_agree {incomplete : Bool} (own : p.synthesizedItems = [])
    (agree : List.Forall₂ SameOutput (run.outputItems job incomplete) p.outputItems)
    (spoke : run.messageOutputIndex.isSome = true) :
    ∃ message, p.messageItem = some message
      ∧ makeMessageItemId job.responseId (run.messageOutputIndex.getD 0) = message.id
      ∧ String.join run.textParts = String.join p.messageText := by
  obtain ⟨item, mem, same⟩ := (exists_partner agree).1 _ (messageItem_mem spoke)
  have content := same "content" (by decide)
  have hasContent : item.get "content" ≠ none := by
    rw [← content]
    exact nofun
  obtain ⟨message, held, rfl⟩ := message_of_content own mem hasContent
  have id := same "id" (by decide)
  refine ⟨message, held, ?_, ?_⟩
  · simpa [JobRun.messageItem, Pipeline.messageOutput, Fields.get] using id
  · have parts : some (Json.arr [textPart (String.join run.textParts)])
        = some (Json.arr [textPart (String.join p.messageText)]) := content
    simpa [textPart] using parts

theorem makeMessageItemId_ne (responseId : String) :
    makeMessageItemId responseId 0 ≠ makeMessageItemId responseId 1 := by
  intro same
  have ends : ("msg_" ++ responseId ++ "_").toList ++ "0".toList
      = ("msg_" ++ responseId ++ "_").toList ++ "1".toList := by
    rw [← String.toList_append, ← String.toList_append]
    exact congrArg String.toList same
  exact absurd (List.append_cancel_left ends) (by decide)

/-- **When the background output is the live one**: the chunks are all of the kinds both
readers know, neither reasoning nor items passed through, and no empty reasoning item is
written before the first text.  For every stream of the adapter that stays below the ceilings,
with the special calls off. -/
theorem background_output_iff (env : Env) (reliable : Reliable env)
    (alone : env.multiAgent = none) (unsearched : env.toolSearchEnabled = false)
    (job : JobEnv) (sameId : job.responseId = env.responseId) (sameLoads : job.loads = env.loads)
    (upstream : AdapterEnv) (stream : List Bytes) (arrivals : List Arrival)
    (read : chunksOf arrivals = (iterChunks upstream stream).yielded) (ending : Ending)
    (rows : StoredResponse) (clock : ℕ → ℚ) (elapsed : ℚ)
    (within : ∀ reason,
      (streamOf job (jobInputOf clock (chunksOf arrivals) (.eof elapsed false))).terminal job
        (.eof elapsed false) ≠ .tripped reason) :
    List.Forall₂ SameOutput
        (rows.execute
          (runJob job (jobInputOf clock (chunksOf arrivals) (.eof elapsed false))).2).output
        (Responses.run env (.fresh env) arrivals ending).pipeline.outputItems
      ↔ (∀ c ∈ chunksOf arrivals, c.isShared = true)
        ∧ (env.emitEmptyReasoning = true → textFirst env (chunksOf arrivals) = false) := by
  have wire : AllWire (chunksOf arrivals) := read ▸ iterChunks_wire upstream stream
  obtain ⟨running, tools, closed, marks, output⟩ := runJob_output
    (fun text message => sameLoads ▸ reliable.loads text message) rows clock _ elapsed within
  rw [output]
  have content := run_content reliable arrivals ending
  have kept := kept_run alone unsearched wire
  have spoken := spoken_run clock wire running
  generalize (Responses.run env (.fresh env) arrivals ending).pipeline = q at content ⊢
  constructor
  · intro agree
    have own : (chunksOf arrivals).any Chunk.isRaw = false := by
      by_contra passed
      obtain ⟨entry, mem, index⟩ := kept.passed (by simpa using passed)
      have listed : entry.2 ∈ q.outputItems := by
        refine mem_liveOutput.mpr ⟨entry.1, List.mem_append_right _ ?_⟩
        rw [content.synthesizedItems]
        exact mem
      obtain ⟨item, inside, same⟩ := (exists_partner agree).2 _ listed
      rw [← same "output_index" (by decide), get_output_index_of_job inside] at index
      cases index
    have alien : q.synthesizedItems = [] := content.synthesizedItems.trans (kept.own own)
    have unthinking : ∀ c ∈ chunksOf arrivals, c.thought = none := by
      by_contra thinks
      push Not at thinks
      have longer := (length_spoken wire).2 thinks
      have spoke : (workerAfter job clock (chunksOf arrivals)).run.messageOutputIndex.isSome
          = true := by
        rw [spoken.message]
        cases none : (chunksOf arrivals).flatMap Chunk.spoken with
        | nil => simp [none] at longer
        | cons _ _ => rfl
      obtain ⟨message, _, _, text⟩ := message_of_agree alien agree spoke
      rw [content.messageText, kept.text, spoken.text] at text
      rw [text] at longer
      exact absurd longer (Nat.lt_irrefl _)
    have shared : ∀ c ∈ chunksOf arrivals, c.isShared = true := by
      intro c mem
      have raw := List.any_eq_false.mp own c mem
      have thought := unthinking c mem
      cases c <;> first | rfl | exact absurd rfl raw | cases thought
    refine ⟨shared, fun emits => ?_⟩
    by_contra first
    have ahead := ahead_run sameId alone unsearched emits clock wire shared
      (by simpa using first) running
    obtain ⟨message, held, id, _⟩ := message_of_agree alien agree (by
      show (workerAfter job clock (chunksOf arrivals)).run.messageOutputIndex.isSome = true
      rw [ahead.worker]
      rfl)
    rw [content.messageItem, ahead.message] at held
    cases held
    dsimp only at id
    rw [ahead.worker, sameId] at id
    exact makeMessageItemId_ne env.responseId id
  · rintro ⟨shared, skips⟩
    have mirrors := mirrors_run sameId alone unsearched clock wire shared skips running
    have after : SameParts env q { (workerAfter job clock (chunksOf arrivals)).run with
        tools := tools, messageDone := closed } :=
      { tools := marks.trans (mirrors.tools.trans content.tools.symm)
        presented := mirrors.presented.of_bare content.tools presented_bare
        message := content.messageItem.trans mirrors.message
        text := mirrors.text.trans content.messageText.symm
        others := content.synthesizedItems.trans mirrors.others }
    exact after.outputItems sameId false

/-- A call closed with empty arguments agrees in both. -/
theorem rejectedArrivals_agree :
    List.Forall₂ SameOutput
      ((StoredResponse.enqueued "r").execute (runJob plainJobEnv
        (jobInputOf (fun _ => 0) (chunksOf rejectedArrivals) (.eof 0 false))).2).output
      (Responses.run plainEnv (.fresh plainEnv) rejectedArrivals
        .upstreamEnd).pipeline.outputItems := by
  have handler : (streamOf plainJobEnv (jobInputOf (fun _ => 0) (chunksOf rejectedArrivals)
      (.eof 0 false))).terminal plainJobEnv (.eof 0 false) = .completed 0 := by
    decide +kernel
  refine (background_output_iff plainEnv plainEnv_reliable rfl rfl plainJobEnv rfl rfl
    nativeUpstream rejectedStream rejectedArrivals (by decide +kernel) .upstreamEnd
    (.enqueued "r") (fun _ => 0) 0 fun reason => ?_).mpr ⟨by decide, nofun⟩
  rw [handler]
  exact nofun

/-- A native upstream that thinks one word. -/
def thinkingUpstream : AdapterEnv where
  dialect := .responses
  loads := fun text =>
    if text = "\x7b\"delta\":\"x\"\x7d" then .value (.obj [("delta", .str "x")])
    else plainEnv.loads text
  intOfText := fun _ => none
  intOfFloat := fun _ => .ok none
  strOf := fun _ => ""

/-- The word, and the end. -/
def thinkingStream : List Bytes :=
  [bytesOf "event: response.reasoning_summary_text.delta\ndata: \x7b\"delta\":\"x\"\x7d\n\n",
    bytesOf "event: response.completed\ndata: \x7b\x7d\n\n"]

/-- The worker persists a message where the live run has none. -/
theorem thinkingStream_disagrees :
    ¬ ∀ (env : Env) (_ : Reliable env) (_ : env.multiAgent = none)
      (_ : env.toolSearchEnabled = false) (job : JobEnv)
      (_ : job.responseId = env.responseId) (_ : job.loads = env.loads)
      (upstream : AdapterEnv) (stream : List Bytes) (arrivals : List Arrival)
      (_ : chunksOf arrivals = (iterChunks upstream stream).yielded)
      (_ : (chunksOf arrivals).getLast? = some .finish) (rows : StoredResponse)
      (clock : ℕ → ℚ) (elapsed : ℚ)
      (_ : ∀ reason,
        (streamOf job (jobInputOf clock (chunksOf arrivals) (.eof elapsed false))).terminal job
          (.eof elapsed false) ≠ .tripped reason),
      List.Forall₂ SameOutput
        (rows.execute
          (runJob job (jobInputOf clock (chunksOf arrivals) (.eof elapsed false))).2).output
        (Responses.run env (.fresh env) arrivals .upstreamEnd).pipeline.outputItems := by
  intro all
  have handler : (streamOf plainJobEnv (jobInputOf (fun _ => 0) [.reasoning "x", .finish]
      (.eof 0 false))).terminal plainJobEnv (.eof 0 false) = .completed 1 := by
    decide +kernel
  have within : ∀ reason, (streamOf plainJobEnv (jobInputOf (fun _ => 0)
      [.reasoning "x", .finish] (.eof 0 false))).terminal plainJobEnv (.eof 0 false)
        ≠ .tripped reason := by
    intro reason
    rw [handler]
    exact nofun
  have agree := all plainEnv plainEnv_reliable rfl rfl plainJobEnv rfl rfl thinkingUpstream
    thinkingStream [.chunk (.reasoning "x"), .chunk .finish] (by decide +kernel) rfl
    (.enqueued "r") (fun _ => 0) 0 within
  obtain ⟨_, tools, closed, _, output⟩ := runJob_output plainEnv_reliable.loads
    (.enqueued "r") (fun _ => 0) [.reasoning "x", .finish] 0 within
  have same : List.Forall₂ SameOutput _ _ := output ▸ agree
  have spoke : (workerAfter plainJobEnv (fun _ => 0)
      [.reasoning "x", .finish]).run.messageOutputIndex.isSome = true := by
    decide +kernel
  obtain ⟨message, held, _⟩ := message_of_agree (by decide +kernel) same spoke
  have unspoken : (Responses.run plainEnv (.fresh plainEnv)
      [.chunk (.reasoning "x"), .chunk .finish] .upstreamEnd).pipeline.messageItem = none := by
    decide +kernel
  rw [unspoken] at held
  cases held

end Zhongzhuan.Responses
