import Zhongzhuan.Responses.ChunkAdapter

/-!
# What a Chat Completions upstream says

The adapter reads a frame and keeps its books in the same loops.  Here the two are apart:
`frameSignals` is what a frame says, whatever the adapter has seen before, and `accept` is
what the adapter does with one such signal.  `frames_eq_accept` puts them together again, so
that a statement about an upstream can speak of the deltas it sent.
-/

namespace Zhongzhuan.Responses

open Kit Protocol

/-- One thing a Chat Completions upstream says. -/
inductive Signal
  | text (delta : String)
  | reasoning (delta : String)
  /-- An entry of `delta.tool_calls`. -/
  | call (index : ℤ) (callId name arguments : String)
  /-- A `finish_reason`, or the sentinel. -/
  | stop
deriving DecidableEq, Repr

/-- What the adapter does with a signal. -/
def Adapter.accept (a : Adapter) : Signal → Adapter × List Chunk
  | .text delta => (a, [.text delta])
  | .reasoning delta => (a, [.reasoning delta])
  | .call index callId name arguments =>
    (a.trackTool index callId, [.toolCall callId name arguments "" (some index)])
  | .stop => a.finish

/-- What the adapter does with signals one after the other. -/
def Adapter.acceptAll (a : Adapter) : List Signal → Adapter × List Chunk
  | [] => (a, [])
  | signal :: rest =>
    let done := a.accept signal
    let more := done.1.acceptAll rest
    (more.1, done.2 ++ more.2)

theorem Adapter.acceptAll_append (a : Adapter) (first rest : List Signal) :
    a.acceptAll (first ++ rest)
      = (((a.acceptAll first).1.acceptAll rest).1,
          (a.acceptAll first).2 ++ ((a.acceptAll first).1.acceptAll rest).2) := by
  induction first generalizing a with
  | nil => rfl
  | cons signal first ih =>
      rw [List.cons_append, acceptAll, ih]
      simp only [acceptAll, List.append_assoc]

/-! ## What finishing yields -/

theorem closeTools_finished (a : Adapter) (indexes : List ℤ) :
    (a.closeTools indexes).1.finished = a.finished := by
  induction indexes generalizing a with
  | nil => rfl
  | cons i rest ih =>
      show ((a.closeTool i).1.closeTools rest).1.finished = a.finished
      rw [ih]
      unfold Adapter.closeTool
      split
      · rfl
      · split <;> rfl

theorem closeTools_kinds (a : Adapter) (indexes : List ℤ) :
    ∀ c ∈ (a.closeTools indexes).2, ∃ id i, c = .toolCallDone id "" (some i) := by
  induction indexes generalizing a with
  | nil => exact nofun
  | cons i rest ih =>
      intro c mem
      rcases List.mem_append.mp mem with now | later
      · unfold Adapter.closeTool at now
        split at now
        · cases now
        · split at now
          · cases now
          case h_2 id _ => exact ⟨id, i, List.mem_singleton.mp now⟩
      · exact ih _ c later

theorem finish_kinds (a : Adapter) :
    ∀ c ∈ a.finish.2, c = .finish ∨ ∃ id i, c = .toolCallDone id "" (some i) := by
  intro c mem
  unfold Adapter.finish at mem
  split at mem
  · cases mem
  · rcases List.mem_append.mp mem with inside | last
    · exact .inr (closeTools_kinds _ _ c inside)
    · exact .inl (List.mem_singleton.mp last)

/-! ## Reading a frame -/

/-- The entries of `delta.tool_calls`. -/
def entrySignals (env : AdapterEnv) : List Json → Except String (List Signal)
  | [] => .ok []
  | .obj entry :: rest => do
    let index ← env.intOr (Fields.get entry "index")
    let function := fieldsOf (Fields.get entry "function")
    let more ← entrySignals env rest
    return .call index (env.strOr (Fields.get entry "id")) (env.strOr (function.get "name"))
      (env.strOr (function.get "arguments")) :: more
  | _ :: rest => entrySignals env rest

/-- The `delta` of a choice. -/
def deltaSignals (env : AdapterEnv) (delta : Fields) : Except String (List Signal) := do
  let text := (Adapter.nonemptyText delta "content").toList.map Signal.text
  let reasoning := (Adapter.nonemptyText delta "reasoning_content").toList.map Signal.reasoning
  let calls ← entrySignals env (itemsOf (delta.get "tool_calls"))
  return text ++ reasoning ++ calls

/-- The choices of a payload. -/
def choiceSignals (env : AdapterEnv) : List Json → Except String (List Signal)
  | [] => .ok []
  | .obj choice :: rest => do
    let read ← deltaSignals env (fieldsOf (Fields.get choice "delta"))
    let stopped :=
      if ((Fields.get choice "finish_reason").getD .null).truthy then [Signal.stop] else []
    let more ← choiceSignals env rest
    return read ++ stopped ++ more
  | _ :: rest => choiceSignals env rest

/-- The signals of a payload, and the usage it reports. -/
def payloadSignals (env : AdapterEnv) (payload : Fields) :
    Except String (List Signal × Fields) := do
  let read ← choiceSignals env (itemsOf (payload.get "choices"))
  let norm ← Adapter.reportedUsage env payload
  return (read, norm)

/-- The signals of a frame, and the usage it reports. -/
def frameSignals (env : AdapterEnv) (frame : SseFrame) :
    Except String (List Signal × Fields) :=
  if Adapter.isDoneSentinel frame then .ok ([.stop], [])
  else do
    match ← env.loadsObject frame.data with
    | none => return ([], [])
    | some payload => payloadSignals env payload

/-! ## The adapter accepts what it reads -/

variable (env : AdapterEnv)

theorem openaiToolCalls_eq (a : Adapter) (entries : List Json) :
    a.openaiToolCalls env entries = (entrySignals env entries).map a.acceptAll := by
  induction entries generalizing a with
  | nil => rfl
  | cons entry rest ih =>
      cases entry with
      | obj entry =>
          rw [Adapter.openaiToolCalls, entrySignals]
          cases env.intOr (Fields.get entry "index") with
          | error message => rfl
          | ok index =>
              simp only [bind, Except.bind, ih]
              cases entrySignals env rest <;> rfl
      | _ => exact ih a

theorem acceptAll_text (a : Adapter) (deltas : List String) :
    a.acceptAll (deltas.map Signal.text) = (a, deltas.map Chunk.text) := by
  induction deltas with
  | nil => rfl
  | cons delta rest ih =>
      rw [List.map_cons, Adapter.acceptAll]
      simp only [Adapter.accept, ih, List.map_cons, List.singleton_append]

theorem acceptAll_reasoning (a : Adapter) (deltas : List String) :
    a.acceptAll (deltas.map Signal.reasoning) = (a, deltas.map Chunk.reasoning) := by
  induction deltas with
  | nil => rfl
  | cons delta rest ih =>
      rw [List.map_cons, Adapter.acceptAll]
      simp only [Adapter.accept, ih, List.map_cons, List.singleton_append]

theorem openaiDelta_eq (a : Adapter) (delta : Fields) :
    a.openaiDelta env delta = (deltaSignals env delta).map a.acceptAll := by
  unfold Adapter.openaiDelta deltaSignals
  rw [openaiToolCalls_eq]
  cases entrySignals env (itemsOf (delta.get "tool_calls")) with
  | error message => rfl
  | ok signals =>
      simp [bind, Except.bind, pure, Except.pure, Except.map, Adapter.acceptAll_append,
        acceptAll_text, acceptAll_reasoning]

theorem openaiChoices_eq (a : Adapter) (choices : List Json) :
    a.openaiChoices env choices = (choiceSignals env choices).map a.acceptAll := by
  induction choices generalizing a with
  | nil => rfl
  | cons choice rest ih =>
      cases choice with
      | obj choice =>
          rw [Adapter.openaiChoices, choiceSignals, openaiDelta_eq]
          cases deltaSignals env (fieldsOf (Fields.get choice "delta")) with
          | error message => rfl
          | ok signals =>
              simp only [bind, Except.bind, pure, Except.pure, Except.map, ih]
              cases choiceSignals env rest with
              | error message => rfl
              | ok more =>
                  simp only [Adapter.acceptAll_append, Except.ok.injEq, Prod.mk.injEq]
                  split <;> simp [Adapter.acceptAll, Adapter.accept]
      | _ => exact ih a

theorem openaiChunks_eq (a : Adapter) (payload : Fields) :
    a.openaiChunks env payload
      = (payloadSignals env payload).map fun read =>
          ((a.acceptAll read.1).1.noteUsage read.2, (a.acceptAll read.1).2) := by
  unfold Adapter.openaiChunks payloadSignals
  rw [openaiChoices_eq]
  cases choiceSignals env (itemsOf (payload.get "choices")) with
  | error message => rfl
  | ok signals =>
      simp only [bind, Except.bind, Except.map]
      cases Adapter.reportedUsage env payload <;> rfl

/-- **A frame is its signals**: the adapter does with a Chat Completions frame what it does
with the signals of the frame one after the other. -/
theorem frameToChunks_eq (chat : env.dialect = .openai) (a : Adapter) (frame : SseFrame) :
    a.frameToChunks env frame
      = (frameSignals env frame).map fun read =>
          ((a.acceptAll read.1).1.noteUsage read.2, (a.acceptAll read.1).2) := by
  unfold Adapter.frameToChunks frameSignals
  split
  case isTrue _ => simp [Except.map, Adapter.acceptAll, Adapter.accept, Adapter.noteUsage]
  case isFalse _ =>
    rw [chat]
    cases env.loadsObject frame.data with
    | error message => rfl
    | ok payload =>
        cases payload with
        | none => simp [bind, Except.bind, pure, Except.pure, Except.map, Adapter.acceptAll,
            Adapter.noteUsage]
        | some payload => exact openaiChunks_eq env a payload

/-! ## A stream of frames -/

namespace Adapter

variable (a : Adapter) (usage : Fields)

theorem closeTool_usage (index : ℤ) :
    { a with usage := usage }.closeTool index
      = ({ (a.closeTool index).1 with usage := usage }, (a.closeTool index).2) := by
  unfold closeTool
  dsimp only
  split
  · rfl
  · split <;> rfl

theorem closeTools_usage (indexes : List ℤ) :
    { a with usage := usage }.closeTools indexes
      = ({ (a.closeTools indexes).1 with usage := usage }, (a.closeTools indexes).2) := by
  induction indexes generalizing a with
  | nil => rfl
  | cons index rest ih => simp only [closeTools, closeTool_usage, ih]

theorem accept_usage (signal : Signal) :
    { a with usage := usage }.accept signal
      = ({ (a.accept signal).1 with usage := usage }, (a.accept signal).2) := by
  cases signal with
  | call index callId name arguments =>
      simp only [accept, trackTool]
      split <;> rfl
  | stop =>
      simp only [accept, finish, closeAllTools]
      split
      · rfl
      · rw [closeTools_usage { a with finished := true }]
  | _ => rfl

theorem acceptAll_usage (signals : List Signal) :
    { a with usage := usage }.acceptAll signals
      = ({ (a.acceptAll signals).1 with usage := usage }, (a.acceptAll signals).2) := by
  induction signals generalizing a with
  | nil => rfl
  | cons signal rest ih => simp only [acceptAll, accept_usage, ih]

theorem exists_noteUsage (norm : Fields) :
    ∃ usage, a.noteUsage norm = { a with usage := usage } := by
  unfold noteUsage
  split
  · exact ⟨a.usage, rfl⟩
  · exact ⟨norm, rfl⟩

end Adapter

/-- The frames say these signals: every one of them can be read. -/
def Says (frames : List SseFrame) (signals : List Signal) : Prop :=
  ∃ reads : List (List Signal × Fields),
    frames.map (frameSignals env) = reads.map .ok ∧ signals = reads.flatMap Prod.fst

/-- **A stream is its signals**: over frames that can all be read, the adapter yields what it
yields for the signals one after the other. -/
theorem frames_eq_accept (chat : env.dialect = .openai) {frames : List SseFrame}
    {signals : List Signal} (said : Says env frames signals) (g : Adapting)
    (going : g.broken = false) :
    ∃ usage, runSchedule (Adapting.frame env) g frames
      = ⟨{ (g.adapter.acceptAll signals).1 with usage := usage },
          g.yielded ++ (g.adapter.acceptAll signals).2, false⟩ := by
  obtain ⟨reads, each, rfl⟩ := said
  induction frames generalizing g reads with
  | nil =>
      obtain rfl : reads = [] := by simpa using each
      refine ⟨g.adapter.usage, ?_⟩
      obtain ⟨adapter, yielded, broken⟩ := g
      simp only at going
      subst going
      simp [Adapter.acceptAll]
  | cons frame rest ih =>
      cases reads with
      | nil => simp at each
      | cons read reads =>
          simp only [List.map_cons, List.cons.injEq] at each
          obtain ⟨noted, isNoted⟩ := (g.adapter.acceptAll read.1).1.exists_noteUsage read.2
          have step : g.frame env frame
              = ⟨{ (g.adapter.acceptAll read.1).1 with usage := noted },
                  g.yielded ++ (g.adapter.acceptAll read.1).2, false⟩ := by
            simp [Adapting.frame, going, frameToChunks_eq env chat, each.1, Except.map,
              isNoted]
          obtain ⟨usage, done⟩ := ih (g.frame env frame) (by rw [step]) reads each.2
          refine ⟨usage, ?_⟩
          rw [runSchedule_cons, done, step, List.flatMap_cons, Adapter.acceptAll_append,
            Adapter.acceptAll_usage, List.append_assoc]

end Zhongzhuan.Responses
