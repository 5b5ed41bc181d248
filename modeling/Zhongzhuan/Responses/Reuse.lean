import Zhongzhuan.Responses.Prose

/-!
# One pipeline object for two runs

`run` begins with a block of assignments that is meant to make the object reusable.  It leaves
out the message item of the output array and the text of the reasoning, so that a second run
starts as a *twin* of a first one: the same object but for what it remembers of earlier prose.

* `Twin` relates the two; `translateChunk_twin` says that a chunk keeps them twins and emits
  the same events, as long as they agree on the one decision that reads the difference.
* `textFirst` are the streams on which that decision is taken, and `Diverged` is what becomes
  of the twins there.
* `rerun_same_iff` is the exact condition under which the second run cannot be told from a
  run of a new object.
-/

namespace Zhongzhuan.Responses

open Kit Protocol

variable {env : Env} {p q : Pipeline}

/-! ## Twins -/

/-- The pipeline with another memory of earlier prose. -/
def Pipeline.graft (p : Pipeline) (messageItem : Option OpenItem) (reasoningText : List String)
    (stats : PipelineStats) : Pipeline :=
  { p with messageItem := messageItem, reasoningText := reasoningText, stats := stats }

/-- The same object but for the memory of earlier prose, which an open item replaces. -/
def Twin (p q : Pipeline) : Prop :=
  ∃ item text stats, q = p.graft item text stats
    ∧ (p.openReasoning.isSome → text = p.reasoningText)
    ∧ (p.openMessage.isSome → item = p.messageItem)

/-- Twins that decide alike whether the stream has had reasoning, if they have to. -/
def Agree (env : Env) (p q : Pipeline) : Prop :=
  env.emitEmptyReasoning = true → p.openMessage = none → p.tools.refs.isEmpty = true →
    q.reasoningText.isEmpty = p.reasoningText.isEmpty

theorem closeReasoning_of_none (closed : p.openReasoning = none) (incomplete : Bool) :
    p.closeReasoning incomplete = (p, []) := by
  unfold Pipeline.closeReasoning
  rw [closed]

theorem closeReasoning_twin (h : Twin p q) (incomplete : Bool) :
    Twin (p.closeReasoning incomplete).1 (q.closeReasoning incomplete).1
      ∧ (q.closeReasoning incomplete).2 = (p.closeReasoning incomplete).2 := by
  obtain ⟨item, text, stats, rfl, reasoning, message⟩ := h
  cases held : p.openReasoning with
  | none =>
      rw [closeReasoning_of_none held,
        closeReasoning_of_none (show (p.graft item text stats).openReasoning = none from held)]
      exact ⟨⟨item, text, stats, rfl, reasoning, message⟩, rfl⟩
  | some thinking =>
      obtain rfl : text = p.reasoningText := reasoning (by rw [held]; rfl)
      unfold Pipeline.closeReasoning
      rw [held, show (p.graft item p.reasoningText stats).openReasoning = some thinking from held]
      exact ⟨⟨item, p.reasoningText, stats, rfl, nofun, message⟩, rfl⟩

/-- The decision of `_ensure_reasoning_lifecycle` not to write an empty reasoning item. -/
def Pipeline.skipsLifecycle (env : Env) (p : Pipeline) : Bool :=
  !env.emitEmptyReasoning || p.openReasoning.isSome || !p.reasoningText.isEmpty
    || p.openMessage.isSome || !p.tools.listAll.isEmpty

/-- The empty reasoning item, from beginning to end. -/
def Pipeline.emptyLifecycle (env : Env) (p : Pipeline) : Pipeline × List Event :=
  ({ p.bumpIndex with openReasoning := none, reasoningText := [], reasoningPartId := none },
    (p.openReasoningItem env).2
      ++ [reasoningDelta (makeReasoningItemId env.responseId p.outputIndex) p.outputIndex ""]
      ++ ((p.openReasoningItem env).1.closeReasoning false).2)

theorem ensureReasoningLifecycle_eq :
    p.ensureReasoningLifecycle env
      = if p.skipsLifecycle env then (p, []) else p.emptyLifecycle env := by
  unfold Pipeline.ensureReasoningLifecycle Pipeline.skipsLifecycle
  cases env.emitEmptyReasoning with
  | false => rfl
  | true =>
      by_cases thought : (p.openReasoning.isSome || !p.reasoningText.isEmpty) = true
      · rw [if_neg (by decide), if_pos thought, if_pos (by simp_all)]
      · by_cases occupied : (p.openMessage.isSome || !p.tools.listAll.isEmpty) = true
        · rw [if_neg (by decide), if_neg thought, if_pos occupied, if_pos (by simp_all)]
        · rw [if_neg (by decide), if_neg thought, if_neg occupied, if_neg (by simp_all)]
          rfl

theorem ensureReasoningLifecycle_twin (h : Twin p q) (valid : p.tools.Holds fun _ => True)
    (agree : Agree env p q) :
    Twin (p.ensureReasoningLifecycle env).1 (q.ensureReasoningLifecycle env).1
      ∧ (q.ensureReasoningLifecycle env).2 = (p.ensureReasoningLifecycle env).2 := by
  obtain ⟨item, text, stats, rfl, reasoning, message⟩ := h
  have decision : (p.graft item text stats).skipsLifecycle env = p.skipsLifecycle env := by
    have empty := valid.listAll_isEmpty
    simp only [Agree, Pipeline.skipsLifecycle, Pipeline.graft] at agree ⊢
    rw [empty]
    cases emits : env.emitEmptyReasoning with
    | false => rfl
    | true =>
        cases speaking : p.openMessage with
        | some item => simp
        | none =>
            cases called : p.tools.refs.isEmpty with
            | false => simp
            | true => rw [agree emits speaking called]
  rw [ensureReasoningLifecycle_eq, ensureReasoningLifecycle_eq, decision]
  split
  · exact ⟨⟨item, text, stats, rfl, reasoning, message⟩, rfl⟩
  · exact ⟨⟨item, [], stats, rfl, nofun, message⟩, rfl⟩

theorem Agree.closeReasoning (agree : Agree env p q) (incomplete : Bool) :
    Agree env (p.closeReasoning incomplete).1 (q.closeReasoning incomplete).1 := by
  unfold Agree
  rw [(closeReasoning_record incomplete).reasoningText,
    (closeReasoning_record incomplete).reasoningText,
    (closeReasoning_record incomplete).openMessage, closeReasoning_tools]
  exact agree

theorem translateText_twin (h : Twin p q) (valid : p.tools.Holds fun _ => True)
    (agree : Agree env p q) (delta : String) :
    Twin (p.translateText env delta).1 (q.translateText env delta).1
      ∧ (q.translateText env delta).2 = (p.translateText env delta).2 := by
  unfold Pipeline.translateText
  cases speaking : p.openMessage with
  | some item =>
      obtain ⟨kept, text, stats, rfl, reasoning, message⟩ := h
      simp only [show (p.graft kept text stats).openMessage = some item from speaking, speaking,
        Option.isSome_some, if_true]
      exact ⟨⟨kept, text, stats, rfl, reasoning, fun _ => message (by rw [speaking]; rfl)⟩,
        trivial⟩
  | none =>
      have silent : q.openMessage = none := by
        obtain ⟨kept, text, stats, rfl, -⟩ := h
        exact speaking
      simp only [silent, Option.isSome_none, Bool.false_eq_true, if_false]
      unfold Pipeline.openMessageItem
      obtain ⟨twin, events⟩ := closeReasoning_twin h false
      obtain ⟨twin', events'⟩ := @ensureReasoningLifecycle_twin env _ _ twin
        (by rw [closeReasoning_tools]; exact valid) (agree.closeReasoning false)
      obtain ⟨kept, text, stats, same, reasoning, message⟩ := twin'
      dsimp only
      rw [events, events', same]
      exact ⟨⟨_, text, stats, rfl, reasoning, fun _ => rfl⟩, rfl⟩

theorem translateReasoning_twin (h : Twin p q) (delta : String) :
    Twin (p.translateReasoning env delta).1 (q.translateReasoning env delta).1
      ∧ (q.translateReasoning env delta).2 = (p.translateReasoning env delta).2 := by
  obtain ⟨item, text, stats, rfl, reasoning, message⟩ := h
  unfold Pipeline.translateReasoning
  by_cases skipped : delta = ""
  · rw [if_pos skipped, if_pos skipped]
    exact ⟨⟨item, text, stats, rfl, reasoning, message⟩, rfl⟩
  · rw [if_neg skipped, if_neg skipped]
    cases thinking : p.openReasoning with
    | some held =>
        obtain rfl : text = p.reasoningText := reasoning (by rw [thinking]; rfl)
        simp only [show (p.graft item p.reasoningText stats).openReasoning = some held
          from thinking, thinking, Option.isSome_some, if_true]
        exact ⟨⟨item, _, stats, rfl, fun _ => rfl, message⟩, trivial⟩
    | none =>
        simp only [show (p.graft item text stats).openReasoning = none from thinking,
          Option.isSome_none, Bool.false_eq_true, if_false]
        exact ⟨⟨item, _, stats, rfl, fun _ => rfl, message⟩, rfl⟩

/-- **A chunk keeps twins twins** and shows the same of both, if they agree when it is text. -/
theorem translateChunk_twin (h : Twin p q) (valid : p.tools.Holds fun _ => True) (c : Chunk)
    (agree : c.isText = true → Agree env p q) :
    Twin (p.translateChunk env c).pipeline (q.translateChunk env c).pipeline
      ∧ (q.translateChunk env c).emitted = (p.translateChunk env c).emitted
      ∧ (q.translateChunk env c).raised = (p.translateChunk env c).raised := by
  cases prosaic : c.isProse with
  | true =>
      cases c with
      | text delta =>
          obtain ⟨twin, events⟩ := translateText_twin h valid (agree rfl) delta
          exact ⟨twin, events, rfl⟩
      | reasoning delta =>
          obtain ⟨twin, events⟩ := @translateReasoning_twin env _ _ h delta
          exact ⟨twin, events, rfl⟩
      | _ => cases prosaic
  | false =>
      obtain ⟨item, text, stats, rfl, reasoning, message⟩ := h
      have grafted : p.graft item text stats = p.withProse
          { p.prose with messageItem := item, reasoningText := text, stats := stats } := rfl
      have same := @translateChunk_prose env p _ prosaic
      obtain ⟨speaking, kept, _, thinking, thought, _⟩ := eq_of_prose same
      rw [grafted, translateChunk_withProse prosaic]
      refine ⟨⟨item, text, stats, ?_, ?_, ?_⟩, rfl, rfl⟩
      · rw [← same]
        rfl
      · rw [thinking, thought]
        exact reasoning
      · rw [speaking, kept]
        exact message

/-! ## Where the difference is read -/

/-- Text comes before any reasoning and before any ordinary call: the streams for which
`_ensure_reasoning_lifecycle` writes an empty reasoning item, if it is told to. -/
def textFirst (env : Env) : List Chunk → Bool
  | [] => false
  | c :: rest => c.isText || (!c.isThought && !c.isCall env && textFirst env rest)

theorem translateText_openMessage (delta : String) :
    (p.translateText env delta).1.openMessage.isSome := by
  unfold Pipeline.translateText
  cases held : p.openMessage with
  | some item => simp only [Option.isSome_some, if_true, held]
  | none => simp only [Option.isSome_none, Bool.false_eq_true, if_false,
      Pipeline.openMessageItem, Option.isSome_some]

theorem translateReasoning_openReasoning {delta : String} (spoken : delta ≠ "") :
    (p.translateReasoning env delta).1.openReasoning.isSome := by
  unfold Pipeline.translateReasoning
  rw [if_neg spoken]
  cases held : p.openReasoning with
  | some item => simp only [Option.isSome_some, if_true, held]
  | none => rfl

/-- A chunk that is neither text nor reasoning with something in it leaves the prose as it
was. -/
theorem translateChunk_same_prose {c : Chunk} (silent : c.isText = false)
    (unthinking : c.isThought = false) :
    (p.translateChunk env c).pipeline.prose = p.prose := by
  cases c with
  | text delta => cases silent
  | reasoning delta =>
      have empty : delta = "" := by simpa [Chunk.isThought] using unthinking
      simp only [Pipeline.translateChunk, Pipeline.translateReasoning, if_pos empty]
  | _ => exact translateChunk_prose rfl

/-- The twins agree when the rest of the stream makes them decide, and one chunk later they
still do. -/
theorem Agree.next (h : Twin p q) (valid : p.tools.Holds fun _ => True) {c : Chunk}
    {rest : List Chunk} (agree : textFirst env (c :: rest) = true → Agree env p q)
    (first : textFirst env rest = true) :
    Agree env (p.translateChunk env c).pipeline (q.translateChunk env c).pipeline := by
  intro emits silent uncalled
  cases text : c.isText with
  | true =>
      -- the message is open now
      cases c with
      | text delta =>
          have speaking := @translateText_openMessage env p delta
          rw [show (p.translateText env delta).1.openMessage = none from silent] at speaking
          cases speaking
      | _ => cases text
  | false =>
      have agreed : c.isThought = false → c.isCall env = false → Agree env p q := by
        intro unthinking foreign
        apply agree
        simp [textFirst, unthinking, foreign, first]
      have called := (@translateChunk_calls env _ valid c).2
      rw [uncalled] at called
      have before : p.tools.refs.isEmpty = true ∧ c.isCall env = false := by
        simpa using called.symm
      cases thought : c.isThought with
      | true =>
          obtain ⟨⟨item, remembered, stats, same, reasoning, _⟩, _, _⟩ :=
            @translateChunk_twin env _ _ h valid c fun isText => by
              rw [text] at isText
              cases isText
          have thinking : (p.translateChunk env c).pipeline.openReasoning.isSome := by
            cases c with
            | reasoning delta =>
                exact translateReasoning_openReasoning (by simpa [Chunk.isThought] using thought)
            | _ => cases thought
          rw [same]
          show remembered.isEmpty = _
          rw [reasoning thinking]
      | false =>
          obtain ⟨speaking, _, _, _, thoughts, _⟩ :=
            eq_of_prose (@translateChunk_same_prose env p _ text thought)
          obtain ⟨_, _, _, _, thoughts', _⟩ :=
            eq_of_prose (@translateChunk_same_prose env q _ text thought)
          rw [thoughts, thoughts']
          exact agreed thought before.2 emits (speaking ▸ silent) before.1

/-! ## Twin loops -/

/-- Two loops that have shown the same, with twins inside. -/
structure TwinLoop (loop loop' : Loop) : Prop where
  pipeline : Twin loop.pipeline loop'.pipeline
  valid : loop.pipeline.tools.Holds fun _ => True
  frames : loop'.frames = loop.frames
  error : loop'.internalError = loop.internalError

variable {loop loop' : Loop}

theorem TwinLoop.receive_heartbeat (h : TwinLoop loop loop') :
    TwinLoop (loop.receive env .heartbeat) (loop'.receive env .heartbeat) := by
  obtain ⟨twin, valid, frames, error⟩ := h
  refine ⟨by rwa [receive_heartbeat_pipeline, receive_heartbeat_pipeline],
    by rwa [receive_heartbeat_pipeline], ?_, ?_⟩
  all_goals
    unfold Loop.receive
    rw [error]
    cases loop.internalError with
    | none => first | rfl | (dsimp only; rw [frames])
    | some message => assumption

theorem TwinLoop.receive_chunk (h : TwinLoop loop loop') (c : Chunk)
    (agree : c.isText = true → Agree env loop.pipeline loop'.pipeline) :
    TwinLoop (loop.receive env (.chunk c)) (loop'.receive env (.chunk c)) := by
  obtain ⟨twin, valid, frames, error⟩ := h
  obtain ⟨twin', emitted, raised⟩ := @translateChunk_twin env _ _ twin valid c agree
  have valid' := (@translateChunk_calls env _ valid c).1
  cases running : loop.internalError with
  | some message =>
      have still : ∀ l : Loop, l.internalError = some message →
          l.receive env (.chunk c) = l := fun l raised => by
        unfold Loop.receive
        rw [raised]
      rw [still loop running, still loop' (error.trans running)]
      exact ⟨twin, valid, frames, error⟩
  | none =>
      unfold Loop.receive
      rw [error, running]
      dsimp only
      rw [raised, emitted, frames]
      cases (loop.pipeline.translateChunk env c).raised <;> exact ⟨twin', valid', rfl, rfl⟩

/-- **Twins through a whole stream**: what is shown stays the same, if they agree when the
stream begins with text. -/
theorem TwinLoop.run (h : TwinLoop loop loop') (arrivals : List Arrival)
    (agree : textFirst env (chunksOf arrivals) = true →
      Agree env loop.pipeline loop'.pipeline) :
    TwinLoop (runSchedule (Loop.receive env) loop arrivals)
      (runSchedule (Loop.receive env) loop' arrivals) := by
  induction arrivals generalizing loop loop' with
  | nil => exact h
  | cons arrival rest ih =>
      cases running : loop.internalError with
      | some message =>
          rwa [runSchedule_of_raised running, runSchedule_of_raised (h.error.trans running)]
      | none =>
          rw [runSchedule_cons, runSchedule_cons]
          cases arrival with
          | heartbeat =>
              refine ih h.receive_heartbeat fun first => ?_
              rw [receive_heartbeat_pipeline, receive_heartbeat_pipeline]
              exact agree first
          | chunk c =>
              have now : c.isText = true → Agree env loop.pipeline loop'.pipeline := fun text =>
                agree (by simp [chunksOf, Arrival.chunk?, textFirst, text])
              refine ih (h.receive_chunk c now) fun first => ?_
              rw [receive_pipeline running, receive_pipeline (h.error.trans running)]
              exact Agree.next h.pipeline h.valid agree first

theorem closeOpenItems_twin (h : Twin p q) (incomplete : Bool) :
    Twin (p.closeOpenItems incomplete).1 (q.closeOpenItems incomplete).1
      ∧ (q.closeOpenItems incomplete).2 = (p.closeOpenItems incomplete).2 := by
  obtain ⟨⟨item, text, stats, same, reasoning, message⟩, events⟩ :=
    closeReasoning_twin h incomplete
  have closing : ((p.closeReasoning incomplete).1.graft item text stats).closeMessage incomplete
      = ((((p.closeReasoning incomplete).1.closeMessage incomplete).1.graft item text stats),
          ((p.closeReasoning incomplete).1.closeMessage incomplete).2) := by
    unfold Pipeline.closeMessage
    dsimp only [Pipeline.graft]
    split <;> rfl
  have kept : ((p.closeReasoning incomplete).1.closeMessage incomplete).1.openReasoning.isSome →
      text = ((p.closeReasoning incomplete).1.closeMessage incomplete).1.reasoningText := by
    unfold Pipeline.closeMessage
    split <;> exact reasoning
  unfold Pipeline.closeOpenItems
  dsimp only
  rw [same, events, closing]
  have gone : ((p.closeReasoning incomplete).1.closeMessage incomplete).1.openMessage = none :=
    closeMessage_openMessage incomplete
  refine ⟨⟨item, text, stats, rfl, kept, fun still => ?_⟩, rfl⟩
  have never : (none : Option OpenItem).isSome := gone ▸ still
  cases never

theorem conclude_twin (h : Twin p q) (error : Option String) (reason : Option TerminalReason) :
    Twin (conclude env p error reason).1 (conclude env q error reason).1
      ∧ (conclude env q error reason).2 = (conclude env p error reason).2 := by
  have invalid : q.hadInvalidToolArgs = p.hadInvalidToolArgs := by
    obtain ⟨item, text, stats, rfl, -⟩ := h
    rfl
  have noted : ∀ (incomplete : Bool) (state : LiveState) (stats stats' : PipelineStats),
      Twin { (p.closeOpenItems incomplete).1 with state := state, stats := stats }
        { (q.closeOpenItems incomplete).1 with state := state, stats := stats' } := by
    intro incomplete state stats stats'
    obtain ⟨item, text, old, same, reasoning, message⟩ := (closeOpenItems_twin h incomplete).1
    exact ⟨item, text, stats', by rw [same]; rfl, reasoning, message⟩
  have shown : ∀ incomplete, (q.closeOpenItems incomplete).2 = (p.closeOpenItems incomplete).2 :=
    fun incomplete => (closeOpenItems_twin h incomplete).2
  unfold conclude
  rw [invalid]
  split
  · exact ⟨noted true _ _ _, by simp only [Pipeline.internalFailedFrames, shown]⟩
  · split
    · exact ⟨noted true _ _ _, by simp only [Pipeline.terminalFrames, shown]⟩
    · split
      · exact ⟨noted true _ _ _, by simp only [Pipeline.terminalFrames, shown]⟩
      · exact ⟨noted false _ _ _, by simp only [Pipeline.completedFrames, shown]⟩

/-! ## Twins that disagree -/

/-- The two loops have shown the same up to a frame in which they differ. -/
def Diverged (loop loop' : Loop) : Prop :=
  ∃ shown e e', e ≠ e' ∧ shown ++ [e] <+: loop.frames ∧ shown ++ [e'] <+: loop'.frames

theorem Diverged.frames_ne (h : Diverged loop loop') : loop'.frames ≠ loop.frames := by
  obtain ⟨shown, e, e', differ, one, two⟩ := h
  intro same
  rw [same] at two
  have length : (shown ++ [e]).length = (shown ++ [e']).length := by simp
  have equal : shown ++ [e] = shown ++ [e'] :=
    (List.prefix_of_prefix_length_le one two (Nat.le_of_eq length)).eq_of_length length
  exact differ (List.singleton_injective (List.append_cancel_left equal))

theorem Diverged.mono {later later' : Loop} (h : Diverged loop loop')
    (one : loop.frames <+: later.frames) (two : loop'.frames <+: later'.frames) :
    Diverged later later' := by
  obtain ⟨shown, e, e', differ, here, here'⟩ := h
  exact ⟨shown, e, e', differ, here.trans one, here'.trans two⟩

theorem receive_frames (env : Env) (loop : Loop) (arrival : Arrival) :
    loop.frames <+: (loop.receive env arrival).frames := by
  unfold Loop.receive
  split
  · exact List.prefix_rfl
  · exact List.prefix_append _ _
  · dsimp only
    split
    · exact List.prefix_append _ _
    · exact List.prefix_rfl

theorem runSchedule_frames (env : Env) (loop : Loop) (arrivals : List Arrival) :
    loop.frames <+: (runSchedule (Loop.receive env) loop arrivals).frames :=
  runSchedule_invariant (fun later : Loop => loop.frames <+: later.frames)
    (fun later arrival shown => shown.trans (receive_frames env later arrival))
    List.prefix_rfl arrivals

/-- Twins about to disagree: the one is where a new pipeline is, the other remembers reasoning
of an earlier run. -/
structure Apart (loop loop' : Loop) : Prop extends TwinLoop loop loop' where
  running : loop.internalError = none
  silent : loop.pipeline.openMessage = none
  unthinking : loop.pipeline.openReasoning = none
  blank : loop.pipeline.reasoningText = []
  recalls : loop'.pipeline.reasoningText ≠ []
  uncalled : loop.pipeline.tools.refs.isEmpty = true

theorem Apart.next (h : Apart loop loop') {c : Chunk}
    (returned : (loop.pipeline.translateChunk env c).raised = none)
    (text : c.isText = false) (thought : c.isThought = false) (foreign : c.isCall env = false) :
    Apart (loop.receive env (.chunk c)) (loop'.receive env (.chunk c)) := by
  obtain ⟨speaking, _, _, thinking, thoughts, _⟩ :=
    eq_of_prose (@translateChunk_same_prose env loop.pipeline _ text thought)
  obtain ⟨_, _, _, _, thoughts', _⟩ :=
    eq_of_prose (@translateChunk_same_prose env loop'.pipeline _ text thought)
  have twins := @TwinLoop.receive_chunk env _ _ h.toTwinLoop c fun isText => by
    rw [text] at isText
    cases isText
  have here := @receive_pipeline env _ h.running c
  have there := @receive_pipeline env _ (h.error.trans h.running) c
  refine ⟨twins, (receive_of_returned h.running returned).1, ?_, ?_, ?_, ?_, ?_⟩
  · rw [here, speaking, h.silent]
  · rw [here, thinking, h.unthinking]
  · rw [here, thoughts, h.blank]
  · rw [there, thoughts']
    exact h.recalls
  · rw [here, (@translateChunk_calls env _ h.valid c).2, h.uncalled, foreign]
    rfl

/-- The text chunk that decides: the new pipeline writes an empty reasoning item before its
message, the other does not. -/
theorem Apart.text (h : Apart loop loop') (emits : env.emitEmptyReasoning = true)
    (delta : String) :
    Diverged (loop.receive env (.chunk (.text delta)))
      (loop'.receive env (.chunk (.text delta))) := by
  obtain ⟨⟨item, text, stats, same, _, _⟩, valid, frames, error⟩ := h.toTwinLoop
  have closed' : loop'.pipeline.openReasoning = none := by rw [same]; exact h.unthinking
  have silent' : loop'.pipeline.openMessage = none := by rw [same]; exact h.silent
  have index : loop'.pipeline.outputIndex = loop.pipeline.outputIndex := by rw [same]; rfl
  have writes : loop.pipeline.skipsLifecycle env = false := by
    simp [Pipeline.skipsLifecycle, emits, h.silent, h.unthinking, h.blank,
      valid.listAll_isEmpty, h.uncalled]
  have skips : loop'.pipeline.skipsLifecycle env = true := by
    simp [Pipeline.skipsLifecycle, h.recalls]
  have opening : ∃ e more id, (loop.pipeline.translateText env delta).2 = e :: more
      ∧ e = itemAdded loop.pipeline.outputIndex (reasoningItem id .inProgress none) := by
    unfold Pipeline.translateText
    simp only [h.silent, Option.isSome_none, Bool.false_eq_true, if_false,
      Pipeline.openMessageItem, closeReasoning_of_none h.unthinking,
      ensureReasoningLifecycle_eq, writes]
    exact ⟨_, _, _, rfl, rfl⟩
  have opening' : ∃ e more id, (loop'.pipeline.translateText env delta).2 = e :: more
      ∧ e = itemAdded loop.pipeline.outputIndex (messageItem id .inProgress none) := by
    unfold Pipeline.translateText
    simp only [silent', Option.isSome_none, Bool.false_eq_true, if_false,
      Pipeline.openMessageItem, closeReasoning_of_none closed',
      ensureReasoningLifecycle_eq, skips, if_true, index]
    exact ⟨_, _, _, rfl, rfl⟩
  obtain ⟨e, more, id, events, reasoning⟩ := opening
  obtain ⟨e', more', id', events', message⟩ := opening'
  refine ⟨loop.frames, .event e, .event e', ?_, ?_, ?_⟩
  · -- the two items differ in their type
    rw [reasoning, message]
    simp [itemAdded, Event.make, reasoningItem, messageItem]
  · have received : (loop.receive env (.chunk (.text delta))).frames
        = loop.frames ++ (loop.pipeline.translateText env delta).2.map .event := by
      unfold Loop.receive
      rw [h.running]
      rfl
    rw [received, events, List.map_cons]
    exact ⟨more.map .event, by rw [List.append_assoc]; rfl⟩
  · have received : (loop'.receive env (.chunk (.text delta))).frames
        = loop.frames ++ (loop'.pipeline.translateText env delta).2.map .event := by
      unfold Loop.receive
      rw [error, h.running, ← frames]
      rfl
    rw [received, events', List.map_cons]
    exact ⟨more'.map .event, by rw [List.append_assoc]; rfl⟩

theorem Apart.run (h : Apart loop loop') (reliable : Reliable env)
    (emits : env.emitEmptyReasoning = true) (arrivals : List Arrival)
    (first : textFirst env (chunksOf arrivals) = true) :
    Diverged (runSchedule (Loop.receive env) loop arrivals)
      (runSchedule (Loop.receive env) loop' arrivals) := by
  induction arrivals generalizing loop loop' with
  | nil => cases first
  | cons arrival rest ih =>
      rw [runSchedule_cons, runSchedule_cons]
      cases arrival with
      | heartbeat =>
          refine ih ⟨h.toTwinLoop.receive_heartbeat, ?_, ?_, ?_, ?_, ?_, ?_⟩ first
          · unfold Loop.receive
            rw [h.running]
          all_goals rw [receive_heartbeat_pipeline]
          exacts [h.silent, h.unthinking, h.blank, h.recalls, h.uncalled]
      | chunk c =>
          cases text : c.isText with
          | true =>
              cases c with
              | text delta =>
                  exact (h.text emits delta).mono (runSchedule_frames env _ rest)
                    (runSchedule_frames env _ rest)
              | _ => cases text
          | false =>
              have later : (c.isThought = false ∧ c.isCall env = false)
                  ∧ textFirst env (chunksOf rest) = true := by
                simpa [chunksOf, Arrival.chunk?, textFirst, text] using first
              exact ih (h.next (translateChunk_returns reliable c) text later.1.1 later.1.2)
                later.2

/-! ## The message of the output array -/

theorem translateReasoning_message (delta : String) :
    (p.translateReasoning env delta).1.openMessage = p.openMessage
      ∧ (p.translateReasoning env delta).1.messageItem = p.messageItem := by
  unfold Pipeline.translateReasoning
  split
  · exact ⟨rfl, rfl⟩
  · cases held : p.openReasoning with
    | some item => simp only [Option.isSome_some, if_true, held, and_self]
    | none => exact ⟨rfl, rfl⟩

theorem translateChunk_message {c : Chunk} (text : c.isText = false) :
    (p.translateChunk env c).pipeline.openMessage = p.openMessage
      ∧ (p.translateChunk env c).pipeline.messageItem = p.messageItem := by
  cases prosaic : c.isProse with
  | false =>
      obtain ⟨speaking, item, _⟩ :=
        eq_of_prose (@translateChunk_prose env p _ prosaic)
      exact ⟨speaking, item⟩
  | true =>
      cases c with
      | text delta => cases text
      | reasoning delta => exact translateReasoning_message delta
      | _ => cases prosaic

theorem runSchedule_messageItem (loop : Loop) (arrivals : List Arrival)
    (silent : (chunksOf arrivals).any Chunk.isText = false) :
    (runSchedule (Loop.receive env) loop arrivals).pipeline.messageItem
      = loop.pipeline.messageItem := by
  induction arrivals generalizing loop with
  | nil => rfl
  | cons arrival rest ih =>
      cases running : loop.internalError with
      | some message => rw [runSchedule_of_raised running]
      | none =>
          cases arrival with
          | heartbeat => exact (ih _ silent).trans (by rw [receive_heartbeat_pipeline])
          | chunk c =>
              have here : c.isText = false ∧ (chunksOf rest).any Chunk.isText = false := by
                rw [← Bool.or_eq_false_iff]
                exact silent
              rw [runSchedule_cons, ih _ here.2, receive_pipeline running]
              exact (translateChunk_message here.1).2

theorem runSchedule_openMessage (reliable : Reliable env) {loop : Loop}
    (running : loop.internalError = none) (arrivals : List Arrival)
    (spoken : loop.pipeline.openMessage.isSome
      ∨ (chunksOf arrivals).any Chunk.isText = true) :
    (runSchedule (Loop.receive env) loop arrivals).pipeline.openMessage.isSome := by
  induction arrivals generalizing loop with
  | nil => exact spoken.resolve_right nofun
  | cons arrival rest ih =>
      rw [runSchedule_cons]
      cases arrival with
      | heartbeat =>
          refine ih ?_ (by rwa [receive_heartbeat_pipeline])
          unfold Loop.receive
          rw [running]
      | chunk c =>
          have next := (receive_of_returned running (translateChunk_returns reliable c)).1
          refine ih next ?_
          rw [receive_pipeline running]
          cases text : c.isText with
          | true =>
              cases c with
              | text delta => exact .inl (translateText_openMessage delta)
              | _ => cases text
          | false =>
              rw [(translateChunk_message text).1]
              refine spoken.imp_right fun later => ?_
              have split : (c.isText || (chunksOf rest).any Chunk.isText) = true := later
              rwa [text, Bool.false_or] at split

theorem conclude_messageItem (error : Option String) (reason : Option TerminalReason) :
    (conclude env p error reason).1.messageItem = p.messageItem := by
  have closed : ∀ incomplete, (p.closeOpenItems incomplete).1.messageItem = p.messageItem := by
    intro incomplete
    have speaking : ∀ q : Pipeline, (q.closeMessage incomplete).1.messageItem = q.messageItem := by
      intro q
      unfold Pipeline.closeMessage
      split <;> rfl
    exact (speaking _).trans (closeReasoning_record incomplete).messageItem
  unfold conclude
  split
  · exact closed true
  · split
    · exact closed true
    · split
      · exact closed true
      · exact closed false

theorem outputItems_twin (h : Twin p q) (same : q.messageItem = p.messageItem) :
    q.outputItems = p.outputItems := by
  obtain ⟨item, text, stats, rfl, -⟩ := h
  obtain rfl : item = p.messageItem := same
  rfl

theorem outputItems_ne_of_twin (h : Twin p q) (none : p.messageItem = none)
    (some : q.messageItem.isSome) : q.outputItems ≠ p.outputItems := by
  obtain ⟨item, text, stats, rfl, -⟩ := h
  obtain ⟨kept, rfl⟩ := Option.isSome_iff_exists.mp some
  intro same
  have lengths := congrArg List.length same
  simp [Pipeline.outputItems, Pipeline.collectedItems, Pipeline.graft, none] at lengths

/-! ## Two runs -/

/-- A new object with the same arguments as `p`; the orchestrator among them has been asked
what it has been asked. -/
def Pipeline.renewed (env : Env) (p : Pipeline) : Pipeline :=
  { Pipeline.fresh env with handled := p.handled }

/-- The two objects cannot be told apart by a run: the client sees the same frames and
`output_items` is the same afterwards. -/
def RunsAlike (env : Env) (p q : Pipeline) (arrivals : List Arrival) (ending : Ending) : Prop :=
  (run env p arrivals ending).frames = (run env q arrivals ending).frames
    ∧ (run env p arrivals ending).pipeline.outputItems
      = (run env q arrivals ending).pipeline.outputItems

theorem run_messageItem (arrivals : List Arrival) (ending : Ending) :
    (run env p arrivals ending).pipeline.messageItem
      = (loopOf env p arrivals).pipeline.messageItem := by
  have noted : ∀ q : Pipeline, (noteEnding q ending).messageItem = q.messageItem := by
    intro q
    cases ending <;> rfl
  cases error : (loopOf env p arrivals).internalError with
  | some message =>
      rw [run_of_raised error]
      exact conclude_messageItem _ _
  | none =>
      rw [run_of_returned error]
      exact (conclude_messageItem _ _).trans (noted _)

theorem run_twin {arrivals : List Arrival}
    (h : TwinLoop (loopOf env p arrivals) (loopOf env q arrivals)) (ending : Ending) :
    Twin (run env p arrivals ending).pipeline (run env q arrivals ending).pipeline
      ∧ (run env q arrivals ending).frames = (run env p arrivals ending).frames := by
  obtain ⟨twin, _, frames, error⟩ := h
  have noted : Twin (noteEnding (loopOf env p arrivals).pipeline ending)
      (noteEnding (loopOf env q arrivals).pipeline ending) := by
    obtain ⟨item, text, stats, same, reasoning, message⟩ := twin
    rw [same]
    cases ending <;> exact ⟨item, text, _, rfl, reasoning, message⟩
  have reason : endingReason (loopOf env q arrivals).pipeline arrivals ending
      = endingReason (loopOf env p arrivals).pipeline arrivals ending := by
    obtain ⟨item, text, stats, same, -⟩ := twin
    rw [same]
    rfl
  have shown : ∀ done done' : Pipeline × List Event, Twin done.1 done'.1 ∧ done'.2 = done.2 →
      Twin ((loopOf env p arrivals).yields done).pipeline
          ((loopOf env q arrivals).yields done').pipeline
        ∧ ((loopOf env q arrivals).yields done').frames
          = ((loopOf env p arrivals).yields done).frames := by
    rintro done done' ⟨still, events⟩
    refine ⟨still, ?_⟩
    show _ ++ _ = _ ++ _
    rw [frames, events]
  cases raised : (loopOf env p arrivals).internalError with
  | some message =>
      rw [run_of_raised raised, run_of_raised (error.trans raised)]
      exact shown _ _ (conclude_twin twin _ _)
  | none =>
      rw [run_of_returned raised, run_of_returned (error.trans raised), reason]
      exact shown _ _ (conclude_twin noted _ _)

theorem loopOf_frames (arrivals : List Arrival) (ending : Ending) :
    (loopOf env p arrivals).frames <+: (run env p arrivals ending).frames := by
  cases error : (loopOf env p arrivals).internalError with
  | some message =>
      rw [run_of_raised error]
      exact List.prefix_append _ _
  | none =>
      rw [run_of_returned error]
      exact List.prefix_append _ _

theorem startLoop_twin (first : List Arrival) (ending : Ending) :
    TwinLoop (startLoop env ((run env (.fresh env) first ending).pipeline.renewed env))
      (startLoop env (run env (.fresh env) first ending).pipeline) := by
  obtain ⟨heard, _, _, last, _, closed⟩ := run_remembers env first ending
  generalize (run env (.fresh env) first ending).pipeline = p at closed
  refine ⟨⟨p.messageItem, p.reasoningText, p.stats, ?_, nofun, nofun⟩,
    .fresh _ env.responseId, rfl, rfl⟩
  unfold startLoop Loop.yields Pipeline.reset Pipeline.renewed Pipeline.graft
  simp only [closed.messagePartId, closed.openReasoning, closed.reasoningPartId,
    Pipeline.fresh]

/-- **When a pipeline object can be run twice.**  After a first run of a new object, a second
run shows the client the same frames and leaves the same output array as a run of another new
object exactly when a message of the first run is replaced by one of the second, and reasoning
of the first run is not mistaken for reasoning of the second. -/
theorem rerun_same_iff (env : Env) (reliable : Reliable env) (first second : List Arrival)
    (ending ending' : Ending) :
    RunsAlike env (run env (.fresh env) first ending).pipeline
        ((run env (.fresh env) first ending).pipeline.renewed env) second ending' ↔
      ((chunksOf first).any Chunk.isText = true → (chunksOf second).any Chunk.isText = true)
        ∧ (env.emitEmptyReasoning = true → (chunksOf first).any Chunk.isThought = true →
            textFirst env (chunksOf second) = false) := by
  have twins := @startLoop_twin env first ending
  obtain ⟨heard, _, complete, last, remembered, closed⟩ := run_remembers env first ending
  have all := complete (runSchedule_returns reliable first rfl)
  subst all
  generalize (run env (.fresh env) first ending).pipeline = p at twins closed ⊢
  have spoke : p.messageItem.isSome = (chunksOf first).any Chunk.isText := by
    rw [closed.messageItem]
    exact remembered.spoke
  have thought : p.reasoningText.isEmpty = !(chunksOf first).any Chunk.isThought := by
    rw [closed.reasoningText]
    exact remembered.thought
  have alike : (env.emitEmptyReasoning = true → (chunksOf first).any Chunk.isThought = true →
      textFirst env (chunksOf second) = false) →
      TwinLoop (loopOf env (p.renewed env) second) (loopOf env p second) := by
    intro quiet
    refine twins.run second fun starts emits _ _ => ?_
    show p.reasoningText.isEmpty = true
    cases thinks : (chunksOf first).any Chunk.isThought with
    | false => rw [thought, thinks]; rfl
    | true =>
        rw [quiet emits thinks] at starts
        cases starts
  constructor
  · rintro ⟨frames, items⟩
    have quiet : env.emitEmptyReasoning = true → (chunksOf first).any Chunk.isThought = true →
        textFirst env (chunksOf second) = false := by
      intro emits thinks
      by_contra starts
      have recalls : p.reasoningText ≠ [] := by
        intro empty
        rw [empty, thinks] at thought
        cases thought
      have apart : Apart (startLoop env (p.renewed env)) (startLoop env p) :=
        ⟨twins, rfl, rfl, rfl, rfl, recalls, rfl⟩
      have diverged := apart.run reliable emits second (by simpa using starts)
      exact (diverged.mono (loopOf_frames second ending') (loopOf_frames second ending')).frames_ne
        frames
    refine ⟨fun text => ?_, quiet⟩
    by_contra silent
    have mute : (chunksOf second).any Chunk.isText = false := by simpa using silent
    obtain ⟨twin, _⟩ := run_twin (alike quiet) ending'
    refine outputItems_ne_of_twin twin ?_ ?_ items
    · rw [run_messageItem]
      exact runSchedule_messageItem _ second mute
    · rw [run_messageItem, loopOf, runSchedule_messageItem _ second mute]
      exact spoke.trans text
  · rintro ⟨replaced, quiet⟩
    obtain ⟨twin, frames⟩ := run_twin (alike quiet) ending'
    refine ⟨frames, outputItems_twin twin ?_⟩
    rw [run_messageItem, run_messageItem]
    cases speaks : (chunksOf second).any Chunk.isText with
    | true =>
        have opened : (loopOf env (p.renewed env) second).pipeline.openMessage.isSome :=
          runSchedule_openMessage reliable rfl second (.inr speaks)
        obtain ⟨item, text, stats, same, _, message⟩ := (alike quiet).pipeline
        rw [same]
        exact message opened
    | false =>
        have mute : p.messageItem = none := by
          rw [← Option.not_isSome_iff_eq_none, spoke]
          intro text
          rw [replaced text] at speaks
          cases speaks
        rw [loopOf, loopOf, runSchedule_messageItem _ second speaks,
          runSchedule_messageItem _ second speaks]
        exact mute

/-- Two answers in a row: the second message takes the place of the first. -/
theorem rerun_twoAnswers :
    RunsAlike plainEnv
      (run plainEnv (.fresh plainEnv) [.chunk (.text "one"), .chunk .finish]
        .upstreamEnd).pipeline
      ((run plainEnv (.fresh plainEnv) [.chunk (.text "one"), .chunk .finish]
        .upstreamEnd).pipeline.renewed plainEnv)
      [.chunk (.text "two"), .chunk .finish] .upstreamEnd :=
  (rerun_same_iff plainEnv plainEnv_reliable [.chunk (.text "one"), .chunk .finish]
    [.chunk (.text "two"), .chunk .finish] .upstreamEnd .upstreamEnd).mpr
    ⟨fun _ => rfl, nofun⟩

/-- After an answer, a run without one reports a message all the same. -/
theorem rerun_staleMessage :
    ¬ ∀ (env : Env) (first second : List Arrival) (ending ending' : Ending), Reliable env →
      RunsAlike env (run env (.fresh env) first ending).pipeline
        ((run env (.fresh env) first ending).pipeline.renewed env) second ending' := by
  intro alike
  have same := (alike plainEnv [.chunk (.text "one"), .chunk .finish] [.chunk .finish]
    .upstreamEnd .upstreamEnd plainEnv_reliable).2
  have lengths := congrArg List.length same
  simp only [Pipeline.outputItems, List.length_map, List.length_mergeSort] at lengths
  revert lengths
  decide

end Zhongzhuan.Responses
