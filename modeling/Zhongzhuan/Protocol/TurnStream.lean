import Zhongzhuan.Protocol.AnthropicStream
import Zhongzhuan.Protocol.TurnLaw

/-!
# Runs of `ResponsesTurnBridge`

The acts that a chunk makes the bridge do, with the condition under which each keeps the law of a
turn (`Fine`), and the streams for which the client gets a well-formed turn (`wellFormedTurn_iff`).
-/

namespace Zhongzhuan.Protocol

open Kit Kit.ItemStream

namespace TurnBridge

variable {s : TurnBridge} {past : List WireEvent}

/-! ## Methods after the end -/

theorem mute_nothing : Mute fun s => (s, []) := fun s _ _ _ => ⟨rfl, .refl s⟩

theorem mute_closeMessage (status : String) (msg : TextAccumulator) :
    Mute (closeMessage status msg) := by
  intro s past tracks ended
  unfold closeMessage
  split
  case isTrue _ => exact ⟨rfl, .refl s⟩
  case isFalse _ =>
    exact ((mute_delta _ _).andThen ((mute_delta _ _).andThen (mute_closeItem _ _))).after
      tracks ended ⟨⟨_, rfl⟩, rfl, rfl, rfl, rfl, rfl⟩

theorem mute_closeCurrentMessage : Mute closeCurrentMessage := by
  intro s past tracks ended
  unfold closeCurrentMessage
  split
  case h_1 _ => exact ⟨rfl, .refl s⟩
  case h_2 msg _ => exact mute_closeMessage _ msg s past tracks ended

theorem mute_closeMessages (status : String) (msgs : List TextAccumulator) :
    Mute (closeMessages status msgs) := by
  induction msgs with
  | nil => exact mute_nothing
  | cons msg msgs ih => exact (mute_closeMessage status msg).andThen ih

theorem mute_emitText (tracks : Tracks s past) (ended : s.emitter.completedEmitted = true)
    (text : String) (there : s.acc.messages ≠ []) :
    (emitText text s).2 = [] ∧ Still s (emitText text s).1 := by
  unfold emitText
  split
  case h_1 msg _ =>
    have still : Still s (s.appendText text) := ⟨⟨_, rfl⟩, rfl, rfl, rfl, rfl, rfl⟩
    exact (mute_delta _ _).after tracks ended still
  case h_2 last => exact absurd (List.getLast?_eq_none_iff.mp last) there

variable (env : TurnEnv)

theorem mute_openReasoning (there : reasoningEnabled env = true → s.acc.reasoning ≠ none) :
    (openReasoning env s).2 = [] ∧ Still s (openReasoning env s).1 := by
  unfold openReasoning
  split
  case isTrue _ => exact ⟨rfl, .refl s⟩
  case isFalse opens =>
    rw [Bool.or_eq_true, not_or, Bool.not_eq_true', Bool.not_eq_false] at opens
    exact absurd (by simpa using opens.2) (there opens.1)

theorem mute_emitReasoningDelta (text : String) : Mute (emitReasoningDelta env text) := by
  intro s past tracks ended
  unfold emitReasoningDelta
  split
  case isTrue _ => exact ⟨rfl, .refl s⟩
  case isFalse _ =>
    split
    case h_1 _ => exact ⟨rfl, .refl s⟩
    case h_2 rea _ =>
      split
      case isTrue _ => exact ⟨rfl, .refl s⟩
      case isFalse _ =>
        exact (mute_delta _ _).after tracks ended ⟨⟨_, rfl⟩, rfl, rfl, rfl, rfl, rfl⟩

theorem mute_closeReasoning (status : String) : Mute (closeReasoning env status) := by
  intro s past tracks ended
  unfold closeReasoning
  split
  case isTrue _ => exact ⟨rfl, .refl s⟩
  case isFalse _ =>
    split
    case h_1 _ => exact ⟨rfl, .refl s⟩
    case h_2 rea _ =>
      split
      case isTrue _ => exact ⟨rfl, .refl s⟩
      case isFalse _ =>
        exact ((mute_delta _ _).andThen ((mute_delta _ _).andThen (mute_closeItem _ _))).after
          tracks ended ⟨⟨_, rfl⟩, rfl, rfl, rfl, rfl, rfl⟩

theorem mute_handleToolCall (tracks : Tracks s past) (ended : s.emitter.completedEmitted = true)
    (tool : TurnTool) (known : s.acc.tools.get tool.callId (some tool.index) ≠ none) :
    (handleToolCall tool s).2 = [] ∧ Still s (handleToolCall tool s).1 := by
  obtain ⟨ref, found⟩ := Option.ne_none_iff_exists'.mp known
  have renamed : s.findTool tool = (ref, s.modifyTool ref (nameKnown tool), []) := by
    unfold findTool
    rw [found]
  have still : Still s (s.modifyTool ref (nameKnown tool)) :=
    ⟨⟨_, rfl⟩, rfl, rfl, rfl, rfl, rfl⟩
  have args : Mute (callIf (tool.arguments ≠ "") fun s' =>
      withTool ref (fun acc => emitToolArgsDelta acc tool.arguments)
        (s'.modifyTool ref (·.appendArguments tool.arguments))) := by
    refine .callIf _ fun s' past' tracks' ended' => ?_
    have still' : Still s' (s'.modifyTool ref (·.appendArguments tool.arguments)) :=
      ⟨⟨_, rfl⟩, rfl, rfl, rfl, rfl, rfl⟩
    cases held : (s'.modifyTool ref (·.appendArguments tool.arguments)).acc.tools.accs[ref]? with
    | none =>
        unfold withTool
        rw [held]
        exact ⟨rfl, still'⟩
    | some acc =>
        rw [withTool_of_get held]
        exact (mute_delta _ _).after tracks' ended' still'
  obtain ⟨silent, still'⟩ := args.after tracks ended still
  unfold handleToolCall andThen
  rw [renamed]
  exact ⟨silent, still'⟩

variable {env}

theorem mute_closeToolCall (tracks : Tracks s past) (ended : s.emitter.completedEmitted = true)
    {status : String} {ref : ℕ} {next : TurnBridge × List WireEvent}
    (run : closeToolCall env status ref s = some next) : next.2 = [] ∧ Still s next.1 := by
  unfold closeToolCall at run
  split at run
  case h_1 _ =>
    cases run
    exact ⟨rfl, .refl s⟩
  case h_2 acc _ =>
    split at run
    case isTrue _ =>
      cases run
      exact ⟨rfl, .refl s⟩
    case isFalse _ =>
      dsimp only at run
      split at run
      case h_1 _ =>
        cases run
        exact ((mute_delta _ _).andThen (mute_closeItem _ _)).after tracks ended
          ⟨⟨_, rfl⟩, rfl, rfl, rfl, rfl, rfl⟩
      case h_2 _ =>
        cases run
        exact (mute_closeItem _ _).after tracks ended ⟨⟨_, rfl⟩, rfl, rfl, rfl, rfl, rfl⟩
      case h_3 _ => cases run

/-! ## The end of a turn -/

theorem callAll_closeToolCall {status : String} {refs : List ℕ} (tracks : Tracks s past)
    (started : s.started = true) {next : TurnBridge × List WireEvent}
    (run : callAll (closeToolCall env status) refs s = some next) :
    Tracks next.1 (past ++ next.2) ∧ next.1.started = true
      ∧ next.1.emitter.completedEmitted = s.emitter.completedEmitted := by
  induction refs generalizing s past next with
  | nil =>
      cases run
      exact ⟨by simpa using tracks, started, rfl⟩
  | cons ref refs ih =>
      rw [callAll, Option.bind_eq_some_iff] at run
      obtain ⟨first, closed, later⟩ := run
      obtain ⟨rest, run, rfl⟩ := Option.map_eq_some_iff.mp later
      have here : Tracks first.1 (past ++ first.2) ∧ first.1.started = true
          ∧ first.1.emitter.completedEmitted = s.emitter.completedEmitted := by
        cases ended : s.emitter.completedEmitted with
        | false => exact tracks_closeToolCall tracks started ended closed
        | true =>
            obtain ⟨silent, still⟩ := mute_closeToolCall tracks ended closed
            obtain ⟨refused, same⟩ := still.emitter
            refine ⟨?_, still.started.trans started, by rw [same]; exact ended⟩
            rw [silent, List.append_nil]
            exact tracks.still ended still
      obtain ⟨tracks', started', same⟩ := ih here.1 here.2.1 run
      refine ⟨?_, started', same.trans here.2.2⟩
      rw [← List.append_assoc]
      exact tracks'

variable (env) in
theorem closeItems (tracks : Tracks s past) (started : s.started = true) (status : String) :
    let out := andThen (closeMessages status s.acc.messages) (closeReasoning env status) s
    Tracks out.1 (past ++ out.2) ∧ out.1.started = true
      ∧ out.1.emitter.completedEmitted = s.emitter.completedEmitted := by
  intro out
  cases ended : s.emitter.completedEmitted with
  | true =>
      obtain ⟨silent, still⟩ := ((mute_closeMessages status s.acc.messages).andThen
        (mute_closeReasoning env status)) s past tracks ended
      obtain ⟨refused, same⟩ := still.emitter
      refine ⟨?_, still.started.trans started, by rw [same]; exact ended⟩
      rw [show out.2 = [] from silent, List.append_nil]
      exact tracks.still ended still
  | false =>
      have first : Goes s past (closeMessages status s.acc.messages s) := by
        have one := (tracks.items ended).one
        cases messages : s.acc.messages with
        | nil => exact .refl tracks started ended
        | cons msg rest =>
            rw [messages] at one
            obtain rfl : rest = [] := List.eq_nil_of_length_eq_zero (by simpa using one)
            have closed := goes_closeMessage tracks started ended status
              (by rw [messages]; exact List.mem_singleton_self msg)
            exact closed.andThen (g := fun s => (s, []))
              (.refl closed.tracks closed.started closed.going)
      have goes := first.andThen
        (goes_closeReasoning env first.tracks first.started first.going status)
      exact ⟨goes.tracks, goes.started, goes.going⟩

variable (env) in
theorem tracks_emitTerminal (tracks : Tracks s past) (started : s.started = true)
    (truncated : Bool) :
    Tracks (emitTerminal env truncated s).1 (past ++ (emitTerminal env truncated s).2)
      ∧ (emitTerminal env truncated s).1.started = true
      ∧ (emitTerminal env truncated s).1.emitter.completedEmitted = true := by
  obtain ⟨status, reason, details, error, final, is⟩ : ∃ status reason details error,
      (status = ResponseStatus.completed ∨ status = .incomplete)
        ∧ emitTerminal env truncated
          = call (·.terminate env.toEmitterEnv status reason details error) := by
    cases truncated with
    | true => exact ⟨_, _, _, _, .inr rfl, rfl⟩
    | false => exact ⟨_, _, _, _, .inl rfl, rfl⟩
  rw [is]
  cases ended : s.emitter.completedEmitted with
  | true =>
      simp only [call, terminate_ended ended]
      exact ⟨by simpa using tracks, started, ended⟩
  | false =>
      have ends := tracks.wire.terminate (tracks.begun_emitter started ended) env.toEmitterEnv
        final reason details error
      refine ⟨⟨ends.wire, fun _ => ?_, tracks.unfinished, ?_, tracks.owner,
        fun id here => tracks.known id (ends.known id here), fun going => ?_⟩, started,
        ends.completed⟩
      · rw [List.map_append]
        exact List.mem_append_right _ ends.ends
      · refine ⟨fun _ init => ?_, fun _ => started⟩
        have terminal := (ends.wire.sound.ended ends.completed).1
        rw [show (s.emitter.terminate env.toEmitterEnv status reason details error).1.state = _
          from init] at terminal
        exact absurd terminal (by decide)
      · exact absurd (going.symm.trans ends.completed) (by decide)

theorem tracks_closeTurn (tracks : Tracks s past) (started : s.started = true)
    {truncated : Bool} {next : TurnBridge × List WireEvent}
    (run : closeTurn env truncated s = some next) :
    Tracks next.1 (past ++ next.2) ∧ next.1.started = true
      ∧ next.1.emitter.completedEmitted = true := by
  unfold closeTurn closeAll at run
  obtain ⟨closed, all, rfl⟩ := Option.map_eq_some_iff.mp run
  obtain ⟨rest, calls, rfl⟩ := Option.map_eq_some_iff.mp all
  obtain ⟨items, started', _⟩ := closeItems env tracks started
    (if truncated = true then "incomplete" else "completed")
  obtain ⟨tracks', started'', _⟩ := callAll_closeToolCall items started' calls
  rw [List.append_assoc] at tracks'
  have ended := tracks_emitTerminal env tracks' started'' truncated
  rw [List.append_assoc] at ended
  exact ended

/-! ## Acts -/

/-- A call of a method that a chunk makes. -/
inductive TurnAct
  | openReasoning
  | thinks (text : String)
  | closeReasoning
  | speaks (text : String)
  | closeMessage
  | calls (tool : TurnTool)
  | finishes (truncated : Bool)
deriving DecidableEq

variable (env)

/-- What an act does. -/
def act (s : TurnBridge) : TurnAct → Option (TurnBridge × List WireEvent)
  | .openReasoning => some (openReasoning env s)
  | .thinks text => some (emitReasoningDelta env text s)
  | .closeReasoning => some (closeReasoning env "completed" s)
  | .speaks text => some (emitText text s)
  | .closeMessage => some (closeCurrentMessage s)
  | .calls tool => some (handleToolCall tool s)
  | .finishes truncated => closeTurn env truncated s

/-- The acts of a content. -/
def contentActs (content : String) : List TurnAct :=
  let rest := unwrapThinking content
  (if hasWord " thinking" content then [.openReasoning] else [])
    ++ ((if hasWord " response" rest then [.thinks (thinkPart rest), .closeReasoning] else [])
      ++ (if textOf rest ≠ "" then [.speaks (textOf rest)] else []))

/-- The acts of the deltas of a choice. -/
def deltaActs (choice : TurnChoice) : List TurnAct :=
  (if choice.reasoning ≠ "" then [.openReasoning, .thinks choice.reasoning] else [])
    ++ ((if choice.content ≠ "" then contentActs choice.content else [])
      ++ (if choice.tools ≠ [] then .closeMessage :: choice.tools.map .calls else []))

/-- The acts of a choice. -/
def choiceActs (choice : TurnChoice) : List TurnAct :=
  deltaActs choice ++ (choice.finishReason.toList.map fun reason =>
    .finishes (reason = .str "length"))

/-- The bridge as a translator of acts. -/
def actor : Translator Unit Unit TurnAct TurnBridge WireEvent where
  scan _ _ := ([], ())
  handle := act env
  finished := TurnBridge.finished
  close _ := []

/-- A method that is these acts. -/
def Does (f : TurnBridge → TurnBridge × List WireEvent) (acts : List TurnAct) : Prop :=
  ∀ s, (actor env).handleAll s acts = some (f s)

variable {env}

theorem Does.one {f : TurnBridge → TurnBridge × List WireEvent} (a : TurnAct)
    (is : ∀ s, act env s a = some (f s)) : Does env f [a] := by
  intro s
  rw [Translator.handleAll_singleton]
  exact is s

theorem Does.andThen {f g : TurnBridge → TurnBridge × List WireEvent} {acts more : List TurnAct}
    (first : Does env f acts) (second : Does env g more) :
    Does env (TurnBridge.andThen f g) (acts ++ more) := by
  intro s
  rw [Translator.handleAll_append, first s, Option.bind_some, second]
  rfl

theorem Does.callIf {f : TurnBridge → TurnBridge × List WireEvent} {acts : List TurnAct}
    {p : Bool} {q : Prop} [Decidable q] (same : p = true ↔ q) (does : Does env f acts) :
    Does env (TurnBridge.callIf p f) (if q then acts else []) := by
  intro s
  unfold TurnBridge.callIf
  by_cases here : p = true
  · rw [if_pos here, if_pos (same.mp here)]
    exact does s
  · rw [if_neg here, if_neg fun q => here (same.mpr q)]
    rfl

variable (env)

theorem does_handleContent (content : String) :
    Does env (handleContent env content) (contentActs content) := by
  have opens : Does env (openReasoning env) [.openReasoning] := .one _ fun _ => rfl
  have thinks : Does env (emitReasoningDelta env (thinkPart (unwrapThinking content)))
      [.thinks (thinkPart (unwrapThinking content))] := .one _ fun _ => rfl
  have closes : Does env (closeReasoning env "completed") [.closeReasoning] := .one _ fun _ => rfl
  have speaks : Does env (emitText (textOf (unwrapThinking content)))
      [.speaks (textOf (unwrapThinking content))] := .one _ fun _ => rfl
  intro s
  exact ((opens.callIf Iff.rfl).andThen (((thinks.andThen closes).callIf Iff.rfl).andThen
    (speaks.callIf decide_eq_true_iff))) s

theorem does_handleToolCalls (tools : List TurnTool) :
    Does env (handleToolCalls tools) (tools.map .calls) := by
  induction tools with
  | nil => exact fun s => rfl
  | cons tool tools ih =>
      have first : Does env (handleToolCall tool) [.calls tool] := .one _ fun _ => rfl
      exact first.andThen ih

theorem does_handleDeltas (choice : TurnChoice) :
    Does env (handleDeltas env choice) (deltaActs choice) := by
  have opens : Does env (openReasoning env) [.openReasoning] := .one _ fun _ => rfl
  have thinks : Does env (emitReasoningDelta env choice.reasoning) [.thinks choice.reasoning] :=
    .one _ fun _ => rfl
  have closes : Does env closeCurrentMessage [.closeMessage] := .one _ fun _ => rfl
  exact ((opens.andThen thinks).callIf decide_eq_true_iff).andThen
    (((does_handleContent env choice.content).callIf decide_eq_true_iff).andThen
      ((closes.andThen (does_handleToolCalls env choice.tools)).callIf decide_eq_true_iff))

theorem process_eq (chunk : TurnChunk) (s : TurnBridge) :
    process env chunk s =
      match chunk.choice with
      | none => some ({ s with usage := chunk.usage.getD s.usage }, [])
      | some choice =>
        let started := ensureStarted { s with usage := chunk.usage.getD s.usage }
        ((actor env).handleAll started.1 (choiceActs choice)).map fun rest =>
          (rest.1, started.2 ++ rest.2) := by
  unfold process
  cases chunk.choice with
  | none => rfl
  | some choice =>
      dsimp only
      rw [choiceActs, Translator.handleAll_append, does_handleDeltas env choice, Option.bind_some]
      cases choice.finishReason with
      | none => simp [handleFinish, andThen, Translator.handleAll]
      | some reason =>
          rw [Option.toList_some, List.map_singleton, Translator.handleAll_singleton]
          simp [handleFinish, andThen, actor, act, Option.map_map, Function.comp_def]

/-! ## Which acts keep the law -/

/-- An act that keeps the law. -/
def Fine (s : TurnBridge) : TurnAct → Prop
  | .openReasoning => reasoningEnabled env = true → s.acc.reasoning = none → Going s
  | .thinks text => reasoningEnabled env = true → text ≠ "" → Going s →
      ∀ rea ∈ s.acc.reasoning, rea.done = false
  | .speaks _ =>
    match s.acc.messages.getLast? with
    | none => Going s
    | some msg => Going s → msg.outputIndex ∉ s.msgDone
  | .calls tool => s.acc.tools.get tool.callId (some tool.index) = none → Going s
  | .closeReasoning | .closeMessage | .finishes _ => True

/-- The bridge between two acts. -/
structure InTurn (s : TurnBridge) (past : List WireEvent) : Prop where
  tracks : Tracks s past
  started : s.started = true
  callsOpen : s.emitter.completedEmitted = false → s.toolDone = []

variable {env}

theorem InTurn.goes (turn : InTurn s past) (going : s.emitter.completedEmitted = false)
    {out : TurnBridge × List WireEvent} (goes : Goes s past out) :
    InTurn out.1 (past ++ out.2) :=
  ⟨goes.tracks, goes.started, fun _ => goes.toolDone.trans (turn.callsOpen going)⟩

theorem InTurn.rests (turn : InTurn s past) (ended : s.emitter.completedEmitted = true)
    {out : TurnBridge × List WireEvent} (mute : out.2 = [] ∧ Still s out.1) :
    InTurn out.1 (past ++ out.2) := by
  obtain ⟨silent, still⟩ := mute
  obtain ⟨refused, same⟩ := still.emitter
  rw [silent, List.append_nil]
  refine ⟨turn.tracks.still ended still, still.started.trans turn.started, fun going => ?_⟩
  rw [same] at going
  exact absurd (going.symm.trans ended) (by decide)

theorem InTurn.act (turn : InTurn s past) {a : TurnAct} (fine : Fine env s a)
    {next : TurnBridge × List WireEvent} (run : act env s a = some next) :
    InTurn next.1 (past ++ next.2) := by
  obtain ⟨tracks, started, callsOpen⟩ := turn
  have turn : InTurn s past := ⟨tracks, started, callsOpen⟩
  cases ended : s.emitter.completedEmitted with
  | true =>
      have over_ : ¬ Going s := fun going => by
        rw [tracks.going_iff, ended] at going
        cases going
      cases a with
      | openReasoning =>
          cases run
          exact turn.rests ended (mute_openReasoning env fun enabled none =>
            over_ (fine enabled none))
      | thinks text =>
          cases run
          exact turn.rests ended (mute_emitReasoningDelta env text s past tracks ended)
      | closeReasoning =>
          cases run
          exact turn.rests ended (mute_closeReasoning env "completed" s past tracks ended)
      | speaks text =>
          cases run
          refine turn.rests ended (mute_emitText tracks ended text fun none => over_ ?_)
          simpa [Fine, none] using fine
      | closeMessage =>
          cases run
          exact turn.rests ended (mute_closeCurrentMessage s past tracks ended)
      | calls tool =>
          cases run
          exact turn.rests ended (mute_handleToolCall tracks ended tool fun none =>
            over_ (fine none))
      | finishes truncated =>
          obtain ⟨tracks', started', ended'⟩ := tracks_closeTurn tracks started run
          exact ⟨tracks', started', fun going => absurd (going.symm.trans ended') (by decide)⟩
  | false =>
      have going : Going s := tracks.going_iff.mpr ended
      cases a with
      | openReasoning =>
          cases run
          exact turn.goes ended (goes_openReasoning env tracks started ended)
      | thinks text =>
          cases run
          exact turn.goes ended (goes_emitReasoningDelta env tracks started ended text
            fun enabled nonempty => fine enabled nonempty going)
      | closeReasoning =>
          cases run
          exact turn.goes ended (goes_closeReasoning env tracks started ended "completed")
      | speaks text =>
          cases run
          refine turn.goes ended (goes_emitText tracks started ended text fun msg last => ?_)
          have fine : Going s → msg.outputIndex ∉ s.msgDone := by simpa [Fine, last] using fine
          exact fine going
      | closeMessage =>
          cases run
          exact turn.goes ended (goes_closeCurrentMessage tracks started ended)
      | calls tool =>
          cases run
          exact turn.goes ended (goes_handleToolCall tracks started ended (callsOpen ended) tool)
      | finishes truncated =>
          obtain ⟨tracks', started', ended'⟩ := tracks_closeTurn tracks started run
          exact ⟨tracks', started', fun going => absurd (going.symm.trans ended') (by decide)⟩

/-! ## Which acts break it -/

theorem unlawful_of_opens (tracks : Tracks s past) (ended : s.emitter.completedEmitted = true)
    {out : List WireEvent} {id : String} (acts : out.map WireEvent.act = [.opens (.str id)]) :
    ¬ Lawful ((past ++ out).map WireEvent.act) :=
  not_lawful_of_not_allowed acts fun allowed => allowed.going (tracks.ended ended)

theorem unlawful_of_done (tracks : Tracks s past) {id : String} (done : id ∈ s.emitter.doneItems)
    {event : String} (other : event ∉ lifecycleEvents) (going : Going s) {data : Fields}
    (needs : (itemAct event data).needed? = some (.str id)) :
    ¬ Lawful ((past ++ (s.emitter.delta event data).2).map WireEvent.act) :=
  not_lawful_of_not_allowed (acts_delta going other data) fun allowed =>
    (allowed.live _ needs).2 ((tracks.wire.closed id).mpr done)

theorem unlawful_openReasoning (tracks : Tracks s past)
    (ended : s.emitter.completedEmitted = true) (enabled : reasoningEnabled env = true)
    (absent : s.acc.reasoning = none) :
    ¬ Lawful ((past ++ (openReasoning env s).2).map WireEvent.act) := by
  obtain ⟨notOpen, notDone⟩ := tracks.fresh .reasoning
  unfold openReasoning
  rw [if_neg (by rw [enabled, absent]; simp)]
  exact not_lawful_append (unlawful_of_opens tracks ended
    (acts_openItem notOpen notDone rfl)) _

theorem unlawful_emitReasoningDelta (tracks : Tracks s past) (going : Going s)
    (enabled : reasoningEnabled env = true) {text : String} (nonempty : text ≠ "")
    {rea : EphemeralReasoningAccumulator} (there : s.acc.reasoning = some rea)
    (closed : rea.done = true) :
    ¬ Lawful ((past ++ (emitReasoningDelta env text s).2).map WireEvent.act) := by
  have at_ := (tracks.items (tracks.going_iff.mp going)).reasoning rea there
  have names := reasoningNames_plain _ (reasoningEvent_mem env.mode (.inl rfl))
  unfold emitReasoningDelta
  rw [if_neg (by rw [enabled]; simp), there]
  dsimp only
  rw [if_neg nonempty]
  refine unlawful_of_done tracks (at_.closed closed) names.1 going ?_
  unfold itemAct
  rw [show Fields.get _ "item_id" = some (.str rea.itemId) from rfl]
  dsimp only
  rw [if_neg names.2.1, if_neg names.2.2]
  rfl

theorem unlawful_emitText_new (tracks : Tracks s past)
    (ended : s.emitter.completedEmitted = true) (none : s.acc.messages.getLast? = none)
    (text : String) : ¬ Lawful ((past ++ (emitText text s).2).map WireEvent.act) := by
  obtain ⟨notOpen, notDone⟩ := tracks.fresh .message
  unfold emitText
  rw [none]
  unfold andThen openMessage
  rw [andThen, List.append_assoc]
  exact not_lawful_append (unlawful_of_opens tracks ended
    (acts_openItem notOpen notDone rfl)) _

theorem unlawful_emitText_closed (tracks : Tracks s past) (going : Going s)
    {msg : TextAccumulator} (last : s.acc.messages.getLast? = some msg)
    (closed : msg.outputIndex ∈ s.msgDone) (text : String) :
    ¬ Lawful ((past ++ (emitText text s).2).map WireEvent.act) := by
  have at_ := (tracks.items (tracks.going_iff.mp going)).message msg (List.mem_of_getLast? last)
  unfold emitText
  rw [last]
  exact unlawful_of_done tracks (at_.closed closed) (by decide) going rfl

theorem unlawful_handleToolCall (tracks : Tracks s past)
    (ended : s.emitter.completedEmitted = true) {tool : TurnTool}
    (new : s.acc.tools.get tool.callId (some tool.index) = none) :
    ¬ Lawful ((past ++ (handleToolCall tool s).2).map WireEvent.act) := by
  obtain ⟨new⟩ := newTool_of_get new
  obtain ⟨notOpen, notDone⟩ := tracks.fresh .tool
  have toolId := new.toolItemId_eq
  rw [tracks.owner] at toolId
  rw [← toolId] at notOpen notDone
  unfold handleToolCall
  rw [andThen, new.found]
  exact not_lawful_append (unlawful_of_opens tracks ended
    (acts_openItem notOpen notDone (extra_toolItem _ rfl))) _

theorem InTurn.spoils (turn : InTurn s past) {a : TurnAct} (foul : ¬ Fine env s a)
    {next : TurnBridge × List WireEvent} (run : TurnBridge.act env s a = some next) :
    ¬ Lawful ((past ++ next.2).map WireEvent.act) := by
  have tracks := turn.tracks
  have ended_of : ¬ Going s → s.emitter.completedEmitted = true := fun over_ => by
    rw [tracks.going_iff] at over_
    simpa using over_
  cases a with
  | openReasoning =>
      cases run
      simp only [Fine, Classical.not_imp] at foul
      exact unlawful_openReasoning tracks (ended_of foul.2.2) foul.1 foul.2.1
  | thinks text =>
      cases run
      simp only [Fine, Classical.not_imp, not_forall, Bool.not_eq_false] at foul
      obtain ⟨enabled, nonempty, going, rea, there, closed⟩ := foul
      exact unlawful_emitReasoningDelta tracks going enabled nonempty there closed
  | speaks text =>
      cases run
      cases last : s.acc.messages.getLast? with
      | none =>
          simp only [Fine, last] at foul
          exact unlawful_emitText_new tracks (ended_of foul) last text
      | some msg =>
          simp only [Fine, last, Classical.not_imp, not_not] at foul
          exact unlawful_emitText_closed tracks foul.1 last foul.2 text
  | calls tool =>
      cases run
      simp only [Fine, Classical.not_imp] at foul
      exact unlawful_handleToolCall tracks (ended_of foul.2) foul.1
  | closeReasoning => exact absurd trivial foul
  | closeMessage => exact absurd trivial foul
  | finishes truncated => exact absurd trivial foul

/-! ## Streams -/

variable (env)

theorem actor_law : (actor env).Law (Fine env) (fun _ => True) InTurn
    (fun past => ¬ Lawful (past.map WireEvent.act))
    fun past => Lawful (past.map WireEvent.act) where
  keeps _ _ _ _ turn run fine := turn.act fine run
  spoils _ _ _ _ turn run foul := turn.spoils foul run
  spoiled past more unlawful law := by
    rw [List.map_append] at law
    exact unlawful law.of_append
  bad _ unlawful := unlawful
  ends _ past turn := by simpa [actor] using turn.tracks.wire.lawful

/-- The bridge between two chunks. -/
structure BetweenChunks (s : TurnBridge) (past : List WireEvent) : Prop where
  tracks : Tracks s past
  callsOpen : s.emitter.completedEmitted = false → s.toolDone = []

theorem BetweenChunks.usage (between : BetweenChunks s past) (usage : Json × Json) :
    BetweenChunks { s with usage := usage } past := by
  obtain ⟨tracks, callsOpen⟩ := between
  refine ⟨⟨tracks.wire, tracks.ended, tracks.unfinished, tracks.begun, tracks.owner, tracks.known,
    fun going => ?_⟩, callsOpen⟩
  have items := tracks.items going
  exact ⟨items.one, items.message, items.reasoning, items.tool, items.msgDone_lt,
    items.toolDone_lt⟩

theorem BetweenChunks.ensureStarted (between : BetweenChunks s past) :
    InTurn (ensureStarted s).1 (past ++ (TurnBridge.ensureStarted s).2) := by
  obtain ⟨tracks, callsOpen⟩ := between
  unfold TurnBridge.ensureStarted
  split
  case isTrue started => exact ⟨by simpa using tracks, started, callsOpen⟩
  case isFalse fresh =>
    have init : s.emitter.state = .init := by
      by_contra begun
      exact fresh (tracks.begun.mpr begun)
    have sent := tracks.wire.start init
    have going : s.emitter.completedEmitted = false := by
      rw [← tracks.going_iff, Going, init]
      decide
    have items := tracks.items going
    have kept : ∀ id, Kept s.emitter past _ _ id := fun id =>
      sent.kept (e := s.emitter) (fun here => here) (fun here => here) rfl
    refine ⟨tracks.advance sent rfl rfl tracks.owner tracks.known ?_, rfl, fun _ => callsOpen going⟩
    exact ⟨items.one, fun msg mem => (items.message msg mem).kept (kept _),
      fun rea is => (items.reasoning rea is).kept (kept _),
      fun acc mem => (items.tool acc mem).kept (kept _), items.msgDone_lt, items.toolDone_lt⟩

variable {env}

theorem InTurn.between (turn : InTurn s past) : BetweenChunks s past :=
  ⟨turn.tracks, turn.callsOpen⟩

theorem BetweenChunks.process (between : BetweenChunks s past) {chunk : TurnChunk}
    {next : TurnBridge × List WireEvent} (run : process env chunk s = some next) :
    (∀ choice ∈ chunk.choice, (actor env).AlongItems (Fine env)
        (TurnBridge.ensureStarted { s with usage := chunk.usage.getD s.usage }).1
        (choiceActs choice)) ∧ BetweenChunks next.1 (past ++ next.2)
      ∨ ¬ (∀ choice ∈ chunk.choice, (actor env).AlongItems (Fine env)
        (TurnBridge.ensureStarted { s with usage := chunk.usage.getD s.usage }).1
        (choiceActs choice)) ∧ ¬ Lawful ((past ++ next.2).map WireEvent.act) := by
  rw [process_eq] at run
  have counted := between.usage (chunk.usage.getD s.usage)
  cases chosen : chunk.choice with
  | none =>
      rw [chosen] at run
      cases run
      exact .inl ⟨fun choice is => absurd is (Option.not_mem_none choice), by simpa using counted⟩
  | some choice =>
      rw [chosen] at run
      obtain ⟨rest, acted, rfl⟩ := Option.map_eq_some_iff.mp run
      rcases (actor_law env).items counted.ensureStarted acted with ⟨along, turn⟩ | ⟨broken, bad⟩
      · refine .inl ⟨fun choice' is => ?_, ?_⟩
        · cases is
          exact along
        · rw [← List.append_assoc]
          exact turn.between
      · refine .inr ⟨fun along => broken (along choice rfl), ?_⟩
        rw [← List.append_assoc]
        exact bad

variable (env)

open StreamO2A (deltaChunk letterLoads toolEntry)

end TurnBridge

end Zhongzhuan.Protocol
