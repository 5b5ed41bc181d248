import Zhongzhuan.Protocol.AnthropicStream
import Zhongzhuan.Protocol.StreamA2O

/-!
# The end of an OpenAI stream

`FinishPhase.next` is the law of the end of an OpenAI stream as an automaton: exactly one chunk
has a finish reason, one of four, and only the `[DONE]` marker follows it.

`StreamA2O` has three exits.  Two of them keep to the law.  The third, `finish_safely`, writes the
stop reason of the upstream as it is, and events that follow an exit in the same chunk are still
handled; `openaiStream_iff` says that nothing else breaks it.
-/

namespace Zhongzhuan.Protocol

open Kit

/-! ## The law -/

/-- The finish reasons of the OpenAI format. -/
def finishReasons : List Json :=
  [.str "stop", .str "length", .str "tool_calls", .str "content_filter"]

/-- Where an OpenAI stream stands. -/
inductive FinishPhase
  | going
  /-- The chunk with the finish reason was sent. -/
  | closing
  | over
deriving DecidableEq

namespace FinishPhase

/-- What a frame does to a stream; nothing when it is not allowed there. -/
def next : FinishPhase → OpenAIFrame → Option FinishPhase
  | .going, .chunk _ _ _ finishReason _ =>
    if finishReason = .null then some .going
    else if finishReason ∈ finishReasons then some .closing
    else none
  | .closing, .doneMarker => some .over
  | _, _ => none

/-- Where frames lead. -/
def follow : FinishPhase → List OpenAIFrame → Option FinishPhase
  | p, [] => some p
  | p, f :: frames => (p.next f).bind (follow · frames)

theorem follow_append (p : FinishPhase) (frames more : List OpenAIFrame) :
    p.follow (frames ++ more) = (p.follow frames).bind (follow · more) := by
  induction frames generalizing p with
  | nil => rfl
  | cons f frames ih =>
      rw [List.cons_append, follow, follow]
      cases p.next f with
      | none => rfl
      | some q => exact ih q

end FinishPhase

/-- **The law of an OpenAI stream** that has come to its end. -/
def WellFormedOpenAI (frames : List OpenAIFrame) : Prop :=
  FinishPhase.going.follow frames = some .over

instance (frames : List OpenAIFrame) : Decidable (WellFormedOpenAI frames) :=
  inferInstanceAs (Decidable (_ = _))

namespace StreamA2O

variable (env : A2OEnv)

/-! ## What the translator must be given -/

/-- An event of which nothing is sent when the stream has finished. -/
def QuietInput : AnthropicInput → Prop
  | .messageStart .. | .toolStart .. | .text _ | .inputJson _ (some _) => False
  | .inputJson _ none | .messageDelta .. | .messageStop | .error _ | .nothing => True

/-- What is read of the event that a line completes. -/
def lineInput (s : StreamA2O) (line : Bytes) : Option AnthropicInput :=
  if (Utf8.decodeReplacing line).rdropWhile (· = '\r') = [] then
    match s.pendingData env, s.pendingEvent with
    | .json v, some eventType => AnthropicInput.read env s.opened eventType v
    | _, _ => none
  else none

/-- A line that does not complete an event which a finished stream would still send. -/
def ProperLine (s : StreamA2O) (line : Bytes) : Prop :=
  s.finished = true → ∀ input ∈ s.lineInput env line, QuietInput input

/-- A stream that is not finished has no stop reason yet, or one that is a finish reason. -/
def ProperEnd (s : StreamA2O) : Prop :=
  s.finished = false → ∀ reason ∈ s.stopReason, reason ∈ finishReasons

/-! ## Steps -/

/-- Where the stream of a translator stands. -/
def phase (s : StreamA2O) : FinishPhase := if s.finished then .over else .going

variable {env} {s : StreamA2O}

theorem finishReasonOf_mem (stopReason : Option Json) :
    .str (finishReasonOf stopReason) ∈ finishReasons := by
  cases stopReason with
  | none => decide
  | some v =>
      cases v with
      | str reason =>
          have listed : ∀ entry ∈ mapStopReasonA2O, Json.str entry.2 ∈ finishReasons := by decide
          rw [finishReasonOf]
          cases found : mapStopReasonA2O.lookup reason with
          | none => decide
          | some value =>
              obtain ⟨_, _, split, _⟩ := List.lookup_eq_some_iff.mp found
              exact listed (reason, value) (by rw [split]; simp)
      | null | bool | int | float | arr | obj => exact List.mem_cons_self

theorem finished_toolIndexOf (s : StreamA2O) (key : Json) :
    (s.toolIndexOf key).1.finished = s.finished := by
  unfold toolIndexOf
  split <;> rfl

theorem follow_handleInput (going : s.finished = false) {input : AnthropicInput}
    {next : StreamA2O × List OpenAIFrame} (handled : s.handleInput env input = some next) :
    FinishPhase.going.follow next.2 = some next.1.phase := by
  cases input with
  | messageStart | toolStart | text | messageDelta | nothing =>
      cases handled
      simp [FinishPhase.follow, FinishPhase.next, phase, going, onToolStart, chunkOf]
  | inputJson key partialJson =>
      cases handled
      have still := (finished_toolIndexOf s key).trans going
      cases partialJson <;>
        simp [onInputJson, FinishPhase.follow, FinishPhase.next, phase, still, chunkOf]
  | messageStop =>
      rw [handleInput, onMessageStop, going] at handled
      simp only [Bool.false_eq_true, if_false] at handled
      split at handled
      case isTrue _ =>
        cases handled
        simp [FinishPhase.follow, FinishPhase.next, phase, finishReasonOf_mem]
      case isFalse _ => cases handled
  | error message =>
      cases handled
      simp [finishWithError, going, FinishPhase.follow, FinishPhase.next, phase, chunkOf,
        finishReasons]

theorem follow_handleInput_over (ended : s.finished = true) {input : AnthropicInput}
    {next : StreamA2O × List OpenAIFrame} (handled : s.handleInput env input = some next) :
    (QuietInput input → next.2 = [] ∧ next.1.finished = true)
      ∧ (¬ QuietInput input → FinishPhase.over.follow next.2 = none) := by
  cases input with
  | messageStart | toolStart | text =>
      cases handled
      exact ⟨False.elim, fun _ => rfl⟩
  | messageDelta | nothing =>
      cases handled
      exact ⟨fun _ => ⟨rfl, ended⟩, fun loud => absurd trivial loud⟩
  | inputJson key partialJson =>
      cases handled
      cases partialJson with
      | none =>
          exact ⟨fun _ => ⟨rfl, (finished_toolIndexOf s key).trans ended⟩,
            fun loud => absurd trivial loud⟩
      | some arguments => exact ⟨False.elim, fun _ => rfl⟩
  | messageStop =>
      rw [handleInput, onMessageStop, if_pos ended] at handled
      cases handled
      exact ⟨fun _ => ⟨rfl, ended⟩, fun loud => absurd trivial loud⟩
  | error message =>
      rw [handleInput, finishWithError, if_pos ended] at handled
      cases handled
      exact ⟨fun _ => ⟨rfl, ended⟩, fun loud => absurd trivial loud⟩

theorem handleLine_cases {line : Bytes} {next : StreamA2O × List OpenAIFrame}
    (handled : s.handleLine env line = some next) :
    (∃ input, s.lineInput env line = some input ∧ s.clear.handleInput env input = some next)
      ∨ (s.lineInput env line = none ∧ next.2 = [] ∧ next.1.finished = s.finished) := by
  unfold handleLine at handled
  unfold lineInput
  by_cases blank : (Utf8.decodeReplacing line).rdropWhile (· = '\r') = []
  case neg =>
    right
    rw [if_neg blank]
    dsimp only at handled
    rw [if_neg blank] at handled
    refine ⟨rfl, ?_⟩
    split at handled
    · cases handled
      exact ⟨rfl, rfl⟩
    · split at handled <;> cases handled <;> exact ⟨rfl, rfl⟩
  case pos =>
    dsimp only at handled
    rw [if_pos blank, dispatch] at handled
    rw [if_pos blank]
    cases data : s.pendingData env with
    | nothing =>
        rw [data] at handled
        cases handled
        exact .inr ⟨rfl, rfl, rfl⟩
    | broken =>
        rw [data] at handled
        cases handled
    | json v =>
        rw [data] at handled
        cases event : s.pendingEvent with
        | none =>
            rw [event] at handled
            cases handled
            exact .inr ⟨rfl, rfl, rfl⟩
        | some eventType =>
            rw [event] at handled
            obtain ⟨input, read, handled⟩ := Option.bind_eq_some_iff.mp handled
            exact .inl ⟨input, read, handled⟩

/-! ## Streams -/

theorem openai_law (env : A2OEnv) :
    (translator env).Law (ProperLine env) ProperEnd
      (fun s past => FinishPhase.going.follow past = some s.phase)
      (fun past => FinishPhase.going.follow past = none) WellFormedOpenAI where
  keeps := by
    intro s past line next tracks handled proper
    rw [FinishPhase.follow_append, tracks]
    show s.phase.follow next.2 = _
    rcases handleLine_cases handled with ⟨input, read, handled⟩ | ⟨_, silent, same⟩
    · cases ended : s.finished with
      | false =>
          have going : s.clear.finished = false := ended
          rw [phase, ended]
          exact follow_handleInput going handled
      | true =>
          have still : s.clear.finished = true := ended
          obtain ⟨silent, stays⟩ :=
            (follow_handleInput_over still handled).1 (proper ended input read)
          rw [silent, phase, phase, stays, ended]
          rfl
    · rw [silent, phase, phase, same]
      rfl
  spoils := by
    intro s past line next tracks handled improper
    rw [FinishPhase.follow_append, tracks]
    show s.phase.follow next.2 = _
    simp only [ProperLine, not_forall] at improper
    obtain ⟨ended, input, read, loud⟩ := improper
    rcases handleLine_cases handled with ⟨input', read', handled⟩ | ⟨none, _, _⟩
    · obtain rfl : input' = input := Option.some.inj (read'.symm.trans read)
      have still : s.clear.finished = true := ended
      rw [phase, ended]
      exact (follow_handleInput_over still handled).2 loud
    · rw [none] at read
      cases read
  spoiled past more spoiled := by rw [FinishPhase.follow_append, spoiled]; rfl
  bad past spoiled good := by
    rw [WellFormedOpenAI, spoiled] at good
    cases good
  ends := by
    intro s past tracks
    show FinishPhase.going.follow (past ++ s.finishSafely env) = some .over ↔ s.ProperEnd
    rw [FinishPhase.follow_append, tracks]
    unfold finishSafely ProperEnd phase
    cases ended : s.finished with
    | true => simp [FinishPhase.follow]
    | false =>
        cases reason : s.stopReason with
        | none => simp [FinishPhase.follow, FinishPhase.next, chunkOf, finishReasons]
        | some v =>
            by_cases null : v = .null
            · subst null
              simp [FinishPhase.follow, FinishPhase.next, chunkOf, finishReasons]
            · by_cases listed : v ∈ finishReasons <;>
                simp [FinishPhase.follow, FinishPhase.next, chunkOf, null, listed]

/-- **The streams for which the output ends as it should**, in any chunks. -/
theorem openaiStream_iff (env : A2OEnv) (chunks : List Bytes) :
    (∃ out, (translator env).output {} (fresh env) chunks = some out ∧ WellFormedOpenAI out)
      ↔ (translator env).Along (ProperLine env) ProperEnd {} (fresh env) chunks := by
  have begins : FinishPhase.going.follow [] = some (fresh env).phase := rfl
  exact (openai_law env).good_iff_along begins chunks

/-- An environment in which the letters `letters` stand for JSON texts. -/
def anthropicLetters (letters : List (String × Json)) : A2OEnv where
  model := "m"
  loads := StreamO2A.letterLoads letters
  strOf _ := ""
  floatCount _ := some none
  floatKey := .float
  chunkId := "chatcmpl-1"
  created := 10

/-- A stream that breaks off after its stop reason. -/
def truncated : A2OEnv :=
  anthropicLetters [("a", .obj [("delta", .obj [("stop_reason", .str "end_turn")])])]

/-- The stop reason goes out as it came in. -/
theorem truncated_illFormed :
    ¬ ∃ out, (translator truncated).output {} (fresh truncated)
        [Utf8.encode "event: message_delta\ndata: a\n\n".toList] = some out
      ∧ WellFormedOpenAI out := by
  have written : (translator truncated).output {} (fresh truncated)
      [Utf8.encode "event: message_delta\ndata: a\n\n".toList]
      = some [.chunk (.str "chatcmpl-1") (.str "m") [] (.str "end_turn") none, .doneMarker] := by
    decide +kernel
  rintro ⟨out, same, good⟩
  rw [written] at same
  cases same
  exact absurd good (by decide)

end StreamA2O

end Zhongzhuan.Protocol
