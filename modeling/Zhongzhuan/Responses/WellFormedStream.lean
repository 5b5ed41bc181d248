import Zhongzhuan.Responses.StreamCalls

/-!
# Every run writes a well-formed stream

From the single chunk to the whole run of the pipeline.  `run_wellFormed` is about every
list of arrivals and every way a run can end, exceptions inside the loop included; the
condition on the arrivals is `Admissible`, at the state each of them meets.
`terminatedTwice_not_wellFormed` is a run in which it fails: the same call is terminated
twice, and its item is closed twice.
-/

namespace Zhongzhuan.Responses

open Kit Protocol

/-- The condition on an arrival; after an exception the loop reads none. -/
def AdmissibleArrival (env : Env) (loop : Loop) : Arrival → Prop
  | .chunk c => loop.internalError = none → Admissible env loop.pipeline c
  | .heartbeat => True

instance (env : Env) (loop : Loop) : (arrival : Arrival) →
    Decidable (AdmissibleArrival env loop arrival)
  | .chunk c =>
    inferInstanceAs (Decidable (loop.internalError = none → Admissible env loop.pipeline c))
  | .heartbeat => inferInstanceAs (Decidable True)

variable {env : Env} {loop : Loop}

@[simp] theorem events_yields (loop : Loop) (done : Pipeline × List Event) :
    (loop.yields done).events = loop.events ++ done.2 := by
  simp [Loop.yields, Loop.events, List.filterMap_append, List.filterMap_map]

/-! ## The loop -/

theorem receive_shaped (h : Shaped env loop.events loop.pipeline) {arrival : Arrival}
    (admissible : AdmissibleArrival env loop arrival) :
    Shaped env (loop.receive env arrival).events (loop.receive env arrival).pipeline := by
  cases broken : loop.internalError with
  | some message =>
      have same : loop.receive env arrival = loop := by simp [Loop.receive, broken]
      rwa [same]
  | none =>
      cases arrival with
      | heartbeat =>
          have same : (loop.receive env .heartbeat).events = loop.events := by
            simp [Loop.receive, broken, Loop.events]
          have kept : (loop.receive env .heartbeat).pipeline = loop.pipeline := by
            simp [Loop.receive, broken]
          rwa [same, kept]
      | chunk c =>
          have done := translateChunk_shaped h (admissible broken)
          have events : (loop.receive env (.chunk c)).events
              = loop.events ++ (loop.pipeline.translateChunk env c).yielded := by
            cases raised : (loop.pipeline.translateChunk env c).raised with
            | none =>
                simp [Loop.receive, broken, raised, Translated.yielded, Loop.events,
                  List.filterMap_map]
            | some message =>
                simp [Loop.receive, broken, raised, Translated.yielded, Loop.events]
          have pipeline : (loop.receive env (.chunk c)).pipeline
              = (loop.pipeline.translateChunk env c).pipeline := by
            cases raised : (loop.pipeline.translateChunk env c).raised with
            | none => simp [Loop.receive, broken, raised]
            | some message => simp [Loop.receive, broken, raised]
          rwa [events, pipeline]

theorem startLoop_shaped (env : Env) :
    Shaped env (startLoop env (.fresh env)).events (startLoop env (.fresh env)).pipeline := by
  have vacant : ∀ o, (startLoop env (.fresh env)).pipeline.owned o = none := by
    intro o
    cases o with
    | call ref => exact callItem_of_not_mem (by simp [startLoop, Loop.yields, Pipeline.reset,
        ToolCallCollection.refs])
    | _ => rfl
  have empty : Shaped env [] (startLoop env (.fresh env)).pipeline := by
    refine ⟨Serves.nil _ vacant, ⟨fun ref mem => ?_, fun acc mem => ?_, fun id call held => ?_⟩,
      by simp⟩
    · simp [startLoop, Loop.yields, Pipeline.reset, ToolCallCollection.refs] at mem
    · simp [startLoop, Loop.yields, Pipeline.reset] at mem
    · simp [startLoop, Loop.yields, Pipeline.reset] at held
  exact (empty.plain rfl rfl).plain rfl rfl

/-! ## The end -/

theorem mark_truncatedEvent (responseId : String) (status : Status) (reason : TerminalReason) :
    (truncatedEvent responseId status reason).mark = .plain := by
  cases status <;> rfl

theorem isTerminal_truncatedEvent (responseId : String) (status : Status)
    (reason : TerminalReason) :
    (truncatedEvent responseId status reason).type.isTerminal = true := by
  cases status <;> rfl

theorem wellFormed_of_terminal {events : List Event} {p : Pipeline}
    (h : Shaped env events p) (incomplete : Bool) {e : Event} (mark : e.mark = .plain)
    (terminal : e.type.isTerminal = true) :
    WellFormedStream (events ++ ((p.closeOpenItems incomplete).2 ++ [e])) := by
  obtain ⟨closed, vacant⟩ := closeOpenItems_shaped h incomplete
  rw [← List.append_assoc]
  refine ⟨?_, _, e, rfl, terminal, closed.quiet⟩
  rw [List.map_append, List.map_singleton, mark]
  exact closed.serves.plain.wellFormed vacant

theorem conclude_wellFormed {events : List Event} {p : Pipeline} (h : Shaped env events p)
    (error : Option String) (reason : Option TerminalReason) :
    WellFormedStream (events ++ (conclude env p error reason).2) := by
  have truncated : ∀ reason strict,
      WellFormedStream (events ++ (p.terminalFrames env reason strict).2) := by
    intro reason strict
    exact wellFormed_of_terminal h true (mark_truncatedEvent _ _ _)
      (isTerminal_truncatedEvent _ _ _)
  unfold conclude
  split
  case h_1 message => exact wellFormed_of_terminal h true rfl rfl
  case h_2 =>
    split
    case isTrue _ => exact truncated _ _
    case isFalse _ =>
      split
      case h_1 reason => exact truncated _ _
      case h_2 => exact wellFormed_of_terminal h false rfl rfl

/-- **The stream of a run is well formed** whenever each arrival is admissible at the state
it meets: every item is announced under an index of its own and closed exactly once, deltas
refer to open items, and one terminal event comes last. -/
theorem run_wellFormed (env : Env) (arrivals : List Arrival) (ending : Ending)
    (admissible : Along (Loop.receive env) (AdmissibleArrival env)
      (startLoop env (.fresh env)) arrivals) :
    WellFormedStream (run env (.fresh env) arrivals ending).events := by
  have shaped := runSchedule_of_along
    (fun loop : Loop => Shaped env loop.events loop.pipeline)
    (fun loop arrival h allowed => receive_shaped h allowed) (startLoop_shaped env) admissible
  unfold run
  dsimp only
  split
  case h_1 message _ =>
    rw [events_yields]
    exact conclude_wellFormed shaped _ _
  case h_2 _ =>
    rw [events_yields]
    refine conclude_wellFormed (p := noteEnding _ ending) ?_ _ _
    cases ending with
    | clientCancel => exact shaped.congr rfl (Nat.le_refl _) shaped.steady
    | _ => exact shaped

/-- A pipeline for the runs below; the empty object is all `json.loads` is asked about. -/
def plainEnv : Env where
  responseId := "r"
  loads := fun text => if text = "\x7b\x7d" then .value (.obj []) else .rejected

/-- Reasoning, text, a call in two fragments and an item passed through. -/
def mixedArrivals : List Arrival :=
  [.chunk (.reasoning "why"), .chunk (.text "answer"),
    .chunk (.toolCall "c" "f" "\x7b" "" (some 0)), .heartbeat,
    .chunk (.toolCall "" "" "\x7d" "" (some 0)),
    .chunk (.rawOutputItem "response.output_item.added" [("id", .str "ws_1")]),
    .chunk (.toolCallDone "c" "" (some 0)), .chunk .finish]

theorem mixedArrivals_wellFormed :
    Along (Loop.receive plainEnv) (AdmissibleArrival plainEnv)
        (startLoop plainEnv (.fresh plainEnv)) mixedArrivals
      ∧ WellFormedStream (run plainEnv (.fresh plainEnv) mixedArrivals .upstreamEnd).events :=
  ⟨by decide +kernel, run_wellFormed plainEnv mixedArrivals .upstreamEnd (by decide +kernel)⟩

/-- One call, terminated twice. -/
def terminatedTwice : List Arrival :=
  [.chunk (.toolCall "c" "f" "\x7b\x7d" "" (some 0)), .chunk (.toolCallDone "c" "" (some 0)),
    .chunk (.toolCallDone "c" "" (some 0)), .chunk .finish]

/-- The second terminator closes the item a second time. -/
theorem terminatedTwice_not_wellFormed :
    ¬ WellFormedStream (run plainEnv (.fresh plainEnv) terminatedTwice .upstreamEnd).events := by
  intro h
  have marks : (run plainEnv (.fresh plainEnv) terminatedTwice .upstreamEnd).events.map Event.mark
      = [.plain, .plain] ++ .opens 0 (some (.str "fc_r_0"))
        :: [.uses 0, .plain, .closes 0 (some (.str "fc_r_0")), .plain,
            .closes 0 (some (.str "fc_r_0")), .plain] := by
    decide +kernel
  have once := h.lifecycle.closed_once _ _ _ _ marks
  revert once
  decide +kernel

end Zhongzhuan.Responses
