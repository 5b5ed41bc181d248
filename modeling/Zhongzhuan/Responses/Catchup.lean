import Zhongzhuan.Protocol.SseRoundTrip
import Zhongzhuan.Responses.WellFormedStream
import Zhongzhuan.Store.EventLog

/-!
# `CatchupStream`: the log of a run, read back

The model of `_emit` with the event log behind it and of `responses_v3/catchup.py`.

* `appendEvents` is what the calls of `_emit` write for the events of a run: one row each, numbered
  from zero.
* `replay` is what `CatchupStream.replay` yields for the rows.

A run is followed to its end.  A chunk that raises has written the events it emitted and yields
none of them; `LosesNothing` is the condition that this does not happen.
-/

namespace Zhongzhuan.Responses

open Kit Protocol Protocol.Sse Store

/-! ## Frames -/

/-- The frame of an event. -/
def Event.wire (e : Event) : WireFrame := .event e.type.value (dumps (.obj e.data))

/-- A frame of the stream as it is written. -/
def Frame.wire : Frame → WireFrame
  | .event e => e.wire
  | .heartbeat => .heartbeat

/-! ## The log -/

/-- What the rows of a run have in common, and the clock. -/
structure LogWriter where
  responseId : String
  workspaceId : String
  /-- `int(time.time())` when the row with the number is written. -/
  clock : ℕ → ℤ

/-- The row of an event. -/
def LogWriter.row (w : LogWriter) (seq : ℕ) (e : Event) : EventRow where
  responseId := w.responseId
  seq := seq
  workspaceId := w.workspaceId
  eventType := e.type.value
  data := compactDumps (.obj e.data)
  ts := w.clock seq
  expiresAt := 0

/-- The calls of `_emit` from `self._seq = seq` on; `none` is an append that fails. -/
def appendEvents (w : LogWriter) : ℕ → List Event → List EventRow → Option (List EventRow)
  | _, [], rows => some rows
  | seq, e :: events, rows => (insertRow (w.row seq e) rows).bind (appendEvents w (seq + 1) events)

/-- `_loads(text, {})`; `none` is an exception that is not caught. -/
def loadData (loads : String → Loaded) (text : String) : Option Json :=
  if text = "" then some (.obj [])
  else
    match loads text with
    | .value v => some v
    | .rejected => some (.obj [])
    | .raised _ => none

/-- The frame of a row.  Rows whose data is no object are not written by the code. -/
def rowFrame (loads : String → Loaded) (row : EventRow) : Option WireFrame :=
  match loadData loads row.data with
  | some (.obj fields) => some (.event row.eventType (dumps (.obj fields)))
  | _ => none

/-- `CatchupStream.replay`. -/
def replay (loads : String → Loaded) (responseId : String) (afterSeq : ℤ) (rows : List EventRow) :
    Option (List WireFrame) :=
  (readEvents responseId afterSeq rows).mapM (rowFrame loads)

/-! ## Appending -/

section Log

variable {w : LogWriter} {rows : List EventRow} {e : Event} {events : List Event} {seq : ℕ}

/-- The rows of events from a number on. -/
def LogWriter.rowsFrom (w : LogWriter) : ℕ → List Event → List EventRow
  | _, [] => []
  | seq, e :: events => w.row seq e :: w.rowsFrom (seq + 1) events

theorem appendEvents_of_below (below : ∀ n ∈ seqsOf w.responseId rows, n < seq) :
    appendEvents w seq events rows = some (rows ++ w.rowsFrom seq events) := by
  induction events generalizing seq rows with
  | nil => simp [appendEvents, LogWriter.rowsFrom]
  | cons e events ih =>
      have new : (w.row seq e).seq ∉ seqsOf (w.row seq e).responseId rows := fun mem =>
        absurd (below _ mem) (lt_irrefl _)
      have inserted : insertRow (w.row seq e) rows = some (rows ++ [w.row seq e]) := if_neg new
      rw [appendEvents, inserted, Option.bind_some, ih ?_]
      · simp [LogWriter.rowsFrom]
      · intro n mem
        rw [seqsOf_append, List.mem_append] at mem
        push_cast
        rcases mem with old | last
        · have := below n old
          omega
        · rw [seqsOf_singleton] at last
          split at last
          · rw [List.mem_singleton.mp last]
            exact Int.lt_succ seq
          · exact absurd last List.not_mem_nil

theorem mem_rows {row : EventRow} (mem : row ∈ w.rowsFrom seq events) :
    row.responseId = w.responseId ∧ (seq : ℤ) ≤ row.seq := by
  induction events generalizing seq with
  | nil => exact absurd mem List.not_mem_nil
  | cons e events ih =>
      rcases List.mem_cons.mp mem with rfl | later
      · exact ⟨rfl, le_rfl⟩
      · obtain ⟨same, beyond⟩ := ih later
        exact ⟨same, by push_cast at beyond; omega⟩

theorem rows_sorted : (w.rowsFrom seq events).Pairwise fun row row' => row.seq ≤ row'.seq := by
  induction events generalizing seq with
  | nil => exact List.Pairwise.nil
  | cons e events ih =>
      refine List.pairwise_cons.mpr ⟨fun row mem => ?_, ih⟩
      have beyond := (mem_rows mem).2
      show (seq : ℤ) ≤ row.seq
      push_cast at beyond
      omega

theorem filter_rows {k : ℤ} :
    (w.rowsFrom seq events).filter (fun row => k < row.seq)
      = w.rowsFrom (seq + (k + 1 - seq).toNat) (events.drop (k + 1 - seq).toNat) := by
  induction events generalizing seq with
  | nil => simp [LogWriter.rowsFrom]
  | cons e events ih =>
      have same : (w.row seq e).seq = seq := rfl
      rw [LogWriter.rowsFrom, List.filter_cons, same, ih]
      by_cases after : k < seq
      · have zero : (k + 1 - seq).toNat = 0 := by omega
        have zero' : (k + 1 - ((seq + 1 : ℕ) : ℤ)).toNat = 0 := by omega
        rw [if_pos (by simpa using after), zero, zero']
        rfl
      · have pred : (k + 1 - seq).toNat = (k + 1 - ((seq + 1 : ℕ) : ℤ)).toNat + 1 := by omega
        rw [if_neg (by simpa using after), pred, List.drop_succ_cons]
        congr 1
        omega

theorem readEvents_append_rows {k : ℤ} (fresh : ∀ row ∈ rows, row.responseId ≠ w.responseId) :
    readEvents w.responseId k (rows ++ w.rowsFrom 0 events)
      = w.rowsFrom (k + 1).toNat (events.drop (k + 1).toNat) := by
  have old : rows.filter (fun row => row.responseId = w.responseId ∧ k < row.seq) = [] := by
    rw [List.filter_eq_nil_iff]
    intro row mem
    simp [fresh row mem]
  have new : (w.rowsFrom 0 events).filter (fun row => row.responseId = w.responseId ∧ k < row.seq)
      = (w.rowsFrom 0 events).filter (fun row => k < row.seq) := by
    refine List.filter_congr fun row mem => ?_
    simp [(mem_rows mem).1]
  have sorted : ((w.rowsFrom (k + 1).toNat (events.drop (k + 1).toNat)).Pairwise
      fun row row' => decide (row.seq ≤ row'.seq) = true) := by
    simpa using rows_sorted
  rw [readEvents, List.filter_append, old, List.nil_append, new, filter_rows]
  simp only [Nat.cast_zero, sub_zero, zero_add]
  exact List.mergeSort_of_pairwise sorted

theorem mapM_rowFrame {loads : String → Loaded}
    (inverts : ∀ e ∈ events, loads (compactDumps (.obj e.data)) = .value (.obj e.data)) :
    (w.rowsFrom seq events).mapM (rowFrame loads) = some (events.map Event.wire) := by
  induction events generalizing seq with
  | nil => rfl
  | cons e events ih =>
      rw [List.forall_mem_cons] at inverts
      have nonempty : compactDumps (.obj e.data) ≠ "" := by
        intro empty
        have chars := congrArg String.toList empty
        simp [compactDumps] at chars
      have frame : rowFrame loads (w.row seq e) = some e.wire := by
        simp only [rowFrame, loadData, LogWriter.row, if_neg nonempty, inverts.1]
        rfl
      rw [LogWriter.rowsFrom, List.mapM_cons, frame, ih inverts.2]
      rfl

end Log

/-! ## The run -/

variable {env : Env}

/-- **The condition on a run**: a chunk that raises has not emitted anything. -/
def LosesNothing (env : Env) (loop : Loop) (arrival : Arrival) : Prop :=
  ∀ c, arrival = .chunk c → loop.internalError = none →
    (loop.pipeline.translateChunk env c).raised ≠ none →
      (loop.pipeline.translateChunk env c).emitted = []

theorem receive_events_eq {loop : Loop} {arrival : Arrival} (same : loop.events = loop.emitted)
    (keeps : LosesNothing env loop arrival) :
    (loop.receive env arrival).events = (loop.receive env arrival).emitted := by
  cases broken : loop.internalError with
  | some message => simpa [Loop.receive, broken] using same
  | none =>
      cases arrival with
      | heartbeat => simpa [Loop.receive, broken, Loop.events] using same
      | chunk c =>
          cases raised : (loop.pipeline.translateChunk env c).raised with
          | none =>
              simp only [Loop.receive, broken, raised, Loop.events, List.filterMap_append,
                List.filterMap_map]
              rw [← same]
              simp [Loop.events]
          | some message =>
              have nothing := keeps c rfl broken (by simp [raised])
              simp only [Loop.receive, broken, raised, nothing, List.append_nil]
              exact same

theorem yields_events_eq {loop : Loop} (same : loop.events = loop.emitted)
    (done : Pipeline × List Event) : (loop.yields done).events = (loop.yields done).emitted := by
  rw [events_yields, same]
  rfl

theorem run_events_eq_emitted {p : Pipeline} {arrivals : List Arrival} (ending : Ending)
    (keeps : Along (Loop.receive env) (LosesNothing env) (startLoop env p) arrivals) :
    (run env p arrivals ending).events = (run env p arrivals ending).emitted := by
  have first : (startLoop env p).events = (startLoop env p).emitted :=
    yields_events_eq rfl _
  have loop := runSchedule_of_along (fun loop : Loop => loop.events = loop.emitted)
    (fun _ _ same keeps => receive_events_eq same keeps) first keeps
  unfold run
  dsimp only
  split <;> exact yields_events_eq loop _

/-! ## Reading the frames -/

theorem oneLine_value (type : EventType) : OneLine type.value.toList := by
  cases type <;> simp [EventType.value, OneLine]

theorem wire_plain {e : Event} (printed : Json.PrintedFields e.data) : e.wire.Plain :=
  ⟨oneLine_value e.type, oneLine_dumps (.obj e.data) printed⟩

/-- The events among the frames. -/
def eventsOf (frames : List Frame) : List Event :=
  frames.filterMap fun
    | .event e => some e
    | .heartbeat => none

theorem filterMap_parsed (frames : List Frame) :
    ((frames.map Frame.wire).filterMap WireFrame.parsed).map (fun f => (f.event, f.data))
      = (eventsOf frames).map fun e => (some e.type.value, dumps (.obj e.data)) := by
  induction frames with
  | nil => rfl
  | cons f frames ih =>
      cases f with
      | event e => exact congrArg ((some e.type.value, dumps (.obj e.data)) :: ·) ih
      | heartbeat => exact ih

theorem mem_events {loop : Loop} {e : Event} (mem : Frame.event e ∈ loop.frames) :
    e ∈ loop.events :=
  List.mem_filterMap.mpr ⟨.event e, mem, rfl⟩

/-- **A run is replayed as it was streamed, and its frames are read back.**

Every append succeeds.  The replay after a number yields the bytes of the frames that the run
yielded behind it.  An event-stream parser that is fed frames of the run and heartbeats, cut in any
way, returns the events with data that is read as it was. -/
theorem replay_eq_stream (env : Env) (p : Pipeline) (arrivals : List Arrival) (ending : Ending)
    (w : LogWriter) (rows : List EventRow) (k : ℤ) (c : Config)
    (keeps : Along (Loop.receive env) (LosesNothing env) (startLoop env p) arrivals)
    (fresh : ∀ row ∈ rows, row.responseId ≠ w.responseId)
    (inverts : ∀ e ∈ (run env p arrivals ending).emitted,
      env.loads (compactDumps (.obj e.data)) = .value (.obj e.data)
        ∧ env.loads (dumps (.obj e.data)) = .value (.obj e.data))
    (printed : ∀ e ∈ (run env p arrivals ending).emitted, Json.PrintedFields e.data)
    (total : c.JsonTotal) :
    (∃ table, appendEvents w 0 (run env p arrivals ending).emitted rows = some table
      ∧ (replay env.loads w.responseId k table).map (·.map WireFrame.bytes)
        = some (((run env p arrivals ending).events.drop (k + 1).toNat).map fun e => e.wire.bytes))
      ∧ ∀ frames : List Frame,
          (∀ f ∈ frames, f = .heartbeat ∨ f ∈ (run env p arrivals ending).frames) →
          (∀ f ∈ frames, f.wire.bytes.length ≤ c.maxEventBytes) →
          ∀ chunks : List Bytes, chunks.flatten = Sse.streamOf (frames.map Frame.wire) →
            ∃ parsed, (Session.run c (Reader.callsOf chunks)).Returned parsed
              ∧ parsed.map (fun f => (f.event, env.loads f.data))
                = (eventsOf frames).map fun e => (some e.type.value, .value (.obj e.data)) := by
  have logged := run_events_eq_emitted ending keeps
  constructor
  · have below : ∀ n ∈ seqsOf w.responseId rows, n < ((0 : ℕ) : ℤ) := by
      intro n mem
      obtain ⟨row, found, -⟩ := List.mem_map.mp mem
      obtain ⟨inRows, same⟩ := List.mem_filter.mp found
      exact absurd (of_decide_eq_true same) (fresh row inRows)
    refine ⟨_, appendEvents_of_below below, ?_⟩
    rw [replay, readEvents_append_rows fresh, mapM_rowFrame, Option.map_some, List.map_map, logged]
    · rfl
    · exact fun e mem => (inverts e (List.mem_of_mem_drop mem)).1
  · intro frames drawn fits chunks stream
    have known : ∀ e, Frame.event e ∈ frames → e ∈ (run env p arrivals ending).emitted := by
      intro e mem
      rw [← logged]
      rcases drawn _ mem with heartbeat | yielded
      · cases heartbeat
      · exact mem_events yielded
    have plain : ∀ f ∈ frames.map Frame.wire, f.Plain := by
      intro f mem
      obtain ⟨frame, inFrames, rfl⟩ := List.mem_map.mp mem
      cases frame with
      | event e => exact wire_plain (printed e (known e inFrames))
      | heartbeat => trivial
    have fits' : ∀ f ∈ frames.map Frame.wire, f.bytes.length ≤ c.maxEventBytes := by
      intro f mem
      obtain ⟨frame, inFrames, rfl⟩ := List.mem_map.mp mem
      exact fits frame inFrames
    refine ⟨_, frames_read_back total plain fits' stream, ?_⟩
    have texts := congrArg (List.map fun pair : Option String × String =>
      (pair.1, env.loads pair.2)) (filterMap_parsed frames)
    rw [List.map_map, List.map_map] at texts
    refine texts.trans (List.map_congr_left fun e mem => ?_)
    obtain ⟨frame, inFrames, isEvent⟩ := List.mem_filterMap.mp mem
    cases frame with
    | heartbeat => cases isEvent
    | event e' =>
        cases isEvent
        exact congrArg (some e.type.value, ·) (inverts e (known e inFrames)).2

/-! ## Three runs -/

/-- A reader that knows the texts of some events. -/
def readerOf (events : List Event) (text : String) : Loaded :=
  match events.find? fun e =>
      compactDumps (.obj e.data) = text ∨ dumps (.obj e.data) = text with
  | some e => .value (.obj e.data)
  | none => .raised "RecursionError"

/-- A pipeline that answers `tool_search` itself. -/
def deepSearchEnv (loads : String → Loaded) : Env where
  responseId := "r"
  toolSearchEnabled := true
  toolSearchMode := .server
  loads := loads

/-- A run from a new pipeline to the end of the upstream. -/
def searchRun (loads : String → Loaded) (arrivals : List Arrival) : Loop :=
  run (deepSearchEnv loads) (.fresh (deepSearchEnv loads)) arrivals .upstreamEnd

/-- A search whose arguments nest too deep to be read. -/
def deepSearch : List Arrival :=
  [.chunk (.toolCall "c" "tool_search" "[" "" none), .chunk (.toolCallDone "c" "" none)]

/-- The reader of the run. -/
def deepReader : String → Loaded :=
  readerOf (searchRun (fun _ => .raised "RecursionError") deepSearch).emitted

/-- A writer of its rows. -/
def searchWriter : LogWriter := ⟨"r", "ws", fun _ => 0⟩

theorem tiny_positive : 0 < 8 := by decide

/-- A parser that takes frames of eight bytes. -/
def tinyConfig : Config :=
  { Config.default (fun _ => .accepts) with maxEventBytes := 8, positive := tiny_positive }

/-- The first frame of a run. -/
def firstFrame : List Frame := (searchRun deepReader []).frames.take 1

/-- The events of a chunk that raises are replayed and were not streamed; and a frame that is too
long for the parser is dropped. -/
theorem deepSearch_not_replayed :
    (¬ ∃ table,
      appendEvents searchWriter 0 (searchRun deepReader deepSearch).emitted [] = some table
        ∧ (replay deepReader "r" (-1) table).map (·.map WireFrame.bytes)
          = some ((searchRun deepReader deepSearch).events.map fun e => e.wire.bytes))
      ∧ ¬ ∃ parsed, (Session.run tinyConfig (Reader.callsOf
            [Sse.streamOf (firstFrame.map Frame.wire)])).Returned parsed
          ∧ parsed.map (fun f => (f.event, deepReader f.data))
            = (eventsOf firstFrame).map fun e => (some e.type.value, .value (.obj e.data)) := by
  constructor
  · rintro ⟨table, appended, replayed⟩
    have inverts : ∀ e ∈ (searchRun deepReader deepSearch).emitted,
        deepReader (compactDumps (.obj e.data)) = .value (.obj e.data) := by decide +kernel
    have written := appended.symm.trans
      (appendEvents_of_below fun n mem => absurd mem List.not_mem_nil)
    obtain rfl := Option.some.inj written
    have read : replay deepReader searchWriter.responseId (-1)
        ([] ++ searchWriter.rowsFrom 0 (searchRun deepReader deepSearch).emitted)
          = some ((searchRun deepReader deepSearch).emitted.map Event.wire) := by
      rw [replay, readEvents_append_rows fun row mem => absurd mem List.not_mem_nil]
      exact mapM_rowFrame inverts
    rw [show "r" = searchWriter.responseId from rfl, read] at replayed
    have lengths := congrArg List.length (Option.some.inj replayed)
    simp only [List.length_map] at lengths
    exact absurd lengths (by decide +kernel)
  · rintro ⟨parsed, ⟨parts, results, rfl⟩, same⟩
    have nothing : (Session.run tinyConfig (Reader.callsOf
        [Sse.streamOf (firstFrame.map Frame.wire)])).results.map
          (fun result => result.toOption.map List.length) = [some 0, some 0] := by decide +kernel
    rw [results, List.map_map] at nothing
    have lengths := congrArg List.length same
    have one : (eventsOf firstFrame).length = 1 := by decide +kernel
    rw [List.length_map, List.length_map, one, List.length_flatten] at lengths
    have counts : parts.map List.length = [0, 0] := by
      have injective := List.map_injective_iff.mpr (Option.some_injective ℕ)
      exact injective (by simpa [Function.comp_def, Except.toOption] using nothing)
    rw [counts] at lengths
    exact absurd lengths (by decide)

/-- A greeting. -/
def greeting : List Arrival := [.chunk (.text "hi"), .heartbeat, .chunk .finish]

/-- The reader of the run. -/
def greetingReader : String → Loaded := readerOf (searchRun (fun _ => .rejected) greeting).emitted

/-- A heartbeat and the first of its frames. -/
def greetingFrames : List Frame := .heartbeat :: (searchRun greetingReader greeting).frames.take 1

theorem replay_eq_stream_greeting :
    (∃ table,
      appendEvents searchWriter 0 (searchRun greetingReader greeting).emitted [] = some table
      ∧ (replay greetingReader "r" 0 table).map (·.map WireFrame.bytes)
        = some (((searchRun greetingReader greeting).events.drop 1).map fun e => e.wire.bytes))
      ∧ ∃ parsed, (Session.run (.default fun _ => .accepts) (Reader.callsOf
            [Sse.streamOf (greetingFrames.map Frame.wire)])).Returned parsed
          ∧ parsed.map (fun f => (f.event, greetingReader f.data))
            = (eventsOf greetingFrames).map fun e => (some e.type.value, .value (.obj e.data)) := by
  have keeps : Along (Loop.receive (deepSearchEnv greetingReader))
      (LosesNothing (deepSearchEnv greetingReader))
      (startLoop (deepSearchEnv greetingReader) (.fresh (deepSearchEnv greetingReader)))
      greeting := by
    refine ⟨?_, ?_, ?_, trivial⟩
    · rintro c ⟨⟩ - raised
      exact absurd rfl raised
    · rintro c ⟨⟩
    · rintro c ⟨⟩ - raised
      exact absurd rfl raised
  have inverts : ∀ e ∈ (searchRun greetingReader greeting).emitted,
      greetingReader (compactDumps (.obj e.data)) = .value (.obj e.data)
        ∧ greetingReader (dumps (.obj e.data)) = .value (.obj e.data) := by decide +kernel
  have printed : ∀ e ∈ (searchRun greetingReader greeting).emitted,
      Json.PrintedFields e.data := by decide +kernel
  have both := replay_eq_stream (deepSearchEnv greetingReader)
    (.fresh (deepSearchEnv greetingReader))
    greeting .upstreamEnd searchWriter [] 0 (.default fun _ => .accepts) keeps
    (fun row mem => absurd mem List.not_mem_nil) inverts printed
    (fun validates => absurd validates Bool.false_ne_true)
  refine ⟨both.1, both.2 greetingFrames (fun f mem => ?_) (by decide +kernel) _ ?_⟩
  · rcases List.mem_cons.mp mem with heartbeat | first
    · exact .inl heartbeat
    · exact .inr (List.mem_of_mem_take first)
  · exact List.flatten_singleton

end Zhongzhuan.Responses
