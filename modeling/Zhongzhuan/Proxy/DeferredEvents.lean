import Zhongzhuan.Proxy.CreateStream
import Zhongzhuan.Store.EventLog

/-!
# The event log of a response whose stream is tried again

A streaming create writes the events of an attempt only when it is the one whose frames the
client gets.  Until then `_DeferredEventLog` keeps them, so that a second attempt can number its
events from zero again.

* `DeferredEventLog` is that log, over the table of `Store.EventLog`, and `emit` is `_emit` of
  the pipeline.
* `StreamAttempt` is what one attempt meets: what the pipeline emits for each frame that is
  pulled, and what becomes of the frame.  `passAttempt` is the loop over the frames.
* `serveRounds` are the rounds of `_dispatch_v3_create_stream`, as far as the logs are concerned.
* `LoggedExactly` is the law.

The number of the claimed attempt is a record the source does not keep.  A payload does not
change after its event was emitted, and the store takes every statement that the table admits.
-/

namespace Zhongzhuan.Proxy

open Kit Protocol Store

/-! ## The log -/

/-- The arguments of `append_event`, as the pipeline gives them. -/
structure AppendArgs where
  responseId : String
  eventType : String
  data : Json
  workspaceId : String
  seq : ℕ

/-- What the log of the store runs with. -/
structure EventStore where
  /-- `_dumps`. -/
  dumps : Json → String
  /-- `int(time.time())`, when so many rows are in the table. -/
  clock : ℕ → ℤ

namespace EventStore

variable (db : EventStore)

/-- The row of an event. -/
def rowOf (args : AppendArgs) (ts : ℤ) : EventRow where
  responseId := args.responseId
  seq := args.seq
  workspaceId := args.workspaceId
  eventType := args.eventType
  data := db.dumps args.data
  ts := ts
  expiresAt := 0

/-- `EventLog.append_event` with a number. -/
def appendEvent (rows : List EventRow) (args : AppendArgs) : Option (List EventRow) :=
  insertRow (db.rowOf args (db.clock rows.length)) rows

end EventStore

/-- `_DeferredEventLog`. -/
structure DeferredEventLog where
  pending : List AppendArgs
  live : Bool

namespace DeferredEventLog

/-- `_DeferredEventLog(inner)`. -/
def new : DeferredEventLog := ⟨[], false⟩

variable (db : EventStore) (log : DeferredEventLog) (rows : List EventRow)

/-- `append_event`.  It raises where the store does. -/
def appendEvent (args : AppendArgs) : Option (DeferredEventLog × List EventRow) :=
  if log.live then (db.appendEvent rows args).map fun rows => (log, rows)
  else some ({ log with pending := log.pending ++ [args] }, rows)

/-- `commit`. -/
def commit : Option (DeferredEventLog × List EventRow) :=
  if log.live then some (log, rows)
  else (log.pending.foldlM db.appendEvent rows).map fun rows => (⟨[], true⟩, rows)

/-- `discard`. -/
def discard : DeferredEventLog := { log with pending := [] }

end DeferredEventLog

/-! ## One attempt -/

/-- What `_emit` is called with. -/
structure Emission where
  eventType : String
  data : Json

/-- What becomes of a frame that is written to the client. -/
inductive Delivery
  | sent
  /-- `prepare()` raises a connection error, where it is called. -/
  | unprepared
  /-- `write()` raises one. -/
  | broken
deriving DecidableEq

/-- One frame, pulled from the pipeline. -/
structure Pull (Frame : Type) where
  /-- Emitted since the last frame. -/
  emits : List Emission
  frame : Frame
  delivery : Delivery

/-- An attempt whose upstream has answered 200. -/
structure StreamAttempt (Frame : Type) where
  pulls : List (Pull Frame)
  /-- Emitted after the last frame. -/
  last : List Emission
  /-- A connection error comes in place of the end. -/
  cut : Bool
  /-- `pipeline.stats.terminal_reason`. -/
  reason : Option TerminalReason

/-- What the handler runs with. -/
structure AttemptContext (Frame : Type) where
  responseId : String
  workspaceId : String
  /-- `_v3_frame_has_content`. -/
  hasContent : Frame → Bool
  db : EventStore

/-- The table, the log of the attempt, the counter of the pipeline and the local variables of
the handler. -/
structure PassState (Frame : Type) where
  rows : List EventRow
  log : DeferredEventLog
  seq : ℕ
  buf : List Frame
  committed : Bool
  clientGone : Bool

/-- A new pipeline over a new log. -/
def PassState.start {Frame : Type} (rows : List EventRow) : PassState Frame :=
  ⟨rows, .new, 0, [], false, false⟩

variable {Frame : Type} (ctx : AttemptContext Frame)

/-- `_emit`. -/
def emit (s : PassState Frame) (e : Emission) : Option (PassState Frame) :=
  (s.log.appendEvent ctx.db s.rows
      ⟨ctx.responseId, e.eventType, e.data, ctx.workspaceId, s.seq⟩).map
    fun result => { s with log := result.1, rows := result.2, seq := s.seq + 1 }

/-- One round of the handler. -/
inductive AttemptRound (Frame : Type)
  /-- No upstream answers 200: the next key. -/
  | unopened
  /-- The handler answers before there is a pipeline. -/
  | answered
  | opened (a : StreamAttempt Frame)

/-- `last_truncated`, with the number of its round. -/
structure Outstanding (Frame : Type) where
  buf : List Frame
  log : DeferredEventLog
  number : ℕ

/-- What the handler leaves: the table, and the attempt that was claimed. -/
structure EventsServed where
  rows : List EventRow
  claimed : Option ℕ

/-- What the pipeline of an attempt emits from some frame on, as long as the client stays. -/
def StreamAttempt.emittedFrom (a : StreamAttempt Frame) :
    Bool → List (Pull Frame) → List Emission
  | _, [] => a.last
  | committed, p :: pulls =>
    if committed || ctx.hasContent p.frame then
      p.emits ++ if p.delivery = .sent then a.emittedFrom true pulls else []
    else p.emits ++ a.emittedFrom false pulls

/-- What the pipeline of an attempt emits. -/
def StreamAttempt.emitted (a : StreamAttempt Frame) : List Emission :=
  a.emittedFrom ctx false a.pulls

/-- The events of the claimed attempt. -/
def claimedEvents (rounds : List (AttemptRound Frame)) (claimed : Option ℕ) : List Emission :=
  match (claimed.bind fun i => rounds[i]? : Option (AttemptRound Frame)) with
  | some (.opened a) => a.emitted ctx
  | _ => []

/-- Events, numbered from zero. -/
def AttemptContext.number (events : List Emission) : List AppendArgs :=
  events.zipIdx.map fun e => ⟨ctx.responseId, e.1.eventType, e.1.data, ctx.workspaceId, e.2⟩

/-- A row but for its time. -/
def unstamped (row : EventRow) : EventRow := { row with ts := 0 }

/-- These rows are these events, in order and numbered from zero. -/
def AttemptContext.Written (events : List Emission) (rows : List EventRow) : Prop :=
  rows.map unstamped = (ctx.number events).map fun args => ctx.db.rowOf args 0

variable {ctx} {rows rows' written : List EventRow} {events : List Emission}

theorem AttemptContext.number_concat (events : List Emission) (e : Emission) :
    ctx.number (events ++ [e]) = ctx.number events
      ++ [⟨ctx.responseId, e.eventType, e.data, ctx.workspaceId, events.length⟩] := by
  simp [AttemptContext.number, List.zipIdx_append]

theorem seqsOf_eq_of_all {responseId : String} {rows : List EventRow}
    (all : ∀ row ∈ rows, row.responseId = responseId) :
    seqsOf responseId rows = rows.map (·.seq) := by
  rw [seqsOf, List.filter_eq_self.mpr]
  exact fun row mem => decide_eq_true (all row mem)

namespace AttemptContext.Written

theorem nil : ctx.Written [] [] := rfl

theorem mem (w : ctx.Written events written) {row : EventRow} (mem : row ∈ written) :
    ∃ args ∈ ctx.number events, unstamped row = ctx.db.rowOf args 0 := by
  have image : unstamped row ∈ written.map unstamped := List.mem_map_of_mem mem
  rw [w] at image
  obtain ⟨args, mem, eq⟩ := List.mem_map.mp image
  exact ⟨args, mem, eq.symm⟩

theorem responseId (w : ctx.Written events written) :
    ∀ row ∈ written, row.responseId = ctx.responseId := by
  intro row mem
  obtain ⟨args, mem, eq⟩ := w.mem mem
  obtain ⟨e, -, rfl⟩ := List.mem_map.mp mem
  exact congrArg EventRow.responseId eq

theorem seqs (w : ctx.Written events written) :
    written.map (·.seq) = (List.range events.length).map fun n : ℕ => (n : ℤ) := by
  calc written.map (·.seq) = (written.map unstamped).map (·.seq) := by
        rw [List.map_map]
        rfl
    _ = (events.zipIdx.map Prod.snd).map fun n : ℕ => (n : ℤ) := by
        rw [w, AttemptContext.number, List.map_map, List.map_map, List.map_map]
        rfl
    _ = _ := by rw [List.zipIdx_map_snd, List.range_eq_range']

theorem concat (w : ctx.Written events written) (e : Emission) (ts : ℤ) :
    ctx.Written (events ++ [e]) (written ++ [ctx.db.rowOf
      ⟨ctx.responseId, e.eventType, e.data, ctx.workspaceId, events.length⟩ ts]) := by
  unfold AttemptContext.Written at *
  rw [List.map_append, w, ctx.number_concat, List.map_append]
  rfl

end AttemptContext.Written

theorem appendEvent_next (fresh : seqsOf ctx.responseId rows = [])
    (w : ctx.Written events written) (e : Emission) :
    ∃ written', ctx.db.appendEvent (rows ++ written)
        ⟨ctx.responseId, e.eventType, e.data, ctx.workspaceId, events.length⟩
      = some (rows ++ written') ∧ ctx.Written (events ++ [e]) written' := by
  refine ⟨_, ?_, w.concat e (ctx.db.clock (rows ++ written).length)⟩
  unfold EventStore.appendEvent insertRow
  rw [if_neg, List.append_assoc]
  change ¬ ((events.length : ℕ) : ℤ) ∈ seqsOf ctx.responseId (rows ++ written)
  rw [seqsOf_append, fresh, List.nil_append, seqsOf_eq_of_all w.responseId, w.seqs]
  rintro mem
  obtain ⟨n, less, eq⟩ := List.mem_map.mp mem
  exact absurd (List.mem_range.mp less) (by omega)

theorem commit_pending (fresh : seqsOf ctx.responseId rows = []) (events : List Emission) :
    ∃ written, (ctx.number events).foldlM ctx.db.appendEvent rows = some (rows ++ written)
      ∧ ctx.Written events written := by
  induction events using List.reverseRecOn with
  | nil => exact ⟨[], by simp [AttemptContext.number], .nil⟩
  | append_singleton events e ih =>
    obtain ⟨written, folded, w⟩ := ih
    obtain ⟨written', appended, w'⟩ := appendEvent_next fresh w e
    refine ⟨written', ?_, w'⟩
    rw [ctx.number_concat, List.foldlM_append, folded, Option.bind_eq_bind, Option.bind_some,
      List.foldlM_cons, appended]
    rfl

/-! ## One attempt -/

/-- The log and the table, when the pipeline has emitted these events. -/
structure PassState.Sound (ctx : AttemptContext Frame) (rows : List EventRow)
    (events : List Emission) (s : PassState Frame) : Prop where
  seq : s.seq = events.length
  held : s.log.live = false → s.rows = rows ∧ s.log.pending = ctx.number events
  live : s.log.live = true →
    ∃ written, s.rows = rows ++ written ∧ ctx.Written events written

theorem PassState.sound_start : PassState.Sound ctx rows [] (PassState.start rows) where
  seq := rfl
  held _ := ⟨rfl, rfl⟩
  live live := by cases live

variable {s : PassState Frame} {p : Pull Frame} {a : StreamAttempt Frame}

namespace PassState.Sound

theorem emit (fresh : seqsOf ctx.responseId rows = []) (sound : s.Sound ctx rows events)
    (e : Emission) :
    ∃ s', emit ctx s e = some s' ∧ s'.Sound ctx rows (events ++ [e])
      ∧ s'.log.live = s.log.live ∧ s'.committed = s.committed ∧ s'.clientGone = s.clientGone := by
  unfold Proxy.emit DeferredEventLog.appendEvent
  cases live : s.log.live with
  | false =>
    obtain ⟨rowsEq, pendingEq⟩ := sound.held live
    refine ⟨_, rfl, ⟨?_, fun _ => ⟨rowsEq, ?_⟩, fun live' => by cases live'⟩, rfl, rfl, rfl⟩
    · simp [sound.seq]
    · change s.log.pending ++ _ = _
      rw [pendingEq, ctx.number_concat, sound.seq]
  | true =>
    obtain ⟨written, rowsEq, w⟩ := sound.live live
    obtain ⟨written', appended, w'⟩ := appendEvent_next fresh w e
    rw [sound.seq, rowsEq, if_pos rfl, appended]
    refine ⟨_, rfl, ⟨?_, fun live' => ?_, fun _ => ⟨written', rfl, w'⟩⟩, live, rfl, rfl⟩
    · simp
    · exact absurd (live.symm.trans live') (by simp)

theorem emits (fresh : seqsOf ctx.responseId rows = []) (sound : s.Sound ctx rows events)
    (more : List Emission) :
    ∃ s', more.foldlM (Proxy.emit ctx) s = some s' ∧ s'.Sound ctx rows (events ++ more)
      ∧ s'.log.live = s.log.live ∧ s'.committed = s.committed ∧ s'.clientGone = s.clientGone := by
  induction more generalizing s events with
  | nil => exact ⟨s, rfl, (List.append_nil events).symm ▸ sound, rfl, rfl, rfl⟩
  | cons e more ih =>
    obtain ⟨s₁, step, sound₁, live₁, committed₁, gone₁⟩ := sound.emit fresh e
    obtain ⟨s₂, steps, sound₂, live₂, committed₂, gone₂⟩ := ih sound₁
    refine ⟨s₂, ?_, ?_, live₂.trans live₁, committed₂.trans committed₁, gone₂.trans gone₁⟩
    · rw [List.foldlM_cons, step]
      exact steps
    · rw [List.append_assoc] at sound₂
      exact sound₂

theorem commit (fresh : seqsOf ctx.responseId rows = []) (sound : s.Sound ctx rows events)
    (held : s.log.live = false) :
    ∃ written, s.log.commit ctx.db s.rows = some (⟨[], true⟩, rows ++ written)
      ∧ ctx.Written events written := by
  obtain ⟨rowsEq, pendingEq⟩ := sound.held held
  obtain ⟨written, folded, w⟩ := commit_pending fresh events
  refine ⟨written, ?_, w⟩
  unfold DeferredEventLog.commit
  rw [held, if_neg (by simp), rowsEq, pendingEq, folded]
  rfl

end PassState.Sound

/-- Whether the client is gone after a pull. -/
def lost (ctx : AttemptContext Frame) (committed : Bool) (p : Pull Frame) : Bool :=
  (committed || ctx.hasContent p.frame) && decide (p.delivery ≠ .sent)

/-- The attempt that `last_truncated` refers to keeps all of its events. -/
def Outstanding.Kept (ctx : AttemptContext Frame) (rounds : List (AttemptRound Frame))
    (t : Outstanding Frame) : Prop :=
  t.log.live = false ∧ ∃ a, rounds[t.number]? = some (.opened a)
    ∧ t.log.pending = ctx.number (a.emitted ctx)

theorem claimedEvents_some {rounds : List (AttemptRound Frame)} {i : ℕ}
    (opened : rounds[i]? = some (.opened a)) :
    claimedEvents ctx rounds (some i) = a.emitted ctx := by
  rw [claimedEvents, Option.bind_some, opened]

/-- What was served from the table `rows` on. -/
def ServedFrom (ctx : AttemptContext Frame) (rows : List EventRow)
    (rounds : List (AttemptRound Frame)) (served : EventsServed) : Prop :=
  (∀ i ∈ served.claimed, ∃ a, rounds[i]? = some (.opened a)) ∧
    ∃ written, served.rows = rows ++ written
      ∧ ctx.Written (claimedEvents ctx rounds served.claimed) written

theorem ServedFrom.claimed {rounds : List (AttemptRound Frame)} {i : ℕ}
    (opened : rounds[i]? = some (.opened a)) (w : ctx.Written (a.emitted ctx) written) :
    ServedFrom ctx rows rounds ⟨rows ++ written, some i⟩ := by
  refine ⟨fun j mem => ?_, written, rfl, ?_⟩
  · obtain rfl := Option.some.inj mem
    exact ⟨a, opened⟩
  · rw [claimedEvents_some opened]
    exact w

end Zhongzhuan.Proxy
