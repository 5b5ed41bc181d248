import Zhongzhuan.Kit.Text
import Zhongzhuan.Protocol.Models
import Zhongzhuan.Protocol.RaisingEmitter

/-!
# `CircuitBreaker.trip`

The model of the circuit breaker of `responses_v3/budget.py`: six steps, each guarded, that end
a response over its budget.

* `Teardown.step` is the guard: it records the step, keeps an `Exception` as a text and lets a
  `BaseException` through, which ends the trip without a result.
* `Collaborators` is what the hooks of the pipeline, the turn and the store do.
* `trip_returned` is what is left of a trip: what step 4 and step 5 return, where a step that
  raises counts as empty.
* `tripKept_iff` says when the trip does what it is for.  A frame that cannot be written in
  step 4 takes the frames before it along: the emitter takes their items for done.
-/

namespace Zhongzhuan.Responses

open Kit Protocol

/-- `CIRCUIT_BREAKER_REASONS`. -/
def circuitBreakerReasons : List TerminalReason :=
  [.maxToolRounds, .maxTotalToolCalls, .repeatedToolCall, .repeatedToolFailure, .maxResponseTime,
    .maxOutputBudget, .responseChainCycle, .responseChainTooDeep, .retryBudgetExhausted,
    .backgroundBudgetExhausted]

/-! ## Collaborators -/

/-- What a hook does, with the awaiting of its result where that is awaited. -/
inductive HookOutcome
  | absent
  | returns
  | raises (raised : Raised)
deriving DecidableEq, Repr

/-- The result of the step that calls the hook. -/
def HookOutcome.result : HookOutcome → Except Raised (List WireEvent)
  | .absent | .returns => .ok []
  | .raises raised => .error raised

/-- What `turn.open_items` does. -/
inductive OpenItemsOutcome
  | absent
  | lists (items : List OutputItem)
  | raises (raised : Raised)
deriving DecidableEq, Repr

/-- The collaborators of a trip: what their hooks do, and the identity of the context. -/
structure Collaborators where
  cancelUpstream : HookOutcome := .returns
  stopScheduling : HookOutcome := .returns
  /-- `record_audit`, called in step 3. -/
  rollbackAudit : HookOutcome := .returns
  openItems : OpenItemsOutcome
  /-- `record_audit`, called in step 6. -/
  tripAudit : HookOutcome := .returns
  requestId : String := ""
  workspaceId : String := ""

/-! ## The six steps -/

/-- The attributes of `CircuitBreaker`. -/
structure CircuitBreaker where
  lastSteps : List String := []
  sideEffectsLog : List Fields := []
  stepErrors : List String := []

/-- A trip under way. -/
structure Teardown where
  breaker : CircuitBreaker
  emitter : Emitter
  /-- The events handed to `record_audit`. -/
  audited : List Fields := []
  frames : List WireEvent := []
  /-- A `BaseException` has left `trip`. -/
  escaped : Bool := false

namespace Teardown

/-- `_run_step` and `_run_async_step`, and the frames of the step. -/
def step (t : Teardown) (name : String)
    (body : Teardown → Teardown × Except Raised (List WireEvent)) : Teardown :=
  if t.escaped then t
  else
    let out := body t
    let breaker := { out.1.breaker with lastSteps := out.1.breaker.lastSteps ++ [name] }
    match out.2 with
    | .ok frames => { out.1 with breaker := breaker, frames := out.1.frames ++ frames }
    | .error (.exception text) =>
      { out.1 with
        breaker := { breaker with stepErrors := breaker.stepErrors ++ [name ++ ": " ++ text] } }
    | .error .base => { out.1 with breaker := breaker, escaped := true }

/-- `_record_audit`: an `Exception` of the sink is logged. -/
def recordAudit (t : Teardown) (sink : HookOutcome) (event : Fields) :
    Teardown × Except Raised (List WireEvent) :=
  match sink with
  | .absent => (t, .ok [])
  | .returns | .raises (.exception _) => ({ t with audited := t.audited ++ [event] }, .ok [])
  | .raises .base => ({ t with audited := t.audited ++ [event] }, .error .base)

/-- `_rollback_side_effects`. -/
def rollbackSideEffects (c : Collaborators) (reason : TerminalReason) (t : Teardown) :
    Teardown × Except Raised (List WireEvent) :=
  let entry : Fields :=
    [("reason", .str reason.value), ("request_id", .str c.requestId),
      ("workspace_id", .str c.workspaceId), ("rolled_back", .int 0), ("stub", .bool true)]
  let t :=
    { t with
      breaker := { t.breaker with sideEffectsLog := t.breaker.sideEffectsLog ++ [entry] } }
  t.recordAudit c.rollbackAudit (("event", .str "circuit_breaker.rollback") :: entry)

/-- `_write_audit`. -/
def writeAudit (c : Collaborators) (reason : TerminalReason) (message : String) (t : Teardown) :
    Teardown × Except Raised (List WireEvent) :=
  t.recordAudit c.tripAudit
    [("event", .str "circuit_breaker.trip"), ("reason", .str reason.value),
      ("is_circuit_breaker_reason", .bool (reason ∈ circuitBreakerReasons)),
      ("request_id", .str c.requestId), ("workspace_id", .str c.workspaceId),
      ("message", .str message), ("steps", .arr (t.breaker.lastSteps.map .str))]

/-- What `trip` returns; `none` when an exception has left it. -/
def returned (t : Teardown) : Option (List WireEvent) := if t.escaped then none else some t.frames

end Teardown

/-- A step on the emitter. -/
def onEmitter (call : Emitter → Emitter × Except Raised (List WireEvent)) (t : Teardown) :
    Teardown × Except Raised (List WireEvent) :=
  let out := call t.emitter
  ({ t with emitter := out.1 }, out.2)

/-- `_close_open_items`. -/
def closeOpenItems (env : WriterEnv) (c : Collaborators) (e : Emitter) :
    Emitter × Except Raised (List WireEvent) :=
  match c.openItems with
  | .absent => (e, .ok [])
  | .raises raised => (e, .error raised)
  | .lists items => e.closeReported env items

/-- `to_incomplete_details` of a message that is not empty. -/
def incompleteDetails (env : WriterEnv) (reason : TerminalReason) (message : String) : Fields :=
  [("reason", .str reason.value), ("message", .str (env.sanitize message))]

/-- `_emit_terminal`. -/
def emitTerminal (env : WriterEnv) (reason : TerminalReason) (message : String) (e : Emitter) :
    Emitter × Except Raised (List WireEvent) :=
  e.terminateOrRaise env .incomplete reason.value (incompleteDetails env reason message) []

/-- The message of a trip. -/
def tripText (reason : TerminalReason) (message : String) : String :=
  if message = "" then "terminated: " ++ reason.value else message

/-- `trip`. -/
def trip (env : WriterEnv) (c : Collaborators) (reason : TerminalReason) (message : String)
    (breaker : CircuitBreaker) (e : Emitter) : Teardown :=
  let text := tripText reason message
  let t : Teardown :=
    { breaker := { breaker with lastSteps := [], stepErrors := [] }, emitter := e }
  let t := t.step "stop_upstream_read" fun t => (t, c.cancelUpstream.result)
  let t := t.step "stop_scheduling" fun t => (t, c.stopScheduling.result)
  let t := t.step "rollback_side_effects" (Teardown.rollbackSideEffects c reason)
  let t := t.step "close_open_items" (onEmitter (closeOpenItems env c))
  let t := t.step "emit_terminal" (onEmitter (emitTerminal env reason text))
  t.step "write_audit" (Teardown.writeAudit c reason text)

/-! ## What is left of a trip -/

/-- The frames of a step; one that raises has none. -/
def kept : Except Raised (List WireEvent) → List WireEvent
  | .ok frames => frames
  | .error _ => []

/-- The hook lets a `BaseException` through. -/
def HookOutcome.escapes (hook : HookOutcome) : Bool := hook = .raises .base

/-- Some hook does. -/
def Collaborators.escapes (c : Collaborators) : Bool :=
  c.cancelUpstream.escapes || c.stopScheduling.escapes || c.rollbackAudit.escapes
    || decide (c.openItems = .raises .base) || c.tripAudit.escapes

theorem ok_ne_base (frames : List WireEvent) :
    (.ok frames : Except Raised (List WireEvent)) ≠ .error .base := by
  intro same
  cases same

theorem exception_ne_base (text : String) :
    (.error (.exception text) : Except Raised (List WireEvent)) ≠ .error .base := by
  intro same
  cases same

/-- A trip that nothing has left yet. -/
structure Teardown.At (t : Teardown) (e : Emitter) (frames : List WireEvent) : Prop where
  emitter : t.emitter = e
  frames : t.frames = frames
  running : t.escaped = false

namespace Teardown

variable {t : Teardown} {e e' : Emitter} {frames : List WireEvent}

theorem step_of_escaped (escaped : t.escaped = true) (name : String)
    (body : Teardown → Teardown × Except Raised (List WireEvent)) : t.step name body = t :=
  if_pos escaped

theorem step_escapes {name : String} {body : Teardown → Teardown × Except Raised (List WireEvent)}
    (base : (body t).2 = .error .base) : (t.step name body).escaped = true := by
  unfold step
  split
  case isTrue escaped => exact escaped
  case isFalse =>
    dsimp only
    rw [base]

theorem step_stays_escaped (escaped : t.escaped = true) (name : String)
    (body : Teardown → Teardown × Except Raised (List WireEvent)) :
    (t.step name body).escaped = true := by
  rwa [step_of_escaped escaped]

theorem At.step (here : t.At e frames) {name : String}
    {body : Teardown → Teardown × Except Raised (List WireEvent)}
    (after : (body t).1.At e' frames) (inside : (body t).2 ≠ .error .base) :
    (t.step name body).At e' (frames ++ kept (body t).2) := by
  unfold Teardown.step
  rw [if_neg (by rw [here.running]; exact Bool.false_ne_true)]
  dsimp only
  rcases outcome : (body t).2 with (text | _) | more
  · refine ⟨after.emitter, ?_, after.running⟩
    rw [kept, List.append_nil]
    exact after.frames
  · exact absurd outcome inside
  · refine ⟨after.emitter, ?_, after.running⟩
    dsimp only [kept]
    rw [after.frames]

theorem At.quiet (here : t.At e frames) {name : String}
    {body : Teardown → Teardown × Except Raised (List WireEvent)}
    (after : (body t).1.At e frames) (inside : (body t).2 ≠ .error .base)
    (silent : kept (body t).2 = []) : (t.step name body).At e frames := by
  have stepped : (t.step name body).At e (frames ++ kept (body t).2) := here.step after inside
  rwa [silent, List.append_nil] at stepped

theorem At.hook (here : t.At e frames) (name : String) {hook : HookOutcome}
    (inside : hook.escapes = false) : (t.step name fun t => (t, hook.result)).At e frames := by
  refine here.quiet here ?_ ?_
  · rintro base
    cases hook with
    | raises raised =>
        cases base
        exact absurd inside (by decide)
    | _ => cases base
  · cases hook with
    | raises raised => rfl
    | _ => rfl

theorem recordAudit_at (here : t.At e frames) (sink : HookOutcome) (event : Fields) :
    (t.recordAudit sink event).1.At e frames := by
  unfold recordAudit
  split
  · exact here
  · exact ⟨here.emitter, here.frames, here.running⟩
  · exact ⟨here.emitter, here.frames, here.running⟩
  · exact ⟨here.emitter, here.frames, here.running⟩

theorem recordAudit_result (t : Teardown) (sink : HookOutcome) (event : Fields) :
    (t.recordAudit sink event).2 = if sink.escapes then .error .base else .ok [] := by
  rcases sink with _ | _ | (text | _)
  · rfl
  · rfl
  · rfl
  · rfl

theorem recordAudit_inside {sink : HookOutcome} (inside : sink.escapes = false) (t : Teardown)
    (event : Fields) : (t.recordAudit sink event).2 = .ok [] := by
  rw [recordAudit_result, inside, if_neg Bool.false_ne_true]

theorem At.rollback (here : t.At e frames) {c : Collaborators} (reason : TerminalReason)
    (inside : c.rollbackAudit.escapes = false) :
    (t.step "rollback_side_effects" (rollbackSideEffects c reason)).At e frames := by
  have result : (rollbackSideEffects c reason t).2 = .ok [] := recordAudit_inside inside _ _
  refine here.quiet ?_ ?_ ?_
  · unfold rollbackSideEffects
    refine recordAudit_at ?_ _ _
    exact ⟨here.emitter, here.frames, here.running⟩
  · rw [result]
    exact ok_ne_base []
  · rw [result, kept]

theorem At.audit (here : t.At e frames) {c : Collaborators} (reason : TerminalReason)
    (message : String) (inside : c.tripAudit.escapes = false) :
    (t.step "write_audit" (writeAudit c reason message)).At e frames := by
  have result : (writeAudit c reason message t).2 = .ok [] := recordAudit_inside inside _ _
  refine here.quiet ?_ ?_ ?_
  · exact recordAudit_at here _ _
  · rw [result]
    exact ok_ne_base []
  · rw [result, kept]

theorem At.onEmitter (here : t.At e frames) (name : String)
    {call : Emitter → Emitter × Except Raised (List WireEvent)}
    (inside : (call e).2 ≠ .error .base) :
    (t.step name (onEmitter call)).At (call e).1 (frames ++ kept (call e).2) := by
  have sameOut : (Responses.onEmitter call t).2 = (call e).2 := by
    rw [← here.emitter]
    rfl
  rw [← sameOut]
  refine here.step ⟨?_, here.frames, here.running⟩ (sameOut ▸ inside)
  rw [← here.emitter]
  rfl

end Teardown

theorem closeOpenItems_ne_base (env : WriterEnv) {c : Collaborators} {e : Emitter}
    (tracked : Tracked e) (inside : c.openItems ≠ .raises .base) :
    (closeOpenItems env c e).2 ≠ .error .base := by
  unfold closeOpenItems
  split
  · exact ok_ne_base []
  case h_2 raised isRaises =>
    rintro base
    cases base
    exact inside isRaises
  case h_3 items isLists =>
    by_cases writable : ∀ id ∈ e.openItems, ∀ item, firstReport items id = some item →
        env.Writable item
    · obtain ⟨e', frames, ids, run, -⟩ := closeReported_ok tracked writable
      rw [run]
      exact ok_ne_base frames
    · push Not at writable
      obtain ⟨id, here, item, reported, stuck⟩ := writable
      obtain ⟨e', text, run⟩ := closeReported_error tracked here reported stuck
      rw [run]
      exact exception_ne_base text

theorem going_closeOpenItems (env : WriterEnv) (c : Collaborators) {e : Emitter}
    (going : Going e) : Going (closeOpenItems env c e).1 := by
  unfold closeOpenItems
  split
  · exact going
  · exact going
  · exact forEach_invariant Going (fun _ item held => held.closeItem item _) going _

/-- Each open item, as the emitter has announced it, and the terminal event can be written. -/
def CanEnd (env : WriterEnv) (reason : TerminalReason) (message : String) (e : Emitter) : Prop :=
  (∀ id ∈ e.openItems, ∀ item, e.announcedItems.get? id = some item → env.Writable item)
    ∧ env.writeError (e.terminalData env .incomplete reason.value
      (incompleteDetails env reason message) []) = none

theorem emitTerminal_ok {env : WriterEnv} {reason : TerminalReason} {message : String}
    {e : Emitter} (going : Going e) (ends : CanEnd env reason message e) :
    ∃ e' ids dones w, emitTerminal env reason message e = (e', .ok (dones ++ [w]))
      ∧ ids.Perm e.openItems ∧ List.Forall₂ DoneOf ids dones ∧ w.event = "response.incomplete"
      ∧ e'.openItems = [] ∧ e'.completedEmitted = true :=
  terminateOrRaise_ok going ends.1 ends.2

theorem emitTerminal_error {env : WriterEnv} {reason : TerminalReason} {message : String}
    {e : Emitter} (going : Going e) (stuck : ¬ CanEnd env reason message e) :
    ∃ e' text, emitTerminal env reason message e = (e', .error (.exception text)) := by
  refine terminateOrRaise_error going ?_
  rcases not_and_or.mp stuck with items | final
  · push Not at items
    exact .inl items
  · exact .inr final

theorem emitTerminal_ne_base (env : WriterEnv) {e : Emitter} (going : Going e)
    (reason : TerminalReason) (message : String) :
    (emitTerminal env reason message e).2 ≠ .error .base := by
  by_cases ends : CanEnd env reason message e
  · obtain ⟨e', ids, dones, w, run, -⟩ := emitTerminal_ok going ends
    rw [run]
    exact ok_ne_base _
  · obtain ⟨e', text, run⟩ := emitTerminal_error going ends
    rw [run]
    exact exception_ne_base text

section

variable (env : WriterEnv) {c : Collaborators} (reason : TerminalReason) (message : String)
  (breaker : CircuitBreaker) {e : Emitter}

theorem trip_at (inside : c.escapes = false) (going : Going e) :
    (trip env c reason message breaker e).At
      (emitTerminal env reason (tripText reason message) (closeOpenItems env c e).1).1
      (kept (closeOpenItems env c e).2
        ++ kept (emitTerminal env reason (tripText reason message)
          (closeOpenItems env c e).1).2) := by
  simp only [Collaborators.escapes, Bool.or_eq_false_iff, decide_eq_false_iff_not] at inside
  obtain ⟨⟨⟨⟨cancel, scheduling⟩, rollback⟩, items⟩, audit⟩ := inside
  have start : ({ breaker := { breaker with lastSteps := [], stepErrors := [] }, emitter := e } :
      Teardown).At e [] := ⟨rfl, rfl, rfl⟩
  have stopped := (start.hook "stop_upstream_read" cancel).hook "stop_scheduling" scheduling
  have closed := (stopped.rollback reason rollback).onEmitter "close_open_items"
    (closeOpenItems_ne_base env going.tracked items)
  have ended := closed.onEmitter "emit_terminal"
    (emitTerminal_ne_base env (going_closeOpenItems env c going) reason (tripText reason message))
  exact ended.audit reason (tripText reason message) audit

theorem trip_escapes (escapes : c.escapes = true) (e : Emitter) :
    (trip env c reason message breaker e).returned = none := by
  have hook : ∀ {hook : HookOutcome}, hook.escapes = true → hook.result = .error .base := by
    intro hook escapes
    rw [of_decide_eq_true escapes]
    rfl
  have audit : ∀ {sink : HookOutcome} (t : Teardown) (event : Fields), sink.escapes = true →
      (t.recordAudit sink event).2 = .error .base := by
    intro sink t event escapes
    rw [Teardown.recordAudit_result, escapes, if_pos rfl]
  have left : (trip env c reason message breaker e).escaped = true := by
    unfold trip
    dsimp only
    simp only [Collaborators.escapes, Bool.or_eq_true, decide_eq_true_iff] at escapes
    rcases escapes with (((cancel | scheduling) | rollback) | items) | final
    · iterate 5 refine Teardown.step_stays_escaped ?_ _ _
      exact Teardown.step_escapes (hook cancel)
    · iterate 4 refine Teardown.step_stays_escaped ?_ _ _
      exact Teardown.step_escapes (hook scheduling)
    · iterate 3 refine Teardown.step_stays_escaped ?_ _ _
      exact Teardown.step_escapes (audit _ _ rollback)
    · iterate 2 refine Teardown.step_stays_escaped ?_ _ _
      refine Teardown.step_escapes ?_
      unfold onEmitter closeOpenItems
      rw [items]
    · exact Teardown.step_escapes (audit _ _ final)
  exact if_pos left

end

/-! ## What a trip is for -/

/-- What can be called on the emitter after a trip. -/
inductive LaterCall
  | trip (c : Collaborators) (reason : TerminalReason) (message : String)
    (breaker : CircuitBreaker)
  | terminate (status : ResponseStatus) (terminalReason : String)
    (incompleteDetails error : Fields)

/-- The emitter after the call, and what the call returns, which is nothing when it raises. -/
def LaterCall.make (env : WriterEnv) (e : Emitter) : LaterCall → Emitter × List WireEvent
  | .trip c reason message breaker =>
    let t := Responses.trip env c reason message breaker e
    (t.emitter, t.returned.getD [])
  | .terminate status reason details error =>
    let out := e.terminateOrRaise env status reason details error
    (out.1, kept out.2)

/-- What some later calls return. -/
def laterFrames (env : WriterEnv) (e : Emitter) : List LaterCall → List WireEvent
  | [] => []
  | call :: calls =>
    let made := call.make env e
    made.2 ++ laterFrames env made.1 calls

/-- What a trip is for: every open item is done exactly once, then the response ends, and later
trips and terminations write nothing. -/
structure TripKept (env : WriterEnv) (c : Collaborators) (reason : TerminalReason)
    (message : String) (breaker : CircuitBreaker) (e : Emitter) : Prop where
  done_then_end : ∃ ids dones final,
    (trip env c reason message breaker e).returned = some (dones ++ [final])
      ∧ ids.Perm e.openItems ∧ ids.Nodup ∧ List.Forall₂ DoneOf ids dones
      ∧ final.event ∈ terminalEvents
  silent : ∀ calls, laterFrames env (trip env c reason message breaker e).emitter calls = []

/-- The items the turn reports. -/
def Collaborators.reported (c : Collaborators) : List OutputItem :=
  match c.openItems with
  | .lists items => items
  | .absent | .raises _ => []

/-- The descriptor with which an open item is closed: the first the turn reports, or else the
one it was announced with. -/
def Collaborators.descriptor (c : Collaborators) (e : Emitter) (id : String) : Option OutputItem :=
  (firstReport c.reported id).or (e.announcedItems.get? id)

/-- An emitter that has ended, with nothing open. -/
structure Ended (e : Emitter) : Prop where
  closed : e.openItems = []
  latched : e.completedEmitted = true

theorem Ended.tracked {e : Emitter} (ended : Ended e) : Tracked e := by
  refine ⟨?_, ?_, ?_⟩
  · rw [ended.closed]
    exact List.forall_mem_nil _
  · rw [ended.closed]
    exact List.nodup_nil
  · rw [ended.closed]
    exact List.forall_mem_nil _

theorem closeItemOrRaise_latched (env : WriterEnv) {e : Emitter}
    (latched : e.completedEmitted = true) (item : OutputItem) (status : String) :
    (e.closeItemOrRaise env item status).1.completedEmitted = true := by
  unfold Emitter.closeItemOrRaise
  split
  · exact latched
  · split
    · exact latched
    · unfold Emitter.doneOrRaise
      rw [frameOrRaise_fst]
      exact latched

theorem Ended.closeOpenItems (env : WriterEnv) (c : Collaborators) {e : Emitter}
    (ended : Ended e) :
    Ended (closeOpenItems env c e).1 ∧ kept (closeOpenItems env c e).2 = [] := by
  unfold Responses.closeOpenItems
  split
  · exact ⟨ended, rfl⟩
  · exact ⟨ended, rfl⟩
  case h_3 items _ =>
    have latched : (e.closeReported env items).1.completedEmitted = true :=
      forEach_invariant (fun e : Emitter => e.completedEmitted = true)
        (fun _ item held => closeItemOrRaise_latched env held item _) ended.latched items
    have takes := closeReported_takes env ended.tracked items
    unfold Takes at takes
    rcases outcome : (e.closeReported env items).2 with raised | frames
    · rw [outcome, ended.closed] at takes
      exact absurd takes (Nat.not_lt_zero _)
    · rw [outcome, ended.closed] at takes
      obtain ⟨keys, perm, written⟩ := takes
      obtain ⟨noKeys, noneOpen⟩ := List.append_eq_nil_iff.mp perm.symm.eq_nil
      rw [noKeys] at written
      cases written
      exact ⟨⟨noneOpen, latched⟩, rfl⟩

theorem Ended.emitTerminal (env : WriterEnv) (reason : TerminalReason) (message : String)
    {e : Emitter} (ended : Ended e) :
    Ended (emitTerminal env reason message e).1
      ∧ kept (emitTerminal env reason message e).2 = [] := by
  unfold Responses.emitTerminal
  rw [terminateOrRaise_of_ended ended.latched]
  exact ⟨ended, rfl⟩

/-- A trip over an emitter that has ended. -/
structure Teardown.Silent (t : Teardown) : Prop where
  ended : Ended t.emitter
  frames : t.frames = []

/-- A step that writes nothing once the emitter has ended. -/
def KeepsSilent (body : Teardown → Teardown × Except Raised (List WireEvent)) : Prop :=
  ∀ t : Teardown, t.Silent → (body t).1.Silent ∧ kept (body t).2 = []

theorem Teardown.Silent.step {t : Teardown} (silent : t.Silent) (name : String)
    {body : Teardown → Teardown × Except Raised (List WireEvent)} (keeps : KeepsSilent body) :
    (t.step name body).Silent := by
  obtain ⟨after, none⟩ := keeps t silent
  unfold Teardown.step
  split
  · exact silent
  · dsimp only
    split
    case h_1 frames outcome =>
      rw [outcome] at none
      refine ⟨after.ended, ?_⟩
      change (body t).1.frames ++ frames = []
      rw [after.frames]
      exact none
    · exact ⟨after.ended, after.frames⟩
    · exact ⟨after.ended, after.frames⟩

theorem keepsSilent_hook (hook : HookOutcome) : KeepsSilent fun t => (t, hook.result) := by
  intro t silent
  refine ⟨silent, ?_⟩
  cases hook with
  | raises raised => rfl
  | _ => rfl

theorem Teardown.Silent.audit {t : Teardown} (silent : t.Silent) (sink : HookOutcome)
    (event : Fields) :
    (t.recordAudit sink event).1.Silent ∧ kept (t.recordAudit sink event).2 = [] := by
  rcases sink with _ | _ | (text | _)
  · exact ⟨silent, rfl⟩
  · exact ⟨⟨silent.ended, silent.frames⟩, rfl⟩
  · exact ⟨⟨silent.ended, silent.frames⟩, rfl⟩
  · exact ⟨⟨silent.ended, silent.frames⟩, rfl⟩

theorem keepsSilent_onEmitter {call : Emitter → Emitter × Except Raised (List WireEvent)}
    (keeps : ∀ e, Ended e → Ended (call e).1 ∧ kept (call e).2 = []) :
    KeepsSilent (onEmitter call) := by
  intro t silent
  obtain ⟨ended, none⟩ := keeps t.emitter silent.ended
  exact ⟨⟨ended, silent.frames⟩, none⟩

theorem Ended.trip (env : WriterEnv) (c : Collaborators) (reason : TerminalReason)
    (message : String) (breaker : CircuitBreaker) {e : Emitter} (ended : Ended e) :
    (trip env c reason message breaker e).Silent := by
  have start : ({ breaker := { breaker with lastSteps := [], stepErrors := [] }, emitter := e } :
      Teardown).Silent := ⟨ended, rfl⟩
  have stopped := (start.step "stop_upstream_read" (keepsSilent_hook c.cancelUpstream)).step
    "stop_scheduling" (keepsSilent_hook c.stopScheduling)
  have rollback : KeepsSilent (Teardown.rollbackSideEffects c reason) := by
    intro t silent
    unfold Teardown.rollbackSideEffects
    refine Teardown.Silent.audit ?_ _ _
    exact ⟨silent.ended, silent.frames⟩
  have audit : KeepsSilent (Teardown.writeAudit c reason (tripText reason message)) :=
    fun t silent => silent.audit _ _
  have closed := (stopped.step "rollback_side_effects" rollback).step "close_open_items"
    (keepsSilent_onEmitter fun e ended => ended.closeOpenItems env c)
  exact (closed.step "emit_terminal" (keepsSilent_onEmitter fun e ended =>
    ended.emitTerminal env reason (tripText reason message))).step "write_audit" audit

theorem Ended.silent (env : WriterEnv) {e : Emitter} (ended : Ended e) (calls : List LaterCall) :
    laterFrames env e calls = [] := by
  induction calls generalizing e with
  | nil => rfl
  | cons call calls ih =>
      have made : Ended (call.make env e).1 ∧ (call.make env e).2 = [] := by
        cases call with
        | trip c reason message breaker =>
            have silent := ended.trip env c reason message breaker
            refine ⟨silent.ended, ?_⟩
            unfold LaterCall.make Teardown.returned
            dsimp only
            rw [silent.frames]
            split <;> rfl
        | terminate status reason details error =>
            unfold LaterCall.make
            dsimp only
            rw [terminateOrRaise_of_ended ended.latched]
            exact ⟨ended, rfl⟩
      unfold laterFrames
      dsimp only
      rw [made.2, List.nil_append]
      exact ih made.1

/-! ## When a trip does what it is for -/

section

variable {env : WriterEnv} {c : Collaborators} {e : Emitter}

theorem closeOpenItems_ok (going : Going e)
    (writable : ∀ id ∈ e.openItems, ∀ item, firstReport c.reported id = some item →
      env.Writable item) :
    ∃ ids, Beside ids e (closeOpenItems env c e).1
      ∧ (∀ id ∈ e.openItems, id ∈ ids ↔ (firstReport c.reported id).isSome)
      ∧ ∃ keys, e.openItems.Perm (keys ++ (closeOpenItems env c e).1.openItems)
        ∧ List.Forall₂ DoneOf keys (kept (closeOpenItems env c e).2) := by
  have unreported : ∀ id ∈ e.openItems, id ∈ ([] : List String) ↔
      (firstReport [] id).isSome := fun id _ =>
    iff_of_false List.not_mem_nil Bool.false_ne_true
  unfold closeOpenItems
  unfold Collaborators.reported at writable ⊢
  cases outcome : c.openItems with
  | absent => exact ⟨[], .refl e, unreported, [], List.Perm.refl _, .nil⟩
  | raises raised => exact ⟨[], .refl e, unreported, [], List.Perm.refl _, .nil⟩
  | lists items =>
      rw [outcome] at writable
      obtain ⟨e', frames, ids, run, beside, closed⟩ := closeReported_ok going.tracked writable
      have takes := closeReported_takes env going.tracked items
      dsimp only at run ⊢
      rw [run] at takes ⊢
      exact ⟨ids, beside, closed, takes⟩

theorem closeOpenItems_stuck (going : Going e) {id : String} (here : id ∈ e.openItems)
    {item : OutputItem} (reported : firstReport c.reported id = some item)
    (stuck : ¬ env.Writable item) :
    (closeOpenItems env c e).1.openItems.length < e.openItems.length
      ∧ kept (closeOpenItems env c e).2 = [] := by
  unfold closeOpenItems Collaborators.reported at *
  cases outcome : c.openItems with
  | absent =>
      rw [outcome] at reported
      cases reported
  | raises raised =>
      rw [outcome] at reported
      cases reported
  | lists items =>
      rw [outcome] at reported
      obtain ⟨e', text, run⟩ := closeReported_error going.tracked here reported stuck
      have takes := closeReported_takes env going.tracked items
      dsimp only
      rw [run] at takes ⊢
      exact ⟨takes, rfl⟩

theorem doneOf_of_mem {keys : List String} {frames : List WireEvent}
    (written : List.Forall₂ DoneOf keys frames) {w : WireEvent} (mem : w ∈ frames) :
    ∃ key, DoneOf key w := by
  induction written with
  | nil => cases mem
  | cons done rest ih =>
      rcases List.mem_cons.mp mem with rfl | later
      · exact ⟨_, done⟩
      · exact ih later

theorem canEnd_iff {e' : Emitter} {ids : List String} (beside : Beside ids e e')
    (closed : ∀ id ∈ e.openItems, id ∈ ids ↔ (firstReport c.reported id).isSome)
    (reason : TerminalReason) (message : String) :
    CanEnd env reason message e'
      ↔ (∀ id ∈ e.openItems, firstReport c.reported id = none →
          ∀ item, e.announcedItems.get? id = some item → env.Writable item)
        ∧ env.writeError (e.terminalData env .incomplete reason.value
          (incompleteDetails env reason message) []) = none := by
  have sameData : e'.terminalData env .incomplete reason.value
      (incompleteDetails env reason message) []
        = e.terminalData env .incomplete reason.value
          (incompleteDetails env reason message) [] := by
    unfold Emitter.terminalData
    rw [terminalObject_congr beside.response]
  unfold CanEnd
  rw [sameData]
  refine and_congr_left' ?_
  constructor
  · intro writable id here unreported item found
    have fresh : id ∉ ids := by
      rw [closed id here, unreported]
      exact Bool.false_ne_true
    refine writable id ((beside.opens id).mpr ⟨here, fresh⟩) item ?_
    rwa [beside.announced id fresh]
  · intro writable id still item found
    obtain ⟨here, fresh⟩ := (beside.opens id).mp still
    rw [beside.announced id fresh] at found
    refine writable id here ?_ item found
    rw [closed id here] at fresh
    exact Option.not_isSome_iff_eq_none.mp fresh

theorem forall_descriptor_iff :
    (∀ id ∈ e.openItems, ∀ item, c.descriptor e id = some item → env.Writable item)
      ↔ (∀ id ∈ e.openItems, ∀ item, firstReport c.reported id = some item → env.Writable item)
        ∧ ∀ id ∈ e.openItems, firstReport c.reported id = none →
          ∀ item, e.announcedItems.get? id = some item → env.Writable item := by
  unfold Collaborators.descriptor
  constructor
  · intro writable
    refine ⟨fun id here item reported => ?_, fun id here unreported item found => ?_⟩
    · exact writable id here item (by rw [reported, Option.some_or])
    · exact writable id here item (by rw [unreported, Option.none_or, found])
  · rintro ⟨reported, others⟩ id here item isDescriptor
    rcases report : firstReport c.reported id with _ | first
    · rw [report, Option.none_or] at isDescriptor
      exact others id here report item isDescriptor
    · rw [report, Option.some_or] at isDescriptor
      cases isDescriptor
      exact reported id here item report

end

/-- **When a trip does what it is for.**  For an emitter reached by any calls before the end and
any collaborators: no hook lets a `BaseException` through, each open item can be written as the
turn first reports it, or as it was announced, and the terminal event can be written. -/
theorem tripKept_iff (env : WriterEnv) (responseId model : String) (createdAt : ℤ)
    (calls : List EarlyCall) (c : Collaborators) (reason : TerminalReason) (message : String)
    (breaker : CircuitBreaker) :
    TripKept env c reason message breaker (Emitter.reached env responseId model createdAt calls)
      ↔ c.escapes = false
        ∧ (∀ id ∈ (Emitter.reached env responseId model createdAt calls).openItems, ∀ item,
            c.descriptor (Emitter.reached env responseId model createdAt calls) id = some item →
              env.Writable item)
        ∧ env.writeError
            ((Emitter.reached env responseId model createdAt calls).terminalData env .incomplete
              reason.value (incompleteDetails env reason (tripText reason message)) []) = none := by
  have going := going_reached env responseId model createdAt calls
  generalize Emitter.reached env responseId model createdAt calls = e at going ⊢
  rw [forall_descriptor_iff]
  constructor
  · intro promise
    obtain ⟨ids, dones, final, returned, perm, nodup, done, ends⟩ := promise.done_then_end
    have inside : c.escapes = false := by
      by_contra escapes
      have left := trip_escapes env reason message breaker
        (Bool.eq_true_of_not_eq_false escapes) e
      rw [left] at returned
      cases returned
    have left := trip_at env reason message breaker inside going
    have frames : kept (closeOpenItems env c e).2
        ++ kept (emitTerminal env reason (tripText reason message)
          (closeOpenItems env c e).1).2 = dones ++ [final] := by
      unfold Teardown.returned at returned
      rw [left.running, if_neg Bool.false_ne_true, left.frames] at returned
      exact Option.some.inj returned
    have after := going_closeOpenItems env c going
    have reported : ∀ id ∈ e.openItems, ∀ item, firstReport c.reported id = some item →
        env.Writable item := by
      intro id here item report
      by_contra stuck
      obtain ⟨fewer, lost⟩ := closeOpenItems_stuck going here report stuck
      rw [lost, List.nil_append] at frames
      by_cases canEnd : CanEnd env reason (tripText reason message) (closeOpenItems env c e).1
      · obtain ⟨e', ids', dones', w, run, perm', done', -⟩ := emitTerminal_ok after canEnd
        rw [run] at frames
        have same : dones' = dones := (List.append_inj' frames rfl).1
        have count : ids.length = ids'.length := by
          rw [done.length_eq, ← same, done'.length_eq]
        rw [perm.length_eq, perm'.length_eq] at count
        omega
      · obtain ⟨e', text, run⟩ := emitTerminal_error after canEnd
        rw [run] at frames
        exact absurd frames.symm (List.append_ne_nil_of_right_ne_nil _ (List.cons_ne_nil _ _))
    obtain ⟨closedIds, beside, closed, keys, -, written⟩ := closeOpenItems_ok going reported
    have canEnd : CanEnd env reason (tripText reason message) (closeOpenItems env c e).1 := by
      by_contra stuck
      obtain ⟨e', text, run⟩ := emitTerminal_error after stuck
      rw [run, kept, List.append_nil] at frames
      rw [frames] at written
      obtain ⟨key, isDone⟩ := doneOf_of_mem written (List.mem_append_right _ List.mem_cons_self)
      rw [isDone.1] at ends
      exact absurd ends (by decide)
    have rest := (canEnd_iff beside closed reason (tripText reason message)).mp canEnd
    exact ⟨inside, ⟨reported, rest.1⟩, rest.2⟩
  · rintro ⟨inside, ⟨reported, others⟩, final⟩
    have left := trip_at env reason message breaker inside going
    obtain ⟨closedIds, beside, closed, keys, taken, written⟩ := closeOpenItems_ok going reported
    have canEnd := (canEnd_iff beside closed reason (tripText reason message)).mpr ⟨others, final⟩
    obtain ⟨e', ids, dones, w, run, perm, done, isEnd, nothing, latched⟩ :=
      emitTerminal_ok (going_closeOpenItems env c going) canEnd
    rw [run] at left
    have whole : e.openItems.Perm (keys ++ ids) := taken.trans (perm.symm.append_left keys)
    constructor
    · refine ⟨keys ++ ids, kept (closeOpenItems env c e).2 ++ dones, w, ?_, whole.symm,
        whole.nodup_iff.mp going.tracked.nodup, List.rel_append written done, ?_⟩
      · unfold Teardown.returned
        rw [left.running, if_neg Bool.false_ne_true, left.frames, kept, List.append_assoc]
      · rw [isEnd]
        decide
    · rw [left.emitter]
      exact Ended.silent env ⟨nothing, latched⟩

/-! ## A report that cannot be written -/

mutual

/-- Somewhere there is an integer with more digits than Python turns into text. -/
def hasLongInteger : Json → Bool
  | .int n => 10 ^ maxStrDigits ≤ n.natAbs
  | .arr items => anyLongInteger items
  | .obj fields => anyLongField fields
  | .null | .bool _ | .float _ | .str _ => false

/-- In some item. -/
def anyLongInteger : List Json → Bool
  | [] => false
  | v :: rest => hasLongInteger v || anyLongInteger rest

/-- In some field. -/
def anyLongField : List (String × Json) → Bool
  | [] => false
  | (_, v) :: rest => hasLongInteger v || anyLongField rest

end

/-- What `json.dumps` raises for such an integer. -/
def refusesLongIntegers : WriterEnv where
  toEmitterEnv := insertionOrder
  writeError data :=
    if anyLongField data then
      some "ValueError('Exceeds the limit (4300 digits) for integer string conversion')"
    else none

/-- A call next to the message. -/
def searchItem : OutputItem where
  id := "fc_1"
  outputIndex := 1
  itemType := .functionCall
  callId := "call_1"
  name := "search"

/-- Both items are open. -/
def bothOpen : List EarlyCall := [.start, .openItem greetingItem, .openItem searchItem]

/-- The turn reports the call with an integer too long to write. -/
def reportsLongInteger : Collaborators where
  openItems := .lists [greetingItem, { searchItem with extra := [("size", .int (10 ^ 4300))] }]

/-- Both items are lost: the trip returns the terminal event alone. -/
theorem reportsLongInteger_lost :
    ¬ TripKept refusesLongIntegers reportsLongInteger .maxResponseTime "" {}
      (Emitter.reached refusesLongIntegers "resp_1" "m" 10 bothOpen) := by
  intro promise
  obtain ⟨ids, dones, final, returned, perm, -, done, -⟩ := promise.done_then_end
  have alone : (trip refusesLongIntegers reportsLongInteger .maxResponseTime "" {}
      (Emitter.reached refusesLongIntegers "resp_1" "m" 10 bothOpen)).returned.map List.length
        = some 1 := by
    decide +kernel
  have two : (Emitter.reached refusesLongIntegers "resp_1" "m" 10 bothOpen).openItems.length
      = 2 := by
    decide +kernel
  rw [returned, Option.map_some, List.length_append, ← done.length_eq, perm.length_eq, two,
    List.length_singleton] at alone
  exact absurd alone (by decide)

end Zhongzhuan.Responses
