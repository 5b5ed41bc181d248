import Mathlib
import Zhongzhuan.Responses.JobEnd

/-!
# The event log of a background response under concurrent workers

Several actors append to the log of one response: every execution of the job, and every
sweep that finds it past its deadline.  None of them reads the log.

* `BackgroundSystem` joins the `background_jobs` row with the rows of the response and the
  writes each worker still has to make.  A claim that is granted gives a worker the writes of
  a run; a worker can die between any two of them.
* `LogSound` is the law: one opening, at most one terminal event, and nothing after it.
* `Careful` is what keeps it: a job is claimed only while no execution is under way and none
  has opened the log, and expired only after an execution that opened the log and did not end
  it.  `careful_log_sound` follows.
-/

namespace Zhongzhuan.Responses

open Kit Store

/-! ## The system -/

variable {W : Type} [DecidableEq W]

/-- The job, the rows of its response, and what each worker has still to write. -/
structure BackgroundSystem (W : Type) where
  jobs : JobSystem W
  rows : StoredResponse
  todo : W → List StoreCall

/-- One step of one worker. -/
inductive HistoryStep (W : Type)
  /-- A read, a renewal or a cancel request. -/
  | call (statement : JobStatement W)
  /-- The `UPDATE` of `claim_job`, and what the run will meet if the claim is granted. -/
  | claim (worker : W) (env : JobEnv) (input : JobInput)
  /-- The `UPDATE` of `expire_stale`, which `_finalize_expired` follows. -/
  | expire (worker : W) (responseId : String)
  /-- The first `UPDATE` of `mark_failed`. -/
  | reap (worker : W)
  /-- The next write of the worker, at a reading of its clock. -/
  | write (worker : W) (ts : ℕ)
  | kill (worker : W)

/-- The statements that only read, renew a lease or ask for a cancel. -/
def isCall : JobStatement W → Bool
  | .claimSelect _ _ _ | .renewSelect _ _ _ | .renewUpdate _ | .expireSelect _ _
  | .reapSelect _ _ | .requestCancel _ => true
  | .claimUpdate _ | .expireUpdate _ | .reapUpdate _ | .markTerminal _ _ _ => false

namespace BackgroundSystem

/-- A response that has just been enqueued. -/
def enqueued (responseId : String) (now expiresAt : ℕ) : BackgroundSystem W where
  jobs := .init now expiresAt
  rows := .enqueued responseId
  todo := fun _ => []

/-- The claim of the worker will be granted. -/
def wins (s : BackgroundSystem W) (worker : W) : Bool :=
  match s.jobs.pending worker with
  | .claim attempt ts _ =>
    decide (s.jobs.row.attempt = attempt) && decide (s.jobs.row.leaseUntil < ts)
  | _ => false

/-- The worker has found the job past its deadline. -/
def expires (s : BackgroundSystem W) (worker : W) : Bool :=
  match s.jobs.pending worker with
  | .expire _ => true
  | _ => false

/-- The worker has found that the job burned its attempts. -/
def reaps (s : BackgroundSystem W) (worker : W) : Bool :=
  match s.jobs.pending worker with
  | .reap _ => true
  | _ => false

/-- The job after a statement. -/
def withJobs (s : BackgroundSystem W) (jobs : JobSystem W) : BackgroundSystem W :=
  { s with jobs := jobs, rows := { s.rows with job := jobs.row.status } }

/-- The worker gets new writes to make. -/
def assign (s : BackgroundSystem W) (worker : W) (calls : List StoreCall) :
    BackgroundSystem W :=
  { s with todo := Function.update s.todo worker calls }

/-- One write. -/
def perform (s : BackgroundSystem W) (worker : W) (ts : ℕ) (call : StoreCall) :
    BackgroundSystem W :=
  match call with
  | .markTerminal status => s.withJobs (s.jobs.step (.markTerminal worker status ts))
  | call => { s with rows := s.rows.perform call }

/-- One step. -/
def step (s : BackgroundSystem W) : HistoryStep W → BackgroundSystem W
  | .call statement => if isCall statement then s.withJobs (s.jobs.step statement) else s
  | .claim worker env input =>
    let claimed := s.withJobs (s.jobs.step (.claimUpdate worker))
    if s.wins worker then claimed.assign worker (runJob env input).2 else claimed
  | .expire worker responseId =>
    if s.expires worker then
      (s.withJobs (s.jobs.step (.expireUpdate worker))).assign worker
        (finalizeExpired responseId)
    else s
  | .reap worker =>
    if s.reaps worker then
      (s.withJobs (s.jobs.step (.reapUpdate worker))).assign worker failExhausted
    else s
  | .write worker ts =>
    match s.todo worker with
    | [] => s
    | call :: rest => (s.perform worker ts call).assign worker rest
  | .kill worker => { s with jobs := s.jobs.setPending worker .idle }.assign worker []

end BackgroundSystem

/-! ## The law -/

/-- The terminal events. -/
def LogType.isTerminal : LogType → Bool
  | .stream .completed | .stream .failed | .stream .incomplete | .cancelled => true
  | _ => false

/-- `response.created`. -/
def LogEvent.opens (event : LogEvent) : Bool := event.type = .stream .created

/-- A terminal event. -/
def LogEvent.ends (event : LogEvent) : Bool := event.type.isTerminal

/-- **One opening, at most one terminal event, and nothing after it.** -/
structure LogSound (log : List LogEvent) : Prop where
  created : log.countP LogEvent.opens = 1
  terminal : log.countP LogEvent.ends ≤ 1
  last : ∀ before event after, log = before ++ event :: after → event.ends = true → after = []

/-- The events among some writes. -/
def appended (calls : List StoreCall) : List LogEvent :=
  calls.filterMap fun
    | .appendEvent event => some event
    | _ => none

/-- No worker has an event left to write. -/
def BackgroundSystem.Idle (s : BackgroundSystem W) : Prop := ∀ w, appended (s.todo w) = []

/-- A claim is granted only while no execution is under way and none has opened the log, and
the job has not been cancelled before it starts; the job expires only while no execution is
under way, and the log has been opened and not ended. -/
def Careful (s : BackgroundSystem W) : HistoryStep W → Prop
  | .claim worker _ input => s.wins worker = true →
      s.Idle ∧ (∀ event ∈ s.rows.log, event.opens = false) ∧ input.cancelledEarly = false
  | .expire worker _ => s.expires worker = true →
      s.Idle ∧ (∃ event ∈ s.rows.log, event.opens = true)
        ∧ ∀ event ∈ s.rows.log, event.ends = false
  | _ => True

instance [Fintype W] (s : BackgroundSystem W) : Decidable s.Idle :=
  inferInstanceAs (Decidable (∀ w, appended (s.todo w) = []))

instance [Fintype W] (s : BackgroundSystem W) : (step : HistoryStep W) → Decidable (Careful s step)
  | .claim _ _ _ => inferInstanceAs (Decidable (_ → _ ∧ _ ∧ _))
  | .expire _ _ => inferInstanceAs (Decidable (_ → _ ∧ _ ∧ _))
  | .call _ | .reap _ | .write _ _ | .kill _ => inferInstanceAs (Decidable True)

/-! ## The shape of a log -/

/-- What every prefix of a sound log is: opened at most once, and ended only at its end and
after its opening. -/
structure LogShape (log : List LogEvent) : Prop where
  created : log.countP LogEvent.opens ≤ 1
  last : ∀ before event after, log = before ++ event :: after → event.ends = true →
    after = [] ∧ ∃ first ∈ before, first.opens = true

namespace LogShape

variable {log rest : List LogEvent}

theorem of_append (h : LogShape (log ++ rest)) : LogShape log where
  created := le_trans (by simp) h.created
  last := fun before event after split ends => by
    obtain ⟨none, opened⟩ := h.last before event (after ++ rest) (by simp [split]) ends
    exact ⟨(List.append_eq_nil_iff.mp none).1, opened⟩

theorem not_ends (h : LogShape log) (unopened : ∀ event ∈ log, event.opens = false) :
    ∀ event ∈ log, event.ends = false := by
  intro event mem
  by_contra ends
  obtain ⟨before, after, split⟩ := List.append_of_mem mem
  obtain ⟨_, first, inside, opens⟩ := h.last before event after split (by simpa using ends)
  have never := unopened first (by simp [split, inside])
  rw [opens] at never
  cases never

theorem snoc (h : LogShape log) (running : ∀ event ∈ log, event.ends = false) {event : LogEvent}
    (opening : event.opens = true → ∀ earlier ∈ log, earlier.opens = false)
    (ending : event.ends = true → ∃ first ∈ log, first.opens = true) :
    LogShape (log ++ [event]) where
  created := by
    rw [List.countP_append, List.countP_singleton]
    split
    case isTrue opens =>
      have none : log.countP LogEvent.opens = 0 :=
        List.countP_eq_zero.mpr fun earlier mem => by simp [opening opens earlier mem]
      omega
    case isFalse _ => exact h.created
  last := fun before found after split ends => by
    rcases List.eq_nil_or_concat after with rfl | ⟨inner, final, rfl⟩
    · obtain ⟨rfl, same⟩ := List.append_inj' split rfl
      obtain rfl := List.singleton_inj.mp same
      exact ⟨rfl, ending ends⟩
    · -- an event before the last one is one of the old log
      have regrouped : log ++ [event] = (before ++ found :: inner) ++ [final] := by
        simpa using split
      have old : log = before ++ found :: inner := (List.append_inj' regrouped rfl).1
      have quiet := running found (by simp [old])
      rw [ends] at quiet
      cases quiet

theorem append_quiet (h : LogShape log) (running : ∀ event ∈ log, event.ends = false)
    (quiet : ∀ event ∈ rest, event.opens = false ∧ event.ends = false) :
    LogShape (log ++ rest) := by
  induction rest generalizing log with
  | nil => simpa using h
  | cons event rest ih =>
      obtain ⟨⟨opens, ends⟩, later⟩ := List.forall_mem_cons.mp quiet
      have next : LogShape (log ++ [event]) :=
        h.snoc running (fun yes => by simp [opens] at yes) (fun yes => by simp [ends] at yes)
      have still : ∀ earlier ∈ log ++ [event], earlier.ends = false := by
        intro earlier mem
        rcases List.mem_append.mp mem with old | new
        · exact running earlier old
        · rw [List.mem_singleton.mp new]
          exact ends
      have all := ih next still later
      rwa [List.append_assoc, List.singleton_append] at all

theorem sound (h : LogShape log) (opened : ∃ event ∈ log, event.opens = true) : LogSound log where
  created := Nat.le_antisymm h.created (List.countP_pos_iff.mpr opened)
  terminal := by
    by_contra many
    obtain ⟨before, event, after, split, ends, more⟩ :
        ∃ before event after, log = before ++ event :: after ∧ event.ends = true
          ∧ after.countP LogEvent.ends ≠ 0 := by
      clear h opened
      induction log with
      | nil => simp at many
      | cons first rest ih =>
          by_cases ends : first.ends = true
          · refine ⟨[], first, rest, rfl, ends, ?_⟩
            rw [List.countP_cons_of_pos ends] at many
            omega
          · rw [List.countP_cons_of_neg ends] at many
            obtain ⟨before, event, after, split, holds⟩ := ih many
            exact ⟨first :: before, event, after, by simp [split], holds⟩
    rw [(h.last before event after split ends).1] at more
    exact more rfl
  last := fun before event after split ends => (h.last before event after split ends).1

end LogShape

/-! ## What a run appends -/

theorem appended_append (first second : List StoreCall) :
    appended (first ++ second) = appended first ++ appended second :=
  List.filterMap_append

theorem appended_appendAll (events : List Event) :
    appended (appendAll events) = events.map Event.logged := by
  simp [appended, appendAll, List.filterMap_map]

theorem appended_calls (terminal : JobTerminal) (responseId : String) (items : List Fields) :
    appended (terminal.calls responseId items) = [terminal.event responseId items] := by
  have saves : appended (saveOutputItems items) = [] := by
    refine List.filterMap_eq_nil_iff.mpr fun call mem => ?_
    obtain ⟨seq, _, rfl⟩ := List.mem_mapIdx.mp mem
    rfl
  rw [JobTerminal.calls, appended_append, saves]
  rfl

theorem logged_quiet {events : List Event} (isItem : ItemEvents events) :
    ∀ event ∈ events.map Event.logged, event.opens = false ∧ event.ends = false := by
  intro event mem
  obtain ⟨⟨type, data⟩, inside, rfl⟩ := List.mem_map.mp mem
  have item : type.isItem = true := isItem.isItem _ inside
  cases type <;> first | exact ⟨rfl, rfl⟩ | cases item

/-- **What a run appends** that was not cancelled before its start: an opening, events that
neither open nor end the log, and a terminal event. -/
theorem appended_runJob (env : JobEnv) {input : JobInput}
    (started : input.cancelledEarly = false) :
    ∃ first items last, appended (runJob env input).2 = first :: (items ++ [last])
      ∧ (first.opens = true ∧ first.ends = false)
      ∧ (∀ event ∈ items, event.opens = false ∧ event.ends = false)
      ∧ last.opens = false := by
  obtain ⟨calls, script, done⟩ := runJob_concluded env started
  rw [script]
  generalize (runJob env input).1 = status at done
  obtain ⟨isItem, terminal, items⟩ := done
  rename_i events
  have opening : appended (openingCalls env.responseId)
      = (openingEvents env.responseId).map Event.logged := appended_appendAll _
  rw [appended_append, appended_append, opening, appended_appendAll, appended_calls]
  refine ⟨_, _ :: events.map Event.logged, terminal.event env.responseId items, rfl, ⟨rfl, rfl⟩,
    List.forall_mem_cons.mpr ⟨⟨rfl, rfl⟩, logged_quiet isItem⟩, ?_⟩
  cases terminal <;> rfl

theorem LogShape.run {log : List LogEvent} (h : LogShape log)
    (unopened : ∀ event ∈ log, event.opens = false) (env : JobEnv) {input : JobInput}
    (started : input.cancelledEarly = false) :
    LogShape (log ++ appended (runJob env input).2) := by
  obtain ⟨first, items, last, events, ⟨opens, goesOn⟩, quiet, lastQuiet⟩ :=
    appended_runJob env started
  have opened : LogShape (log ++ [first]) :=
    h.snoc (h.not_ends unopened) (fun _ => unopened) fun ends => by simp [goesOn] at ends
  have running : ∀ event ∈ log ++ [first], event.ends = false := by
    intro event mem
    rcases List.mem_append.mp mem with old | new
    · exact h.not_ends unopened event old
    · rw [List.mem_singleton.mp new]
      exact goesOn
  have streamed : LogShape (log ++ [first] ++ items) := opened.append_quiet running quiet
  have ended : LogShape (log ++ [first] ++ items ++ [last]) := by
    refine streamed.snoc ?_ (fun yes => by simp [lastQuiet] at yes) fun _ => ⟨first, by simp, opens⟩
    intro event mem
    rcases List.mem_append.mp mem with before | item
    · exact running event before
    · exact (quiet event item).2
  rw [events]
  simpa using ended

/-! ## The steps -/

/-- The log has the right shape, and still will when a worker has made its writes; no two
workers have events to write. -/
structure Orderly (s : BackgroundSystem W) : Prop where
  log : LogShape s.rows.log
  next : ∀ w, LogShape (s.rows.log ++ appended (s.todo w))
  one : ∀ w w', appended (s.todo w) ≠ [] → appended (s.todo w') ≠ [] → w = w'

namespace Orderly

variable {s : BackgroundSystem W}

omit [DecidableEq W] in
theorem withJobs (h : Orderly s) (jobs : JobSystem W) : Orderly (s.withJobs jobs) :=
  ⟨h.log, h.next, h.one⟩

/-- New writes for a worker that keep the shape, while no other worker has events to write
unless they have none either. -/
theorem assign (h : Orderly s) (w : W) {calls : List StoreCall}
    (shape : LogShape (s.rows.log ++ appended calls))
    (alone : appended calls ≠ [] → s.Idle) : Orderly (s.assign w calls) where
  log := h.log
  next := fun w' => by
    by_cases here : w' = w
    · subst here
      simpa [BackgroundSystem.assign] using shape
    · simpa [BackgroundSystem.assign, here] using h.next w'
  one := fun w₁ w₂ some₁ some₂ => by
    by_cases new : appended calls = []
    · have old : ∀ w', appended ((s.assign w calls).todo w') ≠ [] → appended (s.todo w') ≠ [] := by
        intro w' events
        by_cases here : w' = w
        · subst here
          simp [BackgroundSystem.assign, new] at events
        · simpa [BackgroundSystem.assign, here] using events
      exact h.one w₁ w₂ (old w₁ some₁) (old w₂ some₂)
    · have only : ∀ w', appended ((s.assign w calls).todo w') ≠ [] → w' = w := by
        intro w' events
        by_contra here
        simp [BackgroundSystem.assign, here, alone new w'] at events
      rw [only w₁ some₁, only w₂ some₂]

theorem perform_log (s : BackgroundSystem W) (w : W) (ts : ℕ) (call : StoreCall) :
    (s.perform w ts call).rows.log = s.rows.log ++ appended [call]
      ∧ (s.perform w ts call).todo = s.todo := by
  cases call <;> simp [BackgroundSystem.perform, BackgroundSystem.withJobs,
    StoredResponse.perform, appended]

theorem write (h : Orderly s) {w : W} {call : StoreCall} {rest : List StoreCall}
    (next : s.todo w = call :: rest) (ts : ℕ) :
    Orderly ((s.perform w ts call).assign w rest) := by
  obtain ⟨log, todo⟩ := perform_log s w ts call
  have events : appended (s.todo w) = appended [call] ++ appended rest := by
    rw [next, ← appended_append, List.singleton_append]
  have whole : LogShape (s.rows.log ++ appended [call] ++ appended rest) := by
    rw [List.append_assoc, ← events]
    exact h.next w
  have here : ((s.perform w ts call).assign w rest).todo w = rest := by
    simp [BackgroundSystem.assign]
  have there : ∀ w', w' ≠ w → ((s.perform w ts call).assign w rest).todo w' = s.todo w' := by
    intro w' other
    simp [BackgroundSystem.assign, other, todo]
  refine ⟨?_, fun w' => ?_, fun w₁ w₂ some₁ some₂ => ?_⟩
  · show LogShape (s.perform w ts call).rows.log
    rw [log]
    exact whole.of_append
  · show LogShape ((s.perform w ts call).rows.log ++ _)
    rw [log]
    by_cases same : w' = w
    · rw [same, here]
      exact whole
    · rw [there w' same]
      by_cases silent : appended [call] = []
      · rw [silent, List.append_nil]
        exact h.next w'
      · -- this worker writes an event, so that the other has none to write
        have none : appended (s.todo w') = [] := by
          by_contra more
          refine same (h.one w' w more fun no => silent ?_)
          rw [events] at no
          exact (List.append_eq_nil_iff.mp no).1
        rw [none, List.append_nil]
        exact whole.of_append
  · have old : ∀ w', appended (((s.perform w ts call).assign w rest).todo w') ≠ [] →
        appended (s.todo w') ≠ [] := by
      intro w' more
      by_cases same : w' = w
      · rw [same, here] at more
        rw [same, events]
        exact fun no => more (List.append_eq_nil_iff.mp no).2
      · rwa [there w' same] at more
    exact h.one w₁ w₂ (old w₁ some₁) (old w₂ some₂)

theorem step (h : Orderly s) {a : HistoryStep W} (careful : Careful s a) : Orderly (s.step a) := by
  cases a with
  | call statement =>
      unfold BackgroundSystem.step
      dsimp only
      split
      · exact h.withJobs _
      · exact h
  | claim w env input =>
      unfold BackgroundSystem.step
      dsimp only
      split
      case isTrue wins =>
        obtain ⟨idle, unopened, started⟩ := careful wins
        exact (h.withJobs _).assign w (h.log.run unopened env started) fun _ => idle
      case isFalse _ => exact h.withJobs _
  | expire w responseId =>
      unfold BackgroundSystem.step
      dsimp only
      split
      case isTrue expires =>
        obtain ⟨idle, opened, running⟩ := careful expires
        have ended : LogShape (s.rows.log ++ [expiredEvent responseId]) :=
          h.log.snoc running (fun opens => by cases opens) fun _ => opened
        exact (h.withJobs _).assign w ended fun _ => idle
      case isFalse _ => exact h
  | reap w =>
      unfold BackgroundSystem.step
      dsimp only
      split
      · have silent : LogShape (s.rows.log ++ appended failExhausted) := by
          rw [show appended failExhausted = [] from rfl, List.append_nil]
          exact h.log
        exact (h.withJobs _).assign w silent fun events => absurd rfl events
      · exact h
  | write w ts =>
      unfold BackgroundSystem.step
      dsimp only
      split
      · exact h
      case h_2 call rest next => exact h.write next ts
  | kill w =>
      have stopped : Orderly { s with jobs := s.jobs.setPending w .idle } :=
        ⟨h.log, h.next, h.one⟩
      exact stopped.assign w (by simpa [appended] using h.log) fun events => absurd rfl events

end Orderly

omit [DecidableEq W] in
theorem enqueued_orderly (responseId : String) (now expiresAt : ℕ) :
    Orderly (.enqueued responseId now expiresAt : BackgroundSystem W) := by
  have shape : LogShape [queuedEvent responseId] := by
    have empty : LogShape [] := ⟨by simp, fun before event after split => by simp at split⟩
    exact empty.snoc nofun (fun _ => nofun) (fun ends => by cases ends)
  refine ⟨shape, fun w => ?_, fun w w' some => absurd rfl some⟩
  show LogShape ([queuedEvent responseId] ++ [])
  rw [List.append_nil]
  exact shape

/-- **The log of a background response is sound** in every history of careful steps, once an
execution has opened it: over every set of workers, every interleaving of their writes, every
upstream and every crash. -/
theorem careful_log_sound (responseId : String) (now expiresAt : ℕ)
    (history : List (HistoryStep W))
    (careful : Along BackgroundSystem.step Careful (.enqueued responseId now expiresAt) history)
    (opened : ∃ event ∈ (runSchedule BackgroundSystem.step
      (.enqueued responseId now expiresAt) history).rows.log, event.opens = true) :
    LogSound (runSchedule BackgroundSystem.step (.enqueued responseId now expiresAt)
      history).rows.log := by
  have orderly := runSchedule_of_along Orderly (fun s a h careful => h.step careful)
    (enqueued_orderly responseId now expiresAt) careful
  exact orderly.log.sound opened

/-! ## Histories -/

/-- A worker claims the job and opens the log. -/
def openingHistory : List (HistoryStep Bool) :=
  [.call (.claimSelect false 100 300), .claim false plainJobEnv cutInput, .write false 100,
    .write false 100]

theorem openingHistory_log_sound :
    Along BackgroundSystem.step Careful (.enqueued "r" 100 0) openingHistory
      ∧ LogSound (runSchedule BackgroundSystem.step (.enqueued "r" 100 0)
          openingHistory).rows.log := by
  have careful : Along BackgroundSystem.step Careful (.enqueued "r" 100 0) openingHistory := by
    decide +kernel
  exact ⟨careful, careful_log_sound "r" 100 0 openingHistory careful (by decide +kernel)⟩

/-- The worker dies, its lease runs out, and another one recovers the job. -/
def recoveryHistory : List (HistoryStep Bool) :=
  openingHistory ++ [.kill false, .call (.claimSelect true 500 300),
    .claim true plainJobEnv cutInput, .write true 500, .write true 500]

/-- The recovery opens the log a second time. -/
theorem recoveryHistory_opens_twice :
    ¬ ∀ (responseId : String) (now expiresAt : ℕ) (history : List (HistoryStep Bool)),
      (∃ event ∈ (runSchedule BackgroundSystem.step
        (.enqueued responseId now expiresAt) history).rows.log, event.opens = true) →
      LogSound (runSchedule BackgroundSystem.step (.enqueued responseId now expiresAt)
        history).rows.log := by
  intro all
  have sound := all "r" 100 0 recoveryHistory (by decide +kernel)
  exact absurd sound.created (by decide +kernel)

end Zhongzhuan.Responses
