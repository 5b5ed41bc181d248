import Zhongzhuan.Store.BackgroundJobs
import Zhongzhuan.Protocol.Models

/-!
# One background response: the cancel endpoint against the workers

A `background=true` response is one row of `responses` and one row of
`background_jobs`.  Three kinds of party write the response row: the `cancel`
endpoint (`responses_v3/endpoints.py`), the worker that runs the job and every
worker that recovers or expires it (`responses_v3/background.py`).  Each is cut
here at its statements.

* `ResponseRow` has the columns the status writes touch; `updateStatus`,
  `setCancelled` and `markFailed` are the three writes, none of which looks at
  the status it replaces.
* `CancelPc` and `WorkerPc` say which statement of its coroutine a party executes
  next; `Lifecycle.step` executes it.
* The job row is a `JobSystem`: claims, leases, recovery and the expiry sweep are
  the statements of the store layer, and the control of a worker follows what they
  return.

What an upstream does between two statements of a worker (a chunk, the end of the
stream, a budget ceiling, an exception) is a step of the schedule.
-/

namespace Zhongzhuan.Responses

open Kit Store Protocol

/-- The columns of a `responses` row that a status write touches. -/
structure ResponseRow where
  status : RunStatus
  updatedAt : ℕ
  completedAt : ℕ
  terminalReason : String
  error : String
  cancelled : Bool
deriving DecidableEq, Repr

namespace ResponseRow

/-- The row `enqueue` inserts. -/
def queued (now : ℕ) : ResponseRow where
  status := .queued
  updatedAt := now
  completedAt := 0
  terminalReason := ""
  error := ""
  cancelled := false

/-- The statuses for which `update_status` stamps `completed_at`; `expired` is not
among them. -/
def stampsCompletion : RunStatus → Bool
  | .completed | .failed | .incomplete | .cancelled => true
  | _ => false

/-- `ResponseStore.update_status`. -/
def updateStatus (row : ResponseRow) (status : RunStatus) (terminalReason error : String)
    (now : ℕ) : ResponseRow :=
  { row with
    status := status
    updatedAt := now
    completedAt := if stampsCompletion status then now else 0
    terminalReason := terminalReason
    error := error }

/-- `ResponseStore.set_cancelled`. -/
def setCancelled (row : ResponseRow) (now : ℕ) : ResponseRow :=
  { row with cancelled := true, status := .cancelled, updatedAt := now }

/-- The write of `BackgroundJobStore.mark_failed` to the response row. -/
def markFailed (row : ResponseRow) (reason : String) (now : ℕ) : ResponseRow :=
  { row with
    status := .failed
    terminalReason := reason
    updatedAt := now
    completedAt := now }

end ResponseRow

/-- Where a call of `cancel` stands: the statement it executes next. -/
inductive CancelPc
  | getResponse
  | requestCancel
  | setCancelled
  | answer
  | done
deriving DecidableEq, Repr

/-- Where a worker stands in `run_job`. -/
inductive WorkerPc
  | idle
  /-- The claim succeeded; `is_cancel_requested` comes next. -/
  | claimed
  /-- `_execute` is about to write `in_progress`. -/
  | starting
  /-- `_stream` is at a chunk boundary. -/
  | boundary
  /-- The boundary checks passed; the next chunk is awaited. -/
  | fetching
  /-- `_stream` returned without a ceiling; the last flag check comes next. -/
  | ended
  /-- A `_finish_*` or `_trip` is about to write the response row. -/
  | finishing (status : RunStatus) (reason error : String)
  /-- The response row is written; the job row comes next. -/
  | marking (status : RunStatus)
  /-- `expire_stale` marked the job; `_finalize_expired` comes next. -/
  | expiring
  /-- `mark_failed` marked the job; its response write comes next. -/
  | failing (ts : ℕ)
deriving DecidableEq, Repr

/-- The live state of one worker: its control and the two flags of `_JobRun`. -/
structure WorkerState where
  pc : WorkerPc
  cancelled : Bool
  stopped : Bool
deriving DecidableEq, Repr

/-- A worker that runs nothing. -/
def WorkerState.idle : WorkerState := ⟨.idle, false, false⟩

/-- One step of the system: a statement of a party, or what the upstream of a
worker does next. -/
inductive LifecycleStep (W C : Type)
  | store (a : JobStatement W)
  | cancelGet (c : C)
  | cancelRequest (c : C) (now : ℕ)
  | cancelSet (c : C) (now : ℕ)
  | cancelHook (w : W)
  | cancelAnswer (c : C)
  | checkQueuedCancel (w : W)
  | writeInProgress (w : W) (now : ℕ)
  | checkBoundary (w : W)
  | chunk (w : W)
  | endOfStream (w : W)
  | ceiling (w : W) (reason : TerminalReason)
  | raise (w : W) (exception : String)
  | leaseLost (w : W)
  | checkLast (w : W)
  | writeFinal (w : W) (now : ℕ)
  | markJob (w : W) (now : ℕ)
  | finalizeExpired (w : W) (now : ℕ)
  | failResponse (w : W)

/-- The two rows, the parties and the answers `cancel` has given. -/
structure Lifecycle (W C : Type) where
  jobs : JobSystem W
  response : ResponseRow
  worker : W → WorkerState
  canceller : C → CancelPc
  answers : List (C × RunStatus)

namespace Lifecycle

variable {W C : Type} [DecidableEq W] [DecidableEq C]

/-- The state `enqueue` leaves: both rows inserted, nobody working. -/
def enqueue (now expiresAt : ℕ) : Lifecycle W C where
  jobs := .init now expiresAt
  response := .queued now
  worker := fun _ => .idle
  canceller := fun _ => .getResponse
  answers := []

def setWorker (s : Lifecycle W C) (w : W) (state : WorkerState) : Lifecycle W C :=
  { s with worker := Function.update s.worker w state }

def setCanceller (s : Lifecycle W C) (c : C) (pc : CancelPc) : Lifecycle W C :=
  { s with canceller := Function.update s.canceller c pc }

/-- Worker `w` moves to `pc` and keeps its flags. -/
def goto (s : Lifecycle W C) (w : W) (pc : WorkerPc) : Lifecycle W C :=
  s.setWorker w { s.worker w with pc := pc }

/-- The control of the workers after a statement of the job store: a claim whose
`UPDATE` affected the row starts a fresh run, and the two sweeps go on to the
response row. -/
def afterStore (s : Lifecycle W C) : JobStatement W → Lifecycle W C
  | .claimUpdate w =>
      match s.jobs.pending w with
      | .claim attempt ts leaseSeconds =>
          if 0 < (s.jobs.row.claimUpdate attempt ts leaseSeconds).2 then
            s.setWorker w ⟨.claimed, false, false⟩
          else s
      | _ => s
  | .expireUpdate w =>
      match s.jobs.pending w with
      | .expire _ => s.goto w .expiring
      | _ => s
  | .reapUpdate w =>
      match s.jobs.pending w with
      | .reap ts => s.goto w (.failing ts)
      | _ => s
  | _ => s

/-- The statements of the job store a worker issues on its own in this system; the
cancel flag and the terminal mark belong to `cancelRequest` and `markJob`. -/
def storeEnabled (s : Lifecycle W C) : JobStatement W → Bool
  | .claimSelect w _ _ | .expireSelect w _ | .reapSelect w _ =>
      decide ((s.worker w).pc = .idle)
  | .markTerminal _ _ _ | .requestCancel _ => false
  | _ => true

/-- `run.cancelled or is_cancel_requested(task_id)`. -/
def cancelSeen (s : Lifecycle W C) (w : W) : Bool :=
  (s.worker w).cancelled || s.jobs.row.cancelRequested

/-- Execute one step.  A step whose party stands elsewhere changes nothing. -/
def step (s : Lifecycle W C) : LifecycleStep W C → Lifecycle W C
  | .store a =>
      if s.storeEnabled a then { s.afterStore a with jobs := s.jobs.step a } else s
  -- The cancel endpoint.  The record it reads first is tested for existence only.
  | .cancelGet c =>
      match s.canceller c with
      | .getResponse => s.setCanceller c .requestCancel
      | _ => s
  | .cancelRequest c now =>
      match s.canceller c with
      | .requestCancel =>
          { s with jobs := s.jobs.step (.requestCancel now) }.setCanceller c .setCancelled
      | _ => s
  | .cancelSet c now =>
      match s.canceller c with
      | .setCancelled =>
          { s with response := s.response.setCancelled now }.setCanceller c .answer
      | _ => s
  | .cancelHook w => s.setWorker w { s.worker w with cancelled := true, stopped := true }
  | .cancelAnswer c =>
      match s.canceller c with
      | .answer =>
          { s with answers := s.answers ++ [(c, s.response.status)] }.setCanceller c .done
      | _ => s
  -- The worker.
  | .checkQueuedCancel w =>
      match (s.worker w).pc with
      | .claimed =>
          if s.jobs.row.cancelRequested then
            s.setWorker w ⟨.finishing .cancelled TerminalReason.cancelledByClient.value "",
              true, (s.worker w).stopped⟩
          else s.goto w .starting
      | _ => s
  | .writeInProgress w now =>
      match (s.worker w).pc with
      | .starting =>
          { s with response := s.response.updateStatus .inProgress "" "" now }.goto w
            .boundary
      | _ => s
  | .checkBoundary w =>
      match (s.worker w).pc with
      | .boundary =>
          if (s.worker w).stopped then s.goto w .ended
          else if s.cancelSeen w then
            s.setWorker w ⟨.ended, true, (s.worker w).stopped⟩
          else s.goto w .fetching
      | _ => s
  | .chunk w =>
      match (s.worker w).pc with
      | .fetching => s.goto w .boundary
      | _ => s
  | .endOfStream w =>
      match (s.worker w).pc with
      | .fetching => s.goto w .ended
      | _ => s
  | .ceiling w reason =>
      match (s.worker w).pc with
      | .boundary | .fetching | .ended => s.goto w (.finishing .incomplete reason.value "")
      | _ => s
  | .raise w exception =>
      match (s.worker w).pc with
      | .starting | .boundary | .fetching | .ended =>
          s.goto w (.finishing .failed TerminalReason.upstreamError.value exception)
      | _ => s
  | .leaseLost w => s.setWorker w { s.worker w with cancelled := true }
  | .checkLast w =>
      match (s.worker w).pc with
      | .ended =>
          if s.cancelSeen w then
            s.goto w (.finishing .cancelled TerminalReason.cancelledByClient.value "")
          else s.goto w (.finishing .completed TerminalReason.normalFinish.value "")
      | _ => s
  | .writeFinal w now =>
      match (s.worker w).pc with
      | .finishing status reason error =>
          { s with response := s.response.updateStatus status reason error now }.goto w
            (.marking status)
      | _ => s
  | .markJob w now =>
      match (s.worker w).pc with
      | .marking status =>
          { s with jobs := s.jobs.step (.markTerminal w status now) }.setWorker w .idle
      | _ => s
  | .finalizeExpired w now =>
      match (s.worker w).pc with
      | .expiring =>
          { s with response := s.response.updateStatus .expired "expired" "" now }.goto w
            .idle
      | _ => s
  | .failResponse w =>
      match (s.worker w).pc with
      | .failing ts =>
          { s with response := s.response.markFailed "recovery_exhausted" ts }.goto w .idle
      | _ => s

end Lifecycle

end Zhongzhuan.Responses
