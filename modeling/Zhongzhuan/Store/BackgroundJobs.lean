import Zhongzhuan.Kit.Schedule

/-!
# `BackgroundJobStore`: one `background_jobs` row under concurrent statements

The state machine of `store/background_jobs.py`,

    queued -> in_progress -> {completed | failed | incomplete | cancelled | expired}

is driven by single SQL statements that any number of worker processes issue
against one shared row.  Each store method is cut here at its statements: the
reads (`claimSelect`, `renewSelect`, `expireSelect`, `reapSelect`) and the writes
(`claimUpdate`, `renewUpdate`, `markTerminal`, `requestCancel`) are functions on
the row, with the `WHERE` clauses the source has and no others.

* `JobSystem` is the row, what each worker carries from a read to its write, and
  the record of what the calls returned.
* `JobStatement` is one statement of one worker; `JobSystem.step` executes it.

The clock reading of a call is an argument of its first statement: the source
reads the clock once, when the call begins, and every statement of the call uses
that reading.  Nothing is assumed about it, so a worker that was paused between
its reading and its statements is one of the runs.  The in-process claim lock is
not modelled; the workers are in different processes.
-/

namespace Zhongzhuan.Store

/-- The status column of `background_jobs` and of `responses`. -/
inductive RunStatus
  | queued
  | inProgress
  | completed
  | failed
  | incomplete
  | cancelled
  | expired
deriving DecidableEq, Repr

/-- The text of the column. -/
def RunStatus.value : RunStatus → String
  | .queued => "queued"
  | .inProgress => "in_progress"
  | .completed => "completed"
  | .failed => "failed"
  | .incomplete => "incomplete"
  | .cancelled => "cancelled"
  | .expired => "expired"

/-- `TERMINAL_STATUSES`. -/
def RunStatus.terminal : RunStatus → Bool
  | .completed | .failed | .incomplete | .cancelled | .expired => true
  | .queued | .inProgress => false

/-- `ACTIVE_STATUSES`, also the list the `WHERE` clauses spell out. -/
def RunStatus.active : RunStatus → Bool
  | .queued | .inProgress => true
  | _ => false

@[simp] theorem RunStatus.active_eq_not_terminal (status : RunStatus) :
    status.active = !status.terminal := by
  cases status <;> rfl

/-- `MAX_RECOVERY_ATTEMPTS`: the original run plus exactly one recovery. -/
def maxRecoveryAttempts : ℕ := 2

/-- The columns of a `background_jobs` row that the statements read or write.
Times are epoch seconds. -/
structure JobRow where
  status : RunStatus
  createdAt : ℕ
  updatedAt : ℕ
  leaseUntil : ℕ
  cancelRequested : Bool
  attempt : ℕ
  expiresAt : ℕ
deriving DecidableEq, Repr

namespace JobRow

/-- `create_job`: one `queued` row with `attempt = 0` and no lease. -/
def createJob (now expiresAt : ℕ) : JobRow where
  status := .queued
  createdAt := now
  updatedAt := now
  leaseUntil := 0
  cancelRequested := false
  attempt := 0
  expiresAt := expiresAt

/-- The `WHERE` clause shared by `peek_claimable` and the `SELECT` of
`claim_job`. -/
def claimable (row : JobRow) (ts : ℕ) : Bool :=
  row.status.active && decide (row.leaseUntil < ts)
    && (decide (row.expiresAt = 0) || decide (ts < row.expiresAt))
    && decide (row.attempt < maxRecoveryAttempts)

/-- The `SELECT` of `claim_job`: the attempt number of a claimable row. -/
def claimSelect (row : JobRow) (ts : ℕ) : Option ℕ :=
  if row.claimable ts then some row.attempt else none

/-- The conditional `UPDATE` of `claim_job` and its affected-row count.  Its
`WHERE` restates the attempt and the lease, and not the status. -/
def claimUpdate (row : JobRow) (attempt ts leaseSeconds : ℕ) : JobRow × ℕ :=
  if row.attempt = attempt ∧ row.leaseUntil < ts then
    ({ row with
        status := .inProgress
        leaseUntil := ts + leaseSeconds
        attempt := attempt + 1
        updatedAt := ts }, 1)
  else (row, 0)

/-- The `SELECT` of `_reap_exhausted`: attempts burned and lease expired. -/
def reapSelect (row : JobRow) (ts : ℕ) : Bool :=
  row.status.active && decide (row.leaseUntil < ts)
    && decide (maxRecoveryAttempts ≤ row.attempt)

/-- The `SELECT` of `expire_stale`: active past a nonzero deadline. -/
def expireSelect (row : JobRow) (ts : ℕ) : Bool :=
  row.status.active && decide (0 < row.expiresAt) && decide (row.expiresAt ≤ ts)

/-- The read half of `renew_lease`: the lease to renew, or `none` when the call
returns `False` without writing. -/
def renewSelect (row : JobRow) (ts : ℕ) : Option ℕ :=
  if !row.status.active then none
  else if row.leaseUntil ≠ 0 ∧ row.leaseUntil < ts then none
  else some row.leaseUntil

/-- Whether the `WHERE` of `renew_lease`'s `UPDATE` matches the row. -/
def renewMatches (row : JobRow) (lease : ℕ) : Bool :=
  row.status.active && decide (row.leaseUntil = lease)

/-- The `UPDATE` of `renew_lease`.  The source does not look at its affected-row
count. -/
def renewUpdate (row : JobRow) (lease ts leaseSeconds : ℕ) : JobRow :=
  if row.renewMatches lease then
    { row with leaseUntil := ts + leaseSeconds, updatedAt := ts }
  else row

/-- `mark_terminal`: an `UPDATE` whose only condition is the task id. -/
def markTerminal (row : JobRow) (status : RunStatus) (ts : ℕ) : JobRow :=
  { row with status := status, updatedAt := ts }

/-- `request_cancel`: raise the cooperative cancel flag. -/
def requestCancel (row : JobRow) (ts : ℕ) : JobRow :=
  { row with cancelRequested := true, updatedAt := ts }

end JobRow

/-- What a worker carries from the read of a store call to its write. -/
inductive Pending
  | idle
  | claim (attempt ts leaseSeconds : ℕ)
  | renew (lease ts leaseSeconds : ℕ)
  | expire (ts : ℕ)
  | reap (ts : ℕ)
deriving DecidableEq, Repr

/-- One statement of one worker. -/
inductive JobStatement (W : Type)
  | claimSelect (worker : W) (ts leaseSeconds : ℕ)
  | claimUpdate (worker : W)
  | renewSelect (worker : W) (ts leaseSeconds : ℕ)
  | renewUpdate (worker : W)
  | expireSelect (worker : W) (ts : ℕ)
  | expireUpdate (worker : W)
  | reapSelect (worker : W) (ts : ℕ)
  | reapUpdate (worker : W)
  | markTerminal (worker : W) (status : RunStatus) (ts : ℕ)
  | requestCancel (ts : ℕ)
deriving DecidableEq, Repr

/-- What the calls did to the lease and what they returned, in order. -/
inductive JobEvent (W : Type)
  /-- `claim_job` returned the job id; the row now holds `attempt` and `lease`. -/
  | granted (worker : W) (attempt ts lease : ℕ)
  /-- `claim_job` returned `None`. -/
  | missed (worker : W)
  /-- The `UPDATE` of a renewal matched and stored `lease`. -/
  | extended (worker : W) (ts lease : ℕ)
  /-- `renew_lease` returned. -/
  | renewReturned (worker : W) (ok : Bool)
deriving DecidableEq, Repr

/-- The shared row, the workers' local state and the record of the run. -/
structure JobSystem (W : Type) where
  row : JobRow
  pending : W → Pending
  log : List (JobEvent W)

namespace JobSystem

variable {W : Type} [DecidableEq W]

/-- A freshly created job nobody has looked at yet. -/
def init (now expiresAt : ℕ) : JobSystem W where
  row := JobRow.createJob now expiresAt
  pending := fun _ => .idle
  log := []

/-- Worker `w` moves to local state `p`. -/
def setPending (s : JobSystem W) (w : W) (p : Pending) : JobSystem W :=
  { s with pending := Function.update s.pending w p }

/-- Append to the record. -/
def emit (s : JobSystem W) (events : List (JobEvent W)) : JobSystem W :=
  { s with log := s.log ++ events }

/-- Replace the row. -/
def withRow (s : JobSystem W) (row : JobRow) : JobSystem W :=
  { s with row := row }

@[simp] theorem setPending_row (s : JobSystem W) (w : W) (p : Pending) :
    (s.setPending w p).row = s.row := rfl

omit [DecidableEq W] in
@[simp] theorem emit_row (s : JobSystem W) (events : List (JobEvent W)) :
    (s.emit events).row = s.row := rfl

omit [DecidableEq W] in
@[simp] theorem withRow_row (s : JobSystem W) (row : JobRow) :
    (s.withRow row).row = row := rfl

@[simp] theorem setPending_log (s : JobSystem W) (w : W) (p : Pending) :
    (s.setPending w p).log = s.log := rfl

omit [DecidableEq W] in
@[simp] theorem emit_log (s : JobSystem W) (events : List (JobEvent W)) :
    (s.emit events).log = s.log ++ events := rfl

omit [DecidableEq W] in
@[simp] theorem withRow_log (s : JobSystem W) (row : JobRow) :
    (s.withRow row).log = s.log := rfl

/-- Execute one statement.  A read needs an idle worker and a write needs the
read it belongs to; any other statement is not enabled and changes nothing. -/
def step (s : JobSystem W) : JobStatement W → JobSystem W
  | .claimSelect w ts leaseSeconds =>
      match s.pending w with
      | .idle =>
          match s.row.claimSelect ts with
          | some attempt => s.setPending w (.claim attempt ts leaseSeconds)
          | none => s.emit [.missed w]
      | _ => s
  | .claimUpdate w =>
      match s.pending w with
      | .claim attempt ts leaseSeconds =>
          let updated := s.row.claimUpdate attempt ts leaseSeconds
          let event :=
            if 0 < updated.2 then
              JobEvent.granted w (attempt + 1) ts (ts + leaseSeconds)
            else .missed w
          ((s.withRow updated.1).setPending w .idle).emit [event]
      | _ => s
  | .renewSelect w ts leaseSeconds =>
      match s.pending w with
      | .idle =>
          match s.row.renewSelect ts with
          | some lease => s.setPending w (.renew lease ts leaseSeconds)
          | none => s.emit [.renewReturned w false]
      | _ => s
  | .renewUpdate w =>
      match s.pending w with
      | .renew lease ts leaseSeconds =>
          let events :=
            if s.row.renewMatches lease then
              [JobEvent.extended w ts (ts + leaseSeconds), .renewReturned w true]
            else [.renewReturned w true]
          ((s.withRow (s.row.renewUpdate lease ts leaseSeconds)).setPending w
            .idle).emit events
      | _ => s
  | .expireSelect w ts =>
      match s.pending w with
      | .idle => if s.row.expireSelect ts then s.setPending w (.expire ts) else s
      | _ => s
  | .expireUpdate w =>
      match s.pending w with
      | .expire ts => (s.withRow (s.row.markTerminal .expired ts)).setPending w .idle
      | _ => s
  | .reapSelect w ts =>
      match s.pending w with
      | .idle => if s.row.reapSelect ts then s.setPending w (.reap ts) else s
      | _ => s
  | .reapUpdate w =>
      match s.pending w with
      | .reap ts => (s.withRow (s.row.markTerminal .failed ts)).setPending w .idle
      | _ => s
  | .markTerminal _ status ts => s.withRow (s.row.markTerminal status ts)
  | .requestCancel ts => s.withRow (s.row.requestCancel ts)

/-! ## What one statement can do -/

/-- The local state a statement needs; the source never issues it in another. -/
def Enabled (s : JobSystem W) : JobStatement W → Prop
  | .claimSelect w _ _ | .renewSelect w _ _ | .expireSelect w _ | .reapSelect w _ =>
      s.pending w = .idle
  | .claimUpdate w => ∃ attempt ts leaseSeconds,
      s.pending w = .claim attempt ts leaseSeconds
  | .renewUpdate w => ∃ lease ts leaseSeconds,
      s.pending w = .renew lease ts leaseSeconds
  | .expireUpdate w => ∃ ts, s.pending w = .expire ts
  | .reapUpdate w => ∃ ts, s.pending w = .reap ts
  | .markTerminal _ _ _ | .requestCancel _ => True

/-- **The moves of the system**, guards included: every invariant of the row is a
case analysis over these and never over the body of `step`. -/
inductive Move (s : JobSystem W) : JobStatement W → JobSystem W → Prop
  | disabled {a : JobStatement W} (notEnabled : ¬ s.Enabled a) : Move s a s
  | claimRead {w : W} {ts leaseSeconds : ℕ} (free : s.pending w = .idle)
      (claimable : s.row.claimable ts = true) :
      Move s (.claimSelect w ts leaseSeconds)
        (s.setPending w (.claim s.row.attempt ts leaseSeconds))
  | claimMiss {w : W} {ts leaseSeconds : ℕ} (free : s.pending w = .idle) :
      Move s (.claimSelect w ts leaseSeconds) (s.emit [.missed w])
  | claimWin {w : W} {attempt ts leaseSeconds : ℕ}
      (read : s.pending w = .claim attempt ts leaseSeconds)
      (sameAttempt : s.row.attempt = attempt) (leasePassed : s.row.leaseUntil < ts) :
      Move s (.claimUpdate w)
        (((s.withRow { s.row with
            status := .inProgress, leaseUntil := ts + leaseSeconds,
            attempt := attempt + 1, updatedAt := ts }).setPending w .idle).emit
          [.granted w (attempt + 1) ts (ts + leaseSeconds)])
  | claimLose {w : W} {attempt ts leaseSeconds : ℕ}
      (read : s.pending w = .claim attempt ts leaseSeconds)
      (guard : ¬ (s.row.attempt = attempt ∧ s.row.leaseUntil < ts)) :
      Move s (.claimUpdate w) ((s.setPending w .idle).emit [.missed w])
  | renewRead {w : W} {ts leaseSeconds : ℕ} (free : s.pending w = .idle)
      (active : s.row.status.active = true)
      (unexpired : s.row.leaseUntil = 0 ∨ ts ≤ s.row.leaseUntil) :
      Move s (.renewSelect w ts leaseSeconds)
        (s.setPending w (.renew s.row.leaseUntil ts leaseSeconds))
  | renewRefuse {w : W} {ts leaseSeconds : ℕ} (free : s.pending w = .idle)
      (lost : s.row.status.active = false
        ∨ s.row.leaseUntil ≠ 0 ∧ s.row.leaseUntil < ts) :
      Move s (.renewSelect w ts leaseSeconds) (s.emit [.renewReturned w false])
  | renewExtend {w : W} {lease ts leaseSeconds : ℕ}
      (read : s.pending w = .renew lease ts leaseSeconds)
      (active : s.row.status.active = true) (sameLease : s.row.leaseUntil = lease) :
      Move s (.renewUpdate w)
        (((s.withRow { s.row with
            leaseUntil := ts + leaseSeconds, updatedAt := ts }).setPending w
          .idle).emit [.extended w ts (ts + leaseSeconds), .renewReturned w true])
  | renewBlind {w : W} {lease ts leaseSeconds : ℕ}
      (read : s.pending w = .renew lease ts leaseSeconds)
      (noMatch : s.row.renewMatches lease = false) :
      Move s (.renewUpdate w) ((s.setPending w .idle).emit [.renewReturned w true])
  | expireRead {w : W} {ts : ℕ} (free : s.pending w = .idle)
      (stale : s.row.expireSelect ts = true) :
      Move s (.expireSelect w ts) (s.setPending w (.expire ts))
  | expireSkip {w : W} {ts : ℕ} (free : s.pending w = .idle) :
      Move s (.expireSelect w ts) s
  | expireWrite {w : W} {ts : ℕ} (read : s.pending w = .expire ts) :
      Move s (.expireUpdate w)
        ((s.withRow (s.row.markTerminal .expired ts)).setPending w .idle)
  | reapRead {w : W} {ts : ℕ} (free : s.pending w = .idle)
      (exhausted : s.row.reapSelect ts = true) :
      Move s (.reapSelect w ts) (s.setPending w (.reap ts))
  | reapSkip {w : W} {ts : ℕ} (free : s.pending w = .idle) :
      Move s (.reapSelect w ts) s
  | reapWrite {w : W} {ts : ℕ} (read : s.pending w = .reap ts) :
      Move s (.reapUpdate w)
        ((s.withRow (s.row.markTerminal .failed ts)).setPending w .idle)
  | mark {w : W} {status : RunStatus} {ts : ℕ} :
      Move s (.markTerminal w status ts) (s.withRow (s.row.markTerminal status ts))
  | cancel {ts : ℕ} :
      Move s (.requestCancel ts) (s.withRow (s.row.requestCancel ts))

theorem move_disabled {s : JobSystem W} {a : JobStatement W}
    (notEnabled : ¬ s.Enabled a) (same : s.step a = s) : Move s a (s.step a) := by
  rw [same]
  exact .disabled notEnabled

theorem move_step (s : JobSystem W) (a : JobStatement W) : Move s a (s.step a) := by
  cases a with
  | claimSelect w ts leaseSeconds =>
      cases free : s.pending w with
      | idle =>
          cases claimable : s.row.claimable ts with
          | true =>
              simp only [step, free, JobRow.claimSelect, claimable, if_true]
              exact .claimRead free claimable
          | false =>
              simp only [step, free, JobRow.claimSelect, claimable]
              exact .claimMiss free
      | _ => exact move_disabled (by simp [Enabled, free]) (by simp only [step, free])
  | claimUpdate w =>
      cases read : s.pending w with
      | claim attempt ts leaseSeconds =>
          by_cases guard : s.row.attempt = attempt ∧ s.row.leaseUntil < ts
          · simp only [step, read, JobRow.claimUpdate, if_pos guard, Nat.zero_lt_one,
              if_true]
            exact .claimWin read guard.1 guard.2
          · simp only [step, read, JobRow.claimUpdate, if_neg guard, Nat.lt_irrefl,
              if_false]
            exact .claimLose read guard
      | _ => exact move_disabled (by simp [Enabled, read]) (by simp only [step, read])
  | renewSelect w ts leaseSeconds =>
      cases free : s.pending w with
      | idle =>
          cases active : s.row.status.active with
          | false =>
              simp only [step, free, JobRow.renewSelect, active]
              exact .renewRefuse free (.inl active)
          | true =>
              by_cases lost : s.row.leaseUntil ≠ 0 ∧ s.row.leaseUntil < ts
              · simp only [step, free, JobRow.renewSelect, active, if_pos lost]
                exact .renewRefuse free (.inr lost)
              · simp only [step, free, JobRow.renewSelect, active, if_neg lost]
                exact .renewRead free active (by omega)
      | _ => exact move_disabled (by simp [Enabled, free]) (by simp only [step, free])
  | renewUpdate w =>
      cases read : s.pending w with
      | renew lease ts leaseSeconds =>
          cases matched : s.row.renewMatches lease with
          | true =>
              simp only [step, read, JobRow.renewUpdate, matched, if_true]
              have guard : s.row.status.active = true ∧ s.row.leaseUntil = lease := by
                simpa [JobRow.renewMatches] using matched
              exact .renewExtend read guard.1 guard.2
          | false =>
              simp only [step, read, JobRow.renewUpdate, matched]
              exact .renewBlind read matched
      | _ => exact move_disabled (by simp [Enabled, read]) (by simp only [step, read])
  | expireSelect w ts =>
      cases free : s.pending w with
      | idle =>
          cases stale : s.row.expireSelect ts with
          | true =>
              simp only [step, free, stale, if_true]
              exact .expireRead free stale
          | false =>
              simp only [step, free, stale]
              exact .expireSkip free
      | _ => exact move_disabled (by simp [Enabled, free]) (by simp only [step, free])
  | expireUpdate w =>
      cases read : s.pending w with
      | expire ts =>
          simp only [step, read]
          exact .expireWrite read
      | _ => exact move_disabled (by simp [Enabled, read]) (by simp only [step, read])
  | reapSelect w ts =>
      cases free : s.pending w with
      | idle =>
          cases exhausted : s.row.reapSelect ts with
          | true =>
              simp only [step, free, exhausted, if_true]
              exact .reapRead free exhausted
          | false =>
              simp only [step, free, exhausted]
              exact .reapSkip free
      | _ => exact move_disabled (by simp [Enabled, free]) (by simp only [step, free])
  | reapUpdate w =>
      cases read : s.pending w with
      | reap ts =>
          simp only [step, read]
          exact .reapWrite read
      | _ => exact move_disabled (by simp [Enabled, read]) (by simp only [step, read])
  | markTerminal w status ts => exact .mark
  | requestCancel ts => exact .cancel

end JobSystem

end Zhongzhuan.Store
