import Mathlib
import Zhongzhuan.Store.BackgroundJobs

/-!
# The worker loop over a whole `background_jobs` table

`BackgroundWorker.start` polls: it peeks for a claimable job and, when there is
one, hands its id to `run_job`.  Expiry and reaping have no loop of their own;
`expire_stale` is the first call of `run_job`, and `_reap_exhausted` is the miss
path of `claim_job`, where the loop "doubles as the reaper".

* `JobTable` is the table, with `task_id` its primary key.
* `peekClaimable`, `expireStale`, `claimJob`, `reapExhausted`: the store calls,
  each a query over the rows followed by updates by id.
* `runJob` and `iteration`: one round of the loop, for one worker.

What the loop leaves behind is decided before it starts: the peek filters out the
rows that need reaping, and a round that found nothing to run makes no other call
(`iteration_settles_iff`).
-/

namespace Zhongzhuan.Store

/-- The rows of `background_jobs`, keyed by `task_id`. -/
structure JobTable where
  jobs : List (String × JobRow)
  unique : (jobs.map Prod.fst).Nodup

/-- What the execution of a claimed job does to its own row: the heartbeats, each
at so many seconds after the claim, and the status its terminal handler marks
(`none` when the run was torn down before it got there). -/
structure Execution where
  heartbeats : List ℕ
  ending : Option RunStatus
  terminal : ∀ status ∈ ending, status.terminal = true

/-- `renew_lease` against a row no other process touches meanwhile. -/
def JobRow.renewLease (row : JobRow) (ts leaseSeconds : ℕ) : JobRow :=
  match row.renewSelect ts with
  | none => row
  | some lease => row.renewUpdate lease ts leaseSeconds

/-- The row of a claimed job after its execution. -/
def JobRow.execute (row : JobRow) (execution : Execution) (ts leaseSeconds : ℕ) :
    JobRow :=
  let beaten := execution.heartbeats.foldl
    (fun row elapsed => row.renewLease (ts + elapsed) leaseSeconds) row
  match execution.ending with
  | none => beaten
  | some status => beaten.markTerminal status ts

namespace JobTable

/-- Rewrite every row by its id; an `UPDATE` never changes the key. -/
def update (table : JobTable) (change : String → JobRow → JobRow) : JobTable where
  jobs := table.jobs.map fun job => (job.1, change job.1 job.2)
  unique := by
    simpa [Function.comp_def] using table.unique

/-- An `UPDATE … WHERE task_id = ?`. -/
def updateAt (table : JobTable) (taskId : String) (change : JobRow → JobRow) :
    JobTable :=
  table.update fun id row => if id = taskId then change row else row

/-- `mark_terminal`. -/
def markTerminal (table : JobTable) (taskId : String) (status : RunStatus) (ts : ℕ) :
    JobTable :=
  table.updateAt taskId fun row => row.markTerminal status ts

/-- The ids a query selects. -/
def idsWhere (table : JobTable) (condition : String → JobRow → Bool) : List String :=
  (table.jobs.filter fun job => condition job.1 job.2).map Prod.fst

/-- The `for` loop of `expire_stale` and `_reap_exhausted`. -/
def markAll (table : JobTable) (taskIds : List String) (status : RunStatus) (ts : ℕ) :
    JobTable :=
  taskIds.foldl (fun table taskId => table.markTerminal taskId status ts) table

/-- The claimable job that `ORDER BY created_at, task_id LIMIT 1` selects, among
those the optional `task_id = ?` admits. -/
def firstClaimable (table : JobTable) (ts : ℕ) (taskId : Option String) :
    Option (String × JobRow) :=
  (table.jobs.filter fun job => job.2.claimable ts && taskId.all (· == job.1)).argmin
    fun job => toLex (job.2.createdAt, job.1)

/-- `peek_claimable`. -/
def peekClaimable (table : JobTable) (ts : ℕ) : Option String :=
  (table.firstClaimable ts none).map Prod.fst

/-- `expire_stale`: the table and the ids it marked. -/
def expireStale (table : JobTable) (ts : ℕ) : JobTable × List String :=
  let expired := table.idsWhere fun _ row => row.expireSelect ts
  (table.markAll expired .expired ts, expired)

/-- `_reap_exhausted`: `mark_failed` on every row the query selects. -/
def reapExhausted (table : JobTable) (ts : ℕ) (taskId : Option String) : JobTable :=
  table.markAll
    (table.idsWhere fun id row => row.reapSelect ts && taskId.all (· == id)) .failed ts

/-- `claim_job`: the table and the claimed id, or `None` after the reap. -/
def claimJob (table : JobTable) (leaseSeconds ts : ℕ) (taskId : Option String) :
    JobTable × Option String :=
  match table.firstClaimable ts taskId with
  | none => (table.reapExhausted ts taskId, none)
  | some (claimedId, row) =>
      let affected := (table.jobs.filter fun job => job.1 = claimedId).map fun job =>
        (job.2.claimUpdate row.attempt ts leaseSeconds).2
      (table.updateAt claimedId fun current =>
          (current.claimUpdate row.attempt ts leaseSeconds).1,
        if 0 < affected.sum then some claimedId else none)

/-- `run_job`: expire the whole table, claim the job that was handed over, execute
it. -/
def runJob (table : JobTable) (taskId : String) (ts leaseSeconds : ℕ)
    (execution : Execution) : JobTable :=
  let (swept, expired) := table.expireStale ts
  if taskId ∈ expired then swept
  else
    match swept.claimJob leaseSeconds ts (some taskId) with
    | (reaped, none) => reaped
    | (claimed, some _) =>
        claimed.updateAt taskId fun row => row.execute execution ts leaseSeconds

/-- One iteration of the `start` loop.  The peek and `run_job` read the clock
separately; an idle wait touches no row. -/
def iteration (table : JobTable) (peekNow runNow leaseSeconds : ℕ)
    (execution : Execution) : JobTable :=
  match table.peekClaimable peekNow with
  | none => table
  | some taskId => table.runJob taskId runNow leaseSeconds execution

/-! ## The store calls, row by row -/

@[simp] theorem update_jobs (table : JobTable) (change : String → JobRow → JobRow) :
    (table.update change).jobs
      = table.jobs.map fun job => (job.1, change job.1 job.2) := rfl

theorem eq_of_jobs {table other : JobTable} (same : table.jobs = other.jobs) :
    table = other := by
  cases table
  cases other
  simpa using same

theorem update_update (table : JobTable) (first second : String → JobRow → JobRow) :
    (table.update first).update second
      = table.update fun id row => second id (first id row) :=
  eq_of_jobs (by simp)

theorem update_congr {table : JobTable} {first second : String → JobRow → JobRow}
    (agree : ∀ job ∈ table.jobs, first job.1 job.2 = second job.1 job.2) :
    table.update first = table.update second := by
  apply eq_of_jobs
  apply List.map_congr_left
  intro job present
  rw [agree job present]

theorem update_self (table : JobTable) : table.update (fun _ row => row) = table :=
  eq_of_jobs (by simp)

theorem eq_of_id {table : JobTable} {job other : String × JobRow}
    (present : job ∈ table.jobs) (also : other ∈ table.jobs) (same : job.1 = other.1) :
    job = other :=
  List.inj_on_of_nodup_map table.unique present also same

theorem mem_idsWhere {table : JobTable} {condition : String → JobRow → Bool}
    {job : String × JobRow} (present : job ∈ table.jobs) :
    job.1 ∈ table.idsWhere condition ↔ condition job.1 job.2 = true := by
  constructor
  · intro listed
    obtain ⟨other, selected, same⟩ := List.mem_map.mp listed
    obtain ⟨also, holds⟩ := List.mem_filter.mp selected
    rwa [eq_of_id present also same.symm]
  · intro holds
    exact List.mem_map.mpr ⟨job, List.mem_filter.mpr ⟨present, holds⟩, rfl⟩

theorem markAll_eq_update (table : JobTable) (taskIds : List String)
    (status : RunStatus) (ts : ℕ) :
    table.markAll taskIds status ts
      = table.update fun id row =>
          if id ∈ taskIds then row.markTerminal status ts else row := by
  induction taskIds generalizing table with
  | nil => simp [markAll, update_self]
  | cons taskId rest ih =>
      have unfolded : table.markAll (taskId :: rest) status ts
          = (table.markTerminal taskId status ts).markAll rest status ts := rfl
      rw [unfolded, ih, markTerminal, updateAt, update_update]
      apply update_congr
      intro job _
      by_cases here : job.1 = taskId <;> by_cases later : job.1 ∈ rest <;>
        simp [here, later, JobRow.markTerminal]

theorem markAll_idsWhere (table : JobTable) (condition : String → JobRow → Bool)
    (status : RunStatus) (ts : ℕ) :
    table.markAll (table.idsWhere condition) status ts
      = table.update fun id row =>
          if condition id row then row.markTerminal status ts else row := by
  rw [markAll_eq_update]
  apply update_congr
  intro job present
  simp only [mem_idsWhere present]

theorem firstClaimable_eq_none {table : JobTable} {ts : ℕ} {taskId : Option String} :
    table.firstClaimable ts taskId = none ↔
      ∀ job ∈ table.jobs, job.2.claimable ts = true →
        taskId.all (· == job.1) = false := by
  simp [firstClaimable, List.argmin_eq_none, List.filter_eq_nil_iff]

theorem firstClaimable_mem {table : JobTable} {ts : ℕ} {taskId : Option String}
    {job : String × JobRow} (first : table.firstClaimable ts taskId = some job) :
    job ∈ table.jobs ∧ job.2.claimable ts = true ∧ taskId.all (· == job.1) = true := by
  have selected := List.argmin_mem first
  simpa using selected

theorem peekClaimable_eq_none {table : JobTable} {ts : ℕ} :
    table.peekClaimable ts = none ↔
      ∀ job ∈ table.jobs, job.2.claimable ts = false := by
  simp [peekClaimable, firstClaimable_eq_none]

theorem expireStale_fst (table : JobTable) (ts : ℕ) :
    (table.expireStale ts).1
      = table.update fun _ row =>
          if row.expireSelect ts then row.markTerminal .expired ts else row :=
  table.markAll_idsWhere _ _ ts

theorem expireStale_settled {table : JobTable} {ts : ℕ} {job : String × JobRow}
    (present : job ∈ (table.expireStale ts).1.jobs) : job.2.expireSelect ts = false := by
  rw [expireStale_fst, update_jobs] at present
  obtain ⟨before, _, rfl⟩ := List.mem_map.mp present
  cases stale : before.2.expireSelect ts with
  | true => simp [JobRow.expireSelect, JobRow.markTerminal, RunStatus.terminal]
  | false => simp [stale]

/-! ## What a round leaves behind -/

end JobTable

/-- A row the loop should have settled at time `ts`: active with its attempts
burned and its lease passed, or active past a nonzero deadline. -/
def JobRow.Overdue (row : JobRow) (ts : ℕ) : Prop :=
  row.status.active = true ∧
    (maxRecoveryAttempts ≤ row.attempt ∧ row.leaseUntil < ts
      ∨ row.expiresAt ≠ 0 ∧ row.expiresAt ≤ ts)

namespace JobRow

theorem overdue_iff (row : JobRow) (ts : ℕ) :
    row.Overdue ts ↔ row.reapSelect ts = true ∨ row.expireSelect ts = true := by
  simp only [Overdue, reapSelect, expireSelect, Bool.and_eq_true, decide_eq_true_eq]
  constructor
  · rintro ⟨active, ⟨burned, passed⟩ | ⟨deadline, past⟩⟩
    · exact .inl ⟨⟨active, passed⟩, burned⟩
    · exact .inr ⟨⟨active, Nat.pos_of_ne_zero deadline⟩, past⟩
  · rintro (⟨⟨active, passed⟩, burned⟩ | ⟨⟨active, deadline⟩, past⟩)
    · exact ⟨active, .inl ⟨burned, passed⟩⟩
    · exact ⟨active, .inr ⟨Nat.pos_iff_ne_zero.mp deadline, past⟩⟩

/-- A row a worker holds at time `ts`: the lease runs and the deadline, if any, is
still ahead. -/
def Held (row : JobRow) (ts : ℕ) : Prop :=
  ts ≤ row.leaseUntil ∧ (row.expiresAt = 0 ∨ ts < row.expiresAt)

theorem Held.not_overdue {row : JobRow} {ts : ℕ} (held : row.Held ts) :
    ¬ row.Overdue ts := by
  rintro ⟨_, ⟨_, passed⟩ | ⟨deadline, past⟩⟩
  · exact absurd passed (Nat.not_lt.mpr held.1)
  · rcases held.2 with none | ahead
    · exact deadline none
    · exact absurd past (Nat.not_le.mpr ahead)

theorem Held.renewLease {row : JobRow} {ts : ℕ} (held : row.Held ts)
    (elapsed leaseSeconds : ℕ) :
    (row.renewLease (ts + elapsed) leaseSeconds).Held ts := by
  unfold JobRow.renewLease
  split
  · exact held
  · rename_i lease _
    unfold renewUpdate
    split
    · exact ⟨Nat.le_trans (Nat.le_add_right ts elapsed) (Nat.le_add_right _ _), held.2⟩
    · exact held

/-- Nothing an execution does to the row it holds leaves it overdue: it stays held
until the terminal status is marked. -/
theorem Held.execute {row : JobRow} {ts : ℕ} (held : row.Held ts)
    (execution : Execution) (leaseSeconds : ℕ) :
    ¬ (row.execute execution ts leaseSeconds).Overdue ts := by
  have beaten : ∀ (heartbeats : List ℕ) (start : JobRow), start.Held ts →
      (heartbeats.foldl (fun row elapsed => row.renewLease (ts + elapsed) leaseSeconds)
        start).Held ts := by
    intro heartbeats
    induction heartbeats with
    | nil => exact fun _ startHeld => startHeld
    | cons elapsed rest ih =>
        exact fun start startHeld => ih _ (startHeld.renewLease elapsed leaseSeconds)
  unfold JobRow.execute
  cases ending : execution.ending with
  | none => exact (beaten _ row held).not_overdue
  | some status =>
      have terminal := execution.terminal status (by simp [ending])
      rintro ⟨active, _⟩
      simp [markTerminal, terminal] at active

theorem claimUpdate_held {row : JobRow} {ts : ℕ} (claimable : row.claimable ts = true)
    (leaseSeconds : ℕ) :
    ((row.claimUpdate row.attempt ts leaseSeconds).1).Held ts := by
  simp only [JobRow.claimable, Bool.and_eq_true, Bool.or_eq_true,
    decide_eq_true_eq] at claimable
  obtain ⟨⟨⟨_, passed⟩, deadline⟩, _⟩ := claimable
  rw [claimUpdate, if_pos ⟨rfl, passed⟩]
  exact ⟨Nat.le_add_right _ _, deadline⟩

end JobRow

namespace JobTable

/-- No row of the table is overdue. -/
def Settled (table : JobTable) (ts : ℕ) : Prop :=
  ∀ job ∈ table.jobs, ¬ job.2.Overdue ts

theorem updateAt_settled_iff {table : JobTable} {taskId : String} {ts : ℕ}
    {change : JobRow → JobRow}
    (before : ∀ job ∈ table.jobs, job.1 = taskId → ¬ job.2.Overdue ts)
    (after : ∀ job ∈ table.jobs, job.1 = taskId → ¬ (change job.2).Overdue ts) :
    (table.updateAt taskId change).Settled ts ↔ table.Settled ts := by
  unfold Settled updateAt
  rw [update_jobs, List.forall_mem_map]
  refine forall₂_congr fun job present => ?_
  by_cases here : job.1 = taskId
  · simp only [if_pos here]
    exact iff_of_true (after job present here) (before job present here)
  · simp only [if_neg here]

theorem expireStale_settled_iff (table : JobTable) (ts : ℕ) :
    (table.expireStale ts).1.Settled ts ↔
      ∀ job ∈ table.jobs, job.2.reapSelect ts = true →
        job.2.expireSelect ts = true := by
  unfold Settled
  rw [expireStale_fst, update_jobs, List.forall_mem_map]
  refine forall₂_congr fun job _ => ?_
  cases stale : job.2.expireSelect ts with
  | true => simp [JobRow.Overdue, JobRow.markTerminal, RunStatus.terminal]
  | false => simp [JobRow.overdue_iff, stale]

theorem expireStale_not_overdue {table : JobTable} {ts : ℕ} {taskId : String}
    (attemptsLeft : ∀ job ∈ table.jobs, job.1 = taskId →
      job.2.attempt < maxRecoveryAttempts) :
    ∀ job ∈ (table.expireStale ts).1.jobs, job.1 = taskId →
      job.2.reapSelect ts = false ∧ ¬ job.2.Overdue ts := by
  intro job present here
  have unexpired := expireStale_settled present
  rw [expireStale_fst, update_jobs] at present
  obtain ⟨before, wasPresent, rfl⟩ := List.mem_map.mp present
  have attempts := attemptsLeft before wasPresent here
  have kept : (if before.2.expireSelect ts then before.2.markTerminal .expired ts
      else before.2).attempt = before.2.attempt := by
    split <;> rfl
  have unreaped : (if before.2.expireSelect ts then before.2.markTerminal .expired ts
      else before.2).reapSelect ts = false := by
    simp only [JobRow.reapSelect, kept, Bool.and_eq_false_iff, decide_eq_false_iff_not]
    exact .inr (Nat.not_le.mpr attempts)
  refine ⟨unreaped, ?_⟩
  rw [JobRow.overdue_iff]
  simp only [unreaped, unexpired, Bool.false_eq_true, or_self, not_false_eq_true]

theorem reapExhausted_eq_self {table : JobTable} {ts : ℕ} {taskId : String}
    (unreaped : ∀ job ∈ table.jobs, job.1 = taskId → job.2.reapSelect ts = false) :
    table.reapExhausted ts (some taskId) = table := by
  unfold reapExhausted
  rw [markAll_idsWhere]
  refine (update_congr fun job present => ?_).trans table.update_self
  rw [if_neg]
  simp only [Option.all_some, Bool.and_eq_true, beq_iff_eq, not_and]
  intro selected here
  rw [unreaped job present here.symm] at selected
  exact Bool.false_ne_true selected

/-- **What `run_job` settles.**  Handed a job with attempts left, it leaves a table
without overdue rows exactly when every exhausted row was past its deadline too:
the reaping branch looks at the handed job alone, which needs none. -/
theorem runJob_settled_iff (table : JobTable) {taskId : String} (ts leaseSeconds : ℕ)
    (execution : Execution)
    (attemptsLeft : ∀ job ∈ table.jobs, job.1 = taskId →
      job.2.attempt < maxRecoveryAttempts) :
    (table.runJob taskId ts leaseSeconds execution).Settled ts ↔
      ∀ job ∈ table.jobs, job.2.reapSelect ts = true →
        job.2.expireSelect ts = true := by
  rw [← expireStale_settled_iff]
  have quiet := @expireStale_not_overdue _ ts _ attemptsLeft
  have before := fun job present here => (quiet job present here).2
  unfold runJob
  generalize table.expireStale ts = sweep at quiet before ⊢
  obtain ⟨swept, expired⟩ := sweep
  simp only at quiet before ⊢
  split
  · exact Iff.rfl
  · unfold claimJob
    cases first : swept.firstClaimable ts (some taskId) with
    | none =>
        have same := reapExhausted_eq_self fun job present here =>
          (quiet job present here).1
        simp only [same]
    | some claimed =>
        obtain ⟨claimedId, row⟩ := claimed
        obtain ⟨present, claimable, admitted⟩ := firstClaimable_mem first
        have handed : taskId = claimedId := by simpa using admitted
        subst handed
        have held : ∀ job ∈ swept.jobs, job.1 = taskId →
            ((job.2.claimUpdate row.attempt ts leaseSeconds).1).Held ts := by
          intro job also here
          rw [eq_of_id also present here]
          exact JobRow.claimUpdate_held claimable leaseSeconds
        have claimSettled :
            (swept.updateAt taskId fun current =>
              (current.claimUpdate row.attempt ts leaseSeconds).1).Settled ts
              ↔ swept.Settled ts :=
          updateAt_settled_iff before fun job also here =>
            (held job also here).not_overdue
        simp only
        split
        · rename_i missed
          rw [← (Prod.mk.inj missed).1]
          exact claimSettled
        · rename_i won
          rw [← (Prod.mk.inj won).1]
          refine (updateAt_settled_iff ?_ ?_).trans claimSettled
          all_goals
            intro job also here
            rw [updateAt, update_jobs] at also
            obtain ⟨old, wasPresent, rfl⟩ := List.mem_map.mp also
            simp only [if_pos (show old.1 = taskId from here)]
          · exact (held old wasPresent here).not_overdue
          · exact (held old wasPresent here).execute execution leaseSeconds

/-- **What one iteration of the loop settles.**  After it no overdue row is left
exactly when every exhausted row was past its deadline, and, had nothing been
claimable, no row was past its deadline at all. -/
theorem iteration_settles_iff (table : JobTable) (peekNow runNow leaseSeconds : ℕ)
    (execution : Execution) :
    (table.iteration peekNow runNow leaseSeconds execution).Settled runNow ↔
      (∀ job ∈ table.jobs, job.2.reapSelect runNow = true →
          job.2.expireSelect runNow = true) ∧
        ((∀ job ∈ table.jobs, job.2.claimable peekNow = false) →
          ∀ job ∈ table.jobs, job.2.expireSelect runNow = false) := by
  unfold iteration
  cases peeked : table.peekClaimable peekNow with
  | none =>
      have idle := peekClaimable_eq_none.mp peeked
      simp only [Settled, JobRow.overdue_iff, not_or, Bool.not_eq_true]
      constructor
      · intro settled
        refine ⟨fun job present selected => ?_, fun _ job present => ?_⟩
        · rw [(settled job present).1] at selected
          exact absurd selected Bool.false_ne_true
        · exact (settled job present).2
      · rintro ⟨exhausted, unexpired⟩ job present
        have ahead := unexpired idle job present
        refine ⟨?_, ahead⟩
        by_contra selected
        have stale := exhausted job present (by simpa using selected)
        rw [ahead] at stale
        exact Bool.false_ne_true stale
  | some taskId =>
      obtain ⟨job, first, here⟩ := Option.map_eq_some_iff.mp peeked
      obtain ⟨present, claimable, _⟩ := firstClaimable_mem first
      have busy : ¬ ∀ job ∈ table.jobs, job.2.claimable peekNow = false := by
        intro idle
        rw [idle job present] at claimable
        exact Bool.false_ne_true claimable
      have attemptsLeft : ∀ other ∈ table.jobs, other.1 = taskId →
          other.2.attempt < maxRecoveryAttempts := by
        intro other also same
        rw [eq_of_id also present (same.trans here.symm)]
        simp only [JobRow.claimable, Bool.and_eq_true, decide_eq_true_eq] at claimable
        exact claimable.2
      rw [runJob_settled_iff table runNow leaseSeconds execution attemptsLeft]
      simp only [busy, false_implies, and_true]

/-- One job whose second run died: both attempts are burned, the lease has passed,
there is no deadline, and nothing else is in the table. -/
def burnedTable : JobTable where
  jobs := [("resp_1",
    { status := .inProgress
      createdAt := 0
      updatedAt := 400
      leaseUntil := 700
      cancelRequested := false
      attempt := 2
      expiresAt := 0 })]
  unique := by decide

/-- An execution that runs to `completed` without a heartbeat. -/
def quietExecution : Execution where
  heartbeats := []
  ending := some .completed
  terminal := by decide

/-- The loop goes idle beside the exhausted job and never reaps it. -/
theorem burnedTable_not_settled :
    ¬ ∀ (table : JobTable) (now : ℕ) (execution : Execution),
      (table.iteration now now 300 execution).Settled now := by
  intro settles
  have same : burnedTable.iteration 1000 1000 300 quietExecution = burnedTable := rfl
  have settled := settles burnedTable 1000 quietExecution
  rw [same] at settled
  exact settled _ (List.mem_singleton.mpr rfl) ⟨rfl, .inl ⟨by decide, by decide⟩⟩

end JobTable

end Zhongzhuan.Store
