import Zhongzhuan.Kit.Batches
import Zhongzhuan.Kit.Schedule

/-!
# The retention sweep

The model of `run_full_retention` and `early_reclaim_if_needed` in `store/retention.py`, over the
nine tables they sweep with the columns they read.  Each table has its primary key; which rows a
batch picks is a parameter, and so is how long the loops may run.

* The statuses the sweep takes for terminal are fewer than `background_jobs` has, so a job that
  ended `incomplete` is kept for ever: `retentionLaw_iff`.
* A TTL of no days is disabled, and scaled to one day: `reclaimLaw_iff`.
* What a retention leaves does not depend on the ones before it: `retentions_concat`.
-/

namespace Zhongzhuan.Store.Retention

open Kit

/-! ## The tables -/

/-- A row of `responses`. -/
structure Response where
  responseId : String
  createdAt : ℤ
  expiresAt : ℤ
deriving DecidableEq, Repr

/-- A row of `response_input_items` or `response_output_items`, with its `seq` or its
`output_index`. -/
structure Item where
  responseId : String
  index : ℤ
deriving DecidableEq, Repr

/-- A row of `response_state_chain`. -/
structure StateChain where
  responseId : String
deriving DecidableEq, Repr

/-- A row of `response_events`. -/
structure Event where
  responseId : String
  seq : ℤ
  ts : ℤ
deriving DecidableEq, Repr

/-- A row of `tool_executions`. -/
structure ToolExecution where
  executionId : String
  createdAt : ℤ
deriving DecidableEq, Repr

/-- A row of `background_jobs`. -/
structure Job where
  taskId : String
  status : String
  createdAt : ℤ
  expiresAt : ℤ
deriving DecidableEq, Repr

/-- A row of `idempotency_records`. -/
structure IdempotencyRecord where
  workspaceId : String
  idempotencyKey : String
  expiresAt : ℤ
deriving DecidableEq, Repr

/-- A row of `request_logs`. -/
structure RequestLog where
  id : ℤ
  ts : ℤ
deriving DecidableEq, Repr

def Item.key (item : Item) : String × ℤ := (item.responseId, item.index)

def Event.key (event : Event) : String × ℤ := (event.responseId, event.seq)

def IdempotencyRecord.key (record : IdempotencyRecord) : String × String :=
  (record.workspaceId, record.idempotencyKey)

/-- The nine tables. -/
structure Db where
  responses : Keyed Response.responseId
  inputItems : Keyed Item.key
  outputItems : Keyed Item.key
  stateChain : Keyed StateChain.responseId
  events : Keyed Event.key
  toolExecutions : Keyed ToolExecution.executionId
  jobs : Keyed Job.taskId
  idempotency : Keyed IdempotencyRecord.key
  requestLogs : Keyed RequestLog.id

/-- Which rows the statements pick, by the kind of key. -/
structure Pickers where
  byText : Picker String
  byPlace : Picker (String × ℤ)
  byPair : Picker (String × String)
  byNumber : Picker ℤ

/-! ## The sweep -/

/-- `RetentionLimits`. -/
structure Limits where
  responsesDays : ℤ
  eventsDays : ℤ
  backgroundDays : ℤ
  toolAuditDays : ℤ
  idempotencyHours : ℤ
  requestLogsDays : ℤ
deriving DecidableEq, Repr

/-- `DEFAULT_RETENTION_LIMITS`. -/
def defaultLimits : Limits := ⟨30, 7, 30, 90, 24, 14⟩

/-- `_TERMINAL_BG_STATUSES`. -/
def terminalBgStatuses : List String := ["completed", "failed", "cancelled", "expired"]

/-- `background_jobs.TERMINAL_STATUSES`. -/
def terminalStatuses : List String :=
  ["completed", "failed", "incomplete", "cancelled", "expired"]

/-- `_DAY`. -/
def day : ℤ := 86400

/-- `_ttl_seconds`. -/
def ttlSeconds (days : ℤ) : ℤ := if 0 < days then days * day else 0

/-- `expires_at > 0 AND expires_at <= ?`. -/
def expired (now expiresAt : ℤ) : Bool := decide (0 < expiresAt ∧ expiresAt ≤ now)

/-- `(expires_at > 0 AND expires_at <= ?) OR created_at < ?`. -/
def overdue (now secs createdAt expiresAt : ℤ) : Bool :=
  expired now expiresAt || decide (createdAt < now - secs)

/-- `response_id NOT IN (SELECT response_id FROM responses)`. -/
def orphan (responses : Keyed Response.responseId) (responseId : String) : Bool :=
  decide (responseId ∉ responses.rows.map Response.responseId)

section Sweep

variable {ρ κ : Type} {key : ρ → κ} [DecidableEq κ]

/-- `_delete_batched`. -/
def purge (picker : Picker κ) (batchSize : ℕ+) (fuel : ℕ) (cond : ρ → Bool) (t : Keyed key) :
    Option (Keyed key × ℕ) :=
  Keyed.deleteBatched picker cond batchSize fuel t 0

/-- The same where the TTL of the table, in seconds, is not disabled. -/
def sweep (picker : Picker κ) (batchSize : ℕ+) (fuel : ℕ) (secs : ℤ) (cond : ρ → Bool)
    (t : Keyed key) : Option (Keyed key × ℕ) :=
  if secs ≠ 0 then purge picker batchSize fuel cond t else some (t, 0)

/-- What a purge leaves. -/
def purged (cond : ρ → Bool) (t : Keyed key) : Keyed key := t.keep fun row => !cond row

/-- What a sweep leaves. -/
def swept (secs : ℤ) (cond : ρ → Bool) (t : Keyed key) : Keyed key :=
  if secs ≠ 0 then purged cond t else t

/-- How many rows went. -/
def gone (t t' : Keyed key) : ℕ := t.rows.length - t'.rows.length

variable {picker : Picker κ} {batchSize : ℕ+} {fuel : ℕ} {secs : ℤ} {cond : ρ → Bool}
variable {t : Keyed key} {row : ρ}

theorem purge_eq (enough : t.rows.length < fuel) :
    purge picker batchSize fuel cond t = some (purged cond t, gone t (purged cond t)) := by
  have split : t.rows.length = t.rows.countP cond
      + t.rows.countP fun row => decide ¬ cond row = true :=
    List.length_eq_countP_add_countP _
  have rest : (purged cond t).rows.length = t.rows.countP fun row => decide ¬ cond row = true := by
    rw [purged, Keyed.keep, ← List.countP_eq_length_filter]
    exact List.countP_congr fun row _ => by simp
  rw [purge, Keyed.deleteBatched_eq batchSize.pos (lt_of_le_of_lt List.countP_le_length enough),
    Nat.zero_add, gone, rest]
  congr 2
  omega

theorem sweep_eq (enough : t.rows.length < fuel) :
    sweep picker batchSize fuel secs cond t
      = some (swept secs cond t, gone t (swept secs cond t)) := by
  unfold sweep swept
  split
  · exact purge_eq enough
  · rw [gone, Nat.sub_self]

omit [DecidableEq κ] in
theorem mem_purged : row ∈ (purged cond t).rows ↔ row ∈ t.rows ∧ cond row = false := by
  rw [purged, Keyed.mem_keep, Bool.not_eq_true']

omit [DecidableEq κ] in
theorem mem_swept :
    row ∈ (swept secs cond t).rows ↔ row ∈ t.rows ∧ (secs ≠ 0 → cond row = false) := by
  unfold swept
  split
  case isTrue enabled => rw [mem_purged]; simp [enabled]
  case isFalse disabled => simp [not_not.mp disabled]

end Sweep

variable (pickers : Pickers) (limits : Limits) (now : ℤ) (batchSize : ℕ+)

/-- `run_full_retention`; `none` is that the fuel did not last for one of the loops. -/
def runFullRetention (fuel : ℕ) (db : Db) : Option (Db × List (String × ℕ)) := do
  let respSecs := ttlSeconds limits.responsesDays
  let (responses, n₁) ← sweep pickers.byText batchSize fuel respSecs
    (fun r => overdue now respSecs r.createdAt r.expiresAt) db.responses
  let (inputItems, n₂) ← purge pickers.byPlace batchSize fuel
    (fun i => orphan responses i.responseId) db.inputItems
  let (outputItems, n₃) ← purge pickers.byPlace batchSize fuel
    (fun i => orphan responses i.responseId) db.outputItems
  let (stateChain, n₄) ← purge pickers.byText batchSize fuel
    (fun c => orphan responses c.responseId) db.stateChain
  let eventsSecs := ttlSeconds limits.eventsDays
  let (events, n₅) ← sweep pickers.byPlace batchSize fuel eventsSecs
    (fun e => decide (e.ts < now - eventsSecs)) db.events
  let toolSecs := ttlSeconds limits.toolAuditDays
  let (toolExecutions, n₆) ← sweep pickers.byText batchSize fuel toolSecs
    (fun t => decide (t.createdAt < now - toolSecs)) db.toolExecutions
  let bgSecs := ttlSeconds limits.backgroundDays
  let (jobs, n₇) ← sweep pickers.byText batchSize fuel bgSecs
    (fun j => decide (j.status ∈ terminalBgStatuses)
      && overdue now bgSecs j.createdAt j.expiresAt) db.jobs
  let (idempotency, n₈) ← purge pickers.byPair batchSize fuel
    (fun r => expired now r.expiresAt) db.idempotency
  let logSecs := ttlSeconds limits.requestLogsDays
  let (requestLogs, n₉) ← sweep pickers.byNumber batchSize fuel logSecs
    (fun l => decide (l.ts < now - logSecs)) db.requestLogs
  return (⟨responses, inputItems, outputItems, stateChain, events, toolExecutions, jobs,
      idempotency, requestLogs⟩,
    [("responses", n₁), ("response_input_items", n₂), ("response_output_items", n₃),
      ("response_state_chain", n₄), ("response_events", n₅), ("tool_executions", n₆),
      ("background_jobs", n₇), ("idempotency_records", n₈), ("request_logs", n₉)])

/-- What a full retention leaves. -/
def retained (db : Db) : Db :=
  let respSecs := ttlSeconds limits.responsesDays
  let responses := swept respSecs (fun r => overdue now respSecs r.createdAt r.expiresAt)
    db.responses
  let eventsSecs := ttlSeconds limits.eventsDays
  let toolSecs := ttlSeconds limits.toolAuditDays
  let bgSecs := ttlSeconds limits.backgroundDays
  let logSecs := ttlSeconds limits.requestLogsDays
  { responses
    inputItems := purged (fun i => orphan responses i.responseId) db.inputItems
    outputItems := purged (fun i => orphan responses i.responseId) db.outputItems
    stateChain := purged (fun c => orphan responses c.responseId) db.stateChain
    events := swept eventsSecs (fun e => decide (e.ts < now - eventsSecs)) db.events
    toolExecutions := swept toolSecs (fun t => decide (t.createdAt < now - toolSecs))
      db.toolExecutions
    jobs := swept bgSecs (fun j => decide (j.status ∈ terminalBgStatuses)
      && overdue now bgSecs j.createdAt j.expiresAt) db.jobs
    idempotency := purged (fun r => expired now r.expiresAt) db.idempotency
    requestLogs := swept logSecs (fun l => decide (l.ts < now - logSecs)) db.requestLogs }

/-- How many rows of each table went from one database to another. -/
def removed (db db' : Db) : List (String × ℕ) :=
  [("responses", gone db.responses db'.responses),
    ("response_input_items", gone db.inputItems db'.inputItems),
    ("response_output_items", gone db.outputItems db'.outputItems),
    ("response_state_chain", gone db.stateChain db'.stateChain),
    ("response_events", gone db.events db'.events),
    ("tool_executions", gone db.toolExecutions db'.toolExecutions),
    ("background_jobs", gone db.jobs db'.jobs),
    ("idempotency_records", gone db.idempotency db'.idempotency),
    ("request_logs", gone db.requestLogs db'.requestLogs)]

/-- More than the rows of any table. -/
def Db.size (db : Db) : ℕ :=
  db.responses.rows.length + db.inputItems.rows.length + db.outputItems.rows.length
    + db.stateChain.rows.length + db.events.rows.length + db.toolExecutions.rows.length
    + db.jobs.rows.length + db.idempotency.rows.length + db.requestLogs.rows.length + 1

theorem runFullRetention_eq {fuel : ℕ} {db : Db} (enough : db.size ≤ fuel) :
    runFullRetention pickers limits now batchSize fuel db
      = some (retained limits now db, removed db (retained limits now db)) := by
  unfold Db.size at enough
  simp (disch := omega) only [runFullRetention, sweep_eq, purge_eq, Option.bind_eq_bind,
    Option.bind_some]
  rfl

/-! ## What is kept -/

/-- The deadline, if there is one, has passed. -/
def Passed (expiresAt : ℤ) : Prop := 0 < expiresAt ∧ expiresAt ≤ now

/-- More than some days old. -/
def OlderThan (days created : ℤ) : Prop := created < now - days * day

/-- The rows that are kept are those the rules keep, and the counts are those of the others. -/
structure Rules (db db' : Db) (counts : List (String × ℕ)) : Prop where
  responses : ∀ r, r ∈ db'.responses.rows ↔ r ∈ db.responses.rows
    ∧ (0 < limits.responsesDays →
      ¬ Passed now r.expiresAt ∧ ¬ OlderThan now limits.responsesDays r.createdAt)
  inputItems : ∀ i, i ∈ db'.inputItems.rows ↔ i ∈ db.inputItems.rows
    ∧ ∃ r ∈ db'.responses.rows, r.responseId = i.responseId
  outputItems : ∀ i, i ∈ db'.outputItems.rows ↔ i ∈ db.outputItems.rows
    ∧ ∃ r ∈ db'.responses.rows, r.responseId = i.responseId
  stateChain : ∀ c, c ∈ db'.stateChain.rows ↔ c ∈ db.stateChain.rows
    ∧ ∃ r ∈ db'.responses.rows, r.responseId = c.responseId
  jobs : ∀ j, j ∈ db'.jobs.rows ↔ j ∈ db.jobs.rows
    ∧ (0 < limits.backgroundDays → j.status ∈ terminalStatuses →
      ¬ Passed now j.expiresAt ∧ ¬ OlderThan now limits.backgroundDays j.createdAt)
  events : ∀ e, e ∈ db'.events.rows ↔ e ∈ db.events.rows
    ∧ (0 < limits.eventsDays → ¬ OlderThan now limits.eventsDays e.ts)
  toolExecutions : ∀ t, t ∈ db'.toolExecutions.rows ↔ t ∈ db.toolExecutions.rows
    ∧ (0 < limits.toolAuditDays → ¬ OlderThan now limits.toolAuditDays t.createdAt)
  requestLogs : ∀ l, l ∈ db'.requestLogs.rows ↔ l ∈ db.requestLogs.rows
    ∧ (0 < limits.requestLogsDays → ¬ OlderThan now limits.requestLogsDays l.ts)
  idempotency : ∀ r, r ∈ db'.idempotency.rows ↔ r ∈ db.idempotency.rows
    ∧ ¬ Passed now r.expiresAt
  counts : counts = removed db db'

/-- The retention ends, whatever more fuel it has, and keeps the rows the rules keep. -/
def RetentionLaw (db : Db) : Prop :=
  ∃ bound db' counts, (∀ fuel, bound ≤ fuel →
    runFullRetention pickers limits now batchSize fuel db = some (db', counts))
      ∧ Rules limits now db db' counts

/-- No job that ended `incomplete` is due to go. -/
def NoneIncomplete (db : Db) : Prop :=
  0 < limits.backgroundDays → ∀ j ∈ db.jobs.rows, j.status = "incomplete" →
    ¬ Passed now j.expiresAt ∧ ¬ OlderThan now limits.backgroundDays j.createdAt

section Kept

variable {pickers limits now batchSize} {days created expiresAt : ℤ} {db : Db}

theorem ttlSeconds_ne_zero : ttlSeconds days ≠ 0 ↔ 0 < days := by
  unfold ttlSeconds day
  split <;> omega

theorem ttlSeconds_pos (positive : 0 < days) : ttlSeconds days = days * day := if_pos positive

theorem expired_eq_false : expired now expiresAt = false ↔ ¬ Passed now expiresAt :=
  decide_eq_false_iff_not

theorem not_overdue :
    (ttlSeconds days ≠ 0 → overdue now (ttlSeconds days) created expiresAt = false)
      ↔ (0 < days → ¬ Passed now expiresAt ∧ ¬ OlderThan now days created) := by
  rw [ttlSeconds_ne_zero]
  refine imp_congr_right fun positive => ?_
  rw [overdue, Bool.or_eq_false_iff, expired_eq_false, decide_eq_false_iff_not,
    ttlSeconds_pos positive, OlderThan]

theorem not_old :
    (ttlSeconds days ≠ 0 → decide (created < now - ttlSeconds days) = false)
      ↔ (0 < days → ¬ OlderThan now days created) := by
  rw [ttlSeconds_ne_zero]
  refine imp_congr_right fun positive => ?_
  rw [decide_eq_false_iff_not, ttlSeconds_pos positive, OlderThan]

theorem not_orphan {responses : Keyed Response.responseId} {responseId : String} :
    orphan responses responseId = false
      ↔ ∃ r ∈ responses.rows, r.responseId = responseId := by
  rw [orphan, decide_eq_false_iff_not, not_not, List.mem_map]

theorem mem_retained_responses {r : Response} :
    r ∈ (retained limits now db).responses.rows ↔ r ∈ db.responses.rows
      ∧ (0 < limits.responsesDays →
        ¬ Passed now r.expiresAt ∧ ¬ OlderThan now limits.responsesDays r.createdAt) :=
  mem_swept.trans (and_congr_right' not_overdue)

theorem mem_retained_inputItems {i : Item} :
    i ∈ (retained limits now db).inputItems.rows ↔ i ∈ db.inputItems.rows
      ∧ ∃ r ∈ (retained limits now db).responses.rows, r.responseId = i.responseId :=
  mem_purged.trans (and_congr_right' not_orphan)

theorem mem_retained_outputItems {i : Item} :
    i ∈ (retained limits now db).outputItems.rows ↔ i ∈ db.outputItems.rows
      ∧ ∃ r ∈ (retained limits now db).responses.rows, r.responseId = i.responseId :=
  mem_purged.trans (and_congr_right' not_orphan)

theorem mem_retained_stateChain {c : StateChain} :
    c ∈ (retained limits now db).stateChain.rows ↔ c ∈ db.stateChain.rows
      ∧ ∃ r ∈ (retained limits now db).responses.rows, r.responseId = c.responseId :=
  mem_purged.trans (and_congr_right' not_orphan)

theorem mem_retained_events {e : Event} :
    e ∈ (retained limits now db).events.rows ↔ e ∈ db.events.rows
      ∧ (0 < limits.eventsDays → ¬ OlderThan now limits.eventsDays e.ts) :=
  mem_swept.trans (and_congr_right' not_old)

theorem mem_retained_toolExecutions {t : ToolExecution} :
    t ∈ (retained limits now db).toolExecutions.rows ↔ t ∈ db.toolExecutions.rows
      ∧ (0 < limits.toolAuditDays → ¬ OlderThan now limits.toolAuditDays t.createdAt) :=
  mem_swept.trans (and_congr_right' not_old)

theorem mem_retained_requestLogs {l : RequestLog} :
    l ∈ (retained limits now db).requestLogs.rows ↔ l ∈ db.requestLogs.rows
      ∧ (0 < limits.requestLogsDays → ¬ OlderThan now limits.requestLogsDays l.ts) :=
  mem_swept.trans (and_congr_right' not_old)

theorem mem_retained_idempotency {r : IdempotencyRecord} :
    r ∈ (retained limits now db).idempotency.rows ↔ r ∈ db.idempotency.rows
      ∧ ¬ Passed now r.expiresAt :=
  mem_purged.trans (and_congr_right' expired_eq_false)

theorem mem_retained_jobs {j : Job} :
    j ∈ (retained limits now db).jobs.rows ↔ j ∈ db.jobs.rows
      ∧ (0 < limits.backgroundDays → j.status ∈ terminalBgStatuses →
        ¬ Passed now j.expiresAt ∧ ¬ OlderThan now limits.backgroundDays j.createdAt) := by
  refine mem_swept.trans (and_congr_right' ?_)
  by_cases terminal : j.status ∈ terminalBgStatuses
  · simp only [terminal, decide_true, Bool.true_and, true_imp_iff]
    exact not_overdue
  · simp [terminal]

theorem mem_terminalStatuses {status : String} :
    status ∈ terminalStatuses ↔ status ∈ terminalBgStatuses ∨ status = "incomplete" := by
  simp only [terminalStatuses, terminalBgStatuses, List.mem_cons, List.not_mem_nil]
  tauto

/-- **The sweep keeps just the rows the rules keep just when no job that ended `incomplete` is due
to go.** -/
theorem retentionLaw_iff :
    RetentionLaw pickers limits now batchSize db ↔ NoneIncomplete limits now db := by
  constructor
  · rintro ⟨bound, db', counts, ends, rules⟩ enabled j mem incomplete
    have result := ends (max bound db.size) (le_max_left ..)
    rw [runFullRetention_eq _ _ _ _ (le_max_right ..)] at result
    obtain ⟨rfl, rfl⟩ := Prod.mk.inj (Option.some.inj result)
    have kept : j ∈ (retained limits now db).jobs.rows := by
      refine mem_retained_jobs.mpr ⟨mem, fun _ terminal => ?_⟩
      rw [incomplete] at terminal
      exact absurd terminal (by decide)
    exact ((rules.jobs j).mp kept).2 enabled (mem_terminalStatuses.mpr (.inr incomplete))
  · intro none
    refine ⟨db.size, _, _, fun fuel enough => runFullRetention_eq _ _ _ _ enough, ?_⟩
    constructor
    case responses => exact fun r => mem_retained_responses
    case inputItems => exact fun i => mem_retained_inputItems
    case outputItems => exact fun i => mem_retained_outputItems
    case stateChain => exact fun c => mem_retained_stateChain
    case events => exact fun e => mem_retained_events
    case toolExecutions => exact fun t => mem_retained_toolExecutions
    case requestLogs => exact fun l => mem_retained_requestLogs
    case idempotency => exact fun r => mem_retained_idempotency
    case counts => rfl
    case jobs =>
      intro j
      rw [mem_retained_jobs]
      refine and_congr_right fun mem => imp_congr_right fun enabled => ?_
      rw [mem_terminalStatuses]
      exact ⟨fun kept => Or.rec kept (none enabled j mem), fun kept h => kept (.inl h)⟩

end Kept

/-- A table without rows. -/
def noRows {ρ κ : Type} (key : ρ → κ) : Keyed key := ⟨[], List.nodup_nil⟩

/-- A database without rows. -/
def emptyDb : Db where
  responses := noRows _
  inputItems := noRows _
  outputItems := noRows _
  stateChain := noRows _
  events := noRows _
  toolExecutions := noRows _
  jobs := noRows _
  idempotency := noRows _
  requestLogs := noRows _

/-- A job that ended `incomplete` in 1970. -/
def oldIncomplete : Db :=
  { emptyDb with jobs := ⟨[⟨"resp_1", "incomplete", 0, 1⟩], List.nodup_singleton _⟩ }

/-- The statements pick the first rows. -/
def firstRows : Pickers := ⟨.first _, .first _, .first _, .first _⟩

/-- It is kept for ever. -/
theorem oldIncomplete_kept :
    ¬ RetentionLaw firstRows defaultLimits 10000000 5000 oldIncomplete := by
  rintro ⟨bound, db', counts, ends, rules⟩
  have result := ends (max bound oldIncomplete.size) (le_max_left ..)
  rw [runFullRetention_eq _ _ _ _ (le_max_right ..)] at result
  obtain ⟨rfl, rfl⟩ := Prod.mk.inj (Option.some.inj result)
  have mem : (⟨"resp_1", "incomplete", 0, 1⟩ : Job)
      ∈ (retained defaultLimits 10000000 oldIncomplete).jobs.rows := by decide +kernel
  exact (((rules.jobs _).mp mem).2 (by decide) (by decide)).1 ⟨by decide, by decide⟩

/-! ## Early reclamation -/

/-- `int(q)`. -/
def truncate (q : ℚ) : ℤ := if 0 ≤ q then ⌊q⌋ else ⌈q⌉

/-- One TTL of `scale_limits`. -/
def scaled (factor : ℚ) (days : ℤ) : ℤ := max 1 (truncate (days * factor))

/-- `scale_limits`. -/
def scaleLimits (limits : Limits) (factor : ℚ) : Limits where
  responsesDays := scaled factor limits.responsesDays
  eventsDays := scaled factor limits.eventsDays
  backgroundDays := scaled factor limits.backgroundDays
  toolAuditDays := scaled factor limits.toolAuditDays
  idempotencyHours := scaled factor limits.idempotencyHours
  requestLogsDays := scaled factor limits.requestLogsDays

/-- `check_disk_watermark`: what is used, in terms of the limit. -/
def checkDiskWatermark (used : ℕ) (softLimit : ℤ) : ℚ :=
  if softLimit ≤ 0 then 0 else used / softLimit

/-- `early_reclaim_if_needed`. -/
def earlyReclaimIfNeeded (pickers : Pickers) (limits : Limits) (softLimit : ℤ) (used : ℕ)
    (now : ℤ) (batchSize : ℕ+) (fuel : ℕ) (db : Db) : Option (Db × List (String × ℕ)) :=
  if checkDiskWatermark used softLimit ≤ 1 then some (db, [])
  else
    runFullRetention pickers (scaleLimits limits (1 / checkDiskWatermark used softLimit)) now
      batchSize fuel db

/-- One database has no row that the other has not. -/
structure Within (db db' : Db) : Prop where
  responses : db.responses.rows ⊆ db'.responses.rows
  inputItems : db.inputItems.rows ⊆ db'.inputItems.rows
  outputItems : db.outputItems.rows ⊆ db'.outputItems.rows
  stateChain : db.stateChain.rows ⊆ db'.stateChain.rows
  events : db.events.rows ⊆ db'.events.rows
  toolExecutions : db.toolExecutions.rows ⊆ db'.toolExecutions.rows
  jobs : db.jobs.rows ⊆ db'.jobs.rows
  idempotency : db.idempotency.rows ⊆ db'.idempotency.rows
  requestLogs : db.requestLogs.rows ⊆ db'.requestLogs.rows

/-- The tables whose TTL is disabled keep in `db'` what they have in `db`. -/
structure DisabledKept (limits : Limits) (db db' : Db) : Prop where
  responses : limits.responsesDays ≤ 0 → db.responses.rows ⊆ db'.responses.rows
    ∧ db.inputItems.rows ⊆ db'.inputItems.rows ∧ db.outputItems.rows ⊆ db'.outputItems.rows
    ∧ db.stateChain.rows ⊆ db'.stateChain.rows
  events : limits.eventsDays ≤ 0 → db.events.rows ⊆ db'.events.rows
  toolExecutions : limits.toolAuditDays ≤ 0 → db.toolExecutions.rows ⊆ db'.toolExecutions.rows
  jobs : limits.backgroundDays ≤ 0 → db.jobs.rows ⊆ db'.jobs.rows
  requestLogs : limits.requestLogsDays ≤ 0 → db.requestLogs.rows ⊆ db'.requestLogs.rows

/-- Nothing in a table whose TTL is disabled is due under a TTL of one day. -/
structure NothingDue (limits : Limits) (now : ℤ) (db : Db) : Prop where
  responses : limits.responsesDays ≤ 0 → ∀ r ∈ db.responses.rows,
    ¬ Passed now r.expiresAt ∧ ¬ OlderThan now 1 r.createdAt
  events : limits.eventsDays ≤ 0 → ∀ e ∈ db.events.rows, ¬ OlderThan now 1 e.ts
  toolExecutions : limits.toolAuditDays ≤ 0 → ∀ t ∈ db.toolExecutions.rows,
    ¬ OlderThan now 1 t.createdAt
  jobs : limits.backgroundDays ≤ 0 → ∀ j ∈ db.jobs.rows, j.status ∈ terminalBgStatuses →
    ¬ Passed now j.expiresAt ∧ ¬ OlderThan now 1 j.createdAt
  requestLogs : limits.requestLogsDays ≤ 0 → ∀ l ∈ db.requestLogs.rows, ¬ OlderThan now 1 l.ts

section Reclaim

variable {limits : Limits} {now days created : ℤ} {factor : ℚ} {db : Db}

theorem scaled_spec (positive : 0 < factor) (small : factor < 1) :
    0 < scaled factor days ∧ (0 < days → scaled factor days ≤ days)
      ∧ (days ≤ 0 → scaled factor days = 1) := by
  refine ⟨lt_of_lt_of_le Int.zero_lt_one (le_max_left ..), fun enabled => ?_, fun disabled => ?_⟩
  · have days' : (0 : ℚ) < days := Int.cast_pos.mpr enabled
    have nonneg : 0 ≤ days * factor := (mul_pos days' positive).le
    have shorter : (days : ℚ) * factor ≤ days := mul_le_of_le_one_right days'.le small.le
    refine max_le enabled ?_
    rw [truncate, if_pos nonneg]
    exact Int.cast_le.mp ((Int.floor_le (_ : ℚ)).trans shorter)
  · have nonpos : (days : ℚ) * factor ≤ 0 :=
      mul_nonpos_of_nonpos_of_nonneg (Int.cast_nonpos.mpr disabled) positive.le
    have none : truncate (days * factor) ≤ 0 := by
      unfold truncate
      split
      · exact Int.floor_nonpos nonpos
      · exact Int.ceil_le.mpr (by simpa using nonpos)
    exact max_eq_left (none.trans zero_le_one)

theorem OlderThan.mono {days' : ℤ} (older : OlderThan now days created) (shorter : days' ≤ days) :
    OlderThan now days' created := by
  unfold OlderThan day at *
  omega

theorem scaled_keeps (positive : 0 < factor) (small : factor < 1)
    (kept : 0 < scaled factor days → ¬ OlderThan now (scaled factor days) created) :
    0 < days → ¬ OlderThan now days created := fun enabled older =>
  kept (scaled_spec positive small).1 (older.mono ((scaled_spec positive small).2.1 enabled))

theorem scaled_disabled (positive : 0 < factor) (small : factor < 1) (disabled : days ≤ 0) :
    (0 < scaled factor days → ¬ OlderThan now (scaled factor days) created)
      ↔ ¬ OlderThan now 1 created := by
  rw [(scaled_spec positive small).2.2 disabled]
  simp

theorem retained_scaled_within (positive : 0 < factor) (small : factor < 1) :
    Within (retained (scaleLimits limits factor) now db) (retained limits now db) := by
  have responses : (retained (scaleLimits limits factor) now db).responses.rows
      ⊆ (retained limits now db).responses.rows := by
    intro r mem
    obtain ⟨inside, kept⟩ := mem_retained_responses.mp mem
    refine mem_retained_responses.mpr ⟨inside, fun enabled => ?_⟩
    have here := kept (scaled_spec positive small).1
    exact ⟨here.1, scaled_keeps positive small (fun _ => here.2) enabled⟩
  have parent : ∀ {responseId : String},
      (∃ r ∈ (retained (scaleLimits limits factor) now db).responses.rows,
        r.responseId = responseId) →
      ∃ r ∈ (retained limits now db).responses.rows, r.responseId = responseId := by
    rintro responseId ⟨r, mem, same⟩
    exact ⟨r, responses mem, same⟩
  refine ⟨responses, ?_, ?_, ?_, ?_, ?_, ?_, fun r mem => mem, ?_⟩
  · exact fun i mem => mem_retained_inputItems.mpr
      ((mem_retained_inputItems.mp mem).imp_right parent)
  · exact fun i mem => mem_retained_outputItems.mpr
      ((mem_retained_outputItems.mp mem).imp_right parent)
  · exact fun c mem => mem_retained_stateChain.mpr
      ((mem_retained_stateChain.mp mem).imp_right parent)
  · exact fun e mem => mem_retained_events.mpr
      ((mem_retained_events.mp mem).imp_right (scaled_keeps positive small))
  · exact fun t mem => mem_retained_toolExecutions.mpr
      ((mem_retained_toolExecutions.mp mem).imp_right (scaled_keeps positive small))
  · intro j mem
    obtain ⟨inside, kept⟩ := mem_retained_jobs.mp mem
    refine mem_retained_jobs.mpr ⟨inside, fun enabled terminal => ?_⟩
    have here := kept (scaled_spec positive small).1 terminal
    exact ⟨here.1, scaled_keeps positive small (fun _ => here.2) enabled⟩
  · exact fun l mem => mem_retained_requestLogs.mpr
      ((mem_retained_requestLogs.mp mem).imp_right (scaled_keeps positive small))

/-- **The tables whose TTL is disabled are spared just when nothing in them is due under a TTL of
one day.** -/
theorem disabledKept_iff (positive : 0 < factor) (small : factor < 1) :
    DisabledKept limits (retained limits now db) (retained (scaleLimits limits factor) now db)
      ↔ NothingDue limits now db := by
  -- under a disabled TTL a full retention keeps the whole table
  have off : ∀ {days : ℤ}, days ≤ 0 → ∀ {P : Prop}, 0 < days → P :=
    fun disabled _ enabled => absurd enabled (not_lt.mpr disabled)
  have aged : ∀ {days created : ℤ}, days ≤ 0 →
      ((0 < scaled factor days → ¬ OlderThan now (scaled factor days) created)
        ↔ ¬ OlderThan now 1 created) := scaled_disabled positive small
  have dated : ∀ {days created expiresAt : ℤ}, days ≤ 0 →
      ((0 < scaled factor days →
          ¬ Passed now expiresAt ∧ ¬ OlderThan now (scaled factor days) created)
        ↔ ¬ Passed now expiresAt ∧ ¬ OlderThan now 1 created) := by
    intro days created expiresAt disabled
    rw [(scaled_spec positive small).2.2 disabled]
    simp
  constructor
  · intro kept
    constructor
    case responses =>
      intro disabled r mem
      have here := (kept.responses disabled).1 (mem_retained_responses.mpr ⟨mem, off disabled⟩)
      exact (dated disabled).mp (mem_retained_responses.mp here).2
    case events =>
      intro disabled e mem
      have here := kept.events disabled (mem_retained_events.mpr ⟨mem, off disabled⟩)
      exact (aged disabled).mp (mem_retained_events.mp here).2
    case toolExecutions =>
      intro disabled t mem
      have here := kept.toolExecutions disabled
        (mem_retained_toolExecutions.mpr ⟨mem, off disabled⟩)
      exact (aged disabled).mp (mem_retained_toolExecutions.mp here).2
    case jobs =>
      intro disabled j mem terminal
      have here := kept.jobs disabled (mem_retained_jobs.mpr ⟨mem, off disabled⟩)
      exact (dated disabled).mp fun enabled => (mem_retained_jobs.mp here).2 enabled terminal
    case requestLogs =>
      intro disabled l mem
      have here := kept.requestLogs disabled (mem_retained_requestLogs.mpr ⟨mem, off disabled⟩)
      exact (aged disabled).mp (mem_retained_requestLogs.mp here).2
  · intro nothing
    constructor
    case responses =>
      intro disabled
      have responses : (retained limits now db).responses.rows
          ⊆ (retained (scaleLimits limits factor) now db).responses.rows := by
        intro r mem
        have inside := (mem_retained_responses.mp mem).1
        exact mem_retained_responses.mpr
          ⟨inside, (dated disabled).mpr (nothing.responses disabled r inside)⟩
      have parent : ∀ {responseId : String},
          (∃ r ∈ (retained limits now db).responses.rows, r.responseId = responseId) →
          ∃ r ∈ (retained (scaleLimits limits factor) now db).responses.rows,
            r.responseId = responseId := by
        rintro responseId ⟨r, mem, same⟩
        exact ⟨r, responses mem, same⟩
      refine ⟨responses, ?_, ?_, ?_⟩
      · exact fun i mem => mem_retained_inputItems.mpr
          ((mem_retained_inputItems.mp mem).imp_right parent)
      · exact fun i mem => mem_retained_outputItems.mpr
          ((mem_retained_outputItems.mp mem).imp_right parent)
      · exact fun c mem => mem_retained_stateChain.mpr
          ((mem_retained_stateChain.mp mem).imp_right parent)
    case events =>
      intro disabled e mem
      have inside := (mem_retained_events.mp mem).1
      exact mem_retained_events.mpr
        ⟨inside, (aged disabled).mpr (nothing.events disabled e inside)⟩
    case toolExecutions =>
      intro disabled t mem
      have inside := (mem_retained_toolExecutions.mp mem).1
      exact mem_retained_toolExecutions.mpr
        ⟨inside, (aged disabled).mpr (nothing.toolExecutions disabled t inside)⟩
    case jobs =>
      intro disabled j mem
      have inside := (mem_retained_jobs.mp mem).1
      exact mem_retained_jobs.mpr ⟨inside, fun enabled terminal =>
        (dated disabled).mpr (nothing.jobs disabled j inside terminal) enabled⟩
    case requestLogs =>
      intro disabled l mem
      have inside := (mem_retained_requestLogs.mp mem).1
      exact mem_retained_requestLogs.mpr
        ⟨inside, (aged disabled).mpr (nothing.requestLogs disabled l inside)⟩

end Reclaim

/-! ## Rounds -/

/-- A round of early reclamation, or anything else that becomes of the database. -/
inductive Upkeep
  | reclaim (now : ℤ) (used : ℕ)
  | write (db : Db)

section Rounds

variable (pickers : Pickers) (limits : Limits) (softLimit : ℤ) (batchSize : ℕ+)

/-- One of them; the loops of a round have the fuel they need. -/
def upkeep (db : Db) : Upkeep → Db
  | .reclaim now used =>
    ((earlyReclaimIfNeeded pickers limits softLimit used now batchSize db.size db).map
      Prod.fst).getD db
  | .write db' => db'

/-- A round above the soft limit ends, deletes all that a full retention with the limits as they
are would delete, and in the tables whose TTL is disabled deletes nothing that this would keep. -/
def Spares (db : Db) (a : Upkeep) : Prop :=
  ∀ now used, a = .reclaim now used → 1 < checkDiskWatermark used softLimit →
    ∃ bound early earlyCounts full fullCounts, (∀ fuel, bound ≤ fuel →
        earlyReclaimIfNeeded pickers limits softLimit used now batchSize fuel db
            = some (early, earlyCounts)
          ∧ runFullRetention pickers limits now batchSize fuel db = some (full, fullCounts))
      ∧ Within early full ∧ DisabledKept limits full early

/-- A round above the soft limit finds nothing due in the tables whose TTL is disabled. -/
def FindsNothingDue (db : Db) (a : Upkeep) : Prop :=
  ∀ now used, a = .reclaim now used → 1 < checkDiskWatermark used softLimit →
    NothingDue limits now db

variable {pickers limits softLimit batchSize}

theorem spares_iff {db : Db} {a : Upkeep} :
    Spares pickers limits softLimit batchSize db a ↔ FindsNothingDue limits softLimit db a := by
  refine forall₄_congr fun now used _ full => ?_
  have factor : 0 < 1 / checkDiskWatermark used softLimit
      ∧ 1 / checkDiskWatermark used softLimit < 1 :=
    ⟨one_div_pos.mpr (zero_lt_one.trans full), (div_lt_one (zero_lt_one.trans full)).mpr full⟩
  have early : ∀ fuel, db.size ≤ fuel →
      earlyReclaimIfNeeded pickers limits softLimit used now batchSize fuel db
        = some (retained (scaleLimits limits (1 / checkDiskWatermark used softLimit)) now db,
          removed db
            (retained (scaleLimits limits (1 / checkDiskWatermark used softLimit)) now db)) := by
    intro fuel enough
    rw [earlyReclaimIfNeeded, if_neg (not_le.mpr full), runFullRetention_eq _ _ _ _ enough]
  rw [← disabledKept_iff factor.1 factor.2]
  constructor
  · rintro ⟨bound, db', counts, db'', counts', ends, -, kept⟩
    obtain ⟨first, second⟩ := ends (max bound db.size) (le_max_left ..)
    rw [early _ (le_max_right ..)] at first
    rw [runFullRetention_eq _ _ _ _ (le_max_right ..)] at second
    obtain ⟨rfl, rfl⟩ := Prod.mk.inj (Option.some.inj first)
    obtain ⟨rfl, rfl⟩ := Prod.mk.inj (Option.some.inj second)
    exact kept
  · intro kept
    exact ⟨db.size, _, _, _, _, fun fuel enough =>
      ⟨early fuel enough, runFullRetention_eq _ _ _ _ enough⟩,
      retained_scaled_within factor.1 factor.2, kept⟩

/-- **Early reclamation spares the tables whose TTL is disabled, throughout a sequence of rounds,
just when each of them finds nothing there that is due under a TTL of one day.** -/
theorem reclaimLaw_iff (db : Db) (rounds : List Upkeep) :
    Along (upkeep pickers limits softLimit batchSize)
        (Spares pickers limits softLimit batchSize) db rounds
      ↔ Along (upkeep pickers limits softLimit batchSize)
        (FindsNothingDue limits softLimit) db rounds :=
  along_congr (fun _ => True) (fun _ _ _ => trivial) (fun _ _ _ => spares_iff) trivial rounds

end Rounds

/-- Logs are kept for ever. -/
def keepLogs : Limits := { defaultLimits with requestLogsDays := 0 }

/-- One log of 1970. -/
def oldLog : Db :=
  { emptyDb with requestLogs := ⟨[⟨1, 0⟩], List.nodup_singleton _⟩ }

/-- Twice the soft limit is used. -/
theorem oldLog_reclaimed :
    ¬ Along (upkeep firstRows keepLogs 10 5000) (Spares firstRows keepLogs 10 5000) oldLog
      [.reclaim 10000000 20] := by
  intro along
  have nothing := (spares_iff.mp along.1) 10000000 20 rfl (by decide +kernel)
  exact nothing.requestLogs (by decide) ⟨1, 0⟩ List.mem_cons_self
    (show (0 : ℤ) < 10000000 - 1 * 86400 by decide)

/-! ## Retentions one after the other -/

section Repeat

variable {limits : Limits} {now later created expiresAt secs : ℤ} {db : Db}

theorem overdue_later (le : now ≤ later) (due : overdue now secs created expiresAt = true) :
    overdue later secs created expiresAt = true := by
  simp only [overdue, expired, Bool.or_eq_true, decide_eq_true_eq] at due ⊢
  omega

theorem purged_purged {ρ κ : Type} {key : ρ → κ} {cond cond' : ρ → Bool} {t : Keyed key}
    (also_ : ∀ row ∈ t.rows, cond row = true → cond' row = true) :
    purged cond' (purged cond t) = purged cond' t := by
  unfold purged
  rw [Keyed.keep_keep]
  refine Keyed.keep_congr fun row mem => ?_
  cases goes : cond row with
  | false => rfl
  | true => rw [also_ row mem goes]; rfl

theorem swept_swept {ρ κ : Type} {key : ρ → κ} {cond cond' : ρ → Bool} {t : Keyed key}
    (also_ : ∀ row ∈ t.rows, cond row = true → cond' row = true) :
    swept secs cond' (swept secs cond t) = swept secs cond' t := by
  unfold swept
  split
  · exact purged_purged also_
  · rfl

theorem retained_retained (le : now ≤ later) :
    retained limits later (retained limits now db) = retained limits later db := by
  have responses : (retained limits later (retained limits now db)).responses
      = (retained limits later db).responses := swept_swept fun _ _ => overdue_later le
  have fewer : ∀ r ∈ (retained limits later db).responses.rows,
      r ∈ (retained limits now db).responses.rows := by
    intro r mem
    rw [← responses] at mem
    exact (mem_retained_responses.mp mem).1
  have orphans : ∀ {responseId : String},
      orphan (retained limits now db).responses responseId = true →
        orphan (retained limits later db).responses responseId = true := by
    intro responseId alone
    rw [← Bool.not_eq_false, not_orphan] at alone ⊢
    exact fun ⟨r, mem, same⟩ => alone ⟨r, fewer r mem, same⟩
  have aged : ∀ {secs created : ℤ}, decide (created < now - secs) = true →
      decide (created < later - secs) = true := by
    intro secs created old
    rw [decide_eq_true_eq] at old ⊢
    omega
  unfold retained at responses orphans ⊢
  dsimp only at responses orphans ⊢
  rw [responses]
  congr 1
  · exact purged_purged fun _ _ => orphans
  · exact purged_purged fun _ _ => orphans
  · exact purged_purged fun _ _ => orphans
  · exact swept_swept fun _ _ => aged
  · exact swept_swept fun _ _ => aged
  · refine swept_swept fun j _ due => ?_
    rw [Bool.and_eq_true] at due ⊢
    exact due.imp_right (overdue_later le)
  · refine purged_purged fun r _ past => ?_
    simp only [expired, decide_eq_true_eq] at past ⊢
    omega
  · exact swept_swept fun _ _ => aged

theorem size_retained_le : (retained limits now db).size ≤ db.size := by
  have purge {ρ κ : Type} {key : ρ → κ} (cond : ρ → Bool) (t : Keyed key) :
      (purged cond t).rows.length ≤ t.rows.length := List.length_filter_le _ _
  have sweep {ρ κ : Type} {key : ρ → κ} (secs : ℤ) (cond : ρ → Bool) (t : Keyed key) :
      (swept secs cond t).rows.length ≤ t.rows.length := by
    unfold swept
    split
    · exact purge cond t
    · exact Nat.le_refl _
  unfold Db.size retained
  dsimp only
  gcongr
  all_goals first | exact purge _ _ | exact sweep _ _ _

end Repeat

/-- One full retention: when it runs, which rows it picks, and in what batches. -/
structure Round where
  pickers : Pickers
  now : ℤ
  batchSize : ℕ+

/-- What full retentions leave, one after the other. -/
def retentions (limits : Limits) (fuel : ℕ) : List Round → Db → Option Db
  | [], db => some db
  | r :: rest, db => do
    let (db', _) ← runFullRetention r.pickers limits r.now r.batchSize fuel db
    retentions limits fuel rest db'

theorem retentions_eq {limits : Limits} {fuel : ℕ} (rounds : List Round) {db : Db}
    (enough : db.size ≤ fuel) :
    retentions limits fuel rounds db
      = some (rounds.foldl (fun db r => retained limits r.now db) db) := by
  induction rounds generalizing db with
  | nil => rfl
  | cons r rest ih =>
    rw [retentions, runFullRetention_eq _ _ _ _ enough]
    exact ih (size_retained_le.trans enough)

/-- **A retention leaves what it would have left alone**, however many went before it, with
whatever picks and batches. -/
theorem retentions_concat {limits : Limits} {fuel : ℕ} {rounds : List Round} {last : Round}
    {db : Db} (before : ∀ r ∈ rounds, r.now ≤ last.now) (enough : db.size ≤ fuel) :
    retentions limits fuel (rounds ++ [last]) db = retentions limits fuel [last] db := by
  rw [retentions_eq _ enough, retentions_eq _ enough, List.foldl_append]
  congr 1
  show retained limits last.now (rounds.foldl _ db) = retained limits last.now db
  clear enough
  induction rounds generalizing db with
  | nil => rfl
  | cons r rest ih =>
    obtain ⟨le, before⟩ := List.forall_mem_cons.mp before
    rw [List.foldl_cons, ih before, retained_retained le]

theorem retentions_concat_twice :
    retentions defaultLimits 9 [⟨firstRows, 5000, 1⟩, ⟨firstRows, 10000000, 100⟩] oldIncomplete
      = retentions defaultLimits 9 [⟨firstRows, 10000000, 100⟩] oldIncomplete :=
  @retentions_concat defaultLimits 9 [⟨firstRows, 5000, 1⟩] ⟨firstRows, 10000000, 100⟩ oldIncomplete
    (by decide) (by decide)

end Zhongzhuan.Store.Retention
