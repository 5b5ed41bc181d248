import Zhongzhuan.Kit.Transactions

/-!
# The migration engine

The model of `MigrationRunner` in `store/migration_engine.py`, over a database of any kind:
`schema_migrations` is the engine's own table, and all that the statements and the hooks of
migrations work on are the other tables.  A `Plan` says at which calls a run fails, is cancelled
or dies, and what it reads of the clock and of the file system.

* `runOne_ends` is what one migration leaves: `Effect`, durable with its version row, or nothing.
* `migrateEach_ends` is the loop, and `runAll_ends` the run: what is durable in the end is `Chain`
  over the migrations that were completed, and nothing of the others.
* `runAll_atomic` and `runAll_again` put this together for runs that fail and runs that follow a
  complete one.
-/

namespace Zhongzhuan.Store.MigrationEngine

open Kit.Transactions

/-! ## The database -/

/-- `STATUS_APPLIED`. -/
def statusApplied : String := "applied"

/-- `STATUS_BASELINED`. -/
def statusBaselined : String := "baselined"

/-- `STATUS_DIGEST_MISMATCH`. -/
def statusDigestMismatch : String := "digest_mismatch"

/-- A row of `schema_migrations`. -/
structure VersionRow where
  version : ℤ
  name : String
  sqlDigest : String
  appliedAt : ℤ
  durationMs : ℤ
  status : String
deriving DecidableEq, Repr

/-- `schema_migrations`; the version is its primary key. -/
structure VersionTable where
  rows : List VersionRow
  distinct : (rows.map VersionRow.version).Nodup
deriving DecidableEq

/-- What a database holds besides the version table, and the version table if there is one. -/
structure Database (T : Type) where
  tables : T
  versionTable : Option VersionTable
deriving DecidableEq

/-- What a run raises: the error of a statement, the failure of a call for a reason of its own, a
`MigrationError`, the `IntegrityError` and the missing table of the engine's own statements, and
the `ValueError` of `_assert_unique_versions`. -/
inductive Fault (ε : Type)
  | driver (error : ε)
  | lost
  | migrationError (version : ℤ) (name sql : String) (cause : Fault ε)
  | duplicateKey (version : ℤ)
  | noVersionTable
  | duplicateVersion (version : ℤ)
deriving DecidableEq, Repr

/-- The calls of a run. -/
inductive MigrationCall
  | select
  | checkpoint
  | copyFile
  | createVersionTable
  | markMismatch (version : ℤ)
  | begin
  | statement (version : ℤ) (sql : String)
  | hook (version : ℤ)
  | insertVersion (version : ℤ)
  | commit
  | rollback
deriving DecidableEq, Repr

/-- What a run reads of the world outside: the time, how long the migration has taken, and the
path of the backup if one is due. -/
structure Reading where
  appliedAt : ℤ
  durationMs : ℤ
  backupTarget : Option String
deriving DecidableEq, Repr

variable {T ε : Type}

/-- A program of the engine. -/
abbrev Engine (T ε α : Type) : Type := Procedure Reading MigrationCall (Database T) (Fault ε) α

/-- A `MigrationExecutor`. -/
structure Executor (T ε : Type) where
  dialect : String
  /-- `execute` of a statement of a migration, when nothing goes wrong but the statement. -/
  execute : String → T → Except ε T
  /-- `is_ignorable`. -/
  isIgnorable : ε → Bool
  /-- `table_exists`, of the tables of migrations. -/
  hasTable : T → String → Bool
  /-- Whether a statement outside a transaction opens one. -/
  implicit : Bool

/-- The hook of a migration: queries and statements, as many and in whatever order it pleases.
It may go on after a call that raised. -/
inductive Hook (T ε : Type)
  | finish
  | throw (fault : Fault ε)
  | fetch (next : T → Hook T ε) (failed : Fault ε → Hook T ε)
  | execute (statement : T → Except ε T) (next : Hook T ε) (failed : Fault ε → Hook T ε)

/-- A `Migration`. -/
structure Migration (T ε : Type) where
  version : ℤ
  name : String
  sqliteSql : List String
  mysqlSql : List String
  sqliteBaselineSql : List String
  mysqlBaselineSql : List String
  hook : Option (Hook T ε)
  runHookOnBaseline : Bool
  baselineProbe : String

namespace Migration

/-- `Migration.statements`. -/
def statements (m : Migration T ε) (dialect : String) : List String :=
  if dialect = "sqlite" then m.sqliteSql else m.mysqlSql

/-- `Migration.baseline_statements`. -/
def baselineStatements (m : Migration T ε) (dialect : String) : List String :=
  if dialect = "sqlite" then m.sqliteBaselineSql else m.mysqlBaselineSql

/-- `Migration.digest`; `sha256` is the `hexdigest` of a text. -/
def digest (sha256 : String → String) (m : Migration T ε) (dialect : String) : String :=
  sha256 (String.intercalate "\n" (m.statements dialect))

end Migration

/-- A `MigrationReport`. -/
structure MigrationReport where
  fromVersion : ℤ := 0
  toVersion : ℤ := 0
  applied : List ℤ := []
  baselined : List ℤ := []
  skipped : List ℤ := []
  backupPath : String := ""
  executedStatements : List (ℤ × String) := []
deriving DecidableEq, Repr

/-! ## The statements of the engine -/

/-- The rows of the version table. -/
def Database.rows (d : Database T) : List VersionRow := d.versionTable.elim [] VersionTable.rows

/-- `SELECT version FROM schema_migrations`. -/
def Database.versions (d : Database T) : List ℤ := d.rows.map VersionRow.version

/-- `CREATE TABLE IF NOT EXISTS schema_migrations`. -/
def Database.withVersionTable (d : Database T) : Database T :=
  { d with versionTable := some (d.versionTable.getD ⟨[], List.nodup_nil⟩) }

/-- What `UPDATE schema_migrations SET status = ? WHERE version = ? AND status <> ?` makes of a
row, for each of these versions. -/
def VersionRow.mark (versions : List ℤ) (row : VersionRow) : VersionRow :=
  if row.version ∈ versions then { row with status := statusDigestMismatch } else row

theorem VersionRow.mark_version (versions : List ℤ) (row : VersionRow) :
    (row.mark versions).version = row.version := by
  unfold mark; split <;> rfl

/-- The version table under that statement. -/
def VersionTable.mark (versions : List ℤ) (table : VersionTable) : VersionTable where
  rows := table.rows.map (VersionRow.mark versions)
  distinct := by
    have same : (table.rows.map (VersionRow.mark versions)).map VersionRow.version
        = table.rows.map VersionRow.version := by
      rw [List.map_map]
      exact List.map_congr_left fun row _ => row.mark_version versions
    rw [same]
    exact table.distinct

/-- The database under that statement. -/
def Database.mark (versions : List ℤ) (d : Database T) : Database T :=
  { d with versionTable := d.versionTable.map (VersionTable.mark versions) }

/-- `INSERT INTO schema_migrations`. -/
def Database.insertVersion (row : VersionRow) (d : Database T) :
    Except (Fault ε) (Database T) :=
  match d.versionTable with
  | none => .error .noVersionTable
  | some table =>
    if fresh : row.version ∉ table.rows.map VersionRow.version then
      .ok { d with versionTable := some ⟨table.rows ++ [row], by
        rw [List.map_append, List.map_singleton, List.nodup_append_comm]
        exact List.nodup_cons.mpr ⟨fresh, table.distinct⟩⟩ }
    else .error (.duplicateKey row.version)

/-- `table_exists`. -/
def tableExists (ex : Executor T ε) (table : String) (d : Database T) : Bool :=
  if table = "schema_migrations" then d.versionTable.isSome else ex.hasTable d.tables table

/-- A statement on the other tables. -/
def onTables (statement : T → Except ε T) (d : Database T) : Except (Fault ε) (Database T) :=
  match statement d.tables with
  | .ok tables => .ok { d with tables := tables }
  | .error error => .error (.driver error)

/-! ## The runner -/

section Runner

variable (ex : Executor T ε) (sha256 : String → String)

/-- `version_table_exists`. -/
def versionTableExists : Engine T ε Bool :=
  .read .select .lost fun d => tableExists ex "schema_migrations" d

/-- `applied_versions`. -/
def appliedVersions : Engine T ε (List ℤ) := do
  if !(← versionTableExists ex) then return []
  .read .select .lost Database.versions

/-- `recorded_digests`. -/
def recordedDigests : Engine T ε (List (ℤ × String)) := do
  if !(← versionTableExists ex) then return []
  .read .select .lost fun d => d.rows.map fun row => (row.version, row.sqlDigest)

/-- `max(versions) if versions else 0`. -/
def newest (versions : List ℤ) : ℤ := versions.max?.getD 0

/-- `current_version`. -/
def currentVersion : Engine T ε ℤ := do
  let versions ← appliedVersions ex
  return newest versions

/-- `ensure_version_table`. -/
def ensureVersionTable : Engine T ε Unit := do
  .change ex.implicit .createVersionTable .lost fun d => .ok d.withVersionTable
  .commit .commit .lost

/-- `backup_sqlite`: a checkpoint that may fail, and a copy that may not. -/
def backupSqlite : Engine T ε String := do
  let now ← .consult
  match now.backupTarget with
  | none => return ""
  | some target =>
    let _ ← Procedure.outcome (.read .checkpoint .lost fun _ => ())
    .read .copyFile .lost fun _ => target

/-- `_mark_digest_mismatch`, with its `except Exception`. -/
def markDigestMismatch (version : ℤ) : Engine T ε Unit := do
  let _ ← Procedure.outcome do
    .change ex.implicit (.markMismatch version) .lost fun d =>
      if d.versionTable.isSome then .ok (d.mark [version]) else .error .noVersionTable
    Procedure.commit (ε := Fault ε) .commit .lost
  return ()

/-- Whether the recorded digest of a migration is another one than its own. -/
def drifts (recorded : List (ℤ × String)) (m : Migration T ε) : Bool :=
  match recorded.lookup m.version with
  | none => false
  | some expected => expected ≠ "" && expected ≠ m.digest sha256 ex.dialect

/-- The loop of `warn_digest_drift`. -/
def markDrifted (recorded : List (ℤ × String)) : List (Migration T ε) → Engine T ε ℕ
  | [] => return 0
  | m :: rest => do
    if drifts ex sha256 recorded m then
      markDigestMismatch ex m.version
      return (← markDrifted recorded rest) + 1
    else markDrifted recorded rest

/-- `warn_digest_drift`. -/
def warnDigestDrift (migrations : List (Migration T ε)) (applied : List ℤ) : Engine T ε ℕ := do
  if applied.isEmpty then return 0
  let recorded ← recordedDigests ex
  markDrifted ex sha256 recorded migrations

/-- `_assert_unique_versions`. -/
def assertUniqueVersions (seen : List ℤ) : List (Migration T ε) → Engine T ε Unit
  | [] => return ()
  | m :: rest =>
    if m.version ∈ seen then .raise (.duplicateVersion m.version)
    else assertUniqueVersions (m.version :: seen) rest

/-- Whether a statement that raised this is passed over. -/
def ignorable : Fault ε → Bool
  | .driver error => ex.isIgnorable error
  | _ => false

/-- The statements of `_run_one`. -/
def runStatements (m : Migration T ε) : List String → MigrationReport → Engine T ε MigrationReport
  | [], report => return report
  | sql :: rest, report => do
    let tried ← Procedure.outcome
      (.change ex.implicit (.statement m.version sql) .lost (onTables (ex.execute sql)))
    match tried with
    | .ok _ =>
      runStatements m rest { report with
        executedStatements := report.executedStatements ++ [(m.version, sql)] }
    | .error fault =>
      if ignorable ex fault then runStatements m rest report
      else .raise (.migrationError m.version m.name sql fault)

/-- A hook, called with the executor. -/
def Hook.run (version : ℤ) : Hook T ε → Engine T ε Unit
  | .finish => return ()
  | .throw fault => .raise fault
  | .fetch next failed => do
    match ← Procedure.outcome (.read (.hook version) .lost Database.tables) with
    | .ok tables => (next tables).run version
    | .error fault => (failed fault).run version
  | .execute statement next failed => do
    match ← Procedure.outcome
      (.change ex.implicit (.hook version) .lost (onTables statement)) with
    | .ok _ => next.run version
    | .error fault => (failed fault).run version

/-- The hook that a migration runs in this mode, if it does. -/
def Migration.hookFor (m : Migration T ε) (baseline : Bool) : Option (Hook T ε) :=
  if !baseline || m.runHookOnBaseline then m.hook else none

/-- The statements that a migration runs in this mode. -/
def Migration.statementsFor (m : Migration T ε) (dialect : String) (baseline : Bool) :
    List String :=
  if baseline then m.baselineStatements dialect else m.statements dialect

/-- The status that is recorded in this mode. -/
def statusFor (baseline : Bool) : String := if baseline then statusBaselined else statusApplied

/-- What `_run_one` raises when the hook raised this. -/
def hookFault (m : Migration T ε) : Fault ε → Fault ε
  | .migrationError version name sql cause => .migrationError version name sql cause
  | fault => .migrationError m.version m.name ("<python hook " ++ m.name ++ ">") fault

/-- The hook of `_run_one`. -/
def runHook (m : Migration T ε) (baseline : Bool) : Engine T ε Unit :=
  match m.hookFor baseline with
  | none => return ()
  | some hook => do
    match ← Procedure.outcome (hook.run ex m.version) with
    | .ok _ => return ()
    | .error fault => .raise (hookFault m fault)

/-- The row that is recorded of a migration. -/
def versionRow (m : Migration T ε) (baseline : Bool) (now : Reading) : VersionRow where
  version := m.version
  name := m.name
  sqlDigest := m.digest sha256 ex.dialect
  appliedAt := now.appliedAt
  durationMs := now.durationMs
  status := statusFor baseline

/-- `_safe_rollback`. -/
def safeRollback : Engine T ε Unit := do
  let _ ← Procedure.outcome (ε := Fault ε) (.rollback .rollback .lost)
  return ()

/-- The `try` block of `_run_one`. -/
def runBody (m : Migration T ε) (baseline : Bool) (report : MigrationReport) :
    Engine T ε MigrationReport := do
  let report ← runStatements ex m (m.statementsFor ex.dialect baseline) report
  runHook ex m baseline
  let now ← .consult
  .change ex.implicit (.insertVersion m.version) .lost
    (Database.insertVersion (versionRow ex sha256 m baseline now))
  .commit .commit .lost
  return report

/-- `_run_one`. -/
def runOne (m : Migration T ε) (baseline : Bool) (report : MigrationReport) :
    Engine T ε MigrationReport := do
  .beginWork .begin .lost
  Procedure.onHalt (runBody ex sha256 m baseline report) safeRollback

/-- `asked and bool(m.baseline_probe) and table_exists(m.baseline_probe)`. -/
def probes (asked : Bool) (m : Migration T ε) : Engine T ε Bool :=
  if asked && m.baselineProbe ≠ "" then .read .select .lost (tableExists ex m.baselineProbe)
  else return false

/-- The loop of `run_all`. -/
def migrateEach (legacy : Bool) :
    List (Migration T ε) → MigrationReport → Engine T ε MigrationReport
  | [], report => return report
  | m :: rest, report => do
    let baseline ← probes ex legacy m
    let report ← runOne ex sha256 m baseline report
    migrateEach legacy rest <|
      if baseline then { report with baselined := report.baselined ++ [m.version] }
      else { report with applied := report.applied ++ [m.version] }

/-- `sorted(migrations, key=lambda m: m.version)`. -/
def inOrder (migrations : List (Migration T ε)) : List (Migration T ε) :=
  migrations.mergeSort fun a b => a.version ≤ b.version

/-- `run_all`. -/
def runAll (migrations : List (Migration T ε)) : Engine T ε MigrationReport := do
  let ordered := inOrder migrations
  assertUniqueVersions [] ordered
  let hadVersionTable ← versionTableExists ex
  let applied ← appliedVersions ex
  let _ ← warnDigestDrift ex sha256 ordered applied
  let report : MigrationReport :=
    { fromVersion := newest applied
      skipped := (ordered.filter fun m => m.version ∈ applied).map Migration.version }
  match ordered.filter fun m => m.version ∉ applied with
  | [] => return { report with toVersion := report.fromVersion }
  | first :: rest =>
    let backupPath ← backupSqlite
    ensureVersionTable ex
    let legacy ← probes ex (!hadVersionTable) first
    let report ← migrateEach ex sha256 legacy (first :: rest)
      { report with backupPath := backupPath }
    return { report with toVersion := ← currentVersion ex }

end Runner

/-! ## What the engine's statements leave -/

section Rows

variable {d : Database T} {row : VersionRow} {versions : List ℤ}

@[simp] theorem rows_withVersionTable : d.withVersionTable.rows = d.rows := by
  obtain ⟨tables, table | table⟩ := d <;> rfl

@[simp] theorem versions_withVersionTable : d.withVersionTable.versions = d.versions := by
  rw [Database.versions, rows_withVersionTable, Database.versions]

@[simp] theorem rows_mark : (d.mark versions).rows = d.rows.map (VersionRow.mark versions) := by
  obtain ⟨tables, table | table⟩ := d <;> rfl

@[simp] theorem versions_mark : (d.mark versions).versions = d.versions := by
  rw [Database.versions, rows_mark, List.map_map]
  exact List.map_congr_left fun row _ => row.mark_version versions

@[simp] theorem isSome_mark : (d.mark versions).versionTable.isSome = d.versionTable.isSome :=
  Option.isSome_map ..

theorem distinct_rows : (d.rows.map VersionRow.version).Nodup := by
  obtain ⟨tables, table | table⟩ := d
  · exact List.nodup_nil
  · exact table.distinct

theorem eq_of_same_version {row' : VersionRow} (here : row ∈ d.rows) (there : row' ∈ d.rows)
    (same : row.version = row'.version) : row = row' :=
  List.inj_on_of_nodup_map distinct_rows here there same

theorem Database.eq_of_rows {d' : Database T} (tables : d.tables = d'.tables)
    (some_table : d.versionTable.isSome = d'.versionTable.isSome) (rows : d.rows = d'.rows) :
    d = d' := by
  obtain ⟨t, table | ⟨list, distinct⟩⟩ := d <;> obtain ⟨t', table' | ⟨list', distinct'⟩⟩ := d'
  · exact congrArg (Database.mk · none) tables
  · cases some_table
  · cases some_table
  · cases tables
    cases (show list = list' from rows)
    rfl

theorem insertVersion_ok {d' : Database T} :
    Database.insertVersion (ε := ε) row d = .ok d' ↔ d.versionTable.isSome = true
      ∧ row.version ∉ d.versions ∧ d'.tables = d.tables ∧ d'.versionTable.isSome = true
      ∧ d'.rows = d.rows ++ [row] := by
  obtain ⟨tables, table | table⟩ := d
  · constructor
    · intro inserted; cases inserted
    · rintro ⟨absent, -⟩; cases absent
  change (dite (row.version ∉ table.rows.map VersionRow.version) _ _) = _ ↔ _
  by_cases fresh : row.version ∉ table.rows.map VersionRow.version
  · rw [dif_pos fresh, Except.ok.injEq]
    constructor
    · rintro rfl
      exact ⟨rfl, fresh, rfl, rfl, rfl⟩
    · rintro ⟨-, -, same, present, rows⟩
      exact Database.eq_of_rows same.symm present.symm rows.symm
  · rw [dif_neg fresh]
    constructor
    · intro refused; cases refused
    · rintro ⟨-, new, -⟩; exact absurd new fresh

theorem lookup_recorded {version : ℤ} {digest : String} :
    (d.rows.map fun row => (row.version, row.sqlDigest)).lookup version = some digest
      ↔ ∃ row ∈ d.rows, row.version = version ∧ row.sqlDigest = digest := by
  have distinct := distinct_rows (d := d)
  revert distinct
  induction d.rows with
  | nil => simp
  | cons row rest ih =>
    intro distinct
    rw [List.map_cons, List.nodup_cons] at distinct
    rw [List.map_cons, List.lookup_cons]
    by_cases same : version = row.version
    · subst same
      rw [beq_self_eq_true, List.exists_mem_cons_iff]
      constructor
      · intro found
        exact .inl ⟨rfl, Option.some.inj found⟩
      · rintro (⟨-, found⟩ | ⟨other, mem, version, -⟩)
        · exact congrArg some found
        · exact absurd (version ▸ List.mem_map_of_mem mem) distinct.1
    · rw [beq_false_of_ne same]
      refine (ih distinct.2).trans ?_
      rw [List.exists_mem_cons_iff]
      constructor
      · exact .inr
      · rintro (⟨found, -⟩ | later)
        · exact absurd found.symm same
        · exact later

end Rows

/-! ## The effect of a migration -/

/-- What statements leave when each goes through or is passed over. -/
def statementsEffect (ex : Executor T ε) : List String → T → Option T
  | [], tables => some tables
  | sql :: rest, tables =>
    match ex.execute sql tables with
    | .ok tables' => statementsEffect ex rest tables'
    | .error error => if ex.isIgnorable error then statementsEffect ex rest tables else none

/-- What a hook may come to; when `faulty`, a call of it may fail for a reason of its own. -/
inductive Hook.Runs (faulty : Prop) : Hook T ε → T → Except (Fault ε) T → Prop
  | finish {t : T} : Runs faulty .finish t (.ok t)
  | throw {fault : Fault ε} {t : T} : Runs faulty (.throw fault) t (.error fault)
  | fetch {next : T → Hook T ε} {failed : Fault ε → Hook T ε} {t : T} {result}
      (rest : Runs faulty (next t) t result) : Runs faulty (.fetch next failed) t result
  | fetchLost {next : T → Hook T ε} {failed : Fault ε → Hook T ε} {t : T} {result}
      (fault : faulty) (rest : Runs faulty (failed .lost) t result) :
      Runs faulty (.fetch next failed) t result
  | execute {statement : T → Except ε T} {next : Hook T ε} {failed : Fault ε → Hook T ε}
      {t t' : T} {result} (fine : statement t = .ok t') (rest : Runs faulty next t' result) :
      Runs faulty (.execute statement next failed) t result
  | executeRefused {statement : T → Except ε T} {next : Hook T ε} {failed : Fault ε → Hook T ε}
      {t : T} {error : ε} {result} (refused : statement t = .error error)
      (rest : Runs faulty (failed (.driver error)) t result) :
      Runs faulty (.execute statement next failed) t result
  | executeLost {statement : T → Except ε T} {next : Hook T ε} {failed : Fault ε → Hook T ε}
      {t : T} {result} (fault : faulty) (rest : Runs faulty (failed .lost) t result) :
      Runs faulty (.execute statement next failed) t result

/-- What the hook of a migration leaves, if there is one to run. -/
def hookEffect (faulty : Prop) (hook : Option (Hook T ε)) (before after : T) : Prop :=
  match hook with
  | none => after = before
  | some hook => hook.Runs faulty before (.ok after)

section Effect

variable (ex : Executor T ε) (sha256 : String → String) (faulty : Prop)

/-- **One migration, carried out**: its statements, its hook and its version row. -/
def Effect (m : Migration T ε) (baseline : Bool) (before after : Database T) : Prop :=
  ∃ mid tables now,
    statementsEffect ex (m.statementsFor ex.dialect baseline) before.tables = some mid
    ∧ hookEffect faulty (m.hookFor baseline) mid tables
    ∧ Database.insertVersion (ε := ε) (versionRow ex sha256 m baseline now)
        { before with tables := tables } = .ok after

/-- Whether the loop takes a migration as a baseline. -/
def baselineOf (legacy : Bool) (m : Migration T ε) (d : Database T) : Bool :=
  legacy && m.baselineProbe ≠ "" && tableExists ex m.baselineProbe d

/-- Several migrations, carried out one after the other. -/
inductive Chain (legacy : Bool) : List (Migration T ε) → Database T → Database T → Prop
  | nil {d : Database T} : Chain legacy [] d d
  | cons {m : Migration T ε} {rest : List (Migration T ε)} {d d' d'' : Database T}
      (first : Effect ex sha256 faulty m (baselineOf ex legacy m d) d d')
      (later : Chain legacy rest d' d'') : Chain legacy (m :: rest) d d''

variable {ex sha256 faulty} {legacy : Bool} {m : Migration T ε} {before after : Database T}
  {baseline : Bool} {migrations : List (Migration T ε)}

/-- A row records a migration. -/
def Records (ex : Executor T ε) (sha256 : String → String) (m : Migration T ε)
    (row : VersionRow) : Prop :=
  ∃ baseline now, row = versionRow ex sha256 m baseline now

theorem Effect.rows (effect : Effect ex sha256 faulty m baseline before after) :
    ∃ row, (∃ now, row = versionRow ex sha256 m baseline now) ∧ after.rows = before.rows ++ [row]
      ∧ m.version ∉ before.versions ∧ before.versionTable.isSome = true
      ∧ after.versionTable.isSome = true := by
  obtain ⟨mid, tables, now, -, -, inserted⟩ := effect
  obtain ⟨present, fresh, -, present', rows⟩ := insertVersion_ok.mp inserted
  exact ⟨_, ⟨now, rfl⟩, rows, fresh, present, present'⟩

theorem Chain.rows (chain : Chain ex sha256 faulty legacy migrations before after) :
    ∃ added, List.Forall₂ (Records ex sha256) migrations added
      ∧ after.rows = before.rows ++ added := by
  induction chain with
  | nil => exact ⟨[], .nil, (List.append_nil _).symm⟩
  | cons first later ih =>
    obtain ⟨row, recorded, here, -⟩ := first.rows
    obtain ⟨added, records, rows⟩ := ih
    refine ⟨row :: added, .cons ⟨_, recorded⟩ records, ?_⟩
    rw [rows, here, List.append_assoc, List.singleton_append]

theorem Chain.versions (chain : Chain ex sha256 faulty legacy migrations before after) :
    after.versions = before.versions ++ migrations.map Migration.version := by
  obtain ⟨added, records, rows⟩ := chain.rows
  rw [Database.versions, rows, List.map_append, Database.versions]
  congr 1
  clear rows chain
  induction records with
  | nil => rfl
  | cons first later ih =>
    obtain ⟨baseline, now, rfl⟩ := first
    rw [List.map_cons, List.map_cons, ih, versionRow]

theorem Chain.isSome (chain : Chain ex sha256 faulty legacy migrations before after)
    (present : before.versionTable.isSome = true) : after.versionTable.isSome = true := by
  induction chain with
  | nil => exact present
  | cons first later ih => exact ih first.rows.choose_spec.2.2.2.2

end Effect

/-! ## What one migration leaves -/

namespace Hook.Runs

variable {faulty faulty' : Prop} {hook : Hook T ε} {t : T} {result result' : Except (Fault ε) T}

theorem mono (imp : faulty → faulty') (runs : Runs faulty hook t result) :
    Runs faulty' hook t result := by
  induction runs with
  | finish => exact .finish
  | throw => exact .throw
  | fetch _ ih => exact .fetch ih
  | fetchLost fault _ ih => exact .fetchLost (imp fault) ih
  | execute fine _ ih => exact .execute fine ih
  | executeRefused refused _ ih => exact .executeRefused refused ih
  | executeLost fault _ ih => exact .executeLost (imp fault) ih

theorem unique (runs : Runs False hook t result) (runs' : Runs False hook t result') :
    result = result' := by
  induction runs with
  | finish => cases runs'; rfl
  | throw => cases runs'; rfl
  | fetch _ ih =>
    cases runs' with
    | fetch rest => exact ih rest
    | fetchLost fault => exact fault.elim
  | fetchLost fault => exact fault.elim
  | execute fine _ ih =>
    cases runs' with
    | execute fine' rest =>
      cases fine.symm.trans fine'
      exact ih rest
    | executeRefused refused => cases fine.symm.trans refused
    | executeLost fault => exact fault.elim
  | executeRefused refused _ ih =>
    cases runs' with
    | execute fine => cases fine.symm.trans refused
    | executeRefused refused' rest =>
      cases refused.symm.trans refused'
      exact ih rest
    | executeLost fault => exact fault.elim
  | executeLost fault => exact fault.elim

end Hook.Runs

theorem hookEffect_mono {faulty faulty' : Prop} {hook : Option (Hook T ε)} {t t' : T}
    (imp : faulty → faulty') (effect : hookEffect faulty hook t t') :
    hookEffect faulty' hook t t' := by
  cases hook with
  | none => exact effect
  | some hook => exact Hook.Runs.mono imp effect

theorem hookEffect_unique {hook : Option (Hook T ε)} {t t' t'' : T}
    (effect : hookEffect False hook t t') (effect' : hookEffect False hook t t'') : t' = t'' := by
  cases hook with
  | none => exact effect.trans effect'.symm
  | some hook => exact Except.ok.inj (Hook.Runs.unique effect effect')

theorem Effect.mono {ex : Executor T ε} {sha256 : String → String} {faulty faulty' : Prop}
    {m : Migration T ε} {baseline : Bool} {before after : Database T} (imp : faulty → faulty')
    (effect : Effect ex sha256 faulty m baseline before after) :
    Effect ex sha256 faulty' m baseline before after := by
  obtain ⟨mid, tables, now, statements, hook, inserted⟩ := effect
  exact ⟨mid, tables, now, statements, hookEffect_mono imp hook, inserted⟩

section Runs

variable {ex : Executor T ε} {sha256 : String → String} {plan : Plan Reading MigrationCall}
  {c : Link MigrationCall (Database T)} {d : Database T} {t : T} {m : Migration T ε}
  {baseline : Bool} {report : MigrationReport}

/-- A transaction is open in which the other tables have come to this. -/
structure Inside (d : Database T) (t : T) (c : Link MigrationCall (Database T)) : Prop where
  durable : c.durable = d
  opened : c.opened = some { d with tables := t }

theorem Inside.view (inside : Inside d t c) : c.view = { d with tables := t } := by
  rw [Link.view, inside.opened, Option.getD_some]

theorem Inside.logged {kind : MigrationCall} (inside : Inside d t c) :
    Inside d t (c.logged kind) := ⟨inside.durable, inside.opened⟩

theorem Inside.put {kind : MigrationCall} {t' : T} (inside : Inside d t c) :
    Inside d t' ((c.logged kind).put ex.implicit { d with tables := t' }) := by
  rw [Link.put_of_opened inside.logged.opened]
  exact ⟨inside.durable, rfl⟩

theorem statement_ends {kind : MigrationCall} {statement : T → Except ε T}
    (inside : Inside d t c) :
    Ends (fun result c' =>
        (∃ t', statement t = .ok t' ∧ result = .ok ⟨⟩ ∧ Inside d t' c')
          ∨ (∃ error, statement t = .error error ∧ result = .error (.driver error)
            ∧ Inside d t c')
          ∨ plan.Fails ∧ result = .error .lost ∧ Inside d t c')
      (fun halt c' => c'.durable = d ∧ plan.Excuses halt)
      (Procedure.outcome (.change ex.implicit kind .lost (onTables statement)) plan c) := by
  refine Ends.outcome (Ends.change ?_ ?_ ?_)
  · intro d' went
    left
    rw [inside.view] at went
    unfold onTables at went
    split at went
    · next t' fine =>
      cases went
      exact ⟨t', fine, rfl, inside.put⟩
    · cases went
  · intro fault refused
    refine ⟨?_, fun other => absurd rfl (other fault)⟩
    intro fault' same
    cases same
    rw [inside.view] at refused
    unfold onTables at refused
    split at refused
    · cases refused
    · next error raised =>
      cases refused
      exact .inr (.inl ⟨error, raised, rfl, inside.logged⟩)
  · intro halt interrupts
    refine ⟨?_, fun _ => ⟨inside.durable, interrupts.excuses⟩⟩
    rintro fault rfl
    have fails : plan.Fails := interrupts.excuses
    obtain ⟨rfl, -⟩ := interrupts
    exact .inr (.inr ⟨fails, rfl, inside.logged⟩)

theorem runStatements_ends {statements : List String} (inside : Inside d t c) :
    Ends (fun _ c' => ∃ t', statementsEffect ex statements t = some t' ∧ Inside d t' c')
      (fun halt c' => c'.durable = d
        ∧ (plan.Excuses halt ∨ statementsEffect ex statements t = none))
      (runStatements ex m statements report plan c) := by
  induction statements generalizing t c report with
  | nil => exact Ends.pure ⟨t, rfl, inside⟩
  | cons sql rest ih =>
    refine (statement_ends inside).bind (fun halt c' here => ⟨here.1, .inl here.2⟩) ?_
    rintro result c' (⟨t', fine, rfl, inside'⟩ | ⟨error, refused, rfl, inside'⟩
      | ⟨fails, rfl, inside'⟩)
    · rw [statementsEffect, fine]
      exact ih inside'
    · rw [statementsEffect, refused]
      change Ends _ _ ((if ex.isIgnorable error then _ else _ : Engine T ε MigrationReport) plan c')
      dsimp only
      split
      · exact ih inside'
      · exact Ends.raise ⟨inside'.durable, .inr rfl⟩
    · simp only [ignorable, Bool.false_eq_true]
      exact Ends.raise ⟨inside'.durable, .inl fails⟩

theorem hook_ends {version : ℤ} {hook : Hook T ε} (inside : Inside d t c) :
    Ends (fun _ c' => ∃ t', hook.Runs plan.Fails t (.ok t') ∧ Inside d t' c')
      (fun halt c' => c'.durable = d ∧ (plan.Excuses halt
        ∨ ∃ fault, halt = .raised fault ∧ hook.Runs plan.Fails t (.error fault)))
      (hook.run ex version plan c) := by
  induction hook generalizing t c with
  | finish => exact Ends.pure ⟨t, .finish, inside⟩
  | throw fault =>
    exact Ends.raise ⟨inside.durable, .inr ⟨fault, rfl, .throw⟩⟩
  | fetch next failed nextEnds failedEnds =>
    have tried : Ends (fun result c' => (result = .ok t ∧ Inside d t c')
          ∨ plan.Fails ∧ result = .error .lost ∧ Inside d t c')
        (fun halt c' => c'.durable = d ∧ plan.Excuses halt)
        (Procedure.outcome (.read (.hook version) (.lost : Fault ε) Database.tables) plan c) := by
      refine Ends.outcome (Ends.read (.inl ⟨by rw [inside.view], inside.logged⟩) ?_)
      intro halt interrupts
      refine ⟨?_, fun _ => ⟨inside.durable, interrupts.excuses⟩⟩
      rintro fault rfl
      have fails : plan.Fails := interrupts.excuses
      obtain ⟨rfl, -⟩ := interrupts
      exact .inr ⟨fails, rfl, inside.logged⟩
    rw [Hook.run]
    refine tried.bind (fun halt c' here => ⟨here.1, .inl here.2⟩) ?_
    rintro result c' (⟨rfl, inside'⟩ | ⟨fails, rfl, inside'⟩)
    · exact (nextEnds t inside').mono (fun _ _ ⟨t', runs, there⟩ => ⟨t', .fetch runs, there⟩)
        fun _ _ ⟨same, why⟩ => ⟨same, why.imp_right fun ⟨fault, raised, runs⟩ =>
          ⟨fault, raised, .fetch runs⟩⟩
    · exact (failedEnds .lost inside').mono
        (fun _ _ ⟨t', runs, there⟩ => ⟨t', .fetchLost fails runs, there⟩)
        fun _ _ ⟨same, why⟩ => ⟨same, why.imp_right fun ⟨fault, raised, runs⟩ =>
          ⟨fault, raised, .fetchLost fails runs⟩⟩
  | execute statement next failed nextEnds failedEnds =>
    rw [Hook.run]
    refine (statement_ends inside).bind (fun halt c' here => ⟨here.1, .inl here.2⟩) ?_
    rintro result c' (⟨t', fine, rfl, inside'⟩ | ⟨error, refused, rfl, inside'⟩
      | ⟨fails, rfl, inside'⟩)
    · exact (nextEnds inside').mono (fun _ _ ⟨t', runs, there⟩ => ⟨t', .execute fine runs, there⟩)
        fun _ _ ⟨same, why⟩ => ⟨same, why.imp_right fun ⟨fault, raised, runs⟩ =>
          ⟨fault, raised, .execute fine runs⟩⟩
    · exact (failedEnds _ inside').mono
        (fun _ _ ⟨t', runs, there⟩ => ⟨t', .executeRefused refused runs, there⟩)
        fun _ _ ⟨same, why⟩ => ⟨same, why.imp_right fun ⟨fault, raised, runs⟩ =>
          ⟨fault, raised, .executeRefused refused runs⟩⟩
    · exact (failedEnds .lost inside').mono
        (fun _ _ ⟨t', runs, there⟩ => ⟨t', .executeLost fails runs, there⟩)
        fun _ _ ⟨same, why⟩ => ⟨same, why.imp_right fun ⟨fault, raised, runs⟩ =>
          ⟨fault, raised, .executeLost fails runs⟩⟩

theorem runHook_ends (inside : Inside d t c) :
    Ends (fun _ c' => ∃ t', hookEffect plan.Fails (m.hookFor baseline) t t' ∧ Inside d t' c')
      (fun halt c' => c'.durable = d
        ∧ (plan.Excuses halt ∨ ∀ t', ¬ hookEffect False (m.hookFor baseline) t t'))
      (runHook ex m baseline plan c) := by
  unfold runHook hookEffect
  cases m.hookFor baseline with
  | none => exact Ends.pure ⟨t, rfl, inside⟩
  | some hook =>
    have tried : Ends (fun result c' =>
          (∃ t', hook.Runs plan.Fails t (.ok t') ∧ result = .ok () ∧ Inside d t' c')
            ∨ (∃ fault, result = .error fault ∧ c'.durable = d
              ∧ (plan.Fails ∨ hook.Runs plan.Fails t (.error fault))))
        (fun halt c' => c'.durable = d ∧ plan.Excuses halt)
        (Procedure.outcome (hook.run ex m.version) plan c) := by
      refine Ends.outcome ((hook_ends inside).mono ?_ ?_)
      · rintro ⟨⟩ c' ⟨t', runs, inside'⟩
        exact .inl ⟨t', runs, rfl, inside'⟩
      · intro halt c' ⟨same, why⟩
        constructor
        · rintro fault rfl
          refine .inr ⟨fault, rfl, same, why.imp_right ?_⟩
          rintro ⟨fault', raised, runs⟩
          cases raised
          exact runs
        · intro other
          refine ⟨same, why.resolve_right ?_⟩
          rintro ⟨fault, raised, -⟩
          exact other fault raised
    refine tried.bind (fun halt c' here => ⟨here.1, .inl here.2⟩) ?_
    rintro result c' (⟨t', runs, rfl, inside'⟩ | ⟨fault, rfl, same, why⟩)
    · exact Ends.pure ⟨t', runs, inside'⟩
    · refine Ends.raise ⟨same, ?_⟩
      by_cases fails : plan.Fails
      · exact .inl fails
      · right
        intro t' fine
        cases ((why.resolve_left fails).mono fails).unique fine

theorem insertVersion_refused {row row' : VersionRow} {fault : Fault ε} {d' : Database T}
    (refused : Database.insertVersion row d = .error fault) (same : row'.version = row.version) :
    Database.insertVersion (ε := ε) row' d ≠ .ok d' := by
  intro inserted
  obtain ⟨present, fresh, -⟩ := insertVersion_ok.mp inserted
  obtain ⟨tables, table | table⟩ := d
  · cases present
  · unfold Database.insertVersion at refused
    dsimp only at refused
    rw [dif_pos (by rw [← same]; exact fresh)] at refused
    cases refused

theorem runBody_ends (inside : Inside d d.tables c) :
    Ends (fun _ c' => c'.opened = none ∧ Effect ex sha256 plan.Fails m baseline d c'.durable)
      (fun halt c' => c'.durable = d
        ∧ (plan.Excuses halt ∨ ∀ d', ¬ Effect ex sha256 False m baseline d d'))
      (runBody ex sha256 m baseline report plan c) := by
  unfold runBody
  refine (runStatements_ends inside).bind ?_ ?_
  · intro halt c' ⟨same, why⟩
    refine ⟨same, why.imp_right ?_⟩
    rintro stuck d' ⟨mid, tables, now, statements, -⟩
    cases stuck.symm.trans statements
  rintro _ c₁ ⟨mid, statements, inside₁⟩
  refine (runHook_ends inside₁).bind ?_ ?_
  · intro halt c' ⟨same, why⟩
    refine ⟨same, why.imp_right ?_⟩
    rintro stuck d' ⟨mid', tables, now, statements', hook, -⟩
    cases statements.symm.trans statements'
    exact stuck _ hook
  rintro _ c₂ ⟨t₂, hook, inside₂⟩
  change Ends _ _ ((_ >>= fun _ => _ : Engine T ε MigrationReport) plan c₂)
  have inserted : Ends (fun _ c' => c'.durable = d
          ∧ ∃ d', c'.opened = some d' ∧ Effect ex sha256 plan.Fails m baseline d d')
      (fun halt c' => c'.durable = d
        ∧ (plan.Excuses halt ∨ ∀ d', ¬ Effect ex sha256 False m baseline d d'))
      ((Procedure.change ex.implicit (.insertVersion m.version) .lost
        (Database.insertVersion (versionRow ex sha256 m baseline
          (plan.reading c₂.log.length))) : Engine T ε _) plan c₂) := by
    refine Ends.change ?_ ?_ ?_
    · intro d' went
      rw [inside₂.view] at went
      rw [Link.put_of_opened inside₂.logged.opened]
      exact ⟨inside₂.durable, d', rfl, mid, t₂, _, statements, hook, went⟩
    · intro fault refused
      rw [inside₂.view] at refused
      refine ⟨inside₂.durable, ?_⟩
      by_cases fails : plan.Fails
      · exact .inl fails
      right
      rintro d' ⟨mid', t', now, statements', hook', went⟩
      cases statements.symm.trans statements'
      cases hookEffect_unique hook' (hookEffect_mono fails hook)
      exact insertVersion_refused refused
        (show (versionRow ex sha256 m baseline now).version = _ from rfl) went
    · intro halt interrupts
      exact ⟨inside₂.durable, .inl interrupts.excuses⟩
  refine inserted.bind (fun _ _ here => here) ?_
  rintro _ c₃ ⟨same, d', opened, effect⟩
  refine Ends.via (fun _ c' => c'.opened = none
    ∧ Effect ex sha256 plan.Fails m baseline d c'.durable) (Ends.commit ?_ ?_) ?_
  · refine ⟨rfl, ?_⟩
    rw [Link.committed_durable, Link.logged_view, Link.view, opened]
    exact effect
  · intro halt interrupts
    exact ⟨same, .inl interrupts.excuses⟩
  · intro _ c' here
    exact Ends.pure here

theorem safeRollback_ends (same : c.durable = d) :
    Ends (fun _ c' => c'.durable = d)
      (fun halt c' => c'.durable = d ∧ plan.Excuses halt)
      ((safeRollback : Engine T ε Unit) plan c) := by
  have tried : Ends (fun _ c' => c'.durable = d)
      (fun halt c' => c'.durable = d ∧ plan.Excuses halt)
      ((Procedure.rollback .rollback .lost : Engine T ε Unit).outcome plan c) := by
    refine Ends.outcome (Ends.rollback same ?_)
    intro halt interrupts
    exact ⟨fun _ _ => same, fun _ => ⟨same, interrupts.excuses⟩⟩
  exact tried.bind (fun _ _ here => here) fun _ c' here => Ends.pure here

theorem runOne_ends (closed : c.opened = none) :
    Ends (fun _ c' => c'.opened = none
        ∧ Effect ex sha256 plan.Fails m baseline c.durable c'.durable)
      (fun halt c' => c'.durable = c.durable
        ∧ (plan.Excuses halt ∨ ∀ d', ¬ Effect ex sha256 False m baseline c.durable d'))
      (runOne ex sha256 m baseline report plan c) := by
  unfold runOne
  refine Ends.via (fun _ c' => Inside c.durable c.durable.tables c') (Ends.beginWork ?_ ?_) ?_
  · have seen := Link.view_of_opened closed
    exact ⟨seen, congrArg some seen⟩
  · intro halt interrupts
    exact ⟨rfl, .inl interrupts.excuses⟩
  intro _ c₁ inside
  refine Ends.onHalt ((runBody_ends inside).mono (fun _ _ here => here) ?_)
  intro halt c' here
  refine ⟨fun _ => here, fun _ => (safeRollback_ends here.1).mono ?_ ?_⟩
  · intro _ c'' same
    exact ⟨same, here.2⟩
  · intro later c'' there
    exact ⟨there.1, .inl there.2⟩

theorem probes_ends {asked : Bool} :
    Ends (fun answer c' => answer = baselineOf ex asked m c.view ∧ c'.durable = c.durable
        ∧ c'.opened = c.opened)
      (fun halt c' => c'.durable = c.durable ∧ plan.Excuses halt)
      (probes ex asked m plan c) := by
  unfold probes baselineOf
  split
  · next asked =>
    exact Ends.read ⟨by rw [asked, Bool.true_and], rfl, rfl⟩
      fun halt interrupts => ⟨rfl, interrupts.excuses⟩
  · next idle =>
    rw [Bool.not_eq_true] at idle
    exact Ends.pure ⟨by rw [idle, Bool.false_and], rfl, rfl⟩

/-- The migration whose turn it is cannot be carried out. -/
def Stuck (ex : Executor T ε) (sha256 : String → String) (legacy : Bool)
    (migrations : List (Migration T ε)) (d : Database T) : Prop :=
  ∃ m rest, migrations = m :: rest
    ∧ ∀ d', ¬ Effect ex sha256 False m (baselineOf ex legacy m d) d d'

/-- **The loop of `run_all`**: what is durable is a chain over the migrations it has completed. -/
theorem migrateEach_ends {legacy : Bool} {migrations : List (Migration T ε)}
    (closed : c.opened = none) :
    Ends (fun _ c' => c'.opened = none
        ∧ Chain ex sha256 plan.Fails legacy migrations c.durable c'.durable)
      (fun halt c' => ∃ before after, migrations = before ++ after
        ∧ Chain ex sha256 plan.Fails legacy before c.durable c'.durable
        ∧ (plan.Excuses halt ∨ Stuck ex sha256 legacy after c'.durable))
      (migrateEach ex sha256 legacy migrations report plan c) := by
  induction migrations generalizing c report with
  | nil => exact Ends.pure ⟨closed, .nil⟩
  | cons m rest ih =>
    refine probes_ends.bind ?_ ?_
    · intro halt c' ⟨same, why⟩
      refine ⟨[], m :: rest, rfl, ?_, .inl why⟩
      rw [same]
      exact .nil
    rintro baseline c₁ ⟨answer, same, closed₁⟩
    rw [Link.view_of_opened closed] at answer
    refine (runOne_ends (closed₁.trans closed)).bind ?_ ?_
    · intro halt c' ⟨unchanged, why⟩
      rw [unchanged, same]
      refine ⟨[], m :: rest, rfl, .nil, why.imp_right ?_⟩
      intro stuck
      rw [same, answer] at stuck
      exact ⟨m, rest, rfl, stuck⟩
    intro report' c₂ ⟨closed₂, effect⟩
    rw [same, answer] at effect
    refine (ih closed₂).mono ?_ ?_
    · intro _ c' ⟨closed', chain⟩
      exact ⟨closed', .cons effect chain⟩
    · rintro halt c' ⟨before, after, rfl, chain, why⟩
      exact ⟨m :: before, after, rfl, .cons effect chain, why⟩

end Runs

/-! ## What comes before the loop -/

/-- A call with which a migration is carried out. -/
def MigrationCall.ofMigration : MigrationCall → Bool
  | .begin | .statement .. | .hook _ | .insertVersion _ => true
  | _ => false

section Marks

variable {ex : Executor T ε} {sha256 : String → String} {plan : Plan Reading MigrationCall}
  {c : Link MigrationCall (Database T)} {d : Database T} {m : Migration T ε}
  {versions more : List ℤ}

theorem VersionRow.mark_mark (row : VersionRow) :
    (row.mark versions).mark more = row.mark (versions ++ more) := by
  unfold VersionRow.mark
  by_cases here : row.version ∈ versions <;> by_cases there : row.version ∈ more <;>
    simp [here, there]

theorem mark_mark : (d.mark versions).mark more = d.mark (versions ++ more) := by
  apply Database.eq_of_rows
  · rfl
  · rw [isSome_mark, isSome_mark, isSome_mark]
  · rw [rows_mark, rows_mark, rows_mark, List.map_map]
    exact List.map_congr_left fun row _ => row.mark_mark

theorem mark_eq_self (marked : ∀ row ∈ d.rows, row.version ∈ versions →
    row.status = statusDigestMismatch) : d.mark versions = d := by
  apply Database.eq_of_rows
  · rfl
  · exact isSome_mark
  · rw [rows_mark]
    refine (List.map_congr_left fun row mem => ?_).trans (List.map_id d.rows)
    unfold VersionRow.mark
    split
    · next listed =>
      obtain ⟨version, name, digest, appliedAt, durationMs, status⟩ := row
      cases marked _ mem listed
      rfl
    · rfl

theorem mark_nil : d.mark [] = d :=
  mark_eq_self fun _ _ listed => absurd listed List.not_mem_nil

/-- The digests that a database records. -/
def recordedOf (d : Database T) : List (ℤ × String) :=
  d.rows.map fun row => (row.version, row.sqlDigest)

/-- The versions whose recorded digest is another one than that of their migration. -/
def driftedVersions (ex : Executor T ε) (sha256 : String → String)
    (migrations : List (Migration T ε)) (d : Database T) : List ℤ :=
  (migrations.filter (drifts ex sha256 (recordedOf d))).map Migration.version

/-- Nothing was done to the database but marks on versions of this list. -/
structure Bookkept (versions : List ℤ) (d : Database T)
    (c : Link MigrationCall (Database T)) : Prop where
  durable : ∃ marked ⊆ versions, c.durable = d.mark marked
  view : ∃ marked ⊆ versions, c.view = d.mark marked
  quiet : ∀ call ∈ c.log, call.ofMigration = false

theorem bookkept_start : Bookkept versions d (.start d) where
  durable := ⟨[], List.nil_subset _, mark_nil.symm⟩
  view := ⟨[], List.nil_subset _, mark_nil.symm⟩
  quiet _ mem := absurd mem List.not_mem_nil

theorem Bookkept.logged {call : MigrationCall} (kept : Bookkept versions d c)
    (idle : call.ofMigration = false) : Bookkept versions d (c.logged call) where
  durable := kept.durable
  view := kept.view
  quiet := by
    rw [Link.logged_log, List.forall_mem_append, List.forall_mem_singleton]
    exact ⟨kept.quiet, idle⟩

/-- Nothing was done but queries. -/
structure Selected (c c' : Link MigrationCall (Database T)) : Prop where
  durable : c'.durable = c.durable
  opened : c'.opened = c.opened
  log : ∃ n, c'.log = c.log ++ List.replicate n .select

theorem Selected.trans {c' c'' : Link MigrationCall (Database T)} (first : Selected c c')
    (later : Selected c' c'') : Selected c c'' := by
  obtain ⟨n, log⟩ := first.log
  obtain ⟨k, log'⟩ := later.log
  refine ⟨later.durable.trans first.durable, later.opened.trans first.opened, n + k, ?_⟩
  rw [log', log, List.append_assoc, List.replicate_append_replicate]

theorem Selected.view {c' : Link MigrationCall (Database T)} (selected : Selected c c') :
    c'.view = c.view := by
  rw [Link.view, selected.durable, selected.opened, Link.view]

theorem Selected.kept {c' : Link MigrationCall (Database T)} (selected : Selected c c')
    (kept : Bookkept versions d c) : Bookkept versions d c' where
  durable := selected.durable ▸ kept.durable
  view := selected.view ▸ kept.view
  quiet := by
    obtain ⟨n, log⟩ := selected.log
    rw [log, List.forall_mem_append]
    refine ⟨kept.quiet, fun call mem => ?_⟩
    rw [List.eq_of_mem_replicate mem]
    rfl

theorem select_ends {α : Type} {query : Database T → α} :
    Ends (fun a c' => a = query c.view ∧ Selected c c')
      (fun halt c' => Selected c c' ∧ plan.Excuses halt)
      ((.read .select .lost query : Engine T ε α) plan c) :=
  have here : Selected c (c.logged .select) := ⟨rfl, rfl, 1, rfl⟩
  Ends.read ⟨rfl, here⟩ fun _ interrupts => ⟨here, interrupts.excuses⟩

theorem versionTableExists_ends :
    Ends (fun a c' => a = c.view.versionTable.isSome ∧ Selected c c')
      (fun halt c' => Selected c c' ∧ plan.Excuses halt)
      (versionTableExists ex plan c) :=
  select_ends.mono (fun _ _ here => here) fun _ _ here => here

theorem selectRows_ends {α : Type} {query : Database T → List α}
    (empty : ∀ d : Database T, d.versionTable = none → query d = []) :
    Ends (fun a c' => a = query c.view ∧ Selected c c')
      (fun halt c' => Selected c c' ∧ plan.Excuses halt)
      ((do
        if !(← versionTableExists ex) then return []
        .read .select .lost query : Engine T ε (List α)) plan c) := by
  refine Ends.via _ versionTableExists_ends ?_
  rintro present c' ⟨answer, selected⟩
  cases present with
  | false =>
    refine Ends.pure ⟨?_, selected⟩
    rw [empty _ (Option.isSome_eq_false_iff.mp answer.symm |> Option.isNone_iff_eq_none.mp)]
  | true =>
    refine select_ends.mono ?_ fun halt c'' here => ⟨selected.trans here.1, here.2⟩
    rintro a c'' ⟨rfl, selected'⟩
    exact ⟨by rw [selected.view], selected.trans selected'⟩

theorem appliedVersions_ends :
    Ends (fun a c' => a = c.view.versions ∧ Selected c c')
      (fun halt c' => Selected c c' ∧ plan.Excuses halt)
      (appliedVersions ex plan c) :=
  selectRows_ends fun d none_table => by
    rw [Database.versions, Database.rows, none_table]; rfl

theorem recordedDigests_ends :
    Ends (fun a c' => a = recordedOf c.view ∧ Selected c c')
      (fun halt c' => Selected c c' ∧ plan.Excuses halt)
      (recordedDigests ex plan c) :=
  selectRows_ends fun d none_table => List.map_eq_nil_iff.mpr (by
    rw [Database.rows, none_table]; rfl)

theorem currentVersion_ends :
    Ends (fun _ c' => Selected c c') (fun halt c' => Selected c c' ∧ plan.Excuses halt)
      (currentVersion ex plan c) :=
  Ends.via _ appliedVersions_ends fun _ _ here => Ends.pure here.2

theorem markDigestMismatch_ends {version : ℤ} (listed : version ∈ versions)
    (kept : Bookkept versions d c) :
    Ends (fun _ c' => Bookkept versions d c')
      (fun halt c' => Bookkept versions d c' ∧ plan.Excuses halt)
      (markDigestMismatch ex version plan c) := by
  have tried : Ends (fun _ c' => Bookkept versions d c')
      (fun halt c' => Bookkept versions d c'
        ∧ ((∀ fault, halt ≠ .raised fault) → plan.Excuses halt))
      ((do
        .change ex.implicit (.markMismatch version) .lost fun d =>
          if d.versionTable.isSome then .ok (d.mark [version]) else .error .noVersionTable
        Procedure.commit .commit .lost : Engine T ε Unit) plan c) := by
    refine Ends.via (fun _ c' => Bookkept versions d c') (Ends.change ?_ ?_ ?_)
      fun _ c' kept' => ?_
    · intro d' went
      split at went
      · cases went
        obtain ⟨marked, sub, view⟩ := kept.view
        have more : marked ++ [version] ⊆ versions :=
          List.append_subset.mpr ⟨sub, List.cons_subset.mpr ⟨listed, List.nil_subset _⟩⟩
        have new : c.view.mark [version] = d.mark (marked ++ [version]) := by rw [view, mark_mark]
        refine ⟨?_, ⟨_, more, Link.put_view.trans new⟩, ?_⟩
        · rcases Link.put_durable with same | changed
          · rw [same]; exact kept.durable
          · rw [changed]; exact ⟨_, more, new⟩
        · rw [Link.put_log]; exact (kept.logged rfl).quiet
      · cases went
    · intro fault refused
      exact ⟨kept.logged rfl, fun other => absurd rfl (other fault)⟩
    · intro halt interrupts
      exact ⟨kept.logged rfl, fun _ => interrupts.excuses⟩
    · refine Ends.commit ⟨?_, ?_, ?_⟩ fun _ interrupts =>
        ⟨kept'.logged rfl, fun _ => interrupts.excuses⟩
      · exact kept'.view
      · exact kept'.view
      · exact (kept'.logged rfl).quiet
  refine Ends.via (fun _ c' => Bookkept versions d c') (Ends.outcome (tried.mono ?_ ?_))
    fun _ c' here => Ends.pure here
  · intro _ _ here
    exact here
  · intro _ _ here
    exact ⟨fun _ _ => here.1, fun other => ⟨here.1, here.2 other⟩⟩

/-- Neither marks nor their commits fail: the bookkeeping goes through. -/
def Steady (plan : Plan Reading MigrationCall) : Prop :=
  ∀ i, plan.fate i .commit ≠ .fails ∧ ∀ version, plan.fate i (.markMismatch version) ≠ .fails

theorem markDigestMismatch_steady {version : ℤ} (steady : Steady plan)
    (present : c.durable.versionTable.isSome = true) (closed : c.opened = none) :
    Ends (fun _ c' => c'.opened = none ∧ c'.durable = c.durable.mark [version])
      (fun _ _ => True) (markDigestMismatch ex version plan c) := by
  have seen := Link.view_of_opened closed
  have tried : Ends (fun _ c' => c'.opened = none ∧ c'.durable = c.durable.mark [version])
      (fun halt _ => ∀ fault, halt ≠ .raised fault)
      ((do
        .change ex.implicit (.markMismatch version) .lost fun d =>
          if d.versionTable.isSome then .ok (d.mark [version]) else .error .noVersionTable
        Procedure.commit .commit .lost : Engine T ε Unit) plan c) := by
    refine Ends.via (fun _ c' => c'.view = c.durable.mark [version]) (Ends.change ?_ ?_ ?_)
      fun _ c' view => ?_
    · intro d' went
      rw [seen, if_pos present] at went
      cases went
      exact Link.put_view
    · intro fault refused
      rw [seen, if_pos present] at refused
      cases refused
    · rintro halt interrupts fault rfl
      exact (steady _).2 _ interrupts.2.choose_spec
    · refine Ends.commit ⟨rfl, view⟩ ?_
      rintro halt interrupts fault rfl
      exact (steady _).1 interrupts.2.choose_spec
  refine Ends.via (fun _ c' => c'.opened = none ∧ c'.durable = c.durable.mark [version])
    (Ends.outcome (tried.mono (fun _ _ here => here) ?_)) fun _ c' here => Ends.pure here
  intro halt _ other
  exact ⟨fun fault raised => absurd raised (other fault), fun _ => trivial⟩

theorem markDrifted_ends {recorded : List (ℤ × String)} {migrations : List (Migration T ε)}
    (listed : ∀ m ∈ migrations, drifts ex sha256 recorded m = true → m.version ∈ versions)
    (kept : Bookkept versions d c) :
    Ends (fun _ c' => Bookkept versions d c')
      (fun halt c' => Bookkept versions d c' ∧ plan.Excuses halt)
      (markDrifted ex sha256 recorded migrations plan c) := by
  induction migrations generalizing c with
  | nil => exact Ends.pure kept
  | cons m rest ih =>
    have later := List.forall_mem_cons.mp listed
    rw [markDrifted]
    split
    · next drifted =>
      refine (markDigestMismatch_ends (later.1 drifted) kept).bind (fun _ _ here => here) ?_
      intro _ c' kept'
      exact (ih later.2 kept').bind (fun _ _ here => here) fun _ _ here => Ends.pure here
    · exact ih later.2 kept

theorem markDrifted_steady {recorded : List (ℤ × String)} {migrations : List (Migration T ε)}
    (steady : Steady plan) (present : c.durable.versionTable.isSome = true)
    (closed : c.opened = none) :
    Ends (fun _ c' => c'.opened = none ∧ c'.durable = c.durable.mark
        ((migrations.filter (drifts ex sha256 recorded)).map Migration.version))
      (fun _ _ => True) (markDrifted ex sha256 recorded migrations plan c) := by
  induction migrations generalizing c with
  | nil => exact Ends.pure ⟨closed, mark_nil.symm⟩
  | cons m rest ih =>
    rw [markDrifted]
    split
    · next drifted =>
      refine (markDigestMismatch_steady steady present closed).bind (fun _ _ here => here) ?_
      rintro _ c' ⟨closed', durable'⟩
      have present' : c'.durable.versionTable.isSome = true := by
        rw [durable', isSome_mark, present]
      refine (ih present' closed').bind (fun _ _ here => here) ?_
      rintro _ c'' ⟨closed'', durable''⟩
      refine Ends.pure ⟨closed'', ?_⟩
      rw [durable'', durable', mark_mark, List.filter_cons_of_pos drifted, List.map_cons]
      rfl
    · next steadfast =>
      rw [List.filter_cons_of_neg steadfast]
      exact ih present closed

theorem driftedVersions_of_empty {migrations : List (Migration T ε)} (empty : d.versions = []) :
    driftedVersions ex sha256 migrations d = [] := by
  have none_recorded : recordedOf d = [] := by
    rw [recordedOf, List.map_eq_nil_iff]
    exact List.map_eq_nil_iff.mp empty
  rw [driftedVersions, none_recorded, List.map_eq_nil_iff, List.filter_eq_nil_iff]
  intro m _ drifted
  cases drifted

theorem warnDigestDrift_ends {migrations : List (Migration T ε)} (durable : c.durable = d)
    (closed : c.opened = none)
    (kept : Bookkept (driftedVersions ex sha256 migrations d) d c) :
    Ends (fun _ c' => Bookkept (driftedVersions ex sha256 migrations d) d c'
        ∧ (Steady plan → c'.opened = none
          ∧ c'.durable = d.mark (driftedVersions ex sha256 migrations d)))
      (fun halt c' => Bookkept (driftedVersions ex sha256 migrations d) d c'
        ∧ plan.Excuses halt)
      (warnDigestDrift ex sha256 migrations d.versions plan c) := by
  unfold warnDigestDrift
  split
  · next empty =>
    refine Ends.pure ⟨kept, fun _ => ⟨closed, ?_⟩⟩
    rw [driftedVersions_of_empty (List.isEmpty_iff.mp empty), mark_nil, durable]
  next some_row =>
  have present : d.versionTable.isSome = true := by
    by_contra absent
    rw [Option.not_isSome_iff_eq_none] at absent
    rw [Database.versions, Database.rows, absent] at some_row
    exact some_row rfl
  refine recordedDigests_ends.bind (fun _ _ here => ⟨here.1.kept kept, here.2⟩) ?_
  rintro recorded c' ⟨rfl, selected⟩
  rw [Link.view_of_opened closed, durable]
  have durable' := selected.durable.trans durable
  have kept' := selected.kept kept
  have general : Ends (fun _ c'' => Bookkept (driftedVersions ex sha256 migrations d) d c'')
      (fun halt c'' => Bookkept (driftedVersions ex sha256 migrations d) d c''
        ∧ plan.Excuses halt)
      (markDrifted ex sha256 (recordedOf d) migrations plan c') :=
    markDrifted_ends (fun m mem drifted =>
      List.mem_map_of_mem (List.mem_filter.mpr ⟨mem, drifted⟩)) kept'
  by_cases steady : Steady plan
  · have marks : Ends _ _ (markDrifted ex sha256 (recordedOf d) migrations plan c') :=
      markDrifted_steady steady (durable' ▸ present) (selected.opened.trans closed)
    refine (general.and marks).mono ?_ fun _ _ here => here.1
    rintro _ c'' ⟨kept'', opened'', durable''⟩
    exact ⟨kept'', fun _ => ⟨opened'', by rw [durable'', durable']; rfl⟩⟩
  · exact general.mono (fun _ _ here => ⟨here, fun is => absurd is steady⟩) fun _ _ here => here

end Marks

/-! ## A whole run -/

/-- The migrations that are not recorded yet, in their order. -/
def pendingOf (migrations : List (Migration T ε)) (d : Database T) : List (Migration T ε) :=
  (inOrder migrations).filter fun m => m.version ∉ d.versions

/-- Whether a run takes the database for one from before the version table. -/
def legacyOf (ex : Executor T ε) (migrations : List (Migration T ε)) (d : Database T) : Bool :=
  match pendingOf migrations d with
  | [] => false
  | first :: _ => baselineOf ex (!d.versionTable.isSome) first d.withVersionTable

/-- No two migrations have one version. -/
def Distinct (migrations : List (Migration T ε)) : Prop :=
  ((inOrder migrations).map Migration.version).Nodup

/-- What a run may have made of the database before the first migration. -/
def Prepared (ex : Executor T ε) (sha256 : String → String) (migrations : List (Migration T ε))
    (d base : Database T) : Prop :=
  ∃ marked ⊆ driftedVersions ex sha256 (inOrder migrations) d,
    base = d.mark marked ∨ base = (d.mark marked).withVersionTable

/-- The database when everything is ready for the first migration. -/
def readied (ex : Executor T ε) (sha256 : String → String) (migrations : List (Migration T ε))
    (d : Database T) : Database T :=
  (d.mark (driftedVersions ex sha256 (inOrder migrations) d)).withVersionTable

section Whole

variable {ex : Executor T ε} {sha256 : String → String} {plan : Plan Reading MigrationCall}
  {c : Link MigrationCall (Database T)} {d : Database T} {migrations : List (Migration T ε)}

theorem assertUniqueVersions_ends {seen : List ℤ} :
    Ends (fun _ c' => c' = c ∧ (∀ m ∈ migrations, m.version ∉ seen)
        ∧ (migrations.map Migration.version).Nodup)
      (fun _ c' => c' = c ∧ ¬ ((∀ m ∈ migrations, m.version ∉ seen)
        ∧ (migrations.map Migration.version).Nodup))
      ((assertUniqueVersions seen migrations : Engine T ε Unit) plan c) := by
  induction migrations generalizing seen with
  | nil => exact Ends.pure ⟨rfl, fun _ mem => absurd mem List.not_mem_nil, List.nodup_nil⟩
  | cons m rest ih =>
    have unfolded : (∀ other ∈ m :: rest, other.version ∉ seen)
          ∧ ((m :: rest).map Migration.version).Nodup
        ↔ m.version ∉ seen ∧ (∀ other ∈ rest, other.version ∉ m.version :: seen)
          ∧ (rest.map Migration.version).Nodup := by
      rw [List.forall_mem_cons, List.map_cons, List.nodup_cons]
      simp only [List.mem_map, List.mem_cons, not_or, not_exists, not_and]
      grind
    rw [assertUniqueVersions]
    split
    · next twice =>
      exact Ends.raise ⟨rfl, fun unique => (unfolded.mp unique).1 twice⟩
    · next fresh =>
      refine ih.mono ?_ ?_
      · rintro _ c' ⟨same, unique⟩
        exact ⟨same, unfolded.mpr ⟨fresh, unique⟩⟩
      · rintro halt c' ⟨same, clash⟩
        exact ⟨same, fun unique => clash (unfolded.mp unique).2⟩

theorem backupSqlite_ends :
    Ends (fun _ c' => c'.durable = c.durable ∧ c'.opened = c.opened)
      (fun halt c' => c'.durable = c.durable ∧ plan.Excuses halt)
      ((backupSqlite : Engine T ε String) plan c) := by
  unfold backupSqlite
  change Ends _ _ ((match (plan.reading c.log.length).backupTarget with
    | none => _
    | some target => _ : Engine T ε String) plan c)
  cases (plan.reading c.log.length).backupTarget with
  | none => exact Ends.pure ⟨rfl, rfl⟩
  | some target =>
    refine Ends.via (fun _ c' => c'.durable = c.durable ∧ c'.opened = c.opened)
      (Ends.outcome (Ends.read ⟨rfl, rfl⟩ ?_)) ?_
    · intro halt interrupts
      exact ⟨fun _ _ => ⟨rfl, rfl⟩, fun _ => ⟨rfl, interrupts.excuses⟩⟩
    · rintro _ c' ⟨durable, opened⟩
      exact Ends.read ⟨durable, opened⟩ fun _ interrupts => ⟨durable, interrupts.excuses⟩

theorem ensureVersionTable_ends :
    Ends (fun _ c' => c'.opened = none ∧ c'.durable = c.view.withVersionTable)
      (fun halt c' => (c'.durable = c.durable ∨ c'.durable = c.view.withVersionTable)
        ∧ plan.Excuses halt)
      (ensureVersionTable ex plan c) := by
  refine Ends.via (fun _ c' => c'.view = c.view.withVersionTable
    ∧ (c'.durable = c.durable ∨ c'.durable = c.view.withVersionTable)) (Ends.change ?_ ?_ ?_) ?_
  · intro d' went
    cases went
    exact ⟨Link.put_view, Link.put_durable⟩
  · intro fault refused
    cases refused
  · intro halt interrupts
    exact ⟨.inl rfl, interrupts.excuses⟩
  · rintro _ c' ⟨view, durable⟩
    exact Ends.commit ⟨rfl, view⟩ fun _ interrupts => ⟨durable, interrupts.excuses⟩

/-- How a run that returned has left the database. -/
def Completed (ex : Executor T ε) (sha256 : String → String) (migrations : List (Migration T ε))
    (plan : Plan Reading MigrationCall) (d : Database T)
    (c : Link MigrationCall (Database T)) : Prop :=
  Distinct migrations
    ∧ ((pendingOf migrations d = []
        ∧ Bookkept (driftedVersions ex sha256 (inOrder migrations) d) d c
        ∧ (Steady plan → c.durable = d.mark (driftedVersions ex sha256 (inOrder migrations) d)))
      ∨ (pendingOf migrations d ≠ [] ∧ ∃ base, Prepared ex sha256 migrations d base
        ∧ (Steady plan → base = readied ex sha256 migrations d)
        ∧ Chain ex sha256 plan.Fails (legacyOf ex migrations d) (pendingOf migrations d) base
          c.durable))

/-- How a run that halted has left it: before the loop, or in it. -/
def Interrupted (ex : Executor T ε) (sha256 : String → String) (migrations : List (Migration T ε))
    (plan : Plan Reading MigrationCall) (d : Database T) (halt : Halt (Fault ε))
    (c : Link MigrationCall (Database T)) : Prop :=
  (pendingOf migrations d = [] → Bookkept (driftedVersions ex sha256 (inOrder migrations) d) d c)
    ∧ ((Prepared ex sha256 migrations d c.durable ∧ (plan.Excuses halt ∨ ¬ Distinct migrations))
      ∨ (Distinct migrations ∧ ∃ base before after, Prepared ex sha256 migrations d base
        ∧ (Steady plan → base = readied ex sha256 migrations d)
        ∧ pendingOf migrations d = before ++ after
        ∧ Chain ex sha256 plan.Fails (legacyOf ex migrations d) before base c.durable
        ∧ (plan.Excuses halt ∨ Stuck ex sha256 (legacyOf ex migrations d) after c.durable)))

theorem Bookkept.prepared
    (kept : Bookkept (driftedVersions ex sha256 (inOrder migrations) d) d c) :
    Prepared ex sha256 migrations d c.durable := by
  obtain ⟨marked, sub, same⟩ := kept.durable
  exact ⟨marked, sub, .inl same⟩

theorem runAll_ends :
    Ends (fun _ c => Completed ex sha256 migrations plan d c)
      (fun halt c => Interrupted ex sha256 migrations plan d halt c)
      (runAll ex sha256 migrations plan (.start d)) := by
  have kept : Bookkept (driftedVersions ex sha256 (inOrder migrations) d) d
    (.start d : Link MigrationCall (Database T)) := bookkept_start
  refine assertUniqueVersions_ends.bind ?_ ?_
  · rintro halt c ⟨rfl, clash⟩
    refine ⟨fun _ => kept, .inl ⟨kept.prepared, .inr fun distinct => clash ⟨?_, distinct⟩⟩⟩
    exact fun m _ => List.not_mem_nil
  rintro _ c ⟨rfl, -, distinct⟩
  have early : ∀ {halt : Halt (Fault ε)} {c : Link MigrationCall (Database T)},
      Bookkept (driftedVersions ex sha256 (inOrder migrations) d) d c ∧ plan.Excuses halt →
      Interrupted ex sha256 migrations plan d halt c :=
    fun here => ⟨fun _ => here.1, .inl ⟨here.1.prepared, .inl here.2⟩⟩
  refine versionTableExists_ends.bind (fun _ _ here => early ⟨here.1.kept kept, here.2⟩) ?_
  rintro had c₁ ⟨had_eq, selected₁⟩
  refine appliedVersions_ends.bind
    (fun _ _ here => early ⟨(selected₁.trans here.1).kept kept, here.2⟩) ?_
  rintro applied c₂ ⟨rfl, selected₂⟩
  have selected := selected₁.trans selected₂
  rw [selected₁.view, show (Link.start d : Link MigrationCall (Database T)).view = d from rfl]
  refine (warnDigestDrift_ends (show c₂.durable = d from selected.durable) selected.opened
    (selected.kept kept)).bind (fun _ _ => early) ?_
  rintro _ c₃ ⟨kept₃, steady₃⟩
  dsimp only
  rw [show (inOrder migrations).filter (fun m => m.version ∉ d.versions)
    = pendingOf migrations d from rfl]
  rcases waiting : pendingOf migrations d with _ | ⟨first, rest⟩
  · exact Ends.pure ⟨distinct, .inl ⟨waiting, kept₃, fun steady => (steady₃ steady).2⟩⟩
  have busy : pendingOf migrations d ≠ [] := by rw [waiting]; exact List.cons_ne_nil _ _
  have late : ∀ {halt : Halt (Fault ε)} {c : Link MigrationCall (Database T)},
      Prepared ex sha256 migrations d c.durable ∧ plan.Excuses halt →
      Interrupted ex sha256 migrations plan d halt c :=
    fun here => ⟨fun idle => absurd idle busy, .inl ⟨here.1, .inl here.2⟩⟩
  obtain ⟨marked, sub, view₃⟩ := kept₃.view
  refine backupSqlite_ends.bind ?_ ?_
  · rintro halt c ⟨same, excuses⟩
    exact late ⟨same ▸ kept₃.prepared, excuses⟩
  rintro path c₄ ⟨durable₄, opened₄⟩
  have view₄ : c₄.view = d.mark marked := by
    rw [← view₃, Link.view, opened₄, durable₄, Link.view]
  refine ensureVersionTable_ends.bind ?_ ?_
  · rintro halt c ⟨same | made, excuses⟩
    · exact late ⟨by rw [same, durable₄]; exact kept₃.prepared, excuses⟩
    · exact late ⟨⟨marked, sub, .inr (by rw [made, view₄])⟩, excuses⟩
  rintro _ c₅ ⟨closed₅, durable₅⟩
  rw [view₄] at durable₅
  have prepared₅ : Prepared ex sha256 migrations d c₅.durable := ⟨marked, sub, .inr durable₅⟩
  have ready₅ : Steady plan → c₅.durable = readied ex sha256 migrations d := by
    intro steady
    obtain ⟨closed, marks⟩ := steady₃ steady
    rw [durable₅, readied, ← view₃, Link.view_of_opened closed, marks]
  refine probes_ends.bind ?_ ?_
  · rintro halt c ⟨same, excuses⟩
    exact late ⟨same ▸ prepared₅, excuses⟩
  rintro legacy c₆ ⟨answer, durable₆, opened₆⟩
  have legacy_eq : legacy = legacyOf ex migrations d := by
    rw [answer, legacyOf, waiting, had_eq, Link.view_of_opened closed₅, durable₅]
    rfl
  refine (migrateEach_ends (opened₆.trans closed₅)).bind ?_ ?_
  · rintro halt c ⟨before, after, split, chain, why⟩
    rw [durable₆, legacy_eq] at chain
    rw [legacy_eq] at why
    exact ⟨fun idle => absurd idle busy, .inr ⟨distinct, c₅.durable, before, after, prepared₅,
      ready₅, waiting.trans split, chain, why⟩⟩
  rintro report c₇ ⟨closed₇, chain⟩
  rw [durable₆, legacy_eq, ← waiting] at chain
  refine currentVersion_ends.bind ?_ ?_
  · rintro halt c ⟨selected, excuses⟩
    refine ⟨fun idle => absurd idle busy, .inr ⟨distinct, c₅.durable, _, [], prepared₅, ready₅,
      (List.append_nil _).symm, ?_, .inl excuses⟩⟩
    rw [selected.durable]
    exact chain
  · intro _ c selected
    refine Ends.pure ⟨distinct, .inr ⟨busy, c₅.durable, prepared₅, ready₅, ?_⟩⟩
    rw [selected.durable]
    exact chain

/-! ## Runs that fail, and runs again -/

theorem drifts_iff {m : Migration T ε} :
    drifts ex sha256 (recordedOf d) m = true ↔ ∃ row ∈ d.rows, row.version = m.version
      ∧ row.sqlDigest ≠ "" ∧ row.sqlDigest ≠ m.digest sha256 ex.dialect := by
  unfold drifts
  constructor
  · intro drifted
    split at drifted
    · cases drifted
    · next expected found =>
      obtain ⟨row, mem, version, rfl⟩ := lookup_recorded.mp found
      rw [Bool.and_eq_true, decide_eq_true_eq, decide_eq_true_eq] at drifted
      exact ⟨row, mem, version, drifted.1, drifted.2⟩
  · rintro ⟨row, mem, version, nonempty, other⟩
    rw [show (recordedOf d).lookup m.version = some row.sqlDigest from
      lookup_recorded.mpr ⟨row, mem, version, rfl⟩]
    simp [nonempty, other]

theorem marked_of_drifted {migrations : List (Migration T ε)} {row : VersionRow}
    (here : row ∈ (d.mark (driftedVersions ex sha256 migrations d)).rows) {m : Migration T ε}
    (mem : m ∈ migrations) (version : row.version = m.version) (nonempty : row.sqlDigest ≠ "")
    (other : row.sqlDigest ≠ m.digest sha256 ex.dialect) :
    row.status = statusDigestMismatch := by
  rw [rows_mark] at here
  obtain ⟨before, there, rfl⟩ := List.mem_map.mp here
  have digest : ∀ versions, (before.mark versions).sqlDigest = before.sqlDigest := by
    intro versions
    unfold VersionRow.mark
    split <;> rfl
  rw [digest] at nonempty other
  rw [VersionRow.mark_version] at version
  have drifted : drifts ex sha256 (recordedOf d) m = true :=
    drifts_iff.mpr ⟨before, there, version, nonempty, other⟩
  have listed : before.version ∈ driftedVersions ex sha256 migrations d := by
    rw [version]
    exact List.mem_map_of_mem (List.mem_filter.mpr ⟨mem, drifted⟩)
  rw [VersionRow.mark, if_pos listed]

theorem Prepared.same {base : Database T} (prepared : Prepared ex sha256 migrations d base) :
    base.tables = d.tables ∧ base.versions = d.versions := by
  obtain ⟨marked, -, rfl | rfl⟩ := prepared
  · exact ⟨rfl, versions_mark⟩
  · exact ⟨rfl, versions_withVersionTable.trans versions_mark⟩

theorem Completed.pending (completed : Completed ex sha256 migrations plan d c) :
    pendingOf migrations c.durable = [] := by
  refine List.filter_eq_nil_iff.mpr fun m mem waiting => ?_
  rw [decide_eq_true_eq] at waiting
  apply waiting
  obtain ⟨-, ⟨idle, kept, -⟩ | ⟨-, base, prepared, -, chain⟩⟩ := completed
  · obtain ⟨marked, -, same⟩ := kept.durable
    have recorded := List.filter_eq_nil_iff.mp idle m mem
    rw [decide_eq_true_eq, not_not] at recorded
    rw [same, versions_mark]
    exact recorded
  · rw [chain.versions, prepared.same.2, List.mem_append]
    by_cases recorded : m.version ∈ d.versions
    · exact .inl recorded
    · exact .inr (List.mem_map_of_mem (List.mem_filter.mpr ⟨mem, by simpa using recorded⟩))

/-- What a chain adds does not drift: where all that had drifted was marked before, nothing is left
to mark. -/
theorem Chain.settled {faulty : Prop} {legacy : Bool} {before : List (Migration T ε)}
    {base after : Database T} (distinct : Distinct migrations)
    (sub : ∀ m ∈ before, m ∈ inOrder migrations)
    (marks : base.rows = (d.mark (driftedVersions ex sha256 (inOrder migrations) d)).rows)
    (chain : Chain ex sha256 faulty legacy before base after) {marked : List ℤ}
    (listed : marked ⊆ driftedVersions ex sha256 (inOrder migrations) after) :
    after.mark marked = after := by
  refine mark_eq_self fun row here drifting => ?_
  obtain ⟨m, mem, version⟩ := List.mem_map.mp (listed drifting)
  obtain ⟨mem, drifted⟩ := List.mem_filter.mp mem
  obtain ⟨row', there, version', nonempty, other⟩ := drifts_iff.mp drifted
  cases eq_of_same_version here there (version.symm.trans version'.symm)
  obtain ⟨added, records, rows⟩ := chain.rows
  rw [rows, marks, List.mem_append] at here
  rcases here with old | new
  · exact marked_of_drifted old mem version' nonempty other
  · -- a row that was inserted holds the digest of its migration
    obtain ⟨i, bound, rfl⟩ := List.getElem_of_mem new
    have length := records.length_eq
    obtain ⟨baseline, now, recorded⟩ := records.get (by omega) bound
    have same : before[i] = m :=
      List.inj_on_of_nodup_map distinct (sub _ (List.getElem_mem _)) mem (by
        rw [← version']; exact (congrArg VersionRow.version recorded).symm)
    rw [List.get_eq_getElem, List.get_eq_getElem, same] at recorded
    exact absurd (congrArg VersionRow.sqlDigest recorded) other

theorem mem_inOrder_of_pending {m : Migration T ε} (mem : m ∈ pendingOf migrations d) :
    m ∈ inOrder migrations := List.mem_of_mem_filter mem

theorem Completed.settled (completed : Completed ex sha256 migrations plan d c)
    (steady : Steady plan) {marked : List ℤ}
    (sub : marked ⊆ driftedVersions ex sha256 (inOrder migrations) c.durable) :
    c.durable.mark marked = c.durable := by
  obtain ⟨distinct, ⟨-, -, marks⟩ | ⟨-, base, -, ready, chain⟩⟩ := completed
  · have nothing : Chain ex sha256 False false [] c.durable c.durable := .nil
    exact nothing.settled distinct (fun _ mem => absurd mem List.not_mem_nil)
      (by rw [← marks steady]) sub
  · have marks : base.rows
        = (d.mark (driftedVersions ex sha256 (inOrder migrations) d)).rows := by
      rw [ready steady, readied, rows_withVersionTable]
    exact chain.settled distinct (fun _ => mem_inOrder_of_pending) marks sub

/-- The database after a run that did not get to its end: the migrations before some point of the
list are there as a whole, each with its row, and the others not at all. -/
def FailedAtomically (ex : Executor T ε) (sha256 : String → String)
    (migrations : List (Migration T ε)) (plan : Plan Reading MigrationCall)
    (d after : Database T) : Prop :=
  ∃ base before rest added, Prepared ex sha256 migrations d base
    ∧ pendingOf migrations d = before ++ rest
    ∧ Chain ex sha256 plan.Fails (legacyOf ex migrations d) before base after
    ∧ List.Forall₂ (Records ex sha256) before added ∧ after.rows = base.rows ++ added
    ∧ ∀ m ∈ rest, m.version ∉ after.versions

/-- The law of `run_all`. -/
structure AtomicLaw (ex : Executor T ε) (sha256 : String → String)
    (migrations : List (Migration T ε)) (d : Database T) : Prop where
  failed : ∀ plan halt c, runAll ex sha256 migrations plan (.start d) = (.error halt, c) →
    FailedAtomically ex sha256 migrations plan d c.durable
  /-- A run after one that returned carries out no migration. -/
  again_quiet : ∀ plan report c, runAll ex sha256 migrations plan (.start d) = (.ok report, c) →
    ∀ plan', ∀ call ∈ (runAll ex sha256 migrations plan' (.start c.durable)).2.log,
      call.ofMigration = false
  /-- It changes nothing, unless the first was left with a mark it could not set. -/
  again_same : ∀ plan report c, runAll ex sha256 migrations plan (.start d) = (.ok report, c) →
    Steady plan → ∀ plan',
      (runAll ex sha256 migrations plan' (.start c.durable)).2.durable = c.durable

theorem Completed.again (completed : Completed ex sha256 migrations plan d c)
    (plan' : Plan Reading MigrationCall) :
    Bookkept (driftedVersions ex sha256 (inOrder migrations) c.durable) c.durable
      (runAll ex sha256 migrations plan' (.start c.durable)).2 := by
  have ends : Ends _ _ (runAll ex sha256 migrations plan' (.start c.durable)) := runAll_ends
  generalize runAll ex sha256 migrations plan' (.start c.durable) = run at ends
  obtain ⟨halt | report, c'⟩ := run
  · exact ends.1 completed.pending
  · obtain ⟨-, ⟨-, kept, -⟩ | ⟨busy, -⟩⟩ := ends
    · exact kept
    · exact absurd completed.pending busy

/-- **`run_all` is atomic per migration, and a run after a complete one does nothing.** -/
theorem runAll_atomic : AtomicLaw ex sha256 migrations d := by
  have completed : ∀ {plan report c},
      runAll ex sha256 migrations plan (.start d) = (.ok report, c) →
      Completed ex sha256 migrations plan d c := by
    intro plan report c run
    have ends : Ends _ _ (runAll ex sha256 migrations plan (.start d)) := runAll_ends
    rw [run] at ends
    exact ends
  constructor
  · intro plan halt c run
    have ends : Ends _ _ (runAll ex sha256 migrations plan (.start d)) := runAll_ends
    rw [run] at ends
    have early : ∀ m ∈ pendingOf migrations d, m.version ∉ d.versions := fun m mem => by
      simpa using (List.mem_filter.mp mem).2
    obtain ⟨-, ⟨prepared, -⟩ | ⟨distinct, base, before, rest, prepared, -, split, chain, -⟩⟩ := ends
    · refine ⟨c.durable, [], _, [], prepared, rfl, .nil, .nil, (List.append_nil _).symm, ?_⟩
      rw [prepared.same.2]
      exact early
    obtain ⟨added, records, rows⟩ := chain.rows
    refine ⟨base, before, rest, added, prepared, split, chain, records, rows, ?_⟩
    intro m mem
    have waiting : m ∈ pendingOf migrations d := split ▸ List.mem_append_right before mem
    rw [chain.versions, prepared.same.2, List.mem_append, not_or]
    refine ⟨early m waiting, fun there => ?_⟩
    have nodup : ((before ++ rest).map Migration.version).Nodup :=
      split ▸ distinct.sublist (List.Sublist.map _ List.filter_sublist)
    rw [List.map_append, List.nodup_append] at nodup
    exact nodup.2.2 _ there _ (List.mem_map_of_mem mem) rfl
  · intro plan report c run plan'
    exact ((completed run).again plan').quiet
  · intro plan report c run steady plan'
    obtain ⟨marked, sub, same⟩ := ((completed run).again plan').durable
    rw [same, (completed run).settled steady sub]

end Whole

end Zhongzhuan.Store.MigrationEngine
