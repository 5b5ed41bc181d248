import Zhongzhuan.Kit.Schedule
import Zhongzhuan.Kit.WakeUp
import Zhongzhuan.Store.WorkerLoop

/-!
# The idle wait of the background worker

The model of `BackgroundWorker.start`, `_idle_wait`, `notify` and `enqueue`
(`responses_v3/background.py`), cut at the points where they are suspended, with any number of
enqueues and with whatever else is done to the rows of `background_jobs`.

* `JobAction` is one statement on the table, from this process or from another, or time that
  passes.  An enqueue is an `insert` and later its `notify`.
* `WorkerAction` adds what the loop does: it clears the event and reads the clock, peeks at that
  time, and waits if it finds nothing.
* `waiting_quiet`: the loop does not wait on an event that is not set while a job whose enqueue is
  done can be claimed and never was.

What `run_job` does to the rows is among the statements.  `mark_terminal` is called with terminal
statuses, and `renew_lease` by who has claimed the job.
-/

namespace Zhongzhuan.Store.JobTable

variable (table : JobTable) (taskId : String)

theorem nodup_insert {row : JobRow} (fresh : taskId ∉ table.jobs.map Prod.fst) :
    ((table.jobs ++ [(taskId, row)]).map Prod.fst).Nodup := by
  rw [List.map_append, List.nodup_append]
  refine ⟨table.unique, List.nodup_singleton _, fun id mem other there => ?_⟩
  obtain rfl := List.mem_singleton.mp there
  rintro rfl
  exact fresh mem

theorem nodup_delete (p : String × JobRow → Bool) :
    ((table.jobs.filter p).map Prod.fst).Nodup :=
  table.unique.sublist (List.filter_sublist.map _)

/-- An `INSERT`; the key may not be there yet. -/
def insert (row : JobRow) : JobTable :=
  if fresh : taskId ∉ table.jobs.map Prod.fst then
    ⟨table.jobs ++ [(taskId, row)], table.nodup_insert taskId fresh⟩
  else table

/-- The `DELETE` of the retention sweep: terminal rows only. -/
def deleteTerminal : JobTable :=
  ⟨table.jobs.filter fun job => !(decide (job.1 = taskId) && job.2.status.terminal),
    table.nodup_delete _⟩

end Zhongzhuan.Store.JobTable

namespace Zhongzhuan.Responses

open Kit Store

/-- The clock, the table, the ids whose row is there but whose enqueue has not notified yet, those
whose enqueue has, and those that were claimed. -/
structure WorkerEnv where
  now : ℕ
  table : JobTable
  inserting : List String
  enqueued : List String
  claimed : List String

/-- A statement on the table, or time that passes. -/
inductive JobAction
  | tick (seconds : ℕ)
  /-- `create_job`, in this process or in another -/
  | insert (taskId : String) (ts expiresAt : ℕ) (here : Bool)
  /-- the `UPDATE` of `claim_job` -/
  | claim (taskId : String) (attempt ts leaseSeconds : ℕ)
  /-- the `UPDATE` of `renew_lease` -/
  | renew (taskId : String) (lease ts leaseSeconds : ℕ)
  | markTerminal (taskId : String) (status : RunStatus) (ts : ℕ)
  | requestCancel (taskId : String) (ts : ℕ)
  | delete (taskId : String)

namespace WorkerEnv

variable (e : WorkerEnv)

/-- Whether the `UPDATE` of `claim_job` matches a row. -/
def claims (taskId : String) (attempt ts leaseSeconds : ℕ) : Bool :=
  e.table.jobs.any fun job =>
    decide (job.1 = taskId) && decide (0 < (job.2.claimUpdate attempt ts leaseSeconds).2)

/-- What a statement does; one that no caller makes does nothing. -/
def act : JobAction → WorkerEnv
  | .tick seconds => { e with now := e.now + seconds }
  | .insert taskId ts expiresAt here =>
    if taskId ∈ e.table.jobs.map Prod.fst then e
    else
      { e with
        table := e.table.insert taskId (JobRow.createJob ts expiresAt)
        inserting := (if here then [taskId] else []) ++ e.inserting.filter (· ≠ taskId)
        enqueued := e.enqueued.filter (· ≠ taskId)
        claimed := e.claimed.filter (· ≠ taskId) }
  | .claim taskId attempt ts leaseSeconds =>
    { e with
      table := e.table.updateAt taskId fun row => (row.claimUpdate attempt ts leaseSeconds).1
      claimed := if e.claims taskId attempt ts leaseSeconds then taskId :: e.claimed
        else e.claimed }
  | .renew taskId lease ts leaseSeconds =>
    if taskId ∈ e.claimed then
      { e with table := e.table.updateAt taskId fun row => row.renewUpdate lease ts leaseSeconds }
    else e
  | .markTerminal taskId status ts =>
    if status.terminal then { e with table := e.table.markTerminal taskId status ts } else e
  | .requestCancel taskId ts =>
    { e with table := e.table.updateAt taskId fun row => row.requestCancel ts }
  | .delete taskId => { e with table := e.table.deleteTerminal taskId }

/-- `notify`, where it is the enqueue of a job that calls it. -/
def notified (taskId : String) : WorkerEnv :=
  { e with
    inserting := e.inserting.filter (· ≠ taskId)
    enqueued := taskId :: e.enqueued }

end WorkerEnv

/-- Where `start` is suspended. -/
inductive LoopPhase
  | stopped
  | ready
  | peeking (ts : ℕ)
  | peeked (taskId : Option String)
  | waiting
  | running (taskId : String)
deriving DecidableEq

structure BackgroundWorker where
  env : WorkerEnv
  wake : Bool
  running : Bool
  phase : LoopPhase

inductive WorkerAction
  | job (action : JobAction)
  | notify (taskId : String)
  | start
  | stop
  /-- an exception, or the task of the loop is cancelled -/
  | fail
  | run
  /-- the poll interval has passed -/
  | timeout

namespace BackgroundWorker

variable (s : BackgroundWorker)

/-- The loop goes on from where it is suspended. -/
def run : BackgroundWorker :=
  match s.phase with
  | .stopped => s
  | .ready =>
    if s.running then { s with wake := false, phase := .peeking s.env.now }
    else { s with phase := .stopped }
  | .peeking ts => { s with phase := .peeked (s.env.table.peekClaimable ts) }
  | .peeked none => if s.wake then { s with phase := .ready } else { s with phase := .waiting }
  | .peeked (some taskId) => { s with phase := .running taskId }
  | .waiting => if s.wake then { s with phase := .ready } else s
  | .running _ => { s with phase := .ready }

def step (s : BackgroundWorker) : WorkerAction → BackgroundWorker
  | .job action => { s with env := s.env.act action }
  | .notify taskId =>
    if taskId ∈ s.env.inserting then { s with env := s.env.notified taskId, wake := true } else s
  | .start =>
    if s.phase = .stopped then { s with running := true, phase := .ready } else s
  | .stop => { s with running := false, wake := true }
  | .fail => { s with running := false, phase := .stopped }
  | .run => s.run
  | .timeout => if s.phase = .waiting then { s with phase := .ready } else s

/-- A worker before `start`, with the rows that earlier processes have left. -/
def initial (table : JobTable) (epoch : ℕ+) : BackgroundWorker where
  env := ⟨epoch, table, [], [], []⟩
  wake := false
  running := false
  phase := .stopped

end BackgroundWorker

/-! ## What a statement leaves -/

/-- A row that nobody has touched but to cancel it or to end it. -/
structure Untouched (row : JobRow) : Prop where
  lease : row.leaseUntil = 0
  attempt : row.attempt = 0

theorem Untouched.claimable {row : JobRow} (untouched : Untouched row) {ts now : ℕ} (pos : 0 < ts)
    (le : ts ≤ now) (h : row.claimable now = true) : row.claimable ts = true := by
  simp only [JobRow.claimable, Bool.and_eq_true, Bool.or_eq_true, decide_eq_true_eq,
    untouched.lease, untouched.attempt] at h ⊢
  obtain ⟨⟨⟨active, -⟩, deadline⟩, attempts⟩ := h
  exact ⟨⟨⟨active, pos⟩, deadline.imp_right (lt_of_le_of_lt le)⟩, attempts⟩

namespace WorkerEnv

variable {e e' : WorkerEnv}

/-- A row of one of this worker's jobs that was never claimed. -/
def Ours (e : WorkerEnv) (job : String × JobRow) : Prop :=
  job ∈ e.table.jobs ∧ (job.1 ∈ e.inserting ∨ job.1 ∈ e.enqueued) ∧ job.1 ∉ e.claimed

/-- What is claimable of the rows that were never claimed was so before, or is new. -/
structure Follows (e e' : WorkerEnv) : Prop where
  now : e.now ≤ e'.now
  row : ∀ job', e'.Ours job' →
    (∃ row, e.Ours (job'.1, row) ∧ (job'.1 ∈ e'.enqueued → job'.1 ∈ e.enqueued)
        ∧ (Untouched row → Untouched job'.2)
        ∧ ∀ t, job'.2.claimable t = true → row.claimable t = true)
      ∨ (job'.1 ∉ e'.enqueued ∧ Untouched job'.2)

theorem follows_updateAt {taskId : String} {change : JobRow → JobRow} {claimed : List String}
    (sub : ∀ id, id ∉ claimed → id ∉ e.claimed)
    (keeps : ∀ row, (taskId, row) ∈ e.table.jobs → taskId ∉ claimed →
      (Untouched row → Untouched (change row))
        ∧ ∀ t, (change row).claimable t = true → row.claimable t = true) :
    Follows e { e with table := e.table.updateAt taskId change, claimed := claimed } where
  now := le_rfl
  row := by
    rintro ⟨id, row'⟩ ⟨mem, ours, free⟩
    left
    obtain ⟨⟨id, row⟩, there, same⟩ := List.mem_map.mp mem
    obtain ⟨rfl, rfl⟩ := Prod.mk.inj same
    refine ⟨row, ⟨there, ours, sub _ free⟩, fun known => known, ?_⟩
    dsimp only
    by_cases here : id = taskId
    · subst here
      rw [if_pos rfl]
      exact keeps row there free
    · rw [if_neg here]
      exact ⟨fun untouched => untouched, fun _ claimable => claimable⟩

theorem follows_refl (e : WorkerEnv) : Follows e e where
  now := le_rfl
  row job ours := .inl ⟨job.2, ours, fun known => known, fun u => u, fun _ c => c⟩

theorem claimable_markTerminal {row : JobRow} {status : RunStatus} {ts t : ℕ}
    (terminal : status.terminal = true) : (row.markTerminal status ts).claimable t = false := by
  simp [JobRow.claimable, JobRow.markTerminal, terminal]

theorem act_follows (e : WorkerEnv) (a : JobAction) : Follows e (e.act a) := by
  cases a with
  | tick seconds =>
    exact ⟨Nat.le_add_right _ _, fun job ours =>
      .inl ⟨job.2, ours, fun known => known, fun u => u, fun _ c => c⟩⟩
  | insert taskId ts expiresAt here =>
    simp only [act]
    split
    · exact follows_refl e
    · next fresh =>
      refine ⟨le_rfl, ?_⟩
      rintro ⟨id, row⟩ ⟨mem, ours, free⟩
      have jobs : (e.table.insert taskId (JobRow.createJob ts expiresAt)).jobs
          = e.table.jobs ++ [(taskId, JobRow.createJob ts expiresAt)] := by
        rw [JobTable.insert, dif_pos fresh]
      dsimp only at mem ours free
      rw [jobs] at mem
      rcases List.mem_append.mp mem with old | new
      · left
        have other : id ≠ taskId := by
          rintro rfl
          exact fresh (List.mem_map_of_mem (f := Prod.fst) old)
        have kept : ∀ ids : List String, id ∈ ids.filter (· ≠ taskId) ↔ id ∈ ids := by
          intro ids
          simp [other]
        rw [kept] at free
        refine ⟨row, ⟨old, ?_, free⟩, (kept _).mp, fun u => u, fun _ c => c⟩
        refine ours.imp (fun inserting => ?_) (kept _).mp
        refine (List.mem_append.mp inserting).elim (fun first => ?_) (kept _).mp
        split at first
        · exact absurd (List.mem_singleton.mp first) other
        · cases first
      · right
        obtain ⟨rfl, rfl⟩ := Prod.mk.inj (List.mem_singleton.mp new)
        exact ⟨by simp, ⟨rfl, rfl⟩⟩
  | claim taskId attempt ts leaseSeconds =>
    refine follows_updateAt (fun id free => ?_) fun row there free => ?_
    · split at free
      · exact fun known => free (List.mem_cons_of_mem _ known)
      · exact free
    · have missed : e.claims taskId attempt ts leaseSeconds = false := by
        refine Bool.eq_false_iff.mpr fun claims => free ?_
        rw [if_pos claims]
        exact List.mem_cons_self
      have same : (row.claimUpdate attempt ts leaseSeconds).1 = row := by
        rw [claims, List.any_eq_false] at missed
        have untouched := missed _ there
        unfold JobRow.claimUpdate at untouched ⊢
        split at untouched
        · exact absurd (by simp) untouched
        · next guard => rw [if_neg guard]
      rw [same]
      exact ⟨fun u => u, fun _ c => c⟩
  | renew taskId lease ts leaseSeconds =>
    simp only [act]
    split
    · next known =>
      exact follows_updateAt (fun _ free => free) fun row _ free => absurd known free
    · exact follows_refl e
  | markTerminal taskId status ts =>
    simp only [act]
    split
    · next terminal =>
      refine follows_updateAt (fun _ free => free) fun row _ _ => ⟨fun u => ⟨u.1, u.2⟩, ?_⟩
      intro t claimable
      rw [claimable_markTerminal terminal] at claimable
      cases claimable
    · exact follows_refl e
  | requestCancel taskId ts =>
    exact follows_updateAt (fun _ free => free) fun row _ _ =>
      ⟨fun u => ⟨u.1, u.2⟩, fun _ claimable => claimable⟩
  | delete taskId =>
    refine ⟨le_rfl, fun job ours => .inl ⟨job.2, ?_, fun known => known, fun u => u, fun _ c => c⟩⟩
    exact ⟨(List.mem_filter.mp ours.1).1, ours.2⟩

/-! ## The two sides of the event -/

/-- The statements and the notifications; a look is a peek at the time of the clear. -/
def sides : Watched.Sides WorkerEnv ℕ where
  move e e' := ∃ a, e' = e.act a
  tell e e' := e' = e ∨ ∃ taskId ∈ e.inserting, e' = e.notified taskId
  stamp e := e.now
  finds e ts := (e.table.peekClaimable ts).isSome

/-- The clock has started, and the rows of this worker that were never claimed are untouched. -/
structure Sound (e : WorkerEnv) : Prop where
  clock : 0 < e.now
  untouched : ∀ job, e.Ours job → Untouched job.2

/-- No job whose enqueue is done can be claimed and never was. -/
def Quiet (e : WorkerEnv) : Prop :=
  ∀ job ∈ e.table.jobs, job.1 ∈ e.enqueued → job.1 ∉ e.claimed → job.2.claimable e.now = false

theorem Follows.sound (follows : Follows e e') (sound : e.Sound) : e'.Sound where
  clock := lt_of_lt_of_le sound.clock follows.now
  untouched job ours := by
    obtain ⟨row, before, -, untouched, -⟩ | ⟨-, new⟩ := follows.row job ours
    · exact untouched (sound.untouched _ before)
    · exact new

theorem Follows.quiet (follows : Follows e e') (sound : e.Sound) (quiet : e.Quiet) : e'.Quiet := by
  intro job mem known free
  rw [← Bool.not_eq_true]
  intro claimable
  obtain ⟨row, before, old, -, later⟩ | ⟨fresh, -⟩ := follows.row job ⟨mem, .inr known, free⟩
  · have then_too := (sound.untouched _ before).claimable sound.clock follows.now
      (later _ claimable)
    rw [quiet _ before.1 (old known) before.2.2] at then_too
    cases then_too
  · exact fresh known

theorem sound_notified (sound : e.Sound) {taskId : String} (inserting : taskId ∈ e.inserting) :
    (e.notified taskId).Sound where
  clock := sound.clock
  untouched := by
    rintro job ⟨mem, ours, free⟩
    refine sound.untouched job ⟨mem, ?_, free⟩
    rcases ours with waiting | known
    · exact .inl (List.mem_filter.mp waiting).1
    · rcases List.mem_cons.mp known with same | known
      · rw [same]
        exact .inl inserting
      · exact .inr known

theorem quiet_of_peek (sound : e.Sound) {ts : ℕ} (pos : 0 < ts) (le : ts ≤ e.now)
    (missed : e.table.peekClaimable ts = none) : e.Quiet := by
  intro job mem known free
  rw [← Bool.not_eq_true]
  intro claimable
  have seen := (sound.untouched job ⟨mem, .inr known, free⟩).claimable pos le claimable
  rw [JobTable.peekClaimable_eq_none.mp missed job mem] at seen
  cases seen

theorem lawful : Watched.Lawful sides Sound Quiet fun e ts => 0 < ts ∧ ts ≤ e.now where
  sound_move := by
    rintro e _ sound ⟨a, rfl⟩
    exact (act_follows e a).sound sound
  sound_tell := by
    rintro e _ sound (rfl | ⟨taskId, inserting, rfl⟩)
    · exact sound
    · exact sound_notified sound inserting
  stamped e sound := ⟨sound.clock, le_rfl⟩
  stamped_move := by
    rintro e _ ts ⟨pos, le⟩ ⟨a, rfl⟩
    exact ⟨pos, le.trans (act_follows e a).now⟩
  stamped_tell := by
    rintro e _ ts stamped (rfl | ⟨taskId, -, rfl⟩)
    · exact stamped
    · exact stamped
  quiet_move := by
    rintro e _ sound quiet ⟨a, rfl⟩
    exact (act_follows e a).quiet sound quiet
  quiet_missed := by
    rintro e ts sound ⟨pos, le⟩ missed
    have none_found := Option.isNone_iff_eq_none.mp (Option.isSome_eq_false_iff.mp missed)
    exact quiet_of_peek sound pos le none_found

end WorkerEnv

namespace BackgroundWorker

open WorkerEnv

/-- What a phase is to a party that looks and sleeps. -/
def watcher : LoopPhase → WatcherPhase ℕ
  | .stopped | .ready | .running _ | .peeked (some _) => .away
  | .peeking ts => .looking ts
  | .peeked none => .idle
  | .waiting => .asleep

def watched (s : BackgroundWorker) : Watched WorkerEnv ℕ := ⟨s.env, s.wake, watcher s.phase⟩

theorem step_watched (s : BackgroundWorker) (a : WorkerAction) :
    (s.step a).watched = s.watched ∨ Watched.Step sides s.watched (s.step a).watched := by
  obtain ⟨e, wake, running, phase⟩ := s
  cases a with
  | job action => exact .inr (.env ⟨action, rfl⟩)
  | notify taskId =>
    simp only [step]
    split
    · next inserting => exact .inr (.tell (.inr ⟨taskId, inserting, rfl⟩))
    · exact .inl rfl
  | start =>
    simp only [step]
    split
    · exact .inr .leave
    · exact .inl rfl
  | stop => exact .inr (.tell (.inl rfl))
  | fail => exact .inr .leave
  | timeout =>
    simp only [step]
    split
    · exact .inr .leave
    · exact .inl rfl
  | run =>
    cases phase with
    | stopped => exact .inl rfl
    | ready =>
      cases running with
      | true => exact .inr .clear
      | false => exact .inl rfl
    | peeking ts =>
      right
      change Watched.Step sides ⟨e, wake, .looking ts⟩
        ⟨e, wake, watcher (.peeked (e.table.peekClaimable ts))⟩
      cases peek : e.table.peekClaimable ts with
      | none =>
        refine .missed ?_
        change (e.table.peekClaimable ts).isSome = false
        rw [peek]
        rfl
      | some taskId => exact .leave
    | peeked taskId =>
      cases taskId with
      | none =>
        cases wake with
        | true => exact .inr .leave
        | false => exact .inr .sleep
      | some taskId => exact .inl rfl
    | waiting =>
      cases wake with
      | true => exact .inr .leave
      | false => exact .inl rfl
    | running taskId => exact .inl rfl

theorem run_watched (s : BackgroundWorker) (sched : List WorkerAction) :
    Relation.ReflTransGen (Watched.Step sides) s.watched (runSchedule step s sched).watched := by
  induction sched generalizing s with
  | nil => exact .refl
  | cons a sched ih =>
    rcases step_watched s a with same | stepped
    · rw [runSchedule_cons, ← same]
      exact ih _
    · exact .head stepped (ih _)

/-- The worker after these actions. -/
def reach (table : JobTable) (epoch : ℕ+) (sched : List WorkerAction) : BackgroundWorker :=
  runSchedule step (initial table epoch) sched

/-- **The loop does not wait on an event that is not set while a job whose enqueue is done can be
claimed and never was.** -/
theorem waiting_quiet (table : JobTable) (epoch : ℕ+) (sched : List WorkerAction) :
    ¬((reach table epoch sched).phase = .waiting ∧ (reach table epoch sched).wake = false
      ∧ ∃ job ∈ (reach table epoch sched).env.table.jobs,
        job.1 ∈ (reach table epoch sched).env.enqueued
          ∧ job.1 ∉ (reach table epoch sched).env.claimed
          ∧ job.2.claimable (reach table epoch sched).env.now = true) := by
  rintro ⟨waiting, unset, job, mem, known, free, claimable⟩
  have start : Watched.Watching Sound Quiet (fun e ts => 0 < ts ∧ ts ≤ e.now)
      (initial table epoch).watched := by
    refine .of_away ⟨epoch.pos, ?_⟩
    rintro job ⟨-, ours, -⟩
    rcases ours with none_there | none_there
    · cases none_there
    · cases none_there
  have quiet := Watched.quiet_of_asleep lawful start
    (run_watched (initial table epoch) sched)
    (congrArg watcher waiting) unset
  have never : job.2.claimable (reach table epoch sched).env.now = false :=
    quiet job mem known free
  rw [claimable] at never
  cases never

/-- A job that comes in after the peek keeps the loop from waiting, and is found next. -/
example : ((reach ⟨[], List.nodup_nil⟩ 1 [.start, .run, .run, .run]).phase,
    (reach ⟨[], List.nodup_nil⟩ 1 [.start, .run, .run, .job (.insert "r" 1 0 true), .notify "r",
      .run, .run, .run]).phase) = (.waiting, .peeked (some "r")) := by
  decide

end BackgroundWorker

end Zhongzhuan.Responses
