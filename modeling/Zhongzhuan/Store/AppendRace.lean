import Zhongzhuan.Store.EventLog

/-!
# `append_event`: calls through several `EventLog` objects at once

The concurrent half of the model of `store/event_log.py`: any number of `append_event` calls
without a number, each through its own `EventLog`.  A call is given the lock of its response by
its log, takes it, reads the highest number and inserts the next one; it can be cancelled at any
of these points, and when it is cancelled during the `INSERT` the statement may still arrive
afterwards.

The numbers are always `1..n`.  A call that is awaited to its end raises just when a row of its
response arrived between its two statements, from a call through another log or from a
statement that outlived its call: `append_event_concurrent`.  With one log and no such
statement this does not happen: `append_event_one_log`.
-/

namespace Zhongzhuan.Store

open Kit

universe u v

/-- A call of `append_event` without `seq`, and the `EventLog` it goes through. -/
structure AppendCall (ω : Type u) where
  log : ω
  responseId : String
  eventType : String
  data : String
  workspaceId : String
  expiresAt : ℤ

/-- How far a call is. -/
inductive AppendPhase
  | before
  /-- It has the lock of `_lock_for` and waits in `async with lock`. -/
  | waiting
  | locked
  /-- The `SELECT` is back, and `seq` is the number of the row to be inserted. -/
  | selected (seq : ℤ)
  | returned (seq : ℤ)
  /-- The `INSERT` raised. -/
  | raised
  | cancelled
  /-- Cancelled during the `INSERT`, which has not arrived. -/
  | abandoned (seq : ℤ)
  deriving DecidableEq

/-- What can happen next. -/
inductive AppendStep (ι : Type v)
  | enter (c : ι)
  | acquire (c : ι)
  | select (c : ι)
  | insert (c : ι) (ts : ℤ)
  | cancel (c : ι)
  /-- The `INSERT` of a cancelled call arrives. -/
  | arrive (c : ι) (ts : ℤ)

variable {ω : Type u} {ι : Type v} [DecidableEq ω] [DecidableEq ι]

/-- The table, the locks of all logs and the calls. -/
structure AppendState (ω : Type u) (ι : Type v) where
  rows : List EventRow
  locks : LockTable (ω × String) ι
  phase : ι → AppendPhase
  /-- Since the `SELECT` of the call a row of its response arrived that its lock does not keep
  out: from a call through another log, or from a cancelled one. -/
  overtaken : ι → Bool

namespace AppendState

variable (calls : ι → AppendCall ω)

/-- `_locks` of a log is its own, and has a lock for each response. -/
def lockKey (c : ι) : ω × String := ((calls c).log, (calls c).responseId)

/-- The row of a call. -/
def rowOf (c : ι) (seq ts : ℤ) : EventRow where
  responseId := (calls c).responseId
  seq := seq
  workspaceId := (calls c).workspaceId
  eventType := (calls c).eventType
  data := (calls c).data
  ts := ts
  expiresAt := (calls c).expiresAt

/-- No call is under way. -/
def start (rows : List EventRow) : AppendState ω ι :=
  ⟨rows, LockTable.empty, fun _ => .before, fun _ => false⟩

variable (s : AppendState ω ι)

def setPhase (c : ι) (phase : AppendPhase) : AppendState ω ι :=
  { s with phase := Function.update s.phase c phase }

/-- The call is over and out of `async with lock`. -/
def leave (c : ι) (phase : AppendPhase) : AppendState ω ι :=
  { s.setPhase c phase with locks := s.locks.leave (lockKey calls) c }

/-- A row of call `c` is in the table. -/
def land (c : ι) (rows : List EventRow) (outlived : Bool) : AppendState ω ι :=
  { s with
    rows := rows
    overtaken := fun d => s.overtaken d ||
      decide ((calls d).responseId = (calls c).responseId
        ∧ (outlived = true ∨ (calls d).log ≠ (calls c).log)) }

/-- One step of the calls; a step that is not possible changes nothing. -/
def step (s : AppendState ω ι) : AppendStep ι → AppendState ω ι
  | .enter c =>
    if s.phase c = .before then
      { s.setPhase c .waiting with locks := s.locks.obtain (lockKey calls) c }
    else s
  | .acquire c =>
    if s.phase c = .waiting ∧ s.locks.CanAcquire c then
      { s.setPhase c .locked with locks := s.locks.acquire c }
    else s
  | .select c =>
    if s.phase c = .locked then
      { s.setPhase c (.selected (maxSeq (calls c).responseId s.rows + 1)) with
        overtaken := Function.update s.overtaken c false }
    else s
  | .insert c ts =>
    match s.phase c with
    | .selected seq =>
      match insertRow (rowOf calls c seq ts) s.rows with
      | some rows => (s.land calls c rows false).leave calls c (.returned seq)
      | none => s.leave calls c .raised
    | _ => s
  | .cancel c =>
    match s.phase c with
    | .waiting => s.leave calls c .cancelled
    | .locked => s.leave calls c .cancelled
    | .selected seq => s.leave calls c (.abandoned seq)
    | _ => s
  | .arrive c ts =>
    match s.phase c with
    | .abandoned seq =>
      match insertRow (rowOf calls c seq ts) s.rows with
      | some rows => (s.land calls c rows true).setPhase c .cancelled
      | none => s.setPhase c .cancelled
    | _ => s

/-- A call is in `async with lock`. -/
def Inside (phase : AppendPhase) : Prop := phase = .locked ∨ ∃ seq, phase = .selected seq

/-- The step is not the `INSERT` of a call for the response that was overtaken. -/
def Unraced (responseId : String) (s : AppendState ω ι) : AppendStep ι → Prop
  | .insert c _ =>
    (calls c).responseId = responseId → (∃ seq, s.phase c = .selected seq) → s.overtaken c = false
  | _ => True

/-- Every call for the response that came to an end was cancelled or returned its number. -/
def NoneRaised (responseId : String) (s : AppendState ω ι) : Prop :=
  ∀ c, (calls c).responseId = responseId → s.phase c ≠ .raised

/-! ## The invariant -/

/-- The invariant, for one response. -/
structure Orderly (responseId : String) (s : AppendState ω ι) : Prop where
  sound : s.locks.Sound (lockKey calls)
  holds : ∀ c, Inside (s.phase c) → s.locks.Holds c
  numbered : Numbered responseId s.rows
  /-- The number a call read is the next one, or was taken by the row that overtook it. -/
  selected : ∀ c seq, (calls c).responseId = responseId → s.phase c = .selected seq →
    1 ≤ seq ∧ (s.overtaken c = false → seq = (seqsOf responseId s.rows).length + 1)
      ∧ (s.overtaken c = true → seq ≤ (seqsOf responseId s.rows).length)
  abandoned : ∀ c seq, (calls c).responseId = responseId → s.phase c = .abandoned seq →
    1 ≤ seq ∧ seq ≤ (seqsOf responseId s.rows).length + 1

variable {calls s} {responseId : String} {c : ι} {seq : ℤ}

theorem orderly_start {rows : List EventRow} (fresh : seqsOf responseId rows = []) :
    (start rows : AppendState ω ι).Orderly calls responseId where
  sound := LockTable.sound_empty _
  holds c inside := by simp [start, Inside] at inside
  numbered := by simp [start, Numbered, fresh]
  selected c seq _ phase := by simp [start] at phase
  abandoned c seq _ phase := by simp [start] at phase

theorem Orderly.selected_le (o : s.Orderly calls responseId)
    (same : (calls c).responseId = responseId) (phase : s.phase c = .selected seq) :
    1 ≤ seq ∧ seq ≤ (seqsOf responseId s.rows).length + 1 := by
  obtain ⟨low, next, taken⟩ := o.selected c seq same phase
  cases overtaken : s.overtaken c with
  | false => exact ⟨low, (next overtaken).le⟩
  | true => exact ⟨low, by have := taken overtaken; omega⟩

theorem Orderly.insertRow_eq_none (o : s.Orderly calls responseId)
    (same : (calls c).responseId = responseId) (phase : s.phase c = .selected seq) (ts : ℤ) :
    insertRow (rowOf calls c seq ts) s.rows = none ↔ s.overtaken c = true := by
  have taken : insertRow (rowOf calls c seq ts) s.rows = none
      ↔ 1 ≤ seq ∧ seq ≤ (seqsOf responseId s.rows).length := by
    rw [Store.insertRow_eq_none, ← o.numbered.mem_iff, ← same]
    rfl
  rw [taken]
  obtain ⟨low, next, behind⟩ := o.selected c seq same phase
  cases overtaken : s.overtaken c with
  | false =>
      have := next overtaken
      constructor
      · rintro ⟨-, high⟩
        omega
      · intro impossible
        cases impossible
  | true => exact ⟨fun _ => rfl, fun _ => ⟨low, behind overtaken⟩⟩

theorem Orderly.move (o : s.Orderly calls responseId) {s' : AppendState ω ι}
    (rows : s'.rows = s.rows) (sound : s'.locks.Sound (lockKey calls))
    (others : ∀ d ≠ c, s'.phase d = s.phase d ∧ s'.overtaken d = s.overtaken d
      ∧ (s.locks.Holds d → s'.locks.Holds d))
    (holds : Inside (s'.phase c) → s'.locks.Holds c)
    (selected : ∀ seq, s'.phase c = .selected seq →
      s'.overtaken c = false ∧ seq = maxSeq (calls c).responseId s.rows + 1)
    (abandoned : ∀ seq, s'.phase c = .abandoned seq → s.phase c = .selected seq) :
    s'.Orderly calls responseId where
  sound := sound
  holds d inside := by
    by_cases same : d = c
    · exact same ▸ holds (same ▸ inside)
    · obtain ⟨phase, -, kept⟩ := others d same
      exact kept (o.holds d (phase ▸ inside))
  numbered := rows ▸ o.numbered
  selected d seq mine phase := by
    rw [rows]
    by_cases same : d = c
    · subst same
      obtain ⟨fresh, next⟩ := selected seq phase
      rw [mine, o.numbered.maxSeq_eq] at next
      exact ⟨by omega, fun _ => next, fun overtaken => by simp [fresh] at overtaken⟩
    · obtain ⟨phase', overtaken, -⟩ := others d same
      rw [overtaken]
      exact o.selected d seq mine (phase' ▸ phase)
  abandoned d seq mine phase := by
    rw [rows]
    by_cases same : d = c
    · subst same
      exact o.selected_le mine (abandoned seq phase)
    · exact o.abandoned d seq mine ((others d same).1 ▸ phase)

theorem setPhase_phase (c : ι) (phase : AppendPhase) : (s.setPhase c phase).phase c = phase :=
  Function.update_self ..

theorem setPhase_phase_of_ne {d : ι} (other : d ≠ c) (phase : AppendPhase) :
    (s.setPhase c phase).phase d = s.phase d :=
  Function.update_of_ne other ..

theorem leave_phase (c : ι) (phase : AppendPhase) : (s.leave calls c phase).phase c = phase :=
  setPhase_phase c phase

theorem leave_phase_of_ne {d : ι} (other : d ≠ c) (phase : AppendPhase) :
    (s.leave calls c phase).phase d = s.phase d :=
  setPhase_phase_of_ne other phase

theorem Orderly.leave (o : s.Orderly calls responseId) {phase : AppendPhase}
    (out : ¬ Inside phase) (left : ∀ seq, phase = .abandoned seq → s.phase c = .selected seq) :
    (s.leave calls c phase).Orderly calls responseId := by
  have here : (s.leave calls c phase).phase c = phase := leave_phase c phase
  apply o.move (c := c)
  · rfl
  · exact o.sound.leave c
  · exact fun d other =>
      ⟨leave_phase_of_ne other phase, rfl, fun holds => LockTable.holds_leave holds other⟩
  · intro inside
    exact absurd (here ▸ inside) out
  · intro seq phase'
    exact absurd (.inr ⟨seq, here ▸ phase'⟩) out
  · intro seq phase'
    exact left seq (here ▸ phase')

theorem Orderly.land (o : s.Orderly calls responseId) {ts : ℤ} {rows : List EventRow}
    {outlived : Bool} (inserted : insertRow (rowOf calls c seq ts) s.rows = some rows)
    (bounds : (calls c).responseId = responseId →
      1 ≤ seq ∧ seq ≤ (seqsOf responseId s.rows).length + 1)
    (alone : outlived = false → ∀ d, lockKey calls d = lockKey calls c → ¬ Inside (s.phase d)) :
    (s.land calls c rows outlived).Orderly calls responseId := by
  have numbered := (o.numbered.insertRow bounds inserted).1
  obtain ⟨-, rfl⟩ := insertRow_eq_some inserted
  have count : (seqsOf responseId (s.rows ++ [rowOf calls c seq ts])).length
      = (seqsOf responseId s.rows).length
        + if (calls c).responseId = responseId then 1 else 0 := by
    by_cases same : (calls c).responseId = responseId <;>
      simp [seqsOf_append, seqsOf_singleton, rowOf, same]
  refine ⟨o.sound, o.holds, numbered, ?_, ?_⟩
  · intro d seq' mine phase
    simp only [AppendState.land, count, Bool.or_eq_false_iff, Bool.or_eq_true, decide_eq_true_eq,
      decide_eq_false_iff_not]
    obtain ⟨low, next, taken⟩ := o.selected d seq' mine phase
    by_cases same : (calls c).responseId = responseId
    · rw [if_pos same]
      refine ⟨low, ?_, fun _ => by have := (o.selected_le mine phase).2; push_cast; omega⟩
      rintro ⟨-, apart⟩
      -- a call that the row did not overtake has its lock, and so is not between its statements
      have inside : ¬ Inside (s.phase d) := by
        simp only [mine, same, true_and, not_or, not_not] at apart
        exact alone (by simpa using apart.1) d (Prod.ext apart.2 (mine.trans same.symm))
      exact absurd (.inr ⟨seq', phase⟩) inside
    · rw [if_neg same]
      have other : ¬ (calls d).responseId = (calls c).responseId := by rwa [mine, eq_comm]
      simpa [other] using ⟨low, next, taken⟩
  · intro d seq' mine phase
    obtain ⟨low, high⟩ := o.abandoned d seq' mine phase
    refine ⟨low, ?_⟩
    simp only [AppendState.land, count]
    push_cast
    split <;> omega

theorem orderly_step (o : s.Orderly calls responseId) (a : AppendStep ι) :
    (s.step calls a).Orderly calls responseId := by
  cases a with
  | enter c =>
      simp only [step]
      split
      case isTrue before =>
        apply o.move (c := c)
        · rfl
        · exact o.sound.obtain c
        · exact fun d other =>
            ⟨setPhase_phase_of_ne other _, rfl, fun holds => LockTable.holds_obtain holds⟩
        all_goals simp [AppendState.setPhase, Inside]
      case isFalse _ => exact o
  | acquire c =>
      simp only [step]
      split
      case isTrue can =>
        apply o.move (c := c)
        · rfl
        · exact o.sound.acquire c
        · exact fun d other =>
            ⟨setPhase_phase_of_ne other _, rfl, fun holds => LockTable.holds_acquire holds⟩
        · exact fun _ => LockTable.holds_self_acquire can.2
        all_goals simp [AppendState.setPhase]
      case isFalse _ => exact o
  | select c =>
      simp only [step]
      split
      case isTrue locked =>
        apply o.move (c := c)
        · rfl
        · exact o.sound
        · exact fun d other =>
            ⟨setPhase_phase_of_ne other _, Function.update_of_ne other .., id⟩
        · exact fun _ => o.holds c (.inl locked)
        · intro seq phase
          exact ⟨Function.update_self .., by simpa [AppendState.setPhase, eq_comm] using phase⟩
        · simp [AppendState.setPhase]
      case isFalse _ => exact o
  | insert c ts =>
      simp only [step]
      split
      case h_1 seq phase =>
        split
        case h_1 rows inserted =>
          have out : ¬ Inside (.returned seq) := by simp [Inside]
          have left := o.leave (c := c) out (by simp)
          apply left.land inserted (fun mine => o.selected_le mine phase)
          rintro - d same inside
          have holds := o.holds c (.inr ⟨seq, phase⟩)
          by_cases own : d = c
          · subst own
            rw [leave_phase] at inside
            exact out inside
          · rw [leave_phase_of_ne own] at inside
            exact own (o.sound.exclusive (o.holds d inside) holds same)
        case h_2 refused => exact o.leave (by simp [Inside]) (by simp)
      case h_2 _ => exact o
  | cancel c =>
      simp only [step]
      split
      case h_1 waiting => exact o.leave (by simp [Inside]) (by simp)
      case h_2 locked => exact o.leave (by simp [Inside]) (by simp)
      case h_3 seq phase =>
        apply o.leave (by simp [Inside])
        rintro seq' ⟨⟩
        exact phase
      case h_4 _ => exact o
  | arrive c ts =>
      have ended : (s.setPhase c .cancelled).Orderly calls responseId := by
        apply o.move (c := c)
        · rfl
        · exact o.sound
        · exact fun d other => ⟨setPhase_phase_of_ne other _, rfl, id⟩
        all_goals simp [AppendState.setPhase, Inside]
      simp only [step]
      split
      case h_1 seq phase =>
        split
        case h_1 rows inserted =>
          exact ended.land inserted (fun mine => o.abandoned c seq mine phase) (by simp)
        case h_2 refused => exact ended
      case h_2 _ => exact o

/-! ## Calls that raise -/

theorem noneRaised_congr {s' : AppendState ω ι}
    (others : ∀ d ≠ c, s'.phase d = s.phase d) (before : s.phase c ≠ .raised)
    (after : s'.phase c ≠ .raised) :
    s'.NoneRaised calls responseId ↔ s.NoneRaised calls responseId := by
  apply forall_congr'
  intro d
  by_cases same : d = c
  · subst same
    simp [before, after]
  · rw [others d same]

theorem not_noneRaised_leave (mine : (calls c).responseId = responseId) :
    ¬ (s.leave calls c .raised).NoneRaised calls responseId :=
  fun none => none c mine (leave_phase c .raised)

theorem noneRaised_leave (elsewhere : (calls c).responseId ≠ responseId) (phase : AppendPhase) :
    (s.leave calls c phase).NoneRaised calls responseId ↔ s.NoneRaised calls responseId := by
  apply forall_congr'
  intro d
  by_cases same : d = c
  · subst same
    simp [elsewhere]
  · rw [leave_phase_of_ne same]

/-- **A step makes a call raise just when it is the `INSERT` of one that was overtaken.** -/
theorem noneRaised_step (o : s.Orderly calls responseId) (a : AppendStep ι) :
    (s.step calls a).NoneRaised calls responseId
      ↔ s.NoneRaised calls responseId ∧ s.Unraced calls responseId a := by
  cases a with
  | enter c =>
      simp only [step, Unraced, and_true]
      split
      case isTrue before =>
        exact noneRaised_congr (fun d other => setPhase_phase_of_ne other _)
          (by simp [before]) (by simp [AppendState.setPhase])
      case isFalse _ => exact Iff.rfl
  | acquire c =>
      simp only [step, Unraced, and_true]
      split
      case isTrue can =>
        exact noneRaised_congr (fun d other => setPhase_phase_of_ne other _)
          (by simp [can.1]) (by simp [AppendState.setPhase])
      case isFalse _ => exact Iff.rfl
  | select c =>
      simp only [step, Unraced, and_true]
      split
      case isTrue locked =>
        exact noneRaised_congr (fun d other => setPhase_phase_of_ne other _)
          (by simp [locked]) (by simp [AppendState.setPhase])
      case isFalse _ => exact Iff.rfl
  | insert c ts =>
      simp only [step, Unraced]
      split
      case h_1 seq phase =>
        have before : s.phase c ≠ .raised := by simp [phase]
        by_cases mine : (calls c).responseId = responseId
        · have raises := o.insertRow_eq_none mine phase ts
          split
          case h_1 rows inserted =>
            have fresh : s.overtaken c = false := by simpa [inserted] using raises
            have kept : ((s.land calls c rows false).leave calls c (.returned seq)).NoneRaised calls
                responseId ↔ s.NoneRaised calls responseId :=
              noneRaised_congr (c := c) (fun d other => leave_phase_of_ne other _) before
                (by simp [leave_phase])
            exact kept.trans (and_iff_left fun _ _ => fresh).symm
          case h_2 refused =>
            refine iff_of_false (not_noneRaised_leave mine) ?_
            rintro ⟨-, unraced⟩
            simp [unraced mine ⟨seq, phase⟩, refused] at raises
        · have trivially : (s.NoneRaised calls responseId ∧ ((calls c).responseId = responseId →
              (∃ seq, s.phase c = .selected seq) → s.overtaken c = false))
              ↔ s.NoneRaised calls responseId := and_iff_left fun mine' => absurd mine' mine
          rw [trivially]
          split
          case h_1 rows inserted => exact noneRaised_leave (s := s) mine _
          case h_2 refused => exact noneRaised_leave mine _
      case h_2 other =>
        refine (and_iff_left ?_).symm
        rintro - ⟨seq, phase⟩
        exact absurd phase (other seq)
  | cancel c =>
      simp only [step, Unraced, and_true]
      split
      case h_4 _ => exact Iff.rfl
      all_goals
        rename_i phase
        exact noneRaised_congr (fun d other => leave_phase_of_ne other _)
          (by simp [phase]) (by simp [leave_phase])
  | arrive c ts =>
      simp only [step, Unraced, and_true]
      split
      case h_1 seq phase =>
        split
        all_goals
          exact noneRaised_congr (fun d other => setPhase_phase_of_ne (s := s) other _)
            (by simp [phase]) (by simp [setPhase_phase])
      case h_2 _ => exact Iff.rfl

end AppendState

open AppendState

variable {calls : ι → AppendCall ω} {responseId : String} {rows : List EventRow}

/-- **Concurrent appends.**  However many calls append to a response, through whatever logs: the
numbers written are `1..n`, and all the calls that are awaited to their end return normally just
when no call that was overtaken comes to its `INSERT`. -/
theorem append_event_concurrent (calls : ι → AppendCall ω) (responseId : String)
    (rows : List EventRow) (fresh : seqsOf responseId rows = []) (sched : List (AppendStep ι)) :
    Numbered responseId (runSchedule (step calls) (start rows) sched).rows
      ∧ ((runSchedule (step calls) (start rows) sched).NoneRaised calls responseId
        ↔ Along (step calls) (Unraced calls responseId) (start rows) sched) := by
  have start' : (start rows : AppendState ω ι).Orderly calls responseId := orderly_start fresh
  have preserved : ∀ (s : AppendState ω ι) a, s.Orderly calls responseId →
      (s.step calls a).Orderly calls responseId := fun s a o => orderly_step o a
  have none : (start rows : AppendState ω ι).NoneRaised calls responseId :=
    fun c _ raised => by simp [start] at raised
  refine ⟨(runSchedule_invariant _ preserved start' sched).numbered, ?_⟩
  rw [good_run_iff_along _ preserved (fun s a o => noneRaised_step o a) start']
  exact and_iff_right none

/-- A step that is not the late arrival of a statement overtakes no call, where all calls for
the response go through one log. -/
theorem overtaken_step (one : ∀ c d, (calls c).responseId = responseId →
      (calls d).responseId = responseId → (calls c).log = (calls d).log)
    (s : AppendState ω ι) {a : AppendStep ι}
    (punctual : ∀ c ts, a = .arrive c ts → (calls c).responseId ≠ responseId)
    (fresh : ∀ c, (calls c).responseId = responseId → s.overtaken c = false) (d : ι)
    (mine : (calls d).responseId = responseId) : (s.step calls a).overtaken d = false := by
  have kept := fresh d mine
  cases a with
  | select c =>
      simp only [step]
      split
      case isTrue locked =>
        by_cases same : d = c
        · simp [same]
        · simpa [Function.update_of_ne same] using kept
      case isFalse _ => exact kept
  | insert c ts =>
      simp only [step]
      split
      case h_2 _ => exact kept
      case h_1 seq phase =>
        split
        case h_2 refused => exact kept
        case h_1 rows inserted =>
          have together : (calls d).responseId = (calls c).responseId →
              (calls d).log = (calls c).log := fun same => one d c mine (same ▸ mine)
          simpa [AppendState.leave, AppendState.land, AppendState.setPhase, kept] using together
  | arrive c ts =>
      have apart : (calls d).responseId ≠ (calls c).responseId := by
        rw [mine]
        exact (punctual c ts rfl).symm
      simp only [step]
      split
      case h_2 _ => exact kept
      case h_1 seq phase =>
        split
        case h_2 refused => exact kept
        case h_1 rows inserted => simp [AppendState.land, AppendState.setPhase, kept, apart]
  | _ c =>
      simp only [step]
      split <;> exact kept

/-- **Through one `EventLog` no call raises**, unless the statement of a cancelled call arrives
late. -/
theorem append_event_one_log (one : ∀ c d, (calls c).responseId = responseId →
      (calls d).responseId = responseId → (calls c).log = (calls d).log)
    (fresh : seqsOf responseId rows = []) {sched : List (AppendStep ι)}
    (punctual : ∀ a ∈ sched, ∀ c ts, a = .arrive c ts → (calls c).responseId ≠ responseId) :
    (runSchedule (step calls) (start rows) sched).NoneRaised calls responseId := by
  rw [(append_event_concurrent calls responseId rows fresh sched).2]
  apply along_mono
    (fun s : AppendState ω ι => ∀ c, (calls c).responseId = responseId → s.overtaken c = false)
    (fun s a fresh punctual => overtaken_step one s punctual fresh)
    ?_ (fun _ _ => rfl) (along_of_mem (fun a mem _ => punctual a mem) _)
  intro s a fresh punctual
  cases a with
  | insert c ts => exact fun mine _ => fresh c mine
  | _ c => trivial

/-- Two calls through one log. -/
def oneLog (_ : Bool) : AppendCall Bool := ⟨true, "resp_1", "response.queued", "\x7b\x7d", "", 0⟩

theorem append_event_one_log_turns :
    (runSchedule (step oneLog) (start []) [.enter false, .acquire false, .enter true,
      .select false, .insert false 0, .acquire true, .select true, .insert true 0]).NoneRaised
      oneLog "resp_1" :=
  append_event_one_log (fun _ _ _ _ => rfl) rfl fun a mem c ts arrives => by
    subst arrives
    simp at mem

/-- The `ResponseStore` of the endpoints and that of the proxy handler append to a response. -/
def twoLogs (c : Bool) : AppendCall Bool := ⟨c, "resp_1", "response.queued", "\x7b\x7d", "", 0⟩

/-- Both read before either inserts. -/
def bothSelect : List (AppendStep Bool) :=
  [.enter false, .acquire false, .select false, .enter true, .acquire true, .select true,
    .insert false 0, .insert true 0]

/-- The second insert is refused. -/
theorem twoLogs_raise :
    ¬ (runSchedule (step twoLogs) (start []) bothSelect).NoneRaised twoLogs "resp_1" := by
  intro none
  exact none true rfl (by decide)

theorem append_event_concurrent_twoLogs :
    Numbered "resp_1" (runSchedule (step twoLogs) (start []) bothSelect).rows
      ∧ ((runSchedule (step twoLogs) (start []) bothSelect).NoneRaised twoLogs "resp_1"
        ↔ Along (step twoLogs) (Unraced twoLogs "resp_1") (start []) bothSelect) :=
  append_event_concurrent twoLogs "resp_1" [] rfl bothSelect

end Zhongzhuan.Store
