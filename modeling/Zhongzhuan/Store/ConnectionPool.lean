import Zhongzhuan.Kit.Loans
import Zhongzhuan.Kit.Schedule

/-!
# The connections of `TiDBStore` and the pools they come from

The model of `_acquire`, `_release`, `_run_statement`, `_discard_pool`, `_create_pool_locked`,
`_idle_reaper`, `close` and `_TiDBTransaction` of `store/tidb_store.py`, for any number of
coroutines that share one store.  A step is what one coroutine does from one `await` to the next;
what it waits for comes to pass (`go`), raises (`fail`), or the coroutine is cancelled there
(`cancel`).

* `PoolPhase` is where a coroutine waits, with the connection and the pool it keeps.
* `PoolState` is the whole: the pool in use, `_busy`, the two locks, and a ledger of the
  connections that are asked for, out, given back or lost.
* `step_turn` says what one step can do, `poolRun_law` what holds in every run.

`_busy` is raised before the pool is asked for a connection, so that the idle reaper sees it.  A
connection is lost where closing its cursor fails: nothing gives it back then.
-/

namespace Zhongzhuan.Store

open Kit

variable {T : Type} [DecidableEq T]

/-! ## Coroutines -/

/-- What a connection is wanted for: a statement or the open block of a transaction, and whether
this is the second attempt, or nothing but that there be a pool (`ensure_ready`). -/
inductive Purpose
  | statement (again : Bool)
  | block (again : Bool)
  | ready
deriving DecidableEq, Repr

/-- A connection and the pool that is kept with it, by numbers. -/
abbrev Grip : Type := Loan ℕ × ℕ

/-- Where a coroutine is.  `own` is the connection it will give back; a statement on the connection
of the open block has none. -/
inductive PoolPhase
  | idle
  /-- About to call `_acquire`. -/
  | starting (purpose : Purpose)
  /-- For `_pool_lock`, in `_acquire`. -/
  | waiting (purpose : Purpose)
  /-- `create_pool`, under the lock. -/
  | connecting (purpose : Purpose)
  /-- The migrations on a new pool: their connection, and their run. -/
  | upgrading (purpose : Purpose) (pool : ℕ) (borrowed : Bool)
  /-- `pool.acquire()`. -/
  | taking (purpose : Purpose) (loan : Loan ℕ)
  /-- The statement itself. -/
  | running (again : Bool) (own : Option Grip)
  /-- For `_pool_lock`, in `_discard_pool`; the purpose is that of the attempt to follow. -/
  | discarding (purpose : Purpose)
  /-- For `_tx_lock`. -/
  | lockWaiting
  /-- `conn.cursor()`. -/
  | opening (again : Bool) (own : Option Grip)
  /-- `conn.begin()`. -/
  | beginning (again : Bool) (own : Option Grip)
  /-- Closing the cursor in `_open_tx_conn`, before the next attempt or the exception. -/
  | tidying (own : Option Grip) (retry : Bool)
  /-- Closing the cursor in `__aenter__`. -/
  | abandoning (own : Option Grip)
  /-- `commit` or `rollback`. -/
  | finishing (own : Option Grip)
  /-- Closing the cursor in `__aexit__`. -/
  | closing (own : Option Grip)
deriving DecidableEq, Repr

namespace PoolPhase

/-- What `pool.acquire()` was called for. -/
def asks : PoolPhase → Option (Loan ℕ)
  | .taking _ loan => some loan
  | _ => none

/-- The connection that the coroutine will give back. -/
def own : PoolPhase → Option Grip
  | .running _ own | .opening _ own | .beginning _ own | .tidying own _ | .abandoning own
  | .finishing own | .closing own => own
  | _ => none

/-- Whether the coroutine is entering or leaving a block, with `_tx_lock`. -/
def ofBlock : PoolPhase → Bool
  | .starting (.block _) | .waiting (.block _) | .connecting (.block _)
  | .upgrading (.block _) _ _ | .taking (.block _) _ | .discarding (.block _)
  | .opening .. | .beginning .. | .tidying .. | .abandoning _ | .finishing _ | .closing _ => true
  | _ => false

end PoolPhase

/-- A coroutine, and the connection of its block while it is inside. -/
structure PoolTask where
  phase : PoolPhase
  block : Option (Option Grip)
deriving DecidableEq, Repr

namespace PoolTask

/-- Whether `_tx_lock` is taken for it. -/
def owns (task : PoolTask) : Bool := task.block.isSome || task.phase.ofBlock

/-- The connections it will give back. -/
def holds (task : PoolTask) : List Grip := task.phase.own.toList ++ task.block.join.toList

end PoolTask

/-! ## The store -/

/-- What became of the connections that were asked for. -/
structure PoolLedger where
  next : ℕ
  asked : List (Loan ℕ)
  out : List (Loan ℕ)
  returned : List Grip
  lost : List (Loan ℕ)
deriving DecidableEq, Repr

/-- The store and its coroutines. -/
structure PoolState (T : Type) where
  /-- `_pool`. -/
  pool : Option ℕ
  nextPool : ℕ
  /-- `_busy`. -/
  busy : ℤ
  /-- Whether `_tx_conn` is set. -/
  txBound : Bool
  txLocked : Bool
  poolLocked : Bool
  migrated : Bool
  closed : Bool
  /-- Whether `idle_release_seconds` asks for a reaper. -/
  releases : Bool
  /-- Whether the reaper runs. -/
  reaping : Bool
  ledger : PoolLedger
  task : T → PoolTask

/-- One thing that happens. -/
inductive PoolEvent (T : Type)
  /-- A statement. -/
  | call (t : T)
  /-- `async with store.transaction()`, and the end of its body. -/
  | enter (t : T)
  | leave (t : T)
  | ensureReady (t : T)
  | go (t : T)
  | fail (t : T) (retryable : Bool)
  | cancel (t : T)
  /-- The reaper finds that the store has been idle for long enough. -/
  | reap
  /-- `close`, and its second half. -/
  | close
  | dropPool
deriving DecidableEq, Repr

namespace PoolState

/-- A store that nobody has used. -/
def start (T : Type) (releases : Bool) : PoolState T where
  pool := none
  nextPool := 0
  busy := 0
  txBound := false
  txLocked := false
  poolLocked := false
  migrated := false
  closed := false
  releases := releases
  reaping := false
  ledger := ⟨0, [], [], [], []⟩
  task _ := ⟨.idle, none⟩

variable (s : PoolState T) (t : T)

def setTask (task : PoolTask) : PoolState T := { s with task := Function.update s.task t task }

/-- The coroutine goes on to another phase. -/
def goTo (phase : PoolPhase) : PoolState T := s.setTask t { s.task t with phase := phase }

/-- `_release`. -/
def release (own : Option Grip) : PoolState T :=
  match own with
  | none => s
  | some (conn, pool) =>
    { s with
      busy := s.busy - 1
      ledger := { s.ledger with
        out := s.ledger.out.erase conn
        returned := s.ledger.returned ++ [(conn, pool)] } }

/-- Nobody gives it back any more. -/
def lose (own : Option Grip) : PoolState T :=
  match own with
  | none => s
  | some (conn, _) => { s with ledger := { s.ledger with lost := s.ledger.lost ++ [conn] } }

/-- `pool.acquire()` did not return. -/
def refuse (loan : Loan ℕ) : PoolState T :=
  { s with
    busy := s.busy - 1
    ledger := { s.ledger with asked := s.ledger.asked.erase loan } }

/-- It returned. -/
def lend (loan : Loan ℕ) : PoolState T :=
  { s with
    ledger := { s.ledger with
      asked := s.ledger.asked.erase loan
      out := s.ledger.out ++ [loan] } }

/-- The end of `__aenter__` when it raises. -/
def raiseBlock : PoolState T := { s.goTo t .idle with txBound := false, txLocked := false }

/-- `_acquire` returned this. -/
def acquired (own : Option Grip) : Purpose → PoolState T
  | .statement again => s.goTo t (.running again own)
  | .block again => s.goTo t (.opening again own)
  | .ready => s.goTo t .idle

/-- An attempt raised an `Exception`, with no connection left. -/
def failed (retryable : Bool) : Purpose → PoolState T
  | .statement again =>
    if !again && !s.txBound && retryable then s.goTo t (.discarding (.statement true))
    else s.goTo t .idle
  | .block again =>
    if !again && retryable then s.goTo t (.discarding (.block true)) else s.raiseBlock t
  | .ready => s.goTo t .idle

/-- An attempt was cancelled, with no connection left. -/
def cancelled : Purpose → PoolState T
  | .block _ => s.raiseBlock t
  | _ => s.goTo t .idle

/-- From `_pool_lock` to `pool.acquire()`, with no `await` between. -/
def take (pool : ℕ) : Purpose → PoolState T
  | .ready => s.goTo t .idle
  | purpose =>
    { s.goTo t (.taking purpose ⟨s.ledger.next, pool⟩) with
      busy := s.busy + 1
      ledger := { s.ledger with
        next := s.ledger.next + 1
        asked := s.ledger.asked ++ [⟨s.ledger.next, pool⟩] } }

/-- The end of `_create_pool_locked`, with `_start_reaper`. -/
def publish (pool : ℕ) (purpose : Purpose) : PoolState T :=
  { s with
    pool := some pool
    poolLocked := false
    migrated := true
    reaping := s.reaping || (!s.closed && s.releases) }.take t pool purpose

/-- What the coroutine waits for comes to pass. -/
def go : PoolState T :=
  match (s.task t).phase with
  | .idle => s
  | .starting purpose =>
    if s.txBound then s.acquired t none purpose else s.goTo t (.waiting purpose)
  | .waiting purpose =>
    if s.poolLocked then s
    else match s.pool with
      | some pool => s.take t pool purpose
      | none => { s.goTo t (.connecting purpose) with poolLocked := true }
  | .connecting purpose =>
    if s.migrated then { s with nextPool := s.nextPool + 1 }.publish t s.nextPool purpose
    else { s.goTo t (.upgrading purpose s.nextPool false) with nextPool := s.nextPool + 1 }
  | .upgrading purpose pool false => s.goTo t (.upgrading purpose pool true)
  | .upgrading purpose pool true => s.publish t pool purpose
  | .taking purpose loan => (s.lend loan).acquired t (some (loan, loan.place)) purpose
  | .running _ own => (s.release own).goTo t .idle
  | .discarding purpose =>
    if s.poolLocked then s else { s.goTo t (.starting purpose) with pool := none }
  | .lockWaiting =>
    if s.txLocked then s else { s.goTo t (.starting (.block false)) with txLocked := true }
  | .opening again own => s.goTo t (.beginning again own)
  | .beginning _ own => { s.setTask t ⟨.idle, some own⟩ with txBound := true }
  | .tidying own retry =>
    if retry then (s.release own).goTo t (.discarding (.block true))
    else (s.release own).raiseBlock t
  | .abandoning own => (s.release own).raiseBlock t
  | .finishing own => { s.goTo t (.closing own) with txBound := false }
  | .closing own => { (s.release own).goTo t .idle with txLocked := false }

/-- What it waits for raises an `Exception`. -/
def fail (retryable : Bool) : PoolState T :=
  match (s.task t).phase with
  | .connecting purpose | .upgrading purpose _ _ =>
    { s with poolLocked := false }.failed t retryable purpose
  | .taking purpose loan => (s.refuse loan).failed t retryable purpose
  | .running again own => (s.release own).failed t retryable (.statement again)
  | .opening again own => (s.release own).failed t retryable (.block again)
  | .beginning again own => s.goTo t (.tidying own (!again && retryable))
  -- swallowed, or the `finally` goes on all the same
  | .tidying .. | .finishing _ => s.go t
  -- the lines that give the connection back are not reached
  | .abandoning own => (s.lose own).goTo t .idle
  | .closing own => { (s.lose own).goTo t .idle with txLocked := false }
  | _ => s

/-- The coroutine is cancelled where it waits. -/
def cancel : PoolState T :=
  match (s.task t).phase with
  | .waiting purpose | .discarding purpose => s.cancelled t purpose
  | .connecting purpose | .upgrading purpose _ _ =>
    { s with poolLocked := false }.cancelled t purpose
  | .taking purpose loan => (s.refuse loan).cancelled t purpose
  | .running _ own => (s.release own).goTo t .idle
  | .lockWaiting => s.goTo t .idle
  | .opening _ own => (s.release own).raiseBlock t
  | .beginning _ own | .tidying own _ => { s.goTo t (.abandoning own) with txBound := false }
  | .finishing _ => s.go t
  | .abandoning own => (s.lose own).goTo t .idle
  | .closing own => { (s.lose own).goTo t .idle with txLocked := false }
  | _ => s

/-- One round of `_idle_reaper`. -/
def reap : PoolState T :=
  if s.reaping && !s.poolLocked && !(decide (0 < s.busy)) && !s.txBound then
    { s with pool := none }
  else s

/-- One step; a step that is not possible changes nothing. -/
def step (s : PoolState T) : PoolEvent T → PoolState T
  | .call t => if (s.task t).phase = .idle then s.goTo t (.starting (.statement false)) else s
  | .enter t => if (s.task t).phase = .idle then s.goTo t .lockWaiting else s
  | .leave t =>
    match s.task t with
    | ⟨.idle, some own⟩ => s.setTask t ⟨.finishing own, none⟩
    | _ => s
  | .ensureReady t => if (s.task t).phase = .idle then s.goTo t (.waiting .ready) else s
  | .go t => s.go t
  | .fail t retryable => s.fail t retryable
  | .cancel t => s.cancel t
  | .reap => s.reap
  | .close => { s with closed := true, reaping := false }
  | .dropPool => if s.closed && !s.poolLocked then { s with pool := none } else s

/-- The books of the store. -/
def loans : Loans T ℕ where
  next := s.ledger.next
  asked := s.ledger.asked
  out := s.ledger.out
  returned := s.ledger.returned
  lost := s.ledger.lost
  asks t := (s.task t).phase.asks
  holds t := (s.task t).holds

end PoolState

/-! ## What one step can do -/

namespace PoolState

variable {s s₁ s' : PoolState T} {t t' : T} {phase : PoolPhase} {task : PoolTask} {n : ℤ}

/-- The coroutine `t` comes to this, and nothing else of the books changes. -/
structure Lands (s s' : PoolState T) (t : T) (task : PoolTask) : Prop where
  task : s'.task = Function.update s.task t task
  ledger : s'.ledger = s.ledger
  busy : s'.busy = s.busy

theorem loans_of_lands (lands : Lands s s' t task) :
    s'.loans = { s.loans with
      asks := Function.update s.loans.asks t task.phase.asks
      holds := Function.update s.loans.holds t task.holds } := by
  unfold loans
  rw [lands.ledger, lands.task]
  congr 1
  · funext u
    rw [Function.update_apply, Function.update_apply]
    split <;> rfl
  · funext u
    rw [Function.update_apply, Function.update_apply]
    split <;> rfl

theorem lands_setTask : Lands s (s.setTask t task) t task := ⟨rfl, rfl, rfl⟩

theorem lands_goTo : Lands s (s.goTo t phase) t { s.task t with phase := phase } := lands_setTask

theorem Lands.stay (lands : Lands s s' t task) (asks : task.phase.asks = (s.task t).phase.asks)
    (holds : task.holds = (s.task t).holds) : Loans.Move s.loans 0 s'.loans := by
  have same : s'.loans = s.loans := by
    rw [loans_of_lands lands, asks, holds, show (s.task t).phase.asks = s.loans.asks t from rfl,
      show (s.task t).holds = s.loans.holds t from rfl, Function.update_eq_self,
      Function.update_eq_self]
  rw [same]
  exact .stay

/-- Nothing is asked for, and what is kept is kept in the block. -/
def Bare (task : PoolTask) : Prop := task.phase.asks = none ∧ task.phase.own = none

theorem Bare.holds (bare : Bare task) : task.holds = task.block.join.toList := by
  rw [PoolTask.holds, bare.2, Option.toList_none, List.nil_append]

theorem Lands.release {own : Option Grip} (lands : Lands (s.release own) s' t task)
    (asks : (s.task t).phase.asks = none) (mine : (s.task t).phase.own = own) (bare : Bare task)
    (block : task.block = (s.task t).block) :
    ∃ n, Loans.Move s.loans n s'.loans ∧ s'.busy = s.busy + n := by
  have before : (s.task t).holds = own.toList ++ task.block.join.toList := by
    rw [PoolTask.holds, mine, block]
  cases own with
  | none =>
    refine ⟨0, Lands.stay lands (bare.1.trans asks.symm) ?_, ?_⟩
    · rw [bare.holds]
      exact before.symm
    · rw [lands.busy, add_zero]
      rfl
  | some grip =>
    obtain ⟨conn, pool⟩ := grip
    refine ⟨-1, ?_, by rw [lands.busy]; rfl⟩
    have held : (conn, pool) ∈ s.loans.holds t := by
      change (conn, pool) ∈ (s.task t).holds
      rw [before]
      exact List.mem_cons_self
    have after : (s.loans.holds t).erase (conn, pool) = task.holds := by
      change ((s.task t).holds).erase (conn, pool) = _
      rw [before, bare.holds]
      exact List.erase_cons_head ..
    have none_asked : Function.update s.loans.asks t task.phase.asks = s.loans.asks := by
      rw [bare.1, ← asks]
      exact Function.update_eq_self ..
    have move : Loans.Move s.loans (-1) _ := .giveBack t conn pool held
    rw [after] at move
    rw [loans_of_lands lands]
    change Loans.Move s.loans (-1) { s.loans with
      out := s.loans.out.erase conn
      returned := s.loans.returned ++ [(conn, pool)]
      asks := Function.update s.loans.asks t task.phase.asks
      holds := Function.update s.loans.holds t task.holds }
    rw [none_asked]
    exact move

theorem Lands.lose {own : Option Grip} (lands : Lands (s.lose own) s' t task)
    (asks : (s.task t).phase.asks = none) (mine : (s.task t).phase.own = own) (bare : Bare task)
    (block : task.block = (s.task t).block) :
    Loans.Move s.loans 0 s'.loans ∧ s'.busy = s.busy := by
  have before : (s.task t).holds = own.toList ++ task.block.join.toList := by
    rw [PoolTask.holds, mine, block]
  cases own with
  | none =>
    refine ⟨Lands.stay lands (bare.1.trans asks.symm) ?_, lands.busy⟩
    rw [bare.holds]
    exact before.symm
  | some grip =>
    obtain ⟨conn, pool⟩ := grip
    refine ⟨?_, lands.busy⟩
    have held : (conn, pool) ∈ s.loans.holds t := by
      change (conn, pool) ∈ (s.task t).holds
      rw [before]
      exact List.mem_cons_self
    have after : (s.loans.holds t).erase (conn, pool) = task.holds := by
      change ((s.task t).holds).erase (conn, pool) = _
      rw [before, bare.holds]
      exact List.erase_cons_head ..
    have none_asked : Function.update s.loans.asks t task.phase.asks = s.loans.asks := by
      rw [bare.1, ← asks]
      exact Function.update_eq_self ..
    have move : Loans.Move s.loans 0 _ := .lose t conn pool held
    rw [after] at move
    rw [loans_of_lands lands]
    change Loans.Move s.loans 0 { s.loans with
      lost := s.loans.lost ++ [conn]
      asks := Function.update s.loans.asks t task.phase.asks
      holds := Function.update s.loans.holds t task.holds }
    rw [none_asked]
    exact move

theorem Lands.refuse {loan : Loan ℕ} (lands : Lands (s.refuse loan) s' t task)
    (mine : (s.task t).phase.asks = some loan) (nothing : (s.task t).phase.own = none)
    (bare : Bare task) (block : task.block = (s.task t).block) :
    Loans.Move s.loans (-1) s'.loans ∧ s'.busy = s.busy + -1 := by
  refine ⟨?_, by rw [lands.busy]; rfl⟩
  have same : Function.update s.loans.holds t task.holds = s.loans.holds := by
    rw [bare.holds, block, show (s.task t).block.join.toList = s.loans.holds t from ?_]
    · exact Function.update_eq_self ..
    · change _ = (s.task t).phase.own.toList ++ _
      rw [nothing]
      rfl
  have move : Loans.Move s.loans (-1) _ := .refuse t loan mine
  rw [loans_of_lands lands, bare.1]
  change Loans.Move s.loans (-1) { s.loans with
    asked := s.loans.asked.erase loan
    asks := Function.update s.loans.asks t none
    holds := Function.update s.loans.holds t task.holds }
  rw [same]
  exact move

theorem Lands.lend {loan : Loan ℕ} (lands : Lands (s.lend loan) s' t task)
    (mine : (s.task t).phase.asks = some loan) (nothing : (s.task t).phase.own = none)
    (asks : task.phase.asks = none) (own : task.phase.own = some (loan, loan.place))
    (block : task.block = (s.task t).block) :
    Loans.Move s.loans 0 s'.loans ∧ s'.busy = s.busy := by
  refine ⟨?_, lands.busy⟩
  have more : task.holds = (loan, loan.place) :: s.loans.holds t := by
    change _ = _ :: ((s.task t).phase.own.toList ++ _)
    rw [PoolTask.holds, own, nothing, block]
    rfl
  have move : Loans.Move s.loans 0 _ := .lend t loan mine
  rw [loans_of_lands lands, asks, more]
  exact move

end PoolState

/-! ## Who has `_tx_lock` -/

namespace PoolState

variable {s s₁ s' : PoolState T} {t t' : T} {phase : PoolPhase} {task : PoolTask} {n : ℤ}
  {purpose : Purpose} {own : Option Grip} {loan : Loan ℕ} {retryable : Bool} {pool : ℕ}

@[simp] theorem release_task : (s.release own).task = s.task := by cases own <;> rfl
@[simp] theorem release_txLocked : (s.release own).txLocked = s.txLocked := by cases own <;> rfl
@[simp] theorem lose_task : (s.lose own).task = s.task := by cases own <;> rfl
@[simp] theorem lose_txLocked : (s.lose own).txLocked = s.txLocked := by cases own <;> rfl
@[simp] theorem goTo_txLocked : (s.goTo t phase).txLocked = s.txLocked := rfl
@[simp] theorem goTo_task :
    (s.goTo t phase).task = Function.update s.task t { s.task t with phase := phase } := rfl

/-- The lock is taken for one coroutine at a time, which is entering a block, inside or leaving. -/
structure Proper (s : PoolState T) : Prop where
  locked : ∀ t, (s.task t).owns = true → s.txLocked = true
  unique : ∀ t t', (s.task t).owns = true → (s.task t').owns = true → t = t'
  single : ∀ t, (s.task t).phase.ofBlock = true → (s.task t).block = none
  /-- `ensure_ready` asks for no connection. -/
  wanted : ∀ t loan, (s.task t).phase ≠ .taking .ready loan

theorem proper_start {releases : Bool} : (start T releases).Proper := by
  constructor <;> simp [start, PoolTask.owns, PoolPhase.ofBlock]

theorem Proper.keep (proper : s.Proper) (t : T) (task : PoolTask)
    (moved : s'.task = Function.update s.task t task)
    (lock : s'.txLocked = s.txLocked) (owns : task.owns = true → (s.task t).owns = true)
    (single : task.phase.ofBlock = true → task.block = none)
    (wanted : ∀ loan, task.phase ≠ .taking .ready loan) : s'.Proper := by
  have before : ∀ u, (s'.task u).owns = true → (s.task u).owns = true := by
    intro u here
    rw [moved, Function.update_apply] at here
    split at here
    · next same => exact same ▸ owns here
    · exact here
  refine ⟨?_, ?_, ?_, ?_⟩
  · intro u here
    rw [lock]
    exact proper.locked u (before u here)
  · exact fun u v here there => proper.unique u v (before u here) (before v there)
  · intro u
    rw [moved, Function.update_apply]
    split
    · exact single
    · exact proper.single u
  · intro u
    rw [moved, Function.update_apply]
    split
    · exact wanted
    · exact proper.wanted u

theorem Proper.unlock (proper : s.Proper) (t : T) (task : PoolTask)
    (moved : s'.task = Function.update s.task t task)
    (mine : (s.task t).owns = true) (gone : task.owns = false)
    (wanted : ∀ loan, task.phase ≠ .taking .ready loan) : s'.Proper := by
  have nobody : ∀ u, (s'.task u).owns = false := by
    intro u
    rw [moved, Function.update_apply]
    split
    · exact gone
    · next other =>
      rw [Bool.eq_false_iff]
      exact fun here => other (proper.unique u t here mine)
  refine ⟨fun u here => ?_, fun u v here => ?_, ?_, ?_⟩
  · rw [nobody u] at here
    cases here
  · rw [nobody u] at here
    cases here
  · intro u here
    have owns := nobody u
    rw [PoolTask.owns, here, Bool.or_true] at owns
    cases owns
  · intro u
    rw [moved, Function.update_apply]
    split
    · exact wanted
    · exact proper.wanted u

theorem Proper.lock (proper : s.Proper) (moved : s'.task = Function.update s.task t task)
    (free : s.txLocked = false) (taken : s'.txLocked = true) (single : task.block = none)
    (wanted : ∀ loan, task.phase ≠ .taking .ready loan) : s'.Proper := by
  have nobody : ∀ u, (s.task u).owns = false := by
    intro u
    rw [Bool.eq_false_iff]
    intro here
    rw [proper.locked u here] at free
    cases free
  have mine : ∀ u, (s'.task u).owns = true → u = t := by
    intro u here
    rw [moved, Function.update_apply] at here
    split at here
    · next same => exact same
    · rw [nobody u] at here
      cases here
  refine ⟨fun _ _ => taken, fun u v here there => (mine u here).trans (mine v there).symm, ?_, ?_⟩
  · intro u
    rw [moved, Function.update_apply]
    split
    · exact fun _ => single
    · exact proper.single u
  · intro u
    rw [moved, Function.update_apply]
    split
    · exact wanted
    · exact proper.wanted u

theorem Proper.block (proper : s.Proper) (here : (s.task t).phase.ofBlock = true) :
    (s.task t).owns = true ∧ (s.task t).block = none :=
  ⟨by rw [PoolTask.owns, here, Bool.or_true], proper.single t here⟩

theorem Proper.of_same (proper : s.Proper) (tasks : s'.task = s.task)
    (lock : s'.txLocked = s.txLocked) : s'.Proper := by
  obtain ⟨locked, unique, single, wanted⟩ := proper
  refine ⟨?_, ?_, ?_, ?_⟩
  · rw [tasks, lock]
    exact locked
  · rw [tasks]
    exact unique
  · rw [tasks]
    exact single
  · rw [tasks]
    exact wanted

theorem Proper.goTo (proper : s.Proper) (t : T) (phase : PoolPhase)
    (block : phase.ofBlock = true → (s.task t).phase.ofBlock = true)
    (wanted : ∀ loan, phase ≠ .taking .ready loan) : (s.goTo t phase).Proper := by
  refine proper.keep t { s.task t with phase := phase } rfl rfl ?_
    (fun here => proper.single t (block here)) wanted
  intro owns
  rw [PoolTask.owns] at owns ⊢
  rw [Bool.or_eq_true] at owns ⊢
  exact owns.imp_right block

theorem Proper.free (proper : s.Proper) (phase : PoolPhase) (asks : phase.asks = none)
    (block : phase.ofBlock = true → (s.task t).phase.ofBlock = true) :
    (s.goTo t phase).Proper := by
  refine proper.goTo t phase block fun loan same => ?_
  rw [same] at asks
  cases asks

theorem Proper.raiseBlock (proper : s.Proper) (here : (s.task t).phase.ofBlock = true) :
    (s.raiseBlock t).Proper := by
  obtain ⟨mine, outside⟩ := proper.block here
  refine proper.unlock t { s.task t with phase := .idle } rfl mine ?_
    fun loan => PoolPhase.noConfusion
  rw [PoolTask.owns, outside]
  rfl

/-- Whether it is wanted for a block. -/
def forBlock : Purpose → Bool
  | .block _ => true
  | _ => false

@[simp] theorem ofBlock_starting : (PoolPhase.starting purpose).ofBlock = forBlock purpose := by
  cases purpose <;> rfl

@[simp] theorem ofBlock_waiting : (PoolPhase.waiting purpose).ofBlock = forBlock purpose := by
  cases purpose <;> rfl

@[simp] theorem ofBlock_connecting :
    (PoolPhase.connecting purpose).ofBlock = forBlock purpose := by
  cases purpose <;> rfl

@[simp] theorem ofBlock_upgrading {borrowed : Bool} :
    (PoolPhase.upgrading purpose pool borrowed).ofBlock = forBlock purpose := by
  cases purpose <;> rfl

@[simp] theorem ofBlock_taking : (PoolPhase.taking purpose loan).ofBlock = forBlock purpose := by
  cases purpose <;> rfl

@[simp] theorem ofBlock_discarding :
    (PoolPhase.discarding purpose).ofBlock = forBlock purpose := by
  cases purpose <;> rfl

theorem Proper.acquired (proper : s.Proper)
    (block : forBlock purpose = true → (s.task t).phase.ofBlock = true) :
    (s.acquired t own purpose).Proper := by
  cases purpose with
  | statement again => exact proper.free _ rfl Bool.noConfusion
  | block again => exact proper.free _ rfl fun _ => block rfl
  | ready => exact proper.free _ rfl Bool.noConfusion

theorem Proper.failed (proper : s.Proper)
    (block : forBlock purpose = true → (s.task t).phase.ofBlock = true) :
    (s.failed t retryable purpose).Proper := by
  cases purpose with
  | statement again =>
    simp only [PoolState.failed]
    split
    · exact proper.free _ rfl Bool.noConfusion
    · exact proper.free _ rfl Bool.noConfusion
  | block again =>
    simp only [PoolState.failed]
    split
    · exact proper.free _ rfl fun _ => block rfl
    · exact proper.raiseBlock (block rfl)
  | ready => exact proper.free _ rfl Bool.noConfusion

theorem Proper.cancelled (proper : s.Proper)
    (block : forBlock purpose = true → (s.task t).phase.ofBlock = true) :
    (s.cancelled t purpose).Proper := by
  cases purpose with
  | block again => exact proper.raiseBlock (block rfl)
  | statement | ready => exact proper.free _ rfl Bool.noConfusion

theorem Proper.take (proper : s.Proper)
    (block : forBlock purpose = true → (s.task t).phase.ofBlock = true) :
    (s.take t pool purpose).Proper := by
  cases purpose with
  | ready => exact proper.free _ rfl Bool.noConfusion
  | statement again =>
    refine (proper.goTo t (.taking (.statement again) ⟨s.ledger.next, pool⟩)
      Bool.noConfusion ?_).of_same rfl rfl
    intro loan same
    cases same
  | block again =>
    refine (proper.goTo t (.taking (.block again) ⟨s.ledger.next, pool⟩)
      (fun _ => block rfl) ?_).of_same rfl rfl
    intro loan same
    cases same

/-! ## One step -/

variable {before : PoolPhase}

/-- One move of the books, which `_busy` follows. -/
def Turn (s s' : PoolState T) : Prop :=
  ∃ n, Loans.Move s.loans n s'.loans ∧ s'.busy = s.busy + n

theorem Turn.of_same (books : s'.loans = s.loans) (busy : s'.busy = s.busy) : Turn s s' :=
  ⟨0, books ▸ .stay, by rw [busy, add_zero]⟩

theorem Turn.of_start {r : PoolState T} (turn : Turn r s') (books : r.loans = s.loans)
    (busy : r.busy = s.busy) : Turn s s' := by
  obtain ⟨n, move, after⟩ := turn
  exact ⟨n, books ▸ move, busy ▸ after⟩

theorem Lands.turn (lands : Lands s s' t { s.task t with phase := phase })
    (here : (s.task t).phase = before) (asks : phase.asks = before.asks)
    (own : phase.own = before.own) : Turn s s' := by
  subst here
  exact ⟨0, lands.stay asks (congrArg (fun grip => grip.toList ++ _) own),
    by rw [lands.busy, add_zero]⟩

/-- It lands somewhere without a connection of its own. -/
def LandsBare (s s' : PoolState T) (t : T) : Prop :=
  ∃ phase : PoolPhase, phase.asks = none ∧ phase.own = none
    ∧ Lands s s' t { s.task t with phase := phase }

theorem goTo_idle_bare : LandsBare s (s.goTo t .idle) t := ⟨_, rfl, rfl, lands_goTo⟩

theorem raiseBlock_bare : LandsBare s (s.raiseBlock t) t := ⟨.idle, rfl, rfl, rfl, rfl, rfl⟩

theorem LandsBare.turn (lands : LandsBare s s' t) (here : (s.task t).phase = before)
    (asks : before.asks = none) (own : before.own = none) : Turn s s' := by
  obtain ⟨phase, asks', own', lands⟩ := lands
  exact lands.turn here (asks'.trans asks.symm) (own'.trans own.symm)

theorem LandsBare.release (lands : LandsBare (s.release own) s' t)
    (here : (s.task t).phase = before) (asks : before.asks = none) (mine : before.own = own) :
    Turn s s' := by
  subst here
  obtain ⟨phase, asks', own', lands⟩ := lands
  exact lands.release asks mine ⟨asks', own'⟩ (by rw [release_task])

theorem LandsBare.lose (lands : LandsBare (s.lose own) s' t)
    (here : (s.task t).phase = before) (asks : before.asks = none) (mine : before.own = own) :
    Turn s s' := by
  subst here
  obtain ⟨phase, asks', own', lands⟩ := lands
  obtain ⟨move, busy⟩ := lands.lose asks mine ⟨asks', own'⟩ (by rw [lose_task])
  exact ⟨0, move, by rw [busy, add_zero]⟩

theorem LandsBare.refuse (lands : LandsBare (s.refuse loan) s' t)
    (here : (s.task t).phase = before) (mine : before.asks = some loan)
    (nothing : before.own = none) : Turn s s' := by
  subst here
  obtain ⟨phase, asks', own', lands⟩ := lands
  exact ⟨-1, lands.refuse mine nothing ⟨asks', own'⟩ rfl⟩

theorem failed_bare : LandsBare s (s.failed t retryable purpose) t := by
  cases purpose with
  | statement again =>
    simp only [failed]
    split
    · exact ⟨_, rfl, rfl, lands_goTo⟩
    · exact goTo_idle_bare
  | block again =>
    simp only [failed]
    split
    · exact ⟨_, rfl, rfl, lands_goTo⟩
    · exact raiseBlock_bare
  | ready => exact goTo_idle_bare

theorem cancelled_bare : LandsBare s (s.cancelled t purpose) t := by
  cases purpose with
  | block again => exact raiseBlock_bare
  | statement | ready => exact goTo_idle_bare

theorem take_turn (here : (s.task t).phase = before) (asks : before.asks = none)
    (own : before.own = none) : Turn s (s.take t pool purpose) := by
  subst here
  have move : Loans.Move s.loans 1 _ := .ask t pool asks
  have called : ∀ again : Purpose,
      ({ s.goTo t (.taking again ⟨s.ledger.next, pool⟩) with
          busy := s.busy + 1
          ledger := { s.ledger with
            next := s.ledger.next + 1
            asked := s.ledger.asked ++ [⟨s.ledger.next, pool⟩] } } : PoolState T).loans
        = { s.loans with
          next := s.loans.next + 1
          asked := s.loans.asked ++ [⟨s.loans.next, pool⟩]
          asks := Function.update s.loans.asks t (some ⟨s.loans.next, pool⟩) } := by
    intro again
    unfold loans
    congr 1
    · funext u
      rw [goTo_task, Function.update_apply, Function.update_apply]
      split <;> rfl
    · funext u
      rw [goTo_task, Function.update_apply]
      split
      · next same =>
        rw [same]
        change [] ++ _ = (s.task t).phase.own.toList ++ _
        rw [own]
        rfl
      · rfl
  cases purpose with
  | ready => exact goTo_idle_bare.turn rfl asks own
  | statement again => exact ⟨1, called (.statement again) ▸ move, rfl⟩
  | block again => exact ⟨1, called (.block again) ▸ move, rfl⟩

theorem publish_turn (here : (s.task t).phase = before) (asks : before.asks = none)
    (own : before.own = none) : Turn s (s.publish t pool purpose) := by
  refine Turn.of_start (r := { s with
    pool := some pool
    poolLocked := false
    migrated := true
    reaping := s.reaping || (!s.closed && s.releases) }) ?_ rfl rfl
  exact take_turn here asks own

theorem acquired_turn (here : (s.task t).phase = .taking purpose loan)
    (wanted : purpose ≠ .ready) :
    Turn s ((s.lend loan).acquired t (some (loan, loan.place)) purpose) := by
  have asks := congrArg PoolPhase.asks here
  have own := congrArg PoolPhase.own here
  cases purpose with
  | statement again =>
    obtain ⟨move, busy⟩ := (@lands_goTo _ _ (s.lend loan) t
      (.running again (some (loan, loan.place)))).lend asks own rfl rfl rfl
    exact ⟨0, move, by rw [add_zero]; exact busy⟩
  | block again =>
    obtain ⟨move, busy⟩ := (@lands_goTo _ _ (s.lend loan) t
      (.opening again (some (loan, loan.place)))).lend asks own rfl rfl rfl
    exact ⟨0, move, by rw [add_zero]; exact busy⟩
  | ready => exact absurd rfl wanted

theorem acquired_none_bare : LandsBare s (s.acquired t none purpose) t := by
  cases purpose <;> exact ⟨_, rfl, rfl, lands_goTo⟩

theorem go_turn (proper : s.Proper) : Turn s (s.go t) := by
  unfold go
  cases here : (s.task t).phase with
  | idle => exact .of_same rfl rfl
  | starting purpose =>
    dsimp only
    split
    · exact acquired_none_bare.turn here rfl rfl
    · exact lands_goTo.turn here rfl rfl
  | waiting purpose =>
    dsimp only
    split
    · exact .of_same rfl rfl
    · split
      · exact take_turn here rfl rfl
      · exact Lands.turn ⟨rfl, rfl, rfl⟩ here rfl rfl
  | connecting purpose =>
    dsimp only
    split
    · exact (publish_turn (s := { s with nextPool := s.nextPool + 1 }) here rfl rfl).of_start rfl
        rfl
    · exact Lands.turn ⟨rfl, rfl, rfl⟩ here rfl rfl
  | upgrading purpose pool borrowed =>
    cases borrowed with
    | false => exact lands_goTo.turn here rfl rfl
    | true => exact publish_turn here rfl rfl
  | taking purpose loan =>
    refine acquired_turn here ?_
    rintro rfl
    exact proper.wanted t loan here
  | running again own => exact goTo_idle_bare.release here rfl rfl
  | discarding purpose =>
    dsimp only
    split
    · exact .of_same rfl rfl
    · exact Lands.turn ⟨rfl, rfl, rfl⟩ here rfl rfl
  | lockWaiting =>
    dsimp only
    split
    · exact .of_same rfl rfl
    · exact Lands.turn ⟨rfl, rfl, rfl⟩ here rfl rfl
  | opening again own => exact lands_goTo.turn here rfl rfl
  | beginning again own =>
    have outside := proper.single t (congrArg PoolPhase.ofBlock here)
    have lands : Lands s { s.setTask t ⟨.idle, some own⟩ with txBound := true } t
        ⟨.idle, some own⟩ := ⟨rfl, rfl, rfl⟩
    refine ⟨0, lands.stay (congrArg PoolPhase.asks here).symm ?_, (add_zero _).symm⟩
    rw [PoolTask.holds, PoolTask.holds, here, outside]
    exact (List.append_nil _).symm
  | tidying own retry =>
    cases retry with
    | true => exact LandsBare.release ⟨_, rfl, rfl, lands_goTo⟩ here rfl rfl
    | false => exact raiseBlock_bare.release here rfl rfl
  | abandoning own => exact raiseBlock_bare.release here rfl rfl
  | finishing own => exact Lands.turn ⟨rfl, rfl, rfl⟩ here rfl rfl
  | closing own => exact LandsBare.release ⟨.idle, rfl, rfl, rfl, rfl, rfl⟩ here rfl rfl

theorem fail_turn (proper : s.Proper) : Turn s (s.fail t retryable) := by
  have goes := go_turn (t := t) proper
  unfold fail
  cases here : (s.task t).phase with
  | idle | starting | waiting | discarding | lockWaiting => exact .of_same rfl rfl
  | connecting purpose =>
    exact Turn.of_start (r := { s with poolLocked := false })
      (failed_bare.turn here rfl rfl) rfl rfl
  | upgrading purpose pool borrowed =>
    exact Turn.of_start (r := { s with poolLocked := false })
      (failed_bare.turn here rfl rfl) rfl rfl
  | taking purpose loan => exact failed_bare.refuse here rfl rfl
  | running again own => exact failed_bare.release here rfl rfl
  | opening again own => exact failed_bare.release here rfl rfl
  | beginning again own => exact lands_goTo.turn here rfl rfl
  | tidying | finishing => exact goes
  | abandoning own => exact goTo_idle_bare.lose here rfl rfl
  | closing own => exact LandsBare.lose ⟨.idle, rfl, rfl, rfl, rfl, rfl⟩ here rfl rfl

theorem cancel_turn (proper : s.Proper) : Turn s (s.cancel t) := by
  have goes := go_turn (t := t) proper
  unfold cancel
  cases here : (s.task t).phase with
  | idle | starting => exact .of_same rfl rfl
  | waiting purpose => exact cancelled_bare.turn here rfl rfl
  | discarding purpose => exact cancelled_bare.turn here rfl rfl
  | connecting purpose =>
    exact Turn.of_start (r := { s with poolLocked := false })
      (cancelled_bare.turn here rfl rfl) rfl rfl
  | upgrading purpose pool borrowed =>
    exact Turn.of_start (r := { s with poolLocked := false })
      (cancelled_bare.turn here rfl rfl) rfl rfl
  | taking purpose loan => exact cancelled_bare.refuse here rfl rfl
  | running again own => exact goTo_idle_bare.release here rfl rfl
  | lockWaiting => exact goTo_idle_bare.turn here rfl rfl
  | opening again own => exact raiseBlock_bare.release here rfl rfl
  | beginning again own => exact Lands.turn ⟨rfl, rfl, rfl⟩ here rfl rfl
  | tidying own retry => exact Lands.turn ⟨rfl, rfl, rfl⟩ here rfl rfl
  | finishing own => exact goes
  | abandoning own => exact goTo_idle_bare.lose here rfl rfl
  | closing own => exact LandsBare.lose ⟨.idle, rfl, rfl, rfl, rfl, rfl⟩ here rfl rfl

theorem reap_loans : s.reap.loans = s.loans ∧ s.reap.busy = s.busy ∧ s.reap.task = s.task
    ∧ s.reap.txLocked = s.txLocked ∧ s.reap.ledger = s.ledger := by
  unfold reap
  split <;> exact ⟨rfl, rfl, rfl, rfl, rfl⟩

theorem step_turn (proper : s.Proper) (e : PoolEvent T) : Turn s (s.step e) := by
  cases e with
  | call t =>
    simp only [step]
    split
    · next here => exact lands_goTo.turn here rfl rfl
    · exact .of_same rfl rfl
  | enter t =>
    simp only [step]
    split
    · next here => exact lands_goTo.turn here rfl rfl
    · exact .of_same rfl rfl
  | leave t =>
    simp only [step]
    split
    · next own here =>
      have lands : Lands s (s.setTask t ⟨.finishing own, none⟩) t ⟨.finishing own, none⟩ :=
        lands_setTask
      refine ⟨0, lands.stay ?_ ?_, (add_zero _).symm⟩
      · rw [here]
        rfl
      · rw [here]
        exact List.append_nil _
    · exact .of_same rfl rfl
  | ensureReady t =>
    simp only [step]
    split
    · next here => exact lands_goTo.turn here rfl rfl
    · exact .of_same rfl rfl
  | go t => exact go_turn proper
  | fail t retryable => exact fail_turn proper
  | cancel t => exact cancel_turn proper
  | reap => exact .of_same reap_loans.1 reap_loans.2.1
  | close => exact .of_same rfl rfl
  | dropPool =>
    simp only [step]
    split
    · exact .of_same rfl rfl
    · exact .of_same rfl rfl

/-! ## One step and the lock of the blocks -/

theorem Proper.release (proper : s.Proper) : (s.release own).Proper :=
  proper.of_same release_task release_txLocked

theorem Proper.lose (proper : s.Proper) : (s.lose own).Proper :=
  proper.of_same lose_task lose_txLocked

theorem Proper.publish (proper : s.Proper)
    (block : forBlock purpose = true → (s.task t).phase.ofBlock = true) :
    (s.publish t pool purpose).Proper :=
  Proper.take (s := { s with
    pool := some pool
    poolLocked := false
    migrated := true
    reaping := s.reaping || (!s.closed && s.releases) }) (proper.of_same rfl rfl) block

theorem Proper.leave (proper : s.Proper) (here : (s.task t).phase = before)
    (block : before.ofBlock = true) (moved : s'.task =
      Function.update s.task t { s.task t with phase := .idle }) : s'.Proper := by
  subst here
  obtain ⟨mine, outside⟩ := proper.block block
  refine proper.unlock t _ moved mine ?_ fun loan => PoolPhase.noConfusion
  rw [PoolTask.owns, outside]
  rfl

theorem Proper.go (proper : s.Proper) : (s.go t).Proper := by
  unfold PoolState.go
  cases here : (s.task t).phase with
  | idle => exact proper
  | starting purpose =>
    have block : forBlock purpose = true → (s.task t).phase.ofBlock = true := by simp [here]
    dsimp only
    split
    · exact proper.acquired block
    · exact proper.free _ rfl (by simp [here])
  | waiting purpose =>
    have block : forBlock purpose = true → (s.task t).phase.ofBlock = true := by simp [here]
    dsimp only
    split
    · exact proper
    · split
      · exact proper.take block
      · exact (proper.free (.connecting purpose) rfl (by simp [here])).of_same rfl rfl
  | connecting purpose =>
    have block : forBlock purpose = true → (s.task t).phase.ofBlock = true := by simp [here]
    dsimp only
    split
    · exact Proper.publish (s := { s with nextPool := s.nextPool + 1 })
        (proper.of_same rfl rfl) block
    · exact (proper.free (.upgrading purpose s.nextPool false) rfl (by simp [here])).of_same rfl
        rfl
  | upgrading purpose pool borrowed =>
    cases borrowed with
    | false =>
      exact proper.free _ rfl (by simp [here])
    | true =>
      exact proper.publish (by simp [here])
  | taking purpose loan =>
    refine Proper.acquired (s := s.lend loan) (proper.of_same rfl rfl) ?_
    change _ → (s.task t).phase.ofBlock = true
    simp [here]
  | running again own => exact proper.release.free _ rfl Bool.noConfusion
  | discarding purpose =>
    dsimp only
    split
    · exact proper
    · exact (proper.free (.starting purpose) rfl (by simp [here])).of_same rfl rfl
  | lockWaiting =>
    dsimp only
    split
    · exact proper
    · next free =>
      have open_ : (s.task t).block = none := by
        by_contra inside
        have owns : (s.task t).owns = true := by
          rw [PoolTask.owns, Option.isSome_iff_ne_none.mpr inside, Bool.true_or]
        exact free (proper.locked t owns)
      exact proper.lock rfl (Bool.eq_false_iff.mpr free) rfl open_ fun loan =>
        PoolPhase.noConfusion
  | opening again own => exact proper.free _ rfl fun _ => congrArg PoolPhase.ofBlock here
  | beginning again own =>
    have owns := (proper.block (congrArg PoolPhase.ofBlock here)).1
    exact proper.keep t ⟨.idle, some own⟩ rfl rfl (fun _ => owns)
      Bool.noConfusion fun loan => PoolPhase.noConfusion
  | tidying own retry =>
    have block : ((s.release own).task t).phase.ofBlock = true := by
      rw [release_task, here]
      rfl
    cases retry with
    | true => exact proper.release.free _ rfl fun _ => block
    | false => exact proper.release.raiseBlock block
  | abandoning own =>
    have block : ((s.release own).task t).phase.ofBlock = true := by
      rw [release_task, here]
      rfl
    exact proper.release.raiseBlock block
  | finishing own =>
    exact (proper.free (.closing own) rfl fun _ =>
      congrArg PoolPhase.ofBlock here).of_same rfl rfl
  | closing own =>
    refine proper.leave here rfl ?_
    change ((s.release own).goTo t .idle).task = _
    rw [goTo_task, release_task]

theorem Proper.fail (proper : s.Proper) : (s.fail t retryable).Proper := by
  have goes := proper.go (t := t)
  unfold PoolState.fail
  cases here : (s.task t).phase with
  | idle | starting | waiting | discarding | lockWaiting => exact proper
  | connecting purpose =>
    refine Proper.failed (s := { s with poolLocked := false }) (proper.of_same rfl rfl) ?_
    change _ → (s.task t).phase.ofBlock = true
    simp [here]
  | upgrading purpose pool borrowed =>
    refine Proper.failed (s := { s with poolLocked := false }) (proper.of_same rfl rfl) ?_
    change _ → (s.task t).phase.ofBlock = true
    simp [here]
  | taking purpose loan =>
    refine Proper.failed (s := s.refuse loan) (proper.of_same rfl rfl) ?_
    change _ → (s.task t).phase.ofBlock = true
    simp [here]
  | running again own => exact proper.release.failed Bool.noConfusion
  | opening again own =>
    refine proper.release.failed fun _ => ?_
    rw [release_task, here]
    rfl
  | beginning again own => exact proper.free _ rfl fun _ => congrArg PoolPhase.ofBlock here
  | tidying | finishing => exact goes
  | abandoning own => exact proper.lose.free _ rfl Bool.noConfusion
  | closing own =>
    refine proper.leave here rfl ?_
    change ((s.lose own).goTo t .idle).task = _
    rw [goTo_task, lose_task]

theorem Proper.cancel (proper : s.Proper) : (s.cancel t).Proper := by
  have goes := proper.go (t := t)
  unfold PoolState.cancel
  cases here : (s.task t).phase with
  | idle | starting => exact proper
  | waiting purpose =>
    exact proper.cancelled (by simp [here])
  | discarding purpose =>
    exact proper.cancelled (by simp [here])
  | connecting purpose =>
    refine Proper.cancelled (s := { s with poolLocked := false }) (proper.of_same rfl rfl) ?_
    change _ → (s.task t).phase.ofBlock = true
    simp [here]
  | upgrading purpose pool borrowed =>
    refine Proper.cancelled (s := { s with poolLocked := false }) (proper.of_same rfl rfl) ?_
    change _ → (s.task t).phase.ofBlock = true
    simp [here]
  | taking purpose loan =>
    refine Proper.cancelled (s := s.refuse loan) (proper.of_same rfl rfl) ?_
    change _ → (s.task t).phase.ofBlock = true
    simp [here]
  | running again own => exact proper.release.free _ rfl Bool.noConfusion
  | lockWaiting => exact proper.free _ rfl Bool.noConfusion
  | opening again own =>
    refine proper.release.raiseBlock ?_
    rw [release_task, here]
    rfl
  | beginning again own =>
    exact (proper.free (.abandoning own) rfl fun _ =>
      congrArg PoolPhase.ofBlock here).of_same rfl rfl
  | tidying own retry =>
    exact (proper.free (.abandoning own) rfl fun _ =>
      congrArg PoolPhase.ofBlock here).of_same rfl rfl
  | finishing own => exact goes
  | abandoning own => exact proper.lose.free _ rfl Bool.noConfusion
  | closing own =>
    refine proper.leave here rfl ?_
    change ((s.lose own).goTo t .idle).task = _
    rw [goTo_task, lose_task]

theorem Proper.step (proper : s.Proper) (e : PoolEvent T) : (s.step e).Proper := by
  cases e with
  | call t =>
    simp only [PoolState.step]
    split
    · exact proper.free _ rfl Bool.noConfusion
    · exact proper
  | enter t =>
    simp only [PoolState.step]
    split
    · exact proper.free _ rfl Bool.noConfusion
    · exact proper
  | leave t =>
    simp only [PoolState.step]
    split
    · next own here =>
      have owns : (s.task t).owns = true := by
        rw [here]
        rfl
      exact proper.keep t ⟨.finishing own, none⟩ rfl rfl (fun _ => owns)
        (fun _ => rfl) fun loan => PoolPhase.noConfusion
    · exact proper
  | ensureReady t =>
    simp only [PoolState.step]
    split
    · exact proper.free _ rfl Bool.noConfusion
    · exact proper
  | go t => exact proper.go
  | fail t retryable => exact proper.fail
  | cancel t => exact proper.cancel
  | reap => exact proper.of_same reap_loans.2.2.1 reap_loans.2.2.2.1
  | close => exact proper.of_same rfl rfl
  | dropPool =>
    simp only [PoolState.step]
    split
    · exact proper.of_same rfl rfl
    · exact proper

/-! ## What is lost -/

/-- Whether a cursor is being closed, with the lines that give the connection back after it. -/
def closesCursor : PoolPhase → Bool
  | .abandoning _ | .closing _ => true
  | _ => false

/-- Closing the cursor of a transaction raises, or is cancelled. -/
def CursorFails (s : PoolState T) (e : PoolEvent T) : Prop :=
  ∃ t, closesCursor (s.task t).phase = true ∧ (e = .cancel t ∨ ∃ retryable, e = .fail t retryable)

@[simp] theorem release_lost : (s.release own).ledger.lost = s.ledger.lost := by
  cases own <;> rfl

theorem take_lost : (s.take t pool purpose).ledger.lost = s.ledger.lost := by
  cases purpose <;> rfl

theorem acquired_lost : (s.acquired t own purpose).ledger.lost = s.ledger.lost := by
  cases purpose <;> rfl

theorem failed_lost : (s.failed t retryable purpose).ledger.lost = s.ledger.lost := by
  have bare : LandsBare s (s.failed t retryable purpose) t := failed_bare
  obtain ⟨phase, -, -, lands⟩ := bare
  rw [lands.ledger]

theorem cancelled_lost : (s.cancelled t purpose).ledger.lost = s.ledger.lost := by
  cases purpose <;> rfl

theorem go_lost : (s.go t).ledger.lost = s.ledger.lost := by
  unfold go
  cases (s.task t).phase with
  | starting purpose =>
    dsimp only
    split
    · exact acquired_lost
    · rfl
  | waiting purpose =>
    dsimp only
    split
    · rfl
    · split
      · exact take_lost
      · rfl
  | connecting purpose =>
    dsimp only
    split
    · exact take_lost
    · rfl
  | upgrading purpose pool borrowed =>
    cases borrowed with
    | false => rfl
    | true => exact take_lost
  | taking purpose loan => exact acquired_lost
  | discarding | lockWaiting =>
    dsimp only
    split <;> rfl
  | tidying own retry =>
    cases retry with
    | true => exact release_lost
    | false => exact release_lost
  | running | abandoning | closing => exact release_lost
  | idle | opening | beginning | finishing => rfl

theorem fail_lost (well : closesCursor (s.task t).phase = false) :
    (s.fail t retryable).ledger.lost = s.ledger.lost := by
  have goes := go_lost (s := s) (t := t)
  unfold fail
  cases here : (s.task t).phase with
  | idle | starting | waiting | discarding | lockWaiting | beginning => rfl
  | connecting | upgrading | taking => exact failed_lost
  | running | opening => exact failed_lost.trans release_lost
  | tidying | finishing => exact goes
  | abandoning | closing =>
    rw [here] at well
    cases well

theorem cancel_lost (well : closesCursor (s.task t).phase = false) :
    (s.cancel t).ledger.lost = s.ledger.lost := by
  have goes := go_lost (s := s) (t := t)
  unfold cancel
  cases here : (s.task t).phase with
  | idle | starting | lockWaiting | beginning | tidying => rfl
  | waiting | discarding | connecting | upgrading | taking => exact cancelled_lost
  | running | opening => exact release_lost
  | finishing => exact goes
  | abandoning | closing =>
    rw [here] at well
    cases well

theorem step_lost {e : PoolEvent T} (well : ¬CursorFails s e) :
    (s.step e).ledger.lost = s.ledger.lost := by
  cases e with
  | call t | enter t | ensureReady t | leave t | dropPool =>
    simp only [step]
    split <;> rfl
  | go t => exact go_lost
  | fail t retryable =>
    exact fail_lost (Bool.eq_false_iff.mpr fun here => well ⟨t, here, .inr ⟨retryable, rfl⟩⟩)
  | cancel t => exact cancel_lost (Bool.eq_false_iff.mpr fun here => well ⟨t, here, .inl rfl⟩)
  | reap =>
    change s.reap.ledger.lost = _
    rw [reap_loans.2.2.2.2]
  | close => rfl

end PoolState

/-! ## Every run -/

/-- The store after these events. -/
def poolRun (releases : Bool) (events : List (PoolEvent T)) : PoolState T :=
  runSchedule PoolState.step (PoolState.start T releases) events

/-- What the store keeps to. -/
structure PoolLaw (s : PoolState T) : Prop where
  busy : s.busy = s.ledger.out.length + s.ledger.asked.length
  once : (s.ledger.returned.map Prod.fst).Nodup
  home : ∀ r ∈ s.ledger.returned, r.2 = r.1.place ∧ r.1 ∉ s.ledger.out
  /-- What is borrowed is kept by one coroutine, which will give it back. -/
  kept : ∀ loan ∈ s.ledger.out,
    loan ∈ s.ledger.lost ∨ ∃! t, ∃ pool, (loan, pool) ∈ (s.task t).holds
  called : ∀ loan ∈ s.ledger.asked, ∃! t, (s.task t).phase.asks = some loan
  /-- The reaper closes no pool that is in use. -/
  spared : s.reap.pool ≠ s.pool → s.ledger.out = [] ∧ s.ledger.asked = []

/-- The invariant of every run. -/
structure PoolInvariant (s : PoolState T) : Prop where
  balanced : s.loans.Balanced
  busy : s.busy = s.loans.outstanding
  proper : s.Proper

theorem poolInvariant_start {releases : Bool} : PoolInvariant (PoolState.start T releases) :=
  ⟨Loans.balanced_start, rfl, PoolState.proper_start⟩

theorem PoolInvariant.step {s : PoolState T} (inv : PoolInvariant s) (e : PoolEvent T) :
    PoolInvariant (s.step e) := by
  obtain ⟨n, move, busy⟩ := PoolState.step_turn inv.proper e
  exact ⟨inv.balanced.move move, by rw [busy, inv.busy, inv.balanced.outstanding move],
    inv.proper.step e⟩

theorem poolInvariant_run (releases : Bool) (events : List (PoolEvent T)) :
    PoolInvariant (poolRun releases events) :=
  runSchedule_invariant PoolInvariant (fun _ e inv => inv.step e) poolInvariant_start events

theorem PoolState.reap_pool {s : PoolState T} (drops : s.reap.pool ≠ s.pool) : s.busy ≤ 0 := by
  unfold PoolState.reap at drops
  split at drops
  · next idle =>
    simp only [Bool.and_eq_true, Bool.not_eq_true', decide_eq_false_iff_not] at idle
    exact not_lt.mp idle.1.2
  · exact absurd rfl drops

theorem PoolInvariant.law {s : PoolState T} (inv : PoolInvariant s) : PoolLaw s := by
  obtain ⟨balanced, busy, proper⟩ := inv
  refine ⟨?_, balanced.returned_once, ?_, ?_, ?_, ?_⟩
  · rw [busy, add_comm]
    rfl
  · intro r given
    refine ⟨balanced.home r given, fun out => ?_⟩
    exact balanced.out_fresh out (List.mem_map_of_mem given)
  · intro loan out
    refine (balanced.holder loan out).imp_right ?_
    rintro ⟨t, place, held⟩
    refine ⟨t, ⟨place, held⟩, ?_⟩
    rintro t' ⟨place', held'⟩
    exact (balanced.eq_of_held held' held).1
  · intro loan asked
    obtain ⟨t, asks⟩ := balanced.asker loan asked
    exact ⟨t, asks, fun t' asks' => balanced.asker_unique t' t loan asks' asks⟩
  · intro drops
    have none_used : (s.ledger.asked.length : ℤ) + s.ledger.out.length ≤ 0 :=
      busy.symm.trans_le (PoolState.reap_pool drops)
    constructor
    · refine List.eq_nil_of_length_eq_zero ?_
      omega
    · refine List.eq_nil_of_length_eq_zero ?_
      omega

theorem lent_run {s : PoolState T} (inv : PoolInvariant s) (more : List (PoolEvent T))
    {loan : Loan ℕ} (out : loan ∈ s.ledger.out ∨ ∃ pool, (loan, pool) ∈ s.ledger.returned) :
    loan ∈ (runSchedule PoolState.step s more).ledger.out
      ∨ ∃ pool, (loan, pool) ∈ (runSchedule PoolState.step s more).ledger.returned := by
  induction more generalizing s with
  | nil => exact out
  | cons e more ih =>
    refine ih (inv.step e) ?_
    obtain ⟨n, move, -⟩ := PoolState.step_turn inv.proper e
    rcases out with lent | ⟨pool, given⟩
    · exact move.lent lent
    · exact .inr ⟨pool, move.returned given⟩

theorem lost_run {s : PoolState T} {events : List (PoolEvent T)}
    (well : Along PoolState.step (fun s e => ¬PoolState.CursorFails s e) s events) :
    (runSchedule PoolState.step s events).ledger.lost = s.ledger.lost := by
  induction events generalizing s with
  | nil => rfl
  | cons e events ih => exact (ih well.2).trans (PoolState.step_lost well.1)

/-- **In every run** `_busy` is the number of the connections that are borrowed and of the calls of
`pool.acquire()` that are under way, a connection goes back once and to the pool it is from, the
one that borrowed it keeps it until then, and the reaper leaves a pool alone that is in use. -/
theorem poolRun_law (releases : Bool) (events : List (PoolEvent T)) :
    PoolLaw (poolRun releases events)
      ∧ (∀ more, ∀ loan ∈ (poolRun releases events).ledger.out,
        loan ∈ (poolRun releases (events ++ more)).ledger.out
          ∨ ∃ pool, (loan, pool) ∈ (poolRun releases (events ++ more)).ledger.returned)
      ∧ (Along PoolState.step (fun s e => ¬PoolState.CursorFails s e)
          (PoolState.start T releases) events → (poolRun releases events).ledger.lost = []) := by
  refine ⟨(poolInvariant_run releases events).law, ?_, lost_run⟩
  intro more loan out
  rw [poolRun, runSchedule_append]
  exact lent_run (poolInvariant_run releases events) more (.inl out)

/-- `_busy` counts a call of `pool.acquire()` that has not returned. -/
theorem busy_while_acquiring : ¬∀ (releases : Bool) (events : List (PoolEvent Unit)),
    (poolRun releases events).busy = (poolRun releases events).ledger.out.length := by
  intro always
  have here := always true [.call (), .go (), .go (), .go (), .go (), .go ()]
  revert here
  decide

end Zhongzhuan.Store
