import Zhongzhuan.Kit.Journal
import Zhongzhuan.Kit.Schedule

/-!
# `TiDBStore`: transaction blocks between the statements of other coroutines

The model of `_acquire`, `_release`, `_run_statement` and `_TiDBTransaction` of
`store/tidb_store.py`, for any number of coroutines that share one store.

* `TxLock` is `_tx_lock` with the coroutine that holds it: how far its block is, on which
  connection, and what the server keeps of its transaction until it ends.  `TxLock.txConn` is
  `_tx_conn`.
* `Call` is a statement of a coroutine between its `_acquire` and its return.
* `TiDBState` is the whole, with the record of what the server executed, what is durable, what
  returned, and which blocks were rolled back.
* `TxStep` is one step of one coroutine, up to the next `await` that matters; `TiDBState.step`
  executes it, and a step that is not possible changes nothing.

An attempt that `_run_statement` repeats is the failure of one statement and the next
statement of the same coroutine: the second attempt takes its connection anew.

The docstring of the block says that its connection carries the statements of the block.  The
connection is bound to the store, and `_acquire` does not ask who calls:
`rollback_exact` says what holds as long as nobody else calls while it is bound, and that
every such call can go wrong.
-/

namespace Zhongzhuan.Store

open Kit

variable {T : Type}

/-! ## The parties -/

/-- A statement: its number, its coroutine, and the number of the block that issued it, if its
coroutine was inside a block. -/
structure Ticket (T : Type) where
  number : ℕ
  task : T
  block : Option ℕ
deriving DecidableEq, Repr

/-- A coroutine and its statement.  `own` says that the connection was taken from the pool for
it, and goes back there; otherwise it is the one of the open block. -/
inductive Call (T : Type)
  | idle
  | waiting (ticket : Ticket T)
  | holding (conn : ℕ) (own : Bool) (ticket : Ticket T)
  | applied (conn : ℕ) (own : Bool) (ticket : Ticket T)
deriving DecidableEq, Repr

/-- `_tx_lock` and the block of the coroutine that holds it.  The transaction is open at the
server while the block is `begun` or `inside`, with the statements that are `pending`. -/
inductive TxLock (T : Type)
  | free
  /-- The lock is taken, no connection yet. -/
  | entering (owner : T)
  /-- `BEGIN` has been executed, `_tx_conn` is not set yet. -/
  | begun (owner : T) (conn number : ℕ) (pending : List (Ticket T))
  | inside (owner : T) (conn number : ℕ) (pending : List (Ticket T))
  /-- `COMMIT` or `ROLLBACK` has been executed, `_tx_conn` is still set. -/
  | closing (owner : T) (conn : ℕ)
deriving DecidableEq, Repr

namespace TxLock

/-- `_tx_conn`. -/
def txConn : TxLock T → Option ℕ
  | .inside _ conn _ _ | .closing _ conn => some conn
  | _ => none

/-- The connection that the block has out of the pool. -/
def conn : TxLock T → Option ℕ
  | .begun _ conn _ _ | .inside _ conn _ _ | .closing _ conn => some conn
  | _ => none

/-- The number of the open transaction and the statements that are part of it. -/
def transaction : TxLock T → Option (ℕ × List (Ticket T))
  | .begun _ _ number pending | .inside _ _ number pending => some (number, pending)
  | _ => none

/-- The coroutine inside the block, its connection and the number of the block. -/
def holder : TxLock T → Option (T × ℕ × ℕ)
  | .inside owner conn number _ => some (owner, conn, number)
  | _ => none

/-- The number of the block that a coroutine is inside of. -/
def numberFor [DecidableEq T] (t : T) (lock : TxLock T) : Option ℕ :=
  lock.holder.bind fun h => if h.1 = t then some h.2.2 else none

/-- A coroutine is not on its way into a block or out of it. -/
def ready [DecidableEq T] (t : T) : TxLock T → Bool
  | .entering owner | .begun owner _ _ _ | .closing owner _ => decide (owner ≠ t)
  | _ => true

/-- A statement on a connection with an open transaction becomes part of it. -/
def record (conn : ℕ) (ticket : Ticket T) : TxLock T → Option (TxLock T)
  | .begun owner c number pending =>
    if c = conn then some (.begun owner c number (pending ++ [ticket])) else none
  | .inside owner c number pending =>
    if c = conn then some (.inside owner c number (pending ++ [ticket])) else none
  | _ => none

end TxLock

/-- The store, its coroutines and the server. -/
structure TiDBState (T : Type) where
  lock : TxLock T
  /-- The connections that are out of the pool. -/
  borrowed : Finset ℕ
  call : T → Call T
  nextTicket : ℕ
  nextBlock : ℕ
  /-- What the server has executed. -/
  applied : List (Ticket T)
  durable : List (Ticket T)
  /-- What returned to its coroutine without an exception. -/
  returned : List (Ticket T)
  /-- The numbers of the blocks that were rolled back. -/
  rolledBack : List ℕ

/-- A store nobody has used yet. -/
def TiDBState.init : TiDBState T where
  lock := .free
  borrowed := ∅
  call := fun _ => .idle
  nextTicket := 0
  nextBlock := 0
  applied := []
  durable := []
  returned := []
  rolledBack := []

/-! ## The steps -/

/-- One step. -/
inductive TxStep (T : Type)
  /-- `__aenter__` takes the lock. -/
  | enter (t : T)
  /-- `_open_tx_conn`: a connection of the pool, and `BEGIN`. -/
  | begin (conn : ℕ)
  | beginFails
  /-- `_tx_conn` is set. -/
  | bind
  /-- `__aexit__`: `COMMIT` or `ROLLBACK`. -/
  | finish (commit : Bool)
  /-- `_tx_conn` is unset, the connection goes back and the lock is released. -/
  | unbind
  /-- A coroutine calls `execute`, and `_acquire` looks at `_tx_conn`. -/
  | issue (t : T)
  /-- The pool gives it a connection. -/
  | borrow (t : T) (conn : ℕ)
  /-- The server executes the statement. -/
  | apply (t : T)
  | reply (t : T)
  /-- The statement raises. -/
  | fail (t : T)
deriving DecidableEq, Repr

namespace TiDBState

variable [DecidableEq T]

/-- The call of a coroutine is another one. -/
def setCall (s : TiDBState T) (t : T) (call : Call T) : TiDBState T :=
  { s with call := Function.update s.call t call }

/-- `_release`: the connection goes back to the pool unless it belongs to a block. -/
def release (s : TiDBState T) (conn : ℕ) (own : Bool) : TiDBState T :=
  { s with borrowed := if own then s.borrowed.erase conn else s.borrowed }

/-- The server executes a statement: inside the transaction that is open on its connection, or
as one that commits by itself. -/
def executeOn (s : TiDBState T) (conn : ℕ) (ticket : Ticket T) : TiDBState T :=
  match s.lock.record conn ticket with
  | some lock => { s with lock := lock, applied := s.applied ++ [ticket] }
  | none =>
    { s with
      applied := s.applied ++ [ticket]
      durable := s.durable ++ [ticket] }

/-- The statement that a coroutine would issue now. -/
def ticketFor (s : TiDBState T) (t : T) : Ticket T := ⟨s.nextTicket, t, s.lock.numberFor t⟩

/-- A coroutine can issue a statement. -/
def CanIssue (s : TiDBState T) (t : T) : Prop := s.call t = .idle ∧ s.lock.ready t = true

instance (s : TiDBState T) (t : T) : Decidable (s.CanIssue t) :=
  inferInstanceAs (Decidable (_ ∧ _))

/-- The state after a step. -/
def step (s : TiDBState T) : TxStep T → TiDBState T
  | .enter t =>
    if s.lock = .free ∧ s.call t = .idle then { s with lock := .entering t } else s
  | .begin conn =>
    match s.lock with
    | .entering owner =>
      if conn ∈ s.borrowed then s
      else
        { s with
          lock := .begun owner conn s.nextBlock []
          borrowed := insert conn s.borrowed
          nextBlock := s.nextBlock + 1 }
    | _ => s
  | .beginFails =>
    match s.lock with
    | .entering _ => { s with lock := .free }
    | .begun _ conn number _ =>
      { s.release conn true with
        lock := .free
        rolledBack := s.rolledBack ++ [number] }
    | _ => s
  | .bind =>
    match s.lock with
    | .begun owner conn number pending =>
      { s with lock := .inside owner conn number pending }
    | _ => s
  | .finish commit =>
    match s.lock with
    | .inside owner conn number pending =>
      if s.call owner = .idle then
        if commit then
          { s with
            lock := .closing owner conn
            durable := s.durable ++ pending }
        else
          { s with
            lock := .closing owner conn
            rolledBack := s.rolledBack ++ [number] }
      else s
    | _ => s
  | .unbind =>
    match s.lock with
    | .closing _ conn => { s.release conn true with lock := .free }
    | _ => s
  | .issue t =>
    if s.CanIssue t then
      { s.setCall t
          (match s.lock.txConn with
          | some conn => .holding conn false (s.ticketFor t)
          | none => .waiting (s.ticketFor t)) with
        nextTicket := s.nextTicket + 1 }
    else s
  | .borrow t conn =>
    match s.call t with
    | .waiting ticket =>
      if conn ∈ s.borrowed then s
      else
        { s.setCall t (.holding conn true ticket) with
          borrowed := insert conn s.borrowed }
    | _ => s
  | .apply t =>
    match s.call t with
    | .holding conn own ticket => (s.executeOn conn ticket).setCall t (.applied conn own ticket)
    | _ => s
  | .reply t =>
    match s.call t with
    | .applied conn own ticket =>
      { (s.setCall t .idle).release conn own with
        returned := s.returned ++ [ticket] }
    | _ => s
  | .fail t =>
    match s.call t with
    | .idle => s
    | .waiting _ => s.setCall t .idle
    | .holding conn own _ | .applied conn own _ => (s.setCall t .idle).release conn own

/-! ## The law -/

/-- **Every rollback undid exactly the statements of its own block.**  No statement from outside
the open block is part of its transaction; a statement that the server has executed is durable
exactly if it was issued outside every block or in one that was committed; and what returned
to a coroutine outside a block is durable. -/
structure ExactRollback (s : TiDBState T) : Prop where
  own : ∀ number pending, s.lock.transaction = some (number, pending) →
    ∀ ticket ∈ pending, ticket.block = some number
  settled : ∀ ticket ∈ s.applied, ticket ∈ s.durable
    ↔ ∀ number, ticket.block = some number →
        number ∉ s.rolledBack ∧ ∀ pending, s.lock.transaction ≠ some (number, pending)
  stays : ∀ ticket ∈ s.returned, ticket.block = none → ticket ∈ s.durable

/-- No coroutine but the one inside the block calls the store while `_tx_conn` is set. -/
def Alone (s : TiDBState T) : TxStep T → Prop
  | .issue t => s.CanIssue t → s.lock.txConn ≠ none → s.lock.numberFor t ≠ none
  | _ => True

/-! ## The connections -/

/-- A statement on its way, with the connection that was taken from the pool for it or that it
shares with the block. -/
def Uses (call : Call T) (conn : ℕ) (own : Bool) (ticket : Ticket T) : Prop :=
  call = .holding conn own ticket ∨ call = .applied conn own ticket

/-- **As long as nobody else calls while `_tx_conn` is set**: a connection is out of the pool
for one purpose at a time, only the coroutine inside the block uses the block's, and a
statement on a connection of its own was issued outside every block. -/
structure Separate (s : TiDBState T) : Prop where
  block : ∀ conn, s.lock.conn = some conn → conn ∈ s.borrowed
  own : ∀ t conn ticket, Uses (s.call t) conn true ticket →
    conn ∈ s.borrowed ∧ s.lock.conn ≠ some conn ∧ ticket.block = none
  distinct : ∀ t u conn ticket ticket', Uses (s.call t) conn true ticket →
    Uses (s.call u) conn true ticket' → t = u
  waiting : ∀ t ticket, s.call t = .waiting ticket → ticket.block = none
  shared : ∀ t conn ticket, Uses (s.call t) conn false ticket →
    ∃ number, s.lock.holder = some (t, conn, number) ∧ ticket.block = some number
  busy : ∀ t, s.lock.ready t = false → s.call t = .idle

theorem separate_init : (init : TiDBState T).Separate := by
  constructor <;> simp [init, TxLock.conn, TxLock.ready, Uses]

variable {s s' : TiDBState T}

/-- A step of the block: the calls stay, and the block gives up its connection or takes one
that nobody has. -/
theorem Separate.moveLock (sep : s.Separate) (call : s'.call = s.call)
    (block : ∀ conn, s'.lock.conn = some conn → conn ∈ s'.borrowed)
    (kept : ∀ conn ∈ s.borrowed, s.lock.conn ≠ some conn → conn ∈ s'.borrowed)
    (apart : ∀ conn, s'.lock.conn = some conn → s.lock.conn = some conn ∨ conn ∉ s.borrowed)
    (shared : ∀ t conn ticket, Uses (s.call t) conn false ticket →
      s'.lock.holder = s.lock.holder)
    (busy : ∀ t, s'.lock.ready t = false → s.call t = .idle) : s'.Separate where
  block := block
  own := by
    intro t conn ticket uses
    rw [call] at uses
    obtain ⟨out, other, outside⟩ := sep.own t conn ticket uses
    refine ⟨kept conn out other, fun same => ?_, outside⟩
    rcases apart conn same with same | free
    · exact other same
    · exact free out
  distinct := by
    rw [call]
    exact sep.distinct
  waiting := by
    rw [call]
    exact sep.waiting
  shared := by
    intro t conn ticket uses
    rw [call] at uses
    rw [shared t conn ticket uses]
    exact sep.shared t conn ticket uses
  busy := by
    rw [call]
    exact busy

/-- A step of a statement: the block stays where it is, and the connection of no other
statement goes back to the pool. -/
theorem Separate.moveCall (sep : s.Separate) (t : T) (new : Call T)
    (call : s'.call = Function.update s.call t new)
    (conn : s'.lock.conn = s.lock.conn) (holder : s'.lock.holder = s.lock.holder)
    (ready : ∀ u, s'.lock.ready u = s.lock.ready u)
    (kept : ∀ conn ∈ s.borrowed, (∀ ticket, ¬ Uses (s.call t) conn true ticket) →
      conn ∈ s'.borrowed)
    (own : ∀ conn ticket, Uses new conn true ticket →
      conn ∈ s'.borrowed ∧ ticket.block = none
        ∧ (conn ∉ s.borrowed ∨ Uses (s.call t) conn true ticket))
    (waiting : ∀ ticket, new = .waiting ticket → ticket.block = none)
    (shared : ∀ conn ticket, Uses new conn false ticket →
      ∃ number, s.lock.holder = some (t, conn, number) ∧ ticket.block = some number)
    (busy : s.lock.ready t = false → new = .idle) : s'.Separate := by
  -- another coroutine's own connection is not the one of the coroutine that moves
  have apart : ∀ u conn ticket, u ≠ t → Uses (s.call u) conn true ticket →
      ∀ ticket', ¬ Uses new conn true ticket' ∧ ¬ Uses (s.call t) conn true ticket' := by
    intro u conn ticket different uses ticket'
    have old : ¬ Uses (s.call t) conn true ticket' := fun uses' =>
      different (sep.distinct u t conn ticket ticket' uses uses')
    refine ⟨fun uses' => ?_, old⟩
    rcases (own conn ticket' uses').2.2 with free | same
    · exact free (sep.own u conn ticket uses).1
    · exact old same
  refine ⟨?block, ?own, ?distinct, ?waiting, ?shared, ?busy⟩
  case block =>
    intro c same
    rw [conn] at same
    exact kept c (sep.block c same) fun ticket uses => (sep.own t c ticket uses).2.1 same
  case own =>
    intro u c ticket uses
    rw [call] at uses
    rw [conn]
    by_cases h : u = t
    · subst h
      rw [Function.update_self] at uses
      obtain ⟨out, outside, origin⟩ := own c ticket uses
      refine ⟨out, fun same => ?_, outside⟩
      rcases origin with free | old
      · exact free (sep.block c same)
      · exact (sep.own u c ticket old).2.1 same
    · rw [Function.update_of_ne h] at uses
      obtain ⟨out, other, outside⟩ := sep.own u c ticket uses
      exact ⟨kept c out fun ticket' => (apart u c ticket h uses ticket').2, other, outside⟩
  case distinct =>
    intro u v c ticket ticket' usesU usesV
    rw [call] at usesU usesV
    by_cases hu : u = t <;> by_cases hv : v = t
    · rw [hu, hv]
    · subst hu
      rw [Function.update_self] at usesU
      rw [Function.update_of_ne hv] at usesV
      exact absurd usesU (apart v c ticket' hv usesV ticket).1
    · subst hv
      rw [Function.update_self] at usesV
      rw [Function.update_of_ne hu] at usesU
      exact absurd usesV (apart u c ticket hu usesU ticket').1
    · rw [Function.update_of_ne hu] at usesU
      rw [Function.update_of_ne hv] at usesV
      exact sep.distinct u v c ticket ticket' usesU usesV
  case waiting =>
    intro u ticket waits
    rw [call] at waits
    by_cases h : u = t
    · subst h
      exact waiting ticket (by simpa using waits)
    · exact sep.waiting u ticket (by simpa [h] using waits)
  case shared =>
    intro u c ticket uses
    rw [call] at uses
    rw [holder]
    by_cases h : u = t
    · subst h
      exact shared c ticket (by simpa using uses)
    · exact sep.shared u c ticket (by simpa [h] using uses)
  case busy =>
    intro u unready
    rw [ready] at unready
    rw [call]
    by_cases h : u = t
    · subst h
      simpa using busy unready
    · simpa [h] using sep.busy u unready

section

variable (s : TiDBState T) (conn : ℕ) (ticket : Ticket T)

omit [DecidableEq T] in
@[simp] theorem executeOn_borrowed : (s.executeOn conn ticket).borrowed = s.borrowed := by
  unfold executeOn
  split <;> rfl

omit [DecidableEq T] in
@[simp] theorem executeOn_call : (s.executeOn conn ticket).call = s.call := by
  unfold executeOn
  split <;> rfl

omit [DecidableEq T] in
@[simp] theorem executeOn_conn : (s.executeOn conn ticket).lock.conn = s.lock.conn := by
  unfold executeOn TxLock.record
  rcases s.lock with _ | _ | _ | _ | _ <;> grind [TxLock.conn]

omit [DecidableEq T] in
@[simp] theorem executeOn_holder : (s.executeOn conn ticket).lock.holder = s.lock.holder := by
  unfold executeOn TxLock.record
  rcases s.lock with _ | _ | _ | _ | _ <;> grind [TxLock.holder]

@[simp] theorem executeOn_ready (u : T) :
    (s.executeOn conn ticket).lock.ready u = s.lock.ready u := by
  unfold executeOn TxLock.record
  rcases s.lock with _ | _ | _ | _ | _ <;> grind [TxLock.ready]

end

theorem Separate.endCall (sep : s.Separate) {t : T} {conn : ℕ} {own : Bool} {ticket : Ticket T}
    (uses : Uses (s.call t) conn own ticket) (lock : s'.lock = s.lock)
    (call : s'.call = Function.update s.call t .idle)
    (borrowed : s'.borrowed = (s.release conn own).borrowed) : s'.Separate := by
  refine sep.moveCall t .idle call (by rw [lock]) (by rw [lock]) (fun _ => by rw [lock]) ?_
    (by simp [Uses]) (by simp) (by simp [Uses]) (fun _ => rfl)
  intro c out unused
  rw [borrowed]
  cases own with
  | false => exact out
  | true =>
      have different : c ≠ conn := by
        rintro rfl
        exact unused ticket uses
      simp [release, out, different]

theorem separate_issue (sep : s.Separate) {t : T} (alone : s.Alone (.issue t)) :
    (s.step (.issue t)).Separate := by
  simp only [step]
  split
  case isFalse _ => exact sep
  case isTrue can =>
    refine sep.moveCall t _ rfl rfl rfl (fun _ => rfl) (fun _ out _ => out) ?_ ?_ ?_ ?_
    · intro conn ticket uses
      cases bound : s.lock.txConn <;> simp [Uses, bound] at uses
    · intro ticket waits
      cases bound : s.lock.txConn with
      | some conn => simp [bound] at waits
      | none =>
          obtain rfl : s.ticketFor t = ticket := by simpa [bound] using waits
          cases lock : s.lock <;> simp_all [TxLock.txConn, ticketFor, TxLock.numberFor,
            TxLock.holder]
    · intro conn ticket uses
      cases bound : s.lock.txConn with
      | none => simp [Uses, bound] at uses
      | some c =>
          obtain ⟨rfl, rfl⟩ : c = conn ∧ s.ticketFor t = ticket := by
            simpa [Uses, bound] using uses
          have inside := alone can (by simp [bound])
          cases lock : s.lock <;> simp_all [TxLock.txConn, ticketFor, TxLock.numberFor,
            TxLock.holder]
    · intro unready
      simp [can.2] at unready

theorem separate_step (sep : s.Separate) {a : TxStep T} (alone : s.Alone a) :
    (s.step a).Separate := by
  cases a with
  | enter t =>
      simp only [step]
      split
      case isFalse _ => exact sep
      case isTrue free =>
        refine sep.moveLock rfl ?_ (fun _ out _ => out) ?_ ?_ ?_
        · simp [TxLock.conn]
        · simp [TxLock.conn]
        · simp [free.1, TxLock.holder]
        · intro u unready
          obtain rfl : t = u := by simpa [TxLock.ready] using unready
          exact free.2
  | begin conn =>
      simp only [step]
      split
      case h_2 _ => exact sep
      case h_1 owner entering =>
        split
        case isTrue _ => exact sep
        case isFalse free =>
          refine sep.moveLock rfl ?_ ?_ ?_ ?_ ?_
          · simp [TxLock.conn]
          · intro c out _
            simp [out]
          · intro c same
            obtain rfl : conn = c := by simpa [TxLock.conn] using same
            exact .inr free
          · simp [entering, TxLock.holder]
          · intro u unready
            exact sep.busy u (by simpa [entering, TxLock.ready] using unready)
  | beginFails =>
      simp only [step]
      split
      case h_3 _ => exact sep
      case h_1 owner entering =>
        refine sep.moveLock rfl ?_ (fun _ out _ => out) ?_ ?_ ?_
        · simp [TxLock.conn]
        · simp [TxLock.conn]
        · simp [entering, TxLock.holder]
        · simp [TxLock.ready]
      case h_2 owner conn number pending begun =>
        refine sep.moveLock rfl ?_ ?_ ?_ ?_ ?_
        · simp [TxLock.conn]
        · intro c out other
          have different : c ≠ conn := by
            rintro rfl
            exact other (by simp [begun, TxLock.conn])
          simp [release, different, out]
        · simp [TxLock.conn]
        · simp [begun, TxLock.holder]
        · simp [TxLock.ready]
  | bind =>
      simp only [step]
      split
      case h_2 _ => exact sep
      case h_1 owner conn number pending begun =>
        refine sep.moveLock rfl ?_ (fun _ out _ => out) ?_ ?_ ?_
        · intro c same
          exact sep.block c (by simpa [begun, TxLock.conn] using same)
        · intro c same
          exact .inl (by simpa [begun, TxLock.conn] using same)
        · intro t c ticket uses
          obtain ⟨number, holds, _⟩ := sep.shared t c ticket uses
          simp [begun, TxLock.holder] at holds
        · simp [TxLock.ready]
  | finish commit =>
      simp only [step]
      split
      case h_2 _ => exact sep
      case h_1 owner conn number pending inside =>
        split
        case isFalse _ => exact sep
        case isTrue idle =>
          have closes : ∀ s' : TiDBState T, s'.lock = .closing owner conn →
              s'.call = s.call → s'.borrowed = s.borrowed → s'.Separate := by
            intro s' lock call borrowed
            refine sep.moveLock call ?_ ?_ ?_ ?_ ?_
            · intro c same
              rw [borrowed]
              exact sep.block c (by simpa [inside, lock, TxLock.conn] using same)
            · intro c out _
              rwa [borrowed]
            · intro c same
              exact .inl (by simpa [inside, lock, TxLock.conn] using same)
            · -- only the owner shares the connection, and it has nothing under way
              intro t c ticket uses
              obtain ⟨number, holds, _⟩ := sep.shared t c ticket uses
              obtain ⟨rfl, _⟩ : owner = t ∧ _ := by
                simpa [inside, TxLock.holder] using holds
              simp [Uses, idle] at uses
            · intro u unready
              obtain rfl : owner = u := by simpa [lock, TxLock.ready] using unready
              exact idle
          split
          · exact closes _ rfl rfl rfl
          · exact closes _ rfl rfl rfl
  | unbind =>
      simp only [step]
      split
      case h_2 _ => exact sep
      case h_1 owner conn closing =>
        refine sep.moveLock rfl ?_ ?_ ?_ ?_ ?_
        · simp [TxLock.conn]
        · intro c out other
          have different : c ≠ conn := by
            rintro rfl
            exact other (by simp [closing, TxLock.conn])
          simp [release, different, out]
        · simp [TxLock.conn]
        · simp [closing, TxLock.holder]
        · simp [TxLock.ready]
  | issue t => exact separate_issue sep alone
  | borrow t conn =>
      simp only [step]
      split
      case h_2 _ => exact sep
      case h_1 ticket waits =>
        split
        case isTrue _ => exact sep
        case isFalse free =>
          refine sep.moveCall t _ rfl rfl rfl (fun _ => rfl) ?_ ?_ ?_ ?_ ?_
          · intro c out _
            simp [out]
          · intro c ticket' uses
            obtain ⟨rfl, rfl⟩ : conn = c ∧ ticket = ticket' := by simpa [Uses] using uses
            exact ⟨by simp, sep.waiting t _ waits, .inl free⟩
          · simp
          · simp [Uses]
          · intro unready
            simp [sep.busy t unready] at waits
  | apply t =>
      simp only [step]
      split
      case h_2 _ => exact sep
      case h_1 conn own ticket holds =>
        refine sep.moveCall t (.applied conn own ticket) ?_ ?_ ?_ ?_ ?_ ?_ ?_ ?_ ?_
        · simp [setCall]
        · simp [setCall]
        · simp [setCall]
        · simp [setCall]
        · intro c out _
          simpa [setCall] using out
        · intro c ticket' uses
          obtain ⟨rfl, rfl, rfl⟩ : conn = c ∧ own = true ∧ ticket = ticket' := by
            simpa [Uses] using uses
          have old := sep.own t conn ticket (.inl holds)
          exact ⟨by simpa [setCall] using old.1, old.2.2, .inr (.inl holds)⟩
        · simp
        · intro c ticket' uses
          obtain ⟨rfl, rfl, rfl⟩ : conn = c ∧ own = false ∧ ticket = ticket' := by
            simpa [Uses] using uses
          exact sep.shared t conn ticket (.inl holds)
        · intro unready
          simp [sep.busy t unready] at holds
  | reply t =>
      simp only [step]
      split
      case h_2 _ => exact sep
      case h_1 conn own ticket applied => exact sep.endCall (.inr applied) rfl rfl rfl
  | fail t =>
      simp only [step]
      split
      case h_1 _ => exact sep
      case h_2 ticket waits =>
        exact sep.moveCall t .idle rfl rfl rfl (fun _ => rfl) (fun _ out _ => out)
          (by simp [Uses]) (by simp) (by simp [Uses]) (fun _ => rfl)
      case h_3 conn own ticket holds => exact sep.endCall (.inl holds) rfl rfl rfl
      case h_4 conn own ticket applied => exact sep.endCall (.inr applied) rfl rfl rfl

/-! ## The journal of the server -/

/-- What the server and the records make of the statements. -/
def journal (s : TiDBState T) : Journal (Ticket T) where
  opened := s.lock.transaction
  next := s.nextBlock
  executed := s.applied
  durable := s.durable
  rolledBack := s.rolledBack

omit [DecidableEq T] in
theorem transaction_of_holder {lock : TxLock T} {t : T} {conn number : ℕ}
    (holds : lock.holder = some (t, conn, number)) :
    ∃ pending, lock = .inside t conn number pending := by
  cases lock with
  | inside owner c n pending =>
      obtain ⟨rfl, rfl, rfl⟩ : owner = t ∧ c = conn ∧ n = number := by
        simpa [TxLock.holder] using holds
      exact ⟨pending, rfl⟩
  | _ => simp [TxLock.holder] at holds

omit [DecidableEq T] in
theorem record_of_apart {lock : TxLock T} {conn : ℕ} (apart : lock.conn ≠ some conn)
    (ticket : Ticket T) : lock.record conn ticket = none := by
  cases lock <;> simp_all [TxLock.record, TxLock.conn]

/-- **Every step is a move of the journal**: what a coroutine issues inside its block lands in
the block's transaction, and everything else outside of it. -/
theorem journal_step (sep : s.Separate) (a : TxStep T) :
    Journal.Move Ticket.block s.journal (s.step a).journal := by
  cases a with
  | enter t =>
      simp only [step]
      split
      case isFalse _ => exact .stay
      case isTrue free =>
        have closed : s.journal = { s with lock := .entering t : TiDBState T }.journal := by
          simp [journal, free.1, TxLock.transaction]
        rw [← closed]
        exact .stay
  | begin conn =>
      simp only [step]
      split
      case h_2 _ => exact .stay
      case h_1 owner entering =>
        split
        case isTrue _ => exact .stay
        case isFalse _ => exact .start (by simp [journal, entering, TxLock.transaction])
  | beginFails =>
      simp only [step]
      split
      case h_3 _ => exact .stay
      case h_1 owner entering =>
        have closed : s.journal = { s with lock := .free : TiDBState T }.journal := by
          simp [journal, entering, TxLock.transaction]
        rw [← closed]
        exact .stay
      case h_2 owner conn number pending begun =>
        have opened : s.journal.opened = some (number, pending) := by
          simp [journal, begun, TxLock.transaction]
        exact .rollback opened
  | bind =>
      simp only [step]
      split
      case h_2 _ => exact .stay
      case h_1 owner conn number pending begun =>
        have same : s.journal
            = { s with lock := .inside owner conn number pending : TiDBState T }.journal := by
          simp [journal, begun, TxLock.transaction]
        rw [← same]
        exact .stay
  | finish commit =>
      simp only [step]
      split
      case h_2 _ => exact .stay
      case h_1 owner conn number pending inside =>
        have opened : s.journal.opened = some (number, pending) := by
          simp [journal, inside, TxLock.transaction]
        repeat' split
        · exact .commit opened
        · exact .rollback opened
        · exact .stay
  | unbind =>
      simp only [step]
      split
      case h_2 _ => exact .stay
      case h_1 owner conn closing =>
        have closed : s.journal
            = { s.release conn true with lock := .free : TiDBState T }.journal := by
          simp [journal, closing, TxLock.transaction, release]
        rw [← closed]
        exact .stay
  | issue t =>
      simp only [step]
      split
      · exact .stay
      · exact .stay
  | borrow t conn =>
      simp only [step]
      repeat' split
      all_goals exact .stay
  | apply t =>
      simp only [step]
      split
      case h_2 _ => exact .stay
      case h_1 conn own ticket holds =>
        cases own with
        | true =>
            obtain ⟨_, apart, outside⟩ := sep.own t conn ticket (.inl holds)
            simp only [executeOn, record_of_apart apart]
            exact .alone outside
        | false =>
            obtain ⟨number, holder, meant⟩ := sep.shared t conn ticket (.inl holds)
            obtain ⟨pending, inside⟩ := transaction_of_holder holder
            have opened : s.journal.opened = some (number, pending) := by
              simp [journal, inside, TxLock.transaction]
            simp only [executeOn, inside, TxLock.record, if_true]
            exact .record opened meant
  | reply t =>
      simp only [step]
      split
      case h_1 _ => exact .stay
      case h_2 _ => exact .stay
  | fail t =>
      simp only [step]
      repeat' split
      all_goals exact .stay

/-- What has returned, or is about to, has been executed. -/
structure Recorded (s : TiDBState T) : Prop where
  calls : ∀ t conn own ticket, s.call t = .applied conn own ticket → ticket ∈ s.applied
  returned : ∀ ticket ∈ s.returned, ticket ∈ s.applied

theorem recorded_step (rec : s.Recorded) (a : TxStep T) : (s.step a).Recorded := by
  obtain ⟨calls, returned⟩ := rec
  cases a with
  | apply t =>
      simp only [step]
      split
      case h_2 _ => exact ⟨calls, returned⟩
      case h_1 conn own ticket holds =>
        have grows : (s.executeOn conn ticket).applied = s.applied ++ [ticket] := by
          unfold executeOn
          split <;> rfl
        have same : (s.executeOn conn ticket).returned = s.returned := by
          unfold executeOn
          split <;> rfl
        constructor
        · intro u c own' ticket' executed
          by_cases h : u = t
          · subst h
            obtain ⟨_, _, rfl⟩ : conn = c ∧ own = own' ∧ ticket = ticket' := by
              simpa [setCall] using executed
            simp [setCall, grows]
          · have old := calls u c own' ticket' (by simpa [setCall, h] using executed)
            simp [setCall, grows, old]
        · intro ticket' mem
          have old := returned ticket' (by simpa [setCall, same] using mem)
          simp [setCall, grows, old]
  | enter | begin | beginFails | bind | finish | unbind | issue | borrow | reply | fail =>
      simp only [step, setCall, release]
      repeat' split
      all_goals constructor <;> grind

/-! ## Whole runs -/

/-- The invariant of the runs in which nobody else calls while `_tx_conn` is set. -/
structure Orderly (s : TiDBState T) : Prop where
  separate : s.Separate
  balanced : s.journal.Balanced Ticket.block
  recorded : s.Recorded

theorem orderly_init : (init : TiDBState T).Orderly where
  separate := separate_init
  balanced := Journal.balanced_empty
  recorded := ⟨by simp [init], by simp [init]⟩

theorem orderly_step (orderly : s.Orderly) {a : TxStep T} (alone : s.Alone a) :
    (s.step a).Orderly where
  separate := separate_step orderly.separate alone
  balanced := orderly.balanced.move (journal_step orderly.separate a)
  recorded := recorded_step orderly.recorded a

theorem Orderly.exactRollback (orderly : s.Orderly) : s.ExactRollback := by
  have settled : ∀ ticket ∈ s.applied,
      ticket ∈ s.durable ↔ s.journal.Settled Ticket.block ticket := fun ticket executed => by
    rw [show s.durable = s.journal.durable from rfl, orderly.balanced.durable]
    exact and_iff_right executed
  refine ⟨?_, settled, ?_⟩
  · intro number pending opened ticket mem
    exact ((orderly.balanced.pending number pending opened ticket).mp mem).2
  · intro ticket returned outside
    rw [settled ticket (orderly.recorded.returned ticket returned)]
    intro number meant
    simp [outside] at meant

/-- **A call of somebody else while `_tx_conn` is set can go wrong**: the statement becomes
part of the transaction, at once or, when the block is about to end, as part of the next
block on the same connection. -/
theorem exists_wrong_of_not_alone (sep : s.Separate) {t : T} (other : ¬ s.Alone (.issue t)) :
    ∃ post, Along step Alone (s.step (.issue t)) post
      ∧ ¬ (runSchedule step (s.step (.issue t)) post).ExactRollback := by
  obtain ⟨can, bound, outside⟩ :
      s.CanIssue t ∧ s.lock.txConn ≠ none ∧ s.lock.numberFor t = none := by
    simpa [Alone] using other
  cases lock : s.lock with
  | free | entering | begun => simp [lock, TxLock.txConn] at bound
  | inside owner conn number pending =>
      refine ⟨[.apply t], by simp [Alone], fun exact => ?_⟩
      have meant := exact.own number (pending ++ [s.ticketFor t])
        (by simp [can, lock, step, setCall, executeOn, TxLock.txConn, TxLock.record,
          TxLock.transaction]) (s.ticketFor t) (by simp)
      simp [ticketFor, outside] at meant
  | closing owner conn =>
      have idle : s.call owner = .idle := sep.busy owner (by simp [lock, TxLock.ready])
      have different : owner ≠ t := by simpa [lock, TxLock.ready] using can.2
      refine ⟨[.unbind, .enter owner, .begin conn, .apply t], by simp [Alone], fun exact => ?_⟩
      have meant := exact.own s.nextBlock [s.ticketFor t]
        (by simp [can, lock, step, setCall, release, executeOn, TxLock.txConn, TxLock.record,
          TxLock.transaction, idle, different]) (s.ticketFor t) (by simp)
      simp [ticketFor, outside] at meant

theorem orderly_of_along {sched : List (TxStep T)} (along : Along step Alone init sched) :
    (runSchedule step init sched).Orderly :=
  runSchedule_of_along Orderly (fun _ _ orderly alone => orderly_step orderly alone)
    orderly_init along

/-- Whatever part of the run has happened, and however it goes on without somebody else calling
while `_tx_conn` is set, every rollback undoes exactly the statements of its own block. -/
def StaysExact (sched : List (TxStep T)) : Prop :=
  ∀ pre suffix, sched = pre ++ suffix → ∀ post, Along step Alone (runSchedule step init pre) post →
    (runSchedule step init (pre ++ post)).ExactRollback

/-- **When the rollback of a block undoes exactly the block's own statements**, over every
interleaving of any number of coroutines: exactly when no coroutine but the one inside the
block calls the store while `_tx_conn` is set. -/
theorem rollback_exact_iff (sched : List (TxStep T)) :
    StaysExact sched ↔ Along step Alone init sched := by
  constructor
  · intro exact
    -- the first call that is not alone has a continuation that goes wrong
    induction sched using List.reverseRecOn with
    | nil => trivial
    | append_singleton sched a ih =>
        have earlier : Along step Alone init sched :=
          ih fun pre suffix split => exact pre (suffix ++ [a]) (by simp [split])
        rw [along_append]
        refine ⟨earlier, ?_, trivial⟩
        by_contra other
        cases a with
        | issue t =>
            obtain ⟨post, quiet, wrong⟩ := exists_wrong_of_not_alone
              (orderly_of_along earlier).separate other
            refine wrong ?_
            have right := exact (sched ++ [.issue t]) [] (by simp) post
              (by simpa [runSchedule_append] using quiet)
            simpa [runSchedule_append] using right
        | _ => exact other trivial
  · intro alone pre suffix split post quiet
    subst split
    have along : Along step Alone init (pre ++ post) :=
      (along_append ..).mpr ⟨((along_append ..).mp alone).1, quiet⟩
    exact (orderly_of_along along).exactRollback

/-- **A statement of a second coroutine is lost with the block of the first**: it is issued
while the block is open, returns, and the block is rolled back. -/
theorem otherStatement_undone :
    ¬ (runSchedule step (init : TiDBState ℕ)
        [.enter 0, .begin 7, .bind, .issue 1, .apply 1, .reply 1,
          .finish false]).ExactRollback := by
  intro exact
  have durable := exact.stays ⟨0, 1, none⟩ (by decide +kernel) rfl
  exact absurd durable (by decide +kernel)

end TiDBState

end Zhongzhuan.Store
