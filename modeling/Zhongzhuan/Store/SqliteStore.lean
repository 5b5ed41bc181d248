import Mathlib

/-!
# `SqliteStore`: statements and transaction blocks on one connection

The model of `store/sqlite_store.py` over databases of any kind.

* `Connection` is SQLite's side, as `aiosqlite` gives it: the contents that are committed,
  which every other connection reads, and those of the open transaction.  `sqlite3` opens a
  transaction by itself before a statement that changes rows; a statement that raises has
  been undone, and the transaction stays open.
* `storeExecute` is `SqliteStore.execute`, and as far as the database goes
  `execute_rowcount`: the statement, and a commit.
* `Block.run` is an `async with store.transaction()` block around calls of these two, with
  the contents others can see after each of its steps.

The transaction object counts on the statements to leave the commit to it, and they do not:
`block_atomic_iff` says which blocks are atomic all the same.
-/

namespace Zhongzhuan.Store

universe u

variable {D : Type u}

/-! ## The connection -/

/-- A statement with its parameters.  `effect` is what it makes of the contents, `none` when
it raises. -/
structure Statement (D : Type u) where
  /-- `INSERT`, `UPDATE`, `DELETE` or `REPLACE`. -/
  changesRows : Bool
  effect : D → Option D

/-- A connection: the committed contents, and those of the open transaction. -/
structure Connection (D : Type u) where
  committed : D
  working : Option D

namespace Connection

/-- What the connection itself reads. -/
def view (c : Connection D) : D := c.working.getD c.committed

/-- `BEGIN`, outside a transaction. -/
def begin (c : Connection D) : Connection D := ⟨c.committed, some c.committed⟩

/-- `commit`; nothing happens outside a transaction. -/
def commit (c : Connection D) : Connection D := ⟨c.view, none⟩

/-- `rollback`. -/
def rollback (c : Connection D) : Connection D := ⟨c.committed, none⟩

/-- `Connection.execute`, and whether it returned. -/
def execute (c : Connection D) (s : Statement D) : Connection D × Bool :=
  let c := if s.changesRows && c.working.isNone then c.begin else c
  match s.effect c.view, c.working with
  | none, _ => (c, false)
  | some d, some _ => (⟨c.committed, some d⟩, true)
  | some d, none => (⟨d, none⟩, true)

end Connection

/-! ## The store -/

/-- `SqliteStore.execute` and `execute_rowcount`: the statement, then a commit. -/
def storeExecute (c : Connection D) (s : Statement D) : Connection D × Bool :=
  let done := c.execute s
  if done.2 then (done.1.commit, true) else done

/-- The body of a block: the statements it issues, one after the other, and whether it raises
after the last of them.  A statement that raises ends the body at once. -/
structure Block (D : Type u) where
  statements : List (Statement D)
  raises : Bool

/-- A block while it runs and when it is over: the contents other connections could see after
each step, the connection, and whether an exception left the body. -/
structure Trace (D : Type u) where
  visible : List D
  connection : Connection D
  raised : Bool

/-- `__aenter__`. -/
def enter (c : Connection D) : Connection D :=
  (if c.working.isSome then c.commit else c).begin

/-- The statements of the body. -/
def runBody (c : Connection D) : List (Statement D) → Trace D
  | [] => ⟨[], c, false⟩
  | s :: rest =>
    let done := storeExecute c s
    if done.2 then
      let more := runBody done.1 rest
      { more with visible := done.1.committed :: more.visible }
    else ⟨[done.1.committed], done.1, true⟩

/-- `__aexit__`. -/
def exit (c : Connection D) (raised : Bool) : Connection D :=
  if raised then c.rollback else c.commit

/-- The whole block. -/
def Block.run (block : Block D) (c : Connection D) : Trace D :=
  let entered := enter c
  let body := runBody entered block.statements
  let raised := body.raised || block.raises
  let left := exit body.connection raised
  { visible := entered.committed :: body.visible ++ [left.committed]
    connection := left
    raised := raised }

/-! ## What the statements alone make of the contents -/

/-- The contents after each statement that returned, and whether all of them did. -/
def applied (d : D) : List (Statement D) → List D × Bool
  | [] => ([], true)
  | s :: rest =>
    match s.effect d with
    | none => ([], false)
    | some d' => (d' :: (applied d' rest).1, (applied d' rest).2)

/-- The contents after all statements that returned. -/
def outcome (d : D) (statements : List (Statement D)) : D :=
  (applied d statements).1.getLastD d

/-- **An atomic block**, for contents `before` it: an exception leaves them as they were, and
a normal end shows all writes at once, so that nothing in between is ever visible. -/
structure AtomicBlock (before : D) (block : Block D) (trace : Trace D) : Prop where
  undone : trace.raised = true → trace.connection.committed = before
  together : trace.raised = false →
    trace.connection.committed = outcome before block.statements
      ∧ ∀ d ∈ trace.visible, d = before ∨ d = trace.connection.committed

/-- The blocks that are atomic although every statement commits: the statements before an
exception amount to nothing, and those of a block that returns pass through no third state. -/
structure Harmless (before : D) (block : Block D) : Prop where
  undone : (block.raises = true ∨ (applied before block.statements).2 = false) →
    outcome before block.statements = before
  together : block.raises = false → (applied before block.statements).2 = true →
    ∀ d ∈ (applied before block.statements).1, d = before ∨ d = outcome before block.statements

/-! ## Every statement commits -/

/-- Nothing is pending: the connection reads what everybody reads. -/
def Settled (c : Connection D) : Prop := c.view = c.committed

theorem settled_begin (c : Connection D) : Settled c.begin := rfl

theorem storeExecute_spec {c : Connection D} (h : Settled c) (s : Statement D) :
    (s.effect c.committed = none ∧ (storeExecute c s).2 = false
        ∧ (storeExecute c s).1.committed = c.committed)
      ∨ ∃ d, s.effect c.committed = some d ∧ storeExecute c s = (⟨d, none⟩, true) := by
  have opened : ∃ working : Option D,
      (if s.changesRows && c.working.isNone then c.begin else c) = ⟨c.committed, working⟩
        ∧ working.getD c.committed = c.committed := by
    split
    · exact ⟨_, rfl, rfl⟩
    · exact ⟨c.working, rfl, h⟩
  obtain ⟨working, same, reads⟩ := opened
  have view : (⟨c.committed, working⟩ : Connection D).view = c.committed := reads
  unfold storeExecute Connection.execute
  rw [same]
  dsimp only
  rw [view]
  cases result : s.effect c.committed with
  | none => exact .inl ⟨rfl, rfl, rfl⟩
  | some d =>
      refine .inr ⟨d, rfl, ?_⟩
      cases working <;> rfl

theorem runBody_spec {c : Connection D} (h : Settled c) (statements : List (Statement D)) :
    (runBody c statements).connection.committed = outcome c.committed statements
      ∧ (runBody c statements).raised = !(applied c.committed statements).2
      ∧ ((runBody c statements).raised = false →
          Settled (runBody c statements).connection
            ∧ (runBody c statements).visible = (applied c.committed statements).1) := by
  induction statements generalizing c with
  | nil => exact ⟨rfl, rfl, fun _ => ⟨h, rfl⟩⟩
  | cons s rest ih =>
      unfold runBody
      rcases storeExecute_spec h s with ⟨failed, stopped, same⟩ | ⟨d, result, committed⟩
      · have none : applied c.committed (s :: rest) = ([], false) := by
          rw [applied, failed]
        dsimp only
        rw [stopped, outcome, none]
        exact ⟨same, rfl, nofun⟩
      · obtain ⟨last, raised, returned⟩ := ih (c := ⟨d, none⟩) rfl
        have more : applied c.committed (s :: rest)
            = (d :: (applied d rest).1, (applied d rest).2) := by
          rw [applied, result]
        have ends : outcome c.committed (s :: rest) = outcome d rest := by
          rw [outcome, more, outcome]
          exact List.getLastD_cons ..
        rw [committed, ends, more]
        dsimp only
        exact ⟨last, raised, fun quiet =>
          ⟨(returned quiet).1, congrArg (d :: ·) (returned quiet).2⟩⟩

theorem enter_eq (c : Connection D) : enter c = ⟨c.view, some c.view⟩ := by
  unfold enter
  cases held : c.working with
  | none => simp [Connection.begin, Connection.view, held]
  | some d => simp [Connection.begin, Connection.commit, Connection.view, held]

theorem run_spec (c : Connection D) (block : Block D) :
    (block.run c).raised = (!(applied c.view block.statements).2 || block.raises)
      ∧ (block.run c).connection.committed = outcome c.view block.statements
      ∧ ((block.run c).raised = false →
          (block.run c).visible = c.view :: (applied c.view block.statements).1
            ++ [outcome c.view block.statements]) := by
  obtain ⟨last, raised, returned⟩ :=
    runBody_spec (settled_begin ⟨c.view, none⟩) block.statements
  have entered : enter c = (⟨c.view, none⟩ : Connection D).begin := enter_eq c
  have committed : (⟨c.view, none⟩ : Connection D).begin.committed = c.view := rfl
  rw [committed] at last raised returned
  unfold Block.run exit
  dsimp only
  rw [entered, committed, ← raised]
  refine ⟨rfl, ?_, fun quiet => ?_⟩
  · split
    case isTrue _ => exact last
    case isFalse quiet =>
      rw [Bool.not_eq_true, Bool.or_eq_false_iff] at quiet
      exact (returned quiet.1).1.trans last
  · have calm := (Bool.or_eq_false_iff.mp quiet).1
    rw [quiet, (returned calm).2]
    exact congrArg (fun d => c.view :: (applied c.view block.statements).1 ++ [d])
      ((returned calm).1.trans last)

/-- **Which transaction blocks are atomic.**  The statements inside commit by themselves, so
the rollback of the block finds nothing to undo and its commit nothing to show: the block is
atomic exactly when its statements are harmless. -/
theorem block_atomic_iff (c : Connection D) (block : Block D) :
    AtomicBlock c.view block (block.run c) ↔ Harmless c.view block := by
  obtain ⟨raised, left, shown⟩ := run_spec c block
  constructor
  · intro h
    refine ⟨fun stops => ?_, fun quiet all d mem => ?_⟩
    · rw [← left]
      refine h.undone ?_
      rw [raised]
      rcases stops with raises | failed
      · rw [raises, Bool.or_true]
      · rw [failed]
        rfl
    · have calm : (block.run c).raised = false := by rw [raised, all, quiet]; rfl
      rw [← left]
      refine (h.together calm).2 d ?_
      rw [shown calm]
      exact List.mem_append_left _ (List.mem_cons_of_mem _ mem)
  · intro h
    refine ⟨fun stops => ?_, fun calm => ⟨left, fun d mem => ?_⟩⟩
    · rw [left]
      refine h.undone ?_
      rw [raised, Bool.or_eq_true, Bool.not_eq_true'] at stops
      exact stops.symm
    · rw [shown calm] at mem
      rw [raised, Bool.or_eq_false_iff, Bool.not_eq_false'] at calm
      rw [left]
      rcases List.mem_append.mp mem with inside | isLast
      · rcases List.mem_cons.mp inside with first | inside
        · exact .inl first
        · exact h.together calm.2 calm.1 d inside
      · exact .inr (List.mem_singleton.mp isLast)

/-! ## A price that is lost -/

/-- `model_pricing`: the rows with their primary key, whatever their other columns hold. -/
abbrev Pricing (R : Type) := List (String × R)

section Pricing

variable {R : Type}

/-- `DELETE FROM model_pricing WHERE model_name=?`. -/
def deletePricing (model : String) : Statement (Pricing R) where
  changesRows := true
  effect := fun rows => some (rows.filter fun row => row.1 ≠ model)

/-- The `INSERT` of `upsert_pricing`; SQLite refuses it when the disk is full or the lock of
another writer outlasts `busy_timeout`. -/
def insertPricing (model : String) (row : R) (refused : Bool) : Statement (Pricing R) where
  changesRows := true
  effect := fun rows =>
    if refused || rows.any (·.1 = model) then none else some (rows ++ [(model, row)])

/-- The block of `upsert_pricing`. -/
def upsertPricing (model : String) (row : R) (refused : Bool) : Block (Pricing R) where
  statements := [deletePricing model, insertPricing model row refused]
  raises := false

end Pricing

/-- The `DELETE` went through and the `INSERT` raised: the old price is gone. -/
theorem upsertPricing_not_atomic :
    ¬ AtomicBlock [("m", 1)] (upsertPricing "m" 2 true)
      ((upsertPricing "m" 2 true).run ⟨[("m", 1)], none⟩) := by
  intro h
  have lost := h.undone (by decide)
  revert lost
  decide

end Zhongzhuan.Store
