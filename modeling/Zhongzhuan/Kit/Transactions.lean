import Mathlib

/-!
# Programs on a transactional database that may fail at any call

A program makes calls on one connection to a database, one after the other.  What becomes of
each call is not up to the program: a `Plan` says which calls raise, which are cancelled, and
where the process dies.  A call that is not carried out has no effect on the database.

* `Procedure` is a program, with the calls `read`, `change`, `beginWork`, `commit`, `rollback`, and
  the two ways of going on after a failure, `outcome` (`except Exception`) and `onHalt`
  (`except BaseException` with the failure raised again).
* `Ends` says how a run ends: what holds when it returns, and what holds when it halts.  It has
  one rule for each way to build a program.

Only what is `durable` outlives the connection.
-/

namespace Zhongzhuan.Kit.Transactions

universe u

/-- What becomes of one call. -/
inductive Fate
  | fine
  | fails
  | cancelled
  | killed
deriving DecidableEq, Repr

/-- Why a run stopped before its end. -/
inductive Halt (ε : Type u)
  | raised (error : ε)
  | cancelled
  | killed
deriving DecidableEq, Repr

/-- One connection: what is durable, the open transaction if there is one, and the calls so far. -/
structure Link (κ D : Type u) where
  durable : D
  opened : Option D
  log : List κ
deriving DecidableEq, Repr

/-- What a run meets: the fate of every call, and what it reads of the world outside the database
after so many calls. -/
structure Plan (τ κ : Type u) where
  fate : ℕ → κ → Fate
  reading : ℕ → τ

variable {τ κ D ε α β : Type u}

/-- The ways in which a plan can halt a call. -/
def Plan.Interrupts (plan : Plan τ κ) (kind : κ) (lost : ε) : Halt ε → Prop
  | .raised error => error = lost ∧ ∃ i, plan.fate i kind = .fails
  | .cancelled => ∃ i, plan.fate i kind = .cancelled
  | .killed => ∃ i, plan.fate i kind = .killed

/-- Some call fails for a reason of its own. -/
def Plan.Fails (plan : Plan τ κ) : Prop := ∃ i kind, plan.fate i kind = .fails

/-- A halt that is the plan's doing. -/
def Plan.Excuses (plan : Plan τ κ) : Halt ε → Prop
  | .raised _ => plan.Fails
  | .cancelled => ∃ i kind, plan.fate i kind = .cancelled
  | .killed => ∃ i kind, plan.fate i kind = .killed

theorem Plan.Interrupts.excuses {plan : Plan τ κ} {kind : κ} {lost : ε} {halt : Halt ε}
    (interrupts : plan.Interrupts kind lost halt) : plan.Excuses halt := by
  cases halt with
  | raised error => exact ⟨_, kind, interrupts.2.choose_spec⟩
  | cancelled => exact ⟨_, kind, interrupts.choose_spec⟩
  | killed => exact ⟨_, kind, interrupts.choose_spec⟩

namespace Link

variable {c : Link κ D} {kind : κ} {d : D} {implicit : Bool}

/-- A new connection. -/
def start (d : D) : Link κ D := ⟨d, none, []⟩

/-- What the connection sees. -/
def view (c : Link κ D) : D := c.opened.getD c.durable

/-- One more call. -/
def logged (c : Link κ D) (kind : κ) : Link κ D := { c with log := c.log ++ [kind] }

/-- What a statement leaves: outside a transaction it is durable at once, unless it opens one. -/
def put (c : Link κ D) (implicit : Bool) (d : D) : Link κ D :=
  if c.opened.isSome || implicit then { c with opened := some d } else { c with durable := d }

/-- Everything seen becomes durable, and no transaction is open. -/
def committed (c : Link κ D) : Link κ D := { c with durable := c.view, opened := none }

@[simp] theorem logged_durable : (c.logged kind).durable = c.durable := rfl
@[simp] theorem logged_opened : (c.logged kind).opened = c.opened := rfl
@[simp] theorem logged_log : (c.logged kind).log = c.log ++ [kind] := rfl
@[simp] theorem logged_view : (c.logged kind).view = c.view := rfl
@[simp] theorem committed_durable : c.committed.durable = c.view := rfl
@[simp] theorem committed_opened : c.committed.opened = none := rfl
@[simp] theorem committed_log : c.committed.log = c.log := rfl
@[simp] theorem committed_view : c.committed.view = c.view := rfl
@[simp] theorem start_durable : (start d : Link κ D).durable = d := rfl
@[simp] theorem start_opened : (start d : Link κ D).opened = none := rfl
@[simp] theorem start_log : (start d : Link κ D).log = [] := rfl

theorem view_of_opened (none_open : c.opened = none) : c.view = c.durable := by
  rw [view, none_open, Option.getD_none]

@[simp] theorem put_view : (c.put implicit d).view = d := by
  unfold put view
  split
  · rfl
  · next closed =>
    rw [Bool.not_eq_true, Bool.or_eq_false_iff, Option.isSome_eq_false_iff,
      Option.isNone_iff_eq_none] at closed
    simp only [closed.1, Option.getD_none]

@[simp] theorem put_log : (c.put implicit d).log = c.log := by
  unfold put; split <;> rfl

theorem put_of_opened {v : D} (work : c.opened = some v) :
    c.put implicit d = { c with opened := some d } := by
  rw [put, work]; rfl

theorem put_durable : (c.put implicit d).durable = c.durable ∨ (c.put implicit d).durable = d := by
  unfold put
  split
  · exact .inl rfl
  · exact .inr rfl

end Link

/-! ## Programs -/

/-- A program. -/
def Procedure (τ κ D ε α : Type u) : Type u :=
  Plan τ κ → Link κ D → Except (Halt ε) α × Link κ D

namespace Procedure

instance : Monad (Procedure τ κ D ε) where
  pure a := fun _ c => (.ok a, c)
  bind x f := fun plan c =>
    match x plan c with
    | (.ok a, c') => f a plan c'
    | (.error halt, c') => (.error halt, c')

/-- `raise`. -/
def raise (error : ε) : Procedure τ κ D ε α := fun _ c => (.error (.raised error), c)

/-- What the world outside the database shows now. -/
def consult : Procedure τ κ D ε τ := fun plan c => (.ok (plan.reading c.log.length), c)

/-- One call; `lost` is what it raises when it is not carried out. -/
def call (kind : κ) (lost : ε) (effect : Link κ D → Except ε α × Link κ D) :
    Procedure τ κ D ε α := fun plan c =>
  match plan.fate c.log.length kind with
  | .fine => ((effect (c.logged kind)).1.mapError .raised, (effect (c.logged kind)).2)
  | .fails => (.error (.raised lost), c.logged kind)
  | .cancelled => (.error .cancelled, c.logged kind)
  | .killed => (.error .killed, c.logged kind)

/-- A query. -/
def read (kind : κ) (lost : ε) (query : D → α) : Procedure τ κ D ε α :=
  call kind lost fun c => (.ok (query c.view), c)

/-- A statement: it raises, or it changes what the connection sees. -/
def change (implicit : Bool) (kind : κ) (lost : ε) (statement : D → Except ε D) :
    Procedure τ κ D ε PUnit :=
  call kind lost fun c =>
    match statement c.view with
    | .ok d => (.ok ⟨⟩, c.put implicit d)
    | .error error => (.error error, c)

/-- `BEGIN`; a transaction that is open is committed first. -/
def beginWork (kind : κ) (lost : ε) : Procedure τ κ D ε PUnit :=
  call kind lost fun c => (.ok ⟨⟩, { c.committed with opened := some c.view })

/-- `COMMIT`. -/
def commit (kind : κ) (lost : ε) : Procedure τ κ D ε PUnit :=
  call kind lost fun c => (.ok ⟨⟩, c.committed)

/-- `ROLLBACK`. -/
def rollback (kind : κ) (lost : ε) : Procedure τ κ D ε PUnit :=
  call kind lost fun c => (.ok ⟨⟩, { c with opened := none })

/-- `try` with `except Exception`: what it came to, unless it was cancelled or the process died. -/
def outcome (x : Procedure τ κ D ε α) : Procedure τ κ D ε (Except ε α) := fun plan c =>
  match x plan c with
  | (.ok a, c') => (.ok (.ok a), c')
  | (.error (.raised error), c') => (.ok (.error error), c')
  | (.error halt, c') => (.error halt, c')

/-- `try` with `except BaseException: cleanup; raise`.  A dead process cleans up nothing. -/
def onHalt (x : Procedure τ κ D ε α) (cleanup : Procedure τ κ D ε PUnit) : Procedure τ κ D ε α :=
  fun plan c =>
    match x plan c with
    | (.ok a, c') => (.ok a, c')
    | (.error .killed, c') => (.error .killed, c')
    | (.error halt, c') =>
        match cleanup plan c' with
        | (.ok _, c'') => (.error halt, c'')
        | (.error later, c'') => (.error later, c'')

section Steps

variable {plan : Plan τ κ} {c c' : Link κ D} {x : Procedure τ κ D ε α}
  {f : α → Procedure τ κ D ε β} {a : α} {halt : Halt ε} {kind : κ} {lost : ε}
  {effect : Link κ D → Except ε α × Link κ D}

theorem bind_of_ok (here : x plan c = (.ok a, c')) : (x >>= f) plan c = f a plan c' := by
  change (match x plan c with
    | (.ok a, c') => f a plan c'
    | (.error halt, c') => (.error halt, c')) = _
  rw [here]

theorem bind_of_error (here : x plan c = (.error halt, c')) :
    (x >>= f) plan c = (.error halt, c') := by
  change (match x plan c with
    | (.ok a, c') => f a plan c'
    | (.error halt, c') => (.error halt, c')) = _
  rw [here]

theorem call_of_fine (fine : plan.fate c.log.length kind = .fine) :
    (call kind lost effect : Procedure τ κ D ε α) plan c
      = ((effect (c.logged kind)).1.mapError .raised, (effect (c.logged kind)).2) := by
  rw [call, fine]

theorem call_of_killed (killed : plan.fate c.log.length kind = .killed) :
    (call kind lost effect : Procedure τ κ D ε α) plan c = (.error .killed, c.logged kind) := by
  rw [call, killed]

end Steps

end Procedure

/-! ## How runs end -/

/-- A run returned with this, or halted with that. -/
def Ends (returns : α → Link κ D → Prop) (halts : Halt ε → Link κ D → Prop) :
    Except (Halt ε) α × Link κ D → Prop
  | (.ok a, c) => returns a c
  | (.error halt, c) => halts halt c

namespace Ends

open Procedure

variable {plan : Plan τ κ} {c : Link κ D} {kind : κ} {lost : ε} {implicit : Bool}
  {returns : α → Link κ D → Prop} {halts : Halt ε → Link κ D → Prop}
  {x : Procedure τ κ D ε α}

theorem pure {a : α} (here : returns a c) :
    Ends (ε := ε) returns halts ((Pure.pure a : Procedure τ κ D ε α) plan c) := here

theorem raise {error : ε} (here : halts (.raised error) c) :
    Ends returns halts (.error (.raised error), c) := here

theorem bind {f : α → Procedure τ κ D ε β} {returns' : β → Link κ D → Prop}
    {halts' : Halt ε → Link κ D → Prop} (first : Ends returns halts (x plan c))
    (halted : ∀ halt c', halts halt c' → halts' halt c')
    (next : ∀ a c', returns a c' → Ends returns' halts' (f a plan c')) :
    Ends returns' halts' ((x >>= f) plan c) := by
  change Ends returns' halts' (match x plan c with
    | (.ok a, c') => f a plan c'
    | (.error halt, c') => (.error halt, c'))
  generalize x plan c = run at first
  obtain ⟨halt | a, c'⟩ := run
  · exact halted halt c' first
  · exact next a c' first

theorem via {f : α → Procedure τ κ D ε β} {returns' : β → Link κ D → Prop}
    (returns : α → Link κ D → Prop) (first : Ends returns halts (x plan c))
    (next : ∀ a c', returns a c' → Ends returns' halts (f a plan c')) :
    Ends returns' halts ((x >>= f) plan c) :=
  first.bind (fun _ _ here => here) next

theorem mono {returns' : α → Link κ D → Prop} {halts' : Halt ε → Link κ D → Prop}
    {run : Except (Halt ε) α × Link κ D} (ends : Ends returns halts run)
    (returned : ∀ a c', returns a c' → returns' a c')
    (halted : ∀ halt c', halts halt c' → halts' halt c') : Ends returns' halts' run := by
  obtain ⟨result | a, c'⟩ := run
  · exact halted _ _ ends
  · exact returned _ _ ends

theorem and {returns' : α → Link κ D → Prop} {halts' : Halt ε → Link κ D → Prop}
    {run : Except (Halt ε) α × Link κ D} (ends : Ends returns halts run)
    (ends' : Ends returns' halts' run) :
    Ends (fun a c' => returns a c' ∧ returns' a c') (fun h c' => halts h c' ∧ halts' h c')
      run := by
  obtain ⟨result | a, c'⟩ := run
  · exact ⟨ends, ends'⟩
  · exact ⟨ends, ends'⟩

theorem call {effect : Link κ D → Except ε α × Link κ D}
    (fine : Ends returns halts
      ((effect (c.logged kind)).1.mapError .raised, (effect (c.logged kind)).2))
    (halted : ∀ halt, plan.Interrupts kind lost halt → halts halt (c.logged kind)) :
    Ends returns halts ((Procedure.call kind lost effect : Procedure τ κ D ε α) plan c) := by
  unfold Procedure.call
  split
  · exact fine
  · next fate => exact halted (.raised lost) ⟨rfl, _, fate⟩
  · next fate => exact halted .cancelled ⟨_, fate⟩
  · next fate => exact halted .killed ⟨_, fate⟩

theorem read {query : D → α} (fine : returns (query c.view) (c.logged kind))
    (halted : ∀ halt, plan.Interrupts kind lost halt → halts halt (c.logged kind)) :
    Ends returns halts ((Procedure.read kind lost query : Procedure τ κ D ε α) plan c) :=
  call fine halted

theorem change {statement : D → Except ε D} {returns : PUnit → Link κ D → Prop}
    (fine : ∀ d, statement c.view = .ok d → returns ⟨⟩ ((c.logged kind).put implicit d))
    (refused : ∀ error, statement c.view = .error error → halts (.raised error) (c.logged kind))
    (halted : ∀ halt, plan.Interrupts kind lost halt → halts halt (c.logged kind)) :
    Ends returns halts ((Procedure.change implicit kind lost statement : Procedure τ κ D ε PUnit)
      plan c) := by
  refine call ?_ halted
  rw [Link.logged_view]
  cases result : statement c.view with
  | ok d => exact fine d result
  | error error => exact refused error result

theorem beginWork {returns : PUnit → Link κ D → Prop}
    (fine : returns ⟨⟩ { (c.logged kind).committed with opened := some c.view })
    (halted : ∀ halt, plan.Interrupts kind lost halt → halts halt (c.logged kind)) :
    Ends returns halts ((Procedure.beginWork kind lost : Procedure τ κ D ε PUnit) plan c) :=
  call fine halted

theorem commit {returns : PUnit → Link κ D → Prop}
    (fine : returns ⟨⟩ (c.logged kind).committed)
    (halted : ∀ halt, plan.Interrupts kind lost halt → halts halt (c.logged kind)) :
    Ends returns halts ((Procedure.commit kind lost : Procedure τ κ D ε PUnit) plan c) :=
  call fine halted

theorem rollback {returns : PUnit → Link κ D → Prop}
    (fine : returns ⟨⟩ { c.logged kind with opened := none })
    (halted : ∀ halt, plan.Interrupts kind lost halt → halts halt (c.logged kind)) :
    Ends returns halts ((Procedure.rollback kind lost : Procedure τ κ D ε PUnit) plan c) :=
  call fine halted

theorem outcome {returns : Except ε α → Link κ D → Prop}
    (tried : Ends (fun a c' => returns (.ok a) c')
      (fun halt c' => (∀ error, halt = .raised error → returns (.error error) c')
        ∧ ((∀ error, halt ≠ .raised error) → halts halt c')) (x plan c)) :
    Ends returns halts (x.outcome plan c) := by
  unfold Procedure.outcome
  generalize x plan c = run at tried
  obtain ⟨(error | - | -) | a, c'⟩ := run
  · exact tried.1 error rfl
  · exact tried.2 fun _ => by simp
  · exact tried.2 fun _ => by simp
  · exact tried

theorem onHalt {cleanup : Procedure τ κ D ε PUnit}
    (tried : Ends returns (fun halt c' => (halt = .killed → halts halt c')
      ∧ (halt ≠ .killed → Ends (fun _ => halts halt) halts (cleanup plan c'))) (x plan c)) :
    Ends returns halts (x.onHalt cleanup plan c) := by
  have cleaned : ∀ {halt : Halt ε} {c' : Link κ D},
      Ends (fun _ => halts halt) halts (cleanup plan c') →
      Ends returns halts (match cleanup plan c' with
        | (.ok _, c'') => (.error halt, c'')
        | (.error later, c'') => (.error later, c'')) := by
    intro halt c' ends
    generalize cleanup plan c' = run at ends
    obtain ⟨later | _, c''⟩ := run
    · exact ends
    · exact ends
  unfold Procedure.onHalt
  generalize x plan c = run at tried
  obtain ⟨(error | - | -) | a, c'⟩ := run
  · exact cleaned (tried.2 (by simp))
  · exact cleaned (tried.2 (by simp))
  · exact tried.1 rfl
  · exact tried

end Ends

end Zhongzhuan.Kit.Transactions
