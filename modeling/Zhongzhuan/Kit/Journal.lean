import Mathlib

/-!
# The journal of a database with one open transaction at a time

Entries arrive inside the open transaction or outside every transaction; the ones inside
become durable together when the transaction commits, and never when it is rolled back.  Each
entry names the transaction that its author meant it for, if any (`blockOf`).

* `Journal.Move` are the moves of a database whose entries land where their authors meant.
* `Journal.Balanced` is what these moves keep: the open transaction holds exactly the entries
  meant for it, and what is durable is exactly what was meant for none or for one that has
  been committed.
-/

namespace Zhongzhuan.Kit

universe u

/-- A journal. -/
structure Journal (E : Type u) where
  /-- The number of the open transaction, and its entries so far. -/
  opened : Option (ℕ × List E)
  /-- The number of the next transaction. -/
  next : ℕ
  executed : List E
  durable : List E
  rolledBack : List ℕ

namespace Journal

variable {E : Type u} {blockOf : E → Option ℕ} {j j' : Journal E}

/-- One move. -/
inductive Move (blockOf : E → Option ℕ) (j : Journal E) : Journal E → Prop
  | stay : Move blockOf j j
  | start (free : j.opened = none) :
      Move blockOf j { j with opened := some (j.next, []), next := j.next + 1 }
  | record {number : ℕ} {pending : List E} {e : E} (opened : j.opened = some (number, pending))
      (meant : blockOf e = some number) :
      Move blockOf j
        { j with opened := some (number, pending ++ [e]), executed := j.executed ++ [e] }
  | alone {e : E} (meant : blockOf e = none) :
      Move blockOf j { j with executed := j.executed ++ [e], durable := j.durable ++ [e] }
  | commit {number : ℕ} {pending : List E} (opened : j.opened = some (number, pending)) :
      Move blockOf j { j with opened := none, durable := j.durable ++ pending }
  | rollback {number : ℕ} {pending : List E} (opened : j.opened = some (number, pending)) :
      Move blockOf j { j with opened := none, rolledBack := j.rolledBack ++ [number] }

/-- An entry is settled for good: it was meant for no transaction, or for one that is neither
open nor rolled back. -/
def Settled (blockOf : E → Option ℕ) (j : Journal E) (e : E) : Prop :=
  ∀ number, blockOf e = some number →
    number ∉ j.rolledBack ∧ ∀ pending, j.opened ≠ some (number, pending)

/-- The open transaction and the durable entries are what their authors meant. -/
structure Balanced (blockOf : E → Option ℕ) (j : Journal E) : Prop where
  openNumber : ∀ number pending, j.opened = some (number, pending) →
    number < j.next ∧ number ∉ j.rolledBack
  rolledNumber : ∀ number ∈ j.rolledBack, number < j.next
  executedNumber : ∀ e ∈ j.executed, ∀ number, blockOf e = some number → number < j.next
  pending : ∀ number pending, j.opened = some (number, pending) →
    ∀ e, e ∈ pending ↔ e ∈ j.executed ∧ blockOf e = some number
  durable : ∀ e, e ∈ j.durable ↔ e ∈ j.executed ∧ j.Settled blockOf e

theorem balanced_empty : Balanced blockOf (⟨none, 0, [], [], []⟩ : Journal E) := by
  constructor <;> simp

theorem Balanced.move (balanced : j.Balanced blockOf) (move : Move blockOf j j') :
    j'.Balanced blockOf := by
  obtain ⟨openNumber, rolledNumber, executedNumber, pendingIff, durableIff⟩ := balanced
  cases move with
  | stay => exact ⟨openNumber, rolledNumber, executedNumber, pendingIff, durableIff⟩
  | start free =>
      refine ⟨?_, fun n mem => Nat.lt_succ_of_lt (rolledNumber n mem), ?_, ?_, ?_⟩
      · rintro number pending ⟨⟩
        exact ⟨Nat.lt_succ_self _, fun mem => (rolledNumber _ mem).ne rfl⟩
      · exact fun e mem number meant => Nat.lt_succ_of_lt (executedNumber e mem number meant)
      · rintro number pending ⟨⟩ e
        simpa using fun mem meant => (executedNumber e mem _ meant).ne rfl
      · intro e
        rw [durableIff]
        refine and_congr_right fun mem => forall_congr' fun number => imp_congr_right fun meant =>
          and_congr_right fun _ => ?_
        have older := (executedNumber e mem number meant).ne'
        simp [free, older]
  | @record number pending e opened meant =>
      have current := openNumber number pending opened
      refine ⟨?_, rolledNumber, ?_, ?_, ?_⟩
      · rintro number' pending' ⟨⟩
        exact current
      · grind
      · rintro number' pending' ⟨⟩ e'
        grind
      · intro e'
        grind [Settled]
  | @alone e meant =>
      refine ⟨openNumber, rolledNumber, ?_, ?_, ?_⟩
      · grind
      · grind
      · intro e'
        grind [Settled]
  | @commit number pending opened =>
      refine ⟨by simp, rolledNumber, executedNumber, by simp, ?_⟩
      intro e
      grind [Settled]
  | @rollback number pending opened =>
      refine ⟨by simp, ?_, executedNumber, by simp, ?_⟩
      · grind
      · intro e
        grind [Settled]

end Journal

end Zhongzhuan.Kit
