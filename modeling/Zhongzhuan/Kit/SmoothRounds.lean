import Mathlib

/-!
# Smooth weighted rounds

In each round every member gets its weight, and one that then has the most pays the sum of all
weights.

* `Round` is one round, `Rounds` a sequence of them with the members that paid.
* `Round.sum` and `Round.neg_lt`: the members together have what they had, and none of them owes
  as much as the sum of the weights.
* `Rounds.closed`: what a member has is its share of the rounds less what it has paid.
* `Rounds.block`: from nothing, as many rounds as the weights sum to let each member pay as often
  as its weight says, and leave nothing; `Rounds.count_block` and `Rounds.empty_blocks` are about
  the blocks of a long sequence.
-/

namespace Zhongzhuan.Kit.SmoothRounds

universe u

variable {ι : Type u} [DecidableEq ι] (members : Finset ι) (weight : ι → ℤ)

/-- A round in which `b` pays. -/
structure Round (x : ι → ℤ) (b : ι) (x' : ι → ℤ) : Prop where
  mem : b ∈ members
  most : ∀ i ∈ members, x i + weight i ≤ x b + weight b
  paid : ∀ i ∈ members,
    x' i = x i + weight i - if i = b then ∑ j ∈ members, weight j else 0

/-- Rounds one after the other. -/
inductive Rounds : (ι → ℤ) → List ι → (ι → ℤ) → Prop
  | nil (x : ι → ℤ) : Rounds x [] x
  | cons {x y z : ι → ℤ} {b : ι} {picks : List ι} (first : Round members weight x b y)
      (rest : Rounds y picks z) : Rounds x (b :: picks) z

variable {members weight} {x y z : ι → ℤ} {b : ι} {picks picks' : List ι}

theorem Round.sum (round : Round members weight x b y) :
    ∑ i ∈ members, y i = ∑ i ∈ members, x i := by
  rw [Finset.sum_congr rfl round.paid, Finset.sum_sub_distrib, Finset.sum_add_distrib,
    Finset.sum_ite_eq' members b, if_pos round.mem]
  ring

theorem Round.pos (round : Round members weight x b y) (zero : ∑ i ∈ members, x i = 0)
    (total : 0 < ∑ i ∈ members, weight i) : 0 < x b + weight b := by
  have together : 0 < ∑ i ∈ members, (x i + weight i) := by
    rwa [Finset.sum_add_distrib, zero, zero_add]
  obtain ⟨i, mem, some_⟩ :=
    Finset.exists_lt_of_sum_lt (f := fun _ => (0 : ℤ)) (by simpa using together)
  exact some_.trans_le (round.most i mem)

theorem Round.neg_lt (round : Round members weight x b y) (nonneg : ∀ i ∈ members, 0 ≤ weight i)
    (total : 0 < ∑ i ∈ members, weight i) (zero : ∑ i ∈ members, x i = 0)
    (owe : ∀ i ∈ members, -∑ j ∈ members, weight j < x i) :
    ∀ i ∈ members, -∑ j ∈ members, weight j < y i := by
  intro i mem
  rw [round.paid i mem]
  by_cases payer : i = b
  · subst payer
    have had := round.pos zero total
    rw [if_pos rfl]
    linarith
  · have before := owe i mem
    have gets := nonneg i mem
    rw [if_neg payer]
    linarith

theorem Rounds.sum (rounds : Rounds members weight x picks z) :
    ∑ i ∈ members, z i = ∑ i ∈ members, x i := by
  induction rounds with
  | nil x => rfl
  | cons first rest ih => exact ih.trans first.sum

theorem Rounds.neg_lt (rounds : Rounds members weight x picks z)
    (nonneg : ∀ i ∈ members, 0 ≤ weight i) (total : 0 < ∑ i ∈ members, weight i)
    (zero : ∑ i ∈ members, x i = 0) (owe : ∀ i ∈ members, -∑ j ∈ members, weight j < x i) :
    ∀ i ∈ members, -∑ j ∈ members, weight j < z i := by
  induction rounds with
  | nil x => exact owe
  | cons first rest ih =>
    exact ih (first.sum.trans zero) (first.neg_lt nonneg total zero owe)

theorem Rounds.closed (rounds : Rounds members weight x picks z) :
    ∀ i ∈ members,
      z i = x i + picks.length * weight i - picks.count i * ∑ j ∈ members, weight j := by
  intro i mem
  induction rounds with
  | nil x => simp
  | @cons x y z b picks first rest ih =>
    rw [ih, first.paid i mem, List.length_cons, List.count_cons]
    by_cases payer : i = b
    · subst payer
      simp only [beq_self_eq_true, if_true]
      push_cast
      ring
    · simp only [beq_eq_false_iff_ne.mpr (Ne.symm payer), Bool.false_eq_true, if_false, payer]
      push_cast
      ring

theorem Rounds.split (rounds : Rounds members weight x (picks ++ picks') z) :
    ∃ y, Rounds members weight x picks y ∧ Rounds members weight y picks' z := by
  induction picks generalizing x with
  | nil => exact ⟨x, .nil x, rounds⟩
  | cons b picks ih =>
    cases rounds with
    | cons first rest =>
      obtain ⟨y, left, right⟩ := ih rest
      exact ⟨y, .cons first left, right⟩

/-- **A block.**  From nothing, as many rounds as the weights sum to: each member pays as often as
its weight says, and then has nothing again. -/
theorem Rounds.block (rounds : Rounds members weight x picks z)
    (nonneg : ∀ i ∈ members, 0 ≤ weight i) (total : 0 < ∑ i ∈ members, weight i)
    (empty : ∀ i ∈ members, x i = 0) (length : (picks.length : ℤ) = ∑ i ∈ members, weight i) :
    ∀ i ∈ members, z i = 0 ∧ (picks.count i : ℤ) = weight i := by
  have zero : ∑ i ∈ members, x i = 0 := Finset.sum_eq_zero empty
  have owe : ∀ i ∈ members, -∑ j ∈ members, weight j < x i := fun i mem => by
    rw [empty i mem]
    linarith
  have least := rounds.neg_lt nonneg total zero owe
  -- what a member has is a multiple of the sum of the weights
  have multiple : ∀ i ∈ members, z i = (∑ j ∈ members, weight j) * (weight i - picks.count i) := by
    intro i mem
    rw [rounds.closed i mem, empty i mem, length]
    ring
  have atLeast : ∀ i ∈ members, 0 ≤ z i := by
    intro i mem
    have above := least i mem
    rw [multiple i mem] at above ⊢
    have fewer : -1 < weight i - picks.count i := by
      by_contra less
      have bound : weight i - picks.count i ≤ -1 := not_lt.mp less
      nlinarith
    have enough : 0 ≤ weight i - picks.count i := by omega
    exact mul_nonneg total.le enough
  have nothing := (Finset.sum_eq_zero_iff_of_nonneg atLeast).mp (rounds.sum.trans zero)
  intro i mem
  refine ⟨nothing i mem, ?_⟩
  have product := (multiple i mem).symm.trans (nothing i mem)
  rcases mul_eq_zero.mp product with none_ | same
  · exact absurd none_ total.ne'
  · linarith

section Blocks

variable (nonneg : ∀ i ∈ members, 0 ≤ weight i) {T : ℕ}
  (total : (T : ℤ) = ∑ i ∈ members, weight i) (pos : 0 < T)
include nonneg total pos

theorem Rounds.first_block (rounds : Rounds members weight x picks z)
    (empty : ∀ i ∈ members, x i = 0) (fits : T ≤ picks.length) :
    ∃ y, Rounds members weight y (picks.drop T) z ∧ (∀ i ∈ members, y i = 0) ∧
      ∀ i ∈ members, ((picks.take T).count i : ℤ) = weight i := by
  rw [← List.take_append_drop T picks] at rounds
  obtain ⟨y, block, rest⟩ := rounds.split
  have length : ((picks.take T).length : ℤ) = ∑ i ∈ members, weight i := by
    rw [List.length_take_of_le fits, total]
  have paid := block.block nonneg (by omega) empty length
  exact ⟨y, rest, fun i mem => (paid i mem).1, fun i mem => (paid i mem).2⟩

theorem Rounds.count_block (rounds : Rounds members weight x picks z)
    (empty : ∀ i ∈ members, x i = 0) (b : ℕ) (fits : (b + 1) * T ≤ picks.length) :
    ∀ i ∈ members, (((picks.drop (b * T)).take T).count i : ℤ) = weight i := by
  induction b generalizing x picks with
  | zero =>
    obtain ⟨-, -, -, count⟩ := rounds.first_block nonneg total pos empty (by omega)
    simpa using count
  | succ b ih =>
    rw [Nat.succ_mul] at fits
    obtain ⟨y, rest, empty', -⟩ := rounds.first_block nonneg total pos empty (by omega)
    have later := ih rest empty' (by rw [List.length_drop]; omega)
    rwa [List.drop_drop, Nat.add_comm, ← Nat.succ_mul] at later

theorem Rounds.empty_blocks (rounds : Rounds members weight x picks z)
    (empty : ∀ i ∈ members, x i = 0) (b : ℕ) (length : picks.length = b * T) :
    ∀ i ∈ members, z i = 0 := by
  induction b generalizing x picks with
  | zero =>
    obtain rfl := List.length_eq_zero_iff.mp (length.trans (Nat.zero_mul T))
    cases rounds with
    | nil => exact empty
  | succ b ih =>
    rw [Nat.succ_mul] at length
    obtain ⟨y, rest, empty', -⟩ := rounds.first_block nonneg total pos empty (by omega)
    exact ih rest empty' (by rw [List.length_drop]; omega)

end Blocks

end Zhongzhuan.Kit.SmoothRounds
