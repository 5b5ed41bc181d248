import Mathlib

/-!
# A ring of buckets

Amounts over the last turns of a clock are kept in `n` buckets, the oldest first: a turn drops the
oldest bucket and opens an empty one, and what comes in goes into the newest.

* `turn` and `put` are the two operations on the buckets.
* `lastTurns` is what the buckets are for: for each of the last `n` turns the sum of the entries
  of a log that were made in it.
* `turn_lastTurns` and `put_lastTurns`: the operations keep the buckets what they are for.
* `sum_lastTurns`: all buckets together are the entries that are less than `n` turns old.

The amounts are from any commutative monoid: numbers, or the multiset of the entries themselves.
-/

namespace Zhongzhuan.Kit.Buckets

universe u v

variable {E : Type u} {M : Type v} [AddCommMonoid M]

/-! ## The operations -/

/-- The oldest bucket leaves, an empty one enters. -/
def turn (buckets : List M) : List M :=
  buckets.tail ++ [0]

/-- The newest bucket gets `amount`. -/
def put (buckets : List M) (amount : M) : List M :=
  buckets.dropLast ++ (buckets.getLast?.map (· + amount)).toList

theorem put_concat (buckets : List M) (newest amount : M) :
    put (buckets ++ [newest]) amount = buckets ++ [newest + amount] := by
  simp [put]

/-! ## What the buckets are for -/

section Log

variable (turnOf : E → ℤ) (amount : E → M)

/-- The sum of the entries of turn `k`. -/
def inTurn (log : List E) (k : ℤ) : M :=
  ((log.filter (turnOf · = k)).map amount).sum

/-- The sums of the `n` turns up to `now`, the oldest first. -/
def lastTurns (now : ℤ) (log : List E) : ℕ → List M
  | 0 => []
  | n + 1 => inTurn turnOf amount log (now - n) :: lastTurns now log n

variable {turnOf amount} {log : List E} {now : ℤ}

@[simp] theorem length_lastTurns (n : ℕ) : (lastTurns turnOf amount now log n).length = n := by
  induction n with
  | zero => rfl
  | succ n ih => simp [lastTurns, ih]

theorem inTurn_eq_zero {k : ℤ} (none_ : ∀ e ∈ log, turnOf e ≠ k) :
    inTurn turnOf amount log k = 0 := by
  have empty : log.filter (turnOf · = k) = [] := by
    simpa [List.filter_eq_nil_iff] using none_
  simp [inTurn, empty]

theorem inTurn_concat_of_ne {e : E} {k : ℤ} (other : turnOf e ≠ k) :
    inTurn turnOf amount (log ++ [e]) k = inTurn turnOf amount log k := by
  simp [inTurn, List.filter_append, other]

theorem inTurn_concat {e : E} :
    inTurn turnOf amount (log ++ [e]) (turnOf e) =
      inTurn turnOf amount log (turnOf e) + amount e := by
  simp [inTurn, List.filter_append]

/-- The newest bucket is the one of this turn; those before it are the buckets of one turn ago. -/
theorem lastTurns_succ (n : ℕ) :
    lastTurns turnOf amount now log (n + 1) =
      lastTurns turnOf amount (now - 1) log n ++ [inTurn turnOf amount log now] := by
  induction n with
  | zero => simp [lastTurns]
  | succ n ih =>
    have back : now - ((n + 1 : ℕ) : ℤ) = now - 1 - n := by push_cast; ring
    rw [lastTurns, ih, lastTurns, back, List.cons_append]

theorem turn_lastTurns (upto : ∀ e ∈ log, turnOf e ≤ now) {n : ℕ} (pos : 0 < n) :
    turn (lastTurns turnOf amount now log n) = lastTurns turnOf amount (now + 1) log n := by
  obtain ⟨m, rfl⟩ : ∃ m, n = m + 1 := ⟨n - 1, by omega⟩
  have empty : inTurn turnOf amount log (now + 1) = 0 :=
    inTurn_eq_zero fun e mem => by have := upto e mem; omega
  have next : lastTurns turnOf amount (now + 1) log (m + 1) =
      lastTurns turnOf amount now log m ++ [inTurn turnOf amount log (now + 1)] := by
    rw [lastTurns_succ, add_sub_cancel_right]
  rw [next, empty, turn, lastTurns, List.tail_cons]

theorem iterate_turn_lastTurns (upto : ∀ e ∈ log, turnOf e ≤ now) {n : ℕ} (pos : 0 < n) (k : ℕ) :
    turn^[k] (lastTurns turnOf amount now log n) = lastTurns turnOf amount (now + k) log n := by
  induction k with
  | zero => simp
  | succ k ih =>
    have later : ∀ e ∈ log, turnOf e ≤ now + k := fun e mem => by
      have := upto e mem
      omega
    rw [Function.iterate_succ_apply', ih, turn_lastTurns later pos]
    push_cast
    rw [add_assoc]

theorem lastTurns_of_old {n : ℕ} (old : ∀ e ∈ log, turnOf e + n ≤ now) :
    lastTurns turnOf amount now log n = List.replicate n 0 := by
  induction n with
  | zero => rfl
  | succ n ih =>
    have empty : inTurn turnOf amount log (now - n) = 0 :=
      inTurn_eq_zero fun e mem => by have := old e mem; omega
    have rest := ih fun e mem => by have := old e mem; omega
    rw [lastTurns, empty, rest, List.replicate_succ]

theorem lastTurns_concat_of_lt {e : E} (later : now < turnOf e) (n : ℕ) :
    lastTurns turnOf amount now (log ++ [e]) n = lastTurns turnOf amount now log n := by
  induction n with
  | zero => rfl
  | succ n ih => rw [lastTurns, lastTurns, ih, inTurn_concat_of_ne (by omega)]

theorem put_lastTurns {e : E} (this : turnOf e = now) {n : ℕ} (pos : 0 < n) :
    put (lastTurns turnOf amount now log n) (amount e) =
      lastTurns turnOf amount now (log ++ [e]) n := by
  obtain ⟨m, rfl⟩ : ∃ m, n = m + 1 := ⟨n - 1, by omega⟩
  subst this
  rw [lastTurns_succ, put_concat, lastTurns_succ, inTurn_concat,
    lastTurns_concat_of_lt (by omega)]

theorem sum_filter (p : E → Prop) [DecidablePred p] :
    ((log.filter p).map amount).sum = (log.map fun e => if p e then amount e else 0).sum := by
  induction log with
  | nil => rfl
  | cons e log ih => by_cases holds : p e <;> simp [holds, ih]

theorem sum_lastTurns (upto : ∀ e ∈ log, turnOf e ≤ now) (n : ℕ) :
    (lastTurns turnOf amount now log n).sum =
      ((log.filter (now < turnOf · + n)).map amount).sum := by
  induction n with
  | zero =>
    have none_ : log.filter (now < turnOf · + ((0 : ℕ) : ℤ)) = [] := by
      simpa [List.filter_eq_nil_iff] using upto
    rw [none_]
    rfl
  | succ n ih =>
    rw [lastTurns, List.sum_cons, ih, inTurn, sum_filter, sum_filter, sum_filter,
      ← List.sum_map_add]
    -- an entry is in the bucket that the step adds, in one of the others, or in none
    refine congrArg List.sum (List.map_congr_left fun e _ => ?_)
    by_cases newer : now < turnOf e + n
    · have later : now < turnOf e + (n + 1 : ℕ) := by push_cast; omega
      rw [if_neg (by omega), if_pos newer, if_pos later, zero_add]
    · rw [if_neg newer, add_zero]
      exact if_congr (by push_cast; omega) rfl rfl

end Log

end Zhongzhuan.Kit.Buckets
