import Mathlib

/-!
# Calls that can raise

A call that can raise returns the state it leaves in either case, and a value or an error.
`forEach` makes one call after the other and stops at the first that raises: the values of the
calls before it are lost, what they did to the state is not.

* `Takes` says what such calls do to a stock of keys when each takes at most one key and writes
  one value for it: a run that returns has written a value for every key it took, a run that
  raises has taken a key at least.
* `forEach_takes` is the rule for it, `forEach_invariant` the one for an invariant.
-/

namespace Zhongzhuan.Kit

universe u

variable {σ α β ε κ : Type u}

/-- Calls, one after the other, until one raises. -/
def forEach (call : σ → α → σ × Except ε (List β)) (s : σ) : List α → σ × Except ε (List β)
  | [] => (s, .ok [])
  | a :: rest =>
    match call s a with
    | (t, .error e) => (t, .error e)
    | (t, .ok values) =>
      match forEach call t rest with
      | (t, .error e) => (t, .error e)
      | (t, .ok more) => (t, .ok (values ++ more))

variable {call : σ → α → σ × Except ε (List β)}

theorem forEach_cons_error {s t : σ} {a : α} {e : ε} (raised : call s a = (t, .error e))
    (rest : List α) : forEach call s (a :: rest) = (t, .error e) := by
  rw [forEach, raised]

theorem forEach_cons_ok {s t : σ} {a : α} {values : List β} (returned : call s a = (t, .ok values))
    (rest : List α) :
    forEach call s (a :: rest)
      = ((forEach call t rest).1, (forEach call t rest).2.map (values ++ ·)) := by
  rw [forEach, returned]
  dsimp only
  rcases forEach call t rest with ⟨u, _ | more⟩
  · rfl
  · rfl

theorem forEach_invariant (Inv : σ → Prop) (preserved : ∀ s a, Inv s → Inv (call s a).1) {s : σ}
    (start : Inv s) (l : List α) : Inv (forEach call s l).1 := by
  induction l generalizing s with
  | nil => exact start
  | cons a rest ih =>
      have after := preserved s a start
      rcases called : call s a with ⟨t, _ | values⟩
      · rw [forEach_cons_error called]
        rwa [called] at after
      · rw [forEach_cons_ok called]
        rw [called] at after
        exact ih after

/-- The call takes keys from the stock and writes a value for each, or it raises and has taken
one more than it has written a value for. -/
def Takes (left : σ → List κ) (Writes : κ → β → Prop) (s : σ) (out : σ × Except ε (List β)) :
    Prop :=
  match out.2 with
  | .ok values => ∃ keys, (left s).Perm (keys ++ left out.1) ∧ List.Forall₂ Writes keys values
  | .error _ => (left out.1).length < (left s).length

variable {left : σ → List κ} {Writes : κ → β → Prop}

theorem Takes.nothing {s t : σ} (same : left t = left s) :
    Takes left Writes s ((t, .ok []) : σ × Except ε (List β)) :=
  ⟨[], by rw [List.nil_append, same], .nil⟩

theorem Takes.one {s t : σ} {k : κ} {value : β} (taken : (left s).Perm (k :: left t))
    (writes : Writes k value) : Takes left Writes s ((t, .ok [value]) : σ × Except ε (List β)) :=
  ⟨[k], taken, .cons writes .nil⟩

theorem Takes.lost {s t : σ} {k : κ} (taken : (left s).Perm (k :: left t)) (e : ε) :
    Takes left Writes s ((t, .error e) : σ × Except ε (List β)) := by
  change (left t).length < (left s).length
  rw [taken.length_eq]
  exact Nat.lt_succ_self _

/-- Calls that keep the invariant and take what they write for do so one after the other. -/
theorem forEach_takes (Inv : σ → Prop) (preserved : ∀ s a, Inv s → Inv (call s a).1)
    (takes : ∀ s a, Inv s → Takes left Writes s (call s a)) {s : σ} (start : Inv s)
    (l : List α) : Takes left Writes s (forEach call s l) := by
  induction l generalizing s with
  | nil => exact .nothing rfl
  | cons a rest ih =>
      have after := preserved s a start
      have here := takes s a start
      rcases called : call s a with ⟨t, e | values⟩
      · rw [forEach_cons_error called]
        rwa [called] at here
      · rw [called] at after here
        obtain ⟨keys, taken, written⟩ := here
        have later := ih after
        rw [forEach_cons_ok called]
        unfold Takes at later ⊢
        rcases outcome : (forEach call t rest).2 with e | more
        · rw [outcome] at later
          have shorter : (left s).length = keys.length + (left t).length := by
            rw [taken.length_eq, List.length_append]
          change (left (forEach call t rest).1).length < (left s).length
          have fewer : (left (forEach call t rest).1).length < (left t).length := later
          omega
        · rw [outcome] at later
          obtain ⟨others, takenToo, writtenToo⟩ := later
          refine ⟨keys ++ others, ?_, ?_⟩
          · rw [List.append_assoc]
            exact taken.trans (takenToo.append_left keys)
          · exact List.rel_append written writtenToo

end Zhongzhuan.Kit
