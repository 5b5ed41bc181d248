import Mathlib

/-!
# Commands that a client sends again

A client sends a command to a server and waits for the answer.  When an attempt fails, the
server may have executed the command or not, and the client sees the same error either way.
A client that repeats the command after some errors and stops after the others delivers it at
least once; this file says how often.

* `Attempt` is what happens to one attempt, `deliver` the client that makes them.
* `lost` counts the executions whose answers did not arrive before one did.
* `deliver_of_returns` is the rule: a delivery that returns has executed the command
  `lost + 1` times, and answers what the last of them did.
* `deliver_data_of_idempotent`: of a command that does nothing the second time, the server's
  contents do not show the number.
-/

namespace Zhongzhuan.Kit

universe u v w

variable {σ : Type u} {ρ : Type v} {ε : Type w}

/-- A server: its contents, and how often it has executed the command. -/
structure Server (σ : Type u) where
  data : σ
  executions : ℕ
deriving DecidableEq, Repr

/-- The command is executed once more. -/
def Server.execute (command : σ → σ × ρ) (s : Server σ) : Server σ :=
  ⟨(command s.data).1, s.executions + 1⟩

/-- What happens to an attempt. -/
inductive Attempt (ε : Type w)
  | answered
  | failed (executed : Bool) (error : ε)
deriving DecidableEq, Repr

/-- One attempt, and what the client gets. -/
def Attempt.run (command : σ → σ × ρ) (s : Server σ) : Attempt ε → Server σ × Except ε ρ
  | .answered => (s.execute command, .ok (command s.data).2)
  | .failed true error => (s.execute command, .error error)
  | .failed false error => (s, .error error)

/-- The client: it makes the attempts in turn until one is answered, one fails with an error
that it does not repeat the command for, or there are no more. -/
def deliver (retry : ε → Bool) (command : σ → σ × ρ) :
    Server σ → Attempt ε → List (Attempt ε) → Server σ × Except ε ρ
  | s, attempt, [] => attempt.run command s
  | s, attempt, next :: rest =>
    match attempt.run command s with
    | (s, .error error) =>
      if retry error then deliver retry command s next rest else (s, .error error)
    | (s, .ok answer) => (s, .ok answer)

/-- An attempt is answered. -/
def Returns (retry : ε → Bool) : Attempt ε → List (Attempt ε) → Bool
  | .answered, _ => true
  | .failed _ _, [] => false
  | .failed _ error, next :: rest => retry error && Returns retry next rest

/-- The number of executions before the one that is answered. -/
def lost (retry : ε → Bool) : Attempt ε → List (Attempt ε) → ℕ
  | .answered, _ | .failed _ _, [] => 0
  | .failed executed error, next :: rest =>
    if retry error then executed.toNat + lost retry next rest else 0

variable {retry : ε → Bool} {command : σ → σ × ρ} {first : Attempt ε}
  {rest : List (Attempt ε)}

variable (command) in
theorem deliver_of_not_returns (s : Server σ) (silent : Returns retry first rest = false) :
    ∃ error, (deliver retry command s first rest).2 = .error error := by
  induction rest generalizing first s with
  | nil =>
      cases first with
      | answered => simp [Returns] at silent
      | failed executed error => cases executed <;> exact ⟨error, rfl⟩
  | cons next rest ih =>
      cases first with
      | answered => simp [Returns] at silent
      | failed executed error =>
          cases again : retry error with
          | false => cases executed <;> exact ⟨error, by simp [deliver, Attempt.run, again]⟩
          | true =>
              have later : Returns retry next rest = false := by
                simpa [Returns, again] using silent
              cases executed <;> simpa [deliver, Attempt.run, again] using ih _ later

/-- **How often a delivery that returns has executed the command**: once, and once for every
answer that was lost before. -/
theorem deliver_of_returns (s : Server σ) (returns : Returns retry first rest = true) :
    deliver retry command s first rest
      = let effect := fun d => (command d).1
        (⟨effect^[lost retry first rest + 1] s.data,
            s.executions + lost retry first rest + 1⟩,
          .ok (command (effect^[lost retry first rest] s.data)).2) := by
  induction rest generalizing first s with
  | nil =>
      cases first with
      | answered => rfl
      | failed executed error => simp [Returns] at returns
  | cons next rest ih =>
      cases first with
      | answered => rfl
      | failed executed error =>
          obtain ⟨again, later⟩ : retry error = true ∧ Returns retry next rest = true := by
            simpa [Returns] using returns
          cases executed with
          | false => simp [deliver, Attempt.run, again, lost, ih s later]
          | true =>
              simp [deliver, Attempt.run, again, lost, ih _ later, Server.execute,
                Nat.add_comm 1]
              omega

theorem deliver_data_of_idempotent (s : Server σ)
    (idempotent : ∀ d, (command (command d).1).1 = (command d).1)
    (returns : Returns retry first rest = true) :
    (deliver retry command s first rest).1.data = (command s.data).1 := by
  rw [deliver_of_returns s returns]
  induction lost retry first rest with
  | zero => rfl
  | succ n ih =>
      simp only at ih ⊢
      rw [Function.iterate_succ_apply', ih, idempotent]

end Zhongzhuan.Kit
