import Zhongzhuan.Kit.Schedule
import Zhongzhuan.Proxy.KeyHealth

/-!
# Invalid keys

The docstring of `mark_auth_failure` says that an invalid key is never available again until
the operator confirms its recovery.  The other marks store a status of their own without
looking at the one they replace, so a request that was under way when the key was found
invalid brings it back when it ends.

* `KeyEvent.Overwrites` are the seven marks that do.
* `handle_invalid`: no other call brings an invalid key back; `exists_available`: after one of
  the seven there is a time at which the key is available.
* `auth_failure_final_iff` is the law for every order of calls.
-/

namespace Zhongzhuan.Proxy

open Kit

/-- The marks that store a status other than `invalid` whatever the key had. -/
def KeyEvent.Overwrites : KeyEvent → Prop
  | .balanceDepleted | .banned | .rateLimited _ | .serverError _ | .networkFailure _
  | .emptyResponse _ | .success => True
  | _ => False

instance : DecidablePred KeyEvent.Overwrites := fun event => by
  cases event <;> unfold KeyEvent.Overwrites <;> infer_instance

variable {r : HeaderReaders} {k : KeyHealth}

/-! ## What keeps the status -/

section

variable (k) (headers : Headers) (now : ℚ)

@[simp] theorem maybeResetRpd_status : (k.maybeResetRpd now).status = k.status := by
  unfold KeyHealth.maybeResetRpd
  split <;> rfl

@[simp] theorem learnRetryAfter_status :
    (k.learnRetryAfter r headers now).status = k.status := by
  unfold KeyHealth.learnRetryAfter
  split <;> rfl

@[simp] theorem learnRequestLimit_status :
    (k.learnRequestLimit r headers).status = k.status := by
  unfold KeyHealth.learnRequestLimit
  repeat' split
  all_goals rfl

@[simp] theorem learnTokenLimit_status :
    (k.learnTokenLimit r headers now).status = k.status := by
  unfold KeyHealth.learnTokenLimit
  repeat' split
  all_goals rfl

@[simp] theorem syncTokens_status : (k.syncTokens r headers now).status = k.status := by
  unfold KeyHealth.syncTokens
  repeat' split
  all_goals rfl

@[simp] theorem syncRequests_status : (k.syncRequests r headers now).status = k.status := by
  unfold KeyHealth.syncRequests
  repeat' split
  all_goals rfl

@[simp] theorem learnRateLimits_status :
    (k.learnRateLimits r headers now).status = k.status := by
  simp [KeyHealth.learnRateLimits]

theorem isAvailable_of_invalid (invalid : k.status = .invalid) :
    k.isAvailable now = (k, false) := by
  simp [KeyHealth.isAvailable, invalid]

end

/-- **Every call but the seven marks and the confirmation leaves an invalid key invalid.** -/
theorem handle_invalid {call : ℚ × KeyEvent} (invalid : k.status = .invalid)
    (keeps : ¬ call.2.Overwrites) (unconfirmed : call.2 ≠ .reactivate) :
    (k.handle r call).status = .invalid := by
  obtain ⟨now, event⟩ := call
  cases event with
  | authFailure => rfl
  | learnRateLimits headers status =>
      simpa [KeyHealth.handle] using invalid
  | normalizeExpiredCooldown =>
      simp [KeyHealth.handle, KeyHealth.normalizeExpiredCooldown, invalid]
  | isAvailable =>
      simp [KeyHealth.handle, isAvailable_of_invalid k now invalid, invalid]
  | recordSuccess => simp [KeyHealth.handle, KeyHealth.recordSuccess, invalid]
  | recordRequest =>
      simp only [KeyHealth.handle, KeyHealth.recordRequest]
      split
      · simpa using invalid
      · exact invalid
  | recordTokens tokensIn tokensOut =>
      simp only [KeyHealth.handle, KeyHealth.recordTokens]
      split <;> exact invalid
  | reactivate => exact absurd rfl unconfirmed
  | balanceDepleted | banned | rateLimited | serverError | networkFailure | emptyResponse
  | success => exact absurd trivial keeps

/-! ## A key that is not invalid recovers -/

theorem handle_overwrites {call : ℚ × KeyEvent} (overwrites : call.2.Overwrites) :
    (k.handle r call).status ≠ .invalid ∧ (k.handle r call).cooldownUntil ≠ .inf := by
  obtain ⟨now, event⟩ := call
  cases event with
  | rateLimited retryAfter =>
      simp only [KeyHealth.handle, KeyHealth.markRateLimited, KeyHealth.failed]
      split
      case isTrue positive =>
        obtain ⟨seconds, same⟩ := PyFloat.min_finite_of_pos (q := backoffSeconds 3) positive
        simp [same]
      case isFalse _ => simp
  | success =>
      simp only [KeyHealth.handle, KeyHealth.markSuccess]
      split <;> simp
  | balanceDepleted =>
      simp [KeyHealth.handle, KeyHealth.markBalanceDepleted, KeyHealth.failed]
  | banned => simp [KeyHealth.handle, KeyHealth.markBanned, KeyHealth.failed]
  | serverError | networkFailure | emptyResponse =>
      simp [KeyHealth.handle, KeyHealth.markServerError, KeyHealth.markNetworkFailure,
        KeyHealth.markEmptyResponse, KeyHealth.applyTransientBackoff, KeyHealth.failed]
  | authFailure | learnRateLimits | normalizeExpiredCooldown | isAvailable | recordSuccess
  | recordRequest | recordTokens | reactivate => exact overwrites.elim

theorem rpmRoom_of_idle {now : ℚ}
    (idle : k.window.lastRotate + k.window.windowSeconds + 1 ≤ now) :
    (k.rpmRoom now).2 = true := by
  unfold KeyHealth.rpmRoom
  split
  case isTrue limited => simp [SlidingWindow.currentUsage_of_idle idle, limited]
  case isFalse _ => rfl

theorem tpmRoom_of_idle {now : ℚ}
    (idle : ∀ w ∈ k.tpmWindow, w.lastRotate + w.windowSeconds + 1 ≤ now) :
    (k.tpmRoom now).2 = true := by
  unfold KeyHealth.tpmRoom
  split
  case h_1 w held =>
    split
    case isTrue limited =>
      simp [SlidingWindow.currentUsage_of_idle (idle w held), limited]
    case isFalse _ => rfl
  case h_2 => rfl

theorem rpdRoom_of_past {now : ℚ} (past : k.rpdResetAt ≤ now) : (k.rpdRoom now).2 = true := by
  unfold KeyHealth.rpdRoom
  split
  case isTrue limited => simp [KeyHealth.maybeResetRpd, past, limited]
  case isFalse _ => rfl

@[simp] theorem rpmRoom_tpmWindow (now : ℚ) : (k.rpmRoom now).1.tpmWindow = k.tpmWindow := by
  unfold KeyHealth.rpmRoom
  split <;> rfl

@[simp] theorem rpmRoom_rpdResetAt (now : ℚ) :
    (k.rpmRoom now).1.rpdResetAt = k.rpdResetAt := by
  unfold KeyHealth.rpmRoom
  split <;> rfl

@[simp] theorem tpmRoom_rpdResetAt (now : ℚ) :
    (k.tpmRoom now).1.rpdResetAt = k.rpdResetAt := by
  unfold KeyHealth.tpmRoom
  repeat' split
  all_goals rfl

theorem isAvailable_of_late {now : ℚ} (valid : k.status ≠ .invalid)
    (cool : (PyFloat.finite now).lt k.cooldownUntil = false)
    (idle : k.window.lastRotate + k.window.windowSeconds + 1 ≤ now)
    (quiet : ∀ w ∈ k.tpmWindow, w.lastRotate + w.windowSeconds + 1 ≤ now)
    (past : k.rpdResetAt ≤ now) : (k.isAvailable now).2 = true := by
  have requests := rpmRoom_of_idle idle
  have tokens : ((k.rpmRoom now).1.tpmRoom now).2 = true := tpmRoom_of_idle (by simpa using quiet)
  have day : (((k.rpmRoom now).1.tpmRoom now).1.rpdRoom now).2 = true :=
    rpdRoom_of_past (by simpa using past)
  simp [KeyHealth.isAvailable, valid, cool, requests, tokens, day]

/-- **A key that is not invalid is available again**, however late one asks for: when its
cooldown has ended, its windows have run empty and the day is over. -/
theorem exists_available (valid : k.status ≠ .invalid) (ends : k.cooldownUntil ≠ .inf)
    (after : ℚ) : ∃ now, after ≤ now ∧ (k.isAvailable now).2 = true := by
  obtain ⟨cooled, free⟩ := PyFloat.exists_not_lt ends
  obtain ⟨emptied, quiet⟩ :
      ∃ bound : ℚ, ∀ now, bound ≤ now → ∀ w ∈ k.tpmWindow,
        w.lastRotate + w.windowSeconds + 1 ≤ now := by
    cases k.tpmWindow with
    | none => exact ⟨0, by simp⟩
    | some w => exact ⟨w.lastRotate + w.windowSeconds + 1, by simp⟩
  let idle := k.window.lastRotate + k.window.windowSeconds + 1
  refine ⟨max after (max cooled (max idle (max emptied k.rpdResetAt))), by simp, ?_⟩
  exact isAvailable_of_late valid (free _ (by simp)) (by simp [idle])
    (quiet _ (by simp)) (by simp)

/-! ## The law -/

/-- Once `mark_auth_failure` has been called at `since`, `is_available()` is false after every
number of further calls and at every reading of the clock that is not before them, until the
recovery is confirmed. -/
def StaysUnavailable (r : HeaderReaders) (k : KeyHealth) (since : ℚ)
    (calls : List (ℚ × KeyEvent)) : Prop :=
  ∀ pre post, calls = pre ++ post → (∀ call ∈ pre, call.2 ≠ .reactivate) →
    ∀ now, since ≤ now → (∀ call ∈ pre, call.1 ≤ now) →
      ((runSchedule (KeyHealth.handle r) (k.markAuthFailure since) pre).isAvailable now).2
        = false

/-- The calls up to the confirmation of the recovery. -/
def beforeReactivate (calls : List (ℚ × KeyEvent)) : List (ℚ × KeyEvent) :=
  calls.takeWhile fun call => call.2 ≠ .reactivate

theorem mem_beforeReactivate {calls : List (ℚ × KeyEvent)} {call : ℚ × KeyEvent}
    (mem : call ∈ beforeReactivate calls) :
    ∃ pre post, calls = pre ++ call :: post ∧ ∀ c ∈ pre ++ [call], c.2 ≠ .reactivate := by
  obtain ⟨pre, rest, split⟩ := List.append_of_mem mem
  refine ⟨pre, rest ++ calls.dropWhile fun call => call.2 ≠ .reactivate, ?_, ?_⟩
  · have whole := List.takeWhile_append_dropWhile (p := fun call => call.2 ≠ .reactivate)
      (l := calls)
    rw [beforeReactivate] at split
    rw [split] at whole
    simpa using whole.symm
  · intro c inside
    have early : c ∈ beforeReactivate calls := by
      rw [split]
      simp only [List.mem_append, List.mem_cons] at inside ⊢
      tauto
    simpa using List.mem_takeWhile_imp early

theorem run_invalid (calls : List (ℚ × KeyEvent)) (invalid : k.status = .invalid)
    (keeps : ∀ call ∈ calls, ¬ call.2.Overwrites ∧ call.2 ≠ .reactivate) :
    (runSchedule (KeyHealth.handle r) k calls).status = .invalid := by
  induction calls generalizing k with
  | nil => exact invalid
  | cons call calls ih =>
      obtain ⟨first, later⟩ := List.forall_mem_cons.mp keeps
      exact ih (handle_invalid invalid first.1 first.2) later

/-- **When a key that was found invalid stays unavailable until the operator confirms it**:
over every order of calls by the requests that are still under way, and at every later time,
exactly when none of the calls before the confirmation is one of the seven marks. -/
theorem auth_failure_final_iff (r : HeaderReaders) (k : KeyHealth) (since : ℚ)
    (calls : List (ℚ × KeyEvent)) :
    StaysUnavailable r k since calls
      ↔ ∀ call ∈ beforeReactivate calls, ¬ call.2.Overwrites := by
  constructor
  · intro stays call mem overwrites
    obtain ⟨pre, post, split, unconfirmed⟩ := mem_beforeReactivate mem
    -- after the mark, at a time past every reading so far
    let readings := (pre ++ [call]).map Prod.fst
    let latest := readings.foldr max since
    obtain ⟨valid, ends⟩ := handle_overwrites (r := r)
      (k := runSchedule (KeyHealth.handle r) (k.markAuthFailure since) pre) overwrites
    obtain ⟨now, late, available⟩ := exists_available valid ends latest
    have bound : ∀ readings : List ℚ, since ≤ readings.foldr max since
        ∧ ∀ t ∈ readings, t ≤ readings.foldr max since := by
      intro readings
      induction readings with
      | nil => simp
      | cons t readings ih =>
          refine ⟨le_trans ih.1 (by simp), fun s mem => ?_⟩
          rcases List.mem_cons.mp mem with rfl | mem
          · simp
          · exact le_trans (ih.2 s mem) (by simp)
    have unavailable := stays (pre ++ [call]) post (by simp [split]) unconfirmed now
      (le_trans (bound readings).1 late) (fun c mem =>
        le_trans ((bound readings).2 c.1 (List.mem_map_of_mem mem)) late)
    rw [runSchedule_append] at unavailable
    exact absurd available (by simpa using unavailable)
  · intro keeps pre post split unconfirmed now _ _
    have inside : ∀ call ∈ pre, call ∈ beforeReactivate calls := by
      intro call mem
      rw [beforeReactivate, split, List.takeWhile_append_of_pos (by simpa using unconfirmed)]
      exact List.mem_append_left _ mem
    have invalid := run_invalid (r := r) (k := k.markAuthFailure since) pre rfl
      fun call mem => ⟨keeps call (inside call mem), unconfirmed call mem⟩
    rw [isAvailable_of_invalid _ _ invalid]

/-- **A request that succeeds after the key was found invalid brings it back.** -/
theorem lateSuccess_available : ¬ StaysUnavailable plainReaders plainKey 100 [(101, .success)] := by
  intro stays
  have unavailable := stays [(101, .success)] [] rfl (by simp) 102 (by norm_num) (by norm_num)
  have available : ((plainKey.markAuthFailure 100).markSuccess.isAvailable 102).2 = true := by
    decide +kernel
  exact absurd available (by simpa [KeyHealth.handle] using unavailable)

end Zhongzhuan.Proxy
