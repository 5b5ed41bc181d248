import Zhongzhuan.Kit.Schedule
import Zhongzhuan.Proxy.KeyHealth

/-!
# The requests a key is given in a day

The model of every place in `proxy/handler.py` that counts a request on a key, for any number of
requests at once.  A step is what a request does with the key between two awaits.

* A legacy attempt, and a v3 retry, picks the key and records the request in one step, and picks
  only a key that `is_available`.
* The v3 path records the request in `_prepare_v3_upstream_call`, for a key that was available
  when the candidates were resolved, or when it was routed to: awaits may lie in between, and the
  call is made again when the request is sent again.
* The degraded pick of the legacy stream takes a key that is not available.

A request counts as dispatched when `record_request` is called, as its docstring says.
`rpd_limit_kept_iff` says which runs stay within the limit.
-/

namespace Zhongzhuan.Proxy

open Kit

universe u

/-! ## What the methods do to the daily counter -/

/-- The daily counter after a stretch of the program in which `n` requests were recorded, none
after a reset: the same period, or a new one. -/
structure RpdStep (k k' : KeyHealth) (n : ℤ) : Prop where
  limit : k'.rpdLimit = k.rpdLimit
  period : k'.rpdResetAt = k.rpdResetAt ∧ k'.rpdCount = k.rpdCount + n
    ∨ k.rpdResetAt < k'.rpdResetAt ∧ k'.rpdCount = n

namespace RpdStep

variable {k k' k'' : KeyHealth} {n : ℤ}

theorem of_eq (limit : k'.rpdLimit = k.rpdLimit) (resetAt : k'.rpdResetAt = k.rpdResetAt)
    (count : k'.rpdCount = k.rpdCount) : RpdStep k k' 0 :=
  ⟨limit, .inl ⟨resetAt, by omega⟩⟩

theorem trans (first : RpdStep k k' 0) (second : RpdStep k' k'' n) : RpdStep k k'' n := by
  refine ⟨second.limit.trans first.limit, ?_⟩
  rcases first.period with ⟨at₁, count₁⟩ | ⟨at₁, count₁⟩
  all_goals rcases second.period with ⟨at₂, count₂⟩ | ⟨at₂, count₂⟩
  · exact .inl ⟨at₂.trans at₁, by omega⟩
  · exact .inr ⟨at₁ ▸ at₂, count₂⟩
  · exact .inr ⟨at₂ ▸ at₁, by omega⟩
  · exact .inr ⟨at₁.trans at₂, count₂⟩

end RpdStep

namespace KeyHealth

theorem maybeResetRpd_rpd (k : KeyHealth) (now : ℚ) : RpdStep k (k.maybeResetRpd now) 0 := by
  unfold maybeResetRpd
  split
  case isTrue past =>
    exact ⟨rfl, .inr ⟨lt_of_le_of_lt past (lt_add_of_pos_right now (by norm_num)), rfl⟩⟩
  case isFalse _ => exact .of_eq rfl rfl rfl

theorem rpmRoom_rpd (k : KeyHealth) (now : ℚ) : RpdStep k (k.rpmRoom now).1 0 := by
  unfold rpmRoom
  split <;> exact .of_eq rfl rfl rfl

theorem tpmRoom_rpd (k : KeyHealth) (now : ℚ) : RpdStep k (k.tpmRoom now).1 0 := by
  unfold tpmRoom
  split
  · split <;> exact .of_eq rfl rfl rfl
  · exact .of_eq rfl rfl rfl

theorem rpdRoom_rpd (k : KeyHealth) (now : ℚ) : RpdStep k (k.rpdRoom now).1 0 := by
  unfold rpdRoom
  split
  · exact k.maybeResetRpd_rpd now
  · exact .of_eq rfl rfl rfl

theorem isAvailable_rpd (k : KeyHealth) (now : ℚ) : RpdStep k (k.isAvailable now).1 0 := by
  unfold isAvailable
  split
  · exact .of_eq rfl rfl rfl
  split
  · exact .of_eq rfl rfl rfl
  dsimp only
  split
  · exact k.rpmRoom_rpd now
  split
  · exact (k.rpmRoom_rpd now).trans (tpmRoom_rpd _ now)
  · exact (k.rpmRoom_rpd now).trans ((tpmRoom_rpd _ now).trans (rpdRoom_rpd _ now))

theorem rpdCount_lt_of_isAvailable {k : KeyHealth} {now : ℚ} (limited : 0 < k.rpdLimit)
    (available : (k.isAvailable now).2 = true) :
    (k.isAvailable now).1.rpdCount < (k.isAvailable now).1.rpdLimit := by
  have room : ∀ k : KeyHealth, 0 < k.rpdLimit → (k.rpdRoom now).2 = true →
      (k.rpdRoom now).1.rpdCount < (k.rpdRoom now).1.rpdLimit := by
    intro k limited room
    have same := (k.maybeResetRpd_rpd now).limit
    simp only [rpdRoom, if_pos limited, Bool.not_eq_true', decide_eq_false_iff_not, not_le]
      at room ⊢
    omega
  unfold isAvailable at available ⊢
  split at available
  · cases available
  split at available
  · cases available
  dsimp only at available ⊢
  split at available
  · cases available
  split at available
  · cases available
  rename_i spendable cool requests tokens
  rw [if_neg spendable, if_neg cool, if_neg requests, if_neg tokens]
  apply room _ ?_ available
  rw [(tpmRoom_rpd _ now).limit, (k.rpmRoom_rpd now).limit]
  exact limited

theorem recordRequest_rpd {k : KeyHealth} (limited : 0 < k.rpdLimit) (now : ℚ) :
    RpdStep k (k.recordRequest now) 1
      ∧ (k.recordRequest now).rpdCount = (k.maybeResetRpd now).rpdCount + 1 := by
  have reset := k.maybeResetRpd_rpd now
  unfold recordRequest
  rw [if_pos limited]
  refine ⟨⟨reset.limit, ?_⟩, rfl⟩
  rcases reset.period with ⟨at', count⟩ | ⟨at', count⟩
  · exact .inl ⟨at', by simp only; omega⟩
  · exact .inr ⟨at', by simp only; omega⟩

theorem learnRateLimits_rpd (r : HeaderReaders) (k : KeyHealth) (headers : Headers) (now : ℚ) :
    RpdStep k (k.learnRateLimits r headers now) 0 := by
  have retryAfter : RpdStep k (k.learnRetryAfter r headers now) 0 := by
    unfold learnRetryAfter
    split <;> exact .of_eq rfl rfl rfl
  have requestLimit : ∀ k, RpdStep k (learnRequestLimit r k headers) 0 := by
    intro k
    unfold learnRequestLimit
    repeat' split
    all_goals exact .of_eq rfl rfl rfl
  have tokenLimit : ∀ k, RpdStep k (learnTokenLimit r k headers now) 0 := by
    intro k
    unfold learnTokenLimit
    repeat' split
    all_goals exact .of_eq rfl rfl rfl
  have tokens : ∀ k, RpdStep k (syncTokens r k headers now) 0 := by
    intro k
    unfold syncTokens
    repeat' split
    all_goals exact .of_eq rfl rfl rfl
  have requests : ∀ k, RpdStep k (syncRequests r k headers now) 0 := by
    intro k
    unfold syncRequests
    repeat' split
    all_goals exact .of_eq rfl rfl rfl
  exact (retryAfter.trans (requestLimit _)).trans
    ((tokenLimit _).trans ((tokens _).trans (requests _)))

theorem handle_rpd (r : HeaderReaders) (k : KeyHealth) (now : ℚ) {event : KeyEvent}
    (other : event ≠ .recordRequest) : RpdStep k (k.handle r (now, event)) 0 := by
  cases event with
  | recordRequest => exact absurd rfl other
  | isAvailable => exact k.isAvailable_rpd now
  | learnRateLimits headers _ => exact k.learnRateLimits_rpd r headers now
  | rateLimited retryAfter =>
      simp only [handle, markRateLimited]
      split <;> exact .of_eq rfl rfl rfl
  | success =>
      simp only [handle, markSuccess]
      split <;> exact .of_eq rfl rfl rfl
  | normalizeExpiredCooldown =>
      simp only [handle, normalizeExpiredCooldown]
      split <;> exact .of_eq rfl rfl rfl
  | recordSuccess =>
      simp only [handle, recordSuccess]
      split <;> exact .of_eq rfl rfl rfl
  | recordTokens tokensIn tokensOut =>
      simp only [handle, recordTokens]
      split <;> exact .of_eq rfl rfl rfl
  | _ => exact .of_eq rfl rfl rfl

/-- `window.allow(1)`, and `record_request` if it allows the request. -/
def tryRequest (k : KeyHealth) (allowed recorded : ℚ) : KeyHealth × Bool :=
  let window := k.window.allow 1 allowed
  let k := { k with window := window.1 }
  if window.2 then (k.recordRequest recorded, true) else (k, false)

end KeyHealth

/-! ## The requests -/

/-- What a request, or anything else, does with the key between two awaits.  The arguments are
the readings of the clock. -/
inductive KeyUse (ι : Type u)
  /-- The request finds the key among its candidates, or is routed to it. -/
  | look (q : ι) (checked : ℚ)
  /-- It picks the key and records itself. -/
  | attempt (q : ι) (checked allowed recorded : ℚ)
  /-- `_prepare_v3_upstream_call`, for a key it found before. -/
  | prepare (q : ι) (allowed recorded : ℚ)
  /-- The degraded pick. -/
  | degraded (q : ι) (checked allowed recorded : ℚ)
  /-- A call that records no request. -/
  | other (at' : ℚ) (event : { event : KeyEvent // event ≠ .recordRequest })

/-- The key and its users. -/
structure DailyRun (ι : Type u) where
  key : KeyHealth
  /-- The requests that found the key available. -/
  found : ι → Bool
  /-- The requests recorded since the counter was last reset. -/
  dispatched : ℕ

namespace DailyRun

variable {ι : Type u} [DecidableEq ι] (r : HeaderReaders)

/-- A key whose counter stands for requests of its period. -/
def start (k : KeyHealth) : DailyRun ι := ⟨k, fun _ => false, k.rpdCount.toNat⟩

variable (s : DailyRun ι)

/-- The key after a stretch of the program, in which the request was recorded or not. -/
def set (key : KeyHealth) (recorded : Bool) : DailyRun ι :=
  { s with
    key := key
    dispatched :=
      (if key.rpdResetAt = s.key.rpdResetAt then s.dispatched else 0) + recorded.toNat }

/-- One step; a step that is not possible changes nothing. -/
def step (s : DailyRun ι) : KeyUse ι → DailyRun ι
  | .look q checked =>
    let found := s.key.isAvailable checked
    { s.set found.1 false with found := Function.update s.found q (s.found q || found.2) }
  | .attempt _ checked allowed recorded =>
    let picked := s.key.isAvailable checked
    if picked.2 then
      let admitted := picked.1.tryRequest allowed recorded
      s.set admitted.1 admitted.2
    else s.set picked.1 false
  | .prepare q allowed recorded =>
    if s.found q then
      let admitted := s.key.tryRequest allowed recorded
      s.set admitted.1 admitted.2
    else s
  | .degraded _ checked allowed recorded =>
    let refused := s.key.isAvailable checked
    if refused.2 then s.set refused.1 false
    else
      let admitted := refused.1.tryRequest allowed recorded
      s.set admitted.1 admitted.2
  | .other at' event => s.set (s.key.handle r (at', event.1)) false

/-- **The condition on a step**: where a request is recorded without a check of the counter in the
same stretch of the program, the counter, after a reset if one is due, is below the limit. -/
def HasRoom (s : DailyRun ι) : KeyUse ι → Prop
  | .prepare q allowed recorded =>
    s.found q = true → (s.key.window.allow 1 allowed).2 = true →
      (s.key.maybeResetRpd recorded).rpdCount < s.key.rpdLimit
  | .degraded _ checked allowed recorded =>
    let refused := s.key.isAvailable checked
    refused.2 = false → (refused.1.window.allow 1 allowed).2 = true →
      (refused.1.maybeResetRpd recorded).rpdCount < s.key.rpdLimit
  | _ => True

/-- The count of the run is the counter of the key. -/
structure Counted (limit : ℤ) (s : DailyRun ι) : Prop where
  limit : s.key.rpdLimit = limit
  count : s.key.rpdCount = s.dispatched

variable {s} {limit : ℤ}

theorem counted_set (counted : s.Counted limit) {key : KeyHealth} {recorded : Bool}
    (rpd : RpdStep s.key key recorded.toNat) : (s.set key recorded).Counted limit := by
  refine ⟨rpd.limit.trans counted.limit, ?_⟩
  rcases rpd.period with ⟨same, count⟩ | ⟨later, count⟩
  · simp only [set, if_pos same, count, counted.count]
    push_cast
    rfl
  · simp only [set, if_neg later.ne', count]
    push_cast
    omega

theorem admit_rpd {k : KeyHealth} (limited : 0 < k.rpdLimit) (allowed recorded : ℚ) :
    RpdStep k (k.tryRequest allowed recorded).1 (k.tryRequest allowed recorded).2.toNat := by
  have windowed : RpdStep k { k with window := (k.window.allow 1 allowed).1 } 0 :=
    .of_eq rfl rfl rfl
  unfold KeyHealth.tryRequest
  dsimp only
  split
  case isTrue _ =>
    have limited' : 0 < ({ k with window := (k.window.allow 1 allowed).1 } : KeyHealth).rpdLimit :=
      limited
    exact windowed.trans (KeyHealth.recordRequest_rpd limited' recorded).1
  case isFalse _ => exact windowed

theorem admit_le_iff {k : KeyHealth} (limited : 0 < k.rpdLimit) (allowed recorded : ℚ)
    (within : k.rpdCount ≤ k.rpdLimit) :
    (k.tryRequest allowed recorded).1.rpdCount ≤ k.rpdLimit
      ↔ ((k.window.allow 1 allowed).2 = true →
          (k.maybeResetRpd recorded).rpdCount < k.rpdLimit) := by
  unfold KeyHealth.tryRequest
  dsimp only
  split
  case isTrue allows =>
    have limited' : 0 < ({ k with window := (k.window.allow 1 allowed).1 } : KeyHealth).rpdLimit :=
      limited
    have count := (KeyHealth.recordRequest_rpd limited' recorded).2
    have same : (({ k with window := (k.window.allow 1 allowed).1 } : KeyHealth).maybeResetRpd
        recorded).rpdCount = (k.maybeResetRpd recorded).rpdCount := by
      unfold KeyHealth.maybeResetRpd
      split <;> rfl
    rw [count, same]
    exact ⟨fun le _ => by omega, fun room => by have := room allows; omega⟩
  case isFalse refused => exact ⟨fun _ allows => absurd allows refused, fun _ => within⟩

theorem maybeResetRpd_le {k : KeyHealth} (limited : 0 < k.rpdLimit) (now : ℚ)
    (within : k.rpdCount < k.rpdLimit) : (k.maybeResetRpd now).rpdCount < k.rpdLimit := by
  unfold KeyHealth.maybeResetRpd
  split
  · exact limited
  · exact within

theorem counted_step (r : HeaderReaders) (limited : 0 < limit) (counted : s.Counted limit)
    (a : KeyUse ι) :
    (s.step r a).Counted limit := by
  have checked : ∀ now, RpdStep s.key (s.key.isAvailable now).1 0 := s.key.isAvailable_rpd
  have own : 0 < s.key.rpdLimit := counted.limit ▸ limited
  have found : ∀ now, 0 < (s.key.isAvailable now).1.rpdLimit := fun now =>
    (checked now).limit ▸ own
  cases a with
  | look q now =>
      have set : (s.set (s.key.isAvailable now).1 false).Counted limit :=
        counted_set counted (checked now)
      exact ⟨set.limit, set.count⟩
  | attempt q now allowed recorded =>
      simp only [step]
      split
      · exact counted_set counted ((checked now).trans (admit_rpd (found now) allowed recorded))
      · exact counted_set counted (checked now)
  | prepare q allowed recorded =>
      simp only [step]
      split
      · exact counted_set counted (admit_rpd own allowed recorded)
      · exact counted
  | degraded q now allowed recorded =>
      simp only [step]
      split
      · exact counted_set counted (checked now)
      · exact counted_set counted ((checked now).trans (admit_rpd (found now) allowed recorded))
  | other now event => exact counted_set counted (s.key.handle_rpd r now event.2)

theorem count_le_of_rpd {k k' : KeyHealth} (limited : 0 < k.rpdLimit) (rpd : RpdStep k k' 0)
    (within : k.rpdCount ≤ k.rpdLimit) : k'.rpdCount ≤ k.rpdLimit := by
  rcases rpd.period with ⟨-, count⟩ | ⟨-, count⟩ <;> omega

/-- **A step goes beyond the limit just when it records a request where there is no room.** -/
theorem within_step (r : HeaderReaders) (limited : 0 < limit) (counted : s.Counted limit)
    (within : (s.dispatched : ℤ) ≤ limit) (a : KeyUse ι) :
    ((s.step r a).dispatched : ℤ) ≤ limit ↔ s.HasRoom a := by
  rw [← (counted_step r limited counted a).count]
  have own : 0 < s.key.rpdLimit := counted.limit ▸ limited
  have below : s.key.rpdCount ≤ s.key.rpdLimit := by
    rw [counted.count, counted.limit]
    exact within
  have checked : ∀ now, RpdStep s.key (s.key.isAvailable now).1 0 := s.key.isAvailable_rpd
  rw [← counted.limit]
  cases a with
  | look q now => exact iff_of_true (count_le_of_rpd own (checked now) below) trivial
  | other now event =>
      exact iff_of_true (count_le_of_rpd own (s.key.handle_rpd r now event.2) below) trivial
  | attempt q now allowed recorded =>
      refine iff_of_true ?_ trivial
      simp only [step]
      split
      case isTrue available =>
        -- the check and the record are one stretch, so that the room is still there
        have room := KeyHealth.rpdCount_lt_of_isAvailable own available
        have own' : 0 < (s.key.isAvailable now).1.rpdLimit := (checked now).limit ▸ own
        have kept := (admit_le_iff own' allowed recorded room.le).mpr
          fun _ => maybeResetRpd_le own' recorded room
        rw [(checked now).limit] at kept
        exact kept
      case isFalse _ => exact count_le_of_rpd own (checked now) below
  | prepare q allowed recorded =>
      simp only [step, HasRoom]
      split
      case isTrue found =>
        exact (admit_le_iff own allowed recorded below).trans (by simp [found])
      case isFalse missing => exact iff_of_true below fun found => absurd found missing
  | degraded q now allowed recorded =>
      simp only [step, HasRoom]
      split
      case isTrue available =>
        refine iff_of_true (count_le_of_rpd own (checked now) below) fun refused => ?_
        rw [available] at refused
        cases refused
      case isFalse refused =>
        have own' : 0 < (s.key.isAvailable now).1.rpdLimit := (checked now).limit ▸ own
        have below' : (s.key.isAvailable now).1.rpdCount ≤ (s.key.isAvailable now).1.rpdLimit := by
          rw [(checked now).limit]
          exact count_le_of_rpd own (checked now) below
        have room := admit_le_iff own' allowed recorded below'
        rw [(checked now).limit] at room
        exact room.trans ⟨fun h _ => h, fun h => h (by simpa using refused)⟩

end DailyRun

open DailyRun

/-- **The requests of a day stay within the limit just when no request is recorded without a check
where the counter has reached it.** -/
theorem rpd_limit_kept_iff {ι : Type u} [DecidableEq ι] (r : HeaderReaders) (k : KeyHealth)
    (limited : 0 < k.rpdLimit) (nonneg : 0 ≤ k.rpdCount) (within : k.rpdCount ≤ k.rpdLimit)
    (sched : List (KeyUse ι)) :
    (∀ pre post, sched = pre ++ post →
        ((runSchedule (step r) (start k) pre).dispatched : ℤ) ≤ k.rpdLimit)
      ↔ Along (step r) HasRoom (start k) sched := by
  have counted : (start k : DailyRun ι).Counted k.rpdLimit :=
    ⟨rfl, (Int.toNat_of_nonneg nonneg).symm⟩
  have start' : ((start k : DailyRun ι).dispatched : ℤ) ≤ k.rpdLimit := by
    rw [← counted.count]
    exact within
  exact always_iff_along (Counted k.rpdLimit) (fun s a counted => counted_step r limited counted a)
    (fun s a counted within => within_step r limited counted within a) counted start' sched

/-- A key that may be asked once a day. -/
def onceADay : KeyHealth := { plainKey with rpdLimit := 1 }

/-- Two requests are routed to the key, and both are then recorded. -/
def routedTogether : List (KeyUse Bool) :=
  [.look false 100, .look true 100, .prepare false 100 100, .prepare true 100 100]

/-- Two requests in a day. -/
theorem routedTogether_over_limit :
    ¬ ∀ pre post, routedTogether = pre ++ post →
      ((runSchedule (step plainReaders) (start onceADay) pre).dispatched : ℤ)
        ≤ onceADay.rpdLimit := by
  intro always
  exact absurd (always routedTogether [] rfl) (by decide +kernel)

/-- Two legacy requests, one after the other. -/
def attemptedTwice : List (KeyUse Bool) :=
  [.attempt false 100 100 100, .attempt true 100 100 100]

theorem rpd_limit_kept_attemptedTwice :
    ((runSchedule (step plainReaders) (start onceADay) attemptedTwice).dispatched : ℤ)
      ≤ onceADay.rpdLimit :=
  (rpd_limit_kept_iff plainReaders onceADay (by decide) (by decide) (by decide)
    attemptedTwice).mpr ⟨trivial, trivial, trivial⟩ attemptedTwice [] (List.append_nil _).symm

end Zhongzhuan.Proxy
