import Zhongzhuan.Kit.PyFloat

/-!
# `KeyHealth`: what the proxy knows about one upstream key

The model of `proxy/ratelimit.py` and of the transition functions of `proxy/retry.py`.

* `SlidingWindow` counts requests or tokens over the last seconds, one bucket a second.
* `KeyHealth` has the fields that the functions below read or write, and each function of
  the two files is one definition on it.  A function that reads the clock takes the reading.
* `KeyEvent` is one call of one of them, `KeyHealth.handle` executes it.  None of them awaits
  anything, so the calls of concurrent requests follow one another.

What `float()` and `int()` make of a response header are the parameters `HeaderReaders`;
`none` is a `ValueError`.
-/

namespace Zhongzhuan.Proxy

open Kit

/-! ## The sliding window -/

/-- `SlidingWindow`: the buckets, oldest first, with their sum. -/
structure SlidingWindow where
  windowSeconds : ℕ
  /-- Zero is no limit. -/
  limit : ℤ
  buckets : List ℤ
  total : ℤ
  lastRotate : ℚ
deriving DecidableEq, Repr

namespace SlidingWindow

/-- `SlidingWindow(window_seconds, limit)`. -/
def new (windowSeconds : ℕ) (limit : ℤ) (now : ℚ) : SlidingWindow where
  windowSeconds := windowSeconds
  limit := limit
  buckets := List.replicate windowSeconds 0
  total := 0
  lastRotate := now

/-- One turn of the loop in `_rotate`: the oldest bucket leaves, an empty one enters. -/
def shift (w : SlidingWindow) : SlidingWindow :=
  { w with
    total := w.total - w.buckets.headD 0
    buckets := w.buckets.tail ++ [0] }

/-- `_rotate`. -/
def rotate (w : SlidingWindow) (now : ℚ) : SlidingWindow :=
  let elapsed := ⌊now - w.lastRotate⌋
  if elapsed ≤ 0 then w
  else if (w.windowSeconds : ℤ) ≤ elapsed then
    { w with
      buckets := List.replicate w.windowSeconds 0
      total := 0
      lastRotate := now }
  else { shift^[elapsed.toNat] w with lastRotate := now }

/-- `self.buckets[-1] += n; self.total += n`. -/
def count (w : SlidingWindow) (n : ℤ) : SlidingWindow :=
  { w with
    buckets := w.buckets.dropLast ++ (w.buckets.getLast?.map (· + n)).toList
    total := w.total + n }

/-- `allow`. -/
def allow (w : SlidingWindow) (n : ℤ) (now : ℚ) : SlidingWindow × Bool :=
  let w := w.rotate now
  if 0 < w.limit ∧ w.limit < w.total + n then (w, false) else (w.count n, true)

/-- `add`. -/
def add (w : SlidingWindow) (n : ℤ) (now : ℚ) : SlidingWindow :=
  let w := w.rotate now
  if n ≤ 0 then w else w.count n

/-- `current_usage`. -/
def currentUsage (w : SlidingWindow) (now : ℚ) : SlidingWindow × ℤ :=
  let w := w.rotate now
  (w, w.total)

theorem currentUsage_of_idle {w : SlidingWindow} {now : ℚ}
    (idle : w.lastRotate + w.windowSeconds + 1 ≤ now) : (w.currentUsage now).2 = 0 := by
  have whole : (w.windowSeconds : ℤ) + 1 ≤ ⌊now - w.lastRotate⌋ := by
    rw [Int.le_floor]
    push_cast
    linarith
  have moved : ¬ ⌊now - w.lastRotate⌋ ≤ 0 := by omega
  have long : (w.windowSeconds : ℤ) ≤ ⌊now - w.lastRotate⌋ := by omega
  simp only [currentUsage, rotate, if_neg moved, if_pos long]

end SlidingWindow

/-! ## The record -/

/-- `STATE_HEALTHY`, `STATE_RATE_LIMITED`, `STATE_INVALID`, `STATE_ERROR`. -/
inductive KeyStatus
  | healthy
  | rateLimited
  | invalid
  | error
deriving DecidableEq, Repr

/-- The `CLASS_*` labels that a transition stores. -/
inductive FailureClass
  | permanent
  | banned
  | balance
  | rateLimit
  | transient
deriving DecidableEq, Repr

/-- `BALANCE_COOLDOWN_SECONDS`. -/
def balanceCooldownSeconds : ℚ := 3600

/-- `BACKOFF_MAX_LEVEL`. -/
def backoffMaxLevel : ℕ := 3

/-- `SINGLE_KEY_BACKOFF_MAX_LEVEL`. -/
def singleKeyBackoffMaxLevel : ℕ := 1

/-- `backoff_seconds`: the steps 5, 10, 60 and 600, and the last one for every level above. -/
def backoffSeconds : ℕ → ℚ
  | 0 => 5
  | 1 => 10
  | 2 => 60
  | _ => 600

/-- `KeyHealth`. -/
structure KeyHealth where
  window : SlidingWindow
  rpmLimit : ℤ
  tpmLimit : ℤ
  tpmWindow : Option SlidingWindow
  rpdLimit : ℤ
  rpdCount : ℤ
  rpdResetAt : ℚ
  status : KeyStatus
  cooldownUntil : PyFloat
  successCount : ℕ
  totalFailures : ℕ
  consecutiveFailures : ℕ
  recent429Count : ℕ
  backoffLevel : ℕ
  /-- `none` is the empty string. -/
  failureClass : Option FailureClass
  lastFailureAt : ℚ
deriving DecidableEq, Repr

namespace KeyHealth

/-- A key with the defaults of the class. -/
def fresh (window : SlidingWindow) : KeyHealth where
  window := window
  rpmLimit := 0
  tpmLimit := 0
  tpmWindow := none
  rpdLimit := 0
  rpdCount := 0
  rpdResetAt := 0
  status := .healthy
  cooldownUntil := .finite 0
  successCount := 0
  totalFailures := 0
  consecutiveFailures := 0
  recent429Count := 0
  backoffLevel := 0
  failureClass := none
  lastFailureAt := 0

/-! ## The methods of the class -/

/-- `_maybe_reset_rpd`. -/
def maybeResetRpd (k : KeyHealth) (now : ℚ) : KeyHealth :=
  if k.rpdResetAt ≤ now then { k with rpdCount := 0, rpdResetAt := now + 86400 } else k

/-- The check of the requests per minute in `is_available`. -/
def rpmRoom (k : KeyHealth) (now : ℚ) : KeyHealth × Bool :=
  if 0 < k.rpmLimit then
    let (window, usage) := k.window.currentUsage now
    ({ k with window := window }, !decide (k.rpmLimit ≤ usage))
  else (k, true)

/-- The check of the tokens per minute. -/
def tpmRoom (k : KeyHealth) (now : ℚ) : KeyHealth × Bool :=
  match k.tpmWindow with
  | some tpmWindow =>
    if 0 < k.tpmLimit then
      let (window, usage) := tpmWindow.currentUsage now
      ({ k with tpmWindow := some window }, !decide (k.tpmLimit ≤ usage))
    else (k, true)
  | none => (k, true)

/-- The check of the requests per day. -/
def rpdRoom (k : KeyHealth) (now : ℚ) : KeyHealth × Bool :=
  if 0 < k.rpdLimit then
    let k := k.maybeResetRpd now
    (k, !decide (k.rpdLimit ≤ k.rpdCount))
  else (k, true)

/-- `is_available`.  The checks after the first that fails are not made. -/
def isAvailable (k : KeyHealth) (now : ℚ) : KeyHealth × Bool :=
  if k.status = .invalid then (k, false)
  else if (PyFloat.finite now).lt k.cooldownUntil then (k, false)
  else
    let rpm := k.rpmRoom now
    if !rpm.2 then (rpm.1, false)
    else
      let tpm := rpm.1.tpmRoom now
      if !tpm.2 then (tpm.1, false) else tpm.1.rpdRoom now

/-- `record_success`. -/
def recordSuccess (k : KeyHealth) : KeyHealth :=
  let k :=
    { k with
      consecutiveFailures := 0
      successCount := k.successCount + 1
      backoffLevel := k.backoffLevel - 1 }
  if k.status = .error ∨ k.status = .rateLimited then
    { k with status := .healthy, cooldownUntil := .finite 0 }
  else k

/-- `normalize_expired_cooldown`. -/
def normalizeExpiredCooldown (k : KeyHealth) (now : ℚ) : KeyHealth :=
  if (k.status = .error ∨ k.status = .rateLimited)
      ∧ k.cooldownUntil.le (.finite now) = true then
    { k with status := .healthy, cooldownUntil := .finite 0 }
  else k

/-- `reactivate`, the confirmation of the operator. -/
def reactivate (k : KeyHealth) : KeyHealth :=
  { k with
    status := .healthy
    cooldownUntil := .finite 0
    backoffLevel := 0
    failureClass := none
    consecutiveFailures := 0 }

/-- `record_request`. -/
def recordRequest (k : KeyHealth) (now : ℚ) : KeyHealth :=
  if 0 < k.rpdLimit then
    let k := k.maybeResetRpd now
    { k with rpdCount := k.rpdCount + 1 }
  else k

/-- `record_tokens`. -/
def recordTokens (k : KeyHealth) (tokensIn tokensOut : ℤ) (now : ℚ) : KeyHealth :=
  if 0 < tokensIn + tokensOut then
    { k with tpmWindow := k.tpmWindow.map fun w => w.add (tokensIn + tokensOut) now }
  else k

/-! ## The transition functions -/

/-- `_bump_failure`. -/
def bumpFailure (k : KeyHealth) : KeyHealth :=
  { k with
    totalFailures := k.totalFailures + 1
    consecutiveFailures := k.consecutiveFailures + 1 }

/-- What the failure marks have in common: both counters, the status, the class and the
time. -/
def failed (k : KeyHealth) (status : KeyStatus) (failureClass : FailureClass) (now : ℚ) :
    KeyHealth :=
  { k.bumpFailure with
    status := status
    failureClass := some failureClass
    lastFailureAt := now }

/-- `_apply_transient_backoff`. -/
def applyTransientBackoff (k : KeyHealth) (singleKey : Bool) (now : ℚ) : KeyHealth :=
  let level :=
    min (k.backoffLevel + 1) (if singleKey then singleKeyBackoffMaxLevel else backoffMaxLevel)
  { k with
    backoffLevel := level
    cooldownUntil := .finite (now + backoffSeconds level) }

/-- `mark_auth_failure`. -/
def markAuthFailure (k : KeyHealth) (now : ℚ) : KeyHealth :=
  { k.failed .invalid .permanent now with cooldownUntil := .finite 0 }

/-- `mark_balance_depleted`. -/
def markBalanceDepleted (k : KeyHealth) (now : ℚ) : KeyHealth :=
  { k.failed .error .balance now with cooldownUntil := .finite (now + balanceCooldownSeconds) }

/-- `mark_banned`. -/
def markBanned (k : KeyHealth) (now : ℚ) : KeyHealth :=
  { k.failed .error .banned now with
    backoffLevel := 3
    cooldownUntil := .finite (now + backoffSeconds 3) }

/-- `mark_rate_limited`. -/
def markRateLimited (k : KeyHealth) (retryAfter : PyFloat) (now : ℚ) : KeyHealth :=
  let k :=
    { k.failed .rateLimited .rateLimit now with recent429Count := k.recent429Count + 1 }
  if (PyFloat.finite 0).lt retryAfter then
    { k with
      cooldownUntil := .addTo now (retryAfter.min (.finite (backoffSeconds 3))) }
  else
    { k with
      backoffLevel := min (k.backoffLevel + 1) 3
      cooldownUntil := .finite (now + backoffSeconds (min (k.backoffLevel + 1) 3)) }

/-- `mark_server_error`. -/
def markServerError (k : KeyHealth) (singleKey : Bool) (now : ℚ) : KeyHealth :=
  (k.failed .error .transient now).applyTransientBackoff singleKey now

/-- `mark_network_failure`. -/
def markNetworkFailure (k : KeyHealth) (singleKey : Bool) (now : ℚ) : KeyHealth :=
  (k.failed .error .transient now).applyTransientBackoff singleKey now

/-- `mark_empty_response`. -/
def markEmptyResponse (k : KeyHealth) (singleKey : Bool) (now : ℚ) : KeyHealth :=
  (k.failed .error .transient now).applyTransientBackoff singleKey now

/-- `mark_success`. -/
def markSuccess (k : KeyHealth) : KeyHealth :=
  let k :=
    { k with
      successCount := k.successCount + 1
      recent429Count := 0
      consecutiveFailures := 0
      status := .healthy
      cooldownUntil := .finite 0
      backoffLevel := k.backoffLevel - 1 }
  if k.backoffLevel = 0 then { k with failureClass := none } else k

end KeyHealth

/-! ## Learning from the response headers -/

/-- `float()` and `int()` on the text of a header. -/
structure HeaderReaders where
  float : String → Option PyFloat
  int : String → Option ℤ

/-- The headers of a response. -/
abbrev Headers := List (String × String)

/-- `_lower_headers(headers).get(name)`: of several spellings the last one counts. -/
def Headers.lowered (headers : Headers) (name : String) : Option String :=
  (headers.reverse.find? fun h => h.1.toLower = name).map Prod.snd

/-- A header that is there and not empty. -/
def Headers.given (headers : Headers) (name : String) : Option String :=
  (headers.lowered name).filter (· ≠ "")

/-- A header that `int()` reads. -/
def Headers.givenInt (r : HeaderReaders) (headers : Headers) (name : String) : Option ℤ :=
  (headers.given name).bind r.int

namespace KeyHealth

/-- `Retry-After`, in seconds. -/
def learnRetryAfter (r : HeaderReaders) (k : KeyHealth) (headers : Headers) (now : ℚ) :
    KeyHealth :=
  match (headers.given "retry-after").bind r.float with
  | some seconds => { k with cooldownUntil := .addTo now (seconds.min (.finite 600)) }
  | none => k

/-- `x-ratelimit-limit-requests`. -/
def learnRequestLimit (r : HeaderReaders) (k : KeyHealth) (headers : Headers) : KeyHealth :=
  match headers.givenInt r "x-ratelimit-limit-requests" with
  | some val =>
    if 0 < val ∧ (k.rpmLimit = 0 ∨ val < k.rpmLimit) then { k with rpmLimit := val } else k
  | none => k

/-- `x-ratelimit-limit-tokens`. -/
def learnTokenLimit (r : HeaderReaders) (k : KeyHealth) (headers : Headers) (now : ℚ) :
    KeyHealth :=
  match headers.givenInt r "x-ratelimit-limit-tokens" with
  | some val =>
    if 0 < val then
      { k with
        tpmLimit := if k.tpmLimit = 0 ∨ val < k.tpmLimit then val else k.tpmLimit
        tpmWindow := some (match k.tpmWindow with
          | none => .new 60 val now
          | some w => { w with limit := val }) }
    else k
  | none => k

/-- A window brought up to what the provider counts, `used`. -/
def syncWindow (w : SlidingWindow) (used : ℤ) (now : ℚ) : SlidingWindow :=
  if 0 < used then
    let (w, current) := w.currentUsage now
    if current < used then w.add (used - current) now else w
  else w

/-- `x-ratelimit-remaining-tokens`. -/
def syncTokens (r : HeaderReaders) (k : KeyHealth) (headers : Headers) (now : ℚ) : KeyHealth :=
  match headers.givenInt r "x-ratelimit-remaining-tokens", k.tpmWindow with
  | some rem, some w =>
    if 0 < k.tpmLimit then
      { k with tpmWindow := some (syncWindow w (k.tpmLimit - rem) now) }
    else k
  | _, _ => k

/-- `x-ratelimit-remaining-requests`. -/
def syncRequests (r : HeaderReaders) (k : KeyHealth) (headers : Headers) (now : ℚ) :
    KeyHealth :=
  match headers.givenInt r "x-ratelimit-remaining-requests" with
  | some rem =>
    if 0 < k.rpmLimit then
      { k with window := syncWindow k.window (k.rpmLimit - rem) now }
    else k
  | none => k

/-- `learn_rate_limits`.  The status of the response is an argument the source does not
read. -/
def learnRateLimits (r : HeaderReaders) (k : KeyHealth) (headers : Headers) (now : ℚ) :
    KeyHealth :=
  let k := k.learnRetryAfter r headers now
  let k := k.learnRequestLimit r headers
  let k := k.learnTokenLimit r headers now
  (k.syncTokens r headers now).syncRequests r headers now

end KeyHealth

/-! ## The calls -/

/-- One call of one of the functions on a key. -/
inductive KeyEvent
  | authFailure
  | balanceDepleted
  | banned
  | rateLimited (retryAfter : PyFloat)
  | serverError (singleKey : Bool)
  | networkFailure (singleKey : Bool)
  | emptyResponse (singleKey : Bool)
  | success
  | learnRateLimits (headers : Headers) (status : ℕ)
  | normalizeExpiredCooldown
  | isAvailable
  | recordSuccess
  | recordRequest
  | recordTokens (tokensIn tokensOut : ℤ)
  | reactivate
deriving DecidableEq, Repr

/-- What a call at a reading of the clock makes of the key. -/
def KeyHealth.handle (r : HeaderReaders) (k : KeyHealth) (call : ℚ × KeyEvent) : KeyHealth :=
  match call.2 with
  | .authFailure => k.markAuthFailure call.1
  | .balanceDepleted => k.markBalanceDepleted call.1
  | .banned => k.markBanned call.1
  | .rateLimited retryAfter => k.markRateLimited retryAfter call.1
  | .serverError singleKey => k.markServerError singleKey call.1
  | .networkFailure singleKey => k.markNetworkFailure singleKey call.1
  | .emptyResponse singleKey => k.markEmptyResponse singleKey call.1
  | .success => k.markSuccess
  | .learnRateLimits headers _ => k.learnRateLimits r headers call.1
  | .normalizeExpiredCooldown => k.normalizeExpiredCooldown call.1
  | .isAvailable => (k.isAvailable call.1).1
  | .recordSuccess => k.recordSuccess
  | .recordRequest => k.recordRequest call.1
  | .recordTokens tokensIn tokensOut => k.recordTokens tokensIn tokensOut call.1
  | .reactivate => k.reactivate

/-! ## A key to try things on -/

/-- A key with the defaults and a window without a limit. -/
def plainKey : KeyHealth := .fresh (.new 60 0 0)

/-- Readers for responses whose headers hold no numbers. -/
def plainReaders : HeaderReaders := ⟨fun _ => none, fun _ => none⟩

end Zhongzhuan.Proxy
