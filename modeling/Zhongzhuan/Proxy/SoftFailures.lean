import Zhongzhuan.Proxy.KeyHealth

/-!
# Soft failures

An upstream that answers with HTTP 200 and nothing else, or breaks off before it has said
anything, has failed softly: the key is to back off as it does after server errors, one step
further with each failure in a row.

* `SoftKind` are the ways in which a request of one of the three paths ends so, `SoftKind.calls`
  are the calls on the key that it makes.  The v3 paths call `mark_success` when the header of the
  answer has come and `mark_empty_response` when nothing follows.
* `Escalated` is the law of a run of soft failures: as many failures in a row, and the step of the
  backoff that belongs to them.

Between two requests the key may be looked at: `Glance`.
-/

namespace Zhongzhuan.Proxy

open Kit

/-- A call that reports nothing about the key. -/
inductive Glance
  | isAvailable
  | normalizeExpiredCooldown
deriving DecidableEq

/-- The call on the key. -/
def Glance.event : Glance → KeyEvent
  | .isAvailable => .isAvailable
  | .normalizeExpiredCooldown => .normalizeExpiredCooldown

/-- The header of a 200 answer. -/
structure OkHeader where
  headers : Headers
  status : ℕ
deriving DecidableEq

/-- How a request of a pool of several keys fails softly. -/
inductive SoftKind
  /-- `_stream_proxy`: the stream ends without payload and usage. -/
  | legacyEmpty
  /-- `_stream_proxy`: the stream breaks off before the first payload. -/
  | legacyTruncated
  /-- `_dispatch_v3_create_stream`: after the header the stream ends, or breaks off, without a
  frame that has content. -/
  | v3Stream (header : OkHeader)
  /-- `_dispatch_v3_create_stream`: the connection breaks off before the header. -/
  | v3StreamUnopened
  /-- `_dispatch_v3_create`: a body without content, with the counts it reports. -/
  | v3Nonstream (header : OkHeader) (usage : Option (ℤ × ℤ))
  /-- `_dispatch_v3_create`: the connection breaks off. -/
  | v3NonstreamTruncated
  /-- `_dispatch_v3_create`: an event stream in place of a body, and once more when the request
  is repeated with the contents as texts. -/
  | v3NonstreamEvents (header again : OkHeader)
deriving DecidableEq

namespace SoftKind

/-- What the v3 paths do when a 200 header has come. -/
def greet (header : OkHeader) (now : ℚ) : List (ℚ × KeyEvent) :=
  [(now, .success), (now, .learnRateLimits header.headers header.status)]

/-- The calls on the key after the request was sent. -/
def calls (opened ended : ℚ) : SoftKind → List (ℚ × KeyEvent)
  | .legacyEmpty => [(ended, .emptyResponse false)]
  | .legacyTruncated | .v3StreamUnopened | .v3NonstreamTruncated =>
    [(ended, .networkFailure false)]
  | .v3Stream header => greet header opened ++ [(ended, .emptyResponse false)]
  | .v3Nonstream header usage =>
    greet header opened
      ++ (usage.toList.map fun counts => (opened, .recordTokens counts.1 counts.2))
      ++ [(ended, .emptyResponse false)]
  | .v3NonstreamEvents header again =>
    greet header opened ++ [(ended, .recordRequest)] ++ greet again ended

/-- The key is marked as successful before it is marked as failed. -/
def greets : SoftKind → Bool
  | .v3Stream _ | .v3Nonstream _ _ | .v3NonstreamEvents _ _ => true
  | _ => false

/-- The key is not marked as failed. -/
def unmarked : SoftKind → Bool
  | .v3NonstreamEvents _ _ => true
  | _ => false

end SoftKind

/-- A request that fails softly, with the readings of the clock. -/
structure SoftRequest where
  /-- Looks at the key since the last request. -/
  glances : List (ℚ × Glance)
  sent : ℚ
  opened : ℚ
  ended : ℚ
  kind : SoftKind
deriving DecidableEq

/-- The calls on the key. -/
def SoftRequest.calls (q : SoftRequest) : List (ℚ × KeyEvent) :=
  q.glances.map (fun glance => (glance.1, glance.2.event))
    ++ (q.sent, .recordRequest) :: q.kind.calls q.opened q.ended

/-- The failures in a row, and the step of the backoff. -/
def counters (k : KeyHealth) : ℕ × ℕ := (k.consecutiveFailures, k.backoffLevel)

/-- What a request makes of the counters. -/
def SoftKind.count (kind : SoftKind) (c : ℕ × ℕ) : ℕ × ℕ :=
  if kind.unmarked then (0, c.2 - 1 - 1)
  else if kind.greets then (1, min (c.2 - 1 + 1) backoffMaxLevel)
  else (c.1 + 1, min (c.2 + 1) backoffMaxLevel)

variable {r : HeaderReaders} {k : KeyHealth}

/-! ### Calls that report no end of a request -/

end Zhongzhuan.Proxy
