import Zhongzhuan.Kit.Retry
import Zhongzhuan.Kit.Text
import Zhongzhuan.Store.BackgroundJobs

/-!
# Statements that are sent again: `TiDBStore` and `D1Store`

Both stores repeat a statement once after an error of the connection.  The comments on the
two retry rules call that safe, because the statement either had not been sent or had not been
committed, and because the statements are point reads and idempotent upserts.  An error of the
connection may also come after the statement was applied, and the statements are not all of
that kind: `deduct_token_quota` adds, and `claim_job` reads the number of affected rows.

* `TiDBStore.isRetryable` and `D1Failure.retryable` are the two rules, `TiDBStore.runStatement`
  and `D1Store.raw` the calls.
* `StatementCall` is a call of either store with the faults that strike it, `ReplyLost` the
  fault the rules do not allow for.
* `statement_once_iff`: a call that returns has applied its statement exactly once unless its
  first reply was lost.
-/

namespace Zhongzhuan.Store

open Kit

/-! ## `TiDBStore` -/

/-- An exception that leaves the driver. -/
structure DriverError where
  /-- An `Exception`; a `CancelledError` is none. -/
  isException : Bool
  /-- The first argument of a `pymysql.err.OperationalError`. -/
  operationalErrno : Option ℤ
  isTimeout : Bool
  /-- `str(exc).lower()`. -/
  lowered : String
deriving DecidableEq, Repr

namespace TiDBStore

/-- `_RETRYABLE_ERRNOS`. -/
def retryableErrnos : List ℤ := [2006, 2013, 2055, 1927]

/-- `_RETRYABLE_MARKERS`. -/
def retryableMarkers : List String :=
  ["lost connection", "connection reset", "connection refused", "server has gone away",
    "not connected", "broken pipe", "timed out", "ssl"]

/-- `_is_retryable`. -/
def isRetryable (error : DriverError) : Bool :=
  error.operationalErrno.any (· ∈ retryableErrnos) || error.isTimeout
    || retryableMarkers.any fun marker => isInfix marker.toList error.lowered.toList

variable {σ ρ : Type}

/-- `_run_statement`: one attempt and, after an error of the connection, a second one.
`txBound` says whether `_tx_conn` is set when the first one fails. -/
def runStatement (txBound : Bool) (statement : σ → σ × ρ) (s : Server σ)
    (first second : Attempt DriverError) : Server σ × Except DriverError ρ :=
  match first.run statement s with
  | (s, .ok reply) => (s, .ok reply)
  | (s, .error error) =>
    if !error.isException then (s, .error error)
    else if txBound || !isRetryable error then (s, .error error)
    else second.run statement s

/-- The errors after which `_run_statement` tries again. -/
def repeats (txBound : Bool) (error : DriverError) : Bool :=
  error.isException && !txBound && isRetryable error

theorem runStatement_eq_deliver (txBound : Bool) (statement : σ → σ × ρ) (s : Server σ)
    (first second : Attempt DriverError) :
    runStatement txBound statement s first second
      = deliver (repeats txBound) statement s first [second] := by
  rw [runStatement, deliver]
  split
  case h_1 s reply answered => rw [answered]
  case h_2 s error failed =>
    rw [failed]
    cases h : error.isException <;> cases txBound <;> cases g : isRetryable error <;>
      simp [repeats, deliver, h, g]

end TiDBStore

/-! ## `D1Store` -/

/-- How a request to the D1 endpoint fails. -/
inductive D1Failure
  /-- A body that is not JSON. -/
  | notJson (status : ℕ)
  /-- A status other than 200, or `success` is not true. -/
  | refused (status : ℕ)
  /-- A success with a number of results other than one, which counts as status 200. -/
  | resultCount
  /-- `aiohttp.ClientError`. -/
  | clientError
  | timeout
  /-- Everything else, which `_raw` does not catch. -/
  | other
deriving DecidableEq, Repr

/-- `_RETRYABLE_HTTP`. -/
def retryableHttp : List ℕ := [429, 500, 502, 503, 504, 522, 523, 524, 527]

/-- Whether `_raw` tries again. -/
def D1Failure.retryable : D1Failure → Bool
  | .notJson status | .refused status => decide (status ∈ retryableHttp)
  | .resultCount => decide (200 ∈ retryableHttp)
  | .clientError | .timeout => true
  | .other => false

/-- `_raw`: the loop over the attempts 1 and 2. -/
def D1Store.raw {σ ρ : Type} (statement : σ → σ × ρ) (s : Server σ)
    (first second : Attempt D1Failure) : Server σ × Except D1Failure ρ :=
  deliver D1Failure.retryable statement s first [second]

/-! ## A call of either store -/

/-- A call of `execute` or `execute_rowcount` outside a transaction, with what happens to its
attempts.  `txBound` says whether another coroutine has a transaction open when the first
attempt fails. -/
inductive StatementCall
  | tidb (txBound : Bool) (first second : Attempt DriverError)
  | d1 (first second : Attempt D1Failure)
deriving DecidableEq, Repr

namespace StatementCall

variable {σ ρ : Type}

/-- The server after the call, and what the call returns; `none` when it raises. -/
def execute (statement : σ → σ × ρ) (s : Server σ) : StatementCall → Server σ × Option ρ
  | .tidb txBound first second =>
    let (s, reply) := TiDBStore.runStatement txBound statement s first second
    (s, reply.toOption)
  | .d1 first second =>
    let (s, reply) := D1Store.raw statement s first second
    (s, reply.toOption)

/-- The first attempt was applied, its reply did not arrive, the error is one after which the
store tries again, and the second attempt is answered. -/
def ReplyLost : StatementCall → Prop
  | .tidb txBound first second =>
    (∃ error, first = .failed true error ∧ TiDBStore.repeats txBound error = true)
      ∧ second = .answered
  | .d1 first second =>
    (∃ failure, first = .failed true failure ∧ failure.retryable = true) ∧ second = .answered

/-- An attempt of the call is answered. -/
def returns : StatementCall → Bool
  | .tidb txBound first second => Returns (TiDBStore.repeats txBound) first [second]
  | .d1 first second => Returns D1Failure.retryable first [second]

/-- The number of replies that did not arrive before one did. -/
def lostReplies : StatementCall → ℕ
  | .tidb txBound first second => lost (TiDBStore.repeats txBound) first [second]
  | .d1 first second => lost D1Failure.retryable first [second]

variable {call : StatementCall}

theorem execute_of_returns (statement : σ → σ × ρ) (s : Server σ) (returned : call.returns) :
    call.execute statement s
      = let effect := fun d => (statement d).1
        (⟨effect^[call.lostReplies + 1] s.data, s.executions + call.lostReplies + 1⟩,
          some (statement (effect^[call.lostReplies] s.data)).2) := by
  cases call with
  | tidb txBound first second =>
      simp only [execute, TiDBStore.runStatement_eq_deliver, deliver_of_returns s returned]
      rfl
  | d1 first second =>
      simp only [execute, D1Store.raw, deliver_of_returns s returned]
      rfl

theorem execute_of_not_returns (statement : σ → σ × ρ) (s : Server σ)
    (silent : call.returns = false) : (call.execute statement s).2 = none := by
  cases call with
  | tidb txBound first second =>
      obtain ⟨error, failed⟩ := deliver_of_not_returns statement s silent
      simp only [execute, TiDBStore.runStatement_eq_deliver, failed]
      rfl
  | d1 first second =>
      obtain ⟨error, failed⟩ := deliver_of_not_returns statement s silent
      simp only [execute, D1Store.raw, failed]
      rfl

theorem lost_pair {ε : Type} {retry : ε → Bool} {first second : Attempt ε}
    (returned : Returns retry first [second] = true) :
    ((∃ error, first = .failed true error ∧ retry error = true) ∧ second = .answered
        ∧ lost retry first [second] = 1)
      ∨ (¬ ∃ error, first = .failed true error ∧ retry error = true)
        ∧ lost retry first [second] = 0 := by
  cases first with
  | answered => exact .inr ⟨by simp, rfl⟩
  | failed executed error =>
      obtain ⟨again, later⟩ : retry error = true ∧ Returns retry second [] = true := by
        simpa [Returns] using returned
      cases second with
      | failed _ _ => simp [Returns] at later
      | answered => cases executed <;> simp [lost, again]

theorem lostReplies_of_returns (returned : call.returns) :
    (call.ReplyLost ∧ call.lostReplies = 1) ∨ (¬ call.ReplyLost ∧ call.lostReplies = 0) := by
  cases call with
  | tidb txBound first second =>
      rcases lost_pair returned with ⟨applied, answered, one⟩ | ⟨kept, none⟩
      · exact .inl ⟨⟨applied, answered⟩, one⟩
      · exact .inr ⟨fun replyLost => kept replyLost.1, none⟩
  | d1 first second =>
      rcases lost_pair returned with ⟨applied, answered, one⟩ | ⟨kept, none⟩
      · exact .inl ⟨⟨applied, answered⟩, one⟩
      · exact .inr ⟨fun replyLost => kept replyLost.1, none⟩

theorem returns_of_replyLost (replyLost : call.ReplyLost) : call.returns := by
  cases call with
  | tidb txBound first second =>
      obtain ⟨⟨error, rfl, again⟩, rfl⟩ := replyLost
      simp [returns, Returns, again]
  | d1 first second =>
      obtain ⟨⟨failure, rfl, again⟩, rfl⟩ := replyLost
      simp [returns, Returns, again]

/-- **A call that keeps its replies**: it applies the statement once and answers what that
did. -/
theorem execute_once (statement : σ → σ × ρ) (s : Server σ) (kept : ¬ call.ReplyLost)
    {s' : Server σ} {reply : ρ} (result : call.execute statement s = (s', some reply)) :
    s' = s.execute statement ∧ reply = (statement s.data).2 := by
  have returned : call.returns := by
    by_contra silent
    have raised := execute_of_not_returns statement s (by simpa using silent)
    simp [result] at raised
  have none_lost : call.lostReplies = 0 := by
    rcases lostReplies_of_returns returned with ⟨replyLost, _⟩ | ⟨_, none⟩
    · exact absurd replyLost kept
    · exact none
  rw [execute_of_returns statement s returned, none_lost] at result
  obtain ⟨server, answer⟩ := Prod.mk.inj result
  exact ⟨server.symm, (Option.some.inj answer).symm⟩

/-- **A call whose first reply is lost**: it applies the statement twice and answers what the
second time did. -/
theorem execute_twice (statement : σ → σ × ρ) (s : Server σ) (replyLost : call.ReplyLost) :
    call.execute statement s
      = ((s.execute statement).execute statement, some (statement (statement s.data).1).2) := by
  have returned := returns_of_replyLost replyLost
  have one_lost : call.lostReplies = 1 := by
    rcases lostReplies_of_returns returned with ⟨_, one⟩ | ⟨kept, _⟩
    · exact one
    · exact absurd replyLost kept
  rw [execute_of_returns statement s returned, one_lost]
  rfl

/-- What the comments of the source count on: a statement that does nothing when it is
repeated leaves the contents that applying it once leaves. -/
theorem execute_data_of_idempotent (statement : σ → σ × ρ) (s : Server σ)
    (idempotent : ∀ d, (statement (statement d).1).1 = (statement d).1)
    (returned : call.returns) : (call.execute statement s).1.data = (statement s.data).1 := by
  cases call with
  | tidb txBound first second =>
      simp only [execute, TiDBStore.runStatement_eq_deliver]
      exact deliver_data_of_idempotent s idempotent returned
  | d1 first second => exact deliver_data_of_idempotent s idempotent returned

/-! ## The law -/

/-- The call, if it returns, has applied its statement exactly once. -/
def AppliesOnce (call : StatementCall) (statement : σ → σ × ρ) (s : Server σ) : Prop :=
  ∀ s' reply, call.execute statement s = (s', some reply) →
    s'.executions = s.executions + 1

end StatementCall

/-! ### `deduct_token_quota` -/

/-- A row of `access_tokens`, as far as the quota goes. -/
structure AccessTokenRow where
  id : ℤ
  usedTokens : ℤ
deriving DecidableEq, Repr

/-- `UPDATE access_tokens SET used_tokens = used_tokens + ? WHERE id=?`, and the number of
affected rows. -/
def addUsedTokens (tokens tokenId : ℤ) (table : List AccessTokenRow) :
    List AccessTokenRow × ℕ :=
  (table.map fun row =>
      if row.id = tokenId then { row with usedTokens := row.usedTokens + tokens } else row,
    table.countP fun row => row.id = tokenId)

/-- `deduct_token_quota`, and whether it returned. -/
def deductTokenQuota (call : StatementCall) (tokenId tokens : ℤ)
    (s : Server (List AccessTokenRow)) : Server (List AccessTokenRow) × Bool :=
  if tokens ≤ 0 ∨ tokenId ≤ 0 then (s, true)
  else
    let result := call.execute (addUsedTokens tokens tokenId) s
    (result.1, result.2.isSome)

/-- `deduct_token_quota`, if it returns, has added its tokens exactly once; there is nothing
to add for a number or an id that is not positive. -/
def StatementCall.DeductsOnce (call : StatementCall) : Prop :=
  ∀ tokenId tokens s s', deductTokenQuota call tokenId tokens s = (s', true) →
    s'.data = if tokens ≤ 0 ∨ tokenId ≤ 0 then s.data else (addUsedTokens tokens tokenId s.data).1

theorem deductsOnce_iff (call : StatementCall) : call.DeductsOnce ↔ ¬ call.ReplyLost := by
  constructor
  · intro once replyLost
    -- one row of the token: the tokens are added to it twice
    let s : Server (List AccessTokenRow) := ⟨[⟨1, 0⟩], 0⟩
    have twice := call.execute_twice (addUsedTokens 5 1) s replyLost
    have returned : deductTokenQuota call 1 5 s
        = ((s.execute (addUsedTokens 5 1)).execute (addUsedTokens 5 1), true) := by
      simp [deductTokenQuota, twice]
    have added := once 1 5 s _ returned
    simp [s, Server.execute, addUsedTokens] at added
  · intro kept tokenId tokens s s' returned
    unfold deductTokenQuota at returned
    split at returned
    case isTrue nothing =>
      obtain ⟨rfl, _⟩ := Prod.mk.inj returned
      rw [if_pos nothing]
    case isFalse positive =>
      obtain ⟨rfl, replied⟩ := Prod.mk.inj returned
      obtain ⟨reply, answer⟩ := Option.isSome_iff_exists.mp replied
      have once := call.execute_once (addUsedTokens tokens tokenId) s kept
        (Prod.ext rfl answer)
      rw [if_neg positive]
      exact congrArg Server.data once.1

/-! ### `claim_job` -/

/-- The `UPDATE` of `claim_job`, if it took effect and the call returns, reports one affected
row. -/
def StatementCall.ReportsClaim (call : StatementCall) : Prop :=
  ∀ (row : JobRow) (attempt ts leaseSeconds executions : ℕ) (s' : Server JobRow) (affected : ℕ),
    (row.claimUpdate attempt ts leaseSeconds).2 = 1 →
      call.execute (fun row => row.claimUpdate attempt ts leaseSeconds) ⟨row, executions⟩
          = (s', some affected) →
        affected = 1

theorem claimUpdate_again (row : JobRow) (attempt ts leaseSeconds : ℕ)
    (claimed : (row.claimUpdate attempt ts leaseSeconds).2 = 1) :
    (row.claimUpdate attempt ts leaseSeconds).1.claimUpdate attempt ts leaseSeconds
      = ((row.claimUpdate attempt ts leaseSeconds).1, 0) := by
  unfold JobRow.claimUpdate at claimed ⊢
  split at claimed
  case isTrue matched => simp [matched]
  case isFalse _ => simp at claimed

/-- The job is claimed whatever the call reports: only the report is wrong when the first
reply is lost, and the job stays with nobody until its lease ends. -/
theorem claimUpdate_takes_effect (call : StatementCall) (attempt ts leaseSeconds : ℕ)
    (s : Server JobRow) (returned : call.returns) :
    (call.execute (fun row => row.claimUpdate attempt ts leaseSeconds) s).1.data
      = (s.data.claimUpdate attempt ts leaseSeconds).1 := by
  refine StatementCall.execute_data_of_idempotent _ s (fun row => ?_) returned
  by_cases claimed : (row.claimUpdate attempt ts leaseSeconds).2 = 1
  · rw [claimUpdate_again row attempt ts leaseSeconds claimed]
  · have unmatched : (row.claimUpdate attempt ts leaseSeconds).1 = row := by
      unfold JobRow.claimUpdate at claimed ⊢
      split at claimed
      case isTrue matched => simp at claimed
      case isFalse unmatched => rw [if_neg unmatched]
    rw [unmatched, unmatched]

theorem claimUpdate_takes_effect_twice :
    ((StatementCall.tidb false
        (.failed true ⟨true, some 2013, false, "lost connection to mysql server during query"⟩)
        .answered).execute (fun row => row.claimUpdate 0 1 30) ⟨JobRow.createJob 0 0, 0⟩).1.data
      = ((JobRow.createJob 0 0).claimUpdate 0 1 30).1 :=
  claimUpdate_takes_effect _ 0 1 30 ⟨JobRow.createJob 0 0, 0⟩ (by decide +kernel)

theorem reportsClaim_iff (call : StatementCall) : call.ReportsClaim ↔ ¬ call.ReplyLost := by
  constructor
  · intro reports replyLost
    let row := JobRow.createJob 0 0
    have claimed : (row.claimUpdate 0 1 30).2 = 1 := rfl
    have twice := call.execute_twice (fun row : JobRow => row.claimUpdate 0 1 30) ⟨row, 0⟩
      replyLost
    have report := reports row 0 1 30 0 _ _ claimed twice
    rw [claimUpdate_again row 0 1 30 claimed] at report
    exact absurd report (by decide)
  · intro kept row attempt ts leaseSeconds executions s' affected claimed result
    rw [(call.execute_once _ _ kept result).2]
    exact claimed

/-! ### Every statement -/

theorem StatementCall.appliesOnce_iff {σ ρ : Type} (call : StatementCall)
    (statement : σ → σ × ρ) (s : Server σ) :
    call.AppliesOnce statement s ↔ ¬ call.ReplyLost := by
  constructor
  · intro once replyLost
    have count := once _ _ (call.execute_twice statement s replyLost)
    simp [Server.execute] at count
  · intro kept s' reply result
    rw [(call.execute_once statement s kept result).1]
    rfl

/-- **When a call that returns has applied its statement exactly once**: for every statement
and every fault, exactly when the store does not repeat a statement whose reply was lost.  The
same holds of the tokens `deduct_token_quota` adds and of the row `claim_job` reports. -/
theorem statement_once_iff (call : StatementCall) :
    (∀ {σ ρ : Type} (statement : σ → σ × ρ) (s : Server σ),
        call.AppliesOnce statement s ↔ ¬ call.ReplyLost)
      ∧ (call.DeductsOnce ↔ ¬ call.ReplyLost)
      ∧ (call.ReportsClaim ↔ ¬ call.ReplyLost) :=
  ⟨call.appliesOnce_iff, deductsOnce_iff call, reportsClaim_iff call⟩

/-- **The quota of a token is charged twice** when the connection breaks after the server has
applied the statement (error 2013, lost connection during query). -/
theorem lostConnection_deducts_twice :
    ¬ (StatementCall.tidb false
        (.failed true ⟨true, some 2013, false, "lost connection to mysql server during query"⟩)
        .answered).DeductsOnce := by
  intro once
  have added := once 1 5 ⟨[⟨1, 0⟩], 0⟩ ⟨[⟨1, 10⟩], 2⟩ (by decide +kernel)
  exact absurd added (by decide)

end Zhongzhuan.Store
