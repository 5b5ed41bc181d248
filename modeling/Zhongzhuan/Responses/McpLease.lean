import Zhongzhuan.Responses.McpConfig
import Zhongzhuan.Store.IdempotencyStore

/-!
# `McpClient.call_tool`: one execution for one idempotency key

The lease and the execution of `call_tool` in `responses_v3/mcp_client.py`, for any number of
invocations that carry one workspace and one key, in any number of clients over one database.

* `LeasePhase` says where an invocation is, and `LeaseRun.advance` takes it from one statement to
  the next: the gates, `reserve`, `lookup`, the wait of `_acquire`, the remote call and
  `mark_executed`.
* `NoRecordExpires` is the condition on the clock.
* `call_tool_lease`: the remote tool is called at most once, and the digest and the name in the
  record decide how each of the others ends.

The audit rows, the events and the items of an outcome do not come back into these decisions and
are left out.
-/

namespace Zhongzhuan.Responses

open Kit Store

universe u

/-- The settings of a client that the lease reads. -/
structure McpClient where
  waitSeconds : ℚ
  /-- The constructor takes no negative value. -/
  pollSeconds : ℚ
  poll_nonneg : 0 ≤ pollSeconds
  reservationTtl : ℤ
  resultTtl : ℤ

/-- What a turn of the wait adds to `waited`. -/
def McpClient.turn (client : McpClient) : ℚ :=
  if client.pollSeconds = 0 then client.waitSeconds else client.pollSeconds

/-- How `session.call_tool` ends. -/
inductive RemoteResult
  | timedOut
  | raised
  /-- The result carries `isError`. -/
  | reportedError
  | completed
  deriving DecidableEq

/-- How an invocation ends. -/
inductive CallOutcome
  | refused (refusal : Refusal)
  | conflict (holder : String)
  | waitTimeout
  | duplicate (holder : String)
  /-- It called the remote tool. -/
  | executed (result : RemoteResult)
  deriving DecidableEq

/-- Where an invocation is: the statement it issues next, with the clock its call read and the
time it has waited. -/
inductive LeasePhase
  | before
  | reserving (ts : ℕ) (waited : ℚ)
  | reclaiming (ts : ℕ) (waited : ℚ)
  | looking (waited : ℚ)
  /-- `lookup` has its row, and reads the clock. -/
  | judging (waited : ℚ) (row : Option IdempotencyRow)
  | sleeping (waited : ℚ)
  /-- It has the lease. -/
  | executing
  /-- It is in `session.call_tool`. -/
  | calling
  | flipping (ts : ℕ)
  | writing
  | replacing (ts : ℕ)
  | ended (outcome : CallOutcome)
  deriving DecidableEq

/-- A step of the run.  An invocation takes one step, and reads the stored approval and the answer
of the tool where it comes to them. -/
inductive LeaseStep (ι : Type u)
  | tick (seconds : ℕ)
  | advance (c : ι) (persisted : ApprovalState) (result : RemoteResult)

/-- The clock, the record of the key and the invocations. -/
structure LeaseRun (ι : Type u) where
  now : ℕ
  record : Option IdempotencyRow
  phase : ι → LeasePhase
  /-- The invocation whose `reserve` returned `True` last. -/
  executor : Option ι
  /-- The invocations of `session.call_tool`. -/
  invoked : List ι

/-- An invocation: the call, and the client it is made on. -/
structure Invocation where
  client : McpClient
  call : McpCall

namespace LeaseRun

variable {ι : Type u} [DecidableEq ι] (calls : ι → Invocation) (str : Json → String)
  (requestDigest : String → String → Fields → { digest : String // digest ≠ "" })

/-- `request_digest` of the call, which is never empty. -/
def digestOf (c : ι) : String :=
  requestDigest (calls c).call.config.serverLabel (calls c).call.name (calls c).call.arguments

/-- The name under which the call holds the key. -/
def holderOf (c : ι) : String := executionIdFor (calls c).call.responseId (calls c).call.toolSeq

/-- The arguments of its `reserve`. -/
def reservationOf (c : ι) : Reservation where
  responseId := holderOf calls c
  requestDigest := digestOf calls requestDigest c
  ttlSeconds := (calls c).client.reservationTtl

/-- The arguments of its `mark_executed`. -/
def completionOf (c : ι) : Completion where
  responseId := holderOf calls c
  statusCode := 200
  requestDigest := digestOf calls requestDigest c
  ttlSeconds := (calls c).client.resultTtl

def start (now : ℕ) (record : Option IdempotencyRow) : LeaseRun ι :=
  ⟨now, record, fun _ => .before, none, []⟩

variable (s : LeaseRun ι)

def setPhase (c : ι) (phase : LeasePhase) : LeaseRun ι :=
  { s with phase := Function.update s.phase c phase }

/-- `reserve` returned `True`. -/
def grant (c : ι) (row : IdempotencyRow) : LeaseRun ι :=
  { s.setPhase c .executing with record := some row, executor := some c }

/-- `_acquire` on what `lookup` returned. -/
def judge (c : ι) (waited : ℚ) (found : Option IdempotencyRow) : LeasePhase :=
  match found with
  | some row =>
    if row.requestDigest ≠ "" ∧ digestOf calls requestDigest c ≠ ""
        ∧ row.requestDigest ≠ digestOf calls requestDigest c then .ended (.conflict row.responseId)
    else if row.state = .done then .ended (.duplicate row.responseId)
    else if (calls c).client.waitSeconds ≤ waited then .ended .waitTimeout
    else .sleeping waited
  | none =>
    if (calls c).client.waitSeconds ≤ waited then .ended .waitTimeout else .sleeping waited

/-- The next step of an invocation. -/
def advance (c : ι) (persisted : ApprovalState) (result : RemoteResult) : LeaseRun ι :=
  match s.phase c with
  | .before =>
    match (calls c).call.gate str persisted with
    | some refusal => s.setPhase c (.ended (.refused refusal))
    | none =>
      if (calls c).call.idempotencyKey = "" then s.setPhase c .executing
      else s.setPhase c (.reserving s.now 0)
  | .reserving ts waited =>
    match insertReservation (reservationOf calls requestDigest c) ts s.record with
    | some row => s.grant c row
    | none => s.setPhase c (.reclaiming ts waited)
  | .reclaiming ts waited =>
    match reclaim (reservationOf calls requestDigest c) ts s.record with
    | some row => s.grant c row
    | none => s.setPhase c (.looking waited)
  | .looking waited => s.setPhase c (.judging waited s.record)
  | .judging waited row =>
    s.setPhase c (judge calls requestDigest c waited (lookup s.now row))
  | .sleeping waited => s.setPhase c (.reserving s.now (waited + (calls c).client.turn))
  | .executing => { s.setPhase c .calling with invoked := s.invoked ++ [c] }
  | .calling =>
    match result with
    | .completed =>
      if (calls c).call.idempotencyKey = "" then s.setPhase c (.ended (.executed .completed))
      else s.setPhase c (.flipping s.now)
    | failure => s.setPhase c (.ended (.executed failure))
  | .flipping ts =>
    match flip (completionOf calls requestDigest c) ts s.record with
    | some row => { s.setPhase c (.ended (.executed .completed)) with record := some row }
    | none => s.setPhase c .writing
  | .writing => s.setPhase c (.replacing s.now)
  | .replacing ts =>
    { s.setPhase c (.ended (.executed .completed)) with
      record := some ((completionOf calls requestDigest c).row ts) }
  | .ended _ => s

/-- One step. -/
def step (s : LeaseRun ι) : LeaseStep ι → LeaseRun ι
  | .tick seconds => { s with now := s.now + seconds }
  | .advance c persisted result => s.advance calls str requestDigest c persisted result

/-! ## The invariant -/

/-- `response_id` and `request_digest` of the record. -/
def name : Option (String × String) := s.record.map fun row => (row.responseId, row.requestDigest)

/-- The key is taken for good: an invocation reserved it, or its record was live at the start. -/
def Taken (t₀ : ℕ) (first : Option IdempotencyRow) : Prop :=
  s.executor ≠ none ∨ ∃ row, first = some row ∧ row.Live t₀

/-- The record was not flipped. -/
def InFlight : Prop := ∃ row, s.record = some row ∧ row.state = .inFlight

/-- What is known of an invocation in a phase, for a run that begins at `t₀` with the record
`first` and ends at `T`. -/
def Fits (t₀ T : ℕ) (first : Option IdempotencyRow) (c : ι) : LeasePhase → Prop
  | .before | .sleeping _ | .ended (.refused _) => True
  | .reserving ts _ => t₀ ≤ ts ∧ ts ≤ s.now
  | .reclaiming ts _ => t₀ ≤ ts ∧ ts ≤ s.now ∧ s.record ≠ none
  | .looking _ => s.Taken t₀ first
  | .judging _ found =>
    s.Taken t₀ first
      ∧ ∃ row, found = some row ∧ row.Live T ∧ s.name = some (row.responseId, row.requestDigest)
  | .executing => s.executor = some c ∧ s.invoked = [] ∧ s.InFlight
  | .calling => s.executor = some c ∧ s.invoked = [c] ∧ s.InFlight
  | .flipping ts => s.executor = some c ∧ s.invoked = [c] ∧ s.InFlight ∧ t₀ ≤ ts
  | .writing | .replacing _ => False
  | .ended (.conflict holder) =>
    s.Taken t₀ first
      ∧ ∃ digest, s.name = some (holder, digest) ∧ digestOf calls requestDigest c ≠ digest
  | .ended (.duplicate holder) =>
    s.Taken t₀ first ∧ s.name = some (holder, digestOf calls requestDigest c)
  | .ended .waitTimeout =>
    s.Taken t₀ first ∧ ∃ holder, s.name = some (holder, digestOf calls requestDigest c)
  | .ended (.executed _) => s.executor = some c ∧ s.invoked = [c]

/-- The phases of the one that has the lease. -/
def Executing : LeasePhase → Prop
  | .executing | .calling | .flipping _ | .ended (.executed _) => True
  | _ => False

/-- A record of the run that has not expired by its end, or the one of the start, when it had
expired before. -/
def Fresh (t₀ T : ℕ) (first record : Option IdempotencyRow) : Prop :=
  ∀ row, record = some row → row.Live T ∨ (record = first ∧ ¬ row.Live t₀)

/-- The invariant. -/
structure LeaseInv (t₀ T : ℕ) (first : Option IdempotencyRow) (s : LeaseRun ι) : Prop where
  clock : t₀ ≤ s.now ∧ s.now ≤ T
  fresh : Fresh t₀ T first s.record
  fits : ∀ c, s.Fits calls requestDigest t₀ T first c (s.phase c)
  unowned : s.executor = none → s.record = first ∧ s.invoked = []
  owned : ∀ e, s.executor = some e → Executing (s.phase e)
    ∧ ∃ row, s.record = some row ∧ row.responseId = holderOf calls e
      ∧ row.requestDigest = digestOf calls requestDigest e ∧ row.Live T

variable {calls str requestDigest s} {t₀ T : ℕ} {first : Option IdempotencyRow} {c : ι}
  {row : IdempotencyRow} {waited : ℚ} {found : Option IdempotencyRow}

theorem live_mono {row : IdempotencyRow} {now later : ℕ} (live : row.Live later)
    (le : now ≤ later) : row.Live now := by
  unfold IdempotencyRow.Live at *
  omega

theorem live_expiresAt {row : IdempotencyRow} {ts : ℕ} {ttl : ℤ}
    (written : row.expiresAt = expiresAt ts ttl) (le : t₀ ≤ ts) : row.Live t₀ := by
  unfold IdempotencyRow.Live
  rw [written]
  unfold expiresAt
  split <;> omega

theorem Fresh.live (fresh : Fresh t₀ T first (some row)) (early : row.Live t₀) : row.Live T :=
  (fresh row rfl).resolve_right fun late => late.2 early

theorem LeaseInv.taken_live (inv : s.LeaseInv calls requestDigest t₀ T first)
    (digested : ∀ row, first = some row → row.Live t₀ → row.requestDigest ≠ "")
    (taken : s.Taken t₀ first) :
    ∃ row, s.record = some row ∧ row.Live T ∧ row.requestDigest ≠ "" := by
  rcases executor : s.executor with _ | e
  · obtain ⟨row, found, live⟩ : ∃ row, first = some row ∧ row.Live t₀ := by
      simpa [Taken, executor] using taken
    have same := (inv.unowned executor).1.trans found
    exact ⟨row, same, (same ▸ inv.fresh).live live, digested row found live⟩
  · obtain ⟨-, row, found, -, digest, live⟩ := inv.owned e executor
    exact ⟨row, found, live, digest ▸ (requestDigest _ _ _).2⟩

theorem LeaseInv.reserve_eq_none (inv : s.LeaseInv calls requestDigest t₀ T first)
    (digested : ∀ row, first = some row → row.Live t₀ → row.requestDigest ≠ "")
    (taken : s.Taken t₀ first) (r : Reservation) {ts : ℕ} (past : ts ≤ s.now) :
    insertReservation r ts s.record = none ∧ reclaim r ts s.record = none := by
  obtain ⟨row, found, live, -⟩ := inv.taken_live digested taken
  refine ⟨by rw [found]; rfl, ?_⟩
  have unexpired : ¬ (0 < row.expiresAt ∧ row.expiresAt ≤ ts) := by
    have := inv.clock.2
    unfold IdempotencyRow.Live at live
    omega
  simp [reclaim, found, unexpired]

/-- A row that is there and cannot be taken over keeps the key taken: had it been expired at the
start, it would have been taken over. -/
theorem LeaseInv.taken_of_reclaim (inv : s.LeaseInv calls requestDigest t₀ T first) {ts : ℕ}
    {r : Reservation} (clock : t₀ ≤ ts ∧ ts ≤ s.now ∧ s.record ≠ none)
    (refused : reclaim r ts s.record = none) : s.Taken t₀ first := by
  by_cases owned : s.executor = none
  · obtain ⟨row, found⟩ := Option.ne_none_iff_exists'.mp clock.2.2
    refine .inr ⟨row, (inv.unowned owned).1.symm.trans found, ?_⟩
    by_contra expired
    have past : 0 < row.expiresAt ∧ row.expiresAt ≤ ts := by
      have := clock.1
      unfold IdempotencyRow.Live at expired
      omega
    simp [reclaim, found, past] at refused
  · exact .inl owned

/-! ## What a step keeps -/

theorem executor_of_executing (inv : s.LeaseInv calls requestDigest t₀ T first)
    (executing : Executing (s.phase c)) : s.executor = some c := by
  have fits := inv.fits c
  cases phase : s.phase c with
  | ended outcome =>
      rw [phase] at fits executing
      cases outcome with
      | executed result => exact fits.1
      | _ => exact executing.elim
  | _ =>
      rw [phase] at fits executing
      first
      | exact fits.1
      | exact executing.elim

theorem Fits.congr {s' : LeaseRun ι} {phase : LeasePhase}
    (fits : s.Fits calls requestDigest t₀ T first c phase) (other : ¬ Executing phase)
    (now : s.now ≤ s'.now) (record : s.record ≠ none → s'.record ≠ none)
    (taken : s.Taken t₀ first → s'.Taken t₀ first)
    (name : s.Taken t₀ first → s'.name = s.name) :
    s'.Fits calls requestDigest t₀ T first c phase := by
  cases phase with
  | reserving ts waited => exact ⟨fits.1, fits.2.trans now⟩
  | reclaiming ts waited => exact ⟨fits.1, fits.2.1.trans now, record fits.2.2⟩
  | looking waited => exact taken fits
  | judging waited found =>
      obtain ⟨key, rest⟩ := fits
      exact ⟨taken key, (name key).symm ▸ rest⟩
  | ended outcome =>
      cases outcome with
      | refused refusal => trivial
      | executed result => exact absurd trivial other
      | _ =>
          obtain ⟨key, rest⟩ := fits
          exact ⟨taken key, (name key).symm ▸ rest⟩
  | before => trivial
  | sleeping waited => trivial
  | writing => exact fits
  | replacing ts => exact fits
  | _ => exact absurd trivial other

theorem fits_setPhase (phase : LeasePhase) (d : ι) (phase' : LeasePhase) :
    (s.setPhase c phase).Fits calls requestDigest t₀ T first d phase'
      ↔ s.Fits calls requestDigest t₀ T first d phase' := by
  cases phase' with
  | ended outcome => cases outcome <;> exact Iff.rfl
  | _ => exact Iff.rfl

theorem fits_tick {phase : LeasePhase} (fits : s.Fits calls requestDigest t₀ T first c phase)
    (seconds : ℕ) :
    ({ s with now := s.now + seconds } : LeaseRun ι).Fits calls requestDigest t₀ T first c
      phase := by
  cases phase with
  | reserving ts waited => exact ⟨fits.1, fits.2.trans (Nat.le_add_right ..)⟩
  | reclaiming ts waited => exact ⟨fits.1, fits.2.1.trans (Nat.le_add_right ..), fits.2.2⟩
  | ended outcome => cases outcome <;> exact fits
  | _ => exact fits

theorem LeaseInv.setPhase (inv : s.LeaseInv calls requestDigest t₀ T first) {phase : LeasePhase}
    (fits : s.Fits calls requestDigest t₀ T first c phase)
    (lease : Executing (s.phase c) → Executing phase) :
    (s.setPhase c phase).LeaseInv calls requestDigest t₀ T first := by
  refine ⟨inv.clock, inv.fresh, ?_, inv.unowned, ?_⟩
  · intro d
    by_cases same : d = c
    · subst same
      have here : (s.setPhase d phase).phase d = phase := Function.update_self ..
      rw [here, fits_setPhase]
      exact fits
    · have there : (s.setPhase c phase).phase d = s.phase d := Function.update_of_ne same ..
      rw [there, fits_setPhase]
      exact inv.fits d
  · intro e executor
    obtain ⟨executing, held⟩ := inv.owned e executor
    refine ⟨?_, held⟩
    by_cases same : e = c
    · subst same
      simpa [LeaseRun.setPhase] using lease executing
    · simpa [LeaseRun.setPhase, Function.update_of_ne same] using executing

theorem LeaseInv.grant (inv : s.LeaseInv calls requestDigest t₀ T first)
    (vacant : ¬ s.Taken t₀ first) {ts : ℕ} (late : t₀ ≤ ts)
    (fresh : Fresh t₀ T first (some ((reservationOf calls requestDigest c).row ts))) :
    (s.grant c ((reservationOf calls requestDigest c).row ts)).LeaseInv calls requestDigest
      t₀ T first := by
  have nobody : s.executor = none := by
    by_contra some
    exact vacant (.inl some)
  refine ⟨inv.clock, fresh, ?_, ?_, ?_⟩
  · intro d
    by_cases same : d = c
    · subst same
      have phase : (s.grant d ((reservationOf calls requestDigest d).row ts)).phase d
          = .executing := Function.update_self ..
      rw [phase]
      exact ⟨rfl, (inv.unowned nobody).2, _, rfl, rfl⟩
    · have phase : (s.grant c ((reservationOf calls requestDigest c).row ts)).phase d
          = s.phase d := Function.update_of_ne same ..
      rw [phase]
      apply (inv.fits d).congr
      · intro executing
        rw [executor_of_executing inv executing] at nobody
        cases nobody
      · exact le_rfl
      · exact fun _ => Option.some_ne_none _
      · exact fun taken => absurd taken vacant
      · exact fun taken => absurd taken vacant
  · intro none
    cases none
  · rintro e ⟨⟩
    refine ⟨?_, _, rfl, rfl, rfl, fresh.live (live_expiresAt rfl late)⟩
    simp [LeaseRun.grant, LeaseRun.setPhase, Executing]

theorem LeaseInv.invoke (inv : s.LeaseInv calls requestDigest t₀ T first)
    (phase : s.phase c = .executing) :
    ({ s.setPhase c .calling with invoked := s.invoked ++ [c] } : LeaseRun ι).LeaseInv calls
      requestDigest t₀ T first := by
  have fits := inv.fits c
  rw [phase] at fits
  obtain ⟨executor, silent, inFlight⟩ := fits
  refine ⟨inv.clock, inv.fresh, ?_, ?_, ?_⟩
  · intro d
    by_cases same : d = c
    · subst same
      simpa [LeaseRun.setPhase, Fits, silent] using ⟨executor, inFlight⟩
    · have phase' : (s.setPhase c .calling).phase d = s.phase d := Function.update_of_ne same ..
      simp only [phase']
      refine (inv.fits d).congr ?_ le_rfl id id fun _ => rfl
      intro executing
      have executor' := executor_of_executing inv executing
      exact same (Option.some.inj (executor'.symm.trans executor))
  · intro none
    exact absurd (executor.symm.trans none) (by simp)
  · intro e executor'
    obtain rfl : c = e := Option.some.inj (executor.symm.trans executor')
    refine ⟨?_, (inv.owned c executor').2⟩
    simp [LeaseRun.setPhase, Executing]

theorem LeaseInv.flip (inv : s.LeaseInv calls requestDigest t₀ T first) {ts : ℕ}
    (phase : s.phase c = .flipping ts) (done : IdempotencyRow)
    (flipped : flip (completionOf calls requestDigest c) ts s.record = some done)
    (fresh : Fresh t₀ T first (some done)) :
    ({ s.setPhase c (.ended (.executed .completed)) with record := some done } :
      LeaseRun ι).LeaseInv calls requestDigest t₀ T first := by
  have fits := inv.fits c
  rw [phase] at fits
  obtain ⟨executor, called, -, late⟩ := fits
  obtain ⟨-, row, found, response, digest, -⟩ := inv.owned c executor
  have held : done.responseId = holderOf calls c
      ∧ done.requestDigest = digestOf calls requestDigest c
      ∧ done.expiresAt = expiresAt ts (calls c).client.resultTtl := by
    rw [found] at flipped
    simp only [Store.flip] at flipped
    split at flipped
    case isTrue _ =>
      obtain rfl := Option.some.inj flipped
      exact ⟨rfl, if_pos (requestDigest _ _ _).2, rfl⟩
    case isFalse _ => cases flipped
  obtain ⟨response', digest', written⟩ := held
  have name : some (done.responseId, done.requestDigest) = s.name := by
    simp [LeaseRun.name, found, response, digest, response', digest']
  refine ⟨inv.clock, fresh, ?_, ?_, ?_⟩
  · intro d
    by_cases same : d = c
    · subst same
      simpa [LeaseRun.setPhase, Fits] using ⟨executor, called⟩
    · have phase' : (s.setPhase c (.ended (.executed .completed))).phase d = s.phase d :=
        Function.update_of_ne same ..
      simp only [phase']
      refine (inv.fits d).congr ?_ le_rfl (fun _ => Option.some_ne_none _) id fun _ => name
      intro executing
      have executor' := executor_of_executing inv executing
      exact same (Option.some.inj (executor'.symm.trans executor))
  · intro none
    exact absurd (executor.symm.trans none) (by simp)
  · intro e executor'
    obtain rfl : c = e := Option.some.inj (executor.symm.trans executor')
    refine ⟨?_, done, rfl, response', digest', fresh.live (live_expiresAt written late)⟩
    simp [LeaseRun.setPhase, Executing]

/-- **What `_acquire` makes of a record that it read**: a conflict for another digest, the name of
the holder when it is done, or a wait. -/
theorem fits_judge (fits : s.Fits calls requestDigest t₀ T first c (.judging waited found))
    (digested : ∀ holder digest, s.Taken t₀ first → s.name = some (holder, digest) → digest ≠ "")
    (now : s.now ≤ T) :
    s.Fits calls requestDigest t₀ T first c
      (judge calls requestDigest c waited (lookup s.now found)) := by
  obtain ⟨taken, row, rfl, live, name⟩ := fits
  have seen : lookup s.now (some row) = some row := by
    simp [lookup, live_mono live now]
  have written : row.requestDigest ≠ "" := digested _ _ taken name
  have own : digestOf calls requestDigest c ≠ "" := (requestDigest _ _ _).2
  rw [seen]
  simp only [judge]
  by_cases differs : row.requestDigest = digestOf calls requestDigest c
  · rw [differs] at name
    rw [if_neg (by simp [differs])]
    split
    case isTrue finished => exact ⟨taken, name⟩
    case isFalse _ =>
      split
      case isTrue expired => exact ⟨taken, row.responseId, name⟩
      case isFalse _ => trivial
  · rw [if_pos ⟨written, own, differs⟩]
    exact ⟨taken, _, name, fun same => differs same.symm⟩

/-- **Every step of an invocation keeps the invariant**, as long as no record expires. -/
theorem leaseInv_advance (key : (calls c).call.idempotencyKey ≠ "")
    (digested : ∀ row, first = some row → row.Live t₀ → row.requestDigest ≠ "")
    (inv : s.LeaseInv calls requestDigest t₀ T first) (persisted : ApprovalState)
    (result : RemoteResult)
    (fresh : Fresh t₀ T first (s.advance calls str requestDigest c persisted result).record) :
    (s.advance calls str requestDigest c persisted result).LeaseInv calls requestDigest
      t₀ T first := by
  have fits := inv.fits c
  revert fresh
  unfold advance
  split
  case h_1 phase =>
    intro fresh
    split
    case h_1 refusal _ => exact inv.setPhase trivial (by simp [phase, Executing])
    case h_2 _ =>
      rw [if_neg key]
      exact inv.setPhase ⟨inv.clock.1, le_rfl⟩ (by simp [phase, Executing])
  case h_2 ts waited phase =>
    rw [phase] at fits
    split
    case h_1 row inserted =>
      obtain ⟨-, rfl⟩ := IdempotencyRun.insertReservation_eq_some inserted
      intro fresh
      have vacant : ¬ s.Taken t₀ first := by
        intro taken
        rw [(inv.reserve_eq_none digested taken _ fits.2).1] at inserted
        cases inserted
      exact inv.grant vacant fits.1 fresh
    case h_2 refused =>
      intro fresh
      have present : s.record ≠ none := by
        intro absent
        rw [absent] at refused
        cases refused
      exact inv.setPhase ⟨fits.1, fits.2, present⟩ (by simp [phase, Executing])
  case h_3 ts waited phase =>
    rw [phase] at fits
    split
    case h_1 row reclaimed =>
      obtain ⟨rfl, -⟩ := IdempotencyRun.reclaim_eq_some reclaimed
      intro fresh
      have vacant : ¬ s.Taken t₀ first := by
        intro taken
        rw [(inv.reserve_eq_none digested taken _ fits.2.1).2] at reclaimed
        cases reclaimed
      exact inv.grant vacant fits.1 fresh
    case h_2 refused =>
      intro fresh
      exact inv.setPhase (inv.taken_of_reclaim fits refused) (by simp [phase, Executing])
  case h_4 waited phase =>
    rw [phase] at fits
    intro fresh
    obtain ⟨row, found, live, -⟩ := inv.taken_live digested fits
    exact inv.setPhase ⟨fits, row, found, live, by simp [LeaseRun.name, found]⟩
      (by simp [phase, Executing])
  case h_5 waited found phase =>
    rw [phase] at fits
    intro fresh
    apply inv.setPhase
    · apply fits_judge fits ?_ inv.clock.2
      intro holder digest taken name
      obtain ⟨row, found, -, written⟩ := inv.taken_live digested taken
      simp only [LeaseRun.name, found, Option.map_some, Option.some.injEq, Prod.mk.injEq] at name
      exact name.2 ▸ written
    · simp [phase, Executing]
  case h_6 waited phase =>
    intro fresh
    exact inv.setPhase ⟨inv.clock.1, le_rfl⟩ (by simp [phase, Executing])
  case h_7 phase =>
    intro fresh
    exact inv.invoke phase
  case h_8 phase =>
    rw [phase] at fits
    obtain ⟨executor, called, inFlight⟩ := fits
    split
    case h_1 =>
      rw [if_neg key]
      intro fresh
      exact inv.setPhase ⟨executor, called, inFlight, inv.clock.1⟩ (fun _ => trivial)
    case h_2 failure _ =>
      intro fresh
      exact inv.setPhase ⟨executor, called⟩ (fun _ => trivial)
  case h_9 ts phase =>
    rw [phase] at fits
    split
    case h_1 row flipped =>
      intro fresh
      exact inv.flip phase row flipped fresh
    case h_2 missed =>
      obtain ⟨-, -, ⟨row, found, inFlight⟩, -⟩ := fits
      have finished := IdempotencyRun.flip_eq_none.mp missed row found
      rw [inFlight] at finished
      cases finished
  case h_10 phase =>
    rw [phase] at fits
    exact fits.elim
  case h_11 ts phase =>
    rw [phase] at fits
    exact fits.elim
  case h_12 outcome phase =>
    exact fun _ => inv

/-! ## How long an invocation takes -/

/-- The turns of the wait that are left, of an invocation that has waited. -/
def turnsLeft (client : McpClient) (waited : ℚ) : ℕ :=
  ⌈(client.waitSeconds - waited) / client.turn⌉₊

/-- The steps an invocation has left at most. -/
def stepsLeft (client : McpClient) : LeasePhase → ℕ
  | .before => 6 * turnsLeft client 0 + 11
  | .reserving _ waited => 6 * turnsLeft client waited + 10
  | .reclaiming _ waited => 6 * turnsLeft client waited + 9
  | .looking waited => 6 * turnsLeft client waited + 8
  | .judging waited _ => 6 * turnsLeft client waited + 7
  | .sleeping waited => 6 * turnsLeft client waited + 6
  | .executing => 5
  | .calling => 4
  | .flipping _ => 3
  | .writing => 2
  | .replacing _ => 1
  | .ended _ => 0

/-- What is known of the time an invocation has waited. -/
def Patient (client : McpClient) : LeasePhase → Prop
  | .reserving _ waited | .reclaiming _ waited | .looking waited | .judging waited _ => 0 ≤ waited
  | .sleeping waited => 0 ≤ waited ∧ waited < client.waitSeconds
  | _ => True

theorem turnsLeft_turn {client : McpClient} (early : waited < client.waitSeconds)
    (nonneg : 0 ≤ waited) :
    turnsLeft client (waited + client.turn) + 1 ≤ turnsLeft client waited ∧ 0 < client.turn := by
  have positive : 0 < client.turn := by
    unfold McpClient.turn
    split
    case isTrue _ => exact nonneg.trans_lt early
    case isFalse some => exact lt_of_le_of_ne client.poll_nonneg (Ne.symm some)
  refine ⟨?_, positive⟩
  unfold turnsLeft
  have one : (client.waitSeconds - (waited + client.turn)) / client.turn
      = (client.waitSeconds - waited) / client.turn - 1 := by
    field_simp
    ring
  have left : 0 < ⌈(client.waitSeconds - waited) / client.turn⌉₊ :=
    Nat.ceil_pos.mpr (div_pos (sub_pos.mpr early) positive)
  have fewer : ⌈(client.waitSeconds - waited) / client.turn - 1⌉₊
      ≤ ⌈(client.waitSeconds - waited) / client.turn⌉₊ - 1 := by
    rw [Nat.ceil_le, Nat.cast_sub left, Nat.cast_one]
    exact sub_le_sub_right (Nat.le_ceil _) 1
  rw [one]
  omega

variable (str requestDigest) in
theorem stepsLeft_advance (patient : Patient (calls c).client (s.phase c))
    (persisted : ApprovalState) (result : RemoteResult)
    (under : ∀ outcome, s.phase c ≠ .ended outcome) :
    stepsLeft (calls c).client ((s.advance calls str requestDigest c persisted result).phase c)
        < stepsLeft (calls c).client (s.phase c)
      ∧ Patient (calls c).client
        ((s.advance calls str requestDigest c persisted result).phase c) := by
  unfold advance
  split
  case h_1 phase =>
    split
    case h_1 _ _ => simp [LeaseRun.setPhase, stepsLeft, Patient, phase]
    case h_2 _ => split <;> simp [LeaseRun.setPhase, stepsLeft, Patient, phase]
  case h_2 ts waited phase =>
    rw [phase] at patient
    split
    case h_1 row _ => simp [LeaseRun.grant, LeaseRun.setPhase, stepsLeft, Patient, phase]
    case h_2 _ => simpa [LeaseRun.setPhase, stepsLeft, Patient, phase] using patient
  case h_3 ts waited phase =>
    rw [phase] at patient
    split
    case h_1 row _ => simp [LeaseRun.grant, LeaseRun.setPhase, stepsLeft, Patient, phase]
    case h_2 _ => simpa [LeaseRun.setPhase, stepsLeft, Patient, phase] using patient
  case h_4 waited phase =>
    rw [phase] at patient
    simpa [LeaseRun.setPhase, stepsLeft, Patient, phase] using patient
  case h_5 waited found phase =>
    rw [phase] at patient
    have moved : (s.setPhase c (judge calls requestDigest c waited (lookup s.now found))).phase c
        = judge calls requestDigest c waited (lookup s.now found) := Function.update_self ..
    rw [moved, phase]
    unfold judge
    split
    case h_1 row _ =>
      split_ifs with differs finished expired
      · simp [stepsLeft, Patient]
      · simp [stepsLeft, Patient]
      · simp [stepsLeft, Patient]
      · exact ⟨by simp [stepsLeft], patient, not_le.mp expired⟩
    case h_2 _ =>
      split_ifs with expired
      · simp [stepsLeft, Patient]
      · exact ⟨by simp [stepsLeft], patient, not_le.mp expired⟩
  case h_6 waited phase =>
    rw [phase] at patient
    obtain ⟨fewer, positive⟩ := turnsLeft_turn patient.2 patient.1
    simp only [LeaseRun.setPhase, Function.update_self, stepsLeft, Patient, phase]
    exact ⟨by omega, add_nonneg patient.1 positive.le⟩
  case h_7 phase => simp [LeaseRun.setPhase, stepsLeft, Patient, phase]
  case h_8 phase =>
    split
    case h_1 => split <;> simp [LeaseRun.setPhase, stepsLeft, Patient, phase]
    case h_2 => simp [LeaseRun.setPhase, stepsLeft, Patient, phase]
  case h_9 ts phase => split <;> simp [LeaseRun.setPhase, stepsLeft, Patient, phase]
  case h_10 phase => simp [LeaseRun.setPhase, stepsLeft, Patient, phase]
  case h_11 ts phase => simp [LeaseRun.setPhase, stepsLeft, Patient, phase]
  case h_12 outcome phase => exact absurd phase (under outcome)

/-- The step is one of the invocation. -/
def Own (c : ι) : LeaseStep ι → Bool
  | .tick _ => false
  | .advance d _ _ => d = c

variable (calls str requestDigest s) in
theorem phase_step_of_not_own {a : LeaseStep ι} (other : Own c a = false) :
    (s.step calls str requestDigest a).phase c = s.phase c := by
  cases a with
  | tick seconds => rfl
  | advance d persisted result =>
      have ne : c ≠ d := fun same => by simp [Own, same] at other
      simp only [step, advance]
      repeat' split
      all_goals simp [LeaseRun.setPhase, LeaseRun.grant, Function.update_of_ne ne]

theorem ended_of_steps (sched : List (LeaseStep ι))
    (patient : Patient (calls c).client (s.phase c))
    (enough : stepsLeft (calls c).client (s.phase c) ≤ sched.countP (Own c)) :
    ∃ outcome, (runSchedule (step calls str requestDigest) s sched).phase c = .ended outcome := by
  induction sched generalizing s with
  | nil =>
      cases phase : s.phase c with
      | ended outcome => exact ⟨outcome, phase⟩
      | _ => simp [phase, stepsLeft] at enough
  | cons a sched ih =>
      rw [List.countP_cons] at enough
      by_cases own : Own c a = true
      · cases a with
        | tick seconds => cases own
        | advance d persisted result =>
            obtain rfl : d = c := by simpa [Own] using own
            by_cases under : ∀ outcome, s.phase d ≠ .ended outcome
            · obtain ⟨nearer, patient'⟩ :=
                stepsLeft_advance str requestDigest patient persisted result under
              apply ih patient'
              simp only [own, if_true] at enough
              exact Nat.le_of_lt_succ (nearer.trans_le enough)
            · push Not at under
              obtain ⟨outcome, phase⟩ := under
              have kept : (s.step calls str requestDigest (.advance d persisted result)) = s := by
                simp [step, advance, phase]
              rw [runSchedule_cons, kept]
              apply ih patient
              simp [phase, stepsLeft]
      · have other : Own c a = false := by simpa using own
        have kept := phase_step_of_not_own calls str requestDigest s other
        apply ih
        · exact kept.symm ▸ patient
        · rw [kept]
          simpa [other] using enough

/-! ## Invocations that are turned away -/

variable (calls str) in
/-- One that was turned away was so by a gate. -/
def RefusedByGate (c : ι) : LeasePhase → Prop
  | .ended (.refused refusal) => ∃ persisted, (calls c).call.gate str persisted = some refusal
  | _ => True

/-! ## Runs -/

/-- **No record of the key expires during the run**: each that there is at some point is live at
the end, but for the one of the start, when it had expired before. -/
def NoRecordExpires (calls : ι → Invocation) (str : Json → String)
    (requestDigest : String → String → Fields → { digest : String // digest ≠ "" })
    (s : LeaseRun ι) (sched : List (LeaseStep ι)) : Prop :=
  ∀ pre post, sched = pre ++ post →
    Fresh s.now (runSchedule (step calls str requestDigest) s sched).now s.record
      (runSchedule (step calls str requestDigest) s pre).record

theorem now_le_step (a : LeaseStep ι) : s.now ≤ (s.step calls str requestDigest a).now := by
  cases a with
  | tick seconds => exact Nat.le_add_right ..
  | advance c persisted result =>
      simp only [step, advance]
      repeat' split
      all_goals exact le_rfl

theorem now_le_run (sched : List (LeaseStep ι)) :
    s.now ≤ (runSchedule (step calls str requestDigest) s sched).now := by
  induction sched generalizing s with
  | nil => exact le_rfl
  | cons a sched ih => exact (now_le_step a).trans ih

theorem leaseInv_run (key : ∀ c, (calls c).call.idempotencyKey ≠ "")
    (digested : ∀ row, first = some row → row.Live t₀ → row.requestDigest ≠ "")
    (sched : List (LeaseStep ι))
    (steady : NoRecordExpires calls str requestDigest (start t₀ first) sched) :
    (runSchedule (step calls str requestDigest) (start t₀ first) sched).LeaseInv calls
      requestDigest t₀ (runSchedule (step calls str requestDigest) (start t₀ first) sched).now
      first := by
  set T := (runSchedule (step calls str requestDigest) (start t₀ first) sched).now with ends
  apply runSchedule_of_along (P := fun s a =>
    Fresh t₀ T first (s.step calls str requestDigest a).record
      ∧ (s.step calls str requestDigest a).now ≤ T) (LeaseInv calls requestDigest t₀ T first)
  · rintro s a inv ⟨fresh, now⟩
    cases a with
    | tick seconds =>
        exact ⟨⟨inv.clock.1.trans (Nat.le_add_right ..), now⟩, inv.fresh,
          fun c => fits_tick (inv.fits c) seconds, inv.unowned, inv.owned⟩
    | advance c persisted result =>
        exact leaseInv_advance (key c) digested inv persisted result fresh
  · refine ⟨⟨le_rfl, now_le_run _⟩, ?_, fun _ => trivial, fun _ => ⟨rfl, rfl⟩, by simp [start]⟩
    exact steady [] sched rfl
  · rw [along_iff_split]
    rintro pre a post split
    have next : (runSchedule (step calls str requestDigest) (start t₀ first) (pre ++ [a]))
        = (runSchedule (step calls str requestDigest) (start t₀ first) pre).step calls str
          requestDigest a := runSchedule_append ..
    rw [← next]
    refine ⟨steady (pre ++ [a]) post (by simp [split]), ?_⟩
    have whole : sched = (pre ++ [a]) ++ post := by simp [split]
    rw [ends, whole, runSchedule_append _ _ (pre ++ [a])]
    exact now_le_run post

/-- How an invocation that got past the gates ends, by the name and the digest in the record. -/
def Settled (calls : ι → Invocation)
    (requestDigest : String → String → Fields → { digest : String // digest ≠ "" })
    (s : LeaseRun ι) (c : ι) (outcome : CallOutcome) : Prop :=
  ∃ holder digest, s.name = some (holder, digest)
    ∧ (∀ e, s.executor = some e →
        holder = holderOf calls e ∧ digest = digestOf calls requestDigest e)
    ∧ (digestOf calls requestDigest c ≠ digest → outcome = .conflict holder)
    ∧ (digestOf calls requestDigest c = digest →
        outcome = .duplicate holder ∨ outcome = .waitTimeout
          ∨ s.executor = some c ∧ s.invoked = [c] ∧ ∃ result, outcome = .executed result)

theorem LeaseInv.invoked_length (inv : s.LeaseInv calls requestDigest t₀ T first) :
    s.invoked.length ≤ 1 := by
  cases executor : s.executor with
  | none => simp [(inv.unowned executor).2]
  | some e =>
      have executing := (inv.owned e executor).1
      have fits := inv.fits e
      cases phase : s.phase e with
      | executing =>
          rw [phase] at fits
          simp [fits.2.1]
      | calling =>
          rw [phase] at fits
          simp [fits.2.1]
      | flipping ts =>
          rw [phase] at fits
          simp [fits.2.1]
      | ended outcome =>
          rw [phase] at fits executing
          cases outcome with
          | executed result => simp [fits.2]
          | _ => exact executing.elim
      | _ =>
          rw [phase] at executing
          exact executing.elim

theorem LeaseInv.named (inv : s.LeaseInv calls requestDigest t₀ T first) {holder digest : String}
    (name : s.name = some (holder, digest)) :
    ∀ e, s.executor = some e →
      holder = holderOf calls e ∧ digest = digestOf calls requestDigest e := by
  intro e executor
  obtain ⟨-, row, found, response, same, -⟩ := inv.owned e executor
  simp only [LeaseRun.name, found, Option.map_some, Option.some.injEq, Prod.mk.injEq] at name
  exact ⟨name.1.symm.trans response, name.2.symm.trans same⟩

theorem LeaseInv.settled (inv : s.LeaseInv calls requestDigest t₀ T first) {outcome : CallOutcome}
    (phase : s.phase c = .ended outcome) (passed : ∀ refusal, outcome ≠ .refused refusal) :
    Settled calls requestDigest s c outcome := by
  have fits := inv.fits c
  rw [phase] at fits
  cases outcome with
  | refused refusal => exact absurd rfl (passed refusal)
  | conflict holder =>
      obtain ⟨-, digest, name, differs⟩ := fits
      exact ⟨holder, digest, name, inv.named name, fun _ => rfl, fun same => absurd same differs⟩
  | duplicate holder =>
      exact ⟨holder, _, fits.2, inv.named fits.2, fun differs => absurd rfl differs,
        fun _ => .inl rfl⟩
  | waitTimeout =>
      obtain ⟨-, holder, name⟩ := fits
      exact ⟨holder, _, name, inv.named name, fun differs => absurd rfl differs,
        fun _ => .inr (.inl rfl)⟩
  | executed result =>
      obtain ⟨executor, invoked⟩ := fits
      obtain ⟨-, row, found, response, digest, -⟩ := inv.owned c executor
      have name : s.name = some (holderOf calls c, digestOf calls requestDigest c) := by
        simp [LeaseRun.name, found, response, digest]
      exact ⟨_, _, name, inv.named name, fun differs => absurd rfl differs,
        fun _ => .inr (.inr ⟨executor, invoked, result, rfl⟩)⟩

theorem refusedByGate_step (a : LeaseStep ι)
    (refused : ∀ c, RefusedByGate calls str c (s.phase c)) (c : ι) :
    RefusedByGate calls str c ((s.step calls str requestDigest a).phase c) := by
  cases own : Own c a with
  | false =>
      rw [phase_step_of_not_own calls str requestDigest s own]
      exact refused c
  | true =>
      cases a with
      | tick seconds => cases own
      | advance d persisted result =>
          obtain rfl : d = c := by simpa [Own] using own
          simp only [step, advance]
          split
          case h_1 phase =>
            split
            case h_1 refusal gate =>
              simpa [LeaseRun.setPhase] using ⟨persisted, gate⟩
            case h_2 _ => split <;> simp [LeaseRun.setPhase, RefusedByGate]
          case h_5 waited found phase =>
            simp only [LeaseRun.setPhase, Function.update_self, judge]
            repeat' split
            all_goals trivial
          case h_12 outcome phase => exact refused d
          all_goals
            repeat' split
            all_goals simp [LeaseRun.setPhase, LeaseRun.grant, RefusedByGate]

end LeaseRun

open LeaseRun

/-- **One execution for one key.**  In every run in which no record of the key expires: the remote
tool is called at most once; an invocation that a gate did not turn away ends in conflict if its
digest is not the holder's, and otherwise as the one executor, as a duplicate that names the
holder, or with a wait timeout; and every invocation comes to its end after a number of its own
steps. -/
theorem call_tool_lease {ι : Type u} [DecidableEq ι] (calls : ι → Invocation)
    (str : Json → String)
    (requestDigest : String → String → Fields → { digest : String // digest ≠ "" })
    (key : ∀ c, (calls c).call.idempotencyKey ≠ "") (t₀ : ℕ) (first : Option IdempotencyRow)
    (digested : ∀ row, first = some row → row.Live t₀ → row.requestDigest ≠ "")
    (sched : List (LeaseStep ι))
    (steady : NoRecordExpires calls str requestDigest (start t₀ first) sched) :
    (runSchedule (step calls str requestDigest) (start t₀ first) sched).invoked.length ≤ 1
      ∧ (∀ c outcome,
          (runSchedule (step calls str requestDigest) (start t₀ first) sched).phase c
              = .ended outcome →
            (∃ refusal persisted, outcome = .refused refusal
              ∧ (calls c).call.gate str persisted = some refusal)
            ∨ LeaseRun.Settled calls requestDigest
                (runSchedule (step calls str requestDigest) (start t₀ first) sched) c outcome)
      ∧ ∀ c, stepsLeft (calls c).client .before ≤ sched.countP (Own c) →
          ∃ outcome, (runSchedule (step calls str requestDigest) (start t₀ first) sched).phase c
            = .ended outcome := by
  have inv := leaseInv_run key digested sched steady
  have fresh : ∀ c, RefusedByGate calls str c ((start t₀ first).phase c) := fun _ => trivial
  have gates : ∀ c, RefusedByGate calls str c
      ((runSchedule (step calls str requestDigest) (start t₀ first) sched).phase c) :=
    runSchedule_invariant (fun s : LeaseRun ι => ∀ c, RefusedByGate calls str c (s.phase c))
      (fun s a refused => refusedByGate_step a refused) fresh sched
  refine ⟨inv.invoked_length, ?_, ?_⟩
  · intro c outcome phase
    have gate := gates c
    rw [phase] at gate
    cases outcome with
    | refused refusal =>
        obtain ⟨persisted, gate⟩ := gate
        exact .inl ⟨refusal, persisted, rfl, gate⟩
    | _ => exact .inr (inv.settled phase (by simp))
  · intro c enough
    exact ended_of_steps sched trivial enough

/-- Two calls with one key; the tool of the second is not on the list. -/
def listedAndNot (c : Bool) : Invocation where
  client := ⟨5, 1 / 20, by norm_num, 300, 86400⟩
  call :=
    { config := ⟨"files", .str "never", ["write_file"]⟩
      responseId := if c then "resp_1" else "resp_2"
      toolSeq := 0
      name := if c then "write_file" else "delete_file"
      arguments := []
      workspaceId := "ws"
      idempotencyKey := "key"
      approved := none }

/-- The SHA-256 digests of these two calls. -/
def listedDigest (_ name : String) (_ : Fields) : { digest : String // digest ≠ "" } :=
  if name = "write_file" then
    ⟨"762f6895e56b12282befc1a554f04d53f0f49b70026a00be2b5ca7340bb95097", by decide⟩
  else ⟨"216cd335f03839271337f6d2691c4dc3ff7bf7d4fc0ba0824cb0c7c74ac7f069", by decide⟩

/-- The first runs to its end, the second to its gate. -/
def listedRun : List (LeaseStep Bool) :=
  List.replicate 6 (.advance true .none .completed) ++ [.advance false .none .completed]

/-- **An invocation that a gate turns away ends in no conflict**, whatever its digest. -/
theorem turned_away_no_conflict :
    ¬ ∀ c outcome,
      (runSchedule (step listedAndNot (fun _ => "") listedDigest) (start 1000 none)
          listedRun).phase c = .ended outcome →
        (∃ holder digest,
          (runSchedule (step listedAndNot (fun _ => "") listedDigest) (start 1000 none)
            listedRun).name = some (holder, digest)
          ∧ digestOf listedAndNot listedDigest c ≠ digest) →
        ∃ holder, outcome = .conflict holder := by
  intro conflicts
  obtain ⟨holder, impossible⟩ := conflicts false (.refused .notAllowed) (by decide)
    ⟨"resp_1#0", "762f6895e56b12282befc1a554f04d53f0f49b70026a00be2b5ca7340bb95097",
      by decide, by decide⟩
  cases impossible

/-- Two calls of one tool with one key. -/
def sameCall (c : Bool) : Invocation :=
  { listedAndNot true with
    call := { (listedAndNot true).call with responseId := if c then "resp_1" else "resp_2" } }

/-- The first executes, and the second finds it done. -/
def sameRun : List (LeaseStep Bool) :=
  List.replicate 5 (.advance true .none .completed)
    ++ List.replicate 5 (.advance false .none .completed)

theorem sameRun_steady :
    NoRecordExpires sameCall (fun _ => "") listedDigest (start 1000 none) sameRun := by
  have prefixes : ∀ n ≤ sameRun.length,
      ((runSchedule (step sameCall (fun _ => "") listedDigest) (start 1000 none)
        (sameRun.take n)).record.all fun row => row.Live 1000) = true := by
    decide
  intro pre post split row found
  have taken : pre = sameRun.take pre.length := by simp [split]
  have within : pre.length ≤ sameRun.length := by simp [split]
  have live := prefixes pre.length within
  rw [← taken, found] at live
  have ends : (runSchedule (step sameCall (fun _ => "") listedDigest) (start 1000 none)
      sameRun).now = 1000 := by decide
  rw [ends]
  exact .inl (by simpa using live)

theorem call_tool_lease_sameRun :
    (runSchedule (step sameCall (fun _ => "") listedDigest) (start 1000 none)
        sameRun).phase false = .ended (.duplicate "resp_1#0")
      ∧ (runSchedule (step sameCall (fun _ => "") listedDigest) (start 1000 none)
        sameRun).invoked.length ≤ 1 := by
  have lease := call_tool_lease sameCall (fun _ => "") listedDigest (by decide) 1000 none (by simp)
    sameRun sameRun_steady
  exact ⟨by decide, lease.1⟩

end Zhongzhuan.Responses
