import Mathlib
import Zhongzhuan.Store.BackgroundJobs

/-!
# The lease discipline of `claim_job` and `renew_lease`

`claim_job` is an optimistic lock: it reads `(attempt, lease_until)` and its
`UPDATE` succeeds only if the row still has that attempt and an expired lease.
Two invariants carry everything this gives.

* `CountInv`: the stored attempt is the number of grants so far, the attempts
  granted are `1, 2, …` in order, and every claim in flight read an attempt below
  the limit.  It needs no assumption about clocks.
* `LeaseInv`: when the clock readings of the calls do not decrease, the lease in
  the row is the largest lease ever stored and no reading plus lease length in
  flight is smaller than the lease it was read against.  A renewal that falls
  between another worker's read and its `UPDATE` therefore only moves the lease
  up, and the claim's guard sees it.

`renew_lease` has no such lock.  Nothing in the row says who holds the lease, so
after a takeover the heartbeat of the previous owner is judged by the *new*
owner's lease: `heartbeat_after_takeover_refused_iff`.
-/

namespace Zhongzhuan.Store

open Kit

variable {W : Type} [DecidableEq W]

/-- The attempt number a `claim_job` call was granted. -/
def JobEvent.grantedAttempt : JobEvent W → Option ℕ
  | .granted _ attempt _ _ => some attempt
  | _ => none

/-- The lease an event stored in the row. -/
def JobEvent.storedLease : JobEvent W → Option ℕ
  | .granted _ _ _ lease => some lease
  | .extended _ _ lease => some lease
  | _ => none

/-- The attempt numbers granted so far, in order. -/
def grantedAttempts (log : List (JobEvent W)) : List ℕ :=
  log.filterMap JobEvent.grantedAttempt

/-- The leases stored so far by claims and renewals, in order. -/
def storedLeases (log : List (JobEvent W)) : List ℕ :=
  log.filterMap JobEvent.storedLease

/-- The clock reading and the lease length of a `claim_job` or `renew_lease`
call, carried by its first statement. -/
def JobStatement.reading : JobStatement W → Option (ℕ × ℕ)
  | .claimSelect _ ts leaseSeconds | .renewSelect _ ts leaseSeconds =>
      some (ts, leaseSeconds)
  | _ => none

/-- The readings of the `claim_job` and `renew_lease` calls of a schedule. -/
def leaseReadings (sched : List (JobStatement W)) : List (ℕ × ℕ) :=
  sched.filterMap JobStatement.reading

/-- Executing `a` in `t` grants `attempt` to `w`, whose call read the clock at
`ts` and stored `lease`. -/
def Grants (t : JobSystem W) (a : JobStatement W) (w : W) (attempt ts lease : ℕ) :
    Prop :=
  (t.step a).log = t.log ++ [.granted w attempt ts lease]

/-! ## Counting the grants -/

/-- A claim in flight read an attempt below `bound`. -/
def Pending.ClaimBelow (bound : ℕ) : Pending → Prop
  | .claim attempt _ _ => attempt < bound
  | _ => True

/-- The attempt counter counts grants, whatever the clocks say. -/
structure CountInv (s : JobSystem W) : Prop where
  /-- The attempts granted are `1, …, attempt`, each once. -/
  granted : grantedAttempts s.log = List.range' 1 s.row.attempt
  /-- The limit of `MAX_RECOVERY_ATTEMPTS` is respected. -/
  bounded : s.row.attempt ≤ maxRecoveryAttempts
  /-- A claim in flight read an attempt below the limit. -/
  inFlight : ∀ w, (s.pending w).ClaimBelow maxRecoveryAttempts

namespace JobSystem

omit [DecidableEq W] in
theorem countInv_init (now expiresAt : ℕ) :
    CountInv (init now expiresAt : JobSystem W) where
  granted := rfl
  bounded := Nat.zero_le _
  inFlight := fun _ => trivial

omit [DecidableEq W] in
theorem grantedAttempts_append_of_none {log events : List (JobEvent W)}
    (none_of : ∀ e ∈ events, e.grantedAttempt = none) :
    grantedAttempts (log ++ events) = grantedAttempts log := by
  rw [grantedAttempts, List.filterMap_append,
    List.filterMap_eq_nil_iff.mpr none_of, List.append_nil]
  rfl

theorem forall_pending_update {P : Pending → Prop} {pending : W → Pending}
    (all : ∀ w, P (pending w)) {w : W} {p : Pending} (new : P p) :
    ∀ w', P (Function.update pending w p w') :=
  (Function.forall_update_iff pending fun _ q => P q).mpr ⟨new, fun w' _ => all w'⟩

theorem countInv_step (s : JobSystem W) (a : JobStatement W) (inv : CountInv s) :
    CountInv (s.step a) := by
  have move := move_step s a
  generalize s.step a = s' at move
  cases move with
  | disabled | expireSkip | reapSkip => exact inv
  | claimRead free claimable =>
      have below : s.row.attempt < maxRecoveryAttempts := by
        simp only [JobRow.claimable, Bool.and_eq_true, decide_eq_true_eq] at claimable
        exact claimable.2
      exact ⟨inv.granted, inv.bounded, forall_pending_update inv.inFlight below⟩
  | claimMiss | renewRefuse =>
      exact ⟨(grantedAttempts_append_of_none (by simp [JobEvent.grantedAttempt])).trans
        inv.granted, inv.bounded, inv.inFlight⟩
  | @claimWin w attempt ts leaseSeconds read sameAttempt leasePassed =>
      have below : attempt < maxRecoveryAttempts := by
        have inFlight := inv.inFlight w
        rwa [read] at inFlight
      refine ⟨?_, below, forall_pending_update inv.inFlight trivial⟩
      show grantedAttempts (s.log ++ [_]) = List.range' 1 (attempt + 1)
      rw [List.range'_concat, ← sameAttempt, ← inv.granted]
      simp [grantedAttempts, JobEvent.grantedAttempt, Nat.add_comm]
  | claimLose | renewBlind | renewExtend =>
      exact ⟨(grantedAttempts_append_of_none (by simp [JobEvent.grantedAttempt])).trans
        inv.granted, inv.bounded, forall_pending_update inv.inFlight trivial⟩
  | renewRead | expireRead | expireWrite | reapRead | reapWrite =>
      exact ⟨inv.granted, inv.bounded, forall_pending_update inv.inFlight trivial⟩
  | mark | cancel => exact ⟨inv.granted, inv.bounded, inv.inFlight⟩

theorem countInv_run (now expiresAt : ℕ) (sched : List (JobStatement W)) :
    CountInv (runSchedule step (init now expiresAt) sched) :=
  runSchedule_invariant CountInv countInv_step (countInv_init now expiresAt) sched

/-! ## Which statements grant a claim -/

theorem leaseUntil_lt_of_grants {t : JobSystem W} {a : JobStatement W} {w : W}
    {attempt ts lease : ℕ} (grants : Grants t a w attempt ts lease) :
    t.row.leaseUntil < ts := by
  have move := move_step t a
  unfold Grants at grants
  generalize t.step a = t' at move grants
  cases move with
  | claimWin read sameAttempt leasePassed =>
      have event := List.append_cancel_left grants
      obtain ⟨_, _, rfl, _⟩ := JobEvent.granted.inj (List.cons.inj event).1
      exact leasePassed
  | claimMiss | claimLose | renewRefuse | renewExtend | renewBlind =>
      have event := List.append_cancel_left grants
      simp at event
  | _ =>
      have length := congrArg List.length grants
      simp [setPending, withRow] at length

/-! ## The lease never goes down -/

end JobSystem

/-- What is known of a call in flight when the clock stands at `now` and leases
last `leaseSeconds`: its reading is in the past, and a renewal will not store
less than the lease it was read against. -/
def Pending.LeaseSafe (now leaseSeconds : ℕ) : Pending → Prop
  | .claim _ ts length => ts ≤ now ∧ length = leaseSeconds
  | .renew lease ts length =>
      ts ≤ now ∧ length = leaseSeconds ∧ lease ≤ ts + leaseSeconds
  | _ => True

theorem Pending.LeaseSafe.mono {now later leaseSeconds : ℕ} (le : now ≤ later)
    {p : Pending} (safe : p.LeaseSafe now leaseSeconds) :
    p.LeaseSafe later leaseSeconds := by
  cases p with
  | claim => exact ⟨safe.1.trans le, safe.2⟩
  | renew => exact ⟨safe.1.trans le, safe.2⟩
  | _ => trivial

/-- With nondecreasing readings and one lease length, the lease in the row is the
largest one ever stored. -/
structure LeaseInv (leaseSeconds now : ℕ) (s : JobSystem W) : Prop where
  largest : ∀ lease ∈ storedLeases s.log, lease ≤ s.row.leaseUntil
  horizon : s.row.leaseUntil ≤ now + leaseSeconds
  inFlight : ∀ w, (s.pending w).LeaseSafe now leaseSeconds

namespace JobSystem

omit [DecidableEq W] in
theorem leaseInv_init (leaseSeconds now expiresAt : ℕ) :
    LeaseInv leaseSeconds 0 (init now expiresAt : JobSystem W) where
  largest := nofun
  horizon := Nat.zero_le _
  inFlight := fun _ => trivial

omit [DecidableEq W] in
theorem leaseInv_later {leaseSeconds now later : ℕ} {s : JobSystem W}
    (inv : LeaseInv leaseSeconds now s) (le : now ≤ later) :
    LeaseInv leaseSeconds later s :=
  ⟨inv.largest, inv.horizon.trans (by omega), fun w => (inv.inFlight w).mono le⟩

omit [DecidableEq W] in
theorem storedLeases_append_le {log events : List (JobEvent W)} {bound bound' : ℕ}
    (old : ∀ lease ∈ storedLeases log, lease ≤ bound) (mono : bound ≤ bound')
    (new : ∀ e ∈ events, ∀ lease, e.storedLease = some lease → lease ≤ bound') :
    ∀ lease ∈ storedLeases (log ++ events), lease ≤ bound' := by
  intro lease stored
  rw [storedLeases, List.filterMap_append, List.mem_append] at stored
  rcases stored with before | now
  · exact (old lease before).trans mono
  · obtain ⟨e, mem, stores⟩ := List.mem_filterMap.mp now
    exact new e mem lease stores

/-- **The lease invariant survives every statement** executed at a time `now` not
before the reading the statement carries.  Time has already been moved up to that
reading, so a read finds `ts ≤ now` and `now ≤ ts`. -/
theorem leaseInv_step {leaseSeconds now : ℕ} (s : JobSystem W) (a : JobStatement W)
    (reading : ∀ r ∈ a.reading, r = (now, leaseSeconds))
    (inv : LeaseInv leaseSeconds now s) : LeaseInv leaseSeconds now (s.step a) := by
  have move := move_step s a
  generalize s.step a = s' at move
  cases move with
  | disabled | expireSkip | reapSkip => exact inv
  | claimRead free claimable =>
      obtain ⟨rfl, rfl⟩ := Prod.mk.inj (reading _ rfl)
      exact ⟨inv.largest, inv.horizon,
        forall_pending_update inv.inFlight ⟨le_rfl, rfl⟩⟩
  | renewRead free active unexpired =>
      obtain ⟨rfl, rfl⟩ := Prod.mk.inj (reading _ rfl)
      exact ⟨inv.largest, inv.horizon,
        forall_pending_update inv.inFlight ⟨le_rfl, rfl, inv.horizon⟩⟩
  | claimMiss | renewRefuse =>
      exact ⟨storedLeases_append_le inv.largest le_rfl (by simp [JobEvent.storedLease]),
        inv.horizon, inv.inFlight⟩
  | claimLose | renewBlind =>
      exact ⟨storedLeases_append_le inv.largest le_rfl (by simp [JobEvent.storedLease]),
        inv.horizon, forall_pending_update inv.inFlight trivial⟩
  | @claimWin w attempt ts length read sameAttempt leasePassed =>
      obtain ⟨past, rfl⟩ : ts ≤ now ∧ length = leaseSeconds := by
        have safe := inv.inFlight w
        rwa [read] at safe
      have up : s.row.leaseUntil ≤ ts + length := by omega
      exact ⟨storedLeases_append_le inv.largest up (by simp [JobEvent.storedLease]),
        Nat.add_le_add_right past length, forall_pending_update inv.inFlight trivial⟩
  | @renewExtend w prior ts length read active sameLease =>
      obtain ⟨past, rfl, notLess⟩ :
          ts ≤ now ∧ length = leaseSeconds ∧ prior ≤ ts + leaseSeconds := by
        have safe := inv.inFlight w
        rwa [read] at safe
      have up : s.row.leaseUntil ≤ ts + length := sameLease.le.trans notLess
      exact ⟨storedLeases_append_le inv.largest up (by simp [JobEvent.storedLease]),
        Nat.add_le_add_right past length, forall_pending_update inv.inFlight trivial⟩
  | expireRead | expireWrite | reapRead | reapWrite =>
      exact ⟨inv.largest, inv.horizon, forall_pending_update inv.inFlight trivial⟩
  | mark | cancel => exact ⟨inv.largest, inv.horizon, inv.inFlight⟩

/-- A claim granted in a state of the lease invariant finds every lease stored so
far passed at its reading. -/
theorem lease_lt_of_grants {leaseSeconds now : ℕ} {t : JobSystem W}
    (inv : LeaseInv leaseSeconds now t) {a : JobStatement W} {w : W}
    {attempt ts lease : ℕ} (grants : Grants t a w attempt ts lease) :
    ∀ earlier ∈ storedLeases t.log, earlier < ts := fun earlier stored =>
  lt_of_le_of_lt (inv.largest earlier stored) (leaseUntil_lt_of_grants grants)

/-- **Over a whole run** whose claim and renewal readings do not decrease and use
one lease length, no claim is granted at a reading at which a lease stored
earlier in the run has not passed. -/
theorem along_lease_lt_of_grants {leaseSeconds : ℕ} (sched : List (JobStatement W)) :
    ∀ {now : ℕ} {s : JobSystem W}, LeaseInv leaseSeconds now s →
      (∀ r ∈ leaseReadings sched, now ≤ r.1 ∧ r.2 = leaseSeconds) →
      (leaseReadings sched).Pairwise (fun r r' => r.1 ≤ r'.1) →
      Along step (fun t a => ∀ w attempt ts lease, Grants t a w attempt ts lease →
        ∀ earlier ∈ storedLeases t.log, earlier < ts) s sched := by
  induction sched with
  | nil => intros; trivial
  | cons a sched ih =>
      intro now s inv readings clock
      refine ⟨fun w attempt ts lease => lease_lt_of_grants inv, ?_⟩
      cases reads : a.reading with
      | none =>
          have same : leaseReadings (a :: sched) = leaseReadings sched :=
            List.filterMap_cons_none reads
          rw [same] at readings clock
          exact ih (leaseInv_step s a (by simp [reads]) inv) readings clock
      | some r =>
          have head : leaseReadings (a :: sched) = r :: leaseReadings sched :=
            List.filterMap_cons_some reads
          rw [head, List.pairwise_cons] at clock
          rw [head] at readings
          obtain ⟨notBefore, length⟩ := readings r List.mem_cons_self
          -- The clock moves up to the reading before the statement is executed.
          have inv' := leaseInv_step s a (by simp [reads, Prod.ext_iff, length])
            (leaseInv_later inv notBefore)
          refine ih inv' (fun r' later => ?_) clock.2
          exact ⟨clock.1 r' later, (readings r' (List.mem_cons_of_mem _ later)).2⟩

end JobSystem

/-- **The lease discipline of `claim_job`.**  For every set of workers and every
interleaving of the store's statements on a freshly created job: the attempt
numbers granted are pairwise distinct, there are at most `MAX_RECOVERY_ATTEMPTS`
of them, the stored attempt is their number, and every grant finds the lease in
the row passed at the claim's clock reading.  If moreover the readings of the
claims and renewals do not decrease and all use one lease length, every grant
finds *every* lease stored before it, by a claim or by a renewal, passed at its
reading. -/
theorem claim_job_lease_discipline (now expiresAt : ℕ)
    (sched : List (JobStatement W)) :
    (grantedAttempts
        (runSchedule JobSystem.step (.init now expiresAt) sched).log).Nodup
      ∧ (grantedAttempts (runSchedule JobSystem.step (.init now expiresAt)
          sched).log).length ≤ maxRecoveryAttempts
      ∧ (runSchedule JobSystem.step (.init now expiresAt) sched).row.attempt
          = (grantedAttempts
              (runSchedule JobSystem.step (.init now expiresAt) sched).log).length
      ∧ Along JobSystem.step (fun t a => ∀ w attempt ts lease,
          Grants t a w attempt ts lease → t.row.leaseUntil < ts)
          (.init now expiresAt) sched
      ∧ ∀ leaseSeconds, (∀ r ∈ leaseReadings sched, r.2 = leaseSeconds) →
          (leaseReadings sched).Pairwise (fun r r' => r.1 ≤ r'.1) →
          Along JobSystem.step (fun t a => ∀ w attempt ts lease,
            Grants t a w attempt ts lease →
              ∀ earlier ∈ storedLeases t.log, earlier < ts)
            (.init now expiresAt) sched := by
  have inv := JobSystem.countInv_run now expiresAt sched
  refine ⟨?_, ?_, ?_, ?_, ?_⟩
  · rw [inv.granted]
    exact List.nodup_range'
  · rw [inv.granted, List.length_range']
    exact inv.bounded
  · rw [inv.granted, List.length_range']
  · exact along_of_forall
      (fun _ _ _ _ _ _ => JobSystem.leaseUntil_lt_of_grants) _ sched
  · intro leaseSeconds length clock
    refine JobSystem.along_lease_lt_of_grants sched
      (JobSystem.leaseInv_init leaseSeconds now expiresAt) (fun r mem => ?_) clock
    exact ⟨Nat.zero_le _, length r mem⟩

/-! ## Heartbeats after a takeover -/

/-- The lease stored last, by whichever worker. -/
def lastLease (log : List (JobEvent W)) : Option ℕ :=
  (storedLeases log).getLast?

/-- `A` was granted the job and later `B` was: `A`'s lease ran out and `B` took
over. -/
def Takeover (A B : W) (log : List (JobEvent W)) : Prop :=
  ∃ before between after attemptA tsA leaseA attemptB tsB leaseB,
    log = before ++ .granted A attemptA tsA leaseA ::
      (between ++ .granted B attemptB tsB leaseB :: after)

/-- Every `renew_lease` that `A` issues along `sched` returns `False` at once and
leaves the row, and `A`, as they were. -/
def RenewalsRefused (A : W) (s : JobSystem W) (sched : List (JobStatement W)) : Prop :=
  Along JobSystem.step (fun t a => ∀ ts leaseSeconds,
    a = .renewSelect A ts leaseSeconds → t.pending A = .idle →
      (t.step a).log = t.log ++ [.renewReturned A false]
        ∧ (t.step a).row = t.row ∧ (t.step a).pending A = .idle) s sched

namespace JobSystem

omit [DecidableEq W] in
theorem lastLease_append_of_none {log events : List (JobEvent W)}
    (none_of : ∀ e ∈ events, e.storedLease = none) :
    lastLease (log ++ events) = lastLease log := by
  rw [lastLease, storedLeases, List.filterMap_append,
    List.filterMap_eq_nil_iff.mpr none_of, List.append_nil]
  rfl

omit [DecidableEq W] in
theorem lastLease_concat {log : List (JobEvent W)} {e : JobEvent W} {lease : ℕ}
    (stores : e.storedLease = some lease) : lastLease (log ++ [e]) = some lease := by
  simp [lastLease, storedLeases, stores]

theorem leaseUntil_step (s : JobSystem W) (a : JobStatement W)
    (inv : s.row.leaseUntil = (lastLease s.log).getD 0) :
    (s.step a).row.leaseUntil = (lastLease (s.step a).log).getD 0 := by
  have move := move_step s a
  generalize s.step a = s' at move
  cases move with
  | claimMiss | claimLose | renewRefuse | renewBlind =>
      rw [emit_log, lastLease_append_of_none (by simp [JobEvent.storedLease])]
      exact inv
  | @claimWin w attempt ts leaseSeconds =>
      rw [emit_log, lastLease_concat rfl]
      rfl
  | @renewExtend w lease ts leaseSeconds =>
      rw [emit_log, ← List.singleton_append, ← List.append_assoc,
        lastLease_append_of_none (by simp [JobEvent.storedLease]), lastLease_concat rfl]
      rfl
  | _ => exact inv

theorem leaseUntil_run (now expiresAt : ℕ) (sched : List (JobStatement W)) :
    (runSchedule step (init now expiresAt) sched).row.leaseUntil
      = (lastLease (runSchedule step (init now expiresAt) sched).log).getD 0 :=
  runSchedule_invariant
    (fun s : JobSystem W => s.row.leaseUntil = (lastLease s.log).getD 0)
    leaseUntil_step rfl sched

theorem log_isPrefix_step (s : JobSystem W) (a : JobStatement W) :
    s.log <+: (s.step a).log := by
  have move := move_step s a
  generalize s.step a = s' at move
  cases move <;> simp

/-- One `renew_lease` of an idle worker is refused at its read exactly when the
row has left the active statuses or its nonzero lease has passed at the reading. -/
theorem renewSelect_refused_iff {t : JobSystem W} {A : W} {ts leaseSeconds : ℕ}
    (free : t.pending A = .idle) :
    ((t.step (.renewSelect A ts leaseSeconds)).log = t.log ++ [.renewReturned A false]
        ∧ (t.step (.renewSelect A ts leaseSeconds)).row = t.row
        ∧ (t.step (.renewSelect A ts leaseSeconds)).pending A = .idle)
      ↔ t.row.status.active = false
        ∨ t.row.leaseUntil ≠ 0 ∧ t.row.leaseUntil < ts := by
  have move := move_step t (.renewSelect A ts leaseSeconds)
  generalize t.step (.renewSelect A ts leaseSeconds) = t' at move
  cases move with
  | disabled notEnabled => exact absurd free notEnabled
  | renewRead _ active unexpired =>
      refine iff_of_false (fun refused => ?_) ?_
      · have length := congrArg List.length refused.1
        simp at length
      · rw [active]
        rintro (lost | lost)
        · cases lost
        · omega
  | renewRefuse _ lost => exact iff_of_true ⟨rfl, rfl, free⟩ lost

end JobSystem

omit [DecidableEq W] in
theorem Takeover.lastLease_isSome {A B : W} {log : List (JobEvent W)}
    (takeover : Takeover A B log) : ∃ lease, lastLease log = some lease := by
  obtain ⟨before, between, after, attemptA, tsA, leaseA, attemptB, tsB, leaseB, rfl⟩ :=
    takeover
  have stored : leaseA ∈ storedLeases (before ++ JobEvent.granted A attemptA tsA leaseA ::
      (between ++ .granted B attemptB tsB leaseB :: after)) := by
    simp [storedLeases, JobEvent.storedLease]
  exact ⟨_, List.getLast?_eq_some_getLast (List.ne_nil_of_mem stored)⟩

omit [DecidableEq W] in
theorem Takeover.of_prefix {A B : W} {log later : List (JobEvent W)}
    (takeover : Takeover A B log) (grown : log <+: later) : Takeover A B later := by
  obtain ⟨before, between, after, attemptA, tsA, leaseA, attemptB, tsB, leaseB, rfl⟩ :=
    takeover
  obtain ⟨tail, rfl⟩ := grown
  exact ⟨before, between, after ++ tail, attemptA, tsA, leaseA, attemptB, tsB, leaseB,
    by simp⟩

/-- **A heartbeat after a takeover is judged by the new owner's lease.**  For every
set of workers and every interleaving of the store's statements before and after
`B` took the job over from `A`: every later `renew_lease` of `A` returns `False`
and leaves the row unchanged, if and only if at each of them the row has left the
active statuses or the lease last stored, by `B` or by whoever renewed since, has
itself passed at `A`'s clock reading. -/
theorem heartbeat_after_takeover_refused_iff {A B : W} (now expiresAt : ℕ)
    (pre post : List (JobStatement W))
    (takeover : Takeover A B
      (runSchedule JobSystem.step (.init now expiresAt) pre).log) :
    RenewalsRefused A (runSchedule JobSystem.step (.init now expiresAt) pre) post
      ↔ Along JobSystem.step (fun t a => ∀ ts leaseSeconds,
          a = .renewSelect A ts leaseSeconds → t.pending A = .idle →
            t.row.status.active = false
              ∨ ∀ lease, lastLease t.log = some lease → 0 < lease ∧ lease < ts)
          (runSchedule JobSystem.step (.init now expiresAt) pre) post := by
  refine along_congr
    (fun t : JobSystem W => t.row.leaseUntil = (lastLease t.log).getD 0
      ∧ Takeover A B t.log) ?_ ?_ ⟨JobSystem.leaseUntil_run now expiresAt pre, takeover⟩
    post
  · rintro t a ⟨lease, taken⟩
    exact ⟨JobSystem.leaseUntil_step t a lease,
      taken.of_prefix (JobSystem.log_isPrefix_step t a)⟩
  · rintro t a ⟨inRow, taken⟩
    obtain ⟨lease, last⟩ := taken.lastLease_isSome
    rw [last, Option.getD_some] at inRow
    refine forall_congr' fun ts => forall_congr' fun leaseSeconds => ?_
    constructor
    · rintro refused rfl free
      refine ((JobSystem.renewSelect_refused_iff free).mp (refused rfl free)).imp_right ?_
      rintro ⟨nonzero, passed⟩ lease' last'
      obtain rfl : lease = lease' := Option.some.inj (last.symm.trans last')
      omega
    · rintro lost rfl free
      refine (JobSystem.renewSelect_refused_iff free).mpr ((lost rfl free).imp_right ?_)
      intro passed
      have := passed lease last
      omega

/-- Worker `false` claims the job at `100`, lets its lease of `300` seconds run
out, and worker `true` claims it at `500`. -/
def takeoverRun : List (JobStatement Bool) :=
  [.claimSelect false 100 300, .claimUpdate false, .claimSelect true 500 300,
    .claimUpdate true]

/-- The condition is met when the new owner has been silent for longer than its
lease: at `900` the lease stored at `500` has passed. -/
theorem heartbeat_after_takeover_refused_at_900 :
    RenewalsRefused false (runSchedule JobSystem.step (.init 100 0) takeoverRun)
      [.renewSelect false 900 300] := by
  refine (heartbeat_after_takeover_refused_iff (B := true) 100 0 takeoverRun _
    ⟨[], [], [], 1, 100, 400, 2, 500, 800, by decide⟩).mpr ?_
  refine ⟨?_, trivial⟩
  rintro ts leaseSeconds ⟨⟩ -
  refine .inr fun lease last => ?_
  obtain rfl : 800 = lease := Option.some.inj last
  decide

/-- Ten seconds after the takeover the heartbeat of the previous owner passes. -/
theorem heartbeat_after_takeover_not_refused :
    Takeover false true
        (runSchedule JobSystem.step (.init 100 0) takeoverRun).log
      ∧ ¬ RenewalsRefused false
          (runSchedule JobSystem.step (.init 100 0) takeoverRun)
          [.renewSelect false 510 300, .renewUpdate false] := by
  refine ⟨⟨[], [], [], 1, 100, 400, 2, 500, 800, by decide⟩, fun refused => ?_⟩
  have returned := (refused.1 510 300 rfl rfl).1
  exact absurd returned (by decide)

end Zhongzhuan.Store
