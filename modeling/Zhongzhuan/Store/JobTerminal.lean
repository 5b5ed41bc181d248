import Zhongzhuan.Store.BackgroundJobs

/-!
# When a terminal job status stays what it is

`background_jobs` documents a state machine whose right-hand states are terminal.
No statement of the store enforces that: `mark_terminal` writes unconditionally,
and the `UPDATE` of `claim_job` restates the attempt and the lease of the row it
read but not its status, so a claim that read an active row revives a row that
another worker finished in between.

`LateStatusWrite` names the statements that do this.  `job_terminal_frozen_iff`
says they are the only ones: over every schedule of every set of workers, from
every state, the terminal status is final exactly when no statement of the run is
a late status write.
-/

namespace Zhongzhuan.Store

open Kit

variable {W : Type} [DecidableEq W]

/-- The statements that replace the status they find: a claim's `UPDATE` whose
attempt and lease guard still matches, and a status write, by a sweep or by a
finishing worker, of a status other than the one in the row. -/
inductive LateStatusWrite (s : JobSystem W) : JobStatement W → Prop
  | claim {w : W} {attempt ts leaseSeconds : ℕ}
      (read : s.pending w = .claim attempt ts leaseSeconds)
      (sameAttempt : s.row.attempt = attempt) (leasePassed : s.row.leaseUntil < ts) :
      LateStatusWrite s (.claimUpdate w)
  | expire {w : W} {ts : ℕ} (read : s.pending w = .expire ts)
      (other : s.row.status ≠ .expired) : LateStatusWrite s (.expireUpdate w)
  | reap {w : W} {ts : ℕ} (read : s.pending w = .reap ts)
      (other : s.row.status ≠ .failed) : LateStatusWrite s (.reapUpdate w)
  | mark {w : W} {status : RunStatus} {ts : ℕ} (other : s.row.status ≠ status) :
      LateStatusWrite s (.markTerminal w status ts)

namespace JobSystem

/-- **One statement on a terminal row.**  It leaves the status alone exactly when
it is not a late status write. -/
theorem step_status_eq_iff {s : JobSystem W} (terminal : s.row.status.terminal = true)
    (a : JobStatement W) :
    (s.step a).row.status = s.row.status ↔ ¬ LateStatusWrite s a := by
  have move := move_step s a
  generalize s.step a = s' at move
  cases move with
  | disabled notEnabled =>
      refine iff_of_true rfl fun late => notEnabled ?_
      cases late with
      | claim read => exact ⟨_, _, _, read⟩
      | expire read => exact ⟨_, read⟩
      | reap read => exact ⟨_, read⟩
      | mark => trivial
  | claimWin read sameAttempt leasePassed =>
      refine iff_of_false ?_ (fun h => h (.claim read sameAttempt leasePassed))
      intro revived
      rw [← revived] at terminal
      exact Bool.noConfusion terminal
  | claimLose read guard =>
      refine iff_of_true rfl ?_
      rintro (⟨read', sameAttempt, leasePassed⟩ | _ | _ | _)
      obtain ⟨rfl, rfl, rfl⟩ := Pending.claim.inj (read.symm.trans read')
      exact guard ⟨sameAttempt, leasePassed⟩
  | expireWrite read =>
      refine ⟨?_, fun notLate => ?_⟩
      · rintro same (_ | ⟨_, other⟩ | _ | _)
        exact other same.symm
      · by_contra other
        exact notLate (.expire read (Ne.symm other))
  | reapWrite read =>
      refine ⟨?_, fun notLate => ?_⟩
      · rintro same (_ | _ | ⟨_, other⟩ | _)
        exact other same.symm
      · by_contra other
        exact notLate (.reap read (Ne.symm other))
  | mark =>
      refine ⟨?_, fun notLate => ?_⟩
      · rintro same (_ | _ | _ | ⟨other⟩)
        exact other same.symm
      · by_contra other
        exact notLate (.mark (Ne.symm other))
  -- The remaining statements do not write the status at all.
  | _ => exact iff_of_true rfl nofun

end JobSystem

/-- **The terminal status of a job is final exactly when no late status write is
executed.**  For every set of workers, every state and every interleaving of the
store's statements: once the status is terminal no later statement changes it, if
and only if no statement executed on a terminal row is a claim `UPDATE` whose
attempt and lease guard still matches, or a write of a different status. -/
theorem job_terminal_frozen_iff (s : JobSystem W) (sched : List (JobStatement W)) :
    Frozen JobSystem.step (fun t => t.row.status.terminal = true)
        (fun t => t.row.status) s sched
      ↔ Along JobSystem.step
          (fun t a => t.row.status.terminal = true → ¬ LateStatusWrite t a) s sched := by
  rw [frozen_iff_along fun t a terminal kept => by rwa [kept]]
  refine along_congr (fun _ => True) (fun _ _ _ => trivial) ?_ trivial sched
  intro t a _
  exact forall_congr' fun terminal => JobSystem.step_status_eq_iff terminal a

/-- Worker `false` claims the job and finishes it while worker `true`, which read
the row after the lease ran out, is about to write its claim. -/
def lateClaimRun : List (JobStatement Bool) :=
  [.claimSelect false 100 300, .claimUpdate false, .claimSelect true 500 300,
    .markTerminal false .completed 501, .claimUpdate true]

/-- The late claim takes the row from `completed` back to `in_progress`. -/
theorem lateClaimRun_revives_completed_job :
    ¬ Frozen JobSystem.step (fun t => t.row.status.terminal = true)
        (fun t => t.row.status) (JobSystem.init 100 0) lateClaimRun := by
  intro frozen
  have kept := frozen (lateClaimRun.take 4) (lateClaimRun.drop 4) [] (by decide)
    (by decide)
  exact absurd kept (by decide)

end Zhongzhuan.Store
