import Zhongzhuan.Responses.Lifecycle

/-!
# When a terminal response stays what it is

The docstring of `cancel` asks that the 200 it returns is "the truth as of now" and
that a cancelled row is never revived.  The flag checks of the worker narrow the
window but do not close it: `update_status` and `set_cancelled` write without a
condition on the status, so whichever party writes last wins, in both directions.

* `LateResponseWrite` names the writes that replace a status with another.
* `response_settled_frozen_iff`: over every schedule, once a cancel has answered
  `cancelled` or the row is terminal the status is final exactly when no terminal
  row meets a late write.
* `finishAfterCancel` is the run in which the cancel falls between the worker's last
  flag check and its final write.
-/

namespace Zhongzhuan.Responses

open Kit Store Protocol

variable {W C : Type} [DecidableEq W] [DecidableEq C]

/-- The status writes of the response row that replace the status they find with
another one: the endpoint's `set_cancelled`, the worker's `in_progress` and its final
status, and the two sweeps. -/
inductive LateResponseWrite (s : Lifecycle W C) : LifecycleStep W C → Prop
  | cancel {c : C} {now : ℕ} (pc : s.canceller c = .setCancelled)
      (other : s.response.status ≠ .cancelled) : LateResponseWrite s (.cancelSet c now)
  | start {w : W} {now : ℕ} (pc : (s.worker w).pc = .starting)
      (other : s.response.status ≠ .inProgress) :
      LateResponseWrite s (.writeInProgress w now)
  | finish {w : W} {status : RunStatus} {reason error : String} {now : ℕ}
      (pc : (s.worker w).pc = .finishing status reason error)
      (other : s.response.status ≠ status) : LateResponseWrite s (.writeFinal w now)
  | expire {w : W} {now : ℕ} (pc : (s.worker w).pc = .expiring)
      (other : s.response.status ≠ .expired) :
      LateResponseWrite s (.finalizeExpired w now)
  | exhaust {w : W} {ts : ℕ} (pc : (s.worker w).pc = .failing ts)
      (other : s.response.status ≠ .failed) : LateResponseWrite s (.failResponse w)

namespace Lifecycle

/-- `cancel` has answered 200 with status `cancelled`. -/
def cancelAnswered (s : Lifecycle W C) : Prop := ∃ c, (c, RunStatus.cancelled) ∈ s.answers

/-- The client may rely on the status: it is terminal, or a cancel has answered. -/
def settled (s : Lifecycle W C) : Prop :=
  s.response.status.terminal = true ∨ s.cancelAnswered

section

omit [DecidableEq C]

@[simp] theorem setWorker_response (s : Lifecycle W C) (w : W) (state : WorkerState) :
    (s.setWorker w state).response = s.response := rfl

@[simp] theorem setWorker_answers (s : Lifecycle W C) (w : W) (state : WorkerState) :
    (s.setWorker w state).answers = s.answers := rfl

@[simp] theorem goto_response (s : Lifecycle W C) (w : W) (pc : WorkerPc) :
    (s.goto w pc).response = s.response := rfl

@[simp] theorem goto_answers (s : Lifecycle W C) (w : W) (pc : WorkerPc) :
    (s.goto w pc).answers = s.answers := rfl

@[simp] theorem afterStore_response (s : Lifecycle W C) (a : JobStatement W) :
    (s.afterStore a).response = s.response := by
  cases a <;> simp only [afterStore] <;> (repeat' split) <;> rfl

@[simp] theorem afterStore_answers (s : Lifecycle W C) (a : JobStatement W) :
    (s.afterStore a).answers = s.answers := by
  cases a <;> simp only [afterStore] <;> (repeat' split) <;> rfl

end

section

omit [DecidableEq W]

@[simp] theorem setCanceller_response (s : Lifecycle W C) (c : C) (pc : CancelPc) :
    (s.setCanceller c pc).response = s.response := rfl

@[simp] theorem setCanceller_answers (s : Lifecycle W C) (c : C) (pc : CancelPc) :
    (s.setCanceller c pc).answers = s.answers := rfl

end

theorem status_eq_iff_of_write {s : Lifecycle W C} {a : LifecycleStep W C}
    (status : RunStatus) (written : (s.step a).response.status = status)
    (late : LateResponseWrite s a ↔ s.response.status ≠ status) :
    (s.step a).response.status = s.response.status ↔ ¬ LateResponseWrite s a := by
  rw [late, not_ne_iff, written, eq_comm]

/-- **One step, seen from the response row.**  It leaves the status alone exactly
when it is not a late write. -/
theorem step_status_eq_iff (s : Lifecycle W C) (a : LifecycleStep W C) :
    (s.step a).response.status = s.response.status ↔ ¬ LateResponseWrite s a := by
  cases a with
  | cancelSet c now =>
      cases pc : s.canceller c with
      | setCancelled =>
          refine status_eq_iff_of_write .cancelled ?_
            ⟨fun | .cancel _ other => other, .cancel pc⟩
          simp [step, pc, ResponseRow.setCancelled]
      | _ => exact iff_of_true (by simp [step, pc]) fun | .cancel pc' _ => by simp [pc] at pc'
  | writeInProgress w now =>
      cases pc : (s.worker w).pc with
      | starting =>
          refine status_eq_iff_of_write .inProgress ?_
            ⟨fun | .start _ other => other, .start pc⟩
          simp [step, pc, ResponseRow.updateStatus]
      | _ => exact iff_of_true (by simp [step, pc]) fun | .start pc' _ => by simp [pc] at pc'
  | writeFinal w now =>
      cases pc : (s.worker w).pc with
      | finishing status reason error =>
          refine status_eq_iff_of_write status ?_ ⟨?_, .finish pc⟩
          · simp [step, pc, ResponseRow.updateStatus]
          · rintro (_ | _ | ⟨pc', other⟩ | _ | _)
            obtain ⟨rfl, rfl, rfl⟩ := WorkerPc.finishing.inj (pc.symm.trans pc')
            exact other
      | _ => exact iff_of_true (by simp [step, pc]) fun | .finish pc' _ => by simp [pc] at pc'
  | finalizeExpired w now =>
      cases pc : (s.worker w).pc with
      | expiring =>
          refine status_eq_iff_of_write .expired ?_
            ⟨fun | .expire _ other => other, .expire pc⟩
          simp [step, pc, ResponseRow.updateStatus]
      | _ => exact iff_of_true (by simp [step, pc]) fun | .expire pc' _ => by simp [pc] at pc'
  | failResponse w =>
      cases pc : (s.worker w).pc with
      | failing ts =>
          refine status_eq_iff_of_write .failed ?_
            ⟨fun | .exhaust _ other => other, .exhaust pc⟩
          simp [step, pc, ResponseRow.markFailed]
      | _ => exact iff_of_true (by simp [step, pc]) fun | .exhaust pc' _ => by simp [pc] at pc'
  | _ =>
      -- No other step touches the response row.
      refine iff_of_true ?_ (by rintro ⟨⟩)
      simp only [step]
      repeat' split
      all_goals simp

theorem step_answers (s : Lifecycle W C) (a : LifecycleStep W C) :
    (s.step a).answers = s.answers
      ∨ ∃ c, (s.step a).answers = s.answers ++ [(c, s.response.status)] := by
  cases a with
  | cancelAnswer c =>
      cases pc : s.canceller c with
      | answer => exact .inr ⟨c, by simp [step, pc]⟩
      | _ => exact .inl (by simp [step, pc])
  | _ =>
      refine .inl ?_
      simp only [step]
      repeat' split
      all_goals simp

theorem cancelAnswered_step {s : Lifecycle W C} (a : LifecycleStep W C)
    (answered : s.cancelAnswered) : (s.step a).cancelAnswered := by
  obtain ⟨c, given⟩ := answered
  obtain same | ⟨d, added⟩ := s.step_answers a
  · exact ⟨c, by rwa [same]⟩
  · exact ⟨c, by rw [added]; exact List.mem_append_left _ given⟩

theorem answered_cancelled_step {s : Lifecycle W C} {a : LifecycleStep W C}
    (answered : s.cancelAnswered → s.response.status = .cancelled)
    (kept : s.response.status.terminal = true → ¬ LateResponseWrite s a) :
    (s.step a).cancelAnswered → (s.step a).response.status = .cancelled := by
  rintro ⟨c, given⟩
  have now : s.response.status = .cancelled := by
    obtain same | ⟨d, added⟩ := s.step_answers a
    · exact answered ⟨c, by rwa [← same]⟩
    · rw [added, List.mem_append, List.mem_singleton] at given
      cases given with
      | inl before => exact answered ⟨c, before⟩
      | inr fresh => exact (congrArg Prod.snd fresh).symm
  rw [(s.step_status_eq_iff a).2 (kept (by rw [now]; rfl)), now]

end Lifecycle

/-- **A settled response keeps its status exactly when no terminal row meets a late
write**: for every schedule of any number of cancels, workers, recoveries and sweeps,
from the state `enqueue` leaves. -/
theorem response_settled_frozen_iff (now expiresAt : ℕ)
    (sched : List (LifecycleStep W C)) :
    Frozen Lifecycle.step Lifecycle.settled (fun t => t.response.status)
        (Lifecycle.enqueue now expiresAt) sched
      ↔ Along Lifecycle.step
          (fun t a => t.response.status.terminal = true → ¬ LateResponseWrite t a)
          (Lifecycle.enqueue now expiresAt) sched := by
  rw [frozen_iff_along fun t a settled kept =>
    settled.imp (fun terminal => by rwa [kept]) (Lifecycle.cancelAnswered_step a)]
  constructor
  · intro along
    refine along_mono (fun _ => True) (fun _ _ _ _ => trivial) ?_ trivial along
    intro t a _ kept terminal
    exact (t.step_status_eq_iff a).1 (kept (.inl terminal))
  · intro along
    -- Along such a run an answered cancel adds nothing: its row is `cancelled`.
    refine along_mono (fun t => t.cancelAnswered → t.response.status = .cancelled)
      (fun t a => Lifecycle.answered_cancelled_step) ?_ ?_ along
    · intro t a answered notLate settled
      refine (t.step_status_eq_iff a).2 (notLate ?_)
      rcases settled with terminal | given
      · exact terminal
      · rw [answered given]; rfl
    · rintro ⟨c, given⟩
      cases given

/-- The worker's last flag check passes, then the client cancels and is told
`cancelled`, then the worker writes `completed`. -/
def finishAfterCancel : List (LifecycleStep Unit Unit) :=
  [.store (.claimSelect () 100 300), .store (.claimUpdate ()), .checkQueuedCancel (),
    .writeInProgress () 100, .checkBoundary (), .endOfStream (), .checkLast (),
    .cancelGet (), .cancelRequest () 101, .cancelSet () 101, .cancelAnswer (),
    .writeFinal () 102]

/-- The row the client was told is `cancelled` ends up `completed`. -/
theorem finishAfterCancel_overwrites_answer :
    ¬ Frozen Lifecycle.step Lifecycle.settled (fun t => t.response.status)
        (Lifecycle.enqueue 100 0) finishAfterCancel := by
  intro frozen
  have kept := frozen (finishAfterCancel.take 11) (finishAfterCancel.drop 11) []
    rfl (.inr ⟨(), by decide⟩)
  exact absurd kept (by decide)

end Zhongzhuan.Responses
