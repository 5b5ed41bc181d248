import Mathlib
import Zhongzhuan.Responses.StoredResponse
import Zhongzhuan.Responses.WellFormedStream

/-!
# When a background job ends as completed

The live pipeline reports a stream as completed only when the upstream said that it had
finished and no tool call was closed with arguments it could not parse.  The worker records
both (`saw_finish`, `arguments_done`) and looks at neither: the end of the iteration is enough.

* `KeptRule` is the rule of the live pipeline, on the chunks of a run and the calls they
  leave behind.
* `StoppedShort` says that a ceiling or an exception ended the run before the stream did.
* `jobEnd_iff`: only then does a stream that breaks the rule not end as completed.
-/

namespace Zhongzhuan.Responses

open Kit Protocol Store

variable (env : JobEnv)

/-- The chunks of a run. -/
def JobInput.chunks (input : JobInput) : List JobChunk := input.turns.map JobTurn.chunk

/-- The stream had a finish chunk, and every call it opened was closed with arguments that
validated. -/
def KeptRule (input : JobInput) : Prop :=
  .unified .finish ∈ input.chunks
    ∧ ∀ acc ∈ (streamOf env input).run.tools.accs, acc.itemDone = true ∧ acc.argumentsDone = true

instance (input : JobInput) : Decidable (KeptRule env input) :=
  inferInstanceAs (Decidable (_ ∧ _))

/-- The ending is a ceiling or an exception, or comes after the deadline. -/
def JobEnding.short : JobEnding → Bool
  | .eof elapsed _ | .stopped elapsed =>
    (BudgetLedger.checkWallTime env.budget elapsed).isSome
  | .deadline | .raised _ => true
  | .cancelled => false

/-- `json.loads` raises on the arguments of the call. -/
def Unreadable (acc : ToolCallAccumulator) : Prop :=
  acc.itemDone = false ∧ ∃ message, acc.validate env.loads = .raised message

/-- A ceiling or an exception ended the run: inside a chunk, at its ending, or over the
arguments of a call that was still open. -/
def StoppedShort (input : JobInput) : Prop :=
  input.cancelledEarly = false ∧
    ((streamOf env input).halt.isSome = true ∨ input.ending.short env = true
      ∨ ∃ acc ∈ (streamOf env input).run.tools.listAll, acc.itemAdded = true ∧ Unreadable env acc)

/-! ## What the terminal handlers do -/

namespace JobRun

variable {env} {run : JobRun} {ref : ℕ}

theorem closeToolItem_raised :
    (run.closeToolItem env ref).raised = true
      ↔ ∃ acc, run.tools.accs[ref]? = some acc ∧ Unreadable env acc := by
  unfold closeToolItem
  cases found : run.tools.accs[ref]? with
  | none => simp
  | some acc =>
      dsimp only
      cases closed : acc.itemDone with
      | true => simp [Unreadable, closed]
      | false =>
          rw [if_neg (by simp)]
          cases verdict : acc.validate env.loads <;> simp [Unreadable, closed, verdict]

theorem closeToolItem_of_ne {other : ℕ} (ne : ref ≠ other) :
    (run.closeToolItem env ref).run.tools.accs[other]? = run.tools.accs[other]? := by
  unfold closeToolItem
  split
  · rfl
  · split
    · rfl
    · split
      · rfl
      · exact List.getElem?_modify_ne _ _ ne

theorem closeCalls_raised {refs : List ℕ} (distinct : refs.Nodup) :
    (closeCalls env refs run).raised = true
      ↔ ∃ ref ∈ refs, ∃ acc, run.tools.accs[ref]? = some acc ∧ acc.itemAdded = true
          ∧ Unreadable env acc := by
  induction refs generalizing run with
  | nil => simp [closeCalls]
  | cons ref rest ih =>
      obtain ⟨fresh, distinct⟩ := List.nodup_cons.mp distinct
      have others : ∀ closed : JobRun,
          (∀ other, other ≠ ref → closed.tools.accs[other]? = run.tools.accs[other]?) →
          ((∃ other ∈ rest, ∃ acc, closed.tools.accs[other]? = some acc ∧ acc.itemAdded = true
              ∧ Unreadable env acc)
            ↔ ∃ other ∈ rest, ∃ acc, run.tools.accs[other]? = some acc ∧ acc.itemAdded = true
              ∧ Unreadable env acc) := by
        intro closed same
        refine exists_congr fun other => and_congr_right fun mem => ?_
        rw [same other fun here => fresh (here ▸ mem)]
      simp only [List.exists_mem_cons_iff]
      unfold closeCalls
      cases found : run.tools.accs[ref]? with
      | none => simp [ih distinct]
      | some acc =>
          dsimp only
          by_cases pending : (acc.itemAdded && !acc.itemDone) = true
          · rw [if_pos pending]
            have added : acc.itemAdded = true := by simp_all
            split
            case isTrue raised =>
              refine iff_of_true raised (.inl ⟨acc, rfl, added, ?_⟩)
              obtain ⟨same, here, unreadable⟩ := closeToolItem_raised.mp raised
              rwa [found.symm.trans here |> Option.some.inj]
            case isFalse readable =>
              have sound : ¬ Unreadable env acc := fun unreadable =>
                readable (closeToolItem_raised.mpr ⟨acc, found, unreadable⟩)
              rw [ih distinct, others _ fun other ne => closeToolItem_of_ne ne.symm]
              simp [sound]
          · rw [if_neg pending, ih distinct]
            have closed : ¬ (acc.itemAdded = true ∧ Unreadable env acc) := by
              rintro ⟨added, still, _⟩
              exact pending (by simp [added, still])
            simp only [Option.some.injEq, exists_eq_left', closed, false_or]

theorem closeOpenItems_raised {incomplete : Bool} :
    (run.closeOpenItems env incomplete).raised = true
      ↔ ∃ acc ∈ run.tools.listAll, acc.itemAdded = true ∧ Unreadable env acc := by
  have calls : ∀ other : JobRun, other.tools = run.tools →
      ((closeCalls env run.tools.refs other).raised = true
        ↔ ∃ acc ∈ run.tools.listAll, acc.itemAdded = true ∧ Unreadable env acc) := by
    intro other same
    rw [closeCalls_raised run.tools.nodup_refs, same]
    simp only [ToolCallCollection.mem_listAll]
    constructor
    · rintro ⟨ref, mem, acc, found, holds⟩
      exact ⟨acc, ⟨ref, mem, found⟩, holds⟩
    · rintro ⟨acc, ⟨ref, mem, found⟩, holds⟩
      exact ⟨ref, mem, acc, found, holds⟩
  unfold closeOpenItems
  split
  · exact calls _ rfl
  · exact calls run rfl

end JobRun

variable {env}

theorem concludeJob_status (run : JobRun) (terminal : JobTerminal) :
    (concludeJob env run terminal).1
      = if (run.closeOpenItems env terminal.incomplete).raised then .failed
        else terminal.status := by
  cases terminal with
  | failed error =>
      show RunStatus.failed = _
      split <;> rfl
  | tripped reason | completed outputTokens | cancelled =>
      unfold concludeJob
      dsimp only
      split <;> rfl

/-- The handlers for a ceiling or an exception. -/
def JobTerminal.isShort : JobTerminal → Bool
  | .tripped _ | .failed _ => true
  | .completed _ | .cancelled => false

theorem terminal_isShort (stream : JobStream) (ending : JobEnding) :
    (stream.terminal env ending).isShort = (stream.halt.isSome || ending.short env) := by
  unfold JobStream.terminal
  cases stream.halt with
  | some halt => cases halt <;> rfl
  | none =>
      cases ending with
      | eof elapsed cancelled =>
          cases late : BudgetLedger.checkWallTime env.budget elapsed with
          | some reason => simp [JobTerminal.isShort, JobEnding.short, late]
          | none => cases cancelled <;> simp [JobTerminal.isShort, JobEnding.short, late]
      | stopped elapsed =>
          cases late : BudgetLedger.checkWallTime env.budget elapsed <;>
            simp [JobTerminal.isShort, JobEnding.short, late]
      | cancelled | deadline | raised error => rfl

theorem runJob_stoppedShort (input : JobInput) :
    ((runJob env input).1 = .failed ∨ (runJob env input).1 = .incomplete)
      ↔ StoppedShort env input := by
  unfold StoppedShort
  cases early : input.cancelledEarly with
  | true => simp [runJob_cancelledEarly env early]
  | false =>
      have status : (runJob env input).1 = (concludeJob env (streamOf env input).run
          ((streamOf env input).terminal env input.ending)).1 := by
        simp [runJob, early]
      rw [status, concludeJob_status]
      have short := @terminal_isShort env (streamOf env input) input.ending
      rw [← or_assoc, ← Bool.or_eq_true, ← short]
      generalize (streamOf env input).terminal env input.ending = terminal
      have raised := @JobRun.closeOpenItems_raised env (streamOf env input).run
        terminal.incomplete
      by_cases unreadable :
          ((streamOf env input).run.closeOpenItems env terminal.incomplete).raised = true
      · simp [unreadable, raised.mp unreadable]
      · have readable := mt raised.mpr unreadable
        rw [if_neg unreadable]
        cases terminal <;> simp [JobTerminal.status, JobTerminal.isShort, readable]

/-- **When the status of a background job keeps to the rule**: a job is completed only if the
stream kept the rule, and ends failed or incomplete, with its response, if it did not. -/
def EndsByRule (env : JobEnv) (rows : StoredResponse) (input : JobInput) : Prop :=
  let done := rows.execute (runJob env input).2
  (done.job = .completed → KeptRule env input)
    ∧ (¬ KeptRule env input →
        done.status = done.job ∧ (done.job = .failed ∨ done.job = .incomplete))

/-- **The status of a background job keeps to the rule exactly** when the stream does, or when
a ceiling or an exception ends the run. -/
theorem jobEnd_iff (env : JobEnv) (rows : StoredResponse) (input : JobInput) :
    EndsByRule env rows input ↔ KeptRule env input ∨ StoppedShort env input := by
  obtain ⟨status, job⟩ := execute_runJob_status env rows input
  have short := @runJob_stoppedShort env input
  unfold EndsByRule
  dsimp only
  rw [status, job, ← short]
  constructor
  · rintro ⟨_, broken⟩
    by_cases kept : KeptRule env input
    · exact .inl kept
    · exact .inr (broken kept).2
  · rintro (kept | ended)
    · exact ⟨fun _ => kept, fun broken => absurd kept broken⟩
    · refine ⟨fun completed => ?_, fun _ => ⟨rfl, ended⟩⟩
      rw [completed] at ended
      cases ended <;> contradiction

/-- A worker for the runs below. -/
def plainJobEnv : JobEnv where
  responseId := "r"
  loads := plainEnv.loads

/-- A stream that breaks off after its first words. -/
def cutInput : JobInput where
  turns := [⟨0, .unified (.text "Hel")⟩]
  ending := .eof 1 false

/-- The job is completed all the same. -/
theorem cutInput_completed :
    ¬ ∀ (env : JobEnv) (rows : StoredResponse) (input : JobInput),
      EndsByRule env rows input := by
  intro all
  have kept := (all plainJobEnv (.enqueued "r") cutInput).1 (by decide +kernel)
  exact absurd kept (by decide +kernel)

end Zhongzhuan.Responses
