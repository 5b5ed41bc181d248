import Zhongzhuan.Kit.Text

/-!
# `ToolExecutionStore`: the approval of a hosted tool

The model of `store/tool_executions.py`: one row for each response and place in its list of
tools, under an `execution_id` made of the two.  The workspace is a column of the row and not a
part of its key, and `record` replaces the whole row.
-/

namespace Zhongzhuan.Store

open Kit

/-- The values of `approval`; the empty string of old rows is read as `none`. -/
inductive ApprovalState
  | none
  | pending
  | approved
  | rejected
  deriving DecidableEq, Repr

/-- `execution_id_for`. -/
def executionIdFor (responseId : String) (toolSeq : ℤ) : String :=
  responseId ++ "#" ++ toolSeq.repr

theorem append_sep_inj {sep : Char} {a a' b b' : List Char} (clean : sep ∉ b) (clean' : sep ∉ b')
    (same : a ++ sep :: b = a' ++ sep :: b') : a = a' ∧ b = b' := by
  rcases List.append_eq_append_iff.mp same with ⟨mid, rfl, tail⟩ | ⟨mid, rfl, tail⟩
  all_goals
    cases mid with
    | nil => simpa [eq_comm] using tail
    | cons c mid =>
        obtain ⟨-, rfl⟩ := List.cons.inj tail
        simp_all

theorem sep_notMem_repr (n : ℤ) : '#' ∉ n.repr.toList := by
  have digits : ∀ k : ℕ, '#' ∉ k.repr.toList := by
    intro k mem
    rw [Nat.repr, String.toList_ofList] at mem
    exact absurd (Nat.isDigit_of_mem_toDigits (by decide) (by decide) mem) (by decide)
  cases n with
  | ofNat k => exact digits k
  | negSucc k =>
      rw [Int.repr, String.toList_append, List.mem_append, not_or]
      exact ⟨by decide, digits _⟩

theorem executionIdFor_inj {responseId responseId' : String} {toolSeq toolSeq' : ℤ} :
    executionIdFor responseId toolSeq = executionIdFor responseId' toolSeq'
      ↔ responseId = responseId' ∧ toolSeq = toolSeq' := by
  constructor
  · intro same
    have texts := congrArg String.toList same
    simp only [executionIdFor, String.toList_append, List.append_assoc] at texts
    obtain ⟨response, seq⟩ := append_sep_inj (sep_notMem_repr _) (sep_notMem_repr _) texts
    exact ⟨String.ext response, Int.repr_inj.mp (String.ext seq)⟩
  · rintro ⟨rfl, rfl⟩
    rfl

/-- A row of `tool_executions`, with the columns that say what happened to the call. -/
structure ToolExecutionRow where
  responseId : String
  toolSeq : ℤ
  workspaceId : String
  status : String
  approval : ApprovalState
  idempotencyKey : String
  deriving DecidableEq, Repr

/-- The rows of hosted tools under their `execution_id`.  The rows of function calls, which stand
in the same table with a place below zero, are not read by these functions. -/
abbrev ToolExecutions := String → Option ToolExecutionRow

namespace ToolExecutions

variable (table : ToolExecutions)

/-- `record`. -/
def record (row : ToolExecutionRow) : ToolExecutions :=
  Function.update table (executionIdFor row.responseId row.toolSeq) (some row)

/-- `set_approval`: an empty `workspace_id` is no condition. -/
def setApproval (responseId : String) (toolSeq : ℤ) (decision : ApprovalState)
    (workspaceId : String) : ToolExecutions :=
  match table (executionIdFor responseId toolSeq) with
  | some row =>
    if workspaceId = "" ∨ row.workspaceId = workspaceId then
      Function.update table (executionIdFor responseId toolSeq)
        (some { row with approval := decision })
    else table
  | none => table

/-- The row `get_for_response` gives for a place; places below zero are not read. -/
def getForResponse (responseId : String) (toolSeq : ℤ) (workspaceId : String) :
    Option ToolExecutionRow :=
  (table (executionIdFor responseId toolSeq)).filter fun row =>
    row.workspaceId = workspaceId ∧ 0 ≤ toolSeq

end ToolExecutions

end Zhongzhuan.Store
