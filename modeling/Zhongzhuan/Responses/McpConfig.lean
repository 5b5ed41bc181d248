import Zhongzhuan.Kit.Json
import Zhongzhuan.Store.ToolExecutions

/-!
# `McpServerConfig` and the gates of `call_tool`

The parts of `responses_v3/mcp_client.py` that decide whether a call may go on to the remote
tool: the list of allowed tools, the approval policy in its three forms, and the flag of the
caller, which is checked against the stored approval.

`str` on the names of a policy is a parameter.
-/

namespace Zhongzhuan.Responses

open Kit Store

/-- `McpServerConfig`, without the address; `require_approval` is whatever the client sent. -/
structure McpServerConfig where
  serverLabel : String
  requireApproval : Json
  allowedTools : List String
  deriving DecidableEq

namespace McpServerConfig

variable (str : Json → String) (config : McpServerConfig) (toolName : String)

/-- `tool_allowed`. -/
def toolAllowed : Bool := config.allowedTools.isEmpty || toolName ∈ config.allowedTools

/-- `_policy_names`. -/
def policyNames : Option Json → List String
  | some (.obj fields) =>
    match Fields.get fields "tool_names" with
    | some (.arr names) => names.map str
    | _ => []
  | _ => []

/-- `approval_required`: what is not recognised requires it. -/
def approvalRequired : Bool :=
  match config.requireApproval with
  | .str policy => (stripText policy).toList.map Char.toLower ≠ "never".toList
  | .obj policy =>
    if toolName ∈ policyNames str (Fields.get policy "never") then false
    else
      let always := policyNames str (Fields.get policy "always")
      always.isEmpty || toolName ∈ always
  | _ => true

end McpServerConfig

/-- The arguments of a `call_tool` that its gates and its lease read. -/
structure McpCall where
  config : McpServerConfig
  responseId : String
  toolSeq : ℤ
  name : String
  arguments : Fields
  workspaceId : String
  idempotencyKey : String
  approved : Option Bool
  deriving DecidableEq

/-- The ways in which a gate ends a call. -/
inductive Refusal
  | notAllowed
  | pendingApproval
  | rejected
  deriving DecidableEq

namespace McpCall

variable (str : Json → String) (call : McpCall)

/-- `approval_required` for the tool of the call. -/
def needsApproval : Bool := call.config.approvalRequired str call.name

/-- The flag of the caller as far as it stands: `True` only counts with a stored approval, which
is asked for where the call has a place. -/
def effectiveApproval (persisted : ApprovalState) : Option Bool :=
  if call.needsApproval str = true ∧ call.approved = some true ∧ 0 ≤ call.toolSeq
      ∧ persisted ≠ .approved then none
  else call.approved

/-- The gates, given what `_persisted_approval` returns. -/
def gate (persisted : ApprovalState) : Option Refusal :=
  if call.config.toolAllowed call.name = false then some .notAllowed
  else if call.needsApproval str = false then none
  else
    match call.effectiveApproval str persisted with
    | none => some .pendingApproval
    | some true => none
    | some false => some .rejected

/-- **A call that needs an approval passes with the flag only, and with a stored approval where it
has a place.** -/
theorem gate_eq_none_of_needsApproval {persisted : ApprovalState}
    (passed : call.gate str persisted = none) (needs : call.needsApproval str = true) :
    call.approved = some true ∧ (0 ≤ call.toolSeq → persisted = .approved) := by
  unfold gate effectiveApproval at passed
  split at passed
  case isTrue _ => cases passed
  case isFalse _ =>
    rw [if_neg (by simp [needs])] at passed
    by_cases fall : call.needsApproval str = true ∧ call.approved = some true ∧ 0 ≤ call.toolSeq
        ∧ persisted ≠ .approved
    · simp [fall] at passed
    · rw [if_neg fall] at passed
      have flag : call.approved = some true := by
        rcases approved : call.approved with _ | _ | _ <;> simp_all
      refine ⟨flag, fun place => ?_⟩
      by_contra other
      exact fall ⟨needs, flag, place, other⟩

end McpCall

end Zhongzhuan.Responses
