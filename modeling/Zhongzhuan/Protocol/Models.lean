import Mathlib

/-!
# Shared constants of the Responses bridge

The enumerations and identifier formats of `proxy/protocol/responses_models.py`
that the pipeline, the background worker and the store have in common.
-/

namespace Zhongzhuan.Protocol

/-- `TerminalReason`: why a response stream ended. -/
inductive TerminalReason
  | normalFinish
  | maxToolRounds
  | maxTotalToolCalls
  | repeatedToolCall
  | repeatedToolFailure
  | maxResponseTime
  | maxOutputBudget
  | responseChainCycle
  | responseChainTooDeep
  | retryBudgetExhausted
  | backgroundBudgetExhausted
  | upstreamTruncated
  | invalidToolArguments
  | capabilityRouteUnavailable
  | clientDisconnected
  | upstreamError
  | cancelledByClient
  | upstreamConnect
  | firstTokenTimeout
  | readIdleTimeout
deriving DecidableEq, Repr

/-- The string the enumeration member is persisted as. -/
def TerminalReason.value : TerminalReason → String
  | .normalFinish => "normal_finish"
  | .maxToolRounds => "max_tool_rounds"
  | .maxTotalToolCalls => "max_total_tool_calls"
  | .repeatedToolCall => "repeated_tool_call"
  | .repeatedToolFailure => "repeated_tool_failure"
  | .maxResponseTime => "max_response_time"
  | .maxOutputBudget => "max_output_budget"
  | .responseChainCycle => "response_chain_cycle"
  | .responseChainTooDeep => "response_chain_too_deep"
  | .retryBudgetExhausted => "retry_budget_exhausted"
  | .backgroundBudgetExhausted => "background_budget_exhausted"
  | .upstreamTruncated => "upstream_truncated"
  | .invalidToolArguments => "invalid_tool_arguments"
  | .capabilityRouteUnavailable => "capability_route_unavailable"
  | .clientDisconnected => "client_disconnected"
  | .upstreamError => "upstream_error"
  | .cancelledByClient => "cancelled_by_client"
  | .upstreamConnect => "upstream_connect"
  | .firstTokenTimeout => "first_token_timeout"
  | .readIdleTimeout => "read_idle_timeout"

/-- `TIMEOUT_REASONS`. -/
def TerminalReason.isTimeout : TerminalReason → Bool
  | .upstreamConnect | .firstTokenTimeout | .readIdleTimeout | .maxResponseTime => true
  | _ => false

/-- `make_message_item_id`. -/
def makeMessageItemId (responseId : String) (outputIndex : ℕ) : String :=
  "msg_" ++ responseId ++ "_" ++ toString outputIndex

/-- `make_reasoning_item_id`, which the pipeline spells out in place. -/
def makeReasoningItemId (responseId : String) (outputIndex : ℕ) : String :=
  "rs_" ++ responseId ++ "_" ++ toString outputIndex

/-- `make_function_call_item_id`, the form derived from the call id. -/
def makeFunctionCallItemId (callId : String) : String :=
  "fc_" ++ callId

/-- `make_function_call_item_id_stable`, fixed when the call is first seen. -/
def makeFunctionCallItemIdStable (responseId : String) (outputIndex : ℕ) : String :=
  "fc_" ++ responseId ++ "_" ++ toString outputIndex

/-- `make_synthetic_call_id`, for an upstream that never sends one. -/
def makeSyntheticCallId (responseId : String) (sourceIndex : ℤ) : String :=
  "call_" ++ responseId ++ "_" ++ toString sourceIndex

end Zhongzhuan.Protocol
