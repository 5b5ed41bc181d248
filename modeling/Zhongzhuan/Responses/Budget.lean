import Mathlib
import Zhongzhuan.Kit.Dict
import Zhongzhuan.Kit.Json
import Zhongzhuan.Kit.Text
import Zhongzhuan.Protocol.Models

/-!
# The budget of one response

The model of `ExecutionBudget` and `BudgetLedger` in `responses_v3/budget.py`, as far as the
background worker charges it.  A charge is applied before it is compared, so that a ceiling
of `n` permits exactly `n` units.

* `toolSignature` identifies a call: its name and the canonical form of its arguments.
  `sha256` is the parameter `digest`; `json.loads` can raise, and then the charge does.
* `chargeRound`, `chargeToolCall`, `chargeToolResult`, `chargeOutputTokens` and
  `checkWallTime` return the ledger they leave and the ceiling they hit.

The counters of chain depth and upstream switches have no caller in the worker and are left
out.
-/

namespace Zhongzhuan.Responses

open Kit Protocol

/-! ## Signatures -/

mutual

/-- `canonical_json`: sorted keys, no padding. -/
def canonicalJson : Json → String
  | .null => "null"
  | .bool b => if b then "true" else "false"
  | .int n => toString n
  | .float text => text
  | .str text => quote text
  | .arr items => "[" ++ ",".intercalate (canonicalItems items) ++ "]"
  | .obj fields =>
    "\x7b" ++ ",".intercalate
      (((canonicalFields fields).insertionSort fun a b => a.1 ≤ b.1).map fun field =>
        quote field.1 ++ ":" ++ field.2) ++ "\x7d"

/-- The items of an array, each in its canonical form. -/
def canonicalItems : List Json → List String
  | [] => []
  | v :: rest => canonicalJson v :: canonicalItems rest

/-- The values of an object, each in its canonical form. -/
def canonicalFields : List (String × Json) → List (String × String)
  | [] => []
  | (k, v) :: rest => (k, canonicalJson v) :: canonicalFields rest

end

/-- `" ".join(text.split())`. -/
def collapseSpace (text : String) : String :=
  " ".intercalate
    (((text.toList.splitOnP isSpace).filter fun word => !word.isEmpty).map String.ofList)

/-- `_canonical_arguments` on a string: key order, white space and `call_id` do not count. -/
def canonicalArguments (loads : String → Loaded) (arguments : String) : Except String String :=
  let text := stripText arguments
  if text = "" then .ok (canonicalJson (.obj []))
  else
    match loads text with
    | .raised message => .error message
    | .rejected => .ok (collapseSpace text)
    | .value (.obj fields) => .ok (canonicalJson (.obj (Fields.without fields "call_id")))
    | .value v => .ok (canonicalJson v)

/-- `tool_signature` of a call whose outcome is not known yet. -/
def toolSignature (loads : String → Loaded) (digest : String → String)
    (name arguments : String) : Except String String := do
  let canonical ← canonicalArguments loads arguments
  return digest (name ++ "\x00" ++ canonical ++ "\x00")

/-! ## The ledger -/

/-- `ExecutionBudget`; there is no way to write an unlimited wall time. -/
structure ExecutionBudget where
  maxToolRounds : ℕ := 32
  maxCallsPerTool : ℕ := 8
  maxIdenticalCallRepeats : ℕ := 2
  maxTotalToolCalls : ℕ := 64
  maxWallTimeSeconds : ℕ := 900
  maxOutputTokensTotal : ℕ := 200000
  wall_pos : 0 < maxWallTimeSeconds := by decide

/-- `BACKGROUND_BUDGET`. -/
def backgroundBudget : ExecutionBudget where
  maxWallTimeSeconds := 3600

/-- `BudgetLedger`. -/
structure BudgetLedger where
  toolRounds : ℕ := 0
  totalToolCalls : ℕ := 0
  callsPerTool : Dict String ℕ := .empty
  identicalSignatures : Dict String ℕ := .empty
  failureSignatures : Dict String ℕ := .empty
  outputTokens : ℤ := 0

/-- `counts[key] = counts.get(key, 0) + 1`. -/
def countOne (counts : Dict String ℕ) (key : String) : Dict String ℕ :=
  counts.set key ((counts.get? key).getD 0 + 1)

/-- The reason of a ceiling that was crossed. -/
def crossed (beyond : Bool) (reason : TerminalReason) : Option TerminalReason :=
  if beyond then some reason else none

namespace BudgetLedger

variable (budget : ExecutionBudget)

/-- `charge_round`. -/
def chargeRound (ledger : BudgetLedger) : BudgetLedger × Option TerminalReason :=
  let ledger := { ledger with toolRounds := ledger.toolRounds + 1 }
  (ledger, crossed (budget.maxToolRounds < ledger.toolRounds) .maxToolRounds)

/-- `charge_tool_call`, by the signature of the call.  The most specific diagnosis wins. -/
def chargeToolCall (ledger : BudgetLedger) (signature name : String) :
    BudgetLedger × Option TerminalReason :=
  let ledger := { ledger with
    identicalSignatures := countOne ledger.identicalSignatures signature
    callsPerTool := countOne ledger.callsPerTool name
    totalToolCalls := ledger.totalToolCalls + 1 }
  let repeats := (ledger.identicalSignatures.get? signature).getD 0
  let calls := (ledger.callsPerTool.get? name).getD 0
  (ledger,
    if budget.maxIdenticalCallRepeats < repeats then some .repeatedToolCall
    else if budget.maxCallsPerTool < calls then some .repeatedToolCall
    else crossed (budget.maxTotalToolCalls < ledger.totalToolCalls) .maxTotalToolCalls)

/-- `charge_tool_result`; a success is free. -/
def chargeToolResult (ledger : BudgetLedger) (signature : String) (failed : Bool) :
    BudgetLedger × Option TerminalReason :=
  if !failed then (ledger, none)
  else
    let ledger := { ledger with
      failureSignatures := countOne ledger.failureSignatures signature }
    let repeats := (ledger.failureSignatures.get? signature).getD 0
    (ledger, crossed (budget.maxIdenticalCallRepeats < repeats) .repeatedToolFailure)

/-- `charge_output_tokens`. -/
def chargeOutputTokens (ledger : BudgetLedger) (n : ℤ) : BudgetLedger × Option TerminalReason :=
  let ledger := { ledger with outputTokens := ledger.outputTokens + n }
  (ledger, crossed (budget.maxOutputTokensTotal < ledger.outputTokens) .maxOutputBudget)

/-- `check_wall_time`, on the seconds since the ledger was opened. -/
def checkWallTime (elapsed : ℚ) : Option TerminalReason :=
  crossed (budget.maxWallTimeSeconds < elapsed) .maxResponseTime

end BudgetLedger

end Zhongzhuan.Responses
