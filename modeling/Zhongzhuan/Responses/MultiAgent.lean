import Zhongzhuan.Kit.Json
import Zhongzhuan.Protocol.Models

/-!
# The items of the multi-agent protocol

The constants of `responses_v3/multi_agent.py` and the output items it builds for the
pipeline: the rewritten `tool_search` call, and the answer to it in server mode.  The
orchestrator's `handle` is a parameter of the pipeline.
-/

namespace Zhongzhuan.Responses

open Kit

/-- `MULTI_AGENT_NAMESPACE`. -/
def multiAgentNamespace : String := "multi_agent_v1"

/-- `TOOL_SEARCH_NAME`. -/
def toolSearchName : String := "tool_search"

/-- `MULTI_AGENT_TOOLS`. -/
def multiAgentTools : List String :=
  ["spawn_agent", "send_input", "resume_agent", "wait_agent", "close_agent"]

/-- `_spawn_agent_description`. -/
def spawnAgentDescription : String :=
  "Spawn a sub-agent to handle a delegated, self-contained task in parallel.\n\n" ++
  "### Designing delegated subtasks\n" ++
  "Break the user's request into independent, well-scoped subtasks that can\n" ++
  "run concurrently. Each sub-agent gets a single, unambiguous instruction and\n" ++
  "its own model (override via the `model` argument, otherwise it inherits the\n" ++
  "parent's model). Prefer spawning 2-4 sub-agents for genuinely parallel work;\n" ++
  "do not spawn agents for trivial or tightly-coupled steps.\n\n" ++
  "### When to delegate vs. do the subtask yourself\n" ++
  "Delegate when the work is independent and can be produced without the main\n" ++
  "thread's intermediate state. Do the subtask yourself when it depends on\n" ++
  "prior turns, requires the user's direct input, or must stay on the critical\n" ++
  "path. Always wait for every spawned agent and aggregate their results before\n" ++
  "replying to the user."

/-- The description of each sub-tool. -/
def toolDescription (name : String) : String :=
  if name = "spawn_agent" then spawnAgentDescription
  else if name = "send_input" then
    "Send additional input / a follow-up message to a running sub-agent."
  else if name = "resume_agent" then "Resume a sub-agent from a prior rollout."
  else if name = "wait_agent" then
    "Block until the specified sub-agent finishes, then return its result."
  else if name = "close_agent" then "Close a sub-agent and release its resources."
  else ""

/-- `build_multi_agent_namespace_tools`. -/
def buildMultiAgentNamespaceTools : List Json :=
  multiAgentTools.map fun name =>
    .obj [("type", .str "function"), ("name", .str name), ("defer_loading", .bool true),
      ("description", .str (toolDescription name))]

/-- `build_multi_agent_namespace_container`. -/
def buildMultiAgentNamespaceContainer : Json :=
  .obj [("type", .str "namespace"), ("name", .str multiAgentNamespace),
    ("tools", .arr buildMultiAgentNamespaceTools)]

/-- `response_id or "resp"`. -/
def responseIdOr (responseId : String) : String :=
  if responseId = "" then "resp" else responseId

/-- `build_tool_search_call`. -/
def buildToolSearchCall (outputIndex : ℕ) (callId arguments responseId : String) : Fields :=
  [("id", .str ("tsc_" ++ responseIdOr responseId ++ "_" ++ toString outputIndex)),
    ("type", .str "tool_search_call"),
    ("call_id", .str callId),
    ("execution", .str "client"),
    ("name", .str toolSearchName),
    ("arguments", .str (if arguments = "" then "\x7b\x7d" else arguments)),
    ("status", .str "completed")]

/-- A field that is left out when it is `None`. -/
def optionalField (key : String) : Option Json → Fields
  | none | some .null => []
  | some v => [(key, v)]

/-- `build_tool_search_function_call_output`. -/
def buildToolSearchFunctionCallOutput (outputIndex : ℕ) (callId responseId : String)
    (query limit : Option Json) : Fields :=
  [("id", .str ("fco_" ++ responseIdOr responseId ++ "_" ++ toString outputIndex)),
    ("type", .str "function_call_output"),
    ("status", .str "completed"),
    ("call_id", .str callId),
    ("output", .str (dumps (.obj [("tools", .arr [buildMultiAgentNamespaceContainer])])))]
    ++ optionalField "query" query ++ optionalField "limit" limit

end Zhongzhuan.Responses
