import Zhongzhuan.Kit.Json
import Zhongzhuan.Kit.Text

/-!
# The patch of empty `spawn_agent` arguments

The model of `responses_v3/args_patch.py` as far as the pipeline calls it.

* `detectRoleTag` finds a role mark such as `[explorer]`, at the front of a text first and
  anywhere in it otherwise.
* `patchSpawnAgentArguments` keeps arguments that carry a message, moves a message out of
  a non-standard field, or makes one from the user's text; `none` is its refusal.

The source lowers a text with `str.lower` before it looks for a mark.  Every mark consists
of ASCII letters that no character outside ASCII is lowered to, so lowering the ASCII
letters finds the same marks at the same places.
-/

namespace Zhongzhuan.Responses

open Kit

/-- `ROLE_MODEL_MAP`, in its order. -/
def roleModelMap : List (String × String) :=
  [("explorer", "juhe/deepseek-v4-flash"), ("tester", "juhe/deepseek-v4-flash"),
    ("implementer", "juhe/glm-5.2"), ("docwriter", "juhe/qwen3.7-flash"),
    ("scrubber", "juhe/agnes-2.5-flash")]

/-- `_ANTI_RECURSE_SUFFIX`. -/
def antiRecurseSuffix : String :=
  "\n\n(独立完成任务并直接回报结果，不要再次调用 spawn_agent 派生子代理。)"

/-- `text.lower()`, on the letters a role mark can have. -/
def lower (text : String) : List Char := text.toList.map Char.toLower

/-- The mark of a role. -/
def roleMark (tag : String) : List Char := ("[" ++ tag ++ "]").toList

/-- `detect_role_tag`: role and model, both empty when there is no mark. -/
def detectRoleTag (text : String) : String × String :=
  let low := lower text
  match roleModelMap.find? fun role => (roleMark role.1).isPrefixOf low with
  | some role => role
  | none =>
    match roleModelMap.find? fun role => isInfix (roleMark role.1) low with
    | some role => role
    | none => ("", "")

/-- `inject_role_model`: the first text with a mark decides. -/
def injectRoleModel (args : Fields) : List String → Fields
  | [] => args
  | text :: texts =>
    let role := detectRoleTag text
    if role.1 = "" then injectRoleModel args texts
    else (args.put "model" (.str role.2)).put "agent_type" (.str role.1)

/-- `_strip_leading_role_tag`. -/
def stripLeadingRoleTag (msg : String) : String :=
  match roleModelMap.find? fun role => (roleMark role.1).isPrefixOf (lower msg) with
  | some role => lstripText (dropText (roleMark role.1).length msg)
  | none => msg

/-- A field that is a string with more than white space in it, stripped. -/
def nonblankField (args : Fields) (key : String) : Option String :=
  match args.get key with
  | some (.str text) => if stripText text = "" then none else some (stripText text)
  | _ => none

/-- `"message" not in out or not str(out.get("message") or "").strip()`. -/
def lacksMessage (args : Fields) : Bool :=
  match args.get "message" with
  | none => true
  | some (.str text) => stripText text = ""
  | some v => !v.truthy

/-- The fields `_migrate_nonstandard_fields` looks at, in its order. -/
def migratedFields : List String :=
  ["instruction", "task", "name", "description", "content", "prompt"]

/-- `_migrate_nonstandard_fields`. -/
def migrateNonstandardFields (args : Fields) : Option Fields :=
  migratedFields.findSome? fun key =>
    match nonblankField args key with
    | some text => if lacksMessage args then some (args.put "message" (.str text)) else none
    | none => none

/-- A JSON object read from a text; what is not an object counts as empty, and an exception
other than `ValueError` and `TypeError` passes through. -/
def objectOf (loads : String → Loaded) (text : String) : Except String Fields :=
  match loads text with
  | .value (.obj fields) => .ok fields
  | .value _ | .rejected => .ok []
  | .raised message => .error message

/-- `patch_spawn_agent_arguments` on a string of arguments. -/
def patchSpawnAgentArguments (loads : String → Loaded)
    (rawArgs lastUserText leaderText : String) :
    Except String (Option Fields) := do
  let args : Fields ← if stripText rawArgs = "" then .ok [] else objectOf loads rawArgs
  if (nonblankField args "message").isSome then return some args
  match migrateNonstandardFields args with
  | some migrated =>
    let message := (nonblankField migrated "message").getD ""
    return some (injectRoleModel migrated [message, leaderText])
  | none =>
    let base := stripText lastUserText
    if base = "" then return none
    let patched := args.put "message" (.str (stripLeadingRoleTag base ++ antiRecurseSuffix))
    return some (injectRoleModel patched [leaderText, base])

end Zhongzhuan.Responses
