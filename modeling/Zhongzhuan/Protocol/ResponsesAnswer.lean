import Zhongzhuan.Protocol.ItemRegistry
import Zhongzhuan.Protocol.StreamO2A
import Zhongzhuan.Protocol.ToolAccumulator

/-!
# From a chat answer to a Responses object

The model of `chatcompletions_to_responses` in `proxy/protocol/responses.py`, for an answer that
comes as one body.  `none` is an exception on a value that has another shape than the code
expects.
-/

namespace Zhongzhuan.Protocol

open Kit

/-- What the conversion calls: the clock, and `str` on a value that is no string. -/
structure AnswerEnv where
  /-- `int(time.time())`. -/
  now : ℤ
  strOf : Json → String

/-- `d.get(key) or []`, which has to be a list; the items of any other true value are not
objects. -/
def listOr (value : Option Json) : Option (List Json) :=
  match nonempty value with
  | none => some []
  | some (.arr items) => some items
  | some _ => none

section Answer

variable (env : AnswerEnv)

/-- `str(v)`. -/
def pyStr : Json → String
  | .str text => text
  | value => env.strOf value

/-- The message item of an answer with a text. -/
def messageItem (msgIdBase content : String) : Json :=
  .obj [("id", .str ("msg_" ++ msgIdBase ++ "_0")), ("type", .str "message"),
    ("role", .str "assistant"),
    ("content", .arr [.obj [("type", .str "output_text"), ("text", .str content),
      ("annotations", .arr [])]]),
    ("status", .str "completed")]

/-- The item of one entry of `tool_calls`. -/
def callItem : Json → Option Json
  | .obj tc =>
    (objectOr (Fields.get tc "function")).map fun fn =>
      let flatName := strOr env.strOf (fn.get "name")
      let split := splitNamespaceName flatName
      let id := (Fields.get tc "id").getD (.str "")
      .obj ([("id", .str ("fc_" ++ pyStr env id)), ("type", .str "function_call"),
        ("call_id", id), ("name", .str (if split.1 = "" then flatName else split.2)),
        ("arguments", (fn.get "arguments").getD (.str "\x7b\x7d")),
        ("status", .str "completed")]
        ++ if split.1 = "" then [] else [("namespace", .str split.1)])
  | _ => none

/-- The loop over `tool_calls`. -/
def callItems : List Json → Option (List Json)
  | [] => some []
  | tc :: tcs => (callItem env tc).bind fun item => (callItems tcs).map (item :: ·)

/-- `choices[0].message`. -/
def answerMessage (resp : Fields) : Option Fields :=
  match nonempty (resp.get "choices") with
  | none => some []
  | some (.arr (choice :: _)) =>
    (objectOr (some choice)).bind fun choice => objectOr (choice.get "message")
  | some _ => none

/-- `chatcompletions_to_responses` of an object. -/
def chatcompletionsToResponses (resp : Fields) (model : String) : Option Fields :=
  (answerMessage resp).bind fun message =>
    let respId := strOr env.strOf (resp.get "id")
    let msgIdBase := "resp_" ++ if respId = "" then toString env.now else respId
    let spoken := match message.get "content" with
      | some (.str content) => if content = "" then [] else [messageItem msgIdBase content]
      | _ => []
    (listOr (message.get "tool_calls")).bind fun tcs =>
      (callItems env tcs).bind fun calls =>
        (objectOr (resp.get "usage")).map fun usage =>
          let count (key : String) : Json := (usage.get key).getD (.int 0)
          [("id", .str msgIdBase), ("object", .str "response"),
            ("created_at", (resp.get "created").getD (.int env.now)),
            ("status", .str "completed"),
            ("model", if model = "" then (resp.get "model").getD (.str "") else .str model),
            ("output", .arr (spoken ++ calls)),
            ("usage", .obj [("input_tokens", count "prompt_tokens"),
              ("output_tokens", count "completion_tokens"),
              ("total_tokens", count "total_tokens")])]

end Answer

end Zhongzhuan.Protocol
