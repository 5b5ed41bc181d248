import Zhongzhuan.Protocol.ResponsesRequest

/-!
# Requests between Anthropic and OpenAI

The model of `translate_request_a2o` (`proxy/protocol/translate_a2o.py`) and `translate_request_o2a`
(`proxy/protocol/translate_o2a.py`).  A body comes from `json.loads`; `none` is an exception
(`AttributeError`, `TypeError`) on a value that has another shape than the code expects.

* `convertContentBlocksA2O` and `convertToolResultsA2O` take the blocks of a message apart,
  `convertContentO2A` makes blocks of the content of a message.
* `mergeConsecutiveSameRole` puts neighbours of one role together.  The contents it is given are
  lists.

What is only written to the log (the fields that have no counterpart) is left out.
-/

namespace Zhongzhuan.Protocol

open Kit

variable (env : RequestEnv)

/-- `str(v)`. -/
def RequestEnv.textOf : Json → String
  | .str text => text
  | v => env.strOf v

/-- The items that a loop over `value or []` finds that may be objects; a number has none. -/
def itemsOr (value : Option Json) : Option (List Json) :=
  match value.filter Json.truthy with
  | none | some (.str _) | some (.obj _) => some []
  | some (.arr items) => some items
  | some _ => none

/-- `value or {}` where `.get` is called on the result. -/
def fieldsOr (value : Option Json) : Option Fields :=
  match value.filter Json.truthy with
  | none => some []
  | some (.obj fields) => some fields
  | some _ => none

/-- A field that is there and not `None`. -/
def givenField (fields : Fields) (key : String) : Option Json :=
  (fields.get key).filter (· ≠ .null)

/-! ## From Anthropic to OpenAI -/

/-- `_system_to_text`. -/
def systemToText : Json → String
  | .null => ""
  | .str text => text
  | .arr blocks =>
    "\n".intercalate (blocks.filterMap fun block =>
      match block with
      | .obj fields => (Fields.get fields "text").map env.textOf
      | _ => none)
  | system => env.strOf system

/-- The lists that `_convert_content_blocks_a2o` fills. -/
structure ConvertedBlocks where
  textParts : List String := []
  parts : List Json := []
  hasImage : Bool := false
  toolCalls : List Json := []
deriving DecidableEq

namespace ConvertedBlocks

variable (c : ConvertedBlocks)

/-- A text is added to both lists. -/
def addText (text : String) : ConvertedBlocks :=
  { c with
    textParts := c.textParts ++ [text]
    parts := c.parts ++ [.obj [("type", .str "text"), ("text", .str text)]] }

/-- The URL of an image. -/
def imageUrl (source : Fields) : Json :=
  if source.get "type" = some (.str "base64") then
    .str ("data:" ++ env.textOf ((source.get "media_type").getD (.str "image/png")) ++ ";base64,"
      ++ env.textOf ((source.get "data").getD (.str "")))
  else (source.get "url").getD (.str "")

/-- An image. -/
def addImage (source : Fields) : ConvertedBlocks :=
  { c with
    hasImage := true
    parts := c.parts ++ [.obj [("type", .str "image_url"),
      ("image_url", .obj [("url", imageUrl env source)])]] }

/-- A tool call. -/
def addToolUse (block : Fields) : ConvertedBlocks :=
  { c with
    toolCalls := c.toolCalls ++ [.obj [("id", (block.get "id").getD (.str "")),
      ("type", .str "function"), ("function", .obj [("name", (block.get "name").getD (.str "")),
        ("arguments", .str (dumps ((trueField block "input").getD (.obj []))))])]] }

/-- One round of the loop over the blocks. -/
def step (role : Json) : Json → Option ConvertedBlocks
  | .obj block =>
    let type := Fields.get block "type"
    let text := env.textOf ((Fields.get block "text").getD (.str ""))
    if type = some (.str "text") then some (c.addText text)
    else if type = some (.str "image") then
      (fieldsOr (Fields.get block "source")).map (c.addImage env)
    else if type = some (.str "tool_use") ∧ role = .str "assistant" then some (c.addToolUse block)
    else if type = some (.str "tool_result") ∧ role = .str "user" then some c
    else if (Fields.get block "text").isSome then some (c.addText text)
    else some c
  | _ => some c

/-- The content and the tool calls; a content of `None` is `null`. -/
def content : Json :=
  if c.hasImage then if c.parts = [] then .null else .arr c.parts
  else if c.textParts = [] then .null else .str (String.join c.textParts)

end ConvertedBlocks

/-- `_convert_content_blocks_a2o`. -/
def convertContentBlocksA2O (role : Json) (blocks : List Json) : Option ConvertedBlocks :=
  blocks.foldlM (fun c block => c.step env role block) {}

/-- The text of a part of a `tool_result`. -/
def toolResultPart : Json → Option String
  | .obj sub =>
    if Fields.get sub "type" = some (.str "text") then
      some (env.textOf ((Fields.get sub "text").getD (.str "")))
    else none
  | .str text => some text
  | _ => none

/-- The content of a `tool_result`. -/
def toolResultContent (block : Fields) : String :=
  let text := match block.get "content" with
    | some (.arr subs) => String.join (subs.filterMap (toolResultPart env))
    | some (.str text) => text
    | none | some .null => ""
    | some content => dumps content
  match trueField block "is_error" with
  | none => text
  | some _ =>
    if text = "" then "Error: (tool reported failure without detail)"
    else if startsWith text "Error: " then text
    else "Error: " ++ text

/-- `_convert_tool_results_a2o`. -/
def convertToolResultsA2O (blocks : List Json) : List Json :=
  blocks.filterMap fun block =>
    match block with
    | .obj fields =>
      if Fields.get fields "type" = some (.str "tool_result") then
        some (.obj [("role", .str "tool"),
          ("tool_call_id", (Fields.get fields "tool_use_id").getD (.str "")),
          ("content", .str (toolResultContent env fields))])
      else none
    | _ => none

/-- `_convert_tools_a2o`. -/
def convertToolsA2O (tools : Json) : Option (List Json) :=
  (itemsOr (some tools)).map fun tools => tools.filterMap fun tool =>
    match tool with
    | .obj fields =>
      some (.obj [("type", .str "function"), ("function", .obj
        ([("name", (Fields.get fields "name").getD (.str ""))]
          ++ (Fields.get fields "description").toList.map (("description", ·))
          ++ (Fields.get fields "input_schema").toList.map (("parameters", ·))))])
    | _ => none

/-- `_convert_tool_choice_a2o`. -/
def convertToolChoiceA2O : Json → Option Json
  | .str choice => some (.str choice)
  | .obj choice =>
    let type := Fields.get choice "type"
    if type = some (.str "auto") then some (.str "auto")
    else if type = some (.str "any") then some (.str "required")
    else if type = some (.str "tool") then
      some (.obj [("type", .str "function"),
        ("function", .obj [("name", (Fields.get choice "name").getD (.str ""))])])
    else if type = some (.str "none") then some (.str "none")
    else none
  | _ => none

/-- The messages for one message. -/
def convertMessageA2O : Json → Option (List Json)
  | .obj msg =>
    let role := (Fields.get msg "role").getD (.str "user")
    match Fields.get msg "content" with
    | some (.str content) => some [.obj [("role", role), ("content", .str content)]]
    | some (.arr blocks) =>
      (convertContentBlocksA2O env role blocks).map fun c =>
        convertToolResultsA2O env blocks
          ++ (if role = .str "assistant" then
              if c.content = .null ∧ c.toolCalls = [] then []
              else [.obj ([("role", .str "assistant"), ("content", c.content)]
                ++ if c.toolCalls = [] then [] else [("tool_calls", .arr c.toolCalls)])]
            else if c.content = .null then []
            else [.obj [("role", .str "user"), ("content", c.content)]])
    | _ => some [.obj [("role", role), ("content", .null)]]
  | _ => some []

/-- The loop over the messages. -/
def convertMessagesA2O (messages : List Json) : Option (List Json) :=
  (messages.mapM (convertMessageA2O env)).map List.flatten

/-- The message for the system text. -/
def systemMessageA2O (body : Fields) : List Json :=
  match body.get "system" with
  | none | some .null => []
  | some system =>
    if systemToText env system = "" then []
    else [.obj [("role", .str "system"), ("content", .str (systemToText env system))]]

/-- A field under the name it gets, if it is there. -/
def renamed (value : Option Json) (key : String) : Fields := value.toList.map ((key, ·))

/-- `metadata.user_id`. -/
def userOf (body : Fields) : Option Json :=
  match body.get "metadata" with
  | some (.obj metadata) => trueField metadata "user_id"
  | _ => none

/-- `translate_request_a2o`. -/
def translateRequestA2O (maxTokensDefault : ℤ) (body : Fields) : Option Fields := do
  let messages ← convertMessagesA2O env (← itemsOr (body.get "messages"))
  let tools ← (trueField body "tools").mapM convertToolsA2O
  return renamed (body.get "model") "model"
    ++ [("messages", .arr (systemMessageA2O env body ++ messages)),
      ("max_tokens", (givenField body "max_tokens").getD (.int maxTokensDefault))]
    ++ renamed (givenField body "temperature") "temperature"
    ++ renamed (givenField body "top_p") "top_p"
    ++ renamed (trueField body "stop_sequences") "stop"
    ++ renamed ((body.get "stream").map fun stream => .bool stream.truthy) "stream"
    ++ renamed (tools.map .arr) "tools"
    ++ renamed ((givenField body "tool_choice").bind convertToolChoiceA2O) "tool_choice"
    ++ renamed (userOf body) "user"

/-! ## From OpenAI to Anthropic -/

/-- `_content_to_text`. -/
def contentToText : Json → String
  | .null => ""
  | .str text => text
  | .arr parts =>
    String.join (parts.filterMap fun part =>
      match part with
      | .obj fields => (Fields.get fields "text").map env.textOf
      | .str text => some text
      | _ => none)
  | content => env.strOf content

/-- A text block. -/
def textBlock (text : String) : Json := .obj [("type", .str "text"), ("text", .str text)]

/-- The media type that a data URL has between `data:` and the first `;` or `,`. -/
def mediaTypeOf (url : List Char) : String :=
  let header := url.takeWhile (· ≠ ',')
  let mime := (header.drop 5).takeWhile (· ≠ ';')
  if mime = [] then "image/png" else String.ofList mime

/-- The source of an image. -/
def imageSource (url : String) : Json :=
  if startsWith url "data:" then
    .obj [("type", .str "base64"), ("media_type", .str (mediaTypeOf url.toList)),
      ("data", .str (String.ofList ((url.toList.dropWhile (· ≠ ',')).drop 1)))]
  else .obj [("type", .str "url"), ("url", .str url)]

/-- One part of a content. -/
def convertPartO2A : Json → Option (List Json)
  | .obj part =>
    if Fields.get part "type" = some (.str "text") then
      match trueField part "text" with
      | some text => some [textBlock (env.textOf text)]
      | none => some []
    else if Fields.get part "type" = some (.str "image_url") then
      match fieldsOr (Fields.get part "image_url") with
      | some image =>
        match (Fields.get image "url").getD (.str "") with
        | .str url => some [.obj [("type", .str "image"), ("source", imageSource url)]]
        | _ => none
      | none => none
    else some []
  | .str text => some (if text = "" then [] else [textBlock text])
  | _ => some []

/-- `_convert_content_o2a`. -/
def convertContentO2A : Json → Option (List Json)
  | .null => some []
  | .str text => some (if text = "" then [] else [textBlock text])
  | .arr parts => (parts.mapM (convertPartO2A env)).map List.flatten
  | content => some [textBlock (env.strOf content)]

/-- `_convert_tools_o2a`. -/
def convertToolsO2A (tools : Json) : Option (List Json) :=
  (itemsOr (some tools)).map fun tools => tools.filterMap fun tool =>
    match tool with
    | .obj fields =>
      match Fields.get fields "function" with
      | some (.obj fn) =>
        some (.obj ([("name", (Fields.get fn "name").getD (.str ""))]
          ++ (Fields.get fn "description").toList.map (("description", ·))
          ++ [("input_schema", (Fields.get fn "parameters").getD
            (.obj [("type", .str "object"), ("properties", .obj [])]))]))
      | _ =>
        match Fields.get fields "parameters", Fields.get fields "input_schema" with
        | some parameters, none =>
          some (.obj (Fields.put "input_schema" parameters (Fields.without fields "parameters")))
        | _, _ => some (.obj fields)
    | _ => none

/-- `_convert_tool_choice_o2a`. -/
def convertToolChoiceO2A : Json → Option (Option Json)
  | .str choice =>
    some (some (.obj [("type", .str (if choice = "required" then "any" else "auto"))]))
  | .obj choice =>
    if Fields.get choice "type" = some (.str "function") then
      (fieldsOr (Fields.get choice "function")).map fun fn =>
        some (.obj [("type", .str "tool"), ("name", (Fields.get fn "name").getD (.str ""))])
    else if Fields.get choice "type" = some (.str "auto") then
      some (some (.obj [("type", .str "auto")]))
    else some none
  | _ => some none

/-- A message with a list of blocks. -/
structure BlockMessage where
  role : String
  blocks : List Json
deriving DecidableEq

/-- The dictionary of a message. -/
def BlockMessage.json (msg : BlockMessage) : Json :=
  .obj [("role", .str msg.role), ("content", .arr msg.blocks)]

/-- One round of the loop in `_merge_consecutive_same_role`. -/
def mergeStep (merged : List BlockMessage) (msg : BlockMessage) : List BlockMessage :=
  if (merged.getLast?.map BlockMessage.role) = some msg.role then
    merged.modifyLast fun last => { last with blocks := last.blocks ++ msg.blocks }
  else merged ++ [msg]

/-- `_merge_consecutive_same_role`. -/
def mergeConsecutiveSameRole (messages : List BlockMessage) : List BlockMessage :=
  (messages.foldl mergeStep []).filter fun msg => !msg.blocks.isEmpty

/-- The block for an entry of `tool_calls`. -/
def convertToolCallO2A : Json → Option (List Json)
  | .obj tc => do
    let fn ← fieldsOr (Fields.get tc "function")
    let input ← match (trueField fn "arguments").getD (.str "\x7b\x7d") with
      | .str args =>
        match env.loads args with
        | .value input => some input
        | .rejected => some (.obj [])
        | .raised _ => none
      | _ => none
    return [.obj [("type", .str "tool_use"), ("id", (Fields.get tc "id").getD (.str "")),
      ("name", (fn.get "name").getD (.str "")), ("input", input)]]
  | _ => some []

/-- What one message adds: a system text, or a message. -/
def convertMessageO2A : Json → Option (List String × List BlockMessage)
  | .obj msg =>
    let role := Fields.get msg "role"
    let content := (Fields.get msg "content").getD .null
    if role = some (.str "system") then some ([contentToText env content], [])
    else if role = some (.str "tool") then
      some ([], [⟨"user", [.obj [("type", .str "tool_result"),
        ("tool_use_id", (Fields.get msg "tool_call_id").getD (.str "")),
        ("content", .str (contentToText env content))]]⟩])
    else if role = some (.str "assistant") then do
      let blocks ← convertContentO2A env content
      let calls ← (← itemsOr (Fields.get msg "tool_calls")).mapM (convertToolCallO2A env)
      let blocks := blocks ++ calls.flatten
      return ([], if blocks = [] then [] else [⟨"assistant", blocks⟩])
    else
      (convertContentO2A env content).map fun blocks =>
        ([], if blocks = [] then [] else [⟨"user", blocks⟩])
  | _ => some ([], [])

/-- The loop over the messages. -/
def convertMessagesO2A : List Json → Option (List String × List BlockMessage)
  | [] => some ([], [])
  | msg :: messages => do
    let first ← convertMessageO2A env msg
    let rest ← convertMessagesO2A messages
    return (first.1 ++ rest.1, first.2 ++ rest.2)

/-- `stop` as `stop_sequences`. -/
def stopSequences (body : Fields) : Option Json :=
  match body.get "stop" with
  | some (.str stop) => some (.arr [.str stop])
  | some (.arr stop) => some (.arr stop)
  | _ => none

/-- `translate_request_o2a`. -/
def translateRequestO2A (body : Fields) : Option Fields := do
  let converted ← convertMessagesO2A env (← itemsOr (body.get "messages"))
  let tools ← (trueField body "tools").mapM convertToolsO2A
  let choice ← (givenField body "tool_choice").mapM convertToolChoiceO2A
  -- a tool choice of none takes the tools away
  let tools := if body.get "tool_choice" = some (.str "none") then some [] else tools
  let system := String.join converted.1
  return renamed (body.get "model") "model"
    ++ (if system = "" then [] else [("system", .str system)])
    ++ [("messages", .arr ((mergeConsecutiveSameRole converted.2).map BlockMessage.json)),
      ("max_tokens", (givenField body "max_tokens").getD (.int 4096))]
    ++ renamed (givenField body "temperature") "temperature"
    ++ renamed (givenField body "top_p") "top_p"
    ++ renamed (stopSequences body) "stop_sequences"
    ++ renamed ((body.get "stream").map fun stream => .bool stream.truthy) "stream"
    ++ renamed (tools.map .arr) "tools"
    ++ renamed (choice.join) "tool_choice"

end Zhongzhuan.Protocol
