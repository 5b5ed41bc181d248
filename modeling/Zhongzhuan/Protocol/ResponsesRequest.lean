import Zhongzhuan.Protocol.ItemRegistry

/-!
# From a Responses request to Chat Completions

The model of the request half of `proxy/protocol/responses.py`.  A body comes from `json.loads`;
`none` is an exception (`AttributeError`, `TypeError`) on a value that has another shape than
the code expects.

* `convertItem` is one round of the loop over the input items.  The source keeps a second list,
  `pending_tool_results`, to which nothing is ever added; it is left out.
* `flattenTools` is `_flatten_namespace_tool`: it looks for the field `tools` and recurses on the
  subtools, with the name of the namespace computed beforehand.
* `convertTools` is the loop over the declared tools, `convertRequest` the whole conversion.
-/

namespace Zhongzhuan.Protocol

open Kit

/-- What the conversion calls: `json.loads`, and `str` on a value that is no string. -/
structure RequestEnv where
  loads : String → Loaded
  strOf : Json → String

/-- A field that is there and true, else `none`: `d.get(key) or …`. -/
def trueField (fields : Fields) (key : String) : Option Json :=
  (fields.get key).filter Json.truthy

/-- A name that is a string with something besides white space in it. -/
def properName : Option Json → Option String
  | some (.str name) => if stripText name = "" then none else some name
  | _ => none

/-! ## Content -/

/-- `normalize_responses_input`. -/
def normalizeResponsesInput : Json → Option (List Json)
  | .str text =>
    let text := if stripText text = "" then "..." else stripText text
    some [.obj [("type", .str "message"), ("role", .str "user"),
      ("content", .arr [.obj [("type", .str "input_text"), ("text", .str text)]])]]
  | .arr [] =>
    some [.obj [("type", .str "message"), ("role", .str "user"),
      ("content", .arr [.obj [("type", .str "input_text"), ("text", .str "...")]])]]
  | .arr items => some items
  | _ => none

/-- `_convert_content_block`; `none` is `None`, which the caller leaves out. -/
def convertContentBlock : Json → Option Json
  | .obj fields =>
    let type := Fields.get fields "type"
    if type = some (.str "input_text") ∨ type = some (.str "output_text") then
      some (.obj [("type", .str "text"), ("text", (Fields.get fields "text").getD (.str ""))])
    else if type = some (.str "input_image") then
      (trueField fields "image_url").map fun url =>
        .obj [("type", .str "image_url"), ("image_url", .obj [("url", url),
          ("detail", (Fields.get fields "detail").getD (.str "auto"))])]
    else some (.obj fields)
  | .null => none
  | block => some block

/-! ## Tools -/

/-- `NAMESPACE_FLAT_SEP`. -/
def namespaceFlatSep : String := "-"

/-- `HOSTED_TOOL_CAPABILITY`, its keys. -/
def hostedToolTypes : List String :=
  ["web_search", "web_search_preview", "web_search_preview_2025_03_11", "file_search",
    "computer", "computer_use_preview", "code_interpreter", "image_generation", "mcp",
    "tool_search"]

/-- `_normalize_tool_parameters`. -/
def normalizeToolParameters (params : Option Json) : Option Json :=
  match params.filter Json.truthy with
  | none => some (.obj [("type", .str "object"), ("properties", .obj [])])
  | some (.obj fields) =>
    if Fields.get fields "type" = some (.str "object") ∧ Fields.get fields "properties" = none then
      some (.obj (Fields.put "properties" (.obj []) fields))
    else some (.obj fields)
  | some _ => none

section Tools

variable (env : RequestEnv)

/-- The `function` tool that is made of a declaration, with further fields `more`. -/
def functionTool (name : String) (fn more : Fields) : Option Json :=
  (normalizeToolParameters (Fields.get fn "parameters")).map fun parameters =>
    .obj [("type", .str "function"), ("function", .obj ([("name", .str name),
      ("description", .str (strOr env.strOf (Fields.get fn "description"))),
      ("parameters", parameters)] ++ more))]

/-- `_convert_tool`; `null` is `None`. -/
def convertTool : Json → Option Json
  | .obj fields =>
    match trueField fields "function" with
    | some _ => some (.obj fields)
    | none =>
      match properName (Fields.get fields "name") with
      | none => some .null
      | some name =>
        functionTool env name fields
          ((Fields.get fields "strict").toList.map fun strict => ("strict", strict))
  | tool => some tool

/-- `str(d.get("name") or "").strip()`. -/
def strippedName (fields : Fields) : String :=
  stripText (strOr env.strOf (Fields.get fields "name"))

/-- `_prefix_function_name`. -/
def prefixFunctionName (pre : String) : Json → Json
  | .obj tool =>
    match Fields.get tool "function" with
    | some (.obj fn) =>
      match trueField fn "name" with
      | some name =>
        let text := match name with
          | .str text => text
          | other => env.strOf other
        .obj (Fields.put "function"
          (.obj (Fields.put "name" (.str (pre ++ namespaceFlatSep ++ text)) fn)) tool)
      | none => .obj tool
    | _ => .obj tool
  | tool => tool

/-- A subtool that is no namespace. -/
def flattenFunction (nsName : String) (sub : Fields) : Option (List Json) :=
  if strOr env.strOf (sub.get "type") ≠ "function" ∧ trueField sub "function" = none then some []
  else
    let fn := match sub.get "function" with
      | some (.obj fn) => fn
      | _ => sub
    let subName := strippedName env fn
    if subName = "" then some []
    else (functionTool env (nsName ++ namespaceFlatSep ++ subName) fn []).map ([·])

mutual

/-- `_flatten_namespace_tool`, from its loop on: the tool's field `tools`. -/
def flattenTools (nsName : String) : List (String × Json) → Option (List Json)
  | [] => some []
  | (key, value) :: rest =>
    if nsName = "" then some []
    else if key = "tools" then flattenSubtools nsName value
    else flattenTools nsName rest

/-- `tool.get("tools") or []`: the keys of an object and the characters of a text are no
objects, and a number has no items. -/
def flattenSubtools (nsName : String) : Json → Option (List Json)
  | .arr subs => flattenEach nsName subs
  | .null | .str _ | .obj _ => some []
  | .bool b => if b then none else some []
  | .int n => if n = 0 then some [] else none
  | .float text => if (Json.float text).truthy then none else some []

/-- The loop over the subtools. -/
def flattenEach (nsName : String) : List Json → Option (List Json)
  | [] => some []
  | sub :: subs =>
    (flattenSub nsName sub).bind fun first =>
      (flattenEach nsName subs).map fun rest => first ++ rest

/-- One subtool; a namespace among them is flattened first. -/
def flattenSub (nsName : String) : Json → Option (List Json)
  | .obj sub =>
    if strOr env.strOf (Fields.get sub "type") = "namespace" then
      (flattenTools (strippedName env sub) sub).map fun nested =>
        nested.map (prefixFunctionName env nsName)
    else flattenFunction env nsName sub
  | _ => some []

end

/-- `_flatten_namespace_tool`. -/
def flattenNamespaceTool (tool : Fields) : Option (List Json) :=
  flattenTools env (strippedName env tool) tool

/-- One round of the loop over the declared tools. -/
def convertDeclared : Json → Option (List Json)
  | .obj fields =>
    match Fields.get fields "type" with
    -- a list or an object is no key of the table of hosted tools
    | some (.arr _) | some (.obj _) => none
    | type =>
      if ∃ hosted ∈ hostedToolTypes, type = some (.str hosted) then some []
      else if type = some (.str "namespace") then flattenNamespaceTool env fields
      else (convertTool env (.obj fields)).map fun mapped => if mapped.truthy then [mapped] else []
  | tool => some (if tool.truthy then [tool] else [])

/-- The loop over the declared tools. -/
def convertTools : List Json → Option (List Json)
  | [] => some []
  | tool :: tools =>
    (convertDeclared env tool).bind fun first =>
      (convertTools tools).map fun rest => first ++ rest

/-- `str(fn.get("name"))` of a tool, if it has a name. -/
def toolName : Json → String
  | .obj tool =>
    match trueField tool "function" with
    | some (.obj fn) => strOr env.strOf (Fields.get fn "name")
    | _ => ""
  | _ => ""

/-- `_first_flattened_tool_name`. -/
def firstFlattenedToolName (nsName : String) : List Json → Option String
  | [] => some ""
  | .obj tool :: tools =>
    if Fields.get tool "type" = some (.str "namespace")
        ∧ strOr env.strOf (Fields.get tool "name") = nsName then
      (flattenNamespaceTool env tool).bind fun flat =>
        match (flat.head?.map (toolName env)).getD "" with
        | "" => firstFlattenedToolName nsName tools
        | name => some name
    else firstFlattenedToolName nsName tools
  | _ :: tools => firstFlattenedToolName nsName tools

/-- What `tool_choice` is replaced by, if it is. -/
def convertToolChoice (body : Fields) : Option (Option Json) :=
  match body.get "tool_choice" with
  | some (.obj choice) =>
    if Fields.get choice "type" = some (.str "namespace") then
      let nsName := strOr env.strOf (Fields.get choice "name")
      let tools := match body.get "tools" with
        | some (.arr tools) => tools
        | _ => []
      let flat := if nsName = "" then some "" else firstFlattenedToolName env nsName tools
      flat.map fun flat =>
        some (if flat = "" then .str "auto"
          else .obj [("type", .str "function"), ("function", .obj [("name", .str flat)])])
    else if Fields.get choice "type" = some (.str "function") then
      match Fields.get choice "function" with
      | some (.obj fn) =>
        let name := match Fields.get fn "name" with
          | none => ""
          | some (.str name) => name
          | some other => env.strOf other
        some (some (.obj [("type", .str "function"), ("function", .obj [("name", .str name)])]))
      | _ => some none
    else some none
  | _ => some none

/-! ## Items -/

/-- `_coerce_tool_arguments`. -/
def coerceToolArguments : Option Json → String
  | none | some .null => "\x7b\x7d"
  | some (.str args) =>
    let text := stripText args
    if text = "" then "\x7b\x7d"
    else
      match env.loads text with
      | .value _ => text
      | _ => "\x7b\x7d"
  | some args => dumps args

/-- The messages so far, and the calls of the assistant message that is still open. -/
structure Conversation where
  messages : List Json := []
  current : Option (List Json) := none
deriving DecidableEq

/-- The assistant message is closed. -/
def Conversation.flush (conv : Conversation) : List Json :=
  conv.messages ++ conv.current.toList.map fun calls =>
    .obj [("role", .str "assistant"), ("content", .null), ("tool_calls", .arr calls)]

/-- `item.get("type") or (item.get("role") and "message" or None)`. -/
def itemTypeOf (item : Fields) : Option Json :=
  match trueField item "type" with
  | some type => some type
  | none => (trueField item "role").map fun _ => .str "message"

/-- The name under which the upstream knows a call. -/
def upstreamCallName (item : Fields) (name : String) : String :=
  match properName (item.get "namespace") with
  | some ns => stripText ns ++ namespaceFlatSep ++ name
  | none => name

/-- The entry of `tool_calls` for a `function_call` item. -/
def convertCall (item : Fields) (name : String) : Json :=
  .obj [("id", (item.get "call_id").getD .null), ("type", .str "function"),
    ("function", .obj [("name", .str (upstreamCallName item name)),
      ("arguments", .str (coerceToolArguments env (item.get "arguments")))])]

/-- The message for a `message` item. -/
def convertMessage (item : Fields) : Json :=
  let content := match item.get "content" with
    | some (.arr blocks) => .arr (blocks.filterMap convertContentBlock)
    | content => content.getD .null
  let role := (item.get "role").getD (.str "")
  .obj [("role", if role = .str "developer" then .str "system" else role), ("content", content)]

/-- The message for a `function_call_output` item. -/
def convertOutput (item : Fields) : Json :=
  let content := match item.get "output" with
    | some (.str text) => text
    | output => dumps (output.getD .null)
  .obj [("role", .str "tool"), ("tool_call_id", (item.get "call_id").getD .null),
    ("content", .str content)]

/-- One round of the loop over the input items. -/
def convertItem (conv : Conversation) : Json → Option Conversation
  | .obj item =>
    let type := itemTypeOf item
    if type = some (.str "message") then
      some { messages := conv.flush ++ [convertMessage item], current := none }
    else if type = some (.str "function_call") then
      match properName (Fields.get item "name") with
      | none => some conv
      | some name =>
        some { conv with current := some (conv.current.getD [] ++ [convertCall env item name]) }
    else if type = some (.str "function_call_output") then
      some { messages := conv.flush ++ [convertOutput item], current := none }
    else some conv
  | _ => none

/-- The loop over the input items. -/
def convertItems (conv : Conversation) : List Json → Option Conversation
  | [] => some conv
  | item :: items => (convertItem env conv item).bind fun next => convertItems next items

/-! ## The whole request -/

/-- The fields that only the Responses API has. -/
def responsesOnlyFields : List String :=
  ["input", "instructions", "include", "prompt_cache_key", "store", "client_metadata",
    "reasoning", "truncation", "background", "previous_response_id"]

/-- `max_output_tokens` as `max_tokens`. -/
def mapOutputLimit (result : Fields) : Fields :=
  match result.get "max_output_tokens" with
  | some limit =>
    (if result.get "max_tokens" = none then result.put "max_tokens" limit else result).without
      "max_output_tokens"
  | none => result

/-- The effort in `reasoning` as `reasoning_effort`. -/
def mapReasoning (result : Fields) : Fields :=
  match result.get "reasoning" with
  | some (.obj reasoning) =>
    match Fields.get reasoning "effort" with
    | some (.str effort) => Fields.put "reasoning_effort" (.str effort) result
    | _ => result
  | _ => result

/-- The output format in `text`, unless it is plain text. -/
def outputFormat (result : Fields) : Option Json :=
  match result.get "text" with
  | some (.obj text) =>
    match Fields.get text "format" with
    | some (.obj format) =>
      if Fields.get format "type" = none ∨ Fields.get format "type" = some .null
          ∨ Fields.get format "type" = some (.str "text") then none
      else some (.obj format)
    | _ => none
  | _ => none

/-- `text` as `response_format`. -/
def mapText (result : Fields) : Fields :=
  match outputFormat result with
  | some format => Fields.put "response_format" format (result.without "text")
  | none => result.without "text"

/-- The fields with another name, or of another form, in a chat request. -/
def mapFields (result : Fields) : Fields :=
  responsesOnlyFields.foldl Fields.without (mapText (mapReasoning (mapOutputLimit result)))

/-- `convert_responses_request_to_chatcompletions` of an object. -/
def convertRequest (body : Fields) : Option Fields :=
  match trueField body "input" with
  | none => some body
  | some input =>
    match normalizeResponsesInput input with
    | none => some body
    | some items =>
      let system := (trueField body "instructions").toList.map fun instructions =>
        .obj [("role", .str "system"), ("content", instructions)]
      (convertItems env { messages := system } items).bind fun conv =>
        let result := body.put "messages" (.arr conv.flush)
        let tools := match body.get "tools" with
          | some (.arr tools) => (convertTools env tools).map fun tools =>
              result.put "tools" (.arr tools)
          | _ => some result
        tools.bind fun result =>
          (convertToolChoice env body).map fun choice =>
            mapFields (match choice with
              | some choice => result.put "tool_choice" choice
              | none => result)

end Tools

end Zhongzhuan.Protocol
