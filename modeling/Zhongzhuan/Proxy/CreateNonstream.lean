import Zhongzhuan.Proxy.CreateStream

/-!
# The non-stream create

`_dispatch_v3_create`: one key after the other is tried until an answer is neither an error that
another key may avoid nor empty, and the last answer is what the client gets.

* `responseIsEmpty` is `_response_is_empty`.  It raises on bodies whose `output` or `choices`
  cannot be iterated, or whose choices are no objects.
* `RunResult` is what `_run_v3_nonstream` returns: the status and the body, translated if it had
  to be; an error of the preparation and a connection error have an empty body.
* `nonstreamRound` is the body of the loop, `afterNonstreamLoop` the code after it, with the
  fallback group.

`json.loads`, `int` and the rewriting of multi-agent calls are parameters.
-/

namespace Zhongzhuan.Proxy

open Kit Protocol Store

/-! ## Empty answers -/

/-- `v not in (None, "")`, of what `get` finds. -/
def notBlank : Option Json → Bool
  | none | some .null => false
  | some (.str text) => text ≠ ""
  | some _ => true

/-- What a `for` over a value iterates, or `none` where it raises. -/
def iterated : Json → Option (List Json)
  | .arr items => some items
  | .obj fields => some (fields.map fun field => .str field.1)
  | .str text => some (text.toList.map fun ch => .str (String.singleton ch))
  | .null | .bool _ | .int _ | .float _ => none

/-- The items that are the product of a tool. -/
def toolItemTypes : List String :=
  ["function_call", "file_search_call", "web_search_call", "code_interpreter_call",
    "image_generation_call", "mcp_call"]

/-- A value is an object with a field that satisfies a condition. -/
def objectWith (field : String) (p : Option Json → Bool) : Json → Bool
  | .obj fields => p (Fields.get fields field)
  | _ => false

/-- An item of `output` has content. -/
def outputItemHasContent : Json → Bool
  | .obj item =>
    match Fields.get item "type" with
    | some (.str itype) =>
      if itype = "message" then
        match Fields.get item "content" with
        | some (.str text) => text ≠ ""
        | some (.arr parts) => parts.any (objectWith "text" notBlank)
        | _ => false
      else if itype ∈ toolItemTypes then true
      else if itype = "reasoning" then
        match Fields.get item "summary" with
        | some (.arr parts) =>
          parts.any (objectWith "text" fun text => (text.map Json.truthy).getD false)
        | _ => false
      else false
    | _ => false
  | _ => false

/-- `a.get(key) or default`. -/
def getOr (fields : Fields) (key : String) (default : Json) : Json :=
  match Fields.get fields key with
  | some v => if v.truthy then v else default
  | none => default

/-- A choice has content; `none` where it has no `get`. -/
def choiceHasContent : Json → Option Bool
  | .obj ch =>
    match getOr ch "message" (getOr ch "delta" (.obj [])) with
    | .obj msg =>
      some (notBlank (Fields.get msg "content")
        || (getOr msg "tool_calls" (getOr msg "function_call" .null)).truthy)
    | _ => none
  | _ => none

/-- The loop over the choices. -/
def choicesEmpty : List Json → Option Bool
  | [] => some true
  | ch :: rest =>
    match choiceHasContent ch with
    | none => none
    | some true => some false
    | some false => choicesEmpty rest

/-- The shape a body is examined as. -/
inductive BodyShape
  | responses
  | openai
deriving DecidableEq, Repr

/-- `_response_is_empty`; `none` where it raises. -/
def responseIsEmpty (shape : BodyShape) : Json → Option Bool
  | .obj parsed =>
    match shape with
    | .responses =>
      match Fields.get parsed "output" with
      | none => some false
      | some output =>
        if !output.truthy then some true
        else (iterated output).map fun items => !items.any outputItemHasContent
    | .openai =>
      match Fields.get parsed "choices" with
      | none => some false
      | some choices =>
        if !choices.truthy then some true else (iterated choices).bind choicesEmpty
  | _ => some false

/-- The shape of a body. -/
def bodyShape : Json → BodyShape
  | .obj parsed => if (Fields.get parsed "output").isSome then .responses else .openai
  | _ => .openai

/-! ## Calls -/

/-- What `_run_v3_nonstream` returns. -/
structure RunResult where
  statusCode : ℕ
  payload : Bytes
deriving DecidableEq, Repr

/-- What it returns where the call cannot be prepared. -/
def CallError.result (e : CallError) : RunResult := { statusCode := e.statusCode, payload := [] }

/-- What one round meets: `stringified` if the call is repeated with texts for contents. -/
structure NonstreamRound where
  call : RunResult
  stringified : RunResult
deriving DecidableEq, Repr

/-- What the handler is configured with. -/
structure NonstreamConfig where
  /-- `json.loads` of the decoded bytes, where neither raises. -/
  loads : Bytes → Option Json
  /-- `int`, where it does not raise. -/
  int : Json → Option ℤ
  /-- `_postprocess_multi_agent_json`, if multi-agent is active. -/
  postprocess : Fields → Fields

variable (cfg : NonstreamConfig) (prep : V3CreateContext)

/-- `_parsed`: `null` is `None`, like a body that cannot be parsed. -/
def NonstreamConfig.parsed (payload : Bytes) : Option Json :=
  match cfg.loads payload with
  | some .null => none
  | v => v

/-- ASCII whitespace. -/
def isSpaceByte (b : UInt8) : Bool := b ∈ [9, 10, 11, 12, 13, 32]

/-- `payload.lstrip().startswith(b"data:")`. -/
def startsWithData (payload : Bytes) : Bool :=
  [100, 97, 116, 97, 58].isPrefixOf (payload.dropWhile isSpaceByte)

/-- An error that another key does not avoid. -/
def RunResult.final (r : RunResult) : Bool :=
  r.statusCode = 499
    || decide (400 ≤ r.statusCode ∧ r.statusCode < 500 ∧ r.statusCode ≠ 429
      ∧ r.statusCode ≠ 403)

/-! ## The loop -/

/-- The local variables of the loop. -/
structure NonstreamState where
  tried : Finset ℕ
  /-- `resp` with `payload_bytes`. -/
  resp : Option RunResult

/-- What the handler leaves.  It has no answer where it raises. -/
structure NonstreamServed where
  answer : Option (Answer Empty)
  row : Option ResponseRow

/-- The handler raises before it has closed the row. -/
def raised : NonstreamServed := { answer := none, row := prep.skeleton }

/-- One round, once its key is chosen. -/
def afterCall (r : NonstreamRound) (tried : Finset ℕ) : Flow NonstreamState NonstreamServed :=
  let st := { tried := tried, resp := some r.call }
  if 400 ≤ r.call.statusCode then if r.call.final then .stop st else .next st
  else
    match cfg.parsed r.call.payload with
    | some v =>
      match responseIsEmpty (bodyShape v) v with
      | none => .answer (raised prep)
      | some true => .next st
      | some false => .stop st
    | none =>
      if startsWithData r.call.payload then
        let st := { tried := tried, resp := some r.stringified }
        if 400 ≤ r.stringified.statusCode then
          if r.stringified.final then .stop st else .next st
        else if cfg.parsed r.stringified.payload = none then .next st
        else .stop st
      else .stop st

/-- One round of the loop. -/
def nonstreamRound (c : V3Candidates) (score : ℕ → Candidate → ℚ) (meets : ℕ → NonstreamRound)
    (i : ℕ) (st : NonstreamState) : Flow NonstreamState NonstreamServed :=
  match c.selectRetryKey (score i) st.tried with
  | none => .stop st
  | some decision => afterCall cfg prep (meets i) (insert decision.key.keyId st.tried)

/-! ## After the loop -/

/-- A fallback candidate has served the request. -/
def RunResult.serves (r : RunResult) : Bool :=
  r.statusCode = 200
    && match cfg.loads r.payload with
      | some (.obj _) => true
      | _ => false

/-- `int(usage.get(a) or usage.get(b) or 0)`. -/
def tokenCount (usage : Fields) (a b : String) : Option ℤ :=
  cfg.int (getOr usage a (getOr usage b (.int 0)))

/-- The fields of an object, if the value is one. -/
def asFields : Option Json → Fields
  | some (.obj fields) => fields
  | _ => []

/-- The items of an array, if the value is one. -/
def asItems : Option Json → List Json
  | some (.arr items) => items
  | _ => []

/-- The response object that the client gets. -/
def createdObject (respObj : Fields) : Fields :=
  let respObj := (cfg.postprocess respObj).put "id" (.str prep.responseId)
  let respObj :=
    if prep.previousResponseId = "" then respObj
    else respObj.put "previous_response_id" (.str prep.previousResponseId)
  let respObj :=
    if ((Fields.get prep.bodyObj "background").map Json.truthy).getD false then
      respObj.put "background" (.bool true)
    else respObj
  if (Fields.get respObj "store").isSome then respObj
  else respObj.put "store" (.bool prep.storeEnabled)

/-- The row of a response object. -/
def completedRow (respObj : Fields) : Option ResponseRow :=
  if prep.storeEnabled ∧ prep.hasStore then
    some
      { status := .completed
        terminalReason := ""
        usage := asFields (Fields.get respObj "usage")
        output := asItems (Fields.get respObj "output") }
  else prep.skeleton

/-- The counts for the request log can be read. -/
def countsRead (usage : Fields) : Bool :=
  (tokenCount cfg usage "prompt_tokens" "input_tokens").isSome
    && (tokenCount cfg usage "completion_tokens" "output_tokens").isSome

/-- The end of the handler, with a response object. -/
def finishCreate (respObj : Fields) : NonstreamServed :=
  let respObj := createdObject cfg prep respObj
  { answer :=
      if countsRead cfg (asFields (Fields.get respObj "usage")) then
        some { status := 200, body := .json respObj }
      else none
    row := completedRow prep respObj }

/-- The result with which the handler goes on, from those of the fallback candidates. -/
def RunResult.afterFallback (fallback : List RunResult) (r : RunResult) : RunResult :=
  if 400 ≤ r.statusCode then (fallback.find? (RunResult.serves cfg)).getD r else r

/-- The code after the loop. -/
def afterNonstreamLoop (fallback : List RunResult) (resp : Option RunResult) :
    NonstreamServed :=
  match resp with
  | none =>
    { answer := some { status := 503, body := .json [("error", .str "no enabled keys")] }
      row := prep.skeleton }
  | some r =>
    let r := r.afterFallback cfg fallback
    if 400 ≤ r.statusCode then
      { answer := some { status := r.statusCode, body := .bytes r.payload }
        row := prep.skeleton }
    else
      match cfg.loads r.payload with
      | some (.obj respObj) => finishCreate cfg prep respObj
      | none => finishCreate cfg prep []
      | some _ =>
        { answer := some { status := 200, body := .bytes r.payload }, row := prep.skeleton }

/-- `_dispatch_v3_create`, after its preparation. -/
def dispatchV3Create (c : V3Candidates) (score : ℕ → Candidate → ℚ)
    (meets : ℕ → NonstreamRound) (fallback : List RunResult) : NonstreamServed :=
  (rounds (nonstreamRound cfg prep c score meets) c.maxSwitches 0
    { tried := ∅, resp := none }).elim
    (fun st => afterNonstreamLoop cfg prep fallback st.resp) id

end Zhongzhuan.Proxy
