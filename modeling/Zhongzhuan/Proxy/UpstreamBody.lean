import Zhongzhuan.Kit.Json
import Zhongzhuan.Kit.Text
import Zhongzhuan.Kit.Dict

/-!
# The body that is sent upstream

A retry loop has one body, the dictionary of the request, and prepares it anew for every key it
attempts: `_prepare_v3_upstream_call` in the v3 creates, the same steps inline in the two legacy
loops.  Most of it is done on the dictionary itself.

* `stripReasoningEffort`, `extractReasoningNorm`, `stripAllReasoning` and
  `prepareReasoningForBody` are the functions on the reasoning fields.
* `Outbound` says what the body for the upstream is built from: the dictionary of the request
  itself, a shallow copy, or an object of its own.  `Outbound.sent` and `Outbound.left` are the
  body that is built and what is then in the dictionary of the request.
* `SharedBody` is what the attempts of a request share, `attempt` one attempt.

A body comes from `json.loads`, so no two of its parts are the same object.  The translators of
`protocol/`, the swap of a model name in the text of a body and the system message of a client
preset are parameters; the translators make objects of their own, except that
`convert_responses_request_to_chatcompletions` returns a body without usable `input` as it is,
and keeps the nested `stream_options` of any other.
-/

namespace Zhongzhuan.Proxy

open Kit

/-! ## Reasoning fields -/

/-- A field is there and true. -/
def holdsField (fields : Fields) (key : String) : Bool :=
  ((Fields.get fields key).map Json.truthy).getD false

/-- `_reasoning_present`. -/
def reasoningPresent (body : Fields) : Bool :=
  holdsField body "reasoning_effort"
    || match Fields.get body "reasoning" with
      | some (.obj reasoning) => holdsField reasoning "effort"
      | _ => false

/-- `_strip_reasoning_effort`: the body, and whether anything was removed. -/
def stripReasoningEffort (body : Fields) : Fields × Bool :=
  let (body, removed) :=
    if holdsField body "reasoning_effort" then (Fields.without body "reasoning_effort", true)
    else (body, false)
  match Fields.get body "reasoning" with
  | some (.obj reasoning) =>
    if holdsField reasoning "effort" then
      (body.put "reasoning" (.obj (Fields.without reasoning "effort")), true)
    else (body, removed)
  | _ => (body, removed)

/-- `_RE_NORM_ALIASES`. -/
def reNormAliases : List (String × String) :=
  [("none", "none"), ("off", "none"), ("minimal", "none"), ("low", "low"), ("medium", "medium"),
    ("high", "high"), ("ultra", "ultra"), ("xhigh", "ultra")]

/-- `_extract_reasoning_norm`.  A level that is no text is none of the aliases. -/
def extractReasoningNorm (body : Fields) : Option String :=
  let nested : Option Json :=
    match Fields.get body "reasoning" with
    | some (.obj reasoning) => Fields.get reasoning "effort"
    | _ => none
  let raw : Option Json :=
    match Fields.get body "reasoning_effort" with
    | some (.str text) => if text ≠ "" then some (.str text) else nested
    | _ => nested
  match raw with
  | some (.str text) => reNormAliases.lookup (stripText text).toLower
  | _ => none

/-- `_strip_all_reasoning`. -/
def stripAllReasoning (body : Fields) : Fields :=
  Fields.without (Fields.without body "reasoning_effort") "reasoning"

/-! ## Keys and what is configured for them -/

/-- `upstream_protocol`, and the protocol of the request. -/
inductive UpstreamProtocol
  | openai
  | anthropic
  | responses
deriving DecidableEq, Repr

/-- The fields of a `KeyHealth` that the body depends on. -/
structure UpstreamKey where
  upstreamBase : String
  upstreamModel : String
  upstreamProtocol : UpstreamProtocol
  anthropicVersion : String
  maxTokensDefault : ℕ
  clientPreset : String
deriving DecidableEq, Repr

/-- The upstream and the model of a key, by which it is configured. -/
def UpstreamKey.channel (key : UpstreamKey) : String × String :=
  (key.upstreamBase, key.upstreamModel)

/-- A reasoning map: what to send for each level; `none` is to send nothing. -/
abbrev ReasoningMap := List (String × Option Fields)

/-- What is fixed while a request is served. -/
structure BodyEnv where
  /-- The request's own protocol; `responses` in the v3 creates. -/
  inboundProtocol : UpstreamProtocol
  requestedModel : String
  /-- `_REASONING_MAP`. -/
  reasoningMap : Dict (String × String) ReasoningMap
  /-- `convert_responses_request_to_chatcompletions` of a body with `input`; `none` where a
  translator raises. -/
  convertResponses : Fields → Option Fields
  /-- `translate_request_o2a`. -/
  translateO2A : Fields → String → Option Fields
  /-- `translate_request_a2o`. -/
  translateA2O : Fields → ℕ → Option Fields
  /-- `_swap_model_name`. -/
  swapModelName : String → String → String → String
  /-- `_inject_system_message`. -/
  injectSystemMessage : String → UpstreamKey → String

/-- `_reasoning_map_for`. -/
def BodyEnv.reasoningMapFor (env : BodyEnv) (key : UpstreamKey) : Option ReasoningMap :=
  (env.reasoningMap.get? key.channel).filter fun m => !m.isEmpty

/-- `_prepare_reasoning_for_body`: the body, and the fragment for the upstream. -/
def prepareReasoningForBody (env : BodyEnv) (blocked : Finset (String × String))
    (key : UpstreamKey) (body : Fields) : Fields × Option Fields :=
  let body := if key.channel ∈ blocked then (stripReasoningEffort body).1 else body
  match env.reasoningMapFor key with
  | none => (body, none)
  | some m =>
    match extractReasoningNorm body with
    | none => (body, none)
    | some norm => (stripAllReasoning body, (m.lookup norm).join)

/-! ## Building the outbound body -/

/-- What the outbound body is built from. -/
inductive BodySource
  /-- The dictionary of the request itself. -/
  | shared
  /-- A shallow copy of it, changed: what is nested is still shared. -/
  | copy (content : Fields)
  /-- An object of its own. -/
  | fresh (content : Fields)

/-- How the outbound body is built. -/
structure Outbound where
  source : BodySource
  /-- What is set before `stream_options`. -/
  pre : Fields → Fields
  /-- `stream_options.include_usage` is asked for. -/
  usage : Bool
  /-- What is set after it. -/
  post : Fields → Fields
  /-- What is done to the text. -/
  text : String → String

/-- `so = d.setdefault("stream_options", {})`, then `include_usage`; `none` where that raises. -/
def withUsage (body : Fields) : Option Fields :=
  match Fields.get body "stream_options" with
  | none => some (body.put "stream_options" (.obj [("include_usage", .bool true)]))
  | some (.obj options) =>
    if holdsField options "include_usage" then some body
    else some (body.put "stream_options" (.obj (Fields.put "include_usage" (.bool true) options)))
  | some _ => none

/-- The effect of `withUsage` on a copy on what the copy shares. -/
def nestedUsage (body : Fields) : Fields :=
  match Fields.get body "stream_options" with
  | some (.obj options) =>
    if holdsField options "include_usage" then body
    else body.put "stream_options" (.obj (Fields.put "include_usage" (.bool true) options))
  | _ => body

namespace Outbound

/-- The object that an object becomes. -/
def edited (o : Outbound) (content : Fields) : Option Fields :=
  (if o.usage then withUsage (o.pre content) else some (o.pre content)).map o.post

/-- The body that is sent; `none` where building it raises. -/
def sent (o : Outbound) (body : Fields) : Option String :=
  let content :=
    match o.source with
    | .shared => body
    | .copy content => content
    | .fresh content => content
  (o.edited content).map fun object => o.text (dumps (.obj object))

/-- The dictionary of the request after it. -/
def left (o : Outbound) (body : Fields) : Fields :=
  match o.source with
  | .shared => (o.edited body).getD body
  | .copy _ => if o.usage then nestedUsage body else body
  | .fresh _ => body

end Outbound

/-- `d.update(fragment)`, if there is one. -/
def applyFragment (fragment : Option Fields) (body : Fields) : Fields :=
  (fragment.getD []).foldl (fun body field => body.put field.1 field.2) body

/-- `if key.upstream_model: d["model"] = key.upstream_model`. -/
def setModel (key : UpstreamKey) (body : Fields) : Fields :=
  if key.upstreamModel = "" then body else body.put "model" (.str key.upstreamModel)

/-- `convert_responses_request_to_chatcompletions` converts a body only if its `input` is a text
or an array that is not empty. -/
def hasInput (body : Fields) : Bool :=
  match Fields.get body "input" with
  | some (.str text) => text ≠ ""
  | some (.arr items) => !items.isEmpty
  | _ => false

/-- What `convert_responses_request_to_chatcompletions` returns. -/
def BodyEnv.chatSource (env : BodyEnv) (body : Fields) : Option BodySource :=
  if hasInput body then (env.convertResponses body).map .copy else some .shared

/-- The translation of its result for an Anthropic upstream. -/
def BodyEnv.messagesSource (env : BodyEnv) (key : UpstreamKey) (body : Fields) :
    Option BodySource := do
  let cc ← if hasInput body then env.convertResponses body else some body
  let translated ← env.translateO2A cc key.anthropicVersion
  return .fresh translated

/-! ### The v3 creates -/

/-- The parts of a message that are text, joined. -/
def joinedText (parts : List Json) : String :=
  String.join (parts.filterMap fun part =>
    match part with
    | .obj part =>
      if Fields.get part "type" = some (.str "text")
          ∨ Fields.get part "type" = some (.str "input_text") then
        match Fields.get part "text" with
        | some (.str text) => some text
        | _ => none
      else none
    | _ => none)

/-- A message with a text for its content. -/
def stringifyMessage : Json → Json
  | .obj msg =>
    match Fields.get msg "content" with
    | some (.arr parts) => .obj (Fields.put "content" (.str (joinedText parts)) msg)
    | _ => .obj msg
  | msg => msg

/-- The changes for upstreams that take texts only. -/
def stringifyContent (body : Fields) : Fields :=
  let body :=
    match Fields.get body "messages" with
    | some (.arr messages) => body.put "messages" (.arr (messages.map stringifyMessage))
    | _ => body
  if (Fields.get body "max_tokens").isSome then body else body.put "max_tokens" (.int 4096)

/-- How a v3 create calls a key. -/
structure V3CallOptions where
  stream : Bool
  forceTranslate : Bool
  stringifyContent : Bool
deriving DecidableEq, Repr

/-- The outbound stream flag of a translated body. -/
def setStream (stream : Bool) (body : Fields) : Fields :=
  if stream then body.put "stream" (.bool true) else Fields.without body "stream"

/-- The body of `_prepare_v3_upstream_call`; `none` where a translator raises. -/
def v3Outbound (env : BodyEnv) (key : UpstreamKey) (options : V3CallOptions) (body : Fields)
    (fragment : Option Fields) : Option Outbound :=
  let outboundProtocol := if options.forceTranslate then .openai else key.upstreamProtocol
  let text := fun text => env.injectSystemMessage text key
  if options.forceTranslate ∨ env.inboundProtocol ≠ key.upstreamProtocol then do
    let source ←
      if outboundProtocol = .anthropic then env.messagesSource key body else env.chatSource body
    return {
      source := source
      pre := setStream options.stream
      usage := options.stream && decide (outboundProtocol = .openai)
      post := fun body =>
        let body := applyFragment fragment (setModel key body)
        if options.stringifyContent then stringifyContent body else body
      text := text }
  else
    some {
      source := .copy body
      pre := id
      usage := false
      post := fun body =>
        let body :=
          if env.requestedModel ≠ "" ∧ key.upstreamModel ≠ ""
              ∧ env.requestedModel ≠ key.upstreamModel then
            body.put "model" (.str key.upstreamModel)
          else body
        let body :=
          if holdsField body "stream" ≠ options.stream then
            body.put "stream" (.bool options.stream)
          else body
        applyFragment fragment body
      text := text }

/-! ### The legacy loops -/

/-- `body.get("stream") is True`. -/
def streamIsTrue (body : Fields) : Bool := Fields.get body "stream" = some (.bool true)

/-- The body of the legacy loops; `none` where a translator raises. -/
def legacyOutbound (env : BodyEnv) (stream : Bool) (key : UpstreamKey)
    (outboundProtocol : UpstreamProtocol) (body : Fields) (fragment : Option Fields) :
    Option Outbound :=
  if env.inboundProtocol ≠ outboundProtocol then do
    let source ←
      match env.inboundProtocol, outboundProtocol with
      | .anthropic, .openai => (env.translateA2O body key.maxTokensDefault).map .fresh
      | .openai, .anthropic => (env.translateO2A body key.anthropicVersion).map .fresh
      | .responses, .anthropic => env.messagesSource key body
      | .responses, _ => env.chatSource body
      | _, _ => some .shared
    return {
      source := source
      pre := id
      usage := decide (env.inboundProtocol = .responses) && streamIsTrue body
      post := fun body => applyFragment fragment (setModel key body)
      text := fun text => env.injectSystemMessage text key }
  else
    some {
      source := .copy body
      pre := id
      usage := stream && streamIsTrue body
      post := id
      text := fun text =>
        let text :=
          if env.requestedModel ≠ "" ∧ key.upstreamModel ≠ ""
              ∧ env.requestedModel ≠ key.upstreamModel then
            env.swapModelName text env.requestedModel key.upstreamModel
          else text
        env.injectSystemMessage text key }

/-! ## Attempts -/

/-- The retry loops. -/
inductive RetryLoop
  /-- `_dispatch_v3_create` and `_dispatch_v3_create_stream`. -/
  | v3
  /-- The loop of `handle`, and the one of `_stream_proxy`. -/
  | legacy (stream : Bool)
deriving DecidableEq, Repr

/-- What the attempts of a request share. -/
structure SharedBody where
  body : Fields
  /-- `_RE_BLOCKED`. -/
  blocked : Finset (String × String)
  /-- `protocol_override`. -/
  protocolOverride : Option UpstreamProtocol

/-- An attempt, with what it meets. -/
structure BodyAttempt where
  key : UpstreamKey
  options : V3CallOptions
  /-- The window of the key lets the call through, and there is a client. -/
  ready : Bool
  /-- The upstream refuses the call with 400 or 422, on account of `reasoning_effort` if there
  is one. -/
  rejectsEffort : Bool
  /-- The upstream refuses the call with the error of one that speaks chat completions only. -/
  chatError : Bool

variable (env : BodyEnv)

/-- The self-heal after a refused v3 call. -/
def SharedBody.selfHeal (s : SharedBody) (key : UpstreamKey) : SharedBody :=
  match stripReasoningEffort s.body with
  | (body, true) => { s with body := body, blocked := insert key.channel s.blocked }
  | (body, false) => { s with body := body }

/-- The body that is sent and what is left of the dictionary of the request. -/
def sendBody (outbound : Option Outbound) (body : Fields) : Fields × Option String :=
  match outbound with
  | none => (body, none)
  | some o => (o.left body, o.sent body)

/-- An attempt of a v3 create: what the attempts share afterwards, and the body it sends. -/
def v3Attempt (s : SharedBody) (a : BodyAttempt) : SharedBody × Option String :=
  -- the reasoning fields are prepared before the window of the key is asked
  let (body, fragment) := prepareReasoningForBody env s.blocked a.key s.body
  if a.ready then
    let (left, sent) := sendBody (v3Outbound env a.key a.options body fragment) body
    let s := { s with body := left }
    (if sent.isSome && a.rejectsEffort then s.selfHeal a.key else s, sent)
  else ({ s with body := body }, none)

/-- An attempt of a legacy loop. -/
def legacyAttempt (stream : Bool) (s : SharedBody) (a : BodyAttempt) :
    SharedBody × Option String :=
  if a.ready then
    let outboundProtocol := s.protocolOverride.getD a.key.upstreamProtocol
    let (body, fragment) := prepareReasoningForBody env s.blocked a.key s.body
    let (left, sent) :=
      sendBody (legacyOutbound env stream a.key outboundProtocol body fragment) body
    let latched := stream && sent.isSome && a.chatError
      && decide (env.inboundProtocol = .responses) && decide (outboundProtocol = .responses)
    ({ s with
        -- an empty body is replaced by a new one at each attempt of `handle`
        body := if s.body = [] ∧ stream = false then s.body else left
        protocolOverride := if latched then some .openai else s.protocolOverride },
      sent)
  else (s, none)

/-- An attempt of a retry loop. -/
def RetryLoop.attempt (loop : RetryLoop) (s : SharedBody) (a : BodyAttempt) :
    SharedBody × Option String :=
  match loop with
  | .v3 => v3Attempt env s a
  | .legacy stream => legacyAttempt env stream s a

end Zhongzhuan.Proxy
