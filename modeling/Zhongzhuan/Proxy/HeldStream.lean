import Zhongzhuan.Kit.Separated
import Zhongzhuan.Protocol.StreamA2O
import Zhongzhuan.Protocol.TurnBridge
import Zhongzhuan.Proxy.CreateNonstream
import Zhongzhuan.Proxy.KeyHealth

/-!
# A stream that is held until it says something

One attempt of `_stream_proxy` whose upstream has answered 200: its bytes are held back until a
line with payload has come, so that a refusal, an empty stream or an early break can be retried
with the next key.

* `StreamReaders.lineKind` is what `_scan_upstream_sse` makes of a line, and `scanUpstreamSse`
  scans a chunk.
* `LegacyTranslator` is the translator of a pair of protocols, `legacyTranslator` chooses it.
* `readChunks` is the loop over the chunks and `attempt` the whole attempt, with the calls on the
  key, the status of the audit and what was written to the client.

Only the kind of a refusal's message is kept: its text, which goes into the logs, is never empty.
The keepalive comments that precede the attempt are left out.
-/

namespace Zhongzhuan.Proxy

open Kit Protocol

/-! ## Lines -/

/-- `bytes.strip()`. -/
def stripBytes (bs : Bytes) : Bytes :=
  ((bs.dropWhile isSpaceByte).reverse.dropWhile isSpaceByte).reverse

/-- `data:`. -/
def dataWord : Bytes := [100, 97, 116, 97, 58]

/-- `[DONE]`. -/
def doneWord : Bytes := [91, 68, 79, 78, 69, 93]

/-- `usage`. -/
def usageWord : Bytes := [117, 115, 97, 103, 101]

/-- Keys whose value counts when it is not empty. -/
def payloadKeys : List String :=
  ["tool_calls", "function_call", "content_block", "content_block_start"]

/-- Keys whose value counts when it is a text that is not blank. -/
def payloadTextKeys : List String :=
  ["content", "text", "reasoning_content", "partial_json", "delta", "input_json_delta"]

/-- `isinstance(val, str) and val.strip()`. -/
def spokenText : Json → Bool
  | .str text => stripText text ≠ ""
  | _ => false

mutual

/-- `_json_stream_has_payload`. -/
def jsonStreamHasPayload : Json → Bool
  | .obj fields => fieldsHavePayload fields
  | .arr items => itemsHavePayload items
  | _ => false

/-- The fields of an object. -/
def fieldsHavePayload : List (String × Json) → Bool
  | [] => false
  | (key, val) :: fields =>
    (payloadKeys.contains key && val.truthy) || (payloadTextKeys.contains key && spokenText val)
      || jsonStreamHasPayload val || fieldsHavePayload fields

/-- The items of a list. -/
def itemsHavePayload : List Json → Bool
  | [] => false
  | item :: items => jsonStreamHasPayload item || itemsHavePayload items

end

/-- `json.loads` on bytes, and `int()` on a value, where it does not raise. -/
structure StreamReaders where
  loads : Bytes → Loaded
  int : Json → Option ℤ

/-- What a line is. -/
inductive LineKind
  /-- It does not matter. -/
  | plain
  | payload
  /-- An object with an error. -/
  | error
  /-- `json.loads` raises an exception that is not caught. -/
  | broken
deriving DecidableEq

namespace StreamReaders

variable (r : StreamReaders)

/-- What an object is. -/
def objectKind (fields : Fields) : LineKind :=
  if ((fields.get "error").getD .null).truthy then .error
  else if jsonStreamHasPayload (.obj fields) then .payload
  else .plain

/-- One line. -/
def lineKind (line : Bytes) : LineKind :=
  let s := stripBytes line
  let s := if dataWord.isPrefixOf s then stripBytes (s.drop 5) else s
  if s = [] ∨ s = doneWord then .plain
  else if ¬ (s.head? = some 123 ∧ s.getLast? = some 125) then .plain
  else
    match r.loads s with
    | .value (.obj fields) => objectKind fields
    | .value _ | .rejected => .plain
    | .raised _ => .broken

/-- `_scan_upstream_sse`: whether there is payload, whether there is an error, and the buffer. -/
def scanUpstreamSse (buf chunk : Bytes) : Option (Bool × Bool × Bytes) :=
  let cut := separate [lf] [] (buf ++ chunk)
  let kinds := cut.1.map r.lineKind
  if kinds.contains .broken then none
  else some (kinds.contains .payload, kinds.contains .error, cut.2)

/-! ### Usage -/

/-- The usage object of a line, or the exception. -/
def usageOfLine (line : Bytes) : Option (Option Fields) :=
  let line := stripBytes line
  if ¬ dataWord.isPrefixOf line then some none
  else
    let payload := stripBytes (line.drop 5)
    if payload = [] ∨ payload = doneWord then some none
    else
      match r.loads payload with
      | .value (.obj fields) =>
        match Fields.get fields "usage" with
        | some (.obj usage) => some (if usage.isEmpty then none else some usage)
        | _ => some none
      | .value _ | .rejected => some none
      | .raised _ => none

/-- The first usage object of the lines. -/
def firstUsage : List Bytes → Option (Option Fields)
  | [] => some none
  | line :: lines =>
    (r.usageOfLine line).bind fun found =>
      match found with
      | some usage => some (some usage)
      | none => firstUsage lines

/-- `_extract_usage_from_chat_stream_chunk`. -/
def extractUsage (chunk : Bytes) : Option (Option Fields) :=
  if ¬ usageWord <:+: chunk then some none
  else
    let cut := separate [lf] [] chunk
    r.firstUsage (cut.1 ++ [cut.2])

/-- `usage.get(first) or usage.get(second) or 0`. -/
def countField (usage : Fields) (first second : String) : Json :=
  ((nonempty (usage.get first)).orElse fun _ => nonempty (usage.get second)).getD (.int 0)

/-- The counts that are reported: of the translator, or of the stream. -/
def counts (ofTranslator : Option (Json × Json)) (ofStream : Option Fields) : Option (ℤ × ℤ) :=
  match ofTranslator, ofStream with
  | some usage, _ => (r.int usage.1).bind fun input => (r.int usage.2).map (input, ·)
  | none, some usage =>
    (r.int (countField usage "prompt_tokens" "input_tokens")).bind fun input =>
      (r.int (countField usage "completion_tokens" "output_tokens")).map (input, ·)
  | none, none => some (0, 0)

end StreamReaders

/-! ## Translators -/

/-- A translator, or none. -/
structure LegacyTranslator where
  State : Type
  Frame : Type
  /-- There is none. -/
  raw : Bool
  init : State
  /-- `feed`, where it does not raise. -/
  feed : State → Bytes → Option (State × List Frame)
  done : State → Bool
  /-- `finish_translator`. -/
  finish : State → State × List Frame
  /-- The attribute `usage`, with its two counts. -/
  usage : State → Option (Json × Json)

/-- A protocol of the legacy path. -/
inductive LegacyProtocol
  | openai
  | anthropic
  | responses
deriving DecidableEq

/-- What the translators draw and call. -/
structure LegacyEnv where
  turn : TurnEnv
  o2a : O2AEnv
  a2o : A2OEnv

namespace LegacyTranslator

/-- The chunks are passed on as they are. -/
def passthrough : LegacyTranslator where
  State := Unit
  Frame := Bytes
  raw := true
  init := ()
  feed _ chunk := some ((), [chunk])
  done _ := true
  finish _ := ((), [])
  usage _ := none

variable (env : LegacyEnv)

/-- `StreamO2A`, which has no `usage`. -/
def ofO2A : LegacyTranslator where
  State := Bytes × StreamO2A
  Frame := AnthropicEvent
  raw := false
  init := ([], {})
  feed s chunk :=
    ((StreamO2A.translator env.o2a).feed s.1 s.2 chunk).map fun next =>
      ((next.1, next.2.1), next.2.2)
  done s := s.2.finished
  finish s := (s, s.2.finishSafely env.o2a)
  usage _ := none

/-- `StreamA2O`, which has no `usage`. -/
def ofA2O : LegacyTranslator where
  State := StreamA2O.HeadBuffer × StreamA2O
  Frame := OpenAIFrame
  raw := false
  init := ({}, .fresh env.a2o)
  feed s chunk :=
    ((StreamA2O.translator env.a2o).feed s.1 s.2 chunk).map fun next =>
      ((next.1, next.2.1), next.2.2)
  done s := s.2.finished
  finish s := (s, s.2.finishSafely env.a2o)
  usage _ := none

/-- `ResponsesStreamTranslator.feed`. -/
def turnFeed (s : Sse.Parser × TurnBridge) (chunk : Bytes) :
    Option ((Sse.Parser × TurnBridge) × List (Option WireEvent)) :=
  ((TurnBridge.translator env.turn).feed s.1 s.2 chunk).map fun next =>
    ((next.1, next.2.1), next.2.2.map some)

/-- `finish_translator` of a `ResponsesStreamTranslator`; `none` is `data: [DONE]`. -/
def turnFinish (s : Sse.Parser × TurnBridge) :
    (Sse.Parser × TurnBridge) × List (Option WireEvent) :=
  match s.2.finishSafely env.turn with
  | some (bridge, events) => ((s.1, bridge), events.map some)
  | none => (s, [none])

/-- `ResponsesStreamTranslator`. -/
def ofTurn : LegacyTranslator where
  State := Sse.Parser × TurnBridge
  Frame := Option WireEvent
  raw := false
  init := (.fresh, .fresh env.turn)
  feed := turnFeed env
  done s := s.2.finished
  finish := turnFinish env
  usage s := some s.2.usage

/-- The second translator is fed with what the first one sends. -/
def pipe (s : Sse.Parser × TurnBridge) :
    List OpenAIFrame → Option ((Sse.Parser × TurnBridge) × List (Option WireEvent))
  | [] => some (s, [])
  | frame :: frames =>
    (turnFeed env s (frame.bytes env.a2o.created)).bind fun next =>
      (pipe next.1 frames).map fun last => (last.1, next.2 ++ last.2)

/-- `CompositeStreamTranslator` of a `StreamA2O` and a `ResponsesStreamTranslator`. -/
def ofComposite : LegacyTranslator where
  State := (StreamA2O.HeadBuffer × StreamA2O) × (Sse.Parser × TurnBridge)
  Frame := Option WireEvent
  raw := false
  init := (({}, .fresh env.a2o), (.fresh, .fresh env.turn))
  feed s chunk :=
    ((StreamA2O.translator env.a2o).feed s.1.1 s.1.2 chunk).bind fun first =>
      (pipe env s.2 first.2.2).map fun second => (((first.1, first.2.1), second.1), second.2)
  done s := s.1.2.finished && s.2.2.finished
  finish s :=
    match pipe env s.2 (s.1.2.finishSafely env.a2o) with
    | some (second, frames) =>
      ((s.1, (turnFinish env second).1), frames ++ (turnFinish env second).2)
    | none => (s, [none])
  usage s := some s.2.2.usage

end LegacyTranslator

/-- The translator for a client of one protocol and an upstream of another. -/
def legacyTranslator (env : LegacyEnv) (inbound outbound : LegacyProtocol) : LegacyTranslator :=
  if inbound = outbound then .passthrough
  else
    match inbound with
    | .responses => if outbound = .anthropic then .ofComposite env else .ofTurn env
    | .anthropic => .ofO2A env
    | .openai => .ofA2O env

/-! ## The loop over the chunks -/

/-- The local variables of the loop. -/
structure ReadState (t : LegacyTranslator) where
  translator : t.State
  scanBuf : Bytes
  pendingOut : List t.Frame
  sawPayload : Bool
  /-- `_up_error_msg` is set. -/
  upError : Bool
  rawStreamUsage : Option Fields
  /-- What was written to the client. -/
  written : List t.Frame

/-- Before the loop. -/
def ReadState.start (t : LegacyTranslator) : ReadState t where
  translator := t.init
  scanBuf := []
  pendingOut := []
  sawPayload := false
  upError := false
  rawStreamUsage := none
  written := []

/-- How a turn of the loop ends. -/
inductive ReadStep (t : LegacyTranslator)
  | next (s : ReadState t)
  /-- `break`. -/
  | stop (s : ReadState t)
  /-- An exception. -/
  | raised (s : ReadState t)

variable (r : StreamReaders) {t : LegacyTranslator}

/-- The scan of a chunk, as long as there was neither payload nor an error. -/
def ReadState.scanned (s : ReadState t) (chunk : Bytes) : Option (ReadState t) :=
  if s.sawPayload || s.upError then some s
  else
    (r.scanUpstreamSse s.scanBuf chunk).map fun found =>
      { s with scanBuf := found.2.2, sawPayload := found.1, upError := found.2.1 }

/-- What the translator makes of a chunk is held, or written after what was held. -/
def ReadState.fed (s : ReadState t) (chunk : Bytes) : ReadStep t :=
  match t.feed s.translator chunk with
  | none => .raised s
  | some (translator, out) =>
    let s := { s with translator := translator }
    if !s.sawPayload then .next { s with pendingOut := s.pendingOut ++ out }
    else
      let s := { s with pendingOut := [], written := s.written ++ s.pendingOut ++ out }
      if t.raw && s.rawStreamUsage.isNone then
        match r.extractUsage chunk with
        | none => .raised s
        | some usage => .next { s with rawStreamUsage := usage }
      else .next s

/-- One turn of the loop. -/
def ReadState.take (s : ReadState t) (chunk : Bytes) : ReadStep t :=
  if chunk = [] then .next s
  else
    match s.scanned r chunk with
    | none => .raised s
    | some s => if s.upError then .stop s else s.fed r chunk

/-- The loop; the flag is set when an exception ends it. -/
def readChunks (s : ReadState t) : List Bytes → ReadState t × Bool
  | [] => (s, false)
  | chunk :: chunks =>
    match s.take r chunk with
    | .next s => readChunks s chunks
    | .stop s => (s, false)
    | .raised s => (s, true)

/-! ## The attempt -/

/-- `_MAX_PRECOMMIT_RETRIES`. -/
def maxPrecommitRetries : ℕ := 3

/-- Where the handler goes after an attempt. -/
inductive AfterAttempt
  /-- It returns the stream. -/
  | served
  /-- It tries the next key. -/
  | again
  /-- It tells the client that it gives up. -/
  | gaveUp
deriving DecidableEq

/-- What an attempt leaves behind. -/
structure AttemptOutcome (Frame : Type) where
  calls : List KeyEvent
  /-- The status of the audit, where there is one. -/
  audit : Option ℕ
  written : List Frame
  next : AfterAttempt

/-- What the handler knows before an attempt. -/
structure AttemptConfig where
  singleKey : Bool
  /-- `_precommit_fail`. -/
  precommitFail : ℕ

/-- An attempt that has come to nothing before its first payload. -/
def refuse (cfg : AttemptConfig) (mark : KeyEvent) (s : ReadState t) : AttemptOutcome t.Frame where
  calls := [mark]
  audit := some 502
  written := s.written
  next := if maxPrecommitRetries ≤ cfg.precommitFail + 1 then .gaveUp else .again

/-- The closing events of a translator that has not finished. -/
def ReadState.closing (s : ReadState t) : t.State × List t.Frame :=
  if t.done s.translator then (s.translator, []) else t.finish s.translator

/-- The end of an attempt that counts. -/
def complete (cfg : AttemptConfig) (s : ReadState t) : AttemptOutcome t.Frame :=
  let written := s.written ++ s.closing.2
  match r.counts (t.usage s.closing.1) s.rawStreamUsage with
  | none =>
    { calls := [.success, .networkFailure cfg.singleKey]
      audit := none
      written := written
      next := .again }
  | some (input, output) =>
    { calls := .success :: if input ≠ 0 ∨ output ≠ 0 then [.recordTokens input output] else []
      audit := some 200
      written := written ++ s.pendingOut
      next := .served }

/-- What follows the loop. -/
def concludes (cfg : AttemptConfig) (s : ReadState t) : AttemptOutcome t.Frame :=
  if s.upError && !s.sawPayload then refuse cfg (.serverError cfg.singleKey) s
  else if !s.sawPayload && s.rawStreamUsage.isNone && (t.usage s.translator).isNone then
    refuse cfg (.emptyResponse cfg.singleKey) s
  else complete r cfg s

variable (t)

/-- The attempt. -/
def attempt (cfg : AttemptConfig) (chunks : List Bytes) : AttemptOutcome t.Frame :=
  let read := readChunks r (.start t) chunks
  if read.2 then
    { calls := [.networkFailure cfg.singleKey]
      audit := none
      written := read.1.written
      next := .again }
  else concludes r cfg read.1

/-- No exception ends the loop: the upstream is read to its end, or to its refusal. -/
def ReadToEnd (chunks : List Bytes) : Prop := (readChunks r (.start t) chunks).2 = false

instance (chunks : List Bytes) : Decidable (ReadToEnd r t chunks) := by
  unfold ReadToEnd
  infer_instance

end Zhongzhuan.Proxy
