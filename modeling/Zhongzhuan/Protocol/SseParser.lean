import Zhongzhuan.Kit.Lines
import Zhongzhuan.Kit.Schedule
import Zhongzhuan.Kit.Text
import Zhongzhuan.Kit.Utf8

/-!
# `SSEParser`: the incremental event-stream parser

The model of `proxy/protocol/sse_parser.py`, method by method.  A call may raise, and
the object outlives the exception, so every method returns the state it leaves together
with its result.

* `BlockState` holds the slots `_consume_line`, `_parse_field` and `_dispatch` work on;
  `Parser` adds the byte buffer and the BOM flag.
* `drainLines` is the line loop of `_drain`.  It consumes lines while the buffer is
  still whole and trims the buffer only when it is done, so an exception in the middle
  leaves every line in the buffer.  The loop also reports where the lines it handed on
  began; the source keeps no such record.
* `json.loads` is a parameter of `Config`.  It answers, raises a `ValueError` or a
  `TypeError`, or raises something else (CPython: `RecursionError` on deep nesting).

Text is a list of characters, so the lone surrogates a Python `str` may hold are outside
the model; UTF-8 decoding produces none.
-/

namespace Zhongzhuan.Protocol

open Kit

/-- What leaves a call of the parser as an exception. -/
inductive PyError
  | valueError
  /-- Neither a `ValueError` nor a `TypeError`. -/
  | other
deriving DecidableEq, Repr

/-- What `json.loads` does with a string. -/
inductive JsonProbe
  | accepts
  /-- A `ValueError` or a `TypeError`. -/
  | rejects
  | raises
deriving DecidableEq, Repr

/-- The `MALFORMED_*` constants. -/
inductive MalformedReason
  | invalidUtf8
  | badRetry
  | nulInId
  | oversize
  | badJson
deriving DecidableEq, Repr

/-- `SseFrame`. -/
structure SseFrame where
  event : Option String
  data : String
  id : Option String
  retry : Option ℕ
  raw : Bytes
deriving DecidableEq, Repr

namespace Sse

/-- The arguments of the constructor, with the check it makes. -/
structure Config where
  maxEventBytes : ℕ
  positive : 0 < maxEventBytes
  validateJson : Bool
  jsonExempt : List String
  emitDataless : Bool
  jsonLoads : String → JsonProbe

/-- The constructor's defaults. -/
def Config.default (jsonLoads : String → JsonProbe) : Config where
  maxEventBytes := 8 * 1024 * 1024
  positive := by decide
  validateJson := false
  jsonExempt := ["[DONE]"]
  emitDataless := false
  jsonLoads := jsonLoads

/-- The slots of the current event block and the counters. -/
@[ext] structure BlockState where
  rawBlock : Bytes
  dataParts : List String
  event : Option String
  id : Option String
  retry : Option ℕ
  lastEventId : String
  skipBlock : Bool
  malformed : ℕ
  reasons : MalformedReason → ℕ

namespace BlockState

/-- The state of a new parser. -/
def fresh : BlockState where
  rawBlock := []
  dataParts := []
  event := none
  id := none
  retry := none
  lastEventId := ""
  skipBlock := false
  malformed := 0
  reasons := fun _ => 0

/-- `_note_malformed`. -/
def noteMalformed (s : BlockState) (reason : MalformedReason) : BlockState :=
  { s with
    malformed := s.malformed + 1
    reasons := Function.update s.reasons reason (s.reasons reason + 1) }

/-- `_reset_block`. -/
def resetBlock (s : BlockState) : BlockState :=
  { s with rawBlock := [], dataParts := [], event := none, id := none, retry := none }

/-- `_decode`. -/
def decode (s : BlockState) (raw : Bytes) : BlockState × List Char :=
  if Utf8.wellFormed raw then (s, Utf8.decodeReplacing raw)
  else (s.noteMalformed .invalidUtf8, Utf8.decodeReplacing raw)

/-- The name and the value of a field line: split at the first colon, with exactly one
blank after it dropped; a line without a colon is a name with an empty value. -/
def splitField (text : List Char) : List Char × List Char :=
  match text.dropWhile (· ≠ ':') with
  | [] => (text, [])
  | _ :: value =>
      (text.takeWhile (· ≠ ':'), if value.head? = some ' ' then value.tail else value)

/-- `_parse_field` on a nonempty line. -/
def parseField (s : BlockState) (line : Bytes) : BlockState × Except PyError Unit :=
  if line.head? = some 0x3A then (s, .ok ())
  else
    let (s, text) := s.decode line
    let (name, value) := splitField text
    if name = "data".toList then
      ({ s with dataParts := s.dataParts ++ [String.ofList value] }, .ok ())
    else if name = "event".toList then
      ({ s with event := some (String.ofList value) }, .ok ())
    else if name = "id".toList then
      if '\x00' ∈ value then (s.noteMalformed .nulInId, .ok ())
      else
        ({ s with id := some (String.ofList value), lastEventId := String.ofList value },
          .ok ())
    else if name = "retry".toList then
      if isAsciiDigits value then
        match intOfDigits value with
        | some n => ({ s with retry := some n }, .ok ())
        | none => (s, .error .valueError)
      else (s.noteMalformed .badRetry, .ok ())
    else (s, .ok ())

/-- `_check_json`. -/
def checkJson (c : Config) (s : BlockState) (data : String) :
    BlockState × Except PyError Unit :=
  let probe := String.ofList (strip data.toList)
  if probe = "" ∨ probe ∈ c.jsonExempt then (s, .ok ())
  else
    match c.jsonLoads probe with
    | .accepts => (s, .ok ())
    | .rejects => (s.noteMalformed .badJson, .ok ())
    | .raises => (s, .error .other)

/-- `_dispatch`. -/
def dispatch (c : Config) (s : BlockState) : BlockState × Except PyError (Option SseFrame) :=
  let hasData := !s.dataParts.isEmpty
  let hasMeta := s.event.isSome || s.id.isSome || s.retry.isSome
  if !hasData && !(c.emitDataless && hasMeta) then (s.resetBlock, .ok none)
  else
    let data := String.intercalate "\n" s.dataParts
    let frame : SseFrame := ⟨s.event, data, s.id, s.retry, s.rawBlock⟩
    if c.validateJson then
      match s.checkJson c data with
      | (s, .ok ()) => (s.resetBlock, .ok (some frame))
      | (s, .error e) => (s, .error e)
    else (s.resetBlock, .ok (some frame))

/-- `_consume_line`. -/
def consumeLine (c : Config) (s : BlockState) (line raw : Bytes) :
    BlockState × Except PyError (Option SseFrame) :=
  if s.skipBlock then
    if line = [] then ({ s with skipBlock := false }.resetBlock, .ok none)
    else (s, .ok none)
  else
    let s := { s with rawBlock := s.rawBlock ++ raw }
    if line = [] then s.dispatch c
    else if c.maxEventBytes < s.rawBlock.length then
      ({ (s.noteMalformed .oversize).resetBlock with skipBlock := true }, .ok none)
    else
      match s.parseField line with
      | (s, .ok ()) => (s, .ok none)
      | (s, .error e) => (s, .error e)

/-- The memory valve at the end of `_drain`, for a rest that is over the limit. -/
def valve (s : BlockState) : BlockState :=
  if s.skipBlock then s
  else { (s.noteMalformed .oversize).resetBlock with skipBlock := true }

end BlockState

/-- The slots `_strip_bom` and the line loop work on. -/
structure Reader where
  buf : Bytes
  bomDone : Bool
deriving DecidableEq, Repr

/-- A parser object. -/
structure Parser extends Reader where
  block : BlockState

/-- The UTF-8 form of U+FEFF. -/
def bom : Bytes := [0xEF, 0xBB, 0xBF]

/-- `_strip_bom`: what it leaves and whether parsing can go on. -/
def Reader.stripBom (final : Bool) (r : Reader) : Reader × Bool :=
  if r.bomDone then (r, true)
  else if 3 ≤ r.buf.length then
    (⟨if r.buf.take 3 = bom then r.buf.drop 3 else r.buf, true⟩, true)
  else if final || !(r.buf.isPrefixOf bom) then (⟨r.buf, true⟩, true)
  else (r, false)

/-- What the line loop leaves. -/
structure Drained where
  block : BlockState
  /-- For every line handed to `_consume_line`, the number of buffered bytes from its
  first byte on. -/
  consumed : List ℕ
  /-- The frames and the bytes of no complete line, or the exception. -/
  result : Except PyError (List SseFrame × Bytes)

/-- The line loop of `_drain`.  Each pass takes a line off the bytes from `pos` on; the
first argument bounds the passes and is the length of the buffer at the start. -/
def drainLines (c : Config) (final : Bool) : ℕ → BlockState → Bytes → Drained
  | 0, s, rest => ⟨s, [], .ok ([], rest)⟩
  | passes + 1, s, rest =>
      match nextLine final rest with
      | none => ⟨s, [], .ok ([], rest)⟩
      | some (l, after) =>
          match s.consumeLine c l.text l.raw with
          | (s, .error e) => ⟨s, [rest.length], .error e⟩
          | (s, .ok frame) =>
              let more := drainLines c final passes s after
              ⟨more.block, rest.length :: more.consumed,
                more.result.map fun (frames, rest) => (frame.toList ++ frames, rest)⟩

/-- What a call of the parser leaves. -/
structure Outcome where
  parser : Parser
  consumed : List ℕ
  result : Except PyError (List SseFrame)

namespace Parser

/-- A new parser. -/
def fresh : Parser := ⟨⟨[], false⟩, .fresh⟩

/-- `_drain`. -/
def drain (c : Config) (final : Bool) (p : Parser) : Outcome :=
  match p.toReader.stripBom final with
  | (r, false) => ⟨⟨r, p.block⟩, [], .ok []⟩
  | (r, true) =>
      let lines := drainLines c final r.buf.length p.block r.buf
      match lines.result with
      | .error e => ⟨⟨r, lines.block⟩, lines.consumed, .error e⟩
      | .ok (frames, rest) =>
          if final && !rest.isEmpty then
            -- The last line has no terminator; the buffer is cleared before it is read.
            match lines.block.consumeLine c rest rest with
            | (s, .error e) =>
                ⟨⟨⟨[], r.bomDone⟩, s⟩, lines.consumed ++ [rest.length], .error e⟩
            | (s, .ok frame) =>
                ⟨⟨⟨[], r.bomDone⟩, s⟩, lines.consumed ++ [rest.length],
                  .ok (frames ++ frame.toList)⟩
          else if c.maxEventBytes < rest.length then
            ⟨⟨⟨[], r.bomDone⟩, lines.block.valve⟩, lines.consumed, .ok frames⟩
          else ⟨⟨⟨rest, r.bomDone⟩, lines.block⟩, lines.consumed, .ok frames⟩

/-- `feed`. -/
def feed (c : Config) (p : Parser) (chunk : Bytes) : Outcome :=
  if chunk = [] then ⟨p, [], .ok []⟩ else drain c false { p with buf := p.buf ++ chunk }

/-- The end of `flush`, after the residual block was dispatched. -/
def close (s : BlockState) : Parser :=
  ⟨⟨[], true⟩, { s.resetBlock with skipBlock := false }⟩

/-- `flush`. -/
def flush (c : Config) (p : Parser) : Outcome :=
  let drained := drain c true p
  match drained.result with
  | .error e => ⟨drained.parser, drained.consumed, .error e⟩
  | .ok frames =>
      if drained.parser.block.skipBlock then
        ⟨close drained.parser.block, drained.consumed, .ok frames⟩
      else
        match drained.parser.block.dispatch c with
        | (s, .error e) => ⟨{ drained.parser with block := s }, drained.consumed, .error e⟩
        | (s, .ok residual) =>
            ⟨close s, drained.consumed, .ok (frames ++ residual.toList)⟩

end Parser

/-- A call a user of the parser makes. -/
inductive Call
  | feed (chunk : Bytes)
  | flush
deriving DecidableEq, Repr

/-- The bytes a call hands over. -/
def Call.bytes : Call → Bytes
  | .feed chunk => chunk
  | .flush => []

def Parser.call (c : Config) (p : Parser) : Call → Outcome
  | .feed chunk => p.feed c chunk
  | .flush => p.flush c

/-- A parser object over a run of calls, with what was observed of it: the number of
bytes it was given, where in the stream each line handed to `_consume_line` began, and
what every call returned. -/
structure Session where
  parser : Parser
  received : ℕ
  processed : List ℕ
  results : List (Except PyError (List SseFrame))

namespace Session

/-- A new parser that was not called yet. -/
def fresh : Session := ⟨.fresh, 0, [], []⟩

/-- One call.  The object stays usable after a call that raised. -/
def step (c : Config) (s : Session) (k : Call) : Session :=
  let outcome := s.parser.call c k
  let received := s.received + k.bytes.length
  { parser := outcome.parser
    received := received
    processed := s.processed ++ outcome.consumed.map (received - ·)
    results := s.results ++ [outcome.result] }

/-- The run of `calls` on a new parser. -/
def run (c : Config) (calls : List Call) : Session := runSchedule (step c) fresh calls

/-- Every call returned, and these are all the frames. -/
def Returned (s : Session) (frames : List SseFrame) : Prop :=
  ∃ parts : List (List SseFrame), s.results = parts.map .ok ∧ frames = parts.flatten

end Session

end Sse

end Zhongzhuan.Protocol
