import Zhongzhuan.Kit.Json
import Zhongzhuan.Kit.Lines
import Zhongzhuan.Kit.Rounds
import Zhongzhuan.Protocol.Models
import Zhongzhuan.Proxy.RetryKey
import Zhongzhuan.Responses.Pipeline
import Zhongzhuan.Store.BackgroundJobs

/-!
# The streaming create

`_dispatch_v3_create_stream`: before the first byte is sent to the client, one key after the
other is tried; once a frame with content has come, the answer is committed and the upstream
that sent it is the one.

* `V3CreateContext` is what `_prepare_v3_create` leaves of a request, with the row it has
  written, and `persistV3StreamTerminal` closes the row.
* `StreamRound` is what one round meets: what comes of the call that
  `_prepare_v3_upstream_call` prepares and of the upstream's answer, a second time if the call
  is repeated without `reasoning_effort`.
* `StreamState` are the local variables that outlive a round, `streamRound` is the body of the
  loop, `allKeysFailed` the code after it.

The scores of the candidates change from attempt to attempt and are an argument.  Whether a
frame has content (`_v3_frame_has_content`) and whether an error page is a challenge of the
network in front of the upstream are parameters.  `StreamState.attempts` is a record the source
does not keep: the keys of the calls that were begun, with a mark on repeated ones.
-/

namespace Zhongzhuan.Proxy

open Kit Protocol Responses Store

/-! ## The row of a response -/

/-- A row of `responses`, as far as its end is concerned. -/
structure ResponseRow where
  status : RunStatus
  terminalReason : String
  usage : Fields
  output : List Json
deriving DecidableEq

/-- The row has the status of a response that is over. -/
def ResponseRow.Settled (row : ResponseRow) : Prop :=
  row.status = .completed ∨ row.status = .failed ∨ row.status = .incomplete

instance (row : ResponseRow) : Decidable row.Settled := inferInstanceAs (Decidable (_ ∨ _))

/-- The fields of `_V3CreateContext` that the creates read. -/
structure V3CreateContext where
  bodyObj : Fields
  responseId : String
  previousResponseId : String
  storeEnabled : Bool
  /-- `rs` is not `None`: there is a store, and it has taken the skeleton row. -/
  hasStore : Bool

namespace V3CreateContext

variable (prep : V3CreateContext)

/-- The row `_prepare_v3_create` writes. -/
def skeleton : Option ResponseRow :=
  if prep.storeEnabled ∧ prep.hasStore then
    some { status := .inProgress, terminalReason := "", usage := [], output := [] }
  else none

/-- `_persist_v3_stream_terminal`, over a store that takes the write. -/
def persistV3StreamTerminal (status : RunStatus) (terminalReason : String)
    (output : List Json) : Option ResponseRow :=
  if !prep.storeEnabled ∨ !prep.hasStore then prep.skeleton
  else
    some { status := status, terminalReason := terminalReason, usage := [], output := output }

end V3CreateContext

/-! ## Answers -/

/-- The body of an answer. -/
inductive AnswerBody (Frame : Type)
  /-- A `StreamResponse`, with the frames that were written to it. -/
  | stream (written : List Frame)
  | bytes (data : Bytes)
  | text (text : String)
  | json (object : Fields)

/-- What the client gets. -/
structure Answer (Frame : Type) where
  status : ℕ
  body : AnswerBody Frame

/-! ## What a round meets -/

/-- An error of `_prepare_v3_upstream_call`. -/
inductive CallError
  /-- The window of the key is full. -/
  | windowFull
  /-- There is no client for the upstream. -/
  | noClient
  /-- The request cannot be translated. -/
  | untranslated
deriving DecidableEq, Repr

/-- `status_code` of the error. -/
def CallError.statusCode : CallError → ℕ
  | .windowFull => 429
  | .noClient => 503
  | .untranslated => 500

/-- `local_rate_limited` of the error. -/
def CallError.localRateLimited : CallError → Bool
  | .windowFull => true
  | .noClient | .untranslated => false

/-- The body of the error. -/
def CallError.body : CallError → Fields
  | .windowFull => [("error", .str "all keys exhausted")]
  | .noClient => [("error", .str "no enabled keys")]
  | .untranslated => [("error", .str "request translation failed")]

/-- The stream of an upstream, as the pipeline passes it on. -/
structure UpstreamStream (Frame : Type) where
  /-- The frames; `none` is a connection error while one is awaited or written. -/
  events : List (Option Frame)
  /-- `pipeline.state` after the stream. -/
  state : LiveState
  /-- `pipeline.stats.terminal_reason`. -/
  terminalReason : Option TerminalReason
  /-- `pipeline.output_items()`. -/
  output : List Json

/-- The header of an upstream's answer, and what follows it. -/
structure UpstreamAnswer (Frame : Type) where
  statusCode : ℕ
  /-- `aread()`, where the status is an error. -/
  errorBody : Bytes
  /-- The error is about `reasoning_effort`, or the request has one, and it could be stripped. -/
  effortStripped : Bool
  /-- What `classify_failure_labelled` makes of the error. -/
  retryable : Bool
  stream : UpstreamStream Frame

/-- What one attempt to open an upstream meets. -/
inductive Opening (Frame : Type)
  | callError (e : CallError)
  /-- `StopAsyncIteration`. -/
  | nothing
  /-- A connection error, while the client's own connection is closing or not. -/
  | connectionError (clientClosing : Bool)
  /-- Any other exception. -/
  | exception
  | answered (r : UpstreamAnswer Frame)

/-- What one round meets: `second` if the call is repeated without `reasoning_effort`. -/
structure StreamRound (Frame : Type) where
  first : Opening Frame
  second : Opening Frame

/-! ## The local variables -/

/-- The attempt that was cut off before its first byte. -/
structure Truncated (Frame : Type) where
  buf : List Frame
  state : LiveState
  terminalReason : Option TerminalReason
  output : List Json

/-- The local variables of the handler. -/
structure StreamState (Frame : Type) where
  tried : Finset ℕ
  httpFailed : Finset ℕ
  lastTruncated : Option (Truncated Frame)
  lastReason : Option TerminalReason
  /-- Zero where no upstream has answered with an error. -/
  lastUpstreamStatus : ℕ
  lastUpstreamBody : Bytes
  lastUpstreamRetryable : Bool
  attempts : List (ℕ × Bool)

/-- The local variables before the loop. -/
def StreamState.init (Frame : Type) : StreamState Frame where
  tried := ∅
  httpFailed := ∅
  lastTruncated := none
  lastReason := none
  lastUpstreamStatus := 0
  lastUpstreamBody := []
  lastUpstreamRetryable := false
  attempts := []

/-- What the handler leaves: its answer, the row, and the attempts. -/
structure Served (Frame : Type) where
  answer : Answer Frame
  row : Option ResponseRow
  attempts : List (ℕ × Bool)
  /-- The loop has run out of keys. -/
  gaveUp : Bool

/-- How the inner loop of a round ends. -/
inductive Opened (Frame : Type)
  /-- The next key. -/
  | failed (st : StreamState Frame)
  | answer (served : Served Frame)
  /-- The upstream has answered 200. -/
  | stream (st : StreamState Frame) (stream : UpstreamStream Frame)

/-- What the handler is configured with. -/
structure StreamConfig (Frame : Type) where
  /-- `_v3_frame_has_content`. -/
  hasContent : Frame → Bool
  /-- `looks_like_cloudflare_block` or `looks_like_proxy_block`. -/
  looksBlocked : ℕ → Bytes → Bool
  /-- The body of `_clean_upstream_failure` for such a page. -/
  blockedBody : Bytes

/-- `_V3_STREAM_MAX_SWITCHES`. -/
def v3StreamMaxSwitches : ℕ := 5

/-- `max_switches` of a create. -/
def V3Candidates.maxSwitches (c : V3Candidates) : ℕ :=
  min c.candidates.length (v3StreamMaxSwitches + 1)

/-! ## Opening an upstream -/

variable {Frame : Type} (cfg : StreamConfig Frame) (prep : V3CreateContext)

/-- One pass of the inner loop.  `again` is its next pass, as long as nothing has been
stripped. -/
def openOnce (key : Candidate) (again : Option (StreamState Frame → Opened Frame))
    (st : StreamState Frame) : Opening Frame → Opened Frame
  | .callError e =>
    let st := { st with attempts := st.attempts ++ [(key.keyId, again.isNone)] }
    if e.localRateLimited then .failed { st with tried := insert key.keyId st.tried }
    else if e.statusCode = 429 then
      .answer
        { answer := { status := e.statusCode, body := .json e.body }
          row := prep.persistV3StreamTerminal .failed TerminalReason.upstreamError.value []
          attempts := st.attempts
          gaveUp := false }
    else .failed { st with httpFailed := insert key.keyId st.httpFailed }
  | opening =>
    let st :=
      { st with
        attempts := st.attempts ++ [(key.keyId, again.isNone)]
        tried := insert key.keyId st.tried }
    match opening with
    | .connectionError true =>
      .answer
        { answer := { status := 499, body := .text "Client Closed Request" }
          row := prep.skeleton
          attempts := st.attempts
          gaveUp := false }
    | .answered r =>
      if 400 ≤ r.statusCode then
        match again, r.effortStripped && (r.statusCode = 400 || r.statusCode = 422) with
        | some again, true => again st
        | _, _ =>
          .failed
            { st with
              httpFailed := insert key.keyId st.httpFailed
              lastUpstreamStatus := r.statusCode
              lastUpstreamBody := r.errorBody
              lastUpstreamRetryable := r.retryable }
      else .stream st r.stream
    | _ => .failed st

/-- The inner loop. -/
def openUpstream (key : Candidate) (r : StreamRound Frame) (st : StreamState Frame) :
    Opened Frame :=
  openOnce prep key (some fun st => openOnce prep key none st r.second) st r.first

/-! ## Passing the stream on -/

/-- The local variables of the loop over the frames. -/
structure Passed (Frame : Type) where
  committed : Bool
  clientGone : Bool
  buf : List Frame
  written : List Frame

/-- The loop over the frames. -/
def passFrames (hasContent : Frame → Bool) (p : Passed Frame) :
    List (Option Frame) → Passed Frame
  | [] => p
  | none :: _ => { p with clientGone := true }
  | some frame :: events =>
    if p.committed then passFrames hasContent { p with written := p.written ++ [frame] } events
    else
      let buf := p.buf ++ [frame]
      if hasContent frame then
        passFrames hasContent
          { p with committed := true, written := p.written ++ buf, buf := [] } events
      else passFrames hasContent { p with buf := buf } events

/-- The frames of a stream, passed on. -/
def UpstreamStream.passed (stream : UpstreamStream Frame) : Passed Frame :=
  passFrames cfg.hasContent { committed := false, clientGone := false, buf := [], written := [] }
    stream.events

/-- The status a response is closed with when its stream is over. -/
def closingRunStatus : LiveState → RunStatus
  | .ended .completed => .completed
  | .ended .failed => .failed
  | _ => .incomplete

/-- A round after its upstream has answered 200. -/
def consumeStream (st : StreamState Frame) (stream : UpstreamStream Frame) :
    Flow (StreamState Frame) (Served Frame) :=
  let p := stream.passed cfg
  if p.clientGone then
    .answer
      { answer := { status := 200, body := .stream p.written }
        row := prep.persistV3StreamTerminal .incomplete TerminalReason.cancelledByClient.value
          stream.output
        attempts := st.attempts
        gaveUp := false }
  else if p.committed then
    .answer
      { answer := { status := 200, body := .stream p.written }
        row := prep.persistV3StreamTerminal (closingRunStatus stream.state)
          (stream.terminalReason.getD .normalFinish).value stream.output
        attempts := st.attempts
        gaveUp := false }
  else
    match stream.terminalReason with
    | some reason =>
      .next
        { st with
          lastReason := some reason
          lastTruncated := some
            { buf := p.buf
              state := stream.state
              terminalReason := stream.terminalReason
              output := stream.output } }
    | none => .next st

/-- A round after its inner loop. -/
def afterOpening : Opened Frame → Flow (StreamState Frame) (Served Frame)
  | .failed st => .next st
  | .answer served => .answer served
  | .stream st stream => consumeStream cfg prep st stream

/-! ## The loop -/

/-- One round of the loop. -/
def streamRound (c : V3Candidates) (score : ℕ → Candidate → ℚ) (meets : ℕ → StreamRound Frame)
    (i : ℕ) (st : StreamState Frame) : Flow (StreamState Frame) (Served Frame) :=
  match c.selectRetryKey (score i) st.tried with
  | none => .stop st
  | some decision => afterOpening cfg prep (openUpstream prep decision.key (meets i) st)

/-- `_clean_upstream_failure`, without the content type. -/
def cleanUpstreamFailure (status : ℕ) (body : Bytes) : ℕ × Bytes :=
  if cfg.looksBlocked status body then (502, cfg.blockedBody) else (status, body)

/-- The error of a create whose candidates all came to nothing. -/
def emptyUpstreamResponse (st : StreamState Frame) : Fields :=
  let (code, detail) :=
    match st.lastReason with
    | some reason =>
      ("upstream_unavailable", " (last terminal_reason=" ++ reason.value ++ ")")
    | none => ("empty_upstream_response", "")
  let detail :=
    if st.lastUpstreamStatus = 0 then detail
    else detail ++ "; last upstream status=" ++ toString st.lastUpstreamStatus
  [("error", .obj
    [("message", .str ("upstream returned an empty response on all " ++ toString st.tried.card
        ++ " candidate key(s)" ++ detail)),
      ("type", .str "upstream_error"),
      ("code", .str code)])]

/-- The code after the loop. -/
def allKeysFailed (st : StreamState Frame) : Served Frame :=
  let refused := st.lastUpstreamStatus = 401 ∨ st.lastUpstreamStatus = 403
    ∨ 400 ≤ st.lastUpstreamStatus ∧ st.lastUpstreamStatus < 500 ∧ !st.lastUpstreamRetryable
  let failed :=
    if st.lastUpstreamBody ≠ [] ∧ refused then
      let (status, body) := cleanUpstreamFailure cfg st.lastUpstreamStatus st.lastUpstreamBody
      { answer := { status := status, body := .bytes body }
        row := prep.persistV3StreamTerminal .failed TerminalReason.upstreamError.value []
        attempts := st.attempts
        gaveUp := true }
    else
      { answer := { status := 502, body := .json (emptyUpstreamResponse st) }
        row := prep.persistV3StreamTerminal .failed
          (st.lastReason.getD .upstreamError).value []
        attempts := st.attempts
        gaveUp := true }
  match st.lastTruncated with
  | some t =>
    if t.buf.any cfg.hasContent then
      { answer := { status := 200, body := .stream t.buf }
        row := prep.persistV3StreamTerminal (closingRunStatus t.state)
          (t.terminalReason.getD .upstreamTruncated).value t.output
        attempts := st.attempts
        gaveUp := true }
    else failed
  | none => failed

/-- `_dispatch_v3_create_stream`, after its preparation. -/
def dispatchV3CreateStream (c : V3Candidates) (score : ℕ → Candidate → ℚ)
    (meets : ℕ → StreamRound Frame) : Served Frame :=
  (rounds (streamRound cfg prep c score meets) c.maxSwitches 0 (.init Frame)).elim
    (allKeysFailed cfg prep) id

end Zhongzhuan.Proxy
