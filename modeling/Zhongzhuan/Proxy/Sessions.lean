import Zhongzhuan.Kit.Dict
import Zhongzhuan.Kit.Json
import Zhongzhuan.Kit.Text
import Zhongzhuan.Proxy.KeyHealth

/-!
# Sessions: orchestrators and sticky bindings

What the proxy keeps from one request to the next of the same conversation: the key that
served it last (in memory and in `route_bindings`) and its multi-agent orchestrator.  Both are
indexed by the session key, which `_session_key` takes from the headers, from the body, or from
the first message of the user.

* `SessionTables` are the tables, with `ProxyHandler`'s words for them.
* The operations on them are one definition each.  A request's operations on the tables are
  `pinned` up to the sticky entry it leaves, the sweep of an overfull table, and the write of
  the persistent row.
* `SessionRequest.rest` is everything else the handler does.  It sees of the tables what the
  request obtained, and is otherwise arbitrary.

The write of the persistent row is a task of its own in the source; here it follows at once.
-/

namespace Zhongzhuan.Proxy

open Kit

/-! ## The session key -/

/-- `request.headers.get(name)`. -/
def Headers.first (headers : Headers) (name : String) : Option String :=
  (headers.find? fun h => h.1.toLower = name).map Prod.snd

/-- The functions of the standard library that the fingerprint goes through. -/
structure Digest where
  /-- `json.dumps(value, ensure_ascii=False, sort_keys=True)`. -/
  dumpsSorted : Json → String
  /-- `hashlib.sha256(text.encode()).hexdigest()`. -/
  sha256 : String → String

/-- The text of an item that the fingerprint is taken of, if it is taken of this one. -/
def fingerprintText (d : Digest) : Json → Option String
  | .obj msg =>
    if Fields.get msg "role" = some (.str "reasoning")
        ∨ Fields.get msg "type" = some (.str "reasoning") then none
    else if Fields.get msg "role" ≠ some (.str "user") then none
    else
      match Fields.get msg "content" with
      | none | some .null => none
      | some content =>
        let text :=
          match content with
          | .str text => stripText text
          | other => stripText (d.dumpsSorted other)
        if text = "" then none else some text
  | _ => none

/-- `_stable_fingerprint`. -/
def stableFingerprint (d : Digest) (body : Fields) : String :=
  let msgs :=
    match Fields.get body "messages" with
    | none | some .null => Fields.get body "input"
    | some msgs => some msgs
  match msgs with
  | some (.arr msgs) =>
    match msgs.findSome? (fingerprintText d) with
    | some text => "fp:" ++ String.ofList ((d.sha256 text).toList.take 16)
    | none => ""
  | _ => ""

/-- A header that is there and not empty. -/
def Headers.nonEmpty (headers : Headers) (name : String) : Option String :=
  (headers.first name).filter (· ≠ "")

/-- A field of the body that holds a text with something in it. -/
def explicitId (body : Fields) (field : String) : Option String :=
  match Fields.get body field with
  | some (.str v) => if stripText v = "" then none else some (stripText v)
  | _ => none

/-- `_session_key`. -/
def sessionKey (d : Digest) (headers : Headers) (body : Fields) : String :=
  match ["x-session-id", "x-zhongzhuan-session", "x-request-id"].findSome? headers.nonEmpty with
  | some v => "hdr:" ++ v
  | none =>
    match ["conversation", "previous_response_id"].findSome? (explicitId body) with
    | some v => "id:" ++ v
    | none => stableFingerprint d body

/-! ## The tables -/

/-- A row of `route_bindings`, without its primary key. -/
structure RouteBinding where
  keyId : ℕ
  capabilities : Finset String
  workspaceId : String
  createdAt : ℤ
  updatedAt : ℤ
  expiresAt : ℤ
  failoverCount : ℕ
  lastFailoverReason : String
deriving DecidableEq

/-- The tables.  An orchestrator is kept with the number of its instance. -/
structure SessionTables (O : Type) where
  /-- `_sticky`: the key, and until when. -/
  sticky : Dict String (ℕ × ℚ)
  stickyCaps : Dict String (Finset String)
  bindingFailoverReasons : Dict String String
  /-- `route_bindings`. -/
  routeBindings : Dict String RouteBinding
  /-- `_multi_agent_sessions`. -/
  multiAgentSessions : Dict String (ℕ × O)
  maSessionLastActive : Dict String ℚ
  /-- The number of the next instance. -/
  nextInstance : ℕ

/-- A handler that has just been constructed, over the rows that are in the store. -/
def SessionTables.start {O : Type} (rows : Dict String RouteBinding) : SessionTables O where
  sticky := .empty
  stickyCaps := .empty
  bindingFailoverReasons := .empty
  routeBindings := rows
  multiAgentSessions := .empty
  maSessionLastActive := .empty
  nextInstance := 0

/-- What a handler is configured with. -/
structure SessionConfig (O : Type) where
  digest : Digest
  stickyTtl : ℚ
  /-- There is a store. -/
  hasStore : Bool
  /-- `MultiAgentOrchestrator(default_model=…, default_session=…)`. -/
  newOrchestrator : String → String → O
  setDefaultModel : O → String → O
  setDefaultSession : O → String → O
  /-- The text of a capability mismatch, from what is required and what is bound. -/
  mismatch : Finset String → Finset String → String

/-- `int(x)` of a float. -/
def truncate (x : ℚ) : ℤ := if 0 ≤ x then ⌊x⌋ else ⌈x⌉

/-- The number of sessions above which `_set_sticky` sweeps. -/
def maxStickySessions : ℕ := 256

/-- `_MULTI_AGENT_SESSION_IDLE_TTL`. -/
def multiAgentSessionIdleTtl : ℚ := 1800

namespace SessionTables

variable {O : Type} (cfg : SessionConfig O) (key : String) (s : SessionTables O)

/-! ## The operations -/

/-- `_get_or_create_orchestrator`. -/
def getOrCreateOrchestrator (parentModel : String) (now : ℚ) :
    SessionTables O × Option (ℕ × O) :=
  let s := { s with maSessionLastActive := s.maSessionLastActive.set key now }
  match s.multiAgentSessions.get? key with
  | none =>
    let orch := (s.nextInstance, cfg.newOrchestrator parentModel key)
    ({ s with
        multiAgentSessions := s.multiAgentSessions.set key orch
        nextInstance := s.nextInstance + 1 }, some orch)
  | some (number, orch) =>
    let orch := if parentModel = "" then orch else cfg.setDefaultModel orch parentModel
    let orch := cfg.setDefaultSession orch key
    ({ s with multiAgentSessions := s.multiAgentSessions.set key (number, orch) },
      some (number, orch))

/-- `get_route_binding`. -/
def getRouteBinding (workspaceId : String) (now : ℚ) : SessionTables O × Option RouteBinding :=
  match s.routeBindings.get? key with
  | none => (s, none)
  | some rec =>
    if rec.expiresAt ≠ 0 ∧ rec.expiresAt < truncate now then
      ({ s with routeBindings := s.routeBindings.erase key }, none)
    else if workspaceId ≠ "" ∧ rec.workspaceId ≠ "" ∧ rec.workspaceId ≠ workspaceId then (s, none)
    else (s, some rec)

/-- `_restore_sticky_from_store`, which names no workspace. -/
def restoreStickyFromStore (now : ℚ) : SessionTables O :=
  if !cfg.hasStore ∨ key = "" ∨ (s.sticky.get? key).isSome then s
  else
    match s.getRouteBinding key "" now with
    | (s, none) => s
    | (s, some rec) =>
      { s with
        sticky := s.sticky.set key (rec.keyId, now + cfg.stickyTtl)
        stickyCaps :=
          if rec.capabilities = ∅ then s.stickyCaps
          else s.stickyCaps.set key rec.capabilities }

/-- `_get_sticky_key`.  `available` are the candidates that are available. -/
def getStickyKey (available : ℕ → Bool) (required : Finset String) (now : ℚ) :
    SessionTables O × Option ℕ :=
  match s.sticky.get? key with
  | none => (s, none)
  | some (keyId, expireAt) =>
    if expireAt < now then
      ({ s with
          sticky := s.sticky.erase key
          stickyCaps := s.stickyCaps.erase key }, none)
    else if available keyId then
      let bound := (s.stickyCaps.get? key).getD ∅
      if required ≠ ∅ ∧ bound ≠ ∅ ∧ ¬ required ⊆ bound then
        ({ s with
            bindingFailoverReasons :=
              s.bindingFailoverReasons.set key (cfg.mismatch required bound) }, none)
      else (s, some keyId)
    else (s, none)

/-- `_persist_sticky_failover`, with `record_binding_failover`. -/
def persistStickyFailover (now : ℚ) : SessionTables O :=
  let reason := (s.bindingFailoverReasons.get? key).getD ""
  let s := { s with bindingFailoverReasons := s.bindingFailoverReasons.erase key }
  if !cfg.hasStore ∨ reason = "" then s
  else
    match s.routeBindings.get? key with
    | none => s
    | some rec =>
      { s with
        routeBindings := s.routeBindings.set key
          { rec with
            failoverCount := rec.failoverCount + 1
            lastFailoverReason := String.ofList (reason.toList.take 255)
            updatedAt := truncate now } }

/-- `_set_sticky` for a session, without the sweep. -/
def pin (keyId : ℕ) (caps : Finset String) (now : ℚ) : SessionTables O :=
  { s with
    sticky := s.sticky.set key (keyId, now + cfg.stickyTtl)
    stickyCaps := s.stickyCaps.set key caps }

/-- The table holds so many sessions that `_set_sticky` sweeps it. -/
def Overfull : Prop := maxStickySessions < s.sticky.entries.length

instance : Decidable s.Overfull := inferInstanceAs (Decidable (_ < _))

/-- The sweep of `_set_sticky`. -/
def sweep (now : ℚ) : SessionTables O :=
  if s.Overfull then { s with sticky := s.sticky.keepIf fun _ v => decide (now < v.2) } else s

/-- `_persist_sticky_binding`, with `upsert_route_binding`, which names no workspace either. -/
def persistStickyBinding (keyId : ℕ) (caps : Finset String) (now : ℚ) : SessionTables O :=
  if !cfg.hasStore ∨ key = "" then s
  else
    { s with
      routeBindings := s.routeBindings.set key
        { keyId := keyId
          capabilities := caps
          workspaceId := ""
          createdAt := truncate now
          updatedAt := truncate now
          expiresAt := truncate (now + cfg.stickyTtl)
          failoverCount := 0
          lastFailoverReason := "" } }

/-- One round of `_sticky_cleanup_loop`. -/
def cleanup (now : ℚ) : SessionTables O :=
  let sticky := s.sticky.keepIf fun _ v => decide (now < v.2)
  let stale := fun k =>
    (s.multiAgentSessions.get? k).isSome
      && decide ((s.maSessionLastActive.get? k).getD now < now - multiAgentSessionIdleTtl)
  { s with
    sticky := sticky
    stickyCaps := s.stickyCaps.keepIf fun k _ => (sticky.get? k).isSome
    multiAgentSessions := s.multiAgentSessions.keepIf fun k _ => !stale k
    maSessionLastActive := s.maSessionLastActive.keepIf fun k _ => !stale k }

end SessionTables

/-! ## Requests -/

/-- What the rest of the handler comes to. -/
structure Rest (O A : Type) where
  answer : A
  /-- The orchestrator as the request leaves it. -/
  orchestrator : O → O
  /-- The key that served the request. -/
  servedBy : Option ℕ

/-- A request.  `rest` is given the orchestrator and the sticky key that the request obtained. -/
structure SessionRequest (O A : Type) where
  workspaceId : String
  headers : Headers
  body : Fields
  /-- What the clock shows while the request is served. -/
  clock : ℕ → ℚ
  /-- The parent model, where multi-agent is active. -/
  parentModel : Option String
  /-- The handler prefers the sticky key on its first attempt. -/
  prefersSticky : Bool
  available : ℕ → Bool
  required : Finset String
  rest : Option O → Option ℕ → Rest O A

variable {O A : Type}

/-- The session key of a request. -/
def SessionRequest.key (cfg : SessionConfig O) (r : SessionRequest O A) : String :=
  sessionKey cfg.digest r.headers r.body

namespace SessionTables

variable (cfg : SessionConfig O)

/-- The orchestrator of a request. -/
def obtain (s : SessionTables O) (r : SessionRequest O A) :
    SessionTables O × Option (ℕ × O) :=
  match r.parentModel with
  | some parentModel => s.getOrCreateOrchestrator cfg (r.key cfg) parentModel (r.clock 0)
  | none => (s, none)

/-- The sticky key of a request. -/
def prefer (s : SessionTables O) (r : SessionRequest O A) : SessionTables O × Option ℕ :=
  let key := r.key cfg
  if r.prefersSticky ∧ key ≠ "" then
    let s := s.restoreStickyFromStore cfg key (r.clock 1)
    match s.getStickyKey cfg key r.available r.required (r.clock 2) with
    | (s, some keyId) => (s, some keyId)
    | (s, none) =>
      if (s.bindingFailoverReasons.get? key).isSome then
        (s.persistStickyFailover cfg key (r.clock 3), none)
      else (s, none)
  else (s, none)

/-- The orchestrator of a request after it. -/
def leave (s : SessionTables O) (key : String) (orchestrator : O → O) :
    Option (ℕ × O) → SessionTables O
  | some (number, orch) =>
    { s with
      multiAgentSessions := s.multiAgentSessions.set key (number, orchestrator orch) }
  | none => s

/-- The key that a request of a session pins. -/
def pins (cfg : SessionConfig O) (r : SessionRequest O A) (servedBy : Option ℕ) : Option ℕ :=
  if r.key cfg = "" then none else servedBy

/-- A request up to the sticky entry it leaves: the tables, its answer, and the key it pins. -/
def pinned (s : SessionTables O) (r : SessionRequest O A) : SessionTables O × A × Option ℕ :=
  let key := r.key cfg
  let (s, orch) := s.obtain cfg r
  let (s, sticky) := s.prefer cfg r
  let rest := r.rest (orch.map Prod.snd) sticky
  let s := s.leave key rest.orchestrator orch
  match pins cfg r rest.servedBy with
  | some keyId => (s.pin cfg key keyId r.required (r.clock 4), rest.answer, some keyId)
  | none => (s, rest.answer, none)

/-- A request. -/
def handle (s : SessionTables O) (r : SessionRequest O A) : SessionTables O × A :=
  match s.pinned cfg r with
  | (s, answer, some keyId) =>
    ((s.sweep (r.clock 5)).persistStickyBinding cfg (r.key cfg) keyId r.required (r.clock 6),
      answer)
  | (s, answer, none) => (s, answer)

end SessionTables

/-- A new process over the same store. -/
def SessionTables.restart (s : SessionTables O) : SessionTables O :=
  { SessionTables.start s.routeBindings with nextInstance := s.nextInstance }

/-- What happens to the tables: requests, the rounds of the cleanup loop, and restarts. -/
inductive SessionEvent (O A : Type)
  | request (r : SessionRequest O A)
  | cleanup (now : ℚ)
  | restart

/-- An event, and the answer if it is a request. -/
def SessionTables.step (cfg : SessionConfig O) (s : SessionTables O) :
    SessionEvent O A → SessionTables O × Option A
  | .request r => ((s.handle cfg r).1, some (s.handle cfg r).2)
  | .cleanup now => (s.cleanup now, none)
  | .restart => (s.restart, none)

end Zhongzhuan.Proxy
