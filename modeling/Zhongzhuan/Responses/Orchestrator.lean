import Zhongzhuan.Kit.Schedule
import Zhongzhuan.Protocol.StreamO2A
import Zhongzhuan.Responses.Pipeline

/-!
# The orchestrator of sub-agents

The model of `MultiAgentOrchestrator` in `responses_v3/multi_agent.py`: the registry of the
sub-agents of a session, and the five tools of `multi_agent_v1`.

* `handle` answers one request with a `function_call_output`.
* `Orchestra.step` is what happens to the registry in one atomic step: a request of one of the
  responses of the session, the end of a rollout, or the cancellation of a wait for one.
* `rollouts_bounded`: in any interleaving of these steps, the sub-agents that count towards the
  limit are those whose rollout is under way, and they are never more than it allows.

The tools raise nothing, so that the error output of `handle` for an exception of theirs is left
out, and so are the logs and the times.
-/

namespace Zhongzhuan.Responses

open Kit Protocol

/-! ## Output items -/

/-- One character of a text that `json.dumps` writes in ASCII. -/
def escapeAscii (c : Char) : String :=
  let unit (n : ℕ) : String := "\\u" ++ hexPair (n / 256) ++ hexPair (n % 256)
  if c.toNat < 127 then escapeChar c
  else if c.toNat < 65536 then unit c.toNat
  else unit (55296 + (c.toNat - 65536) / 1024) ++ unit (56320 + (c.toNat - 65536) % 1024)

/-- A string with its quotes, in ASCII. -/
def quoteAscii (text : String) : String :=
  "\"" ++ String.join (text.toList.map escapeAscii) ++ "\""

/-- `json.dumps` of a flat object of strings and flags. -/
def dumpsFlat (fields : List (String × (String ⊕ Bool))) : String :=
  let field (f : String × (String ⊕ Bool)) : String :=
    quoteAscii f.1 ++ ": " ++
      match f.2 with
      | .inl text => quoteAscii text
      | .inr flag => if flag then "true" else "false"
  "\x7b" ++ String.intercalate ", " (fields.map field) ++ "\x7d"

/-- `build_function_call_output`. -/
def buildFunctionCallOutput (outputIndex : ℕ) (callId output responseId : String) : Fields :=
  [("id", .str ("fco_" ++ responseIdOr responseId ++ "_" ++ toString outputIndex)),
    ("type", .str "function_call_output"),
    ("status", .str "completed"),
    ("call_id", .str callId),
    ("output", .str output)]

/-- `_error_output`. -/
def errorOutput (callId message : String) (outputIndex : ℕ := 0) : Fields :=
  buildFunctionCallOutput outputIndex callId (dumpsFlat [("error", .inl message)]) ""

/-! ## Sub-agents -/

/-- The status of a sub-agent. -/
inductive AgentStatus
  | spawned
  | running
  | completed
  | failed
  | closed
deriving DecidableEq, Repr

/-- Its name. -/
def AgentStatus.value : AgentStatus → String
  | .spawned => "spawned"
  | .running => "running"
  | .completed => "completed"
  | .failed => "failed"
  | .closed => "closed"

/-- `AgentState`. -/
structure AgentState where
  agentId : String
  model : String
  instruction : String
  sessionId : String
  status : AgentStatus := .spawned
  result : String := ""
  error : String := ""
  /-- There is a task, and it is not done. -/
  underWay : Bool := false
deriving DecidableEq, Repr

/-- A sub-agent that counts towards the limit. -/
def AgentState.active (a : AgentState) : Bool :=
  a.status = .spawned || a.status = .running

/-- The attributes of `MultiAgentOrchestrator` that change. -/
structure Registry where
  agents : Dict String AgentState := .empty
  defaultModel : String := ""
  defaultSession : String := ""

/-- What becomes of the registry, and of a sub-agent that `_wait` awaits. -/
structure Awaited where
  registry : Registry
  agent : AgentState
  /-- The task was cancelled. -/
  cancelled : Bool

/-- An orchestrator: its configuration, and what it calls. -/
structure Orchestra where
  maxThreads : ℕ := 4
  hasRunner : Bool := true
  nameSpace : String := multiAgentNamespace
  loads : String → Loaded
  /-- `str` of a value that is no string. -/
  strOf : Json → String

namespace Orchestra

variable (o : Orchestra)

/-- `str(args.get(key) or ... or "")`. -/
def textOf (args : Fields) (keys : List String) : String :=
  match keys.findSome? fun key => nonempty (args.get key) with
  | some (.str text) => text
  | some v => o.strOf v
  | none => ""

/-! ## The tools -/

variable (s : Registry) (callId : String) (args : Fields) (outputIndex : ℕ)

/-- The instruction of a `spawn_agent` call. -/
def instructionOf : String := stripText (o.textOf args ["instruction", "message"])

/-- The sub-agents that count towards the limit are as many as it allows. -/
def atLimit : Bool := o.maxThreads ≤ s.agents.values.countP AgentState.active

/-- The sub-agent that a `spawn_agent` call makes; a mark of a role is taken off its
instruction. -/
def newAgent (uuid : String) : AgentState :=
  let given := o.instructionOf args
  let role := detectRoleTag given
  let instruction :=
    if role.1 ≠ "" && (roleMark role.1).isPrefixOf (lower given) then
      lstripText (dropText (roleMark role.1).length given)
    else given
  let named := if role.2 = "" then o.textOf args ["model"] else role.2
  let session := o.textOf args ["session_id"]
  { agentId := "agent_" ++ uuid
    model := if named = "" then s.defaultModel else named
    instruction := instruction
    sessionId := if session = "" then s.defaultSession else session
    status := if o.hasRunner then .running else .completed
    underWay := o.hasRunner }

/-- `_spawn`. -/
def spawn (uuid : String) : Registry × Fields :=
  if o.instructionOf args = "" then
    (s, errorOutput callId "spawn_agent called without instruction" outputIndex)
  else
    let agent := o.newAgent s args uuid
    if o.atLimit s then
      (s, errorOutput callId ("max concurrent sub-agents (" ++ toString o.maxThreads
        ++ ") reached for session " ++ agent.sessionId))
    else
      ({ s with agents := s.agents.set agent.agentId agent },
        buildFunctionCallOutput outputIndex callId
          (dumpsFlat [("agent_id", .inl agent.agentId), ("status", .inl agent.status.value)]) "")

/-- The sub-agent a request names. -/
def agentIdOf : String := o.textOf args ["agent_id"]

/-- The beginning that `_send_input`, `_resume`, `_wait` and `_close` share. -/
def withAgent (answer : String → AgentState → Registry × Fields) : Registry × Fields :=
  match s.agents.get? (o.agentIdOf args) with
  | none => (s, errorOutput callId ("unknown agent_id: " ++ o.agentIdOf args))
  | some state => answer (o.agentIdOf args) state

/-- `_send_input`. -/
def sendInput : Registry × Fields :=
  o.withAgent s callId args fun agentId state =>
    let text := o.textOf args ["input", "content"]
    let told := { state with instruction := stripText (state.instruction ++ "\n" ++ text) }
    ({ s with agents := s.agents.set agentId told },
      buildFunctionCallOutput outputIndex callId
        (dumpsFlat [("agent_id", .inl agentId), ("received", .inr true)]) "")

/-- `_resume`. -/
def resume : Registry × Fields :=
  o.withAgent s callId args fun agentId state =>
    (s, buildFunctionCallOutput outputIndex callId
      (dumpsFlat [("agent_id", .inl agentId), ("status", .inl state.status.value)]) "")

/-- `_wait`; the sub-agent may have been closed elsewhere while it was awaited. -/
def wait (awaited : Registry → AgentState → Awaited) : Registry × Fields :=
  o.withAgent s callId args fun agentId state =>
    let after : Awaited := if state.underWay then awaited s state else ⟨s, state, false⟩
    let agent := if after.cancelled then { after.agent with status := .closed } else after.agent
    let agents := after.registry.agents
    let out := if agent.status = .completed then agent.result else agent.error
    ({ after.registry with
        agents := if (agents.get? agentId).isSome then agents.set agentId agent else agents },
      buildFunctionCallOutput outputIndex callId
        (dumpsFlat [("agent_id", .inl agentId), ("status", .inl agent.status.value),
          ("result", .inl out)]) "")

/-- `_close`. -/
def close : Registry × Fields :=
  o.withAgent s callId args fun agentId _ =>
    ({ s with agents := s.agents.erase agentId },
      buildFunctionCallOutput outputIndex callId
        (dumpsFlat [("agent_id", .inl agentId), ("closed", .inr true)]) "")

/-! ## Requests -/

/-- The arguments of a request; an exception of `json.loads` that is no `ValueError` is not
caught. -/
def argumentsOf (request : HandleRequest) : Except String Fields :=
  if request.arguments = "" then .ok [] else objectOf o.loads request.arguments

/-- `handle`, with `uuid.uuid4().hex[:12]` and what is awaited. -/
def handle (uuidHex : String) (awaited : Registry → AgentState → Awaited) (s : Registry)
    (request : HandleRequest) : Registry × Except String Fields :=
  if request.nameSpace ≠ o.nameSpace then
    (s, .ok (errorOutput request.callId ("unsupported namespace: " ++ request.nameSpace)))
  else if request.name ∉ multiAgentTools then
    (s, .ok (errorOutput request.callId ("unknown multi_agent tool: " ++ request.name)))
  else
    match o.argumentsOf request with
    | .error message => (s, .error message)
    | .ok args =>
      let answered :=
        if request.name = "spawn_agent" then
          o.spawn s request.callId args request.outputIndex uuidHex
        else if request.name = "send_input" then
          o.sendInput s request.callId args request.outputIndex
        else if request.name = "resume_agent" then
          o.resume s request.callId args request.outputIndex
        else if request.name = "wait_agent" then
          o.wait s request.callId args request.outputIndex awaited
        else o.close s request.callId args request.outputIndex
      (answered.1, .ok answered.2)

end Orchestra

/-! ## Rollouts -/

/-- How `_run_agent` ends. -/
inductive RolloutEnd
  | completed (result : String)
  /-- The time is over, or the runner raises. -/
  | failed (error : String)
  | cancelled
deriving DecidableEq, Repr

/-- A sub-agent when its rollout has ended. -/
def AgentState.finished (a : AgentState) : RolloutEnd → AgentState
  | .completed result => { a with status := .completed, result := result, underWay := false }
  | .failed error => { a with status := .failed, error := error, underWay := false }
  | .cancelled => { a with status := .closed, underWay := false }

/-- What happens to the registry between two points where something is awaited. -/
inductive SessionStep
  /-- A request of one of the responses, up to where it awaits a rollout. -/
  | request (uuidHex : String) (request : HandleRequest)
  | rollout (agentId : String) (how : RolloutEnd)
  /-- The wait for a rollout that has ended is cancelled. -/
  | interrupted (agentId : String)
  /-- `set_default_model` and `set_default_session`. -/
  | configured (model session : String)

namespace Orchestra

variable (o : Orchestra)

/-- One step. -/
def step (s : Registry) : SessionStep → Registry
  | .request uuidHex request =>
    (o.handle uuidHex (fun s state => ⟨s, state, false⟩) s request).1
  | .rollout agentId how =>
    match s.agents.get? agentId with
    | some state =>
      if state.underWay then { s with agents := s.agents.set agentId (state.finished how) } else s
    | none => s
  | .interrupted agentId =>
    match s.agents.get? agentId with
    | some state =>
      if state.underWay then s
      else { s with agents := s.agents.set agentId { state with status := .closed } }
    | none => s
  | .configured model session =>
    { s with
      defaultModel := if model = "" then s.defaultModel else model
      defaultSession := if session = "" then s.defaultSession else session }

/-- The sub-agents that count are those whose rollout is under way, and are not too many. -/
structure Bounded (s : Registry) : Prop where
  counts : ∀ a ∈ s.agents.values, a.active = a.underWay
  bound : s.agents.values.countP AgentState.underWay ≤ o.maxThreads

variable {o} {s : Registry}

theorem Bounded.replace (h : o.Bounded s) {agentId : String} {a b : AgentState}
    (found : s.agents.get? agentId = some a) (counts : b.active = b.underWay)
    (ends : b.underWay = true → a.underWay = true) :
    o.Bounded { s with agents := s.agents.set agentId b } where
  counts := fun c mem => by
    rcases Dict.mem_values_set mem with rfl | old
    · exact counts
    · exact h.counts c old
  bound := (Dict.countP_values_replace found ends).trans h.bound

theorem Bounded.counts_of_get (h : o.Bounded s) {agentId : String} {a : AgentState}
    (found : s.agents.get? agentId = some a) : a.active = a.underWay :=
  h.counts a (Dict.mem_values.mpr ⟨agentId, found⟩)

theorem Bounded.withAgent (h : o.Bounded s) {callId : String} {args : Fields}
    {answer : String → AgentState → Registry × Fields}
    (kept : ∀ agentId a, s.agents.get? agentId = some a → o.Bounded (answer agentId a).1) :
    o.Bounded (o.withAgent s callId args answer).1 := by
  unfold Orchestra.withAgent
  cases found : s.agents.get? (o.agentIdOf args) with
  | none => exact h
  | some a => exact kept _ a found

theorem newAgent_active (args : Fields) (uuidHex : String) :
    (o.newAgent s args uuidHex).active = (o.newAgent s args uuidHex).underWay := by
  unfold newAgent AgentState.active
  cases o.hasRunner <;> rfl

theorem Bounded.spawn (h : o.Bounded s) {callId uuidHex : String} {args : Fields}
    {outputIndex : ℕ} : o.Bounded (o.spawn s callId args outputIndex uuidHex).1 := by
  unfold Orchestra.spawn
  split
  · exact h
  · dsimp only
    split
    case isTrue full => exact h
    case isFalse room =>
      refine ⟨fun a mem => ?_, ?_⟩
      · rcases Dict.mem_values_set mem with rfl | old
        · exact newAgent_active args uuidHex
        · exact h.counts a old
      · have active : s.agents.values.countP AgentState.active
            = s.agents.values.countP AgentState.underWay :=
          List.countP_congr fun a mem => by rw [h.counts a mem]
        have below : s.agents.values.countP AgentState.underWay < o.maxThreads := by
          simpa [atLimit, active] using room
        exact (Dict.countP_values_set _ _ _ _).trans below

theorem Bounded.handle (h : o.Bounded s) (uuidHex : String) (request : HandleRequest) :
    o.Bounded (o.handle uuidHex (fun s state => ⟨s, state, false⟩) s request).1 := by
  unfold Orchestra.handle
  split
  · exact h
  · split
    · exact h
    · split
      · exact h
      · dsimp only
        split
        · exact h.spawn
        · split
          · refine h.withAgent fun _ a found => h.replace found ?_ id
            exact show a.active = a.underWay from h.counts_of_get found
          · split
            · exact h.withAgent fun _ _ _ => h
            · split
              · refine h.withAgent fun agentId a found => ?_
                rw [ite_self]
                dsimp only
                rw [if_neg Bool.false_ne_true, found]
                exact h.replace found (h.counts_of_get found) id
              · refine h.withAgent fun agentId a _ => ⟨fun b mem => ?_, ?_⟩
                · exact h.counts b (Dict.mem_values_erase mem)
                · exact (Dict.countP_values_erase _ _ _).trans h.bound

theorem Bounded.step (h : o.Bounded s) (a : SessionStep) : o.Bounded (o.step s a) := by
  cases a with
  | request uuidHex request => exact h.handle uuidHex request
  | rollout agentId how =>
    unfold Orchestra.step
    dsimp only
    cases found : s.agents.get? agentId with
    | none => exact h
    | some state =>
      dsimp only
      split
      case isTrue busy => exact h.replace found (by cases how <;> rfl) fun _ => busy
      case isFalse idle => exact h
  | interrupted agentId =>
    unfold Orchestra.step
    dsimp only
    cases found : s.agents.get? agentId with
    | none => exact h
    | some state =>
      dsimp only
      split
      case isTrue busy => exact h
      case isFalse idle =>
        refine h.replace found ?_ id
        rw [Bool.not_eq_true] at idle
        exact idle.symm
  | configured model session => exact ⟨h.counts, h.bound⟩

/-- **The limit of a session holds in every interleaving** of the requests of its responses with
the rollouts: a sub-agent counts just while its rollout is under way, no more rollouts than the
limit allows are ever under way, and it is reached just when as many are. -/
theorem rollouts_bounded (o : Orchestra) (sched : List SessionStep) :
    o.Bounded (runSchedule o.step {} sched)
      ∧ (o.atLimit (runSchedule o.step {} sched) = true
        ↔ (runSchedule o.step {} sched).agents.values.countP AgentState.underWay
          = o.maxThreads) := by
  have start : o.Bounded {} := ⟨fun a mem => absurd mem List.not_mem_nil, Nat.zero_le _⟩
  have sound := runSchedule_invariant o.Bounded (fun s a h => h.step a) start sched
  refine ⟨sound, ?_⟩
  have active : (runSchedule o.step {} sched).agents.values.countP AgentState.active
      = (runSchedule o.step {} sched).agents.values.countP AgentState.underWay :=
    List.countP_congr fun a mem => by rw [sound.counts a mem]
  rw [atLimit, decide_eq_true_iff, active]
  exact ⟨fun full => Nat.le_antisymm sound.bound full, fun full => full.ge⟩

end Orchestra

end Zhongzhuan.Responses
