import Zhongzhuan.Kit.Schedule
import Zhongzhuan.Responses.McpConfig

/-!
# `McpClient`: which calls an approval lets through

The approval side of `responses_v3/mcp_client.py` on a client with an executions store:
`request_approval`, `submit_approval` and `call_tool`, in any order and with any arguments.

* `ApprovalEvent` is what the outside sees: a call is shown for approval, the answer comes, the
  remote tool is called.
* `Authorised` is what the approval of a call means: the call itself was shown, and since then it
  was approved, never refused, and no other call was shown in its place.

The stored state is one column, which says `approved` and not for what; and the gate asks for it
only where the call has a place.  `calls_authorised` says which sequences of operations call
nothing unauthorised all the same.

The outcome of the lease and the answer of the remote tool are the environment's, and so is the
number that `int` reads off the end of a request id.
-/

namespace Zhongzhuan.Responses

open Kit Store

/-- What an approval is for. -/
structure CallIdentity where
  workspaceId : String
  responseId : String
  toolSeq : ℤ
  serverLabel : String
  name : String
  arguments : Fields
  deriving DecidableEq

/-- The row of the approval. -/
def CallIdentity.place (id : CallIdentity) : String × ℤ := (id.responseId, id.toolSeq)

/-- The identity of a call. -/
def McpCall.identity (call : McpCall) : CallIdentity where
  workspaceId := call.workspaceId
  responseId := call.responseId
  toolSeq := call.toolSeq
  serverLabel := call.config.serverLabel
  name := call.name
  arguments := call.arguments

/-- What the outside sees of the operations. -/
inductive ApprovalEvent
  | requested (id : CallIdentity)
  | answered (place : String × ℤ) (workspaceId : String) (approved : Bool)
  /-- `session.call_tool`, and whether the tool needs an approval. -/
  | invoked (id : CallIdentity) (needsApproval : Bool)
  deriving DecidableEq

/-- What `_acquire` returns. -/
inductive LeaseAnswer
  | proceed
  | conflict
  | waitTimeout
  | duplicate
  deriving DecidableEq

/-- An operation on the client. -/
inductive ApprovalOp
  | request (call : McpCall)
  /-- `submit_approval` for a request id, with `item.get("approve")`. -/
  | submit (requestId : String) (approve : Option Json) (workspaceId : String)
  /-- `call_tool`; `completed` is whether the remote tool succeeds. -/
  | call (call : McpCall) (lease : LeaseAnswer) (completed : Bool)

/-- `parse_approval_request_id`; `int` reads the digits after the last underscore. -/
def parseApprovalRequestId (int : String → Option ℤ) (requestId : String) :
    Option (String × ℤ) :=
  if startsWith requestId "mcpr_" then
    let parts := rpartition '_' (dropText 5 requestId).toList
    if parts.1.isEmpty then none
    else (int (String.ofList parts.2)).map fun seq => (String.ofList parts.1, seq)
  else none

/-- The executions store of the client, and the events so far. -/
structure ApprovalRun where
  table : ToolExecutions
  log : List ApprovalEvent

namespace ApprovalRun

variable (str : Json → String) (int : String → Option ℤ) (s : ApprovalRun)

/-- `_audit`: a call without a place leaves no row. -/
def audit (call : McpCall) (status : String) (approval : ApprovalState)
    (idempotencyKey : String) : ToolExecutions :=
  if call.toolSeq < 0 then s.table
  else
    s.table.record ⟨call.responseId, call.toolSeq, call.workspaceId, status, approval,
      idempotencyKey⟩

/-- `_persisted_approval`. -/
def persistedApproval (call : McpCall) : ApprovalState :=
  ((s.table.getForResponse call.responseId call.toolSeq call.workspaceId).map (·.approval)).getD
    .none

/-- `request_approval`. -/
def requestApproval (call : McpCall) : ApprovalRun :=
  ⟨s.audit call "awaiting_approval" .pending "", s.log ++ [.requested call.identity]⟩

/-- `submit_approval`: an answer without `approve` is a refusal, and a request id that is not one
raises. -/
def submitApproval (requestId : String) (approve : Option Json) (workspaceId : String) :
    ApprovalRun :=
  match parseApprovalRequestId int requestId with
  | some place =>
    let approved := (approve.map Json.truthy).getD false
    ⟨s.table.setApproval place.1 place.2 (if approved then .approved else .rejected) workspaceId,
      s.log ++ [.answered place workspaceId approved]⟩
  | none => s

/-- `call_tool`.  What it writes while the remote tool runs is overwritten when it ends. -/
def callTool (call : McpCall) (lease : LeaseAnswer) (completed : Bool) : ApprovalRun :=
  match call.gate str (s.persistedApproval call) with
  | some .notAllowed => ⟨s.audit call "failed" .none "", s.log⟩
  | some .pendingApproval => s.requestApproval call
  | some .rejected => ⟨s.audit call "rejected" .rejected "", s.log⟩
  | none =>
    let approval := if call.needsApproval str then ApprovalState.approved else .none
    match lease with
    | .conflict => ⟨s.audit call "failed" approval "", s.log⟩
    | .waitTimeout => ⟨s.audit call "failed" approval "", s.log⟩
    | .duplicate => ⟨s.audit call "duplicate" approval call.idempotencyKey, s.log⟩
    | .proceed =>
      ⟨if completed then s.audit call "completed" approval call.idempotencyKey
        else s.audit call "failed" approval "",
        s.log ++ [.invoked call.identity (call.needsApproval str)]⟩

/-- One operation. -/
def step (s : ApprovalRun) : ApprovalOp → ApprovalRun
  | .request call => s.requestApproval call
  | .submit requestId approve workspaceId => s.submitApproval int requestId approve workspaceId
  | .call call lease completed => s.callTool str call lease completed

end ApprovalRun

/-! ## What an approval means -/

/-- An answer counts for a call of its workspace, or for any if it names none. -/
def Counts (id : CallIdentity) (workspaceId : String) : Prop :=
  workspaceId = "" ∨ workspaceId = id.workspaceId

/-- The event leaves a shown call as it is: no other call is shown in its place, and no answer
that counts refuses it. -/
def Respects (id : CallIdentity) : ApprovalEvent → Prop
  | .requested other => other.place ≠ id.place
  | .answered place workspaceId approved =>
    place = id.place → Counts id workspaceId → approved = true
  | .invoked _ _ => True

/-- The call was shown, and what came after leaves it as it is. -/
def Shown (id : CallIdentity) (log after : List ApprovalEvent) : Prop :=
  (∃ before, log = before ++ .requested id :: after) ∧ ∀ e ∈ after, Respects id e

/-- **The call was shown for approval, and since then it was approved.** -/
def Authorised (id : CallIdentity) (log : List ApprovalEvent) : Prop :=
  ∃ after, Shown id log after
    ∧ ∃ workspaceId, Counts id workspaceId ∧ .answered id.place workspaceId true ∈ after

/-- **The law**: whatever is called and needs an approval has it. -/
def CallsAuthorised (log : List ApprovalEvent) : Prop :=
  ∀ before id after, log = before ++ .invoked id true :: after → Authorised id before

/-- The call that was shown last in a place. -/
def ShownLast (place : String × ℤ) (log : List ApprovalEvent) (id : CallIdentity) : Prop :=
  id.place = place
    ∧ ∃ before after, log = before ++ .requested id :: after
      ∧ ∀ other, .requested other ∈ after → other.place ≠ place

variable {id : CallIdentity} {log after : List ApprovalEvent} {e : ApprovalEvent}

theorem Shown.append (shown : Shown id log after) (respects : Respects id e) :
    Shown id (log ++ [e]) (after ++ [e]) := by
  obtain ⟨⟨before, rfl⟩, kept⟩ := shown
  refine ⟨⟨before, by simp⟩, ?_⟩
  intro e' mem
  rcases List.mem_append.mp mem with mem | mem
  · exact kept e' mem
  · rwa [List.mem_singleton.mp mem]

theorem Authorised.append (authorised : Authorised id log) (respects : Respects id e) :
    Authorised id (log ++ [e]) := by
  obtain ⟨after, shown, workspaceId, counts, mem⟩ := authorised
  exact ⟨_, shown.append respects, workspaceId, counts, List.mem_append_left _ mem⟩

theorem Shown.authorised (shown : Shown id log after) {workspaceId : String}
    (counts : Counts id workspaceId) :
    Authorised id (log ++ [.answered id.place workspaceId true]) :=
  ⟨_, shown.append fun _ _ => rfl, workspaceId, counts, by simp⟩

theorem Authorised.shownLast (authorised : Authorised id log) : ShownLast id.place log id := by
  obtain ⟨after, ⟨⟨before, split⟩, kept⟩, -⟩ := authorised
  exact ⟨rfl, before, after, split, fun other mem => kept _ mem⟩

theorem CallsAuthorised.append (calls : CallsAuthorised log)
    (new : ∀ id, e = .invoked id true → Authorised id log) : CallsAuthorised (log ++ [e]) := by
  intro before id after split
  rcases List.eq_nil_or_concat after with rfl | ⟨after, last, rfl⟩
  · obtain ⟨rfl, same⟩ := List.append_inj' split rfl
    exact new id (List.cons.inj same).1
  · have split' : log ++ [e] = (before ++ .invoked id true :: after) ++ [last] := by
      simpa using split
    exact calls before id after (List.append_inj' split' rfl).1

namespace ApprovalRun

/-! ## The invariant -/

/-- **The condition on an operation**: a `call_tool` with the flag, for a tool that needs an
approval, has a place, and where the stored state of its row is `approved` the call shown last in
its place is this call; and an approving answer that counts meets a row that waits for one or has
one. -/
def Careful (str : Json → String) (int : String → Option ℤ) (s : ApprovalRun) :
    ApprovalOp → Prop
  | .request _ => True
  | .submit requestId approve workspaceId =>
    (approve.map Json.truthy).getD false = true →
      ∀ place row, parseApprovalRequestId int requestId = some place →
        s.table (executionIdFor place.1 place.2) = some row →
        (workspaceId = "" ∨ row.workspaceId = workspaceId) →
          row.approval = .pending ∨ row.approval = .approved
  | .call call _ _ =>
    call.needsApproval str = true → call.approved = some true →
      0 ≤ call.toolSeq
        ∧ (s.persistedApproval call = .approved →
            ∀ id, ShownLast call.identity.place s.log id → id = call.identity)

/-- What a row says of the log. -/
def RowHolds (log : List ApprovalEvent) (row : ToolExecutionRow) : Prop :=
  match row.approval with
  | .pending =>
    ∃ id after, id.place = (row.responseId, row.toolSeq) ∧ id.workspaceId = row.workspaceId
      ∧ Shown id log after
  | .approved =>
    ∃ id, id.place = (row.responseId, row.toolSeq) ∧ id.workspaceId = row.workspaceId
      ∧ Authorised id log
  | _ => True

/-- The invariant. -/
structure Sound (s : ApprovalRun) : Prop where
  placed : ∀ key row, s.table key = some row →
    key = executionIdFor row.responseId row.toolSeq ∧ 0 ≤ row.toolSeq
  rows : ∀ key row, s.table key = some row → RowHolds s.log row
  calls : CallsAuthorised s.log

variable {str : Json → String} {int : String → Option ℤ} {s : ApprovalRun} {call : McpCall}
  {row : ToolExecutionRow}

theorem RowHolds.append (holds : RowHolds log row)
    (respects : ∀ id, id.place = (row.responseId, row.toolSeq) → id.workspaceId = row.workspaceId →
      Respects id e) : RowHolds (log ++ [e]) row := by
  unfold RowHolds at holds ⊢
  split at holds
  case h_1 pending =>
    obtain ⟨id, after, place, workspace, shown⟩ := holds
    exact ⟨id, _, place, workspace, shown.append (respects id place workspace)⟩
  case h_2 approved =>
    obtain ⟨id, place, workspace, authorised⟩ := holds
    exact ⟨id, place, workspace, authorised.append (respects id place workspace)⟩
  case h_3 => trivial

theorem Sound.update (sound : s.Sound) {log : List ApprovalEvent} (calls : CallsAuthorised log)
    (nonneg : 0 ≤ row.toolSeq) (new : RowHolds log row)
    (others : ∀ other, RowHolds s.log other →
      (other.responseId, other.toolSeq) ≠ (row.responseId, row.toolSeq) → RowHolds log other) :
    Sound ⟨s.table.record row, log⟩ := by
  have cases : ∀ key found, s.table.record row key = some found →
      (found = row ∧ key = executionIdFor row.responseId row.toolSeq)
        ∨ (s.table key = some found ∧ key ≠ executionIdFor row.responseId row.toolSeq) := by
    intro key found here
    by_cases own : key = executionIdFor row.responseId row.toolSeq
    · exact .inl ⟨by simpa [ToolExecutions.record, own, eq_comm] using here, own⟩
    · exact .inr ⟨by simpa [ToolExecutions.record, Function.update_of_ne own] using here, own⟩
  refine ⟨?_, ?_, calls⟩
  · intro key found here
    rcases cases key found here with ⟨rfl, own⟩ | ⟨before, -⟩
    · exact ⟨own, nonneg⟩
    · exact sound.placed key found before
  · intro key found here
    rcases cases key found here with ⟨rfl, -⟩ | ⟨before, other⟩
    · exact new
    · apply others found (sound.rows key found before)
      intro same
      apply other
      rw [(sound.placed key found before).1, (Prod.mk.inj same).1, (Prod.mk.inj same).2]

theorem Sound.audit (sound : s.Sound) (status : String) (approval : ApprovalState)
    (idempotencyKey : String) {log : List ApprovalEvent} (calls : CallsAuthorised log)
    (new : 0 ≤ call.toolSeq → RowHolds log ⟨call.responseId, call.toolSeq, call.workspaceId, status,
      approval, idempotencyKey⟩)
    (others : ∀ other, RowHolds s.log other →
      (other.responseId, other.toolSeq) ≠ call.identity.place → RowHolds log other) :
    Sound ⟨s.audit call status approval idempotencyKey, log⟩ := by
  unfold ApprovalRun.audit
  split
  case isTrue negative =>
    refine ⟨sound.placed, ?_, calls⟩
    intro key found here
    apply others found (sound.rows key found here)
    intro same
    have place := (Prod.mk.inj same).2
    have nonneg := (sound.placed key found here).2
    rw [place] at nonneg
    exact absurd nonneg (not_le.mpr negative)
  case isFalse nonneg => exact sound.update calls (not_lt.mp nonneg) (new (not_lt.mp nonneg)) others

theorem Sound.request (sound : s.Sound) (call : McpCall) : (s.requestApproval call).Sound := by
  apply sound.audit
  · apply sound.calls.append
    rintro id ⟨⟩
  · exact fun _ => ⟨call.identity, [], rfl, rfl, ⟨s.log, rfl⟩,
      fun e mem => absurd mem List.not_mem_nil⟩
  · intro other holds elsewhere
    apply holds.append
    intro id place _
    rw [Respects, place]
    exact elsewhere.symm

theorem RowHolds.answer (holds : RowHolds log row) {place : String × ℤ} {workspaceId : String}
    (approved : Bool) (apart : (row.responseId, row.toolSeq) = place →
      ¬ (workspaceId = "" ∨ row.workspaceId = workspaceId)) :
    RowHolds (log ++ [.answered place workspaceId approved]) row := by
  apply holds.append
  intro id place' workspace same counts
  apply absurd _ (apart (place'.symm.trans same.symm))
  rw [Counts, workspace] at counts
  exact counts.imp_right Eq.symm

theorem RowHolds.approve {workspaceId : String} (holds : RowHolds log row)
    (open' : row.approval = .pending ∨ row.approval = .approved)
    (hits : workspaceId = "" ∨ row.workspaceId = workspaceId) :
    RowHolds (log ++ [.answered (row.responseId, row.toolSeq) workspaceId true])
      { row with approval := .approved } := by
  unfold RowHolds at holds
  rcases open' with pending | approved
  · rw [pending] at holds
    obtain ⟨id, after, place, workspace, shown⟩ := holds
    refine ⟨id, place, workspace, place ▸ shown.authorised ?_⟩
    rw [Counts, workspace]
    exact hits.imp_right Eq.symm
  · rw [approved] at holds
    obtain ⟨id, place, workspace, authorised⟩ := holds
    exact ⟨id, place, workspace, authorised.append fun _ _ => rfl⟩

theorem Sound.submit (sound : s.Sound) {requestId : String} {approve : Option Json}
    {workspaceId : String} (careful : s.Careful str int (.submit requestId approve workspaceId)) :
    (s.submitApproval int requestId approve workspaceId).Sound := by
  unfold submitApproval
  split
  case h_2 _ => exact sound
  case h_1 place parsed =>
    generalize answer : (approve.map Json.truthy).getD false = approved
    have calls : CallsAuthorised (s.log ++ [.answered place workspaceId approved]) := by
      apply sound.calls.append
      rintro id ⟨⟩
    have unchanged : (∀ row, s.table (executionIdFor place.1 place.2) = some row →
          ¬ (workspaceId = "" ∨ row.workspaceId = workspaceId)) →
        Sound ⟨s.table, s.log ++ [.answered place workspaceId approved]⟩ := by
      intro apart
      refine ⟨sound.placed, ?_, calls⟩
      intro key row here
      apply (sound.rows key row here).answer
      rintro rfl
      exact apart row ((sound.placed key row here).1 ▸ here)
    simp only [ToolExecutions.setApproval]
    split
    case h_2 missing =>
      apply unchanged
      intro row here
      rw [missing] at here
      cases here
    case h_1 row here =>
      split
      case isFalse apart =>
        apply unchanged
        intro row' here'
        obtain rfl := Option.some.inj (here.symm.trans here')
        exact apart
      case isTrue hits =>
        obtain ⟨own, nonneg⟩ := sound.placed _ row here
        obtain rfl : place = (row.responseId, row.toolSeq) :=
          Prod.ext (executionIdFor_inj.mp own).1 (executionIdFor_inj.mp own).2
        have holds := sound.rows _ row here
        change Sound ⟨s.table.record { row with approval := _ }, _⟩
        apply sound.update calls
        · exact nonneg
        · cases approved with
          | false => trivial
          | true => exact holds.approve (careful answer _ row parsed here hits) hits
        · intro other holds elsewhere
          exact holds.answer approved fun same => absurd same elsewhere

theorem Sound.authorised (sound : s.Sound) {lease : LeaseAnswer} {completed : Bool}
    (careful : s.Careful str int (.call call lease completed))
    (needs : call.needsApproval str = true)
    (passed : call.gate str (s.persistedApproval call) = none) :
    Authorised call.identity s.log := by
  obtain ⟨flag, stored⟩ := call.gate_eq_none_of_needsApproval str passed needs
  obtain ⟨nonneg, last⟩ := careful needs flag
  have approved := stored nonneg
  have read := approved
  unfold persistedApproval ToolExecutions.getForResponse at read
  cases here : s.table (executionIdFor call.responseId call.toolSeq) with
  | none => simp [here] at read
  | some row =>
      rw [here, Option.filter_some] at read
      split at read
      case isFalse _ => simp at read
      case isTrue own =>
        obtain ⟨workspace, -⟩ : row.workspaceId = call.workspaceId ∧ 0 ≤ call.toolSeq := by
          simpa using own
        have holds := sound.rows _ row here
        have state : row.approval = .approved := by simpa using read
        unfold RowHolds at holds
        rw [state] at holds
        obtain ⟨id, place, -, authorised⟩ := holds
        have places := executionIdFor_inj.mp (sound.placed _ row here).1
        have same : id.place = call.identity.place := by
          rw [place, ← places.1, ← places.2]
          rfl
        exact last approved id (same ▸ authorised.shownLast) ▸ authorised

theorem Sound.called (sound : s.Sound) {lease : LeaseAnswer} {completed : Bool}
    (careful : s.Careful str int (.call call lease completed)) :
    (s.callTool str call lease completed).Sound := by
  unfold callTool
  split
  case h_1 _ => exact sound.audit _ _ _ sound.calls (fun _ => trivial) (fun _ holds _ => holds)
  case h_2 _ => exact sound.request call
  case h_3 _ => exact sound.audit _ _ _ sound.calls (fun _ => trivial) (fun _ holds _ => holds)
  case h_4 passed =>
    -- the state that is written: approved only for a call that is authorised
    have written : ∀ log status key, (∀ id, Authorised id s.log → Authorised id log) →
        RowHolds log ⟨call.responseId, call.toolSeq, call.workspaceId, status,
          if call.needsApproval str then .approved else .none, key⟩ := by
      intro log status key kept
      cases needs : call.needsApproval str with
      | false => trivial
      | true => exact ⟨call.identity, rfl, rfl, kept _ (sound.authorised careful needs passed)⟩
    have quiet : ∀ status key,
        Sound ⟨s.audit call status (if call.needsApproval str then .approved else .none) key,
          s.log⟩ := fun status key =>
      sound.audit _ _ _ sound.calls (fun _ => written _ _ _ fun _ => id) fun _ holds _ => holds
    have loud : ∀ status key,
        Sound ⟨s.audit call status (if call.needsApproval str then .approved else .none) key,
          s.log ++ [.invoked call.identity (call.needsApproval str)]⟩ := by
      intro status key
      apply sound.audit
      · apply sound.calls.append
        intro id same
        obtain ⟨rfl, needs⟩ := ApprovalEvent.invoked.inj same
        exact sound.authorised careful needs passed
      · exact fun _ => written _ _ _ fun id authorised => authorised.append trivial
      · exact fun other holds _ => holds.append fun _ _ _ => trivial
    cases lease with
    | proceed =>
        cases completed with
        | true => exact loud _ _
        | false => exact loud _ _
    | _ => exact quiet _ _

theorem sound_step (sound : s.Sound) {op : ApprovalOp} (careful : s.Careful str int op) :
    (s.step str int op).Sound := by
  cases op with
  | request call => exact sound.request call
  | submit requestId approve workspaceId => exact sound.submit careful
  | call call lease completed => exact sound.called careful

end ApprovalRun

open ApprovalRun

/-- **In every sequence of careful operations each remote call that needs an approval has it**: it
was shown itself, approved since, not refused since, and nothing else was shown in its place. -/
theorem calls_authorised (str : Json → String) (int : String → Option ℤ) (table : ToolExecutions)
    (placed : ∀ key row, table key = some row →
      key = executionIdFor row.responseId row.toolSeq ∧ 0 ≤ row.toolSeq)
    (unasked : ∀ key row, table key = some row →
      row.approval ≠ .pending ∧ row.approval ≠ .approved)
    (ops : List ApprovalOp)
    (careful : Along (step str int) (ApprovalRun.Careful str int) ⟨table, []⟩ ops) :
    CallsAuthorised (runSchedule (step str int) ⟨table, []⟩ ops).log := by
  have start : Sound ⟨table, []⟩ := by
    refine ⟨placed, ?_, ?_⟩
    · intro key row here
      obtain ⟨notPending, notApproved⟩ := unasked key row here
      unfold RowHolds
      split
      case h_1 pending => exact absurd pending notPending
      case h_2 approved => exact absurd approved notApproved
      case h_3 => trivial
    · intro before id after split
      simp at split
  exact (runSchedule_of_along Sound (fun s op sound careful => sound_step sound careful) start
    careful).calls

/-- Calls of a server whose tools all need an approval. -/
def guardedCall (name : String) (approved : Option Bool) : McpCall where
  config := ⟨"files", .str "always", []⟩
  responseId := "resp_1"
  toolSeq := 0
  name := name
  arguments := [("path", .str "/srv/a")]
  workspaceId := "ws"
  idempotencyKey := ""
  approved := approved

/-- `int` on the one text that it reads here. -/
def zeroOnly (text : String) : Option ℤ := if text = "0" then some 0 else none

/-- One tool is shown and approved, and another is called in its place. -/
def borrowedApproval : List ApprovalOp :=
  [.request (guardedCall "write_file" none), .submit "mcpr_resp_1_0" (some (.bool true)) "ws",
    .call (guardedCall "delete_file" (some true)) .proceed true]

/-- **The approval of one tool authorises another.** -/
theorem borrowedApproval_not_authorised :
    ¬ CallsAuthorised
      (runSchedule (step (fun _ => "") zeroOnly) ⟨fun _ => none, []⟩ borrowedApproval).log := by
  intro authorised
  obtain ⟨after, ⟨⟨before, split⟩, -⟩, -⟩ := authorised
    [.requested (guardedCall "write_file" none).identity, .answered ("resp_1", 0) "ws" true]
    (guardedCall "delete_file" (some true)).identity [] (by decide)
  have shown : ApprovalEvent.requested (guardedCall "delete_file" (some true)).identity
      ∈ [.requested (guardedCall "write_file" none).identity,
        .answered ("resp_1", 0) "ws" true] := by
    rw [split]
    simp
  exact absurd shown (by decide)

/-- The tool that was shown is called. -/
def ownApproval : List ApprovalOp :=
  [.request (guardedCall "write_file" none), .submit "mcpr_resp_1_0" (some (.bool true)) "ws",
    .call (guardedCall "write_file" (some true)) .proceed true]

theorem calls_authorised_ownApproval :
    CallsAuthorised
      (runSchedule (step (fun _ => "") zeroOnly) ⟨fun _ => none, []⟩ ownApproval).log := by
  apply calls_authorised (fun _ => "") zeroOnly (fun _ => none) (by simp) (by simp)
  refine ⟨trivial, ?_, ?_, trivial⟩
  · intro _ place row parsed here _
    have own : place = ("resp_1", 0) := by
      have read : parseApprovalRequestId zeroOnly "mcpr_resp_1_0" = some ("resp_1", 0) := by decide
      exact Option.some.inj (parsed.symm.trans read)
    subst own
    left
    have stored : (ApprovalRun.step (fun _ => "") zeroOnly ⟨fun _ => none, []⟩
        (.request (guardedCall "write_file" none))).table (executionIdFor "resp_1" 0)
        = some ⟨"resp_1", 0, "ws", "awaiting_approval", .pending, ""⟩ := by decide
    rw [Option.some.inj (here.symm.trans stored)]
  · intro _ _
    refine ⟨by decide, fun _ id last => ?_⟩
    obtain ⟨-, before, after, split, -⟩ := last
    have shown : ApprovalEvent.requested id
        ∈ [.requested (guardedCall "write_file" none).identity,
          .answered ("resp_1", 0) "ws" true] := by
      have log : (runSchedule (step (fun _ => "") zeroOnly) ⟨fun _ => none, []⟩
          (ownApproval.take 2)).log
          = [.requested (guardedCall "write_file" none).identity,
            .answered ("resp_1", 0) "ws" true] := by decide
      rw [← log]
      exact split ▸ by simp
    have same : id = (guardedCall "write_file" none).identity := by simpa using shown
    exact same

end Zhongzhuan.Responses
