import Mathlib
import Zhongzhuan.Kit.Lifecycle
import Zhongzhuan.Responses.Pipeline

/-!
# The shape of the stream the pipeline writes

What a client relies on: every item is announced once and closed once, deltas speak of items
that are open, and one terminal event ends the stream.  The proof follows the producer.

* `Event.mark` reads an event as a step in the life of an item.
* `Place` are the places in which a pipeline keeps the items it has announced and will still
  close; `Shaped` ties the events sent so far to them (`Serves`).
* The methods for reasoning, text, items passed through and special calls keep `Shaped`: one
  lemma per method.  The ordinary calls follow in `StreamCalls`, the run in
  `WellFormedStream`.
-/

namespace Zhongzhuan.Responses

open Kit Protocol

/-! ## Events as marks -/

/-- The index an event speaks of; no item has the index `-1`. -/
def Event.outputIndex (e : Event) : ℤ :=
  match e.data.get "output_index" with
  | some (.int index) => index
  | _ => -1

/-- The id of the item an event carries. -/
def Event.itemId (e : Event) : Option Json :=
  match e.data.get "item" with
  | some (.obj item) => Fields.get item "id"
  | _ => none

/-- What an event does to an item. -/
def Event.mark (e : Event) : Mark ℤ (Option Json) :=
  match e.type with
  | .outputItemAdded => .opens e.outputIndex e.itemId
  | .outputItemDone => .closes e.outputIndex e.itemId
  | .outputTextDelta | .reasoningSummaryTextDelta | .functionCallArgumentsDelta =>
    .uses e.outputIndex
  | _ => .plain

/-- The events that end a stream. -/
def EventType.isTerminal : EventType → Bool
  | .completed | .failed | .incomplete => true
  | _ => false

/-- **A well-formed Responses stream.** -/
structure WellFormedStream (events : List Event) : Prop where
  lifecycle : WellFormed (events.map Event.mark)
  terminal_last : ∃ before last, events = before ++ [last]
    ∧ last.type.isTerminal ∧ ∀ e ∈ before, e.type.isTerminal = false

section Marks

variable (index : ℕ) (item : Fields) (id text : String)

@[simp] theorem mark_itemAdded :
    (itemAdded index item).mark = .opens (index : ℤ) (item.get "id") := rfl

@[simp] theorem mark_itemDone :
    (itemDone index item).mark = .closes (index : ℤ) (item.get "id") := rfl

@[simp] theorem mark_reasoningPartAdded : (reasoningPartAdded id index).mark = .plain := rfl

@[simp] theorem mark_reasoningDelta :
    (reasoningDelta id index text).mark = .uses (index : ℤ) := rfl

@[simp] theorem mark_reasoningTextDone : (reasoningTextDone id index text).mark = .plain := rfl

@[simp] theorem mark_reasoningPartDone : (reasoningPartDone id index text).mark = .plain := rfl

@[simp] theorem mark_contentPartAdded : (contentPartAdded index id).mark = .plain := rfl

@[simp] theorem mark_textDelta : (textDelta index text).mark = .uses (index : ℤ) := rfl

@[simp] theorem mark_textDone : (textDone index id text).mark = .plain := rfl

@[simp] theorem mark_contentPartDone : (contentPartDone index id text).mark = .plain := rfl

@[simp] theorem mark_argumentsDelta :
    (argumentsDelta index id text).mark = .uses (index : ℤ) := rfl

@[simp] theorem mark_argumentsDone : (argumentsDone index id text).mark = .plain := rfl

@[simp] theorem get_id_reasoningItem (status : Status) (summary : Option String) :
    (reasoningItem id status summary).get "id" = some (.str id) := rfl

@[simp] theorem get_id_messageItem (status : Status) (content : Option String) :
    (messageItem id status content).get "id" = some (.str id) := rfl

@[simp] theorem get_id_functionCallItem (acc : ToolCallAccumulator) (status : Status) :
    (functionCallItem acc status text).get "id" = some (.str (toolItemId acc)) := rfl

@[simp] theorem get_id_bareFunctionCallItem (acc : ToolCallAccumulator) (status : Status) :
    (bareFunctionCallItem acc status text).get "id" = some (.str (toolItemId acc)) := rfl

end Marks

/-! ## Where a pipeline keeps its open items -/

/-- The attributes that hold items between their first and their last event. -/
inductive Place
  | reasoning
  | message
  | call (ref : ℕ)
  | raw (index : ℕ)
deriving DecidableEq

/-- The open item of a call: one that is referenced and not done. -/
def callItem (tools : ToolCallCollection) (ref : ℕ) : Option (ℤ × Option Json) :=
  if ref ∈ tools.refs then
    match tools.accs[ref]? with
    | some acc =>
      if acc.itemDone then none else some (acc.outputIndex, some (.str (toolItemId acc)))
    | none => none
  else none

/-- The open item in each place: its index and the id it was announced with. -/
def Pipeline.owned (p : Pipeline) : Place → Option (ℤ × Option Json)
  | .reasoning => p.openReasoning.map fun item => (item.outputIndex, some (.str item.id))
  | .message => p.openMessage.map fun item => (item.outputIndex, some (.str item.id))
  | .call ref => callItem p.tools ref
  | .raw index => (p.openRawItems.get? index).map fun item => (index, item.get "id")

/-- What holds of every call the collection has: its item was announced when it was created,
under an id of its own, and its arguments have not validated before it was done. -/
structure Announced (acc : ToolCallAccumulator) : Prop where
  added : acc.itemAdded = true
  identified : acc.itemId ≠ ""
  pending : acc.itemDone = false → acc.argumentsDone = false

/-- The feature a special call needs is on. -/
def SpecialKind.enabled (env : Env) : SpecialKind → Prop
  | .toolSearch => env.toolSearchEnabled = true
  | .multiAgent => env.multiAgent.isSome = true

/-- What holds of the calls between two chunks. -/
structure Steady (env : Env) (tools : ToolCallCollection)
    (specialCalls : Dict String SpecialCall) : Prop where
  refs_valid : ∀ ref ∈ tools.refs, ref < tools.accs.length
  announced : ∀ acc ∈ tools.accs, Announced acc
  enabled : ∀ callId call, specialCalls.get? callId = some call → call.kind.enabled env

/-- The invariant of a run: the events sent so far and the pipeline that sent them. -/
structure Shaped (env : Env) (events : List Event) (p : Pipeline) : Prop where
  serves : Serves (events.map Event.mark) p.owned (p.outputIndex : ℤ)
  steady : Steady env p.tools p.specialCalls
  quiet : ∀ e ∈ events, e.type.isTerminal = false

variable {env : Env} {events : List Event} {p q : Pipeline} {o : Place} {id : Option Json}
  {e : Event} {k : ℤ}

theorem owned_reasoning {item : OpenItem} (held : p.openReasoning = some item) :
    p.owned .reasoning = some ((item.outputIndex : ℤ), some (.str item.id)) := by
  simp [Pipeline.owned, held]

theorem owned_message {item : OpenItem} (held : p.openMessage = some item) :
    p.owned .message = some ((item.outputIndex : ℤ), some (.str item.id)) := by
  simp [Pipeline.owned, held]

/-! ### One event at a time -/

theorem quiet_of_mark (speaks : e.mark ≠ .plain) : e.type.isTerminal = false := by
  obtain ⟨type, data⟩ := e
  cases type <;> first | rfl | exact absurd rfl speaks

namespace Shaped

theorem quiet_append (h : Shaped env events p) {more : List Event}
    (quiet : ∀ e ∈ more, e.type.isTerminal = false) :
    ∀ e ∈ events ++ more, e.type.isTerminal = false := fun e mem =>
  (List.mem_append.mp mem).elim (h.quiet e) (quiet e)

theorem quiet_snoc (h : Shaped env events p) (speaks : e.mark ≠ .plain) :
    ∀ e' ∈ events ++ [e], e'.type.isTerminal = false :=
  h.quiet_append fun e' mem => by
    obtain rfl : e' = e := by simpa using mem
    exact quiet_of_mark speaks

theorem congr (h : Shaped env events p) (same : q.owned = p.owned)
    (later : p.outputIndex ≤ q.outputIndex) (steady : Steady env q.tools q.specialCalls) :
    Shaped env events q := by
  refine ⟨?_, steady, h.quiet⟩
  rw [same]
  exact h.serves.mono (by omega)

theorem plain (h : Shaped env events p) (mark : e.mark = .plain)
    (quiet : e.type.isTerminal = false) : Shaped env (events ++ [e]) p := by
  refine ⟨?_, h.steady, h.quiet_append (by simpa using quiet)⟩
  rw [List.map_append, List.map_singleton, mark]
  exact h.serves.plain

theorem uses (h : Shaped env events p) (here : p.owned o = some (k, id))
    (mark : e.mark = .uses k) : Shaped env (events ++ [e]) p := by
  refine ⟨?_, h.steady, h.quiet_snoc (by simp [mark])⟩
  rw [List.map_append, List.map_singleton, mark]
  exact h.serves.uses here

theorem opens (h : Shaped env events p) (mark : e.mark = .opens p.outputIndex id)
    (vacant : p.owned o = none) (here : q.owned o = some ((p.outputIndex : ℤ), id))
    (rest : ∀ o', o' ≠ o → q.owned o' = p.owned o') (later : p.outputIndex < q.outputIndex)
    (steady : Steady env q.tools q.specialCalls) : Shaped env (events ++ [e]) q := by
  refine ⟨?_, steady, h.quiet_snoc (by simp [mark])⟩
  rw [List.map_append, List.map_singleton, mark]
  exact h.serves.opens vacant here rest le_rfl (by omega)

theorem closes (h : Shaped env events p) (mark : e.mark = .closes k id)
    (here : p.owned o = some (k, id)) (vacant : q.owned o = none)
    (rest : ∀ o', o' ≠ o → q.owned o' = p.owned o') (index : q.outputIndex = p.outputIndex)
    (steady : Steady env q.tools q.specialCalls) : Shaped env (events ++ [e]) q := by
  refine ⟨?_, steady, h.quiet_snoc (by simp [mark])⟩
  rw [List.map_append, List.map_singleton, mark, index]
  exact h.serves.closes here vacant rest

theorem stray (h : Shaped env events p) (mark : e.mark = .closes p.outputIndex id)
    (same : q.owned = p.owned) (later : p.outputIndex < q.outputIndex)
    (steady : Steady env q.tools q.specialCalls) : Shaped env (events ++ [e]) q := by
  refine ⟨?_, steady, h.quiet_snoc (by simp [mark])⟩
  rw [List.map_append, List.map_singleton, mark, same]
  exact h.serves.stray le_rfl (by omega)

end Shaped

/-! ## Reasoning, text and items passed through -/

theorem closeReasoning_shaped (h : Shaped env events p) (incomplete : Bool) :
    Shaped env (events ++ (p.closeReasoning incomplete).2) (p.closeReasoning incomplete).1 := by
  unfold Pipeline.closeReasoning
  split
  case h_1 _ => rwa [List.append_nil]
  case h_2 item held =>
    dsimp only
    have before : Shaped env
        (events ++ ([reasoningTextDone item.id item.outputIndex (String.join p.reasoningText)]
          ++ if p.reasoningPartId.isSome then
              [reasoningPartDone item.id item.outputIndex (String.join p.reasoningText)]
            else [])) p := by
      rw [← List.append_assoc]
      split
      · exact (h.plain rfl rfl).plain rfl rfl
      · rw [List.append_nil]
        exact h.plain rfl rfl
    rw [← List.append_assoc]
    refine before.closes (mark_itemDone _ _) (owned_reasoning held) rfl ?_ rfl h.steady
    intro o other
    cases o with
    | reasoning => exact absurd rfl other
    | _ => rfl

theorem openReasoningItem_shaped (h : Shaped env events p) (closed : p.openReasoning = none) :
    Shaped env (events ++ (p.openReasoningItem env).2) (p.openReasoningItem env).1 := by
  have vacant : p.owned .reasoning = none := by simp [Pipeline.owned, closed]
  have opened := h.opens (q := (p.openReasoningItem env).1)
    (mark_itemAdded p.outputIndex
      (reasoningItem (makeReasoningItemId env.responseId p.outputIndex) .inProgress none))
    vacant rfl ?_ (Nat.lt_succ_self _) h.steady
  · have done := opened.plain (mark_reasoningPartAdded p.outputIndex
      (makeReasoningItemId env.responseId p.outputIndex)) rfl
    rw [List.append_assoc] at done
    exact done
  · intro o other
    cases o with
    | reasoning => exact absurd rfl other
    | _ => rfl

@[simp] theorem closeReasoning_openMessage (incomplete : Bool) :
    (p.closeReasoning incomplete).1.openMessage = p.openMessage := by
  unfold Pipeline.closeReasoning
  split <;> rfl

@[simp] theorem ensureReasoningLifecycle_openMessage :
    (p.ensureReasoningLifecycle env).1.openMessage = p.openMessage := by
  unfold Pipeline.ensureReasoningLifecycle
  split
  · rfl
  · split
    · rfl
    · split
      · rfl
      · exact closeReasoning_openMessage false

theorem ensureReasoningLifecycle_shaped (h : Shaped env events p) :
    Shaped env (events ++ (p.ensureReasoningLifecycle env).2)
      (p.ensureReasoningLifecycle env).1 := by
  unfold Pipeline.ensureReasoningLifecycle
  split
  case isTrue _ => rwa [List.append_nil]
  case isFalse _ =>
    split
    case isTrue _ => rwa [List.append_nil]
    case isFalse noReasoning =>
      split
      case isTrue _ => rwa [List.append_nil]
      case isFalse _ =>
        have closed : p.openReasoning = none := by
          cases held : p.openReasoning with
          | none => rfl
          | some _ => simp [held] at noReasoning
        have used := (openReasoningItem_shaped h closed).uses (o := .reasoning) rfl
          (mark_reasoningDelta p.outputIndex
            (makeReasoningItemId env.responseId p.outputIndex) "")
        have done := closeReasoning_shaped used false
        simpa only [List.append_assoc] using done

theorem translateReasoning_shaped (h : Shaped env events p) (delta : String) :
    Shaped env (events ++ (p.translateReasoning env delta).2)
      (p.translateReasoning env delta).1 := by
  unfold Pipeline.translateReasoning
  split
  case isTrue _ => rwa [List.append_nil]
  case isFalse _ =>
    have opened : Shaped env
        (events ++ (if p.openReasoning.isSome then (p, []) else p.openReasoningItem env).2)
        (if p.openReasoning.isSome then (p, []) else p.openReasoningItem env).1 := by
      split
      case isTrue _ => rwa [List.append_nil]
      case isFalse closed => exact openReasoningItem_shaped h (by simpa using closed)
    revert opened
    generalize (if p.openReasoning.isSome then (p, []) else p.openReasoningItem env) = done
    intro opened
    dsimp only
    split
    case h_1 _ => exact opened
    case h_2 item held =>
      have used := opened.uses (owned_reasoning held)
        (mark_reasoningDelta item.outputIndex item.id delta)
      rw [List.append_assoc] at used
      exact used.congr rfl (Nat.le_refl _) opened.steady

theorem openMessageItem_shaped (h : Shaped env events p) (closed : p.openMessage = none) :
    Shaped env (events ++ (p.openMessageItem env).2) (p.openMessageItem env).1 := by
  have settled := ensureReasoningLifecycle_shaped (closeReasoning_shaped h false)
  have vacant :
      ((p.closeReasoning false).1.ensureReasoningLifecycle env).1.owned .message = none := by
    simp [Pipeline.owned, closed]
  let index := ((p.closeReasoning false).1.ensureReasoningLifecycle env).1.outputIndex
  let id := makeMessageItemId env.responseId index
  have opened := settled.opens (q := (p.openMessageItem env).1)
    (mark_itemAdded index (messageItem id .inProgress none))
    vacant rfl ?_ (Nat.lt_succ_self _) settled.steady
  · have done := opened.plain (mark_contentPartAdded index id) rfl
    simp only [List.append_assoc] at done
    rw [Pipeline.openMessageItem, List.append_assoc]
    exact done
  · intro o other
    cases o with
    | message => exact absurd rfl other
    | _ => rfl

theorem translateText_shaped (h : Shaped env events p) (delta : String) :
    Shaped env (events ++ (p.translateText env delta).2) (p.translateText env delta).1 := by
  unfold Pipeline.translateText
  have opened : Shaped env
      (events ++ (if p.openMessage.isSome then (p, []) else p.openMessageItem env).2)
      (if p.openMessage.isSome then (p, []) else p.openMessageItem env).1 := by
    split
    case isTrue _ => rwa [List.append_nil]
    case isFalse closed => exact openMessageItem_shaped h (by simpa using closed)
  revert opened
  generalize (if p.openMessage.isSome then (p, []) else p.openMessageItem env) = done
  intro opened
  dsimp only
  split
  case h_1 _ => exact opened
  case h_2 item held =>
    have used := opened.uses (owned_message held) (mark_textDelta item.outputIndex delta)
    rw [List.append_assoc] at used
    exact used.congr rfl (Nat.le_refl _) opened.steady

theorem translateRaw_shaped (h : Shaped env events p) (event : String) (item : Fields) :
    Shaped env (events ++ (p.translateRaw event item).2) (p.translateRaw event item).1 := by
  have vacant : p.owned (.raw p.outputIndex) = none := by
    cases held : p.openRawItems.get? p.outputIndex with
    | none => simp [Pipeline.owned, held]
    | some old =>
        have here : p.owned (.raw p.outputIndex)
            = some ((p.outputIndex : ℤ), old.get "id") := by simp [Pipeline.owned, held]
        exact absurd ⟨_, here⟩ (h.serves.tracks.not_live_of_le le_rfl _)
  unfold Pipeline.translateRaw
  dsimp only
  split
  case isTrue _ =>
    refine h.stray (mark_itemDone _ _) ?_ (Nat.lt_succ_self _) h.steady
    funext o
    cases o with
    | raw index =>
        by_cases here : index = p.outputIndex
        · rw [here, vacant]
          simp [Pipeline.owned]
        · simp [Pipeline.owned, Pipeline.bumpIndex, here]
    | _ => rfl
  case isFalse _ =>
    refine h.opens (o := .raw p.outputIndex) (mark_itemAdded _ _) vacant ?_ ?_
      (Nat.lt_succ_self _) h.steady
    · simp [Pipeline.owned]
    · intro o other
      cases o with
      | raw index =>
          have here : index ≠ p.outputIndex := fun same => other (by rw [same])
          simp [Pipeline.owned, Pipeline.bumpIndex, here]
      | _ => rfl

/-! ## Special calls -/

theorem emitSpecialItem_shaped (h : Shaped env events p) (item : Fields) :
    Shaped env (events ++ (p.emitSpecialItem item).2) (p.emitSpecialItem item).1 := by
  refine ⟨?_, h.steady, h.quiet_append (by simp [Pipeline.emitSpecialItem, itemAdded, itemDone,
    Event.make, EventType.isTerminal])⟩
  rw [List.map_append]
  exact h.serves.flash le_rfl (Int.lt_succ _)

/-- What the client receives of a chunk: nothing, when it raised. -/
def Translated.yielded (done : Translated) : List Event :=
  match done.raised with
  | none => done.emitted
  | some _ => []

theorem Steady.erase {tools : ToolCallCollection} {calls : Dict String SpecialCall}
    (h : Steady env tools calls) (callId : String) :
    Steady env tools (calls.erase callId) := by
  refine ⟨h.refs_valid, h.announced, fun other call held => ?_⟩
  by_cases same : other = callId
  · rw [same, Dict.get?_erase_self] at held
    cases held
  · rw [Dict.get?_erase_of_ne _ same] at held
    exact h.enabled other call held

theorem Steady.set {tools : ToolCallCollection} {calls : Dict String SpecialCall}
    (h : Steady env tools calls) (callId : String) {call : SpecialCall}
    (on : call.kind.enabled env) : Steady env tools (calls.set callId call) := by
  refine ⟨h.refs_valid, h.announced, fun other held found => ?_⟩
  rw [Dict.get?_set] at found
  split at found
  · cases found
    exact on
  · exact h.enabled other held found

theorem dropSpecial_shaped (h : Shaped env events p) (callId : String) :
    Shaped env events (p.dropSpecial callId) :=
  h.congr rfl (Nat.le_refl _) (h.steady.erase callId)

theorem finalizeToolSearch_shaped (h : Shaped env events p) (callId args : String) :
    Shaped env (events ++ (p.finalizeToolSearch env callId args).yielded)
      (p.finalizeToolSearch env callId args).pipeline := by
  have called := emitSpecialItem_shaped h (buildToolSearchCall p.outputIndex callId
    (if args = "" then "\x7b\x7d" else args) env.responseId)
  unfold Pipeline.finalizeToolSearch
  dsimp only
  split
  case h_1 _ => exact dropSpecial_shaped called callId
  case h_2 _ =>
    split
    case h_1 message _ =>
      show Shaped env (events ++ []) _
      rw [List.append_nil]
      exact h.congr rfl (Nat.le_succ _) h.steady
    case h_2 parsed _ =>
      have answered := emitSpecialItem_shaped called (buildToolSearchFunctionCallOutput
        (p.outputIndex + 1) callId env.responseId (parsed.get "query") (parsed.get "limit"))
      rw [List.append_assoc] at answered
      exact dropSpecial_shaped answered callId

theorem finalizeMultiAgent_shaped (h : Shaped env events p)
    (handle : List HandleRequest → HandleRequest → Except String Fields)
    (callId name args : String) :
    Shaped env (events ++ (p.finalizeMultiAgent env handle callId name args).yielded)
      (p.finalizeMultiAgent env handle callId name args).pipeline := by
  unfold Pipeline.finalizeMultiAgent
  split
  case h_1 message _ =>
    show Shaped env (events ++ []) p
    rwa [List.append_nil]
  case h_2 patched rejected _ =>
    have called := emitSpecialItem_shaped h (Pipeline.multiAgentCallItem callId name patched)
    let call := p.emitSpecialItem (Pipeline.multiAgentCallItem callId name patched)
    have refused : ∃ q more, (if rejected then
          call.1.emitSpecialItem (Pipeline.rejectItem callId) else (call.1, [])) = (q, more)
        ∧ Shaped env (events ++ call.2 ++ more) q ∧ q.owned = p.owned
        ∧ p.outputIndex ≤ q.outputIndex := by
      split
      · exact ⟨_, _, rfl, emitSpecialItem_shaped called _, rfl,
          Nat.le_succ_of_le (Nat.le_succ _)⟩
      · exact ⟨_, _, rfl, by rwa [List.append_nil], rfl, Nat.le_succ _⟩
    obtain ⟨q, more, same, shaped, owned, later⟩ := refused
    dsimp only
    rw [same]
    rw [List.append_assoc] at shaped
    split
    case h_1 _ => exact dropSpecial_shaped shaped callId
    case h_2 _ =>
      split
      case h_1 message _ =>
        show Shaped env (events ++ []) _
        rw [List.append_nil]
        exact h.congr owned (Nat.le_succ_of_le later) shaped.steady
      case h_2 result _ =>
        have asked : Shaped env (events ++ (call.2 ++ more))
            { q with handled := q.handled
                ++ [⟨multiAgentNamespace, name, callId, patched, q.outputIndex⟩] } :=
          shaped.congr rfl (Nat.le_refl _) shaped.steady
        have answered := emitSpecialItem_shaped asked result
        rw [List.append_assoc] at answered
        exact dropSpecial_shaped answered callId

theorem specialKind_enabled {name nameSpace bare : String} {kind : SpecialKind}
    (found : Pipeline.specialKind env name nameSpace = some (kind, bare)) :
    kind.enabled env := by
  unfold Pipeline.specialKind at found
  split at found
  case isTrue on =>
    cases found
    exact (Bool.and_eq_true_iff.mp on).1
  case isFalse _ =>
    split at found
    case isTrue _ => cases found
    case isFalse present =>
      obtain ⟨bare, _, same⟩ := Option.map_eq_some_iff.mp found
      cases same
      show env.multiAgent.isSome = true
      cases agent : env.multiAgent with
      | none => simp [agent] at present
      | some _ => rfl

theorem accumulateSpecial_shaped (h : Shaped env events p) {kind : SpecialKind}
    (on : kind.enabled env) (callId name fragment : String) :
    Shaped env events (p.accumulateSpecial callId kind name fragment) := by
  refine h.congr rfl (Nat.le_refl _) (h.steady.set callId ?_)
  show SpecialKind.enabled env ((p.specialCalls.get? callId).getD ⟨name, kind, ""⟩).kind
  cases held : p.specialCalls.get? callId with
  | none => exact on
  | some call => exact h.steady.enabled callId call held

theorem finalizeSpecialCall_shaped (h : Shaped env events p) (callId arguments : String) :
    (p.specialCalls.get? callId = none
        ∧ p.finalizeSpecialCall env callId arguments = .inr p)
      ∨ ∃ done, p.finalizeSpecialCall env callId arguments = .inl done
        ∧ Shaped env (events ++ done.yielded) done.pipeline := by
  unfold Pipeline.finalizeSpecialCall
  cases held : p.specialCalls.get? callId with
  | none => exact .inl ⟨rfl, rfl⟩
  | some call =>
      right
      have on := h.steady.enabled callId call held
      obtain ⟨name, kind, collected⟩ := call
      let args := if arguments = "" then collected else arguments
      have kept : Shaped env events
          { p with specialCalls := p.specialCalls.set callId ⟨name, kind, args⟩ } :=
        h.congr rfl (Nat.le_refl _) (h.steady.set callId on)
      cases kind with
      | toolSearch =>
          have enabled : env.toolSearchEnabled = true := on
          exact ⟨_, if_pos enabled, finalizeToolSearch_shaped kept callId args⟩
      | multiAgent =>
          cases agent : env.multiAgent with
          | none => simp [SpecialKind.enabled, agent] at on
          | some handle =>
              exact ⟨_, rfl, finalizeMultiAgent_shaped kept handle callId name args⟩

end Zhongzhuan.Responses
