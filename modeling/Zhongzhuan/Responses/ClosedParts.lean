import Zhongzhuan.Responses.HonestTerminal
import Zhongzhuan.Responses.NotedParts

/-!
# The end of a message in the pipeline

The adapter closes the calls of a message in the order in which they were opened, and then says
that the upstream has finished.

* `Noted.close_valid` is the terminator of an ordinary call whose arguments parse;
  `close_rejected` that of a call whose arguments do not.
* `Noted.output` reads the output array off the places: the items stand in the order in which
  the parts first appeared, and the items of other origin come after them.
-/

namespace Zhongzhuan.Responses

open Kit Protocol

variable {env : Env} {m : ChatMessage} {deltas : List Signal} {closed : List ℤ}
  {places : List (ℕ × Slot)} {p : Pipeline}

/-! ## Terminators of ordinary calls -/

theorem translateToolCallDone_of_filed (filed : Filed p.tools) {ref : ℕ}
    {acc : ToolCallAccumulator} (held : p.tools.accs[ref]? = some acc) {callId : String}
    {index : ℤ} (named : acc.callId = callId) (source : acc.sourceIndex = index) :
    (acc.validate env.loads = .valid ∧
        p.translateToolCallDone env callId "" (some index)
          = ⟨{ p with tools := p.tools.modify ref fun acc =>
                (acc.noteVerdict .valid).markItemDone },
              [argumentsDone acc.outputIndex acc.callId acc.arguments,
                itemDone acc.outputIndex (functionCallItem acc .completed acc.arguments)], none⟩)
      ∨ acc.validate env.loads ≠ .valid ∧
        ((p.translateToolCallDone env callId "" (some index)).raised ≠ none ∨
          (p.translateToolCallDone env callId "" (some index)).pipeline.hadInvalidToolArgs
            = true) := by
  have found := filed.get held (.inr rfl)
  rw [named, source] at found
  have nothing : (fun acc : ToolCallAccumulator => acc.appendArguments "") = id := by
    funext acc
    unfold ToolCallAccumulator.appendArguments
    rw [String.append_empty]
    rfl
  have unchanged : p.tools.modify ref (·.appendArguments "") = p.tools := by
    unfold ToolCallCollection.modify
    rw [nothing, List.modify_id]
  unfold Pipeline.translateToolCallDone
  rw [found]
  dsimp only
  rw [unchanged, held]
  dsimp only
  cases judged : acc.validate env.loads with
  | valid => exact .inl ⟨rfl, rfl⟩
  | invalid => exact .inr ⟨nofun, .inr rfl⟩
  | raised message => exact .inr ⟨nofun, .inl nofun⟩

namespace Noted

theorem exists_held (h : Noted env m deltas closed places p) {index : ℤ} {call : ChatCall}
    (found : m.callAt index = some call) (mem : index ∈ Responses.opened deltas)
    (ordinary : Pipeline.specialKind env call.name "" = none) :
    ∃ output ref : ℕ, (output, index) ∈ callPlaces places
      ∧ p.tools.accs[ref]? = some (call.accumulator env.responseId (output, index)
          (argumentsAt index deltas) (index ∈ closed)) := by
  obtain ⟨place, listed, rfl⟩ := h.placed.mpr ⟨mem, by simp [Slot.listed, found, ordinary]⟩
  obtain ⟨ref, held⟩ := List.mem_iff_getElem?.mp (h.mem_accs.mpr ⟨place, listed, rfl⟩)
  have object := @accumulatorAt_of_callAt env m deltas closed place.2 call found place.1
  exact ⟨place.1, ref, listed, held.trans (congrArg some object)⟩

theorem special_of_ordinary (h : Noted env m deltas closed places p) {index : ℤ}
    {call : ChatCall} (found : m.callAt index = some call)
    (ordinary : Pipeline.specialKind env call.name "" = none) :
    p.specialCalls.get? call.id = none := by
  rw [h.special index call found]
  unfold noteOf
  rw [ordinary, Option.map_none, ite_self]

theorem terminator_eq (h : Noted env m deltas closed places p) {index : ℤ} {call : ChatCall}
    (found : m.callAt index = some call)
    (ordinary : Pipeline.specialKind env call.name "" = none) :
    p.translateChunk env (m.terminator index)
      = p.translateToolCallDone env call.id "" (some index) := by
  unfold ChatMessage.terminator
  rw [ChatMessage.idAt_of_callAt found,
    Pipeline.translateChunk_of_ordinary_done (h.special_of_ordinary found ordinary)]

theorem close_valid (h : Noted env m deltas closed places p) {index : ℤ} {call : ChatCall}
    (found : m.callAt index = some call) (mem : index ∈ Responses.opened deltas)
    (ordinary : Pipeline.specialKind env call.name "" = none)
    (parses : parsesObject env.loads (argumentsAt index deltas) = true) :
    (p.translateChunk env (m.terminator index)).raised = none
      ∧ (p.translateChunk env (m.terminator index)).pipeline.synthesizedItems
        = p.synthesizedItems
      ∧ Noted env m deltas (closed ++ [index]) places
          (p.translateChunk env (m.terminator index)).pipeline := by
  obtain ⟨output, ref, listed, held⟩ := h.exists_held found mem ordinary
  rw [h.terminator_eq found ordinary]
  obtain ⟨_, done⟩ | ⟨rejected, _⟩ :=
    @translateToolCallDone_of_filed env p h.filed ref _ held call.id index rfl rfl
  case inr => exact (rejected (validate_eq_valid.mpr parses)).elim
  rw [done]
  refine ⟨rfl, rfl, h.slots, h.increasing, h.below, h.owner, ?_, ?_, h.message, h.opened, h.text,
    fun index' call' found' => ?_, h.handled, h.valid⟩
  · show p.tools.accs.modify ref _ = _
    rw [h.filed.modify_eq held, h.accs, List.map_map]
    refine List.map_congr_left fun place inside => ?_
    show (if place.2 = index then _ else _) = _
    unfold ChatMessage.accumulatorAt
    by_cases here : place.2 = index
    · rw [if_pos here]
      simp [ToolCallAccumulator.noteVerdict, ToolCallAccumulator.markItemDone,
        ChatCall.accumulator, here]
    · rw [if_neg here]
      simp [here]
  · exact h.filed.modify rfl (fun _ => rfl) rfl (fun _ _ => rfl) fun _ => rfl
  · show p.specialCalls.get? call'.id = _
    rw [h.special index' call' found']
    by_cases same : index' = index
    · subst same
      cases found.symm.trans found'
      have nothing : ∀ arguments, noteOf env call arguments = none := fun arguments => by
        unfold noteOf
        rw [ordinary]
        rfl
      simp only [nothing, ite_self]
    · simp [same]

theorem close_rejected (h : Noted env m deltas closed places p) {index : ℤ} {call : ChatCall}
    (found : m.callAt index = some call) (mem : index ∈ Responses.opened deltas)
    (ordinary : Pipeline.specialKind env call.name "" = none)
    (rejects : parsesObject env.loads (argumentsAt index deltas) = false) :
    (p.translateChunk env (m.terminator index)).raised ≠ none
      ∨ (p.translateChunk env (m.terminator index)).pipeline.hadInvalidToolArgs = true := by
  obtain ⟨output, ref, listed, held⟩ := h.exists_held found mem ordinary
  rw [h.terminator_eq found ordinary]
  obtain ⟨valid, _⟩ | ⟨_, spoiled⟩ :=
    @translateToolCallDone_of_filed env p h.filed ref _ held call.id index rfl rfl
  · have parses := validate_eq_valid.mp valid
    change parsesObject env.loads (argumentsAt index deltas) = true at parses
    rw [rejects] at parses
    cases parses
  · exact spoiled

end Noted

theorem after_invalid {chunks : List Chunk} {q : Pipeline} (invalid : p.hadInvalidToolArgs = true)
    (reached : p.after env chunks = some q) : q.hadInvalidToolArgs = true := by
  induction chunks generalizing p with
  | nil =>
      cases reached
      exact invalid
  | cons c rest ih =>
      unfold Pipeline.after at reached
      split at reached
      case isTrue _ =>
        refine ih ((congrArg Prod.fst (translateChunk_flags env p c)).trans ?_) reached
        rw [invalid, Bool.true_or]
      case isFalse _ => cases reached

namespace Noted

theorem close_all (h : Noted env m deltas closed places p)
    (ordinary : ∀ call ∈ m.calls, Pipeline.specialKind env call.name "" = none)
    (of : DeltasOf m deltas) {indexes : List ℤ}
    (inside : ∀ index ∈ indexes, index ∈ Responses.opened deltas) :
    (∀ index ∈ indexes, parsesObject env.loads (argumentsAt index deltas) = true) ∧
        (∃ q, p.after env (indexes.map m.terminator) = some q
          ∧ q.synthesizedItems = p.synthesizedItems
          ∧ Noted env m deltas (closed ++ indexes) places q)
      ∨ (∃ index ∈ indexes, parsesObject env.loads (argumentsAt index deltas) = false) ∧
        ∀ q, p.after env (indexes.map m.terminator) = some q → q.hadInvalidToolArgs = true := by
  induction indexes generalizing p closed with
  | nil => exact .inl ⟨nofun, p, rfl, rfl, by rwa [List.append_nil]⟩
  | cons index rest ih =>
      have mem := inside index List.mem_cons_self
      obtain ⟨call, found⟩ := of.callAt mem
      have plain := ordinary call (ChatMessage.mem_of_callAt found)
      rw [List.map_cons]
      unfold Pipeline.after
      cases verdict : parsesObject env.loads (argumentsAt index deltas) with
      | false =>
          right
          refine ⟨⟨index, List.mem_cons_self, verdict⟩, fun q reached => ?_⟩
          split at reached
          case isTrue returned =>
            have spoiled := (h.close_rejected found mem plain verdict).resolve_left
              (not_not_intro returned)
            exact after_invalid spoiled reached
          case isFalse _ => cases reached
      | true =>
          obtain ⟨returned, made, next⟩ := h.close_valid found mem plain verdict
          rw [if_pos returned]
          rcases ih next fun i later => inside i (List.mem_cons_of_mem index later) with
            ⟨parse, q, reached, same, noted⟩ | ⟨⟨bad, later, rejects⟩, spoiled⟩
          · left
            refine ⟨List.forall_mem_cons.mpr ⟨verdict, parse⟩, q, reached, same.trans made, ?_⟩
            rwa [List.append_assoc, List.singleton_append] at noted
          · exact .inr ⟨⟨bad, List.mem_cons_of_mem index later, rejects⟩, spoiled⟩

end Noted

/-! ## The output array -/

/-- The item of a part of the message, as the output array shows it. -/
def Pipeline.placedItem (p : Pipeline) (env : Env) (m : ChatMessage) (deltas : List Signal)
    (closed : List ℤ) (place : ℕ × Slot) : Fields :=
  match place.2 with
  | .message => p.messageOutput (p.messageItem.getD ⟨"", place.1⟩)
  | .call index =>
    Pipeline.toolOutput (m.accumulatorAt env.responseId deltas closed (place.1, index))

theorem places_perm {α : Type} (f : ℕ × Slot → α) (distinct : (places.map Prod.snd).Nodup) :
    ((messagePlace places).toList.map (fun index => f (index, .message))
        ++ (callPlaces places).map fun place => f (place.1, .call place.2)).Perm
      (places.map f) := by
  induction places with
  | nil => exact .nil
  | cons place rest ih =>
      obtain ⟨index, slot⟩ := place
      rw [List.map_cons, List.nodup_cons] at distinct
      have others := ih distinct.2
      cases slot with
      | message =>
          have unspoken : messagePlace rest = none := by
            rw [← Option.not_isSome_iff_eq_none, messagePlace_isSome]
            exact distinct.1
          rw [unspoken] at others
          exact others.cons _
      | call source =>
          have spoken : messagePlace ((index, .call source) :: rest) = messagePlace rest := rfl
          have calls : callPlaces ((index, .call source) :: rest)
              = (index, source) :: callPlaces rest := rfl
          rw [spoken, calls, List.map_cons]
          exact List.perm_middle.trans (others.cons _)

namespace Noted

theorem distinct (h : Noted env m deltas closed places p) : (places.map Prod.snd).Nodup := by
  rw [h.slots]
  exact (nodup_slotsOf deltas).filter _

theorem collected_perm (h : Noted env m deltas closed places p) {q : Pipeline}
    (message : q.messageItem = p.messageItem) (tools : q.tools = p.tools) :
    q.collectedItems.Perm
      (places.map (fun place => (place.1, q.placedItem env m deltas closed place))
        ++ q.synthesizedItems) := by
  refine List.Perm.append_right _ (.trans (.append ?_ ?_) (places_perm _ h.distinct))
  · have same := h.message
    rw [← message] at same
    cases item : q.messageItem with
    | none =>
        rw [item] at same
        rw [← same]
        exact .nil
    | some item' =>
        rw [item] at same
        rw [← same]
        show List.Perm [(item'.outputIndex, q.messageOutput item')]
          [(item'.outputIndex, q.messageOutput (q.messageItem.getD _))]
        rw [item]
        exact .refl _
  · have listed : (p.tools.listAll.filter (·.itemAdded)).Perm p.tools.accs := by
      refine (h.filed.listAll_perm.filter _).trans (.of_eq (List.filter_eq_self.mpr ?_))
      intro acc mem
      obtain ⟨place, _, rfl⟩ := h.mem_accs.mp mem
      rfl
    rw [tools]
    refine (listed.map _).trans (.of_eq ?_)
    rw [h.accs, List.map_map]
    rfl

/-- **The output array**: the parts in the order of their places, then the other items. -/
theorem output (h : Noted env m deltas closed places p) {q : Pipeline}
    (message : q.messageItem = p.messageItem) (tools : q.tools = p.tools)
    (made : q.synthesizedItems = p.synthesizedItems) :
    q.outputItems = places.map (q.placedItem env m deltas closed)
      ++ q.synthesizedItems.map Prod.snd := by
  unfold Pipeline.outputItems
  rw [mergeSort_eq_of_perm (h.collected_perm message tools), List.map_append, List.map_map]
  · rfl
  · rw [made, List.map_append, List.map_map]
    exact h.increasing

theorem closeTools_eq (h : Noted env m deltas closed places p)
    (all : ∀ place ∈ callPlaces places, place.2 ∈ closed) (incomplete : Bool) :
    (p.closeTools incomplete).1.tools = p.tools := by
  have settled : ∀ acc ∈ p.tools.accs, Pipeline.isPending acc = false := by
    intro acc mem
    obtain ⟨place, inside, rfl⟩ := h.mem_accs.mp mem
    have ended : (m.accumulatorAt env.responseId deltas closed place).itemDone = true :=
      decide_eq_true (all place inside)
    unfold Pipeline.isPending
    rw [ended, Bool.not_true, Bool.and_false]
  have accs : (p.tools.accs.mapIdx fun ref acc =>
      if ref ∈ p.tools.refs ∧ Pipeline.isPending acc then acc.markItemDone else acc)
        = p.tools.accs := by
    refine List.ext_getElem? fun r => ?_
    rw [List.getElem?_mapIdx]
    cases held : p.tools.accs[r]? with
    | none => rfl
    | some acc =>
        have done := settled acc (List.mem_of_getElem? held)
        simp [done]
  exact congrArg (fun accs => ({ p.tools with accs := accs } : ToolCallCollection)) accs

theorem completed (h : Noted env m deltas closed places p)
    (all : ∀ place ∈ callPlaces places, place.2 ∈ closed) (saw : p.sawProviderFinish = true)
    (arrivals : List Arrival) :
    (conclude env p none (endingReason p arrivals .upstreamEnd)).1.state = .ended .completed
      ∧ (conclude env p none (endingReason p arrivals .upstreamEnd)).1.outputItems
        = places.map ((conclude env p none
              (endingReason p arrivals .upstreamEnd)).1.placedItem env m deltas closed)
            ++ p.synthesizedItems.map Prod.snd
      ∧ (conclude env p none (endingReason p arrivals .upstreamEnd)).1.messageText
        = deltas.filterMap Signal.text? := by
  have content := @conclude_content env p none (endingReason p arrivals .upstreamEnd)
  have tools := @conclude_tools env p none (endingReason p arrivals .upstreamEnd)
  rw [h.closeTools_eq all] at tools
  refine ⟨?_, ?_, content.messageText.trans h.text⟩
  · unfold conclude endingReason
    simp only [h.valid, saw, Bool.false_eq_true, if_false, if_true]
    rfl
  · rw [h.output content.messageItem tools content.synthesizedItems, content.synthesizedItems]

end Noted

end Zhongzhuan.Responses
