import Zhongzhuan.Responses.CallStatus
import Zhongzhuan.Responses.FiledCalls

/-!
# What the pipeline has noted of a message

The deltas of a message come in any order.  After any number of them the pipeline has given an
output index to each part of the message it has seen, except for the special calls, in the
order in which they first appeared; and it has noted of each part exactly what the deltas said.

* `ChatCall.accumulator` is the object of a call after some fragments.
* `Noted` is the invariant; `Noted.step` is one delta, `noted_of_deltas` are all.
-/

namespace Zhongzhuan.Responses

open Kit Protocol

/-! ## One call -/

namespace ChatCall

variable (call : ChatCall)

/-- The namespace that is restored from the name. -/
def space : String := (splitNamespaceName call.name).1

/-- The name the stream shows; a name with nothing behind its namespace stays whole. -/
def shownName : String :=
  if (splitNamespaceName call.name).1 = "" ∨ (splitNamespaceName call.name).2 = "" then call.name
  else (splitNamespaceName call.name).2

/-- The object of the call, announced at a place: an output index and the source index. -/
def accumulator (responseId : String) (place : ℕ × ℤ) (arguments : String) (closed : Bool) :
    ToolCallAccumulator where
  sourceIndex := place.2
  outputIndex := place.1
  callId := call.id
  name := call.shownName
  arguments := arguments
  itemAdded := true
  argumentsDone := closed
  itemDone := closed
  nameSpace := call.space
  itemId := makeFunctionCallItemIdStable responseId place.1

variable {call} {acc : ToolCallAccumulator}

theorem absorbName_name (named : call.name ≠ "")
    (blank : call.space = "" → acc.nameSpace = "") :
    acc.absorbName call.name "" = { acc with name := call.shownName, nameSpace := call.space } := by
  unfold space at blank
  unfold ToolCallAccumulator.absorbName ToolCallAccumulator.restoreName
    ToolCallAccumulator.applyNamespace ToolCallAccumulator.replaceName shownName space
  rw [if_pos rfl]
  dsimp only
  by_cases plain : (splitNamespaceName call.name).1 = ""
  · rw [if_pos plain, if_neg named, if_pos (.inl plain), plain, ← blank plain]
  · rw [if_neg plain, if_neg named]
    by_cases bare : (splitNamespaceName call.name).2 = ""
    · rw [if_pos bare, if_pos (.inr bare)]
    · rw [if_neg bare, if_neg (by simp [plain, bare])]

theorem absorbName_again (named : call.name ≠ "") {name : String}
    (same : name = "" ∨ name = call.name) (shown : acc.name = call.shownName)
    (space : acc.nameSpace = call.space) : acc.absorbName name "" = acc := by
  rcases same with rfl | rfl
  · have split : splitNamespaceName "" = ("", "") := by decide
    simp [ToolCallAccumulator.absorbName, ToolCallAccumulator.restoreName, split,
      ToolCallAccumulator.replaceName, ToolCallAccumulator.applyNamespace]
  · rw [absorbName_name named fun plain => space.trans plain, ← shown, ← space]

theorem accumulator_fragment (named : call.name ≠ "") {responseId arguments : String}
    {place : ℕ × ℤ} {closed : Bool} {id name : String} (sameId : id = "" ∨ id = call.id)
    (sameName : name = "" ∨ name = call.name) (fragment : String) :
    (((call.accumulator responseId place arguments closed).bindCallId id).absorbName name
        "").appendArguments fragment
      = call.accumulator responseId place (arguments ++ fragment) closed := by
  have bound : (call.accumulator responseId place arguments closed).bindCallId id
      = call.accumulator responseId place arguments closed := by
    unfold ToolCallAccumulator.bindCallId
    rcases sameId with rfl | rfl
    · rw [if_pos rfl]
    · split <;> rfl
  rw [bound, absorbName_again named sameName rfl rfl]
  rfl

end ChatCall

/-! ## The message -/

/-- What the claim of a message is about: calls with ids of their own, and names. -/
structure ChatMessage.Proper (m : ChatMessage) : Prop where
  distinct : (m.calls.map ChatCall.id).Nodup
  identified : ∀ call ∈ m.calls, call.id ≠ ""
  named : ∀ call ∈ m.calls, call.name ≠ ""

/-- The parts of a message that get their place while deltas come: all but the special calls. -/
def Slot.listed (env : Env) (m : ChatMessage) : Slot → Bool
  | .message => true
  | .call index => ((m.callAt index).bind fun call =>
      Pipeline.specialKind env call.name "").isNone

/-- Every fragment of a special call has the id and the name of the call. -/
def SentWhole (env : Env) (m : ChatMessage) (deltas : List Signal) : Prop :=
  ∀ index id name fragment, Signal.call index id name fragment ∈ deltas →
    ∀ call, m.callAt index = some call →
      (Pipeline.specialKind env call.name "").isSome → id = call.id ∧ name = call.name

/-- The calls among the places, each a part of the message with the output index it was given. -/
def callPlaces (places : List (ℕ × Slot)) : List (ℕ × ℤ) :=
  places.filterMap fun place => place.2.index?.map (place.1, ·)

/-- The place of the text. -/
def messagePlace (places : List (ℕ × Slot)) : Option ℕ :=
  (places.find? fun place => place.2 = .message).map Prod.fst

/-- The object at a place, after some deltas and with some calls closed. -/
def ChatMessage.accumulatorAt (m : ChatMessage) (responseId : String) (deltas : List Signal)
    (closed : List ℤ) (place : ℕ × ℤ) : ToolCallAccumulator :=
  ((m.callAt place.2).getD ⟨"", "", ""⟩).accumulator responseId place
    (argumentsAt place.2 deltas) (place.2 ∈ closed)

/-- What is noted of a special call. -/
def noteOf (env : Env) (call : ChatCall) (arguments : String) : Option SpecialCall :=
  (Pipeline.specialKind env call.name "").map fun found => ⟨found.2, found.1, arguments⟩

/-- **The invariant**: what the pipeline has noted after some deltas, with some calls closed. -/
structure Noted (env : Env) (m : ChatMessage) (deltas : List Signal) (closed : List ℤ)
    (places : List (ℕ × Slot)) (p : Pipeline) : Prop where
  slots : places.map Prod.snd = (slotsOf deltas).filter (Slot.listed env m)
  increasing : (places.map Prod.fst ++ p.synthesizedItems.map Prod.fst).Pairwise (· < ·)
  below : ∀ index ∈ places.map Prod.fst ++ p.synthesizedItems.map Prod.fst, index < p.outputIndex
  owner : p.tools.responseId = env.responseId
  accs : p.tools.accs = (callPlaces places).map (m.accumulatorAt env.responseId deltas closed)
  filed : Filed p.tools
  message : p.messageItem.map OpenItem.outputIndex = messagePlace places
  opened : p.openMessage = p.messageItem
  text : p.messageText = deltas.filterMap Signal.text?
  special : ∀ index call, m.callAt index = some call →
    p.specialCalls.get? call.id
      = if index ∈ Responses.opened deltas ∧ index ∉ closed
          then noteOf env call (argumentsAt index deltas) else none
  handled : p.handled = []
  valid : p.hadInvalidToolArgs = false

/-! ### Places -/

section Places

variable {places : List (ℕ × Slot)} {index : ℕ} {slot : Slot}

theorem callPlaces_concat_message :
    callPlaces (places ++ [(index, .message)]) = callPlaces places := by
  unfold callPlaces
  rw [List.filterMap_append]
  exact List.append_nil _

theorem callPlaces_concat_call (source : ℤ) :
    callPlaces (places ++ [(index, .call source)]) = callPlaces places ++ [(index, source)] := by
  unfold callPlaces
  rw [List.filterMap_append]
  rfl

theorem mem_callPlaces {place : ℕ × ℤ} :
    place ∈ callPlaces places ↔ (place.1, Slot.call place.2) ∈ places := by
  unfold callPlaces
  rw [List.mem_filterMap]
  constructor
  · rintro ⟨⟨index, slot⟩, mem, isCall⟩
    cases slot with
    | message => cases isCall
    | call source =>
        cases isCall
        exact mem
  · exact fun mem => ⟨_, mem, rfl⟩

theorem messagePlace_isSome :
    (messagePlace places).isSome ↔ Slot.message ∈ places.map Prod.snd := by
  unfold messagePlace
  rw [Option.isSome_map, List.find?_isSome, List.mem_map]
  constructor
  · rintro ⟨place, mem, isMessage⟩
    exact ⟨place, mem, by simpa using isMessage⟩
  · rintro ⟨place, mem, isMessage⟩
    exact ⟨place, mem, by simpa using isMessage⟩

theorem messagePlace_concat_call (source : ℤ) :
    messagePlace (places ++ [(index, .call source)]) = messagePlace places := by
  unfold messagePlace
  rw [List.find?_append]
  exact congrArg _ (Option.or_none)

theorem messagePlace_concat_message (none : messagePlace places = none) :
    messagePlace (places ++ [(index, .message)]) = some index := by
  unfold messagePlace at none ⊢
  rw [Option.map_eq_none_iff] at none
  rw [List.find?_append, none]
  rfl

end Places

/-! ### Arguments -/

section Arguments

variable {deltas : List Signal}

theorem argumentsAt_concat_text (index : ℤ) (delta : String) :
    argumentsAt index (deltas ++ [.text delta]) = argumentsAt index deltas := by
  unfold argumentsAt
  rw [List.filterMap_append]
  exact congrArg String.join (List.append_nil _)

theorem argumentsAt_concat_call (index source : ℤ) (id name fragment : String) :
    argumentsAt index (deltas ++ [.call source id name fragment])
      = if source = index then argumentsAt index deltas ++ fragment
        else argumentsAt index deltas := by
  unfold argumentsAt
  rw [List.filterMap_append, String.join_append]
  by_cases here : source = index
  · rw [if_pos here]
    simp [Signal.fragment, here]
  · rw [if_neg here]
    simp [Signal.fragment, here]

theorem argumentsAt_of_new {index : ℤ} (new : index ∉ opened deltas) :
    argumentsAt index deltas = "" := by
  have none : deltas.filterMap (Signal.fragment index) = [] := by
    refine List.filterMap_eq_nil_iff.mpr fun s mem => ?_
    cases s with
    | call source id name fragment =>
        refine if_neg fun here => new (mem_opened.mpr ?_)
        rw [slotsOf, List.mem_eraseDups, List.mem_filterMap]
        exact ⟨_, mem, by rw [← here]; rfl⟩
    | _ => rfl
  unfold argumentsAt
  rw [none]
  rfl

end Arguments

theorem mem_opened_concat_of_ne {deltas : List Signal} {index other : ℤ} (ne : other ≠ index)
    {id name fragment : String} :
    other ∈ opened (deltas ++ [.call index id name fragment]) ↔ other ∈ opened deltas := by
  rw [opened_concat_call]
  split
  · exact Iff.rfl
  · rw [List.mem_append, List.mem_singleton]
    exact or_iff_left ne

/-! ## One delta -/

variable {env : Env} {m : ChatMessage} {deltas : List Signal} {closed : List ℤ}
  {places : List (ℕ × Slot)} {p : Pipeline}

theorem translateText_spec (delta : String) :
    (p.translateText env delta).1.messageText = p.messageText ++ [delta]
      ∧ (p.translateText env delta).1.handled = p.handled
      ∧ ((∃ item, p.openMessage = some item
            ∧ (p.translateText env delta).1.openMessage = some item
            ∧ (p.translateText env delta).1.messageItem = p.messageItem
            ∧ (p.translateText env delta).1.outputIndex = p.outputIndex)
        ∨ p.openMessage = none ∧ ∃ item : OpenItem, p.outputIndex ≤ item.outputIndex
            ∧ (p.translateText env delta).1.openMessage = some item
            ∧ (p.translateText env delta).1.messageItem = some item
            ∧ (p.translateText env delta).1.outputIndex = item.outputIndex + 1) := by
  refine ⟨(@translateText_unnoticed env p "" delta).texts, ?_, ?_⟩
  · unfold Pipeline.translateText
    cases held : p.openMessage with
    | some item => simp only [Option.isSome_some, if_true, held]
    | none =>
        simp only [Option.isSome_none, Bool.false_eq_true, if_false, Pipeline.openMessageItem]
        unfold Pipeline.ensureReasoningLifecycle Pipeline.closeReasoning
        repeat' split
        all_goals rfl
  · unfold Pipeline.translateText
    cases held : p.openMessage with
    | some item =>
        left
        simp only [Option.isSome_some, if_true, held]
        exact ⟨item, rfl, rfl, trivial, trivial⟩
    | none =>
        right
        simp only [Option.isSome_none, Bool.false_eq_true, if_false]
        have ensured := @ensureReasoningLifecycle_index env (p.closeReasoning false).1
        rw [closeReasoning_index] at ensured
        exact ⟨trivial, _, ensured, rfl, rfl, rfl⟩

theorem translateToolCall_of_filed (filed : Filed p.tools) {ref : ℕ} {acc : ToolCallAccumulator}
    (held : p.tools.accs[ref]? = some acc) (added : acc.itemAdded = true) {id : String}
    (same : id = "" ∨ id = acc.callId) (name fragment : String) :
    ∃ tools : ToolCallCollection,
      tools.accs = p.tools.accs.map (fun a => if a.sourceIndex = acc.sourceIndex
          then ((a.bindCallId id).absorbName name "").appendArguments fragment else a)
        ∧ Filed tools ∧ tools.responseId = p.tools.responseId
        ∧ (p.translateToolCall id name fragment "" (some acc.sourceIndex)).1
          = { p with tools := tools, state := .streaming } := by
  have found := filed.get held same
  obtain ⟨position, bound, _⟩ := ToolCallCollection.ensure_of_get p.outputIndex found
  have ids : ∀ i, (p.tools.ensure p.outputIndex id (some acc.sourceIndex)).2.byCallId.get? i
      = p.tools.byCallId.get? i := by
    intro i
    unfold ToolCallCollection.ensure
    rw [found]
    dsimp only
    split
    case isTrue _ => rfl
    case isFalse named =>
      obtain rfl : id = acc.callId := same.resolve_left named
      show (p.tools.byCallId.set acc.callId ref).get? i = _
      rw [Dict.get?_set]
      split
      case isTrue here => rw [here, (filed.byId acc.callId ref).mpr ⟨acc, held, rfl⟩]
      case isFalse _ => rfl
  have rest : (p.tools.ensure p.outputIndex id (some acc.sourceIndex)).2.bySourceIndex
        = p.tools.bySourceIndex
      ∧ (p.tools.ensure p.outputIndex id (some acc.sourceIndex)).2.responseId
        = p.tools.responseId := by
    unfold ToolCallCollection.ensure
    rw [found]
    dsimp only
    split <;> exact ⟨rfl, rfl⟩
  have bindSame : (acc.bindCallId id).callId = acc.callId := by
    unfold ToolCallAccumulator.bindCallId
    rcases same with rfl | rfl
    · rw [if_pos rfl]
    · split <;> rfl
  unfold Pipeline.translateToolCall
  dsimp only
  rw [position]
  generalize (p.tools.ensure p.outputIndex id (some acc.sourceIndex)).2 = tools at bound ids rest ⊢
  have accs : (tools.modify ref fun acc =>
      (acc.absorbName name "").appendArguments fragment).accs
        = p.tools.accs.modify ref (fun acc =>
          ((acc.bindCallId id).absorbName name "").appendArguments fragment) := by
    rw [ToolCallCollection.accs_modify, bound, List.modify_modify_eq]
    rfl
  have changed : SameItem acc
      (((acc.bindCallId id).absorbName name "").appendArguments fragment) :=
    (SameItem.bindCallId acc id).trans (SameItem.fragment _ name "" fragment)
  refine ⟨_, accs.trans (filed.modify_eq held _), ?_, rest.2, ?_⟩
  · refine filed.modify accs ids rest.1 (fun old here => ?_) fun old =>
      (fragment_arguments old id name "" fragment).2
    obtain rfl := Option.some.inj (here.symm.trans held)
    obtain ⟨given, space, named⟩ := absorbName_eq (old.bindCallId id) name ""
    rw [named]
    exact bindSame
  · rw [accs, List.getElem?_modify, held]
    simp only [if_true, Option.map_eq_map, Option.map_some]
    rw [if_pos (changed.itemAdded.trans added)]

namespace Noted

theorem of_text (h : Noted env m deltas closed places p) {q : Pipeline} {places' : List (ℕ × Slot)}
    (delta : String) (books : q.books = p.books) (ledger : q.ledger = p.ledger)
    (text : q.messageText = p.messageText ++ [delta]) (handled : q.handled = p.handled)
    (calls : callPlaces places' = callPlaces places)
    (slots : places'.map Prod.snd
      = (slotsOf (deltas ++ [.text delta])).filter (Slot.listed env m))
    (increasing : (places'.map Prod.fst ++ p.synthesizedItems.map Prod.fst).Pairwise (· < ·))
    (below : ∀ index ∈ places'.map Prod.fst ++ p.synthesizedItems.map Prod.fst,
      index < q.outputIndex)
    (message : q.messageItem.map OpenItem.outputIndex = messagePlace places')
    (opened : q.openMessage = q.messageItem) :
    Noted env m (deltas ++ [.text delta]) closed places' q := by
  have tools : q.tools = p.tools := congrArg Prod.fst books
  have made : q.synthesizedItems = p.synthesizedItems :=
    congrArg (fun ledger => ledger.2.2) ledger
  have special : q.specialCalls = p.specialCalls := congrArg Prod.fst ledger
  refine ⟨slots, made ▸ increasing, made ▸ below, tools ▸ h.owner, ?_, tools ▸ h.filed, message,
    opened, ?_, fun index call found => ?_, handled.trans h.handled, ?_⟩
  · rw [tools, h.accs, calls]
    refine List.map_congr_left fun place _ => ?_
    unfold ChatMessage.accumulatorAt
    rw [argumentsAt_concat_text]
  · rw [text, h.text, List.filterMap_append]
    rfl
  · rw [special, h.special index call found, opened_concat_text, argumentsAt_concat_text]
  · exact (congrArg (fun books => books.2.1) books).trans h.valid

theorem text_step (h : Noted env m deltas closed places p) (made : p.synthesizedItems = [])
    (delta : String) :
    ∃ places', Noted env m (deltas ++ [.text delta]) closed places'
      (p.translateText env delta).1 := by
  obtain ⟨text, handled, spoken⟩ := @translateText_spec env p delta
  have books := @translateText_books env p delta
  have ledger := @translateText_ledger env p delta
  have known : Slot.message ∈ slotsOf deltas ↔ p.messageItem.isSome := by
    rw [← Option.isSome_map (f := OpenItem.outputIndex), h.message, messagePlace_isSome, h.slots,
      List.mem_filter]
    exact ⟨fun mem => ⟨mem, rfl⟩, And.left⟩
  rcases spoken with
    ⟨item, held, opened, message, index⟩ | ⟨vacant, item, later, opened, message, index⟩
  · have held' : p.messageItem = some item := h.opened.symm.trans held
    refine ⟨places, h.of_text delta books ledger text handled rfl ?_ h.increasing ?_ ?_ ?_⟩
    · rw [h.slots, slotsOf_concat]
      simp only [Signal.slot?, if_pos (known.mpr (by rw [held']; rfl))]
    · rw [index]
      exact h.below
    · rw [message]
      exact h.message
    · rw [opened, message, held']
  · have silent : p.messageItem = none := h.opened.symm.trans vacant
    have unplaced : messagePlace places = none := by
      rw [← h.message, silent]
      rfl
    have before := h.below
    have increasing := h.increasing
    rw [made, List.map_nil, List.append_nil] at before increasing
    refine ⟨places ++ [(item.outputIndex, .message)],
      h.of_text delta books ledger text handled callPlaces_concat_message ?_ ?_ ?_ ?_ ?_⟩
    · rw [List.map_append, h.slots, slotsOf_concat]
      have new : Slot.message ∉ slotsOf deltas := fun mem => by
        have spoken := known.mp mem
        rw [silent] at spoken
        cases spoken
      simp only [Signal.slot?, if_neg new, List.filter_append]
      rfl
    · rw [made, List.map_nil, List.append_nil, List.map_append]
      refine List.pairwise_append.mpr ⟨increasing, List.pairwise_singleton _ _, ?_⟩
      rintro i mem j last
      obtain rfl := List.mem_singleton.mp last
      exact (before i mem).trans_le later
    · rw [made, List.map_nil, List.append_nil, index, List.map_append]
      intro i mem
      rcases List.mem_append.mp mem with old | last
      · exact ((before i old).trans_le later).trans (Nat.lt_succ_self _)
      · rw [List.mem_singleton.mp last]
        exact Nat.lt_succ_self _
    · rw [message, messagePlace_concat_message unplaced]
      rfl
    · rw [opened, message]

/-! ### Fragments -/

theorem mem_accs (h : Noted env m deltas closed places p) {acc : ToolCallAccumulator} :
    acc ∈ p.tools.accs ↔ ∃ place ∈ callPlaces places,
      acc = m.accumulatorAt env.responseId deltas closed place := by
  rw [h.accs, List.mem_map]
  exact exists_congr fun place => and_congr_right fun _ => eq_comm

/-- A call has a place exactly when a delta of it has been seen and it is not special. -/
theorem placed (h : Noted env m deltas closed places p) {index : ℤ} :
    (∃ place ∈ callPlaces places, place.2 = index)
      ↔ index ∈ Responses.opened deltas ∧ (Slot.call index).listed env m = true := by
  have listed : (∃ place ∈ callPlaces places, place.2 = index)
      ↔ Slot.call index ∈ places.map Prod.snd := by
    rw [List.mem_map]
    constructor
    · rintro ⟨place, mem, rfl⟩
      exact ⟨_, mem_callPlaces.mp mem, rfl⟩
    · rintro ⟨⟨output, slot⟩, mem, rfl⟩
      exact ⟨(output, index), mem_callPlaces.mpr mem, rfl⟩
  rw [listed, h.slots, List.mem_filter, mem_opened]

theorem accumulatorAt_concat {index : ℤ} {id name fragment : String} {place : ℕ × ℤ}
    (other : place.2 ≠ index) :
    m.accumulatorAt env.responseId (deltas ++ [.call index id name fragment]) closed place
      = m.accumulatorAt env.responseId deltas closed place := by
  unfold ChatMessage.accumulatorAt
  rw [argumentsAt_concat_call, if_neg (Ne.symm other)]

theorem accumulatorAt_of_callAt {index : ℤ} {call : ChatCall} (found : m.callAt index = some call)
    (output : ℕ) :
    m.accumulatorAt env.responseId deltas closed (output, index)
      = call.accumulator env.responseId (output, index) (argumentsAt index deltas)
          (index ∈ closed) := by
  unfold ChatMessage.accumulatorAt
  rw [found]
  rfl

theorem special_concat (h : Noted env m deltas [] places p) {index : ℤ} {call : ChatCall}
    (found : m.callAt index = some call)
    (ordinary : Pipeline.specialKind env call.name "" = none) (id name fragment : String)
    {index' : ℤ} {call' : ChatCall} (found' : m.callAt index' = some call') :
    p.specialCalls.get? call'.id
      = if index' ∈ Responses.opened (deltas ++ [.call index id name fragment]) ∧ index' ∉ []
          then noteOf env call' (argumentsAt index' (deltas ++ [.call index id name fragment]))
          else none := by
  rw [h.special index' call' found']
  by_cases same : index' = index
  · subst same
    cases found.symm.trans found'
    have nothing : ∀ arguments, noteOf env call arguments = none := fun arguments => by
      unfold noteOf
      rw [ordinary]
      rfl
    simp only [nothing, ite_self]
  · rw [argumentsAt_concat_call, if_neg (Ne.symm same)]
    simp only [mem_opened_concat_of_ne same]

theorem call_first (h : Noted env m deltas [] places p) (made : p.synthesizedItems = [])
    (proper : m.Proper) (deltasOf : DeltasOf m deltas) {index : ℤ} {fragment : String}
    {call : ChatCall} (found : m.callAt index = some call)
    (new : index ∉ Responses.opened deltas)
    (ordinary : Pipeline.specialKind env call.name "" = none) :
    Noted env m (deltas ++ [.call index call.id call.name fragment]) []
      (places ++ [(p.outputIndex, .call index)])
      (p.translateToolCall call.id call.name fragment "" (some index)).1 := by
  have mem := ChatMessage.mem_of_callAt found
  have unplaced : ∀ place ∈ callPlaces places, place.2 ≠ index := fun place inside same =>
    new (h.placed.mp ⟨place, inside, same⟩).1
  have otherId : ∀ acc ∈ p.tools.accs, acc.callId ≠ call.id := by
    intro acc inside same
    obtain ⟨place, listed, rfl⟩ := h.mem_accs.mp inside
    obtain ⟨call', found'⟩ := deltasOf.callAt (h.placed.mp ⟨place, listed, rfl⟩).1
    refine unplaced place listed (ChatMessage.index_unique proper.distinct found' found ?_)
    rw [← same, show place = (place.1, place.2) from rfl, accumulatorAt_of_callAt found']
    rfl
  have elsewhere : ∀ acc ∈ p.tools.accs, acc.sourceIndex ≠ index := by
    intro acc inside
    obtain ⟨place, listed, rfl⟩ := h.mem_accs.mp inside
    exact unplaced place listed
  have first : { firstFragment p call.id call.name fragment "" (some index) with
      itemAdded := true }
      = m.accumulatorAt env.responseId (deltas ++ [.call index call.id call.name fragment]) []
          (p.outputIndex, index) := by
    rw [accumulatorAt_of_callAt found, argumentsAt_concat_call, if_pos rfl,
      argumentsAt_of_new new]
    unfold firstFragment
    rw [ChatCall.absorbName_name (proper.named call mem) fun _ => rfl]
    unfold ToolCallCollection.newAccumulator ChatCall.accumulator
      ToolCallAccumulator.appendArguments
    rw [if_neg (proper.identified call mem), h.owner]
    rfl
  have before := h.below
  have increasing := h.increasing
  rw [made, List.map_nil, List.append_nil] at before increasing
  rw [translateToolCall_of_new (h.filed.get_none otherId elsewhere)]
  have accs : (withFirstFragment p call.id call.name fragment "" (some index)).accs
      = p.tools.accs ++ [m.accumulatorAt env.responseId
          (deltas ++ [.call index call.id call.name fragment]) [] (p.outputIndex, index)] := by
    rw [← first]
    exact extends_withFirstFragment.accs
  have callId : (m.accumulatorAt env.responseId
      (deltas ++ [.call index call.id call.name fragment]) [] (p.outputIndex, index)).callId
        = call.id := by
    rw [accumulatorAt_of_callAt found]
    rfl
  have ids : (withFirstFragment p call.id call.name fragment "" (some index)).byCallId
      = p.tools.byCallId.set call.id p.tools.accs.length := by
    show (if (p.tools.newAccumulator p.outputIndex call.id (some index)).callId = "" then _
      else p.tools.byCallId.set (p.tools.newAccumulator p.outputIndex call.id
        (some index)).callId _) = _
    unfold ToolCallCollection.newAccumulator
    rw [if_neg (proper.identified call mem), if_neg (proper.identified call mem)]
  refine ⟨?_, ?_, ?_, h.owner, ?_, ?_, ?_, h.opened, ?_, fun index' call' found' =>
    h.special_concat found ordinary call.id call.name fragment found', h.handled, h.valid⟩
  · rw [List.map_append, h.slots, slotsOf_concat]
    have unknown : Slot.call index ∉ slotsOf deltas := mt mem_opened.mpr new
    have listed : (Slot.call index).listed env m = true := by
      simp [Slot.listed, found, ordinary]
    simp only [Signal.slot?, if_neg unknown, List.filter_append, List.filter_cons, listed,
      List.map_cons, List.map_nil, List.filter_nil, if_true]
  · show (_ ++ p.synthesizedItems.map Prod.fst).Pairwise _
    rw [made, List.map_nil, List.append_nil, List.map_append]
    refine List.pairwise_append.mpr ⟨increasing, List.pairwise_singleton _ _, ?_⟩
    rintro i inside j last
    obtain rfl := List.mem_singleton.mp last
    exact before i inside
  · show ∀ i ∈ _ ++ p.synthesizedItems.map Prod.fst, i < p.outputIndex + 1
    rw [made, List.map_nil, List.append_nil, List.map_append]
    intro i inside
    rcases List.mem_append.mp inside with old | last
    · exact Nat.lt_succ_of_lt (before i old)
    · rw [List.mem_singleton.mp last]
      exact Nat.lt_succ_self _
  · show (withFirstFragment p call.id call.name fragment "" (some index)).accs = _
    rw [accs, h.accs, callPlaces_concat_call, List.map_append]
    refine congrArg (· ++ _) (List.map_congr_left fun place inside => ?_)
    exact (accumulatorAt_concat (unplaced place inside)).symm
  · refine h.filed.create accs ?_ ?_ ?_ ?_ elsewhere
    · rw [callId]
      exact ids
    · exact rfl
    · rw [callId]
      exact proper.identified call mem
    · rw [callId]
      exact otherId
  · show p.messageItem.map OpenItem.outputIndex = _
    rw [messagePlace_concat_call]
    exact h.message
  · show p.messageText = _
    rw [List.filterMap_append]
    exact h.text.trans (List.append_nil _).symm

theorem call_later (h : Noted env m deltas [] places p) (proper : m.Proper) {index : ℤ}
    {id name fragment : String} {call : ChatCall} (found : m.callAt index = some call)
    (sameId : id = "" ∨ id = call.id) (sameName : name = "" ∨ name = call.name)
    (known : index ∈ Responses.opened deltas)
    (ordinary : Pipeline.specialKind env call.name "" = none) :
    Noted env m (deltas ++ [.call index id name fragment]) [] places
      (p.translateToolCall id name fragment "" (some index)).1 := by
  have named := proper.named call (ChatMessage.mem_of_callAt found)
  obtain ⟨place, listed, rfl⟩ := h.placed.mpr ⟨known, by simp [Slot.listed, found, ordinary]⟩
  have object := @accumulatorAt_of_callAt env m deltas [] place.2 call found place.1
  obtain ⟨ref, held⟩ := List.mem_iff_getElem?.mp (h.mem_accs.mpr ⟨place, listed, rfl⟩)
  have added : (m.accumulatorAt env.responseId deltas [] place).itemAdded = true := rfl
  have own : id = "" ∨ id = (m.accumulatorAt env.responseId deltas [] place).callId := by
    rw [show place = (place.1, place.2) from rfl, object]
    exact sameId
  obtain ⟨tools, accs, filed, owner, same⟩ :=
    translateToolCall_of_filed h.filed held added own name fragment
  have same' : (p.translateToolCall id name fragment "" (some place.2)).1
      = { p with tools := tools, state := .streaming } := same
  rw [same']
  refine ⟨?_, h.increasing, h.below, owner.trans h.owner, ?_, filed, h.message, h.opened, ?_,
    fun index' call' found' => h.special_concat found ordinary id name fragment found', h.handled,
    h.valid⟩
  · rw [h.slots, slotsOf_concat]
    simp only [Signal.slot?, if_pos (mem_opened.mp known)]
  · show tools.accs = _
    rw [accs, h.accs, List.map_map]
    refine List.map_congr_left fun other inside => ?_
    show (if other.2 = place.2 then _ else _) = _
    by_cases here : other.2 = place.2
    · rw [if_pos here]
      obtain ⟨output, source⟩ := other
      obtain rfl : source = place.2 := here
      rw [accumulatorAt_of_callAt found, accumulatorAt_of_callAt found,
        ChatCall.accumulator_fragment named sameId sameName, argumentsAt_concat_call, if_pos rfl]
    · rw [if_neg here]
      exact (accumulatorAt_concat here).symm
  · show p.messageText = _
    rw [List.filterMap_append]
    exact h.text.trans (List.append_nil _).symm

theorem special_step (h : Noted env m deltas [] places p) (proper : m.Proper) {index : ℤ}
    {fragment : String} {call : ChatCall} (found : m.callAt index = some call)
    {kind : SpecialKind} {bare : String}
    (special : Pipeline.specialKind env call.name "" = some (kind, bare)) :
    Noted env m (deltas ++ [.call index call.id call.name fragment]) [] places
      (p.accumulateSpecial call.id kind bare fragment) := by
  have note : ∀ arguments, noteOf env call arguments = some ⟨bare, kind, arguments⟩ :=
    fun arguments => by
      unfold noteOf
      rw [special]
      rfl
  have unlisted : (Slot.call index).listed env m = false := by
    simp [Slot.listed, found, special]
  refine ⟨?_, h.increasing, h.below, h.owner, ?_, h.filed, h.message, h.opened, ?_,
    fun index' call' found' => ?_, h.handled, h.valid⟩
  · rw [h.slots, slotsOf_concat]
    simp only [Signal.slot?]
    split
    · rfl
    · rw [List.filter_append, List.filter_cons, unlisted]
      exact (List.append_nil _).symm
  · show p.tools.accs = _
    rw [h.accs]
    refine List.map_congr_left fun place inside => (accumulatorAt_concat ?_).symm
    rintro rfl
    have listed := (h.placed.mp ⟨place, inside, rfl⟩).2
    rw [unlisted] at listed
    cases listed
  · show p.messageText = _
    rw [List.filterMap_append]
    exact h.text.trans (List.append_nil _).symm
  · show (p.specialCalls.set call.id _).get? call'.id = _
    rw [Dict.get?_set]
    by_cases same : index' = index
    · subst same
      obtain rfl := Option.some.inj (found.symm.trans found')
      have stored : (p.specialCalls.get? call.id).getD ⟨bare, kind, ""⟩
          = ⟨bare, kind, argumentsAt index' deltas⟩ := by
        rw [h.special index' call found]
        by_cases known : index' ∈ Responses.opened deltas
        · rw [if_pos ⟨known, List.not_mem_nil⟩, note, Option.getD_some]
        · rw [if_neg (fun both => known both.1), argumentsAt_of_new known,
            Option.getD_none]
      have now :
          index' ∈ Responses.opened (deltas ++ [.call index' call.id call.name fragment]) := by
        rw [opened_concat_call]
        split
        case isTrue known => exact known
        case isFalse _ => exact List.mem_append_right _ (List.mem_singleton_self _)
      have name : (if bare = "" then bare else bare) = bare := ite_self _
      have grown : argumentsAt index' (deltas ++ [.call index' call.id call.name fragment])
          = argumentsAt index' deltas ++ fragment := by
        rw [argumentsAt_concat_call, if_pos rfl]
      rw [if_pos rfl, stored, grown, note]
      dsimp only
      rw [name]
      exact (if_pos ⟨now, List.not_mem_nil⟩).symm
    · have other : call'.id ≠ call.id := fun equal =>
        same (ChatMessage.index_unique proper.distinct found' found equal)
      rw [if_neg other, h.special index' call' found', argumentsAt_concat_call,
        if_neg (Ne.symm same)]
      simp only [mem_opened_concat_of_ne same]

theorem step (h : Noted env m deltas [] places p) (made : p.synthesizedItems = [])
    (proper : m.Proper) {s : Signal} (of : DeltasOf m (deltas ++ [s]))
    (whole : SentWhole env m (deltas ++ [s])) :
    (p.translateChunk env s.chunk).raised = none
      ∧ (p.translateChunk env s.chunk).pipeline.synthesizedItems = []
      ∧ ∃ places', Noted env m (deltas ++ [s]) [] places'
          (p.translateChunk env s.chunk).pipeline := by
  obtain ⟨before, here, introduced⟩ := of.of_concat
  cases s with
  | reasoning delta => exact here.elim
  | stop => exact here.elim
  | text delta =>
      have ledger := @translateText_ledger env p delta
      exact ⟨rfl, (congrArg (fun ledger => ledger.2.2) ledger).trans made,
        h.text_step made delta⟩
  | call index id name fragment =>
      obtain ⟨call, found, sameId, sameName⟩ := here
      have mem : Signal.call index id name fragment ∈ deltas ++ [.call index id name fragment] :=
        List.mem_append_right _ (List.mem_singleton_self _)
      cases kind : Pipeline.specialKind env call.name "" with
      | some found' =>
          obtain ⟨kind', bare⟩ := found'
          obtain ⟨rfl, rfl⟩ := whole index id name fragment mem call found (by rw [kind]; rfl)
          rw [Signal.chunk, Pipeline.translateChunk_of_special kind]
          exact ⟨rfl, made, places, h.special_step proper found kind⟩
      | none =>
          have plain : Pipeline.specialKind env name "" = none := by
            rcases sameName with rfl | rfl
            · exact specialKind_of_unnamed env
            · exact kind
          rw [Signal.chunk, Pipeline.translateChunk_of_ordinary plain]
          refine ⟨rfl, ?_, ?_⟩
          · show (p.translateToolCall id name fragment "" (some index)).1.synthesizedItems = []
            unfold Pipeline.translateToolCall
            dsimp only
            split
            · exact made
            · split <;> exact made
          · by_cases known : index ∈ Responses.opened deltas
            · exact ⟨places, h.call_later proper found sameId sameName known kind⟩
            · obtain ⟨rfl, rfl⟩ := introduced index id name fragment rfl known call found
              exact ⟨_, h.call_first made proper before found known kind⟩

end Noted

theorem noted_start (env : Env) (m : ChatMessage) :
    Noted env m [] [] [] (startLoop env (.fresh env)).pipeline where
  slots := rfl
  increasing := List.Pairwise.nil
  below := nofun
  owner := rfl
  accs := rfl
  filed := .fresh env.responseId
  message := rfl
  opened := rfl
  text := rfl
  special := fun index call _ => by
    rw [if_neg fun both => List.not_mem_nil both.1]
    rfl
  handled := rfl
  valid := rfl

/-- **All deltas** of a message: no chunk raises, and what is noted is what they said. -/
theorem noted_of_deltas (env : Env) (proper : m.Proper) (of : DeltasOf m deltas)
    (whole : SentWhole env m deltas) :
    ∃ q places, (startLoop env (.fresh env)).pipeline.after env (deltas.map Signal.chunk) = some q
      ∧ q.synthesizedItems = [] ∧ Noted env m deltas [] places q := by
  induction deltas using List.reverseRecOn with
  | nil => exact ⟨_, [], rfl, rfl, noted_start env m⟩
  | append_singleton deltas s ih =>
      obtain ⟨q, places, reached, made, noted⟩ := ih of.of_concat.1
        fun index id name fragment mem => whole index id name fragment (List.mem_append_left _ mem)
      obtain ⟨returned, made', places', next⟩ := noted.step made proper of whole
      refine ⟨_, places', ?_, made', next⟩
      rw [List.map_append]
      exact after_concat reached returned

end Zhongzhuan.Responses
