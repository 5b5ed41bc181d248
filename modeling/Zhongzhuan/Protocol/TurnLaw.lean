import Zhongzhuan.Protocol.TurnBridge
import Zhongzhuan.Protocol.TurnWire

/-!
# The law of a turn, through `ResponsesTurnBridge`

A chunk makes the bridge act several times (`TurnAct`), and each act is one call of a method.
`Tracks` is the invariant between two acts: what the accumulators say about an item is what the
client has seen of it.  Once the terminal event is written, no act writes anything, unless it
opens an item.

An act goes wrong exactly when it is not `Fine`: it opens an item after the terminal event, it
adds text to the message after a tool call closed it, or reasoning to the reasoning item after the
word of a wrapper closed it.
-/

namespace Zhongzhuan.Protocol

open Kit Kit.ItemStream

/-! ## Ids -/

/-- The items of a turn. -/
inductive ItemKind
  | message
  | reasoning
  | tool
deriving DecidableEq

/-- The id of an item. -/
def itemIdOf (responseId : String) : ItemKind → ℕ → String
  | .message => makeMessageItemId responseId
  | .reasoning => makeReasoningItemId responseId
  | .tool => makeFunctionCallItemIdStable responseId

theorem itemIdOf_inj {responseId : String} {kind kind' : ItemKind} {i j : ℕ}
    (same : itemIdOf responseId kind i = itemIdOf responseId kind' j) : kind = kind' ∧ i = j := by
  have chars := congrArg String.toList same
  cases kind <;> cases kind' <;>
    simp [itemIdOf, makeMessageItemId, makeReasoningItemId, makeFunctionCallItemIdStable,
      String.toList_append] at chars
  all_goals exact ⟨rfl, Nat.repr_inj.mp (String.toList_inj.mp (by simpa using chars))⟩

theorem itemIdOf_ne_empty (responseId : String) (kind : ItemKind) (i : ℕ) :
    itemIdOf responseId kind i ≠ "" := by
  intro empty
  have chars := congrArg String.toList empty
  cases kind <;>
    simp [itemIdOf, makeMessageItemId, makeReasoningItemId, makeFunctionCallItemIdStable,
      String.toList_append] at chars

/-! ## What the accumulators say -/

/-- A message is as its accumulator says. -/
structure MessageAt (responseId : String) (msgDone : List ℕ) (e : Emitter)
    (past : List WireEvent) (msg : TextAccumulator) : Prop where
  id : msg.itemId = itemIdOf responseId .message msg.outputIndex
  live : msg.outputIndex ∉ msgDone → msg.itemId ∈ e.openItems
    ∧ said (.str msg.itemId) (past.map WireEvent.act) = msg.text.toList
  closed : msg.outputIndex ∈ msgDone → msg.itemId ∈ e.doneItems

/-- A reasoning item is as its accumulator says. -/
structure ReasoningAt (responseId : String) (e : Emitter) (rea : EphemeralReasoningAccumulator) :
    Prop where
  id : rea.itemId = itemIdOf responseId .reasoning rea.outputIndex
  live : rea.done = false → rea.itemId ∈ e.openItems
  closed : rea.done = true → rea.itemId ∈ e.doneItems

/-- A tool call is as its accumulator says. -/
structure ToolAt (responseId : String) (toolDone : List ℕ) (e : Emitter)
    (acc : ToolCallAccumulator) : Prop where
  id : acc.itemId = itemIdOf responseId .tool acc.outputIndex
  live : acc.outputIndex ∉ toolDone → acc.itemId ∈ e.openItems

section Kept

variable {responseId : String} {msgDone toolDone : List ℕ} {e e' : Emitter}
  {past past' : List WireEvent}

theorem MessageAt.kept {msg : TextAccumulator} (at_ : MessageAt responseId msgDone e past msg)
    (kept : Kept e past e' past' msg.itemId) : MessageAt responseId msgDone e' past' msg where
  id := at_.id
  live going := ⟨kept.opens (at_.live going).1, kept.said.trans (at_.live going).2⟩
  closed ended := kept.dones (at_.closed ended)

theorem ReasoningAt.kept {rea : EphemeralReasoningAccumulator} (at_ : ReasoningAt responseId e rea)
    (kept : Kept e past e' past' rea.itemId) : ReasoningAt responseId e' rea where
  id := at_.id
  live going := kept.opens (at_.live going)
  closed ended := kept.dones (at_.closed ended)

theorem ToolAt.kept {acc : ToolCallAccumulator} (at_ : ToolAt responseId toolDone e acc)
    (kept : Kept e past e' past' acc.itemId) : ToolAt responseId toolDone e' acc where
  id := at_.id
  live going := kept.opens (at_.live going)

theorem ToolAt.same {acc acc' : ToolCallAccumulator} (at_ : ToolAt responseId toolDone e acc)
    (same : acc'.itemId = acc.itemId ∧ acc'.outputIndex = acc.outputIndex) :
    ToolAt responseId toolDone e acc' where
  id := by rw [same.1, same.2, at_.id]
  live := by rw [same.1, same.2]; exact at_.live

theorem ToolAt.toolItemId_eq {acc : ToolCallAccumulator}
    (at_ : ToolAt responseId toolDone e acc) : TurnBridge.toolItemId acc = acc.itemId := by
  refine if_neg fun empty => ?_
  rw [at_.id] at empty
  exact itemIdOf_ne_empty _ _ _ empty

end Kept

namespace TurnBridge

/-- The items are as the accumulators say. -/
structure Items (s : TurnBridge) (past : List WireEvent) : Prop where
  one : s.acc.messages.length ≤ 1
  message : ∀ msg ∈ s.acc.messages,
    MessageAt s.acc.responseId s.msgDone s.emitter past msg
  reasoning : ∀ rea ∈ s.acc.reasoning, ReasoningAt s.acc.responseId s.emitter rea
  tool : ∀ acc ∈ s.acc.tools.accs, ToolAt s.acc.responseId s.toolDone s.emitter acc
  msgDone_lt : ∀ i ∈ s.msgDone, i < s.acc.nextIndex
  toolDone_lt : ∀ i ∈ s.toolDone, i < s.acc.nextIndex

/-- A bridge between two calls and what it has written. -/
structure Tracks (s : TurnBridge) (past : List WireEvent) : Prop where
  wire : Wire s.emitter past
  ended : s.emitter.completedEmitted = true → .ends ∈ past.map WireEvent.act
  unfinished : s.finished = false
  begun : s.started = true ↔ s.emitter.state ≠ .init
  owner : s.acc.tools.responseId = s.acc.responseId
  known : ∀ id, id ∈ s.emitter.openItems ∨ id ∈ s.emitter.doneItems →
    ∃ kind, ∃ i < s.acc.nextIndex, id = itemIdOf s.acc.responseId kind i
  items : s.emitter.completedEmitted = false → Items s past

variable {s : TurnBridge} {past : List WireEvent}

theorem Tracks.fresh (tracks : Tracks s past) (kind : ItemKind) :
    itemIdOf s.acc.responseId kind s.acc.nextIndex ∉ s.emitter.openItems
      ∧ itemIdOf s.acc.responseId kind s.acc.nextIndex ∉ s.emitter.doneItems := by
  rw [← not_or]
  intro here
  obtain ⟨kind', i, low, same⟩ := tracks.known _ here
  exact absurd (itemIdOf_inj same).2 (Nat.ne_of_gt low)

theorem Tracks.going_iff (tracks : Tracks s past) :
    Going s ↔ s.emitter.completedEmitted = false := by
  unfold Going
  constructor
  · intro running
    by_contra ended
    exact running (tracks.wire.sound.ended (by simpa using ended)).1
  · intro going
    rcases (tracks.wire.sound.going going).2 with init | active
    · rw [init]
      decide
    · exact (by decide : ∀ state ∈ EmitterState.active, state ∉ EmitterState.terminal) _ active

theorem Tracks.begun_emitter (tracks : Tracks s past) (started : s.started = true)
    (going : s.emitter.completedEmitted = false) : Begun s.emitter :=
  ⟨going, tracks.begun.mp started⟩

/-! ## After the end -/

/-- A call that writes nothing and changes nothing that counts. -/
structure Still (s s' : TurnBridge) : Prop where
  emitter : ∃ refused, s'.emitter = { s.emitter with illegal := refused }
  finished : s'.finished = s.finished
  started : s'.started = s.started
  nextIndex : s'.acc.nextIndex = s.acc.nextIndex
  responseId : s'.acc.responseId = s.acc.responseId
  owner : s'.acc.tools.responseId = s.acc.tools.responseId

theorem Still.refl (s : TurnBridge) : Still s s := ⟨⟨_, rfl⟩, rfl, rfl, rfl, rfl, rfl⟩

theorem Still.trans {s' s'' : TurnBridge} (first : Still s s') (second : Still s' s'') :
    Still s s'' := by
  obtain ⟨refused, same⟩ := first.emitter
  obtain ⟨refused', same'⟩ := second.emitter
  exact ⟨⟨refused', by rw [same', same]⟩, second.finished.trans first.finished,
    second.started.trans first.started, second.nextIndex.trans first.nextIndex,
    second.responseId.trans first.responseId, second.owner.trans first.owner⟩

theorem Tracks.still (tracks : Tracks s past) (ended : s.emitter.completedEmitted = true)
    {s' : TurnBridge} (still : Still s s') : Tracks s' past := by
  obtain ⟨refused, same⟩ := still.emitter
  refine ⟨?_, ?_, ?_, ?_, ?_, ?_, ?_⟩
  · rw [same]
    exact ⟨⟨tracks.wire.sound.ledger.congr _ rfl rfl rfl rfl, tracks.wire.sound.created,
      tracks.wire.sound.going, tracks.wire.sound.ended⟩, tracks.wire.lawful⟩
  · exact fun _ => tracks.ended ended
  · rw [still.finished, tracks.unfinished]
  · rw [still.started, same]
    exact tracks.begun
  · rw [still.owner, still.responseId, tracks.owner]
  · rw [same, still.nextIndex, still.responseId]
    exact tracks.known
  · intro going
    rw [same] at going
    exact absurd (going.symm.trans ended) (by decide)

/-- A method that does nothing that counts after the end. -/
def Mute (f : TurnBridge → TurnBridge × List WireEvent) : Prop :=
  ∀ s past, Tracks s past → s.emitter.completedEmitted = true → (f s).2 = [] ∧ Still s (f s).1

theorem Mute.andThen {f g : TurnBridge → TurnBridge × List WireEvent} (first : Mute f)
    (second : Mute g) : Mute (TurnBridge.andThen f g) := by
  intro s past tracks ended
  obtain ⟨silent, still⟩ := first s past tracks ended
  obtain ⟨refused, same⟩ := still.emitter
  obtain ⟨silent', still'⟩ := second (f s).1 past (tracks.still ended still)
    (by rw [same]; exact ended)
  exact ⟨by rw [TurnBridge.andThen, silent, silent']; rfl, still.trans still'⟩

theorem Mute.callIf {f : TurnBridge → TurnBridge × List WireEvent} (p : Bool) (mute : Mute f) :
    Mute (TurnBridge.callIf p f) := by
  intro s past tracks ended
  unfold TurnBridge.callIf
  split
  case isTrue _ => exact mute s past tracks ended
  case isFalse _ => exact ⟨rfl, .refl s⟩

theorem Mute.after {f : TurnBridge → TurnBridge × List WireEvent} (mute : Mute f)
    (tracks : Tracks s past) (ended : s.emitter.completedEmitted = true) {s' : TurnBridge}
    (still : Still s s') : (f s').2 = [] ∧ Still s (f s').1 := by
  obtain ⟨refused, same⟩ := still.emitter
  obtain ⟨silent, still'⟩ := mute s' past (tracks.still ended still) (by rw [same]; exact ended)
  exact ⟨silent, still.trans still'⟩

theorem Mute.call {f : Emitter → Emitter × List WireEvent}
    (refuses : ∀ s past, Tracks s past → s.emitter.completedEmitted = true →
      ∃ refused, f s.emitter = ({ s.emitter with illegal := refused }, [])) :
    Mute (TurnBridge.call f) := by
  intro s past tracks ended
  obtain ⟨refused, same⟩ := refuses s past tracks ended
  have shape : TurnBridge.call f s
      = ({ s with emitter := { s.emitter with illegal := refused } }, []) := by
    rw [TurnBridge.call, same]
  rw [shape]
  exact ⟨rfl, ⟨_, rfl⟩, rfl, rfl, rfl, rfl, rfl⟩

theorem mute_delta (event : String) (data : Fields) :
    Mute (TurnBridge.call (·.delta event data)) := by
  refine .call fun s past tracks ended => ?_
  obtain ⟨label, refused⟩ := delta_ended (tracks.wire.sound.ended ended).1 event data
  exact ⟨_, refused⟩

theorem mute_closeItem (item : OutputItem) (status : String) :
    Mute (TurnBridge.call (·.closeItem item status)) := by
  refine .call fun s past tracks ended => ?_
  have none : item.id ∉ s.emitter.openItems := by
    rw [(tracks.wire.sound.ended ended).2]
    exact List.not_mem_nil
  rcases closeItem_of_not_open none status with same | ⟨label, refused⟩
  · exact ⟨_, same⟩
  · exact ⟨_, refused⟩

/-! ## In the middle of a response -/

theorem Tracks.advance (tracks : Tracks s past) {s' : TurnBridge} {out : List WireEvent}
    {acts : List (Act Json Char)} {opens dones : List String}
    (sent : Sent past (s'.emitter, out) acts opens dones) (finished : s'.finished = s.finished)
    (started : s'.started = true) (owner : s'.acc.tools.responseId = s'.acc.responseId)
    (known : ∀ id, id ∈ opens ∨ id ∈ dones →
      ∃ kind, ∃ i < s'.acc.nextIndex, id = itemIdOf s'.acc.responseId kind i)
    (items : Items s' (past ++ out)) : Tracks s' (past ++ out) where
  wire := sent.wire
  ended ended := absurd (sent.begun.going.symm.trans ended) (by decide)
  unfinished := finished.trans tracks.unfinished
  begun := ⟨fun _ => sent.begun.state, fun _ => started⟩
  owner := owner
  known := by
    rw [← sent.openItems, ← sent.doneItems] at known
    exact known
  items _ := items

/-- A method that was called in the middle of a response and did not end it. -/
structure Goes (s : TurnBridge) (past : List WireEvent) (out : TurnBridge × List WireEvent) :
    Prop where
  tracks : Tracks out.1 (past ++ out.2)
  started : out.1.started = true
  going : out.1.emitter.completedEmitted = false
  toolDone : out.1.toolDone = s.toolDone

theorem Goes.refl (tracks : Tracks s past) (started : s.started = true)
    (going : s.emitter.completedEmitted = false) : Goes s past (s, []) :=
  ⟨by simpa using tracks, started, going, rfl⟩

theorem Goes.after {s' : TurnBridge} {out : TurnBridge × List WireEvent} (goes : Goes s' past out)
    (same : s'.toolDone = s.toolDone) : Goes s past out :=
  ⟨goes.tracks, goes.started, goes.going, goes.toolDone.trans same⟩

theorem Goes.andThen {f g : TurnBridge → TurnBridge × List WireEvent} (first : Goes s past (f s))
    (second : Goes (f s).1 (past ++ (f s).2) (g (f s).1)) :
    Goes s past (TurnBridge.andThen f g s) where
  tracks := by
    have tracks := second.tracks
    rwa [List.append_assoc] at tracks
  started := second.started
  going := second.going
  toolDone := second.toolDone.trans first.toolDone

theorem Tracks.known_succ (tracks : Tracks s past) (kind : ItemKind) (id : String)
    (here : id ∈ s.emitter.openItems ++ [itemIdOf s.acc.responseId kind s.acc.nextIndex]
      ∨ id ∈ s.emitter.doneItems) :
    ∃ kind, ∃ i < s.acc.nextIndex + 1, id = itemIdOf s.acc.responseId kind i := by
  have old : ∀ id, id ∈ s.emitter.openItems ∨ id ∈ s.emitter.doneItems →
      ∃ kind, ∃ i < s.acc.nextIndex + 1, id = itemIdOf s.acc.responseId kind i := by
    intro id before
    obtain ⟨kind, i, low, same⟩ := tracks.known id before
    exact ⟨kind, i, Nat.lt_succ_of_lt low, same⟩
  rcases here with mem | mem
  · rcases List.mem_append.mp mem with before | now
    · exact old id (.inl before)
    · exact ⟨kind, s.acc.nextIndex, Nat.lt_succ_self _, List.mem_singleton.mp now⟩
  · exact old id (.inr mem)

theorem Tracks.known_close (tracks : Tracks s past) {closed : String}
    (isOpen : closed ∈ s.emitter.openItems) (id : String)
    (here : id ∈ s.emitter.openItems.filter (· ≠ closed)
      ∨ id ∈ s.emitter.doneItems ++ [closed]) :
    ∃ kind, ∃ i < s.acc.nextIndex, id = itemIdOf s.acc.responseId kind i := by
  refine tracks.known id ?_
  rcases here with mem | mem
  · exact .inl (List.mem_of_mem_filter mem)
  · rcases List.mem_append.mp mem with old | now
    · exact .inr old
    · rw [List.mem_singleton.mp now]
      exact .inl isOpen

theorem id_ne {responseId id id' : String} {kind kind' : ItemKind} {i j : ℕ}
    (is : id = itemIdOf responseId kind i) (is' : id' = itemIdOf responseId kind' j)
    (other : kind' ≠ kind ∨ j ≠ i) : id' ≠ id := by
  intro same
  obtain ⟨rfl, rfl⟩ := itemIdOf_inj (is'.symm.trans (same.trans is))
  exact other.elim (fun ne => ne rfl) fun ne => ne rfl

/-! ### Reasoning -/

/-- The names of the events about reasoning. -/
def reasoningNames : List String :=
  ["response.reasoning_text.delta", "response.reasoning_text.done",
    "response.reasoning_summary_text.delta", "response.reasoning_summary_text.done",
    "response.reasoning_text_part.added", "response.reasoning_text_part.done",
    "response.reasoning_summary_part.added", "response.reasoning_summary_part.done"]

theorem reasoningNames_plain : ∀ name ∈ reasoningNames, name ∉ lifecycleEvents
    ∧ name ≠ "response.output_text.delta" ∧ name ≠ "response.output_text.done" := by
  decide

theorem reasoningEvent_mem (mode : String) {suffix : String}
    (known : suffix = ".delta" ∨ suffix = ".done") :
    "response." ++ (reasoningEvent mode ++ suffix) ∈ reasoningNames := by
  unfold reasoningEvent
  split
  case isTrue _ => rcases known with rfl | rfl <;> decide
  case isFalse _ => rcases known with rfl | rfl <;> decide

theorem reasoningPartEvent_mem (mode : String) {suffix : String}
    (known : suffix = ".added" ∨ suffix = ".done") :
    "response." ++ (reasoningPartEvent mode ++ suffix) ∈ reasoningNames := by
  unfold reasoningPartEvent
  split
  case isTrue _ => rcases known with rfl | rfl <;> decide
  case isFalse _ => rcases known with rfl | rfl <;> decide

variable (env : TurnEnv)

theorem goes_openReasoning (tracks : Tracks s past) (started : s.started = true)
    (going : s.emitter.completedEmitted = false) : Goes s past (openReasoning env s) := by
  unfold openReasoning
  split
  case isTrue _ => exact .refl tracks started going
  case isFalse _ =>
    dsimp only
    set rea : EphemeralReasoningAccumulator :=
      ⟨s.acc.nextIndex, makeReasoningItemId s.acc.responseId s.acc.nextIndex, "", false⟩
    obtain ⟨notOpen, notDone⟩ := tracks.fresh .reasoning
    have items := tracks.items going
    have opened := tracks.wire.openItem (tracks.begun_emitter started going)
      (reasoningItem rea []) notOpen notDone rfl
    have isOpen : rea.itemId ∈ (s.emitter.openItem (reasoningItem rea [])).1.openItems :=
      opened.mem_opens (by simp [reasoningItem])
    have names := reasoningNames_plain _ (reasoningPartEvent_mem env.mode (.inl rfl))
    have sent := opened.step (opened.wire.uses opened.begun isOpen _ names.1 names.2
      (itemFields rea.itemId rea.outputIndex
        ++ [("summary_index", .int 0), ("part", summaryPart "")]) rfl)
    have kept : ∀ id, Kept s.emitter past _ _ id := fun id =>
      sent.kept (e := s.emitter) (List.mem_append_left _) (fun here => here) rfl
    refine ⟨tracks.advance sent rfl started tracks.owner (tracks.known_succ .reasoning) ?_,
      started, sent.begun.going, rfl⟩
    refine ⟨items.one, fun msg mem => (items.message msg mem).kept (kept _), ?_,
      fun acc mem => (items.tool acc mem).kept (kept _),
      fun i mem => Nat.lt_succ_of_lt (items.msgDone_lt i mem),
      fun i mem => Nat.lt_succ_of_lt (items.toolDone_lt i mem)⟩
    intro rea' is
    obtain rfl : rea = rea' := Option.some.inj is
    exact ⟨rfl, fun _ => sent.mem_opens (by simp [reasoningItem]), fun ended => by cases ended⟩

theorem goes_emitReasoningDelta (tracks : Tracks s past) (started : s.started = true)
    (going : s.emitter.completedEmitted = false) (text : String)
    (fine : reasoningEnabled env = true → text ≠ "" →
      ∀ rea ∈ s.acc.reasoning, rea.done = false) :
    Goes s past (emitReasoningDelta env text s) := by
  unfold emitReasoningDelta
  split
  case isTrue _ => exact .refl tracks started going
  case isFalse enabled =>
    split
    case h_1 _ => exact .refl tracks started going
    case h_2 rea is =>
      split
      case isTrue _ => exact .refl tracks started going
      case isFalse nonempty =>
        have items := tracks.items going
        have at_ := items.reasoning rea is
        have unfinished := fine (by simpa using enabled) nonempty rea is
        have names := reasoningNames_plain _ (reasoningEvent_mem env.mode (.inl rfl))
        have sent := tracks.wire.uses (tracks.begun_emitter started going)
          (at_.live unfinished) _ names.1 names.2
          (itemFields rea.itemId rea.outputIndex
            ++ [("summary_index", .int 0), ("delta", .str text)]) rfl
        have kept : ∀ id, Kept s.emitter past _ _ id := fun id =>
          sent.kept (e := s.emitter) (fun here => here) (fun here => here) rfl
        refine ⟨tracks.advance sent rfl started tracks.owner tracks.known ?_, started,
          sent.begun.going, rfl⟩
        refine ⟨items.one, fun msg mem => (items.message msg mem).kept (kept _), ?_,
          fun acc mem => (items.tool acc mem).kept (kept _), items.msgDone_lt,
          items.toolDone_lt⟩
        intro rea' is'
        obtain rfl := Option.some.inj is'
        have at' := at_.kept (kept _)
        exact ⟨at'.id, at'.live, at'.closed⟩

theorem goes_closeReasoning (tracks : Tracks s past) (started : s.started = true)
    (going : s.emitter.completedEmitted = false) (status : String) :
    Goes s past (closeReasoning env status s) := by
  unfold closeReasoning
  split
  case isTrue _ => exact .refl tracks started going
  case isFalse enabled =>
    split
    case h_1 _ => exact .refl tracks started going
    case h_2 rea is =>
      split
      case isTrue _ => exact .refl tracks started going
      case isFalse unfinished =>
        have items := tracks.items going
        have at_ := items.reasoning rea is
        have isOpen := at_.live (by simpa using unfinished)
        have names := reasoningNames_plain _ (reasoningEvent_mem env.mode (.inr rfl))
        have partNames := reasoningNames_plain _ (reasoningPartEvent_mem env.mode (.inr rfl))
        have said := tracks.wire.uses (tracks.begun_emitter started going) isOpen _
          names.1 names.2
          (itemFields rea.itemId rea.outputIndex
            ++ [("summary_index", .int 0), ("text", .str rea.text)]) rfl
        have part := said.wire.uses said.begun (said.mem_opens isOpen) _ partNames.1 partNames.2
          (itemFields rea.itemId rea.outputIndex
            ++ [("summary_index", .int 0), ("part", summaryPart rea.text)]) rfl
        have closed := part.wire.closeItem part.begun
          (reasoningItem rea [("summary", .arr [summaryPart rea.text])])
          (part.mem_opens (said.mem_opens isOpen)) rfl status
        rw [part.openItems, part.doneItems, said.openItems, said.doneItems] at closed
        have sent := said.trans (part.trans closed)
        have kept : ∀ {id kind i}, id = itemIdOf s.acc.responseId kind i → kind ≠ .reasoning →
            Kept s.emitter past _ _ id := fun is other =>
          sent.kept_close (e := s.emitter) (id_ne at_.id is (.inl other)) rfl
        refine ⟨tracks.advance sent rfl started tracks.owner (tracks.known_close isOpen) ?_,
          started, sent.begun.going, rfl⟩
        refine ⟨items.one,
          fun msg mem => (items.message msg mem).kept
            (kept (items.message msg mem).id (by decide)), ?_,
          fun acc mem => (items.tool acc mem).kept (kept (items.tool acc mem).id (by decide)),
          items.msgDone_lt, items.toolDone_lt⟩
        intro rea' is'
        obtain rfl := Option.some.inj is'
        exact ⟨at_.id, fun going => by simp at going,
          fun _ => sent.mem_dones (List.mem_append_right _ (List.mem_singleton_self _))⟩

/-! ### Messages -/

theorem messages_eq_of_getLast? {messages : List TextAccumulator} (one : messages.length ≤ 1)
    {msg : TextAccumulator} (last : messages.getLast? = some msg) : messages = [msg] := by
  cases messages with
  | nil => cases last
  | cons first rest =>
      obtain rfl : rest = [] := List.eq_nil_of_length_eq_zero (by simpa using one)
      exact congrArg (fun msg => [msg]) (Option.some.inj last)

theorem goes_openMessage (tracks : Tracks s past) (started : s.started = true)
    (going : s.emitter.completedEmitted = false) (none : s.acc.messages = []) :
    Goes s past (openMessage s.newMessage.2 s.newMessage.1) := by
  unfold openMessage
  set msg := s.newMessage.2
  obtain ⟨notOpen, notDone⟩ := tracks.fresh .message
  have items := tracks.items going
  have opened := tracks.wire.openItem (tracks.begun_emitter started going)
    (messageItem msg []) notOpen notDone rfl
  have isOpen : msg.itemId ∈ (s.emitter.openItem (messageItem msg [])).1.openItems :=
    opened.mem_opens (by simp [messageItem])
  have sent := opened.step (opened.wire.uses opened.begun isOpen
    "response.content_part.added" (by decide) (by decide)
    (itemFields msg.itemId msg.outputIndex
      ++ [("content_index", .int 0), ("part", textPart "")]) rfl)
  have kept : ∀ id, Kept s.emitter past _ _ id := fun id =>
    sent.kept (e := s.emitter) (List.mem_append_left _) (fun here => here) rfl
  have messages : s.newMessage.1.acc.messages = [msg] := by
    show s.acc.messages ++ [msg] = [msg]
    rw [none, List.nil_append]
  refine ⟨tracks.advance sent rfl started tracks.owner (tracks.known_succ .message) ?_,
    started, sent.begun.going, rfl⟩
  refine ⟨messages.symm ▸ le_rfl, ?_,
    fun rea is => (items.reasoning rea is).kept (kept _),
    fun acc mem => (items.tool acc mem).kept (kept _),
    fun i mem => Nat.lt_succ_of_lt (items.msgDone_lt i mem),
    fun i mem => Nat.lt_succ_of_lt (items.toolDone_lt i mem)⟩
  intro msg' mem
  obtain rfl : msg' = msg := List.mem_singleton.mp (by rw [← messages]; exact mem)
  refine ⟨rfl, fun _ => ⟨sent.mem_opens (by simp [messageItem]), ?_⟩, fun ended => ?_⟩
  · refine (kept msg.itemId).said.trans (tracks.wire.lawful.said_eq_nil ?_)
    rw [tracks.wire.opened]
    exact not_or.mpr ⟨notOpen, notDone⟩
  · exact absurd (items.msgDone_lt _ ended) (Nat.lt_irrefl _)

theorem goes_appendText (tracks : Tracks s past) (started : s.started = true)
    (going : s.emitter.completedEmitted = false) {msg : TextAccumulator}
    (only : s.acc.messages = [msg]) (isOpen : msg.outputIndex ∉ s.msgDone) (text : String) :
    Goes s past (emitOutputTextDelta msg text (s.appendText text)) := by
  unfold emitOutputTextDelta
  have items := tracks.items going
  have at_ := items.message msg (by rw [only]; exact List.mem_singleton_self _)
  have sent := tracks.wire.adds (tracks.begun_emitter started going) (at_.live isOpen).1
    (itemFields msg.itemId msg.outputIndex
      ++ [("content_index", .int 0), ("delta", .str text), ("logprobs", .arr [])]) rfl
  have kept : ∀ {id kind i}, id = itemIdOf s.acc.responseId kind i → kind ≠ .message →
      Kept s.emitter past _ _ id := fun is other =>
    sent.kept (e := s.emitter) (fun here => here) (fun here => here)
      (said_adds_of_ne (fun same => id_ne at_.id is (.inl other) (Json.str.inj same).symm) _)
  have messages : (s.appendText text).acc.messages
      = [{ msg with text := msg.text ++ text }] := by
    show s.acc.messages.modifyLast _ = _
    rw [only]
    rfl
  refine ⟨tracks.advance sent rfl started tracks.owner tracks.known ?_, started,
    sent.begun.going, rfl⟩
  refine ⟨messages.symm ▸ le_rfl, ?_,
    fun rea is => (items.reasoning rea is).kept (kept (items.reasoning rea is).id (by decide)),
    fun acc mem => (items.tool acc mem).kept (kept (items.tool acc mem).id (by decide)),
    items.msgDone_lt, items.toolDone_lt⟩
  intro msg' mem
  obtain rfl : msg' = { msg with text := msg.text ++ text } :=
    List.mem_singleton.mp (by rw [← messages]; exact mem)
  refine ⟨at_.id, fun _ => ⟨sent.mem_opens (at_.live isOpen).1, ?_⟩,
    fun closed => absurd closed isOpen⟩
  refine (sent.said _).trans ?_
  rw [(at_.live isOpen).2, said_adds_self]
  exact String.toList_append.symm

theorem goes_emitText (tracks : Tracks s past) (started : s.started = true)
    (going : s.emitter.completedEmitted = false) (text : String)
    (fine : ∀ msg, s.acc.messages.getLast? = some msg → msg.outputIndex ∉ s.msgDone) :
    Goes s past (emitText text s) := by
  have items := tracks.items going
  unfold emitText
  split
  case h_1 msg last =>
    exact goes_appendText tracks started going (messages_eq_of_getLast? items.one last)
      (fine msg last) text
  case h_2 last =>
    have none : s.acc.messages = [] := List.getLast?_eq_none_iff.mp last
    have opened := goes_openMessage tracks started going none
    refine (Goes.andThen (f := fun s' => openMessage s.newMessage.2 s'.newMessage.1)
      (g := fun s' => emitOutputTextDelta s.newMessage.2 text (s'.appendText text)) opened ?_)
    refine goes_appendText opened.tracks opened.started opened.going ?_ ?_ text
    · show s.acc.messages ++ [s.newMessage.2] = [s.newMessage.2]
      rw [none, List.nil_append]
    · exact fun closed => absurd (items.msgDone_lt _ closed) (Nat.lt_irrefl _)

theorem goes_closeMessage (tracks : Tracks s past) (started : s.started = true)
    (going : s.emitter.completedEmitted = false) (status : String) {msg : TextAccumulator}
    (mem : msg ∈ s.acc.messages) : Goes s past (closeMessage status msg s) := by
  unfold closeMessage
  split
  case isTrue _ => exact .refl tracks started going
  case isFalse unfinished =>
    have items := tracks.items going
    have at_ := items.message msg mem
    obtain ⟨isOpen, whole⟩ := at_.live unfinished
    have recap := tracks.wire.recaps (tracks.begun_emitter started going) isOpen
      (itemFields msg.itemId msg.outputIndex
        ++ [("content_index", Json.int 0), ("text", Json.str msg.text), ("logprobs", Json.arr [])])
      rfl whole.symm
    have part := recap.wire.uses recap.begun (recap.mem_opens isOpen)
      "response.content_part.done" (by decide) (by decide)
      (itemFields msg.itemId msg.outputIndex
        ++ [("content_index", .int 0), ("part", textPart msg.text)]) rfl
    have closed := part.wire.closeItem part.begun
      (messageItem msg [("content", .arr [textPart msg.text])])
      (part.mem_opens (recap.mem_opens isOpen)) rfl status
    rw [part.openItems, part.doneItems, recap.openItems, recap.doneItems] at closed
    have sent := recap.trans (part.trans closed)
    have kept : ∀ {id kind i}, id = itemIdOf s.acc.responseId kind i →
        kind ≠ .message ∨ i ≠ msg.outputIndex → Kept s.emitter past _ _ id := fun is other =>
      sent.kept_close (e := s.emitter) (id_ne at_.id is other) rfl
    refine ⟨tracks.advance sent rfl started tracks.owner (tracks.known_close isOpen) ?_,
      started, sent.begun.going, rfl⟩
    refine ⟨items.one, ?_,
      fun rea is => (items.reasoning rea is).kept
        (kept (items.reasoning rea is).id (.inl (by decide))),
      fun acc mem => (items.tool acc mem).kept (kept (items.tool acc mem).id (.inl (by decide))),
      ?_, items.toolDone_lt⟩
    · intro msg' mem'
      have at' := items.message msg' mem'
      by_cases same : msg'.outputIndex = msg.outputIndex
      · have id : msg'.itemId = msg.itemId := by rw [at'.id, at_.id, same]
        refine ⟨at'.id, fun open_ => absurd ?_ open_, fun _ => ?_⟩
        · exact List.mem_append_right _ (by rw [same]; exact List.mem_singleton_self _)
        · rw [id]
          exact sent.mem_dones (List.mem_append_right _ (List.mem_singleton_self _))
      · have stays := at'.kept (kept at'.id (.inr same))
        refine ⟨at'.id, fun open_ => stays.live fun before => open_ ?_, fun ended => ?_⟩
        · exact List.mem_append_left _ before
        · refine stays.closed ((List.mem_append.mp ended).resolve_right fun now => ?_)
          exact same (List.mem_singleton.mp now)
    · intro i here
      rcases List.mem_append.mp here with before | now
      · exact items.msgDone_lt i before
      · obtain ⟨kind, j, low, same⟩ := tracks.known msg.itemId (.inl isOpen)
        rw [at_.id] at same
        rw [List.mem_singleton.mp now, (itemIdOf_inj same).2]
        exact low

theorem goes_closeCurrentMessage (tracks : Tracks s past) (started : s.started = true)
    (going : s.emitter.completedEmitted = false) : Goes s past (closeCurrentMessage s) := by
  unfold closeCurrentMessage
  split
  case h_1 _ => exact .refl tracks started going
  case h_2 msg last =>
    exact goes_closeMessage tracks started going "completed" (List.mem_of_getLast? last)

/-! ### Tool calls -/

/-- A change that leaves the identity of a tool call. -/
def SameCall (f : ToolCallAccumulator → ToolCallAccumulator) : Prop :=
  ∀ acc, (f acc).itemId = acc.itemId ∧ (f acc).outputIndex = acc.outputIndex

theorem sameCall_replaceName (acc : ToolCallAccumulator) (name : String) :
    (acc.replaceName name).itemId = acc.itemId
      ∧ (acc.replaceName name).outputIndex = acc.outputIndex := by
  unfold ToolCallAccumulator.replaceName
  split <;> exact ⟨rfl, rfl⟩

theorem sameCall_nameNew (tool : TurnTool) : SameCall (nameNew tool) := by
  intro acc
  unfold nameNew
  dsimp only
  split
  case isTrue _ => exact sameCall_replaceName _ _
  case isFalse _ => exact sameCall_replaceName acc _

theorem sameCall_nameKnown (tool : TurnTool) : SameCall (nameKnown tool) := by
  intro acc
  have bound : ∀ acc : ToolCallAccumulator, (acc.bindCallId tool.callId).itemId = acc.itemId
      ∧ (acc.bindCallId tool.callId).outputIndex = acc.outputIndex := by
    intro acc
    unfold ToolCallAccumulator.bindCallId
    split <;> exact ⟨rfl, rfl⟩
  unfold nameKnown
  dsimp only
  rw [(bound _).1, (bound _).2]
  split
  case isTrue _ => exact sameCall_replaceName _ _
  case isFalse _ => exact sameCall_replaceName acc _

theorem mem_modify {accs : List ToolCallAccumulator} {ref : ℕ}
    {f : ToolCallAccumulator → ToolCallAccumulator} {acc : ToolCallAccumulator}
    (mem : acc ∈ accs.modify ref f) : ∃ old ∈ accs, acc = old ∨ acc = f old := by
  obtain ⟨i, found⟩ := List.mem_iff_getElem?.mp mem
  rw [List.getElem?_modify] at found
  obtain ⟨old, held, rfl⟩ := Option.map_eq_some_iff.mp found
  refine ⟨old, List.mem_of_getElem? held, ?_⟩
  split
  case isTrue _ => exact .inr rfl
  case isFalse _ => exact .inl rfl

theorem Tracks.modifyTool (tracks : Tracks s past) (ref : ℕ)
    {f : ToolCallAccumulator → ToolCallAccumulator} (same : SameCall f) :
    Tracks (s.modifyTool ref f) past := by
  refine ⟨tracks.wire, tracks.ended, tracks.unfinished, tracks.begun, tracks.owner, tracks.known,
    fun going => ?_⟩
  have items := tracks.items going
  refine ⟨items.one, items.message, items.reasoning, ?_, items.msgDone_lt, items.toolDone_lt⟩
  intro acc mem
  obtain ⟨old, held, is⟩ := mem_modify mem
  have at_ := items.tool old held
  rcases is with rfl | rfl
  · exact at_
  · exact at_.same (same old)

theorem withTool_of_get {ref : ℕ} {acc : ToolCallAccumulator}
    (found : s.acc.tools.accs[ref]? = some acc)
    {f : ToolCallAccumulator → TurnBridge → TurnBridge × List WireEvent} :
    withTool ref f s = f acc s := by
  unfold withTool
  rw [found]

theorem extra_toolItem (acc : ToolCallAccumulator) {extra : Fields}
    (own : extra.get "id" = none) : (toolItem acc extra).extra.get "id" = none := by
  unfold toolItem Emitter.textField Fields.get
  dsimp only
  rw [List.lookup_append]
  unfold Fields.get at own
  rw [own]
  split <;> rfl

theorem goes_toolArgs (tracks : Tracks s past) (started : s.started = true)
    (going : s.emitter.completedEmitted = false) (none : s.toolDone = []) (ref : ℕ)
    (arguments : String) :
    Goes s past (withTool ref (fun acc => emitToolArgsDelta acc arguments) s) := by
  unfold withTool
  split
  case h_2 _ => exact .refl tracks started going
  case h_1 acc found =>
    have items := tracks.items going
    have at_ := items.tool acc (List.mem_of_getElem? found)
    have isOpen : toolItemId acc ∈ s.emitter.openItems := by
      rw [at_.toolItemId_eq]
      exact at_.live (by rw [none]; exact List.not_mem_nil)
    have sent := tracks.wire.uses (tracks.begun_emitter started going) isOpen
      "response.function_call_arguments.delta" (by decide) (by decide)
      (itemFields (toolItemId acc) acc.outputIndex ++ [("delta", .str arguments)]) rfl
    have kept : ∀ id, Kept s.emitter past _ _ id := fun id =>
      sent.kept (e := s.emitter) (fun here => here) (fun here => here) rfl
    refine ⟨tracks.advance sent rfl started tracks.owner tracks.known ?_, started,
      sent.begun.going, rfl⟩
    exact ⟨items.one, fun msg mem => (items.message msg mem).kept (kept _),
      fun rea is => (items.reasoning rea is).kept (kept _),
      fun acc mem => (items.tool acc mem).kept (kept _), items.msgDone_lt, items.toolDone_lt⟩

/-- A call that is opened. -/
structure NewTool (s : TurnBridge) (tool : TurnTool) where
  acc : ToolCallAccumulator
  tools : ToolCallCollection
  found : s.findTool tool = (s.acc.tools.accs.length, openToolCall acc
    { s with acc := { s.acc with tools := tools, nextIndex := s.acc.nextIndex + 1 } })
  accs : tools.accs = s.acc.tools.accs ++ [acc]
  owner : tools.responseId = s.acc.tools.responseId
  itemId : acc.itemId = itemIdOf s.acc.tools.responseId .tool s.acc.nextIndex
  outputIndex : acc.outputIndex = s.acc.nextIndex

theorem newTool_of_get {tool : TurnTool}
    (new : s.acc.tools.get tool.callId (some tool.index) = none) : Nonempty (NewTool s tool) := by
  have made : s.acc.tools.ensure s.acc.nextIndex tool.callId (some tool.index)
      = (s.acc.tools.accs.length, s.acc.tools.create
          (s.acc.tools.newAccumulator s.acc.nextIndex tool.callId (some tool.index))) := by
    unfold ToolCallCollection.ensure
    rw [new]
  set first := s.acc.tools.newAccumulator s.acc.nextIndex tool.callId (some tool.index)
  obtain ⟨id, index⟩ := sameCall_nameNew tool first
  have accs := ToolCallCollection.modify_create s.acc.tools first (nameNew tool)
  refine ⟨⟨nameNew tool first,
    (s.acc.tools.create first).modify s.acc.tools.accs.length (nameNew tool), ?_, accs, rfl, id,
    index⟩⟩
  unfold findTool
  rw [new]
  dsimp only
  rw [made]
  dsimp only
  rw [withTool_of_get (by rw [modifyTool, accs]; exact List.getElem?_concat_length)]
  rfl

theorem NewTool.toolItemId_eq {tool : TurnTool} (new : NewTool s tool) :
    toolItemId new.acc = itemIdOf s.acc.tools.responseId .tool s.acc.nextIndex := by
  refine (if_neg fun empty => ?_).trans new.itemId
  exact itemIdOf_ne_empty _ _ _ (new.itemId.symm.trans empty)

theorem goes_newTool (tracks : Tracks s past) (started : s.started = true)
    (going : s.emitter.completedEmitted = false) (tool : TurnTool)
    (new : s.acc.tools.get tool.callId (some tool.index) = none) :
    Goes s past (s.findTool tool).2 := by
  have items := tracks.items going
  obtain ⟨new⟩ := newTool_of_get new
  have toolId := new.toolItemId_eq
  rw [tracks.owner] at toolId
  obtain ⟨notOpen, notDone⟩ := tracks.fresh .tool
  have known := tracks.known_succ .tool
  rw [← toolId] at notOpen notDone known
  rw [new.found]
  have sent := tracks.wire.openItem (tracks.begun_emitter started going)
    (toolItem new.acc []) notOpen notDone (extra_toolItem _ rfl)
  have kept : ∀ id, Kept s.emitter past _ _ id := fun id =>
    sent.kept (e := s.emitter) (List.mem_append_left _) (fun here => here) rfl
  refine ⟨tracks.advance sent rfl started (new.owner.trans tracks.owner) known ?_, started,
    sent.begun.going, rfl⟩
  refine ⟨items.one, fun msg mem => (items.message msg mem).kept (kept _),
    fun rea is => (items.reasoning rea is).kept (kept _), ?_,
    fun i mem => Nat.lt_succ_of_lt (items.msgDone_lt i mem),
    fun i mem => Nat.lt_succ_of_lt (items.toolDone_lt i mem)⟩
  intro acc mem
  rcases List.mem_append.mp (show acc ∈ _ by rw [← new.accs]; exact mem) with old | now
  · exact (items.tool acc old).kept (kept _)
  · rw [List.mem_singleton.mp now]
    have itemId := new.itemId
    rw [tracks.owner] at itemId
    refine ⟨itemId.trans (by rw [new.outputIndex]; rfl), fun _ => sent.mem_opens ?_⟩
    rw [itemId, ← toolId]
    exact List.mem_append_right _ (List.mem_singleton_self _)

theorem goes_handleToolCall (tracks : Tracks s past) (started : s.started = true)
    (going : s.emitter.completedEmitted = false) (none : s.toolDone = []) (tool : TurnTool) :
    Goes s past (handleToolCall tool s) := by
  have found : Goes s past (s.findTool tool).2 := by
    cases known : s.acc.tools.get tool.callId (some tool.index) with
    | none => exact goes_newTool tracks started going tool known
    | some ref =>
        unfold findTool
        rw [known]
        exact (Goes.refl (tracks.modifyTool ref (sameCall_nameKnown tool)) started going).after
          rfl
  unfold handleToolCall
  refine Goes.andThen (f := fun _ => (s.findTool tool).2) found ?_
  unfold callIf
  split
  case isFalse _ => exact .refl found.tracks found.started found.going
  case isTrue _ =>
    have appended : SameCall (·.appendArguments tool.arguments) := fun acc => ⟨rfl, rfl⟩
    exact (goes_toolArgs (found.tracks.modifyTool _ appended) found.started found.going
      (found.toolDone.trans none) _ _).after rfl

theorem Tracks.closeTool (tracks : Tracks s past) (started : s.started = true)
    (going : s.emitter.completedEmitted = false) {ref : ℕ} {acc : ToolCallAccumulator}
    (found : s.acc.tools.accs[ref]? = some acc) (unfinished : acc.outputIndex ∉ s.toolDone)
    (verdict : ToolCallAccumulator.Verdict) {out : Emitter × List WireEvent}
    {acts : List (Act Json Char)}
    (sent : Sent past out acts (s.emitter.openItems.filter (· ≠ toolItemId acc))
      (s.emitter.doneItems ++ [toolItemId acc]))
    (silent : ∀ k, said k acts = []) :
    Tracks { s.modifyTool ref (·.noteVerdict verdict) with
      toolDone := s.toolDone ++ [acc.outputIndex], emitter := out.1 } (past ++ out.2) := by
  have items := tracks.items going
  have at_ := items.tool acc (List.mem_of_getElem? found)
  have id := at_.toolItemId_eq.trans at_.id
  have isOpen : toolItemId acc ∈ s.emitter.openItems := by
    rw [at_.toolItemId_eq]
    exact at_.live unfinished
  have kept : ∀ {id kind i}, id = itemIdOf s.acc.responseId kind i →
      kind ≠ .tool ∨ i ≠ acc.outputIndex → Kept s.emitter past _ _ id := fun is other =>
    sent.kept_close (e := s.emitter) (id_ne id is other) (silent _)
  have noted : SameCall (·.noteVerdict verdict) := by
    intro acc
    cases verdict <;> exact ⟨rfl, rfl⟩
  refine tracks.advance sent rfl started tracks.owner (tracks.known_close isOpen) ?_
  refine ⟨items.one,
    fun msg mem => (items.message msg mem).kept
      (kept (items.message msg mem).id (.inl (by decide))),
    fun rea is => (items.reasoning rea is).kept
      (kept (items.reasoning rea is).id (.inl (by decide))), ?_, items.msgDone_lt, ?_⟩
  · intro acc' mem
    obtain ⟨old, held, is⟩ := mem_modify mem
    have same : acc'.itemId = old.itemId ∧ acc'.outputIndex = old.outputIndex := by
      rcases is with rfl | rfl
      · exact ⟨rfl, rfl⟩
      · exact noted old
    have was := (items.tool old held).same same
    refine ⟨was.id, fun open_ => ?_⟩
    have other : acc'.outputIndex ≠ acc.outputIndex := fun now =>
      open_ (List.mem_append_right _ (by rw [now]; exact List.mem_singleton_self _))
    exact (kept was.id (.inr other)).opens
      (was.live fun before => open_ (List.mem_append_left _ before))
  · intro i here
    rcases List.mem_append.mp here with before | now
    · exact items.toolDone_lt i before
    · obtain ⟨kind, j, low, same⟩ := tracks.known _ (.inl isOpen)
      rw [id] at same
      rw [List.mem_singleton.mp now, (itemIdOf_inj same).2]
      exact low

variable {env}

theorem tracks_closeToolCall (tracks : Tracks s past) (started : s.started = true)
    (going : s.emitter.completedEmitted = false) {status : String} {ref : ℕ}
    {next : TurnBridge × List WireEvent} (run : closeToolCall env status ref s = some next) :
    Tracks next.1 (past ++ next.2) ∧ next.1.started = true
      ∧ next.1.emitter.completedEmitted = false := by
  have stays : Tracks s (past ++ []) := by simpa using tracks
  unfold closeToolCall at run
  split at run
  case h_1 _ =>
    cases run
    exact ⟨stays, started, going⟩
  case h_2 acc found =>
    split at run
    case isTrue _ =>
      cases run
      exact ⟨stays, started, going⟩
    case isFalse unfinished =>
      have at_ := (tracks.items going).tool acc (List.mem_of_getElem? found)
      have isOpen : toolItemId acc ∈ s.emitter.openItems := by
        rw [at_.toolItemId_eq]
        exact at_.live unfinished
      dsimp only at run
      split at run
      case h_1 verdict =>
        cases run
        have args := tracks.wire.uses (tracks.begun_emitter started going) isOpen
          "response.function_call_arguments.done" (by decide) (by decide)
          (itemFields (toolItemId acc) acc.outputIndex
            ++ [("arguments", .str acc.arguments)]) rfl
        have closed := args.wire.closeItem args.begun
          (toolItem acc [("arguments", .str acc.arguments)]) (args.mem_opens isOpen)
          (extra_toolItem _ rfl) status
        rw [args.openItems, args.doneItems] at closed
        have sent := args.trans closed
        exact ⟨tracks.closeTool started going found unfinished _ sent fun k => rfl, started,
          sent.begun.going⟩
      case h_2 verdict =>
        cases run
        have sent := tracks.wire.closeItem (tracks.begun_emitter started going)
          (toolItem acc [("arguments", .str acc.arguments)]) isOpen (extra_toolItem _ rfl)
          "incomplete"
        exact ⟨tracks.closeTool started going found unfinished _ sent fun k => rfl, started,
          sent.begun.going⟩
      case h_3 _ => cases run

end TurnBridge

end Zhongzhuan.Protocol
