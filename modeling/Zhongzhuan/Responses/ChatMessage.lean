import Zhongzhuan.Kit.Appearance
import Zhongzhuan.Protocol.ResponsesAnswer
import Zhongzhuan.Responses.CompletionSignals
import Zhongzhuan.Responses.SpecialDeltas

/-!
# One assistant message, whole and in deltas

A Chat Completions upstream delivers an assistant message as one body or as a stream of
deltas that add up to it.

* `ChatMessage` is the message: its text and its calls.  `Carries` says that a body has it.
* `DeltasOf` are deltas that belong to the message, in any order and cut in any way; each call
  is introduced with its id and its name.  `Conforming` says that they are complete.
* `slotsOf` is the order in which the parts of the message first appear in the deltas.
* `Streamed.yielded` is what the adapter makes of a conforming stream: one chunk for each
  delta, one terminator for each call in that order, and the finish.
-/

namespace Zhongzhuan.Responses

open Kit Protocol

/-! ## The message -/

/-- A tool call of an assistant message. -/
structure ChatCall where
  id : String
  name : String
  arguments : String
deriving DecidableEq, Repr

/-- An assistant message. -/
structure ChatMessage where
  /-- Empty when the message has no text. -/
  content : String
  calls : List ChatCall
deriving DecidableEq, Repr

/-- A part of a message: its text, or the call with an index. -/
inductive Slot
  | message
  | call (index : ℤ)
deriving DecidableEq, Repr

/-- The index of a call. -/
def Slot.index? : Slot → Option ℤ
  | .message => none
  | .call index => some index

namespace ChatMessage

variable (m : ChatMessage)

/-- The call with an index. -/
def callAt (index : ℤ) : Option ChatCall := if 0 ≤ index then m.calls[index.toNat]? else none

/-- The id of the call with an index. -/
def idAt (index : ℤ) : String := ((m.callAt index).map ChatCall.id).getD ""

/-- The parts of the message in the order of a body: the text, then the calls. -/
def slots : List Slot :=
  (if m.content = "" then [] else [.message])
    ++ (List.range m.calls.length).map fun index : ℕ => .call index

variable {m}

theorem callAt_natCast (index : ℕ) : m.callAt index = m.calls[index]? := by
  unfold callAt
  rw [if_pos (Int.natCast_nonneg index), Int.toNat_natCast]

theorem exists_of_callAt {index : ℤ} {call : ChatCall} (found : m.callAt index = some call) :
    ∃ position : ℕ, index = position ∧ m.calls[position]? = some call := by
  unfold callAt at found
  split at found
  case isTrue nonneg => exact ⟨index.toNat, (Int.toNat_of_nonneg nonneg).symm, found⟩
  case isFalse _ => cases found

theorem mem_of_callAt {index : ℤ} {call : ChatCall} (found : m.callAt index = some call) :
    call ∈ m.calls := by
  obtain ⟨position, _, held⟩ := exists_of_callAt found
  exact List.mem_of_getElem? held

theorem idAt_of_callAt {index : ℤ} {call : ChatCall} (found : m.callAt index = some call) :
    m.idAt index = call.id := by
  unfold idAt
  rw [found]
  rfl

theorem index_unique (distinct : (m.calls.map ChatCall.id).Nodup) {index index' : ℤ}
    {call call' : ChatCall} (found : m.callAt index = some call)
    (found' : m.callAt index' = some call') (same : call.id = call'.id) : index = index' := by
  obtain ⟨position, rfl, held⟩ := exists_of_callAt found
  obtain ⟨position', rfl, held'⟩ := exists_of_callAt found'
  have first : (m.calls.map ChatCall.id)[position]? = some call.id := by
    rw [List.getElem?_map, held, Option.map_some]
  have second : (m.calls.map ChatCall.id)[position']? = some call.id := by
    rw [List.getElem?_map, held', Option.map_some, same]
  have low : position < (m.calls.map ChatCall.id).length := (List.getElem?_eq_some_iff.mp first).1
  exact congrArg Nat.cast ((List.getElem?_inj low distinct).mp (first.trans second.symm))

end ChatMessage

/-! ### In one body -/

/-- The text of a `content` field, empty when it is no string. -/
def contentText : Option Json → String
  | some (.str text) => text
  | _ => ""

/-- An entry of `tool_calls` that is the call. -/
def ChatCall.IsEntry (call : ChatCall) (entry : Json) : Prop :=
  ∃ tc fn : Fields, entry = .obj tc ∧ tc.get "id" = some (.str call.id)
    ∧ tc.get "function" = some (.obj fn) ∧ fn.get "name" = some (.str call.name)
    ∧ fn.get "arguments" = some (.str call.arguments)

/-- The body of a non-streaming answer with this message. -/
structure Carries (m : ChatMessage) (resp : Fields) : Prop where
  message : ∃ (choice fields : Fields) (more entries : List Json),
    resp.get "choices" = some (.arr (.obj choice :: more))
      ∧ choice.get "message" = some (.obj fields)
      ∧ choice.get "finish_reason" ∈ [some (.str "stop"), some (.str "tool_calls")]
      ∧ contentText (fields.get "content") = m.content
      ∧ listOr (fields.get "tool_calls") = some entries
      ∧ List.Forall₂ ChatCall.IsEntry m.calls entries
  usage : ∃ usage, objectOr (resp.get "usage") = some usage

/-! ### In deltas -/

/-- The part of the message a signal belongs to. -/
def Signal.slot? : Signal → Option Slot
  | .text _ => some .message
  | .call index _ _ _ => some (.call index)
  | .reasoning _ | .stop => none

/-- The parts in the order of their first delta. -/
def slotsOf (signals : List Signal) : List Slot := (signals.filterMap Signal.slot?).eraseDups

/-- The indexes of the calls in that order. -/
def opened (signals : List Signal) : List ℤ := (slotsOf signals).filterMap Slot.index?

/-- The fragments of the arguments of a call, put together. -/
def argumentsAt (index : ℤ) (signals : List Signal) : String :=
  String.join (signals.filterMap (Signal.fragment index))

/-- A delta of the message: a piece of its text, or a fragment of one of its calls.  A fragment
has the id and the name of its call, or nothing in their place. -/
def Signal.Of (m : ChatMessage) : Signal → Prop
  | .text delta => delta ≠ ""
  | .call index id name _ =>
    ∃ call, m.callAt index = some call ∧ (id = "" ∨ id = call.id) ∧ (name = "" ∨ name = call.name)
  | .reasoning _ | .stop => False

/-- Deltas of the message.  The first fragment of each call introduces it. -/
structure DeltasOf (m : ChatMessage) (deltas : List Signal) : Prop where
  each : ∀ s ∈ deltas, s.Of m
  first : ∀ before index id name fragment after,
    deltas = before ++ .call index id name fragment :: after →
      Slot.call index ∉ slotsOf before →
        ∀ call, m.callAt index = some call → id = call.id ∧ name = call.name

/-- Deltas that add up to the message. -/
structure Conforming (m : ChatMessage) (deltas : List Signal) : Prop extends DeltasOf m deltas where
  text : String.join (deltas.filterMap Signal.text?) = m.content
  calls : ∀ index call, m.callAt index = some call →
    Slot.call index ∈ slotsOf deltas ∧ argumentsAt index deltas = call.arguments

/-- A conforming stream: the deltas, and a finish that may be said more than once, by the
`finish_reason` and by the sentinel. -/
structure Streamed (m : ChatMessage) where
  deltas : List Signal
  conforming : Conforming m deltas
  furtherStops : ℕ

/-- Everything the upstream says. -/
def Streamed.signals {m : ChatMessage} (sent : Streamed m) : List Signal :=
  sent.deltas ++ List.replicate (sent.furtherStops + 1) .stop

/-! ## Deltas one by one -/

variable {m : ChatMessage} {deltas : List Signal} {s : Signal}

theorem slotsOf_concat (deltas : List Signal) (s : Signal) :
    slotsOf (deltas ++ [s])
      = match s.slot? with
        | none => slotsOf deltas
        | some slot =>
          if slot ∈ slotsOf deltas then slotsOf deltas else slotsOf deltas ++ [slot] := by
  unfold slotsOf
  rw [List.filterMap_append, List.filterMap_cons, List.filterMap_nil]
  cases s.slot? with
  | none => exact congrArg List.eraseDups (List.append_nil _)
  | some slot => simp only [eraseDups_concat, List.mem_eraseDups]

theorem nodup_slotsOf (deltas : List Signal) : (slotsOf deltas).Nodup := nodup_eraseDups _

theorem mem_opened {index : ℤ} : index ∈ opened deltas ↔ Slot.call index ∈ slotsOf deltas := by
  unfold opened
  rw [List.mem_filterMap]
  constructor
  · rintro ⟨slot, mem, isCall⟩
    cases slot with
    | message => cases isCall
    | call i =>
        cases isCall
        exact mem
  · exact fun mem => ⟨_, mem, rfl⟩

theorem opened_concat_text (delta : String) : opened (deltas ++ [.text delta]) = opened deltas := by
  unfold opened
  rw [slotsOf_concat]
  simp only [Signal.slot?]
  split
  · rfl
  · rw [List.filterMap_append]
    exact List.append_nil _

theorem opened_concat_call (index : ℤ) (id name fragment : String) :
    opened (deltas ++ [.call index id name fragment])
      = if index ∈ opened deltas then opened deltas else opened deltas ++ [index] := by
  by_cases known : Slot.call index ∈ slotsOf deltas
  · rw [if_pos (mem_opened.mpr known)]
    unfold opened
    rw [slotsOf_concat]
    simp only [Signal.slot?, if_pos known]
  · rw [if_neg (mt mem_opened.mp known)]
    unfold opened
    rw [slotsOf_concat]
    simp only [Signal.slot?, if_neg known, List.filterMap_append]
    rfl

theorem DeltasOf.of_concat (h : DeltasOf m (deltas ++ [s])) :
    DeltasOf m deltas ∧ s.Of m
      ∧ ∀ index id name fragment, s = .call index id name fragment → index ∉ opened deltas →
          ∀ call, m.callAt index = some call → id = call.id ∧ name = call.name := by
  refine ⟨⟨fun s' mem => h.each s' (List.mem_append_left _ mem), ?_⟩,
    h.each s (List.mem_append_right _ (List.mem_singleton_self s)), ?_⟩
  · rintro before index id name fragment after rfl
    refine h.first before index id name fragment (after ++ [s]) ?_
    rw [List.append_assoc, List.cons_append]
  · rintro index id name fragment rfl new
    exact h.first deltas index id name fragment [] rfl (mt mem_opened.mpr new)

theorem DeltasOf.callAt (h : DeltasOf m deltas) {index : ℤ} (mem : index ∈ opened deltas) :
    ∃ call, m.callAt index = some call := by
  rw [mem_opened, slotsOf, List.mem_eraseDups, List.mem_filterMap] at mem
  obtain ⟨s, inside, isCall⟩ := mem
  have of := h.each s inside
  cases s with
  | call i id name fragment =>
      cases isCall
      obtain ⟨call, found, _⟩ := of
      exact ⟨call, found⟩
  | _ => cases isCall

/-! ## The adapter -/

/-- The chunk the adapter makes of a signal. -/
def Signal.chunk : Signal → Chunk
  | .text delta => .text delta
  | .reasoning delta => .reasoning delta
  | .call index id name arguments => .toolCall id name arguments "" (some index)
  | .stop => .finish

/-- The terminator of a call of the message. -/
def ChatMessage.terminator (m : ChatMessage) (index : ℤ) : Chunk :=
  .toolCallDone (m.idAt index) "" (some index)

theorem acceptAll_concat (a : Adapter) (signals : List Signal) (s : Signal) :
    a.acceptAll (signals ++ [s])
      = (((a.acceptAll signals).1.accept s).1,
          (a.acceptAll signals).2 ++ ((a.acceptAll signals).1.accept s).2) := by
  rw [Adapter.acceptAll_append]
  simp only [Adapter.acceptAll, List.append_nil]

/-- The adapter while deltas come: the calls it knows, under their ids. -/
structure Tracking (m : ChatMessage) (deltas : List Signal) (a : Adapter) : Prop where
  going : a.finished = false
  unclosed : a.closedTools = []
  keys : a.openTools.keys = opened deltas
  ids : ∀ index ∈ opened deltas, a.openTools.get? index = some (m.idAt index)

theorem acceptAll_deltas (h : DeltasOf m deltas) :
    Tracking m deltas (({} : Adapter).acceptAll deltas).1
      ∧ (({} : Adapter).acceptAll deltas).2 = deltas.map Signal.chunk := by
  induction deltas using List.reverseRecOn with
  | nil => exact ⟨⟨rfl, rfl, rfl, nofun⟩, rfl⟩
  | append_singleton deltas s ih =>
      obtain ⟨before, of, introduced⟩ := h.of_concat
      obtain ⟨tracking, chunks⟩ := ih before
      rw [acceptAll_concat, chunks, List.map_append]
      cases s with
      | text delta =>
          refine ⟨⟨tracking.going, tracking.unclosed, ?_, ?_⟩, rfl⟩
          · rw [opened_concat_text]
            exact tracking.keys
          · rw [opened_concat_text]
            exact tracking.ids
      | reasoning delta => exact of.elim
      | stop => exact of.elim
      | call index id name fragment =>
          obtain ⟨call, found, sameId, _⟩ := of
          have known : (if id = ""
              then ((({} : Adapter).acceptAll deltas).1.openTools.get? index).getD "" else id)
                = m.idAt index := by
            rw [ChatMessage.idAt_of_callAt found]
            by_cases here : index ∈ opened deltas
            · rw [tracking.ids index here, ChatMessage.idAt_of_callAt found]
              rcases sameId with rfl | rfl
              · rw [if_pos rfl, Option.getD_some]
              · split
                case isTrue empty => rw [Option.getD_some]
                case isFalse _ => rfl
            · obtain ⟨rfl, _⟩ := introduced index id name fragment rfl here call found
              split
              case isTrue empty =>
                have unknown :
                    (({} : Adapter).acceptAll deltas).1.openTools.get? index = none := by
                  rw [← Option.not_isSome_iff_eq_none, ← Dict.mem_keys, tracking.keys]
                  exact here
                rw [unknown, empty]
                rfl
              case isFalse _ => rfl
          have track : (({} : Adapter).acceptAll deltas).1.trackTool index id
              = { (({} : Adapter).acceptAll deltas).1 with
                  openTools := (({} : Adapter).acceptAll deltas).1.openTools.set index
                    (m.idAt index) } := by
            unfold Adapter.trackTool
            rw [if_neg (by rw [tracking.unclosed]; exact List.not_mem_nil), ← known]
          refine ⟨?_, rfl⟩
          show Tracking m _ ((({} : Adapter).acceptAll deltas).1.trackTool index id)
          rw [track]
          refine ⟨tracking.going, tracking.unclosed, ?_, fun i mem => ?_⟩
          · rw [Dict.keys_set, tracking.keys, opened_concat_call]
          · show (Dict.set _ index (m.idAt index)).get? i = _
            rw [Dict.get?_set]
            split
            case isTrue same => rw [same]
            case isFalse other =>
              refine tracking.ids i ?_
              rw [opened_concat_call] at mem
              split at mem
              · exact mem
              · exact (List.mem_append.mp mem).resolve_right fun last =>
                  other (List.mem_singleton.mp last)

theorem acceptAll_stops {a : Adapter} (finished : a.finished = true) (n : ℕ) :
    (a.acceptAll (List.replicate n .stop)).2 = [] := by
  induction n with
  | zero => rfl
  | succ n ih =>
      have still : a.accept .stop = (a, []) := if_pos finished
      rw [List.replicate_succ, Adapter.acceptAll, still]
      exact ih

/-- The chunks of a conforming stream. -/
def Streamed.chunks (sent : Streamed m) : List Chunk :=
  sent.deltas.map Signal.chunk ++ (opened sent.deltas).map m.terminator ++ [.finish]

theorem Streamed.accepted (sent : Streamed m) :
    (({} : Adapter).acceptAll sent.signals).2 = sent.chunks := by
  obtain ⟨tracking, chunks⟩ := acceptAll_deltas sent.conforming.toDeltasOf
  unfold Streamed.signals Streamed.chunks
  rw [Adapter.acceptAll_append, chunks]
  generalize (({} : Adapter).acceptAll sent.deltas).1 = a at tracking ⊢
  have closing : ({ a with finished := true }.closeTools a.openTools.keys).2
      = a.openTools.keys.map (Adapter.terminator { a with finished := true }) :=
    closeTools_chunks a.openTools.nodup (fun i _ => by simp [tracking.unclosed])
      fun i mem => Dict.mem_keys.mp mem
  have finish : a.finish = (({ a with finished := true }.closeTools a.openTools.keys).1,
      ({ a with finished := true }.closeTools a.openTools.keys).2 ++ [.finish]) := by
    simp [Adapter.finish, tracking.going, Adapter.closeAllTools]
  have ended : (a.accept .stop).1.finished = true := by
    show a.finish.1.finished = true
    rw [finish]
    exact closeTools_finished _ _
  have terminators : a.openTools.keys.map (Adapter.terminator { a with finished := true })
      = (opened sent.deltas).map m.terminator := by
    rw [tracking.keys]
    refine List.map_congr_left fun i mem => ?_
    unfold Adapter.terminator ChatMessage.terminator
    rw [tracking.ids i mem, Option.getD_some]
  rw [List.replicate_succ, Adapter.acceptAll, acceptAll_stops ended, List.append_nil]
  show _ ++ a.finish.2 = _
  rw [finish, List.append_assoc, ← terminators, ← closing]

theorem Streamed.yielded {upstream : AdapterEnv} (chat : upstream.dialect = .openai)
    (sent : Streamed m) {stream : List Bytes} (whole : (framesOf stream).2 = false)
    (said : Says upstream (framesOf stream).1 sent.signals) :
    (iterChunks upstream stream).yielded = sent.chunks := by
  obtain ⟨usage, done⟩ := frames_eq_accept upstream chat said {} rfl
  rw [iterChunks_eq, whole, Adapting.cut_false, adaptFrames, done, List.nil_append,
    ← sent.accepted]

end Zhongzhuan.Responses
