import Zhongzhuan.Responses.CallReports
import Zhongzhuan.Responses.CompletionSignals

/-!
# What the adapter can yield

The two readers of the chunk vocabulary agree on fewer chunks than the vocabulary has.
`Chunk.Wire` says what a chunk of `UpstreamSSEChunkAdapter` is like, in each of the three
dialects: a text is never empty, a fragment always has a source index, a terminator never has
arguments, and an item passed through is not a function call.  `iterChunks_wire` is the proof,
dialect by dialect.
-/

namespace Zhongzhuan.Responses

open Kit Protocol

/-- What a chunk of the adapter is like. -/
def Chunk.Wire : Chunk → Prop
  | .text delta | .reasoning delta => delta ≠ ""
  | .toolCall _ _ _ _ sourceIndex => sourceIndex.isSome = true
  | .toolCallDone _ arguments sourceIndex => arguments = "" ∧ sourceIndex.isSome = true
  | .rawOutputItem _ item => isCallItem item = false
  | .finish => True

/-- Every chunk is like that. -/
def AllWire (chunks : List Chunk) : Prop := ∀ c ∈ chunks, c.Wire

theorem AllWire.append {first second : List Chunk} (h : AllWire first) (h' : AllWire second) :
    AllWire (first ++ second) :=
  fun c mem => (List.mem_append.mp mem).elim (h c) (h' c)

theorem AllWire.single {c : Chunk} (wire : c.Wire) : AllWire [c] := fun _ mem => by
  rwa [List.mem_singleton.mp mem]

theorem AllWire.nil : AllWire [] := nofun

variable {env : AdapterEnv} {a : Adapter}

theorem finish_wire (a : Adapter) : AllWire a.finish.2 := by
  intro c mem
  rcases finish_kinds a c mem with rfl | ⟨id, index, rfl⟩
  · trivial
  · exact ⟨rfl, rfl⟩

theorem closeTool_wire (a : Adapter) (index : ℤ) : AllWire (a.closeTool index).2 := by
  intro c mem
  have one : c ∈ (a.closeTools [index]).2 := List.mem_append_left _ mem
  obtain ⟨id, i, rfl⟩ := closeTools_kinds a [index] c one
  exact ⟨rfl, rfl⟩

/-! ## Chat Completions -/

theorem openaiToolCalls_wire {entries : List Json} {done : Adapter × List Chunk}
    (read : a.openaiToolCalls env entries = .ok done) : AllWire done.2 := by
  induction entries generalizing a done with
  | nil =>
      cases read
      exact .nil
  | cons entry rest ih =>
      cases entry with
      | obj entry =>
          obtain ⟨index, _, read⟩ := bind_eq_ok read
          obtain ⟨more, isMore, read⟩ := bind_eq_ok read
          cases read
          exact List.forall_mem_cons.mpr ⟨rfl, ih isMore⟩
      | _ => exact ih read

theorem nonemptyText_ne {delta : Fields} {key text : String}
    (found : Adapter.nonemptyText delta key = some text) : text ≠ "" := by
  unfold Adapter.nonemptyText at found
  split at found
  · split at found
    · cases found
    case isFalse nonempty =>
      cases found
      exact nonempty
  · cases found

theorem openaiDelta_wire {delta : Fields} {done : Adapter × List Chunk}
    (read : a.openaiDelta env delta = .ok done) : AllWire done.2 := by
  obtain ⟨calls, isCalls, read⟩ := bind_eq_ok read
  cases read
  refine .append (.append ?_ ?_) (openaiToolCalls_wire isCalls)
  · intro c mem
    obtain ⟨text, found, rfl⟩ := List.mem_map.mp mem
    exact nonemptyText_ne (Option.mem_toList.mp found)
  · intro c mem
    obtain ⟨text, found, rfl⟩ := List.mem_map.mp mem
    exact nonemptyText_ne (Option.mem_toList.mp found)

theorem openaiChoices_wire {choices : List Json} {done : Adapter × List Chunk}
    (read : a.openaiChoices env choices = .ok done) : AllWire done.2 := by
  induction choices generalizing a done with
  | nil =>
      cases read
      exact .nil
  | cons choice rest ih =>
      cases choice with
      | obj choice =>
          obtain ⟨delta, isDelta, read⟩ := bind_eq_ok read
          obtain ⟨more, isMore, read⟩ := bind_eq_ok read
          cases read
          refine .append (.append (openaiDelta_wire isDelta) ?_) (ih isMore)
          split
          · exact finish_wire _
          · exact .nil
      | _ => exact ih read

theorem openaiChunks_wire {payload : Fields} {done : Adapter × List Chunk}
    (read : a.openaiChunks env payload = .ok done) : AllWire done.2 := by
  obtain ⟨choices, isChoices, read⟩ := bind_eq_ok read
  obtain ⟨norm, _, read⟩ := bind_eq_ok read
  cases read
  have wire := openaiChoices_wire isChoices
  exact wire

/-! ## Anthropic -/

theorem anthropicBlockStart_wire {payload : Fields} {done : Adapter × List Chunk}
    (read : a.anthropicBlockStart env payload = .ok done) : AllWire done.2 := by
  unfold Adapter.anthropicBlockStart at read
  split at read
  · split at read
    · obtain ⟨index, _, read⟩ := bind_eq_ok read
      cases read
      exact .single rfl
    · cases read
      exact .nil
  · cases read
    exact .nil

theorem anthropicBlockDelta_wire {payload : Fields} {chunks : List Chunk}
    (read : a.anthropicBlockDelta env payload = .ok chunks) : AllWire chunks := by
  unfold Adapter.anthropicBlockDelta at read
  split at read
  · dsimp only at read
    split at read
    · cases read
      split
      · exact .nil
      case isFalse nonempty => exact .single nonempty
    · split at read
      · obtain ⟨index, _, read⟩ := bind_eq_ok read
        cases read
        exact .single rfl
      · cases read
        exact .nil
  · cases read
    exact .nil

theorem anthropicChunks_wire {event : String} {payload : Fields} {done : Adapter × List Chunk}
    (read : a.anthropicChunks env event payload = .ok done) : AllWire done.2 := by
  unfold Adapter.anthropicChunks at read
  split at read
  · cases read
    exact finish_wire a
  · split at read
    · have stopped : ∀ (noted : Adapter) (stops : Bool),
          AllWire (if stops then noted.finish else (noted, [])).2 := by
        intro noted stops
        cases stops
        · exact .nil
        · exact finish_wire noted
      dsimp only at read
      split at read
      all_goals
        obtain ⟨noted, _, read⟩ := bind_eq_ok read
        cases read
        exact stopped _ _
    · split at read
      · exact anthropicBlockStart_wire read
      · split at read
        · obtain ⟨chunks, isChunks, read⟩ := bind_eq_ok read
          cases read
          exact anthropicBlockDelta_wire isChunks
        · split at read
          · obtain ⟨index, _, read⟩ := bind_eq_ok read
            cases read
            exact closeTool_wire a index
          · cases read
            exact .nil

/-! ## Native Responses -/

theorem nativeItem_wire {type : String} {payload : Fields} {chunks : List Chunk}
    (read : Adapter.nativeItem env type payload = .ok chunks) : AllWire chunks := by
  unfold Adapter.nativeItem at read
  split at read
  case h_1 item _ =>
    split at read
    · cases read
      exact .nil
    case isFalse other =>
      obtain ⟨index, _, read⟩ := bind_eq_ok read
      cases read
      refine .single ?_
      show isCallItem (Fields.put "output_index" (.int index) item) = false
      rw [isCallItem_put (by decide)]
      by_contra call
      have type : Fields.get item "type" = some (.str "function_call") := by
        simpa [isCallItem] using call
      exact other (by simp [AdapterEnv.strOr, type])
  case h_2 =>
    cases read
    exact .nil

theorem nativeChunks_wire {event : String} {payload : Fields} {done : Adapter × List Chunk}
    (read : a.nativeChunks env event payload = .ok done) : AllWire done.2 := by
  have delta : ∀ (text : String) (chunk : String → Chunk), (text ≠ "" → (chunk text).Wire) →
      AllWire (if text = "" then [] else [chunk text]) := by
    intro text chunk wire
    split
    · exact .nil
    case isFalse nonempty => exact .single (wire nonempty)
  unfold Adapter.nativeChunks at read
  dsimp only at read
  split at read
  · cases read
    exact delta _ Chunk.text id
  · split at read
    · obtain ⟨chunks, isChunks, read⟩ := bind_eq_ok read
      cases read
      exact nativeItem_wire isChunks
    · split at read
      · cases read
        exact delta _ Chunk.reasoning id
      · split at read
        · obtain ⟨index, _, read⟩ := bind_eq_ok read
          cases read
          exact .single rfl
        · split at read
          · obtain ⟨index, _, read⟩ := bind_eq_ok read
            cases read
            exact closeTool_wire a index
          · split at read
            · obtain ⟨noted, _, read⟩ := bind_eq_ok read
              cases read
              exact finish_wire noted
            · cases read
              exact .nil

/-! ## A stream -/

theorem frameToChunks_wire {frame : SseFrame} {done : Adapter × List Chunk}
    (read : a.frameToChunks env frame = .ok done) : AllWire done.2 := by
  unfold Adapter.frameToChunks at read
  split at read
  · cases read
    exact finish_wire a
  · obtain ⟨payload, _, read⟩ := bind_eq_ok read
    split at read
    · cases read
      exact .nil
    · split at read
      · exact anthropicChunks_wire read
      · exact nativeChunks_wire read
      · exact openaiChunks_wire read

theorem iterChunks_wire (env : AdapterEnv) (stream : List Bytes) :
    AllWire (iterChunks env stream).yielded := by
  rw [iterChunks_eq]
  refine runSchedule_invariant (fun g : Adapting => AllWire g.yielded) ?_ .nil
    (framesOf stream).1
  intro g frame wire
  unfold Adapting.frame
  split
  · exact wire
  · split
    · exact wire
    case h_2 done read => exact wire.append (frameToChunks_wire read)

end Zhongzhuan.Responses
