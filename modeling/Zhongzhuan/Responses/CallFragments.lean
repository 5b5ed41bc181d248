import Zhongzhuan.Responses.Pipeline

/-!
# What a fragment and a terminator do to a call

The two branches of `_translate_chunk` for ordinary calls, each said once: which fields of the
pipeline change, which events leave, and that a property of all calls survives when the
operations on a single call keep it (`ToolCallCollection.Holds`).
-/

namespace Zhongzhuan.Responses

open Kit Protocol

variable {env : Env} {p : Pipeline} {P : ToolCallAccumulator → Prop}

/-- The announcement of a call that has none yet. -/
def announcement (acc : ToolCallAccumulator) : List Event :=
  if acc.itemAdded then []
  else [itemAdded acc.outputIndex (functionCallItem acc .inProgress "")]

/-- **A fragment** belongs to one call, which it announces if it has to; its event is the
argument delta. -/
theorem translateToolCall_spec (callId name fragment nameSpace : String)
    (sourceIndex : Option ℤ) (h : p.tools.Holds P)
    (bound : ∀ acc, P acc → P (acc.bindCallId callId))
    (absorbed : ∀ acc, P acc → P ((acc.absorbName name nameSpace).appendArguments fragment))
    (added : ∀ acc, P acc → P { acc with itemAdded := true })
    (new : P (p.tools.newAccumulator p.outputIndex callId sourceIndex)) :
    ∃ acc tools index, P acc ∧ tools.Holds P
      ∧ p.translateToolCall callId name fragment nameSpace sourceIndex
        = ({ p with tools := tools, outputIndex := index, state := .streaming },
            announcement acc ++ [argumentsDelta acc.outputIndex acc.callId fragment]) := by
  obtain ⟨ensured, low⟩ := h.ensure p.outputIndex sourceIndex bound new
  have held := ensured.modify (p.tools.ensure p.outputIndex callId sourceIndex).1 absorbed
  obtain ⟨acc, found⟩ : ∃ acc, ((p.tools.ensure p.outputIndex callId sourceIndex).2.modify
      (p.tools.ensure p.outputIndex callId sourceIndex).1 fun acc =>
        (acc.absorbName name nameSpace).appendArguments fragment).accs[
          (p.tools.ensure p.outputIndex callId sourceIndex).1]? = some acc := by
    refine ⟨_, List.getElem?_eq_getElem ?_⟩
    rwa [ToolCallCollection.accs_modify, List.length_modify]
  have good := held.each acc (List.mem_of_getElem? found)
  unfold Pipeline.translateToolCall
  dsimp only
  rw [found]
  dsimp only
  unfold announcement
  split
  case isTrue announced =>
    refine ⟨acc, _, p.outputIndex, good, held, ?_⟩
    rw [if_pos announced]
    rfl
  case isFalse unannounced =>
    refine ⟨acc, _, max p.outputIndex (acc.outputIndex + 1), good,
      held.modify (p.tools.ensure p.outputIndex callId sourceIndex).1 added, ?_⟩
    rw [if_neg unannounced]
    rfl

/-- What a terminator emits for a call. -/
def terminatorEvents (acc : ToolCallAccumulator) (valid : Bool) : List Event :=
  if valid then
    [argumentsDone acc.outputIndex acc.callId acc.arguments,
      itemDone acc.outputIndex (functionCallItem acc .completed acc.arguments)]
  else [itemDone acc.outputIndex (functionCallItem acc .incomplete acc.arguments)]

/-- **A terminator** closes the call it finds, and ignores one it does not; `json.loads` is
asked once. -/
theorem translateToolCallDone_spec (callId arguments : String) (sourceIndex : Option ℤ)
    (h : p.tools.Holds P)
    (quiet : ∀ text message, env.loads text ≠ .raised message)
    (appended : ∀ acc, P acc → P (acc.appendArguments arguments))
    (closed : ∀ acc, P acc →
      P ((acc.noteVerdict (acc.validate env.loads)).markItemDone)) :
    (p.tools.get callId sourceIndex = none
      ∧ p.translateToolCallDone env callId arguments sourceIndex = ⟨p, [], none⟩)
    ∨ ∃ acc tools valid, P acc ∧ tools.Holds P
      ∧ valid = decide (acc.validate env.loads = .valid)
      ∧ p.translateToolCallDone env callId arguments sourceIndex
        = ⟨{ p with tools := tools, hadInvalidToolArgs := p.hadInvalidToolArgs || !valid },
            terminatorEvents acc valid, none⟩ := by
  unfold Pipeline.translateToolCallDone
  cases found : p.tools.get callId sourceIndex with
  | none => exact .inl ⟨rfl, rfl⟩
  | some ref =>
      right
      dsimp only
      have held := h.modify ref appended
      obtain ⟨acc, here⟩ : ∃ acc, (p.tools.modify ref (·.appendArguments arguments)).accs[ref]?
          = some acc := by
        refine ⟨_, List.getElem?_eq_getElem ?_⟩
        rw [ToolCallCollection.accs_modify, List.length_modify]
        exact h.refs_valid ref (ToolCallCollection.mem_refs_of_get found)
      rw [here]
      have good := held.each acc (List.mem_of_getElem? here)
      have shut : ∀ verdict, acc.validate env.loads = verdict →
          ((p.tools.modify ref (·.appendArguments arguments)).modify ref fun acc =>
            (acc.noteVerdict verdict).markItemDone).Holds P := by
        intro verdict judged
        refine held.modify_at ref fun acc' found' good' => ?_
        cases here.symm.trans found'
        exact judged ▸ closed acc good'
      dsimp only
      cases judged : acc.validate env.loads with
      | valid => exact ⟨acc, _, true, good, shut .valid judged, by simp [judged], by
          simp [terminatorEvents]⟩
      | invalid => exact ⟨acc, _, false, good, shut .invalid judged, by simp [judged], by
          simp [terminatorEvents, ToolCallAccumulator.noteVerdict]⟩
      | raised message =>
          unfold ToolCallAccumulator.validate at judged
          dsimp only at judged
          split at judged
          · cases judged
          · split at judged
            case h_4 answer => exact absurd answer (quiet _ _)
            all_goals cases judged

end Zhongzhuan.Responses
