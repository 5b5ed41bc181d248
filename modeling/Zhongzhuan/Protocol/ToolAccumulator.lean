import Zhongzhuan.Kit.Dict
import Zhongzhuan.Kit.Json
import Zhongzhuan.Kit.Text
import Zhongzhuan.Protocol.Models

/-!
# Tool-call aggregation

The model of `proxy/protocol/tool_accumulator.py`.  The source keeps one mutable object
per call and two dictionaries that point at it, one by call id and one by source index.
Here the objects stand in the list `accs` in the order they were created, and the
dictionaries hold their positions: two entries are the same object exactly when they hold
the same position.

* `splitNamespaceName` undoes the flattening of a namespaced tool name.
* `ToolCallAccumulator` is the object with its mutators; `validateArguments` asks
  `json.loads`, which is a parameter, and may raise.
* `ToolCallCollection.get`, `.ensure`, `.listAll` and `.incomplete` are the methods.  An
  object both dictionaries have lost is no longer in `listAll`.

`append_name` and `finalize_call_id` have no caller outside the tests and are left out,
and with the first the field `name_mode`, which only it reads.
-/

namespace Zhongzhuan.Protocol

open Kit

/-! ## Flattened names -/

/-- `_NAMESPACE_PREFIX`. -/
def namespacePrefix : String := "mcp__"

/-- `split_namespace_name`: namespace and tool name, the namespace empty for a name that
was not flattened.  A dot is tried before the hyphen. -/
def splitNamespaceName (flatName : String) : String × String :=
  if startsWith flatName namespacePrefix then
    if '.' ∈ flatName.toList then
      let parts := rpartition '.' flatName.toList
      (String.ofList parts.1, String.ofList parts.2)
    else if '-' ∈ flatName.toList then
      let parts := rpartition '-' flatName.toList
      (String.ofList parts.1, String.ofList parts.2)
    else ("", flatName)
  else ("", flatName)

/-! ## One call -/

/-- `ToolCallAccumulator`. -/
structure ToolCallAccumulator where
  sourceIndex : ℤ
  outputIndex : ℕ
  callId : String := ""
  name : String := ""
  arguments : String := ""
  itemAdded : Bool := false
  argumentsDone : Bool := false
  itemDone : Bool := false
  nameSpace : String := ""
  itemId : String := ""
deriving DecidableEq, Repr

namespace ToolCallAccumulator

/-- `bind_call_id`; the item id stays. -/
def bindCallId (acc : ToolCallAccumulator) (callId : String) : ToolCallAccumulator :=
  if callId = "" then acc else { acc with callId := callId }

/-- `replace_name`. -/
def replaceName (acc : ToolCallAccumulator) (name : String) : ToolCallAccumulator :=
  if name = "" then acc else { acc with name := name }

/-- `append_arguments`. -/
def appendArguments (acc : ToolCallAccumulator) (fragment : String) : ToolCallAccumulator :=
  { acc with arguments := acc.arguments ++ fragment }

/-- `is_complete`: a name, and arguments that validated. -/
def isComplete (acc : ToolCallAccumulator) : Bool := acc.name ≠ "" && acc.argumentsDone

/-- `mark_item_done`. -/
def markItemDone (acc : ToolCallAccumulator) : ToolCallAccumulator :=
  { acc with itemDone := true }

/-- `replace_name`, and the restoration of a name that arrived flattened. -/
def restoreName (acc : ToolCallAccumulator) (name : String) : ToolCallAccumulator :=
  let split := splitNamespaceName name
  if split.1 = "" then acc.replaceName name
  else ({ acc.replaceName name with nameSpace := split.1 }).replaceName split.2

/-- The namespace a fragment carries beside its name; a name that begins with it is cut. -/
def applyNamespace (acc : ToolCallAccumulator) (nameSpace : String) : ToolCallAccumulator :=
  if nameSpace = "" then acc
  else
    let pre := nameSpace ++ "-"
    if startsWith acc.name pre then
      ({ acc with nameSpace := nameSpace }).replaceName (dropText pre.length acc.name)
    else { acc with nameSpace := nameSpace }

/-- What the pipeline and the background worker both do with the name and the namespace of a
fragment; an empty name splits into two empty parts and changes nothing. -/
def absorbName (acc : ToolCallAccumulator) (name nameSpace : String) : ToolCallAccumulator :=
  (acc.restoreName name).applyNamespace nameSpace

/-- What `validate_arguments` concludes from the accumulated text. -/
inductive Verdict
  | valid
  | invalid
  /-- `json.loads` raised something the method does not catch. -/
  | raised (message : String)
deriving DecidableEq, Repr

/-- `validate_arguments` without its effect: the stripped text must be a JSON object. -/
def validate (loads : String → Loaded) (acc : ToolCallAccumulator) : Verdict :=
  let text := stripText acc.arguments
  if text = "" then .invalid
  else
    match loads text with
    | .value (.obj _) => .valid
    | .value _ => .invalid
    | .rejected => .invalid
    | .raised message => .raised message

/-- The effect of `validate_arguments` on the object. -/
def noteVerdict (acc : ToolCallAccumulator) : Verdict → ToolCallAccumulator
  | .valid => { acc with argumentsDone := true }
  | _ => acc

end ToolCallAccumulator

/-! ## The collection -/

/-- `ToolCallCollection`. -/
structure ToolCallCollection where
  responseId : String
  /-- The objects, in creation order. -/
  accs : List ToolCallAccumulator := []
  /-- `tools_by_call_id`. -/
  byCallId : Dict String ℕ := .empty
  /-- `tools_by_source_index`. -/
  bySourceIndex : Dict ℤ ℕ := .empty
deriving DecidableEq

namespace ToolCallCollection

/-- `get`: by call id, then by source index. -/
def get (tools : ToolCallCollection) (callId : String) (sourceIndex : Option ℤ) : Option ℕ :=
  match if callId = "" then none else tools.byCallId.get? callId with
  | some ref => some ref
  | none =>
    match sourceIndex with
    | some index => tools.bySourceIndex.get? index
    | none => none

/-- A change of one object. -/
def modify (tools : ToolCallCollection) (ref : ℕ)
    (f : ToolCallAccumulator → ToolCallAccumulator) : ToolCallCollection :=
  { tools with accs := tools.accs.modify ref f }

/-- The object `ensure` creates. -/
def newAccumulator (tools : ToolCallCollection) (outputIndex : ℕ) (callId : String)
    (sourceIndex : Option ℤ) : ToolCallAccumulator where
  sourceIndex := sourceIndex.getD outputIndex
  outputIndex := outputIndex
  callId :=
    if callId = "" then makeSyntheticCallId tools.responseId (sourceIndex.getD 0) else callId
  itemId := makeFunctionCallItemIdStable tools.responseId outputIndex

/-- The creation of an object, with `_index`. -/
def create (tools : ToolCallCollection) (acc : ToolCallAccumulator) : ToolCallCollection :=
  { tools with
    accs := tools.accs ++ [acc]
    byCallId :=
      if acc.callId = "" then tools.byCallId
      else tools.byCallId.set acc.callId tools.accs.length
    bySourceIndex := tools.bySourceIndex.set acc.sourceIndex tools.accs.length }

/-- `ensure`: the object of a fragment, created when it is new. -/
def ensure (tools : ToolCallCollection) (outputIndex : ℕ) (callId : String)
    (sourceIndex : Option ℤ) : ℕ × ToolCallCollection :=
  match tools.get callId sourceIndex with
  | some ref =>
    if callId = "" then (ref, tools)
    else
      let tools := tools.modify ref (·.bindCallId callId)
      (ref, { tools with byCallId := tools.byCallId.set callId ref })
  | none =>
    (tools.accs.length,
      tools.create (tools.newAccumulator outputIndex callId sourceIndex))

/-- The positions `list_all` visits: each object once, at its first mention. -/
def refs (tools : ToolCallCollection) : List ℕ :=
  (tools.byCallId.values ++ tools.bySourceIndex.values).eraseDups

/-- `list_all`. -/
def listAll (tools : ToolCallCollection) : List ToolCallAccumulator :=
  tools.refs.filterMap (tools.accs[·]?)

/-- `incomplete`. -/
def incomplete (tools : ToolCallCollection) : List ToolCallAccumulator :=
  tools.listAll.filter fun acc => !acc.isComplete

/-! ### Which objects are still referenced -/

variable {tools : ToolCallCollection} {ref : ℕ} {callId : String} {sourceIndex : Option ℤ}

theorem mem_refs : ref ∈ tools.refs
    ↔ (∃ k, tools.byCallId.get? k = some ref) ∨ ∃ i, tools.bySourceIndex.get? i = some ref := by
  unfold refs
  rw [List.mem_eraseDups, List.mem_append, Dict.mem_values, Dict.mem_values]

theorem nodup_refs (tools : ToolCallCollection) : tools.refs.Nodup := nodup_eraseDups _

theorem mem_listAll {acc : ToolCallAccumulator} :
    acc ∈ tools.listAll ↔ ∃ ref ∈ tools.refs, tools.accs[ref]? = some acc := by
  unfold listAll
  rw [List.mem_filterMap]

theorem filterMap_range_getElem? {α : Type} (l : List α) :
    (List.range l.length).filterMap (l[·]?) = l := by
  induction l using List.reverseRecOn with
  | nil => rfl
  | append_singleton l a ih =>
      rw [List.length_append, List.length_singleton, List.range_succ, List.filterMap_append]
      have front : (List.range l.length).filterMap ((l ++ [a])[·]?)
          = (List.range l.length).filterMap (l[·]?) :=
        List.filterMap_congr fun i mem => List.getElem?_append_left (List.mem_range.mp mem)
      rw [front, ih]
      simp

theorem listAll_perm (covers : ∀ ref, ref ∈ tools.refs ↔ ref < tools.accs.length) :
    tools.listAll.Perm tools.accs := by
  have positions : tools.refs.Perm (List.range tools.accs.length) :=
    (List.perm_ext_iff_of_nodup (nodup_refs tools) List.nodup_range).mpr fun ref =>
      (covers ref).trans List.mem_range.symm
  have listed := positions.filterMap (tools.accs[·]?)
  rw [filterMap_range_getElem?] at listed
  exact listed

theorem mem_refs_of_get (found : tools.get callId sourceIndex = some ref) :
    ref ∈ tools.refs := by
  rw [mem_refs]
  unfold get at found
  split at found
  case h_1 byId =>
    split at byId
    case isTrue _ => cases byId
    case isFalse _ => exact .inl ⟨callId, byId.trans found⟩
  case h_2 =>
    split at found
    case h_1 index => exact .inr ⟨index, found⟩
    case h_2 => cases found

@[simp] theorem refs_modify (f : ToolCallAccumulator → ToolCallAccumulator) :
    (tools.modify ref f).refs = tools.refs := rfl

@[simp] theorem accs_modify (f : ToolCallAccumulator → ToolCallAccumulator) :
    (tools.modify ref f).accs = tools.accs.modify ref f := rfl

theorem ensure_of_get (outputIndex : ℕ) (found : tools.get callId sourceIndex = some ref) :
    (tools.ensure outputIndex callId sourceIndex).1 = ref
      ∧ (tools.ensure outputIndex callId sourceIndex).2.accs
          = tools.accs.modify ref (·.bindCallId callId)
      ∧ ∀ r, r ∈ (tools.ensure outputIndex callId sourceIndex).2.refs ↔ r ∈ tools.refs := by
  unfold ensure
  rw [found]
  by_cases unnamed : callId = ""
  · subst unnamed
    exact ⟨rfl, (List.modify_id _ _).symm, fun r => Iff.rfl⟩
  · dsimp only
    rw [if_neg unnamed]
    refine ⟨rfl, rfl, fun r => ?_⟩
    have known := mem_refs_of_get found
    rw [mem_refs] at known ⊢
    rw [mem_refs]
    simp only [modify, Dict.get?_set]
    constructor
    · rintro (⟨k, stored⟩ | byIndex)
      · split at stored
        case isTrue _ => cases stored; exact known
        case isFalse _ => exact .inl ⟨k, stored⟩
      · exact .inr byIndex
    · rintro (⟨k, stored⟩ | byIndex)
      · by_cases same : k = callId
        · -- the id was known, so the lookup found this very object
          subst same
          have byId : tools.get k sourceIndex = some r := by simp [get, unnamed, stored]
          obtain rfl : ref = r := Option.some.inj (found.symm.trans byId)
          exact .inl ⟨k, by simp⟩
        · exact .inl ⟨k, by simp [same, stored]⟩
      · exact .inr byIndex

/-- A reference to `ref` that storing under these two keys leaves in place. -/
def KeepsReference (tools : ToolCallCollection) (callId : String) (index : ℤ) (ref : ℕ) : Prop :=
  (∃ k, k ≠ callId ∧ tools.byCallId.get? k = some ref)
    ∨ ∃ i, i ≠ index ∧ tools.bySourceIndex.get? i = some ref

instance (tools : ToolCallCollection) (callId : String) (index : ℤ) (ref : ℕ) :
    Decidable (tools.KeepsReference callId index ref) :=
  decidable_of_iff
    ((∃ entry ∈ tools.byCallId.entries, entry.1 ≠ callId ∧ entry.2 = ref)
      ∨ ∃ entry ∈ tools.bySourceIndex.entries, entry.1 ≠ index ∧ entry.2 = ref) <| by
    unfold KeepsReference
    simp only [← Dict.mem_entries, Prod.exists]
    constructor
    · rintro (⟨k, r, mem, other, rfl⟩ | ⟨i, r, mem, other, rfl⟩)
      · exact .inl ⟨k, other, mem⟩
      · exact .inr ⟨i, other, mem⟩
    · rintro (⟨k, other, mem⟩ | ⟨i, other, mem⟩)
      · exact .inl ⟨k, ref, mem, other, rfl⟩
      · exact .inr ⟨i, ref, mem, other, rfl⟩

theorem KeepsReference.mem_refs {index : ℤ} (kept : tools.KeepsReference callId index ref) :
    ref ∈ tools.refs := by
  rw [ToolCallCollection.mem_refs]
  exact kept.imp (fun ⟨k, _, stored⟩ => ⟨k, stored⟩) fun ⟨i, _, stored⟩ => ⟨i, stored⟩

theorem mem_refs_create {acc : ToolCallAccumulator} (named : acc.callId ≠ "") :
    ref ∈ (tools.create acc).refs
      ↔ ref = tools.accs.length ∨ tools.KeepsReference acc.callId acc.sourceIndex ref := by
  rw [mem_refs]
  simp only [create, named, if_false, Dict.get?_set, KeepsReference]
  constructor
  · rintro (⟨k, stored⟩ | ⟨i, stored⟩)
    · split at stored
      case isTrue _ => exact .inl (Option.some.inj stored).symm
      case isFalse other => exact .inr (.inl ⟨k, other, stored⟩)
    · split at stored
      case isTrue _ => exact .inl (Option.some.inj stored).symm
      case isFalse other => exact .inr (.inr ⟨i, other, stored⟩)
  · rintro (rfl | ⟨k, other, stored⟩ | ⟨i, other, stored⟩)
    · exact .inl ⟨acc.callId, by simp⟩
    · exact .inl ⟨k, by simp [other, stored]⟩
    · exact .inr ⟨i, by simp [other, stored]⟩

theorem modify_create (tools : ToolCallCollection) (acc : ToolCallAccumulator)
    (f : ToolCallAccumulator → ToolCallAccumulator) :
    ((tools.create acc).modify tools.accs.length f).accs = tools.accs ++ [f acc] := by
  show (tools.accs ++ [acc]).modify tools.accs.length f = tools.accs ++ [f acc]
  induction tools.accs with
  | nil => rfl
  | cons first rest ih =>
      show first :: (rest ++ [acc]).modify rest.length f = _
      rw [ih, List.cons_append]

theorem newAccumulator_callId_ne (tools : ToolCallCollection) (outputIndex : ℕ)
    (callId : String) (sourceIndex : Option ℤ) :
    (tools.newAccumulator outputIndex callId sourceIndex).callId ≠ "" := by
  unfold newAccumulator
  split
  case isTrue _ => simp [makeSyntheticCallId]
  case isFalse named => exact named

theorem ensure_mem_refs (tools : ToolCallCollection) (outputIndex : ℕ) (callId : String)
    (sourceIndex : Option ℤ) :
    (tools.ensure outputIndex callId sourceIndex).1
      ∈ (tools.ensure outputIndex callId sourceIndex).2.refs := by
  cases found : tools.get callId sourceIndex with
  | some ref =>
      obtain ⟨position, _, refs⟩ := ensure_of_get outputIndex found
      rw [refs, position]
      exact mem_refs_of_get found
  | none =>
      unfold ensure
      rw [found]
      exact (mem_refs_create (newAccumulator_callId_ne _ _ _ _)).mpr (.inl rfl)

/-! ### What holds of every object -/

/-- Every object satisfies `P`, and every reference leads to an object. -/
structure Holds (P : ToolCallAccumulator → Prop) (tools : ToolCallCollection) : Prop where
  refs_valid : ∀ ref ∈ tools.refs, ref < tools.accs.length
  each : ∀ acc ∈ tools.accs, P acc

namespace Holds

variable {P : ToolCallAccumulator → Prop}

theorem fresh (P : ToolCallAccumulator → Prop) (responseId : String) :
    Holds P { responseId := responseId } := by
  refine ⟨fun ref mem => ?_, nofun⟩
  simp [refs] at mem

/-- With every reference leading somewhere, `list_all` is empty only when nothing is
referenced. -/
theorem listAll_isEmpty (h : Holds P tools) : tools.listAll.isEmpty = tools.refs.isEmpty := by
  have same : tools.listAll = [] ↔ tools.refs = [] := by
    constructor
    · intro none
      refine List.eq_nil_iff_forall_not_mem.mpr fun ref mem => ?_
      have listed : _ ∈ tools.listAll :=
        mem_listAll.mpr ⟨ref, mem, List.getElem?_eq_getElem (h.refs_valid ref mem)⟩
      rw [none] at listed
      cases listed
    · intro none
      unfold listAll
      rw [none]
      rfl
  rw [Bool.eq_iff_iff, List.isEmpty_iff, List.isEmpty_iff, same]

theorem modify_at (h : Holds P tools) (ref : ℕ) {f : ToolCallAccumulator → ToolCallAccumulator}
    (kept : ∀ acc, tools.accs[ref]? = some acc → P acc → P (f acc)) :
    Holds P (tools.modify ref f) where
  refs_valid := fun r mem => by
    rw [accs_modify, List.length_modify]
    exact h.refs_valid r mem
  each := fun acc mem => by
    obtain ⟨r, found⟩ := List.mem_iff_getElem?.mp mem
    rw [accs_modify, List.getElem?_modify] at found
    obtain ⟨old, held, rfl⟩ := Option.map_eq_some_iff.mp found
    have inside := h.each old (List.mem_of_getElem? held)
    split
    case isTrue here =>
      subst here
      exact kept old held inside
    case isFalse _ => exact inside

theorem modify (h : Holds P tools) (ref : ℕ) {f : ToolCallAccumulator → ToolCallAccumulator}
    (kept : ∀ acc, P acc → P (f acc)) : Holds P (tools.modify ref f) :=
  h.modify_at ref fun acc _ good => kept acc good

theorem get (h : Holds P tools) (found : tools.get callId sourceIndex = some ref) :
    ∃ acc, tools.accs[ref]? = some acc ∧ P acc := by
  have low := h.refs_valid ref (mem_refs_of_get found)
  exact ⟨_, List.getElem?_eq_getElem low, h.each _ (List.getElem_mem low)⟩

theorem ensure (h : Holds P tools) (outputIndex : ℕ) (sourceIndex : Option ℤ)
    (bound : ∀ acc, P acc → P (acc.bindCallId callId))
    (new : P (tools.newAccumulator outputIndex callId sourceIndex)) :
    Holds P (tools.ensure outputIndex callId sourceIndex).2
      ∧ (tools.ensure outputIndex callId sourceIndex).1
        < (tools.ensure outputIndex callId sourceIndex).2.accs.length := by
  cases found : tools.get callId sourceIndex with
  | some ref =>
      obtain ⟨position, accs, refs⟩ := ensure_of_get outputIndex found
      have low := h.refs_valid ref (mem_refs_of_get found)
      refine ⟨⟨fun r mem => ?_, fun acc mem => ?_⟩, ?_⟩
      · rw [accs, List.length_modify]
        exact h.refs_valid r ((refs r).mp mem)
      · rw [accs] at mem
        exact (h.modify ref bound).each acc mem
      · rw [position, accs, List.length_modify]
        exact low
  | none =>
      have made : tools.ensure outputIndex callId sourceIndex = (tools.accs.length,
          tools.create (tools.newAccumulator outputIndex callId sourceIndex)) := by
        unfold ToolCallCollection.ensure
        rw [found]
      rw [made]
      have length : (tools.create (tools.newAccumulator outputIndex callId sourceIndex)).accs.length
          = tools.accs.length + 1 := List.length_append
      refine ⟨⟨fun r mem => ?_, fun acc mem => ?_⟩, ?_⟩
      · rw [length]
        rcases (mem_refs_create (newAccumulator_callId_ne _ _ _ _)).mp mem with rfl | kept
        · exact Nat.lt_succ_self _
        · exact Nat.lt_succ_of_lt (h.refs_valid r kept.mem_refs)
      · rcases List.mem_append.mp mem with inside | last
        · exact h.each acc inside
        · rw [List.mem_singleton.mp last]
          exact new
      · rw [length]
        exact Nat.lt_succ_self _

end Holds

end ToolCallCollection

end Zhongzhuan.Protocol
