import Zhongzhuan.Responses.StreamShape

/-!
# Ordinary calls in the stream, and its end

The part of the invariant that can break.  A call is closed by its terminator or, at the
end, by the loop over the calls still referenced.  So the stream stays well formed as long
as nothing arrives for a call that is done, and no call that is open loses its last
reference; `Admissible` says this of the state before a chunk.

* `translateToolCall_shaped` and `translateToolCallDone_shaped` are the two branches;
  `SameItem` collects what a fragment leaves alone.
* `closeOpenItems_shaped` says that the end of the stream closes whatever is open.
-/

namespace Zhongzhuan.Responses

open Kit Protocol

variable {env : Env} {events : List Event} {p : Pipeline}

/-! ## What a fragment leaves alone -/

/-- Two states of one call that agree on its item and on how far it has come. -/
structure SameItem (acc acc' : ToolCallAccumulator) : Prop where
  itemAdded : acc'.itemAdded = acc.itemAdded
  itemDone : acc'.itemDone = acc.itemDone
  argumentsDone : acc'.argumentsDone = acc.argumentsDone
  outputIndex : acc'.outputIndex = acc.outputIndex
  itemId : acc'.itemId = acc.itemId

namespace SameItem

variable {acc acc' acc'' : ToolCallAccumulator}

theorem refl (acc : ToolCallAccumulator) : SameItem acc acc := ⟨rfl, rfl, rfl, rfl, rfl⟩

theorem trans (first : SameItem acc acc') (second : SameItem acc' acc'') :
    SameItem acc acc'' where
  itemAdded := second.itemAdded.trans first.itemAdded
  itemDone := second.itemDone.trans first.itemDone
  argumentsDone := second.argumentsDone.trans first.argumentsDone
  outputIndex := second.outputIndex.trans first.outputIndex
  itemId := second.itemId.trans first.itemId

theorem announced (same : SameItem acc acc') (h : Announced acc) : Announced acc' where
  added := same.itemAdded.trans h.added
  identified := same.itemId ▸ h.identified
  pending := fun undone => by
    rw [same.argumentsDone]
    exact h.pending (same.itemDone ▸ undone)

theorem toolItemId (same : SameItem acc acc') (h : acc.itemId ≠ "") :
    toolItemId acc' = toolItemId acc := by
  unfold Responses.toolItemId
  rw [same.itemId, if_neg h, if_neg h]

theorem bindCallId (acc : ToolCallAccumulator) (callId : String) :
    SameItem acc (acc.bindCallId callId) := by
  unfold ToolCallAccumulator.bindCallId
  split <;> exact ⟨rfl, rfl, rfl, rfl, rfl⟩

theorem replaceName (acc : ToolCallAccumulator) (name : String) :
    SameItem acc (acc.replaceName name) := by
  unfold ToolCallAccumulator.replaceName
  split <;> exact ⟨rfl, rfl, rfl, rfl, rfl⟩

theorem nameSpace (acc : ToolCallAccumulator) (nameSpace : String) :
    SameItem acc { acc with nameSpace := nameSpace } := ⟨rfl, rfl, rfl, rfl, rfl⟩

theorem appendArguments (acc : ToolCallAccumulator) (fragment : String) :
    SameItem acc (acc.appendArguments fragment) := ⟨rfl, rfl, rfl, rfl, rfl⟩

theorem restoreName (acc : ToolCallAccumulator) (name : String) :
    SameItem acc (acc.restoreName name) := by
  unfold ToolCallAccumulator.restoreName
  have named := replaceName acc name
  dsimp only
  split
  · exact named
  · exact (named.trans (nameSpace _ _)).trans (replaceName _ _)

theorem applyNamespace (acc : ToolCallAccumulator) (ns : String) :
    SameItem acc (acc.applyNamespace ns) := by
  unfold ToolCallAccumulator.applyNamespace
  split
  · exact refl acc
  · dsimp only
    split
    · exact (nameSpace _ _).trans (replaceName _ _)
    · exact nameSpace _ _

theorem fragment (acc : ToolCallAccumulator) (name ns arguments : String) :
    SameItem acc ((acc.absorbName name ns).appendArguments arguments) :=
  ((restoreName acc name).trans (applyNamespace _ ns)).trans (appendArguments _ arguments)

end SameItem

section Calls

variable {tools : ToolCallCollection} {ref : ℕ} {acc : ToolCallAccumulator}

/-- A call to which fragments and a terminator may still come. -/
def Undone (tools : ToolCallCollection) (ref : ℕ) : Prop :=
  ∀ acc, tools.accs[ref]? = some acc → acc.itemDone = false

theorem callItem_of_undone (mem : ref ∈ tools.refs) (found : tools.accs[ref]? = some acc)
    (undone : acc.itemDone = false) :
    callItem tools ref = some ((acc.outputIndex : ℤ), some (.str (toolItemId acc))) := by
  simp [callItem, mem, found, undone]

theorem callItem_of_not_mem (unknown : ref ∉ tools.refs) : callItem tools ref = none := by
  simp [callItem, unknown]

/-- Two collections with the same references and objects that agree on their items have the
same open items. -/
theorem callItem_congr {tools' : ToolCallCollection}
    (refs : ∀ r, r ∈ tools'.refs ↔ r ∈ tools.refs) (r : ℕ)
    (objects : ∀ acc, tools.accs[r]? = some acc →
      ∃ acc', tools'.accs[r]? = some acc' ∧ SameItem acc acc' ∧ acc.itemId ≠ "")
    (valid : r ∈ tools.refs → r < tools.accs.length) :
    callItem tools' r = callItem tools r := by
  by_cases mem : r ∈ tools.refs
  · have found := List.getElem?_eq_getElem (valid mem)
    obtain ⟨acc', found', same, identified⟩ := objects _ found
    simp only [callItem, mem, (refs r).mpr mem, found, found', same.itemDone, same.outputIndex,
      same.toolItemId identified]
  · rw [callItem_of_not_mem mem, callItem_of_not_mem (mt (refs r).mp mem)]

theorem callItem_modify (steady : ∀ acc ∈ tools.accs, Announced acc)
    (valid : ∀ r ∈ tools.refs, r < tools.accs.length)
    {f : ToolCallAccumulator → ToolCallAccumulator} (same : ∀ acc, SameItem acc (f acc))
    {tools' : ToolCallCollection} (accs : tools'.accs = tools.accs.modify ref f)
    (refs : ∀ r, r ∈ tools'.refs ↔ r ∈ tools.refs) (r : ℕ) :
    callItem tools' r = callItem tools r := by
  refine callItem_congr refs r (fun acc found => ?_) (valid r)
  have identified := (steady acc (List.mem_of_getElem? found)).identified
  rw [accs, List.getElem?_modify, found]
  by_cases here : ref = r
  · exact ⟨f acc, by simp [here], same acc, identified⟩
  · exact ⟨acc, by simp [here], .refl acc, identified⟩

theorem mem_modify {f : ToolCallAccumulator → ToolCallAccumulator}
    (mem : acc ∈ tools.accs.modify ref f) :
    acc ∈ tools.accs ∨ ∃ old ∈ tools.accs, acc = f old := by
  obtain ⟨r, found⟩ := List.mem_iff_getElem?.mp mem
  rw [List.getElem?_modify] at found
  cases held : tools.accs[r]? with
  | none => simp [held] at found
  | some old =>
      have inside := List.mem_of_getElem? held
      by_cases here : ref = r
      · exact .inr ⟨old, inside, by simpa [held, here] using found.symm⟩
      · have same : old = acc := by simpa [held, here] using found
        exact .inl (same ▸ inside)

theorem Steady.modify {calls : Dict String SpecialCall} (h : Steady env tools calls)
    {f : ToolCallAccumulator → ToolCallAccumulator}
    (kept : ∀ acc, Announced acc → Announced (f acc)) {tools' : ToolCallCollection}
    (accs : tools'.accs = tools.accs.modify ref f)
    (refs : ∀ r, r ∈ tools'.refs ↔ r ∈ tools.refs) : Steady env tools' calls where
  refs_valid := fun r mem => by
    rw [accs, List.length_modify]
    exact h.refs_valid r ((refs r).mp mem)
  announced := fun acc mem => by
    rw [accs] at mem
    rcases mem_modify mem with inside | ⟨old, inside, rfl⟩
    · exact h.announced acc inside
    · exact kept old (h.announced old inside)
  enabled := h.enabled

/-- A collection with one object more, stored under the keys of `key`. -/
structure Extends (tools tools' : ToolCallCollection) (key acc : ToolCallAccumulator) :
    Prop where
  accs : tools'.accs = tools.accs ++ [acc]
  refs : ∀ r, r ∈ tools'.refs
    ↔ r = tools.accs.length ∨ tools.KeepsReference key.callId key.sourceIndex r

namespace Extends

variable {tools' : ToolCallCollection} {key : ToolCallAccumulator}

theorem found_new (new : Extends tools tools' key acc) :
    tools'.accs[tools.accs.length]? = some acc := by
  rw [new.accs]
  exact List.getElem?_concat_length

theorem found_old (new : Extends tools tools' key acc) (low : ref < tools.accs.length) :
    tools'.accs[ref]? = tools.accs[ref]? := by
  rw [new.accs, List.getElem?_append_left low]

theorem callItem_new (new : Extends tools tools' key acc) (undone : acc.itemDone = false) :
    callItem tools' tools.accs.length
      = some ((acc.outputIndex : ℤ), some (.str (toolItemId acc))) :=
  callItem_of_undone ((new.refs _).mpr (.inl rfl)) new.found_new undone

theorem callItem_old (new : Extends tools tools' key acc)
    (valid : ∀ r ∈ tools.refs, r < tools.accs.length)
    (keeps : ∀ r ∈ tools.refs, Undone tools r →
      tools.KeepsReference key.callId key.sourceIndex r)
    (other : ref ≠ tools.accs.length) : callItem tools' ref = callItem tools ref := by
  by_cases mem : ref ∈ tools.refs
  · obtain ⟨old, held⟩ : ∃ old, tools.accs[ref]? = some old :=
      ⟨_, List.getElem?_eq_getElem (valid ref mem)⟩
    have held' := (new.found_old (valid ref mem)).trans held
    cases finished : old.itemDone with
    | true => simp [callItem, held, held', finished]
    | false =>
        have kept := keeps ref mem fun acc' found => by
          cases held.symm.trans found
          exact finished
        rw [callItem_of_undone mem held finished,
          callItem_of_undone ((new.refs ref).mpr (.inr kept)) held' finished]
  · rw [callItem_of_not_mem mem, callItem_of_not_mem]
    intro now
    rcases (new.refs ref).mp now with same | kept
    · exact other same
    · exact mem kept.mem_refs

theorem steady {calls : Dict String SpecialCall} (new : Extends tools tools' key acc)
    (h : Steady env tools calls) (announced : Announced acc) : Steady env tools' calls where
  refs_valid := fun r mem => by
    rw [new.accs, List.length_append]
    rcases (new.refs r).mp mem with rfl | kept
    · exact Nat.lt_succ_self _
    · exact Nat.lt_succ_of_lt (h.refs_valid r kept.mem_refs)
  announced := fun old mem => by
    rw [new.accs, List.mem_append, List.mem_singleton] at mem
    rcases mem with inside | rfl
    · exact h.announced old inside
    · exact announced
  enabled := h.enabled

end Extends

end Calls

/-! ## Fragments and terminators -/

instance (tools : ToolCallCollection) (ref : ℕ) : Decidable (Undone tools ref) :=
  decidable_of_iff (∀ acc ∈ tools.accs[ref]?, acc.itemDone = false) Iff.rfl

/-- The validation ends in an exception. -/
def isRaised : ToolCallAccumulator.Verdict → Bool
  | .raised _ => true
  | _ => false

/-- The arguments a terminator completes make `json.loads` raise something uncaught. -/
def Raises (env : Env) (tools : ToolCallCollection) (ref : ℕ) (arguments : String) : Prop :=
  ∀ acc ∈ tools.accs[ref]?,
    isRaised ((acc.appendArguments arguments).validate env.loads) = true

instance (env : Env) (tools : ToolCallCollection) (ref : ℕ) (arguments : String) :
    Decidable (Raises env tools ref arguments) :=
  inferInstanceAs (Decidable (∀ acc ∈ tools.accs[ref]?, _ = true))

/-- **The chunks that keep the stream well formed**, by the state they meet: what arrives for
a known call finds it not done (or raises), and a new call leaves every open call a
reference. -/
def Admissible (env : Env) (p : Pipeline) : Chunk → Prop
  | .toolCall callId name _ nameSpace sourceIndex =>
    Pipeline.specialKind env name nameSpace = none →
      match p.tools.get callId sourceIndex with
      | some ref => Undone p.tools ref
      | none =>
        ∀ ref ∈ p.tools.refs, Undone p.tools ref →
          p.tools.KeepsReference
            (p.tools.newAccumulator p.outputIndex callId sourceIndex).callId
            (p.tools.newAccumulator p.outputIndex callId sourceIndex).sourceIndex ref
  | .toolCallDone callId arguments sourceIndex =>
    p.specialCalls.get? callId = none →
      ∀ ref ∈ p.tools.get callId sourceIndex,
        Undone p.tools ref ∨ Raises env p.tools ref arguments
  | _ => True

instance (env : Env) (p : Pipeline) : (c : Chunk) → Decidable (Admissible env p c)
  | .toolCall callId name _ nameSpace sourceIndex =>
    have : Decidable (match p.tools.get callId sourceIndex with
      | some ref => Undone p.tools ref
      | none =>
        ∀ ref ∈ p.tools.refs, Undone p.tools ref →
          p.tools.KeepsReference
            (p.tools.newAccumulator p.outputIndex callId sourceIndex).callId
            (p.tools.newAccumulator p.outputIndex callId sourceIndex).sourceIndex ref) :=
      match p.tools.get callId sourceIndex with
      | some _ => inferInstance
      | none => inferInstance
    inferInstanceAs (Decidable (Pipeline.specialKind env name nameSpace = none → _))
  | .toolCallDone callId arguments sourceIndex =>
    inferInstanceAs (Decidable (p.specialCalls.get? callId = none →
      ∀ ref ∈ p.tools.get callId sourceIndex,
        Undone p.tools ref ∨ Raises env p.tools ref arguments))
  | .text _ | .reasoning _ | .rawOutputItem _ _ | .finish => inferInstanceAs (Decidable True)

theorem translateToolCall_of_known {callId name fragment nameSpace : String}
    {sourceIndex : Option ℤ} {ref : ℕ} {acc : ToolCallAccumulator}
    (found : p.tools.get callId sourceIndex = some ref)
    (held : p.tools.accs[ref]? = some acc) (added : acc.itemAdded = true) :
    ∃ tools : ToolCallCollection,
      tools.accs = p.tools.accs.modify ref (fun acc =>
          ((acc.bindCallId callId).absorbName name nameSpace).appendArguments fragment)
        ∧ (∀ r, r ∈ tools.refs ↔ r ∈ p.tools.refs)
        ∧ tools.bySourceIndex = p.tools.bySourceIndex
        ∧ p.translateToolCall callId name fragment nameSpace sourceIndex
          = ({ p with tools := tools, state := .streaming },
              [argumentsDelta acc.outputIndex (((acc.bindCallId callId).absorbName name
                nameSpace).appendArguments fragment).callId fragment]) := by
  obtain ⟨position, bound, refs⟩ := ToolCallCollection.ensure_of_get p.outputIndex found
  have same : SameItem acc
      (((acc.bindCallId callId).absorbName name nameSpace).appendArguments fragment) :=
    (SameItem.bindCallId acc callId).trans (SameItem.fragment _ name nameSpace fragment)
  have keys : (p.tools.ensure p.outputIndex callId sourceIndex).2.bySourceIndex
      = p.tools.bySourceIndex := by
    unfold ToolCallCollection.ensure
    rw [found]
    dsimp only
    split <;> rfl
  unfold Pipeline.translateToolCall
  dsimp only
  rw [position]
  generalize (p.tools.ensure p.outputIndex callId sourceIndex).2 = tools at bound refs keys ⊢
  have accs : (tools.modify ref fun acc =>
      (acc.absorbName name nameSpace).appendArguments fragment).accs
        = p.tools.accs.modify ref (fun acc =>
          ((acc.bindCallId callId).absorbName name nameSpace).appendArguments fragment) := by
    rw [ToolCallCollection.accs_modify, bound, List.modify_modify_eq]
    rfl
  refine ⟨_, accs, refs, keys, ?_⟩
  rw [accs, List.getElem?_modify, held]
  simp only [if_true, Option.map_eq_map, Option.map_some]
  rw [if_pos (same.itemAdded.trans added), same.outputIndex]

theorem fragment_shaped (h : Shaped env events p) {callId name fragment nameSpace : String}
    {sourceIndex : Option ℤ} {ref : ℕ} (found : p.tools.get callId sourceIndex = some ref)
    (undone : Undone p.tools ref) :
    Shaped env (events ++ (p.translateToolCall callId name fragment nameSpace sourceIndex).2)
      (p.translateToolCall callId name fragment nameSpace sourceIndex).1 := by
  have mem := ToolCallCollection.mem_refs_of_get found
  obtain ⟨acc, held⟩ : ∃ acc, p.tools.accs[ref]? = some acc :=
    ⟨_, List.getElem?_eq_getElem (h.steady.refs_valid ref mem)⟩
  have announced := h.steady.announced acc (List.mem_of_getElem? held)
  obtain ⟨tools, accs, refs, _, translated⟩ :=
    @translateToolCall_of_known p callId name fragment nameSpace sourceIndex ref acc found held
      announced.added
  have same : ∀ acc, SameItem acc
      (((acc.bindCallId callId).absorbName name nameSpace).appendArguments fragment) :=
    fun acc => (SameItem.bindCallId acc callId).trans (SameItem.fragment _ name nameSpace fragment)
  rw [translated]
  have here := callItem_of_undone mem held (undone acc held)
  have used := h.uses (o := .call ref) here (mark_argumentsDelta acc.outputIndex
    (((acc.bindCallId callId).absorbName name nameSpace).appendArguments fragment).callId fragment)
  refine used.congr ?_ (Nat.le_refl _)
    (h.steady.modify (fun acc => (same acc).announced) accs refs)
  funext o
  cases o with
  | call r => exact callItem_modify h.steady.announced h.steady.refs_valid same accs refs r
  | _ => rfl

/-- The call a first fragment leaves in the collection. -/
def firstFragment (p : Pipeline) (callId name fragment nameSpace : String)
    (sourceIndex : Option ℤ) : ToolCallAccumulator :=
  ((p.tools.newAccumulator p.outputIndex callId sourceIndex).absorbName name
    nameSpace).appendArguments fragment

/-- The collection after a first fragment. -/
def withFirstFragment (p : Pipeline) (callId name fragment nameSpace : String)
    (sourceIndex : Option ℤ) : ToolCallCollection :=
  let new := p.tools.newAccumulator p.outputIndex callId sourceIndex
  ((p.tools.create new).modify p.tools.accs.length fun acc =>
      (acc.absorbName name nameSpace).appendArguments fragment).modify
    p.tools.accs.length fun acc => { acc with itemAdded := true }

section FirstFragment

variable {callId name fragment nameSpace : String} {sourceIndex : Option ℤ}

theorem sameItem_firstFragment :
    SameItem (p.tools.newAccumulator p.outputIndex callId sourceIndex)
      (firstFragment p callId name fragment nameSpace sourceIndex) :=
  SameItem.fragment _ _ _ _

theorem translateToolCall_of_new (unknown : p.tools.get callId sourceIndex = none) :
    p.translateToolCall callId name fragment nameSpace sourceIndex
      = ({ p with
            tools := withFirstFragment p callId name fragment nameSpace sourceIndex
            outputIndex := p.outputIndex + 1
            state := .streaming },
          [itemAdded p.outputIndex (functionCallItem
              (firstFragment p callId name fragment nameSpace sourceIndex) .inProgress ""),
            argumentsDelta p.outputIndex
              (firstFragment p callId name fragment nameSpace sourceIndex).callId
              fragment]) := by
  have ensured : p.tools.ensure p.outputIndex callId sourceIndex = (p.tools.accs.length,
      p.tools.create (p.tools.newAccumulator p.outputIndex callId sourceIndex)) := by
    unfold ToolCallCollection.ensure
    rw [unknown]
  unfold Pipeline.translateToolCall
  rw [ensured]
  dsimp only
  rw [ToolCallCollection.modify_create, List.getElem?_concat_length]
  have same : SameItem _ (firstFragment p callId name fragment nameSpace sourceIndex) :=
    sameItem_firstFragment
  have unannounced :
      ¬ (firstFragment p callId name fragment nameSpace sourceIndex).itemAdded = true := by
    rw [same.itemAdded]
    exact Bool.false_ne_true
  have index : (firstFragment p callId name fragment nameSpace sourceIndex).outputIndex
      = p.outputIndex := same.outputIndex
  unfold firstFragment at unannounced index ⊢
  dsimp only
  rw [if_neg unannounced, index, Nat.max_eq_right (Nat.le_succ _)]
  rfl

theorem extends_withFirstFragment :
    Extends p.tools (withFirstFragment p callId name fragment nameSpace sourceIndex)
      (p.tools.newAccumulator p.outputIndex callId sourceIndex)
      { firstFragment p callId name fragment nameSpace sourceIndex with itemAdded := true } where
  accs := by
    show ((p.tools.create _).accs.modify _ _).modify _ _ = _
    rw [List.modify_modify_eq]
    exact ToolCallCollection.modify_create p.tools _ _
  refs := fun r => ToolCallCollection.mem_refs_create
    (ToolCallCollection.newAccumulator_callId_ne p.tools p.outputIndex callId sourceIndex)

theorem firstFragment_shaped (h : Shaped env events p)
    (unknown : p.tools.get callId sourceIndex = none)
    (keeps : ∀ ref ∈ p.tools.refs, Undone p.tools ref →
      p.tools.KeepsReference
        (p.tools.newAccumulator p.outputIndex callId sourceIndex).callId
        (p.tools.newAccumulator p.outputIndex callId sourceIndex).sourceIndex ref) :
    Shaped env (events ++ (p.translateToolCall callId name fragment nameSpace sourceIndex).2)
      (p.translateToolCall callId name fragment nameSpace sourceIndex).1 := by
  let acc := firstFragment p callId name fragment nameSpace sourceIndex
  have same : SameItem _ acc := sameItem_firstFragment
  have new : Extends p.tools _ _ { acc with itemAdded := true } := extends_withFirstFragment
  have announced : Announced { acc with itemAdded := true } := by
    refine ⟨rfl, ?_, fun _ => same.argumentsDone⟩
    show acc.itemId ≠ ""
    rw [same.itemId]
    simp [ToolCallCollection.newAccumulator, makeFunctionCallItemIdStable]
  have vacant : p.owned (.call p.tools.accs.length) = none :=
    callItem_of_not_mem fun mem => absurd (h.steady.refs_valid _ mem) (Nat.lt_irrefl _)
  have here : callItem (withFirstFragment p callId name fragment nameSpace sourceIndex)
      p.tools.accs.length = some ((p.outputIndex : ℤ), some (.str (toolItemId acc))) := by
    have index : acc.outputIndex = p.outputIndex := same.outputIndex
    rw [new.callItem_new same.itemDone, ← index]
    rfl
  rw [translateToolCall_of_new unknown]
  have opened := h.opens (o := .call p.tools.accs.length)
    (q := { p with
      tools := withFirstFragment p callId name fragment nameSpace sourceIndex
      outputIndex := p.outputIndex + 1
      state := .streaming })
    (mark_itemAdded p.outputIndex (functionCallItem acc .inProgress "")) vacant here ?_
    (Nat.lt_succ_self _) (new.steady h.steady announced)
  · have used := opened.uses (o := .call p.tools.accs.length) here
      (mark_argumentsDelta p.outputIndex acc.callId fragment)
    rw [List.append_assoc] at used
    exact used
  · intro o other
    cases o with
    | call r => exact new.callItem_old h.steady.refs_valid keeps fun same => other (by rw [same])
    | _ => rfl

end FirstFragment

theorem terminator_shaped (h : Shaped env events p) {ref : ℕ} {acc : ToolCallAccumulator}
    (mem : ref ∈ p.tools.refs) (held : p.tools.accs[ref]? = some acc)
    (undone : acc.itemDone = false) {f : ToolCallAccumulator → ToolCallAccumulator}
    (finished : ∀ acc, (f acc).itemDone = true)
    (announced : ∀ acc, Announced acc → Announced (f acc)) {e : Event}
    (mark : e.mark = .closes acc.outputIndex (some (.str (toolItemId acc)))) (failed : Bool) :
    Shaped env (events ++ [e])
      { p with tools := p.tools.modify ref f, hadInvalidToolArgs := failed } := by
  refine h.closes (o := .call ref) mark (callItem_of_undone mem held undone) ?_ ?_ rfl
    (h.steady.modify announced rfl fun r => Iff.rfl)
  · have now : (p.tools.modify ref f).accs[ref]? = some (f acc) := by
      rw [ToolCallCollection.accs_modify, List.getElem?_modify, held]
      simp
    show callItem (p.tools.modify ref f) ref = none
    unfold callItem
    rw [now, ToolCallCollection.refs_modify, if_pos mem]
    exact if_pos (finished acc)
  · intro o other
    cases o with
    | call r =>
        have differ : ref ≠ r := fun same => other (by rw [same])
        show callItem (p.tools.modify ref f) r = callItem p.tools r
        unfold callItem
        rw [ToolCallCollection.accs_modify, List.getElem?_modify, ToolCallCollection.refs_modify]
        simp [differ]
    | _ => rfl

theorem translateToolCallDone_shaped (h : Shaped env events p) {callId arguments : String}
    {sourceIndex : Option ℤ}
    (undone : ∀ ref ∈ p.tools.get callId sourceIndex,
      Undone p.tools ref ∨ Raises env p.tools ref arguments) :
    Shaped env
      (events ++ (p.translateToolCallDone env callId arguments sourceIndex).yielded)
      (p.translateToolCallDone env callId arguments sourceIndex).pipeline := by
  unfold Pipeline.translateToolCallDone
  cases found : p.tools.get callId sourceIndex with
  | none =>
      show Shaped env (events ++ []) p
      rwa [List.append_nil]
  | some ref =>
      have mem := ToolCallCollection.mem_refs_of_get found
      obtain ⟨acc, held⟩ : ∃ acc, p.tools.accs[ref]? = some acc :=
        ⟨_, List.getElem?_eq_getElem (h.steady.refs_valid ref mem)⟩
      have same : ∀ acc, SameItem acc (acc.appendArguments arguments) := fun acc =>
        SameItem.appendArguments acc arguments
      let tools := p.tools.modify ref (·.appendArguments arguments)
      have appended : Shaped env events { p with tools := tools } := by
        refine h.congr ?_ (Nat.le_refl _)
          (h.steady.modify (fun acc => (same acc).announced) rfl fun _ => Iff.rfl)
        funext o
        cases o with
        | call r =>
            have accs : tools.accs = p.tools.accs.modify ref (·.appendArguments arguments) := rfl
            exact callItem_modify h.steady.announced h.steady.refs_valid same accs
              (fun _ => Iff.rfl) r
        | _ => rfl
      have now : tools.accs[ref]? = some (acc.appendArguments arguments) := by
        show (p.tools.accs.modify ref _)[ref]? = _
        rw [List.getElem?_modify, held]
        simp
      have verdict : (acc.appendArguments arguments).itemDone = false
          ∨ isRaised ((acc.appendArguments arguments).validate env.loads) = true :=
        (undone ref found).imp (fun undone => undone acc held) fun raises => raises acc held
      dsimp only
      rw [show (p.tools.modify ref (·.appendArguments arguments)).accs[ref]? = _ from now]
      dsimp only
      split
      case h_1 message _ =>
        show Shaped env (events ++ []) { p with tools := tools }
        rwa [List.append_nil]
      case h_2 valid =>
        have open_ := verdict.resolve_right (by rw [valid]; exact Bool.false_ne_true)
        have announcedDone := appended.plain (mark_argumentsDone acc.outputIndex
          (acc.appendArguments arguments).callId (acc.appendArguments arguments).arguments) rfl
        have closed := terminator_shaped announcedDone mem now open_
          (f := fun acc => (acc.noteVerdict .valid).markItemDone) (fun _ => rfl)
          (fun acc h => ⟨h.added, h.identified, nofun⟩)
          (mark_itemDone acc.outputIndex (functionCallItem (acc.appendArguments arguments)
            .completed (acc.appendArguments arguments).arguments)) p.hadInvalidToolArgs
        rw [List.append_assoc] at closed
        exact closed
      case h_3 invalid =>
        have open_ := verdict.resolve_right (by rw [invalid]; exact Bool.false_ne_true)
        exact terminator_shaped appended mem now open_ (f := (·.markItemDone)) (fun _ => rfl)
          (fun acc h => ⟨h.added, h.identified, nofun⟩)
          (mark_itemDone acc.outputIndex (functionCallItem (acc.appendArguments arguments)
            .incomplete (acc.appendArguments arguments).arguments)) true

theorem translateChunk_shaped (h : Shaped env events p) {c : Chunk}
    (admissible : Admissible env p c) :
    Shaped env (events ++ (p.translateChunk env c).yielded) (p.translateChunk env c).pipeline := by
  cases c with
  | text delta => exact translateText_shaped h delta
  | reasoning delta => exact translateReasoning_shaped h delta
  | rawOutputItem event item => exact translateRaw_shaped h event item
  | finish =>
      show Shaped env (events ++ []) _
      rw [List.append_nil]
      exact h.congr rfl (Nat.le_refl _) h.steady
  | toolCall callId name arguments nameSpace sourceIndex =>
      cases special : Pipeline.specialKind env name nameSpace with
      | some found =>
          rw [Pipeline.translateChunk_of_special special]
          show Shaped env (events ++ []) _
          rw [List.append_nil]
          exact accumulateSpecial_shaped h (specialKind_enabled special) _ _ _
      | none =>
          have allowed := admissible special
          rw [Pipeline.translateChunk_of_ordinary special]
          cases found : p.tools.get callId sourceIndex with
          | some ref =>
              rw [found] at allowed
              exact fragment_shaped h found allowed
          | none =>
              rw [found] at allowed
              exact firstFragment_shaped h found allowed
  | toolCallDone callId arguments sourceIndex =>
      rcases finalizeSpecialCall_shaped h callId arguments with
        ⟨ordinary, _⟩ | ⟨done, same, shaped⟩
      · rw [Pipeline.translateChunk_of_ordinary_done ordinary]
        exact translateToolCallDone_shaped h (admissible ordinary)
      · rw [Pipeline.translateChunk, same]
        exact shaped

/-! ## The end of the stream -/

theorem closeMessage_shaped (h : Shaped env events p) (incomplete : Bool) :
    Shaped env (events ++ (p.closeMessage incomplete).2) (p.closeMessage incomplete).1 := by
  unfold Pipeline.closeMessage
  split
  case h_1 _ => rwa [List.append_nil]
  case h_2 item held =>
    dsimp only
    have before : Shaped env
        (events ++ ([textDone item.outputIndex item.id (String.join p.messageText)]
          ++ if p.messagePartId.isSome then
              [contentPartDone item.outputIndex item.id (String.join p.messageText)]
            else [])) p := by
      rw [← List.append_assoc]
      split
      · exact (h.plain rfl rfl).plain rfl rfl
      · rw [List.append_nil]
        exact h.plain rfl rfl
    rw [← List.append_assoc]
    refine before.closes (mark_itemDone _ _) (owned_message held) rfl ?_ rfl h.steady
    intro o other
    cases o with
    | message => exact absurd rfl other
    | _ => rfl

theorem isPending_eq {acc : ToolCallAccumulator} (h : Announced acc) :
    Pipeline.isPending acc = !acc.itemDone := by
  unfold Pipeline.isPending ToolCallAccumulator.isComplete
  cases finished : acc.itemDone with
  | true => simp
  | false => simp [h.added, h.pending finished]

theorem callItem_closeTools (h : Shaped env events p) (incomplete : Bool) (ref : ℕ) :
    callItem (p.closeTools incomplete).1.tools ref = none := by
  have refs : (p.closeTools incomplete).1.tools.refs = p.tools.refs := rfl
  by_cases mem : ref ∈ p.tools.refs
  · have low := h.steady.refs_valid ref mem
    obtain ⟨acc, held⟩ : ∃ acc, p.tools.accs[ref]? = some acc :=
      ⟨_, List.getElem?_eq_getElem low⟩
    have pending := isPending_eq (h.steady.announced acc (List.mem_of_getElem? held))
    have now : (p.closeTools incomplete).1.tools.accs[ref]?
        = some (if Pipeline.isPending acc then acc.markItemDone else acc) := by
      simp [Pipeline.closeTools, held, mem]
    unfold callItem
    rw [refs, now, if_pos mem, pending]
    cases finished : acc.itemDone with
    | true => simp [finished]
    | false => simp [ToolCallAccumulator.markItemDone]
  · exact callItem_of_not_mem mem

theorem marks_of_pending (h : Shaped env events p) (status : Status) {refs : List ℕ}
    (known : ∀ ref ∈ refs, ref ∈ p.tools.refs) :
    (((refs.filterMap (p.tools.accs[·]?)).filter Pipeline.isPending).map fun acc =>
        (itemDone acc.outputIndex (bareFunctionCallItem acc status acc.arguments)).mark)
      = ((refs.map Place.call).filterMap p.owned).map fun item => .closes item.1 item.2 := by
  induction refs with
  | nil => rfl
  | cons ref refs ih =>
      have mem := known ref List.mem_cons_self
      obtain ⟨acc, held⟩ : ∃ acc, p.tools.accs[ref]? = some acc :=
        ⟨_, List.getElem?_eq_getElem (h.steady.refs_valid ref mem)⟩
      have pending := isPending_eq (h.steady.announced acc (List.mem_of_getElem? held))
      have rest := ih fun r inside => known r (List.mem_cons_of_mem _ inside)
      rw [List.filterMap_cons_some held, List.filter_cons, pending, List.map_cons]
      cases finished : acc.itemDone with
      | true =>
          have vacant : p.owned (.call ref) = none := by
            simp [Pipeline.owned, callItem, held, finished]
          rw [List.filterMap_cons_none vacant]
          exact rest
      | false =>
          have here : p.owned (.call ref) = _ := callItem_of_undone mem held finished
          rw [List.filterMap_cons_some here]
          exact congrArg (_ :: ·) rest

theorem closeTools_shaped (h : Shaped env events p) (incomplete : Bool) :
    Shaped env (events ++ (p.closeTools incomplete).2) (p.closeTools incomplete).1 := by
  have marks : (p.closeTools incomplete).2.map Event.mark
      = ((p.tools.refs.map Place.call).filterMap p.owned).map
          fun item => .closes item.1 item.2 := by
    rw [← marks_of_pending h (closingStatus incomplete) fun _ mem => mem]
    exact List.map_map
  have nodup : (p.tools.refs.map Place.call).Nodup :=
    p.tools.nodup_refs.map fun _ _ same => Place.call.inj same
  refine ⟨?_, ?_, h.quiet_append ?_⟩
  · rw [List.map_append, marks]
    refine h.serves.closesAll nodup fun o => ?_
    cases o with
    | call ref =>
        show callItem _ ref = _
        rw [callItem_closeTools h incomplete ref]
        by_cases mem : ref ∈ p.tools.refs
        · simp [mem]
        · simp [mem, Pipeline.owned, callItem_of_not_mem mem]
    | _ => simp [Pipeline.owned, Pipeline.closeTools]
  · refine ⟨fun ref mem => ?_, fun acc mem => ?_, h.steady.enabled⟩
    · show ref < (p.tools.accs.mapIdx _).length
      rw [List.length_mapIdx]
      exact h.steady.refs_valid ref mem
    · obtain ⟨ref, low, rfl⟩ := List.mem_mapIdx.mp mem
      have old := h.steady.announced _ (List.getElem_mem low)
      split
      · exact ⟨old.added, old.identified, fun pending => by cases pending⟩
      · exact old
  · intro e mem
    obtain ⟨acc, _, rfl⟩ := List.mem_map.mp mem
    rfl

theorem closeRaw_shaped (h : Shaped env events p) :
    Shaped env (events ++ p.closeRaw.2) p.closeRaw.1 := by
  have marks : p.closeRaw.2.map Event.mark
      = ((p.openRawItems.keys.map Place.raw).filterMap p.owned).map
          fun item => .closes item.1 item.2 := by
    have held : (p.openRawItems.keys.map Place.raw).filterMap p.owned
        = p.openRawItems.entries.map fun entry =>
            ((entry.1 : ℤ), Fields.get entry.2 "id") := by
      rw [Dict.keys, List.map_map, List.filterMap_map, ← List.filterMap_eq_map]
      refine List.filterMap_congr fun entry mem => ?_
      have found := Dict.mem_entries.mp (show (entry.1, entry.2) ∈ _ from mem)
      simp [Pipeline.owned, found]
    rw [held, List.map_map, Pipeline.closeRaw, List.map_map]
    refine List.map_congr_left fun entry _ => ?_
    show Mark.closes (entry.1 : ℤ)
      (Fields.get (Fields.put "status" (.str Status.incomplete.value) entry.2) "id") = _
    rw [Fields.get_put_of_ne (show "id" ≠ "status" by decide)]
    rfl
  have nodup : (p.openRawItems.keys.map Place.raw).Nodup :=
    p.openRawItems.nodup.map fun _ _ same => Place.raw.inj same
  refine ⟨?_, h.steady, h.quiet_append fun e mem => ?_⟩
  swap
  · obtain ⟨entry, _, rfl⟩ := List.mem_map.mp mem
    rfl
  rw [List.map_append, marks]
  refine h.serves.closesAll nodup fun o => ?_
  cases o with
  | raw index =>
      show none = _
      by_cases mem : index ∈ p.openRawItems.keys
      · simp [mem]
      · have vacant : p.openRawItems.get? index = none := by
          simpa [Dict.mem_keys] using mem
        simp [mem, Pipeline.owned, vacant]
  | _ => simp [Pipeline.owned, Pipeline.closeRaw]

theorem closeReasoning_openReasoning (incomplete : Bool) :
    (p.closeReasoning incomplete).1.openReasoning = none := by
  unfold Pipeline.closeReasoning
  split
  case h_1 closed => exact closed
  case h_2 _ _ => rfl

theorem closeMessage_openMessage (incomplete : Bool) :
    (p.closeMessage incomplete).1.openMessage = none := by
  unfold Pipeline.closeMessage
  split
  case h_1 closed => exact closed
  case h_2 _ _ => rfl

theorem closeMessage_openReasoning (incomplete : Bool) :
    (p.closeMessage incomplete).1.openReasoning = p.openReasoning := by
  unfold Pipeline.closeMessage
  split <;> rfl

theorem closeOpenItems_shaped (h : Shaped env events p) (incomplete : Bool) :
    Shaped env (events ++ (p.closeOpenItems incomplete).2) (p.closeOpenItems incomplete).1
      ∧ ∀ o, (p.closeOpenItems incomplete).1.owned o = none := by
  have reasoning := closeReasoning_shaped h incomplete
  have message := closeMessage_shaped reasoning incomplete
  have tools := closeTools_shaped message incomplete
  have raw := closeRaw_shaped tools
  constructor
  · unfold Pipeline.closeOpenItems
    simpa only [List.append_assoc] using raw
  · intro o
    cases o with
    | reasoning =>
        have closed : ((p.closeReasoning incomplete).1.closeMessage incomplete).1.openReasoning
            = none := by rw [closeMessage_openReasoning, closeReasoning_openReasoning]
        exact Option.map_eq_none_iff.mpr closed
    | message =>
        exact Option.map_eq_none_iff.mpr (closeMessage_openMessage incomplete)
    | call ref => exact callItem_closeTools message incomplete ref
    | raw index => rfl

end Zhongzhuan.Responses
