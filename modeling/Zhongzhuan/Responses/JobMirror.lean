import Mathlib
import Zhongzhuan.Kit.Sort
import Zhongzhuan.Responses.AdapterImage
import Zhongzhuan.Responses.ReasoningRows
import Zhongzhuan.Responses.Reuse

/-!
# The worker beside the live pipeline

Both read the same chunks, with branches of their own, into the same collection of calls.
This module runs them side by side.

* `ToolCallCollection.bare` takes the marks of the closing off the calls: the two readers
  close calls at different times, and agree on the rest.
* `addFragment` is what a fragment does to a collection in either of them.
* `Mirrors` relates the two states; `Mirrors.step` is one chunk, and `mirrors_run` a stream
  of chunks that both have a branch for.
* `SameParts.outputItems`: their output arrays then agree but for the status of the items.
-/

namespace Zhongzhuan.Protocol

open Kit

/-! ## A call without the marks of its closing -/

/-- The object with the two marks of its closing taken off. -/
def ToolCallAccumulator.bare (acc : ToolCallAccumulator) : ToolCallAccumulator :=
  { acc with argumentsDone := false, itemDone := false }

namespace ToolCallCollection

variable {tools : ToolCallCollection} {ref : ℕ} {f : ToolCallAccumulator → ToolCallAccumulator}

/-- All objects without these marks. -/
def bare (tools : ToolCallCollection) : ToolCallCollection :=
  { tools with accs := tools.accs.map ToolCallAccumulator.bare }

theorem bare_modify (commutes : ∀ acc, (f acc).bare = f acc.bare) :
    (tools.modify ref f).bare = tools.bare.modify ref f := by
  unfold bare modify
  congr 1
  refine List.ext_getElem? fun r => ?_
  simp only [List.getElem?_map, List.getElem?_modify]
  cases tools.accs[r]? with
  | none => rfl
  | some acc =>
      by_cases here : ref = r
      · simp [here, commutes]
      · simp [here]

theorem bare_modify_of_marks (marks : ∀ acc, (f acc).bare = acc.bare) :
    (tools.modify ref f).bare = tools.bare := by
  unfold bare modify
  congr 1
  refine List.ext_getElem? fun r => ?_
  simp only [List.getElem?_map, List.getElem?_modify]
  cases tools.accs[r]? with
  | none => rfl
  | some acc =>
      by_cases here : ref = r
      · simp [here, marks]
      · simp [here]

theorem bare_create (acc : ToolCallAccumulator) :
    (tools.create acc).bare = tools.bare.create acc.bare := by
  unfold create bare
  simp only [List.map_append, List.map_singleton, List.length_map]
  rfl

theorem bare_ensure (outputIndex : ℕ) (callId : String) (sourceIndex : Option ℤ) :
    tools.bare.ensure outputIndex callId sourceIndex
      = ((tools.ensure outputIndex callId sourceIndex).1,
          (tools.ensure outputIndex callId sourceIndex).2.bare) := by
  have get : tools.bare.get callId sourceIndex = tools.get callId sourceIndex := rfl
  have bind : ∀ acc : ToolCallAccumulator,
      (acc.bindCallId callId).bare = acc.bare.bindCallId callId := by
    intro acc
    unfold ToolCallAccumulator.bindCallId
    split <;> rfl
  unfold ensure
  rw [get]
  cases tools.get callId sourceIndex with
  | some ref =>
      dsimp only
      split
      · rfl
      · rw [← bare_modify bind]
        rfl
  | none =>
      dsimp only
      rw [bare_create]
      congr 1
      exact List.length_map _

theorem listAll_bare : tools.bare.listAll = tools.listAll.map ToolCallAccumulator.bare := by
  have refs : tools.bare.refs = tools.refs := rfl
  unfold listAll
  rw [refs, List.map_filterMap]
  refine List.filterMap_congr fun ref _ => ?_
  show (tools.accs.map ToolCallAccumulator.bare)[ref]? = _
  rw [List.getElem?_map]

theorem Holds.of_bare {P : ToolCallAccumulator → Prop} {tools' : ToolCallCollection}
    (h : tools.Holds P) (same : tools'.bare = tools.bare)
    (blind : ∀ acc : ToolCallAccumulator, P acc.bare ↔ P acc) : tools'.Holds P := by
  have accs : tools'.accs.map ToolCallAccumulator.bare
      = tools.accs.map ToolCallAccumulator.bare := congrArg ToolCallCollection.accs same
  have refs : tools'.bare.refs = tools.bare.refs := by rw [same]
  refine ⟨fun ref mem => ?_, fun acc mem => ?_⟩
  · have length := congrArg List.length accs
    rw [List.length_map, List.length_map] at length
    rw [length]
    exact h.refs_valid ref (refs ▸ mem)
  · have listed : acc.bare ∈ tools.accs.map ToolCallAccumulator.bare :=
      accs ▸ List.mem_map_of_mem mem
    obtain ⟨old, inside, marks⟩ := List.mem_map.mp listed
    exact (blind acc).mp (marks ▸ (blind old).mpr (h.each old inside))

/-- What a fragment does to the collection, in both readers: `ensure`, the name, the
arguments, and the mark of the announcement. -/
def addFragment (tools : ToolCallCollection) (outputIndex : ℕ)
    (callId name fragment nameSpace : String) (sourceIndex : Option ℤ) : ToolCallCollection :=
  let found := tools.ensure outputIndex callId sourceIndex
  found.2.modify found.1 fun acc =>
    { (acc.absorbName name nameSpace).appendArguments fragment with itemAdded := true }

section Fragment

variable {outputIndex : ℕ} {callId name fragment nameSpace : String} {sourceIndex : Option ℤ}

theorem bare_addFragment :
    (tools.addFragment outputIndex callId name fragment nameSpace sourceIndex).bare
      = tools.bare.addFragment outputIndex callId name fragment nameSpace sourceIndex := by
  have replace : ∀ (acc : ToolCallAccumulator) name,
      (acc.replaceName name).bare = acc.bare.replaceName name := by
    intro acc name
    unfold ToolCallAccumulator.replaceName
    split <;> rfl
  have restore : ∀ acc : ToolCallAccumulator,
      (acc.restoreName name).bare = acc.bare.restoreName name := by
    intro acc
    unfold ToolCallAccumulator.restoreName
    dsimp only
    split
    · exact replace _ _
    · rw [replace, ← replace acc]
      rfl
  have apply : ∀ acc : ToolCallAccumulator,
      (acc.applyNamespace nameSpace).bare = acc.bare.applyNamespace nameSpace := by
    intro acc
    unfold ToolCallAccumulator.applyNamespace
    split
    · rfl
    · dsimp only
      have name : acc.bare.name = acc.name := rfl
      rw [name]
      split
      · rw [replace]
        rfl
      · rfl
  unfold addFragment
  dsimp only
  rw [bare_ensure, bare_modify]
  intro acc
  show { (((acc.restoreName name).applyNamespace nameSpace).bare.appendArguments fragment)
    with itemAdded := true } = _
  rw [apply, restore]
  rfl

/-- The collection before the mark of the announcement. -/
def absorbed (tools : ToolCallCollection) (outputIndex : ℕ)
    (callId name fragment nameSpace : String) (sourceIndex : Option ℤ) : ToolCallCollection :=
  let found := tools.ensure outputIndex callId sourceIndex
  found.2.modify found.1 fun acc => (acc.absorbName name nameSpace).appendArguments fragment

/-- **A fragment among calls that are all announced**: the object it is added to is announced
exactly when it is known, and a new one has the index it was given. -/
theorem absorbed_spec (h : tools.Holds fun acc => acc.itemAdded = true) :
    ∃ acc, (tools.absorbed outputIndex callId name fragment nameSpace sourceIndex).accs[
        (tools.ensure outputIndex callId sourceIndex).1]? = some acc
      ∧ (acc.itemAdded = true ∧ (tools.get callId sourceIndex).isSome
          ∧ tools.absorbed outputIndex callId name fragment nameSpace sourceIndex
            = tools.addFragment outputIndex callId name fragment nameSpace sourceIndex
        ∨ acc.itemAdded = false ∧ tools.get callId sourceIndex = none
          ∧ acc.outputIndex = outputIndex
          ∧ ((tools.absorbed outputIndex callId name fragment nameSpace sourceIndex).modify
              (tools.ensure outputIndex callId sourceIndex).1 fun acc =>
                { acc with itemAdded := true })
            = tools.addFragment outputIndex callId name fragment nameSpace sourceIndex) := by
  have same : ∀ acc : ToolCallAccumulator,
      Responses.SameItem acc ((acc.absorbName name nameSpace).appendArguments fragment) :=
    fun acc => .fragment acc name nameSpace fragment
  cases known : tools.get callId sourceIndex with
  | some ref =>
      obtain ⟨position, accs, _⟩ := ensure_of_get outputIndex known
      obtain ⟨old, held, added⟩ := h.get known
      have bound : (tools.ensure outputIndex callId sourceIndex).2.accs[ref]?
          = some (old.bindCallId callId) := by
        rw [accs, List.getElem?_modify, held]
        simp
      have still : (old.bindCallId callId).itemAdded = true :=
        (Responses.SameItem.bindCallId old callId).itemAdded.trans added
      unfold absorbed addFragment
      dsimp only
      rw [position]
      refine ⟨_, by rw [accs_modify, List.getElem?_modify, bound]; simp, .inl
        ⟨(same _).itemAdded.trans still, rfl, ?_⟩⟩
      unfold modify
      congr 1
      refine List.ext_getElem? fun r => ?_
      rw [List.getElem?_modify, List.getElem?_modify]
      by_cases here : ref = r
      · subst here
        have marked := (same (old.bindCallId callId)).itemAdded.trans still
        rw [bound]
        simp only [if_true]
        rw [← marked]
        rfl
      · simp [here]
  | none =>
      have ensured : tools.ensure outputIndex callId sourceIndex = (tools.accs.length,
          tools.create (tools.newAccumulator outputIndex callId sourceIndex)) := by
        unfold ensure
        rw [known]
      unfold absorbed addFragment
      rw [ensured]
      dsimp only
      refine ⟨_, by rw [modify_create, List.getElem?_concat_length], .inr ⟨?_, rfl, ?_, ?_⟩⟩
      · exact (same _).itemAdded
      · exact (same _).outputIndex
      · unfold modify
        dsimp only
        rw [List.modify_modify_eq]
        rfl

theorem Holds.addFragment {P : ToolCallAccumulator → Prop} (h : tools.Holds P)
    (bound : ∀ acc, P acc → P (acc.bindCallId callId))
    (absorbed : ∀ acc, P acc ∨ acc = tools.newAccumulator outputIndex callId sourceIndex →
      P { (acc.absorbName name nameSpace).appendArguments fragment with itemAdded := true }) :
    (tools.addFragment outputIndex callId name fragment nameSpace sourceIndex).Holds P := by
  unfold ToolCallCollection.addFragment
  dsimp only
  cases known : tools.get callId sourceIndex with
  | some ref =>
      obtain ⟨position, accs, refs⟩ := ensure_of_get outputIndex known
      rw [position]
      have ensured : (tools.ensure outputIndex callId sourceIndex).2.Holds P := by
        refine ⟨fun r mem => ?_, fun acc mem => ?_⟩
        · rw [accs, List.length_modify]
          exact h.refs_valid r ((refs r).mp mem)
        · rw [accs] at mem
          exact (h.modify ref bound).each acc mem
      exact ensured.modify ref fun acc good => absorbed acc (.inl good)
  | none =>
      have ensured : tools.ensure outputIndex callId sourceIndex = (tools.accs.length,
          tools.create (tools.newAccumulator outputIndex callId sourceIndex)) := by
        unfold ToolCallCollection.ensure
        rw [known]
      rw [ensured]
      dsimp only
      refine ⟨fun r mem => ?_, fun acc mem => ?_⟩
      · rw [modify_create, List.length_append]
        rcases (mem_refs_create (newAccumulator_callId_ne _ _ _ _)).mp mem with rfl | kept
        · exact Nat.lt_succ_self _
        · exact Nat.lt_succ_of_lt (h.refs_valid r kept.mem_refs)
      · rw [modify_create, List.mem_append, List.mem_singleton] at mem
        rcases mem with inside | rfl
        · exact h.each acc inside
        · exact absorbed _ (.inr rfl)

end Fragment

end ToolCallCollection

end Zhongzhuan.Protocol

namespace Zhongzhuan.Responses

open Kit Protocol

variable {env : Env} {p : Pipeline} {job : JobEnv} {run : JobRun}

/-! ## The two readers, chunk by chunk -/

theorem translateToolCall_tools (h : p.tools.Holds fun acc => acc.itemAdded = true)
    (callId name fragment nameSpace : String) (sourceIndex : Option ℤ) :
    (p.translateToolCall callId name fragment nameSpace sourceIndex).1
      = { p with
          tools := p.tools.addFragment p.outputIndex callId name fragment nameSpace sourceIndex
          outputIndex := if (p.tools.get callId sourceIndex).isSome then p.outputIndex
            else p.outputIndex + 1
          state := .streaming } := by
  obtain ⟨acc, here, ⟨added, known, same⟩ | ⟨unadded, unknown, index, same⟩⟩ :=
    @ToolCallCollection.absorbed_spec p.tools p.outputIndex callId name fragment nameSpace
      sourceIndex h
  · unfold ToolCallCollection.absorbed at here same
    unfold Pipeline.translateToolCall
    dsimp only at here same ⊢
    rw [here]
    dsimp only
    rw [if_pos added, if_pos known, same]
  · unfold ToolCallCollection.absorbed at here same
    unfold Pipeline.translateToolCall
    dsimp only at here same ⊢
    rw [here]
    dsimp only
    rw [if_neg (by simp [unadded]), if_neg (by simp [unknown]), same, index,
      Nat.max_eq_right (Nat.le_succ _)]

theorem JobRun.addFragment_tools (h : run.tools.Holds fun acc => acc.itemAdded = true)
    (outputIndex : ℕ) (callId name fragment nameSpace : String) (sourceIndex : ℤ) :
    (run.addFragment outputIndex callId name fragment nameSpace sourceIndex).1
      = { run with
          tools := run.tools.addFragment outputIndex callId name fragment nameSpace
            (some sourceIndex) } := by
  obtain ⟨acc, here, ⟨added, known, same⟩ | ⟨unadded, unknown, index, same⟩⟩ :=
    @ToolCallCollection.absorbed_spec run.tools outputIndex callId name fragment nameSpace
      (some sourceIndex) h
  · unfold ToolCallCollection.absorbed at here same
    unfold JobRun.addFragment
    dsimp only at here same ⊢
    rw [here]
    dsimp only
    rw [if_pos added, same]
  · unfold ToolCallCollection.absorbed at here same
    unfold JobRun.addFragment
    dsimp only at here same ⊢
    rw [here]
    dsimp only
    rw [if_neg (by simp [unadded]), same]

theorem addFragment_of_known {tools : ToolCallCollection} {callId name fragment nameSpace : String}
    {sourceIndex : Option ℤ} (known : (tools.get callId sourceIndex).isSome)
    (outputIndex other : ℕ) :
    tools.addFragment outputIndex callId name fragment nameSpace sourceIndex
      = tools.addFragment other callId name fragment nameSpace sourceIndex := by
  obtain ⟨ref, found⟩ := Option.isSome_iff_exists.mp known
  unfold ToolCallCollection.addFragment ToolCallCollection.ensure
  rw [found]

theorem JobRun.chargeToolCall_tools (h : run.tools.Holds fun acc => acc.itemAdded = true)
    {ledger : BudgetLedger} {index : ℕ} {callId name fragment nameSpace : String}
    {sourceIndex : ℤ}
    (within : (run.chargeToolCall job ledger index callId name fragment nameSpace
      (some sourceIndex)).halt = none) :
    ∃ calls, (run.chargeToolCall job ledger index callId name fragment nameSpace
        (some sourceIndex)).run
      = { run with
          bgToolCalls := calls
          nextIndex := if (run.tools.get callId (some sourceIndex)).isSome then run.nextIndex
            else run.nextIndex + 1
          tools := run.tools.addFragment run.nextIndex callId name fragment nameSpace
            (some sourceIndex) } := by
  unfold chargeToolCall at within ⊢
  simp only [Option.isSome_some, Bool.true_or, Option.getD_some, if_true] at within ⊢
  cases found : run.tools.get callId (some sourceIndex) with
  | some ref =>
      have known : (run.tools.get callId (some sourceIndex)).isSome := by rw [found]; rfl
      refine ⟨run.bgToolCalls, ?_⟩
      simp only [Option.isSome_some, if_true]
      rw [addFragment_tools h, addFragment_of_known known]
  | none =>
      simp only [found] at within ⊢
      split
      case isTrue beyond => simp [beyond] at within
      case isFalse =>
        exact ⟨run.bgToolCalls + 1, @addFragment_tools
          { run with bgToolCalls := run.bgToolCalls + 1, nextIndex := run.nextIndex + 1 } h
          run.nextIndex callId name fragment nameSpace sourceIndex⟩

theorem JobRun.chargeText_run {ledger : BudgetLedger} {text : String} {tokens : ℤ}
    (nonempty : text ≠ "") (within : (run.chargeText job ledger text tokens).halt = none) :
    (run.chargeText job ledger text tokens).run
      = { run with
          textParts := run.textParts ++ [text]
          messageOutputIndex := some (run.messageOutputIndex.getD run.nextIndex)
          nextIndex := if run.messageOutputIndex.isSome then run.nextIndex
            else run.nextIndex + 1 } := by
  unfold chargeText at within ⊢
  split at within
  · cases within
  · cases run.messageOutputIndex <;> simp [nonempty]

/-! ### Terminators -/

theorem bare_noteVerdict (acc : ToolCallAccumulator) (verdict : ToolCallAccumulator.Verdict) :
    ((acc.noteVerdict verdict).markItemDone).bare = acc.bare := by
  cases verdict <;> rfl

theorem bare_appendArguments_empty (acc : ToolCallAccumulator) :
    (acc.appendArguments "").bare = acc.bare := by
  unfold ToolCallAccumulator.appendArguments ToolCallAccumulator.bare
  rw [String.append_empty]

/-- A terminator without arguments leaves marks and nothing else in the live pipeline. -/
theorem translateToolCallDone_tools (callId : String) (sourceIndex : Option ℤ) :
    ∃ tools failed, tools.bare = p.tools.bare
      ∧ (p.translateToolCallDone env callId "" sourceIndex).pipeline
        = { p with tools := tools, hadInvalidToolArgs := failed } := by
  have appended : ∀ ref, (p.tools.modify ref (·.appendArguments "")).bare = p.tools.bare :=
    fun ref => ToolCallCollection.bare_modify_of_marks bare_appendArguments_empty
  unfold Pipeline.translateToolCallDone
  split
  · exact ⟨_, _, rfl, rfl⟩
  · dsimp only
    split
    · exact ⟨_, _, appended _, rfl⟩
    · split
      · exact ⟨_, _, appended _, rfl⟩
      · exact ⟨_, _, (ToolCallCollection.bare_modify_of_marks fun acc =>
          bare_noteVerdict acc .valid).trans (appended _), rfl⟩
      · exact ⟨_, _, (ToolCallCollection.bare_modify_of_marks fun acc =>
          bare_noteVerdict acc .invalid).trans (appended _), rfl⟩

theorem JobRun.closeToolItem_tools (run : JobRun) (ref : ℕ) :
    ∃ tools, tools.bare = run.tools.bare
      ∧ (run.closeToolItem job ref).run = { run with tools := tools } := by
  unfold closeToolItem
  split
  · exact ⟨_, rfl, rfl⟩
  · split
    · exact ⟨_, rfl, rfl⟩
    · split
      · exact ⟨_, rfl, rfl⟩
      · exact ⟨_, ToolCallCollection.bare_modify_of_marks fun acc => bare_noteVerdict acc _, rfl⟩

theorem JobRun.settleToolCall_tools (run : JobRun) (ledger : BudgetLedger) (callId : String)
    (sourceIndex : Option ℤ) :
    ∃ tools, tools.bare = run.tools.bare
      ∧ (run.settleToolCall job ledger callId "" sourceIndex).run
        = { run with tools := tools } := by
  have appended : ∀ ref, (run.tools.modify ref (·.appendArguments "")).bare = run.tools.bare :=
    fun ref => ToolCallCollection.bare_modify_of_marks bare_appendArguments_empty
  unfold settleToolCall
  cases run.tools.get callId sourceIndex with
  | none => exact ⟨_, rfl, rfl⟩
  | some ref =>
      dsimp only
      split
      · exact ⟨_, rfl, rfl⟩
      · split
        · exact ⟨_, rfl, rfl⟩
        · split
          · exact ⟨_, appended _, rfl⟩
          · split
            · exact ⟨_, appended _, rfl⟩
            · obtain ⟨tools, same, closed⟩ := @closeToolItem_tools job
                { run with tools := run.tools.modify ref (·.appendArguments "") } ref
              exact ⟨tools, same.trans (appended ref), closed⟩

/-! ## The simulation -/

/-- A call that was announced under an id of its own. -/
def Presented (acc : ToolCallAccumulator) : Prop := acc.itemAdded = true ∧ acc.itemId ≠ ""

theorem presented_bare (acc : ToolCallAccumulator) : Presented acc.bare ↔ Presented acc := Iff.rfl

/-- The parts of the output array, in the worker and in the live pipeline: the same calls but
for their marks, the same message, and no item of other origin. -/
structure SameParts (env : Env) (p : Pipeline) (run : JobRun) : Prop where
  tools : run.tools.bare = p.tools.bare
  presented : p.tools.Holds Presented
  message : p.messageItem = run.messageOutputIndex.map fun index =>
    ⟨makeMessageItemId env.responseId index, index⟩
  text : run.textParts = p.messageText
  others : p.synthesizedItems = []

/-- The state of the worker beside that of the live pipeline, between two chunks. -/
structure Mirrors (env : Env) (p : Pipeline) (run : JobRun) : Prop
    extends SameParts env p run where
  index : run.nextIndex = p.outputIndex
  speaking : p.openMessage = p.messageItem
  special : p.specialCalls = .empty
  unthinking : p.openReasoning = none
  thoughtless : p.reasoningText = []

/-- The chunks both readers have a branch for. -/
def Chunk.isShared : Chunk → Bool
  | .rawOutputItem _ _ | .reasoning _ => false
  | _ => true

namespace Mirrors

theorem marked (h : Mirrors env p run) {tools tools' : ToolCallCollection}
    (worker : tools.bare = run.tools.bare) (live : tools'.bare = p.tools.bare)
    (failed : Bool) :
    Mirrors env { p with tools := tools', hadInvalidToolArgs := failed }
      { run with tools := tools } :=
  { h with
    tools := worker.trans (h.tools.trans live.symm)
    presented := h.presented.of_bare live presented_bare }

theorem translateText (h : Mirrors env p run) {delta : String} (nonempty : delta ≠ "")
    (skips : p.openMessage = none → env.emitEmptyReasoning = false ∨ p.tools.refs ≠ [])
    {ledger : BudgetLedger} {tokens : ℤ}
    (within : (run.chargeText job ledger delta tokens).halt = none) :
    Mirrors env (p.translateText env delta).1 (run.chargeText job ledger delta tokens).run := by
  rw [JobRun.chargeText_run nonempty within]
  unfold Pipeline.translateText
  cases spoken : run.messageOutputIndex with
  | some index =>
      have item : p.openMessage = some ⟨makeMessageItemId env.responseId index, index⟩ := by
        rw [h.speaking, h.message, spoken]
        rfl
      simp only [item, Option.isSome_some, if_true]
      exact { h with
        message := by rw [h.message, spoken]; rfl
        text := by rw [h.text]
        speaking := by rw [← item, h.speaking] }
  | none =>
      have silent : p.openMessage = none := by
        rw [h.speaking, h.message, spoken]
        rfl
      have unthinking : p.closeReasoning false = (p, []) := by
        unfold Pipeline.closeReasoning
        rw [h.unthinking]
      have skipped : p.ensureReasoningLifecycle env = (p, []) := by
        unfold Pipeline.ensureReasoningLifecycle
        rcases skips silent with quiet | called
        · simp [quiet]
        · have listed : p.tools.listAll.isEmpty = false := by
            rw [h.presented.listAll_isEmpty]
            exact List.isEmpty_eq_false_iff.mpr called
          simp [listed]
      simp only [silent, Option.isSome_none, Bool.false_eq_true, if_false,
        Pipeline.openMessageItem, unthinking, skipped]
      exact { h with
        index := by rw [h.index]; rfl
        message := by rw [Option.getD_none, h.index]; rfl
        speaking := rfl
        text := by rw [h.text]; rfl }

theorem translateToolCall (h : Mirrors env p run) {callId name fragment nameSpace : String}
    {sourceIndex : ℤ} {ledger : BudgetLedger} {index : ℕ}
    (within : (run.chargeToolCall job ledger index callId name fragment nameSpace
      (some sourceIndex)).halt = none) :
    Mirrors env (p.translateToolCall callId name fragment nameSpace (some sourceIndex)).1
      (run.chargeToolCall job ledger index callId name fragment nameSpace
        (some sourceIndex)).run := by
  have worker : run.tools.Holds Presented := h.presented.of_bare h.tools presented_bare
  have added : ∀ {tools : ToolCallCollection}, tools.Holds Presented →
      tools.Holds fun acc => acc.itemAdded = true :=
    fun held => ⟨held.refs_valid, fun acc mem => (held.each acc mem).1⟩
  obtain ⟨calls, charged⟩ := JobRun.chargeToolCall_tools (added worker) within
  have get : run.tools.get callId (some sourceIndex) = p.tools.get callId (some sourceIndex) := by
    show run.tools.bare.get callId (some sourceIndex) = p.tools.bare.get callId (some sourceIndex)
    rw [h.tools]
  rw [charged, translateToolCall_tools (added h.presented), get]
  exact { h with
    tools := by
      dsimp only
      rw [ToolCallCollection.bare_addFragment, ToolCallCollection.bare_addFragment, h.tools,
        h.index]
    presented := by
      refine h.presented.addFragment (fun acc good => ?_) fun acc known => ⟨rfl, ?_⟩
      · have same := SameItem.bindCallId acc callId
        exact ⟨same.itemAdded.trans good.1, same.itemId ▸ good.2⟩
      · have same := SameItem.fragment acc name nameSpace fragment
        show ((acc.absorbName name nameSpace).appendArguments fragment).itemId ≠ ""
        rw [same.itemId]
        rcases known with good | rfl
        · exact good.2
        · simp [ToolCallCollection.newAccumulator, makeFunctionCallItemIdStable]
    index := by
      dsimp only
      rw [h.index] }

theorem step (h : Mirrors env p run) (alone : env.multiAgent = none)
    (unsearched : env.toolSearchEnabled = false)
    {c : Chunk} (wire : c.Wire) (shared : c.isShared = true)
    (skips : c.isText = true → p.openMessage = none →
      env.emitEmptyReasoning = false ∨ p.tools.refs ≠ [])
    {ledger : BudgetLedger} {index : ℕ}
    (within : (run.chargeChunk job ledger index (.unified c)).halt = none) :
    Mirrors env (p.translateChunk env c).pipeline
      (run.chargeChunk job ledger index (.unified c)).run := by
  cases c with
  | rawOutputItem event item => cases shared
  | reasoning delta => cases shared
  | finish => exact { h with }
  | text delta => exact h.translateText wire (skips rfl) within
  | toolCall callId name arguments nameSpace sourceIndex =>
      obtain ⟨source, rfl⟩ := Option.isSome_iff_exists.mp wire
      have ordinary : Pipeline.specialKind env name nameSpace = none := by
        simp [Pipeline.specialKind, alone, unsearched]
      rw [Pipeline.translateChunk_of_ordinary ordinary]
      exact h.translateToolCall within
  | toolCallDone callId arguments sourceIndex =>
      obtain ⟨rfl, _⟩ := wire
      obtain ⟨tools, worker, settled⟩ :=
        @JobRun.settleToolCall_tools job run ledger callId sourceIndex
      obtain ⟨tools', failed, live, closed⟩ :=
        @translateToolCallDone_tools env p callId sourceIndex
      rw [Pipeline.translateChunk_of_ordinary_done (by rw [h.special]; rfl), closed]
      show Mirrors env _ (run.settleToolCall job ledger callId "" sourceIndex).run
      rw [settled]
      exact h.marked worker live failed

end Mirrors

/-! ## Over a stream -/

/-- The pipeline after some chunks none of which raised. -/
def pipelineAfter (env : Env) (p : Pipeline) (chunks : List Chunk) : Pipeline :=
  runSchedule (fun p c => (p.translateChunk env c).pipeline) p chunks

theorem pipelineAfter_snoc (p : Pipeline) (chunks : List Chunk) (c : Chunk) :
    pipelineAfter env p (chunks ++ [c])
      = ((pipelineAfter env p chunks).translateChunk env c).pipeline :=
  runSchedule_append _ p chunks [c]

theorem runSchedule_pipelineAfter (reliable : Reliable env) (arrivals : List Arrival)
    {loop : Loop} (running : loop.internalError = none) :
    (runSchedule (Loop.receive env) loop arrivals).pipeline
      = pipelineAfter env loop.pipeline (chunksOf arrivals) := by
  induction arrivals generalizing loop with
  | nil => rfl
  | cons arrival rest ih =>
      have next : (loop.receive env arrival).internalError = none :=
        runSchedule_returns reliable [arrival] running
      rw [runSchedule_cons, ih next]
      cases arrival with
      | heartbeat => rw [receive_heartbeat_pipeline]; rfl
      | chunk c => rw [receive_pipeline running]; rfl

/-- The worker after some chunks. -/
def workerAfter (job : JobEnv) (clock : ℕ → ℚ) (chunks : List Chunk) : JobStream :=
  runSchedule (JobStream.turn job) (.start job)
    (chunks.mapIdx fun n c => ⟨clock n, .unified c⟩)

theorem workerAfter_snoc (clock : ℕ → ℚ) (chunks : List Chunk) (c : Chunk) :
    workerAfter job clock (chunks ++ [c])
      = (workerAfter job clock chunks).turn job ⟨clock chunks.length, .unified c⟩ := by
  unfold workerAfter
  rw [List.mapIdx_concat, runSchedule_append]
  rfl

theorem turn_of_running {stream : JobStream} {turn : JobTurn}
    (running : (stream.turn job turn).halt = none) :
    stream.halt = none
      ∧ (stream.run.chargeChunk job stream.ledger stream.index turn.chunk).halt = none
      ∧ (stream.turn job turn).run
        = (stream.run.chargeChunk job stream.ledger stream.index turn.chunk).run := by
  unfold JobStream.turn at running ⊢
  cases halted : stream.halt with
  | some halt =>
      simp only [halted] at running
      cases running
  | none =>
      simp only [halted] at running ⊢
      split at running
      · cases running
      · exact ⟨trivial, running, rfl⟩

/-! ### Which text comes first -/

/-- A chunk after which an empty reasoning item may still be written. -/
def Chunk.isQuiet (env : Env) (c : Chunk) : Bool := !c.isThought && !c.isCall env

theorem textFirst_snoc (chunks : List Chunk) (c : Chunk) :
    textFirst env (chunks ++ [c])
      = (textFirst env chunks || (c.isText && chunks.all (Chunk.isQuiet env))) := by
  induction chunks with
  | nil => simp [textFirst]
  | cons first rest ih =>
      simp only [List.cons_append, textFirst, ih, List.all_cons, Chunk.isQuiet]
      cases first.isText <;> cases first.isThought <;> cases first.isCall env <;> simp

theorem textFirst_of_quiet {chunks : List Chunk} (quiet : chunks.all (Chunk.isQuiet env) = true) :
    textFirst env chunks = chunks.any Chunk.isText := by
  induction chunks with
  | nil => rfl
  | cons first rest ih =>
      rw [List.all_cons, Bool.and_eq_true] at quiet
      rw [textFirst, ih quiet.2, List.any_cons]
      have here : (!first.isThought && !first.isCall env) = true := quiet.1
      rw [here, Bool.true_and]

/-! ### The live pipeline -/

theorem refs_pipelineAfter (env : Env) (chunks : List Chunk) :
    (pipelineAfter env (startLoop env (.fresh env)).pipeline chunks).tools.Holds (fun _ => True)
      ∧ (pipelineAfter env (startLoop env (.fresh env)).pipeline chunks).tools.refs.isEmpty
        = !chunks.any (Chunk.isCall env) := by
  induction chunks using List.reverseRecOn with
  | nil => exact ⟨.fresh _ env.responseId, rfl⟩
  | append_singleton chunks c ih =>
      obtain ⟨held, refs⟩ := @translateChunk_calls env _ ih.1 c
      rw [pipelineAfter_snoc]
      refine ⟨held, ?_⟩
      rw [refs, ih.2, List.any_append]
      simp

theorem remembers_pipelineAfter (env : Env) (chunks : List Chunk) :
    Remembers chunks (pipelineAfter env (startLoop env (.fresh env)).pipeline chunks) := by
  induction chunks using List.reverseRecOn with
  | nil => exact ⟨⟨fun _ => rfl, fun _ => rfl, nofun⟩, rfl, rfl⟩
  | append_singleton chunks c ih =>
      rw [pipelineAfter_snoc]
      exact translateChunk_remembers ih c

/-- **The two readers stay side by side** on a stream of chunks both have a branch for, unless
the live pipeline writes an empty reasoning item before the first text. -/
theorem mirrors_run (same : job.responseId = env.responseId) (alone : env.multiAgent = none)
    (unsearched : env.toolSearchEnabled = false) (clock : ℕ → ℚ) {chunks : List Chunk}
    (wire : AllWire chunks) (shared : ∀ c ∈ chunks, c.isShared = true)
    (skips : env.emitEmptyReasoning = true → textFirst env chunks = false)
    (running : (workerAfter job clock chunks).halt = none) :
    Mirrors env (pipelineAfter env (startLoop env (.fresh env)).pipeline chunks)
      (workerAfter job clock chunks).run := by
  induction chunks using List.reverseRecOn with
  | nil =>
      refine ⟨⟨?_, .fresh _ env.responseId, rfl, rfl, rfl⟩, rfl, rfl, rfl, rfl, rfl⟩
      show (⟨job.responseId, [], _, _⟩ : ToolCallCollection) = ⟨env.responseId, [], _, _⟩
      rw [same]
      rfl
  | append_singleton chunks c ih =>
      rw [workerAfter_snoc] at running ⊢
      obtain ⟨earlier, within, charged⟩ := turn_of_running running
      have before := ih (fun c' mem => wire c' (List.mem_append_left _ mem))
        (fun c' mem => shared c' (List.mem_append_left _ mem))
        (fun emits => by
          have first := skips emits
          rw [textFirst_snoc, Bool.or_eq_false_iff] at first
          exact first.1)
        earlier
      rw [pipelineAfter_snoc, charged]
      have last : c ∈ chunks ++ [c] := List.mem_append_right _ (List.mem_singleton_self c)
      refine before.step alone unsearched (wire c last) (shared c last) ?_ within
      intro text silent
      cases emits : env.emitEmptyReasoning with
      | false => exact .inl rfl
      | true =>
          -- no text so far: a call must have come before this one
          right
          have first := skips emits
          rw [textFirst_snoc, Bool.or_eq_false_iff, text, Bool.true_and] at first
          obtain ⟨noisy, mem, loud⟩ := List.all_eq_false.mp first.2
          have unthinking : noisy.isThought = false := by
            have kind := shared noisy (List.mem_append_left _ mem)
            cases noisy <;> first | rfl | cases kind
          have call : noisy.isCall env = true := by
            simpa [Chunk.isQuiet, unthinking] using loud
          have refs := (refs_pipelineAfter env chunks).2
          rw [List.any_eq_true.mpr ⟨noisy, mem, call⟩] at refs
          exact List.isEmpty_eq_false_iff.mp refs

/-! ## The output arrays -/

/-- What the output array is made of, but for the status of its items. -/
structure SameContent (p q : Pipeline) : Prop where
  messageItem : q.messageItem = p.messageItem
  messageText : q.messageText = p.messageText
  synthesizedItems : q.synthesizedItems = p.synthesizedItems
  tools : q.tools.bare = p.tools.bare

theorem closeOpenItems_content (incomplete : Bool) :
    SameContent p (p.closeOpenItems incomplete).1 := by
  have tools : ∀ q : Pipeline, (q.closeTools incomplete).1.tools.bare = q.tools.bare := by
    intro q
    unfold Pipeline.closeTools ToolCallCollection.bare
    dsimp only
    congr 1
    refine List.ext_getElem? fun r => ?_
    rw [List.getElem?_map, List.getElem?_mapIdx, List.getElem?_map]
    cases q.tools.accs[r]? with
    | none => rfl
    | some acc =>
        simp only [Option.map_some, Option.some.injEq]
        split <;> rfl
  have reasoning : SameContent p (p.closeReasoning incomplete).1 := by
    unfold Pipeline.closeReasoning
    cases p.openReasoning <;> exact ⟨rfl, rfl, rfl, rfl⟩
  have message : ∀ q : Pipeline, SameContent q (q.closeMessage incomplete).1 := by
    intro q
    unfold Pipeline.closeMessage
    cases q.openMessage <;> exact ⟨rfl, rfl, rfl, rfl⟩
  obtain ⟨item, text, others, calls⟩ := message (p.closeReasoning incomplete).1
  exact ⟨item.trans reasoning.messageItem, text.trans reasoning.messageText,
    others.trans reasoning.synthesizedItems,
    (tools _).trans (calls.trans reasoning.tools)⟩

theorem conclude_content (error : Option String) (reason : Option TerminalReason) :
    SameContent p (conclude env p error reason).1 := by
  have noted : ∀ {q : Pipeline}, SameContent p q → ∀ state stats,
      SameContent p { q with state := state, stats := stats } :=
    fun h _ _ => ⟨h.1, h.2, h.3, h.4⟩
  have cut : ∀ reason strict, SameContent p (p.terminalFrames env reason strict).1 :=
    fun reason strict => noted (closeOpenItems_content true) _ _
  unfold conclude
  split
  · exact noted (closeOpenItems_content true) _ _
  · split
    · exact cut _ _
    · split
      · exact cut _ _
      · exact noted (closeOpenItems_content false) _ _

theorem run_content (reliable : Reliable env) (arrivals : List Arrival) (ending : Ending) :
    SameContent (pipelineAfter env (startLoop env (.fresh env)).pipeline (chunksOf arrivals))
      (Responses.run env (.fresh env) arrivals ending).pipeline := by
  have running : (loopOf env (.fresh env) arrivals).internalError = none :=
    runSchedule_returns reliable arrivals rfl
  have after : (loopOf env (.fresh env) arrivals).pipeline
      = pipelineAfter env (startLoop env (.fresh env)).pipeline (chunksOf arrivals) :=
    runSchedule_pipelineAfter reliable arrivals rfl
  rw [run_of_returned running, ← after]
  have done := @conclude_content env
    (noteEnding (loopOf env (.fresh env) arrivals).pipeline ending) none
    (endingReason (loopOf env (.fresh env) arrivals).pipeline arrivals ending)
  cases ending <;> exact ⟨done.1, done.2, done.3, done.4⟩

theorem JobRun.closeOpenItems_tools (run : JobRun) (incomplete : Bool) :
    ∃ tools closed, tools.bare = run.tools.bare
      ∧ (run.closeOpenItems job incomplete).run
        = { run with tools := tools, messageDone := closed } := by
  have calls : ∀ (refs : List ℕ) (run : JobRun), ∃ tools, tools.bare = run.tools.bare
      ∧ (closeCalls job refs run).run = { run with tools := tools } := by
    intro refs
    induction refs with
    | nil => exact fun run => ⟨_, rfl, rfl⟩
    | cons ref rest ih =>
        intro run
        unfold closeCalls
        split
        · exact ih run
        · split
          · obtain ⟨tools, same, closed⟩ := @closeToolItem_tools job run ref
            dsimp only
            split
            · exact ⟨tools, same, closed⟩
            · obtain ⟨tools', same', later⟩ := ih (run.closeToolItem job ref).run
              rw [closed] at same'
              exact ⟨tools', same'.trans same, by rw [later, closed]⟩
          · exact ih run
  unfold closeOpenItems
  split
  · obtain ⟨tools, same, closed⟩ := calls run.tools.refs { run with messageDone := true }
    exact ⟨tools, true, same, closed⟩
  · obtain ⟨tools, same, closed⟩ := calls run.tools.refs run
    exact ⟨tools, run.messageDone, same, closed⟩

/-- Two items that agree on everything but their status. -/
def SameOutput (a b : Fields) : Prop := ∀ key, key ≠ "status" → a.get key = b.get key

theorem sameOutput_of_lists (before after : Fields) (status status' : Json) :
    SameOutput (before ++ ("status", status) :: after)
      (before ++ ("status", status') :: after) := by
  intro key other
  have skip : (key == "status") = false := beq_eq_false_iff_ne.mpr other
  unfold Fields.get
  rw [List.lookup_append, List.lookup_append, List.lookup_cons, List.lookup_cons, skip]

theorem sameOutput_message (item : OpenItem) (incomplete : Bool) (run : JobRun)
    (id : makeMessageItemId job.responseId (run.messageOutputIndex.getD 0) = item.id)
    (text : run.textParts = p.messageText) :
    SameOutput (run.messageItem job incomplete) (p.messageOutput item) := by
  unfold JobRun.messageItem Pipeline.messageOutput
  rw [id, text]
  exact sameOutput_of_lists [_, _, _] _ _ _

theorem sameOutput_call {acc acc' : ToolCallAccumulator} (same : acc.bare = acc'.bare)
    (presented : Presented acc) :
    acc.outputIndex = acc'.outputIndex
      ∧ SameOutput (JobRun.toolItem job acc) (Pipeline.toolOutput acc') := by
  have field : ∀ {β : Type} (f : ToolCallAccumulator → β), f acc.bare = f acc'.bare :=
    fun f => congrArg f same
  have id : acc.itemId = acc'.itemId := field (·.itemId)
  have callId : acc.callId = acc'.callId := field (·.callId)
  have name : acc.name = acc'.name := field (·.name)
  have arguments : acc.arguments = acc'.arguments := field (·.arguments)
  have nameSpace : acc.nameSpace = acc'.nameSpace := field (·.nameSpace)
  refine ⟨field (·.outputIndex), ?_⟩
  unfold JobRun.toolItem Pipeline.toolOutput functionCallItem bareFunctionCallItem toolItemId
  rw [← id, if_neg presented.2, if_neg presented.2, callId, name, arguments, nameSpace]
  exact sameOutput_of_lists [_, _] _ _ _

theorem SameParts.outputItems (h : SameParts env p run) (same : job.responseId = env.responseId)
    (incomplete : Bool) :
    List.Forall₂ SameOutput (run.outputItems job incomplete) p.outputItems := by
  let Related (a b : ℕ × Fields) : Prop := a.1 = b.1 ∧ SameOutput a.2 b.2
  have worker : run.tools.Holds Presented := h.presented.of_bare h.tools presented_bare
  have unfiltered : ∀ {tools : ToolCallCollection}, tools.Holds Presented →
      tools.listAll.filter (·.itemAdded) = tools.listAll := by
    intro tools held
    refine List.filter_eq_self.mpr fun acc mem => ?_
    obtain ⟨ref, _, found⟩ := ToolCallCollection.mem_listAll.mp mem
    exact (held.each acc (List.mem_of_getElem? found)).1
  have message : List.Forall₂ Related
      (run.messageOutputIndex.toList.map fun index => (index, run.messageItem job incomplete))
      (p.messageItem.toList.map fun item => (item.outputIndex, p.messageOutput item)) := by
    rw [h.message]
    cases spoken : run.messageOutputIndex with
    | none => exact .nil
    | some index =>
        refine .cons ⟨rfl, ?_⟩ .nil
        exact sameOutput_message _ incomplete run (by rw [spoken, same]; rfl) h.text
  have calls : List.Forall₂ Related
      (run.tools.listAll.map fun acc => (acc.outputIndex, JobRun.toolItem job acc))
      (p.tools.listAll.map fun acc => (acc.outputIndex, Pipeline.toolOutput acc)) := by
    have bare : run.tools.listAll.map ToolCallAccumulator.bare
        = p.tools.listAll.map ToolCallAccumulator.bare := by
      rw [← ToolCallCollection.listAll_bare, h.tools, ToolCallCollection.listAll_bare]
    rw [← List.forall₂_eq_eq_eq, List.forall₂_map_left_iff, List.forall₂_map_right_iff] at bare
    rw [List.forall₂_map_left_iff, List.forall₂_map_right_iff]
    have each : ∀ acc ∈ run.tools.listAll, Presented acc := by
      intro acc mem
      obtain ⟨ref, _, found⟩ := ToolCallCollection.mem_listAll.mp mem
      exact worker.each acc (List.mem_of_getElem? found)
    exact ((List.forall₂_and_left _ _).mpr ⟨each, bare⟩).imp fun acc acc' both =>
      sameOutput_call both.2 both.1
  have collected : List.Forall₂ Related (run.collectedItems job incomplete) p.collectedItems := by
    unfold JobRun.collectedItems Pipeline.collectedItems
    rw [h.others, List.append_nil, unfiltered worker, unfiltered h.presented]
    exact List.rel_append message calls
  have sorted : List.Forall₂ Related
      ((run.collectedItems job incomplete).mergeSort fun a b => a.1 ≤ b.1)
      (p.collectedItems.mergeSort fun a b => a.1 ≤ b.1) :=
    forall₂_mergeSort collected fun a b a' b' here there => by rw [here.1, there.1]
  unfold JobRun.outputItems Pipeline.outputItems
  rw [List.forall₂_map_left_iff, List.forall₂_map_right_iff]
  exact sorted.imp fun a b related => related.2

end Zhongzhuan.Responses
