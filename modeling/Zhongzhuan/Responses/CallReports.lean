import Zhongzhuan.Responses.Prose

/-!
# What a stream reports about its function calls

`callReports` is the part of a stream that speaks of function calls: the items of type
`function_call` that are announced and closed, with their indexes.  Text, reasoning, items
passed through and tool searches report none; what is left are the two branches for ordinary
calls, the echo of a multi-agent call, and the closing of calls that are still open.
-/

namespace Zhongzhuan.Responses

open Kit Protocol

/-- A function call that an event announces or closes. -/
structure CallReport where
  closing : Bool
  index : ℤ
  item : Fields
deriving DecidableEq, Repr

/-- The item is a function call. -/
def isCallItem (item : Fields) : Bool := item.get "type" = some (.str "function_call")

/-- The report of an item with its index. -/
def reportOf (closing : Bool) (index : ℤ) (item : Fields) : Option CallReport :=
  if isCallItem item then some ⟨closing, index, item⟩ else none

/-- What an event reports. -/
def Event.callReport (e : Event) : Option CallReport :=
  match e.type, e.data.get "item" with
  | .outputItemAdded, some (.obj item) => reportOf false e.outputIndex item
  | .outputItemDone, some (.obj item) => reportOf true e.outputIndex item
  | _, _ => none

/-- What a list of events reports. -/
def callReports (events : List Event) : List CallReport := events.filterMap Event.callReport

variable {env : Env} {p : Pipeline}

@[simp] theorem callReports_nil : callReports [] = [] := rfl

@[simp] theorem callReports_append (events more : List Event) :
    callReports (events ++ more) = callReports events ++ callReports more := by
  unfold callReports
  rw [List.filterMap_append]

theorem callReport_itemAdded (index : ℕ) (item : Fields) :
    (itemAdded index item).callReport = reportOf false index item := rfl

theorem callReport_itemDone (index : ℕ) (item : Fields) :
    (itemDone index item).callReport = reportOf true index item := rfl

theorem reportOf_of_other {item : Fields} (other : isCallItem item = false) (closing : Bool)
    (index : ℤ) : reportOf closing index item = none := by
  unfold reportOf
  rw [other]
  rfl

theorem reportOf_of_call {item : Fields} (call : isCallItem item = true) (closing : Bool)
    (index : ℤ) : reportOf closing index item = some ⟨closing, index, item⟩ := by
  unfold reportOf
  rw [call]
  rfl

/-! ## Prose and items passed through -/

theorem closeReasoning_reports (incomplete : Bool) :
    callReports (p.closeReasoning incomplete).2 = [] := by
  unfold Pipeline.closeReasoning
  split
  · rfl
  · dsimp only
    split <;> rfl

theorem ensureReasoningLifecycle_reports :
    callReports (p.ensureReasoningLifecycle env).2 = [] := by
  unfold Pipeline.ensureReasoningLifecycle
  split
  · rfl
  · split
    · rfl
    · split
      · rfl
      · dsimp only
        rw [callReports_append, callReports_append, closeReasoning_reports]
        rfl

theorem translateText_reports (delta : String) :
    callReports (p.translateText env delta).2 = [] := by
  unfold Pipeline.translateText
  cases held : p.openMessage with
  | some item =>
      simp only [Option.isSome_some, if_true, held]
      rfl
  | none =>
      simp only [Option.isSome_none, Bool.false_eq_true, if_false, Pipeline.openMessageItem]
      rw [callReports_append, callReports_append, callReports_append, closeReasoning_reports,
        ensureReasoningLifecycle_reports]
      rfl

theorem translateReasoning_reports (delta : String) :
    callReports (p.translateReasoning env delta).2 = [] := by
  unfold Pipeline.translateReasoning
  split
  · rfl
  · cases held : p.openReasoning with
    | some item =>
        simp only [Option.isSome_some, if_true, held]
        rfl
    | none => rfl

theorem isCallItem_put {key : String} (other : "type" ≠ key) (v : Json) (item : Fields) :
    isCallItem (item.put key v) = isCallItem item := by
  unfold isCallItem
  rw [Fields.get_put_of_ne other]

theorem translateRaw_reports (event : String) {item : Fields} (other : isCallItem item = false) :
    callReports (p.translateRaw event item).2 = [] := by
  have still : isCallItem (item.put "output_index" (.int p.outputIndex)) = false :=
    (isCallItem_put (by decide) _ item).trans other
  unfold Pipeline.translateRaw
  dsimp only
  split <;> simp [callReports, callReport_itemAdded, callReport_itemDone,
    reportOf_of_other still]

/-! ## Special calls -/

theorem emitSpecialItem_reports (item : Fields) :
    callReports (p.emitSpecialItem item).2
      = (reportOf false p.outputIndex item).toList
        ++ (reportOf true p.outputIndex item).toList := by
  cases call : isCallItem item <;>
    simp [Pipeline.emitSpecialItem, callReports, callReport_itemAdded, callReport_itemDone,
      reportOf, call]

/-! ## The end of the stream -/

theorem closeMessage_reports (incomplete : Bool) :
    callReports (p.closeMessage incomplete).2 = [] := by
  unfold Pipeline.closeMessage
  split
  · rfl
  · dsimp only
    split <;> rfl

theorem closeTools_reports (incomplete : Bool) :
    callReports (p.closeTools incomplete).2
      = (p.tools.listAll.filter Pipeline.isPending).map fun acc =>
          ⟨true, acc.outputIndex,
            bareFunctionCallItem acc (closingStatus incomplete) acc.arguments⟩ := by
  unfold Pipeline.closeTools callReports
  dsimp only
  rw [List.filterMap_map]
  exact congrFun List.filterMap_eq_map _

theorem closeRaw_reports (others : ∀ entry ∈ p.openRawItems.entries, isCallItem entry.2 = false) :
    callReports p.closeRaw.2 = [] := by
  unfold Pipeline.closeRaw callReports
  dsimp only
  rw [List.filterMap_map, List.filterMap_eq_nil_iff]
  intro entry mem
  refine reportOf_of_other ?_ true entry.1
  exact (isCallItem_put (by decide) _ entry.2).trans (others entry mem)

theorem closeMessage_rest (incomplete : Bool) :
    (p.closeMessage incomplete).1.openRawItems = p.openRawItems
      ∧ (p.closeMessage incomplete).1.tools = p.tools := by
  unfold Pipeline.closeMessage
  cases p.openMessage <;> exact ⟨rfl, rfl⟩

theorem conclude_reports (others : ∀ entry ∈ p.openRawItems.entries, isCallItem entry.2 = false)
    (error : Option String) (reason : Option TerminalReason) :
    ∃ incomplete, callReports (conclude env p error reason).2
        = (p.tools.listAll.filter Pipeline.isPending).map (fun acc =>
            ⟨true, acc.outputIndex,
              bareFunctionCallItem acc (closingStatus incomplete) acc.arguments⟩)
      ∧ (incomplete = false ↔ error = none ∧ p.hadInvalidToolArgs = false ∧ reason = none) := by
  have closing : ∀ incomplete, callReports (p.closeOpenItems incomplete).2
      = (p.tools.listAll.filter Pipeline.isPending).map fun acc =>
          ⟨true, acc.outputIndex,
            bareFunctionCallItem acc (closingStatus incomplete) acc.arguments⟩ := by
    intro incomplete
    unfold Pipeline.closeOpenItems
    dsimp only
    have raw : ((p.closeReasoning incomplete).1.closeMessage incomplete).1.openRawItems
        = p.openRawItems :=
      (closeMessage_rest incomplete).1.trans
        (congrArg (fun ledger => ledger.2.1) (closeReasoning_ledger incomplete))
    have tools : ((p.closeReasoning incomplete).1.closeMessage incomplete).1.tools = p.tools :=
      (closeMessage_rest incomplete).2.trans (closeReasoning_tools incomplete)
    rw [callReports_append, callReports_append, callReports_append, closeReasoning_reports,
      closeMessage_reports, closeTools_reports, closeRaw_reports, tools, List.append_nil]
    · rfl
    · intro entry mem
      refine others entry ?_
      rw [← raw]
      exact mem
  have cut : ∀ (reason : TerminalReason) strict,
      callReports (p.terminalFrames env reason strict).2
        = callReports (p.closeOpenItems true).2 := by
    intro reason strict
    have silent : ∀ status : Status,
        (truncatedEvent env.responseId status reason).callReport = none := by
      intro status
      cases status <;> rfl
    unfold Pipeline.terminalFrames
    dsimp only
    rw [callReports_append]
    simp [callReports, silent]
  unfold conclude
  split
  · refine ⟨true, ?_, by simp⟩
    rw [← closing true]
    unfold Pipeline.internalFailedFrames
    dsimp only
    rw [callReports_append]
    exact List.append_nil _
  · split
    case isTrue invalid =>
      exact ⟨true, (cut _ _).trans (closing true), by simp [invalid]⟩
    case isFalse valid =>
      split
      · exact ⟨true, (cut _ _).trans (closing true), by simp⟩
      · refine ⟨false, ?_, by simpa using valid⟩
        rw [← closing false]
        unfold Pipeline.completedFrames
        dsimp only
        rw [callReports_append]
        exact List.append_nil _

end Zhongzhuan.Responses
