import Zhongzhuan.Responses.AdapterImage
import Zhongzhuan.Responses.CallLedger
import Zhongzhuan.Responses.JobMirror
import Zhongzhuan.Responses.NativeCalls

/-!
# The status of a call, in the frames and in the output array

`output_items` is documented never to disagree with the frames that were sent, and a call is
reported as completed only when its arguments parse.  Three code paths report a call: its
terminator, the loop that closes what is still open, and the echo of a multi-agent call; the
output array is a fourth.

* `Truthful` are the chunks that keep the statuses true; `Tallied` is the invariant they keep.
* `CallsAgree` says what holds at the end, and `callStatus_agree` that it does, for every
  truthful stream that leaves no call pending behind a completed end.
-/

namespace Zhongzhuan.Responses

open Kit Protocol

/-! ## The chunks of a truthful stream -/

/-- **The chunks that keep the statuses true**, by the state they meet: a fragment of a call
whose arguments have validated leaves them an object, and a multi-agent call ends with
arguments, as they are patched, that are one. -/
def Truthful (env : Env) (p : Pipeline) : Chunk → Prop
  | .toolCall callId name fragment nameSpace sourceIndex =>
    Pipeline.specialKind env name nameSpace = none →
      ∀ ref ∈ p.tools.get callId sourceIndex, ∀ acc ∈ p.tools.accs[ref]?,
        acc.argumentsDone = true → parsesObject env.loads (acc.arguments ++ fragment) = true
  | .toolCallDone callId arguments _ =>
    ∀ call ∈ p.specialCalls.get? callId, call.kind = .multiAgent → env.multiAgent.isSome = true →
      ∀ patched rejected,
        p.patchArguments env call.name (if arguments = "" then call.args else arguments)
            = .ok (patched, rejected) →
          parsesObject env.loads patched = true
  | _ => True

/-- The invariant of a run: the events sent so far and the pipeline that sent them. -/
structure Tallied (env : Env) (events : List Event) (p : Pipeline) : Prop where
  consistent : Consistent env.loads (callReports events) p.tools p.outputIndex
    p.synthesizedItems
  passed : ∀ entry ∈ p.openRawItems.entries, isCallItem entry.2 = false

variable {env : Env} {events : List Event} {p : Pipeline}

/-! ### Indexes -/

theorem closeReasoning_index (incomplete : Bool) :
    (p.closeReasoning incomplete).1.outputIndex = p.outputIndex := by
  unfold Pipeline.closeReasoning
  cases p.openReasoning <;> rfl

theorem ensureReasoningLifecycle_index :
    p.outputIndex ≤ (p.ensureReasoningLifecycle env).1.outputIndex := by
  unfold Pipeline.ensureReasoningLifecycle
  split
  · exact le_rfl
  · split
    · exact le_rfl
    · split
      · exact le_rfl
      · exact Nat.le_succ _

theorem translateText_index (delta : String) :
    p.outputIndex ≤ (p.translateText env delta).1.outputIndex := by
  unfold Pipeline.translateText
  cases held : p.openMessage with
  | some item => simp only [Option.isSome_some, if_true, held, le_refl]
  | none =>
      simp only [Option.isSome_none, Bool.false_eq_true, if_false]
      have ensured := @ensureReasoningLifecycle_index env (p.closeReasoning false).1
      rw [closeReasoning_index] at ensured
      exact ensured.trans (Nat.le_succ _)

theorem translateReasoning_index (delta : String) :
    p.outputIndex ≤ (p.translateReasoning env delta).1.outputIndex := by
  unfold Pipeline.translateReasoning
  split
  · exact le_rfl
  · cases held : p.openReasoning with
    | some item => simp only [Option.isSome_some, if_true, held, le_refl]
    | none => exact Nat.le_succ _

/-! ### Fragments -/

theorem absorbName_eq (acc : ToolCallAccumulator) (name nameSpace : String) :
    ∃ given space,
      acc.absorbName name nameSpace = { acc with name := given, nameSpace := space } := by
  unfold ToolCallAccumulator.absorbName ToolCallAccumulator.restoreName
    ToolCallAccumulator.applyNamespace ToolCallAccumulator.replaceName
  dsimp only
  repeat' split
  all_goals exact ⟨_, _, rfl⟩

theorem fragment_arguments (acc : ToolCallAccumulator)
    (callId name nameSpace fragment : String) :
    (((acc.bindCallId callId).absorbName name nameSpace).appendArguments fragment).arguments
        = acc.arguments ++ fragment
      ∧ (((acc.bindCallId callId).absorbName name nameSpace).appendArguments fragment).sourceIndex
        = acc.sourceIndex := by
  obtain ⟨given, space, named⟩ := absorbName_eq (acc.bindCallId callId) name nameSpace
  rw [named]
  unfold ToolCallAccumulator.bindCallId
  split <;> exact ⟨rfl, rfl⟩

theorem firstFragment_source {callId name fragment nameSpace : String} {source : ℤ} :
    (firstFragment p callId name fragment nameSpace (some source)).sourceIndex = source := by
  obtain ⟨given, space, named⟩ := absorbName_eq
    (p.tools.newAccumulator p.outputIndex callId (some source)) name nameSpace
  unfold firstFragment
  rw [named]
  rfl

theorem unkeyed_of_get {tools : ToolCallCollection} {callId : String} {source : ℤ}
    (unknown : tools.get callId (some source) = none) :
    tools.bySourceIndex.get? source = none := by
  unfold ToolCallCollection.get at unknown
  split at unknown
  · cases unknown
  · exact unknown

/-! ### The steps -/

namespace Tallied

theorem silent (h : Tallied env events p) {more : List Event} {q : Pipeline}
    (reports : callReports more = []) (tools : q.tools = p.tools) (ledger : q.ledger = p.ledger)
    (later : p.outputIndex ≤ q.outputIndex) : Tallied env (events ++ more) q := by
  have made : q.synthesizedItems = p.synthesizedItems :=
    congrArg (fun ledger => ledger.2.2) ledger
  have raw : q.openRawItems = p.openRawItems := congrArg (fun ledger => ledger.2.1) ledger
  refine ⟨?_, raw ▸ h.passed⟩
  rw [callReports_append, reports, List.append_nil, tools, made]
  exact h.consistent.mono later

theorem emitSpecialItem (h : Tallied env events p) (item : Fields)
    (sound : isCallItem item = true → SoundItem env.loads item) :
    Tallied env (events ++ (p.emitSpecialItem item).2) (p.emitSpecialItem item).1 := by
  refine ⟨?_, h.passed⟩
  rw [callReports_append, emitSpecialItem_reports]
  exact h.consistent.makes item sound

theorem translateRaw (h : Tallied env events p) (event : String) {item : Fields}
    (other : isCallItem item = false) :
    Tallied env (events ++ (p.translateRaw event item).2) (p.translateRaw event item).1 := by
  have still : isCallItem (item.put "output_index" (.int p.outputIndex)) = false :=
    (isCallItem_put (by decide) _ item).trans other
  have kept : p.synthesizedItems.filter (·.1 ≠ p.outputIndex) = p.synthesizedItems := by
    refine List.filter_eq_self.mpr fun entry mem => ?_
    simpa using (h.consistent.apart entry mem).1.ne
  have made := h.consistent.makes (item.put "output_index" (.int p.outputIndex))
    fun call => by rw [still] at call; cases call
  rw [reportOf_of_other still, reportOf_of_other still] at made
  have reports := @translateRaw_reports p event item other
  have tallied : ∀ raw : Dict ℕ Fields, (∀ entry ∈ raw.entries, isCallItem entry.2 = false) →
      Tallied env (events ++ (p.translateRaw event item).2)
        { p.bumpIndex with
          synthesizedItems := p.synthesizedItems.filter (·.1 ≠ p.outputIndex)
            ++ [(p.outputIndex, item.put "output_index" (.int p.outputIndex))]
          state := .streaming
          openRawItems := raw } := by
    intro raw passed
    refine ⟨?_, passed⟩
    rw [callReports_append, reports, kept]
    exact made
  unfold Pipeline.translateRaw at tallied ⊢
  dsimp only at tallied ⊢
  split
  case isTrue isDone =>
    rw [if_pos isDone] at tallied
    refine tallied _ fun entry mem => ?_
    exact h.passed entry (List.mem_of_mem_filter mem)
  case isFalse isAdded =>
    rw [if_neg isAdded] at tallied
    refine tallied _ fun entry mem => ?_
    obtain ⟨k, v⟩ := entry
    have found := Dict.mem_entries.mp mem
    rw [Dict.get?_set] at found
    split at found
    · cases found
      exact still
    · exact h.passed _ (Dict.mem_entries.mpr found)

theorem emitOther (h : Tallied env events p) {item : Fields} (other : isCallItem item = false) :
    Tallied env (events ++ (p.emitSpecialItem item).2) (p.emitSpecialItem item).1 :=
  h.emitSpecialItem item fun call => by rw [other] at call; cases call

theorem withSpecial (h : Tallied env events p) (calls : Dict String SpecialCall) :
    Tallied env events { p with specialCalls := calls } := ⟨h.consistent, h.passed⟩

theorem withHandled (h : Tallied env events p) (requests : List HandleRequest) :
    Tallied env events { p with handled := requests } := ⟨h.consistent, h.passed⟩

theorem finalizeToolSearch (h : Tallied env events p) (callId args : String) :
    Tallied env (events ++ (p.finalizeToolSearch env callId args).emitted)
      (p.finalizeToolSearch env callId args).pipeline := by
  have call : Tallied env (events ++ (p.emitSpecialItem (buildToolSearchCall p.outputIndex callId
      (if args = "" then "\x7b\x7d" else args) env.responseId)).2) _ := h.emitOther rfl
  unfold Pipeline.finalizeToolSearch
  dsimp only
  split
  · exact call.withSpecial _
  · split
    · exact call
    · rw [← List.append_assoc]
      exact (call.emitOther rfl).withSpecial _

theorem finalizeMultiAgent (h : Tallied env events p) (reliable : Reliable env)
    {handle : List HandleRequest → HandleRequest → Except String Fields}
    (given : env.multiAgent = some handle) (callId name args : String)
    (truthful : ∀ patched rejected, p.patchArguments env name args = .ok (patched, rejected) →
      parsesObject env.loads patched = true) :
    Tallied env (events ++ (p.finalizeMultiAgent env handle callId name args).emitted)
      (p.finalizeMultiAgent env handle callId name args).pipeline := by
  obtain ⟨⟨patched, rejected⟩, isPatched⟩ := patchArguments_of_reliable reliable p name args
  have echo := h.emitSpecialItem (Pipeline.multiAgentCallItem callId name patched)
    fun _ _ => ⟨patched, rfl, truthful patched rejected isPatched⟩
  have refused := fun {events : List Event} {q : Pipeline} (h : Tallied env events q) =>
    show Tallied env (events ++ (if rejected then q.emitSpecialItem (Pipeline.rejectItem callId)
        else (q, [])).2)
      (if rejected then q.emitSpecialItem (Pipeline.rejectItem callId) else (q, [])).1 by
    split
    · exact h.emitOther rfl
    · rw [List.append_nil]
      exact h
  unfold Pipeline.finalizeMultiAgent
  rw [isPatched]
  dsimp only
  split
  · rw [← List.append_assoc]
    exact (refused echo).withSpecial _
  · split
    case h_1 message failed =>
      obtain ⟨item, answered, _⟩ := reliable.answers given failed
      cases answered
    case h_2 result asked =>
      obtain ⟨item, answered, type⟩ := reliable.answers given asked
      cases answered
      have other : isCallItem result = false := by simp [isCallItem, type]
      rw [← List.append_assoc, ← List.append_assoc]
      exact (((refused echo).withHandled _).emitOther other).withSpecial _

/-! ### Ordinary calls -/

theorem translateToolCall (h : Tallied env events p) {callId name fragment nameSpace : String}
    {source : ℤ}
    (truthful : ∀ ref ∈ p.tools.get callId (some source), ∀ acc ∈ p.tools.accs[ref]?,
      acc.argumentsDone = true → parsesObject env.loads (acc.arguments ++ fragment) = true) :
    Tallied env
      (events ++ (p.translateToolCall callId name fragment nameSpace (some source)).2)
      (p.translateToolCall callId name fragment nameSpace (some source)).1 := by
  cases found : p.tools.get callId (some source) with
  | some ref =>
      obtain ⟨acc, held⟩ : ∃ acc, p.tools.accs[ref]? = some acc :=
        ⟨_, List.getElem?_eq_getElem (h.consistent.refs_valid ref
          (ToolCallCollection.mem_refs_of_get found))⟩
      have tracked := h.consistent.tracks acc (List.mem_of_getElem? held)
      obtain ⟨tools, accs, refs, keys, translated⟩ :=
        @translateToolCall_of_known p callId name fragment nameSpace (some source) ref acc found
          held tracked.added
      have same : ∀ acc : ToolCallAccumulator, SameItem acc
          (((acc.bindCallId callId).absorbName name nameSpace).appendArguments fragment) :=
        fun acc => (SameItem.bindCallId acc callId).trans
          (SameItem.fragment _ name nameSpace fragment)
      rw [translated]
      refine ⟨?_, h.passed⟩
      rw [callReports_append]
      refine h.consistent.change held accs refs keys (fun acc => (same acc).outputIndex)
        (fun acc => (fragment_arguments acc _ _ _ _).2) nofun ?_ nofun
      rw [show callReports [argumentsDelta acc.outputIndex _ fragment] = [] from rfl,
        List.append_nil]
      refine tracked.fragment (same acc) fun parsed => ?_
      rw [(fragment_arguments acc _ _ _ _).1]
      exact truthful ref found acc held parsed
  | none =>
      have same : SameItem _ (firstFragment p callId name fragment nameSpace (some source)) :=
        sameItem_firstFragment
      have new : Extends p.tools
          (withFirstFragment p callId name fragment nameSpace (some source)) _ _ :=
        extends_withFirstFragment
      have key : (firstFragment p callId name fragment nameSpace (some source)).sourceIndex
          = source := firstFragment_source
      have announced : callReports [itemAdded p.outputIndex (functionCallItem
            (firstFragment p callId name fragment nameSpace (some source)) .inProgress ""),
          argumentsDelta p.outputIndex
            (firstFragment p callId name fragment nameSpace (some source)).callId fragment]
          = [⟨false, p.outputIndex, functionCallItem
            (firstFragment p callId name fragment nameSpace (some source)) .inProgress ""⟩] := rfl
      rw [translateToolCall_of_new found]
      refine ⟨?_, h.passed⟩
      rw [callReports_append, announced]
      refine (h.consistent.announce ?_ ?_).opens new.accs ?_ same.outputIndex rfl same.itemDone
        same.argumentsDone ?_ ?_
      · exact List.forall_mem_singleton.mpr rfl
      · exact List.forall_mem_singleton.mpr (soundItem_of_call rfl rfl nofun)
      · intro r mem
        rw [new.accs, List.length_append, List.length_singleton]
        rcases (new.refs r).mp mem with rfl | kept
        · exact Nat.lt_succ_self _
        · exact Nat.lt_succ_of_lt (h.consistent.refs_valid r kept.mem_refs)
      · show _ = p.tools.bySourceIndex.set
          (firstFragment p callId name fragment nameSpace (some source)).sourceIndex _
        rw [key]
        rfl
      · show p.tools.bySourceIndex.get?
          (firstFragment p callId name fragment nameSpace (some source)).sourceIndex = none
        rw [key]
        exact unkeyed_of_get found

theorem translateToolCallDone (h : Tallied env events p)
    (quiet : ∀ text message, env.loads text ≠ .raised message) (callId : String)
    (sourceIndex : Option ℤ) :
    Tallied env (events ++ (p.translateToolCallDone env callId "" sourceIndex).emitted)
      (p.translateToolCallDone env callId "" sourceIndex).pipeline := by
  unfold Pipeline.translateToolCallDone
  cases found : p.tools.get callId sourceIndex with
  | none =>
      show Tallied env (events ++ []) p
      rwa [List.append_nil]
  | some ref =>
      obtain ⟨acc, held⟩ : ∃ acc, p.tools.accs[ref]? = some acc :=
        ⟨_, List.getElem?_eq_getElem (h.consistent.refs_valid ref
          (ToolCallCollection.mem_refs_of_get found))⟩
      have tracked := h.consistent.tracks acc (List.mem_of_getElem? held)
      have nothing : (fun acc : ToolCallAccumulator => acc.appendArguments "") = id := by
        funext acc
        unfold ToolCallAccumulator.appendArguments
        rw [String.append_empty]
        rfl
      have unchanged : p.tools.modify ref (·.appendArguments "") = p.tools := by
        unfold ToolCallCollection.modify
        rw [nothing, List.modify_id]
      dsimp only
      rw [unchanged, held]
      dsimp only
      cases judged : acc.validate env.loads with
      | valid =>
          have parses := validate_eq_valid.mp judged
          refine ⟨?_, h.passed⟩
          rw [callReports_append, show callReports [argumentsDone acc.outputIndex acc.callId
            acc.arguments, itemDone acc.outputIndex (functionCallItem acc .completed
              acc.arguments)] = [⟨true, acc.outputIndex, functionCallItem acc .completed
                acc.arguments⟩] from rfl]
          refine h.consistent.change held rfl (fun _ => Iff.rfl) rfl (fun _ => rfl)
            (fun _ => rfl) (List.forall_mem_singleton.mpr fun _ => rfl) ?_
            (List.forall_mem_singleton.mpr (soundItem_of_call rfl rfl fun _ => parses))
          exact ⟨tracked.added, nofun, fun _ => lastStatus_concat _, fun _ => parses⟩
      | invalid =>
          have unparsed : acc.argumentsDone = false := by
            by_contra parsed
            have valid := validate_eq_valid.mpr (tracked.parses (by simpa using parsed))
            rw [judged] at valid
            cases valid
          refine ⟨?_, h.passed⟩
          rw [callReports_append, show callReports [itemDone acc.outputIndex (functionCallItem acc
            .incomplete acc.arguments)] = [⟨true, acc.outputIndex, functionCallItem acc
              .incomplete acc.arguments⟩] from rfl]
          refine h.consistent.change held rfl (fun _ => Iff.rfl) rfl (fun _ => rfl)
            (fun _ => rfl) (List.forall_mem_singleton.mpr fun _ => rfl) ?_
            (List.forall_mem_singleton.mpr (soundItem_of_call rfl rfl nofun))
          refine ⟨tracked.added, nofun, fun _ => (lastStatus_concat _).trans ?_, tracked.parses⟩
          show some (Json.str Status.incomplete.value)
            = some (.str (closingStatus (!acc.argumentsDone)).value)
          rw [unparsed]
          rfl
      | raised message =>
          unfold ToolCallAccumulator.validate at judged
          dsimp only at judged
          split at judged
          · cases judged
          · split at judged
            case h_4 said => exact absurd said (quiet _ _)
            all_goals cases judged

theorem finalizeSpecialCall (h : Tallied env events p) (reliable : Reliable env)
    {callId arguments : String} {sourceIndex : Option ℤ}
    (truthful : Truthful env p (.toolCallDone callId arguments sourceIndex)) :
    (p.finalizeSpecialCall env callId arguments).elim
      (fun special => Tallied env (events ++ special.emitted) special.pipeline)
      (Tallied env events) := by
  unfold Pipeline.finalizeSpecialCall
  cases found : p.specialCalls.get? callId with
  | none => exact h
  | some call =>
      dsimp only
      split
      · split
        · exact (h.withSpecial _).finalizeToolSearch callId _
        · exact h.withSpecial _
      case h_2 handle kind given =>
        refine (h.withSpecial _).finalizeMultiAgent reliable given callId call.name _ ?_
        exact truthful call found kind (by rw [given]; rfl)
      · exact h.withSpecial _

theorem translateChunk (h : Tallied env events p) (reliable : Reliable env) {c : Chunk}
    (wire : c.Wire) (truthful : Truthful env p c) :
    Tallied env (events ++ (p.translateChunk env c).emitted)
      (p.translateChunk env c).pipeline := by
  cases c with
  | text delta =>
      exact h.silent (translateText_reports delta) (congrArg Prod.fst (translateText_books delta))
        (translateText_ledger delta) (translateText_index delta)
  | reasoning delta =>
      exact h.silent (translateReasoning_reports delta)
        (congrArg Prod.fst (translateReasoning_books delta)) (translateReasoning_ledger delta)
        (translateReasoning_index delta)
  | finish => exact h.silent rfl rfl rfl le_rfl
  | rawOutputItem event item => exact h.translateRaw event wire
  | toolCall callId name arguments nameSpace sourceIndex =>
      cases special : Pipeline.specialKind env name nameSpace with
      | some found =>
          obtain ⟨kind, bare⟩ := found
          rw [Pipeline.translateChunk_of_special special]
          show Tallied env (events ++ []) _
          rw [List.append_nil]
          exact h.withSpecial _
      | none =>
          obtain ⟨source, rfl⟩ := Option.isSome_iff_exists.mp wire
          rw [Pipeline.translateChunk_of_ordinary special]
          exact h.translateToolCall (truthful special)
  | toolCallDone callId arguments sourceIndex =>
      obtain ⟨rfl, _⟩ := wire
      have passed := h.finalizeSpecialCall reliable truthful
      simp only [Pipeline.translateChunk]
      cases ended : p.finalizeSpecialCall env callId "" with
      | inl special =>
          rw [ended] at passed
          exact passed
      | inr q =>
          rw [ended] at passed
          exact Tallied.translateToolCallDone passed reliable.loads callId sourceIndex

end Tallied

/-! ## Over a stream -/

/-- The condition on an arrival. -/
def TruthfulArrival (env : Env) (loop : Loop) : Arrival → Prop
  | .chunk c => Truthful env loop.pipeline c
  | .heartbeat => True

theorem runSchedule_tallied (reliable : Reliable env) {arrivals : List Arrival}
    (wire : AllWire (chunksOf arrivals)) {loop : Loop} (running : loop.internalError = none)
    (h : Tallied env loop.events loop.pipeline)
    (truthful : Along (Loop.receive env) (TruthfulArrival env) loop arrivals) :
    Tallied env (runSchedule (Loop.receive env) loop arrivals).events
      (runSchedule (Loop.receive env) loop arrivals).pipeline := by
  induction arrivals generalizing loop with
  | nil => exact h
  | cons arrival rest ih =>
      rw [along_cons] at truthful
      rw [runSchedule_cons]
      have next : (loop.receive env arrival).internalError = none :=
        runSchedule_returns reliable [arrival] running
      cases arrival with
      | heartbeat =>
          refine ih wire next ?_ truthful.2
          rw [receive_heartbeat_events, receive_heartbeat_pipeline]
          exact h
      | chunk c =>
          obtain ⟨here, later⟩ := List.forall_mem_cons.mp wire
          refine ih later next ?_ truthful.2
          obtain ⟨_, pipeline, events⟩ :=
            receive_of_returned running (@translateChunk_returns env loop.pipeline reliable c)
          rw [pipeline, events]
          exact h.translateChunk reliable here truthful.1

/-! ## The end of the stream -/

/-- **The statuses of the calls agree**: what a frame or the output array calls completed
parses, the last closing frame of each call in the output array has the status it has there,
and every call that was closed is in it. -/
structure CallsAgree (loads : String → Loaded) (events : List Event) (p : Pipeline) : Prop where
  frames : ∀ r ∈ callReports events, SoundItem loads r.item
  output : ∀ item ∈ p.outputItems, isCallItem item = true → SoundItem loads item
  status : ∀ entry ∈ p.collectedItems, isCallItem entry.2 = true →
    lastStatus (callReports events) entry.1 = entry.2.get "status"
  listed : ∀ r ∈ callReports events, r.closing = true →
    ∃ entry ∈ p.collectedItems, isCallItem entry.2 = true ∧ r.index = entry.1

theorem conclude_tools (error : Option String) (reason : Option TerminalReason) :
    (conclude env p error reason).1.tools = (p.closeTools true).1.tools := by
  have closed : ∀ incomplete,
      (p.closeOpenItems incomplete).1.tools = (p.closeTools true).1.tools := by
    intro incomplete
    have tools : ((p.closeReasoning incomplete).1.closeMessage incomplete).1.tools = p.tools :=
      (closeMessage_rest incomplete).2.trans (closeReasoning_tools incomplete)
    unfold Pipeline.closeOpenItems Pipeline.closeRaw Pipeline.closeTools
    dsimp only
    rw [tools]
  unfold conclude
  split
  · exact closed true
  · split
    · exact closed true
    · split
      · exact closed true
      · exact closed false

theorem mem_listAll_closeTools {acc : ToolCallAccumulator} {incomplete : Bool} :
    acc ∈ (p.closeTools incomplete).1.tools.listAll
      ↔ ∃ old ∈ p.tools.listAll,
          acc = if Pipeline.isPending old then old.markItemDone else old := by
  have refs : (p.closeTools incomplete).1.tools.refs = p.tools.refs := rfl
  have accs : ∀ ref ∈ p.tools.refs, (p.closeTools incomplete).1.tools.accs[ref]?
      = p.tools.accs[ref]?.map fun old =>
          if Pipeline.isPending old then old.markItemDone else old := by
    intro ref mem
    show (p.tools.accs.mapIdx _)[ref]? = _
    rw [List.getElem?_mapIdx]
    simp [mem]
  simp only [ToolCallCollection.mem_listAll, refs]
  constructor
  · rintro ⟨ref, mem, found⟩
    rw [accs ref mem] at found
    obtain ⟨old, held, same⟩ := Option.map_eq_some_iff.mp found
    exact ⟨old, ⟨ref, mem, held⟩, same.symm⟩
  · rintro ⟨old, ⟨ref, mem, held⟩, rfl⟩
    exact ⟨ref, mem, by rw [accs ref mem, held]; rfl⟩

theorem mem_collected_conclude {error : Option String} {reason : Option TerminalReason}
    (added : ∀ acc ∈ p.tools.accs, acc.itemAdded = true) {entry : ℕ × Fields} :
    entry ∈ (conclude env p error reason).1.collectedItems ∧ isCallItem entry.2 = true
      ↔ (∃ acc ∈ p.tools.listAll, entry = (acc.outputIndex, Pipeline.toolOutput acc))
        ∨ entry ∈ p.synthesizedItems ∧ isCallItem entry.2 = true := by
  have content := @conclude_content env p error reason
  have tools := @conclude_tools env p error reason
  have shown : ∀ old ∈ p.tools.listAll, ∀ acc,
      acc = (if Pipeline.isPending old then old.markItemDone else old) →
        acc.itemAdded = true ∧ acc.outputIndex = old.outputIndex
          ∧ Pipeline.toolOutput acc = Pipeline.toolOutput old := by
    rintro old mem acc rfl
    obtain ⟨ref, _, held⟩ := ToolCallCollection.mem_listAll.mp mem
    have first := added old (List.mem_of_getElem? held)
    split <;> exact ⟨first, rfl, rfl⟩
  unfold Pipeline.collectedItems
  rw [content.synthesizedItems, tools, List.mem_append, List.mem_append]
  constructor
  · rintro ⟨(message | call) | other, isCall⟩
    · obtain ⟨item, _, rfl⟩ := List.mem_map.mp message
      cases isCall
    · obtain ⟨acc, inside, rfl⟩ := List.mem_map.mp call
      obtain ⟨old, mem, same⟩ := mem_listAll_closeTools.mp (List.mem_of_mem_filter inside)
      obtain ⟨_, index, output⟩ := shown old mem acc same
      exact .inl ⟨old, mem, by rw [index, output]⟩
    · exact .inr ⟨other, isCall⟩
  · rintro (⟨old, mem, rfl⟩ | ⟨other, isCall⟩)
    · obtain ⟨first, index, output⟩ := shown old mem _ rfl
      refine ⟨.inl (.inr (List.mem_map.mpr ⟨_, List.mem_filter.mpr
        ⟨mem_listAll_closeTools.mpr ⟨old, mem, rfl⟩, first⟩, ?_⟩)), rfl⟩
      rw [index, output]
    · exact ⟨.inr other, isCall⟩

theorem conclude_closes (h : Tallied env events p) (reason : Option TerminalReason)
    (clean : reason = none → p.hadInvalidToolArgs = false →
      ∀ acc ∈ p.tools.listAll, Pipeline.isPending acc = false) :
    Closes p.tools (callReports (conclude env p none reason).2) := by
  obtain ⟨incomplete, reports, graceful⟩ := @conclude_reports env p h.passed none reason
  have pending : ∀ acc ∈ p.tools.listAll, Pipeline.isPending acc = !acc.itemDone :=
    fun acc mem => (h.consistent.tracks acc (mem_accs_of_listAll mem)).isPending
  rw [reports]
  refine ⟨fun r mem => ?_, fun acc mem undone => ?_⟩
  · obtain ⟨acc, inside, rfl⟩ := List.mem_map.mp mem
    obtain ⟨listed, isPending⟩ := List.mem_filter.mp inside
    refine ⟨?_, acc, listed, by simpa [pending acc listed] using isPending, rfl⟩
    cases cut : incomplete with
    | true => rfl
    | false =>
        obtain ⟨_, valid, ended⟩ := graceful.mp cut
        rw [clean ended valid acc listed] at isPending
        cases isPending
  · refine ⟨_, List.mem_map.mpr ⟨acc, List.mem_filter.mpr ⟨mem, ?_⟩, rfl⟩, rfl, rfl⟩
    rw [pending acc mem, undone]
    rfl

/-- **The end of a stream keeps the statuses true**, unless it is a completed one that leaves a
call pending. -/
theorem Tallied.conclude (h : Tallied env events p) (reason : Option TerminalReason)
    (clean : reason = none → p.hadInvalidToolArgs = false →
      ∀ acc ∈ p.tools.listAll, Pipeline.isPending acc = false) :
    CallsAgree env.loads (events ++ (Responses.conclude env p none reason).2)
      (Responses.conclude env p none reason).1 := by
  have closes := conclude_closes h reason clean
  have added : ∀ acc ∈ p.tools.accs, acc.itemAdded = true :=
    fun acc mem => (h.consistent.tracks acc mem).added
  have collected := fun {entry : ℕ × Fields} =>
    @mem_collected_conclude env p none reason added entry
  constructor
  case frames =>
    intro r mem
    rw [callReports_append] at mem
    rcases List.mem_append.mp mem with old | new
    · exact h.consistent.sound r old
    · intro completed
      rw [(closes.each r new).1] at completed
      exact absurd completed (by decide)
  case output =>
    intro item mem call
    obtain ⟨index, inside⟩ : ∃ index, (index, item)
        ∈ (Responses.conclude env p none reason).1.collectedItems := by
      simpa [Pipeline.outputItems, List.mem_map, List.mem_mergeSort] using mem
    rcases collected.mp ⟨inside, call⟩ with ⟨acc, listed, same⟩ | ⟨other, _⟩
    · cases same
      have tracked := h.consistent.tracks acc (mem_accs_of_listAll listed)
      refine soundItem_of_call rfl rfl fun completed => tracked.parses ?_
      cases parsed : acc.argumentsDone with
      | true => rfl
      | false =>
          rw [parsed] at completed
          cases completed
    · exact (h.consistent.echoed _ other call).2
  case status =>
    intro entry mem call
    rw [callReports_append]
    rcases collected.mp ⟨mem, call⟩ with ⟨acc, listed, rfl⟩ | ⟨other, _⟩
    · exact h.consistent.status_of_call closes listed
    · exact h.consistent.status_of_made closes other call
  case listed =>
    intro r mem closing
    have call : ∀ acc ∈ p.tools.listAll, r.index = acc.outputIndex →
        ∃ entry ∈ (Responses.conclude env p none reason).1.collectedItems,
          isCallItem entry.2 = true ∧ r.index = entry.1 := by
      intro acc listed same
      obtain ⟨inside, isCall⟩ := collected.mpr (.inl ⟨acc, listed, rfl⟩)
      exact ⟨_, inside, isCall, same⟩
    rw [callReports_append] at mem
    rcases List.mem_append.mp mem with old | new
    · rcases h.consistent.owned r old closing
        with ⟨acc, inside, same⟩ | ⟨entry, inside, isCall, same⟩
      · exact call acc (h.consistent.mem_listAll inside) same
      · exact ⟨entry, (collected.mpr (.inr ⟨inside, isCall⟩)).1, isCall, same⟩
    · obtain ⟨_, acc, listed, _, same⟩ := closes.each r new
      exact call acc listed same

/-- **When the statuses of the calls agree**, over every stream of the adapter in any of its
dialects: no fragment breaks arguments that had validated, no multi-agent call ends with
arguments that are no object, and no call is pending behind a stream that is reported as
completed. -/
theorem callStatus_agree (env : Env) (reliable : Reliable env) (upstream : AdapterEnv)
    (stream : List Bytes) (p : Pipeline) (arrivals : List Arrival)
    (read : chunksOf arrivals = (iterChunks upstream stream).yielded) (ending : Ending)
    (truthful : Along (Loop.receive env) (TruthfulArrival env) (startLoop env p) arrivals)
    (clean : endingReason (loopOf env p arrivals).pipeline arrivals ending = none →
      (loopOf env p arrivals).pipeline.hadInvalidToolArgs = false →
        ∀ acc ∈ (loopOf env p arrivals).pipeline.tools.listAll,
          Pipeline.isPending acc = false) :
    CallsAgree env.loads (run env p arrivals ending).events
      (run env p arrivals ending).pipeline := by
  have wire : AllWire (chunksOf arrivals) := read ▸ iterChunks_wire upstream stream
  have running : (loopOf env p arrivals).internalError = none :=
    runSchedule_returns reliable arrivals rfl
  have start : Tallied env (startLoop env p).events (startLoop env p).pipeline :=
    ⟨.fresh env.loads env.responseId, nofun⟩
  have tallied : Tallied env (loopOf env p arrivals).events (loopOf env p arrivals).pipeline :=
    runSchedule_tallied reliable wire rfl start truthful
  have noted : Tallied env (loopOf env p arrivals).events
      (noteEnding (loopOf env p arrivals).pipeline ending) := by
    cases ending <;> exact ⟨tallied.consistent, tallied.passed⟩
  rw [run_of_returned running, events_yields]
  refine noted.conclude _ ?_
  cases ending <;> exact clean

/-- One call with an empty object for its arguments. -/
theorem oneCall_agrees :
    CallsAgree plainEnv.loads
      (run plainEnv (.fresh plainEnv) oneCallArrivals .upstreamEnd).events
      (run plainEnv (.fresh plainEnv) oneCallArrivals .upstreamEnd).pipeline := by
  have closed : ∀ acc ∈ (loopOf plainEnv (.fresh plainEnv) oneCallArrivals).pipeline.tools.listAll,
      Pipeline.isPending acc = false := by
    decide +kernel
  refine callStatus_agree plainEnv plainEnv_reliable oneCallUpstream oneCallStream
    (.fresh plainEnv) oneCallArrivals oneCall_read .upstreamEnd ⟨?_, ?_, trivial, trivial⟩
    fun _ _ => closed
  · intro _ ref found
    cases found
  · intro call found
    cases found

/-- A stream whose only call begins after its end. -/
def lateStream : List Bytes :=
  [bytesOf "event: response.completed\ndata: \x7b\x7d\n\n",
    bytesOf "event: response.function_call_arguments.delta\ndata: \x7b\x7d\n\n"]

/-- What the adapter yields for it. -/
def lateArrivals : List Arrival :=
  [.chunk .finish, .chunk (.toolCall "" "" "" "" (some 0))]

/-- The call is closed as completed, with no arguments. -/
theorem lateStream_disagrees :
    ¬ ∀ (env : Env) (_ : Reliable env) (upstream : AdapterEnv) (stream : List Bytes)
      (p : Pipeline) (arrivals : List Arrival)
      (_ : chunksOf arrivals = (iterChunks upstream stream).yielded),
      CallsAgree env.loads
        (run env p arrivals (iterChunks upstream stream).ending).events
        (run env p arrivals (iterChunks upstream stream).ending).pipeline := by
  intro all
  have agree := all plainEnv plainEnv_reliable nativeUpstream lateStream (.fresh plainEnv)
    lateArrivals (by decide +kernel)
  let item : Fields := [("id", .str "fc_r_0"), ("type", .str "function_call"),
    ("status", .str "completed"), ("call_id", .str "call_r_0"), ("name", .str ""),
    ("arguments", .str "")]
  have reported : (⟨true, 0, item⟩ : CallReport) ∈ callReports (run plainEnv (.fresh plainEnv)
      lateArrivals (iterChunks nativeUpstream lateStream).ending).events := by
    decide +kernel
  obtain ⟨text, arguments, parses⟩ := agree.frames _ reported rfl
  have given : some (Json.str "") = some (Json.str text) := arguments
  cases given
  exact absurd parses (by decide)

end Zhongzhuan.Responses
