import Mathlib
import Zhongzhuan.Responses.CallReports
import Zhongzhuan.Responses.StreamCalls

/-!
# Reports and calls that agree

What the frames sent so far say of the function calls, beside the calls themselves.  A call has
an index that nothing else has, so that its last closing frame is the last with its index.

* `parsesObject` is the test of `validate_arguments` on a text; a `SoundItem` is not reported
  as completed without it.
* `lastStatus` reads the status of a call off its last closing frame.
* `Consistent` ties the reports to the calls and to the items of other origin.  A call may
  change and report (`change`), be opened (`opens`), and items be made (`makes`).
* `Closes` are the reports of the end; `status_of_call` and `status_of_made` say what the last
  frame of each call is then.
-/

namespace Zhongzhuan.Responses

open Kit Protocol

/-! ## Arguments and reports -/

/-- The text, stripped, is a JSON object: the test of `validate_arguments`. -/
def parsesObject (loads : String → Loaded) (text : String) : Bool :=
  stripText text ≠ "" &&
    match loads (stripText text) with
    | .value (.obj _) => true
    | _ => false

theorem validate_eq_valid {loads : String → Loaded} {acc : ToolCallAccumulator} :
    acc.validate loads = .valid ↔ parsesObject loads acc.arguments = true := by
  unfold ToolCallAccumulator.validate parsesObject
  by_cases blank : stripText acc.arguments = ""
  · simp [blank]
  · simp only [blank, if_false, ne_eq, not_false_eq_true, decide_true, Bool.true_and]
    cases loads (stripText acc.arguments) with
    | value v => cases v <;> simp
    | rejected => simp
    | raised message => simp

/-- An item that is reported as completed has arguments that parse. -/
def SoundItem (loads : String → Loaded) (item : Fields) : Prop :=
  item.get "status" = some (.str Status.completed.value) →
    ∃ text, item.get "arguments" = some (.str text) ∧ parsesObject loads text = true

theorem soundItem_of_call {loads : String → Loaded} {item : Fields} {status : Status}
    {arguments : String} (hasStatus : item.get "status" = some (.str status.value))
    (hasArguments : item.get "arguments" = some (.str arguments))
    (parses : status = .completed → parsesObject loads arguments = true) :
    SoundItem loads item := by
  intro completed
  refine ⟨arguments, hasArguments, parses ?_⟩
  have value : status.value = Status.completed.value := by
    simpa using hasStatus.symm.trans completed
  revert value
  cases status <;> decide

/-- The status in the last closing frame of the call at an index. -/
def lastStatus (reports : List CallReport) (index : ℤ) : Option Json :=
  (reports.filter fun r => r.closing && r.index = index).getLast?.bind fun r =>
    r.item.get "status"

section Reports

variable {reports more : List CallReport} {index : ℤ}

theorem lastStatus_append_of_other (other : ∀ r ∈ more, r.closing = true → r.index ≠ index) :
    lastStatus (reports ++ more) index = lastStatus reports index := by
  have none : more.filter (fun r => r.closing && r.index = index) = [] := by
    refine List.filter_eq_nil_iff.mpr fun r mem => ?_
    simpa using other r mem
  unfold lastStatus
  rw [List.filter_append, none, List.append_nil]

theorem lastStatus_eq_none (other : ∀ r ∈ reports, r.closing = true → r.index ≠ index) :
    lastStatus reports index = none := by
  have same := @lastStatus_append_of_other [] reports index other
  rw [List.nil_append] at same
  exact same

theorem lastStatus_concat (item : Fields) :
    lastStatus (reports ++ [⟨true, index, item⟩]) index = item.get "status" := by
  unfold lastStatus
  rw [List.filter_append, List.filter_singleton]
  simp

theorem lastStatus_append_of_agree {status : Option Json}
    (some : ∃ r ∈ more, r.closing = true ∧ r.index = index)
    (all : ∀ r ∈ more, r.closing = true → r.index = index → r.item.get "status" = status) :
    lastStatus (reports ++ more) index = status := by
  obtain ⟨r, mem, closing, here⟩ := some
  have inside : r ∈ more.filter fun r => r.closing && r.index = index :=
    List.mem_filter.mpr ⟨mem, by simp [closing, here]⟩
  have nonempty := List.ne_nil_of_mem inside
  unfold lastStatus
  rw [List.filter_append, List.getLast?_append_of_ne_nil _ nonempty,
    List.getLast?_eq_some_getLast nonempty]
  obtain ⟨last, closes⟩ := List.mem_filter.mp (List.getLast_mem nonempty)
  rw [Bool.and_eq_true, decide_eq_true_eq] at closes
  exact all _ last closes.1 closes.2

end Reports

/-! ## The invariant -/

/-- What the reports say of a call, and how far it has come. -/
structure Tracks (loads : String → Loaded) (reports : List CallReport)
    (acc : ToolCallAccumulator) : Prop where
  added : acc.itemAdded = true
  pending : acc.itemDone = false →
    acc.argumentsDone = false ∧ lastStatus reports acc.outputIndex = none
  closed : acc.itemDone = true →
    lastStatus reports acc.outputIndex
      = some (.str (closingStatus (!acc.argumentsDone)).value)
  parses : acc.argumentsDone = true → parsesObject loads acc.arguments = true

/-- An item of other origin that is a call was closed as completed, and parses. -/
def Echoed (loads : String → Loaded) (reports : List CallReport) (entry : ℕ × Fields) : Prop :=
  isCallItem entry.2 = true →
    lastStatus reports entry.1 = entry.2.get "status" ∧ SoundItem loads entry.2

/-- The reports sent so far, the calls, the next index and the items of other origin. -/
structure Consistent (loads : String → Loaded) (reports : List CallReport)
    (tools : ToolCallCollection) (next : ℕ) (made : List (ℕ × Fields)) : Prop where
  refs_valid : ∀ ref ∈ tools.refs, ref < tools.accs.length
  tracks : ∀ acc ∈ tools.accs, Tracks loads reports acc
  distinct : (tools.accs.map (·.outputIndex)).Nodup
  below : ∀ acc ∈ tools.accs, acc.outputIndex < next
  keyed : ∀ ref acc, tools.accs[ref]? = some acc →
    tools.bySourceIndex.get? acc.sourceIndex = some ref
  echoed : ∀ entry ∈ made, Echoed loads reports entry
  apart : ∀ entry ∈ made, entry.1 < next ∧ ∀ acc ∈ tools.accs, acc.outputIndex ≠ entry.1
  sound : ∀ r ∈ reports, SoundItem loads r.item
  owned : ∀ r ∈ reports, r.closing = true →
    (∃ acc ∈ tools.accs, r.index = acc.outputIndex)
      ∨ ∃ entry ∈ made, isCallItem entry.2 = true ∧ r.index = entry.1

namespace Consistent

variable {loads : String → Loaded} {reports more : List CallReport} {tools : ToolCallCollection}
  {next : ℕ} {made : List (ℕ × Fields)}

theorem fresh (loads : String → Loaded) (responseId : String) :
    Consistent loads [] { responseId := responseId } 0 [] where
  refs_valid := (ToolCallCollection.Holds.fresh (fun _ => True) responseId).refs_valid
  tracks := nofun
  distinct := List.nodup_nil
  below := nofun
  keyed := nofun
  echoed := nofun
  apart := nofun
  sound := nofun
  owned := nofun

theorem mono (h : Consistent loads reports tools next made) {later : ℕ} (le : next ≤ later) :
    Consistent loads reports tools later made :=
  { h with
    below := fun acc mem => (h.below acc mem).trans_le le
    apart := fun entry mem => ⟨(h.apart entry mem).1.trans_le le, (h.apart entry mem).2⟩ }

theorem unused (h : Consistent loads reports tools next made) :
    ∀ r ∈ reports, r.closing = true → r.index < next := by
  intro r mem closing
  rcases h.owned r mem closing with ⟨acc, inside, same⟩ | ⟨entry, inside, _, same⟩
  · rw [same]
    exact_mod_cast h.below acc inside
  · rw [same]
    exact_mod_cast (h.apart entry inside).1

theorem announce (h : Consistent loads reports tools next made)
    (opening : ∀ r ∈ more, r.closing = false) (sound : ∀ r ∈ more, SoundItem loads r.item) :
    Consistent loads (reports ++ more) tools next made := by
  have last : ∀ index, lastStatus (reports ++ more) index = lastStatus reports index :=
    fun index => lastStatus_append_of_other fun r mem closing => by
      rw [opening r mem] at closing
      cases closing
  refine { h with
    tracks := fun acc mem => ?_
    echoed := fun entry mem call => ?_
    sound := fun r mem => ?_
    owned := fun r mem closing => ?_ }
  · have tracked := h.tracks acc mem
    exact ⟨tracked.added, by rw [last]; exact tracked.pending,
      by rw [last]; exact tracked.closed, tracked.parses⟩
  · rw [last]
    exact h.echoed entry mem call
  · exact (List.mem_append.mp mem).elim (h.sound r) (sound r)
  · rcases List.mem_append.mp mem with old | new
    · exact h.owned r old closing
    · rw [opening r new] at closing
      cases closing

theorem position_unique (h : Consistent loads reports tools next made) {ref ref' : ℕ}
    {acc acc' : ToolCallAccumulator} (held : tools.accs[ref]? = some acc)
    (held' : tools.accs[ref']? = some acc') (same : acc.outputIndex = acc'.outputIndex) :
    ref = ref' := by
  have first : (tools.accs.map (·.outputIndex))[ref]? = some acc.outputIndex := by
    rw [List.getElem?_map, held, Option.map_some]
  have second : (tools.accs.map (·.outputIndex))[ref']? = some acc.outputIndex := by
    rw [List.getElem?_map, held', Option.map_some, same]
  have low : ref < (tools.accs.map (·.outputIndex)).length :=
    (List.getElem?_eq_some_iff.mp first).1
  exact (List.getElem?_inj low h.distinct).mp (first.trans second.symm)

theorem change (h : Consistent loads reports tools next made) {ref : ℕ}
    {acc : ToolCallAccumulator} (held : tools.accs[ref]? = some acc)
    {f : ToolCallAccumulator → ToolCallAccumulator} {tools' : ToolCallCollection}
    (accs : tools'.accs = tools.accs.modify ref f) (refs : ∀ r, r ∈ tools'.refs ↔ r ∈ tools.refs)
    (keys : tools'.bySourceIndex = tools.bySourceIndex)
    (index : ∀ acc, (f acc).outputIndex = acc.outputIndex)
    (source : ∀ acc, (f acc).sourceIndex = acc.sourceIndex)
    (here : ∀ r ∈ more, r.closing = true → r.index = acc.outputIndex)
    (tracked : Tracks loads (reports ++ more) (f acc))
    (sound : ∀ r ∈ more, SoundItem loads r.item) :
    Consistent loads (reports ++ more) tools' next made := by
  have indexes : tools'.accs.map (·.outputIndex) = tools.accs.map (·.outputIndex) := by
    rw [accs]
    refine List.ext_getElem? fun r => ?_
    simp only [List.getElem?_map, List.getElem?_modify]
    cases tools.accs[r]? with
    | none => rfl
    | some old =>
        by_cases same : ref = r
        · simp [same, index]
        · simp [same]
  have inside := List.mem_of_getElem? held
  have others : ∀ i : ℕ, i ≠ acc.outputIndex →
      lastStatus (reports ++ more) i = lastStatus reports i :=
    fun i other => lastStatus_append_of_other fun r mem closing same =>
      other (by exact_mod_cast same.symm.trans (here r mem closing))
  have listed : ∀ i : ℕ, (∃ acc ∈ tools'.accs, acc.outputIndex = i)
      ↔ ∃ acc ∈ tools.accs, acc.outputIndex = i := by
    intro i
    rw [← List.mem_map, ← List.mem_map, indexes]
  refine ⟨fun r mem => ?_, fun new mem => ?_, indexes ▸ h.distinct, fun new mem => ?_,
    fun r new found => ?_, fun entry mem call => ?_, fun entry mem => ⟨(h.apart entry mem).1, ?_⟩,
    fun r mem => ?_, fun r mem closing => ?_⟩
  · rw [accs, List.length_modify]
    exact h.refs_valid r ((refs r).mp mem)
  · obtain ⟨r, found⟩ := List.mem_iff_getElem?.mp mem
    rw [accs, List.getElem?_modify] at found
    obtain ⟨old, heldOld, changed⟩ := Option.map_eq_some_iff.mp found
    by_cases same : ref = r
    · subst same
      obtain rfl : old = acc := Option.some.inj (heldOld.symm.trans held)
      rw [if_pos rfl] at changed
      exact changed ▸ tracked
    · rw [if_neg same] at changed
      have kept := h.tracks old (List.mem_of_getElem? heldOld)
      have apart : old.outputIndex ≠ acc.outputIndex := fun equal =>
        same (h.position_unique held heldOld equal.symm)
      subst changed
      refine ⟨kept.added, ?_, ?_, kept.parses⟩
      · rw [others _ apart]
        exact kept.pending
      · rw [others _ apart]
        exact kept.closed
  · obtain ⟨old, mem', same⟩ := (listed new.outputIndex).mp ⟨new, mem, rfl⟩
    rw [← same]
    exact h.below old mem'
  · rw [accs, List.getElem?_modify] at found
    obtain ⟨old, heldOld, changed⟩ := Option.map_eq_some_iff.mp found
    have sameSource : new.sourceIndex = old.sourceIndex := by
      rw [← changed]
      split
      · exact source old
      · rfl
    rw [keys, sameSource]
    exact h.keyed r old heldOld
  · rw [others _ fun same => (h.apart entry mem).2 acc inside same.symm]
    exact h.echoed entry mem call
  · intro new mem' same
    obtain ⟨old, oldMem, equal⟩ := (listed entry.1).mp ⟨new, mem', same⟩
    exact (h.apart entry mem).2 old oldMem equal
  · exact (List.mem_append.mp mem).elim (h.sound r) (sound r)
  · have mine : ∀ old ∈ tools.accs, r.index = (old.outputIndex : ℤ) →
        ∃ new ∈ tools'.accs, r.index = (new.outputIndex : ℤ) := by
      intro old oldMem same
      obtain ⟨new, newMem, equal⟩ := (listed old.outputIndex).mpr ⟨old, oldMem, rfl⟩
      exact ⟨new, newMem, by rw [same, equal]⟩
    rcases List.mem_append.mp mem with old | new
    · rcases h.owned r old closing with ⟨acc', mem', same⟩ | other
      · exact .inl (mine acc' mem' same)
      · exact .inr other
    · exact .inl (mine acc inside (here r new closing))

theorem opens (h : Consistent loads reports tools next made) {acc : ToolCallAccumulator}
    {tools' : ToolCallCollection} (accs : tools'.accs = tools.accs ++ [acc])
    (refs : ∀ r ∈ tools'.refs, r < tools'.accs.length) (index : acc.outputIndex = next)
    (added : acc.itemAdded = true) (undone : acc.itemDone = false)
    (unparsed : acc.argumentsDone = false)
    (keys : tools'.bySourceIndex = tools.bySourceIndex.set acc.sourceIndex tools.accs.length)
    (unkeyed : tools.bySourceIndex.get? acc.sourceIndex = none) :
    Consistent loads reports tools' (next + 1) made := by
  have unused : lastStatus reports acc.outputIndex = none := by
    refine lastStatus_eq_none fun r mem closing same => ?_
    have low := h.unused r mem closing
    rw [same, index] at low
    exact absurd low (lt_irrefl _)
  have mem_iff : ∀ {new}, new ∈ tools'.accs ↔ new ∈ tools.accs ∨ new = acc := by
    intro new
    rw [accs, List.mem_append, List.mem_singleton]
  refine ⟨refs, fun new mem => ?_, ?_, fun new mem => ?_, fun r new found => ?_, h.echoed,
    fun entry mem => ⟨(h.apart entry mem).1.trans (Nat.lt_succ_self _), fun new mem' => ?_⟩,
    h.sound, fun r mem closing => ?_⟩
  · rcases mem_iff.mp mem with old | rfl
    · exact h.tracks new old
    · refine ⟨added, fun _ => ⟨unparsed, unused⟩, fun closed => ?_, fun parsed => ?_⟩
      · rw [undone] at closed
        cases closed
      · rw [unparsed] at parsed
        cases parsed
  · rw [accs, List.map_append, List.map_singleton, List.nodup_append]
    refine ⟨h.distinct, List.nodup_singleton _, fun i mem j last => ?_⟩
    obtain ⟨old, inside, rfl⟩ := List.mem_map.mp mem
    rw [List.mem_singleton.mp last, index]
    exact (h.below old inside).ne
  · rcases mem_iff.mp mem with old | rfl
    · exact (h.below new old).trans (Nat.lt_succ_self _)
    · rw [index]
      exact Nat.lt_succ_self _
  · rw [keys]
    rw [accs] at found
    rcases Nat.lt_or_ge r tools.accs.length with low | high
    · rw [List.getElem?_append_left low] at found
      have kept := h.keyed r new found
      rw [Dict.get?_set_of_ne]
      · exact kept
      · intro same
        rw [same, unkeyed] at kept
        cases kept
    · have last : r = tools.accs.length := by
        have bound := (List.getElem?_eq_some_iff.mp found).1
        rw [List.length_append, List.length_singleton] at bound
        omega
      subst last
      rw [List.getElem?_concat_length] at found
      cases found
      exact Dict.get?_set_self _ _ _
  · rcases mem_iff.mp mem' with old | rfl
    · exact (h.apart entry mem).2 new old
    · rw [index]
      exact (h.apart entry mem).1.ne'
  · rcases h.owned r mem closing with ⟨old, inside, same⟩ | other
    · exact .inl ⟨old, mem_iff.mpr (.inl inside), same⟩
    · exact .inr other

/-- An item of other origin under the next index; a call is announced and closed at once. -/
theorem makes (h : Consistent loads reports tools next made) (item : Fields)
    (sound : isCallItem item = true → SoundItem loads item) :
    Consistent loads
      (reports ++ ((reportOf false next item).toList ++ (reportOf true next item).toList))
      tools (next + 1) (made ++ [(next, item)]) := by
  let more := (reportOf false next item).toList ++ (reportOf true next item).toList
  have each : ∀ r ∈ more, isCallItem item = true ∧ r.index = next ∧ r.item = item := by
    intro r mem
    cases call : isCallItem item with
    | false =>
        simp only [more, reportOf_of_other call] at mem
        cases mem
    | true =>
        simp only [more, reportOf_of_call call, Option.toList_some, List.cons_append,
          List.nil_append, List.mem_cons, List.not_mem_nil, or_false] at mem
        rcases mem with rfl | rfl <;> exact ⟨rfl, rfl, rfl⟩
  have others : ∀ i : ℕ, i < next →
      lastStatus (reports ++ more) i = lastStatus reports i :=
    fun i low => lastStatus_append_of_other fun r mem _ same => by
      have equal : i = next := by exact_mod_cast same.symm.trans (each r mem).2.1
      omega
  refine ⟨h.refs_valid, fun acc mem => ?_, h.distinct, fun acc mem => ?_, h.keyed,
    fun entry mem call => ?_, fun entry mem => ?_, fun r mem => ?_, fun r mem closing => ?_⟩
  · have kept := h.tracks acc mem
    refine ⟨kept.added, ?_, ?_, kept.parses⟩
    · rw [others _ (h.below acc mem)]
      exact kept.pending
    · rw [others _ (h.below acc mem)]
      exact kept.closed
  · exact (h.below acc mem).trans (Nat.lt_succ_self _)
  · rcases List.mem_append.mp mem with old | new
    · rw [others _ (h.apart entry old).1]
      exact h.echoed entry old call
    · obtain rfl := List.mem_singleton.mp new
      refine ⟨?_, sound call⟩
      have whole : reports ++ more
          = (reports ++ [⟨false, next, item⟩]) ++ [⟨true, next, item⟩] := by
        simp only [more, reportOf_of_call call]
        simp
      show lastStatus (reports ++ more) next = _
      rw [whole, lastStatus_concat]
  · rcases List.mem_append.mp mem with old | new
    · exact ⟨(h.apart entry old).1.trans (Nat.lt_succ_self _), (h.apart entry old).2⟩
    · obtain rfl := List.mem_singleton.mp new
      exact ⟨Nat.lt_succ_self _, fun acc mem => (h.below acc mem).ne⟩
  · rcases List.mem_append.mp mem with old | new
    · exact h.sound r old
    · obtain ⟨call, _, same⟩ := each r new
      rw [same]
      exact sound call
  · rcases List.mem_append.mp mem with old | new
    · rcases h.owned r old closing with mine | ⟨entry, inside, call, same⟩
      · exact .inl mine
      · exact .inr ⟨entry, List.mem_append_left _ inside, call, same⟩
    · obtain ⟨call, index, _⟩ := each r new
      exact .inr ⟨(next, item), List.mem_append_right _ (List.mem_singleton_self _), call, index⟩

end Consistent

/-! ## The end -/

theorem Tracks.fragment {loads : String → Loaded} {reports : List CallReport}
    {acc acc' : ToolCallAccumulator} (h : Tracks loads reports acc) (same : SameItem acc acc')
    (parses : acc.argumentsDone = true → parsesObject loads acc'.arguments = true) :
    Tracks loads reports acc' where
  added := same.itemAdded.trans h.added
  pending := by
    rw [same.itemDone, same.argumentsDone, same.outputIndex]
    exact h.pending
  closed := by
    rw [same.itemDone, same.argumentsDone, same.outputIndex]
    exact h.closed
  parses := fun done => parses (same.argumentsDone ▸ done)

theorem Tracks.isPending {loads : String → Loaded} {reports : List CallReport}
    {acc : ToolCallAccumulator} (h : Tracks loads reports acc) :
    Pipeline.isPending acc = !acc.itemDone := by
  unfold Pipeline.isPending ToolCallAccumulator.isComplete
  cases open_ : acc.itemDone with
  | true => simp
  | false => simp [h.added, (h.pending open_).1]

/-- Reports that close, as incomplete, the calls that are not done. -/
structure Closes (tools : ToolCallCollection) (more : List CallReport) : Prop where
  each : ∀ r ∈ more, r.item.get "status" = some (.str Status.incomplete.value)
    ∧ ∃ acc ∈ tools.listAll, acc.itemDone = false ∧ r.index = acc.outputIndex
  every : ∀ acc ∈ tools.listAll, acc.itemDone = false →
    ∃ r ∈ more, r.closing = true ∧ r.index = acc.outputIndex

theorem mem_accs_of_listAll {tools : ToolCallCollection} {acc : ToolCallAccumulator}
    (mem : acc ∈ tools.listAll) : acc ∈ tools.accs := by
  obtain ⟨ref, _, held⟩ := ToolCallCollection.mem_listAll.mp mem
  exact List.mem_of_getElem? held

namespace Consistent

variable {loads : String → Loaded} {reports more : List CallReport} {tools : ToolCallCollection}
  {next : ℕ} {made : List (ℕ × Fields)}

theorem mem_listAll (h : Consistent loads reports tools next made) {acc : ToolCallAccumulator}
    (mem : acc ∈ tools.accs) : acc ∈ tools.listAll := by
  obtain ⟨ref, held⟩ := List.mem_iff_getElem?.mp mem
  refine ToolCallCollection.mem_listAll.mpr ⟨ref, ?_, held⟩
  exact ToolCallCollection.mem_refs.mpr (.inr ⟨_, h.keyed ref acc held⟩)

theorem status_of_call (h : Consistent loads reports tools next made) (closes : Closes tools more)
    {acc : ToolCallAccumulator} (mem : acc ∈ tools.listAll) :
    lastStatus (reports ++ more) acc.outputIndex = (Pipeline.toolOutput acc).get "status" := by
  have tracked := h.tracks acc (mem_accs_of_listAll mem)
  show _ = some (Json.str (closingStatus (!acc.argumentsDone)).value)
  cases ended : acc.itemDone with
  | false =>
      rw [(tracked.pending ended).1]
      exact lastStatus_append_of_agree (closes.every acc mem ended) fun r inside _ _ =>
        (closes.each r inside).1
  | true =>
      rw [← tracked.closed ended]
      refine lastStatus_append_of_other fun r inside _ same => ?_
      obtain ⟨_, other, listed, undone, index⟩ := closes.each r inside
      -- a call is known by its index, and this one is done
      obtain ⟨ref, held⟩ := List.mem_iff_getElem?.mp (mem_accs_of_listAll mem)
      obtain ⟨ref', held'⟩ := List.mem_iff_getElem?.mp (mem_accs_of_listAll listed)
      have equal : acc.outputIndex = other.outputIndex := by
        exact_mod_cast same.symm.trans index
      rw [h.position_unique held held' equal, held'] at held
      cases held
      rw [ended] at undone
      cases undone

theorem status_of_made (h : Consistent loads reports tools next made) (closes : Closes tools more)
    {entry : ℕ × Fields} (mem : entry ∈ made) (call : isCallItem entry.2 = true) :
    lastStatus (reports ++ more) entry.1 = entry.2.get "status" := by
  rw [← (h.echoed entry mem call).1]
  refine lastStatus_append_of_other fun r inside _ same => ?_
  obtain ⟨_, acc, listed, _, index⟩ := closes.each r inside
  refine (h.apart entry mem).2 acc (mem_accs_of_listAll listed) ?_
  exact_mod_cast index.symm.trans same

end Consistent

end Zhongzhuan.Responses
