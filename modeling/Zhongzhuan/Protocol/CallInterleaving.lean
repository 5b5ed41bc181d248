import Zhongzhuan.Protocol.ToolAccumulator

/-!
# Calls whose fragments arrive interleaved

Each fragment of a call has the index of the call, and some have its id.  The collection files a
call under a synthetic id first if need be, and under its own as soon as a fragment has it.

* `receive` is what one fragment does: `ensure`, then `append_arguments`.
* `Gathered` is what holds after some fragments: there is one object for each index that has been
  seen, with what the fragments of that index have brought, whatever came between them.
* `interleaved_calls` is the outcome for a family of calls, in any interleaving.
-/

namespace Zhongzhuan.Protocol

open Kit

/-- A fragment of a call; an empty id is none. -/
structure CallFragment where
  index : ℤ
  callId : String
  arguments : String
deriving DecidableEq, Repr

/-- A fragment with the output index that `ensure` is given for it. -/
structure Delivery where
  outputIndex : ℕ
  fragment : CallFragment
deriving DecidableEq, Repr

/-- What a fragment changes of its call. -/
def ToolCallAccumulator.grown (acc : ToolCallAccumulator) (f : CallFragment) :
    ToolCallAccumulator :=
  (acc.bindCallId f.callId).appendArguments f.arguments

section

variable (acc : ToolCallAccumulator) (f : CallFragment)

@[simp] theorem grown_sourceIndex : (acc.grown f).sourceIndex = acc.sourceIndex := by
  unfold ToolCallAccumulator.grown ToolCallAccumulator.bindCallId
  split <;> rfl

@[simp] theorem grown_outputIndex : (acc.grown f).outputIndex = acc.outputIndex := by
  unfold ToolCallAccumulator.grown ToolCallAccumulator.bindCallId
  split <;> rfl

@[simp] theorem grown_itemId : (acc.grown f).itemId = acc.itemId := by
  unfold ToolCallAccumulator.grown ToolCallAccumulator.bindCallId
  split <;> rfl

end

namespace ToolCallCollection

/-- One fragment: `ensure`, and `append_arguments` on what it returns. -/
def receive (tools : ToolCallCollection) (d : Delivery) : ToolCallCollection :=
  let found := tools.ensure d.outputIndex d.fragment.callId (some d.fragment.index)
  found.2.modify found.1 (·.appendArguments d.fragment.arguments)

/-- A collection after some fragments. -/
def receiveAll (responseId : String) (ds : List Delivery) : ToolCallCollection :=
  ds.foldl receive { responseId := responseId }

theorem receiveAll_concat (responseId : String) (ds : List Delivery) (d : Delivery) :
    receiveAll responseId (ds ++ [d]) = (receiveAll responseId ds).receive d := by
  rw [receiveAll, List.foldl_append]
  rfl

/-! ## What one fragment does -/

variable {tools : ToolCallCollection} {d : Delivery} {ref : ℕ}

theorem receive_known
    (found : tools.get d.fragment.callId (some d.fragment.index) = some ref) :
    tools.receive d
      = { tools with
          accs := tools.accs.modify ref (·.grown d.fragment)
          byCallId :=
            if d.fragment.callId = "" then tools.byCallId
            else tools.byCallId.set d.fragment.callId ref } := by
  unfold receive ensure
  rw [found]
  by_cases unnamed : d.fragment.callId = ""
  · simp only [if_pos unnamed, modify, ToolCallAccumulator.grown, ToolCallAccumulator.bindCallId]
  · simp only [if_neg unnamed, modify, List.modify_modify_eq]
    rfl

theorem receive_new (absent : tools.get d.fragment.callId (some d.fragment.index) = none) :
    let acc := tools.newAccumulator d.outputIndex d.fragment.callId (some d.fragment.index)
    (tools.receive d).accs = tools.accs ++ [acc.appendArguments d.fragment.arguments]
      ∧ (tools.receive d).byCallId = tools.byCallId.set acc.callId tools.accs.length
      ∧ (tools.receive d).bySourceIndex
          = tools.bySourceIndex.set d.fragment.index tools.accs.length
      ∧ (tools.receive d).responseId = tools.responseId := by
  have named := newAccumulator_callId_ne tools d.outputIndex d.fragment.callId
    (some d.fragment.index)
  have received : tools.receive d
      = (tools.create (tools.newAccumulator d.outputIndex d.fragment.callId
          (some d.fragment.index))).modify tools.accs.length
            (·.appendArguments d.fragment.arguments) := by
    unfold receive ensure
    rw [absent]
  dsimp only
  rw [received]
  refine ⟨modify_create _ _ _, ?_, rfl, rfl⟩
  change (create _ _).byCallId = _
  rw [create, if_neg named]

end ToolCallCollection

/-! ## What holds after some fragments -/

/-- The fragments with an index. -/
def fragmentsAt (index : ℤ) (ds : List Delivery) : List CallFragment :=
  (ds.map Delivery.fragment).filter fun f => f.index = index

theorem fragmentsAt_concat (index : ℤ) (ds : List Delivery) (d : Delivery) :
    fragmentsAt index (ds ++ [d])
      = fragmentsAt index ds ++ if d.fragment.index = index then [d.fragment] else [] := by
  rw [fragmentsAt, List.map_append, List.filter_append, ← fragmentsAt, List.map_singleton,
    List.filter_singleton]
  by_cases here : d.fragment.index = index <;> simp [here]

/-- The argument texts of fragments, joined. -/
def joinedArguments (fragments : List CallFragment) : String :=
  (fragments.map CallFragment.arguments).foldl (· ++ ·) ""

theorem joinedArguments_concat (fragments : List CallFragment) (f : CallFragment) :
    joinedArguments (fragments ++ [f]) = joinedArguments fragments ++ f.arguments := by
  rw [joinedArguments, List.map_append, List.foldl_append]
  rfl

/-- An object has what the fragments of its index have brought: the arguments, and the id that
they show, or the synthetic one as long as none does. -/
structure Brought (responseId : String) (ds : List Delivery) (acc : ToolCallAccumulator) :
    Prop where
  arguments : acc.arguments = joinedArguments (fragmentsAt acc.sourceIndex ds)
  callId : (∃ f ∈ fragmentsAt acc.sourceIndex ds, f.callId ≠ "" ∧ f.callId = acc.callId)
    ∨ (∀ f ∈ fragmentsAt acc.sourceIndex ds, f.callId = "")
      ∧ acc.callId = makeSyntheticCallId responseId acc.sourceIndex
  itemId : acc.itemId = makeFunctionCallItemIdStable responseId acc.outputIndex

/-- What holds of a collection after some fragments. -/
structure Gathered (responseId : String) (ds : List Delivery) (tools : ToolCallCollection) :
    Prop where
  response : tools.responseId = responseId
  bySource : ∀ index ref, tools.bySourceIndex.get? index = some ref
    ↔ ∃ acc, tools.accs[ref]? = some acc ∧ acc.sourceIndex = index
  byId : ∀ id ref, tools.byCallId.get? id = some ref → ∃ acc, tools.accs[ref]? = some acc
    ∧ ((∃ f ∈ fragmentsAt acc.sourceIndex ds, f.callId = id)
      ∨ id = makeSyntheticCallId responseId acc.sourceIndex)
  each : ∀ acc ∈ tools.accs, Brought responseId ds acc
  seen : ∀ index, (∃ acc ∈ tools.accs, acc.sourceIndex = index)
    ↔ ∃ d ∈ ds, d.fragment.index = index
  outputs : (tools.accs.map ToolCallAccumulator.outputIndex).Nodup

/-- Ids and indexes belong together, and no id is a synthetic one. -/
structure DistinctCalls (responseId : String) (ds : List Delivery) : Prop where
  together : ∀ d ∈ ds, ∀ d' ∈ ds, d.fragment.callId ≠ "" → d'.fragment.callId ≠ "" →
    (d.fragment.index = d'.fragment.index ↔ d.fragment.callId = d'.fragment.callId)
  real : ∀ d ∈ ds, ∀ index, d.fragment.callId ≠ makeSyntheticCallId responseId index

theorem DistinctCalls.of_append {responseId : String} {ds more : List Delivery}
    (distinct : DistinctCalls responseId (ds ++ more)) : DistinctCalls responseId ds where
  together := fun d mem d' mem' =>
    distinct.together d (List.mem_append_left _ mem) d' (List.mem_append_left _ mem')
  real := fun d mem => distinct.real d (List.mem_append_left _ mem)

section

variable {responseId : String} {ds : List Delivery} {d : Delivery} {acc : ToolCallAccumulator}
  {tools : ToolCallCollection}

theorem mem_fragmentsAt {index : ℤ} {f : CallFragment} :
    f ∈ fragmentsAt index ds ↔ ∃ d ∈ ds, d.fragment = f ∧ f.index = index := by
  rw [fragmentsAt, List.mem_filter, List.mem_map, decide_eq_true_eq]
  constructor
  · rintro ⟨⟨d, mem, same⟩, here⟩
    exact ⟨d, mem, same, here⟩
  · rintro ⟨d, mem, same, here⟩
    exact ⟨⟨d, mem, same⟩, here⟩

theorem fragmentsAt_of_ne (other : acc.sourceIndex ≠ d.fragment.index) :
    fragmentsAt acc.sourceIndex (ds ++ [d]) = fragmentsAt acc.sourceIndex ds := by
  rw [fragmentsAt_concat, if_neg (Ne.symm other), List.append_nil]

theorem Brought.other (brought : Brought responseId ds acc)
    (other : acc.sourceIndex ≠ d.fragment.index) : Brought responseId (ds ++ [d]) acc where
  arguments := by rw [fragmentsAt_of_ne other, brought.arguments]
  callId := by
    rw [fragmentsAt_of_ne other]
    exact brought.callId
  itemId := brought.itemId

theorem Brought.own (brought : Brought responseId ds acc)
    (same : acc.sourceIndex = d.fragment.index) :
    Brought responseId (ds ++ [d]) (acc.grown d.fragment) := by
  have fragments : fragmentsAt acc.sourceIndex (ds ++ [d])
      = fragmentsAt acc.sourceIndex ds ++ [d.fragment] := by
    rw [fragmentsAt_concat, if_pos same.symm]
  unfold ToolCallAccumulator.grown
  by_cases unnamed : d.fragment.callId = ""
  · have bound : acc.bindCallId d.fragment.callId = acc := if_pos unnamed
    rw [bound]
    refine ⟨?_, ?_, brought.itemId⟩
    · change acc.arguments ++ _ = joinedArguments (fragmentsAt acc.sourceIndex _)
      rw [fragments, joinedArguments_concat, brought.arguments]
    · change (∃ f ∈ fragmentsAt acc.sourceIndex _, f.callId ≠ "" ∧ f.callId = acc.callId)
        ∨ (∀ f ∈ fragmentsAt acc.sourceIndex _, f.callId = "") ∧ acc.callId = _
      rw [fragments]
      refine brought.callId.imp (fun shown => ?_) fun none => ⟨?_, none.2⟩
      · obtain ⟨f, mem, rest⟩ := shown
        exact ⟨f, List.mem_append_left _ mem, rest⟩
      · intro f mem
        rcases List.mem_append.mp mem with old | new
        · exact none.1 f old
        · rw [List.mem_singleton.mp new]
          exact unnamed
  · have bound : acc.bindCallId d.fragment.callId
        = { acc with callId := d.fragment.callId } := if_neg unnamed
    rw [bound]
    refine ⟨?_, .inl ⟨d.fragment, ?_, unnamed, rfl⟩, brought.itemId⟩
    · change acc.arguments ++ _ = joinedArguments (fragmentsAt acc.sourceIndex _)
      rw [fragments, joinedArguments_concat, brought.arguments]
    · change d.fragment ∈ fragmentsAt acc.sourceIndex _
      rw [fragments]
      exact List.mem_append_right _ (List.mem_singleton_self _)

theorem Brought.first (response : tools.responseId = responseId)
    (unseen : ∀ d' ∈ ds, d'.fragment.index ≠ d.fragment.index) :
    Brought responseId (ds ++ [d])
      ((tools.newAccumulator d.outputIndex d.fragment.callId
        (some d.fragment.index)).appendArguments d.fragment.arguments) := by
  have none : fragmentsAt d.fragment.index ds = [] := by
    refine List.eq_nil_iff_forall_not_mem.mpr fun f mem => ?_
    obtain ⟨d', inside, rfl, same⟩ := mem_fragmentsAt.mp mem
    exact unseen d' inside same
  have fragments : fragmentsAt d.fragment.index (ds ++ [d]) = [d.fragment] := by
    rw [fragmentsAt_concat, none, if_pos rfl, List.nil_append]
  refine ⟨?_, ?_, ?_⟩
  · change "" ++ d.fragment.arguments = joinedArguments (fragmentsAt d.fragment.index _)
    rw [fragments]
    rfl
  · change (∃ f ∈ fragmentsAt d.fragment.index _, f.callId ≠ "" ∧ f.callId = _)
      ∨ (∀ f ∈ fragmentsAt d.fragment.index _, f.callId = "") ∧ _
    rw [fragments, List.forall_mem_singleton]
    by_cases unnamed : d.fragment.callId = ""
    · refine .inr ⟨unnamed, ?_⟩
      simp only [ToolCallAccumulator.appendArguments, ToolCallCollection.newAccumulator,
        if_pos unnamed, Option.getD_some, response]
    · refine .inl ⟨d.fragment, List.mem_singleton_self _, unnamed, ?_⟩
      simp only [ToolCallAccumulator.appendArguments, ToolCallCollection.newAccumulator,
        if_neg unnamed]
  · change makeFunctionCallItemIdStable tools.responseId d.outputIndex = _
    rw [response]
    rfl

namespace Gathered

theorem get_eq (gathered : Gathered responseId ds tools)
    (distinct : DistinctCalls responseId (ds ++ [d])) :
    tools.get d.fragment.callId (some d.fragment.index)
      = tools.bySourceIndex.get? d.fragment.index := by
  unfold ToolCallCollection.get
  by_cases unnamed : d.fragment.callId = ""
  · rw [if_pos unnamed]
  · rw [if_neg unnamed]
    have here : d ∈ ds ++ [d] := List.mem_append_right _ (List.mem_singleton_self d)
    cases found : tools.byCallId.get? d.fragment.callId with
    | none => rfl
    | some ref =>
        -- what is filed under the id has shown it before, so it has the index as well
        obtain ⟨acc, held, ⟨f, mem, shown⟩ | synthetic⟩ := gathered.byId _ ref found
        · obtain ⟨d', inside, rfl, index⟩ := mem_fragmentsAt.mp mem
          have same := (distinct.together d' (List.mem_append_left _ inside) d here
            (by rwa [shown]) unnamed).mpr shown
          exact ((gathered.bySource _ ref).mpr ⟨acc, held, index.symm.trans same⟩).symm
        · exact absurd synthetic (distinct.real d here _)

theorem shown_mono {id : String} {a : ToolCallAccumulator}
    (shown : (∃ f ∈ fragmentsAt a.sourceIndex ds, f.callId = id)
      ∨ id = makeSyntheticCallId responseId a.sourceIndex) :
    (∃ f ∈ fragmentsAt a.sourceIndex (ds ++ [d]), f.callId = id)
      ∨ id = makeSyntheticCallId responseId a.sourceIndex := by
  refine shown.imp_left fun earlier => ?_
  obtain ⟨f, mem, same⟩ := earlier
  refine ⟨f, ?_, same⟩
  rw [fragmentsAt_concat]
  exact List.mem_append_left _ mem

end Gathered

/-- A fragment has landed in the object at `target`, which is `new` now. -/
structure Landed (responseId : String) (ds : List Delivery) (d : Delivery)
    (tools tools' : ToolCallCollection) (target : ℕ) (new : ToolCallAccumulator) : Prop where
  response : tools'.responseId = responseId
  places : ∀ r, tools'.accs[r]? = if r = target then some new else tools.accs[r]?
  sources : ∀ i, tools'.bySourceIndex.get? i
    = if i = d.fragment.index then some target else tools.bySourceIndex.get? i
  ids : ∀ id r, tools'.byCallId.get? id = some r → tools.byCallId.get? id = some r
    ∨ r = target ∧ (id = d.fragment.callId ∨ id = makeSyntheticCallId responseId d.fragment.index)
  index : new.sourceIndex = d.fragment.index
  brought : Brought responseId (ds ++ [d]) new
  only : ∀ r acc, tools.accs[r]? = some acc → acc.sourceIndex = d.fragment.index → r = target
  kept : ∀ acc, tools.accs[target]? = some acc →
    acc.sourceIndex = d.fragment.index ∧ new.itemId = acc.itemId
  outputs : (tools'.accs.map ToolCallAccumulator.outputIndex).Nodup

theorem Gathered.landed_known {ref : ℕ} (gathered : Gathered responseId ds tools)
    (distinct : DistinctCalls responseId (ds ++ [d]))
    (found : tools.bySourceIndex.get? d.fragment.index = some ref) :
    ∃ new, Landed responseId ds d tools (tools.receive d) ref new := by
  obtain ⟨acc, held, index⟩ := (gathered.bySource _ ref).mp found
  rw [ToolCallCollection.receive_known ((gathered.get_eq distinct).trans found)]
  refine ⟨acc.grown d.fragment, gathered.response, fun r => ?_, fun i => ?_, fun id r filed => ?_,
    (grown_sourceIndex _ _).trans index, (gathered.each acc (List.mem_of_getElem? held)).own index,
    fun r a stands same => ?_, fun a stands => ?_, ?_⟩
  · rw [List.getElem?_modify]
    by_cases here : r = ref
    · simp only [here, held, if_true, Option.map_eq_map, Option.map_some]
    · simp only [here, Ne.symm here, if_false, Option.map_eq_map, Option.map_id_fun', id]
  · by_cases here : i = d.fragment.index
    · rw [if_pos here, here]
      exact found
    · rw [if_neg here]
  · dsimp only at filed
    split at filed
    · exact .inl filed
    · rw [Dict.get?_set] at filed
      split at filed
      · exact .inr ⟨(Option.some.inj filed).symm, .inl ‹_›⟩
      · exact .inl filed
  · have first := (gathered.bySource _ r).mpr ⟨a, stands, same⟩
    exact Option.some.inj (first.symm.trans found)
  · rw [held] at stands
    obtain rfl := Option.some.inj stands
    exact ⟨index, grown_itemId _ _⟩
  · have same : (tools.accs.modify ref (·.grown d.fragment)).map ToolCallAccumulator.outputIndex
        = tools.accs.map ToolCallAccumulator.outputIndex := by
      refine List.ext_getElem? fun r => ?_
      rw [List.getElem?_map, List.getElem?_map, List.getElem?_modify]
      cases tools.accs[r]? with
      | none => rfl
      | some old =>
          simp only [Option.map_some, Option.map_eq_map]
          split
          · rw [grown_outputIndex]
          · rfl
    rw [same]
    exact gathered.outputs

theorem Gathered.landed_new (gathered : Gathered responseId ds tools)
    (distinct : DistinctCalls responseId (ds ++ [d]))
    (absent : tools.bySourceIndex.get? d.fragment.index = none)
    (free : ∀ acc ∈ tools.accs, acc.outputIndex ≠ d.outputIndex) :
    ∃ new, Landed responseId ds d tools (tools.receive d) tools.accs.length new := by
  have none : ∀ (r : ℕ) (acc : ToolCallAccumulator), tools.accs[r]? = some acc →
      acc.sourceIndex ≠ d.fragment.index := by
    intro r acc held same
    rw [(gathered.bySource _ r).mpr ⟨acc, held, same⟩] at absent
    cases absent
  have unseen : ∀ d' ∈ ds, d'.fragment.index ≠ d.fragment.index := by
    intro d' mem same
    obtain ⟨acc, inside, index⟩ := (gathered.seen _).mpr ⟨d', mem, same⟩
    obtain ⟨r, held⟩ := List.mem_iff_getElem?.mp inside
    exact none r acc held index
  obtain ⟨accs, byCallId, bySource, response⟩ :=
    ToolCallCollection.receive_new ((gathered.get_eq distinct).trans absent)
  refine ⟨_, response.trans gathered.response, fun r => ?_, fun i => ?_, fun id r filed => ?_, rfl,
    Brought.first gathered.response unseen, fun r a held same => absurd same (none r a held),
    fun a held => ?_, ?_⟩
  · rw [accs, List.getElem?_append]
    by_cases low : r < tools.accs.length
    · rw [if_pos low, if_neg (Nat.ne_of_lt low)]
    · rw [if_neg low, List.getElem?_singleton]
      by_cases here : r = tools.accs.length
      · rw [if_pos here, if_pos (by omega)]
      · rw [if_neg here, if_neg (by omega), List.getElem?_eq_none (Nat.le_of_not_lt low)]
  · rw [bySource, Dict.get?_set]
  · rw [byCallId, Dict.get?_set] at filed
    split at filed
    · rename_i same
      refine .inr ⟨(Option.some.inj filed).symm, ?_⟩
      rw [same, ToolCallCollection.newAccumulator]
      dsimp only
      split
      · exact .inr (by rw [gathered.response]; rfl)
      · exact .inl rfl
    · exact .inl filed
  · rw [List.getElem?_eq_none le_rfl] at held
    cases held
  · rw [accs, List.map_append]
    refine List.nodup_append.mpr ⟨gathered.outputs, List.nodup_singleton _, ?_⟩
    intro old mem new same
    obtain ⟨acc, inside, rfl⟩ := List.mem_map.mp mem
    rw [List.map_singleton, List.mem_singleton] at same
    rw [same]
    exact free acc inside

theorem Gathered.step {tools' : ToolCallCollection} {target : ℕ} {new : ToolCallAccumulator}
    (gathered : Gathered responseId ds tools)
    (landed : Landed responseId ds d tools tools' target new) :
    Gathered responseId (ds ++ [d]) tools' := by
  have last : d ∈ ds ++ [d] := List.mem_append_right _ (List.mem_singleton_self d)
  have there : tools'.accs[target]? = some new := by rw [landed.places, if_pos rfl]
  -- the other objects are of other indexes
  have other : ∀ (r : ℕ) (acc : ToolCallAccumulator), tools'.accs[r]? = some acc → r ≠ target →
      tools.accs[r]? = some acc ∧ acc.sourceIndex ≠ d.fragment.index := by
    intro r acc held away
    rw [landed.places, if_neg away] at held
    exact ⟨held, fun same => away (landed.only r acc held same)⟩
  have still : ∀ (r : ℕ) (acc : ToolCallAccumulator), tools.accs[r]? = some acc →
      acc.sourceIndex ≠ d.fragment.index →
      tools'.accs[r]? = some acc := by
    intro r acc held away
    rw [landed.places, if_neg]
    · exact held
    · rintro rfl
      exact away (landed.kept acc held).1
  refine ⟨landed.response, fun i r => ?_, fun id r filed => ?_, fun acc mem => ?_, fun i => ?_,
    landed.outputs⟩
  · rw [landed.sources]
    by_cases here : i = d.fragment.index
    · rw [if_pos here, here]
      constructor
      · rintro ⟨⟩
        exact ⟨new, there, landed.index⟩
      · rintro ⟨acc, held, same⟩
        by_contra away
        exact (other r acc held fun at' => away (by rw [at'])).2 same
    · rw [if_neg here, gathered.bySource]
      constructor
      · rintro ⟨acc, held, same⟩
        exact ⟨acc, still r acc held (by rw [same]; exact here), same⟩
      · rintro ⟨acc, held, same⟩
        by_cases at' : r = target
        · rw [at', there] at held
          obtain rfl := Option.some.inj held
          exact absurd (same.symm.trans landed.index) here
        · exact ⟨acc, (other r acc held at').1, same⟩
  · rcases landed.ids id r filed with old | ⟨rfl, shown⟩
    · obtain ⟨acc, held, shown⟩ := gathered.byId id r old
      by_cases here : acc.sourceIndex = d.fragment.index
      · obtain rfl := landed.only r acc held here
        refine ⟨new, there, ?_⟩
        rw [landed.index, ← here]
        exact shown_mono shown
      · exact ⟨acc, still r acc held here, shown_mono shown⟩
    · refine ⟨new, there, ?_⟩
      rw [landed.index]
      refine shown.imp_left fun same => ⟨d.fragment, ?_, same.symm⟩
      exact mem_fragmentsAt.mpr ⟨d, last, rfl, rfl⟩
  · obtain ⟨r, held⟩ := List.mem_iff_getElem?.mp mem
    by_cases at' : r = target
    · rw [at', there] at held
      rw [← Option.some.inj held]
      exact landed.brought
    · obtain ⟨before, away⟩ := other r acc held at'
      exact (gathered.each acc (List.mem_of_getElem? before)).other away
  · constructor
    · rintro ⟨acc, mem, rfl⟩
      obtain ⟨r, held⟩ := List.mem_iff_getElem?.mp mem
      by_cases at' : r = target
      · rw [at', there] at held
        rw [← Option.some.inj held]
        exact ⟨d, last, landed.index.symm⟩
      · obtain ⟨d', inside, same⟩ :=
          (gathered.seen _).mp ⟨acc, List.mem_of_getElem? (other r acc held at').1, rfl⟩
        exact ⟨d', List.mem_append_left _ inside, same⟩
    · rintro ⟨d', mem, rfl⟩
      by_cases here : d'.fragment.index = d.fragment.index
      · exact ⟨new, List.mem_of_getElem? there, landed.index.trans here.symm⟩
      · rcases List.mem_append.mp mem with old | new
        · obtain ⟨acc, inside, same⟩ := (gathered.seen _).mpr ⟨d', old, rfl⟩
          obtain ⟨r, held⟩ := List.mem_iff_getElem?.mp inside
          exact ⟨acc, List.mem_of_getElem? (still r acc held (by rw [same]; exact here)), same⟩
        · exact absurd (by rw [List.mem_singleton.mp new]) here

end

/-! ## Runs -/

/-- The output index of each fragment that makes a new object is not another object's. -/
def FreshOutputs : ToolCallCollection → List Delivery → Prop
  | _, [] => True
  | tools, d :: ds =>
    (tools.get d.fragment.callId (some d.fragment.index) = none →
        ∀ acc ∈ tools.accs, acc.outputIndex ≠ d.outputIndex)
      ∧ FreshOutputs (tools.receive d) ds

theorem freshOutputs_append (tools : ToolCallCollection) (ds more : List Delivery) :
    FreshOutputs tools (ds ++ more)
      ↔ FreshOutputs tools ds ∧ FreshOutputs (ds.foldl ToolCallCollection.receive tools) more := by
  induction ds generalizing tools with
  | nil => exact (Iff.of_eq (true_and _)).symm
  | cons d ds ih =>
      rw [List.cons_append, FreshOutputs, FreshOutputs, ih, List.foldl_cons, and_assoc]

section

variable {responseId : String} {ds : List Delivery}

theorem fresh_of_append {tools : ToolCallCollection} {more : List Delivery}
    (fresh : FreshOutputs tools (ds ++ more)) : FreshOutputs tools ds :=
  ((freshOutputs_append tools ds more).mp fresh).1

theorem gathered_nil (responseId : String) :
    Gathered responseId [] (ToolCallCollection.receiveAll responseId []) := by
  refine ⟨rfl, fun index ref => ?_, fun id ref found => ?_, ?_, ?_, List.nodup_nil⟩
  · simp [ToolCallCollection.receiveAll]
  · cases found
  · exact fun acc mem => absurd mem List.not_mem_nil
  · simp [ToolCallCollection.receiveAll]

theorem exists_landed {d : Delivery}
    (gathered : Gathered responseId ds (ToolCallCollection.receiveAll responseId ds))
    (distinct : DistinctCalls responseId (ds ++ [d]))
    (fresh : FreshOutputs { responseId := responseId } (ds ++ [d])) :
    ∃ target new, Landed responseId ds d (ToolCallCollection.receiveAll responseId ds)
      (ToolCallCollection.receiveAll responseId (ds ++ [d])) target new := by
  rw [ToolCallCollection.receiveAll_concat]
  cases found : (ToolCallCollection.receiveAll responseId ds).bySourceIndex.get?
      d.fragment.index with
  | some ref => exact ⟨ref, gathered.landed_known distinct found⟩
  | none =>
      have last := ((freshOutputs_append _ ds [d]).mp fresh).2.1
      exact ⟨_, gathered.landed_new distinct found
        (last ((gathered.get_eq distinct).trans found))⟩

theorem gathered_run (distinct : DistinctCalls responseId ds)
    (fresh : FreshOutputs { responseId := responseId } ds) :
    Gathered responseId ds (ToolCallCollection.receiveAll responseId ds) := by
  induction ds using List.reverseRecOn with
  | nil => exact gathered_nil responseId
  | append_singleton ds d ih =>
      have gathered := ih distinct.of_append (fresh_of_append fresh)
      obtain ⟨target, new, landed⟩ := exists_landed gathered distinct fresh
      exact gathered.step landed

theorem itemId_stays {more : List Delivery} (distinct : DistinctCalls responseId (ds ++ more))
    (fresh : FreshOutputs { responseId := responseId } (ds ++ more)) {acc : ToolCallAccumulator}
    (mem : acc ∈ (ToolCallCollection.receiveAll responseId ds).accs) :
    ∃ later ∈ (ToolCallCollection.receiveAll responseId (ds ++ more)).accs,
      later.sourceIndex = acc.sourceIndex ∧ later.itemId = acc.itemId := by
  induction more using List.reverseRecOn with
  | nil => exact ⟨acc, by rwa [List.append_nil], rfl, rfl⟩
  | append_singleton more d ih =>
      rw [← List.append_assoc] at distinct fresh ⊢
      obtain ⟨mid, inside, index, itemId⟩ := ih distinct.of_append (fresh_of_append fresh)
      obtain ⟨target, new, landed⟩ :=
        exists_landed (gathered_run distinct.of_append (fresh_of_append fresh)) distinct fresh
      obtain ⟨r, held⟩ := List.mem_iff_getElem?.mp inside
      have places := landed.places r
      by_cases here : r = target
      · subst here
        rw [if_pos rfl] at places
        obtain ⟨same, kept⟩ := landed.kept mid held
        exact ⟨new, List.mem_of_getElem? places, landed.index.trans (same.symm.trans index),
          kept.trans itemId⟩
      · rw [if_neg here] at places
        exact ⟨mid, List.mem_of_getElem? (places.trans held), index, itemId⟩

theorem Gathered.listAll_perm {tools : ToolCallCollection}
    (gathered : Gathered responseId ds tools) : tools.listAll.Perm tools.accs := by
  refine ToolCallCollection.listAll_perm fun ref => ?_
  rw [ToolCallCollection.mem_refs]
  constructor
  · rintro (⟨id, filed⟩ | ⟨index, filed⟩)
    · obtain ⟨acc, held, -⟩ := gathered.byId id ref filed
      exact (List.getElem?_eq_some_iff.mp held).1
    · obtain ⟨acc, held, -⟩ := (gathered.bySource index ref).mp filed
      exact (List.getElem?_eq_some_iff.mp held).1
  · intro low
    exact .inr ⟨_, (gathered.bySource _ ref).mpr ⟨_, List.getElem?_eq_getElem low, rfl⟩⟩

theorem Gathered.nodup_sources {tools : ToolCallCollection}
    (gathered : Gathered responseId ds tools) :
    (tools.accs.map ToolCallAccumulator.sourceIndex).Nodup := by
  refine List.pairwise_map.mpr (List.pairwise_iff_getElem.mpr fun i j low low' below same => ?_)
  have first := (gathered.bySource _ i).mpr ⟨_, List.getElem?_eq_getElem low, rfl⟩
  have second := (gathered.bySource _ j).mpr ⟨_, List.getElem?_eq_getElem low', same.symm⟩
  exact absurd (Option.some.inj (first.symm.trans second)) below.ne

end

/-! ## A family of calls -/

/-- A call as the upstream sends it. -/
structure SourceCall where
  index : ℤ
  callId : String
  fragments : List CallFragment
deriving DecidableEq, Repr

/-- Calls with indexes and ids of their own, none of them synthetic, that show their id at some
fragment. -/
structure CallFamily (responseId : String) (calls : List SourceCall) : Prop where
  indexes : (calls.map SourceCall.index).Nodup
  ids : (calls.map SourceCall.callId).Nodup
  named : ∀ call ∈ calls, call.callId ≠ ""
  real : ∀ call ∈ calls, ∀ index, call.callId ≠ makeSyntheticCallId responseId index
  own : ∀ call ∈ calls, ∀ f ∈ call.fragments,
    f.index = call.index ∧ (f.callId = "" ∨ f.callId = call.callId)
  shown : ∀ call ∈ calls, ∃ f ∈ call.fragments, f.callId = call.callId

/-- An interleaving of the fragments of some calls, each call's in their order. -/
structure Interleaves (calls : List SourceCall) (ds : List Delivery) : Prop where
  order : ∀ call ∈ calls, fragmentsAt call.index ds = call.fragments
  nothing : ∀ d ∈ ds, ∃ call ∈ calls, d.fragment.index = call.index

section

variable {responseId : String} {calls : List SourceCall} {ds : List Delivery}

theorem CallFamily.distinctCalls (family : CallFamily responseId calls)
    (interleaves : Interleaves calls ds) : DistinctCalls responseId ds := by
  have call_of : ∀ d ∈ ds, ∃ call ∈ calls, d.fragment.index = call.index
      ∧ (d.fragment.callId = "" ∨ d.fragment.callId = call.callId) := by
    intro d mem
    obtain ⟨call, inside, index⟩ := interleaves.nothing d mem
    have fragment : d.fragment ∈ call.fragments := by
      rw [← interleaves.order call inside]
      exact mem_fragmentsAt.mpr ⟨d, mem, rfl, index⟩
    exact ⟨call, inside, index, (family.own call inside _ fragment).2⟩
  refine ⟨fun d mem d' mem' named named' => ?_, fun d mem index => ?_⟩
  · obtain ⟨call, inside, index, own⟩ := call_of d mem
    obtain ⟨call', inside', index', own'⟩ := call_of d' mem'
    rw [index, index', own.resolve_left named, own'.resolve_left named']
    constructor
    · intro same
      rw [List.inj_on_of_nodup_map family.indexes inside inside' same]
    · intro same
      rw [List.inj_on_of_nodup_map family.ids inside inside' same]
  · obtain ⟨call, inside, -, unnamed | own⟩ := call_of d mem
    · rw [unnamed]
      simp [makeSyntheticCallId]
    · rw [own]
      exact family.real call inside index

theorem Brought.eq_call (family : CallFamily responseId calls) (interleaves : Interleaves calls ds)
    {acc : ToolCallAccumulator} (brought : Brought responseId ds acc) {call : SourceCall}
    (inside : call ∈ calls) (index : acc.sourceIndex = call.index) :
    acc.callId = call.callId ∧ acc.arguments = joinedArguments call.fragments := by
  have fragments : fragmentsAt acc.sourceIndex ds = call.fragments := by
    rw [index, interleaves.order call inside]
  refine ⟨?_, by rw [brought.arguments, fragments]⟩
  obtain ⟨f, mem, shown⟩ := family.shown call inside
  have named : f.callId ≠ "" := by
    rw [shown]
    exact family.named call inside
  rcases brought.callId with ⟨f', mem', named', same⟩ | ⟨none, -⟩
  · rw [fragments] at mem'
    rw [← same, (family.own call inside f' mem').2.resolve_left named']
  · rw [fragments] at none
    exact absurd (none f mem) named

theorem makeFunctionCallItemIdStable_injective (responseId : String) :
    Function.Injective (makeFunctionCallItemIdStable responseId) := by
  intro m n same
  have chars := congrArg String.toList same
  simp only [makeFunctionCallItemIdStable, String.toList_append, List.append_cancel_left_eq]
    at chars
  exact Nat.repr_inj.mp (String.toList_inj.mp chars)

end

/-- **Calls in any interleaving**: there is exactly one object for each call, with the id of the
call and its arguments in order, and an item id that it has kept from the start and shares with
no other. -/
theorem interleaved_calls (responseId : String) (calls : List SourceCall) (ds : List Delivery)
    (family : CallFamily responseId calls) (interleaves : Interleaves calls ds)
    (fresh : FreshOutputs { responseId := responseId } ds) :
    let tools := ToolCallCollection.receiveAll responseId ds
    (tools.listAll.map fun acc => (acc.sourceIndex, acc.callId, acc.arguments)).Perm
        (calls.map fun call => (call.index, call.callId, joinedArguments call.fragments))
      ∧ (tools.listAll.map ToolCallAccumulator.itemId).Nodup
      ∧ ∀ before after, ds = before ++ after →
        ∀ acc ∈ (ToolCallCollection.receiveAll responseId before).listAll,
          ∃ later ∈ tools.listAll,
            later.sourceIndex = acc.sourceIndex ∧ later.itemId = acc.itemId := by
  intro tools
  have distinct := family.distinctCalls interleaves
  have gathered : Gathered responseId ds tools := gathered_run distinct fresh
  have listed := gathered.listAll_perm
  refine ⟨?_, ?_, ?_⟩
  · -- neither list has an index twice, so it is enough that they have the same entries
    refine (listed.map _).trans ((List.perm_ext_iff_of_nodup ?_ ?_).mpr fun entry => ?_)
    · exact List.Nodup.of_map Prod.fst (by rw [List.map_map]; exact gathered.nodup_sources)
    · exact List.Nodup.of_map Prod.fst (by rw [List.map_map]; exact family.indexes)
    · constructor
      · intro mem
        obtain ⟨acc, inside, rfl⟩ := List.mem_map.mp mem
        obtain ⟨d, arrived, index⟩ := (gathered.seen acc.sourceIndex).mp ⟨acc, inside, rfl⟩
        obtain ⟨call, here, same⟩ := interleaves.nothing d arrived
        have source := index.symm.trans same
        obtain ⟨callId, arguments⟩ :=
          (gathered.each acc inside).eq_call family interleaves here source
        rw [source, callId, arguments]
        exact List.mem_map_of_mem here
      · intro mem
        obtain ⟨call, here, rfl⟩ := List.mem_map.mp mem
        obtain ⟨f, fragment, -⟩ := family.shown call here
        rw [← interleaves.order call here] at fragment
        obtain ⟨d, arrived, rfl, index⟩ := mem_fragmentsAt.mp fragment
        obtain ⟨acc, inside, source⟩ := (gathered.seen call.index).mpr ⟨d, arrived, index⟩
        obtain ⟨callId, arguments⟩ :=
          (gathered.each acc inside).eq_call family interleaves here source
        rw [← source, ← callId, ← arguments]
        exact List.mem_map_of_mem inside
  · have ids : tools.accs.map ToolCallAccumulator.itemId
        = (tools.accs.map ToolCallAccumulator.outputIndex).map
            (makeFunctionCallItemIdStable responseId) := by
      rw [List.map_map]
      exact List.map_congr_left fun acc mem => (gathered.each acc mem).itemId
    refine ((listed.map _).nodup_iff).mpr ?_
    rw [ids]
    exact gathered.outputs.map (makeFunctionCallItemIdStable_injective responseId)
  · rintro before after rfl acc mem
    have earlier := (gathered_run distinct.of_append (fresh_of_append fresh)).listAll_perm
    obtain ⟨later, inside, same⟩ := itemId_stays distinct fresh (earlier.mem_iff.mp mem)
    exact ⟨later, listed.mem_iff.mpr inside, same⟩

/-! ### Two calls, one of which shows its id late -/

/-- A call that shows its id with its second fragment, and one that shows it with its first. -/
def twoCalls : List SourceCall :=
  [⟨0, "a", [⟨0, "", "x"⟩, ⟨0, "a", "y"⟩]⟩, ⟨1, "b", [⟨1, "b", "u"⟩, ⟨1, "", "v"⟩]⟩]

/-- Their fragments, in turn. -/
def twoInTurn : List Delivery :=
  [⟨1, ⟨0, "", "x"⟩⟩, ⟨2, ⟨1, "b", "u"⟩⟩, ⟨3, ⟨0, "a", "y"⟩⟩, ⟨3, ⟨1, "", "v"⟩⟩]

theorem twoCalls_gathered :
    ((ToolCallCollection.receiveAll "r" twoInTurn).listAll.map
        fun acc => (acc.sourceIndex, acc.callId, acc.arguments)).Perm
      [(0, "a", "xy"), (1, "b", "uv")] := by
  have family : CallFamily "r" twoCalls := by
    refine ⟨by decide, by decide, by decide, fun call mem index same => ?_, by decide, by decide⟩
    have chars := congrArg String.toList same
    rw [makeSyntheticCallId, String.toList_append, String.toList_append, String.toList_append]
      at chars
    have length := congrArg List.length chars
    simp only [twoCalls, List.mem_cons, List.not_mem_nil, or_false] at mem
    rcases mem with rfl | rfl <;> simp at length
  have interleaves : Interleaves twoCalls twoInTurn := ⟨by decide, by decide⟩
  have fresh : FreshOutputs { responseId := "r" } twoInTurn :=
    ⟨by decide, by decide, by decide, by decide, trivial⟩
  exact (interleaved_calls "r" twoCalls twoInTurn family interleaves fresh).1

end Zhongzhuan.Protocol
