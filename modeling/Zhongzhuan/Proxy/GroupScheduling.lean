import Zhongzhuan.Kit.Dict
import Zhongzhuan.Kit.SmoothRounds
import Zhongzhuan.Kit.Sort

/-!
# Which model of a group is next

The model of the group part of `proxy/scheduler.py`.

* `pickGroupModel` has the three strategies: the first available member, the members in turn, or
  the members by weight.  The counters and the current weights of all groups are the module's
  dictionaries, here `SchedulerState`.
* `swrrPick` is the smooth weighted choice; `swrrPick_round` says that it is a round of
  `SmoothRounds`.
* `weighted_block`: every member is chosen as often as its weight says.

The floats of the weights are exact.
-/

namespace Zhongzhuan.Proxy

open Kit

/-! ## Groups -/

/-- `GroupMember`. -/
structure GroupMember where
  modelId : ℤ
  weight : ℤ
  ord : ℤ
deriving DecidableEq

/-- The strategies; any other name chooses nothing. -/
inductive GroupStrategy
  | failover
  | roundRobin
  | weighted
  | unknown
deriving DecidableEq

/-- `Group`. -/
structure ModelGroup where
  id : ℤ
  strategy : GroupStrategy
  members : Option (List GroupMember)

namespace ModelGroup

/-- `self.members or []`. -/
def memberList (g : ModelGroup) : List GroupMember :=
  g.members.getD []

/-- `member_ids`. -/
def memberIds (g : ModelGroup) : List ℤ :=
  g.memberList.map GroupMember.modelId

end ModelGroup

/-- `ModelHealth`. -/
structure ModelHealth where
  modelId : ℤ
  name : String
  available : Bool
  weightPenalty : ℚ
deriving DecidableEq

/-- `models`: the health of each model under its id. -/
structure ModelTable where
  byId : Dict ℤ ModelHealth
  ids : ∀ (id : ℤ) (h : ModelHealth), byId.get? id = some h → h.modelId = id

namespace ModelTable

/-- `h = models.get(model_id)`, when there is one and it is available. -/
def available (models : ModelTable) (modelId : ℤ) : Option ModelHealth :=
  (models.byId.get? modelId).filter ModelHealth.available

/-- `{h.model_id: h for h in hs}`. -/
def index (hs : List ModelHealth) : Dict ℤ ModelHealth :=
  hs.foldl (fun byId h => byId.set h.modelId h) Dict.empty

theorem index_ids (hs : List ModelHealth) (id : ℤ) (h : ModelHealth)
    (found : (index hs).get? id = some h) : h.modelId = id := by
  induction hs using List.reverseRecOn with
  | nil => cases found
  | append_singleton hs last ih =>
    rw [index, List.foldl_append, List.foldl_cons, List.foldl_nil, Dict.get?_set] at found
    by_cases same : id = last.modelId
    · rw [if_pos same] at found
      rw [same, ← Option.some.inj found]
    · rw [if_neg same] at found
      exact ih found

/-- The table of a list of models. -/
def ofList (hs : List ModelHealth) : ModelTable :=
  ⟨index hs, index_ids hs⟩

theorem modelId_of_available {models : ModelTable} {modelId : ℤ} {h : ModelHealth}
    (found : models.available modelId = some h) : h.modelId = modelId :=
  models.ids modelId h (Option.filter_eq_some_iff.mp found).1

end ModelTable

/-- `_round_robin_counters` and `_swrr_state`. -/
structure SchedulerState where
  roundRobinCounters : Dict ℤ ℕ
  swrrState : Dict ℤ (Dict ℤ ℤ)

namespace SchedulerState

/-- The current weights of a group; a group without an entry has none. -/
def currentWeights (s : SchedulerState) (groupId : ℤ) : Dict ℤ ℤ :=
  (s.swrrState.get? groupId).getD Dict.empty

end SchedulerState

/-! ## The smooth weighted choice -/

/-- A tuple `(model_id, health, weight)`. -/
structure SwrrCandidate where
  modelId : ℤ
  health : ModelHealth
  weight : ℤ
deriving DecidableEq

/-- `state[mid] = state.get(mid, 0) + w`. -/
def credit (state : Dict ℤ ℤ) (c : SwrrCandidate) : Dict ℤ ℤ :=
  state.set c.modelId ((state.get? c.modelId).getD 0 + c.weight)

/-- `state[c[0]]` is above `state[best[0]]`. -/
def higher (state : Dict ℤ ℤ) (c best : SwrrCandidate) : Bool :=
  decide ((state.get? best.modelId).getD 0 < (state.get? c.modelId).getD 0)

/-- `_swrr_pick`; `max` takes the first of the greatest, and has none to take without
candidates. -/
def swrrPick (s : SchedulerState) (groupId : ℤ) (candidates : List SwrrCandidate) :
    SchedulerState × Option ModelHealth :=
  let state := candidates.foldl credit (s.currentWeights groupId)
  match firstLeast (fun c best => higher state c best) candidates with
  | none => (s, none)
  | some best =>
    let total := (candidates.map SwrrCandidate.weight).sum
    let state := state.set best.modelId ((state.get? best.modelId).getD 0 - total)
    let state := state.keepIf fun mid _ => candidates.any (·.modelId = mid)
    ({ s with swrrState := s.swrrState.set groupId state },
      (candidates.find? (·.modelId = best.modelId) <|> candidates.head?).map (·.health))

/-! ## `pick_group_model` -/

/-- The weight after the penalty of the model, to the nearest and at least one.  `int` differs
from `⌊·⌋` below zero only. -/
def foldedWeight (m : GroupMember) (h : ModelHealth) : ℤ :=
  max 1 ⌊m.weight * h.weightPenalty + 1 / 2⌋

/-- The weights of the available members. -/
def weightedCandidates (g : ModelGroup) (models : ModelTable) : List SwrrCandidate :=
  g.memberList.filterMap fun m =>
    (models.available m.modelId).map fun h => ⟨m.modelId, h, foldedWeight m h⟩

/-- The available members other than the last one, or all when there is no other. -/
def roundRobinCandidates (g : ModelGroup) (models : ModelTable) (lastModelId : Option ℤ) :
    List ModelHealth :=
  let others := g.memberList.filterMap fun m =>
    if some m.modelId = lastModelId then none else models.available m.modelId
  if others = [] then g.memberList.filterMap fun m => models.available m.modelId else others

/-- `pick_group_model`. -/
def pickGroupModel (s : SchedulerState) (g : ModelGroup) (models : ModelTable)
    (lastModelId : Option ℤ) : SchedulerState × Option ModelHealth :=
  if g.memberList = [] then
    ({ roundRobinCounters := s.roundRobinCounters.erase g.id
       swrrState := s.swrrState.erase g.id }, none)
  else
    match g.strategy with
    | .failover =>
      (s, (g.memberList.mergeSort fun a b => a.ord ≤ b.ord).findSome? fun m =>
        models.available m.modelId)
    | .roundRobin =>
      let candidates := roundRobinCandidates g models lastModelId
      if candidates = [] then (s, none)
      else
        let idx := (s.roundRobinCounters.get? g.id).getD 0 % candidates.length
        ({ s with roundRobinCounters := s.roundRobinCounters.set g.id (idx + 1) },
          candidates[idx]?)
    | .weighted =>
      let weights := weightedCandidates g models
      if weights = [] then (s, none) else swrrPick s g.id weights
    | .unknown => (s, none)

/-! ## The choice by weight is a round -/

section Weighted

variable {candidates : List SwrrCandidate} {state : Dict ℤ ℤ}

/-- The ids of the candidates. -/
def candidateIds (candidates : List SwrrCandidate) : List ℤ :=
  candidates.map SwrrCandidate.modelId

/-- The weight of the candidate with an id. -/
def weightOf (candidates : List SwrrCandidate) (modelId : ℤ) : ℤ :=
  ((candidates.find? (·.modelId = modelId)).map SwrrCandidate.weight).getD 0

theorem find?_modelId (distinct : (candidateIds candidates).Nodup) {c : SwrrCandidate}
    (mem : c ∈ candidates) : candidates.find? (·.modelId = c.modelId) = some c := by
  induction candidates with
  | nil => exact absurd mem List.not_mem_nil
  | cons d candidates ih =>
    rw [candidateIds, List.map_cons, List.nodup_cons] at distinct
    rcases List.mem_cons.mp mem with rfl | mem'
    · simp
    · have other : d.modelId ≠ c.modelId := fun same =>
        distinct.1 (same ▸ List.mem_map_of_mem mem')
      simp [other, ih distinct.2 mem']

theorem weightOf_eq (distinct : (candidateIds candidates).Nodup) {c : SwrrCandidate}
    (mem : c ∈ candidates) : weightOf candidates c.modelId = c.weight := by
  rw [weightOf, find?_modelId distinct mem]
  rfl

theorem sum_weightOf (distinct : (candidateIds candidates).Nodup) :
    ∑ i ∈ (candidateIds candidates).toFinset, weightOf candidates i =
      (candidates.map SwrrCandidate.weight).sum := by
  rw [List.sum_toFinset _ distinct, candidateIds, List.map_map]
  exact congrArg List.sum (List.map_congr_left fun c mem => weightOf_eq distinct mem)

theorem get?_credits_of_not_mem {modelId : ℤ} (other : modelId ∉ candidateIds candidates) :
    (candidates.foldl credit state).get? modelId = state.get? modelId := by
  induction candidates generalizing state with
  | nil => rfl
  | cons c candidates ih =>
    rw [candidateIds, List.map_cons, List.mem_cons, not_or] at other
    rw [List.foldl_cons, ih other.2, credit, Dict.get?_set_of_ne _ _ other.1]

theorem get?_credits (distinct : (candidateIds candidates).Nodup) {c : SwrrCandidate}
    (mem : c ∈ candidates) :
    (candidates.foldl credit state).get? c.modelId =
      some ((state.get? c.modelId).getD 0 + c.weight) := by
  induction candidates generalizing state with
  | nil => exact absurd mem List.not_mem_nil
  | cons d candidates ih =>
    rw [candidateIds, List.map_cons, List.nodup_cons] at distinct
    rw [List.foldl_cons]
    rcases List.mem_cons.mp mem with rfl | mem'
    · rw [get?_credits_of_not_mem distinct.1, credit, Dict.get?_set_self]
    · have other : c.modelId ≠ d.modelId := fun same =>
        distinct.1 (same ▸ List.mem_map_of_mem mem')
      rw [ih distinct.2 mem', credit, Dict.get?_set_of_ne _ _ other]

theorem levels_higher (state : Dict ℤ ℤ) (candidates : List SwrrCandidate) :
    Levels (fun c best => higher state c best) candidates where
  asymm := fun c _ best _ above => by
    simp only [higher, decide_eq_true_eq, decide_eq_false_iff_not] at above ⊢
    omega
  level := fun a _ b _ c _ first second => by
    simp only [higher, decide_eq_false_iff_not] at first second ⊢
    omega

/-- The weights of a group, with zero for who has none. -/
def SchedulerState.current (s : SchedulerState) (groupId modelId : ℤ) : ℤ :=
  ((s.currentWeights groupId).get? modelId).getD 0

theorem exists_highest (state : Dict ℤ ℤ) (some_ : candidates ≠ []) :
    ∃ best ∈ candidates, firstLeast (fun c best => higher state c best) candidates = some best ∧
      ∀ c ∈ candidates,
        (state.get? c.modelId).getD 0 ≤ (state.get? best.modelId).getD 0 := by
  cases found : firstLeast (fun c best => higher state c best) candidates with
  | none =>
    cases candidates with
    | nil => exact absurd rfl some_
    | cons _ _ => cases found
  | some best =>
    have levels := levels_higher state candidates
    have first := firstLeast_isFirstLeast levels found
    refine ⟨best, first.mem, rfl, fun c mem => ?_⟩
    have below := first.least levels c mem
    simpa [higher] using below

/-- What is left of the current weights when the chosen member has paid. -/
def settled (state : Dict ℤ ℤ) (candidates : List SwrrCandidate) (best : SwrrCandidate) :
    Dict ℤ ℤ :=
  (state.set best.modelId
    ((state.get? best.modelId).getD 0 - (candidates.map SwrrCandidate.weight).sum)).keepIf
      fun mid _ => candidates.any (·.modelId = mid)

theorem swrrPick_eq {s : SchedulerState} {groupId : ℤ} {best : SwrrCandidate}
    (distinct : (candidateIds candidates).Nodup) (mem : best ∈ candidates)
    (found : firstLeast (fun c best =>
      higher (candidates.foldl credit (s.currentWeights groupId)) c best) candidates = some best) :
    swrrPick s groupId candidates =
      ({ s with
         swrrState := s.swrrState.set groupId
           (settled (candidates.foldl credit (s.currentWeights groupId)) candidates best) },
        some best.health) := by
  simp only [swrrPick, found, find?_modelId distinct mem]
  rfl

theorem get?_settled (state : Dict ℤ ℤ) {best c : SwrrCandidate} (mem : c ∈ candidates) :
    ((settled state candidates best).get? c.modelId).getD 0 =
      (state.get? c.modelId).getD 0 -
        if c.modelId = best.modelId then (candidates.map SwrrCandidate.weight).sum else 0 := by
  have kept : candidates.any (·.modelId = c.modelId) = true :=
    List.any_eq_true.mpr ⟨c, mem, by simp⟩
  rw [settled, Dict.get?_keepIf, Dict.get?_set]
  by_cases chosen : c.modelId = best.modelId
  · have kept' := chosen ▸ kept
    simp [chosen, kept', Option.filter]
  · rw [if_neg chosen, if_neg chosen, sub_zero]
    cases held : state.get? c.modelId with
    | none => rfl
    | some v => simp [Option.filter, kept]

theorem mem_keys_settled {state : Dict ℤ ℤ} {best : SwrrCandidate}
    (all : ∀ c ∈ candidates, c.modelId ∈ state.keys) (k : ℤ) :
    k ∈ (settled state candidates best).keys ↔ k ∈ candidateIds candidates := by
  rw [Dict.mem_keys, settled, Dict.get?_keepIf]
  constructor
  · intro kept
    obtain ⟨v, held⟩ := Option.isSome_iff_exists.mp kept
    obtain ⟨c, mem, same⟩ := List.any_eq_true.mp (Option.filter_eq_some_iff.mp held).2
    exact List.mem_map.mpr ⟨c, mem, of_decide_eq_true same⟩
  · intro mem
    obtain ⟨c, mem', rfl⟩ := List.mem_map.mp mem
    have kept : candidates.any (·.modelId = c.modelId) = true :=
      List.any_eq_true.mpr ⟨c, mem', by simp⟩
    have held := Dict.mem_keys.mp (all c mem')
    rw [Dict.get?_set]
    by_cases chosen : c.modelId = best.modelId
    · have kept' := chosen ▸ kept
      simp [chosen, kept', Option.filter]
    · obtain ⟨v, stored⟩ := Option.isSome_iff_exists.mp held
      simp [chosen, stored, Option.filter, kept]

/-- **One choice.**  It is a round of the candidates, and leaves a current weight for each of
them and for nobody else. -/
theorem swrrPick_round (s : SchedulerState) (groupId : ℤ)
    (distinct : (candidateIds candidates).Nodup) (some_ : candidates ≠ []) :
    ∃ best ∈ candidates, (swrrPick s groupId candidates).2 = some best.health ∧
      SmoothRounds.Round (candidateIds candidates).toFinset (weightOf candidates)
        (s.current groupId) best.modelId ((swrrPick s groupId candidates).1.current groupId) ∧
      ∀ k, k ∈ ((swrrPick s groupId candidates).1.currentWeights groupId).keys ↔
        k ∈ candidateIds candidates := by
  obtain ⟨best, mem, found, most⟩ :=
    exists_highest (candidates.foldl credit (s.currentWeights groupId)) some_
  have result := swrrPick_eq distinct mem found
  have after : (swrrPick s groupId candidates).1.currentWeights groupId =
      settled (candidates.foldl credit (s.currentWeights groupId)) candidates best := by
    rw [result, SchedulerState.currentWeights, Dict.get?_set_self]
    rfl
  -- what a member has before it pays
  have credited : ∀ c ∈ candidates,
      ((candidates.foldl credit (s.currentWeights groupId)).get? c.modelId).getD 0 =
        s.current groupId c.modelId + weightOf candidates c.modelId := fun c mem' => by
    rw [get?_credits distinct mem', weightOf_eq distinct mem']
    rfl
  refine ⟨best, mem, by rw [result], ⟨?_, ?_, ?_⟩, ?_⟩
  · exact List.mem_toFinset.mpr (List.mem_map_of_mem mem)
  · intro i member
    obtain ⟨c, mem', rfl⟩ := List.mem_map.mp (List.mem_toFinset.mp member)
    rw [← credited c mem', ← credited best mem]
    exact most c mem'
  · intro i member
    obtain ⟨c, mem', rfl⟩ := List.mem_map.mp (List.mem_toFinset.mp member)
    rw [sum_weightOf distinct, ← credited c mem', SchedulerState.current, after]
    exact get?_settled _ mem'
  · rw [after]
    refine mem_keys_settled fun c mem' => ?_
    rw [Dict.mem_keys, get?_credits distinct mem']
    rfl

end Weighted

/-! ## Consecutive calls -/

/-- Consecutive calls, each with its `last_model_id`: the state they leave and what they
return. -/
def pickAll (s : SchedulerState) (g : ModelGroup) (models : ModelTable) :
    List (Option ℤ) → SchedulerState × List (Option ModelHealth)
  | [] => (s, [])
  | last :: lasts =>
    let (s', chosen) := pickGroupModel s g models last
    let (s'', rest) := pickAll s' g models lasts
    (s'', chosen :: rest)

section Calls

variable {g : ModelGroup} {models : ModelTable}

theorem modelId_of_mem {c : SwrrCandidate} (mem : c ∈ weightedCandidates g models) :
    c.health.modelId = c.modelId ∧ 1 ≤ c.weight := by
  obtain ⟨m, -, found⟩ := List.mem_filterMap.mp mem
  obtain ⟨h, available, rfl⟩ := Option.map_eq_some_iff.mp found
  exact ⟨ModelTable.modelId_of_available available, le_max_left _ _⟩

theorem candidateIds_sublist (g : ModelGroup) (models : ModelTable) :
    List.Sublist (candidateIds (weightedCandidates g models)) g.memberIds := by
  unfold candidateIds weightedCandidates ModelGroup.memberIds
  induction g.memberList with
  | nil => exact List.Sublist.slnil
  | cons m members ih =>
    cases found : models.available m.modelId with
    | none =>
      rw [List.filterMap_cons_none (by rw [found]; rfl)]
      exact ih.cons _
    | some h =>
      rw [List.filterMap_cons_some (by rw [found]; rfl)]
      exact ih.cons_cons _

theorem pickGroupModel_weighted (s : SchedulerState) (weighted : g.strategy = .weighted)
    (some_ : weightedCandidates g models ≠ []) (last : Option ℤ) :
    pickGroupModel s g models last = swrrPick s g.id (weightedCandidates g models) := by
  have members : g.memberList ≠ [] := fun none_ => some_ (by simp [weightedCandidates, none_])
  simp only [pickGroupModel, if_neg members, weighted, if_neg some_]

/-- The current weights belong to candidates. -/
def WeightsOfCandidates (g : ModelGroup) (models : ModelTable) (s : SchedulerState) : Prop :=
  ∀ k ∈ (s.currentWeights g.id).keys, k ∈ candidateIds (weightedCandidates g models)

theorem pickAll_rounds (weighted : g.strategy = .weighted)
    (distinct : (candidateIds (weightedCandidates g models)).Nodup)
    (some_ : weightedCandidates g models ≠ []) (s : SchedulerState)
    (own : WeightsOfCandidates g models s) (lasts : List (Option ℤ)) :
    ∃ picks,
      (pickAll s g models lasts).2.map (Option.map ModelHealth.modelId) = picks.map some ∧
      SmoothRounds.Rounds (candidateIds (weightedCandidates g models)).toFinset
        (weightOf (weightedCandidates g models)) (s.current g.id) picks
        ((pickAll s g models lasts).1.current g.id) ∧
      WeightsOfCandidates g models (pickAll s g models lasts).1 := by
  induction lasts generalizing s with
  | nil => exact ⟨[], rfl, .nil _, own⟩
  | cons last lasts ih =>
    obtain ⟨best, mem, chosen, round, keys⟩ := swrrPick_round s g.id distinct some_
    rw [← pickGroupModel_weighted s weighted some_ last] at chosen round keys
    obtain ⟨picks, ids, rounds, own'⟩ := ih _ fun k held => (keys k).mp held
    refine ⟨best.modelId :: picks, ?_, .cons round rounds, own'⟩
    simp only [pickAll, List.map_cons, ids, chosen, Option.map_some, (modelId_of_mem mem).1]

theorem length_pickAll (s : SchedulerState) (lasts : List (Option ℤ)) :
    (pickAll s g models lasts).2.length = lasts.length := by
  induction lasts generalizing s with
  | nil => rfl
  | cons last lasts ih => simp [pickAll, ih]

/-- The sum of the weights of the available members. -/
def totalWeight (g : ModelGroup) (models : ModelTable) : ℕ :=
  ((weightedCandidates g models).map SwrrCandidate.weight).sum.toNat

theorem totalWeight_pos (some_ : weightedCandidates g models ≠ []) :
    0 < ((weightedCandidates g models).map SwrrCandidate.weight).sum := by
  refine List.sum_pos _ (fun w mem => ?_) (by simpa using some_)
  obtain ⟨c, mem', rfl⟩ := List.mem_map.mp mem
  have := (modelId_of_mem mem').2
  omega

theorem sum_values {d : Dict ℤ ℤ} {ids : List ℤ} (inside : ∀ k ∈ d.keys, k ∈ ids) :
    d.values.sum = ∑ k ∈ ids.toFinset, (d.get? k).getD 0 := by
  have values : d.values = d.keys.map fun k => (d.get? k).getD 0 := by
    rw [Dict.values, Dict.keys, List.map_map]
    refine List.map_congr_left fun entry mem => ?_
    have found : d.get? entry.1 = some entry.2 := Dict.mem_entries.mp mem
    simp [found]
  have nodup : d.keys.Nodup := d.nodup
  rw [values, ← List.sum_toFinset _ nodup]
  refine Finset.sum_subset (fun k mem => ?_) fun k _ absent => ?_
  · exact List.mem_toFinset.mpr (inside k (List.mem_toFinset.mp mem))
  · have missing : ¬ (d.get? k).isSome := fun found =>
      absent (List.mem_toFinset.mpr (Dict.mem_keys.mpr found))
    rw [Option.not_isSome_iff_eq_none.mp missing]
    rfl

/-- **Shares by weight.**  From an empty state of the group the current weights sum to zero after
every call; in every block of as many calls as the weights sum to, each member is chosen as often
as its weight says; and after each block every current weight is zero. -/
theorem weighted_blocks (weighted : g.strategy = .weighted) (distinct : g.memberIds.Nodup)
    (some_ : weightedCandidates g models ≠ []) {s : SchedulerState}
    (fresh : s.currentWeights g.id = Dict.empty) (lasts : List (Option ℤ)) :
    let r := pickAll s g models lasts
    let T := totalWeight g models
    (r.1.currentWeights g.id).values.sum = 0 ∧
      (∀ c ∈ weightedCandidates g models, ∀ b : ℕ, (b + 1) * T ≤ lasts.length →
        ((((r.2.map (Option.map ModelHealth.modelId)).drop (b * T)).take T).count
          (some c.modelId) : ℤ) = c.weight) ∧
      ∀ b : ℕ, lasts.length = b * T → ∀ v ∈ (r.1.currentWeights g.id).values, v = 0 := by
  have distinct' := distinct.sublist (candidateIds_sublist g models)
  have own : WeightsOfCandidates g models s := by
    rw [WeightsOfCandidates, fresh]
    exact fun k mem => absurd mem List.not_mem_nil
  obtain ⟨picks, ids, rounds, own'⟩ := pickAll_rounds weighted distinct' some_ s own lasts
  have empty : ∀ i ∈ (candidateIds (weightedCandidates g models)).toFinset,
      s.current g.id i = 0 := fun i _ => by
    rw [SchedulerState.current, fresh]
    rfl
  have nonneg : ∀ i ∈ (candidateIds (weightedCandidates g models)).toFinset,
      0 ≤ weightOf (weightedCandidates g models) i := fun i mem => by
    obtain ⟨c, mem', rfl⟩ := List.mem_map.mp (List.mem_toFinset.mp mem)
    rw [weightOf_eq distinct' mem']
    have := (modelId_of_mem mem').2
    omega
  have positive := totalWeight_pos some_
  have total : ((totalWeight g models : ℕ) : ℤ) =
      ∑ i ∈ (candidateIds (weightedCandidates g models)).toFinset,
        weightOf (weightedCandidates g models) i := by
    rw [sum_weightOf distinct', totalWeight, Int.toNat_of_nonneg positive.le]
  have pos : 0 < totalWeight g models := by
    unfold totalWeight
    omega
  have length : picks.length = lasts.length := by
    have same := congrArg List.length ids
    rwa [List.length_map, List.length_map, length_pickAll, eq_comm] at same
  refine ⟨?_, fun c mem b fits => ?_, fun b blocks v mem => ?_⟩
  · rw [sum_values own']
    exact rounds.sum.trans (Finset.sum_eq_zero empty)
  · have member : c.modelId ∈ (candidateIds (weightedCandidates g models)).toFinset :=
      List.mem_toFinset.mpr (List.mem_map_of_mem mem)
    have count := rounds.count_block nonneg total pos empty b (length ▸ fits) c.modelId member
    rw [weightOf_eq distinct' mem] at count
    rw [ids, ← List.map_drop, ← List.map_take,
      List.count_map_of_injective _ _ (Option.some_injective ℤ)]
    exact count
  · obtain ⟨k, held⟩ := Dict.mem_values.mp mem
    have member := List.mem_toFinset.mpr (own' k (Dict.mem_keys.mpr (by rw [held]; rfl)))
    have nothing := rounds.empty_blocks nonneg total pos empty b (length ▸ blocks) k member
    rwa [SchedulerState.current, held] at nothing

end Calls

/-- Two models with the weights 3 and 1. -/
def threeToOne : ModelGroup :=
  ⟨1, .weighted, some [⟨1, 3, 0⟩, ⟨2, 1, 0⟩]⟩

def twoModels : ModelTable :=
  ModelTable.ofList [⟨1, "m1", true, 1⟩, ⟨2, "m2", true, 1⟩]

theorem weighted_blocks_threeToOne :
    let r := pickAll ⟨Dict.empty, Dict.empty⟩ threeToOne twoModels (List.replicate 100 none)
    let T := totalWeight threeToOne twoModels
    (r.1.currentWeights 1).values.sum = 0 ∧
      (∀ c ∈ weightedCandidates threeToOne twoModels, ∀ b : ℕ,
        (b + 1) * T ≤ (List.replicate 100 (none : Option ℤ)).length →
        ((((r.2.map (Option.map ModelHealth.modelId)).drop (b * T)).take T).count
          (some c.modelId) : ℤ) = c.weight) ∧
      ∀ b : ℕ, (List.replicate 100 (none : Option ℤ)).length = b * T →
        ∀ v ∈ (r.1.currentWeights 1).values, v = 0 :=
  weighted_blocks rfl (by decide) (by decide +kernel) rfl (List.replicate 100 none)

example : totalWeight threeToOne twoModels = 4 := by decide +kernel

end Zhongzhuan.Proxy
