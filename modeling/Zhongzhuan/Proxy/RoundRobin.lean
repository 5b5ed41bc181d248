import Zhongzhuan.Proxy.GroupScheduling

/-!
# Who is left out by turns

With the strategy `round_robin` the counter of a group indexes a list from which the last member
is missing.  So where the counter moves on by one the choice moves on by two, as soon as the last
member stood before it, and where the counter comes round it starts at the first member again.

* `rotationStep` is a call of `pickGroupModel` seen from the ids of the members.
* `Steady` is what holds from the second call on: the last member stands at the counter or one
  before it.
* `starved_of_three_le`: then the second member is never chosen, when there are three or more.
* `all_chosen_iff`: every member is chosen in every `2 n` calls when there are at most two.
-/

namespace Zhongzhuan.Proxy

open Kit

/-! ## One call, seen from the ids -/

/-- The ids that the counter indexes. -/
def rotationIds (ids : List ℤ) (last : Option ℤ) : List ℤ :=
  if ids.filter (some · ≠ last) = [] then ids else ids.filter (some · ≠ last)

/-- The counter after a call and the id it chooses. -/
def rotationStep (ids : List ℤ) (counter : ℕ) (last : Option ℤ) : ℕ × Option ℤ :=
  (counter % (rotationIds ids last).length + 1,
    (rotationIds ids last)[counter % (rotationIds ids last).length]?)

/-- The counter of a group. -/
def SchedulerState.counter (s : SchedulerState) (groupId : ℤ) : ℕ :=
  (s.roundRobinCounters.get? groupId).getD 0

section Call

variable {g : ModelGroup} {models : ModelTable}

/-- All members have a healthy model. -/
def AllAvailable (g : ModelGroup) (models : ModelTable) : Prop :=
  ∀ m ∈ g.memberList, (models.available m.modelId).isSome

theorem map_filterMap_available {members : List GroupMember}
    (available : ∀ m ∈ members, (models.available m.modelId).isSome)
    (skip : GroupMember → Bool) :
    (members.filterMap fun m => if skip m then none else models.available m.modelId).map
        ModelHealth.modelId =
      (members.filter fun m => !skip m).map GroupMember.modelId := by
  induction members with
  | nil => rfl
  | cons m members ih =>
    have ih' := ih fun m' mem => available m' (List.mem_cons_of_mem _ mem)
    obtain ⟨h, found⟩ := Option.isSome_iff_exists.mp (available m List.mem_cons_self)
    cases skipped : skip m with
    | true => simpa [skipped] using ih'
    | false =>
      rw [List.filterMap_cons_some (b := h) (by simpa [skipped] using found),
        List.filter_cons_of_pos (by simp [skipped]), List.map_cons, List.map_cons, ih',
        ModelTable.modelId_of_available found]

theorem map_roundRobinCandidates (available : AllAvailable g models) (last : Option ℤ) :
    (roundRobinCandidates g models last).map ModelHealth.modelId =
      rotationIds g.memberIds last := by
  have others := map_filterMap_available available fun m => decide (some m.modelId = last)
  have all := map_filterMap_available available fun _ => false
  simp only [decide_eq_true_eq] at others
  simp only [Bool.false_eq_true, if_false, Bool.not_false, List.filter_true] at all
  have ids : (g.memberList.filter fun m => !decide (some m.modelId = last)).map
      GroupMember.modelId = g.memberIds.filter (some · ≠ last) := by
    rw [ModelGroup.memberIds, List.filter_map]
    exact congrArg _ (List.filter_congr fun m _ => by simp)
  rw [ids] at others
  simp only [roundRobinCandidates, rotationIds, ← others, List.map_eq_nil_iff]
  split
  · exact all
  · rfl

theorem rotationIds_ne_nil {ids : List ℤ} (some_ : ids ≠ []) (last : Option ℤ) :
    rotationIds ids last ≠ [] := by
  unfold rotationIds
  split
  · exact some_
  · assumption

theorem mem_of_mem_rotationIds {ids : List ℤ} {last : Option ℤ} {id : ℤ}
    (mem : id ∈ rotationIds ids last) : id ∈ ids := by
  unfold rotationIds at mem
  split at mem
  · exact mem
  · exact List.mem_of_mem_filter mem

theorem pickGroupModel_roundRobin (turns : g.strategy = .roundRobin)
    (available : AllAvailable g models) (some_ : g.memberIds ≠ []) (s : SchedulerState)
    (last : Option ℤ) :
    ((pickGroupModel s g models last).1.counter g.id,
        (pickGroupModel s g models last).2.map ModelHealth.modelId) =
      rotationStep g.memberIds (s.counter g.id) last := by
  have members : g.memberList ≠ [] := fun none_ => some_ (by simp [ModelGroup.memberIds, none_])
  have ids := map_roundRobinCandidates available last
  have candidates : roundRobinCandidates g models last ≠ [] := fun none_ =>
    rotationIds_ne_nil some_ last (by rw [← ids, none_, List.map_nil])
  simp only [pickGroupModel, if_neg members, turns, if_neg candidates]
  rw [rotationStep, ← ids, List.length_map, List.getElem?_map]
  simp [SchedulerState.counter]

end Call

/-! ## Positions -/

section Positions

variable {ids : List ℤ} {n counter p : ℕ}

/-- The counter and the position of the choice after a call, when `p` is where the last member
stands among `n`. -/
def nextPosition (n counter p : ℕ) : ℕ × ℕ :=
  (counter % (n - 1) + 1,
    if counter % (n - 1) < p then counter % (n - 1) else counter % (n - 1) + 1)

/-- The last member stands at the counter or one before it. -/
structure Steady (n counter p : ℕ) : Prop where
  pos : 1 ≤ counter
  le : counter ≤ n - 1
  near : p = counter ∨ p + 1 = counter

theorem steady_nextPosition (two : 2 ≤ n) (counter p : ℕ) :
    Steady n (nextPosition n counter p).1 (nextPosition n counter p).2 := by
  have below : counter % (n - 1) < n - 1 := Nat.mod_lt _ (by omega)
  unfold nextPosition
  refine ⟨by dsimp only; omega, by dsimp only; omega, ?_⟩
  dsimp only
  split
  · exact Or.inr rfl
  · exact Or.inl rfl

/-- From there the second position is never next: the counter moves on and the choice two, or the
counter comes round and the choice is the first. -/
theorem Steady.next_ne_one (three : 3 ≤ n) (steady : Steady n counter p) :
    (nextPosition n counter p).2 ≠ 1 := by
  have pos := steady.pos
  have near := steady.near
  unfold nextPosition
  rcases Nat.lt_or_ge counter (n - 1) with inside | end_
  · rw [Nat.mod_eq_of_lt inside]
    dsimp only
    split <;> omega
  · have same : counter = n - 1 := le_antisymm steady.le end_
    rw [same, Nat.mod_self]
    dsimp only
    rw [if_pos (by omega)]
    exact Nat.zero_ne_one

theorem rotationIds_member (distinct : ids.Nodup) (two : 2 ≤ ids.length) {last : ℤ}
    (stands : ids[p]? = some last) : rotationIds ids (some last) = ids.eraseIdx p := by
  obtain ⟨inside, rfl⟩ := List.getElem?_eq_some_iff.mp stands
  have others : ids.filter (some · ≠ some ids[p]) = ids.eraseIdx p := by
    rw [← distinct.erase_getElem p inside, distinct.erase_eq_filter]
    exact List.filter_congr fun id _ => by by_cases same : id = ids[p] <;> simp [same]
  have some_ : ids.eraseIdx p ≠ [] := by
    rw [← List.length_pos_iff, List.length_eraseIdx_of_lt inside]
    omega
  rw [rotationIds, others, if_neg some_]

theorem rotationStep_member (distinct : ids.Nodup) (two : 2 ≤ ids.length) {last : ℤ}
    (stands : ids[p]? = some last) (counter : ℕ) :
    rotationStep ids counter (some last) =
      ((nextPosition ids.length counter p).1, ids[(nextPosition ids.length counter p).2]?) := by
  obtain ⟨inside, -⟩ := List.getElem?_eq_some_iff.mp stands
  rw [rotationStep, rotationIds_member distinct two stands, List.length_eraseIdx_of_lt inside,
    List.getElem?_eraseIdx, nextPosition]
  dsimp only
  split <;> rfl

theorem rotationStep_mem (some_ : ids ≠ []) (counter : ℕ) (last : Option ℤ) :
    ∃ p, p < ids.length ∧ (rotationStep ids counter last).2 = ids[p]? := by
  have length := List.length_pos_iff.mpr (rotationIds_ne_nil some_ last)
  have inside : counter % (rotationIds ids last).length < (rotationIds ids last).length :=
    Nat.mod_lt _ length
  have member := mem_of_mem_rotationIds (List.getElem_mem inside)
  obtain ⟨p, below, same⟩ := List.getElem_of_mem member
  refine ⟨p, below, ?_⟩
  rw [rotationStep, List.getElem?_eq_getElem inside, List.getElem?_eq_getElem below, same]

end Positions

/-! ## Runs -/

/-- Call `k` of a run in which each call gets the model returned by the one before it as the last
one; `last` is the one before the first. -/
def roundRobinCall (g : ModelGroup) (models : ℕ → ModelTable) (s : SchedulerState)
    (last : Option ℤ) : ℕ → SchedulerState × Option ModelHealth
  | 0 => pickGroupModel s g (models 0) last
  | k + 1 =>
    let (s', previous) := roundRobinCall g models s last k
    pickGroupModel s' g (models (k + 1)) (previous.map ModelHealth.modelId)

section Runs

variable {g : ModelGroup} {models : ℕ → ModelTable} (s : SchedulerState) (last : Option ℤ)

/-- The id of the model that call `k` returns. -/
def chosenId (g : ModelGroup) (models : ℕ → ModelTable) (s : SchedulerState) (last : Option ℤ)
    (k : ℕ) : Option ℤ :=
  (roundRobinCall g models s last k).2.map ModelHealth.modelId

/-- The counter of the group after call `k`. -/
def counterAfter (g : ModelGroup) (models : ℕ → ModelTable) (s : SchedulerState)
    (last : Option ℤ) (k : ℕ) : ℕ :=
  (roundRobinCall g models s last k).1.counter g.id

variable (turns : g.strategy = .roundRobin) (available : ∀ k, AllAvailable g (models k))
include turns available

theorem call_zero (some_ : g.memberIds ≠ []) :
    (counterAfter g models s last 0, chosenId g models s last 0) =
      rotationStep g.memberIds (s.counter g.id) last :=
  pickGroupModel_roundRobin turns (available 0) some_ s last

theorem call_succ (some_ : g.memberIds ≠ []) (k : ℕ) :
    (counterAfter g models s last (k + 1), chosenId g models s last (k + 1)) =
      rotationStep g.memberIds (counterAfter g models s last k) (chosenId g models s last k) :=
  pickGroupModel_roundRobin turns (available (k + 1)) some_ _ _

theorem chosenId_mem (some_ : g.memberIds ≠ []) (k : ℕ) :
    ∃ p, p < g.memberIds.length ∧ chosenId g models s last k = g.memberIds[p]? := by
  cases k with
  | zero =>
    obtain ⟨p, inside, chosen⟩ := rotationStep_mem some_ (s.counter g.id) last
    exact ⟨p, inside,
      (congrArg Prod.snd (call_zero s last turns available some_)).trans chosen⟩
  | succ k =>
    obtain ⟨p, inside, chosen⟩ := rotationStep_mem some_ (counterAfter g models s last k)
      (chosenId g models s last k)
    exact ⟨p, inside,
      (congrArg Prod.snd (call_succ s last turns available some_ k)).trans chosen⟩

variable (distinct : g.memberIds.Nodup)
include distinct

theorem call_member (two : 2 ≤ g.memberIds.length) {k p : ℕ} (inside : p < g.memberIds.length)
    (stands : chosenId g models s last k = g.memberIds[p]?) :
    counterAfter g models s last (k + 1) =
        (nextPosition g.memberIds.length (counterAfter g models s last k) p).1 ∧
      chosenId g models s last (k + 1) =
        g.memberIds[(nextPosition g.memberIds.length (counterAfter g models s last k) p).2]? := by
  have some_ : g.memberIds ≠ [] := List.length_pos_iff.mp (by omega)
  have call := call_succ s last turns available some_ k
  rw [stands, List.getElem?_eq_getElem inside,
    rotationStep_member distinct two (List.getElem?_eq_getElem inside)] at call
  exact ⟨congrArg Prod.fst call, congrArg Prod.snd call⟩

theorem steady_call (two : 2 ≤ g.memberIds.length) (k : ℕ) :
    ∃ p, p < g.memberIds.length ∧ chosenId g models s last (k + 1) = g.memberIds[p]? ∧
      Steady g.memberIds.length (counterAfter g models s last (k + 1)) p := by
  have some_ : g.memberIds ≠ [] := List.length_pos_iff.mp (by omega)
  obtain ⟨p, inside, stands⟩ := chosenId_mem s last turns available some_ k
  obtain ⟨counter, chosen⟩ := call_member s last turns available distinct two inside stands
  have steady := steady_nextPosition two (counterAfter g models s last k) p
  refine ⟨_, ?_, chosen, counter ▸ steady⟩
  have le := steady.le
  rcases steady.near with near | near <;> omega

theorem starved_of_three_le (three : 3 ≤ g.memberIds.length) (k : ℕ) :
    chosenId g models s last (k + 2) ≠ g.memberIds[1]? := by
  obtain ⟨p, inside, stands, steady⟩ :=
    steady_call s last turns available distinct (by omega) k
  obtain ⟨-, chosen⟩ :=
    call_member s last turns available distinct (by omega) inside stands
  rw [chosen]
  intro same
  have other := steady.next_ne_one three
  rw [List.getElem?_eq_getElem (i := 1) (by omega)] at same
  obtain ⟨below, eq⟩ := List.getElem?_eq_some_iff.mp same
  exact other ((distinct.getElem_inj_iff).mp eq)

theorem alternates_of_two (two : g.memberIds.length = 2) (k : ℕ) :
    ∀ id ∈ g.memberIds,
      chosenId g models s last k = some id ∨ chosenId g models s last (k + 1) = some id := by
  have some_ : g.memberIds ≠ [] := List.length_pos_iff.mp (by omega)
  obtain ⟨p, inside, stands⟩ := chosenId_mem s last turns available some_ k
  obtain ⟨-, chosen⟩ := call_member s last turns available distinct (by omega) inside stands
  intro id mem
  obtain ⟨q, below, rfl⟩ := List.getElem_of_mem mem
  rw [stands, chosen, ← List.getElem?_eq_getElem below]
  by_cases same : p = q
  · exact Or.inl (by rw [same])
  · refine Or.inr (congrArg (g.memberIds[·]?) ?_)
    rw [nextPosition, two]
    simp only [Nat.add_one_sub_one, Nat.mod_one]
    split <;> omega

/-- **Who is chosen by turns.**  When all members stay available and each call is told the model
of the one before it, every member is chosen in every `2 n` consecutive calls exactly when there
are at most two of them. -/
theorem all_chosen_iff :
    (∀ k, ∀ id ∈ g.memberIds, ∃ j, k ≤ j ∧ j < k + 2 * g.memberIds.length ∧
      chosenId g models s last j = some id) ↔ g.memberIds.length ≤ 2 := by
  constructor
  · intro all
    by_contra many
    have second : 1 < g.memberIds.length := by omega
    obtain ⟨j, from_, -, chosen⟩ := all 2 _ (List.getElem_mem second)
    obtain ⟨k, rfl⟩ := Nat.exists_eq_add_of_le' from_
    refine starved_of_three_le s last turns available distinct (by omega) k ?_
    rw [chosen, List.getElem?_eq_getElem second]
  · intro few k id mem
    have pos := List.length_pos_of_mem mem
    rcases Nat.lt_or_ge g.memberIds.length 2 with one | two
    · -- the only member
      obtain ⟨p, inside, chosen⟩ :=
        chosenId_mem s last turns available (List.length_pos_iff.mp pos) k
      obtain ⟨q, below, rfl⟩ := List.getElem_of_mem mem
      obtain rfl : p = q := by omega
      exact ⟨k, le_rfl, by omega, chosen.trans (List.getElem?_eq_getElem below)⟩
    · rcases alternates_of_two s last turns available distinct (by omega) k id mem with now | next
      · exact ⟨k, le_rfl, by omega, now⟩
      · exact ⟨k + 1, by omega, by omega, next⟩

end Runs

/-- Three models in turn. -/
def threeInTurn : ModelGroup :=
  ⟨1, .roundRobin, some [⟨1, 1, 0⟩, ⟨2, 1, 0⟩, ⟨3, 1, 0⟩]⟩

def threeModels : ModelTable :=
  ModelTable.ofList [⟨1, "m1", true, 1⟩, ⟨2, "m2", true, 1⟩, ⟨3, "m3", true, 1⟩]

/-- From the start on the first and the third of three models take turns. -/
theorem threeInTurn_starved :
    threeInTurn.memberIds.Nodup ∧ AllAvailable threeInTurn threeModels ∧
      ¬ ∀ k, ∀ id ∈ threeInTurn.memberIds,
        ∃ j, k ≤ j ∧ j < k + 2 * threeInTurn.memberIds.length ∧
          chosenId threeInTurn (fun _ => threeModels) ⟨Dict.empty, Dict.empty⟩ none j =
            some id := by
  have missed : ∀ j < 6, chosenId threeInTurn (fun _ => threeModels)
      ⟨Dict.empty, Dict.empty⟩ none j ≠ some 2 := by decide +kernel
  refine ⟨by decide, by unfold AllAvailable; decide +kernel, fun all => ?_⟩
  obtain ⟨j, -, below, chosen⟩ := all 0 2 (by decide)
  exact missed j below chosen

/-- Two models in turn. -/
def twoInTurn : ModelGroup :=
  ⟨1, .roundRobin, some [⟨1, 1, 0⟩, ⟨2, 1, 0⟩]⟩

theorem all_chosen_iff_twoInTurn :
    (∀ k, ∀ id ∈ twoInTurn.memberIds,
      ∃ j, k ≤ j ∧ j < k + 2 * twoInTurn.memberIds.length ∧
        chosenId twoInTurn (fun _ => twoModels) ⟨Dict.empty, Dict.empty⟩ none j = some id) ↔
      twoInTurn.memberIds.length ≤ 2 :=
  all_chosen_iff _ none rfl (fun _ => by unfold AllAvailable; decide +kernel) (by decide)

end Zhongzhuan.Proxy
