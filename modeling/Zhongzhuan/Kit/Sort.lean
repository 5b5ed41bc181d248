import Mathlib

/-!
# Stable sorts of related lists, and the first of the least

Two lists that are related element by element stay so when both are sorted, as long as the
two orders agree on related elements: a stable sort looks at nothing else.

`firstLeast lt` is Python's `min` under a strict comparison: of the elements that no other is
below, the one that stands first.
-/

namespace Zhongzhuan.Kit

variable {α β : Type*} {R : α → β → Prop} {le : α → α → Bool} {le' : β → β → Bool}

theorem exists_zip_of_forall₂ {as : List α} {bs : List β} (related : List.Forall₂ R as bs) :
    ∃ pairs : List (α × β), as = pairs.map Prod.fst ∧ bs = pairs.map Prod.snd
      ∧ ∀ pair ∈ pairs, R pair.1 pair.2 := by
  induction related with
  | nil => exact ⟨[], rfl, rfl, nofun⟩
  | @cons a b as bs here _ ih =>
      obtain ⟨pairs, left, right, each⟩ := ih
      refine ⟨(a, b) :: pairs, ?_, ?_, List.forall_mem_cons.mpr ⟨here, each⟩⟩
      · rw [left, List.map_cons]
      · rw [right, List.map_cons]

theorem exists_partner {as : List α} {bs : List β} (related : List.Forall₂ R as bs) :
    (∀ a ∈ as, ∃ b ∈ bs, R a b) ∧ ∀ b ∈ bs, ∃ a ∈ as, R a b := by
  obtain ⟨pairs, rfl, rfl, each⟩ := exists_zip_of_forall₂ related
  refine ⟨fun a mem => ?_, fun b mem => ?_⟩
  · obtain ⟨pair, inside, rfl⟩ := List.mem_map.mp mem
    exact ⟨pair.2, List.mem_map_of_mem inside, each pair inside⟩
  · obtain ⟨pair, inside, rfl⟩ := List.mem_map.mp mem
    exact ⟨pair.1, List.mem_map_of_mem inside, each pair inside⟩

theorem forall₂_mergeSort {as : List α} {bs : List β} (related : List.Forall₂ R as bs)
    (agree : ∀ a b a' b', R a b → R a' b' → le a a' = le' b b') :
    List.Forall₂ R (as.mergeSort le) (bs.mergeSort le') := by
  obtain ⟨pairs, rfl, rfl, each⟩ := exists_zip_of_forall₂ related
  have left := @List.map_mergeSort _ _ (fun x y => le x.1 y.1) le Prod.fst pairs
    fun _ _ _ _ => rfl
  have right := @List.map_mergeSort _ _ (fun x y => le x.1 y.1) le' Prod.snd pairs
    fun x memx y memy => agree _ _ _ _ (each x memx) (each y memy)
  rw [← left, ← right, List.forall₂_map_left_iff, List.forall₂_map_right_iff,
    List.forall₂_same]
  exact fun pair mem => each pair (List.mem_mergeSort.mp mem)

/-! ## The first of the least -/

/-- `min(xs, key=…)`. -/
def firstLeast (lt : α → α → Bool) : List α → Option α
  | [] => none
  | x :: xs => some (xs.foldl (fun best y => if lt y best then y else best) x)

/-- An element stands first among those that no other is below. -/
def IsFirstLeast (lt : α → α → Bool) (xs : List α) (m : α) : Prop :=
  ∃ before after, xs = before ++ m :: after ∧ (∀ x ∈ before, lt m x = true)
    ∧ ∀ x ∈ after, lt x m = false

/-- A comparison that puts the elements of a list into levels. -/
structure Levels (lt : α → α → Bool) (xs : List α) : Prop where
  asymm : ∀ x ∈ xs, ∀ y ∈ xs, lt x y = true → lt y x = false
  level : ∀ x ∈ xs, ∀ y ∈ xs, ∀ z ∈ xs, lt x y = false → lt y z = false → lt x z = false

section Least

variable {lt : α → α → Bool} {xs : List α} {m : α}

theorem IsFirstLeast.mem (least : IsFirstLeast lt xs m) : m ∈ xs := by
  obtain ⟨before, after, rfl, -⟩ := least
  exact List.mem_append_right _ List.mem_cons_self

theorem IsFirstLeast.least (least : IsFirstLeast lt xs m) (levels : Levels lt xs) :
    ∀ x ∈ xs, lt x m = false := by
  have here := least.mem
  obtain ⟨before, after, rfl, front, back⟩ := least
  intro x mem
  rcases List.mem_append.mp mem with mem' | mem'
  · exact levels.asymm m here x mem (front x mem')
  · rcases List.mem_cons.mp mem' with rfl | mem'
    · by_contra below
      rw [Bool.not_eq_false] at below
      exact absurd (levels.asymm x here x here below) (by simp [below])
    · exact back x mem'

theorem IsFirstLeast.concat (least : IsFirstLeast lt xs m) {x : α}
    (levels : Levels lt (xs ++ [x])) :
    IsFirstLeast lt (xs ++ [x]) (if lt x m then x else m) := by
  obtain ⟨asymm, level⟩ := levels
  have inside : ∀ {y}, y ∈ xs → y ∈ xs ++ [x] := List.mem_append_left _
  have last : x ∈ xs ++ [x] := List.mem_append_right _ (List.mem_singleton_self x)
  have here := inside least.mem
  obtain ⟨before, after, rfl, front, back⟩ := least
  by_cases below : lt x m = true
  · rw [if_pos below]
    refine ⟨_, [], rfl, fun y mem => ?_, by simp⟩
    by_contra above
    have notBelow : lt y m = false := by
      rcases List.mem_append.mp mem with mem' | mem'
      · exact asymm m here y (inside mem) (front y mem')
      · rcases List.mem_cons.mp mem' with rfl | mem'
        · exact absurd below above
        · exact back y mem'
    -- then `x` were not below `m` either
    rw [level x last y (inside mem) m here (by simpa using above) notBelow] at below
    cases below
  · rw [if_neg below]
    refine ⟨before, after ++ [x], by simp, front, fun y mem => ?_⟩
    rcases List.mem_append.mp mem with mem | mem
    · exact back y mem
    · rw [List.mem_singleton.mp mem]
      simpa using below

theorem firstLeast_isFirstLeast (levels : Levels lt xs) (found : firstLeast lt xs = some m) :
    IsFirstLeast lt xs m := by
  cases xs with
  | nil => cases found
  | cons x xs =>
      obtain rfl := Option.some.inj found
      clear found
      induction xs using List.reverseRecOn with
      | nil => exact ⟨[], [], rfl, by simp, by simp⟩
      | append_singleton xs y ih =>
          have part : Levels lt (x :: xs) :=
            ⟨fun a mema b memb => levels.asymm a (List.mem_append_left [y] mema) b
                (List.mem_append_left [y] memb),
              fun a mema b memb c memc => levels.level a (List.mem_append_left [y] mema) b
                (List.mem_append_left [y] memb) c (List.mem_append_left [y] memc)⟩
          rw [List.foldl_append, List.foldl_cons, List.foldl_nil]
          exact (ih part).concat levels

theorem IsFirstLeast.unique {m' : α} (least : IsFirstLeast lt xs m)
    (least' : IsFirstLeast lt xs m') : m = m' := by
  obtain ⟨before, after, rfl, front, back⟩ := least
  obtain ⟨before', after', same, front', back'⟩ := least'
  rcases List.append_eq_append_iff.mp same with ⟨more, split, rest⟩ | ⟨more, split, rest⟩
  · cases more with
    | nil => exact (List.cons.inj rest).1
    | cons c more =>
        obtain ⟨rfl, tail⟩ := List.cons.inj rest
        have lower : lt m' m = true := front' m (by simp [split])
        have upper := back m' (by simp [tail])
        rw [lower] at upper
        cases upper
  · cases more with
    | nil => exact (List.cons.inj rest).1.symm
    | cons c more =>
        obtain ⟨rfl, tail⟩ := List.cons.inj rest
        have lower : lt m m' = true := front m' (by simp [split])
        have upper := back' m (by simp [tail])
        rw [lower] at upper
        cases upper

theorem firstLeast_eq_some_iff (levels : Levels lt xs) :
    firstLeast lt xs = some m ↔ IsFirstLeast lt xs m := by
  refine ⟨firstLeast_isFirstLeast levels, fun least => ?_⟩
  cases found : firstLeast lt xs with
  | none =>
      cases xs with
      | nil => exact absurd least.mem List.not_mem_nil
      | cons _ _ => cases found
  | some m' => rw [least.unique (firstLeast_isFirstLeast levels found)]

end Least

end Zhongzhuan.Kit
