import Mathlib

/-!
# Streams that open, use and close numbered items

An event stream announces items, refers to them while they are open and closes them.
What an event does to an item is its `Mark`; a stream is seen here only through the list
of its marks.

* `WellFormed` is the contract of a stream read to its end: no key is opened twice, what
  is opened is closed exactly once afterwards and under the identity it was opened with,
  and what is used is open.
* `Tracks` relates a prefix of a stream to the items that are live in it and to a bound
  above all keys used so far.  It is kept through one rule per kind of event.
* `Serves` is the form for a producer that keeps its items in several places: `owned o` is
  the live item in the place `o`, if any.  A producer keeps it through `Serves.opens`,
  `Serves.uses`, `Serves.closes`, `Serves.flash` and `Serves.stray`, and one that ends with
  every place empty has written a well-formed stream (`Serves.wellFormed`).
-/

namespace Zhongzhuan.Kit

universe u v

variable {κ : Type u} {ι : Type v}

/-- What one event does to an item; `ι` is the identity an item is announced with. -/
inductive Mark (κ : Type u) (ι : Type v)
  | opens (key : κ) (id : ι)
  | closes (key : κ) (id : ι)
  | uses (key : κ)
  | plain
deriving DecidableEq

namespace Mark

/-- The key an event speaks of. -/
def key? : Mark κ ι → Option κ
  | .opens k _ | .closes k _ | .uses k => some k
  | .plain => none

/-- The key an event opens. -/
def opened? : Mark κ ι → Option κ
  | .opens k _ => some k
  | _ => none

/-- The identity under which an event closes the key `k`. -/
def closing? [DecidableEq κ] (k : κ) : Mark κ ι → Option ι
  | .closes j i => if j = k then some i else none
  | _ => none

end Mark

open Mark

/-- **The lifecycle contract** of a finished stream. -/
structure WellFormed [DecidableEq κ] (marks : List (Mark κ ι)) : Prop where
  opened_once : (marks.filterMap opened?).Nodup
  closed_once : ∀ before k i after, marks = before ++ .opens k i :: after →
    after.filterMap (closing? k) = [i]
  used_open : ∀ before k after, marks = before ++ .uses k :: after →
    (∃ i, .opens k i ∈ before) ∧ ∀ i, .closes k i ∉ before

variable [LinearOrder κ]

/-- A stream so far and its producer: `live` are the items opened and not yet closed, and
every key that occurs lies below `bound`. -/
structure Tracks (marks : List (Mark κ ι)) (live : κ → ι → Prop) (bound : κ) : Prop where
  opened_once : (marks.filterMap opened?).Nodup
  below : ∀ m ∈ marks, ∀ k, m.key? = some k → k < bound
  closed_once : ∀ before k i after, marks = before ++ .opens k i :: after →
    (live k i ∧ after.filterMap (closing? k) = [])
      ∨ ((∀ j, ¬ live k j) ∧ after.filterMap (closing? k) = [i])
  used_open : ∀ before k after, marks = before ++ .uses k :: after →
    (∃ i, .opens k i ∈ before) ∧ ∀ i, .closes k i ∉ before
  live_open : ∀ k i, live k i → .opens k i ∈ marks ∧ ∀ j, .closes k j ∉ marks

/-- A position in a list with one more element is a position before it, or the new one. -/
theorem snoc_eq_split {α : Type u} {l before after : List α} {a m : α}
    (split : l ++ [m] = before ++ a :: after) :
    (after = [] ∧ m = a ∧ l = before)
      ∨ ∃ rest, after = rest ++ [m] ∧ l = before ++ a :: rest := by
  rcases List.eq_nil_or_concat after with rfl | ⟨rest, last, rfl⟩
  · left
    obtain ⟨same, head⟩ := List.append_inj' split rfl
    exact ⟨rfl, by simpa using head, same⟩
  · right
    rw [List.concat_eq_append, ← List.cons_append, ← List.append_assoc] at split
    obtain ⟨same, head⟩ := List.append_inj' split rfl
    obtain rfl : m = last := by simpa using head
    exact ⟨rest, by simp, same⟩

namespace Tracks

variable {marks : List (Mark κ ι)} {live live' : κ → ι → Prop} {bound bound' k : κ} {i : ι}

theorem nil (bound : κ) : Tracks ([] : List (Mark κ ι)) (fun _ _ => False) bound where
  opened_once := List.nodup_nil
  below := by simp
  closed_once := by simp
  used_open := by simp
  live_open := by simp

theorem mono (t : Tracks marks live bound) (same : ∀ k i, live' k i ↔ live k i)
    (le : bound ≤ bound') : Tracks marks live' bound' := by
  obtain rfl : live' = live := funext fun k => funext fun i => propext (same k i)
  exact { t with below := fun m mem k key => lt_of_lt_of_le (t.below m mem k key) le }

theorem not_mem_of_le (t : Tracks marks live bound) (le : bound ≤ k) {m : Mark κ ι}
    (key : m.key? = some k) : m ∉ marks := fun mem =>
  absurd (t.below m mem k key) (not_lt.mpr le)

theorem not_live_of_le (t : Tracks marks live bound) (le : bound ≤ k) (i : ι) :
    ¬ live k i := fun here =>
  t.not_mem_of_le le rfl (t.live_open k i here).1

theorem live_unique (t : Tracks marks live bound) {i j : ι} (here : live k i)
    (also_ : live k j) : i = j := by
  obtain ⟨before, after, split⟩ := List.append_of_mem (t.live_open k i here).1
  by_contra differ
  have other : Mark.opens k j ∈ before ++ after := by
    have mem := (t.live_open k j also_).1
    rw [split, List.mem_append, List.mem_cons] at mem
    rcases mem with inside | same | inside
    · exact List.mem_append_left _ inside
    · obtain ⟨_, rfl⟩ := Mark.opens.inj same
      exact absurd rfl differ
    · exact List.mem_append_right _ inside
  have head : (Mark.opens k i :: after).filterMap opened? = k :: after.filterMap opened? := rfl
  have once := t.opened_once
  rw [split, List.filterMap_append, head, List.nodup_middle, List.nodup_cons,
    ← List.filterMap_append] at once
  exact once.1 (List.mem_filterMap.mpr ⟨_, other, rfl⟩)

theorem snoc (t : Tracks marks live bound) (m : Mark κ ι) (le : bound ≤ bound')
    (keyBelow : ∀ k, m.key? = some k → k < bound')
    (fresh : ∀ k, m.opened? = some k → bound ≤ k)
    (opening : ∀ k i, m = .opens k i → live' k i)
    (using_ : ∀ k, m = .uses k → ∃ i, live k i)
    (kept : ∀ k i, .opens k i ∈ marks → m.closing? k = none →
      (∀ j, live' k j ↔ live k j))
    (closing : ∀ k i j, .opens k i ∈ marks → m.closing? k = some j →
      live k i ∧ i = j ∧ ∀ j, ¬ live' k j)
    (liveFrom : ∀ k i, live' k i → m = .opens k i ∨ (live k i ∧ m.closing? k = none)) :
    Tracks (marks ++ [m]) live' bound' where
  opened_once := by
    rw [List.filterMap_append, List.nodup_append]
    refine ⟨t.opened_once, ?_, ?_⟩
    · cases h : m.opened? <;> simp [h]
    · intro a mem b new same
      obtain ⟨m', inside, opened⟩ := List.mem_filterMap.mp mem
      obtain ⟨m'', last, openedLast⟩ := List.mem_filterMap.mp new
      obtain rfl : m'' = m := by simpa using last
      subst same
      refine t.not_mem_of_le (fresh a openedLast) (m := m') ?_ inside
      cases m' <;> simp_all [opened?, key?]
  below := by
    intro m' mem k key
    rcases List.mem_append.mp mem with old | new
    · exact lt_of_lt_of_le (t.below m' old k key) le
    · obtain rfl : m' = m := by simpa using new
      exact keyBelow k key
  closed_once := by
    intro before k i after split
    rcases snoc_eq_split split with ⟨rfl, rfl, rfl⟩ | ⟨rest, rfl, inside⟩
    · exact .inl ⟨opening k i rfl, rfl⟩
    · have opened : Mark.opens k i ∈ marks := by simp [inside]
      rw [List.filterMap_append]
      cases h : m.closing? k with
      | none =>
          have same := kept k i opened h
          rcases t.closed_once before k i rest inside with ⟨here, none'⟩ | ⟨gone, once⟩
          · exact .inl ⟨(same i).mpr here, by simp [none', h]⟩
          · exact .inr ⟨fun j => (same j).not.mpr (gone j), by simp [once, h]⟩
      | some j =>
          obtain ⟨here, rfl, gone⟩ := closing k i j opened h
          rcases t.closed_once before k i rest inside with ⟨_, none'⟩ | ⟨absent, _⟩
          · exact .inr ⟨gone, by simp [none', h]⟩
          · exact absurd here (absent i)
  used_open := by
    intro before k after split
    rcases snoc_eq_split split with ⟨rfl, rfl, rfl⟩ | ⟨rest, rfl, inside⟩
    · obtain ⟨i, here⟩ := using_ k rfl
      exact ⟨⟨i, (t.live_open k i here).1⟩, (t.live_open k i here).2⟩
    · exact t.used_open before k rest inside
  live_open := by
    intro k i here
    rcases liveFrom k i here with rfl | ⟨old, open_⟩
    · refine ⟨by simp, fun j mem => ?_⟩
      rcases List.mem_append.mp mem with inside | last
      · exact t.not_mem_of_le (fresh k rfl) rfl inside
      · simp at last
    · obtain ⟨opened, notClosed⟩ := t.live_open k i old
      refine ⟨List.mem_append_left _ opened, fun j mem => ?_⟩
      rcases List.mem_append.mp mem with inside | last
      · exact notClosed j inside
      · obtain rfl : Mark.closes k j = m := by simpa using last
        simp [closing?] at open_

theorem plain (t : Tracks marks live bound) : Tracks (marks ++ [.plain]) live bound :=
  t.snoc .plain le_rfl (by simp [key?]) (by simp [opened?]) (by simp) (by simp)
    (fun _ _ _ _ _ => Iff.rfl) (by simp [closing?]) (fun _ _ here => .inr ⟨here, rfl⟩)

theorem uses (t : Tracks marks live bound) (here : live k i) :
    Tracks (marks ++ [.uses k]) live bound := by
  have low : k < bound := t.below _ (t.live_open k i here).1 k rfl
  refine t.snoc (.uses k) le_rfl ?_ (by simp [opened?]) (by simp) ?_
    (fun _ _ _ _ _ => Iff.rfl) (by simp [closing?]) (fun _ _ old => .inr ⟨old, rfl⟩)
  · intro j same
    obtain rfl : k = j := by simpa [key?] using same
    exact low
  · intro j same
    obtain rfl : k = j := by simpa using same
    exact ⟨i, here⟩

theorem opens (t : Tracks marks live bound) (le : bound ≤ k) (low : k < bound') :
    Tracks (marks ++ [.opens k i]) (fun j a => live j a ∨ (j = k ∧ a = i)) bound' := by
  refine t.snoc (.opens k i) (le.trans low.le) ?_ ?_ ?_ (by simp) ?_ (by simp [closing?]) ?_
  · intro j same
    obtain rfl : k = j := by simpa [key?] using same
    exact low
  · intro j same
    obtain rfl : k = j := by simpa [opened?] using same
    exact le
  · rintro j a same
    obtain ⟨rfl, rfl⟩ : k = j ∧ i = a := by simpa using same
    exact .inr ⟨rfl, rfl⟩
  · intro j a opened _ b
    have other : j ≠ k := by
      rintro rfl
      exact t.not_mem_of_le le rfl opened
    simp [other]
  · rintro j a (old | ⟨rfl, rfl⟩)
    · exact .inr ⟨old, rfl⟩
    · exact .inl rfl

theorem closes (t : Tracks marks live bound) (here : live k i) :
    Tracks (marks ++ [.closes k i]) (fun j a => live j a ∧ j ≠ k) bound := by
  have low : k < bound := t.below _ (t.live_open k i here).1 k rfl
  refine t.snoc (.closes k i) le_rfl ?_ (by simp [opened?]) (by simp) (by simp) ?_ ?_ ?_
  · intro j same
    obtain rfl : k = j := by simpa [key?] using same
    exact low
  · intro j a _ open_ b
    have other : j ≠ k := by
      rintro rfl
      simp [closing?] at open_
    simp [other]
  · intro j a b opened closed
    obtain ⟨rfl, rfl⟩ : k = j ∧ i = b := by simpa [closing?] using closed
    obtain ⟨before, after, split⟩ := List.append_of_mem opened
    rcases t.closed_once before k a after split with ⟨live', _⟩ | ⟨absent, _⟩
    · exact ⟨live', t.live_unique live' here, by simp⟩
    · exact absurd here (absent i)
  · rintro j a ⟨old, other⟩
    exact .inr ⟨old, by simp [closing?, Ne.symm other]⟩

theorem stray (t : Tracks marks live bound) (le : bound ≤ k) (low : k < bound') :
    Tracks (marks ++ [.closes k i]) live bound' := by
  refine t.snoc (.closes k i) (le.trans low.le) ?_ (by simp [opened?]) (by simp) (by simp)
    (fun _ _ _ _ _ => Iff.rfl) ?_ ?_
  · intro j same
    obtain rfl : k = j := by simpa [key?] using same
    exact low
  · intro j a b opened closed
    obtain ⟨rfl, rfl⟩ : k = j ∧ i = b := by simpa [closing?] using closed
    exact absurd opened (t.not_mem_of_le le rfl)
  · intro j a old
    have other : k ≠ j := by
      rintro rfl
      exact t.not_live_of_le le a old
    exact .inr ⟨old, by simp [closing?, other]⟩

theorem flash (t : Tracks marks live bound) (le : bound ≤ k) (low : k < bound') :
    Tracks (marks ++ [.opens k i, .closes k i]) live bound' := by
  have done := (t.opens (i := i) le low).closes (k := k) (i := i) (.inr ⟨rfl, rfl⟩)
  rw [List.append_assoc] at done
  refine done.mono (fun j a => ?_) le_rfl
  constructor
  · intro old
    refine ⟨.inl old, ?_⟩
    rintro rfl
    exact t.not_live_of_le le a old
  · rintro ⟨old | ⟨same, _⟩, other⟩
    · exact old
    · exact absurd same other

theorem wellFormed (t : Tracks marks live bound) (closed : ∀ k i, ¬ live k i) :
    WellFormed marks where
  opened_once := t.opened_once
  closed_once := by
    intro before k i after split
    rcases t.closed_once before k i after split with ⟨here, _⟩ | ⟨_, once⟩
    · exact absurd here (closed k i)
    · exact once
  used_open := t.used_open

end Tracks

/-! ## Producers with several places -/

variable {ο : Type*}

/-- A stream so far and its producer: the live items are those in the places, and no key is
in two places. -/
structure Serves (marks : List (Mark κ ι)) (owned : ο → Option (κ × ι)) (bound : κ) :
    Prop where
  tracks : Tracks marks (fun k i => ∃ o, owned o = some (k, i)) bound
  distinct : ∀ o o' k i i', owned o = some (k, i) → owned o' = some (k, i') → o = o'

namespace Serves

variable {marks : List (Mark κ ι)} {owned owned' : ο → Option (κ × ι)} {bound bound' k : κ}
  {i : ι} {o : ο}

theorem nil (bound : κ) (vacant : ∀ o, owned o = none) :
    Serves ([] : List (Mark κ ι)) owned bound where
  tracks := (Tracks.nil bound).mono (fun k i => by simp [vacant]) le_rfl
  distinct := by simp [vacant]

theorem mono (s : Serves marks owned bound) (le : bound ≤ bound') :
    Serves marks owned bound' :=
  ⟨s.tracks.mono (fun _ _ => Iff.rfl) le, s.distinct⟩

theorem plain (s : Serves marks owned bound) : Serves (marks ++ [.plain]) owned bound :=
  ⟨s.tracks.plain, s.distinct⟩

theorem uses (s : Serves marks owned bound) (here : owned o = some (k, i)) :
    Serves (marks ++ [.uses k]) owned bound :=
  ⟨s.tracks.uses ⟨o, here⟩, s.distinct⟩

theorem flash (s : Serves marks owned bound) (le : bound ≤ k) (low : k < bound') :
    Serves (marks ++ [.opens k i, .closes k i]) owned bound' :=
  ⟨s.tracks.flash le low, s.distinct⟩

theorem stray (s : Serves marks owned bound) (le : bound ≤ k) (low : k < bound') :
    Serves (marks ++ [.closes k i]) owned bound' :=
  ⟨s.tracks.stray le low, s.distinct⟩

theorem opens (s : Serves marks owned bound) (vacant : owned o = none)
    (here : owned' o = some (k, i)) (rest : ∀ o', o' ≠ o → owned' o' = owned o')
    (le : bound ≤ k) (low : k < bound') :
    Serves (marks ++ [.opens k i]) owned' bound' where
  tracks := by
    refine (s.tracks.opens le low).mono (fun j a => ?_) le_rfl
    constructor
    · rintro ⟨o', found⟩
      by_cases same : o' = o
      · subst same
        rw [here, Option.some_inj, Prod.mk.injEq] at found
        exact .inr ⟨found.1.symm, found.2.symm⟩
      · exact .inl ⟨o', (rest o' same) ▸ found⟩
    · rintro (⟨o', found⟩ | ⟨rfl, rfl⟩)
      · refine ⟨o', ?_⟩
        rw [rest o', found]
        rintro rfl
        rw [vacant] at found
        cases found
      · exact ⟨o, here⟩
  distinct := by
    have fresh : ∀ o' a, o' ≠ o → owned' o' ≠ some (k, a) := fun o' a other found =>
      s.tracks.not_live_of_le le a ⟨o', rest o' other ▸ found⟩
    intro o₁ o₂ j a b first second
    by_cases same₁ : o₁ = o <;> by_cases same₂ : o₂ = o
    · rw [same₁, same₂]
    · rw [same₁, here, Option.some_inj, Prod.mk.injEq] at first
      exact absurd (first.1 ▸ second) (fresh o₂ b same₂)
    · rw [same₂, here, Option.some_inj, Prod.mk.injEq] at second
      exact absurd (second.1 ▸ first) (fresh o₁ a same₁)
    · exact s.distinct o₁ o₂ j a b (rest o₁ same₁ ▸ first) (rest o₂ same₂ ▸ second)

theorem closes (s : Serves marks owned bound) (here : owned o = some (k, i))
    (vacant : owned' o = none) (rest : ∀ o', o' ≠ o → owned' o' = owned o') :
    Serves (marks ++ [.closes k i]) owned' bound where
  tracks := by
    refine (s.tracks.closes ⟨o, here⟩).mono (fun j a => ?_) le_rfl
    constructor
    · rintro ⟨o', found⟩
      have other : o' ≠ o := by
        rintro rfl
        rw [vacant] at found
        cases found
      rw [rest o' other] at found
      refine ⟨⟨o', found⟩, ?_⟩
      rintro rfl
      exact other (s.distinct o' o j a i found here)
    · rintro ⟨⟨o', found⟩, other⟩
      refine ⟨o', (rest o' ?_).trans found⟩
      rintro rfl
      rw [here, Option.some_inj, Prod.mk.injEq] at found
      exact other found.1.symm
  distinct := by
    have kept : ∀ o' item, owned' o' = some item → owned o' = some item := by
      intro o' item found
      have other : o' ≠ o := by
        rintro rfl
        rw [vacant] at found
        cases found
      exact rest o' other ▸ found
    intro o₁ o₂ j a b first second
    exact s.distinct o₁ o₂ j a b (kept o₁ _ first) (kept o₂ _ second)

theorem closesAll [DecidableEq ο] {places : List ο} (nodup : places.Nodup)
    (s : Serves marks owned bound)
    (after : ∀ o, owned' o = if o ∈ places then none else owned o) :
    Serves (marks ++ (places.filterMap owned).map fun item => .closes item.1 item.2)
      owned' bound := by
  induction places generalizing marks owned with
  | nil =>
      obtain rfl : owned' = owned := funext fun o => by simpa using after o
      simpa using s
  | cons o places ih =>
      rw [List.nodup_cons] at nodup
      let vacated : ο → Option (κ × ι) := fun o' => if o' = o then none else owned o'
      have same : places.filterMap vacated = places.filterMap owned :=
        List.filterMap_congr fun o' mem =>
          if_neg fun here : o' = o => nodup.1 (here ▸ mem)
      have later : ∀ o', owned' o' = if o' ∈ places then none else vacated o' := by
        intro o'
        rw [after o']
        by_cases here : o' = o <;> simp [vacated, here]
      cases held : owned o with
      | none =>
          obtain unchanged : vacated = owned := by
            funext o'
            by_cases here : o' = o <;> simp [vacated, here, held]
          have rest := ih nodup.2 (unchanged ▸ s) later
          rw [same] at rest
          rw [List.filterMap_cons_none held]
          exact rest
      | some item =>
          have first : Serves (marks ++ [.closes item.1 item.2]) vacated bound :=
            s.closes held (if_pos rfl) fun o' other => if_neg other
          have rest := ih nodup.2 first later
          rw [same, List.append_assoc] at rest
          rw [List.filterMap_cons_some held]
          exact rest

theorem wellFormed (s : Serves marks owned bound) (vacant : ∀ o, owned o = none) :
    WellFormed marks :=
  s.tracks.wellFormed fun k i => by simp [vacant]

end Serves

end Zhongzhuan.Kit
