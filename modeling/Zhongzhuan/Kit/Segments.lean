import Mathlib

/-!
# Segments of a list ended by a separator

A list is cut after every element that satisfies a predicate.  The elements after the
last separator form a last segment without one, which may be empty, so every list has at
least one segment and exactly the last is open.
-/

namespace Zhongzhuan.Kit

variable {α β : Type*}

/-- A segment and the separator that ends it. -/
structure Segment (α : Type*) where
  body : List α
  stop : Option α
deriving DecidableEq, Repr

namespace Segment

/-- The elements of a segment, its separator included. -/
def members (g : Segment α) : List α := g.body ++ g.stop.toList

/-- Apply a function to the elements. -/
def map (f : α → β) (g : Segment α) : Segment β := ⟨g.body.map f, g.stop.map f⟩

end Segment

/-- The segments of `held ++ as`, where `held` is known to hold no separator. -/
def segments (p : α → Bool) (held : List α) : List α → List (Segment α)
  | [] => [⟨held, none⟩]
  | a :: as =>
      if p a then ⟨held, some a⟩ :: segments p [] as else segments p (held ++ [a]) as

theorem segments_map {p : α → Bool} {q : β → Bool} {f : α → β} (same : ∀ a, q (f a) = p a)
    (held as : List α) :
    (segments p held as).map (Segment.map f) = segments q (held.map f) (as.map f) := by
  induction as generalizing held with
  | nil => simp [segments, Segment.map]
  | cons a as ih =>
      simp only [segments, List.map_cons, same]
      split
      · simp [Segment.map, ih]
      · simp [ih]

/-- What is done to the elements in order is done segment by segment; `last` comes at the
end of the open segment. -/
theorem segments_flatMap (p : α → Bool) (f : α → List β) (last : List β)
    (held as : List α) :
    (segments p held as).flatMap (fun g => g.body.flatMap f ++ g.stop.elim last f)
      = held.flatMap f ++ as.flatMap f ++ last := by
  induction as generalizing held with
  | nil => simp [segments]
  | cons a as ih =>
      simp only [segments]
      split
      · simp [ih]
      · simp [ih]

theorem segments_members (p : α → Bool) (held as : List α) :
    (segments p held as).flatMap Segment.members = held ++ as := by
  have whole := segments_flatMap p (fun a => [a]) [] held as
  simp only [List.flatMap_singleton', List.append_nil] at whole
  rw [← whole]
  refine List.flatMap_congr fun g _ => ?_
  cases stop : g.stop <;> simp [Segment.members, stop]

theorem segments_separate {p : α → Bool} {held as : List α}
    (open_ : ∀ a ∈ held, p a = false) {g : Segment α} (member : g ∈ segments p held as) :
    (∀ a ∈ g.body, p a = false) ∧ ∀ a ∈ g.stop, p a = true := by
  induction as generalizing held with
  | nil =>
      obtain rfl := List.mem_singleton.1 member
      exact ⟨open_, by simp⟩
  | cons b as ih =>
      rw [segments] at member
      split at member
      · rename_i separator
        rcases List.mem_cons.1 member with rfl | later
        · exact ⟨open_, by simpa using separator⟩
        · exact ih (by simp) later
      · rename_i plain
        refine ih ?_ member
        intro a inHeld
        rcases List.mem_append.1 inHeld with old | new
        · exact open_ a old
        · rw [List.mem_singleton.1 new]
          simpa using plain

end Zhongzhuan.Kit
