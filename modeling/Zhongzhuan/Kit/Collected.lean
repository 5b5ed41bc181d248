import Mathlib

/-!
# Collecting neighbours

Of the elements of a list some stand alone and some are collected: those between two that stand
alone come into one group, which is closed when the next comes that stands alone, or at the end.

`spread_collect` says that a list that is spread again is the list it was, `collect_ne_nil` that no
group is empty, and `collect_before` what came before an element is what the groups before it hold.
-/

namespace Zhongzhuan.Kit

universe u v

variable {α : Type u} {β : Type v}

/-- The groups of a list, with a group that may be open. -/
def collect (current : Option (List α)) : List (α ⊕ β) → List (List α ⊕ β)
  | [] => current.toList.map .inl
  | .inl a :: rest => collect (some (current.getD [] ++ [a])) rest
  | .inr b :: rest => current.toList.map .inl ++ .inr b :: collect none rest

/-- The elements of a group. -/
def spread : List α ⊕ β → List (α ⊕ β)
  | .inl as => as.map .inl
  | .inr b => [.inr b]

theorem mem_spread_inl {a : α} {g : List α ⊕ β} :
    .inl a ∈ spread g ↔ ∃ as, g = .inl as ∧ a ∈ as := by
  cases g with
  | inl as => simp [spread]
  | inr b => simp [spread]

theorem flatMap_spread_current (current : Option (List α)) :
    (current.toList.map (.inl : List α → List α ⊕ β)).flatMap spread
      = (current.getD []).map .inl := by
  cases current with
  | none => rfl
  | some as => exact List.append_nil _

theorem spread_collect (current : Option (List α)) (xs : List (α ⊕ β)) :
    (collect current xs).flatMap spread = (current.getD []).map .inl ++ xs := by
  induction xs generalizing current with
  | nil => rw [collect, flatMap_spread_current, List.append_nil]
  | cons x rest ih =>
    cases x with
    | inl a =>
      rw [collect, ih, Option.getD_some, List.map_append, List.append_assoc]
      rfl
    | inr b =>
      rw [collect, List.flatMap_append, flatMap_spread_current, List.flatMap_cons, ih]
      rfl

theorem not_mem_current {current : Option (List α)} (started : current ≠ some []) :
    (.inl [] : List α ⊕ β) ∉ current.toList.map .inl := by
  intro mem
  obtain ⟨as, there, same⟩ := List.mem_map.mp mem
  rw [Option.mem_toList, Sum.inl.inj same] at there
  exact started there

theorem collect_ne_nil {current : Option (List α)} (started : current ≠ some [])
    {xs : List (α ⊕ β)} : .inl [] ∉ collect current xs := by
  induction xs generalizing current with
  | nil => exact not_mem_current started
  | cons x rest ih =>
    cases x with
    | inl a =>
      rw [collect]
      refine ih ?_
      simp
    | inr b =>
      rw [collect, List.mem_append, List.mem_cons, not_or, not_or]
      exact ⟨not_mem_current started, Sum.inl_ne_inr, ih (Option.some_ne_none _).symm⟩

theorem collect_before {xs : List (α ⊕ β)} {before after : List (List α ⊕ β)} {b : β}
    (split : collect none xs = before ++ .inr b :: after) :
    xs = before.flatMap spread ++ .inr b :: after.flatMap spread := by
  have whole := spread_collect none xs
  rw [split, List.flatMap_append, List.flatMap_cons] at whole
  exact whole.symm

end Zhongzhuan.Kit
