import Mathlib

/-!
# Caps that only tighten

A cap is an integer that is not negative; zero is no cap.  `tighten` lowers a cap to a value,
and a run of it is the least positive number among the first cap and the values
(`foldl_tighten`).
-/

namespace Zhongzhuan.Kit

/-- A cap lowered to a positive value. -/
def tighten (cap value : ℤ) : ℤ := if 0 < value ∧ (cap = 0 ∨ value < cap) then value else cap

/-- A cap that goes up, or away. -/
def Loosens (old new : ℤ) : Prop := 0 < old ∧ (new = 0 ∨ old < new)

/-- The least positive number of a list, zero when there is none. -/
def leastPositive (values : List ℤ) : ℤ := ((values.filter (0 < ·)).min?).getD 0

variable {cap value : ℤ} {values : List ℤ}

theorem not_loosens_self (cap : ℤ) : ¬ Loosens cap cap := by
  unfold Loosens
  omega

theorem not_loosens_tighten (cap value : ℤ) : ¬ Loosens cap (tighten cap value) := by
  unfold Loosens tighten
  split <;> omega

theorem leastPositive_eq_of_mem (positive : 0 < value) (mem : value ∈ values)
    (least : ∀ other ∈ values, 0 < other → value ≤ other) : leastPositive values = value := by
  have found : (values.filter (0 < ·)).min? = some value := by
    refine List.min?_eq_some_iff.mpr ⟨List.mem_filter.mpr ⟨mem, decide_eq_true positive⟩, ?_⟩
    intro other otherMem
    obtain ⟨inside, above⟩ := List.mem_filter.mp otherMem
    exact least other inside (of_decide_eq_true above)
  rw [leastPositive, found, Option.getD_some]

theorem leastPositive_eq_zero (none : ∀ other ∈ values, ¬ 0 < other) :
    leastPositive values = 0 := by
  have empty : values.filter (0 < ·) = [] :=
    List.filter_eq_nil_iff.mpr fun other mem => by simpa using none other mem
  rw [leastPositive, empty]
  rfl

theorem leastPositive_spec (values : List ℤ) :
    (leastPositive values = 0 ∧ ∀ other ∈ values, ¬ 0 < other)
      ∨ (0 < leastPositive values ∧ leastPositive values ∈ values
        ∧ ∀ other ∈ values, 0 < other → leastPositive values ≤ other) := by
  rcases found : (values.filter (0 < ·)).min? with _ | least
  · have empty := List.min?_eq_none_iff.mp found
    have none : ∀ other ∈ values, ¬ 0 < other := by simpa using List.filter_eq_nil_iff.mp empty
    exact .inl ⟨leastPositive_eq_zero none, none⟩
  · obtain ⟨mem, below⟩ := List.min?_eq_some_iff.mp found
    obtain ⟨inside, positive⟩ := List.mem_filter.mp mem
    have same : leastPositive values = least := by rw [leastPositive, found, Option.getD_some]
    rw [same]
    exact .inr ⟨of_decide_eq_true positive, inside, fun other otherMem above =>
      below other (List.mem_filter.mpr ⟨otherMem, decide_eq_true above⟩)⟩

theorem leastPositive_concat (values : List ℤ) (value : ℤ) :
    leastPositive (values ++ [value]) = tighten (leastPositive values) value := by
  rcases leastPositive_spec values with ⟨zero, none⟩ | ⟨positive, mem, below⟩
  · rw [zero]
    by_cases above : 0 < value
    · rw [leastPositive_eq_of_mem above (by simp)]
      · simp [tighten, above]
      · intro other otherMem otherAbove
        rcases List.mem_append.mp otherMem with old | new
        · exact absurd otherAbove (none other old)
        · rw [List.mem_singleton.mp new]
    · rw [leastPositive_eq_zero]
      · simp [tighten, above]
      · intro other otherMem
        rcases List.mem_append.mp otherMem with old | new
        · exact none other old
        · rwa [List.mem_singleton.mp new]
  · unfold tighten
    split
    · rename_i lower
      refine leastPositive_eq_of_mem lower.1 (by simp) fun other otherMem above => ?_
      rcases List.mem_append.mp otherMem with old | new
      · have := below other old above
        omega
      · rw [List.mem_singleton.mp new]
    · rename_i higher
      refine leastPositive_eq_of_mem positive (List.mem_append_left _ mem)
        fun other otherMem above => ?_
      rcases List.mem_append.mp otherMem with old | new
      · exact below other old above
      · rw [List.mem_singleton.mp new] at above ⊢
        omega

theorem le_of_falling {last : ℤ} (falling : values.IsChain (· ≥ ·))
    (ends : last ∈ values.getLast?) : ∀ other ∈ values, last ≤ other := by
  obtain ⟨before, rfl⟩ := List.getLast?_eq_some_iff.mp ends
  intro other mem
  rcases List.mem_append.mp mem with old | new
  · exact (List.pairwise_append.mp falling.pairwise).2.2 other old last
      (List.mem_singleton_self last)
  · rw [List.mem_singleton.mp new]

theorem leastPositive_of_falling (nonneg : 0 ≤ cap)
    (falling : (values.filter (0 < ·)).IsChain (· ≥ ·))
    (below : ∀ last ∈ (values.filter (0 < ·)).getLast?, cap = 0 ∨ last ≤ cap) :
    leastPositive (cap :: values) = (values.filter (0 < ·)).getLast?.getD cap := by
  rcases ends : (values.filter (0 < ·)).getLast? with _ | last
  · rw [ends, Option.getD_none]
    have none : ∀ other ∈ values, ¬ 0 < other := by
      simpa using List.filter_eq_nil_iff.mp (List.getLast?_eq_none_iff.mp ends)
    rcases nonneg.eq_or_lt with zero | positive
    · subst zero
      exact leastPositive_eq_zero (List.forall_mem_cons.mpr ⟨lt_irrefl 0, none⟩)
    · refine leastPositive_eq_of_mem positive List.mem_cons_self ?_
      exact List.forall_mem_cons.mpr ⟨fun _ => le_rfl, fun other mem above =>
        absurd above (none other mem)⟩
  · rw [ends, Option.getD_some]
    obtain ⟨mem, positive⟩ := List.mem_filter.mp (List.mem_of_getLast? ends)
    refine leastPositive_eq_of_mem (of_decide_eq_true positive) (List.mem_cons_of_mem _ mem) ?_
    refine List.forall_mem_cons.mpr ⟨fun above => ?_, fun other inside above => ?_⟩
    · rcases below last ends with zero | lower
      · omega
      · exact lower
    · exact le_of_falling falling ends other (List.mem_filter.mpr ⟨inside, decide_eq_true above⟩)

theorem foldl_tighten (nonneg : 0 ≤ cap) (values : List ℤ) :
    values.foldl tighten cap = leastPositive (cap :: values) := by
  induction values using List.reverseRecOn with
  | nil =>
      rcases nonneg.eq_or_lt with zero | positive
      · rw [← zero]
        rfl
      · exact (leastPositive_eq_of_mem positive List.mem_cons_self (by simp)).symm
  | append_singleton values value ih =>
      rw [List.foldl_append, ih, ← List.cons_append, leastPositive_concat]
      rfl

end Zhongzhuan.Kit
