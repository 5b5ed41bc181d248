import Mathlib

/-!
# Deleting from a table in batches

A table is a list of rows, no two of which share their key.  A statement that may delete only so
many rows picks some of the matching ones by their keys; which, is a parameter.  `deleteBatched`
repeats it until a batch comes out short, with the statement's own count deciding.

`deleteBatched_eq` is the rule: whatever is picked, with fuel for every matching row the loop ends
with just the other rows, and has counted the matching ones.
-/

namespace Zhongzhuan.Kit

universe u v

variable {ρ : Type u} {κ : Type v} {key : ρ → κ}

/-- A table with a primary key. -/
structure Keyed (key : ρ → κ) where
  rows : List ρ
  distinct : (rows.map key).Nodup

/-- Which of some keys a limit lets through. -/
structure Picker (κ : Type v) where
  pick : ℕ → List κ → List κ
  sublist : ∀ limit keys, (pick limit keys).Sublist keys
  length : ∀ limit keys, (pick limit keys).length = min limit keys.length

/-- The first ones. -/
def Picker.first (κ : Type v) : Picker κ where
  pick := List.take
  sublist := List.take_sublist
  length := fun _ _ => List.length_take

namespace Keyed

/-- The rows of which `p` holds. -/
def keep (t : Keyed key) (p : ρ → Bool) : Keyed key where
  rows := t.rows.filter p
  distinct := t.distinct.sublist (List.filter_sublist.map key)

variable {t t' : Keyed key} {p q : ρ → Bool}

theorem ext_rows (same : t.rows = t'.rows) : t = t' := by
  cases t
  cases t'
  cases same
  rfl

@[simp] theorem mem_keep {row : ρ} : row ∈ (t.keep p).rows ↔ row ∈ t.rows ∧ p row = true :=
  List.mem_filter

theorem keep_keep : (t.keep p).keep q = t.keep fun row => p row && q row :=
  ext_rows (List.filter_filter.trans (List.filter_congr fun _ _ => Bool.and_comm ..))

theorem keep_congr (same : ∀ row ∈ t.rows, p row = q row) : t.keep p = t.keep q :=
  ext_rows (List.filter_congr same)

theorem keep_true (all : ∀ row ∈ t.rows, p row = true) : t.keep p = t :=
  ext_rows (List.filter_eq_self.mpr all)

theorem eq_of_key {row row' : ρ} (mem : row ∈ t.rows) (mem' : row' ∈ t.rows)
    (same : key row = key row') : row = row' :=
  List.inj_on_of_nodup_map t.distinct mem mem' same

section Delete

variable [DecidableEq κ] (picker : Picker κ) (cond : ρ → Bool)

/-- The keys one statement picks. -/
def batch (t : Keyed key) (limit : ℕ) : List κ :=
  picker.pick limit ((t.keep cond).rows.map key)

/-- One statement: what is left, and how many rows it deleted. -/
def deleteBatch (t : Keyed key) (limit : ℕ) : Keyed key × ℕ :=
  (t.keep fun row => key row ∉ t.batch picker cond limit,
    t.rows.countP fun row => key row ∈ t.batch picker cond limit)

/-- The loop, from what it has counted so far; `none` is that the fuel did not last. -/
def deleteBatched (limit : ℕ) : ℕ → Keyed key → ℕ → Option (Keyed key × ℕ)
  | 0, _, _ => none
  | fuel + 1, t, deleted =>
    if t.rows.countP cond = 0 then some (t, deleted)
    else
      let (t', affected) := t.deleteBatch picker cond (min limit (t.rows.countP cond))
      if affected < limit then some (t', deleted + affected)
      else deleteBatched limit fuel t' (deleted + affected)

variable {picker cond} {limit : ℕ}

omit [DecidableEq κ] in
theorem cond_of_mem_batch {row : ρ} (mem : row ∈ t.rows)
    (picked : key row ∈ t.batch picker cond limit) : cond row = true := by
  obtain ⟨row', mem', same⟩ := List.mem_map.mp ((picker.sublist ..).subset picked)
  obtain ⟨inside, holds⟩ := mem_keep.mp mem'
  rwa [← eq_of_key inside mem same]

theorem deleteBatch_affected :
    (t.deleteBatch picker cond limit).2 = min limit (t.rows.countP cond) := by
  have picked : (t.batch picker cond limit).length = min limit (t.rows.countP cond) := by
    rw [batch, picker.length, List.length_map, List.countP_eq_length_filter]
    rfl
  rw [deleteBatch, ← picked, List.countP_eq_length_filter, ← List.length_map key]
  refine List.Perm.length_eq ?_
  refine (List.perm_ext_iff_of_nodup ?_ ?_).mpr fun k => ?_
  · exact t.distinct.sublist (List.filter_sublist.map key)
  · exact (t.keep cond).distinct.sublist (picker.sublist ..)
  · constructor
    · intro mem
      obtain ⟨row, inside, rfl⟩ := List.mem_map.mp mem
      simpa using (List.mem_filter.mp inside).2
    · intro mem
      obtain ⟨row, inside, rfl⟩ := List.mem_map.mp ((picker.sublist ..).subset mem)
      exact List.mem_map_of_mem (List.mem_filter.mpr ⟨(mem_keep.mp inside).1, by simpa using mem⟩)

theorem deleteBatch_rest :
    (t.deleteBatch picker cond limit).1.keep (fun row => !cond row) = t.keep (fun row => !cond row)
      ∧ (t.deleteBatch picker cond limit).1.rows.countP cond
          + (t.deleteBatch picker cond limit).2 = t.rows.countP cond := by
  constructor
  · rw [deleteBatch, keep_keep]
    refine keep_congr fun row mem => ?_
    by_cases holds : cond row = true
    · rw [holds, Bool.not_true, Bool.and_false]
    · have kept : key row ∉ t.batch picker cond limit := fun picked =>
        holds (cond_of_mem_batch mem picked)
      simp [kept]
  · have picked : t.rows.countP (fun row => key row ∈ t.batch picker cond limit)
        = (t.rows.filter fun row => !decide (key row ∉ t.batch picker cond limit)).countP cond := by
      rw [List.countP_filter]
      refine List.countP_congr fun row mem => ?_
      constructor
      · intro here
        have inside : key row ∈ t.batch picker cond limit := by simpa using here
        simp [cond_of_mem_batch mem inside, inside]
      · intro both
        have inside := (Bool.and_eq_true_iff.mp both).2
        simpa using inside
    rw [deleteBatch, picked, keep]
    exact (List.countP_eq_countP_filter_add ..).symm

/-- **With fuel for every matching row the loop leaves the others, and has counted the matching
ones.** -/
theorem deleteBatched_eq (positive : 0 < limit) {fuel deleted : ℕ}
    (enough : t.rows.countP cond < fuel) :
    deleteBatched picker cond limit fuel t deleted
      = some (t.keep fun row => !cond row, deleted + t.rows.countP cond) := by
  induction fuel generalizing t deleted with
  | zero => exact absurd enough (Nat.not_lt_zero _)
  | succ fuel ih =>
    rw [deleteBatched]
    by_cases none : t.rows.countP cond = 0
    · rw [if_pos none, none, keep_true]
      · rfl
      · intro row mem
        rw [Bool.not_eq_true']
        exact Bool.eq_false_iff.mpr (List.countP_eq_zero.mp none row mem)
    · rw [if_neg none]
      have affected := @deleteBatch_affected _ _ _ t _ picker cond
        (min limit (t.rows.countP cond))
      obtain ⟨rest, fewer⟩ := @deleteBatch_rest _ _ _ t _ picker cond
        (min limit (t.rows.countP cond))
      generalize t.deleteBatch picker cond (min limit (t.rows.countP cond)) = result
        at affected rest fewer
      obtain ⟨t', affected'⟩ := result
      dsimp only at affected rest fewer ⊢
      split
      case isTrue short =>
        -- a short batch was the last one
        have last : t'.rows.countP cond = 0 := by omega
        have ended : t'.keep (fun row => !cond row) = t' := keep_true fun row mem => by
          rw [Bool.not_eq_true']
          exact Bool.eq_false_iff.mpr (List.countP_eq_zero.mp last row mem)
        rw [← rest, ended]
        congr 2
        omega
      case isFalse full =>
        rw [ih (by omega), rest]
        congr 2
        omega

end Delete

end Keyed

end Zhongzhuan.Kit
