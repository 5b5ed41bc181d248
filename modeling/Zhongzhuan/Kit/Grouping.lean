import Mathlib
import Zhongzhuan.Kit.Dict

/-!
# Totals by key

Rows with a key and a value in a commutative monoid, and what becomes of them in two stages:
groups of equal keys with a total each, and a table that adds the totals of several groups.

* `sum_groups` is the law of the first stage: the totals of the groups whose key passes a test
  add up to the total of the rows whose key does.
* `addTo` adds to an entry of a dictionary; `get?_foldl_addTo` is the law of the second stage:
  an entry is the sum of what was added under its key.
-/

namespace Zhongzhuan.Kit

universe u v w

variable {α : Type u} {κ : Type v} {M : Type w} [DecidableEq κ] [AddCommMonoid M]

/-- The total of the rows that pass a test. -/
def totalOf (f : α → M) (p : α → Bool) (rows : List α) : M := ((rows.filter p).map f).sum

theorem totalOf_cons (f : α → M) (p : α → Bool) (a : α) (rows : List α) :
    totalOf f p (a :: rows) = (if p a then f a else 0) + totalOf f p rows := by
  unfold totalOf
  rw [List.filter_cons]
  split
  · rw [List.map_cons, List.sum_cons]
  · rw [zero_add]

theorem totalOf_append (f : α → M) (p : α → Bool) (rows more : List α) :
    totalOf f p (rows ++ more) = totalOf f p rows + totalOf f p more := by
  unfold totalOf
  rw [List.filter_append, List.map_append, List.sum_append]

theorem totalOf_perm (f : α → M) (p : α → Bool) {rows other : List α} (perm : rows.Perm other) :
    totalOf f p rows = totalOf f p other :=
  ((perm.filter p).map f).sum_eq

theorem totalOf_map {β : Type*} (f : α → M) (p : α → Bool) (h : β → α) (l : List β) :
    totalOf f p (l.map h) = totalOf (fun b => f (h b)) (fun b => p (h b)) l := by
  unfold totalOf
  rw [List.filter_map, List.map_map]
  rfl

theorem totalOf_filter (f : α → M) (p q : α → Bool) (rows : List α) :
    totalOf f p (rows.filter q) = totalOf f (fun a => p a && q a) rows := by
  unfold totalOf
  rw [List.filter_filter]

theorem totalOf_congr (f : α → M) {p q : α → Bool} {rows : List α}
    (same : ∀ a ∈ rows, p a = q a) : totalOf f p rows = totalOf f q rows := by
  unfold totalOf
  rw [List.filter_congr same]

theorem sum_map_single {keys : List κ} (nodup : keys.Nodup) (k : κ) (m : M) :
    (keys.map fun j => if k = j then m else 0).sum = if k ∈ keys then m else 0 := by
  induction keys with
  | nil => rfl
  | cons j keys ih =>
      obtain ⟨fresh, nodup⟩ := List.nodup_cons.mp nodup
      rw [List.map_cons, List.sum_cons, ih nodup]
      by_cases same : k = j
      · subst same
        rw [if_pos rfl, if_neg fresh, if_pos List.mem_cons_self, add_zero]
      · rw [if_neg same, zero_add]
        simp only [List.mem_cons, same, false_or]

/-- **Groups add up**: the totals of the groups whose key passes are the total of the rows whose
key does. -/
theorem sum_groups (key : α → κ) (f : α → M) (p : κ → Bool) {keys : List κ} (nodup : keys.Nodup)
    {rows : List α} (all : ∀ a ∈ rows, key a ∈ keys) :
    ((keys.filter p).map fun k => totalOf f (fun a => key a = k) rows).sum
      = totalOf f (fun a => p (key a)) rows := by
  induction rows with
  | nil =>
      unfold totalOf
      simp
  | cons a rows ih =>
      have rest := ih fun b mem => all b (List.mem_cons_of_mem a mem)
      have single := sum_map_single (nodup.filter p) (key a) (f a)
      simp only [totalOf_cons, decide_eq_true_eq, List.sum_map_add, rest, single, List.mem_filter,
        all a List.mem_cons_self, true_and]

/-! ## A table of totals -/

/-- `d[k] += m`, from zero. -/
def addTo (d : Dict κ M) (entry : κ × M) : Dict κ M :=
  d.set entry.1 ((d.get? entry.1).getD 0 + entry.2)

theorem get?_foldl_addTo (d : Dict κ M) (entries : List (κ × M)) (k : κ) :
    (entries.foldl addTo d).get? k
      = if k ∈ entries.map Prod.fst then
          some ((d.get? k).getD 0 + totalOf Prod.snd (fun entry => entry.1 = k) entries)
        else d.get? k := by
  induction entries generalizing d with
  | nil => rfl
  | cons entry rest ih =>
      rw [List.foldl_cons, ih, totalOf_cons]
      by_cases same : entry.1 = k
      · subst same
        simp only [addTo, Dict.get?_set_self, Option.getD_some, List.map_cons, List.mem_cons,
          true_or, if_true, decide_true]
        split
        · rw [add_assoc]
        case isFalse fresh =>
          have none : totalOf Prod.snd (fun e : κ × M => decide (e.1 = entry.1)) rest = 0 := by
            have empty : rest.filter (fun e => decide (e.1 = entry.1)) = [] := by
              refine List.filter_eq_nil_iff.mpr fun e mem hit => fresh ?_
              exact List.mem_map.mpr ⟨e, mem, of_decide_eq_true hit⟩
            rw [totalOf, empty]
            rfl
          rw [none, add_zero]
      · have kept : (addTo d entry).get? k = d.get? k :=
          Dict.get?_set_of_ne d _ (Ne.symm same)
        simp only [kept, List.map_cons, List.mem_cons, Ne.symm same, false_or, same,
          decide_false, Bool.false_eq_true, if_false, zero_add]

omit [AddCommMonoid M] in
theorem length_setEntries (k : κ) (m : M) (entries : List (κ × M)) :
    (Dict.setEntries k m entries).length ≤ entries.length + 1 := by
  induction entries with
  | nil => exact le_refl 1
  | cons entry rest ih =>
      obtain ⟨j, w⟩ := entry
      unfold Dict.setEntries
      split
      · exact Nat.le_succ _
      · exact Nat.succ_le_succ ih

theorem length_foldl_addTo (d : Dict κ M) (entries : List (κ × M)) :
    (entries.foldl addTo d).entries.length ≤ d.entries.length + entries.length := by
  induction entries generalizing d with
  | nil => exact le_refl _
  | cons entry rest ih =>
      have one := length_setEntries entry.1 ((d.get? entry.1).getD 0 + entry.2) d.entries
      have more := ih (addTo d entry)
      rw [List.foldl_cons, List.length_cons]
      change _ ≤ (Dict.setEntries entry.1 _ d.entries).length + rest.length at more
      omega

end Zhongzhuan.Kit
