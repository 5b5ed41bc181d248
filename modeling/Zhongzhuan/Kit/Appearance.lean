import Zhongzhuan.Kit.Dict

/-!
# The order of first appearance

A dictionary lists its keys in the order in which each was first stored, and a list without
its repetitions is in the order in which each element first occurs: the two orders are one
(`Dict.keys_set`, `eraseDups_concat`).  Things that were given increasing numbers as they
appeared are put back into that order by a sort (`mergeSort_eq_of_perm`).
-/

namespace Zhongzhuan.Kit

universe u v

variable {α β : Type u}

section Appearance

variable [DecidableEq α]

theorem eraseDups_concat (l : List α) (a : α) :
    (l ++ [a]).eraseDups = if a ∈ l then l.eraseDups else l.eraseDups ++ [a] := by
  rw [List.eraseDups_append]
  split
  case isTrue known => simp [List.removeAll, known]
  case isFalse new => simp [List.removeAll, new, List.eraseDups_cons]

theorem setEntries_keys {ν : Type v} (k : α) (v : ν) (entries : List (α × ν)) :
    (Dict.setEntries k v entries).map Prod.fst
      = if k ∈ entries.map Prod.fst then entries.map Prod.fst
        else entries.map Prod.fst ++ [k] := by
  induction entries with
  | nil => rfl
  | cons entry rest ih =>
      obtain ⟨j, w⟩ := entry
      unfold Dict.setEntries
      by_cases here : j = k
      · subst here
        simp
      · rw [if_neg here, List.map_cons, ih]
        have known : k ∈ ((j, w) :: rest).map Prod.fst ↔ k ∈ rest.map Prod.fst := by
          simp [Ne.symm here]
        by_cases later : k ∈ rest.map Prod.fst
        · rw [if_pos later, if_pos (known.mpr later), List.map_cons]
        · rw [if_neg later, if_neg (mt known.mp later), List.map_cons, List.cons_append]

theorem Dict.keys_set {ν : Type v} (d : Dict α ν) (k : α) (v : ν) :
    (d.set k v).keys = if k ∈ d.keys then d.keys else d.keys ++ [k] :=
  setEntries_keys k v d.entries

end Appearance

theorem mergeSort_eq_of_perm {items placed : List (ℕ × β)} (same : items.Perm placed)
    (increasing : (placed.map Prod.fst).Pairwise (· < ·)) :
    (items.mergeSort fun a b => a.1 ≤ b.1) = placed := by
  have distinct : ∀ a ∈ placed, ∀ b ∈ placed, a.1 = b.1 → a = b := by
    have nodup : (placed.map Prod.fst).Nodup :=
      increasing.imp fun less => Nat.ne_of_lt less
    exact fun a memA b memB => List.inj_on_of_nodup_map nodup memA memB
  have sorted := @List.pairwise_mergeSort _ (fun a b : ℕ × β => decide (a.1 ≤ b.1))
    (fun a b c => by simpa using fun h h' => Nat.le_trans h h')
    (fun a b => by simpa using Nat.le_total a.1 b.1) items
  have ordered : placed.Pairwise fun a b => decide (a.1 ≤ b.1) = true := by
    refine (List.pairwise_map.mp increasing).imp fun less => ?_
    simpa using Nat.le_of_lt less
  refine List.Perm.eq_of_pairwise ?_ sorted ordered ((List.mergeSort_perm items _).trans same)
  intro a b memA memB le ge
  have inside : a ∈ placed := same.mem_iff.mp (List.mem_mergeSort.mp memA)
  exact distinct a inside b memB (Nat.le_antisymm (by simpa using le) (by simpa using ge))

end Zhongzhuan.Kit
