import Mathlib

/-!
# Dictionaries in insertion order

The dictionary the modelled code uses throughout: one entry per key, iterated in the
order the keys were first stored.  Storing under a key that is present replaces the value
in place; removing a key and storing it again moves it to the end.

* `Dict.get?`, `Dict.set` and `Dict.erase` are the three operations; the laws
  `get?_set_self`, `get?_set_of_ne`, `get?_erase_self` and `get?_erase_of_ne` say what each
  does to a lookup.
* `Dict.mem_entries` and `Dict.mem_values` turn membership into lookups, so that a proof
  about an iteration never meets the list underneath.
-/

namespace Zhongzhuan.Kit

universe u v

variable {κ : Type u} {ν : Type v}

/-- A finite map with its entries in insertion order and no key twice. -/
structure Dict (κ : Type u) (ν : Type v) where
  entries : List (κ × ν)
  nodup : (entries.map Prod.fst).Nodup

namespace Dict

@[ext] theorem ext {d e : Dict κ ν} (same : d.entries = e.entries) : d = e := by
  cases d
  cases e
  cases same
  rfl

instance [DecidableEq κ] [DecidableEq ν] : DecidableEq (Dict κ ν) := fun d e =>
  decidable_of_iff (d.entries = e.entries) ⟨ext, fun same => by rw [same]⟩

/-- The dictionary without entries. -/
def empty : Dict κ ν := ⟨[], List.nodup_nil⟩

/-- The keys, in insertion order. -/
def keys (d : Dict κ ν) : List κ := d.entries.map Prod.fst

/-- The values, in insertion order. -/
def values (d : Dict κ ν) : List ν := d.entries.map Prod.snd

@[simp] theorem entries_empty : (empty : Dict κ ν).entries = [] := rfl

@[simp] theorem values_empty : (empty : Dict κ ν).values = [] := rfl

variable [DecidableEq κ]

/-- The value stored under a key. -/
def get? (d : Dict κ ν) (k : κ) : Option ν := d.entries.lookup k

/-- The entries after a store under `k`. -/
def setEntries (k : κ) (v : ν) : List (κ × ν) → List (κ × ν)
  | [] => [(k, v)]
  | (j, w) :: rest => if j = k then (k, v) :: rest else (j, w) :: setEntries k v rest

theorem mem_keys_setEntries {k j : κ} {v : ν} (entries : List (κ × ν)) :
    j ∈ (setEntries k v entries).map Prod.fst ↔ j = k ∨ j ∈ entries.map Prod.fst := by
  induction entries with
  | nil => simp [setEntries]
  | cons entry rest ih =>
      obtain ⟨i, w⟩ := entry
      unfold setEntries
      split
      case isTrue same =>
        subst same
        simp
      case isFalse other =>
        rw [List.map_cons, List.mem_cons, ih, List.map_cons, List.mem_cons]
        exact or_left_comm

theorem nodup_setEntries (k : κ) (v : ν) {entries : List (κ × ν)}
    (nodup : (entries.map Prod.fst).Nodup) :
    ((setEntries k v entries).map Prod.fst).Nodup := by
  induction entries with
  | nil => simp [setEntries]
  | cons entry rest ih =>
      obtain ⟨i, w⟩ := entry
      rw [List.map_cons, List.nodup_cons] at nodup
      unfold setEntries
      split
      case isTrue same =>
        subst same
        exact List.nodup_cons.mpr nodup
      case isFalse other =>
        rw [List.map_cons, List.nodup_cons]
        refine ⟨?_, ih nodup.2⟩
        rw [mem_keys_setEntries]
        rintro (same | old)
        · exact other same
        · exact nodup.1 old

/-- `d[k] = v`: in place when `k` is present, at the end otherwise. -/
def set (d : Dict κ ν) (k : κ) (v : ν) : Dict κ ν where
  entries := setEntries k v d.entries
  nodup := nodup_setEntries k v d.nodup

/-- `d.pop(k, None)`. -/
def erase (d : Dict κ ν) (k : κ) : Dict κ ν where
  entries := d.entries.filter fun entry => entry.1 ≠ k
  nodup := d.nodup.sublist (List.filter_sublist.map Prod.fst)

/-- `{k: v for k, v in d.items() if p(k, v)}`. -/
def keepIf (d : Dict κ ν) (p : κ → ν → Bool) : Dict κ ν where
  entries := d.entries.filter fun entry => p entry.1 entry.2
  nodup := d.nodup.sublist (List.filter_sublist.map Prod.fst)

@[simp] theorem get?_empty (k : κ) : (empty : Dict κ ν).get? k = none := rfl

@[simp] theorem get?_set_self (d : Dict κ ν) (k : κ) (v : ν) :
    (d.set k v).get? k = some v := by
  show (setEntries k v d.entries).lookup k = some v
  induction d.entries with
  | nil => simp [setEntries]
  | cons entry rest ih =>
      obtain ⟨i, w⟩ := entry
      unfold setEntries
      split
      case isTrue same => simp [List.lookup]
      case isFalse other =>
        have miss : (k == i) = false := by simpa using fun same : k = i => other same.symm
        simp [List.lookup, miss, ih]

@[simp] theorem get?_set_of_ne (d : Dict κ ν) {k j : κ} (v : ν) (other : j ≠ k) :
    (d.set k v).get? j = d.get? j := by
  show (setEntries k v d.entries).lookup j = d.entries.lookup j
  have miss : (j == k) = false := by simpa using other
  induction d.entries with
  | nil => simp [setEntries, List.lookup, miss]
  | cons entry rest ih =>
      obtain ⟨i, w⟩ := entry
      unfold setEntries
      split
      case isTrue same =>
        subst same
        simp [List.lookup, miss]
      case isFalse _ => simp [List.lookup, ih]

theorem get?_set (d : Dict κ ν) (k j : κ) (v : ν) :
    (d.set k v).get? j = if j = k then some v else d.get? j := by
  split
  case isTrue same => rw [same, get?_set_self]
  case isFalse other => exact get?_set_of_ne d v other

@[simp] theorem get?_erase_self (d : Dict κ ν) (k : κ) : (d.erase k).get? k = none := by
  show (d.entries.filter _).lookup k = none
  rw [List.lookup_eq_none_iff]
  intro entry mem
  have other : entry.1 ≠ k := by simpa using (List.mem_filter.mp mem).2
  simpa using fun same : k = entry.1 => other same.symm

@[simp] theorem get?_erase_of_ne (d : Dict κ ν) {k j : κ} (other : j ≠ k) :
    (d.erase k).get? j = d.get? j := by
  show (d.entries.filter _).lookup j = d.entries.lookup j
  induction d.entries with
  | nil => rfl
  | cons entry rest ih =>
      obtain ⟨i, w⟩ := entry
      rw [List.filter_cons]
      split
      case isTrue kept => rw [List.lookup_cons, List.lookup_cons, ih]
      case isFalse dropped =>
        have same : i = k := by simpa using dropped
        have miss : (j == i) = false := by simpa [same] using other
        rw [List.lookup_cons, miss, ih]

theorem mem_entries {d : Dict κ ν} {k : κ} {v : ν} :
    (k, v) ∈ d.entries ↔ d.get? k = some v := by
  obtain ⟨entries, nodup⟩ := d
  show (k, v) ∈ entries ↔ entries.lookup k = some v
  induction entries with
  | nil => simp
  | cons entry rest ih =>
      obtain ⟨i, w⟩ := entry
      rw [List.map_cons, List.nodup_cons] at nodup
      by_cases same : k = i
      · subst same
        have absent : (k, v) ∉ rest := fun mem =>
          nodup.1 (List.mem_map.mpr ⟨(k, v), mem, rfl⟩)
        simp [List.lookup, absent, eq_comm]
      · have miss : (k == i) = false := by simpa using same
        simp [List.lookup, miss, same, ih nodup.2]

theorem get?_keepIf (d : Dict κ ν) (p : κ → ν → Bool) (k : κ) :
    (d.keepIf p).get? k = (d.get? k).filter (p k) := by
  apply Option.ext
  intro v
  rw [← mem_entries, Option.filter_eq_some_iff, ← mem_entries]
  exact List.mem_filter

theorem mem_keys {d : Dict κ ν} {k : κ} : k ∈ d.keys ↔ (d.get? k).isSome := by
  rw [Option.isSome_iff_exists]
  constructor
  · intro mem
    obtain ⟨⟨j, v⟩, stored, rfl⟩ := List.mem_map.mp mem
    exact ⟨v, mem_entries.mp stored⟩
  · rintro ⟨v, found⟩
    exact List.mem_map.mpr ⟨(k, v), mem_entries.mpr found, rfl⟩

theorem mem_values {d : Dict κ ν} {v : ν} : v ∈ d.values ↔ ∃ k, d.get? k = some v := by
  constructor
  · intro mem
    obtain ⟨⟨k, w⟩, stored, rfl⟩ := List.mem_map.mp mem
    exact ⟨k, mem_entries.mp stored⟩
  · rintro ⟨k, found⟩
    exact List.mem_map.mpr ⟨(k, v), mem_entries.mpr found, rfl⟩

theorem mem_values_set {d : Dict κ ν} {k : κ} {v w : ν} (mem : w ∈ (d.set k v).values) :
    w = v ∨ w ∈ d.values := by
  obtain ⟨j, stored⟩ := mem_values.mp mem
  rw [get?_set] at stored
  split at stored
  · exact .inl (Option.some.inj stored).symm
  · exact .inr (mem_values.mpr ⟨j, stored⟩)

theorem mem_values_erase {d : Dict κ ν} {k : κ} {w : ν} (mem : w ∈ (d.erase k).values) :
    w ∈ d.values :=
  (List.filter_sublist.map Prod.snd).subset mem

theorem countP_values_erase (d : Dict κ ν) (k : κ) (p : ν → Bool) :
    (d.erase k).values.countP p ≤ d.values.countP p :=
  (List.filter_sublist.map Prod.snd).countP_le

theorem countP_values_set (d : Dict κ ν) (k : κ) (v : ν) (p : ν → Bool) :
    (d.set k v).values.countP p ≤ d.values.countP p + 1 := by
  show ((setEntries k v d.entries).map Prod.snd).countP p ≤ (d.entries.map Prod.snd).countP p + 1
  induction d.entries with
  | nil => exact List.countP_le_length
  | cons entry rest ih =>
      unfold setEntries
      split
      · simp only [List.map_cons, List.countP_cons]
        split <;> omega
      · simp only [List.map_cons, List.countP_cons]
        omega

theorem countP_values_replace {d : Dict κ ν} {k : κ} {v w : ν} {p : ν → Bool}
    (found : d.get? k = some w) (weaker : p v = true → p w = true) :
    (d.set k v).values.countP p ≤ d.values.countP p := by
  show ((setEntries k v d.entries).map Prod.snd).countP p ≤ (d.entries.map Prod.snd).countP p
  change d.entries.lookup k = some w at found
  generalize d.entries = entries at found ⊢
  induction entries with
  | nil => cases found
  | cons entry rest ih =>
      obtain ⟨j, u⟩ := entry
      unfold setEntries
      split
      case isTrue same =>
        have held : u = w := by simpa [same] using found
        simp only [List.map_cons, List.countP_cons, held]
        split
        case isTrue counts => simp [weaker counts]
        case isFalse _ => omega
      case isFalse other =>
        have miss : (k == j) = false := by simpa using fun same : k = j => other same.symm
        rw [List.lookup_cons, miss] at found
        simp only [List.map_cons, List.countP_cons]
        exact Nat.add_le_add_right (ih found) _

end Dict

theorem nodup_eraseDups {α : Type u} [DecidableEq α] (l : List α) : l.eraseDups.Nodup := by
  induction h : l.length using Nat.strongRecOn generalizing l with
  | ind n ih =>
      cases l with
      | nil => simp
      | cons a l =>
          rw [List.eraseDups_cons, List.nodup_cons]
          have shorter := List.length_filter_le (fun b => !b == a) l
          refine ⟨fun mem => ?_, ih _ (by simp at h; omega) _ rfl⟩
          have kept := (List.mem_filter.mp (List.mem_eraseDups.mp mem)).2
          simp at kept

end Zhongzhuan.Kit
