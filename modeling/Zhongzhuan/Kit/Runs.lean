import Mathlib

/-!
# Runs

Lists of items that each stand under a key, where neighbours under one key are put together.

* `mergeRuns` puts them together from the left, `tagged` are the items with their keys.
* `tagged_mergeRuns`: the items stay what they were and where they were.
* `alternates_mergeRuns`: after it no two neighbours have one key.
* `eq_of_tagged` says that there is only one such list, if none of its runs is empty.
-/

namespace Zhongzhuan.Kit

universe u v

variable {κ : Type u} {β : Type v}

/-- Items under a key. -/
structure Run (κ : Type u) (β : Type v) where
  key : κ
  items : List β
deriving DecidableEq

/-- The items with their keys. -/
def tagged (runs : List (Run κ β)) : List (κ × β) :=
  runs.flatMap fun run => run.items.map (run.key, ·)

/-- No two neighbours have one key. -/
def Alternates (runs : List (Run κ β)) : Prop := runs.IsChain fun run next => run.key ≠ next.key

theorem tagged_append (front back : List (Run κ β)) :
    tagged (front ++ back) = tagged front ++ tagged back := List.flatMap_append

section Merge

variable [DecidableEq κ]

/-- One more run at the end. -/
def pushRun (runs : List (Run κ β)) (run : Run κ β) : List (Run κ β) :=
  if runs.getLast?.map Run.key = some run.key then
    runs.modifyLast fun last => { last with items := last.items ++ run.items }
  else runs ++ [run]

/-- Neighbours under one key are put together. -/
def mergeRuns (runs : List (Run κ β)) : List (Run κ β) := runs.foldl pushRun []

theorem pushRun_cases (runs : List (Run κ β)) (run : Run κ β) :
    (∃ front last, runs = front ++ [last] ∧ last.key = run.key
      ∧ pushRun runs run = front ++ [{ last with items := last.items ++ run.items }])
    ∨ ((∀ last ∈ runs.getLast?, last.key ≠ run.key) ∧ pushRun runs run = runs ++ [run]) := by
  unfold pushRun
  by_cases same : runs.getLast?.map Run.key = some run.key
  · left
    obtain ⟨last, there, key⟩ := Option.map_eq_some_iff.mp same
    obtain ⟨front, rfl⟩ := List.getLast?_eq_some_iff.mp there
    rw [if_pos same]
    exact ⟨front, last, rfl, key, List.modifyLast_concat ..⟩
  · right
    rw [if_neg same]
    refine ⟨fun last mem key => same ?_, rfl⟩
    rw [Option.mem_def.mp mem, Option.map_some, key]

theorem tagged_pushRun (runs : List (Run κ β)) (run : Run κ β) :
    tagged (pushRun runs run) = tagged runs ++ tagged [run] := by
  obtain ⟨front, last, rfl, key, eq⟩ | ⟨-, eq⟩ := pushRun_cases runs run
  · have joined : tagged [{ last with items := last.items ++ run.items }]
        = tagged [last] ++ tagged [run] := by
      simp [tagged, key]
    rw [eq, tagged_append, tagged_append, joined, List.append_assoc]
  · rw [eq, tagged_append]

theorem alternates_pushRun {runs : List (Run κ β)} (alternates : Alternates runs)
    (run : Run κ β) : Alternates (pushRun runs run) := by
  obtain ⟨front, last, rfl, key, eq⟩ | ⟨other, eq⟩ := pushRun_cases runs run
  · rw [eq]
    obtain ⟨before, -, last_of⟩ := List.isChain_append.mp alternates
    refine List.isChain_append.mpr ⟨before, List.isChain_singleton _, ?_⟩
    intro x mem y there
    obtain rfl := Option.some.inj there
    exact last_of x mem last rfl
  · rw [eq]
    refine List.isChain_append.mpr ⟨alternates, List.isChain_singleton _, ?_⟩
    intro x mem y there
    obtain rfl := Option.some.inj there
    exact other x mem

theorem nonempty_pushRun {runs : List (Run κ β)} (nonempty : ∀ r ∈ runs, r.items ≠ [])
    {run : Run κ β} (some_item : run.items ≠ []) : ∀ r ∈ pushRun runs run, r.items ≠ [] := by
  obtain ⟨front, last, rfl, key, eq⟩ | ⟨-, eq⟩ := pushRun_cases runs run
  · rw [eq]
    rw [List.forall_mem_append] at nonempty ⊢
    refine ⟨nonempty.1, List.forall_mem_singleton.mpr fun empty => some_item ?_⟩
    exact (List.append_eq_nil_iff.mp empty).2
  · rw [eq]
    exact List.forall_mem_append.mpr ⟨nonempty, List.forall_mem_singleton.mpr some_item⟩

theorem tagged_mergeRuns (runs : List (Run κ β)) : tagged (mergeRuns runs) = tagged runs := by
  have folded : ∀ merged : List (Run κ β),
      tagged (runs.foldl pushRun merged) = tagged merged ++ tagged runs := by
    induction runs with
    | nil => exact fun merged => (List.append_nil _).symm
    | cons run runs ih =>
      intro merged
      rw [List.foldl_cons, ih, tagged_pushRun, List.append_assoc, ← tagged_append]
      rfl
  exact folded []

theorem alternates_mergeRuns (runs : List (Run κ β)) : Alternates (mergeRuns runs) :=
  List.foldlRecOn runs pushRun List.isChain_nil fun _ alternates run _ =>
    alternates_pushRun alternates run

theorem nonempty_mergeRuns {runs : List (Run κ β)} (nonempty : ∀ r ∈ runs, r.items ≠ []) :
    ∀ r ∈ mergeRuns runs, r.items ≠ [] :=
  List.foldlRecOn (motive := fun merged : List (Run κ β) => ∀ r ∈ merged, r.items ≠ []) runs
    pushRun (List.forall_mem_nil _) fun _ before run mem =>
      nonempty_pushRun before (nonempty run mem)

end Merge

/-! ## Runs are unique -/

theorem span_append {α : Type v} {p : α → Bool} {front rest : List α}
    (pass : ∀ x ∈ front, p x = true) (stop : ∀ x ∈ rest.head?, p x = false) :
    (front ++ rest).takeWhile p = front ∧ (front ++ rest).dropWhile p = rest := by
  rw [List.takeWhile_append_of_pos pass, List.dropWhile_append_of_pos pass]
  cases rest with
  | nil => exact ⟨List.append_nil _, rfl⟩
  | cons x rest =>
    have here : ¬p x = true := Bool.eq_false_iff.mp (stop x rfl)
    rw [List.takeWhile_cons_of_neg here, List.dropWhile_cons_of_neg here, List.append_nil]
    exact ⟨rfl, rfl⟩

theorem head_tagged {runs : List (Run κ β)} (nonempty : ∀ r ∈ runs, r.items ≠ []) :
    (tagged runs).head?.map Prod.fst = runs.head?.map Run.key := by
  cases runs with
  | nil => rfl
  | cons run runs =>
    obtain ⟨item, items, eq⟩ := List.exists_cons_of_ne_nil (nonempty run List.mem_cons_self)
    simp [tagged, eq]

/-- **The items with their keys say what the runs are**, if no two neighbours have one key and no
run is empty. -/
theorem eq_of_tagged {runs same : List (Run κ β)} (alternates : Alternates runs)
    (alternates' : Alternates same) (nonempty : ∀ r ∈ runs, r.items ≠ [])
    (nonempty' : ∀ r ∈ same, r.items ≠ []) (eq : tagged runs = tagged same) : runs = same := by
  classical
  -- the items of the first run are those before the key changes
  have split : ∀ {run : Run κ β} {rest : List (Run κ β)}, Alternates (run :: rest) →
      (∀ r ∈ rest, r.items ≠ []) →
      (tagged (run :: rest)).takeWhile (fun item => decide (item.1 = run.key))
          = run.items.map (run.key, ·)
        ∧ (tagged (run :: rest)).dropWhile (fun item => decide (item.1 = run.key))
          = tagged rest := by
    intro run rest alternates nonempty
    have first : ∀ item ∈ run.items.map (run.key, ·), decide (item.1 = run.key) = true := by
      intro item mem
      obtain ⟨_, _, rfl⟩ := List.mem_map.mp mem
      exact decide_eq_true rfl
    have other : ∀ item ∈ (tagged rest).head?, decide (item.1 = run.key) = false := by
      intro item there
      rw [decide_eq_false_iff_not]
      intro same_key
      have head : (tagged rest).head?.map Prod.fst = some item.1 := by
        rw [Option.mem_def.mp there, Option.map_some]
      rw [head_tagged nonempty] at head
      obtain ⟨next, found, key⟩ := Option.map_eq_some_iff.mp head
      refine (List.isChain_cons.mp alternates).1 next found ?_
      rw [key, same_key]
    exact span_append first other
  induction runs generalizing same with
  | nil =>
    have none_there := head_tagged nonempty'
    rw [← eq] at none_there
    cases same with
    | nil => rfl
    | cons run rest => cases none_there
  | cons run rest ih =>
    have key := head_tagged nonempty'
    rw [← eq, head_tagged nonempty] at key
    cases same with
    | nil => cases key
    | cons run' rest' =>
      have key' : run.key = run'.key := Option.some.inj key
      obtain ⟨-, later⟩ := List.forall_mem_cons.mp nonempty
      obtain ⟨-, later'⟩ := List.forall_mem_cons.mp nonempty'
      obtain ⟨first, rest_eq⟩ := split alternates later
      obtain ⟨first', rest_eq'⟩ := split alternates' later'
      rw [eq, key', first'] at first
      rw [eq, key', rest_eq'] at rest_eq
      have items : run'.items = run.items :=
        List.map_injective_iff.mpr (Prod.mk_right_injective _) first
      have tails := ih alternates.tail alternates'.tail later later' rest_eq.symm
      rw [tails]
      congr 1
      cases run
      cases run'
      simp only at key' items
      rw [key', items]

end Zhongzhuan.Kit
