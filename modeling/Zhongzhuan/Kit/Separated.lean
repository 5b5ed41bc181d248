import Zhongzhuan.Kit.Text

/-!
# Pieces between separators, as they arrive

`separate sep held xs` cuts `held ++ xs` after every occurrence of the word `sep` that a scan from
the left meets, where `held` is known to hold none: the pieces without their separators, and what
stands after the last one.  It is what repeated splitting at the first occurrence gives, and it
may be done on the parts of a list as they arrive (`separate_append`): `arrivals` says which
pieces each part completes.
-/

namespace Zhongzhuan.Kit

universe u

variable {α : Type u} [DecidableEq α]

/-- The pieces that are complete, and the rest. -/
def separate (sep held : List α) : List α → List (List α) × List α
  | [] => ([], held)
  | x :: xs =>
    if sep.isSuffixOf (held ++ [x]) then
      let more := separate sep [] xs
      ((held ++ [x]).take (held.length + 1 - sep.length) :: more.1, more.2)
    else separate sep (held ++ [x]) xs

@[simp] theorem separate_nil (sep held : List α) : separate sep held [] = ([], held) := rfl

theorem separate_append (sep held xs ys : List α) :
    separate sep held (xs ++ ys)
      = ((separate sep held xs).1 ++ (separate sep (separate sep held xs).2 ys).1,
        (separate sep (separate sep held xs).2 ys).2) := by
  induction xs generalizing held with
  | nil => rfl
  | cons x xs ih =>
      rw [List.cons_append, separate, separate]
      split
      case isTrue _ => rw [ih, List.cons_append]
      case isFalse _ => rw [ih]

/-- A list in which a scan finds no separator. -/
def Whole (sep held : List α) : Prop := separate sep [] held = ([], held)

theorem Whole.nil (sep : List α) : Whole sep [] := rfl

theorem Whole.separate_append {sep held : List α} (whole : Whole sep held) (xs : List α) :
    separate sep [] (held ++ xs) = separate sep held xs := by
  rw [Kit.separate_append, whole]
  rfl

theorem whole_rest {sep held : List α} (whole : Whole sep held) (xs : List α) :
    Whole sep (separate sep held xs).2 := by
  induction xs generalizing held with
  | nil => exact whole
  | cons x xs ih =>
      rw [separate]
      split
      case isTrue _ => exact ih (.nil sep)
      case isFalse missed =>
        refine ih ?_
        have longer := whole.separate_append [x]
        rw [separate, if_neg missed, separate_nil] at longer
        exact longer

theorem rest_of_nil {sep held xs : List α} (none : (separate sep held xs).1 = []) :
    (separate sep held xs).2 = held ++ xs := by
  induction xs generalizing held with
  | nil => simp
  | cons x xs ih =>
      rw [separate] at none ⊢
      split at none
      case isTrue _ => cases none
      case isFalse missed =>
        rw [if_neg missed, ih none]
        simp

theorem Whole.of_append {sep front back : List α} (whole : Whole sep (front ++ back)) :
    Whole sep front := by
  rw [Whole, Kit.separate_append] at whole
  have none := (List.append_eq_nil_iff.mp (congrArg Prod.fst whole)).1
  exact Prod.ext none (rest_of_nil none)

theorem separate_consumed {sep held : List α} (whole : Whole sep held) (xs : List α) :
    ∃ taken, held ++ xs = taken ++ (separate sep held xs).2
      ∧ (taken = [] ∨ sep <:+ taken)
      ∧ separate sep [] taken = ((separate sep held xs).1, []) := by
  induction xs generalizing held with
  | nil => exact ⟨[], by simp, .inl rfl, rfl⟩
  | cons x xs ih =>
      rw [separate]
      by_cases here : sep.isSuffixOf (held ++ [x]) = true
      · rw [if_pos here]
        obtain ⟨taken, split, ends, cut⟩ := ih (Whole.nil sep)
        refine ⟨held ++ [x] ++ taken, ?_, .inr ?_, ?_⟩
        · rw [List.append_assoc, List.append_assoc, ← split]
          simp
        · rcases ends with rfl | ends
          · simpa using List.isSuffixOf_iff_suffix.mp here
          · exact ends.trans (List.suffix_append _ _)
        · rw [List.append_assoc, whole.separate_append, List.singleton_append, separate,
            if_pos here, cut]
      · rw [if_neg here]
        have longer : Whole sep (held ++ [x]) := by
          rw [Whole, whole.separate_append, separate, if_neg here]
          rfl
        obtain ⟨taken, split, ends, cut⟩ := ih longer
        exact ⟨taken, by rw [← split]; simp, ends, cut⟩

theorem length_separate_singleton (sep held : List α) (x : α) :
    (separate sep held [x]).1.length ≤ 1 := by
  rw [separate]
  split <;> simp

theorem separate_plain {sep : List α} {last : α} (ends : sep.getLast? = some last)
    (held : List α) {xs : List α} (plain : last ∉ xs) :
    separate sep held xs = ([], held ++ xs) := by
  induction xs generalizing held with
  | nil => rw [separate_nil, List.append_nil]
  | cons x xs ih =>
      rw [List.mem_cons, not_or] at plain
      obtain ⟨other, plain⟩ := plain
      have missed : ¬ sep.isSuffixOf (held ++ [x]) = true := by
        intro here
        obtain ⟨before, split⟩ := List.isSuffixOf_iff_suffix.mp here
        have same := congrArg List.getLast? split
        rw [List.getLast?_append, ends, List.getLast?_append] at same
        exact other (Option.some.inj same)
      rw [separate, if_neg missed, ih (held ++ [x]) plain, List.append_assoc]
      rfl

theorem rpartition_concat {sep : Char} {front back : List Char} (plain : sep ∉ back) :
    rpartition sep (front ++ sep :: back) = (front, back) := by
  have skips : ∀ c ∈ back.reverse, decide (c ≠ sep) = true := by
    intro c mem
    exact decide_eq_true fun same => plain (List.mem_reverse.mp (same ▸ mem))
  unfold rpartition
  rw [List.reverse_append, List.reverse_cons, List.append_assoc,
    List.dropWhile_append_of_pos skips, List.takeWhile_append_of_pos skips]
  simp

theorem not_mem_rpartition (sep : Char) (text : List Char) : sep ∉ (rpartition sep text).2 := by
  intro mem
  have kept := List.mem_takeWhile_imp (List.mem_reverse.mp mem)
  exact absurd rfl (of_decide_eq_true kept)

theorem rpartition_join {sep : Char} {text : List Char} (there : sep ∈ text) :
    (rpartition sep text).1 ++ sep :: (rpartition sep text).2 = text := by
  obtain ⟨back, front, split, plain⟩ := List.eq_append_cons_of_mem (List.mem_reverse.mpr there)
  have cut : text = front.reverse ++ sep :: back.reverse := by
    rw [← List.reverse_reverse text, split]
    simp
  rw [cut, rpartition_concat (by simpa using plain)]

/-! ## Parts -/

/-- The pieces that each part of a list completes, and the rest. -/
def arrivals (sep held : List α) : List (List α) → List (List (List α)) × List α
  | [] => ([], held)
  | xs :: parts =>
    let cut := separate sep [] (held ++ xs)
    let more := arrivals sep cut.2 parts
    (cut.1 :: more.1, more.2)

theorem arrivals_flatten {sep held : List α} (whole : Whole sep held) (parts : List (List α)) :
    separate sep [] (held ++ parts.flatten)
      = ((arrivals sep held parts).1.flatten, (arrivals sep held parts).2) := by
  induction parts generalizing held with
  | nil =>
    rw [List.flatten_nil, List.append_nil]
    exact whole
  | cons xs parts ih =>
    have rest : Whole sep (separate sep [] (held ++ xs)).2 := whole_rest (.nil sep) _
    rw [List.flatten_cons, ← List.append_assoc, separate_append, ← rest.separate_append, ih rest]
    rfl

theorem length_arrivals (sep held : List α) (parts : List (List α)) :
    (arrivals sep held parts).1.length = parts.length := by
  induction parts generalizing held with
  | nil => rfl
  | cons xs parts ih => exact congrArg (· + 1) (ih _)

/-! ## Words in a text -/

theorem intercalate_separate (sep held xs : List α) :
    sep.intercalate ((separate sep held xs).1 ++ [(separate sep held xs).2]) = held ++ xs := by
  induction xs generalizing held with
  | nil => simp
  | cons x xs ih =>
      rw [separate]
      split
      case isTrue here =>
        obtain ⟨piece, ends⟩ := List.isSuffixOf_iff_suffix.mp here
        have taken : (held ++ [x]).take (held.length + 1 - sep.length) = piece := by
          have total := congrArg List.length ends
          rw [List.length_append, List.length_append, List.length_singleton] at total
          rw [← ends, List.take_left' (by omega)]
        have rest := ih []
        rw [List.nil_append] at rest
        rw [taken, List.cons_append, List.intercalate_cons_of_ne_nil (by simp), rest, ends]
        simp
      case isFalse _ =>
        rw [ih]
        simp

theorem separate_eq_nil_iff {sep : List α} (nonempty : sep ≠ []) (xs : List α) :
    (separate sep [] xs).1 = [] ↔ ¬ sep <:+: xs := by
  constructor
  · rintro none ⟨before, after, rfl⟩
    obtain ⟨front, last, rfl⟩ := (List.eq_nil_or_concat sep).resolve_left nonempty
    rw [List.concat_eq_append] at none
    -- the scan is at the last element of the occurrence
    have split : before ++ (front ++ [last]) ++ after = (before ++ front) ++ last :: after := by
      simp
    rw [split, separate_append] at none
    obtain ⟨early, late⟩ := List.append_eq_nil_iff.mp none
    rw [rest_of_nil early, separate, List.nil_append] at late
    have here : (front ++ [last]).isSuffixOf (before ++ front ++ [last]) = true :=
      List.isSuffixOf_iff_suffix.mpr ⟨before, by simp⟩
    rw [if_pos here] at late
    cases late
  · intro absent
    obtain ⟨taken, split, ends, cut⟩ := separate_consumed (Whole.nil sep) xs
    rcases ends with rfl | ends
    · exact (congrArg Prod.fst cut).symm
    · rw [List.nil_append] at split
      exact absurd (split ▸ ends.isInfix.trans (List.prefix_append _ _).isInfix) absent

theorem isInfix_iff (word text : List Char) : isInfix word text = true ↔ word <:+: text := by
  induction text with
  | nil => simp [isInfix]
  | cons c text ih =>
      rw [isInfix, Bool.or_eq_true, ih, List.isPrefixOf_iff_prefix, List.infix_cons_iff]

end Zhongzhuan.Kit
