import Mathlib

/-!
# The lines of a string, as Python has them

`str.splitlines` cuts at every character that Unicode counts as the end of a line, and not only
at LF and CR.

* `isLineBreak` are these characters, and `splitlines` cuts at them; a CRLF is one break, and
  the last line need not be ended.
* `splitlines_plain`: a text without a break is one line.
* `splitlines_append`: a break after a line that is not empty splits the text.
* `first_line` and `later_line` say where the lines stand in the text.
-/

namespace Zhongzhuan.Kit

/-- A character `str.splitlines` cuts at. -/
def isLineBreak (c : Char) : Bool :=
  let n := c.toNat
  (10 ≤ n && n ≤ 13) || (28 ≤ n && n ≤ 30) || n == 0x85 || n == 0x2028 || n == 0x2029

/-- A character in front of the first line. -/
def prependChar (c : Char) : List (List Char) → List (List Char)
  | [] => [[c]]
  | line :: lines => (c :: line) :: lines

/-- `text.splitlines()`. -/
def splitlines : List Char → List (List Char)
  | [] => []
  | '\r' :: '\n' :: cs => [] :: splitlines cs
  | c :: cs =>
    if isLineBreak c then [] :: splitlines cs else prependChar c (splitlines cs)

section

variable {c : Char} {line text more : List Char}

theorem splitlines_crlf (cs : List Char) :
    splitlines ('\r' :: '\n' :: cs) = [] :: splitlines cs := by
  rw [splitlines]

theorem splitlines_break (broken : isLineBreak c)
    (single : c = '\r' → text.head? ≠ some '\n') :
    splitlines (c :: text) = [] :: splitlines text := by
  rw [splitlines.eq_3 c text]
  · exact if_pos broken
  · rintro cs rfl rfl
    exact single rfl rfl

theorem splitlines_char (plain : isLineBreak c = false) :
    splitlines (c :: text) = prependChar c (splitlines text) := by
  rw [splitlines.eq_3 c text]
  · exact if_neg (by simp [plain])
  · rintro cs rfl rfl
    exact absurd plain (by decide)

/-- No character of the text is a break. -/
def Unbroken (text : List Char) : Prop := ∀ c ∈ text, isLineBreak c = false

instance : DecidablePred Unbroken := fun text => List.decidableBAll _ text

theorem Unbroken.append (first : Unbroken text) (second : Unbroken more) :
    Unbroken (text ++ more) :=
  List.forall_mem_append.mpr ⟨first, second⟩

theorem splitlines_plain (some_ : line ≠ []) (plain : Unbroken line) :
    splitlines line = [line] := by
  induction line with
  | nil => exact absurd rfl some_
  | cons c line ih =>
    obtain ⟨here, rest⟩ := List.forall_mem_cons.mp plain
    rw [splitlines_char here]
    by_cases done : line = []
    · rw [done]
      rfl
    · rw [ih done rest]
      rfl

theorem prependChar_append {lines : List (List Char)} (some_ : lines ≠ [])
    (others : List (List Char)) :
    prependChar c (lines ++ others) = prependChar c lines ++ others := by
  cases lines with
  | nil => exact absurd rfl some_
  | cons line lines => rfl

theorem splitlines_ne_nil (some_ : text ≠ []) : splitlines text ≠ [] := by
  fun_cases splitlines text with
  | case1 => exact absurd rfl some_
  | case2 => simp
  | case3 c cs single broken => simp
  | case4 c cs single plain =>
    cases splitlines cs <;> simp [prependChar]

theorem splitlines_append (ends : text.getLast?.any fun c => !isLineBreak c) :
    splitlines (text ++ '\n' :: more) = splitlines text ++ splitlines more := by
  induction text using splitlines.induct with
  | case1 => simp at ends
  | case2 cs ih =>
    have some_ : cs ≠ [] := by
      rintro rfl
      exact absurd ends (by decide)
    have ends' : cs.getLast?.any fun c => !isLineBreak c := by
      simpa [List.getLast?_cons, List.getLast?_eq_some_getLast some_] using ends
    show splitlines ('\r' :: '\n' :: (cs ++ '\n' :: more)) = _
    rw [splitlines_crlf, splitlines_crlf, ih ends', List.cons_append]
  | case3 c cs single broken ih =>
    have some_ : cs ≠ [] := by
      rintro rfl
      exact absurd ends (by simp [broken])
    have ends' : cs.getLast?.any fun c => !isLineBreak c := by
      simpa [List.getLast?_cons, List.getLast?_eq_some_getLast some_] using ends
    have next : ∀ more : List Char, c = '\r' → (cs ++ more).head? ≠ some '\n' := by
      intro more isCr first
      obtain ⟨d, ds, rfl⟩ := List.exists_cons_of_ne_nil some_
      obtain rfl : d = '\n' := Option.some.inj first
      exact single ds isCr rfl
    rw [List.cons_append, splitlines_break broken (next _),
      splitlines_break broken (by simpa using next []), ih ends', List.cons_append]
  | case4 c cs single plain ih =>
    have plain' : isLineBreak c = false := by simpa using plain
    rw [List.cons_append, splitlines_char plain', splitlines_char plain']
    by_cases done : cs = []
    · rw [done]
      show prependChar c (splitlines ('\n' :: more)) = _
      rw [splitlines_break (by decide) fun same => absurd same (by decide)]
      rfl
    · have ends' : cs.getLast?.any fun c => !isLineBreak c := by
        simpa [List.getLast?_cons, List.getLast?_eq_some_getLast done] using ends
      rw [ih ends', prependChar_append (splitlines_ne_nil done)]

theorem first_line {lines : List (List Char)} (cut : splitlines text = line :: lines) :
    ∃ after, text = line ++ after ∧ Unbroken line ∧ ∀ c ∈ after.head?, isLineBreak c := by
  induction text using splitlines.induct generalizing line lines with
  | case1 => cases cut
  | case2 cs ih =>
    rw [splitlines_crlf] at cut
    obtain ⟨rfl, -⟩ := List.cons.inj cut
    exact ⟨'\r' :: '\n' :: cs, rfl, by decide, by simp [show isLineBreak '\r' by decide]⟩
  | case3 c cs single broken ih =>
    rw [splitlines.eq_3 c cs single, if_pos broken] at cut
    obtain ⟨rfl, -⟩ := List.cons.inj cut
    exact ⟨c :: cs, rfl, by decide, by simp [broken]⟩
  | case4 c cs single plain ih =>
    have plain' : isLineBreak c = false := by simpa using plain
    rw [splitlines_char plain'] at cut
    rcases rest : splitlines cs with _ | ⟨first, others⟩
    · obtain rfl : cs = [] := by
        by_contra some_
        exact splitlines_ne_nil some_ rest
      obtain ⟨rfl, -⟩ := List.cons.inj cut
      exact ⟨[], rfl, by simpa [Unbroken] using plain', by simp⟩
    · rw [rest] at cut
      obtain ⟨rfl, -⟩ := List.cons.inj cut
      obtain ⟨after, whole, unbroken, ended⟩ := ih rest
      refine ⟨after, ?_, List.forall_mem_cons.mpr ⟨plain', unbroken⟩, ended⟩
      rw [whole, List.cons_append]

theorem later_line {lines : List (List Char)} (cut : splitlines text = line :: lines)
    {later : List Char} (mem : later ∈ lines) :
    ∃ before b after, text = before ++ b :: (later ++ after) ∧ isLineBreak b := by
  -- what comes behind a break that ends the first line
  have behind : ∀ (before : List Char) {cs : List Char} {b : Char}, isLineBreak b →
      (∀ {line : List Char} {lines : List (List Char)}, splitlines cs = line :: lines →
        later ∈ lines → ∃ before b after,
          cs = before ++ b :: (later ++ after) ∧ isLineBreak b) →
      later ∈ splitlines cs →
      ∃ before' b' after, before ++ b :: cs = before' ++ b' :: (later ++ after)
        ∧ isLineBreak b' := by
    intro before cs b broken ih mem
    obtain ⟨first, others, rest⟩ := List.exists_cons_of_ne_nil (List.ne_nil_of_mem mem)
    rw [rest] at mem
    rcases List.mem_cons.mp mem with rfl | mem'
    · obtain ⟨after, whole, -, -⟩ := first_line rest
      exact ⟨before, b, after, by rw [whole], broken⟩
    · obtain ⟨before', b', after, whole, broken'⟩ := ih rest mem'
      exact ⟨before ++ b :: before', b', after, by rw [whole]; simp, broken'⟩
  induction text using splitlines.induct generalizing line lines with
  | case1 => cases cut
  | case2 cs ih =>
    rw [splitlines_crlf] at cut
    obtain ⟨-, rfl⟩ := List.cons.inj cut
    exact behind ['\r'] (by decide) ih mem
  | case3 c cs single broken ih =>
    rw [splitlines.eq_3 c cs single, if_pos broken] at cut
    obtain ⟨-, rfl⟩ := List.cons.inj cut
    exact behind [] broken ih mem
  | case4 c cs single plain ih =>
    rw [splitlines_char (by simpa using plain)] at cut
    rcases rest : splitlines cs with _ | ⟨first, others⟩
    · rw [rest] at cut
      obtain ⟨-, rfl⟩ := List.cons.inj cut
      cases mem
    · rw [rest] at cut
      obtain ⟨-, rfl⟩ := List.cons.inj cut
      obtain ⟨before, b, after, whole, broken⟩ := ih rest mem
      exact ⟨c :: before, b, after, by rw [whole, List.cons_append], broken⟩

end

end Zhongzhuan.Kit
