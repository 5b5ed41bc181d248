import Mathlib

/-!
# Lines ended by LF, CR or CRLF, read incrementally

A byte list is cut into lines by any of the three terminators.  Read incrementally, a
CR that ends what has arrived is ambiguous, since the next byte may complete a CRLF, and
stays unread.

* `splitLines final bs` is the list of complete lines of `bs` and the unread rest; with
  `final` a CR at the end is a terminator.
* `splitLines_append`: cutting may stop anywhere and resume on the rest.
* `splitLines_raw`: nothing is lost; the lines and the rest are the input.
* `splitLines_prefix` and `splitLines_cr`: what bytes in front of the input do to the
  first line.
* `nextLine` reads one line; `splitLines` is its iteration.
-/

namespace Zhongzhuan.Kit

abbrev Bytes := List UInt8

/-- Line feed. -/
def lf : UInt8 := 0x0A

/-- Carriage return. -/
def cr : UInt8 := 0x0D

/-- A line and its terminator, which is empty for the last line of a stream that does
not end in one. -/
structure Line where
  text : Bytes
  eol : Bytes
deriving DecidableEq, Repr

namespace Line

/-- The bytes of the line. -/
def raw (l : Line) : Bytes := l.text ++ l.eol

/-- The line with `x` put in front of its text. -/
def prepend (x : Bytes) (l : Line) : Line := ⟨x ++ l.text, l.eol⟩

@[simp] theorem raw_prepend (x : Bytes) (l : Line) : (l.prepend x).raw = x ++ l.raw := by
  simp [raw, prepend]

end Line

/-- Put `x` in front of the first line, or of the rest when there is none. -/
def prependFirst (x : Bytes) : List Line × Bytes → List Line × Bytes
  | ([], rest) => ([], x ++ rest)
  | (l :: ls, rest) => (l.prepend x :: ls, rest)

/-- Put a line in front. -/
def consLine (l : Line) (split : List Line × Bytes) : List Line × Bytes :=
  (l :: split.1, split.2)

/-- The complete lines of a byte list and the unread rest. -/
def splitLines (final : Bool) : Bytes → List Line × Bytes
  | [] => ([], [])
  | b :: bs =>
      if b = lf then consLine ⟨[], [lf]⟩ (splitLines final bs)
      else if b = cr then
        match bs with
        | [] => if final then ([⟨[], [cr]⟩], []) else ([], [cr])
        | c :: cs =>
            if c = lf then consLine ⟨[], [cr, lf]⟩ (splitLines final cs)
            else consLine ⟨[], [cr]⟩ (splitLines final (c :: cs))
      else prependFirst [b] (splitLines final bs)

/-- A byte that belongs to no terminator. -/
def Plain (b : UInt8) : Prop := b ≠ lf ∧ b ≠ cr

instance : DecidablePred Plain := fun b => inferInstanceAs (Decidable (b ≠ lf ∧ b ≠ cr))

section

variable {final : Bool}

@[simp] theorem splitLines_nil : splitLines final [] = ([], []) := by
  simp [splitLines]

theorem splitLines_lf (bs : Bytes) :
    splitLines final (lf :: bs) = consLine ⟨[], [lf]⟩ (splitLines final bs) := by
  rw [splitLines.eq_def]
  simp

theorem splitLines_crlf (bs : Bytes) :
    splitLines final (cr :: lf :: bs) = consLine ⟨[], [cr, lf]⟩ (splitLines final bs) := by
  rw [splitLines.eq_def]
  simp [show cr ≠ lf by decide]

theorem splitLines_cr_cons {c : UInt8} (other : c ≠ lf) (bs : Bytes) :
    splitLines final (cr :: c :: bs)
      = consLine ⟨[], [cr]⟩ (splitLines final (c :: bs)) := by
  rw [splitLines.eq_def]
  simp [show cr ≠ lf by decide, other]

theorem splitLines_plain {b : UInt8} (plain : Plain b) (bs : Bytes) :
    splitLines final (b :: bs) = prependFirst [b] (splitLines final bs) := by
  rw [splitLines.eq_def]
  simp [plain.1, plain.2]

@[simp] theorem splitLines_cr_final : splitLines true [cr] = ([⟨[], [cr]⟩], []) := by
  decide

@[simp] theorem splitLines_cr_open : splitLines false [cr] = ([], [cr]) := by
  decide

theorem splitLines_induction {P : Bytes → Prop} (nil : P [])
    (lineFeed : ∀ bs, P bs → P (lf :: bs)) (lastCr : P [cr])
    (crLf : ∀ bs, P bs → P (cr :: lf :: bs))
    (crThen : ∀ c bs, c ≠ lf → P (c :: bs) → P (cr :: c :: bs))
    (plain : ∀ b bs, Plain b → P bs → P (b :: bs)) (bs : Bytes) : P bs := by
  induction bs using splitLines.induct true with
  | case1 => exact nil
  | case2 bs ih => exact lineFeed bs ih
  | case3 => exact lastCr
  | case4 impossible => exact absurd rfl impossible
  | case5 bs _ ih => exact crLf bs ih
  | case6 c bs other _ ih => exact crThen c bs other ih
  | case7 b bs notLf notCr ih => exact plain b bs ⟨notLf, notCr⟩ ih

end

@[simp] theorem prependFirst_nil (split : List Line × Bytes) :
    prependFirst [] split = split := by
  obtain ⟨_ | _, _⟩ := split <;> rfl

theorem prependFirst_append (x y : Bytes) (split : List Line × Bytes) :
    prependFirst (x ++ y) split = prependFirst x (prependFirst y split) := by
  obtain ⟨_ | _, _⟩ := split <;> simp [prependFirst, Line.prepend]

theorem splitLines_prefix {final : Bool} {x : Bytes} (plain : ∀ b ∈ x, Plain b)
    (y : Bytes) : splitLines final (x ++ y) = prependFirst x (splitLines final y) := by
  induction x with
  | nil => simp
  | cons b x ih =>
      rw [List.forall_mem_cons] at plain
      rw [List.cons_append, splitLines_plain plain.1, ih plain.2, ← prependFirst_append]
      rfl

/-- Put lines in front. -/
def appendLines (ls : List Line) (split : List Line × Bytes) : List Line × Bytes :=
  (ls ++ split.1, split.2)

theorem splitLines_append (final : Bool) (xs ys : Bytes) :
    splitLines final (xs ++ ys)
      = appendLines (splitLines false xs).1
          (splitLines final ((splitLines false xs).2 ++ ys)) := by
  induction xs using splitLines_induction with
  | nil => simp [appendLines]
  | lineFeed xs ih => simp [splitLines_lf, ih, consLine, appendLines]
  | lastCr => simp [appendLines]
  | crLf xs ih => simp [splitLines_crlf, ih, consLine, appendLines]
  | crThen c xs other ih =>
      rw [List.cons_append, List.cons_append, splitLines_cr_cons other,
        splitLines_cr_cons other, ← List.cons_append, ih]
      simp [consLine, appendLines]
  | plain b xs notEol ih =>
      rw [List.cons_append, splitLines_plain notEol, splitLines_plain notEol, ih]
      cases split : splitLines false xs with
      | mk ls rest =>
          cases ls with
          | nil => simp [prependFirst, appendLines, splitLines_plain notEol]
          | cons l ls => simp [prependFirst, appendLines]

theorem splitLines_raw (final : Bool) (bs : Bytes) :
    ((splitLines final bs).1.map Line.raw).flatten ++ (splitLines final bs).2 = bs := by
  induction bs using splitLines_induction with
  | nil => simp
  | lineFeed bs ih => simpa [splitLines_lf, consLine, Line.raw] using ih
  | lastCr => cases final <;> simp [Line.raw]
  | crLf bs ih => simpa [splitLines_crlf, consLine, Line.raw] using ih
  | crThen c bs other ih => simpa [splitLines_cr_cons other, consLine, Line.raw] using ih
  | plain b bs notEol ih =>
      rw [splitLines_plain notEol]
      cases split : splitLines final bs with
      | mk ls rest =>
          rw [split] at ih
          cases ls with
          | nil => simpa [prependFirst] using ih
          | cons l ls => simpa [prependFirst] using ih

/-- What can be left unread: bytes of no terminator, then perhaps a CR. -/
def Unread (rest : Bytes) : Prop :=
  ∃ x : Bytes, (∀ b ∈ x, Plain b) ∧ (rest = x ∨ rest = x ++ [cr])

theorem unread_nil : Unread [] := ⟨[], by simp, .inl rfl⟩

theorem splitLines_unread (bs : Bytes) : Unread (splitLines false bs).2 := by
  induction bs using splitLines_induction with
  | nil => simpa using unread_nil
  | lineFeed bs ih => simpa [splitLines_lf, consLine] using ih
  | lastCr => exact ⟨[], by simp, .inr (by simp)⟩
  | crLf bs ih => simpa [splitLines_crlf, consLine] using ih
  | crThen c bs other ih => simpa [splitLines_cr_cons other, consLine] using ih
  | plain b bs notEol ih =>
      rw [splitLines_plain notEol]
      cases split : splitLines false bs with
      | mk ls rest =>
          rw [split] at ih
          cases ls with
          | cons l ls => simpa [prependFirst] using ih
          | nil =>
              obtain ⟨x, plain, shape⟩ := ih
              refine ⟨b :: x, by simpa [notEol] using plain, ?_⟩
              simpa [prependFirst] using shape

theorem splitLines_final_plain (bs : Bytes) : ∀ b ∈ (splitLines true bs).2, Plain b := by
  induction bs using splitLines_induction with
  | nil => simp
  | lineFeed bs ih => simpa [splitLines_lf, consLine] using ih
  | lastCr => simp
  | crLf bs ih => simpa [splitLines_crlf, consLine] using ih
  | crThen c bs other ih => simpa [splitLines_cr_cons other, consLine] using ih
  | plain b bs notEol ih =>
      rw [splitLines_plain notEol]
      cases split : splitLines true bs with
      | mk ls rest =>
          rw [split] at ih
          cases ls with
          | nil => simpa [prependFirst, notEol] using ih
          | cons l ls => simpa [prependFirst] using ih

/-- The lines of a finished stream: the complete ones, and what is left as a last line
without a terminator. -/
def streamLines (bs : Bytes) : List Line :=
  (splitLines true bs).1
    ++ if (splitLines true bs).2.isEmpty then [] else [⟨(splitLines true bs).2, []⟩]

@[simp] theorem streamLines_nil : streamLines [] = [] := by
  simp [streamLines]

theorem streamLines_append (xs ys : Bytes) :
    streamLines (xs ++ ys)
      = (splitLines false xs).1 ++ streamLines ((splitLines false xs).2 ++ ys) := by
  simp [streamLines, splitLines_append true xs ys, appendLines]

theorem streamLines_lf (bs : Bytes) :
    streamLines (lf :: bs) = ⟨[], [lf]⟩ :: streamLines bs := by
  simp [streamLines, splitLines_lf, consLine]

theorem streamLines_crlf (bs : Bytes) :
    streamLines (cr :: lf :: bs) = ⟨[], [cr, lf]⟩ :: streamLines bs := by
  simp [streamLines, splitLines_crlf, consLine]

theorem streamLines_cr {bs : Bytes} (other : bs.head? ≠ some lf) :
    streamLines (cr :: bs) = ⟨[], [cr]⟩ :: streamLines bs := by
  cases bs with
  | nil => simp [streamLines]
  | cons c bs =>
      have notLf : c ≠ lf := fun same => other (by simp [same])
      simp [streamLines, splitLines_cr_cons notLf, consLine]

/-- The lines of a stream with `x` in front of it.  A CR that ends `x` is completed by a
LF that begins the stream. -/
def joinFront (x : Bytes) (lines : List Line) : List Line :=
  if x.getLast? = some cr then
    match lines with
    | [] => [⟨x.dropLast, [cr]⟩]
    | l :: ls =>
        if l = ⟨[], [lf]⟩ then ⟨x.dropLast, [cr, lf]⟩ :: ls
        else ⟨x.dropLast, [cr]⟩ :: l :: ls
  else
    match lines with
    | [] => if x.isEmpty then [] else [⟨x, []⟩]
    | l :: ls => l.prepend x :: ls

theorem streamLines_plain {x : Bytes} (plain : ∀ b ∈ x, Plain b) (bs : Bytes) :
    streamLines (x ++ bs)
      = match streamLines bs with
        | [] => if x.isEmpty then [] else [⟨x, []⟩]
        | l :: ls => l.prepend x :: ls := by
  simp only [streamLines, splitLines_prefix plain]
  cases splitLines true bs with
  | mk ls rest =>
      cases ls with
      | cons l ls => simp [prependFirst]
      | nil => cases rest <;> cases x <;> simp [prependFirst, Line.prepend]

theorem streamLines_raw (bs : Bytes) : ((streamLines bs).map Line.raw).flatten = bs := by
  have whole := splitLines_raw true bs
  rw [streamLines]
  cases rest : (splitLines true bs).2 with
  | nil => simpa [rest] using whole
  | cons b more => simpa [rest, Line.raw] using whole

theorem head_of_streamLines {bs : Bytes} {ls : List Line}
    (first : streamLines bs = ⟨[], [lf]⟩ :: ls) : bs.head? = some lf := by
  rw [← streamLines_raw bs, first]
  simp [Line.raw]

theorem streamLines_unread {x : Bytes} (unread : Unread x) (bs : Bytes) :
    streamLines (x ++ bs) = joinFront x (streamLines bs) := by
  obtain ⟨y, plain, rfl | rfl⟩ := unread
  · have noCr : x.getLast? ≠ some cr := by
      intro last
      exact (plain cr (List.mem_of_getLast? last)).2 rfl
    rw [streamLines_plain plain, joinFront.eq_def, if_neg noCr]
  · have lastCr : (y ++ [cr]).getLast? = some cr := by simp
    rw [List.append_assoc, streamLines_plain plain, joinFront.eq_def, if_pos lastCr]
    simp only [List.singleton_append, List.dropLast_concat]
    by_cases feed : bs.head? = some lf
    · obtain ⟨rest, rfl⟩ := List.head?_eq_some_iff.1 feed
      simp [streamLines_crlf, streamLines_lf, Line.prepend]
    · rw [streamLines_cr feed]
      cases lines : streamLines bs with
      | nil => simp [Line.prepend]
      | cons l ls =>
          have other : l ≠ ⟨[], [lf]⟩ := by
            rintro rfl
            exact feed (head_of_streamLines lines)
          simp [other, Line.prepend]

/-- The first line of the input and what follows it, or `none` when no line is complete:
the text up to the first LF or CR, whichever comes first, then its terminator. -/
def nextLine (final : Bool) : Bytes → Option (Line × Bytes)
  | [] => none
  | b :: bs =>
      if b = lf then some (⟨[], [lf]⟩, bs)
      else if b = cr then
        match bs with
        | [] => if final then some (⟨[], [cr]⟩, []) else none
        | c :: cs =>
            if c = lf then some (⟨[], [cr, lf]⟩, cs) else some (⟨[], [cr]⟩, c :: cs)
      else (nextLine final bs).map fun (l, rest) => (l.prepend [b], rest)

section

variable {final : Bool}

@[simp] theorem nextLine_nil : nextLine final [] = none := by
  simp [nextLine]

@[simp] theorem nextLine_lf (bs : Bytes) :
    nextLine final (lf :: bs) = some (⟨[], [lf]⟩, bs) := by
  simp [nextLine.eq_def]

@[simp] theorem nextLine_crlf (bs : Bytes) :
    nextLine final (cr :: lf :: bs) = some (⟨[], [cr, lf]⟩, bs) := by
  simp [nextLine.eq_def, show cr ≠ lf by decide]

theorem nextLine_cr_cons {c : UInt8} (other : c ≠ lf) (bs : Bytes) :
    nextLine final (cr :: c :: bs) = some (⟨[], [cr]⟩, c :: bs) := by
  simp [nextLine.eq_def, show cr ≠ lf by decide, other]

theorem nextLine_plain {b : UInt8} (plain : Plain b) (bs : Bytes) :
    nextLine final (b :: bs)
      = (nextLine final bs).map fun (l, rest) => (l.prepend [b], rest) := by
  rw [nextLine.eq_def]
  simp [plain.1, plain.2]

end

theorem splitLines_of_nextLine_none {final : Bool} {bs : Bytes}
    (none : nextLine final bs = none) : splitLines final bs = ([], bs) := by
  induction bs using splitLines_induction with
  | nil => simp
  | lineFeed bs => simp at none
  | lastCr =>
      cases final with
      | false => simp
      | true => cases none
  | crLf bs => simp at none
  | crThen c bs other => simp [nextLine_cr_cons other] at none
  | plain b bs notEol ih =>
      rw [nextLine_plain notEol, Option.map_eq_none_iff] at none
      simp [splitLines_plain notEol, ih none, prependFirst]

theorem splitLines_of_nextLine {final : Bool} {bs rest : Bytes} {l : Line}
    (next : nextLine final bs = some (l, rest)) :
    splitLines final bs = consLine l (splitLines final rest)
      ∧ rest.length < bs.length := by
  induction bs using splitLines_induction generalizing l with
  | nil => simp at next
  | lineFeed bs =>
      cases (nextLine_lf bs).symm.trans next
      exact ⟨splitLines_lf _, by simp⟩
  | lastCr =>
      cases final with
      | false => cases next
      | true =>
          cases next
          exact ⟨by simp [consLine], by simp⟩
  | crLf bs =>
      cases (nextLine_crlf bs).symm.trans next
      exact ⟨splitLines_crlf _, by simp [Nat.lt_add_right]⟩
  | crThen c bs other =>
      cases (nextLine_cr_cons other bs).symm.trans next
      exact ⟨splitLines_cr_cons other _, by simp⟩
  | plain b bs notEol ih =>
      rw [nextLine_plain notEol, Option.map_eq_some_iff] at next
      obtain ⟨⟨first, after⟩, next', same⟩ := next
      cases same
      obtain ⟨split, shorter⟩ := ih next'
      rw [splitLines_plain notEol, split]
      exact ⟨rfl, Nat.lt_succ_of_lt shorter⟩

end Zhongzhuan.Kit
