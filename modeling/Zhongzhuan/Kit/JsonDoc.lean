import Mathlib

/-!
# JSON texts

A `Doc` is a JSON text with everything that stands in it: the blanks, and how each string is
spelled.  What a text means is another matter; here a document is read and written.

* `Doc.text` is the text of a document, `Doc.Valid` what the grammar asks of it.
* `parseDoc` reads one document from the front of a text.
* `parseDoc_text`: it reads back the text of every valid document.
* `text_of_parseDoc`: and it accepts nothing else.

The grammar is the one of `json.loads`: the constants `NaN`, `Infinity` and `-Infinity` are
numbers, and a control character may not stand in a string.
-/

namespace Zhongzhuan.Kit.JsonDoc

/-! ## Strings -/

/-- One character of a string as it is spelled. -/
inductive Piece
  | plain (c : Char)
  /-- A backslash and one of `"`, `\`, `/`, `b`, `f`, `n`, `r`, `t`. -/
  | escaped (c : Char)
  /-- `\u` and four hexadecimal digits. -/
  | unicode (a b c d : Char)
deriving DecidableEq, Repr

/-- What may follow a backslash. -/
def escapable : List Char := ['"', '\\', '/', 'b', 'f', 'n', 'r', 't']

def isHex (c : Char) : Bool :=
  c.isDigit || ('a' ≤ c && c ≤ 'f') || ('A' ≤ c && c ≤ 'F')

namespace Piece

def text : Piece → List Char
  | plain c => [c]
  | escaped c => ['\\', c]
  | unicode a b c d => ['\\', 'u', a, b, c, d]

def Valid : Piece → Prop
  | plain c => c ≠ '"' ∧ c ≠ '\\' ∧ 32 ≤ c.toNat
  | escaped c => c ∈ escapable
  | unicode a b c d => isHex a ∧ isHex b ∧ isHex c ∧ isHex d

instance decidableValid : DecidablePred Valid
  | plain c => inferInstanceAs (Decidable (c ≠ '"' ∧ c ≠ '\\' ∧ 32 ≤ c.toNat))
  | escaped c => inferInstanceAs (Decidable (c ∈ escapable))
  | unicode a b c d => inferInstanceAs (Decidable (isHex a ∧ isHex b ∧ isHex c ∧ isHex d))

end Piece

/-- The text of the pieces of a string, without the quotes. -/
def piecesText (pieces : List Piece) : List Char :=
  pieces.flatMap Piece.text

@[simp] theorem piecesText_nil : piecesText [] = [] := rfl

@[simp] theorem piecesText_cons (p : Piece) (pieces : List Piece) :
    piecesText (p :: pieces) = p.text ++ piecesText pieces := rfl

/-- The pieces up to the closing quote, and what follows it. -/
def readPieces : List Char → Option (List Piece × List Char)
  | [] => none
  | c :: cs =>
    if c = '"' then some ([], cs)
    else if c = '\\' then
      match cs with
      | [] => none
      | e :: rest =>
        if e = 'u' then
          match rest with
          | w :: x :: y :: z :: rest' =>
            if isHex w ∧ isHex x ∧ isHex y ∧ isHex z then
              (readPieces rest').map fun r => (.unicode w x y z :: r.1, r.2)
            else none
          | _ => none
        else if e ∈ escapable then (readPieces rest).map fun r => (.escaped e :: r.1, r.2)
        else none
    else if 32 ≤ c.toNat then (readPieces cs).map fun r => (.plain c :: r.1, r.2)
    else none

theorem readPieces_text {pieces : List Piece} (valid : ∀ p ∈ pieces, p.Valid)
    (rest : List Char) :
    readPieces (piecesText pieces ++ '"' :: rest) = some (pieces, rest) := by
  induction pieces with
  | nil => exact readPieces.eq_def _
  | cons p pieces ih =>
    have here := valid p List.mem_cons_self
    have tail := ih fun q mem => valid q (List.mem_cons_of_mem _ mem)
    cases p with
    | plain c =>
      obtain ⟨noQuote, noSlash, printable⟩ := here
      rw [piecesText_cons, Piece.text, List.cons_append, List.nil_append, readPieces.eq_def]
      simp [noQuote, noSlash, printable, tail]
    | escaped c =>
      have noU : c ≠ 'u' := by
        rintro rfl
        exact absurd here (by decide)
      have here' : c ∈ escapable := here
      rw [piecesText_cons, Piece.text, List.cons_append, List.cons_append, readPieces.eq_def]
      simp [noU, here', tail]
    | unicode a b c d =>
      obtain ⟨ha, hb, hc, hd⟩ := here
      rw [piecesText_cons, Piece.text, List.cons_append, readPieces.eq_def]
      simp [ha, hb, hc, hd, tail]

theorem sound_cons {p : Piece} (valid : p.Valid) {cs rest : List Char} {pieces : List Piece}
    (ih : ∀ {rest : List Char} {pieces : List Piece}, readPieces cs = some (pieces, rest) →
      cs = piecesText pieces ++ '"' :: rest ∧ ∀ q ∈ pieces, q.Valid)
    (read : (readPieces cs).map (fun r => (p :: r.1, r.2)) = some (pieces, rest)) :
    p.text ++ cs = piecesText pieces ++ '"' :: rest ∧ ∀ q ∈ pieces, q.Valid := by
  obtain ⟨⟨pieces', rest'⟩, tail, same⟩ := Option.map_eq_some_iff.mp read
  obtain ⟨rfl, rfl⟩ := Prod.mk.inj same
  obtain ⟨text, valid'⟩ := ih tail
  refine ⟨by rw [text, piecesText_cons, List.append_assoc], fun q mem => ?_⟩
  rcases List.mem_cons.mp mem with rfl | mem'
  · exact valid
  · exact valid' q mem'

theorem text_of_readPieces {cs rest : List Char} {pieces : List Piece}
    (read : readPieces cs = some (pieces, rest)) :
    cs = piecesText pieces ++ '"' :: rest ∧ ∀ p ∈ pieces, p.Valid := by
  fun_induction readPieces cs generalizing pieces rest with
  | case1 | case3 | case5 | case6 | case8 | case10 => cases read
  | case2 rest' =>
    obtain ⟨rfl, rfl⟩ := Prod.mk.inj (Option.some.inj read)
    exact ⟨rfl, by simp⟩
  | case4 w x y z rest' hex _ ih => exact sound_cons (p := .unicode w x y z) hex ih read
  | case7 e rest' _ inside _ ih => exact sound_cons (p := .escaped e) inside ih read
  | case9 c rest' noQuote noSlash printable ih =>
    exact sound_cons (p := .plain c) ⟨noQuote, noSlash, printable⟩ ih read

/-! ## Numbers and names -/

/-- What separates the tokens. -/
def isBlank (c : Char) : Bool :=
  c = ' ' || c = '\t' || c = '\n' || c = '\r'

/-- What numbers and names are made of. -/
def isAtomChar (c : Char) : Bool :=
  c.isAlphanum || c = '+' || c = '-' || c = '.'

/-- Digits without a zero in front. -/
def isNatText : List Char → Bool
  | [] => false
  | [c] => c.isDigit
  | c :: cs => c.isDigit && c ≠ '0' && cs.all Char.isDigit

/-- An integer. -/
def isIntText : List Char → Bool
  | '-' :: cs => isNatText cs
  | cs => isNatText cs

/-- A sign or none, and digits. -/
def isExponent : List Char → Bool
  | '+' :: cs | '-' :: cs => cs ≠ [] && cs.all Char.isDigit
  | cs => cs ≠ [] && cs.all Char.isDigit

/-- An integer with a fraction, an exponent, or both. -/
def isFloatText (cs : List Char) : Bool :=
  let mantissa := cs.takeWhile fun c => c ≠ 'e' && c ≠ 'E'
  let exponent := cs.dropWhile fun c => c ≠ 'e' && c ≠ 'E'
  let whole := mantissa.takeWhile (· ≠ '.')
  let fraction := mantissa.dropWhile (· ≠ '.')
  isIntText whole && (fraction ≠ [] || exponent ≠ [])
    && (fraction = [] || (fraction.tail ≠ [] && fraction.tail.all Char.isDigit))
    && (exponent = [] || isExponent exponent.tail)

/-- The constants that are not numbers. -/
def names : List (List Char) :=
  [['n', 'u', 'l', 'l'], ['t', 'r', 'u', 'e'], ['f', 'a', 'l', 's', 'e']]

/-- The numbers that are spelled with letters. -/
def namedNumbers : List (List Char) :=
  [['N', 'a', 'N'], ['I', 'n', 'f', 'i', 'n', 'i', 't', 'y'],
    ['-', 'I', 'n', 'f', 'i', 'n', 'i', 't', 'y']]

/-- A number or a name. -/
def isAtom (cs : List Char) : Bool :=
  cs.all isAtomChar
    && (cs ∈ names || cs ∈ namedNumbers || isIntText cs || isFloatText cs)

/-! ## Documents -/

/-- What stands before the value of a member of an object: blanks, the key, a colon. -/
structure MemberHead where
  before : List Char
  key : List Piece
  beforeColon : List Char
  afterColon : List Char
deriving DecidableEq, Repr

mutual

/-- A JSON text without blanks around it. -/
inductive Doc
  | atom (text : List Char)
  | str (content : List Piece)
  | noItems (blank : List Char)
  | arr (items : Items)
  | noMembers (blank : List Char)
  | obj (members : Members)

/-- The items of an array, with the blanks before and after each. -/
inductive Items
  | last (before : List Char) (d : Doc) (after : List Char)
  | more (before : List Char) (d : Doc) (after : List Char) (rest : Items)

/-- The members of an object. -/
inductive Members
  | last (head : MemberHead) (d : Doc) (after : List Char)
  | more (head : MemberHead) (d : Doc) (after : List Char) (rest : Members)

end

deriving instance DecidableEq for Doc, Items, Members

/-- A string with its quotes. -/
def quoted (content : List Piece) : List Char :=
  '"' :: (piecesText content ++ ['"'])

def MemberHead.text (head : MemberHead) : List Char :=
  head.before ++ quoted head.key ++ head.beforeColon ++ [':'] ++ head.afterColon

mutual

def Doc.text : Doc → List Char
  | .atom text => text
  | .str content => quoted content
  | .noItems blank => '[' :: (blank ++ [']'])
  | .arr items => '[' :: items.text
  | .noMembers blank => '\x7b' :: (blank ++ ['\x7d'])
  | .obj members => '\x7b' :: members.text

/-- The items with the closing bracket. -/
def Items.text : Items → List Char
  | .last before d after => before ++ d.text ++ after ++ [']']
  | .more before d after rest => before ++ d.text ++ after ++ ',' :: rest.text

/-- The members with the closing brace. -/
def Members.text : Members → List Char
  | .last head d after => head.text ++ d.text ++ after ++ ['\x7d']
  | .more head d after rest => head.text ++ d.text ++ after ++ ',' :: rest.text

end

/-- Blanks only. -/
def Blank (cs : List Char) : Prop := ∀ c ∈ cs, isBlank c

structure MemberHead.Valid (head : MemberHead) : Prop where
  before : Blank head.before
  key : ∀ p ∈ head.key, p.Valid
  beforeColon : Blank head.beforeColon
  afterColon : Blank head.afterColon

mutual

/-- What the grammar asks of a document. -/
def Doc.Valid : Doc → Prop
  | .atom text => isAtom text
  | .str content => ∀ p ∈ content, p.Valid
  | .noItems blank | .noMembers blank => Blank blank
  | .arr items => items.Valid
  | .obj members => members.Valid

def Items.Valid : Items → Prop
  | .last before d after => Blank before ∧ d.Valid ∧ Blank after
  | .more before d after rest => (Blank before ∧ d.Valid ∧ Blank after) ∧ rest.Valid

def Members.Valid : Members → Prop
  | .last head d after => head.Valid ∧ d.Valid ∧ Blank after
  | .more head d after rest => (head.Valid ∧ d.Valid ∧ Blank after) ∧ rest.Valid

end

/-! ## Reading -/

/-- A text without the blanks in front, and the blanks. -/
def skip (cs : List Char) : List Char × List Char :=
  (cs.takeWhile isBlank, cs.dropWhile isBlank)

/-- What stands before the value of a member. -/
def parseHead (cs : List Char) : Option (MemberHead × List Char) :=
  let (before, cs) := skip cs
  match cs with
  | '"' :: cs =>
    match readPieces cs with
    | none => none
    | some (key, cs) =>
      let (beforeColon, cs) := skip cs
      match cs with
      | ':' :: cs =>
        let (afterColon, cs) := skip cs
        some (⟨before, key, beforeColon, afterColon⟩, cs)
      | _ => none
  | _ => none

mutual

/-- One document from the front of a text; the number bounds how deep it is. -/
def parseDoc : ℕ → List Char → Option (Doc × List Char)
  | 0, _ => none
  | n + 1, cs =>
    match cs with
    | '"' :: cs => (readPieces cs).map fun r => (.str r.1, r.2)
    | '[' :: cs =>
      match (skip cs).2 with
      | ']' :: rest => some (.noItems (skip cs).1, rest)
      | _ => (parseItems n cs).map fun r => (.arr r.1, r.2)
    | '\x7b' :: cs =>
      match (skip cs).2 with
      | '\x7d' :: rest => some (.noMembers (skip cs).1, rest)
      | _ => (parseMembers n cs).map fun r => (.obj r.1, r.2)
    | cs =>
      if isAtom (cs.takeWhile isAtomChar) then
        some (.atom (cs.takeWhile isAtomChar), cs.dropWhile isAtomChar)
      else none

/-- The items up to the closing bracket. -/
def parseItems : ℕ → List Char → Option (Items × List Char)
  | 0, _ => none
  | n + 1, cs =>
    match parseDoc n (skip cs).2 with
    | none => none
    | some (d, cs') =>
      match (skip cs').2 with
      | ']' :: rest => some (.last (skip cs).1 d (skip cs').1, rest)
      | ',' :: rest =>
        (parseItems n rest).map fun r => (.more (skip cs).1 d (skip cs').1 r.1, r.2)
      | _ => none

/-- The members up to the closing brace. -/
def parseMembers : ℕ → List Char → Option (Members × List Char)
  | 0, _ => none
  | n + 1, cs =>
    match parseHead cs with
    | none => none
    | some (head, cs') =>
      match parseDoc n cs' with
      | none => none
      | some (d, cs'') =>
        match (skip cs'').2 with
        | '\x7d' :: rest => some (.last head d (skip cs'').1, rest)
        | ',' :: rest =>
          (parseMembers n rest).map fun r => (.more head d (skip cs'').1 r.1, r.2)
        | _ => none

end

/-! ## Every document is read back -/

section Back

variable {p : Char → Bool} {front rest cs : List Char}

/-- The first character, if there is one, is not of a kind. -/
def Stops (p : Char → Bool) (rest : List Char) : Prop := ∀ c ∈ rest.head?, p c = false

theorem stops_cons {c : Char} (other : p c = false) : Stops p (c :: rest) := by
  simpa [Stops] using other

theorem takeWhile_append (all : ∀ c ∈ front, p c) (stops : Stops p rest) :
    (front ++ rest).takeWhile p = front ∧ (front ++ rest).dropWhile p = rest := by
  induction front with
  | nil =>
    cases rest with
    | nil => exact ⟨rfl, rfl⟩
    | cons c rest =>
      have other : p c = false := stops c rfl
      simp [other]
  | cons c front ih =>
    have here := all c List.mem_cons_self
    obtain ⟨left, right⟩ := ih fun d mem => all d (List.mem_cons_of_mem _ mem)
    exact ⟨by simp [here, left], by simp [here, right]⟩

theorem skip_append (blank : Blank front) (stops : Stops isBlank rest) :
    skip (front ++ rest) = (front, rest) := by
  obtain ⟨left, right⟩ := takeWhile_append blank stops
  rw [skip, left, right]

theorem atomChar_of_blank {c : Char} (blank : isBlank c) : isAtomChar c = false := by
  simp only [isBlank, Bool.or_eq_true, decide_eq_true_eq] at blank
  rcases blank with ((rfl | rfl) | rfl) | rfl <;> decide

theorem stops_blank (blank : Blank front) (stops : Stops isAtomChar rest) :
    Stops isAtomChar (front ++ rest) := by
  cases front with
  | nil => exact stops
  | cons c front => exact stops_cons (atomChar_of_blank (blank c List.mem_cons_self))

/-- A document may start with the character. -/
structure Starts (c : Char) : Prop where
  notBlank : isBlank c = false
  notBracket : c ≠ ']'

theorem starts_of_atomChar {c : Char} (atom : isAtomChar c) : Starts c := by
  constructor
  · by_contra blank
    rw [Bool.not_eq_false] at blank
    exact absurd atom (by rw [atomChar_of_blank blank]; exact Bool.false_ne_true)
  · rintro rfl
    exact absurd atom (by decide)

theorem isAtom_ne_nil {text : List Char} (atom : isAtom text) : text ≠ [] := by
  rintro rfl
  exact absurd atom (by decide)

theorem atomChar_of_isAtom {text : List Char} (atom : isAtom text) :
    ∀ c ∈ text, isAtomChar c := by
  rw [isAtom, Bool.and_eq_true, List.all_eq_true] at atom
  exact atom.1

theorem Doc.starts {d : Doc} (valid : d.Valid) : ∃ c cs, d.text = c :: cs ∧ Starts c := by
  cases d with
  | atom text =>
    obtain ⟨c, cs, rfl⟩ := List.exists_cons_of_ne_nil (isAtom_ne_nil valid)
    exact ⟨c, cs, rfl, starts_of_atomChar (atomChar_of_isAtom valid c List.mem_cons_self)⟩
  | str | noItems | arr | noMembers | obj => exact ⟨_, _, rfl, by decide, by decide⟩

theorem Doc.stops {d : Doc} (valid : d.Valid) : Stops isBlank (d.text ++ rest) := by
  obtain ⟨c, cs, text, starts⟩ := d.starts valid
  rw [text]
  exact stops_cons starts.notBlank

theorem parseHead_text {head : MemberHead} (valid : head.Valid) (stops : Stops isBlank rest) :
    parseHead (head.text ++ rest) = some (head, rest) := by
  obtain ⟨before, key, beforeColon, afterColon⟩ := head
  have text : MemberHead.text ⟨before, key, beforeColon, afterColon⟩ ++ rest =
      before ++ '"' :: (piecesText key ++ '"' :: (beforeColon ++ ':' :: (afterColon ++ rest))) := by
    simp [MemberHead.text, quoted]
  rw [text, parseHead, skip_append valid.before (stops_cons (by decide))]
  simp only [readPieces_text valid.key]
  rw [skip_append valid.beforeColon (stops_cons (by decide))]
  simp only [skip_append valid.afterColon stops]

theorem parseDoc_atom {c : Char} (atom : isAtomChar c) (n : ℕ) (cs : List Char) :
    parseDoc (n + 1) (c :: cs) =
      if isAtom ((c :: cs).takeWhile isAtomChar) then
        some (.atom ((c :: cs).takeWhile isAtomChar), (c :: cs).dropWhile isAtomChar)
      else none := by
  have noQuote : c ≠ '"' := fun same => absurd atom (by rw [same]; decide)
  have noBracket : c ≠ '[' := fun same => absurd atom (by rw [same]; decide)
  have noBrace : c ≠ '\x7b' := fun same => absurd atom (by rw [same]; decide)
  unfold parseDoc
  split
  · case h_1 cs' same => exact absurd (List.cons.inj same).1 noQuote
  · case h_2 cs' same => exact absurd (List.cons.inj same).1 noBracket
  · case h_3 cs' same => exact absurd (List.cons.inj same).1 noBrace
  · rfl

theorem parseDoc_arr {cs : List Char} {c : Char} {cs' : List Char} (n : ℕ)
    (next : (skip cs).2 = c :: cs') (notBracket : c ≠ ']') :
    parseDoc (n + 1) ('[' :: cs) = (parseItems n cs).map fun r => (.arr r.1, r.2) := by
  simp only [parseDoc, next]
  split
  · case h_1 rest same => exact absurd (List.cons.inj same).1 notBracket
  · rfl

theorem parseDoc_obj {cs : List Char} {c : Char} {cs' : List Char} (n : ℕ)
    (next : (skip cs).2 = c :: cs') (notBrace : c ≠ '\x7d') :
    parseDoc (n + 1) ('\x7b' :: cs) = (parseMembers n cs).map fun r => (.obj r.1, r.2) := by
  simp only [parseDoc, next]
  split
  · case h_1 rest same => exact absurd (List.cons.inj same).1 notBrace
  · rfl

theorem Items.skip_text {items : Items} (valid : items.Valid) (rest : List Char) :
    ∃ c cs, (skip (items.text ++ rest)).2 = c :: cs ∧ c ≠ ']' := by
  cases items with
  | last before d after =>
    obtain ⟨blank, validD, -⟩ := valid
    obtain ⟨c, cs, text, starts⟩ := d.starts validD
    have split : (Items.last before d after).text ++ rest =
        before ++ (d.text ++ (after ++ ']' :: rest)) := by simp [Items.text]
    rw [split, skip_append blank (d.stops validD), text]
    exact ⟨c, _, rfl, starts.notBracket⟩
  | more before d after items =>
    obtain ⟨⟨blank, validD, -⟩, -⟩ := valid
    obtain ⟨c, cs, text, starts⟩ := d.starts validD
    have split : (Items.more before d after items).text ++ rest =
        before ++ (d.text ++ (after ++ ',' :: (items.text ++ rest))) := by simp [Items.text]
    rw [split, skip_append blank (d.stops validD), text]
    exact ⟨c, _, rfl, starts.notBracket⟩

theorem MemberHead.skip_text {head : MemberHead} (valid : head.Valid) (rest : List Char) :
    ∃ cs, (skip (head.text ++ rest)).2 = '"' :: cs := by
  have split : head.text ++ rest = head.before ++ '"' ::
      (piecesText head.key ++ '"' :: (head.beforeColon ++ ':' :: (head.afterColon ++ rest))) := by
    simp [MemberHead.text, quoted]
  rw [split, skip_append valid.before (stops_cons (by decide))]
  exact ⟨_, rfl⟩

theorem Members.skip_text {members : Members} (valid : members.Valid) (rest : List Char) :
    ∃ cs, (skip (members.text ++ rest)).2 = '"' :: cs := by
  cases members with
  | last head d after =>
    have split : (Members.last head d after).text ++ rest =
        head.text ++ (d.text ++ (after ++ '\x7d' :: rest)) := by simp [Members.text]
    rw [split]
    exact head.skip_text valid.1 _
  | more head d after members =>
    have split : (Members.more head d after members).text ++ rest =
        head.text ++ (d.text ++ (after ++ ',' :: (members.text ++ rest))) := by
      simp [Members.text]
    rw [split]
    exact head.skip_text valid.1.1 _

mutual

theorem parseDoc_text : (d : Doc) → d.Valid → (rest : List Char) → Stops isAtomChar rest →
    (n : ℕ) → d.text.length ≤ n → parseDoc n (d.text ++ rest) = some (d, rest)
  | .atom text, valid, rest, stops, n, enough => by
    obtain ⟨c, cs, rfl⟩ := List.exists_cons_of_ne_nil (isAtom_ne_nil valid)
    obtain ⟨m, rfl⟩ : ∃ m, n = m + 1 := ⟨n - 1, by simp [Doc.text] at enough; omega⟩
    have chars := atomChar_of_isAtom valid
    obtain ⟨left, right⟩ := takeWhile_append chars stops
    rw [Doc.text, List.cons_append, parseDoc_atom (chars c List.mem_cons_self),
      ← List.cons_append, left, right]
    exact if_pos valid
  | .str content, valid, rest, _, n, enough => by
    obtain ⟨m, rfl⟩ : ∃ m, n = m + 1 := ⟨n - 1, by simp [Doc.text, quoted] at enough; omega⟩
    have text : (Doc.str content).text ++ rest = '"' :: (piecesText content ++ '"' :: rest) := by
      simp [Doc.text, quoted]
    simp only [text, parseDoc, readPieces_text valid rest, Option.map_some]
  | .noItems blank, valid, rest, _, n, enough => by
    obtain ⟨m, rfl⟩ : ∃ m, n = m + 1 := ⟨n - 1, by simp [Doc.text] at enough; omega⟩
    have text : (Doc.noItems blank).text ++ rest = '[' :: (blank ++ ']' :: rest) := by
      simp [Doc.text]
    rw [text, parseDoc, skip_append valid (stops_cons (by decide))]
    rfl
  | .arr items, valid, rest, _, n, enough => by
    simp only [Doc.text, List.length_cons] at enough
    obtain ⟨m, rfl⟩ : ∃ m, n = m + 1 := ⟨n - 1, by omega⟩
    obtain ⟨c, cs, next, notBracket⟩ := items.skip_text valid rest
    rw [Doc.text, List.cons_append, parseDoc_arr m next notBracket,
      parseItems_text items valid rest m (by omega)]
    rfl
  | .noMembers blank, valid, rest, _, n, enough => by
    obtain ⟨m, rfl⟩ : ∃ m, n = m + 1 := ⟨n - 1, by simp [Doc.text] at enough; omega⟩
    have text : (Doc.noMembers blank).text ++ rest = '\x7b' :: (blank ++ '\x7d' :: rest) := by
      simp [Doc.text]
    rw [text, parseDoc, skip_append valid (stops_cons (by decide))]
    rfl
  | .obj members, valid, rest, _, n, enough => by
    simp only [Doc.text, List.length_cons] at enough
    obtain ⟨m, rfl⟩ : ∃ m, n = m + 1 := ⟨n - 1, by omega⟩
    obtain ⟨cs, next⟩ := members.skip_text valid rest
    rw [Doc.text, List.cons_append, parseDoc_obj m next (by decide),
      parseMembers_text members valid rest m (by omega)]
    rfl

theorem parseItems_text : (items : Items) → items.Valid → (rest : List Char) →
    (n : ℕ) → items.text.length ≤ n → parseItems n (items.text ++ rest) = some (items, rest)
  | .last before d after, valid, rest, n, enough => by
    obtain ⟨blank, validD, blank'⟩ := valid
    simp only [Items.text, List.length_append, List.length_singleton] at enough
    obtain ⟨m, rfl⟩ : ∃ m, n = m + 1 := ⟨n - 1, by omega⟩
    have text : (Items.last before d after).text ++ rest =
        before ++ (d.text ++ (after ++ ']' :: rest)) := by simp [Items.text]
    have back := parseDoc_text d validD (after ++ ']' :: rest)
      (stops_blank blank' (stops_cons (by decide))) m (by omega)
    rw [text, parseItems, skip_append blank (d.stops validD)]
    simp only [back]
    rw [skip_append blank' (stops_cons (by decide))]
    rfl
  | .more before d after items, valid, rest, n, enough => by
    obtain ⟨⟨blank, validD, blank'⟩, validItems⟩ := valid
    simp only [Items.text, List.length_append, List.length_cons] at enough
    obtain ⟨m, rfl⟩ : ∃ m, n = m + 1 := ⟨n - 1, by omega⟩
    have text : (Items.more before d after items).text ++ rest =
        before ++ (d.text ++ (after ++ ',' :: (items.text ++ rest))) := by simp [Items.text]
    have back := parseDoc_text d validD (after ++ ',' :: (items.text ++ rest))
      (stops_blank blank' (stops_cons (by decide))) m (by omega)
    have tail := parseItems_text items validItems rest m (by omega)
    rw [text, parseItems, skip_append blank (d.stops validD)]
    simp only [back]
    rw [skip_append blank' (stops_cons (by decide))]
    simp only [tail, Option.map_some]

theorem parseMembers_text : (members : Members) → members.Valid → (rest : List Char) →
    (n : ℕ) → members.text.length ≤ n →
    parseMembers n (members.text ++ rest) = some (members, rest)
  | .last head d after, valid, rest, n, enough => by
    obtain ⟨validHead, validD, blank⟩ := valid
    simp only [Members.text, List.length_append, List.length_singleton] at enough
    obtain ⟨m, rfl⟩ : ∃ m, n = m + 1 := ⟨n - 1, by omega⟩
    have text : (Members.last head d after).text ++ rest =
        head.text ++ (d.text ++ (after ++ '\x7d' :: rest)) := by simp [Members.text]
    have back := parseDoc_text d validD (after ++ '\x7d' :: rest)
      (stops_blank blank (stops_cons (by decide))) m (by omega)
    rw [text, parseMembers, parseHead_text validHead (d.stops validD)]
    simp only [back]
    rw [skip_append blank (stops_cons (by decide))]
    rfl
  | .more head d after members, valid, rest, n, enough => by
    obtain ⟨⟨validHead, validD, blank⟩, validMembers⟩ := valid
    simp only [Members.text, List.length_append, List.length_cons] at enough
    obtain ⟨m, rfl⟩ : ∃ m, n = m + 1 := ⟨n - 1, by omega⟩
    have text : (Members.more head d after members).text ++ rest =
        head.text ++ (d.text ++ (after ++ ',' :: (members.text ++ rest))) := by
      simp [Members.text]
    have back := parseDoc_text d validD (after ++ ',' :: (members.text ++ rest))
      (stops_blank blank (stops_cons (by decide))) m (by omega)
    have tail := parseMembers_text members validMembers rest m (by omega)
    rw [text, parseMembers, parseHead_text validHead (d.stops validD)]
    simp only [back]
    rw [skip_append blank (stops_cons (by decide))]
    simp only [tail, Option.map_some]

end

end Back

/-! ## Nothing else is read -/

section Front

variable {cs rest : List Char} {n : ℕ}

theorem skip_text (cs : List Char) : cs = (skip cs).1 ++ (skip cs).2 :=
  (List.takeWhile_append_dropWhile).symm

theorem blank_skip (cs : List Char) : Blank (skip cs).1 :=
  fun _ mem => List.mem_takeWhile_imp mem

theorem text_of_parseHead {head : MemberHead} (read : parseHead cs = some (head, rest)) :
    cs = head.text ++ rest ∧ head.Valid := by
  unfold parseHead at read
  simp only at read
  split at read
  · case h_1 cs₁ open_ =>
    split at read
    · cases read
    · case h_2 key cs₂ pieces =>
      split at read
      · case h_1 cs₃ colon =>
        obtain ⟨rfl, rfl⟩ := Prod.mk.inj (Option.some.inj read)
        obtain ⟨text, valid⟩ := text_of_readPieces pieces
        refine ⟨?_, blank_skip _, valid, blank_skip _, blank_skip _⟩
        calc cs = (skip cs).1 ++ (skip cs).2 := skip_text cs
          _ = (skip cs).1 ++ '"' :: (piecesText key ++ '"' ::
                ((skip cs₂).1 ++ ':' :: ((skip cs₃).1 ++ (skip cs₃).2))) := by
              rw [open_, text, ← skip_text cs₃, ← colon, ← skip_text cs₂]
          _ = _ := by simp [MemberHead.text, quoted]
      · cases read
  · cases read

mutual

theorem text_of_parseDoc : (n : ℕ) → (cs : List Char) → (d : Doc) → (rest : List Char) →
    parseDoc n cs = some (d, rest) → cs = d.text ++ rest ∧ d.Valid
  | 0, cs, d, rest, read => by simp [parseDoc] at read
  | n + 1, cs, d, rest, read => by
    unfold parseDoc at read
    split at read
    · case h_1 cs' =>
      obtain ⟨⟨content, rest'⟩, pieces, same⟩ := Option.map_eq_some_iff.mp read
      obtain ⟨rfl, rfl⟩ := Prod.mk.inj same
      obtain ⟨text, valid⟩ := text_of_readPieces pieces
      exact ⟨by simp [Doc.text, quoted, text], valid⟩
    · case h_2 cs' =>
      split at read
      · case h_1 rest' close =>
        obtain ⟨rfl, rfl⟩ := Prod.mk.inj (Option.some.inj read)
        refine ⟨?_, blank_skip _⟩
        rw [Doc.text, List.cons_append, List.append_assoc, List.singleton_append, ← close,
          ← skip_text]
      · obtain ⟨⟨items, rest'⟩, inner, same⟩ := Option.map_eq_some_iff.mp read
        obtain ⟨rfl, rfl⟩ := Prod.mk.inj same
        obtain ⟨text, valid⟩ := text_of_parseItems n _ _ _ inner
        exact ⟨by rw [Doc.text, List.cons_append, text], valid⟩
    · case h_3 cs' =>
      split at read
      · case h_1 rest' close =>
        obtain ⟨rfl, rfl⟩ := Prod.mk.inj (Option.some.inj read)
        refine ⟨?_, blank_skip _⟩
        rw [Doc.text, List.cons_append, List.append_assoc, List.singleton_append, ← close,
          ← skip_text]
      · obtain ⟨⟨members, rest'⟩, inner, same⟩ := Option.map_eq_some_iff.mp read
        obtain ⟨rfl, rfl⟩ := Prod.mk.inj same
        obtain ⟨text, valid⟩ := text_of_parseMembers n _ _ _ inner
        exact ⟨by rw [Doc.text, List.cons_append, text], valid⟩
    · split at read
      · case isTrue atom =>
        obtain ⟨rfl, rfl⟩ := Prod.mk.inj (Option.some.inj read)
        exact ⟨(List.takeWhile_append_dropWhile).symm, atom⟩
      · cases read

theorem text_of_parseItems : (n : ℕ) → (cs : List Char) → (items : Items) →
    (rest : List Char) → parseItems n cs = some (items, rest) →
    cs = items.text ++ rest ∧ items.Valid
  | 0, cs, items, rest, read => by simp [parseItems] at read
  | n + 1, cs, items, rest, read => by
    unfold parseItems at read
    split at read
    · cases read
    · case h_2 d cs' inner =>
      obtain ⟨text, valid⟩ := text_of_parseDoc n _ _ _ inner
      have front : cs = (skip cs).1 ++ (d.text ++ ((skip cs').1 ++ (skip cs').2)) := by
        rw [← skip_text cs', ← text, ← skip_text cs]
      split at read
      · case h_1 rest' close =>
        obtain ⟨rfl, rfl⟩ := Prod.mk.inj (Option.some.inj read)
        refine ⟨front.trans ?_, blank_skip _, valid, blank_skip _⟩
        simp [Items.text, close]
      · case h_2 rest' comma =>
        obtain ⟨⟨items', rest''⟩, tail, same⟩ := Option.map_eq_some_iff.mp read
        obtain ⟨rfl, rfl⟩ := Prod.mk.inj same
        obtain ⟨text', valid'⟩ := text_of_parseItems n _ _ _ tail
        refine ⟨front.trans ?_, ⟨blank_skip _, valid, blank_skip _⟩, valid'⟩
        simp [Items.text, comma, text']
      · cases read

theorem text_of_parseMembers : (n : ℕ) → (cs : List Char) → (members : Members) →
    (rest : List Char) → parseMembers n cs = some (members, rest) →
    cs = members.text ++ rest ∧ members.Valid
  | 0, cs, members, rest, read => by simp [parseMembers] at read
  | n + 1, cs, members, rest, read => by
    unfold parseMembers at read
    split at read
    · cases read
    · case h_2 head cs₁ first =>
      obtain ⟨textHead, validHead⟩ := text_of_parseHead first
      split at read
      · cases read
      · case h_2 d cs' inner =>
        obtain ⟨text, valid⟩ := text_of_parseDoc n _ _ _ inner
        have front : cs = head.text ++ (d.text ++ ((skip cs').1 ++ (skip cs').2)) := by
          rw [← skip_text cs', ← text, ← textHead]
        split at read
        · case h_1 rest' close =>
          obtain ⟨rfl, rfl⟩ := Prod.mk.inj (Option.some.inj read)
          refine ⟨front.trans ?_, validHead, valid, blank_skip _⟩
          simp [Members.text, close]
        · case h_2 rest' comma =>
          obtain ⟨⟨members', rest''⟩, tail, same⟩ := Option.map_eq_some_iff.mp read
          obtain ⟨rfl, rfl⟩ := Prod.mk.inj same
          obtain ⟨text', valid'⟩ := text_of_parseMembers n _ _ _ tail
          refine ⟨front.trans ?_, ⟨validHead, valid, blank_skip _⟩, valid'⟩
          simp [Members.text, comma, text']
        · cases read

end

end Front

/-! ## Whole texts -/

/-- The document that a text is, with blanks around it. -/
def parse (cs : List Char) : Option Doc :=
  match parseDoc cs.length (skip cs).2 with
  | some (d, rest) => if rest.all isBlank then some d else none
  | none => none

theorem parse_eq_some_iff {cs : List Char} {d : Doc} :
    parse cs = some d ↔ d.Valid ∧
      ∃ before after, Blank before ∧ Blank after ∧ cs = before ++ d.text ++ after := by
  constructor
  · intro read
    unfold parse at read
    split at read
    · case h_1 d' rest inner =>
      split at read
      · case isTrue blank =>
        obtain rfl := Option.some.inj read
        obtain ⟨text, valid⟩ := text_of_parseDoc _ _ _ _ inner
        refine ⟨valid, (skip cs).1, rest, blank_skip cs, List.all_eq_true.mp blank, ?_⟩
        rw [List.append_assoc, ← text, ← skip_text]
      · cases read
    · cases read
  · rintro ⟨valid, before, after, blank, blank', rfl⟩
    have stops : Stops isAtomChar after := by
      have blanks : Stops isAtomChar (after ++ []) := stops_blank blank' (by simp [Stops])
      rwa [List.append_nil] at blanks
    rw [parse, List.append_assoc, skip_append blank (d.stops valid),
      parseDoc_text d valid after stops _ (by simp only [List.length_append]; omega)]
    exact if_pos (List.all_eq_true.mpr blank')

end Zhongzhuan.Kit.JsonDoc
