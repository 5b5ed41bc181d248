import Zhongzhuan.Kit.JsonLoads

/-!
# A JSON text read from the middle

What is left of a JSON text inside one of its strings may be a JSON text again, but then what
was a string stands between strings, and what stood between strings is one.

* `Phase` is the state in which the rest of a text is read: in a string, or between strings,
  with a comma or a colon since the last one or not.  `Reads s cs` says that the rest `cs` can
  be what is left in the state `s`.
* `reads_text`: a document is read in this way.
* `Reads.behind`: behind a character that only a string can have, the rest begins in a string.
* `inside_doc`: a document that begins inside a string ends inside one, and by
  `inside_members` each key of its members has a comma or a colon in it.
* `parse_front`: the front of a document is no document.
* `spelled_printed`: an inner character stands in the text that is written for a value exactly
  when it stands in a string of the value.
-/

namespace Zhongzhuan.Kit.JsonDoc

/-- Where in a text the rest begins. -/
inductive Phase
  | inside
  /-- Between strings; whether a comma or a colon has come since the last one. -/
  | between (separated : Bool)

/-- A comma or a colon. -/
def isSeparator (c : Char) : Bool := c = ',' || c = ':'

/-- What stands between strings, separators apart. -/
def isGap (c : Char) : Bool :=
  isBlank c || isAtomChar c || c = '[' || c = ']' || c = '\x7b' || c = '\x7d'

/-- A text that can be the rest of a document. -/
inductive Reads : Phase → List Char → Prop
  | done (separated : Bool) : Reads (.between separated) []
  | gap {c : Char} {separated : Bool} {cs : List Char} (gap : isGap c)
      (rest : Reads (.between separated) cs) : Reads (.between separated) (c :: cs)
  | separator {c : Char} {separated : Bool} {cs : List Char} (separator : isSeparator c)
      (rest : Reads (.between true) cs) : Reads (.between separated) (c :: cs)
  | opens {cs : List Char} (rest : Reads .inside cs) : Reads (.between true) ('"' :: cs)
  | piece {p : Piece} {cs : List Char} (valid : p.Valid) (rest : Reads .inside cs) :
      Reads .inside (p.text ++ cs)
  | closes {cs : List Char} (rest : Reads (.between false) cs) : Reads .inside ('"' :: cs)

namespace Reads

variable {c : Char} {cs rest : List Char} {separated : Bool}

theorem separated_of (reads : Reads (.between false) cs) : Reads (.between true) cs := by
  generalize same : Phase.between false = s at reads
  induction reads with
  | done separated => exact done true
  | gap inGap _ ih =>
    cases same
    exact gap inGap (ih rfl)
  | separator isSep rest _ => exact separator isSep rest
  | opens | piece | closes => cases same

theorem between (reads : Reads (.between false) cs) : Reads (.between separated) cs := by
  cases separated with
  | false => exact reads
  | true => exact reads.separated_of

theorem gaps {front : List Char} (all : ∀ c ∈ front, isGap c)
    (reads : Reads (.between separated) cs) : Reads (.between separated) (front ++ cs) := by
  induction front with
  | nil => exact reads
  | cons c front ih =>
    obtain ⟨here, rest⟩ := List.forall_mem_cons.mp all
    exact gap here (ih rest)

theorem blanks {front : List Char} (blank : Blank front)
    (reads : Reads (.between separated) cs) : Reads (.between separated) (front ++ cs) :=
  gaps (fun c mem => by simp [isGap, blank c mem]) reads

theorem quoted {content : List Piece} (valid : ∀ p ∈ content, p.Valid)
    (reads : Reads (.between false) cs) :
    Reads (.between true) ('"' :: (piecesText content ++ '"' :: cs)) := by
  refine opens ?_
  induction content with
  | nil => exact closes reads
  | cons p content ih =>
    obtain ⟨here, rest⟩ := List.forall_mem_cons.mp valid
    rw [piecesText_cons, List.append_assoc]
    exact piece here (ih rest)

theorem head {head : MemberHead} (valid : head.Valid) (reads : Reads (.between true) cs) :
    Reads (.between true) (head.text ++ cs) := by
  have text : head.text ++ cs = head.before ++ '"' ::
      (piecesText head.key ++ '"' :: (head.beforeColon ++ ':' :: (head.afterColon ++ cs))) := by
    simp [MemberHead.text, JsonDoc.quoted]
  rw [text]
  exact blanks valid.before
    (quoted valid.key (blanks valid.beforeColon (separator rfl (blanks valid.afterColon reads))))

end Reads

mutual

theorem reads_text : (d : Doc) → d.Valid → (rest : List Char) → Reads (.between false) rest →
    Reads (.between true) (d.text ++ rest)
  | .atom text, valid, rest, reads =>
    Reads.gaps (fun c mem => by simp [isGap, atomChar_of_isAtom valid c mem]) reads.separated_of
  | .str content, valid, rest, reads => by
    have text : (Doc.str content).text ++ rest = '"' :: (piecesText content ++ '"' :: rest) := by
      simp [Doc.text, quoted]
    rw [text]
    exact Reads.quoted valid reads
  | .noItems blank, valid, rest, reads => by
    have text : (Doc.noItems blank).text ++ rest = '[' :: (blank ++ ']' :: rest) := by
      simp [Doc.text]
    rw [text]
    exact Reads.gap rfl (Reads.blanks valid (Reads.gap rfl reads.separated_of))
  | .arr items, valid, rest, reads => Reads.gap rfl (reads_items items valid rest reads)
  | .noMembers blank, valid, rest, reads => by
    have text : (Doc.noMembers blank).text ++ rest = '\x7b' :: (blank ++ '\x7d' :: rest) := by
      simp [Doc.text]
    rw [text]
    exact Reads.gap rfl (Reads.blanks valid (Reads.gap rfl reads.separated_of))
  | .obj members, valid, rest, reads => Reads.gap rfl (reads_members members valid rest reads)

theorem reads_items : (items : Items) → items.Valid → (rest : List Char) →
    Reads (.between false) rest → Reads (.between true) (items.text ++ rest)
  | .last before d after, valid, rest, reads => by
    obtain ⟨blank, validD, blank'⟩ := valid
    have text : (Items.last before d after).text ++ rest =
        before ++ (d.text ++ (after ++ ']' :: rest)) := by simp [Items.text]
    rw [text]
    exact Reads.blanks blank (reads_text d validD _ (Reads.blanks blank' (Reads.gap rfl reads)))
  | .more before d after items, valid, rest, reads => by
    obtain ⟨⟨blank, validD, blank'⟩, validItems⟩ := valid
    have text : (Items.more before d after items).text ++ rest =
        before ++ (d.text ++ (after ++ ',' :: (items.text ++ rest))) := by simp [Items.text]
    rw [text]
    exact Reads.blanks blank (reads_text d validD _
      (Reads.blanks blank' (Reads.separator rfl (reads_items items validItems rest reads))))

theorem reads_members : (members : Members) → members.Valid → (rest : List Char) →
    Reads (.between false) rest → Reads (.between true) (members.text ++ rest)
  | .last head d after, valid, rest, reads => by
    obtain ⟨validHead, validD, blank⟩ := valid
    have text : (Members.last head d after).text ++ rest =
        head.text ++ (d.text ++ (after ++ '\x7d' :: rest)) := by simp [Members.text]
    rw [text]
    exact Reads.head validHead (reads_text d validD _ (Reads.blanks blank (Reads.gap rfl reads)))
  | .more head d after members, valid, rest, reads => by
    obtain ⟨⟨validHead, validD, blank⟩, validMembers⟩ := valid
    have text : (Members.more head d after members).text ++ rest =
        head.text ++ (d.text ++ (after ++ ',' :: (members.text ++ rest))) := by
      simp [Members.text]
    rw [text]
    exact Reads.head validHead (reads_text d validD _
      (Reads.blanks blank (Reads.separator rfl (reads_members members validMembers rest reads))))

end

/-! ## Cut inside a string -/

/-- A character that stands only in strings, and is spelled as it is. -/
structure Inner (c : Char) : Prop where
  printable : 32 ≤ c.toNat
  notGap : isGap c = false
  notSeparator : isSeparator c = false
  notQuote : c ≠ '"'
  notSlash : c ≠ '\\'
  notEscape : c ∉ escapable
  notU : c ≠ 'u'
  notHex : isHex c = false

instance : DecidablePred Inner := fun c =>
  decidable_of_iff (32 ≤ c.toNat ∧ isGap c = false ∧ isSeparator c = false ∧ c ≠ '"' ∧ c ≠ '\\'
      ∧ c ∉ escapable ∧ c ≠ 'u' ∧ isHex c = false)
    ⟨fun h => ⟨h.1, h.2.1, h.2.2.1, h.2.2.2.1, h.2.2.2.2.1, h.2.2.2.2.2.1, h.2.2.2.2.2.2.1,
        h.2.2.2.2.2.2.2⟩,
      fun h => ⟨h.printable, h.notGap, h.notSeparator, h.notQuote, h.notSlash, h.notEscape,
        h.notU, h.notHex⟩⟩

theorem Reads.behind {c : Char} (inner : Inner c) {s : Phase} {text : List Char}
    (reads : Reads s text) {before rest : List Char} (cut : text = before ++ c :: rest) :
    Reads .inside rest := by
  induction reads generalizing before with
  | done separated => simp at cut
  | gap inGap _ ih =>
    cases before with
    | nil =>
      obtain ⟨rfl, -⟩ := List.cons.inj cut
      exact absurd inGap (by simp [inner.notGap])
    | cons d before => exact ih (List.cons.inj cut).2
  | separator isSep _ ih =>
    cases before with
    | nil =>
      obtain ⟨rfl, -⟩ := List.cons.inj cut
      exact absurd isSep (by simp [inner.notSeparator])
    | cons d before => exact ih (List.cons.inj cut).2
  | opens _ ih =>
    cases before with
    | nil => exact absurd (List.cons.inj cut).1.symm inner.notQuote
    | cons d before => exact ih (List.cons.inj cut).2
  | closes _ ih =>
    cases before with
    | nil => exact absurd (List.cons.inj cut).1.symm inner.notQuote
    | cons d before => exact ih (List.cons.inj cut).2
  | @piece p cs valid reads ih =>
    rcases List.append_eq_append_iff.mp cut with ⟨more, rfl, same⟩ | ⟨more, here, same⟩
    · exact ih same
    · cases more with
      | nil => exact ih (by simpa using same.symm : _ = [] ++ c :: rest)
      | cons d more =>
        obtain ⟨rfl, rfl⟩ := List.cons.inj same
        -- the character is one of the piece
        have mem : c ∈ p.text := by simp [here]
        cases p with
        | plain e =>
          have last : more = [] := by
            have size := congrArg List.length here
            simp only [Piece.text, List.length_append, List.length_cons] at size
            exact List.eq_nil_of_length_eq_zero (by simp at size; omega)
          rw [last]
          exact reads
        | escaped e =>
          simp only [Piece.text, List.mem_cons, List.not_mem_nil, or_false] at mem
          rcases mem with slash | same
          · exact absurd slash inner.notSlash
          · exact absurd (same ▸ valid) inner.notEscape
        | unicode w x y z =>
          obtain ⟨hw, hx, hy, hz⟩ := valid
          have notHex := inner.notHex
          simp only [Piece.text, List.mem_cons, List.not_mem_nil, or_false] at mem
          rcases mem with slash | isU | rfl | rfl | rfl | rfl
          · exact absurd slash inner.notSlash
          · exact absurd isU inner.notU
          · exact absurd hw (by simp [notHex])
          · exact absurd hx (by simp [notHex])
          · exact absurd hy (by simp [notHex])
          · exact absurd hz (by simp [notHex])

/-! ## Read from inside a string -/

/-- A comma or a colon is in the string. -/
def Separated (points : List ℕ) : Prop := ∃ c, isSeparator c ∧ c.toNat ∈ points

namespace Reads

variable {c : Char} {cs rest : List Char}

theorem behind_plain (reads : Reads .inside (c :: cs)) (notQuote : c ≠ '"')
    (notSlash : c ≠ '\\') : Reads .inside cs := by
  generalize whole : c :: cs = text at reads
  cases reads with
  | closes _ => exact absurd (List.cons.inj whole).1 notQuote
  | @piece p cs' valid reads =>
    cases p with
    | plain d =>
      obtain ⟨-, rfl⟩ := List.cons.inj whole
      exact reads
    | escaped d => exact absurd (List.cons.inj whole).1 notSlash
    | unicode w x y z => exact absurd (List.cons.inj whole).1 notSlash

theorem behind_plains {front : List Char} (plain : ∀ c ∈ front, c ≠ '"' ∧ c ≠ '\\')
    (reads : Reads .inside (front ++ cs)) : Reads .inside cs := by
  induction front with
  | nil => exact reads
  | cons c front ih =>
    obtain ⟨here, rest⟩ := List.forall_mem_cons.mp plain
    exact ih rest (reads.behind_plain here.1 here.2)

theorem behind_quote (reads : Reads .inside ('"' :: cs)) : Reads (.between false) cs := by
  generalize whole : '"' :: cs = text at reads
  cases reads with
  | closes reads =>
    obtain ⟨-, rfl⟩ := List.cons.inj whole
    exact reads
  | @piece p cs' valid reads =>
    cases p with
    | plain d => exact absurd (List.cons.inj whole).1.symm valid.1
    | escaped d => exact absurd (List.cons.inj whole).1 (by decide)
    | unicode w x y z => exact absurd (List.cons.inj whole).1 (by decide)

theorem between_pieces {separated : Bool} {content : List Piece}
    (valid : ∀ p ∈ content, p.Valid)
    (reads : Reads (.between separated) (piecesText content ++ '"' :: rest)) :
    Reads .inside rest ∧ (separated = false → Separated (decode content)) := by
  induction content generalizing separated with
  | nil =>
    generalize whole : piecesText [] ++ '"' :: rest = text at reads
    cases reads with
    | done => cases whole
    | gap inGap _ => exact absurd inGap (by rw [← (List.cons.inj whole).1]; decide)
    | separator isSep _ => exact absurd isSep (by rw [← (List.cons.inj whole).1]; decide)
    | opens reads =>
      obtain ⟨-, rfl⟩ := List.cons.inj whole
      exact ⟨reads, fun impossible => absurd impossible (by decide)⟩
  | cons p content ih =>
    obtain ⟨here, others⟩ := List.forall_mem_cons.mp valid
    rw [piecesText_cons, List.append_assoc] at reads
    -- a backslash does not stand between strings
    have noSlash : ∀ {cs : List Char}, ¬ Reads (.between separated) ('\\' :: cs) := by
      intro cs reads
      cases reads with
      | gap inGap _ => exact absurd inGap (by decide)
      | separator isSep _ => exact absurd isSep (by decide)
    cases p with
    | escaped d => exact absurd reads noSlash
    | unicode w x y z => exact absurd reads noSlash
    | plain d =>
      have points : decode (Piece.plain d :: content) = d.toNat :: decode content :=
        decode_cons (p := Piece.plain d) (not_isHigh d) content
      generalize whole : (Piece.plain d).text ++ (piecesText content ++ '"' :: rest) = text
        at reads
      rw [points]
      cases reads with
      | done => cases whole
      | gap _ reads =>
        obtain ⟨-, rfl⟩ := List.cons.inj whole
        obtain ⟨inside, found⟩ := ih others reads
        refine ⟨inside, fun none_ => ?_⟩
        obtain ⟨c, isSep, mem⟩ := found none_
        exact ⟨c, isSep, List.mem_cons_of_mem _ mem⟩
      | separator isSep reads =>
        obtain ⟨rfl, rfl⟩ := List.cons.inj whole
        exact ⟨(ih others reads).1, fun _ => ⟨d, isSep, List.mem_cons_self⟩⟩
      | opens _ => exact absurd (List.cons.inj whole).1 here.1

theorem inside_quoted {content : List Piece} (valid : ∀ p ∈ content, p.Valid)
    (reads : Reads .inside ('"' :: (piecesText content ++ '"' :: rest))) :
    Reads .inside rest ∧ Separated (decode content) := by
  obtain ⟨inside, found⟩ := reads.behind_quote.between_pieces valid
  exact ⟨inside, found rfl⟩

theorem inside_blanks {front : List Char} (blank : Blank front)
    (reads : Reads .inside (front ++ cs)) : Reads .inside cs := by
  refine reads.behind_plains fun c mem => ?_
  have isBlank_ := blank c mem
  constructor
  · rintro rfl
    exact absurd isBlank_ (by decide)
  · rintro rfl
    exact absurd isBlank_ (by decide)

theorem inside_head {head : MemberHead} (valid : head.Valid)
    (reads : Reads .inside (head.text ++ cs)) :
    Reads .inside cs ∧ Separated (decode head.key) := by
  have text : head.text ++ cs = head.before ++ '"' ::
      (piecesText head.key ++ '"' :: (head.beforeColon ++ ':' :: (head.afterColon ++ cs))) := by
    simp [MemberHead.text, JsonDoc.quoted]
  rw [text] at reads
  obtain ⟨inside, found⟩ := (reads.inside_blanks valid.before).inside_quoted valid.key
  have behindColon := (inside.inside_blanks valid.beforeColon).behind_plain (by decide) (by decide)
  exact ⟨behindColon.inside_blanks valid.afterColon, found⟩

end Reads

mutual

theorem inside_doc : (d : Doc) → d.Valid → (rest : List Char) →
    Reads .inside (d.text ++ rest) → Reads .inside rest
  | .atom text, valid, rest, reads => by
    refine reads.behind_plains fun c mem => ?_
    have atom := atomChar_of_isAtom valid c mem
    constructor
    · rintro rfl
      exact absurd atom (by decide)
    · rintro rfl
      exact absurd atom (by decide)
  | .str content, valid, rest, reads => by
    have text : (Doc.str content).text ++ rest = '"' :: (piecesText content ++ '"' :: rest) := by
      simp [Doc.text, quoted]
    rw [text] at reads
    exact (reads.inside_quoted valid).1
  | .noItems blank, valid, rest, reads => by
    have text : (Doc.noItems blank).text ++ rest = '[' :: (blank ++ ']' :: rest) := by
      simp [Doc.text]
    rw [text] at reads
    have behind := (reads.behind_plain (by decide) (by decide)).inside_blanks valid
    exact behind.behind_plain (by decide) (by decide)
  | .arr items, valid, rest, reads =>
    inside_items items valid rest (reads.behind_plain (by decide) (by decide))
  | .noMembers blank, valid, rest, reads => by
    have text : (Doc.noMembers blank).text ++ rest = '\x7b' :: (blank ++ '\x7d' :: rest) := by
      simp [Doc.text]
    rw [text] at reads
    have behind := (reads.behind_plain (by decide) (by decide)).inside_blanks valid
    exact behind.behind_plain (by decide) (by decide)
  | .obj members, valid, rest, reads =>
    (inside_members members valid rest (reads.behind_plain (by decide) (by decide))).1

theorem inside_items : (items : Items) → items.Valid → (rest : List Char) →
    Reads .inside (items.text ++ rest) → Reads .inside rest
  | .last before d after, valid, rest, reads => by
    obtain ⟨blank, validD, blank'⟩ := valid
    have text : (Items.last before d after).text ++ rest =
        before ++ (d.text ++ (after ++ ']' :: rest)) := by simp [Items.text]
    rw [text] at reads
    have behind := inside_doc d validD _ (reads.inside_blanks blank)
    exact (behind.inside_blanks blank').behind_plain (by decide) (by decide)
  | .more before d after items, valid, rest, reads => by
    obtain ⟨⟨blank, validD, blank'⟩, validItems⟩ := valid
    have text : (Items.more before d after items).text ++ rest =
        before ++ (d.text ++ (after ++ ',' :: (items.text ++ rest))) := by simp [Items.text]
    rw [text] at reads
    have behind := inside_doc d validD _ (reads.inside_blanks blank)
    exact inside_items items validItems rest
      ((behind.inside_blanks blank').behind_plain (by decide) (by decide))

/-- **The keys of members that begin inside a string** have a comma or a colon in them. -/
theorem inside_members : (members : Members) → members.Valid → (rest : List Char) →
    Reads .inside (members.text ++ rest) →
    Reads .inside rest ∧ ∀ key ∈ members.keys, Separated key
  | .last head d after, valid, rest, reads => by
    obtain ⟨validHead, validD, blank⟩ := valid
    have text : (Members.last head d after).text ++ rest =
        head.text ++ (d.text ++ (after ++ '\x7d' :: rest)) := by simp [Members.text]
    rw [text] at reads
    obtain ⟨behindHead, found⟩ := reads.inside_head validHead
    have behind := inside_doc d validD _ behindHead
    refine ⟨(behind.inside_blanks blank).behind_plain (by decide) (by decide), ?_⟩
    simpa [Members.keys] using found
  | .more head d after members, valid, rest, reads => by
    obtain ⟨⟨validHead, validD, blank⟩, validMembers⟩ := valid
    have text : (Members.more head d after members).text ++ rest =
        head.text ++ (d.text ++ (after ++ ',' :: (members.text ++ rest))) := by
      simp [Members.text]
    rw [text] at reads
    obtain ⟨behindHead, found⟩ := reads.inside_head validHead
    have behind := inside_doc d validD _ behindHead
    obtain ⟨inside, others⟩ := inside_members members validMembers rest
      ((behind.inside_blanks blank).behind_plain (by decide) (by decide))
    exact ⟨inside, List.forall_mem_cons.mpr ⟨found, others⟩⟩

end

/-! ## Parts of a text -/

section Parts

variable {rd : FloatReader} {d : Doc} {front more : List Char}

theorem parse_front (valid : d.Valid) (cut : d.text = front ++ more) (some_ : more ≠ [])
    (stops : Stops isAtomChar more) : parse front = none := by
  cases read : parse front with
  | none => rfl
  | some d' =>
    exfalso
    obtain ⟨valid', before, after, blank, blank', rfl⟩ := parse_eq_some_iff.mp read
    have first : before = [] := by
      obtain ⟨c, cs, text, starts⟩ := d.starts valid
      cases before with
      | nil => rfl
      | cons e before =>
        rw [text] at cut
        obtain ⟨rfl, -⟩ := List.cons.inj cut
        exact absurd (blank c List.mem_cons_self) (by simp [starts.notBlank])
    have whole : d.text = d'.text ++ (after ++ more) := by rw [cut, first]; simp
    have whole_read := parseDoc_text d valid [] (by simp [Stops]) d.text.length le_rfl
    rw [List.append_nil] at whole_read
    have front_read := parseDoc_text d' valid' (after ++ more) (stops_blank blank' stops)
      d.text.length (by rw [whole, List.length_append]; omega)
    rw [← whole, whole_read] at front_read
    have rest := (Prod.mk.inj (Option.some.inj front_read)).2
    exact some_ (List.append_eq_nil_iff.mp rest.symm).2

theorem separated_keys {fields : List (List ℕ × Value)} (read : loads rd front = some (.obj fields))
    (reads : Reads .inside (front ++ more)) : ∀ k ∈ fields.map Prod.fst, Separated k := by
  obtain ⟨doc, parsed, value⟩ := Option.map_eq_some_iff.mp read
  obtain ⟨valid, before, after, blank, -, rfl⟩ := parse_eq_some_iff.mp parsed
  rw [List.append_assoc, List.append_assoc] at reads
  have begins := reads.inside_blanks blank
  cases doc with
  | atom text =>
    -- no name or number is an object
    exfalso
    rw [Doc.value, atomValue] at value
    split_ifs at value
  | str | noItems | arr => cases value
  | noMembers =>
    obtain rfl := Value.obj.inj value
    simp
  | obj members =>
    obtain rfl := Value.obj.inj value
    obtain ⟨-, found⟩ :=
      inside_members members valid _ (begins.behind_plain (by decide) (by decide))
    intro k mem
    rw [keys_toDict, keys_fields, mem_toKeys] at mem
    exact found k mem

end Parts

/-! ## What stands in a written text -/

mutual

/-- The code points of the strings in a value. -/
def Value.points : Value → List ℕ
  | .str points => points
  | .arr items => pointsItems items
  | .obj fields => pointsFields fields
  | _ => []

def pointsItems : List Value → List ℕ
  | [] => []
  | v :: rest => v.points ++ pointsItems rest

def pointsFields : List (List ℕ × Value) → List ℕ
  | [] => []
  | (k, v) :: rest => k ++ v.points ++ pointsFields rest

end

/-- A text in which these code points are spelled. -/
structure Spelled (points : List ℕ) (text : List Char) : Prop where
  printable : ∀ c ∈ text, 32 ≤ c.toNat
  mem : ∀ c, Inner c → (c ∈ text ↔ c.toNat ∈ points)

/-- What stands around strings. -/
def isOuter (c : Char) : Bool :=
  decide (32 ≤ c.toNat) && (isGap c || isSeparator c || c = '"')

theorem outer_iff {c : Char} :
    isOuter c ↔ 32 ≤ c.toNat ∧ ((isGap c ∨ isSeparator c) ∨ c = '"') := by
  simp [isOuter]

namespace Spelled

variable {points more : List ℕ} {text rest : List Char}

theorem append (first : Spelled points text) (second : Spelled more rest) :
    Spelled (points ++ more) (text ++ rest) where
  printable := List.forall_mem_append.mpr ⟨first.printable, second.printable⟩
  mem := fun c inner => by
    rw [List.mem_append, List.mem_append, first.mem c inner, second.mem c inner]

theorem outer (all : text.all isOuter) : Spelled [] text where
  printable := fun c mem => (outer_iff.mp (List.all_eq_true.mp all c mem)).1
  mem := fun c inner => by
    refine ⟨fun mem => ?_, fun mem => absurd mem List.not_mem_nil⟩
    rcases (outer_iff.mp (List.all_eq_true.mp all c mem)).2 with (inGap | isSep) | quote
    · exact absurd inGap (by simp [inner.notGap])
    · exact absurd isSep (by simp [inner.notSeparator])
    · exact absurd quote inner.notQuote

theorem prepend {front : List Char} (all : front.all isOuter)
    (spelled : Spelled points text) : Spelled points (front ++ text) :=
  (outer all).append spelled

theorem concat {back : List Char} (all : back.all isOuter)
    (spelled : Spelled points text) : Spelled points (text ++ back) := by
  simpa using spelled.append (outer all)

end Spelled

theorem atomChar_printable {c : Char} (atom : isAtomChar c) : 32 ≤ c.toNat := by
  simp only [isAtomChar, Char.isAlphanum, Char.isAlpha, Char.isUpper, Char.isLower,
    Char.isDigit, Bool.or_eq_true, Bool.and_eq_true, decide_eq_true_eq,
    UInt32.le_iff_toNat_le, ge_iff_le] at atom
  change (((((65 ≤ c.toNat ∧ _) ∨ (97 ≤ c.toNat ∧ _)) ∨ (48 ≤ c.toNat ∧ _)) ∨ c = '+') ∨ c = '-')
    ∨ c = '.' at atom
  rcases atom with ((((⟨low, -⟩ | ⟨low, -⟩) | ⟨low, -⟩) | rfl) | rfl) | rfl
  · omega
  · omega
  · omega
  all_goals decide

theorem digitChar_printable : ∀ n < 32,
    32 ≤ (Nat.digitChar (n / 16)).toNat ∧ 32 ≤ (Nat.digitChar (n % 16)).toNat := by
  decide

theorem Spelled.escape {n : ℕ} {text : List Char} (outer : ∀ c, Inner c → c.toNat ≠ n)
    (all : text.all fun c => decide (32 ≤ c.toNat ∧ ¬ Inner c)) : Spelled [n] text where
  printable := fun c mem => (of_decide_eq_true (List.all_eq_true.mp all c mem)).1
  mem := fun c inner => by
    have notInner : c ∈ text → ¬ Inner c := fun mem =>
      (of_decide_eq_true (List.all_eq_true.mp all c mem)).2
    refine ⟨fun mem => absurd inner (notInner mem), fun mem => ?_⟩
    exact absurd (List.mem_singleton.mp mem) (outer c inner)

theorem Inner.toNat_ne {c e : Char} (inner : Inner c) (other : ¬ Inner e) : c.toNat ≠ e.toNat := by
  intro same
  exact other (Char.toNat_inj.mp same ▸ inner)

theorem spelled_pieceOf (e : Char) : Spelled [e.toNat] (pieceOf e).text := by
  unfold pieceOf
  split
  · case isTrue same =>
    subst same
    exact Spelled.escape (fun c inner => inner.toNat_ne (by decide)) (by decide)
  split
  · case isTrue same =>
    subst same
    exact Spelled.escape (fun c inner => inner.toNat_ne (by decide)) (by decide)
  split
  · case isTrue same =>
    subst same
    exact Spelled.escape (fun c inner => inner.toNat_ne (by decide)) (by decide)
  split
  · case isTrue same =>
    subst same
    exact Spelled.escape (fun c inner => inner.toNat_ne (by decide)) (by decide)
  split
  · case isTrue same =>
    subst same
    exact Spelled.escape (fun c inner => inner.toNat_ne (by decide)) (by decide)
  split
  · case isTrue same =>
    refine Spelled.escape (fun c inner => ?_) (by decide)
    have := inner.printable
    omega
  split
  · case isTrue same =>
    refine Spelled.escape (fun c inner => ?_) (by decide)
    have := inner.printable
    omega
  split
  · case isTrue control =>
    obtain ⟨first, second, -⟩ := digitChar_small _ control
    obtain ⟨low, low'⟩ := digitChar_printable _ control
    refine Spelled.escape (fun c inner => ?_) ?_
    · have := inner.printable
      omega
    · have hex : ∀ c : Char, isHex c → ¬ Inner c := fun c hex inner =>
        absurd hex (by simp [inner.notHex])
      simp only [Piece.text, List.all_cons, List.all_nil, Bool.and_true, Bool.and_eq_true,
        decide_eq_true_eq]
      exact ⟨by decide, by decide, by decide, by decide, ⟨low, hex _ first⟩, low', hex _ second⟩
  · case isFalse printable =>
    refine ⟨by simpa [Piece.text] using printable, fun c inner => ?_⟩
    simp only [Piece.text, List.mem_singleton]
    exact ⟨fun same => same ▸ rfl, fun same => Char.toNat_inj.mp same⟩

theorem spelled_contentOf {points : List ℕ} {content : List Piece}
    (written : contentOf points = some content) : Spelled points (piecesText content) := by
  induction points generalizing content with
  | nil =>
    obtain rfl := Option.some.inj written
    exact Spelled.outer (by simp [piecesText])
  | cons n points ih =>
    simp only [contentOf] at written
    split at written
    · case h_1 c content' char tail =>
      obtain rfl := Option.some.inj written
      have point : c.toNat = n := by
        unfold charOf at char
        split at char
        · obtain rfl := Option.some.inj char
          rfl
        · cases char
      rw [piecesText_cons, ← point]
      exact (spelled_pieceOf c).append (ih tail)
    · cases written

theorem spelled_quoted {points : List ℕ} {content : List Piece}
    (written : contentOf points = some content) : Spelled points (quoted content) :=
  ((spelled_contentOf written).concat (by decide : ['"'].all isOuter)).prepend
    (by decide : ['"'].all isOuter)

theorem blank_outer {before : List Char} (blank : before = [] ∨ before = [' ']) :
    before.all isOuter := by
  rcases blank with rfl | rfl
  · rfl
  · decide

theorem spelled_head {before : List Char} (blank : before = [] ∨ before = [' '])
    {k : List ℕ} {key : List Piece} (written : contentOf k = some key) :
    Spelled k (MemberHead.text ⟨before, key, [], [' ']⟩) := by
  have text : MemberHead.text ⟨before, key, [], [' ']⟩ = before ++ (quoted key ++ [':', ' ']) := by
    simp [MemberHead.text]
  rw [text]
  exact ((spelled_quoted written).concat (by decide)).prepend (blank_outer blank)

section Written

variable {rd : FloatReader}

mutual

theorem spelled_printed : (v : Value) → v.Canonical rd → (d : Doc) → printed v = some d →
    Spelled v.points d.text
  | .null, _, d, written => by
    obtain rfl := Option.some.inj written
    exact Spelled.outer (by simp only [Doc.text]; decide)
  | .bool b, _, d, written => by
    cases b with
    | true =>
      obtain rfl := Option.some.inj written
      exact Spelled.outer (by simp only [Doc.text]; decide)
    | false =>
      obtain rfl := Option.some.inj written
      exact Spelled.outer (by simp only [Doc.text]; decide)
  | .number text, canonical, d, written => by
    obtain rfl := Option.some.inj written
    refine Spelled.outer (List.all_eq_true.mpr fun c mem => outer_iff.mpr ?_)
    have atom := atomChar_of_isAtom canonical.1 c mem
    exact ⟨atomChar_printable atom, Or.inl (Or.inl (by simp [isGap, atom]))⟩
  | .str points, _, d, written => by
    obtain ⟨content, spelled, rfl⟩ := Option.map_eq_some_iff.mp written
    exact spelled_quoted spelled
  | .arr [], _, d, written => by
    obtain rfl := Option.some.inj written
    exact Spelled.outer (by simp only [Doc.text]; decide)
  | .arr (v :: rest), canonical, d, written => by
    obtain ⟨items, inner, rfl⟩ := Option.map_eq_some_iff.mp written
    exact (spelled_items (v :: rest) canonical [] (Or.inl rfl) items inner).prepend
      (by decide : ['['].all isOuter)
  | .obj [], _, d, written => by
    obtain rfl := Option.some.inj written
    exact Spelled.outer (by simp only [Doc.text]; decide)
  | .obj (field :: rest), canonical, d, written => by
    obtain ⟨members, inner, rfl⟩ := Option.map_eq_some_iff.mp written
    exact (spelled_members (field :: rest) canonical.2 [] (Or.inl rfl) members inner).prepend
      (by decide : ['\x7b'].all isOuter)

theorem spelled_items : (items : List Value) → CanonicalItems rd items → (before : List Char) →
    before = [] ∨ before = [' '] → (out : Items) → printedItems before items = some out →
    Spelled (pointsItems items) out.text
  | [], _, _, _, out, written => by cases written
  | [v], canonical, before, blank, out, written => by
    obtain ⟨d, inner, rfl⟩ := Option.map_eq_some_iff.mp written
    have spelled := spelled_printed v canonical.1 d inner
    have text : (Items.last before d []).text = before ++ (d.text ++ [']']) := by
      simp [Items.text]
    rw [text, pointsItems, pointsItems, List.append_nil]
    exact (spelled.concat (by decide)).prepend (blank_outer blank)
  | v :: w :: rest, canonical, before, blank, out, written => by
    simp only [printedItems] at written
    split at written
    · case h_1 d items first tail =>
      obtain rfl := Option.some.inj written
      have spelled := spelled_printed v canonical.1 d first
      have others := spelled_items (w :: rest) canonical.2 [' '] (Or.inr rfl) items tail
      have text : (Items.more before d [] items).text =
          before ++ ((d.text ++ [',']) ++ items.text) := by simp [Items.text]
      rw [text, pointsItems]
      exact ((spelled.concat (by decide)).append others).prepend (blank_outer blank)
    · cases written

theorem spelled_members : (fields : List (List ℕ × Value)) → CanonicalFields rd fields →
    (before : List Char) → before = [] ∨ before = [' '] → (out : Members) →
    printedMembers before fields = some out → Spelled (pointsFields fields) out.text
  | [], _, _, _, out, written => by cases written
  | [(k, v)], canonical, before, blank, out, written => by
    simp only [printedMembers] at written
    split at written
    · case h_1 key d spelled inner =>
      obtain rfl := Option.some.inj written
      have value := spelled_printed v canonical.1 d inner
      have text : (Members.last ⟨before, key, [], [' ']⟩ d []).text =
          (MemberHead.text ⟨before, key, [], [' ']⟩ ++ d.text) ++ ['\x7d'] := by
        simp [Members.text]
      rw [text, pointsFields, pointsFields, List.append_nil]
      exact ((spelled_head blank spelled).append value).concat (by decide)
    · cases written
  | (k, v) :: field :: rest, canonical, before, blank, out, written => by
    simp only [printedMembers] at written
    split at written
    · case h_1 key d members spelled inner tail =>
      obtain rfl := Option.some.inj written
      have value := spelled_printed v canonical.1 d inner
      have others := spelled_members (field :: rest) canonical.2 [' '] (Or.inr rfl) members tail
      have text : (Members.more ⟨before, key, [], [' ']⟩ d [] members).text =
          ((MemberHead.text ⟨before, key, [], [' ']⟩ ++ d.text) ++ [',']) ++ members.text := by
        simp [Members.text]
      rw [text, pointsFields]
      exact (((spelled_head blank spelled).append value).concat (by decide)).append others
    · cases written

end

end Written

end Zhongzhuan.Kit.JsonDoc
