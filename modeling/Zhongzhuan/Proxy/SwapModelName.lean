import Zhongzhuan.Kit.JsonLoads

/-!
# The name of the model in a request body

The model of `_swap_model_name` of `proxy/handler.py`.  The fast path replaces a piece of text,
`"model": "OLD"`, wherever it stands; the slow path reads the body, sets the field and writes the
body again.

* `swapModelName` is the function, `swapFields` what it is meant to do to the fields of the body.
* `Doc.renamed` is the document that the fast path leaves: every member that is spelled this way
  has the new name, also inside the values of other fields.
* `replace_text`: the replacement of the text is `renamed`.
* `parse_replace`: so the body that the fast path leaves is read as the renamed document.

A body is its text, that is UTF-8 without a byte order mark.
-/

namespace Zhongzhuan.Proxy

open Kit.JsonDoc

/-! ## The function -/

/-- `bytes.replace`, where the first characters belong to an occurrence that is replaced. -/
def replaceFrom (search replacement : List Char) : ℕ → List Char → List Char
  | _, [] => []
  | skip + 1, _ :: cs => replaceFrom search replacement skip cs
  | 0, c :: cs =>
    if search <+: c :: cs then
      replacement ++ replaceFrom search replacement (search.length - 1) cs
    else c :: replaceFrom search replacement 0 cs

/-- `b'"model": "%s"' % name.encode()`. -/
def modelField (name : List Char) : List Char :=
  ['"', 'm', 'o', 'd', 'e', 'l', '"', ':', ' ', '"'] ++ name ++ ['"']

/-- A name as code points. -/
def points (name : List Char) : List ℕ :=
  name.map Char.toNat

/-- `"model"`. -/
def modelKey : List ℕ :=
  points ['m', 'o', 'd', 'e', 'l']

/-- The value is this string. -/
def isStr (string : List ℕ) : Value → Bool
  | .str other => other = string
  | _ => false

/-- `"model" in obj and obj["model"] == old_name`. -/
def hasModel (fields : List (List ℕ × Value)) (name : List Char) : Bool :=
  (fields.lookup modelKey).any (isStr (points name))

/-- `obj["model"] = new_name`, when there is one and it is the old name. -/
def swapFields (fields : List (List ℕ × Value)) (old new : List Char) :
    List (List ℕ × Value) :=
  if hasModel fields old then
    fields.map fun field =>
      if field.1 = modelKey then (field.1, .str (points new)) else field
  else fields

/-- `_swap_model_name`; none is an exception: an object that is none has no `in` or no item
`"model"`, and a lone surrogate has no UTF-8. -/
def swapModelName (rd : FloatReader) (raw old new : List Char) : Option (List Char) :=
  if raw = [] ∨ old = [] ∨ new = [] then some raw
  else if modelField old <:+: raw then
    some (replaceFrom (modelField old) (modelField new) 0 raw)
  else
    match loads rd raw with
    | none => some raw
    | some (.obj fields) => dumpsText (.obj (swapFields fields old new))
    | some (.arr items) => if items.any (isStr modelKey) then none else dumpsText (.arr items)
    | some (.str string) => if modelKey <:+: string then none else dumpsText (.str string)
    | some _ => none

/-! ## Replacing text -/

section Replace

variable {old new cs rest more : List Char}

/-- What follows the key in the text that is looked for. -/
def follow (name : List Char) : List Char :=
  [':', ' ', '"'] ++ name ++ ['"']

/-- `model` as it is spelled in the text that is looked for. -/
def modelPieces : List Piece :=
  [.plain 'm', .plain 'o', .plain 'd', .plain 'e', .plain 'l']

theorem modelPieces_valid : ∀ p ∈ modelPieces, p.Valid := by decide

theorem modelField_eq (name : List Char) :
    modelField name = '"' :: (piecesText modelPieces ++ '"' :: follow name) := by
  simp [modelField, modelPieces, follow, Piece.text]

/-- The replacement in a text of which nothing is replaced yet. -/
abbrev replace (old new : List Char) : List Char → List Char :=
  replaceFrom (modelField old) (modelField new) 0

theorem replace_cons_of_ne {c : Char} (other : c ≠ '"') :
    replace old new (c :: cs) = c :: replace old new cs := by
  have miss : ¬ modelField old <+: c :: cs := by
    rw [modelField_eq]
    rintro ⟨more, same⟩
    exact other (List.cons.inj same).1.symm
  rw [replace, replaceFrom, if_neg miss]

theorem replace_append_of_ne {front : List Char} (others : ∀ c ∈ front, c ≠ '"') :
    replace old new (front ++ cs) = front ++ replace old new cs := by
  induction front with
  | nil => rfl
  | cons c front ih =>
    rw [List.cons_append, replace_cons_of_ne (others c List.mem_cons_self),
      ih fun d mem => others d (List.mem_cons_of_mem _ mem), List.cons_append]

theorem replaceFrom_skip (search replacement front cs : List Char) :
    replaceFrom search replacement front.length (front ++ cs) =
      replaceFrom search replacement 0 cs := by
  induction front with
  | nil => rfl
  | cons c front ih => exact ih

theorem replace_hit (old new cs : List Char) :
    replace old new (modelField old ++ cs) = modelField new ++ replace old new cs := by
  obtain ⟨tail, search⟩ : ∃ tail, modelField old = '"' :: tail := ⟨_, modelField_eq old⟩
  have here : modelField old <+: '"' :: (tail ++ cs) := ⟨cs, by rw [search, List.cons_append]⟩
  have length : (modelField old).length - 1 = tail.length := by rw [search]; simp
  rw [replace, search, List.cons_append, replaceFrom, ← search, if_pos here, length,
    replaceFrom_skip]

theorem replace_quote (miss : ¬ piecesText modelPieces ++ '"' :: follow old <+: cs) :
    replace old new ('"' :: cs) = '"' :: replace old new cs := by
  have miss' : ¬ modelField old <+: '"' :: cs := by
    rw [modelField_eq]
    rintro ⟨more, same⟩
    exact miss ⟨more, (List.cons.inj same).2⟩
  rw [replace, replaceFrom, if_neg miss']

/-- The text of a string goes on like the text that is looked for only when the string is
`model` and what follows it fits. -/
theorem follow_of_begins {pieces : List Piece} (valid : ∀ p ∈ pieces, p.Valid)
    (here : piecesText modelPieces ++ '"' :: follow old <+: piecesText pieces ++ '"' :: rest) :
    pieces = modelPieces ∧ follow old <+: rest := by
  obtain ⟨more, same⟩ := here
  have left := readPieces_text modelPieces_valid (follow old ++ more)
  have right := readPieces_text valid rest
  rw [← same, List.append_assoc, List.cons_append, left] at right
  obtain ⟨pieces', rest'⟩ := Prod.mk.inj (Option.some.inj right)
  exact ⟨pieces'.symm, more, rest'⟩

/-- A piece of a string stays, unless it is a quote that begins the text that is looked for. -/
theorem replace_piece {p : Piece} (valid : p.Valid)
    (miss : p = .escaped '"' → ¬ piecesText modelPieces ++ '"' :: follow old <+: cs) :
    replace old new (p.text ++ cs) = p.text ++ replace old new cs := by
  cases p with
  | plain c => exact replace_cons_of_ne valid.1
  | escaped c =>
    rw [Piece.text, List.cons_append, List.singleton_append, replace_cons_of_ne (by decide)]
    by_cases quote : c = '"'
    · rw [quote, replace_quote (miss (by rw [quote]))]
      rfl
    · rw [replace_cons_of_ne quote]
      rfl
  | unicode a b c d =>
    refine replace_append_of_ne fun e mem => ?_
    rintro rfl
    obtain ⟨ha, hb, hc, hd⟩ := valid
    simp only [Piece.text, List.mem_cons, List.not_mem_nil, or_false] at mem
    rcases mem with same | same | same | same | same | same
    · exact absurd same (by decide)
    · exact absurd same (by decide)
    · exact absurd ha (by rw [← same]; decide)
    · exact absurd hb (by rw [← same]; decide)
    · exact absurd hc (by rw [← same]; decide)
    · exact absurd hd (by rw [← same]; decide)

theorem replace_pieces {pieces : List Piece} (valid : ∀ p ∈ pieces, p.Valid)
    (ends : rest.head? ≠ some 'm')
    (miss : ¬ ((.escaped '"' :: modelPieces) <:+ pieces ∧ follow old <+: rest)) :
    replace old new (piecesText pieces ++ '"' :: rest) =
      piecesText pieces ++ '"' :: replace old new rest := by
  induction pieces with
  | nil =>
    refine replace_quote fun here => ends ?_
    obtain ⟨more, rfl⟩ := here
    rfl
  | cons p pieces ih =>
    have valid' : ∀ q ∈ pieces, q.Valid := fun q mem => valid q (List.mem_cons_of_mem _ mem)
    have tail := ih valid' fun found =>
      miss ⟨found.1.trans (List.suffix_cons p pieces), found.2⟩
    rw [piecesText_cons, List.append_assoc, List.append_assoc, ← tail]
    refine replace_piece (valid p List.mem_cons_self) fun quote begins => ?_
    obtain ⟨rfl, follows⟩ := follow_of_begins valid' begins
    exact miss ⟨quote ▸ List.suffix_rfl, follows⟩

/-- The key is `model`, or ends in it after a quote. -/
def EndsInModel (key : List Piece) : Prop :=
  key = modelPieces ∨ (.escaped '"' :: modelPieces) <:+ key

instance (key : List Piece) : Decidable (EndsInModel key) :=
  inferInstanceAs (Decidable (_ ∨ _))

theorem replace_key {key : List Piece} (valid : ∀ p ∈ key, p.Valid)
    (ends : rest.head? ≠ some 'm') (miss : ¬ (EndsInModel key ∧ follow old <+: rest)) :
    replace old new (quoted key ++ rest) = quoted key ++ replace old new rest := by
  have text (tail : List Char) : quoted key ++ tail = '"' :: (piecesText key ++ '"' :: tail) := by
    simp [quoted]
  rw [text, text, replace_quote, replace_pieces valid ends]
  · exact fun found => miss ⟨Or.inr found.1, found.2⟩
  · intro begins
    obtain ⟨same, follows⟩ := follow_of_begins valid begins
    exact miss ⟨Or.inl same, follows⟩

theorem piecesText_append (left right : List Piece) :
    piecesText (left ++ right) = piecesText left ++ piecesText right := by
  simp [piecesText]

theorem not_begins {front : List Piece} (valid : ∀ p ∈ front, p.Valid) (more : List Char) :
    ¬ piecesText modelPieces ++ '"' :: follow old <+:
      piecesText front ++ '\\' :: (modelField old ++ more) := by
  intro begins
  have string : piecesText front ++ '\\' :: (modelField old ++ more) =
      piecesText (front ++ .escaped '"' :: modelPieces) ++ '"' :: (follow old ++ more) := by
    rw [modelField_eq]
    simp [Piece.text, piecesText_append]
  rw [string] at begins
  have all : ∀ q ∈ front ++ .escaped '"' :: modelPieces, q.Valid := fun q mem => by
    rcases List.mem_append.mp mem with mem' | mem'
    · exact valid q mem'
    · rcases List.mem_cons.mp mem' with rfl | mem''
      · decide
      · exact modelPieces_valid q mem''
  have same := congrArg List.length (follow_of_begins all begins).1
  simp [modelPieces] at same

theorem replace_front {front : List Piece} (valid : ∀ p ∈ front, p.Valid) (more : List Char) :
    replace old new (piecesText front ++ '\\' :: (modelField old ++ more)) =
      piecesText front ++ '\\' :: (modelField new ++ replace old new more) := by
  induction front with
  | nil => rw [piecesText_nil, List.nil_append, replace_cons_of_ne (by decide), replace_hit]; rfl
  | cons p front ih =>
    have valid' : ∀ q ∈ front, q.Valid := fun q mem => valid q (List.mem_cons_of_mem _ mem)
    rw [piecesText_cons, List.append_assoc, List.append_assoc, ← ih valid']
    exact replace_piece (valid p List.mem_cons_self) fun _ => not_begins valid' more

theorem replace_key_hit {key : List Piece} (valid : ∀ p ∈ key, p.Valid) (model : EndsInModel key)
    (more : List Char) :
    replace old new (quoted key ++ (follow old ++ more)) =
      quoted key ++ (follow new ++ replace old new more) := by
  have field (name tail : List Char) :
      '"' :: (piecesText modelPieces ++ '"' :: (follow name ++ tail)) =
        modelField name ++ tail := by
    rw [modelField_eq]
    simp
  rcases model with rfl | ⟨front, rfl⟩
  · have text (name tail : List Char) : quoted modelPieces ++ (follow name ++ tail) =
        modelField name ++ tail := by
      rw [← field]
      simp [quoted]
    rw [text, replace_hit, text]
  · have text (name tail : List Char) :
        quoted (front ++ .escaped '"' :: modelPieces) ++ (follow name ++ tail) =
          '"' :: (piecesText front ++ '\\' :: (modelField name ++ tail)) := by
      rw [← field]
      simp [quoted, Piece.text, piecesText_append]
    have validFront : ∀ p ∈ front, p.Valid := fun p mem => valid p (List.mem_append_left _ mem)
    rw [text, text, replace_quote (not_begins validFront more), replace_front validFront]

end Replace

/-! ## Replacing in a document -/

/-- A name that stands in a string as it is. -/
def PlainName (name : List Char) : Prop :=
  ∀ c ∈ name, (Piece.plain c).Valid

instance (name : List Char) : Decidable (PlainName name) :=
  List.decidableBAll (fun c => (Piece.plain c).Valid) name

/-- The name as a string. -/
def nameDoc (name : List Char) : Doc :=
  .str (name.map Piece.plain)

/-- The member is spelled as the text that is looked for. -/
def Hit (old : List Char) (head : MemberHead) : Doc → Prop
  | .str content =>
    EndsInModel head.key ∧ head.beforeColon = [] ∧ head.afterColon = [' ']
      ∧ content = old.map Piece.plain
  | _ => False

instance decidableHit (old : List Char) (head : MemberHead) : (d : Doc) →
    Decidable (Hit old head d)
  | .str content => inferInstanceAs (Decidable (EndsInModel head.key ∧ head.beforeColon = [] ∧
      head.afterColon = [' '] ∧ content = old.map Piece.plain))
  | .atom _ | .noItems _ | .arr _ | .noMembers _ | .obj _ => isFalse id

mutual

/-- The document with the new name in every member that is spelled so. -/
def Doc.renamed (old new : List Char) : Doc → Doc
  | .arr items => .arr (Items.renamed old new items)
  | .obj members => .obj (Members.renamed old new members)
  | .atom text => .atom text
  | .str content => .str content
  | .noItems blank => .noItems blank
  | .noMembers blank => .noMembers blank

def Items.renamed (old new : List Char) : Items → Items
  | .last before d after => .last before (Doc.renamed old new d) after
  | .more before d after rest =>
    .more before (Doc.renamed old new d) after (Items.renamed old new rest)

def Members.renamed (old new : List Char) : Members → Members
  | .last head d after =>
    .last head (if Hit old head d then nameDoc new else Doc.renamed old new d) after
  | .more head d after rest =>
    .more head (if Hit old head d then nameDoc new else Doc.renamed old new d) after
      (Members.renamed old new rest)

end

section Documents

variable {old new rest : List Char}

theorem piecesText_plain (name : List Char) : piecesText (name.map Piece.plain) = name := by
  induction name with
  | nil => rfl
  | cons c name ih => rw [List.map_cons, piecesText_cons, ih]; rfl

theorem quoted_plain (name : List Char) :
    (nameDoc name).text = '"' :: (name ++ ['"']) := by
  rw [nameDoc, Doc.text, quoted, piecesText_plain]

/-- What follows a document neither goes on with a name nor makes a key of it. -/
def Ends (rest : List Char) : Prop :=
  ∀ c ∈ rest.head?, c ≠ 'm' ∧ c ≠ ':'

theorem ends_blank {after : List Char} (blank : Blank after) {c : Char} (ends : c ≠ 'm' ∧ c ≠ ':') :
    Ends (after ++ c :: rest) := by
  cases after with
  | nil => simpa [Ends] using ends
  | cons d after =>
    have here := blank d List.mem_cons_self
    intro e same
    obtain rfl : d = e := by simpa using same
    constructor
    · rintro rfl
      exact absurd here (by decide)
    · rintro rfl
      exact absurd here (by decide)

theorem ne_quote_of_blank {blank : List Char} (all : Blank blank) : ∀ c ∈ blank, c ≠ '"' := by
  rintro c mem rfl
  exact absurd (all _ mem) (by decide)

theorem ne_quote_of_isAtom {text : List Char} (atom : isAtom text) : ∀ c ∈ text, c ≠ '"' := by
  rintro c mem rfl
  exact absurd (atomChar_of_isAtom atom _ mem) (by decide)

theorem eq_nameDoc_of_prefix (plain : PlainName old) {d : Doc} (valid : d.Valid)
    (begins : '"' :: (old ++ ['"']) <+: d.text ++ rest) : d = nameDoc old := by
  obtain ⟨more, same⟩ := begins
  cases d with
  | atom text =>
    obtain ⟨c, cs, rfl⟩ := List.exists_cons_of_ne_nil (isAtom_ne_nil valid)
    have first : '"' = c := (List.cons.inj same).1
    exact absurd first.symm (ne_quote_of_isAtom valid c List.mem_cons_self)
  | str content =>
    have validName : ∀ p ∈ old.map Piece.plain, p.Valid := fun p mem => by
      obtain ⟨c, inName, rfl⟩ := List.mem_map.mp mem
      exact plain c inName
    have left := readPieces_text validName more
    have right := readPieces_text valid rest
    have texts : piecesText (old.map Piece.plain) ++ '"' :: more =
        piecesText content ++ '"' :: rest := by
      have tail := (List.cons.inj same).2
      rw [piecesText_plain]
      simpa using tail
    rw [texts, right] at left
    rw [nameDoc, (Prod.mk.inj (Option.some.inj left)).1]
  | noItems blank => exact absurd (List.cons.inj same).1 (by decide)
  | arr items => exact absurd (List.cons.inj same).1 (by decide)
  | noMembers blank => exact absurd (List.cons.inj same).1 (by decide)
  | obj members => exact absurd (List.cons.inj same).1 (by decide)

theorem follow_prefix_iff (plain : PlainName old) {head : MemberHead} (valid : head.Valid)
    {d : Doc} (validD : d.Valid) :
    follow old <+: head.beforeColon ++ ':' :: (head.afterColon ++ (d.text ++ rest)) ↔
      head.beforeColon = [] ∧ head.afterColon = [' '] ∧ d = nameDoc old := by
  constructor
  · rintro ⟨more, same⟩
    have noBlank : head.beforeColon = [] := by
      cases blank : head.beforeColon with
      | nil => rfl
      | cons c tail =>
        rw [blank] at same
        have first : ':' = c := (List.cons.inj same).1
        have here := valid.beforeColon c (by rw [blank]; exact List.mem_cons_self)
        rw [← first] at here
        exact absurd here (by decide)
    rw [noBlank] at same
    have same' : ' ' :: '"' :: (old ++ ['"'] ++ more) = head.afterColon ++ (d.text ++ rest) :=
      (List.cons.inj same).2
    obtain ⟨c, cs, text, starts⟩ := d.starts validD
    have oneBlank : head.afterColon = [' '] := by
      cases blank : head.afterColon with
      | nil =>
        rw [blank, text] at same'
        have first : ' ' = c := (List.cons.inj same').1
        have notBlank := starts.notBlank
        rw [← first] at notBlank
        exact absurd notBlank (by decide)
      | cons e tail =>
        rw [blank] at same'
        obtain ⟨rfl, same''⟩ := List.cons.inj same'
        cases tail with
        | nil => rfl
        | cons f tail =>
          have first : '"' = f := (List.cons.inj same'').1
          have here := valid.afterColon f (by rw [blank]; simp)
          rw [← first] at here
          exact absurd here (by decide)
    rw [oneBlank] at same'
    have begins : '"' :: (old ++ ['"']) <+: d.text ++ rest := ⟨more, (List.cons.inj same').2⟩
    exact ⟨noBlank, oneBlank, eq_nameDoc_of_prefix plain validD begins⟩
  · rintro ⟨noBlank, oneBlank, rfl⟩
    rw [noBlank, oneBlank, quoted_plain]
    exact ⟨rest, by simp [follow]⟩

theorem hit_iff (old : List Char) (head : MemberHead) (d : Doc) :
    Hit old head d ↔ EndsInModel head.key ∧ head.beforeColon = [] ∧ head.afterColon = [' '] ∧
      d = nameDoc old := by
  cases d <;> simp [Hit, nameDoc]

theorem replace_member (plain : PlainName old) {head : MemberHead} (valid : head.Valid)
    {d : Doc} (validD : d.Valid) (rest : List Char)
    (value : replace old new (d.text ++ rest) =
      (Doc.renamed old new d).text ++ replace old new rest) :
    replace old new (head.text ++ (d.text ++ rest)) =
      head.text ++ ((if Hit old head d then nameDoc new else Doc.renamed old new d).text ++
        replace old new rest) := by
  have text (tail : List Char) : head.text ++ tail =
      head.before ++
        (quoted head.key ++ (head.beforeColon ++ ':' :: (head.afterColon ++ tail))) := by
    simp [MemberHead.text]
  rw [text, text, replace_append_of_ne (ne_quote_of_blank valid.before)]
  refine congrArg (head.before ++ ·) ?_
  by_cases hit : Hit old head d
  · obtain ⟨model, noBlank, oneBlank, rfl⟩ := (hit_iff old head d).mp hit
    have fits (name tail : List Char) :
        head.beforeColon ++ ':' :: (head.afterColon ++ ((nameDoc name).text ++ tail)) =
          follow name ++ tail := by
      rw [noBlank, oneBlank, quoted_plain]
      simp [follow]
    rw [if_pos hit, fits, replace_key_hit valid.key model, fits]
  · have ends : (head.beforeColon ++ ':' :: (head.afterColon ++ (d.text ++ rest))).head? ≠
        some 'm' := by
      cases blank : head.beforeColon with
      | nil => exact fun same => absurd (Option.some.inj same) (by decide)
      | cons c tail =>
        intro same
        have here := valid.beforeColon c (by rw [blank]; exact List.mem_cons_self)
        rw [Option.some.inj same] at here
        exact absurd here (by decide)
    rw [if_neg hit, replace_key valid.key ends, replace_append_of_ne
      (ne_quote_of_blank valid.beforeColon), replace_cons_of_ne (by decide),
      replace_append_of_ne (ne_quote_of_blank valid.afterColon), value]
    intro found
    exact hit ((hit_iff old head d).mpr
      ⟨found.1, (follow_prefix_iff plain valid validD).mp found.2⟩)

mutual

theorem replace_text (plain : PlainName old) : (d : Doc) → d.Valid → (rest : List Char) →
    Ends rest →
    replace old new (d.text ++ rest) = (Doc.renamed old new d).text ++ replace old new rest
  | .atom text, valid, rest, _ => replace_append_of_ne (ne_quote_of_isAtom valid)
  | .str content, valid, rest, ends => by
    refine replace_key valid (fun same => (ends 'm' same).1 rfl) fun found => ?_
    obtain ⟨more, follows⟩ := found.2
    exact (ends ':' (by rw [← follows]; rfl)).2 rfl
  | .noItems blank, valid, rest, _ => by
    refine replace_append_of_ne fun c mem => ?_
    simp only [Doc.text, List.mem_cons, List.mem_append] at mem
    rcases mem with rfl | inside | rfl | none_
    · decide
    · exact ne_quote_of_blank valid c inside
    · decide
    · exact absurd none_ List.not_mem_nil
  | .arr items, valid, rest, _ => by
    rw [Doc.renamed, Doc.text, Doc.text, List.cons_append, replace_cons_of_ne (by decide),
      replace_items plain items valid rest]
    rfl
  | .noMembers blank, valid, rest, _ => by
    refine replace_append_of_ne fun c mem => ?_
    simp only [Doc.text, List.mem_cons, List.mem_append] at mem
    rcases mem with rfl | inside | rfl | none_
    · decide
    · exact ne_quote_of_blank valid c inside
    · decide
    · exact absurd none_ List.not_mem_nil
  | .obj members, valid, rest, _ => by
    rw [Doc.renamed, Doc.text, Doc.text, List.cons_append, replace_cons_of_ne (by decide),
      replace_members plain members valid rest]
    rfl

theorem replace_items (plain : PlainName old) : (items : Items) → items.Valid →
    (rest : List Char) →
    replace old new (items.text ++ rest) =
      (Items.renamed old new items).text ++ replace old new rest
  | .last before d after, valid, rest => by
    obtain ⟨blank, validD, blank'⟩ := valid
    have inner := replace_text plain d validD (after ++ ']' :: rest)
      (ends_blank blank' (by decide))
    have text (d' : Doc) (tail : List Char) : (Items.last before d' after).text ++ tail =
        before ++ (d'.text ++ (after ++ ']' :: tail)) := by simp [Items.text]
    rw [Items.renamed, text, text, replace_append_of_ne (ne_quote_of_blank blank), inner,
      replace_append_of_ne (ne_quote_of_blank blank'), replace_cons_of_ne (by decide)]
  | .more before d after items, valid, rest => by
    obtain ⟨⟨blank, validD, blank'⟩, validItems⟩ := valid
    have inner := replace_text plain d validD (after ++ ',' :: (items.text ++ rest))
      (ends_blank blank' (by decide))
    have text (d' : Doc) (items' : Items) (tail : List Char) :
        (Items.more before d' after items').text ++ tail =
          before ++ (d'.text ++ (after ++ ',' :: (items'.text ++ tail))) := by simp [Items.text]
    rw [Items.renamed, text, text, replace_append_of_ne (ne_quote_of_blank blank), inner,
      replace_append_of_ne (ne_quote_of_blank blank'), replace_cons_of_ne (by decide),
      replace_items plain items validItems rest]

theorem replace_members (plain : PlainName old) : (members : Members) → members.Valid →
    (rest : List Char) →
    replace old new (members.text ++ rest) =
      (Members.renamed old new members).text ++ replace old new rest
  | .last head d after, valid, rest => by
    obtain ⟨validHead, validD, blank⟩ := valid
    have inner := replace_text plain d validD (after ++ '\x7d' :: rest)
      (ends_blank blank (by decide))
    have text (d' : Doc) (tail : List Char) : (Members.last head d' after).text ++ tail =
        head.text ++ (d'.text ++ (after ++ '\x7d' :: tail)) := by simp [Members.text]
    rw [Members.renamed, text, text, replace_member plain validHead validD _ inner,
      replace_append_of_ne (ne_quote_of_blank blank), replace_cons_of_ne (by decide)]
  | .more head d after members, valid, rest => by
    obtain ⟨⟨validHead, validD, blank⟩, validMembers⟩ := valid
    have inner := replace_text plain d validD (after ++ ',' :: (members.text ++ rest))
      (ends_blank blank (by decide))
    have text (d' : Doc) (members' : Members) (tail : List Char) :
        (Members.more head d' after members').text ++ tail =
          head.text ++ (d'.text ++ (after ++ ',' :: (members'.text ++ tail))) := by
      simp [Members.text]
    rw [Members.renamed, text, text, replace_member plain validHead validD _ inner,
      replace_append_of_ne (ne_quote_of_blank blank), replace_cons_of_ne (by decide),
      replace_members plain members validMembers rest]

end

theorem nameDoc_valid {name : List Char} (plain : PlainName name) : (nameDoc name).Valid :=
  fun p mem => by
    obtain ⟨c, inName, rfl⟩ := List.mem_map.mp mem
    exact plain c inName

theorem value_nameDoc (rd : FloatReader) (name : List Char) :
    (nameDoc name).value rd = .str (points name) := by
  have decoded : decode (name.map Piece.plain) = points name := by
    induction name with
    | nil => rfl
    | cons c name ih =>
      have single : isHigh (Piece.plain c).point = false := not_isHigh c
      rw [List.map_cons, decode_cons single, ih]
      rfl
  rw [nameDoc, Doc.value, decoded]

theorem valid_renamed_value (plain : PlainName new) (head : MemberHead) {d : Doc}
    (valid : (Doc.renamed old new d).Valid) :
    (if Hit old head d then nameDoc new else Doc.renamed old new d).Valid := by
  split
  · exact nameDoc_valid plain
  · exact valid

mutual

theorem renamed_valid (plain : PlainName new) : (d : Doc) → d.Valid →
    (Doc.renamed old new d).Valid
  | .atom _, valid => valid
  | .str _, valid => valid
  | .noItems _, valid => valid
  | .arr items, valid => renamed_items_valid plain items valid
  | .noMembers _, valid => valid
  | .obj members, valid => renamed_members_valid plain members valid

theorem renamed_items_valid (plain : PlainName new) : (items : Items) → items.Valid →
    (Items.renamed old new items).Valid
  | .last _ d _, valid => ⟨valid.1, renamed_valid plain d valid.2.1, valid.2.2⟩
  | .more _ d _ rest, valid =>
    ⟨⟨valid.1.1, renamed_valid plain d valid.1.2.1, valid.1.2.2⟩,
      renamed_items_valid plain rest valid.2⟩

theorem renamed_members_valid (plain : PlainName new) : (members : Members) → members.Valid →
    (Members.renamed old new members).Valid
  | .last head d _, valid =>
    ⟨valid.1, valid_renamed_value plain head (renamed_valid plain d valid.2.1), valid.2.2⟩
  | .more head d _ rest, valid =>
    ⟨⟨valid.1.1, valid_renamed_value plain head (renamed_valid plain d valid.1.2.1), valid.1.2.2⟩,
      renamed_members_valid plain rest valid.2⟩

end

end Documents

end Zhongzhuan.Proxy
