import Zhongzhuan.Kit.JsonDoc

/-!
# What a JSON text means

`Doc.value` is what `json.loads` makes of a document, and `printed` the document that
`json.dumps(v, ensure_ascii=False)` writes for a value.

* A string is the list of its code points.  A surrogate may stand in it that is not half of a
  pair, when it is spelled as an escape; then the string has no UTF-8 text.
* A number is kept as the text that is written for it.  What a float is written as is the
  parameter `FloatReader`.
* In an object a key stands where it came first, with what came last.
* `loads_dumpsText`: what is written for a value is read as this value.
-/

namespace Zhongzhuan.Kit.JsonDoc

/-! ## Values -/

/-- A JSON value. -/
inductive Value
  | null
  | bool (b : Bool)
  | number (text : List Char)
  | str (points : List ℕ)
  | arr (items : List Value)
  | obj (fields : List (List ℕ × Value))

/-- `repr(float(text))`: a float again, and read as the same float. -/
structure FloatReader where
  read : List Char → List Char
  isAtom : ∀ t, isAtom (read t)
  float : ∀ t, isFloatText (read t) ∨ read t ∈ namedNumbers
  again : ∀ t, read (read t) = read t

/-- A float as it was written. -/
def asWritten (t : List Char) : List Char :=
  if JsonDoc.isAtom t && isFloatText t then t else ['0', '.', '0']

theorem asWritten_isAtom (t : List Char) : JsonDoc.isAtom (asWritten t) := by
  unfold asWritten
  split
  · case isTrue both => exact (Bool.and_eq_true _ _ ▸ both).1
  · decide

theorem asWritten_float (t : List Char) :
    isFloatText (asWritten t) ∨ asWritten t ∈ namedNumbers := by
  unfold asWritten
  split
  · case isTrue both => exact Or.inl (Bool.and_eq_true _ _ ▸ both).2
  · exact Or.inl (by decide)

theorem asWritten_again (t : List Char) : asWritten (asWritten t) = asWritten t := by
  have atom := asWritten_isAtom t
  rcases asWritten_float t with float | named
  · exact if_pos (by rw [atom, float]; rfl)
  · unfold asWritten at named ⊢
    split at named
    · case isTrue both => rw [if_pos both, if_pos both]
    · exact absurd named (by decide)

/-- A reader that writes a float as it was written. -/
def FloatReader.verbatim : FloatReader where
  read := asWritten
  isAtom := asWritten_isAtom
  float := asWritten_float
  again := asWritten_again

def hexValue (c : Char) : ℕ :=
  if c.isDigit then c.toNat - 48 else if 'a' ≤ c then c.toNat - 87 else c.toNat - 55

/-- The code point behind a backslash. -/
def escapedPoint (c : Char) : ℕ :=
  if c = 'b' then 8
  else if c = 'f' then 12
  else if c = 'n' then 10
  else if c = 'r' then 13
  else if c = 't' then 9
  else c.toNat

def Piece.point : Piece → ℕ
  | plain c => c.toNat
  | escaped c => escapedPoint c
  | unicode a b c d =>
    ((hexValue a * 16 + hexValue b) * 16 + hexValue c) * 16 + hexValue d

/-- The first half of a surrogate pair. -/
def isHigh (n : ℕ) : Bool := 0xD800 ≤ n && n ≤ 0xDBFF

/-- The second half. -/
def isLow (n : ℕ) : Bool := 0xDC00 ≤ n && n ≤ 0xDFFF

/-- The code points of a string; two halves of a pair are one. -/
def decode : List Piece → List ℕ
  | [] => []
  | [p] => [p.point]
  | p :: q :: rest =>
    if isHigh p.point && isLow q.point then
      (0x10000 + (p.point - 0xD800) * 0x400 + (q.point - 0xDC00)) :: decode rest
    else p.point :: decode (q :: rest)

/-- The text that is written for a number. -/
def numberText (rd : FloatReader) (text : List Char) : List Char :=
  if text = ['-', '0'] then ['0']
  else if isIntText text || namedNumbers.contains text then text
  else rd.read text

def atomValue (rd : FloatReader) (text : List Char) : Value :=
  if text = ['n', 'u', 'l', 'l'] then .null
  else if text = ['t', 'r', 'u', 'e'] then .bool true
  else if text = ['f', 'a', 'l', 's', 'e'] then .bool false
  else .number (numberText rd text)

/-- A `dict` of pairs: a key stands where it came first, with what came last. -/
def toDict : List (List ℕ × Value) → List (List ℕ × Value)
  | [] => []
  | (k, v) :: rest =>
    (k, ((toDict rest).lookup k).getD v) :: (toDict rest).filter fun field => field.1 ≠ k

mutual

def Doc.value (rd : FloatReader) : Doc → Value
  | .atom text => atomValue rd text
  | .str content => .str (decode content)
  | .noItems _ => .arr []
  | .arr items => .arr (items.values rd)
  | .noMembers _ => .obj []
  | .obj members => .obj (toDict (members.fields rd))

def Items.values (rd : FloatReader) : Items → List Value
  | .last _ d _ => [d.value rd]
  | .more _ d _ rest => d.value rd :: rest.values rd

def Members.fields (rd : FloatReader) : Members → List (List ℕ × Value)
  | .last head d _ => [(decode head.key, d.value rd)]
  | .more head d _ rest => (decode head.key, d.value rd) :: rest.fields rd

end

/-- The keys of the members, as they come. -/
def Members.keys : Members → List (List ℕ)
  | .last head _ _ => [decode head.key]
  | .more head _ _ rest => decode head.key :: rest.keys

theorem keys_fields (rd : FloatReader) : (members : Members) →
    (members.fields rd).map Prod.fst = members.keys
  | .last _ _ _ => rfl
  | .more _ _ _ rest => by
    rw [Members.fields, List.map_cons, keys_fields rd rest]
    rfl

/-- `json.loads`. -/
def loads (rd : FloatReader) (cs : List Char) : Option Value :=
  (parse cs).map (Doc.value rd)

/-! ## Dictionaries with the same keys -/

section ToDict

variable {fields fields' : List (List ℕ × Value)} {k : List ℕ}

/-- The keys of a dictionary, which depend on the keys alone. -/
def toKeys : List (List ℕ) → List (List ℕ)
  | [] => []
  | k :: rest => k :: (toKeys rest).filter fun j => j ≠ k

theorem keys_filter (fields : List (List ℕ × Value)) (k : List ℕ) :
    (fields.filter fun field => field.1 ≠ k).map Prod.fst =
      (fields.map Prod.fst).filter fun j => j ≠ k := by
  rw [List.filter_map]
  rfl

theorem keys_toDict (fields : List (List ℕ × Value)) :
    (toDict fields).map Prod.fst = toKeys (fields.map Prod.fst) := by
  induction fields with
  | nil => rfl
  | cons field rest ih =>
    obtain ⟨k, v⟩ := field
    rw [toDict, List.map_cons, keys_filter, ih, List.map_cons, toKeys]

theorem mem_toKeys {keys : List (List ℕ)} : k ∈ toKeys keys ↔ k ∈ keys := by
  induction keys with
  | nil => rfl
  | cons j keys ih =>
    rw [toKeys, List.mem_cons, List.mem_cons, List.mem_filter, ih, decide_eq_true_eq]
    by_cases same : k = j
    · simp [same]
    · simp [same]

theorem nodup_toKeys (keys : List (List ℕ)) : (toKeys keys).Nodup := by
  induction keys with
  | nil => exact List.nodup_nil
  | cons k keys ih =>
    rw [toKeys, List.nodup_cons]
    exact ⟨fun mem => of_decide_eq_true (List.mem_filter.mp mem).2 rfl, ih.filter _⟩

theorem nodup_toDict (fields : List (List ℕ × Value)) :
    ((toDict fields).map Prod.fst).Nodup := by
  rw [keys_toDict]
  exact nodup_toKeys _

theorem absent_of_not_mem (absent : k ∉ fields.map Prod.fst) :
    fields.lookup k = none ∧ (fields.filter fun field => field.1 ≠ k) = fields := by
  constructor
  · rw [List.lookup_eq_none_iff]
    intro entry mem
    simpa using fun same : k = entry.1 => absent (List.mem_map.mpr ⟨entry, mem, same.symm⟩)
  · rw [List.filter_eq_self]
    intro entry mem
    simpa using fun same : entry.1 = k => absent (List.mem_map.mpr ⟨entry, mem, same⟩)

theorem exists_lookup (mem : k ∈ fields.map Prod.fst) : ∃ v, fields.lookup k = some v := by
  cases found : fields.lookup k with
  | some v => exact ⟨v, rfl⟩
  | none =>
    obtain ⟨entry, inside, same⟩ := List.mem_map.mp mem
    have other := List.lookup_eq_none_iff.mp found entry inside
    simp [same] at other

theorem eq_of_parts (keys : fields.map Prod.fst = fields'.map Prod.fst)
    (nodup : (fields.map Prod.fst).Nodup) (found : fields.lookup k = fields'.lookup k)
    (others : (fields.filter fun field => field.1 ≠ k) =
      fields'.filter fun field => field.1 ≠ k) : fields = fields' := by
  induction fields generalizing fields' with
  | nil => exact (List.map_eq_nil_iff.mp keys.symm).symm
  | cons field rest ih =>
    cases fields' with
    | nil => cases keys
    | cons field' rest' =>
      obtain ⟨j, v⟩ := field
      obtain ⟨j', v'⟩ := field'
      obtain ⟨rfl, keys'⟩ := List.cons.inj keys
      rw [List.map_cons, List.nodup_cons] at nodup
      by_cases same : j = k
      · subst same
        have absent' : j ∉ rest'.map Prod.fst := keys' ▸ nodup.1
        obtain rfl : v = v' := by simpa using found
        have left := (absent_of_not_mem nodup.1).2
        have right := (absent_of_not_mem absent').2
        simp only [ne_eq, decide_not, List.filter_cons, decide_true, Bool.not_true,
          Bool.false_eq_true, if_false] at others left right
        rw [left, right] at others
        rw [others]
      · have miss : (k == j) = false := by simpa using Ne.symm same
        simp only [List.lookup_cons, miss] at found
        simp only [ne_eq, decide_not, List.filter_cons, same, decide_false, Bool.not_false,
          if_true, List.cons.injEq, Prod.mk.injEq, true_and] at others
        obtain ⟨rfl, others'⟩ := others
        rw [ih keys' nodup.2 found (by simpa using others')]

/-- **When two dictionaries are equal**: a pair counts only when its key does not come again. -/
theorem toDict_cons_eq_iff {v v' : Value} (keys : fields.map Prod.fst = fields'.map Prod.fst) :
    toDict ((k, v) :: fields) = toDict ((k, v') :: fields') ↔
      (k ∈ fields.map Prod.fst ∨ v = v') ∧ toDict fields = toDict fields' := by
  have keys' : (toDict fields).map Prod.fst = (toDict fields').map Prod.fst := by
    rw [keys_toDict, keys_toDict, keys]
  have nodup := nodup_toDict fields
  simp only [toDict, List.cons.injEq, Prod.mk.injEq, true_and]
  by_cases again : k ∈ fields.map Prod.fst
  · have stored : k ∈ (toDict fields).map Prod.fst := by rwa [keys_toDict, mem_toKeys]
    obtain ⟨w, found⟩ := exists_lookup stored
    obtain ⟨w', found'⟩ := exists_lookup (keys' ▸ stored)
    constructor
    · rintro ⟨value, others⟩
      refine ⟨Or.inl again, eq_of_parts keys' nodup ?_ others⟩
      rw [found, found'] at value ⊢
      exact congrArg some value
    · rintro ⟨-, same⟩
      rw [← same, found]
      exact ⟨rfl, rfl⟩
  · have absent : k ∉ (toDict fields).map Prod.fst := by rwa [keys_toDict, mem_toKeys]
    obtain ⟨none_, all⟩ := absent_of_not_mem absent
    obtain ⟨none', all'⟩ := absent_of_not_mem (keys' ▸ absent)
    rw [none_, none', all, all']
    simp [again]

end ToDict

/-! ## Writing -/

/-- The character with a code point, unless it is half of a pair. -/
def charOf (n : ℕ) : Option Char :=
  if h : n.isValidChar then some (Char.ofNatAux n h) else none

/-- A character as `json.dumps` spells it. -/
def pieceOf (c : Char) : Piece :=
  if c = '"' then .escaped '"'
  else if c = '\\' then .escaped '\\'
  else if c = '\n' then .escaped 'n'
  else if c = '\r' then .escaped 'r'
  else if c = '\t' then .escaped 't'
  else if c.toNat = 8 then .escaped 'b'
  else if c.toNat = 12 then .escaped 'f'
  else if c.toNat < 32 then
    .unicode '0' '0' (Nat.digitChar (c.toNat / 16)) (Nat.digitChar (c.toNat % 16))
  else .plain c

/-- The spelling of a string, if it has a text. -/
def contentOf : List ℕ → Option (List Piece)
  | [] => some []
  | n :: rest =>
    match charOf n, contentOf rest with
    | some c, some content => some (pieceOf c :: content)
    | _, _ => none

mutual

/-- The document of a value; none when a string has no text. -/
def printed : Value → Option Doc
  | .null => some (.atom ['n', 'u', 'l', 'l'])
  | .bool true => some (.atom ['t', 'r', 'u', 'e'])
  | .bool false => some (.atom ['f', 'a', 'l', 's', 'e'])
  | .number text => some (.atom text)
  | .str points => (contentOf points).map .str
  | .arr [] => some (.noItems [])
  | .arr (v :: rest) => (printedItems [] (v :: rest)).map .arr
  | .obj [] => some (.noMembers [])
  | .obj (field :: rest) => (printedMembers [] (field :: rest)).map .obj

/-- The items, the first with these blanks in front and the others with one. -/
def printedItems (before : List Char) : List Value → Option Items
  | [] => none
  | [v] => (printed v).map fun d => .last before d []
  | v :: w :: rest =>
    match printed v, printedItems [' '] (w :: rest) with
    | some d, some items => some (.more before d [] items)
    | _, _ => none

def printedMembers (before : List Char) : List (List ℕ × Value) → Option Members
  | [] => none
  | [(k, v)] =>
    match contentOf k, printed v with
    | some key, some d => some (.last ⟨before, key, [], [' ']⟩ d [])
    | _, _ => none
  | (k, v) :: field :: rest =>
    match contentOf k, printed v, printedMembers [' '] (field :: rest) with
    | some key, some d, some members => some (.more ⟨before, key, [], [' ']⟩ d [] members)
    | _, _, _ => none

end

/-- `json.dumps(v, ensure_ascii=False).encode()`; none is a `UnicodeEncodeError`. -/
def dumpsText (v : Value) : Option (List Char) :=
  (printed v).map Doc.text

/-! ## What is written is read -/

section Written

variable {rd : FloatReader}

theorem not_isHigh (c : Char) : isHigh c.toNat = false := by
  have valid := c.valid
  simp only [isHigh, Bool.and_eq_false_iff, decide_eq_false_iff_not]
  rcases valid with low | high
  · left
    show ¬ 0xD800 ≤ c.val.toNat
    omega
  · right
    show ¬ c.val.toNat ≤ 0xDBFF
    omega

theorem decode_cons {p : Piece} (single : isHigh p.point = false) (rest : List Piece) :
    decode (p :: rest) = p.point :: decode rest := by
  cases rest with
  | nil => rfl
  | cons q rest => simp [decode, single]

theorem digitChar_small : ∀ n < 32,
    isHex (Nat.digitChar (n / 16)) ∧ isHex (Nat.digitChar (n % 16)) ∧
      hexValue (Nat.digitChar (n / 16)) * 16 + hexValue (Nat.digitChar (n % 16)) = n := by
  decide

theorem pieceOf_valid (c : Char) : (pieceOf c).Valid := by
  unfold pieceOf
  split
  · decide
  split
  · decide
  split
  · decide
  split
  · decide
  split
  · decide
  split
  · decide
  split
  · decide
  split
  · case isTrue control =>
    obtain ⟨first, second, -⟩ := digitChar_small _ control
    exact ⟨by decide, by decide, first, second⟩
  · case isFalse noQuote noSlash _ _ _ _ _ printable =>
    exact ⟨noQuote, noSlash, not_lt.mp printable⟩

theorem pieceOf_point (c : Char) : (pieceOf c).point = c.toNat := by
  unfold pieceOf
  split
  · case isTrue same => rw [same]; rfl
  split
  · case isTrue same => rw [same]; rfl
  split
  · case isTrue same => rw [same]; rfl
  split
  · case isTrue same => rw [same]; rfl
  split
  · case isTrue same => rw [same]; rfl
  split
  · case isTrue same => rw [same]; rfl
  split
  · case isTrue same => rw [same]; rfl
  split
  · case isTrue control =>
    obtain ⟨-, -, value⟩ := digitChar_small _ control
    have zero : hexValue '0' = 0 := by decide
    simpa [Piece.point, zero] using value
  · rfl

theorem decode_contentOf {points : List ℕ} {content : List Piece}
    (written : contentOf points = some content) :
    decode content = points ∧ ∀ p ∈ content, p.Valid := by
  induction points generalizing content with
  | nil =>
    obtain rfl := Option.some.inj written
    exact ⟨rfl, by simp⟩
  | cons n points ih =>
    simp only [contentOf] at written
    split at written
    · case h_1 c content' char tail =>
      obtain rfl := Option.some.inj written
      obtain ⟨rest, valid⟩ := ih tail
      have point : c.toNat = n := by
        unfold charOf at char
        split at char
        · obtain rfl := Option.some.inj char
          rfl
        · cases char
      have single : isHigh (pieceOf c).point = false := by
        rw [pieceOf_point]
        exact not_isHigh c
      refine ⟨by rw [decode_cons single, pieceOf_point, rest, point], fun p mem => ?_⟩
      rcases List.mem_cons.mp mem with rfl | mem'
      · exact pieceOf_valid c
      · exact valid p mem'
    · cases written

mutual

/-- Numbers as they are written, and no key twice. -/
def Value.Canonical (rd : FloatReader) : Value → Prop
  | .number text => isAtom text ∧ text ∉ names ∧ numberText rd text = text
  | .arr items => CanonicalItems rd items
  | .obj fields => (fields.map Prod.fst).Nodup ∧ CanonicalFields rd fields
  | _ => True

def CanonicalItems (rd : FloatReader) : List Value → Prop
  | [] => True
  | v :: rest => v.Canonical rd ∧ CanonicalItems rd rest

def CanonicalFields (rd : FloatReader) : List (List ℕ × Value) → Prop
  | [] => True
  | (_, v) :: rest => v.Canonical rd ∧ CanonicalFields rd rest

end

theorem toDict_of_nodup {fields : List (List ℕ × Value)} (nodup : (fields.map Prod.fst).Nodup) :
    toDict fields = fields := by
  induction fields with
  | nil => rfl
  | cons field rest ih =>
    obtain ⟨k, v⟩ := field
    rw [List.map_cons, List.nodup_cons] at nodup
    obtain ⟨none_, all⟩ := absent_of_not_mem nodup.1
    rw [toDict, ih nodup.2, none_, all]
    rfl

mutual

theorem value_printed : (v : Value) → v.Canonical rd → (d : Doc) → printed v = some d →
    d.Valid ∧ d.value rd = v
  | .null, _, d, written => by
    obtain rfl := Option.some.inj written
    exact ⟨by unfold Doc.Valid; decide, rfl⟩
  | .bool b, _, d, written => by
    cases b with
    | true =>
      obtain rfl := Option.some.inj written
      exact ⟨by unfold Doc.Valid; decide, rfl⟩
    | false =>
      obtain rfl := Option.some.inj written
      exact ⟨by unfold Doc.Valid; decide, rfl⟩
  | .number text, canonical, d, written => by
    obtain rfl := Option.some.inj written
    obtain ⟨atom, notName, same⟩ := canonical
    simp only [names, List.mem_cons, List.not_mem_nil, or_false, not_or] at notName
    refine ⟨atom, ?_⟩
    rw [Doc.value, atomValue, if_neg notName.1, if_neg notName.2.1, if_neg notName.2.2, same]
  | .str points, _, d, written => by
    obtain ⟨content, spelled, rfl⟩ := Option.map_eq_some_iff.mp written
    obtain ⟨back, valid⟩ := decode_contentOf spelled
    exact ⟨valid, by rw [Doc.value, back]⟩
  | .arr [], _, d, written => by
    obtain rfl := Option.some.inj written
    exact ⟨by simp [Doc.Valid, Blank], rfl⟩
  | .arr (v :: rest), canonical, d, written => by
    obtain ⟨items, inner, rfl⟩ := Option.map_eq_some_iff.mp written
    obtain ⟨valid, values⟩ := values_printed (v :: rest) canonical [] (by simp [Blank]) items inner
    exact ⟨valid, by rw [Doc.value, values]⟩
  | .obj [], _, d, written => by
    obtain rfl := Option.some.inj written
    exact ⟨by simp [Doc.Valid, Blank], rfl⟩
  | .obj (field :: rest), canonical, d, written => by
    obtain ⟨members, inner, rfl⟩ := Option.map_eq_some_iff.mp written
    obtain ⟨valid, fields⟩ :=
      fields_printed (field :: rest) canonical.2 [] (by simp [Blank]) members inner
    exact ⟨valid, by rw [Doc.value, fields, toDict_of_nodup canonical.1]⟩

theorem values_printed : (items : List Value) → CanonicalItems rd items → (before : List Char) →
    Blank before → (out : Items) → printedItems before items = some out →
    out.Valid ∧ out.values rd = items
  | [], _, _, _, out, written => by cases written
  | [v], canonical, before, blank, out, written => by
    obtain ⟨d, inner, rfl⟩ := Option.map_eq_some_iff.mp written
    obtain ⟨valid, value⟩ := value_printed v canonical.1 d inner
    exact ⟨⟨blank, valid, by simp [Blank]⟩, by rw [Items.values, value]⟩
  | v :: w :: rest, canonical, before, blank, out, written => by
    simp only [printedItems] at written
    split at written
    · case h_1 d items first tail =>
      obtain rfl := Option.some.inj written
      obtain ⟨valid, value⟩ := value_printed v canonical.1 d first
      obtain ⟨valid', values⟩ :=
        values_printed (w :: rest) canonical.2 [' '] (by simp [Blank, isBlank]) items tail
      exact ⟨⟨⟨blank, valid, by simp [Blank]⟩, valid'⟩, by rw [Items.values, value, values]⟩
    · cases written

theorem fields_printed : (fields : List (List ℕ × Value)) → CanonicalFields rd fields →
    (before : List Char) → Blank before → (out : Members) →
    printedMembers before fields = some out → out.Valid ∧ out.fields rd = fields
  | [], _, _, _, out, written => by cases written
  | [(k, v)], canonical, before, blank, out, written => by
    simp only [printedMembers] at written
    split at written
    · case h_1 key d spelled inner =>
      obtain rfl := Option.some.inj written
      obtain ⟨valid, value⟩ := value_printed v canonical.1 d inner
      obtain ⟨back, validKey⟩ := decode_contentOf spelled
      refine ⟨⟨⟨blank, validKey, by simp [Blank], by simp [Blank, isBlank]⟩, valid,
        by simp [Blank]⟩, ?_⟩
      rw [Members.fields, value, back]
    · cases written
  | (k, v) :: field :: rest, canonical, before, blank, out, written => by
    simp only [printedMembers] at written
    split at written
    · case h_1 key d members spelled inner tail =>
      obtain rfl := Option.some.inj written
      obtain ⟨valid, value⟩ := value_printed v canonical.1 d inner
      obtain ⟨back, validKey⟩ := decode_contentOf spelled
      obtain ⟨valid', fields⟩ :=
        fields_printed (field :: rest) canonical.2 [' '] (by simp [Blank, isBlank]) members tail
      refine ⟨⟨⟨⟨blank, validKey, by simp [Blank], by simp [Blank, isBlank]⟩, valid,
        by simp [Blank]⟩, valid'⟩, ?_⟩
      rw [Members.fields, value, back, fields]
    · cases written

end

theorem loads_dumpsText {v : Value} (canonical : v.Canonical rd) {cs : List Char}
    (written : dumpsText v = some cs) : loads rd cs = some v := by
  obtain ⟨d, inner, rfl⟩ := Option.map_eq_some_iff.mp written
  obtain ⟨valid, value⟩ := value_printed v canonical d inner
  have read : parse d.text = some d :=
    parse_eq_some_iff.mpr ⟨valid, [], [], by simp [Blank], by simp [Blank], by simp⟩
  rw [loads, read, Option.map_some, value]

/-! ## What is read can be written -/

theorem numberText_canonical {text : List Char} (atom : isAtom text) (notName : text ∉ names) :
    isAtom (numberText rd text) ∧ numberText rd text ∉ names ∧
      numberText rd (numberText rd text) = numberText rd text := by
  unfold numberText
  split
  · exact ⟨by decide, by decide, rfl⟩
  · case isFalse notZero =>
    split
    · exact ⟨atom, notName, rfl⟩
    · refine ⟨rd.isAtom text, ?_, ?_⟩
      · -- a float is none of the names
        intro isName
        simp only [names, List.mem_cons, List.not_mem_nil, or_false] at isName
        have float := rd.float text
        rcases isName with same | same | same
        all_goals
          rw [same] at float
          exact absurd float (by decide)
      · have other : rd.read text ≠ ['-', '0'] := by
          intro same
          have float := rd.float text
          rw [same] at float
          exact absurd float (by decide)
        rw [if_neg other]
        split
        · rfl
        · exact rd.again text

theorem atomValue_canonical {text : List Char} (atom : isAtom text) :
    (atomValue rd text).Canonical rd := by
  unfold atomValue
  split
  · trivial
  split
  · trivial
  split
  · trivial
  · case isFalse notNull notTrue notFalse =>
    refine numberText_canonical atom ?_
    simp [names, notNull, notTrue, notFalse]

theorem canonicalFields_iff {fields : List (List ℕ × Value)} :
    CanonicalFields rd fields ↔ ∀ field ∈ fields, field.2.Canonical rd := by
  induction fields with
  | nil => simp [CanonicalFields]
  | cons field rest ih => simp [CanonicalFields, ih]

theorem mem_of_lookup {fields : List (List ℕ × Value)} {k : List ℕ} {v : Value}
    (found : fields.lookup k = some v) : (k, v) ∈ fields := by
  obtain ⟨front, back, rfl, -⟩ := List.lookup_eq_some_iff.mp found
  simp

theorem toDict_canonical {fields : List (List ℕ × Value)}
    (each : ∀ field ∈ fields, field.2.Canonical rd) :
    ∀ field ∈ toDict fields, field.2.Canonical rd := by
  induction fields with
  | nil => simp [toDict]
  | cons field rest ih =>
    obtain ⟨k, v⟩ := field
    have each' := ih fun field mem => each field (List.mem_cons_of_mem _ mem)
    intro field mem
    rw [toDict] at mem
    rcases List.mem_cons.mp mem with rfl | mem'
    · cases found : (toDict rest).lookup k with
      | none => exact each (k, v) List.mem_cons_self
      | some w => exact each' (k, w) (mem_of_lookup found)
    · exact each' field (List.mem_filter.mp mem').1

mutual

theorem canonical_value : (d : Doc) → d.Valid → (d.value rd).Canonical rd
  | .atom text, valid => atomValue_canonical valid
  | .str _, _ => trivial
  | .noItems _, _ => trivial
  | .arr items, valid => canonical_values items valid
  | .noMembers _, _ => ⟨List.nodup_nil, trivial⟩
  | .obj members, valid => by
    have each := toDict_canonical (canonical_fields members valid)
    exact ⟨nodup_toDict _, canonicalFields_iff.mpr each⟩

theorem canonical_values : (items : Items) → items.Valid → CanonicalItems rd (items.values rd)
  | .last _ d _, valid => ⟨canonical_value d valid.2.1, trivial⟩
  | .more _ d _ rest, valid => ⟨canonical_value d valid.1.2.1, canonical_values rest valid.2⟩

theorem canonical_fields : (members : Members) → members.Valid →
    ∀ field ∈ members.fields rd, field.2.Canonical rd
  | .last _ d _, valid => by
    intro field mem
    rw [List.mem_singleton.mp mem]
    exact canonical_value d valid.2.1
  | .more _ d _ rest, valid => by
    intro field mem
    rcases List.mem_cons.mp mem with rfl | mem'
    · exact canonical_value d valid.1.2.1
    · exact canonical_fields rest valid.2 field mem'

end

end Written

/-! ## What has a text -/

mutual

/-- No string in the value has half of a surrogate pair. -/
def Value.Encodable : Value → Prop
  | .str points => ∀ n ∈ points, (charOf n).isSome
  | .arr items => EncodableItems items
  | .obj fields => EncodableFields fields
  | _ => True

def EncodableItems : List Value → Prop
  | [] => True
  | v :: rest => v.Encodable ∧ EncodableItems rest

def EncodableFields : List (List ℕ × Value) → Prop
  | [] => True
  | (k, v) :: rest => ((∀ n ∈ k, (charOf n).isSome) ∧ v.Encodable) ∧ EncodableFields rest

end

theorem contentOf_isSome (points : List ℕ) :
    (contentOf points).isSome ↔ ∀ n ∈ points, (charOf n).isSome := by
  induction points with
  | nil => simp [contentOf]
  | cons n points ih =>
    rw [List.forall_mem_cons, ← ih, contentOf]
    cases charOf n <;> cases contentOf points <;> simp

mutual

theorem printed_isSome : (v : Value) → ((printed v).isSome ↔ v.Encodable)
  | .null => by simp [printed, Value.Encodable]
  | .bool b => by cases b <;> simp [printed, Value.Encodable]
  | .number _ => by simp [printed, Value.Encodable]
  | .str points => by
    rw [printed, Option.isSome_map, contentOf_isSome, Value.Encodable]
  | .arr [] => by simp [printed, Value.Encodable, EncodableItems]
  | .arr (v :: rest) => by
    rw [printed, Option.isSome_map, Value.Encodable]
    exact printedItems_isSome [] (v :: rest) (List.cons_ne_nil v rest)
  | .obj [] => by simp [printed, Value.Encodable, EncodableFields]
  | .obj (field :: rest) => by
    rw [printed, Option.isSome_map, Value.Encodable]
    exact printedMembers_isSome [] (field :: rest) (List.cons_ne_nil field rest)

theorem printedItems_isSome (before : List Char) : (items : List Value) → items ≠ [] →
    ((printedItems before items).isSome ↔ EncodableItems items)
  | [], some_ => absurd rfl some_
  | [v], _ => by
    rw [printedItems, Option.isSome_map, printed_isSome v]
    simp [EncodableItems]
  | v :: w :: rest, _ => by
    rw [EncodableItems, ← printed_isSome v,
      ← printedItems_isSome [' '] (w :: rest) (List.cons_ne_nil w rest), printedItems]
    cases printed v <;> cases printedItems [' '] (w :: rest) <;> simp

theorem printedMembers_isSome (before : List Char) : (fields : List (List ℕ × Value)) →
    fields ≠ [] → ((printedMembers before fields).isSome ↔ EncodableFields fields)
  | [], some_ => absurd rfl some_
  | [(k, v)], _ => by
    rw [EncodableFields, ← contentOf_isSome, ← printed_isSome v, printedMembers]
    cases contentOf k <;> cases printed v <;> simp [EncodableFields]
  | (k, v) :: field :: rest, _ => by
    rw [EncodableFields, ← contentOf_isSome, ← printed_isSome v,
      ← printedMembers_isSome [' '] (field :: rest) (List.cons_ne_nil field rest), printedMembers]
    cases contentOf k <;> cases printed v <;> cases printedMembers [' '] (field :: rest) <;> simp

end

end Zhongzhuan.Kit.JsonDoc
