import Zhongzhuan.Kit.Json

/-!
# The text of a JSON value

`json.dumps` escapes every control character inside a string, so that its result is one line
whatever the strings in the value are (`dumps_plain`).  The text of a float is kept as it is
written, and a value whose floats are written without line breaks is `Printed`.

`compactDumps` is `json.dumps(v, ensure_ascii=False, separators=(",", ":"))`.
-/

namespace Zhongzhuan.Kit

/-! ## Compact texts -/

mutual

/-- `json.dumps` without blanks after the separators. -/
def compactDumps : Json → String
  | .null => "null"
  | .bool b => if b then "true" else "false"
  | .int n => toString n
  | .float text => text
  | .str text => quote text
  | .arr items => "[" ++ compactItems items ++ "]"
  | .obj fields => "\x7b" ++ compactFields fields ++ "\x7d"

/-- The items of an array with their separators. -/
def compactItems : List Json → String
  | [] => ""
  | [v] => compactDumps v
  | v :: w :: rest => compactDumps v ++ "," ++ compactItems (w :: rest)

/-- The fields of an object with their separators. -/
def compactFields : List (String × Json) → String
  | [] => ""
  | [(k, v)] => quote k ++ ":" ++ compactDumps v
  | (k, v) :: f :: rest => quote k ++ ":" ++ compactDumps v ++ "," ++ compactFields (f :: rest)

end

/-! ## One line -/

/-- A text without line breaks. -/
def OneLine (text : List Char) : Prop := ∀ c ∈ text, c ≠ '\n' ∧ c ≠ '\r'

instance (text : List Char) : Decidable (OneLine text) :=
  inferInstanceAs (Decidable (∀ c ∈ text, _))

theorem oneLine_append {text more : List Char} :
    OneLine (text ++ more) ↔ OneLine text ∧ OneLine more := List.forall_mem_append

mutual

/-- Every float in the value is written in one line. -/
def Json.Printed : Json → Prop
  | .float text => OneLine text.toList
  | .arr items => Json.PrintedItems items
  | .obj fields => Json.PrintedFields fields
  | _ => True

/-- The items of an array. -/
def Json.PrintedItems : List Json → Prop
  | [] => True
  | v :: rest => v.Printed ∧ Json.PrintedItems rest

/-- The fields of an object. -/
def Json.PrintedFields : List (String × Json) → Prop
  | [] => True
  | (_, v) :: rest => v.Printed ∧ Json.PrintedFields rest

end

mutual

/-- Whether a value is printed can be decided. -/
def Json.decPrinted : (v : Json) → Decidable v.Printed
  | .null | .bool _ | .int _ | .str _ => isTrue trivial
  | .float text => inferInstanceAs (Decidable (OneLine text.toList))
  | .arr items => Json.decPrintedItems items
  | .obj fields => Json.decPrintedFields fields

/-- The items of an array. -/
def Json.decPrintedItems : (items : List Json) → Decidable (Json.PrintedItems items)
  | [] => isTrue trivial
  | v :: rest =>
    have := v.decPrinted
    have := Json.decPrintedItems rest
    inferInstanceAs (Decidable (v.Printed ∧ Json.PrintedItems rest))

/-- The fields of an object. -/
def Json.decPrintedFields : (fields : List (String × Json)) → Decidable (Json.PrintedFields fields)
  | [] => isTrue trivial
  | (_, v) :: rest =>
    have := v.decPrinted
    have := Json.decPrintedFields rest
    inferInstanceAs (Decidable (v.Printed ∧ Json.PrintedFields rest))

end

instance : DecidablePred Json.PrintedFields := Json.decPrintedFields

theorem digitChar_ne_break : ∀ n < 16, n.digitChar ≠ '\n' ∧ n.digitChar ≠ '\r' := by decide

theorem oneLine_hexPair {n : ℕ} (control : n < 32) : OneLine (hexPair n).toList := by
  intro c mem
  rw [hexPair, String.toList_ofList, List.mem_cons, List.mem_singleton] at mem
  rcases mem with rfl | rfl
  all_goals exact digitChar_ne_break _ (by omega)

theorem oneLine_escapeChar (c : Char) : OneLine (escapeChar c).toList := by
  unfold escapeChar
  split
  · simp [OneLine]
  split
  · simp [OneLine]
  split
  · simp [OneLine]
  split
  · simp [OneLine]
  split
  · simp [OneLine]
  split
  · simp [OneLine]
  split
  · simp [OneLine]
  rename_i _ _ notLf notCr _ _ _
  split
  case isTrue control =>
    rw [String.toList_append, oneLine_append]
    exact ⟨by simp [OneLine], oneLine_hexPair control⟩
  case isFalse _ =>
    intro d mem
    rw [Char.toString, String.toList_singleton, List.mem_singleton] at mem
    rw [mem]
    exact ⟨notLf, notCr⟩

theorem oneLine_join {texts : List String} (each : ∀ text ∈ texts, OneLine text.toList) :
    OneLine (String.join texts).toList := by
  rw [String.toList_join]
  intro c mem
  obtain ⟨text, inTexts, inText⟩ := List.mem_flatMap.mp mem
  exact each text inTexts c inText

theorem oneLine_quote (text : String) : OneLine (quote text).toList := by
  unfold quote
  rw [String.toList_append, String.toList_append, oneLine_append, oneLine_append]
  refine ⟨⟨by simp [OneLine], oneLine_join ?_⟩, by simp [OneLine]⟩
  intro escaped mem
  obtain ⟨c, -, rfl⟩ := List.mem_map.mp mem
  exact oneLine_escapeChar c

theorem oneLine_nat (n : ℕ) : OneLine n.repr.toList := by
  intro c mem
  rw [Nat.toList_repr] at mem
  have digit := Nat.isDigit_of_mem_toDigits (by decide) le_rfl mem
  constructor
  all_goals
    rintro rfl
    exact absurd digit (by decide)

theorem oneLine_int (n : ℤ) : OneLine (toString n).toList := by
  cases n with
  | ofNat n => exact oneLine_nat n
  | negSucc n =>
      show OneLine ("-" ++ n.succ.repr).toList
      rw [String.toList_append, oneLine_append]
      exact ⟨by simp [OneLine], oneLine_nat _⟩

mutual

theorem oneLine_dumps : (v : Json) → v.Printed → OneLine (dumps v).toList
  | .null, _ => by simp [dumps, OneLine]
  | .bool b, _ => by cases b <;> simp [dumps, OneLine]
  | .int n, _ => by rw [dumps]; exact oneLine_int n
  | .float text, printed => by rw [dumps]; exact printed
  | .str text, _ => by rw [dumps]; exact oneLine_quote text
  | .arr items, printed => by
      simp only [dumps, String.toList_append, oneLine_append]
      exact ⟨⟨by simp [OneLine], oneLine_dumpsItems items printed⟩, by simp [OneLine]⟩
  | .obj fields, printed => by
      simp only [dumps, String.toList_append, oneLine_append]
      exact ⟨⟨by simp [OneLine], oneLine_dumpsFields fields printed⟩, by simp [OneLine]⟩

theorem oneLine_dumpsItems :
    (items : List Json) → Json.PrintedItems items → OneLine (dumpsItems items).toList
  | [], _ => by simp [dumpsItems, OneLine]
  | [v], printed => by rw [dumpsItems]; exact oneLine_dumps v printed.1
  | v :: w :: rest, printed => by
      simp only [dumpsItems, String.toList_append, oneLine_append]
      exact ⟨⟨oneLine_dumps v printed.1, by simp [OneLine]⟩,
        oneLine_dumpsItems (w :: rest) printed.2⟩

theorem oneLine_dumpsFields :
    (fields : List (String × Json)) → Json.PrintedFields fields →
      OneLine (dumpsFields fields).toList
  | [], _ => by simp [dumpsFields, OneLine]
  | [(k, v)], printed => by
      simp only [dumpsFields, String.toList_append, oneLine_append]
      exact ⟨⟨oneLine_quote k, by simp [OneLine]⟩, oneLine_dumps v printed.1⟩
  | (k, v) :: f :: rest, printed => by
      simp only [dumpsFields, String.toList_append, oneLine_append]
      exact ⟨⟨⟨⟨oneLine_quote k, by simp [OneLine]⟩, oneLine_dumps v printed.1⟩,
        by simp [OneLine]⟩, oneLine_dumpsFields (f :: rest) printed.2⟩

end

end Zhongzhuan.Kit
