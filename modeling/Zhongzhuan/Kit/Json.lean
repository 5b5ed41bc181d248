import Mathlib

/-!
# JSON values as Python holds them

What `json.loads` returns and `json.dumps` takes.  An object is a `dict`: its fields stand
in insertion order, each key once.  A float is kept as the text `float.__repr__` gives for
it, since the modelled code only passes floats on.

* `Fields.get`, `Fields.put` are `d.get(k)` and `d[k] = v`; `Json.truthy` is `bool(v)`.
* `dumps` is `json.dumps(v, ensure_ascii=False)` with the default separators.
* `Loaded` is what a call of `json.loads` can do.  The parser itself stays a parameter of
  the code that calls it.
-/

namespace Zhongzhuan.Kit

/-- A JSON value. -/
inductive Json
  | null
  | bool (b : Bool)
  | int (n : ℤ)
  /-- Kept as the text `json.dumps` writes for it. -/
  | float (text : String)
  | str (text : String)
  | arr (items : List Json)
  | obj (fields : List (String × Json))
deriving Repr, Inhabited

namespace Json

mutual

/-- Equality of values is decidable. -/
def decEq : (a b : Json) → Decidable (a = b)
  | .null, .null => isTrue rfl
  | .bool a, .bool b => decidable_of_iff (a = b) (by simp)
  | .int a, .int b => decidable_of_iff (a = b) (by simp)
  | .float a, .float b => decidable_of_iff (a = b) (by simp)
  | .str a, .str b => decidable_of_iff (a = b) (by simp)
  | .arr as, .arr bs =>
    match decEqItems as bs with
    | isTrue h => isTrue (by rw [h])
    | isFalse h => isFalse (by simpa using h)
  | .obj as, .obj bs =>
    match decEqFields as bs with
    | isTrue h => isTrue (by rw [h])
    | isFalse h => isFalse (by simpa using h)
  | .null, .bool _ | .null, .int _ | .null, .float _ | .null, .str _ | .null, .arr _
  | .null, .obj _ | .bool _, .null | .bool _, .int _ | .bool _, .float _ | .bool _, .str _
  | .bool _, .arr _ | .bool _, .obj _ | .int _, .null | .int _, .bool _ | .int _, .float _
  | .int _, .str _ | .int _, .arr _ | .int _, .obj _ | .float _, .null | .float _, .bool _
  | .float _, .int _ | .float _, .str _ | .float _, .arr _ | .float _, .obj _ | .str _, .null
  | .str _, .bool _ | .str _, .int _ | .str _, .float _ | .str _, .arr _ | .str _, .obj _
  | .arr _, .null | .arr _, .bool _ | .arr _, .int _ | .arr _, .float _ | .arr _, .str _
  | .arr _, .obj _ | .obj _, .null | .obj _, .bool _ | .obj _, .int _ | .obj _, .float _
  | .obj _, .str _ | .obj _, .arr _ => isFalse nofun

/-- The items of two arrays. -/
def decEqItems : (as bs : List Json) → Decidable (as = bs)
  | [], [] => isTrue rfl
  | [], _ :: _ => isFalse nofun
  | _ :: _, [] => isFalse nofun
  | a :: as, b :: bs =>
    match decEq a b, decEqItems as bs with
    | isTrue h, isTrue h' => isTrue (by rw [h, h'])
    | isFalse h, _ => isFalse (by simp [h])
    | _, isFalse h => isFalse (by simp [h])

/-- The fields of two objects. -/
def decEqFields : (as bs : List (String × Json)) → Decidable (as = bs)
  | [], [] => isTrue rfl
  | [], _ :: _ => isFalse nofun
  | _ :: _, [] => isFalse nofun
  | (j, a) :: as, (k, b) :: bs =>
    match String.decEq j k, decEq a b, decEqFields as bs with
    | isTrue h, isTrue h', isTrue h'' => isTrue (by rw [h, h', h''])
    | isFalse h, _, _ => isFalse (by simp [h])
    | _, isFalse h, _ => isFalse (by simp [h])
    | _, _, isFalse h => isFalse (by simp [h])

end

instance : DecidableEq Json := decEq

/-- `bool(v)`: empty, zero and `None` are false. -/
def truthy : Json → Bool
  | .null => false
  | .bool b => b
  | .int n => n ≠ 0
  | .float text => text ≠ "0.0" && text ≠ "-0.0"
  | .str text => text ≠ ""
  | .arr items => !items.isEmpty
  | .obj fields => !fields.isEmpty

end Json

/-- The fields of an object, in insertion order. -/
abbrev Fields := List (String × Json)

namespace Fields

/-- `d.get(key)`. -/
def get (fields : Fields) (key : String) : Option Json := fields.lookup key

/-- `d[key] = v`: in place when the key is present, at the end otherwise. -/
def put (key : String) (v : Json) : Fields → Fields
  | [] => [(key, v)]
  | (k, w) :: rest => if k = key then (key, v) :: rest else (k, w) :: put key v rest

/-- The object without one of its fields. -/
def without (fields : Fields) (key : String) : Fields := fields.filter fun f => f.1 ≠ key

theorem get_put_of_ne {key other : String} (ne : other ≠ key) (v : Json) (fields : Fields) :
    (put key v fields).get other = fields.get other := by
  have miss : (other == key) = false := by simpa using ne
  unfold get
  induction fields with
  | nil => rw [put, List.lookup_cons, miss]
  | cons field rest ih =>
      obtain ⟨k, w⟩ := field
      unfold put
      split
      case isTrue same =>
        subst same
        rw [List.lookup_cons, List.lookup_cons, miss]
      case isFalse _ => rw [List.lookup_cons, List.lookup_cons, ih]

theorem get_put_self (key : String) (v : Json) (fields : Fields) :
    (put key v fields).get key = some v := by
  unfold get
  induction fields with
  | nil => simp [put]
  | cons field rest ih =>
      unfold put
      split
      case isTrue _ => simp
      case isFalse other =>
        have miss : (key == field.1) = false := by simpa using Ne.symm other
        rw [List.lookup_cons, miss]
        exact ih

end Fields

/-! ## Writing -/

/-- The two hexadecimal digits of a control character. -/
def hexPair (n : ℕ) : String :=
  String.ofList [Nat.digitChar (n / 16), Nat.digitChar (n % 16)]

/-- One character inside a JSON string. -/
def escapeChar (c : Char) : String :=
  if c = '"' then "\\\""
  else if c = '\\' then "\\\\"
  else if c = '\n' then "\\n"
  else if c = '\r' then "\\r"
  else if c = '\t' then "\\t"
  else if c.toNat = 8 then "\\b"
  else if c.toNat = 12 then "\\f"
  else if c.toNat < 32 then "\\u00" ++ hexPair c.toNat
  else c.toString

/-- A string with its quotes. -/
def quote (text : String) : String :=
  "\"" ++ String.join (text.toList.map escapeChar) ++ "\""

mutual

/-- `json.dumps(v, ensure_ascii=False)`. -/
def dumps : Json → String
  | .null => "null"
  | .bool b => if b then "true" else "false"
  | .int n => toString n
  | .float text => text
  | .str text => quote text
  | .arr items => "[" ++ dumpsItems items ++ "]"
  | .obj fields => "\x7b" ++ dumpsFields fields ++ "\x7d"

/-- The items of an array with their separators. -/
def dumpsItems : List Json → String
  | [] => ""
  | [v] => dumps v
  | v :: w :: rest => dumps v ++ ", " ++ dumpsItems (w :: rest)

/-- The fields of an object with their separators. -/
def dumpsFields : List (String × Json) → String
  | [] => ""
  | [(k, v)] => quote k ++ ": " ++ dumps v
  | (k, v) :: f :: rest => quote k ++ ": " ++ dumps v ++ ", " ++ dumpsFields (f :: rest)

end

/-! ## Reading -/

/-- What `json.loads` does with a string. -/
inductive Loaded
  | value (v : Json)
  /-- A `ValueError` or a `TypeError`, which every caller catches. -/
  | rejected
  /-- Any other exception (CPython: `RecursionError`), with the text
  `str(exc) or type(exc).__name__`. -/
  | raised (message : String)
deriving DecidableEq, Repr

end Zhongzhuan.Kit
