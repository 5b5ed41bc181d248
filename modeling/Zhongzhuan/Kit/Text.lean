import Mathlib

/-!
# Strings as Python has them

The few `str` operations the modelled code calls, on lists of characters: `isspace`,
`strip`, `isascii() and isdigit()`, `rpartition`, `in`, and `int` on a string of ASCII
digits with the limit CPython puts on its length; and the forms of some of them on strings.
-/

namespace Zhongzhuan.Kit

/-- `str.isspace` on one character. -/
def isSpace (c : Char) : Bool :=
  let n := c.toNat
  (9 ≤ n && n ≤ 13) || (28 ≤ n && n ≤ 32) || n == 0x85 || n == 0xA0 || n == 0x1680
    || (0x2000 ≤ n && n ≤ 0x200A) || n == 0x2028 || n == 0x2029 || n == 0x202F
    || n == 0x205F || n == 0x3000

/-- `str.strip` without an argument. -/
def strip (text : List Char) : List Char :=
  ((text.dropWhile isSpace).reverse.dropWhile isSpace).reverse

/-- An ASCII digit. -/
def isAsciiDigit (c : Char) : Bool := '0' ≤ c && c ≤ '9'

/-- `value.isascii() and value.isdigit()`; the empty string is not a number. -/
def isAsciiDigits (text : List Char) : Bool := !text.isEmpty && text.all isAsciiDigit

/-- The longest decimal string CPython's `int` converts. -/
def maxStrDigits : ℕ := 4300

/-- `int(text)` on ASCII digits; `none` is the `ValueError` for a string over the limit. -/
def intOfDigits (text : List Char) : Option ℕ :=
  if maxStrDigits < text.length then none
  else some (text.foldl (fun n c => 10 * n + (c.toNat - '0'.toNat)) 0)

/-- `text.rpartition(sep)` for a separator of one character that occurs in `text`: what
stands before and after the last occurrence. -/
def rpartition (sep : Char) (text : List Char) : List Char × List Char :=
  (((text.reverse.dropWhile (· ≠ sep)).drop 1).reverse,
    (text.reverse.takeWhile (· ≠ sep)).reverse)

/-- `word in text`. -/
def isInfix (word : List Char) : List Char → Bool
  | [] => word.isEmpty
  | c :: text => word.isPrefixOf (c :: text) || isInfix word text

/-- `text.strip()`. -/
def stripText (text : String) : String := String.ofList (strip text.toList)

/-- `text.lstrip()`. -/
def lstripText (text : String) : String := String.ofList (text.toList.dropWhile isSpace)

/-- `text.startswith(pre)`. -/
def startsWith (text pre : String) : Bool := pre.toList.isPrefixOf text.toList

/-- `text[n:]`. -/
def dropText (n : ℕ) (text : String) : String := String.ofList (text.toList.drop n)

end Zhongzhuan.Kit
