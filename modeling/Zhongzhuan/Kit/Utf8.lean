import Mathlib

/-!
# Decoding UTF-8 with replacement

A total UTF-8 decoder over byte lists.  Each scalar value of the input decodes to
`some` character; each maximal ill-formed subpart decodes to one `none`, which is how a
decoder that replaces errors places its U+FFFD.  A byte list is well formed when the
result has no `none`.  `encode` is the encoder, and `decode_encode` says that the two
belong together.

The second byte of a character is what separates overlong forms, surrogates and values
above U+10FFFF from the others, so a `Partial` character carries the range its next
byte must lie in.
-/

namespace Zhongzhuan.Kit.Utf8

/-- A character whose first bytes have been read: how many are still owed, the range of
the next one, and the bits so far. -/
structure Partial where
  owed : ℕ
  lo : ℕ
  hi : ℕ
  bits : ℕ
deriving DecidableEq, Repr

/-- What a byte means between two characters: the characters it completes and the one
it begins. -/
def lead (b : ℕ) : List (Option Char) × Option Partial :=
  if b ≤ 0x7F then ([some (Char.ofNat b)], none)
  else if b < 0xC2 then ([none], none)
  else if b ≤ 0xDF then ([], some ⟨1, 0x80, 0xBF, b - 0xC0⟩)
  else if b = 0xE0 then ([], some ⟨2, 0xA0, 0xBF, 0⟩)
  else if b = 0xED then ([], some ⟨2, 0x80, 0x9F, b - 0xE0⟩)
  else if b ≤ 0xEF then ([], some ⟨2, 0x80, 0xBF, b - 0xE0⟩)
  else if b = 0xF0 then ([], some ⟨3, 0x90, 0xBF, 0⟩)
  else if b ≤ 0xF3 then ([], some ⟨3, 0x80, 0xBF, b - 0xF0⟩)
  else if b = 0xF4 then ([], some ⟨3, 0x80, 0x8F, b - 0xF0⟩)
  else ([none], none)

/-- One byte.  A byte a partial character cannot take ends it as ill formed and is read
again as the first byte of the next one. -/
def step : Option Partial → ℕ → List (Option Char) × Option Partial
  | none, b => lead b
  | some p, b =>
      if p.lo ≤ b ∧ b ≤ p.hi then
        let bits := p.bits * 64 + (b - 0x80)
        if p.owed = 1 then ([some (Char.ofNat bits)], none)
        else ([], some ⟨p.owed - 1, 0x80, 0xBF, bits⟩)
      else (none :: (lead b).1, (lead b).2)

/-- Decode from a partial character; one cut off by the end is ill formed. -/
def decodeFrom : Option Partial → List UInt8 → List (Option Char)
  | none, [] => []
  | some _, [] => [none]
  | p, b :: bs => (step p b.toNat).1 ++ decodeFrom (step p b.toNat).2 bs

/-- Decode a byte list. -/
def decode (bs : List UInt8) : List (Option Char) := decodeFrom none bs

/-- The bytes are the UTF-8 form of some text. -/
def wellFormed (bs : List UInt8) : Bool := (decode bs).all Option.isSome

/-- The text, with U+FFFD for every ill-formed part. -/
def decodeReplacing (bs : List UInt8) : List Char :=
  (decode bs).map fun c => c.getD '\uFFFD'

example : decodeReplacing [0xE4, 0xBD, 0xA0, 0x21] = ['你', '!'] := by decide

example : decodeReplacing [0xE0, 0x80, 0xF0, 0x9F, 0x98, 0x41] =
    ['\uFFFD', '\uFFFD', '\uFFFD', 'A'] := by decide

/-! ## Encoding -/

/-- The UTF-8 form of a text. -/
def encode (text : List Char) : List UInt8 := text.flatMap String.utf8EncodeChar

@[simp] theorem encode_nil : encode [] = [] := rfl

theorem encode_append (text more : List Char) :
    encode (text ++ more) = encode text ++ encode more :=
  List.flatMap_append

theorem toNat_ofNat {n : ℕ} (small : n < 256) : (UInt8.ofNat n).toNat = n := by
  simp [Nat.mod_eq_of_lt small]

theorem decodeFrom_lead {n : ℕ} {p : Partial} (small : n < 256) (first : lead n = ([], some p))
    (bs : List UInt8) : decodeFrom none (UInt8.ofNat n :: bs) = decodeFrom (some p) bs := by
  rw [decodeFrom, toNat_ofNat small, step, first]
  rfl

theorem decodeFrom_last {p : Partial} {v : ℕ} (last : p.owed = 1)
    (inside : p.lo ≤ v % 0x40 + 0x80 ∧ v % 0x40 + 0x80 ≤ p.hi) (bs : List UInt8) :
    decodeFrom (some p) (UInt8.ofNat (v % 0x40 + 0x80) :: bs)
      = some (Char.ofNat (p.bits * 64 + v % 0x40)) :: decodeFrom none bs := by
  rw [decodeFrom, toNat_ofNat (by omega), step, if_pos inside, Nat.add_sub_cancel]
  dsimp only
  rw [if_pos last]
  rfl

theorem decodeFrom_more {p : Partial} {v : ℕ} (more : 1 < p.owed)
    (inside : p.lo ≤ v % 0x40 + 0x80 ∧ v % 0x40 + 0x80 ≤ p.hi) (bs : List UInt8) :
    decodeFrom (some p) (UInt8.ofNat (v % 0x40 + 0x80) :: bs)
      = decodeFrom (some ⟨p.owed - 1, 0x80, 0xBF, p.bits * 64 + v % 0x40⟩) bs := by
  rw [decodeFrom, toNat_ofNat (by omega), step, if_pos inside, Nat.add_sub_cancel]
  dsimp only
  rw [if_neg more.ne']
  rfl

theorem inside_full (v : ℕ) : 0x80 ≤ v % 0x40 + 0x80 ∧ v % 0x40 + 0x80 ≤ 0xBF := by omega

theorem lead_three {v : ℕ} (above : 0x7FF < v) (three : v ≤ 0xFFFF)
    (valid : v < 0xD800 ∨ 0xDFFF < v) :
    ∃ p, lead (v / 4096 % 0x10 + 0xE0) = ([], some p) ∧ p.owed = 2
      ∧ (p.lo ≤ v / 64 % 0x40 + 0x80 ∧ v / 64 % 0x40 + 0x80 ≤ p.hi) ∧ p.bits = v / 4096 := by
  unfold lead
  rw [if_neg (by omega), if_neg (by omega), if_neg (by omega)]
  split
  case isTrue _ => exact ⟨_, rfl, rfl, by dsimp only; omega, by dsimp only; omega⟩
  split
  case isTrue _ => exact ⟨_, rfl, rfl, by dsimp only; omega, by dsimp only; omega⟩
  rw [if_pos (by omega)]
  exact ⟨_, rfl, rfl, by dsimp only; omega, by dsimp only; omega⟩

theorem lead_four {v : ℕ} (above : 0xFFFF < v) (valid : v < 0x110000) :
    ∃ p, lead (v / 262144 % 0x08 + 0xF0) = ([], some p) ∧ p.owed = 3
      ∧ (p.lo ≤ v / 4096 % 0x40 + 0x80 ∧ v / 4096 % 0x40 + 0x80 ≤ p.hi)
      ∧ p.bits = v / 262144 := by
  unfold lead
  rw [if_neg (by omega), if_neg (by omega), if_neg (by omega), if_neg (by omega),
    if_neg (by omega), if_neg (by omega)]
  split
  case isTrue _ => exact ⟨_, rfl, rfl, by dsimp only; omega, by dsimp only; omega⟩
  split
  case isTrue _ => exact ⟨_, rfl, rfl, by dsimp only; omega, by dsimp only; omega⟩
  rw [if_pos (by omega)]
  exact ⟨_, rfl, rfl, by dsimp only; omega, by dsimp only; omega⟩

theorem decodeFrom_encodeChar (c : Char) (rest : List UInt8) :
    decodeFrom none (String.utf8EncodeChar c ++ rest) = some c :: decodeFrom none rest := by
  have whole : Char.ofNat c.val.toNat = c := Char.ofNat_toNat c
  have valid : c.val.toNat < 0xD800 ∨ 0xDFFF < c.val.toNat ∧ c.val.toNat < 0x110000 := c.valid
  unfold String.utf8EncodeChar
  revert whole valid
  generalize c.val.toNat = v
  intro whole valid
  dsimp only
  split
  case isTrue one =>
    rw [List.cons_append, List.nil_append, decodeFrom, toNat_ofNat (by omega), step, lead,
      if_pos one, whole]
    rfl
  split
  case isTrue _ two =>
    have first : lead (v / 64 % 0x20 + 0xC0) = ([], some ⟨1, 0x80, 0xBF, v / 64⟩) := by
      have bits : v / 64 % 0x20 + 0xC0 - 0xC0 = v / 64 := by omega
      rw [lead, if_neg (by omega), if_neg (by omega), if_pos (by omega), bits]
    have bits : v / 64 * 64 + v % 0x40 = v := by omega
    rw [List.cons_append, decodeFrom_lead (by omega) first, List.cons_append,
      decodeFrom_last rfl (inside_full v), bits, whole, List.nil_append]
  split
  case isTrue above three =>
    obtain ⟨p, first, owed, inside, bits⟩ := lead_three (by omega) three (by omega)
    have bits' : (v / 4096 * 64 + v / 64 % 0x40) * 64 + v % 0x40 = v := by omega
    rw [List.cons_append, decodeFrom_lead (by omega) first, List.cons_append,
      decodeFrom_more (by omega) inside, List.cons_append,
      decodeFrom_last (by simp [owed]) (inside_full v), bits, bits', whole, List.nil_append]
  case isFalse above =>
    obtain ⟨p, first, owed, inside, bits⟩ := lead_four (v := v) (by omega) (by omega)
    have bits' :
        ((v / 262144 * 64 + v / 4096 % 0x40) * 64 + v / 64 % 0x40) * 64 + v % 0x40 = v := by
      omega
    rw [List.cons_append, decodeFrom_lead (by omega) first, List.cons_append,
      decodeFrom_more (by omega) inside, List.cons_append,
      decodeFrom_more (by simp [owed]) (inside_full (v / 64)), List.cons_append,
      decodeFrom_last (by simp [owed]) (inside_full v), bits, bits', whole, List.nil_append]

@[simp] theorem decode_encode (text : List Char) : decode (encode text) = text.map some := by
  unfold decode encode
  induction text with
  | nil => rfl
  | cons c text ih => rw [List.flatMap_cons, decodeFrom_encodeChar, ih, List.map_cons]

@[simp] theorem decodeReplacing_encode (text : List Char) :
    decodeReplacing (encode text) = text := by
  simp [decodeReplacing]

theorem eq_of_mem_encodeChar {c : Char} {b : UInt8} (mem : b ∈ String.utf8EncodeChar c)
    (ascii : b.toNat < 0x80) : b.toNat = c.toNat := by
  have value : c.toNat = c.val.toNat := rfl
  unfold String.utf8EncodeChar at mem
  rw [value]
  revert mem
  generalize c.val.toNat = v
  intro mem
  dsimp only at mem
  split at mem
  case isTrue one =>
    rw [List.mem_singleton.mp mem, toNat_ofNat (by omega)]
  case isFalse _ =>
    have high : ∀ n < 256, 0x80 ≤ n → ¬ (UInt8.ofNat n).toNat < 0x80 := by
      intro n small large
      rw [toNat_ofNat small]
      omega
    exfalso
    split at mem
    case isTrue _ =>
      simp only [List.mem_cons, List.not_mem_nil, or_false] at mem
      rcases mem with rfl | rfl
      all_goals exact high _ (by omega) (by omega) ascii
    split at mem
    case isTrue _ =>
      simp only [List.mem_cons, List.not_mem_nil, or_false] at mem
      rcases mem with rfl | rfl | rfl
      all_goals exact high _ (by omega) (by omega) ascii
    case isFalse _ =>
      simp only [List.mem_cons, List.not_mem_nil, or_false] at mem
      rcases mem with rfl | rfl | rfl | rfl
      all_goals exact high _ (by omega) (by omega) ascii

end Zhongzhuan.Kit.Utf8
