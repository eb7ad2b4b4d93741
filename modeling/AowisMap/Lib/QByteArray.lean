/-
Qt byte-array operations the modelled code reads and writes its headers
and metadata files with, on lists of bytes: `QByteArray::number`,
`toHex` and `fromHex`, `indexOf`, and `split` on a byte
(`List.splitOn`).

# What is printed is read back

`fromHex` skips what is no hexadecimal digit and pairs the rest from the
end, so it reads many texts; on what `toHex` printed it returns the
bytes (`fromHex_toHex`). A decimal number read digit by digit under an upper
bound is the number that was printed (`decimalUpTo_number`).
-/
import Mathlib.Algebra.Group.Nat.Defs
import Mathlib.Data.List.Basic
import Mathlib.Tactic.Push

namespace AowisMap.Lib.QByteArray

/-- The bytes of a text of one-byte characters. -/
def ascii (text : String) : List UInt8 :=
  text.toList.map fun c => c.toNat.toUInt8

-- ============================================================= numbers

/-- `QByteArray::number` of a number that is not negative, base ten. -/
def number (n : Nat) : List UInt8 :=
  (Nat.toDigits 10 n).map fun c => c.toNat.toUInt8

/-- Reads decimal digits behind those read so far, as long as the number
stays below a bound. -/
def decimalUpTo (bound : Nat) : List UInt8 → Nat → Option Nat
  | [], value => some value
  | digit :: rest, value =>
      if digit < 48 ∨ 57 < digit then none
      else if (bound - (digit.toNat - 48)) / 10 < value then none
      else decimalUpTo bound rest (value * 10 + (digit.toNat - 48))

-- ========================================================= hexadecimal

/-- The lower-case digit of a number below sixteen. -/
def hexDigit (n : Nat) : UInt8 :=
  if n < 10 then (48 + n).toUInt8 else (87 + n).toUInt8

/-- The number of a hexadecimal digit of either case. -/
def hexValue (digit : UInt8) : Option Nat :=
  if 48 ≤ digit ∧ digit ≤ 57 then some (digit.toNat - 48)
  else if 97 ≤ digit ∧ digit ≤ 102 then some (digit.toNat - 87)
  else if 65 ≤ digit ∧ digit ≤ 70 then some (digit.toNat - 55)
  else none

/-- `QByteArray::toHex`. -/
def toHex (bytes : List UInt8) : List UInt8 :=
  bytes.flatMap fun b => [hexDigit (b.toNat / 16), hexDigit (b.toNat % 16)]

/-- Bytes of hexadecimal digits, the last digit first. -/
def pairDigits : List Nat → List UInt8
  | [] => []
  | [low] => [low.toUInt8]
  | low :: high :: rest => (high * 16 + low).toUInt8 :: pairDigits rest

/-- `QByteArray::fromHex`. -/
def fromHex (text : List UInt8) : List UInt8 :=
  (pairDigits (text.filterMap hexValue).reverse).reverse

-- ============================================================= searches

/-- `QByteArray::indexOf` of a byte from a position on. -/
def indexOf (bytes : List UInt8) (byte : UInt8) (start : Nat) : Int :=
  match (bytes.drop start).idxOf? byte with
  | some i => start + i
  | none => -1

/-- `QByteArray::contains` of a byte string. -/
def contains (bytes pattern : List UInt8) : Bool :=
  bytes.tails.any fun rest => pattern.isPrefixOf rest

/-- `QByteArray::toLower`: the ASCII letters. -/
def lowered (bytes : List UInt8) : List UInt8 :=
  bytes.map fun b => if 65 ≤ b ∧ b ≤ 90 then b + 32 else b

/-- A byte is found from a position on if it stands there. -/
theorem indexOf_nonneg {bytes : List UInt8} {byte : UInt8} {start : Nat} :
    0 ≤ indexOf bytes byte start ↔ byte ∈ bytes.drop start := by
  unfold indexOf
  cases h : (bytes.drop start).idxOf? byte with
  | none =>
      have hnot := List.idxOf?_eq_none_iff.1 h
      simp only [hnot, iff_false]
      omega
  | some i =>
      have hmem : byte ∈ bytes.drop start := by
        by_contra hnot
        rw [List.idxOf?_eq_none_iff.2 hnot] at h
        cases h
      simp only [hmem, iff_true]
      omega

/-- The first place of a byte. -/
theorem indexOf_append {before rest : List UInt8} {byte : UInt8}
    (h : byte ∉ before) :
    indexOf (before ++ byte :: rest) byte 0 = before.length := by
  have hindex : (before ++ byte :: rest).idxOf? byte
      = some before.length := by
    rw [List.idxOf?_eq_some_iff]
    refine ⟨by simp, by simp, ?_⟩
    intro j hj hsame
    rw [List.getElem_append_left hj] at hsame
    exact h (hsame ▸ List.getElem_mem hj)
  unfold indexOf
  rw [List.drop_zero, hindex]
  simp

/-- A byte that is found first stands there, and not before. -/
theorem indexOf_inv {bytes : List UInt8} {byte : UInt8}
    (h : 0 ≤ indexOf bytes byte 0) :
    ∃ before rest, bytes = before ++ byte :: rest ∧ byte ∉ before ∧
      indexOf bytes byte 0 = before.length := by
  have hmem := indexOf_nonneg.1 h
  rw [List.drop_zero] at hmem
  obtain ⟨before, rest, hbytes, hbefore⟩ := List.eq_append_cons_of_mem hmem
  exact ⟨before, rest, hbytes, hbefore, hbytes ▸ indexOf_append hbefore⟩

-- ==================================================== numbers read back

theorem toNat_digit {c : Char} (h : c.isDigit) :
    c.toNat.toUInt8.toNat = c.toNat ∧ 48 ≤ c.toNat ∧ c.toNat ≤ 57 := by
  have hbounds : 48 ≤ c.toNat ∧ c.toNat ≤ 57 := by
    simp only [Char.isDigit, Bool.and_eq_true, decide_eq_true_eq,
      UInt32.le_iff_toNat_le, ge_iff_le] at h
    exact h
  refine ⟨?_, hbounds⟩
  simp only [Nat.toUInt8_eq, UInt8.toNat_ofNat']
  omega

/-- Reading on never makes a number smaller. -/
theorem le_ofDigitChars (cs : List Char) (value : Nat) :
    value ≤ Nat.ofDigitChars 10 cs value := by
  rw [Nat.ofDigitChars_eq_ofDigitChars_zero]
  have hpos : 0 < 10 ^ cs.length := Nat.pow_pos (by decide)
  have hle := Nat.le_mul_of_pos_left value hpos
  omega

/-- Digits are read as the number they show, if that is within the
bound. -/
theorem decimalUpTo_digits {bound : Nat} {cs : List Char}
    (hdigits : ∀ c ∈ cs, c.isDigit) {value : Nat}
    (hle : Nat.ofDigitChars 10 cs value ≤ bound) :
    decimalUpTo bound (cs.map fun c => c.toNat.toUInt8) value
      = some (Nat.ofDigitChars 10 cs value) := by
  induction cs generalizing value with
  | nil => simp [decimalUpTo]
  | cons c cs ih =>
      obtain ⟨hbyte, hlow, hhigh⟩ := toNat_digit (hdigits c (by simp))
      rw [Nat.ofDigitChars_cons] at hle ⊢
      have hstep := le_ofDigitChars cs (10 * value + (c.toNat - '0'.toNat))
      have hzero : '0'.toNat = 48 := rfl
      rw [List.map_cons, decimalUpTo, if_neg, if_neg]
      · rw [hbyte, Nat.mul_comm value 10]
        exact ih (fun d hd => hdigits d (List.mem_cons_of_mem c hd)) hle
      · rw [hbyte]
        omega
      · rw [UInt8.lt_iff_toNat_lt, UInt8.lt_iff_toNat_lt, hbyte]
        show ¬ (c.toNat < 48 ∨ 57 < c.toNat)
        omega

/-- A printed number reads back. -/
theorem decimalUpTo_number {bound n : Nat} (h : n ≤ bound) :
    decimalUpTo bound (number n) 0 = some n := by
  have hdigits : ∀ c ∈ Nat.toDigits 10 n, c.isDigit := fun c hc =>
    Nat.isDigit_of_mem_toDigits (by decide) (by decide) hc
  have hvalue := Nat.ofDigitChars_ten_toDigits (n := n)
  rw [number, decimalUpTo_digits hdigits (by omega), hvalue]

/-- Whether a byte is a decimal digit. -/
def isDigit (b : UInt8) : Bool := decide (48 ≤ b) && decide (b ≤ 57)

/-- The number that digits show behind those read so far. -/
def digitsValue (value : Nat) (bytes : List UInt8) : Nat :=
  bytes.foldl (fun value b => value * 10 + (b.toNat - 48)) value

theorem le_digitsValue (bytes : List UInt8) :
    ∀ value : Nat, value ≤ digitsValue value bytes := by
  induction bytes with
  | nil => exact fun value => Nat.le_refl value
  | cons b rest ih =>
      intro value
      have hstep := ih (value * 10 + (b.toNat - 48))
      show value ≤ digitsValue (value * 10 + (b.toNat - 48)) rest
      omega

/-- What is read under a bound: digits, as long as their number stays
within it. -/
theorem decimalUpTo_iff {bound : Nat} (hbound : 9 ≤ bound)
    {bytes : List UInt8} {result : Nat} :
    ∀ {value : Nat}, value ≤ bound →
      (decimalUpTo bound bytes value = some result ↔
        (∀ b ∈ bytes, isDigit b = true) ∧
          digitsValue value bytes = result ∧ result ≤ bound) := by
  induction bytes with
  | nil =>
      intro value hvalue
      constructor
      · intro h
        cases h
        exact ⟨fun b hb => absurd hb List.not_mem_nil, rfl, hvalue⟩
      · rintro ⟨-, rfl, -⟩
        rfl
  | cons b rest ih =>
      intro value hvalue
      have hdigit : isDigit b = true ↔ ¬(b < 48 ∨ 57 < b) := by
        unfold isDigit
        rw [Bool.and_eq_true, decide_eq_true_eq, decide_eq_true_eq, not_or,
          UInt8.not_lt, UInt8.not_lt]
      unfold decimalUpTo
      by_cases hb : b < 48 ∨ 57 < b
      · rw [if_pos hb]
        constructor
        · intro h
          cases h
        · rintro ⟨hall, -⟩
          exact absurd hb (hdigit.1 (hall b List.mem_cons_self))
      · have hlow : b.toNat - 48 ≤ 9 := by
          rw [not_or, UInt8.not_lt, UInt8.not_lt] at hb
          have hle := UInt8.le_iff_toNat_le.1 hb.2
          have h57 : (57 : UInt8).toNat = 57 := rfl
          omega
        rw [if_neg hb]
        by_cases hroom : (bound - (b.toNat - 48)) / 10 < value
        · rw [if_pos hroom]
          constructor
          · intro h
            cases h
          · rintro ⟨-, rfl, hle⟩
            have hgrow := le_digitsValue rest (value * 10 + (b.toNat - 48))
            have hsame : digitsValue value (b :: rest)
                = digitsValue (value * 10 + (b.toNat - 48)) rest := rfl
            omega
        · rw [if_neg hroom, ih (by omega), List.forall_mem_cons, hdigit]
          constructor
          · rintro ⟨hall, hresult⟩
            exact ⟨⟨hb, hall⟩, hresult⟩
          · rintro ⟨⟨-, hall⟩, hresult⟩
            exact ⟨hall, hresult⟩

theorem number_ne_nil (n : Nat) : number n ≠ [] := by
  simp [number, Nat.toDigits_ne_nil]

/-- A printed number holds only digits. -/
theorem mem_number {n : Nat} {b : UInt8} (h : b ∈ number n) :
    48 ≤ b.toNat ∧ b.toNat ≤ 57 := by
  obtain ⟨c, hc, rfl⟩ := List.mem_map.1 h
  obtain ⟨hbyte, hbounds⟩ := toNat_digit
    (Nat.isDigit_of_mem_toDigits (by decide) (by decide) hc)
  rw [hbyte]
  exact hbounds

/-- The number of digits printed. -/
theorem length_number_le {n k : Nat} (hk : 0 < k) (h : n < 10 ^ k) :
    (number n).length ≤ k := by
  rw [number, List.length_map]
  exact (Nat.length_toDigits_le_iff (by decide) hk).2 h

-- ================================================ hexadecimal read back

theorem hexValue_hexDigit : ∀ n < 16, hexValue (hexDigit n) = some n := by
  decide

theorem length_toHex (bytes : List UInt8) :
    (toHex bytes).length = 2 * bytes.length := by
  induction bytes with
  | nil => rfl
  | cons b bytes ih =>
      simp only [toHex, List.flatMap_cons, List.length_append,
        List.length_cons, List.length_nil] at ih ⊢
      omega

/-- The digits of printed bytes, from the last to the first. -/
theorem hexValues_toHex (bytes : List UInt8) :
    ((toHex bytes).filterMap hexValue).reverse
      = bytes.reverse.flatMap fun b => [b.toNat % 16, b.toNat / 16] := by
  induction bytes with
  | nil => rfl
  | cons b bytes ih =>
      have hb := b.toNat_lt
      have hhigh := hexValue_hexDigit (b.toNat / 16) (by omega)
      have hlow := hexValue_hexDigit (b.toNat % 16) (by omega)
      simp only [toHex, List.flatMap_cons, List.filterMap_append,
        List.reverse_append, List.reverse_cons, List.flatMap_append] at ih ⊢
      rw [ih]
      simp [hhigh, hlow]

theorem pairDigits_flatMap (bytes : List UInt8) :
    pairDigits (bytes.flatMap fun b => [b.toNat % 16, b.toNat / 16])
      = bytes := by
  induction bytes with
  | nil => rfl
  | cons b bytes ih =>
      have hb : (b.toNat / 16 * 16 + b.toNat % 16).toUInt8 = b := by
        rw [Nat.div_add_mod' b.toNat 16]
        simp
      simp [pairDigits, hb, ih]

/-- Printed bytes read back. -/
@[simp] theorem fromHex_toHex (bytes : List UInt8) :
    fromHex (toHex bytes) = bytes := by
  rw [fromHex, hexValues_toHex, pairDigits_flatMap, List.reverse_reverse]

/-- A printed text holds only digits and the letters up to `f`. -/
theorem mem_toHex {bytes : List UInt8} {b : UInt8} (h : b ∈ toHex bytes) :
    48 ≤ b.toNat := by
  have hdigit : ∀ n < 16, 48 ≤ (hexDigit n).toNat := by decide
  obtain ⟨c, -, hb⟩ := List.mem_flatMap.1 h
  have hc := c.toNat_lt
  simp only [List.mem_cons, List.not_mem_nil, or_false] at hb
  rcases hb with rfl | rfl
  · exact hdigit _ (by omega)
  · exact hdigit _ (by omega)

end AowisMap.Lib.QByteArray
