/-
`QString::toUtf8` and `QString::fromUtf8` on lists of characters and
bytes.

`fromUtf8` never fails: a byte order mark at the start is dropped and
whatever is no UTF-8 sequence becomes a replacement character. A text of
ASCII characters is therefore decoded from its own bytes, or from those
bytes behind a byte order mark; comparing the lengths tells the two apart
(`fromUtf8_ascii`).
-/
import Mathlib.Data.List.Basic

namespace AowisMap.Lib.Utf8

/-- `QString::toUtf8`. -/
def toUtf8 (text : List Char) : List UInt8 :=
  text.flatMap String.utf8EncodeChar

/-- The payload of a continuation byte. -/
def continuation (b : UInt8) : Option Nat :=
  if 128 ≤ b ∧ b < 192 then some (b.toNat - 128) else none

/-- A character that is encoded in its shortest form and is no
surrogate. -/
def character (least n : Nat) : Option Char :=
  if least ≤ n ∧ n < 0x110000 ∧ (n < 0xD800 ∨ 0xE000 ≤ n) then
    some (Char.ofNat n)
  else none

/-- The sequence of several bytes that starts with `b`: its character and
the number of bytes behind `b`. -/
def sequence (b : UInt8) (rest : List UInt8) : Option (Char × Nat) :=
  match b.toNat / 32, rest.map continuation with
  | 6, some c₁ :: _ =>
      (character 0x80 (b.toNat % 32 * 64 + c₁)).map fun c => (c, 1)
  | 7, some c₁ :: some c₂ :: more =>
      if b < 0xF0 then
        (character 0x800 (b.toNat % 16 * 4096 + c₁ * 64 + c₂)).map
          fun c => (c, 2)
      else match more with
        | some c₃ :: _ =>
            (character 0x10000 ((b.toNat - 0xF0) * 262144 + c₁ * 4096
              + c₂ * 64 + c₃)).map fun c => (c, 3)
        | _ => none
  | _, _ => none

/-- Decodes from the start of a sequence; the first argument counts the
bytes of a decoded sequence still to be skipped. -/
def decode : Nat → List UInt8 → List Char
  | _, [] => []
  | skip + 1, _ :: rest => decode skip rest
  | 0, b :: rest =>
      if b < 128 then Char.ofNat b.toNat :: decode 0 rest
      else match sequence b rest with
        | some (c, behind) => c :: decode behind rest
        | none => Char.ofNat 0xFFFD :: decode 0 rest

/-- `QString::fromUtf8`. -/
def fromUtf8 (bytes : List UInt8) : List Char :=
  if [0xEF, 0xBB, 0xBF].isPrefixOf bytes then decode 0 (bytes.drop 3)
  else decode 0 bytes

-- ================================================================ ASCII

/-- A character of one byte. -/
def IsAscii (c : Char) : Prop := c.toNat < 128

theorem utf8EncodeChar_ascii {c : Char} (h : IsAscii c) :
    String.utf8EncodeChar c = [c.toNat.toUInt8] := by
  have hle : c.val.toNat ≤ 0x7f := Nat.lt_succ_iff.1 h
  simp only [String.utf8EncodeChar, if_pos hle]
  rfl

/-- The bytes of an ASCII text, one for each character. -/
theorem toUtf8_ascii {text : List Char} (h : ∀ c ∈ text, IsAscii c) :
    toUtf8 text = text.map fun c => c.toNat.toUInt8 := by
  induction text with
  | nil => rfl
  | cons c text ih =>
      have hrest := ih fun d hd => h d (List.mem_cons_of_mem c hd)
      simp only [toUtf8] at hrest
      simp only [toUtf8, List.flatMap_cons, hrest,
        utf8EncodeChar_ascii (h c List.mem_cons_self), List.map_cons]
      rfl

/-- A character whose bytes are all below 128 is ASCII. -/
theorem isAscii_of_bytes {c : Char}
    (h : ∀ b ∈ String.utf8EncodeChar c, b < 128) : IsAscii c := by
  by_contra hc
  have hbig : ¬ c.val.toNat ≤ 0x7f := fun hle => hc (Nat.lt_succ_iff.2 hle)
  have hlead : ∀ n : Nat, n % 64 + 128 < 256 ∧ 128 ≤ n % 64 + 128 := by
    intro n
    omega
  have hlast : (UInt8.ofNat (c.val.toNat % 64 + 128))
      ∈ String.utf8EncodeChar c := by
    simp only [String.utf8EncodeChar, if_neg hbig]
    split
    · simp
    · split
      · simp
      · simp
  have hlt := h _ hlast
  rw [UInt8.lt_iff_toNat_lt, UInt8.toNat_ofNat'] at hlt
  have hbound := hlead c.val.toNat
  have hmod : (c.val.toNat % 64 + 128) % 2 ^ 8 = c.val.toNat % 64 + 128 :=
    Nat.mod_eq_of_lt hbound.1
  rw [hmod] at hlt
  have h128 : (128 : UInt8).toNat = 128 := rfl
  omega

theorem toNat_ofNat {n : Nat} (h : n.isValidChar) :
    (Char.ofNat n).toNat = n := by
  unfold Char.ofNat
  rw [dif_pos h]
  rfl

theorem toNat_ofNat_ascii {n : Nat} (h : n < 128) :
    (Char.ofNat n).toNat = n :=
  toNat_ofNat (Or.inl (by omega))

/-- Decoding an ASCII text. -/
theorem decode_ascii {text : List Char} (h : ∀ c ∈ text, IsAscii c) :
    decode 0 (text.map fun c => c.toNat.toUInt8) = text := by
  induction text with
  | nil => rfl
  | cons c text ih =>
      have hc : c.toNat < 128 := h c List.mem_cons_self
      have hbyte : c.toNat.toUInt8.toNat = c.toNat := by
        simp only [Nat.toUInt8_eq, UInt8.toNat_ofNat']
        omega
      have hlt : c.toNat.toUInt8 < 128 := by
        rw [UInt8.lt_iff_toNat_lt, hbyte]
        exact hc
      rw [List.map_cons, decode, if_pos hlt, hbyte,
        ih fun d hd => h d (List.mem_cons_of_mem c hd), Char.ofNat_toNat]

/-- A decoded sequence is no ASCII character. -/
theorem not_isAscii_of_sequence {b : UInt8} {rest : List UInt8} {c : Char}
    {behind : Nat} (h : sequence b rest = some (c, behind)) : ¬ IsAscii c := by
  have hchar : ∀ least n : Nat, ∀ d, 128 ≤ least →
      character least n = some d → ¬ IsAscii d := by
    intro least n d hleast hd hascii
    unfold character at hd
    split at hd
    · rename_i hn
      have hvalid : n.isValidChar := by
        rcases hn.2.2 with hlow | hhigh
        · exact Or.inl hlow
        · exact Or.inr ⟨by omega, hn.2.1⟩
      rw [← Option.some.inj hd, IsAscii, toNat_ofNat hvalid] at hascii
      omega
    · cases hd
  unfold sequence at h
  split at h
  · obtain ⟨d, hd, hpair⟩ := Option.map_eq_some_iff.1 h
    cases hpair
    exact hchar _ _ _ (by decide) hd
  · split at h
    · obtain ⟨d, hd, hpair⟩ := Option.map_eq_some_iff.1 h
      cases hpair
      exact hchar _ _ _ (by decide) hd
    · split at h
      · obtain ⟨d, hd, hpair⟩ := Option.map_eq_some_iff.1 h
        cases hpair
        exact hchar _ _ _ (by decide) hd
      · cases h
  · cases h

/-- A text that was decoded as ASCII consists of the decoded bytes. -/
theorem map_decode_ascii {bytes : List UInt8}
    (h : ∀ c ∈ decode 0 bytes, IsAscii c) :
    (decode 0 bytes).map (fun c => c.toNat.toUInt8) = bytes := by
  induction bytes with
  | nil => rfl
  | cons b rest ih =>
      rw [decode] at h ⊢
      split at h
      · rename_i hb
        rw [if_pos hb, List.map_cons,
          ih fun c hc => h c (List.mem_cons_of_mem _ hc)]
        have hlt : b.toNat < 128 := UInt8.lt_iff_toNat_lt.1 hb
        rw [toNat_ofNat_ascii hlt]
        simp
      · split at h
        · rename_i c behind hseq
          exact absurd (h c List.mem_cons_self) (not_isAscii_of_sequence hseq)
        · exact absurd (h _ List.mem_cons_self) (by unfold IsAscii; decide)

theorem length_decode_le (skip : Nat) (bytes : List UInt8) :
    (decode skip bytes).length ≤ bytes.length := by
  induction bytes generalizing skip with
  | nil => simp [decode]
  | cons b rest ih =>
      cases skip with
      | succ skip =>
          rw [decode]
          exact Nat.le_trans (ih skip) (Nat.le_succ _)
      | zero =>
          rw [decode]
          split
          · exact Nat.succ_le_succ (ih 0)
          · split
            · exact Nat.succ_le_succ (ih _)
            · exact Nat.succ_le_succ (ih 0)

/-- An ASCII text is decoded from its own bytes. -/
theorem fromUtf8_toUtf8 {text : List Char} (h : ∀ c ∈ text, IsAscii c) :
    fromUtf8 (toUtf8 text) = text := by
  have hmark : [0xEF, 0xBB, 0xBF].isPrefixOf (toUtf8 text) = false := by
    rw [toUtf8_ascii h]
    cases text with
    | nil => rfl
    | cons c text =>
        have hc : c.toNat < 128 := h c List.mem_cons_self
        have hbyte : c.toNat.toUInt8.toNat = c.toNat := by
          simp only [Nat.toUInt8_eq, UInt8.toNat_ofNat']
          omega
        have hne : ¬ (0xEF : UInt8) = c.toNat.toUInt8 := by
          intro heq
          rw [← heq] at hbyte
          have h239 : (0xEF : UInt8).toNat = 239 := rfl
          omega
        simp only [List.map_cons, List.isPrefixOf, Bool.and_eq_false_iff,
          beq_eq_false_iff_ne]
        exact Or.inl hne
  rw [fromUtf8, hmark, if_neg Bool.false_ne_true, toUtf8_ascii h,
    decode_ascii h]

/-- A text that was decoded as ASCII, of as many characters as there were
bytes, has exactly these bytes. -/
theorem fromUtf8_ascii {bytes : List UInt8}
    (h : ∀ c ∈ fromUtf8 bytes, IsAscii c)
    (hlength : (toUtf8 (fromUtf8 bytes)).length = bytes.length) :
    toUtf8 (fromUtf8 bytes) = bytes := by
  unfold fromUtf8 at h hlength ⊢
  split at h
  · rename_i hmark
    rw [if_pos hmark, toUtf8_ascii h, List.length_map] at hlength
    have hle := length_decode_le 0 (bytes.drop 3)
    rw [List.length_drop] at hle
    have hthree : 3 ≤ bytes.length := by
      have hprefix := List.isPrefixOf_iff_prefix.1 hmark
      exact hprefix.length_le
    omega
  · rename_i hmark
    rw [if_neg hmark, toUtf8_ascii h, map_decode_ascii h]

end AowisMap.Lib.Utf8
