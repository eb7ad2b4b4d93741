/-
What the `Content-Range` parser accepts.

# The grammar

`Denotes` is the grammar: `bytes a-b/t` with decimal numbers of any length
whose values are in order and within 63 bits. What is accepted is in it,
for every header (`denotes_of_contentRange`): a separator that was found
at a place that an `int` does not hold is found a second time behind the
narrowed place. What is in it is accepted as long as its separators stand
at places that are `int`s (`contentRange_of_denotes`).

# Numbers

`checkedDecimal` is the loop over digits with every result checked to be a
`qint64`; none ever is not one.
-/
import AowisMap.Lib.QString
import AowisMap.Terrain.ResumeState

namespace AowisMap.Terrain

open Lib Lib.QByteArray

-- ============================================================== numbers

/-- The `qint64` of an exact result. -/
def longLong (value : Int) : Option Int :=
  if QString.fitsLongLong value then some value else none

/-- The loop of `parseCopernicusPositiveDecimal`, with every result of its
arithmetic checked. -/
def checkedDecimal : Bytes → Int → Option (Option Int)
  | [], value => some (some value)
  | digit :: rest, value =>
      if digit < 48 ∨ 57 < digit then some none
      else
        let nextDigit : Int := digit.toNat - 48
        match longLong (maximumInt64 - nextDigit) with
        | none => none
        | some room =>
            if room / 10 < value then some none
            else
              match longLong (value * 10) with
              | none => none
              | some scaled =>
                  match longLong (scaled + nextDigit) with
                  | none => none
                  | some next => checkedDecimal rest next

theorem longLong_natCast {n : Nat} (h : n ≤ maximumInt64) :
    longLong n = some (n : Int) := by
  have hmaximum : maximumInt64 = 9223372036854775807 := rfl
  have hfits : QString.fitsLongLong n = true := by
    unfold QString.fitsLongLong
    rw [Bool.and_eq_true, decide_eq_true_eq, decide_eq_true_eq]
    omega
  exact if_pos hfits

/-- No result leaves the range, however many digits there are. -/
theorem checkedDecimal_eq {bytes : Bytes} :
    ∀ {value : Nat}, value ≤ maximumInt64 →
      checkedDecimal bytes value
        = some ((decimalUpTo maximumInt64 bytes value).map Int.ofNat) := by
  have hmaximum : maximumInt64 = 9223372036854775807 := rfl
  induction bytes with
  | nil => exact fun _ => rfl
  | cons digit rest ih =>
      intro value hvalue
      unfold checkedDecimal decimalUpTo
      by_cases hdigit : digit < 48 ∨ 57 < digit
      · rw [if_pos hdigit, if_pos hdigit]
        rfl
      · rw [if_neg hdigit, if_neg hdigit]
        rw [not_or, UInt8.not_lt, UInt8.not_lt] at hdigit
        have hlow : 48 ≤ digit.toNat := UInt8.le_iff_toNat_le.1 hdigit.1
        have hhigh : digit.toNat ≤ 57 := UInt8.le_iff_toNat_le.1 hdigit.2
        have hnext : (digit.toNat : Int) - 48
            = ((digit.toNat - 48 : Nat) : Int) := by omega
        have hroom : (maximumInt64 : Int) - ((digit.toNat - 48 : Nat) : Int)
            = ((maximumInt64 - (digit.toNat - 48) : Nat) : Int) := by omega
        simp only [hnext, hroom]
        rw [longLong_natCast (Nat.sub_le _ _)]
        simp only
        by_cases hguard :
            (maximumInt64 - (digit.toNat - 48)) / 10 < value
        · rw [if_pos hguard, if_pos (by omega)]
          rfl
        · have hscaled : (value : Int) * 10 = ((value * 10 : Nat) : Int) := by
            push_cast
            rfl
          have hsum : ((value * 10 : Nat) : Int)
              + ((digit.toNat - 48 : Nat) : Int)
              = ((value * 10 + (digit.toNat - 48) : Nat) : Int) := by
            push_cast
            rfl
          rw [if_neg hguard, if_neg (by omega), hscaled,
            longLong_natCast (by omega)]
          simp only
          rw [hsum, longLong_natCast (by omega)]
          exact ih (by omega)

-- ============================================================== grammar

/-- A decimal number and its value. -/
def IsDecimal (bytes : Bytes) (value : Nat) : Prop :=
  bytes ≠ [] ∧ (∀ b ∈ bytes, isDigit b = true) ∧ digitsValue 0 bytes = value

/-- The headers of a range. -/
def Denotes (header : Bytes) (range : CopernicusContentRange) : Prop :=
  ∃ a b t, header = ascii "bytes " ++ (a ++ 45 :: (b ++ 47 :: t)) ∧
    IsDecimal a range.first ∧ IsDecimal b range.last ∧
    IsDecimal t range.total ∧ range.first ≤ range.last ∧
    range.last < range.total ∧ range.total ≤ maximumInt64

theorem parse_eq_some {bytes : Bytes} {value : Nat} :
    parseCopernicusPositiveDecimal bytes = some value ↔
      IsDecimal bytes value ∧ value ≤ maximumInt64 := by
  unfold parseCopernicusPositiveDecimal IsDecimal
  by_cases hempty : bytes = []
  · rw [if_pos hempty]
    simp [hempty]
  · rw [if_neg hempty, decimalUpTo_iff (by decide) (Nat.zero_le _)]
    simp [hempty, and_assoc]

theorem IsDecimal.not_mem {bytes : Bytes} {value : Nat}
    (h : IsDecimal bytes value) {b : UInt8} (hb : isDigit b = false) :
    b ∉ bytes := by
  intro hmem
  rw [h.2.1 b hmem] at hb
  cases hb

/-- The place of the first dash behind the unit, negative if there is
none. -/
def dashAt (header : Bytes) : Int := indexOf (header.drop 6) 45 0

/-- The place of the first slash behind the unit. -/
def slashAt (header : Bytes) : Int := indexOf (header.drop 6) 47 0

/-- The places of the separators of a range. -/
theorem places_denoted {a b t : Bytes} {first last total : Nat}
    (ha : IsDecimal a first) (hb : IsDecimal b last)
    (ht : IsDecimal t total) {range : Bytes}
    (hrange : range = a ++ 45 :: (b ++ 47 :: t)) :
    indexOf range 45 0 = a.length ∧
      indexOf range 47 0 = a.length + 1 + b.length ∧
      45 ∉ range.drop (a.length + 1) ∧
      47 ∉ range.drop (a.length + 1 + b.length + 1) ∧
      range.take a.length = a ∧
      (range.drop (a.length + 1)).take b.length = b ∧
      range.drop (a.length + 1 + b.length + 1) = t := by
  have hdash : isDigit 45 = false := by decide
  have hslash : isDigit 47 = false := by decide
  have hbehind : range.drop (a.length + 1) = b ++ 47 :: t := by
    rw [hrange, ← List.drop_drop, List.drop_left]
    rfl
  have hrest : range.drop (a.length + 1 + b.length + 1) = t := by
    rw [Nat.add_assoc (a.length + 1), ← List.drop_drop, hbehind,
      ← List.drop_drop, List.drop_left]
    rfl
  refine ⟨?_, ?_, ?_, ?_, ?_, ?_, hrest⟩
  · rw [hrange, indexOf_append (ha.not_mem hdash)]
  · have hsplit : range = (a ++ 45 :: b) ++ 47 :: t := by
      rw [hrange, List.append_assoc, List.cons_append]
    have hnot : (47 : UInt8) ∉ a ++ 45 :: b := by
      rw [List.mem_append, List.mem_cons, not_or, not_or]
      exact ⟨ha.not_mem hslash, by decide, hb.not_mem hslash⟩
    rw [hsplit, indexOf_append hnot, List.length_append, List.length_cons]
    push_cast
    omega
  · rw [hbehind, List.mem_append, List.mem_cons, not_or, not_or]
    exact ⟨hb.not_mem hdash, by decide, ht.not_mem hdash⟩
  · rw [hrest]
    exact ht.not_mem hslash
  · rw [hrange, List.take_left]
  · rw [hbehind, List.take_left]

-- ============================================================ acceptance

theorem prefix_iff {header : Bytes} :
    (ascii "bytes ").isPrefixOf header = true ↔
      header = ascii "bytes " ++ header.drop 6 := by
  rw [List.isPrefixOf_iff_prefix]
  constructor
  · exact fun h => (List.prefix_iff_eq_append.1 h).symm
  · exact fun h => ⟨_, h.symm⟩

/-- A separator that is not found behind its narrowed place stands
there. -/
theorem place_of_narrow {range : Bytes} {byte : UInt8}
    (hpos : 0 < CInt.narrow (indexOf range byte 0))
    (hbehind : ¬0 ≤ indexOf range byte
      (CInt.narrow (indexOf range byte 0) + 1).toNat) :
    ∃ before rest, range = before ++ byte :: rest ∧
      indexOf range byte 0 = before.length ∧
      CInt.narrow (indexOf range byte 0) = before.length := by
  have hfound : 0 ≤ indexOf range byte 0 := by
    by_contra hnone
    have hminus : indexOf range byte 0 = -1 := by
      unfold indexOf at hnone ⊢
      split
      · rename_i i hi
        rw [hi] at hnone
        simp only at hnone
        omega
      · rfl
    rw [hminus] at hpos
    exact absurd hpos (by decide)
  obtain ⟨before, rest, hrange, -, hindex⟩ := indexOf_inv hfound
  refine ⟨before, rest, hrange, hindex, ?_⟩
  rw [hindex] at hpos hbehind ⊢
  by_cases hwide : (2 : Int) ^ 31 ≤ (before.length : Int)
  · -- the place was narrowed, so the byte is found behind it
    exfalso
    have hless := CInt.narrow_lt hwide
    apply hbehind
    rw [indexOf_nonneg, hrange,
      List.drop_append_of_le_length (by omega)]
    exact List.mem_append_right _ List.mem_cons_self
  · apply CInt.narrow_of_fits
    unfold CInt.Fits
    omega

/-- **What is accepted is in the grammar**, its slash at a place that is
an `int`. -/
theorem denotes_of_contentRange {header : Bytes}
    {range : CopernicusContentRange}
    (h : contentRange header = some (some range)) :
    Denotes header range ∧ slashAt header < 2147483647 := by
  unfold contentRange at h
  split at h
  · cases h
  rename_i hunit
  rw [Bool.not_eq_false] at hunit
  simp only at h
  split at h
  · cases h
  rename_i hdash
  split at h
  · cases h
  rename_i behindDash hbehindDash
  obtain ⟨-, rfl⟩ := CInt.add_eq_some.1 hbehindDash
  split at h
  · cases h
  rename_i hchecks
  split at h
  · cases h
  rename_i behindSlash hbehindSlash
  obtain ⟨hfits, rfl⟩ := CInt.add_eq_some.1 hbehindSlash
  split at h
  · cases h
  rename_i hslash
  rw [not_or, not_or] at hchecks
  obtain ⟨hafter, -, honce⟩ := hchecks
  obtain ⟨a, rest, hrest, -, hdashAt⟩ :=
    place_of_narrow (Int.not_le.1 hdash) honce
  obtain ⟨before, t, ht, hindex, hslashAt⟩ :=
    place_of_narrow (by omega) hslash
  rw [hdashAt] at hafter
  rw [hslashAt] at hafter hfits
  rw [hdashAt, hslashAt] at h
  -- The last number stands between the separators.
  have hbehind : (header.drop 6).drop (a.length + 1) = rest := by
    rw [hrest, ← List.drop_drop, List.drop_left]
    rfl
  have htotal : (header.drop 6).drop (before.length + 1) = t := by
    rw [ht, ← List.drop_drop, List.drop_left]
    rfl
  have hfirst : (header.drop 6).take a.length = a := by
    rw [hrest, List.take_left]
  have hlast : rest = rest.take (before.length - a.length - 1)
      ++ 47 :: t := by
    have hdrop : rest.drop (before.length - a.length - 1) = 47 :: t := by
      rw [← hbehind, List.drop_drop, ht]
      have hlength : a.length + 1 + (before.length - a.length - 1)
          = before.length := by omega
      rw [hlength, List.drop_left]
    rw [← hdrop, List.take_append_drop]
  have hcount : ((before.length : Int) - a.length - 1).toNat
      = before.length - a.length - 1 := by omega
  have hnext (n : Nat) : ((n : Int) + 1).toNat = n + 1 := rfl
  rw [hnext, hnext, hcount, Int.toNat_natCast, hfirst, hbehind,
    htotal] at h
  obtain ⟨ha, hb, ht', hle, hlt⟩ :=
    consistentRange_eq_some.1 (Option.some.inj h)
  refine ⟨⟨a, _, t, ?_, (parse_eq_some.1 ha).1, (parse_eq_some.1 hb).1,
    (parse_eq_some.1 ht').1, hle, hlt, (parse_eq_some.1 ht').2⟩, ?_⟩
  · rw [← hlast, ← hrest]
    exact prefix_iff.1 hunit
  · unfold slashAt
    rw [hindex]
    unfold CInt.Fits at hfits
    omega

/-- **What is in the grammar is accepted**, if its slash stands at a place
with an `int` behind it. -/
theorem contentRange_of_denotes {header : Bytes}
    {range : CopernicusContentRange} (h : Denotes header range)
    (hslash : slashAt header < 2147483647) :
    contentRange header = some (some range) := by
  obtain ⟨a, b, t, hheader, ha, hb, ht, hle, hlt, hmaximum⟩ := h
  have hsix : (ascii "bytes ").length = 6 := rfl
  have hrange : header.drop 6 = a ++ 45 :: (b ++ 47 :: t) := by
    rw [hheader, ← hsix, List.drop_left]
  have hunit : (ascii "bytes ").isPrefixOf header = true := by
    rw [prefix_iff, hrange]
    exact hheader
  obtain ⟨hdashAt, hslashAt, hdashOnce, hslashOnce, hfirst, hlast,
    htotal⟩ := places_denoted ha hb ht hrange
  have hplace : slashAt header = a.length + 1 + b.length := hslashAt
  rw [hplace] at hslash
  have hapos := List.length_pos_iff.2 ha.1
  have hbpos := List.length_pos_iff.2 hb.1
  have htpos := List.length_pos_iff.2 ht.1
  have hlength : (header.drop 6).length
      = a.length + 1 + b.length + 1 + t.length := by
    rw [hrange]
    simp only [List.length_append, List.length_cons]
    omega
  have hdashFits : CInt.narrow (indexOf (header.drop 6) 45 0)
      = a.length := by
    rw [hdashAt]
    apply CInt.narrow_of_fits
    unfold CInt.Fits
    omega
  have hslashFits : CInt.narrow (indexOf (header.drop 6) 47 0)
      = ((a.length + 1 + b.length : Nat) : Int) := by
    rw [hslashAt]
    push_cast
    apply CInt.narrow_of_fits
    unfold CInt.Fits
    omega
  have hbehindDash : CInt.add a.length 1 = some ((a.length : Int) + 1) :=
    CInt.add_of_fits (by unfold CInt.Fits; omega)
  have hbehindSlash : CInt.add ((a.length + 1 + b.length : Nat) : Int) 1
      = some (((a.length + 1 + b.length : Nat) : Int) + 1) :=
    CInt.add_of_fits (by unfold CInt.Fits; omega)
  have hnext (n : Nat) : ((n : Int) + 1).toNat = n + 1 := rfl
  have hcount : (((a.length + 1 + b.length : Nat) : Int) - a.length
      - 1).toNat = b.length := by omega
  unfold contentRange
  rw [if_neg (by rw [Bool.not_eq_false]; exact hunit)]
  simp only [hdashFits, hslashFits, hbehindDash, hbehindSlash, hnext,
    hcount, Int.toNat_natCast]
  rw [if_neg (by omega), if_neg, if_neg, hfirst, hlast, htotal]
  · refine congrArg some (consistentRange_eq_some.2 ?_)
    exact ⟨parse_eq_some.2 ⟨ha, by omega⟩, parse_eq_some.2 ⟨hb, by omega⟩,
      parse_eq_some.2 ⟨ht, hmaximum⟩, hle, hlt⟩
  · rw [indexOf_nonneg]
    exact hslashOnce
  · rw [indexOf_nonneg, not_or, not_or]
    exact ⟨by omega, by omega, hdashOnce⟩

-- ============================================================= overflow

/-- The place of the dash is narrowed to the largest `int`. -/
def DashOverflows (header : Bytes) : Prop :=
  CInt.narrow (dashAt header) = 2147483647

/-- The place of the slash is, and the checks before it pass. -/
structure SlashOverflows (header : Bytes) : Prop where
  place : CInt.narrow (slashAt header) = 2147483647
  dash : 0 < dashAt header ∧ dashAt header < 2147483646
  once : 45 ∉ (header.drop 6).drop (dashAt header + 1).toNat
  behind : (header.drop 6).length ≠ 2147483648

/-- Behind an `int` there is an `int`, but for the largest one. -/
theorem add_one_eq_none {value : Int} (h : CInt.Fits value) :
    CInt.add value 1 = none ↔ value = 2147483647 := by
  rw [CInt.add_eq_none]
  unfold CInt.Fits at h ⊢
  omega

/-- What is not defined: a place behind a separator that is no `int`. -/
theorem contentRange_eq_none_iff {header : Bytes}
    (hunit : (ascii "bytes ").isPrefixOf header = true) :
    contentRange header = none ↔
      DashOverflows header ∨ SlashOverflows header := by
  have hfits := CInt.fits_narrow
  unfold contentRange
  rw [if_neg (by rw [Bool.not_eq_false]; exact hunit)]
  simp only
  constructor
  · intro h
    split at h
    · cases h
    rename_i hdash
    rw [Int.not_le] at hdash
    split at h
    · rename_i hnone
      exact Or.inl ((add_one_eq_none (hfits _)).1 hnone)
    rename_i behindDash hbehindDash
    obtain ⟨-, rfl⟩ := CInt.add_eq_some.1 hbehindDash
    split at h
    · cases h
    rename_i hchecks
    rw [not_or, not_or] at hchecks
    obtain ⟨hafter, hend, honce⟩ := hchecks
    split at h
    · rename_i hnone
      have hplace := (add_one_eq_none (hfits _)).1 hnone
      obtain ⟨before, rest, -, hindex, hnarrow⟩ :=
        place_of_narrow hdash honce
      have hdashAt : dashAt header = before.length := hindex
      rw [hplace] at hafter hend
      rw [hnarrow] at hafter honce hdash
      refine Or.inr ⟨hplace, by omega, ?_, by omega⟩
      rw [hdashAt, ← indexOf_nonneg]
      exact honce
    · split at h
      · cases h
      · cases h
  · rintro (hdash | ⟨hplace, hdash, honce, hend⟩)
    · have hdash : CInt.narrow (indexOf (header.drop 6) 45 0)
          = 2147483647 := hdash
      rw [hdash, if_neg (by decide)]
      rfl
    · have hnarrow : CInt.narrow (indexOf (header.drop 6) 45 0)
          = dashAt header :=
        CInt.narrow_of_fits (by unfold CInt.Fits; unfold dashAt at hdash; omega)
      have hplace : CInt.narrow (indexOf (header.drop 6) 47 0)
          = 2147483647 := hplace
      have hbehind : CInt.add (dashAt header) 1 = some (dashAt header + 1) :=
        CInt.add_of_fits (by unfold CInt.Fits; omega)
      have hoverflow : CInt.add 2147483647 1 = none := by decide
      rw [hnarrow, hplace, if_neg (by omega), hbehind]
      simp only
      rw [if_neg, hoverflow]
      rw [indexOf_nonneg, not_or, not_or]
      exact ⟨by omega, by omega, honce⟩

-- ============================================================ exactness

/-- The parser does what the grammar says: it returns, and what it accepts
is what the header denotes. -/
def ParsesExactly (header : Bytes) : Prop :=
  ∃ result, contentRange header = some result ∧
    ∀ range, result = some range ↔ Denotes header range

/-- The separators of a header stand where an `int` can say: no place
overflows, and a header of the grammar has its slash below `2 ^ 31`. -/
def SeparatorsFit (header : Bytes) : Prop :=
  (ascii "bytes ").isPrefixOf header = true →
    ¬DashOverflows header ∧ ¬SlashOverflows header ∧
      (2147483648 ≤ slashAt header → ∀ range, ¬Denotes header range)

theorem Denotes.isPrefix {header : Bytes} {range : CopernicusContentRange}
    (h : Denotes header range) :
    (ascii "bytes ").isPrefixOf header = true := by
  obtain ⟨a, b, t, hheader, -⟩ := h
  rw [List.isPrefixOf_iff_prefix, hheader]
  exact List.prefix_append _ _

/-- In the grammar, a slash at the largest `int` overflows. -/
theorem Denotes.slashOverflows {header : Bytes}
    {range : CopernicusContentRange} (h : Denotes header range)
    (hslash : slashAt header = 2147483647) : SlashOverflows header := by
  obtain ⟨a, b, t, hheader, ha, hb, ht, -⟩ := h
  have hsix : (ascii "bytes ").length = 6 := rfl
  have hrange : header.drop 6 = a ++ 45 :: (b ++ 47 :: t) := by
    rw [hheader, ← hsix, List.drop_left]
  obtain ⟨hdashAt, hslashAt, hdashOnce, -⟩ := places_denoted ha hb ht hrange
  have hdash : dashAt header = a.length := hdashAt
  have hplace : slashAt header = a.length + 1 + b.length := hslashAt
  have hapos := List.length_pos_iff.2 ha.1
  have hbpos := List.length_pos_iff.2 hb.1
  have htpos := List.length_pos_iff.2 ht.1
  refine ⟨by rw [hslash]; decide, by omega, ?_, ?_⟩
  · rw [hdash]
    exact hdashOnce
  · rw [hrange]
    simp only [List.length_append, List.length_cons]
    omega

/-- **When the parser is exact**: its numbers never leave 64 bits, and it
accepts its grammar if and only if the separators stand at places that an
`int` can say. -/
theorem contentRange_exact_iff (header : Bytes) :
    (∀ bytes : Bytes, checkedDecimal bytes 0
      = some ((decimalUpTo maximumInt64 bytes 0).map Int.ofNat)) ∧
    (ParsesExactly header ↔ SeparatorsFit header) := by
  refine ⟨fun bytes => checkedDecimal_eq (Nat.zero_le _), ?_⟩
  constructor
  · rintro ⟨result, hresult, hexact⟩ hunit
    have hdefined : ¬(DashOverflows header ∨ SlashOverflows header) := by
      rw [← contentRange_eq_none_iff hunit, hresult]
      exact Option.some_ne_none result
    rw [not_or] at hdefined
    refine ⟨hdefined.1, hdefined.2, fun hslash range hdenotes => ?_⟩
    rw [(hexact range).2 hdenotes] at hresult
    have hplace := (denotes_of_contentRange hresult).2
    omega
  · intro hfit
    cases hresult : contentRange header with
    | none =>
        exfalso
        cases hunit : (ascii "bytes ").isPrefixOf header with
        | false =>
            unfold contentRange at hresult
            rw [if_pos hunit] at hresult
            cases hresult
        | true =>
            obtain ⟨hdash, hslash, -⟩ := hfit hunit
            rcases (contentRange_eq_none_iff hunit).1 hresult with h | h
            · exact hdash h
            · exact hslash h
    | some result =>
        refine ⟨result, hresult, fun range => ⟨?_, ?_⟩⟩
        · rintro rfl
          exact (denotes_of_contentRange hresult).1
        · intro hdenotes
          obtain ⟨-, hslash, hgrammar⟩ := hfit hdenotes.isPrefix
          have hplace : slashAt header < 2147483647 := by
            by_contra hwide
            by_cases hlargest : slashAt header = 2147483647
            · exact hslash (hdenotes.slashOverflows hlargest)
            · exact hgrammar (by omega) range hdenotes
          rw [contentRange_of_denotes hdenotes hplace] at hresult
          exact (Option.some.inj hresult).symm

-- ========================================================= long headers

/-- The range 0-1 of 2, its first number written with `n` zeros. -/
def zerosHeader (n : Nat) : Bytes :=
  ascii "bytes " ++ (List.replicate n 48 ++ 45 :: ([49] ++ 47 :: [50]))

theorem digitsValue_zeros (n : Nat) :
    digitsValue 0 (List.replicate n 48) = 0 := by
  induction n with
  | zero => rfl
  | succ n ih =>
      rw [List.replicate_succ]
      exact ih

theorem isDecimal_zeros {n : Nat} (h : 0 < n) :
    IsDecimal (List.replicate n 48) 0 := by
  refine ⟨?_, ?_, digitsValue_zeros n⟩
  · rw [← List.length_pos_iff, List.length_replicate]
    exact h
  · intro b hb
    rw [(List.mem_replicate.1 hb).2]
    rfl

/-- A digit is a number in decimal. -/
theorem isDecimal_digit {b : UInt8} (h : isDigit b = true) :
    IsDecimal [b] (digitsValue 0 [b]) :=
  ⟨List.cons_ne_nil b [], List.forall_mem_singleton.2 h, rfl⟩

/-- The header is in the grammar for every number of zeros. -/
theorem denotes_zerosHeader {n : Nat} (h : 0 < n) :
    Denotes (zerosHeader n) { first := 0, last := 1, total := 2 } := by
  have hone : IsDecimal [49] 1 := isDecimal_digit rfl
  have htwo : IsDecimal [50] 2 := isDecimal_digit rfl
  exact ⟨_, _, _, rfl, isDecimal_zeros h, hone, htwo, by decide, by decide,
    by decide⟩

theorem slashAt_zerosHeader {n : Nat} (h : 0 < n) :
    slashAt (zerosHeader n) = n + 2 := by
  have hone : IsDecimal [49] 1 := isDecimal_digit rfl
  have htwo : IsDecimal [50] 2 := isDecimal_digit rfl
  have hsix : (ascii "bytes ").length = 6 := rfl
  have hrange : (zerosHeader n).drop 6
      = List.replicate n 48 ++ 45 :: ([49] ++ 47 :: [50]) := by
    unfold zerosHeader
    rw [← hsix, List.drop_left]
  have hplace := (places_denoted (isDecimal_zeros h) hone htwo hrange).2.1
  rw [List.length_replicate] at hplace
  unfold slashAt
  rw [hplace, List.length_singleton]
  push_cast
  omega

/-- With `2 ^ 31` zeros the header of a range is rejected. -/
theorem contentRange_long_rejected :
    Denotes (zerosHeader 2147483648) { first := 0, last := 1, total := 2 } ∧
      ¬ParsesExactly (zerosHeader 2147483648) := by
  have hpos : 0 < 2147483648 := by decide
  have hdenotes := denotes_zerosHeader hpos
  refine ⟨hdenotes, ?_⟩
  rintro ⟨result, hresult, hexact⟩
  rw [(hexact _).2 hdenotes] at hresult
  have hplace := (denotes_of_contentRange hresult).2
  rw [slashAt_zerosHeader hpos] at hplace
  omega

end AowisMap.Terrain
