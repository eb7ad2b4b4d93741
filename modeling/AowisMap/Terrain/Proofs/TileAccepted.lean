/-
Every tile the encoder stores is one the decoder accepts, in the IEEE
layout: the encoder's three floats are in the range of a float, and what
is in the range stays finite, on its own side of zero, when it is rounded
to the nearest float and laid out (`stored_finite`, `stored_nonneg`).
-/
import AowisMap.Terrain.Proofs.TileRoundTrip

namespace AowisMap.Terrain

open Lib Lib.LittleEndian

variable {tile : TerrainTile} {data : Bytes}

-- ================================================= the nearest magnitude

/-- Rounding to a whole number does not pass one. -/
theorem roundEven_le {value : Rat} {n : Nat} (h : value ≤ n) :
    FloatValue.roundEven value ≤ n := by
  have hfloor : ⌊value⌋ ≤ (n : Int) := by
    have hmono := Int.floor_mono h
    rwa [Int.floor_natCast] at hmono
  have hlow : ⌊value⌋.toNat ≤ n := by omega
  simp only [FloatValue.roundEven]
  rcases Nat.lt_or_eq_of_le hlow with hlt | heq
  · split
    · omega
    · split
      · omega
      · split
        · omega
        · omega
  · -- the whole number itself: nothing is left to round
    have hhalf : value - (⌊value⌋.toNat : Rat) < 1 / 2 := by
      rw [heq]
      linarith
    rw [if_pos hhalf]
    omega

/-- The binary exponent of a float is at most 127. -/
theorem log_le {value : Rat} (hpos : 0 < value)
    (hmax : value ≤ FloatValue.maximum) : Int.log 2 value ≤ 127 := by
  have hlt : value < ((2 : Nat) : Rat) ^ (128 : Int) := by
    refine lt_of_le_of_lt hmax ?_
    norm_num [FloatValue.maximum]
  have hlog := (Int.lt_zpow_iff_log_lt (by omega) hpos).1 hlt
  omega

/-- The magnitude of a float that is in the range is laid out below the
infinities. -/
theorem magnitudeBits_lt {value : Rat} (hpos : 0 < value)
    (hmax : value ≤ FloatValue.maximum) :
    FloatValue.magnitudeBits value < 0x7F800000 := by
  have hlog := log_le hpos hmax
  simp only [FloatValue.magnitudeBits]
  generalize hexponent : max (Int.log 2 value) (-126) = exponent
  have hlow : -126 ≤ exponent := hexponent ▸ le_max_right _ _
  have hhigh : exponent ≤ 127 := hexponent ▸ max_le hlog (by omega)
  -- the significand: at most 2^24, and below that for the last exponent
  have hpower : (0 : Rat) < 2 ^ (23 - exponent) :=
    zpow_pos (by norm_num) _
  rcases lt_or_eq_of_le hhigh with hlt | rfl
  · have hvalue : value < (2 : Rat) ^ (exponent + 1) := by
      have hlt := Int.lt_zpow_succ_log_self (b := 2) (by omega) value
      refine lt_of_lt_of_le hlt ?_
      refine zpow_le_zpow_right₀ (by norm_num) ?_
      have hle : Int.log 2 value ≤ exponent := hexponent ▸ le_max_left _ _
      omega
    have hsignificand : value * (2 : Rat) ^ (23 - exponent)
        ≤ ((2 ^ 24 : Nat) : Rat) := by
      calc value * (2 : Rat) ^ (23 - exponent)
          ≤ 2 ^ (exponent + 1) * 2 ^ (23 - exponent) :=
            mul_le_mul_of_nonneg_right hvalue.le hpower.le
        _ = 2 ^ ((exponent + 1) + (23 - exponent)) :=
            (zpow_add₀ (by norm_num) _ _).symm
        _ = ((2 ^ 24 : Nat) : Rat) := by
            have hsum : (exponent + 1) + (23 - exponent) = ((24 : Nat) : Int) := by
              omega
            rw [hsum, zpow_natCast]
            norm_num
    have hround := roundEven_le hsignificand
    omega
  · have hsignificand : value * (2 : Rat) ^ ((23 : Int) - 127)
        ≤ ((2 ^ 24 - 1 : Nat) : Rat) := by
      calc value * (2 : Rat) ^ ((23 : Int) - 127)
          ≤ FloatValue.maximum * 2 ^ ((23 : Int) - 127) :=
            mul_le_mul_of_nonneg_right hmax hpower.le
        _ = ((2 ^ 24 - 1 : Nat) : Rat) := by
            norm_num [FloatValue.maximum]
    have hround := roundEven_le hsignificand
    omega

-- ========================================================= stored floats

/-- A layout below the infinities is finite and not negative. -/
theorem ofBits_nonneg {bits : Nat} (h : bits < 0x7F800000) :
    ∃ value, 0 ≤ value ∧ FloatValue.ofBits bits = .finite value := by
  have hexponent : bits / 2 ^ 23 % 256 ≠ 255 := by omega
  have hsign : bits.testBit 31 = false :=
    Nat.testBit_lt_two_pow (by omega)
  simp only [FloatValue.ofBits, hexponent, hsign, if_false,
    Bool.false_eq_true]
  split
  · exact ⟨_, by positivity, rfl⟩
  · exact ⟨_, by positivity, rfl⟩

/-- With the sign bit in front it is finite as well. -/
theorem ofBits_negative {bits : Nat} (h : bits < 0x7F800000) :
    ∃ value, FloatValue.ofBits (2 ^ 31 + bits) = .finite value := by
  have hexponent : (2 ^ 31 + bits) / 2 ^ 23 % 256 ≠ 255 := by omega
  simp only [FloatValue.ofBits, hexponent, if_false]
  split
  · exact ⟨_, rfl⟩
  · exact ⟨_, rfl⟩

/-- What is in the range and not negative is stored as such a float. -/
theorem stored_nonneg {value : Rat} (hnonneg : 0 ≤ value)
    (hmax : value ≤ FloatValue.maximum) : ∃ stored, 0 ≤ stored ∧
      binary32.ofBits (binary32.toBits (.finite value)) = .finite stored := by
  show ∃ stored, 0 ≤ stored ∧
    FloatValue.ofBits (FloatValue.toBits (.finite value)) = .finite stored
  by_cases hzero : value = 0
  · rw [FloatValue.toBits, if_pos hzero]
    exact ofBits_nonneg (by omega)
  · rw [FloatValue.toBits, if_neg hzero, if_neg (not_lt.2 hnonneg)]
    exact ofBits_nonneg
      (magnitudeBits_lt (lt_of_le_of_ne hnonneg (Ne.symm hzero)) hmax)

/-- What is in the range is stored as a finite float. -/
theorem stored_finite {value : Rat} (hmin : -FloatValue.maximum ≤ value)
    (hmax : value ≤ FloatValue.maximum) : ∃ stored,
      binary32.ofBits (binary32.toBits (.finite value)) = .finite stored := by
  rcases lt_or_ge value 0 with hneg | hnonneg
  · show ∃ stored,
      FloatValue.ofBits (FloatValue.toBits (.finite value)) = .finite stored
    rw [FloatValue.toBits, if_neg hneg.ne, if_pos hneg]
    exact ofBits_negative (magnitudeBits_lt (by linarith) (by linarith))
  · obtain ⟨stored, -, hstored⟩ := stored_nonneg hnonneg hmax
    exact ⟨stored, hstored⟩

-- ========================================================= encoded tiles

/-- The code of a sample is no no-data code. -/
theorem elevationCode_le (minimum scale value : Rat) :
    elevationCode minimum scale (.finite value) ≤ 65534 := by
  have hmaximum : terrainTileMaximumElevationCode = 65534 := rfl
  simp only [elevationCode]
  split
  · omega
  · rw [hmaximum]
    omega

/-- A scale that can be stored is in the range. -/
theorem scale_le {minimum maximum scale : Rat}
    (h : elevationScale binary32 minimum maximum = .finite scale) :
    scale ≤ FloatValue.maximum := by
  have hpositive : 0 ≤ FloatValue.maximum := by norm_num [FloatValue.maximum]
  unfold elevationScale at h
  split at h
  · simp only [binary32] at h
    split at h
    · cases h
    · rename_i hle
      split at h
      · cases h
      · cases h
        exact not_lt.1 hle
  · cases h
    exact hpositive

/-- The encoder's output is accepted, within the size limit of a reader,
and names the dataset and the address of its tile. -/
theorem encode_accepted (h : encodeTerrainTile binary32 tile = .ok data)
    (hrange : ∀ value, .finite value ∈ tile.elevationsM →
      -FloatValue.maximum ≤ value ∧ value ≤ FloatValue.maximum) :
    data.length ≤ 64 + 128 + 8450 ∧
      ∃ decoded, decodeTerrainTile binary32 data = .ok decoded ∧
        decoded.dataset = tile.dataset ∧ decoded.address = tile.address := by
  obtain ⟨hisValid, scale, hscale, hscale0, rfl⟩ := encode_inv h
  have hvalid := validTile_inv hisValid
  have hminimum := hrange _
    (mem_finiteSamples.1 (minimumElevation_least hvalid.data).1)
  obtain ⟨resolution, hresolution0, hresolution, heq⟩ := hvalid.resolution
  have hadmissible : (encodedFields binary32 tile scale).Admissible binary32 :=
    encodedFields_admissible hvalid
      (stored_finite hminimum.1 hminimum.2)
      (stored_nonneg hscale0 (scale_le hscale))
      (heq ▸ stored_nonneg hresolution0 hresolution)
      fun value _ => elevationCode_le _ _ value
  refine ⟨?_, _, decode_layout hadmissible (verticalDatumFromCode_code _),
    rfl, ?_⟩
  · rw [length_layout hadmissible]
    have hdataset := (datasetId_ascii hvalid.dataset).2
    have hutf8 : (encodedFields binary32 tile scale).datasetUtf8.length
        = (Utf8.toUtf8 tile.dataset.toList).length := rfl
    omega
  · have hzoom := zoom_nonneg hvalid.address
    show TerrainTileAddress.mk (tile.address.zoom.toNat : Int) tile.address.x
      tile.address.y = tile.address
    rw [Int.toNat_of_nonneg hzoom]

end AowisMap.Terrain
