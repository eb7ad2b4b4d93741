/-
Which decoded tiles are valid: those whose largest elevation does not
leave the range of a float.

The decoder checks the minimum and the scale of a tile one by one and
then computes `minimum + code * scale` for every code. Both steps can
overflow, and an infinite sample makes the tile one that the encoder
would have refused. Everything else that `isValidTerrainTile` asks for
the decoder has checked (`valid_iff_finite`), so a decoded tile is valid
exactly when no product and no sum leaves the range (`InRange`).
-/
import AowisMap.Terrain.Proofs.TileFormat

namespace AowisMap.Terrain

open Lib Lib.LittleEndian

variable {fmt : FloatFormat} {f : TileFields} {data : Bytes}

-- ======================================================== the float range

/-- Finite floats lie within the range. -/
theorem ofBits_bounds {bits : Nat} {value : Rat}
    (h : FloatValue.ofBits bits = .finite value) :
    -FloatValue.maximum ≤ value ∧ value ≤ FloatValue.maximum := by
  have hfraction : bits % 2 ^ 23 < 2 ^ 23 := Nat.mod_lt _ (by decide)
  have hsign : ∀ magnitude : Rat, 0 ≤ magnitude →
      magnitude ≤ FloatValue.maximum →
      -FloatValue.maximum ≤
          (if bits.testBit 31 then -1 else 1) * magnitude ∧
        (if bits.testBit 31 then -1 else 1) * magnitude
          ≤ FloatValue.maximum := by
    intro magnitude h0 hle
    split
    · constructor
      · linarith
      · linarith
    · constructor
      · linarith
      · linarith
  have hfrac : ((bits % 2 ^ 23 : Nat) : Rat) ≤ 2 ^ 23 - 1 := by
    have hle : bits % 2 ^ 23 ≤ 2 ^ 23 - 1 := by omega
    have hcast : ((bits % 2 ^ 23 : Nat) : Rat) ≤ ((2 ^ 23 - 1 : Nat) : Rat) :=
      Nat.cast_le.2 hle
    norm_num at hcast ⊢
    exact hcast
  have hfrac0 : (0 : Rat) ≤ ((bits % 2 ^ 23 : Nat) : Rat) := Nat.cast_nonneg _
  generalize hfr : ((bits % 2 ^ 23 : Nat) : Rat) = fraction at hfrac hfrac0
  unfold FloatValue.ofBits at h
  simp only [hfr] at h
  split at h
  · split at h
    · cases h
    · cases h
  · split at h
    · cases h
      rw [mul_div_assoc]
      apply hsign
      · positivity
      · rw [div_le_iff₀ (by positivity)]
        have hbig : (2 : Rat) ^ 23 - 1
            ≤ FloatValue.maximum * 2 ^ 149 := by
          norm_num [FloatValue.maximum]
        exact hfrac.trans hbig
    · rename_i hexponent _
      cases h
      have hpow : (2 : Rat) ^ (bits / 2 ^ 23 % 256) ≤ 2 ^ 254 :=
        pow_le_pow_right₀ (by norm_num) (by omega)
      rw [mul_assoc, mul_div_assoc]
      apply hsign
      · positivity
      · rw [div_le_iff₀ (by positivity)]
        calc (2 ^ 23 + fraction) * 2 ^ (bits / 2 ^ 23 % 256)
            ≤ (2 ^ 24 - 1) * 2 ^ 254 := by
              apply mul_le_mul _ hpow (by positivity) (by norm_num)
              linarith
          _ = FloatValue.maximum * 2 ^ 150 := by
              norm_num [FloatValue.maximum]

-- ===================================================== decoded elevations

/-- Whether the computations of a decoded elevation stay in the range:
the product of the code and the scale, and its sum with the minimum. -/
def CodeInRange (minimum scale : Rat) (code : Nat) : Prop :=
  code * scale ≤ FloatValue.maximum ∧
    minimum + code * scale ≤ FloatValue.maximum

/-- The elevation of a code is a finite float or no-data exactly when its
computation stays in the range. -/
theorem decodedElevation_finite {minimum scale : Rat} {code : Nat}
    (hminimum : -FloatValue.maximum ≤ minimum) (hscale : 0 ≤ scale)
    (hcode : code ≠ terrainTileNoDataCode) :
    (decodedElevation binary32 (.finite minimum) (.finite scale)
        code).isFinite = true ↔ CodeInRange minimum scale code := by
  have hproduct : 0 ≤ (code : Rat) * scale := by positivity
  have hpositive : 0 < FloatValue.maximum := by norm_num [FloatValue.maximum]
  unfold decodedElevation CodeInRange
  rw [if_neg hcode]
  simp only [FloatFormat.scale, binary32]
  by_cases hover : FloatValue.maximum < code * scale
  · rw [if_pos hover]
    simp [FloatFormat.add, FloatValue.isFinite, hover]
  · rw [if_neg hover, if_neg (by linarith)]
    simp only [FloatFormat.add]
    by_cases hsum : FloatValue.maximum < minimum + code * scale
    · rw [if_pos hsum]
      simp [FloatValue.isFinite, hsum]
    · rw [if_neg hsum, if_neg (by linarith)]
      simp [FloatValue.isFinite, not_lt.1 hover, not_lt.1 hsum]

theorem round_ne_nan (value : Rat) : binary32.round value ≠ .nan := by
  simp only [binary32]
  split
  · exact FloatValue.noConfusion
  · split
    · exact FloatValue.noConfusion
    · exact FloatValue.noConfusion

/-- Only the no-data code becomes no-data. -/
theorem decodedElevation_ne_nan {minimum scale : Rat} {code : Nat}
    (hcode : code ≠ terrainTileNoDataCode) :
    decodedElevation binary32 (.finite minimum) (.finite scale) code
      ≠ .nan := by
  unfold decodedElevation
  rw [if_neg hcode]
  show binary32.add _ (binary32.round _) ≠ _
  have hround := round_ne_nan (code * scale)
  cases hproduct : binary32.round (code * scale) with
  | nan => exact absurd hproduct hround
  | infinity negative => exact FloatValue.noConfusion
  | finite value => exact round_ne_nan _

/-- The decoder leaves one thing unchecked: that the samples which are
not no-data are finite. -/
theorem valid_iff_finite (h : f.Admissible binary32)
    {datum : TerrainVerticalDatum} :
    isValidTerrainTile (f.tile binary32 datum) = true ↔
      ∀ code ∈ f.codes, code ≠ terrainTileNoDataCode →
        (decodedElevation binary32 (binary32.ofBits f.minimumBits)
          (binary32.ofBits f.scaleBits) code).isFinite = true := by
  have haddress : isValidTerrainTileAddress (f.tile binary32 datum).address
      = true := validAddress_iff.2 ⟨h.zoom, h.tileX, h.tileY⟩
  have hdataset : isValidTerrainDatasetId (f.tile binary32 datum).dataset
      = true := h.dataset
  have hresolution : isValidResolution
      (f.tile binary32 datum).nominalResolutionM = true := by
    obtain ⟨resolution, h0, hbits⟩ := h.resolution
    have hbounds := ofBits_bounds hbits
    show isValidResolution (binary32.ofBits f.resolutionBits) = true
    rw [hbits]
    simp [isValidResolution, h0, hbounds.2]
  have hdatum : isValidTerrainVerticalDatum
      (f.tile binary32 datum).verticalDatum = true := by
    cases datum <;> rfl
  have hcount : (f.tile binary32 datum).elevationsM.length
      = terrainTileSampleCount := by
    rw [TileFields.tile, List.length_map, h.count]
    rfl
  have helevations : (f.tile binary32 datum).elevationsM = f.codes.map
      (decodedElevation binary32 (binary32.ofBits f.minimumBits)
        (binary32.ofBits f.scaleBits)) := rfl
  unfold isValidTerrainTile terrainTileError
  rw [haddress, hdataset, hresolution, hdatum, hcount, helevations]
  simp only [Bool.true_eq_false, if_false, ne_eq, not_true]
  constructor
  · intro hvalid code hmem hcode
    split at hvalid
    · cases hvalid
    · rename_i hany
      by_contra hnot
      apply hany
      rw [List.any_map, List.any_eq_true]
      refine ⟨code, hmem, ?_⟩
      obtain ⟨minimum, hminimum⟩ := h.minimum
      obtain ⟨scale, -, hscale⟩ := h.scale
      rw [hminimum, hscale] at hnot ⊢
      have hnan := @decodedElevation_ne_nan minimum scale code hcode
      simp [hnot, hnan]
  · intro hfinite
    obtain ⟨code, hmem, hcode⟩ := h.data
    rw [if_neg, if_neg]
    · rfl
    · rw [Bool.not_eq_false, List.any_map, List.any_eq_true]
      exact ⟨code, hmem, hfinite code hmem hcode⟩
    · rw [List.any_map, List.any_eq_true]
      rintro ⟨c, hc, hbad⟩
      by_cases hdata : c = terrainTileNoDataCode
      · simp [decodedElevation, hdata, FloatValue.isFinite] at hbad
      · simp [hfinite c hc hdata] at hbad

-- ====================================================== decoded tiles

/-- No computation of a decoded elevation leaves the range of a float. -/
def TileFields.InRange (f : TileFields) : Prop :=
  ∀ minimum scale, FloatValue.ofBits f.minimumBits = .finite minimum →
    FloatValue.ofBits f.scaleBits = .finite scale →
    ∀ code ∈ f.codes, code ≠ terrainTileNoDataCode →
      CodeInRange minimum scale code

theorem valid_iff_inRange (h : f.Admissible binary32)
    (datum : TerrainVerticalDatum) :
    isValidTerrainTile (f.tile binary32 datum) = true ↔ f.InRange := by
  obtain ⟨minimum, hminimum⟩ := h.minimum
  obtain ⟨scale, hscale0, hscale⟩ := h.scale
  have hlow := (ofBits_bounds hminimum).1
  rw [valid_iff_finite h, hminimum, hscale]
  constructor
  · intro hfinite minimum' scale' hminimum' hscale' code hmem hcode
    have hsame : FloatValue.finite minimum' = .finite minimum :=
      hminimum'.symm.trans hminimum
    have hsame' : FloatValue.finite scale' = .finite scale :=
      hscale'.symm.trans hscale
    cases hsame
    cases hsame'
    exact (decodedElevation_finite hlow hscale0 hcode).1
      (hfinite code hmem hcode)
  · intro hrange code hmem hcode
    exact (decodedElevation_finite hlow hscale0 hcode).2
      (hrange minimum scale hminimum hscale code hmem hcode)

/-- **A decoded tile is valid exactly when its elevations stay in the
range of a float.** -/
theorem decoded_valid_iff {tile : TerrainTile}
    (h : decodeTerrainTile binary32 data = .ok tile) :
    isValidTerrainTile tile = true ↔ (TileFields.read data).InRange := by
  obtain ⟨hadmissible, -, datum, -, rfl⟩ := layout_of_decode h
  exact valid_iff_inRange hadmissible datum

/-- Fields of a tile whose samples all have one code. -/
def evenFields (minimumBits scaleBits code : Nat) : TileFields where
  datumCode := 1
  zoom := 0
  tileX := 0
  tileY := 0
  minimumBits := minimumBits
  scaleBits := scaleBits
  resolutionBits := 0
  dataset := "dem"
  codes := List.replicate 4225 code

theorem zero_float : binary32.ofBits 0 = .finite 0 := by
  show FloatValue.ofBits 0 = _
  norm_num [FloatValue.ofBits]

theorem evenFields_admissible {minimumBits scaleBits code : Nat}
    (hminimum : minimumBits < 2 ^ 32) (hscale : scaleBits < 2 ^ 32)
    (hminimumValue : ∃ value,
      binary32.ofBits minimumBits = .finite value)
    (hscaleValue : ∃ value, 0 ≤ value ∧
      binary32.ofBits scaleBits = .finite value)
    (hcode : code < 65535) :
    (evenFields minimumBits scaleBits code).Admissible binary32 where
  datum := Nat.one_le_ofNat
  zoom := Nat.zero_le 30
  tileX := Nat.one_pos
  tileY := Nat.one_pos
  minimumBits := hminimum
  scaleBits := hscale
  resolutionBits := Nat.two_pow_pos 32
  minimum := hminimumValue
  scale := hscaleValue
  resolution := ⟨0, le_refl _, zero_float⟩
  dataset := by
    show isValidTerrainDatasetId "dem" = true
    decide +kernel
  count := List.length_replicate
  range := by
    intro c hc
    rw [List.eq_of_mem_replicate hc]
    omega
  data := ⟨code, List.mem_replicate.2 ⟨by decide, rfl⟩, by omega⟩

theorem one_bits : binary32.ofBits 0x3F800000 = .finite 1 := by
  have hsign : Nat.testBit 0x3F800000 31 = false := rfl
  show FloatValue.ofBits 0x3F800000 = _
  norm_num [FloatValue.ofBits, hsign]

/-- A tile at eight metres: seven steps of one metre over one. -/
def eightMetres : TileFields := evenFields 0x3F800000 0x3F800000 7

theorem eightMetres_admissible : eightMetres.Admissible binary32 :=
  evenFields_admissible (by simp) (by simp) ⟨1, one_bits⟩
    ⟨1, zero_le_one, one_bits⟩ (by simp)

/-- Its file is decoded. -/
theorem decode_eightMetres :
    decodeTerrainTile binary32 eightMetres.layout
      = .ok (eightMetres.tile binary32 .wgs84Ellipsoid) :=
  decode_layout eightMetres_admissible rfl

/-- To a valid tile. -/
theorem decoded_valid_iff_flat : ∃ data tile,
    decodeTerrainTile binary32 data = .ok tile ∧
      isValidTerrainTile tile = true := by
  refine ⟨_, _, decode_eightMetres,
    (decoded_valid_iff decode_eightMetres).2 ?_⟩
  rw [read_layout eightMetres_admissible]
  intro minimum scale hminimum hscale code hcode _
  cases one_bits.symm.trans hminimum
  cases one_bits.symm.trans hscale
  rw [List.eq_of_mem_replicate hcode]
  constructor
  · norm_num [FloatValue.maximum]
  · norm_num [FloatValue.maximum]

/-- An accepted file whose minimum and scale are both the largest float:
code one is decoded to an infinite sample. -/
theorem decoded_tile_overflows : ∃ data tile,
    decodeTerrainTile binary32 data = .ok tile ∧
      isValidTerrainTile tile = false := by
  have hmaximum : binary32.ofBits 0x7F7FFFFF
      = .finite FloatValue.maximum := by decide +kernel
  have hpositive : 0 < FloatValue.maximum := by norm_num [FloatValue.maximum]
  have hfields : (evenFields 0x7F7FFFFF 0x7F7FFFFF 1).Admissible binary32 :=
    evenFields_admissible (by simp) (by simp) ⟨_, hmaximum⟩
      ⟨_, hpositive.le, hmaximum⟩ (by simp)
  refine ⟨_, _, @decode_layout binary32 _ hfields .wgs84Ellipsoid rfl, ?_⟩
  rw [← Bool.not_eq_true, valid_iff_inRange hfields]
  intro hrange
  obtain ⟨-, hsum⟩ := hrange _ _ hmaximum hmaximum 1
    (List.mem_replicate.2 ⟨by decide, rfl⟩) (by decide)
  norm_num at hsum
  linarith

end AowisMap.Terrain
