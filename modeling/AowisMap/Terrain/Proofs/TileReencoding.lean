/-
A tile that comes back from its bytes is encoded to the same bytes.

# Why nothing is lost twice

The samples that are decoded keep the smallest and the largest elevation,
so the second scale is the first, and every one of them lies on a step, so
its code is the one it came from (`Divides.code_decoded`).
-/
import AowisMap.Terrain.Proofs.TileRoundTrip

namespace AowisMap.Terrain

-- ================================================================ codes

/-- A decoded sample has the code it was decoded from. -/
theorem Divides.code_decoded {minimum maximum scale value : Rat}
    (h : Divides minimum maximum scale) (hlow : minimum ≤ value)
    (hhigh : value ≤ maximum) :
    elevationCode minimum scale (.finite (minimum
        + elevationCode minimum scale (.finite value) * scale))
      = elevationCode minimum scale (.finite value) := by
  by_cases hscale : scale = 0
  · simp only [elevationCode, if_pos hscale]
  · have hle := (h.code hscale hlow hhigh).2
    generalize elevationCode minimum scale (.finite value) = code at hle ⊢
    have hstep : (minimum + code * scale - minimum) / scale = (code : Rat) := by
      rw [add_sub_cancel_left, mul_div_cancel_right₀ _ hscale]
    have hmaximum : terrainTileMaximumElevationCode = 65534 := rfl
    simp only [elevationCode, if_neg hscale]
    rw [hstep, qRound64_natCast]
    omega

variable {tile : TerrainTile} {data : Bytes} {scale : Rat}

/-- No-data stays no-data, and data keeps its code. -/
theorem elevationCode_exactDecoded {minimum maximum : Rat}
    (h : Divides minimum maximum scale) {sample : FloatValue}
    (hbetween : ∀ value, sample = .finite value →
      minimum ≤ value ∧ value ≤ maximum) :
    elevationCode minimum scale (exactDecoded minimum scale sample)
      = elevationCode minimum scale sample := by
  cases sample with
  | nan => rfl
  | infinity negative => rfl
  | finite value =>
      obtain ⟨hlow, hhigh⟩ := hbetween value rfl
      exact h.code_decoded hlow hhigh

-- ================================================================ tiles

/-- What is decoded is a valid tile. -/
theorem decodedTile_valid (htile : ValidTile tile) (scale : Rat) :
    isValidTerrainTile (decodedTile tile scale) = true := by
  obtain ⟨resolution, hnonneg, hle, hresolution⟩ := htile.resolution
  have hresolution : isValidResolution tile.nominalResolutionM = true :=
    isValidResolution_iff.2 ⟨resolution, hnonneg, hle, hresolution⟩
  have hdatum : isValidTerrainVerticalDatum tile.verticalDatum = true := by
    cases tile.verticalDatum with
    | unknown => rfl
    | wgs84Ellipsoid => rfl
    | egm96 => rfl
    | egm2008 => rfl
    | «local» => rfl
  have hnumbers : ((decodedTile tile scale).elevationsM.any fun sample =>
      !sample.isFinite && sample != .nan) = false := by
    rw [List.any_eq_false]
    intro sample hsample
    obtain ⟨original, -, rfl⟩ := List.mem_map.1 hsample
    cases original with
    | nan => exact Bool.false_ne_true
    | infinity negative => exact Bool.false_ne_true
    | finite value => exact Bool.false_ne_true
  have hdata : (decodedTile tile scale).elevationsM.any FloatValue.isFinite
      = true := by
    obtain ⟨value, hvalue⟩ := List.exists_mem_of_ne_nil _
      (decoded_data htile (minimumElevation tile.elevationsM) scale)
    exact List.any_eq_true.2 ⟨_, mem_finiteSamples.1 hvalue, rfl⟩
  have hcount : (decodedTile tile scale).elevationsM.length
      = terrainTileSampleCount :=
    (List.length_map _).trans htile.count
  unfold isValidTerrainTile terrainTileError
  rw [hnumbers, hdata, hcount]
  show (if isValidTerrainTileAddress tile.address = false then _
    else if isValidTerrainDatasetId tile.dataset = false then _
    else if isValidResolution tile.nominalResolutionM = false then _
    else if isValidTerrainVerticalDatum tile.verticalDatum = false then _
    else _ : Option String).isNone = true
  rw [htile.address, htile.dataset, hresolution, hdatum]
  simp

/-- The fields of a decoded tile are those it was decoded from. -/
theorem encodedFields_decodedTile {fmt : FloatFormat}
    (htile : ValidTile tile)
    (h : Divides (minimumElevation tile.elevationsM)
      (maximumElevation tile.elevationsM) scale) :
    encodedFields fmt (decodedTile tile scale) scale
      = encodedFields fmt tile scale := by
  have hminimum : minimumElevation (decodedTile tile scale).elevationsM
      = minimumElevation tile.elevationsM := minimum_decoded htile h
  have hcodes : (decodedTile tile scale).elevationsM.map
        (elevationCode (minimumElevation tile.elevationsM) scale)
      = tile.elevationsM.map
        (elevationCode (minimumElevation tile.elevationsM) scale) := by
    show (tile.elevationsM.map _).map _ = _
    rw [List.map_map]
    apply List.map_congr_left
    intro sample hsample
    apply elevationCode_exactDecoded h
    intro value hvalue
    rw [hvalue] at hsample
    exact htile.between hsample
  unfold encodedFields
  rw [hminimum, hcodes]
  rfl

variable {toBits : FloatValue → Nat} {ofBits : Nat → FloatValue}
  {toBits_lt : ∀ value, toBits value < 256 ^ 4}

/-- **Repackaging loses nothing**: in exact arithmetic, with the header's
floats stored exactly, the tile that an encoded one is decoded to is
encoded to the same bytes. -/
theorem encode_decode_encode
    (h : encodeTerrainTile (exactFormat toBits ofBits toBits_lt) tile
      = .ok data)
    (hminimum : (exactFormat toBits ofBits toBits_lt).Exact
      (.finite (minimumElevation tile.elevationsM)))
    (hscale : (exactFormat toBits ofBits toBits_lt).Exact
      (elevationScale (exactFormat toBits ofBits toBits_lt)
        (minimumElevation tile.elevationsM)
        (maximumElevation tile.elevationsM)))
    (hresolution : (exactFormat toBits ofBits toBits_lt).Exact
      tile.nominalResolutionM) :
    ∃ decoded,
      decodeTerrainTile (exactFormat toBits ofBits toBits_lt) data
        = .ok decoded ∧
      encodeTerrainTile (exactFormat toBits ofBits toBits_lt) decoded
        = .ok data := by
  obtain ⟨hvalid, scale, hscaleValue, hnonneg, rfl⟩ := encode_inv h
  rw [hscaleValue] at hscale
  have htile := validTile_inv hvalid
  have hdivides := divides_exact htile hscaleValue
  refine ⟨decodedTile tile scale, (decode_exact htile hscaleValue hnonneg
    hminimum hscale hresolution).1, ?_⟩
  have hminimum' : minimumElevation (decodedTile tile scale).elevationsM
      = minimumElevation tile.elevationsM := minimum_decoded htile hdivides
  have hmaximum' : maximumElevation (decodedTile tile scale).elevationsM
      = maximumElevation tile.elevationsM := maximum_decoded htile hdivides
  have hsecond : elevationScale (exactFormat toBits ofBits toBits_lt)
      (minimumElevation (decodedTile tile scale).elevationsM)
      (maximumElevation (decodedTile tile scale).elevationsM)
      = .finite scale := by
    rw [hminimum', hmaximum']
    exact hscaleValue
  rw [encode_ok (decodedTile_valid htile scale) hsecond hnonneg,
    encodedFields_decodedTile htile hdivides]

/-- The tile of two elevations. -/
theorem encode_decode_encode_range : ∃ data decoded,
    decodeTerrainTile (exactFormat FloatValue.toBits FloatValue.ofBits
      FloatValue.toBits_lt) data = .ok decoded ∧
    encodeTerrainTile (exactFormat FloatValue.toBits FloatValue.ofBits
      FloatValue.toBits_lt) decoded = .ok data := by
  obtain ⟨data, hencode, hminimum, hscale, hresolution⟩ := rangeTile_exact
  exact ⟨data, encode_decode_encode hencode hminimum hscale hresolution⟩

end AowisMap.Terrain
