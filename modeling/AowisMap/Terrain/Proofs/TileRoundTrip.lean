/-
Encoding a tile and decoding it again, in exact arithmetic: everything
comes back but the finite samples, and those come back within half a
step, in order, with both ends of the range exact.

# Steps

The codes of a tile divide the range of its elevations into 65534 steps
(`Divides`): the scale times 65534 is the range, and a range of length
zero has scale zero and the one code zero. Clamping does nothing then,
so a code is the nearest step (`Divides.near`), and rounding keeps the
order (`Divides.mono`).
-/
import AowisMap.Terrain.Proofs.TileFormat
import Mathlib.Algebra.Order.Round

namespace AowisMap.Terrain

open Lib Lib.LittleEndian

variable {tile : TerrainTile} {data : Bytes} {samples : List FloatValue}

-- ============================================================ rounding

theorem qRound64_of_nonneg {value : Rat} (h : 0 ≤ value) :
    qRound64 value = ⌊value + 1 / 2⌋ :=
  Rounding.roundAway_of_nonneg h

/-- Rounding moves a value by at most a half. -/
theorem qRound64_near (value : Rat) :
    |(qRound64 value : Rat) - value| ≤ 1 / 2 :=
  Rounding.roundAway_near value

theorem qRound64_mono {a b : Rat} (h0 : 0 ≤ a) (h : a ≤ b) :
    qRound64 a ≤ qRound64 b := by
  rw [qRound64_of_nonneg h0, qRound64_of_nonneg (h0.trans h)]
  exact Int.floor_mono (by linarith)

theorem qRound64_natCast (n : Nat) : qRound64 (n : Rat) = n := by
  rw [qRound64, ← Int.cast_natCast n, Rounding.roundAway_intCast]

-- ============================================================== samples

theorem mem_finiteSamples {value : Rat} :
    value ∈ finiteSamples samples ↔ .finite value ∈ samples := by
  rw [finiteSamples, List.mem_filterMap]
  constructor
  · rintro ⟨sample, hmem, hsome⟩
    cases sample with
    | nan => cases hsome
    | infinity negative => cases hsome
    | finite v =>
        cases hsome
        exact hmem
  · intro hmem
    exact ⟨.finite value, hmem, rfl⟩

/-- The smallest finite sample is one of them, and none is smaller. -/
theorem minimumElevation_least (h : finiteSamples samples ≠ []) :
    IsLeast { value | value ∈ finiteSamples samples }
      (minimumElevation samples) := by
  unfold minimumElevation
  cases hcases : finiteSamples samples with
  | nil => exact absurd hcases h
  | cons first rest =>
      have hmin : (first :: rest).min? = some (rest.foldl min first) :=
        List.min?_cons'
      rw [List.min?_eq_some_iff] at hmin
      exact ⟨hmin.1, fun value hvalue => hmin.2 value hvalue⟩

/-- The largest finite sample is one of them, and none is larger. -/
theorem maximumElevation_greatest (h : finiteSamples samples ≠ []) :
    IsGreatest { value | value ∈ finiteSamples samples }
      (maximumElevation samples) := by
  unfold maximumElevation
  cases hcases : finiteSamples samples with
  | nil => exact absurd hcases h
  | cons first rest =>
      have hmax : (first :: rest).max? = some (rest.foldl max first) :=
        List.max?_cons'
      rw [List.max?_eq_some_iff] at hmax
      exact ⟨hmax.1, fun value hvalue => hmax.2 value hvalue⟩

-- ================================================================ steps

/-- A scale that divides a range of elevations into 65534 steps. -/
structure Divides (minimum maximum scale : Rat) : Prop where
  ordered : minimum ≤ maximum
  nonneg : 0 ≤ scale
  range : scale * 65534 = maximum - minimum

namespace Divides

variable {minimum maximum scale value : Rat}
  (h : Divides minimum maximum scale)

include h

/-- The scale that is zero belongs to a range of length zero. -/
theorem flat (hscale : scale = 0) (hlow : minimum ≤ value)
    (hhigh : value ≤ maximum) : value = minimum := by
  have hrange := h.range
  rw [hscale, zero_mul] at hrange
  linarith

/-- Where a sample lies, in steps. -/
theorem position (hscale : scale ≠ 0) (hlow : minimum ≤ value)
    (hhigh : value ≤ maximum) :
    0 ≤ (value - minimum) / scale ∧ (value - minimum) / scale ≤ 65534 := by
  have hpositive : 0 < scale := lt_of_le_of_ne h.nonneg (Ne.symm hscale)
  constructor
  · exact div_nonneg (by linarith) h.nonneg
  · rw [div_le_iff₀ hpositive]
    have hrange := h.range
    linarith

/-- The code of a sample is its position, rounded: the clamp does
nothing. -/
theorem code (hscale : scale ≠ 0) (hlow : minimum ≤ value)
    (hhigh : value ≤ maximum) :
    (elevationCode minimum scale (.finite value) : Int)
        = qRound64 ((value - minimum) / scale) ∧
      elevationCode minimum scale (.finite value) ≤ 65534 := by
  obtain ⟨hpos, hle⟩ := h.position hscale hlow hhigh
  have h0 : 0 ≤ qRound64 ((value - minimum) / scale) := by
    have hmono := qRound64_mono (le_refl 0) hpos
    have hzero : qRound64 0 = 0 := qRound64_natCast 0
    rwa [hzero] at hmono
  have htop : qRound64 ((value - minimum) / scale) ≤ 65534 := by
    have hmono := qRound64_mono hpos hle
    have hlast : qRound64 (65534 : Rat) = 65534 := qRound64_natCast 65534
    rwa [hlast] at hmono
  have hcode : elevationCode minimum scale (.finite value)
      = (qRound64 ((value - minimum) / scale)).toNat := by
    unfold elevationCode
    simp only
    rw [if_neg hscale, max_eq_left h0]
    congr 1
    exact min_eq_left htop
  rw [hcode, Int.toNat_of_nonneg h0]
  refine ⟨rfl, ?_⟩
  rw [Int.toNat_le]
  exact htop

theorem code_le (hlow : minimum ≤ value) (hhigh : value ≤ maximum) :
    elevationCode minimum scale (.finite value) ≤ 65534 := by
  by_cases hscale : scale = 0
  · simp [elevationCode, hscale]
  · exact (h.code hscale hlow hhigh).2

/-- A decoded sample is within half a step of its original. -/
theorem near (hlow : minimum ≤ value) (hhigh : value ≤ maximum) :
    |minimum + elevationCode minimum scale (.finite value) * scale - value|
      ≤ scale / 2 := by
  by_cases hscale : scale = 0
  · rw [h.flat hscale hlow hhigh, hscale]
    simp
  · obtain ⟨hpos, -⟩ := h.position hscale hlow hhigh
    have hcode := (h.code hscale hlow hhigh).1
    have hcast : (elevationCode minimum scale (.finite value) : Rat)
        = qRound64 ((value - minimum) / scale) := by
      exact_mod_cast congrArg (Int.cast : Int → Rat) hcode
    have hnear := qRound64_near ((value - minimum) / scale)
    have hvalue : value - minimum = (value - minimum) / scale * scale := by
      rw [div_mul_cancel₀ _ hscale]
    have herror : minimum + qRound64 ((value - minimum) / scale) * scale
        - value = (qRound64 ((value - minimum) / scale)
          - (value - minimum) / scale) * scale := by
      rw [sub_mul, ← hvalue]
      ring
    rw [hcast, herror, abs_mul, abs_of_nonneg h.nonneg]
    calc |(qRound64 ((value - minimum) / scale) : Rat)
          - (value - minimum) / scale| * scale
        ≤ 1 / 2 * scale := mul_le_mul_of_nonneg_right hnear h.nonneg
      _ = scale / 2 := by ring

/-- Rounding keeps the order of two samples. -/
theorem mono {other : Rat} (hlow : minimum ≤ value) (hle : value ≤ other)
    (hhigh : other ≤ maximum) :
    elevationCode minimum scale (.finite value)
      ≤ elevationCode minimum scale (.finite other) := by
  by_cases hscale : scale = 0
  · simp [elevationCode, hscale]
  · obtain ⟨hpos, -⟩ := h.position hscale hlow (hle.trans hhigh)
    have hcode := (h.code hscale hlow (hle.trans hhigh)).1
    have hcode' := (h.code hscale (hlow.trans hle) hhigh).1
    have hdiv : (value - minimum) / scale ≤ (other - minimum) / scale :=
      div_le_div_of_nonneg_right (by linarith) h.nonneg
    have hround := qRound64_mono hpos hdiv
    rw [← hcode, ← hcode'] at hround
    exact_mod_cast hround

/-- The smallest elevation is decoded as it is. -/
theorem decoded_minimum :
    minimum + elevationCode minimum scale (.finite minimum) * scale
      = minimum := by
  have hzero : qRound64 0 = 0 := qRound64_natCast 0
  by_cases hscale : scale = 0
  · simp [elevationCode, hscale]
  · have hcode := (h.code hscale (le_refl minimum) h.ordered).1
    rw [sub_self, zero_div, hzero] at hcode
    have hnone : elevationCode minimum scale (.finite minimum) = 0 := by
      exact_mod_cast hcode
    rw [hnone, Nat.cast_zero, zero_mul, add_zero]

/-- The largest elevation is decoded as it is. -/
theorem decoded_maximum :
    minimum + elevationCode minimum scale (.finite maximum) * scale
      = maximum := by
  have hrange := h.range
  by_cases hscale : scale = 0
  · rw [hscale, zero_mul] at hrange
    rw [hscale, mul_zero]
    linarith
  · have hcode := (h.code hscale h.ordered (le_refl maximum)).1
    have hlast : qRound64 (65534 : Rat) = 65534 := qRound64_natCast 65534
    rw [← hrange, mul_div_cancel_left₀ _ hscale, hlast] at hcode
    have hall : elevationCode minimum scale (.finite maximum) = 65534 := by
      exact_mod_cast hcode
    rw [hall]
    push_cast
    linarith

end Divides

-- ========================================================= valid tiles

/-- What `isValidTerrainTile` lets pass. -/
structure ValidTile (tile : TerrainTile) : Prop where
  address : isValidTerrainTileAddress tile.address = true
  dataset : isValidTerrainDatasetId tile.dataset = true
  resolution : ∃ value, 0 ≤ value ∧ value ≤ FloatValue.maximum ∧
    tile.nominalResolutionM = .finite value
  count : tile.elevationsM.length = 4225
  samples : ∀ sample ∈ tile.elevationsM,
    sample = .nan ∨ ∃ value, sample = .finite value
  data : finiteSamples tile.elevationsM ≠ []

theorem isValidResolution_iff {value : FloatValue} :
    isValidResolution value = true ↔
      ∃ q, 0 ≤ q ∧ q ≤ FloatValue.maximum ∧ value = .finite q := by
  cases value with
  | nan => simp [isValidResolution]
  | infinity negative => simp [isValidResolution]
  | finite q => simp [isValidResolution]

theorem validTile_inv (h : isValidTerrainTile tile = true) :
    ValidTile tile := by
  unfold isValidTerrainTile terrainTileError at h
  split at h
  · cases h
  rename_i haddress
  split at h
  · cases h
  rename_i hdataset
  split at h
  · cases h
  rename_i hresolution
  split at h
  · cases h
  split at h
  · cases h
  rename_i hcount
  split at h
  · cases h
  rename_i hsamples
  split at h
  · cases h
  rename_i hdata
  rw [Bool.not_eq_false] at haddress hdataset hresolution hdata
  refine ⟨haddress, hdataset, isValidResolution_iff.1 hresolution,
    not_not.1 hcount, ?_, ?_⟩
  · intro sample hmem
    cases sample with
    | nan => exact Or.inl rfl
    | finite value => exact Or.inr ⟨value, rfl⟩
    | infinity negative =>
        exfalso
        apply hsamples
        rw [List.any_eq_true]
        exact ⟨_, hmem, rfl⟩
  · obtain ⟨sample, hmem, hfinite⟩ := List.any_eq_true.1 hdata
    obtain ⟨value, rfl⟩ := isFinite_iff.1 hfinite
    exact List.ne_nil_of_mem (mem_finiteSamples.2 hmem)

/-- Every finite sample of a valid tile lies between its two ends. -/
theorem ValidTile.between (h : ValidTile tile) {value : Rat}
    (hmem : .finite value ∈ tile.elevationsM) :
    minimumElevation tile.elevationsM ≤ value ∧
      value ≤ maximumElevation tile.elevationsM :=
  ⟨(minimumElevation_least h.data).2 (mem_finiteSamples.2 hmem),
    (maximumElevation_greatest h.data).2 (mem_finiteSamples.2 hmem)⟩

-- ============================================================= encoding

section Encoding

variable {fmt : FloatFormat}

/-- The fields the encoder stores. -/
def encodedFields (fmt : FloatFormat) (tile : TerrainTile) (scale : Rat) :
    TileFields where
  datumCode := verticalDatumCode tile.verticalDatum
  zoom := tile.address.zoom.toNat
  tileX := tile.address.x
  tileY := tile.address.y
  minimumBits := fmt.toBits (.finite (minimumElevation tile.elevationsM))
  scaleBits := fmt.toBits (.finite scale)
  resolutionBits := fmt.toBits tile.nominalResolutionM
  dataset := tile.dataset
  codes := tile.elevationsM.map
    (elevationCode (minimumElevation tile.elevationsM) scale)

/-- An encoded tile is the layout of its fields. -/
theorem encode_inv (h : encodeTerrainTile fmt tile = .ok data) :
    isValidTerrainTile tile = true ∧
      ∃ scale, elevationScale fmt (minimumElevation tile.elevationsM)
          (maximumElevation tile.elevationsM) = .finite scale ∧
        0 ≤ scale ∧ data = (encodedFields fmt tile scale).layout := by
  unfold encodeTerrainTile at h
  cases herror : terrainTileError tile with
  | some message =>
      rw [herror] at h
      cases h
  | none =>
      rw [herror] at h
      simp only at h
      split at h
      · rename_i scale hscale
        split at h
        · cases h
        · rename_i hnonneg
          split at h
          · cases h
          · cases h
            refine ⟨?_, scale, hscale, not_lt.1 hnonneg, rfl⟩
            rw [isValidTerrainTile, herror]
            rfl
      · cases h

/-- A valid tile whose scale is a finite float is encoded. -/
theorem encode_ok (hvalid : isValidTerrainTile tile = true) {scale : Rat}
    (hscale : elevationScale fmt (minimumElevation tile.elevationsM)
      (maximumElevation tile.elevationsM) = .finite scale)
    (hnonneg : 0 ≤ scale) :
    encodeTerrainTile fmt tile
      = .ok (encodedFields fmt tile scale).layout := by
  have hdataset := (datasetId_ascii (validTile_inv hvalid).dataset).2
  have herror : terrainTileError tile = none :=
    Option.isNone_iff_eq_none.1 hvalid
  unfold encodeTerrainTile
  rw [herror]
  simp only [hscale]
  rw [if_neg (not_lt.2 hnonneg), if_neg]
  · rfl
  · rw [fixedHeaderBytes]
    omega

theorem elevationCode_lt (minimum scale : Rat) (sample : FloatValue) :
    elevationCode minimum scale sample < 65536 := by
  have hnodata : terrainTileNoDataCode = 65535 := rfl
  have hmaximum : terrainTileMaximumElevationCode = 65534 := rfl
  cases sample with
  | nan => simp [elevationCode, hnodata]
  | infinity negative => simp [elevationCode, hnodata]
  | finite value =>
      simp only [elevationCode]
      split
      · omega
      · rw [hmaximum]
        omega

theorem zoom_nonneg {address : TerrainTileAddress}
    (h : isValidTerrainTileAddress address = true) : 0 ≤ address.zoom := by
  simp only [isValidTerrainTileAddress, Bool.and_eq_true,
    decide_eq_true_eq] at h
  exact h.1.1.1

/-- What is encoded keeps the constraints of the format as soon as its
three floats are stored as floats of the same kind. -/
theorem encodedFields_admissible (hvalid : ValidTile tile) {scale : Rat}
    (hminimum : ∃ value, fmt.ofBits (fmt.toBits
      (.finite (minimumElevation tile.elevationsM))) = .finite value)
    (hscale : ∃ value, 0 ≤ value ∧
      fmt.ofBits (fmt.toBits (.finite scale)) = .finite value)
    (hresolution : ∃ value, 0 ≤ value ∧
      fmt.ofBits (fmt.toBits tile.nominalResolutionM) = .finite value)
    (hcodes : ∀ value, .finite value ∈ tile.elevationsM →
      elevationCode (minimumElevation tile.elevationsM) scale
        (.finite value) ≤ 65534) :
    (encodedFields fmt tile scale).Admissible fmt := by
  have haddress := hvalid.address
  simp only [isValidTerrainTileAddress, Bool.and_eq_true,
    decide_eq_true_eq] at haddress
  obtain ⟨⟨⟨hzoom0, hzoom⟩, hx⟩, hy⟩ := haddress
  have hmaximum : (terrainTileMaximumZoom : Int) = 30 := rfl
  have hdata := (minimumElevation_least hvalid.data).1
  exact
    { datum := datumCode_le (verticalDatumFromCode_code _)
      zoom := by
        show tile.address.zoom.toNat ≤ 30
        omega
      tileX := hx
      tileY := hy
      minimumBits := fmt.toBits_lt _
      scaleBits := fmt.toBits_lt _
      resolutionBits := fmt.toBits_lt _
      minimum := hminimum
      scale := hscale
      resolution := hresolution
      dataset := hvalid.dataset
      count := by
        rw [encodedFields, List.length_map, hvalid.count]
      range := by
        intro code hmem
        obtain ⟨sample, -, rfl⟩ := List.mem_map.1 hmem
        exact elevationCode_lt _ _ sample
      data := by
        have hsample := mem_finiteSamples.1 hdata
        refine ⟨_, List.mem_map.2 ⟨_, hsample, rfl⟩, ?_⟩
        have hle := hcodes _ hsample
        omega }

end Encoding

-- ========================================================== round trips

section Exact

variable {toBits : FloatValue → Nat} {ofBits : Nat → FloatValue}
  {toBits_lt : ∀ value, toBits value < 256 ^ 4}

/-- The scale of a valid tile divides its range. -/
theorem divides_exact (h : ValidTile tile) {scale : Rat}
    (hscale : elevationScale (exactFormat toBits ofBits toBits_lt)
      (minimumElevation tile.elevationsM)
      (maximumElevation tile.elevationsM) = .finite scale) :
    Divides (minimumElevation tile.elevationsM)
      (maximumElevation tile.elevationsM) scale := by
  have hordered : minimumElevation tile.elevationsM
      ≤ maximumElevation tile.elevationsM :=
    (minimumElevation_least h.data).2 (maximumElevation_greatest h.data).1
  have hsteps : (terrainTileMaximumElevationCode : Rat) = 65534 := rfl
  unfold elevationScale at hscale
  rw [hsteps] at hscale
  split at hscale
  · cases hscale
    refine ⟨hordered, by positivity, ?_⟩
    rw [div_mul_cancel₀]
    norm_num
  · cases hscale
    refine ⟨hordered, le_refl 0, ?_⟩
    linarith

/-- The elevation a sample is decoded to. -/
def exactDecoded (minimum scale : Rat) : FloatValue → FloatValue
  | .finite value =>
      .finite (minimum + elevationCode minimum scale (.finite value) * scale)
  | _ => .nan

theorem decodedElevation_exact {minimum maximum scale : Rat}
    (h : Divides minimum maximum scale) {sample : FloatValue}
    (hbetween : ∀ value, sample = .finite value →
      minimum ≤ value ∧ value ≤ maximum) :
    decodedElevation (exactFormat toBits ofBits toBits_lt)
        (.finite minimum) (.finite scale) (elevationCode minimum scale sample)
      = exactDecoded minimum scale sample := by
  cases sample with
  | nan => rfl
  | infinity negative => rfl
  | finite value =>
      obtain ⟨hlow, hhigh⟩ := hbetween value rfl
      have hcode := h.code_le hlow hhigh
      have hnodata : terrainTileNoDataCode = 65535 := rfl
      unfold decodedElevation
      rw [if_neg (by omega)]
      rfl

theorem getElem?_decoded (minimum scale : Rat) (i : Nat) :
    (samples.map (exactDecoded minimum scale))[i]?
      = (samples[i]?).map (exactDecoded minimum scale) :=
  List.getElem?_map

/-- No-data stands where no-data stood. -/
theorem decoded_nan (h : ValidTile tile) {minimum scale : Rat} (i : Nat) :
    (tile.elevationsM[i]?).map (exactDecoded minimum scale) = some .nan ↔
      tile.elevationsM[i]? = some .nan := by
  cases hsample : tile.elevationsM[i]? with
  | none => simp
  | some sample =>
      rcases h.samples sample (List.mem_of_getElem? hsample) with
        rfl | ⟨value, rfl⟩
      · simp [exactDecoded]
      · simp [exactDecoded]

/-- The finite samples of a decoded tile. -/
theorem mem_decoded {minimum scale value : Rat} :
    value ∈ finiteSamples (samples.map (exactDecoded minimum scale)) ↔
      ∃ original, .finite original ∈ samples ∧
        minimum + elevationCode minimum scale (.finite original) * scale
          = value := by
  rw [mem_finiteSamples, List.mem_map]
  constructor
  · rintro ⟨sample, hmem, hsample⟩
    cases sample with
    | nan => cases hsample
    | infinity negative => cases hsample
    | finite original =>
        cases hsample
        exact ⟨original, hmem, rfl⟩
  · rintro ⟨original, hmem, rfl⟩
    exact ⟨.finite original, hmem, rfl⟩

theorem decoded_data (h : ValidTile tile) (minimum scale : Rat) :
    finiteSamples (tile.elevationsM.map (exactDecoded minimum scale)) ≠ [] :=
  List.ne_nil_of_mem (mem_decoded.2 ⟨_, mem_finiteSamples.1
    (minimumElevation_least h.data).1, rfl⟩)

section Ends

variable {scale : Rat} (htile : ValidTile tile)
  (h : Divides (minimumElevation tile.elevationsM)
    (maximumElevation tile.elevationsM) scale)

include htile h

/-- The smallest decoded sample is the smallest sample. -/
theorem minimum_decoded : minimumElevation (tile.elevationsM.map
      (exactDecoded (minimumElevation tile.elevationsM) scale))
    = minimumElevation tile.elevationsM := by
  apply (minimumElevation_least (decoded_data htile _ scale)).unique
  constructor
  · exact mem_decoded.2 ⟨_, mem_finiteSamples.1
      (minimumElevation_least htile.data).1, h.decoded_minimum⟩
  · intro value hvalue
    obtain ⟨original, -, rfl⟩ := mem_decoded.1 hvalue
    have hnonneg := h.nonneg
    have hstep : 0 ≤ (elevationCode (minimumElevation tile.elevationsM) scale
        (.finite original) : Rat) * scale := by positivity
    linarith

/-- The largest decoded sample is the largest sample. -/
theorem maximum_decoded : maximumElevation (tile.elevationsM.map
      (exactDecoded (minimumElevation tile.elevationsM) scale))
    = maximumElevation tile.elevationsM := by
  apply (maximumElevation_greatest (decoded_data htile _ scale)).unique
  constructor
  · exact mem_decoded.2 ⟨_, mem_finiteSamples.1
      (maximumElevation_greatest htile.data).1, h.decoded_maximum⟩
  · intro value hvalue
    obtain ⟨original, hmem, rfl⟩ := mem_decoded.1 hvalue
    obtain ⟨hlow, hhigh⟩ := htile.between hmem
    have hcode := h.mono hlow hhigh (le_refl _)
    have hcast : (elevationCode (minimumElevation tile.elevationsM) scale
        (.finite original) : Rat) ≤ elevationCode
          (minimumElevation tile.elevationsM) scale
          (.finite (maximumElevation tile.elevationsM)) :=
      Nat.cast_le.2 hcode
    have hmul := mul_le_mul_of_nonneg_right hcast h.nonneg
    have htop := h.decoded_maximum
    linarith

end Ends

/-- The tile that is decoded from an encoded one. -/
def decodedTile (tile : TerrainTile) (scale : Rat) : TerrainTile where
  address := tile.address
  dataset := tile.dataset
  nominalResolutionM := tile.nominalResolutionM
  verticalDatum := tile.verticalDatum
  elevationsM := tile.elevationsM.map
    (exactDecoded (minimumElevation tile.elevationsM) scale)

/-- An encoded tile is decoded, sample by sample. -/
theorem decode_exact {scale : Rat} (htile : ValidTile tile)
    (hscaleValue : elevationScale (exactFormat toBits ofBits toBits_lt)
      (minimumElevation tile.elevationsM)
      (maximumElevation tile.elevationsM) = .finite scale)
    (hnonneg : 0 ≤ scale)
    (hminimum : (exactFormat toBits ofBits toBits_lt).Exact
      (.finite (minimumElevation tile.elevationsM)))
    (hscale : (exactFormat toBits ofBits toBits_lt).Exact (.finite scale))
    (hresolution : (exactFormat toBits ofBits toBits_lt).Exact
      tile.nominalResolutionM) :
    decodeTerrainTile (exactFormat toBits ofBits toBits_lt)
        (encodedFields (exactFormat toBits ofBits toBits_lt) tile
          scale).layout = .ok (decodedTile tile scale) ∧
      ofBits (readHeader (encodedFields (exactFormat toBits ofBits toBits_lt)
        tile scale).layout).scaleBits = .finite scale := by
  have hdivides := divides_exact htile hscaleValue
  obtain ⟨resolution, hresolution0, -, hresolutionValue⟩ := htile.resolution
  have hcodes : ∀ value, .finite value ∈ tile.elevationsM →
      elevationCode (minimumElevation tile.elevationsM) scale
        (.finite value) ≤ 65534 := fun value hmem =>
    hdivides.code_le (htile.between hmem).1 (htile.between hmem).2
  have hstored : ofBits (toBits tile.nominalResolutionM)
      = tile.nominalResolutionM := hresolution
  have hadmissible : (encodedFields (exactFormat toBits ofBits toBits_lt)
      tile scale).Admissible (exactFormat toBits ofBits toBits_lt) :=
    encodedFields_admissible htile ⟨_, hminimum⟩ ⟨_, hnonneg, hscale⟩
      ⟨_, hresolution0, hstored.trans hresolutionValue⟩ hcodes
  refine ⟨?_, ?_⟩
  · rw [decode_layout hadmissible (verticalDatumFromCode_code _)]
    congr 1
    unfold TileFields.tile decodedTile
    rw [TerrainTile.mk.injEq]
    refine ⟨?_, rfl, hstored, rfl, ?_⟩
    · have hzoom := zoom_nonneg htile.address
      show TerrainTileAddress.mk (tile.address.zoom.toNat : Int) _ _ = _
      rw [Int.toNat_of_nonneg hzoom]
      rfl
    · -- every sample is decoded by itself
      show (tile.elevationsM.map _).map (decodedElevation _ (ofBits _)
        (ofBits _)) = _
      have hminimum : ofBits (toBits
          (.finite (minimumElevation tile.elevationsM))) = _ := hminimum
      have hscale : ofBits (toBits (.finite scale)) = _ := hscale
      rw [List.map_map]
      apply List.map_congr_left
      intro sample hmem
      show decodedElevation _ (ofBits (toBits _)) (ofBits (toBits _)) _ = _
      rw [hminimum, hscale]
      apply decodedElevation_exact hdivides
      intro value hvalue
      rw [hvalue] at hmem
      exact htile.between hmem
  · rw [readHeader_layout hadmissible]
    exact hscale

/-- What comes back when the bytes of an encoded tile are decoded. -/
structure RoundTrip (fmt : FloatFormat) (tile : TerrainTile) (data : Bytes)
    (decoded : TerrainTile) : Prop where
  address : decoded.address = tile.address
  dataset : decoded.dataset = tile.dataset
  verticalDatum : decoded.verticalDatum = tile.verticalDatum
  nominalResolution : decoded.nominalResolutionM = tile.nominalResolutionM
  count : decoded.elevationsM.length = tile.elevationsM.length
  nodata : ∀ i : Nat, decoded.elevationsM[i]? = some .nan ↔
    tile.elevationsM[i]? = some .nan
  minimum : minimumElevation decoded.elevationsM
    = minimumElevation tile.elevationsM
  maximum : maximumElevation decoded.elevationsM
    = maximumElevation tile.elevationsM
  near : ∀ scale, fmt.ofBits (readHeader data).scaleBits = .finite scale →
    ∀ (i : Nat) (value : Rat), tile.elevationsM[i]? = some (.finite value) →
      ∃ result, decoded.elevationsM[i]? = some (.finite result) ∧
        |result - value| ≤ scale / 2
  order : ∀ (i j : Nat) (a b : Rat),
    tile.elevationsM[i]? = some (.finite a) →
    tile.elevationsM[j]? = some (.finite b) → a ≤ b →
    ∃ a' b', decoded.elevationsM[i]? = some (.finite a') ∧
      decoded.elevationsM[j]? = some (.finite b') ∧ a' ≤ b'

/-- **Terrain tiles survive the codec**: in exact arithmetic, with the
header's floats stored exactly, every encoded tile is decoded, and what
comes back is the tile up to half a step of its samples. -/
theorem decode_encode
    (hvalid : isValidTerrainTile tile = true)
    (h : encodeTerrainTile (exactFormat toBits ofBits toBits_lt) tile
      = .ok data)
    (hminimum : (exactFormat toBits ofBits toBits_lt).Exact
      (.finite (minimumElevation tile.elevationsM)))
    (hscale : (exactFormat toBits ofBits toBits_lt).Exact
      (elevationScale (exactFormat toBits ofBits toBits_lt)
        (minimumElevation tile.elevationsM)
        (maximumElevation tile.elevationsM)))
    (hresolution : (exactFormat toBits ofBits toBits_lt).Exact
      tile.nominalResolutionM) :
    ∃ decoded, decodeTerrainTile (exactFormat toBits ofBits toBits_lt) data
        = .ok decoded ∧
      RoundTrip (exactFormat toBits ofBits toBits_lt) tile data decoded := by
  obtain ⟨-, scale, hscaleValue, hnonneg, rfl⟩ := encode_inv h
  rw [hscaleValue] at hscale
  have htile := validTile_inv hvalid
  have hdivides := divides_exact htile hscaleValue
  obtain ⟨hdecode, hheader⟩ := decode_exact htile hscaleValue hnonneg
    hminimum hscale hresolution
  refine ⟨decodedTile tile scale, hdecode, ?_⟩
  exact
    { address := rfl
      dataset := rfl
      verticalDatum := rfl
      nominalResolution := rfl
      count := List.length_map _
      nodata := by
        intro i
        show (tile.elevationsM.map _)[i]? = _ ↔ _
        rw [getElem?_decoded]
        exact decoded_nan htile i
      minimum := minimum_decoded htile hdivides
      maximum := maximum_decoded htile hdivides
      near := by
        intro scale' hscale' i value hvalue
        have hsame : FloatValue.finite scale' = .finite scale :=
          hscale'.symm.trans hheader
        cases hsame
        have hbetween := htile.between (List.mem_of_getElem? hvalue)
        show ∃ result, (tile.elevationsM.map _)[i]? = _ ∧ _
        rw [getElem?_decoded, hvalue]
        exact ⟨_, rfl, hdivides.near hbetween.1 hbetween.2⟩
      order := by
        intro i j a b ha hb hle
        have hlow := (htile.between (List.mem_of_getElem? ha)).1
        have hhigh := (htile.between (List.mem_of_getElem? hb)).2
        have hcode := hdivides.mono hlow hle hhigh
        have hcast : (elevationCode (minimumElevation tile.elevationsM) scale
            (.finite a) : Rat) ≤ elevationCode
              (minimumElevation tile.elevationsM) scale (.finite b) :=
          Nat.cast_le.2 hcode
        show ∃ a' b', (tile.elevationsM.map _)[i]? = _ ∧
          (tile.elevationsM.map _)[j]? = _ ∧ _
        rw [getElem?_decoded, getElem?_decoded, ha, hb]
        refine ⟨_, _, rfl, rfl, ?_⟩
        have hmul := mul_le_mul_of_nonneg_right hcast hnonneg
        linarith }

end Exact

/-- Two elevations and no-data everywhere else. -/
def rangeTile : TerrainTile where
  address :=
    { zoom := 8
      x := 1
      y := 2 }
  dataset := "dem"
  nominalResolutionM := .finite 1
  verticalDatum := .egm2008
  elevationsM := .finite 1 :: .finite 65535 :: List.replicate 4223 .nan

theorem one_float :
    FloatValue.ofBits (FloatValue.toBits (.finite 1)) = .finite 1 := by
  have hlog : Int.log 2 (1 : Rat) = 0 := Int.log_one_right 2
  have hbits : FloatValue.toBits (.finite 1) = FloatValue.magnitudeBits 1 := by
    rw [FloatValue.toBits, if_neg one_ne_zero, if_neg (by norm_num)]
  have hround : FloatValue.roundEven (8388608 : Rat) = 8388608 := by
    have hlow : (8388608 : Rat) - ((8388608 : Nat) : Rat) < 1 / 2 := by norm_num
    unfold FloatValue.roundEven
    rw [Int.floor_ofNat]
    exact if_pos hlow
  have hmagnitude : FloatValue.magnitudeBits 1 = 0x3F800000 := by
    have hshift : (1 : Rat) * 2 ^ (23 - max (0 : Int) (-126)) = 8388608 := by
      norm_num
    unfold FloatValue.magnitudeBits
    dsimp only
    rw [hlog, hshift, hround]
    rfl
  have hsign : Nat.testBit 0x3F800000 31 = false := rfl
  rw [hbits, hmagnitude, FloatValue.ofBits]
  norm_num [hsign]

/-- It is a tile, and its ends are those two. -/
theorem rangeTile_checked : isValidTerrainTile rangeTile = true ∧
    minimumElevation rangeTile.elevationsM = 1 ∧
    maximumElevation rangeTile.elevationsM = 65535 := by
  decide +kernel

/-- It is encoded, and the floats of its header are stored exactly. -/
theorem rangeTile_exact : ∃ data,
    encodeTerrainTile (exactFormat FloatValue.toBits FloatValue.ofBits
      FloatValue.toBits_lt) rangeTile = .ok data ∧
    (exactFormat FloatValue.toBits FloatValue.ofBits
      FloatValue.toBits_lt).Exact
        (.finite (minimumElevation rangeTile.elevationsM)) ∧
    (exactFormat FloatValue.toBits FloatValue.ofBits
      FloatValue.toBits_lt).Exact
        (elevationScale (exactFormat FloatValue.toBits FloatValue.ofBits
          FloatValue.toBits_lt) (minimumElevation rangeTile.elevationsM)
          (maximumElevation rangeTile.elevationsM)) ∧
    (exactFormat FloatValue.toBits FloatValue.ofBits
      FloatValue.toBits_lt).Exact rangeTile.nominalResolutionM := by
  have hscale : elevationScale (exactFormat FloatValue.toBits
      FloatValue.ofBits FloatValue.toBits_lt)
      (minimumElevation rangeTile.elevationsM)
      (maximumElevation rangeTile.elevationsM) = .finite 1 := by
    rw [rangeTile_checked.2.1, rangeTile_checked.2.2, elevationScale,
      if_pos (by norm_num)]
    show FloatValue.finite _ = _
    norm_num [terrainTileMaximumElevationCode]
  have hone : FloatFormat.Exact (exactFormat FloatValue.toBits
      FloatValue.ofBits FloatValue.toBits_lt) (.finite 1) := by
    rw [FloatFormat.Exact]
    simp only [exactFormat]
    exact one_float
  have hresolution : rangeTile.nominalResolutionM = .finite 1 := rfl
  refine ⟨_, encode_ok rangeTile_checked.1 hscale zero_le_one, ?_, ?_, ?_⟩
  · rw [rangeTile_checked.2.1]
    exact hone
  · rw [hscale]
    exact hone
  · rw [hresolution]
    exact hone

/-- The tile of two elevations comes back. -/
theorem decode_encode_range : ∃ data decoded,
    decodeTerrainTile (exactFormat FloatValue.toBits FloatValue.ofBits
      FloatValue.toBits_lt) data = .ok decoded ∧
    RoundTrip (exactFormat FloatValue.toBits FloatValue.ofBits
      FloatValue.toBits_lt) rangeTile data decoded := by
  obtain ⟨data, hencode, hminimum, hscale, hresolution⟩ := rangeTile_exact
  exact ⟨data, decode_encode rangeTile_checked.1 hencode hminimum hscale
    hresolution⟩

end AowisMap.Terrain
