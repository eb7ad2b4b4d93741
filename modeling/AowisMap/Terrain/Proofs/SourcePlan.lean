/-
The source cells that are planned for a tile or a grid, and those that
are read for it.

# Two computations

The plan is made of borders and margins before any raster is open. The
reading rounds to pixels of rasters whose columns it finds there. They
meet in the cells a point reaches (`Reaches`) and, for the averages of a
tile, in the cells around its boxes.
-/
import AowisMap.Terrain.TileSampling
import AowisMap.Terrain.Proofs.AnalysisGrid

namespace AowisMap.Terrain

open Lib

-- ============================================================== reading

/-- Rasters of the sizes the plans are made for. -/
def SourceRaster.Planned (raster : SourceRaster) : Prop :=
  raster.pixelHeight = 3600 ∧ 360 ≤ raster.pixelWidth

def PlannedSizes (load : CopernicusSourceAddress → SourceLoad) : Prop :=
  ∀ address raster downloaded, load address = .ready raster downloaded →
    raster.Planned

namespace CopernicusRasterSet

variable (load : CopernicusSourceAddress → SourceLoad)
  {rasters : CopernicusRasterSet} {base : CopernicusSourceAddress}
  {planned : List CopernicusSourceAddress}

variable {load} in
theorem raster_planned (hsizes : PlannedSizes load)
    {address : CopernicusSourceAddress} {source : SourceRaster}
    {rasters' : CopernicusRasterSet}
    (h : rasters.raster load address = (some source, rasters')) :
    source.Planned := by
  unfold raster at h
  cases hload : load address with
  | unavailable =>
      rw [hload] at h
      cases h
  | failed status errorMessage =>
      rw [hload] at h
      cases h
  | ready raster downloaded =>
      rw [hload] at h
      cases h
      exact hsizes address _ downloaded hload

theorem raster_subset {address : CopernicusSourceAddress}
    (haddress : address ∈ planned) (hasked : rasters.asked ⊆ planned) :
    (rasters.raster load address).2.asked ⊆ planned := by
  rw [raster_asked]
  exact List.cons_subset.2 ⟨haddress, hasked⟩

theorem sourceGridValue_subset {baseWidth baseHeight column row : Int}
    (haddress : gridAddress base baseWidth baseHeight column row ∈ planned)
    (hasked : rasters.asked ⊆ planned) :
    (rasters.sourceGridValue load base baseWidth baseHeight column
      row).2.asked ⊆ planned := by
  rw [sourceGridValue_asked]
  exact List.cons_subset.2 ⟨haddress, hasked⟩

section

variable {K : Type*} [Field K] [LinearOrder K] [FloorRing K]
  {latitude longitude : K}

omit [FloorRing K] in
/-- The loop over the pixels around a point asks for those that have
weight. -/
theorem weightedValue_subset {baseWidth baseHeight : Int} :
    ∀ (pixels : List (K × Int × Int)) (rasters : CopernicusRasterSet)
      (weighted : K),
      (∀ pixel ∈ pixels, epsilon < pixel.1 →
        gridAddress base baseWidth baseHeight pixel.2.1 pixel.2.2
          ∈ planned) →
      rasters.asked ⊆ planned →
      (weightedValue load base baseWidth baseHeight rasters weighted
        pixels).2.asked ⊆ planned := by
  intro pixels
  induction pixels with
  | nil => exact fun rasters weighted _ hasked => hasked
  | cons pixel rest ih =>
      intro rasters weighted hpixels hasked
      obtain ⟨weight, column, row⟩ := pixel
      have hrest := fun pixel hmem =>
        hpixels pixel (List.mem_cons_of_mem _ hmem)
      unfold weightedValue
      by_cases hweight : weight ≤ epsilon
      · rw [if_pos hweight]
        exact ih rasters weighted hrest hasked
      · rw [if_neg hweight]
        have hvalue := sourceGridValue_subset load
          (hpixels _ List.mem_cons_self (not_le.1 hweight)) hasked
        generalize rasters.sourceGridValue load base baseWidth baseHeight
          column row = result at hvalue ⊢
        obtain ⟨value, rasters'⟩ := result
        cases value with
        | none => exact hvalue
        | some value => exact ih rasters' _ hrest hvalue

theorem pixelSizeAt_subset
    (hbase : sourceAddressForCoordinate latitude longitude ∈ planned)
    (hasked : rasters.asked ⊆ planned) :
    (rasters.pixelSizeAt load latitude longitude).2.asked ⊆ planned := by
  unfold pixelSizeAt
  by_cases hfatal : rasters.fatalStatus.isSome = true
  · rw [if_pos hfatal]
    exact hasked
  · rw [if_neg hfatal]
    have hraster := raster_subset load hbase hasked
    generalize rasters.raster load
      (sourceAddressForCoordinate latitude longitude) = result at hraster ⊢
    obtain ⟨source, rasters'⟩ := result
    cases source with
    | none => exact hraster
    | some source => exact hraster

variable [IsStrictOrderedRing K]

/-- The last pixel before the eastern border is within the margin. -/
theorem margin_of_last {width : Int} (hwidth : 360 ≤ width)
    (h : (width : K) - 1 ≤ (longitude - base.westDeg) * width) :
    base.westDeg + 1 - sourceNeighbourLongitudeMarginDeg ≤ longitude := by
  have hwide : (360 : K) ≤ width := by exact_mod_cast hwidth
  have hmargin : (sourceNeighbourLongitudeMarginDeg : K) * width ≥ 1 := by
    unfold sourceNeighbourLongitudeMarginDeg
    linarith
  have hscaled : (1 - sourceNeighbourLongitudeMarginDeg : K) * width
      ≤ (longitude - base.westDeg) * width := by
    rw [sub_mul, one_mul]
    linarith
  have hoffset := le_of_mul_le_mul_right hscaled (by linarith)
  linarith

/-- The columns around a point: the second one counts only if the point
is east of the first. -/
theorem sample_columns {width : Int} (hcell : OnCell base latitude longitude)
    (hwidth : 360 ≤ width) {column : Int} {fraction : K}
    (hcolumn : column = max 0 ⌊(longitude - base.westDeg) * width⌋)
    (hfraction : fraction
      = max 0 (min ((longitude - base.westDeg) * width - column) 1)) :
    0 ≤ column ∧ column ≤ width ∧ (column = width → base.westDeg = 179) ∧
      (0 < fraction → column + 1 ≤ width ∧ (column + 1 = width →
        base.westDeg + 1 - sourceNeighbourLongitudeMarginDeg
          ≤ longitude)) := by
  have hpos : (360 : K) ≤ width := by exact_mod_cast hwidth
  have hoffset : 0 ≤ longitude - base.westDeg := by
    have hwest := hcell.west_le
    linarith
  have hfloor : 0 ≤ ⌊(longitude - base.westDeg) * width⌋ :=
    Int.floor_nonneg.2 (mul_nonneg hoffset (by linarith))
  rw [max_eq_right hfloor] at hcolumn
  rcases lt_or_eq_of_le hcell.le_east with hinside | hborder
  · have hless : (longitude - base.westDeg) * width < 1 * width :=
      mul_lt_mul_of_pos_right (by linarith) (by linarith)
    rw [one_mul] at hless
    have hlast : column < width := hcolumn ▸ Int.floor_lt.2 hless
    refine ⟨hcolumn ▸ hfloor, hlast.le, fun h => absurd h hlast.ne,
      fun _ => ⟨hlast, fun hnext => ?_⟩⟩
    have hlow := Int.floor_le ((longitude - base.westDeg) * width)
    rw [← hcolumn] at hlow
    have hnext : (column : K) = width - 1 := by
      have h : column = width - 1 := by omega
      exact_mod_cast h
    exact margin_of_last hwidth (hnext ▸ hlow)
  · -- the last column of the ring ends at 180 degrees
    have hwest : base.westDeg = 179 := by
      by_contra hne
      have hle := hcell.westDeg_le
      exact absurd hborder (hcell.lt_east (by omega)).ne
    have hvalue : (longitude - base.westDeg) * width = width := by
      rw [hborder]
      ring
    rw [hvalue] at hcolumn hfraction
    rw [Int.floor_intCast] at hcolumn
    rw [hcolumn, sub_self] at hfraction
    have hzero : fraction = 0 := by
      rw [hfraction, min_eq_left zero_le_one, max_self]
    exact ⟨by omega, hcolumn.le, fun _ => hwest,
      fun h => absurd hzero h.ne'⟩

/-- The rows around a point. -/
theorem sample_rows (hcell : OnCell base latitude longitude) {row : Int}
    (hrow : row = max 0
      ⌊(((base.southDeg + 1 : Int) : K) - latitude) * (3600 : Int)⌋) :
    0 ≤ row ∧ row + 1 ≤ 3600 ∧ (row + 1 = 3600 →
      latitude ≤ base.southDeg + sourceNeighbourLatitudeMarginDeg) := by
  have hsouth := hcell.south_lt
  have hlast : ⌊(((base.southDeg + 1 : Int) : K) - latitude)
      * (3600 : Int)⌋ < 3600 := by
    refine Int.floor_lt.2 ?_
    push_cast
    linarith
  refine ⟨hrow ▸ le_max_left _ _, by omega, fun hnext => ?_⟩
  have hfloor : ((3599 : Int) : K) ≤ (((base.southDeg + 1 : Int) : K)
      - latitude) * (3600 : Int) :=
    Int.le_floor.1 (by omega)
  unfold sourceNeighbourLatitudeMarginDeg
  push_cast at hfloor
  linarith

omit [FloorRing K] in
/-- A weight that counts has no factor that is zero. -/
theorem fraction_pos {fraction other : K} (hfraction : 0 ≤ fraction)
    (h : epsilon < fraction * other) : 0 < fraction := by
  refine lt_of_le_of_ne hfraction fun hzero => ?_
  have hepsilon : (0 : K) < epsilon := by
    unfold epsilon
    positivity
  rw [← hzero, zero_mul] at h
  exact absurd h hepsilon.le.not_gt

/-- `sample` keeps to the cells the point reaches. -/
theorem sample_subset (hsizes : PlannedSizes load)
    (hcell : OnCell (sourceAddressForCoordinate latitude longitude)
      latitude longitude)
    (hplanned : ∀ cell, Reaches
      (sourceAddressForCoordinate latitude longitude) latitude longitude
      cell → cell ∈ planned)
    (hasked : rasters.asked ⊆ planned) :
    (rasters.sample load latitude longitude).2.asked ⊆ planned := by
  unfold sample
  by_cases hfatal : rasters.fatalStatus.isSome = true
  · rw [if_pos hfatal]
    exact hasked
  rw [if_neg hfatal]
  dsimp only
  generalize sourceAddressForCoordinate latitude longitude = base
    at hcell hplanned ⊢
  have hraster := raster_subset load (hplanned base reaches_self) hasked
  cases hresult : rasters.raster load base with
  | mk source rasters' =>
  rw [hresult] at hraster
  cases source with
  | none => exact hraster
  | some raster =>
      obtain ⟨hheight, hwidth⟩ := raster_planned hsizes hresult
      dsimp only
      rw [hheight]
      generalize hcolumn : max 0 ⌊(longitude - base.westDeg)
        * raster.pixelWidth⌋ = column
      generalize hfraction : max 0 (min ((longitude - base.westDeg)
        * raster.pixelWidth - column) 1) = columnFraction
      generalize hrow : max 0 ⌊(((base.southDeg + 1 : Int) : K) - latitude)
        * (3600 : Int)⌋ = row
      generalize max 0 (min ((((base.southDeg + 1 : Int) : K) - latitude)
        * (3600 : Int) - row) 1) = rowFraction
      obtain ⟨hfirst, hlast, hmeridian, hnext⟩ :=
        sample_columns hcell hwidth hcolumn.symm hfraction.symm
      obtain ⟨hfirstRow, hnextRow, hsouth⟩ := sample_rows hcell hrow.symm
      have hnonneg : 0 ≤ columnFraction := hfraction ▸ le_max_left _ _
      have hreached : ∀ {column' row' : Int},
          column' = column ∨ column' = column + 1 ∧ 0 < columnFraction →
          row' = row ∨ row' = row + 1 →
          gridAddress base raster.pixelWidth 3600 column' row' ∈ planned := by
        intro column' row' hcolumns hrows
        refine hplanned _ (reaches_gridAddress hcell (by omega) (by omega)
          (by omega) ?_ ?_ ?_ ?_)
        · omega
        · rcases hcolumns with hsame | ⟨hsame, hpositive⟩
          · omega
          · have hlastNext := (hnext hpositive).1
            omega
        · intro hbeyond
          exact hsouth (by omega)
        · intro hbeyond hring
          rcases hcolumns with hsame | ⟨hsame, hpositive⟩
          · have hmeridian := hmeridian (by omega)
            omega
          · exact (hnext hpositive).2 (by omega)
      refine weightedValue_subset load _ rasters' 0 ?_ hraster
      intro pixel hpixel hweight
      simp only [List.mem_cons, List.not_mem_nil, or_false] at hpixel
      rcases hpixel with rfl | rfl | rfl | rfl
      · exact hreached (Or.inl rfl) (Or.inl rfl)
      · exact hreached (Or.inr ⟨rfl, fraction_pos hnonneg hweight⟩)
          (Or.inl rfl)
      · exact hreached (Or.inl rfl) (Or.inr rfl)
      · exact hreached (Or.inr ⟨rfl, fraction_pos hnonneg hweight⟩)
          (Or.inr rfl)

/-- `sampleNative` keeps to the cells the point reaches. -/
theorem sampleNative_subset (hsizes : PlannedSizes load)
    (hcell : OnCell (sourceAddressForCoordinate latitude longitude)
      latitude longitude)
    (hplanned : ∀ cell, Reaches
      (sourceAddressForCoordinate latitude longitude) latitude longitude
      cell → cell ∈ planned)
    (hasked : rasters.asked ⊆ planned) :
    (rasters.sampleNative load latitude longitude).2.asked ⊆ planned := by
  unfold sampleNative
  by_cases hfatal : rasters.fatalStatus.isSome = true
  · rw [if_pos hfatal]
    exact hasked
  rw [if_neg hfatal]
  dsimp only
  generalize sourceAddressForCoordinate latitude longitude = base
    at hcell hplanned ⊢
  have hraster := raster_subset load (hplanned base reaches_self) hasked
  cases hresult : rasters.raster load base with
  | mk source rasters' =>
  rw [hresult] at hraster
  cases source with
  | none => exact hraster
  | some raster =>
      obtain ⟨hheight, hwidth⟩ := raster_planned hsizes hresult
      have hwide : (360 : K) ≤ raster.pixelWidth := by exact_mod_cast hwidth
      have hcolumn := abs_le.1 (llround_near
        ((longitude - base.westDeg) * raster.pixelWidth))
      have hrow := abs_le.1 (llround_near
        ((((base.southDeg + 1 : Int) : K) - latitude) * (3600 : Int)))
      have hsouth := hcell.south_lt
      have heast := hcell.le_east
      dsimp only
      rw [hheight]
      generalize llround ((longitude - base.westDeg) * raster.pixelWidth)
        = column at hcolumn ⊢
      generalize llround ((((base.southDeg + 1 : Int) : K) - latitude)
        * (3600 : Int)) = row at hrow ⊢
      push_cast at hrow
      refine sourceGridValue_subset load (hplanned _ (reaches_gridAddress
        hcell (by omega) (le_max_left _ _) ?_ (le_max_left _ _) ?_ ?_ ?_))
        hraster
      · have hless : (row : K) < ((3601 : Int) : K) := by
          push_cast
          linarith
        have hless := Int.cast_lt.1 hless
        omega
      · have hbelow : (longitude - base.westDeg) * raster.pixelWidth
            ≤ 1 * raster.pixelWidth :=
          mul_le_mul_of_nonneg_right (by linarith) (by linarith)
        have hless : (column : K) < ((raster.pixelWidth + 1 : Int) : K) := by
          push_cast
          linarith
        have hless := Int.cast_lt.1 hless
        omega
      · intro hbeyond
        have hborder : row = 3600 := by omega
        rw [hborder] at hrow
        unfold sourceNeighbourLatitudeMarginDeg
        push_cast at hrow
        linarith
      · intro hbeyond hring
        have hborder : column = raster.pixelWidth := by omega
        rw [hborder] at hcolumn
        exact margin_of_last hwidth (by linarith)

end

end CopernicusRasterSet

end AowisMap.Terrain
