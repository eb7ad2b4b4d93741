/-
The cells a set of rasters is asked for.

# Reach

A point is sampled from the cell it lies in and from the pixels around
it, so from the neighbours to the south and to the east when it is close
to them (`Reaches`). Both ways to sample a point keep to that, whatever
the columns of the cells.
-/
import AowisMap.Terrain.RasterSet
import AowisMap.Terrain.Proofs.SourceCells

namespace AowisMap.Terrain

open Lib

/-- A raster that is read without failing, row by row. -/
def SourceRaster.ofPixels (width height : Int)
    (pixel : Int → Int → Option UInt32) : SourceRaster where
  pixelWidth := width
  pixelHeight := height
  pixel column row := (pixel column row, "")
  visitWindow window :=
    ((Steps.values window.rowFirst window.rowLast 1).map fun row =>
      { row := row
        column := window.columnFirst
        values :=
          (Steps.values window.columnFirst window.columnLast 1).map
            fun column => (pixel column row).getD quietNaN }, .ok ())

-- ================================================= the cells of a grid

variable {base : CopernicusSourceAddress} {column row baseWidth : Int}

/-- The cell that has a row, counted from a northern border: the southern
neighbour has the row after the last one. -/
def ownerOf (base : CopernicusSourceAddress) (row : Int) :
    CopernicusSourceAddress :=
  if row < 3600 then base else ⟨base.southDeg - 1, base.westDeg⟩

theorem ownerOf_westDeg (base : CopernicusSourceAddress) (row : Int) :
    (ownerOf base row).westDeg = base.westDeg := by
  unfold ownerOf
  by_cases hrow : row < 3600
  · rw [if_pos hrow]
  · rw [if_neg hrow]

/-- The cell a column and a row of the grid of `base` are read in. -/
def gridAddress (base : CopernicusSourceAddress)
    (baseWidth baseHeight column row : Int) : CopernicusSourceAddress :=
  sourceAddressForCoordinate
    (((base.southDeg + 1 : Int) : Rat) - (row : Rat) / (baseHeight : Rat))
    ((base.westDeg : Rat) + (column : Rat) / (baseWidth : Rat))

/-- The latitude of a row is one of the cell that has the row. -/
theorem southDeg_of_row (hsouth : -89 ≤ base.southDeg)
    (hnorth : base.southDeg < 89) (hrow : 0 ≤ row) (hlast : row ≤ 3600) :
    sourceSouthForLatitude
        (((base.southDeg + 1 : Int) : Rat) - (row : Rat) / ((3600 : Int) : Rat))
      = (ownerOf base row).southDeg := by
  have hzero : (0 : Rat) ≤ row := by exact_mod_cast hrow
  unfold ownerOf
  by_cases hinside : row < 3600
  · have hstep : (row : Rat) ≤ 3599 := by
      have hle : row ≤ 3599 := by omega
      exact_mod_cast hle
    rw [if_pos hinside]
    refine sourceSouthForLatitude_eq ?_ ?_ (by omega) hnorth
    · push_cast
      linarith
    · push_cast
      linarith
  · have hrow : row = 3600 := by omega
    rw [if_neg hinside, hrow]
    refine sourceSouthForLatitude_eq ?_ ?_ ?_ ?_
    · push_cast
      linarith
    · push_cast
      linarith
    · show -90 ≤ base.southDeg - 1
      omega
    · show base.southDeg - 1 < 89
      omega

theorem gridAddress_inside (hwest : -180 ≤ base.westDeg)
    (heast : base.westDeg ≤ 179) (hsouth : -89 ≤ base.southDeg)
    (hnorth : base.southDeg < 89) (hrow : 0 ≤ row) (hlast : row ≤ 3600)
    (hcolumn : 0 ≤ column) (hinside : column < baseWidth) :
    gridAddress base baseWidth 3600 column row = ownerOf base row := by
  have hzero : (0 : Rat) ≤ column := by exact_mod_cast hcolumn
  have hless : (column : Rat) < baseWidth := by exact_mod_cast hinside
  have hoffset : 0 ≤ (column : Rat) / (baseWidth : Rat) :=
    div_nonneg hzero (hzero.trans hless.le)
  have hbelow : (column : Rat) / (baseWidth : Rat) < 1 :=
    (div_lt_one (hzero.trans_lt hless)).2 hless
  unfold gridAddress sourceAddressForCoordinate
  rw [southDeg_of_row hsouth hnorth hrow hlast,
    sourceWestForLongitude_eq (by linarith) (by linarith) hwest heast,
    ← ownerOf_westDeg base row]

/-- The column after the last one lies in the next cell. -/
theorem gridAddress_east (hwest : -180 ≤ base.westDeg)
    (heast : base.westDeg < 179) (hsouth : -89 ≤ base.southDeg)
    (hnorth : base.southDeg < 89) (hrow : 0 ≤ row) (hlast : row ≤ 3600)
    (hwidth : 0 < baseWidth) :
    gridAddress base baseWidth 3600 baseWidth row
      = ⟨(ownerOf base row).southDeg, base.westDeg + 1⟩ := by
  have hpos : (baseWidth : Rat) ≠ 0 := by
    have hne : baseWidth ≠ 0 := by omega
    exact_mod_cast hne
  have hlongitude : (base.westDeg : Rat) + (baseWidth : Rat) / (baseWidth : Rat)
      = ((base.westDeg + 1 : Int) : Rat) := by
    rw [div_self hpos]
    push_cast
    ring
  have hwestDeg : sourceWestForLongitude ((base.westDeg + 1 : Int) : Rat)
      = base.westDeg + 1 :=
    sourceWestForLongitude_eq (le_refl _) (by linarith) (by omega) (by omega)
  unfold gridAddress sourceAddressForCoordinate
  rw [hlongitude, southDeg_of_row hsouth hnorth hrow hlast, hwestDeg]

/-- At 180 degrees it lies in the cell itself. -/
theorem gridAddress_meridian (hwest : base.westDeg = 179)
    (hsouth : -89 ≤ base.southDeg) (hnorth : base.southDeg < 89)
    (hrow : 0 ≤ row) (hlast : row ≤ 3600) (hwidth : 0 < baseWidth) :
    gridAddress base baseWidth 3600 baseWidth row = ownerOf base row := by
  have hpos : (baseWidth : Rat) ≠ 0 := by
    have hne : baseWidth ≠ 0 := by omega
    exact_mod_cast hne
  have hlongitude : (base.westDeg : Rat) + (baseWidth : Rat) / (baseWidth : Rat)
      = 180 := by
    rw [div_self hpos, hwest]
    norm_num
  have hwestDeg : sourceWestForLongitude (180 : Rat)
      = (ownerOf base row).westDeg := by
    rw [ownerOf_westDeg, hwest]
    exact if_pos (le_refl _)
  unfold gridAddress sourceAddressForCoordinate
  rw [hlongitude, southDeg_of_row hsouth hnorth hrow hlast, hwestDeg]

-- ============================================================== rasters

namespace CopernicusRasterSet

variable {load : CopernicusSourceAddress → SourceLoad}
  {rasters : CopernicusRasterSet} {address : CopernicusSourceAddress}

theorem raster_unavailable (h : load address = .unavailable) :
    rasters.raster load address
      = (none, { rasters with asked := address :: rasters.asked }) := by
  unfold raster
  rw [h]

theorem raster_ready {source : SourceRaster} {downloaded : Bool}
    (h : load address = .ready source downloaded) :
    rasters.raster load address
      = (some source, { rasters with
        downloadedAnySource := rasters.downloadedAnySource || downloaded
        asked := address :: rasters.asked }) := by
  unfold raster
  rw [h]

/-- A set is asked for the cells it loads. -/
@[simp] theorem raster_asked :
    (rasters.raster load address).2.asked = address :: rasters.asked := by
  unfold raster
  cases load address with
  | unavailable => rfl
  | failed status errorMessage => rfl
  | ready source downloaded => rfl

theorem sourceGridValue_asked (baseWidth baseHeight column row : Int) :
    (rasters.sourceGridValue load base baseWidth baseHeight column row).2.asked
      = gridAddress base baseWidth baseHeight column row :: rasters.asked := by
  have hasked : (rasters.raster load
      (gridAddress base baseWidth baseHeight column row)).2.asked
      = gridAddress base baseWidth baseHeight column row :: rasters.asked :=
    raster_asked
  unfold sourceGridValue
  dsimp only
  unfold gridAddress at hasked ⊢
  generalize rasters.raster load (sourceAddressForCoordinate (_ : Rat) _)
    = result at hasked ⊢
  obtain ⟨source, rasters'⟩ := result
  cases source with
  | none => exact hasked
  | some source =>
      dsimp only
      generalize source.pixel _ _ = pixel
      obtain ⟨value, pixelError⟩ := pixel
      cases value with
      | some value => exact hasked
      | none =>
          dsimp only
          by_cases herror : pixelError = ""
          · rw [if_pos herror]
            exact hasked
          · rw [if_neg herror]
            exact hasked

end CopernicusRasterSet

-- ================================================================ reach

section

variable {K : Type*} [Field K] [LinearOrder K] {latitude longitude : K}

/-- A point of a tile or a grid and the cell it lies in. -/
structure OnCell (base : CopernicusSourceAddress) (latitude longitude : K) :
    Prop where
  south_lt : (base.southDeg : K) < latitude
  le_north : latitude ≤ base.southDeg + 1 + 1 / 10 ^ 12
  west_le : (base.westDeg : K) ≤ longitude
  le_east : longitude ≤ base.westDeg + 1
  lt_east : base.westDeg < 179 → longitude < base.westDeg + 1
  southDeg_ge : -89 ≤ base.southDeg
  southDeg_lt : base.southDeg < 89
  westDeg_ge : -180 ≤ base.westDeg
  westDeg_le : base.westDeg ≤ 179

/-- The cells a point is sampled from, at most: its own, and the
neighbours it is close to. -/
structure Reaches (base : CopernicusSourceAddress) (latitude longitude : K)
    (cell : CopernicusSourceAddress) : Prop where
  row : cell.southDeg = base.southDeg ∨
    cell.southDeg = base.southDeg - 1 ∧
      latitude ≤ base.southDeg + sourceNeighbourLatitudeMarginDeg
  column : cell.westDeg = base.westDeg ∨
    cell.westDeg = base.westDeg + 1 ∧ base.westDeg < 179 ∧
      base.westDeg + 1 - sourceNeighbourLongitudeMarginDeg ≤ longitude

theorem InCell.onCell (h : InCell base latitude longitude) :
    OnCell base latitude longitude where
  south_lt := h.south_lt
  le_north := h.le_north
  west_le := h.west_le
  le_east := h.lt_east.le
  lt_east _ := h.lt_east
  southDeg_ge := le_trans (by decide) h.southDeg_ge
  southDeg_lt := lt_of_le_of_lt h.southDeg_le (by decide)
  westDeg_ge := h.westDeg_ge
  westDeg_le := h.westDeg_le

/-- A point of the ring, away from the poles, lies in the cell of its
coordinates. -/
theorem onCell [FloorRing K] [IsStrictOrderedRing K]
    (hsouth : -88 ≤ latitude) (hnorth : latitude ≤ 88)
    (hwest : -180 ≤ longitude) (heast : longitude ≤ 180) :
    OnCell (sourceAddressForCoordinate latitude longitude)
      latitude longitude := by
  obtain ⟨hrowLow, hrowHigh⟩ := @sourceSouthForLatitude_spec K _ _ _ latitude _
    (by linarith) (by linarith)
  have hsouthLow : ((-90 : Int) : K) < sourceSouthForLatitude latitude := by
    push_cast
    linarith
  have hsouthHigh : (sourceSouthForLatitude latitude : K)
      < ((89 : Int) : K) := by
    push_cast
    linarith
  have hsouthLow := Int.cast_lt.1 hsouthLow
  have hsouthHigh := Int.cast_lt.1 hsouthHigh
  unfold sourceAddressForCoordinate
  rcases lt_or_eq_of_le heast with hinside | hborder
  · have hring : sourceWestForLongitude longitude = ⌊longitude⌋ := by
      have hfloor : (⌊longitude⌋ : K) < ((180 : Int) : K) := by
        push_cast
        exact (Int.floor_le longitude).trans_lt hinside
      have hfloor := Int.cast_lt.1 hfloor
      exact sourceWestForLongitude_eq (Int.floor_le longitude)
        (Int.lt_floor_add_one longitude)
        (Int.le_floor.2 (by push_cast; exact hwest)) (by omega)
    have hlast : ⌊longitude⌋ < 180 :=
      Int.floor_lt.2 (by push_cast; exact hinside)
    rw [hring]
    exact
      { south_lt := by linarith
        le_north := hrowHigh
        west_le := Int.floor_le longitude
        le_east := (Int.lt_floor_add_one longitude).le
        lt_east := fun _ => Int.lt_floor_add_one longitude
        southDeg_ge := Int.add_one_le_iff.2 hsouthLow
        southDeg_lt := hsouthHigh
        westDeg_ge := Int.le_floor.2 (by push_cast; exact hwest)
        westDeg_le := Int.lt_add_one_iff.1 hlast }
  · have hmeridian : sourceWestForLongitude longitude = 179 :=
      if_pos hborder.ge
    rw [hmeridian]
    exact
      { south_lt := by linarith
        le_north := hrowHigh
        west_le := by push_cast; linarith
        le_east := by push_cast; linarith
        lt_east := fun h => absurd h (lt_irrefl (179 : Int))
        southDeg_ge := Int.add_one_le_iff.2 hsouthLow
        southDeg_lt := hsouthHigh
        westDeg_ge := show (-180 : Int) ≤ 179 by decide
        westDeg_le := le_refl _ }

theorem reaches_self : Reaches base latitude longitude base :=
  ⟨Or.inl rfl, Or.inl rfl⟩

/-- The pixels of the grid around a point lie in the cells it reaches. -/
theorem reaches_gridAddress (h : OnCell base latitude longitude)
    (hwidth : 0 < baseWidth) (hrow : 0 ≤ row) (hlastRow : row ≤ 3600)
    (hcolumn : 0 ≤ column) (hlastColumn : column ≤ baseWidth)
    (hsouth : row = 3600 →
      latitude ≤ base.southDeg + sourceNeighbourLatitudeMarginDeg)
    (heast : column = baseWidth → base.westDeg < 179 →
      base.westDeg + 1 - sourceNeighbourLongitudeMarginDeg ≤ longitude) :
    Reaches base latitude longitude
      (gridAddress base baseWidth 3600 column row) := by
  have howner : Reaches base latitude longitude (ownerOf base row) := by
    refine ⟨?_, Or.inl (ownerOf_westDeg base row)⟩
    unfold ownerOf
    by_cases hinside : row < 3600
    · rw [if_pos hinside]
      exact Or.inl rfl
    · rw [if_neg hinside]
      exact Or.inr ⟨rfl, hsouth (by omega)⟩
  rcases lt_or_eq_of_le hlastColumn with hinside | hbeyond
  · rw [gridAddress_inside h.westDeg_ge h.westDeg_le h.southDeg_ge
      h.southDeg_lt hrow hlastRow hcolumn hinside]
    exact howner
  · rw [hbeyond]
    rcases lt_or_eq_of_le h.westDeg_le with hring | hmeridian
    · rw [gridAddress_east h.westDeg_ge hring h.southDeg_ge h.southDeg_lt
        hrow hlastRow hwidth]
      exact ⟨howner.row, Or.inr ⟨rfl, hring, heast hbeyond hring⟩⟩
    · rw [gridAddress_meridian hmeridian h.southDeg_ge h.southDeg_lt hrow
        hlastRow hwidth]
      exact howner

end

end AowisMap.Terrain
