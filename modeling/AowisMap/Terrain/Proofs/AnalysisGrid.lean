/-
What a cell of an analysis grid shows, and when that is the nearest source
pixel.

# The grid of pixels

The rows of all source cells count from the north pole, 3600 to a degree.
The columns of a cell count from its western border, as many as the cell
has, and the first column of its eastern neighbour follows the last one.
`NearestPixel` says which pixel is nearest to a point: the nearest row
first, then the nearest column of the cell that has the row.

# Two roundings

The code finds the nearest column in the cell the point lies in, and
rounds the longitude of that column once more in the cell that has the
row. Both read the same row (`readPixel_eq`, `nearestPixel_iff`), so that
they read the same pixel is a matter of columns (`ReadsNearest`).
-/
import AowisMap.Terrain.AnalysisGrid
import AowisMap.Terrain.Proofs.RasterSet

namespace AowisMap.Terrain

open Lib Lib.Rounding

-- ========================================================= source cells

/-- Which source cells there are, by their columns. All have 3600 rows. -/
structure SourceGeometry where
  columns : CopernicusSourceAddress → Option Nat
  columns_ge : ∀ {address : CopernicusSourceAddress} {width : Nat},
    columns address = some width → 360 ≤ width

/-- The pixels of source cells; none is no data. -/
structure SourceCells (geometry : SourceGeometry) where
  pixel : CopernicusSourceAddress → Int → Int → Option UInt32
  valid : ∀ {address : CopernicusSourceAddress} {column row : Int}
    {bits : UInt32}, pixel address column row = some bits →
      validElevation bits = true
  downloaded : CopernicusSourceAddress → Bool

structure SourcePixel where
  address : CopernicusSourceAddress
  column : Int
  row : Int
deriving DecidableEq

variable {geometry : SourceGeometry} {base owner : CopernicusSourceAddress}
  {latitude longitude : Rat}

/-- The cells as a set of rasters finds them. -/
def SourceCells.load (cells : SourceCells geometry)
    (address : CopernicusSourceAddress) : SourceLoad :=
  match geometry.columns address with
  | none => .unavailable
  | some width =>
      .ready (SourceRaster.ofPixels width 3600 (cells.pixel address))
        (cells.downloaded address)

/-- The elevation of a pixel, none of no pixel. -/
def SourceCells.value (cells : SourceCells geometry) :
    Option SourcePixel → Option UInt32
  | none => none
  | some pixel => cells.pixel pixel.address pixel.column pixel.row

/-- A cell that is there has columns. -/
theorem SourceGeometry.columns_pos {address : CopernicusSourceAddress}
    {width : Nat} (h : geometry.columns address = some width) :
    0 < width := by
  have hge := geometry.columns_ge h
  omega

-- ==================================================== the nearest pixel

/-- The cell with a row, counted from the north pole, at a longitude. -/
def rowOwner (longitude : Rat) (row : Int) : CopernicusSourceAddress :=
  ⟨89 - row / 3600, ⌊longitude⌋⟩

/-- The neighbour to the east, on the ring of 360 columns. -/
def eastNeighbour (address : CopernicusSourceAddress) :
    CopernicusSourceAddress :=
  ⟨address.southDeg, (address.westDeg + 181) % 360 - 180⟩

/-- The pixel whose centre is nearest to a point, none if its cell is
missing. -/
inductive NearestPixel (geometry : SourceGeometry)
    (latitude longitude : Rat) : Option SourcePixel → Prop
  /-- No cell has the row here. -/
  | missing (row : Int) (hrow : Nearest ((90 - latitude) * 3600) row)
      (howner : geometry.columns (rowOwner longitude row) = none) :
      NearestPixel geometry latitude longitude none
  /-- A column of the cell that has the row. -/
  | inside (row column : Int) (width : Nat)
      (hrow : Nearest ((90 - latitude) * 3600) row)
      (howner : geometry.columns (rowOwner longitude row) = some width)
      (hcolumn : Nearest ((longitude - ⌊longitude⌋) * width) column)
      (hinside : column < width) :
      NearestPixel geometry latitude longitude
        (some ⟨rowOwner longitude row, column, row % 3600⟩)
  /-- The first column of the next cell. -/
  | east (row column : Int) (width eastWidth : Nat)
      (hrow : Nearest ((90 - latitude) * 3600) row)
      (howner : geometry.columns (rowOwner longitude row) = some width)
      (hcolumn : Nearest ((longitude - ⌊longitude⌋) * width) column)
      (hbeyond : width ≤ column)
      (heast : geometry.columns (eastNeighbour (rowOwner longitude row))
        = some eastWidth) :
      NearestPixel geometry latitude longitude
        (some ⟨eastNeighbour (rowOwner longitude row), 0, row % 3600⟩)
  /-- The first column of a next cell that is missing. -/
  | eastMissing (row column : Int) (width : Nat)
      (hrow : Nearest ((90 - latitude) * 3600) row)
      (howner : geometry.columns (rowOwner longitude row) = some width)
      (hcolumn : Nearest ((longitude - ⌊longitude⌋) * width) column)
      (hbeyond : width ≤ column)
      (heast : geometry.columns (eastNeighbour (rowOwner longitude row))
        = none) :
      NearestPixel geometry latitude longitude none

/-- The float that shows an elevation, a not-a-number for none. -/
def Shows (bits : UInt32) : Option UInt32 → Prop
  | none => FloatValue.ofBits bits.toNat = .nan
  | some value => bits = value

/-- Every sample of a grid is the nearest pixel; where no grid is
delivered, no sample has one. -/
inductive ShowsNearest (cells : SourceCells geometry)
    (request : TerrainAnalysisGridRequest) (grid : AnalysisGrid) : Prop
  | ready (hstatus : grid.status = .ready)
      (hsamples : ∀ row < request.rows.toNat,
        ∀ column < request.columns.toNat, ∃ pixel bits,
          NearestPixel geometry (request.latitude row)
            (request.longitude column) pixel ∧
          grid.elevationsM[row * request.columns.toNat + column]?
            = some bits ∧
          Shows bits (cells.value pixel))
  | unavailable (hstatus : grid.status = .sourceUnavailable)
      (hsamples : ∀ row < request.rows.toNat,
        ∀ column < request.columns.toNat, ∃ pixel,
          NearestPixel geometry (request.latitude row)
            (request.longitude column) pixel ∧
          cells.value pixel = none)

-- ============================================ where the pixels coincide

/-- The nearest column at an offset from the western border. -/
def nearestColumn (width : Nat) (offset : Rat) : Int :=
  ⌊offset * width + 1 / 2⌋

/-- The nearest row at a latitude, from the northern border. -/
def nearestRow (base : CopernicusSourceAddress) (latitude : Rat) : Int :=
  ⌊(base.southDeg + 1 - latitude) * 3600 + 1 / 2⌋

/-- The columns read and the nearest ones are the same, for a point at an
offset in the cell `base` whose nearest row is one of the cell `owner`. -/
def ReadsNearest (geometry : SourceGeometry)
    (base owner : CopernicusSourceAddress) (offset : Rat) : Prop :=
  match geometry.columns base, geometry.columns owner with
  | none, none => True
  | none, some width =>
      nearestColumn width offset = width ∧
        geometry.columns (eastNeighbour owner) = none
  | some baseWidth, none =>
      nearestColumn baseWidth offset = baseWidth → base.westDeg < 179 →
        geometry.columns (eastNeighbour owner) = none
  | some baseWidth, some width =>
      if nearestColumn width offset = width then
        nearestColumn baseWidth offset = baseWidth ∧ base.westDeg < 179
      else if nearestColumn baseWidth offset = baseWidth then
        base.westDeg = 179 ∧ nearestColumn width offset = width - 1
      else
        min ⌊(nearestColumn baseWidth offset : Rat) / baseWidth * width
            + 1 / 2⌋ (width - 1)
          = nearestColumn width offset

-- ==================================================== cells and points

namespace InCell

/-- The nearest row of a place in a cell is one of the cell, -/
theorem nearestRow_nonneg (h : InCell base latitude longitude) :
    0 ≤ nearestRow base latitude := by
  have hnorth := h.le_north
  refine Int.floor_nonneg.2 ?_
  linarith

/-- or the first one of the cell to the south. -/
theorem nearestRow_le (h : InCell base latitude longitude) :
    nearestRow base latitude ≤ 3600 := by
  have hsouth := h.south_lt
  refine Int.lt_add_one_iff.1 (Int.floor_lt.2 ?_)
  push_cast
  linarith

/-- The nearest column is one of the cell, -/
theorem nearestColumn_nonneg (h : InCell base latitude longitude)
    (width : Nat) : 0 ≤ nearestColumn width (longitude - base.westDeg) := by
  have hwest : 0 ≤ longitude - base.westDeg := by
    have hwest := h.west_le
    linarith
  refine Int.floor_nonneg.2 ?_
  positivity

/-- or the first one of the cell to the east. -/
theorem nearestColumn_le (h : InCell base latitude longitude)
    (width : Nat) :
    nearestColumn width (longitude - base.westDeg) ≤ width := by
  have heast := h.lt_east
  refine Int.lt_add_one_iff.1 (Int.floor_lt.2 ?_)
  have hwidth : (longitude - base.westDeg) * width ≤ 1 * width :=
    mul_le_mul_of_nonneg_right (by linarith) (Nat.cast_nonneg width)
  push_cast
  linarith

/-- The row the code rounds to. -/
theorem max_llround_row (h : InCell base latitude longitude) :
    max 0 (llround ((((base.southDeg + 1 : Int) : Rat) - latitude) * 3600))
      = nearestRow base latitude := by
  have hnorth := h.le_north
  unfold nearestRow
  push_cast
  by_cases hborder : 0 ≤ ((base.southDeg : Rat) + 1 - latitude) * 3600
  · rw [llround_of_nonneg hborder]
    exact max_eq_right h.nearestRow_nonneg
  · -- less than the tolerance north of the cell
    rw [not_le] at hborder
    have hround : llround (((base.southDeg : Rat) + 1 - latitude) * 3600)
        = 0 := roundAway_eq_zero (by linarith) (by linarith)
    rw [hround, max_self]
    refine (Int.floor_eq_iff.2 ⟨?_, ?_⟩).symm
    · push_cast
      linarith
    · push_cast
      linarith

/-- The column the code rounds to. -/
theorem max_llround_column (h : InCell base latitude longitude)
    (width : Nat) :
    max 0 (llround ((longitude - base.westDeg) * width))
      = nearestColumn width (longitude - base.westDeg) := by
  have hwest : 0 ≤ longitude - base.westDeg := by
    have hwest := h.west_le
    linarith
  rw [llround_of_nonneg (by positivity)]
  exact max_eq_right (h.nearestColumn_nonneg width)

end InCell

-- ================================================= the pixel that is read

/-- The pixel `sourceGridValue` reads. -/
def gridPixel (geometry : SourceGeometry) (base : CopernicusSourceAddress)
    (baseWidth column row : Int) : Option SourcePixel :=
  let longitude : Rat :=
    (base.westDeg : Rat) + (column : Rat) / (baseWidth : Rat)
  let latitude : Rat :=
    ((base.southDeg + 1 : Int) : Rat) - (row : Rat) / ((3600 : Int) : Rat)
  let address := sourceAddressForCoordinate latitude longitude
  (geometry.columns address).map fun width : Nat =>
    { address := address
      column := max 0 (min
        (llround ((longitude - address.westDeg) * ((width : Int) : Rat)))
        (width - 1))
      row := max 0 (min
        (llround ((((address.southDeg + 1 : Int) : Rat) - latitude)
          * ((3600 : Int) : Rat))) (3600 - 1)) }

/-- The pixel `sampleNative` reads. -/
def readPixel (geometry : SourceGeometry) (latitude longitude : Rat) :
    Option SourcePixel :=
  let base := sourceAddressForCoordinate latitude longitude
  (geometry.columns base).bind fun width : Nat =>
    gridPixel geometry base width
      (nearestColumn width (longitude - base.westDeg))
      (nearestRow base latitude)

section

variable (cells : SourceCells geometry) {rasters : CopernicusRasterSet}

/-- A cell that is there loads as its pixels. -/
theorem SourceCells.load_present {address : CopernicusSourceAddress}
    {width : Nat} (h : geometry.columns address = some width) :
    cells.load address
      = .ready (SourceRaster.ofPixels width 3600 (cells.pixel address))
        (cells.downloaded address) := by
  unfold SourceCells.load
  rw [h]

/-- A cell that is not is no failure. -/
theorem SourceCells.load_missing {address : CopernicusSourceAddress}
    (h : geometry.columns address = none) :
    cells.load address = .unavailable := by
  unfold SourceCells.load
  rw [h]

/-- What is read at a place of the grid of a cell, which may be another one's. -/
theorem sourceGridValue_spec (rasters : CopernicusRasterSet)
    (base : CopernicusSourceAddress) (baseWidth column row : Int) :
    (rasters.sourceGridValue cells.load base baseWidth 3600 column row).1
        = cells.value (gridPixel geometry base baseWidth column row) ∧
      (rasters.sourceGridValue cells.load base baseWidth 3600 column
        row).2.fatalStatus = rasters.fatalStatus := by
  unfold CopernicusRasterSet.sourceGridValue gridPixel
  dsimp only
  generalize sourceAddressForCoordinate (_ : Rat) _ = address
  cases hcolumns : geometry.columns address with
  | none =>
      rw [CopernicusRasterSet.raster_unavailable
        (cells.load_missing hcolumns)]
      exact ⟨rfl, rfl⟩
  | some width =>
      rw [CopernicusRasterSet.raster_ready (cells.load_present hcolumns),
        Option.map_some]
      dsimp only [SourceCells.value, SourceRaster.ofPixels]
      generalize cells.pixel address _ _ = value
      cases value with
      | none => exact ⟨rfl, rfl⟩
      | some bits => exact ⟨rfl, rfl⟩

/-- A sample is the value of the pixel that is read. -/
theorem sampleNative_spec
    (hcell : InCell (sourceAddressForCoordinate latitude longitude)
      latitude longitude) (hfatal : rasters.fatalStatus = none) :
    (rasters.sampleNative cells.load latitude longitude).1
        = cells.value (readPixel geometry latitude longitude) ∧
      (rasters.sampleNative cells.load latitude longitude).2.fatalStatus
        = none := by
  unfold CopernicusRasterSet.sampleNative readPixel
  rw [hfatal]
  dsimp only
  rw [if_neg (by decide)]
  generalize sourceAddressForCoordinate latitude longitude = base at hcell
  cases hcolumns : geometry.columns base with
  | none =>
      rw [CopernicusRasterSet.raster_unavailable
        (cells.load_missing hcolumns)]
      exact ⟨rfl, hfatal⟩
  | some width =>
      rw [CopernicusRasterSet.raster_ready (cells.load_present hcolumns)]
      dsimp only [Option.bind_some, SourceRaster.ofPixels]
      have hcolumn := hcell.max_llround_column width
      have hrow := hcell.max_llround_row
      rw [Int.cast_natCast, Int.cast_ofNat, hcolumn, hrow]
      have hspec := sourceGridValue_spec cells
        { rasters with
          downloadedAnySource :=
            rasters.downloadedAnySource || cells.downloaded base
          asked := base :: rasters.asked }
        base width (nearestColumn width (longitude - base.westDeg))
        (nearestRow base latitude)
      exact ⟨hspec.1, hspec.2.trans hfatal⟩

end

-- ==================================== the column and row that are read

/-- The cell to the east, up to the antimeridian. -/
theorem eastNeighbour_of_lt (hwest : -180 ≤ owner.westDeg)
    (heast : owner.westDeg < 179) :
    eastNeighbour owner = ⟨owner.southDeg, owner.westDeg + 1⟩ := by
  unfold eastNeighbour
  rw [CopernicusSourceAddress.mk.injEq]
  omega

/-- It is another cell, also across it. -/
theorem eastNeighbour_ne (owner : CopernicusSourceAddress) :
    eastNeighbour owner ≠ owner := by
  intro h
  have hwest : (owner.westDeg + 181) % 360 - 180 = owner.westDeg :=
    congrArg CopernicusSourceAddress.westDeg h
  omega

variable {column row baseWidth : Int}

/-- The row that is read. -/
theorem resolvedRow_eq (hrow : 0 ≤ row) (hlast : row ≤ 3600) :
    max 0 (min (llround
        (((((ownerOf base row).southDeg + 1 : Int) : Rat)
            - (((base.southDeg + 1 : Int) : Rat)
              - (row : Rat) / ((3600 : Int) : Rat)))
          * ((3600 : Int) : Rat))) (3600 - 1))
      = row % 3600 := by
  unfold ownerOf
  by_cases hinside : row < 3600
  · rw [if_pos hinside]
    have hvalue : (((base.southDeg + 1 : Int) : Rat)
          - (((base.southDeg + 1 : Int) : Rat)
            - (row : Rat) / ((3600 : Int) : Rat))) * ((3600 : Int) : Rat)
        = (row : Rat) := by
      push_cast
      ring
    rw [hvalue, llround_intCast]
    omega
  · have hrow : row = 3600 := by omega
    rw [if_neg hinside, hrow]
    have hvalue : ((((base.southDeg - 1) + 1 : Int) : Rat)
          - (((base.southDeg + 1 : Int) : Rat)
            - ((3600 : Int) : Rat) / ((3600 : Int) : Rat)))
          * ((3600 : Int) : Rat) = ((0 : Int) : Rat) := by
      push_cast
      ring
    dsimp only
    rw [hvalue, llround_intCast]
    decide

/-- A column of the cell is read in the cell that has the row, where its
longitude is rounded once more. -/
theorem gridPixel_inside (hwest : -180 ≤ base.westDeg)
    (heast : base.westDeg ≤ 179) (hsouth : -86 ≤ base.southDeg)
    (hnorth : base.southDeg ≤ 84) (hrow : 0 ≤ row) (hlast : row ≤ 3600)
    (hcolumn : 0 ≤ column) (hinside : column < baseWidth) :
    gridPixel geometry base baseWidth column row
      = (geometry.columns (ownerOf base row)).map fun width : Nat =>
          ⟨ownerOf base row,
            min ⌊(column : Rat) / (baseWidth : Rat) * width + 1 / 2⌋
              (width - 1), row % 3600⟩ := by
  have hzero : (0 : Rat) ≤ column := by exact_mod_cast hcolumn
  have hless : (column : Rat) < baseWidth := by exact_mod_cast hinside
  have hoffset : 0 ≤ (column : Rat) / (baseWidth : Rat) :=
    div_nonneg hzero (hzero.trans hless.le)
  have haddress := gridAddress_inside hwest heast (by omega) (by omega) hrow
    hlast hcolumn hinside
  unfold gridAddress at haddress
  unfold gridPixel
  dsimp only
  rw [haddress]
  cases hcolumns : geometry.columns (ownerOf base row) with
  | none => rfl
  | some width =>
      have hwidth := geometry.columns_pos hcolumns
      have hcancel : (base.westDeg : Rat)
          + (column : Rat) / (baseWidth : Rat) - base.westDeg
          = (column : Rat) / (baseWidth : Rat) := by ring
      rw [Option.map_some, Option.map_some, resolvedRow_eq hrow hlast,
        ownerOf_westDeg, hcancel, Int.cast_natCast,
        llround_of_nonneg (by positivity)]
      have hfloor : 0 ≤ ⌊(column : Rat) / (baseWidth : Rat) * width + 1 / 2⌋ :=
        Int.floor_nonneg.2 (by positivity)
      rw [max_eq_right (by omega)]

/-- The column after the last one is the first of the eastern
neighbour. -/
theorem gridPixel_east (hwest : -180 ≤ base.westDeg)
    (heast : base.westDeg < 179) (hsouth : -86 ≤ base.southDeg)
    (hnorth : base.southDeg ≤ 84) (hrow : 0 ≤ row) (hlast : row ≤ 3600)
    (hwidth : 0 < baseWidth) :
    gridPixel geometry base baseWidth baseWidth row
      = (geometry.columns (eastNeighbour (ownerOf base row))).map
          fun _ => ⟨eastNeighbour (ownerOf base row), 0, row % 3600⟩ := by
  have hpos : (baseWidth : Rat) ≠ 0 := by
    have hne : baseWidth ≠ 0 := by omega
    exact_mod_cast hne
  have heastOwner : eastNeighbour (ownerOf base row)
      = ⟨(ownerOf base row).southDeg, base.westDeg + 1⟩ := by
    rw [eastNeighbour_of_lt, ownerOf_westDeg]
    · rw [ownerOf_westDeg]
      exact hwest
    · rw [ownerOf_westDeg]
      exact heast
  have hlongitude : (base.westDeg : Rat) + (baseWidth : Rat) / (baseWidth : Rat)
      = ((base.westDeg + 1 : Int) : Rat) := by
    rw [div_self hpos]
    push_cast
    ring
  have haddress := gridAddress_east hwest heast (by omega) (by omega) hrow
    hlast hwidth
  unfold gridAddress at haddress
  rw [← heastOwner] at haddress
  unfold gridPixel
  dsimp only
  rw [haddress, hlongitude]
  cases hcolumns : geometry.columns (eastNeighbour (ownerOf base row)) with
  | none => rfl
  | some width =>
      have hwidth := geometry.columns_pos hcolumns
      have hsame : (eastNeighbour (ownerOf base row)).southDeg
          = (ownerOf base row).southDeg := rfl
      have hcancel : (((base.westDeg + 1 : Int) : Rat)
          - ((eastNeighbour (ownerOf base row)).westDeg : Rat))
            * ((width : Int) : Rat) = ((0 : Int) : Rat) := by
        rw [heastOwner]
        push_cast
        ring
      rw [Option.map_some, Option.map_some, hsame, resolvedRow_eq hrow hlast,
        hcancel, llround_intCast, min_eq_left (by omega), max_self]

/-- East of 180 degrees the code has no cell: it stays in the last
column. -/
theorem gridPixel_meridian (hwest : base.westDeg = 179)
    (hsouth : -86 ≤ base.southDeg) (hnorth : base.southDeg ≤ 84)
    (hrow : 0 ≤ row) (hlast : row ≤ 3600) (hwidth : 0 < baseWidth) :
    gridPixel geometry base baseWidth baseWidth row
      = (geometry.columns (ownerOf base row)).map fun width : Nat =>
          ⟨ownerOf base row, width - 1, row % 3600⟩ := by
  have hpos : (baseWidth : Rat) ≠ 0 := by
    have hne : baseWidth ≠ 0 := by omega
    exact_mod_cast hne
  have hlongitude : (base.westDeg : Rat) + (baseWidth : Rat) / (baseWidth : Rat)
      = 180 := by
    rw [div_self hpos, hwest]
    norm_num
  have haddress := gridAddress_meridian hwest (by omega) (by omega) hrow
    hlast hwidth
  unfold gridAddress at haddress
  unfold gridPixel
  dsimp only
  rw [haddress, hlongitude]
  cases hcolumns : geometry.columns (ownerOf base row) with
  | none => rfl
  | some width =>
      have hwidth := geometry.columns_pos hcolumns
      have hvalue : ((180 : Rat) - ((179 : Int) : Rat)) * ((width : Int) : Rat)
          = ((width : Int) : Rat) := by
        push_cast
        ring
      rw [Option.map_some, Option.map_some, resolvedRow_eq hrow hlast,
        ownerOf_westDeg, hwest, hvalue, llround_intCast,
        min_eq_right (by omega), max_eq_right (by omega)]

/-- A row of the cell itself is read in the nearest column, but not
beyond 180 degrees. -/
theorem readsNearest_self {offset : Rat}
    (hnonneg : ∀ width : Nat, 0 ≤ nearestColumn width offset)
    (hle : ∀ width : Nat, nearestColumn width offset ≤ width) :
    ReadsNearest geometry base base offset
      ↔ ∀ width : Nat, geometry.columns base = some width →
        nearestColumn width offset = width → base.westDeg < 179 := by
  unfold ReadsNearest
  cases hcolumns : geometry.columns base with
  | none =>
      refine iff_of_true trivial ?_
      intro width h
      cases h
  | some width =>
      have hlow := hnonneg width
      have hhigh := hle width
      have hpos := geometry.columns_pos hcolumns
      dsimp only
      by_cases hbeyond : nearestColumn width offset = width
      · rw [if_pos hbeyond]
        constructor
        · rintro ⟨-, heast⟩ _ h _
          exact heast
        · intro h
          exact ⟨hbeyond, h width rfl hbeyond⟩
      · rw [if_neg hbeyond, if_neg hbeyond]
        have hwidth : (width : Rat) ≠ 0 := by exact_mod_cast hpos.ne'
        have hround : ⌊(nearestColumn width offset : Rat) / width * width
            + 1 / 2⌋ = nearestColumn width offset := by
          rw [div_mul_cancel₀ _ hwidth, Int.floor_eq_iff]
          constructor
          · linarith
          · linarith
        rw [hround]
        refine iff_of_true (min_eq_left (by omega)) ?_
        intro other h hother
        cases h
        exact absurd hother hbeyond

-- ============================================ the same pixel or another

/-- The nearest pixel, computed. -/
def nearestPixel (geometry : SourceGeometry) (owner : CopernicusSourceAddress)
    (offset : Rat) (row : Int) : Option SourcePixel :=
  (geometry.columns owner).bind fun width : Nat =>
    if nearestColumn width offset < width then
      some ⟨owner, nearestColumn width offset, row⟩
    else
      (geometry.columns (eastNeighbour owner)).map fun _ =>
        ⟨eastNeighbour owner, 0, row⟩

/-- The nearest row counts on from the rows north of the cell. -/
theorem nearest_row_iff {row : Int} :
    Nearest ((90 - latitude) * 3600) row
      ↔ row = nearestRow base latitude + 3600 * (89 - base.southDeg) := by
  have hshift : (90 - latitude) * 3600 + 1 / 2
      = (base.southDeg + 1 - latitude) * 3600 + 1 / 2
        + ((3600 * (89 - base.southDeg) : Int) : Rat) := by
    push_cast
    ring
  rw [nearest_iff, hshift, Int.floor_add_intCast]
  rfl

/-- The row of the globe belongs to the cell the code finds it in. -/
theorem rowOwner_eq (hcell : InCell base latitude longitude) :
    rowOwner longitude
        (nearestRow base latitude + 3600 * (89 - base.southDeg))
      = ownerOf base (nearestRow base latitude) := by
  have hnonneg := hcell.nearestRow_nonneg
  have hle := hcell.nearestRow_le
  unfold rowOwner ownerOf
  rw [hcell.floor_longitude]
  generalize nearestRow base latitude = row at hnonneg hle
  by_cases hinside : row < 3600
  · have hsouth : 89 - (row + 3600 * (89 - base.southDeg)) / 3600
        = base.southDeg := by omega
    rw [if_pos hinside, hsouth]
  · have hsouth : 89 - (row + 3600 * (89 - base.southDeg)) / 3600
        = base.southDeg - 1 := by omega
    rw [if_neg hinside, hsouth]

/-- There is one nearest pixel, or none. -/
theorem nearestPixel_iff (hcell : InCell base latitude longitude)
    {pixel : Option SourcePixel} :
    NearestPixel geometry latitude longitude pixel
      ↔ pixel = nearestPixel geometry
        (ownerOf base (nearestRow base latitude))
        (longitude - base.westDeg) (nearestRow base latitude % 3600) := by
  have howner := rowOwner_eq hcell
  have hfloor := hcell.floor_longitude
  have hmod : (nearestRow base latitude + 3600 * (89 - base.southDeg)) % 3600
      = nearestRow base latitude % 3600 := by omega
  have hnearest : Nearest ((90 - latitude) * 3600)
      (nearestRow base latitude + 3600 * (89 - base.southDeg)) :=
    nearest_row_iff.2 rfl
  have hrows : ∀ row : Int, Nearest ((90 - latitude) * 3600) row →
      row = nearestRow base latitude + 3600 * (89 - base.southDeg) :=
    fun row hrow => nearest_row_iff.1 hrow
  constructor
  · intro h
    unfold nearestPixel
    cases h with
    | missing row hrow hcolumns =>
        rw [hrows row hrow, howner] at hcolumns
        rw [hcolumns, Option.bind_none]
    | inside row column width hrow hcolumns hcolumn hinside =>
        obtain rfl := hrows row hrow
        rw [howner] at hcolumns ⊢
        rw [hfloor, nearest_iff] at hcolumn
        rw [hcolumns, Option.bind_some, hmod]
        subst hcolumn
        exact (if_pos hinside).symm
    | east row column width eastWidth hrow hcolumns hcolumn hbeyond heast =>
        obtain rfl := hrows row hrow
        rw [howner] at hcolumns heast ⊢
        rw [hfloor, nearest_iff] at hcolumn
        rw [hcolumns, Option.bind_some, hmod, heast]
        subst hcolumn
        exact (if_neg (not_lt.2 hbeyond)).symm
    | eastMissing row column width hrow hcolumns hcolumn hbeyond heast =>
        obtain rfl := hrows row hrow
        rw [howner] at hcolumns heast
        rw [hfloor, nearest_iff] at hcolumn
        rw [hcolumns, Option.bind_some, heast]
        subst hcolumn
        exact (if_neg (not_lt.2 hbeyond)).symm
  · rintro rfl
    unfold nearestPixel
    cases hcolumns :
      geometry.columns (ownerOf base (nearestRow base latitude)) with
    | none =>
        refine NearestPixel.missing _ hnearest ?_
        rw [howner]
        exact hcolumns
    | some width =>
        have hcolumn : Nearest ((longitude - ⌊longitude⌋) * width)
            (nearestColumn width (longitude - base.westDeg)) := by
          rw [hfloor]
          exact nearest_iff.2 rfl
        rw [Option.bind_some]
        by_cases hinside :
          nearestColumn width (longitude - base.westDeg) < width
        · have h := NearestPixel.inside _ _ width hnearest
            (howner ▸ hcolumns) hcolumn hinside
          rw [howner, hmod] at h
          rw [if_pos hinside]
          exact h
        · rw [if_neg hinside]
          cases heast : geometry.columns (eastNeighbour
              (ownerOf base (nearestRow base latitude))) with
          | none =>
              refine NearestPixel.eastMissing _ _ width hnearest
                (howner ▸ hcolumns) hcolumn (not_lt.1 hinside) ?_
              rw [howner]
              exact heast
          | some eastWidth =>
              have h := NearestPixel.east _ _ width eastWidth hnearest
                (howner ▸ hcolumns) hcolumn (not_lt.1 hinside)
                (howner ▸ heast)
              rw [howner, hmod] at h
              exact h

section

variable {offset : Rat} {nearestIn : Int}

/-- A cell that is not there has no nearest pixel. -/
theorem nearestPixel_none (howner : geometry.columns owner = none) :
    nearestPixel geometry owner offset nearestIn = none := by
  unfold nearestPixel
  rw [howner]
  rfl

/-- In one that is, it may be a pixel of its own, -/
theorem nearestPixel_inside {width : Nat}
    (howner : geometry.columns owner = some width)
    (hinside : nearestColumn width offset < width) :
    nearestPixel geometry owner offset nearestIn
      = some ⟨owner, nearestColumn width offset, nearestIn⟩ := by
  unfold nearestPixel
  rw [howner]
  exact if_pos hinside

/-- or the first one of the row in the cell to the east. -/
theorem nearestPixel_east {width : Nat}
    (howner : geometry.columns owner = some width)
    (hbeyond : nearestColumn width offset = width) :
    nearestPixel geometry owner offset nearestIn
      = (geometry.columns (eastNeighbour owner)).map
          fun _ => ⟨eastNeighbour owner, 0, nearestIn⟩ := by
  unfold nearestPixel
  rw [howner]
  exact if_neg hbeyond.not_lt

/-- A pixel of a cell is none of its eastern neighbour. -/
theorem ne_eastPixel {pixel : SourcePixel} (haddress : pixel.address = owner) :
    some pixel ≠ (geometry.columns (eastNeighbour owner)).map
      fun _ => (⟨eastNeighbour owner, 0, nearestIn⟩ : SourcePixel) := by
  intro h
  obtain ⟨_, -, hpixel⟩ := Option.map_eq_some_iff.1 h.symm
  exact eastNeighbour_ne owner
    ((congrArg SourcePixel.address hpixel).trans haddress)

variable {baseWidth : Nat}
  (hhigh : ∀ width : Nat, nearestColumn width offset ≤ width)

include hhigh

/-- No pixel is read without the cell of the point. -/
theorem missing_iff (hcolumns : geometry.columns base = none) :
    none = nearestPixel geometry owner offset nearestIn
      ↔ ReadsNearest geometry base owner offset := by
  unfold ReadsNearest
  rw [hcolumns]
  cases howner : geometry.columns owner with
  | none => exact iff_of_true (nearestPixel_none howner).symm trivial
  | some width =>
      dsimp only
      rcases lt_or_eq_of_le (hhigh width) with hinside | hbeyond
      · rw [nearestPixel_inside howner hinside]
        refine iff_of_false (fun h => ?_) (fun h => hinside.ne h.1)
        cases h
      · rw [nearestPixel_east howner hbeyond, eq_comm,
          Option.map_eq_none_iff]
        exact (and_iff_right hbeyond).symm

/-- A column of the cell of the point is read in the owner of the row. -/
theorem inside_iff (hcolumns : geometry.columns base = some baseWidth)
    (hcolumn : nearestColumn baseWidth offset < baseWidth) :
    ((geometry.columns owner).map fun width : Nat =>
        (⟨owner, min ⌊(nearestColumn baseWidth offset : Rat)
            / ((baseWidth : Int) : Rat) * width + 1 / 2⌋ (width - 1),
          nearestIn⟩ : SourcePixel))
        = nearestPixel geometry owner offset nearestIn
      ↔ ReadsNearest geometry base owner offset := by
  unfold ReadsNearest
  rw [hcolumns]
  cases howner : geometry.columns owner with
  | none =>
      exact iff_of_true (nearestPixel_none howner).symm
        fun h => absurd h hcolumn.ne
  | some width =>
      rw [Option.map_some]
      dsimp only
      rcases lt_or_eq_of_le (hhigh width) with hinside | hbeyond
      · rw [nearestPixel_inside howner hinside, if_neg hinside.ne,
          if_neg hcolumn.ne, Option.some_inj, SourcePixel.mk.injEq,
          Int.cast_natCast]
        exact ⟨fun h => h.2.1, fun h => ⟨rfl, h, rfl⟩⟩
      · rw [nearestPixel_east howner hbeyond, if_pos hbeyond]
        exact iff_of_false (ne_eastPixel rfl) (fun h => hcolumn.ne h.1)

/-- The column after the last one is read in the eastern neighbour. -/
theorem east_iff (hcolumns : geometry.columns base = some baseWidth)
    (hcolumn : nearestColumn baseWidth offset = baseWidth)
    (heast : base.westDeg < 179) :
    ((geometry.columns (eastNeighbour owner)).map
        fun _ => (⟨eastNeighbour owner, 0, nearestIn⟩ : SourcePixel))
        = nearestPixel geometry owner offset nearestIn
      ↔ ReadsNearest geometry base owner offset := by
  unfold ReadsNearest
  rw [hcolumns]
  cases howner : geometry.columns owner with
  | none =>
      rw [nearestPixel_none howner, Option.map_eq_none_iff]
      exact ⟨fun h _ _ => h, fun h => h hcolumn heast⟩
  | some width =>
      dsimp only
      rcases lt_or_eq_of_le (hhigh width) with hinside | hbeyond
      · rw [nearestPixel_inside howner hinside, if_neg hinside.ne,
          if_pos hcolumn]
        exact iff_of_false (fun h => ne_eastPixel rfl h.symm)
          (fun h => heast.ne h.1)
      · rw [nearestPixel_east howner hbeyond, if_pos hbeyond]
        exact iff_of_true rfl ⟨hcolumn, heast⟩

/-- At 180 degrees the last column is read. -/
theorem meridian_iff (hcolumns : geometry.columns base = some baseWidth)
    (hcolumn : nearestColumn baseWidth offset = baseWidth)
    (heast : base.westDeg = 179) :
    ((geometry.columns owner).map fun width : Nat =>
        (⟨owner, width - 1, nearestIn⟩ : SourcePixel))
        = nearestPixel geometry owner offset nearestIn
      ↔ ReadsNearest geometry base owner offset := by
  unfold ReadsNearest
  rw [hcolumns]
  cases howner : geometry.columns owner with
  | none =>
      exact iff_of_true (nearestPixel_none howner).symm
        fun _ h => absurd heast h.ne
  | some width =>
      rw [Option.map_some]
      dsimp only
      rcases lt_or_eq_of_le (hhigh width) with hinside | hbeyond
      · rw [nearestPixel_inside howner hinside, if_neg hinside.ne,
          if_pos hcolumn, Option.some_inj, SourcePixel.mk.injEq]
        exact ⟨fun h => ⟨heast, h.2.1.symm⟩, fun h => ⟨rfl, h.2.symm, rfl⟩⟩
      · rw [nearestPixel_east howner hbeyond, if_pos hbeyond]
        exact iff_of_false (ne_eastPixel rfl) (fun h => h.2.ne heast)

end

/-- The pixel that is read is the nearest one exactly if the columns are
the same. -/
theorem readPixel_eq_iff (hcell : InCell base latitude longitude)
    (hbase : sourceAddressForCoordinate latitude longitude = base) :
    readPixel geometry latitude longitude
        = nearestPixel geometry (ownerOf base (nearestRow base latitude))
          (longitude - base.westDeg) (nearestRow base latitude % 3600)
      ↔ ReadsNearest geometry base (ownerOf base (nearestRow base latitude))
          (longitude - base.westDeg) := by
  have hrow := hcell.nearestRow_nonneg
  have hlast := hcell.nearestRow_le
  have hlow := hcell.nearestColumn_nonneg
  have hhigh := hcell.nearestColumn_le
  have hread : readPixel geometry latitude longitude
      = (geometry.columns base).bind fun width : Nat =>
          gridPixel geometry base width
            (nearestColumn width (longitude - base.westDeg))
            (nearestRow base latitude) := by
    rw [← hbase]
    rfl
  rw [hread]
  cases hcolumns : geometry.columns base with
  | none => exact missing_iff hhigh hcolumns
  | some baseWidth =>
      have hpos := geometry.columns_pos hcolumns
      rw [Option.bind_some]
      rcases lt_or_eq_of_le (hhigh baseWidth) with hcolumn | hcolumn
      · rw [gridPixel_inside hcell.westDeg_ge hcell.westDeg_le
          hcell.southDeg_ge hcell.southDeg_le hrow hlast (hlow baseWidth)
          hcolumn]
        exact inside_iff hhigh hcolumns hcolumn
      · rw [hcolumn]
        rcases lt_or_eq_of_le hcell.westDeg_le with heast | heast
        · rw [gridPixel_east hcell.westDeg_ge heast hcell.southDeg_ge
            hcell.southDeg_le hrow hlast (by omega)]
          exact east_iff hhigh hcolumns hcolumn heast
        · rw [gridPixel_meridian heast hcell.southDeg_ge hcell.southDeg_le
            hrow hlast (by omega)]
          exact meridian_iff hhigh hcolumns hcolumn heast

-- ======================================================== whole grids

section

variable {request : TerrainAnalysisGridRequest}

/-- The source cell of a centre. -/
def TerrainAnalysisGridRequest.sourceCell
    (request : TerrainAnalysisGridRequest) (row column : Nat) :
    CopernicusSourceAddress :=
  sourceAddressForCoordinate (request.latitude row) (request.longitude column)

/-- A centre lies between the borders. -/
theorem centre_bounds {low high : Rat} {count : Int} {index : Nat}
    (h : low < high) (hindex : index < count.toNat) :
    0 < (index + 1 / 2) * ((high - low) / count) ∧
      (index + 1 / 2) * ((high - low) / count) < high - low := by
  have hcount : (index : Int) + 1 ≤ count := by omega
  have hcount : (index : Rat) + 1 ≤ count := by exact_mod_cast hcount
  have hindex : (0 : Rat) ≤ index := Nat.cast_nonneg index
  have hpos : (0 : Rat) < count := by linarith
  have hwidth : 0 < high - low := by linarith
  have hstep : 0 < (high - low) / count := div_pos hwidth hpos
  refine ⟨by positivity, ?_⟩
  calc ((index : Rat) + 1 / 2) * ((high - low) / count)
      < count * ((high - low) / count) :=
        mul_lt_mul_of_pos_right (by linarith) hstep
    _ = high - low := mul_div_cancel₀ _ hpos.ne'

/-- The centres of a valid request lie in their cells. -/
theorem centre_inCell (hvalid : request.valid = true) {row column : Nat}
    (hrow : row < request.rows.toNat)
    (hcolumn : column < request.columns.toNat) :
    InCell (request.sourceCell row column) (request.latitude row)
      (request.longitude column) := by
  unfold TerrainAnalysisGridRequest.valid at hvalid
  simp only [Bool.and_eq_true, decide_eq_true_eq] at hvalid
  obtain ⟨⟨⟨⟨⟨-, hwest⟩, heast⟩, hsouth⟩, hnorth⟩, hwidth⟩ := hvalid.1
  have hheight := hvalid.2
  have hlatitude := centre_bounds hheight hrow
  have hlongitude := centre_bounds hwidth hcolumn
  refine inCell ?_ ?_ ?_ ?_
  · show -85 < request.bounds.northDeg - _
    unfold TerrainAnalysisGridRequest.latitudeStep
    linarith
  · show request.bounds.northDeg - _ < 85
    unfold TerrainAnalysisGridRequest.latitudeStep
    linarith
  · show -180 < request.bounds.westDeg + _
    unfold TerrainAnalysisGridRequest.longitudeStep
    linarith
  · show request.bounds.westDeg + _ < 180
    unfold TerrainAnalysisGridRequest.longitudeStep
    linarith

/-- The cells of a request lie in its rows and columns. -/
theorem mem_cells {cell : Nat × Nat} :
    cell ∈ request.cells
      ↔ cell.1 < request.rows.toNat ∧ cell.2 < request.columns.toNat := by
  obtain ⟨row, column⟩ := cell
  unfold TerrainAnalysisGridRequest.cells
  simp only [List.mem_flatMap, List.mem_range, List.mem_map, Prod.mk.injEq]
  constructor
  · rintro ⟨_, hrow, _, hcolumn, rfl, rfl⟩
    exact ⟨hrow, hcolumn⟩
  · rintro ⟨hrow, hcolumn⟩
    exact ⟨row, hrow, column, hcolumn, rfl, rfl⟩

/-- The cells are listed row by row. -/
theorem getElem?_cells {row column : Nat}
    (hrow : row < request.rows.toNat)
    (hcolumn : column < request.columns.toNat) :
    request.cells[row * request.columns.toNat + column]?
      = some (row, column) :=
  Steps.getElem?_rows Prod.mk hcolumn hrow

variable (cells : SourceCells geometry)

/-- What is read for a cell of the grid. -/
def readValue (request : TerrainAnalysisGridRequest) (cell : Nat × Nat) :
    Option UInt32 :=
  cells.value (readPixel geometry (request.latitude cell.1)
    (request.longitude cell.2))

/-- The loops read cell after cell. -/
theorem sampleCells_spec (hvalid : request.valid = true) :
    ∀ (list : List (Nat × Nat)) (rasters : CopernicusRasterSet),
      (∀ cell ∈ list, cell ∈ request.cells) → rasters.fatalStatus = none →
      (CopernicusRasterSet.sampleCells cells.load request rasters list).1
          = list.map (readValue cells request) ∧
        (CopernicusRasterSet.sampleCells cells.load request rasters
          list).2.fatalStatus = none := by
  intro list
  induction list with
  | nil => exact fun rasters _ hfatal => ⟨rfl, hfatal⟩
  | cons cell rest ih =>
      intro rasters hcells hfatal
      obtain ⟨row, column⟩ := cell
      have hcell := mem_cells.1 (hcells _ List.mem_cons_self)
      have hsample := sampleNative_spec cells
        (centre_inCell hvalid hcell.1 hcell.2) hfatal
      unfold CopernicusRasterSet.sampleCells
      generalize rasters.sampleNative cells.load (request.latitude row)
        (request.longitude column) = sample at hsample
      obtain ⟨elevation, rasters'⟩ := sample
      dsimp only at hsample ⊢
      have hrest := ih rasters'
        (fun cell hmem => hcells cell (List.mem_cons_of_mem _ hmem))
        hsample.2
      rw [hsample.2]
      refine ⟨?_, hrest.2⟩
      show elevation :: _ = _
      rw [hrest.1, hsample.1]
      rfl

/-- A grid has all its samples, or none of them has an elevation. -/
theorem fetchAnalysisGrid_spec
    (hdataset : TileStore.Copernicus.supportsDataset request.dataset = true)
    (hvalid : request.valid = true)
    (hcells : analysisGridSourceAddresses request ≠ none) :
    ((fetchAnalysisGrid cells.load request).status = .sourceUnavailable ∧
      ∀ cell ∈ request.cells, readValue cells request cell = none) ∨
    ((fetchAnalysisGrid cells.load request).status = .ready ∧
      (fetchAnalysisGrid cells.load request).elevationsM
        = request.cells.map (fun cell =>
          (readValue cells request cell).getD quietNaN) ∧
      ∃ cell ∈ request.cells, readValue cells request cell ≠ none) := by
  have hspec := sampleCells_spec cells hvalid request.cells {}
    (fun _ h => h) rfl
  have hsome : (analysisGridSourceAddresses request).isNone = false :=
    Option.isNone_eq_false_iff.2 (Option.isSome_iff_ne_none.2 hcells)
  unfold fetchAnalysisGrid
  rw [hdataset, hvalid, hsome]
  generalize CopernicusRasterSet.sampleCells cells.load request {}
    request.cells = sampled at hspec
  obtain ⟨elevations, rasters⟩ := sampled
  dsimp only at hspec ⊢
  rw [hspec.2, hspec.1]
  dsimp only [Bool.true_eq_false, Bool.false_eq_true, if_false]
  rw [List.all_map, List.map_map]
  by_cases hnone : request.cells.all
      (Option.isNone ∘ readValue cells request) = true
  · left
    rw [if_pos hnone]
    refine ⟨rfl, fun cell hmem => ?_⟩
    exact Option.isNone_iff_eq_none.1 (List.all_eq_true.1 hnone cell hmem)
  · right
    rw [if_neg hnone]
    refine ⟨rfl, rfl, ?_⟩
    rw [List.all_eq_true] at hnone
    push Not at hnone
    obtain ⟨cell, hmem, hvalue⟩ := hnone
    exact ⟨cell, hmem, fun h => hvalue (Option.isNone_iff_eq_none.2 h)⟩

-- ============================================== which grids are nearest

/-- The columns are the same exactly if the pixel that is read is the
nearest one. -/
theorem readsNearest_iff (hcell : InCell base latitude longitude)
    (hbase : sourceAddressForCoordinate latitude longitude = base) :
    ReadsNearest geometry base (ownerOf base (nearestRow base latitude))
        (longitude - base.westDeg)
      ↔ NearestPixel geometry latitude longitude
        (readPixel geometry latitude longitude) := by
  rw [nearestPixel_iff hcell, readPixel_eq_iff hcell hbase]

/-- Source cells that are the same everywhere but at one pixel. -/
def SourceCells.marking (geometry : SourceGeometry)
    (marked : Option SourcePixel) : SourceCells geometry where
  pixel address column row :=
    some (if some ⟨address, column, row⟩ = marked then 0x3F800000
      else 0x40000000)
  valid := by
    intro address column row bits h
    cases h
    by_cases hmarked : some ⟨address, column, row⟩ = marked
    · rw [if_pos hmarked]
      decide +kernel
    · rw [if_neg hmarked]
      decide +kernel
  downloaded _ := false

/-- A grid that shows the pixel marked because it is read shows no
other. -/
theorem not_shows_of_ne {marked pixel : Option SourcePixel} {bits : UInt32}
    (hne : pixel ≠ marked)
    (hbits : bits
      = ((SourceCells.marking geometry marked).value marked).getD quietNaN) :
    ¬ Shows bits ((SourceCells.marking geometry marked).value pixel) := by
  intro h
  cases pixel with
  | none =>
      cases marked with
      | none => exact hne rfl
      | some read =>
          have hbits : bits = 0x3F800000 := hbits.trans (if_pos rfl)
          rw [hbits] at h
          have hnan : FloatValue.ofBits (0x3F800000 : UInt32).toNat = .nan := h
          exact absurd hnan (by decide +kernel)
  | some pixel =>
      have hshown : bits = 0x40000000 :=
        (h : bits = _).trans (if_neg hne)
      rw [hshown] at hbits
      cases marked with
      | none =>
          have hbits : (0x40000000 : UInt32) = quietNaN := hbits
          exact absurd hbits (by decide)
      | some read =>
          have hbits : (0x40000000 : UInt32) = 0x3F800000 :=
            hbits.trans (if_pos rfl)
          exact absurd hbits (by decide)

/-- A value is shown as it is, and its absence by a not-a-number. -/
theorem shows_getD (value : Option UInt32) :
    Shows (value.getD quietNaN) value := by
  cases value with
  | none =>
      show FloatValue.ofBits _ = .nan
      decide +kernel
  | some bits => rfl

/-- A grid shows the nearest pixels if it reads them. -/
theorem showsNearest_of_reads
    (hdataset : TileStore.Copernicus.supportsDataset request.dataset = true)
    (hvalid : request.valid = true)
    (hcells : analysisGridSourceAddresses request ≠ none)
    (hnearest : ∀ row < request.rows.toNat,
      ∀ column < request.columns.toNat,
      NearestPixel geometry (request.latitude row) (request.longitude column)
        (readPixel geometry (request.latitude row)
          (request.longitude column))) :
    ShowsNearest cells request (fetchAnalysisGrid cells.load request) := by
  rcases fetchAnalysisGrid_spec cells hdataset hvalid hcells with
    ⟨hstatus, hnone⟩ | ⟨hstatus, helevations, -⟩
  · refine ShowsNearest.unavailable hstatus ?_
    intro row hrow column hcolumn
    have hvalue : readValue cells request (row, column) = none :=
      hnone (row, column) (mem_cells.2 ⟨hrow, hcolumn⟩)
    exact ⟨_, hnearest row hrow column hcolumn, hvalue⟩
  · refine ShowsNearest.ready hstatus ?_
    intro row hrow column hcolumn
    refine ⟨_, (readValue cells request (row, column)).getD quietNaN,
      hnearest row hrow column hcolumn, ?_, shows_getD _⟩
    rw [helevations, List.getElem?_map, getElem?_cells hrow hcolumn]
    rfl

/-- A grid that shows the nearest pixel wherever the pixel that is read
is marked reads it. -/
theorem nearest_of_showsNearest
    (hdataset : TileStore.Copernicus.supportsDataset request.dataset = true)
    (hvalid : request.valid = true)
    (hcells : analysisGridSourceAddresses request ≠ none) {row column : Nat}
    (hrow : row < request.rows.toNat)
    (hcolumn : column < request.columns.toNat)
    {read : Option SourcePixel}
    (hread : readPixel geometry (request.latitude row)
      (request.longitude column) = read)
    (hshows : ShowsNearest (SourceCells.marking geometry read) request
      (fetchAnalysisGrid (SourceCells.marking geometry read).load request)) :
    NearestPixel geometry (request.latitude row) (request.longitude column)
      read := by
  by_contra hother
  have hvalue : readValue (SourceCells.marking geometry read) request
      (row, column) = (SourceCells.marking geometry read).value read := by
    unfold readValue
    rw [hread]
  have hfetch := fetchAnalysisGrid_spec (SourceCells.marking geometry read)
    hdataset hvalid hcells
  cases hshows with
  | ready hstatus hsamples =>
      obtain ⟨pixel, bits, hnearest, hbits, hshown⟩ :=
        hsamples row hrow column hcolumn
      rcases hfetch with ⟨hunavailable, -⟩ | ⟨-, helevations, -⟩
      · rw [hstatus] at hunavailable
        cases hunavailable
      rw [helevations, List.getElem?_map, getElem?_cells hrow hcolumn,
        Option.map_some, Option.some_inj, hvalue] at hbits
      refine not_shows_of_ne (fun h => hother ?_) hbits.symm hshown
      rw [← h]
      exact hnearest
  | unavailable hstatus hsamples =>
      obtain ⟨pixel, hnearest, hnone⟩ := hsamples row hrow column hcolumn
      rcases hfetch with ⟨-, hreads⟩ | ⟨hready, -, -⟩
      · -- neither the nearest pixel nor the one that is read is a pixel
        have hreadNone := hreads (row, column) (mem_cells.2 ⟨hrow, hcolumn⟩)
        rw [hvalue] at hreadNone
        cases pixel with
        | some pixel => cases hnone
        | none =>
            cases read with
            | some read => cases hreadNone
            | none => exact hother hnearest
      · rw [hstatus] at hready
        cases hready

/-- Two cells above each other where the number of columns changes. -/
def twoCells : SourceGeometry where
  columns address :=
    if address = ⟨50, 8⟩ then some 2400
    else if address = ⟨49, 8⟩ then some 3600
    else none
  columns_ge := by
    intro address width h
    by_cases hupper : address = ⟨50, 8⟩
    · rw [if_pos hupper] at h
      cases h
      decide
    · rw [if_neg hupper] at h
      obtain ⟨-, hwidth⟩ := Option.ite_none_right_eq_some.1 h
      cases hwidth
      decide

/-- A grid of one cell around a point. -/
def pointRequest (latitude longitude : Rat) : TerrainAnalysisGridRequest where
  dataset := TileStore.Copernicus.copernicusDataset
  bounds :=
    { westDeg := longitude - 1 / 20000
      eastDeg := longitude + 1 / 20000
      southDeg := latitude - 1 / 20000
      northDeg := latitude + 1 / 20000 }
  columns := 1
  rows := 1

/-- Whatever the source cells of a request hold, its grid shows the
nearest pixels, exactly if the columns read and the nearest ones are the
same at every centre. -/
theorem fetchAnalysisGrid_nearest_iff {geometry : SourceGeometry}
    {request : TerrainAnalysisGridRequest}
    (hdataset : TileStore.Copernicus.supportsDataset request.dataset = true)
    (hvalid : request.valid = true)
    (hcells : analysisGridSourceAddresses request ≠ none) :
    (∀ cells : SourceCells geometry,
      ShowsNearest cells request (fetchAnalysisGrid cells.load request)) ↔
    ∀ row < request.rows.toNat, ∀ column < request.columns.toNat,
      ReadsNearest geometry (request.sourceCell row column)
        (ownerOf (request.sourceCell row column)
          (nearestRow (request.sourceCell row column) (request.latitude row)))
        (request.longitude column
          - (request.sourceCell row column).westDeg) := by
  constructor
  · intro hshows row hrow column hcolumn
    have hcell := centre_inCell hvalid hrow hcolumn
    rw [readsNearest_iff hcell rfl]
    exact nearest_of_showsNearest hdataset hvalid hcells hrow hcolumn rfl
      (hshows _)
  · intro hreads cells
    refine showsNearest_of_reads cells hdataset hvalid hcells ?_
    intro row hrow column hcolumn
    rw [← readsNearest_iff (centre_inCell hvalid hrow hcolumn) rfl]
    exact hreads row hrow column hcolumn

/-- A point in the middle of a cell. -/
theorem fetchAnalysisGrid_nearest_inland :
    ShowsNearest (SourceCells.marking twoCells none)
      (pointRequest (50 + 1 / 2) (8 + 1 / 2))
      (fetchAnalysisGrid (SourceCells.marking twoCells none).load
        (pointRequest (50 + 1 / 2) (8 + 1 / 2))) := by
  have hvalid : (pointRequest (50 + 1 / 2) (8 + 1 / 2)).valid = true := by
    decide +kernel
  refine (fetchAnalysisGrid_nearest_iff (by decide) hvalid
    (by decide +kernel)).2 ?_ _
  intro row hrow column hcolumn
  obtain rfl : row = 0 := Nat.lt_one_iff.1 hrow
  obtain rfl : column = 0 := Nat.lt_one_iff.1 hcolumn
  have hcell := centre_inCell hvalid hrow hcolumn
  rw [readsNearest_iff hcell rfl, nearestPixel_iff hcell]
  decide +kernel

/-- A point nearest to column 4 of the first row of the lower cell (3.735
columns from its border). Of the upper one it is nearest to column 2, whose
longitude is that of column 3 of the lower one, and the grid shows that. -/
theorem fetchAnalysisGrid_second_rounding :
    (pointRequest (50 + 1 / 10000) (8 + 83 / 80000)).valid = true ∧
    analysisGridSourceAddresses (pointRequest (50 + 1 / 10000) (8 + 83 / 80000))
      = some [⟨49, 8⟩, ⟨50, 8⟩] ∧
    NearestPixel twoCells (50 + 1 / 10000) (8 + 83 / 80000)
      (some ⟨⟨49, 8⟩, 4, 0⟩) ∧
    ∃ cells : SourceCells twoCells,
      (fetchAnalysisGrid cells.load
        (pointRequest (50 + 1 / 10000) (8 + 83 / 80000))).elevationsM
          = [0x3F800000] ∧
      cells.value (some ⟨⟨49, 8⟩, 4, 0⟩) = some 0x40000000 ∧
      ¬ ShowsNearest cells (pointRequest (50 + 1 / 10000) (8 + 83 / 80000))
        (fetchAnalysisGrid cells.load
          (pointRequest (50 + 1 / 10000) (8 + 83 / 80000))) := by
  have hvalid :
      (pointRequest (50 + 1 / 10000) (8 + 83 / 80000)).valid = true := by
    decide +kernel
  have haddresses : analysisGridSourceAddresses
      (pointRequest (50 + 1 / 10000) (8 + 83 / 80000))
        = some [⟨49, 8⟩, ⟨50, 8⟩] := by
    decide +kernel
  have hcell := centre_inCell hvalid (Nat.lt_one_iff.2 rfl : 0 < _)
    (Nat.lt_one_iff.2 rfl : 0 < _)
  have hpoint : InCell
      (sourceAddressForCoordinate (50 + 1 / 10000 : Rat) (8 + 83 / 80000))
      (50 + 1 / 10000 : Rat) (8 + 83 / 80000) :=
    inCell (by norm_num) (by norm_num) (by norm_num) (by norm_num)
  refine ⟨hvalid, haddresses, ?_,
    SourceCells.marking twoCells (some ⟨⟨49, 8⟩, 3, 0⟩), ?_, ?_, ?_⟩
  · rw [nearestPixel_iff hpoint]
    decide +kernel
  · decide +kernel
  · decide +kernel
  · intro h
    have hread := nearest_of_showsNearest (by decide) hvalid
      (by rw [haddresses]; exact Option.some_ne_none _)
      (Nat.lt_one_iff.2 rfl) (Nat.lt_one_iff.2 rfl) (by decide +kernel) h
    rw [nearestPixel_iff hcell] at hread
    exact absurd hread (by decide +kernel)

end

end AowisMap.Terrain
