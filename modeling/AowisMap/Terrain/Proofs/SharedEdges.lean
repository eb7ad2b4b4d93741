/-
Neighbouring tiles on the edge they share.

# What is shared

A tile and its neighbour have the samples of an edge in common, the last
and the first tile of a row too (`Adjacent`). They are to hold the same
there, whatever the source cells hold (`EdgeAgrees`).

# Where they do

Within a row and a column of tiles, always. Where a row closes, at 180
degrees, averages agree, since their boxes reach across. A point there is
read in the last column of the western cell for the one tile and in the
first column of the eastern cell for the other, so the tiles agree exactly
if no sample of the edge is a point (`edgeAgrees_iff`).
-/
import AowisMap.Terrain.Proofs.Seams

namespace AowisMap.Terrain

open Lib

-- ============================================================ neighbours

/-- The last and the first tile of a row. -/
structure Around (first second : TerrainTileAddress) : Prop where
  zoom : first.zoom = second.zoom
  row : first.y = second.y
  last : first.x + 1 = 2 ^ first.zoom.toNat
  start : second.x = 0

/-- The second tile is the next one to the east or to the south. -/
inductive Adjacent (first second : TerrainTileAddress) : Prop
  | east (zoom : first.zoom = second.zoom) (row : first.y = second.y)
      (next : first.x + 1 = second.x)
  | south (zoom : first.zoom = second.zoom) (column : first.x = second.x)
      (next : first.y + 1 = second.y)
  | around (closes : Around first second)

section

variable {first second : TerrainTileAddress} {turns : Int}
  {row column row' column' : Nat}

/-- Samples of the zooms of tiles go around in more than two tiles. -/
theorem around_cells (hzoom : 8 ≤ first.zoom) :
    256 * 64 ≤ 2 ^ first.zoom.toNat * terrainTileCellCount := by
  have hpow : 2 ^ 8 ≤ 2 ^ first.zoom.toNat :=
    Nat.pow_le_pow_right (by decide) (by omega)
  exact Nat.mul_le_mul_right 64 hpow

/-- Next to each other, samples of one place are no turn apart. -/
theorem SamePlace.turns_eq_zero (hzoom : 8 ≤ first.zoom)
    (hplace : SamePlace turns first row column second row' column')
    (hnext : first.x = second.x ∨ first.x + 1 = second.x) : turns = 0 := by
  have hcolumn := hplace.column_eq
  have hle := hplace.column_le
  have hle' := hplace.column_le'
  have hcells := around_cells hzoom
  have hsize : terrainTileCellCount = 64 := rfl
  generalize 2 ^ first.zoom.toNat * terrainTileCellCount = circle
    at hcolumn hcells
  rw [hsize] at hcolumn hle hle'
  by_contra hturns
  rcases Int.lt_or_gt_of_ne hturns with hlt | hgt
  · have hturn := mul_le_mul_of_nonneg_right (show turns ≤ -1 by omega)
      (Int.natCast_nonneg circle)
    omega
  · have hturn := mul_le_mul_of_nonneg_right (show 1 ≤ turns by omega)
      (Int.natCast_nonneg circle)
    omega

/-- Where a row closes, the last column is the first one. -/
theorem SamePlace.of_around (hzoom : 8 ≤ first.zoom)
    (hplace : SamePlace turns first row column second row' column')
    (haround : Around first second) :
    turns = 1 ∧ column = terrainTileCellCount ∧ column' = 0 := by
  have hcolumn := hplace.column_eq
  have hle := hplace.column_le
  have hle' := hplace.column_le'
  have hcells := around_cells hzoom
  have hsize : terrainTileCellCount = 64 := rfl
  have hlast : first.x * terrainTileCellCount + terrainTileCellCount
      = 2 ^ first.zoom.toNat * terrainTileCellCount := by
    rw [← haround.last, Nat.succ_mul]
  rw [haround.start] at hcolumn
  generalize 2 ^ first.zoom.toNat * terrainTileCellCount = circle
    at hcolumn hcells hlast
  rw [hsize] at hcolumn hle hle' hlast ⊢
  have hturns : turns = 1 := by
    by_contra hturns
    rcases Int.lt_or_gt_of_ne hturns with hlt | hgt
    · have hturn := mul_le_mul_of_nonneg_right (show turns ≤ 0 by omega)
        (Int.natCast_nonneg circle)
      omega
    · have hturn := mul_le_mul_of_nonneg_right (show 2 ≤ turns by omega)
        (Int.natCast_nonneg circle)
      omega
  subst hturns
  omega

/-- Its samples, row by row. -/
theorem Around.samePlace (haround : Around first second)
    (hrow : row ≤ terrainTileCellCount) :
    SamePlace 1 first row terrainTileCellCount second row 0 where
  zoom := haround.zoom
  column_eq := by
    rw [haround.start, ← haround.last]
    push_cast
    ring
  row_eq := by rw [haround.row]
  row_le := hrow
  column_le := le_refl _
  row_le' := hrow
  column_le' := Nat.zero_le _

end

-- ============================================================= the edge

open CopernicusRasterSet in
/-- Two tiles that are sampled hold the same at every sample of both,
whatever source cells of 3600 rows and so many columns hold. -/
def EdgeAgrees (columns : Int) (first second : TerrainTileAddress) : Prop :=
  ∀ (load : CopernicusSourceAddress → SourceLoad)
    (image : CopernicusSourceAddress → Nat → Nat → UInt32),
    AveragedSources load image →
    (∀ address raster downloaded,
      load address = .ready raster downloaded →
        columns ≤ raster.pixelWidth) →
    ∀ elevations elevations' : List (Option ℝ),
      (sampleTile load tileYToLatitudeDeg first).1 = some elevations →
      (sampleTile load tileYToLatitudeDeg second).1 = some elevations' →
      ∀ (turns : Int) (row column row' column' : Nat),
        SamePlace turns first row column second row' column' →
        ∃ elevation : Option ℝ,
          elevations[row * terrainTileGridSize + column]?
            = some elevation ∧
          elevations'[row' * terrainTileGridSize + column']?
            = some elevation

section

variable {K : Type*} [Field K] [LinearOrder K]

/-- The box of a sample is at least as large as a pixel of a cell of so
many columns and 3600 rows. -/
def LargeBox (columns : Int) (latitude : K → K → K)
    (address : TerrainTileAddress) (row column : Nat) : Prop :=
  1 / (columns : K) ≤ edge (longitudeEdges address) (column + 1)
      - edge (longitudeEdges address) column ∧
    1 / (3600 : K) ≤ edge (latitudeEdges latitude address) row
      - edge (latitudeEdges latitude address) (row + 1)

variable [FloorRing K] [IsStrictOrderedRing K] {latitude : K → K → K}
  {first second : TerrainTileAddress} {columns : Int}
  {load : CopernicusSourceAddress → SourceLoad}
  {image : CopernicusSourceAddress → Nat → Nat → UInt32}
  {row column row' column' : Nat}

/-- Boxes of one place are as large. -/
theorem SamePlace.largeBox_iff {turns : Int}
    (hplace : SamePlace turns first row column second row' column') :
    LargeBox columns latitude first row column
      ↔ LargeBox columns latitude second row' column' := by
  have hbox : SameBox turns (longitudeEdges first : List K)
      (latitudeEdges latitude first) row column (longitudeEdges second)
      (latitudeEdges latitude second) row' column' := hplace.sameBox
  unfold LargeBox
  rw [hbox.west, hbox.east, hbox.north, hbox.south, add_sub_add_right_eq_sub]

/-- They cover the pixels of cells of at least so many columns. -/
theorem LargeBox.coversPixel
    (hlarge : LargeBox columns latitude first row column)
    (hcolumns : 0 < columns) (hsources : AveragedSources load image)
    (hwidths : ∀ address raster downloaded,
      load address = .ready raster downloaded →
        columns ≤ raster.pixelWidth) :
    CoversPixel load latitude first row column := by
  intro raster downloaded hload
  have hpos : (0 : K) < columns := by exact_mod_cast hcolumns
  have hle : (columns : K) ≤ raster.pixelWidth := by
    exact_mod_cast hwidths _ _ _ hload
  have hheight : ((raster.pixelHeight : Int) : K) = 3600 := by
    rw [hsources.height hload]
    norm_num
  rw [hheight]
  exact ⟨(one_div_le_one_div_of_le hpos hle).trans hlarge.1, hlarge.2⟩

end

section

variable {first second : TerrainTileAddress} {columns : Int}

/-- Neighbours agree unless a row closes between them. -/
theorem edgeAgrees_beside (hzoom : 8 ≤ first.zoom)
    (hnext : first.x = second.x ∨ first.x + 1 = second.x) :
    EdgeAgrees columns first second := by
  intro load image hsources _ elevations elevations' h h' turns row column
    row' column' hplace
  obtain rfl := hplace.turns_eq_zero hzoom hnext
  exact hplace.agree rowLatitudes_tileYToLatitudeDeg hsources h h'

/-- Where it closes, averages of boxes that are large enough agree. -/
theorem edgeAgrees_around (hzoom : 8 ≤ first.zoom) (hcolumns : 0 < columns)
    (haround : Around first second)
    (harea : normalizedTileUsesAreaAverage first = true)
    (hlarge : ∀ row ≤ terrainTileCellCount,
      LargeBox columns tileYToLatitudeDeg first row terrainTileCellCount) :
    EdgeAgrees columns first second := by
  intro load image hsources hwidths elevations elevations' h h' turns row
    column row' column' hplace
  obtain ⟨-, rfl, -⟩ := hplace.of_around hzoom haround
  have hbox := hlarge row hplace.row_le
  exact hplace.agree_covered rowLatitudes_tileYToLatitudeDeg hsources harea
    (hbox.coversPixel hcolumns hsources hwidths)
    ((hplace.largeBox_iff.1 hbox).coversPixel hcolumns hsources hwidths) h h'

end

-- ============================================== two sides of a meridian

/-- 0 m west of the antimeridian, 1 m everywhere else. -/
def meridianWord (west : Int) : UInt32 :=
  if west = 179 then 0 else 0x3F800000

/-- A raster of one value, of a number of columns. -/
def wideSource (columns : Int) (word : UInt32) : SourceRaster :=
  { plainSource word with pixelWidth := columns }

/-- Cells of so many columns, of one value on each side of the
antimeridian. -/
def meridianLoad (columns : Int) (address : CopernicusSourceAddress) :
    SourceLoad :=
  .ready (wideSource columns (meridianWord address.westDeg)) false

def meridianImage (address : CopernicusSourceAddress) (_ _ : Nat) : UInt32 :=
  meridianWord address.westDeg

/-- They show an image of it. -/
theorem averagedSources_meridian {columns : Int} (hcolumns : 600 ≤ columns) :
    AveragedSources (meridianLoad columns) meridianImage where
  width := by
    intro address raster downloaded hload
    cases hload
    exact hcolumns
  height := by
    intro address raster downloaded hload
    cases hload
    rfl
  shows := by
    intro address raster downloaded hload window runs _ _ _ _ _ _ hvisit
    cases hload
    cases hvisit
    exact plainRuns_perm _ window

/-- None of them fails. -/
theorem readableSources_meridian (columns : Int) :
    ReadableSources (meridianLoad columns) where
  loads := nofun
  pixels := by
    intro address raster downloaded hload column row
    cases hload
    rfl
  windows := by
    intro address raster downloaded hload window
    cases hload
    rfl

section

variable {K : Type*} [Field K] [LinearOrder K] [FloorRing K]
  [IsStrictOrderedRing K] {columns : Int}

/-- What the two pixels above each other weigh together that count. -/
def pointWeight (fraction : K) : K :=
  (if 1 - fraction ≤ epsilon then 0 else 1 - fraction)
    + if fraction ≤ epsilon then 0 else fraction

/-- How far below a row a point is, in rows. -/
def rowFraction (latitudeDeg : K) : K :=
  let pixelY :=
    (((sourceSouthForLatitude latitudeDeg + 1 : Int) : K) - latitudeDeg) * 3600
  max 0 (min (pixelY - (max 0 ⌊pixelY⌋ : Int)) 1)

omit [FloorRing K] in
theorem epsilon_nonneg : (0 : K) ≤ epsilon := by
  unfold epsilon
  positivity

omit [FloorRing K] in
/-- One of them counts. -/
theorem pointWeight_pos (fraction : K) : 0 < pointWeight fraction := by
  have hepsilon : (0 : K) ≤ epsilon := epsilon_nonneg
  have hhalf : (epsilon : K) < 1 / 2 := by
    unfold epsilon
    norm_num
  unfold pointWeight
  split
  · rw [if_neg (by linarith), zero_add]
    linarith
  · split
    · linarith
    · linarith

open CopernicusRasterSet in
/-- Every pixel of a cell has the cell's value. -/
theorem sourceGridValue_meridian {rasters : CopernicusRasterSet}
    {address : CopernicusSourceAddress} {width height column row : Int}
    (hwest : sourceWestForLongitude
      ((address.westDeg : Rat) + (column : Rat) / (width : Rat))
        = address.westDeg) :
    (rasters.sourceGridValue (meridianLoad columns) address width height
      column row).1 = some (meridianWord address.westDeg) := by
  unfold sourceGridValue raster meridianLoad
  dsimp only
  unfold sourceAddressForCoordinate
  rw [hwest]
  rfl

omit [FloorRing K] [IsStrictOrderedRing K] in
open CopernicusRasterSet in
/-- Pixels of one cell around a point sum up to its value. -/
theorem weightedValue_meridian (address : CopernicusSourceAddress)
    (width height : Int) :
    ∀ {pixels : List (K × Int × Int)} {weighted : K}
      {rasters : CopernicusRasterSet},
      (∀ pixel ∈ pixels, ¬ pixel.1 ≤ epsilon →
        sourceWestForLongitude
          ((address.westDeg : Rat) + (pixel.2.1 : Rat) / (width : Rat))
            = address.westDeg) →
      (weightedValue (meridianLoad columns) address width height rasters
        weighted pixels).1
        = some (weighted + (pixels.map fun pixel =>
            if pixel.1 ≤ epsilon then 0 else pixel.1).sum
              * elevationOf (meridianWord address.westDeg)) := by
  intro pixels
  induction pixels with
  | nil =>
      intro weighted rasters _
      rw [List.map_nil, List.sum_nil, zero_mul, add_zero]
      rfl
  | cons pixel rest ih =>
      intro weighted rasters hcell
      obtain ⟨weight, column, row⟩ := pixel
      have hrest := fun pixel hpixel =>
        hcell pixel (List.mem_cons_of_mem _ hpixel)
      unfold weightedValue
      rw [List.map_cons, List.sum_cons]
      by_cases hweight : weight ≤ epsilon
      · rw [if_pos hweight, if_pos hweight, zero_add]
        exact ih hrest
      · rw [if_neg hweight, if_neg hweight]
        have hwest : sourceWestForLongitude
            ((address.westDeg : Rat) + (column : Rat) / (width : Rat))
              = address.westDeg :=
          hcell (weight, column, row) List.mem_cons_self hweight
        have hvalue := @sourceGridValue_meridian columns rasters address width
          height column row hwest
        revert hvalue
        generalize rasters.sourceGridValue (meridianLoad columns) address
          width height column row = result
        obtain ⟨value, after⟩ := result
        intro hvalue
        dsimp only at hvalue
        subst hvalue
        dsimp only
        rw [ih hrest, add_mul, add_assoc]

open CopernicusRasterSet in
/-- A point between two pixels above each other has the cell's value. -/
theorem sample_meridian {latitudeDeg longitudeDeg : K} {west column : Int}
    (hwest : sourceWestForLongitude longitudeDeg = west)
    (hcolumn : (longitudeDeg - west) * columns = column)
    (hfirst : 0 ≤ column)
    (hcell : sourceWestForLongitude
      ((west : Rat) + (column : Rat) / (columns : Rat)) = west) :
    (({} : CopernicusRasterSet).sample (meridianLoad columns) latitudeDeg
      longitudeDeg).1
      = some (pointWeight (rowFraction latitudeDeg)
        * elevationOf (meridianWord west)) := by
  have hfloor : ⌊(longitudeDeg - west) * columns⌋ = column := by
    rw [hcolumn, Int.floor_intCast]
  have haddress : sourceAddressForCoordinate latitudeDeg longitudeDeg
      = ⟨sourceSouthForLatitude latitudeDeg, west⟩ := by
    unfold sourceAddressForCoordinate
    rw [hwest]
  have hload : meridianLoad columns ⟨sourceSouthForLatitude latitudeDeg, west⟩
      = .ready (wideSource columns (meridianWord west)) false := rfl
  unfold sample raster
  rw [haddress, if_neg (by decide)]
  dsimp only
  rw [hload]
  dsimp only
  have hwidth : (wideSource columns (meridianWord west)).pixelWidth
      = columns := rfl
  have hheight : (((wideSource columns (meridianWord west)).pixelHeight : Int)
      : K) = 3600 := by
    have h3600 : (wideSource columns (meridianWord west)).pixelHeight
      = 3600 := rfl
    rw [h3600]
    norm_num
  rw [hwidth, hheight, hfloor, max_eq_right hfirst, hcolumn, sub_self,
    min_eq_left zero_le_one, max_self]
  have hfraction : max 0 (min
      ((((sourceSouthForLatitude latitudeDeg + 1 : Int) : K) - latitudeDeg)
        * 3600 - (max 0 ⌊(((sourceSouthForLatitude latitudeDeg + 1 : Int) : K)
          - latitudeDeg) * 3600⌋ : Int)) 1) = rowFraction latitudeDeg := rfl
  rw [hfraction, sub_zero, one_mul, one_mul, zero_mul, zero_mul,
    weightedValue_meridian]
  · -- the pixels to the east weigh nothing
    rw [List.map_cons, List.map_cons, List.map_cons, List.map_cons,
      List.map_nil, List.sum_cons, List.sum_cons, List.sum_cons,
      List.sum_cons, List.sum_nil]
    dsimp only
    rw [if_pos epsilon_nonneg]
    unfold pointWeight
    rw [zero_add, zero_add, zero_add, add_zero]
  · intro pixel hpixel hweight
    simp only [List.mem_cons, List.not_mem_nil, or_false] at hpixel
    rcases hpixel with rfl | rfl | rfl | rfl
    · exact hcell
    · exact absurd epsilon_nonneg hweight
    · exact hcell
    · exact absurd epsilon_nonneg hweight

open CopernicusRasterSet

variable {latitude : K → K → K} {address : TerrainTileAddress}
  {row column : Nat} {area : Option (AreaSums K)}

omit [IsStrictOrderedRing K] in
/-- Where no average is taken, or the box is smaller than a pixel, the
sample is a point. -/
theorem sampleElevation_meridian
    (hpoint : area = none ∨
      ¬ LargeBox columns latitude address row column) :
    (({} : CopernicusRasterSet).sampleElevation (meridianLoad columns) latitude
      address area row column).1
      = (({} : CopernicusRasterSet).sample (meridianLoad columns)
        (sampleLatitude latitude address row)
        (sampleLongitude address column)).1 := by
  rcases hpoint with rfl | hsmall
  · rfl
  · cases area with
    | none => rfl
    | some sums =>
        refine sampleElevation_uncovered fun hcovers => hsmall ?_
        have hheight : (((3600 : Int)) : K) = 3600 := by norm_num
        unfold LargeBox
        rw [← hheight]
        exact hcovers rfl

omit [LinearOrder K] [FloorRing K] [IsStrictOrderedRing K] in
/-- Its two values. -/
theorem elevationOf_meridian :
    (elevationOf (meridianWord 179) : K) = 0 ∧
      (elevationOf (meridianWord (-180)) : K) = 1 := by
  have hwest : FloatValue.ofBits (meridianWord 179).toNat = .finite 0 := by
    decide +kernel
  have heast : FloatValue.ofBits (meridianWord (-180)).toNat = .finite 1 := by
    decide +kernel
  unfold elevationOf
  rw [hwest, heast]
  exact ⟨Rat.cast_zero, Rat.cast_one⟩

/-- At 180 degrees a point is read west of the antimeridian, -/
theorem sample_west (hcolumns : 0 < columns) (latitudeDeg : K) :
    (({} : CopernicusRasterSet).sample (meridianLoad columns) latitudeDeg
      180).1 = some 0 := by
  have hwest : sourceWestForLongitude (180 : K) = 179 := by
    unfold sourceWestForLongitude
    rw [if_pos (le_refl _)]
  have hcell : sourceWestForLongitude
      (((179 : Int) : Rat) + (columns : Rat) / (columns : Rat)) = 179 := by
    rw [div_self (by exact_mod_cast hcolumns.ne')]
    norm_num [sourceWestForLongitude]
  rw [sample_meridian hwest (by push_cast; ring) hcolumns.le hcell,
    elevationOf_meridian.1, mul_zero]

/-- and at -180 degrees east of it. -/
theorem sample_east (columns : Int) (latitudeDeg : K) :
    (({} : CopernicusRasterSet).sample (meridianLoad columns) latitudeDeg
      (-180)).1 = some (pointWeight (rowFraction latitudeDeg)) := by
  have hwest : sourceWestForLongitude (-180 : K) = -180 := by
    norm_num [sourceWestForLongitude]
  have hcell : sourceWestForLongitude
      (((-180 : Int) : Rat) + ((0 : Int) : Rat) / (columns : Rat)) = -180 := by
    norm_num [sourceWestForLongitude]
  rw [sample_meridian hwest (by push_cast; ring) (le_refl 0) hcell,
    elevationOf_meridian.2, mul_one]

omit [FloorRing K] in
/-- The longitude where a row of tiles closes. -/
theorem Around.longitudes {first second : TerrainTileAddress}
    (haround : Around first second) :
    (sampleLongitude first terrainTileCellCount : K) = 180 ∧
      (sampleLongitude second 0 : K) = -180 := by
  have hcells : (terrainTileCellCount : K) ≠ 0 := cellCount_pos.ne'
  have hcount : (tileCountOf first : K) ≠ 0 := (tileCountOf_pos first).ne'
  have hlast : (first.x : K) + 1 = tileCountOf first := by
    have hcast := congrArg (fun n : Nat => (n : K)) haround.last
    push_cast at hcast
    exact hcast
  unfold sampleLongitude tileXToLongitudeDeg
  constructor
  · rw [div_self hcells, hlast, div_self hcount]
    norm_num
  · rw [haround.start, Nat.cast_zero, zero_div, add_zero, zero_div]
    norm_num

end

section

variable {first second : TerrainTileAddress} {columns : Int} {row : Nat}

open CopernicusRasterSet in
/-- Where a row closes, both sides of the antimeridian differ in a
point. -/
theorem not_edgeAgrees_of_point (hcolumns : 600 ≤ columns)
    (haround : Around first second) (hrow : row ≤ terrainTileCellCount)
    (hpoint : normalizedTileUsesAreaAverage first = false ∨
      ¬ LargeBox columns tileYToLatitudeDeg first row
        terrainTileCellCount) :
    ¬ EdgeAgrees columns first second := by
  intro hagree
  have hplace : SamePlace 1 first row terrainTileCellCount second row 0 :=
    haround.samePlace hrow
  have hsources := averagedSources_meridian hcolumns
  have hreadable := readableSources_meridian columns
  obtain ⟨elevations, h⟩ := @sampleTile_readable _ ℝ _ _ _
    tileYToLatitudeDeg first hreadable
  obtain ⟨elevations', h'⟩ := @sampleTile_readable _ ℝ _ _ _
    tileYToLatitudeDeg second hreadable
  have hwidths : ∀ address raster downloaded,
      meridianLoad columns address = .ready raster downloaded →
        columns ≤ raster.pixelWidth := by
    intro address raster downloaded hload
    cases hload
    exact le_refl _
  obtain ⟨elevation, hshared, hshared'⟩ :=
    hagree _ _ hsources hwidths _ _ h h' _ _ _ _ _ hplace
  obtain ⟨area, area', -, ⟨hused, hused'⟩, hsampled, hsampled'⟩ :=
    hplace.area_eq rowLatitudes_tileYToLatitudeDeg hsources h h'
  have hnone : ∀ {sums : Option (AreaSums ℝ)},
      sums.isSome = normalizedTileUsesAreaAverage first →
      normalizedTileUsesAreaAverage first = false → sums = none := by
    intro sums hsums hnative
    rw [hnative, Option.isSome_eq_false_iff, Option.isNone_iff_eq_none]
      at hsums
    exact hsums
  obtain ⟨hlongitude, hlongitude'⟩ := @Around.longitudes ℝ _ _ _ _ _ haround
  rw [sampleElevation_meridian (hpoint.imp_left (hnone hused)), hlongitude,
    sample_west (by omega), hshared] at hsampled
  rw [hplace.largeBox_iff] at hpoint
  rw [sampleElevation_meridian (hpoint.imp_left (hnone hused')), hlongitude',
    sample_east, hshared', hsampled] at hsampled'
  exact (pointWeight_pos _).ne (Option.some.inj (Option.some.inj hsampled'))

open TileStore.Copernicus in
/-- The zooms that are sampled start at 8. -/
theorem zoom_of_supported {address : TerrainTileAddress}
    (h : supportsAddress ⟨copernicusDataset, address⟩ = true) :
    8 ≤ address.zoom := by
  unfold supportsAddress at h
  rw [Bool.and_eq_true, Bool.and_eq_true, decide_eq_true_eq] at h
  exact h.1.2

open TileStore.Copernicus in
/-- **When neighbours agree on their edge.** For every two adjacent tiles
of the supported zooms and every least number of columns of the source
cells from 600 on: the tiles hold the same at every sample of their edge,
whatever the cells hold, exactly if no row closes between them, or they
are averaged and every box of the edge is at least as large as a pixel can
be. -/
theorem edgeAgrees_iff (hcolumns : 600 ≤ columns)
    (hsupported : supportsAddress ⟨copernicusDataset, first⟩ = true)
    (hadjacent : Adjacent first second) :
    EdgeAgrees columns first second ↔
      ¬ Around first second ∨
        (normalizedTileUsesAreaAverage first = true ∧
          ∀ row ≤ terrainTileCellCount,
            LargeBox columns tileYToLatitudeDeg first row
              terrainTileCellCount) := by
  have hzoom := zoom_of_supported hsupported
  constructor
  · intro hagree
    by_contra hnot
    rw [not_or, not_not] at hnot
    obtain ⟨haround, hpoints⟩ := hnot
    cases harea : normalizedTileUsesAreaAverage first with
    | false =>
        exact not_edgeAgrees_of_point hcolumns haround (Nat.zero_le _)
          (Or.inl harea) hagree
    | true =>
        refine hpoints ⟨harea, fun row hrow => ?_⟩
        by_contra hsmall
        exact not_edgeAgrees_of_point hcolumns haround hrow (Or.inr hsmall)
          hagree
  · intro hcondition
    cases hadjacent with
    | east zoom row next => exact edgeAgrees_beside hzoom (Or.inr next)
    | south zoom column next => exact edgeAgrees_beside hzoom (Or.inl column)
    | around closes =>
        obtain ⟨harea, hlarge⟩ :=
          hcondition.resolve_left (not_not_intro closes)
        exact edgeAgrees_around hzoom (by omega) closes harea hlarge

end

open TileStore.Copernicus in
/-- Two tiles within a row. -/
theorem edgeAgrees_iff_beside :
    EdgeAgrees 600 ⟨8, 134, 85⟩ ⟨8, 135, 85⟩ := by
  have hsupported : supportsAddress ⟨copernicusDataset, ⟨8, 134, 85⟩⟩ = true :=
    by decide
  have hadjacent : Adjacent ⟨8, 134, 85⟩ ⟨8, 135, 85⟩ :=
    Adjacent.east rfl rfl rfl
  refine (edgeAgrees_iff (le_refl 600) hsupported hadjacent).2
    (Or.inl fun haround => ?_)
  exact absurd haround.start (by decide)

open TileStore.Copernicus in
/-- The tiles where a row of the native zoom closes, south of the
equator. -/
theorem edge_differs :
    supportsAddress ⟨copernicusDataset, ⟨14, 16383, 8192⟩⟩ = true ∧
      supportsAddress ⟨copernicusDataset, ⟨14, 0, 8192⟩⟩ = true ∧
      Adjacent ⟨14, 16383, 8192⟩ ⟨14, 0, 8192⟩ ∧
      ¬ EdgeAgrees 600 ⟨14, 16383, 8192⟩ ⟨14, 0, 8192⟩ := by
  have haround : Around ⟨14, 16383, 8192⟩ ⟨14, 0, 8192⟩ :=
    ⟨rfl, rfl, by decide, rfl⟩
  exact ⟨by decide, by decide, Adjacent.around haround,
    not_edgeAgrees_of_point (le_refl 600) haround (Nat.zero_le _)
      (Or.inl (by decide))⟩

end AowisMap.Terrain
