/-
Tiles that share samples agree on them.

# Places

The samples of a zoom are numbered across all its tiles. A sample has the
point and the box of its number, whichever tile it is computed for
(`SamePlace`).

# Averages

The sums of a box are those of its definition, which names no tile
(`box_candidates`, `sum_candidateCells`). Around the globe a cell comes back
at its western border and 360 degrees, so the boxes at both ends of a row
of tiles agree too (`cellTally_around`), though not the points.
-/
import AowisMap.Terrain.Proofs.AreaAverage
import AowisMap.Terrain.Proofs.TilePlan
import AowisMap.Terrain.Proofs.TileSamples

namespace AowisMap.Terrain

open Lib Lib.Tally

-- ================================================================= boxes

section

variable {K : Type*} [Field K] [LinearOrder K] [FloorRing K]
  [IsStrictOrderedRing K] {load : CopernicusSourceAddress → SourceLoad}
  {image : CopernicusSourceAddress → Nat → Nat → UInt32}
  {longitudes latitudes longitudes' latitudes' : List K}
  {row column row' column' : Nat}

/-- Two boxes of the same place, but for turns around the globe. -/
structure SameBox (turns : Int) (longitudes latitudes : List K)
    (row column : Nat) (longitudes' latitudes' : List K)
    (row' column' : Nat) : Prop where
  west : edge longitudes column
    = edge longitudes' column' + (360 * turns : Int)
  east : edge longitudes (column + 1)
    = edge longitudes' (column' + 1) + (360 * turns : Int)
  north : edge latitudes row = edge latitudes' row'
  south : edge latitudes (row + 1) = edge latitudes' (row' + 1)

/-- The columns of the sources are those of the ring. -/
theorem wrappedSourceWest_eq (west : Int) :
    wrappedSourceWest west = foldedWestDeg west := by
  have hinner : (west + 180).tmod 360 + 360 = (west + 180) % 360
      ∨ (west + 180).tmod 360 + 360 = (west + 180) % 360 + 360 := by
    rw [Int.tmod_eq_emod]
    split
    · exact Or.inr (by omega)
    · exact Or.inl (by omega)
  have hfolded := foldedWestDeg_bounds west
  unfold foldedWestDeg at hfolded
  unfold wrappedSourceWest foldedWestDeg
  rw [Int.tmod_eq_emod_of_nonneg (by omega)]
  omega

/-- A turn leads back to the same source. -/
theorem wrappedSourceWest_around (west turns : Int) :
    wrappedSourceWest (west + 360 * turns) = wrappedSourceWest west := by
  rw [wrappedSourceWest_eq, wrappedSourceWest_eq]
  unfold foldedWestDeg
  omega

/-- The same box gets as much of a cell a number of turns away. -/
theorem cellTally_around {turns : Int}
    (hbox : SameBox turns longitudes latitudes row column longitudes'
      latitudes' row' column') (tally : AreaTally) (cell : Int × Int) :
    cellTally load image longitudes latitudes tally row column
        (cell.1, cell.2 + 360 * turns)
      = cellTally load image longitudes' latitudes' tally row' column'
        cell := by
  unfold cellTally
  dsimp only
  rw [wrappedSourceWest_around]
  cases load ⟨cell.1, wrappedSourceWest cell.2⟩ with
  | unavailable => rfl
  | failed status errorMessage => rfl
  | ready raster downloaded =>
      apply Finset.sum_congr rfl
      intro pixel _
      have hwest : (pixelWest (cell.2 + 360 * turns) raster.pixelWidth
          pixel.1 : K) = pixelWest cell.2 raster.pixelWidth pixel.1
            + (360 * turns : Int) := by
        unfold pixelWest
        push_cast
        ring
      have heast : (pixelEast (cell.2 + 360 * turns) raster.pixelWidth
          pixel.1 : K) = pixelEast cell.2 raster.pixelWidth pixel.1
            + (360 * turns : Int) := by
        unfold pixelEast
        push_cast
        ring
      unfold sharedArea
      rw [hwest, heast, hbox.west, hbox.east, hbox.north, hbox.south,
        shared_add]

theorem exists_cellsBetween (low high : Int) :
    ∃ cells : Finset (Int × Int), ∀ {cell : Int × Int}, cell ∈ cells ↔
      (-90 ≤ cell.1 ∧ cell.1 ≤ 89) ∧ low ≤ cell.2 ∧ cell.2 ≤ high := by
  refine ⟨between (-90) 89 ×ˢ between low high, ?_⟩
  intro cell
  rw [Finset.mem_product, mem_between, mem_between]

open CopernicusRasterSet in
/-- The same box has the same sums, whichever boxes are around it. -/
theorem box_around {turns : Int} (hsources : AveragedSources load image)
    (hlongitudes : longitudes.Pairwise (· ≤ ·))
    (hlatitudes : latitudes.Pairwise (· ≥ ·))
    (hlongitudes' : longitudes'.Pairwise (· ≤ ·))
    (hlatitudes' : latitudes'.Pairwise (· ≥ ·))
    (hrow : row + 1 < latitudes.length)
    (hcolumn : column + 1 < longitudes.length)
    (hrow' : row' + 1 < latitudes'.length)
    (hcolumn' : column' + 1 < longitudes'.length)
    (hbox : SameBox turns longitudes latitudes row column longitudes'
      latitudes' row' column') {area area' : AreaSums K}
    {rasters rasters' after after' : CopernicusRasterSet}
    (h : rasters.accumulateAreaAverages load longitudes latitudes
      = (true, area, after))
    (h' : rasters'.accumulateAreaAverages load longitudes' latitudes'
      = (true, area', after')) (tally : AreaTally) :
    tally.box area (row * (longitudes.length - 1) + column)
      = tally.box area' (row' * (longitudes'.length - 1) + column') := by
  -- columns of cells enough for both, seen from the second box
  obtain ⟨near, hnear⟩ := exists_cellsBetween
    (min (⌊edge longitudes' 0 - 1⌋) (⌊edge longitudes 0 - 1⌋ - 360 * turns))
    (max (⌈edge longitudes' (longitudes'.length - 1) + 1⌉)
      (⌈edge longitudes (longitudes.length - 1) + 1⌉ - 360 * turns))
  have hturned : Function.Injective fun cell : Int × Int =>
      (cell.1, cell.2 + 360 * turns) := by
    intro cell cell' hcell
    have hfirst := congrArg Prod.fst hcell
    have hsecond := congrArg Prod.snd hcell
    dsimp only at hfirst hsecond
    exact Prod.ext hfirst (by omega)
  rw [box_candidates hlongitudes hlatitudes hsources hrow hcolumn tally h,
    box_candidates hlongitudes' hlatitudes' hsources hrow' hcolumn' tally h',
    sum_candidateCells hlongitudes hlatitudes hsources hrow hcolumn tally
      (near.image fun cell => (cell.1, cell.2 + 360 * turns)) ?_ ?_,
    sum_candidateCells hlongitudes' hlatitudes' hsources hrow' hcolumn' tally
      near ?_ ?_, Finset.sum_image hturned.injOn]
  · exact Finset.sum_congr rfl fun cell _ => cellTally_around hbox tally cell
  · intro cell hcell
    have hmem := hnear.1 hcell
    omega
  · intro cell hlow hhigh hwest heast
    have hfloor := Int.floor_lt.2 hwest
    have hceil := Int.lt_ceil.2 heast
    exact hnear.2 ⟨⟨hlow, by omega⟩, (min_le_left _ _).trans hfloor.le,
      hceil.le.trans (le_max_left _ _)⟩
  · intro cell hcell
    obtain ⟨other, hother, rfl⟩ := Finset.mem_image.1 hcell
    have hmem := hnear.1 hother
    omega
  · intro cell hlow hhigh hwest heast
    have hfloor := Int.floor_lt.2 hwest
    have hceil := Int.lt_ceil.2 heast
    refine Finset.mem_image.2 ⟨(cell.1, cell.2 - 360 * turns),
      hnear.2 ⟨⟨hlow, by omega⟩, ?_, ?_⟩, ?_⟩
    · exact (min_le_right _ _).trans (by omega)
    · exact le_trans (by omega) (le_max_right _ _)
    · exact Prod.ext rfl (by omega)

-- ================================================================ places

variable {latitude : K → K → K} {first second : TerrainTileAddress}
  {turns : Int}

/-- Two samples of one place of a zoom, but for turns around the globe. -/
structure SamePlace (turns : Int) (first : TerrainTileAddress)
    (row column : Nat) (second : TerrainTileAddress)
    (row' column' : Nat) : Prop where
  zoom : first.zoom = second.zoom
  column_eq : ((first.x * terrainTileCellCount + column : Nat) : Int)
    = (second.x * terrainTileCellCount + column' : Nat)
      + turns * (2 ^ first.zoom.toNat * terrainTileCellCount : Nat)
  row_eq : first.y * terrainTileCellCount + row
    = second.y * terrainTileCellCount + row'
  row_le : row ≤ terrainTileCellCount
  column_le : column ≤ terrainTileCellCount
  row_le' : row' ≤ terrainTileCellCount
  column_le' : column' ≤ terrainTileCellCount

omit [LinearOrder K] [FloorRing K] [IsStrictOrderedRing K] in
theorem edge_longitudeEdges {index : Nat} (h : index ≤ terrainTileGridSize) :
    edge (longitudeEdges first : List K) index
      = tileXToLongitudeDeg ((first.x : K) + edgeOffset index)
        (tileCountOf first) := by
  unfold edge longitudeEdges
  rw [List.getD_eq_getElem?_getD, List.getElem?_map,
    List.getElem?_range (Nat.lt_succ_of_le h)]
  rfl

omit [LinearOrder K] [FloorRing K] [IsStrictOrderedRing K] in
theorem edge_latitudeEdges {index : Nat} (h : index ≤ terrainTileGridSize) :
    edge (latitudeEdges latitude first) index
      = latitude (first.y + edgeOffset index) (tileCountOf first) := by
  unfold edge latitudeEdges
  rw [List.getD_eq_getElem?_getD, List.getElem?_map,
    List.getElem?_range (Nat.lt_succ_of_le h)]
  rfl

omit [FloorRing K] in
theorem tileCountOf_pos (address : TerrainTileAddress) :
    (0 : K) < tileCountOf address := by
  unfold tileCountOf
  positivity

omit [FloorRing K] in
theorem cellCount_pos : (0 : K) < terrainTileCellCount := by
  have hpos : 0 < terrainTileCellCount := by decide
  exact_mod_cast hpos

omit [FloorRing K] in
/-- Longitudes of columns of one place, fractions of a column included. -/
theorem longitude_place {row column row' column' : Nat}
    (hplace : SamePlace turns first row column second row' column')
    (offset : K) :
    tileXToLongitudeDeg
        ((first.x : K) + ((column : K) + offset) / terrainTileCellCount)
        (tileCountOf first)
      = tileXToLongitudeDeg
          ((second.x : K) + ((column' : K) + offset) / terrainTileCellCount)
          (tileCountOf second) + (360 * turns : Int) := by
  have hcount : (tileCountOf first : K) = tileCountOf second := by
    unfold tileCountOf
    rw [hplace.zoom]
  have hcolumn : (first.x : K) * terrainTileCellCount + column
      = second.x * terrainTileCellCount + column'
        + turns * (tileCountOf second * terrainTileCellCount) := by
    have hcast := congrArg (fun n : Int => (n : K)) hplace.column_eq
    rw [← hcount]
    unfold tileCountOf
    push_cast at hcast
    exact hcast
  have hpos : (tileCountOf second : K) ≠ 0 := (tileCountOf_pos second).ne'
  have hcells : (terrainTileCellCount : K) ≠ 0 := cellCount_pos.ne'
  have hfirst : (first.x : K) + (column + offset) / terrainTileCellCount
      = second.x + (column' + offset) / terrainTileCellCount
        + turns * tileCountOf second := by
    field_simp
    linear_combination hcolumn
  unfold tileXToLongitudeDeg
  rw [hcount, hfirst]
  push_cast
  field_simp
  ring

omit [FloorRing K] in
/-- Latitudes of rows of one place, fractions of a row included. -/
theorem latitude_place {row column row' column' : Nat}
    (hplace : SamePlace turns first row column second row' column')
    (offset : K) :
    latitude (first.y + ((row : K) + offset) / terrainTileCellCount)
        (tileCountOf first)
      = latitude (second.y + ((row' : K) + offset) / terrainTileCellCount)
        (tileCountOf second) := by
  have hcount : (tileCountOf first : K) = tileCountOf second := by
    unfold tileCountOf
    rw [hplace.zoom]
  have hrow : (first.y : K) * terrainTileCellCount + row
      = second.y * terrainTileCellCount + row' := by
    exact_mod_cast hplace.row_eq
  have hcells : (terrainTileCellCount : K) ≠ 0 := cellCount_pos.ne'
  have hfirst : (first.y : K) + (row + offset) / terrainTileCellCount
      = second.y + (row' + offset) / terrainTileCellCount := by
    field_simp
    linear_combination hrow
  rw [hcount, hfirst]

/-- The boxes of samples of one place. -/
theorem SamePlace.sameBox {row column row' column' : Nat}
    (hplace : SamePlace turns first row column second row' column') :
    SameBox turns (longitudeEdges first : List K)
      (latitudeEdges latitude first) row column (longitudeEdges second)
      (latitudeEdges latitude second) row' column' := by
  have hrow := hplace.row_le
  have hcolumn := hplace.column_le
  have hrow' := hplace.row_le'
  have hcolumn' := hplace.column_le'
  have hsize : terrainTileGridSize = terrainTileCellCount + 1 := rfl
  have hshift : ∀ index offset : Nat, (edgeOffset (index + offset) : K)
      = ((index : K) + ((offset : K) - 1 / 2)) / terrainTileCellCount := by
    intro index offset
    unfold edgeOffset
    push_cast
    ring
  have hedge : ∀ offset ≤ 1,
      edge (longitudeEdges first : List K) (column + offset)
        = edge (longitudeEdges second) (column' + offset)
          + (360 * turns : Int) ∧
      edge (latitudeEdges latitude first) (row + offset)
        = edge (latitudeEdges latitude second) (row' + offset) := by
    intro offset hoffset
    rw [edge_longitudeEdges (by omega), edge_longitudeEdges (by omega),
      edge_latitudeEdges (by omega), edge_latitudeEdges (by omega), hshift,
      hshift, hshift, hshift]
    exact ⟨longitude_place hplace _, latitude_place hplace _⟩
  exact ⟨(hedge 0 (by decide)).1, (hedge 1 (by decide)).1,
    (hedge 0 (by decide)).2, (hedge 1 (by decide)).2⟩

omit [FloorRing K] in
theorem longitudeEdges_ascend :
    (longitudeEdges first : List K).Pairwise (· ≤ ·) := by
  unfold longitudeEdges
  rw [List.pairwise_map]
  refine List.pairwise_lt_range.imp ?_
  intro index index' hlt
  have hle : (index : K) ≤ index' := by exact_mod_cast hlt.le
  have hcells : (0 : K) < terrainTileCellCount := cellCount_pos
  have hcount : (0 : K) < tileCountOf first := tileCountOf_pos first
  unfold tileXToLongitudeDeg edgeOffset
  gcongr

omit [FloorRing K] in
theorem latitudeEdges_descend (hlatitude : RowLatitudes latitude) :
    (latitudeEdges latitude first).Pairwise (· ≥ ·) := by
  unfold latitudeEdges
  rw [List.pairwise_map]
  refine List.pairwise_lt_range.imp ?_
  intro index index' hlt
  have hcells : (0 : K) < terrainTileCellCount := cellCount_pos
  have hcast : (index : K) < index' := by exact_mod_cast hlt
  have hoffset : (edgeOffset index : K) < edgeOffset index' := by
    unfold edgeOffset
    gcongr
  exact (hlatitude.decreasing (tileCountOf_pos first)
    (add_lt_add_right hoffset _)).le

open CopernicusRasterSet in
/-- The averages of samples of one place. -/
theorem SamePlace.box_eq {row column row' column' : Nat}
    (hlatitude : RowLatitudes latitude)
    (hsources : AveragedSources load image)
    (hplace : SamePlace turns first row column second row' column')
    {area area' : AreaSums K}
    {rasters rasters' after after' : CopernicusRasterSet}
    (h : rasters.accumulateAreaAverages load (longitudeEdges first)
      (latitudeEdges latitude first) = (true, area, after))
    (h' : rasters'.accumulateAreaAverages load (longitudeEdges second)
      (latitudeEdges latitude second) = (true, area', after'))
    (tally : AreaTally) :
    tally.box area (row * terrainTileGridSize + column)
      = tally.box area' (row' * terrainTileGridSize + column') := by
  have hrow := hplace.row_le
  have hcolumn := hplace.column_le
  have hrow' := hplace.row_le'
  have hcolumn' := hplace.column_le'
  have hsize : terrainTileGridSize = terrainTileCellCount + 1 := rfl
  have hbox := box_around hsources longitudeEdges_ascend
    (latitudeEdges_descend hlatitude) longitudeEdges_ascend
    (latitudeEdges_descend hlatitude) (by rw [length_latitudeEdges]; omega)
    (by rw [length_longitudeEdges]; omega)
    (by rw [length_latitudeEdges]; omega)
    (by rw [length_longitudeEdges]; omega) hplace.sameBox h h' tally
  rw [length_longitudeEdges, length_longitudeEdges, Nat.add_sub_cancel]
    at hbox
  exact hbox

-- ============================================================== samples

omit [FloorRing K] in
theorem SamePlace.latitude_eq {row column row' column' : Nat}
    (hplace : SamePlace turns first row column second row' column') :
    sampleLatitude latitude first row
      = sampleLatitude latitude second row' := by
  have hlatitude := @latitude_place K _ _ _ latitude _ _ _ _ _ _ _ hplace 0
  rw [add_zero, add_zero] at hlatitude
  exact hlatitude

omit [FloorRing K] in
theorem SamePlace.longitude_eq {row column row' column' : Nat}
    (hplace : SamePlace 0 first row column second row' column') :
    (sampleLongitude first column : K) = sampleLongitude second column' := by
  have hlongitude := @longitude_place K _ _ _ _ _ _ _ _ _ _ hplace 0
  rw [add_zero, add_zero, mul_zero, Int.cast_zero, add_zero] at hlongitude
  exact hlongitude

open CopernicusRasterSet in
/-- A sample in the list of a tile. -/
theorem getElem?_gridSamples {A : Type*} (f : Nat × Nat → A)
    {row column : Nat} (hrow : row ≤ terrainTileCellCount)
    (hcolumn : column ≤ terrainTileCellCount) :
    (gridSamples.map f)[row * terrainTileGridSize + column]?
      = some (f (row, column)) := by
  have hrow' : row < terrainTileGridSize := Nat.lt_succ_of_le hrow
  have hcolumn' : column < terrainTileGridSize := Nat.lt_succ_of_le hcolumn
  have hsample : gridSamples[row * terrainTileGridSize + column]?
      = some (row, column) := Steps.getElem?_rows Prod.mk hcolumn' hrow'
  rw [List.getElem?_map, hsample]
  rfl

open CopernicusRasterSet in
/-- Samples of one point and box, whatever they are gathered for. -/
theorem SamePlace.sampleElevation_eq {row column row' column' : Nat}
    (hplace : SamePlace 0 first row column second row' column')
    {area area' : Option (AreaSums K)}
    (harea : ∀ (tally : AreaTally),
      (area.map fun sums =>
        tally.box sums (row * terrainTileGridSize + column))
      = area'.map fun sums =>
        tally.box sums (row' * terrainTileGridSize + column')) :
    (({} : CopernicusRasterSet).sampleElevation load latitude first area row
        column).1
      = (({} : CopernicusRasterSet).sampleElevation load latitude second area'
        row' column').1 := by
  have hlatitude : sampleLatitude latitude first row
      = sampleLatitude latitude second row' := hplace.latitude_eq
  have hlongitude : (sampleLongitude first column : K)
      = sampleLongitude second column' := hplace.longitude_eq
  have hbox : SameBox 0 (longitudeEdges first : List K)
      (latitudeEdges latitude first) row column (longitudeEdges second)
      (latitudeEdges latitude second) row' column' := hplace.sameBox
  have hwest := hbox.west
  have heast := hbox.east
  rw [mul_zero, Int.cast_zero, add_zero] at hwest heast
  unfold CopernicusRasterSet.sampleElevation
  rw [hlatitude, hlongitude, hwest, heast, hbox.north, hbox.south]
  cases area with
  | none =>
      cases area' with
      | none => rfl
      | some sums' => cases harea .sums
  | some sums =>
      cases area' with
      | none => cases harea .sums
      | some sums' =>
          have hsums : sums.sums (row * terrainTileGridSize + column)
              = sums'.sums (row' * terrainTileGridSize + column') :=
            Option.some.inj (harea .sums)
          have hweights : sums.weights (row * terrainTileGridSize + column)
              = sums'.weights (row' * terrainTileGridSize + column') :=
            Option.some.inj (harea .weights)
          dsimp only
          rw [hsums, hweights]

open CopernicusRasterSet in
/-- The sums of both tiles at one place, if they are averaged. -/
theorem SamePlace.area_eq {row column row' column' : Nat}
    (hlatitude : RowLatitudes latitude)
    (hsources : AveragedSources load image)
    (hplace : SamePlace turns first row column second row' column')
    {elevations elevations' : List (Option K)}
    (h : (sampleTile load latitude first).1 = some elevations)
    (h' : (sampleTile load latitude second).1 = some elevations') :
    ∃ area area' : Option (AreaSums K),
      (∀ tally : AreaTally, (area.map fun sums =>
          tally.box sums (row * terrainTileGridSize + column))
        = area'.map fun sums =>
          tally.box sums (row' * terrainTileGridSize + column')) ∧
      (area.isSome = normalizedTileUsesAreaAverage first ∧
        area'.isSome = normalizedTileUsesAreaAverage first) ∧
      elevations[row * terrainTileGridSize + column]?
        = some (({} : CopernicusRasterSet).sampleElevation load latitude first
          area row column).1 ∧
      elevations'[row' * terrainTileGridSize + column']?
        = some (({} : CopernicusRasterSet).sampleElevation load latitude second
          area' row' column').1 := by
  obtain ⟨area, haverage, hnative, helevations⟩ := sampleTile_eq h
  obtain ⟨area', haverage', hnative', helevations'⟩ := sampleTile_eq h'
  have huses : normalizedTileUsesAreaAverage second
      = normalizedTileUsesAreaAverage first := by
    unfold normalizedTileUsesAreaAverage
    rw [hplace.zoom]
  rw [huses] at haverage' hnative'
  refine ⟨area, area', ?_, ?_, ?_, ?_⟩
  · intro tally
    cases harea : normalizedTileUsesAreaAverage first with
    | true =>
        obtain ⟨sums, after, rfl, hsums⟩ := haverage harea
        obtain ⟨sums', after', rfl, hsums'⟩ := haverage' harea
        exact congrArg some
          (hplace.box_eq hlatitude hsources hsums hsums' tally)
    | false =>
        rw [hnative harea, hnative' harea]
        rfl
  · cases harea : normalizedTileUsesAreaAverage first with
    | true =>
        obtain ⟨sums, after, rfl, -⟩ := haverage harea
        obtain ⟨sums', after', rfl, -⟩ := haverage' harea
        exact ⟨rfl, rfl⟩
    | false =>
        rw [hnative harea, hnative' harea]
        exact ⟨rfl, rfl⟩
  · rw [helevations]
    exact getElem?_gridSamples _ hplace.row_le hplace.column_le
  · rw [helevations']
    exact getElem?_gridSamples _ hplace.row_le' hplace.column_le'

/-- The box of a sample is at least as large as a pixel of the source at
its point, if there is one. -/
def CoversPixel (load : CopernicusSourceAddress → SourceLoad)
    (latitude : K → K → K) (address : TerrainTileAddress)
    (row column : Nat) : Prop :=
  ∀ {raster : SourceRaster} {downloaded : Bool},
    load (sourceAddressForCoordinate (sampleLatitude latitude address row)
      (sampleLongitude address column)) = .ready raster downloaded →
    1 / (raster.pixelWidth : K) ≤ edge (longitudeEdges address) (column + 1)
        - edge (longitudeEdges address) column ∧
      1 / (raster.pixelHeight : K) ≤ edge (latitudeEdges latitude address) row
        - edge (latitudeEdges latitude address) (row + 1)

omit [IsStrictOrderedRing K] in
open CopernicusRasterSet in
/-- A box that covers a pixel is averaged. -/
theorem sampleElevation_covered {row column : Nat} {sums : AreaSums K}
    (hcovers : CoversPixel load latitude first row column) :
    (({} : CopernicusRasterSet).sampleElevation load latitude first (some sums)
        row column).1
      = if 0 < sums.weights (row * terrainTileGridSize + column) then
          some (sums.sums (row * terrainTileGridSize + column)
            / sums.weights (row * terrainTileGridSize + column))
        else none := by
  unfold CopernicusRasterSet.sampleElevation pixelSizeAt raster
  unfold CoversPixel at hcovers
  dsimp only
  cases hload : load (sourceAddressForCoordinate
    (sampleLatitude latitude first row) (sampleLongitude first column)) with
  | unavailable =>
      simp only [Option.isSome_none, Bool.false_eq_true, if_false,
        Bool.true_and, decide_eq_true_eq, Bool.true_eq_false]
      split
      · rfl
      · rfl
  | failed status errorMessage =>
      simp only [Option.isSome_none, Bool.false_eq_true, if_false,
        Bool.true_and, decide_eq_true_eq, Bool.true_eq_false]
      split
      · rfl
      · rfl
  | ready raster downloaded =>
      obtain ⟨hwidth, hheight⟩ := hcovers hload
      simp only [Option.isSome_none, Bool.false_eq_true, if_false,
        hwidth, hheight, decide_true, Bool.and_self, Bool.true_and,
        decide_eq_true_eq, Bool.true_eq_false]
      split
      · rfl
      · rfl

omit [IsStrictOrderedRing K] in
open CopernicusRasterSet in
/-- A box that is smaller than a pixel is sampled as a point. -/
theorem sampleElevation_uncovered {row column : Nat} {sums : AreaSums K}
    (hsmall : ¬ CoversPixel load latitude first row column) :
    (({} : CopernicusRasterSet).sampleElevation load latitude first (some sums)
        row column).1
      = (({} : CopernicusRasterSet).sample load
        (sampleLatitude latitude first row)
        (sampleLongitude first column)).1 := by
  unfold CoversPixel at hsmall
  simp only [not_forall] at hsmall
  obtain ⟨raster, downloaded, hload, hsmall⟩ := hsmall
  unfold CopernicusRasterSet.sampleElevation pixelSizeAt
    CopernicusRasterSet.raster
  dsimp only
  rw [hload]
  have hcovers : (decide (1 / (raster.pixelWidth : K)
      ≤ edge (longitudeEdges first) (column + 1)
        - edge (longitudeEdges first) column) &&
      decide (1 / (raster.pixelHeight : K)
        ≤ edge (latitudeEdges latitude first) row
          - edge (latitudeEdges latitude first) (row + 1))) = false := by
    rw [← Bool.decide_and]
    exact decide_eq_false hsmall
  simp only [Option.isSome_none, Bool.false_eq_true, if_false, hcovers,
    Bool.false_and, if_true]
  exact sample_congr rfl

open CopernicusRasterSet in
/-- Tiles agree on a sample of both, -/
theorem SamePlace.agree (hlatitude : RowLatitudes latitude)
    (hsources : AveragedSources load image)
    (hplace : SamePlace 0 first row column second row' column')
    {elevations elevations' : List (Option K)}
    (h : (sampleTile load latitude first).1 = some elevations)
    (h' : (sampleTile load latitude second).1 = some elevations') :
    ∃ elevation : Option K,
      elevations[row * terrainTileGridSize + column]? = some elevation ∧
      elevations'[row' * terrainTileGridSize + column']?
        = some elevation := by
  obtain ⟨area, area', harea, -, helevation, helevation'⟩ :=
    hplace.area_eq hlatitude hsources h h'
  refine ⟨_, helevation, ?_⟩
  rw [helevation', hplace.sampleElevation_eq harea]

open CopernicusRasterSet in
/-- and a number of turns apart on the average of a box that covers a
pixel of either. -/
theorem SamePlace.agree_covered (hlatitude : RowLatitudes latitude)
    (hsources : AveragedSources load image)
    (hplace : SamePlace turns first row column second row' column')
    (harea : normalizedTileUsesAreaAverage first = true)
    (hcovers : CoversPixel load latitude first row column)
    (hcovers' : CoversPixel load latitude second row' column')
    {elevations elevations' : List (Option K)}
    (h : (sampleTile load latitude first).1 = some elevations)
    (h' : (sampleTile load latitude second).1 = some elevations') :
    ∃ elevation : Option K,
      elevations[row * terrainTileGridSize + column]? = some elevation ∧
      elevations'[row' * terrainTileGridSize + column']?
        = some elevation := by
  obtain ⟨area, area', hboxes, ⟨hused, hused'⟩, helevation, helevation'⟩ :=
    hplace.area_eq hlatitude hsources h h'
  rw [harea] at hused hused'
  obtain ⟨sums, rfl⟩ := Option.isSome_iff_exists.1 hused
  obtain ⟨sums', rfl⟩ := Option.isSome_iff_exists.1 hused'
  have hsums : sums.sums (row * terrainTileGridSize + column)
      = sums'.sums (row' * terrainTileGridSize + column') :=
    Option.some.inj (hboxes .sums)
  have hweights : sums.weights (row * terrainTileGridSize + column)
      = sums'.weights (row' * terrainTileGridSize + column') :=
    Option.some.inj (hboxes .weights)
  rw [sampleElevation_covered hcovers] at helevation
  rw [sampleElevation_covered hcovers', ← hsums, ← hweights] at helevation'
  exact ⟨_, helevation, helevation'⟩

end

-- ================================================================ seams

section

variable {load : CopernicusSourceAddress → SourceLoad}
  {image : CopernicusSourceAddress → Nat → Nat → UInt32}
  {first second : TerrainTileAddress} {row column row' column' : Nat}

open CopernicusRasterSet in
/-- **Tiles agree on what they share.** Two tiles of one zoom that are
both sampled hold the same value, or both none, at every sample that
belongs to both of them: along a side, or in a corner. -/
theorem seam (hsources : AveragedSources load image)
    (hplace : SamePlace 0 first row column second row' column')
    {elevations elevations' : List (Option ℝ)}
    (h : (sampleTile load tileYToLatitudeDeg first).1 = some elevations)
    (h' : (sampleTile load tileYToLatitudeDeg second).1
      = some elevations') :
    ∃ elevation : Option ℝ,
      elevations[row * terrainTileGridSize + column]? = some elevation ∧
      elevations'[row' * terrainTileGridSize + column']?
        = some elevation :=
  hplace.agree rowLatitudes_tileYToLatitudeDeg hsources h h'

open CopernicusRasterSet in
/-- **Averages agree around the globe.** At a sample where the first and
the last tile of a row meet, both tiles hold the same average, or none, if
the boxes at both ends are as large as the pixels there. (Points are
sampled from different pixels.) -/
theorem seam_around (hsources : AveragedSources load image) {turns : Int}
    (hplace : SamePlace turns first row column second row' column')
    (harea : normalizedTileUsesAreaAverage first = true)
    (hcovers : CoversPixel load tileYToLatitudeDeg first row column)
    (hcovers' : CoversPixel load tileYToLatitudeDeg second row' column')
    {elevations elevations' : List (Option ℝ)}
    (h : (sampleTile load tileYToLatitudeDeg first).1 = some elevations)
    (h' : (sampleTile load tileYToLatitudeDeg second).1
      = some elevations') :
    ∃ elevation : Option ℝ,
      elevations[row * terrainTileGridSize + column]? = some elevation ∧
      elevations'[row' * terrainTileGridSize + column']?
        = some elevation :=
  hplace.agree_covered rowLatitudes_tileYToLatitudeDeg hsources harea hcovers
    hcovers' h h'

end

-- ------------------------------------------------- one source everywhere

theorem readableSources_plain (word : UInt32) :
    ReadableSources (plainLoad word) where
  loads := nofun
  pixels := by
    intro address raster downloaded hload column row
    cases hload
    rfl
  windows := by
    intro address raster downloaded hload window
    cases hload
    rfl

open CopernicusRasterSet in
/-- Two tiles next to each other. -/
theorem seam_plain :
    ∃ elevations elevations' : List (Option ℝ),
      (sampleTile (plainLoad 0x42C80000) tileYToLatitudeDeg
        ⟨8, 134, 85⟩).1 = some elevations ∧
      (sampleTile (plainLoad 0x42C80000) tileYToLatitudeDeg
        ⟨8, 135, 85⟩).1 = some elevations' ∧
      ∃ elevation : Option ℝ,
        elevations[3 * terrainTileGridSize + 64]? = some elevation ∧
        elevations'[3 * terrainTileGridSize + 0]? = some elevation := by
  have hreadable := readableSources_plain 0x42C80000
  obtain ⟨elevations, h⟩ := @sampleTile_readable _ ℝ _ _ _
    tileYToLatitudeDeg ⟨8, 134, 85⟩ hreadable
  obtain ⟨elevations', h'⟩ := @sampleTile_readable _ ℝ _ _ _
    tileYToLatitudeDeg ⟨8, 135, 85⟩ hreadable
  have hplace : SamePlace 0 ⟨8, 134, 85⟩ 3 64 ⟨8, 135, 85⟩ 3 0 :=
    ⟨rfl, by decide, by decide, by decide, by decide, by decide, by decide⟩
  exact ⟨elevations, elevations', h, h',
    seam (averagedSources_plain 0x42C80000) hplace h h'⟩

/-- At the equator a box of zoom 8 is higher than a pixel. -/
theorem box_height_equator :
    (1 : ℝ) / 3600 ≤ tileYToLatitudeDeg (128 - 1 / 128) 256
      - tileYToLatitudeDeg (128 + 1 / 128) 256 := by
  have hpi := Real.pi_pos
  have hpi' := Real.pi_le_four
  have hsmall : (0 : ℝ) ≤ Real.pi / 1296000 := by positivity
  have hbound : Real.pi / 1296000 ≤ 1 / 2 := by linarith
  have hcos := Real.one_sub_sq_div_two_le_cos (x := Real.pi / 1296000)
  have hcosHalf : 1 / 2 ≤ Real.cos (Real.pi / 1296000) := by nlinarith
  have htan : Real.tan (Real.pi / 1296000) ≤ Real.sinh (Real.pi / 16384) := by
    have hsin := Real.sin_le hsmall
    have hsinh := Real.self_le_sinh_iff.2
      (show (0 : ℝ) ≤ Real.pi / 16384 by positivity)
    rw [Real.tan_eq_sin_div_cos, div_le_iff₀ (by linarith)]
    nlinarith
  have harctan : Real.pi / 1296000
      ≤ Real.arctan (Real.sinh (Real.pi / 16384)) := by
    rw [← Real.arctan_tan (x := Real.pi / 1296000) (by linarith)
      (by linarith)]
    exact Real.arctan_strictMono.monotone htan
  unfold tileYToLatitudeDeg
  have hnorth : Real.pi * (1 - 2 * (128 - 1 / 128) / 256)
      = Real.pi / 16384 := by ring
  have hsouth : Real.pi * (1 - 2 * (128 + 1 / 128) / 256)
      = -(Real.pi / 16384) := by ring
  rw [hnorth, hsouth, Real.sinh_neg, Real.arctan_neg]
  have hhalf : (1 : ℝ) / 7200
      ≤ Real.arctan (Real.sinh (Real.pi / 16384)) * 180 / Real.pi := by
    rw [le_div_iff₀ hpi]
    linarith
  rw [neg_mul, neg_div]
  linarith

theorem coversPixel_equator (x : Nat) {column : Nat}
    (hcolumn : column ≤ terrainTileCellCount) :
    CoversPixel (plainLoad 0x42C80000) tileYToLatitudeDeg ⟨8, x, 128⟩ 0
      column := by
  have hsize : terrainTileGridSize = terrainTileCellCount + 1 := rfl
  have hcells : (terrainTileCellCount : ℝ) = 64 := by
    have hcells : terrainTileCellCount = 64 := rfl
    rw [hcells]
    norm_num
  have hcount : (tileCountOf ⟨8, x, 128⟩ : ℝ) = 256 := by
    show (2 : ℝ) ^ 8 = 256
    norm_num
  intro raster downloaded hload
  cases hload
  rw [edge_longitudeEdges (by omega), edge_longitudeEdges (by omega),
    edge_latitudeEdges (by omega), edge_latitudeEdges (by omega), hcount]
  unfold edgeOffset tileXToLongitudeDeg plainSource
  rw [hcells]
  push_cast
  constructor
  · ring_nf
    norm_num
  · have hheight := box_height_equator
    have hnorth : (128 : ℝ) + (0 - 1 / 2) / 64 = 128 - 1 / 128 := by norm_num
    have hsouth : (128 : ℝ) + (1 - 1 / 2) / 64 = 128 + 1 / 128 := by
      norm_num
    rw [hnorth, hsouth]
    exact hheight

open CopernicusRasterSet in
/-- The last and the first tile of a row. -/
theorem seam_around_plain :
    ∃ elevations elevations' : List (Option ℝ),
      (sampleTile (plainLoad 0x42C80000) tileYToLatitudeDeg
        ⟨8, 255, 128⟩).1 = some elevations ∧
      (sampleTile (plainLoad 0x42C80000) tileYToLatitudeDeg
        ⟨8, 0, 128⟩).1 = some elevations' ∧
      ∃ elevation : Option ℝ,
        elevations[0 * terrainTileGridSize + 64]? = some elevation ∧
        elevations'[0 * terrainTileGridSize + 0]? = some elevation := by
  have hreadable := readableSources_plain 0x42C80000
  obtain ⟨elevations, h⟩ := @sampleTile_readable _ ℝ _ _ _
    tileYToLatitudeDeg ⟨8, 255, 128⟩ hreadable
  obtain ⟨elevations', h'⟩ := @sampleTile_readable _ ℝ _ _ _
    tileYToLatitudeDeg ⟨8, 0, 128⟩ hreadable
  have hplace : SamePlace 1 ⟨8, 255, 128⟩ 0 64 ⟨8, 0, 128⟩ 0 0 :=
    ⟨rfl, by decide, by decide, by decide, by decide, by decide, by decide⟩
  exact ⟨elevations, elevations', h, h',
    seam_around (averagedSources_plain 0x42C80000) hplace (by decide)
      (coversPixel_equator 255 (by decide)) (coversPixel_equator 0 (by decide))
      h h'⟩

end AowisMap.Terrain
