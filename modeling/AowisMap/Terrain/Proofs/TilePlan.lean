/-
The plan of a tile holds every cell that is read for it.

# Points

A sample of the tile lies between the tile's borders, so in a planned cell,
and where it reaches a neighbour the margins of the plan do too
(`reaches_planned`).

# Boxes

The cells the averages ask for go from border to border of the sample
boxes with half a pixel as their margin, which is less than the plan's
(`candidateCells_planned`).
-/
import Mathlib.Analysis.Complex.ExponentialBounds
import Mathlib.Analysis.Real.Pi.Bounds
import AowisMap.Terrain.Proofs.SourceDeletion
import AowisMap.Terrain.Proofs.SourcePlan

namespace AowisMap.Terrain

open Lib

-- =============================================================== inserts

/-- A set of addresses has what was inserted. -/
theorem mem_foldl_insertSourceAddress {cell : CopernicusSourceAddress} :
    ∀ {inserted addresses : List CopernicusSourceAddress},
      cell ∈ inserted.foldl insertSourceAddress addresses ↔
        cell ∈ addresses ∨ cell ∈ inserted := by
  intro inserted
  induction inserted with
  | nil => simp
  | cons first rest ih =>
      intro addresses
      rw [List.foldl_cons, ih, insertSourceAddress, List.mem_insert_iff,
        List.mem_cons]
      tauto

-- ================================================================= plans

section

variable {K : Type*} [Field K] [LinearOrder K] [FloorRing K]
  {latitude : K → K → K} {address : TerrainTileAddress}

/-- The box a tile is planned for: itself, or its sample boxes. -/
structure PlannedBox (latitude : K → K → K) (address : TerrainTileAddress)
    (west east south north : K) : Prop where
  west_le : west ≤ sampleLongitude address 0
  le_east : sampleLongitude address terrainTileCellCount ≤ east
  south_le : south ≤ sampleLatitude latitude address terrainTileCellCount
  le_north : sampleLatitude latitude address 0 ≤ north
  west_le_edge : normalizedTileUsesAreaAverage address = true →
    west ≤ edge (longitudeEdges address) 0
  edge_le_east : normalizedTileUsesAreaAverage address = true →
    edge (longitudeEdges address) terrainTileGridSize ≤ east
  south_le_edge : normalizedTileUsesAreaAverage address = true →
    south ≤ edge (latitudeEdges latitude address) terrainTileGridSize
  edge_le_north : normalizedTileUsesAreaAverage address = true →
    edge (latitudeEdges latitude address) 0 ≤ north

/-- A cell is planned if its row and its column, unwrapped, lie in the box
with its margins. -/
theorem mem_normalizedTileSourceAddresses
    {cell : CopernicusSourceAddress} :
    ∃ west east south north : K,
      PlannedBox latitude address west east south north ∧
      (cell ∈ normalizedTileSourceAddresses latitude address ↔
        (sourceSouthForLatitude
            (max (-90) (south - sourceNeighbourLatitudeMarginDeg))
              ≤ cell.southDeg ∧
          cell.southDeg ≤ sourceSouthForLatitude
            (min 90 (north + sourceNeighbourLatitudeMarginDeg))) ∧
        ∃ column, ⌊west - sourceNeighbourLongitudeMarginDeg⌋ ≤ column ∧
          column ≤ ⌊east + sourceNeighbourLongitudeMarginDeg⌋ ∧
          cell.westDeg = wrappedSourceWest column) := by
  have hbox : ∀ {west east south north : K},
      (cell ∈ ((Steps.values
          (sourceSouthForLatitude
            (max (-90) (south - sourceNeighbourLatitudeMarginDeg)))
          (sourceSouthForLatitude
            (min 90 (north + sourceNeighbourLatitudeMarginDeg)))
          1).flatMap fun southDeg =>
        (Steps.values ⌊west - sourceNeighbourLongitudeMarginDeg⌋
          ⌊east + sourceNeighbourLongitudeMarginDeg⌋ 1).map fun westDeg =>
            (⟨southDeg, wrappedSourceWest westDeg⟩ :
              CopernicusSourceAddress)).foldl insertSourceAddress [] ↔
        (sourceSouthForLatitude
            (max (-90) (south - sourceNeighbourLatitudeMarginDeg))
              ≤ cell.southDeg ∧
          cell.southDeg ≤ sourceSouthForLatitude
            (min 90 (north + sourceNeighbourLatitudeMarginDeg))) ∧
        ∃ column, ⌊west - sourceNeighbourLongitudeMarginDeg⌋ ≤ column ∧
          column ≤ ⌊east + sourceNeighbourLongitudeMarginDeg⌋ ∧
          cell.westDeg = wrappedSourceWest column) := by
    intro west east south north
    rw [mem_foldl_insertSourceAddress, List.mem_flatMap]
    constructor
    · rintro (hnone | ⟨row, hrow, hcell⟩)
      · cases hnone
      · obtain ⟨column, hcolumn, rfl⟩ := List.mem_map.1 hcell
        exact ⟨Steps.mem_values_one.1 hrow, column,
          (Steps.mem_values_one.1 hcolumn).1,
          (Steps.mem_values_one.1 hcolumn).2, rfl⟩
    · rintro ⟨hrow, column, hwest, heast, hcell⟩
      refine Or.inr ⟨cell.southDeg, Steps.mem_values_one.2 hrow,
        List.mem_map.2 ⟨column, Steps.mem_values_one.2 ⟨hwest, heast⟩, ?_⟩⟩
      rw [← hcell]
  by_cases harea : normalizedTileUsesAreaAverage address = true
  · refine ⟨_, _, _, _, ⟨min_le_left _ _, le_max_left _ _, min_le_left _ _,
      le_max_left _ _, fun _ => min_le_right _ _, fun _ => le_max_right _ _,
      fun _ => min_le_right _ _, fun _ => le_max_right _ _⟩, ?_⟩
    unfold normalizedTileSourceAddresses
    simp only [harea, if_true]
    exact hbox
  · refine ⟨_, _, _, _, ⟨le_refl _, le_refl _, le_refl _, le_refl _,
      fun h => absurd h harea, fun h => absurd h harea,
      fun h => absurd h harea, fun h => absurd h harea⟩, ?_⟩
    unfold normalizedTileSourceAddresses
    simp only [harea]
    exact hbox

variable [IsStrictOrderedRing K]

/-- Columns of the ring are not wrapped. -/
theorem wrappedSourceWest_of_ring {westDeg : Int} (hlow : -180 ≤ westDeg)
    (hhigh : westDeg ≤ 179) : wrappedSourceWest westDeg = westDeg := by
  have hinner : (westDeg + 180).tmod 360 = westDeg + 180 := by
    rw [Int.tmod_eq_emod_of_nonneg (by omega)]
    omega
  unfold wrappedSourceWest
  rw [hinner, Int.tmod_eq_emod_of_nonneg (by omega)]
  omega

/-- The cells that a point of a tile reaches are planned. -/
theorem reaches_planned {base cell : CopernicusSourceAddress}
    {latitudeDeg longitudeDeg : K}
    (hsouth : sampleLatitude latitude address terrainTileCellCount
      ≤ latitudeDeg)
    (hnorth : latitudeDeg ≤ sampleLatitude latitude address 0)
    (hwest : sampleLongitude address 0 ≤ longitudeDeg)
    (heast : longitudeDeg ≤ sampleLongitude address terrainTileCellCount)
    (hcell : OnCell base latitudeDeg longitudeDeg)
    (hreach : Reaches base latitudeDeg longitudeDeg cell) :
    cell ∈ normalizedTileSourceAddresses latitude address := by
  obtain ⟨west, east, south, north, hbox, hmem⟩ :=
    @mem_normalizedTileSourceAddresses K _ _ _ latitude address cell
  have hlatitudeMargin : (0 : K) ≤ sourceNeighbourLatitudeMarginDeg - 1 / 3600
      ∧ (1 : K) / 10 ^ 12 < 1 / 3600 := by
    unfold sourceNeighbourLatitudeMarginDeg
    constructor
    · linarith
    · norm_num
  have hlongitudeMargin : (0 : K) < sourceNeighbourLongitudeMarginDeg := by
    unfold sourceNeighbourLongitudeMarginDeg
    positivity
  have hsouthLt := hcell.south_lt
  have hsouthGe := hcell.southDeg_ge
  have hsouthLast := hcell.southDeg_lt
  have hboxSouth := hbox.south_le
  have hboxNorth := hbox.le_north
  have hboxWest := hbox.west_le
  have hboxEast := hbox.le_east
  have hrowLow : -90 ≤ cell.southDeg := by
    rcases hreach.row with h | h
    · omega
    · omega
  have hrowHigh : cell.southDeg ≤ base.southDeg := by
    rcases hreach.row with h | h
    · omega
    · omega
  have hcolumnLow : base.westDeg ≤ cell.westDeg := by
    rcases hreach.column with h | h
    · omega
    · omega
  have hcolumnHigh : cell.westDeg ≤ 179 := by
    have hlast := hcell.westDeg_le
    rcases hreach.column with h | h
    · omega
    · omega
  rw [hmem]
  refine ⟨⟨?_, ?_⟩, cell.westDeg, ?_, ?_,
    (wrappedSourceWest_of_ring (hcell.westDeg_ge.trans hcolumnLow)
      hcolumnHigh).symm⟩
  · apply sourceSouthForLatitude_le _ hrowLow
    have hpole : (-90 : K) ≤ cell.southDeg := by exact_mod_cast hrowLow
    apply max_le
    · linarith
    · have hleNorth := hcell.le_north
      rcases hreach.row with hsame | ⟨hbelow, hclose⟩
      · rw [hsame]
        linarith
      · rw [hbelow]
        push_cast
        linarith
  · apply le_sourceSouthForLatitude _ (by omega)
    have hle : (cell.southDeg : K) ≤ base.southDeg := by
      exact_mod_cast hrowHigh
    have hlast : (base.southDeg : K) ≤ 88 := by
      have hlast : base.southDeg ≤ 88 := by omega
      exact_mod_cast hlast
    apply lt_min
    · linarith
    · linarith
  · have hfloor : ⌊west - sourceNeighbourLongitudeMarginDeg⌋
        < cell.westDeg + 1 := by
      have hle : (base.westDeg : K) ≤ cell.westDeg := by
        exact_mod_cast hcolumnLow
      have hleEast := hcell.le_east
      apply Int.floor_lt.2
      push_cast
      linarith
    exact Int.lt_add_one_iff.1 hfloor
  · apply Int.le_floor.2
    have hwestLe := hcell.west_le
    rcases hreach.column with hsame | ⟨hnext, -, hclose⟩
    · rw [hsame]
      linarith
    · rw [hnext]
      push_cast
      linarith

-- ================================================================= boxes

omit [LinearOrder K] [FloorRing K] [IsStrictOrderedRing K] in
theorem length_longitudeEdges :
    (longitudeEdges address : List K).length = terrainTileGridSize + 1 := by
  rw [longitudeEdges, List.length_map, List.length_range]

omit [LinearOrder K] [FloorRing K] [IsStrictOrderedRing K] in
theorem length_latitudeEdges :
    (latitudeEdges latitude address).length = terrainTileGridSize + 1 := by
  rw [latitudeEdges, List.length_map, List.length_range]

open CopernicusRasterSet in
/-- The cells the averages of a tile ask for are planned. -/
theorem candidateCells_planned
    (harea : normalizedTileUsesAreaAverage address = true)
    {cell : Int × Int}
    (hcell : cell ∈ candidateCells (longitudeEdges address : List K)
      (latitudeEdges latitude address)) :
    (⟨cell.1, wrappedSourceWest cell.2⟩ : CopernicusSourceAddress)
      ∈ normalizedTileSourceAddresses latitude address := by
  obtain ⟨west, east, south, north, hbox, hmem⟩ :=
    @mem_normalizedTileSourceAddresses K _ _ _ latitude address
      ⟨cell.1, wrappedSourceWest cell.2⟩
  have hwest := hbox.west_le_edge harea
  have heast := hbox.edge_le_east harea
  have hsouth := hbox.south_le_edge harea
  have hnorth := hbox.edge_le_north harea
  have hlatitudeMargin : (sourceNeighbourLatitudeMarginDeg : K)
      = 2 * maximumSourceHalfPixelLatitudeDeg ∧
      (0 : K) < maximumSourceHalfPixelLatitudeDeg ∧
      (1 : K) / 10 ^ 12 < maximumSourceHalfPixelLatitudeDeg := by
    unfold sourceNeighbourLatitudeMarginDeg maximumSourceHalfPixelLatitudeDeg
    refine ⟨by ring, by positivity, ?_⟩
    norm_num
  have hlongitudeMargin : (maximumSourceHalfPixelLongitudeDeg : K)
      < sourceNeighbourLongitudeMarginDeg := by
    unfold sourceNeighbourLongitudeMarginDeg
      maximumSourceHalfPixelLongitudeDeg
    norm_num
  have hpositive : (0 : K) < sourceNeighbourLongitudeMarginDeg := by
    unfold sourceNeighbourLongitudeMarginDeg
    positivity
  unfold candidateCells at hcell
  rw [length_longitudeEdges, length_latitudeEdges, Nat.add_sub_cancel]
    at hcell
  obtain ⟨row, hrow, hcolumns⟩ := List.mem_flatMap.1 hcell
  obtain ⟨column, hcolumn, rfl⟩ := List.mem_map.1 hcolumns
  obtain ⟨hfirstRow, hlastRow⟩ := Steps.mem_values_one.1 hrow
  obtain ⟨hfirstColumn, hlastColumn⟩ := Steps.mem_values_one.1 hcolumn
  have hpole : -90 ≤ row := (le_max_left _ _).trans hfirstRow
  have hlast : row ≤ 89 := hlastRow.trans (min_le_left _ _)
  rw [hmem]
  refine ⟨⟨?_, ?_⟩, column, ?_, ?_, rfl⟩
  · apply sourceSouthForLatitude_le _ hpole
    have hfloor := (le_max_right _ _).trans hfirstRow
    have hless := Int.lt_add_one_iff.2 hfloor
    rw [Int.floor_lt] at hless
    push_cast at hless
    have hpole : (-90 : K) ≤ row := by exact_mod_cast hpole
    apply max_le
    · show _ ≤ ((row : Int) : K) + 1 + 1 / 10 ^ 12
      linarith
    · show _ ≤ ((row : Int) : K) + 1 + 1 / 10 ^ 12
      linarith
  · apply le_sourceSouthForLatitude _ hlast
    have hceil := hlastRow.trans (min_le_right _ _)
    have hless := Int.lt_ceil.1 (Int.lt_iff_add_one_le.2
      (Int.le_sub_one_iff.1 hceil))
    have hlast : (row : K) ≤ 89 := by exact_mod_cast hlast
    apply lt_min
    · show ((row : Int) : K) + 1 / 10 ^ 12 < 90
      linarith
    · show ((row : Int) : K) + 1 / 10 ^ 12 < _
      linarith
  · exact (Int.floor_le_floor (by linarith)).trans hfirstColumn
  · exact hlastColumn.trans (Int.floor_le_floor (by linarith))

-- =============================================================== samples

omit [FloorRing K] in
/-- A tile's columns are columns of its zoom. -/
theorem tileCountOf_spec
    (hvalid : isValidTerrainTileAddress address = true) :
    (0 : K) < tileCountOf address ∧
      (address.x : K) + 1 ≤ tileCountOf address ∧
      (address.y : K) + 1 ≤ tileCountOf address := by
  unfold isValidTerrainTileAddress at hvalid
  simp only [Bool.and_eq_true, decide_eq_true_eq] at hvalid
  have hx : address.x + 1 ≤ 2 ^ address.zoom.toNat := hvalid.1.2
  have hy : address.y + 1 ≤ 2 ^ address.zoom.toNat := hvalid.2
  unfold tileCountOf
  refine ⟨by positivity, ?_, ?_⟩
  · exact_mod_cast hx
  · exact_mod_cast hy

/-- The latitudes of the rows of the map, which ends far from the poles. -/
structure MapLatitudes (latitude : K → K → K) : Prop
    extends RowLatitudes latitude where
  temperate : ∀ {y count : K}, 0 < count → 0 ≤ y → y ≤ count →
    -88 ≤ latitude y count ∧ latitude y count ≤ 88

omit [FloorRing K] in
/-- The samples of a tile are parts of it. -/
theorem sampleOffset_bounds {index : Nat}
    (hindex : index ≤ terrainTileCellCount) :
    0 ≤ (index : K) / terrainTileCellCount ∧
      (index : K) / terrainTileCellCount ≤ 1 := by
  have hcount : (0 : K) < terrainTileCellCount := by
    have hpos : 0 < terrainTileCellCount := by decide
    exact_mod_cast hpos
  have hle : (index : K) ≤ terrainTileCellCount := by exact_mod_cast hindex
  exact ⟨div_nonneg (Nat.cast_nonneg index) hcount.le,
    (div_le_one hcount).2 hle⟩

omit [LinearOrder K] [FloorRing K] [IsStrictOrderedRing K] in
theorem sampleOffset_first : ((0 : Nat) : K) / terrainTileCellCount = 0 := by
  rw [Nat.cast_zero, zero_div]

omit [FloorRing K] in
theorem sampleOffset_last :
    (terrainTileCellCount : K) / terrainTileCellCount = 1 := by
  have hcount : terrainTileCellCount ≠ 0 := by decide
  exact div_self (Nat.cast_ne_zero.2 hcount)

omit [FloorRing K] in
/-- The longitudes of a tile's samples. -/
theorem sampleLongitude_bounds
    (hvalid : isValidTerrainTileAddress address = true) {column : Nat}
    (hcolumn : column ≤ terrainTileCellCount) :
    (sampleLongitude address 0 : K) ≤ sampleLongitude address column ∧
      sampleLongitude address column
        ≤ (sampleLongitude address terrainTileCellCount : K) ∧
      (-180 : K) ≤ sampleLongitude address column ∧
      sampleLongitude address column ≤ (180 : K) := by
  obtain ⟨hpos, hx, -⟩ := @tileCountOf_spec K _ _ address _ hvalid
  obtain ⟨hlow, hhigh⟩ := @sampleOffset_bounds K _ _ _ column hcolumn
  have hxNonneg : (0 : K) ≤ address.x := Nat.cast_nonneg _
  unfold sampleLongitude tileXToLongitudeDeg
  rw [sampleOffset_first, sampleOffset_last, add_zero]
  generalize (column : K) / terrainTileCellCount = offset at hlow hhigh ⊢
  generalize (tileCountOf address : K) = count at hpos hx ⊢
  have hratio {a b : K} (hle : a ≤ b) : a / count ≤ b / count :=
    div_le_div_of_nonneg_right hle hpos.le
  have hfirst := hratio (show (address.x : K) ≤ address.x + offset by linarith)
  have hlast := hratio
    (show (address.x : K) + offset ≤ address.x + 1 by linarith)
  have hwest := hratio (show (0 : K) ≤ address.x + offset by linarith)
  have heast := hratio (show (address.x : K) + offset ≤ count by linarith)
  rw [zero_div] at hwest
  rw [div_self hpos.ne'] at heast
  refine ⟨?_, ?_, ?_, ?_⟩
  · linarith
  · linarith
  · linarith
  · linarith

omit [FloorRing K] in
/-- The latitudes of a tile's samples. -/
theorem sampleLatitude_bounds (hlatitude : MapLatitudes latitude)
    (hvalid : isValidTerrainTileAddress address = true) {row : Nat}
    (hrow : row ≤ terrainTileCellCount) :
    sampleLatitude latitude address terrainTileCellCount
        ≤ sampleLatitude latitude address row ∧
      sampleLatitude latitude address row
        ≤ sampleLatitude latitude address 0 ∧
      -88 ≤ sampleLatitude latitude address row ∧
      sampleLatitude latitude address row ≤ 88 := by
  obtain ⟨hpos, -, hy⟩ := @tileCountOf_spec K _ _ address _ hvalid
  obtain ⟨hlow, hhigh⟩ := @sampleOffset_bounds K _ _ _ row hrow
  have hyNonneg : (0 : K) ≤ address.y := Nat.cast_nonneg _
  have hfalls {a b : K} (hle : a ≤ b) :
      latitude b (tileCountOf address) ≤ latitude a (tileCountOf address) := by
    rcases lt_or_eq_of_le hle with hlt | rfl
    · exact (hlatitude.decreasing hpos hlt).le
    · exact le_refl _
  unfold sampleLatitude
  rw [sampleOffset_first, sampleOffset_last, add_zero]
  refine ⟨hfalls (by linarith), hfalls (by linarith),
    hlatitude.temperate hpos (by linarith) (by linarith)⟩

-- =============================================================== reading

namespace CopernicusRasterSet

variable {load : CopernicusSourceAddress → SourceLoad}
  {rasters : CopernicusRasterSet} {planned : List CopernicusSourceAddress}

omit [IsStrictOrderedRing K] in
theorem accumulateCell_asked (longitudeEdges latitudeEdges : List K)
    (cellSouth unwrappedWest : Int) (area : AreaSums K) :
    (accumulateCell load longitudeEdges latitudeEdges cellSouth unwrappedWest
      area rasters).2.2.asked
      = ⟨cellSouth, wrappedSourceWest unwrappedWest⟩ :: rasters.asked := by
  have hasked : (rasters.raster load
      ⟨cellSouth, wrappedSourceWest unwrappedWest⟩).2.asked
      = ⟨cellSouth, wrappedSourceWest unwrappedWest⟩ :: rasters.asked :=
    raster_asked
  unfold accumulateCell
  generalize rasters.raster load
    ⟨cellSouth, wrappedSourceWest unwrappedWest⟩ = result at hasked ⊢
  obtain ⟨source, rasters'⟩ := result
  dsimp only at hasked ⊢
  split
  · exact hasked
  · cases source with
    | none => exact hasked
    | some raster =>
        dsimp only
        split
        · exact hasked
        · split
          · exact hasked
          · exact hasked

omit [IsStrictOrderedRing K] in
/-- The averages ask for the cells they go through, if they get that far.
-/
theorem accumulateCells_subset {longitudeEdges latitudeEdges : List K} :
    ∀ {cells : List (Int × Int)} {area : AreaSums K}
      {rasters : CopernicusRasterSet},
      (∀ cell ∈ cells, (⟨cell.1, wrappedSourceWest cell.2⟩ :
        CopernicusSourceAddress) ∈ planned) →
      rasters.asked ⊆ planned →
      (accumulateCells load longitudeEdges latitudeEdges cells area
        rasters).2.2.asked ⊆ planned := by
  intro cells
  induction cells with
  | nil => exact fun _ hasked => hasked
  | cons cell rest ih =>
      intro area rasters hcells hasked
      obtain ⟨cellSouth, unwrappedWest⟩ := cell
      have hcell := @accumulateCell_asked K _ _ _ load rasters longitudeEdges
        latitudeEdges cellSouth unwrappedWest area
      unfold accumulateCells
      generalize accumulateCell load longitudeEdges latitudeEdges cellSouth
        unwrappedWest area rasters = result at hcell ⊢
      obtain ⟨succeeded, area', rasters'⟩ := result
      dsimp only at hcell
      have hasked' : rasters'.asked ⊆ planned := by
        rw [hcell]
        exact List.cons_subset.2 ⟨hcells _ List.mem_cons_self, hasked⟩
      cases succeeded with
      | true =>
          exact ih (fun cell hmem => hcells cell (List.mem_cons_of_mem _ hmem))
            hasked'
      | false => exact hasked'

/-- A sample of a tile asks for planned cells. -/
theorem sampleElevation_subset (hsizes : PlannedSizes load)
    (hlatitude : MapLatitudes latitude)
    (hvalid : isValidTerrainTileAddress address = true)
    {area : Option (AreaSums K)} {row column : Nat}
    (hrow : row ≤ terrainTileCellCount)
    (hcolumn : column ≤ terrainTileCellCount)
    (hasked : rasters.asked ⊆ normalizedTileSourceAddresses latitude address) :
    (rasters.sampleElevation load latitude address area row column).2.asked
      ⊆ normalizedTileSourceAddresses latitude address := by
  obtain ⟨hwest, heast, hring, hring'⟩ :=
    @sampleLongitude_bounds K _ _ address _ hvalid column hcolumn
  obtain ⟨hsouth, hnorth, hlow, hhigh⟩ :=
    sampleLatitude_bounds hlatitude hvalid hrow
  have hcell := onCell hlow hhigh hring hring'
  have hplanned : ∀ cell, Reaches (sourceAddressForCoordinate
        (sampleLatitude latitude address row) (sampleLongitude address column))
      (sampleLatitude latitude address row) (sampleLongitude address column)
      cell → cell ∈ normalizedTileSourceAddresses latitude address :=
    fun cell hreach =>
      reaches_planned hsouth hnorth hwest heast hcell hreach
  unfold sampleElevation
  cases area with
  | none => exact sample_subset load hsizes hcell hplanned hasked
  | some area =>
      have hsize := pixelSizeAt_subset load (hplanned _ reaches_self) hasked
      dsimp only
      generalize rasters.pixelSizeAt load
        (sampleLatitude latitude address row)
        (sampleLongitude address column) = result at hsize ⊢
      obtain ⟨pixelSize, rasters'⟩ := result
      dsimp only at hsize ⊢
      have hbox : ∀ (covers : Bool) (weighted : Prop) [Decidable weighted]
          (average : K), (if (covers && decide weighted) = true then
            (some average, rasters')
          else if covers = false then
            rasters'.sample load (sampleLatitude latitude address row)
              (sampleLongitude address column)
          else (none, rasters')).2.asked
          ⊆ normalizedTileSourceAddresses latitude address := by
        intro covers weighted _ average
        split
        · exact hsize
        · split
          · exact sample_subset load hsizes hcell hplanned hsize
          · exact hsize
      cases pixelSize with
      | none => exact hbox true _ _
      | some pixelSize => exact hbox _ _ _

/-- The samples of a tile ask for planned cells. -/
theorem sampleElevations_subset (hsizes : PlannedSizes load)
    (hlatitude : MapLatitudes latitude)
    (hvalid : isValidTerrainTileAddress address = true)
    {area : Option (AreaSums K)} :
    ∀ {samples : List (Nat × Nat)} {rasters : CopernicusRasterSet},
      (∀ sample ∈ samples, sample.1 ≤ terrainTileCellCount ∧
        sample.2 ≤ terrainTileCellCount) →
      rasters.asked ⊆ normalizedTileSourceAddresses latitude address →
      (sampleElevations load latitude address area rasters
        samples).2.asked ⊆ normalizedTileSourceAddresses latitude address := by
  intro samples
  induction samples with
  | nil => exact fun _ hasked => hasked
  | cons sample rest ih =>
      intro rasters hsamples hasked
      obtain ⟨row, column⟩ := sample
      obtain ⟨hrow, hcolumn⟩ := hsamples _ List.mem_cons_self
      have hsample : (rasters.sampleElevation load latitude address area row
          column).2.asked ⊆ normalizedTileSourceAddresses latitude address :=
        sampleElevation_subset hsizes hlatitude hvalid hrow hcolumn hasked
      unfold sampleElevations
      generalize rasters.sampleElevation load latitude address area row column
        = result at hsample ⊢
      obtain ⟨elevation, rasters'⟩ := result
      dsimp only at hsample ⊢
      split
      · exact hsample
      · exact ih (fun sample hmem =>
          hsamples sample (List.mem_cons_of_mem _ hmem)) hsample

theorem gridSamples_le {sample : Nat × Nat} (h : sample ∈ gridSamples) :
    sample.1 ≤ terrainTileCellCount ∧ sample.2 ≤ terrainTileCellCount := by
  unfold gridSamples at h
  obtain ⟨row, hrow, hcolumns⟩ := List.mem_flatMap.1 h
  obtain ⟨column, hcolumn, rfl⟩ := List.mem_map.1 hcolumns
  rw [List.mem_range] at hrow hcolumn
  exact ⟨Nat.le_sub_one_of_lt hrow, Nat.le_sub_one_of_lt hcolumn⟩

/-- Whatever is read for a tile was planned. -/
theorem sampleTile_subset (hsizes : PlannedSizes load)
    (hlatitude : MapLatitudes latitude)
    (hvalid : isValidTerrainTileAddress address = true) :
    (sampleTile load latitude address).2.asked
      ⊆ normalizedTileSourceAddresses latitude address := by
  have hsampled : ∀ (area : Option (AreaSums K)) (rasters : CopernicusRasterSet),
      rasters.asked ⊆ normalizedTileSourceAddresses latitude address →
      (sampleElevations load latitude address area rasters
        gridSamples).2.asked
        ⊆ normalizedTileSourceAddresses latitude address :=
    fun area rasters hasked => sampleElevations_subset hsizes hlatitude hvalid
      (fun sample hmem => gridSamples_le hmem) hasked
  have hnone : ({} : CopernicusRasterSet).asked
      ⊆ normalizedTileSourceAddresses latitude address :=
    List.nil_subset _
  unfold sampleTile
  dsimp only
  split
  · rename_i harea
    have hcells : (accumulateAreaAverages load (longitudeEdges address)
        (latitudeEdges latitude address) {}).2.2.asked
        ⊆ normalizedTileSourceAddresses latitude address :=
      accumulateCells_subset
        (fun cell hcell => candidateCells_planned harea hcell) hnone
    generalize accumulateAreaAverages load (longitudeEdges address)
      (latitudeEdges latitude address) {} = result at hcells ⊢
    obtain ⟨succeeded, area, rasters'⟩ := result
    cases succeeded with
    | false => exact hcells
    | true =>
        dsimp only at hcells ⊢
        have hsamples := hsampled (some area) rasters' hcells
        split
        · exact hsamples
        · exact hsamples
  · have hsamples := hsampled none {} hnone
    split
    · exact hsamples
    · exact hsamples

end CopernicusRasterSet

end

-- ======================================================== the real rows

/-- The map ends where the hyperbolic sine of its row is below 28. -/
theorem sinh_le_of_le_pi {x : ℝ} (hx : x ≤ Real.pi) : Real.sinh x ≤ 28 := by
  have hpi := Real.pi_le_four
  have hexp : Real.exp x ≤ Real.exp 1 ^ 4 := by
    rw [← Real.exp_nat_mul]
    apply Real.exp_le_exp.2
    push_cast
    linarith
  have hone : Real.exp 1 ^ 4 ≤ 55 :=
    calc Real.exp 1 ^ 4 ≤ 2.72 ^ 4 :=
          pow_le_pow_left₀ (Real.exp_pos 1).le
            (Real.exp_one_lt_d9.le.trans (by norm_num)) 4
      _ ≤ 55 := by norm_num
  have hneg := Real.exp_pos (-x)
  rw [Real.sinh_eq]
  linarith

/-- The tangent of 88 degrees is above 28. -/
theorem le_tan_of_complement :
    (28 : ℝ) ≤ Real.tan (Real.pi / 2 - Real.pi / 90) := by
  have hpos : 0 < Real.pi / 90 := div_pos Real.pi_pos (by norm_num)
  have hsmall : Real.pi / 90 ≤ 0.035 := by
    have hpi := Real.pi_lt_d2
    rw [div_le_iff₀ (by norm_num)]
    linarith
  have hsin := (Real.sin_lt hpos).le
  have hcos := Real.one_sub_sq_div_two_le_cos (x := Real.pi / 90)
  have hsquare : (Real.pi / 90) ^ 2 ≤ 0.035 ^ 2 :=
    pow_le_pow_left₀ hpos.le hsmall 2
  have hsinPos : 0 < Real.sin (Real.pi / 90) :=
    Real.sin_pos_of_pos_of_lt_pi hpos (by linarith [Real.pi_gt_three])
  rw [Real.tan_pi_div_two_sub, Real.tan_eq_sin_div_cos, inv_div,
    le_div_iff₀ hsinPos]
  norm_num at hsquare
  linarith

/-- The latitudes of rows on the map. -/
theorem mapLatitudes_tileYToLatitudeDeg :
    MapLatitudes tileYToLatitudeDeg where
  toRowLatitudes := rowLatitudes_tileYToLatitudeDeg
  temperate := by
    intro y count hcount hlow hhigh
    have hratio : 0 ≤ 2 * y / count := by positivity
    have hratio' : 2 * y / count ≤ 2 := by
      rw [div_le_iff₀ hcount]
      linarith
    have hpi := Real.pi_pos
    have harc : ∀ {x : ℝ}, x ≤ Real.pi →
        Real.arctan (Real.sinh x) ≤ Real.pi / 2 - Real.pi / 90 := by
      intro x hx
      calc Real.arctan (Real.sinh x)
          ≤ Real.arctan (Real.tan (Real.pi / 2 - Real.pi / 90)) :=
            Real.arctan_strictMono.monotone
              ((sinh_le_of_le_pi hx).trans le_tan_of_complement)
        _ = Real.pi / 2 - Real.pi / 90 :=
            Real.arctan_tan (by linarith) (by linarith)
    have hnorth := harc (show Real.pi * (1 - 2 * y / count) ≤ Real.pi by
      nlinarith)
    have hsouth := harc (show -(Real.pi * (1 - 2 * y / count)) ≤ Real.pi by
      nlinarith)
    rw [Real.sinh_neg, Real.arctan_neg] at hsouth
    unfold tileYToLatitudeDeg
    constructor
    · rw [le_div_iff₀ hpi]
      linarith
    · rw [div_le_iff₀ hpi]
      linarith

end AowisMap.Terrain
