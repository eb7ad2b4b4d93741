/-
What a deletion of source cells leaves of the cells a tile is made from.

# Beside a tile

A deletion goes by area: it visits the cells that share an interior point
with a tile of its range. A tile is sampled up to its borders, with half a
sample around them where it is averaged, and a cell is read with its
eastern and southern neighbours. So a cell may be read for a tile without
having a part in it; it then lies beside the tile, no farther than half a
sample and the margins of the plan (`Beside`).
-/
import AowisMap.Terrain.Proofs.Seams
import AowisMap.Terrain.Proofs.SourceStages

namespace AowisMap.Terrain

open Lib

-- ============================================================= the tiles

/-- The tile is one of a range, its column up to whole turns. -/
structure TerrainRange.HasTile (range : TerrainRange)
    (address : TerrainTileAddress) : Prop where
  zoom : address.zoom = range.zoom
  rows : range.yMin ≤ address.y ∧ (address.y : Int) ≤ range.yMax
  column : ∃ turns : Int,
    range.xMin ≤ address.x + turns * tileCount range.zoom ∧
      address.x + turns * tileCount range.zoom ≤ range.xMax

section

variable {K : Type*} [Field K] [LinearOrder K]

/-- The cell shares an interior point with the tile. -/
structure MeetsTile (latitude : K → K → K) (address : TerrainTileAddress)
    (cell : CopernicusSourceAddress) : Prop where
  ring : -180 ≤ cell.westDeg ∧ cell.westDeg ≤ 179
  column : UnitCells.RingMeets 360 (sampleLongitude address 0 : K)
    (sampleLongitude address terrainTileCellCount) cell.westDeg
  row : UnitCells.Meets (sampleLatitude latitude address terrainTileCellCount)
    (sampleLatitude latitude address 0) cell.southDeg

/-- The cell has no part in the tile, but lies within half a sample and the
margins of the plan from it. -/
structure Beside (latitude : K → K → K) (address : TerrainTileAddress)
    (cell : CopernicusSourceAddress) : Prop where
  apart : ¬ MeetsTile latitude address cell
  column : ∃ column : Int, cell.westDeg = wrappedSourceWest column ∧
    (tileXToLongitudeDeg (address.x + edgeOffset 0) (tileCountOf address) : K)
      - sourceNeighbourLongitudeMarginDeg ≤ column + 1 ∧
    (column : K) ≤ (tileXToLongitudeDeg
        (address.x + edgeOffset terrainTileGridSize) (tileCountOf address) : K)
      + sourceNeighbourLongitudeMarginDeg
  south : latitude (address.y + edgeOffset terrainTileGridSize)
      (tileCountOf address) - sourceNeighbourLatitudeMarginDeg - 1 / 10 ^ 12
    ≤ (cell.southDeg : K) + 1
  north : (cell.southDeg : K)
    ≤ latitude (address.y + edgeOffset 0) (tileCountOf address)
      + sourceNeighbourLatitudeMarginDeg

variable [FloorRing K] [IsStrictOrderedRing K] {latitude : K → K → K}
  {address : TerrainTileAddress} {range : TerrainRange}

omit [FloorRing K] [LinearOrder K] [IsStrictOrderedRing K] in
/-- The two counts of the tiles of a zoom. -/
theorem tileCountOf_eq (h : address.zoom = range.zoom) :
    (tileCountOf address : K) = (tileCount range.zoom : K) := by
  unfold tileCountOf tileCount
  rw [h]
  push_cast
  rfl

/-- A cell that has a part in a tile has one in each range with the tile. -/
theorem MeetsTile.meetsCell {cell : CopernicusSourceAddress}
    (h : MeetsTile latitude address cell) (hlatitude : RowLatitudes latitude)
    (hvalid : isValidTerrainTileAddress address = true)
    (htile : range.HasTile address) : range.MeetsCell latitude cell := by
  obtain ⟨turns, hfirst, hlast⟩ := htile.column
  have hcount := tileCountOf_eq (K := K) htile.zoom
  have hpos : (0 : K) < tileCount range.zoom := tileCount_cast_pos _
  have hne := hpos.ne'
  refine ⟨h.ring, ?_, ?_⟩
  · have hmoved := (UnitCells.ringMeets_add turns).2 h.column
    refine hmoved.mono ?_ ?_
    · have hcast : (range.xMin : K)
          ≤ address.x + turns * tileCount range.zoom := by
        exact_mod_cast hfirst
      have hratio := div_le_div_of_nonneg_right hcast hpos.le
      rw [add_div, mul_div_assoc, div_self hne, mul_one] at hratio
      unfold TerrainRange.westEdge sampleLongitude tileXToLongitudeDeg
      rw [sampleOffset_first, add_zero, hcount]
      push_cast
      linarith
    · have hcast : (address.x : K) + turns * tileCount range.zoom + 1
          ≤ ((range.xMax + 1 : Int) : K) := by
        push_cast
        have hcast : (address.x : K) + turns * tileCount range.zoom
            ≤ range.xMax := by
          exact_mod_cast hlast
        linarith
      have hratio := div_le_div_of_nonneg_right hcast hpos.le
      rw [add_right_comm, add_div _ (_ * _), mul_div_assoc, div_self hne,
        mul_one] at hratio
      unfold TerrainRange.eastEdge sampleLongitude tileXToLongitudeDeg
      rw [sampleOffset_last, hcount]
      push_cast at hratio ⊢
      linarith
  · have hfalls {a b : Int} (hle : a ≤ b) :
        latitude (b : K) (tileCount range.zoom)
          ≤ latitude (a : K) (tileCount range.zoom) := by
      rcases lt_or_eq_of_le hle with hlt | rfl
      · exact (hlatitude.decreasing hpos (by exact_mod_cast hlt)).le
      · exact le_refl _
    have hrow : (address.y : Int) + 1 ≤ tileCount range.zoom := by
      have hy := (tileCountOf_spec (K := K) hvalid).2.2
      rw [hcount] at hy
      exact_mod_cast hy
    refine h.row.mono ?_ ?_
    · have hle := hfalls (a := (address.y : Int) + 1)
        (b := min (tileCount range.zoom - 1) range.yMax + 1) ?_
      · unfold sampleLatitude
        rw [sampleOffset_last, hcount]
        push_cast at hle ⊢
        exact hle
      · have hrows := htile.rows.2
        omega
    · have hle := hfalls (a := max 0 range.yMin) (b := (address.y : Int)) (by
        have hrows := htile.rows.1
        omega)
      unfold sampleLatitude
      rw [sampleOffset_first, add_zero, hcount]
      push_cast at hle ⊢
      exact hle

omit [FloorRing K] in
/-- The first and the last edge of the boxes, half a sample off the tile. -/
theorem edgeOffset_outer :
    (edgeOffset 0 : K) ≤ 0 ∧ 1 ≤ (edgeOffset terrainTileGridSize : K) := by
  have hpos : (0 : K) < terrainTileCellCount := by
    have hpos : 0 < terrainTileCellCount := by decide
    exact_mod_cast hpos
  unfold edgeOffset
  constructor
  · rw [div_le_iff₀ hpos]
    norm_num
  · rw [le_div_iff₀ hpos]
    have hsize : (terrainTileGridSize : K) = terrainTileCellCount + 1 := by
      have hsize : terrainTileGridSize = terrainTileCellCount + 1 := by decide
      exact_mod_cast hsize
    rw [hsize]
    linarith

/-- Cells between the ends of the plan's loops, for a box that is not
larger than another one. -/
theorem loop_bounds {west east south north west' east' south' north' : K}
    {southDeg column : Int} (hwest : west' ≤ west) (heast : east ≤ east')
    (hsouth : south' ≤ south) (hnorth : north ≤ north')
    (hbelow : south ≤ 88) (habove : -88 ≤ north)
    (hrows : sourceSouthForLatitude
        (max (-90) (south - sourceNeighbourLatitudeMarginDeg)) ≤ southDeg ∧
      southDeg ≤ sourceSouthForLatitude
        (min 90 (north + sourceNeighbourLatitudeMarginDeg)))
    (hcolumns : ⌊west - sourceNeighbourLongitudeMarginDeg⌋ ≤ column ∧
      column ≤ ⌊east + sourceNeighbourLongitudeMarginDeg⌋) :
    (west' - sourceNeighbourLongitudeMarginDeg ≤ (column : K) + 1 ∧
      (column : K) ≤ east' + sourceNeighbourLongitudeMarginDeg) ∧
    south' - sourceNeighbourLatitudeMarginDeg - 1 / 10 ^ 12
        ≤ (southDeg : K) + 1 ∧
      (southDeg : K) ≤ north' + sourceNeighbourLatitudeMarginDeg := by
  have hmargin : (0 : K) < sourceNeighbourLatitudeMarginDeg := by
    unfold sourceNeighbourLatitudeMarginDeg
    positivity
  refine ⟨⟨?_, ?_⟩, ?_, ?_⟩
  · have hfloor := Int.lt_floor_add_one
      (west - sourceNeighbourLongitudeMarginDeg)
    have hcast := (Int.cast_le (R := K)).2 hcolumns.1
    linarith
  · have hfloor := Int.le_floor.1 hcolumns.2
    linarith
  · have hcast := (Int.cast_le (R := K)).2 hrows.1
    have hlow := le_max_right (-90 : K)
      (south - sourceNeighbourLatitudeMarginDeg)
    rcases le_or_gt (max (-90 : K) (south - sourceNeighbourLatitudeMarginDeg))
      (-90) with hpole | hpole
    · have hrow : sourceSouthForLatitude
          (max (-90) (south - sourceNeighbourLatitudeMarginDeg)) = -90 := by
        unfold sourceSouthForLatitude
        rw [if_pos hpole]
      rw [hrow] at hcast
      push_cast at hcast
      linarith
    · have hspec := (sourceSouthForLatitude_spec hpole
        (max_lt (by norm_num) (by linarith))).2
      linarith
  · have hcast := (Int.cast_le (R := K)).2 hrows.2
    have hhigh := min_le_right (90 : K)
      (north + sourceNeighbourLatitudeMarginDeg)
    rcases le_or_gt 90 (min (90 : K)
      (north + sourceNeighbourLatitudeMarginDeg)) with hpole | hpole
    · have hrow : sourceSouthForLatitude
          (min 90 (north + sourceNeighbourLatitudeMarginDeg)) = 89 := by
        unfold sourceSouthForLatitude
        rw [if_neg (by linarith), if_pos hpole]
      rw [hrow] at hcast
      push_cast at hcast
      linarith
    · have hspec := (sourceSouthForLatitude_spec
        (lt_min (by norm_num) (by linarith)) hpole).1
      linarith

/-- A planned cell that has no part in the tile lies beside it. -/
theorem beside_of_planned {cell : CopernicusSourceAddress}
    (hlatitude : MapLatitudes latitude)
    (hvalid : isValidTerrainTileAddress address = true)
    (hplanned : cell ∈ normalizedTileSourceAddresses latitude address)
    (hapart : ¬ MeetsTile latitude address cell) :
    Beside latitude address cell := by
  obtain ⟨hpos, -, -⟩ := @tileCountOf_spec K _ _ address _ hvalid
  obtain ⟨hfirst, hlast⟩ := @edgeOffset_outer K _ _ _
  have hlongitude {a b : K} (hle : a ≤ b) :
      tileXToLongitudeDeg a (tileCountOf address)
        ≤ tileXToLongitudeDeg b (tileCountOf address) := by
    have hratio := div_le_div_of_nonneg_right hle hpos.le
    unfold tileXToLongitudeDeg
    linarith
  have hlatitudeFalls {a b : K} (hle : a ≤ b) :
      latitude b (tileCountOf address) ≤ latitude a (tileCountOf address) := by
    rcases lt_or_eq_of_le hle with hlt | rfl
    · exact (hlatitude.decreasing hpos hlt).le
    · exact le_refl _
  -- the tile lies inside of its boxes
  have hwest : tileXToLongitudeDeg ((address.x : K) + edgeOffset 0)
      (tileCountOf address) ≤ sampleLongitude address 0 := by
    apply hlongitude
    rw [sampleOffset_first]
    linarith
  have heast : (sampleLongitude address terrainTileCellCount : K)
      ≤ tileXToLongitudeDeg ((address.x : K) + edgeOffset terrainTileGridSize)
        (tileCountOf address) := by
    apply hlongitude
    rw [sampleOffset_last]
    linarith
  have hsouth : latitude (address.y + edgeOffset terrainTileGridSize)
      (tileCountOf address)
      ≤ sampleLatitude latitude address terrainTileCellCount := by
    apply hlatitudeFalls
    rw [sampleOffset_last]
    linarith
  have hnorth : sampleLatitude latitude address 0
      ≤ latitude (address.y + edgeOffset 0) (tileCountOf address) := by
    apply hlatitudeFalls
    rw [sampleOffset_first]
    linarith
  have hbelow : sampleLatitude latitude address terrainTileCellCount ≤ 88 :=
    (sampleLatitude_bounds hlatitude hvalid (le_refl _)).2.2.2
  have habove : -88 ≤ sampleLatitude latitude address 0 :=
    (sampleLatitude_bounds hlatitude hvalid (Nat.zero_le _)).2.2.1
  have hsize : (0 : Nat) ≤ terrainTileGridSize := Nat.zero_le _
  unfold normalizedTileSourceAddresses at hplanned
  rw [edge_longitudeEdges hsize, edge_longitudeEdges (le_refl _),
    edge_latitudeEdges hsize, edge_latitudeEdges (le_refl _)] at hplanned
  dsimp only at hplanned
  rw [mem_foldl_insertSourceAddress, List.mem_flatMap] at hplanned
  rcases hplanned with hnone | ⟨row, hrow, hcell⟩
  · cases hnone
  obtain ⟨column, hcolumn, rfl⟩ := List.mem_map.1 hcell
  have hrow := Steps.mem_values_one.1 hrow
  have hcolumn := Steps.mem_values_one.1 hcolumn
  by_cases harea : normalizedTileUsesAreaAverage address = true
  · rw [if_pos harea, if_pos harea] at hrow hcolumn
    obtain ⟨hcolumns, hsouthward, hnorthward⟩ := loop_bounds
      (le_min hwest (le_refl _)) (max_le heast (le_refl _))
      (le_min hsouth (le_refl _)) (max_le hnorth (le_refl _))
      ((min_le_left _ _).trans hbelow) (habove.trans (le_max_left _ _)) hrow
      hcolumn
    exact ⟨hapart, ⟨column, rfl, hcolumns⟩, hsouthward, hnorthward⟩
  · rw [if_neg harea, if_neg harea] at hrow hcolumn
    obtain ⟨hcolumns, hsouthward, hnorthward⟩ := loop_bounds hwest heast
      hsouth hnorth hbelow habove hrow hcolumn
    exact ⟨hapart, ⟨column, rfl, hcolumns⟩, hsouthward, hnorthward⟩

end

-- ========================================================= the deletion

/-- A deletion that no file refuses reports no failure. -/
theorem foldl_deleteSourceCell_ok (directory : String)
    (fate : CopernicusSourceAddress → SourceFileFate)
    (hfate : ∀ address, fate address ≠ .refused)
    (cells : List CopernicusSourceAddress)
    (r : TerrainSourceDeletionResult × SourceStore) (hok : r.1.ok = true) :
    (cells.foldl (deleteSourceCell directory fate) r).1.ok = true := by
  induction cells generalizing r with
  | nil => exact hok
  | cons cell rest ih =>
      apply ih
      unfold deleteSourceCell
      dsimp only
      split
      · exact hok
      · split
        · exact hok
        · exact hok
        · rename_i hrefused
          exact absurd hrefused (hfate cell)

theorem deleteSourceData_deleted {config : TileStore.Config}
    {directory : String} {range : TerrainRange}
    {fate : CopernicusSourceAddress → SourceFileFate}
    {store store' : SourceStore}
    {result : TerrainCacheDeletionResult}
    (hfate : ∀ address, fate address ≠ .refused)
    (haccepted : rejectCacheDeletion config range = none)
    (hprovider : config.copernicusEnabled = true)
    (hdataset : TileStore.Copernicus.supportsDataset range.dataset = true)
    (hdirectory : QString.trimmed directory.toList ≠ [])
    (h : deleteSourceData tileYToLatitudeDeg config directory range fate store
      = some (result, store')) : result.status = .deleted := by
  unfold deleteSourceData at h
  rw [haccepted] at h
  dsimp only at h
  by_cases hrows : max 0 range.yMin ≤ min (tileCount range.zoom - 1) range.yMax
  · obtain ⟨box, hbox, hglobe, -, -⟩ := sourceBox_spec
      rowLatitudes_tileYToLatitudeDeg (le_of_accepted haccepted) hrows
    have hvalid : ¬ (box.eastDeg ≤ box.westDeg ∨ box.northDeg ≤ box.southDeg ∨
        QString.trimmed directory.toList = []) := by
      rintro (hwest | hsouth | hblank)
      · exact absurd hglobe.width (not_lt.2 hwest)
      · exact absurd hglobe.height (not_lt.2 hsouth)
      · exact hdirectory hblank
    rw [hbox] at h
    dsimp only at h
    rw [if_pos ⟨hprovider, hdataset⟩] at h
    unfold Copernicus.deleteSourceData at h
    rw [if_neg (by rw [hdataset]; simp), if_neg hvalid] at h
    obtain ⟨r, hr, heq⟩ := Option.map_eq_some_iff.1 h
    obtain ⟨cells, -, hfold⟩ := Option.bind_eq_some_iff.1 hr
    cases hfold
    have hok := foldl_deleteSourceCell_ok directory fate hfate cells
      ({}, store) rfl
    rw [if_pos hok] at heq
    cases heq
    rfl
  · have hnone : range.sourceBox tileYToLatitudeDeg = none := by
      unfold TerrainRange.sourceBox
      rw [if_pos (by omega)]
    rw [hnone] at h
    cases h
    rfl

/-- **A deletion leaves a tile nothing but cells beside it.** After a
deletion of an addressable range that finds no lock held and no file
refused, whatever cell is read for a tile of the range is gone, with the
record that it is unavailable, or has no part in the tile and lies within
half a sample and the margins of the plan from it. -/
theorem deletion_leaves_beside {config : TileStore.Config}
    {directory : String} {range : TerrainRange} (store : SourceStore)
    (haccepted : rejectCacheDeletion config range = none)
    (hprovider : config.copernicusEnabled = true)
    (hdataset : TileStore.Copernicus.supportsDataset range.dataset = true)
    (hdirectory : QString.trimmed directory.toList ≠ [])
    (haddressable : range.Addressable) :
    ∃ result store', deleteSourceData tileYToLatitudeDeg config directory range
        (fun _ => .removed) store = some (result, store') ∧
      result.status = .deleted ∧
      ∀ key, TileStore.Copernicus.supportsAddress key = true →
        range.HasTile key.address → ∀ load, PlannedSizes load →
        ∀ cell ∈ (SourceRequest.tile key).asked tileYToLatitudeDeg load,
          (store'.files.lookup cell = none ∧
            store'.unavailableSourceUntil.lookup cell = none) ∨
          Beside tileYToLatitudeDeg key.address cell := by
  obtain ⟨result, store', hdeletion, hstore⟩ := deleteSourceData_store
    (fun _ => .removed) store haccepted hprovider hdataset hdirectory
    haddressable
  refine ⟨result, store', hdeletion, deleteSourceData_deleted ?_ haccepted
    hprovider hdataset hdirectory hdeletion, ?_⟩
  · intro address hrefused
    cases hrefused
  intro key hsupported htile load hsizes cell hasked
  have hvalid := valid_of_supportsAddress hsupported
  have hplanned := (SourceRequest.tile key).asked_subset hsizes hasked
  rw [SourceRequest.planned_tile hsupported] at hplanned
  by_cases hmeets : MeetsTile tileYToLatitudeDeg key.address cell
  · left
    obtain ⟨hrecord, hfile⟩ := (hstore cell).1
      (hmeets.meetsCell rowLatitudes_tileYToLatitudeDeg hvalid htile)
    exact ⟨hfile rfl, hrecord⟩
  · exact Or.inr (beside_of_planned mapLatitudes_tileYToLatitudeDeg hvalid
      hplanned hmeets)

/-- The deletion of one tile, named a turn farther east. -/
theorem deletion_leaves_beside_east :
    ∃ result store', deleteSourceData tileYToLatitudeDeg {} "/var/cache/aowis"
        ⟨"copernicus-glo30", 8, 390, 390, 86, 86⟩ (fun _ => .removed)
        ⟨∅, (∅ : QHash _ _).insert ⟨50, 8⟩ [73, 73]⟩
        = some (result, store') ∧
      result.status = .deleted ∧
      ∀ load, PlannedSizes load →
        ∀ cell ∈ (SourceRequest.tile
            ⟨"copernicus-glo30", ⟨8, 134, 86⟩⟩).asked tileYToLatitudeDeg load,
          (store'.files.lookup cell = none ∧
            store'.unavailableSourceUntil.lookup cell = none) ∨
          Beside tileYToLatitudeDeg ⟨8, 134, 86⟩ cell := by
  obtain ⟨result, store', hdeletion, hdeleted, hcells⟩ :=
    @deletion_leaves_beside {} "/var/cache/aowis"
      ⟨"copernicus-glo30", 8, 390, 390, 86, 86⟩
      ⟨∅, (∅ : QHash _ _).insert ⟨50, 8⟩ [73, 73]⟩ (by decide) (by decide)
      (by decide) (by decide) (by decide)
  exact ⟨result, store', hdeletion, hdeleted,
    hcells ⟨"copernicus-glo30", ⟨8, 134, 86⟩⟩ (by decide)
      ⟨rfl, by decide, 1, by decide⟩⟩

end AowisMap.Terrain
