/-
When a deletion of source cells leaves a tile nothing to read.

# What is read, and what goes

A deletion goes by area, the reading of a tile by its samples. A sample on
the eastern or southern border of a range is read in the cell behind that
border, which the deletion does not visit (`deletion_covers_iff`).

# What is asked for

A cell that has been read stays in the record of a set of rasters, and each
sample of a tile of the native zoom adds the cell it lies in. So the cells
of all samples are found in that record, if no failure ends the reading.
-/
import AowisMap.Terrain.Proofs.DeletedSources
import AowisMap.Terrain.Proofs.TileFills

namespace AowisMap.Terrain

open Lib

-- =========================================================== the property

/-- The cell is read for a tile of the range, where the sources are as
`load` has them. -/
def TerrainRange.Reads (range : TerrainRange)
    (load : CopernicusSourceAddress → SourceLoad)
    (cell : CopernicusSourceAddress) : Prop :=
  ∃ key, TileStore.Copernicus.supportsAddress key = true ∧
    range.HasTile key.address ∧
    cell ∈ (SourceRequest.tile key).asked tileYToLatitudeDeg load

/-- No tile lies in a range without rows. -/
theorem TerrainRange.Reads.rows {range : TerrainRange}
    {load : CopernicusSourceAddress → SourceLoad}
    {cell : CopernicusSourceAddress} (h : range.Reads load cell) :
    max 0 range.yMin ≤ min (tileCount range.zoom - 1) range.yMax := by
  obtain ⟨key, hsupported, htile, -⟩ := h
  have hy := (@tileCountOf_spec ℝ _ _ key.address _
    (valid_of_supportsAddress hsupported)).2.2
  rw [tileCountOf_eq htile.zoom] at hy
  have hrow : (key.address.y : Int) + 1 ≤ tileCount range.zoom := by
    exact_mod_cast hy
  obtain ⟨hfirst, hlast⟩ := htile.rows
  omega

-- =========================================================== the deletion

variable {config : TileStore.Config} {directory : String}
  {range : TerrainRange} {store store' : SourceStore}
  {fate : CopernicusSourceAddress → SourceFileFate}
  {result : TerrainCacheDeletionResult}

namespace CopernicusRasterSet

variable {load : CopernicusSourceAddress → SourceLoad}
  {rasters : CopernicusRasterSet}

section

variable {K : Type*} [Field K] [LinearOrder K] [FloorRing K]

variable {latitude : K → K → K} {address : TerrainTileAddress}

end

end CopernicusRasterSet

end AowisMap.Terrain
