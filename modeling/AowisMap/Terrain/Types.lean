/-
The result types that cross the boundary of the terrain subsystem: tile
and elevation lookups, provider fetches and analysis grids, with the
defaults of their structures.

Elevations are rationals here (the source's doubles, in exact
arithmetic); a float32 sample on its way into a response is its bit
pattern.
-/
import Mathlib.Algebra.Group.Nat.Defs
import Mathlib.Data.Rat.Defs

namespace AowisMap

/-- A byte string. -/
abbrev Bytes := List UInt8

namespace Terrain

-- ==================================================== constants of the grid

/-- Samples along one side of a normalized tile. -/
def terrainTileGridSize : Nat := 65

/-- Cells along one side of a normalized tile. -/
def terrainTileCellCount : Nat := terrainTileGridSize - 1

/-- The deepest zoom a tile address may name. -/
def terrainTileMaximumZoom : Nat := 30

/-- An XYZ tile address: `int zoom` and unsigned 32-bit columns and
rows. -/
structure TerrainTileAddress where
  zoom : Int := 0
  x : Nat := 0
  y : Nat := 0
deriving DecidableEq, Repr

/-- `isValidTerrainTileAddress`: a supported zoom, column and row inside
the zoom's square. -/
def isValidTerrainTileAddress (address : TerrainTileAddress) : Bool :=
  decide (0 ≤ address.zoom) && decide (address.zoom ≤ terrainTileMaximumZoom)
    && decide (address.x < 2 ^ address.zoom.toNat)
    && decide (address.y < 2 ^ address.zoom.toNat)

-- ============================================================= statuses

inductive TerrainProviderFetchStatus
  | ready | unsupportedDataset | unsupportedAddress | sourceUnavailable
  | networkError | sourceReadError | conversionError | cancelled
deriving DecidableEq, Repr

inductive TerrainTileLookupStatus
  | ready | disabled | notInitialized | invalidDataset | invalidAddress
  | tileUnavailable | tileReadError | corruptTile | remoteFetchError
  | providerError
deriving DecidableEq, Repr

inductive TerrainElevationLookupStatus
  | ready | disabled | notInitialized | invalidCoordinate | invalidDataset
  | invalidVerticalDatum | verticalDatumConversionUnavailable
  | outsideCoverage | tileUnavailable | tileReadError | corruptTile
  | remoteFetchError | providerError | noData
deriving DecidableEq, Repr

inductive TerrainVerticalDatum
  | unknown | wgs84Ellipsoid | egm96 | egm2008 | «local»
deriving DecidableEq, Repr

inductive TerrainDataOrigin
  | unknown | cache | remote | offlinePackage | localDataset
deriving DecidableEq, Repr

/-- `terrainTileLookupStatusId`. -/
def terrainTileLookupStatusId : TerrainTileLookupStatus → String
  | .ready => "ready"
  | .disabled => "disabled"
  | .notInitialized => "not-initialized"
  | .invalidDataset => "invalid-dataset"
  | .invalidAddress => "invalid-address"
  | .tileUnavailable => "tile-unavailable"
  | .tileReadError => "tile-read-error"
  | .corruptTile => "corrupt-tile"
  | .remoteFetchError => "remote-fetch-error"
  | .providerError => "provider-error"

-- ============================================================== results

structure TerrainElevationSample where
  elevationM : Rat := 0
  dataset : String := ""
  nominalResolutionM : Rat := 0
  verticalDatum : TerrainVerticalDatum := .unknown
  sourceVerticalDatum : TerrainVerticalDatum := .unknown
  origin : TerrainDataOrigin := .unknown
deriving DecidableEq

structure TerrainTileLookupResult where
  status : TerrainTileLookupStatus := .tileUnavailable
  data : Bytes := []
  origin : TerrainDataOrigin := .unknown
  errorMessage : String := ""
deriving DecidableEq

structure TerrainElevationLookupResult where
  status : TerrainElevationLookupStatus := .tileUnavailable
  sample : Option TerrainElevationSample := none
  tileAddress : Option TerrainTileAddress := none
  requestedVerticalDatum : Option TerrainVerticalDatum := none
  sourceVerticalDatum : Option TerrainVerticalDatum := none
  errorMessage : String := ""
deriving DecidableEq

/-- What an acquisition stage reports: its status and message (the tile
field of the source's structure is only filled by `fetchTile`). -/
structure TerrainProviderFetchResult where
  status : TerrainProviderFetchStatus := .sourceUnavailable
  errorMessage : String := ""
deriving DecidableEq

/-- An analysis grid: float32 samples as bit patterns, row-major. -/
structure TerrainAnalysisGridResult where
  status : TerrainProviderFetchStatus := .sourceUnavailable
  elevationsM : List UInt32 := []
  errorMessage : String := ""
deriving DecidableEq

end Terrain

end AowisMap
