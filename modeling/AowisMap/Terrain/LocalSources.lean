/-
The source cells a CPU stage finds without the network: `raster` and
`downloadSourceTile` with `allow_remote_fetch` false, and the checks that
decide whether there is a network stage before it.
-/
import AowisMap.Terrain.AnalysisGrid
import AowisMap.Terrain.TileSampling

namespace AowisMap.Terrain

/-- What is known of the source cells: which are confirmed to be
unavailable, for longer than the stage takes, and the files that are there,
with what opening one gives. -/
structure LocalSources where
  confirmedUnavailable : CopernicusSourceAddress → Bool
  file : CopernicusSourceAddress → Option (Except String SourceRaster)

namespace LocalSources

variable (sources : LocalSources)

/-- What a set of rasters makes of a cell. -/
def load (address : CopernicusSourceAddress) : SourceLoad :=
  if sources.confirmedUnavailable address then .unavailable
  else
    match sources.file address with
    -- "is not cached and remote fetching is disabled"
    | none => .unavailable
    | some (.error openError) => .failed .sourceReadError openError
    | some (.ok raster) => .ready raster false

/-- `sourceCellAvailableLocally`. -/
def sourceCellAvailableLocally (address : CopernicusSourceAddress) : Bool :=
  (sources.file address).isSome

/-- No cell of a list is left to download. -/
def allAvailable (addresses : List CopernicusSourceAddress) : Bool :=
  addresses.all fun address =>
    sources.sourceCellAvailableLocally address ||
      sources.confirmedUnavailable address

/-- `CopernicusTerrainProvider::tileSourcesAvailableLocally`. -/
def tileSourcesAvailableLocally {K : Type*} [Field K] [LinearOrder K]
    [FloorRing K] (latitude : K → K → K) (key : TileStore.TileKey) : Bool :=
  if TileStore.Copernicus.supportsAddress key = false then false
  else sources.allAvailable (normalizedTileSourceAddresses latitude key.address)

/-- `CopernicusTerrainProvider::gridSourcesAvailableLocally`. -/
def gridSourcesAvailableLocally (request : TerrainAnalysisGridRequest) :
    Bool :=
  if TileStore.Copernicus.supportsDataset request.dataset = false ∨
      request.valid = false then false
  else
    match analysisGridSourceAddresses request with
    | none => true
    | some addresses => sources.allAvailable addresses

end LocalSources

end AowisMap.Terrain
