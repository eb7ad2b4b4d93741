/-
`CopernicusTerrainProvider::fetchAnalysisGrid`: a window of the native
source, one source pixel for each cell of the grid.

# Numbers

Coordinates are rationals in place of doubles, all of them finite. An
elevation is the bit pattern of a float32.
-/
import AowisMap.Terrain.RasterSet
import AowisMap.Terrain.SourceDeletion

namespace AowisMap.Terrain

-- ============================================================= requests

structure TerrainAnalysisGridRequest where
  dataset : String := ""
  bounds : TerrainGeographicBox Rat
  columns : Int := 0
  rows : Int := 0

namespace TerrainAnalysisGridRequest

/-- `validAnalysisGridRequest`. -/
def valid (request : TerrainAnalysisGridRequest) : Bool :=
  let box := request.bounds
  decide (1 ≤ request.columns) && decide (request.columns ≤ 512)
    && decide (1 ≤ request.rows) && decide (request.rows ≤ 512)
    && decide (-180 ≤ box.westDeg) && decide (box.eastDeg ≤ 180)
    && decide (-85 ≤ box.southDeg) && decide (box.northDeg ≤ 85)
    && decide (box.westDeg < box.eastDeg)
    && decide (box.southDeg < box.northDeg)

def longitudeStep (request : TerrainAnalysisGridRequest) : Rat :=
  (request.bounds.eastDeg - request.bounds.westDeg) / request.columns

def latitudeStep (request : TerrainAnalysisGridRequest) : Rat :=
  (request.bounds.northDeg - request.bounds.southDeg) / request.rows

/-- The latitude of the centres of a row. -/
def latitude (request : TerrainAnalysisGridRequest) (row : Nat) : Rat :=
  request.bounds.northDeg - (row + 1 / 2) * request.latitudeStep

/-- The longitude of the centres of a column. -/
def longitude (request : TerrainAnalysisGridRequest) (column : Nat) : Rat :=
  request.bounds.westDeg + (column + 1 / 2) * request.longitudeStep

/-- The cells of the grid, row by row. -/
def cells (request : TerrainAnalysisGridRequest) : List (Nat × Nat) :=
  (List.range request.rows.toNat).flatMap fun row =>
    (List.range request.columns.toNat).map fun column => (row, column)

end TerrainAnalysisGridRequest

-- ============================================== the cells that are read

def maximumAnalysisGridSourceCells : Nat := 16

/-- One round of the loops of `analysisGridSourceAddresses`. -/
def insertCellAddresses (latitude longitude : Rat)
    (addresses : List CopernicusSourceAddress) :
    Option (List CopernicusSourceAddress) :=
  let base := sourceAddressForCoordinate latitude longitude
  let east : Bool := base.westDeg < 179 &&
    longitude - base.westDeg ≥ 1 - sourceNeighbourLongitudeMarginDeg
  let south : Bool := base.southDeg > -90 &&
    latitude - base.southDeg ≤ sourceNeighbourLatitudeMarginDeg
  let addresses := insertSourceAddress addresses base
  let addresses :=
    if east then
      insertSourceAddress addresses ⟨base.southDeg, base.westDeg + 1⟩
    else addresses
  let addresses :=
    if south then
      insertSourceAddress addresses ⟨base.southDeg - 1, base.westDeg⟩
    else addresses
  let addresses :=
    if east && south then
      insertSourceAddress addresses ⟨base.southDeg - 1, base.westDeg + 1⟩
    else addresses
  if addresses.length > maximumAnalysisGridSourceCells then none
  else some addresses

/-- `analysisGridSourceAddresses`, none where it returns false. -/
def analysisGridSourceAddresses (request : TerrainAnalysisGridRequest) :
    Option (List CopernicusSourceAddress) :=
  request.cells.foldlM
    (fun addresses cell => insertCellAddresses (request.latitude cell.1)
      (request.longitude cell.2) addresses) []

/-- `analysisGridTooLargeMessage`. -/
def analysisGridTooLargeMessage : String :=
  "Analysis grid reads more than "
    ++ toString maximumAnalysisGridSourceCells
    ++ " Copernicus 1 x 1 degree source cells; "
    ++ "request smaller adjacent windows"

-- ================================================================ grids

namespace CopernicusRasterSet

variable (load : CopernicusSourceAddress → SourceLoad)

/-- The loops of `fetchAnalysisGrid`, up to a fatal failure. -/
def sampleCells (request : TerrainAnalysisGridRequest) :
    CopernicusRasterSet → List (Nat × Nat) →
      List (Option UInt32) × CopernicusRasterSet
  | rasters, [] => ([], rasters)
  | rasters, (row, column) :: rest =>
      let (elevation, rasters) := rasters.sampleNative load
        (request.latitude row) (request.longitude column)
      if rasters.fatalStatus.isSome then ([elevation], rasters)
      else
        let (elevations, rasters) := sampleCells request rasters rest
        (elevation :: elevations, rasters)

end CopernicusRasterSet

/-- A grid with what the server does not read of it. -/
structure AnalysisGrid extends TerrainAnalysisGridResult where
  verticalDatum : TerrainVerticalDatum := .unknown
  origin : TerrainDataOrigin := .unknown
deriving DecidableEq

/-- `CopernicusTerrainProvider::fetchAnalysisGrid`. -/
def fetchAnalysisGrid (load : CopernicusSourceAddress → SourceLoad)
    (request : TerrainAnalysisGridRequest) : AnalysisGrid :=
  if TileStore.Copernicus.supportsDataset request.dataset = false then
    { status := .unsupportedDataset
      errorMessage := "Unknown Copernicus terrain dataset" }
  else if request.valid = false then
    { status := .unsupportedAddress
      errorMessage :=
        "Invalid source raster window (1..512 cells per axis)" }
  else if (analysisGridSourceAddresses request).isNone then
    { status := .unsupportedAddress
      errorMessage := analysisGridTooLargeMessage }
  else
    let (elevations, rasters) :=
      CopernicusRasterSet.sampleCells load request {} request.cells
    match rasters.fatalStatus with
    | some status =>
        { status := status
          errorMessage := rasters.fatalErrorMessage }
    | none =>
        if elevations.all Option.isNone then
          { status := .sourceUnavailable
            errorMessage :=
              "No Copernicus DEM coverage for the requested window" }
        else
          { status := .ready
            elevationsM := elevations.map (·.getD quietNaN)
            verticalDatum := .egm2008
            origin :=
              if rasters.downloadedAnySource then .remote else .cache }

end AowisMap.Terrain
