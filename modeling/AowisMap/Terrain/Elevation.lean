/-
`TerrainData::sampleElevation`: the elevation of a point, from the finest
normalized tile that has one.

# Numbers

Doubles are rationals, and what the code computes of them it computes
exactly here. The row of a latitude on the square map is a parameter:
`northing` is `(1 - asinh(tan(latitude)) / pi) * 0.5`, as the library
computes it. A coordinate is finite.

# The tiles

The tiles come from `terrainTile`, which may change a state (files,
downloads) that the next lookup sees. The walk over the zooms is
`Lib.Descent.search`.
-/
import Mathlib.Data.Rat.Floor
import AowisMap.Lib.Descent
import AowisMap.Terrain.TileStore

namespace AowisMap.Terrain

open Lib

-- =========================================================== vertical data

/-- `terrainVerticalDatumId`. -/
def terrainVerticalDatumId : TerrainVerticalDatum → String
  | .wgs84Ellipsoid => "wgs84-ellipsoid"
  | .egm96 => "egm96"
  | .egm2008 => "egm2008"
  | .local => "local"
  | .unknown => "unknown"

/-- `terrainVerticalDatumAuthorityCode`. -/
def terrainVerticalDatumAuthorityCode : TerrainVerticalDatum → String
  | .wgs84Ellipsoid => "EPSG:4979"
  | .egm96 => "EPSG:5773"
  | .egm2008 => "EPSG:3855"
  | .local => ""
  | .unknown => ""

/-- `verticalDatumDiagnosticLabel`. -/
def verticalDatumDiagnosticLabel (datum : TerrainVerticalDatum) : String :=
  if terrainVerticalDatumAuthorityCode datum = "" then
    terrainVerticalDatumId datum
  else terrainVerticalDatumId datum ++ " ("
    ++ terrainVerticalDatumAuthorityCode datum ++ ")"

/-- `isRequestableTerrainVerticalDatum`. -/
def isRequestableTerrainVerticalDatum : TerrainVerticalDatum → Bool
  | .wgs84Ellipsoid | .egm96 | .egm2008 => true
  | .local | .unknown => false

/-- `isValidTerrainElevationSample`, of a sample with a finite elevation
and resolution. -/
def isValidTerrainElevationSample (sample : TerrainElevationSample) : Bool :=
  decide (0 ≤ sample.nominalResolutionM) &&
    !(QString.trimmed sample.dataset.toList).isEmpty &&
    isValidTerrainVerticalDatum sample.verticalDatum &&
    isValidTerrainVerticalDatum sample.sourceVerticalDatum &&
    !(sample.sourceVerticalDatum == .unknown &&
      sample.verticalDatum != .unknown)

-- ================================================================ the grid

def webMercatorMaximumLatitudeDeg : Rat := 85.0511287798066

/-- `isValidWgs84Coordinate`. -/
def isValidWgs84Coordinate (latitudeDeg longitudeDeg : Rat) : Bool :=
  decide (-90 ≤ latitudeDeg) && decide (latitudeDeg ≤ 90) &&
    decide (-180 ≤ longitudeDeg) && decide (longitudeDeg ≤ 180)

/-- A tile and a position in its grid of cells. -/
structure TerrainGridPosition where
  address : TerrainTileAddress
  column : Rat := 0
  row : Rat := 0
deriving DecidableEq

/-- `std::clamp` to the tiles of a zoom. -/
def clampTile (tile : Rat) (tileCount : Nat) : Rat :=
  max 0 (min tile tileCount)

/-- The tile of a coordinate and the fraction of the tile before it. The
far border belongs to the last tile. -/
def tileIndex (tile : Rat) (tileCount : Nat) : Nat × Rat :=
  if (tileCount : Rat) ≤ tile then (tileCount - 1, 1)
  else (⌊tile⌋.toNat, tile - ⌊tile⌋)

/-- `terrainGridPosition`. -/
def terrainGridPosition (northing : Rat → Rat) (latitudeDeg longitudeDeg : Rat)
    (zoom : Int) : Option TerrainGridPosition :=
  if zoom < 0 ∨ zoom > terrainTileMaximumZoom then none
  else if latitudeDeg < -webMercatorMaximumLatitudeDeg ∨
      latitudeDeg > webMercatorMaximumLatitudeDeg then none
  else
    let tileCount : Nat := 2 ^ zoom.toNat
    let x := tileIndex
      (clampTile ((longitudeDeg + 180) / 360 * tileCount) tileCount) tileCount
    let y := tileIndex
      (clampTile (northing latitudeDeg * tileCount) tileCount) tileCount
    some
      { address := { zoom := zoom, x := x.1, y := y.1 }
        column := x.2 * terrainTileCellCount
        row := y.2 * terrainTileCellCount }

/-- Adds a weighted sample; one of next to no weight is not looked at. -/
def addWeighted (sum : Option Rat) (weighted : Rat × FloatValue) :
    Option Rat :=
  if weighted.1 ≤ epsilon then sum
  else match sum, weighted.2 with
  | some sum, .finite elevationM => some (sum + weighted.1 * elevationM)
  | _, _ => none

/-- `bilinearElevation`. -/
def bilinearElevation (tile : TerrainTile) (column row : Rat) : Option Rat :=
  if tile.elevationsM.length ≠ terrainTileSampleCount ∨
      column < 0 ∨ column > terrainTileCellCount ∨
      row < 0 ∨ row > terrainTileCellCount then none
  else
    let column0 := min ⌊column⌋.toNat terrainTileCellCount
    let row0 := min ⌊row⌋.toNat terrainTileCellCount
    let column1 := min (column0 + 1) terrainTileCellCount
    let row1 := min (row0 + 1) terrainTileCellCount
    let columnFraction := column - column0
    let rowFraction := row - row0
    let sample (row column : Nat) : FloatValue :=
      tile.elevationsM.getD (row * terrainTileGridSize + column) .nan
    [((1 - columnFraction) * (1 - rowFraction), sample row0 column0),
      (columnFraction * (1 - rowFraction), sample row0 column1),
      ((1 - columnFraction) * rowFraction, sample row1 column0),
      (columnFraction * rowFraction, sample row1 column1)].foldl
        addWeighted (some 0)

-- =============================================================== one zoom

/-- The sample of a tile, if it is valid. -/
def elevationSample (tile : TerrainTile) (elevationM : Rat)
    (origin : TerrainDataOrigin) : Option TerrainElevationSample :=
  match tile.nominalResolutionM with
  | .finite nominalResolutionM =>
      let sample : TerrainElevationSample :=
        { elevationM := elevationM
          dataset := tile.dataset
          nominalResolutionM := nominalResolutionM
          verticalDatum := tile.verticalDatum
          sourceVerticalDatum := tile.verticalDatum
          origin := origin }
      if isValidTerrainElevationSample sample then some sample else none
  | _ => none

/-- The status of a lookup whose tile could not be read. -/
def elevationFailure : TerrainTileLookupStatus → TerrainElevationLookupStatus
  | .tileReadError => .tileReadError
  | .corruptTile => .corruptTile
  | .remoteFetchError => .remoteFetchError
  | .providerError => .providerError
  | _ => .tileUnavailable

/-- The answer of a sample under the datum of its tile. -/
def checkedElevation (config : TileStore.Config)
    (requestedVerticalDatum : Option TerrainVerticalDatum)
    (address : TerrainTileAddress) (tile : TerrainTile) (elevationM : Rat)
    (origin : TerrainDataOrigin) : TerrainElevationLookupResult :=
  match elevationSample tile elevationM origin with
  | none =>
      { status := .corruptTile
        tileAddress := some address
        requestedVerticalDatum := requestedVerticalDatum
        sourceVerticalDatum := some tile.verticalDatum
        errorMessage := "Normalized terrain tile produced invalid elevation "
          ++ "metadata: "
          ++ TileStore.normalizedTilePath config ⟨tile.dataset, address⟩ }
  | some sample =>
      { status := .ready
        sample := some sample
        tileAddress := some address
        requestedVerticalDatum := requestedVerticalDatum
        sourceVerticalDatum := some tile.verticalDatum }

/-- The answer of a tile that has an elevation. -/
def sampledElevation (config : TileStore.Config)
    (requestedVerticalDatum : Option TerrainVerticalDatum)
    (address : TerrainTileAddress) (tile : TerrainTile) (elevationM : Rat)
    (origin : TerrainDataOrigin) : TerrainElevationLookupResult :=
  match requestedVerticalDatum with
  | none => checkedElevation config none address tile elevationM origin
  | some datum =>
      if datum ≠ tile.verticalDatum then
        { status := .verticalDatumConversionUnavailable
          tileAddress := some address
          requestedVerticalDatum := some datum
          sourceVerticalDatum := some tile.verticalDatum
          errorMessage := "Terrain source datum is "
            ++ verticalDatumDiagnosticLabel tile.verticalDatum ++ ", but "
            ++ verticalDatumDiagnosticLabel datum ++ " was requested. "
            ++ "No vertical datum transformation model is configured; AOWIS "
            ++ "will not apply an implicit or constant height offset" }
      else checkedElevation config (some datum) address tile elevationM origin

/-- The body of the walk. -/
def elevationVerdict (config : TileStore.Config)
    (requestedVerticalDatum : Option TerrainVerticalDatum)
    (position : TerrainGridPosition) (lookup : TerrainTileLookupResult) :
    Descent.Verdict TerrainElevationLookupResult :=
  match lookup.status with
  | .tileUnavailable => .skip
  | .ready =>
      match decodeTerrainTile binary32 lookup.data with
      | .error decodeError => .settle
          { status := .corruptTile
            tileAddress := some position.address
            requestedVerticalDatum := requestedVerticalDatum
            errorMessage := "Validated normalized terrain tile could not be "
              ++ "decoded for point sampling: " ++ decodeError }
      | .ok tile =>
          match bilinearElevation tile position.column position.row with
          | none => .remember
          | some elevationM => .settle (sampledElevation config
              requestedVerticalDatum position.address tile elevationM
              lookup.origin)
  | status => .settle
      { status := elevationFailure status
        tileAddress := some position.address
        requestedVerticalDatum := requestedVerticalDatum
        errorMessage := lookup.errorMessage }

-- =============================================================== the walk

/-- A point and what is asked of it. -/
structure ElevationRequest where
  dataset : String
  latitudeDeg : Rat
  longitudeDeg : Rat
  requestedVerticalDatum : Option TerrainVerticalDatum := none

/-- The message of a request that is not looked up. -/
def rejectElevation (config : TileStore.Config) (request : ElevationRequest) :
    Option (TerrainElevationLookupStatus × String) :=
  if config.enabled = false then
    some (.disabled, "Terrain subsystem is disabled")
  else if config.initialized = false then
    some (.notInitialized, "Terrain subsystem is not initialized")
  else if isValidTerrainDatasetId request.dataset = false then
    some (.invalidDataset, "Invalid terrain dataset identifier")
  else if request.requestedVerticalDatum.any
      (fun datum => !isRequestableTerrainVerticalDatum datum) then
    some (.invalidVerticalDatum, "Requested vertical datum '"
      ++ (request.requestedVerticalDatum.elim "" terrainVerticalDatumId)
      ++ "' cannot be used as a terrain output datum")
  else if isValidWgs84Coordinate request.latitudeDeg request.longitudeDeg
      = false then
    some (.invalidCoordinate,
      "Terrain coordinate must be finite WGS84 latitude/longitude")
  else if request.latitudeDeg < -webMercatorMaximumLatitudeDeg ∨
      request.latitudeDeg > webMercatorMaximumLatitudeDeg then
    some (.outsideCoverage, "Coordinate lies outside normalized "
      ++ "Web-Mercator terrain coverage")
  else none

section

variable {S : Type*}

/-- The position of a request at a zoom. -/
def ElevationRequest.position (northing : Rat → Rat)
    (request : ElevationRequest) (zoom : Nat) : Option TerrainGridPosition :=
  terrainGridPosition northing request.latitudeDeg request.longitudeDeg zoom

/-- The lookup of a zoom. -/
def askZoom (northing : Rat → Rat) (request : ElevationRequest)
    (terrainTile : TileStore.TileKey → S → TerrainTileLookupResult × S)
    (zoom : Nat) (s : S) :
    Option (TerrainGridPosition × TerrainTileLookupResult) × S :=
  match request.position northing zoom with
  | none => (none, s)
  | some position =>
      let lookup := terrainTile ⟨request.dataset, position.address⟩ s
      (some (position, lookup.1), lookup.2)

/-- What the lookup of a zoom does to the walk. -/
def judgeZoom (config : TileStore.Config) (request : ElevationRequest)
    (_zoom : Nat)
    (answer : Option (TerrainGridPosition × TerrainTileLookupResult)) :
    Descent.Verdict TerrainElevationLookupResult :=
  match answer with
  | none => .skip
  | some (position, lookup) =>
      elevationVerdict config request.requestedVerticalDatum position lookup

/-- `sampleElevation`. -/
def sampleElevation (config : TileStore.Config) (northing : Rat → Rat)
    (terrainTile : TileStore.TileKey → S → TerrainTileLookupResult × S)
    (request : ElevationRequest) (s : S) : TerrainElevationLookupResult × S :=
  match rejectElevation config request with
  | some (status, errorMessage) =>
      ({ status := status
         requestedVerticalDatum := request.requestedVerticalDatum
         errorMessage := errorMessage }, s)
  | none =>
      let found := Descent.search (askZoom northing request terrainTile)
        (judgeZoom config request) (terrainTileMaximumZoom + 1) none s
      match found.1 with
      | .settled result => (result, found.2)
      | .remembered zoom =>
          ({ status := .noData
             tileAddress :=
               (request.position northing zoom).map TerrainGridPosition.address
             requestedVerticalDatum := request.requestedVerticalDatum
             errorMessage := "Available terrain tiles contain no elevation "
               ++ "sample for this coordinate" }, found.2)
      | .exhausted =>
          ({ status := .tileUnavailable
             requestedVerticalDatum := request.requestedVerticalDatum
             errorMessage := "No normalized terrain tile is available for "
               ++ "this coordinate and dataset" }, found.2)

end

end AowisMap.Terrain
