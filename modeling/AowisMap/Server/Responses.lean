/-
HTTP responses of the terrain endpoints: the status code and body each
lookup result is answered with.

A job hands its completion callback a `JobResult`; `JobResult.response`
is what every waiter of the flight receives. The JSON text of an
elevation answer is not spelled out: its body carries the lookup result
the object is built from.
-/
import AowisMap.Terrain.Types

namespace AowisMap.Server

open Terrain

/-- The part of a response body the callers decide. -/
inductive Body
  | text (message : String)
  | bytes (mimeType : String) (data : Bytes)
  | elevationJson (result : TerrainElevationLookupResult)
deriving DecidableEq

/-- `QHttpServerResponse`: the HTTP status code and the body. -/
structure HttpResponse where
  status : Nat
  body : Body
deriving DecidableEq

/-- The refusal of every terrain endpoint. -/
def terrainServiceBusy : HttpResponse :=
  ⟨503, .text "Terrain service busy; retry later"⟩

/-- The answer an abandoned waiter is completed with. -/
def httpClientDisconnected : HttpResponse :=
  ⟨503, .text "HTTP client disconnected"⟩

/-- `makeTerrainTileErrorResponse`. -/
def makeTerrainTileErrorResponse (result : TerrainTileLookupResult) :
    HttpResponse where
  status := match result.status with
    | .disabled | .notInitialized => 503
    | .invalidDataset | .invalidAddress => 400
    | .tileUnavailable => 404
    | .remoteFetchError => 502
    | .tileReadError | .corruptTile | .providerError | .ready => 500
  body := .text (if result.errorMessage = "" then
      "Terrain tile request failed: " ++ terrainTileLookupStatusId result.status
    else result.errorMessage)

/-- `makeTerrainElevationErrorResponse`. -/
def makeTerrainElevationErrorResponse
    (result : TerrainElevationLookupResult) : HttpResponse where
  status := match result.status with
    | .disabled | .notInitialized => 503
    | .invalidCoordinate | .invalidDataset | .invalidVerticalDatum
    | .verticalDatumConversionUnavailable => 400
    | .outsideCoverage | .tileUnavailable | .noData => 404
    | .remoteFetchError => 502
    | .tileReadError | .corruptTile | .providerError | .ready => 500
  body := .elevationJson result

/-- `makeTerrainElevationSuccessResponse`. -/
def makeTerrainElevationSuccessResponse
    (result : TerrainElevationLookupResult) : HttpResponse :=
  if result.status ≠ .ready ∨ result.sample = none then
    makeTerrainElevationErrorResponse result
  else ⟨200, .elevationJson result⟩

/-- One float32 of the grid payload, little-endian. -/
def littleEndian (bits : UInt32) : Bytes :=
  [bits.toUInt8, (bits >>> 8).toUInt8, (bits >>> 16).toUInt8,
    (bits >>> 24).toUInt8]

/-- The serialized grid: the samples of a ready result, nothing
otherwise. -/
def serializeGrid (result : TerrainAnalysisGridResult) : Bytes :=
  if result.status = .ready then result.elevationsM.flatMap littleEndian
  else []

/-- The status code of a grid that is not ready. -/
def gridErrorStatus : TerrainProviderFetchStatus → Nat
  | .unsupportedDataset | .unsupportedAddress => 400
  | .sourceUnavailable => 404
  | .networkError => 502
  | .ready | .sourceReadError | .conversionError | .cancelled => 503

/-- What a job captured for its queued completion callback. -/
inductive JobResult
  | tile (result : TerrainTileLookupResult)
  | elevation (result : TerrainElevationLookupResult)
  | grid (status : TerrainProviderFetchStatus) (errorMessage : String)
      (bytes : Bytes)
deriving DecidableEq

/-- The response every waiter of the flight is completed with. -/
def JobResult.response : JobResult → HttpResponse
  | .tile result =>
      if result.status = .ready then
        ⟨200, .bytes "application/vnd.aowis.terrain" result.data⟩
      else makeTerrainTileErrorResponse result
  | .elevation result => makeTerrainElevationSuccessResponse result
  | .grid status errorMessage bytes =>
      if status = .ready then
        ⟨200, .bytes "application/vnd.aowis.dem-f32le" bytes⟩
      else ⟨gridErrorStatus status, .text errorMessage⟩

end AowisMap.Server
