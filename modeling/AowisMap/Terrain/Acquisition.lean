/-
The two stages of a terrain request: `acquireTileSources` and
`acquireGridSources` download the source cells that are planned for it, a
CPU stage without the network reads what is there then.

# Steps

Acquisitions run at once, and each goes over its cells in the order of a
hash. A step is one round of such a loop, one cell a CPU stage with the
network loads, or the passing of time. The attempts on one source follow
each other (`SourceDownload`), so a round is one step; the process may
die in it, and what it remembers is gone then.

# Numbers

Time is in seconds. The latitude of a row of tiles is a parameter.
-/
import Mathlib.Logic.Function.Basic
import AowisMap.Terrain.LocalSources
import AowisMap.Terrain.SourceDownload

namespace AowisMap.Terrain

open Lib

-- ============================================================= requests

/-- What sources are acquired for. -/
inductive SourceRequest
  | tile (key : TileStore.TileKey)
  | grid (request : TerrainAnalysisGridRequest)

namespace SourceRequest

variable {K : Type*} [Field K] [LinearOrder K] [FloorRing K]
  (latitude : K → K → K)

/-- The cells an acquisition goes over, or its refusal. A tile that is not
supported has none, and is refused by `fetchTile`. -/
def sources : SourceRequest →
    Except TerrainProviderFetchResult (List CopernicusSourceAddress)
  | .tile key =>
      if TileStore.Copernicus.supportsAddress key then
        .ok (normalizedTileSourceAddresses latitude key.address)
      else .ok []
  | .grid request =>
      if TileStore.Copernicus.supportsDataset request.dataset = false then
        .error ⟨.unsupportedDataset, "Unknown Copernicus terrain dataset"⟩
      else if request.valid = false then
        .error ⟨.unsupportedAddress,
          "Invalid source raster window (1..512 cells per axis)"⟩
      else
        match analysisGridSourceAddresses request with
        | none => .error ⟨.unsupportedAddress, analysisGridTooLargeMessage⟩
        | some addresses => .ok addresses

/-- The cells that are planned for a request. -/
def planned (request : SourceRequest) : List CopernicusSourceAddress :=
  match request.sources latitude with
  | .ok addresses => addresses
  | .error _ => []

/-- The cells `fetchTile` and `fetchAnalysisGrid` ask their rasters for. -/
def asked (load : CopernicusSourceAddress → SourceLoad) :
    SourceRequest → List CopernicusSourceAddress
  | .tile key =>
      if TileStore.Copernicus.supportsAddress key then
        (CopernicusRasterSet.sampleTile load latitude key.address).2.asked
      else []
  | .grid request =>
      if TileStore.Copernicus.supportsDataset request.dataset = false ∨
          request.valid = false ∨
          (analysisGridSourceAddresses request).isNone then []
      else
        (CopernicusRasterSet.sampleCells load request {}
          request.cells).2.asked

/-- The check for whether a request needs no network. -/
def availableLocally (sources : LocalSources) : SourceRequest → Bool
  | .tile key => sources.tileSourcesAvailableLocally latitude key
  | .grid request => sources.gridSourcesAvailableLocally request

end SourceRequest

-- ============================================================ the caches

/-- An acquisition: the cells it has yet to go over, and its result once
it has one. History: the confirmations it relied on, with their ends. -/
structure Acquisition where
  request : SourceRequest
  pending : List CopernicusSourceAddress
  reliedOn : List (CopernicusSourceAddress × Nat) := []
  result : Option TerrainProviderFetchResult := none

/-- The provider's files, its record of unavailable sources, and the
acquisitions under way. -/
structure SourceCache where
  now : Nat := 0
  disk : CopernicusSourceAddress → SourceDisk
  unavailableUntil : CopernicusSourceAddress → Option Nat := fun _ => none
  acquisitions : Nat → Option Acquisition := fun _ => none

namespace SourceCache

/-- `isSourceConfirmedUnavailable`. -/
def isSourceConfirmedUnavailable (cache : SourceCache)
    (address : CopernicusSourceAddress) : Bool :=
  (cache.unavailableUntil address).any fun retryAfter =>
    decide (cache.now < retryAfter)

/-- How long a source stays confirmed to be unavailable. -/
def confirmationSeconds : Nat := 3600

/-- `markSourceConfirmedUnavailable`. -/
def markSourceConfirmedUnavailable (cache : SourceCache)
    (address : CopernicusSourceAddress) : SourceCache :=
  { cache with
    unavailableUntil := Function.update cache.unavailableUntil address
      (some (cache.now + confirmationSeconds)) }

/-- What the process remembers is gone. -/
def restarted (cache : SourceCache) : SourceCache :=
  { cache with
    unavailableUntil := fun _ => none
    acquisitions := fun _ => none }

def withDisk (cache : SourceCache) (address : CopernicusSourceAddress)
    (disk : SourceDisk) : SourceCache :=
  { cache with disk := Function.update cache.disk address disk }

def withAcquisition (cache : SourceCache) (id : Nat)
    (acquisition : Acquisition) : SourceCache :=
  { cache with
    acquisitions :=
      Function.update cache.acquisitions id (some acquisition) }

/-- `downloadSourceTile` for one of the cells, and the mark it leads to;
no result where the process dies. -/
def loadSource (target : CopernicusSourceAddress → SourceTarget)
    (cache : SourceCache) (address : CopernicusSourceAddress)
    (attempt : Attempt) (fates : List Bool) :
    Option SourceLoadResult × SourceCache :=
  let (result, disk) :=
    (downloadSourceTile (target address) attempt).exec fates
      (cache.disk address)
  let cache := cache.withDisk address disk
  match result with
  | none => (none, cache.restarted)
  | some result =>
      if result.status = .unavailable ∧
          result.sourceConfirmedUnavailable = true then
        (some result, cache.markSourceConfirmedUnavailable address)
      else (some result, cache)

/-- The files and the record a CPU stage without the network finds.
`openRaster` is what opening a file gives. -/
def localSources (cache : SourceCache)
    (openRaster : CopernicusSourceAddress → Bytes →
      Except String SourceRaster) : LocalSources where
  confirmedUnavailable := cache.isSourceConfirmedUnavailable
  file address :=
    if (cache.disk address).isLocal then
      (cache.disk address).finalFile.map (openRaster address)
    else none

end SourceCache

-- ================================================================= steps

/-- What happens to the caches. -/
inductive SourceCacheAction
  | wait (seconds : Nat)
  | start (id : Nat) (request : SourceRequest) (cancelRequested : Bool)
  | visit (id : Nat) (address : CopernicusSourceAddress) (attempt : Attempt)
      (fates : List Bool)
  | finish (id : Nat)
  /-- `CopernicusRasterSet::raster`, of a fetch that may use the network. -/
  | raster (address : CopernicusSourceAddress) (attempt : Attempt)
      (fates : List Bool)
  /-- A confirmation that has ended is dropped by `raster`. -/
  | drop (address : CopernicusSourceAddress)
  | remove (address : CopernicusSourceAddress)
  /-- The request of an acquisition is over. -/
  | release (id : Nat)
  | restart

/-- The caches when the server starts: files of any kind, whose history is
empty. -/
def SourceCache.init (files : CopernicusSourceAddress → SourceDisk) :
    SourceCache where
  disk address := { files address with answered := [], published := [] }

/-- How a failed download ends an acquisition. -/
def acquisitionFailure (acquired : SourceLoadResult) :
    Option TerrainProviderFetchResult :=
  match acquired.status with
  | .cancelled => some ⟨.cancelled, acquired.errorMessage⟩
  | .networkError => some ⟨.networkError, acquired.errorMessage⟩
  | .readError => some ⟨.sourceReadError, acquired.errorMessage⟩
  -- a cell the upstream does not have is left to the CPU stage
  | .unavailable => none
  | .ready => none

section

variable {K : Type*} [Field K] [LinearOrder K] [FloorRing K]
  (latitude : K → K → K) (target : CopernicusSourceAddress → SourceTarget)

/-- The first part of an acquisition, up to its loop. -/
def startAcquisition (request : SourceRequest) (cancelRequested : Bool) :
    Acquisition :=
  if cancelRequested then
    { request := request
      pending := request.planned latitude
      result := some ⟨.cancelled, ""⟩ }
  else
    match request.sources latitude with
    | .error refusal =>
        { request := request, pending := [], result := some refusal }
    | .ok addresses => { request := request, pending := addresses }

/-- One round of the loop of an acquisition. -/
def visitSource (cache : SourceCache) (id : Nat) (acquisition : Acquisition)
    (address : CopernicusSourceAddress) (attempt : Attempt)
    (fates : List Bool) : SourceCache :=
  let left := acquisition.pending.erase address
  match (cache.unavailableUntil address).filter
      fun retryAfter => decide (cache.now < retryAfter) with
  | some retryAfter =>
      cache.withAcquisition id
        { acquisition with
          pending := left
          reliedOn := (address, retryAfter) :: acquisition.reliedOn }
  | none =>
      match cache.loadSource target address
          { attempt with allowRemoteFetch := true } fates with
      | (none, cache) => cache
      | (some acquired, cache) =>
          match acquisitionFailure acquired with
          | some failure =>
              cache.withAcquisition id
                { acquisition with result := some failure }
          | none =>
              cache.withAcquisition id
                { acquisition with
                  pending := left
                  reliedOn :=
                    if acquired.status = .unavailable ∧
                        acquired.sourceConfirmedUnavailable = true then
                      (address, cache.now + SourceCache.confirmationSeconds)
                        :: acquisition.reliedOn
                    else acquisition.reliedOn }

/-- One step; none where the action is not possible. -/
def sourceCacheStep (action : SourceCacheAction) (cache : SourceCache) :
    Option SourceCache :=
  match action with
  | .wait seconds => some { cache with now := cache.now + seconds }
  | .start id request cancelRequested =>
      if (cache.acquisitions id).isSome then none
      else some (cache.withAcquisition id
        (startAcquisition latitude request cancelRequested))
  | .visit id address attempt fates =>
      match cache.acquisitions id with
      | none => none
      | some acquisition =>
          if acquisition.result.isNone ∧ address ∈ acquisition.pending then
            some (visitSource target cache id acquisition address attempt
              fates)
          else none
  | .finish id =>
      match cache.acquisitions id with
      | none => none
      | some acquisition =>
          if acquisition.result.isNone ∧ acquisition.pending = [] then
            some (cache.withAcquisition id
              { acquisition with result := some ⟨.ready, ""⟩ })
          else none
  | .raster address attempt fates =>
      if cache.isSourceConfirmedUnavailable address then some cache
      else some (cache.loadSource target address attempt fates).2
  | .drop address =>
      if cache.isSourceConfirmedUnavailable address then none
      else some { cache with
        unavailableUntil :=
          Function.update cache.unavailableUntil address none }
  | .remove address =>
      some (cache.withDisk address
        { cache.disk address with finalFile := none })
  | .release id =>
      some { cache with
        acquisitions := Function.update cache.acquisitions id none }
  | .restart => some cache.restarted

end

end AowisMap.Terrain
