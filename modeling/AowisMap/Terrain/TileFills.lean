/-
How normalized tiles come to be stored: requests to the server, calls in
the process, and what happens to the files from outside. Remote fetching is
enabled, and no coverage profile is in force.

# Requests

The server checks whether a request needs the network. If so, a remote
worker acquires its sources; then a CPU worker, which never downloads, fills
the tile. A request for an elevation is one for the finest tile of its
point, and fills of coarser tiles without the network.

# Fills

`terrainTile` fills a tile that is missing or corrupt: it samples source
cells and stores the samples. Without the network it samples the cells that
are there, in one step; with it, it loads the cells it asks for one by one.
Its files, its lock and its answers are in `TileStore`, where the samples are
a parameter; here they are what the sources give.
-/
import AowisMap.Terrain.Acquisition

namespace AowisMap.Terrain

open Lib

-- ============================================================= the state

/-- A file of the normalized cache, as `readNormalizedTile` finds it. -/
inductive CachedFile
  | readable | unreadable | corrupt
deriving DecidableEq

/-- A fill: what its set of rasters makes of the cells, and which of them
are loaded. History: the cells it leaves out though nothing confirms that
they are unavailable. -/
structure TileFill where
  key : TileStore.TileKey
  allowRemoteFetch : Bool
  load : CopernicusSourceAddress → SourceLoad := fun _ => .unavailable
  loaded : List CopernicusSourceAddress := []
  unconfirmed : CopernicusSourceAddress → Bool := fun _ => false
  sampled : Bool := false

/-- History: a tile that was stored, and the sources then. -/
structure StoredTile where
  fill : TileFill
  sources : SourceCache

/-- The caches of the terrain, and the fills under way. -/
structure TerrainCaches where
  sources : SourceCache
  tiles : TileStore.TileKey → Option CachedFile := fun _ => none
  fills : Nat → Option TileFill := fun _ => none
  stored : List StoredTile := []

namespace TerrainCaches

def withFill (caches : TerrainCaches) (id : Nat) (fill : TileFill) :
    TerrainCaches :=
  { caches with fills := Function.update caches.fills id (some fill) }

/-- The server's files from before it starts. -/
def init (files : CopernicusSourceAddress → SourceDisk)
    (tiles : TileStore.TileKey → Option CachedFile) : TerrainCaches where
  sources := SourceCache.init files
  tiles := tiles

end TerrainCaches

-- ================================================================= steps

/-- What happens to the caches. -/
inductive TerrainCachesAction
  /-- A round of an acquisition, a raster, the passing of time, a removal
  by the server, a restart. -/
  | sources (action : SourceCacheAction)
  /-- `tileNeedsRemoteAcquisition`, at the start of a request. -/
  | check (id : Nat) (key : TileStore.TileKey)
  /-- `TerrainData::acquireTileSources`, up to its loop. -/
  | acquire (id : Nat) (key : TileStore.TileKey) (cancelRequested : Bool)
  /-- The first part of `terrainTile`. -/
  | fill (id : Nat) (key : TileStore.TileKey) (allowRemoteFetch : Bool)
  /-- `CopernicusRasterSet::raster`, of a fill that may use the network. -/
  | raster (id : Nat) (address : CopernicusSourceAddress) (attempt : Attempt)
      (fates : List Bool)
  | sample (id : Nat)
  /-- The rest of `fetchAndStoreNormalizedTile`; whether the tile passes its
  validation and is saved is any. -/
  | store (id : Nat) (saved : Bool)
  /-- Files are removed or replaced from outside. -/
  | replaceSource (address : CopernicusSourceAddress) (file : Option Bytes)
  | replaceTile (key : TileStore.TileKey) (file : Option CachedFile)

section

variable (openRaster : CopernicusSourceAddress → Bytes →
  Except String SourceRaster)

/-- What a set of rasters makes of a cell it has loaded. -/
def loadedSource (disk : SourceDisk) (address : CopernicusSourceAddress)
    (result : SourceLoadResult) : SourceLoad :=
  match result.status with
  | .unavailable => .unavailable
  | .cancelled => .failed .cancelled result.errorMessage
  | .networkError => .failed .networkError result.errorMessage
  | .readError => .failed .sourceReadError result.errorMessage
  | .ready =>
      match disk.finalFile.map (openRaster address) with
      | some (.ok raster) => .ready raster result.downloaded
      | some (.error openError) => .failed .sourceReadError openError
      | none => .failed .sourceReadError ""

/-- A cell more that is loaded. -/
def TileFill.loading (fill : TileFill) (address : CopernicusSourceAddress)
    (source : SourceLoad) (unconfirmed : Bool) : TileFill :=
  { fill with
    load := Function.update fill.load address source
    loaded := address :: fill.loaded
    unconfirmed := Function.update fill.unconfirmed address unconfirmed }

/-- The cells that are there, without the network. -/
def TileFill.sampleLocal (fill : TileFill) (sources : LocalSources) :
    TileFill :=
  { fill with
    load := sources.load
    unconfirmed := fun address =>
      !sources.confirmedUnavailable address &&
        (sources.file address).isNone
    sampled := true }

variable {K : Type*} [Field K] [LinearOrder K] [FloorRing K]
  (latitude : K → K → K) (target : CopernicusSourceAddress → SourceTarget)

/-- The confirmations that a check relies on, with their ends. -/
def SourceCache.confirmations (cache : SourceCache)
    (addresses : List CopernicusSourceAddress) :
    List (CopernicusSourceAddress × Nat) :=
  addresses.filterMap fun address =>
    ((cache.unavailableUntil address).filter fun retryAfter =>
      decide (cache.now < retryAfter)).map fun retryAfter =>
        (address, retryAfter)

/-- A request that needs no network because its sources are there; the
record of it is that of an acquisition that is done. -/
def checkedRequest (cache : SourceCache) (key : TileStore.TileKey) :
    Acquisition where
  request := .tile key
  pending := []
  reliedOn :=
    cache.confirmations ((SourceRequest.tile key).planned latitude)
  result := some ⟨.ready, ""⟩

/-- The caches after that check. -/
def TerrainCaches.checked (caches : TerrainCaches) (id : Nat)
    (key : TileStore.TileKey) : TerrainCaches :=
  { caches with
    sources := caches.sources.withAcquisition id
      (checkedRequest latitude caches.sources key) }

/-- The tile of a fill is stored if it has an elevation. -/
def storeFill (caches : TerrainCaches) (id : Nat) (fill : TileFill)
    (saved : Bool) : TerrainCaches :=
  let caches :=
    { caches with fills := Function.update caches.fills id none }
  match (CopernicusRasterSet.sampleTile fill.load latitude
      fill.key.address).1 with
  | none => caches
  | some elevations =>
      if saved && elevations.any Option.isSome then
        { caches with
          tiles := Function.update caches.tiles fill.key (some .readable)
          stored := ⟨fill, caches.sources⟩ :: caches.stored }
      else caches

/-- One step; none where the action is not possible. -/
def terrainCachesStep (action : TerrainCachesAction)
    (caches : TerrainCaches) : Option TerrainCaches :=
  match action with
  | .sources action =>
      (sourceCacheStep latitude target action caches.sources).map
        fun sources => { caches with sources := sources }
  | .check id key =>
      if (caches.sources.acquisitions id).isSome then none
      -- a file of the tile will do, whatever is in it
      else if (caches.tiles key).isSome then some caches
      else if (caches.sources.localSources
          openRaster).tileSourcesAvailableLocally latitude key then
        some (caches.checked latitude id key)
      else some caches
  | .acquire id key cancelRequested =>
      if (caches.sources.acquisitions id).isSome then none
      -- "A normalized cache hit requires no provider-native acquisition."
      else if (caches.tiles key).isSome then some caches
      else some { caches with
        sources := caches.sources.withAcquisition id
          (startAcquisition latitude (.tile key) cancelRequested) }
  | .fill id key allowRemoteFetch =>
      if (caches.fills id).isSome ∨ caches.tiles key = some .readable ∨
          caches.tiles key = some .unreadable ∨
          TileStore.Copernicus.supportsAddress key = false then none
      else some (caches.withFill id
        { key := key, allowRemoteFetch := allowRemoteFetch })
  | .raster id address attempt fates =>
      match caches.fills id with
      | none => none
      | some fill =>
          if fill.allowRemoteFetch = false ∨ fill.sampled = true ∨
              address ∈ fill.loaded then none
          else if caches.sources.isSourceConfirmedUnavailable address then
            some (caches.withFill id
              (fill.loading address .unavailable false))
          else
            match caches.sources.loadSource target address
                { attempt with allowRemoteFetch := true } fates with
            | (none, sources) =>
                -- the process died
                some { caches with sources := sources, fills := fun _ => none }
            | (some result, sources) =>
                some ({ caches with sources := sources }.withFill id
                  (fill.loading address
                    (loadedSource openRaster (sources.disk address) address
                      result)
                    (decide (result.status = SourceLoadStatus.unavailable) &&
                      !result.sourceConfirmedUnavailable)))
  | .sample id =>
      match caches.fills id with
      | none => none
      | some fill =>
          if fill.sampled then none
          else if fill.allowRemoteFetch = false then
            some (caches.withFill id
              (fill.sampleLocal (caches.sources.localSources openRaster)))
          else if ∀ address ∈ (SourceRequest.tile fill.key).asked latitude
              fill.load, address ∈ fill.loaded then
            some (caches.withFill id { fill with sampled := true })
          else none
  | .store id saved =>
      match caches.fills id with
      | none => none
      | some fill =>
          if fill.sampled = false then none
          else some (storeFill latitude caches id fill saved)
  | .replaceSource address file =>
      some { caches with
        sources := caches.sources.withDisk address
          { caches.sources.disk address with finalFile := file } }
  | .replaceTile key file =>
      some { caches with tiles := Function.update caches.tiles key file }

end

end AowisMap.Terrain
