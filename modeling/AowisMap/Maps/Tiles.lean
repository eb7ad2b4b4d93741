/-
The map tile store: memory cache, permanent and ordinary tile files,
upstream downloads, background writes and background reads.

# One thread and its workers

All methods and callbacks run on one event loop, so each is one
transition. Disk workers run on two pools: a write worker holds its own
write's mutex from the invalidation test to the committed file, and
`deleteTiles` takes that mutex before it removes files, so a worker runs
either before or after a deletion and is one transition as well. A read
worker reads an independent path, at any time between its request and
its callback.

# What the environment chooses

`Choice` holds what a request finds out: the subdomain the random
generator picked and whether a marker file could be written. The bytes a
client reports, whether a worker could write, which files refuse to be
removed, and every outside change of a tile file are arguments of the
actions. A memory cache eviction is an action of its own: `QCache` drops
entries to make room, and which ones depends on sizes only.

# History

`outbox` holds what the transition just taken emitted. `awaiting` holds
the response keys answered pending that no signal has been emitted for
since, and `history` every insertion into the memory cache, every
committed tile file and every completed deletion, in order. No
transition reads them.
-/
import AowisMap.Maps.Downloads

namespace AowisMap.Maps

open Lib

-- =============================================================== state

def maximumPendingCacheWrites : Nat := 64
def maximumPendingCacheReads : Nat := 64
def maximumPendingCacheReadBytes : Nat := 64 * 1024 * 1024
def maximumPendingCacheWriteBytes : Nat := 64 * 1024 * 1024

abbrev WriteId := Nat
abbrev ReadId := Nat

/-- A scheduled cache write: what its callbacks captured, its
`CacheWriteState::invalidated` flag, and the worker's result once it
ran. -/
structure CacheWrite where
  download : QueuedDownload
  data : Blob
  responseKeys : List String
  invalidated : Bool := false
  result : Option Bool := none
deriving DecidableEq

/-- A scheduled cache read: what its callback captured, and the bytes
the worker read once it ran. -/
structure CacheRead where
  readKey : String
  canonicalKey : String
  generation : Nat
  permanent : Bool
  provider : String
  zoom : Int
  wrappedX : Int
  y : Int
  readPath : TilePath
  fileSize : Nat
  result : Option Blob := none
deriving DecidableEq

/-- What the deletion results look back at. -/
inductive Event
  /-- `tile_memory_cache.insert`. -/
  | inserted (key : String) (data : Blob)
  /-- A committed cache file. -/
  | written (path : TilePath) (data : Blob)
  /-- A `deleteTiles` call that returned a count, and the number of
  downloads started before it. -/
  | deleted (range : TileRange) (clients : Nat)
deriving DecidableEq

structure State where
  permanentDataDirectory : String
  remoteFetchEnabled : Bool
  configuredProviders : QHash String MapProvider
  providerCachePaths : QHash String TileDir
  downloadCoverage : Coverage
  defaultCoverage : String
  cacheReadsPending : QHash String (List String)
  cacheGeneration : Nat
  pendingCacheReadBytes : Int
  pendingCacheWrites : Int
  pendingCacheWriteBytes : Int
  cacheWritesPendingKeys : Finset String
  cacheWriteStates : QHash String WriteId
  tileMemoryCache : QHash String Blob
  permanentCachedKeys : Finset String
  downloads : Downloads
  /-- The tile files on disk. -/
  files : QHash TilePath TileFile
  /-- The trimmed `.upstream-url.sha256` file of each provider. -/
  markers : QHash String String
  writes : QHash WriteId CacheWrite
  reads : QHash ReadId CacheRead
  nextWrite : WriteId
  nextRead : ReadId
  outbox : List Signal
  awaiting : Finset String
  history : List Event

/-- There is a pick of three. -/
instance neZero_three : NeZero 3 := ⟨by decide⟩

/-- What a request finds out from its environment. -/
structure Choice where
  /-- `domainRandomizer`'s pick. -/
  subdomain : Fin 3 := 0
  /-- Whether a provider's marker file can be created. -/
  markerWritten : Bool := true

-- ============================================================== signals

/-- Emits a signal. -/
def emit (signal : Signal) (s : State) : State :=
  { s with
    outbox := s.outbox ++ [signal]
    awaiting := s.awaiting.erase signal.key }

/-- Emits `tileReady` for every key. -/
def emitReady (keys : List String) (data : Blob) (s : State) : State :=
  keys.foldl (fun s key => emit (.tileReady key data) s) s

/-- Emits `tileFailed` for every key. -/
def emitFailed (keys : List String) (reason : TileFailureReason)
    (s : State) : State :=
  keys.foldl (fun s key => emit (.tileFailed key reason) s) s

/-- Records the answer to a request. -/
def answered (key : String) (r : TileRequestResult × State) : State :=
  if r.1.status = .pending then
    { r.2 with awaiting := insert key r.2.awaiting }
  else r.2

-- ============================================================ the caches

/-- `tile_memory_cache.insert`. -/
def cacheInsert (key : String) (data : Blob) (s : State) : State :=
  { s with
    tileMemoryCache := s.tileMemoryCache.insert key data
    history := s.history ++ [.inserted key data] }

/-- The bytes of a file that can be opened. -/
def readFile (s : State) (path : TilePath) : Option Blob :=
  match s.files.lookup path with
  | some file => if file.readable then some file.blob else none
  | none => none

/-- A memory cache entry that holds bytes. -/
def cached (s : State) (key : String) : Option Blob :=
  (s.tileMemoryCache.lookup key).filter fun data => !data.isEmpty

-- ======================================================== configuration

/-- `setPermanentDataDirectory`. -/
def setPermanentDataDirectory (directory : String) (s : State) : State :=
  { s with
    cacheGeneration := s.cacheGeneration + 1
    permanentDataDirectory := directory
    permanentCachedKeys := ∅ }

/-- `configureProviders`. -/
def configureProviders (providers : List MapProvider) (coverage : Coverage)
    (defaultCoverage : String) (s : State) : State :=
  { s with
    cacheGeneration := s.cacheGeneration + 1
    configuredProviders := providers.foldl (fun configured provider =>
      if provider.enabled then configured.insert provider.id provider
      else configured) ∅
    permanentCachedKeys := ∅
    providerCachePaths := ∅
    tileMemoryCache := ∅
    downloadCoverage := coverage
    defaultCoverage := defaultCoverage }

/-- A tile file somebody else put on disk. -/
structure OutsideFile where
  bytes : Bytes
  readable : Bool := true
deriving DecidableEq

/-- Its bytes are no download's. -/
def OutsideFile.file (outside : OutsideFile) : TileFile where
  blob := { bytes := outside.bytes }
  readable := outside.readable

/-- The store after its constructor, on the files it finds. -/
def State.init (files : QHash TilePath OutsideFile)
    (markers : QHash String String) : State :=
  configureProviders defaultMapProviders Coverage.empty ""
    { permanentDataDirectory := ""
      remoteFetchEnabled := true
      configuredProviders := ∅
      providerCachePaths := ∅
      downloadCoverage := Coverage.empty
      defaultCoverage := ""
      cacheReadsPending := ∅
      cacheGeneration := 0
      pendingCacheReadBytes := 0
      pendingCacheWrites := 0
      pendingCacheWriteBytes := 0
      cacheWritesPendingKeys := ∅
      cacheWriteStates := ∅
      tileMemoryCache := ∅
      permanentCachedKeys := ∅
      downloads := Downloads.init
      files := QHash.filterMapValues (fun _ outside => some outside.file)
        files
      markers := markers
      writes := ∅
      reads := ∅
      nextWrite := 0
      nextRead := 0
      outbox := []
      awaiting := ∅
      history := [] }

/-- `domainRandomizer`. -/
def domainRandomizer (url : List Char) (subdomain : Fin 3) : List Char :=
  let names := ["a", "b", "c"]
  QString.replaceAll "{s}".toList (names.get subdomain).toList 0 url

/-- `providerUrl`. -/
def providerUrl (source : MapProvider) (subdomain : Fin 3)
    (zoom x y : Int) : String :=
  let url := domainRandomizer source.urlTemplate.toList subdomain
  let url := QString.replaceAll "{z}".toList (QString.number zoom) 0 url
  let url := QString.replaceAll "{x}".toList (QString.number x) 0 url
  String.ofList
    (QString.replaceAll "{y}".toList (QString.number y) 0 url)

/-- `providerCachePath`: the directory is selected at first use, by the
fingerprint the provider's marker file records. -/
def providerCachePath (cfg : Config) (choice : Choice) (provider : String)
    (s : State) : Option TileDir × State :=
  match s.configuredProviders.lookup provider with
  | none => (none, s)
  | some source =>
      match s.providerCachePaths.lookup provider with
      | some dir => (some dir, s)
      | none =>
          let basePath : TileDir :=
            { base := cfg.cacheBaseDirectory, provider := provider }
          let fingerprint := cfg.fingerprint source.urlTemplate
          let recorded := (s.markers.lookup provider).getD ""
          if recorded ≠ "" ∧ recorded ≠ fingerprint then
            -- old tiles must not be treated as tiles of the new URL
            let selected := { basePath with
              variant := some (String.ofList (fingerprint.toList.take 16)) }
            (some selected, { s with
              providerCachePaths :=
                s.providerCachePaths.insert provider selected })
          else
            (some basePath, { s with
              providerCachePaths :=
                s.providerCachePaths.insert provider basePath
              markers :=
                if recorded = "" ∧ choice.markerWritten then
                  s.markers.insert provider fingerprint
                else s.markers })

/-- The permanent file of a tile. -/
def permanentPath (s : State) (provider : String) (zoom x y : Int) :
    TilePath where
  dir := { base := s.permanentDataDirectory, provider := provider }
  zoom := zoom
  x := x
  y := y

-- ============================================================= requests

/-- `may_fetch`: both switches, the provider's zoom range and the
coverage policy. -/
def mayFetch (source : MapProvider) (path : TilePath) (s : State) : Bool :=
  let policy := if source.coverage = "" then s.defaultCoverage
    else source.coverage
  s.remoteFetchEnabled && source.remoteFetchEnabled &&
    decide (path.zoom ≥ source.minimumZoom) &&
    decide (path.zoom ≤ source.maximumZoom) &&
    s.downloadCoverage.permitsTile policy path.zoom path.x path.y

/-- Upstream fetching, considered when no usable tile exists. -/
def fetchTile (cfg : Config) (choice : Choice) (source : MapProvider)
    (tilePath : TilePath) (canonicalKey key : String) (s : State) :
    TileRequestResult × State :=
  if mayFetch source tilePath s then
    let download : QueuedDownload :=
      { url := providerUrl source choice.subdomain tilePath.zoom tilePath.x
          tilePath.y
        tilePath := tilePath
        canonicalKey := canonicalKey
        responseKey := key }
    let scheduled :=
      Downloads.scheduleMapTileDownload cfg download s.downloads
    ({ status := if scheduled.1 = .scheduled then .pending
        else .serverBusy },
      { s with downloads := scheduled.2 })
  else ({ status := .invalidRequest }, s)

/-- The part of `getTile` behind the warm memory cache: permanent file,
memory cache, ordinary file, upstream. -/
def getColdTile (cfg : Config) (choice : Choice) (provider : String)
    (source : MapProvider) (zoom x y : Int) (canonicalKey key : String)
    (dir : TileDir) (s : State) : TileRequestResult × State :=
  let tilePath : TilePath := ⟨dir, zoom, x, y⟩
  let permanentBytes :=
    if s.permanentDataDirectory = "" then none
    else (readFile s (permanentPath s provider zoom x y)).filter
      fun data => !data.isEmpty
  let knownPermanent :=
    if s.permanentDataDirectory ≠ "" ∧ canonicalKey ∈ s.permanentCachedKeys
    then s.tileMemoryCache.lookup canonicalKey else none
  match knownPermanent with
  | some data => ({ status := .ready, data := data }, s)
  | none =>
    match permanentBytes with
    | some data =>
        let s := cacheInsert canonicalKey data s
        ({ status := .ready, data := data }, { s with
          permanentCachedKeys := insert canonicalKey s.permanentCachedKeys })
    | none =>
      match cached s canonicalKey with
      | some data => ({ status := .ready, data := data }, s)
      | none =>
        match (readFile s tilePath).filter fun data => !data.isEmpty with
        | some data =>
            ({ status := .ready, data := data },
              cacheInsert canonicalKey data s)
        | none => fetchTile cfg choice source tilePath canonicalKey key s

/-- `getTile`. -/
def getTile (cfg : Config) (choice : Choice) (provider : String)
    (z x y : Int) (key : String) (s : State) : TileRequestResult × State :=
  match s.configuredProviders.lookup provider with
  | none => ({ status := .invalidRequest }, s)
  | some source =>
      if z < 0 ∨ z > 30 then ({ status := .invalidRequest }, s)
      else
        let wrappedX := positiveModulo x (tileCount z)
        if y < 0 ∨ y ≥ tileCount z then ({ status := .invalidRequest }, s)
        else
          let canonicalKey := canonicalTileKey provider z wrappedX y
          -- an unknown permanent file takes precedence over memory
          let warm :=
            if s.permanentDataDirectory = ""
                ∨ canonicalKey ∈ s.permanentCachedKeys then
              cached s canonicalKey
            else none
          match warm with
          | some data => ({ status := .ready, data := data }, s)
          | none =>
              let selected := providerCachePath cfg choice provider s
              match selected.1 with
              | none => ({ status := .invalidRequest }, selected.2)
              | some dir =>
                  getColdTile cfg choice provider source z wrappedX y
                    canonicalKey key dir selected.2

/-- A read key: the tile and the cache generation of the request. -/
def readKeyOf (canonicalKey : String) (generation : Nat) : String :=
  canonicalKey ++ ":" ++ String.ofList (QString.number generation)

/-- Schedules a cold disk read, or joins the one in progress for the same
tile and generation. -/
def scheduleRead (read : CacheRead) (key : String) (s : State) :
    TileRequestResult × State :=
  match s.cacheReadsPending.lookup read.readKey with
  | some keys =>
      ({ status := .pending }, { s with
        cacheReadsPending :=
          s.cacheReadsPending.insert read.readKey (keys ++ [key]) })
  | none =>
      if s.cacheReadsPending.keys.length ≥ maximumPendingCacheReads then
        ({ status := .serverBusy }, s)
      else if read.fileSize = 0
          ∨ read.fileSize > maximumPendingCacheReadBytes
          ∨ (read.fileSize : Int)
            > maximumPendingCacheReadBytes - s.pendingCacheReadBytes then
        ({ status := .serverBusy }, s)
      else
        ({ status := .pending }, { s with
          pendingCacheReadBytes := s.pendingCacheReadBytes + read.fileSize
          cacheReadsPending :=
            s.cacheReadsPending.insert read.readKey [key]
          reads := s.reads.insert s.nextRead read
          nextRead := s.nextRead + 1 })

/-- The read of a tile file that exists. -/
def coldRead (provider : String) (z wrappedX y : Int)
    (canonicalKey : String) (permanent : Bool) (path : TilePath)
    (s : State) : CacheRead where
  readKey := readKeyOf canonicalKey s.cacheGeneration
  canonicalKey := canonicalKey
  generation := s.cacheGeneration
  permanent := permanent
  provider := provider
  zoom := z
  wrappedX := wrappedX
  y := y
  readPath := path
  fileSize := match s.files.lookup path with
    | some file => file.blob.size
    | none => 0

/-- The part of `getTileForHttp` behind the warm memory cache. -/
def getColdTileForHttp (cfg : Config) (choice : Choice) (provider : String)
    (z x y wrappedX : Int) (canonicalKey key : String) (s : State) :
    TileRequestResult × State :=
  let permanent := permanentPath s provider z wrappedX y
  if s.permanentDataDirectory ≠ "" ∧ permanent ∈ s.files then
    scheduleRead
      (coldRead provider z wrappedX y canonicalKey true permanent s) key s
  else
    match cached s canonicalKey with
    | some data => ({ status := .ready, data := data }, s)
    | none =>
        let selected := providerCachePath cfg choice provider s
        let s := selected.2
        match selected.1 with
        | none => getTile cfg choice provider z x y key s
        | some dir =>
            let path : TilePath := ⟨dir, z, wrappedX, y⟩
            if path ∈ s.files then
              scheduleRead
                (coldRead provider z wrappedX y canonicalKey false path s)
                key s
            else getTile cfg choice provider z x y key s

/-- `getTileForHttp`. -/
def getTileForHttp (cfg : Config) (choice : Choice) (provider : String)
    (z x y : Int) (key : String) (s : State) : TileRequestResult × State :=
  if provider ∉ s.configuredProviders ∨ z < 0 ∨ z > 30 then
    ({ status := .invalidRequest }, s)
  else if y < 0 ∨ y ≥ tileCount z then ({ status := .invalidRequest }, s)
  else
    let wrappedX := positiveModulo x (tileCount z)
    let canonicalKey := canonicalTileKey provider z wrappedX y
    let warm :=
      if s.permanentDataDirectory = ""
          ∨ canonicalKey ∈ s.permanentCachedKeys then
        cached s canonicalKey
      else none
    match warm with
    | some data => ({ status := .ready, data := data }, s)
    | none =>
        getColdTileForHttp cfg choice provider z x y wrappedX canonicalKey
          key s

-- ============================================================ downloads

/-- A cache write is scheduled: the tile is published to memory first. -/
def scheduleWrite (download : QueuedDownload) (data : Blob)
    (responseKeys : List String) (s : State) : State :=
  let s := cacheInsert download.canonicalKey data s
  { s with
    pendingCacheWrites := s.pendingCacheWrites + 1
    pendingCacheWriteBytes := s.pendingCacheWriteBytes + data.size
    cacheWritesPendingKeys :=
      insert download.canonicalKey s.cacheWritesPendingKeys
    cacheWriteStates :=
      s.cacheWriteStates.insert download.canonicalKey s.nextWrite
    writes := s.writes.insert s.nextWrite
      { download := download, data := data, responseKeys := responseKeys }
    nextWrite := s.nextWrite + 1 }

/-- The `requestFinished` callback of a client. A client that was told to
cancel reports no data. -/
def requestFinished (cfg : Config) (client : ClientId) (bytes : Bytes)
    (mayStore : Bool) (s : State) : Option State :=
  match Downloads.clientEnds cfg client s.downloads with
  | none => none
  | some ended =>
      if ended.client.cancelRequested then none
      else
        let download := ended.client.download
        let data : Blob :=
          { bytes := bytes, origin := some ⟨client, download.tilePath.tile⟩ }
        let s := { s with
          downloads := Downloads.startQueuedDownloads cfg ended.downloads }
        if ended.invalidated ∨ mayStore = false then
          some (emitReady ended.responseKeys data s)
        else if s.pendingCacheWrites ≥ maximumPendingCacheWrites
            ∨ (data.size : Int)
              > maximumPendingCacheWriteBytes - s.pendingCacheWriteBytes then
          -- bounded overload: returned without persistence
          some (emitReady ended.responseKeys data s)
        else some (scheduleWrite download data ended.responseKeys s)

/-- The `requestError` callback of a client. -/
def requestError (cfg : Config) (client : ClientId)
    (reason : TileFailureReason) (s : State) : Option State :=
  match Downloads.clientEnds cfg client s.downloads with
  | none => none
  | some ended =>
      if ended.client.cancelRequested ∧ reason ≠ .cancelled then none
      else
        some (emitFailed ended.responseKeys reason { s with
          downloads := Downloads.startQueuedDownloads cfg ended.downloads })

/-- `cancelUpstreamDownloads`. The clients' own callbacks follow as
transitions of their own. -/
def cancelUpstreamDownloads (s : State) : State :=
  let cancelled := Downloads.cancelUpstreamDownloads s.downloads
  emitFailed cancelled.1 .cancelled { s with downloads := cancelled.2 }

-- =============================================================== writes

/-- The worker of a cache write, under the write's mutex. -/
def writeRuns (write : WriteId) (saved : Bool) (s : State) : Option State :=
  match s.writes.lookup write with
  | none => none
  | some w =>
      if w.result ≠ none then none
      else if w.invalidated then
        -- deletion intentionally discarded persistence
        some { s with
          writes := s.writes.insert write { w with result := some true } }
      else if saved then
        some { s with
          writes := s.writes.insert write { w with result := some true }
          files := s.files.insert w.download.tilePath { blob := w.data }
          history := s.history ++ [.written w.download.tilePath w.data] }
      else
        some { s with
          writes := s.writes.insert write { w with result := some false } }

/-- The callback of a finished cache write. -/
def writeFinished (write : WriteId) (s : State) : Option State :=
  match s.writes.lookup write with
  | none => none
  | some w =>
      if w.result = none then none
      else
        some (emitReady w.responseKeys w.data { s with
          pendingCacheWrites := s.pendingCacheWrites - 1
          pendingCacheWriteBytes := s.pendingCacheWriteBytes - w.data.size
          cacheWritesPendingKeys :=
            s.cacheWritesPendingKeys.erase w.download.canonicalKey
          cacheWriteStates :=
            s.cacheWriteStates.erase w.download.canonicalKey
          downloads := Downloads.forgetInvalidation w.download.canonicalKey
            s.downloads
          writes := s.writes.erase write })

-- ================================================================ reads

/-- The worker of a cache read: a file that grew, shrank or cannot be
opened is rejected. -/
def readRuns (read : ReadId) (s : State) : Option State :=
  match s.reads.lookup read with
  | none => none
  | some r =>
      if r.result ≠ none then none
      else
        let data := ((readFile s r.readPath).filter fun data =>
          data.size == r.fileSize).getD { bytes := [] }
        some { s with
          reads := s.reads.insert read { r with result := some data } }

/-- The fallback of one requester of a read that found nothing: the normal
request path, whose answer is emitted unless it is pending. -/
def retryRead (cfg : Config) (r : CacheRead) (s : State)
    (requester : String × Choice) : State :=
  let key := requester.1
  let result :=
    getTile cfg requester.2 r.provider r.zoom r.wrappedX r.y key s
  match result.1.status with
  | .ready => emit (.tileReady key result.1.data) result.2
  | .invalidRequest | .serverBusy =>
      emit (.tileFailed key .upstreamError) result.2
  | .pending => result.2

/-- The callback of a finished cache read. `choices` are what the
fallback requests find out, in order. -/
def readFinished (cfg : Config) (read : ReadId) (choices : Nat → Choice)
    (s : State) : Option State :=
  match s.reads.lookup read with
  | none => none
  | some r =>
      match r.result with
      | none => none
      | some data =>
          let requestKeys := (s.cacheReadsPending.lookup r.readKey).getD []
          let s := { s with
            pendingCacheReadBytes := s.pendingCacheReadBytes - r.fileSize
            cacheReadsPending := s.cacheReadsPending.erase r.readKey
            reads := s.reads.erase read }
          if r.generation = s.cacheGeneration ∧ data.isEmpty = false then
            let s := cacheInsert r.canonicalKey data s
            some (emitReady requestKeys data { s with
              permanentCachedKeys :=
                if r.permanent then
                  insert r.canonicalKey s.permanentCachedKeys
                else s.permanentCachedKeys })
          else if r.generation ≠ s.cacheGeneration then
            some (emitFailed requestKeys .cancelled s)
          else
            some ((requestKeys.zipIdx.map fun k => (k.1, choices k.2)).foldl
              (retryRead cfg r) s)

-- ============================================================= deletion

/-- Whether a deletion covers a stored key, as `deleteTiles` tests it. -/
def TileRange.coversKey (range : TileRange) (key : String) : Bool :=
  match parseCanonicalTileKey key with
  | some tile => range.contains tile
  | none => false

/-- Whether a write is registered under a covered key. -/
def TileRange.coversWrite (range : TileRange)
    (states : QHash String WriteId) (write : WriteId) : Bool :=
  states.entries.any fun e => e.2 == write && range.coversKey e.1

/-- Whether `deleteTiles` removes a file when it lists the directory. -/
def TileRange.coversFile (range : TileRange) (dir : TileDir)
    (path : TilePath) : Bool :=
  path.dir == dir &&
    (0 ≤ path.x && path.x < tileCount range.zoom) &&
    range.contains { path.tile with provider := range.provider }

/-- The removal loop: it stops at the first file that refuses. -/
def removeFiles (range : TileRange) (refuses : TilePath → Bool) :
    List TilePath → State → Nat → Option Nat × State
  | [], s, count => (some count, s)
  | path :: rest, s, count =>
      if refuses path then (none, s)
      else removeFiles range refuses rest { s with
        files := s.files.erase path
        permanentCachedKeys := s.permanentCachedKeys.erase
          (canonicalTileKey range.provider range.zoom path.x path.y) }
        (count + 1)

/-- The locked and in-memory part of `deleteTiles`. -/
def invalidateRange (range : TileRange) (s : State) : State :=
  { s with
    cacheGeneration := s.cacheGeneration + 1
    -- registered writes of covered tiles see the mark when they run
    writes := QHash.filterMapValues (fun id w => some
      { w with
        invalidated := w.invalidated
          || range.coversWrite s.cacheWriteStates id }) s.writes
    downloads := Downloads.invalidateCovered range.coversKey
      s.cacheWritesPendingKeys s.downloads
    tileMemoryCache := QHash.filterMapValues (fun key data =>
      if range.coversKey key then none else some data) s.tileMemoryCache }

/-- Records a deletion that returned a count. -/
def recordDeletion (range : TileRange) (s : State) : State :=
  { s with
    history := s.history ++ [.deleted range s.downloads.nextClient] }

/-- The part of `deleteTiles` behind the selected directory. -/
def deleteFrom (range : TileRange) (refuses : TilePath → Bool)
    (dir : TileDir) (s : State) : Int × State :=
  if max 0 range.yMin > min (tileCount range.zoom - 1) range.yMax then
    (0, recordDeletion range s)
  else
    let removed := removeFiles range refuses
      (s.files.keys.filter fun path => range.coversFile dir path)
      (invalidateRange range s) 0
    match removed.1 with
    | none => (-2, removed.2)
    | some count => (count, recordDeletion range removed.2)

/-- `deleteTiles`: its return value and the state it leaves. -/
def deleteTiles (cfg : Config) (choice : Choice) (range : TileRange)
    (refuses : TilePath → Bool) (s : State) : Int × State :=
  if range.zoom < 0 ∨ range.zoom > 30 ∨ range.xMin > range.xMax
      ∨ range.yMin > range.yMax then (-1, s)
  else
    let selected := providerCachePath cfg choice range.provider s
    match selected.1 with
    | none => (-1, selected.2)
    | some dir => deleteFrom range refuses dir selected.2

-- ========================================================== transitions

/-- `setRemoteFetchEnabled`. -/
def setRemoteFetchEnabled (enabled : Bool) (s : State) : State :=
  { s with remoteFetchEnabled := enabled }

/-- `QCache` drops an entry to make room. -/
def evict (key : String) (s : State) : State :=
  { s with tileMemoryCache := s.tileMemoryCache.erase key }

/-- Somebody else writes or removes a tile file. -/
def outsideChange (path : TilePath) (outside : Option OutsideFile)
    (s : State) : State :=
  { s with
    files := match outside with
      | some outside => s.files.insert path outside.file
      | none => s.files.erase path }

inductive Action
  | getTile (choice : Choice) (provider : String) (z x y : Int)
      (key : String)
  | getTileForHttp (choice : Choice) (provider : String) (z x y : Int)
      (key : String)
  | requestFinished (client : ClientId) (bytes : Bytes) (mayStore : Bool)
  | requestError (client : ClientId) (reason : TileFailureReason)
  | writeRuns (write : WriteId) (saved : Bool)
  | writeFinished (write : WriteId)
  | readRuns (read : ReadId)
  | readFinished (read : ReadId) (choices : Nat → Choice)
  | deleteTiles (choice : Choice) (range : TileRange)
      (refuses : TilePath → Bool)
  | cancelUpstreamDownloads
  | configureProviders (providers : List MapProvider)
      (coverage : Coverage) (defaultCoverage : String)
  | setPermanentDataDirectory (directory : String)
  | setRemoteFetchEnabled (enabled : Bool)
  | evict (key : String)
  | outsideChange (path : TilePath) (outside : Option OutsideFile)

/-- One transition, on an empty outbox. -/
def perform (cfg : Config) (a : Action) (s : State) : Option State :=
  match a with
  | .getTile choice provider z x y key =>
      some (answered key (getTile cfg choice provider z x y key s))
  | .getTileForHttp choice provider z x y key =>
      some (answered key (getTileForHttp cfg choice provider z x y key s))
  | .requestFinished client bytes mayStore =>
      requestFinished cfg client bytes mayStore s
  | .requestError client reason => requestError cfg client reason s
  | .writeRuns write saved => writeRuns write saved s
  | .writeFinished write => writeFinished write s
  | .readRuns read => readRuns read s
  | .readFinished read choices => readFinished cfg read choices s
  | .deleteTiles choice range refuses =>
      some (deleteTiles cfg choice range refuses s).2
  | .cancelUpstreamDownloads => some (cancelUpstreamDownloads s)
  | .configureProviders providers coverage defaultCoverage =>
      some (configureProviders providers coverage defaultCoverage s)
  | .setPermanentDataDirectory directory =>
      some (setPermanentDataDirectory directory s)
  | .setRemoteFetchEnabled enabled => some (setRemoteFetchEnabled enabled s)
  | .evict key => some (evict key s)
  | .outsideChange path outside => some (outsideChange path outside s)

/-- The store's transition function. -/
def apply (cfg : Config) (a : Action) (s : State) : Option State :=
  perform cfg a { s with outbox := [] }

/-- Reachable states of the tile store, from any files on disk. -/
def Reachable (cfg : Config) (s : State) : Prop :=
  ∃ files markers, Run (apply cfg) anyStep (State.init files markers) s

end AowisMap.Maps
