/-
The normalized tile store: `TerrainData::terrainTile` and what it calls,
as a machine of calls that threads and processes run at once
(`terrain_data.cpp`, with `CopernicusTerrainProvider::fetchTile`).

# The files

A tile lies in the file its dataset and address name. A file is read as
it stands at one moment, and replaced as a whole or not at all. It may be
deleted or changed from outside at any moment, also while it is being
read: then the reader may see anything.

# The calls

A call goes through phases: the first read, the wait for the lock of its
tile, the second read, the providers, the store. What a provider samples
and how a directory, a lock or a file operation turns out is chosen with
the action. The lock of a dead call, or of one that is taken for dead,
may be broken by the others.
-/
import AowisMap.Lib.Run
import AowisMap.Terrain.Tile

namespace AowisMap.Terrain.TileStore

open Lib

-- ============================================================= the tiles

/-- What a call asks for. -/
structure TileKey where
  dataset : String
  address : TerrainTileAddress
deriving DecidableEq

def terrainNormalizationRevision : Nat := 2

def terrainTileFileExtension : String := "aowterrain"

/-- `normalizedTerrainTileRelativePath`, its components written out one
behind the other. -/
def tileRelativePath (key : TileKey) : String :=
  if isValidTerrainDatasetId key.dataset = false ∨
      isValidTerrainTileAddress key.address = false then ""
  else String.ofList ('v' :: (QString.number terrainTileFormatVersion
    ++ '/' :: 'r' :: (QString.number terrainNormalizationRevision
    ++ '/' :: (key.dataset.toList
    ++ '/' :: (QString.number key.address.zoom
    ++ '/' :: (QString.number key.address.x
    ++ '/' :: (QString.number key.address.y
    ++ '.' :: terrainTileFileExtension.toList)))))))

/-- Whether a decoded tile is the one that was asked for. -/
def TileKey.names (key : TileKey) (tile : TerrainTile) : Bool :=
  tile.dataset == key.dataset && tile.address.zoom == key.address.zoom &&
    tile.address.x == key.address.x && tile.address.y == key.address.y

-- ========================================================= the providers

/-- The samples of a grid, no-data where there is none; each is a float.
-/
structure GridSamples where
  elevations : List (Option FloatValue)
  count : elevations.length = terrainTileSampleCount
  range : ∀ value, some (.finite value) ∈ elevations →
    -FloatValue.maximum ≤ value ∧ value ≤ FloatValue.maximum

/-- How the sampling of the source cells ends: with the fatal status of
the raster set, or with the samples. -/
inductive Sampling
  | failed (status : TerrainProviderFetchStatus) (errorMessage : String)
  | sampled (samples : GridSamples) (downloadedAnySource : Bool)

/-- What `fetchTile` returns. -/
structure TileFetchResult extends TerrainProviderFetchResult where
  tile : Option TerrainTile := none
  origin : TerrainDataOrigin := .unknown

/-- A tile a provider may return for a key: it names the key and its
elevations are floats. -/
structure FetchedFor (key : TileKey) (tile : TerrainTile) : Prop where
  dataset : tile.dataset = key.dataset
  address : tile.address = key.address
  range : ∀ value, .finite value ∈ tile.elevationsM →
    -FloatValue.maximum ≤ value ∧ value ≤ FloatValue.maximum

/-- `TerrainProvider`: what the store uses of it. -/
structure TerrainProvider where
  providerId : String
  supportsDataset : String → Bool
  supportsAddress : TileKey → Bool
  fetchTile : TileKey → Sampling → TileFetchResult
  fetched : ∀ key sampling tile,
    (fetchTile key sampling).tile = some tile → FetchedFor key tile

/-- `terrainProviderFetchStatusId`. -/
def terrainProviderFetchStatusId : TerrainProviderFetchStatus → String
  | .ready => "ready"
  | .unsupportedDataset => "unsupported-dataset"
  | .unsupportedAddress => "unsupported-address"
  | .sourceUnavailable => "source-unavailable"
  | .networkError => "network-error"
  | .sourceReadError => "source-read-error"
  | .conversionError => "conversion-error"
  | .cancelled => "cancelled"

namespace Copernicus

def copernicusDataset : String := "copernicus-glo30"

def copernicusMinimumNormalizedZoom : Int := 8

def copernicusMaximumNormalizedZoom : Int := 14

def copernicusNominalResolutionM : Rat := 30

/-- `CopernicusTerrainProvider::supportsDataset`. -/
def supportsDataset (dataset : String) : Bool := dataset == copernicusDataset

/-- `CopernicusTerrainProvider::supportsAddress`. -/
def supportsAddress (key : TileKey) : Bool :=
  supportsDataset key.dataset && isValidTerrainTileAddress key.address &&
    decide (copernicusMinimumNormalizedZoom ≤ key.address.zoom) &&
    decide (key.address.zoom ≤ copernicusMaximumNormalizedZoom)

/-- The tile that is made of samples. -/
def sampledTile (key : TileKey) (samples : GridSamples) : TerrainTile where
  address := key.address
  dataset := key.dataset
  nominalResolutionM := .finite copernicusNominalResolutionM
  verticalDatum := .egm2008
  elevationsM := samples.elevations.map fun sample => sample.getD .nan

/-- A failed fetch. -/
def fetchFailed (status : TerrainProviderFetchStatus) (errorMessage : String) :
    TileFetchResult where
  status := status
  errorMessage := errorMessage

/-- `CopernicusTerrainProvider::fetchTile`. -/
def fetchTile (key : TileKey) (sampling : Sampling) : TileFetchResult :=
  if supportsDataset key.dataset = false then
    fetchFailed .unsupportedDataset
      ("Copernicus provider does not support dataset: " ++ key.dataset)
  else if supportsAddress key = false then
    fetchFailed .unsupportedAddress
      ("Copernicus GLO-30 normalization supports XYZ zoom levels "
        ++ toString copernicusMinimumNormalizedZoom ++ " through "
        ++ toString copernicusMaximumNormalizedZoom)
  else match sampling with
  | .failed status errorMessage => fetchFailed status errorMessage
  | .sampled samples downloadedAnySource =>
      if samples.elevations.all Option.isNone then
        fetchFailed .sourceUnavailable
          ("Copernicus GLO-30 has no public source data for normalized tile "
            ++ toString key.address.zoom ++ "/" ++ toString key.address.x
            ++ "/" ++ toString key.address.y)
      else match terrainTileError (sampledTile key samples) with
      | some message => fetchFailed .conversionError
          ("Copernicus normalized terrain tile is invalid: " ++ message)
      | none =>
          { status := .ready
            errorMessage := ""
            tile := some (sampledTile key samples)
            origin := if downloadedAnySource then .remote else .cache }

/-- A tile made of samples is one for its key. -/
theorem sampledTile_fetchedFor (key : TileKey) (samples : GridSamples) :
    FetchedFor key (sampledTile key samples) where
  dataset := rfl
  address := rfl
  range value hmem := by
    obtain ⟨sample, hsample, heq⟩ := List.mem_map.1 hmem
    cases sample with
    | none => cases heq
    | some float =>
        have hfloat : float = .finite value := heq
        rw [hfloat] at hsample
        exact samples.range value hsample

/-- A tile that `fetchTile` returns is one for its key. -/
theorem fetchTile_fetchedFor (key : TileKey) (sampling : Sampling)
    (tile : TerrainTile) (h : (fetchTile key sampling).tile = some tile) :
    FetchedFor key tile := by
  unfold fetchTile at h
  split at h
  · cases h
  split at h
  · cases h
  cases sampling with
  | failed status errorMessage => cases h
  | sampled samples downloadedAnySource =>
      simp only at h
      split at h
      · cases h
      split at h
      · cases h
      · cases h
        exact sampledTile_fetchedFor key samples

/-- `CopernicusTerrainProvider`. -/
def provider : TerrainProvider where
  providerId := "copernicus"
  supportsDataset := supportsDataset
  supportsAddress := supportsAddress
  fetchTile := fetchTile
  fetched := fetchTile_fetchedFor

end Copernicus

-- ============================================================= the store

/-- The settings `TerrainData` was built with, and whether its
`initialize` succeeded. -/
structure Config where
  enabled : Bool := true
  initialized : Bool := true
  remoteFetchEnabled : Bool := true
  copernicusEnabled : Bool := true
  permitsTile : Int → Nat → Nat → Bool := fun _ _ _ => true
  normalized : String := "normalized"

/-- The providers of the constructor. -/
def Config.providers (config : Config) : List TerrainProvider :=
  if config.copernicusEnabled then [Copernicus.provider] else []

/-- `normalizedTilePath`. -/
def normalizedTilePath (config : Config) (key : TileKey) : String :=
  if tileRelativePath key = "" then ""
  else config.normalized ++ "/" ++ tileRelativePath key

/-- What lies at the path of a tile. -/
inductive TileFile
  | missing
  | notReadable
  | notOpened (errorString : String)
  | readable (data : Bytes)
deriving DecidableEq

/-- A lookup that failed. -/
def failed (status : TerrainTileLookupStatus) (errorMessage : String) :
    TerrainTileLookupResult where
  status := status
  errorMessage := errorMessage

/-- A lookup that found the tile. -/
def ready (data : Bytes) (origin : TerrainDataOrigin) :
    TerrainTileLookupResult where
  status := .ready
  data := data
  origin := origin

/-- The size no normalized tile exceeds. -/
def maximumNormalizedTileBytes : Nat :=
  64 + terrainTileMaximumDatasetIdBytes + terrainTileSampleCount * 2

/-- `readNormalizedTile`. -/
def readNormalizedTile (config : Config) (key : TileKey) :
    TileFile → TerrainTileLookupResult
  | .missing => failed .tileUnavailable "Normalized terrain tile is not cached"
  | .notReadable => failed .tileReadError
      ("Normalized terrain tile is not a readable file: "
        ++ normalizedTilePath config key)
  | .notOpened errorString => failed .tileReadError
      ("Failed to read normalized terrain tile "
        ++ normalizedTilePath config key ++ ": " ++ errorString)
  | .readable data =>
      if maximumNormalizedTileBytes < data.length then
        failed .corruptTile
          ("Normalized terrain tile exceeds format size limit: "
            ++ normalizedTilePath config key)
      else match decodeTerrainTile binary32 data with
      | .error decodeError => failed .corruptTile
          ("Failed to decode normalized terrain tile "
            ++ normalizedTilePath config key ++ ": " ++ decodeError)
      | .ok tile =>
          if key.names tile = false then
            failed .corruptTile
              ("Normalized terrain tile metadata does not match its cache "
                ++ "path: " ++ normalizedTilePath config key)
          else ready data .cache

-- ============================================================= the calls

/-- Where a call is. `corrupt` is what a read said of a corrupt tile. -/
inductive Phase
  | starting
  | locking (corrupt : Option TerrainTileLookupResult)
  | locked (corrupt : Option TerrainTileLookupResult)
  | fetching (corrupt : Option TerrainTileLookupResult)
      (rest : List TerrainProvider) (datasetSupported addressSupported : Bool)
  | storing (corrupt : Option TerrainTileLookupResult) (encoded : Bytes)
      (origin : TerrainDataOrigin)
  | returning (result : TerrainTileLookupResult)
  | returned (result : TerrainTileLookupResult)
  | died

/-- A call of `terrainTile`; `asked` counts the providers it asked. -/
structure Call where
  key : TileKey
  allowRemoteFetch : Bool
  phase : Phase
  asked : Nat := 0

/-- The checks before anything is read. -/
def checkedPhase (config : Config) (key : TileKey) : Phase :=
  if config.enabled = false then
    .returning (failed .disabled "Terrain subsystem is disabled")
  else if config.initialized = false then
    .returning (failed .notInitialized "Terrain subsystem is not initialized")
  else if isValidTerrainDatasetId key.dataset = false then
    .returning (failed .invalidDataset "Invalid terrain dataset identifier")
  else if isValidTerrainTileAddress key.address = false then
    .returning (failed .invalidAddress
      "Invalid normalized terrain tile address")
  else .starting

/-- A read that is the answer of the call. -/
def settles (result : TerrainTileLookupResult) : Bool :=
  result.status == .ready || result.status == .tileReadError

/-- What is remembered of a read that is not. -/
def corruptOf (result : TerrainTileLookupResult) :
    Option TerrainTileLookupResult :=
  if result.status = .corruptTile then some result else none

/-- The answer once nothing could be fetched and stored. -/
def unrepaired (corrupt : Option TerrainTileLookupResult)
    (fetched : TerrainTileLookupResult) : TerrainTileLookupResult :=
  match corrupt with
  | none => fetched
  | some result =>
      if fetched.errorMessage = "" then result
      else
        { result with
          errorMessage := result.errorMessage
            ++ "; automatic cache repair failed: " ++ fetched.errorMessage }

/-- The phase after the first read. -/
def afterFirstRead (result : TerrainTileLookupResult) : Phase :=
  if settles result then .returning result else .locking (corruptOf result)

/-- The phase after the read under the lock. -/
def afterLockedRead (config : Config)
    (initial : Option TerrainTileLookupResult)
    (result : TerrainTileLookupResult) : Phase :=
  if settles result then .returning result
  else .fetching ((corruptOf result).or initial) config.providers false false

/-- The answer after the last provider. -/
def exhausted (key : TileKey) (datasetSupported addressSupported : Bool) :
    TerrainTileLookupResult :=
  failed .tileUnavailable
    (if datasetSupported = false then
      "No terrain provider supports dataset '" ++ key.dataset ++ "'"
    else if addressSupported = false then
      "Terrain provider does not generate this normalized zoom level for "
        ++ "dataset '" ++ key.dataset ++ "'"
    else
      "Terrain provider has no available source data for this normalized "
        ++ "tile and dataset '" ++ key.dataset ++ "'")

/-- The phase after a provider was asked. -/
def afterFetch (corrupt : Option TerrainTileLookupResult)
    (provider : TerrainProvider) (rest : List TerrainProvider)
    (fetched : TileFetchResult) : Phase :=
  if fetched.status = .sourceUnavailable ∨
      fetched.status = .unsupportedAddress then
    .fetching corrupt rest true true
  else if fetched.status = .networkError ∨ fetched.status = .cancelled then
    .returning (unrepaired corrupt
      (failed .remoteFetchError fetched.errorMessage))
  else match fetched.status, fetched.tile with
  | .ready, some tile =>
      match encodeTerrainTile binary32 tile with
      | .ok encoded => .storing corrupt encoded fetched.origin
      | .error encodeError => .returning (unrepaired corrupt
          (failed .providerError
            ("Failed to encode normalized terrain tile from provider "
              ++ provider.providerId ++ ": " ++ encodeError)))
  | status, _ => .returning (unrepaired corrupt
      (failed .providerError
        (if fetched.errorMessage = "" then
          "Terrain provider " ++ provider.providerId ++ " failed: "
            ++ terrainProviderFetchStatusId status
        else fetched.errorMessage)))

/-- Whether a call lets its providers fetch from upstream. -/
def Call.allows (config : Config) (call : Call) : Bool :=
  call.allowRemoteFetch && config.remoteFetchEnabled &&
    config.permitsTile call.key.address.zoom call.key.address.x
      call.key.address.y

/-- One round of the loop over the providers. -/
def fetchRound (config : Config) (call : Call)
    (corrupt : Option TerrainTileLookupResult)
    (rest : List TerrainProvider) (datasetSupported addressSupported : Bool)
    (sampling : Bool → Sampling) : Call :=
  match rest with
  | [] =>
      { call with
        phase := .returning (unrepaired corrupt
          (exhausted call.key datasetSupported addressSupported)) }
  | provider :: rest =>
      if provider.supportsDataset call.key.dataset = false then
        { call with
          phase := .fetching corrupt rest datasetSupported addressSupported }
      else if provider.supportsAddress call.key = false then
        { call with
          phase := .fetching corrupt rest true addressSupported }
      else
        { call with
          phase := afterFetch corrupt provider rest
            (provider.fetchTile call.key (sampling (call.allows config)))
          asked := call.asked + 1 }

-- =========================================================== the machine

/-- How the way to the lock ends. -/
inductive LockOutcome
  | directoryFailed (errorMessage : String)
  | timedOut
  | taken

/-- How the replacement of a file ends. -/
inductive StoreOutcome
  | directoryFailed (errorMessage : String)
  | notOpened (errorString : String)
  | notWritten (errorString : String)
  | notCommitted (errorString : String)
  | committed
deriving DecidableEq

/-- The answer of a call whose tile was not stored. -/
def StoreOutcome.failure (config : Config) (key : TileKey) :
    StoreOutcome → Option TerrainTileLookupResult
  | .directoryFailed errorMessage => some (failed .tileReadError errorMessage)
  | .notOpened errorString => some (failed .tileReadError
      ("Failed to create normalized terrain tile "
        ++ normalizedTilePath config key ++ ": " ++ errorString))
  | .notWritten errorString => some (failed .tileReadError
      ("Failed to write normalized terrain tile "
        ++ normalizedTilePath config key ++ ": " ++ errorString))
  | .notCommitted errorString => some (failed .tileReadError
      ("Failed to commit normalized terrain tile "
        ++ normalizedTilePath config key ++ ": " ++ errorString))
  | .committed => none

/-- The files, the holders of the locks and the calls. -/
structure Store where
  files : TileKey → TileFile
  locks : TileKey → Option Nat
  calls : Nat → Option Call

/-- Before the first call, over any files. -/
def Store.init (files : TileKey → TileFile) : Store where
  files := files
  locks _ := none
  calls _ := none

namespace Store

def setCall (s : Store) (id : Nat) (call : Call) : Store :=
  { s with calls := Function.update s.calls id (some call) }

def setFile (s : Store) (key : TileKey) (file : TileFile) : Store :=
  { s with files := Function.update s.files key file }

def setLock (s : Store) (key : TileKey) (holder : Option Nat) : Store :=
  { s with locks := Function.update s.locks key holder }

/-- Moves a call to its next phase. -/
def move (s : Store) (id : Nat) (call : Call) (phase : Phase) : Store :=
  s.setCall id { call with phase := phase }

/-- Frees a lock its holder gives back. -/
def release (s : Store) (id : Nat) (key : TileKey) : Store :=
  if s.locks key = some id then s.setLock key none else s

@[simp] theorem setCall_files (s : Store) (id : Nat) (call : Call) :
    (s.setCall id call).files = s.files := rfl

@[simp] theorem setCall_locks (s : Store) (id : Nat) (call : Call) :
    (s.setCall id call).locks = s.locks := rfl

@[simp] theorem setFile_calls (s : Store) (key : TileKey) (file : TileFile) :
    (s.setFile key file).calls = s.calls := rfl

@[simp] theorem setFile_locks (s : Store) (key : TileKey) (file : TileFile) :
    (s.setFile key file).locks = s.locks := rfl

@[simp] theorem setLock_calls (s : Store) (key : TileKey)
    (holder : Option Nat) : (s.setLock key holder).calls = s.calls := rfl

@[simp] theorem setLock_files (s : Store) (key : TileKey)
    (holder : Option Nat) : (s.setLock key holder).files = s.files := rfl

@[simp] theorem release_calls (s : Store) (id : Nat) (key : TileKey) :
    (s.release id key).calls = s.calls := by
  unfold release
  split
  · rfl
  · rfl

@[simp] theorem release_files (s : Store) (id : Nat) (key : TileKey) :
    (s.release id key).files = s.files := by
  unfold release
  split
  · rfl
  · rfl

@[simp] theorem setCall_self (s : Store) (id : Nat) (call : Call) :
    (s.setCall id call).calls id = some call := Function.update_self ..

theorem setCall_of_ne (s : Store) {id other : Nat} (call : Call)
    (h : other ≠ id) : (s.setCall id call).calls other = s.calls other :=
  Function.update_of_ne h ..

/-- A call after another one moved: it is the one that moved, or it was
there. -/
theorem setCall_inv {s : Store} {id other : Nat} {call call' : Call}
    (h : (s.setCall id call).calls other = some call') :
    (other = id ∧ call' = call) ∨
      (other ≠ id ∧ s.calls other = some call') := by
  by_cases heq : other = id
  · subst heq
    rw [setCall_self] at h
    exact Or.inl ⟨rfl, (Option.some.inj h).symm⟩
  · rw [setCall_of_ne s call heq] at h
    exact Or.inr ⟨heq, h⟩

end Store

inductive Action
  /-- A call begins. -/
  | call (id : Nat) (key : TileKey) (allowRemoteFetch : Bool)
  /-- A call reads its file; `seen` is what it makes of a file that is
  deleted or changed under it. -/
  | read (id : Nat) (seen : Option TileFile)
  | lock (id : Nat) (outcome : LockOutcome)
  | fetch (id : Nat) (sampling : Bool → Sampling)
  | store (id : Nat) (outcome : StoreOutcome)
  /-- A call returns, giving back its lock. -/
  | ret (id : Nat)
  /-- The process of a call dies. -/
  | die (id : Nat)
  /-- A lock is taken for stale and removed. -/
  | breakLock (key : TileKey)
  /-- `deleteNormalizedTiles` removes a file. -/
  | delete (key : TileKey)
  /-- Somebody else changes a file. -/
  | change (key : TileKey) (file : TileFile)

/-- A read by a call. -/
def readStep (config : Config) (id : Nat) (call : Call) (file : TileFile)
    (s : Store) : Option Store :=
  let result := readNormalizedTile config call.key file
  match call.phase with
  | .starting => some (s.move id call (afterFirstRead result))
  | .locked initial =>
      some (s.move id call (afterLockedRead config initial result))
  | _ => none

/-- The way to the lock; it is taken only while nobody holds it. -/
def lockStep (config : Config) (id : Nat) (call : Call)
    (outcome : LockOutcome) (s : Store) : Option Store :=
  match call.phase, outcome with
  | .locking _, .directoryFailed errorMessage => some (s.move id call
      (.returning (failed .tileReadError errorMessage)))
  | .locking _, .timedOut => some (s.move id call
      (.returning (failed .providerError
        ("Timed out waiting for normalized terrain cache fill: "
          ++ normalizedTilePath config call.key))))
  | .locking initial, .taken =>
      if s.locks call.key = none then
        some ((s.setLock call.key (some id)).move id call (.locked initial))
      else none
  | _, _ => none

/-- A round of the loop over the providers. -/
def fetchStep (config : Config) (id : Nat) (call : Call)
    (sampling : Bool → Sampling) (s : Store) : Option Store :=
  match call.phase with
  | .fetching corrupt rest datasetSupported addressSupported =>
      some (s.setCall id (fetchRound config call corrupt rest datasetSupported
        addressSupported sampling))
  | _ => none

/-- The replacement of the file. -/
def storeStep (config : Config) (id : Nat) (call : Call)
    (outcome : StoreOutcome) (s : Store) : Option Store :=
  match call.phase with
  | .storing corrupt encoded origin =>
      match outcome.failure config call.key with
      | some result =>
          some (s.move id call (.returning (unrepaired corrupt result)))
      | none =>
          some ((s.setFile call.key (.readable encoded)).move id call
            (.returning (ready encoded origin)))
  | _ => none

/-- The end of a call. -/
def retStep (id : Nat) (call : Call) (s : Store) : Option Store :=
  match call.phase with
  | .returning result =>
      some ((s.release id call.key).move id call (.returned result))
  | _ => none

/-- A process dies; the lock it may hold stays. -/
def dieStep (id : Nat) (call : Call) (s : Store) : Option Store :=
  match call.phase with
  | .returned _ => none
  | _ => some (s.move id call .died)

/-- One step. -/
def next (config : Config) (a : Action) (s : Store) : Option Store :=
  match a with
  | .call id key allowRemoteFetch =>
      match s.calls id with
      | none => some (s.setCall id
          { key := key
            allowRemoteFetch := allowRemoteFetch
            phase := checkedPhase config key })
      | some _ => none
  | .read id seen => (s.calls id).bind fun call =>
      readStep config id call (seen.getD (s.files call.key)) s
  | .lock id outcome => (s.calls id).bind fun call =>
      lockStep config id call outcome s
  | .fetch id sampling => (s.calls id).bind fun call =>
      fetchStep config id call sampling s
  | .store id outcome => (s.calls id).bind fun call =>
      storeStep config id call outcome s
  | .ret id => (s.calls id).bind fun call => retStep id call s
  | .die id => (s.calls id).bind fun call => dieStep id call s
  | .breakLock key => some (s.setLock key none)
  | .delete key => some (s.setFile key .missing)
  | .change key file => some (s.setFile key file)

end AowisMap.Terrain.TileStore
