/-
The administrative routes of the server: the five DELETE handlers, the
key they ask for, and the checks at start.

# What a request presents

A handler reads two headers, `X-API-Key` and `Authorization`; a header
that is missing reads as empty (`RequestHeaders`).

# What a handler does

Cancellations and the deletion of map tiles run in the handler. The
terrain deletions are submitted as jobs and run later on a worker
(`jobRuns`); a job keeps the headers of the request that submitted it as
history. What all other requests, callbacks and workers do to the stored
data is `other`: any change at all. The terrain providers are a
parameter (`ProviderOperations`), over a state of their own.
-/
import AowisMap.Lib.QByteArray
import AowisMap.Lib.Run
import AowisMap.Maps.Tiles
import AowisMap.Server.Responses
import AowisMap.Server.Terrain
import AowisMap.Terrain.Deletion

namespace AowisMap.Server

open Lib Lib.QByteArray Terrain

-- ======================================================== configuration

/-- The fields of `Server::Config` that `start` and the administrative
routes read. -/
structure AdminConfig where
  cacheDirectory : String := "cache"
  apiKey : Bytes := []
  deleteApiKey : Bytes := []
  requireApiKey : Bool := false
  requireDeleteApiKey : Bool := false
  limits : Config := {}
  mapTiles : Maps.Config
  terrain : TileStore.Config := {}

/-- What `start` finds: the cache directory, the terrain subsystem and
the socket. -/
structure StartWorld where
  cacheDirectoryMade : Bool := true
  cacheDirectoryWritable : Bool := true
  terrainInitialized : Bool := true
  listening : Bool := true
  bound : Bool := true

/-- `Server::start`. -/
def start (config : AdminConfig) (world : StartWorld) : Bool :=
  if config.requireApiKey = true ∧ config.apiKey = [] then false
  else if config.requireDeleteApiKey = true ∧ config.deleteApiKey = [] then
    false
  else if QString.trimmed config.cacheDirectory.toList = [] ∨
      world.cacheDirectoryMade = false then false
  else if world.cacheDirectoryWritable = false then false
  else if world.terrainInitialized = false then false
  else if world.listening = false then false
  else world.bound

-- ======================================================= authorization

/-- The two headers a handler reads. -/
structure RequestHeaders where
  xApiKey : Bytes := []
  authorization : Bytes := []
deriving DecidableEq, Repr

/-- `secureEquals`: the loop goes to the end of the longer array, whatever
differs. -/
def secureEquals (left right : Bytes) : Bool :=
  (List.range (max left.length right.length)).foldl
    (fun difference index =>
      difference ||| (left.getD index 0 ^^^ right.getD index 0).toNat)
    (left.length ^^^ right.length) == 0

/-- The lower case of an ASCII letter. -/
def toLowerAscii (byte : UInt8) : UInt8 :=
  if 65 ≤ byte ∧ byte ≤ 90 then byte + 32 else byte

/-- `QByteArray::compare` without case, as far as it tells equal. -/
def equalsIgnoringCase (left right : Bytes) : Bool :=
  left.map toLowerAscii == right.map toLowerAscii

/-- `bearer_prefix`. -/
def bearerScheme : Bytes := ascii "Bearer "

/-- `requestContainsKey`. -/
def requestContainsKey (headers : RequestHeaders) (expectedKey : Bytes) :
    Bool :=
  if secureEquals headers.xApiKey expectedKey then true
  else if headers.authorization.length ≤ bearerScheme.length ∨
      equalsIgnoringCase (headers.authorization.take bearerScheme.length)
        bearerScheme = false then false
  else secureEquals (headers.authorization.drop bearerScheme.length)
    expectedKey

/-- `isDeleteAuthorized`. -/
def isDeleteAuthorized (config : AdminConfig) (headers : RequestHeaders) :
    Bool :=
  if config.deleteApiKey = [] then true
  else requestContainsKey headers config.deleteApiKey

-- ============================================================= responses

/-- `makeUnauthorizedResponse`. -/
def makeUnauthorizedResponse : HttpResponse :=
  ⟨401, .text "Missing or invalid API key"⟩

/-- The status code of a deletion that is not `Deleted`. -/
def deletionErrorStatus : TerrainCacheDeletionStatus → Nat
  | .disabled | .notInitialized => 503
  | .invalidDataset | .invalidRange => 400
  | .failed | .deleted => 500

/-- `makeTerrainCacheDeletionResponse`. -/
def makeTerrainCacheDeletionResponse (result : TerrainCacheDeletionResult) :
    HttpResponse :=
  if result.status = .deleted then
    ⟨200, .text (toString result.deletedCount)⟩
  else
    ⟨deletionErrorStatus result.status, .text
      (if result.errorMessage = "" then
        "Terrain cache deletion failed: "
          ++ terrainCacheDeletionStatusId result.status
      else result.errorMessage)⟩

/-- The answer to a map tile deletion, by its return value. -/
def mapDeletionResponse (deletedCount : Int) : HttpResponse :=
  if deletedCount = -1 then
    ⟨400, .text "Invalid tile cache deletion request"⟩
  else if deletedCount < -1 then
    ⟨500, .text "Failed to delete one or more cached tiles"⟩
  else ⟨200, .text (toString deletedCount)⟩

-- ============================================================= the state

/-- Everything the routes may change: map tiles with their RAM cache and
downloads, normalized terrain tiles, and what the terrain providers
hold. -/
structure Stored (σ : Type) where
  maps : Maps.State
  normalized : NormalizedFiles
  providers : σ

/-- What the routes use of the terrain providers. -/
structure ProviderOperations (σ : Type) where
  cancelUpstreamDownloads : σ → σ
  deleteSourceData : TerrainRange → σ → TerrainCacheDeletionResult × σ

/-- The terrain deletions that run as jobs. -/
inductive TerrainDeletion
  | cache (range : TerrainRange)
  | source (range : TerrainRange)
deriving DecidableEq, Repr

/-- A submitted deletion; `headers` is history. -/
structure DeletionJob where
  deletion : TerrainDeletion
  headers : RequestHeaders
deriving DecidableEq, Repr

structure AdminState (σ : Type) where
  stored : Stored σ
  terrainAdmission : Int := 0
  shuttingDown : Bool := false
  jobs : List DeletionJob := []

-- ============================================================== handlers

/-- The five DELETE routes. -/
inductive DeleteRoute
  | upstreamMapTiles
  | upstreamTerrain
  | cache (range : Maps.TileRange)
  | terrainCache (range : TerrainRange)
  | terrainSource (range : TerrainRange)
deriving DecidableEq, Repr

/-- What a handler finds out from the file system. -/
structure DeletionWorld where
  choice : Maps.Choice := {}
  tileRefuses : Maps.TilePath → Bool := fun _ => false
  normalizedRefuses : NormalizedFile → Bool := fun _ => false

variable {σ : Type} (config : AdminConfig) (operations : ProviderOperations σ)

/-- `submitTerrainJob`: the job answers later, unless it is refused. -/
def submitDeletion (deletion : TerrainDeletion) (headers : RequestHeaders)
    (s : AdminState σ) : Option HttpResponse × AdminState σ :=
  if s.shuttingDown then (some terrainServiceBusy, s)
  else match TerrainAdmission.tryAcquire config.limits.terrainLimit
      s.terrainAdmission with
    | some outstanding =>
        (none, { s with
          terrainAdmission := outstanding
          jobs := s.jobs ++ [⟨deletion, headers⟩] })
    | none => (some terrainServiceBusy, s)

/-- The handler of a DELETE route: its answer, if it has one already, and
the state it leaves. -/
def handleDelete (world : DeletionWorld) (route : DeleteRoute)
    (headers : RequestHeaders) (s : AdminState σ) :
    Option HttpResponse × AdminState σ :=
  if isDeleteAuthorized config headers = false then
    (some makeUnauthorizedResponse, s)
  else match route with
    | .upstreamMapTiles =>
        (some ⟨200, .text "Map tile upstream downloads canceled"⟩,
          { s with stored := { s.stored with
            maps := Maps.cancelUpstreamDownloads s.stored.maps } })
    | .upstreamTerrain =>
        (some ⟨200, .text "Terrain upstream downloads canceled"⟩,
          { s with stored := { s.stored with
            providers :=
              operations.cancelUpstreamDownloads s.stored.providers } })
    | .cache range =>
        let deleted := Maps.deleteTiles config.mapTiles world.choice range
          world.tileRefuses s.stored.maps
        (some (mapDeletionResponse deleted.1),
          { s with stored := { s.stored with maps := deleted.2 } })
    | .terrainCache range => submitDeletion config (.cache range) headers s
    | .terrainSource range => submitDeletion config (.source range) headers s

/-- A worker runs a deletion job to its answer. -/
def runDeletion (world : DeletionWorld) (deletion : TerrainDeletion)
    (s : Stored σ) : HttpResponse × Stored σ :=
  match deletion with
  | .cache range =>
      let deleted := deleteNormalizedTiles config.terrain range
        world.normalizedRefuses s.normalized
      (makeTerrainCacheDeletionResponse deleted.1,
        { s with normalized := deleted.2 })
  | .source range =>
      let deleted := operations.deleteSourceData range s.providers
      (makeTerrainCacheDeletionResponse deleted.1,
        { s with providers := deleted.2 })

-- =========================================================== transitions

inductive AdminAction (σ : Type)
  | delete (world : DeletionWorld) (route : DeleteRoute)
      (headers : RequestHeaders)
  /-- A worker takes a submitted deletion; the guard releases its slot. -/
  | jobRuns (world : DeletionWorld) (index : Nat)
  /-- What other requests, callbacks and workers change. -/
  | other (stored : Stored σ) (terrainAdmission : Int) (shuttingDown : Bool)

/-- One transition. -/
def adminStep (a : AdminAction σ) (s : AdminState σ) :
    Option (AdminState σ) :=
  match a with
  | .delete world route headers =>
      some (handleDelete config operations world route headers s).2
  | .jobRuns world index =>
      (s.jobs[index]?).map fun job =>
        { s with
          stored := (runDeletion config operations world job.deletion
            s.stored).2
          terrainAdmission := TerrainAdmission.release s.terrainAdmission
          jobs := s.jobs.eraseIdx index }
  | .other stored terrainAdmission shuttingDown =>
      some { s with
        stored := stored
        terrainAdmission := terrainAdmission
        shuttingDown := shuttingDown }

end AowisMap.Server
