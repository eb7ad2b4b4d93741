/-
The map tile endpoint: the registry of HTTP promises waiting for a tile,
on top of the tile store.

Both live on the HTTP event-loop thread, and the store's signals reach
`onTileReady` and `onTileFailed` by direct connection. The handlers touch
the promise registry only, so delivering the signals of a transition
behind it, in order, is what the code does.

A request either is answered at once, or leaves one promise under its
response key. Everything else that happens to the store is a `store`
action: callbacks of its downloads, writes and reads, the administrative
routes that delete, cancel or reconfigure, and in-process requests under
any key.

Promises are numbered as they are created and their completions recorded
in order, and a reply keeps the tile that its bytes are; no transition reads
any of this. The destructor is not modelled.
-/
import AowisMap.Maps.Tiles
import AowisMap.Server.Terrain

namespace AowisMap.Server.TileEndpoint

open Lib Maps

-- ======================================================== configuration

/-- The fields of `Server::Config` the tile store and its endpoint read,
and what the store's configuration takes from libraries. -/
structure TileConfig where
  cacheDirectory : String
  permanentDataDirectory : String := ""
  maximumActiveDownloads : Int := 32
  maximumPendingRequests : Int := 2048
  mapRemoteFetchEnabled : Bool := true
  mapProviders : List MapProvider := defaultMapProviders
  downloadCoverage : Coverage := Coverage.empty
  mapCoverage : String := ""
  parseUrl : String → UrlParts
  fingerprint : String → String

/-- The configuration the store is constructed with. -/
def TileConfig.store (cfg : TileConfig) : Maps.Config where
  cacheBaseDirectory := cfg.cacheDirectory
  maximumActiveDownloads := cfg.maximumActiveDownloads
  maximumQueuedDownloads := cfg.maximumPendingRequests
  parseUrl := cfg.parseUrl
  fingerprint := cfg.fingerprint

-- =============================================================== state

/-- A response, and the tile that it was made of, if it was. -/
structure TileReply where
  response : HttpResponse
  tile : Option Blob := none
deriving DecidableEq

/-- A recorded completion. -/
structure TileCompletion where
  promise : Promise
  reply : TileReply
deriving DecidableEq

structure State where
  maptiles : Maps.State
  connectionsPending : QHash String (List Promise)
  pendingRequestCount : Int
  nextPromise : Promise
  completed : List TileCompletion

/-- The server after its constructor, on the files it finds. -/
def State.init (cfg : TileConfig) (files : QHash TilePath OutsideFile)
    (markers : QHash String String) : State where
  maptiles := configureProviders cfg.mapProviders cfg.downloadCoverage
    cfg.mapCoverage
    (setPermanentDataDirectory cfg.permanentDataDirectory
      (setRemoteFetchEnabled cfg.mapRemoteFetchEnabled
        (Maps.State.init files markers)))
  connectionsPending := ∅
  pendingRequestCount := 0
  nextPromise := 0
  completed := []

-- ============================================================ responses

/-- `mapTileMimeType`. -/
def mapTileMimeType (data : Bytes) : String :=
  if data.take 3 = [0xff, 0xd8, 0xff] then "image/jpeg"
  else if data.length ≥ 12 ∧ data.take 4 = [0x52, 0x49, 0x46, 0x46]
      ∧ (data.drop 8).take 4 = [0x57, 0x45, 0x42, 0x50] then "image/webp"
  else "image/png"

/-- A reply with a text. -/
def textReply (status : Nat) (message : String) : TileReply where
  response := ⟨status, .text message⟩

/-- The reply with a tile. -/
def tileReply (data : Blob) : TileReply where
  response := ⟨200, .bytes (mapTileMimeType data.bytes) data.bytes⟩
  tile := some data

/-- The reply to a failure of each reason. -/
def failureReply : TileFailureReason → TileReply
  | .upstreamError => textReply 502 "Failed to download map tile"
  | .timeout => textReply 504 "Map tile download timed out"
  | .cancelled => textReply 503 "Map tile upstream download canceled"

/-- What a signal is answered with. -/
def signalReply : Signal → TileReply
  | .tileReady _ data => tileReply data
  | .tileFailed _ reason => failureReply reason

-- ============================================================= promises

/-- `addResult` and `finish` on each of a list of promises. -/
def finishAll (promises : List Promise) (reply : TileReply) (s : State) :
    State :=
  { s with completed := s.completed ++ promises.map fun p => ⟨p, reply⟩ }

/-- `appendPendingPromise`. -/
def appendPendingPromise (cfg : TileConfig) (key : String) (p : Promise)
    (s : State) : Option State :=
  if s.pendingRequestCount ≥ cfg.maximumPendingRequests then none
  else some
    { s with
      connectionsPending := s.connectionsPending.insert key
        ((s.connectionsPending.lookup key).getD [] ++ [p])
      pendingRequestCount := s.pendingRequestCount + 1 }

/-- `takePendingPromises`. -/
def takePendingPromises (key : String) (s : State) : List Promise × State :=
  let promises := (s.connectionsPending.lookup key).getD []
  (promises,
    { s with
      connectionsPending := s.connectionsPending.erase key
      pendingRequestCount := s.pendingRequestCount - promises.length })

/-- `onTileReady` and `onTileFailed`. -/
def onSignal (s : State) (signal : Signal) : State :=
  let taken := takePendingPromises signal.key s
  finishAll taken.1 (signalReply signal) taken.2

/-- Delivers the signals of the transition just taken. -/
def deliver (s : State) : State :=
  s.maptiles.outbox.foldl onSignal s

-- ============================================================= requests

/-- A GET of `/<provider>/<z>/<x>/<y>.png`: whether it was authorized and
whether it asked for cache-first delivery. -/
structure TileGet where
  provider : String
  z : Int
  x : Int
  y : Int
  authorized : Bool := true
  cacheFirst : Bool := false

/-- The response key of a request. -/
def TileGet.key (request : TileGet) : String :=
  String.ofList (QString.arg (QString.arg (QString.arg (QString.arg
    "%1_%2_%3_%4".toList request.provider.toList)
    (QString.number request.z)) (QString.number request.x))
    (QString.number request.y))

/-- The answers a request gets at once, by the store's status. -/
def readyReply (cacheFirst : Bool) (result : TileRequestResult) :
    Option TileReply :=
  match result.status with
  | .ready => some (tileReply result.data)
  | .invalidRequest => some (textReply 400 "Invalid map tile request")
  | .serverBusy => some (textReply 503 "Map tile download queue is full")
  | .pending =>
      if cacheFirst then some (textReply 202 "Map tile is being fetched")
      else none

/-- A request whose tile is pending: a promise is created, and waits or
is refused. -/
def awaitTile (cfg : TileConfig) (key : String) (s : State) : State :=
  let p := s.nextPromise
  let s := { s with nextPromise := s.nextPromise + 1 }
  match appendPendingPromise cfg key p s with
  | some s => s
  | none =>
      finishAll [p] (textReply 503 "Too many pending map tile requests") s

/-- The handler of a GET: the answer given at once, if any. -/
def getTile (cfg : TileConfig) (choice : Choice) (request : TileGet)
    (s : State) : Option TileReply × State :=
  if request.authorized then
    let result := getTileForHttp cfg.store choice request.provider request.z
      request.x request.y request.key { s.maptiles with outbox := [] }
    let s := deliver
      { s with maptiles := answered request.key result }
    match readyReply request.cacheFirst result.1 with
    | some reply => (some reply, s)
    | none => (none, awaitTile cfg request.key s)
  else (some (textReply 401 "Missing or invalid API key"), s)

-- ========================================================== transitions

inductive Action
  | get (choice : Choice) (request : TileGet)
  | store (a : Maps.Action)

/-- The endpoint's transition function. -/
def apply (cfg : TileConfig) (a : Action) (s : State) : Option State :=
  match a with
  | .get choice request => some (getTile cfg choice request s).2
  | .store a =>
      (Maps.apply cfg.store a s.maptiles).map fun maptiles =>
        deliver { s with maptiles := maptiles }

/-- Reachable states of the tile store under the server. -/
def Reachable (cfg : TileConfig) (s : State) : Prop :=
  ∃ files markers, Run (apply cfg) anyStep (State.init cfg files markers) s

end AowisMap.Server.TileEndpoint
