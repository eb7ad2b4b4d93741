/-
How the tile store and the clients of its downloads are connected: the
`connect` calls of `startMapTileDownload`, its `get`, and the `cancel`
calls of `cancelUpstreamDownloads`.

A client lives as long as its download runs: its first signal makes the
store forget it (`deleteLater`).
-/
import AowisMap.Maps.TileHttpClient
import AowisMap.Maps.Tiles

namespace AowisMap.Maps

open Lib

/-- The two slots that a client's signals reach. -/
def Action.isCallback : Action → Bool
  | .requestFinished _ _ _ | .requestError _ _ => true
  | _ => false

/-- The failure a client's error is reported as. -/
def failureReason : TileHttpClient.RequestFailureReason → TileFailureReason
  | .timeout => .timeout
  | .cancelled => .cancelled
  | .upstreamError | .invalidResponse => .upstreamError

/-- The slot that a signal of a client reaches. -/
def callback (client : ClientId) : TileHttpClient.Outcome → Action
  | .requestFinished data mayStore => .requestFinished client data mayStore
  | .requestError reason _ => .requestError client (failureReason reason)

/-- The clients that `cancelUpstreamDownloads` lists. -/
def registered (d : Downloads) : List ClientId :=
  d.activeClients.entries.map (·.2)

/-- The calls a client gets from the network and its timers; the others
are its owner's. -/
def fromNetwork : TileHttpClient.Action → Bool
  | .get _ | .post _ | .cancel => false
  | .progress _ _ _ | .overallDeadline _ | .finished _ _
  | .retryDelay _ => true

/-- The objects of the store's clients. -/
abbrev Clients := QHash ClientId TileHttpClient.State

namespace Clients

/-- A new client, and its `get`. -/
def started (platform : TileHttpClient.Platform) (c : Client) :
    TileHttpClient.State :=
  TileHttpClient.get platform c.download.path TileHttpClient.State.init

/-- The objects once the downloads that were started have theirs, and
those that ended have lost it. -/
def connected (platform : TileHttpClient.Platform) (d : Downloads)
    (clients : Clients) : Clients :=
  QHash.filterMapValues (fun id c =>
    some ((clients.lookup id).getD (started platform c))) d.clients

/-- `cancel` on each of the listed clients. -/
def told (listed : List ClientId) (clients : Clients) : Clients :=
  QHash.filterMapValues (fun id client => some
    (if listed.contains id then TileHttpClient.cancel client else client))
    clients

/-- What an action of the store does to the objects that are there. -/
def ordered (a : Action) (d : Downloads) (clients : Clients) : Clients :=
  match a with
  | .cancelUpstreamDownloads => told (registered d) clients
  | _ => clients

end Clients

end AowisMap.Maps
