/-
The map tile endpoint with the clients of its downloads: what reaches it
are tile requests, the other actions of the tile store, and the network.

# One event loop

The endpoint, the store and the clients share the event loop, and their
signals are connected directly. So a signal of a client and the slot it
reaches are one transition, and so are a download's start and its `get`.
The store's own machine lets a client report anything at any time; here
the two client callbacks come from `TileHttpClient` objects only.
-/
import AowisMap.Maps.TileClients
import AowisMap.Server.Tiles

namespace AowisMap.Server.TileEndpoint

open Lib Maps

/-- The endpoint and the objects of its store's clients. -/
structure Networked where
  server : State
  clients : Clients

/-- What reaches the endpoint. -/
inductive NetworkedAction
  | get (choice : Choice) (request : TileGet)
  | store (a : Maps.Action)
  | network (client : ClientId) (event : TileHttpClient.Action)

/-- An action of the endpoint, and the objects behind it. -/
def serve (cfg : TileConfig) (platform : TileHttpClient.Platform)
    (a : Action) (clients : Clients) (s : State) : Option Networked :=
  (apply cfg a s).map fun s' =>
    ⟨s', Clients.connected platform s'.maptiles.downloads clients⟩

/-- The signal a client emitted in its last event. -/
def lastSignal (before after : TileHttpClient.State) :
    Option TileHttpClient.Outcome :=
  (after.emitted.drop before.emitted.length).head?.map (·.outcome)

/-- An event of a client, and the slot its signal reaches. -/
def clientEvent (cfg : TileConfig) (toLower : List Char → List Char)
    (platform : TileHttpClient.Platform) (id : ClientId)
    (event : TileHttpClient.Action) (client : TileHttpClient.State)
    (w : Networked) : Option Networked :=
  match TileHttpClient.next toLower platform event client with
  | none => none
  | some client' =>
      let clients := w.clients.insert id client'
      match lastSignal client client' with
      | none => some { w with clients := clients }
      | some outcome =>
          serve cfg platform (.store (callback id outcome)) clients w.server

/-- The transition function of the endpoint with its clients. -/
def networked (cfg : TileConfig) (toLower : List Char → List Char)
    (platform : TileHttpClient.Platform) (a : NetworkedAction)
    (w : Networked) : Option Networked :=
  match a with
  | .get choice request =>
      serve cfg platform (.get choice request) w.clients w.server
  | .store a =>
      if a.isCallback then none
      else serve cfg platform (.store a)
        (w.clients.ordered a w.server.maptiles.downloads) w.server
  | .network id event =>
      if fromNetwork event then
        (w.clients.lookup id).bind fun client =>
          clientEvent cfg toLower platform id event client w
      else none

def Networked.init (cfg : TileConfig) (files : QHash TilePath OutsideFile)
    (markers : QHash String String) : Networked where
  server := State.init cfg files markers
  clients := ∅

/-- Reachable states of the endpoint with its clients. -/
def NetworkedReachable (cfg : TileConfig)
    (toLower : List Char → List Char) (platform : TileHttpClient.Platform)
    (w : Networked) : Prop :=
  ∃ files markers, Run (networked cfg toLower platform) anyStep
    (Networked.init cfg files markers) w

end AowisMap.Server.TileEndpoint
