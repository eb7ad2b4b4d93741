/-
The map tile endpoint under provider catalogues that change, and somebody
who watches its answers.

# The exchange

`exchange` is the endpoint with what reaches it from outside named as
such: tile requests, PUTs of `/map/v1/providers`, and the callbacks and
workers of the tile store. A PUT cancels the upstream downloads and then
configures the store, in one handler, so it is one transition.

# The watcher

The watcher remembers, for every request whose promise waits, which
template its provider had when it came (`Question`), and forgets it when
a PUT gives the provider another template. An answer with image bytes is
recorded with the bytes and the template of its question, whether it was
given at once or by a later signal (`Answer`). No transition of the
server reads any of it: `exchange_server` in Proofs/Upstream.lean.
-/
import AowisMap.Server.Tiles
import AowisMap.Maps.Proofs.Upstream

namespace AowisMap.Server.TileEndpoint

open Lib Maps

-- ============================================================ catalogues

/-- A PUT of `/map/v1/providers`, once its body was checked and saved. -/
def putProviders (cfg : TileConfig) (providers : List MapProvider)
    (s : State) : Option State :=
  (apply cfg (.store .cancelUpstreamDownloads) s).bind
    (apply cfg (.store (.configureProviders providers cfg.downloadCoverage
      cfg.mapCoverage)))

-- =========================================================== the watcher

/-- A request that waits, and the template its provider had. -/
structure Question where
  promise : Promise
  request : TileGet
  template : String

/-- An answer with image bytes, and the template its question was asked
under. -/
structure Answer where
  provider : String
  template : String
  data : Blob

/-- The answer to a question. -/
def Question.answer (q : Question) (data : Blob) : Answer :=
  ⟨q.request.provider, q.template, data⟩

structure Watched where
  server : State
  waiting : List Question
  answers : List Answer

/-- The server after its constructor, on an empty cache directory. -/
def Watched.init (cfg : TileConfig) : Watched where
  server := State.init cfg ∅ ∅
  waiting := []
  answers := []

/-- The promises that wait under a key. -/
def waitingAt (s : State) (key : String) : List Promise :=
  (s.connectionsPending.lookup key).getD []

/-- A delivered signal: the questions it completes are answered. -/
def hear (w : Watched) (signal : Signal) : Watched :=
  let completed := waitingAt w.server signal.key
  { server := onSignal w.server signal
    waiting := w.waiting.filter fun q => !completed.contains q.promise
    answers := match signal with
      | .tileReady _ data => w.answers ++ (w.waiting.filter fun q =>
          completed.contains q.promise).map fun q => q.answer data
      | .tileFailed _ _ => w.answers }

/-- A transition of the store, its signals delivered and heard. -/
def hearStore (cfg : TileConfig) (a : Maps.Action) (w : Watched) :
    Option Watched :=
  (Maps.apply cfg.store a w.server.maptiles).map fun maptiles =>
    maptiles.outbox.foldl hear
      { w with server := { w.server with maptiles := maptiles } }

/-- A tile request: it is answered with image bytes at once, or its
promise waits, or it is refused. -/
def ask (cfg : TileConfig) (choice : Choice) (request : TileGet)
    (w : Watched) : Watched :=
  let result := (getTileForHttp cfg.store choice request.provider request.z
    request.x request.y request.key
    { w.server.maptiles with outbox := [] }).1
  let heard : Watched :=
    { w with server := (getTile cfg choice request w.server).2 }
  match templateOf w.server.maptiles.configuredProviders
      request.provider with
  | none => heard
  | some template =>
      let q : Question := ⟨w.server.nextPromise, request, template⟩
      match request.authorized, result.status with
      | true, .ready =>
          { heard with answers := w.answers ++ [q.answer result.data] }
      | true, .pending =>
          if request.cacheFirst then heard
          else { heard with waiting := w.waiting ++ [q] }
      | _, _ => heard

/-- A changed catalogue: questions asked under another template of their
provider are none of the new one's. -/
def forgetChanged (w : Watched) : Watched :=
  { w with
    waiting := w.waiting.filter fun q =>
      decide (templateOf w.server.maptiles.configuredProviders
        q.request.provider = some q.template) }

inductive Exchange
  | get (choice : Choice) (request : TileGet)
  | put (providers : List MapProvider)
  /-- A callback or a worker of the tile store. -/
  | event (a : Maps.Action)

/-- What the exchange does to the server. -/
def Exchange.serve (cfg : TileConfig) (a : Exchange) (s : State) :
    Option State :=
  match a with
  | .get choice request => apply cfg (.get choice request) s
  | .put providers => putProviders cfg providers s
  | .event a => apply cfg (.store a) s

/-- The watched server's transition function. -/
def exchange (cfg : TileConfig) (a : Exchange) (w : Watched) :
    Option Watched :=
  match a with
  | .get choice request => some (ask cfg choice request w)
  | .put providers =>
      ((hearStore cfg .cancelUpstreamDownloads w).bind
        (hearStore cfg (.configureProviders providers cfg.downloadCoverage
          cfg.mapCoverage))).map forgetChanged
  | .event a => hearStore cfg a w

-- =========================================================== statements

/-- The stores of the states passed. -/
def stores (past : List Watched) : List Maps.State :=
  past.map fun w => w.server.maptiles

/-- Every answer with image bytes was downloaded by a request that was
built from the template of its question. -/
def AnswersSeparate (past : List Watched) (w : Watched) : Prop :=
  ∀ a ∈ w.answers, Downloaded (stores past) a.provider a.template a.data

/-- Every file of the directory selected for a provider was downloaded by
a request that was built from the provider's template. -/
def FilesSeparate (cfg : TileConfig) (past : List Watched) (w : Watched) :
    Prop :=
  ∀ provider template dir,
    templateOf w.server.maptiles.configuredProviders provider
      = some template →
    selectedDir cfg.store provider w.server.maptiles = some dir →
    ∀ path file, w.server.maptiles.files.lookup path = some file →
      path.dir = dir →
      Downloaded (stores past) provider template file.blob

/-- The callbacks and workers of the tile store, marker files written
where a callback selects a directory. -/
def Callback : Maps.Action → Prop
  | .requestFinished _ _ _ | .requestError _ _ | .writeRuns _ _
  | .writeFinished _ | .readRuns _ | .evict _ => True
  | .readFinished _ choices => ∀ i, (choices i).markerWritten = true
  | _ => False

/-- What the runs consist of: marker files are written, catalogues use
these templates, and nothing but callbacks happens besides. -/
def Assumed (templates : Set String) (a : Exchange) : Prop :=
  match a with
  | .get choice _ => choice.markerWritten = true
  | .put providers => ∀ p ∈ providers, p.urlTemplate ∈ templates
  | .event a => Callback a

/-- The condition on a step: a request names its provider without a place
marker, and when a write's callback runs, every question that waits under
one of its response keys was asked under a template the written URL was
built from. -/
def KeepsApart (a : Exchange) (w : Watched) : Prop :=
  match a with
  | .get _ request => '%' ∉ request.provider.toList
  | .event (.writeFinished write) => ∀ wr,
      w.server.maptiles.writes.lookup write = some wr →
      ∀ q ∈ w.waiting, q.request.key ∈ wr.responseKeys →
        q.promise ∈ waitingAt w.server q.request.key →
        BuiltFrom q.template wr.download.url
  | _ => True

end AowisMap.Server.TileEndpoint
