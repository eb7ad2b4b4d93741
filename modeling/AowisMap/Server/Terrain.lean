/-
The single-flight terrain endpoints: registries of waiting HTTP
promises, per-job cancellation tokens and the three admission counters,
as one state machine over every thread that touches them.

# Threads

- The HTTP event-loop thread owns the registries, the socket tables and
  the waiter count. A submission that starts a new job does so in
  several atomic operations on counters that worker threads release
  concurrently, so it is a sequence of steps here: `State.http` says how
  far the submission in progress has come and which reservations it
  holds. Between submissions the thread runs queued completion callbacks
  and socket notifications.
- A job runs on the remote pool, then on the CPU pool, then posts its
  completion callback to the HTTP thread (`Stage`). Worker steps are
  enabled at any time; what the terrain subsystem computes is an
  argument of the action.

# Registries

`submitTerrainTile`, `submitTerrainElevation` and `submitTerrainGrid`
share one protocol over their own registry; the grid endpoint alone
also reserves response bytes. The three are one machine with `Registry`
as a parameter, and each keeps its own constructor of a `Submission`
with its key, exactly as the source builds it.

# History

The last fields of `State` are read by no transition: they record which
flight a promise was issued for, which flight a token was created for,
and every completion of a promise in order. Shutdown is not modelled:
the machine is the server between its start and its destructor.
-/
import AowisMap.Lib.Run
import AowisMap.Lib.Hash
import AowisMap.Server.Responses
import Mathlib.Logic.Function.Basic

namespace AowisMap.Server

open Lib Terrain

-- ======================================================== configuration

/-- The limits of `Server::Config` the terrain endpoints read. Both are
positive in a loaded configuration. -/
structure Config where
  maximumPendingRequests : Nat := 2048
  maximumTerrainJobs : Nat := 128

/-- The limit `terrain_admission` is constructed with. -/
def Config.terrainLimit (cfg : Config) : Nat :=
  max 1 cfg.maximumTerrainJobs

/-- The limit `terrain_remote_admission` is constructed with. -/
def Config.remoteLimit (cfg : Config) : Nat :=
  max 1 (cfg.maximumTerrainJobs / 2)

/-- The limit `terrain_grid_bytes` is constructed with: 64 MiB. -/
def gridByteLimit : Nat := 64 * 1024 * 1024

-- ============================================================ admission

/-- `TerrainAdmission::tryAcquire`: the compare-exchange loop, at its
linearization point. Counters are integers, so that a release too many
would be visible. -/
def TerrainAdmission.tryAcquire (maximumJobs : Nat) (outstanding : Int) :
    Option Int :=
  if outstanding < maximumJobs then some (outstanding + 1) else none

/-- `TerrainAdmission::release`. -/
def TerrainAdmission.release (outstanding : Int) : Int := outstanding - 1

/-- `TerrainByteAdmission::tryAcquire`. -/
def TerrainByteAdmission.tryAcquire (maximumBytes bytes : Nat)
    (reserved : Int) : Option Int :=
  if maximumBytes < bytes then none
  else if reserved ≤ (maximumBytes : Int) - bytes then some (reserved + bytes)
  else none

/-- `TerrainByteAdmission::release`. -/
def TerrainByteAdmission.release (bytes : Nat) (reserved : Int) : Int :=
  reserved - bytes

-- ================================================================ jobs

/-- Identity of a per-job cancellation token. -/
abbrev Token := Nat

/-- Identity of a pending promise. -/
abbrev Promise := Nat

/-- Identity of an accepted client socket. -/
abbrev Socket := Nat

/-- The three single-flight registries. -/
inductive Registry
  | tiles | elevations | grids
deriving DecidableEq, Repr

/-- How far a job has come. -/
inductive Stage
  /-- Queued or running in `terrain_remote_pool`. -/
  | remote
  /-- Acquisition ended and its remote slot is released; the cancellation
  token has not been read yet. -/
  | handoff (acquired : TerrainProviderFetchResult)
  /-- Queued in `terrain_worker_pool`. -/
  | cpu
  /-- Running there; `skipped` when the token was already set. -/
  | processing (skipped : Bool)
  /-- Its completion callback is queued on the HTTP thread. -/
  | callback (result : JobResult)
deriving DecidableEq

/-- One submission: the registry key, whether serving it may need a
provider-native download, the grid dimensions and the client's address
key. -/
structure Submission where
  registry : Registry
  key : String
  remoteJob : Bool
  columns : Nat := 0
  rows : Nat := 0
  client : Option String := none
deriving DecidableEq

/-- `estimated_bytes`: the float result and its serialization, both four
bytes a sample; only the grid endpoint reserves any. -/
def Submission.estimatedBytes (sub : Submission) : Nat :=
  match sub.registry with
  | .grids => sub.columns * sub.rows * (4 + 4)
  | .tiles | .elevations => 0

/-- The submission of `submitTerrainTile`. -/
def submitTerrainTile (dataset : String) (zoom tileX tileY : Int)
    (remoteJob : Bool) (client : Option String) : Submission where
  registry := .tiles
  key := dataset ++ "/" ++ toString zoom ++ "/" ++ toString tileX ++ "/"
    ++ toString tileY
  remoteJob := remoteJob
  client := client

/-- The submission of `submitTerrainElevation`; `number` is the 17 digit
formatting of a double, `datum` the requested datum's identifier. -/
def submitTerrainElevation (number : Rat → String) (dataset : String)
    (latitudeDeg longitudeDeg : Rat) (datum : Option String)
    (remoteJob : Bool) (client : Option String) : Submission where
  registry := .elevations
  key := dataset ++ "/" ++ number latitudeDeg ++ "/" ++ number longitudeDeg
    ++ "/" ++ datum.getD "native"
  remoteJob := remoteJob
  client := client

/-- The submission of `submitTerrainGrid`. -/
def submitTerrainGrid (number : Rat → String) (dataset : String)
    (west south east north : Rat) (columns rows : Nat)
    (remoteJob : Bool) (client : Option String) : Submission where
  registry := .grids
  key := dataset ++ "/" ++ number west ++ "/" ++ number south ++ "/"
    ++ number east ++ "/" ++ number north ++ "/" ++ toString columns
    ++ "/" ++ toString rows
  remoteJob := remoteJob
  columns := columns
  rows := rows
  client := client

/-- A job in flight: the submission its closures captured and how far it
has come. A job is named by the token it captured. -/
structure Job where
  submission : Submission
  stage : Stage
deriving DecidableEq

/-- The registry a job completes. -/
abbrev Job.registry (job : Job) : Registry := job.submission.registry

/-- The key a job completes. -/
abbrev Job.key (job : Job) : String := job.submission.key

/-- The grid reservation a job carries. -/
abbrev Job.bytes (job : Job) : Nat := job.submission.estimatedBytes

/-- The HTTP thread: between events, or inside a submission that admits
a new job. -/
inductive HttpThread
  | idle
  /-- About to try `terrain_remote_admission`; grid bytes are held. -/
  | remoteNext (sub : Submission)
  /-- About to try `terrain_admission`; grid bytes and the remote slot of
  a remote job are held. -/
  | overallNext (sub : Submission)
  /-- Refused overall: about to give the remote slot back. -/
  | releaseRemote (sub : Submission)
  /-- Refused: about to give the grid bytes back. -/
  | releaseBytes (sub : Submission)
deriving DecidableEq

-- =============================================================== state

/-- One completion of a promise: by the callback of a job, or abandoned
(`job = none`). -/
structure Completion where
  promise : Promise
  response : HttpResponse
  job : Option Token
deriving DecidableEq

structure State where
  pendingTerrain : Registry → QHash String (List Promise)
  cancellations : Registry → String → Option Token
  pendingTerrainTileCount : Int
  terrainClientSockets : String → Option Socket
  terrainWaiterSockets : Promise → Option Socket
  terrainAdmission : Int
  terrainRemoteAdmission : Int
  terrainGridBytes : Int
  /-- The atomic flag behind each token. -/
  cancelled : Token → Bool
  jobs : QHash Token Job
  /-- Jobs of `submitTerrainJob` that have not ended. -/
  plainJobs : Nat
  http : HttpThread
  nextPromise : Promise
  nextToken : Token
  flightOf : Promise → Option (Registry × String)
  flightOfToken : Token → Option (Registry × String)
  completed : List Completion

/-- The server after construction. -/
def State.init : State where
  pendingTerrain := fun _ => ∅
  cancellations := fun _ _ => none
  pendingTerrainTileCount := 0
  terrainClientSockets := fun _ => none
  terrainWaiterSockets := fun _ => none
  terrainAdmission := 0
  terrainRemoteAdmission := 0
  terrainGridBytes := 0
  cancelled := fun _ => false
  jobs := ∅
  plainJobs := 0
  http := .idle
  nextPromise := 0
  nextToken := 0
  flightOf := fun _ => none
  flightOfToken := fun _ => none
  completed := []

-- ==================================================== the HTTP thread

/-- `attachTerrainWaiter`: remembers the socket of a tracked client. -/
def attachTerrainWaiter (promise : Promise) (client : Option String)
    (s : State) : State :=
  match client.bind s.terrainClientSockets with
  | some socket =>
      { s with terrainWaiterSockets :=
          Function.update s.terrainWaiterSockets promise (some socket) }
  | none => s

/-- Issues a promise and appends it to its flight's waiters. -/
def appendWaiter (sub : Submission) (s : State) : State :=
  attachTerrainWaiter s.nextPromise sub.client
    { s with
      pendingTerrain := Function.update s.pendingTerrain sub.registry
        ((s.pendingTerrain sub.registry).insert sub.key
          ((((s.pendingTerrain sub.registry).lookup sub.key).getD [])
            ++ [s.nextPromise]))
      pendingTerrainTileCount := s.pendingTerrainTileCount + 1
      nextPromise := s.nextPromise + 1
      flightOf := Function.update s.flightOf s.nextPromise
        (some (sub.registry, sub.key)) }

/-- Creates the flight's cancellation token and starts its job in the
pool of its first stage. -/
def launchJob (sub : Submission) (s : State) : State :=
  { s with
    cancellations := Function.update s.cancellations sub.registry
      (Function.update (s.cancellations sub.registry) sub.key
        (some s.nextToken))
    cancelled := Function.update s.cancelled s.nextToken false
    jobs := s.jobs.insert s.nextToken
      { submission := sub
        stage := if sub.remoteJob then .remote else .cpu }
    nextToken := s.nextToken + 1
    flightOfToken := Function.update s.flightOfToken s.nextToken
      (some (sub.registry, sub.key)) }

/-- The head of a submission: refuse at the waiter limit, join an
existing flight, or start admitting a new job (the grid endpoint
reserves its bytes first). -/
def submit (cfg : Config) (sub : Submission) (s : State) : State :=
  if s.pendingTerrainTileCount ≥ cfg.maximumPendingRequests then s
  else if sub.key ∈ s.pendingTerrain sub.registry then appendWaiter sub s
  else match sub.registry with
    | .grids =>
        match TerrainByteAdmission.tryAcquire gridByteLimit
            sub.estimatedBytes s.terrainGridBytes with
        | some reserved =>
            { s with terrainGridBytes := reserved, http := .remoteNext sub }
        | none => s
    | .tiles | .elevations => { s with http := .remoteNext sub }

/-- Where a refused submission continues once its remote slot is back. -/
def afterRemoteReleased (sub : Submission) : HttpThread :=
  match sub.registry with
  | .grids => .releaseBytes sub
  | .tiles | .elevations => .idle

/-- The next atomic operation of the submission in progress. -/
def admitNext (cfg : Config) (s : State) : Option State :=
  match s.http with
  | .idle => none
  | .remoteNext sub =>
      if sub.remoteJob then
        match TerrainAdmission.tryAcquire cfg.remoteLimit
            s.terrainRemoteAdmission with
        | some outstanding =>
            some { s with
              terrainRemoteAdmission := outstanding
              http := .overallNext sub }
        | none => some { s with http := afterRemoteReleased sub }
      else some { s with http := .overallNext sub }
  | .overallNext sub =>
      match TerrainAdmission.tryAcquire cfg.terrainLimit
          s.terrainAdmission with
      | some outstanding =>
          some (launchJob sub (appendWaiter sub
            { s with terrainAdmission := outstanding, http := .idle }))
      | none =>
          some { s with http := if sub.remoteJob then .releaseRemote sub
                                else afterRemoteReleased sub }
  | .releaseRemote sub =>
      some { s with
        terrainRemoteAdmission :=
          TerrainAdmission.release s.terrainRemoteAdmission
        http := afterRemoteReleased sub }
  | .releaseBytes sub =>
      some { s with
        terrainGridBytes :=
          TerrainByteAdmission.release sub.estimatedBytes s.terrainGridBytes
        http := .idle }

/-- `submitTerrainJob`: admission of a job without a flight. -/
def submitTerrainJob (cfg : Config) (s : State) : State :=
  match TerrainAdmission.tryAcquire cfg.terrainLimit s.terrainAdmission with
  | some outstanding =>
      { s with terrainAdmission := outstanding, plainJobs := s.plainJobs + 1 }
  | none => s

/-- Completes every waiter of a flight with the result of its job. -/
def drainFlight (token : Token) (job : Job) (result : JobResult)
    (s : State) : State :=
  let waiters := ((s.pendingTerrain job.registry).lookup job.key).getD []
  { s with
    cancellations := Function.update s.cancellations job.registry
      (Function.update (s.cancellations job.registry) job.key none)
    pendingTerrain := Function.update s.pendingTerrain job.registry
      ((s.pendingTerrain job.registry).erase job.key)
    pendingTerrainTileCount := s.pendingTerrainTileCount - waiters.length
    terrainWaiterSockets := fun p =>
      if p ∈ waiters then none else s.terrainWaiterSockets p
    completed := s.completed
      ++ waiters.map fun p => ⟨p, result.response, some token⟩ }

/-- The end of a job: its callback gives the grid reservation back. -/
def callbackEnds (token : Token) (job : Job) (s : State) : State :=
  { s with
    jobs := s.jobs.erase token
    terrainGridBytes :=
      TerrainByteAdmission.release job.bytes s.terrainGridBytes }

/-- A queued completion callback: a superseded one only ends its job. -/
def completionCallback (token : Token) (s : State) : Option State :=
  match s.jobs.lookup token with
  | some job =>
      match job.stage with
      | .callback result =>
          if s.cancellations job.registry job.key ≠ some token then
            some (callbackEnds token job s)
          else
            some (callbackEnds token job (drainFlight token job result s))
      | _ => none
  | none => none

/-- The waiters of a list that belong to a socket, in the order
`abandonTerrainWaiters` removes them. -/
def leaving (s : State) (socket : Socket) (waiters : List Promise) :
    List Promise :=
  waiters.reverse.filter fun p => s.terrainWaiterSockets p == some socket

/-- The waiters that stay. -/
def staying (s : State) (socket : Socket) (waiters : List Promise) :
    List Promise :=
  waiters.filter fun p => !(s.terrainWaiterSockets p == some socket)

/-- One registry of `abandonTerrainWaiters`: complete the socket's
waiters, then drop every flight left without waiters and set its token.
-/
def abandonRegistry (socket : Socket) (s : State) (r : Registry) : State :=
  let registry := s.pendingTerrain r
  let gone := registry.entries.flatMap fun e => leaving s socket e.2
  let orphans := (registry.entries.filter fun e =>
    staying s socket e.2 == []).map (·.1)
  { s with
    pendingTerrain := Function.update s.pendingTerrain r
      (QHash.filterMapValues (fun _ waiters =>
        if staying s socket waiters = [] then none
        else some (staying s socket waiters)) registry)
    cancellations := Function.update s.cancellations r fun k =>
      if k ∈ orphans then none else s.cancellations r k
    cancelled := fun t =>
      s.cancelled t || orphans.any fun k => s.cancellations r k == some t
    pendingTerrainTileCount := s.pendingTerrainTileCount - gone.length
    terrainWaiterSockets := fun p =>
      if p ∈ gone then none else s.terrainWaiterSockets p
    completed := s.completed
      ++ gone.map fun p => ⟨p, httpClientDisconnected, none⟩ }

/-- `abandonTerrainWaiters`. -/
def abandonTerrainWaiters (socket : Socket) (s : State) : State :=
  [Registry.tiles, .elevations, .grids].foldl (abandonRegistry socket) s

/-- The `disconnected` and `destroyed` notifications of a tracked
socket. -/
def socketGone (client : String) (socket : Socket) (s : State) : State :=
  abandonTerrainWaiters socket
    { s with terrainClientSockets :=
        if s.terrainClientSockets client = some socket then
          Function.update s.terrainClientSockets client none
        else s.terrainClientSockets }

-- ======================================================== worker threads

/-- The message of an acquisition that threw. -/
def acquisitionFailed : Registry → String
  | .tiles => "Terrain source acquisition failed"
  | .elevations => "Elevation source acquisition failed"
  | .grids => "Grid source acquisition failed"

/-- The result a failed acquisition is delivered with. -/
def failedResult (r : Registry) (acquired : TerrainProviderFetchResult) :
    JobResult :=
  let remote := acquired.status = .cancelled ∨ acquired.status = .networkError
  match r with
  | .tiles => .tile
      { status := if remote then .remoteFetchError else .providerError
        errorMessage := acquired.errorMessage }
  | .elevations => .elevation
      { status := if remote then .remoteFetchError else .providerError
        errorMessage := acquired.errorMessage }
  | .grids => .grid acquired.status acquired.errorMessage []

/-- What the CPU stage of a job computed; `threw` when it raised. -/
inductive Processed
  | threw
  | tile (result : TerrainTileLookupResult)
  | elevation (result : TerrainElevationLookupResult)
  | grid (result : TerrainAnalysisGridResult)
deriving DecidableEq

/-- The result captured at the end of the CPU stage: the default result
when the token was set before it started, a processing failure when it
threw. `none` when the computation is another endpoint's. -/
def processedResult (r : Registry) (skipped : Bool) (p : Processed) :
    Option JobResult :=
  match r, p with
  | .tiles, .tile result => some (.tile (if skipped then {} else result))
  | .tiles, .threw => some (.tile (if skipped then {} else
      { status := .providerError
        errorMessage := "Terrain processing failed" }))
  | .elevations, .elevation result =>
      some (.elevation (if skipped then {} else result))
  | .elevations, .threw => some (.elevation (if skipped then {} else
      { status := .providerError
        errorMessage := "Terrain processing failed" }))
  | .grids, .grid result =>
      let result := if skipped then {} else result
      some (.grid result.status result.errorMessage (serializeGrid result))
  | .grids, .threw =>
      let result : TerrainAnalysisGridResult := if skipped then {} else
        { status := .conversionError
          errorMessage := "Terrain processing failed" }
      some (.grid result.status result.errorMessage (serializeGrid result))
  | _, _ => none

/-- Moves a job to its next stage. -/
def setStage (token : Token) (job : Job) (stage : Stage) (s : State) :
    State :=
  { s with jobs := s.jobs.insert token { job with stage := stage } }

/-- The next step of a job's worker thread. `acquired` is what the
acquisition returned (`none`: it threw), `processed` what the CPU stage
computed. -/
def worker (token : Token) (acquired : Option TerrainProviderFetchResult)
    (processed : Processed) (s : State) : Option State :=
  match s.jobs.lookup token with
  | none => none
  | some job =>
      match job.stage with
      | .remote =>
          some (setStage token job
            (.handoff (acquired.getD
              { status := .networkError
                errorMessage := acquisitionFailed job.registry }))
            { s with terrainRemoteAdmission :=
                TerrainAdmission.release s.terrainRemoteAdmission })
      | .handoff acquired =>
          if acquired.status = .ready ∧ s.cancelled token = false then
            some (setStage token job .cpu s)
          else
            some (setStage token job
              (.callback (failedResult job.registry acquired))
              { s with terrainAdmission :=
                  TerrainAdmission.release s.terrainAdmission })
      | .cpu => some (setStage token job (.processing (s.cancelled token)) s)
      | .processing skipped =>
          (processedResult job.registry skipped processed).map fun result =>
            setStage token job (.callback result)
              { s with terrainAdmission :=
                  TerrainAdmission.release s.terrainAdmission }
      | .callback _ => none

/-- The end of a plain job: its guard releases on every exit. -/
def plainJobEnds (s : State) : Option State :=
  match s.plainJobs with
  | 0 => none
  | n + 1 =>
      some { s with
        plainJobs := n
        terrainAdmission := TerrainAdmission.release s.terrainAdmission }

-- ========================================================= transitions

inductive Action
  /-- `trackTerrainSocket` for an accepted connection. -/
  | accept (client : String) (socket : Socket)
  | submit (sub : Submission)
  | submitTerrainJob
  /-- The next atomic operation of the submission in progress. -/
  | admitNext
  | callback (token : Token)
  | socketGone (client : String) (socket : Socket)
  | worker (token : Token) (acquired : Option TerrainProviderFetchResult)
      (processed : Processed)
  | plainJobEnds
deriving DecidableEq

/-- An event of the HTTP thread starts only when no submission is in
progress. -/
def onIdle (s : State) (next : Option State) : Option State :=
  if s.http = .idle then next else none

/-- The server's transition function. -/
def apply (cfg : Config) (a : Action) (s : State) : Option State :=
  match a with
  | .accept client socket =>
      onIdle s (some { s with
        terrainClientSockets :=
          Function.update s.terrainClientSockets client (some socket) })
  | .submit sub => onIdle s (some (submit cfg sub s))
  | .submitTerrainJob => onIdle s (some (submitTerrainJob cfg s))
  | .admitNext => admitNext cfg s
  | .callback token => onIdle s (completionCallback token s)
  | .socketGone client socket => onIdle s (some (socketGone client socket s))
  | .worker token acquired processed => worker token acquired processed s
  | .plainJobEnds => plainJobEnds s

/-- Reachable states of the terrain endpoints. -/
abbrev Reachable (cfg : Config) : State → Prop :=
  Run (apply cfg) anyStep State.init

end AowisMap.Server
