/-
The upstream download scheduler of the tile store: everything
`downloads_mutex` guards, and the live `TileHttpClient` objects.

# Starting and queueing

A download is scheduled for a canonical key. It joins a running or queued
download of that key, starts when the global and the per-origin limit
allow it, or waits in the queue; when a download ends, the queue is
scanned from its head for downloads that may start. Nothing compares a
new download with the queue: that it does not overtake one is a result
(Proofs/Scheduler.lean), not a branch.

# The scheduler as a machine

`Action` and `next` are the scheduler on its own. The tile store runs
its operations from inside longer callbacks; Proofs/Refinement.lean
shows that every run of the store is a run of this machine.

`QueuedDownload.ticket`, `nextTicket`, `starts` and `dropped` are
history: downloads are numbered as they are scheduled, every start is
recorded in order, and so are the numbers a cancel drops from the queue.
-/
import AowisMap.Lib.Hash
import AowisMap.Lib.Run
import AowisMap.Maps.Types
import Mathlib.Data.Finset.Card

namespace AowisMap.Maps

open Lib

-- ======================================================== configuration

/-- What `QUrl` reads from an address. -/
structure UrlParts where
  scheme : String
  host : String
  /-- `QUrl::port(-1)`. -/
  port : Int
deriving DecidableEq, Repr

/-- The arguments of the `MapTiles` constructor, and the two library
functions the store applies to addresses: `QUrl`'s parser and the
SHA-256 fingerprint of a template. -/
structure Config where
  cacheBaseDirectory : String
  maximumActiveDownloads : Int := 32
  maximumQueuedDownloads : Int := 2048
  parseUrl : String → UrlParts
  fingerprint : String → String

/-- `maximum_active_downloads` as the constructor bounds it. -/
def Config.activeLimit (cfg : Config) : Nat :=
  (max 1 cfg.maximumActiveDownloads).toNat

/-- `maximum_queued_downloads` as the constructor bounds it. -/
def Config.queueLimit (cfg : Config) : Nat :=
  (max 0 cfg.maximumQueuedDownloads).toNat

/-- `MaximumActiveDownloadsPerOrigin`. -/
def maximumActiveDownloadsPerOrigin : Int := 6

/-- `downloadOrigin`. -/
def downloadOrigin (cfg : Config) (url : String) : String :=
  let parsed := cfg.parseUrl url
  parsed.scheme ++ "://" ++ parsed.host ++ ":"
    ++ String.ofList (QString.number parsed.port)

-- =============================================================== state

/-- `MapTiles::QueuedDownload`, with the number it was scheduled under.
-/
structure QueuedDownload where
  url : String
  path : String := ""
  tilePath : TilePath
  canonicalKey : String
  responseKey : String
  ticket : Nat := 0
deriving DecidableEq

/-- A live `TileHttpClient`: the download its callbacks captured, and
its `cancel_requested` flag. -/
structure Client where
  download : QueuedDownload
  cancelRequested : Bool := false
deriving DecidableEq

/-- A recorded start. -/
structure Start where
  client : ClientId
  ticket : Nat
  origin : String
deriving DecidableEq

structure Downloads where
  active : Finset String
  activeClients : QHash String ClientId
  activePerOrigin : QHash String Int
  invalidated : Finset String
  queued : List QueuedDownload
  queuedKeys : Finset String
  joinedResponseKeys : QHash String (List String)
  clients : QHash ClientId Client
  nextClient : ClientId
  nextTicket : Nat
  starts : List Start
  dropped : List Nat

def Downloads.init : Downloads where
  active := ∅
  activeClients := ∅
  activePerOrigin := ∅
  invalidated := ∅
  queued := []
  queuedKeys := ∅
  joinedResponseKeys := ∅
  clients := ∅
  nextClient := 0
  nextTicket := 0
  starts := []
  dropped := []

inductive DownloadScheduleStatus
  | scheduled | queueFull
deriving DecidableEq

namespace Downloads

-- ========================================================== operations

/-- `downloads_active_per_origin.value(origin, 0)`. -/
def activeAt (s : Downloads) (origin : String) : Int :=
  (s.activePerOrigin.lookup origin).getD 0

/-- `canStartDownloadLocked`. -/
def canStartDownloadLocked (cfg : Config) (s : Downloads)
    (download : QueuedDownload) : Bool :=
  if s.active.card ≥ cfg.activeLimit then false
  else s.activeAt (downloadOrigin cfg download.url)
    < maximumActiveDownloadsPerOrigin

/-- `markDownloadStartedLocked`. -/
def markDownloadStartedLocked (cfg : Config) (download : QueuedDownload)
    (s : Downloads) : Downloads :=
  let origin := downloadOrigin cfg download.url
  { s with
    active := insert download.canonicalKey s.active
    activePerOrigin := s.activePerOrigin.insert origin
      (s.activeAt origin + 1) }

/-- `markDownloadFinishedLocked`. -/
def markDownloadFinishedLocked (cfg : Config) (download : QueuedDownload)
    (s : Downloads) : Downloads :=
  let origin := downloadOrigin cfg download.url
  let remaining := s.activeAt origin - 1
  { s with
    active := s.active.erase download.canonicalKey
    activePerOrigin :=
      if remaining > 0 then s.activePerOrigin.insert origin remaining
      else s.activePerOrigin.erase origin }

/-- The response keys joined to a canonical key. -/
def joinedAt (s : Downloads) (canonicalKey : String) : List String :=
  (s.joinedResponseKeys.lookup canonicalKey).getD []

/-- Appends a key to a list that does not hold it. -/
def appendNew (keys : List String) (key : String) : List String :=
  if key ∈ keys then keys else keys ++ [key]

/-- The keys `takeResponseKeysLocked` returns. -/
def responseKeys (s : Downloads) (download : QueuedDownload) :
    List String :=
  (s.joinedAt download.canonicalKey).foldl appendNew
    (if download.responseKey ≠ "" then [download.responseKey] else [])

/-- `takeResponseKeysLocked`. -/
def takeResponseKeysLocked (download : QueuedDownload) (s : Downloads) :
    List String × Downloads :=
  (s.responseKeys download,
    { s with
      joinedResponseKeys :=
        s.joinedResponseKeys.erase download.canonicalKey })

/-- `startMapTileDownload`: a client is created and its request sent. -/
def startMapTileDownload (cfg : Config) (s : Downloads)
    (download : QueuedDownload) : Downloads :=
  { s with
    activeClients := s.activeClients.insert download.canonicalKey
      s.nextClient
    clients := s.clients.insert s.nextClient { download := download }
    nextClient := s.nextClient + 1
    starts := s.starts ++ [{
      client := s.nextClient
      ticket := download.ticket
      origin := downloadOrigin cfg download.url }] }

/-- The number a download is scheduled under. -/
def numbered (s : Downloads) (download : QueuedDownload) :
    QueuedDownload :=
  { download with ticket := s.nextTicket }

/-- Joins the running or queued download of the key; an empty response
key asks for no answer. -/
def joinDownload (download : QueuedDownload) (s : Downloads) : Downloads :=
  if download.responseKey ≠ "" then
    { s with
      joinedResponseKeys :=
        s.joinedResponseKeys.insert download.canonicalKey
          (appendNew (s.joinedAt download.canonicalKey)
            download.responseKey) }
  else s

/-- Starts a download past the queue. -/
def startNow (cfg : Config) (download : QueuedDownload) (s : Downloads) :
    Downloads :=
  startMapTileDownload cfg
    (markDownloadStartedLocked cfg download
      { s with nextTicket := s.nextTicket + 1 }) download

/-- Appends a download to the queue. -/
def enqueue (download : QueuedDownload) (s : Downloads) : Downloads :=
  { s with
    queued := s.queued ++ [download]
    queuedKeys := insert download.canonicalKey s.queuedKeys
    nextTicket := s.nextTicket + 1 }

/-- `scheduleMapTileDownload`. -/
def scheduleMapTileDownload (cfg : Config) (download : QueuedDownload)
    (s : Downloads) : DownloadScheduleStatus × Downloads :=
  if download.canonicalKey ∈ s.active
      ∨ download.canonicalKey ∈ s.queuedKeys then
    (.scheduled, joinDownload download s)
  else if s.canStartDownloadLocked cfg download then
    (.scheduled, startNow cfg (s.numbered download) s)
  else if s.queued.length ≥ cfg.queueLimit then (.queueFull, s)
  else (.scheduled, enqueue (s.numbered download) s)

/-- The first queued download that may start, and the queue without it.
-/
def takeEligible (cfg : Config) (s : Downloads) :
    List QueuedDownload → Option (QueuedDownload × List QueuedDownload)
  | [] => none
  | download :: rest =>
      if s.canStartDownloadLocked cfg download then some (download, rest)
      else (takeEligible cfg s rest).map fun found =>
        (found.1, download :: found.2)

/-- The loop of `startQueuedDownloads`, with the downloads it marked as
started. Each round takes one download off the queue, so the queue's
length bounds the rounds. -/
def startLoop (cfg : Config) : Nat → Downloads →
    Downloads × List QueuedDownload
  | 0, s => (s, [])
  | rounds + 1, s =>
      if s.active.card < cfg.activeLimit ∧ s.queued ≠ [] then
        match takeEligible cfg s s.queued with
        | none => (s, [])
        | some (download, rest) =>
            let s' := markDownloadStartedLocked cfg download
              { s with
                queued := rest
                queuedKeys := s.queuedKeys.erase download.canonicalKey }
            let started := startLoop cfg rounds s'
            (started.1, download :: started.2)
      else (s, [])

/-- `startQueuedDownloads`. -/
def startQueuedDownloads (cfg : Config) (s : Downloads) : Downloads :=
  let started := startLoop cfg s.queued.length s
  started.2.foldl (startMapTileDownload cfg) started.1

/-- What the end of a download leaves behind. -/
structure Ended where
  client : Client
  invalidated : Bool
  responseKeys : List String
  downloads : Downloads

/-- The locked part of both client callbacks: the download is taken off
every table and hands over its response keys. -/
def clientEnds (cfg : Config) (client : ClientId) (s : Downloads) :
    Option Ended :=
  (s.clients.lookup client).map fun c =>
    let s₁ := markDownloadFinishedLocked cfg c.download s
    let taken := takeResponseKeysLocked c.download
      { s₁ with
        activeClients := s₁.activeClients.erase c.download.canonicalKey
        invalidated := s₁.invalidated.erase c.download.canonicalKey
        clients := s₁.clients.erase client }
    { client := c
      invalidated := c.download.canonicalKey ∈ s.invalidated
      responseKeys := taken.1
      downloads := taken.2 }

/-- The queue of `cancelUpstreamDownloads`, taken from its head. -/
def drainQueue : List QueuedDownload → Downloads →
    List String × Downloads
  | [], s => ([], s)
  | download :: rest, s =>
      let taken := takeResponseKeysLocked download s
      let drained := drainQueue rest { taken.2 with
        invalidated := taken.2.invalidated.erase download.canonicalKey }
      (taken.1 ++ drained.1, drained.2)

/-- The scheduler's part of `cancelUpstreamDownloads`: the queue is
dropped with its keys, and every registered client is told to cancel. A
client that was told to still reports its end itself. -/
def cancelUpstreamDownloads (s : Downloads) : List String × Downloads :=
  let activeClients := s.activeClients.entries.map (·.2)
  let drained := drainQueue s.queued { s with queued := [] }
  (drained.1, { drained.2 with
    queuedKeys := ∅
    dropped := s.dropped ++ s.queued.map (·.ticket)
    clients := QHash.filterMapValues (fun id c => some
      { c with
        cancelRequested := c.cancelRequested || activeClients.contains id })
      drained.2.clients })

/-- Marks the keys in progress that a deletion covers; `pending` are the
keys of pending cache writes. -/
def invalidateCovered (covered : String → Bool) (pending : Finset String)
    (s : Downloads) : Downloads :=
  { s with
    invalidated := s.invalidated
      ∪ (s.active ∪ s.queuedKeys ∪ pending).filter fun key => covered key }

/-- A write-finished callback clears the mark of its key. -/
def forgetInvalidation (key : String) (s : Downloads) : Downloads :=
  { s with invalidated := s.invalidated.erase key }

-- ============================================================= machine

/-- The scheduler's own transitions. -/
inductive Action
  | schedule (download : QueuedDownload)
  /-- A client callback: the download ends, then the queue is scanned. -/
  | ended (client : ClientId)
  | cancel
  | invalidate (covered : String → Bool) (pending : Finset String)
  | forget (key : String)

def next (cfg : Config) (a : Action) (s : Downloads) : Option Downloads :=
  match a with
  | .schedule download => some (scheduleMapTileDownload cfg download s).2
  | .ended client =>
      (clientEnds cfg client s).map fun e =>
        startQueuedDownloads cfg e.downloads
  | .cancel => some (cancelUpstreamDownloads s).2
  | .invalidate covered pending =>
      some (invalidateCovered covered pending s)
  | .forget key => some (forgetInvalidation key s)

/-- Reachable states of the scheduler. -/
abbrev Reachable (cfg : Config) : Downloads → Prop :=
  Run (next cfg) anyStep Downloads.init

end Downloads

end AowisMap.Maps
