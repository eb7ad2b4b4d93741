/-
`downloadSourceTile`: one attempt to fetch a Copernicus source over
HTTP, as a program of file operations that may fail and may be cut short
by a crash (`Lib.Prog`).

# The files of one source

A source at `path` is surrounded by `path.incoming` (the response being
received), `path.partial` (what an interrupted response left) and
`path.partial.meta` (what the partial file is a prefix of). `SourceDisk`
holds the contents of the four files, and as history the answers that
were received and the contents that were published. The attempts on one
source follow each other: each holds the source's lock from before it
reads the files until it returns.

# What an attempt meets

An `Attempt` records what the world decides during one call: where a
cancellation is seen, how the wait for the lock ends, and the upstream
answer with its chunks of body bytes. Whether a file operation succeeds
and where the process dies is in the fates of the run. Every operation may
fail; that a file could not be removed is not noticed.

# Two halves

The first half of an attempt returns early or ends with an answer that was
received (`receiveSource`). Then the incoming file is closed and the answer
settled. What closing does to the file is a parameter
(`downloadSourceTileClosing`).
-/
import AowisMap.Lib.Crash
import AowisMap.Lib.Run
import AowisMap.Terrain.ResumeState

namespace AowisMap.Terrain

open Lib Lib.QByteArray Prog

-- ============================================================ the world

inductive SourceLoadStatus
  | ready | unavailable | networkError | readError | cancelled
deriving DecidableEq, Repr

structure SourceLoadResult where
  status : SourceLoadStatus := .unavailable
  path : String := ""
  downloaded : Bool := false
  sourceConfirmedUnavailable : Bool := false
  errorMessage : String := ""
deriving DecidableEq, Repr

/-- Where a source is kept and where it comes from. -/
structure SourceTarget where
  directory : String
  path : String
  url : String

/-- The error of a network reply, as far as the code tells them apart. -/
inductive NetworkError
  | noError | contentNotFound | other
deriving DecidableEq, Repr

/-- An upstream answer: its status and headers, the body in the chunks
it was read in, and how the transfer ended. -/
structure SourceAnswer where
  httpStatus : Int
  etag : Bytes := []
  contentRange : Bytes := []
  contentLength : Option Int := none
  chunks : List Bytes := []
  networkError : NetworkError := .noError
  errorText : String := ""
  connectionExpired : Bool := false
  deadlineExpired : Bool := false
deriving DecidableEq

/-- The body bytes that arrived. -/
def SourceAnswer.body (answer : SourceAnswer) : Bytes := answer.chunks.flatten

/-- Whether the transfer broke off. -/
def SourceAnswer.interrupted (answer : SourceAnswer) : Bool :=
  answer.networkError != .noError || answer.connectionExpired ||
    answer.deadlineExpired

/-- How the wait for the source lock ends. -/
inductive LockWait
  | taken | cancelled | timedOut
deriving DecidableEq, Repr

/-- What one call meets. -/
structure Attempt where
  allowRemoteFetch : Bool := true
  cancelledAtStart : Bool := false
  lockWait : LockWait := .taken
  cancelledLocked : Bool := false
  stagingError : String := ""
  generationCancelledStaged : Bool := false
  tokenCancelledStaged : Bool := false
  cancelledReceiving : Bool := false
  cancelledComplete : Bool := false
  answer : SourceAnswer

/-- The files of one source; `answered` and `published` are history. -/
structure SourceDisk where
  finalFile : Option Bytes := none
  partialFile : Option Bytes := none
  metadataFile : Option Bytes := none
  incomingFile : Option Bytes := none
  answered : List SourceAnswer := []
  published : List Bytes := []
deriving DecidableEq

/-- A source that is there, with at least one byte. -/
def SourceDisk.isLocal (disk : SourceDisk) : Bool :=
  disk.finalFile.any fun bytes => !bytes.isEmpty

-- ====================================================== file operations

/-- An operation that touches no modelled file and may fail. -/
def probe : Prog SourceDisk Bool := perform id

/-- A readable source of at least one byte is in place. -/
def sourceReady : Prog SourceDisk Bool := do
  let readable ← probe
  read fun disk => readable && disk.isLocal

def discardIncoming : Prog SourceDisk Unit :=
  unchecked fun disk => { disk with incomingFile := none }

def discardPartial : Prog SourceDisk Unit := do
  unchecked fun disk => { disk with partialFile := none }
  unchecked fun disk => { disk with metadataFile := none }

def discardPartialIf (unusable : Bool) : Prog SourceDisk Unit :=
  if unusable then discardPartial else pure ()

/-- `loadCopernicusPartialState`; files that cannot be read hold no
state. -/
def loadCopernicusPartialState :
    Prog SourceDisk (Option CopernicusPartialState) := do
  let readable ← probe
  read fun disk =>
    if readable then loadPartialState disk.partialFile disk.metadataFile
      maximumSourceDownloadBytes
    else none

/-- `saveCopernicusPartialState`: the metadata file is replaced as a
whole or not at all. -/
def saveCopernicusPartialState (state : CopernicusPartialState) :
    Prog SourceDisk Bool :=
  if validCopernicusPartialState state maximumSourceDownloadBytes then
    perform fun disk =>
      { disk with metadataFile := some (partialStateText state) }
  else pure false

/-- `QFile::rename` of the incoming file to the partial one, which it
never overwrites. -/
def renameIncoming : Prog SourceDisk Bool := do
  let taken ← read fun disk => disk.partialFile.isSome
  if taken then pure false
  else perform fun disk =>
    { disk with partialFile := disk.incomingFile, incomingFile := none }

/-- The first bytes of the partial file, then those of the incoming one.
-/
def SourceDisk.combined (disk : SourceDisk) (prefixBytes suffixBytes : Nat) :
    Bytes :=
  (disk.partialFile.getD []).take prefixBytes ++
    (disk.incomingFile.getD []).take suffixBytes

/-- `appendCopernicusPartialSuffix`: the longer prefix replaces the
partial file as a whole, then the metadata follow. -/
def appendCopernicusPartialSuffix (old : CopernicusPartialState)
    (suffixBytes : Nat) : Prog SourceDisk Bool :=
  if validCopernicusPartialState old maximumSourceDownloadBytes = false ∨
      suffixBytes = 0 ∨ old.totalBytes - old.downloadedBytes ≤ suffixBytes then
    pure false
  else do
    let current ← loadCopernicusPartialState
    let incomingBytes ← read fun disk => (disk.incomingFile.getD []).length
    if current ≠ some old ∨ incomingBytes ≠ suffixBytes then pure false
    else do
      let committed ← perform fun disk =>
        { disk with
          partialFile := some
            (disk.combined old.downloadedBytes suffixBytes) }
      if committed then
        saveCopernicusPartialState
          { old with downloadedBytes := old.downloadedBytes + suffixBytes }
      else pure false

/-- What a publication copies: the incoming file behind the partial one
if that is asked for. -/
def SourceDisk.assembled (disk : SourceDisk) (appendPrior : Bool) :
    Option Bytes :=
  match disk.incomingFile, disk.partialFile with
  | some incoming, some stored =>
      some (if appendPrior then stored ++ incoming else incoming)
  | some incoming, none => if appendPrior then none else some incoming
  | none, _ => none

/-- `publishCopernicusSource`: the final file appears as a whole or not
at all. -/
def publishCopernicusSource (appendPrior : Bool) : Prog SourceDisk Bool := do
  let bytes ← read fun disk => disk.assembled appendPrior
  match bytes with
  | some bytes => perform fun disk =>
      { disk with
        finalFile := some bytes
        published := disk.published ++ [bytes] }
  | none => pure false

-- ============================================================== results

variable (target : SourceTarget)

def cancelledResult : SourceLoadResult where
  status := .cancelled
  path := target.path
  errorMessage := "Copernicus upstream download canceled"

def readyResult (downloaded : Bool) : SourceLoadResult where
  status := .ready
  path := target.path
  downloaded := downloaded

/-- A failure with its message. -/
def failedResult (status : SourceLoadStatus) (errorMessage : String) :
    SourceLoadResult where
  status := status
  path := target.path
  errorMessage := errorMessage

-- ============================================================ receiving

/-- The read loop of the reply: the chunks are appended to the incoming
file until one does not fit the limit or cannot be written. The value is
the number of bytes received and whether writing failed. -/
def receive : List Bytes → Nat → Prog SourceDisk (Nat × Bool)
  | [], downloadedBytes => pure (downloadedBytes, false)
  | data :: rest, downloadedBytes =>
      if maximumSourceDownloadBytes < downloadedBytes + data.length then
        pure (downloadedBytes + data.length, true)
      else do
        let written ← perform fun disk =>
          { disk with
            incomingFile := disk.incomingFile.map fun bytes => bytes ++ data }
        if written then receive rest (downloadedBytes + data.length)
        else pure (downloadedBytes + data.length, true)

-- ==================================================== settling an answer

/-- An interrupted full response that may be resumed: its entity and its
expected size are known. -/
def SourceAnswer.keepsFull (answer : SourceAnswer) (downloadedBytes : Nat) :
    Option CopernicusPartialState :=
  match answer.contentLength with
  | some contentLength =>
      if answer.httpStatus = 200 ∧ 0 < downloadedBytes ∧
          (downloadedBytes : Int) < contentLength ∧
          contentLength ≤ (maximumSourceDownloadBytes : Int) ∧
          validCopernicusStrongEtag answer.etag = true then
        some
          { downloadedBytes := downloadedBytes
            totalBytes := contentLength.toNat
            strongEtag := answer.etag }
      else none
  | none => none

/-- An interrupted partial response that continues the stored prefix. -/
def SourceAnswer.continues (answer : SourceAnswer)
    (prior : CopernicusPartialState) (downloadedBytes : Nat) : Bool :=
  match parseCopernicusContentRange answer.contentRange with
  | some range =>
      let remaining := prior.totalBytes - prior.downloadedBytes
      range.first == prior.downloadedBytes &&
        range.total == prior.totalBytes && range.last + 1 == range.total &&
        range.last - range.first + 1 == remaining &&
        answer.etag == prior.strongEtag &&
        answer.contentLength == some (remaining : Int) &&
        decide (downloadedBytes < remaining)
  | none => false

/-- Keeps an interrupted full response as the new partial source. -/
def keepFull (state : CopernicusPartialState) : Prog SourceDisk Unit := do
  discardPartial
  let renamed ← renameIncoming
  if renamed then do
    let saved ← saveCopernicusPartialState state
    if saved then pure () else discardPartial
  else discardIncoming

/-- Appends an interrupted partial response to the stored prefix. -/
def keepSuffix (answer : SourceAnswer) (prior : CopernicusPartialState)
    (downloadedBytes : Nat) : Prog SourceDisk Unit :=
  if answer.continues prior downloadedBytes then do
    let _ ← appendCopernicusPartialSuffix prior downloadedBytes
    discardIncoming
  else discardIncoming

/-- What is kept of an interrupted transfer. -/
def keepInterrupted (answer : SourceAnswer)
    (prior : Option CopernicusPartialState) (downloadedBytes : Nat) :
    Prog SourceDisk Unit :=
  match answer.keepsFull downloadedBytes, prior with
  | some state, _ => keepFull state
  | none, some prior =>
      if answer.httpStatus = 206 ∧ 0 < downloadedBytes then
        keepSuffix answer prior downloadedBytes
      else discardIncoming
  | none, none => discardIncoming

/-- Whether a finished response completes the stored prefix. -/
def SourceAnswer.appendsPrior (answer : SourceAnswer)
    (prior : Option CopernicusPartialState) (downloadedBytes : Nat) : Bool :=
  match prior with
  | some prior =>
      answer.httpStatus == 206 &&
        classifyCopernicusResumeResponse answer.httpStatus
          prior.downloadedBytes downloadedBytes answer.contentRange
          prior.strongEtag answer.etag maximumSourceDownloadBytes
          == .appendVerifiedRange &&
        prior.downloadedBytes + downloadedBytes == prior.totalBytes
  | none => false

/-- Whether the bytes of a finished response may be published. -/
def SourceAnswer.publishable (answer : SourceAnswer) (appendPrior : Bool)
    (downloadedBytes : Nat) : Bool :=
  if appendPrior then
    answer.contentLength.all fun contentLength =>
      contentLength == (downloadedBytes : Int)
  else completeCopernicusResponse answer.httpStatus downloadedBytes
    (answer.contentLength.getD (-1))

/-- Publishes a finished response that passed every check. -/
def publishFinished (appendPrior : Bool) : Prog SourceDisk SourceLoadResult :=
  do
  let published ← publishCopernicusSource appendPrior
  if published then do
    discardIncoming
    discardPartial
    pure (readyResult target true)
  else do
    discardIncoming
    pure (failedResult target .readError
      ("Failed to publish complete Copernicus source: " ++ target.path))

/-- A finished response with status 200 or 206. -/
def settleFinished (attempt : Attempt)
    (prior : Option CopernicusPartialState) (downloadedBytes : Nat) :
    Prog SourceDisk SourceLoadResult :=
  let appendPrior := attempt.answer.appendsPrior prior downloadedBytes
  if attempt.answer.publishable appendPrior downloadedBytes = false then do
    discardIncoming
    discardPartialIf (attempt.answer.httpStatus == 206)
    pure (failedResult target .networkError
      ("Copernicus returned incomplete or inconsistent source bytes: "
        ++ target.url))
  else if attempt.cancelledComplete then do
    discardIncoming
    pure (cancelledResult target)
  else publishFinished target appendPrior

/-- A finished response with another status. -/
def settleRejected (answer : SourceAnswer) :
    Prog SourceDisk SourceLoadResult := do
  discardIncoming
  discardPartialIf (answer.httpStatus == 416)
  pure (failedResult target .networkError
    ("Copernicus upstream rejected request: HTTP "
      ++ toString answer.httpStatus ++ ", " ++ target.url))

/-- The message of a response that could not be stored. -/
def writeFailedMessage (downloadedBytes : Nat) : String :=
  if maximumSourceDownloadBytes < downloadedBytes then
    "Copernicus source tile exceeded the "
      ++ toString (maximumSourceDownloadBytes / (1024 * 1024))
      ++ " MiB safety limit: " ++ target.url
  else "Failed to stage Copernicus provider source: " ++ target.path
    ++ ".incoming"

/-- What becomes of an answer once its transfer is over. -/
def settle (attempt : Attempt) (prior : Option CopernicusPartialState)
    (received : Nat × Bool) : Prog SourceDisk SourceLoadResult :=
  if attempt.cancelledReceiving then do
    discardIncoming
    pure (cancelledResult target)
  else if received.2 then do
    discardIncoming
    pure (failedResult target .readError
      (writeFailedMessage target received.1))
  else if attempt.answer.httpStatus = 404 ∨
      attempt.answer.networkError = .contentNotFound then do
    discardIncoming
    discardPartial
    pure
      { failedResult target .unavailable
          ("Copernicus GLO-30 source tile is unavailable: " ++ target.url) with
        sourceConfirmedUnavailable := true }
  else if attempt.answer.interrupted then do
    keepInterrupted attempt.answer prior received.1
    pure (failedResult target .networkError
      ("Copernicus transfer interrupted: " ++ target.url ++ " ("
        ++ attempt.answer.errorText ++ ")"))
  else if attempt.answer.httpStatus ≠ 200 ∧
      attempt.answer.httpStatus ≠ 206 then
    settleRejected target attempt.answer
  else settleFinished target attempt prior received.1

-- ============================================================ an attempt

/-- What the first half of an attempt comes to: a result, or an answer that
was received, with the number of bytes and whether writing them failed. -/
inductive Reception
  | returned (result : SourceLoadResult)
  | received (prior : Option CopernicusPartialState) (count : Nat × Bool)

/-- Requests the source, or the rest of it. -/
def requestSource (attempt : Attempt)
    (prior : Option CopernicusPartialState) : Prog SourceDisk Reception := do
  always fun disk => { disk with answered := disk.answered ++ [attempt.answer] }
  let count ← receive attempt.answer.chunks 0
  pure (.received prior count)

/-- Goes on once the incoming file was opened, or not. -/
def openedSource (attempt : Attempt)
    (prior : Option CopernicusPartialState) (opened : Bool) :
    Prog SourceDisk Reception :=
  if opened = false then
    pure (.returned (failedResult target .readError
      ("Failed to stage Copernicus source " ++ target.path ++ ".incoming: "
        ++ attempt.stagingError)))
  else if attempt.generationCancelledStaged then
    pure (.returned (cancelledResult target))
  else if attempt.tokenCancelledStaged then do
    discardIncoming
    pure (.returned (cancelledResult target))
  else requestSource attempt prior

/-- Stages the incoming file, with the source lock held. -/
def stageSource (attempt : Attempt) : Prog SourceDisk Reception := do
  let prior ← loadCopernicusPartialState
  discardPartialIf prior.isNone
  discardIncoming
  let opened ← perform fun disk => { disk with incomingFile := some [] }
  openedSource target attempt prior opened

/-- Waits for the source lock. -/
def lockSource (attempt : Attempt) : Prog SourceDisk Reception :=
  match attempt.lockWait with
  | .cancelled => pure (.returned (cancelledResult target))
  | .timedOut => pure (.returned (failedResult target .readError
      ("Timed out waiting for Copernicus provider cache fill: "
        ++ target.path)))
  | .taken =>
      if attempt.cancelledLocked then
        pure (.returned (cancelledResult target))
      else do
        let ready ← sourceReady
        if ready then pure (.returned (readyResult target false))
        else stageSource target attempt

/-- `downloadSourceTile` up to the closing of the incoming file. -/
def receiveSource (attempt : Attempt) : Prog SourceDisk Reception :=
  if attempt.cancelledAtStart then
    pure (.returned { cancelledResult target with path := "" })
  else do
    let ready ← sourceReady
    if ready then pure (.returned (readyResult target false))
    else if attempt.allowRemoteFetch = false then
      pure (.returned (failedResult target .unavailable
        ("Copernicus provider-native source tile is not cached and remote "
          ++ "fetching is disabled: " ++ target.path)))
    else do
      let created ← probe
      if created then lockSource target attempt
      else pure (.returned (failedResult target .readError
        ("Failed to create Copernicus provider cache directory: "
          ++ target.directory)))

/-- `downloadSourceTile`, with what closing the incoming file does. -/
def downloadSourceTileClosing (close : Prog SourceDisk Unit)
    (attempt : Attempt) : Prog SourceDisk SourceLoadResult := do
  let reception ← receiveSource target attempt
  match reception with
  | .returned result => pure result
  | .received prior count => do
      close
      settle target attempt prior count

/-- `downloadSourceTile`, where closing the incoming file loses nothing. -/
def downloadSourceTile (attempt : Attempt) :
    Prog SourceDisk SourceLoadResult :=
  downloadSourceTileClosing target (pure ()) attempt

-- ====================================================== attempts in order

/-- What happens to the files of one source: an attempt, with the fates
of its file operations, or the removal of the published file. -/
inductive SourceAction
  | attempt (attempt : Attempt) (fates : List Bool)
  | removeFinal

/-- One step: an attempt leaves what was stored when it returned or
died. -/
def sourceStep : SourceAction → SourceDisk → Option SourceDisk
  | .attempt attempt fates, disk =>
      some ((downloadSourceTile target attempt).exec fates disk).2
  | .removeFinal, disk => some { disk with finalFile := none }

/-- The files before the first attempt: neither a partial source nor
metadata, whatever else lies there. -/
def SourceDisk.init (finalFile incomingFile : Option Bytes) : SourceDisk where
  finalFile := finalFile
  incomingFile := incomingFile

end AowisMap.Terrain
