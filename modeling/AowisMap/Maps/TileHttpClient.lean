/-
`TileHttpClient`: one upstream request with its size limit, its overall
deadline, its retry and its cancellation.

# Two builds

The Windows build sends a request a second time when it timed out, and
takes an aborted transfer for a timeout; the other builds do neither.
`Platform` says which build it is.

# The network

A reply ends when the network says so, with whatever it says (`Answer`).
`abort` asks the network to end a reply soon; what an aborted reply ends
with is as free as for any other, since an error it had met before the
abort stays. Each `abort` is the last thing its caller does, so it does
not matter whether the reply ends inside the call or behind it.

# Identities and history

Replies, retry timers and requests are numbered. `Reply.request`,
`Retry.request`, `sent` and `emitted` are history: they record which
`get` or `post` a reply, a timer, a message to the network and a signal
belong to. No transition reads them.
-/
import AowisMap.Lib.Hash
import AowisMap.Lib.QByteArray
import AowisMap.Lib.QString
import AowisMap.Lib.Run
import AowisMap.Maps.Types

namespace AowisMap.Maps.TileHttpClient

open Lib Lib.QByteArray

-- ================================================================ limits

inductive Platform
  | windows | other
deriving DecidableEq, Repr

def transferTimeoutMs : Nat := 20000

def overallTimeoutMs : Platform → Nat
  | .windows => 30000
  | .other => 45000

def timeoutRetryCount : Platform → Nat
  | .windows => 1
  | .other => 0

def maximumTileSize : Nat := 10 * 1024 * 1024

-- ================================================================ images

def pngSignature : Bytes := [0x89, 0x50, 0x4e, 0x47, 0x0d, 0x0a, 0x1a, 0x0a]

def isPng (data : Bytes) : Bool := pngSignature.isPrefixOf data

def isJpeg (data : Bytes) : Bool := data.take 3 == [0xff, 0xd8, 0xff]

def isWebp (data : Bytes) : Bool :=
  data.length ≥ 12 && data.take 4 == ascii "RIFF" &&
    (data.drop 8).take 4 == ascii "WEBP"

/-- `hasSupportedImageSignature`. -/
def hasSupportedImageSignature (data : Bytes) : Bool :=
  isPng data || isJpeg data || isWebp data

-- =============================================================== answers

/-- `QNetworkReply::NetworkError`, as far as the client tells errors
apart. -/
inductive NetworkError
  | noError | timeoutError | operationCanceledError | otherError
deriving DecidableEq, Repr

/-- What a finished reply says. -/
structure Answer where
  error : NetworkError := .noError
  errorString : String := ""
  /-- `HttpStatusCodeAttribute`, if it is valid. -/
  status : Option Int := some 200
  /-- The `Cache-Control` header, empty without one. -/
  cacheControl : Bytes := []
  /-- The `Content-Type` header, empty without one. -/
  contentType : List Char := []
  body : Bytes := []

/-- `normalizedContentType`; `toLower` is `QString::toLower`. -/
def normalizedContentType (toLower : List Char → List Char)
    (answer : Answer) : List Char :=
  toLower (QString.trimmed (answer.contentType.takeWhile (· ≠ ';')))

/-- Neither `no-store` nor `private` stands in `Cache-Control`. -/
def mayStore (answer : Answer) : Bool :=
  let cacheControl := lowered answer.cacheControl
  !contains cacheControl (ascii "no-store") &&
    !contains cacheControl (ascii "private")

inductive RequestFailureReason
  | upstreamError | timeout | invalidResponse | cancelled
deriving DecidableEq, Repr

/-- A signal of the client. -/
inductive Outcome
  | requestFinished (data : Bytes) (mayStore : Bool)
  | requestError (reason : RequestFailureReason) (error : String)
deriving DecidableEq

def cancelledOutcome : Outcome :=
  .requestError .cancelled "Tile download canceled"

def tooLargeOutcome : Outcome :=
  .requestError .invalidResponse ("Tile response exceeds the maximum size of "
    ++ String.ofList (QString.number maximumTileSize) ++ " bytes")

/-- Why a response to a tile request is no tile. -/
def tileError (toLower : List Char → List Char) (answer : Answer) :
    Option Outcome :=
  let contentType := normalizedContentType toLower answer
  if answer.body = [] then
    some (.requestError .invalidResponse
      "Tile server returned an empty response")
  else if answer.body.length > maximumTileSize then some tooLargeOutcome
  else if contentType ≠ [] ∧
      contentType ≠ "application/octet-stream".toList ∧
      "image/".toList.isPrefixOf contentType = false then
    some (.requestError .invalidResponse
      ("Unexpected tile content type: " ++ String.ofList contentType))
  else if hasSupportedImageSignature answer.body = false then
    some (.requestError .invalidResponse
      "Tile response is not a supported PNG, JPEG, or WebP image")
  else none

/-- The end of `handleReply`, common to both builds: the response of a
transfer without errors. -/
def responseOutcome (toLower : List Char → List Char)
    (validateTileResponse : Bool) (answer : Answer) : Outcome :=
  match answer.status with
  | none =>
      .requestError .invalidResponse "Tile response has no HTTP status code"
  | some status =>
      if status < 200 ∨ status ≥ 300 then
        .requestError .upstreamError ("Tile server returned HTTP "
          ++ String.ofList (QString.number status))
      else
        match if validateTileResponse then tileError toLower answer
          else none with
        | some error => error
        | none => .requestFinished answer.body (mayStore answer)

-- ================================================================= state

abbrev RequestId := Nat
abbrev ReplyId := Nat
abbrev TimerId := Nat

/-- A reply the client listens to: what its handler captured, and its
properties `aowis_too_large` and `aowis_overall_timeout`. -/
structure Reply where
  request : RequestId
  endpoint : String
  validateTileResponse : Bool
  attempt : Nat
  tooLarge : Bool := false
  overallTimeout : Bool := false
deriving DecidableEq

/-- A scheduled second attempt. -/
structure Retry where
  request : RequestId
  endpoint : String
  attempt : Nat
deriving DecidableEq

structure Emitted where
  request : RequestId
  validated : Bool
  outcome : Outcome
deriving DecidableEq

structure State where
  activeReply : Option ReplyId
  cancelRequested : Bool
  replies : QHash ReplyId Reply
  retries : QHash TimerId Retry
  nextReply : ReplyId
  nextTimer : TimerId
  nextRequest : RequestId
  sent : List RequestId
  emitted : List Emitted

/-- A client after its constructor. -/
def State.init : State where
  activeReply := none
  cancelRequested := false
  replies := ∅
  retries := ∅
  nextReply := 0
  nextTimer := 0
  nextRequest := 0
  sent := []
  emitted := []

-- ============================================================ operations

def emit (request : RequestId) (validated : Bool) (outcome : Outcome)
    (s : State) : State :=
  { s with emitted := s.emitted ++ [⟨request, validated, outcome⟩] }

/-- `network_manager->get`, and the reply as the active one. -/
def send (request : RequestId) (endpoint : String) (attempt : Nat)
    (s : State) : State :=
  { s with
    replies := s.replies.insert s.nextReply
      { request := request, endpoint := endpoint,
        validateTileResponse := true, attempt := attempt }
    activeReply := some s.nextReply
    nextReply := s.nextReply + 1
    sent := s.sent ++ [request] }

/-- `getAttempt` of the Windows build. -/
def getAttempt (request : RequestId) (endpoint : String) (attempt : Nat)
    (s : State) : State :=
  if s.cancelRequested then emit request true cancelledOutcome s
  else send request endpoint attempt s

/-- `get`. -/
def get (platform : Platform) (endpoint : String) (s : State) : State :=
  let request := s.nextRequest
  let s := { s with
    cancelRequested := false
    nextRequest := s.nextRequest + 1 }
  match platform with
  | .windows => getAttempt request endpoint 0 s
  | .other => send request endpoint 0 s

/-- `post`: its reply is not the active one, and its response is not
checked. -/
def post (endpoint : String) (s : State) : State :=
  { s with
    nextRequest := s.nextRequest + 1
    replies := s.replies.insert s.nextReply
      { request := s.nextRequest, endpoint := endpoint,
        validateTileResponse := false, attempt := 0 }
    nextReply := s.nextReply + 1
    sent := s.sent ++ [s.nextRequest] }

/-- `cancel`: the active reply is aborted, from whichever thread. -/
def cancel (s : State) : State := { s with cancelRequested := true }

-- =============================================================== replies

/-- What `handleReply` does about a reply that ended. -/
inductive Verdict
  | emits (outcome : Outcome)
  | retries

/-- `handleReply` of the Windows build. -/
def windowsVerdict (toLower : List Char → List Char) (cancelRequested : Bool)
    (reply : Reply) (answer : Answer) : Verdict :=
  if cancelRequested then .emits cancelledOutcome
  else if reply.tooLarge then .emits tooLargeOutcome
  else if reply.overallTimeout ∨ answer.error = .timeoutError ∨
      answer.error = .operationCanceledError then
    if reply.validateTileResponse ∧
        reply.attempt < timeoutRetryCount .windows then .retries
    else if reply.overallTimeout then
      .emits (.requestError .timeout ("Overall tile request timed out after "
        ++ String.ofList (QString.number (overallTimeoutMs .windows))
        ++ " ms"))
    else
      .emits (.requestError .timeout ("Tile transfer timed out after "
        ++ String.ofList (QString.number transferTimeoutMs)
        ++ " ms without data"))
  else if answer.error ≠ .noError then
    .emits (.requestError .upstreamError answer.errorString)
  else .emits (responseOutcome toLower reply.validateTileResponse answer)

/-- `handleReply` of the other builds. -/
def otherVerdict (toLower : List Char → List Char) (cancelRequested : Bool)
    (reply : Reply) (answer : Answer) : Verdict :=
  if cancelRequested then .emits cancelledOutcome
  else if reply.tooLarge then .emits tooLargeOutcome
  else if reply.overallTimeout ∨ answer.error = .timeoutError then
    .emits (.requestError .timeout
      (if reply.overallTimeout then "Overall tile request timed out after "
        ++ String.ofList (QString.number (overallTimeoutMs .other)) ++ " ms"
      else answer.errorString))
  else if answer.error ≠ .noError then
    .emits (.requestError .upstreamError answer.errorString)
  else .emits (responseOutcome toLower reply.validateTileResponse answer)

def verdict (toLower : List Char → List Char) :
    Platform → Bool → Reply → Answer → Verdict
  | .windows => windowsVerdict toLower
  | .other => otherVerdict toLower

/-- `handleReply`. The reply is deleted in every case. -/
def handleReply (toLower : List Char → List Char) (platform : Platform)
    (id : ReplyId) (reply : Reply) (answer : Answer) (s : State) : State :=
  let s := { s with
    activeReply := if s.activeReply = some id then none else s.activeReply
    replies := s.replies.erase id }
  match verdict toLower platform s.cancelRequested reply answer with
  | .emits outcome =>
      emit reply.request reply.validateTileResponse outcome s
  | .retries =>
      { s with
        retries := s.retries.insert s.nextTimer
          ⟨reply.request, reply.endpoint, reply.attempt⟩
        nextTimer := s.nextTimer + 1 }

-- =========================================================== transitions

inductive Action
  | get (endpoint : String)
  | post (endpoint : String)
  | cancel
  /-- `downloadProgress` of a reply to a `get`. -/
  | progress (reply : ReplyId) (received total : Int)
  /-- The overall deadline of a reply to a `get`. -/
  | overallDeadline (reply : ReplyId)
  | finished (reply : ReplyId) (answer : Answer)
  /-- The retry delay is over. -/
  | retryDelay (timer : TimerId)

/-- A reply to a `get`. -/
def tileReply (id : ReplyId) (s : State) : Option Reply :=
  (s.replies.lookup id).filter (·.validateTileResponse)

/-- A property of a reply changes. -/
def setReply (id : ReplyId) (reply : Reply) (s : State) : State :=
  { s with replies := s.replies.insert id reply }

/-- The client's transition function. -/
def next (toLower : List Char → List Char) (platform : Platform)
    (a : Action) (s : State) : Option State :=
  match a with
  | .get endpoint => some (get platform endpoint s)
  | .post endpoint => some (post endpoint s)
  | .cancel => some (cancel s)
  | .progress id received total =>
      (tileReply id s).map fun reply =>
        if received > maximumTileSize ∨ total > maximumTileSize then
          setReply id { reply with tooLarge := true } s
        else s
  | .overallDeadline id =>
      (tileReply id s).map fun reply =>
        setReply id { reply with overallTimeout := true } s
  | .finished id answer =>
      (s.replies.lookup id).map fun reply =>
        handleReply toLower platform id reply answer s
  | .retryDelay timer =>
      (s.retries.lookup timer).map fun retry =>
        getAttempt retry.request retry.endpoint (retry.attempt + 1)
          { s with retries := s.retries.erase timer }

/-- Reachable states of a client. -/
abbrev Reachable (toLower : List Char → List Char) (platform : Platform) :
    State → Prop :=
  Run (next toLower platform) anyStep State.init

end AowisMap.Maps.TileHttpClient
