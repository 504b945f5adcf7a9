/-
  NotifyHub.Control.Types — the data of the gateway's control registry
  (apps/gateway/src/modules/control/instance-registry.ts) and of the frames it
  exchanges with plugins (packages/contracts/src/schemas/control.ts).

  A connection is named by what never changes about it: the key it authenticated with
  and a serial that tells sockets of one key apart. Everything else of a
  `ControlConnection` (its `uid`, `alive`, `instanceId`, and the state of its socket)
  is in the registry's state. A WebUI client is named likewise by its user and a
  serial. An instant is a number of milliseconds; `toISOString` of it is not modelled.
-/

import NotifyHub.Lib.Json
import NotifyHub.Lib.OMap

namespace NotifyHub.Control

/-- A user id: a UUID column of the database, so free of NUL. -/
structure UserId where
  chars : JsString
  noNul : 0 ∉ chars
  deriving DecidableEq

structure VerifiedIngestKey where
  id : JsString
  userId : UserId
  deriving DecidableEq

structure ConnId where
  auth : VerifiedIngestKey
  serial : Nat
  deriving DecidableEq

structure ClientId where
  userId : UserId
  serial : Nat
  deriving DecidableEq

abbrev ConnId.user (c : ConnId) : UserId := c.auth.userId

/-! ## Limits -/

def CONTROL_CLOSE_INVALID_FRAME : Nat := 4400
def CONTROL_CLOSE_KEY_REVOKED : Nat := 4403
def WS_CLOSE_SERVER_SHUTDOWN : Nat := 1012
def WS_MAX_BUFFERED_BYTES : Nat := 1024 * 1024
def MAX_STALE_REQUEST_IDS : Nat := 256
def READY_OPEN : Nat := 1
def READY_CLOSING : Nat := 2
def SUPPORTED_PROTOCOL_VERSION : Nat := 2

/-! ## Interactions -/

inductive CommandKind where
  | question
  | permission
  deriving DecidableEq

structure PendingTool where
  messageId : JsString
  callId : JsString
  deriving DecidableEq

structure PendingQuestionOption where
  label : JsString
  description : JsString
  deriving DecidableEq

structure PendingQuestionItem where
  header : JsString
  question : JsString
  options : List PendingQuestionOption
  multiple : Bool
  custom : Bool
  deriving DecidableEq

inductive InteractionBody where
  | question (questions : List PendingQuestionItem)
  | permission (permission : JsString) (patterns always : List JsString) (metadata : List (JsString × Json))

structure PendingInteraction where
  instanceId : JsString
  machine : JsString
  project : JsString
  directory : JsString
  sessionId : JsString
  sessionTitle : JsString
  requestId : JsString
  occurredAt : JsString
  tool : Option PendingTool
  body : InteractionBody

def PendingInteraction.kind (i : PendingInteraction) : CommandKind :=
  match i.body with
  | .question _ => .question
  | .permission .. => .permission

/-! ## Frames -/

inductive InstanceState where
  | controllable
  | conflicting
  | incompatible
  | offline
  deriving DecidableEq

structure RegisterMessage where
  instanceId : JsString
  machine : JsString
  project : JsString
  directory : JsString
  openCodeVersion : JsString
  webUiAvailable : Option Bool
  protocolVersion : Nat
  deriving DecidableEq

/-- The status of an answer or decision result frame. -/
inductive CommandStatus where
  | confirmed
  | stale
  | upstreamError
  | resultUnknown
  deriving DecidableEq

inductive PromptCommandStatus where
  | confirmed
  | upstreamError
  | resultUnknown
  deriving DecidableEq

inductive CommandOutcomeStatus where
  | accepted
  | settled (status : CommandStatus)
  deriving DecidableEq

inductive PermissionDecision where
  | once
  | reject
  | always
  deriving DecidableEq

abbrev QuestionAnswers := List (List JsString)

structure SessionCatalogQuery where
  search : Option JsString
  limit : Option Nat
  sessionIds : Option JsString
  deriving DecidableEq

inductive CatalogSessionStatus where
  | idle
  | busy
  | retry
  | unknown
  deriving DecidableEq

structure CatalogSession where
  sessionId : JsString
  title : JsString
  directory : JsString
  updatedAt : JsString
  status : CatalogSessionStatus
  deriving DecidableEq

structure SessionCatalog where
  sessions : List CatalogSession
  hasMore : Bool
  deriving DecidableEq

inductive CatalogStatus where
  | ready
  | error
  | unsupported
  deriving DecidableEq

/-- A `webui_http_response_start`, `_chunk` or `_end` frame's own part. -/
inductive WebUiResponsePart where
  | start (status : Nat) (headers : List (JsString × List JsString))
  | chunk (body : JsString)
  | «end»
  deriving DecidableEq

/-- `PluginControlClientMessage`: a frame of the plugin that passed validation. -/
inductive ClientMessage where
  | register (registration : RegisterMessage)
  | pendingSnapshotResponse (requestId instanceId : JsString) (interactions : List PendingInteraction)
  | questionAnswerResult (commandId instanceId : JsString) (status : CommandStatus)
  | permissionDecideResult (commandId instanceId : JsString) (status : CommandStatus)
  | sessionPromptResult (commandId instanceId : JsString) (status : PromptCommandStatus)
  | webUiResponse (tunnelId requestId : JsString) (part : WebUiResponsePart)
  | sessionCatalogResponse (requestId instanceId : JsString) (status : CatalogStatus)
      (catalog : Option SessionCatalog)

/-- The frame that reports the status of a command. -/
def CommandKind.result (k : CommandKind) (commandId instanceId : JsString) (status : CommandStatus) : ClientMessage :=
  match k with
  | .question => .questionAnswerResult commandId instanceId status
  | .permission => .permissionDecideResult commandId instanceId status

/-- `PluginControlServerMessage`. -/
inductive ServerMessage where
  | registration (instanceId : JsString) (state : InstanceState)
  | pendingSnapshotRequest (requestId : JsString)
  | questionAnswerCommand (commandId requestId sessionID : JsString) (answers : QuestionAnswers)
  | permissionDecideCommand (commandId requestId sessionID : JsString) (decision : PermissionDecision)
  | sessionPromptCommand (commandId sessionID text : JsString)
  | webUiHttpRequest (tunnelId requestId method path : JsString) (headers : List (JsString × Json))
      (body : Option JsString)
  | webUiHttpCancel (tunnelId requestId : JsString)
  | webUiTunnelClose (tunnelId : JsString)
  | sessionCatalogRequest (requestId : JsString) (query : SessionCatalogQuery)

/-- What the gateway writes to a WebUI client. -/
inductive WebUiFrame where
  | authReady (expiresAtMs : Nat)
  | tunnelReady (tunnelId : JsString) (expiresAtMs : Nat)
  | tunnelError
  | response (tunnelId requestId : JsString) (part : WebUiResponsePart)
  deriving DecidableEq

/-! ## Sockets and records -/

/-- The part of a `RealtimeSocket` the registry reads, and whether its `send` throws. -/
structure Socket where
  readyState : Nat
  bufferedAmount : Nat
  sendThrows : Bool
  deriving DecidableEq

def Socket.open (s : Socket) : Bool := s.readyState == READY_OPEN

/-- What `close` and `terminate` do to a socket's state. -/
def Socket.shut (s : Socket) : Socket := { s with readyState := max s.readyState READY_CLOSING }

/-- A socket `send` gets a frame out of: open, not over the backlog limit, not throwing. -/
def Socket.accepts (s : Socket) : Bool :=
  s.open && s.bufferedAmount ≤ WS_MAX_BUFFERED_BYTES && !s.sendThrows

structure ControlConnection where
  /-- `add` has been called with this connection's socket. -/
  added : Bool
  socket : Socket
  uid : Nat
  alive : Bool
  instanceId : Option JsString
  deriving DecidableEq

/-- `Pick<PendingInteraction, "kind" | "sessionId">`. -/
structure Projected where
  kind : CommandKind
  sessionId : JsString
  deriving DecidableEq

structure InstanceRecord where
  registration : RegisterMessage
  userId : UserId
  sequence : Nat
  state : InstanceState
  lastSeenAt : Nat
  connection : Option ConnId
  projectedRequests : OMap JsString Projected
  staleRequests : OMap JsString Nat

structure PendingSnapshotRequest where
  connection : ConnId
  requestId : JsString
  registration : RegisterMessage
  deriving DecidableEq

/-- `PendingAnswerCommand` and `PendingDecideCommand`. Its timer is armed as long as it is kept. -/
structure PendingCommand where
  connection : ConnId
  requestId : JsString
  commandId : JsString
  deriving DecidableEq

structure PendingPromptCommand where
  connection : ConnId
  sessionID : JsString
  commandId : JsString
  deriving DecidableEq

structure CatalogRequest where
  connection : ConnId
  requestId : JsString
  deriving DecidableEq

structure WebUiTunnel where
  tunnelId : JsString
  connection : ConnId
  pendingRequests : List JsString
  deriving DecidableEq

/-- The variables `addWebUiClient` closes over, and the client's socket. -/
structure WebUiClient where
  added : Bool
  socket : Socket
  expiresAtMs : Nat
  /-- When the armed expiry timer is due. -/
  expiry : Option Nat
  heartbeat : Bool
  alive : Bool
  tunnel : Option WebUiTunnel
  deriving DecidableEq

inductive CatalogResult where
  | ready (catalog : SessionCatalog)
  | notFound
  | timeout
  | error
  | unsupported
  deriving DecidableEq

structure CommandOutcomeEntry where
  userId : UserId
  commandId : JsString
  requestId : JsString
  instanceId : JsString
  kind : CommandKind
  status : CommandOutcomeStatus
  updatedAt : Nat
  expiresAtMs : Nat
  deriving DecidableEq

/-- `CommandOutcome`: an entry without its owner and its expiry. -/
structure CommandOutcome where
  commandId : JsString
  requestId : JsString
  instanceId : JsString
  kind : CommandKind
  status : CommandOutcomeStatus
  updatedAt : Nat
  deriving DecidableEq

structure InstancePresence where
  instanceId : JsString
  machine : JsString
  project : JsString
  directory : JsString
  openCodeVersion : JsString
  webUiAvailable : Bool
  protocolVersion : Nat
  state : InstanceState
  lastSeenAt : Nat
  deriving DecidableEq

structure PendingSnapshot where
  generatedAt : Nat
  interactions : List PendingInteraction
  queriedInstanceIds : List JsString

/-- The promise of one `queryPendingSnapshot`: its result once resolved. -/
structure Batch where
  connection : ConnId
  requestId : JsString
  result : Option (List PendingInteraction)

/-- One `collectPendingInteractions` call waiting on its `Promise.all`. -/
structure Collection where
  userId : UserId
  queriedInstanceIds : List JsString
  batches : List Batch
  /-- One of its queries threw, so the call has failed. -/
  rejected : Bool

/-- `{ ok: true, result }` or `{ ok: false, error }` of the three command calls. -/
inductive CommandReply where
  | accepted (commandId : JsString)
  | notFound
  | conflict
  deriving DecidableEq

inductive ForgetInstanceOutcome where
  | deleted
  | notFound
  | notOffline
  deriving DecidableEq

/-- What the registry does to the world, in order. -/
inductive Effect where
  | sent (c : ConnId) (m : ServerMessage)
  | closed (c : ConnId) (code : Nat) (reason : String)
  | terminated (c : ConnId)
  | pinged (c : ConnId)
  | published (u : UserId) (instances : List InstancePresence)
  | clientSent (w : ClientId) (m : WebUiFrame)
  | clientClosed (w : ClientId) (code : Nat) (reason : String)
  | clientTerminated (w : ClientId)
  | clientPinged (w : ClientId)
  | catalog (u : UserId) (requestId : JsString) (result : CatalogResult)
  | collected (u : UserId) (snapshot : PendingSnapshot)
  | replied (u : UserId) (commandId : JsString) (reply : CommandReply)
  | forgotten (u : UserId) (instanceId : JsString) (result : ForgetInstanceOutcome)
  | outcome (u : UserId) (commandId : JsString) (result : Option CommandOutcome)
  /-- An exception left the operation of this user's socket or call. -/
  | threw (u : UserId) (message : String)

end NotifyHub.Control
