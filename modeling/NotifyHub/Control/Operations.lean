/-
  NotifyHub.Control.Operations — what happens to an `InstanceRegistry`: frames and
  events of plugin sockets, the calls of the HTTP routes, WebUI clients, timers. `step`
  is one of these, run to its end.

  A timer is the event that finds its entry, and fires at any time: only the WebUI
  expiry timer, whose delay depends on the state, keeps the time it is due. What the
  platform does to a socket (`socket`, `clientSocket`) is an event of its own.
-/

import NotifyHub.Control.Registry

namespace NotifyHub.Control

variable (D : Deps)

/-! ## Registering -/

def pruneOfflineOwnership (s : Registry) (u : UserId) (key exceptInstanceId : JsString) : Registry :=
  { s with records := s.records.filter fun _ r =>
      !(r.userId = u ∧ r.registration.instanceId ≠ exceptInstanceId ∧ r.state = .offline ∧
        ownershipKey D u r.registration = key) }

/-- The state `register` gives a record, from the owner of its key. -/
def registrationState (owner : Option JsString) (registration : RegisterMessage) : InstanceState :=
  if registration.protocolVersion ≠ SUPPORTED_PROTOCOL_VERSION then .incompatible
  else if owner = none ∨ owner = some registration.instanceId then .controllable
  else .conflicting

/-- `register`'s writes, once no other connection holds the instance. -/
def enroll (s : Registry) (c : ConnId) (registration : RegisterMessage) (existing : Option InstanceRecord) :
    Registry :=
  let s := s.setConn c { s.conns c with instanceId := some registration.instanceId }
  let key := ownershipKey D c.user registration
  let s := pruneOfflineOwnership D s c.user key registration.instanceId
  let state := registrationState (s.ownership.get key) registration
  { s with
    ownership := if state = .controllable then s.ownership.set key registration.instanceId else s.ownership
    nextSequence := if existing.isSome then s.nextSequence else s.nextSequence + 1
    records := s.records.set (recordKey c.user registration.instanceId)
      { registration, userId := c.user, sequence := (existing.map (·.sequence)).getD s.nextSequence, state,
        lastSeenAt := s.nowMs, connection := some c, projectedRequests := .empty, staleRequests := .empty } }

/-- The rest of `register`: the writes, the verdict, the new presence. -/
def completeRegistration (s : Registry) (c : ConnId) (registration : RegisterMessage)
    (existing : Option InstanceRecord) : Registry :=
  let state := registrationState (s.ownership.get (ownershipKey D c.user registration)) registration
  publishSnapshot (send D (enroll D s c registration existing) c (.registration registration.instanceId state)) c.user

def register (s : Registry) (c : ConnId) (registration : RegisterMessage) : Registry :=
  let key := recordKey c.user registration.instanceId
  match s.records.get key with
  | none => completeRegistration D s c registration none
  | some existing =>
    match existing.connection with
    | none => completeRegistration D s c registration (some existing)
    | some d =>
      if d = c then completeRegistration D s c registration (some existing)
      else
        let s := disconnect D s d
        -- `existing.connection.socket`, read after `disconnect` may have cleared `existing.connection`.
        match (s.records.get key).bind (·.connection) with
        | none => s.log (.threw c.user "Cannot read properties of undefined (reading 'socket')")
        | some d =>
          completeRegistration D (s.closeSocket d CONTROL_CLOSE_INVALID_FRAME "instance replaced") c registration
            (some existing)

/-! ## Projections -/

/-- `rememberStale` on a record's stale ids. -/
def rememberStale (nowMs : Nat) (stale : OMap JsString Nat) (requestId : JsString) : OMap JsString Nat :=
  (stale.set requestId nowMs).evict MAX_STALE_REQUEST_IDS

def incoming (interactions : List PendingInteraction) : OMap JsString Projected :=
  interactions.foldl (fun m i => m.set i.requestId ⟨i.kind, i.sessionId⟩) .empty

def applyProjection (nowMs : Nat) (interactions : List PendingInteraction) (r : InstanceRecord) : InstanceRecord :=
  { r with
    projectedRequests := incoming interactions
    staleRequests := (r.projectedRequests.keys.filter fun id => !(incoming interactions).has id).foldl
      (rememberStale nowMs) r.staleRequests }

/-- What a confirmed result does to the record of its connection. -/
def confirmRequest (nowMs : Nat) (requestId : JsString) (r : InstanceRecord) : InstanceRecord :=
  { r with
    projectedRequests := r.projectedRequests.delete requestId
    staleRequests := rememberStale nowMs r.staleRequests requestId }

/-- Write to the record that rests on the connection, if there is one. -/
def onRecord (s : Registry) (c : ConnId) (f : InstanceRecord → InstanceRecord) : Registry :=
  match recordOn s c with
  | some r => putRecord s (f r)
  | none => s

def touch (s : Registry) (c : ConnId) : Registry := onRecord s c fun r => { r with lastSeenAt := s.nowMs }

/-- `{ ...interaction, instanceId, machine, project, directory }` of a registration. -/
def enrich (registration : RegisterMessage) (i : PendingInteraction) : PendingInteraction :=
  { i with
    instanceId := registration.instanceId
    machine := registration.machine
    project := registration.project
    directory := registration.directory }

/-! ## Frames of a plugin -/

def handleSnapshotResponse (s : Registry) (c : ConnId) (requestId instanceId : JsString)
    (interactions : List PendingInteraction) : Registry :=
  if (s.conns c).instanceId ≠ some instanceId then s
  else
    match s.pendingRequests.get (pendingKey s c requestId) with
    | none => s
    | some p =>
      let s := { s with pendingRequests := s.pendingRequests.delete (pendingKey s c requestId) }
      resolveBatch (onRecord s c (applyProjection s.nowMs interactions)) p.connection p.requestId
        (interactions.map (enrich p.registration))

namespace Registry

/-- The routed commands of a kind that wait for their result. -/
def commands (s : Registry) : CommandKind → OMap JsString PendingCommand
  | .question => s.pendingAnswerCommands
  | .permission => s.pendingDecideCommands

def setCommands (s : Registry) (k : CommandKind) (m : OMap JsString PendingCommand) : Registry :=
  { s with
    pendingAnswerCommands := if k = .question then m else s.pendingAnswerCommands
    pendingDecideCommands := if k = .permission then m else s.pendingDecideCommands }

end Registry

def settleOutcome (s : Registry) (commandId : JsString) (status : CommandStatus) : Registry :=
  { s with commandOutcomes := OutcomeCache.settleOutcome s.commandOutcomes s.nowMs commandId status }

def untrackCommand (s : Registry) (k : CommandKind) (c : ConnId) (commandId : JsString) : Registry :=
  s.setCommands k ((s.commands k).delete (commandKey s c commandId))

/-- The common text of the two result handlers. -/
def handleCommandResult (k : CommandKind) (s : Registry) (c : ConnId) (commandId instanceId : JsString)
    (status : CommandStatus) : Registry :=
  if (s.conns c).instanceId ≠ some instanceId then s
  else
    match (s.commands k).get (commandKey s c commandId) with
    | none => s
    | some p =>
      let s := untrackCommand s k c commandId
      let s := if status = .confirmed then onRecord s c (confirmRequest s.nowMs p.requestId) else s
      settleOutcome s p.commandId status

def handleQuestionAnswerResult (s : Registry) (c : ConnId) (commandId instanceId : JsString) (status : CommandStatus) :
    Registry := handleCommandResult .question s c commandId instanceId status

def handlePermissionDecideResult (s : Registry) (c : ConnId) (commandId instanceId : JsString)
    (status : CommandStatus) :
    Registry := handleCommandResult .permission s c commandId instanceId status

def handleSessionPromptResult (s : Registry) (c : ConnId) (commandId instanceId : JsString) : Registry :=
  if (s.conns c).instanceId ≠ some instanceId then s
  else { s with pendingPromptCommands := s.pendingPromptCommands.delete (commandKey s c commandId) }

def handleCatalogResponse (s : Registry) (c : ConnId) (requestId instanceId : JsString) (status : CatalogStatus)
    (catalog : Option SessionCatalog) : Registry :=
  match s.catalogRequests.get requestId with
  | none => s
  | some p =>
    if p.connection ≠ c ∨ (s.conns c).instanceId ≠ some instanceId then s
    else
      let result := match status, catalog with
        | .ready, some catalog => .ready catalog
        | .unsupported, _ => .unsupported
        | _, _ => .error
      ({ s with catalogRequests := s.catalogRequests.delete requestId } : Registry).log
        (.catalog c.user requestId result)

/-! ## WebUI tunnels -/

/-- `closeWebUiTunnel`, of the tunnel a client holds. -/
def closeWebUiTunnel (s : Registry) (w : ClientId) : Registry :=
  match (s.clients w).tunnel with
  | none => s
  | some tunnel =>
    if s.webUiTunnels.get tunnel.tunnelId ≠ some w then s
    else
      let s := { s with webUiTunnels := s.webUiTunnels.delete tunnel.tunnelId }
      if (s.conns tunnel.connection).socket.open then send D s tunnel.connection (.webUiTunnelClose tunnel.tunnelId)
      else s

def setPendingRequests (s : Registry) (w : ClientId) (f : List JsString → List JsString) : Registry :=
  s.setClient w { s.clients w with
    tunnel := (s.clients w).tunnel.map fun t => { t with pendingRequests := f t.pendingRequests } }

def handleWebUiResponse (s : Registry) (c : ConnId) (tunnelId requestId : JsString) (part : WebUiResponsePart) :
    Registry :=
  match s.webUiTunnels.get tunnelId with
  | none => s
  | some w =>
    match (s.clients w).tunnel with
    | none => s
    | some tunnel =>
      if tunnel.connection ≠ c ∨ requestId ∉ tunnel.pendingRequests then s
      else
        let s := if part = .end then setPendingRequests s w (·.erase requestId) else s
        if (s.clients w).socket.bufferedAmount > WS_MAX_BUFFERED_BYTES then (closeWebUiTunnel D s w).terminateClient w
        else if (s.clients w).socket.sendThrows then closeWebUiTunnel D s w
        else s.log (.clientSent w (.response tunnelId requestId part))

/-- `frame.name === "lit"`. -/
def isText (v : Option Json) (lit : JsString) : Bool := v.any fun x => x.str? == some lit

theorem isText_inj {v : Option Json} {a b : JsString} (ha : isText v a = true) (hb : isText v b = true) : a = b := by
  cases v with
  | none => cases ha
  | some v =>
    simp only [isText, Option.any_some, beq_iff_eq] at ha hb
    exact Option.some.inj (ha.symm.trans hb)

/-- `isUuid(frame.name)`, with the text it narrows to. -/
def uuid? (v : Option Json) : Option JsString := (v.bind Json.str?).filter isUuid

/-- `frame.body`, when it is absent or a string that is not too long. -/
def httpBody? : Option Json → Option (Option JsString)
  | none => some none
  | some (.str b) => if b.length > 700000 then none else some (some b)
  | some _ => none

/-- The frame of a `webui_http_request`, when it is well formed. -/
def httpRequest? (tunnel : WebUiTunnel) (ms : List (JsString × Json)) : Option ServerMessage := do
  let requestId ← uuid? (member ms "requestId")
  let method ← (member ms "method").bind Json.str?
  let path ← (member ms "path").bind Json.str?
  let headers ← (member ms "headers").bind Json.record?
  let body ← httpBody? (member ms "body")
  if isText (member ms "type") (js "webui_http_request") ∧ isText (member ms "tunnelId") tunnel.tunnelId ∧
      method.length ≠ 0 ∧ method.length ≤ 16 ∧ path.length ≠ 0 ∧ path.length ≤ 8192 then
    some (.webUiHttpRequest tunnel.tunnelId requestId method path headers body)
  else none

def receiveWebUiRequest (s : Registry) (w : ClientId) (tunnel : WebUiTunnel) (ms : List (JsString × Json)) :
    Registry :=
  let type := member ms "type"
  let mine := isText (member ms "tunnelId") tunnel.tunnelId
  let requestId := uuid? (member ms "requestId")
  match requestId.filter fun id => isText type (js "webui_http_cancel") ∧ mine ∧ id ∈ tunnel.pendingRequests with
  | some id =>
    send D (setPendingRequests s w (·.erase id)) tunnel.connection (.webUiHttpCancel tunnel.tunnelId id)
  | none =>
    if isText type (js "webui_tunnel_close") ∧ mine then closeWebUiTunnel D s w
    else
      match requestId, httpRequest? tunnel ms with
      | some id, some m =>
        if id ∈ tunnel.pendingRequests then s
        else send D (setPendingRequests s w (· ++ [id])) tunnel.connection m
      | _, _ => s

/-- When `expire()` is due: `setTimeout` holds at most 2147483647 ms. -/
def expiryDue (nowMs expiresAtMs : Nat) : Nat := nowMs + min (expiresAtMs - nowMs) 2147483647

/-- `addWebUiClient`, for a socket not added before. -/
def addWebUiClient (s : Registry) (w : ClientId) (socket : Socket) (expiresAtMs : Nat) : Registry :=
  if (s.clients w).added then s
  else s.setClient w
    { added := true, socket, expiresAtMs, expiry := some (expiryDue s.nowMs expiresAtMs), heartbeat := true,
      alive := true, tunnel := none }

/-- The record a tunnel may be opened on, with its connection. -/
def tunnelTarget (s : Registry) (u : UserId) (instanceId : JsString) : Option ConnId := do
  let r ← s.records.get (recordKey u instanceId)
  let c ← r.connection
  if r.state = .controllable ∧ r.registration.webUiAvailable = some true ∧ (s.conns c).socket.open then some c else none

def refreshWebUiAuth (s : Registry) (w : ClientId) (accessToken : Option Json) : Registry :=
  match (accessToken.bind Json.str?).bind (D.verifyToken s.nowMs) with
  | none => s.closeClient w 4401 "invalid renewed authentication"
  | some (sub, exp) =>
    if sub ≠ w.userId.chars ∨ exp * 1000 ≤ s.nowMs then s.closeClient w 4401 "invalid renewed authentication"
    else (s.setClient w { s.clients w with
        expiresAtMs := exp * 1000, expiry := some (expiryDue s.nowMs (exp * 1000)) }).sendClient w
      (.authReady (exp * 1000))

def openWebUiTunnel (s : Registry) (w : ClientId) (ms : List (JsString × Json)) (tunnelId : JsString) : Registry :=
  match (uuid? (member ms "instanceId")).filter fun _ => isText (member ms "type") (js "webui_tunnel_open") with
  | none => s.closeClient w CONTROL_CLOSE_INVALID_FRAME "WebUI tunnel must open first"
  | some instanceId =>
    match tunnelTarget s w.userId instanceId with
    | none =>
      if (s.clients w).socket.sendThrows then s.log (.threw w.userId "send")
      else (s.log (.clientSent w .tunnelError)).closeClient w 1008 "OpenCode instance is unavailable"
    | some c =>
      let s := s.setClient w { s.clients w with tunnel := some ⟨tunnelId, c, []⟩ }
      ({ s with webUiTunnels := s.webUiTunnels.set tunnelId w } : Registry).sendClient w
        (.tunnelReady tunnelId (s.clients w).expiresAtMs)

/-- A message of a client socket; `tunnelId` is the UUID drawn should it open a tunnel. -/
def receiveWebUi (s : Registry) (w : ClientId) (frame : Option (List (JsString × Json))) (tunnelId : JsString) :
    Registry :=
  if (s.clients w).added = false then s
  else
    match frame with
    | none => s
    | some ms =>
      let s := s.setClient w { s.clients w with alive := true }
      if isText (member ms "type") (js "webui_auth_refresh") then refreshWebUiAuth D s w (member ms "accessToken")
      else
        match (s.clients w).tunnel with
        | none => openWebUiTunnel s w ms tunnelId
        | some tunnel => receiveWebUiRequest D s w tunnel ms

/-- The `close` and the `error` handler of a client socket. -/
def webUiClientGone (s : Registry) (w : ClientId) : Registry :=
  if (s.clients w).added = false then s
  else closeWebUiTunnel D (s.setClient w { s.clients w with expiry := none, heartbeat := false }) w

def webUiHeartbeat (s : Registry) (w : ClientId) : Registry :=
  if (s.clients w).heartbeat = false then s
  else if (s.clients w).alive = false then s.terminateClient w
  else (s.setClient w { s.clients w with alive := false }).log (.clientPinged w)

def webUiExpired (s : Registry) (w : ClientId) : Registry :=
  if (s.clients w).expiry.any (· ≤ s.nowMs) then
    (s.setClient w { s.clients w with expiry := none }).closeClient w 4401 "access token expired"
  else s

/-! ## Sockets of plugins -/

/-- `add`, for a socket not added before. -/
def add (s : Registry) (c : ConnId) (socket : Socket) : Registry :=
  if (s.conns c).added then s
  else
    { s.setConn c { added := true, socket, uid := s.nextConnectionUid, alive := true, instanceId := none } with
      nextConnectionUid := s.nextConnectionUid + 1
      connections := s.connections ++ [c] }

/-- `receive`; `none` is a message that does not decode or does not validate. -/
def receive (s : Registry) (c : ConnId) (frame : Option ClientMessage) : Registry :=
  if (s.conns c).added = false then s
  else
    let s := s.setConn c { s.conns c with alive := true }
    match frame with
    | none => (disconnect D s c).closeSocket c CONTROL_CLOSE_INVALID_FRAME "invalid control frame"
    | some (.sessionCatalogResponse requestId instanceId status catalog) =>
      handleCatalogResponse s c requestId instanceId status catalog
    | some (.pendingSnapshotResponse requestId instanceId interactions) =>
      handleSnapshotResponse s c requestId instanceId interactions
    | some (.questionAnswerResult commandId instanceId status) =>
      handleQuestionAnswerResult s c commandId instanceId status
    | some (.permissionDecideResult commandId instanceId status) =>
      handlePermissionDecideResult s c commandId instanceId status
    | some (.sessionPromptResult commandId instanceId _) => handleSessionPromptResult s c commandId instanceId
    | some (.webUiResponse tunnelId requestId part) => handleWebUiResponse D s c tunnelId requestId part
    | some (.register registration) =>
      if (s.conns c).instanceId.isSome then
        (disconnect D s c).closeSocket c CONTROL_CLOSE_INVALID_FRAME "already registered"
      else register D s c registration

def markAlive (s : Registry) (c : ConnId) : Registry :=
  if (s.conns c).added = false then s else touch (s.setConn c { s.conns c with alive := true }) c

/-- A tick of the connection's interval, which `disconnect` clears. -/
def heartbeat (s : Registry) (c : ConnId) : Registry :=
  if c ∉ s.connections then s
  else if (s.conns c).socket.open = false then disconnect D s c
  else if (s.conns c).alive = false then (disconnect D s c).terminate c
  else (s.setConn c { s.conns c with alive := false }).log (.pinged c)

/-- The loop of `revokeKey` and `closeAll`: disconnect, then close. -/
def closeEach (code : Nat) (reason : String) (s : Registry) (cs : List ConnId) : Registry :=
  cs.foldl (fun s c => (disconnect D s c).closeSocket c code reason) s

def revokeKey (s : Registry) (ingestKeyId : JsString) : Registry :=
  closeEach D CONTROL_CLOSE_KEY_REVOKED "Plugin key revoked" s (s.connections.filter fun c => c.auth.id = ingestKeyId)

def closeAll (s : Registry) : Registry :=
  closeEach D WS_CLOSE_SERVER_SHUTDOWN "server shutting down" s s.connections

/-! ## Calls of the routes -/

/-- The connection of a controllable record with an open socket: the gate of every call
    that reaches a plugin. -/
def reachable (s : Registry) (r : InstanceRecord) : Option ConnId :=
  r.connection.filter fun c => r.state = .controllable ∧ (s.conns c).socket.open

def forgetOffline (s : Registry) (u : UserId) (instanceId : JsString) : Registry × ForgetInstanceOutcome :=
  let key := recordKey u instanceId
  match s.records.get key with
  | none => (s, .notFound)
  | some r =>
    if r.state ≠ .offline ∨ r.connection.isSome then (s, .notOffline)
    else (publishSnapshot { s with records := s.records.delete key } u, .deleted)

def collectSessions (s : Registry) (u : UserId) (instanceId : JsString) (query : SessionCatalogQuery)
    (requestId : JsString) : Registry :=
  match (s.records.get (recordKey u instanceId)).bind (reachable s) with
  | none => s.log (.catalog u requestId .notFound)
  | some c =>
    send D { s with catalogRequests := s.catalogRequests.set requestId ⟨c, requestId⟩ } c
      (.sessionCatalogRequest requestId query)

/-- The records a collection queries. -/
def collectionTargets (s : Registry) (u : UserId) : List InstanceRecord :=
  s.records.values.filter fun r => r.userId = u ∧ (reachable s r).isSome

def startCollection (s : Registry) (u : UserId) (queriedInstanceIds : List JsString) : Registry :=
  { s with collections := ⟨u, queriedInstanceIds, [], false⟩ :: s.collections }

/-- Change the newest collection. -/
def atNewest (f : Collection → Collection) : List Collection → List Collection
  | [] => []
  | q :: qs => f q :: qs

/-- `queryPendingSnapshot`, for the newest collection. A record that has lost its
    connection meanwhile makes the promise throw. -/
def queryPendingSnapshot (s : Registry) (r : InstanceRecord) (requestId : JsString) : Registry :=
  match (s.records.get (recordKey r.userId r.registration.instanceId)).bind (·.connection) with
  | none =>
    ({ s with collections := atNewest (fun q => { q with rejected := true }) s.collections } : Registry).log
      (.threw r.userId "Cannot read properties of undefined (reading 'uid')")
  | some c =>
    send D { s with
        pendingRequests := s.pendingRequests.set (pendingKey s c requestId) ⟨c, requestId, r.registration⟩
        collections := atNewest (fun q => { q with batches := q.batches ++ [⟨c, requestId, none⟩] }) s.collections }
      c (.pendingSnapshotRequest requestId)

/-- `collectPendingInteractions`; its n-th request gets the n-th of the drawn ids. -/
def collectPendingInteractions (s : Registry) (u : UserId) (draws : Nat → JsString) : Registry :=
  let targets := collectionTargets s u
  targets.zipIdx.foldl (fun s t => queryPendingSnapshot D s t.1 (draws t.2))
    (startCollection s u (targets.map (·.registration.instanceId)))

/-- What an answer or a decision is checked for: where to send it, or the error. -/
def commandTarget (s : Registry) (k : CommandKind) (u : UserId) (instanceId requestId commandId sessionID : JsString) :
    Except CommandReply (InstanceRecord × ConnId) :=
  match (s.records.get (recordKey u instanceId)).filter fun r => r.userId = u with
  | none => .error .notFound
  | some r =>
    match reachable s r with
    | none => .error .notFound
    | some c =>
      match r.projectedRequests.get requestId with
      | none => .error (if r.staleRequests.has requestId then .conflict else .notFound)
      | some p =>
        if p.kind ≠ k ∨ p.sessionId ≠ sessionID then .error .conflict
        else if (s.commands k).values.any fun q =>
            q.connection = c ∧ (q.requestId = requestId ∨ q.commandId = commandId) then .error .conflict
        else .ok (r, c)

/-- What is kept of a command that is about to be sent. -/
def trackCommand (s : Registry) (k : CommandKind) (r : InstanceRecord) (c : ConnId) (u : UserId)
    (requestId commandId : JsString) : Registry :=
  { s.setCommands k ((s.commands k).set (commandKey s c commandId) ⟨c, requestId, commandId⟩) with
    commandOutcomes := OutcomeCache.recordOutcome D s.commandOutcomes s.nowMs u commandId requestId
      r.registration.instanceId k }

/-- The common text of `answerQuestion` and `decidePermission`. -/
def routeCommand (k : CommandKind) (s : Registry) (u : UserId) (instanceId requestId commandId sessionID : JsString)
    (command : ServerMessage) : Registry × CommandReply :=
  match commandTarget s k u instanceId requestId commandId sessionID with
  | .error e => (s, e)
  | .ok (r, c) => (send D (trackCommand D s k r c u requestId commandId) c command, .accepted commandId)

def answerQuestion (s : Registry) (u : UserId) (instanceId requestId commandId sessionID : JsString)
    (answers : QuestionAnswers) : Registry × CommandReply :=
  routeCommand D .question s u instanceId requestId commandId sessionID
    (.questionAnswerCommand commandId requestId sessionID answers)

def decidePermission (s : Registry) (u : UserId) (instanceId requestId commandId sessionID : JsString)
    (decision : PermissionDecision) : Registry × CommandReply :=
  routeCommand D .permission s u instanceId requestId commandId sessionID
    (.permissionDecideCommand commandId requestId sessionID decision)

def sendSessionPrompt (s : Registry) (u : UserId) (instanceId sessionID commandId text : JsString) :
    Registry × CommandReply :=
  match ((s.records.get (recordKey u instanceId)).filter fun r => r.userId = u).bind (reachable s) with
  | none => (s, .notFound)
  | some c =>
    if s.pendingPromptCommands.values.any fun q => q.connection = c ∧ q.commandId = commandId then (s, .conflict)
    else
      (send D { s with
          pendingPromptCommands := s.pendingPromptCommands.set (commandKey s c commandId) ⟨c, sessionID, commandId⟩ }
        c (.sessionPromptCommand commandId sessionID text), .accepted commandId)

def outcomeFor (s : Registry) (u : UserId) (commandId : JsString) : Registry × Option CommandOutcome :=
  ({ s with commandOutcomes := OutcomeCache.pruneExpiredOutcomes s.commandOutcomes s.nowMs },
    OutcomeCache.find s.commandOutcomes s.nowMs u commandId)

/-! ## Timers -/

def catalogTimeout (s : Registry) (c : ConnId) (requestId : JsString) : Registry :=
  if s.catalogRequests.get requestId ≠ some ⟨c, requestId⟩ then s
  else
    ({ s with catalogRequests := s.catalogRequests.delete requestId } : Registry).log
      (.catalog c.user requestId .timeout)

def snapshotTimeout (s : Registry) (c : ConnId) (requestId : JsString) : Registry :=
  if (s.conns c).added ∧ s.pendingRequests.has (pendingKey s c requestId) then
    resolveBatch { s with pendingRequests := s.pendingRequests.delete (pendingKey s c requestId) } c requestId []
  else s

def commandTimeout (k : CommandKind) (s : Registry) (c : ConnId) (commandId : JsString) : Registry :=
  if (s.conns c).added = false then s
  else
    match (s.commands k).get (commandKey s c commandId) with
    | none => s
    | some p => settleOutcome (untrackCommand s k c commandId) p.commandId .resultUnknown

def promptTimeout (s : Registry) (c : ConnId) (commandId : JsString) : Registry :=
  if (s.conns c).added = false then s
  else { s with pendingPromptCommands := s.pendingPromptCommands.delete (commandKey s c commandId) }

/-! ## Steps -/

inductive Op where
  | add (c : ConnId) (socket : Socket)
  | frame (c : ConnId) (frame : Option ClientMessage)
  /-- `ping` or `pong`. -/
  | alive (c : ConnId)
  | heartbeat (c : ConnId)
  | close (c : ConnId)
  | error (c : ConnId)
  /-- The callback of a `socket.send` reports an error. -/
  | sendFailed (c : ConnId)
  | socket (c : ConnId) (socket : Socket)
  | revokeKey (ingestKeyId : JsString)
  | closeAll
  | forgetOffline (u : UserId) (instanceId : JsString)
  | publishSnapshot (u : UserId)
  | collectSessions (u : UserId) (instanceId : JsString) (query : SessionCatalogQuery) (draw : JsString)
  | collectPendingInteractions (u : UserId) (draws : Nat → JsString)
  | answerQuestion (u : UserId) (instanceId requestId commandId sessionID : JsString) (answers : QuestionAnswers)
  | decidePermission (u : UserId) (instanceId requestId commandId sessionID : JsString) (decision : PermissionDecision)
  | sendSessionPrompt (u : UserId) (instanceId sessionID commandId text : JsString)
  | outcomeFor (u : UserId) (commandId : JsString)
  | catalogTimeout (c : ConnId) (requestId : JsString)
  | snapshotTimeout (c : ConnId) (requestId : JsString)
  | answerTimeout (c : ConnId) (commandId : JsString)
  | decideTimeout (c : ConnId) (commandId : JsString)
  | promptTimeout (c : ConnId) (commandId : JsString)
  | addWebUiClient (w : ClientId) (socket : Socket) (expiresAtMs : Nat)
  | clientFrame (w : ClientId) (frame : Option (List (JsString × Json))) (draw : JsString)
  | clientAlive (w : ClientId)
  | clientHeartbeat (w : ClientId)
  | clientExpired (w : ClientId)
  | clientClose (w : ClientId)
  | clientError (w : ClientId)
  | clientSocket (w : ClientId) (socket : Socket)

/-- An operation and the clock it reads. -/
structure Event where
  now : Nat
  op : Op

def apply (s : Registry) : Op → Registry
  | .add c socket => add s c socket
  | .frame c frame => receive D s c frame
  | .alive c => markAlive s c
  | .heartbeat c => heartbeat D s c
  | .close c => disconnect D s c
  | .error c => disconnect D s c
  | .sendFailed c => disconnect D s c
  | .socket c socket => s.setConn c { s.conns c with socket }
  | .revokeKey ingestKeyId => revokeKey D s ingestKeyId
  | .closeAll => closeAll D s
  | .forgetOffline u instanceId =>
    (forgetOffline s u instanceId).1.log (.forgotten u instanceId (forgetOffline s u instanceId).2)
  | .publishSnapshot u => publishSnapshot s u
  | .collectSessions u instanceId query draw => collectSessions D s u instanceId query draw
  | .collectPendingInteractions u draws => collectPendingInteractions D s u draws
  | .answerQuestion u instanceId requestId commandId sessionID answers =>
    let r := answerQuestion D s u instanceId requestId commandId sessionID answers
    r.1.log (.replied u commandId r.2)
  | .decidePermission u instanceId requestId commandId sessionID decision =>
    let r := decidePermission D s u instanceId requestId commandId sessionID decision
    r.1.log (.replied u commandId r.2)
  | .sendSessionPrompt u instanceId sessionID commandId text =>
    let r := sendSessionPrompt D s u instanceId sessionID commandId text
    r.1.log (.replied u commandId r.2)
  | .outcomeFor u commandId => (outcomeFor s u commandId).1.log (.outcome u commandId (outcomeFor s u commandId).2)
  | .catalogTimeout c requestId => catalogTimeout s c requestId
  | .snapshotTimeout c requestId => snapshotTimeout s c requestId
  | .answerTimeout c commandId => commandTimeout .question s c commandId
  | .decideTimeout c commandId => commandTimeout .permission s c commandId
  | .promptTimeout c commandId => promptTimeout s c commandId
  | .addWebUiClient w socket expiresAtMs => addWebUiClient s w socket expiresAtMs
  | .clientFrame w frame draw => receiveWebUi D s w frame draw
  | .clientAlive w => s.setClient w { s.clients w with alive := true }
  | .clientHeartbeat w => webUiHeartbeat s w
  | .clientExpired w => webUiExpired s w
  | .clientClose w => webUiClientGone D s w
  | .clientError w => webUiClientGone D s w
  | .clientSocket w socket => s.setClient w { s.clients w with socket }

def step (s : Registry) (e : Event) : Registry := settleCollections (apply D { s with nowMs := e.now } e.op)

abbrev run (es : List Event) : Registry := runFrom (step D) Registry.init es

end NotifyHub.Control
