/-
  NotifyHub.Control.Registry — `InstanceRegistry`
  (apps/gateway/src/modules/control/instance-registry.ts), function by function.

  Objects. A record is found under its key, and a tunnel in the closure of its client;
  no operation replaces or deletes either while it holds a reference to it. A pending
  entry is kept exactly as long as its timer is armed, so a timer is the event that
  finds its entry.

  Exceptions. An exception ends the operation it leaves, with the state it had reached
  (`threw`). The one path that throws is the replacement of a live connection:
  `disconnect` clears `existing.connection`, and `register` then reads its `socket`.

  Recursion. `disconnect` promotes, promotion sends, and a failed send disconnects.
  Each disconnect that does anything removes a member of `connections`, so their
  number is fuel enough (`disconnect_eq`).

  Asynchrony. A draw of `randomUUID` is an input of the operation that makes it. A
  promise that waits on others is settled at the end of the operation that resolves
  the last of them (`settleCollections`).
-/

import Mathlib.Data.List.Sort
import NotifyHub.Control.Types
import NotifyHub.Lib.Run

namespace NotifyHub.Control

/-- `InstanceRegistryDeps`, and the platform functions the registry calls. -/
structure Deps where
  outcomeTtlMs : Nat
  maxCommandOutcomes : Nat
  /-- `toLocaleLowerCase("en-US")`. -/
  toLocaleLowerCase : JsString → JsString
  /-- `verifyToken` at a time: `sub` and `exp` of an accepted access token. -/
  verifyToken : Nat → JsString → Option (JsString × Nat)

structure Registry where
  nowMs : Nat
  conns : ConnId → ControlConnection
  clients : ClientId → WebUiClient
  records : OMap JsString InstanceRecord
  ownership : OMap JsString JsString
  connections : List ConnId
  pendingRequests : OMap JsString PendingSnapshotRequest
  pendingAnswerCommands : OMap JsString PendingCommand
  pendingDecideCommands : OMap JsString PendingCommand
  pendingPromptCommands : OMap JsString PendingPromptCommand
  webUiTunnels : OMap JsString ClientId
  catalogRequests : OMap JsString CatalogRequest
  commandOutcomes : OMap JsString CommandOutcomeEntry
  nextSequence : Nat
  nextConnectionUid : Nat
  /-- The collections that wait, newest first. -/
  collections : List Collection
  trace : List Effect

def noConnection : ControlConnection := ⟨false, ⟨0, 0, false⟩, 0, false, none⟩

def noClient : WebUiClient := ⟨false, ⟨0, 0, false⟩, 0, none, false, false, none⟩

def Registry.init : Registry :=
  ⟨0, fun _ => noConnection, fun _ => noClient, .empty, .empty, [], .empty, .empty, .empty, .empty, .empty,
    .empty, .empty, 0, 0, [], []⟩

variable (D : Deps)

namespace Registry

/-! ## Writing the state -/

def log (s : Registry) (e : Effect) : Registry := { s with trace := s.trace ++ [e] }

def setConn (s : Registry) (c : ConnId) (x : ControlConnection) : Registry :=
  { s with conns := fun d => if d = c then x else s.conns d }

def setClient (s : Registry) (w : ClientId) (x : WebUiClient) : Registry :=
  { s with clients := fun v => if v = w then x else s.clients v }

/-- `connection.socket.close(code, reason)`. -/
def closeSocket (s : Registry) (c : ConnId) (code : Nat) (reason : String) : Registry :=
  (s.setConn c { s.conns c with socket := (s.conns c).socket.shut }).log (.closed c code reason)

/-- `connection.socket.terminate()`. -/
def terminate (s : Registry) (c : ConnId) : Registry :=
  (s.setConn c { s.conns c with socket := (s.conns c).socket.shut }).log (.terminated c)

def closeClient (s : Registry) (w : ClientId) (code : Nat) (reason : String) : Registry :=
  (s.setClient w { s.clients w with socket := (s.clients w).socket.shut }).log (.clientClosed w code reason)

def terminateClient (s : Registry) (w : ClientId) : Registry :=
  (s.setClient w { s.clients w with socket := (s.clients w).socket.shut }).log (.clientTerminated w)

/-- A client `socket.send` outside any `try`. -/
def sendClient (s : Registry) (w : ClientId) (m : WebUiFrame) : Registry :=
  if (s.clients w).socket.sendThrows then s.log (.threw w.userId "send") else s.log (.clientSent w m)

end Registry

/-! ## Keys -/

def recordKey (u : UserId) (instanceId : JsString) : JsString := joinNul u.chars instanceId

/-- `directory.replaceAll("\\", "/").replace(/\/{2,}/g, "/")` -/
def collapseSlashes : JsString → JsString
  | [] => []
  | c :: r =>
    let c := if c = 92 then 47 else c
    match collapseSlashes r with
    | d :: r' => if c = 47 ∧ d = 47 then d :: r' else c :: d :: r'
    | [] => [c]

/-- `directory.replace(/\/$/, "")` -/
def dropTrailingSlash (s : JsString) : JsString := if s.getLast? = some 47 then s.dropLast else s

/-- `/^[A-Za-z]:\//.test(directory)` -/
def startsWithDrive : JsString → Bool
  | c :: 58 :: 47 :: _ => (65 ≤ c && c ≤ 90) || (97 ≤ c && c ≤ 122)
  | _ => false

def ownershipKey (u : UserId) (r : RegisterMessage) : JsString :=
  let machine := D.toLocaleLowerCase (trim r.machine)
  let directory := collapseSlashes (trim r.directory)
  let directory := if directory.length > 1 then dropTrailingSlash directory else directory
  let directory := if startsWithDrive directory then D.toLocaleLowerCase directory else directory
  joinNul u.chars (joinNul machine directory)

def pendingKey (s : Registry) (c : ConnId) (requestId : JsString) : JsString :=
  joinNul (decimal (s.conns c).uid) requestId

def commandKey (s : Registry) (c : ConnId) (commandId : JsString) : JsString :=
  joinNul (decimal (s.conns c).uid) commandId

/-! ## Presence -/

def toPresence (r : InstanceRecord) : InstancePresence :=
  { instanceId := r.registration.instanceId
    machine := r.registration.machine
    project := r.registration.project
    directory := r.registration.directory
    openCodeVersion := r.registration.openCodeVersion
    webUiAvailable := r.registration.webUiAvailable == some true
    protocolVersion := r.registration.protocolVersion
    state := r.state
    lastSeenAt := r.lastSeenAt }

/-- `record.connection?.socket.readyState === READY_OPEN`. -/
def connectionOpen (s : Registry) (r : InstanceRecord) : Bool :=
  match r.connection with
  | some c => (s.conns c).socket.open
  | none => false

def bySequence (l : List InstanceRecord) : List InstanceRecord :=
  l.insertionSort fun a b => a.sequence ≤ b.sequence

def snapshot (s : Registry) (u : UserId) : List InstancePresence :=
  (bySequence (s.records.values.filter fun r =>
    r.userId = u ∧ r.state ≠ .offline ∧ connectionOpen s r = true)).map toPresence

def publishSnapshot (s : Registry) (u : UserId) : Registry := s.log (.published u (snapshot s u))

/-! ## Command outcomes -/

abbrev OutcomeCache := OMap JsString CommandOutcomeEntry

namespace OutcomeCache

def pruneExpiredOutcomes (o : OutcomeCache) (nowMs : Nat) : OutcomeCache :=
  o.filter fun _ e => nowMs < e.expiresAtMs

def evictOldestOutcomes (o : OutcomeCache) : OutcomeCache := o.evict D.maxCommandOutcomes

def recordOutcome (o : OutcomeCache) (nowMs : Nat) (u : UserId) (commandId requestId instanceId : JsString)
    (kind : CommandKind) : OutcomeCache :=
  let o := pruneExpiredOutcomes o nowMs
  -- First write wins: a replay must not clobber the settled outcome.
  if o.has commandId then o
  else
    let entry : CommandOutcomeEntry :=
      { userId := u, commandId, requestId, instanceId, kind, status := .accepted, updatedAt := nowMs,
        expiresAtMs := nowMs + D.outcomeTtlMs }
    evictOldestOutcomes D (o.set commandId entry)

def settleOutcome (o : OutcomeCache) (nowMs : Nat) (commandId : JsString) (status : CommandStatus) : OutcomeCache :=
  match o.get commandId with
  | none => o
  | some e =>
    if nowMs ≥ e.expiresAtMs then o.delete commandId
    else o.set commandId { e with status := .settled status, updatedAt := nowMs }

/-- What `outcomeFor` returns once it has pruned. -/
def find (o : OutcomeCache) (nowMs : Nat) (u : UserId) (commandId : JsString) : Option CommandOutcome :=
  match (pruneExpiredOutcomes o nowMs).get commandId with
  | none => none
  | some e =>
    if e.userId ≠ u ∨ nowMs ≥ e.expiresAtMs then none
    else some ⟨e.commandId, e.requestId, e.instanceId, e.kind, e.status, e.updatedAt⟩

end OutcomeCache

/-! ## Promises of collections -/

/-- `resolve` of the request, if this is its promise. -/
def Batch.resolve (c : ConnId) (requestId : JsString) (interactions : List PendingInteraction) (b : Batch) : Batch :=
  if b.connection = c ∧ b.requestId = requestId ∧ b.result.isNone then { b with result := some interactions } else b

namespace Collection

def resolve (c : ConnId) (requestId : JsString) (interactions : List PendingInteraction) (q : Collection) :
    Collection := { q with batches := q.batches.map (Batch.resolve c requestId interactions) }

def settled (q : Collection) : Bool := !q.rejected && q.batches.all fun b => b.result.isSome

def snapshot (q : Collection) (nowMs : Nat) : PendingSnapshot :=
  { generatedAt := nowMs
    interactions := q.batches.flatMap fun b => b.result.getD []
    queriedInstanceIds := q.queriedInstanceIds }

end Collection

def resolveBatch (s : Registry) (c : ConnId) (requestId : JsString) (interactions : List PendingInteraction) :
    Registry := { s with collections := s.collections.map (Collection.resolve c requestId interactions) }

/-- Every collection whose requests are all resolved returns, the oldest first. -/
def settleCollections (s : Registry) : Registry :=
  { s with
    collections := s.collections.filter fun q => !q.settled
    trace := s.trace ++ (s.collections.reverse.filter (·.settled)).map
      fun q => .collected q.userId (q.snapshot s.nowMs) }

/-! ## Disconnecting, promoting, sending -/

/-- The entries of a map of pending requests or commands that `disconnect` takes out. -/
def onConnection {α : Type} (connection : α → ConnId) (c : ConnId) (m : OMap JsString α) : List α :=
  m.values.filter fun p => connection p = c

def offConnection {α : Type} (connection : α → ConnId) (c : ConnId) (m : OMap JsString α) : OMap JsString α :=
  m.filter fun _ p => connection p ≠ c

/-- The commands `disconnect` settles as `result_unknown`: answers first, then decisions. -/
def lostCommands (s : Registry) (c : ConnId) : List PendingCommand :=
  onConnection (·.connection) c s.pendingAnswerCommands ++ onConnection (·.connection) c s.pendingDecideCommands

/-- `disconnect`'s loops over the maps of pending requests and commands. -/
def dropPending (s : Registry) (c : ConnId) : Registry :=
  { s with
    catalogRequests := offConnection (·.connection) c s.catalogRequests
    pendingRequests := offConnection (·.connection) c s.pendingRequests
    pendingAnswerCommands := offConnection (·.connection) c s.pendingAnswerCommands
    pendingDecideCommands := offConnection (·.connection) c s.pendingDecideCommands
    pendingPromptCommands := offConnection (·.connection) c s.pendingPromptCommands
    collections := (onConnection (·.connection) c s.pendingRequests).foldl
      (fun l p => l.map (Collection.resolve c p.requestId [])) s.collections
    commandOutcomes := (lostCommands s c).foldl
      (fun o p => OutcomeCache.settleOutcome o s.nowMs p.commandId .resultUnknown) s.commandOutcomes
    trace := s.trace ++ (onConnection (·.connection) c s.catalogRequests).map
      fun p => Effect.catalog c.user p.requestId .notFound }

/-- The clients of the open tunnels on a connection. -/
def tunnelClients (s : Registry) (c : ConnId) : List ClientId :=
  s.webUiTunnels.values.filter fun w => (s.clients w).tunnel.any (·.connection = c)

def WebUiClient.shut (x : WebUiClient) : WebUiClient := { x with socket := x.socket.shut }

/-- `disconnect`'s loop over the tunnels; their clients' sockets are closed. -/
def dropTunnels (s : Registry) (c : ConnId) : Registry :=
  { s with
    webUiTunnels := s.webUiTunnels.filter fun _ w => w ∉ tunnelClients s c
    clients := fun w => if w ∈ tunnelClients s c then (s.clients w).shut else s.clients w
    trace := s.trace ++ (tunnelClients s c).map
      fun w => Effect.clientClosed w 1011 "OpenCode instance disconnected" }

def putRecord (s : Registry) (r : InstanceRecord) : Registry :=
  { s with records := s.records.set (recordKey r.userId r.registration.instanceId) r }

/-- The record of the connection's instance, when it rests on the connection. -/
def recordOn (s : Registry) (c : ConnId) : Option InstanceRecord := do
  let instanceId ← (s.conns c).instanceId
  let r ← s.records.get (recordKey c.user instanceId)
  if r.connection = some c then some r else none

/-- The conflicting connected records of a key, by sequence. -/
def rivals (s : Registry) (key : JsString) (u : UserId) : List InstanceRecord :=
  bySequence (s.records.values.filter fun r =>
    r.userId = u ∧ r.state = .conflicting ∧ r.connection.isSome = true ∧ ownershipKey D r.userId r.registration = key)

section
variable (disc : Registry → ConnId → Registry)

/-- `send`, with the `disconnect` it calls. -/
def sendWith (s : Registry) (c : ConnId) (m : ServerMessage) : Registry :=
  let socket := (s.conns c).socket
  if socket.open = false ∨ socket.bufferedAmount > WS_MAX_BUFFERED_BYTES then (disc s c).terminate c
  else if socket.sendThrows then disc s c
  else s.log (.sent c m)

/-- `promote`'s writes, before it sends. -/
def crown (s : Registry) (key : JsString) (candidate : InstanceRecord) : Registry :=
  let s := putRecord s { candidate with state := .controllable, lastSeenAt := s.nowMs }
  { s with ownership := s.ownership.set key candidate.registration.instanceId }

/-- `promote`, with the `disconnect` its send calls. -/
def promoteWith (s : Registry) (key : JsString) (u : UserId) : Registry :=
  match rivals D s key u with
  | [] => s
  | candidate :: _ =>
    match candidate.connection with
    | some c => sendWith disc (crown s key candidate) c (.registration candidate.registration.instanceId .controllable)
    | none => crown s key candidate

/-- What `disconnect` does before it looks for the connection's record. -/
def leave (s : Registry) (c : ConnId) : Registry :=
  dropTunnels (dropPending { s with connections := s.connections.filter (· ≠ c) } c) c

/-- `disconnect`'s writes to the record that rested on the connection. -/
def retire (s : Registry) (r : InstanceRecord) : Registry :=
  putRecord s { r with connection := none, state := .offline, lastSeenAt := s.nowMs }

def disown (s : Registry) (key : JsString) : Registry := { s with ownership := s.ownership.delete key }

/-- `disconnect` after the guard: everything it does to a member of `connections`. -/
def disconnectBody (s : Registry) (c : ConnId) : Registry :=
  match recordOn (leave s c) c with
  | none => leave s c
  | some r =>
    let key := ownershipKey D r.userId r.registration
    if r.state = .controllable ∧ s.ownership.get key = some r.registration.instanceId then
      publishSnapshot (promoteWith D disc (disown (retire (leave s c) r) key) key r.userId) r.userId
    else publishSnapshot (retire (leave s c) r) r.userId

end

def disconnectN : Nat → Registry → ConnId → Registry
  | 0, s, _ => s
  | n + 1, s, c => if c ∈ s.connections then disconnectBody D (disconnectN n) s c else s

def disconnect (s : Registry) (c : ConnId) : Registry := disconnectN D s.connections.length s c

def send (s : Registry) (c : ConnId) (m : ServerMessage) : Registry := sendWith (disconnect D) s c m

def promote (s : Registry) (key : JsString) (u : UserId) : Registry := promoteWith D (disconnect D) s key u

variable {D}

/-! ## Keys and lookups -/

theorem recordKey_inj {u u' : UserId} {i i' : JsString} (h : recordKey u i = recordKey u' i') : u = u' ∧ i = i' := by
  obtain ⟨hu, hi⟩ := joinNul_inj u.noNul u'.noNul h
  refine ⟨?_, hi⟩
  cases u; cases u'; cases hu; rfl

/-- An ownership key names its user. -/
theorem ownershipKey_user {u u' : UserId} {r r' : RegisterMessage} (h : ownershipKey D u r = ownershipKey D u' r') :
    u = u' := by
  have hu := (joinNul_inj u.noNul u'.noNul h).1
  cases u; cases u'; cases hu; rfl

theorem recordOn_eq_some {s : Registry} {c : ConnId} {r : InstanceRecord} :
    recordOn s c = some r ↔ ∃ id, (s.conns c).instanceId = some id ∧
      s.records.get (recordKey c.user id) = some r ∧ r.connection = some c := by
  simp only [recordOn, Option.bind_eq_bind, Option.bind_eq_some_iff, Option.ite_none_right_eq_some, Option.some.injEq]
  constructor
  · rintro ⟨id, hi, r', hr, hc, rfl⟩; exact ⟨id, hi, hr, hc⟩
  · rintro ⟨id, hi, hr, hc⟩; exact ⟨id, hi, r, hr, hc, rfl⟩

theorem mem_bySequence {l : List InstanceRecord} {r : InstanceRecord} : r ∈ bySequence l ↔ r ∈ l :=
  (List.perm_insertionSort _ l).mem_iff

theorem mem_rivals {s : Registry} {d : JsString} {u : UserId} {r : InstanceRecord} :
    r ∈ rivals D s d u ↔ (∃ k, s.records.get k = some r) ∧ r.userId = u ∧ r.state = .conflicting ∧
      r.connection.isSome = true ∧ ownershipKey D r.userId r.registration = d := by
  rw [rivals, mem_bySequence, List.mem_filter, OMap.mem_values, decide_eq_true_iff]

/-! ## The recursion -/

theorem crown_connections (s : Registry) (key : JsString) (r : InstanceRecord) :
    (crown s key r).connections = s.connections := rfl

theorem leave_connections (s : Registry) (c : ConnId) : (leave s c).connections = s.connections.filter (· ≠ c) := rfl

theorem recordOn_leave (s : Registry) (c d : ConnId) : recordOn (leave s c) d = recordOn s d := rfl

theorem fewer_connections {s t : Registry} {c : ConnId} (hc : c ∈ s.connections)
    (ht : t.connections = s.connections.filter (· ≠ c)) : t.connections.length < s.connections.length := by
  rw [ht]
  exact List.length_filter_lt_length_iff_exists.mpr ⟨c, hc, by simp⟩

theorem promoteWith_congr {f g : Registry → ConnId → Registry} {s : Registry} {key : JsString} {u : UserId}
    (h : ∀ t c, t.connections = s.connections → f t c = g t c) :
    promoteWith D f s key u = promoteWith D g s key u := by
  unfold promoteWith
  split
  · rfl
  · split
    · simp only [sendWith, h _ _ (crown_connections ..)]
    · rfl

theorem disconnectBody_congr {f g : Registry → ConnId → Registry} {s : Registry} {c : ConnId}
    (h : ∀ t d, t.connections = s.connections.filter (· ≠ c) → f t d = g t d) :
    disconnectBody D f s c = disconnectBody D g s c := by
  unfold disconnectBody
  cases recordOn (leave s c) c with
  | none => rfl
  | some r =>
    dsimp only
    rw [promoteWith_congr fun t d ht => h t d ht]

/-- Fuel beyond the number of connections changes nothing. -/
theorem disconnectN_stable : ∀ {n m : Nat} {s : Registry} {c : ConnId},
    s.connections.length ≤ n → s.connections.length ≤ m → disconnectN D n s c = disconnectN D m s c := by
  intro n
  induction n with
  | zero =>
    intro m s c hn _
    have hnil : s.connections = [] := List.length_eq_zero_iff.mp (by omega)
    cases m <;> simp [disconnectN, hnil]
  | succ n ih =>
    intro m s c hn hm
    by_cases hc : c ∈ s.connections
    · obtain _ | m := m
      · exact absurd (List.length_pos_of_mem hc) (by omega)
      · simp only [disconnectN, hc, if_true]
        refine disconnectBody_congr fun t d ht => ?_
        have hlt := fewer_connections hc ht
        exact ih (by omega) (by omega)
    · cases m <;> simp [disconnectN, hc]

theorem disconnect_of_not_mem {s : Registry} {c : ConnId} (h : c ∉ s.connections) : disconnect D s c = s := by
  unfold disconnect
  cases s.connections.length <;> simp [disconnectN, h]

theorem disconnect_of_mem {s : Registry} {c : ConnId} (h : c ∈ s.connections) :
    disconnect D s c = disconnectBody D (disconnect D) s c := by
  obtain ⟨n, hn⟩ := Nat.exists_eq_succ_of_ne_zero (List.length_pos_of_mem h).ne'
  rw [disconnect, hn]
  simp only [disconnectN, h, if_true]
  refine disconnectBody_congr fun t d ht => disconnectN_stable ?_ le_rfl
  have := fewer_connections h ht; omega

/-- What holds of `disconnect`: shown of a connection the registry no longer has, and of
    the body when it holds of the `disconnect` the body calls. -/
theorem disconnect_rule {R : Registry → ConnId → Registry → Prop}
    (gone : ∀ s c, c ∉ s.connections → R s c s)
    (body : ∀ s c, c ∈ s.connections →
      (∀ t d, t.connections = s.connections.filter (· ≠ c) → R t d (disconnect D t d)) →
      R s c (disconnectBody D (disconnect D) s c)) :
    ∀ s c, R s c (disconnect D s c) := by
  have bounded : ∀ n s c, s.connections.length ≤ n → R s c (disconnect D s c) := by
    intro n
    induction n with
    | zero =>
      intro s c hn
      have hc : c ∉ s.connections := by simp [List.length_eq_zero_iff.mp (Nat.le_zero.mp hn)]
      rw [disconnect_of_not_mem hc]; exact gone s c hc
    | succ n ih =>
      intro s c hn
      by_cases hc : c ∈ s.connections
      · rw [disconnect_of_mem hc]
        refine body s c hc fun t d ht => ih t d ?_
        have := fewer_connections hc ht; omega
      · rw [disconnect_of_not_mem hc]; exact gone s c hc
  exact fun s c => bounded _ s c le_rfl

end NotifyHub.Control
