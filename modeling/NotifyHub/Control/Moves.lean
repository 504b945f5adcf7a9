/-
  NotifyHub.Control.Moves — what an operation of the registry can do to its state.

  Every step is a chain of moves (`step_moves`): writes to one part of the state, with
  what the code has checked before it makes them, and whole `disconnect`s. What every
  move keeps, every run keeps (`run_inv`); what the pieces of a `disconnect` keep, it
  keeps (`disconnect_inv`).
-/

import Mathlib.Logic.Relation
import NotifyHub.Control.Operations

namespace NotifyHub.Control

open Relation

variable {D : Deps}

/-! ## What ownership reads of a record -/

/-- A record without its last-seen time and its requests. -/
structure Seat where
  registration : RegisterMessage
  userId : UserId
  sequence : Nat
  state : InstanceState
  connection : Option ConnId
  deriving DecidableEq

def InstanceRecord.seat (r : InstanceRecord) : Seat := ⟨r.registration, r.userId, r.sequence, r.state, r.connection⟩

/-- What a record knows of its instance's requests: those it shows, and those gone stale. -/
def InstanceRecord.requests (r : InstanceRecord) : OMap JsString Projected × OMap JsString Nat :=
  (r.projectedRequests, r.staleRequests)

/-! ## Frames that carry an answer or a decision -/

def ServerMessage.isCommand : ServerMessage → Bool
  | .questionAnswerCommand .. | .permissionDecideCommand .. => true
  | _ => false

/-- The arguments of `answerQuestion` or `decidePermission`, with the frame it sends. -/
structure Route where
  kind : CommandKind
  user : UserId
  instanceId : JsString
  requestId : JsString
  commandId : JsString
  sessionID : JsString
  frame : ServerMessage

def Op.route : Op → Option Route
  | .answerQuestion u instanceId requestId commandId sessionID answers =>
    some ⟨.question, u, instanceId, requestId, commandId, sessionID,
      .questionAnswerCommand commandId requestId sessionID answers⟩
  | .decidePermission u instanceId requestId commandId sessionID decision =>
    some ⟨.permission, u, instanceId, requestId, commandId, sessionID,
      .permissionDecideCommand commandId requestId sessionID decision⟩
  | _ => none

def Route.target (q : Route) (s : Registry) : Except CommandReply (InstanceRecord × ConnId) :=
  commandTarget s q.kind q.user q.instanceId q.requestId q.commandId q.sessionID

def CommandKind.timeout (k : CommandKind) (c : ConnId) (commandId : JsString) : Op :=
  match k with
  | .question => .answerTimeout c commandId
  | .permission => .decideTimeout c commandId

/-- The operation is the plugin's result for a routed command, or its timeout. -/
def Op.Ends (op : Op) (k : CommandKind) (c : ConnId) (commandId : JsString) (status : CommandStatus) : Prop :=
  (∃ instanceId, op = .frame c (some (k.result commandId instanceId status))) ∨
    (op = k.timeout c commandId ∧ status = .resultUnknown)

/-- The operation is a frame that rewrites the requests of the record on a connection: a
    snapshot, or a confirmed result. -/
def Op.Rewrites (op : Op) (c : ConnId) : Prop :=
  (∃ requestId instanceId interactions,
    op = .frame c (some (.pendingSnapshotResponse requestId instanceId interactions))) ∨
    ∃ k commandId instanceId, op = .frame c (some (CommandKind.result k commandId instanceId .confirmed))

/-- The operation adds the client, or is a frame of it. -/
def Op.Authenticates (op : Op) (w : ClientId) : Prop :=
  (∃ socket expiresAtMs, op = .addWebUiClient w socket expiresAtMs) ∨ ∃ frame draw, op = .clientFrame w frame draw

/-- The operation may issue or settle a session query. -/
def Op.catalogQuery : Op → Bool
  | .collectSessions .. | .catalogTimeout .. | .frame _ (some (.sessionCatalogResponse ..)) => true
  | _ => false

/-- The operation may issue or settle snapshot queries. -/
def Op.snapshotQuery : Op → Bool
  | .collectPendingInteractions .. | .snapshotTimeout .. | .frame _ (some (.pendingSnapshotResponse ..)) => true
  | _ => false

/-- The operation is about the connection's end, before or after it registered. -/
def Op.Drops (c : ConnId) : Op → Prop
  | .close d | .error d | .sendFailed d | .heartbeat d | .frame d none => d = c
  | .revokeKey id => c.auth.id = id
  | .closeAll => True
  | _ => False

/-- A record rests on the connection, or a tunnel was opened on it. -/
def Registry.Uses (s : Registry) (c : ConnId) : Prop :=
  (∃ k r, s.records.get k = some r ∧ r.connection = some c) ∨
    ∃ w tunnel, (s.clients w).tunnel = some tunnel ∧ tunnel.connection = c

/-! ## Moves -/

variable (D) in
/-- What an operation does next. -/
inductive Move (op : Op) : Registry → Registry → Prop
  | tick {s : Registry} (now : Nat) : Move op s { s with nowMs := now }
  | settle {s : Registry} : Move op s (settleCollections s)
  | log {s : Registry} (e : Effect) (he : ∀ c m, e ≠ .sent c m)
      (hq : ∀ u id r, e = .catalog u id r → op.catalogQuery = true := by exact fun _ _ _ => nofun) : Move op s (s.log e)
  | sent {s : Registry} (c : ConnId) (m : ServerMessage) (hs : (s.conns c).socket.accepts = true)
      (hm : m.isCommand = true → ∃ q, op.route = some q ∧ q.frame = m) (hu : s.Uses c) : Move op s (s.log (.sent c m))
  | conn {s : Registry} (c : ConnId) (x : ControlConnection) (ha : x.added = (s.conns c).added)
      (hu : x.uid = (s.conns c).uid) (hi : x.instanceId = (s.conns c).instanceId)
      (hs : x.socket = (s.conns c).socket ∨ x.socket = (s.conns c).socket.shut ∨ op = .socket c x.socket) :
      Move op s (s.setConn c x)
  | client {s : Registry} (w : ClientId) (x : WebUiClient)
      (hx : (x.added = (s.clients w).added ∧ x.expiresAtMs = (s.clients w).expiresAtMs) ∨ op.Authenticates w)
      (ht : ∀ tunnel, x.tunnel = some tunnel → s.Uses tunnel.connection) : Move op s (s.setClient w x)
  | tunnels {s : Registry} (m : OMap JsString ClientId) : Move op s { s with webUiTunnels := m }
  | catalogs {s : Registry} (m : OMap JsString CatalogRequest) (hq : op.catalogQuery = true) :
      Move op s { s with catalogRequests := m }
  | requests {s : Registry} (m : OMap JsString PendingSnapshotRequest) (l : List Collection)
    (hq : op.snapshotQuery = true) :
      Move op s { s with pendingRequests := m, collections := l }
  | prompts {s : Registry} (m : OMap JsString PendingPromptCommand) : Move op s { s with pendingPromptCommands := m }
  | prune {s : Registry} :
      Move op s { s with commandOutcomes := OutcomeCache.pruneExpiredOutcomes s.commandOutcomes s.nowMs }
  | track {s : Registry} (q : Route) (r : InstanceRecord) (c : ConnId) (hq : op.route = some q)
      (ht : q.target s = .ok (r, c)) : Move op s (trackCommand D s q.kind r c q.user q.requestId q.commandId)
  | finish {s : Registry} (k : CommandKind) (c : ConnId) (commandId : JsString) (p : PendingCommand)
      (status : CommandStatus) (hp : (s.commands k).get (commandKey s c commandId) = some p)
      (ho : op.Ends k c commandId status) (ha : (s.conns c).added = true) :
      Move op s (settleOutcome (untrackCommand s k c commandId) p.commandId status)
  | record {s : Registry} (c : ConnId) (r r' : InstanceRecord) (hr : recordOn s c = some r) (hs : r'.seat = r.seat)
      (hq : r'.requests = r.requests ∨ op.Rewrites c) : Move op s (putRecord s r')
  | forget {s : Registry} (key : JsString) (r : InstanceRecord) (hr : s.records.get key = some r)
      (ho : r.state = .offline) (hc : r.connection = none) : Move op s { s with records := s.records.delete key }
  | add {s : Registry} (c : ConnId) (socket : Socket) (ha : (s.conns c).added = false) (ho : op = .add c socket) :
      Move op s (add s c socket)
  | enroll {s : Registry} (c : ConnId) (registration : RegisterMessage) (existing : Option InstanceRecord)
      (ho : op = .frame c (some (.register registration))) (ha : (s.conns c).added = true)
      (hi : (s.conns c).instanceId = none) : Move op s (enroll D s c registration existing)
  | disconnect {s : Registry} (c : ConnId) (hc : s.Uses c ∨ (s.conns c).instanceId ≠ none ∨ op.Drops c) :
      Move op s (disconnect D s c)

variable (D) in
abbrev Moves (op : Op) : Registry → Registry → Prop := ReflTransGen (Move D op)

/-! ## Sending and closing -/

/-- The effect is neither a frame to the plugin nor the end of a session query. -/
def Effect.noted : Effect → Bool
  | .sent .. | .catalog .. => false
  | _ => true

theorem Move.noted {op : Op} {s : Registry} (e : Effect) (he : e.noted = true) : Move D op s (s.log e) :=
  .log e (fun _ _ h => by rw [h] at he; cases he) fun _ _ _ h => by rw [h] at he; cases he

theorem accepts_iff {x : Socket} :
    x.accepts = true ↔ x.open = true ∧ x.bufferedAmount ≤ WS_MAX_BUFFERED_BYTES ∧ x.sendThrows = false := by
  simp [Socket.accepts, and_assoc]

/-- What `send` does: the frame goes out, or the connection goes. -/
theorem sendWith_cases (disc : Registry → ConnId → Registry) (s : Registry) (c : ConnId) (m : ServerMessage) :
    ((s.conns c).socket.accepts = true ∧ sendWith disc s c m = s.log (.sent c m)) ∨
    ((s.conns c).socket.accepts = false ∧
      (sendWith disc s c m = (disc s c).terminate c ∨ sendWith disc s c m = disc s c)) := by
  unfold sendWith
  by_cases h : (s.conns c).socket.open = false ∨ (s.conns c).socket.bufferedAmount > WS_MAX_BUFFERED_BYTES
  · refine Or.inr ⟨?_, Or.inl (if_pos h)⟩
    rw [Bool.eq_false_iff, Ne, accepts_iff]
    rintro ⟨ho, hb, -⟩
    rcases h with h | h
    · rw [h] at ho; cases ho
    · omega
  · rw [not_or, Bool.not_eq_false, not_lt] at h
    simp only [h.1, not_lt.mpr h.2, or_self, if_false, Bool.true_eq_false]
    by_cases ht : (s.conns c).socket.sendThrows = true
    · refine Or.inr ⟨?_, Or.inr (if_pos ht)⟩
      rw [Bool.eq_false_iff, Ne, accepts_iff]
      rintro ⟨-, -, hf⟩
      rw [ht] at hf; cases hf
    · exact Or.inl ⟨accepts_iff.mpr ⟨h.1, h.2, by simpa using ht⟩, if_neg ht⟩

/-- What a `disconnect` writes to the world, past the promises and tunnels it ends. -/
def Effect.parting : Effect → Bool
  | .published .. | .terminated _ | .sent _ (.registration ..) => true
  | _ => false

/-- What each piece of a `disconnect` keeps, the whole keeps. -/
theorem disconnect_keeps {P : Registry → Prop}
    (hleave : ∀ s c, c ∈ s.connections → P s → P (leave s c))
    (hretire : ∀ s c r, c ∉ s.connections → recordOn s c = some r → P s → P (retire s r))
    (hdisown : ∀ s key, P s → P (disown s key))
    (hcrown : ∀ s key u r rs, rivals D s key u = r :: rs → P s → P (crown s key r))
    (hshut : ∀ s c, P s → P (s.setConn c { s.conns c with socket := (s.conns c).socket.shut }))
    (hlog : ∀ s e, e.parting = true → (∀ c m, e = .sent c m → (s.conns c).socket.accepts = true ∧
      ∃ k r, s.records.get k = some r ∧ r.connection = some c) → P s → P (s.log e))
    (s : Registry) (c : ConnId) : P s → P (disconnect D s c) := by
  refine disconnect_rule (R := fun s _ t => P s → P t) (fun _ _ _ h => h) ?_ s c
  intro s c hc ih hs
  have hpub : ∀ t u, P t → P (publishSnapshot t u) := fun t u ht => hlog t _ rfl (fun _ _ => by rintro ⟨⟩) ht
  have hl := hleave s c hc hs
  unfold disconnectBody
  cases hr : recordOn (leave s c) c with
  | none => exact hl
  | some r =>
    dsimp only
    have ht := hretire _ c r (by simp [leave_connections]) hr hl
    split
    · refine hpub _ _ ?_
      have hd := hdisown _ (ownershipKey D r.userId r.registration) ht
      unfold promoteWith
      split
      · exact hd
      · rename_i candidate rest hcand
        have hcr := hcrown _ _ _ _ _ hcand hd
        split
        · rename_i d hcd
          have hdisc := ih _ d rfl hcr
          rcases sendWith_cases (disconnect D) _ d (.registration candidate.registration.instanceId .controllable)
            with ⟨ha, h⟩ | ⟨-, h | h⟩ <;> rw [h]
          · refine hlog _ _ rfl (fun e m he => ?_) hcr
            cases he
            exact ⟨ha, _, _, OMap.get_set_self .., hcd⟩
          · exact hlog _ _ rfl (fun _ _ => by rintro ⟨⟩) (hshut _ d hdisc)
          · exact hdisc
        · exact hcr
    · exact hpub _ _ ht

theorem disconnect_inv {P : Registry → Prop}
    (hleave : ∀ s c, c ∈ s.connections → P s → P (leave s c))
    (hretire : ∀ s c r, c ∉ s.connections → recordOn s c = some r → P s → P (retire s r))
    (hdisown : ∀ s key, P s → P (disown s key))
    (hcrown : ∀ s key u r rs, rivals D s key u = r :: rs → P s → P (crown s key r))
    (hshut : ∀ s c, P s → P (s.setConn c { s.conns c with socket := (s.conns c).socket.shut }))
    (hlog : ∀ s e, (∀ c m, e = .sent c m → m.isCommand = false) → P s → P (s.log e)) (s : Registry) (c : ConnId) :
    P s → P (disconnect D s c) := by
  refine disconnect_keeps hleave hretire hdisown hcrown hshut (fun s e he _ => hlog s e fun c m h => ?_) s c
  rw [h] at he
  cases m with
  | registration => rfl
  | _ => cases he

/-- `disconnect` leaves alone what a connection is from its registration on. -/
theorem disconnect_same (D : Deps) (s : Registry) (c d : ConnId) :
    ((disconnect D s c).conns d).added = (s.conns d).added ∧ ((disconnect D s c).conns d).uid = (s.conns d).uid ∧
      ((disconnect D s c).conns d).instanceId = (s.conns d).instanceId := by
  refine disconnect_inv (P := fun t => (t.conns d).added = (s.conns d).added ∧ (t.conns d).uid = (s.conns d).uid ∧
    (t.conns d).instanceId = (s.conns d).instanceId) ?_ ?_ ?_ ?_ ?_ ?_ s c ⟨rfl, rfl, rfl⟩
  · exact fun _ _ _ h => h
  · exact fun _ _ _ _ _ h => h
  · exact fun _ _ h => h
  · exact fun _ _ _ _ _ _ h => h
  · intro t e h
    by_cases hd : d = e
    · subst hd; simpa [Registry.setConn] using h
    · simpa [Registry.setConn, hd] using h
  · exact fun _ _ _ h => h

/-- A connection that is gone stays gone, and `disconnect` adds none. -/
theorem disconnect_connections (s : Registry) (c : ConnId) :
    ∀ d ∈ (disconnect D s c).connections, d ∈ s.connections ∧ d ≠ c := by
  refine disconnect_rule (R := fun s c t => ∀ d ∈ t.connections, d ∈ s.connections ∧ d ≠ c)
    (fun s c hc d hd => ⟨hd, fun he => hc (he ▸ hd)⟩) ?_ s c
  intro s c _ ih d hd
  have hmem : ∀ {l : List ConnId}, l = s.connections.filter (· ≠ c) → d ∈ l → d ∈ s.connections ∧ d ≠ c := by
    rintro l rfl hl
    simpa using hl
  unfold disconnectBody at hd
  cases hr : recordOn (leave s c) c with
  | none => rw [hr] at hd; exact hmem rfl hd
  | some r =>
    rw [hr] at hd
    dsimp only at hd
    split at hd
    · unfold promoteWith at hd
      split at hd
      · exact hmem rfl hd
      · rename_i candidate _ _
        split at hd
        · rename_i e _
          rcases sendWith_cases (disconnect D)
            (crown (disown (retire (leave s c) r) (ownershipKey D r.userId r.registration))
              (ownershipKey D r.userId r.registration) candidate) e
              (.registration candidate.registration.instanceId .controllable) with ⟨-, he⟩ | ⟨-, he | he⟩
          · rw [he] at hd; exact hmem rfl hd
          · rw [he] at hd; exact hmem rfl (ih _ e rfl d hd).1
          · rw [he] at hd; exact hmem rfl (ih _ e rfl d hd).1
        · exact hmem rfl hd
    · exact hmem rfl hd

/-- Every record is under its own key. -/
def Keyed (s : Registry) : Prop := ∀ k r, s.records.get k = some r → k = recordKey r.userId r.registration.instanceId

/-- What a `disconnect` leaves of a record. -/
structure InstanceRecord.Lasts (r r' : InstanceRecord) : Prop where
  registration : r'.registration = r.registration
  userId : r'.userId = r.userId
  sequence : r'.sequence = r.sequence
  projected : r'.projectedRequests = r.projectedRequests
  stale : r'.staleRequests = r.staleRequests
  connection : r'.connection = r.connection ∨ r'.connection = none

theorem InstanceRecord.Lasts.refl (r : InstanceRecord) : r.Lasts r := ⟨rfl, rfl, rfl, rfl, rfl, Or.inl rfl⟩

theorem InstanceRecord.Lasts.trans {r r' r'' : InstanceRecord} (h : r.Lasts r') (h' : r'.Lasts r'') : r.Lasts r'' :=
  ⟨h'.registration.trans h.registration, h'.userId.trans h.userId, h'.sequence.trans h.sequence,
    h'.projected.trans h.projected, h'.stale.trans h.stale, h'.connection.elim (fun e => e ▸ h.connection) Or.inr⟩

/-- No record appears or disappears, each lasts, and keeps a connection that is still live. -/
structure Lasting (s t : Registry) : Prop where
  keyed : Keyed t
  back : ∀ k r', t.records.get k = some r' → ∃ r, s.records.get k = some r ∧ r.Lasts r'
  forth : ∀ k r, s.records.get k = some r → ∃ r', t.records.get k = some r'
  stays : ∀ k r r' c, s.records.get k = some r → t.records.get k = some r' → r.connection = some c →
    c ∈ t.connections → r'.connection = some c

theorem Lasting.put {s t : Registry} (h : Lasting s t) {k : JsString} {r r' : InstanceRecord}
    (hr : t.records.get k = some r) (hl : r.Lasts r')
    (hc : r'.connection = r.connection ∨ ∀ c, r.connection = some c → c ∉ t.connections) :
    Lasting s (putRecord t r') := by
  have hk : recordKey r'.userId r'.registration.instanceId = k := by
    rw [hl.userId, hl.registration]; exact (h.keyed k r hr).symm
  have hget : ∀ k', (putRecord t r').records.get k' = if k' = k then some r' else t.records.get k' := by
    intro k'
    rw [putRecord, OMap.get_set, hk]
  refine ⟨fun k' x hx => ?_, fun k' x hx => ?_, fun k' x hx => ?_, fun k' x x' c hx hx' hxc hlive => ?_⟩
  · rw [hget] at hx
    split at hx
    · rename_i he; cases hx; rw [he, hk]
    · exact h.keyed k' x hx
  · rw [hget] at hx
    split at hx
    · rename_i he
      cases hx
      obtain ⟨y, hy, hl'⟩ := h.back k r hr
      exact ⟨y, he ▸ hy, hl'.trans hl⟩
    · exact h.back k' x hx
  · rw [hget]
    split
    · exact ⟨r', rfl⟩
    · exact h.forth k' x hx
  · rw [hget] at hx'
    split at hx'
    · rename_i he
      cases hx'
      have hrc := h.stays k' x r c hx (he ▸ hr) hxc hlive
      rcases hc with hc | hc
      · exact hc.trans hrc
      · exact absurd hlive (hc c hrc)
    · exact h.stays k' x x' c hx hx' hxc hlive

theorem Lasting.congr {s t t' : Registry} (h : Lasting s t) (hr : t'.records = t.records)
    (hc : t'.connections = t.connections) : Lasting s t' := by
  refine ⟨?_, ?_, ?_, ?_⟩
  · unfold Keyed; rw [hr]; exact h.keyed
  · rw [hr]; exact h.back
  · rw [hr]; exact h.forth
  · rw [hr, hc]; exact h.stays

theorem disconnect_lasting {s : Registry} (hk : Keyed s) (c : ConnId) : Lasting s (disconnect D s c) := by
  refine disconnect_inv (P := Lasting s) ?_ ?_ ?_ ?_ ?_ ?_ s c
    ⟨hk, fun k r hr => ⟨r, hr, .refl r⟩, fun k r hr => ⟨r, hr⟩, ?_⟩
  · intro t d _ h
    exact { h with stays := fun k r r' e hr hr' hre he => h.stays k r r' e hr hr' hre (List.mem_filter.mp he).1 }
  · intro t d r hd hr h
    obtain ⟨id, -, hg, hc⟩ := recordOn_eq_some.mp hr
    refine h.put hg ⟨rfl, rfl, rfl, rfl, rfl, Or.inr rfl⟩ (Or.inr fun e he => ?_)
    rw [hc] at he; cases he; exact hd
  · exact fun _ _ h => h.congr rfl rfl
  · intro t key u r rs hrs h
    obtain ⟨⟨k, hg⟩, -⟩ := mem_rivals.mp (hrs ▸ List.mem_cons_self : r ∈ rivals D t key u)
    have hl : r.Lasts { r with state := .controllable, lastSeenAt := t.nowMs } := ⟨rfl, rfl, rfl, rfl, rfl, Or.inl rfl⟩
    exact (h.put hg hl (Or.inl rfl)).congr rfl rfl
  · exact fun _ _ h => h.congr rfl rfl
  · exact fun _ _ _ h => h.congr rfl rfl
  · intro k r r' d hr hr' hc _
    rw [hr] at hr'; cases hr'; exact hc

theorem move_shut {op : Op} (s : Registry) (c : ConnId) :
    Move D op s (s.setConn c { s.conns c with socket := (s.conns c).socket.shut }) :=
  .conn c _ rfl rfl rfl (Or.inr (Or.inl rfl))

theorem moves_terminate {op : Op} (s : Registry) (c : ConnId) : Moves D op s (s.terminate c) :=
  (ReflTransGen.single (move_shut s c)).tail (.noted _ rfl)

theorem moves_closeSocket {op : Op} (s : Registry) (c : ConnId) (code : Nat) (reason : String) :
    Moves D op s (s.closeSocket c code reason) :=
  (ReflTransGen.single (move_shut s c)).tail (.noted _ rfl)

theorem uses_of_tunnel {s : Registry} {w : ClientId} {tunnel : WebUiTunnel} (h : (s.clients w).tunnel = some tunnel) :
    s.Uses tunnel.connection := Or.inr ⟨w, tunnel, h, rfl⟩

/-- A client is written, and its tunnel is left as it is. -/
theorem move_client {op : Op} (s : Registry) (w : ClientId) (x : WebUiClient)
    (hx : x.added = (s.clients w).added ∧ x.expiresAtMs = (s.clients w).expiresAtMs := by exact ⟨rfl, rfl⟩)
    (ht : x.tunnel = (s.clients w).tunnel := by rfl) : Move D op s (s.setClient w x) :=
  .client w x (Or.inl hx) fun _ h => uses_of_tunnel (ht ▸ h)

theorem moves_closeClient {op : Op} (s : Registry) (w : ClientId) (code : Nat) (reason : String) :
    Moves D op s (s.closeClient w code reason) :=
  (ReflTransGen.single (move_client s w _)).tail (.noted _ rfl)

theorem moves_terminateClient {op : Op} (s : Registry) (w : ClientId) : Moves D op s (s.terminateClient w) :=
  (ReflTransGen.single (move_client s w _)).tail (.noted _ rfl)

theorem move_setPendingRequests {op : Op} (s : Registry) (w : ClientId) (f : List JsString → List JsString) :
    Move D op s (setPendingRequests s w f) := by
  refine .client w _ (Or.inl ⟨rfl, rfl⟩) fun tunnel h => ?_
  obtain ⟨tunnel', h', rfl⟩ := Option.map_eq_some_iff.mp h
  exact Or.inr ⟨w, tunnel', h', rfl⟩

theorem moves_sendClient {op : Op} (s : Registry) (w : ClientId) (m : WebUiFrame) :
    Moves D op s (s.sendClient w m) := by
  unfold Registry.sendClient
  split
  · exact .single (.noted _ rfl)
  · exact .single (.noted _ rfl)

theorem moves_publish {op : Op} (s : Registry) (u : UserId) : Moves D op s (publishSnapshot s u) :=
  .single (.noted _ rfl)

theorem moves_send {op : Op} {s : Registry} {c : ConnId} (hu : s.Uses c) (m : ServerMessage)
    (hm : m.isCommand = true → ∃ q, op.route = some q ∧ q.frame = m) : Moves D op s (send D s c m) := by
  unfold send
  rcases sendWith_cases (disconnect D) s c m with ⟨ha, h⟩ | ⟨-, h | h⟩ <;> rw [h]
  · exact .single (.sent c m ha hm hu)
  · exact (ReflTransGen.single (.disconnect c (Or.inl hu))).trans (moves_terminate _ c)
  · exact .single (.disconnect c (Or.inl hu))

theorem moves_closeEach {op : Op} (code : Nat) (reason : String) :
    ∀ (cs : List ConnId) (_ : ∀ c ∈ cs, op.Drops c) (s : Registry), Moves D op s (closeEach D code reason s cs)
  | [], _, _ => .refl
  | c :: cs, h, _ =>
    ((ReflTransGen.single (.disconnect c (Or.inr (Or.inr (h c List.mem_cons_self))))).trans
      (moves_closeSocket _ c code reason)).trans
      (moves_closeEach code reason cs (fun d hd => h d (List.mem_cons_of_mem c hd)) _)

/-! ## Frames -/

theorem moves_onRecord {op : Op} (s : Registry) (c : ConnId) (f : InstanceRecord → InstanceRecord)
    (hf : ∀ r, (f r).seat = r.seat) (hq : (∀ r, (f r).requests = r.requests) ∨ op.Rewrites c) :
    Moves D op s (onRecord s c f) := by
  unfold onRecord
  split
  · rename_i r hr; exact .single (.record c r (f r) hr (hf r) (hq.imp_left fun h => h r))
  · exact .refl

theorem moves_handleSnapshotResponse (s : Registry) (c : ConnId) (requestId instanceId : JsString)
    (interactions : List PendingInteraction) :
    Moves D (.frame c (some (.pendingSnapshotResponse requestId instanceId interactions))) s
      (handleSnapshotResponse s c requestId instanceId interactions) := by
  unfold handleSnapshotResponse
  split
  · exact .refl
  · split
    · exact .refl
    · dsimp only
      refine ReflTransGen.tail (b := onRecord _ c _) ?_ (.requests _ _ rfl)
      exact (ReflTransGen.single (.requests _ s.collections rfl)).trans
        (moves_onRecord _ c _ (fun _ => rfl) (Or.inr (Or.inl ⟨_, _, _, rfl⟩)))

/-- The two maps a result touches before it settles the outcome are independent. -/
theorem onRecord_untrackCommand (s : Registry) (k : CommandKind) (c d : ConnId) (commandId : JsString)
    (f : InstanceRecord → InstanceRecord) :
    onRecord (untrackCommand s k c commandId) d f = untrackCommand (onRecord s d f) k c commandId := by
  have hr : recordOn (untrackCommand s k c commandId) d = recordOn s d := rfl
  unfold onRecord
  rw [hr]
  cases recordOn s d with
  | none => rfl
  | some r => cases k <;> rfl

theorem onRecord_commands (s : Registry) (c : ConnId) (f : InstanceRecord → InstanceRecord) (k : CommandKind) :
    (onRecord s c f).commands k = s.commands k := by
  unfold onRecord
  cases recordOn s c with
  | none => rfl
  | some r => cases k <;> rfl

theorem onRecord_conns (s : Registry) (c : ConnId) (f : InstanceRecord → InstanceRecord) :
    (onRecord s c f).conns = s.conns := by
  unfold onRecord; split <;> rfl

theorem moves_handleCommandResult {op : Op} {k : CommandKind} {c : ConnId} {commandId : JsString}
    {status : CommandStatus} (ho : op.Ends k c commandId status) {s : Registry} (ha : (s.conns c).added = true)
    (instanceId : JsString) :
    Moves D op s (handleCommandResult k s c commandId instanceId status) := by
  unfold handleCommandResult
  split
  · exact .refl
  · split
    · exact .refl
    · rename_i p hp
      by_cases hs : status = .confirmed
      · have hq : op.Rewrites c := by
          rcases ho with ⟨i, rfl⟩ | ⟨-, hu⟩
          · exact Or.inr ⟨k, commandId, i, by rw [hs]⟩
          · rw [hs] at hu; cases hu
        simp only [hs, if_true, onRecord_untrackCommand]
        refine (moves_onRecord s c (confirmRequest s.nowMs p.requestId) (fun _ => rfl) (Or.inr hq)).tail
          (.finish k c commandId p _ ?_ (hs ▸ ho) (by rw [onRecord_conns]; exact ha))
        rw [onRecord_commands, commandKey, onRecord_conns]; exact hp
      · simp only [hs, if_false]
        exact .single (.finish k c commandId p _ hp ho ha)

theorem moves_closeWebUiTunnel {op : Op} (s : Registry) (w : ClientId) : Moves D op s (closeWebUiTunnel D s w) := by
  unfold closeWebUiTunnel
  split
  · exact .refl
  · rename_i tunnel htunnel
    split
    · exact .refl
    · dsimp only
      split
      · refine (ReflTransGen.single (.tunnels _)).trans (moves_send ?_ (.webUiTunnelClose _) (by rintro ⟨⟩))
        exact uses_of_tunnel htunnel
      · exact .single (.tunnels _)

theorem moves_handleWebUiResponse {op : Op} (s : Registry) (c : ConnId) (tunnelId requestId : JsString)
    (part : WebUiResponsePart) : Moves D op s (handleWebUiResponse D s c tunnelId requestId part) := by
  unfold handleWebUiResponse
  split
  · exact .refl
  · rename_i w _
    split
    · exact .refl
    · split
      · exact .refl
      · have first : Moves D op s (if part = .end then setPendingRequests s w (·.erase requestId) else s) := by
          split
          · exact .single (move_setPendingRequests s w _)
          · exact .refl
        refine first.trans ?_
        generalize (if part = .end then setPendingRequests s w (·.erase requestId) else s) = t
        dsimp only
        by_cases hb : (t.clients w).socket.bufferedAmount > WS_MAX_BUFFERED_BYTES
        · rw [if_pos hb]
          exact (moves_closeWebUiTunnel t w).trans (moves_terminateClient _ w)
        · rw [if_neg hb]
          split
          · exact moves_closeWebUiTunnel t w
          · exact .single (.noted _ rfl)

theorem moves_register {s : Registry} {c : ConnId} {registration : RegisterMessage} (ha : (s.conns c).added = true)
    (hi : (s.conns c).instanceId = none) :
    Moves D (.frame c (some (.register registration))) s (register D s c registration) := by
  have hfinish : ∀ (t : Registry) (existing : Option InstanceRecord), (t.conns c).added = true →
    (t.conns c).instanceId = none →
      Moves D (.frame c (some (.register registration))) t (completeRegistration D t c registration existing) := by
    intro t existing ht hti
    have huses : (enroll D t c registration existing).Uses c := Or.inl ⟨_, _, OMap.get_set_self .., rfl⟩
    exact ((ReflTransGen.single (.enroll c registration existing rfl ht hti)).trans
      (moves_send huses (.registration _ _) nofun)).trans
      (moves_publish _ _)
  unfold register
  dsimp only
  split
  · exact hfinish _ _ ha hi
  · rename_i existing hexisting
    split
    · exact hfinish _ _ ha hi
    · rename_i d hd
      have hdisc : Move D (.frame c (some (.register registration))) s (disconnect D s d) :=
        .disconnect d (Or.inl (Or.inl ⟨_, existing, hexisting, hd⟩))
      split
      · exact hfinish _ _ ha hi
      · split
        · exact (ReflTransGen.single hdisc).tail (.noted _ rfl)
        · rename_i d' _
          rw [← (disconnect_same D s d c).1] at ha
          rw [← (disconnect_same D s d c).2.2] at hi
          refine ((ReflTransGen.single hdisc).trans (moves_closeSocket _ d' _ _)).trans (hfinish _ _ ?_ ?_) <;>
            simp only [Registry.closeSocket, Registry.log, Registry.setConn] <;> split
          · rename_i h; subst h; exact ha
          · exact ha
          · rename_i h; subst h; exact hi
          · exact hi

theorem moves_receive (s : Registry) (c : ConnId) (frame : Option ClientMessage) :
    Moves D (.frame c frame) s (receive D s c frame) := by
  unfold receive
  by_cases ha : (s.conns c).added = false
  · rw [if_pos ha]
  · rw [if_neg ha]
    have hx : Move D (.frame c frame) s (s.setConn c { s.conns c with alive := true }) :=
      .conn c _ rfl rfl rfl (Or.inl rfl)
    have hadd : ((s.setConn c { s.conns c with alive := true }).conns c).added = true := by
      simpa [Registry.setConn] using ha
    refine (ReflTransGen.single hx).trans ?_
    generalize s.setConn c { s.conns c with alive := true } = t at hadd
    match frame with
    | none => exact (ReflTransGen.single (.disconnect c (Or.inr (Or.inr rfl)))).trans (moves_closeSocket _ c _ _)
    | some (.pendingSnapshotResponse ..) => exact moves_handleSnapshotResponse ..
    | some (.questionAnswerResult _ instanceId _) =>
      exact moves_handleCommandResult (k := .question) (Or.inl ⟨instanceId, rfl⟩) hadd instanceId
    | some (.permissionDecideResult _ instanceId _) =>
      exact moves_handleCommandResult (k := .permission) (Or.inl ⟨instanceId, rfl⟩) hadd instanceId
    | some (.webUiResponse ..) => exact moves_handleWebUiResponse ..
    | some (.sessionPromptResult ..) =>
      dsimp only
      unfold handleSessionPromptResult
      split
      · exact .refl
      · exact .single (.prompts _)
    | some (.sessionCatalogResponse ..) =>
      dsimp only
      unfold handleCatalogResponse
      split
      · exact .refl
      · split
        · exact .refl
        · exact (ReflTransGen.single (.catalogs _ rfl)).tail (.log _ (fun _ _ => nofun) fun _ _ _ _ => rfl)
    | some (.register registration) =>
      dsimp only
      split
      · rename_i hi
        exact (ReflTransGen.single (.disconnect c (Or.inr (Or.inl (Option.isSome_iff_ne_none.mp hi))))).trans
          (moves_closeSocket _ c _ _)
      · rename_i hi
        exact moves_register hadd (Option.not_isSome_iff_eq_none.mp hi)

/-! ## WebUI clients -/

theorem httpRequest_eq {tunnel : WebUiTunnel} {ms : List (JsString × Json)} {m : ServerMessage}
    (h : httpRequest? tunnel ms = some m) :
    ∃ requestId method path headers body, m = .webUiHttpRequest tunnel.tunnelId requestId method path headers body := by
  simp only [httpRequest?, Option.bind_eq_bind, Option.bind_eq_some_iff] at h
  obtain ⟨requestId, -, method, -, path, -, headers, -, body, -, h⟩ := h
  split at h
  · cases h; exact ⟨requestId, method, path, headers, body, rfl⟩
  · cases h

theorem tunnelTarget_uses {s : Registry} {u : UserId} {instanceId : JsString} {c : ConnId}
    (h : tunnelTarget s u instanceId = some c) : s.Uses c := by
  simp only [tunnelTarget, Option.bind_eq_bind, Option.bind_eq_some_iff, Option.ite_none_right_eq_some,
    Option.some.injEq] at h
  obtain ⟨r, hr, d, hd, -, rfl⟩ := h
  exact Or.inl ⟨_, r, hr, hd⟩

theorem moves_openWebUiTunnel {op : Op} (s : Registry) (w : ClientId) (ms : List (JsString × Json))
    (tunnelId : JsString) :
    Moves D op s (openWebUiTunnel s w ms tunnelId) := by
  unfold openWebUiTunnel
  split
  · exact moves_closeClient ..
  · split
    · split
      · exact .single (.noted _ rfl)
      · exact (ReflTransGen.single (.noted _ rfl)).trans (moves_closeClient ..)
    · rename_i c hc
      have opened : Move D op s (s.setClient w { s.clients w with tunnel := some ⟨tunnelId, c, []⟩ }) :=
        .client w _ (Or.inl ⟨rfl, rfl⟩) fun tunnel h => by cases h; exact tunnelTarget_uses hc
      exact ((ReflTransGen.single opened).tail (.tunnels _)).trans (moves_sendClient ..)

/-- Whatever becomes of its requests, a tunnel stays on its connection. -/
theorem uses_setPendingRequests {s : Registry} {w : ClientId} {tunnel : WebUiTunnel}
    (h : (s.clients w).tunnel = some tunnel)
    (f : List JsString → List JsString) : (setPendingRequests s w f).Uses tunnel.connection := by
  refine Or.inr ⟨w, { tunnel with pendingRequests := f tunnel.pendingRequests }, ?_, rfl⟩
  simp [setPendingRequests, Registry.setClient, h]

theorem moves_receiveWebUiRequest {op : Op} {s : Registry} {w : ClientId} {tunnel : WebUiTunnel}
    (h : (s.clients w).tunnel = some tunnel) (ms : List (JsString × Json)) :
    Moves D op s (receiveWebUiRequest D s w tunnel ms) := by
  unfold receiveWebUiRequest
  dsimp only
  split
  · exact (ReflTransGen.single (move_setPendingRequests s w _)).trans
      (moves_send (uses_setPendingRequests h _) (.webUiHttpCancel _ _) nofun)
  · split
    · exact moves_closeWebUiTunnel ..
    · split
      · rename_i id m _ hm
        split
        · exact .refl
        · refine (ReflTransGen.single (move_setPendingRequests s w _)).trans
            (moves_send (uses_setPendingRequests h _) m fun hc => ?_)
          obtain ⟨_, _, _, _, _, rfl⟩ := httpRequest_eq hm
          cases hc
      · exact .refl

theorem moves_receiveWebUi {op : Op} (s : Registry) {w : ClientId} (hop : op.Authenticates w)
    (frame : Option (List (JsString × Json))) (tunnelId : JsString) :
    Moves D op s (receiveWebUi D s w frame tunnelId) := by
  unfold receiveWebUi
  split
  · exact .refl
  · cases frame with
    | none => exact .refl
    | some ms =>
      refine (ReflTransGen.single (move_client s w { s.clients w with alive := true })).trans ?_
      generalize s.setClient w { s.clients w with alive := true } = t
      dsimp only
      split
      · unfold refreshWebUiAuth
        split
        · exact moves_closeClient ..
        · split
          · exact moves_closeClient ..
          · exact (ReflTransGen.single (.client w _ (Or.inr hop) fun _ h => uses_of_tunnel h)).trans
              (moves_sendClient ..)
      · split
        · exact moves_openWebUiTunnel ..
        · rename_i tunnel htunnel
          exact moves_receiveWebUiRequest htunnel ms

theorem moves_webUiClientGone {op : Op} (s : Registry) (w : ClientId) : Moves D op s (webUiClientGone D s w) := by
  unfold webUiClientGone
  split
  · exact .refl
  · exact (ReflTransGen.single (move_client s w _)).trans (moves_closeWebUiTunnel _ w)

/-! ## Calls and timers -/

theorem moves_queryPendingSnapshot {op : Op} (hop : op.snapshotQuery = true) (s : Registry) (r : InstanceRecord)
    (requestId : JsString) : Moves D op s (queryPendingSnapshot D s r requestId) := by
  unfold queryPendingSnapshot
  split
  · exact (ReflTransGen.single (.requests s.pendingRequests _ hop)).tail (.noted _ rfl)
  · rename_i c hc
    obtain ⟨x, hx, hxc⟩ := Option.bind_eq_some_iff.mp hc
    refine (ReflTransGen.single (.requests _ _ hop)).trans (moves_send ?_ (.pendingSnapshotRequest _) nofun)
    exact Or.inl ⟨_, x, hx, hxc⟩

theorem moves_collectPendingInteractions (s : Registry) (u : UserId) (draws : Nat → JsString) :
    Moves D (.collectPendingInteractions u draws) s (collectPendingInteractions D s u draws) := by
  have each : ∀ (l : List (InstanceRecord × Nat)) (t : Registry),
      Moves D (.collectPendingInteractions u draws) t
        (l.foldl (fun s x => queryPendingSnapshot D s x.1 (draws x.2)) t) := by
    intro l
    induction l with
    | nil => exact fun _ => .refl
    | cons x l ih => exact fun t => (moves_queryPendingSnapshot rfl t x.1 (draws x.2)).trans (ih _)
  exact (ReflTransGen.single (.requests s.pendingRequests _ rfl)).trans (each _ _)

theorem reachable_eq_some {s : Registry} {r : InstanceRecord} {c : ConnId} :
    reachable s r = some c ↔ r.connection = some c ∧ r.state = .controllable ∧ (s.conns c).socket.open = true := by
  rw [reachable, Option.filter_eq_some_iff, decide_eq_true_iff]

theorem target_uses {s : Registry} {q : Route} {r : InstanceRecord} {c : ConnId} (h : q.target s = .ok (r, c)) :
    s.Uses c := by
  unfold Route.target commandTarget at h
  split at h
  · cases h
  · rename_i x hx
    split at h
    · cases h
    · rename_i d hd
      split at h
      · cases h
      · split at h
        · cases h
        · split at h
          · cases h
          · obtain ⟨rfl, rfl⟩ := Prod.mk.inj (Except.ok.inj h)
            exact Or.inl ⟨_, _, (Option.filter_eq_some_iff.mp hx).1, (reachable_eq_some.mp hd).1⟩

theorem moves_routeCommand {op : Op} {q : Route} (hq : op.route = some q) (s : Registry) :
    Moves D op s (routeCommand D q.kind s q.user q.instanceId q.requestId q.commandId q.sessionID q.frame).1 := by
  unfold routeCommand
  split
  · exact .refl
  · rename_i r c ht
    have huses : s.Uses c := target_uses (q := q) ht
    refine (ReflTransGen.single (.track q r c hq ht)).trans (moves_send ?_ q.frame fun _ => ⟨q, hq, rfl⟩)
    exact huses

theorem moves_commandTimeout (k : CommandKind) (s : Registry) (c : ConnId) (commandId : JsString) :
    Moves D (k.timeout c commandId) s (commandTimeout k s c commandId) := by
  unfold commandTimeout
  split
  · exact .refl
  · rename_i ha
    split
    · exact .refl
    · rename_i p hp
      exact .single (.finish k c commandId p _ hp (Or.inr ⟨rfl, rfl⟩) (Bool.not_eq_false _ ▸ ha))

theorem moves_log_result {op : Op} {s t : Registry} (h : Moves D op s t) (e : Effect) (he : ∀ c m, e ≠ .sent c m)
    (hq : ∀ u id r, e ≠ .catalog u id r) : Moves D op s (t.log e) :=
  h.tail (.log e he fun u id r hr => absurd hr (hq u id r))

theorem apply_moves (s : Registry) (op : Op) : Moves D op s (apply D s op) := by
  cases op with
  | add c socket =>
    cases ha : (s.conns c).added with
    | false => exact .single (.add c socket ha rfl)
    | true =>
      have h : apply D s (.add c socket) = s := if_pos ha
      rw [h]
  | frame c frame => exact moves_receive s c frame
  | alive c =>
    change Moves D _ s (markAlive s c)
    unfold markAlive
    split
    · exact .refl
    · exact (ReflTransGen.single (.conn c _ rfl rfl rfl (Or.inl rfl))).trans
        (moves_onRecord _ _ _ (fun _ => rfl) (Or.inl fun _ => rfl))
  | heartbeat c =>
    change Moves D _ s (heartbeat D s c)
    unfold heartbeat
    split
    · exact .refl
    · split
      · exact .single (.disconnect c (Or.inr (Or.inr rfl)))
      · split
        · exact (ReflTransGen.single (.disconnect c (Or.inr (Or.inr rfl)))).trans (moves_terminate _ c)
        · exact (ReflTransGen.single (.conn c _ rfl rfl rfl (Or.inl rfl))).tail (.noted _ rfl)
  | close c => exact .single (.disconnect c (Or.inr (Or.inr rfl)))
  | error c => exact .single (.disconnect c (Or.inr (Or.inr rfl)))
  | sendFailed c => exact .single (.disconnect c (Or.inr (Or.inr rfl)))
  | socket c socket => exact .single (.conn c _ rfl rfl rfl (Or.inr (Or.inr rfl)))
  | revokeKey id =>
    refine moves_closeEach _ _ _ (fun c hc => ?_) s
    simpa [Op.Drops] using (List.mem_filter.mp hc).2
  | closeAll =>
    refine moves_closeEach _ _ _ (fun c _ => ?_) s
    exact trivial
  | forgetOffline u instanceId =>
    refine moves_log_result ?_ _ (fun _ _ => by rintro ⟨⟩) (fun _ _ _ => by rintro ⟨⟩)
    unfold forgetOffline
    dsimp only
    split
    · exact .refl
    · rename_i r hr
      split
      · exact .refl
      · rename_i ho
        rw [not_or, not_not] at ho
        exact (ReflTransGen.single (.forget _ r hr ho.1 (by simpa using ho.2))).trans (moves_publish _ u)
  | publishSnapshot u => exact moves_publish s u
  | collectSessions u instanceId query draw =>
    change Moves D _ s (collectSessions D s u instanceId query draw)
    unfold collectSessions
    split
    · exact .single (.log _ (fun _ _ => by rintro ⟨⟩) fun _ _ _ _ => rfl)
    · rename_i c hc
      obtain ⟨r, hr, hrc⟩ := Option.bind_eq_some_iff.mp hc
      have huses : s.Uses c := Or.inl ⟨_, r, hr, (reachable_eq_some.mp hrc).1⟩
      refine (ReflTransGen.single (.catalogs _ rfl)).trans (moves_send ?_ (.sessionCatalogRequest _ _) (by rintro ⟨⟩))
      exact huses
  | collectPendingInteractions u draws => exact moves_collectPendingInteractions s u draws
  | answerQuestion u instanceId requestId commandId sessionID answers =>
    exact moves_log_result (moves_routeCommand (q := ⟨.question, u, instanceId, requestId, commandId, sessionID,
      .questionAnswerCommand commandId requestId sessionID answers⟩) rfl s) _ (fun _ _ => by rintro ⟨⟩)
        (fun _ _ _ => by rintro ⟨⟩)
  | decidePermission u instanceId requestId commandId sessionID decision =>
    exact moves_log_result (moves_routeCommand (q := ⟨.permission, u, instanceId, requestId, commandId, sessionID,
      .permissionDecideCommand commandId requestId sessionID decision⟩) rfl s) _ (fun _ _ => by rintro ⟨⟩)
        (fun _ _ _ => by rintro ⟨⟩)
  | sendSessionPrompt u instanceId sessionID commandId text =>
    refine moves_log_result ?_ _ (fun _ _ => by rintro ⟨⟩) (fun _ _ _ => by rintro ⟨⟩)
    unfold sendSessionPrompt
    split
    · exact .refl
    · rename_i c hc
      obtain ⟨r, hr, hrc⟩ := Option.bind_eq_some_iff.mp hc
      have huses : s.Uses c := Or.inl ⟨_, r, (Option.filter_eq_some_iff.mp hr).1, (reachable_eq_some.mp hrc).1⟩
      split
      · exact .refl
      · refine (ReflTransGen.single (.prompts _)).trans (moves_send ?_ (.sessionPromptCommand ..) (by rintro ⟨⟩))
        exact huses
  | outcomeFor u commandId => exact (ReflTransGen.single .prune).tail (.noted _ rfl)
  | catalogTimeout c requestId =>
    change Moves D _ s (catalogTimeout s c requestId)
    unfold catalogTimeout
    split
    · exact .refl
    · exact (ReflTransGen.single (.catalogs _ rfl)).tail (.log _ (fun _ _ => by rintro ⟨⟩) fun _ _ _ _ => rfl)
  | snapshotTimeout c requestId =>
    change Moves D _ s (snapshotTimeout s c requestId)
    unfold snapshotTimeout
    split
    · exact .single (.requests _ _ rfl)
    · exact .refl
  | answerTimeout c commandId => exact moves_commandTimeout .question s c commandId
  | decideTimeout c commandId => exact moves_commandTimeout .permission s c commandId
  | promptTimeout c commandId =>
    change Moves D _ s (promptTimeout s c commandId)
    unfold promptTimeout
    split
    · exact .refl
    · exact .single (.prompts _)
  | addWebUiClient w socket expiresAtMs =>
    change Moves D _ s (addWebUiClient s w socket expiresAtMs)
    unfold addWebUiClient
    split
    · exact .refl
    · exact .single (.client w _ (Or.inr (Or.inl ⟨socket, expiresAtMs, rfl⟩)) (by rintro _ ⟨⟩))
  | clientFrame w frame draw => exact moves_receiveWebUi s (Or.inr ⟨frame, draw, rfl⟩) frame draw
  | clientAlive w => exact .single (move_client s w _)
  | clientHeartbeat w =>
    change Moves D _ s (webUiHeartbeat s w)
    unfold webUiHeartbeat
    split
    · exact .refl
    · split
      · exact moves_terminateClient s w
      · exact (ReflTransGen.single (move_client s w _)).tail (.noted _ rfl)
  | clientExpired w =>
    change Moves D _ s (webUiExpired s w)
    unfold webUiExpired
    split
    · exact (ReflTransGen.single (move_client s w _)).trans (moves_closeClient _ w _ _)
    · exact .refl
  | clientClose w => exact moves_webUiClientGone s w
  | clientError w => exact moves_webUiClientGone s w
  | clientSocket w socket => exact .single (move_client s w _)

/-- A step is a chain of moves. -/
theorem step_moves (s : Registry) (e : Event) : Moves D e.op s (step D s e) :=
  ((ReflTransGen.single (.tick e.now)).trans (apply_moves _ e.op)).tail .settle

/-! ## Invariants -/

theorem Moves.inv {P : Registry → Prop} {op : Op} (hmove : ∀ s t, Move D op s t → P s → P t) {s t : Registry}
    (h : Moves D op s t) (hs : P s) : P t := by
  induction h with
  | refl => exact hs
  | tail _ m ih => exact hmove _ _ m ih

/-- What every move keeps holds in every reachable state. -/
theorem run_inv {P : Registry → Prop} (hinit : P .init) (hmove : ∀ op s t, Move D op s t → P s → P t)
    (es : List Event) : P (run D es) :=
  runFrom_inv (fun s e hs => (step_moves s e).inv (hmove e.op) hs) hinit es

end NotifyHub.Control
