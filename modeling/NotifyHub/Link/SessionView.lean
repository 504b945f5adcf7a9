/-
  NotifyHub.Link.SessionView — what the client shows of a session, from the callbacks of its
  `SessionMachine` over the envelope, the pump and the router: is it what the callbacks say
  in the order they were made?

  The queue delivers by priority, so a heartbeat may come after the terminal that followed
  it, and a resolution after the request was asked anew. Where neither happened to the last
  of them (`NoHeartbeatOvertaken`, `NoResolutionOvertaken`) the client ends as the callbacks
  say (`view_follows`). The pending set holds the ids of provider actions, too.
-/

import NotifyHub.Client.ActiveSessions
import NotifyHub.Lib.Base64
import NotifyHub.Plugin.Delivery
import NotifyHub.Plugin.Envelope

namespace NotifyHub.Link

open Client (ActiveSessions NotificationRouter)
open Client.ActiveSessions (runningWrite pendingWrite)
open Plugin

/-! ## The event as the client reads it -/

/-- `_pathBasename`, over the package `path`. -/
structure ViewPlatform where
  pathBasename : JsString → JsString

/-- `_internalProjectId`, which ignores the case. -/
def internalProjectId (project : JsString) : Bool :=
  (32 ≤ project.length && project.length ≤ 64 && project.all isHex) ||
    ((project.take 4).map (fun c => if 65 ≤ c && c ≤ 90 then c + 32 else c) == js "prj_" &&
      4 < project.length && (project.drop 4).all Base64.isUrlSafe)

/-- `trim().isEmpty`; the next line, U+0085, is white space here. -/
def isBlank (s : JsString) : Bool := s.all fun c => isSpace c || c == 0x85

def viewType : Contracts.EventPayload → Client.NotifyEventType
  | .heartbeat .. => .heartbeat
  | .actionRequired .. => .actionRequired
  | .actionResolved .. => .actionResolved
  | .terminal .. => .terminal

def viewRequestId : Contracts.EventPayload → Option JsString
  | .actionRequired requestId _ | .actionResolved requestId _ => some requestId
  | .heartbeat .. | .terminal .. => none

/-- `NotifyEvent.parse`, of an event inside the contract. -/
def parse (V : ViewPlatform) (e : Contracts.NotifyEvent) : Client.NotifyEvent where
  eventId := e.eventId
  occurredAt := e.occurredAt
  machine := e.source.machine
  project := if internalProjectId e.source.project then V.pathBasename e.source.directory else e.source.project
  directory := e.source.directory
  sessionId := e.session.id
  sessionTitle :=
    if isBlank e.session.title || e.session.title == e.session.id then js "未命名会话" else e.session.title
  type := viewType e.payload
  requestId := viewRequestId e.payload

/-- The type of an event, as `notifyEventPriority` reads it. -/
def queueType (e : Contracts.NotifyEvent) : NotifyEventType :=
  match e.payload with
  | .heartbeat .. => .heartbeat
  | .actionRequired .. => .action_required
  | .actionResolved .. => .action_resolved
  | .terminal .. => .terminal

/-! ## What the callbacks say -/

/-- The callbacks of the machine for a session, in order. -/
def emitted (m : Machine) (sid : JsString) : List Effect := (newEffects .init m).filter (·.sessionID = sid)

/-- The last of the heartbeats, requests and terminals is not a terminal. -/
def LastLive (effects : List Effect) : Prop :=
  ∃ before e after, effects = before ++ e :: after ∧
    ((∃ s status ms, e = .heartbeat s status ms) ∨ ∃ s id details, e = .actionRequired s id details) ∧
    ∀ x ∈ after, ∃ s id kind, x = .actionResolved s id kind

/-- A request of a kind that counts was made, and after it neither resolved nor ended by a terminal. -/
def Outstanding (counts : ActionDetails → Bool) (effects : List Effect) (requestId : JsString) : Prop :=
  ∃ before s details after, effects = before ++ .actionRequired s requestId details :: after ∧ counts details = true ∧
    ∀ x ∈ after, (∀ s kind, x ≠ .actionResolved s requestId kind) ∧ ∀ s outcome ms, x ≠ .terminal s outcome ms

def isProviderAction : ActionDetails → Bool
  | .providerAction .. => true
  | _ => false

variable (P : EnvelopePlatform) (o : EnvelopeFactoryOptions) (V : ViewPlatform)

/-- The event is what the factory makes of the effect. -/
def Carries (effect : Effect) (event : Contracts.NotifyEvent) : Prop :=
  ∃ (stamp : Stamp P) (title summary : Option JsString), build P o stamp ⟨effect, title, summary⟩ = some event

/-- What the callbacks for a session made was taken in by the pump in their order and handed over, among
    the events of other sessions; the ids of the events are their own. -/
structure Delivered (effects : List Effect) (sid : JsString) (s : Pump Contracts.NotifyEvent) : Prop where
  carried : List.Forall₂ (Carries P o) effects (s.log.accepted.filter (·.session.id = sid))
  lossless : Pump.Lossless s.log
  drained : s.log.queue.entries = []
  ids : (s.log.accepted.map (·.eventId)).Nodup

/-- If the last of the session's heartbeats, requests and terminals is a terminal, no heartbeat of it waited
    when the terminal came in. -/
def NoHeartbeatOvertaken (sid : JsString) (q : BoundedQueue Contracts.NotifyEvent)
    (es : List (PumpEvent Contracts.NotifyEvent)) : Prop :=
  ∀ before event after later, es = before ++ .enqueue event :: after →
    (Pump.run q es).log.accepted = (Pump.run q before).log.accepted ++ event :: later →
    event.session.id = sid → queueType event = .terminal →
    (∀ x ∈ later, x.session.id = sid → queueType x = .action_resolved) →
      ∀ e ∈ (Pump.run q before).log.queue.entries, ¬ (e.item.session.id = sid ∧ queueType e.item = .heartbeat)

/-- If the last the session says of the request is that it is required, no resolution of it waited when that
    came in. -/
def NoResolutionOvertaken (sid requestId : JsString) (q : BoundedQueue Contracts.NotifyEvent)
    (es : List (PumpEvent Contracts.NotifyEvent)) : Prop :=
  ∀ before event after later, es = before ++ .enqueue event :: after →
    (Pump.run q es).log.accepted = (Pump.run q before).log.accepted ++ event :: later →
    event.session.id = sid → queueType event = .action_required → viewRequestId event.payload = some requestId →
    (∀ x ∈ later, x.session.id = sid → queueType x ≠ .terminal ∧ viewRequestId x.payload ≠ some requestId) →
      ∀ e ∈ (Pump.run q before).log.queue.entries,
        ¬ (e.item.session.id = sid ∧ queueType e.item = .action_resolved ∧
          viewRequestId e.item.payload = some requestId)

/-! ## Registers -/

def runningEffect : Effect → Option Bool
  | .heartbeat .. | .actionRequired .. => some true
  | .terminal .. => some false
  | .actionResolved .. => none

def pendingEffect (requestId : JsString) : Effect → Option Bool
  | .actionRequired _ id _ => if id = requestId then some true else none
  | .actionResolved _ id _ => if id = requestId then some false else none
  | .terminal .. => some false
  | .heartbeat .. => none

theorem lastLive_iff {effects : List Effect} : LastLive effects ↔ lastWrite runningEffect effects = some true := by
  rw [lastWrite_eq_some]
  constructor
  · rintro ⟨before, e, after, rfl, he, hafter⟩
    refine ⟨before, e, after, rfl, ?_, fun x hx => ?_⟩
    · rcases he with ⟨s, status, ms, rfl⟩ | ⟨s, id, details, rfl⟩ <;> rfl
    · obtain ⟨s, id, kind, rfl⟩ := hafter x hx
      rfl
  · rintro ⟨before, e, after, rfl, he, hafter⟩
    refine ⟨before, e, after, rfl, ?_, fun x hx => ?_⟩
    · cases e with
      | heartbeat s status ms => exact Or.inl ⟨s, status, ms, rfl⟩
      | actionRequired s id details => exact Or.inr ⟨s, id, details, rfl⟩
      | terminal s outcome ms => cases he
      | actionResolved s id kind => cases he
    · have hnone := hafter x hx
      cases x with
      | actionResolved s id kind => exact ⟨s, id, kind, rfl⟩
      | _ => cases hnone

theorem outstanding_iff {effects : List Effect} {requestId : JsString} :
    Outstanding (fun _ => true) effects requestId ↔ lastWrite (pendingEffect requestId) effects = some true := by
  constructor
  · rintro ⟨before, s, details, after, rfl, -, hafter⟩
    have hrequired : pendingEffect requestId (.actionRequired s requestId details) = some true := if_pos rfl
    refine lastWrite_settled hrequired (fun x hx => ?_) before
    obtain ⟨hresolved, hterminal⟩ := hafter x hx
    cases x with
    | heartbeat => exact Or.inl rfl
    | terminal s outcome ms => exact absurd rfl (hterminal s outcome ms)
    | actionRequired s id details =>
      by_cases hid : id = requestId
      · exact Or.inr (if_pos hid)
      · exact Or.inl (if_neg hid)
    | actionResolved s id kind =>
      by_cases hid : id = requestId
      · exact absurd (hid ▸ rfl) (hresolved s kind)
      · exact Or.inl (if_neg hid)
  · rw [lastWrite_eq_some]
    rintro ⟨before, e, after, rfl, he, hafter⟩
    cases e with
    | actionRequired s id details =>
      by_cases hid : id = requestId
      · subst hid
        refine ⟨before, s, details, after, rfl, rfl, fun x hx => ⟨fun s' kind hxe => ?_, fun s' outcome ms hxe => ?_⟩⟩
        · have hnone := hafter x hx
          rw [hxe, pendingEffect, if_pos rfl] at hnone
          cases hnone
        · have hnone := hafter x hx
          rw [hxe] at hnone
          cases hnone
      · rw [pendingEffect, if_neg hid] at he
        cases he
    | actionResolved s id kind =>
      rw [pendingEffect] at he
      split at he <;> cases he
    | terminal => cases he
    | heartbeat => cases he

/-- An event tells of its effect: the session, and what both registers read. -/
structure Tells (effect : Effect) (event : Contracts.NotifyEvent) : Prop where
  session : event.session.id = effect.sessionID
  running : runningWrite event.session.id (parse V event) = runningEffect effect
  pending : ∀ requestId, pendingWrite event.session.id requestId (parse V event) = pendingEffect requestId effect

variable {P o V}

theorem finalize_eq {e e' : Contracts.NotifyEvent} (h : finalize (P := P) e = some e') : e' = e := by
  unfold finalize at h
  split at h
  · exact (Option.some.inj h).symm
  · cases h

theorem tells_of_payload {effect : Effect} {event : Contracts.NotifyEvent} (hs : event.session.id = effect.sessionID)
    (hr : (match viewType event.payload with
      | .heartbeat | .actionRequired => some true | .terminal => some false | .actionResolved => none) =
          runningEffect effect)
    (hp : ∀ requestId, (match viewType event.payload with
      | .actionRequired => if viewRequestId event.payload = some requestId then some true else none
      | .actionResolved => if viewRequestId event.payload = some requestId then some false else none
      | .terminal => some false
      | .heartbeat => none) = pendingEffect requestId effect) : Tells V effect event := by
  refine ⟨hs, ?_, fun requestId => ?_⟩
  · rw [← hr, runningWrite, if_pos (show (parse V event).sessionId = event.session.id from rfl)]
    rfl
  · rw [← hp, pendingWrite, if_pos (show (parse V event).sessionId = event.session.id from rfl)]
    rfl

theorem Carries.tells {effect : Effect} {event : Contracts.NotifyEvent} (h : Carries P o effect event) :
    Tells V effect event := by
  obtain ⟨stamp, title, summary, hb⟩ := h
  have hsection := sessionSection_id effect.sessionID title
  unfold build at hb
  cases effect with
  | heartbeat s status ms =>
    dsimp only at hb
    unfold heartbeat at hb
    split at hb
    · cases finalize_eq hb; exact tells_of_payload hsection rfl fun _ => rfl
    · cases finalize_eq hb; exact tells_of_payload hsection rfl fun _ => rfl
    · cases hb
  | terminal s outcome ms =>
    cases finalize_eq hb
    exact tells_of_payload hsection rfl fun _ => rfl
  | actionRequired s id details =>
    dsimp only at hb
    unfold actionRequired at hb
    have hpending : ∀ requestId : JsString, (if some id = some requestId then some true else none) =
        pendingEffect requestId (.actionRequired s id details) := fun requestId => by simp [pendingEffect]
    cases details with
    | question questions =>
      dsimp only at hb
      split at hb
      · cases hb
      · cases finalize_eq hb; exact tells_of_payload hsection rfl hpending
    | permission permission summary =>
      dsimp only at hb
      split at hb
      · cases hb
      · cases finalize_eq hb; exact tells_of_payload hsection rfl hpending
    | providerAction provider title message label link =>
      cases finalize_eq hb; exact tells_of_payload hsection rfl hpending
  | actionResolved s id kind =>
    dsimp only at hb
    unfold actionResolved at hb
    have hpending : ∀ requestId : JsString, (if some id = some requestId then some false else none) =
        pendingEffect requestId (.actionResolved s id kind) := fun requestId => by simp [pendingEffect]
    split at hb
    · cases finalize_eq hb; exact tells_of_payload hsection rfl hpending
    · cases finalize_eq hb; exact tells_of_payload hsection rfl hpending
    · cases hb

/-- What an event writes, by its type. -/
theorem runningWrite_parse (sid : JsString) (e : Contracts.NotifyEvent) :
    runningWrite sid (parse V e) = if e.session.id = sid then
      match queueType e with
      | .heartbeat | .action_required => some true
      | .terminal => some false
      | .action_resolved => none
    else none := by
  unfold runningWrite parse viewType queueType
  cases e.payload <;> rfl

theorem pendingWrite_parse (sid requestId : JsString) (e : Contracts.NotifyEvent) :
    pendingWrite sid requestId (parse V e) = if e.session.id = sid then
      match queueType e with
      | .action_required => if viewRequestId e.payload = some requestId then some true else none
      | .action_resolved => if viewRequestId e.payload = some requestId then some false else none
      | .terminal => some false
      | .heartbeat => none
    else none := by
  unfold pendingWrite parse viewType queueType
  cases e.payload <;> rfl

theorem heartbeat_requestId {e : Contracts.NotifyEvent} (h : queueType e = .heartbeat) :
    viewRequestId e.payload = none := by
  unfold queueType at h
  cases hp : e.payload with
  | heartbeat => rfl
  | _ => rw [hp] at h; cases h

section

variable {q : BoundedQueue Contracts.NotifyEvent} {es : List (PumpEvent Contracts.NotifyEvent)} {sid : JsString}

/-- Of what may wait below a newcomer, only a heartbeat below a terminal writes `running` otherwise. -/
theorem unhindered_running (hq : q.priorityOf = fun e => notifyEventPriority (queueType e))
    (h : NoHeartbeatOvertaken sid q es) : Pump.LastUnhindered (fun e => runningWrite sid (parse V e)) q es := by
  intro before event after later hsplit hlater hnone b hb e he hlt
  have hbelow := Pump.waits_below q before he hlt
  have hfree := h before event after later hsplit hlater
  simp only [runningWrite_parse] at hb hnone ⊢
  rw [hq] at hbelow
  by_cases hs : event.session.id = sid
  · by_cases hse : e.item.session.id = sid
    · rw [if_pos hs] at hb
      rw [if_pos hse]
      cases hqe : queueType e.item with
      | action_resolved => exact Or.inl rfl
      | terminal => simp only [hqe] at hbelow; exact absurd hbelow (not_lt_of_ge (Fin.le_last _))
      | action_required => simp only [hqe] at hbelow; exact absurd hbelow (not_lt_of_ge (Fin.le_last _))
      | heartbeat =>
        cases hqv : queueType event with
        | heartbeat => rw [hqv] at hb; exact Or.inr hb
        | action_required => rw [hqv] at hb; exact Or.inr hb
        | action_resolved => rw [hqv] at hb; cases hb
        | terminal =>
          refine absurd ⟨hse, hqe⟩ (hfree hs hqv (fun x hx hxs => ?_) e he)
          have hsilent := hnone x hx
          rw [if_pos hxs] at hsilent
          cases hqx : queueType x with
          | action_resolved => rfl
          | _ => rw [hqx] at hsilent; cases hsilent
    · exact Or.inl (if_neg hse)
  · rw [if_neg hs] at hb
    cases hb

/-- Of what may wait below a newcomer, only a resolution below its request writes otherwise. -/
theorem unhindered_pending (hq : q.priorityOf = fun e => notifyEventPriority (queueType e)) {requestId : JsString}
    (h : NoResolutionOvertaken sid requestId q es) :
    Pump.LastUnhindered (fun e => pendingWrite sid requestId (parse V e)) q es := by
  intro before event after later hsplit hlater hnone b hb e he hlt
  have hbelow := Pump.waits_below q before he hlt
  have hfree := h before event after later hsplit hlater
  simp only [pendingWrite_parse] at hb hnone ⊢
  rw [hq] at hbelow
  by_cases hs : event.session.id = sid
  · by_cases hse : e.item.session.id = sid
    · rw [if_pos hs] at hb
      rw [if_pos hse]
      cases hqe : queueType e.item with
      | heartbeat => exact Or.inl rfl
      | terminal => simp only [hqe] at hbelow; exact absurd hbelow (not_lt_of_ge (Fin.le_last _))
      | action_required => simp only [hqe] at hbelow; exact absurd hbelow (not_lt_of_ge (Fin.le_last _))
      | action_resolved =>
        by_cases hid : viewRequestId e.item.payload = some requestId
        · simp only [if_pos hid]
          cases hqv : queueType event with
          | heartbeat => rw [hqv] at hb; cases hb
          | terminal => rw [hqv] at hb; exact Or.inr hb
          | action_resolved => simp only [hqe, hqv] at hbelow; exact absurd hbelow (lt_irrefl _)
          | action_required =>
            simp only [hqv] at hb
            by_cases hidv : viewRequestId event.payload = some requestId
            · refine absurd ⟨hse, hqe, hid⟩ (hfree hs hqv hidv (fun x hx hxs => ?_) e he)
              have hsilent := hnone x hx
              rw [if_pos hxs] at hsilent
              cases hqx : queueType x with
              | terminal => rw [hqx] at hsilent; cases hsilent
              | heartbeat =>
                exact ⟨nofun, fun hx => by rw [heartbeat_requestId hqx] at hx; cases hx⟩
              | action_required =>
                simp only [hqx] at hsilent
                exact ⟨nofun, fun hx => by rw [if_pos hx] at hsilent; cases hsilent⟩
              | action_resolved =>
                simp only [hqx] at hsilent
                exact ⟨nofun, fun hx => by rw [if_pos hx] at hsilent; cases hsilent⟩
            · rw [if_neg hidv] at hb; cases hb
        · exact Or.inl (if_neg hid)
    · exact Or.inl (if_neg hse)
  · rw [if_neg hs] at hb
    cases hb

variable {effects : List Effect}

/-- What was handed over, once nothing waits. -/
theorem Delivered.sent (h : Delivered P o effects sid (Pump.run q es)) (hempty : q.entries = []) :
    Pump.delivery (Pump.run q es).log = (Pump.run q es).sent := by
  have hnone : (Pump.run q es).log.queue.waiting = [] := by
    simp [BoundedQueue.waiting, BoundedQueue.atPriority, h.drained]
  rw [Pump.delivery, hnone, List.append_nil, (Pump.kept_run q hempty es).1.handed]

theorem Delivered.nodup (h : Delivered P o effects sid (Pump.run q es)) {capacity : Nat}
    (hnew : BoundedQueue.new (fun e => notifyEventPriority (queueType e)) capacity = some q) :
    (((Pump.run q es).sent.map (parse V)).map (·.eventId)).Nodup := by
  have hall := (pump_delivers queueType capacity q hnew es).accounted
  rw [h.lossless.2, BoundedQueue.items, h.drained] at hall
  have hperm : (Pump.run q es).log.accepted.Perm (Pump.run q es).sent := by simpa using hall
  have hids : ((Pump.run q es).sent.map (·.eventId)).Nodup := (hperm.map _).nodup_iff.mp h.ids
  rw [List.map_map]
  exact hids

/-- A register the events write as the effects do ends as the effects say. -/
theorem Delivered.lastWrite (h : Delivered P o effects sid (Pump.run q es)) {w : Client.NotifyEvent → Option Bool}
    {u : Effect → Option Bool} (hother : ∀ e : Contracts.NotifyEvent, e.session.id ≠ sid → w (parse V e) = none)
    (hown : ∀ effect event, event.session.id = sid → Tells V effect event → w (parse V event) = u effect) :
    lastWrite (fun e => w (parse V e)) (Pump.run q es).log.accepted = lastWrite u effects := by
  rw [← lastWrite_filter (p := fun e => decide (e.session.id = sid)) (fun e he => hother e (by simpa using he))]
  have hmem : List.Forall₂ (fun effect event => Carries P o effect event ∧ event.session.id = sid) effects
      ((Pump.run q es).log.accepted.filter (·.session.id = sid)) := by
    have hall : ∀ e ∈ (Pump.run q es).log.accepted.filter (·.session.id = sid), e.session.id = sid := by simp
    have hcarried := h.carried
    clear h
    generalize (Pump.run q es).log.accepted.filter (·.session.id = sid) = events at hall hcarried
    induction hcarried with
    | nil => exact .nil
    | cons hab _ ih =>
      rw [List.forall_mem_cons] at hall
      exact .cons ⟨hab, hall.1⟩ (ih hall.2)
  exact lastWrite_forall hmem fun effect event hc => hown effect event hc.2 hc.1.tells

end

/-- The client ends as the callbacks say: running, unless the last of the session's heartbeats, requests and
    terminals is a terminal, and with the requests of any kind that are neither resolved nor ended. -/
theorem view_follows {capacity : Nat} {q : BoundedQueue Contracts.NotifyEvent}
    (hnew : BoundedQueue.new (fun e => notifyEventPriority (queueType e)) capacity = some q) (O : MachineOptions)
    (ms : List MachineEvent) (sid : JsString) (es : List (PumpEvent Contracts.NotifyEvent))
    (h : Delivered P o (emitted (Machine.run O ms) sid) sid (Pump.run q es)) (r : NotificationRouter)
    (hr : r.Unseen ((Pump.run q es).sent.map (parse V))) (hfresh : r.sessions.get sid = none) :
    (NoHeartbeatOvertaken sid q es →
      ((r.handleAll ((Pump.run q es).sent.map (parse V))).sessions.isRunning sid = true ↔
        LastLive (emitted (Machine.run O ms) sid))) ∧
    ∀ requestId, NoResolutionOvertaken sid requestId q es →
      ((r.handleAll ((Pump.run q es).sent.map (parse V))).sessions.isPending sid requestId = true ↔
        Outstanding (fun _ => true) (emitted (Machine.run O ms) sid) requestId) := by
  obtain ⟨hempty, hprio⟩ : q.entries = [] ∧ q.priorityOf = fun e => notifyEventPriority (queueType e) := by
    unfold BoundedQueue.new at hnew
    split at hnew
    · cases hnew
      exact ⟨rfl, rfl⟩
    · cases hnew
  have hnodup := h.nodup (V := V) hnew
  constructor
  · intro hbeat
    have hdelivers := Pump.delivers_last_write q hempty es h.lossless (unhindered_running (V := V) hprio hbeat)
    rw [h.sent hempty, h.lastWrite (w := runningWrite sid) (u := runningEffect) (fun _ he => if_neg he)
      fun effect event hs ht => hs ▸ ht.running] at hdelivers
    rw [NotificationRouter.handled_running r _ hr hnodup, lastWrite_map, hdelivers, lastLive_iff]
    have hnone : r.sessions.isRunning sid = false := by simp [ActiveSessions.isRunning, hfresh]
    rw [hnone]
    cases lastWrite runningEffect (emitted (Machine.run O ms) sid) <;> simp
  · intro requestId hask
    have hdelivers := Pump.delivers_last_write q hempty es h.lossless (unhindered_pending (V := V) hprio hask)
    rw [h.sent hempty, h.lastWrite (w := pendingWrite sid requestId) (u := pendingEffect requestId)
      (fun _ he => if_neg he) fun effect event hs ht => hs ▸ ht.pending requestId] at hdelivers
    rw [NotificationRouter.handled_pending r _ hr hnodup, lastWrite_map, hdelivers, outstanding_iff]
    have hnone : r.sessions.isPending sid requestId = false := by simp [ActiveSessions.isPending, hfresh]
    rw [hnone]
    cases lastWrite (pendingEffect requestId) (emitted (Machine.run O ms) sid) <;> simp

/-- The event that the step takes in. -/
def takenIn (es : List (PumpEvent Contracts.NotifyEvent)) (i : Nat) : Option Contracts.NotifyEvent :=
  match es[i]? with
  | some (.enqueue event) => some event
  | _ => none

theorem takenIn_split (before after : List (PumpEvent Contracts.NotifyEvent)) (event : Contracts.NotifyEvent) :
    takenIn (before ++ .enqueue event :: after) before.length = some event := by
  simp [takenIn]

/-- No heartbeat of the session waits where a terminal of it comes in. -/
theorem noHeartbeatOvertaken_of {q : BoundedQueue Contracts.NotifyEvent} {es : List (PumpEvent Contracts.NotifyEvent)}
    {sid : JsString} (h : ∀ i < es.length, ∀ event ∈ takenIn es i,
      event.session.id = sid ∧ queueType event = .terminal →
        ∀ e ∈ (Pump.run q (es.take i)).log.queue.entries, ¬ (e.item.session.id = sid ∧ queueType e.item = .heartbeat)) :
    NoHeartbeatOvertaken sid q es := by
  intro before event after later hsplit _ hs ht _
  have hlt : before.length < es.length := by rw [hsplit]; simp
  have hbefore := h before.length hlt event (by rw [hsplit]; exact takenIn_split _ _ _) ⟨hs, ht⟩
  rwa [hsplit, List.take_left] at hbefore

/-- No resolution of the request waits where it is required. -/
theorem noResolutionOvertaken_of {q : BoundedQueue Contracts.NotifyEvent} {es : List (PumpEvent Contracts.NotifyEvent)}
    {sid requestId : JsString} (h : ∀ i < es.length, ∀ event ∈ takenIn es i,
      event.session.id = sid ∧ queueType event = .action_required ∧ viewRequestId event.payload = some requestId →
        ∀ e ∈ (Pump.run q (es.take i)).log.queue.entries,
          ¬ (e.item.session.id = sid ∧ queueType e.item = .action_resolved ∧
            viewRequestId e.item.payload = some requestId)) :
    NoResolutionOvertaken sid requestId q es := by
  intro before event after later hsplit _ hs ht hid _
  have hlt : before.length < es.length := by rw [hsplit]; simp
  have hbefore := h before.length hlt event (by rw [hsplit]; exact takenIn_split _ _ _) ⟨hs, ht, hid⟩
  rwa [hsplit, List.take_left] at hbefore

/-! ## Sessions whose events overtake one another -/

namespace SessionView

def sampleMachine : MachineOptions := ⟨1000, 60000, true, fun _ => js "d"⟩

def sampleView : ViewPlatform := ⟨fun directory => directory⟩

def sampleRouter : NotificationRouter := ⟨.empty, [], 500, [], 10000⟩

def plainPlatform : EnvelopePlatform := ⟨fun _ => false, fun _ => true⟩

def factory : EnvelopeFactoryOptions := ⟨⟨js "laptop", js "app", js "/work"⟩, true⟩

def stampOf (i : Fin 10) : Stamp plainPlatform where
  eventId := js "00000000-0000-4000-8000-00000000000" ++ decimal i
  occurredAt := js "2026-01-01T00:00:00Z"
  isUuid := by
    revert i
    decide
  isDateTime := rfl

def sid : JsString := js "ses_1"

def otherSid : JsString := js "ses_2"

def eventIn (s : JsString) (i : Fin 10) (payload : Contracts.EventPayload) : Contracts.NotifyEvent :=
  ⟨(stampOf i).eventId, (stampOf i).occurredAt, factory.source, ⟨s, js "未命名会话"⟩, payload⟩

def eventOf (i : Fin 10) (payload : Contracts.EventPayload) : Contracts.NotifyEvent := eventIn sid i payload

theorem sampleQueue_pos : 0 < 100 := by decide

def sampleQueue : BoundedQueue Contracts.NotifyEvent :=
  ⟨fun e => notifyEventPriority (queueType e), 100, [], 0, sampleQueue_pos, Nat.zero_le _, List.Pairwise.nil, nofun⟩

/-- The first event is in flight while the others come in. -/
def schedule (events : List Contracts.NotifyEvent) : List (PumpEvent Contracts.NotifyEvent) :=
  events.map .enqueue ++ events.map (fun _ => .settled 0 true) ++ [.react 0]

/-- What the client shows at the end. -/
def shown (events : List Contracts.NotifyEvent) : ActiveSessions :=
  (sampleRouter.handleAll ((Pump.run sampleQueue (schedule events)).sent.map (parse sampleView))).sessions

/-- The provider asks the user to act. -/
def paused : List MachineEvent :=
  [⟨0, 0, .signal sid (.retry (some ⟨none, js "acme", js "Quota", js "Upgrade to go on", js "Upgrade", none⟩))⟩]

def pausedEvents : List Contracts.NotifyEvent :=
  [eventOf 0 (.actionRequired (js "provider:d")
    (.providerAction ⟨js "acme", js "Quota", js "Upgrade to go on", js "Upgrade", none⟩))]

/-- A permission is asked for, a heartbeat comes, and the run fails. -/
def failed : List MachineEvent :=
  [⟨0, 0, .signal sid .busy⟩, ⟨1, 1, .signal sid (.permissionAsked (js "p") (js "bash") (js "ls"))⟩,
    ⟨60000, 60000, .fire 0⟩, ⟨60001, 60001, .signal sid .failed⟩]

def failedEvents : List Contracts.NotifyEvent :=
  [eventOf 0 (.actionRequired (js "p") (.permission (js "bash") (js "ls"))), eventOf 1 (.heartbeat .busy 60),
    eventOf 2 (.terminal .failed 60 none)]

/-- A permission is asked for, given, and asked for again. -/
def reasked : List MachineEvent :=
  [⟨0, 0, .signal sid (.permissionAsked (js "p") (js "bash") (js "ls"))⟩,
    ⟨1, 1, .signal sid (.permissionResolved (js "p"))⟩,
    ⟨2, 2, .signal sid (.permissionAsked (js "p") (js "bash") (js "ls"))⟩]

def reaskedEvents : List Contracts.NotifyEvent :=
  [eventOf 0 (.actionRequired (js "p") (.permission (js "bash") (js "ls"))),
    eventOf 1 (.actionResolved (js "p") .permission),
    eventOf 2 (.actionRequired (js "p") (.permission (js "bash") (js "ls")))]

/-- A permission is asked for and given, another session's heartbeat comes, and the run fails. -/
def ended : List MachineEvent :=
  [⟨0, 0, .signal otherSid .busy⟩, ⟨500, 500, .signal sid .busy⟩,
    ⟨1000, 1000, .signal sid (.permissionAsked (js "p") (js "bash") (js "ls"))⟩,
    ⟨2000, 2000, .signal sid (.permissionResolved (js "p"))⟩, ⟨60000, 60000, .fire 0⟩,
    ⟨60001, 60001, .signal sid .failed⟩]

/-- The terminal overtakes the resolution and the other session's heartbeat. -/
def endedEvents : List Contracts.NotifyEvent :=
  [eventOf 0 (.actionRequired (js "p") (.permission (js "bash") (js "ls"))),
    eventOf 1 (.actionResolved (js "p") .permission),
    eventIn otherSid 2 (.heartbeat .busy 60), eventOf 3 (.terminal .failed 59 none)]

/-- A permission is asked for, a heartbeat comes, the permission is given, and another is asked for. -/
def askedOther : List MachineEvent :=
  [⟨0, 0, .signal sid .busy⟩, ⟨1, 1, .signal sid (.permissionAsked (js "p") (js "bash") (js "ls"))⟩,
    ⟨60000, 60000, .fire 0⟩,
    ⟨60001, 60001, .signal sid (.permissionResolved (js "p"))⟩,
    ⟨60002, 60002, .signal sid (.permissionAsked (js "r") (js "edit") (js "a.txt"))⟩]

/-- The second request overtakes the heartbeat and the resolution of the first, and the resolution the heartbeat. -/
def askedOtherEvents : List Contracts.NotifyEvent :=
  [eventOf 0 (.actionRequired (js "p") (.permission (js "bash") (js "ls"))), eventOf 1 (.heartbeat .busy 60),
    eventOf 2 (.actionResolved (js "p") .permission),
    eventOf 3 (.actionRequired (js "r") (.permission (js "edit") (js "a.txt")))]

theorem delivered_paused : Delivered plainPlatform factory (emitted (Machine.run sampleMachine paused) sid) sid
    (Pump.run sampleQueue (schedule pausedEvents)) where
  carried := by
    rw [show emitted (Machine.run sampleMachine paused) sid = [.actionRequired sid (js "provider:d")
        (.providerAction (js "acme") (js "Quota") (js "Upgrade to go on") (js "Upgrade") none)] by decide +kernel,
      show (Pump.run sampleQueue (schedule pausedEvents)).log.accepted.filter (·.session.id = sid) = pausedEvents by
        decide +kernel]
    exact .cons ⟨stampOf 0, none, none, by decide +kernel⟩ .nil
  lossless := ⟨by decide +kernel, by decide +kernel⟩
  drained := List.length_eq_zero_iff.mp (by decide +kernel)
  ids := by decide +kernel

theorem delivered_failed : Delivered plainPlatform factory (emitted (Machine.run sampleMachine failed) sid) sid
    (Pump.run sampleQueue (schedule failedEvents)) where
  carried := by
    rw [show emitted (Machine.run sampleMachine failed) sid =
      [.actionRequired sid (js "p") (.permission (js "bash") (js "ls")),
        .heartbeat sid .busy 60000, .terminal sid .failed 60001] by decide +kernel,
      show (Pump.run sampleQueue (schedule failedEvents)).log.accepted.filter (·.session.id = sid) = failedEvents by
        decide +kernel]
    exact .cons ⟨stampOf 0, none, none, by decide +kernel⟩ (.cons ⟨stampOf 1, none, none, by decide +kernel⟩
      (.cons ⟨stampOf 2, none, none, by decide +kernel⟩ .nil))
  lossless := ⟨by decide +kernel, by decide +kernel⟩
  drained := List.length_eq_zero_iff.mp (by decide +kernel)
  ids := by decide +kernel

theorem delivered_reasked : Delivered plainPlatform factory (emitted (Machine.run sampleMachine reasked) sid) sid
    (Pump.run sampleQueue (schedule reaskedEvents)) where
  carried := by
    rw [show emitted (Machine.run sampleMachine reasked) sid =
      [.actionRequired sid (js "p") (.permission (js "bash") (js "ls")),
        .actionResolved sid (js "p") .permission, .actionRequired sid (js "p") (.permission (js "bash") (js "ls"))] by
          decide +kernel,
      show (Pump.run sampleQueue (schedule reaskedEvents)).log.accepted.filter (·.session.id = sid) = reaskedEvents by
        decide +kernel]
    exact .cons ⟨stampOf 0, none, none, by decide +kernel⟩ (.cons ⟨stampOf 1, none, none, by decide +kernel⟩
      (.cons ⟨stampOf 2, none, none, by decide +kernel⟩ .nil))
  lossless := ⟨by decide +kernel, by decide +kernel⟩
  drained := List.length_eq_zero_iff.mp (by decide +kernel)
  ids := by decide +kernel

theorem delivered_ended : Delivered plainPlatform factory (emitted (Machine.run sampleMachine ended) sid) sid
    (Pump.run sampleQueue (schedule endedEvents)) where
  carried := by
    rw [show emitted (Machine.run sampleMachine ended) sid =
      [.actionRequired sid (js "p") (.permission (js "bash") (js "ls")),
        .actionResolved sid (js "p") .permission, .terminal sid .failed 59501] by decide +kernel,
      show (Pump.run sampleQueue (schedule endedEvents)).log.accepted.filter (·.session.id = sid) =
        [endedEvents[0], endedEvents[1], endedEvents[3]] by decide +kernel]
    exact .cons ⟨stampOf 0, none, none, by decide +kernel⟩ (.cons ⟨stampOf 1, none, none, by decide +kernel⟩
      (.cons ⟨stampOf 3, none, none, by decide +kernel⟩ .nil))
  lossless := ⟨by decide +kernel, by decide +kernel⟩
  drained := List.length_eq_zero_iff.mp (by decide +kernel)
  ids := by decide +kernel

theorem delivered_askedOther : Delivered plainPlatform factory (emitted (Machine.run sampleMachine askedOther) sid) sid
    (Pump.run sampleQueue (schedule askedOtherEvents)) where
  carried := by
    rw [show emitted (Machine.run sampleMachine askedOther) sid =
        [.actionRequired sid (js "p") (.permission (js "bash") (js "ls")), .heartbeat sid .busy 60000,
          .actionResolved sid (js "p") .permission,
          .actionRequired sid (js "r") (.permission (js "edit") (js "a.txt"))] by
          decide +kernel,
      show (Pump.run sampleQueue (schedule askedOtherEvents)).log.accepted.filter (·.session.id = sid) =
        askedOtherEvents by
        decide +kernel]
    exact .cons ⟨stampOf 0, none, none, by decide +kernel⟩ (.cons ⟨stampOf 1, none, none, by decide +kernel⟩
      (.cons ⟨stampOf 2, none, none, by decide +kernel⟩ (.cons ⟨stampOf 3, none, none, by decide +kernel⟩ .nil)))
  lossless := ⟨by decide +kernel, by decide +kernel⟩
  drained := List.length_eq_zero_iff.mp (by decide +kernel)
  ids := by decide +kernel

/-- The terminal is delivered before the resolution and the heartbeat that came in before it, and the client
    shows the session at rest; the second request before all but the first, and the client shows the session
    running and that request alone. -/
theorem view_follows_overtaking :
    ((Pump.run sampleQueue (schedule endedEvents)).sent =
      [endedEvents[0], endedEvents[3], endedEvents[1], endedEvents[2]] ∧
      ((shown endedEvents).isRunning sid = true ↔ LastLive (emitted (Machine.run sampleMachine ended) sid)) ∧
      (shown endedEvents).isRunning sid = false ∧
      ((shown endedEvents).isPending sid (js "p") = true ↔
        Outstanding (fun _ => true) (emitted (Machine.run sampleMachine ended) sid) (js "p"))) ∧
    (Pump.run sampleQueue (schedule askedOtherEvents)).sent =
        [askedOtherEvents[0], askedOtherEvents[3], askedOtherEvents[2], askedOtherEvents[1]] ∧
      (shown askedOtherEvents).isRunning sid = true ∧ LastLive (emitted (Machine.run sampleMachine askedOther) sid) ∧
      (shown askedOtherEvents).isPending sid (js "r") = true ∧
      Outstanding (fun _ => true) (emitted (Machine.run sampleMachine askedOther) sid) (js "r") ∧
      (shown askedOtherEvents).isPending sid (js "p") = false ∧
      ¬ Outstanding (fun _ => true) (emitted (Machine.run sampleMachine askedOther) sid) (js "p") := by
  have hended := @view_follows plainPlatform factory sampleView 100 sampleQueue rfl sampleMachine ended sid
    (schedule endedEvents) delivered_ended sampleRouter (by unfold NotificationRouter.Unseen; decide +kernel) rfl
  have hasked := @view_follows plainPlatform factory sampleView 100 sampleQueue rfl sampleMachine askedOther sid
    (schedule askedOtherEvents) delivered_askedOther sampleRouter
      (by unfold NotificationRouter.Unseen; decide +kernel) rfl
  have hrunning : (shown askedOtherEvents).isRunning sid = true := by decide +kernel
  have hpending : (shown askedOtherEvents).isPending sid (js "r") = true := by decide +kernel
  have hgone : (shown askedOtherEvents).isPending sid (js "p") = false := by decide +kernel
  refine ⟨⟨by decide +kernel, hended.1 (noHeartbeatOvertaken_of ?_), by decide +kernel,
    hended.2 _ (noResolutionOvertaken_of ?_)⟩,
    by decide +kernel, hrunning, (hasked.1 (noHeartbeatOvertaken_of ?_)).mp hrunning, hpending,
    (hasked.2 _ (noResolutionOvertaken_of ?_)).mp hpending, hgone, fun hp => ?_⟩
  · decide +kernel
  · decide +kernel
  · decide +kernel
  · decide +kernel
  · have hshown := (hasked.2 (js "p") (noResolutionOvertaken_of (by decide +kernel))).mpr hp
    exact absurd (hgone.symm.trans hshown) (by decide)

/-- The id of the provider's action is pending, and no question or permission was asked for; the heartbeat is
    delivered after the terminal, and the session that failed is shown running; the resolution is delivered
    after the second request, and the request is gone. -/
theorem view_departs :
    (Delivered plainPlatform factory (emitted (Machine.run sampleMachine paused) sid) sid
        (Pump.run sampleQueue (schedule pausedEvents)) ∧
      ¬ ((shown pausedEvents).isPending sid (js "provider:d") = true ↔
        Outstanding (fun details => !isProviderAction details) (emitted (Machine.run sampleMachine paused) sid)
          (js "provider:d"))) ∧
    (Delivered plainPlatform factory (emitted (Machine.run sampleMachine failed) sid) sid
        (Pump.run sampleQueue (schedule failedEvents)) ∧
      ¬ ((shown failedEvents).isRunning sid = true ↔ LastLive (emitted (Machine.run sampleMachine failed) sid))) ∧
    (Delivered plainPlatform factory (emitted (Machine.run sampleMachine reasked) sid) sid
        (Pump.run sampleQueue (schedule reaskedEvents)) ∧
      ¬ ((shown reaskedEvents).isPending sid (js "p") = true ↔
        Outstanding (fun details => !isProviderAction details) (emitted (Machine.run sampleMachine reasked) sid)
          (js "p"))) := by
  refine ⟨⟨delivered_paused, fun h => ?_⟩, ⟨delivered_failed, fun h => ?_⟩, ⟨delivered_reasked, fun h => ?_⟩⟩
  · obtain ⟨before, s, details, after, hsplit, hcounts, -⟩ := h.mp (by decide +kernel)
    rw [show emitted (Machine.run sampleMachine paused) sid = [.actionRequired sid (js "provider:d")
        (.providerAction (js "acme") (js "Quota") (js "Upgrade to go on")
          (js "Upgrade") none)] by decide +kernel] at hsplit
    obtain ⟨-, hlast⟩ := List.append_eq_singleton_iff.mp hsplit.symm |>.resolve_right (fun h => by cases h.2)
    cases hlast
    cases hcounts
  · have hlive := lastLive_iff.mp (h.mp (by decide +kernel))
    exact absurd hlive (by decide +kernel)
  · refine absurd (h.mpr ?_) (by decide +kernel)
    refine ⟨[.actionRequired sid (js "p") (.permission (js "bash") (js "ls")),
      .actionResolved sid (js "p") .permission], sid,
      .permission (js "bash") (js "ls"), [], by decide +kernel, rfl, nofun⟩

end SessionView

end NotifyHub.Link
