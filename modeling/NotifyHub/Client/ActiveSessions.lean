/-
  NotifyHub.Client.ActiveSessions — the sessions the client shows
  (apps/client/lib/realtime/active_sessions.dart), fed by `NotificationRouter.handle`
  (apps/client/lib/notifications/notification_router.dart), which drops what the
  `EventDeduper` or the history has seen.

  A session's `running` and each request id of its pending set are registers the last event
  wins (`running_write`, `pending_write`), over every list of events the router was given
  (`handled_running`, `handled_pending`). The alerts of the router are left out.
-/

import NotifyHub.Lib.OMap
import NotifyHub.Lib.Register
import NotifyHub.Lib.Text

namespace NotifyHub.Client

inductive NotifyEventType where
  | heartbeat
  | actionRequired
  | actionResolved
  | terminal
  deriving DecidableEq

/-- The view model of an event, without the texts of its alert. -/
structure NotifyEvent where
  eventId : JsString
  occurredAt : JsString
  machine : JsString
  project : JsString
  directory : JsString
  sessionId : JsString
  sessionTitle : JsString
  type : NotifyEventType
  requestId : Option JsString
  deriving DecidableEq

structure ActiveSession where
  sessionId : JsString
  machine : JsString
  project : JsString
  directory : JsString
  title : JsString
  lastHeartbeatAt : JsString
  running : Bool
  pendingRequestIds : List JsString
  deriving DecidableEq

abbrev ActiveSessions := OMap JsString ActiveSession

namespace ActiveSessions

/-- `_fromEvent` -/
def fromEvent (event : NotifyEvent) (running : Bool) (pendingRequestIds : List JsString) : ActiveSession :=
  ⟨event.sessionId, event.machine, event.project, event.directory, event.sessionTitle, event.occurredAt, running,
    pendingRequestIds⟩

/-- An id into a set that keeps the order of insertion. -/
def withId (ids : List JsString) (requestId : Option JsString) : List JsString :=
  match requestId with
  | some id => if id ∈ ids then ids else ids ++ [id]
  | none => ids

variable (state : ActiveSessions)

def upsertHeartbeat (event : NotifyEvent) : ActiveSessions :=
  match state.get event.sessionId with
  | none => state.set event.sessionId (fromEvent event true [])
  | some existing =>
    state.set event.sessionId
      { existing with
        machine := event.machine, project := event.project, directory := event.directory, title := event.sessionTitle
        lastHeartbeatAt := event.occurredAt, running := true }

def addPending (event : NotifyEvent) : ActiveSessions :=
  match state.get event.sessionId with
  | none => state.set event.sessionId (fromEvent event true (withId [] event.requestId))
  | some existing =>
    state.set event.sessionId
      { existing with
        machine := event.machine, project := event.project, directory := event.directory, title := event.sessionTitle
        running := true, pendingRequestIds := withId existing.pendingRequestIds event.requestId }

def clearPending (sessionId requestId : JsString) : ActiveSessions :=
  match state.get sessionId with
  | none => state
  | some existing =>
    state.set sessionId { existing with pendingRequestIds := existing.pendingRequestIds.filter (· ≠ requestId) }

def markTerminal (event : NotifyEvent) : ActiveSessions :=
  match state.get event.sessionId with
  | none => state.set event.sessionId (fromEvent event false [])
  | some existing =>
    state.set event.sessionId
      { existing with
        machine := event.machine, project := event.project, directory := event.directory, title := event.sessionTitle
        lastHeartbeatAt := event.occurredAt, running := false, pendingRequestIds := [] }

/-- What the router does with an event it has not seen. -/
def apply (event : NotifyEvent) : ActiveSessions :=
  match event.type with
  | .heartbeat => state.upsertHeartbeat event
  | .actionRequired => state.addPending event
  | .terminal => state.markTerminal event
  | .actionResolved =>
    match event.requestId with
    | some requestId => state.clearPending event.sessionId requestId
    | none => state

end ActiveSessions

/-- The router, with the sessions it feeds. -/
structure NotificationRouter where
  sessions : ActiveSessions
  /-- The ids the deduper remembers, oldest first. -/
  seen : List JsString
  capacity : Nat
  /-- The ids of the history, newest first. -/
  history : List JsString
  retention : Nat

namespace NotificationRouter

variable (r : NotificationRouter)

/-- `isDuplicate` of an id that is new. -/
def remember (eventId : JsString) : NotificationRouter :=
  { r with seen := (if r.capacity ≤ r.seen.length then r.seen.tail else r.seen) ++ [eventId] }

/-- `add` of the history. -/
def record (eventId : JsString) : NotificationRouter :=
  if eventId ∈ r.history then r else { r with history := (eventId :: r.history).take r.retention }

def handle (event : NotifyEvent) : NotificationRouter :=
  if event.eventId ∈ r.seen then r
  else if event.eventId ∈ r.history then r.remember event.eventId
  else
    let r := { r.remember event.eventId with sessions := r.sessions.apply event }
    match event.type with
    | .actionRequired | .terminal => r.record event.eventId
    | .heartbeat | .actionResolved => r

def handleAll (events : List NotifyEvent) : NotificationRouter := events.foldl handle r

end NotificationRouter

namespace ActiveSessions

/-! ## What an event writes -/

/-- The session is there, and running. -/
def isRunning (state : ActiveSessions) (sessionId : JsString) : Bool := (state.get sessionId).any (·.running)

/-- The request is in the session's pending set. -/
def isPending (state : ActiveSessions) (sessionId requestId : JsString) : Bool :=
  (state.get sessionId).any fun s => decide (requestId ∈ s.pendingRequestIds)

def runningWrite (sessionId : JsString) (event : NotifyEvent) : Option Bool :=
  if event.sessionId = sessionId then
    match event.type with
    | .heartbeat | .actionRequired => some true
    | .terminal => some false
    | .actionResolved => none
  else none

def pendingWrite (sessionId requestId : JsString) (event : NotifyEvent) : Option Bool :=
  if event.sessionId = sessionId then
    match event.type with
    | .actionRequired => if event.requestId = some requestId then some true else none
    | .actionResolved => if event.requestId = some requestId then some false else none
    | .terminal => some false
    | .heartbeat => none
  else none

theorem mem_withId {ids : List JsString} {added : Option JsString} {id : JsString} :
    id ∈ withId ids added ↔ added = some id ∨ id ∈ ids := by
  cases added with
  | none => simp [withId]
  | some x =>
    unfold withId
    dsimp only
    split
    · rename_i hx
      constructor
      · exact Or.inr
      · rintro (h | h)
        · cases h
          exact hx
        · exact h
    · simp only [List.mem_append, List.mem_singleton, Option.some.injEq]
      rw [or_comm, eq_comm]

variable (state : ActiveSessions)

/-- An event says nothing of other sessions. -/
theorem apply_other {event : NotifyEvent} {sessionId : JsString} (h : event.sessionId ≠ sessionId) :
    (state.apply event).get sessionId = state.get sessionId := by
  have hother : ∀ s, (state.set event.sessionId s).get sessionId = state.get sessionId :=
    fun s => OMap.get_set_ne _ s (Ne.symm h)
  cases ht : event.type with
  | heartbeat => simp only [apply, ht, upsertHeartbeat]; split <;> exact hother _
  | actionRequired => simp only [apply, ht, addPending]; split <;> exact hother _
  | terminal => simp only [apply, ht, markTerminal]; split <;> exact hother _
  | actionResolved =>
    simp only [apply, ht, clearPending]
    split
    · split
      · rfl
      · exact hother _
    · rfl

variable (event : NotifyEvent)

theorem running_write (sessionId : JsString) :
    (state.apply event).isRunning sessionId = (runningWrite sessionId event).getD (state.isRunning sessionId) := by
  unfold isRunning runningWrite
  by_cases hs : event.sessionId = sessionId
  · subst hs
    cases ht : event.type with
    | heartbeat => simp only [apply, ht, upsertHeartbeat]; split <;> simp [fromEvent]
    | actionRequired => simp only [apply, ht, addPending]; split <;> simp [fromEvent]
    | terminal => simp only [apply, ht, markTerminal]; split <;> simp [fromEvent]
    | actionResolved =>
      simp only [apply, ht, clearPending]
      split
      · split
        · rfl
        · rename_i existing hget
          simp [hget]
      · rfl
  · simp [apply_other state hs, hs]

theorem pending_write (sessionId requestId : JsString) :
    (state.apply event).isPending sessionId requestId =
      (pendingWrite sessionId requestId event).getD (state.isPending sessionId requestId) := by
  unfold isPending pendingWrite
  by_cases hs : event.sessionId = sessionId
  · subst hs
    cases ht : event.type with
    | heartbeat =>
      simp only [apply, ht, upsertHeartbeat]
      split
      · rename_i hget
        simp [hget, fromEvent]
      · rename_i existing hget
        simp [hget]
    | actionRequired =>
      simp only [apply, ht, addPending]
      split
      · rename_i hget
        by_cases hr : event.requestId = some requestId <;> simp [hget, fromEvent, mem_withId, hr]
      · rename_i existing hget
        by_cases hr : event.requestId = some requestId <;> simp [hget, mem_withId, hr]
    | terminal => simp only [apply, ht, markTerminal]; split <;> simp [fromEvent]
    | actionResolved =>
      simp only [apply, ht, clearPending]
      split
      · rename_i id hid
        split
        · rename_i hget
          by_cases hr : id = requestId <;> simp [hget, hid, hr]
        · rename_i existing hget
          by_cases hr : id = requestId
          · simp [hid, hr]
          · simp [hget, hid, hr, Ne.symm hr]
      · rename_i hid
        simp [hid]
  · simp [apply_other state hs, hs]

end ActiveSessions

/-! ## What the router makes of its events -/

namespace NotificationRouter

open ActiveSessions

/-- Neither the deduper nor the history knows any of the events. -/
def Unseen (r : NotificationRouter) (events : List NotifyEvent) : Prop :=
  ∀ e ∈ events, e.eventId ∉ r.seen ∧ e.eventId ∉ r.history

theorem handle_unseen {r : NotificationRouter} {e : NotifyEvent} {events : List NotifyEvent}
    (h : r.Unseen (e :: events))
    (hne : ∀ x ∈ events, x.eventId ≠ e.eventId) :
    (r.handle e).sessions = r.sessions.apply e ∧ (r.handle e).Unseen events := by
  obtain ⟨hseen, hhistory⟩ := h e (by simp)
  have hremember : ∀ x ∈ events, x.eventId ∉ (r.remember e.eventId).seen := by
    intro x hx hmem
    rcases List.mem_append.mp hmem with hmem | hmem
    · refine (h x (by simp [hx])).1 ?_
      split at hmem
      · exact List.mem_of_mem_tail hmem
      · exact hmem
    · exact hne x hx (List.mem_singleton.mp hmem)
  have hrecord : ∀ x ∈ events, x.eventId ∉ (e.eventId :: r.history).take r.retention := by
    intro x hx hmem
    rcases List.mem_cons.mp (List.mem_of_mem_take hmem) with hmem | hmem
    · exact hne x hx hmem
    · exact (h x (by simp [hx])).2 hmem
  unfold handle
  rw [if_neg hseen, if_neg hhistory]
  dsimp only
  split
  · rw [record, if_neg (by exact hhistory)]
    exact ⟨rfl, fun x hx => ⟨hremember x hx, hrecord x hx⟩⟩
  · rw [record, if_neg (by exact hhistory)]
    exact ⟨rfl, fun x hx => ⟨hremember x hx, hrecord x hx⟩⟩
  · exact ⟨rfl, fun x hx => ⟨hremember x hx, (h x (by simp [hx])).2⟩⟩
  · exact ⟨rfl, fun x hx => ⟨hremember x hx, (h x (by simp [hx])).2⟩⟩

/-- Distinct events nobody has seen are all applied, in their order. -/
theorem handleAll_sessions (r : NotificationRouter) (events : List NotifyEvent) (h : r.Unseen events)
    (hn : (events.map (·.eventId)).Nodup) : (r.handleAll events).sessions = events.foldl apply r.sessions := by
  induction events generalizing r with
  | nil => rfl
  | cons e events ih =>
    rw [List.map_cons, List.nodup_cons] at hn
    obtain ⟨hsessions, hunseen⟩ := handle_unseen h fun x hx heq => hn.1 (heq ▸ List.mem_map_of_mem hx)
    show ((r.handle e).handleAll events).sessions = _
    rw [ih (r.handle e) hunseen hn.2, hsessions]
    rfl

theorem handled_running (r : NotificationRouter) (events : List NotifyEvent) (h : r.Unseen events)
    (hn : (events.map (·.eventId)).Nodup) (sessionId : JsString) :
    (r.handleAll events).sessions.isRunning sessionId =
      (lastWrite (runningWrite sessionId) events).getD (r.sessions.isRunning sessionId) := by
  rw [handleAll_sessions r events h hn]
  exact lastWrite_foldl (isRunning · sessionId) (fun s e => running_write s e sessionId) r.sessions events

theorem handled_pending (r : NotificationRouter) (events : List NotifyEvent) (h : r.Unseen events)
    (hn : (events.map (·.eventId)).Nodup) (sessionId requestId : JsString) :
    (r.handleAll events).sessions.isPending sessionId requestId =
      (lastWrite (pendingWrite sessionId requestId) events).getD (r.sessions.isPending sessionId requestId) := by
  rw [handleAll_sessions r events h hn]
  exact lastWrite_foldl (isPending · sessionId requestId) (fun s e => pending_write s e sessionId requestId)
    r.sessions events

end NotificationRouter

end NotifyHub.Client
