/-
  NotifyHub.Plugin.Turns — what a step of a `SessionMachine` does to the sessions.

  A session's state (`Machine.state`) is that of its object; a session the machine does not
  have is as a new one. A step turns the state of one session, by one of the moves of
  `Turn`, and logs what that move logs (`step_turns`); `disposeAll` does so for one session
  after another. What holds of every turn holds of every run, with no handle, object or
  timer in sight.
-/

import Mathlib.Logic.Relation
import NotifyHub.Plugin.Timers

namespace NotifyHub.Plugin

open Machine Relation

variable {O : MachineOptions}

/-! ## Moves of a state -/

namespace SessionState

/-- The session's round is under way. -/
def Active (s : SessionState) : Prop := s.busySince.isSome = true ∧ s.status ≠ .idle

instance (s : SessionState) : Decidable s.Active := inferInstanceAs (Decidable (_ ∧ _))

def elapsedMs (s : SessionState) (now : Nat) : Nat := (s.busySince.map (now - ·)).getD 0

def opened (now : Nat) (s : SessionState) : SessionState :=
  if s.busySince.isSome then s else { s with busySince := some now, terminalSent := false, terminalOutcome := none }

variable (O) in
def armed (handle : Nat) (s : SessionState) : SessionState :=
  if O.heartbeat = false ∨ s.heartbeatTimer.isSome then s else { s with heartbeatTimer := some handle }

variable (O) in
/-- `onActive`. -/
def activated (now handle : Nat) (status : SessionStatus) (s : SessionState) : SessionState :=
  armed O handle { opened now { s with idleTimer := none, pendingElapsedMs := none } with status }

/-- `onIdle`. -/
def idled (now handle : Nat) (s : SessionState) : SessionState :=
  if s.idleTimer.isSome ∨ s.terminalSent = true then { s with status := .idle, heartbeatTimer := none }
  else
    { s with
      status := .idle, heartbeatTimer := none, pendingElapsedMs := some (s.elapsedMs now), idleTimer := some handle }

/-- `onTerminalSignal`. -/
def ended (outcome : TerminalOutcome) (s : SessionState) : SessionState :=
  settle outcome { s with idleTimer := none, pendingElapsedMs := none, heartbeatTimer := none }

/-- `completePendingIdle`, of a state that has lost its idle timer. -/
def completed (s : SessionState) : SessionState :=
  { s with idleTimer := none, terminalSent := true, terminalOutcome := some .completed, busySince := none,
           pendingActions := .empty, pendingElapsedMs := none }

def withoutProvider (s : SessionState) : SessionState :=
  { s with pendingActions := s.pendingActions.filter fun _ k => k ≠ .providerAction }

def withAction (k : PendingActionKind) (key : JsString) (s : SessionState) : SessionState :=
  { s with pendingActions := s.pendingActions.set key k }

def withoutAction (key : JsString) (s : SessionState) : SessionState :=
  { s with pendingActions := s.pendingActions.delete key }

end SessionState

/-- What a question or a permission asks for. -/
def Signal.asks : Signal → Option (PendingActionKind × JsString × ActionDetails)
  | .questionAsked requestID questions => some (.question, requestID, .question questions)
  | .permissionAsked requestID permission summary => some (.permission, requestID, .permission permission summary)
  | _ => none

def Signal.resolves : Signal → Option (PendingActionKind × JsString)
  | .questionResolved requestID => some (.question, requestID)
  | .permissionResolved requestID => some (.permission, requestID)
  | _ => none

/-- What `onActive` logs, after the signal. -/
def opening (sid : JsString) (s : SessionState) : List Entry := if s.busySince.isSome then [] else [.opened sid]

def actionOf (a : RetryActionInfo) : ActionDetails := .providerAction a.provider a.title a.message a.label a.link

variable (O) in
/-- What one session's state may turn into, and the entries that are logged then, newest first. -/
inductive Turn (now time : Nat) (sid : JsString) (s : SessionState) : List Entry → SessionState → Prop where
  | rest : Turn now time sid s [] s
  | busy (handle : Nat) : Turn now time sid s (opening sid s ++ [.received sid .busy time])
      (s.activated O now handle .busy).withoutProvider
  /-- A retry without an action, or with the one that is pending. -/
  | retry (handle : Nat) (action : Option RetryActionInfo)
      (h : ∀ a, action = some a → s.pendingActions.get (providerActionKey O sid a) = some .providerAction) :
      Turn now time sid s (opening sid s ++ [.received sid (.retry action) time]) (s.activated O now handle .retry)
  | provider (handle : Nat) (a : RetryActionInfo)
      (h : s.pendingActions.get (providerActionKey O sid a) ≠ some .providerAction) :
      Turn now time sid s
        (.effect (.actionRequired sid (providerActionKey O sid a) (actionOf a)) time ::
          (opening sid s ++ [.received sid (.retry (some a)) time]))
        ((s.activated O now handle .retry).withoutProvider.withAction .providerAction (providerActionKey O sid a))
  | idle (handle : Nat) : Turn now time sid s [.received sid .idle time] (s.idled now handle)
  | ended (x : Signal) (outcome : TerminalOutcome) (hx : x.outcome = some outcome) :
      Turn now time sid s
        ((if s.terminalSent then []
          else [.effect (.terminal sid outcome (s.pendingElapsedMs.getD (s.elapsedMs now))) time]) ++
            [.received sid x time])
        (s.ended outcome)
  | repeated (x : Signal) (k : PendingActionKind) (requestID : JsString) (details : ActionDetails)
      (hx : x.asks = some (k, requestID, details)) (h : s.pendingActions.has (requestKey k requestID) = true) :
      Turn now time sid s [.received sid x time] s
  | asked (x : Signal) (k : PendingActionKind) (requestID : JsString) (details : ActionDetails)
      (hx : x.asks = some (k, requestID, details)) (h : s.pendingActions.has (requestKey k requestID) = false) :
      Turn now time sid s [.effect (.actionRequired sid requestID details) time, .received sid x time]
        (s.withAction k (requestKey k requestID))
  | unknown (x : Signal) (k : PendingActionKind) (requestID : JsString) (hx : x.resolves = some (k, requestID))
      (h : s.pendingActions.get (requestKey k requestID) ≠ some k) : Turn now time sid s [.received sid x time] s
  | resolved (x : Signal) (k : PendingActionKind) (requestID : JsString) (hx : x.resolves = some (k, requestID))
      (h : s.pendingActions.get (requestKey k requestID) = some k) :
      Turn now time sid s [.effect (.actionResolved sid requestID k) time, .received sid x time]
        (s.withoutAction (requestKey k requestID))
  /-- The debounce timer fires, or a flush comes by. -/
  | completed (flushed : Bool) (hidle : s.idleTimer.isSome = true) (hsent : s.terminalSent = false) :
      Turn now time sid s
        (.effect (.terminal sid .completed (s.pendingElapsedMs.getD 0)) time :: if flushed then [.flushed sid] else [])
        s.completed
  /-- The heartbeat timer fires, of an active round. -/
  | beat (hb : s.heartbeatTimer.isSome = true) (h : s.Active) :
      Turn now time sid s [.effect (.heartbeat sid s.status (s.elapsedMs now)) time] { s with heartbeatTimer := none }
  | stopped (hb : s.heartbeatTimer.isSome = true) (h : ¬ s.Active) :
    Turn now time sid s [] { s with heartbeatTimer := none }
  /-- The callback of a tick has returned. -/
  | rearmed (handle : Nat) (h : s.Active) : Turn now time sid s [] (s.armed O handle)
  | disposed : Turn now time sid s [.disposed sid] .new

/-! ## The state of a session -/

/-- The session's state; one that the machine does not have is as a new one. -/
def Machine.state (m : Machine) (sid : JsString) : SessionState := ((m.sessions.get sid).map m.objects).getD .new

/-- A tick of the session's state is inside its callback. -/
def Machine.Hung (m : Machine) (sid : JsString) : Prop := ∃ o, m.sessions.get sid = some o ∧ (sid, o) ∈ m.ticking

/-- An active round's next heartbeat is armed, or will be. -/
def Machine.Beats (m : Machine) (sid : JsString) : Prop :=
  (m.state sid).Active → (m.state sid).heartbeatTimer.isSome = true ∨ m.Hung sid

/-- The states that sessions get are new ones. -/
structure Machine.Fresh (m m' : Machine) : Prop where
  next : m.nextObject ≤ m'.nextObject
  get : ∀ s o, m'.sessions.get s = some o → m.sessions.get s = some o ∨ m.nextObject ≤ o

variable (O) in
/-- From `m` to `m'` one session's state takes a turn. -/
structure Turned (m m' : Machine) (sid : JsString) : Prop where
  now : m'.nowMs = m.nowMs
  time : m'.time = m.time
  others : ∀ s, s ≠ sid → m'.state s = m.state s ∧ (m.Hung s → m'.Hung s)
  turn : ∃ es, m'.trace = es ++ m.trace ∧ Turn O m.nowMs m.time sid (m.state sid) es (m'.state sid)
  beats : O.heartbeat = true → m.Beats sid → m'.Beats sid
  fresh : m.Fresh m'

variable (O) in
abbrev Turns : Machine → Machine → Prop := ReflTransGen fun m m' => ∃ sid, Turned O m m' sid

/-- The object is the session's, and no other's. -/
structure Held (m : Machine) (sid : JsString) (o : Nat) : Prop where
  get : m.sessions.get sid = some o
  only : ∀ s, m.sessions.get s = some o → s = sid

theorem Good.held {m : Machine} (h : Good O m) {sid : JsString} {o : Nat} (hs : m.sessions.get sid = some o) :
    Held m sid o :=
  ⟨hs, fun s hs' => h.single s sid o hs' hs⟩

theorem Held.state {m : Machine} {sid : JsString} {o : Nat} (h : Held m sid o) : m.state sid = m.objects o := by
  rw [Machine.state, h.get]
  rfl

theorem state_of_none {m : Machine} {sid : JsString} (h : m.sessions.get sid = none) : m.state sid = .new := by
  rw [Machine.state, h]
  rfl

theorem Machine.Fresh.of_eq {m m' : Machine} (hs : m'.sessions = m.sessions) (hn : m'.nextObject = m.nextObject) :
    m.Fresh m' := by
  refine ⟨Nat.le_of_eq hn.symm, fun s o h => Or.inl ?_⟩
  rw [hs] at h
  exact h

theorem Machine.Fresh.trans {m m' m'' : Machine} (h : m.Fresh m') (h' : m'.Fresh m'') : m.Fresh m'' := by
  refine ⟨Nat.le_trans h.next h'.next, fun s o hs => ?_⟩
  rcases h'.get s o hs with hs | ho
  · exact h.get s o hs
  · exact Or.inr (Nat.le_trans h.next ho)

/-- What is done to one object and its timers, between `m` and `m'`. -/
structure Local (m : Machine) (o : Nat) (m' : Machine) (s : SessionState) (es : List Entry) : Prop where
  sessions : m'.sessions = m.sessions
  nextObject : m'.nextObject = m.nextObject
  ticking : m.ticking ⊆ m'.ticking
  now : m'.nowMs = m.nowMs
  time : m'.time = m.time
  self : m'.objects o = s
  others : ∀ p, p ≠ o → m'.objects p = m.objects p
  trace : m'.trace = es ++ m.trace

namespace Local

variable {m m' : Machine} {o : Nat} {s : SessionState} {es : List Entry}

theorem refl (m : Machine) (o : Nat) : Local m o m (m.objects o) [] := 
  ⟨rfl, rfl, fun _ h => h, rfl, rfl, rfl, fun _ _ => rfl, rfl⟩

theorem modify (h : Local m o m' s es) (f : SessionState → SessionState) : Local m o (m'.modify o f) (f s) es :=
  ⟨h.sessions, h.nextObject, h.ticking, h.now, h.time, by rw [modify_objects_self, h.self],
    fun p hp => (modify_objects_ne m' f hp).trans (h.others p hp), h.trace⟩

theorem log (h : Local m o m' s es) (e : Entry) : Local m o (m'.log e) s (e :: es) :=
  ⟨h.sessions, h.nextObject, h.ticking, h.now, h.time, h.self, h.others, by rw [log_trace, h.trace]; rfl⟩

theorem clearTimeout (h : Local m o m' s es) (k : Nat) : Local m o (m'.clearTimeout k) s es :=
  ⟨h.sessions, h.nextObject, h.ticking, h.now, h.time, h.self, h.others, h.trace⟩

theorem setTimeout (h : Local m o m' s es) (sid : JsString) (kind : TimerKind) (delayMs : Nat) :
    Local m o (m'.setTimeout sid o kind delayMs) s es :=
  ⟨h.sessions, h.nextObject, h.ticking, h.now, h.time, h.self, h.others, h.trace⟩

theorem clearIdleTimer (h : Local m o m' s es) : Local m o (m'.clearIdleTimer o) { s with idleTimer := none } es := by
  unfold Machine.clearIdleTimer
  split
  · exact (h.clearTimeout _).modify _
  · rename_i hnone
    rw [h.self] at hnone
    rw [← hnone]
    exact h

theorem clearHeartbeat (h : Local m o m' s es) :
    Local m o (m'.clearHeartbeat o) { s with heartbeatTimer := none } es := by
  unfold Machine.clearHeartbeat
  split
  · exact (h.clearTimeout _).modify _
  · rename_i hnone
    rw [h.self] at hnone
    rw [← hnone]
    exact h

theorem armHeartbeat (h : Local m o m' s es) (sid : JsString) :
    Local m o (m'.armHeartbeat O sid o) (s.armed O m'.nextHandle) es := by
  unfold Machine.armHeartbeat SessionState.armed
  rw [h.self]
  split
  · exact h
  · exact (h.setTimeout sid .heartbeat _).modify _

theorem hung (h : Local m o m' s es) (t : JsString) (hm : m.Hung t) : m'.Hung t := by
  obtain ⟨p, hp, hmem⟩ := hm
  exact ⟨p, h.sessions ▸ hp, h.ticking hmem⟩

/-- A turn of the session whose object it is. -/
theorem turned {sid : JsString} (h : Local m o m' s es) (ho : Held m sid o)
    (ht : Turn O m.nowMs m.time sid (m.state sid) es s)
    (hb : O.heartbeat = true → m.Beats sid → s.Active → s.heartbeatTimer.isSome = true ∨ m'.Hung sid) :
    Turned O m m' sid := by
  have hself : m'.state sid = s := by
    rw [Machine.state, h.sessions, ho.get]
    exact h.self
  refine ⟨h.now, h.time, fun t ht => ⟨?_, h.hung t⟩, ⟨es, h.trace, hself.symm ▸ ht⟩, fun hbeat hbeats hactive => ?_, ?_⟩
  · rw [Machine.state, Machine.state, h.sessions]
    cases hp : m.sessions.get t with
    | none => rfl
    | some p => exact h.others p fun he => ht (ho.only t (he ▸ hp))
  · rw [hself] at hactive ⊢
    exact hb hbeat hbeats hactive
  · exact Fresh.of_eq h.sessions h.nextObject

end Local

/-! ## Signals -/

namespace Machine

theorem stateFor_of_get {m : Machine} {sid : JsString} {o : Nat} (hs : m.sessions.get sid = some o) :
    m.stateFor sid = (m, o) := by
  unfold stateFor
  rw [hs]

theorem stateFor_stateFor (m : Machine) (sid : JsString) : (m.stateFor sid).1.stateFor sid = m.stateFor sid :=
  stateFor_of_get (m.stateFor_get sid)

/-- A signal looks its session's state up first. -/
theorem signal_stateFor (m : Machine) (sid : JsString) (x : Signal) :
    (m.stateFor sid).1.signal O sid x = m.signal O sid x := by
  have hactive : ∀ r status, ((m.stateFor sid).1.log r).onActive O sid status = (m.log r).onActive O sid status := by
    intro r status
    unfold onActive
    rw [stateFor_log, stateFor_stateFor, stateFor_log]
  unfold signal
  rw [stateFor_time]
  cases x with
  | busy => exact congrArg (fun m => (m.stateFor sid).1.clearPendingProviderAction (m.stateFor sid).2) (hactive _ _)
  | retry action =>
    cases action with
    | none => exact hactive _ _
    | some a => exact congrArg (fun m => m.onProviderAction O sid a) (hactive _ _)
  | idle =>
    show onIdle O _ sid = onIdle O _ sid
    unfold onIdle
    rw [stateFor_log, stateFor_stateFor, stateFor_log]
  | failed | stopped =>
    show onTerminalSignal _ sid _ = onTerminalSignal _ sid _
    unfold onTerminalSignal
    rw [stateFor_log, stateFor_stateFor, stateFor_log]
  | questionAsked | permissionAsked =>
    show onAsked _ sid _ _ _ = onAsked _ sid _ _ _
    unfold onAsked
    rw [stateFor_log, stateFor_stateFor, stateFor_log]
  | questionResolved | permissionResolved =>
    show onResolved _ sid _ _ = onResolved _ sid _ _
    unfold onResolved
    rw [stateFor_log, stateFor_stateFor, stateFor_log]

end Machine

namespace Local

variable {m m' : Machine} {o : Nat} {s : SessionState} {es : List Entry} {sid : JsString}

theorem get (h : Local m o m' s es) (hs : m.sessions.get sid = some o) : m'.sessions.get sid = some o := h.sessions ▸ hs

theorem elapsed (h : Local m o m' s es) : m'.elapsedMs o = s.elapsedMs m.nowMs := by
  rw [Machine.elapsedMs, h.self, h.now]
  rfl

theorem onActive (h : Local m o m' s es) (hs : m.sessions.get sid = some o) (status : SessionStatus) :
    ∃ handle, Local m o (m'.onActive O sid status) (s.activated O m.nowMs handle status) (opening sid s ++ es) := by
  unfold Machine.onActive
  rw [stateFor_of_get (h.get hs)]
  dsimp only
  have h1 := h.clearIdleTimer.modify fun s => { s with pendingElapsedMs := none }
  generalize (m'.clearIdleTimer o).modify o (fun s => { s with pendingElapsedMs := none }) = m1 at h1 ⊢
  have hbusy : (m1.objects o).busySince = s.busySince := by rw [h1.self]
  rw [hbusy]
  unfold SessionState.activated SessionState.opened opening
  dsimp only
  by_cases hb : s.busySince.isSome = true
  · simp only [if_pos hb, List.nil_append]
    exact ⟨_, (h1.modify fun s => { s with status }).armHeartbeat sid⟩
  · simp only [if_neg hb, ← h1.now]
    exact ⟨_, (((h1.log (.opened sid)).modify fun s =>
      { s with busySince := some m1.nowMs, terminalSent := false, terminalOutcome := none }).modify
        fun s => { s with status }).armHeartbeat sid⟩

theorem onIdle (h : Local m o m' s es) (hs : m.sessions.get sid = some o) :
    ∃ handle, Local m o (m'.onIdle O sid) (s.idled m.nowMs handle) es := by
  unfold Machine.onIdle
  rw [stateFor_of_get (h.get hs)]
  dsimp only
  have h1 := (h.modify fun s => { s with status := .idle }).clearHeartbeat
  generalize (m'.modify o fun s => { s with status := .idle }).clearHeartbeat o = m1 at h1 ⊢
  have hcond : ((m1.objects o).idleTimer.isSome ∨ (m1.objects o).terminalSent = true) ↔
      (s.idleTimer.isSome ∨ s.terminalSent = true) := by rw [h1.self]
  unfold SessionState.idled
  by_cases hc : s.idleTimer.isSome ∨ s.terminalSent = true
  · simp only [if_pos hc, if_pos (hcond.mpr hc)]
    exact ⟨0, h1⟩
  · simp only [if_neg hc, if_neg (hcond.not.mpr hc)]
    refine ⟨m1.nextHandle, ?_⟩
    have helapsed : m1.elapsedMs o = s.elapsedMs m.nowMs := h1.elapsed
    rw [← helapsed]
    exact (h1.setTimeout sid .debounce _).modify fun s =>
      { s with pendingElapsedMs := some (m1.elapsedMs o), idleTimer := some m1.nextHandle }

theorem onTerminalSignal (h : Local m o m' s es) (hs : m.sessions.get sid = some o) (outcome : TerminalOutcome) :
    Local m o (m'.onTerminalSignal sid outcome) (s.ended outcome)
      ((if s.terminalSent then []
        else [.effect (.terminal sid outcome (s.pendingElapsedMs.getD (s.elapsedMs m.nowMs))) m.time]) ++ es) := by
  unfold Machine.onTerminalSignal
  rw [stateFor_of_get (h.get hs)]
  dsimp only
  rw [h.elapsed, h.self]
  have h1 := ((h.clearIdleTimer.modify fun s => { s with pendingElapsedMs := none }).clearHeartbeat).modify
    (settle outcome)
  have hsent : ((((m'.clearIdleTimer o).modify o fun s => { s with pendingElapsedMs := none }).clearHeartbeat o).objects
      o).terminalSent = s.terminalSent := by
    rw [((h.clearIdleTimer.modify fun s => { s with pendingElapsedMs := none }).clearHeartbeat).self]
  rw [hsent]
  cases s.terminalSent with
  | true => exact h1
  | false =>
    rw [← h1.time]
    exact h1.log _

theorem onProviderAction (h : Local m o m' s es) (hs : m.sessions.get sid = some o) (a : RetryActionInfo) :
    if s.pendingActions.get (providerActionKey O sid a) = some .providerAction then
      Local m o (m'.onProviderAction O sid a) s es
    else Local m o (m'.onProviderAction O sid a)
      (s.withoutProvider.withAction .providerAction (providerActionKey O sid a))
      (.effect (.actionRequired sid (providerActionKey O sid a) (actionOf a)) m.time :: es) := by
  unfold Machine.onProviderAction
  rw [stateFor_of_get (h.get hs)]
  dsimp only
  rw [h.self]
  split
  · exact h
  · rw [← h.time]
    exact ((h.modify _).modify _).log _

theorem onAsked (h : Local m o m' s es) (hs : m.sessions.get sid = some o) (k : PendingActionKind)
    (requestID : JsString)
    (details : ActionDetails) :
    if s.pendingActions.has (requestKey k requestID) then Local m o (m'.onAsked sid k requestID details) s es
    else Local m o (m'.onAsked sid k requestID details) (s.withAction k (requestKey k requestID))
      (.effect (.actionRequired sid requestID details) m.time :: es) := by
  unfold Machine.onAsked
  rw [stateFor_of_get (h.get hs)]
  dsimp only
  rw [h.self]
  split
  · exact h
  · rw [← h.time]
    exact (h.modify _).log _

theorem onResolved (h : Local m o m' s es) (hs : m.sessions.get sid = some o) (k : PendingActionKind)
    (requestID : JsString) :
    if s.pendingActions.get (requestKey k requestID) ≠ some k then Local m o (m'.onResolved sid k requestID) s es
    else Local m o (m'.onResolved sid k requestID) (s.withoutAction (requestKey k requestID))
      (.effect (.actionResolved sid requestID k) m.time :: es) := by
  unfold Machine.onResolved
  rw [stateFor_of_get (h.get hs)]
  dsimp only
  rw [h.self]
  split
  · exact h
  · rw [← h.time]
    exact (h.modify _).log _

end Local

namespace SessionState

variable (s : SessionState) (now handle : Nat) (status : SessionStatus)

/-- A busy or a retry. -/
theorem activated_eq : ∃ hb outcome, s.activated O now handle status =
    { s with status, idleTimer := none, pendingElapsedMs := none, busySince := some (s.busySince.getD now),
             heartbeatTimer := hb, terminalSent := s.busySince.isSome && s.terminalSent,
             terminalOutcome := outcome } := by
  obtain ⟨st, since, idle, pending, hb, sent, outcome, actions⟩ := s
  unfold activated armed opened
  cases since with
  | none =>
    simp only [Option.isSome_none, Bool.false_eq_true, if_false]
    split <;> exact ⟨_, _, rfl⟩
  | some since =>
    simp only [Option.isSome_some, if_true]
    split <;> exact ⟨_, _, rfl⟩

/-- It arms the heartbeat. -/
theorem activated_heartbeat (hb : O.heartbeat = true) :
    (s.activated O now handle status).heartbeatTimer.isSome = true := by
  unfold activated armed
  split
  · rename_i h
    rcases h with h | h
    · rw [hb] at h
      cases h
    · exact h
  · rfl

end SessionState

theorem turned_asked {m : Machine} {sid : JsString} {o : Nat} (ho : Held m sid o) {x : Signal} {k : PendingActionKind}
    {requestID : JsString} {details : ActionDetails} (hx : x.asks = some (k, requestID, details)) :
    Turned O m ((m.log (.received sid x m.time)).onAsked sid k requestID details) sid := by
  have h := ((Local.refl m o).log (.received sid x m.time)).onAsked ho.get k requestID details
  rw [← ho.state] at h
  split at h
  · rename_i hhas
    exact h.turned ho (.repeated x k requestID details hx hhas) fun _ hbeats hactive =>
      (hbeats hactive).imp_right (h.hung sid)
  · rename_i hhas
    refine h.turned ho (.asked x k requestID details hx ?_) fun _ hbeats hactive =>
      (hbeats hactive).imp_right (h.hung sid)
    simpa using hhas

theorem turned_resolved {m : Machine} {sid : JsString} {o : Nat} (ho : Held m sid o) {x : Signal}
    {k : PendingActionKind}
    {requestID : JsString} (hx : x.resolves = some (k, requestID)) :
    Turned O m ((m.log (.received sid x m.time)).onResolved sid k requestID) sid := by
  have h := ((Local.refl m o).log (.received sid x m.time)).onResolved ho.get k requestID
  rw [← ho.state] at h
  split at h
  · rename_i hget
    exact h.turned ho (.unknown x k requestID hx hget) fun _ hbeats hactive => (hbeats hactive).imp_right (h.hung sid)
  · rename_i hget
    refine h.turned ho (.resolved x k requestID hx ?_) fun _ hbeats hactive => (hbeats hactive).imp_right (h.hung sid)
    simpa using hget

theorem turned_signal {m : Machine} {sid : JsString} {o : Nat} (ho : Held m sid o) (x : Signal) :
    Turned O m (m.signal O sid x) sid := by
  have h := (Local.refl m o).log (.received sid x m.time)
  unfold Machine.signal
  cases x with
  | busy =>
    obtain ⟨handle, ha⟩ := h.onActive (O := O) ho.get .busy
    have hstate := stateFor_of_get (ha.get ho.get)
    dsimp only
    unfold Machine.onBusy
    rw [hstate]
    refine (ha.modify _).turned ho ?_ fun hb _ _ => Or.inl ((m.objects o).activated_heartbeat _ _ _ hb)
    rw [ho.state]
    exact .busy handle
  | retry action =>
    obtain ⟨handle, ha⟩ := h.onActive (O := O) ho.get .retry
    have hbeat := fun hb => (m.objects o).activated_heartbeat (O := O) m.nowMs handle .retry hb
    cases action with
    | none =>
      refine ha.turned ho ?_ fun hb _ _ => Or.inl (hbeat hb)
      rw [ho.state]
      exact .retry handle none nofun
    | some a =>
      have hp := ha.onProviderAction (O := O) ho.get a
      have hkept : ((m.objects o).activated O m.nowMs handle .retry).pendingActions = (m.objects o).pendingActions := by
        obtain ⟨_, _, he⟩ := (m.objects o).activated_eq (O := O) m.nowMs handle .retry
        rw [he]
      rw [hkept] at hp
      split at hp
      · rename_i hpending
        refine hp.turned ho ?_ fun hb _ _ => Or.inl (hbeat hb)
        rw [ho.state]
        refine .retry handle (some a) fun b hb => ?_
        cases hb
        exact hpending
      · rename_i hpending
        refine hp.turned ho ?_ fun hb _ _ => Or.inl (hbeat hb)
        rw [ho.state]
        exact .provider handle a hpending
  | idle =>
    obtain ⟨handle, hi⟩ := h.onIdle (O := O) ho.get
    refine hi.turned ho ?_ fun _ _ hactive => ?_
    · rw [ho.state]
      exact .idle handle
    · unfold SessionState.idled at hactive
      split at hactive
      · exact absurd rfl hactive.2
      · exact absurd rfl hactive.2
  | failed =>
    refine (h.onTerminalSignal ho.get .failed).turned ho ?_ fun _ _ hactive => absurd rfl hactive.2
    rw [ho.state]
    exact .ended .failed .failed rfl
  | stopped =>
    refine (h.onTerminalSignal ho.get .stopped).turned ho ?_ fun _ _ hactive => absurd rfl hactive.2
    rw [ho.state]
    exact .ended .stopped .stopped rfl
  | questionAsked requestID questions => exact turned_asked ho rfl
  | permissionAsked requestID permission summary => exact turned_asked ho rfl
  | questionResolved requestID => exact turned_resolved ho rfl
  | permissionResolved requestID => exact turned_resolved ho rfl

/-! ## Steps -/

/-- To every session the second machine looks like the first. -/
structure Same (m m' : Machine) : Prop where
  now : m'.nowMs = m.nowMs
  time : m'.time = m.time
  trace : m'.trace = m.trace
  state : ∀ s, m'.state s = m.state s
  hung : ∀ s, m.Hung s → m'.Hung s
  fresh : m.Fresh m'

theorem Turned.after {m m1 m' : Machine} {sid : JsString} (h : Same m m1) (t : Turned O m1 m' sid) :
    Turned O m m' sid := by
  refine ⟨t.now.trans h.now, t.time.trans h.time, fun s hs => ?_, ?_, fun hb hbeats => ?_, h.fresh.trans t.fresh⟩
  · obtain ⟨hstate, hhung⟩ := t.others s hs
    exact ⟨hstate.trans (h.state s), fun hm => hhung (h.hung s hm)⟩
  · obtain ⟨es, he, ht⟩ := t.turn
    rw [h.trace] at he
    rw [h.now, h.time, h.state] at ht
    exact ⟨es, he, ht⟩
  · refine t.beats hb fun hactive => ?_
    rw [h.state] at hactive ⊢
    exact (hbeats hactive).imp_right (h.hung sid)

theorem same_stateFor {m : Machine} (hg : Good O m) (sid : JsString) : Same m (m.stateFor sid).1 := by
  rcases m.stateFor_eq sid with ⟨o, hs, heq⟩ | ⟨hnone, heq⟩
  · rw [heq]
    exact ⟨rfl, rfl, rfl, fun _ => rfl, fun _ h => h, Fresh.of_eq rfl rfl⟩
  rw [heq]
  have hget : ∀ s, (m.created sid).sessions.get s = if s = sid then some m.nextObject else m.sessions.get s :=
    fun s => OMap.get_set m.sessions sid s m.nextObject
  refine ⟨rfl, rfl, rfl, fun s => ?_, fun s ⟨p, hp, hmem⟩ => ?_, Nat.le_succ _, fun s p hp => ?_⟩
  · unfold Machine.state
    rw [hget]
    by_cases hs : s = sid
    · rw [if_pos hs, hs, hnone]
      exact created_self m sid
    · rw [if_neg hs]
      cases hp : m.sessions.get s with
      | none => rfl
      | some p => exact created_ne m sid (Nat.ne_of_lt (hg.made s p hp))
  · have hs : s ≠ sid := fun hs => by
      rw [hs, hnone] at hp
      cases hp
    exact ⟨p, (hget s).trans ((if_neg hs).trans hp), hmem⟩
  · rw [hget] at hp
    split at hp
    · exact Or.inr (Nat.le_of_eq (Option.some.inj hp))
    · exact Or.inl hp

theorem step_signal {m : Machine} (hg : Good O m) (sid : JsString) (x : Signal) :
    Turned O m (m.signal O sid x) sid := by
  rw [← signal_stateFor]
  exact (turned_signal ((hg.stateFor sid).held (m.stateFor_get sid)) x).after (same_stateFor hg sid)

theorem Same.turned {m m' : Machine} (h : Same m m') (sid : JsString) : Turned O m m' sid := by
  refine ⟨h.now, h.time, fun s _ => ⟨h.state s, h.hung s⟩, ⟨[], h.trace, ?_⟩, fun _ hbeats hactive => ?_, h.fresh⟩
  · rw [h.state]
    exact .rest
  · rw [h.state] at hactive ⊢
    exact (hbeats hactive).imp_right (h.hung sid)

theorem Local.completePendingIdle {m m' : Machine} {o : Nat} {s : SessionState} {es : List Entry}
    (h : Local m o m' s es) (sid : JsString) (hsent : s.terminalSent = false) :
    Local m o (m'.completePendingIdle sid o)
      { s with terminalSent := true, terminalOutcome := some .completed, busySince := none, pendingActions := .empty,
               pendingElapsedMs := none }
      (.effect (.terminal sid .completed (s.pendingElapsedMs.getD 0)) m.time :: es) := by
  unfold Machine.completePendingIdle
  rw [h.self, if_neg (by simp [hsent]), ← h.time]
  exact (h.modify _).log _

/-- A tick up to its callback; the round is active, or nothing is re-armed. -/
theorem Local.onHeartbeatTick {m m' : Machine} {o : Nat} {s : SessionState} {es : List Entry} (h : Local m o m' s es)
    (sid : JsString) :
    (s.Active → Local m o (m'.onHeartbeatTick O sid o) { s with heartbeatTimer := none }
      (.effect (.heartbeat sid s.status (s.elapsedMs m.nowMs)) m.time :: es) ∧
        (sid, o) ∈ (m'.onHeartbeatTick O sid o).ticking) ∧
    (¬ s.Active → Local m o (m'.onHeartbeatTick O sid o) { s with heartbeatTimer := none } es) := by
  have h1 := h.modify fun s => { s with heartbeatTimer := none }
  have helapsed := h1.elapsed
  have hself := h1.self
  unfold Machine.onHeartbeatTick
  generalize m'.modify o (fun s => { s with heartbeatTimer := none }) = m1 at h1 helapsed hself ⊢
  have hcond : ((m1.objects o).busySince.isSome = true ∧ (m1.objects o).status ≠ .idle) ↔ s.Active := by
    rw [hself]
    rfl
  dsimp only
  constructor
  · intro hactive
    rw [if_pos (hcond.mpr hactive), helapsed, hself, ← h1.time]
    have h2 := h1.log (.effect (.heartbeat sid s.status (s.elapsedMs m.nowMs)) m1.time)
    refine ⟨⟨h2.sessions, h2.nextObject, ?_, h2.now, h2.time, h2.self, h2.others, h2.trace⟩, ?_⟩
    · exact fun x hx => List.mem_append_left _ (h1.ticking hx)
    · exact List.mem_append_right _ (List.mem_singleton_self _)
  · intro hactive
    have hrearm : m1.rearm O sid o = m1 := by
      unfold rearm
      exact if_neg fun hc => hactive (hcond.mp ⟨hc.2.1, hc.2.2.1⟩)
    rw [if_neg fun hc => hactive (hcond.mp hc), hrearm]
    exact h1

theorem step_fire {m : Machine} (hg : Good O m) (ha : Armed m) (k : Nat) : ∃ sid, Turned O m (m.fire O k) sid := by
  unfold Machine.fire
  cases hk : (m.timers.get k).filter (·.due ≤ m.time) with
  | none => exact ⟨[], Same.turned ⟨rfl, rfl, rfl, fun _ => rfl, fun _ h => h, Fresh.of_eq rfl rfl⟩ []⟩
  | some t =>
    obtain ⟨hs, htimer⟩ := ha.kept k t (Option.filter_eq_some_iff.mp hk).1
    have ho := hg.held hs
    refine ⟨t.sessionID, ?_⟩
    dsimp only
    have h := (Local.refl m t.object).clearTimeout k
    cases hkind : t.kind with
    | debounce =>
      rw [hkind] at htimer
      have hidle : (m.objects t.object).idleTimer.isSome = true := by
        rw [show (m.objects t.object).idleTimer = some k from htimer]
        rfl
      have hsent := ((hg.fits _ _ hs).pending hidle).1
      refine ((h.modify fun s => { s with idleTimer := none }).completePendingIdle t.sessionID hsent).turned ho ?_
        fun _ _ hactive => absurd hactive.1 nofun
      rw [ho.state]
      exact .completed false hidle hsent
    | heartbeat =>
      rw [hkind] at htimer
      have hbeat : (m.objects t.object).heartbeatTimer.isSome = true := by
        rw [show (m.objects t.object).heartbeatTimer = some k from htimer]
        rfl
      have h1 := h.onHeartbeatTick (O := O) t.sessionID
      by_cases hactive : (m.objects t.object).Active
      · obtain ⟨h1, hmem⟩ := h1.1 hactive
        refine h1.turned ho ?_ fun _ _ _ => Or.inr ⟨t.object, h1.get hs, hmem⟩
        rw [ho.state]
        exact .beat hbeat hactive
      · refine (h1.2 hactive).turned ho ?_ fun _ _ h => absurd h hactive
        rw [ho.state]
        exact .stopped hbeat hactive

theorem mem_eraseIdx_of_ne {α : Type} {l : List α} {i : Nat} {x y : α} (hy : l[i]? = some y)
    (hx : x ∈ l) (hne : x ≠ y) :
    x ∈ l.eraseIdx i := by
  obtain ⟨j, hj⟩ := List.mem_iff_getElem?.mp hx
  refine List.mem_eraseIdx_iff_getElem?.mpr ⟨j, ?_, hj⟩
  intro he
  rw [he, hy] at hj
  exact hne (Option.some.inj hj).symm

theorem step_ticked {m : Machine} (hg : Good O m) (i : Nat) : ∃ sid, Turned O m (m.ticked O i) sid := by
  unfold Machine.ticked
  split
  · exact ⟨[], Same.turned ⟨rfl, rfl, rfl, fun _ => rfl, fun _ h => h, Fresh.of_eq rfl rfl⟩ []⟩
  rename_i sid o hi
  have hothers : ∀ s p, (s, p) ≠ (sid, o) → (s, p) ∈ m.ticking → (s, p) ∈ m.ticking.eraseIdx i :=
    fun s p hne hmem => mem_eraseIdx_of_ne hi hmem hne
  refine ⟨sid, ?_⟩
  unfold rearm
  split
  · -- the tick of an active round whose heartbeat is not armed
    rename_i hc
    obtain ⟨hs, hbusy, hidle, hnone⟩ := hc
    have ho := hg.held hs
    have h := (Local.refl ({ m with ticking := m.ticking.eraseIdx i } : Machine) o).armHeartbeat (O := O) sid
    generalize Machine.armHeartbeat O _ sid o = m' at h ⊢
    have hself : m'.state sid = (m.objects o).armed O m.nextHandle := by
      rw [Machine.state, h.sessions, hs]
      exact h.self
    refine ⟨h.now, h.time, fun t ht => ⟨?_, fun hready => ?_⟩, ⟨[], h.trace, ?_⟩,
      fun hbeat _ _ => Or.inl ?_, ?_⟩
    · rw [Machine.state, Machine.state, h.sessions]
      cases hp : m.sessions.get t with
      | none => rfl
      | some p => exact h.others p fun he => ht (ho.only t (he ▸ hp))
    · obtain ⟨p, hp, hmem⟩ := hready
      exact ⟨p, h.sessions ▸ hp, h.ticking (hothers t p (fun he => ht (congrArg Prod.fst he)) hmem)⟩
    · rw [hself, ho.state]
      exact .rearmed m.nextHandle ⟨hbusy, hidle⟩
    · rw [hself, SessionState.armed, if_neg]
      · rfl
      · rintro (hno | hsome)
        · rw [hbeat] at hno
          cases hno
        · rw [show (m.objects o).heartbeatTimer = none from hnone] at hsome
          cases hsome
    · exact Fresh.of_eq h.sessions h.nextObject
  · rename_i hc
    refine ⟨rfl, rfl, fun t ht => ⟨rfl, fun hready => ?_⟩, ⟨[], rfl, .rest⟩, fun _ hbeats hactive => ?_,
      Fresh.of_eq rfl rfl⟩
    · obtain ⟨p, hp, hmem⟩ := hready
      exact ⟨p, hp, hothers t p (fun he => ht (congrArg Prod.fst he)) hmem⟩
    · replace hactive : (m.state sid).Active := hactive
      rcases hbeats hactive with hsome | ⟨p, hp, hmem⟩
      · exact Or.inl hsome
      · by_cases hpo : p = o
        · -- the session's own state: not re-armed, so its heartbeat is armed
          rw [hpo] at hp
          have ho := hg.held hp
          rw [ho.state] at hactive
          refine Or.inl ?_
          show (m.state sid).heartbeatTimer.isSome = true
          rw [ho.state]
          by_contra hnone
          exact hc ⟨hp, hactive.1, hactive.2, Option.not_isSome_iff_eq_none.mp hnone⟩
        · exact Or.inr ⟨p, hp, hothers sid p (fun he => hpo (congrArg Prod.snd he)) hmem⟩

theorem same_flushes (m : Machine) (l : List Nat) : Same m { m with flushes := l } :=
  ⟨rfl, rfl, rfl, fun _ => rfl, fun _ h => h, Fresh.of_eq rfl rfl⟩

theorem step_flushNext {m : Machine} (hg : Good O m) (i : Nat) : ∃ sid, Turned O m (m.flushNext i) sid := by
  unfold Machine.flushNext
  cases m.flushes[i]? with
  | none => exact ⟨[], (same_flushes m m.flushes).turned []⟩
  | some cursor =>
    dsimp only
    cases hfind : m.sessions.entries.find? fun e => cursor ≤ e.2 with
    | none => exact ⟨[], (same_flushes m _).turned []⟩
    | some e =>
      obtain ⟨sid, o⟩ := e
      have hs : m.sessions.get sid = some o := OMap.get_eq_some.mpr (List.mem_of_find?_eq_some hfind)
      have ho := hg.held hs
      refine ⟨sid, ?_⟩
      dsimp only
      split
      · rename_i hidle
        have hsent := ((hg.fits sid o hs).pending hidle).1
        have h : Local m o ({ m with flushes := m.flushes.set i (o + 1) } : Machine) (m.objects o) [] :=
          ⟨rfl, rfl, fun _ h => h, rfl, rfl, rfl, fun _ _ => rfl, rfl⟩
        refine ((h.clearIdleTimer.log (.flushed sid)).completePendingIdle sid hsent).turned ho ?_
          fun _ _ hactive => absurd hactive.1 nofun
        rw [ho.state]
        exact .completed true hidle hsent
      · exact (same_flushes m _).turned sid

theorem step_disposeSession {m : Machine} (hg : Good O m) (sid : JsString) : Turned O m (m.disposeSession sid) sid := by
  -- clearing the timers of the state it has changes nothing that the others see
  have hdelete : ∀ m' : Machine, m'.sessions = m.sessions → m'.nextObject = m.nextObject → m'.ticking = m.ticking →
      m'.nowMs = m.nowMs → m'.time = m.time → m'.trace = m.trace →
      (∀ s p, s ≠ sid → m.sessions.get s = some p → m'.objects p = m.objects p) →
      Turned O m (({ m' with sessions := m'.sessions.delete sid } : Machine).log (.disposed sid)) sid := by
    intro m' hsessions hnext hticking hnow htime htrace hobjects
    rw [hsessions]
    have hnew : Machine.state (({ m' with sessions := m.sessions.delete sid } : Machine).log (.disposed sid)) sid =
      .new :=
      state_of_none (OMap.get_delete_self m.sessions sid)
    refine ⟨hnow, htime, fun s hs => ⟨?_, fun ⟨p, hp, hmem⟩ => ⟨p, ?_, ?_⟩⟩, ⟨[.disposed sid], ?_, ?_⟩,
      fun _ _ hactive => ?_, ?_⟩
    · unfold Machine.state
      rw [log_sessions, log_objects, OMap.get_delete_ne _ hs]
      cases hp : m.sessions.get s with
      | none => rfl
      | some p => exact hobjects s p hs hp
    · rw [log_sessions, OMap.get_delete_ne _ hs]
      exact hp
    · exact hticking ▸ hmem
    · exact congrArg (Entry.disposed sid :: ·) htrace
    · rw [hnew]
      exact .disposed
    · rw [hnew] at hactive
      cases hactive.1
    · refine ⟨Nat.le_of_eq hnext.symm, fun s p hp => Or.inl ?_⟩
      rw [log_sessions, OMap.get_delete] at hp
      split at hp
      · cases hp
      · exact hp
  unfold Machine.disposeSession
  cases hs : m.sessions.get sid with
  | none => exact hdelete m rfl rfl rfl rfl rfl rfl fun _ _ _ _ => rfl
  | some o =>
    have h := ((Local.refl m o).clearIdleTimer).clearHeartbeat
    have hticking : ((m.clearIdleTimer o).clearHeartbeat o).ticking = m.ticking := by
      unfold clearHeartbeat clearIdleTimer
      split <;> split <;> rfl
    refine hdelete _ h.sessions h.nextObject hticking h.now h.time h.trace fun s p hne hp => ?_
    exact h.others p fun he => hne ((hg.held hs).only s (he ▸ hp))

theorem turns_disposeAll {m : Machine} (hg : Good O m) (ks : List JsString) :
    Turns O m (ks.foldl disposeSession m) := by
  induction ks generalizing m with
  | nil => exact .refl
  | cons sid ks ih => exact .head ⟨sid, step_disposeSession hg sid⟩ (ih (hg.disposeSession sid))

/-- At the event's times, one session after another takes a turn. -/
theorem step_turns {m : Machine} (hg : Good O m) (ha : Armed m) (e : MachineEvent) :
    Turns O { m with nowMs := e.nowMs, time := max m.time e.time } (m.step O e) := by
  replace hg : Good O { m with nowMs := e.nowMs, time := max m.time e.time } :=
    hg.quiet ⟨rfl, rfl, fun _ => rfl, fun _ => rfl, fun _ => rfl, fun _ _ h _ => h, [], rfl, by simp⟩
  replace ha : Armed { m with nowMs := e.nowMs, time := max m.time e.time } := ⟨ha.made, ha.kept⟩
  unfold Machine.step
  generalize ({ m with nowMs := e.nowMs, time := max m.time e.time } : Machine) = m at hg ha ⊢
  cases e.op with
  | signal sid x => exact .single ⟨sid, step_signal hg sid x⟩
  | fire k => exact .single (step_fire hg ha k)
  | ticked i => exact .single (step_ticked hg i)
  | flushPendingCompletions => exact .single ⟨[], (same_flushes m _).turned []⟩
  | flushNext i => exact .single (step_flushNext hg i)
  | disposeSession sid => exact .single ⟨sid, step_disposeSession hg sid⟩
  | disposeAll => exact turns_disposeAll hg m.sessions.keys

theorem Armed.step {m : Machine} (h : Armed m) (e : MachineEvent) : Armed (m.step O e) := by
  replace h : Armed { m with nowMs := e.nowMs, time := max m.time e.time } := ⟨h.made, h.kept⟩
  unfold Machine.step
  generalize ({ m with nowMs := e.nowMs, time := max m.time e.time } : Machine) = m at h ⊢
  cases e.op with
  | signal sid x => exact h.signal sid x
  | fire k => exact h.fire k
  | ticked i => exact h.ticked i
  | flushPendingCompletions => exact ⟨h.made, h.kept⟩
  | flushNext i => exact h.flushNext i
  | disposeSession sid => exact h.disposeSession sid
  | disposeAll =>
    show Armed (m.sessions.keys.foldl Machine.disposeSession m)
    generalize m.sessions.keys = ks
    induction ks generalizing m with
    | nil => exact h
    | cons sid ks ih => exact ih _ (h.disposeSession sid)

/-! ## Runs -/

/-- A turn is about its session. -/
theorem Turn.about {now time : Nat} {sid : JsString} {s s' : SessionState} {es : List Entry}
    (h : Turn O now time sid s es s') : ∀ e ∈ es, e.sessionID = sid := by
  have hopening : ∀ e ∈ opening sid s, e.sessionID = sid := by
    unfold opening
    split <;> simp
  intro e he
  cases h with
  | busy | retry =>
    rcases List.mem_append.mp he with he | he
    · exact hopening e he
    · rw [List.mem_singleton.mp he]
      rfl
  | provider =>
    rcases List.mem_cons.mp he with rfl | he
    · rfl
    rcases List.mem_append.mp he with he | he
    · exact hopening e he
    · rw [List.mem_singleton.mp he]
      rfl
  | ended =>
    rcases List.mem_append.mp he with he | he
    · split at he
      · cases he
      · rw [List.mem_singleton.mp he]
        rfl
    · rw [List.mem_singleton.mp he]
      rfl
  | completed flushed =>
    rcases List.mem_cons.mp he with rfl | he
    · rfl
    · cases flushed with
      | false => cases he
      | true =>
        rw [List.mem_singleton.mp he]
        rfl
  | asked | resolved =>
    rcases List.mem_cons.mp he with rfl | he
    · rfl
    · rw [List.mem_singleton.mp he]
      rfl
  | rest | stopped | rearmed => cases he
  | idle | repeated | unknown | beat | disposed =>
    rw [List.mem_singleton.mp he]
    rfl

variable (O) in
/-- The machine after one more event, and its trace with what the clock read at each entry. -/
def clockedStep (p : Machine × List (Nat × Entry)) (e : MachineEvent) : Machine × List (Nat × Entry) :=
  let m := p.1.step O e
  (m, (m.trace.take (m.trace.length - p.1.trace.length)).map (e.nowMs, ·) ++ p.2)

variable (O) in
/-- What a run logs and when, newest first. -/
def clocked (es : List MachineEvent) : List (Nat × Entry) := (runFrom (clockedStep O) (.init, []) es).2

variable (O) in
/-- What the turns of a session, and the entries of the others, keep of its state and the history. -/
structure Kept (sid : JsString) (I : List (Nat × Entry) → SessionState → Prop) : Prop where
  other : ∀ t s now e, e.sessionID ≠ sid → I t s → I ((now, e) :: t) s
  turn : ∀ now time t s es s', Turn O now time sid s es s' → I t s → I (es.map (now, ·) ++ t) s'

theorem Kept.turned {sid : JsString} {I : List (Nat × Entry) → SessionState → Prop} (h : Kept O sid I) {m m' : Machine}
    {sid' : JsString} (ht : Turned O m m' sid') :
    ∃ es, m'.trace = es ++ m.trace ∧ ∀ t, I t (m.state sid) → I (es.map (m.nowMs, ·) ++ t) (m'.state sid) := by
  obtain ⟨es, he, hturn⟩ := ht.turn
  refine ⟨es, he, fun t hI => ?_⟩
  by_cases hsid : sid = sid'
  · subst hsid
    exact h.turn _ _ t _ es _ hturn hI
  · rw [(ht.others sid hsid).1]
    have habout := hturn.about
    clear hturn he
    induction es with
    | nil => exact hI
    | cons e es ih =>
      refine h.other _ _ _ e ?_ (ih fun x hx => habout x (List.mem_cons_of_mem _ hx))
      rw [habout e List.mem_cons_self]
      exact Ne.symm hsid

theorem Kept.turns {sid : JsString} {I : List (Nat × Entry) → SessionState → Prop} (h : Kept O sid I) {m m' : Machine}
    (ht : Turns O m m') : m'.nowMs = m.nowMs ∧ ∃ es, m'.trace = es ++ m.trace ∧
      ∀ t, I t (m.state sid) → I (es.map (m.nowMs, ·) ++ t) (m'.state sid) := by
  induction ht with
  | refl => exact ⟨rfl, [], rfl, fun _ hI => hI⟩
  | tail _ hturn ih =>
    obtain ⟨sid', hturn⟩ := hturn
    obtain ⟨hnow, es, he, hI⟩ := ih
    obtain ⟨fs, hf, hI'⟩ := h.turned hturn
    refine ⟨hturn.now.trans hnow, fs ++ es, by rw [hf, he, List.append_assoc], fun t ht => ?_⟩
    rw [List.map_append, List.append_assoc, ← hnow]
    exact hI' _ (hnow ▸ hI t ht)

theorem runFrom_clockedStep (p : Machine × List (Nat × Entry)) (es : List MachineEvent) :
    (runFrom (clockedStep O) p es).1 = runFrom (Machine.step O) p.1 es := by
  induction es generalizing p with
  | nil => rfl
  | cons e es ih => exact ih (clockedStep O p e)

theorem clockedStep_spec {m : Machine} (hg : Good O m) (ha : Armed m) (t : List (Nat × Entry)) (e : MachineEvent) :
    ∃ fs, (m.step O e).trace = fs ++ m.trace ∧ (clockedStep O (m, t) e).2 = fs.map (e.nowMs, ·) ++ t ∧
      ∀ sid I, Kept O sid I → I t (m.state sid) → I (fs.map (e.nowMs, ·) ++ t) ((m.step O e).state sid) := by
  have hturns := step_turns hg ha e
  have hkept : Kept O [] fun _ _ => True := ⟨fun _ _ _ _ _ _ => trivial, fun _ _ _ _ _ _ _ _ => trivial⟩
  obtain ⟨-, fs, hf, -⟩ := hkept.turns hturns
  refine ⟨fs, hf, ?_, fun sid I hI ht => ?_⟩
  · show ((m.step O e).trace.take ((m.step O e).trace.length - m.trace.length)).map _ ++ t = _
    rw [hf]
    show (List.take ((fs ++ m.trace).length - m.trace.length) (fs ++ m.trace)).map _ ++ t = _
    rw [List.length_append, Nat.add_sub_cancel, List.take_left' rfl]
  · obtain ⟨-, fs', hf', hI'⟩ := hI.turns hturns
    rw [List.append_cancel_right (hf.symm.trans hf')]
    exact hI' t ht

theorem clocked_inv {I : Machine → List (Nat × Entry) → Prop} (h0 : I .init [])
    (hstep : ∀ m t e, Good O m → Armed m → I m t → I (m.step O e) (clockedStep O (m, t) e).2) (es : List MachineEvent) :
    I (run O es) (clocked O es) := by
  have h : ∀ p : Machine × List (Nat × Entry), (Good O p.1 ∧ Armed p.1 ∧ I p.1 p.2) → ∀ e,
      Good O (clockedStep O p e).1 ∧ Armed (clockedStep O p e).1 ∧ I (clockedStep O p e).1 (clockedStep O p e).2 :=
    fun p ⟨hg, ha, hI⟩ e => ⟨hg.step e, ha.step e, hstep p.1 p.2 e hg ha hI⟩
  have hrun := @runFrom_inv _ _ (clockedStep O) _ (fun p e hp => h p hp e) (.init, []) ⟨Good.init, Armed.init, h0⟩ es
  rw [runFrom_clockedStep] at hrun
  exact hrun.2.2

/-- The history without its clock is the trace. -/
theorem clocked_map (es : List MachineEvent) : (clocked O es).map Prod.snd = (run O es).trace := by
  refine clocked_inv (I := fun m t => t.map Prod.snd = m.trace) rfl (fun m t e hg ha ht => ?_) es
  obtain ⟨fs, hf, hnew, -⟩ := clockedStep_spec hg ha t e
  rw [hnew, hf, List.map_append, List.map_map, ht]
  exact congrArg (· ++ m.trace) (List.map_id fs)

theorem Kept.run {sid : JsString} {I : List (Nat × Entry) → SessionState → Prop} (h : Kept O sid I) (h0 : I [] .new)
    (es : List MachineEvent) : I (clocked O es) ((run O es).state sid) := by
  refine clocked_inv (I := fun m t => I t (m.state sid)) h0 (fun m t e hg ha ht => ?_) es
  obtain ⟨fs, -, hnew, hI⟩ := clockedStep_spec hg ha t e
  rw [hnew]
  exact hI sid I h ht

end NotifyHub.Plugin
