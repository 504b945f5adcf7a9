/-
  NotifyHub.Plugin.StateMachine — `SessionMachine` (packages/plugin/src/state-machine.ts).

  Objects. A `SessionState` is an object that timers and a running heartbeat tick keep
  hold of after `sessions` has dropped it, so states live under object ids (`objects`),
  each created once, and `sessions` names the current one.

  Callbacks. A callback may call the machine again. Each is the last thing its call
  does, so what it calls is simply the next event, with two exceptions: a heartbeat tick
  re-arms after its callback (`ticking`), and a flush goes on with the next entry of the
  map (`flushes`, the object id each running flush has come to: entries are in the order
  their objects were created).

  Time. `nowMs` is what `scheduler.now()` reads and may go back; `time` is the
  scheduler's own, which does not. A timer fires at any time from when it is due, unless
  it was cleared.

  The trace, newest first, holds what the callbacks were called with, and, as ghosts,
  what the machine was given and where a round opened, a state was disposed, or a flush
  took a pending completion.
-/

import NotifyHub.Lib.OMap
import NotifyHub.Lib.Run
import NotifyHub.Plugin.Events

namespace NotifyHub.Plugin

/-- Terminal outcomes in ascending priority. -/
inductive TerminalOutcome where
  | completed
  | failed
  | stopped
  deriving DecidableEq

def TerminalOutcome.rank : TerminalOutcome → Nat
  | .completed => 1
  | .failed => 2
  | .stopped => 3

inductive PendingActionKind where
  | question
  | permission
  | providerAction
  deriving DecidableEq

structure SessionState where
  status : SessionStatus
  /-- When the round's first busy came; none between rounds. -/
  busySince : Option Nat
  idleTimer : Option Nat
  /-- The elapsed time frozen at the first idle of the debounce window. -/
  pendingElapsedMs : Option Nat
  heartbeatTimer : Option Nat
  terminalSent : Bool
  terminalOutcome : Option TerminalOutcome
  pendingActions : OMap JsString PendingActionKind

def SessionState.new : SessionState := ⟨.idle, none, none, none, none, false, none, .empty⟩

inductive Signal where
  | busy
  | retry (action : Option RetryActionInfo)
  | idle
  | failed
  | stopped
  | questionAsked (requestID : JsString) (questions : List NormalizedQuestion)
  | permissionAsked (requestID permission summary : JsString)
  | questionResolved (requestID : JsString)
  | permissionResolved (requestID : JsString)
  deriving DecidableEq

/-- The body of a `SessionActionRequired`. -/
inductive ActionDetails where
  | question (questions : List NormalizedQuestion)
  | permission (permission summary : JsString)
  | providerAction (provider title message label : JsString) (link : Option JsString)
  deriving DecidableEq

/-- A callback and what it is called with. -/
inductive Effect where
  | terminal (sessionID : JsString) (outcome : TerminalOutcome) (elapsedMs : Nat)
  | heartbeat (sessionID : JsString) (status : SessionStatus) (elapsedMs : Nat)
  | actionRequired (sessionID requestId : JsString) (details : ActionDetails)
  | actionResolved (sessionID requestId : JsString) (kind : PendingActionKind)
  deriving DecidableEq

inductive Entry where
  | effect (e : Effect) (time : Nat)
  | received (sessionID : JsString) (signal : Signal) (time : Nat)
  | opened (sessionID : JsString)
  | disposed (sessionID : JsString)
  | flushed (sessionID : JsString)
  deriving DecidableEq

inductive TimerKind where
  | debounce
  | heartbeat
  deriving DecidableEq

/-- An armed timer, with what its callback closes over. -/
structure Timer where
  sessionID : JsString
  object : Nat
  kind : TimerKind
  due : Nat
  deriving DecidableEq

/-- `SessionMachineOptions`, and the digest `createHash` computes. -/
structure MachineOptions where
  idleDebounceMs : Nat
  heartbeatMs : Nat
  /-- `onHeartbeat` is set. -/
  heartbeat : Bool
  /-- SHA-256, in hex, of the JSON text of an array of strings. -/
  digest : List JsString → JsString

structure Machine where
  nowMs : Nat
  time : Nat
  objects : Nat → SessionState
  sessions : OMap JsString Nat
  nextObject : Nat
  timers : OMap Nat Timer
  nextHandle : Nat
  /-- The heartbeat ticks inside their callback: session and captured state. -/
  ticking : List (JsString × Nat)
  flushes : List Nat
  trace : List Entry

def Machine.init : Machine := ⟨0, 0, fun _ => .new, .empty, 0, .empty, 0, [], [], []⟩

variable (O : MachineOptions)

namespace Machine

def log (m : Machine) (e : Entry) : Machine := { m with trace := e :: m.trace }

def emit (m : Machine) (e : Effect) : Machine := m.log (.effect e m.time)

/-- Write to a state object. -/
def modify (m : Machine) (o : Nat) (f : SessionState → SessionState) : Machine :=
  { m with objects := fun p => if p = o then f (m.objects o) else m.objects p }

def clearTimeout (m : Machine) (h : Nat) : Machine := { m with timers := m.timers.delete h }

def setTimeout (m : Machine) (sessionID : JsString) (o : Nat) (kind : TimerKind) (delayMs : Nat) : Machine :=
  { m with timers := m.timers.set m.nextHandle ⟨sessionID, o, kind, m.time + delayMs⟩, nextHandle := m.nextHandle + 1 }

def stateFor (m : Machine) (sessionID : JsString) : Machine × Nat :=
  match m.sessions.get sessionID with
  | some o => (m, o)
  | none =>
    ({ m.modify m.nextObject fun _ => .new with
        sessions := m.sessions.set sessionID m.nextObject
        nextObject := m.nextObject + 1 }, m.nextObject)

/-! ## Timers of a state -/

def clearIdleTimer (m : Machine) (o : Nat) : Machine :=
  match (m.objects o).idleTimer with
  | some h => (m.clearTimeout h).modify o fun s => { s with idleTimer := none }
  | none => m

def clearHeartbeat (m : Machine) (o : Nat) : Machine :=
  match (m.objects o).heartbeatTimer with
  | some h => (m.clearTimeout h).modify o fun s => { s with heartbeatTimer := none }
  | none => m

def armHeartbeat (m : Machine) (sessionID : JsString) (o : Nat) : Machine :=
  if O.heartbeat = false ∨ (m.objects o).heartbeatTimer.isSome then m
  else (m.setTimeout sessionID o .heartbeat O.heartbeatMs).modify o fun s =>
    { s with heartbeatTimer := some m.nextHandle }

section
variable (m : Machine)

@[simp] theorem log_sessions (e : Entry) : (m.log e).sessions = m.sessions := rfl
@[simp] theorem log_objects (e : Entry) : (m.log e).objects = m.objects := rfl
@[simp] theorem log_nextObject (e : Entry) : (m.log e).nextObject = m.nextObject := rfl
@[simp] theorem log_timers (e : Entry) : (m.log e).timers = m.timers := rfl
@[simp] theorem log_trace (e : Entry) : (m.log e).trace = e :: m.trace := rfl
@[simp] theorem log_time (e : Entry) : (m.log e).time = m.time := rfl

@[simp] theorem modify_sessions (o : Nat) (f : SessionState → SessionState) : (m.modify o f).sessions = m.sessions :=
  rfl
@[simp] theorem modify_nextObject (o : Nat) (f : SessionState → SessionState) :
    (m.modify o f).nextObject = m.nextObject := rfl
@[simp] theorem modify_timers (o : Nat) (f : SessionState → SessionState) : (m.modify o f).timers = m.timers := rfl
@[simp] theorem modify_trace (o : Nat) (f : SessionState → SessionState) : (m.modify o f).trace = m.trace := rfl
@[simp] theorem modify_time (o : Nat) (f : SessionState → SessionState) : (m.modify o f).time = m.time := rfl

@[simp] theorem modify_objects_self (o : Nat) (f : SessionState → SessionState) :
    (m.modify o f).objects o = f (m.objects o) := if_pos rfl

theorem modify_objects_ne {o p : Nat} (f : SessionState → SessionState) (h : p ≠ o) :
    (m.modify o f).objects p = m.objects p := if_neg h

@[simp] theorem setTimeout_sessions (sessionID : JsString) (o : Nat) (k : TimerKind) (delayMs : Nat) :
    (m.setTimeout sessionID o k delayMs).sessions = m.sessions := rfl
@[simp] theorem setTimeout_objects (sessionID : JsString) (o : Nat) (k : TimerKind) (delayMs : Nat) :
    (m.setTimeout sessionID o k delayMs).objects = m.objects := rfl
@[simp] theorem setTimeout_nextObject (sessionID : JsString) (o : Nat) (k : TimerKind) (delayMs : Nat) :
    (m.setTimeout sessionID o k delayMs).nextObject = m.nextObject := rfl
@[simp] theorem setTimeout_trace (sessionID : JsString) (o : Nat) (k : TimerKind) (delayMs : Nat) :
    (m.setTimeout sessionID o k delayMs).trace = m.trace := rfl

@[simp] theorem clearTimeout_sessions (h : Nat) : (m.clearTimeout h).sessions = m.sessions := rfl
@[simp] theorem clearTimeout_objects (h : Nat) : (m.clearTimeout h).objects = m.objects := rfl
@[simp] theorem clearTimeout_nextObject (h : Nat) : (m.clearTimeout h).nextObject = m.nextObject := rfl
@[simp] theorem clearTimeout_trace (h : Nat) : (m.clearTimeout h).trace = m.trace := rfl
@[simp] theorem clearTimeout_time (h : Nat) : (m.clearTimeout h).time = m.time := rfl

end

/-! ## Rounds -/

def onActive (m : Machine) (sessionID : JsString) (status : SessionStatus) : Machine :=
  let (m, o) := m.stateFor sessionID
  let m := (m.clearIdleTimer o).modify o fun s => { s with pendingElapsedMs := none }
  let m :=
    if (m.objects o).busySince.isSome then m
    else (m.log (.opened sessionID)).modify o fun s =>
      { s with busySince := some m.nowMs, terminalSent := false, terminalOutcome := none }
  (m.modify o fun s => { s with status }).armHeartbeat O sessionID o

/-- The round's elapsed time now. -/
def elapsedMs (m : Machine) (o : Nat) : Nat := ((m.objects o).busySince.map (m.nowMs - ·)).getD 0

def onIdle (m : Machine) (sessionID : JsString) : Machine :=
  let (m, o) := m.stateFor sessionID
  let m := (m.modify o fun s => { s with status := .idle }).clearHeartbeat o
  if (m.objects o).idleTimer.isSome ∨ (m.objects o).terminalSent = true then m
  else (m.setTimeout sessionID o .debounce O.idleDebounceMs).modify o fun s =>
    { s with pendingElapsedMs := some (m.elapsedMs o), idleTimer := some m.nextHandle }

/-- `completePendingIdle`; the elapsed time is read before the state is settled. -/
def completePendingIdle (m : Machine) (sessionID : JsString) (o : Nat) : Machine :=
  if (m.objects o).terminalSent then m
  else (m.modify o fun s =>
      { s with terminalSent := true, terminalOutcome := some .completed, busySince := none,
               pendingActions := .empty, pendingElapsedMs := none }).emit
    (.terminal sessionID .completed ((m.objects o).pendingElapsedMs.getD 0))

/-- The recorded outcome, once one more is signalled. -/
def raise (recorded : Option TerminalOutcome) (outcome : TerminalOutcome) : TerminalOutcome :=
  match recorded with
  | none => outcome
  | some r => if outcome.rank > r.rank then outcome else r

/-- `onTerminalSignal`, of `failed` or `stopped`. -/
def onTerminalSignal (m : Machine) (sessionID : JsString) (outcome : TerminalOutcome) : Machine :=
  let (m, o) := m.stateFor sessionID
  let elapsedMs := (m.objects o).pendingElapsedMs.getD (m.elapsedMs o)
  let m := ((m.clearIdleTimer o).modify o fun s => { s with pendingElapsedMs := none }).clearHeartbeat o
  let sent := (m.objects o).terminalSent
  let m := m.modify o fun s =>
    { s with busySince := none, status := .idle, pendingActions := .empty, terminalSent := true,
             terminalOutcome := some (raise s.terminalOutcome outcome) }
  if sent then m else m.emit (.terminal sessionID outcome elapsedMs)

/-! ## Actions -/

def requestKey (k : PendingActionKind) (requestID : JsString) : JsString :=
  (match k with | .question => js "question:" | .permission => js "permission:" | .providerAction => []) ++ requestID

/-- `onQuestionAsked` and `onPermissionAsked`: recorded before the callback. -/
def onAsked (m : Machine) (sessionID : JsString) (k : PendingActionKind) (requestID : JsString)
    (details : ActionDetails) :
    Machine :=
  let (m, o) := m.stateFor sessionID
  if (m.objects o).pendingActions.has (requestKey k requestID) then m
  else (m.modify o fun s => { s with pendingActions := s.pendingActions.set (requestKey k requestID) k }).emit
    (.actionRequired sessionID requestID details)

def onResolved (m : Machine) (sessionID : JsString) (k : PendingActionKind) (requestID : JsString) : Machine :=
  let (m, o) := m.stateFor sessionID
  if (m.objects o).pendingActions.get (requestKey k requestID) ≠ some k then m
  else (m.modify o fun s => { s with pendingActions := s.pendingActions.delete (requestKey k requestID) }).emit
    (.actionResolved sessionID requestID k)

def clearPendingProviderAction (m : Machine) (o : Nat) : Machine :=
  m.modify o fun s => { s with pendingActions := s.pendingActions.filter fun _ k => k ≠ .providerAction }

def providerActionKey (sessionID : JsString) (a : RetryActionInfo) : JsString :=
  js "provider:" ++ O.digest [sessionID, a.provider, a.reason.getD a.title, a.label]

def onProviderAction (m : Machine) (sessionID : JsString) (a : RetryActionInfo) : Machine :=
  let (m, o) := m.stateFor sessionID
  let requestId := providerActionKey O sessionID a
  if (m.objects o).pendingActions.get requestId = some .providerAction then m
  else
    ((m.clearPendingProviderAction o).modify o fun s =>
        { s with pendingActions := s.pendingActions.set requestId .providerAction }).emit
      (.actionRequired sessionID requestId (.providerAction a.provider a.title a.message a.label a.link))

/-! ## Signals -/

def onBusy (m : Machine) (sessionID : JsString) : Machine :=
  let (m, o) := (m.onActive O sessionID .busy).stateFor sessionID
  m.clearPendingProviderAction o

def onRetry (m : Machine) (sessionID : JsString) (action : Option RetryActionInfo) : Machine :=
  let m := m.onActive O sessionID .retry
  match action with
  | some a => m.onProviderAction O sessionID a
  | none => m

def signal (m : Machine) (sessionID : JsString) (x : Signal) : Machine :=
  let m := m.log (.received sessionID x m.time)
  match x with
  | .busy => m.onBusy O sessionID
  | .retry action => m.onRetry O sessionID action
  | .idle => m.onIdle O sessionID
  | .failed => m.onTerminalSignal sessionID .failed
  | .stopped => m.onTerminalSignal sessionID .stopped
  | .questionAsked requestID questions => m.onAsked sessionID .question requestID (.question questions)
  | .permissionAsked requestID permission summary =>
    m.onAsked sessionID .permission requestID (.permission permission summary)
  | .questionResolved requestID => m.onResolved sessionID .question requestID
  | .permissionResolved requestID => m.onResolved sessionID .permission requestID

/-! ## Timers, flushes, disposal -/

/-- `onHeartbeatTick`'s end: re-arm only for the session's own, still active state. -/
def rearm (m : Machine) (sessionID : JsString) (o : Nat) : Machine :=
  if m.sessions.get sessionID = some o ∧ (m.objects o).busySince.isSome ∧ (m.objects o).status ≠ .idle ∧
      (m.objects o).heartbeatTimer = none then m.armHeartbeat O sessionID o
  else m

/-- `onHeartbeatTick` up to its callback. -/
def onHeartbeatTick (m : Machine) (sessionID : JsString) (o : Nat) : Machine :=
  let m := m.modify o fun s => { s with heartbeatTimer := none }
  if (m.objects o).busySince.isSome ∧ (m.objects o).status ≠ .idle then
    { m.emit (.heartbeat sessionID (m.objects o).status (m.elapsedMs o)) with ticking := m.ticking ++ [(sessionID, o)] }
  else m.rearm O sessionID o

/-- A timer that is due fires. -/
def fire (m : Machine) (h : Nat) : Machine :=
  match (m.timers.get h).filter (·.due ≤ m.time) with
  | none => m
  | some t =>
    let m := m.clearTimeout h
    match t.kind with
    | .debounce => (m.modify t.object fun s => { s with idleTimer := none }).completePendingIdle t.sessionID t.object
    | .heartbeat => m.onHeartbeatTick O t.sessionID t.object

/-- The heartbeat callback of a tick returns. -/
def ticked (m : Machine) (i : Nat) : Machine :=
  match m.ticking[i]? with
  | none => m
  | some (sessionID, o) => ({ m with ticking := m.ticking.eraseIdx i } : Machine).rearm O sessionID o

def flushPendingCompletions (m : Machine) : Machine := { m with flushes := m.flushes ++ [0] }

/-- A flush comes to its next entry, or to its end. -/
def flushNext (m : Machine) (i : Nat) : Machine :=
  match m.flushes[i]? with
  | none => m
  | some cursor =>
    match m.sessions.entries.find? fun e => cursor ≤ e.2 with
    | none => { m with flushes := m.flushes.eraseIdx i }
    | some (sessionID, o) =>
      let m : Machine := { m with flushes := m.flushes.set i (o + 1) }
      if (m.objects o).idleTimer.isSome then
        ((m.clearIdleTimer o).log (.flushed sessionID)).completePendingIdle sessionID o
      else m

def disposeSession (m : Machine) (sessionID : JsString) : Machine :=
  let m :=
    match m.sessions.get sessionID with
    | some o => (m.clearIdleTimer o).clearHeartbeat o
    | none => m
  ({ m with sessions := m.sessions.delete sessionID } : Machine).log (.disposed sessionID)

def disposeAll (m : Machine) : Machine := m.sessions.keys.foldl disposeSession m

end Machine

inductive MachineOp where
  | signal (sessionID : JsString) (x : Signal)
  | fire (handle : Nat)
  | ticked (i : Nat)
  | flushPendingCompletions
  | flushNext (i : Nat)
  | disposeSession (sessionID : JsString)
  | disposeAll

/-- A call or a timer, what the clock reads during it, and the scheduler's time. -/
structure MachineEvent where
  nowMs : Nat
  time : Nat
  op : MachineOp

namespace Machine

def apply (m : Machine) : MachineOp → Machine
  | .signal sessionID x => m.signal O sessionID x
  | .fire h => m.fire O h
  | .ticked i => m.ticked O i
  | .flushPendingCompletions => m.flushPendingCompletions
  | .flushNext i => m.flushNext i
  | .disposeSession sessionID => m.disposeSession sessionID
  | .disposeAll => m.disposeAll

def step (m : Machine) (e : MachineEvent) : Machine :=
  ({ m with nowMs := e.nowMs, time := max m.time e.time } : Machine).apply O e.op

abbrev run (es : List MachineEvent) : Machine := runFrom (step O) .init es

end Machine

end NotifyHub.Plugin
