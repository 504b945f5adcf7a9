/-
  NotifyHub.Plugin.Pipeline — the plugin's event pipeline (packages/plugin/src/index.ts):
  the hook `onEvent` with the registry's `isMain` and lookups under it, the dispatch to
  the message cache and the session machine, and what their callbacks hand to the pump.

  Promises. The microtask queue is `jobs`: an event that waits for `isMain` goes on as a
  job, in the order the promises were settled, and so does each `async` function under
  it. Events, SDK answers, discovery, timers and disposal come at any time, also between
  two jobs.

  - A session whose ancestry is cached settles `isMain` at once (`resume`).
  - The first miss starts a lookup and awaits it (`owner`); a later one returns the
    promise of the one in flight, which takes the job that adopts it (`thenable`) and,
    once it is settled, one more (`adopt`).
  - The lookup awaits the SDK call (`asking`), then goes on with its answer (`resolved`).

  The machine's callbacks enqueue and return, so a heartbeat tick re-arms at once, and a
  flush runs to its end. The control channel is left out: what it does here is to be
  started, stopped and looked for.
-/

import NotifyHub.Plugin.MessageCache
import NotifyHub.Plugin.SessionRegistry
import NotifyHub.Plugin.StateMachine

namespace NotifyHub.Plugin

/-- What a callback of the machine hands to the pump. -/
structure Notification where
  effect : Effect
  title : Option JsString
  summary : Option JsString
  deriving DecidableEq

inductive LookupStatus where
  | asking
  | answered
  /-- `resolve` has returned. -/
  | settled (main : Option Bool)
  deriving DecidableEq

/-- An in-flight `resolve`, with what waits for its promise. -/
structure Lookup where
  sessionID : JsString
  /-- The event that started it. -/
  owner : Nat
  /-- The events that returned its promise, in the order they attached to it. -/
  waiters : List Nat
  status : LookupStatus

inductive Job where
  | resolved (lookup : Nat) (parentID : Option (Option JsString))
  | owner (lookup : Nat) (main : Option Bool)
  | thenable (event lookup : Nat)
  | adopt (event : Nat) (main : Option Bool)
  | resume (event : Nat) (main : Option Bool)
  deriving DecidableEq

structure PipelineOptions where
  machine : MachineOptions
  bounds : CacheBounds
  directory : JsString

structure Pipeline where
  disposed : Bool
  registry : SessionRegistry
  inflight : OMap JsString Nat
  lookups : List Lookup
  /-- The events that came to the main-session gate, in the order they were received. -/
  events : List NormalizedEvent
  jobs : List Job
  cache : MessageCache
  machine : Machine
  outbox : List Notification
  /-- Ghost: the events dispatched, in order. -/
  dispatched : List Nat

def Pipeline.init : Pipeline := ⟨false, .empty, .empty, [], [], [], .empty, .init, [], []⟩

def NormalizedEvent.sessionID : NormalizedEvent → Option JsString
  | session _ s _ _ _ _ | status s _ _ | message s _ _ _ | messageText s _ _ _ => some s
  | questionAsked s _ _ | questionResolved s _ | permissionAsked s _ _ _ | permissionResolved s _ => some s
  | error s _ => s

def Effect.sessionID : Effect → JsString
  | terminal s _ _ | heartbeat s _ _ | actionRequired s _ _ | actionResolved s _ _ => s

/-- What the machine's callbacks were called with between two states, in order. -/
def newEffects (m m' : Machine) : List Effect :=
  ((m'.trace.take (m'.trace.length - m.trace.length)).filterMap fun e =>
    match e with | .effect e _ => some e | _ => none).reverse

variable (O : PipelineOptions)

namespace Pipeline

/-- A callback: `emit`, or `emitTerminal`, which clears the session's cache. -/
def deliver (p : Pipeline) (e : Effect) : Pipeline :=
  let title := p.registry.title e.sessionID
  match e with
  | .terminal sessionID .. =>
    { p with outbox := p.outbox ++ [⟨e, title, p.cache.summary sessionID⟩], cache := p.cache.clearSession sessionID }
  | _ => { p with outbox := p.outbox ++ [⟨e, title, none⟩] }

/-- Call the machine. -/
def call (p : Pipeline) (f : Machine → Machine) : Pipeline :=
  (newEffects p.machine (f p.machine)).foldl deliver { p with machine := f p.machine }

def signals (p : Pipeline) (sessionID : JsString) (x : Signal) : Pipeline :=
  p.call fun m => m.signal O.machine sessionID x

def outcomeSignal : ErrorOutcome → Signal
  | .stopped => .stopped
  | .failed => .failed

/-- `dispatch`: route one normalized main-session event. -/
def dispatch (p : Pipeline) : NormalizedEvent → Pipeline
  | .session .. => p
  | .status sessionID .busy _ => p.signals O sessionID .busy
  | .status sessionID .retry action => p.signals O sessionID (.retry action)
  | .status sessionID .idle _ => p.signals O sessionID .idle
  | .error none _ => p
  | .error (some sessionID) outcome => p.signals O sessionID (outcomeSignal outcome)
  | .message sessionID messageID role outcome =>
    let p := { p with cache := p.cache.onRole O.bounds sessionID messageID role }
    match outcome with
    | some outcome => p.signals O sessionID (outcomeSignal outcome)
    | none => p
  | .messageText sessionID messageID _ text =>
    { p with cache := p.cache.onText O.bounds sessionID messageID text }
  | .questionAsked sessionID requestID questions => p.signals O sessionID (.questionAsked requestID questions)
  | .questionResolved sessionID requestID => p.signals O sessionID (.questionResolved requestID)
  | .permissionAsked sessionID requestID permission summary =>
    p.signals O sessionID (.permissionAsked requestID permission summary)
  | .permissionResolved sessionID requestID => p.signals O sessionID (.permissionResolved requestID)

/-! ## The hook -/

def lookup (p : Pipeline) (l : Nat) : Option Lookup := p.lookups[l]?

def enqueue (p : Pipeline) (jobs : List Job) : Pipeline := { p with jobs := p.jobs ++ jobs }

/-- `isMain` for an event, up to where it waits. -/
def isMain (p : Pipeline) (event : Nat) (sessionID : JsString) : Pipeline :=
  match p.registry.known sessionID, p.inflight.get sessionID with
  | some main, _ => p.enqueue [.resume event (some main)]
  | none, some l => p.enqueue [.thenable event l]
  | none, none =>
    { p with
      lookups := p.lookups ++ [⟨sessionID, event, [], .asking⟩]
      inflight := p.inflight.set sessionID p.lookups.length }

/-- Session info from an event. -/
def upsert (p : Pipeline) (deleted : Bool) (sessionID : JsString) (parentID : Option JsString) (title : JsString)
    (directory : Option JsString) (archived : Bool) : Pipeline :=
  if directory.any (· ≠ O.directory) then p
  else
    let p := { p with registry := p.registry.update ⟨sessionID, parentID, some title, deleted || archived⟩ }
    if p.registry.excluded sessionID then
      let p := p.call fun m => m.disposeSession sessionID
      { p with cache := p.cache.clearSession sessionID }
    else p

def onEvent (p : Pipeline) (e : NormalizedEvent) : Pipeline :=
  if p.disposed then p
  else
    match e with
    | .session deleted sessionID parentID title directory archived =>
      p.upsert O deleted sessionID parentID title directory archived
    | e =>
      match e.sessionID with
      | none => p
      | some sessionID => { p with events := p.events ++ [e] }.isMain p.events.length sessionID

/-- `onEvent` goes on with what `isMain` said. -/
def resume (p : Pipeline) (event : Nat) (main : Option Bool) : Pipeline :=
  match p.events[event]? with
  | none => p
  | some e =>
    if main ≠ some true ∨ p.disposed = true ∨ e.sessionID.any p.registry.excluded = true then p
    else { p with dispatched := p.dispatched ++ [event] }.dispatch O e

/-! ## Lookups -/

/-- The SDK call of a lookup settles, and `getParentID` goes on. -/
def answer (p : Pipeline) (l : Nat) (result : SdkResult) : Pipeline :=
  match p.lookup l with
  | some ⟨sessionID, owner, waiters, .asking⟩ =>
    let session :=
      match result with
      | .rejected => none
      | .resolved response => lookupSession sessionID response
    let p := { p with lookups := p.lookups.set l ⟨sessionID, owner, waiters, .answered⟩ }
    match session with
    | none => p.enqueue [.resolved l none]
    | some info =>
      { p with registry := p.registry.updateFromLookup info }.enqueue [.resolved l (some info.parentID)]
  | _ => p

/-- Run a job. -/
def perform (p : Pipeline) : Job → Pipeline
  | .resolved l parentID =>
    match p.lookup l with
    | some ⟨sessionID, owner, waiters, .answered⟩ =>
      let (registry, main) := p.registry.resolve sessionID parentID
      { p with
        registry
        lookups := p.lookups.set l ⟨sessionID, owner, waiters, .settled main⟩ }.enqueue
        (.owner l main :: waiters.map (.adopt · main))
    | _ => p
  | .owner l main =>
    match p.lookup l with
    | some lookup =>
      { p with inflight := p.inflight.delete lookup.sessionID }.enqueue [.resume lookup.owner main]
    | none => p
  | .thenable event l =>
    match p.lookup l with
    | some ⟨sessionID, owner, waiters, status⟩ =>
      match status with
      | .settled main => p.enqueue [.adopt event main]
      | _ => { p with lookups := p.lookups.set l ⟨sessionID, owner, waiters ++ [event], status⟩ }
    | none => p
  | .adopt event main => p.enqueue [.resume event main]
  | .resume event main => p.resume O event main

def runJob (p : Pipeline) : Pipeline :=
  match p.jobs with
  | [] => p
  | job :: jobs => { p with jobs }.perform O job

/-- `discoverRemoteEntry` reads a page of sessions. -/
def discovered (p : Pipeline) (sessions : List SessionInfo) : Pipeline :=
  if p.disposed then p
  else { p with registry := sessions.foldl SessionRegistry.updateFromLookup p.registry }

/-! ## Timers and disposal -/

/-- A timer of the machine fires; the heartbeat callback returns at once. -/
def timer (p : Pipeline) (h : Nat) : Pipeline := p.call fun m => (m.fire O.machine h).ticked O.machine 0

/-- `flushPendingCompletions` to its end: one turn an entry, and one to find none left. -/
def flush (m : Machine) : Machine :=
  (List.range (m.sessions.size + 1)).foldl (fun m _ => m.flushNext 0) m.flushPendingCompletions

/-- `dispose`, once the control channel has stopped. -/
def disposeAll (p : Pipeline) : Pipeline :=
  if p.disposed then { (p.call flush).call Machine.disposeAll with cache := .empty } else p

end Pipeline

inductive PipelineOp where
  | receive (e : NormalizedEvent)
  | answer (lookup : Nat) (result : SdkResult)
  | runJob
  | discovered (sessions : List SessionInfo)
  | timer (handle : Nat)
  | dispose
  | disposeAll

/-- What happens, what the clock reads then, and the scheduler's time. -/
structure PipelineEvent where
  nowMs : Nat
  time : Nat
  op : PipelineOp

namespace Pipeline

def apply (p : Pipeline) : PipelineOp → Pipeline
  | .receive e => p.onEvent O e
  | .answer l result => p.answer l result
  | .runJob => p.runJob O
  | .discovered sessions => p.discovered sessions
  | .timer h => p.timer O h
  | .dispose => { p with disposed := true }
  | .disposeAll => p.disposeAll

/-- The machine's clocks move on. -/
def tick (p : Pipeline) (e : PipelineEvent) : Pipeline :=
  { p with machine := { p.machine with nowMs := e.nowMs, time := max p.machine.time e.time } }

def step (p : Pipeline) (e : PipelineEvent) : Pipeline := (p.tick e).apply O e.op

abbrev run (es : List PipelineEvent) : Pipeline := runFrom (step O) .init es

end Pipeline

end NotifyHub.Plugin
