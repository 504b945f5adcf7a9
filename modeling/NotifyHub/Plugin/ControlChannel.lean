/-
  NotifyHub.Plugin.ControlChannel — the plugin's side of the control connection
  (packages/plugin/src/control-channel.ts).

  Sockets. A socket is named as the connection it becomes at the gateway. Connecting and
  reconnecting wait on a version probe and a backoff timer, so `connect` happens at any
  time the channel runs without a socket.

  Promises. An `async` function that waits is kept with what it goes on with: a
  collection (`Operation`) with its two list calls, an `answerSnapshot` with the collection
  it waits for, a command with the request it is about. Each goes on at any time after
  what it waits for, in any order; `listSettled` runs the adapter's continuation with it.

  Catalog, prompt and WebUI frames are answered with frames of their own types and leave
  this state alone; such a frame is sent at any time (`reply`).
-/

import NotifyHub.Plugin.PendingAdapter

namespace NotifyHub.Plugin

open Control

/-- `ControlChannelOptions` and the instance id, drawn once. -/
structure Options where
  instanceId : JsString
  machine : JsString
  project : JsString
  directory : JsString
  /-- The `listPendingInteractions` seam is set. -/
  lists : Bool

def Options.source (O : Options) : PendingSource := ⟨O.instanceId, O.machine, O.project, O.directory⟩

/-- One `runCollection`, and the `PendingAdapter.list` under it. -/
structure Operation where
  question : ListCall
  permission : ListCall
  timedOut : Bool
  result : Option (List PendingInteraction)
  /-- Ghost: the requests OpenCode had confirmed when the list calls were made. -/
  since : List JsString

/-- An `answerSnapshot` waiting for its collection. -/
structure SnapshotReply where
  socket : ConnId
  requestId : JsString
  operation : Nat

/-- An `answerCommand` or `decideCommand` waiting for OpenCode. -/
structure CommandReply where
  kind : CommandKind
  socket : ConnId
  commandId : JsString
  requestId : JsString

/-- A frame on its way to the gateway. -/
structure Frame where
  message : ClientMessage
  /-- Ghost: the collection a snapshot response was taken from. -/
  collection : Option Nat

structure Channel where
  running : Bool
  socket : Option ConnId
  registered : Bool
  collectionInFlight : Option Nat
  /-- The collections begun so far, oldest first. -/
  operations : List Operation
  snapshots : List SnapshotReply
  commands : List CommandReply
  firstObserved : OMap JsString JsString

def Channel.init : Channel := ⟨false, none, false, none, [], [], [], .empty⟩

/-- Frames the channel answers catalog, prompt and WebUI requests with. -/
def isReply : ClientMessage → Bool
  | .sessionPromptResult .. | .webUiResponse .. | .sessionCatalogResponse .. => true
  | _ => false

variable (O : Options)

namespace Channel

/-- `!this.running || this.socket !== socket`, the other way round. -/
def holds (ch : Channel) (c : ConnId) : Bool := ch.running && ch.socket == some c

/-! ## The connection -/

def start (ch : Channel) : Channel := { ch with running := true }

def stop (ch : Channel) : Channel := { ch with running := false, registered := false, socket := none }

/-- `drop`; the reconnect it schedules is a later `connect`. -/
def drop (ch : Channel) (c : ConnId) : Channel :=
  if ch.socket = some c then { ch with socket := none, registered := false } else ch

/-- `connect`, past its version probe. -/
def connect (ch : Channel) (c : ConnId) : Channel :=
  if ch.running = false ∨ ch.socket.isSome then ch else { ch with socket := some c, registered := false }

def registration (openCodeVersion : JsString) (webUiAvailable : Bool) : ClientMessage :=
  .register
    { instanceId := O.instanceId, machine := O.machine, project := O.project, directory := O.directory,
      openCodeVersion, webUiAvailable := some webUiAvailable, protocolVersion := 2 }

/-- The `open` listener; `thrown` when `socket.send` throws. -/
def opened (ch : Channel) (c : ConnId) (openCodeVersion : JsString) (webUiAvailable thrown : Bool) :
    Channel × Option (ConnId × Frame) :=
  if ch.holds c = false then (ch, none)
  else if thrown then (ch.drop c, none)
  else (ch, some (c, ⟨registration O openCodeVersion webUiAvailable, none⟩))

/-- The `close` listener: 4403 is a revoked key. -/
def closed (ch : Channel) (c : ConnId) (code : Option Nat) : Channel :=
  if code = some CONTROL_CLOSE_KEY_REVOKED then if ch.socket = some c then ch.stop else ch else ch.drop c

/-! ## Collections -/

/-- `runCollection` up to its first `await`. Without the seam no call is made, and none will answer. -/
def runCollection (since : List JsString) : Operation :=
  if O.lists then ⟨.waiting, .waiting, false, none, since⟩ else ⟨.rejected, .rejected, false, some [], since⟩

/-- `collectInteractions`: the collection in flight, or a new one. -/
def collectInteractions (since : List JsString) (ch : Channel) : Channel × Nat :=
  match ch.collectionInFlight with
  | some n => (ch, n)
  | none =>
    ({ ch with operations := ch.operations ++ [runCollection O since]
               collectionInFlight := some ch.operations.length }, ch.operations.length)

/-- The `finally` of a settled collection. -/
def cleared (ch : Channel) (n : Nat) : Channel :=
  if ch.operations[n]?.any (·.result.isSome) ∧ ch.collectionInFlight = some n then
    { ch with collectionInFlight := none }
  else ch

end Channel

namespace Operation

def call (op : Operation) : CommandKind → ListCall
  | .question => op.question
  | .permission => op.permission

def setCall (op : Operation) (k : CommandKind) (call : ListCall) : Operation :=
  { op with
    question := if k = .question then call else op.question
    permission := if k = .permission then call else op.permission }

/-- The race of `runCollection` is won once. -/
def settle (op : Operation) (l : List PendingInteraction) : Operation := { op with result := op.result <|> some l }

end Operation

/-- A list call once it has settled. -/
def settledCall : Option (Option Json) → ListCall
  | some response => .resolved response
  | none => .rejected

namespace Channel

def setOperation (ch : Channel) (n : Nat) (op : Operation) : Channel := { ch with operations := ch.operations.set n op }

/-- A list call of a collection settles: with a response, or with an exception. -/
def listSettled (ch : Channel) (n : Nat) (k : CommandKind) (response : Option (Option Json))
    (titleForSession : JsString → Option JsString) (nowIso : JsString) : Channel :=
  match ch.operations[n]? with
  | none => ch
  | some op =>
    match op.call k with
    | .waiting =>
      let op := op.setCall k (settledCall response)
      match list titleForSession O.source nowIso ch.firstObserved op.question op.permission with
      | none => ch.setOperation n op
      | some (firstObserved, l) => { ch.setOperation n (op.settle l) with firstObserved }
    | _ => ch

/-- The collection's timer, which a result clears. -/
def collectionTimeout (ch : Channel) (n : Nat) : Channel :=
  match ch.operations[n]? with
  | none => ch
  | some op => if op.result.isSome then ch else ch.setOperation n { op with timedOut := true, result := some [] }

/-! ## Frames of the gateway -/

/-- `answerSnapshot` up to its `await`. -/
def answerSnapshot (since : List JsString) (ch : Channel) (c : ConnId) (requestId : JsString) : Channel :=
  let (ch, n) := collectInteractions O since ch
  { ch with snapshots := ch.snapshots ++ [⟨c, requestId, n⟩] }

/-- `isQuestionAnswers`, of answers that are arrays of strings. -/
def isQuestionAnswers (answers : QuestionAnswers) : Bool :=
  !answers.isEmpty && answers.all fun outer => !outer.isEmpty && outer.all fun answer => !answer.isEmpty

/-- The common checks of `parseAnswerCommand` and `parseDecisionCommand`. -/
def isCommand (commandId requestId sessionID : JsString) : Bool :=
  isUuid commandId && !requestId.isEmpty && !sessionID.isEmpty

def onServerFrame (since : List JsString) (ch : Channel) (c : ConnId) (m : ServerMessage) : Channel :=
  if ch.holds c = false then ch
  else
    match m with
    | .registration .. => { ch with registered := true }
    | .pendingSnapshotRequest requestId =>
      if ch.registered = false ∨ requestId.isEmpty then ch else answerSnapshot O since ch c requestId
    | .questionAnswerCommand commandId requestId sessionID answers =>
      if ch.registered && isCommand commandId requestId sessionID && isQuestionAnswers answers then
        { ch with commands := ch.commands ++ [⟨.question, c, commandId, requestId⟩] }
      else ch
    | .permissionDecideCommand commandId requestId sessionID _ =>
      if ch.registered && isCommand commandId requestId sessionID then
        { ch with commands := ch.commands ++ [⟨.permission, c, commandId, requestId⟩] }
      else ch
    | _ => ch

/-! ## Replies -/

/-- The rest of an `answerSnapshot` whose collection has a result. -/
def answered (ch : Channel) (i : Nat) (thrown : Bool) : Channel × Option (ConnId × Frame) :=
  match ch.snapshots[i]? with
  | none => (ch, none)
  | some a =>
    match ch.operations[a.operation]?.bind (·.result) with
    | none => (ch, none)
    | some l =>
      ({ ch with snapshots := ch.snapshots.eraseIdx i },
        if ch.holds a.socket && !thrown then
          some (a.socket, ⟨.pendingSnapshotResponse a.requestId O.instanceId l, some a.operation⟩)
        else none)

/-- The rest of a command, with the status its seam or its timer gave. -/
def commandDone (ch : Channel) (i : Nat) (status : CommandStatus) (thrown : Bool) : Channel × Option (ConnId × Frame) :=
  match ch.commands[i]? with
  | none => (ch, none)
  | some a =>
    ({ ch with commands := ch.commands.eraseIdx i },
      if ch.holds a.socket && !thrown then
        some (a.socket, ⟨a.kind.result a.commandId O.instanceId status, none⟩)
      else none)

end Channel

inductive Event where
  | start
  | stop
  | opened (c : ConnId) (openCodeVersion : JsString) (webUiAvailable thrown : Bool)
  | closed (c : ConnId) (code : Option Nat)
  | error (c : ConnId)
  | listSettled (n : Nat) (k : CommandKind) (response : Option (Option Json))
      (titleForSession : JsString → Option JsString) (nowIso : JsString)
  | collectionTimeout (n : Nat)
  | cleared (n : Nat)
  | answered (i : Nat) (thrown : Bool)
  | commandDone (i : Nat) (status : CommandStatus) (thrown : Bool)
  | reply (c : ConnId) (m : ClientMessage)

/-- The channel after an event, and the frame it sends. -/
def step (ch : Channel) : Event → Channel × Option (ConnId × Frame)
  | .start => (ch.start, none)
  | .stop => (ch.stop, none)
  | .opened c openCodeVersion webUiAvailable thrown => ch.opened O c openCodeVersion webUiAvailable thrown
  | .closed c code => (ch.closed c code, none)
  | .error c => (ch.drop c, none)
  | .listSettled n k response titleForSession nowIso => (ch.listSettled O n k response titleForSession nowIso, none)
  | .collectionTimeout n => (ch.collectionTimeout n, none)
  | .cleared n => (ch.cleared n, none)
  | .answered i thrown => ch.answered O i thrown
  | .commandDone i status thrown => ch.commandDone O i status thrown
  | .reply c m => (ch, if ch.holds c && isReply m then some (c, ⟨m, none⟩) else none)

end NotifyHub.Plugin
