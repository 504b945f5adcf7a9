/-
  NotifyHub.Plugin.Lifecycle — the control connection from `start` to `stop`, and the
  commands that run on it (packages/plugin/src/control-channel.ts).

  `connect` waits for the version probe, and between probes; `stop` raises the generation, so
  that a `connect` of an earlier one does nothing when it goes on. Sockets are numbered as
  they are opened; their listeners stay, and may be called after the channel let them go.

  Effects are recorded in their order, so that each can be asked what came before it. What
  holds of every run is in `NotifyHub.Plugin.LifecycleTrace`.
-/

import NotifyHub.Lib.JsonParse
import NotifyHub.Lib.Register
import NotifyHub.Lib.Rows
import NotifyHub.Lib.Run
import NotifyHub.Plugin.Catalogs
import NotifyHub.Plugin.FrameParsers

namespace NotifyHub.Plugin.Lifecycle

open Control

def BASE_BACKOFF_MS : Nat := 500

def MAX_BACKOFF_MS : Nat := 30000

/-- Which seams there are, and the timeouts of the options. -/
structure Seams where
  answerQuestion : Bool
  decidePermission : Bool
  sendPrompt : Bool
  answerTimeoutMs : Nat
  decideTimeoutMs : Nat
  promptTimeoutMs : Nat
  versionReadyTimeoutMs : Nat

/-- What a command calls its seam with. -/
inductive Call where
  | answer (command : AnswerCommand)
  | decide (command : DecideCommand)
  | prompt (command : PromptCommand)

def Call.commandId : Call → JsString
  | .answer command => command.commandId
  | .decide command => command.commandId
  | .prompt command => command.commandId

/-- The type of the frame that answers it. -/
def Call.resultType : Call → String
  | .answer _ => "question_answer_result"
  | .decide _ => "permission_decide_result"
  | .prompt _ => "session_prompt_result"

structure ResultFrame where
  type : String
  commandId : JsString
  instanceId : JsString
  status : CommandStatus

/-- What ends the race of a command. -/
inductive Outcome where
  /-- The seam settles; `none` when it throws. -/
  | seam (status : Option CommandStatus)
  | timer
  /-- There is no seam. -/
  | absent

def Outcome.status : Outcome → CommandStatus
  | .seam (some status) => status
  | .seam none | .timer | .absent => .resultUnknown

structure Registration where
  instanceId : JsString
  machine : JsString
  project : JsString
  directory : JsString
  openCodeVersion : JsString
  webUiAvailable : Bool
  protocolVersion : Nat

inductive Effect where
  | started
  | stopped
  /-- The socket factory made socket `c`. -/
  | opened (c : Nat)
  /-- The channel let its socket go, to connect again. -/
  | dropped (c : Nat)
  /-- The reconnect timer is set, to this backoff. -/
  | scheduled (backoff : Nat)
  | fired
  | announced (c : Nat) (registration : Registration)
  | registered (c : Nat)
  /-- A catalog, snapshot or WebUI request is taken up. -/
  | taken (k c : Nat)
  /-- It is answered. -/
  | replied (k c : Nat)
  /-- Command `i` is taken up: it calls its seam, if there is one. -/
  | invoked (i c : Nat) (call : Call)
  | settled (i : Nat) (outcome : Outcome)
  | result (i c : Nat) (frame : ResultFrame)

/-- A `connect` on its way: it awaits the probe, or the delay between two. -/
structure Connect where
  generation : Nat
  deadline : Nat
  delay : Nat
  probing : Bool

/-- An `answerCommand`, `decideCommand` or `promptCommand`. -/
structure Command where
  socket : Nat
  call : Call
  startedAt : Nat
  outcome : Option Outcome
  done : Bool

structure State where
  now : Nat
  running : Bool
  generation : Nat
  socket : Option Nat
  registered : Bool
  reconnectTimer : Bool
  attempt : Nat
  openCodeVersion : Option JsString
  /-- The calls of `connect` that have waited; `none` once over. -/
  connects : List (Option Connect)
  /-- How many sockets there have been. -/
  sockets : Nat
  /-- The sockets whose timer for an unknown version runs. -/
  retries : List Nat
  commands : List Command
  /-- The sockets of the other requests on their way; `none` once over. -/
  others : List (Option Nat)
  effects : List Effect

def init (now : Nat) : State := ⟨now, false, 0, none, false, false, 0, none, [], 0, [], [], [], []⟩

variable (O : Options) (S : Seams)

namespace State

variable (s : State)

def emit (effect : Effect) : State := { s with effects := s.effects ++ [effect] }

/-- `!this.running || this.socket !== socket`, the other way round. -/
def holds (c : Nat) : Bool := s.running && s.socket == some c

/-! ## The connection -/

def scheduleReconnect : State :=
  if s.running = false ∨ s.reconnectTimer = true then s
  else
    { s with reconnectTimer := true, attempt := s.attempt + 1 }.emit
      (.scheduled (min (BASE_BACKOFF_MS * 2 ^ min s.attempt 6) MAX_BACKOFF_MS))

def drop (c : Nat) : State :=
  if s.socket = some c then ({ s with socket := none, registered := false }.emit (.dropped c)).scheduleReconnect else s

def stop : State :=
  { s with
    running := false, generation := s.generation + 1, registered := false, reconnectTimer := false,
    socket := none }.emit .stopped

/-- The rest of `connect`, with a version; `thrown` when the factory throws. -/
def openSocket (generation : Nat) (thrown : Bool) : State :=
  if s.running = false ∨ generation ≠ s.generation ∨ s.socket.isSome then s
  else if thrown then s.scheduleReconnect
  else
    { s with
      socket := some s.sockets
      registered := false
      sockets := s.sockets + 1
      retries := if s.openCodeVersion = some (js "unknown") then s.retries ++ [s.sockets] else s.retries }.emit
        (.opened s.sockets)

/-- `connect` up to its first `await`, or to its end. -/
def connect (thrown : Bool) : State :=
  if s.running = false ∨ s.socket.isSome then s
  else if s.openCodeVersion = none ∨ s.openCodeVersion = some (js "unknown") then
    { s with
      openCodeVersion := none
      connects := s.connects ++ [some ⟨s.generation, s.now + S.versionReadyTimeoutMs, 500, true⟩] }
  else s.openSocket s.generation thrown

/-- A version that ends the loop. -/
def resolved (version : Option JsString) : Option JsString :=
  (version.map trim).filter fun v => !v.isEmpty && v != js "unknown"

/-- The probe of `connect` `i` settles; `none` when it throws. -/
def probed (i : Nat) (version : Option JsString) (thrown : Bool) : State :=
  match s.connects[i]? with
  | some (some k) =>
    if k.probing = false then s
    else if s.running = false ∨ k.generation ≠ s.generation then { s with connects := s.connects.set i none }
    else
      match resolved version with
      | some v => { s with connects := s.connects.set i none, openCodeVersion := some v }.openSocket k.generation thrown
      | none =>
        if k.deadline ≤ s.now then
          { s with connects := s.connects.set i none, openCodeVersion := some (js "unknown") }.openSocket
            k.generation thrown
        else { s with connects := s.connects.set i (some { k with probing := false }) }
  | _ => s

/-- The delay of `connect` `i` is over. -/
def waited (i : Nat) (thrown : Bool) : State :=
  match s.connects[i]? with
  | some (some k) =>
    if k.probing then s
    else if s.running && k.generation == s.generation && s.openCodeVersion.isNone then
      { s with connects := s.connects.set i (some { k with probing := true, delay := min (k.delay * 2) 5000 }) }
    else { s with connects := s.connects.set i none }.openSocket k.generation thrown
  | _ => s

def start (thrown : Bool) : State := if s.running then s
    else ({ s with running := true }.emit .started).connect S thrown

/-- The reconnect timer. -/
def timerFires (thrown : Bool) : State :=
  if s.reconnectTimer then ({ s with reconnectTimer := false }.emit .fired).connect S thrown else s

def registration (webUiAvailable : Bool) : Registration :=
  ⟨O.instanceId, O.machine, O.project, O.directory, s.openCodeVersion.getD (js "unknown"), webUiAvailable, 2⟩

/-- The `open` listener; `thrown` when `socket.send` throws. -/
def opened (c : Nat) (webUiAvailable thrown : Bool) : State :=
  if s.holds c = false then s
  else if thrown then { s with attempt := 0 }.drop c
  else { s with attempt := 0 }.emit (.announced c (s.registration O webUiAvailable))

/-- The `close` listeners: 4403 is a revoked key. -/
def closed (c : Nat) (code : Option Nat) : State :=
  if code = some CONTROL_CLOSE_KEY_REVOKED then
    if s.socket = some c then { s with retries := s.retries.filter (· ≠ c) }.stop
    else { s with retries := s.retries.filter (· ≠ c) }
  else { s with retries := s.retries.filter (· ≠ c) }.drop c

/-- The timer that tries an unknown version again. -/
def retry (c : Nat) : State :=
  if c ∈ s.retries then
    if s.holds c then { s with retries := s.retries.filter (· ≠ c) }.drop c
      else { s with retries := s.retries.filter (· ≠ c) }
  else s

/-! ## Frames of the gateway -/

/-- The seam of a call, and its timeout. -/
def seam : Call → Bool × Nat
  | .answer _ => (S.answerQuestion, S.answerTimeoutMs)
  | .decide _ => (S.decidePermission, S.decideTimeoutMs)
  | .prompt _ => (S.sendPrompt, S.promptTimeoutMs)

/-- A command up to its `await`. Without a seam its race is over. -/
def command (c : Nat) (call : Call) : State :=
  if (seam S call).1 then
    ({ s with commands := s.commands ++ [⟨c, call, s.now, none, false⟩] } : State).emit
      (.invoked s.commands.length c call)
  else
    (({ s with commands := s.commands ++ [⟨c, call, s.now, some .absent, false⟩] } : State).emit
      (.invoked s.commands.length c call)).emit
      (.settled s.commands.length .absent)

def take (c : Nat) : State := { s with others := s.others ++ [some c] }.emit (.taken s.others.length c)

/-- `sessionCatalogQuerySchema`, with the pattern of its ids. -/
def validateSessionCatalogQuery (query : Json) : Bool :=
  (Schema.object [] [("search", .string 0 (some 200) none), ("limit", .integer (some 1) (some 200)),
      ("sessionIds", .string 0 (some 4096) none)]).validate (fun _ => false) query &&
    ((query.record?.bind (member · "sessionIds")).bind Json.str?).all fun ids => ids.all Catalogs.idChar

/-- The requests that are answered with frames of their own types. -/
def isOther (frame : List (JsString × Json)) : Bool :=
  if isText (member frame "type") (js "session_catalog_request") then
    (uuid? (member frame "requestId")).isSome && (member frame "query").any validateSessionCatalogQuery
  else if isText (member frame "type") (js "pending_snapshot_request") then
    (asNonEmptyString (member frame "requestId")).isSome
  else isText (member frame "type") (js "webui_http_request") && (parseWebUiRequest frame).isSome

/-- The command a frame is. -/
def callOf (frame : List (JsString × Json)) : Option Call :=
  if isText (member frame "type") (js "question_answer_command") then (parseAnswerCommand frame).map .answer
  else if isText (member frame "type") (js "permission_decide_command") then (parseDecisionCommand frame).map .decide
  else if isText (member frame "type") (js "session_prompt_command") then (parsePromptCommand frame).map .prompt
  else none

/-- `onServerFrame`, of the data of a message event if that is a string. -/
def onServerFrame (c : Nat) (data : Option JsString) : State :=
  if s.holds c = false then s
  else
    match (data.bind Json.parse).bind Json.record? with
    | none => s
    | some frame =>
      if isText (member frame "type") (js "registration") then { s with registered := true }.emit (.registered c)
      else if s.registered = false then s
      else
        match callOf frame with
        | some call => s.command S c call
        | none => if isOther frame then s.take c else s

/-! ## Answers -/

/-- The race of command `i` ends. -/
def settle (i : Nat) (outcome : Outcome) : State :=
  match s.commands[i]? with
  | some k =>
    if k.outcome.isSome then s
    else { s with commands := s.commands.set i { k with outcome := some outcome } }.emit (.settled i outcome)
  | none => s

/-- The timer of command `i`. -/
def commandTimeout (i : Nat) : State :=
  match s.commands[i]? with
  | some k => if k.startedAt + (seam S k.call).2 ≤ s.now then s.settle i .timer else s
  | none => s

/-- The rest of command `i`; `thrown` when `socket.send` throws. -/
def finish (i : Nat) (thrown : Bool) : State :=
  match s.commands[i]? with
  | some ⟨c, call, startedAt, some outcome, false⟩ =>
    if s.holds c && !thrown then
      { s with commands := s.commands.set i ⟨c, call, startedAt, some outcome, true⟩ }.emit
        (.result i c ⟨call.resultType, call.commandId, O.instanceId, outcome.status⟩)
    else { s with commands := s.commands.set i ⟨c, call, startedAt, some outcome, true⟩ }
  | _ => s

/-- Another request is answered, for the last time or not. -/
def reply (k : Nat) (last thrown : Bool) : State :=
  match s.others[k]? with
  | some (some c) =>
    if s.holds c && !thrown then { s with others := if last then s.others.set k none else s.others }.emit (.replied k c)
    else { s with others := if last then s.others.set k none else s.others }
  | _ => s

end State

inductive Event where
  | start (thrown : Bool)
  | stop
  | probed (i : Nat) (version : Option JsString) (thrown : Bool)
  | waited (i : Nat) (thrown : Bool)
  | timerFires (thrown : Bool)
  | opened (c : Nat) (webUiAvailable thrown : Bool)
  | closed (c : Nat) (code : Option Nat)
  | error (c : Nat)
  | message (c : Nat) (data : Option JsString)
  | retry (c : Nat)
  | seamSettles (i : Nat) (status : Option CommandStatus)
  | commandTimeout (i : Nat)
  | finish (i : Nat) (thrown : Bool)
  | reply (k : Nat) (last thrown : Bool)
  | advance (ms : Nat)

def step (s : State) : Event → State
  | .start thrown => s.start S thrown
  | .stop => s.stop
  | .probed i version thrown => s.probed i version thrown
  | .waited i thrown => s.waited i thrown
  | .timerFires thrown => s.timerFires S thrown
  | .opened c webUiAvailable thrown => s.opened O c webUiAvailable thrown
  | .closed c code => s.closed c code
  | .error c => s.drop c
  | .message c data => s.onServerFrame S c data
  | .retry c => s.retry c
  | .seamSettles i status => s.settle i (.seam status)
  | .commandTimeout i => s.commandTimeout S i
  | .finish i thrown => s.finish O i thrown
  | .reply k last thrown => s.reply k last thrown
  | .advance ms => { s with now := s.now + ms }

abbrev run (now : Nat) (es : List Event) : State := runFrom (step O S) (init now) es

end NotifyHub.Plugin.Lifecycle
