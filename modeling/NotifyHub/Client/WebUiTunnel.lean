/-
  NotifyHub.Client.WebUiTunnel — the client's end of a WebUI tunnel
  (`GatewayWebUiTunnel`, apps/client/lib/sessions/webui_tunnel.dart).

  `start` and `_reconnect` are one flow: the second only runs once the local server
  stands, and the first is not called again while it runs or once it has returned. A flow
  goes on where what it awaits has come; a retry timer does not fire while the
  continuation of a completed future is ready (`Ready`), everything else may come at any
  time. Channels, timers and responses are known by their place.

  What is sent to the gateway is left out, with two exceptions: that the tunnel cannot be
  asked for (`asked`), and that another send throws, which is a `gone` for a response and
  a `lost` for the channel. A renewal is its refresh (`renewed`), and a `lost` where no
  acknowledgement comes. A frame whose start throws ends its channel in the same step;
  the source does so a microtask later. What `HttpHeaders` takes of a pair is a parameter,
  and the browser's response closes without an error.
-/

import Mathlib.Data.Nat.Digits.Defs
import NotifyHub.Client.AuthInterceptor
import NotifyHub.Client.PendingResponse
import NotifyHub.Lib.Rows

namespace NotifyHub.Client

open Control
open Base64 (Bytes)

/-! ## Responses -/

/-- A browser's response, from the request on. -/
structure TunnelResponse where
  requestId : JsString
  /-- The channel the request went out on. -/
  channel : Nat
  response : PendingResponse
  /-- How many writes are performed; after one that failed the others are not. -/
  written : Nat
  broken : Bool
  /-- The calls of `end` that wait for the writes, and the calls of `close` so far. -/
  ending : Nat
  closes : Nat
  /-- Ghost: the parts that came for it. -/
  received : List WebUiResponsePart

inductive WriteOutcome where
  | performed
  /-- `add` or `flush` throws. -/
  | failed (added : Bool)
  deriving DecidableEq

namespace TunnelResponse

variable (toLowerCase : JsString → JsString) (accepts : JsString × JsString → Bool) (r : TunnelResponse)

def init (requestId : JsString) (channel : Nat) : TunnelResponse := ⟨requestId, channel, .init, 0, false, 0, 0, []⟩

def settled : Bool := r.broken || r.written == r.response.writes.length

/-- The `end` that waits for the writes closes the response when they are through. -/
def settle : TunnelResponse := if r.settled then { r with ending := 0, closes := r.closes + r.ending } else r

def «end» : TunnelResponse :=
  if r.response.ended then r
    else ({ r with response := r.response.end, ending := r.ending + 1 } : TunnelResponse).settle

def fail : TunnelResponse := if r.response.ended then r else r.end

/-- The next write ends. -/
def wrote (outcome : WriteOutcome) : TunnelResponse :=
  if r.settled then r
  else
    match outcome with
    | .performed => ({ r with written := r.written + 1 } : TunnelResponse).settle
    | .failed added => ({ r with written := r.written + added.toNat, broken := true } : TunnelResponse).settle

/-- `start`, and whether it throws at a header. -/
def start (status : Nat) (headers : List (JsString × List JsString)) : TunnelResponse × Bool :=
  if r.response.started || r.response.ended then (r, false)
  else
    let response := r.response.start toLowerCase status headers
    ({ r with response := { response with headers := response.headers.takeWhile accepts } },
      !response.headers.all accepts)

def add (bytes : Bytes) : TunnelResponse := { r with response := r.response.add toLowerCase bytes }

/-- What has gone to the browser. -/
def body : Bytes := (r.response.writes.take r.written).flatten

/-- What a response is from the request on. -/
def tag : JsString × Nat := (r.requestId, r.channel)

variable {toLowerCase accepts}

@[simp] theorem settle_tag : r.settle.tag = r.tag := by
  unfold settle
  split <;> rfl

@[simp] theorem end_tag : r.end.tag = r.tag := by
  unfold «end»
  split
  · rfl
  · exact settle_tag _

@[simp] theorem fail_tag : r.fail.tag = r.tag := by
  unfold fail
  split
  · rfl
  · exact end_tag r

@[simp] theorem wrote_tag (outcome : WriteOutcome) : (r.wrote outcome).tag = r.tag := by
  unfold wrote
  split
  · rfl
  · cases outcome with
    | performed => exact settle_tag _
    | failed added => exact settle_tag _

@[simp] theorem start_tag (status : Nat) (headers : List (JsString × List JsString)) :
    (r.start toLowerCase accepts status headers).1.tag = r.tag := by
  unfold start
  split <;> rfl

@[simp] theorem add_tag (bytes : Bytes) : (r.add toLowerCase bytes).tag = r.tag := rfl

end TunnelResponse

structure TunnelResponses where
  pending : OMap JsString Nat
  responses : List TunnelResponse
  nextRequest : Nat

/-! ## The tunnel -/

structure TunnelChannel where
  generation : Nat
  authorization : JsString
  /-- Neither closed nor closing. -/
  isOpen : Bool
  deriving DecidableEq

structure RetryTimer where
  /-- The delay before the jitter. -/
  ms : Nat
  expired : Bool
  armed : Bool
  deriving DecidableEq

/-- Who awaits `_connect`. -/
inductive Caller where
  | start (again : Bool)
  | reconnect
  deriving DecidableEq

/-- Who awaits `_refreshAccess`. -/
inductive RefreshFor where
  | start
  /-- `_reconnect`, before it connects. -/
  | expired
  /-- `_reconnect`, after it was refused. -/
  | unauthorized
  deriving DecidableEq

/-- Where `start` or `_reconnect` is. -/
inductive Flow where
  | idle
  /-- `_connect` waits for the channel. -/
  | opening (caller : Caller) (generation channel : Nat)
  /-- `_connect` waits for the tunnel; what its completer was completed with. -/
  | waiting (caller : Caller) (generation channel : Nat) (ready : Option (Option JsString))
  /-- `_connect` waits for the subscription's end. -/
  | aborting (caller : Caller) (channel : Nat) (unauthorized : Bool)
  /-- `_connect` has returned, or thrown. -/
  | connected (caller : Caller)
  | failed (caller : Caller) (unauthorized : Bool)
  | refreshing (reason : RefreshFor)
  | binding
  deriving DecidableEq

structure GatewayWebUiTunnel where
  accessToken : JsString
  hasRefresh : Bool
  closed : Bool
  server : Bool
  connected : Bool
  reconnecting : Bool
  generation : Nat
  attempt : Nat
  channel : Option Nat
  tunnelId : Option JsString
  retry : Option Nat
  flow : Flow
  channels : List TunnelChannel
  timers : List RetryTimer
  served : TunnelResponses

def GatewayWebUiTunnel.init (accessToken : JsString) (hasRefresh : Bool) : GatewayWebUiTunnel :=
  ⟨accessToken, hasRefresh, false, false, false, false, 0, 0, none, none, none, .idle, [], [], ⟨.empty, [], 0⟩⟩

inductive TunnelOpened where
  /-- The tunnel is asked for, unless the send throws. -/
  | ready (asked : Bool)
  | failed (unauthorized : Bool)
  deriving DecidableEq

inductive TunnelFrame where
  | ready (tunnelId : JsString)
  | error
  | response (tunnelId : Option JsString) (requestId : JsString) (part : WebUiResponsePart)
  deriving DecidableEq

inductive TunnelEvent where
  | start
  | opened (outcome : TunnelOpened)
  | frame (channel : Nat) (frame : TunnelFrame)
  /-- The channel's stream ends; `expired` where its close code is 4401. -/
  | ended (channel : Nat) (expired : Bool)
  | timedOut
  | aborted
  /-- The continuation that is ready runs. -/
  | goesOn
  | refreshed (outcome : RefreshOutcome)
  | bound
  | fires (timer : Nat)
  | resume (afterSleep : Bool)
  | lost (channel : Nat) (expired : Bool)
  | renewed (outcome : RefreshOutcome)
  | request
  /-- The browser is gone. -/
  | gone (response : Nat)
  | wrote (response : Nat) (outcome : WriteOutcome)
  | close
  /-- The rest of `_close`. -/
  | teardown
  deriving DecidableEq

def hexDigit (d : Nat) : UInt16 := if d < 10 then 48 + d.toUInt16 else 87 + d.toUInt16

/-- `_requestId`: the number in hexadecimal, on twelve places. -/
def requestId (value : Nat) : JsString :=
  let hex := (Nat.digits 16 value).reverse.map hexDigit
  js "00000000-0000-4000-8000-" ++ List.replicate (12 - hex.length) 48 ++ hex

namespace TunnelResponses

variable (w : TunnelResponses)

def modify (i : Nat) (f : TunnelResponse → TunnelResponse) : TunnelResponses :=
  { w with responses := w.responses.modify i f }

/-- The connection is gone, and its responses fail. -/
def failAll : TunnelResponses :=
  { w with
    pending := .empty
    responses := w.responses.mapIdx fun i r => if i ∈ w.pending.values then r.fail else r }

def request (channel : Nat) : TunnelResponses :=
  { pending := w.pending.set (requestId w.nextRequest) w.responses.length
    responses := w.responses ++ [.init (requestId w.nextRequest) channel]
    nextRequest := w.nextRequest + 1 }

/-- `_cancelRequest` -/
def cancelRequest (id : JsString) (i : Nat) : TunnelResponses :=
  if w.pending.get id ≠ some i then w else ({ w with pending := w.pending.delete id } : TunnelResponses).modify i .fail

/-- No response is pending that was not, and each is the response to the same request. -/
structure Narrows (w w' : TunnelResponses) : Prop where
  pending : ∀ id i, w'.pending.get id = some i → w.pending.get id = some i
  tags : w'.responses.map (·.tag) = w.responses.map (·.tag)

variable {w} {w' w'' : TunnelResponses}

theorem Narrows.refl (w : TunnelResponses) : Narrows w w := ⟨fun _ _ h => h, rfl⟩

theorem Narrows.trans (h : Narrows w w') (h' : Narrows w' w'') : Narrows w w'' :=
  ⟨fun id i hi => h.pending id i (h'.pending id i hi), h'.tags.trans h.tags⟩

theorem narrows_modify (w : TunnelResponses) (i : Nat) {f : TunnelResponse → TunnelResponse}
    (hf : ∀ r, (f r).tag = r.tag) :
    Narrows w (w.modify i f) := by
  refine ⟨fun _ _ h => h, List.ext_getElem? fun j => ?_⟩
  simp only [modify, List.getElem?_map, List.getElem?_modify]
  cases w.responses[j]? with
  | none => rfl
  | some r =>
    by_cases h : i = j
    · simp [h, hf]
    · simp [h]

theorem narrows_put {i : Nat} {r r' : TunnelResponse} (hr : w.responses[i]? = some r) (htag : r'.tag = r.tag) :
    Narrows w (w.modify i fun _ => r') := by
  refine ⟨fun _ _ h => h, List.ext_getElem? fun j => ?_⟩
  simp only [modify, List.getElem?_map, List.getElem?_modify]
  by_cases h : i = j
  · simp [← h, hr, htag]
  · simp [h]

theorem narrows_delete (w : TunnelResponses) (id : JsString) : Narrows w { w with pending := w.pending.delete id } := by
  refine ⟨fun id' i hi => ?_, rfl⟩
  rw [OMap.get_delete] at hi
  split at hi
  · cases hi
  · exact hi

theorem narrows_cancelRequest (w : TunnelResponses) (id : JsString) (i : Nat) : Narrows w (w.cancelRequest id i) := by
  unfold cancelRequest
  split
  · exact .refl w
  · exact (narrows_delete w id).trans (narrows_modify _ i fun r => r.fail_tag)

theorem narrows_failAll (w : TunnelResponses) : Narrows w w.failAll := by
  refine ⟨fun _ _ h => (nomatch h), List.ext_getElem? fun j => ?_⟩
  simp only [failAll, List.getElem?_map, List.getElem?_mapIdx]
  cases w.responses[j]? with
  | none => rfl
  | some r =>
    by_cases h : j ∈ w.pending.values
    · simp [h]
    · simp [h]

theorem modify_get_ne {i j : Nat} {f : TunnelResponse → TunnelResponse} (h : i ≠ j) :
    (w.modify i f).responses[j]? = w.responses[j]? :=
  List.getElem?_modify_ne _ _ h

theorem cancelRequest_get_ne {id : JsString} {i j : Nat} (h : i ≠ j) :
    (w.cancelRequest id i).responses[j]? = w.responses[j]? := by
  unfold cancelRequest
  split
  · rfl
  · exact modify_get_ne h

theorem failAll_get {j : Nat} (h : j ∉ w.pending.values) : w.failAll.responses[j]? = w.responses[j]? := by
  simp only [failAll, List.getElem?_mapIdx, h, if_false, Option.map_id']

end TunnelResponses

namespace GatewayWebUiTunnel

variable (toLowerCase : JsString → JsString) (accepts : JsString × JsString → Bool) (s : GatewayWebUiTunnel)

/-- The continuation of a completed future is ready. -/
def Ready : Prop :=
  match s.flow with
  | .waiting _ _ _ (some _) | .connected _ | .failed .. => True
  | _ => False

instance : Decidable s.Ready := by
  unfold Ready
  split <;> infer_instance

def closeChannel (c : Nat) : GatewayWebUiTunnel :=
  { s with channels := s.channels.modify c fun channel => { channel with isOpen := false } }

def scheduleReconnect (expired : Bool) : GatewayWebUiTunnel :=
  if s.closed = true ∨ s.retry ≠ none then s
  else
    let ms := min (500 * 2 ^ min s.attempt 6) 30000
    let attempt := s.attempt + 1
    { s with
      attempt
      timers := s.timers ++ [⟨if expired = true ∧ attempt = 1 then 0 else ms, expired, true⟩]
      retry := some s.timers.length }

/-- `_connect`, up to where it waits for the channel. -/
def connect (caller : Caller) : GatewayWebUiTunnel :=
  { s with
    generation := s.generation + 1
    channels := s.channels ++ [⟨s.generation + 1, js "Bearer " ++ s.accessToken, true⟩]
    channel := some s.channels.length
    flow := .opening caller (s.generation + 1) s.channels.length }

/-- `_connect` catches an error. -/
def abort (caller : Caller) (c : Nat) (unauthorized : Bool) : GatewayWebUiTunnel :=
  if s.channel = some c then
    { s with channel := none, generation := s.generation + 1, flow := .aborting caller c unauthorized }
  else { s with flow := .failed caller unauthorized }

def lost (c : Nat) (expired : Bool) : GatewayWebUiTunnel :=
  if s.closed = true ∨ s.channel ≠ some c then s
  else
    let t : GatewayWebUiTunnel :=
      ({ s with
        channel := none, generation := s.generation + 1, connected := false, tunnelId := none
        served := s.served.failAll } : GatewayWebUiTunnel).closeChannel c
    if t.server then t.scheduleReconnect expired else t

/-- The tunnel's completer is completed, unless it already is. -/
def complete (ready : Option JsString) : GatewayWebUiTunnel :=
  match s.flow with
  | .waiting caller generation c none => { s with flow := .waiting caller generation c (some ready) }
  | _ => s

def cancelRetry : List RetryTimer :=
  match s.retry with
  | some t => s.timers.modify t fun timer => { timer with armed := false }
  | none => s.timers

def close : GatewayWebUiTunnel :=
  if s.closed then s
  else
    ({ s with
        closed := true, generation := s.generation + 1, timers := s.cancelRetry, retry := none } :
      GatewayWebUiTunnel).complete none

/-- `_reconnect`, up to where it waits. -/
def reconnect (expired : Bool) : GatewayWebUiTunnel :=
  if s.closed = true ∨ s.reconnecting = true then s
  else
    let s := { s with reconnecting := true }
    if expired then { s with flow := .refreshing .expired } else s.connect .reconnect

/-- `_reconnect` returns. -/
def finish : GatewayWebUiTunnel := { s with flow := .idle, reconnecting := false }

def opened : TunnelOpened → GatewayWebUiTunnel
  | outcome =>
    match s.flow with
    | .opening caller generation c =>
      match outcome with
      | .ready asked =>
        if s.closed = true ∨ s.generation ≠ generation then s.abort caller c false
        else { s with flow := .waiting caller generation c (if asked then none else some none) }
      | .failed unauthorized => s.abort caller c unauthorized
    | _ => s

/-- The future that is awaited has completed. -/
def goesOn : GatewayWebUiTunnel :=
  match s.flow with
  | .waiting caller generation c (some ready) =>
    match ready with
    | some tunnelId =>
      if s.closed = true ∨ s.generation ≠ generation then { s with tunnelId := some tunnelId }.abort caller c false
      else { s with tunnelId := some tunnelId, connected := true, attempt := 0, flow := .connected caller }
    | none => s.abort caller c false
  | .connected (.start _) => { s with flow := if s.closed then .idle else .binding }
  | .connected .reconnect => s.finish
  | .failed (.start again) unauthorized =>
    { s with flow := if again = false ∧ unauthorized = true ∧ s.hasRefresh = true then .refreshing .start else .idle }
  | .failed .reconnect unauthorized =>
    if s.closed then s.finish
    else if unauthorized then { s with flow := .refreshing .unauthorized }
    else (s.scheduleReconnect false).finish
  | _ => s

/-- `_refreshAccess` throws. -/
def refreshFailed : RefreshFor → GatewayWebUiTunnel
  | .start => { s with flow := .idle }
  | .expired => (s.scheduleReconnect false).finish
  | .unauthorized => (s.scheduleReconnect true).finish

def refreshed (outcome : RefreshOutcome) : GatewayWebUiTunnel :=
  match s.flow with
  | .refreshing reason =>
    match if s.hasRefresh then outcome else .null with
    | .token accessToken =>
      if s.closed then s.refreshFailed reason
      else
        let s := { s with accessToken }
        match reason with
        | .start => s.connect (.start true)
        | .expired => s.connect .reconnect
        | .unauthorized => (s.scheduleReconnect false).finish
    | .null => s.close.refreshFailed reason
    | .dioException | .threw => s.refreshFailed reason
  | _ => s

/-- `_renew`, after its refresh. -/
def renewed : RefreshOutcome → GatewayWebUiTunnel
  | .token accessToken => if s.closed then s else { s with accessToken }
  | .null => s.close
  | .dioException | .threw => s

def bound : GatewayWebUiTunnel :=
  match s.flow with
  | .binding =>
    if s.closed then { s with flow := .idle }
    else
      let s := { s with server := true, flow := .idle }
      if s.connected then s else s.scheduleReconnect false
  | _ => s

def fires (t : Nat) : GatewayWebUiTunnel :=
  match s.timers[t]? with
  | some timer =>
    if timer.armed = true ∧ ¬ s.Ready then
      ({ s with timers := s.timers.set t { timer with armed := false }, retry := none } :
        GatewayWebUiTunnel).reconnect timer.expired
    else s
  | none => s

def resume (afterSleep : Bool) : GatewayWebUiTunnel :=
  if s.closed = true ∨ s.server = false ∨ s.reconnecting = true then s
  else
    let s :=
      match s.channel with
      | some c => if afterSleep = true ∧ s.connected = true then s.lost c false else s
      | none => s
    if s.connected = true ∨ s.channel ≠ none then s
    else ({ s with timers := s.cancelRetry, retry := none } : GatewayWebUiTunnel).reconnect false

/-! ## Frames -/

def serve (served : TunnelResponses) : GatewayWebUiTunnel := { s with served }

/-- A part comes for the response at place `i`. -/
def respond (c : Nat) (id : JsString) (i : Nat) (part : WebUiResponsePart) : GatewayWebUiTunnel :=
  let s := s.serve (s.served.modify i fun r => { r with received := r.received ++ [part] })
  match part with
  | .start status headers =>
    match s.served.responses[i]? with
    | some r =>
      let (r, threw) := r.start toLowerCase accepts status headers
      let s := s.serve (s.served.modify i fun _ => r)
      -- the `catchError` of the listener, which runs in a microtask of its own
      if threw then s.lost c false else s
    | none => s
  | .chunk body =>
    match Base64.decode body with
    | some bytes => s.serve (s.served.modify i (·.add toLowerCase bytes))
    | none => if s.channel ≠ none ∧ s.tunnelId ≠ none then s.serve (s.served.cancelRequest id i) else s
  | .end => s.serve (({ s.served with pending := s.served.pending.delete id } : TunnelResponses).modify i .end)

/-- `_handleFrame` -/
def handleFrame (c : Nat) : TunnelFrame → GatewayWebUiTunnel
  | .ready tunnelId => s.complete (some tunnelId)
  | .error => s.complete none
  | .response tunnelId id part =>
    if tunnelId ≠ s.tunnelId then s
    else
      match s.served.pending.get id with
      | some i => s.respond toLowerCase accepts c id i part
      | none => s

/-- The listener of a channel knows the generation it began with. -/
def frame (c : Nat) (f : TunnelFrame) : GatewayWebUiTunnel :=
  match s.channels[c]? with
  | some channel => if channel.generation ≠ s.generation then s else s.handleFrame toLowerCase accepts c f
  | none => s

/-- The listener's `onDone` or `onError`. -/
def ended (c : Nat) (expired : Bool) : GatewayWebUiTunnel :=
  (match s.flow with
  | .waiting _ _ d _ => if d = c then s.complete none else s
  | _ => s).lost c expired

/-- `_handleRequest`, once the request has been read. -/
def request : GatewayWebUiTunnel :=
  match s.channel with
  | some c => if s.connected = true ∧ s.tunnelId ≠ none then s.serve (s.served.request c) else s
  | none => s

/-- `_cancelRequest`, of a response whose browser is gone. -/
def gone (i : Nat) : GatewayWebUiTunnel :=
  match s.served.responses[i]? with
  | some r => s.serve (s.served.cancelRequest r.requestId i)
  | none => s

/-- A write ends; where it throws, the handler of its chunk cancels the request. -/
def wrote (i : Nat) (outcome : WriteOutcome) : GatewayWebUiTunnel :=
  match s.served.responses[i]? with
  | some r =>
    if r.settled then s
    else
      let s := s.serve (s.served.modify i (·.wrote outcome))
      if outcome ≠ .performed ∧ s.channel ≠ none ∧ s.tunnelId ≠ none then s.serve (s.served.cancelRequest r.requestId i)
      else s
  | none => s

def step (s : GatewayWebUiTunnel) : TunnelEvent → GatewayWebUiTunnel
  | .start => if s.closed = true ∨ s.channel ≠ none ∨ s.flow ≠ .idle ∨
      s.server = true then s else s.connect (.start false)
  | .opened outcome => s.opened outcome
  | .frame c f => s.frame toLowerCase accepts c f
  | .ended c expired => s.ended c expired
  | .timedOut =>
    match s.flow with
    | .waiting caller _ c none => s.abort caller c false
    | _ => s
  | .aborted =>
    match s.flow with
    | .aborting caller c unauthorized => { s.closeChannel c with flow := .failed caller unauthorized }
    | _ => s
  | .goesOn => s.goesOn
  | .refreshed outcome => s.refreshed outcome
  | .bound => s.bound
  | .fires t => s.fires t
  | .resume afterSleep => s.resume afterSleep
  | .lost c expired => s.lost c expired
  | .renewed outcome => s.renewed outcome
  | .request => s.request
  | .gone i => s.gone i
  | .wrote i outcome => s.wrote i outcome
  | .close => s.close
  | .teardown =>
    if s.closed then
      (match s.channel with
      | some c => s.closeChannel c
      | none => s).serve s.served.failAll
    else s

abbrev run (accessToken : JsString) (hasRefresh : Bool) (es : List TunnelEvent) : GatewayWebUiTunnel :=
  runFrom (step toLowerCase accepts) (.init accessToken hasRefresh) es

end GatewayWebUiTunnel

end NotifyHub.Client
