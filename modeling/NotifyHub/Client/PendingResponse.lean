/-
  NotifyHub.Client.PendingResponse — how the client's WebUI tunnel puts a browser response
  together from the frames of one request (apps/client/lib/sessions/webui_tunnel.dart,
  `_PendingResponse` and the response cases of `_handleFrame`).

  Only the first start counts, bytes are written in the order of their frames, and after
  the end nothing is (`receiveAll_ended`). The writes themselves are performed one after
  the other; here they are the list of what was handed to them.
-/

import NotifyHub.Control.Types
import NotifyHub.Lib.Base64

namespace NotifyHub.Client

open Control
open Base64 (Bytes)

structure PendingResponse where
  started : Bool
  ended : Bool
  statusCode : Nat
  headers : List (JsString × JsString)
  writes : List Bytes

namespace PendingResponse

/-- A response the tunnel has just asked for; the status is `HttpResponse`'s own default. -/
def init : PendingResponse := ⟨false, false, 200, [], []⟩

variable (toLowerCase : JsString → JsString)

def start (r : PendingResponse) (status : Nat) (rawHeaders : List (JsString × List JsString)) : PendingResponse :=
  if r.started || r.ended then r
  else
    let kept := rawHeaders.filter fun h =>
      !([js "connection", js "transfer-encoding", js "content-length"].contains (toLowerCase h.1))
    { r with started := true, statusCode := status, headers := r.headers ++ kept.flatMap fun h => h.2.map (h.1, ·) }

def add (r : PendingResponse) (bytes : Bytes) : PendingResponse :=
  if r.ended then r
  else
    let r := if r.started then r else r.start toLowerCase 502 []
    { r with writes := r.writes ++ [bytes] }

def «end» (r : PendingResponse) : PendingResponse :=
  if r.ended then r else { r with ended := true, statusCode := if r.started then r.statusCode else 502 }

/-- `fail`, which a body that is no base64 comes to. -/
def fail (r : PendingResponse) : PendingResponse := if r.ended then r else r.end

/-- One response frame of the request. -/
def receive (r : PendingResponse) : WebUiResponsePart → PendingResponse
  | .start status headers => r.start toLowerCase status headers
  | .chunk body =>
    match Base64.decode body with
    | some bytes => r.add toLowerCase bytes
    | none => r.fail
  | .end => r.end

def receiveAll (r : PendingResponse) (parts : List WebUiResponsePart) : PendingResponse :=
  parts.foldl (receive toLowerCase) r

/-- The bytes of the response. -/
def body (r : PendingResponse) : Bytes := r.writes.flatten

variable {toLowerCase}

theorem receive_ended {r : PendingResponse} (h : r.ended = true) (part : WebUiResponsePart) :
    r.receive toLowerCase part = r := by
  cases part with
  | start status headers => simp [receive, start, h]
  | chunk body =>
    cases hb : Base64.decode body <;> simp [receive, hb, add, fail, h]
  | «end» => simp [receive, «end», h]

/-- After the end no frame changes the response. -/
theorem receiveAll_ended {r : PendingResponse} (h : r.ended = true) (parts : List WebUiResponsePart) :
    r.receiveAll toLowerCase parts = r := by
  induction parts with
  | nil => rfl
  | cons part parts ih => rw [receiveAll, List.foldl_cons, receive_ended h, ← receiveAll, ih]

theorem receiveAll_append (r : PendingResponse) (parts parts' : List WebUiResponsePart) :
    r.receiveAll toLowerCase (parts ++ parts') = (r.receiveAll toLowerCase parts).receiveAll toLowerCase parts' :=
  List.foldl_append ..

theorem end_body (r : PendingResponse) : r.end.body = r.body := by
  unfold «end»
  split <;> rfl

end PendingResponse

end NotifyHub.Client
