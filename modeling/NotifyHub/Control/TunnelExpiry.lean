/-
  NotifyHub.Control.TunnelExpiry — a WebUI client's tunnel and the access token it rests on.

  `addWebUiClient` starts with the token of the upgrade; `webui_auth_refresh` frames renew
  it (`lastExpiry`). What the registry does when the token ends, or when the client breaks
  the protocol, is to close the socket: the tunnel stays in the closure that handles the
  frames under way.

  Proved: the time a client's tunnel ends is that of the last token accepted for it, in every
  run (`lastExpiry_run`). The tunnel ends with the token wherever no frame asks anything of
  it on a socket the registry has closed, nor a request of it past that time (`expiry_enforced`).
-/

import NotifyHub.Control.Sockets
import NotifyHub.Control.TunnelIsolation

namespace NotifyHub.Control

variable (D : Deps)

def Effect.closes (w : ClientId) : Effect → Bool
  | .clientClosed v .. => v = w
  | _ => false

/-- The registry has closed the client's socket. -/
def ClosedClient (s : Registry) (w : ClientId) : Prop := ∃ x ∈ s.trace, x.closes w = true

instance (s : Registry) (w : ClientId) : Decidable (ClosedClient s w) :=
  inferInstanceAs (Decidable (∃ x ∈ s.trace, x.closes w = true))

def ServerMessage.isHttpRequest : ServerMessage → Bool
  | .webUiHttpRequest .. => true
  | _ => false

/-- The frame asks the tunnel for a request, for a cancel, or to close. -/
def WebUiTunnel.asks (tunnel : WebUiTunnel) (ms : List (JsString × Json)) : Bool :=
  (tunnel.forward? ms).isSome ||
    (isText (member ms "type") (js "webui_tunnel_close") && isText (member ms "tunnelId") tunnel.tunnelId)

/-- When the token of a `webui_auth_refresh` frame ends, if it is accepted for the client. -/
def acceptedToken (w : ClientId) (now : Nat) (ms : List (JsString × Json)) : Option Nat :=
  match ((member ms "accessToken").bind Json.str?).bind (D.verifyToken now) with
  | none => none
  | some (sub, exp) => if sub ≠ w.userId.chars ∨ exp * 1000 ≤ now then none else some (exp * 1000)

/-- When the token ends that the event makes the client's. -/
def renewal (w : ClientId) (e : Event) : Option Nat :=
  match e.op.clientFrame? with
  | some (v, ms) =>
    if v = w ∧ isText (member ms "type") (js "webui_auth_refresh") = true then acceptedToken D w e.now ms else none
  | none => none

def authenticated (w : ClientId) (expiresAtMs : Option Nat) (e : Event) : Option Nat :=
  match expiresAtMs, e.op with
  | none, .addWebUiClient v _ expiresAtMs => if v = w then some expiresAtMs else none
  | none, _ => none
  | some expiresAtMs, _ => some ((renewal D w e).getD expiresAtMs)

/-- When the last token accepted for the client ends: the upgrade's, or one that renewed it. -/
def lastExpiry (es : List Event) (w : ClientId) : Option Nat := es.foldl (authenticated D w) none

/-- The step keeps to the client's authentication: nothing is sent to a plugin for a frame
    on a socket the registry has closed, and no request once the last token has ended. -/
structure HeldToToken (es : List Event) (e : Event) : Prop where
  closed : ∀ w frame draw, e.op = .clientFrame w frame draw → ClosedClient (run D es) w →
    ∀ c m, .sent c m ∉ effects D (run D es) e
  ended : ∀ c tunnelId requestId method path headers body,
    .sent c (.webUiHttpRequest tunnelId requestId method path headers body) ∈ effects D (run D es) e →
      ∃ w frame draw expiresAtMs, e.op = .clientFrame w frame draw ∧ lastExpiry D es w = some expiresAtMs ∧
        e.now < expiresAtMs
  /-- Nothing but an accepted token moves the end. -/
  renewed : ∀ w, ((run D es).clients w).added = true →
    ((run D (es ++ [e])).clients w).expiresAtMs = (renewal D w e).getD ((run D es).clients w).expiresAtMs

variable {D}

/-- A frame asks something of its tunnel on a socket the registry has closed, or a request past its end. -/
def Overdue (s : Registry) (e : Event) : Prop :=
  ∃ x ∈ e.op.clientFrame?, ∃ tunnel ∈ s.held x.1, (ClosedClient s x.1 ∧ tunnel.asks x.2 = true) ∨
    ((s.clients x.1).expiresAtMs ≤ e.now ∧ (tunnel.forward? x.2).any ServerMessage.isHttpRequest = true)

instance (s : Registry) (e : Event) : Decidable (Overdue s e) :=
  inferInstanceAs (Decidable (∃ x ∈ e.op.clientFrame?, ∃ tunnel ∈ s.held x.1, _))

/-! ## The end of the token -/

/-- The client's socket and its end are as they were. -/
def SameEnd (w : ClientId) (s t : Registry) : Prop :=
  (t.clients w).added = (s.clients w).added ∧ (t.clients w).expiresAtMs = (s.clients w).expiresAtMs

theorem SameEnd.trans {w : ClientId} {s t u : Registry} (h : SameEnd w s t) (h' : SameEnd w t u) : SameEnd w s u :=
  ⟨h'.1.trans h.1, h'.2.trans h.2⟩

theorem sameEnd_setClient {w v : ClientId} {s : Registry} {x : WebUiClient}
    (hx : v = w → x.added = (s.clients v).added ∧ x.expiresAtMs = (s.clients v).expiresAtMs) :
    SameEnd w s (s.setClient v x) := by
  by_cases h : w = v
  · subst h
    simpa [SameEnd, Registry.setClient] using hx rfl
  · simp [SameEnd, Registry.setClient, h]

theorem sameEnd_leave (w : ClientId) (s : Registry) (c : ConnId) : SameEnd w s (leave s c) := by
  unfold SameEnd leave dropTunnels
  dsimp only
  split <;> exact ⟨rfl, rfl⟩

theorem sameEnd_disconnect (w : ClientId) (s : Registry) (c : ConnId) : SameEnd w s (disconnect D s c) := by
  refine disconnect_keeps (P := SameEnd w s) ?_ ?_ ?_ ?_ ?_ ?_ s c ⟨rfl, rfl⟩
  · exact fun t d _ h => h.trans (sameEnd_leave w t d)
  · exact fun _ _ _ _ _ h => h
  · exact fun _ _ h => h
  · exact fun _ _ _ _ _ _ h => h
  · exact fun _ _ h => h
  · exact fun _ _ _ _ h => h

theorem sameEnd_move {op : Op} {w : ClientId} (hop : ¬ op.Authenticates w) {s t : Registry} (m : Move D op s t) :
    SameEnd w s t := by
  cases m with
  | client v x hx =>
    refine sameEnd_setClient fun hv => hx.resolve_right ?_
    rw [hv]
    exact hop
  | add c socket ha =>
    simp only [add, ha, Bool.false_eq_true, if_false]
    exact ⟨rfl, rfl⟩
  | disconnect c => exact sameEnd_disconnect w s c
  | _ => exact ⟨rfl, rfl⟩

theorem sameEnd_moves {op : Op} {w : ClientId} (hop : ¬ op.Authenticates w) {s t : Registry} (h : Moves D op s t) :
    SameEnd w s t := h.inv (P := SameEnd w s) (fun _ _ m hu => hu.trans (sameEnd_move hop m)) ⟨rfl, rfl⟩

theorem closeAll_authenticates (w : ClientId) : ¬ Op.closeAll.Authenticates w := by
  rintro (⟨_, _, h⟩ | ⟨_, _, h⟩) <;> cases h

theorem sendClient_clients (s : Registry) (w : ClientId) (m : WebUiFrame) : (s.sendClient w m).clients = s.clients := by
  unfold Registry.sendClient
  split <;> rfl

theorem refresh_end (s : Registry) (w : ClientId) (ms : List (JsString × Json)) :
    ((refreshWebUiAuth D s w (member ms "accessToken")).clients w).added = (s.clients w).added ∧
    ((refreshWebUiAuth D s w (member ms "accessToken")).clients w).expiresAtMs =
      (acceptedToken D w s.nowMs ms).getD (s.clients w).expiresAtMs := by
  have closed : ∀ code reason, SameEnd w s (s.closeClient w code reason) := fun code reason =>
    sameEnd_moves (closeAll_authenticates w) (moves_closeClient (D := D) s w code reason)
  unfold refreshWebUiAuth acceptedToken
  cases hv : ((member ms "accessToken").bind Json.str?).bind (D.verifyToken s.nowMs) with
  | none => exact closed _ _
  | some payload =>
    obtain ⟨sub, exp⟩ := payload
    dsimp only
    by_cases hbad : sub ≠ w.userId.chars ∨ exp * 1000 ≤ s.nowMs
    · rw [if_pos hbad, if_pos hbad]
      exact closed _ _
    · rw [if_neg hbad, if_neg hbad, sendClient_clients]
      simp [Registry.setClient]

/-- A client's frame moves its end when it carries a token that is accepted. -/
theorem receive_end {s : Registry} {w : ClientId} (ha : (s.clients w).added = true) (ms : List (JsString × Json))
    (draw : JsString) :
    ((receiveWebUi D s w (some ms) draw).clients w).added = true ∧
    ((receiveWebUi D s w (some ms) draw).clients w).expiresAtMs =
      (if isText (member ms "type") (js "webui_auth_refresh") = true then acceptedToken D w s.nowMs ms else none).getD
        (s.clients w).expiresAtMs := by
  have marked : SameEnd w s (s.setClient w { s.clients w with alive := true }) := sameEnd_setClient fun _ => ⟨rfl, rfl⟩
  have hnow : (s.setClient w { s.clients w with alive := true }).nowMs = s.nowMs := rfl
  unfold receiveWebUi
  rw [if_neg (by rw [ha]; decide)]
  dsimp only
  generalize s.setClient w { s.clients w with alive := true } = t at marked hnow
  rw [← ha, ← hnow, ← marked.1, ← marked.2]
  split
  · exact refresh_end t w ms
  · split
    · exact sameEnd_moves (closeAll_authenticates w) (moves_openWebUiTunnel (D := D) t w ms draw)
    · rename_i tunnel htunnel
      exact sameEnd_moves (closeAll_authenticates w) (moves_receiveWebUiRequest htunnel ms)

/-- When the client's tunnel ends; none before its socket is added. -/
def endOf (s : Registry) (w : ClientId) : Option Nat :=
  if (s.clients w).added = true then some (s.clients w).expiresAtMs else none

theorem SameEnd.endOf {w : ClientId} {s t : Registry} (h : SameEnd w s t) : endOf t w = endOf s w := by
  unfold Control.endOf
  rw [h.1, h.2]

theorem renewal_of_not {e : Event} {w : ClientId} (h : ¬ e.op.Authenticates w) : renewal D w e = none := by
  unfold renewal
  split
  · rename_i v ms hf
    rw [if_neg]
    rintro ⟨rfl, -⟩
    cases hop : e.op with
    | clientFrame u frame draw =>
      rw [hop] at hf
      cases frame with
      | none => cases hf
      | some ms' =>
        cases hf
        exact h (Or.inr ⟨some ms, draw, hop⟩)
    | _ =>
      rw [hop] at hf
      cases hf
  · rfl

theorem authenticated_of_not {e : Event} {w : ClientId} (h : ¬ e.op.Authenticates w) (t : Option Nat) :
    authenticated D w t e = t := by
  cases t with
  | none =>
    cases hop : e.op with
    | addWebUiClient v socket t =>
      have hne : v ≠ w := fun hv => h (Or.inl ⟨socket, t, hv ▸ hop⟩)
      simp [authenticated, hop, hne]
    | _ => simp [authenticated, hop]
  | some t => simp [authenticated, renewal_of_not h]

theorem endOf_step (s : Registry) (e : Event) (w : ClientId) :
    endOf (step D s e) w = authenticated D w (endOf s w) e := by
  obtain ⟨now, op⟩ := e
  by_cases hop : op.Authenticates w
  · have hticked : endOf { s with nowMs := now } w = endOf s w := rfl
    change endOf (apply D { s with nowMs := now } op) w = _
    rw [← hticked]
    generalize ht : ({ s with nowMs := now } : Registry) = t
    have hnow : t.nowMs = now := ht ▸ rfl
    obtain ⟨socket, expiresAtMs, rfl⟩ | ⟨frame, draw, rfl⟩ := hop
    · change endOf (addWebUiClient t w socket expiresAtMs) w = _
      unfold addWebUiClient
      by_cases ha : (t.clients w).added = true
      · simp [ha, endOf, authenticated, renewal, Op.clientFrame?]
      · simp [ha, endOf, authenticated, Registry.setClient]
    · change endOf (receiveWebUi D t w frame draw) w = _
      by_cases ha : (t.clients w).added = true
      · cases frame with
        | none => simp [receiveWebUi, ha, endOf, authenticated, renewal, Op.clientFrame?]
        | some ms =>
          obtain ⟨hadded, hend⟩ := receive_end (D := D) ha ms draw
          rw [endOf, if_pos hadded, hend, endOf, if_pos ha, hnow]
          simp [authenticated, renewal, Op.clientFrame?]
      · have hsame : receiveWebUi D t w frame draw = t := if_pos (by simpa using ha)
        rw [hsame]
        simp [endOf, authenticated, ha]
  · rw [authenticated_of_not hop]
    exact (sameEnd_moves hop (step_moves s ⟨now, op⟩)).endOf

/-- What the registry keeps as a client's end is that of the last token accepted for it. -/
theorem lastExpiry_run (es : List Event) (w : ClientId) : lastExpiry D es w = endOf (run D es) w := by
  induction es using List.reverseRecOn with
  | nil => rfl
  | append_singleton es e ih =>
    rw [run_snoc, endOf_step, ← ih, lastExpiry, List.foldl_append]
    rfl

/-! ## What a frame sends -/

theorem silent_closeClient (s : Registry) (w : ClientId) (code : Nat) (reason : String) :
    Silent (fun _ => True) s (s.closeClient w code reason) :=
  .effects (l := [.clientClosed w code reason]) rfl (by simp)

theorem silent_sendClient (s : Registry) (w : ClientId) (m : WebUiFrame) :
    Silent (fun _ => True) s (s.sendClient w m) := by
  unfold Registry.sendClient
  split
  · exact .effects rfl (by simp)
  · exact .effects rfl (by simp)

theorem silent_openWebUiTunnel (s : Registry) (w : ClientId) (ms : List (JsString × Json)) (draw : JsString) :
    Silent (fun _ => True) s (openWebUiTunnel s w ms draw) := by
  unfold openWebUiTunnel
  split
  · exact silent_closeClient ..
  · split
    · split
      · exact .effects rfl (by simp)
      · exact (Silent.effects rfl (by simp)).trans (silent_closeClient ..)
    · exact (Silent.same rfl).trans (silent_sendClient ..)

theorem silent_refreshWebUiAuth (s : Registry) (w : ClientId) (accessToken : Option Json) :
    Silent (fun _ => True) s (refreshWebUiAuth D s w accessToken) := by
  unfold refreshWebUiAuth
  split
  · exact silent_closeClient ..
  · split
    · exact silent_closeClient ..
    · exact (Silent.same rfl).trans (silent_sendClient ..)

/-- What asks nothing of the tunnel has no effect. -/
theorem receiveWebUiRequest_of_not {s : Registry} {w : ClientId} {tunnel : WebUiTunnel} {ms : List (JsString × Json)}
    (h : tunnel.asks ms = false) : receiveWebUiRequest D s w tunnel ms = s := by
  obtain ⟨hforward, hclose⟩ := Bool.or_eq_false_iff.mp h
  have hneither : ¬ (isText (member ms "type") (js "webui_tunnel_close") = true ∧
      isText (member ms "tunnelId") tunnel.tunnelId = true) := by
    rintro ⟨hc, hm⟩
    rw [hc, hm] at hclose
    cases hclose
  unfold WebUiTunnel.forward? at hforward
  unfold receiveWebUiRequest
  cases hid : uuid? (member ms "requestId") with
  | none => simp [hneither]
  | some id =>
    by_cases hcancel : isText (member ms "type") (js "webui_http_cancel") = true ∧
        isText (member ms "tunnelId") tunnel.tunnelId = true ∧ id ∈ tunnel.pendingRequests
    · simp [hid, Option.filter, hcancel] at hforward
    · cases hm : httpRequest? tunnel ms with
      | none => simp [Option.filter, hcancel, hneither]
      | some m =>
        by_cases hp : id ∈ tunnel.pendingRequests
        · simp [Option.filter, hcancel, hneither]
          exact fun hno => absurd hp hno
        · simp [hid, Option.filter, hm, hp] at hforward

theorem silent_receiveWebUi {s : Registry} {w : ClientId} {ms : List (JsString × Json)} {draw : JsString}
    (h : ∀ tunnel, s.held w = some tunnel → tunnel.asks ms = false) :
    Silent (fun _ => True) s (receiveWebUi D s w (some ms) draw) := by
  unfold receiveWebUi
  split
  · exact .refl s
  · have marked : Silent (fun _ => True) s (s.setClient w { s.clients w with alive := true }) := .same rfl
    have hheld : ((s.setClient w { s.clients w with alive := true }).clients w).tunnel = s.held w := by
      simp [Registry.setClient, Registry.held]
    dsimp only
    generalize s.setClient w { s.clients w with alive := true } = t at marked hheld
    refine marked.trans ?_
    split
    · exact silent_refreshWebUiAuth ..
    · split
      · exact silent_openWebUiTunnel ..
      · rename_i tunnel htunnel
        rw [receiveWebUiRequest_of_not (h tunnel (hheld.symm.trans htunnel))]
        exact .refl t

/-- What a step sends a plugin on a tunnel, a client's frame asked for. -/
theorem forwarded_for (es : List Event) (e : Event) {c : ConnId} {m : ServerMessage} (hm : m.tunnel?.isSome = true)
    (h : .sent c m ∈ effects D (run D es) e) :
    ∃ w ms draw tunnel, e.op = .clientFrame w (some ms) draw ∧ (run D es).held w = some tunnel ∧
      tunnel.forward? ms = some m := by
  have hx : (Effect.sent c m).forwards = true := hm
  rcases step_change (kept_run (D := D) es).blank e with
    ⟨-, hstill⟩ | ⟨w, ms, draw, he, -, hc⟩ | ⟨_, _, _, _, _, _, l, _, _, _, _, hl, hch⟩
  · cases (hstill.mem hx).mp h
  · obtain ⟨tunnel, hw, -, hf, -⟩ := (sent_of_client hc hm).mp h
    exact ⟨w, ms, draw, tunnel, he, hw, hf⟩
  · have hmem := (hch.mem hx).mp h
    rcases hl with rfl | rfl
    · cases hmem
    · cases List.mem_singleton.mp hmem

theorem silent_effects {Q : ConnId → Prop} {s : Registry} {e : Event} (h : Silent Q s (step D s e)) {c : ConnId}
    (hc : Q c) (m : ServerMessage) : .sent c m ∉ effects D s e := by
  obtain ⟨later, htrace, hnone⟩ := h
  rw [effects, htrace, List.drop_left]
  exact hnone c m hc

/-! ## The run -/

theorem heldToToken_of_not {es : List Event} {e : Event} (h : ¬ Overdue (run D es) e) : HeldToToken D es e where
  closed := by
    intro w frame draw he hclosed
    refine fun c m => silent_effects (Q := fun _ => True) ?_ trivial m
    unfold step
    rw [he]
    refine Silent.trans (t := receiveWebUi D { run D es with nowMs := e.now } w frame draw) ?_ (.effects rfl (by simp))
    cases frame with
    | none =>
      unfold receiveWebUi
      split <;> exact .same rfl
    | some ms =>
      refine Silent.trans (t := { run D es with nowMs := e.now }) (.same rfl) (silent_receiveWebUi fun tunnel hw => ?_)
      by_contra hasks
      exact h ⟨(w, ms), by rw [he]; rfl, tunnel, hw, Or.inl ⟨hclosed, by simpa using hasks⟩⟩
  ended := by
    intro c tunnelId requestId method path headers body hsent
    obtain ⟨w, ms, draw, tunnel, he, hw, hf⟩ := forwarded_for es e rfl hsent
    obtain ⟨rfl, -⟩ := forward_request hf
    have hadded : ((run D es).clients w).added = true := by
      by_contra hn
      rw [(kept_run (D := D) es).blank w (by simpa using hn)] at hw
      cases hw
    refine ⟨w, some ms, draw, ((run D es).clients w).expiresAtMs, he, ?_, ?_⟩
    · rw [lastExpiry_run, endOf, if_pos hadded]
    · by_contra hlate
      exact h ⟨(w, ms), by rw [he]; rfl, tunnel, hw, Or.inr ⟨Nat.le_of_not_lt hlate, by rw [hf]; rfl⟩⟩
  renewed := by
    intro w hadded
    have hstep := endOf_step (D := D) (run D es) e w
    rw [← run_snoc, endOf, endOf, if_pos hadded] at hstep
    split at hstep
    · simpa [authenticated] using hstep
    · simp [authenticated] at hstep

/-- A run keeps its clients to their tokens at every step, if none of its frames is overdue. -/
theorem expiry_enforced (es : List Event) (h : Along (step D) (fun s e => ¬ Overdue s e) .init es) (before : List Event)
    (e : Event) (after : List Event) (hsplit : es = before ++ e :: after) : HeldToToken D before e :=
  heldToToken_of_not (along_iff.mp h before e after hsplit)

/-! ## Two runs -/

/-- A platform that verifies one token. -/
def tokenDeps : Deps :=
  { sampleDeps with verifyToken := fun now token => if token = js "renewed" ∧ now < 5000 then some (alice.chars, 5)
    else none }

/-- A browser opens a tunnel, with a token that ends at 1000. -/
def openTunnel : List Event :=
  [⟨0, .add (plugin 0) openSocket⟩,
    ⟨1, .frame (plugin 0) (some (.register { sampleRegistration instance1 with webUiAvailable := some true }))⟩,
    ⟨2, .addWebUiClient browser openSocket 1000⟩,
    ⟨3, .clientFrame browser (some (clientText [("type", js "webui_tunnel_open"), ("instanceId", instance1)])) tunnel1⟩]

def requestAt (now : Nat) : Event :=
  ⟨now, .clientFrame browser (some (clientText [("type", js "webui_http_request"), ("tunnelId", tunnel1),
    ("requestId", request1), ("method", js "GET"), ("path", js "/")] ++ [(js "headers", .obj [])])) []⟩

def renewed : Event :=
  ⟨900, .clientFrame browser (some (clientText [("type", js "webui_auth_refresh"), ("accessToken", js "renewed")])) []⟩

/-- It renews it in time, and goes on. -/
theorem renewed_in_time : HeldToToken tokenDeps (openTunnel ++ [renewed]) (requestAt 1500) :=
  expiry_enforced (openTunnel ++ [renewed, requestAt 1500]) (by decide +kernel) (openTunnel ++ [renewed])
    (requestAt 1500) [] rfl

/-- It does not, and the request it sends behind the close reaches the plugin. -/
theorem request_after_expiry :
    ¬ ∀ (D : Deps) (es before : List Event) (e : Event) (after : List Event), es = before ++ e :: after →
      HeldToToken D before e := by
  intro h
  have hheld := h sampleDeps _ (openTunnel ++ [⟨1000, .clientExpired browser⟩]) (requestAt 1001) [] rfl
  have hclosed : ClosedClient (run sampleDeps (openTunnel ++ [⟨1000, .clientExpired browser⟩]))
    browser := by decide +kernel
  have hsent : ((effects sampleDeps (run sampleDeps (openTunnel ++ [⟨1000, .clientExpired browser⟩]))
    (requestAt 1001)).any
      fun x => x.message?.any ServerMessage.isHttpRequest) = true := by decide +kernel
  obtain ⟨x, hx, hm⟩ := List.any_eq_true.mp hsent
  cases x with
  | sent c m => exact hheld.closed browser _ _ rfl hclosed c m hx
  | _ => cases hm

end NotifyHub.Control
