/-
  NotifyHub.Control.Tunnels — what a step does to the WebUI tunnels.

  The frames of interest are the requests and cancels the gateway forwards to a plugin
  and the response parts it forwards to a client. `Change` says everything a step may do
  to them and to the tunnels; most operations are `Still`: they forward nothing, open
  nothing and leave every tunnel's requests alone (`apply_still`). The others are a frame
  of a client (`receiveWebUi_change`) and a response of a plugin
  (`handleWebUiResponse_change`).
-/

import NotifyHub.Control.Moves

namespace NotifyHub.Control

variable {D : Deps}

/-! ## Frames of tunnels -/

/-- The tunnel a forwarded request or cancel belongs to. -/
def ServerMessage.tunnel? : ServerMessage → Option JsString
  | .webUiHttpRequest tunnelId .. => some tunnelId
  | .webUiHttpCancel tunnelId _ => some tunnelId
  | _ => none

/-- A request, a cancel or a response part is forwarded. -/
def Effect.forwards : Effect → Bool
  | .sent _ m => m.tunnel?.isSome
  | .clientSent _ (.response ..) => true
  | _ => false

/-- From `s` to `t`: the clients hold the tunnels `f`, no tunnel has entered the map but
    those `opened`, and the frames `l` were forwarded. -/
structure Change (f : ClientId → Option WebUiTunnel) (opened : List (JsString × ClientId)) (l : List Effect)
    (s t : Registry) : Prop where
  tunnel : ∀ w, (t.clients w).tunnel = f w
  added : ∀ w, (s.clients w).added = true → (t.clients w).added = true
  mapped : ∀ id w, t.webUiTunnels.get id = some w → (id, w) ∈ opened ∨ s.webUiTunnels.get id = some w
  trace : ∃ k, t.trace = s.trace ++ k ∧ k.filter Effect.forwards = l

/-- The tunnel each client holds. -/
def Registry.held (s : Registry) (w : ClientId) : Option WebUiTunnel := (s.clients w).tunnel

abbrev Still (s t : Registry) : Prop := Change s.held [] [] s t

theorem Change.trans {f g : ClientId → Option WebUiTunnel} {o o' : List (JsString × ClientId)} {l l' : List Effect}
    {s t u : Registry} (h : Change f o l s t) (h' : Change g o' l' t u) : Change g (o ++ o') (l ++ l') s u := by
  obtain ⟨k, hk, hl⟩ := h.trace
  obtain ⟨k', hk', hl'⟩ := h'.trace
  refine ⟨h'.tunnel, fun w hw => h'.added w (h.added w hw), fun id w hw => ?_, k ++ k', ?_, ?_⟩
  · rcases h'.mapped id w hw with ho | hm
    · exact Or.inl (List.mem_append_right _ ho)
    · exact (h.mapped id w hm).imp_left (List.mem_append_left _)
  · rw [hk', hk, List.append_assoc]
  · rw [List.filter_append, hl, hl']

theorem Still.refl (s : Registry) : Still s s := ⟨fun _ => rfl, fun _ h => h, fun _ _ h => Or.inr h, [], by simp, rfl⟩

theorem Change.held_eq {f : ClientId → Option WebUiTunnel} {o : List (JsString × ClientId)} {l : List Effect}
    {s t : Registry} (h : Change f o l s t) : t.held = f := funext h.tunnel

theorem Change.still {f : ClientId → Option WebUiTunnel} {o : List (JsString × ClientId)} {l : List Effect}
    {s t u : Registry} (h : Change f o l s t) (h' : Still t u) : Change f o l s u := by
  have := h.trans h'
  rwa [h.held_eq, List.append_nil, List.append_nil] at this

theorem Still.then {g : ClientId → Option WebUiTunnel} {o : List (JsString × ClientId)} {l : List Effect}
    {s t u : Registry} (h : Still s t) (h' : Change g o l t u) : Change g o l s u := h.trans h'

/-- A write to other parts of the state. -/
theorem Still.frame {s t : Registry} (hc : t.clients = s.clients) (hm : t.webUiTunnels = s.webUiTunnels)
    (ht : t.trace = s.trace) : Still s t :=
  ⟨fun w => by rw [hc]; rfl, fun w h => by rw [hc]; exact h, fun id w h => Or.inr (by rwa [hm] at h),
    [], by simp [ht], rfl⟩

theorem Still.log (s : Registry) (e : Effect) (he : e.forwards = false) : Still s (s.log e) :=
  ⟨fun _ => rfl, fun _ h => h, fun _ _ h => Or.inr h, [e], rfl, by simp [he]⟩

theorem Still.client {s : Registry} (w : ClientId) (x : WebUiClient) (ht : x.tunnel = (s.clients w).tunnel)
    (ha : (s.clients w).added = true → x.added = true) : Still s (s.setClient w x) := by
  refine ⟨fun v => ?_, fun v hv => ?_, fun _ _ h => Or.inr h, [], by simp [Registry.setClient], rfl⟩ <;>
    by_cases h : v = w <;> simp only [Registry.setClient, h, if_true, if_false, Registry.held]
  · exact ht
  · exact ha (h ▸ hv)
  · exact hv

theorem Still.tunnels {s : Registry} (m : OMap JsString ClientId)
    (h : ∀ id w, m.get id = some w → s.webUiTunnels.get id = some w) : Still s { s with webUiTunnels := m } :=
  ⟨fun _ => rfl, fun _ h => h, fun id w hw => Or.inr (h id w hw), [], by simp, rfl⟩

/-- Effects that forward nothing, appended. -/
theorem Still.effects {s t : Registry} (hc : t.clients = s.clients) (hm : t.webUiTunnels = s.webUiTunnels)
    {k : List Effect} (ht : t.trace = s.trace ++ k) (hk : ∀ e ∈ k, e.forwards = false) : Still s t :=
  ⟨fun w => by rw [hc]; rfl, fun w h => by rw [hc]; exact h, fun id w h => Or.inr (by rwa [hm] at h), k, ht,
    List.filter_eq_nil_iff.mpr fun e he => by simp [hk e he]⟩

/-! ## Disconnecting and sending -/

theorem still_leave (s : Registry) (c : ConnId) : Still s (leave s c) := by
  have pending : Still s (dropPending { s with connections := s.connections.filter (· ≠ c) } c) := by
    refine Still.effects rfl rfl rfl fun e he => ?_
    obtain ⟨p, _, rfl⟩ := List.mem_map.mp he
    rfl
  unfold leave
  refine pending.still ?_
  generalize dropPending { s with connections := s.connections.filter (· ≠ c) } c = t
  refine ⟨fun w => ?_, fun w hw => ?_, fun id w hw => ?_, _, rfl, ?_⟩
  · simp only [dropTunnels, Registry.held]
    split <;> rfl
  · simp only [dropTunnels]
    split <;> exact hw
  · simp only [dropTunnels, OMap.get_filter] at hw
    exact Or.inr (Option.filter_eq_some_iff.mp hw).1
  · refine List.filter_eq_nil_iff.mpr fun e he => ?_
    obtain ⟨w, _, rfl⟩ := List.mem_map.mp he
    simp [Effect.forwards]

theorem still_shut (s : Registry) (c : ConnId) :
    Still s (s.setConn c { s.conns c with socket := (s.conns c).socket.shut }) := .frame rfl rfl rfl

theorem still_disconnect (s : Registry) (c : ConnId) : Still s (disconnect D s c) := by
  refine disconnect_keeps (P := Still s) ?_ ?_ ?_ ?_ ?_ ?_ s c (.refl s)
  · exact fun t d _ h => h.still (still_leave t d)
  · exact fun _ _ _ _ _ h => h.still (.frame rfl rfl rfl)
  · exact fun _ _ h => h.still (.frame rfl rfl rfl)
  · exact fun _ _ _ _ _ _ h => h.still (.frame rfl rfl rfl)
  · exact fun t d h => h.still (still_shut t d)
  · intro t e he _ h
    refine h.still (.log t e ?_)
    cases e with
    | sent d m =>
      cases m with
      | registration => rfl
      | _ => cases he
    | clientSent => cases he
    | _ => rfl

theorem still_terminate (s : Registry) (c : ConnId) : Still s (s.terminate c) :=
  (still_shut s c).still (.log _ _ rfl)

theorem still_closeSocket (s : Registry) (c : ConnId) (code : Nat) (reason : String) :
    Still s (s.closeSocket c code reason) := (still_shut s c).still (.log _ _ rfl)

/-- The frames `send` forwards: this one, or none. -/
def delivered (s : Registry) (c : ConnId) (m : ServerMessage) : List Effect :=
  if (s.conns c).socket.accepts ∧ m.tunnel?.isSome then [.sent c m] else []

theorem change_send (s : Registry) (c : ConnId) (m : ServerMessage) :
    Change s.held [] (delivered s c m) s (send D s c m) := by
  unfold send delivered
  rcases sendWith_cases (disconnect D) s c m with ⟨ha, h⟩ | ⟨ha, h | h⟩ <;> rw [h]
  · refine ⟨fun _ => rfl, fun _ h => h, fun _ _ h => Or.inr h, [.sent c m], rfl, ?_⟩
    cases hm : m.tunnel?.isSome <;> simp [Effect.forwards, ha, hm]
  · simp only [ha, Bool.false_eq_true, false_and, if_false]
    exact (still_disconnect s c).still (still_terminate _ c)
  · simp only [ha, Bool.false_eq_true, false_and, if_false]
    exact still_disconnect s c

theorem still_send (s : Registry) (c : ConnId) {m : ServerMessage} (hm : m.tunnel? = none) :
    Still s (send D s c m) := by
  have := change_send (D := D) s c m
  simpa [delivered, hm] using this

theorem still_publish (s : Registry) (u : UserId) : Still s (publishSnapshot s u) := .log _ _ rfl

theorem still_closeEach (code : Nat) (reason : String) (cs : List ConnId) :
    ∀ s : Registry, Still s (closeEach D code reason s cs) := by
  induction cs with
  | nil => exact Still.refl
  | cons c cs ih => exact fun s => ((still_disconnect s c).still (still_closeSocket _ c code reason)).still (ih _)

theorem still_onRecord (s : Registry) (c : ConnId) (f : InstanceRecord → InstanceRecord) :
    Still s (onRecord s c f) := by
  unfold onRecord
  split
  · exact .frame rfl rfl rfl
  · exact .refl s

/-! ## Frames of a plugin -/

theorem still_handleSnapshotResponse (s : Registry) (c : ConnId) (requestId instanceId : JsString)
    (interactions : List PendingInteraction) :
    Still s (handleSnapshotResponse s c requestId instanceId interactions) := by
  unfold handleSnapshotResponse
  split
  · exact .refl s
  · split
    · exact .refl s
    · have cleared : Still s { s with pendingRequests := s.pendingRequests.delete (pendingKey s c requestId) } :=
        .frame rfl rfl rfl
      exact (cleared.still (still_onRecord _ c _)).still (.frame rfl rfl rfl)

theorem still_settleOutcome (s : Registry) (commandId : JsString) (status : CommandStatus) :
    Still s (settleOutcome s commandId status) := .frame rfl rfl rfl

theorem still_untrackCommand (s : Registry) (k : CommandKind) (c : ConnId) (commandId : JsString) :
    Still s (untrackCommand s k c commandId) := .frame rfl rfl rfl

theorem still_handleCommandResult (k : CommandKind) (s : Registry) (c : ConnId) (commandId instanceId : JsString)
    (status : CommandStatus) : Still s (handleCommandResult k s c commandId instanceId status) := by
  unfold handleCommandResult
  split
  · exact .refl s
  · split
    · exact .refl s
    · refine Change.still ?_ (still_settleOutcome _ _ status)
      split
      · exact (still_untrackCommand s k c commandId).still (still_onRecord _ c _)
      · exact still_untrackCommand s k c commandId

theorem still_completeRegistration (s : Registry) (c : ConnId) (registration : RegisterMessage)
    (existing : Option InstanceRecord) : Still s (completeRegistration D s c registration existing) := by
  have enrolled : Still s (enroll D s c registration existing) := .frame rfl rfl rfl
  exact (enrolled.still (still_send _ c rfl)).still (still_publish _ _)

theorem still_register (s : Registry) (c : ConnId) (registration : RegisterMessage) :
    Still s (register D s c registration) := by
  unfold register
  dsimp only
  split
  · exact still_completeRegistration ..
  · split
    · exact still_completeRegistration ..
    · rename_i d _
      split
      · exact still_completeRegistration ..
      · split
        · exact (still_disconnect s d).still (.log _ _ rfl)
        · exact ((still_disconnect s d).still (still_closeSocket _ _ _ _)).still (still_completeRegistration ..)

/-- A frame of a plugin that is no response part. -/
theorem still_receive (s : Registry) (c : ConnId) {frame : Option ClientMessage}
    (hf : ∀ tunnelId requestId part, frame ≠ some (.webUiResponse tunnelId requestId part)) :
    Still s (receive D s c frame) := by
  unfold receive
  split
  · exact .refl s
  · have marked : Still s (s.setConn c { s.conns c with alive := true }) := .frame rfl rfl rfl
    refine marked.still ?_
    generalize s.setConn c { s.conns c with alive := true } = t
    match frame with
    | none => exact (still_disconnect t c).still (still_closeSocket ..)
    | some (.webUiResponse tunnelId requestId part) => exact absurd rfl (hf tunnelId requestId part)
    | some (.pendingSnapshotResponse ..) => exact still_handleSnapshotResponse ..
    | some (.questionAnswerResult ..) => exact still_handleCommandResult ..
    | some (.permissionDecideResult ..) => exact still_handleCommandResult ..
    | some (.sessionPromptResult ..) =>
      dsimp only
      unfold handleSessionPromptResult
      split
      · exact .refl t
      · exact .frame rfl rfl rfl
    | some (.sessionCatalogResponse requestId _ _ _) =>
      dsimp only
      unfold handleCatalogResponse
      split
      · exact .refl t
      · split
        · exact .refl t
        · have answered : Still t { t with catalogRequests := t.catalogRequests.delete requestId } := .frame rfl rfl rfl
          exact answered.still (.log _ _ rfl)
    | some (.register registration) =>
      dsimp only
      split
      · exact (still_disconnect t c).still (still_closeSocket ..)
      · exact still_register t c registration

/-! ## Tunnels -/

/-- The tunnels held once `w`'s has other requests pending. -/
def Registry.withPending (s : Registry) (w : ClientId) (f : List JsString → List JsString) (v : ClientId) :
    Option WebUiTunnel :=
  if v = w then (s.held w).map fun t => { t with pendingRequests := f t.pendingRequests } else s.held v

theorem change_setPendingRequests (s : Registry) (w : ClientId) (f : List JsString → List JsString) :
    Change (s.withPending w f) [] [] s (setPendingRequests s w f) := by
  refine ⟨fun v => ?_, fun v hv => ?_, fun _ _ h => Or.inr h, [], by simp [setPendingRequests, Registry.setClient],
    rfl⟩ <;>
    by_cases h : v = w <;> simp only
      [setPendingRequests, Registry.setClient, Registry.withPending, h, if_true, if_false]
  · rfl
  · rfl
  · exact h ▸ hv
  · exact hv

theorem still_closeWebUiTunnel (s : Registry) (w : ClientId) : Still s (closeWebUiTunnel D s w) := by
  unfold closeWebUiTunnel
  split
  · exact .refl s
  · rename_i tunnel _
    split
    · exact .refl s
    · have dropped : Still s { s with webUiTunnels := s.webUiTunnels.delete tunnel.tunnelId } := by
        refine .tunnels _ fun id w hw => ?_
        rw [OMap.get_delete] at hw
        split at hw
        · cases hw
        · exact hw
      dsimp only
      split
      · exact dropped.still (still_send _ _ rfl)
      · exact dropped

theorem still_shutClient (s : Registry) (w : ClientId) :
    Still s (s.setClient w { s.clients w with socket := (s.clients w).socket.shut }) := .client w _ rfl fun h => h

theorem still_closeClient (s : Registry) (w : ClientId) (code : Nat) (reason : String) :
    Still s (s.closeClient w code reason) := (still_shutClient s w).still (.log _ _ rfl)

theorem still_terminateClient (s : Registry) (w : ClientId) : Still s (s.terminateClient w) :=
  (still_shutClient s w).still (.log _ _ rfl)

theorem still_sendClient (s : Registry) (w : ClientId) {m : WebUiFrame}
    (hm : (Effect.clientSent w m).forwards = false) :
    Still s (s.sendClient w m) := by
  unfold Registry.sendClient
  split
  · exact .log _ _ rfl
  · exact .log _ _ hm

/-- A response part reaches the client that holds the tunnel, for a request it has pending. -/
theorem handleWebUiResponse_change (s : Registry) (c : ConnId) (tunnelId requestId : JsString)
    (part : WebUiResponsePart) :
    Still s (handleWebUiResponse D s c tunnelId requestId part) ∨
    ∃ w tunnel l, s.webUiTunnels.get tunnelId = some w ∧ s.held w = some tunnel ∧ tunnel.connection = c ∧
      requestId ∈ tunnel.pendingRequests ∧ (l = [] ∨ l = [.clientSent w (.response tunnelId requestId part)]) ∧
      Change (if part = .end then s.withPending w (·.erase requestId) else s.held) [] l s
        (handleWebUiResponse D s c tunnelId requestId part) := by
  unfold handleWebUiResponse
  split
  · exact Or.inl (.refl s)
  · rename_i w hw
    split
    · exact Or.inl (.refl s)
    · rename_i tunnel ht
      split
      · exact Or.inl (.refl s)
      · rename_i hc
        rw [not_or, not_not, not_not] at hc
        have erased : Change (if part = .end then s.withPending w (·.erase requestId) else s.held) [] [] s
            (if part = .end then setPendingRequests s w (·.erase requestId) else s) := by
          split
          · exact change_setPendingRequests s w _
          · exact Still.refl s
        refine Or.inr ⟨w, tunnel, ?_⟩
        generalize (if part = .end then setPendingRequests s w (·.erase requestId) else s) = t at erased
        dsimp only
        by_cases hb : (t.clients w).socket.bufferedAmount > WS_MAX_BUFFERED_BYTES
        · rw [if_pos hb]
          exact ⟨[], hw, ht, hc.1, hc.2, Or.inl rfl,
            (erased.still (still_closeWebUiTunnel t w)).still (still_terminateClient _ w)⟩
        · rw [if_neg hb]
          by_cases hthrow : (t.clients w).socket.sendThrows = true
          · rw [if_pos hthrow]
            exact ⟨[], hw, ht, hc.1, hc.2, Or.inl rfl, erased.still (still_closeWebUiTunnel t w)⟩
          · rw [if_neg hthrow]
            have sent : Change t.held [] [.clientSent w (.response tunnelId requestId part)] t
                (t.log (.clientSent w (.response tunnelId requestId part))) :=
              ⟨fun _ => rfl, fun _ h => h, fun _ _ h => Or.inr h, [_], rfl, rfl⟩
            refine ⟨_, hw, ht, hc.1, hc.2, Or.inr rfl, ?_⟩
            have := erased.trans sent
            rwa [erased.held_eq] at this

/-! ## Frames of a client -/

/-- `ms` asks to cancel the request on the tunnel. -/
structure IsCancel (ms : List (JsString × Json)) (tunnelId requestId : JsString) : Prop where
  type : isText (member ms "type") (js "webui_http_cancel") = true
  tunnel : isText (member ms "tunnelId") tunnelId = true
  request : uuid? (member ms "requestId") = some requestId

/-- `ms` is a well-formed request on the tunnel. -/
structure IsRequest (ms : List (JsString × Json)) (tunnelId requestId method path : JsString)
    (headers : List (JsString × Json)) (body : Option JsString) : Prop where
  type : isText (member ms "type") (js "webui_http_request") = true
  tunnel : isText (member ms "tunnelId") tunnelId = true
  request : uuid? (member ms "requestId") = some requestId
  method : member ms "method" = some (.str method) ∧ method.length ≠ 0 ∧ method.length ≤ 16
  path : member ms "path" = some (.str path) ∧ path.length ≠ 0 ∧ path.length ≤ 8192
  headers : member ms "headers" = some (.obj headers)
  body : httpBody? (member ms "body") = some body

theorem str_eq_some {v : Json} {s : JsString} (h : v.str? = some s) : v = .str s := by
  cases v with
  | str t => cases h; rfl
  | _ => cases h

theorem record_eq_some {v : Json} {ms : List (JsString × Json)} (h : v.record? = some ms) : v = .obj ms := by
  cases v with
  | obj t => cases h; rfl
  | _ => cases h

theorem httpRequest_eq_some {tunnel : WebUiTunnel} {ms : List (JsString × Json)} {m : ServerMessage}
    (h : httpRequest? tunnel ms = some m) : ∃ requestId method path headers body,
      IsRequest ms tunnel.tunnelId requestId method path headers body ∧
      m = .webUiHttpRequest tunnel.tunnelId requestId method path headers body := by
  simp only [httpRequest?, Option.bind_eq_bind, Option.bind_eq_some_iff] at h
  obtain ⟨requestId, hid, method, ⟨_, hmethod, hm⟩, path, ⟨_, hpath, hp⟩, headers, ⟨_, hheaders, hh⟩,
    body, hbody, h⟩ := h
  rw [str_eq_some hm] at hmethod
  rw [str_eq_some hp] at hpath
  rw [record_eq_some hh] at hheaders
  split at h
  · rename_i hok
    cases h
    exact ⟨requestId, method, path, headers, body, ⟨hok.1, hok.2.1, hid, ⟨hmethod, hok.2.2.1, hok.2.2.2.1⟩,
      ⟨hpath, hok.2.2.2.2⟩, hheaders, hbody⟩, rfl⟩
  · cases h

/-- What the gateway makes of a frame on an open tunnel: the frame it hands to `send`. -/
def WebUiTunnel.forward? (tunnel : WebUiTunnel) (ms : List (JsString × Json)) : Option ServerMessage :=
  match (uuid? (member ms "requestId")).filter fun id => isText (member ms "type") (js "webui_http_cancel") ∧
      isText (member ms "tunnelId") tunnel.tunnelId ∧ id ∈ tunnel.pendingRequests with
  | some id => some (.webUiHttpCancel tunnel.tunnelId id)
  | none =>
    match httpRequest? tunnel ms with
    | some m => if (uuid? (member ms "requestId")).any fun id => id ∈ tunnel.pendingRequests then none else some m
    | none => none

theorem isText_eq {v : Option Json} {t : JsString} (h : isText v t = true) : v = some (.str t) := by
  match v with
  | some (.str u) => simpa [isText, Json.str?] using h

/-- The three things a frame on a held tunnel can do. -/
theorem receiveWebUiRequest_change (s : Registry) (w : ClientId) (tunnel : WebUiTunnel) (ms : List (JsString × Json)) :
    (tunnel.forward? ms = none ∧ Still s (receiveWebUiRequest D s w tunnel ms)) ∨
    (∃ id ∈ tunnel.pendingRequests, IsCancel ms tunnel.tunnelId id ∧
      tunnel.forward? ms = some (.webUiHttpCancel tunnel.tunnelId id) ∧
      Change (s.withPending w (·.erase id)) [] (delivered s tunnel.connection (.webUiHttpCancel tunnel.tunnelId id)) s
        (receiveWebUiRequest D s w tunnel ms)) ∨
    ∃ id method path headers body, id ∉ tunnel.pendingRequests ∧
      IsRequest ms tunnel.tunnelId id method path headers body ∧
      tunnel.forward? ms = some (.webUiHttpRequest tunnel.tunnelId id method path headers body) ∧
      Change (s.withPending w (· ++ [id])) []
        (delivered s tunnel.connection (.webUiHttpRequest tunnel.tunnelId id method path headers body)) s
        (receiveWebUiRequest D s w tunnel ms) := by
  have write : ∀ (f : List JsString → List JsString) (m : ServerMessage),
      Change (s.withPending w f) [] (delivered s tunnel.connection m) s
        (send D (setPendingRequests s w f) tunnel.connection m) := by
    intro f m
    have := (change_setPendingRequests s w f).trans
      (change_send (D := D) (setPendingRequests s w f) tunnel.connection m)
    rwa [(change_setPendingRequests s w f).held_eq] at this
  unfold receiveWebUiRequest WebUiTunnel.forward?
  dsimp only
  generalize hid : (uuid? (member ms "requestId")).filter _ = cancelled
  cases cancelled with
  | some id =>
    obtain ⟨hid, hcancel⟩ := Option.filter_eq_some_iff.mp hid
    rw [decide_eq_true_iff] at hcancel
    exact Or.inr (Or.inl ⟨id, hcancel.2.2, ⟨hcancel.1, hcancel.2.1, hid⟩, rfl, write _ _⟩)
  | none =>
    dsimp only
    by_cases hclose : isText (member ms "type") (js "webui_tunnel_close") ∧
      isText (member ms "tunnelId") tunnel.tunnelId
    · rw [if_pos hclose]
      refine Or.inl ⟨?_, still_closeWebUiTunnel s w⟩
      cases hm : httpRequest? tunnel ms with
      | none => rfl
      | some m =>
        obtain ⟨_, _, _, _, _, hreq, -⟩ := httpRequest_eq_some hm
        have := (isText_eq hclose.1).symm.trans (isText_eq hreq.type)
        simp [js] at this
    · rw [if_neg hclose]
      cases hm : httpRequest? tunnel ms with
      | none => cases uuid? (member ms "requestId") <;> exact Or.inl ⟨rfl, .refl s⟩
      | some m =>
        obtain ⟨id, method, path, headers, body, hreq, rfl⟩ := httpRequest_eq_some hm
        simp only [hreq.request, Option.any_some]
        by_cases hp : id ∈ tunnel.pendingRequests
        · simp only [hp, decide_true, if_true]
          exact Or.inl ⟨trivial, .refl s⟩
        · simp only [hp, decide_false, Bool.false_eq_true, if_false]
          exact Or.inr (Or.inr ⟨id, method, path, headers, body, hp, hreq, rfl, write _ _⟩)

theorem still_refreshWebUiAuth (s : Registry) (w : ClientId) (accessToken : Option Json) :
    Still s (refreshWebUiAuth D s w accessToken) := by
  unfold refreshWebUiAuth
  split
  · exact still_closeClient ..
  · split
    · exact still_closeClient ..
    · rename_i exp _ _
      have renewed : Still s (s.setClient w { s.clients w with
          expiresAtMs := exp * 1000, expiry := some (expiryDue s.nowMs (exp * 1000)) }) :=
        .client w _ rfl fun h => h
      exact renewed.still (still_sendClient _ _ rfl)

theorem openWebUiTunnel_change (s : Registry) (w : ClientId) (ms : List (JsString × Json)) (draw : JsString) :
    Still s (openWebUiTunnel s w ms draw) ∨
    ∃ c, Change (fun v => if v = w then some ⟨draw, c, []⟩ else s.held v) [(draw, w)] [] s
      (openWebUiTunnel s w ms draw) := by
  unfold openWebUiTunnel
  split
  · exact Or.inl (still_closeClient ..)
  · split
    · split
      · exact Or.inl (.log _ _ rfl)
      · exact Or.inl ((Still.log s _ rfl).still (still_closeClient ..))
    · rename_i c _
      refine Or.inr ⟨c, Change.still (t := { s.setClient w { s.clients w with tunnel := some ⟨draw, c, []⟩ } with
        webUiTunnels := s.webUiTunnels.set draw w }) ⟨fun v => ?_, fun v hv => ?_, fun id v hv => ?_, [], ?_, rfl⟩
        (still_sendClient _ _ rfl)⟩
      · by_cases h : v = w <;> simp [Registry.setClient, h, Registry.held]
      · by_cases h : v = w
        · subst h; simpa [Registry.setClient] using hv
        · simpa [Registry.setClient, h] using hv
      · rw [OMap.get_set] at hv
        split at hv
        · rename_i hk; cases hv; exact Or.inl (by simp [hk])
        · exact Or.inr hv
      · simp [Registry.setClient]

/-- What a client's frame does: nothing, open the client's tunnel, or forward a cancel or a
    request on it. -/
inductive ClientChange (s : Registry) (w : ClientId) (draw : JsString) (ms : List (JsString × Json)) : Registry → Prop
  | still {t : Registry} (hf : ∀ tunnel, s.held w = some tunnel → tunnel.forward? ms = none) (h : Still s t) :
      ClientChange s w draw ms t
  | opened {t : Registry} (c : ConnId) (hw : s.held w = none)
      (h : Change (fun v => if v = w then some ⟨draw, c, []⟩ else s.held v) [(draw, w)] [] s t) :
      ClientChange s w draw ms t
  | cancelled {t : Registry} (tunnel : WebUiTunnel) (id : JsString) (hw : s.held w = some tunnel)
      (hp : id ∈ tunnel.pendingRequests) (hc : IsCancel ms tunnel.tunnelId id)
      (hf : tunnel.forward? ms = some (.webUiHttpCancel tunnel.tunnelId id))
      (h : Change (s.withPending w (·.erase id)) []
        (delivered s tunnel.connection (.webUiHttpCancel tunnel.tunnelId id)) s t) : ClientChange s w draw ms t
  | requested {t : Registry} (tunnel : WebUiTunnel) (id method path : JsString) (headers : List (JsString × Json))
      (body : Option JsString) (hw : s.held w = some tunnel) (hp : id ∉ tunnel.pendingRequests)
      (hr : IsRequest ms tunnel.tunnelId id method path headers body)
      (hf : tunnel.forward? ms = some (.webUiHttpRequest tunnel.tunnelId id method path headers body))
      (h : Change (s.withPending w (· ++ [id])) []
        (delivered s tunnel.connection (.webUiHttpRequest tunnel.tunnelId id method path headers body)) s t) :
      ClientChange s w draw ms t

theorem forward_cancel {tunnel : WebUiTunnel} {ms : List (JsString × Json)} {id : JsString}
    (hc : IsCancel ms tunnel.tunnelId id) (hp : id ∈ tunnel.pendingRequests) :
    tunnel.forward? ms = some (.webUiHttpCancel tunnel.tunnelId id) := by
  unfold WebUiTunnel.forward?
  simp [hc.request, hc.type, hc.tunnel, hp, Option.filter]

/-- A renewed token is no frame of a tunnel. -/
theorem forward_refresh {tunnel : WebUiTunnel} {ms : List (JsString × Json)}
    (h : isText (member ms "type") (js "webui_auth_refresh") = true) : tunnel.forward? ms = none := by
  have differs : ∀ t : JsString, t ≠ js "webui_auth_refresh" → isText (member ms "type") t = true → False := by
    intro t ht hm
    have := (isText_eq hm).symm.trans (isText_eq h)
    exact ht (by simpa using this)
  unfold WebUiTunnel.forward?
  split
  · rename_i id hid
    have hc := (Option.filter_eq_some_iff.mp hid).2
    exact (differs _ (by simp [js]) (of_decide_eq_true hc).1).elim
  · cases hm : httpRequest? tunnel ms with
    | none => rfl
    | some m =>
      obtain ⟨_, _, _, _, _, hreq, -⟩ := httpRequest_eq_some hm
      exact (differs _ (by simp [js]) hreq.type).elim

theorem receiveWebUi_change (s : Registry) (w : ClientId) (ms : List (JsString × Json)) (draw : JsString)
    (ha : (s.clients w).added = true) : ClientChange s w draw ms (receiveWebUi D s w (some ms) draw) := by
  unfold receiveWebUi
  rw [if_neg (by rw [ha]; decide)]
  dsimp only
  have marked : Still s (s.setClient w { s.clients w with alive := true }) := .client w _ rfl fun h => h
  have hheld : (s.setClient w { s.clients w with alive := true }).held = s.held := marked.held_eq
  have hpend : ∀ f, (s.setClient w { s.clients w with alive := true }).withPending w f = s.withPending w f := by
    intro f; funext v; simp only [Registry.withPending, hheld]
  have hsend : ∀ c m, delivered (s.setClient w { s.clients w with alive := true }) c m = delivered s c m :=
    fun _ _ => rfl
  generalize s.setClient w { s.clients w with alive := true } = t at marked hheld hpend hsend
  split
  · rename_i hauth
    exact .still (fun _ _ => forward_refresh hauth) (marked.still (still_refreshWebUiAuth t w _))
  · have htw : (t.clients w).tunnel = s.held w := congrFun hheld w
    cases htun : s.held w with
    | none =>
      rw [htun] at htw
      rw [htw]
      rcases openWebUiTunnel_change t w ms draw with h | ⟨c, h⟩
      · exact .still (fun _ h' => by cases htun.symm.trans h') (marked.still h)
      · rw [hheld] at h
        exact .opened c htun (marked.then h)
    | some tunnel =>
      rw [htun] at htw
      rw [htw]
      rcases receiveWebUiRequest_change (D := D) t w tunnel ms with
        ⟨hf, h⟩ | ⟨id, hp, hc, hf, h⟩ | ⟨id, method, path, headers, body, hp, hr, hf, h⟩
      · refine .still (fun tunnel' h' => ?_) (marked.still h)
        cases htun.symm.trans h'
        exact hf
      · rw [hpend, hsend] at h
        exact .cancelled tunnel id htun hp hc hf (marked.then h)
      · rw [hpend, hsend] at h
        exact .requested tunnel id method path headers body htun hp hr hf (marked.then h)

theorem still_webUiClientGone (s : Registry) (w : ClientId) : Still s (webUiClientGone D s w) := by
  unfold webUiClientGone
  split
  · exact .refl s
  · have stopped : Still s (s.setClient w { s.clients w with expiry := none, heartbeat := false }) :=
      .client w _ rfl fun h => h
    exact stopped.still (still_closeWebUiTunnel _ w)

/-! ## Calls and timers -/

theorem still_queryPendingSnapshot (s : Registry) (r : InstanceRecord) (requestId : JsString) :
    Still s (queryPendingSnapshot D s r requestId) := by
  unfold queryPendingSnapshot
  split
  · have failed : Still s { s with collections := atNewest (fun q => { q with rejected := true }) s.collections } :=
      .frame rfl rfl rfl
    exact failed.still (.log _ _ rfl)
  · rename_i c _
    have asked : Still s { s with
        pendingRequests := s.pendingRequests.set (pendingKey s c requestId) ⟨c, requestId, r.registration⟩
        collections := atNewest (fun q => { q with batches := q.batches ++ [⟨c, requestId, none⟩] }) s.collections } :=
      .frame rfl rfl rfl
    exact asked.still (still_send _ _ rfl)

theorem still_collectPendingInteractions (s : Registry) (u : UserId) (draws : Nat → JsString) :
    Still s (collectPendingInteractions D s u draws) := by
  have each : ∀ (l : List (InstanceRecord × Nat)) (t : Registry),
      Still t (l.foldl (fun s x => queryPendingSnapshot D s x.1 (draws x.2)) t) := by
    intro l
    induction l with
    | nil => exact Still.refl
    | cons x l ih => exact fun t => (still_queryPendingSnapshot t x.1 (draws x.2)).still (ih _)
  have started : Still s (startCollection s u ((collectionTargets s u).map (·.registration.instanceId))) :=
    .frame rfl rfl rfl
  exact started.still (each _ _)

theorem still_routeCommand (k : CommandKind) (s : Registry) (u : UserId)
    (instanceId requestId commandId sessionID : JsString) {m : ServerMessage} (hm : m.tunnel? = none) :
    Still s (routeCommand D k s u instanceId requestId commandId sessionID m).1 := by
  unfold routeCommand
  split
  · exact .refl s
  · rename_i r c _
    have tracked : Still s (trackCommand D s k r c u requestId commandId) := .frame rfl rfl rfl
    exact tracked.still (still_send _ c hm)

theorem still_commandTimeout (k : CommandKind) (s : Registry) (c : ConnId) (commandId : JsString) :
    Still s (commandTimeout k s c commandId) := by
  unfold commandTimeout
  split
  · exact .refl s
  · split
    · exact .refl s
    · exact (still_untrackCommand s k c commandId).still (still_settleOutcome _ _ _)

/-- A client that has not been added holds no tunnel. -/
def Blank (s : Registry) : Prop := ∀ w, (s.clients w).added = false → s.held w = none

/-- The operations that may touch a tunnel: frames of clients, and response parts. -/
def Op.tunnelling : Op → Bool
  | .clientFrame .. | .frame _ (some (.webUiResponse ..)) => true
  | _ => false

theorem apply_still {s : Registry} (hs : Blank s) {op : Op} (hop : op.tunnelling = false) : Still s (apply D s op) := by
  cases op with
  | add c socket =>
    change Still s (add s c socket)
    unfold add
    split
    · exact .refl s
    · exact .frame rfl rfl rfl
  | frame c frame =>
    refine still_receive s c fun tunnelId requestId part h => ?_
    rw [h] at hop; cases hop
  | alive c =>
    change Still s (markAlive s c)
    unfold markAlive
    split
    · exact .refl s
    · have marked : Still s (s.setConn c { s.conns c with alive := true }) := .frame rfl rfl rfl
      exact marked.still (still_onRecord _ c _)
  | heartbeat c =>
    change Still s (heartbeat D s c)
    unfold heartbeat
    split
    · exact .refl s
    · split
      · exact still_disconnect s c
      · split
        · exact (still_disconnect s c).still (still_terminate _ c)
        · have pinged : Still s (s.setConn c { s.conns c with alive := false }) := .frame rfl rfl rfl
          exact pinged.still (.log _ _ rfl)
  | close c => exact still_disconnect s c
  | error c => exact still_disconnect s c
  | sendFailed c => exact still_disconnect s c
  | socket c socket => exact .frame rfl rfl rfl
  | revokeKey id => exact still_closeEach ..
  | closeAll => exact still_closeEach ..
  | forgetOffline u instanceId =>
    refine Change.still ?_ (.log _ _ rfl)
    unfold forgetOffline
    dsimp only
    split
    · exact Still.refl s
    · split
      · exact Still.refl s
      · have gone : Still s { s with records := s.records.delete (recordKey u instanceId) } := .frame rfl rfl rfl
        exact gone.still (still_publish _ u)
  | publishSnapshot u => exact still_publish s u
  | collectSessions u instanceId query draw =>
    change Still s (collectSessions D s u instanceId query draw)
    unfold collectSessions
    split
    · exact .log _ _ rfl
    · rename_i c _
      have asked : Still s { s with catalogRequests := s.catalogRequests.set draw ⟨c, draw⟩ } := .frame rfl rfl rfl
      exact asked.still (still_send _ c rfl)
  | collectPendingInteractions u draws => exact still_collectPendingInteractions s u draws
  | answerQuestion => exact (still_routeCommand _ s _ _ _ _ _ rfl).still (.log _ _ rfl)
  | decidePermission => exact (still_routeCommand _ s _ _ _ _ _ rfl).still (.log _ _ rfl)
  | sendSessionPrompt u instanceId sessionID commandId text =>
    refine Change.still ?_ (.log _ _ rfl)
    unfold sendSessionPrompt
    split
    · exact Still.refl s
    · rename_i c _
      split
      · exact Still.refl s
      · have kept : Still s { s with
            pendingPromptCommands := s.pendingPromptCommands.set (commandKey s c commandId)
              ⟨c, sessionID, commandId⟩ } := .frame rfl rfl rfl
        exact kept.still (still_send _ c rfl)
  | outcomeFor u commandId =>
    have pruned : Still s { s with commandOutcomes := OutcomeCache.pruneExpiredOutcomes s.commandOutcomes s.nowMs } :=
      .frame rfl rfl rfl
    exact pruned.still (.log _ _ rfl)
  | catalogTimeout c requestId =>
    change Still s (catalogTimeout s c requestId)
    unfold catalogTimeout
    split
    · exact .refl s
    · have gone : Still s { s with catalogRequests := s.catalogRequests.delete requestId } := .frame rfl rfl rfl
      exact gone.still (.log _ _ rfl)
  | snapshotTimeout c requestId =>
    change Still s (snapshotTimeout s c requestId)
    unfold snapshotTimeout
    split
    · exact .frame rfl rfl rfl
    · exact .refl s
  | answerTimeout c commandId => exact still_commandTimeout .question s c commandId
  | decideTimeout c commandId => exact still_commandTimeout .permission s c commandId
  | promptTimeout c commandId =>
    change Still s (promptTimeout s c commandId)
    unfold promptTimeout
    split
    · exact .refl s
    · exact .frame rfl rfl rfl
  | addWebUiClient w socket expiresAtMs =>
    change Still s (addWebUiClient s w socket expiresAtMs)
    unfold addWebUiClient
    split
    · exact .refl s
    · rename_i ha
      exact .client w _ (hs w (by simpa using ha)).symm fun _ => rfl
  | clientFrame => cases hop
  | clientAlive w => exact .client w _ rfl fun h => h
  | clientHeartbeat w =>
    change Still s (webUiHeartbeat s w)
    unfold webUiHeartbeat
    split
    · exact .refl s
    · split
      · exact still_terminateClient s w
      · have pinged : Still s (s.setClient w { s.clients w with alive := false }) := .client w _ rfl fun h => h
        exact pinged.still (.log _ _ rfl)
  | clientExpired w =>
    change Still s (webUiExpired s w)
    unfold webUiExpired
    split
    · have fired : Still s (s.setClient w { s.clients w with expiry := none }) := .client w _ rfl fun h => h
      exact fired.still (still_closeClient _ w _ _)
    · exact .refl s
  | clientClose w => exact still_webUiClientGone s w
  | clientError w => exact still_webUiClientGone s w
  | clientSocket w socket => exact .client w _ rfl fun h => h

end NotifyHub.Control
