/-
  NotifyHub.Control.TunnelIsolation — WebUI tunnels are kept apart.

  - `Kept`: in every reachable state a tunnel in the map is held by the client it maps to,
    and every pending request was asked for by that client, and neither cancelled by it
    nor ended since.
  - `tunnels_isolated`: the requests and cancels that reach a plugin are those of tunnels
    in the map, and a response reaches only the owner of its tunnel, for such a request,
    in exactly the runs where no frame is forwarded late.

  `receiveWebUiRequest` does not ask whether the tunnel is still in the map, and the
  client's closure keeps the tunnel after it has left: `request_after_close` is a request
  the plugin gets after the close of its tunnel.
-/

import Mathlib.Data.List.Induction
import NotifyHub.Control.Tunnels
import NotifyHub.Control.Ownership

namespace NotifyHub.Control

variable {D : Deps}

/-! ## Steps -/

variable (D) in
/-- What a step does to the world. -/
def effects (s : Registry) (e : Event) : List Effect := (step D s e).trace.drop s.trace.length

theorem Change.mem {f : ClientId → Option WebUiTunnel} {o : List (JsString × ClientId)} {l : List Effect} {s : Registry}
    {e : Event} (h : Change f o l s (step D s e)) {x : Effect} (hx : x.forwards = true) : x ∈ effects D s e ↔
      x ∈ l := by
  obtain ⟨k, hk, rfl⟩ := h.trace
  rw [effects, hk, List.drop_left, List.mem_filter, and_iff_left hx]

theorem still_tick (s : Registry) (now : Nat) : Still s { s with nowMs := now } := .frame rfl rfl rfl

theorem still_settle (s : Registry) : Still s (settleCollections s) := by
  refine Still.effects rfl rfl rfl fun x hx => ?_
  obtain ⟨q, _, rfl⟩ := List.mem_map.mp hx
  rfl

theorem step_still {s : Registry} (hs : Blank s) {e : Event} (he : e.op.tunnelling = false) : Still s (step D s e) := by
  have hb : Blank { s with nowMs := e.now } := hs
  exact ((still_tick s e.now).still (apply_still hb he)).still (still_settle _)

theorem ClientChange.around {s t : Registry} {w : ClientId} {draw : JsString} {ms : List (JsString × Json)} {now : Nat}
    (h : ClientChange { s with nowMs := now } w draw ms t) : ClientChange s w draw ms (settleCollections t) := by
  have tick := still_tick s now
  cases h with
  | still hf h => exact .still hf (tick.still h |>.still (still_settle t))
  | opened c hw h => exact .opened c hw ((tick.then h).still (still_settle t))
  | cancelled tunnel id hw hp hc hf h => exact .cancelled tunnel id hw hp hc hf ((tick.then h).still (still_settle t))
  | requested tunnel id method path headers body hw hp hr hf h =>
    exact .requested tunnel id method path headers body hw hp hr hf ((tick.then h).still (still_settle t))

/-- The client and the members of a frame that reads as an object. -/
def Op.clientFrame? : Op → Option (ClientId × List (JsString × Json))
  | .clientFrame w (some ms) _ => some (w, ms)
  | _ => none

/-- Everything a step can do to the tunnels. -/
inductive StepChange (D : Deps) (s : Registry) (e : Event) : Prop
  | still (hf : ∀ w ms tunnel, e.op.clientFrame? = some (w, ms) → s.held w = some tunnel → tunnel.forward? ms = none)
      (h : Still s (step D s e))
  | client (w : ClientId) (ms : List (JsString × Json)) (draw : JsString) (he : e.op = .clientFrame w (some ms) draw)
      (ha : (s.clients w).added = true) (h : ClientChange s w draw ms (step D s e))
  | response (c : ConnId) (tunnelId requestId : JsString) (part : WebUiResponsePart) (w : ClientId)
      (tunnel : WebUiTunnel) (l : List Effect) (he : e.op = .frame c (some (.webUiResponse tunnelId requestId part)))
      (hm : s.webUiTunnels.get tunnelId = some w) (hw : s.held w = some tunnel)
      (hp : requestId ∈ tunnel.pendingRequests)
      (hl : l = [] ∨ l = [.clientSent w (.response tunnelId requestId part)])
      (h : Change (if part = .end then s.withPending w (·.erase requestId) else s.held) [] l s (step D s e))

theorem step_change {s : Registry} (hs : Blank s) (e : Event) : StepChange D s e := by
  obtain ⟨now, op⟩ := e
  cases hop : op.tunnelling with
  | false =>
    refine .still (fun w ms tunnel hf => ?_) (step_still hs hop)
    cases op with
    | clientFrame => cases hop
    | _ => cases hf
  | true =>
    cases op with
    | clientFrame w frame draw =>
      cases frame with
      | none =>
        refine .still nofun ?_
        change Still s (settleCollections (receiveWebUi D { s with nowMs := now } w none draw))
        unfold receiveWebUi
        split <;> exact (still_tick s now).still (still_settle _)
      | some ms =>
        by_cases ha : (s.clients w).added = true
        · exact .client w ms draw rfl ha (receiveWebUi_change { s with nowMs := now } w ms draw ha).around
        · refine .still (fun w' ms' tunnel hf hw => ?_) ?_
          · cases hf
            rw [hs w (by simpa using ha)] at hw
            cases hw
          · change Still s (settleCollections (receiveWebUi D { s with nowMs := now } w (some ms) draw))
            unfold receiveWebUi
            rw [if_pos (by simpa using ha)]
            exact (still_tick s now).still (still_settle _)
    | frame c frame =>
      cases frame with
      | none => cases hop
      | some m =>
        cases m with
        | webUiResponse tunnelId requestId part =>
          have before : Still s (({ s with nowMs := now } : Registry).setConn c
              { ({ s with nowMs := now } : Registry).conns c with alive := true }) := .frame rfl rfl rfl
          by_cases ha : (s.conns c).added = false
          · refine .still nofun ?_
            change Still s (settleCollections (receive D { s with nowMs := now } c _))
            unfold receive
            rw [if_pos ha]
            exact (still_tick s now).still (still_settle _)
          · have hstep : step D s ⟨now, .frame c (some (.webUiResponse tunnelId requestId part))⟩ =
                settleCollections (handleWebUiResponse D (({ s with nowMs := now } : Registry).setConn c
                  { ({ s with nowMs := now } : Registry).conns c with alive := true }) c tunnelId requestId part) := by
              change settleCollections (receive D { s with nowMs := now } c _) = _
              unfold receive
              rw [if_neg ha]
            rcases handleWebUiResponse_change (D := D) (({ s with nowMs := now } : Registry).setConn c
                { ({ s with nowMs := now } : Registry).conns c with alive := true }) c tunnelId requestId part with
              h | ⟨w, tunnel, l, hm, hw, -, hp, hl, h⟩
            · exact .still nofun (hstep ▸ (before.still h).still (still_settle _))
            · exact .response c tunnelId requestId part w tunnel l rfl hm hw hp hl
                (hstep ▸ (before.then h).still (still_settle _))
        | _ => cases hop
    | _ => cases hop

/-! ## Requests of a run -/

/-- The client asks for the request on the tunnel. -/
def Op.Requests (op : Op) (w : ClientId) (tunnelId requestId : JsString) : Prop :=
  ∃ ms draw method path headers body, op = .clientFrame w (some ms) draw ∧
    IsRequest ms tunnelId requestId method path headers body

/-- The client cancels the request on the tunnel. -/
def Op.Cancels (op : Op) (w : ClientId) (tunnelId requestId : JsString) : Prop :=
  ∃ ms draw, op = .clientFrame w (some ms) draw ∧ IsCancel ms tunnelId requestId

variable (D) in
/-- In the run the client has asked for the request, and since then neither cancelled it
    nor been sent its end. -/
def Outstanding (es : List Event) (w : ClientId) (tunnelId requestId : JsString) : Prop :=
  ∃ before e after, es = before ++ e :: after ∧ e.op.Requests w tunnelId requestId ∧
    ∀ mid e' rest, after = mid ++ e' :: rest → ¬ e'.op.Cancels w tunnelId requestId ∧
      .clientSent w (.response tunnelId requestId .end) ∉ effects D (run D (before ++ e :: mid)) e'

theorem run_snoc (es : List Event) (e : Event) : run D (es ++ [e]) = step D (run D es) e := by
  rw [run, runFrom_append]; rfl

theorem Outstanding.now {es : List Event} {e : Event} {w : ClientId} {tunnelId requestId : JsString}
    (h : e.op.Requests w tunnelId requestId) : Outstanding D (es ++ [e]) w tunnelId requestId :=
  ⟨es, e, [], rfl, h, fun mid e' rest hn => by simp at hn⟩

theorem Outstanding.snoc {es : List Event} {e : Event} {w : ClientId} {tunnelId requestId : JsString}
    (h : Outstanding D es w tunnelId requestId) (hc : ¬ e.op.Cancels w tunnelId requestId)
    (he : .clientSent w (.response tunnelId requestId .end) ∉ effects D (run D es) e) :
    Outstanding D (es ++ [e]) w tunnelId requestId := by
  obtain ⟨before, e₀, after, rfl, hr, hkept⟩ := h
  refine ⟨before, e₀, after ++ [e], by simp, hr, fun mid e' rest hsplit => ?_⟩
  rcases List.eq_nil_or_concat rest with rfl | ⟨rest', x, rfl⟩
  · obtain ⟨rfl, hlast⟩ := List.append_inj' hsplit rfl
    cases hlast
    exact ⟨hc, he⟩
  · rw [List.concat_eq_append, ← List.cons_append, ← List.append_assoc] at hsplit
    exact hkept mid e' rest' (List.append_inj' hsplit rfl).1

/-! ## The invariant -/

variable (D) in
/-- Every pending request of the tunnel is outstanding, once. -/
structure Pends (es : List Event) (w : ClientId) (tunnel : WebUiTunnel) : Prop where
  once : tunnel.pendingRequests.Nodup
  outstanding : ∀ id ∈ tunnel.pendingRequests, Outstanding D es w tunnel.tunnelId id

/-- Every tunnel of the map is held by the client it maps to. -/
def Mapped (m : OMap JsString ClientId) (f : ClientId → Option WebUiTunnel) : Prop :=
  ∀ id w, m.get id = some w → ∃ tunnel, f w = some tunnel ∧ tunnel.tunnelId = id

variable (D) in
structure Kept (es : List Event) : Prop where
  blank : Blank (run D es)
  mapped : Mapped (run D es).webUiTunnels (run D es).held
  pends : ∀ w tunnel, (run D es).held w = some tunnel → Pends D es w tunnel

/-- The invariant after a step, from what the step does. -/
theorem Kept.of_change {es : List Event} {e : Event} {f : ClientId → Option WebUiTunnel}
    {o : List (JsString × ClientId)} {l : List Effect} (hch : Change f o l (run D es) (step D (run D es) e))
    (hblank : ∀ w, ((run D es).clients w).added = false → f w = none)
    (hmapped : ∀ id w, (id, w) ∈ o ∨ (run D es).webUiTunnels.get id = some w →
      ∃ tunnel, f w = some tunnel ∧ tunnel.tunnelId = id)
    (hpends : ∀ w tunnel, f w = some tunnel → Pends D (es ++ [e]) w tunnel) : Kept D (es ++ [e]) := by
  refine ⟨?_, ?_, ?_⟩ <;> rw [run_snoc]
  · intro w hw
    rw [hch.held_eq]
    refine hblank w ?_
    cases ha : ((run D es).clients w).added with
    | false => rfl
    | true => rw [hch.added w ha] at hw; cases hw
  · intro id w hw
    rw [hch.held_eq]
    exact hmapped id w (hch.mapped id w hw)
  · intro w tunnel hw
    rw [hch.held_eq] at hw
    exact hpends w tunnel hw

/-- A tunnel whose requests the step leaves alone. -/
theorem Kept.pends_snoc {es : List Event} {e : Event} (h : Kept D es) {w : ClientId} {tunnel : WebUiTunnel}
    (hw : (run D es).held w = some tunnel) (hc : ∀ id ∈ tunnel.pendingRequests, ¬ e.op.Cancels w tunnel.tunnelId id)
    (he : ∀ id, .clientSent w (.response tunnel.tunnelId id .end) ∉ effects D (run D es) e) :
    Pends D (es ++ [e]) w tunnel :=
  ⟨(h.pends w tunnel hw).once, fun id hid => ((h.pends w tunnel hw).outstanding id hid).snoc (hc id hid) (he id)⟩

theorem withPending_self {s : Registry} {w : ClientId} {tunnel : WebUiTunnel} (hw : s.held w = some tunnel)
    (f : List JsString → List JsString) :
    s.withPending w f w = some { tunnel with pendingRequests := f tunnel.pendingRequests } := by
  simp [Registry.withPending, hw]

theorem withPending_ne (s : Registry) {v w : ClientId} (f : List JsString → List JsString) (h : v ≠ w) :
    s.withPending w f v = s.held v := if_neg h

/-- Changing what is pending keeps who holds which tunnel. -/
theorem Mapped.withPending {s : Registry} (hm : Mapped s.webUiTunnels s.held) (w : ClientId)
    (f : List JsString → List JsString) : Mapped s.webUiTunnels (s.withPending w f) := by
  intro id v hv
  obtain ⟨tunnel, ht, hid⟩ := hm id v hv
  by_cases hvw : v = w
  · subst hvw
    exact ⟨_, withPending_self ht f, hid⟩
  · exact ⟨tunnel, by rw [withPending_ne s f hvw, ht], hid⟩

theorem blank_withPending {s : Registry} (hs : Blank s) (w : ClientId) (f : List JsString → List JsString) :
    ∀ v, (s.clients v).added = false → s.withPending w f v = none := by
  intro v hv
  by_cases hvw : v = w
  · subst hvw
    simp [Registry.withPending, hs v hv]
  · rw [withPending_ne s f hvw]; exact hs v hv

/-- A step that changes one client's pending requests, and forwards no end to another. -/
theorem Kept.of_withPending {es : List Event} {e : Event} (h : Kept D es) {w : ClientId} {tunnel : WebUiTunnel}
    {f : List JsString → List JsString} {l : List Effect} (hw : (run D es).held w = some tunnel)
    (hch : Change ((run D es).withPending w f) [] l (run D es) (step D (run D es) e))
    (hothers : ∀ v, v ≠ w → ∀ id rid, ¬ e.op.Cancels v id rid ∧
      .clientSent v (.response id rid .end) ∉ effects D (run D es) e)
    (hself : Pends D (es ++ [e]) w { tunnel with pendingRequests := f tunnel.pendingRequests }) :
    Kept D (es ++ [e]) := by
  refine .of_change hch (blank_withPending h.blank w f)
    (fun id v hv => h.mapped.withPending w f id v (hv.resolve_left (by simp))) fun v t hv => ?_
  by_cases hvw : v = w
  · subst hvw
    rw [withPending_self hw] at hv
    cases hv
    exact hself
  · rw [withPending_ne _ f hvw] at hv
    exact h.pends_snoc hv (fun id _ => (hothers v hvw _ id).1) fun id => (hothers v hvw _ id).2

theorem cancels_iff {op : Op} {w : ClientId} {ms : List (JsString × Json)} {draw : JsString}
    (he : op = .clientFrame w (some ms) draw) {v : ClientId} {tunnelId id : JsString} :
    op.Cancels v tunnelId id ↔ v = w ∧ IsCancel ms tunnelId id := by
  constructor
  · intro ⟨ms', draw', he', hc⟩
    rw [he] at he'
    cases he'
    exact ⟨rfl, hc⟩
  · intro ⟨hv, hc⟩
    exact ⟨ms, draw, hv ▸ he, hc⟩

theorem Kept.still {es : List Event} {e : Event} (h : Kept D es) (hq : Still (run D es) (Control.step D (run D es) e))
    (hc : ∀ w tunnel, (run D es).held w = some tunnel → ∀ id ∈ tunnel.pendingRequests,
      ¬ e.op.Cancels w tunnel.tunnelId id) : Kept D (es ++ [e]) := by
  refine .of_change hq h.blank (fun id w hw => h.mapped id w (hw.resolve_left (by simp))) fun w tunnel hw => ?_
  exact h.pends_snoc hw (hc w tunnel hw) fun id hx => by cases (hq.mem rfl).mp hx

theorem mem_erase_ne {l : List JsString} (hl : l.Nodup) {id id' : JsString} (h : id' ∈ l.erase id) :
    id' ∈ l ∧ id' ≠ id :=
  ⟨List.mem_of_mem_erase h, fun he => by rw [he] at h; exact hl.not_mem_erase h⟩

theorem mem_delivered {s : Registry} {c : ConnId} {m : ServerMessage} {x : Effect} (h : x ∈ delivered s c m) :
    x = .sent c m := by
  unfold delivered at h
  split at h
  · exact List.mem_singleton.mp h
  · cases h

theorem Kept.step {es : List Event} {e : Event} (h : Kept D es) : Kept D (es ++ [e]) := by
  cases step_change (D := D) h.blank e with
  | still hf hq =>
    refine h.still hq fun w tunnel hw id hid hcancels => ?_
    obtain ⟨ms, draw, he, hcancel⟩ := hcancels
    have := hf w ms tunnel (by rw [he]; rfl) hw
    rw [forward_cancel hcancel hid] at this
    cases this
  | client w ms draw he ha hc =>
    cases hc with
    | still hf hq =>
      refine h.still hq fun v tunnel hv id hid hcancel => ?_
      obtain ⟨rfl, hcancel⟩ := (cancels_iff he).mp hcancel
      have := hf tunnel hv
      rw [forward_cancel hcancel hid] at this
      cases this
    | opened c hw ho =>
      refine .of_change ho (fun v hv => ?_) (fun id v hv => ?_) fun v tunnel hv => ?_
      · rw [if_neg fun hvw => by rw [hvw, ha] at hv; cases hv]
        exact h.blank v hv
      · rcases hv with hmem | hold
        · cases List.mem_singleton.mp hmem
          exact ⟨_, if_pos rfl, rfl⟩
        · obtain ⟨tunnel, ht, hid⟩ := h.mapped id v hold
          exact ⟨tunnel, (if_neg fun hvw => by rw [hvw, hw] at ht; cases ht).trans ht, hid⟩
      · by_cases hvw : v = w
        · rw [if_pos hvw] at hv
          cases hv
          exact ⟨List.nodup_nil, (by rintro _ ⟨⟩)⟩
        · rw [if_neg hvw] at hv
          exact h.pends_snoc hv (fun id _ hcancel => hvw ((cancels_iff he).mp hcancel).1)
            fun id hx => by cases (ho.mem rfl).mp hx
    | cancelled tunnel id hw hp hc hf hch =>
      have noEnd : ∀ v tid rid, .clientSent v (.response tid rid .end) ∉ effects D (run D es) e :=
        fun v tid rid hx => by cases mem_delivered ((hch.mem rfl).mp hx)
      refine h.of_withPending hw hch
        (fun v hvw tid rid => ⟨fun hx => hvw ((cancels_iff he).mp hx).1, noEnd v tid rid⟩) ?_
      have hpends := h.pends w tunnel hw
      refine ⟨hpends.once.erase id, fun rid hrid => ?_⟩
      obtain ⟨hrid, hne⟩ := mem_erase_ne hpends.once hrid
      refine (hpends.outstanding rid hrid).snoc (fun hx => hne ?_) (noEnd w _ rid)
      exact Option.some.inj (((cancels_iff he).mp hx).2.request.symm.trans hc.request)
    | requested tunnel id method path headers body hw hp hr hf hch =>
      have noEnd : ∀ v tid rid, .clientSent v (.response tid rid .end) ∉ effects D (run D es) e :=
        fun v tid rid hx => by cases mem_delivered ((hch.mem rfl).mp hx)
      refine h.of_withPending hw hch
        (fun v hvw tid rid => ⟨fun hx => hvw ((cancels_iff he).mp hx).1, noEnd v tid rid⟩) ?_
      have hpends := h.pends w tunnel hw
      refine ⟨List.nodup_append.mpr ⟨hpends.once, List.nodup_singleton id, fun a ha b hb => ?_⟩, fun rid hrid => ?_⟩
      · rw [List.mem_singleton.mp hb]
        intro hab; exact hp (hab ▸ ha)
      · rcases List.mem_append.mp hrid with hold | hnew
        · refine (hpends.outstanding rid hold).snoc (fun hx => ?_) (noEnd w _ rid)
          have := (isText_eq ((cancels_iff he).mp hx).2.type).symm.trans (isText_eq hr.type)
          simp [js] at this
        · rw [List.mem_singleton.mp hnew]
          exact .now ⟨ms, draw, method, path, headers, body, he, hr⟩
  | response c tunnelId requestId part w tunnel l he hm hw hp hl hch =>
    have hid : tunnel.tunnelId = tunnelId := by
      obtain ⟨tunnel', hw', hid⟩ := h.mapped tunnelId w hm
      cases hw.symm.trans hw'
      exact hid
    have noCancel : ∀ v tid rid, ¬ e.op.Cancels v tid rid := by
      rintro v tid rid ⟨ms, draw, he', _⟩
      rw [he] at he'; cases he'
    -- The only end the step can forward is the one it was given.
    have noEnd : ∀ v tid rid, (v ≠ w ∨ rid ≠ requestId ∨ part ≠ .end) →
        .clientSent v (.response tid rid .end) ∉ effects D (run D es) e := by
      intro v tid rid hne hx
      rcases hl with rfl | rfl
      · cases (hch.mem rfl).mp hx
      · have := List.mem_singleton.mp ((hch.mem rfl).mp hx)
        cases this
        simp at hne
    have hpends := h.pends w tunnel hw
    by_cases hend : part = .end
    · rw [if_pos hend] at hch
      refine h.of_withPending hw hch (fun v hvw tid rid => ⟨noCancel v tid rid, noEnd v tid rid (Or.inl hvw)⟩) ?_
      refine ⟨hpends.once.erase requestId, fun rid hrid => ?_⟩
      obtain ⟨hrid, hne⟩ := mem_erase_ne hpends.once hrid
      exact (hpends.outstanding rid hrid).snoc (noCancel _ _ _) (noEnd w _ rid (Or.inr (Or.inl hne)))
    · rw [if_neg hend] at hch
      refine .of_change hch h.blank (fun id v hv => h.mapped id v (hv.resolve_left (by simp))) fun v t hv => ?_
      exact h.pends_snoc hv (fun _ _ => noCancel _ _ _) fun id => noEnd v _ id (Or.inr (Or.inr hend))

theorem kept_init : Kept D [] := ⟨fun _ _ => rfl, nofun, nofun⟩

theorem kept_run (es : List Event) : Kept D es := by
  induction es using List.reverseRecOn with
  | nil => exact kept_init
  | append_singleton es e ih => exact ih.step

/-! ## Isolation -/

variable (D) in
/-- The step after the run forwards requests and cancels only for a tunnel in the map, from
    its owner to its connection, and responses only to the owner of their tunnel, for an
    outstanding request. -/
structure IsolatedStep (es : List Event) (e : Event) : Prop where
  upstream : ∀ c m id, .sent c m ∈ effects D (run D es) e → m.tunnel? = some id →
    ∃ w ms draw tunnel, e.op = .clientFrame w (some ms) draw ∧ (run D es).webUiTunnels.get id = some w ∧
      (run D es).held w = some tunnel ∧ tunnel.tunnelId = id ∧ tunnel.connection = c
  downstream : ∀ w id requestId part, .clientSent w (.response id requestId part) ∈ effects D (run D es) e →
    (run D es).webUiTunnels.get id = some w ∧ Outstanding D es w id requestId

/-- A client's frame asks for a request or a cancel on its tunnel, which has left the map,
    while the plugin's socket takes frames. -/
def LateForward (s : Registry) (e : Event) : Prop :=
  ∃ x ∈ e.op.clientFrame?, ∃ tunnel ∈ s.held x.1, s.webUiTunnels.get tunnel.tunnelId ≠ some x.1 ∧
    (tunnel.forward? x.2).isSome = true ∧ (s.conns tunnel.connection).socket.accepts = true

instance (s : Registry) (e : Event) : Decidable (LateForward s e) :=
  inferInstanceAs (Decidable (∃ x ∈ e.op.clientFrame?, ∃ tunnel ∈ s.held x.1, _))

/-- What a client's frame forwards is what it asks for on its tunnel. -/
theorem sent_of_client {s : Registry} {e : Event} {w : ClientId} {ms : List (JsString × Json)} {draw : JsString}
    (hc : ClientChange s w draw ms (step D s e)) {c : ConnId} {m : ServerMessage} (hm : m.tunnel?.isSome = true) :
    .sent c m ∈ effects D s e ↔ ∃ tunnel, s.held w = some tunnel ∧ tunnel.connection = c ∧
      tunnel.forward? ms = some m ∧ (s.conns c).socket.accepts = true := by
  have hx : (Effect.sent c m).forwards = true := hm
  have given : ∀ (tunnel : WebUiTunnel) (m' : ServerMessage) (f : List JsString → List JsString),
      s.held w = some tunnel → tunnel.forward? ms = some m' → m'.tunnel?.isSome = true →
      Change (s.withPending w f) [] (delivered s tunnel.connection m') s (step D s e) →
      (.sent c m ∈ effects D s e ↔ ∃ tunnel, s.held w = some tunnel ∧ tunnel.connection = c ∧
        tunnel.forward? ms = some m ∧ (s.conns c).socket.accepts = true) := by
    intro tunnel m' f hw hf hm' hch
    rw [hch.mem hx, delivered]
    constructor
    · intro h
      split at h
      · rename_i hok
        cases List.mem_singleton.mp h
        exact ⟨tunnel, hw, rfl, hf, hok.1⟩
      · cases h
    · rintro ⟨tunnel', hw', hcon, hf', hacc⟩
      cases hw.symm.trans hw'
      cases hf.symm.trans hf'
      subst hcon
      rw [if_pos ⟨hacc, hm'⟩]
      exact List.mem_singleton.mpr rfl
  cases hc with
  | still hf hq =>
    refine ⟨fun h => (by cases (hq.mem hx).mp h), fun hsends => ?_⟩
    obtain ⟨tunnel, hw, _, hf', _⟩ := hsends
    rw [hf tunnel hw] at hf'; cases hf'
  | opened c' hw ho =>
    refine ⟨fun h => (by cases (ho.mem hx).mp h), fun hsends => ?_⟩
    obtain ⟨tunnel, hw', _⟩ := hsends
    rw [hw] at hw'; cases hw'
  | cancelled tunnel id hw hp hc hf hch => exact given tunnel _ _ hw hf rfl hch
  | requested tunnel id method path headers body hw hp hr hf hch => exact given tunnel _ _ hw hf rfl hch

theorem forward_tunnel {tunnel : WebUiTunnel} {ms : List (JsString × Json)} {m : ServerMessage}
    (h : tunnel.forward? ms = some m) : m.tunnel? = some tunnel.tunnelId := by
  unfold WebUiTunnel.forward? at h
  split at h
  · cases h; rfl
  · split at h
    · rename_i m' hm
      split at h
      · cases h
      · cases h
        obtain ⟨_, _, _, _, _, _, rfl⟩ := httpRequest_eq_some hm
        rfl
    · cases h

theorem forward_request {tunnel : WebUiTunnel} {ms : List (JsString × Json)} {tunnelId id method path : JsString}
    {headers : List (JsString × Json)} {body : Option JsString}
    (h : tunnel.forward? ms = some (.webUiHttpRequest tunnelId id method path headers body)) :
    tunnel.tunnelId = tunnelId ∧ IsRequest ms tunnelId id method path headers body := by
  unfold WebUiTunnel.forward? at h
  split at h
  · cases h
  · split at h
    · rename_i m hm
      split at h
      · cases h
      · cases h
        obtain ⟨_, _, _, _, _, hreq, he⟩ := httpRequest_eq_some hm
        cases he
        exact ⟨rfl, hreq⟩
    · cases h

/-- A step is isolated unless it forwards a frame late. -/
theorem apart_iff {es : List Event} (h : Kept D es) (e : Event) :
    IsolatedStep D es e ↔ ¬ LateForward (run D es) e := by
  constructor
  · intro hi ⟨⟨w, ms⟩, hx, tunnel, hw, hleft, hf, hacc⟩
    obtain ⟨draw, he⟩ : ∃ draw, e.op = .clientFrame w (some ms) draw := by
      generalize e.op = op at hx
      cases op with
      | clientFrame w' frame draw => cases frame <;> cases hx; exact ⟨draw, rfl⟩
      | _ => cases hx
    obtain ⟨m, hm⟩ := Option.isSome_iff_exists.mp hf
    have htun := forward_tunnel hm
    have hsent : .sent tunnel.connection m ∈ effects D (run D es) e := by
      cases step_change (D := D) h.blank e with
      | still hf' _ => rw [hf' w ms tunnel (by rw [he]; rfl) hw] at hm; cases hm
      | client w' ms' draw' he' ha hc =>
        cases he.symm.trans he'
        exact (sent_of_client hc (by rw [htun]; rfl)).mpr ⟨tunnel, hw, rfl, hm, hacc⟩
      | response c _ _ _ _ _ _ he' => cases he.symm.trans he'
    obtain ⟨w', ms', draw', _, he', hmap, _⟩ := hi.upstream _ m _ hsent htun
    cases he.symm.trans he'
    exact hleft hmap
  · intro hlate
    cases step_change (D := D) h.blank e with
    | still hf hq =>
      refine ⟨fun c m id hx hm => ?_, fun w id rid part hx => by cases (hq.mem rfl).mp hx⟩
      cases (hq.mem (by simp [Effect.forwards, hm])).mp hx
    | client w ms draw he ha hc =>
      refine ⟨fun c m id hx hm => ?_, fun v id rid part hx => ?_⟩
      · obtain ⟨tunnel, hw, hcon, hf, hacc⟩ := (sent_of_client hc (by rw [hm]; rfl)).mp hx
        have hid : tunnel.tunnelId = id := Option.some.inj ((forward_tunnel hf).symm.trans hm)
        refine ⟨w, ms, draw, tunnel, he, ?_, hw, hid, hcon⟩
        by_contra hleft
        refine hlate ⟨(w, ms), by rw [he]; rfl, tunnel, hw, ?_, by rw [hf]; rfl, ?_⟩
        · rw [hid]; exact hleft
        · rw [hcon]; exact hacc
      · cases hc with
        | still _ hq => cases (hq.mem rfl).mp hx
        | opened _ _ ho => cases (ho.mem rfl).mp hx
        | cancelled _ _ _ _ _ _ hch => cases mem_delivered ((hch.mem rfl).mp hx)
        | requested _ _ _ _ _ _ _ _ _ _ hch => cases mem_delivered ((hch.mem rfl).mp hx)
    | response c tunnelId requestId part w tunnel l he hm hw hp hl hch =>
      refine ⟨fun c' m id hx htun => ?_, fun v id rid part' hx => ?_⟩
      · have := (hch.mem (by simp [Effect.forwards, htun])).mp hx
        rcases hl with rfl | rfl
        · cases this
        · cases List.mem_singleton.mp this
      · have := (hch.mem rfl).mp hx
        rcases hl with rfl | rfl
        · cases this
        · cases List.mem_singleton.mp this
          obtain ⟨tunnel', hw', hid⟩ := h.mapped _ _ hm
          cases hw.symm.trans hw'
          exact ⟨hm, hid ▸ (h.pends w tunnel hw).outstanding requestId hp⟩

/-- A run keeps its tunnels apart at every step exactly if it forwards no frame late. -/
theorem tunnels_isolated (es : List Event) :
    (∀ before e after, es = before ++ e :: after → IsolatedStep D before e) ↔
      Along (step D) (fun s e => ¬ LateForward s e) .init es := by
  rw [along_iff]
  constructor
  · intro h before e after hsplit
    exact (apart_iff (kept_run before) e).mp (h before e after hsplit)
  · intro h before e after hsplit
    exact (apart_iff (kept_run before) e).mpr (h before e after hsplit)

/-! ## Tunnel ids -/

/-- The tunnel id the step may draw is a UUID, as `randomUUID` promises. -/
def Drawn (e : Event) : Prop := ∀ w frame draw, e.op = .clientFrame w frame draw → isUuid draw = true

/-- Every tunnel's id was drawn. -/
theorem tunnel_drawn {es : List Event} (h : ∀ e ∈ es, Drawn e) {w : ClientId} {tunnel : WebUiTunnel}
    (hw : (run D es).held w = some tunnel) : isUuid tunnel.tunnelId = true := by
  induction es using List.reverseRecOn generalizing w tunnel with
  | nil => cases hw
  | append_singleton es e ih =>
    have old : ∀ {w tunnel}, (run D es).held w = some tunnel → isUuid tunnel.tunnelId = true :=
      ih fun e' he' => h e' (List.mem_append_left _ he')
    -- Changing what is pending keeps the id.
    have pending : ∀ {v f}, (run D es).withPending v f w = some tunnel → isUuid tunnel.tunnelId = true := by
      intro v f hv
      unfold Registry.withPending at hv
      split at hv
      · obtain ⟨t, ht, rfl⟩ := Option.map_eq_some_iff.mp hv
        exact (old ht : isUuid t.tunnelId = true)
      · exact old hv
    rw [run_snoc] at hw
    cases step_change (D := D) (kept_run es).blank e with
    | still _ hq => rw [hq.held_eq] at hw; exact old hw
    | client v ms draw he _ hc =>
      cases hc with
      | still _ hq => rw [hq.held_eq] at hw; exact old hw
      | opened c _ ho =>
        rw [ho.held_eq] at hw
        dsimp only at hw
        by_cases hwv : w = v
        · rw [if_pos hwv] at hw
          cases hw
          exact h e (by simp) v (some ms) draw he
        · rw [if_neg hwv] at hw
          exact old hw
      | cancelled _ _ _ _ _ _ hch => rw [hch.held_eq] at hw; exact pending hw
      | requested _ _ _ _ _ _ _ _ _ _ hch => rw [hch.held_eq] at hw; exact pending hw
    | response _ _ _ part _ _ _ _ _ _ _ _ hch =>
      rw [hch.held_eq] at hw
      split at hw
      · exact pending hw
      · exact old hw

/-! ## A late request -/

def browser : ClientId := ⟨alice, 0⟩

def tunnel1 : JsString := js "10000000-0000-4000-8000-000000000000"

def request1 : JsString := js "20000000-0000-4000-8000-000000000000"

/-- A frame of a client, of strings. -/
def clientText (members : List (String × JsString)) : List (JsString × Json) := members.map fun m => (js m.1, .str m.2)

/-- A browser opens a tunnel, and closes it. -/
def closedTunnel : List Event :=
  [⟨0, .add (plugin 0) openSocket⟩,
    ⟨1, .frame (plugin 0) (some (.register { sampleRegistration instance1 with webUiAvailable := some true }))⟩,
    ⟨2, .addWebUiClient browser openSocket 1000⟩,
    ⟨3, .clientFrame browser (some (clientText [("type", js "webui_tunnel_open"), ("instanceId", instance1)])) tunnel1⟩,
    ⟨4, .clientFrame browser (some (clientText [("type", js "webui_tunnel_close"), ("tunnelId", tunnel1)])) []⟩]

/-- The message that the effect writes to a connection. -/
def Effect.message? : Effect → Option ServerMessage
  | .sent _ m => some m
  | _ => none

/-- It goes on to use it. -/
def lateRequest : Event :=
  ⟨5, .clientFrame browser (some (clientText [("type", js "webui_http_request"), ("tunnelId", tunnel1),
    ("requestId", request1), ("method", js "GET"), ("path", js "/")] ++ [(js "headers", .obj [])])) []⟩

/-- The plugin gets a request on the tunnel after its close. -/
theorem request_after_close :
    ¬ ∀ before e after, closedTunnel ++ [lateRequest] = before ++ e :: after → IsolatedStep sampleDeps before e := by
  intro h
  have hleft : (run sampleDeps closedTunnel).webUiTunnels.get tunnel1 = none := by decide +kernel
  have hsent : ((effects sampleDeps (run sampleDeps closedTunnel) lateRequest).any fun x =>
      x.message?.any (·.tunnel? == some tunnel1)) = true := by decide +kernel
  obtain ⟨x, hx, hm⟩ := List.any_eq_true.mp hsent
  cases x with
  | sent c m =>
    obtain ⟨_, _, _, _, _, hmap, _⟩ :=
      (h closedTunnel lateRequest [] rfl).upstream c m tunnel1 hx (by simpa [Effect.message?] using hm)
    rw [hleft] at hmap
    cases hmap
  | _ => cases hm

end NotifyHub.Control
