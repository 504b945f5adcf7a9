/-
  NotifyHub.Plugin.Enqueued — what the pipeline enqueues of the events that normalize
  (packages/plugin/src/index.ts, envelope.ts).

  `normalizeEvent` lets through no empty id and no empty text the schema bounds from
  below, the machine makes none up, and the factory bounds from above. So the effects of
  every run are sound (`outbox_sound`), and what keeps one from being enqueued is the link
  of a provider action alone (`enqueued_iff`).

  - `pipe_in_link`: a link the URL parser takes and RFC 3986 does not; the provider action
    is dropped with it.
-/

import NotifyHub.Plugin.Envelope
import NotifyHub.Plugin.Exclusion

namespace NotifyHub.Plugin

open Contracts (notifyEventSchema)

/-! ## The machine -/

/-- Every session it has a state for has an id, and every callback was called with a sound effect. -/
structure Machine.Sound (m : Machine) : Prop where
  named : ∀ sid o, m.sessions.get sid = some o → sid ≠ []
  effects : ∀ e time, Entry.effect e time ∈ m.trace → e.Sound

namespace Machine.Sound

variable {O : MachineOptions} {m m' : Machine} {sid : JsString}

theorem init : Machine.Sound .init := ⟨nofun, nofun⟩

theorem of_eq (h : m.Sound) (hs : m'.sessions = m.sessions) (ht : m'.trace = m.trace) : m'.Sound :=
  ⟨by rw [hs]; exact h.named, by rw [ht]; exact h.effects⟩

theorem modify (h : m.Sound) (o : Nat) (f : SessionState → SessionState) : (m.modify o f).Sound := h.of_eq rfl rfl

theorem clearPendingProviderAction (h : m.Sound) (o : Nat) : (m.clearPendingProviderAction o).Sound := h.modify o _

theorem clearIdleTimer (h : m.Sound) (o : Nat) : (m.clearIdleTimer o).Sound :=
  h.of_eq (clearIdleTimer_sessions m o) (clearIdleTimer_trace m o)

theorem clearHeartbeat (h : m.Sound) (o : Nat) : (m.clearHeartbeat o).Sound :=
  h.of_eq (clearHeartbeat_sessions m o) (clearHeartbeat_trace m o)

theorem armHeartbeat (h : m.Sound) (s : JsString) (o : Nat) : (m.armHeartbeat O s o).Sound := by
  unfold Machine.armHeartbeat
  split
  · exact h
  · exact h.of_eq rfl rfl

theorem rearm (h : m.Sound) (s : JsString) (o : Nat) : (m.rearm O s o).Sound := by
  unfold Machine.rearm
  split
  · exact h.armHeartbeat s o
  · exact h

/-- What is logged beside the callbacks. -/
theorem log (h : m.Sound) {entry : Entry} (hno : ∀ e time, entry ≠ .effect e time) : (m.log entry).Sound := by
  refine ⟨h.named, fun e time he => ?_⟩
  rcases List.mem_cons.mp he with heq | he
  · exact absurd heq.symm (hno e time)
  · exact h.effects e time he

theorem emit (h : m.Sound) {e : Effect} (he : e.Sound) : (m.emit e).Sound := by
  refine ⟨h.named, fun x time hx => ?_⟩
  rcases List.mem_cons.mp hx with heq | hx
  · cases heq; exact he
  · exact h.effects x time hx

theorem stateFor (h : m.Sound) (hid : sid ≠ []) : (m.stateFor sid).1.Sound := by
  rcases m.stateFor_eq sid with ⟨o, -, heq⟩ | ⟨-, heq⟩
  · rw [heq]; exact h
  · rw [heq]
    refine ⟨fun s o ho => ?_, h.effects⟩
    by_cases hs : s = sid
    · rw [hs]; exact hid
    · exact h.named s o ((OMap.get_set_ne _ _ hs).symm.trans ho)

theorem completePendingIdle (h : m.Sound) (hid : sid ≠ []) (o : Nat) : (m.completePendingIdle sid o).Sound := by
  unfold Machine.completePendingIdle
  split
  · exact h
  · exact (h.modify o _).emit hid

theorem onActive (h : m.Sound) (hid : sid ≠ []) (status : SessionStatus) : (m.onActive O sid status).Sound := by
  unfold Machine.onActive
  have hg := h.stateFor hid
  generalize m.stateFor sid = p at hg ⊢
  obtain ⟨m, o⟩ := p
  dsimp only at hg ⊢
  refine Sound.armHeartbeat (Sound.modify ?_ o _) sid o
  split
  · exact (hg.clearIdleTimer o).modify o _
  · exact (((hg.clearIdleTimer o).modify o _).log (by nofun)).modify o _

theorem onProviderAction (h : m.Sound) (hid : sid ≠ []) {a : RetryActionInfo} (ha : a.Sound) :
    (m.onProviderAction O sid a).Sound := by
  unfold Machine.onProviderAction
  have hg := h.stateFor hid
  generalize m.stateFor sid = p at hg ⊢
  obtain ⟨m, o⟩ := p
  dsimp only at hg ⊢
  split
  · exact hg
  · refine Sound.emit ((hg.clearPendingProviderAction o).modify o _)
      ⟨hid, ?_, ha.provider, ha.title, ha.message, ha.label⟩
    -- the id of a provider action begins with "provider:"
    exact List.append_ne_nil_of_left_ne_nil (by decide) _

theorem onIdle (h : m.Sound) (hid : sid ≠ []) : (m.onIdle O sid).Sound := by
  unfold Machine.onIdle
  have hg := h.stateFor hid
  generalize m.stateFor sid = p at hg ⊢
  obtain ⟨m, o⟩ := p
  dsimp only at hg ⊢
  have hg := (hg.modify o fun s => { s with status := .idle }).clearHeartbeat o
  split
  · exact hg
  · exact hg.of_eq rfl rfl

theorem onTerminalSignal (h : m.Sound) (hid : sid ≠ []) (outcome : TerminalOutcome) :
    (m.onTerminalSignal sid outcome).Sound := by
  unfold Machine.onTerminalSignal
  have hg := h.stateFor hid
  generalize m.stateFor sid = p at hg ⊢
  obtain ⟨m, o⟩ := p
  dsimp only at hg ⊢
  have hg := (((hg.clearIdleTimer o).modify o fun s => { s with pendingElapsedMs := none }).clearHeartbeat o).modify o
    (settle outcome)
  split
  · exact hg
  · exact hg.emit hid

theorem onAsked (h : m.Sound) (hid : sid ≠ []) (k : PendingActionKind) {requestID : JsString}
    (hrequest : requestID ≠ [])
    {details : ActionDetails} (hd : details.Sound) : (m.onAsked sid k requestID details).Sound := by
  unfold Machine.onAsked
  have hg := h.stateFor hid
  generalize m.stateFor sid = p at hg ⊢
  obtain ⟨m, o⟩ := p
  dsimp only at hg ⊢
  split
  · exact hg
  · exact (hg.modify o _).emit ⟨hid, hrequest, hd⟩

theorem onResolved (h : m.Sound) (hid : sid ≠ []) {k : PendingActionKind} (hk : k ≠ .providerAction)
    {requestID : JsString}
    (hrequest : requestID ≠ []) : (m.onResolved sid k requestID).Sound := by
  unfold Machine.onResolved
  have hg := h.stateFor hid
  generalize m.stateFor sid = p at hg ⊢
  obtain ⟨m, o⟩ := p
  dsimp only at hg ⊢
  split
  · exact hg
  · exact (hg.modify o _).emit ⟨hid, hrequest, hk⟩

end Machine.Sound

/-- A signal as a sound event gives it. -/
def Signal.Sound : Signal → Prop
  | .retry action => ∀ a, action = some a → a.Sound
  | .questionAsked requestID questions => requestID ≠ [] ∧ questions ≠ [] ∧ ∀ q ∈ questions, q.Sound
  | .permissionAsked requestID permission summary => requestID ≠ [] ∧ permission ≠ [] ∧ summary ≠ []
  | .questionResolved requestID => requestID ≠ []
  | .permissionResolved requestID => requestID ≠ []
  | _ => True

namespace Machine.Sound

variable {O : MachineOptions} {m : Machine}

theorem signal (h : m.Sound) {sid : JsString} (hid : sid ≠ []) {x : Signal} (hx : x.Sound) :
    (m.signal O sid x).Sound := by
  have h : (m.log (.received sid x m.time)).Sound := h.log (by nofun)
  unfold Machine.signal
  cases x with
  | busy => exact ((h.onActive hid .busy).stateFor hid).clearPendingProviderAction _
  | retry action =>
    cases action with
    | none => exact h.onActive hid .retry
    | some a => exact (h.onActive hid .retry).onProviderAction hid (hx a rfl)
  | idle => exact h.onIdle hid
  | failed => exact h.onTerminalSignal hid .failed
  | stopped => exact h.onTerminalSignal hid .stopped
  | questionAsked requestID questions => exact h.onAsked hid _ hx.1 hx.2
  | permissionAsked requestID permission summary => exact h.onAsked hid _ hx.1 hx.2
  | questionResolved => exact h.onResolved hid (by nofun) hx
  | permissionResolved => exact h.onResolved hid (by nofun) hx

/-- A timer is of a session that has a state, so an id. -/
theorem fire (h : m.Sound) (ha : Armed m) (k : Nat) : (m.fire O k).Sound := by
  unfold Machine.fire
  cases hk : (m.timers.get k).filter (·.due ≤ m.time) with
  | none => exact h
  | some t =>
    obtain ⟨hs, -⟩ := ha.kept k t (Option.filter_eq_some_iff.mp hk).1
    have hid := h.named _ _ hs
    have hc : (m.clearTimeout k).Sound := h.of_eq rfl rfl
    dsimp only
    split
    · exact (hc.modify _ _).completePendingIdle hid _
    · unfold onHeartbeatTick
      dsimp only
      have hc := hc.modify t.object fun s => { s with heartbeatTimer := none }
      split
      · rename_i hactive
        have hbeat : ∀ elapsedMs, (Effect.heartbeat t.sessionID _ elapsedMs).Sound := fun _ => ⟨hid, hactive.2⟩
        exact Sound.of_eq (hc.emit (hbeat _)) rfl rfl
      · exact hc.rearm _ _

theorem ticked (h : m.Sound) (i : Nat) : (m.ticked O i).Sound := by
  unfold Machine.ticked
  split
  · exact h
  · refine Sound.rearm ?_ _ _
    exact h.of_eq rfl rfl

theorem flushNext (h : m.Sound) (i : Nat) : (m.flushNext i).Sound := by
  unfold Machine.flushNext
  split
  · exact h
  · split
    · exact h.of_eq rfl rfl
    · rename_i sid o hfind
      have hid : sid ≠ [] := h.named sid o (OMap.get_eq_some.mpr (List.mem_of_find?_eq_some hfind))
      dsimp only
      split
      · refine Sound.completePendingIdle (Sound.log (Sound.clearIdleTimer ?_ o) (by nofun)) hid o
        exact h.of_eq rfl rfl
      · exact h.of_eq rfl rfl

theorem disposeSession (h : m.Sound) (sid : JsString) : (m.disposeSession sid).Sound := by
  have hdelete : ∀ m' : Machine, m'.Sound →
      (({ m' with sessions := m'.sessions.delete sid } : Machine).log (.disposed sid)).Sound := by
    intro m' h'
    refine Sound.log (m := { m' with sessions := m'.sessions.delete sid }) ⟨fun s o ho => ?_, h'.effects⟩ (by nofun)
    replace ho : (m'.sessions.delete sid).get s = some o := ho
    rw [OMap.get_delete] at ho
    split at ho
    · cases ho
    · exact h'.named s o ho
  unfold Machine.disposeSession
  cases m.sessions.get sid with
  | some o => exact hdelete _ ((h.clearIdleTimer o).clearHeartbeat o)
  | none => exact hdelete _ h

end Machine.Sound

/-! ## The pipeline -/

namespace Pipeline

variable {O : PipelineOptions}

/-- The machine's timers are its sessions', and all the pipeline holds is sound. -/
structure Clean (p : Pipeline) : Prop where
  armed : Armed p.machine
  machine : p.machine.Sound
  events : ∀ e ∈ p.events, e.Sound
  outbox : ∀ n ∈ p.outbox, n.effect.Sound

theorem Clean.init : Clean .init := ⟨Armed.init, Machine.Sound.init, nofun, nofun⟩

/-- A step that leaves the machine, the events and the outbox alone. -/
theorem Clean.of_eq {p p' : Pipeline} (h : Clean p) (hm : p'.machine = p.machine) (he : p'.events = p.events)
    (ho : p'.outbox = p.outbox) : Clean p' :=
  ⟨hm ▸ h.armed, hm ▸ h.machine, by rw [he]; exact h.events, by rw [ho]; exact h.outbox⟩

theorem newEffects_sound {m m' : Machine} (h : m'.Sound) : ∀ e ∈ newEffects m m', e.Sound := by
  intro x hx
  rw [newEffects, List.mem_reverse, List.mem_filterMap] at hx
  obtain ⟨e, hm, hx⟩ := hx
  cases e with
  | effect y time => cases hx; exact h.effects _ time (List.mem_of_mem_take hm)
  | _ => cases hx

theorem Clean.deliver {p : Pipeline} (h : Clean p) {e : Effect} (he : e.Sound) : Clean (p.deliver e) := by
  have hout : ∀ title summary, ∀ n ∈ p.outbox ++ [⟨e, title, summary⟩], n.effect.Sound := by
    intro title summary n hn
    rcases List.mem_append.mp hn with hn | hn
    · exact h.outbox n hn
    · rw [List.mem_singleton.mp hn]; exact he
  unfold Pipeline.deliver
  split
  · exact ⟨h.armed, h.machine, h.events, hout _ _⟩
  · exact ⟨h.armed, h.machine, h.events, hout _ _⟩

theorem Clean.call {p : Pipeline} (h : Clean p) {f : Machine → Machine} (ha : Armed (f p.machine))
    (hf : (f p.machine).Sound) : Clean (p.call f) := by
  have hall := newEffects_sound (m := p.machine) hf
  unfold Pipeline.call
  generalize newEffects p.machine (f p.machine) = es at hall
  suffices hfold : ∀ q, Clean q → Clean (es.foldl Pipeline.deliver q) from hfold _ ⟨ha, hf, h.events, h.outbox⟩
  intro q hq
  induction es generalizing q with
  | nil => exact hq
  | cons e es ih =>
    refine ih (fun x hx => hall x (List.mem_cons_of_mem _ hx)) _ ?_
    exact hq.deliver (hall e List.mem_cons_self)

theorem Clean.signals {p : Pipeline} (h : Clean p) {sid : JsString} (hid : sid ≠ []) {x : Signal} (hx : x.Sound) :
    Clean (p.signals O sid x) := h.call (h.armed.signal sid x) (h.machine.signal hid hx)

theorem outcomeSignal_sound (outcome : ErrorOutcome) : (outcomeSignal outcome).Sound := by
  cases outcome <;> trivial

theorem Clean.dispatch {p : Pipeline} (h : Clean p) {e : NormalizedEvent} (he : e.Sound) : Clean (p.dispatch O e) := by
  cases e with
  | session => exact h
  | status sid status action =>
    cases status with
    | busy => exact h.signals he.1 trivial
    | retry => exact h.signals he.1 he.2
    | idle => exact h.signals he.1 trivial
  | error sid outcome =>
    cases sid with
    | none => exact h
    | some sid => exact h.signals (he sid rfl) (outcomeSignal_sound outcome)
  | message sid messageID role outcome =>
    have hc : Clean { p with cache := p.cache.onRole O.bounds sid messageID role } := h.of_eq rfl rfl rfl
    cases outcome with
    | none => exact hc
    | some outcome => exact hc.signals he (outcomeSignal_sound outcome)
  | messageText => exact h.of_eq rfl rfl rfl
  | questionAsked => exact h.signals he.1 he.2
  | questionResolved => exact h.signals he.1 he.2
  | permissionAsked => exact h.signals he.1 he.2
  | permissionResolved => exact h.signals he.1 he.2

theorem Clean.perform {p : Pipeline} (h : Clean p) (j : Job) : Clean (p.perform O j) := by
  cases j with
  | resolved l parentID =>
    unfold Pipeline.perform
    dsimp only
    split
    · exact h.of_eq rfl rfl rfl
    · exact h
  | owner l main =>
    unfold Pipeline.perform
    dsimp only
    split
    · exact h.of_eq rfl rfl rfl
    · exact h
  | thenable n l =>
    unfold Pipeline.perform
    dsimp only
    split
    · split <;> exact h.of_eq rfl rfl rfl
    · exact h
  | adopt n main => exact h.of_eq rfl rfl rfl
  | resume n main =>
    show Clean (p.resume O n main)
    unfold Pipeline.resume
    split
    · exact h
    · rename_i e he
      split
      · exact h
      · have hq : Clean { p with dispatched := p.dispatched ++ [n] } := h.of_eq rfl rfl rfl
        exact hq.dispatch (h.events e (List.mem_of_getElem? he))

theorem Clean.upsert {p : Pipeline} (h : Clean p) (deleted : Bool) (sid : JsString) (parentID : Option JsString)
    (title : JsString) (directory : Option JsString) (archived : Bool) :
    Clean (p.upsert O deleted sid parentID title directory archived) := by
  unfold Pipeline.upsert
  split
  · exact h
  · have hr : Clean { p with registry := p.registry.update ⟨sid, parentID, some title, deleted || archived⟩ } :=
      h.of_eq rfl rfl rfl
    dsimp only
    split
    · have hd := hr.call (f := fun m => m.disposeSession sid) (h.armed.disposeSession sid)
        (h.machine.disposeSession sid)
      exact hd.of_eq rfl rfl rfl
    · exact hr

theorem Clean.onEvent {p : Pipeline} (h : Clean p) {e : NormalizedEvent} (he : e.Sound) : Clean (p.onEvent O e) := by
  unfold Pipeline.onEvent
  split
  · exact h
  · split
    · exact h.upsert _ _ _ _ _ _
    · split
      · exact h
      · have hq : Clean { p with events := p.events ++ [e] } := by
          refine ⟨h.armed, h.machine, fun x hx => ?_, h.outbox⟩
          rcases List.mem_append.mp hx with hx | hx
          · exact h.events x hx
          · rw [List.mem_singleton.mp hx]; exact he
        unfold Pipeline.isMain
        split <;> exact hq.of_eq rfl rfl rfl

theorem Clean.disposeAll {p : Pipeline} (h : Clean p) : Clean p.disposeAll := by
  have hflush : ∀ (l : List Nat) (m : Machine), Armed m → m.Sound →
      Armed (l.foldl (fun m _ => m.flushNext 0) m) ∧ (l.foldl (fun m _ => m.flushNext 0) m).Sound := by
    intro l
    induction l with
    | nil => intro m ha hm; exact ⟨ha, hm⟩
    | cons _ l ih => intro m ha hm; exact ih _ (ha.flushNext 0) (hm.flushNext 0)
  have hdispose : ∀ (sids : List JsString) (m : Machine), Armed m → m.Sound →
      Armed (sids.foldl Machine.disposeSession m) ∧ (sids.foldl Machine.disposeSession m).Sound := by
    intro sids
    induction sids with
    | nil => intro m ha hm; exact ⟨ha, hm⟩
    | cons s sids ih => intro m ha hm; exact ih _ (ha.disposeSession s) (hm.disposeSession s)
  unfold Pipeline.disposeAll
  split
  · have hstart : Armed p.machine.flushPendingCompletions := ⟨h.armed.made, h.armed.kept⟩
    obtain ⟨ha, hm⟩ := hflush (List.range (p.machine.sessions.size + 1)) _ hstart (h.machine.of_eq rfl rfl)
    have hf : Clean (p.call Pipeline.flush) := h.call ha hm
    obtain ⟨ha, hm⟩ := hdispose (p.call Pipeline.flush).machine.sessions.keys _ hf.armed hf.machine
    exact (hf.call ha hm).of_eq rfl rfl rfl
  · exact h

theorem Clean.step {p : Pipeline} (h : Clean p) {e : PipelineEvent} (he : ∀ x, e.op = .receive x → x.Sound) :
    Clean (p.step O e) := by
  have ht : Clean (p.tick e) := ⟨⟨h.armed.made, h.armed.kept⟩, ⟨h.machine.named, h.machine.effects⟩, h.events, h.outbox⟩
  unfold Pipeline.step Pipeline.apply
  generalize p.tick e = p at ht
  split
  · rename_i x hx
    exact ht.onEvent (he x hx)
  · unfold Pipeline.answer
    split
    · dsimp only
      split <;> exact ht.of_eq rfl rfl rfl
    · exact ht
  · unfold Pipeline.runJob
    split
    · exact ht
    · rename_i j js _
      have hq : Clean { p with jobs := js } := ht.of_eq rfl rfl rfl
      exact hq.perform j
  · unfold Pipeline.discovered
    split
    · exact ht
    · exact ht.of_eq rfl rfl rfl
  · exact ht.call ((ht.armed.fire _).ticked 0) ((ht.machine.fire ht.armed _).ticked 0)
  · exact ht.of_eq rfl rfl rfl
  · exact ht.disposeAll

/-! ## The theorem -/

/-- What the hook is called with normalizes to the event. -/
def Normalized (e : PipelineEvent) : Prop := ∀ x, e.op = .receive x → ∃ raw, normalizeEvent raw = some x

theorem clean_run {es : List PipelineEvent} (h : ∀ e ∈ es, Normalized e) : Clean (run O es) := by
  suffices hrun : ∀ p, Clean p → Clean (runFrom (step O) p es) from hrun _ .init
  intro p hp
  induction es generalizing p with
  | nil => exact hp
  | cons e es ih =>
    refine ih (fun x hx => h x (List.mem_cons_of_mem _ hx)) _ (hp.step fun x hx => ?_)
    obtain ⟨raw, hraw⟩ := h e List.mem_cons_self x hx
    exact normalize_sound hraw

/-- Every effect of a run is sound. -/
theorem outbox_sound {es : List PipelineEvent} (h : ∀ e ∈ es, Normalized e) : ∀ n ∈ (run O es).outbox, n.effect.Sound :=
  (clean_run h).outbox

variable {P : EnvelopePlatform}

/-- A notification of a run is enqueued exactly if the link the factory keeps of it, if any, is an RFC 3986 URI. -/
theorem enqueued_iff {o : EnvelopeFactoryOptions} (ho : o.source.Valid) {es : List PipelineEvent}
    (h : ∀ e ∈ es, Normalized e) {n : Notification} (hn : n ∈ (run O es).outbox) (stamp : Stamp P) :
    (∃ e, build P o stamp n = some e ∧ notifyEventSchema.validate P.dateTime e.toJson = true) ↔
      ∀ link, n.effect.keptLink P = some link → Uri.isUri link = true :=
  build_iff ho stamp (outbox_sound h n hn)

/-! ## A link -/

def sampleLink : JsString := js "https://example.com/billing"

/-- The WHATWG parser takes it as it stands. -/
def pipedLink : JsString := js "https://example.com/plan|billing"

/-- `new URL` of the two links, and of nothing else. -/
def samplePlatform : EnvelopePlatform := ⟨fun s => s = sampleLink || s = pipedLink, fun _ => true⟩

theorem isUuid_sample : isUuid (js "00000000-0000-4000-8000-000000000000") = true := by decide

def sampleStamp : Stamp samplePlatform :=
  ⟨js "00000000-0000-4000-8000-000000000000", js "2026-01-01T00:00:00Z", isUuid_sample, rfl⟩

def sampleFactory : EnvelopeFactoryOptions := ⟨⟨js "laptop", js "app", js "/work"⟩, true⟩

def rawInfo : Json :=
  .obj [(js "type", .str (js "session.created")), (js "properties", .obj [(js "info", .obj
    [(js "id", .str ses), (js "title", .str (js "Main"))])])]

/-- A session pauses for an action of the provider. -/
def rawPaused (link : JsString) : Json :=
  .obj [(js "type", .str (js "session.status")), (js "properties", .obj [(js "sessionID", .str ses),
    (js "status", .obj [(js "type", .str (js "retry")), (js "attempt", .num 1 0), (js "next", .num 9 0),
      (js "action", .obj [(js "provider", .str (js "acme")), (js "title", .str (js "Quota reached")),
        (js "message", .str (js "Upgrade to go on")), (js "label", .str (js "Upgrade")), (js "link", .str link)])])])]

def paused (link : JsString) : List PipelineEvent :=
  [⟨1, 1, .receive (.session false ses none (js "Main") none false)⟩,
    ⟨2, 2, .receive (.status ses .retry
      (some ⟨none, js "acme", js "Quota reached", js "Upgrade to go on", js "Upgrade", some link⟩))⟩,
    ⟨2, 2, .runJob⟩]

def pausedNotification (link : JsString) : Notification :=
  ⟨.actionRequired ses (js "provider:") (.providerAction (js "acme") (js "Quota reached") (js "Upgrade to go on")
    (js "Upgrade") (some link)), some (js "Main"), none⟩

theorem normalized_paused {link : JsString} (h : normalizeEvent (rawPaused link) = some (.status ses .retry
    (some ⟨none, js "acme", js "Quota reached", js "Upgrade to go on", js "Upgrade", some link⟩))) :
    ∀ e ∈ paused link, Normalized e := by
  intro e he x hx
  simp only [paused, List.mem_cons, List.not_mem_nil, or_false] at he
  rcases he with rfl | rfl | rfl
  · cases hx
    exact ⟨rawInfo, by decide +kernel⟩
  · cases hx
    exact ⟨rawPaused link, h⟩
  · cases hx

theorem paused_enqueued : ∃ e, build samplePlatform sampleFactory sampleStamp (pausedNotification sampleLink) = some e ∧
    notifyEventSchema.validate samplePlatform.dateTime e.toJson = true := by
  have hraw : ∀ e ∈ paused sampleLink, Normalized e := normalized_paused (by decide +kernel)
  have hsource : sampleFactory.source.Valid := ⟨by decide, by decide, by decide⟩
  have hn : pausedNotification sampleLink ∈ (run sampleOptions (paused sampleLink)).outbox := by decide +kernel
  refine (enqueued_iff hsource hraw hn sampleStamp).mpr fun link hlink => ?_
  have hkept : (pausedNotification sampleLink).effect.keptLink samplePlatform = some sampleLink := by decide +kernel
  rw [hkept] at hlink
  cases hlink
  decide +kernel

/-- The factory keeps the link, and the schema refuses the event: nothing asks the user to act. -/
theorem pipe_in_link : (∀ e ∈ paused pipedLink, Normalized e) ∧
    (run sampleOptions (paused pipedLink)).outbox = [pausedNotification pipedLink] ∧
    build samplePlatform sampleFactory sampleStamp (pausedNotification pipedLink) = none :=
  ⟨normalized_paused (by decide +kernel), by decide +kernel, by decide +kernel⟩

end Pipeline

end NotifyHub.Plugin
