/-
  NotifyHub.Link.System — one `InstanceRegistry` and one `ControlChannel`, with the
  frames under way between them.

  A socket keeps its order: the frames the registry wrote to it that the plugin has not
  read (`down`) and those the plugin wrote that the registry has not read (`up`). The
  registry serves other plugins and the routes as it likes (`gateway`); it hears from a
  socket of this channel only what the channel sent there (`deliver`). Opening, closing
  and losing a socket are events of each side on its own, at any time.

  OpenCode is what confirms a request (`confirms`), and what answers the list calls. It
  is `Honest`: no list call made after it confirmed a request lists the request.
-/

import NotifyHub.Control.Requests
import NotifyHub.Plugin.Collections

namespace NotifyHub

open Control

/-- The registry's parameters, the channel's, and the schema the gateway checks frames with. -/
structure Setup where
  deps : Deps
  options : Plugin.Options
  valid : ClientMessage → Bool

structure Link where
  gateway : Registry
  channel : Plugin.Channel
  down : ConnId → List ServerMessage
  up : ConnId → List Plugin.Frame
  /-- The sockets the channel opened. -/
  dialed : List ConnId
  /-- The requests OpenCode confirmed, the latest first. -/
  confirmed : List JsString

namespace Link

def init : Link := ⟨.init, .init, fun _ => [], fun _ => [], [], []⟩

inductive Event where
  | gateway (e : Control.Event)
  /-- The registry reads the next frame of a socket. -/
  | deliver (now : Nat) (c : ConnId)
  /-- The plugin reads the next frame of its socket. -/
  | receive (c : ConnId)
  | connect (c : ConnId)
  | plugin (e : Plugin.Event)
  | confirms (requestId : JsString)

/-- The socket a frame arrives on. -/
def frameOf : Op → Option ConnId
  | .frame c _ => some c
  | _ => none

def sentTo (c : ConnId) (effects : List Effect) : List ServerMessage :=
  effects.filterMap fun e => match e with
    | .sent d m => if d = c then some m else none
    | _ => none

variable (S : Setup)

/-- The frame as the registry reads it. -/
def read (f : Plugin.Frame) : Option ClientMessage := if S.valid f.message then some f.message else none

/-- What an event is to the registry, if anything. -/
def gatewayEvent (l : Link) : Event → Option Control.Event
  | .gateway e => if (frameOf e.op).any (· ∈ l.dialed) then none else some e
  | .deliver now c => (l.up c).head?.map fun f => ⟨now, .frame c (read S f)⟩
  | _ => none

def toGateway (l : Link) : Option Control.Event → Link
  | none => l
  | some e =>
    let gateway := Control.step S.deps l.gateway e
    { l with gateway, down := fun c => l.down c ++ sentTo c (gateway.trace.drop l.gateway.trace.length) }

def fromPlugin (l : Link) (r : Plugin.Channel × Option (ConnId × Plugin.Frame)) : Link :=
  { l with
    channel := r.1
    up := fun c => l.up c ++ (r.2.toList.filter (·.1 = c)).map (·.2) }

def step (l : Link) (e : Event) : Link :=
  match e with
  | .gateway _ => toGateway S l (gatewayEvent S l e)
  | .deliver _ c =>
    toGateway S { l with up := fun d => if d = c then (l.up d).tail else l.up d } (gatewayEvent S l e)
  | .receive c =>
    match l.down c with
    | [] => l
    | m :: rest =>
      { l with
        down := fun d => if d = c then rest else l.down d
        channel := l.channel.onServerFrame S.options l.confirmed c m }
  | .connect c =>
    if c ∈ l.dialed ∨ (l.gateway.conns c).added = true ∨ (l.channel.connect c).holds c = false then l
    else { l with channel := l.channel.connect c, dialed := c :: l.dialed }
  | .plugin e => fromPlugin l (Plugin.step S.options l.channel e)
  | .confirms requestId => { l with confirmed := requestId :: l.confirmed }

abbrev run (es : List Event) : Link := runFrom (step S) init es

/-- No list call made after OpenCode confirmed a request lists it. -/
def Honest (l : Link) : Event → Prop
  | .plugin (.listSettled n _ (some response) _ _) =>
    ∀ op ∈ l.channel.operations[n]?, ∀ id ∈ Plugin.listedIds response, id ∉ op.since
  | _ => True

instance (l : Link) (e : Event) : Decidable (Honest l e) := by
  unfold Honest
  split <;> infer_instance

variable {S}

/-! ## The registry's part of a step -/

@[simp] theorem toGateway_gateway (l : Link) (e : Option Control.Event) :
    (toGateway S l e).gateway = e.elim l.gateway (Control.step S.deps l.gateway) := by cases e <;> rfl

@[simp] theorem toGateway_channel (l : Link) (e : Option Control.Event) : (toGateway S l e).channel = l.channel := by
  cases e <;> rfl

@[simp] theorem toGateway_up (l : Link) (e : Option Control.Event) : (toGateway S l e).up = l.up := by cases e <;> rfl

@[simp] theorem toGateway_dialed (l : Link) (e : Option Control.Event) : (toGateway S l e).dialed = l.dialed := by
  cases e <;> rfl

theorem step_gateway (l : Link) (e : Event) :
    (step S l e).gateway = (gatewayEvent S l e).elim l.gateway (Control.step S.deps l.gateway) := by
  cases e with
  | gateway e => exact toGateway_gateway l _
  | deliver now c => exact toGateway_gateway _ _
  | receive c => simp only [step]; split <;> rfl
  | connect c => simp only [step]; split <;> rfl
  | _ => rfl

/-- What every operation of the registry keeps holds along the link. -/
theorem gateway_inv {I : Registry → Prop} (hi : I .init) (hstep : ∀ s e, I s → I (Control.step S.deps s e))
    (es : List Event) :
    I (run S es).gateway := by
  refine runFrom_inv (I := fun l : Link => I l.gateway) (fun l e h => ?_) hi es
  rw [step_gateway]
  cases gatewayEvent S l e with
  | none => exact h
  | some e => exact hstep _ e h

theorem seats_run (es : List Event) : Seats (run S es).gateway :=
  gateway_inv seats_init (fun _ e h => seats_step h e) es

/-- A frame the registry reads on a socket of the channel is the next one sent there. -/
theorem gatewayEvent_frame {l : Link} {e : Event} {e' : Control.Event} {c : ConnId} {m : Option ClientMessage}
    (hc : c ∈ l.dialed) (h : gatewayEvent S l e = some e') (hop : e'.op = .frame c m) :
    ∃ f rest, e = .deliver e'.now c ∧ l.up c = f :: rest ∧ m = read S f := by
  cases e with
  | gateway e =>
    simp only [gatewayEvent] at h
    split at h
    · cases h
    · rename_i hd
      cases h
      exact absurd (by rw [hop]; simpa [frameOf] using hc) hd
  | deliver now d =>
    obtain ⟨f, hf, he⟩ := Option.map_eq_some_iff.mp h
    cases he
    cases hop
    obtain ⟨rest, hrest⟩ := List.head?_eq_some_iff.mp hf
    exact ⟨f, rest, rfl, hrest, rfl⟩
  | _ => cases h

theorem read_eq_some {f : Plugin.Frame} {m : ClientMessage} (h : read S f = some m) : f.message = m := by
  unfold read at h
  split at h
  · exact Option.some.inj h
  · cases h

/-! ## The channel's part of a step -/

theorem step_collects {P : Plugin.Operation → Plugin.ListCall → Prop} {l : Link} {e : Event}
    (hP : ∀ n k response titles nowIso op, e = .plugin (.listSettled n k response titles nowIso) →
      l.channel.operations[n]? = some op → P op (Plugin.settledCall response)) :
    Plugin.Collects S.options P l.channel.operations (step S l e).channel.operations := by
  cases e with
  | gateway e => rw [step, toGateway_channel]; exact .same
  | deliver now c => rw [step, toGateway_channel]; exact .same
  | receive c =>
    simp only [step]
    split
    · exact .same
    · exact Plugin.onServerFrame_collects ..
  | connect c =>
    simp only [step, Plugin.Channel.connect]
    repeat' split
    all_goals exact .same
  | plugin e =>
    exact Plugin.step_collects fun n k response titles nowIso op he =>
      hP n k response titles nowIso op (he ▸ rfl)
  | confirms requestId => exact .same

/-- Every frame under way was sent on a socket of the channel, and a snapshot response
    carries the result of its collection. -/
structure Traced (l : Link) : Prop where
  socket : ∀ c, l.channel.socket = some c → c ∈ l.dialed
  dialed : ∀ c f, f ∈ l.up c → c ∈ l.dialed
  taken : ∀ c f, f ∈ l.up c → ∀ requestId instanceId is, f.message = .pendingSnapshotResponse requestId instanceId is →
    ∃ n op, f.collection = some n ∧ l.channel.operations[n]? = some op ∧ op.result = some is

theorem dialed_step (l : Link) (e : Event) {c : ConnId} (h : c ∈ l.dialed) : c ∈ (step S l e).dialed := by
  cases e with
  | gateway e => rw [step, toGateway_dialed]; exact h
  | deliver now d => rw [step, toGateway_dialed]; exact h
  | receive d => simp only [step]; split <;> exact h
  | connect d => simp only [step]; split <;> simp [h]
  | _ => exact h

theorem step_socket (l : Link) (e : Event) {c : ConnId} (h : (step S l e).channel.socket = some c) :
    l.channel.socket = some c ∨ c ∈ (step S l e).dialed := by
  cases e with
  | gateway e => rw [step, toGateway_channel] at h; exact Or.inl h
  | deliver now d => rw [step, toGateway_channel] at h; exact Or.inl h
  | receive d =>
    simp only [step] at h
    split at h
    · exact Or.inl h
    · rw [Plugin.onServerFrame_socket] at h; exact Or.inl h
  | connect d =>
    simp only [step] at h ⊢
    split at h
    · exact Or.inl h
    · rename_i hn
      rw [if_neg hn]
      simp only [not_or, Bool.not_eq_false] at hn
      obtain rfl : d = c := Option.some.inj ((Plugin.socket_of_holds hn.2.2).symm.trans h)
      exact Or.inr List.mem_cons_self
  | plugin e =>
    rcases Plugin.step_socket l.channel e (O := S.options) with hs | hs
    · exact Or.inl (hs ▸ h)
    · rw [show (step S l (.plugin e)).channel.socket = none from hs] at h; cases h
  | confirms requestId => exact Or.inl h

/-- A frame under way after a step was under way before it, or the step sent it. -/
theorem step_up (l : Link) (e : Event) {c : ConnId} {f : Plugin.Frame} (h : f ∈ (step S l e).up c) :
    f ∈ l.up c ∨ ∃ e', e = .plugin e' ∧ (Plugin.step S.options l.channel e').2 = some (c, f) := by
  cases e with
  | gateway e => rw [step, toGateway_up] at h; exact Or.inl h
  | deliver now d =>
    rw [step, toGateway_up] at h
    dsimp only at h
    split at h
    · exact Or.inl (List.mem_of_mem_tail h)
    · exact Or.inl h
  | receive d => simp only [step] at h; split at h <;> exact Or.inl h
  | connect d => simp only [step] at h; split at h <;> exact Or.inl h
  | plugin e =>
    rcases List.mem_append.mp h with h | h
    · exact Or.inl h
    · obtain ⟨⟨d, g⟩, hmem, rfl⟩ := List.mem_map.mp h
      obtain ⟨hsent, hd⟩ := List.mem_filter.mp hmem
      obtain rfl : d = c := of_decide_eq_true hd
      exact Or.inr ⟨e, rfl, Option.mem_toList.mp hsent⟩
  | confirms requestId => exact Or.inl h

theorem traced_step {l : Link} (h : Traced l) (e : Event) : Traced (step S l e) := by
  have hkeep := step_collects (S := S) (P := fun _ _ => True) (l := l) (e := e) fun _ _ _ _ _ _ _ _ => trivial
  refine ⟨fun c hc => ?_, fun c f hf => ?_, fun c f hf requestId instanceId is hm => ?_⟩
  · rcases step_socket l e hc with hc | hc
    · exact dialed_step l e (h.socket c hc)
    · exact hc
  · rcases step_up l e hf with hf | ⟨e', rfl, hsent⟩
    · exact dialed_step l e (h.dialed c f hf)
    · exact dialed_step l _ (h.socket c (Plugin.step_sends hsent).1)
  · have hbefore : ∃ n op, f.collection = some n ∧ l.channel.operations[n]? = some op ∧ op.result = some is := by
      rcases step_up l e hf with hf | ⟨e', rfl, hsent⟩
      · exact h.taken c f hf requestId instanceId is hm
      · exact (Plugin.step_sends hsent).2 requestId instanceId is hm
    obtain ⟨n, op, hn, hop, hres⟩ := hbefore
    obtain ⟨op', hop', hres', -⟩ := Plugin.collects_keeps hkeep hop hres
    exact ⟨n, op', hn, hop', hres'⟩

theorem traced_init : Traced init := ⟨nofun, nofun, nofun⟩

theorem traced_run (es : List Event) : Traced (run S es) :=
  runFrom_inv (I := Traced) (fun _ e h => traced_step h e) traced_init es

theorem accounted_run (es : List Event) : ∀ op ∈ (run S es).channel.operations, Plugin.Accounted S.options op := by
  refine runFrom_inv (I := fun l : Link => ∀ op ∈ l.channel.operations, Plugin.Accounted S.options op) (fun l e h => ?_)
    (fun op hop => absurd hop List.not_mem_nil) es
  exact Plugin.collects_forall (step_collects (P := fun _ _ => True) fun _ _ _ _ _ _ _ _ => trivial)
    Plugin.accounted_new
    (fun _ _ => Plugin.accounted_next) h

end Link

end NotifyHub
