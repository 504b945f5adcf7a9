/-
  NotifyHub.Control.Outcomes — whose result an outcome reports.

  Routed commands are tracked per connection and kind, outcomes by the client's
  command id alone. `Traced` adds to the registry, as a ghost, the routed command that
  created each outcome (its `Origin`).

  Proved (`outcomes_belong`): in every run in which no call is routed under a command
  id that still has an outcome, or another routed command in flight (`Reuse`), an
  outcome changes at most once, from `accepted`, by the result, the timeout or the
  disconnect of its origin. A reuse breaks this: a replay on another connection
  rewrites the first command's confirmed outcome (`replay_rewrites_the_outcome`).
-/

import NotifyHub.Control.Commands
import NotifyHub.Control.Ownership

namespace NotifyHub.Control

open Relation

variable {D : Deps}

/-! ## The cache -/

/-- The entry after its command has ended. -/
def CommandOutcomeEntry.ended (e : CommandOutcomeEntry) (status : CommandStatus) (nowMs : Nat) : CommandOutcomeEntry :=
  { e with status := .settled status, updatedAt := nowMs }

namespace OutcomeCache

theorem get_prune {o : OutcomeCache} {nowMs : Nat} {id : JsString} {x : CommandOutcomeEntry}
    (h : (pruneExpiredOutcomes o nowMs).get id = some x) : o.get id = some x := by
  rw [pruneExpiredOutcomes, OMap.get_filter] at h
  exact (Option.filter_eq_some_iff.mp h).1

theorem get_settle {o : OutcomeCache} {nowMs : Nat} {commandId : JsString} {status : CommandStatus} {id : JsString}
    {x : CommandOutcomeEntry} (h : (settleOutcome o nowMs commandId status).get id = some x) :
    ∃ y, o.get id = some y ∧ (x = y ∨ (id = commandId ∧ x = y.ended status nowMs)) := by
  unfold settleOutcome at h
  split at h
  · exact ⟨x, h, Or.inl rfl⟩
  · rename_i e he
    split at h
    · rw [OMap.get_delete] at h
      split at h
      · cases h
      · exact ⟨x, h, Or.inl rfl⟩
    · rw [OMap.get_set] at h
      split at h
      · rename_i hid
        cases h
        exact ⟨e, hid ▸ he, Or.inr ⟨hid, rfl⟩⟩
      · exact ⟨x, h, Or.inl rfl⟩

/-- Settling several commands alike. -/
theorem get_settle_all {status : CommandStatus} {nowMs : Nat} {id : JsString} : ∀ (l : List PendingCommand)
    (o : OutcomeCache) {x : CommandOutcomeEntry},
    (l.foldl (fun o p => settleOutcome o nowMs p.commandId status) o).get id = some x →
    ∃ y, o.get id = some y ∧ (x = y ∨ ((∃ p ∈ l, p.commandId = id) ∧ x = y.ended status nowMs)) := by
  intro l
  induction l with
  | nil => exact fun o x h => ⟨x, h, Or.inl rfl⟩
  | cons p l ih =>
    intro o x h
    obtain ⟨z, hz, hxz⟩ := ih _ h
    obtain ⟨y, hy, hzy⟩ := get_settle hz
    have hhead : id = p.commandId → ∃ q ∈ p :: l, q.commandId = id := fun he => ⟨p, List.mem_cons_self, he.symm⟩
    have htail : (∃ q ∈ l, q.commandId = id) → ∃ q ∈ p :: l, q.commandId = id :=
      fun ⟨q, hq, he⟩ => ⟨q, List.mem_cons_of_mem _ hq, he⟩
    refine ⟨y, hy, ?_⟩
    rcases hxz with rfl | ⟨hl, rfl⟩ <;> rcases hzy with rfl | ⟨he, rfl⟩
    · exact Or.inl rfl
    · exact Or.inr ⟨hhead he, rfl⟩
    · exact Or.inr ⟨htail hl, rfl⟩
    · exact Or.inr ⟨hhead he, rfl⟩

/-- A record either makes its own entry or leaves the others, less those evicted. -/
theorem get_record {o : OutcomeCache} {nowMs : Nat} {u : UserId} {commandId requestId instanceId : JsString}
    {kind : CommandKind} {id : JsString} {x : CommandOutcomeEntry}
    (h : (recordOutcome D o nowMs u commandId requestId instanceId kind).get id = some x) :
    (id = commandId ∧ (pruneExpiredOutcomes o nowMs).has commandId = false ∧
      x = ⟨u, commandId, requestId, instanceId, kind, .accepted, nowMs, nowMs + D.outcomeTtlMs⟩) ∨
    (pruneExpiredOutcomes o nowMs).get id = some x := by
  unfold recordOutcome at h
  dsimp only at h
  split at h
  · exact Or.inr h
  · rename_i hn
    have h' := OMap.get_of_evict h
    rw [OMap.get_set] at h'
    split at h'
    · rename_i hid
      exact Or.inl ⟨hid, Bool.eq_false_iff.mpr hn, (Option.some.inj h').symm⟩
    · exact Or.inr h'

end OutcomeCache

/-! ## What can happen to an outcome -/

/-- Why a routed command ended: its result or timeout, or its connection was disconnected. -/
def Ended (op : Op) (s t : Registry) (k : CommandKind) (p : PendingCommand) (status : CommandStatus) : Prop :=
  op.Ends k p.connection p.commandId status ∨
    (p.connection ∈ s.connections ∧ p.connection ∉ t.connections ∧ status = .resultUnknown)

/-- From `s` to `t` no command was routed, and outcomes changed with the commands that ended. -/
structure Evolves (op : Op) (s t : Registry) : Prop where
  live : ∀ c, c ∈ t.connections → c ∈ s.connections ∨ (s.conns c).added = false
  added : ∀ c, (s.conns c).added = true → (t.conns c).added = true
  pending : ∀ k key p, (t.commands k).get key = some p → (s.commands k).get key = some p
  outcome : ∀ id x, t.commandOutcomes.get id = some x → ∃ y, s.commandOutcomes.get id = some y ∧
    (x = y ∨ ∃ k key p status now, (s.commands k).get key = some p ∧ p.commandId = id ∧
      (t.commands k).get key = none ∧ x = y.ended status now ∧ Ended op s t k p status)

/-- One routed command in flight for each command id. -/
def Single (s : Registry) : Prop := ∀ k k' key key' p p', (s.commands k).get key = some p →
  (s.commands k').get key' = some p' → p.commandId = p'.commandId → k = k' ∧ key = key'

theorem Evolves.of_same {op : Op} {s t : Registry} (hc : ∀ c, (t.conns c).added = (s.conns c).added)
    (hl : t.connections = s.connections) (hp : ∀ k, t.commands k = s.commands k)
    (ho : t.commandOutcomes = s.commandOutcomes) : Evolves op s t where
  live _ h := Or.inl (hl ▸ h)
  added c h := (hc c).trans h
  pending k _ _ h := hp k ▸ h
  outcome _ x h := ⟨x, ho ▸ h, Or.inl rfl⟩

theorem Evolves.refl {op : Op} (s : Registry) : Evolves op s s := .of_same (fun _ => rfl) rfl (fun _ => rfl) rfl

theorem Evolves.trans {op : Op} {s t u : Registry} (hf : InFlight s) (hs : Single s) (h : Evolves op s t)
    (h' : Evolves op t u) : Evolves op s u where
  live c hc := by
    rcases h'.live c hc with ht | ht
    · exact h.live c ht
    · right
      by_contra hn
      rw [h.added c (Bool.not_eq_false _ ▸ hn)] at ht; cases ht
  added c hc := h'.added c (h.added c hc)
  pending k key p hp := h.pending k key p (h'.pending k key p hp)
  outcome id x hx := by
    have hgone : ∀ k key p, (s.commands k).get key = some p → (t.commands k).get key = none →
        (u.commands k).get key = none := by
      intro k key p _ ht
      cases hu : (u.commands k).get key with
      | none => rfl
      | some q => rw [h'.pending k key q hu] at ht; cases ht
    obtain ⟨z, hz, hxz⟩ := h'.outcome id x hx
    obtain ⟨y, hy, hzy⟩ := h.outcome id z hz
    refine ⟨y, hy, ?_⟩
    rcases hxz with rfl | ⟨k', key', p', status', now', hp', hid', hu', rfl, hend'⟩
    · rcases hzy with rfl | ⟨k, key, p, status, now, hp, hid, ht, rfl, hend⟩
      · exact Or.inl rfl
      · refine Or.inr ⟨k, key, p, status, now, hp, hid, hgone k key p hp ht, rfl, ?_⟩
        rcases hend with hend | ⟨hin, hout, hst⟩
        · exact Or.inl hend
        · refine Or.inr ⟨hin, fun hc => ?_, hst⟩
          rcases h'.live _ hc with hc | hc
          · exact hout hc
          · rw [h.added _ ((hf.tracked k).keyed key p hp).2] at hc; cases hc
    · have hps := h.pending k' key' p' hp'
      rcases hzy with rfl | ⟨k, key, p, status, now, hp, hid, ht, rfl, -⟩
      · refine Or.inr ⟨k', key', p', status', now', hps, hid', hu', rfl, ?_⟩
        rcases hend' with hend | ⟨hin, hout, hst⟩
        · exact Or.inl hend
        · refine Or.inr ⟨?_, hout, hst⟩
          rcases h.live _ hin with hc | hc
          · exact hc
          · rw [((hf.tracked k').keyed key' p' hps).2] at hc; cases hc
      · -- Only one command has this id, and it ended before.
        obtain ⟨rfl, rfl⟩ := hs k k' key key' p p' hp hps (hid.trans hid'.symm)
        rw [hp'] at ht; cases ht

theorem evolves_setConn {op : Op} {t : Registry} {c : ConnId} {x : ControlConnection} (ha : x.added = (t.conns c).added)
    (hu : x.uid = (t.conns c).uid) : Evolves op t (t.setConn c x) :=
  .of_same (fun e => (setConn_same ha hu e).1) rfl (fun _ => rfl) rfl

theorem evolves_terminate {op : Op} (t : Registry) (c : ConnId) : Evolves op t (t.terminate c) :=
  .of_same (fun d => (setConn_same (x := { t.conns c with socket := (t.conns c).socket.shut }) rfl rfl d).1) rfl
    (fun _ => rfl) rfl

theorem single_of_pending {s t : Registry} (hs : Single s)
    (h : ∀ k key p, (t.commands k).get key = some p → (s.commands k).get key = some p) : Single t :=
  fun k k' key key' p p' hp hp' => hs k k' key key' p p' (h k key p hp) (h k' key' p' hp')

theorem commands_leave (s : Registry) (c : ConnId) (k : CommandKind) :
    (leave s c).commands k = offConnection (·.connection) c (s.commands k) := by cases k <;> rfl

theorem get_offConnection {m : OMap JsString PendingCommand} {c : ConnId} {key : JsString} {p : PendingCommand} :
    (offConnection (·.connection) c m).get key = some p ↔ m.get key = some p ∧ p.connection ≠ c := by
  rw [offConnection, OMap.get_filter, Option.filter_eq_some_iff, decide_eq_true_iff]

/-- The commands `disconnect` settles are the ones it takes out. -/
theorem mem_lostCommands {s : Registry} {c : ConnId} {p : PendingCommand} (h : p ∈ lostCommands s c) :
    ∃ k key, (s.commands k).get key = some p ∧ p.connection = c ∧ ((leave s c).commands k).get key = none := by
  have hkey : ∀ k, p ∈ onConnection (·.connection) c (s.commands k) →
      ∃ k key, (s.commands k).get key = some p ∧ p.connection = c ∧ ((leave s c).commands k).get key = none := by
    intro k hm
    obtain ⟨hv, hc⟩ := List.mem_filter.mp hm
    obtain ⟨key, hk⟩ := OMap.mem_values.mp hv
    refine ⟨k, key, hk, of_decide_eq_true hc, ?_⟩
    rw [commands_leave]
    refine Option.eq_none_iff_forall_ne_some.mpr fun q hq => ?_
    obtain ⟨hq, hne⟩ := get_offConnection.mp hq
    rw [hk] at hq; cases hq
    exact hne (of_decide_eq_true hc)
  rcases List.mem_append.mp h with h | h
  · exact hkey .question h
  · exact hkey .permission h

theorem evolves_disconnect {op : Op} (s : Registry) (c : ConnId) (hf : InFlight s) (hs : Single s) :
    Evolves op s (disconnect D s c) := by
  refine (disconnect_inv (P := fun t => InFlight t ∧ Evolves op s t) ?_ ?_ ?_ ?_ ?_ ?_ s c ⟨hf, .refl s⟩).2
  · intro t d hd ⟨hft, ht⟩
    refine ⟨⟨hft.1, hft.2.1.off d, hft.2.2.off d⟩, ht.trans hf hs ⟨?_, fun _ h => h, ?_, ?_⟩⟩
    · exact fun e he => Or.inl (List.mem_filter.mp he).1
    · intro k key p hp
      rw [commands_leave] at hp
      exact (get_offConnection.mp hp).1
    · intro id x hx
      obtain ⟨y, hy, hxy⟩ := OutcomeCache.get_settle_all _ _ hx
      refine ⟨y, hy, hxy.imp_right ?_⟩
      rintro ⟨⟨p, hp, hid⟩, rfl⟩
      obtain ⟨k, key, hk, hc, hgone⟩ := mem_lostCommands hp
      refine ⟨k, key, p, .resultUnknown, t.nowMs, hk, hid, hgone, rfl, Or.inr ⟨hc ▸ hd, ?_, rfl⟩⟩
      rw [hc, leave_connections]; simp
  · exact fun t d r _ _ h =>
      ⟨inFlight_putRecord h.1 nofun, h.2.trans hf hs (.of_same (fun _ => rfl) rfl (fun _ => rfl) rfl)⟩
  · exact fun t key h => ⟨h.1, h.2.trans hf hs (.of_same (fun _ => rfl) rfl (fun _ => rfl) rfl)⟩
  · intro t key u r rs hrs h
    obtain ⟨⟨k, hk⟩, -⟩ := mem_rivals.mp (hrs ▸ List.mem_cons_self : r ∈ rivals D t key u)
    exact ⟨inFlight_putRecord (r := { r with state := .controllable, lastSeenAt := t.nowMs }) h.1
      (h.1.1.added k r · hk),
      h.2.trans hf hs (.of_same (fun _ => rfl) rfl (fun _ => rfl) rfl)⟩
  · exact fun t d h => ⟨inFlight_setConn h.1 rfl rfl,
      h.2.trans hf hs (evolves_setConn (t := t) rfl rfl)⟩
  · exact fun t e _ h => ⟨h.1, h.2.trans hf hs (.of_same (fun _ => rfl) rfl (fun _ => rfl) rfl)⟩

/-- A routed command found under a connection's key is that connection's. -/
theorem pending_of_key {s : Registry} (hf : InFlight s) {k : CommandKind} {c : ConnId} {commandId : JsString}
    {p : PendingCommand} (ha : (s.conns c).added = true) (hp : (s.commands k).get (commandKey s c commandId) = some p) :
    p.connection = c ∧ p.commandId = commandId := by
  obtain ⟨hk, hpa⟩ := (hf.tracked k).keyed _ p hp
  obtain ⟨hu, hid⟩ := joinNul_inj (nul_not_mem_decimal _) (nul_not_mem_decimal _) hk
  exact ⟨hf.1.inj _ _ hpa ha (decimal_inj hu).symm, hid.symm⟩

theorem evolves_finish {op : Op} {s : Registry} (hf : InFlight s) {k : CommandKind} {c : ConnId} {commandId : JsString}
    {p : PendingCommand} {status : CommandStatus} (hp : (s.commands k).get (commandKey s c commandId) = some p)
    (ho : op.Ends k c commandId status) (ha : (s.conns c).added = true) :
    Evolves op s (settleOutcome (untrackCommand s k c commandId) p.commandId status) := by
  obtain ⟨hc, hid⟩ := pending_of_key hf ha hp
  have hcmds : ∀ k', (settleOutcome (untrackCommand s k c commandId) p.commandId status).commands k' =
      if k' = k then (s.commands k).delete (commandKey s c commandId) else s.commands k' := by
    intro k'; cases k <;> cases k' <;> rfl
  refine ⟨fun _ h => Or.inl h, fun _ h => h, fun k' key q hq => ?_, fun id x hx => ?_⟩
  · rw [hcmds] at hq
    split at hq
    · rename_i hk
      rw [OMap.get_delete] at hq
      split at hq
      · cases hq
      · rw [hk]; exact hq
    · exact hq
  · obtain ⟨y, hy, hxy⟩ := OutcomeCache.get_settle hx
    refine ⟨y, hy, hxy.imp_right ?_⟩
    rintro ⟨rfl, rfl⟩
    refine ⟨k, commandKey s c commandId, p, status, s.nowMs, hp, rfl, ?_, rfl, Or.inl (by rw [hc, hid]; exact ho)⟩
    rw [hcmds, if_pos rfl, OMap.get_delete_self]

theorem evolves_add {op : Op} {s : Registry} {c : ConnId} {socket : Socket} (ha : (s.conns c).added = false) :
    Evolves op s (add s c socket) := by
  have hrest : (∀ k, (add s c socket).commands k = s.commands k) ∧
      (add s c socket).commandOutcomes = s.commandOutcomes := by
    simp only [add, ha, Bool.false_eq_true, if_false]
    exact ⟨fun k => by cases k <;> rfl, rfl⟩
  refine ⟨fun d hd => ?_, fun d hd => ?_, fun k key p hp => hrest.1 k ▸ hp,
    fun id x hx => ⟨x, hrest.2 ▸ hx, Or.inl rfl⟩⟩
  · simp only [add, ha, Bool.false_eq_true, if_false, List.mem_append, List.mem_singleton] at hd
    exact hd.imp_right fun he => by rw [he]; exact ha
  · by_cases he : d = c <;> simp [add, ha, Registry.setConn, he, hd]

theorem evolves_move {op : Op} (hop : op.route = none) {s t : Registry} (hf : InFlight s) (hs : Single s)
    (m : Move D op s t) : Evolves op s t := by
  cases m with
  | prune => exact ⟨fun _ h => Or.inl h, fun _ h => h, fun _ _ _ h => h,
      fun _ x h => ⟨x, OutcomeCache.get_prune h, Or.inl rfl⟩⟩
  | track q r c hq ht => rw [hop] at hq; cases hq
  | finish k c commandId p status hp ho ha => exact evolves_finish hf hp ho ha
  | conn c x ha hu hi => exact evolves_setConn ha hu
  | add c socket ha => exact evolves_add ha
  | enroll c registration existing ho ha =>
    exact .of_same (fun d =>
      (setConn_same (x := { s.conns c with instanceId := some registration.instanceId }) rfl rfl d).1)
      rfl (fun _ => rfl) rfl
  | disconnect c => exact evolves_disconnect s c hf hs
  | _ => exact .of_same (fun _ => rfl) rfl (fun _ => rfl) rfl

theorem evolves_moves {op : Op} (hop : op.route = none) {s t : Registry} (hf : InFlight s) (hs : Single s)
    (h : Moves D op s t) : InFlight t ∧ Evolves op s t := by
  induction h with
  | refl => exact ⟨hf, .refl s⟩
  | tail _ m ih =>
    exact ⟨inFlight_move m ih.1, ih.2.trans hf hs (evolves_move hop ih.1 (single_of_pending hs ih.2.pending) m)⟩

/-! ## Origins -/

/-- The routed command that created an outcome. -/
structure Origin where
  kind : CommandKind
  connection : ConnId
  requestId : JsString
  user : UserId
  instanceId : JsString
  deriving DecidableEq

structure Origin.Describes (o : Origin) (commandId : JsString) (x : CommandOutcomeEntry) : Prop where
  commandId : x.commandId = commandId
  kind : x.kind = o.kind
  requestId : x.requestId = o.requestId
  user : x.userId = o.user
  instanceId : x.instanceId = o.instanceId

/-- The registry, and for each command id the origin of its last outcome. -/
structure Traced where
  reg : Registry
  /-- Ghost: the origin of the outcome last created under a command id. -/
  origin : JsString → Option Origin

/-- The outcome a step creates: its command id and its origin. -/
def creates (s : Registry) (e : Event) : Option (JsString × Origin) :=
  match e.op.route with
  | none => none
  | some q =>
    match q.target { s with nowMs := e.now } with
    | .error _ => none
    | .ok (r, c) =>
      if (OutcomeCache.pruneExpiredOutcomes s.commandOutcomes e.now).has q.commandId then none
      else some (q.commandId, ⟨q.kind, c, q.requestId, q.user, r.registration.instanceId⟩)

variable (D) in
def stepT (t : Traced) (e : Event) : Traced where
  reg := step D t.reg e
  origin id := match creates t.reg e with
    | some (id', o) => if id = id' then some o else t.origin id
    | none => t.origin id

def Traced.init : Traced := ⟨.init, fun _ => none⟩

/-- A call is routed under a command id that still has an outcome, or a routed command in flight. -/
def Reuse (s : Registry) (e : Event) : Prop :=
  ∃ q ∈ e.op.route, (q.target { s with nowMs := e.now }).isOk = true ∧
    ((OutcomeCache.pruneExpiredOutcomes s.commandOutcomes e.now).has q.commandId = true ∨
      ∃ p ∈ s.pendingAnswerCommands.values ++ s.pendingDecideCommands.values, p.commandId = q.commandId)

instance (s : Registry) (e : Event) : Decidable (Reuse s e) := inferInstanceAs (Decidable (∃ q ∈ e.op.route, _))

variable (D) in
/-- After the step every outcome is its origin's: created by it in this step, or as it was
    before, or ended from `accepted` by the result, the timeout or the disconnect of its origin. -/
def OwnOutcome (t : Traced) (e : Event) : Prop :=
  ∀ id x, (stepT D t e).reg.commandOutcomes.get id = some x →
    ∃ o, (stepT D t e).origin id = some o ∧ o.Describes id x ∧
      ((creates t.reg e = some (id, o) ∧ (x.status = .accepted ∨
          (x.status = .settled .resultUnknown ∧ o.connection ∉ (stepT D t e).reg.connections))) ∨
        ((∀ o', creates t.reg e ≠ some (id, o')) ∧ ∃ y, t.reg.commandOutcomes.get id = some y ∧
          (x = y ∨ (y.status = .accepted ∧ ∃ key status now, x = y.ended status now ∧
            (t.reg.commands o.kind).get key = some ⟨o.connection, o.requestId, id⟩ ∧
            ((stepT D t e).reg.commands o.kind).get key = none ∧
            Ended e.op t.reg (stepT D t e).reg o.kind ⟨o.connection, o.requestId, id⟩ status))))

/-- Every outcome has its origin, which is the only command that can still be in flight under
    its id, and only while the outcome is `accepted`. -/
structure Owned (s : Registry) (origin : JsString → Option Origin) : Prop where
  flight : InFlight s
  single : Single s
  entry : ∀ id x, s.commandOutcomes.get id = some x → ∃ o, origin id = some o ∧ o.Describes id x ∧
    ∀ k key p, (s.commands k).get key = some p → p.commandId = id →
      k = o.kind ∧ p = ⟨o.connection, o.requestId, id⟩ ∧ x.status = .accepted

theorem describes_ended {o : Origin} {id : JsString} {x : CommandOutcomeEntry} (h : o.Describes id x)
    (status : CommandStatus) (now : Nat) : o.Describes id (x.ended status now) :=
  ⟨h.commandId, h.kind, h.requestId, h.user, h.instanceId⟩

/-- What a stretch without routing does to the outcomes. -/
theorem Owned.evolve {op : Op} {s t : Registry} {g : JsString → Option Origin} (h : Owned s g) (hf : InFlight t)
    (he : Evolves op s t) : Owned t g ∧ ∀ id x, t.commandOutcomes.get id = some x → ∃ o y, g id = some o ∧
      o.Describes id x ∧ s.commandOutcomes.get id = some y ∧ (x = y ∨ (y.status = .accepted ∧ ∃ key status now,
        x = y.ended status now ∧ (s.commands o.kind).get key = some ⟨o.connection, o.requestId, id⟩ ∧
        (t.commands o.kind).get key = none ∧ Ended op s t o.kind ⟨o.connection, o.requestId, id⟩ status)) := by
  have key : ∀ id x, t.commandOutcomes.get id = some x → ∃ o y, g id = some o ∧ o.Describes id x ∧
      s.commandOutcomes.get id = some y ∧ (x = y ∨ (y.status = .accepted ∧ ∃ key status now,
        x = y.ended status now ∧ (s.commands o.kind).get key = some ⟨o.connection, o.requestId, id⟩ ∧
        (t.commands o.kind).get key = none ∧ Ended op s t o.kind ⟨o.connection, o.requestId, id⟩ status)) := by
    intro id x hx
    obtain ⟨y, hy, hxy⟩ := he.outcome id x hx
    obtain ⟨o, ho, hd, hp⟩ := h.entry id y hy
    rcases hxy with rfl | ⟨k, key, p, status, now, hk, hid, hgone, rfl, hend⟩
    · exact ⟨o, x, ho, hd, hy, Or.inl rfl⟩
    · obtain ⟨rfl, rfl, hacc⟩ := hp k key p hk hid
      exact ⟨o, y, ho, describes_ended hd status now, hy, Or.inr ⟨hacc, key, status, now, rfl, hk, hgone, hend⟩⟩
  refine ⟨⟨hf, single_of_pending h.single he.pending, fun id x hx => ?_⟩, key⟩
  obtain ⟨o, y, ho, hd, hy, hxy⟩ := key id x hx
  obtain ⟨o', ho', -, hp⟩ := h.entry id y hy
  obtain rfl : o = o' := Option.some.inj (ho.symm.trans ho')
  refine ⟨o, ho, hd, fun k key p hk hid => ?_⟩
  obtain ⟨rfl, rfl, hacc⟩ := hp k key p (he.pending k key p hk) hid
  refine ⟨rfl, rfl, ?_⟩
  rcases hxy with rfl | ⟨-, key', status, now, -, hk', hgone, -⟩
  · exact hacc
  · obtain ⟨-, rfl⟩ := h.single _ _ key key' _ _ (he.pending _ key _ hk) hk' rfl
    rw [hk] at hgone; cases hgone

/-! ## Steps -/

theorem commands_track (s : Registry) (k : CommandKind) (r : InstanceRecord) (c : ConnId) (u : UserId)
    (requestId commandId : JsString) (k' : CommandKind) : (trackCommand D s k r c u requestId commandId).commands k' =
      if k' = k then (s.commands k).set (commandKey s c commandId) ⟨c, requestId, commandId⟩ else s.commands k' := by
  cases k <;> cases k' <;> rfl

/-- Routing a command under a command id that is free. -/
theorem Owned.track {s : Registry} {g : JsString → Option Origin} {q : Route} {r : InstanceRecord} {c : ConnId}
    (h : Owned s g) (ht : q.target s = .ok (r, c))
    (hfresh : (OutcomeCache.pruneExpiredOutcomes s.commandOutcomes s.nowMs).has q.commandId = false)
    (hnone : ∀ k key p, (s.commands k).get key = some p → p.commandId ≠ q.commandId) :
    Owned (trackCommand D s q.kind r c q.user q.requestId q.commandId) (fun id =>
      if id = q.commandId then some ⟨q.kind, c, q.requestId, q.user, r.registration.instanceId⟩ else g id) := by
  have hpending : ∀ k key p, ((trackCommand D s q.kind r c q.user q.requestId q.commandId).commands k).get key =
    some p →
      (k = q.kind ∧ key = commandKey s c q.commandId ∧ p = ⟨c, q.requestId, q.commandId⟩) ∨
        (s.commands k).get key = some p := by
    intro k key p hp
    rw [commands_track] at hp
    split at hp
    · rename_i hk
      rw [OMap.get_set] at hp
      split at hp
      · rename_i hkey; exact Or.inl ⟨hk, hkey, (Option.some.inj hp).symm⟩
      · rw [hk]; exact Or.inr hp
    · exact Or.inr hp
  refine ⟨inFlight_track h.flight ht, ?_, fun id x hx => ?_⟩
  · intro k k' key key' p p' hp hp' hid
    rcases hpending k key p hp with ⟨hk, hkey, rfl⟩ | hold <;> rcases hpending k' key' p' hp' with
      ⟨hk', hkey', rfl⟩ | hold'
    · exact ⟨hk.trans hk'.symm, hkey.trans hkey'.symm⟩
    · exact absurd hid.symm (hnone k' key' p' hold')
    · exact absurd hid (hnone k key p hold)
    · exact h.single k k' key key' p p' hold hold' hid
  · rcases OutcomeCache.get_record hx with ⟨rfl, -, rfl⟩ | hold
    · refine ⟨_, if_pos rfl, ⟨rfl, rfl, rfl, rfl, rfl⟩, fun k key p hp hid => ?_⟩
      rcases hpending k key p hp with ⟨hk, -, rfl⟩ | hp
      · exact ⟨hk, rfl, rfl⟩
      · exact absurd hid (hnone k key p hp)
    · have hne : id ≠ q.commandId := by
        rintro rfl
        rw [OMap.has, hold] at hfresh; cases hfresh
      obtain ⟨o, ho, hd, hp⟩ := h.entry id x (OutcomeCache.get_prune hold)
      refine ⟨o, (if_neg hne).trans ho, hd, fun k key p hk hid => ?_⟩
      rcases hpending k key p hk with ⟨-, -, rfl⟩ | hk
      · exact absurd hid.symm hne
      · exact hp k key p hk hid

/-- A `send` routes nothing. -/
theorem evolves_send {op : Op} {s : Registry} (hf : InFlight s) (hs : Single s) (c : ConnId) (m : ServerMessage) :
    InFlight (send D s c m) ∧ Evolves op s (send D s c m) := by
  unfold send
  rcases sendWith_cases (disconnect D) s c m with ⟨-, h⟩ | ⟨-, h | h⟩ <;> rw [h]
  · exact ⟨hf, .of_same (fun _ => rfl) rfl (fun _ => rfl) rfl⟩
  · have hd : Evolves op s (disconnect D s c) := evolves_disconnect s c hf hs
    exact ⟨inFlight_setConn
      (x := { (disconnect D s c).conns c with socket := ((disconnect D s c).conns c).socket.shut })
      (inFlight_disconnect s c hf) rfl rfl, hd.trans hf hs (evolves_terminate _ c)⟩
  · exact ⟨inFlight_disconnect s c hf, evolves_disconnect s c hf hs⟩

/-- A step that routes nothing. -/
theorem evolves_step {s : Registry} {e : Event} (hf : InFlight s) (hs : Single s)
    (he : ∀ q ∈ e.op.route, (q.target { s with nowMs := e.now }).isOk = false) :
    InFlight (step D s e) ∧ Evolves e.op s (step D s e) := by
  cases hq : e.op.route with
  | none => exact evolves_moves hq hf hs (step_moves s e)
  | some q =>
    have hrej : (q.call D { s with nowMs := e.now }).1 = { s with nowMs := e.now } := by
      have := he q hq
      unfold Route.call routeCommand
      unfold Route.target at this
      split
      · rfl
      · rename_i h; rw [h] at this; cases this
    rw [step_route hq, hrej]
    exact ⟨hf, .of_same (fun _ => rfl) rfl (fun _ => rfl) rfl⟩

theorem creates_none {s : Registry} {e : Event}
    (he : ∀ q ∈ e.op.route, (q.target { s with nowMs := e.now }).isOk = false) :
    creates s e = none := by
  unfold creates
  split
  · rfl
  · rename_i q hq
    have := he q hq
    split
    · rfl
    · rename_i h; rw [h] at this; cases this

theorem owned_step {t : Traced} {e : Event} (h : Owned t.reg t.origin) (hr : ¬ Reuse t.reg e) :
    Owned (stepT D t e).reg (stepT D t e).origin ∧ OwnOutcome D t e := by
  by_cases hok : ∃ q ∈ e.op.route, (q.target { t.reg with nowMs := e.now }).isOk = true
  · obtain ⟨q, hq, hok⟩ := hok
    obtain ⟨⟨r, c⟩, ht⟩ : ∃ a, q.target { t.reg with nowMs := e.now } = .ok a := by
      cases ht : q.target { t.reg with nowMs := e.now } with
      | ok a => exact ⟨a, rfl⟩
      | error x => rw [ht] at hok; cases hok
    have hfresh : (OutcomeCache.pruneExpiredOutcomes t.reg.commandOutcomes e.now).has q.commandId = false := by
      by_contra hn
      exact hr ⟨q, hq, hok, Or.inl (Bool.not_eq_false _ ▸ hn)⟩
    have hnone : ∀ k key p, (t.reg.commands k).get key = some p → p.commandId ≠ q.commandId := by
      intro k key p hp hid
      refine hr ⟨q, hq, hok, Or.inr ⟨p, ?_, hid⟩⟩
      have hv := OMap.mem_values.mpr ⟨key, hp⟩
      cases k with
      | question => exact List.mem_append_left _ hv
      | permission => exact List.mem_append_right _ hv
    have hcreates : creates t.reg e =
      some (q.commandId, ⟨q.kind, c, q.requestId, q.user, r.registration.instanceId⟩) := by
      unfold creates
      rw [show e.op.route = some q from hq]
      dsimp only
      rw [ht]
      dsimp only
      rw [hfresh]; rfl
    generalize ho : (⟨q.kind, c, q.requestId, q.user, r.registration.instanceId⟩ : Origin) = o at hcreates
    have hnow : Owned { t.reg with nowMs := e.now } t.origin := ⟨h.flight, h.single, h.entry⟩
    have htrack := hnow.track (D := D) ht hfresh hnone
    rw [ho] at htrack
    generalize hs₂ : trackCommand D { t.reg with nowMs := e.now } q.kind r c q.user q.requestId q.commandId =
      s₂ at htrack
    obtain ⟨hf, hev⟩ : InFlight (send D s₂ c q.frame) ∧ Evolves e.op s₂ (send D s₂ c q.frame) :=
      evolves_send htrack.flight htrack.single c q.frame
    have hstep : step D t.reg e = settleCollections
      ((send D s₂ c q.frame).log (.replied q.user q.commandId (.accepted q.commandId))) := by
      rw [step_route (show e.op.route = some q from hq)]
      have hcall : q.call D { t.reg with nowMs := e.now } = (send D s₂ c q.frame, .accepted q.commandId) := by
        unfold Route.call routeCommand
        rw [show commandTarget _ _ _ _ _ _ _ = .ok (r, c) from ht, ← hs₂]
      rw [hcall]
    have hev' : Evolves e.op s₂ (step D t.reg e) := by
      rw [hstep]
      exact hev.trans htrack.flight htrack.single (.of_same (fun _ => rfl) rfl (fun _ => rfl) rfl)
    have hf' : InFlight (step D t.reg e) := by rw [hstep]; exact hf
    obtain ⟨hown, hkey⟩ := htrack.evolve hf' hev'
    have horigin : (stepT D t e).origin = fun id => if id = q.commandId then some o else t.origin id := by
      funext id
      simp only [stepT, hcreates]
    refine ⟨by rw [horigin]; exact hown, fun id x hx => ?_⟩
    obtain ⟨o', y, ho', hd, hy, hxy⟩ := hkey id x hx
    refine ⟨o', by rw [horigin]; exact ho', hd, ?_⟩
    by_cases hid : id = q.commandId
    · -- The new outcome: the call may have lost its connection at once.
      left
      subst hid
      obtain rfl : o = o' := Option.some.inj ((if_pos rfl).symm.trans ho')
      refine ⟨hcreates, ?_⟩
      rcases hxy with rfl | ⟨-, key, status, now, rfl, -, -, hend⟩
      · rw [← hs₂] at hy
        rcases OutcomeCache.get_record hy with ⟨-, -, rfl⟩ | hold
        · exact Or.inl rfl
        · rw [OMap.has, hold] at hfresh; cases hfresh
      · right
        rcases hend with hend | ⟨-, hout, rfl⟩
        · have hroute := show e.op.route = some q from hq
          rcases hend with ⟨i, hop⟩ | ⟨hop, -⟩
          · rw [hop] at hroute; cases hroute
          · rw [hop] at hroute
            cases hk : o.kind <;> rw [hk] at hroute <;> cases hroute
        · exact ⟨rfl, hout⟩
    · -- The others only see commands that were in flight before.
      right
      have hpend : ∀ k key p, (s₂.commands k).get key = some p → p.commandId = id →
        (t.reg.commands k).get key = some p := by
        intro k key p hp hpid
        rw [← hs₂, commands_track] at hp
        split at hp
        · rename_i hk
          rw [OMap.get_set] at hp
          split at hp
          · cases hp; exact absurd hpid.symm hid
          · rw [hk]; exact hp
        · exact hp
      have hy' : t.reg.commandOutcomes.get id = some y := by
        rw [← hs₂] at hy
        rcases OutcomeCache.get_record hy with ⟨he, -⟩ | hold
        · exact absurd he hid
        · exact OutcomeCache.get_prune hold
      refine ⟨fun o'' hc => hid (Prod.mk.inj (Option.some.inj (hcreates.symm.trans hc))).1.symm,
        y, hy', hxy.imp_right ?_⟩
      rintro ⟨hacc, key, status, now, rfl, hp, hgone, hend⟩
      refine ⟨hacc, key, status, now, rfl, hpend _ key _ hp rfl, hgone, hend.imp_right fun hc => ?_⟩
      rw [← hs₂] at hc
      exact hc
  · have hno : ∀ q ∈ e.op.route, (q.target { t.reg with nowMs := e.now }).isOk = false :=
      fun q hq => Bool.eq_false_iff.mpr fun hn => hok ⟨q, hq, hn⟩
    obtain ⟨hf, hev⟩ := evolves_step (D := D) h.flight h.single hno
    obtain ⟨hown, hkey⟩ := h.evolve hf hev
    have hc := creates_none hno
    have horigin : (stepT D t e).origin = t.origin := by funext id; simp only [stepT, hc]
    refine ⟨by rw [horigin]; exact hown, fun id x hx => ?_⟩
    obtain ⟨o, y, ho, hd, hy, hxy⟩ := hkey id x hx
    exact ⟨o, by rw [horigin]; exact ho, hd, Or.inr ⟨(fun o' h' => by cases hc.symm.trans h'), y, hy, hxy⟩⟩

theorem owned_init : Owned Traced.init.reg Traced.init.origin := by
  refine ⟨inFlight_init, ?_, ?_⟩
  · intro k k' key key' p p' hp; cases k <;> cases hp
  · intro id x hx; cases hx

/-- The run of the ghost state follows the registry's. -/
theorem stepT_reg (es : List Event) : ∀ t : Traced, (runFrom (stepT D) t es).reg = runFrom (step D) t.reg es := by
  induction es with
  | nil => exact fun _ => rfl
  | cons e es ih => exact fun t => ih (stepT D t e)

theorem outcomes_belong (es : List Event) (h : Along (step D) (fun s e => ¬ Reuse s e) .init es) :
    Along (stepT D) (OwnOutcome D) Traced.init es := by
  have hrun : ∀ (es : List Event) (t : Traced), Owned t.reg t.origin →
    Along (step D) (fun s e => ¬ Reuse s e) t.reg es →
      Along (stepT D) (OwnOutcome D) t es := by
    intro es
    induction es with
    | nil => exact fun _ _ _ => trivial
    | cons e es ih =>
      intro t ht hal
      obtain ⟨hown, hout⟩ := owned_step ht hal.1
      exact ⟨hout, ih (stepT D t e) hown hal.2⟩
  exact hrun es Traced.init owned_init h

/-! ## Replays -/

/-- A question of a session, as a plugin reports it. -/
def sampleQuestion (requestId sessionId : JsString) : PendingInteraction :=
  { instanceId := instance1, machine := js "desk", project := js "hub", directory := js "/hub", sessionId,
    sessionTitle := js "Session", requestId, occurredAt := js "2026-01-01T00:00:00.000Z", tool := none,
    body := .question [⟨js "Deploy", js "Deploy now?", [⟨js "Yes", js "Deploy"⟩], false, true⟩] }

def draw (n : Nat) : JsString := js "d0000000-0000-4000-8000-" ++ decimal (100000000000 + n)

def commandId1 : JsString := js "c0000001-0000-4000-8000-000000000000"

/-- A second directory of the same machine. -/
def otherRegistration (instanceId : JsString) : RegisterMessage :=
  { sampleRegistration instanceId with directory := js "/lab" }

/-- A plugin registers, reports a question, and its answer is confirmed. -/
def answered : List Event :=
  [⟨0, .add (plugin 0) openSocket⟩, ⟨1, .frame (plugin 0) (some (.register (sampleRegistration instance1)))⟩,
    ⟨2, .collectPendingInteractions alice fun n => draw n⟩,
    ⟨3, .frame (plugin 0)
      (some (.pendingSnapshotResponse (draw 0) instance1 [sampleQuestion (js "que_1") (js "ses_1")]))⟩,
    ⟨4, .answerQuestion alice instance1 (js "que_1") commandId1 (js "ses_1") [[js "Yes"]]⟩,
    ⟨5, .frame (plugin 0) (some (.questionAnswerResult commandId1 instance1 .confirmed))⟩]

/-- A second instance reports another question, and the client answers it with the same command id. -/
def replayed : List Event :=
  [⟨6, .add (plugin 1) openSocket⟩, ⟨7, .frame (plugin 1) (some (.register (otherRegistration instance2)))⟩,
    ⟨8, .collectPendingInteractions alice fun n => draw (n + 10)⟩,
    ⟨9, .frame (plugin 1)
      (some (.pendingSnapshotResponse (draw 11) instance2 [sampleQuestion (js "que_2") (js "ses_2")]))⟩,
    ⟨10, .answerQuestion alice instance2 (js "que_2") commandId1 (js "ses_2") [[js "Yes"]]⟩,
    ⟨11, .frame (plugin 1) (some (.questionAnswerResult commandId1 instance2 .stale))⟩]

/-- What the outcome of the command reads after a run. -/
def outcomeAfter (es : List Event) : Option CommandOutcome := (outcomeFor (run sampleDeps es) alice commandId1).2

theorem answered_belongs :
    Along (step sampleDeps) (fun s e => ¬ Reuse s e) .init answered ∧
      Along (stepT sampleDeps) (OwnOutcome sampleDeps) Traced.init answered :=
  have h : Along (step sampleDeps) (fun s e => ¬ Reuse s e) .init answered := by decide +kernel
  ⟨h, outcomes_belong answered h⟩

/-- An outcome that has left `accepted` stays as it is under `OwnOutcome`. -/
theorem OwnOutcome.kept {t : Traced} {e : Event} {id : JsString} {x y : CommandOutcomeEntry} (h : OwnOutcome D t e)
    (hy : t.reg.commandOutcomes.get id = some y) (hleft : y.status ≠ .accepted)
    (hx : (step D t.reg e).commandOutcomes.get id = some x) (hset : x.status ≠ .accepted)
    (hlost : x.status ≠ .settled .resultUnknown) : x = y := by
  obtain ⟨o, -, -, ⟨-, hacc | ⟨hlo, -⟩⟩ | ⟨-, y', hy', hkeep⟩⟩ := h id x hx
  · exact absurd hacc hset
  · exact absurd hlo hlost
  · obtain rfl : y = y' := Option.some.inj (hy.symm.trans hy')
    rcases hkeep with rfl | ⟨hacc, -⟩
    · rfl
    · exact absurd hacc hleft

/-- The confirmed outcome of the first command becomes the `stale` of the second, which
    went to another connection for another request. -/
theorem replay_rewrites_the_outcome :
    outcomeAfter (answered ++ replayed.dropLast) =
      some ⟨commandId1, js "que_1", instance1, .question, .settled .confirmed, 5⟩ ∧
      outcomeAfter (answered ++ replayed) = some ⟨commandId1, js "que_1", instance1, .question, .settled .stale, 11⟩ ∧
      ¬ Along (stepT sampleDeps) (OwnOutcome sampleDeps) Traced.init (answered ++ replayed) := by
  refine ⟨by decide +kernel, by decide +kernel, fun h => ?_⟩
  have hlast := (along_append.mp (show Along _ _ _ ((answered ++ replayed.dropLast) ++ [_]) from h)).2.1
  generalize ht : runFrom (stepT sampleDeps) Traced.init (answered ++ replayed.dropLast) = t at hlast
  have hreg : t.reg = run sampleDeps (answered ++ replayed.dropLast) := by rw [← ht, stepT_reg]; rfl
  obtain ⟨y, hy, hconfirmed⟩ : ∃ y, t.reg.commandOutcomes.get commandId1 = some y ∧ y.status = .settled .confirmed := by
    rw [hreg, ← Option.map_eq_some_iff]
    decide +kernel
  obtain ⟨x, hx, hstale⟩ : ∃ x, (step sampleDeps t.reg ⟨11, .frame (plugin 1) (some
      (.questionAnswerResult commandId1 instance2 .stale))⟩).commandOutcomes.get commandId1 = some x ∧
      x.status = .settled .stale := by
    rw [hreg, ← Option.map_eq_some_iff]
    decide +kernel
  have hsame := hlast.kept hy (by simp [hconfirmed]) hx (by simp [hstale]) (by simp [hstale])
  rw [hsame, hconfirmed] at hstale
  cases hstale

end NotifyHub.Control
