/-
  NotifyHub.Control.Commands — routing answers and decisions.

  Proved, in every reachable state:
  - a step writes an answer or decision frame only for a call whose own record is
    controllable and open and projects the request with that kind and session
    (`step_frames`), and then one;
  - a connection has at most one answer in flight per request and per command id, and
    at most one decision (`InFlight`), across results, timeouts and disconnects;
  - a rejected call changes nothing (`rejected_call`).
-/

import NotifyHub.Control.Moves

namespace NotifyHub.Control

open Relation

variable {D : Deps}

/-! ## What a call is checked for -/

/-- A call may reach the plugin behind `c`: the gate. -/
structure Gate (s : Registry) (q : Route) (r : InstanceRecord) (c : ConnId) : Prop where
  own : s.records.get (recordKey q.user q.instanceId) = some r
  user : r.userId = q.user
  controllable : r.state = .controllable
  connection : r.connection = some c
  isOpen : (s.conns c).socket.open = true
  projected : r.projectedRequests.get q.requestId = some ⟨q.kind, q.sessionID⟩

theorem target_ok {s : Registry} {q : Route} {r : InstanceRecord} {c : ConnId} (h : q.target s = .ok (r, c)) :
    Gate s q r c ∧ ∀ key p, (s.commands q.kind).get key = some p → p.connection = c →
      p.requestId ≠ q.requestId ∧ p.commandId ≠ q.commandId := by
  unfold Route.target commandTarget at h
  split at h
  · cases h
  · rename_i x hx
    split at h
    · cases h
    · rename_i d hd
      split at h
      · cases h
      · rename_i p hp
        split at h
        · cases h
        · rename_i hk
          split at h
          · cases h
          · rename_i hany
            obtain ⟨rfl, rfl⟩ := Prod.mk.inj (Except.ok.inj h)
            rw [not_or, not_not, not_not] at hk
            obtain ⟨hg, hu⟩ := Option.filter_eq_some_iff.mp hx
            obtain ⟨hc, hs, ho⟩ := reachable_eq_some.mp hd
            refine ⟨⟨hg, of_decide_eq_true hu, hs, hc, ho, hp.trans (by rw [← hk.1, ← hk.2])⟩, fun key p' hp' hpc => ?_⟩
            by_contra hn
            refine hany (List.any_eq_true.mpr ⟨p', OMap.mem_values.mpr ⟨key, hp'⟩, decide_eq_true ⟨hpc, ?_⟩⟩)
            rwa [not_and_or, not_not, not_not] at hn

/-! ## Frames -/

def Effect.command? : Effect → Option (ConnId × ServerMessage)
  | .sent c m => if m.isCommand then some (c, m) else none
  | _ => none

/-- The answer and decision frames of a trace. -/
def commandFrames (t : List Effect) : List (ConnId × ServerMessage) := t.filterMap Effect.command?

theorem commandFrames_log {s : Registry} {e : Effect} (he : e.command? = none) :
    commandFrames (s.log e).trace = commandFrames s.trace := by
  simp [commandFrames, Registry.log, he]

theorem command_none_of_not_sent {e : Effect} (he : ∀ c m, e ≠ .sent c m) : e.command? = none := by
  cases e with
  | sent c m => exact absurd rfl (he c m)
  | _ => rfl

theorem commandFrames_quiet {s : Registry} {l : List Effect} (hl : ∀ e ∈ l, ∀ c m, e ≠ .sent c m) :
    commandFrames (s.trace ++ l) = commandFrames s.trace := by
  unfold commandFrames
  rw [List.filterMap_append, List.filterMap_eq_nil_iff.mpr fun e he => command_none_of_not_sent (hl e he),
    List.append_nil]

theorem commandFrames_settle (s : Registry) : commandFrames (settleCollections s).trace = commandFrames s.trace := by
  refine commandFrames_quiet fun e he => ?_
  obtain ⟨q, -, rfl⟩ := List.mem_map.mp he
  exact fun _ _ => nofun

theorem commandFrames_disconnect (s : Registry) (c : ConnId) :
    commandFrames (disconnect D s c).trace = commandFrames s.trace := by
  refine disconnect_inv (P := fun t => commandFrames t.trace = commandFrames s.trace) ?_ ?_ ?_ ?_ ?_ ?_ s c rfl
  · intro t d _ h
    rw [← h]
    have hq : ∀ l l' : List Effect, (∀ e ∈ l ++ l', ∀ c m, e ≠ .sent c m) →
        commandFrames ((t.trace ++ l) ++ l') = commandFrames t.trace := by
      intro l l' hl
      rw [List.append_assoc]; exact commandFrames_quiet hl
    refine hq _ _ fun e he => ?_
    rcases List.mem_append.mp he with he | he <;> obtain ⟨x, -, rfl⟩ := List.mem_map.mp he <;> exact fun _ _ => nofun
  · exact fun _ _ _ _ _ h => h
  · exact fun _ _ h => h
  · exact fun _ _ _ _ _ _ h => h
  · exact fun _ _ h => h
  · intro t e he h
    rw [commandFrames_log, h]
    cases e with
    | sent d m => simp [Effect.command?, he d m rfl]
    | _ => rfl

theorem commandFrames_move {op : Op} (hop : op.route = none) {l : List (ConnId × ServerMessage)} {s t : Registry}
    (m : Move D op s t) (h : commandFrames s.trace = l) : commandFrames t.trace = l := by
  cases m with
  | settle => rw [commandFrames_settle]; exact h
  | log e he => rw [commandFrames_log (command_none_of_not_sent he)]; exact h
  | sent c m hs hm =>
    have hc : m.isCommand = false := by
      by_contra hc
      obtain ⟨q, hq, -⟩ := hm (Bool.not_eq_false _ ▸ hc)
      rw [hop] at hq; cases hq
    rw [commandFrames_log (by simp [Effect.command?, hc])]; exact h
  | add c socket ha => simp only [add, ha, Bool.false_eq_true, if_false]; exact h
  | disconnect c => rw [commandFrames_disconnect]; exact h
  | _ => exact h

variable (D) in
/-- The call itself: `answerQuestion` or `decidePermission` with these arguments. -/
def Route.call (q : Route) (s : Registry) : Registry × CommandReply :=
  routeCommand D q.kind s q.user q.instanceId q.requestId q.commandId q.sessionID q.frame

theorem step_route {e : Event} {q : Route} (hq : e.op.route = some q) (s : Registry) :
    step D s e = settleCollections ((q.call D { s with nowMs := e.now }).1.log
      (.replied q.user q.commandId (q.call D { s with nowMs := e.now }).2)) := by
  obtain ⟨now, op⟩ := e
  cases op with
  | answerQuestion => cases hq; rfl
  | decidePermission => cases hq; rfl
  | _ => cases hq

theorem route_isCommand {op : Op} {q : Route} (hq : op.route = some q) : q.frame.isCommand = true := by
  cases op with
  | answerQuestion => cases hq; rfl
  | decidePermission => cases hq; rfl
  | _ => cases hq

/-- The answer and decision frames of a step. -/
theorem step_frames (s : Registry) (e : Event) :
    commandFrames (step D s e).trace = commandFrames s.trace ∨
    ∃ q r c, e.op.route = some q ∧ Gate s q r c ∧
      commandFrames (step D s e).trace = commandFrames s.trace ++ [(c, q.frame)] := by
  cases hq : e.op.route with
  | none =>
    exact Or.inl ((step_moves s e).inv (P := fun t => commandFrames t.trace = commandFrames s.trace)
      (fun _ _ => commandFrames_move hq) rfl)
  | some q =>
    rw [step_route hq, commandFrames_settle, commandFrames_log rfl]
    unfold Route.call routeCommand
    split
    · exact Or.inl rfl
    · rename_i r c ht
      have hgate := (target_ok (q := q) ht).1
      have htrack : (trackCommand D { s with nowMs := e.now } q.kind r c q.user q.requestId q.commandId).trace =
        s.trace := rfl
      dsimp only [send]
      rcases sendWith_cases (disconnect D)
        (trackCommand D { s with nowMs := e.now } q.kind r c q.user q.requestId q.commandId)
        c q.frame with ⟨-, h⟩ | ⟨-, h | h⟩ <;> rw [h]
      · refine Or.inr ⟨q, r, c, rfl, ⟨hgate.own, hgate.user, hgate.controllable, hgate.connection, hgate.isOpen,
          hgate.projected⟩, ?_⟩
        simp [commandFrames, Registry.log, htrack, Effect.command?, route_isCommand hq]
      · left
        rw [Registry.terminate, commandFrames_log rfl]
        exact (commandFrames_disconnect _ c).trans rfl
      · exact Or.inl ((commandFrames_disconnect _ c).trans rfl)

/-! ## In flight -/

/-- The routed commands of a kind: each under its key, one per request and per command id
    of a connection. -/
structure Tracked (conns : ConnId → ControlConnection) (m : OMap JsString PendingCommand) : Prop where
  keyed : ∀ key p, m.get key = some p →
    key = joinNul (decimal (conns p.connection).uid) p.commandId ∧ (conns p.connection).added = true
  one : ∀ key key' p p', m.get key = some p → m.get key' = some p' → p.connection = p'.connection →
    p.requestId = p'.requestId ∨ p.commandId = p'.commandId → key = key'

/-- Connections have their own uids, and records rest on connections that were added. -/
structure Numbered (conns : ConnId → ControlConnection) (records : OMap JsString InstanceRecord)
    (nextConnectionUid : Nat) : Prop where
  below : ∀ c, (conns c).added = true → (conns c).uid < nextConnectionUid
  inj : ∀ c d, (conns c).added = true → (conns d).added = true → (conns c).uid = (conns d).uid → c = d
  added : ∀ k r c, records.get k = some r → r.connection = some c → (conns c).added = true

def InFlight (s : Registry) : Prop :=
  Numbered s.conns s.records s.nextConnectionUid ∧ Tracked s.conns s.pendingAnswerCommands ∧
    Tracked s.conns s.pendingDecideCommands

theorem InFlight.tracked {s : Registry} (h : InFlight s) (k : CommandKind) : Tracked s.conns (s.commands k) := by
  cases k with
  | question => exact h.2.1
  | permission => exact h.2.2

namespace Tracked

variable {conns conns' : ConnId → ControlConnection} {m : OMap JsString PendingCommand}

theorem filter (h : Tracked conns m) (p : JsString → PendingCommand → Bool) : Tracked conns (m.filter p) := by
  have hsub : ∀ key x, (m.filter p).get key = some x → m.get key = some x := fun key x hx => by
    rw [OMap.get_filter] at hx; exact (Option.filter_eq_some_iff.mp hx).1
  exact ⟨fun key x hx => h.keyed key x (hsub key x hx),
    fun key key' x x' hx hx' => h.one key key' x x' (hsub key x hx) (hsub key' x' hx')⟩

theorem delete (h : Tracked conns m) (key : JsString) : Tracked conns (m.delete key) := h.filter _

theorem off (h : Tracked conns m) (c : ConnId) : Tracked conns (offConnection (·.connection) c m) := h.filter _

/-- What `add` and the other writes to connections leave of those that were added. -/
theorem mono (h : Tracked conns m) (hc : ∀ c, (conns c).added = true →
    (conns' c).added = true ∧ (conns' c).uid = (conns c).uid) : Tracked conns' m := by
  refine ⟨fun key p hp => ?_, h.one⟩
  obtain ⟨hk, ha⟩ := h.keyed key p hp
  obtain ⟨ha', hu⟩ := hc _ ha
  exact ⟨hu ▸ hk, ha'⟩

/-- A new command, on a connection with none for its request or its id. -/
theorem set (h : Tracked conns m) {p : PendingCommand} (ha : (conns p.connection).added = true)
    (hinj : ∀ c, (conns c).added = true → (conns c).uid = (conns p.connection).uid → c = p.connection)
    (hnew : ∀ key x, m.get key = some x → x.connection = p.connection →
      x.requestId ≠ p.requestId ∧ x.commandId ≠ p.commandId) :
    Tracked conns (m.set (joinNul (decimal (conns p.connection).uid) p.commandId) p) := by
  have hget : ∀ key x, (m.set (joinNul (decimal (conns p.connection).uid) p.commandId) p).get key = some x →
      (x = p ∧ key = joinNul (decimal (conns p.connection).uid) p.commandId) ∨ m.get key = some x := by
    intro key x hx
    rw [OMap.get_set] at hx
    split at hx
    · rename_i hk; cases hx; exact Or.inl ⟨rfl, hk⟩
    · exact Or.inr hx
  refine ⟨fun key x hx => ?_, fun key key' x x' hx hx' hc hid => ?_⟩
  · rcases hget key x hx with ⟨rfl, hk⟩ | hx
    · exact ⟨hk, ha⟩
    · exact h.keyed key x hx
  · rcases hget key x hx with ⟨rfl, hk⟩ | hold <;> rcases hget key' x' hx' with ⟨he, hk'⟩ | hold'
    · rw [hk, hk']
    · have hn := hnew key' x' hold' hc.symm
      rcases hid with hid | hid
      · exact absurd hid.symm hn.1
      · exact absurd hid.symm hn.2
    · subst he
      have hn := hnew key x hold hc
      rcases hid with hid | hid
      · exact absurd hid hn.1
      · exact absurd hid hn.2
    · exact h.one key key' x x' hold hold' hc hid

end Tracked

theorem Numbered.mono {conns conns' : ConnId → ControlConnection} {records records' : OMap JsString InstanceRecord}
    {n : Nat} (h : Numbered conns records n)
    (hc : ∀ c, (conns' c).added = (conns c).added ∧ (conns' c).uid = (conns c).uid)
    (hr : ∀ k r c, records'.get k = some r → r.connection = some c → (conns c).added = true) :
    Numbered conns' records' n := by
  refine ⟨fun c ha => ?_, fun c d ha hd hu => ?_, fun k r c hk hkc => ?_⟩
  · rw [(hc c).2]; exact h.below c ((hc c).1 ▸ ha)
  · rw [(hc c).2, (hc d).2] at hu
    exact h.inj c d ((hc c).1 ▸ ha) ((hc d).1 ▸ hd) hu
  · rw [(hc c).1]; exact hr k r c hk hkc

/-- A record may be written when its connection was added. -/
theorem Numbered.put {conns : ConnId → ControlConnection} {records : OMap JsString InstanceRecord} {n : Nat}
    (h : Numbered conns records n) (k : JsString) {r : InstanceRecord}
    (hr : ∀ c, r.connection = some c → (conns c).added = true) : Numbered conns (records.set k r) n := by
  refine h.mono (fun _ => ⟨rfl, rfl⟩) fun k' x c hx hc => ?_
  rw [OMap.get_set] at hx
  split at hx
  · cases hx; exact hr c hc
  · exact h.added k' x c hx hc

theorem setConn_same {s : Registry} {c : ConnId} {x : ControlConnection} (ha : x.added = (s.conns c).added)
    (hu : x.uid = (s.conns c).uid) (d : ConnId) :
    ((s.setConn c x).conns d).added = (s.conns d).added ∧ ((s.setConn c x).conns d).uid = (s.conns d).uid := by
  by_cases hd : d = c
  · subst hd; simp [Registry.setConn, ha, hu]
  · simp [Registry.setConn, hd]

theorem inFlight_setConn {s : Registry} (h : InFlight s) {c : ConnId} {x : ControlConnection}
    (ha : x.added = (s.conns c).added) (hu : x.uid = (s.conns c).uid) : InFlight (s.setConn c x) := by
  have hsame := setConn_same ha hu
  have hkeep : ∀ d, (s.conns d).added = true → ((s.setConn c x).conns d).added = true ∧
      ((s.setConn c x).conns d).uid = (s.conns d).uid := fun d hd => ⟨(hsame d).1.trans hd, (hsame d).2⟩
  exact ⟨h.1.mono hsame h.1.added, h.2.1.mono hkeep, h.2.2.mono hkeep⟩

theorem inFlight_putRecord {s : Registry} (h : InFlight s) {r : InstanceRecord}
    (hr : ∀ c, r.connection = some c → (s.conns c).added = true) : InFlight (putRecord s r) :=
  ⟨h.1.put _ hr, h.2⟩

theorem inFlight_dropRecords {s : Registry} (h : InFlight s) (p : JsString → InstanceRecord → Bool) :
    InFlight { s with records := s.records.filter p } := by
  refine ⟨h.1.mono (fun _ => ⟨rfl, rfl⟩) fun k r c hr hc => h.1.added k r c ?_ hc, h.2⟩
  rw [OMap.get_filter] at hr
  exact (Option.filter_eq_some_iff.mp hr).1

theorem inFlight_disconnect (s : Registry) (c : ConnId) (h : InFlight s) : InFlight (disconnect D s c) := by
  refine disconnect_inv (P := InFlight) ?_ ?_ ?_ ?_ ?_ ?_ s c h
  · exact fun t d _ ht => ⟨ht.1, ht.2.1.off d, ht.2.2.off d⟩
  · exact fun t d r _ _ ht => inFlight_putRecord ht nofun
  · exact fun t key ht => ht
  · intro t key u r rs hrs ht
    obtain ⟨⟨k, hk⟩, -⟩ := mem_rivals.mp (hrs ▸ List.mem_cons_self : r ∈ rivals D t key u)
    exact inFlight_putRecord (r := { r with state := .controllable, lastSeenAt := t.nowMs }) ht (ht.1.added k r · hk)
  · exact fun t d ht => inFlight_setConn ht rfl rfl
  · exact fun t e _ ht => ht

theorem inFlight_add {s : Registry} (h : InFlight s) {c : ConnId} {socket : Socket} (ha : (s.conns c).added = false) :
    InFlight (add s c socket) := by
  have hold : ∀ d, (s.conns d).added = true → d ≠ c := fun d hd he => by rw [he, ha] at hd; cases hd
  have hconns : ∀ d, d ≠ c → (add s c socket).conns d = s.conns d := fun d hd => by
    simp [add, ha, Registry.setConn, hd]
  have hself : ((add s c socket).conns c).uid = s.nextConnectionUid := by simp [add, ha, Registry.setConn]
  have hnext : (add s c socket).nextConnectionUid = s.nextConnectionUid + 1 := by simp [add, ha]
  have hrest : (add s c socket).records = s.records ∧ (add s c socket).pendingAnswerCommands = s.pendingAnswerCommands ∧
      (add s c socket).pendingDecideCommands = s.pendingDecideCommands := by simp [add, ha, Registry.setConn]
  have hkeep : ∀ d, (s.conns d).added = true → ((add s c socket).conns d).added = true ∧
      ((add s c socket).conns d).uid = (s.conns d).uid := fun d hd => by rw [hconns d (hold d hd)]; exact ⟨hd, rfl⟩
  refine ⟨⟨fun d hd => ?_, fun d e hd he hu => ?_, fun k r d hr hd => ?_⟩, ?_, ?_⟩
  · rw [hnext]
    by_cases hdc : d = c
    · rw [hdc, hself]; omega
    · rw [hconns d hdc] at hd ⊢
      have := h.1.below d hd
      omega
  · by_cases hdc : d = c <;> by_cases hec : e = c
    · rw [hdc, hec]
    · rw [hdc, hself, hconns e hec] at hu
      rw [hconns e hec] at he
      have := h.1.below e he
      omega
    · rw [hec, hself, hconns d hdc] at hu
      rw [hconns d hdc] at hd
      have := h.1.below d hd
      omega
    · rw [hconns d hdc] at hd hu
      rw [hconns e hec] at he hu
      exact h.1.inj d e hd he hu
  · rw [hrest.1] at hr
    exact (hkeep d (h.1.added k r d hr hd)).1
  · rw [hrest.2.1]; exact h.2.1.mono hkeep
  · rw [hrest.2.2]; exact h.2.2.mono hkeep

theorem inFlight_track {s : Registry} (h : InFlight s) {q : Route} {r : InstanceRecord} {c : ConnId}
    (ht : q.target s = .ok (r, c)) : InFlight (trackCommand D s q.kind r c q.user q.requestId q.commandId) := by
  obtain ⟨hgate, hnew⟩ := target_ok ht
  have ha := h.1.added _ r c hgate.own hgate.connection
  have hset := (h.tracked q.kind).set (p := ⟨c, q.requestId, q.commandId⟩) ha
    (fun d hd hu => h.1.inj d c hd ha hu) hnew
  refine ⟨h.1, ?_⟩
  cases hk : q.kind with
  | question => rw [hk] at hset; exact ⟨hset, h.2.2⟩
  | permission => rw [hk] at hset; exact ⟨h.2.1, hset⟩

theorem inFlight_untrack {s : Registry} (h : InFlight s) (k : CommandKind) (c : ConnId) (commandId : JsString) :
    InFlight (untrackCommand s k c commandId) := by
  cases k with
  | question => exact ⟨h.1, h.2.1.delete _, h.2.2⟩
  | permission => exact ⟨h.1, h.2.1, h.2.2.delete _⟩

theorem inFlight_enroll {s : Registry} (h : InFlight s) {c : ConnId} {registration : RegisterMessage}
    {existing : Option InstanceRecord} (ha : (s.conns c).added = true) :
    InFlight (enroll D s c registration existing) := by
  have hconn := inFlight_setConn h (c := c) (x := { s.conns c with instanceId := some registration.instanceId }) rfl rfl
  have hdrop := inFlight_dropRecords hconn fun _ r =>
    !(r.userId = c.user ∧ r.registration.instanceId ≠ registration.instanceId ∧ r.state = .offline ∧
      ownershipKey D c.user r.registration = ownershipKey D c.user registration)
  refine ⟨hdrop.1.put _ fun d hd => ?_, hdrop.2⟩
  cases hd
  simpa [Registry.setConn] using ha

theorem inFlight_move {op : Op} {s t : Registry} (m : Move D op s t) (h : InFlight s) : InFlight t := by
  cases m with
  | conn c x ha hu hi => exact inFlight_setConn h ha hu
  | track q r c hq ht => exact inFlight_track h ht
  | finish k c commandId p status hp ho ha => exact inFlight_untrack h k c commandId
  | record c r r' hr hs =>
    obtain ⟨id, -, hg, -⟩ := recordOn_eq_some.mp hr
    have hc : r'.connection = r.connection := congrArg Seat.connection hs
    exact inFlight_putRecord h fun d hd => h.1.added _ r d hg (hc ▸ hd)
  | forget key r hr ho hc => exact inFlight_dropRecords h _
  | add c socket ha => exact inFlight_add h ha
  | enroll c registration existing ho ha => exact inFlight_enroll h ha
  | disconnect c => exact inFlight_disconnect s c h
  | _ => exact h

theorem inFlight_init : InFlight .init := by
  refine ⟨⟨?_, ?_, ?_⟩, ⟨?_, ?_⟩, ⟨?_, ?_⟩⟩ <;> intros <;> simp_all [Registry.init, noConnection]

theorem inFlight_run (es : List Event) : InFlight (run D es) :=
  run_inv inFlight_init (fun _ _ _ => inFlight_move) es

/-! ## Rejected calls -/

/-- No collection is left that could have returned. -/
def Waiting (s : Registry) : Prop := ∀ q ∈ s.collections, q.settled = false

theorem waiting_run (es : List Event) : Waiting (run D es) := by
  refine runFrom_inv (I := Waiting) (fun s e _ q hq => ?_) (fun q hq => absurd hq (List.not_mem_nil)) es
  simpa using (List.mem_filter.mp hq).2

theorem settleCollections_waiting {s : Registry} (h : Waiting s) : settleCollections s = s := by
  have hkeep : s.collections.filter (fun q => !q.settled) = s.collections :=
    List.filter_eq_self.mpr fun q hq => by simp [h q hq]
  have hnone : s.collections.reverse.filter (·.settled) = [] :=
    List.filter_eq_nil_iff.mpr fun q hq => by simp [h q (List.mem_reverse.mp hq)]
  rw [settleCollections, hkeep, hnone, List.map_nil, List.append_nil]

theorem rejected_call (q : Route) (s : Registry) (h : (q.call D s).2 ≠ .accepted q.commandId) : (q.call D s).1 = s := by
  unfold Route.call routeCommand at h ⊢
  split
  · rfl
  · rename_i r c ht
    rw [ht] at h
    exact absurd rfl h

/-- A rejected call leaves nothing but its reply. -/
theorem rejected_step {s : Registry} (hw : Waiting s) {e : Event} {q : Route} (hq : e.op.route = some q)
    (h : (q.call D { s with nowMs := e.now }).2 ≠ .accepted q.commandId) :
    step D s e = ({ s with nowMs := e.now } : Registry).log
      (.replied q.user q.commandId (q.call D { s with nowMs := e.now }).2) := by
  rw [step_route hq, rejected_call q _ h]
  exact settleCollections_waiting hw

theorem commands_are_gated (es : List Event) :
    (∀ e, commandFrames (step D (run D es) e).trace = commandFrames (run D es).trace ∨
      ∃ q r c, e.op.route = some q ∧ Gate (run D es) q r c ∧
        commandFrames (step D (run D es) e).trace = commandFrames (run D es).trace ++ [(c, q.frame)]) ∧
    (∀ k key key' p p', ((run D es).commands k).get key = some p → ((run D es).commands k).get key' = some p' →
      p.connection = p'.connection → p.requestId = p'.requestId ∨ p.commandId = p'.commandId → key = key') ∧
    ∀ e q, e.op.route = some q → (q.call D { run D es with nowMs := e.now }).2 ≠ .accepted q.commandId →
      (q.call D { run D es with nowMs := e.now }).1 = { run D es with nowMs := e.now } ∧
      step D (run D es) e = ({ run D es with nowMs := e.now } : Registry).log
        (.replied q.user q.commandId (q.call D { run D es with nowMs := e.now }).2) :=
  ⟨step_frames _, fun k => ((inFlight_run es).tracked k).one,
    fun _ q hq h => ⟨rejected_call q _ h, rejected_step (waiting_run es) hq h⟩⟩

end NotifyHub.Control
