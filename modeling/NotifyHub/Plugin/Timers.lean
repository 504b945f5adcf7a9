/-
  NotifyHub.Plugin.Timers — whose timers a `SessionMachine` holds, and whom a step is about.

  - `Armed`: an armed timer belongs to a session's current state, which holds its handle.
    So a session without a state has no timers.
  - `About`: a step of one session leaves the others' states in place, and what it logs is
    that session's.
-/

import NotifyHub.Plugin.Rounds

namespace NotifyHub.Plugin

variable {O : MachineOptions}

/-- The handle of this kind of timer. -/
def SessionState.timer (s : SessionState) : TimerKind → Option Nat
  | .debounce => s.idleTimer
  | .heartbeat => s.heartbeatTimer

structure Armed (m : Machine) : Prop where
  made : ∀ sid o, m.sessions.get sid = some o → o < m.nextObject
  kept : ∀ k t, m.timers.get k = some t →
    m.sessions.get t.sessionID = some t.object ∧ (m.objects t.object).timer t.kind = some k

open Machine

theorem Armed.init : Armed .init where
  made _ _ h := by cases h
  kept _ _ h := by cases h

theorem Armed.log {m : Machine} (h : Armed m) (e : Entry) : Armed (m.log e) := ⟨h.made, h.kept⟩

theorem Armed.emit {m : Machine} (h : Armed m) (e : Effect) : Armed (m.emit e) := h.log _

theorem Armed.modify {m : Machine} (h : Armed m) (o : Nat) {f : SessionState → SessionState}
    (hf : ∀ s k, (f s).timer k = s.timer k) : Armed (m.modify o f) := by
  refine ⟨h.made, fun k t hk => ?_⟩
  obtain ⟨hs, ht⟩ := h.kept k t hk
  refine ⟨hs, ?_⟩
  by_cases ho : t.object = o
  · rw [ho, modify_objects_self, hf, ← ho]; exact ht
  · rw [modify_objects_ne m f ho]; exact ht

/-- A timer that is cleared, or fires, and its handle with it. -/
theorem Armed.clear {m : Machine} (h : Armed m) (kind : TimerKind) {o k : Nat} (hk : (m.objects o).timer kind = some k)
    {f : SessionState → SessionState} (hf : ∀ s k', k' ≠ kind → (f s).timer k' = s.timer k') :
    Armed ((m.clearTimeout k).modify o f) := by
  refine ⟨h.made, fun k' t hk' => ?_⟩
  rw [modify_timers, clearTimeout, OMap.get_delete] at hk'
  split at hk'
  · cases hk'
  · rename_i hne
    obtain ⟨hs, ht⟩ := h.kept k' t hk'
    refine ⟨hs, ?_⟩
    by_cases ho : t.object = o
    · have hkind : t.kind ≠ kind := by
        intro he
        rw [ho, he, hk] at ht
        exact hne (Option.some.inj ht).symm
      rw [ho, modify_objects_self, hf _ _ hkind, ← ho]; exact ht
    · rw [modify_objects_ne _ f ho]; exact ht

theorem Armed.set {m : Machine} (h : Armed m) {sid : JsString} {o : Nat} (hs : m.sessions.get sid = some o)
    (kind : TimerKind) (hnone : (m.objects o).timer kind = none) (delayMs : Nat) {f : SessionState → SessionState}
    (hself : ∀ s, (f s).timer kind = some m.nextHandle) (hf : ∀ s k, k ≠ kind → (f s).timer k = s.timer k) :
    Armed ((m.setTimeout sid o kind delayMs).modify o f) := by
  refine ⟨h.made, fun k t hk => ?_⟩
  rw [modify_timers, setTimeout, OMap.get_set] at hk
  split at hk
  · rename_i hkey
    cases hk
    refine ⟨hs, ?_⟩
    rw [modify_objects_self, hself, hkey]
  · obtain ⟨hs', ht⟩ := h.kept k t hk
    refine ⟨hs', ?_⟩
    by_cases ho : t.object = o
    · have hkind : t.kind ≠ kind := by
        intro he
        rw [ho, he, hnone] at ht; cases ht
      rw [ho, modify_objects_self, hf _ _ hkind, ← ho]; exact ht
    · rw [modify_objects_ne _ f ho]; exact ht

theorem Armed.stateFor {m : Machine} (h : Armed m) (sid : JsString) : Armed (m.stateFor sid).1 := by
  rcases m.stateFor_eq sid with ⟨o, hs, heq⟩ | ⟨hnone, heq⟩
  · rw [heq]; exact h
  rw [heq]
  have hget : ∀ s, (m.created sid).sessions.get s = if s = sid then some m.nextObject else m.sessions.get s :=
    fun s => OMap.get_set m.sessions sid s m.nextObject
  constructor
  · intro s p hp
    rw [hget] at hp
    show p < m.nextObject + 1
    split at hp
    · cases hp; omega
    · have := h.made s p hp; omega
  · intro k t hk
    obtain ⟨hs, ht⟩ := h.kept k t hk
    have hsid : t.sessionID ≠ sid := fun he => by rw [he, hnone] at hs; cases hs
    rw [hget, if_neg hsid, created_ne m sid (Nat.ne_of_lt (h.made _ _ hs))]
    exact ⟨hs, ht⟩

theorem Armed.clearIdleTimer {m : Machine} (h : Armed m) (o : Nat) : Armed (m.clearIdleTimer o) := by
  unfold Machine.clearIdleTimer
  split
  · rename_i k hk
    refine h.clear .debounce hk ?_
    intro s k' hne
    cases k' with
    | debounce => exact absurd rfl hne
    | heartbeat => rfl
  · exact h

theorem Armed.clearHeartbeat {m : Machine} (h : Armed m) (o : Nat) : Armed (m.clearHeartbeat o) := by
  unfold Machine.clearHeartbeat
  split
  · rename_i k hk
    refine h.clear .heartbeat hk ?_
    intro s k' hne
    cases k' with
    | debounce => rfl
    | heartbeat => exact absurd rfl hne
  · exact h

theorem Armed.armHeartbeat {m : Machine} (h : Armed m) {sid : JsString} {o : Nat} (hs : m.sessions.get sid = some o) :
    Armed (m.armHeartbeat O sid o) := by
  unfold Machine.armHeartbeat
  split
  · exact h
  · rename_i hno
    refine h.set hs .heartbeat ?_ _ (fun _ => rfl) ?_
    · have hnone := (not_or.mp hno).2
      rw [Option.not_isSome_iff_eq_none] at hnone
      exact hnone
    · intro s k hne
      cases k with
      | debounce => rfl
      | heartbeat => exact absurd rfl hne

/-- A write that leaves both handles alone. -/
theorem timer_congr {s s' : SessionState} (hi : s'.idleTimer = s.idleTimer) (hh : s'.heartbeatTimer = s.heartbeatTimer)
    (k : TimerKind) : s'.timer k = s.timer k := by
  cases k with
  | debounce => exact hi
  | heartbeat => exact hh

theorem Armed.onActive {m : Machine} (h : Armed m) (sid : JsString) (status : SessionStatus) :
    Armed (m.onActive O sid status) := by
  unfold Machine.onActive
  have hs := m.stateFor_get sid
  have hg := h.stateFor sid
  generalize m.stateFor sid = p at hs hg ⊢
  obtain ⟨m, o⟩ := p
  dsimp only at hs hg ⊢
  replace hs : (m.clearIdleTimer o).sessions.get sid = some o := (clearIdleTimer_sessions m o).symm ▸ hs
  replace hg := (hg.clearIdleTimer o).modify o (f := fun s => { s with pendingElapsedMs := none })
    fun s => timer_congr rfl rfl
  split
  · refine Armed.armHeartbeat ?_ hs
    exact hg.modify o fun s => timer_congr rfl rfl
  · refine Armed.armHeartbeat ?_ hs
    refine Armed.modify ?_ o fun s => timer_congr rfl rfl
    exact (hg.log _).modify o fun s => timer_congr rfl rfl

theorem Armed.onIdle {m : Machine} (h : Armed m) (sid : JsString) : Armed (m.onIdle O sid) := by
  unfold Machine.onIdle
  have hs := m.stateFor_get sid
  have hg := h.stateFor sid
  generalize m.stateFor sid = p at hs hg ⊢
  obtain ⟨m, o⟩ := p
  dsimp only at hs hg ⊢
  have q := (quiet_modify m o (f := fun s => { s with status := .idle }) fun _ => ⟨rfl, rfl, rfl⟩).trans
    (quiet_clearHeartbeat _ o)
  replace hs : ((m.modify o fun s => { s with status := .idle }).clearHeartbeat o).sessions.get sid = some o :=
    q.sessions ▸ hs
  replace hg := (hg.modify o (f := fun s => { s with status := .idle }) fun s => timer_congr rfl rfl).clearHeartbeat o
  split
  · exact hg
  · rename_i hno
    refine hg.set hs .debounce ?_ _ (fun _ => rfl) ?_
    · have hnone := (not_or.mp hno).1
      rw [Option.not_isSome_iff_eq_none] at hnone
      exact hnone
    · intro s k hne
      cases k with
      | debounce => exact absurd rfl hne
      | heartbeat => rfl

theorem Armed.completePendingIdle {m : Machine} (h : Armed m) (sid : JsString) (o : Nat) :
    Armed (m.completePendingIdle sid o) := by
  unfold Machine.completePendingIdle
  split
  · exact h
  · refine Armed.emit ?_ _
    exact h.modify o fun s => timer_congr rfl rfl

theorem Armed.onTerminalSignal {m : Machine} (h : Armed m) (sid : JsString) (outcome : TerminalOutcome) :
    Armed (m.onTerminalSignal sid outcome) := by
  unfold Machine.onTerminalSignal
  have hg := h.stateFor sid
  generalize m.stateFor sid = p at hg ⊢
  obtain ⟨m, o⟩ := p
  dsimp only at hg ⊢
  have hg := (((hg.clearIdleTimer o).modify o (f := fun s => { s with pendingElapsedMs := none })
    fun s => timer_congr rfl rfl).clearHeartbeat o).modify o (f := settle outcome) fun s => timer_congr rfl rfl
  split
  · exact hg
  · exact hg.log _

theorem Armed.onAsked {m : Machine} (h : Armed m) (sid : JsString) (k : PendingActionKind) (requestID : JsString)
    (details : ActionDetails) : Armed (m.onAsked sid k requestID details) := by
  unfold Machine.onAsked
  have hg := h.stateFor sid
  generalize m.stateFor sid = p at hg ⊢
  obtain ⟨m, o⟩ := p
  dsimp only at hg ⊢
  split
  · exact hg
  · refine Armed.emit ?_ _
    exact hg.modify o fun s => timer_congr rfl rfl

theorem Armed.onResolved {m : Machine} (h : Armed m) (sid : JsString) (k : PendingActionKind) (requestID : JsString) :
    Armed (m.onResolved sid k requestID) := by
  unfold Machine.onResolved
  have hg := h.stateFor sid
  generalize m.stateFor sid = p at hg ⊢
  obtain ⟨m, o⟩ := p
  dsimp only at hg ⊢
  split
  · exact hg
  · refine Armed.emit ?_ _
    exact hg.modify o fun s => timer_congr rfl rfl

theorem Armed.clearPendingProviderAction {m : Machine} (h : Armed m) (o : Nat) :
    Armed (m.clearPendingProviderAction o) :=
  h.modify o fun _ => timer_congr rfl rfl

theorem Armed.onProviderAction {m : Machine} (h : Armed m) (sid : JsString) (a : RetryActionInfo) :
    Armed (m.onProviderAction O sid a) := by
  unfold Machine.onProviderAction
  have hg := h.stateFor sid
  generalize m.stateFor sid = p at hg ⊢
  obtain ⟨m, o⟩ := p
  dsimp only at hg ⊢
  split
  · exact hg
  · refine Armed.emit ?_ _
    exact (hg.clearPendingProviderAction o).modify o fun s => timer_congr rfl rfl

theorem Armed.signal {m : Machine} (h : Armed m) (sid : JsString) (x : Signal) : Armed (m.signal O sid x) := by
  have h := h.log (.received sid x m.time)
  unfold Machine.signal
  cases x with
  | busy => exact ((h.onActive sid .busy).stateFor sid).clearPendingProviderAction _
  | retry action =>
    cases action with
    | none => exact h.onActive sid .retry
    | some a => exact (h.onActive sid .retry).onProviderAction sid a
  | idle => exact h.onIdle sid
  | failed => exact h.onTerminalSignal sid .failed
  | stopped => exact h.onTerminalSignal sid .stopped
  | questionAsked => exact h.onAsked sid _ _ _
  | permissionAsked => exact h.onAsked sid _ _ _
  | questionResolved => exact h.onResolved sid _ _
  | permissionResolved => exact h.onResolved sid _ _

theorem Armed.rearm {m : Machine} (h : Armed m) (sid : JsString) (o : Nat) : Armed (m.rearm O sid o) := by
  unfold Machine.rearm
  split
  · rename_i hs; exact h.armHeartbeat hs.1
  · exact h

theorem Armed.fire {m : Machine} (h : Armed m) (k : Nat) : Armed (m.fire O k) := by
  unfold Machine.fire
  cases hk : (m.timers.get k).filter (·.due ≤ m.time) with
  | none => exact h
  | some t =>
    obtain ⟨-, ht⟩ := h.kept k t (Option.filter_eq_some_iff.mp hk).1
    dsimp only
    split
    · rename_i hkind
      rw [hkind] at ht
      refine Armed.completePendingIdle (h.clear .debounce ht ?_) _ _
      intro s k' hne
      cases k' with
      | debounce => exact absurd rfl hne
      | heartbeat => rfl
    · rename_i hkind
      rw [hkind] at ht
      have hc : Armed ((m.clearTimeout k).modify t.object fun s => { s with heartbeatTimer := none }) := by
        refine h.clear .heartbeat ht ?_
        intro s k' hne
        cases k' with
        | debounce => rfl
        | heartbeat => exact absurd rfl hne
      unfold onHeartbeatTick
      dsimp only
      split
      · exact ⟨hc.made, hc.kept⟩
      · exact hc.rearm _ _

theorem Armed.flushNext {m : Machine} (h : Armed m) (i : Nat) : Armed (m.flushNext i) := by
  unfold Machine.flushNext
  split
  · exact h
  · split
    · exact ⟨h.made, h.kept⟩
    · dsimp only
      split
      · refine Armed.completePendingIdle (Armed.log (Armed.clearIdleTimer ?_ _) _) _ _
        exact ⟨h.made, h.kept⟩
      · exact ⟨h.made, h.kept⟩

theorem clearHeartbeat_sessions (m : Machine) (o : Nat) : (m.clearHeartbeat o).sessions = m.sessions :=
  (quiet_clearHeartbeat m o).sessions

theorem clearHeartbeat_self (m : Machine) (o : Nat) :
    (m.clearHeartbeat o).objects o = { m.objects o with heartbeatTimer := none } := by
  unfold clearHeartbeat
  cases h : (m.objects o).heartbeatTimer with
  | some k => exact modify_objects_self ..
  | none => show m.objects o = _; rw [← h]

/-- A session without timers may be dropped. -/
theorem Armed.delete {m : Machine} (h : Armed m) {sid : JsString}
    (hno : ∀ k t, m.timers.get k = some t → t.sessionID ≠ sid) :
    Armed (({ m with sessions := m.sessions.delete sid } : Machine).log (.disposed sid)) := by
  constructor
  · intro s o ho
    replace ho : (m.sessions.delete sid).get s = some o := ho
    rw [OMap.get_delete] at ho
    split at ho
    · cases ho
    · exact h.made s o ho
  · intro k t hk
    obtain ⟨hs, ht⟩ := h.kept k t hk
    exact ⟨(OMap.get_delete_ne _ (hno k t hk)).trans hs, ht⟩

theorem Armed.disposeSession {m : Machine} (h : Armed m) (sid : JsString) : Armed (m.disposeSession sid) := by
  unfold Machine.disposeSession
  cases hs : m.sessions.get sid with
  | some o =>
    have hg := (h.clearIdleTimer o).clearHeartbeat o
    refine hg.delete ?_
    intro k t hk hsid
    obtain ⟨hcur, ht⟩ := hg.kept k t hk
    rw [clearHeartbeat_sessions, clearIdleTimer_sessions, hsid, hs] at hcur
    obtain rfl := Option.some.inj hcur
    rw [clearHeartbeat_self, clearIdleTimer_self] at ht
    cases hkind : t.kind with
    | debounce => rw [hkind] at ht; cases ht
    | heartbeat => rw [hkind] at ht; cases ht
  | none =>
    refine h.delete ?_
    intro k t hk hsid
    have hcur := (h.kept k t hk).1
    rw [hsid, hs] at hcur
    cases hcur

theorem Armed.ticked {m : Machine} (h : Armed m) (i : Nat) : Armed (m.ticked O i) := by
  unfold Machine.ticked
  split
  · exact h
  · refine Armed.rearm ?_ _ _
    exact ⟨h.made, h.kept⟩

/-! ## Whom a step is about -/

structure About (sid : JsString) (m m' : Machine) : Prop where
  sessions : ∀ s, s ≠ sid → m'.sessions.get s = m.sessions.get s
  trace : ∃ es, m'.trace = es ++ m.trace ∧ ∀ e ∈ es, e.sessionID = sid

theorem About.of_eq {sid : JsString} {m m' : Machine} (hs : m'.sessions = m.sessions) (ht : m'.trace = m.trace) :
    About sid m m' := ⟨fun s _ => by rw [hs], [], by simpa using ht, by simp⟩

theorem About.refl (sid : JsString) (m : Machine) : About sid m m := .of_eq rfl rfl

theorem About.trans {sid : JsString} {m m' m'' : Machine} (h : About sid m m') (h' : About sid m' m'') :
    About sid m m'' := by
  refine ⟨fun s hs => (h'.sessions s hs).trans (h.sessions s hs), ?_⟩
  obtain ⟨es, he, hes⟩ := h.trace
  obtain ⟨fs, hf, hfs⟩ := h'.trace
  refine ⟨fs ++ es, by rw [hf, he, List.append_assoc], fun e hm => ?_⟩
  rcases List.mem_append.mp hm with hm | hm
  · exact hfs e hm
  · exact hes e hm

theorem About.log {sid : JsString} {m m' : Machine} (h : About sid m m') {e : Entry} (he : e.sessionID = sid) :
    About sid m (m'.log e) := h.trans ⟨fun _ _ => rfl, [e], rfl, by simpa using he⟩

theorem About.modify {sid : JsString} {m m' : Machine} (h : About sid m m') (o : Nat)
    (f : SessionState → SessionState) :
    About sid m (m'.modify o f) := h.trans (.of_eq rfl rfl)

theorem About.clearPendingProviderAction {sid : JsString} {m m' : Machine} (h : About sid m m') (o : Nat) :
    About sid m (m'.clearPendingProviderAction o) := h.modify o _

theorem About.clearIdleTimer {sid : JsString} {m m' : Machine} (h : About sid m m') (o : Nat) :
    About sid m (m'.clearIdleTimer o) := h.trans (.of_eq (clearIdleTimer_sessions m' o) (clearIdleTimer_trace m' o))

theorem About.clearHeartbeat {sid : JsString} {m m' : Machine} (h : About sid m m') (o : Nat) :
    About sid m (m'.clearHeartbeat o) := h.trans (.of_eq (clearHeartbeat_sessions m' o) (clearHeartbeat_trace m' o))

theorem About.armHeartbeat {sid : JsString} {m m' : Machine} (h : About sid m m') (o : Nat) :
    About sid m (m'.armHeartbeat O sid o) := by
  refine h.trans ?_
  unfold Machine.armHeartbeat
  split
  · exact .refl sid m'
  · exact .of_eq rfl rfl

theorem About.stateFor {sid : JsString} {m m' : Machine} (h : About sid m m') : About sid m (m'.stateFor sid).1 := by
  refine h.trans ?_
  rcases m'.stateFor_eq sid with ⟨o, hs, heq⟩ | ⟨hnone, heq⟩
  · rw [heq]; exact .refl sid m'
  · rw [heq]
    exact ⟨fun s hs => OMap.get_set_ne _ _ hs, [], rfl, by simp⟩

theorem About.onActive {sid : JsString} {m m' : Machine} (h : About sid m m') (status : SessionStatus) :
    About sid m (m'.onActive O sid status) := by
  unfold Machine.onActive
  have hg := h.stateFor
  generalize m'.stateFor sid = p at hg ⊢
  obtain ⟨m', o⟩ := p
  dsimp only at hg ⊢
  refine About.armHeartbeat (About.modify ?_ o _) o
  split
  · exact (hg.clearIdleTimer o).modify o _
  · exact (((hg.clearIdleTimer o).modify o _).log rfl).modify o _

theorem About.onProviderAction {sid : JsString} {m m' : Machine} (h : About sid m m') (a : RetryActionInfo) :
    About sid m (m'.onProviderAction O sid a) := by
  unfold Machine.onProviderAction
  have hg := h.stateFor
  generalize m'.stateFor sid = p at hg ⊢
  obtain ⟨m', o⟩ := p
  dsimp only at hg ⊢
  split
  · exact hg
  · exact ((hg.modify o _).modify o _).log rfl

theorem About.onIdle {sid : JsString} {m m' : Machine} (h : About sid m m') : About sid m (m'.onIdle O sid) := by
  unfold Machine.onIdle
  have hg := h.stateFor
  generalize m'.stateFor sid = p at hg ⊢
  obtain ⟨m', o⟩ := p
  dsimp only at hg ⊢
  have hg := (hg.modify o fun s => { s with status := .idle }).clearHeartbeat o
  split
  · exact hg
  · refine About.modify ?_ o _
    exact hg.trans (.of_eq rfl rfl)

theorem About.completePendingIdle {sid : JsString} {m m' : Machine} (h : About sid m m') (o : Nat) :
    About sid m (m'.completePendingIdle sid o) := by
  unfold Machine.completePendingIdle
  split
  · exact h
  · exact (h.modify o _).log rfl

theorem About.onTerminalSignal {sid : JsString} {m m' : Machine} (h : About sid m m') (outcome : TerminalOutcome) :
    About sid m (m'.onTerminalSignal sid outcome) := by
  unfold Machine.onTerminalSignal
  have hg := h.stateFor
  generalize m'.stateFor sid = p at hg ⊢
  obtain ⟨m', o⟩ := p
  dsimp only at hg ⊢
  have hg := (((hg.clearIdleTimer o).modify o fun s => { s with pendingElapsedMs := none }).clearHeartbeat o).modify o
    (settle outcome)
  split
  · exact hg
  · exact hg.log rfl

theorem About.onAsked {sid : JsString} {m m' : Machine} (h : About sid m m') (k : PendingActionKind)
    (requestID : JsString)
    (details : ActionDetails) : About sid m (m'.onAsked sid k requestID details) := by
  unfold Machine.onAsked
  have hg := h.stateFor
  generalize m'.stateFor sid = p at hg ⊢
  obtain ⟨m', o⟩ := p
  dsimp only at hg ⊢
  split
  · exact hg
  · exact (hg.modify o _).log rfl

theorem About.onResolved {sid : JsString} {m m' : Machine} (h : About sid m m') (k : PendingActionKind)
    (requestID : JsString) : About sid m (m'.onResolved sid k requestID) := by
  unfold Machine.onResolved
  have hg := h.stateFor
  generalize m'.stateFor sid = p at hg ⊢
  obtain ⟨m', o⟩ := p
  dsimp only at hg ⊢
  split
  · exact hg
  · exact (hg.modify o _).log rfl

theorem about_signal (m : Machine) (sid : JsString) (x : Signal) : About sid m (m.signal O sid x) := by
  have h : About sid m (m.log (.received sid x m.time)) := (About.refl sid m).log rfl
  unfold Machine.signal
  cases x with
  | busy => exact (h.onActive .busy).stateFor.clearPendingProviderAction _
  | retry action =>
    cases action with
    | none => exact h.onActive .retry
    | some a => exact (h.onActive .retry).onProviderAction a
  | idle => exact h.onIdle
  | failed => exact h.onTerminalSignal .failed
  | stopped => exact h.onTerminalSignal .stopped
  | questionAsked => exact h.onAsked _ _ _
  | permissionAsked => exact h.onAsked _ _ _
  | questionResolved => exact h.onResolved _ _
  | permissionResolved => exact h.onResolved _ _

theorem about_rearm (m : Machine) (sid : JsString) (o : Nat) : About sid m (m.rearm O sid o) := by
  unfold rearm
  split
  · exact (About.refl sid m).armHeartbeat o
  · exact .refl sid m

/-- A timer that fires is about its session, one that is not due about any. -/
theorem about_fire (m : Machine) (k : Nat) :
    m.fire O k = m ∨ ∃ t, m.timers.get k = some t ∧ About t.sessionID m (m.fire O k) := by
  unfold Machine.fire
  cases hk : (m.timers.get k).filter (·.due ≤ m.time) with
  | none => exact Or.inl rfl
  | some t =>
    refine Or.inr ⟨t, (Option.filter_eq_some_iff.mp hk).1, ?_⟩
    have hc : About t.sessionID m (m.clearTimeout k) := .of_eq rfl rfl
    dsimp only
    split
    · exact (hc.modify _ _).completePendingIdle _
    · unfold onHeartbeatTick
      dsimp only
      have hc := hc.modify t.object fun s => { s with heartbeatTimer := none }
      split
      · exact (hc.log (e := .effect (.heartbeat t.sessionID _ _) _) rfl).trans (.of_eq rfl rfl)
      · exact hc.trans (about_rearm _ _ _)

theorem about_flushNext (m : Machine) (i : Nat) :
    ∃ sid, About sid m (m.flushNext i) ∧ ((m.flushNext i).trace = m.trace ∨ (m.sessions.get sid).isSome) := by
  unfold Machine.flushNext
  split
  · exact ⟨[], .refl _ m, Or.inl rfl⟩
  · split
    · exact ⟨[], .of_eq rfl rfl, Or.inl rfl⟩
    · rename_i sid o hfind
      have hs : m.sessions.get sid = some o := OMap.get_eq_some.mpr (List.mem_of_find?_eq_some hfind)
      refine ⟨sid, ?_, Or.inr (by rw [hs]; rfl)⟩
      dsimp only
      split
      · refine About.completePendingIdle (About.log (e := .flushed sid) (About.clearIdleTimer ?_ o) rfl) o
        exact .of_eq rfl rfl
      · exact .of_eq rfl rfl

theorem about_disposeSession (m : Machine) (sid : JsString) : About sid m (m.disposeSession sid) := by
  unfold Machine.disposeSession
  have hdelete : ∀ m' : Machine, About sid m m' →
      About sid m (({ m' with sessions := m'.sessions.delete sid } : Machine).log (.disposed sid)) := by
    intro m' h
    refine h.trans ⟨fun s hs => OMap.get_delete_ne _ hs, [.disposed sid], rfl, by simp⟩
  cases m.sessions.get sid with
  | some o => exact hdelete _ (((About.refl sid m).clearIdleTimer o).clearHeartbeat o)
  | none => exact hdelete _ (.refl sid m)

end NotifyHub.Plugin
