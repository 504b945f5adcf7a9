/-
  NotifyHub.Plugin.TimerState — the timers of a `SessionMachine` match its state.

  Proved, over every run (`timers_match`), of every session:
  - a debounce timer is pending exactly while an elapsed time is frozen, and then the
    session is idle and its round has no terminal;
  - between calls, with a heartbeat callback, the heartbeat is armed exactly while the
    round is active;
  - at most one timer of each kind is armed;
  - once its state is disposed, no armed timer is that state's, and the end of a tick that
    was inside its callback does nothing.

  The state's part (`Tidy`) is kept by every turn. Inside a heartbeat's callback the active
  round has no heartbeat armed (`Machine.Beats`): that tick is the one that re-arms it.
-/

import NotifyHub.Plugin.Turns

namespace NotifyHub.Plugin

open Machine

variable {O : MachineOptions}

/-- The timer handles of a state agree with the rest of it. -/
structure Tidy (s : SessionState) : Prop where
  pending : s.idleTimer.isSome = s.pendingElapsedMs.isSome
  idle : s.idleTimer.isSome = true → s.status = .idle ∧ s.terminalSent = false
  beats : s.heartbeatTimer.isSome = true → s.Active

theorem tidy_of_idle {s : SessionState} (hi : s.idleTimer = none) (hp : s.pendingElapsedMs = none)
    (hb : s.heartbeatTimer.isSome = true → s.Active) : Tidy s where
  pending := by rw [hi, hp]
  idle h := by
    rw [hi] at h
    cases h
  beats := hb

theorem Tidy.new : Tidy .new := tidy_of_idle rfl rfl nofun

theorem Tidy.activated (s : SessionState) (now handle : Nat) (status : SessionStatus) (hs : status ≠ .idle) :
    Tidy (s.activated O now handle status) := by
  obtain ⟨_, _, he⟩ := s.activated_eq (O := O) now handle status
  rw [he]
  exact tidy_of_idle rfl rfl fun _ => ⟨rfl, hs⟩

/-- The pending actions play no part. -/
theorem Tidy.actions {s : SessionState} (h : Tidy s) (actions : OMap JsString PendingActionKind) :
    Tidy { s with pendingActions := actions } := ⟨h.pending, h.idle, h.beats⟩

theorem Tidy.idled {s : SessionState} (h : Tidy s) (now handle : Nat) : Tidy (s.idled now handle) := by
  unfold SessionState.idled
  split
  · exact ⟨h.pending, fun hi => ⟨rfl, (h.idle hi).2⟩, nofun⟩
  · rename_i hc
    refine ⟨rfl, fun _ => ⟨rfl, ?_⟩, nofun⟩
    simpa using (not_or.mp hc).2

theorem Tidy.turn {now time : Nat} {sid : JsString} {s s' : SessionState} {es : List Entry} (h : Tidy s)
    (ht : Turn O now time sid s es s') : Tidy s' := by
  cases ht with
  | rest => exact h
  | busy handle => exact (Tidy.activated s now handle .busy nofun).actions _
  | retry handle => exact Tidy.activated s now handle .retry nofun
  | provider handle => exact ((Tidy.activated s now handle .retry nofun).actions _).actions _
  | idle handle => exact h.idled now handle
  | ended => exact tidy_of_idle rfl rfl nofun
  | repeated => exact h
  | asked => exact h.actions _
  | unknown => exact h
  | resolved => exact h.actions _
  | completed _ hidle _ =>
    -- an idle session's heartbeat is not armed
    refine tidy_of_idle rfl rfl fun hb => ?_
    exact absurd (h.idle hidle).1 (h.beats hb).2
  | beat => exact ⟨h.pending, h.idle, nofun⟩
  | stopped => exact ⟨h.pending, h.idle, nofun⟩
  | rearmed handle hactive =>
    unfold SessionState.armed
    split
    · exact h
    · exact ⟨h.pending, h.idle, fun _ => hactive⟩
  | disposed => exact .new

theorem tidy_run (es : List MachineEvent) (sid : JsString) : Tidy ((run O es).state sid) :=
  Kept.run (O := O) (I := fun _ s => Tidy s) ⟨fun _ _ _ _ _ h => h, fun _ _ _ _ _ _ ht h => h.turn ht⟩ .new es

/-! ## Runs -/

/-- What holds of a machine whose sessions take turns holds after every run. -/
theorem run_turns {I : Machine → Prop} (h0 : I .init)
    (htimes : ∀ m now time, I m → I { m with nowMs := now, time := time })
    (hturn : ∀ m m' sid, Turned O m m' sid → I m → I m') (es : List MachineEvent) : I (run O es) := by
  refine (runFrom_inv (I := fun m => Good O m ∧ Armed m ∧ I m) (fun m e ⟨hg, ha, hI⟩ => ?_)
    ⟨Good.init, Armed.init, h0⟩ es).2.2
  refine ⟨hg.step e, ha.step e, ?_⟩
  have hchain := step_turns hg ha e
  generalize m.step O e = m' at hchain
  induction hchain with
  | refl => exact htimes m _ _ hI
  | tail _ ht ih =>
    obtain ⟨sid, ht⟩ := ht
    exact hturn _ _ sid ht ih

theorem Turned.keeps_beats {m m' : Machine} {sid : JsString} (h : Turned O m m' sid) (hb : O.heartbeat = true)
    (hbeats : ∀ s, m.Beats s) (s : JsString) : m'.Beats s := by
  by_cases hs : s = sid
  · subst hs
    exact h.beats hb (hbeats s)
  · obtain ⟨hstate, hhung⟩ := h.others s hs
    intro hactive
    rw [hstate] at hactive ⊢
    exact (hbeats s hactive).imp_right hhung

theorem beats_run (hb : O.heartbeat = true) (es : List MachineEvent) : ∀ sid, (run O es).Beats sid :=
  run_turns (I := fun m => ∀ sid, m.Beats sid) (fun _ hactive => absurd hactive.1 nofun) (fun _ _ _ h => h)
    (fun _ _ _ ht h => ht.keeps_beats hb h) es

theorem armed_runFrom {m : Machine} (h : Armed m) (es : List MachineEvent) : Armed (runFrom (Machine.step O) m es) :=
  runFrom_inv (I := Armed) (fun _ e h => h.step e) h es

/-! ## Disposed states -/

/-- The state is no session's, and will not be again. -/
structure Machine.Dropped (m : Machine) (o : Nat) : Prop where
  made : o < m.nextObject
  gone : ∀ sid, m.sessions.get sid ≠ some o

theorem Dropped.fresh {m m' : Machine} {o : Nat} (h : m.Dropped o) (hf : m.Fresh m') : m'.Dropped o := by
  refine ⟨Nat.lt_of_lt_of_le h.made hf.next, fun sid hs => ?_⟩
  rcases hf.get sid o hs with hs | ho
  · exact h.gone sid hs
  · exact Nat.not_le.mpr h.made ho

theorem disposeSession_get (m : Machine) (sid s : JsString) :
    (m.disposeSession sid).sessions.get s = if s = sid then none else m.sessions.get s := by
  unfold disposeSession
  cases m.sessions.get sid with
  | none => exact OMap.get_delete m.sessions sid s
  | some o =>
    show OMap.get (((m.clearIdleTimer o).clearHeartbeat o).sessions.delete sid) s = _
    rw [clearHeartbeat_sessions, clearIdleTimer_sessions]
    exact OMap.get_delete m.sessions sid s

theorem disposeAll_get (m : Machine) (ks : List JsString) (s : JsString) :
    (ks.foldl disposeSession m).sessions.get s = if s ∈ ks then none else m.sessions.get s := by
  induction ks generalizing m with
  | nil => rfl
  | cons sid ks ih =>
    rw [List.foldl_cons, ih, disposeSession_get]
    by_cases hk : s ∈ ks <;> by_cases hs : s = sid <;> simp [hk, hs]

/-- The event disposes the session's state. -/
def MachineOp.disposes (sid : JsString) : MachineOp → Prop
  | .disposeSession s => s = sid
  | .disposeAll => True
  | _ => False

theorem dropped_step {m : Machine} (h : Good O m) (e : MachineEvent) {sid : JsString} {o : Nat} (he : e.op.disposes sid)
    (hs : m.sessions.get sid = some o) (ha : Armed m) : (m.step O e).Dropped o := by
  have hnext : m.nextObject ≤ (m.step O e).nextObject := by
    have hchain := step_turns h ha e
    generalize m.step O e = m' at hchain
    induction hchain with
    | refl => exact Nat.le_refl _
    | tail _ ht ih =>
      obtain ⟨_, ht⟩ := ht
      exact Nat.le_trans ih ht.fresh.next
  refine ⟨Nat.lt_of_lt_of_le (h.made sid o hs) hnext, fun s hs' => ?_⟩
  -- only `sid` had it, and `sid` has none now
  unfold Machine.step at hs'
  cases hop : e.op with
  | disposeSession sid' =>
    rw [hop] at he hs'
    obtain rfl : sid' = sid := he
    replace hs' : (disposeSession { m with nowMs := e.nowMs, time := max m.time e.time } sid').sessions.get s =
      some o := hs'
    rw [disposeSession_get] at hs'
    split at hs'
    · cases hs'
    · rename_i hne
      exact hne (h.single s sid' o hs' hs)
  | disposeAll =>
    rw [hop] at hs'
    replace hs' : (m.sessions.keys.foldl disposeSession
      { m with nowMs := e.nowMs, time := max m.time e.time }).sessions.get s = some o := hs'
    rw [disposeAll_get] at hs'
    split at hs'
    · cases hs'
    · rename_i hkeys
      exact hkeys (OMap.mem_keys.mpr ⟨o, hs'⟩)
  | _ =>
    rw [hop] at he
    exact he.elim

theorem dropped_runFrom {m : Machine} {o : Nat} (hg : Good O m) (ha : Armed m) (h : m.Dropped o)
    (es : List MachineEvent) :
    (runFrom (Machine.step O) m es).Dropped o := by
  refine (runFrom_inv (I := fun m => Good O m ∧ Armed m ∧ m.Dropped o) (fun m e ⟨hg, ha, hd⟩ => ?_) ⟨hg, ha, h⟩ es).2.2
  refine ⟨hg.step e, ha.step e, ?_⟩
  have hchain := step_turns hg ha e
  generalize m.step O e = m' at hchain
  induction hchain with
  | refl => exact ⟨hd.made, hd.gone⟩
  | tail _ ht ih =>
    obtain ⟨_, ht⟩ := ht
    exact Dropped.fresh ih ht.fresh

/-! ## The theorem -/

/-- No call is running. -/
structure Machine.AtRest (m : Machine) : Prop where
  ticking : m.ticking = []
  flushes : m.flushes = []

variable (O) in
theorem timers_match (es : List MachineEvent) (sid : JsString) :
    let m := run O es
    let s := m.state sid
    (s.idleTimer.isSome = true ↔ s.pendingElapsedMs.isSome = true) ∧
    (s.idleTimer.isSome = true → s.status = .idle ∧ s.terminalSent = false) ∧
    (O.heartbeat = true → m.AtRest → (s.heartbeatTimer.isSome = true ↔ s.Active)) ∧
    (∀ k k' t t', m.timers.get k = some t → m.timers.get k' = some t' → t.sessionID = sid → t'.sessionID = sid →
      t.kind = t'.kind → k = k') ∧
    (∀ e o es', e.op.disposes sid → m.sessions.get sid = some o →
      let m' := runFrom (Machine.step O) (m.step O e) es'
      (∀ k t, m'.timers.get k = some t → t.object ≠ o) ∧
      ∀ i s, m'.ticking[i]? = some (s, o) → m'.ticked O i = { m' with ticking := m'.ticking.eraseIdx i }) := by
  have ht := tidy_run (O := O) es sid
  have hg := good_run (O := O) es
  have ha := armed_runFrom (O := O) Armed.init es
  refine ⟨?_, ht.idle, fun hb hrest => ⟨ht.beats, fun hactive => ?_⟩, ?_, ?_⟩
  · rw [ht.pending]
  · rcases beats_run hb es sid hactive with hsome | ⟨o, -, hmem⟩
    · exact hsome
    · rw [hrest.ticking] at hmem
      cases hmem
  · intro k k' t t' hk hk' hsid hsid' hkind
    obtain ⟨hs, htimer⟩ := ha.kept k t hk
    obtain ⟨hs', htimer'⟩ := ha.kept k' t' hk'
    rw [hsid] at hs
    rw [hsid', hs] at hs'
    rw [← Option.some.inj hs', ← hkind, htimer] at htimer'
    exact Option.some.inj htimer'
  · intro e o es' he hs m'
    have hd : m'.Dropped o := dropped_runFrom (hg.step e) (ha.step e) (dropped_step hg e he hs ha) es'
    have ha' : Armed m' := armed_runFrom (ha.step e) es'
    constructor
    · intro k t hk ho
      exact hd.gone t.sessionID (ho ▸ (ha'.kept k t hk).1)
    · intro i s hi
      unfold Machine.ticked rearm
      rw [hi]
      exact if_neg fun hc => hd.gone s hc.1

/-- A tick whose session is disposed and busy again inside its callback re-arms nothing. -/
example : ((run ⟨100, 1000, true, fun _ => []⟩
      [⟨5, 5, .signal [7] .busy⟩, ⟨1005, 1005, .fire 0⟩, ⟨1005, 1005, .disposeSession [7]⟩,
        ⟨1006, 1006, .signal [7] .busy⟩, ⟨1007, 1007, .ticked 0⟩]).timers.entries.map fun e => (e.1, e.2.object)) =
    [(1, 1)] := by decide

end NotifyHub.Plugin
