/-
  NotifyHub.Plugin.LifecycleTrace — what a run of the control channel can do (see
  `NotifyHub.Plugin.Lifecycle`).

  Whether the channel runs, its socket, its timer and whether it is registered can be read
  off the effects so far: each is a register that some effects write. An invariant says that
  the state agrees with them and that every effect is justified by those before it; another
  counts what a running channel has.

  Proved, over every run (`lifecycle`):
  - while the channel runs it has exactly one of: a `connect` of this generation on its way, a
    current socket, a reconnect timer; when it does not run, none;
  - a frame is sent, and a frame of the gateway obeyed, only on the current socket of a running
    channel, and a request or command obeyed only once `registration` came on that socket;
  - every command frame that is taken begins one command, and nothing else begins one; it has
    one result at most, on the socket it came on, with the status the seam settled with if it
    settled before the timer;
  - an event of another socket changes nothing, or stops that socket's own timer.
-/

import NotifyHub.Lib.Trace
import NotifyHub.Plugin.Lifecycle

namespace NotifyHub.Plugin.Lifecycle

open Control

/-! ## Registers -/

def runningW : Effect → Option Bool
  | .started => some true
  | .stopped => some false
  | _ => none

def socketW : Effect → Option (Option Nat)
  | .opened c => some (some c)
  | .dropped _ | .stopped => some none
  | _ => none

def timerW : Effect → Option Bool
  | .scheduled _ => some true
  | .fired | .stopped => some false
  | _ => none

def registeredW : Effect → Option Bool
  | .registered _ => some true
  | .opened _ | .dropped _ | .stopped => some false
  | _ => none

/-- Between a `start` and the next `stop`. -/
def Running (effects : List Effect) : Prop := lastWrite runningW effects = some true

/-- Socket `c` was opened last, and has not been let go. -/
def Current (effects : List Effect) (c : Nat) : Prop := lastWrite socketW effects = some (some c)

/-- Every socket that was opened has been let go. -/
def NoSocket (effects : List Effect) : Prop := ∀ c, ¬ Current effects c

/-- A reconnect is scheduled. -/
def Pending (effects : List Effect) : Prop := lastWrite timerW effects = some true

/-- `registration` has come on the current socket. -/
def Registered (effects : List Effect) : Prop := lastWrite registeredW effects = some true

section
variable (O : Options)

/-- What holds of the effects before one. -/
def Justified (pre : List Effect) : Effect → Prop
  | .started => ¬ Running pre
  | .stopped => True
  | .opened c => Running pre ∧ NoSocket pre ∧ ¬ Pending pre ∧ .opened c ∉ pre
  | .dropped c => Running pre ∧ Current pre c
  | .scheduled _ => Running pre ∧ NoSocket pre ∧ ¬ Pending pre
  | .fired => Running pre ∧ Pending pre
  | .announced c r =>
    Running pre ∧ Current pre c ∧
      ∃ version webUiAvailable, version ≠ [] ∧
        r = ⟨O.instanceId, O.machine, O.project, O.directory, version, webUiAvailable, 2⟩
  | .registered c => Running pre ∧ Current pre c
  | .taken k c => Running pre ∧ Current pre c ∧ Registered pre ∧ ∀ c', .taken k c' ∉ pre
  | .replied k c => Running pre ∧ Current pre c ∧ .taken k c ∈ pre
  | .invoked i c _ => Running pre ∧ Current pre c ∧ Registered pre ∧ ∀ c' call, .invoked i c' call ∉ pre
  | .settled i _ => (∃ c call, .invoked i c call ∈ pre) ∧ ∀ outcome, .settled i outcome ∉ pre
  | .result i c frame =>
    Running pre ∧ Current pre c ∧ (∀ c' f, .result i c' f ∉ pre) ∧
      ∃ call outcome, .invoked i c call ∈ pre ∧ .settled i outcome ∈ pre ∧
        frame = ⟨call.resultType, call.commandId, O.instanceId, outcome.status⟩

/-- A `connect` of this generation, on its way. -/
def isLive (generation : Nat) : Option Connect → Bool
  | some k => k.generation == generation
  | none => false

/-- How many things the channel has that will make it connect, or keep it connected. -/
def live (s : State) : Nat :=
  s.connects.countP (isLive s.generation) + (if s.socket.isSome then 1 else 0) + if s.reconnectTimer then 1 else 0

/-- The state agrees with the effects. -/
structure Agrees (s : State) : Prop where
  running : (lastWrite runningW s.effects).getD false = s.running
  socket : (lastWrite socketW s.effects).getD none = s.socket
  timer : (lastWrite timerW s.effects).getD false = s.reconnectTimer
  registered : (lastWrite registeredW s.effects).getD false = s.registered
  traced : Traced (Justified O) s.effects
  sockets : ∀ c, .opened c ∈ s.effects → c < s.sockets
  /-- Only a running channel has a socket or a timer. -/
  quiet : s.running = false → s.socket = none ∧ s.reconnectTimer = false
  registers : s.registered = true → s.socket.isSome

/-- What is known of the commands and the other requests. -/
structure Calls (s : State) : Prop where
  command : ∀ (i : Nat) (k : Command), s.commands[i]? = some k →
    .invoked i k.socket k.call ∈ s.effects ∧ (k.outcome = none → ∀ o, .settled i o ∉ s.effects) ∧
      (∀ o, k.outcome = some o → .settled i o ∈ s.effects) ∧ (k.done = false → ∀ c f, .result i c f ∉ s.effects)
  commands : ∀ i c call, .invoked i c call ∈ s.effects → i < s.commands.length
  other : ∀ (k c : Nat), s.others[k]? = some (some c) → .taken k c ∈ s.effects
  others : ∀ k c, .taken k c ∈ s.effects → k < s.others.length

/-- What is known of the connection. -/
structure Connecting (s : State) : Prop where
  one : live s = if s.running then 1 else 0
  generations : ∀ k, some k ∈ s.connects → k.generation ≤ s.generation
  version : ∀ v, s.openCodeVersion = some v → v ≠ []
  known : s.socket.isSome → s.openCodeVersion.isSome
  unknown : ∀ k, some k ∈ s.connects → k.generation = s.generation → s.openCodeVersion = none

structure Inv (s : State) : Prop where
  agrees : Agrees O s
  calls : Calls s
  connecting : Connecting s

end

section
variable {O : Options} {s s' : State}

theorem Agrees.isRunning (h : Agrees O s) (hr : s.running = true) : Running s.effects :=
  lastWrite_of_getD (h.running.trans hr) (by decide)

theorem Agrees.notRunning (h : Agrees O s) (hr : s.running = false) : ¬ Running s.effects := by
  intro hw
  have hrun := h.running
  rw [hw, hr] at hrun
  cases hrun

theorem Agrees.isCurrent (h : Agrees O s) {c : Nat} (hc : s.socket = some c) : Current s.effects c :=
  lastWrite_of_getD (h.socket.trans hc) (by simp)

theorem Agrees.noSocket (h : Agrees O s) (hc : s.socket = none) : NoSocket s.effects := by
  intro c hw
  have hsock := h.socket
  rw [hw, hc] at hsock
  cases hsock

theorem Agrees.isPending (h : Agrees O s) (ht : s.reconnectTimer = true) : Pending s.effects :=
  lastWrite_of_getD (h.timer.trans ht) (by decide)

theorem Agrees.notPending (h : Agrees O s) (ht : s.reconnectTimer = false) : ¬ Pending s.effects := by
  intro hw
  have htimer := h.timer
  rw [hw, ht] at htimer
  cases htimer

theorem Agrees.isRegistered (h : Agrees O s) (hr : s.registered = true) : Registered s.effects :=
  lastWrite_of_getD (h.registered.trans hr) (by decide)

/-- One more effect, and the registers it writes. -/
theorem Agrees.emit (h : Agrees O s) (e : Effect) (heff : s'.effects = s.effects ++ [e]) (hj : Justified O s.effects e)
    (hrunning : s'.running = (runningW e).getD s.running) (hsocket : s'.socket = (socketW e).getD s.socket)
    (htimer : s'.reconnectTimer = (timerW e).getD s.reconnectTimer)
    (hregistered : s'.registered = (registeredW e).getD s.registered) (hsockets : s.sockets ≤ s'.sockets)
    (hopened : ∀ c, e = .opened c → c < s'.sockets)
    (hquiet : s'.running = false → s'.socket = none ∧ s'.reconnectTimer = false)
    (hreg : s'.registered = true → s'.socket.isSome) : Agrees O s' := by
  have hread : ∀ {β : Type} (w : Effect → Option β) (d : β),
      (lastWrite w s'.effects).getD d = (w e).getD ((lastWrite w s.effects).getD d) := by
    intro β w d
    rw [heff, lastWrite_snoc]
    cases w e <;> rfl
  refine ⟨?_, ?_, ?_, ?_, heff ▸ h.traced.snoc hj, fun c hc => ?_, hquiet, hreg⟩
  · rw [hread, h.running, hrunning]
  · rw [hread, h.socket, hsocket]
  · rw [hread, h.timer, htimer]
  · rw [hread, h.registered, hregistered]
  · rw [heff] at hc
    rcases List.mem_append.mp hc with hc | hc
    · exact Nat.lt_of_lt_of_le (h.sockets c hc) hsockets
    · exact hopened c (List.mem_singleton.mp hc).symm

/-- Where no effect comes and no register changes. -/
theorem Agrees.same (h : Agrees O s) (heff : s'.effects = s.effects) (hrunning : s'.running = s.running)
    (hsocket : s'.socket = s.socket) (htimer : s'.reconnectTimer = s.reconnectTimer)
    (hregistered : s'.registered = s.registered)
    (hsockets : s'.sockets = s.sockets) : Agrees O s' := by
  refine ⟨?_, ?_, ?_, ?_, heff ▸ h.traced, fun c hc => ?_, ?_, ?_⟩
  · rw [heff, h.running, hrunning]
  · rw [heff, h.socket, hsocket]
  · rw [heff, h.timer, htimer]
  · rw [heff, h.registered, hregistered]
  · rw [hsockets]
    exact h.sockets c (heff ▸ hc)
  · rw [hrunning, hsocket, htimer]
    exact h.quiet
  · rw [hregistered, hsocket]
    exact h.registers

/-- The effects that are not about a command or another request. -/
def Effect.ofConnection : Effect → Bool
  | .taken .. | .replied .. | .invoked .. | .settled .. | .result .. => false
  | _ => true

theorem Calls.later (h : Calls s) {es : List Effect} (heff : s'.effects = s.effects ++ es)
    (hes : ∀ e ∈ es, e.ofConnection = true)
    (hcommands : s'.commands = s.commands) (hothers : s'.others = s.others) : Calls s' := by
  have old : ∀ {e : Effect}, e.ofConnection = false → e ∈ s'.effects → e ∈ s.effects := by
    intro e he hmem
    rw [heff] at hmem
    refine (List.mem_append.mp hmem).resolve_right fun hnew => ?_
    rw [hes e hnew] at he
    cases he
  have new : ∀ {e : Effect}, e ∈ s.effects → e ∈ s'.effects := fun hmem => heff ▸ List.mem_append_left _ hmem
  refine ⟨fun i k hk => ?_, fun i c call hmem => ?_, fun k c hk => ?_, fun k c hmem => ?_⟩
  · rw [hcommands] at hk
    obtain ⟨hinv, hopen, hset, hdone⟩ := h.command i k hk
    exact ⟨new hinv, fun hn o hmem => hopen hn o (old rfl hmem), fun o ho => new (hset o ho),
      fun hd c f hmem => hdone hd c f (old rfl hmem)⟩
  · rw [hcommands]
    exact h.commands i c call (old rfl hmem)
  · rw [hothers] at hk
    exact new (h.other k c hk)
  · rw [hothers]
    exact h.others k c (old rfl hmem)

theorem Calls.same (h : Calls s) (heff : s'.effects = s.effects) (hcommands : s'.commands = s.commands)
    (hothers : s'.others = s.others) : Calls s' := by
  refine @Calls.later _ _ h [] (heff.trans (List.append_nil _).symm) (fun e he => ?_) hcommands hothers
  cases he

theorem Calls.emit (h : Calls s) (e : Effect) (heff : s'.effects = s.effects ++ [e]) (he : e.ofConnection = true)
    (hcommands : s'.commands = s.commands) (hothers : s'.others = s.others) : Calls s' := by
  refine h.later heff (fun e' he' => ?_) hcommands hothers
  rw [List.mem_singleton.mp he']
  exact he

end

/-! ## The connection -/

/-- The channel runs, with nothing on its way. -/
structure Idle (O : Options) (s : State) : Prop where
  agrees : Agrees O s
  calls : Calls s
  running : s.running = true
  idle : live s = 0
  generations : ∀ k, some k ∈ s.connects → k.generation ≤ s.generation
  version : ∀ v, s.openCodeVersion = some v → v ≠ []

section
variable {O : Options} {s : State}

theorem Idle.socket (h : Idle O s) : s.socket = none := by
  have hl := h.idle
  cases hs : s.socket with
  | none => rfl
  | some c =>
    simp only [live, hs, Option.isSome_some, if_true] at hl
    omega

theorem Idle.timer (h : Idle O s) : s.reconnectTimer = false := by
  have hl := h.idle
  cases ht : s.reconnectTimer with
  | false => rfl
  | true =>
    simp only [live, ht, if_true] at hl
    omega

theorem Idle.stale (h : Idle O s) : s.connects.countP (isLive s.generation) = 0 := by
  have hl := h.idle
  simp only [live] at hl
  omega

theorem Idle.noLive (h : Idle O s) {k : Connect} (hk : some k ∈ s.connects) : k.generation ≠ s.generation := by
  intro heq
  exact List.countP_eq_zero.mp h.stale (some k) hk (by simp [isLive, heq])

theorem inv_scheduleReconnect (h : Idle O s) : Inv O s.scheduleReconnect := by
  rw [State.scheduleReconnect, if_neg (by simp [h.running, h.timer])]
  refine ⟨?_, h.calls.emit _ rfl rfl rfl rfl, ?_, h.generations, h.version, ?_, ?_⟩
  · refine h.agrees.emit (.scheduled _) rfl
      ⟨h.agrees.isRunning h.running, h.agrees.noSocket h.socket, h.agrees.notPending h.timer⟩
      rfl rfl rfl rfl (Nat.le_refl _) (by simp) ?_ h.agrees.registers
    intro hr
    exact absurd (h.running.symm.trans hr) (by simp)
  · have hstale := h.stale
    simp [live, State.emit, hstale, h.socket, h.running]
  · simp [State.emit, h.socket]
  · exact fun k hk heq => absurd heq (h.noLive hk)

theorem inv_openSocket (h : Idle O s) (hv : s.openCodeVersion.isSome) (thrown : Bool) :
    Inv O (s.openSocket s.generation thrown) := by
  rw [State.openSocket, if_neg (by simp [h.running, h.socket])]
  split
  · exact inv_scheduleReconnect h
  · refine ⟨?_, h.calls.emit _ rfl rfl rfl rfl, ?_, h.generations, h.version, fun _ => hv, ?_⟩
    · refine h.agrees.emit (.opened s.sockets) rfl ⟨h.agrees.isRunning h.running, h.agrees.noSocket h.socket,
        h.agrees.notPending h.timer, fun hmem => absurd (h.agrees.sockets _ hmem) (Nat.lt_irrefl _)⟩ rfl rfl rfl rfl
        (Nat.le_succ _) (fun c hc => ?_) ?_ (by simp [State.emit])
      · cases hc
        exact Nat.lt_succ_self _
      · intro hr
        exact absurd (h.running.symm.trans hr) (by simp)
    · have hstale := h.stale
      simp [live, State.emit, hstale, h.timer, h.running]
    · exact fun k hk heq => absurd heq (h.noLive hk)

theorem inv_connect (S : Seams) (h : Idle O s) (thrown : Bool) : Inv O (s.connect S thrown) := by
  rw [State.connect, if_neg (by simp [h.running, h.socket])]
  split
  · refine ⟨h.agrees.same rfl rfl rfl rfl rfl rfl, h.calls.same rfl rfl rfl, ?_, fun k hk => ?_, by simp,
      by simp [h.socket], fun _ _ _ => rfl⟩
    · have hstale := h.stale
      simp [live, List.countP_append, hstale, h.socket, h.timer, h.running, isLive]
    · rcases List.mem_append.mp hk with hk | hk
      · exact h.generations k hk
      · cases List.mem_singleton.mp hk
        exact Nat.le_refl _
  · rename_i hv
    refine inv_openSocket h ?_ thrown
    rw [Option.isSome_iff_ne_none]
    exact fun hnone => hv (Or.inl hnone)

/-- What a channel with a socket has, it has once. -/
theorem Inv.withSocket (h : Inv O s) {c : Nat} (hc : s.socket = some c) :
    s.running = true ∧ s.connects.countP (isLive s.generation) = 0 ∧ s.reconnectTimer = false := by
  have hr : s.running = true := by
    by_contra hr
    rw [(h.agrees.quiet (by simpa using hr)).1] at hc
    cases hc
  have hone := h.connecting.one
  rw [if_pos hr] at hone
  simp only [live, hc, Option.isSome_some, if_true] at hone
  refine ⟨hr, by omega, ?_⟩
  cases ht : s.reconnectTimer with
  | false => rfl
  | true =>
    rw [ht, if_pos rfl] at hone
    omega

theorem inv_drop (h : Inv O s) (c : Nat) : Inv O (s.drop c) := by
  unfold State.drop
  split
  · rename_i hc
    obtain ⟨hr, hcount, htimer⟩ := h.withSocket hc
    refine inv_scheduleReconnect ⟨?_, h.calls.emit _ rfl rfl rfl rfl, hr, ?_, h.connecting.generations,
      h.connecting.version⟩
    · refine h.agrees.emit (.dropped c) rfl ⟨h.agrees.isRunning hr, h.agrees.isCurrent hc⟩ rfl rfl rfl rfl
        (Nat.le_refl _)
        (by simp) ?_ (by simp [State.emit])
      intro hr'
      exact absurd (hr.symm.trans hr') (by simp)
    · simp [live, State.emit, hcount, htimer]
  · exact h

theorem inv_stop (h : Inv O s) : Inv O s.stop := by
  have hold : s.connects.countP (isLive (s.generation + 1)) = 0 := by
    rw [List.countP_eq_zero]
    intro k hk
    cases k with
    | none => simp [isLive]
    | some k =>
      have := h.connecting.generations k hk
      simp only [isLive, beq_iff_eq]
      omega
  refine ⟨?_, h.calls.emit _ rfl rfl rfl rfl, ?_, fun k hk => ?_, h.connecting.version, ?_, fun k hk heq => ?_⟩
  · exact h.agrees.emit .stopped rfl trivial rfl rfl rfl rfl (Nat.le_refl _) (by simp)
      (by simp [State.stop, State.emit])
      (by simp [State.stop, State.emit])
  · simp [live, State.stop, State.emit, hold]
  · exact Nat.le_succ_of_le (h.connecting.generations k hk)
  · simp [State.stop, State.emit]
  · have := h.connecting.generations k hk
    simp only [State.stop, State.emit] at heq
    omega

theorem inv_start (S : Seams) (h : Inv O s) (thrown : Bool) : Inv O (s.start S thrown) := by
  unfold State.start
  split
  · exact h
  · rename_i hr
    rw [Bool.not_eq_true] at hr
    obtain ⟨hsocket, htimer⟩ := h.agrees.quiet hr
    have hidle : Idle O (({ s with running := true } : State).emit .started) := by
      refine ⟨?_, h.calls.emit .started rfl rfl rfl rfl, rfl, ?_, h.connecting.generations, h.connecting.version⟩
      · exact h.agrees.emit .started rfl (h.agrees.notRunning hr) rfl rfl rfl rfl (Nat.le_refl _) (by simp)
          (by simp [State.emit]) h.agrees.registers
      · have hone := h.connecting.one
        rw [hr] at hone
        exact hone
    exact inv_connect S hidle thrown

theorem inv_timerFires (S : Seams) (h : Inv O s) (thrown : Bool) : Inv O (s.timerFires S thrown) := by
  unfold State.timerFires
  split
  · rename_i ht
    have hr : s.running = true := by
      by_contra hr
      rw [(h.agrees.quiet (by simpa using hr)).2] at ht
      cases ht
    have hone := h.connecting.one
    rw [if_pos hr] at hone
    simp only [live, ht, if_true] at hone
    have hidle : Idle O (({ s with reconnectTimer := false } : State).emit .fired) := by
      refine ⟨?_, h.calls.emit .fired rfl rfl rfl rfl, hr, ?_, h.connecting.generations, h.connecting.version⟩
      · refine h.agrees.emit .fired rfl ⟨h.agrees.isRunning hr, h.agrees.isPending ht⟩ rfl rfl rfl rfl
          (Nat.le_refl _) (by simp) ?_
          h.agrees.registers
        intro hr'
        exact absurd (hr.symm.trans hr') (by simp)
      · show s.connects.countP (isLive s.generation) + (if s.socket.isSome then 1 else 0) + 0 = 0
        omega
    exact inv_connect S hidle thrown
  · exact h

end

/-! ## A `connect` on its way -/

section
variable {O : Options} {s : State}

theorem countP_set_none {l : List (Option Connect)} {i : Nat} {k : Connect} (h : l[i]? = some (some k))
    (generation : Nat) :
    (l.set i none).countP (isLive generation) + (if k.generation = generation then 1 else 0) =
      l.countP (isLive generation) := by
  have hc := countP_modify (f := fun _ => none) (isLive generation) h
  rw [List.modify_eq_set_getElem?, h] at hc
  simpa [isLive] using hc

theorem countP_set_some {l : List (Option Connect)} {i : Nat} {k k' : Connect} (h : l[i]? = some (some k))
    (hk : k'.generation = k.generation) (generation : Nat) :
    (l.set i (some k')).countP (isLive generation) = l.countP (isLive generation) := by
  have hc := countP_modify (f := fun _ => some k') (isLive generation) h
  rw [List.modify_eq_set_getElem?, h] at hc
  simpa [isLive, hk] using hc

theorem mem_set_none {l : List (Option Connect)} {i : Nat} {k : Connect} (h : some k ∈ l.set i none) : some k ∈ l := by
  rcases List.mem_or_eq_of_mem_set h with h | h
  · exact h
  · cases h

/-- A `connect` of an earlier generation ends. -/
theorem inv_endStale (h : Inv O s) {i : Nat} {k : Connect} (hk : s.connects[i]? = some (some k))
    (hstale : s.running = false ∨ k.generation ≠ s.generation) :
    Inv O { s with connects := s.connects.set i none } := by
  have hne : k.generation ≠ s.generation := by
    rcases hstale with hr | hne
    · have hone := h.connecting.one
      rw [hr] at hone
      simp only [live, Bool.false_eq_true, if_false] at hone
      have hzero : s.connects.countP (isLive s.generation) = 0 := by omega
      intro heq
      exact List.countP_eq_zero.mp hzero (some k) (List.mem_of_getElem? hk) (by simp [isLive, heq])
    · exact hne
  refine ⟨h.agrees.same rfl rfl rfl rfl rfl rfl, h.calls.same rfl rfl rfl, ?_,
    fun k' hk' => h.connecting.generations k' (mem_set_none hk'), h.connecting.version, h.connecting.known,
    fun k' hk' => h.connecting.unknown k' (mem_set_none hk')⟩
  have hcount := countP_set_none hk s.generation
  rw [if_neg hne, Nat.add_zero] at hcount
  have hone := h.connecting.one
  simp only [live, hcount] at hone ⊢
  exact hone

/-- What a `connect` of this generation leaves when it ends. -/
theorem Inv.endLive (h : Inv O s) {i : Nat} {k : Connect} (hk : s.connects[i]? = some (some k)) (hr : s.running = true)
    (hgen : k.generation = s.generation) {version : JsString} (hv : version ≠ []) :
    Idle O { s with connects := s.connects.set i none, openCodeVersion := some version } := by
  refine ⟨h.agrees.same rfl rfl rfl rfl rfl rfl, h.calls.same rfl rfl rfl, hr, ?_,
    fun k' hk' => h.connecting.generations k' (mem_set_none hk'), fun v hv' => ?_⟩
  · have hcount := countP_set_none hk s.generation
    rw [if_pos hgen] at hcount
    have hone := h.connecting.one
    rw [if_pos hr] at hone
    simp only [live] at hone ⊢
    omega
  · cases hv'
    exact hv

theorem inv_setConnect (h : Inv O s) {i : Nat} {k k' : Connect} (hk : s.connects[i]? = some (some k))
    (hgen : k'.generation = k.generation) : Inv O { s with connects := s.connects.set i (some k') } := by
  have hmem : ∀ j, some j ∈ s.connects.set i (some k') → ∃ j', some j' ∈ s.connects ∧ j'.generation = j.generation := by
    intro j hj
    rcases List.mem_or_eq_of_mem_set hj with hj | hj
    · exact ⟨j, hj, rfl⟩
    · cases hj
      exact ⟨k, List.mem_of_getElem? hk, hgen.symm⟩
  refine ⟨h.agrees.same rfl rfl rfl rfl rfl rfl, h.calls.same rfl rfl rfl, ?_, fun j hj => ?_,
    h.connecting.version, h.connecting.known, fun j hj heq => ?_⟩
  · have hone := h.connecting.one
    simp only [live, countP_set_some hk hgen] at hone ⊢
    exact hone
  · obtain ⟨j', hj', heq⟩ := hmem j hj
    exact heq ▸ h.connecting.generations j' hj'
  · obtain ⟨j', hj', heq'⟩ := hmem j hj
    exact h.connecting.unknown j' hj' (heq'.trans heq)

theorem resolved_ne {version : Option JsString} {v : JsString} (h : State.resolved version = some v) : v ≠ [] := by
  have hv := (Option.filter_eq_some_iff.mp h).2
  simp only [Bool.and_eq_true, Bool.not_eq_true', List.isEmpty_eq_false_iff] at hv
  exact hv.1

theorem inv_probed (h : Inv O s) (i : Nat) (version : Option JsString) (thrown : Bool) :
    Inv O (s.probed i version thrown) := by
  unfold State.probed
  split
  · rename_i k hk
    split
    · exact h
    · split
      · exact inv_endStale h hk ‹_›
      · rename_i hfresh
        rw [not_or, Bool.not_eq_false, not_not] at hfresh
        obtain ⟨hr, hgen⟩ := hfresh
        split
        · rename_i v hv
          rw [hgen]
          exact inv_openSocket (h.endLive hk hr hgen (resolved_ne hv)) rfl thrown
        · split
          · rw [hgen]
            exact inv_openSocket (h.endLive hk hr hgen (by decide)) rfl thrown
          · exact inv_setConnect h hk rfl
  · exact h

theorem openSocket_stale {s : State} {generation : Nat} {thrown : Bool}
    (h : s.running = false ∨ generation ≠ s.generation) : s.openSocket generation thrown = s := by
  rw [State.openSocket, if_pos (by rcases h with h | h <;> simp [h])]

theorem inv_waited (h : Inv O s) (i : Nat) (thrown : Bool) : Inv O (s.waited i thrown) := by
  unfold State.waited
  split
  · rename_i k hk
    split
    · exact h
    · split
      · exact inv_setConnect h hk rfl
      · rename_i hover
        have hstale : s.running = false ∨ k.generation ≠ s.generation := by
          by_contra hn
          rw [not_or, Bool.not_eq_false, not_not] at hn
          have hnone := h.connecting.unknown k (List.mem_of_getElem? hk) hn.2
          exact hover (by simp [hn.1, hn.2, hnone])
        have hsame : ({ s with connects := s.connects.set i none } : State).openSocket k.generation thrown =
            { s with connects := s.connects.set i none } := openSocket_stale hstale
        rw [hsame]
        exact inv_endStale h hk hstale
  · exact h

/-- Fields that only the probe and the backoff read may change. -/
theorem inv_quiet (h : Inv O s) (attempt : Nat) (retries : List Nat) : Inv O { s with attempt, retries } :=
  ⟨h.agrees.same rfl rfl rfl rfl rfl rfl, h.calls.same rfl rfl rfl,
    ⟨h.connecting.one, h.connecting.generations, h.connecting.version, h.connecting.known, h.connecting.unknown⟩⟩

theorem holds_spec {s : State} {c : Nat} (h : s.holds c = true) : s.running = true ∧ s.socket = some c := by
  simpa [State.holds] using h

/-- An effect that writes no register. -/
theorem Inv.emit (h : Inv O s) {e : Effect} (he : e.ofConnection = true)
    (hw : runningW e = none ∧ socketW e = none ∧ timerW e = none ∧ registeredW e = none)
    (hj : Justified O s.effects e) :
    Inv O (s.emit e) := by
  refine ⟨h.agrees.emit e rfl hj ?_ ?_ ?_ ?_ (Nat.le_refl _) (fun c hc => ?_) h.agrees.quiet h.agrees.registers,
    h.calls.emit e rfl he rfl rfl,
    ⟨h.connecting.one, h.connecting.generations, h.connecting.version, h.connecting.known, h.connecting.unknown⟩⟩
  · rw [hw.1]
    rfl
  · rw [hw.2.1]
    rfl
  · rw [hw.2.2.1]
    rfl
  · rw [hw.2.2.2]
    rfl
  · rw [hc] at hw
    cases hw.2.1

theorem inv_opened (h : Inv O s) (c : Nat) (webUiAvailable thrown : Bool) :
    Inv O (s.opened O c webUiAvailable thrown) := by
  unfold State.opened
  split
  · exact h
  · rename_i hholds
    obtain ⟨hr, hc⟩ := holds_spec (by simpa using hholds)
    have hq := inv_quiet h 0 s.retries
    split
    · exact inv_drop hq c
    · obtain ⟨v, hv⟩ := Option.isSome_iff_exists.mp (h.connecting.known (by simp [hc]))
      refine hq.emit rfl ⟨rfl, rfl, rfl, rfl⟩
        ⟨hq.agrees.isRunning hr, hq.agrees.isCurrent hc, v, webUiAvailable, h.connecting.version v hv, ?_⟩
      simp [State.registration, hv]

theorem inv_closed (h : Inv O s) (c : Nat) (code : Option Nat) : Inv O (s.closed c code) := by
  unfold State.closed
  split
  · split
    · exact inv_stop (inv_quiet h s.attempt _)
    · exact inv_quiet h s.attempt _
  · exact inv_drop (inv_quiet h s.attempt _) c

theorem inv_retry (h : Inv O s) (c : Nat) : Inv O (s.retry c) := by
  unfold State.retry
  split
  · split
    · exact inv_drop (inv_quiet h s.attempt _) c
    · exact inv_quiet h s.attempt _
  · exact h

end

/-! ## Commands and requests -/

section
variable {O : Options} {s : State}

theorem connecting_same {s s' : State} (h : Connecting s) (hrunning : s'.running = s.running)
    (hsocket : s'.socket = s.socket)
    (htimer : s'.reconnectTimer = s.reconnectTimer) (hgeneration : s'.generation = s.generation)
    (hversion : s'.openCodeVersion = s.openCodeVersion) (hconnects : s'.connects = s.connects) : Connecting s' := by
  refine ⟨?_, ?_, ?_, ?_, ?_⟩
  · have hone := h.one
    rw [live, hconnects, hgeneration, hsocket, htimer, hrunning]
    exact hone
  · rw [hconnects, hgeneration]
    exact h.generations
  · rw [hversion]
    exact h.version
  · rw [hsocket, hversion]
    exact h.known
  · rw [hconnects, hgeneration, hversion]
    exact h.unknown

/-- A settled race, a result: the command had begun. -/
theorem begun_settled (h : Traced (Justified O) s.effects) {i : Nat} {o : Outcome} (hs : .settled i o ∈ s.effects) :
    ∃ c call, .invoked i c call ∈ s.effects := by
  obtain ⟨before, after, heq, ⟨c, call, hinv⟩, -⟩ := h.of_mem hs
  exact ⟨c, call, heq ▸ List.mem_append_left _ hinv⟩

theorem begun_result (h : Traced (Justified O) s.effects) {i c : Nat} {f : ResultFrame}
    (hr : .result i c f ∈ s.effects) :
    ∃ c' call, .invoked i c' call ∈ s.effects := by
  obtain ⟨before, after, heq, -, -, -, call, outcome, -, hs, -⟩ := h.of_mem hr
  exact begun_settled h (heq ▸ List.mem_append_left _ hs)

theorem inv_registration (h : Inv O s) {c : Nat} (hr : s.running = true) (hc : s.socket = some c) :
    Inv O (({ s with registered := true } : State).emit (.registered c)) := by
  refine ⟨?_, h.calls.emit (.registered c) rfl rfl rfl rfl, connecting_same h.connecting rfl rfl rfl rfl rfl rfl⟩
  refine h.agrees.emit (.registered c) rfl ⟨h.agrees.isRunning hr, h.agrees.isCurrent hc⟩ rfl rfl rfl rfl
    (Nat.le_refl _) (by simp)
    h.agrees.quiet fun _ => ?_
  simp [State.emit, hc]

/-- An effect about a command or a request writes no register. -/
theorem agrees_emit {s s' : State} (h : Agrees O s) {e : Effect} (he : e.ofConnection = false)
    (heff : s'.effects = s.effects ++ [e])
    (hj : Justified O s.effects e) (hrunning : s'.running = s.running) (hsocket : s'.socket = s.socket)
    (htimer : s'.reconnectTimer = s.reconnectTimer) (hregistered : s'.registered = s.registered)
    (hsockets : s'.sockets = s.sockets) :
    Agrees O s' := by
  have hw : runningW e = none ∧ socketW e = none ∧ timerW e = none ∧ registeredW e = none ∧ ∀ c, e ≠ .opened c := by
    cases e <;> first | exact ⟨rfl, rfl, rfl, rfl, by simp⟩ | cases he
  refine h.emit e heff hj ?_ ?_ ?_ ?_ (by omega) (fun c hc => absurd hc (hw.2.2.2.2 c)) ?_ ?_
  · rw [hw.1, hrunning]
    rfl
  · rw [hw.2.1, hsocket]
    rfl
  · rw [hw.2.2.1, htimer]
    rfl
  · rw [hw.2.2.2.1, hregistered]
    rfl
  · rw [hrunning, hsocket, htimer]
    exact h.quiet
  · rw [hregistered, hsocket]
    exact h.registers

/-- A command begins; its race may be over at once. -/
theorem inv_invoke (h : Inv O s) {c : Nat} (hr : s.running = true) (hc : s.socket = some c)
    (hreg : s.registered = true) (call : Call) :
    Inv O (({ s with commands := s.commands ++ [⟨c, call, s.now, none, false⟩] } : State).emit
      (.invoked s.commands.length c call)) := by
  have hnew : ∀ c' call', .invoked s.commands.length c' call' ∉ s.effects :=
    fun c' call' hmem => absurd (h.calls.commands _ _ _ hmem) (Nat.lt_irrefl _)
  refine ⟨?_, ⟨fun i k hk => ?_, fun i c' call' hmem => ?_, fun k c' hk => ?_, fun k c' hmem => ?_⟩,
    connecting_same h.connecting rfl rfl rfl rfl rfl rfl⟩
  · exact agrees_emit h.agrees rfl rfl
      ⟨h.agrees.isRunning hr, h.agrees.isCurrent hc, h.agrees.isRegistered hreg, hnew⟩ rfl rfl rfl rfl rfl
  · rcases getElem_snoc.mp hk with hk | ⟨rfl, rfl⟩
    · obtain ⟨hinv, hopen, hset, hdone⟩ := h.calls.command i k hk
      refine ⟨List.mem_append_left _ hinv, fun hn o hmem => ?_, fun o ho => List.mem_append_left _ (hset o ho),
        fun hd c' f hmem => ?_⟩
      · exact hopen hn o (by simpa [State.emit] using hmem)
      · exact hdone hd c' f (by simpa [State.emit] using hmem)
    · refine ⟨by simp [State.emit], fun _ o hmem => ?_, by simp, fun _ c' f hmem => ?_⟩
      · obtain ⟨c', call', hinv⟩ :=
          begun_settled h.agrees.traced (i := s.commands.length) (o := o) (by simpa [State.emit] using hmem)
        exact hnew c' call' hinv
      · obtain ⟨c'', call', hinv⟩ := begun_result h.agrees.traced (i := s.commands.length) (c := c') (f := f)
          (by simpa [State.emit] using hmem)
        exact hnew c'' call' hinv
  · simp only [State.emit, List.length_append, List.length_singleton]
    rcases List.mem_append.mp hmem with hmem | hmem
    · exact Nat.lt_succ_of_lt (h.calls.commands i c' call' hmem)
    · cases List.mem_singleton.mp hmem
      exact Nat.lt_succ_self _
  · exact List.mem_append_left _ (h.calls.other k c' hk)
  · exact h.calls.others k c' (by simpa [State.emit] using hmem)

/-- Command `i` goes on, with one effect of its own. -/
theorem inv_command (h : Inv O s) {i : Nat} {k : Command} (hk : s.commands[i]? = some k) (k' : Command)
    (hsame : k'.socket = k.socket ∧ k'.call = k.call) (e : Effect) (he : e.ofConnection = false)
    (hj : Justified O s.effects e) (hi : ∀ j c call, e ≠ .invoked j c call)
    (ht : ∀ j c, e ≠ .taken j c) (hother : ∀ j, j ≠ i → (∀ o, e ≠ .settled j o) ∧ ∀ c f, e ≠ .result j c f)
    (hopen : k'.outcome = none → ∀ o, .settled i o ∉ s.effects ++ [e])
    (hset : ∀ o, k'.outcome = some o → .settled i o ∈ s.effects ++ [e])
    (hdone : k'.done = false → ∀ c f, .result i c f ∉ s.effects ++ [e]) :
    Inv O (({ s with commands := s.commands.set i k' } : State).emit e) := by
  have old : ∀ {e'}, e' ≠ e → e' ∈ s.effects ++ [e] → e' ∈ s.effects := by
    intro e' hne hmem
    exact (List.mem_append.mp hmem).resolve_right fun hm => hne (List.mem_singleton.mp hm)
  refine ⟨agrees_emit h.agrees he rfl hj rfl rfl rfl rfl rfl,
    ⟨fun j k'' hj' => ?_, fun j c call hmem => ?_, fun j c hj' => ?_,
    fun j c hmem => ?_⟩, connecting_same h.connecting rfl rfl rfl rfl rfl rfl⟩
  · rcases (getElem_set hk).mp hj' with ⟨rfl, rfl⟩ | ⟨hne, hj'⟩
    · obtain ⟨hinv, -⟩ := h.calls.command i k hk
      rw [hsame.1, hsame.2]
      exact ⟨List.mem_append_left _ hinv, hopen, hset, hdone⟩
    · obtain ⟨hinv, hopen', hset', hdone'⟩ := h.calls.command j k'' hj'
      obtain ⟨hns, hnr⟩ := hother j (Ne.symm hne)
      exact ⟨List.mem_append_left _ hinv, fun hn o hmem => hopen' hn o (old (hns o).symm hmem),
        fun o ho => List.mem_append_left _ (hset' o ho), fun hd c f hmem => hdone' hd c f (old (hnr c f).symm hmem)⟩
  · simp only [State.emit, List.length_set]
    exact h.calls.commands j c call (old (hi j c call).symm hmem)
  · exact List.mem_append_left _ (h.calls.other j c hj')
  · exact h.calls.others j c (old (ht j c).symm hmem)

theorem inv_settle (h : Inv O s) (i : Nat) (outcome : Outcome) : Inv O (s.settle i outcome) := by
  unfold State.settle
  split
  · rename_i k hk
    split
    · exact h
    · rename_i hnone
      obtain ⟨hinv, hopen, -, hdone⟩ := h.calls.command i k hk
      have hnew := hopen (by simpa using hnone)
      refine inv_command h hk { k with outcome := some outcome } ⟨rfl, rfl⟩ (.settled i outcome) rfl
        ⟨⟨k.socket, k.call, hinv⟩, hnew⟩ (by simp) (by simp) (fun j hne => ⟨fun o heq => ?_, by simp⟩)
        (by simp) (fun o ho => ?_) (fun hd c f hmem => hdone hd c f (by simpa using hmem))
      · cases heq
        exact hne rfl
      · cases ho
        simp
  · exact h

theorem inv_commandTimeout (S : Seams) (h : Inv O s) (i : Nat) : Inv O (s.commandTimeout S i) := by
  unfold State.commandTimeout
  split
  · split
    · exact inv_settle h i .timer
    · exact h
  · exact h

theorem inv_finish (h : Inv O s) (i : Nat) (thrown : Bool) : Inv O (s.finish O i thrown) := by
  unfold State.finish
  split
  · rename_i c call startedAt outcome hk
    obtain ⟨hinv, -, hset, hdone⟩ := h.calls.command i _ hk
    have hsettled := hset outcome rfl
    have hnew := hdone rfl
    split
    · rename_i hsend
      rw [Bool.and_eq_true] at hsend
      obtain ⟨hr, hc⟩ := holds_spec hsend.1
      refine inv_command h hk ⟨c, call, startedAt, some outcome, true⟩ ⟨rfl, rfl⟩ (.result i c _) rfl
        ⟨h.agrees.isRunning hr, h.agrees.isCurrent hc, hnew, call, outcome, hinv, hsettled, rfl⟩
        (by simp) (by simp) (fun j hne => ⟨by simp, fun c' f heq => ?_⟩) (by simp) (fun o ho => ?_) (by simp)
      · cases heq
        exact hne rfl
      · cases ho
        exact List.mem_append_left _ hsettled
    · refine ⟨h.agrees.same rfl rfl rfl rfl rfl rfl,
        ⟨fun j k hj => ?_, fun j c' call' hmem => ?_, h.calls.other, h.calls.others⟩,
        connecting_same h.connecting rfl rfl rfl rfl rfl rfl⟩
      · rcases (getElem_set hk).mp hj with ⟨rfl, rfl⟩ | ⟨-, hj⟩
        · exact ⟨hinv, by simp, hset, by simp⟩
        · exact h.calls.command j k hj
      · rw [List.length_set]
        exact h.calls.commands j c' call' hmem
  · exact h

theorem inv_startCommand (S : Seams) (h : Inv O s) {c : Nat} (hr : s.running = true) (hc : s.socket = some c)
    (hreg : s.registered = true)
    (call : Call) : Inv O (s.command S c call) := by
  have hbegun := inv_invoke h hr hc hreg call
  unfold State.command
  split
  · exact hbegun
  · have hsettled := inv_settle hbegun s.commands.length .absent
    have hk : (s.commands ++ [⟨c, call, s.now, none, false⟩])[s.commands.length]? =
      some (⟨c, call, s.now, none, false⟩ : Command) :=
      List.getElem?_concat_length
    simp only [State.settle, State.emit, hk] at hsettled
    simpa [State.emit] using hsettled

theorem inv_take (h : Inv O s) {c : Nat} (hr : s.running = true) (hc : s.socket = some c)
    (hreg : s.registered = true) : Inv O (s.take c) := by
  have hnew : ∀ c', .taken s.others.length c' ∉ s.effects :=
    fun c' hmem => absurd (h.calls.others _ _ hmem) (Nat.lt_irrefl _)
  refine ⟨agrees_emit h.agrees rfl rfl
    ⟨h.agrees.isRunning hr, h.agrees.isCurrent hc, h.agrees.isRegistered hreg, hnew⟩ rfl rfl rfl rfl rfl,
    ⟨fun i k hk => ?_, fun i c' call hmem => ?_, fun k c' hk => ?_, fun k c' hmem => ?_⟩,
    connecting_same h.connecting rfl rfl rfl rfl rfl rfl⟩
  · obtain ⟨hinv, hopen, hset, hdone⟩ := h.calls.command i k hk
    exact ⟨List.mem_append_left _ hinv, fun hn o hmem => hopen hn o (by simpa [State.take, State.emit] using hmem),
      fun o ho => List.mem_append_left _ (hset o ho), fun hd c' f hmem =>
        hdone hd c' f (by simpa [State.take, State.emit] using hmem)⟩
  · exact h.calls.commands i c' call (by simpa [State.take, State.emit] using hmem)
  · rcases getElem_snoc.mp hk with hk | ⟨rfl, heq⟩
    · exact List.mem_append_left _ (h.calls.other k c' hk)
    · cases heq
      simp [State.take, State.emit]
  · simp only [State.take, State.emit, List.length_append, List.length_singleton]
    rcases List.mem_append.mp hmem with hmem | hmem
    · exact Nat.lt_succ_of_lt (h.calls.others k c' hmem)
    · cases List.mem_singleton.mp hmem
      exact Nat.lt_succ_self _

theorem inv_onServerFrame (S : Seams) (h : Inv O s) (c : Nat) (data : Option JsString) :
    Inv O (s.onServerFrame S c data) := by
  unfold State.onServerFrame
  split
  · exact h
  · rename_i hholds
    obtain ⟨hr, hc⟩ := holds_spec (by simpa using hholds)
    split
    · exact h
    · split
      · exact inv_registration h hr hc
      · split
        · exact h
        · rename_i hreg
          rw [Bool.not_eq_false] at hreg
          split
          · exact inv_startCommand S h hr hc hreg _
          · split
            · exact inv_take h hr hc hreg
            · exact h

/-- The requests that are left. -/
theorem inv_others (h : Inv O s) {others : List (Option Nat)} (hlen : others.length = s.others.length)
    (hmem : ∀ (k c : Nat), others[k]? = some (some c) → s.others[k]? = some (some c)) : Inv O { s with others } :=
  ⟨h.agrees.same rfl rfl rfl rfl rfl rfl,
    ⟨h.calls.command, h.calls.commands, fun k c hk => h.calls.other k c (hmem k c hk),
      fun k c hk => hlen ▸ h.calls.others k c hk⟩,
    connecting_same h.connecting rfl rfl rfl rfl rfl rfl⟩

theorem inv_reply (h : Inv O s) (k : Nat) (last thrown : Bool) : Inv O (s.reply k last thrown) := by
  unfold State.reply
  split
  · rename_i c hk
    have hleft : Inv O { s with others := if last then s.others.set k none else s.others } := by
      refine inv_others h (by split <;> simp) fun j c' hj => ?_
      split at hj
      · rcases (getElem_set hk).mp hj with ⟨-, heq⟩ | ⟨-, hj⟩
        · cases heq
        · exact hj
      · exact hj
    split
    · rename_i hsend
      rw [Bool.and_eq_true] at hsend
      obtain ⟨hr, hc⟩ := holds_spec hsend.1
      have htaken := h.calls.other k c hk
      refine ⟨agrees_emit hleft.agrees rfl rfl ⟨h.agrees.isRunning hr, h.agrees.isCurrent hc, htaken⟩
        rfl rfl rfl rfl rfl,
        ⟨fun i q hq => ?_, fun i c' call hmem => ?_, fun j c' hj => ?_, fun j c' hmem => ?_⟩,
        connecting_same hleft.connecting rfl rfl rfl rfl rfl rfl⟩
      · obtain ⟨hinv, hopen, hset, hdone⟩ := h.calls.command i q hq
        exact ⟨List.mem_append_left _ hinv, fun hn o hmem => hopen hn o (by simpa [State.emit] using hmem),
          fun o ho => List.mem_append_left _ (hset o ho), fun hd c' f hmem =>
            hdone hd c' f (by simpa [State.emit] using hmem)⟩
      · exact h.calls.commands i c' call (by simpa [State.emit] using hmem)
      · exact List.mem_append_left _ (hleft.calls.other j c' hj)
      · exact hleft.calls.others j c' (by simpa [State.emit] using hmem)
    · exact hleft
  · exact h

theorem inv_init (now : Nat) : Inv O (init now) := by
  refine ⟨⟨rfl, rfl, rfl, rfl, traced_nil, ?_, ?_, ?_⟩, ⟨?_, ?_, ?_, ?_⟩, ⟨rfl, ?_, ?_, ?_, ?_⟩⟩ <;> simp [init]

theorem inv_step (S : Seams) (s : State) (e : Event) (h : Inv O s) : Inv O (step O S s e) := by
  cases e with
  | start thrown => exact inv_start S h thrown
  | stop => exact inv_stop h
  | probed i version thrown => exact inv_probed h i version thrown
  | waited i thrown => exact inv_waited h i thrown
  | timerFires thrown => exact inv_timerFires S h thrown
  | opened c webUiAvailable thrown => exact inv_opened h c webUiAvailable thrown
  | closed c code => exact inv_closed h c code
  | error c => exact inv_drop h c
  | message c data => exact inv_onServerFrame S h c data
  | retry c => exact inv_retry h c
  | seamSettles i status => exact inv_settle h i (.seam status)
  | commandTimeout i => exact inv_commandTimeout S h i
  | finish i thrown => exact inv_finish h i thrown
  | reply k last thrown => exact inv_reply h k last thrown
  | advance ms =>
    exact ⟨h.agrees.same rfl rfl rfl rfl rfl rfl, h.calls.same rfl rfl rfl,
      connecting_same h.connecting rfl rfl rfl rfl rfl rfl⟩

theorem inv_run (S : Seams) (now : Nat) (es : List Event) : Inv O (run O S now es) :=
  runFrom_inv (inv_step S) (inv_init now) es

end

/-- The socket whose listener, or whose timer, an event is. -/
def Event.socket? : Event → Option Nat
  | .opened c _ _ | .closed c _ | .error c | .message c _ | .retry c => some c
  | _ => none

/-- An event of a socket that is not the current one takes its timer away, if it does anything. -/
theorem step_stale {O : Options} {S : Seams} {s : State} {e : Event} {c : Nat} (he : e.socket? = some c)
    (hc : s.socket ≠ some c) :
    step O S s e = s ∨ step O S s e = { s with retries := s.retries.filter (· ≠ c) } := by
  have hholds : s.holds c = false := by
    rw [Bool.eq_false_iff]
    exact fun h => hc (holds_spec h).2
  cases e with
  | opened d webUiAvailable thrown =>
    cases he
    exact Or.inl (by simp [step, State.opened, hholds])
  | closed d code =>
    cases he
    refine Or.inr ?_
    simp only [step, State.closed, State.drop, if_neg hc]
    split <;> rfl
  | error d =>
    cases he
    exact Or.inl (by simp [step, State.drop, hc])
  | message d data =>
    cases he
    exact Or.inl (by simp [step, State.onServerFrame, hholds])
  | retry d =>
    cases he
    simp only [step, State.retry, hholds, Bool.false_eq_true, if_false]
    split
    · exact Or.inr rfl
    · exact Or.inl rfl
  | _ => cases he

/-! ## Commands taken -/

def Effect.invocation? : Effect → Option (Nat × Nat × Call)
  | .invoked i c call => some (i, c, call)
  | _ => none

/-- The commands that were begun, with their sockets. -/
def State.invocations (s : State) : List (Nat × Nat × Call) := s.effects.filterMap Effect.invocation?

/-- The command that an event brings: a frame of one, on the current socket of a running channel that is registered. -/
def State.commandTaken (s : State) : Event → Option (Nat × Nat × Call)
  | .message c data =>
    if s.holds c && s.registered then
      (((data.bind Json.parse).bind Json.record?).bind callOf).map fun call => (s.commands.length, c, call)
    else none
  | _ => none

section
variable (s : State)

@[simp] theorem invocations_emit (e : Effect) : (s.emit e).invocations = s.invocations ++ e.invocation?.toList := by
  rw [State.invocations, State.emit, List.filterMap_append]
  cases e <;> rfl

/-- An effect that invokes nothing leaves the invocations as they are. -/
theorem invocations_quiet {e : Effect} (h : e.invocation? = none) : (s.emit e).invocations = s.invocations := by
  rw [invocations_emit, h]
  exact List.append_nil _

@[simp] theorem invocations_scheduleReconnect : s.scheduleReconnect.invocations = s.invocations := by
  unfold State.scheduleReconnect
  split
  · rfl
  · exact invocations_quiet _ rfl

@[simp] theorem invocations_drop (c : Nat) : (s.drop c).invocations = s.invocations := by
  unfold State.drop
  split
  · rw [invocations_scheduleReconnect]
    exact invocations_quiet _ rfl
  · rfl

@[simp] theorem invocations_stop : s.stop.invocations = s.invocations := by
  rw [State.stop]
  exact invocations_quiet _ rfl

@[simp] theorem invocations_openSocket (generation : Nat) (thrown : Bool) :
    (s.openSocket generation thrown).invocations = s.invocations := by
  unfold State.openSocket
  split
  · rfl
  · split
    · exact invocations_scheduleReconnect s
    · exact invocations_quiet _ rfl

@[simp] theorem invocations_connect (S : Seams) (thrown : Bool) : (s.connect S thrown).invocations = s.invocations := by
  unfold State.connect
  split
  · rfl
  · split
    · rfl
    · exact invocations_openSocket s ..

@[simp] theorem invocations_settle (i : Nat) (outcome : Outcome) :
    (s.settle i outcome).invocations = s.invocations := by
  unfold State.settle
  split
  · split
    · rfl
    · exact invocations_quiet _ rfl
  · rfl

theorem invocations_probed (i : Nat) (version : Option JsString) (thrown : Bool) :
    (s.probed i version thrown).invocations = s.invocations := by
  unfold State.probed
  repeat' split
  all_goals first | rfl | exact invocations_openSocket ..

theorem invocations_waited (i : Nat) (thrown : Bool) : (s.waited i thrown).invocations = s.invocations := by
  unfold State.waited
  repeat' split
  all_goals first | rfl | exact invocations_openSocket ..

/-- A command is begun once, with or without its seam. -/
theorem invocations_command (S : Seams) (c : Nat) (call : Call) :
    (s.command S c call).invocations = s.invocations ++ [(s.commands.length, c, call)] := by
  unfold State.command
  split
  · rw [invocations_emit]
    rfl
  · rw [invocations_emit, invocations_emit]
    exact List.append_nil _

theorem callOf_registration {frame : List (JsString × Json)}
    (h : isText (member frame "type") (js "registration") = true) :
    State.callOf frame = none := by
  have hother : ∀ lit, js "registration" ≠ lit → isText (member frame "type") lit = false := by
    intro lit hne
    rw [Bool.eq_false_iff]
    exact fun hlit => hne (isText_inj h hlit)
  rw [State.callOf, hother _ (by decide), hother _ (by decide), hother _ (by decide)]
  rfl

theorem invocations_onServerFrame (S : Seams) (c : Nat) (data : Option JsString) :
    (s.onServerFrame S c data).invocations = s.invocations ++ (s.commandTaken (.message c data)).toList := by
  unfold State.onServerFrame State.commandTaken
  cases hholds : s.holds c with
  | false => simp [hholds]
  | true =>
    cases hframe : (data.bind Json.parse).bind Json.record? with
    | none => simp [hholds, hframe]
    | some frame =>
      cases htype : isText (member frame "type") (js "registration") with
      | true =>
        simp only [hholds, hframe, htype, callOf_registration htype, Bool.true_eq_false,
          if_true, if_false, Option.bind_some,
          Option.map_none, invocations_emit]
        split <;> rfl
      | false =>
        cases hregistered : s.registered with
        | false => simp [hholds, htype]
        | true =>
          cases hcall : State.callOf frame with
          | some call => simp [hholds, hframe, htype, hcall, invocations_command]
          | none =>
            simp only [hholds, hframe, htype, hcall, Bool.true_eq_false, Bool.false_eq_true, Bool.and_self, if_true,
              if_false, Option.bind_some, Option.map_none, Option.toList_none, List.append_nil]
            split
            · rw [State.take]
              exact invocations_quiet _ rfl
            · rfl

theorem invocations_finish (O : Options) (i : Nat) (thrown : Bool) :
    (s.finish O i thrown).invocations = s.invocations := by
  unfold State.finish
  split
  · split
    · exact invocations_quiet _ rfl
    · rfl
  · rfl

theorem invocations_reply (k : Nat) (last thrown : Bool) : (s.reply k last thrown).invocations = s.invocations := by
  unfold State.reply
  split
  · split
    · exact invocations_quiet _ rfl
    · rfl
  · rfl

/-- Every step begins the command it brings, and no other. -/
theorem step_invocations (O : Options) (S : Seams) (e : Event) :
    (step O S s e).invocations = s.invocations ++ (s.commandTaken e).toList := by
  have quiet : ∀ {s' : State}, s'.invocations = s.invocations → s'.invocations = s.invocations ++ [] :=
    fun h => h.trans (List.append_nil _).symm
  cases e with
  | start thrown =>
    refine quiet ?_
    simp only [step, State.start]
    split
    · rfl
    · rw [invocations_connect]
      exact invocations_quiet _ rfl
  | stop => exact quiet (invocations_stop s)
  | probed i version thrown => exact quiet (invocations_probed s ..)
  | waited i thrown => exact quiet (invocations_waited s ..)
  | timerFires thrown =>
    refine quiet ?_
    simp only [step, State.timerFires]
    split
    · rw [invocations_connect]
      exact invocations_quiet _ rfl
    · rfl
  | opened c webUiAvailable thrown =>
    refine quiet ?_
    simp only [step, State.opened]
    split
    · rfl
    · split
      · exact invocations_drop ..
      · exact invocations_quiet _ rfl
  | closed c code =>
    refine quiet ?_
    simp only [step, State.closed]
    split
    · split
      · exact invocations_stop _
      · rfl
    · exact invocations_drop ..
  | error c => exact quiet (invocations_drop s c)
  | message c data => exact invocations_onServerFrame s S c data
  | retry c =>
    refine quiet ?_
    simp only [step, State.retry]
    split
    · split
      · exact invocations_drop ..
      · rfl
    · rfl
  | seamSettles i status => exact quiet (invocations_settle s ..)
  | commandTimeout i =>
    refine quiet ?_
    simp only [step, State.commandTimeout]
    split
    · split
      · exact invocations_settle ..
      · rfl
    · rfl
  | finish i thrown => exact quiet (invocations_finish s ..)
  | reply k last thrown => exact quiet (invocations_reply s ..)
  | advance ms => exact quiet rfl

end

/-- In every run, a running channel has exactly one of a `connect` of its generation on its way, a socket and a
    reconnect timer, and a stopped one has none; every effect is justified by those before it; each event begins the
    command it brings and no other; and an event of a socket that is not the current one changes nothing but that
    socket's own timer. -/
theorem lifecycle (O : Options) (S : Seams) (now : Nat) (es : List Event) :
    live (run O S now es) = (if (run O S now es).running then 1 else 0) ∧
      (∀ before e after, (run O S now es).effects = before ++ e :: after → Justified O before e) ∧
      (∀ before e after, es = before ++ e :: after →
        (run O S now (before ++ [e])).invocations =
          (run O S now before).invocations ++ ((run O S now before).commandTaken e).toList) ∧
      ∀ e c, e.socket? = some c → (run O S now es).socket ≠ some c →
        run O S now (es ++ [e]) = run O S now es ∨
          run O S now (es ++ [e]) = { run O S now es with retries := (run O S now es).retries.filter (· ≠ c) } := by
  have snoc : ∀ before e, run O S now (before ++ [e]) = step O S (run O S now before) e := by
    intro before e
    rw [run, runFrom_append]
    rfl
  refine ⟨(inv_run S now es).connecting.one, (inv_run S now es).agrees.traced, fun before e after _ => ?_,
    fun e c he hc => ?_⟩
  · rw [snoc]
    exact step_invocations _ O S e
  · rw [snoc]
    exact step_stale he hc

end NotifyHub.Plugin.Lifecycle
