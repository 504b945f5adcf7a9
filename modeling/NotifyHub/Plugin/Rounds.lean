/-
  NotifyHub.Plugin.Rounds — the rounds of a `SessionMachine`, over every sequence of
  signals, timers, flushes and disposals, the ones made from inside a callback included.

  A session's round reaches back to its last opening or disposal (`round`). Proved, over
  every run:
  - `one_terminal_a_round`: a terminal finds none in its round; a completion follows an
    idle and either the whole debounce window or a flush, with no busy, retry, failure
    or stop between; a failure or stop in a round without a terminal emits one at once;
    the recorded outcome is the highest one signalled in the round.

  `Good` is what carries it: the flags of a session's state say what its trace says
  (`Fits`), and an armed debounce timer is its session's own.
-/

import NotifyHub.Plugin.StateMachine

namespace NotifyHub.Plugin

namespace Entry

/-- An opening or a disposal of the session. -/
def boundary (sid : JsString) : Entry → Bool
  | opened s => s = sid
  | disposed s => s = sid
  | _ => false

def terminal (sid : JsString) : Entry → Bool
  | effect (.terminal s _ _) _ => s = sid
  | _ => false

/-- The outcome an entry signals: a failure or stop when it comes in, a completion when it goes out. -/
def outcome (sid : JsString) : Entry → Option TerminalOutcome
  | received s .failed _ => if s = sid then some .failed else none
  | received s .stopped _ => if s = sid then some .stopped else none
  | effect (.terminal s .completed _) _ => if s = sid then some .completed else none
  | _ => none

/-- What calls a pending completion off. -/
def interrupts (sid : JsString) : Entry → Bool
  | received s .busy _ => s = sid
  | received s (.retry _) _ => s = sid
  | received s .failed _ => s = sid
  | received s .stopped _ => s = sid
  | disposed s => s = sid
  | _ => false

end Entry

/-- The trace back to the session's last opening or disposal. -/
def round (sid : JsString) (t : List Entry) : List Entry := t.takeWhile fun e => !e.boundary sid

def terminated (sid : JsString) (t : List Entry) : Bool := (round sid t).any (·.terminal sid)

def outcomes (sid : JsString) (t : List Entry) : List TerminalOutcome := (round sid t).filterMap (·.outcome sid)

/-- An idle at `T`, and nothing since that calls its completion off. -/
def Idled (sid : JsString) (T : Nat) (t : List Entry) : Prop :=
  ∃ a b, t = a ++ .received sid .idle T :: b ∧ ∀ e ∈ a, e.interrupts sid = false

/-- The highest of the outcomes, none if there is none. -/
def Highest : Option TerminalOutcome → List TerminalOutcome → Prop
  | none, l => l = []
  | some r, l => r ∈ l ∧ ∀ o ∈ l, o.rank ≤ r.rank

variable (O : MachineOptions) in
/-- What an entry may follow. -/
structure Lawful (e : Entry) (t : List Entry) : Prop where
  once : ∀ sid, e.terminal sid = true → terminated sid t = false
  debounced : ∀ sid ms time, e = .effect (.terminal sid .completed ms) time →
    ∃ T, Idled sid T t ∧ (T + O.idleDebounceMs ≤ time ∨ t.head? = some (.flushed sid))

variable {O : MachineOptions}

/-! ## One more entry -/

theorem round_cons (sid : JsString) (e : Entry) (t : List Entry) :
    round sid (e :: t) = if e.boundary sid then [] else e :: round sid t := by
  rw [round, List.takeWhile_cons]
  cases e.boundary sid <;> simp [round]

theorem terminated_cons (sid : JsString) (e : Entry) (t : List Entry) :
    terminated sid (e :: t) = if e.boundary sid then false else e.terminal sid || terminated sid t := by
  rw [terminated, round_cons]
  split
  · rfl
  · rw [List.any_cons, terminated]

theorem outcomes_cons (sid : JsString) (e : Entry) (t : List Entry) :
    outcomes sid (e :: t) = if e.boundary sid then [] else (e.outcome sid).toList ++ outcomes sid t := by
  rw [outcomes, round_cons]
  split
  · rfl
  · rw [List.filterMap_cons, outcomes]
    cases e.outcome sid <;> rfl

theorem Idled.cons {sid : JsString} {T : Nat} {t : List Entry} {e : Entry} (h : Idled sid T t)
    (he : e.interrupts sid = false) : Idled sid T (e :: t) := by
  obtain ⟨a, b, rfl, ha⟩ := h
  refine ⟨e :: a, b, rfl, ?_⟩
  intro x hx
  rcases List.mem_cons.mp hx with rfl | hx
  · exact he
  · exact ha x hx

theorem Idled.now (sid : JsString) (T : Nat) (t : List Entry) : Idled sid T (.received sid .idle T :: t) :=
  ⟨[], t, rfl, by simp⟩

theorem Highest.raise {r : Option TerminalOutcome} {l : List TerminalOutcome} (h : Highest r l) (o : TerminalOutcome) :
    Highest (some (Machine.raise r o)) (o :: l) := by
  cases r with
  | none => subst h; simp [Highest, Machine.raise]
  | some r =>
    obtain ⟨hr, hmax⟩ := h
    simp only [Machine.raise]
    split
    · rename_i hlt
      refine ⟨List.mem_cons_self, fun p hp => ?_⟩
      rcases List.mem_cons.mp hp with rfl | hp
      · exact Nat.le_refl _
      · exact Nat.le_trans (hmax p hp) (Nat.le_of_lt hlt)
    · rename_i hlt
      refine ⟨List.mem_cons_of_mem _ hr, fun p hp => ?_⟩
      rcases List.mem_cons.mp hp with rfl | hp
      · exact Nat.le_of_not_lt hlt
      · exact hmax p hp

/-- An entry that says nothing about a session's round. -/
structure Entry.Neutral (e : Entry) (sid : JsString) : Prop where
  boundary : e.boundary sid = false
  terminal : e.terminal sid = false
  outcome : e.outcome sid = none
  interrupts : e.interrupts sid = false

section
variable {e : Entry} {sid : JsString} (h : e.Neutral sid)
include h

theorem Entry.Neutral.terminated (t : List Entry) : terminated sid (e :: t) = Plugin.terminated sid t := by
  rw [terminated_cons, h.boundary, h.terminal]; rfl

theorem Entry.Neutral.outcomes (t : List Entry) : outcomes sid (e :: t) = Plugin.outcomes sid t := by
  rw [outcomes_cons, h.boundary, h.outcome]; rfl

end

/-- The session an entry is about. -/
@[simp] def Entry.sessionID : Entry → JsString
  | effect (.terminal s _ _) _ | effect (.heartbeat s _ _) _ => s
  | effect (.actionRequired s _ _) _ | effect (.actionResolved s _ _) _ => s
  | received s _ _ | opened s | disposed s | flushed s => s

theorem Entry.neutral_of_ne {e : Entry} {sid : JsString} (h : e.sessionID ≠ sid) : e.Neutral sid where
  boundary := by unfold boundary; split <;> simp_all
  terminal := by unfold terminal; split <;> simp_all
  outcome := by unfold outcome; split <;> simp_all
  interrupts := by unfold interrupts; split <;> simp_all

/-! ## The invariant -/

/-- A state says what its session's trace says. -/
structure Fits (sid : JsString) (t : List Entry) (s : SessionState) : Prop where
  sent : s.terminalSent = terminated sid t
  settled : s.terminalSent = s.terminalOutcome.isSome
  outcome : Highest s.terminalOutcome (outcomes sid t)
  pending : s.idleTimer.isSome → s.terminalSent = false ∧ ∃ T, Idled sid T t

variable (O) in
structure Good (m : Machine) : Prop where
  made : ∀ sid o, m.sessions.get sid = some o → o < m.nextObject
  single : ∀ sid sid' o, m.sessions.get sid = some o → m.sessions.get sid' = some o → sid = sid'
  debounce : ∀ h t, m.timers.get h = some t → t.kind = .debounce →
    m.sessions.get t.sessionID = some t.object ∧ (m.objects t.object).idleTimer = some h ∧
      ∃ T, Idled t.sessionID T m.trace ∧ T + O.idleDebounceMs ≤ t.due
  absent : ∀ sid, m.sessions.get sid = none → Fits sid m.trace .new
  fits : ∀ sid o, m.sessions.get sid = some o → Fits sid m.trace (m.objects o)
  lawful : ∀ e t, e :: t <:+ m.trace → Lawful O e t

theorem Fits.cons {sid : JsString} {t : List Entry} {s : SessionState} (h : Fits sid t s)
    {e : Entry} (he : e.Neutral sid) :
    Fits sid (e :: t) s where
  sent := by rw [he.terminated]; exact h.sent
  settled := h.settled
  outcome := by rw [he.outcomes]; exact h.outcome
  pending hi := by
    obtain ⟨hs, T, hT⟩ := h.pending hi
    exact ⟨hs, T, hT.cons he.interrupts⟩

theorem Fits.append {sid : JsString} {t : List Entry} {s : SessionState} (h : Fits sid t s) {es : List Entry}
    (hes : ∀ e ∈ es, e.Neutral sid) : Fits sid (es ++ t) s := by
  induction es with
  | nil => exact h
  | cons e es ih =>
    exact (ih fun x hx => hes x (List.mem_cons_of_mem _ hx)).cons (hes e List.mem_cons_self)

theorem Idled.append {sid : JsString} {T : Nat} {t : List Entry} (h : Idled sid T t) {es : List Entry}
    (hes : ∀ e ∈ es, e.Neutral sid) : Idled sid T (es ++ t) := by
  induction es with
  | nil => exact h
  | cons e es ih =>
    exact (ih fun x hx => hes x (List.mem_cons_of_mem _ hx)).cons (hes e List.mem_cons_self).interrupts

/-- Only the flags and the idle timer count. -/
theorem Fits.congr {sid : JsString} {t : List Entry} {s s' : SessionState} (h : Fits sid t s)
    (hsent : s'.terminalSent = s.terminalSent) (hout : s'.terminalOutcome = s.terminalOutcome)
    (hidle : s'.idleTimer.isSome → s.idleTimer.isSome) : Fits sid t s' where
  sent := hsent.trans h.sent
  settled := by rw [hsent, hout]; exact h.settled
  outcome := by rw [hout]; exact h.outcome
  pending hi := by rw [hsent]; exact h.pending (hidle hi)

theorem Good.init : Good O .init where
  made _ _ h := by cases h
  single _ _ _ h := by cases h
  debounce _ _ h := by cases h
  absent _ _ := ⟨rfl, rfl, rfl, fun h => by cases h⟩
  fits _ _ h := by cases h
  lawful e t h := by cases List.suffix_nil.mp h

/-- What a step may do to the state `o` of session `sid`: it logs `es`. -/
structure Writes (sid : JsString) (o : Nat) (es : List Entry) (m m' : Machine) : Prop where
  sessions : m'.sessions = m.sessions
  nextObject : m'.nextObject = m.nextObject
  objects : ∀ p, p ≠ o → m'.objects p = m.objects p
  trace : m'.trace = es ++ m.trace
  about : ∀ e ∈ es, e.sessionID = sid

/-- A step on a state without an idle timer keeps the invariant if it does so for that state. -/
theorem Good.write {m m' : Machine} {sid : JsString} {o : Nat} (h : Good O m) (es : List Entry)
    (w : Writes sid o es m m') (hs : m.sessions.get sid = some o) (hidle : (m.objects o).idleTimer = none)
    (htimers : ∀ k t, m'.timers.get k = some t → t.kind = .debounce → m.timers.get k = some t ∨
      t.sessionID = sid ∧ t.object = o ∧ (m'.objects o).idleTimer = some k ∧
        ∃ T, Idled sid T m'.trace ∧ T + O.idleDebounceMs ≤ t.due)
    (hfits : Fits sid m'.trace (m'.objects o)) (hlaw : ∀ e t, e :: t <:+ m'.trace → Lawful O e t) : Good O m' := by
  have hne : ∀ sid', sid' ≠ sid → ∀ e ∈ es, e.Neutral sid' := fun sid' hne e he =>
    Entry.neutral_of_ne fun hsid => hne (hsid.symm.trans (w.about e he))
  refine ⟨?_, ?_, ?_, ?_, ?_, hlaw⟩
  · intro s p hp
    rw [w.sessions] at hp
    rw [w.nextObject]
    exact h.made s p hp
  · intro s s' p hp hp'
    rw [w.sessions] at hp hp'
    exact h.single s s' p hp hp'
  · intro k t hk hkind
    rcases htimers k t hk hkind with hold | ⟨rfl, rfl, hnew, hT⟩
    · obtain ⟨hcur, htimer, T, hT, hdue⟩ := h.debounce k t hold hkind
      -- the state `o` had no timer, so this one belongs to another session
      have hobj : t.object ≠ o := fun ho => by rw [ho, hidle] at htimer; cases htimer
      have hsid : t.sessionID ≠ sid := fun hsid => by
        rw [hsid, hs] at hcur
        exact hobj (Option.some.inj hcur).symm
      rw [w.sessions, w.objects _ hobj, w.trace]
      exact ⟨hcur, htimer, T, hT.append (hne _ hsid), hdue⟩
    · rw [w.sessions]
      exact ⟨hs, hnew, hT⟩
  · intro s hnone
    rw [w.sessions] at hnone
    have hsid : s ≠ sid := fun hsid => by rw [hsid, hs] at hnone; cases hnone
    rw [w.trace]
    exact (h.absent s hnone).append (hne s hsid)
  · intro s p hp
    rw [w.sessions] at hp
    by_cases hsid : s = sid
    · subst hsid
      obtain rfl : p = o := Option.some.inj (hp.symm.trans hs)
      exact hfits
    · have hobj : p ≠ o := fun ho => hsid (h.single s sid o (ho ▸ hp) hs)
      rw [w.objects p hobj, w.trace]
      exact (h.fits s p hp).append (hne s hsid)

/-- A step that says nothing about any round. -/
structure Quiet (m m' : Machine) : Prop where
  sessions : m'.sessions = m.sessions
  nextObject : m'.nextObject = m.nextObject
  sent : ∀ o, (m'.objects o).terminalSent = (m.objects o).terminalSent
  outcome : ∀ o, (m'.objects o).terminalOutcome = (m.objects o).terminalOutcome
  idle : ∀ o, (m'.objects o).idleTimer = (m.objects o).idleTimer
  timers : ∀ k t, m'.timers.get k = some t → t.kind = .debounce → m.timers.get k = some t
  trace : ∃ es, m'.trace = es ++ m.trace ∧ ∀ e ∈ es, ∀ sid, e.Neutral sid

theorem Quiet.refl (m : Machine) : Quiet m m :=
  ⟨rfl, rfl, fun _ => rfl, fun _ => rfl, fun _ => rfl, fun _ _ h _ => h, [], rfl, by simp⟩

theorem Quiet.trans {m m' m'' : Machine} (h : Quiet m m') (h' : Quiet m' m'') : Quiet m m'' where
  sessions := h'.sessions.trans h.sessions
  nextObject := h'.nextObject.trans h.nextObject
  sent o := (h'.sent o).trans (h.sent o)
  outcome o := (h'.outcome o).trans (h.outcome o)
  idle o := (h'.idle o).trans (h.idle o)
  timers k t hk hkind := h.timers k t (h'.timers k t hk hkind) hkind
  trace := by
    obtain ⟨es, he, hes⟩ := h.trace
    obtain ⟨fs, hf, hfs⟩ := h'.trace
    refine ⟨fs ++ es, by rw [hf, he, List.append_assoc], ?_⟩
    intro e hm
    rcases List.mem_append.mp hm with hm | hm
    · exact hfs e hm
    · exact hes e hm

theorem lawful_cons {e : Entry} {t : List Entry} (he : Lawful O e t) (h : ∀ e t', e :: t' <:+ t → Lawful O e t') :
    ∀ e' t', e' :: t' <:+ e :: t → Lawful O e' t' := by
  intro e' t' hsuf
  rcases List.suffix_cons_iff.mp hsuf with heq | hsuf
  · obtain ⟨rfl, rfl⟩ := List.cons.inj heq
    exact he
  · exact h e' t' hsuf

/-- Only terminals are bound by the law. -/
theorem lawful_of_not_terminal {e : Entry} {t : List Entry} (h : ∀ sid, e.terminal sid = false) : Lawful O e t where
  once sid ht := by rw [h sid] at ht; cases ht
  debounced sid ms time he := by have := h sid; subst he; simp [Entry.terminal] at this

theorem Good.quiet {m m' : Machine} (h : Good O m) (q : Quiet m m') : Good O m' := by
  obtain ⟨es, he, hes⟩ := q.trace
  refine ⟨?_, ?_, ?_, ?_, ?_, ?_⟩
  · intro sid o
    rw [q.sessions, q.nextObject]
    exact h.made sid o
  · intro sid sid' o
    rw [q.sessions]
    exact h.single sid sid' o
  · intro k t hk hkind
    obtain ⟨hcur, htimer, T, hT, hdue⟩ := h.debounce k t (q.timers k t hk hkind) hkind
    rw [q.sessions, q.idle, he]
    exact ⟨hcur, htimer, T, hT.append fun e hm => hes e hm _, hdue⟩
  · intro sid
    rw [q.sessions, he]
    exact fun hn => (h.absent sid hn).append fun e hm => hes e hm _
  · intro sid o
    rw [q.sessions, he]
    intro hs
    refine (Fits.congr (h.fits sid o hs) (q.sent o) (q.outcome o) ?_).append fun e hm => hes e hm _
    rw [q.idle]; exact id
  · rw [he]
    clear he
    induction es with
    | nil => exact h.lawful
    | cons e es ih =>
      refine lawful_cons (lawful_of_not_terminal fun sid => (hes e List.mem_cons_self sid).terminal) ?_
      exact ih fun x hx => hes x (List.mem_cons_of_mem _ hx)

/-! ## The parts of a step -/

namespace Machine

theorem quiet_log (m : Machine) {e : Entry} (he : ∀ sid, e.Neutral sid) : Quiet m (m.log e) :=
  ⟨rfl, rfl, fun _ => rfl, fun _ => rfl, fun _ => rfl, fun _ _ h _ => h, [e], rfl, by simpa using he⟩

theorem quiet_modify (m : Machine) (o : Nat) {f : SessionState → SessionState}
    (hf : ∀ s, (f s).terminalSent = s.terminalSent ∧ (f s).terminalOutcome = s.terminalOutcome ∧
      (f s).idleTimer = s.idleTimer) : Quiet m (m.modify o f) := by
  refine ⟨rfl, rfl, ?_, ?_, ?_, fun _ _ h _ => h, [], rfl, by simp⟩ <;>
  · intro p
    by_cases hp : p = o
    · subst hp; simp [hf]
    · rw [modify_objects_ne m f hp]

theorem quiet_clearTimeout (m : Machine) (h : Nat) : Quiet m (m.clearTimeout h) := by
  refine ⟨rfl, rfl, fun _ => rfl, fun _ => rfl, fun _ => rfl, ?_, [], rfl, by simp⟩
  intro k t hk _
  rw [clearTimeout, OMap.get_delete] at hk
  split at hk
  · cases hk
  · exact hk

theorem quiet_setTimeout (m : Machine) (sid : JsString) (o delayMs : Nat) :
    Quiet m (m.setTimeout sid o .heartbeat delayMs) := by
  refine ⟨rfl, rfl, fun _ => rfl, fun _ => rfl, fun _ => rfl, ?_, [], rfl, by simp⟩
  intro k t hk hkind
  rw [setTimeout, OMap.get_set] at hk
  split at hk
  · cases hk; cases hkind
  · exact hk

theorem quiet_clearHeartbeat (m : Machine) (o : Nat) : Quiet m (m.clearHeartbeat o) := by
  unfold clearHeartbeat
  split
  · exact (quiet_clearTimeout m _).trans (quiet_modify _ o fun _ => ⟨rfl, rfl, rfl⟩)
  · exact Quiet.refl m

theorem quiet_armHeartbeat (m : Machine) (sid : JsString) (o : Nat) : Quiet m (m.armHeartbeat O sid o) := by
  unfold armHeartbeat
  split
  · exact Quiet.refl m
  · exact (quiet_setTimeout m sid o _).trans (quiet_modify _ o fun _ => ⟨rfl, rfl, rfl⟩)

theorem quiet_clearPendingProviderAction (m : Machine) (o : Nat) : Quiet m (m.clearPendingProviderAction o) :=
  quiet_modify m o fun _ => ⟨rfl, rfl, rfl⟩

/-- The machine with a fresh state for the session. -/
def created (m : Machine) (sid : JsString) : Machine :=
  { m.modify m.nextObject fun _ => .new with
    sessions := m.sessions.set sid m.nextObject, nextObject := m.nextObject + 1 }

theorem created_self (m : Machine) (sid : JsString) : (m.created sid).objects m.nextObject = .new :=
  modify_objects_self m m.nextObject fun _ => .new

theorem created_ne (m : Machine) (sid : JsString) {p : Nat} (h : p ≠ m.nextObject) :
    (m.created sid).objects p = m.objects p := modify_objects_ne m (fun _ => .new) h

theorem stateFor_eq (m : Machine) (sid : JsString) :
    (∃ o, m.sessions.get sid = some o ∧ m.stateFor sid = (m, o)) ∨
    (m.sessions.get sid = none ∧ m.stateFor sid = (m.created sid, m.nextObject)) := by
  unfold stateFor
  cases h : m.sessions.get sid with
  | some o => exact Or.inl ⟨o, rfl, rfl⟩
  | none => exact Or.inr ⟨rfl, rfl⟩

theorem stateFor_get (m : Machine) (sid : JsString) :
    (m.stateFor sid).1.sessions.get sid = some (m.stateFor sid).2 := by
  rcases m.stateFor_eq sid with ⟨o, hs, heq⟩ | ⟨hs, heq⟩
  · rw [heq]; exact hs
  · rw [heq]; exact OMap.get_set_self _ _ _

@[simp] theorem stateFor_trace (m : Machine) (sid : JsString) : (m.stateFor sid).1.trace = m.trace := by
  rcases m.stateFor_eq sid with ⟨o, hs, heq⟩ | ⟨hs, heq⟩ <;> rw [heq]; rfl

@[simp] theorem stateFor_time (m : Machine) (sid : JsString) : (m.stateFor sid).1.time = m.time := by
  rcases m.stateFor_eq sid with ⟨o, hs, heq⟩ | ⟨hs, heq⟩ <;> rw [heq]; rfl

/-- What comes in is logged before the state is looked up, which is the same as after. -/
theorem stateFor_log (m : Machine) (e : Entry) (sid : JsString) :
    (m.log e).stateFor sid = ((m.stateFor sid).1.log e, (m.stateFor sid).2) := by
  unfold stateFor
  rw [log_sessions]
  cases m.sessions.get sid <;> rfl

theorem clearIdleTimer_log (m : Machine) (e : Entry) (o : Nat) :
    (m.log e).clearIdleTimer o = (m.clearIdleTimer o).log e := by
  unfold clearIdleTimer
  rw [log_objects]
  cases (m.objects o).idleTimer <;> rfl

theorem modify_log (m : Machine) (e : Entry) (o : Nat) (f : SessionState → SessionState) :
    (m.log e).modify o f = (m.modify o f).log e := rfl

theorem clearHeartbeat_log (m : Machine) (e : Entry) (o : Nat) :
    (m.log e).clearHeartbeat o = (m.clearHeartbeat o).log e := by
  unfold clearHeartbeat
  rw [log_objects]
  cases (m.objects o).heartbeatTimer <;> rfl

@[simp] theorem clearHeartbeat_trace (m : Machine) (o : Nat) : (m.clearHeartbeat o).trace = m.trace := by
  unfold clearHeartbeat; split <;> rfl

@[simp] theorem clearHeartbeat_time (m : Machine) (o : Nat) : (m.clearHeartbeat o).time = m.time := by
  unfold clearHeartbeat; split <;> rfl

theorem clearIdleTimer_self (m : Machine) (o : Nat) :
    (m.clearIdleTimer o).objects o = { m.objects o with idleTimer := none } := by
  unfold clearIdleTimer
  cases h : (m.objects o).idleTimer with
  | some k => exact modify_objects_self ..
  | none => show m.objects o = _; rw [← h]

theorem clearIdleTimer_ne (m : Machine) {o p : Nat} (h : p ≠ o) : (m.clearIdleTimer o).objects p = m.objects p := by
  unfold clearIdleTimer
  split
  · exact modify_objects_ne _ _ h
  · rfl

@[simp] theorem clearIdleTimer_sessions (m : Machine) (o : Nat) : (m.clearIdleTimer o).sessions = m.sessions := by
  unfold clearIdleTimer; split <;> rfl

@[simp] theorem clearIdleTimer_nextObject (m : Machine) (o : Nat) : (m.clearIdleTimer o).nextObject = m.nextObject := by
  unfold clearIdleTimer; split <;> rfl

@[simp] theorem clearIdleTimer_trace (m : Machine) (o : Nat) : (m.clearIdleTimer o).trace = m.trace := by
  unfold clearIdleTimer; split <;> rfl

@[simp] theorem clearIdleTimer_time (m : Machine) (o : Nat) : (m.clearIdleTimer o).time = m.time := by
  unfold clearIdleTimer; split <;> rfl

theorem clearIdleTimer_timers {m : Machine} {o k : Nat} {t : Timer} (h : (m.clearIdleTimer o).timers.get k = some t) :
    m.timers.get k = some t ∧ (m.objects o).idleTimer ≠ some k := by
  unfold clearIdleTimer at h
  split at h
  · rename_i k' hk'
    rw [modify_timers, clearTimeout, OMap.get_delete] at h
    split at h
    · cases h
    · rename_i hne
      refine ⟨h, ?_⟩
      rw [hk']
      exact fun he => hne (Option.some.inj he).symm
  · rename_i hn
    exact ⟨h, by rw [hn]; rintro ⟨⟩⟩

end Machine

open Machine

theorem Good.stateFor {m : Machine} (h : Good O m) (sid : JsString) : Good O (m.stateFor sid).1 := by
  rcases m.stateFor_eq sid with ⟨o, hs, heq⟩ | ⟨hnone, heq⟩
  · rw [heq]; exact h
  rw [heq]
  -- the new state is under an id no session has
  have hfresh : ∀ s p, m.sessions.get s = some p → p ≠ m.nextObject := fun s p hp => Nat.ne_of_lt (h.made s p hp)
  have hget : ∀ s, (m.created sid).sessions.get s = if s = sid then some m.nextObject else m.sessions.get s :=
    fun s => OMap.get_set m.sessions sid s m.nextObject
  refine ⟨?_, ?_, ?_, ?_, ?_, h.lawful⟩
  · intro s p hp
    rw [hget] at hp
    show p < m.nextObject + 1
    split at hp
    · cases hp; omega
    · have := h.made s p hp; omega
  · intro s s' p hp hp'
    rw [hget] at hp hp'
    split at hp <;> split at hp'
    · rename_i hs hs'; rw [hs, hs']
    · cases hp; exact absurd rfl (hfresh s' _ hp')
    · cases hp'; exact absurd rfl (hfresh s _ hp)
    · exact h.single s s' p hp hp'
  · intro k t hk hkind
    obtain ⟨hcur, htimer, hT⟩ := h.debounce k t hk hkind
    have hsid : t.sessionID ≠ sid := fun hsid => by rw [hsid, hnone] at hcur; cases hcur
    rw [hget, if_neg hsid, created_ne m sid (hfresh _ _ hcur)]
    exact ⟨hcur, htimer, hT⟩
  · intro s hn
    rw [hget] at hn
    split at hn
    · cases hn
    · exact h.absent s hn
  · intro s p hp
    rw [hget] at hp
    split at hp
    · rename_i hs
      cases hp
      rw [created_self, hs]
      exact h.absent sid hnone
    · rw [created_ne m sid (hfresh s p hp)]
      exact h.fits s p hp

theorem Good.clearIdleTimer {m : Machine} (h : Good O m) (o : Nat) : Good O (m.clearIdleTimer o) := by
  refine ⟨?_, ?_, ?_, ?_, ?_, ?_⟩
  · intro s p; simp only [clearIdleTimer_sessions, clearIdleTimer_nextObject]; exact h.made s p
  · intro s s' p; simp only [clearIdleTimer_sessions]; exact h.single s s' p
  · intro k t hk hkind
    obtain ⟨hk, hne⟩ := clearIdleTimer_timers hk
    obtain ⟨hcur, htimer, hT⟩ := h.debounce k t hk hkind
    have hobj : t.object ≠ o := fun ho => hne (ho ▸ htimer)
    rw [clearIdleTimer_sessions, clearIdleTimer_trace, clearIdleTimer_ne m hobj]
    exact ⟨hcur, htimer, hT⟩
  · intro s; simp only [clearIdleTimer_sessions, clearIdleTimer_trace]; exact h.absent s
  · intro s p
    simp only [clearIdleTimer_sessions, clearIdleTimer_trace]
    intro hp
    by_cases ho : p = o
    · subst ho
      rw [clearIdleTimer_self]
      exact (h.fits s p hp).congr rfl rfl (by rintro ⟨⟩)
    · rw [clearIdleTimer_ne m ho]
      exact h.fits s p hp
  · simp only [clearIdleTimer_trace]; exact h.lawful

/-! ## Signals -/

/-- A busy or a retry. -/
def Signal.active : Signal → Bool
  | .busy | .retry _ => true
  | _ => false

theorem neutral_received {sid : JsString} {x : Signal} {time : Nat} (hx : x.active = false) (hf : x ≠ .failed)
    (hs : x ≠ .stopped) (sid' : JsString) : (Entry.received sid x time).Neutral sid' := by
  cases x with
  | busy | retry => cases hx
  | failed => exact absurd rfl hf
  | stopped => exact absurd rfl hs
  | _ => exact ⟨rfl, rfl, rfl, rfl⟩

theorem terminated_received (sid : JsString) (x : Signal) (time : Nat) (t : List Entry) :
    terminated sid (.received sid x time :: t) = terminated sid t := by
  rw [terminated_cons]; rfl

theorem outcomes_active {x : Signal} (hx : x.active = true) (sid : JsString) (time : Nat) (t : List Entry) :
    outcomes sid (.received sid x time :: t) = outcomes sid t := by
  rw [outcomes_cons]
  cases x with
  | failed | stopped => cases hx
  | _ => rfl

theorem Good.onActive {m : Machine} (h : Good O m) (sid : JsString) {x : Signal} (hx : x.active = true)
    (time : Nat) (status : SessionStatus) : Good O ((m.log (.received sid x time)).onActive O sid status) := by
  unfold Machine.onActive
  rw [stateFor_log]
  have hs := m.stateFor_get sid
  have hg := h.stateFor sid
  generalize m.stateFor sid = p at hs hg ⊢
  obtain ⟨m, o⟩ := p
  dsimp only at hs hg ⊢
  rw [clearIdleTimer_log]
  have hidle : ((m.clearIdleTimer o).objects o).idleTimer = none := by rw [clearIdleTimer_self]
  replace hs : (m.clearIdleTimer o).sessions.get sid = some o := (clearIdleTimer_sessions m o).symm ▸ hs
  replace hg := hg.clearIdleTimer o
  generalize m.clearIdleTimer o = m at hs hg hidle ⊢
  refine Good.quiet ?_ (quiet_armHeartbeat _ sid o)
  refine Good.quiet ?_ (quiet_modify _ o fun _ => ⟨rfl, rfl, rfl⟩)
  have hlaw : ∀ e t, e :: t <:+ Entry.received sid x time :: m.trace → Lawful O e t :=
    lawful_cons (lawful_of_not_terminal fun _ => rfl) hg.lawful
  have hfits := hg.fits sid o hs
  split
  · -- the round goes on
    refine hg.write [.received sid x time] ⟨rfl, rfl, ?_, rfl, by simp⟩ hs hidle ?_ ?_ hlaw
    · intro p hp; exact modify_objects_ne _ _ hp
    · intro k t hk _; exact Or.inl hk
    · rw [modify_objects_self]
      refine ⟨?_, hfits.settled, ?_, ?_⟩
      · exact hfits.sent.trans (terminated_received sid x time _).symm
      · exact (outcomes_active hx sid time _).symm ▸ hfits.outcome
      · simp [hidle]
  · -- a fresh one opens
    refine hg.write [.opened sid, .received sid x time] ⟨rfl, rfl, ?_, rfl, by simp⟩ hs hidle ?_ ?_ ?_
    · intro p hp
      rw [modify_objects_ne _ _ hp, log_objects, modify_objects_ne _ _ hp, log_objects]
    · intro k t hk _; exact Or.inl hk
    · rw [modify_objects_self, log_objects, modify_objects_self]
      refine ⟨?_, rfl, ?_, ?_⟩
      · simp [terminated_cons, Entry.boundary]
      · simp [outcomes_cons, Entry.boundary, Highest]
      · simp [hidle]
    · exact lawful_cons (lawful_of_not_terminal fun _ => rfl) hlaw

/-- The outcome of a failure or a stop. -/
def Signal.outcome : Signal → Option TerminalOutcome
  | .failed => some .failed
  | .stopped => some .stopped
  | _ => none

theorem outcomes_signalled {x : Signal} {outcome : TerminalOutcome} (hx : x.outcome = some outcome) (sid : JsString)
    (time : Nat) (t : List Entry) : outcomes sid (.received sid x time :: t) = outcome :: outcomes sid t := by
  rw [outcomes_cons]
  cases x with
  | failed | stopped => cases hx; simp [Entry.boundary, Entry.outcome]
  | _ => cases hx

theorem Signal.outcome_ne {x : Signal} {outcome : TerminalOutcome} (hx : x.outcome = some outcome) :
    outcome ≠ .completed := by
  cases x with
  | failed | stopped => cases hx; exact nofun
  | _ => cases hx

/-- A failure or stop counts where it comes in, not again where it goes out. -/
theorem outcomes_terminal {outcome : TerminalOutcome} (h : outcome ≠ .completed) (sid sid' : JsString) (ms time : Nat)
    (t : List Entry) : outcomes sid (.effect (.terminal sid' outcome ms) time :: t) = outcomes sid t := by
  rw [outcomes_cons]
  cases outcome with
  | completed => exact absurd rfl h
  | _ => rfl

/-- What `onTerminalSignal` does to the session's state, once its timers are cleared. -/
def settle (outcome : TerminalOutcome) (s : SessionState) : SessionState :=
  { s with busySince := none, status := .idle, pendingActions := .empty, terminalSent := true,
           terminalOutcome := some (raise s.terminalOutcome outcome) }

/-- The signal is logged last, and the terminal after it. -/
theorem onTerminalSignal_eq (m : Machine) (sid : JsString) (r : Entry) (outcome : TerminalOutcome) :
    ∃ m' o ms, (Good O m → Good O m') ∧ m'.sessions.get sid = some o ∧ (m'.objects o).idleTimer = none ∧
      m'.trace = m.trace ∧ m'.time = m.time ∧ (m.log r).onTerminalSignal sid outcome =
        if (m'.objects o).terminalSent then (m'.log r).modify o (settle outcome)
        else ((m'.log r).modify o (settle outcome)).emit (.terminal sid outcome ms) := by
  unfold onTerminalSignal
  rw [stateFor_log]
  have hs := m.stateFor_get sid
  have hg := fun h : Good O m => h.stateFor sid
  have ht := m.stateFor_trace sid
  have htime := m.stateFor_time sid
  generalize m.stateFor sid = p at hs hg ht htime ⊢
  obtain ⟨m', o⟩ := p
  dsimp only at hs hg ht htime ⊢
  rw [clearIdleTimer_log, modify_log, clearHeartbeat_log]
  have q := (quiet_modify (m'.clearIdleTimer o) o (f := fun s => { s with pendingElapsedMs := none })
    fun _ => ⟨rfl, rfl, rfl⟩).trans (quiet_clearHeartbeat _ o)
  refine ⟨_, o, _, fun h => ((hg h).clearIdleTimer o).quiet q, ?_, ?_, ?_, ?_, rfl⟩
  · rw [q.sessions, clearIdleTimer_sessions]; exact hs
  · rw [q.idle, clearIdleTimer_self]
  · rw [clearHeartbeat_trace, modify_trace, clearIdleTimer_trace]; exact ht
  · rw [clearHeartbeat_time, modify_time, clearIdleTimer_time]; exact htime

theorem Good.onTerminalSignal {m : Machine} (h : Good O m) (sid : JsString) {x : Signal} {outcome : TerminalOutcome}
    (hx : x.outcome = some outcome) (time : Nat) :
    Good O ((m.log (.received sid x time)).onTerminalSignal sid outcome) := by
  obtain ⟨m', o, ms, hg, hs, hidle, -, -, heq⟩ := onTerminalSignal_eq (O := O) m sid (.received sid x time) outcome
  replace hg := hg h
  have hfits := hg.fits sid o hs
  have hlaw : ∀ e t, e :: t <:+ Entry.received sid x time :: m'.trace → Lawful O e t :=
    lawful_cons (lawful_of_not_terminal fun _ => rfl) hg.lawful
  -- the signal raises the recorded outcome
  have hout : Highest (settle outcome (m'.objects o)).terminalOutcome
    (outcomes sid (.received sid x time :: m'.trace)) := by
    rw [outcomes_signalled hx]
    exact hfits.outcome.raise outcome
  rw [heq]
  split
  · rename_i hsent
    refine hg.write [.received sid x time] ⟨rfl, rfl, ?_, rfl, by simp⟩ hs hidle ?_ ?_ hlaw
    · intro p hp; exact modify_objects_ne _ _ hp
    · intro k t hk _; exact Or.inl hk
    · rw [modify_objects_self]
      refine ⟨?_, rfl, hout, by simp [settle, hidle]⟩
      rw [modify_trace, log_trace, terminated_received, ← hfits.sent, hsent]; rfl
  · rename_i hsent
    replace hsent : terminated sid (.received sid x time :: m'.trace) = false := by
      rw [terminated_received, ← hfits.sent]; simpa using hsent
    refine hg.write [.effect (.terminal sid outcome ms) m'.time, .received sid x time]
      ⟨rfl, rfl, ?_, rfl, by simp⟩ hs hidle ?_ ?_ ?_
    · intro p hp; exact modify_objects_ne _ _ hp
    · intro k t hk _; exact Or.inl hk
    · rw [emit, log_objects, modify_objects_self]
      refine ⟨?_, rfl, ?_, by simp [settle, hidle]⟩
      · simp [settle, terminated_cons, Entry.boundary, Entry.terminal]
      · rw [log_trace, modify_trace, log_trace, outcomes_terminal (Signal.outcome_ne hx)]
        exact hout
    · refine lawful_cons ⟨?_, ?_⟩ hlaw
      · intro s ht
        obtain rfl : sid = s := by simpa [Entry.terminal] using ht
        exact hsent
      · intro s ms' time' he
        cases he
        exact absurd rfl (Signal.outcome_ne hx)

theorem Good.onIdle {m : Machine} (h : Good O m) (sid : JsString) :
    Good O ((m.log (.received sid .idle m.time)).onIdle O sid) := by
  have hlog : Good O (m.log (.received sid .idle m.time)) := h.quiet (quiet_log m fun _ => ⟨rfl, rfl, rfl, rfl⟩)
  have hT : Idled sid m.time (m.log (.received sid .idle m.time)).trace := Idled.now sid m.time m.trace
  have htime : (m.log (.received sid .idle m.time)).time = m.time := rfl
  generalize m.log (.received sid .idle m.time) = m' at hlog hT htime ⊢
  unfold Machine.onIdle
  have hs := m'.stateFor_get sid
  have hg := hlog.stateFor sid
  rw [← m'.stateFor_trace sid] at hT
  rw [← m'.stateFor_time sid] at htime
  generalize m'.stateFor sid = p at hs hg hT htime ⊢
  obtain ⟨m', o⟩ := p
  dsimp only at hs hg hT htime ⊢
  have q := (quiet_modify m' o (f := fun s => { s with status := .idle }) fun _ => ⟨rfl, rfl, rfl⟩).trans
    (quiet_clearHeartbeat _ o)
  replace hs : ((m'.modify o fun s => { s with status := .idle }).clearHeartbeat o).sessions.get sid = some o :=
    q.sessions ▸ hs
  replace hg := hg.quiet q
  rw [← modify_trace m' o, ← clearHeartbeat_trace _ o] at hT
  rw [← modify_time m' o, ← clearHeartbeat_time _ o] at htime
  generalize (m'.modify o fun s => { s with status := .idle }).clearHeartbeat o = m' at hs hg hT htime ⊢
  split
  · exact hg
  · rename_i hno
    obtain ⟨hidle, hsent⟩ := not_or.mp hno
    rw [Option.not_isSome_iff_eq_none] at hidle
    have hfits := hg.fits sid o hs
    refine hg.write [] ⟨rfl, rfl, ?_, rfl, by simp⟩ hs hidle ?_ ?_ hg.lawful
    · intro p hp; exact modify_objects_ne _ _ hp
    · intro k t hk hkind
      rw [modify_timers, setTimeout, OMap.get_set] at hk
      split at hk
      · -- the debounce timer just armed
        rename_i hkey
        cases hk
        right
        refine ⟨rfl, rfl, ?_, m.time, hT, Nat.le_of_eq ?_⟩
        · rw [modify_objects_self, hkey]
        · rw [htime]
      · exact Or.inl hk
    · rw [modify_objects_self]
      exact ⟨hfits.sent, hfits.settled, hfits.outcome, fun _ => ⟨by simpa using hsent, m.time, hT⟩⟩

theorem Good.completePendingIdle {m : Machine} (h : Good O m) {sid : JsString} {o : Nat}
    (hs : m.sessions.get sid = some o) (hidle : (m.objects o).idleTimer = none) {T : Nat} (hT : Idled sid T m.trace)
    (hdue : T + O.idleDebounceMs ≤ m.time ∨ m.trace.head? = some (.flushed sid)) :
    Good O (m.completePendingIdle sid o) := by
  have hfits := h.fits sid o hs
  unfold Machine.completePendingIdle
  split
  · exact h
  · rename_i hsent
    replace hsent : (m.objects o).terminalSent = false := by simpa using hsent
    have hnone : terminated sid m.trace = false := hfits.sent.symm.trans hsent
    have hout : outcomes sid m.trace = [] := by
      have hr := hfits.outcome
      rw [show (m.objects o).terminalOutcome = none by simpa [hsent] using hfits.settled] at hr
      exact hr
    refine h.write [.effect (.terminal sid .completed _) m.time] ⟨rfl, rfl, ?_, rfl, by simp⟩ hs hidle ?_ ?_ ?_
    · intro p hp; rw [emit, log_objects, modify_objects_ne _ _ hp]
    · intro k t hk _; exact Or.inl hk
    · rw [emit, log_objects, modify_objects_self]
      refine ⟨?_, rfl, ?_, by simp [hidle]⟩
      · simp [terminated_cons, Entry.boundary, Entry.terminal]
      · rw [log_trace, modify_trace, outcomes_cons, hout]
        simp [Entry.boundary, Entry.outcome, Highest]
    · refine lawful_cons ⟨?_, ?_⟩ h.lawful
      · intro s ht
        obtain rfl : sid = s := by simpa [Entry.terminal] using ht
        exact hnone
      · intro s ms time he
        cases he
        exact ⟨T, hT, hdue⟩

/-! ## Asks and resolves -/

theorem Good.emit {m : Machine} (h : Good O m) {e : Effect} (he : ∀ s o ms, e ≠ .terminal s o ms) :
    Good O (m.emit e) := by
  refine h.quiet (quiet_log m fun sid => ?_)
  cases e with
  | terminal s o ms => exact absurd rfl (he s o ms)
  | _ => exact ⟨rfl, rfl, rfl, rfl⟩

theorem Good.onAsked {m : Machine} (h : Good O m) (sid : JsString) (k : PendingActionKind) (requestID : JsString)
    (details : ActionDetails) : Good O (m.onAsked sid k requestID details) := by
  unfold Machine.onAsked
  have hg := h.stateFor sid
  generalize m.stateFor sid = p at hg ⊢
  obtain ⟨m, o⟩ := p
  dsimp only at hg ⊢
  split
  · exact hg
  · refine Good.emit ?_ fun _ _ _ => nofun
    exact hg.quiet (quiet_modify m o fun _ => ⟨rfl, rfl, rfl⟩)

theorem Good.onResolved {m : Machine} (h : Good O m) (sid : JsString) (k : PendingActionKind) (requestID : JsString) :
    Good O (m.onResolved sid k requestID) := by
  unfold Machine.onResolved
  have hg := h.stateFor sid
  generalize m.stateFor sid = p at hg ⊢
  obtain ⟨m, o⟩ := p
  dsimp only at hg ⊢
  split
  · exact hg
  · refine Good.emit ?_ (fun _ _ _ => by rintro ⟨⟩)
    exact hg.quiet (quiet_modify m o fun _ => ⟨rfl, rfl, rfl⟩)

theorem Good.onProviderAction {m : Machine} (h : Good O m) (sid : JsString) (a : RetryActionInfo) :
    Good O (m.onProviderAction O sid a) := by
  unfold Machine.onProviderAction
  have hg := h.stateFor sid
  generalize m.stateFor sid = p at hg ⊢
  obtain ⟨m, o⟩ := p
  dsimp only at hg ⊢
  split
  · exact hg
  · refine Good.emit ?_ (fun _ _ _ => by rintro ⟨⟩)
    exact (hg.quiet (quiet_clearPendingProviderAction m o)).quiet (quiet_modify _ o fun _ => ⟨rfl, rfl, rfl⟩)

theorem Good.signal {m : Machine} (h : Good O m) (sid : JsString) (x : Signal) : Good O (m.signal O sid x) := by
  have hlog : ∀ x : Signal, x.active = false → x ≠ .failed → x ≠ .stopped → Good O (m.log (.received sid x m.time)) :=
    fun x hx hf hs => h.quiet (quiet_log m (neutral_received hx hf hs))
  unfold Machine.signal
  cases x with
  | busy =>
    have hg := (h.onActive sid (x := .busy) rfl m.time .busy).stateFor sid
    exact hg.quiet (quiet_clearPendingProviderAction _ _)
  | retry action =>
    have hg := h.onActive sid (x := .retry action) rfl m.time .retry
    cases action with
    | none => exact hg
    | some a => exact hg.onProviderAction sid a
  | idle => exact h.onIdle sid
  | failed => exact h.onTerminalSignal sid (x := .failed) rfl m.time
  | stopped => exact h.onTerminalSignal sid (x := .stopped) rfl m.time
  | questionAsked requestID questions => exact (hlog (.questionAsked ..) rfl nofun nofun).onAsked sid _ _ _
  | permissionAsked requestID permission summary => exact (hlog (.permissionAsked ..) rfl nofun nofun).onAsked sid _ _ _
  | questionResolved requestID => exact (hlog (.questionResolved _) rfl nofun nofun).onResolved sid _ _
  | permissionResolved requestID => exact (hlog (.permissionResolved _) rfl nofun nofun).onResolved sid _ _

/-! ## Timers, flushes, disposal -/

theorem quiet_rearm (m : Machine) (sid : JsString) (o : Nat) : Quiet m (m.rearm O sid o) := by
  unfold rearm
  split
  · exact quiet_armHeartbeat m sid o
  · exact Quiet.refl m

theorem Good.onHeartbeatTick {m : Machine} (h : Good O m) (sid : JsString) (o : Nat) :
    Good O (m.onHeartbeatTick O sid o) := by
  unfold Machine.onHeartbeatTick
  have hg := h.quiet (quiet_modify m o (f := fun s => { s with heartbeatTimer := none }) fun _ => ⟨rfl, rfl, rfl⟩)
  dsimp only
  split
  · exact (hg.emit (e := .heartbeat sid _ _) fun _ _ _ => nofun).quiet
      ⟨rfl, rfl, fun _ => rfl, fun _ => rfl, fun _ => rfl, fun _ _ h _ => h, [], rfl, by simp⟩
  · exact hg.quiet (quiet_rearm _ sid o)

/-- A debounce timer that fires is what `clearIdleTimer` would have cleared. -/
theorem clearIdleTimer_eq {m : Machine} {o k : Nat} (h : (m.objects o).idleTimer = some k) :
    (m.clearTimeout k).modify o (fun s => { s with idleTimer := none }) = m.clearIdleTimer o := by
  rw [clearIdleTimer, h]

theorem Good.fire {m : Machine} (h : Good O m) (k : Nat) : Good O (m.fire O k) := by
  unfold Machine.fire
  cases hk : (m.timers.get k).filter (·.due ≤ m.time) with
  | none => exact h
  | some t =>
    obtain ⟨hk, hdue⟩ := Option.filter_eq_some_iff.mp hk
    dsimp only
    split
    · rename_i hkind
      obtain ⟨hcur, htimer, T, hT, hT'⟩ := h.debounce k t hk hkind
      rw [clearIdleTimer_eq htimer]
      refine (h.clearIdleTimer t.object).completePendingIdle (T := T) ?_ ?_ ?_ (Or.inl ?_)
      · rw [clearIdleTimer_sessions]; exact hcur
      · rw [clearIdleTimer_self]
      · rw [clearIdleTimer_trace]; exact hT
      · rw [clearIdleTimer_time]
        have : t.due ≤ m.time := by simpa using hdue
        omega
    · exact (h.quiet (quiet_clearTimeout m k)).onHeartbeatTick t.sessionID t.object

theorem Good.flushNext {m : Machine} (h : Good O m) (i : Nat) : Good O (m.flushNext i) := by
  have hflushes : ∀ l, Good O { m with flushes := l } := fun l =>
    h.quiet ⟨rfl, rfl, fun _ => rfl, fun _ => rfl, fun _ => rfl, fun _ _ h _ => h, [], rfl, by simp⟩
  unfold Machine.flushNext
  cases m.flushes[i]? with
  | none => exact h
  | some cursor =>
    dsimp only
    cases hfind : m.sessions.entries.find? fun e => cursor ≤ e.2 with
    | none => exact hflushes _
    | some e =>
      obtain ⟨sid, o⟩ := e
      have hs : m.sessions.get sid = some o := OMap.get_eq_some.mpr (List.mem_of_find?_eq_some hfind)
      dsimp only
      split
      · rename_i hidle
        have hg := hflushes (m.flushes.set i (o + 1))
        obtain ⟨-, T, hT⟩ := (hg.fits sid o hs).pending hidle
        refine Good.completePendingIdle (T := T)
          ((hg.clearIdleTimer o).quiet (quiet_log _ fun _ => ⟨rfl, rfl, rfl, rfl⟩))
          ?_ ?_ ?_ (Or.inr rfl)
        · rw [log_sessions, clearIdleTimer_sessions]; exact hs
        · rw [log_objects, clearIdleTimer_self]
        · rw [log_trace, clearIdleTimer_trace]; exact hT.cons rfl
      · exact hflushes _

/-- A session without an armed debounce timer may be dropped. -/
theorem Good.delete {m : Machine} (h : Good O m) {sid : JsString}
    (htimers : ∀ k t, m.timers.get k = some t → t.kind = .debounce → t.sessionID ≠ sid) :
    Good O (({ m with sessions := m.sessions.delete sid } : Machine).log (.disposed sid)) := by
  have hget : ∀ s, (m.sessions.delete sid).get s = if s = sid then none else m.sessions.get s :=
    fun s => OMap.get_delete m.sessions sid s
  have hneutral : ∀ s, s ≠ sid → (Entry.disposed sid).Neutral s := fun s hs => Entry.neutral_of_ne fun he => hs he.symm
  refine ⟨?_, ?_, ?_, ?_, ?_, lawful_cons (lawful_of_not_terminal fun _ => rfl) h.lawful⟩
  · intro s p hp
    replace hp : (m.sessions.delete sid).get s = some p := hp
    rw [hget] at hp
    split at hp
    · cases hp
    · exact h.made s p hp
  · intro s s' p hp hp'
    replace hp : (m.sessions.delete sid).get s = some p := hp
    replace hp' : (m.sessions.delete sid).get s' = some p := hp'
    rw [hget] at hp hp'
    split at hp <;> split at hp'
    · cases hp
    · cases hp
    · cases hp'
    · exact h.single s s' p hp hp'
  · intro k t hk hkind
    obtain ⟨hcur, htimer, T, hT, hdue⟩ := h.debounce k t hk hkind
    have hsid := htimers k t hk hkind
    exact ⟨((hget _).trans (if_neg hsid)).trans hcur, htimer, T, hT.cons (hneutral _ hsid).interrupts, hdue⟩
  · intro s hn
    by_cases hsid : s = sid
    · subst hsid
      refine ⟨?_, rfl, ?_, (by rintro ⟨⟩)⟩
      · simp [terminated_cons, Entry.boundary, SessionState.new]
      · simp [outcomes_cons, Entry.boundary, SessionState.new, Highest]
    · exact (h.absent s (((hget s).trans (if_neg hsid)).symm.trans hn)).cons (hneutral s hsid)
  · intro s p hp
    replace hp : (m.sessions.delete sid).get s = some p := hp
    rw [hget] at hp
    split at hp
    · cases hp
    · rename_i hsid
      exact (h.fits s p hp).cons (hneutral s hsid)

theorem Good.disposeSession {m : Machine} (h : Good O m) (sid : JsString) : Good O (m.disposeSession sid) := by
  unfold Machine.disposeSession
  cases hs : m.sessions.get sid with
  | some o =>
    have q := quiet_clearHeartbeat (m.clearIdleTimer o) o
    have hg := (h.clearIdleTimer o).quiet q
    refine hg.delete ?_
    intro k t hk hkind hsid
    obtain ⟨hcur, htimer, -⟩ := hg.debounce k t hk hkind
    rw [q.sessions, clearIdleTimer_sessions, hsid, hs] at hcur
    obtain rfl := Option.some.inj hcur
    rw [q.idle, clearIdleTimer_self] at htimer
    cases htimer
  | none =>
    refine h.delete ?_
    intro k t hk hkind hsid
    have hcur := (h.debounce k t hk hkind).1
    rw [hsid, hs] at hcur
    cases hcur

theorem Good.apply {m : Machine} (h : Good O m) (op : MachineOp) : Good O (m.apply O op) := by
  cases op with
  | signal sid x => exact h.signal sid x
  | fire k => exact h.fire k
  | ticked i =>
    show Good O (m.ticked O i)
    unfold Machine.ticked
    split
    · exact h
    · refine Good.quiet (h.quiet ?_) (quiet_rearm _ _ _)
      exact ⟨rfl, rfl, fun _ => rfl, fun _ => rfl, fun _ => rfl, fun _ _ h _ => h, [], rfl, by simp⟩
  | flushPendingCompletions =>
    exact h.quiet ⟨rfl, rfl, fun _ => rfl, fun _ => rfl, fun _ => rfl, fun _ _ h _ => h, [], rfl, by simp⟩
  | flushNext i => exact h.flushNext i
  | disposeSession sid => exact h.disposeSession sid
  | disposeAll =>
    show Good O (m.sessions.keys.foldl Machine.disposeSession m)
    generalize m.sessions.keys = ks
    induction ks generalizing m with
    | nil => exact h
    | cons sid ks ih => exact ih (h.disposeSession sid)

theorem Good.step {m : Machine} (h : Good O m) (e : MachineEvent) : Good O (m.step O e) := by
  refine Good.apply (h.quiet ?_) e.op
  exact ⟨rfl, rfl, fun _ => rfl, fun _ => rfl, fun _ => rfl, fun _ _ h _ => h, [], rfl, by simp⟩

theorem good_run (es : List MachineEvent) : Good O (run O es) :=
  runFrom_inv (I := Good O) (fun _ e h => h.step e) Good.init es

/-! ## The theorem -/

theorem terminated_eq_false {sid : JsString} {t : List Entry} :
    terminated sid t = false ↔ ∀ x ∈ round sid t, x.terminal sid = false := by
  simp [terminated]

/-- In a round without a terminal a failure or a stop goes out at once. -/
theorem signal_emits {m : Machine} (h : Good O m) {sid : JsString} (hr : terminated sid m.trace = false) {x : Signal}
    {outcome : TerminalOutcome} (hx : x.outcome = some outcome) :
    ∃ ms, (m.signal O sid x).trace =
      .effect (.terminal sid outcome ms) m.time :: .received sid x m.time :: m.trace := by
  obtain ⟨m', o, ms, hg, hs, -, htrace, htime, heq⟩ :=
    onTerminalSignal_eq (O := O) m sid (.received sid x m.time) outcome
  have hsent : (m'.objects o).terminalSent = false := ((hg h).fits sid o hs).sent.trans (htrace ▸ hr)
  refine ⟨ms, ?_⟩
  have hsig : m.signal O sid x = (m.log (.received sid x m.time)).onTerminalSignal sid outcome := by
    cases x with
    | failed | stopped => cases hx; rfl
    | _ => cases hx
  rw [hsig, heq, if_neg (by simp [hsent]), emit, log_trace, modify_trace, log_trace, htrace]
  exact congrArg (fun n => Entry.effect _ n :: _) htime

variable (O) in
theorem one_terminal_a_round (es : List MachineEvent) (sid : JsString) :
    (∀ e t, e :: t <:+ (run O es).trace → e.terminal sid = true → ∀ x ∈ round sid t, x.terminal sid = false) ∧
    (∀ ms time t, .effect (.terminal sid .completed ms) time :: t <:+ (run O es).trace →
      ∃ T, Idled sid T t ∧ (T + O.idleDebounceMs ≤ time ∨ t.head? = some (.flushed sid))) ∧
    (∀ (e : MachineEvent) x outcome, e.op = .signal sid x → x.outcome = some outcome →
      (∀ y ∈ round sid (run O es).trace, y.terminal sid = false) →
      ∃ ms time, ((run O es).step O e).trace =
        .effect (.terminal sid outcome ms) time :: .received sid x time :: (run O es).trace) ∧
    (∀ o, (run O es).sessions.get sid = some o →
      Highest ((run O es).objects o).terminalOutcome (outcomes sid (run O es).trace)) := by
  have h := good_run (O := O) es
  refine ⟨?_, ?_, ?_, ?_⟩
  · intro e t hsuf ht
    exact terminated_eq_false.mp ((h.lawful e t hsuf).once sid ht)
  · intro ms time t hsuf
    exact (h.lawful _ t hsuf).debounced sid ms time rfl
  · intro e x outcome hop hx hr
    have hnow : Good O { run O es with nowMs := e.nowMs, time := max (run O es).time e.time } :=
      h.quiet ⟨rfl, rfl, fun _ => rfl, fun _ => rfl, fun _ => rfl, fun _ _ h _ => h, [], rfl, by simp⟩
    obtain ⟨ms, hms⟩ := signal_emits hnow (terminated_eq_false.mpr hr) hx
    refine ⟨ms, max (run O es).time e.time, ?_⟩
    rw [Machine.step, hop]
    exact hms
  · intro o hs
    exact (h.fits sid o hs).outcome

example : (run ⟨100, 1000, false, fun _ => []⟩
    [⟨5, 5, .signal [7] .busy⟩, ⟨9, 9, .signal [7] .idle⟩, ⟨109, 109, .fire 0⟩,
      ⟨120, 120, .signal [7] .failed⟩]).trace =
    [.received [7] .failed 120, .effect (.terminal [7] .completed 4) 109, .received [7] .idle 9, .opened [7],
      .received [7] .busy 5] := by decide

end NotifyHub.Plugin
