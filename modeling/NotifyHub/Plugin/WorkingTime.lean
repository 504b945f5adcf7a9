/-
  NotifyHub.Plugin.WorkingTime — the elapsed time of a terminal, from the history alone.

  A session's round reaches back to its last terminal or disposal. It started working at
  the clock of its first busy or retry (`workStart`), and went idle at the clock of the
  first idle after its last busy or retry (`idleStart`). Proved, over every run and every
  clock (`exact_working_time`): a completion was idle, and counts from the start to the
  idle; a failure or stop counts to the idle if there is one, else to now; a round without
  a busy counts nothing; and no idle, nor a busy after one, moves the start.
-/

import NotifyHub.Plugin.TimerState

namespace NotifyHub.Plugin

open Machine

variable {O : MachineOptions}

namespace Entry

/-- A busy or a retry of the session. -/
def starts (sid : JsString) : Entry → Bool
  | received s x _ => s = sid ∧ x.active = true
  | _ => false

/-- A terminal or a disposal of the session. -/
def ends (sid : JsString) : Entry → Bool
  | effect (.terminal s _ _) _ => s = sid
  | disposed s => s = sid
  | _ => false

def idles (sid : JsString) : Entry → Bool
  | received s .idle _ => s = sid
  | _ => false

end Entry

/-- The clock at the oldest such entry. -/
def firstAt (p : Entry → Bool) (t : List (Nat × Entry)) : Option Nat := ((t.filter fun e => p e.2).getLast?).map (·.1)

/-- The history back to the last such entry. -/
def sinceLast (p : Entry → Bool) (t : List (Nat × Entry)) : List (Nat × Entry) := t.takeWhile fun e => !p e.2

def workStart (sid : JsString) (t : List (Nat × Entry)) : Option Nat :=
  firstAt (·.starts sid) (sinceLast (·.ends sid) t)

def idleStart (sid : JsString) (t : List (Nat × Entry)) : Option Nat :=
  firstAt (·.idles sid) (sinceLast (fun e => e.ends sid || e.starts sid) t)

/-- The time worked until `at`. -/
def worked (sid : JsString) (t : List (Nat × Entry)) (till : Nat) : Nat := ((workStart sid t).map (till - ·)).getD 0

/-- A terminal after `t` says what its round worked. -/
structure Timed (sid : JsString) (t : List (Nat × Entry)) (now : Nat) (outcome : TerminalOutcome) (ms : Nat) :
    Prop where
  completed : outcome = .completed → ∃ till, idleStart sid t = some till ∧ ms = worked sid t till
  ended : outcome ≠ .completed → ms = worked sid t ((idleStart sid t).getD now)

/-! ## One more entry -/

theorem firstAt_cons (p : Entry → Bool) (now : Nat) (e : Entry) (t : List (Nat × Entry)) :
    firstAt p ((now, e) :: t) = if p e then some ((firstAt p t).getD now) else firstAt p t := by
  unfold firstAt
  rw [List.filter_cons]
  cases p e with
  | false => rfl
  | true =>
    rw [if_pos rfl, if_pos rfl, List.getLast?_cons]
    cases (t.filter fun e => p e.2).getLast? <;> rfl

theorem sinceLast_cons (p : Entry → Bool) (now : Nat) (e : Entry) (t : List (Nat × Entry)) :
    sinceLast p ((now, e) :: t) = if p e then [] else (now, e) :: sinceLast p t := by
  unfold sinceLast
  rw [List.takeWhile_cons]
  cases p e <;> rfl

theorem workStart_cons (sid : JsString) (now : Nat) (e : Entry) (t : List (Nat × Entry)) :
    workStart sid ((now, e) :: t) =
      if e.ends sid then none else if e.starts sid then some ((workStart sid t).getD now) else workStart sid t := by
  unfold workStart
  rw [sinceLast_cons]
  split
  · rfl
  · exact firstAt_cons _ _ _ _

theorem idleStart_cons (sid : JsString) (now : Nat) (e : Entry) (t : List (Nat × Entry)) :
    idleStart sid ((now, e) :: t) =
      if e.ends sid || e.starts sid then none
      else if e.idles sid then some ((idleStart sid t).getD now) else idleStart sid t := by
  unfold idleStart
  rw [sinceLast_cons]
  split
  · rfl
  · exact firstAt_cons _ _ _ _

/-- An entry that no elapsed time of the session depends on. -/
structure Entry.Idle (e : Entry) (sid : JsString) : Prop where
  ends : e.ends sid = false
  starts : e.starts sid = false
  idles : e.idles sid = false

theorem Entry.idle_of_ne {e : Entry} {sid : JsString} (h : e.sessionID ≠ sid) : e.Idle sid where
  ends := by unfold Entry.ends; split <;> simp_all
  starts := by unfold Entry.starts; split <;> simp_all
  idles := by unfold Entry.idles; split <;> simp_all

/-- Of the signals, busies, retries and idles count. -/
theorem Entry.idle_received (sid : JsString) (x : Signal) (ha : x.active = false) (hi : x ≠ .idle) (time : Nat) :
    (Entry.received sid x time).Idle sid := by
  refine ⟨rfl, by simp [Entry.starts, ha], ?_⟩
  cases x with
  | idle => exact absurd rfl hi
  | _ => rfl

theorem Entry.idle_asks {sid : JsString} {x : Signal} {p : PendingActionKind × JsString × ActionDetails}
    (hx : x.asks = some p) (time : Nat) : (Entry.received sid x time).Idle sid := by
  cases x with
  | questionAsked | permissionAsked => exact idle_received sid _ rfl (by nofun) time
  | _ => cases hx

theorem Entry.idle_resolves {sid : JsString} {x : Signal} {p : PendingActionKind × JsString}
    (hx : x.resolves = some p) (time : Nat) : (Entry.received sid x time).Idle sid := by
  cases x with
  | questionResolved | permissionResolved => exact idle_received sid _ rfl (by nofun) time
  | _ => cases hx

theorem Entry.idle_outcome {sid : JsString} {x : Signal} {outcome : TerminalOutcome}
    (hx : x.outcome = some outcome) (time : Nat) : (Entry.received sid x time).Idle sid := by
  cases x with
  | failed | stopped => exact idle_received sid _ rfl (by nofun) time
  | _ => cases hx

section
variable {sid : JsString} {e : Entry} (h : e.Idle sid) (now : Nat) (t : List (Nat × Entry))
include h

theorem Entry.Idle.workStart : workStart sid ((now, e) :: t) = Plugin.workStart sid t := by
  simp only [workStart_cons, h.ends, h.starts, Bool.false_eq_true, if_false]

theorem Entry.Idle.idleStart : idleStart sid ((now, e) :: t) = Plugin.idleStart sid t := by
  simp only [idleStart_cons, h.ends, h.starts, h.idles, Bool.or_self, Bool.false_eq_true, if_false]

theorem Entry.Idle.worked (till : Nat) : worked sid ((now, e) :: t) till = Plugin.worked sid t till := by
  unfold Plugin.worked
  rw [h.workStart]

end

/-- Nothing but a terminal or a disposal moves the start of a round's work. -/
theorem workStart_append {sid : JsString} {w : Nat} {t : List (Nat × Entry)} (hw : workStart sid t = some w)
    (u : List (Nat × Entry)) (hu : ∀ e ∈ u, e.2.ends sid = false) : workStart sid (u ++ t) = some w := by
  induction u with
  | nil => exact hw
  | cons e u ih =>
    obtain ⟨now, e⟩ := e
    have he := hu (now, e) List.mem_cons_self
    rw [List.cons_append, workStart_cons, ih fun x hx => hu x (List.mem_cons_of_mem _ hx), if_neg (by simp [he])]
    split <;> rfl

/-! ## The invariant -/

/-- The state's clock readings are the history's. -/
structure Clocked (sid : JsString) (t : List (Nat × Entry)) (s : SessionState) : Prop where
  tidy : Tidy s
  busy : s.busySince = workStart sid t
  sent : s.terminalSent = true → s.busySince = none
  frozen : s.terminalSent = false → s.pendingElapsedMs = (idleStart sid t).map (worked sid t)
  timed : ∀ now outcome ms time t', (now, .effect (.terminal sid outcome ms) time) :: t' <:+ t →
    Timed sid t' now outcome ms

section
variable {sid : JsString} {t : List (Nat × Entry)} {s : SessionState}

theorem Clocked.elapsed (h : Clocked sid t s) (now : Nat) : s.elapsedMs now = worked sid t now := by
  rw [SessionState.elapsedMs, h.busy]
  rfl

theorem Clocked.ended (h : Clocked sid t s) (hs : s.terminalSent = false) (now : Nat) :
    s.pendingElapsedMs.getD (s.elapsedMs now) = worked sid t ((idleStart sid t).getD now) := by
  rw [h.elapsed, h.frozen hs]
  cases idleStart sid t <;> rfl

/-- Only a terminal has to be timed. -/
theorem timed_cons (e : Entry) (now : Nat) (h : ∀ now outcome ms time t',
      (now, .effect (.terminal sid outcome ms) time) :: t' <:+ t → Timed sid t' now outcome ms)
    (he : ∀ outcome ms time, e = .effect (.terminal sid outcome ms) time → Timed sid t now outcome ms) :
    ∀ now' outcome ms time t', (now', .effect (.terminal sid outcome ms) time) :: t' <:+ (now, e) :: t →
      Timed sid t' now' outcome ms := by
  intro now' outcome ms time t' hsuf
  rcases List.suffix_cons_iff.mp hsuf with heq | hsuf
  · obtain ⟨hhead, rfl⟩ := List.cons.inj heq
    cases hhead
    exact he outcome ms time rfl
  · exact h now' outcome ms time t' hsuf

theorem Clocked.cons (h : Clocked sid t s) {e : Entry} (he : e.Idle sid) (now : Nat) :
    Clocked sid ((now, e) :: t) s where
  tidy := h.tidy
  busy := by rw [he.workStart]; exact h.busy
  sent := h.sent
  frozen hs := by
    rw [he.idleStart, h.frozen hs]
    exact congrArg (fun f => (idleStart sid t).map f) (funext fun till => (he.worked now t till).symm)
  timed := by
    refine timed_cons _ _ h.timed fun outcome ms time heq => ?_
    have hends := he.ends
    rw [heq] at hends
    simp [Entry.ends] at hends

/-- Only the clock readings and the timers count. -/
theorem Clocked.congr (h : Clocked sid t s) {s' : SessionState} (htidy : Tidy s') (hbusy : s'.busySince = s.busySince)
    (hsent : s'.terminalSent = s.terminalSent) (hpending : s'.pendingElapsedMs = s.pendingElapsedMs) :
    Clocked sid t s' where
  tidy := htidy
  busy := hbusy.trans h.busy
  sent hs := hbusy.trans (h.sent (hsent ▸ hs))
  frozen hs := hpending.trans (h.frozen (hsent ▸ hs))
  timed := h.timed

theorem Clocked.opening (h : Clocked sid t s) (now : Nat) (r : SessionState) :
    Clocked sid ((opening sid r).map (now, ·) ++ t) s := by
  unfold Plugin.opening
  split
  · exact h
  · exact h.cons ⟨rfl, rfl, rfl⟩ now

/-- A busy or a retry comes in. -/
theorem Clocked.activated (h : Clocked sid t s) (x : Signal) (hx : x.active = true) (now handle time : Nat)
    (status : SessionStatus) (hs : status ≠ .idle) :
    Clocked sid ((now, .received sid x time) :: t) (s.activated O now handle status) := by
  have htidy := Tidy.activated (O := O) s now handle status hs
  have hstarts : (Entry.received sid x time).starts sid = true := by simp [Entry.starts, hx]
  have hends : (Entry.received sid x time).ends sid = false := rfl
  obtain ⟨hb, outcome, he⟩ := s.activated_eq (O := O) now handle status
  rw [he] at htidy ⊢
  refine ⟨htidy, ?_, fun hsent => ?_, fun _ => ?_, timed_cons _ _ h.timed fun _ _ _ heq => by cases heq⟩
  · simp only [workStart_cons, hends, hstarts, h.busy, Bool.false_eq_true, if_false, if_true]
  · -- a round with a terminal has no start
    obtain ⟨hbusy, hsent⟩ := Bool.and_eq_true_iff.mp hsent
    rw [h.sent hsent] at hbusy
    cases hbusy
  · simp only [idleStart_cons, hstarts, Bool.or_true, if_true, Option.map_none]

end

theorem Clocked.idled {sid : JsString} {t : List (Nat × Entry)} {s : SessionState} (h : Clocked sid t s)
    (now handle time : Nat) : Clocked sid ((now, .received sid .idle time) :: t) (s.idled now handle) := by
  have htidy := h.tidy.idled now handle
  have hwork : workStart sid ((now, .received sid .idle time) :: t) = workStart sid t := by
    simp [workStart_cons, Entry.ends, Entry.starts, Signal.active]
  have hworked : worked sid ((now, .received sid .idle time) :: t) = worked sid t := by
    unfold worked
    rw [hwork]
  have hidle : idleStart sid ((now, .received sid .idle time) :: t) = some ((idleStart sid t).getD now) := by
    simp [idleStart_cons, Entry.ends, Entry.starts, Entry.idles, Signal.active]
  have htimed := timed_cons (.received sid .idle time) now h.timed fun _ _ _ heq => by cases heq
  unfold SessionState.idled at htidy ⊢
  split
  · rename_i hc
    rw [if_pos hc] at htidy
    refine ⟨htidy, h.busy.trans hwork.symm, h.sent, fun hs => ?_, htimed⟩
    -- the window is open: its first idle stays
    have hs : s.terminalSent = false := hs
    have hsome : s.idleTimer.isSome = true := hc.resolve_right (by simp [hs])
    have hfrozen := h.frozen hs
    rw [h.tidy.pending, hfrozen, Option.isSome_map] at hsome
    obtain ⟨till, htill⟩ := Option.isSome_iff_exists.mp hsome
    rw [hworked, hidle, htill]
    rw [htill] at hfrozen
    exact hfrozen
  · rename_i hc
    rw [if_neg hc] at htidy
    refine ⟨htidy, h.busy.trans hwork.symm, h.sent, fun hs => ?_, htimed⟩
    have hnone : idleStart sid t = none := by
      have hfrozen := h.frozen hs
      have hpending := h.tidy.pending
      rw [hfrozen, Option.isSome_map] at hpending
      rw [← Option.not_isSome_iff_eq_none, ← hpending]
      exact (not_or.mp hc).1
    rw [hworked, hidle, hnone, h.elapsed]
    rfl

theorem Clocked.turn {now time : Nat} {sid : JsString} {t : List (Nat × Entry)} {s s' : SessionState} {es : List Entry}
    (h : Clocked sid t s) (ht : Turn O now time sid s es s') : Clocked sid (es.map (now, ·) ++ t) s' := by
  have htidy := h.tidy.turn ht
  cases ht with
  | rest => exact h
  | busy handle =>
    rw [List.map_append, List.append_assoc]
    exact ((h.activated (O := O) .busy rfl now handle time .busy (by nofun)).opening now s).congr htidy rfl rfl rfl
  | retry handle action =>
    rw [List.map_append, List.append_assoc]
    exact (h.activated (O := O) (.retry action) rfl now handle time .retry (by nofun)).opening now s
  | provider handle a =>
    rw [List.map_cons, List.map_append, List.cons_append, List.append_assoc]
    refine Clocked.congr (s := s.activated O now handle .retry) (Clocked.cons ?_ ⟨rfl, rfl, rfl⟩ now) htidy rfl rfl rfl
    exact (h.activated (O := O) (.retry (some a)) rfl now handle time .retry (by nofun)).opening now s
  | idle handle => exact h.idled now handle time
  | ended x outcome hx =>
    have h1 := h.cons (Entry.idle_outcome hx time) now
    rw [List.map_append, List.append_assoc]
    cases hsent : s.terminalSent with
    | true =>
      refine ⟨htidy, ?_, fun _ => rfl, nofun, h1.timed⟩
      exact (h1.sent hsent).symm.trans h1.busy
    | false =>
      show Clocked sid ((now, .effect (.terminal sid outcome _) time) :: (now, .received sid x time) :: t)
        (s.ended outcome)
      refine ⟨htidy, ?_, fun _ => rfl, nofun, timed_cons _ _ h1.timed fun outcome' ms time' heq => ?_⟩
      · simp only [workStart_cons, Entry.ends, decide_true, if_true]
        rfl
      · cases heq
        exact ⟨fun hc => absurd hc (Signal.outcome_ne hx), fun _ => h1.ended hsent now⟩
  | repeated x _ _ _ hx => exact h.cons (Entry.idle_asks hx time) now
  | asked x _ _ _ hx =>
    exact ((h.cons (Entry.idle_asks hx time) now).cons ⟨rfl, rfl, rfl⟩ now).congr htidy rfl rfl rfl
  | unknown x _ _ hx => exact h.cons (Entry.idle_resolves hx time) now
  | resolved x _ _ hx =>
    exact ((h.cons (Entry.idle_resolves hx time) now).cons ⟨rfl, rfl, rfl⟩ now).congr htidy rfl rfl rfl
  | completed flushed hidle hsent =>
    have h1 : Clocked sid ((if flushed then [Entry.flushed sid] else []).map (now, ·) ++ t) s := by
      cases flushed with
      | false => exact h
      | true => exact h.cons ⟨rfl, rfl, rfl⟩ now
    rw [List.map_cons, List.cons_append]
    generalize (if flushed then [Entry.flushed sid] else []).map (now, ·) ++ t = t1 at h1 ⊢
    refine ⟨htidy, ?_, fun _ => rfl, nofun, timed_cons _ _ h1.timed fun outcome ms time' heq => ?_⟩
    · simp [workStart_cons, Entry.ends]
      rfl
    · cases heq
      refine ⟨fun _ => ?_, fun hc => absurd rfl hc⟩
      have hsome := h1.tidy.pending
      rw [hidle, h1.frozen hsent, Option.isSome_map] at hsome
      obtain ⟨till, htill⟩ := Option.isSome_iff_exists.mp hsome.symm
      refine ⟨till, htill, ?_⟩
      rw [h1.frozen hsent, htill]
      rfl
  | beat => exact (h.cons ⟨rfl, rfl, rfl⟩ now).congr htidy rfl rfl rfl
  | stopped => exact h.congr htidy rfl rfl rfl
  | rearmed handle =>
    unfold SessionState.armed at htidy ⊢
    split
    · exact h
    · rename_i hc
      rw [if_neg hc] at htidy
      exact h.congr htidy rfl rfl rfl
  | disposed =>
    refine ⟨htidy, ?_, nofun, fun _ => ?_, timed_cons _ _ h.timed fun _ _ _ heq => by cases heq⟩
    · simp [workStart_cons, Entry.ends, SessionState.new]
    · simp [idleStart_cons, Entry.ends, SessionState.new]

theorem clocked_run (es : List MachineEvent) (sid : JsString) : Clocked sid (clocked O es) ((run O es).state sid) := by
  refine Kept.run (O := O) (I := Clocked sid) ⟨fun t s now e he h => h.cons (Entry.idle_of_ne he) now,
    fun now time t s es s' ht h => h.turn ht⟩ ?_ es
  refine ⟨.new, rfl, nofun, fun _ => rfl, fun now outcome ms time t' hsuf => ?_⟩
  cases List.suffix_nil.mp hsuf

/-! ## The theorem -/

variable (O) in
theorem exact_working_time (es : List MachineEvent) (sid : JsString) :
    (clocked O es).map Prod.snd = (run O es).trace ∧
    (∀ now ms time t, (now, .effect (.terminal sid .completed ms) time) :: t <:+ clocked O es →
      ∃ till, idleStart sid t = some till ∧ ms = worked sid t till) ∧
    (∀ now outcome ms time t, outcome ≠ .completed →
      (now, .effect (.terminal sid outcome ms) time) :: t <:+ clocked O es →
      ms = worked sid t ((idleStart sid t).getD now)) ∧
    (∀ u t w, u ++ t <:+ clocked O es → (∀ e ∈ u, e.2.ends sid = false) → workStart sid t = some w →
      workStart sid (u ++ t) = some w) := by
  have h := clocked_run (O := O) es sid
  refine ⟨clocked_map es, ?_, ?_, ?_⟩
  · intro now ms time t hsuf
    exact (h.timed now _ ms time t hsuf).completed rfl
  · intro now outcome ms time t hne hsuf
    exact (h.timed now outcome ms time t hsuf).ended hne
  · intro u t w _ hu hw
    exact workStart_append hw u hu

end NotifyHub.Plugin
