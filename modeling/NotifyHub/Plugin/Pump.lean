/-
  NotifyHub.Plugin.Pump — delivery over the bounded queue (packages/plugin/src/pump.ts).

  `drain` hands one event at a time to the sender and awaits the send. Between its awaits it
  runs at once, and so do `enqueue`, `kick` and `stop`. When a drain has found the queue
  empty its promise is settled; the reactions to that (`settle` of `kick`, the rest of
  `stop`) come at some time after.

  Proved, over every run (`pump_delivers`):
  - one send is in flight at most;
  - what was handed to the sender is what the queue gave out, in its order, and what was
    accepted was handed over, was evicted or waits;
  - an idle pump that is not stopped has an empty queue, and where nothing is under way
    nothing waits; each settlement of what is under way brings that nearer;
  - once `stop` has resolved, what was accepted was handed over or evicted, and nothing is
    handed over any more.
-/

import NotifyHub.Plugin.Queue

namespace NotifyHub.Plugin

/-- How far a call of `drain` has come. -/
inductive Drain (T : Type) where
  /-- It awaits the send of an event. -/
  | sending (event : T)
  /-- It has found the queue empty and returned. -/
  | returned
  deriving DecidableEq

/-- How far the operation of `stop` has come. -/
inductive Stopping where
  /-- It awaits the drain that ran when it was called. -/
  | waiting (current : Nat)
  /-- It awaits a drain of its own. -/
  | draining (n : Nat)
  | resolved
  deriving DecidableEq

structure Pump (T : Type) where
  /-- The queue, with its history. -/
  log : QueueRun T
  /-- Every call of `drain`, in order. -/
  drains : List (Drain T)
  draining : Option Nat
  stopped : Bool
  stopping : Option Stopping
  /-- What was handed to the sender, in order. -/
  sent : List T

inductive PumpEvent (T : Type) where
  | enqueue (event : T)
  | kick
  | stop
  /-- The send that drain `n` awaits settles; a failure is logged and the event dropped. -/
  | settled (n : Nat) (ok : Bool)
  /-- `settle`, the reaction of `kick` to the end of drain `n`. -/
  | react (n : Nat)
  /-- `stop` goes on after the drain it awaits. -/
  | resumeStop

namespace Pump

variable {T : Type}

def init (q : BoundedQueue T) : Pump T := ⟨QueueRun.init q, [], none, false, none, []⟩

variable (s : Pump T)

def size : Nat := s.log.queue.entries.length

/-- The loop of `drain` up to its next await: the event it hands over, if there is one. -/
def next : Pump T × Drain T :=
  match s.log.queue.dequeue.2 with
  | none => ({ s with log := s.log.step .dequeue }, .returned)
  | some event => ({ s with log := s.log.step .dequeue, sent := s.sent ++ [event] }, .sending event)

/-- A new call of `drain`. -/
def drain : Pump T := { s.next.1 with drains := s.drains ++ [s.next.2] }

def kick : Pump T :=
  if s.stopped || s.draining.isSome then s else { s.drain with draining := some s.drains.length }

/-- `enqueue`; a stopped pump refuses the event. -/
def enqueue (event : T) : Pump T :=
  if s.stopped then s else { s with log := s.log.step (.enqueue event) }.kick

/-- `stop` once no drain runs that it has to await. -/
def finish : Pump T :=
  if 0 < s.size then { s.drain with stopping := some (.draining s.drains.length) }
  else { s with stopping := some .resolved }

def stop : Pump T :=
  if s.stopping.isSome then s
  else
    match s.draining with
    | some current => { s with stopped := true, stopping := some (.waiting current) }
    | none => { s with stopped := true }.finish

/-- The promise of drain `n` is settled. -/
def done (n : Nat) : Bool :=
  match s.drains[n]? with
  | some .returned => true
  | _ => false

/-- `settle` -/
def react (n : Nat) : Pump T :=
  if s.done n = true ∧ s.draining = some n then
    if s.stopped = false ∧ 0 < s.size then { s with draining := none }.kick else { s with draining := none }
  else s

def resumeStop : Pump T :=
  match s.stopping with
  | some (.waiting current) => if s.done current then s.finish else s
  | some (.draining n) => if s.done n then { s with stopping := some .resolved } else s
  | _ => s

def step (s : Pump T) : PumpEvent T → Pump T
  | .enqueue event => s.enqueue event
  | .kick => s.kick
  | .stop => s.stop
  | .settled n _ =>
    match s.drains[n]? with
    | some (.sending _) => { s.next.1 with drains := s.drains.set n s.next.2 }
    | _ => s
  | .react n => s.react n
  | .resumeStop => s.resumeStop

abbrev run (q : BoundedQueue T) (es : List (PumpEvent T)) : Pump T := runFrom step (init q) es

end Pump

namespace Pump

variable {T : Type} {s : Pump T}

/-! ## One drain at a time -/

/-- What the loop does between two awaits. -/
inductive Next (s : Pump T) : Pump T × Drain T → Prop where
  | empty (log : QueueRun T) (hq : log.queue = s.log.queue) (hd : log.dequeued = s.log.dequeued)
    (h : s.log.queue.entries = []) : Next s ({ s with log := log }, .returned)
  | handed (log : QueueRun T) (event : T) (hd : log.dequeued = s.log.dequeued ++ [event])
    (h : log.queue.entries.length + 1 = s.size) :
    Next s ({ s with log := log, sent := s.sent ++ [event] }, .sending event)

theorem next_spec (s : Pump T) : Next s s.next := by
  have hx := BoundedQueue.dequeue_spec s.log.queue
  unfold next QueueRun.step
  dsimp only
  generalize s.log.queue.dequeue = x at hx
  cases hx with
  | empty h => exact .empty _ rfl (List.append_nil _) h
  | taken i v hv =>
    refine .handed _ _ rfl ?_
    obtain ⟨hlt, -⟩ := List.getElem?_eq_some_iff.mp hv.1
    show (s.log.queue.entries.eraseIdx i).length + 1 = s.log.queue.entries.length
    rw [List.length_eraseIdx_of_lt hlt]
    omega

/-- The drain that may have a send in flight. -/
def active (s : Pump T) : Option Nat :=
  match s.stopping with
  | none => s.draining
  | some (.waiting n) => some n
  | some (.draining n) => some n
  | some .resolved => none

/-- What holds between any two events, whether or not a drain has to be started. -/
structure Steady (s : Pump T) : Prop where
  sole : ∀ (n : Nat) e, s.drains[n]? = some (.sending e) → s.active = some n
  known : ∀ n, s.draining = some n ∨ s.stopping = some (.waiting n) ∨ s.stopping = some (.draining n) →
    n < s.drains.length
  closed : s.stopped = s.stopping.isSome
  /-- A drain of `stop` is the last one. -/
  emptied : ∀ n, s.stopping = some (.draining n) → s.done n = true → s.size = 0
  resolved : s.stopping = some .resolved → s.size = 0
  handed : s.sent = s.log.dequeued

/-- An idle pump has nothing to do. -/
def Idle (s : Pump T) : Prop := s.stopped = false → s.draining = none → s.size = 0

theorem done_iff {n : Nat} : s.done n = true ↔ s.drains[n]? = some .returned := by
  unfold done
  split <;> simp_all

theorem not_sending (h : Steady s) {n : Nat} (hn : s.active = none ∨ s.active = some n ∧ s.done n = true)
    (m : Nat) (e : T) :
    s.drains[m]? ≠ some (.sending e) := by
  intro hm
  have hactive := h.sole m e hm
  rcases hn with hn | ⟨hn, hd⟩
  · rw [hn] at hactive
    cases hactive
  · rw [hn] at hactive
    cases hactive
    rw [done_iff.mp hd] at hm
    cases hm

theorem Steady.stopping_none (h : Steady s) (hst : s.stopped = false) : s.stopping = none := by
  have hclosed := h.closed
  rw [hst] at hclosed
  exact Option.not_isSome_iff_eq_none.mp fun hs => by rw [hs] at hclosed; cases hclosed

theorem steady_kick (h : Steady s) : Steady s.kick ∧ Idle s.kick := by
  unfold kick
  split
  · rename_i hrun
    refine ⟨h, fun hst hd => ?_⟩
    simp [hst, hd] at hrun
  · rename_i hrun
    have hdraining : s.draining = none := by
      cases hd : s.draining with
      | none => rfl
      | some n => simp [hd] at hrun
    have hst : s.stopped = false := by simpa [hdraining] using hrun
    have hstopping := h.stopping_none hst
    have hno := not_sending h (n := 0) (Or.inl (by simp [active, hstopping, hdraining]))
    refine ⟨?_, fun _ hd => by cases hd⟩
    have hx := next_spec s
    unfold drain
    generalize s.next = x at hx
    constructor
    case sole =>
      intro n e hn
      cases hx <;>
      · simp only [active, hstopping]
        rcases getElem_snoc.mp hn with hn | ⟨rfl, -⟩
        · exact absurd hn (hno n e)
        · rfl
    case known =>
      intro n hn
      cases hx <;>
      · simp only [hstopping, reduceCtorEq, or_false, Option.some.injEq] at hn
        simp only [List.length_append, List.length_singleton]
        omega
    case closed => cases hx <;> exact h.closed
    case emptied =>
      intro n hn
      cases hx <;>
      · rw [show s.stopping = some _ from hn] at hstopping
        cases hstopping
    case resolved =>
      intro hn
      cases hx <;>
      · rw [show s.stopping = some _ from hn] at hstopping
        cases hstopping
    case handed =>
      cases hx with
      | empty log hq hd hempty => exact h.handed.trans hd.symm
      | handed log event hd hlen =>
        show s.sent ++ [event] = log.dequeued
        rw [hd, h.handed]

/-- The rest of `stop`, when no drain runs. -/
theorem steady_finish (hno : ∀ (n : Nat) e, s.drains[n]? ≠ some (.sending e))
    (hk : ∀ n, s.draining = some n → n < s.drains.length)
    (hst : s.stopped = true) (hh : s.sent = s.log.dequeued) : Steady s.finish := by
  unfold finish
  split
  · rename_i hsize
    have hx := next_spec s
    unfold drain
    generalize s.next = x at hx
    cases hx with
    | empty log hq hd hempty =>
      rw [size, hempty, List.length_nil] at hsize
      exact absurd hsize (Nat.lt_irrefl _)
    | handed log event hd hlen =>
      constructor
      case sole =>
        intro n e hn
        rcases getElem_snoc.mp hn with hn | ⟨rfl, -⟩
        · exact absurd hn (hno n e)
        · rfl
      case known =>
        intro n hn
        simp only [List.length_append, List.length_singleton]
        rcases hn with hn | hn | hn
        · have := hk n hn
          omega
        · cases hn
        · cases hn
          omega
      case closed => exact hst
      case emptied =>
        intro n hn hdone
        cases hn
        have hlast : (s.drains ++ [Drain.sending event])[s.drains.length]? = some (.sending event) :=
          getElem_snoc.mpr (Or.inr ⟨rfl, rfl⟩)
        have hreturned : (s.drains ++ [Drain.sending event])[s.drains.length]? = some .returned := done_iff.mp hdone
        rw [hlast] at hreturned
        cases hreturned
      case resolved => intro hn; cases hn
      case handed =>
        show s.sent ++ [event] = log.dequeued
        rw [hd, hh]
  · rename_i hsize
    refine ⟨fun n e hn => absurd hn (hno n e), fun n hn => ?_, hst, fun n hn => (by cases hn), fun _ => by
      show s.size = 0
      omega, hh⟩
    rcases hn with hn | hn | hn
    · exact hk n hn
    · cases hn
    · cases hn

/-- Between events the pump is steady, and where it is idle it has nothing to do. -/
def Kept (s : Pump T) : Prop := Steady s ∧ Idle s

theorem kept_settled (h : Kept s) (n : Nat) (ok : Bool) : Kept (s.step (.settled n ok)) := by
  obtain ⟨h, hidle⟩ := h
  unfold step
  dsimp only
  split
  · rename_i e hn
    have hactive := h.sole n e hn
    have hlen := (List.getElem?_eq_some_iff.mp hn).1
    have hx := next_spec s
    generalize s.next = x at hx
    have hself : ∀ d : Drain T, (s.drains.set n d)[n]? = some d := fun d => getElem_set_self hn
    have hsole : ∀ (d : Drain T) (m : Nat) e', (s.drains.set n d)[m]? = some (.sending e') → m = n := by
      intro d m e' hm
      rcases (getElem_set hn).mp hm with ⟨hnm, -⟩ | ⟨-, hm⟩
      · exact hnm.symm
      · exact Option.some.inj ((h.sole m e' hm).symm.trans hactive)
    constructor
    · constructor
      case sole =>
        intro m e' hm
        cases hx <;>
        · cases hsole _ m e' hm
          exact hactive
      case known =>
        intro m hm
        cases hx <;>
        · simp only [List.length_set]
          exact h.known m hm
      case closed => cases hx <;> exact h.closed
      case emptied =>
        intro m hm hdone
        have hmn : m = n := by
          have hact : s.active = some m := by
            cases hx <;> simp only [active, show s.stopping = some _ from hm]
          exact Option.some.inj (hact.symm.trans hactive)
        subst hmn
        cases hx with
        | empty log hq hd hempty =>
          show log.queue.entries.length = 0
          rw [hq, hempty, List.length_nil]
        | handed log event hd hlen' =>
          have hreturned := done_iff.mp hdone
          cases (hself _).symm.trans hreturned
      case resolved =>
        intro hres
        have hnone : s.active = none := by
          cases hx <;> simp only [active, show s.stopping = some _ from hres]
        rw [hnone] at hactive
        cases hactive
      case handed =>
        cases hx with
        | empty log hq hd hempty => exact h.handed.trans hd.symm
        | handed log event hd hlen' =>
          show s.sent ++ [event] = log.dequeued
          rw [hd, h.handed]
    · intro hst hdr
      have hstopped : s.stopped = false := by cases hx <;> exact hst
      have hdraining : s.draining = none := by cases hx <;> exact hdr
      rw [active, h.stopping_none hstopped] at hactive
      dsimp only at hactive
      rw [hdraining] at hactive
      cases hactive
  · exact ⟨h, hidle⟩

theorem kept_enqueue (h : Kept s) (event : T) : Kept (s.enqueue event) := by
  obtain ⟨h, hidle⟩ := h
  unfold enqueue
  split
  · exact ⟨h, hidle⟩
  · rename_i hst
    have hstopping := h.stopping_none (Bool.eq_false_iff.mpr hst)
    refine steady_kick ⟨h.sole, h.known, h.closed, fun n hn => ?_, fun hn => ?_, h.handed⟩
    · rw [show s.stopping = some _ from hn] at hstopping
      cases hstopping
    · rw [show s.stopping = some _ from hn] at hstopping
      cases hstopping

theorem kept_stop (h : Kept s) : Kept s.stop := by
  obtain ⟨h, hidle⟩ := h
  unfold stop
  split
  · exact ⟨h, hidle⟩
  · rename_i hsome
    have hstopping : s.stopping = none := Option.not_isSome_iff_eq_none.mp hsome
    split
    · rename_i current hdr
      refine ⟨⟨fun n e hn => ?_, fun n hn => ?_, rfl, fun n hn => (by cases hn), fun hn => (by cases hn), h.handed⟩,
        fun hst => (by cases hst)⟩
      · have hactive := h.sole n e hn
        rw [active, hstopping] at hactive
        dsimp only at hactive
        rw [hdr] at hactive
        exact hactive
      · rcases hn with hn | hn | hn
        · exact h.known n (Or.inl hn)
        · cases hn
          exact h.known current (Or.inl hdr)
        · cases hn
    · rename_i hdr
      have hno := not_sending h (n := 0) (Or.inl (by simp [active, hstopping, hdr]))
      have hfinish : Steady { s with stopped := true }.finish :=
        steady_finish hno (fun n hn => h.known n (Or.inl hn)) rfl h.handed
      refine ⟨hfinish, fun hst => ?_⟩
      rw [hfinish.closed] at hst
      unfold finish at hst
      split at hst <;> cases hst

theorem kept_react (h : Kept s) (n : Nat) : Kept (s.react n) := by
  obtain ⟨h, hidle⟩ := h
  unfold react
  split
  · rename_i hn
    have hreleased : Steady { s with draining := none } := by
      refine ⟨fun m e hm => ?_, fun m hm => h.known m ?_, h.closed, h.emptied, h.resolved, h.handed⟩
      · have hactive := h.sole m e hm
        cases hs : s.stopping with
        | none =>
          have hno := not_sending h (n := n) (Or.inr ⟨by simp [active, hs, hn.2], hn.1⟩)
          exact absurd hm (hno m e)
        | some x =>
          unfold active at hactive ⊢
          simp only [hs] at hactive ⊢
          cases x <;> exact hactive
      · rcases hm with hm | hm
        · cases hm
        · exact Or.inr hm
    split
    · exact steady_kick hreleased
    · rename_i hstay
      refine ⟨hreleased, fun hst _ => ?_⟩
      show s.size = 0
      have : ¬ 0 < s.size := fun hsize => hstay ⟨hst, hsize⟩
      omega
  · exact ⟨h, hidle⟩

theorem kept_resumeStop (h : Kept s) : Kept s.resumeStop := by
  obtain ⟨h, hidle⟩ := h
  unfold resumeStop
  split
  · rename_i current hs
    have hst : s.stopped = true := by rw [h.closed, hs]; rfl
    split
    · rename_i hd
      have hno := not_sending h (n := current) (Or.inr ⟨by simp [active, hs], hd⟩)
      have hfinish : Steady s.finish := steady_finish hno (fun n hn => h.known n (Or.inl hn)) hst h.handed
      refine ⟨hfinish, fun hf => ?_⟩
      rw [hfinish.closed] at hf
      unfold finish at hf
      split at hf <;> cases hf
    · exact ⟨h, hidle⟩
  · rename_i n hs
    have hst : s.stopped = true := by rw [h.closed, hs]; rfl
    split
    · rename_i hd
      have hno := not_sending h (n := n) (Or.inr ⟨by simp [active, hs], hd⟩)
      refine ⟨⟨fun m e hm => absurd hm (hno m e), fun m hm => ?_, hst, fun m hm => (by cases hm),
        fun _ => h.emptied n hs hd,
        h.handed⟩, fun hf => ?_⟩
      · rcases hm with hm | hm | hm
        · exact h.known m (Or.inl hm)
        · cases hm
        · cases hm
      · rw [show s.stopped = false from hf] at hst
        cases hst
    · exact ⟨h, hidle⟩
  · exact ⟨h, hidle⟩

theorem kept_step (h : Kept s) (e : PumpEvent T) : Kept (s.step e) := by
  cases e with
  | enqueue event => exact kept_enqueue h event
  | kick => exact steady_kick h.1
  | stop => exact kept_stop h
  | settled n ok => exact kept_settled h n ok
  | react n => exact kept_react h n
  | resumeStop => exact kept_resumeStop h

theorem kept_init (q : BoundedQueue T) (hq : q.entries = []) : Kept (init q) := by
  have hsize : (init q).size = 0 := by
    show q.entries.length = 0
    rw [hq, List.length_nil]
  refine ⟨⟨fun n e hn => (by cases hn), fun n hn => ?_, rfl, fun n hn => (by cases hn), fun hn => (by cases hn), rfl⟩,
    fun _ _ => hsize⟩
  rcases hn with hn | hn | hn <;> cases hn

theorem kept_run (q : BoundedQueue T) (hq : q.entries = []) (es : List (PumpEvent T)) : Kept (run q es) :=
  @runFrom_inv _ _ step Kept (fun _ e h => kept_step h e) _ (kept_init q hq) es

/-! ## The queue's history -/

/-- What one event does to the queue: an event comes in, unless the pump is stopped, and a drain takes one out. -/
inductive Logged (s : Pump T) : PumpEvent T → QueueRun T → Prop where
  | drained (e : PumpEvent T) (n : Nat) (hst : ∀ event, e = .enqueue event → s.stopped = true) :
    Logged s e (runFrom QueueRun.step s.log (List.replicate n .dequeue))
  | offered (event : T) (n : Nat) (hst : s.stopped = false) :
    Logged s (.enqueue event) (runFrom QueueRun.step (s.log.step (.enqueue event)) (List.replicate n .dequeue))

theorem next_log (s : Pump T) : s.next.1.log = s.log.step .dequeue := by
  unfold next
  split <;> rfl

theorem kick_log (s : Pump T) : ∃ n, s.kick.log = runFrom QueueRun.step s.log (List.replicate n .dequeue) := by
  unfold kick
  split
  · exact ⟨0, rfl⟩
  · exact ⟨1, next_log s⟩

theorem finish_log (s : Pump T) : ∃ n, s.finish.log = runFrom QueueRun.step s.log (List.replicate n .dequeue) := by
  unfold finish
  split
  · exact ⟨1, next_log s⟩
  · exact ⟨0, rfl⟩

theorem logged_step (s : Pump T) (e : PumpEvent T) : Logged s e (s.step e).log := by
  have hdrained {e : PumpEvent T} {log : QueueRun T} (hne : ∀ event, e ≠ .enqueue event)
      (h : ∃ n, log = runFrom QueueRun.step s.log (List.replicate n .dequeue)) : Logged s e log := by
    obtain ⟨n, rfl⟩ := h
    exact .drained e n fun event he => absurd he (hne event)
  cases e with
  | enqueue event =>
    show Logged s _ (s.enqueue event).log
    unfold enqueue
    split
    · rename_i hst
      exact .drained _ 0 fun _ _ => hst
    · rename_i hst
      obtain ⟨n, h⟩ := kick_log { s with log := s.log.step (.enqueue event) }
      rw [h]
      exact .offered event n (Bool.eq_false_iff.mpr hst)
  | kick => exact hdrained (by nofun) (kick_log s)
  | stop =>
    apply hdrained (by nofun)
    show ∃ n, s.stop.log = _
    unfold stop
    split
    · exact ⟨0, rfl⟩
    · split
      · exact ⟨0, rfl⟩
      · exact finish_log { s with stopped := true }
  | settled n ok =>
    apply hdrained (by nofun)
    simp only [step]
    split
    · exact ⟨1, next_log s⟩
    · exact ⟨0, rfl⟩
  | react n =>
    apply hdrained (by nofun)
    show ∃ n', (s.react n).log = _
    unfold react
    split
    · split
      · exact kick_log { s with draining := none }
      · exact ⟨0, rfl⟩
    · exact ⟨0, rfl⟩
  | resumeStop =>
    apply hdrained (by nofun)
    show ∃ n, s.resumeStop.log = _
    unfold resumeStop
    split
    · split
      · exact finish_log s
      · exact ⟨0, rfl⟩
    · split <;> exact ⟨0, rfl⟩
    · exact ⟨0, rfl⟩

theorem log_step (s : Pump T) (e : PumpEvent T) : ∃ ops : List (QueueOp T),
    (s.step e).log = runFrom QueueRun.step s.log ops := by
  have h := logged_step s e
  generalize (s.step e).log = log at h
  cases h with
  | drained _ n _ => exact ⟨_, rfl⟩
  | offered event n _ => exact ⟨.enqueue event :: List.replicate n .dequeue, rfl⟩

theorem log_run (q : BoundedQueue T) (es : List (PumpEvent T)) : ∃ ops, (run q es).log = QueueRun.run q ops := by
  refine @runFrom_inv _ _ step (fun s => ∃ ops, s.log = QueueRun.run q ops) (fun s e h => ?_) _ ⟨[], rfl⟩ es
  obtain ⟨ops, hops⟩ := h
  obtain ⟨more, hmore⟩ := log_step s e
  refine ⟨ops ++ more, ?_⟩
  rw [hmore, hops]
  exact (runFrom_append ..).symm

/-! ## What is under way ends -/

/-- The event is one that something under way brings about. -/
def Due (s : Pump T) : PumpEvent T → Prop
  | .settled n _ => ∃ event, s.drains[n]? = some (.sending event)
  | .react n => s.draining = some n ∧ s.done n = true
  | .resumeStop => ∃ n, (s.stopping = some (.waiting n) ∨ s.stopping = some (.draining n)) ∧ s.done n = true
  | _ => False

/-- Nothing waits where nothing is under way. -/
theorem due_of_waiting (h : Kept s) (hsize : 0 < s.size) : ∃ e, s.Due e := by
  obtain ⟨h, hidle⟩ := h
  have hdrain : ∀ n, n < s.drains.length → (∃ e, s.Due e) ∨ s.done n = true := by
    intro n hn
    cases hd : s.drains[n]? with
    | none =>
      rw [List.getElem?_eq_none_iff] at hd
      omega
    | some d =>
      cases d with
      | sending event => exact Or.inl ⟨.settled n true, event, hd⟩
      | returned => exact Or.inr (done_iff.mpr hd)
  cases hst : s.stopped with
  | false =>
    cases hdr : s.draining with
    | none =>
      have := hidle hst hdr
      omega
    | some n => exact (hdrain n (h.known n (Or.inl hdr))).elim id fun hd => ⟨.react n, hdr, hd⟩
  | true =>
    cases hs : s.stopping with
    | none =>
      have hclosed := h.closed
      rw [hst, hs] at hclosed
      cases hclosed
    | some x =>
      cases x with
      | waiting n =>
        exact (hdrain n (h.known n (Or.inr (Or.inl hs)))).elim id fun hd => ⟨.resumeStop, n, Or.inl hs, hd⟩
      | draining n =>
        exact (hdrain n (h.known n (Or.inr (Or.inr hs)))).elim id fun hd => ⟨.resumeStop, n, Or.inr hs, hd⟩
      | resolved =>
        have := h.resolved hs
        omega

/-- How many more such events there can be. -/
def sends : List (Drain T) → Nat
  | [] => 0
  | .sending _ :: ds => 1 + sends ds
  | .returned :: ds => sends ds

def Stopping.rest : Option Stopping → Nat
  | some (.waiting _) => 2
  | some (.draining _) => 1
  | _ => 0

def rest (s : Pump T) : Nat :=
  3 * s.size + sends s.drains + (if s.draining.isSome then 1 else 0) + Stopping.rest s.stopping

theorem sends_snoc (ds : List (Drain T)) (d : Drain T) : sends (ds ++ [d]) = sends ds + sends [d] := by
  induction ds with
  | nil => simp [sends]
  | cons d' ds ih =>
    cases d' <;> simp only [List.cons_append, sends, ih]
    omega

theorem sends_set {ds : List (Drain T)} {n : Nat} {d : Drain T} (h : ds[n]? = some d) (d' : Drain T) :
    sends (ds.set n d') + sends [d] = sends ds + sends [d'] := by
  induction ds generalizing n with
  | nil => cases h
  | cons x ds ih =>
    cases n with
    | zero =>
      cases h
      cases d <;> cases d' <;> simp only [List.set_cons_zero, sends] <;> omega
    | succ n =>
      have := ih h
      cases x <;> simp only [List.set_cons_succ, sends] <;> omega

/-- A call of a drain on a queue that is not empty. -/
theorem rest_drain (hsize : 0 < s.size) : 3 * s.drain.size + sends s.drain.drains + 2 ≤
    3 * s.size + sends s.drains := by
  have hx := next_spec s
  unfold drain
  generalize s.next = x at hx
  cases hx with
  | empty log hq hd hempty =>
    rw [size, hempty, List.length_nil] at hsize
    exact absurd hsize (Nat.lt_irrefl _)
  | handed log event hd hlen =>
    show 3 * log.queue.entries.length + sends (s.drains ++ [.sending event]) + 2 ≤ _
    rw [sends_snoc]
    simp only [sends]
    omega

theorem drain_fixed (s : Pump T) : s.drain.draining = s.draining ∧ s.drain.stopping = s.stopping ∧
    s.drain.stopped = s.stopped := by
  unfold drain next
  split <;> exact ⟨rfl, rfl, rfl⟩

theorem rest_finish {n : Nat} (hs : s.stopping = some (.waiting n)) : s.finish.rest < s.rest := by
  obtain ⟨hd, -, -⟩ := drain_fixed s
  unfold finish
  split
  · rename_i hsize
    have hdrop := rest_drain hsize
    show 3 * s.drain.size + sends s.drain.drains + (if s.drain.draining.isSome then 1 else 0) + 1 < s.rest
    unfold rest
    rw [hd, hs]
    simp only [Stopping.rest]
    omega
  · show 3 * s.size + sends s.drains + (if s.draining.isSome then 1 else 0) + 0 < s.rest
    unfold rest
    rw [hs]
    simp only [Stopping.rest]
    omega

theorem rest_step {e : PumpEvent T} (he : s.Due e) : (s.step e).rest < s.rest := by
  cases e with
  | enqueue event => cases he
  | kick => cases he
  | stop => cases he
  | settled n ok =>
    obtain ⟨event, hn⟩ := he
    have hx := next_spec s
    simp only [step, hn]
    generalize s.next = x at hx
    cases hx with
    | empty log hq hd hempty =>
      have := sends_set hn (.returned)
      show 3 * log.queue.entries.length + sends (s.drains.set n .returned) + (if s.draining.isSome then 1 else 0) +
        Stopping.rest s.stopping < 3 * s.log.queue.entries.length + sends s.drains +
          (if s.draining.isSome then 1 else 0) +
        Stopping.rest s.stopping
      simp only [sends] at this
      rw [hq]
      omega
    | handed log event' hd hlen =>
      have := sends_set hn (.sending event')
      show 3 * log.queue.entries.length + sends (s.drains.set n (.sending event')) +
        (if s.draining.isSome then 1 else 0) +
        Stopping.rest s.stopping < 3 * s.size + sends s.drains + (if s.draining.isSome then 1 else 0) +
        Stopping.rest s.stopping
      simp only [sends] at this
      omega
  | react n =>
    obtain ⟨hdr, hd⟩ := he
    show (s.react n).rest < s.rest
    unfold react
    rw [if_pos ⟨hd, hdr⟩]
    split
    · rename_i hgo
      have hdrop := rest_drain (s := { s with draining := none }) hgo.2
      have hkick : ({ s with draining := none } : Pump T).kick =
          { ({ s with draining := none } : Pump T).drain with draining := some s.drains.length } := by
        unfold kick
        rw [if_neg (by simp [hgo.1])]
      obtain ⟨-, hst, -⟩ := drain_fixed { s with draining := none }
      rw [hkick]
      show 3 * ({ s with draining := none } : Pump T).drain.size + sends
        ({ s with draining := none } : Pump T).drain.drains + 1 +
        Stopping.rest ({ s with draining := none } : Pump T).drain.stopping < s.rest
      rw [hst]
      unfold rest
      rw [hdr]
      simp only [Option.isSome_some, if_true]
      have hsame : ({ s with draining := none } : Pump T).size = s.size := rfl
      rw [hsame] at hdrop
      dsimp only at hdrop ⊢
      omega
    · show 3 * s.size + sends s.drains + 0 + Stopping.rest s.stopping < s.rest
      unfold rest
      rw [hdr]
      simp only [Option.isSome_some, if_true]
      omega
  | resumeStop =>
    obtain ⟨n, hs | hs, hd⟩ := he
    · simp only [step, resumeStop, hs, hd, if_true]
      exact rest_finish hs
    · simp only [step, resumeStop, hs, hd, if_true]
      show 3 * s.size + sends s.drains + (if s.draining.isSome then 1 else 0) + 0 < s.rest
      unfold rest
      rw [hs]
      simp only [Stopping.rest]
      omega

theorem due_ends {es : List (PumpEvent T)} : ∀ {s : Pump T}, Along step Due s es → es.length ≤ s.rest := by
  induction es with
  | nil => intro s _; exact Nat.zero_le _
  | cons e es ih =>
    intro s h
    have := rest_step h.1
    have := ih h.2
    simp only [List.length_cons]
    omega

/-! ## After `stop` -/

theorem next_accepted (s : Pump T) : s.next.1.log.accepted = s.log.accepted ∧ s.next.1.stopped = s.stopped := by
  unfold next
  split <;> exact ⟨rfl, rfl⟩

theorem finish_accepted (s : Pump T) : s.finish.log.accepted = s.log.accepted ∧ s.finish.stopped = s.stopped := by
  unfold finish
  split
  · exact next_accepted s
  · exact ⟨rfl, rfl⟩

/-- A stopped pump accepts nothing. -/
theorem stopped_step (h : Kept s) (hst : s.stopped = true) (e : PumpEvent T) :
    (s.step e).stopped = true ∧ (s.step e).log.accepted = s.log.accepted := by
  cases e with
  | enqueue event => simp [step, enqueue, hst]
  | kick => simp [step, kick, hst]
  | stop =>
    have hsome : s.stopping.isSome = true := h.1.closed ▸ hst
    simp [step, stop, hsome, hst]
  | settled n ok =>
    obtain ⟨ha, hs⟩ := next_accepted s
    simp only [step]
    split
    · exact ⟨hs.trans hst, ha⟩
    · exact ⟨hst, rfl⟩
  | react n =>
    simp only [step, react, hst, Bool.true_eq_false, false_and, if_false]
    split
    · exact ⟨rfl, rfl⟩
    · exact ⟨hst, rfl⟩
  | resumeStop =>
    obtain ⟨ha, hs⟩ := finish_accepted s
    simp only [step, resumeStop]
    split
    · split
      · exact ⟨hs.trans hst, ha⟩
      · exact ⟨hst, rfl⟩
    · split <;> exact ⟨hst, rfl⟩
    · exact ⟨hst, rfl⟩

theorem stopped_run (h : Kept s) (hst : s.stopped = true) (es : List (PumpEvent T)) :
    (runFrom step s es).log.accepted = s.log.accepted := by
  induction es generalizing s with
  | nil => rfl
  | cons e es ih =>
    obtain ⟨hs, ha⟩ := stopped_step h hst e
    exact (ih (kept_step h e) hs).trans ha

/-- Once `stop` has resolved nothing is handed over. -/
theorem resolved_step (h : Kept s) (hs : s.stopping = some .resolved) (e : PumpEvent T) :
    (s.step e).stopping = some .resolved ∧ (s.step e).sent = s.sent := by
  have hst : s.stopped = true := by rw [h.1.closed, hs]; rfl
  have hno := not_sending h.1 (n := 0) (Or.inl (by simp [active, hs]))
  cases e with
  | enqueue event => simp [step, enqueue, hst, hs]
  | kick => simp [step, kick, hst, hs]
  | stop => simp [step, stop, hs]
  | settled n ok =>
    simp only [step]
    split
    · exact absurd ‹_› (hno n _)
    · exact ⟨hs, rfl⟩
  | react n =>
    simp only [step, react, hst, Bool.true_eq_false, false_and, if_false]
    split <;> exact ⟨hs, rfl⟩
  | resumeStop => simp [step, resumeStop, hs]

theorem resolved_run (h : Kept s) (hs : s.stopping = some .resolved) (es : List (PumpEvent T)) :
    (runFrom step s es).sent = s.sent := by
  induction es generalizing s with
  | nil => rfl
  | cons e es ih =>
    obtain ⟨hr, ha⟩ := resolved_step h hs e
    exact (ih (kept_step h e) hr).trans ha

end Pump

/-! ## Delivery -/

/-- What the pump promises, in the state after a run. -/
structure Delivers {T : Type} (q : BoundedQueue T) (s : Pump T) : Prop where
  /-- The queue is used through its two operations only. -/
  history : ∃ ops, s.log = QueueRun.run q ops
  one_send : ∀ (n m : Nat) e e', s.drains[n]? = some (.sending e) → s.drains[m]? = some (.sending e') → n = m
  order : s.sent = s.log.dequeued
  accounted : (s.log.accepted : Multiset T) = s.sent + s.log.evicted + s.log.queue.items
  idle : s.draining = none → s.stopped = false → s.log.queue.entries = []
  /-- Nothing waits where nothing is under way. -/
  quiet : (∀ e, ¬ s.Due e) → s.log.queue.entries = []
  /-- What is under way comes to an end. -/
  ends : ∀ es, Along Pump.step Pump.Due s es → es.length ≤ s.rest
  stopped : s.stopped = true → ∀ es, (runFrom Pump.step s es).log.accepted = s.log.accepted
  resolved : s.stopping = some .resolved → (s.log.accepted : Multiset T) = s.sent + s.log.evicted ∧
    (∀ (n : Nat) e, s.drains[n]? ≠ some (.sending e)) ∧ ∀ es, (runFrom Pump.step s es).sent = s.sent

theorem pump_delivers {T : Type} (type : T → NotifyEventType) (capacity : Nat) (q : BoundedQueue T)
    (h : BoundedQueue.new (fun e => notifyEventPriority (type e)) capacity = some q) (es : List (PumpEvent T)) :
    Delivers q (Pump.run q es) := by
  obtain ⟨hq, hseq⟩ : q.entries = [] ∧ q.nextSeq = 0 := by
    unfold BoundedQueue.new at h
    split at h
    · cases h
      exact ⟨rfl, rfl⟩
    · cases h
  have hk := Pump.kept_run q hq es
  obtain ⟨ops, hops⟩ := Pump.log_run q es
  have hconserved : ((Pump.run q es).log.accepted : Multiset T) =
      (Pump.run q es).sent + (Pump.run q es).log.evicted + (Pump.run q es).log.queue.items := by
    have hacc := (QueueRun.accounted_run q hq hseq ops).conserved
    rw [← hops, ← hk.1.handed] at hacc
    exact hacc
  constructor
  case history => exact ⟨ops, hops⟩
  case one_send =>
    intro n m e e' hn hm
    exact Option.some.inj ((hk.1.sole n e hn).symm.trans (hk.1.sole m e' hm))
  case order => exact hk.1.handed
  case accounted => exact hconserved
  case idle => exact fun hd hst => List.length_eq_zero_iff.mp (hk.2 hst hd)
  case quiet =>
    intro hno
    apply List.length_eq_zero_iff.mp
    by_contra hne
    obtain ⟨e, he⟩ := Pump.due_of_waiting hk (Nat.pos_of_ne_zero hne)
    exact hno e he
  case ends => exact fun es h => Pump.due_ends h
  case stopped => exact Pump.stopped_run hk
  case resolved =>
    intro hs
    refine ⟨?_, Pump.not_sending hk.1 (n := 0) (Or.inl (by simp [Pump.active, hs])), Pump.resolved_run hk hs⟩
    have hempty : (Pump.run q es).log.queue.entries = [] := List.length_eq_zero_iff.mp (hk.1.resolved hs)
    rw [hconserved, BoundedQueue.items, hempty]
    exact add_zero _

/-- Three events and a stop: the second send fails, and both events that waited are handed over. -/
theorem stopped_pump_delivers :
    ∃ q, BoundedQueue.new (fun e => notifyEventPriority (id e)) 2 = some q ∧
      Delivers q (Pump.run q
        [.enqueue .heartbeat, .enqueue .action_resolved, .enqueue .terminal, .stop, .settled 0 true,
        .settled 0 false, .settled 0 true, .react 0, .resumeStop]) ∧
      (Pump.run q [.enqueue .heartbeat, .enqueue .action_resolved, .enqueue .terminal, .stop, .settled 0 true,
        .settled 0 false, .settled 0 true, .react 0, .resumeStop]).sent = [.heartbeat, .terminal, .action_resolved] ∧
      (Pump.run q [.enqueue .heartbeat, .enqueue .action_resolved, .enqueue .terminal, .stop, .settled 0 true,
        .settled 0 false, .settled 0 true, .react 0, .resumeStop]).stopping = some .resolved :=
  ⟨_, rfl, pump_delivers id 2 _ rfl _, by decide +kernel, by decide +kernel⟩

end NotifyHub.Plugin
