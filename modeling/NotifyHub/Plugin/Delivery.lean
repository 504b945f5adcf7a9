/-
  NotifyHub.Plugin.Delivery — what the order of delivery keeps of the order of arrival.

  An event overtakes what waits below its priority, and nothing else is reordered. So a
  register of the receiver, where the last writer wins, ends as the order of arrival has it
  if the last event that writes it overtook no event that writes it otherwise
  (`delivers_last_write`).
-/

import NotifyHub.Lib.Register
import NotifyHub.Plugin.Pump

namespace NotifyHub.Plugin

namespace BoundedQueue

variable {T : Type} (q : BoundedQueue T)

/-- The items of one priority, in the order they came. -/
def atPriority (p : QueuePriority) : List T := (q.entries.filter (·.priority = p)).map (·.item)

/-- The items, in the order `dequeue` would hand them out. -/
def waiting : List T := q.atPriority 2 ++ (q.atPriority 1 ++ q.atPriority 0)

variable {q}

theorem mem_atPriority {p : QueuePriority} {x : T} :
    x ∈ q.atPriority p ↔ ∃ e ∈ q.entries, e.priority = p ∧ e.item = x := by
  simp [atPriority, and_assoc]

theorem atPriority_push {item : T} (h : q.entries.length < q.capacity) (p : QueuePriority) :
    (q.push item h).atPriority p = q.atPriority p ++ if q.priorityOf item = p then [item] else [] := by
  by_cases hp : q.priorityOf item = p
  · simp [atPriority, push, newEntry, hp]
  · simp [atPriority, push, newEntry, hp]

/-- A newcomer overtakes what waits below its priority. -/
theorem waiting_push (item : T) (h : q.entries.length < q.capacity) :
    ∃ ahead behind, q.waiting = ahead ++ behind ∧ (q.push item h).waiting = ahead ++ item :: behind ∧
      ∀ x ∈ behind, ∃ e ∈ q.entries, e.item = x ∧ e.priority < q.priorityOf item := by
  have hbelow : ∀ {x : T} {p : QueuePriority}, x ∈ q.atPriority p → p < q.priorityOf item →
      ∃ e ∈ q.entries, e.item = x ∧ e.priority < q.priorityOf item := by
    intro x p hx hp
    obtain ⟨e, he, hep, hex⟩ := mem_atPriority.mp hx
    exact ⟨e, he, hex, hep ▸ hp⟩
  have hthree : q.priorityOf item = 2 ∨ q.priorityOf item = 1 ∨ q.priorityOf item = 0 := by
    generalize q.priorityOf item = p
    revert p
    decide
  unfold waiting
  simp only [atPriority_push h]
  rcases hthree with hp | hp | hp
  · refine ⟨q.atPriority 2, q.atPriority 1 ++ q.atPriority 0, rfl, by simp [hp], fun x hx => ?_⟩
    rcases List.mem_append.mp hx with hx | hx
    · exact hbelow hx (by rw [hp]; decide)
    · exact hbelow hx (by rw [hp]; decide)
  · refine ⟨q.atPriority 2 ++ q.atPriority 1, q.atPriority 0, by simp, by simp [hp], fun x hx => ?_⟩
    exact hbelow hx (by rw [hp]; decide)
  · exact ⟨q.waiting, [], by simp [waiting], by simp [waiting, hp], (by rintro _ ⟨⟩)⟩

/-- Taking an entry out leaves the other priorities as they are, and its own without its first item. -/
theorem atPriority_removeAt {i : Nat} {v : Entry T} (h : OldestHighest q.entries i v) (p : QueuePriority) :
    q.atPriority p = (if v.priority = p then [v.item] else []) ++ (q.removeAt i).atPriority p := by
  obtain ⟨hget, hold⟩ := h
  obtain ⟨hlt, hv⟩ := List.getElem?_eq_some_iff.mp hget
  have hsplit : q.entries = q.entries.take i ++ v :: q.entries.drop (i + 1) := by
    rw [← hv, List.cons_getElem_drop_succ, List.take_append_drop]
  have herase : (q.removeAt i).entries = q.entries.take i ++ q.entries.drop (i + 1) :=
    List.eraseIdx_eq_take_drop_succ ..
  -- what stands before it is of a lower priority: of its own, it came first
  have hbefore : ∀ x ∈ q.entries.take i, x.priority ≠ v.priority := by
    intro x hx heq
    obtain ⟨k, hk, rfl⟩ := List.mem_iff_getElem.mp hx
    rw [List.length_take] at hk
    have hki : k < i := by omega
    rw [List.getElem_take] at heq
    have hord := List.pairwise_iff_getElem.mp q.ordered k i (by omega) hlt hki
    have hle := (hold _ (List.getElem_mem (by omega : k < q.entries.length))).2 heq
    rw [hv] at hord
    omega
  unfold atPriority
  rw [herase]
  generalize q.entries.take i = ahead at hsplit hbefore
  generalize q.entries.drop (i + 1) = behind at hsplit
  rw [hsplit, List.filter_append, List.filter_append]
  by_cases hp : v.priority = p
  · subst hp
    have hnone : ahead.filter (fun e => decide (e.priority = v.priority)) = [] := by
      rw [List.filter_eq_nil_iff]
      intro x hx
      simpa using hbefore x hx
    rw [hnone]
    simp
  · simp [hp]

/-- `dequeue` takes the first of what waits. -/
theorem waiting_removeAt {i : Nat} {v : Entry T} (h : OldestHighest q.entries i v) :
    q.waiting = v.item :: (q.removeAt i).waiting := by
  have habove : ∀ p, v.priority < p → q.atPriority p = [] ∧ (q.removeAt i).atPriority p = [] := by
    intro p hp
    have hnone : q.atPriority p = [] := by
      rw [List.eq_nil_iff_forall_not_mem]
      intro x hx
      obtain ⟨e, he, rfl, -⟩ := mem_atPriority.mp hx
      exact absurd (h.2 e he).1 (not_le_of_gt hp)
    refine ⟨hnone, ?_⟩
    have hsplit := atPriority_removeAt h p
    rw [hnone] at hsplit
    exact (List.append_eq_nil_iff.mp hsplit.symm).2
  have hthree : v.priority = 2 ∨ v.priority = 1 ∨ v.priority = 0 := by
    generalize v.priority = p
    revert p
    decide
  unfold waiting
  rcases hthree with hp | hp | hp
  · rw [atPriority_removeAt h 2, atPriority_removeAt h 1, atPriority_removeAt h 0]
    simp [hp]
  · rw [(habove 2 (by rw [hp]; decide)).1, (habove 2 (by rw [hp]; decide)).2, atPriority_removeAt h 1,
      atPriority_removeAt h 0]
    simp [hp]
  · rw [(habove 2 (by rw [hp]; decide)).1, (habove 2 (by rw [hp]; decide)).2, (habove 1 (by rw [hp]; decide)).1,
      (habove 1 (by rw [hp]; decide)).2, atPriority_removeAt h 0]
    simp [hp]

end BoundedQueue

namespace Pump

variable {T β : Type} {w : T → Option β}

open BoundedQueue

/-- An event that comes in overtakes none that writes anything else than it does. -/
def Unhindered (w : T → Option β) (s : Pump T) (event : T) : Prop :=
  ∀ b, w event = some b →
    ∀ e ∈ s.log.queue.entries, e.priority < s.log.queue.priorityOf event → w e.item = none ∨ w e.item = some b

/-- The last event of the run that writes was unhindered when it came in. -/
def LastUnhindered (w : T → Option β) (q : BoundedQueue T) (es : List (PumpEvent T)) : Prop :=
  ∀ before event after later, es = before ++ .enqueue event :: after →
    (run q es).log.accepted = (run q before).log.accepted ++ event :: later → (∀ x ∈ later, w x = none) →
      Unhindered w (run q before) event

/-- Nothing was rejected and nothing was evicted. -/
def Lossless (r : QueueRun T) : Prop := r.rejected = [] ∧ r.evicted = []

/-- What was handed over and what waits, in the order of delivery. -/
def delivery (r : QueueRun T) : List T := r.dequeued ++ r.queue.waiting

/-- A drain delivers nothing out of order. -/
theorem delivery_dequeue (r : QueueRun T) : delivery (r.step .dequeue) = delivery r := by
  have hx := dequeue_spec r.queue
  show r.dequeued ++ r.queue.dequeue.2.toList ++ r.queue.dequeue.1.waiting = r.dequeued ++ r.queue.waiting
  generalize r.queue.dequeue = x at hx
  cases hx with
  | empty h => simp
  | taken i v hv => simp [waiting_removeAt hv]

theorem drained_log (r : QueueRun T) (n : Nat) :
    delivery (runFrom QueueRun.step r (List.replicate n .dequeue)) = delivery r ∧
    (runFrom QueueRun.step r (List.replicate n .dequeue)).accepted = r.accepted ∧
    (Lossless (runFrom QueueRun.step r (List.replicate n .dequeue)) ↔ Lossless r) := by
  induction n generalizing r with
  | zero => exact ⟨rfl, rfl, Iff.rfl⟩
  | succ n ih =>
    obtain ⟨hdelivery, haccepted, hloss⟩ := ih (r.step .dequeue)
    exact ⟨hdelivery.trans (delivery_dequeue r), haccepted, hloss⟩

/-- A queue that loses nothing takes the newcomer in, before what waits below its priority. -/
theorem enqueue_lossless {r : QueueRun T} {event : T} (h : Lossless (r.step (.enqueue event))) :
    Lossless r ∧ (r.step (.enqueue event)).accepted = r.accepted ++ [event] ∧
      ∃ ahead behind, delivery r = ahead ++ behind ∧ delivery (r.step (.enqueue event)) = ahead ++ event :: behind ∧
        ∀ x ∈ behind, ∃ e ∈ r.queue.entries, e.item = x ∧ e.priority < r.queue.priorityOf event := by
  have hx := enqueue_spec r.queue event
  show Lossless r ∧ (r.record event (r.queue.enqueue event)).accepted = _ ∧ ∃ ahead behind, _ ∧
    delivery (r.record event (r.queue.enqueue event)) = _ ∧ _
  have hrecord : Lossless (r.record event (r.queue.enqueue event)) := h
  generalize r.queue.enqueue event = x at hx hrecord
  obtain ⟨hrejected, hevicted⟩ := hrecord
  cases hx with
  | pushed hroom =>
    obtain ⟨ahead, behind, hwaiting, hpush, hbelow⟩ := waiting_push event hroom
    refine ⟨⟨by simpa [QueueRun.record] using hrejected, by simpa [QueueRun.record] using hevicted⟩, rfl,
      r.dequeued ++ ahead, behind, ?_, ?_, hbelow⟩
    · rw [delivery, hwaiting, List.append_assoc]
    · show r.dequeued ++ (r.queue.push event hroom).waiting = _
      rw [hpush, List.append_assoc]
  | rejected hfull hlow => simp [QueueRun.record] at hrejected
  | replaced hfull i v hv hle hroom => simp [QueueRun.record] at hevicted

theorem LastUnhindered.now {q : BoundedQueue T} {es : List (PumpEvent T)} {event : T}
    (h : LastUnhindered w q (es ++ [.enqueue event]))
    (hacc : (run q (es ++ [.enqueue event])).log.accepted = (run q es).log.accepted ++ [event]) :
    Unhindered w (run q es) event := h es event [] [] rfl hacc (by nofun)

/-- Where the run goes on without a writer, its last writer stays the last. -/
theorem LastUnhindered.before {q : BoundedQueue T} {es : List (PumpEvent T)} {e : PumpEvent T}
    (h : LastUnhindered w q (es ++ [e])) (more : List T)
    (hacc : (run q (es ++ [e])).log.accepted = (run q es).log.accepted ++ more)
    (hmore : ∀ x ∈ more, w x = none) : LastUnhindered w q es := by
  intro before event after later hsplit hlater hnone
  refine h before event (after ++ [e]) (later ++ more) (by rw [hsplit, List.append_assoc]; rfl) ?_ fun x hx => ?_
  · rw [hacc, hlater]
    simp
  · rcases List.mem_append.mp hx with hx | hx
    · exact hnone x hx
    · exact hmore x hx

/-- The priorities are those of the queue the pump began with. -/
theorem waits_below (q : BoundedQueue T) (es : List (PumpEvent T)) {e : Entry T} (he : e ∈ (run q es).log.queue.entries)
    {event : T} (h : e.priority < (run q es).log.queue.priorityOf event) :
    q.priorityOf e.item < q.priorityOf event := by
  obtain ⟨ops, hops⟩ := log_run q es
  obtain ⟨-, hfixed⟩ := QueueRun.run_fixed q ops
  rw [← hops] at hfixed
  rw [((run q es).log.queue.stamped e he).2, hfixed] at h
  exact h

/-- In a run that loses nothing, the order of delivery ends a register as the order of arrival
    does, if the last writer overtook no other value. -/
theorem delivers_last_write (q : BoundedQueue T) (hq : q.entries = []) (es : List (PumpEvent T))
    (hloss : Lossless (run q es).log) (hlast : LastUnhindered w q es) :
    lastWrite w (delivery (run q es).log) = lastWrite w (run q es).log.accepted := by
  induction es using List.reverseRecOn with
  | nil => simp [delivery, init, QueueRun.init, waiting, atPriority, hq]
  | append_singleton es e ih =>
    have hstep : run q (es ++ [e]) = (run q es).step e := runFrom_append ..
    have hlog := logged_step (run q es) e
    rw [← hstep] at hlog
    generalize hnew : (run q (es ++ [e])).log = log at hlog hloss ⊢
    cases hlog with
    | drained _ n hst =>
      obtain ⟨hdelivery, haccepted, hl⟩ := drained_log (run q es).log n
      rw [hdelivery, haccepted]
      exact ih (hl.mp hloss) (hlast.before [] (by rw [hnew, haccepted, List.append_nil]) (by rintro _ ⟨⟩))
    | offered event n hst =>
      obtain ⟨hdelivery, haccepted, hl⟩ := drained_log ((run q es).log.step (.enqueue event)) n
      obtain ⟨hbefore, hpush, ahead, behind, hwas, hnow, hbelow⟩ := enqueue_lossless (hl.mp hloss)
      rw [hdelivery, haccepted, hpush, hnow, lastWrite_snoc]
      cases hw : w event with
      | none =>
        rw [lastWrite_skip hw, ← hwas]
        exact ih hbefore (hlast.before [event] (by rw [hnew, haccepted, hpush]) (by simpa using hw))
      | some b =>
        -- the newcomer is the last writer by arrival; what it overtakes agrees with it
        have hfree := hlast.now (by rw [hnew, haccepted, hpush])
        refine lastWrite_settled hw (fun x hx => ?_) ahead
        obtain ⟨entry, hentry, rfl, hlt⟩ := hbelow x hx
        exact hfree b hw entry hentry hlt

end Pump

end NotifyHub.Plugin
