/-
  NotifyHub.Plugin.Queue — the bounded priority queue of outgoing events
  (packages/plugin/src/queue.ts).

  The entries stand in the order they came. A full queue gives up the oldest entry of the
  lowest priority present, and nothing of a priority above the newcomer's.

  Proved (`boundedQueue_refines`), for every run of the two operations:
  - the queue never holds more than its capacity;
  - what was accepted is what was dequeued, what was evicted and what is left, and each
    newcomer was accepted or rejected;
  - `dequeue` takes the first to come of the highest priority present;
  - `enqueue` evicts by the rule above, and rejects only below every priority present.
-/

import NotifyHub.Lib.Run
import NotifyHub.Lib.Scan
import Mathlib.Data.List.Perm.Basic
import Mathlib.Algebra.Order.Group.Multiset
import Mathlib.Order.Fin.Basic
import Mathlib.Tactic.Abel

namespace NotifyHub.Plugin

/-- Higher dequeues first. -/
abbrev QueuePriority := Fin 3

instance neZero_three : NeZero 3 := ⟨by decide⟩

def DEFAULT_QUEUE_CAPACITY : Nat := 100

inductive NotifyEventType where
  | action_required
  | action_resolved
  | terminal
  | heartbeat
  deriving DecidableEq

def notifyEventPriority : NotifyEventType → QueuePriority
  | .heartbeat => 0
  | .action_resolved => 1
  | .action_required | .terminal => 2

structure EnqueueResult (T : Type) where
  accepted : Bool
  /-- The item removed to make room. -/
  evicted : Option T
  deriving DecidableEq

structure BoundedQueue.Entry (T : Type) where
  item : T
  priority : QueuePriority
  seq : Nat

structure BoundedQueue (T : Type) where
  priorityOf : T → QueuePriority
  capacity : Nat
  entries : List (BoundedQueue.Entry T)
  nextSeq : Nat
  /-- The constructor throws a `RangeError` otherwise. -/
  capacity_pos : 0 < capacity
  bounded : entries.length ≤ capacity
  ordered : entries.Pairwise (·.seq < ·.seq)
  stamped : ∀ e ∈ entries, e.seq < nextSeq ∧ e.priority = priorityOf e.item

namespace BoundedQueue

variable {T : Type}

/-- The constructor; `none` is the `RangeError`. -/
def new (priorityOf : T → QueuePriority) (capacity : Nat) : Option (BoundedQueue T) :=
  if h : 0 < capacity then
    some ⟨priorityOf, capacity, [], 0, h, Nat.zero_le _, List.Pairwise.nil, fun _ he => by cases he⟩
  else none

variable (q : BoundedQueue T)

/-- The loop of `evictionIndex`. -/
def lowest (priority : QueuePriority) : Option (Nat × Entry T) :=
  scan (fun e => !(priority == 0 && e.priority != 0)) (fun e l => decide (e.priority < l.priority)) q.entries 0 none

/-- The place a full queue gives up for a newcomer; `none` is -1. -/
def evictionIndex (priority : QueuePriority) : Option Nat :=
  match q.lowest priority with
  | none => none
  | some (i, e) => if e.priority ≤ priority then some i else none

/-- `entries.splice(i, 1)` -/
def removeAt (i : Nat) : BoundedQueue T :=
  { q with
    entries := q.entries.eraseIdx i
    bounded := Nat.le_trans (List.eraseIdx_sublist ..).length_le q.bounded
    ordered := q.ordered.sublist (List.eraseIdx_sublist ..)
    stamped := fun e he => q.stamped e ((List.eraseIdx_sublist ..).subset he) }

def newEntry (item : T) : Entry T := ⟨item, q.priorityOf item, q.nextSeq⟩

def push (item : T) (h : q.entries.length < q.capacity) : BoundedQueue T :=
  { q with
    entries := q.entries ++ [q.newEntry item]
    nextSeq := q.nextSeq + 1
    bounded := by rw [List.length_append, List.length_singleton]; omega
    ordered := by
      rw [List.pairwise_append]
      refine ⟨q.ordered, List.pairwise_singleton .., fun e he e' he' => ?_⟩
      cases List.mem_singleton.mp he'
      exact (q.stamped e he).1
    stamped := fun e he => by
      rcases List.mem_append.mp he with he | he
      · exact ⟨Nat.lt_succ_of_lt (q.stamped e he).1, (q.stamped e he).2⟩
      · cases List.mem_singleton.mp he
        exact ⟨Nat.lt_succ_self _, rfl⟩ }

/-- The first of the lowest priority that the loop passes. -/
theorem lowest_spec (priority : QueuePriority) :
    FirstLeast (fun e : Entry T => !(priority == 0 && e.priority != 0)) (·.priority) q.entries (q.lowest priority) :=
  scan_spec (fun a b => by simp) q.entries

variable {q}

theorem evictionIndex_lt {priority : QueuePriority} {i : Nat} (h : q.evictionIndex priority = some i) :
    i < q.entries.length := by
  have hspec := q.lowest_spec priority
  unfold evictionIndex at h
  split at h
  · cases h
  · rename_i j e hl
    rw [hl] at hspec
    split at h
    · cases h
      exact (List.getElem?_eq_some_iff.mp hspec.1).1
    · cases h

theorem removeAt_room {i : Nat} (h : i < q.entries.length) :
    (q.removeAt i).entries.length < (q.removeAt i).capacity := by
  show (q.entries.eraseIdx i).length < q.capacity
  rw [List.length_eraseIdx_of_lt h]
  have := q.bounded
  omega

variable (q)

/-- `enqueue` -/
def enqueue (item : T) : BoundedQueue T × EnqueueResult T :=
  if h : q.entries.length < q.capacity then (q.push item h, ⟨true, none⟩)
  else
    match hv : q.evictionIndex (q.priorityOf item) with
    | none => (q, ⟨false, none⟩)
    | some victimIndex =>
      have hlt : victimIndex < q.entries.length := evictionIndex_lt hv
      ((q.removeAt victimIndex).push item (removeAt_room hlt), ⟨true, some q.entries[victimIndex].item⟩)

/-- `dequeue`; its loop starts at the second entry. -/
def dequeue : BoundedQueue T × Option T :=
  match q.entries with
  | [] => (q, none)
  | e :: es =>
    let best := (scan (fun _ => true) (fun e b => decide (e.priority > b.priority)) es 1 (some (0, e))).getD (0, e)
    (q.removeAt best.1, some best.2.item)

variable {q}

/-! ## Which entry leaves -/

/-- The first to come of the lowest priority. -/
def OldestLowest (entries : List (Entry T)) (i : Nat) (v : Entry T) : Prop :=
  entries[i]? = some v ∧ ∀ x ∈ entries, v.priority ≤ x.priority ∧ (x.priority = v.priority → v.seq ≤ x.seq)

/-- The first to come of the highest priority. -/
def OldestHighest (entries : List (Entry T)) (i : Nat) (v : Entry T) : Prop :=
  entries[i]? = some v ∧ ∀ x ∈ entries, x.priority ≤ v.priority ∧ (x.priority = v.priority → v.seq ≤ x.seq)

/-- Places and arrivals go the same way. -/
theorem seq_le_of_place {i j : Nat} {v x : Entry T} (hi : q.entries[i]? = some v) (hj : q.entries[j]? = some x)
    (h : i ≤ j) : v.seq ≤ x.seq := by
  obtain ⟨hi', rfl⟩ := List.getElem?_eq_some_iff.mp hi
  obtain ⟨hj', rfl⟩ := List.getElem?_eq_some_iff.mp hj
  rcases Nat.lt_or_eq_of_le h with h | rfl
  · exact Nat.le_of_lt (List.pairwise_iff_getElem.mp q.ordered i j hi' hj' h)
  · exact Nat.le_refl _

theorem admitted_iff {priority : QueuePriority} {e : Entry T} :
    (!(priority == 0 && e.priority != 0)) = true ↔ ¬ (priority = 0 ∧ e.priority ≠ 0) := by
  by_cases h : priority = 0 <;> simp [h]

/-- A full queue gives up the oldest entry of the lowest priority, if that is not above the
    newcomer's. The first test of the loop changes nothing: a heartbeat is of the lowest
    priority there is. -/
theorem evictionIndex_some {priority : QueuePriority} {i : Nat} (h : q.evictionIndex priority = some i) :
    ∃ v, OldestLowest q.entries i v ∧ v.priority ≤ priority := by
  have hspec := q.lowest_spec priority
  unfold evictionIndex at h
  split at h
  · cases h
  · rename_i j e hl
    rw [hl] at hspec
    obtain ⟨hj, helig, hleast⟩ := hspec
    split at h
    · rename_i hle
      cases h
      refine ⟨e, ⟨hj, fun x hx => ?_⟩, hle⟩
      obtain ⟨k, hk⟩ := List.mem_iff_getElem?.mp hx
      by_cases hskip : priority = 0 ∧ x.priority ≠ 0
      · have hzero : e.priority = 0 := by simpa [hskip.1] using hle
        refine ⟨hzero ▸ Fin.zero_le _, fun heq => ?_⟩
        rw [heq, hzero] at hskip
        exact absurd rfl hskip.2
      · obtain ⟨hle', hlt⟩ := hleast k x hk (admitted_iff.mpr hskip)
        refine ⟨hle', fun heq => ?_⟩
        refine seq_le_of_place hj hk (Nat.le_of_not_lt fun hkj => ?_)
        have hlower : e.priority < x.priority := hlt hkj
        rw [heq] at hlower
        exact lt_irrefl _ hlower
    · cases h

theorem evictionIndex_none {priority : QueuePriority} (h : q.evictionIndex priority = none) :
    ∀ x ∈ q.entries, priority < x.priority := by
  intro x hx
  have hspec := q.lowest_spec priority
  unfold evictionIndex at h
  split at h
  · rename_i hl
    rw [hl] at hspec
    have hskip : priority = 0 ∧ x.priority ≠ 0 := by simpa using hspec x hx
    rw [hskip.1]
    exact Fin.pos_of_ne_zero hskip.2
  · rename_i j e hl
    rw [hl] at hspec
    obtain ⟨hj, helig, hleast⟩ := hspec
    split at h
    · cases h
    · rename_i hlt
      obtain ⟨k, hk⟩ := List.mem_iff_getElem?.mp hx
      by_cases hskip : priority = 0 ∧ x.priority ≠ 0
      · rw [hskip.1]
        exact Fin.pos_of_ne_zero hskip.2
      · exact lt_of_lt_of_le (lt_of_not_ge hlt) (hleast k x hk (admitted_iff.mpr hskip)).1

/-! ## The operations -/

/-- What `enqueue` comes to. -/
inductive Enqueued (q : BoundedQueue T) (item : T) : BoundedQueue T × EnqueueResult T → Prop where
  | pushed (h : q.entries.length < q.capacity) : Enqueued q item (q.push item h, ⟨true, none⟩)
  | rejected (hfull : q.entries.length = q.capacity) (h : ∀ x ∈ q.entries, q.priorityOf item < x.priority) :
    Enqueued q item (q, ⟨false, none⟩)
  | replaced (hfull : q.entries.length = q.capacity) (i : Nat) (v : Entry T) (hv : OldestLowest q.entries i v)
    (hle : v.priority ≤ q.priorityOf item) (h : (q.removeAt i).entries.length < (q.removeAt i).capacity) :
    Enqueued q item ((q.removeAt i).push item h, ⟨true, some v.item⟩)

theorem enqueue_spec (q : BoundedQueue T) (item : T) : Enqueued q item (q.enqueue item) := by
  unfold enqueue
  split
  · exact .pushed _
  · rename_i hroom
    have hfull : q.entries.length = q.capacity := by
      have := q.bounded
      omega
    split
    · exact .rejected hfull (evictionIndex_none ‹_›)
    · rename_i i hv
      obtain ⟨v, hold, hle⟩ := evictionIndex_some hv
      obtain ⟨hlt, rfl⟩ := List.getElem?_eq_some_iff.mp hold.1
      exact .replaced hfull i _ hold hle (removeAt_room hlt)

/-- What `dequeue` comes to. -/
inductive Dequeued (q : BoundedQueue T) : BoundedQueue T × Option T → Prop where
  | empty (h : q.entries = []) : Dequeued q (q, none)
  | taken (i : Nat) (v : Entry T) (hv : OldestHighest q.entries i v) : Dequeued q (q.removeAt i, some v.item)

theorem dequeue_spec (q : BoundedQueue T) : Dequeued q q.dequeue := by
  unfold dequeue
  split
  · exact .empty ‹_›
  · rename_i e es hq
    have hspec : FirstLeast (fun _ => true) (fun e : Entry T => OrderDual.toDual e.priority) (e :: es)
        (scan (fun _ => true) (fun e b => decide (e.priority > b.priority)) es 1 (some (0, e))) :=
      scan_head_spec (fun a b => by simp) rfl es
    rw [← hq] at hspec
    cases hbest : scan (fun _ => true) (fun e b : Entry T => decide (e.priority > b.priority)) es 1 (some (0, e)) with
    | none =>
      rw [hbest, hq] at hspec
      cases hspec e (List.mem_cons_self ..)
    | some b =>
      obtain ⟨i, v⟩ := b
      rw [hbest] at hspec
      obtain ⟨hi, -, hfirst⟩ := hspec
      refine .taken i v ⟨hi, fun x hx => ?_⟩
      obtain ⟨k, hk⟩ := List.mem_iff_getElem?.mp hx
      obtain ⟨hle, hlt⟩ := hfirst k x hk rfl
      refine ⟨hle, fun heq => seq_le_of_place hi hk (Nat.le_of_not_lt fun hki => ?_)⟩
      have hlower : x.priority < v.priority := hlt hki
      rw [heq] at hlower
      exact lt_irrefl _ hlower

/-- The items that wait. -/
def items (q : BoundedQueue T) : Multiset T := ↑(q.entries.map (·.item))

theorem items_removeAt {i : Nat} {v : Entry T} (h : q.entries[i]? = some v) :
    q.items = {v.item} + (q.removeAt i).items := by
  obtain ⟨hlt, rfl⟩ := List.getElem?_eq_some_iff.mp h
  exact Multiset.coe_eq_coe.mpr ((List.getElem_cons_eraseIdx_perm hlt).map (·.item)).symm

theorem items_push {item : T} (h : q.entries.length < q.capacity) : (q.push item h).items = q.items + {item} := by
  show (↑((q.entries ++ [q.newEntry item]).map (·.item)) : Multiset T) = _
  rw [List.map_append, ← Multiset.coe_add]
  rfl

end BoundedQueue

/-! ## Runs -/

inductive QueueOp (T : Type) where
  | enqueue (item : T)
  | dequeue

/-- A queue with what it was offered and what came of it, each in its order. -/
structure QueueRun (T : Type) where
  queue : BoundedQueue T
  offered : List T
  accepted : List T
  rejected : List T
  evicted : List T
  dequeued : List T

namespace QueueRun

variable {T : Type}

def init (q : BoundedQueue T) : QueueRun T := ⟨q, [], [], [], [], []⟩

/-- What the caller is told of a newcomer. -/
def record (r : QueueRun T) (item : T) (x : BoundedQueue T × EnqueueResult T) : QueueRun T :=
  { r with
    queue := x.1
    offered := r.offered ++ [item]
    accepted := if x.2.accepted then r.accepted ++ [item] else r.accepted
    rejected := if x.2.accepted then r.rejected else r.rejected ++ [item]
    evicted := r.evicted ++ x.2.evicted.toList }

def step (r : QueueRun T) : QueueOp T → QueueRun T
  | .enqueue item => r.record item (r.queue.enqueue item)
  | .dequeue => { r with queue := r.queue.dequeue.1, dequeued := r.dequeued ++ r.queue.dequeue.2.toList }

abbrev run (q : BoundedQueue T) (ops : List (QueueOp T)) : QueueRun T := runFrom step (init q) ops

/-- What was accepted is accounted for, and each entry knows when it came. -/
structure Accounted (r : QueueRun T) : Prop where
  newcomers : (r.offered : Multiset T) = r.accepted + r.rejected
  conserved : (r.accepted : Multiset T) = r.dequeued + r.evicted + r.queue.items
  count : r.queue.nextSeq = r.accepted.length
  arrivals : ∀ e ∈ r.queue.entries, r.accepted[e.seq]? = some e.item

variable {r : QueueRun T}

open BoundedQueue

theorem arrivals_push {q : BoundedQueue T} {accepted : List T} {item : T} (h : q.entries.length < q.capacity)
    (hc : q.nextSeq = accepted.length) (ha : ∀ e ∈ q.entries, accepted[e.seq]? = some e.item) :
    ∀ e ∈ (q.push item h).entries, (accepted ++ [item])[e.seq]? = some e.item := by
  intro e he
  rcases List.mem_append.mp he with he | he
  · exact getElem_append_old (ha e he) _
  · cases List.mem_singleton.mp he
    exact getElem_snoc.mpr (Or.inr ⟨hc, rfl⟩)

theorem coe_snoc (l : List T) (a : T) : ((l ++ [a] : List T) : Multiset T) = l + {a} := by
  rw [← Multiset.coe_add]
  rfl

/-- A newcomer is accepted and put in, or reported as rejected. -/
theorem accounted_record (h : Accounted r) {item : T} {x : BoundedQueue T × EnqueueResult T}
    (hx : Enqueued r.queue item x) : Accounted (r.record item x) := by
  cases hx with
  | pushed hroom =>
    refine ⟨?_, ?_, ?_, arrivals_push hroom h.count h.arrivals⟩
    · simp only [record, if_true, coe_snoc, h.newcomers]
      abel
    · simp only [record, if_true, coe_snoc, Option.toList_none, List.append_nil, items_push, h.conserved]
      abel
    · simp [record, push, h.count]
  | rejected hfull hlow =>
    refine ⟨?_, ?_, h.count, h.arrivals⟩
    · simp only [record, Bool.false_eq_true, if_false, coe_snoc, h.newcomers]
      abel
    · simp only [record, Bool.false_eq_true, if_false, Option.toList_none, List.append_nil]
      exact h.conserved
  | replaced hfull i v hv hle hroom =>
    have hkept : ∀ e ∈ (r.queue.removeAt i).entries, r.accepted[e.seq]? = some e.item :=
      fun e he => h.arrivals e ((List.eraseIdx_sublist ..).subset he)
    refine ⟨?_, ?_, ?_, arrivals_push hroom h.count hkept⟩
    · simp only [record, if_true, coe_snoc, h.newcomers]
      abel
    · simp only [record, if_true, coe_snoc, Option.toList_some, items_push, h.conserved, items_removeAt hv.1]
      abel
    · simp [record, push, removeAt, h.count]

theorem accounted_step (h : Accounted r) (op : QueueOp T) : Accounted (r.step op) := by
  cases op with
  | enqueue item => exact accounted_record h (enqueue_spec r.queue item)
  | dequeue =>
    have hx := dequeue_spec r.queue
    show Accounted { r with queue := r.queue.dequeue.1, dequeued := r.dequeued ++ r.queue.dequeue.2.toList }
    revert hx
    generalize r.queue.dequeue = x
    intro hx
    cases hx with
    | empty hq =>
      refine ⟨h.newcomers, ?_, h.count, h.arrivals⟩
      rw [Option.toList_none, List.append_nil]
      exact h.conserved
    | taken i v hv =>
      refine ⟨h.newcomers, ?_, h.count, fun e he => h.arrivals e ((List.eraseIdx_sublist ..).subset he)⟩
      simp only [coe_snoc, Option.toList_some, h.conserved, items_removeAt hv.1]
      abel

theorem accounted_run (q : BoundedQueue T) (hq : q.entries = []) (hseq : q.nextSeq = 0) (ops : List (QueueOp T)) :
    Accounted (run q ops) := by
  refine @runFrom_inv _ _ step Accounted (fun r op h => accounted_step h op) _ ⟨rfl, ?_, hseq, fun e he => ?_⟩ ops
  · simp [init, items, hq]
  · rw [show (init q).queue.entries = [] from hq] at he
    cases he

theorem step_fixed (r : QueueRun T) (op : QueueOp T) :
    (r.step op).queue.capacity = r.queue.capacity ∧ (r.step op).queue.priorityOf = r.queue.priorityOf := by
  cases op with
  | enqueue item =>
    have hx := enqueue_spec r.queue item
    show (r.queue.enqueue item).1.capacity = _ ∧ (r.queue.enqueue item).1.priorityOf = _
    revert hx
    generalize r.queue.enqueue item = x
    intro hx
    cases hx <;> exact ⟨rfl, rfl⟩
  | dequeue =>
    have hx := dequeue_spec r.queue
    show r.queue.dequeue.1.capacity = _ ∧ r.queue.dequeue.1.priorityOf = _
    revert hx
    generalize r.queue.dequeue = x
    intro hx
    cases hx <;> exact ⟨rfl, rfl⟩

theorem run_fixed (q : BoundedQueue T) (ops : List (QueueOp T)) :
    (run q ops).queue.capacity = q.capacity ∧ (run q ops).queue.priorityOf = q.priorityOf := by
  refine @runFrom_inv _ _ step (fun r => r.queue.capacity = q.capacity ∧ r.queue.priorityOf = q.priorityOf)
    (fun r op h => ?_) _ ⟨rfl, rfl⟩ ops
  obtain ⟨hc, hp⟩ := step_fixed r op
  exact ⟨hc.trans h.1, hp.trans h.2⟩

end QueueRun

/-! ## The specification -/

section

variable {T : Type} (type : T → NotifyEventType) (capacity : Nat)

open BoundedQueue

/-- What the queue promises, in the state after a run. -/
structure Refines (r : QueueRun T) : Prop where
  size : r.queue.entries.length ≤ capacity
  newcomers : (r.offered : Multiset T) = r.accepted + r.rejected
  conserved : (r.accepted : Multiset T) = r.dequeued + r.evicted + r.queue.items
  /-- `seq` counts what was accepted, and the entries stand in that order. -/
  arrivals : r.queue.entries.Pairwise (·.seq < ·.seq) ∧ ∀ e ∈ r.queue.entries,
    r.accepted[e.seq]? = some e.item ∧ e.priority = notifyEventPriority (type e.item)
  empty : r.queue.dequeue.2 = none ↔ r.queue.entries = []
  /-- The first to come of the highest priority is taken, the others stay in their order. -/
  dequeues : ∀ item, r.queue.dequeue.2 = some item → ∃ i e, OldestHighest r.queue.entries i e ∧ e.item = item ∧
    r.queue.dequeue.1.entries = r.queue.entries.eraseIdx i
  rejects : ∀ item, (r.queue.enqueue item).2.accepted = false →
    (r.queue.enqueue item).1 = r.queue ∧ (r.queue.enqueue item).2.evicted = none ∧
      r.queue.entries.length = capacity ∧ ∀ x ∈ r.queue.entries, notifyEventPriority (type item) < x.priority
  appends : ∀ item, (r.queue.enqueue item).2 = ⟨true, none⟩ →
    (r.queue.enqueue item).1.entries = r.queue.entries ++ [r.queue.newEntry item]
  /-- Only a full queue evicts, and nothing above the newcomer. -/
  evicts : ∀ item victim, (r.queue.enqueue item).2.evicted = some victim →
    r.queue.entries.length = capacity ∧ ∃ i e, OldestLowest r.queue.entries i e ∧ e.item = victim ∧
      e.priority ≤ notifyEventPriority (type item) ∧
      (r.queue.enqueue item).1.entries = r.queue.entries.eraseIdx i ++ [r.queue.newEntry item]
  /-- A heartbeat displaces the oldest heartbeat. -/
  heartbeat : ∀ item victim, type item = .heartbeat → (r.queue.enqueue item).2.evicted = some victim →
    ∃ e ∈ r.queue.entries, e.item = victim ∧ type victim = .heartbeat ∧
      ∀ x ∈ r.queue.entries, type x.item = .heartbeat → e.seq ≤ x.seq
  top : ∀ item, notifyEventPriority (type item) = 2 → (r.queue.enqueue item).2.accepted = true
  top_evicted : ∀ item victim, (r.queue.enqueue item).2.evicted = some victim → notifyEventPriority (type victim) = 2 →
    ∀ x ∈ r.queue.entries, notifyEventPriority (type x.item) = 2

variable {type capacity}

theorem notifyEventPriority_eq_zero {t : NotifyEventType} : notifyEventPriority t = 0 ↔ t = .heartbeat := by
  cases t <;> simp [notifyEventPriority]

/-- Every queue of these events promises it, whatever its history. -/
theorem refines_of_accounted {r : QueueRun T} (h : r.Accounted) (hc : r.queue.capacity = capacity)
    (hp : r.queue.priorityOf = fun e => notifyEventPriority (type e)) : Refines type capacity r := by
  have hranked : ∀ e ∈ r.queue.entries, e.priority = notifyEventPriority (type e.item) := by
    intro e he
    rw [(r.queue.stamped e he).2, hp]
  have hnonempty : r.queue.entries.length = capacity → r.queue.entries ≠ [] := by
    intro hfull hnil
    have := r.queue.capacity_pos
    rw [hnil, List.length_nil] at hfull
    omega
  have henq : ∀ item, Enqueued r.queue item (r.queue.enqueue item) := enqueue_spec r.queue
  have hprio : ∀ item, r.queue.priorityOf item = notifyEventPriority (type item) := fun item => by rw [hp]
  constructor
  case size => exact hc ▸ r.queue.bounded
  case newcomers => exact h.newcomers
  case conserved => exact h.conserved
  case arrivals => exact ⟨r.queue.ordered, fun e he => ⟨h.arrivals e he, hranked e he⟩⟩
  case empty =>
    have hx := dequeue_spec r.queue
    generalize r.queue.dequeue = x at hx
    cases hx with
    | empty hq => exact iff_of_true rfl hq
    | taken i v hv =>
      refine iff_of_false (fun h => by cases h) fun hnil => ?_
      rw [OldestHighest, hnil] at hv
      cases hv.1
  case dequeues =>
    intro item hitem
    have hx := dequeue_spec r.queue
    generalize r.queue.dequeue = x at hx hitem
    cases hx with
    | empty hq => cases hitem
    | taken i v hv =>
      cases hitem
      exact ⟨i, v, hv, rfl, rfl⟩
  case rejects =>
    intro item hitem
    have hx := henq item
    generalize r.queue.enqueue item = x at hx hitem
    cases hx with
    | pushed hroom => cases hitem
    | rejected hfull hlow => exact ⟨rfl, rfl, hfull.trans hc, fun x hx => hprio item ▸ hlow x hx⟩
    | replaced hfull i v hv hle hroom => cases hitem
  case appends =>
    intro item hitem
    have hx := henq item
    generalize r.queue.enqueue item = x at hx hitem
    cases hx with
    | pushed hroom => rfl
    | rejected hfull hlow => cases hitem
    | replaced hfull i v hv hle hroom => cases hitem
  case evicts =>
    intro item victim hitem
    have hx := henq item
    generalize r.queue.enqueue item = x at hx hitem
    cases hx with
    | pushed hroom => cases hitem
    | rejected hfull hlow => cases hitem
    | replaced hfull i v hv hle hroom =>
      cases hitem
      exact ⟨hfull.trans hc, i, v, hv, rfl, hprio item ▸ hle, rfl⟩
  case heartbeat =>
    intro item victim hbeat hitem
    have hx := henq item
    generalize r.queue.enqueue item = x at hx hitem
    cases hx with
    | pushed hroom => cases hitem
    | rejected hfull hlow => cases hitem
    | replaced hfull i v hv hle hroom =>
      cases hitem
      have hmem := List.mem_of_getElem? hv.1
      rw [hprio, notifyEventPriority_eq_zero.mpr hbeat] at hle
      have hzero : v.priority = 0 := by simpa using hle
      refine ⟨v, hmem, rfl, notifyEventPriority_eq_zero.mp (hranked v hmem ▸ hzero), fun x hx hxbeat => ?_⟩
      apply (hv.2 x hx).2
      rw [hranked x hx, notifyEventPriority_eq_zero.mpr hxbeat, hzero]
  case top =>
    intro item htop
    have hx := henq item
    generalize r.queue.enqueue item = x at hx
    cases hx with
    | pushed hroom => rfl
    | rejected hfull hlow =>
      obtain ⟨e, he⟩ := List.exists_mem_of_ne_nil _ (hnonempty (hfull.trans hc))
      have hlt := hlow e he
      rw [hprio, htop] at hlt
      exact absurd (Fin.le_last e.priority) (not_le_of_gt hlt)
    | replaced hfull i v hv hle hroom => rfl
  case top_evicted =>
    intro item victim hitem htop x hx'
    have hx := henq item
    generalize r.queue.enqueue item = y at hx hitem
    cases hx with
    | pushed hroom => cases hitem
    | rejected hfull hlow => cases hitem
    | replaced hfull i v hv hle hroom =>
      cases hitem
      have hle := (hv.2 x hx').1
      rw [hranked v (List.mem_of_getElem? hv.1), htop, hranked x hx'] at hle
      exact le_antisymm (Fin.le_last _) hle

end

theorem boundedQueue_refines {T : Type} (type : T → NotifyEventType) (capacity : Nat) (q : BoundedQueue T)
    (h : BoundedQueue.new (fun e => notifyEventPriority (type e)) capacity = some q) (ops : List (QueueOp T)) :
    Refines type capacity (QueueRun.run q ops) := by
  unfold BoundedQueue.new at h
  split at h
  · cases h
    obtain ⟨hc, hp⟩ := QueueRun.run_fixed _ ops
    exact refines_of_accounted (QueueRun.accounted_run _ rfl rfl ops) hc hp
  · cases h

/-- Three events to a queue of two: the terminal event takes the place of the heartbeat. -/
theorem terminal_displaces_heartbeat :
    ∃ q, BoundedQueue.new (fun e => notifyEventPriority (id e)) 2 = some q ∧
      Refines id 2 (QueueRun.run q [.enqueue .heartbeat, .enqueue .action_resolved, .enqueue .terminal, .dequeue]) ∧
      (QueueRun.run q [.enqueue .heartbeat, .enqueue .action_resolved, .enqueue .terminal, .dequeue]).evicted =
        [.heartbeat] ∧
      (QueueRun.run q [.enqueue .heartbeat, .enqueue .action_resolved, .enqueue .terminal, .dequeue]).dequeued =
        [.terminal] :=
  ⟨_, rfl, boundedQueue_refines id 2 _ rfl _, by decide +kernel, by decide +kernel⟩

end NotifyHub.Plugin
