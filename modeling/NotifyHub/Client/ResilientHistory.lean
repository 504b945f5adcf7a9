/-
  NotifyHub.Client.ResilientHistory — `ResilientNotificationHistory`
  (apps/client/lib/history/resilient_notification_history.dart): calls in flight on a
  primary history that may fail each of them at any time, the one activation of the
  in-memory fallback that the failed ones wait for, and `close`.

  - `history_survives`: while the primary's own `close()` does not fail, every call that
    is made before `close()` is answered, by the one history or by the other, unless
    `close()` comes between the call and its failure; what the fallback takes it holds for
    as long as it has room; there is one switch at most.
  - `evicted_then_missed`: the fallback's room is bounded, a call that `close()` overtakes
    fails, and what the primary adds after the switch is not in the fallback.

  The primary is any history: when it answers and what is left to the events.
-/

import Mathlib.Data.List.Induction
import NotifyHub.Client.History

namespace NotifyHub.Client

/-- `_active` -/
inductive ActiveHistory where
  | primary
  | fallback
  deriving DecidableEq

/-- `_fallbackActivation`: null, or a future and how it stands. -/
inductive Activation where
  | none
  | running
  | done
  | failed
  deriving DecidableEq

/-- `??=` -/
def Activation.orBegin : Activation → Activation
  | .none => .running
  | a => a

inductive HistoryAnswer (ι : Type) where
  | found (isFound : Bool)
  | done
  | page (batch : HistoryBatch ι)
  deriving DecidableEq

inductive CallPhase (ι : Type) where
  /-- In flight on the primary. -/
  | onPrimary
  /-- It failed on the primary and awaits the activation. -/
  | waiting
  | answered (by' : ActiveHistory) (answer : HistoryAnswer ι)
  /-- With the primary's error. -/
  | rethrown
  /-- With the activation's error, or the fallback's. -/
  | failed
  deriving DecidableEq

structure MadeCall (ι : Type) where
  call : HistoryCall ι
  /-- It was made before `close()`. -/
  early : Bool
  phase : CallPhase ι

/-- Who awaits the activation. -/
inductive Waiter where
  | call (n : Nat)
  | close
  deriving DecidableEq

/-- How far `close()` is. -/
inductive Closing where
  | none
  /-- It awaits the activation. -/
  | waiting
  | cancelling
  | finished
  /-- The activation had failed. -/
  | failed
  deriving DecidableEq

structure ResilientNotificationHistory (ι : Type) where
  fallback : InMemoryNotificationHistory ι
  /-- The fallback's `_changes` is closed. -/
  fallbackClosed : Bool
  active : ActiveHistory
  fallbackActivation : Activation
  closed : Bool
  closing : Closing
  calls : List (MadeCall ι)
  /-- The continuations of the activation, in the order in which they run. -/
  waiting : List Waiter

inductive ResilientEvent (ι : Type) where
  | call (c : HistoryCall ι)
  | primaryAnswers (n : Nat) (answer : HistoryAnswer ι)
  | primaryFails (n : Nat)
  /-- The primary's `close()`, which the activation awaits, completes. -/
  | primaryCloses (ok : Bool)
  /-- The next of those that await the activation goes on. -/
  | resume
  | close
  | closeFinishes

namespace ResilientNotificationHistory

variable {ι : Type} (s : ResilientNotificationHistory ι)

def init (capacity : Nat) (positive : 0 < capacity) : ResilientNotificationHistory ι :=
  ⟨⟨capacity, positive, [], 0⟩, false, .primary, .none, false, .none, [], []⟩

def setPhase (n : Nat) (phase : CallPhase ι) : ResilientNotificationHistory ι :=
  { s with calls := s.calls.modify n fun m => { m with phase } }

/-- The call, if it is in flight on the primary. -/
def asked (n : Nat) : Option (HistoryCall ι) :=
  match s.calls[n]? with
  | some ⟨call, _, .onPrimary⟩ => some call
  | _ => none

/-- `_fallbackActivation ??= _activateFallback()`, and its await. -/
def awaitActivation (n : Nat) : ResilientNotificationHistory ι :=
  { s.setPhase n .waiting with
    fallbackActivation := s.fallbackActivation.orBegin
    waiting := s.waiting ++ [.call n] }

variable {s} in
theorem get_setPhase (n i : Nat) (phase : CallPhase ι) :
    (s.setPhase n phase).calls[i]? = if n = i then s.calls[i]?.map fun m => { m with phase } else s.calls[i]? := by
  rw [setPhase, List.getElem?_modify]
  split
  · rfl
  · rw [id_map']

@[simp] theorem length_setPhase (n : Nat) (phase : CallPhase ι) : (s.setPhase n phase).calls.length = s.calls.length :=
  List.length_modify ..

variable {s} in
/-- The phase of one call is set. -/
theorem call_setPhase {n : Nat} {m : MadeCall ι} (h : s.calls[n]? = some m) (k : Nat) (phase : CallPhase ι) :
    (s.setPhase k phase).calls[n]? = some { m with phase := if k = n then phase else m.phase } := by
  rw [get_setPhase, h]
  split <;> rfl

variable {s} in
theorem asked_eq_some {n : Nat} {c : HistoryCall ι} :
    s.asked n = some c ↔ ∃ early, s.calls[n]? = some ⟨c, early, .onPrimary⟩ := by
  unfold asked
  constructor
  · intro h
    split at h
    · rename_i call early hget
      cases h
      exact ⟨early, hget⟩
    · cases h
  · rintro ⟨early, hget⟩
    rw [hget]

variable [DecidableEq ι]

/-- The call on the fallback: emitting to the closed stream throws, after the entries have changed. -/
def throughFallback : HistoryCall ι → InMemoryNotificationHistory ι × CallPhase ι
  | .contains eventId => (s.fallback, .answered .fallback (.found (s.fallback.contains eventId)))
  | .add entry =>
    if s.fallback.contains entry.eventId then (s.fallback, .answered .fallback .done)
    else if s.fallbackClosed then ({ s.fallback.add entry with changes := s.fallback.changes }, .failed)
    else (s.fallback.add entry, .answered .fallback .done)
  | .loadPage offset limit =>
    match s.fallback.loadPage offset.toInt limit.toInt with
    | some batch => (s.fallback, .answered .fallback (.page batch))
    | none => (s.fallback, .failed)
  | .remove eventId =>
    if s.fallbackClosed then ({ s.fallback.remove eventId with changes := s.fallback.changes }, .failed)
    else (s.fallback.remove eventId, .answered .fallback .done)

/-- `return action(_active)` -/
def actAgain (n : Nat) : ResilientNotificationHistory ι :=
  match s.calls[n]? with
  | some m => { s.setPhase n (s.throughFallback m.call).2 with fallback := (s.throughFallback m.call).1 }
  | none => s

def step (s : ResilientNotificationHistory ι) : ResilientEvent ι → ResilientNotificationHistory ι
  | .call c =>
    match s.active with
    | .primary => { s with calls := s.calls ++ [⟨c, !s.closed, .onPrimary⟩] }
    | .fallback => { s with
        fallback := (s.throughFallback c).1
        calls := s.calls ++ [⟨c, !s.closed, (s.throughFallback c).2⟩] }
  | .primaryAnswers n answer =>
    match s.asked n with
    | some _ => s.setPhase n (.answered .primary answer)
    | none => s
  | .primaryFails n =>
    match s.asked n with
    | none => s
    -- `remove` is not run through the fallback.
    | some (.remove _) => s.setPhase n .rethrown
    | some _ => if s.closed then s.setPhase n .rethrown else s.awaitActivation n
  | .primaryCloses ok =>
    if s.fallbackActivation = .running then
      if ok then { s with active := .fallback, fallbackActivation := .done }
        else { s with fallbackActivation := .failed }
    else s
  | .resume =>
    match s.fallbackActivation, s.waiting with
    | .done, .call n :: rest => { s with waiting := rest }.actAgain n
    | .failed, .call n :: rest => { s with waiting := rest }.setPhase n .failed
    | .done, .close :: rest => { s with waiting := rest, closing := .cancelling }
    | .failed, .close :: rest => { s with waiting := rest, closing := .failed }
    | _, _ => s
  | .close =>
    if s.closed then s
    else if s.fallbackActivation = .none then { s with closed := true, closing := .cancelling }
    else { s with closed := true, closing := .waiting, waiting := s.waiting ++ [.close] }
  | .closeFinishes =>
    if s.closing = .cancelling then
      -- Else it is the primary that is closed.
      { s with closing := .finished, fallbackClosed := s.active = .fallback }
    else s

/-- The state after a run from the start. -/
def run (capacity : Nat) (positive : 0 < capacity) (es : List (ResilientEvent ι)) : ResilientNotificationHistory ι :=
  runFrom step (init capacity positive) es

/-- All that await the activation go on. -/
def drain : ResilientNotificationHistory ι := runFrom step s (List.replicate s.waiting.length .resume)

/-- A call that `_run` carries out, with a proper page. -/
def Runs : HistoryCall ι → Prop
  | .contains _ | .add _ => True
  | .loadPage offset limit => 0 ≤ offset.toInt ∧ 0 < limit.toInt
  | .remove _ => False

/-! ## One step -/

variable {s}

/-- The activation is done, so the call is taken to the fallback. -/
theorem resume_done {n : Nat} {rest : List Waiter} (hdone : s.fallbackActivation = .done)
    (hwaiting : s.waiting = .call n :: rest) :
    s.step .resume = ({ s with waiting := rest } : ResilientNotificationHistory ι).actAgain n := by
  cases s with
  | mk fallback fallbackClosed active activation closed closing calls waiting =>
    subst hdone hwaiting
    rfl

theorem resume_close {rest : List Waiter} (hdone : s.fallbackActivation = .done)
    (hwaiting : s.waiting = .close :: rest) :
    s.step .resume = { s with waiting := rest, closing := .cancelling } := by
  cases s with
  | mk fallback fallbackClosed active activation closed closing calls waiting =>
    subst hdone hwaiting
    rfl

/-- A failure of the primary is rethrown, or the call awaits the activation. -/
theorem primaryFails_cases {n : Nat} {c : HistoryCall ι} (hasked : s.asked n = some c) :
    (s.step (.primaryFails n) = s.setPhase n .rethrown ∧ (Runs c → s.closed = true)) ∨
      (s.step (.primaryFails n) = s.awaitActivation n ∧ s.closed = false ∧ ∀ eventId, c ≠ .remove eventId) := by
  rw [step, hasked]
  split
  · rename_i h
    cases h
  · rename_i eventId h
    cases h
    exact .inl ⟨rfl, False.elim⟩
  · rename_i c' hremove h
    cases h
    split
    · rename_i hclosed
      exact .inl ⟨rfl, fun _ => hclosed⟩
    · rename_i hopen
      exact .inr ⟨rfl, Bool.eq_false_iff.mpr hopen, hremove⟩

/-- What a step makes of a call. -/
inductive Moves (s : ResilientNotificationHistory ι) : ResilientEvent ι → Nat → MadeCall ι → CallPhase ι → Prop
  | stays (e : ResilientEvent ι) (n : Nat) (m : MadeCall ι) : Moves s e n m m.phase
  | answers (n : Nat) (m : MadeCall ι) (answer : HistoryAnswer ι) (h : m.phase = .onPrimary) :
      Moves s (.primaryAnswers n answer) n m (.answered .primary answer)
  | rethrows (n : Nat) (m : MadeCall ι) (h : m.phase = .onPrimary) (hoff : Runs m.call → s.closed = true) :
      Moves s (.primaryFails n) n m .rethrown
  | waits (n : Nat) (m : MadeCall ι) (h : m.phase = .onPrimary) (hopen : s.closed = false)
    (hrun : ∀ id, m.call ≠ .remove id) :
      Moves s (.primaryFails n) n m .waiting
  | acts (n : Nat) (m : MadeCall ι) (rest : List Waiter) (hdone : s.fallbackActivation = .done)
    (h : s.waiting = .call n :: rest) :
      Moves s .resume n m (s.throughFallback m.call).2
  | fails (n : Nat) (m : MadeCall ι) (rest : List Waiter) (hfailed : s.fallbackActivation = .failed)
    (h : s.waiting = .call n :: rest) :
      Moves s .resume n m .failed

theorem actAgain_eq {n : Nat} {m : MadeCall ι} (h : s.calls[n]? = some m) :
    s.actAgain n = { s.setPhase n (s.throughFallback m.call).2 with fallback := (s.throughFallback m.call).1 } := by
  rw [actAgain, h]

/-- A call is made once and then only its phase changes. -/
theorem call_step {n : Nat} {m : MadeCall ι} (h : s.calls[n]? = some m) (e : ResilientEvent ι) :
    ∃ phase, Moves s e n m phase ∧ (s.step e).calls[n]? = some { m with phase } := by
  have hsame : ∃ phase, Moves s e n m phase ∧ s.calls[n]? = some { m with phase } := ⟨m.phase, .stays e n m, h⟩
  have hlt : n < s.calls.length := (List.getElem?_eq_some_iff.mp h).1
  cases e with
  | call c =>
    refine ⟨m.phase, .stays _ n m, ?_⟩
    rw [step]
    split
    · rw [List.getElem?_append_left hlt, h]
    · rw [List.getElem?_append_left hlt, h]
  | primaryAnswers k answer =>
    rw [step]
    split
    case h_2 => exact hsame
    case h_1 c hasked =>
      obtain ⟨early, hget⟩ := asked_eq_some.mp hasked
      refine ⟨_, ?_, call_setPhase h k _⟩
      split
      · rename_i heq
        subst heq
        cases h.symm.trans hget
        exact .answers k _ answer rfl
      · exact .stays _ n m
  | primaryFails k =>
    cases hasked : s.asked k with
    | none =>
      rw [step, hasked]
      exact hsame
    | some c =>
      obtain ⟨early, hget⟩ := asked_eq_some.mp hasked
      have hset : ∀ phase, (k = n → Moves s (.primaryFails n) n m phase) →
          ∃ phase', Moves s (.primaryFails k) n m phase' ∧
            (s.setPhase k phase).calls[n]? = some { m with phase := phase' } := by
        intro phase hmoves
        refine ⟨_, ?_, call_setPhase h k phase⟩
        split
        · rename_i heq
          subst heq
          exact hmoves rfl
        · exact .stays _ n m
      rcases primaryFails_cases hasked with ⟨hstep, hclosed⟩ | ⟨hstep, hopen, hremove⟩
      · rw [hstep]
        refine hset .rethrown ?_
        rintro rfl
        cases h.symm.trans hget
        exact .rethrows k _ rfl hclosed
      · rw [hstep]
        refine hset .waiting ?_
        rintro rfl
        cases h.symm.trans hget
        exact .waits k _ rfl hopen hremove
  | primaryCloses ok =>
    rw [step]
    split
    · split
      · exact hsame
      · exact hsame
    · exact hsame
  | resume =>
    rw [step]
    split
    · rename_i k rest hdone hwaiting
      cases hget : s.calls[k]? with
      | none =>
        have hidle : ({ s with waiting := rest } : ResilientNotificationHistory ι).actAgain k =
          { s with waiting := rest } := by
          rw [actAgain, hget]
        rw [hidle]
        exact hsame
      | some m' =>
        rw [actAgain_eq (s := { s with waiting := rest }) hget]
        refine ⟨_, ?_, call_setPhase (s := { s with waiting := rest }) h k _⟩
        split
        · rename_i heq
          subst heq
          cases h.symm.trans hget
          exact .acts k m rest hdone hwaiting
        · exact .stays _ n m
    · rename_i k rest hfailed hwaiting
      refine ⟨_, ?_, call_setPhase (s := { s with waiting := rest }) h k .failed⟩
      split
      · rename_i heq
        subst heq
        exact .fails k m rest hfailed hwaiting
      · exact .stays _ n m
    · exact hsame
    · exact hsame
    · exact hsame
  | close =>
    rw [step]
    split
    · exact hsame
    · split
      · exact hsame
      · exact hsame
  | closeFinishes =>
    rw [step]
    split
    · exact hsame
    · exact hsame

/-- The call as it is when it is made. -/
def made (s : ResilientNotificationHistory ι) (c : HistoryCall ι) : MadeCall ι :=
  ⟨c, !s.closed, match s.active with
    | .primary => .onPrimary
    | .fallback => (s.throughFallback c).2⟩

theorem calls_call (c : HistoryCall ι) : (s.step (.call c)).calls = s.calls ++ [s.made c] := by
  rw [step, made]
  cases s.active <;> rfl

theorem length_actAgain (n : Nat) : (s.actAgain n).calls.length = s.calls.length := by
  rw [actAgain]
  split
  · exact length_setPhase ..
  · rfl

/-- Only a call adds to the calls. -/
theorem length_step {e : ResilientEvent ι} (h : ∀ c, e ≠ .call c) : (s.step e).calls.length = s.calls.length := by
  cases e with
  | call c => exact absurd rfl (h c)
  | primaryAnswers n answer =>
    rw [step]
    split
    · exact length_setPhase ..
    · rfl
  | primaryFails n =>
    rw [step]
    split
    · rfl
    · exact length_setPhase ..
    · split
      · exact length_setPhase ..
      · exact length_setPhase s n .waiting
  | primaryCloses ok =>
    rw [step]
    split
    · split <;> rfl
    · rfl
  | resume =>
    rw [step]
    split
    · exact length_actAgain ..
    · exact length_setPhase ..
    · rfl
    · rfl
    · rfl
  | close =>
    rw [step]
    split
    · rfl
    · split <;> rfl
  | closeFinishes =>
    rw [step]
    split <;> rfl

/-- Every call of the state after a step was made before it or by it. -/
theorem calls_step {n : Nat} {m' : MadeCall ι} {e : ResilientEvent ι} (h : (s.step e).calls[n]? = some m') :
    (∃ m phase, s.calls[n]? = some m ∧ Moves s e n m phase ∧ m' = { m with phase }) ∨
      ∃ c, e = .call c ∧ n = s.calls.length ∧ m' = s.made c := by
  cases hget : s.calls[n]? with
  | some m =>
    obtain ⟨phase, hmoves, hafter⟩ := call_step hget e
    exact .inl ⟨m, phase, rfl, hmoves, Option.some.inj (h.symm.trans hafter)⟩
  | none =>
    have hold := List.getElem?_eq_none_iff.mp hget
    have hnew := (List.getElem?_eq_some_iff.mp h).1
    by_cases hcall : ∃ c, e = .call c
    · obtain ⟨c, rfl⟩ := hcall
      rw [calls_call] at h hnew
      rw [List.length_append, List.length_singleton] at hnew
      have hn : n = s.calls.length := by omega
      rw [hn, List.getElem?_concat_length] at h
      exact .inr ⟨c, rfl, hn, (Option.some.inj h).symm⟩
    · rw [length_step fun c heq => hcall ⟨c, heq⟩] at hnew
      exact absurd hold (by omega)

/-! ## What holds of every run -/

/-! ### Who waits -/

/-- Who awaits the activation: the calls that wait, once each, and then `close`. -/
structure Queue (s : ResilientNotificationHistory ι) (ns : List Nat) : Prop where
  waiting : s.waiting = ns.map .call ++ (if s.closing = .waiting then [.close] else [])
  once : ns.Nodup
  waits : ∀ n, n ∈ ns ↔ ∃ m, s.calls[n]? = some m ∧ m.phase = .waiting

omit [DecidableEq ι] in
theorem Queue.set {ns : List Nat} (hq : s.Queue ns) {n : Nat} (hn : n ∉ ns) {phase : CallPhase ι}
    (hphase : phase ≠ .waiting) :
    (s.setPhase n phase).Queue ns := by
  refine ⟨hq.waiting, hq.once, fun i => ?_⟩
  rw [get_setPhase]
  split
  · rename_i heq
    subst heq
    refine iff_of_false hn ?_
    rintro ⟨m, hget, hm⟩
    obtain ⟨m', -, rfl⟩ := Option.map_eq_some_iff.mp hget
    exact hphase hm
  · exact hq.waits i

omit [DecidableEq ι] in
theorem Queue.join {ns : List Nat} (hq : s.Queue ns) {n : Nat} {m : MadeCall ι} (hget : s.calls[n]? = some m)
    (hphase : m.phase = .onPrimary)
    (hclosing : s.closing ≠ .waiting) : (s.awaitActivation n).Queue (ns ++ [n]) := by
  have hn : n ∉ ns := by
    intro hmem
    obtain ⟨m', hget', hm'⟩ := (hq.waits n).mp hmem
    obtain rfl := Option.some.inj (hget.symm.trans hget')
    exact absurd (hphase.symm.trans hm') nofun
  refine ⟨?_, List.nodup_append.mpr ⟨hq.once, List.nodup_singleton n, ?_⟩, fun i => ?_⟩
  · change s.waiting ++ [.call n] = (ns ++ [n]).map .call ++ (if s.closing = .waiting then [.close] else [])
    rw [hq.waiting, if_neg hclosing, List.map_append]
    simp
  · rintro a ha b hb rfl
    exact hn (List.mem_singleton.mp hb ▸ ha)
  · change i ∈ ns ++ [n] ↔ ∃ m, (s.setPhase n .waiting).calls[i]? = some m ∧ m.phase = .waiting
    rw [List.mem_append, List.mem_singleton, hq.waits, get_setPhase]
    split
    · rename_i heq
      subst heq
      exact iff_of_true (.inr rfl) ⟨_, by rw [hget]; rfl, rfl⟩
    · rename_i hne
      exact or_iff_left fun heq => hne heq.symm

omit [DecidableEq ι] in
/-- The first call goes on. -/
theorem Queue.pop {ns : List Nat} {n : Nat} {rest : List Waiter} (hq : s.Queue ns)
    (hwaiting : s.waiting = .call n :: rest)
    {phase : CallPhase ι} (hphase : phase ≠ .waiting) :
    ∃ ns', ({ s with waiting := rest }.setPhase n phase : ResilientNotificationHistory ι).Queue ns' := by
  cases ns with
  | nil =>
    have hshape := hq.waiting.symm.trans hwaiting
    split at hshape <;> simp at hshape
  | cons k ns =>
    have hshape := hwaiting.symm.trans hq.waiting
    simp only [List.map_cons, List.cons_append, List.cons.injEq, Waiter.call.injEq] at hshape
    obtain ⟨rfl, rfl⟩ := hshape
    obtain ⟨hk, honce⟩ := List.nodup_cons.mp hq.once
    refine ⟨ns, rfl, honce, fun i => ?_⟩
    rw [get_setPhase]
    split
    · rename_i heq
      subst heq
      refine iff_of_false hk ?_
      rintro ⟨m, hget, hm⟩
      obtain ⟨m', -, rfl⟩ := Option.map_eq_some_iff.mp hget
      exact hphase hm
    · rename_i hne
      rw [← hq.waits i, List.mem_cons]
      exact (or_iff_right fun heq => hne heq.symm).symm

/-- What holds in every state. -/
structure Kept (s : ResilientNotificationHistory ι) : Prop where
  queue : ∃ ns, s.Queue ns
  idle : s.fallbackActivation = .none → s.waiting = []
  active : s.active = .fallback ↔ s.fallbackActivation = .done
  opened : s.closed = false ↔ s.closing = .none
  /-- `close` goes on when no call waits any more. -/
  passed : s.closing ≠ .none → s.closing ≠ .waiting → s.waiting = []
  shut : s.fallbackClosed = true → s.closing = .finished
  running : ∀ (n : Nat) (m : MadeCall ι), s.calls[n]? = some m → m.phase = .waiting → ∀ eventId,
  m.call ≠ .remove eventId
  /-- Where the activation has not failed, no proper call fails that was made before `close()`. -/
  failed : ∀ (n : Nat) (m : MadeCall ι), s.calls[n]? = some m → m.phase = .failed → m.early = true →
    Runs m.call → s.fallbackActivation = .failed

omit [DecidableEq ι] in
theorem kept_init {capacity : Nat} (positive : 0 < capacity) : Kept (init (ι := ι) capacity positive) where
  queue := ⟨[], rfl, List.nodup_nil, fun n => by simp [init]⟩
  idle := fun _ => rfl
  active := iff_of_false nofun nofun
  opened := iff_of_true rfl rfl
  passed := fun h => absurd rfl h
  shut := nofun
  running := fun n m h => by simp [init] at h
  failed := fun n m h => by simp [init] at h

/-- The fallback answers a proper call while its stream is open. -/
theorem throughFallback_runs {c : HistoryCall ι} (hruns : Runs c) (hopen : s.fallbackClosed = false) :
    ∃ answer, (s.throughFallback c).2 = .answered .fallback answer := by
  cases c with
  | contains eventId => exact ⟨_, rfl⟩
  | add entry =>
    rw [throughFallback, hopen]
    split
    · exact ⟨_, rfl⟩
    · exact ⟨_, rfl⟩
  | loadPage offset limit =>
    have hproper : ¬ (offset.toInt < 0 ∨ limit.toInt ≤ 0) := by
      obtain ⟨h1, h2⟩ := hruns
      omega
    rw [throughFallback, InMemoryNotificationHistory.loadPage, if_neg hproper]
    exact ⟨_, rfl⟩
  | remove eventId => exact hruns.elim

theorem throughFallback_phase (c : HistoryCall ι) :
    (s.throughFallback c).2 = .failed ∨ ∃ answer, (s.throughFallback c).2 = .answered .fallback answer := by
  cases c with
  | contains eventId => exact .inr ⟨_, rfl⟩
  | add entry =>
    rw [throughFallback]
    split
    · exact .inr ⟨_, rfl⟩
    · split
      · exact .inl rfl
      · exact .inr ⟨_, rfl⟩
  | loadPage offset limit =>
    rw [throughFallback]
    split
    · exact .inr ⟨_, rfl⟩
    · exact .inl rfl
  | remove eventId =>
    rw [throughFallback]
    split
    · exact .inl rfl
    · exact .inr ⟨_, rfl⟩

theorem made_phase (c : HistoryCall ι) : (s.made c).phase ≠ .waiting := by
  rw [made]
  rcases throughFallback_phase (s := s) c with hfailed | ⟨answer, hanswered⟩
  · cases s.active <;> simp [hfailed]
  · cases s.active <;> simp [hanswered]

theorem Queue.make {ns : List Nat} (hq : s.Queue ns) (c : HistoryCall ι) : (s.step (.call c)).Queue ns := by
  have hwaits : ∀ n, n ∈ ns ↔ ∃ m, (s.step (.call c)).calls[n]? = some m ∧ m.phase = .waiting := by
    intro n
    rw [hq.waits n, calls_call]
    constructor
    · rintro ⟨m, hget, hm⟩
      exact ⟨m, by rw [List.getElem?_append_left (List.getElem?_eq_some_iff.mp hget).1, hget], hm⟩
    · rintro ⟨m, hget, hm⟩
      rcases Nat.lt_or_ge n s.calls.length with hlt | hge
      · exact ⟨m, by rwa [List.getElem?_append_left hlt] at hget, hm⟩
      · rw [List.getElem?_append_right hge] at hget
        obtain rfl := List.mem_singleton.mp (List.mem_of_getElem? hget)
        exact absurd hm (made_phase c)
  refine ⟨?_, hq.once, hwaits⟩
  rw [step]
  cases s.active
  · exact hq.waiting
  · exact hq.waiting

/-! ### Steps -/

omit [DecidableEq ι] in
/-- The fallback is open while a call waits, and until `close()`. -/
theorem Kept.unshut (hk : Kept s) (h : s.closed = false ∨ s.waiting ≠ []) : s.fallbackClosed = false := by
  by_contra hshut
  have hfinished := hk.shut (Bool.eq_true_of_not_eq_false hshut)
  rcases h with hclosed | hwaiting
  · exact absurd ((hk.opened.mp hclosed).symm.trans hfinished) nofun
  · exact hwaiting (hk.passed (by rw [hfinished]; nofun) (by rw [hfinished]; nofun))

/-- The fields about calls: the activation does not recover from its failure. -/
theorem Kept.fields (hk : Kept s) (e : ResilientEvent ι)
    (hfailed : s.fallbackActivation = .failed → (s.step e).fallbackActivation = .failed) :
    (∀ (n : Nat) (m : MadeCall ι), (s.step e).calls[n]? = some m → m.phase = .waiting → ∀ eventId,
      m.call ≠ .remove eventId) ∧
      ∀ (n : Nat) (m : MadeCall ι), (s.step e).calls[n]? = some m → m.phase = .failed → m.early = true → Runs m.call →
        (s.step e).fallbackActivation = .failed := by
  constructor
  · intro n m' hget hphase
    rcases calls_step hget with ⟨m, phase, hold, hmoves, rfl⟩ | ⟨c, rfl, -, rfl⟩
    · cases hmoves with
      | stays => exact hk.running n m hold hphase
      | answers => cases hphase
      | rethrows => cases hphase
      | waits n m h hopen hrun => exact hrun
      | acts =>
        rcases throughFallback_phase (s := s) m.call with hfail | ⟨answer, hanswered⟩
        · exact absurd (hfail.symm.trans hphase) nofun
        · exact absurd (hanswered.symm.trans hphase) nofun
      | fails => cases hphase
    · exact absurd hphase (made_phase c)
  · intro n m' hget hphase hearly hruns
    rcases calls_step hget with ⟨m, phase, hold, hmoves, rfl⟩ | ⟨c, rfl, -, rfl⟩
    · cases hmoves with
      | stays => exact hfailed (hk.failed n m hold hphase hearly hruns)
      | answers => cases hphase
      | rethrows => cases hphase
      | waits => cases hphase
      | acts n m rest hdone hwaiting =>
        have hopen := hk.unshut (.inr (by rw [hwaiting]; exact List.cons_ne_nil _ _))
        obtain ⟨answer, hanswered⟩ := throughFallback_runs (s := s) hruns hopen
        exact absurd (hanswered.symm.trans hphase) nofun
      | fails n m rest hactivation hwaiting => exact hfailed hactivation
    · have hclosed : s.closed = false := by simpa [made] using hearly
      have hopen := hk.unshut (.inl hclosed)
      obtain ⟨answer, hanswered⟩ := throughFallback_runs (s := s) (c := c) hruns hopen
      rw [made] at hphase
      cases hactive : s.active with
      | primary =>
        rw [hactive] at hphase
        cases hphase
      | fallback =>
        rw [hactive] at hphase
        exact absurd (hanswered.symm.trans hphase) nofun

/-- A step that changes calls and the fallback only. -/
theorem Kept.phases (hk : Kept s) {e : ResilientEvent ι} {calls : List (MadeCall ι)}
    {fallback : InMemoryNotificationHistory ι}
    (h : s.step e = { s with calls, fallback }) (hqueue : ∃ ns, (s.step e).Queue ns) : Kept (s.step e) := by
  obtain ⟨hrunning, hfailed⟩ := hk.fields e (by rw [h]; exact id)
  refine ⟨hqueue, ?_, ?_, ?_, ?_, ?_, hrunning, hfailed⟩
  · rw [h]
    exact hk.idle
  · rw [h]
    exact hk.active
  · rw [h]
    exact hk.opened
  · rw [h]
    exact hk.passed
  · rw [h]
    exact hk.shut

theorem kept_call (hk : Kept s) (c : HistoryCall ι) : Kept (s.step (.call c)) := by
  obtain ⟨ns, hq⟩ := hk.queue
  have hqueue : ∃ ns, (s.step (.call c)).Queue ns := ⟨ns, hq.make c⟩
  cases hactive : s.active with
  | primary =>
    have hstep : s.step (.call c) = { s with calls := s.calls ++ [s.made c], fallback := s.fallback } := by
      rw [step, made, hactive]
    exact hk.phases hstep hqueue
  | fallback =>
    have hstep : s.step (.call c) = { s with calls := s.calls ++ [s.made c], fallback := (s.throughFallback c).1 } := by
      rw [step, made, hactive]
    exact hk.phases hstep hqueue

/-- The call leaves the primary and does not wait. -/
theorem Kept.leave (hk : Kept s) {e : ResilientEvent ι} {n : Nat} {c : HistoryCall ι} (hasked : s.asked n = some c)
    {phase : CallPhase ι}
    (hphase : phase ≠ .waiting) (h : s.step e = s.setPhase n phase) : Kept (s.step e) := by
  obtain ⟨ns, hq⟩ := hk.queue
  obtain ⟨early, hget⟩ := asked_eq_some.mp hasked
  have hn : n ∉ ns := by
    intro hmem
    obtain ⟨m, hget', hm⟩ := (hq.waits n).mp hmem
    obtain rfl := Option.some.inj (hget.symm.trans hget')
    cases hm
  refine hk.phases h ⟨ns, ?_⟩
  rw [h]
  exact hq.set hn hphase

theorem kept_primaryFails (hk : Kept s) (n : Nat) : Kept (s.step (.primaryFails n)) := by
  cases hasked : s.asked n with
  | none =>
    have hsame : s.step (.primaryFails n) = s := by rw [step, hasked]
    rwa [hsame]
  | some c =>
    rcases primaryFails_cases hasked with ⟨hstep, -⟩ | ⟨hstep, hopen, -⟩
    · have hphase : (CallPhase.rethrown : CallPhase ι) ≠ .waiting := nofun
      exact hk.leave hasked hphase hstep
    · have hnone : s.closing = .none := hk.opened.mp hopen
      have hbegun : ∀ a : Activation, a.orBegin ≠ .none ∧ (a.orBegin = .done ↔ a = .done) ∧
        (a = .failed → a.orBegin = .failed) := by
        intro a
        cases a <;> decide
      obtain ⟨ns, hq⟩ := hk.queue
      obtain ⟨early, hget⟩ := asked_eq_some.mp hasked
      obtain ⟨hrunning, hfailed⟩ := hk.fields (.primaryFails n) (by rw [hstep]; exact (hbegun _).2.2)
      refine ⟨⟨ns ++ [n], ?_⟩, ?_, ?_, ?_, ?_, ?_, hrunning, hfailed⟩
      · rw [hstep]
        exact hq.join hget rfl (by rw [hnone]; nofun)
      · rw [hstep]
        exact fun hidle => absurd hidle (hbegun _).1
      · rw [hstep]
        exact hk.active.trans (hbegun _).2.1.symm
      · rw [hstep]
        exact hk.opened
      · rw [hstep]
        exact fun hclosing => absurd hnone hclosing
      · rw [hstep]
        exact hk.shut

/-- The first call that waits goes on, to any phase. -/
theorem Kept.pop (hk : Kept s) {n : Nat} {rest : List Waiter} (hwaiting : s.waiting = .call n :: rest)
    {phase : CallPhase ι}
    {fallback : InMemoryNotificationHistory ι}
    (h : s.step .resume =
    { ({ s with waiting := rest }.setPhase n phase : ResilientNotificationHistory ι) with fallback })
    (hphase : phase ≠ .waiting) (hsettled : s.fallbackActivation ≠ .none) : Kept (s.step .resume) := by
  obtain ⟨ns, hq⟩ := hk.queue
  obtain ⟨hrunning, hfailed⟩ := hk.fields .resume (by rw [h]; exact id)
  obtain ⟨ns', hq'⟩ := hq.pop hwaiting hphase
  refine ⟨⟨ns', ?_⟩, ?_, ?_, ?_, ?_, ?_, hrunning, hfailed⟩
  · rw [h]
    exact ⟨hq'.waiting, hq'.once, hq'.waits⟩
  · rw [h]
    exact fun hidle => absurd hidle hsettled
  · rw [h]
    exact hk.active
  · rw [h]
    exact hk.opened
  · rw [h]
    exact fun hnone hclosing => absurd (hwaiting.symm.trans (hk.passed hnone hclosing)) nofun
  · rw [h]
    exact hk.shut

omit [DecidableEq ι] in
theorem Kept.queue_first (hk : Kept s) {n : Nat} {rest : List Waiter} (hwaiting : s.waiting = .call n :: rest) :
    ∃ m, s.calls[n]? = some m ∧ m.phase = .waiting := by
  obtain ⟨ns, hq⟩ := hk.queue
  refine (hq.waits n).mp ?_
  have hmem : Waiter.call n ∈ s.waiting := hwaiting ▸ List.mem_cons_self
  rw [hq.waiting, List.mem_append] at hmem
  rcases hmem with hcall | hclose
  · simpa using hcall
  · split at hclose <;> simp at hclose

omit [DecidableEq ι] in
/-- `close` is the last that waits. -/
theorem Kept.close_last (hk : Kept s) {rest : List Waiter} (hwaiting : s.waiting = .close :: rest) :
    s.Queue [] ∧ rest = [] ∧ s.closing = .waiting := by
  obtain ⟨ns, hq⟩ := hk.queue
  have hshape := hwaiting.symm.trans hq.waiting
  cases ns with
  | cons k ns => simp at hshape
  | nil =>
    split at hshape
    · rename_i hclosing
      exact ⟨hq, by simpa using hshape, hclosing⟩
    · simp at hshape

/-- `close` goes on. -/
theorem Kept.popClose (hk : Kept s) {rest : List Waiter} (hwaiting : s.waiting = .close :: rest) {closing : Closing}
    (h : s.step .resume = { s with waiting := rest, closing }) (hnone : closing ≠ .none) (hclosing : closing ≠ .waiting)
    (hsettled : s.fallbackActivation ≠ .none) : Kept (s.step .resume) := by
  obtain ⟨hq, rfl, hbefore⟩ := hk.close_last hwaiting
  obtain ⟨hrunning, hfailed⟩ := hk.fields .resume (by rw [h]; exact id)
  have hclosed : s.closed ≠ false := fun hopen => absurd (hbefore.symm.trans (hk.opened.mp hopen)) nofun
  refine ⟨⟨[], ?_⟩, ?_, ?_, ?_, ?_, ?_, hrunning, hfailed⟩
  · rw [h]
    refine ⟨?_, List.nodup_nil, hq.waits⟩
    rw [if_neg hclosing]
    rfl
  · rw [h]
    exact fun hidle => absurd hidle hsettled
  · rw [h]
    exact hk.active
  · rw [h]
    exact iff_of_false hclosed hnone
  · rw [h]
    exact fun _ _ => rfl
  · rw [h]
    exact fun hshut => absurd (hbefore.symm.trans (hk.shut hshut)) nofun

theorem kept_resume (hk : Kept s) : Kept (s.step .resume) := by
  obtain ⟨ns, hq⟩ := hk.queue
  cases hwaiting : s.waiting with
  | nil =>
    have hsame : s.step .resume = s := by
      rw [step, hwaiting]
      cases s.fallbackActivation <;> rfl
    rwa [hsame]
  | cons w rest =>
    cases hactivation : s.fallbackActivation with
    | none => exact absurd (hwaiting.symm.trans (hk.idle hactivation)) nofun
    | running =>
      have hsame : s.step .resume = s := by
        rw [step, hwaiting, hactivation]
      rwa [hsame]
    | done =>
      cases w with
      | close =>
        exact hk.popClose hwaiting (resume_close hactivation hwaiting) nofun nofun (by rw [hactivation]; nofun)
      | call n =>
        obtain ⟨m, hget, -⟩ := hk.queue_first hwaiting
        have hstep : s.step .resume =
          { ({ s with waiting := rest }.setPhase n (s.throughFallback m.call).2 : ResilientNotificationHistory ι) with
            fallback := (s.throughFallback m.call).1 } := by
          exact (resume_done hactivation hwaiting).trans (actAgain_eq (s := { s with waiting := rest }) hget)
        refine hk.pop hwaiting hstep ?_ (by rw [hactivation]; nofun)
        rcases throughFallback_phase (s := s) m.call with hfail | ⟨answer, hanswered⟩
        · rw [hfail]
          nofun
        · rw [hanswered]
          nofun
    | failed =>
      cases w with
      | close =>
        have hstep : s.step .resume = { s with waiting := rest, closing := .failed } := by
          rw [step, hwaiting, hactivation]
        exact hk.popClose hwaiting hstep nofun nofun (by rw [hactivation]; nofun)
      | call n =>
        have hstep : s.step .resume =
          { ({ s with waiting := rest }.setPhase n .failed : ResilientNotificationHistory ι) with
            fallback := s.fallback } := by
          rw [step, hwaiting, hactivation]
          rfl
        exact hk.pop hwaiting hstep nofun (by rw [hactivation]; nofun)

theorem kept_close (hk : Kept s) : Kept (s.step .close) := by
  by_cases hclosed : s.closed = true
  · have hsame : s.step .close = s := by rw [step, if_pos hclosed]
    rwa [hsame]
  have hopened := hk.opened.mp (Bool.eq_false_iff.mpr hclosed)
  have hunshut := hk.unshut (.inl (Bool.eq_false_iff.mpr hclosed))
  obtain ⟨ns, hq⟩ := hk.queue
  have hcalls := hq.waiting
  rw [if_neg (by rw [hopened]; nofun), List.append_nil] at hcalls
  by_cases hactivation : s.fallbackActivation = .none
  · have h : s.step .close = { s with closed := true, closing := .cancelling } := by
      rw [step, if_neg hclosed, if_pos hactivation]
    obtain ⟨hrunning, hfailed⟩ := hk.fields .close (by rw [h]; exact id)
    refine ⟨⟨ns, ?_⟩, ?_, ?_, ?_, ?_, ?_, hrunning, hfailed⟩
    · rw [h]
      exact ⟨hcalls.trans (List.append_nil _).symm, hq.once, hq.waits⟩
    · rw [h]
      exact hk.idle
    · rw [h]
      exact hk.active
    · rw [h]
      exact iff_of_false nofun nofun
    · rw [h]
      exact fun _ _ => hk.idle hactivation
    · rw [h]
      exact fun hshut => absurd (hunshut.symm.trans hshut) nofun
  · have h : s.step .close = { s with closed := true, closing := .waiting, waiting := s.waiting ++ [.close] } := by
      rw [step, if_neg hclosed, if_neg hactivation]
    obtain ⟨hrunning, hfailed⟩ := hk.fields .close (by rw [h]; exact id)
    refine ⟨⟨ns, ?_⟩, ?_, ?_, ?_, ?_, ?_, hrunning, hfailed⟩
    · rw [h]
      exact ⟨congrArg (· ++ [Waiter.close]) hcalls, hq.once, hq.waits⟩
    · rw [h]
      exact fun hidle => absurd hidle hactivation
    · rw [h]
      exact hk.active
    · rw [h]
      exact iff_of_false nofun nofun
    · rw [h]
      exact fun _ hclosing => absurd rfl hclosing
    · rw [h]
      exact fun hshut => absurd (hunshut.symm.trans hshut) nofun

theorem kept_closeFinishes (hk : Kept s) : Kept (s.step .closeFinishes) := by
  by_cases hclosing : s.closing = .cancelling
  · have h : s.step .closeFinishes = { s with closing := .finished, fallbackClosed := s.active = .fallback } := by
      rw [step, if_pos hclosing]
    have hnone : s.waiting = [] := hk.passed (by rw [hclosing]; nofun) (by rw [hclosing]; nofun)
    obtain ⟨ns, hq⟩ := hk.queue
    have hcalls := hq.waiting
    rw [if_neg (by rw [hclosing]; nofun)] at hcalls
    obtain ⟨hrunning, hfailed⟩ := hk.fields .closeFinishes (by rw [h]; exact id)
    refine ⟨⟨ns, ?_⟩, ?_, ?_, ?_, ?_, ?_, hrunning, hfailed⟩
    · rw [h]
      exact ⟨hcalls, hq.once, hq.waits⟩
    · rw [h]
      exact hk.idle
    · rw [h]
      exact hk.active
    · rw [h]
      refine iff_of_false (fun hopen => ?_) nofun
      exact absurd (hclosing.symm.trans (hk.opened.mp hopen)) nofun
    · rw [h]
      exact fun _ _ => hnone
    · rw [h]
      exact fun _ => rfl
  · have hsame : s.step .closeFinishes = s := by rw [step, if_neg hclosing]
    rwa [hsame]

theorem kept_primaryCloses (hk : Kept s) (ok : Bool) : Kept (s.step (.primaryCloses ok)) := by
  by_cases hactivation : s.fallbackActivation = .running
  · obtain ⟨ns, hq⟩ := hk.queue
    have hbefore : s.active ≠ .fallback := fun hactive => absurd (hactivation.symm.trans (hk.active.mp hactive)) nofun
    have hnot : s.fallbackActivation = .failed → (s.step (.primaryCloses ok)).fallbackActivation = .failed :=
      fun hfailed => absurd (hactivation.symm.trans hfailed) nofun
    obtain ⟨hrunning, hfailed⟩ := hk.fields (.primaryCloses ok) hnot
    cases ok with
    | true =>
      have h : s.step (.primaryCloses true) = { s with active := .fallback, fallbackActivation := .done } := by
        rw [step, if_pos hactivation, if_pos rfl]
      refine ⟨⟨ns, ?_⟩, ?_, ?_, ?_, ?_, ?_, hrunning, hfailed⟩
      · rw [h]
        exact ⟨hq.waiting, hq.once, hq.waits⟩
      · rw [h]
        exact nofun
      · rw [h]
        exact iff_of_true rfl rfl
      · rw [h]
        exact hk.opened
      · rw [h]
        exact hk.passed
      · rw [h]
        exact hk.shut
    | false =>
      have h : s.step (.primaryCloses false) = { s with fallbackActivation := .failed } := by
        rw [step, if_pos hactivation, if_neg Bool.false_ne_true]
      refine ⟨⟨ns, ?_⟩, ?_, ?_, ?_, ?_, ?_, hrunning, hfailed⟩
      · rw [h]
        exact ⟨hq.waiting, hq.once, hq.waits⟩
      · rw [h]
        exact nofun
      · rw [h]
        exact iff_of_false hbefore nofun
      · rw [h]
        exact hk.opened
      · rw [h]
        exact hk.passed
      · rw [h]
        exact hk.shut
  · have hsame : s.step (.primaryCloses ok) = s := by rw [step, if_neg hactivation]
    rwa [hsame]

theorem kept_step (hk : Kept s) (e : ResilientEvent ι) : Kept (s.step e) := by
  cases e with
  | call c => exact kept_call hk c
  | primaryAnswers n answer =>
    cases hasked : s.asked n with
    | none =>
      have hsame : s.step (.primaryAnswers n answer) = s := by rw [step, hasked]
      rwa [hsame]
    | some c =>
      have hphase : (CallPhase.answered .primary answer : CallPhase ι) ≠ .waiting := nofun
      exact hk.leave hasked hphase (by rw [step, hasked])
  | primaryFails n => exact kept_primaryFails hk n
  | primaryCloses ok => exact kept_primaryCloses hk ok
  | resume => exact kept_resume hk
  | close => exact kept_close hk
  | closeFinishes => exact kept_closeFinishes hk

theorem kept_run {capacity : Nat} (positive : 0 < capacity) (es : List (ResilientEvent ι)) :
    Kept (run capacity positive es) :=
  runFrom_inv (I := Kept) (fun _ e hk => kept_step hk e) (kept_init positive) es

/-! ## Every call is answered -/

theorem resume_waiting (hdone : s.fallbackActivation = .done) :
    (s.step .resume).fallbackActivation = .done ∧ (s.step .resume).waiting = s.waiting.tail := by
  cases hwaiting : s.waiting with
  | nil =>
    have hsame : s.step .resume = s := by
      rw [step, hwaiting]
      cases s.fallbackActivation <;> rfl
    rw [hsame]
    exact ⟨hdone, hwaiting⟩
  | cons w rest =>
    cases w with
    | call n =>
      rw [resume_done hdone hwaiting, actAgain]
      split
      · exact ⟨hdone, rfl⟩
      · exact ⟨hdone, rfl⟩
    | close =>
      rw [resume_close hdone hwaiting]
      exact ⟨hdone, rfl⟩

/-- The primary has answered or failed, and no error came out of it. -/
def Landed (phase : CallPhase ι) : Prop := phase ≠ .onPrimary ∧ phase ≠ .rethrown

theorem landed_resume {n : Nat} {m : MadeCall ι} (hget : s.calls[n]? = some m) (hlanded : Landed m.phase) :
    ∃ phase, (s.step .resume).calls[n]? = some { m with phase } ∧ Landed phase := by
  obtain ⟨phase, hmoves, hafter⟩ := call_step hget .resume
  refine ⟨phase, hafter, ?_⟩
  cases hmoves with
  | stays => exact hlanded
  | acts =>
    rcases throughFallback_phase (s := s) m.call with hfail | ⟨answer, hanswered⟩
    · rw [hfail]
      exact ⟨nofun, nofun⟩
    · rw [hanswered]
      exact ⟨nofun, nofun⟩
  | fails => exact ⟨nofun, nofun⟩

/-- Where the activation is done, all go on, one after the other. -/
theorem drain_spec (k : Nat) : ∀ {s : ResilientNotificationHistory ι}, Kept s → s.fallbackActivation = .done →
    let t := runFrom step s (List.replicate k .resume)
    Kept t ∧ t.fallbackActivation = .done ∧ t.waiting = s.waiting.drop k ∧
      ∀ (n : Nat) (m : MadeCall ι), s.calls[n]? = some m → Landed m.phase → ∃ phase,
      t.calls[n]? = some { m with phase } ∧ Landed phase := by
  induction k with
  | zero => exact fun hk hdone => ⟨hk, hdone, rfl, fun n m hget hlanded => ⟨m.phase, hget, hlanded⟩⟩
  | succ k ih =>
    intro s hk hdone
    obtain ⟨hafter, htail⟩ := resume_waiting hdone
    obtain ⟨hkept, hstill, hdrop, hcalls⟩ := ih (kept_step hk .resume) hafter
    refine ⟨hkept, hstill, ?_, fun n m hget hlanded => ?_⟩
    · rw [htail, List.drop_tail] at hdrop
      exact hdrop
    · obtain ⟨phase, hget', hlanded'⟩ := landed_resume hget hlanded
      obtain ⟨phase', hafter', hend⟩ := hcalls n { m with phase } hget' hlanded'
      exact ⟨phase', hafter', hend⟩

/-- What is neither in flight nor waiting nor failed is answered. -/
theorem Kept.answered (hk : Kept s) (hsettled : s.fallbackActivation = .none ∨ s.fallbackActivation = .done)
    {n : Nat} {m : MadeCall ι}
    (hget : s.calls[n]? = some m) (hearly : m.early = true) (hruns : Runs m.call) (hlanded : Landed m.phase) :
    ∃ by' answer, s.drain.calls[n]? = some { m with phase := .answered by' answer } := by
  have hend : ∃ phase, Kept s.drain ∧ s.drain.waiting = [] ∧ s.drain.fallbackActivation ≠ .failed ∧
      s.drain.calls[n]? = some { m with phase } ∧ Landed phase := by
    rcases hsettled with hnone | hdone
    · have hempty : s.waiting = [] := hk.idle hnone
      have hsame : s.drain = s := by rw [drain, hempty, List.length_nil, List.replicate_zero, runFrom_nil]
      rw [hsame]
      exact ⟨m.phase, hk, hempty, by rw [hnone]; nofun, hget, hlanded⟩
    · obtain ⟨hkept, hstill, hdrop, hcalls⟩ := drain_spec s.waiting.length hk hdone
      obtain ⟨phase, hget', hlanded'⟩ := hcalls n m hget hlanded
      rw [List.drop_length] at hdrop
      exact ⟨phase, hkept, hdrop, by rw [drain, hstill]; nofun, hget', hlanded'⟩
  obtain ⟨phase, hkept, hempty, hactivation, hget', honPrimary, hrethrown⟩ := hend
  cases phase with
  | answered by' answer => exact ⟨by', answer, hget'⟩
  | onPrimary => exact absurd rfl honPrimary
  | rethrown => exact absurd rfl hrethrown
  | failed => exact absurd (hkept.failed n _ hget' rfl hearly hruns) hactivation
  | waiting =>
    obtain ⟨ns, hq⟩ := hkept.queue
    have hmem : n ∈ ns := (hq.waits n).mpr ⟨_, hget', rfl⟩
    have hwaiting := hempty.symm.trans hq.waiting
    cases ns with
    | nil => exact absurd hmem List.not_mem_nil
    | cons k ns => simp at hwaiting

/-- `close()` was called between the call and its failure on the primary. -/
def Overtaken (capacity : Nat) (positive : 0 < capacity) (es : List (ResilientEvent ι)) (n : Nat) : Prop :=
  ∃ before after, es = before ++ .primaryFails n :: after ∧ (run capacity positive before).closed = true ∧
    ∃ m, (run capacity positive before).calls[n]? = some m ∧ m.phase = .onPrimary

theorem run_concat {capacity : Nat} (positive : 0 < capacity) (es : List (ResilientEvent ι)) (e : ResilientEvent ι) :
    run capacity positive (es ++ [e]) = (run capacity positive es).step e := runFrom_append _ es [e]

theorem Overtaken.concat {capacity : Nat} {positive : 0 < capacity} {es : List (ResilientEvent ι)} {n : Nat}
    (h : Overtaken capacity positive es n) (e : ResilientEvent ι) : Overtaken capacity positive (es ++ [e]) n := by
  obtain ⟨before, after, hsplit, hclosed, hm⟩ := h
  exact ⟨before, after ++ [e], by rw [hsplit, List.append_assoc, List.cons_append], hclosed, hm⟩

/-- The primary's error comes out of a proper call only where `close()` overtook it. -/
theorem overtaken_of_rethrown {capacity : Nat} (positive : 0 < capacity) (es : List (ResilientEvent ι)) :
    ∀ (n : Nat) (m : MadeCall ι), (run capacity positive es).calls[n]? = some m → Runs m.call → m.phase = .rethrown →
      Overtaken capacity positive es n := by
  induction es using List.reverseRecOn with
  | nil => exact fun n m hget => by simp [run, init] at hget
  | append_singleton es e ih =>
    intro n m' hget hruns hphase
    rw [run_concat] at hget
    rcases calls_step hget with ⟨m, phase, hold, hmoves, rfl⟩ | ⟨c, rfl, -, rfl⟩
    · cases hmoves with
      | stays => exact (ih n m hold hruns hphase).concat e
      | answers => cases hphase
      | rethrows n m h hoff => exact ⟨es, [], rfl, hoff hruns, m, hold, h⟩
      | waits => cases hphase
      | acts =>
        rcases throughFallback_phase (s := run capacity positive es) m.call with hfail | ⟨answer, hanswered⟩
        · exact absurd (hfail.symm.trans hphase) (by rintro ⟨⟩)
        · exact absurd (hanswered.symm.trans hphase) (by rintro ⟨⟩)
      | fails => cases hphase
    · rw [made] at hphase
      split at hphase
      · cases hphase
      · rcases throughFallback_phase (s := run capacity positive es) c with hfail | ⟨answer, hanswered⟩
        · exact absurd (hfail.symm.trans hphase) (by rintro ⟨⟩)
        · exact absurd (hanswered.symm.trans hphase) (by rintro ⟨⟩)

/-! ## What the fallback holds -/

/-- What a step does to the fallback: a call, which is a removal only where it is just made. -/
theorem fallback_step (hk : Kept s) (e : ResilientEvent ι) :
    (s.step e).fallback = s.fallback ∨
      s.active = .fallback ∧ ∃ c, (s.step e).fallback = (s.throughFallback c).1 ∧ ∀ eventId,
      c = .remove eventId → e = .call (.remove eventId) := by
  cases e with
  | call c =>
    cases hactive : s.active with
    | primary =>
      refine .inl ?_
      rw [step, hactive]
    | fallback =>
      refine .inr ⟨rfl, c, ?_, fun eventId heq => heq ▸ rfl⟩
      rw [step, hactive]
  | resume =>
    cases hwaiting : s.waiting with
    | nil =>
      refine .inl ?_
      rw [step, hwaiting]
      cases s.fallbackActivation <;> rfl
    | cons w rest =>
      cases hactivation : s.fallbackActivation with
      | none => exact absurd (hwaiting.symm.trans (hk.idle hactivation)) nofun
      | running =>
        refine .inl ?_
        rw [step, hwaiting, hactivation]
      | failed =>
        refine .inl ?_
        rw [step, hwaiting, hactivation]
        cases w <;> rfl
      | done =>
        cases w with
        | close => exact .inl (by rw [resume_close hactivation hwaiting])
        | call n =>
          obtain ⟨m, hget, hphase⟩ := hk.queue_first hwaiting
          refine .inr ⟨hk.active.mpr hactivation, m.call, ?_, fun eventId heq =>
            absurd heq (hk.running n m hget hphase eventId)⟩
          rw [resume_done hactivation hwaiting, actAgain_eq (s := { s with waiting := rest }) hget]
          rfl
  | primaryAnswers n answer =>
    refine .inl ?_
    rw [step]
    split <;> rfl
  | primaryFails n =>
    refine .inl ?_
    cases hasked : s.asked n with
    | none => rw [step, hasked]
    | some c =>
      rcases primaryFails_cases hasked with ⟨hstep, -⟩ | ⟨hstep, -⟩
      · rw [hstep]
        rfl
      · rw [hstep]
        rfl
  | primaryCloses ok =>
    refine .inl ?_
    rw [step]
    split
    · split <;> rfl
    · rfl
  | close =>
    refine .inl ?_
    rw [step]
    split
    · rfl
    · split <;> rfl
  | closeFinishes =>
    refine .inl ?_
    rw [step]
    split <;> rfl

/-- The fallback becomes the active history, and stays it. -/
theorem active_step (hk : Kept s) (e : ResilientEvent ι) (hactive : s.active = .fallback) :
    (s.step e).active = .fallback := by
  have hactivation := hk.active.mp hactive
  cases e with
  | call c =>
    rw [step]
    split
    · exact hactive
    · exact hactive
  | primaryAnswers n answer =>
    rw [step]
    split
    · exact hactive
    · exact hactive
  | primaryFails n =>
    cases hasked : s.asked n with
    | none =>
      rw [step, hasked]
      exact hactive
    | some c =>
      rcases primaryFails_cases hasked with ⟨hstep, -⟩ | ⟨hstep, -⟩
      · rw [hstep]
        exact hactive
      · rw [hstep]
        exact hactive
  | primaryCloses ok =>
    rw [step, if_neg (by rw [hactivation]; nofun)]
    exact hactive
  | resume => exact (kept_step hk .resume).active.mpr (resume_waiting hactivation).1
  | close =>
    rw [step]
    split
    · exact hactive
    · split
      · exact hactive
      · exact hactive
  | closeFinishes =>
    rw [step]
    split
    · exact hactive
    · exact hactive

theorem closed_step (e : ResilientEvent ι) (h : s.closed = true) : (s.step e).closed = true := by
  cases e with
  | call c =>
    rw [step]
    split
    · exact h
    · exact h
  | primaryAnswers n answer =>
    rw [step]
    split
    · exact h
    · exact h
  | primaryFails n =>
    cases hasked : s.asked n with
    | none =>
      rw [step, hasked]
      exact h
    | some c =>
      rcases primaryFails_cases hasked with ⟨hstep, -⟩ | ⟨hstep, -⟩
      · rw [hstep]
        exact h
      · rw [hstep]
        exact h
  | primaryCloses ok =>
    rw [step]
    split
    · split
      · exact h
      · exact h
    · exact h
  | resume =>
    rw [step]
    split
    · rw [actAgain]
      split
      · exact h
      · exact h
    · exact h
    · exact h
    · exact h
    · exact h
  | close => rw [step, if_pos h, h]
  | closeFinishes =>
    rw [step]
    split
    · exact h
    · exact h

/-- The id is among the entries that came since there were `since` changes, if these are not more than there is room
    for. -/
def Retained (since : Nat) (eventId : ι) (m : InMemoryNotificationHistory ι) : Prop :=
  since ≤ m.changes ∧
    (m.changes - since ≤ m.capacity → eventId ∈ (m.entries.take (m.changes - since)).map (·.eventId))

omit [DecidableEq ι] in
theorem mem_take_filter {α : Type} {p : α → Bool} {x : α} (hp : p x = true) :
    ∀ {l : List α} {k : Nat}, x ∈ l.take k → x ∈ (l.filter p).take k := by
  intro l
  induction l with
  | nil => exact fun h => absurd (List.mem_of_mem_take h) List.not_mem_nil
  | cons y l ih =>
    intro k h
    cases k with
    | zero => exact absurd h List.not_mem_nil
    | succ k =>
      rw [List.take_succ_cons, List.mem_cons] at h
      rcases h with rfl | hrest
      · rw [List.filter_cons_of_pos hp, List.take_succ_cons]
        exact List.mem_cons_self
      · cases hy : p y with
        | true =>
          rw [List.filter_cons_of_pos hy, List.take_succ_cons]
          exact List.mem_cons_of_mem _ (ih hrest)
        | false =>
          rw [List.filter_cons_of_neg (by rw [hy]; exact Bool.false_ne_true)]
          exact List.take_subset_take_left _ (Nat.le_succ k) (ih hrest)

/-- The fallback holds the id on after a call that does not remove it. -/
theorem Retained.through {since : Nat} {eventId : ι} (h : Retained since eventId s.fallback)
    (hopen : s.fallbackClosed = false)
    {c : HistoryCall ι} (hc : c ≠ .remove eventId) : Retained since eventId (s.throughFallback c).1 := by
  obtain ⟨hsince, hroom⟩ := h
  cases c with
  | contains id => exact ⟨hsince, hroom⟩
  | loadPage offset limit =>
    rw [throughFallback]
    split
    · exact ⟨hsince, hroom⟩
    · exact ⟨hsince, hroom⟩
  | add entry =>
    by_cases hheld : s.fallback.contains entry.eventId = true
    · rw [throughFallback, if_pos hheld]
      exact ⟨hsince, hroom⟩
    · rw [throughFallback, if_neg hheld, hopen, if_neg Bool.false_ne_true, InMemoryNotificationHistory.add,
        if_neg hheld]
      refine ⟨Nat.le_succ_of_le hsince, fun hle => ?_⟩
      change s.fallback.changes + 1 - since ≤ s.fallback.capacity at hle
      have hmem := hroom (by omega)
      change eventId ∈ (((entry :: s.fallback.entries).take s.fallback.capacity).take
        (s.fallback.changes + 1 - since)).map (·.eventId)
      rw [List.take_take, min_eq_left hle, Nat.succ_sub hsince, List.take_succ_cons]
      exact List.mem_cons_of_mem _ hmem
  | remove id =>
    rw [throughFallback, hopen, if_neg Bool.false_ne_true, InMemoryNotificationHistory.remove]
    refine ⟨Nat.le_succ_of_le hsince, fun hle => ?_⟩
    change s.fallback.changes + 1 - since ≤ s.fallback.capacity at hle
    obtain ⟨e, he, hid⟩ := List.mem_map.mp (hroom (by omega))
    have hother : decide (e.eventId ≠ id) = true := decide_eq_true fun heq => hc (by rw [← hid, heq])
    have hlater : s.fallback.changes - since ≤ s.fallback.changes + 1 - since := by omega
    refine List.mem_map.mpr ⟨e, ?_, hid⟩
    exact List.take_subset_take_left _ hlater (mem_take_filter (p := fun e => decide (e.eventId ≠ id)) hother he)

/-- The call that brings an id in adds its entry, as the newest. -/
theorem brought_in {eventId : ι} {c : HistoryCall ι} (hbefore : s.fallback.contains eventId = false)
    (hopen : s.fallbackClosed = false)
    (hafter : (s.throughFallback c).1.contains eventId = true) :
    Retained s.fallback.changes eventId (s.throughFallback c).1 ∧
      (s.throughFallback c).1.changes = s.fallback.changes + 1 := by
  have hsame : (s.throughFallback c).1 ≠ s.fallback := by
    intro heq
    rw [heq, hbefore] at hafter
    exact Bool.false_ne_true hafter
  have hmissing : ∀ e ∈ s.fallback.entries, e.eventId ≠ eventId := by
    intro e he heq
    exact absurd (hbefore.symm.trans (List.any_eq_true.mpr ⟨e, he, decide_eq_true heq⟩)) nofun
  cases c with
  | contains id => exact absurd rfl hsame
  | loadPage offset limit =>
    refine absurd ?_ hsame
    rw [throughFallback]
    split <;> rfl
  | remove id =>
    rw [throughFallback, hopen, if_neg Bool.false_ne_true] at hafter
    obtain ⟨e, he, hid⟩ := List.any_eq_true.mp hafter
    exact absurd (of_decide_eq_true hid) (hmissing e (List.mem_filter.mp he).1)
  | add entry =>
    by_cases hheld : s.fallback.contains entry.eventId = true
    · exact absurd (by rw [throughFallback, if_pos hheld]) hsame
    · rw [throughFallback, if_neg hheld, hopen, if_neg Bool.false_ne_true, InMemoryNotificationHistory.add,
        if_neg hheld] at hafter ⊢
      obtain ⟨e, he, hid⟩ := List.any_eq_true.mp hafter
      have hentry : entry.eventId = eventId := by
        rcases List.mem_cons.mp (List.mem_of_mem_take he) with rfl | hold
        · exact of_decide_eq_true hid
        · exact absurd (of_decide_eq_true hid) (hmissing e hold)
      refine ⟨⟨Nat.le_succ _, fun hle => ?_⟩, rfl⟩
      change s.fallback.changes + 1 - s.fallback.changes ≤ s.fallback.capacity at hle
      change eventId ∈ (((entry :: s.fallback.entries).take s.fallback.capacity).take
        (s.fallback.changes + 1 - s.fallback.changes)).map
        (·.eventId)
      rw [List.take_take, min_eq_left hle, Nat.add_sub_cancel_left, List.take_succ_cons, hentry.symm]
      exact List.mem_cons_self

theorem Retained.contains {since : Nat} {eventId : ι} {m : InMemoryNotificationHistory ι} (h : Retained since eventId m)
    (hroom : m.changes - since ≤ m.capacity) : m.contains eventId = true := by
  obtain ⟨e, he, hid⟩ := List.mem_map.mp (h.2 hroom)
  exact List.any_eq_true.mpr ⟨e, List.mem_of_mem_take he, decide_eq_true hid⟩

/-- What an add through the fallback leaves. -/
theorem contains_added (entry : HistoryEntry ι) : (s.throughFallback (.add entry)).1.contains entry.eventId = true := by
  have hfirst : ∀ changes,
    ({ s.fallback.add entry with changes } : InMemoryNotificationHistory ι).contains entry.eventId = true := by
    intro changes
    obtain ⟨n, hn⟩ := Nat.exists_eq_add_one_of_ne_zero s.fallback.positive.ne'
    rw [InMemoryNotificationHistory.add]
    split
    · assumption
    · rw [InMemoryNotificationHistory.contains]
      simp [hn]
  rw [throughFallback]
  split
  · assumption
  · split
    · exact hfirst _
    · exact hfirst _

/-- The fallback holds the id on, until `close()`. -/
theorem retained_step (hk : Kept s) {since : Nat} {eventId : ι}
    (h : s.closed = false → Retained since eventId s.fallback)
    {e : ResilientEvent ι} (he : e ≠ .call (.remove eventId)) (hopen : (s.step e).closed = false) :
    Retained since eventId (s.step e).fallback := by
  have hbefore : s.closed = false := by
    by_contra hclosed
    exact absurd (hopen.symm.trans (closed_step e (Bool.eq_true_of_not_eq_false hclosed))) nofun
  rcases fallback_step hk e with hsame | ⟨-, c, hc, hremove⟩
  · rw [hsame]
    exact h hbefore
  · rw [hc]
    exact (h hbefore).through (hk.unshut (.inl hbefore)) fun heq => he (hremove eventId heq)

theorem retained_run {since : Nat} {eventId : ι} {es : List (ResilientEvent ι)} (hk : Kept s)
    (hactive : s.active = .fallback)
    (h : s.closed = false → Retained since eventId s.fallback) (hes : ∀ e ∈ es, e ≠ .call (.remove eventId)) :
    (runFrom step s es).active = .fallback ∧
      ((runFrom step s es).closed = false → Retained since eventId (runFrom step s es).fallback) := by
  induction es generalizing s with
  | nil => exact ⟨hactive, h⟩
  | cons e es ih =>
    have hnext := List.forall_mem_cons.mp hes
    exact ih (kept_step hk e) (active_step hk e hactive) (retained_step hk h hnext.1) hnext.2

/-! ## What survives -/

/-- The step by which the fallback answers the call. -/
def Carries (s : ResilientNotificationHistory ι) (e : ResilientEvent ι) (n : Nat) (c : HistoryCall ι) : Prop :=
  (∃ m answer, (s.step e).calls[n]? = some m ∧ m.call = c ∧ m.phase = .answered .fallback answer) ∧
    ∀ m answer, s.calls[n]? = some m → m.phase ≠ .answered .fallback answer

theorem added_of_carries {e : ResilientEvent ι} {n : Nat} {entry : HistoryEntry ι} (h : Carries s e n (.add entry)) :
    (s.step e).fallback.contains entry.eventId = true := by
  obtain ⟨⟨m', answer, hget, hcall, hphase⟩, hbefore⟩ := h
  have hadded : (s.step e).fallback = (s.throughFallback (.add entry)).1 →
    (s.step e).fallback.contains entry.eventId = true :=
    fun heq => heq ▸ contains_added entry
  rcases calls_step hget with ⟨m, phase, hold, hmoves, rfl⟩ | ⟨c, rfl, -, rfl⟩
  · cases hmoves with
    | stays => exact absurd hphase (hbefore m answer hold)
    | answers => cases hphase
    | rethrows => cases hphase
    | waits => cases hphase
    | fails => cases hphase
    | acts n m rest hdone hwaiting =>
      refine hadded ?_
      rw [resume_done hdone hwaiting, actAgain_eq (s := { s with waiting := rest }) hold]
      change (s.throughFallback m.call).1 = _
      rw [show m.call = .add entry from hcall]
  · refine hadded ?_
    obtain rfl : c = .add entry := hcall
    cases hactive : s.active with
    | primary =>
      rw [made, hactive] at hphase
      cases hphase
    | fallback => rw [step, hactive]

/-- What holds of a run, whenever the primary fails and whenever its own `close()` completes. -/
structure Survives (capacity : Nat) (positive : 0 < capacity) (es : List (ResilientEvent ι)) : Prop where
  /-- Once the primary has answered the call, or failed, and while its `close()` is not under way and has not failed,
      the call is answered. -/
  answered : ∀ (n : Nat) (m : MadeCall ι), (run capacity positive es).calls[n]? = some m →
    m.early = true → Runs m.call →
    (run capacity positive es).fallbackActivation ≠ .running → (run capacity positive es).fallbackActivation ≠ .failed →
      m.phase = .onPrimary ∨ Overtaken capacity positive es n ∨
        ∃ by' answer, (run capacity positive es).drain.calls[n]? = some { m with phase := .answered by' answer }
  /-- The fallback holds an entry whose add it completes. -/
  added : ∀ (before after : List (ResilientEvent ι)) (e : ResilientEvent ι) (n : Nat) (entry : HistoryEntry ι),
    es = before ++ e :: after → Carries (run capacity positive before) e n (.add entry) →
      ((run capacity positive before).step e).fallback.contains entry.eventId = true
  /-- From when it comes in, `contains` finds it until it is removed or there were as many changes as there is room. -/
  found : ∀ (before after : List (ResilientEvent ι)) (e : ResilientEvent ι) (eventId : ι), es = before ++ e :: after →
    (run capacity positive before).fallback.contains eventId = false →
    ((run capacity positive before).step e).fallback.contains eventId = true →
    (∀ e' ∈ after, e' ≠ .call (.remove eventId)) → (run capacity positive es).closed = false →
    (run capacity positive es).fallback.changes < ((run capacity positive before).step e).fallback.changes + capacity →
      ((run capacity positive es).step (.call (.contains eventId))).calls[(run capacity positive es).calls.length]? =
        some ⟨.contains eventId, true, .answered .fallback (.found true)⟩
  /-- The active history changes once at most. -/
  once : ∀ (before mid after : List (ResilientEvent ι)) (e f : ResilientEvent ι),
  es = before ++ e :: (mid ++ f :: after) →
    ((run capacity positive before).step e).active ≠ (run capacity positive before).active →
      ((run capacity positive (before ++ e :: mid)).step f).active = (run capacity positive (before ++ e :: mid)).active

theorem capacity_through (c : HistoryCall ι) : (s.throughFallback c).1.capacity = s.fallback.capacity := by
  have hadd : ∀ entry, (s.fallback.add entry).capacity = s.fallback.capacity := by
    intro entry
    rw [InMemoryNotificationHistory.add]
    split <;> rfl
  cases c with
  | contains eventId => rfl
  | add entry =>
    rw [throughFallback]
    split
    · rfl
    · split
      · exact hadd entry
      · exact hadd entry
  | loadPage offset limit =>
    rw [throughFallback]
    split <;> rfl
  | remove eventId =>
    rw [throughFallback]
    split <;> rfl

theorem capacity_run {capacity : Nat} (positive : 0 < capacity) (es : List (ResilientEvent ι)) :
    (run capacity positive es).fallback.capacity = capacity := by
  have hall := runFrom_inv (I := fun s : ResilientNotificationHistory ι => Kept s ∧ s.fallback.capacity = capacity)
    (fun s e ⟨hk, hcapacity⟩ => by
      refine ⟨kept_step hk e, ?_⟩
      rcases fallback_step hk e with hsame | ⟨-, c, hc, -⟩
      · rw [hsame, hcapacity]
      · rw [hc, capacity_through, hcapacity]) ⟨kept_init positive, rfl⟩ es
  exact hall.2

/-- Where the step brings the id in, the fallback is the active history, and holds the id. -/
theorem brought_in_step (hk : Kept s) {e : ResilientEvent ι} {eventId : ι}
    (hmissing : s.fallback.contains eventId = false)
    (hheld : (s.step e).fallback.contains eventId = true) (hopen : s.closed = false) :
    s.active = .fallback ∧ Retained s.fallback.changes eventId (s.step e).fallback ∧
      (s.step e).fallback.changes = s.fallback.changes + 1 := by
  rcases fallback_step hk e with hsame | ⟨hactive, c, hc, -⟩
  · rw [hsame, hmissing] at hheld
    cases hheld
  · rw [hc] at hheld ⊢
    exact ⟨hactive, brought_in hmissing (hk.unshut (.inl hopen)) hheld⟩

theorem run_split {capacity : Nat} (positive : 0 < capacity) {es before after : List (ResilientEvent ι)}
    {e : ResilientEvent ι}
    (hsplit : es = before ++ e :: after) : run capacity positive es = runFrom step
    ((run capacity positive before).step e) after := by
  rw [hsplit]
  exact runFrom_append _ before (e :: after)

theorem closed_run {es : List (ResilientEvent ι)} (h : (runFrom step s es).closed = false) : s.closed = false := by
  by_contra hclosed
  have hend := runFrom_inv (I := fun s : ResilientNotificationHistory ι => s.closed = true)
    (fun _ e => closed_step e) (Bool.eq_true_of_not_eq_false hclosed) es
  exact absurd (h.symm.trans hend) nofun

theorem history_survives (capacity : Nat) (positive : 0 < capacity) (es : List (ResilientEvent ι)) :
    Survives capacity positive es := by
  have hkept := kept_run (ι := ι) positive
  refine ⟨?_, ?_, ?_, ?_⟩
  · intro n m hget hearly hruns hrunning hfailed
    have hsettled : (run capacity positive es).fallbackActivation = .none ∨
      (run capacity positive es).fallbackActivation = .done := by
      cases hactivation : (run capacity positive es).fallbackActivation with
      | none => exact .inl rfl
      | done => exact .inr rfl
      | running => exact absurd hactivation hrunning
      | failed => exact absurd hactivation hfailed
    by_cases honPrimary : m.phase = .onPrimary
    · exact .inl honPrimary
    · by_cases hrethrown : m.phase = .rethrown
      · exact .inr (.inl (overtaken_of_rethrown positive es n m hget hruns hrethrown))
      · exact .inr (.inr ((hkept es).answered hsettled hget hearly hruns ⟨honPrimary, hrethrown⟩))
  · intro before after e n entry hsplit hcarries
    exact added_of_carries hcarries
  · intro before after e eventId hsplit hmissing hheld hafter hopen hroom
    have hrun := run_split positive hsplit
    have hopenAfter : ((run capacity positive before).step e).closed = false := closed_run (hrun ▸ hopen)
    have hopenBefore : (run capacity positive before).closed = false := @closed_run _ _ _ [e] hopenAfter
    obtain ⟨hactive, hretained, hchanges⟩ := brought_in_step (hkept before) hmissing hheld hopenBefore
    obtain ⟨hstill, hend⟩ :=
      retained_run (kept_step (hkept before) e) (active_step (hkept before) e hactive) (fun _ => hretained) hafter
    rw [← hrun] at hstill hend
    have hcontains : (run capacity positive es).fallback.contains eventId = true := by
      refine (hend hopen).contains ?_
      rw [capacity_run positive es]
      omega
    rw [calls_call, List.getElem?_concat_length, made, hstill, hopen]
    change some (MadeCall.mk _ _
      (CallPhase.answered _ (.found ((run capacity positive es).fallback.contains eventId)))) = _
    rw [hcontains]
    rfl
  · intro before mid after e f hsplit hswitch
    have hactive : ((run capacity positive before).step e).active = .fallback := by
      cases hbefore : (run capacity positive before).active with
      | fallback => exact active_step (hkept before) e hbefore
      | primary =>
        cases hafter : ((run capacity positive before).step e).active with
        | fallback => rfl
        | primary => exact absurd (hafter.trans hbefore.symm) hswitch
    have hrun := run_split positive (rfl : before ++ e :: mid = before ++ e :: mid)
    have hmid : (run capacity positive (before ++ e :: mid)).active = .fallback := by
      rw [hrun]
      exact (runFrom_inv (I := fun s : ResilientNotificationHistory ι => Kept s ∧ s.active = .fallback)
        (fun s e h => ⟨kept_step h.1 e, active_step h.1 e h.2⟩) ⟨kept_step (hkept before) e, hactive⟩ mid).2
    rw [hmid]
    exact active_step (hkept _) f hmid

section

open Histories (sampleEntry)

/-- A call fails on the primary, which closes. -/
def switching : List (ResilientEvent Nat) := [.call (.contains 9), .primaryFails 0, .primaryCloses true, .resume]

/-- Two calls fail on the primary, of which one adds an entry; another entry is added after the switch. -/
def addingAcross : List (ResilientEvent Nat) :=
  [.call (.add (sampleEntry 1 10)), .call (.contains 9), .primaryFails 1, .primaryFails 0,
    .primaryCloses true, .resume, .resume,
    .call (.add (sampleEntry 2 20)), .call (.contains 1), .call (.contains 2)]

/-- The calls that failed are answered by the fallback, which holds both entries. -/
theorem switching_survives :
    Survives 2 (by decide) addingAcross ∧
      (run 2 (by decide) addingAcross).calls.map (·.phase) =
        [.answered .fallback .done, .answered .fallback (.found false), .answered .fallback .done,
          .answered .fallback (.found true),
          .answered .fallback (.found true)] :=
  ⟨history_survives 2 (by decide) addingAcross, by decide +kernel⟩

/-- After the switch two entries are added where there is room for one, and the first is asked for. -/
def evicting : List (ResilientEvent Nat) :=
  switching ++ [.call (.add (sampleEntry 1 10)), .call (.add (sampleEntry 2 20)), .call (.contains 1)]

/-- `close()` comes between a call and its failure. -/
def overtaking : List (ResilientEvent Nat) := [.call (.contains 9), .close, .primaryFails 0]

/-- The primary completes an add when the switch is over. -/
def addingLate : List (ResilientEvent Nat) :=
  [.call (.add (sampleEntry 1 10)), .call (.contains 9), .primaryFails 1, .primaryCloses true,
    .resume, .primaryAnswers 0 .done,
    .call (.contains 1)]

/-- The entry that was evicted is not found, nor the one that only the primary holds; the call that was overtaken
    fails. -/
theorem evicted_then_missed :
    (run 1 (by decide) evicting).calls.map (·.phase) =
        [.answered .fallback (.found false), .answered .fallback .done, .answered .fallback .done,
          .answered .fallback (.found false)] ∧
      (run 1 (by decide) overtaking).calls.map (fun m => (m.early, m.phase)) = [(true, .rethrown)] ∧
      (run 1 (by decide) addingLate).calls.map (·.phase) =
        [.answered .primary .done, .answered .fallback (.found false), .answered .fallback (.found false)] := by
  decide +kernel

end

end ResilientNotificationHistory

end NotifyHub.Client
