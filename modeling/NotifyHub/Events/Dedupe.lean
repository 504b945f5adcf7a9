/-
  NotifyHub.Events.Dedupe — single-flight dispatch of ingested events
  (apps/gateway/src/lib/dedupe.ts).

  A call runs up to its `await`; the dispatch of a call settles at some time after; and
  once what a call awaits has settled, the call goes on. The calls do so in any order. The
  clock moves on between.

  Proved, over every run (`dispatch_once`):
  - two calls of one key that have a dispatch of their own are one call;
  - a call reports a duplicate only after a success: of the dispatch it awaited, or of one
    that was committed less than the TTL before;
  - a dispatch that failed commits nothing, and the next call of the key dispatches;
  - a call dispatches a key again within the TTL only after the key was evicted, while more
    keys were held that had not expired than `maxSize`.
-/

import Mathlib.Data.List.Induction
import NotifyHub.Lib.OMap
import NotifyHub.Lib.Rows
import NotifyHub.Lib.Run
import NotifyHub.Lib.Text

namespace NotifyHub.Events

def DEDUPE_TTL_MS : Nat := 10 * 60 * 1000

def DEDUPE_MAX_SIZE : Nat := 100000

/-- `${userId} ${eventId}` -/
def dedupeKey (userId eventId : JsString) : JsString := userId ++ js " " ++ eventId

/-- How far a call of `dispatchOnce` has come. -/
inductive Progress where
  /-- Its dispatch is running. -/
  | dispatching
  /-- Its dispatch has settled, it has not gone on yet. -/
  | dispatched (ok : Bool)
  /-- It has returned `false`. Ghost: when it committed the key. -/
  | delivered (committedAt : Nat)
  /-- It has thrown its dispatch's error. -/
  | failed
  /-- It awaits the dispatch of another call. -/
  | waiting (owner : Nat)
  /-- It has returned `true`. -/
  | duplicate
  /-- It has thrown the error of the dispatch it awaited. -/
  | rejected
  deriving DecidableEq

/-- The call's own dispatch, as long as it is registered. -/
def Progress.owns : Progress → Bool
  | .dispatching | .dispatched _ => true
  | _ => false

/-- How the call's own dispatch has settled. -/
def Progress.outcome : Progress → Option Bool
  | .dispatched ok => some ok
  | .delivered _ => some true
  | .failed => some false
  | _ => none

structure EventDedupe where
  now : Nat
  /-- When each committed key expires, oldest first. -/
  committed : OMap JsString Nat
  /-- The call that owns the key's dispatch. -/
  inFlight : OMap JsString Nat
  /-- Every call that was begun, with its key. -/
  calls : List (JsString × Progress)

inductive Event where
  | call (userId eventId : JsString)
  /-- The dispatch of call `n` settles. -/
  | settle (n : Nat) (ok : Bool)
  /-- What call `n` awaits has settled: the call goes on. -/
  | resume (n : Nat)
  | advance (ms : Nat)

/-- The entries that have not expired. -/
def unexpired (committed : OMap JsString Nat) (now : Nat) : OMap JsString Nat :=
  committed.filter fun _ expiresAt => !decide (expiresAt ≤ now)

namespace EventDedupe

def init (now : Nat) : EventDedupe := ⟨now, .empty, .empty, []⟩

variable (ttlMs maxSize : Nat) (s : EventDedupe)

/-- `dispatchOnce` up to its first `await`. -/
def dispatchOnce (key : JsString) : EventDedupe :=
  if (s.committed.get key).any (s.now < ·) then { s with calls := s.calls ++ [(key, .duplicate)] }
  else
    match s.inFlight.get key with
    | some pending => { s with calls := s.calls ++ [(key, .waiting pending)] }
    | none => { s with inFlight := s.inFlight.set key s.calls.length, calls := s.calls ++ [(key, .dispatching)] }

/-- The key is put in at the end, so that the order stays oldest first. -/
def held (key : JsString) : OMap JsString Nat := (s.committed.delete key).set key (s.now + ttlMs)

/-- `commit` -/
def commit (key : JsString) : OMap JsString Nat :=
  let committed := s.held ttlMs key
  (if maxSize < committed.size then unexpired committed s.now else committed).evict maxSize

def resume (n : Nat) : EventDedupe :=
  match s.calls[n]? with
  | some (key, .dispatched true) =>
    { s with inFlight := s.inFlight.delete key, committed := s.commit ttlMs maxSize key
             calls := s.calls.set n (key, .delivered s.now) }
  | some (key, .dispatched false) =>
    { s with inFlight := s.inFlight.delete key, calls := s.calls.set n (key, .failed) }
  | some (key, .waiting owner) =>
    match s.calls[owner]?.bind (·.2.outcome) with
    | some true => { s with calls := s.calls.set n (key, .duplicate) }
    | some false => { s with calls := s.calls.set n (key, .rejected) }
    | none => s
  | _ => s

def step (s : EventDedupe) : Event → EventDedupe
  | .call userId eventId => s.dispatchOnce (dedupeKey userId eventId)
  | .settle n ok =>
    match s.calls[n]? with
    | some (key, .dispatching) => { s with calls := s.calls.set n (key, .dispatched ok) }
    | _ => s
  | .resume n => s.resume ttlMs maxSize n
  | .advance ms => { s with now := s.now + ms }

abbrev run (now : Nat) (es : List Event) : EventDedupe := runFrom (step ttlMs maxSize) (init now) es

end EventDedupe

section

variable {ttlMs maxSize : Nat}

/-! ## The committed keys -/

theorem get_unexpired {committed : OMap JsString Nat} {now : Nat} {k : JsString} {x : Nat} :
    (unexpired committed now).get k = some x ↔ committed.get k = some x ∧ now < x := by
  rw [unexpired, OMap.get_filter, Option.filter_eq_some_iff]
  simp

theorem get_held {s : EventDedupe} {key k : JsString} {x : Nat} :
    (s.held ttlMs key).get k = some x ↔ k = key ∧ x = s.now + ttlMs ∨ k ≠ key ∧ s.committed.get k = some x := by
  rw [EventDedupe.held, OMap.get_set, OMap.get_delete]
  by_cases hk : k = key
  · simp [hk, eq_comm]
  · simp [hk]

/-- A commit adds its own key only. -/
theorem get_commit {s : EventDedupe} {key k : JsString} {x : Nat} (h : (s.commit ttlMs maxSize key).get k = some x) :
    (s.held ttlMs key).get k = some x := by
  have hswept := OMap.get_of_evict h
  split at hswept
  · exact (get_unexpired.mp hswept).1
  · exact hswept

/-- A key that has not expired stays, unless more than `maxSize` such keys are held. -/
theorem get_commit_of_held {s : EventDedupe} {key k : JsString} {x : Nat} (h : (s.held ttlMs key).get k = some x)
    (hx : s.now < x) (hsize : (unexpired (s.held ttlMs key) s.now).size ≤ maxSize) :
    (s.commit ttlMs maxSize key).get k = some x := by
  unfold EventDedupe.commit
  dsimp only
  split
  · rw [OMap.evict_eq_self hsize]
    exact get_unexpired.mpr ⟨h, hx⟩
  · rename_i hle
    rw [OMap.evict_eq_self (Nat.le_of_not_lt hle)]
    exact h

/-! ## What a step does -/

/-- The key is committed and has not expired. -/
def Live (s : EventDedupe) (key : JsString) : Prop := ∃ x, s.committed.get key = some x ∧ s.now < x

/-- What one step makes of the state. -/
inductive Moved (ttlMs maxSize : Nat) (s : EventDedupe) : EventDedupe → Prop where
  | same : Moved ttlMs maxSize s s
  | advanced (ms : Nat) : Moved ttlMs maxSize s { s with now := s.now + ms }
  | found (key : JsString) (h : Live s key) : Moved ttlMs maxSize s { s with calls := s.calls ++ [(key, .duplicate)] }
  | joined (key : JsString) (owner : Nat) (h : s.inFlight.get key = some owner) :
    Moved ttlMs maxSize s { s with calls := s.calls ++ [(key, .waiting owner)] }
  | begun (key : JsString) (hl : ¬ Live s key) (h : s.inFlight.get key = none) :
    Moved ttlMs maxSize s
      { s with inFlight := s.inFlight.set key s.calls.length, calls := s.calls ++ [(key, .dispatching)] }
  | settled (n : Nat) (key : JsString) (ok : Bool) (h : s.calls[n]? = some (key, .dispatching)) :
    Moved ttlMs maxSize s { s with calls := s.calls.set n (key, .dispatched ok) }
  | delivered (n : Nat) (key : JsString) (h : s.calls[n]? = some (key, .dispatched true)) :
    Moved ttlMs maxSize s { s with inFlight := s.inFlight.delete key, committed := s.commit ttlMs maxSize key
                                   calls := s.calls.set n (key, .delivered s.now) }
  | failed (n : Nat) (key : JsString) (h : s.calls[n]? = some (key, .dispatched false)) :
    Moved ttlMs maxSize s { s with inFlight := s.inFlight.delete key, calls := s.calls.set n (key, .failed) }
  | answered (n : Nat) (key : JsString) (owner : Nat) (k : JsString) (p : Progress) (ok : Bool)
    (h : s.calls[n]? = some (key, .waiting owner)) (ho : s.calls[owner]? = some (k, p)) (hp : p.outcome = some ok) :
    Moved ttlMs maxSize s { s with calls := s.calls.set n (key, if ok then .duplicate else .rejected) }

theorem live_iff {s : EventDedupe} {key : JsString} : (s.committed.get key).any (s.now < ·) = true ↔ Live s key := by
  rw [Option.any_eq_true, Live]
  simp

theorem dispatchOnce_moved (s : EventDedupe) (key : JsString) : Moved ttlMs maxSize s (s.dispatchOnce key) := by
  unfold EventDedupe.dispatchOnce
  split
  · exact .found key (live_iff.mp ‹_›)
  · rename_i hl
    split
    · exact .joined key _ ‹_›
    · exact .begun key (fun h => hl (live_iff.mpr h)) ‹_›

theorem resume_moved (s : EventDedupe) (n : Nat) : Moved ttlMs maxSize s (s.resume ttlMs maxSize n) := by
  unfold EventDedupe.resume
  split
  · exact .delivered n _ ‹_›
  · exact .failed n _ ‹_›
  · rename_i key owner hn
    cases ho : s.calls[owner]?.bind (·.2.outcome) with
    | none => exact .same
    | some ok =>
      obtain ⟨⟨k, p⟩, hk, hp⟩ := Option.bind_eq_some_iff.mp ho
      cases ok with
      | true => exact .answered n key owner k p true hn hk hp
      | false => exact .answered n key owner k p false hn hk hp
  · exact .same

theorem step_moved (s : EventDedupe) (e : Event) : Moved ttlMs maxSize s (s.step ttlMs maxSize e) := by
  cases e with
  | call userId eventId => exact dispatchOnce_moved s _
  | settle n ok =>
    simp only [EventDedupe.step]
    split
    · exact .settled n _ ok ‹_›
    · exact .same
  | resume n => exact resume_moved s n
  | advance ms => exact .advanced ms

/-- A call that has a dispatch of its own. -/
def Progress.dispatches (p : Progress) : Bool := p.owns || p.outcome.isSome

/-- A call keeps its key; what has returned stays, and a dispatch is the call's for good. -/
theorem Moved.calls {s s' : EventDedupe} (h : Moved ttlMs maxSize s s') {n : Nat} {k : JsString} {p : Progress}
    (hn : s.calls[n]? = some (k, p)) :
    ∃ p', s'.calls[n]? = some (k, p') ∧ (p.dispatches = true → p'.dispatches = true) ∧
      (p.owns = false → (∀ m, p ≠ .waiting m) → p' = p) := by
  have hset : ∀ {m key q q'}, s.calls[m]? = some (key, q) → (q.dispatches = true → q'.dispatches = true) →
      (q.owns = false → ∃ m, q = .waiting m) →
      ∃ p', (s.calls.set m (key, q'))[n]? = some (k, p') ∧ (p.dispatches = true → p'.dispatches = true) ∧
        (p.owns = false → (∀ m, p ≠ .waiting m) → p' = p) := by
    intro m key q q' hm hd hw
    by_cases hmn : m = n
    · subst hmn
      cases hm.symm.trans hn
      refine ⟨q', getElem_set_self hm, hd, fun hown hwait => ?_⟩
      obtain ⟨m, rfl⟩ := hw hown
      exact absurd rfl (hwait m)
    · exact ⟨p, (List.getElem?_set_ne hmn).trans hn, id, fun _ _ => rfl⟩
  cases h with
  | same => exact ⟨p, hn, id, fun _ _ => rfl⟩
  | advanced ms => exact ⟨p, hn, id, fun _ _ => rfl⟩
  | found key h => exact ⟨p, getElem_append_old hn _, id, fun _ _ => rfl⟩
  | joined key owner h => exact ⟨p, getElem_append_old hn _, id, fun _ _ => rfl⟩
  | begun key hl h => exact ⟨p, getElem_append_old hn _, id, fun _ _ => rfl⟩
  | settled m key ok h => exact hset h (fun _ => rfl) fun h => by cases h
  | delivered m key h => exact hset h (fun _ => rfl) fun h => by cases h
  | failed m key h => exact hset h (fun _ => rfl) fun h => by cases h
  | answered m key owner k' p' ok h ho hp => exact hset h (fun h => by cases h) fun _ => ⟨_, rfl⟩

/-! ## Every state of a run -/

structure Kept (ttlMs : Nat) (s : EventDedupe) : Prop where
  /-- A call with a dispatch of its own is registered, and the other way round. -/
  owner : ∀ (n : Nat) k p, s.calls[n]? = some (k, p) → p.owns = true → s.inFlight.get k = some n
  registered : ∀ k n, s.inFlight.get k = some n → ∃ p, s.calls[n]? = some (k, p) ∧ p.owns = true
  /-- A key is dispatched when it is not committed or has expired. -/
  stale : ∀ k n, s.inFlight.get k = some n → ¬ Live s k
  awaited : ∀ (n : Nat) k m, s.calls[n]? = some (k, .waiting m) → ∃ p, s.calls[m]? = some (k, p) ∧ p.dispatches = true
  recorded : ∀ k x, s.committed.get k = some x → ∃ (n : Nat), ∃ tc, s.calls[n]? = some (k, .delivered tc) ∧
    x = tc + ttlMs
  past : ∀ (n : Nat) k tc, s.calls[n]? = some (k, .delivered tc) → tc ≤ s.now

theorem kept_init (now : Nat) : Kept ttlMs (.init now) := by
  refine ⟨?_, ?_, ?_, ?_, ?_, ?_⟩ <;> intros <;> contradiction

/-- A call that begins without a dispatch of its own. -/
theorem Kept.append {s : EventDedupe} (hk : Kept ttlMs s) {key : JsString} {p : Progress} (hown : p.owns = false)
    (hw : ∀ m, p = .waiting m → s.inFlight.get key = some m) (hd : ∀ tc, p ≠ .delivered tc) :
    Kept ttlMs { s with calls := s.calls ++ [(key, p)] } := by
  refine ⟨fun n k q hn ho => ?_, fun k n hn => ?_, hk.stale, fun n k m hn => ?_, fun k x hx => ?_, fun n k tc hn => ?_⟩
  · rcases getElem_snoc.mp hn with hn | ⟨-, h⟩
    · exact hk.owner n k q hn ho
    · cases h
      rw [hown] at ho
      cases ho
  · obtain ⟨q, hq, ho⟩ := hk.registered k n hn
    exact ⟨q, getElem_append_old hq _, ho⟩
  · have hold : ∃ q, s.calls[m]? = some (k, q) ∧ q.dispatches = true := by
      rcases getElem_snoc.mp hn with hn | ⟨-, h⟩
      · exact hk.awaited n k m hn
      · obtain ⟨rfl, hp⟩ := Prod.mk.inj h
        obtain ⟨q, hq, ho⟩ := hk.registered k m (hw m hp.symm)
        exact ⟨q, hq, by rw [Progress.dispatches, ho, Bool.true_or]⟩
    obtain ⟨q, hq, hdisp⟩ := hold
    exact ⟨q, getElem_append_old hq _, hdisp⟩
  · obtain ⟨n, tc, hn, rfl⟩ := hk.recorded k x hx
    exact ⟨n, tc, getElem_append_old hn _, rfl⟩
  · rcases getElem_snoc.mp hn with hn | ⟨-, h⟩
    · exact hk.past n k tc hn
    · exact absurd (Prod.mk.inj h).2.symm (hd tc)

/-- A call that begins with a dispatch of its own. -/
theorem Kept.begin {s : EventDedupe} (hk : Kept ttlMs s) {key : JsString} (hl : ¬ Live s key)
    (h : s.inFlight.get key = none) :
    Kept ttlMs { s with inFlight := s.inFlight.set key s.calls.length, calls := s.calls ++ [(key, .dispatching)] } := by
  have hnew : (s.calls ++ [(key, Progress.dispatching)])[s.calls.length]? = some (key, .dispatching) :=
    getElem_snoc.mpr (Or.inr ⟨rfl, rfl⟩)
  refine ⟨fun n k q hn ho => ?_, fun k n hn => ?_, fun k n hn => ?_, fun n k m hn => ?_,
    fun k x hx => ?_, fun n k tc hn => ?_⟩
  · rcases getElem_snoc.mp hn with hn | ⟨rfl, h⟩
    · have hold := hk.owner n k q hn ho
      have hne : k ≠ key := by
        rintro rfl
        rw [h] at hold
        cases hold
      exact (OMap.get_set_ne _ _ hne).trans hold
    · cases h
      exact OMap.get_set_self ..
  · dsimp only at hn
    rw [OMap.get_set] at hn
    split at hn
    · subst k
      cases hn
      exact ⟨_, hnew, rfl⟩
    · obtain ⟨q, hq, ho⟩ := hk.registered k n hn
      exact ⟨q, getElem_append_old hq _, ho⟩
  · dsimp only at hn
    rw [OMap.get_set] at hn
    split at hn
    · subst k
      exact hl
    · exact hk.stale k n hn
  · rcases getElem_snoc.mp hn with hn | ⟨-, h⟩
    · obtain ⟨q, hq, hd⟩ := hk.awaited n k m hn
      exact ⟨q, getElem_append_old hq _, hd⟩
    · cases h
  · obtain ⟨n, tc, hn, rfl⟩ := hk.recorded k x hx
    exact ⟨n, tc, getElem_append_old hn _, rfl⟩
  · rcases getElem_snoc.mp hn with hn | ⟨-, h⟩
    · exact hk.past n k tc hn
    · cases h

/-- A call that goes on, and keeps the dispatch it has. -/
theorem Kept.move {s : EventDedupe} (hk : Kept ttlMs s) {n : Nat} {key : JsString} {p p' : Progress}
    (h : s.calls[n]? = some (key, p)) (hown : p'.owns = p.owns) (hdisp : p.dispatches = true → p'.dispatches = true)
    (hw : ∀ m, p' ≠ .waiting m) (hd : ∀ tc, p ≠ .delivered tc) (hd' : ∀ tc, p' ≠ .delivered tc) :
    Kept ttlMs { s with calls := s.calls.set n (key, p') } := by
  refine ⟨fun m k q hm ho => ?_, fun k m hm => ?_, hk.stale, fun m k o hm => ?_, fun k x hx => ?_, fun m k tc hm => ?_⟩
  · rcases (getElem_set h).mp hm with ⟨rfl, hq⟩ | ⟨-, hm⟩
    · cases hq
      exact hk.owner n key p h (hown.symm.trans ho)
    · exact hk.owner m k q hm ho
  · obtain ⟨q, hq, ho⟩ := hk.registered k m hm
    by_cases hnm : n = m
    · subst hnm
      cases h.symm.trans hq
      exact ⟨p', getElem_set_self h, hown.trans ho⟩
    · exact ⟨q, (List.getElem?_set_ne hnm).trans hq, ho⟩
  · rcases (getElem_set h).mp hm with ⟨-, hq⟩ | ⟨-, hm⟩
    · exact absurd (Prod.mk.inj hq).2.symm (hw o)
    · obtain ⟨q, hq, hqd⟩ := hk.awaited m k o hm
      by_cases hno : n = o
      · subst hno
        cases h.symm.trans hq
        exact ⟨p', getElem_set_self h, hdisp hqd⟩
      · exact ⟨q, (List.getElem?_set_ne hno).trans hq, hqd⟩
  · obtain ⟨m, tc, hm, rfl⟩ := hk.recorded k x hx
    have hnm : n ≠ m := by
      rintro rfl
      cases h.symm.trans hm
      exact hd tc rfl
    exact ⟨m, tc, (List.getElem?_set_ne hnm).trans hm, rfl⟩
  · rcases (getElem_set h).mp hm with ⟨-, hq⟩ | ⟨-, hm⟩
    · exact absurd (Prod.mk.inj hq).2.symm (hd' tc)
    · exact hk.past m k tc hm

/-- A call whose own dispatch has settled and that goes on to its end. -/
theorem Kept.release {s : EventDedupe} (hk : Kept ttlMs s) {n : Nat} {key : JsString} {ok : Bool} {p' : Progress}
    {committed : OMap JsString Nat} (h : s.calls[n]? = some (key, .dispatched ok)) (hown : p'.owns = false)
    (hdisp : p'.dispatches = true) (hd : ∀ tc, p' = .delivered tc → tc = s.now)
    (hc : ∀ k x, committed.get k = some x →
      k = key ∧ x = s.now + ttlMs ∧ p' = .delivered s.now ∨ s.committed.get k = some x) :
    Kept ttlMs
      { s with inFlight := s.inFlight.delete key, committed := committed, calls := s.calls.set n (key, p') } := by
  have hflight := hk.owner n key _ h rfl
  refine ⟨fun m k q hm ho => ?_, fun k m hm => ?_, fun k m hm => ?_, fun m k o hm => ?_,
    fun k x hx => ?_, fun m k tc hm => ?_⟩
  · rcases (getElem_set h).mp hm with ⟨rfl, hq⟩ | ⟨hnm, hm⟩
    · cases hq
      rw [hown] at ho
      cases ho
    · have hold := hk.owner m k q hm ho
      have hne : k ≠ key := by
        rintro rfl
        exact hnm (Option.some.inj (hflight.symm.trans hold))
      exact (OMap.get_delete_ne _ hne).trans hold
  · dsimp only at hm
    rw [OMap.get_delete] at hm
    split at hm
    · cases hm
    · rename_i hne
      obtain ⟨q, hq, ho⟩ := hk.registered k m hm
      refine ⟨q, (List.getElem?_set_ne ?_).trans hq, ho⟩
      rintro rfl
      cases h.symm.trans hq
      exact hne rfl
  · dsimp only at hm
    rw [OMap.get_delete] at hm
    split at hm
    · cases hm
    · rename_i hne
      rintro ⟨x, hx, hlt⟩
      rcases hc k x hx with ⟨rfl, -⟩ | hx
      · exact hne rfl
      · exact hk.stale k m hm ⟨x, hx, hlt⟩
  · rcases (getElem_set h).mp hm with ⟨-, hq⟩ | ⟨-, hm⟩
    · obtain ⟨rfl, rfl⟩ := Prod.mk.inj hq
      cases hdisp
    · obtain ⟨q, hq, hqd⟩ := hk.awaited m k o hm
      by_cases hno : n = o
      · subst hno
        cases h.symm.trans hq
        exact ⟨p', getElem_set_self h, hdisp⟩
      · exact ⟨q, (List.getElem?_set_ne hno).trans hq, hqd⟩
  · rcases hc k x hx with ⟨rfl, rfl, rfl⟩ | hx
    · exact ⟨n, s.now, getElem_set_self h, rfl⟩
    · obtain ⟨m, tc, hm, rfl⟩ := hk.recorded k x hx
      have hnm : n ≠ m := by
        rintro rfl
        cases h.symm.trans hm
      exact ⟨m, tc, (List.getElem?_set_ne hnm).trans hm, rfl⟩
  · rcases (getElem_set h).mp hm with ⟨-, hq⟩ | ⟨-, hm⟩
    · exact Nat.le_of_eq (hd tc (Prod.mk.inj hq).2.symm)
    · exact hk.past m k tc hm

theorem kept_moved {s s' : EventDedupe} (hk : Kept ttlMs s) (hm : Moved ttlMs maxSize s s') : Kept ttlMs s' := by
  cases hm with
  | same => exact hk
  | advanced ms =>
    refine ⟨hk.owner, hk.registered, fun k n hn hl => ?_, hk.awaited, hk.recorded, fun n k tc hn => ?_⟩
    · obtain ⟨x, hx, hlt⟩ := hl
      exact hk.stale k n hn ⟨x, hx, Nat.lt_of_le_of_lt (Nat.le_add_right ..) hlt⟩
    · exact Nat.le_add_right_of_le (hk.past n k tc hn)
  | found key h => exact hk.append rfl (fun m h => by cases h) fun tc h => by cases h
  | joined key owner h => exact hk.append rfl (fun m hm => by cases hm; exact h) fun tc h => by cases h
  | begun key hl h => exact hk.begin hl h
  | settled n key ok h =>
    exact hk.move h rfl (fun _ => rfl) (fun m h => by cases h) (fun tc h => by cases h) fun tc h => by cases h
  | delivered n key h =>
    refine hk.release h rfl rfl (fun tc h => by cases h; rfl) fun k x hx => ?_
    rcases get_held.mp (get_commit hx) with ⟨rfl, rfl⟩ | ⟨-, hx⟩
    · exact Or.inl ⟨rfl, rfl, rfl⟩
    · exact Or.inr hx
  | failed n key h => exact hk.release h rfl rfl (fun tc h => by cases h) fun k x hx => Or.inr hx
  | answered n key owner k p ok h ho hp =>
    refine hk.move h ?_ (fun h => by cases h) ?_ (fun tc h => by cases h) ?_ <;> cases ok <;> simp [Progress.owns]

theorem kept_run (now : Nat) (es : List Event) : Kept ttlMs (.run ttlMs maxSize now es) :=
  @runFrom_inv _ _ (EventDedupe.step ttlMs maxSize) (Kept ttlMs) (fun s e hk => kept_moved hk (step_moved s e)) _
    (kept_init now) es

/-! ## Duplicates -/

/-- A call dispatches when the key is free. -/
theorem begins_iff {s : EventDedupe} {key : JsString} :
    (s.dispatchOnce key).calls[s.calls.length]? = some (key, .dispatching) ↔
      ¬ Live s key ∧ s.inFlight.get key = none := by
  unfold EventDedupe.dispatchOnce
  split
  · rename_i hl
    rw [List.getElem?_concat_length]
    exact iff_of_false (fun h => by cases h) fun h => h.1 (live_iff.mp hl)
  · rename_i hl
    have hlive : ¬ Live s key := fun h => hl (live_iff.mpr h)
    split
    · rename_i owner hflight
      rw [List.getElem?_concat_length, hflight]
      exact iff_of_false (fun h => by cases h) fun h => by cases h.2
    · rw [List.getElem?_concat_length]
      exact iff_of_true rfl ⟨hlive, ‹_›⟩

/-- A call that turns out a duplicate was answered by a success. -/
theorem duplicate_moved {s s' : EventDedupe} (hk : Kept ttlMs s) (hm : Moved ttlMs maxSize s s')
    {n : Nat} {key : JsString}
    (hn : s'.calls[n]? = some (key, .duplicate)) (hold : s.calls[n]? ≠ some (key, .duplicate)) :
    (∃ m p, s.calls[n]? = some (key, .waiting m) ∧ s.calls[m]? = some (key, p) ∧ p.outcome = some true) ∨
      n = s.calls.length ∧ ∃ (m : Nat) (tc : Nat), s.calls[m]? = some (key, .delivered tc) ∧ s.now < tc + ttlMs := by
  cases hm with
  | same => exact absurd hn hold
  | advanced ms => exact absurd hn hold
  | found k h =>
    rcases getElem_snoc.mp hn with hn | ⟨hlen, hnew⟩
    · exact absurd hn hold
    · cases hnew
      obtain ⟨x, hx, hlt⟩ := h
      obtain ⟨m, tc, hm, rfl⟩ := hk.recorded key x hx
      exact Or.inr ⟨hlen, m, tc, hm, hlt⟩
  | joined k owner h =>
    rcases getElem_snoc.mp hn with hn | ⟨-, hnew⟩
    · exact absurd hn hold
    · cases hnew
  | begun k hl h =>
    rcases getElem_snoc.mp hn with hn | ⟨-, hnew⟩
    · exact absurd hn hold
    · cases hnew
  | settled m k ok h =>
    rcases (getElem_set h).mp hn with ⟨-, hnew⟩ | ⟨-, hn⟩
    · cases hnew
    · exact absurd hn hold
  | delivered m k h =>
    rcases (getElem_set h).mp hn with ⟨-, hnew⟩ | ⟨-, hn⟩
    · cases hnew
    · exact absurd hn hold
  | failed m k h =>
    rcases (getElem_set h).mp hn with ⟨-, hnew⟩ | ⟨-, hn⟩
    · cases hnew
    · exact absurd hn hold
  | answered m k owner k' p ok h ho hp =>
    rcases (getElem_set h).mp hn with ⟨rfl, hnew⟩ | ⟨-, hn⟩
    · cases ok with
      | false => cases hnew
      | true =>
        cases hnew
        obtain ⟨q, hq, -⟩ := hk.awaited m key owner h
        cases ho.symm.trans hq
        exact Or.inl ⟨owner, p, h, ho, hp⟩
    · exact absurd hn hold

/-! ## Failures -/

/-- No dispatch of the key is registered, and it is not committed or has expired. -/
def Free (s : EventDedupe) (key : JsString) : Prop := ¬ Live s key ∧ s.inFlight.get key = none

/-- A key stays free until a call of it. -/
theorem free_step {s : EventDedupe} (hk : Kept ttlMs s) {key : JsString} (h : Free s key) {e : Event}
    (he : ∀ userId eventId, e = .call userId eventId → dedupeKey userId eventId ≠ key) :
    Free (s.step ttlMs maxSize e) key := by
  cases e with
  | call userId eventId =>
    have hne : key ≠ dedupeKey userId eventId := (he userId eventId rfl).symm
    simp only [EventDedupe.step, EventDedupe.dispatchOnce]
    split
    · exact h
    · split
      · exact h
      · exact ⟨h.1, (OMap.get_set_ne _ _ hne).trans h.2⟩
  | settle n ok =>
    simp only [EventDedupe.step]
    split
    · exact h
    · exact h
  | advance ms =>
    refine ⟨fun hl => ?_, h.2⟩
    obtain ⟨x, hx, hlt⟩ := hl
    exact h.1 ⟨x, hx, Nat.lt_of_le_of_lt (Nat.le_add_right ..) hlt⟩
  | resume n =>
    -- a call that releases a key is registered under it, so the key is another one
    have hne : ∀ {k ok}, s.calls[n]? = some (k, .dispatched ok) → key ≠ k := by
      rintro k ok hn rfl
      have hflight := hk.owner n key _ hn rfl
      rw [h.2] at hflight
      cases hflight
    simp only [EventDedupe.step, EventDedupe.resume]
    split
    · rename_i k hn
      refine ⟨fun hl => ?_, (OMap.get_delete_ne _ (hne hn)).trans h.2⟩
      obtain ⟨x, hx, hlt⟩ := hl
      rcases get_held.mp (get_commit hx) with ⟨rfl, -⟩ | ⟨-, hx⟩
      · exact hne hn rfl
      · exact h.1 ⟨x, hx, hlt⟩
    · rename_i k hn
      exact ⟨h.1, (OMap.get_delete_ne _ (hne hn)).trans h.2⟩
    · split
      · exact h
      · exact h
      · exact h
    · exact h

theorem free_run {s : EventDedupe} (hk : Kept ttlMs s) {key : JsString} (h : Free s key) {es : List Event}
    (he : ∀ userId eventId, .call userId eventId ∈ es → dedupeKey userId eventId ≠ key) :
    Free (runFrom (EventDedupe.step ttlMs maxSize) s es) key := by
  induction es generalizing s with
  | nil => exact h
  | cons e es ih =>
    refine ih (kept_moved hk (step_moved s e)) (free_step hk h fun userId eventId heq => ?_)
      fun userId eventId hmem => ?_
    · exact he userId eventId (heq ▸ List.mem_cons_self ..)
    · exact he userId eventId (List.mem_cons_of_mem e hmem)

/-- A dispatch that failed leaves its key free, and what is committed as it was. -/
theorem failed_frees {s : EventDedupe} (hk : Kept ttlMs s) {n : Nat} {key : JsString}
    (hn : s.calls[n]? = some (key, .dispatched false)) :
    (s.step ttlMs maxSize (.resume n)).committed = s.committed ∧ Free (s.step ttlMs maxSize (.resume n)) key := by
  have hstep : s.step ttlMs maxSize (.resume n) =
      { s with inFlight := s.inFlight.delete key, calls := s.calls.set n (key, .failed) } := by
    simp only [EventDedupe.step, EventDedupe.resume, hn]
  rw [hstep]
  exact ⟨rfl, hk.stale key n (hk.owner n key _ hn rfl), OMap.get_delete_self ..⟩

/-! ## Evictions -/

/-- A call commits its key; the entry of another key, or its own, is dropped though it has
    not expired, with more than `maxSize` such entries held. -/
def Evicted (ttlMs maxSize : Nat) (s s' : EventDedupe) (key : JsString) : Prop :=
  ∃ (n : Nat) (k : JsString) (x : Nat), s.calls[n]? = some (k, .dispatched true) ∧
    s'.calls[n]? = some (k, .delivered s.now) ∧
    (s.held ttlMs k).get key = some x ∧ s.now < x ∧ s'.committed.get key = none ∧
    maxSize < (unexpired (s.held ttlMs k) s.now).size

/-- The key is committed until `t` at least. -/
def Recorded (s : EventDedupe) (key : JsString) (t : Nat) : Prop := ∃ x, s.committed.get key = some x ∧ t ≤ x

/-- What is delivered within the TTL is recorded still, or is evicted now, or was not recorded before. -/
theorem recorded_moved {s s' : EventDedupe} (hk : Kept ttlMs s) (hm : Moved ttlMs maxSize s s')
    {n : Nat} {key : JsString}
    {tc : Nat} (hn : s'.calls[n]? = some (key, .delivered tc)) (hnow : s'.now < tc + ttlMs) :
    Recorded s' key (tc + ttlMs) ∨ Evicted ttlMs maxSize s s' key ∨
      s.calls[n]? = some (key, .delivered tc) ∧ s.now < tc + ttlMs ∧ ¬ Recorded s key (tc + ttlMs) := by
  by_cases hr : Recorded s' key (tc + ttlMs)
  · exact Or.inl hr
  refine Or.inr ?_
  cases hm with
  | same => exact Or.inr ⟨hn, hnow, hr⟩
  | advanced ms => exact Or.inr ⟨hn, Nat.lt_of_le_of_lt (Nat.le_add_right ..) hnow, hr⟩
  | found k h =>
    rcases getElem_snoc.mp hn with hn | ⟨-, hnew⟩
    · exact Or.inr ⟨hn, hnow, hr⟩
    · cases hnew
  | joined k owner h =>
    rcases getElem_snoc.mp hn with hn | ⟨-, hnew⟩
    · exact Or.inr ⟨hn, hnow, hr⟩
    · cases hnew
  | begun k hl h =>
    rcases getElem_snoc.mp hn with hn | ⟨-, hnew⟩
    · exact Or.inr ⟨hn, hnow, hr⟩
    · cases hnew
  | settled m k ok h =>
    rcases (getElem_set h).mp hn with ⟨-, hnew⟩ | ⟨-, hn⟩
    · cases hnew
    · exact Or.inr ⟨hn, hnow, hr⟩
  | failed m k h =>
    rcases (getElem_set h).mp hn with ⟨-, hnew⟩ | ⟨-, hn⟩
    · cases hnew
    · exact Or.inr ⟨hn, hnow, hr⟩
  | answered m k owner k' p ok h ho hp =>
    rcases (getElem_set h).mp hn with ⟨-, hnew⟩ | ⟨-, hn⟩
    · cases ok <;> cases hnew
    · exact Or.inr ⟨hn, hnow, hr⟩
  | delivered m k h =>
    by_cases hrec : s.calls[n]? = some (key, .delivered tc) ∧ ¬ Recorded s key (tc + ttlMs)
    · exact Or.inr ⟨hrec.1, hnow, hrec.2⟩
    -- either way the key is held when the call commits
    have hheld : ∃ x, (s.held ttlMs k).get key = some x ∧ tc + ttlMs ≤ x := by
      rcases (getElem_set h).mp hn with ⟨-, hnew⟩ | ⟨-, hn⟩
      · cases hnew
        exact ⟨s.now + ttlMs, get_held.mpr (Or.inl ⟨rfl, rfl⟩), Nat.le_refl _⟩
      · obtain ⟨x, hx, hle⟩ := not_not.mp fun hno => hrec ⟨hn, hno⟩
        by_cases hkey : key = k
        · have hpast := hk.past n key tc hn
          exact ⟨s.now + ttlMs, get_held.mpr (Or.inl ⟨hkey, rfl⟩), by omega⟩
        · exact ⟨x, get_held.mpr (Or.inr ⟨hkey, hx⟩), hle⟩
    obtain ⟨x, hx, hle⟩ := hheld
    dsimp only at hnow
    have hgone : (s.commit ttlMs maxSize k).get key = none := by
      cases hget : (s.commit ttlMs maxSize k).get key with
      | none => rfl
      | some y =>
        cases hx.symm.trans (get_commit hget)
        exact absurd ⟨x, hget, hle⟩ hr
    refine Or.inl ⟨m, k, x, h, getElem_set_self h, hx, by omega, hgone, Nat.lt_of_not_le fun hsize => ?_⟩
    rw [get_commit_of_held hx (by omega) hsize] at hgone
    cases hgone

/-- What was delivered within the TTL is recorded, or was evicted since. -/
theorem recorded_or_evicted (now : Nat) (es : List Event) {n : Nat} {key : JsString} {tc : Nat}
    (hn : (EventDedupe.run ttlMs maxSize now es).calls[n]? = some (key, .delivered tc))
    (hnow : (EventDedupe.run ttlMs maxSize now es).now < tc + ttlMs) :
    Recorded (.run ttlMs maxSize now es) key (tc + ttlMs) ∨
      ∃ before e after, es = before ++ e :: after ∧
        (EventDedupe.run ttlMs maxSize now (before ++ [e])).calls[n]? = some (key, .delivered tc) ∧
        Evicted ttlMs maxSize (.run ttlMs maxSize now before) (.run ttlMs maxSize now (before ++ [e])) key := by
  induction es using List.reverseRecOn with
  | nil => cases hn
  | append_singleton es e ih =>
    have hsnoc : EventDedupe.run ttlMs maxSize now (es ++ [e]) =
      (EventDedupe.run ttlMs maxSize now es).step ttlMs maxSize e := by
      rw [EventDedupe.run, runFrom_append]
      rfl
    have hmoved : Moved ttlMs maxSize _ _ := step_moved (.run ttlMs maxSize now es) e
    rw [← hsnoc] at hmoved
    rcases recorded_moved (kept_run now es) hmoved hn hnow with h | h | ⟨hold, hnow, hno⟩
    · exact Or.inl h
    · exact Or.inr ⟨es, e, [], rfl, hn, h⟩
    · rcases ih hold hnow with h | ⟨before, e', after, hes, hd, hev⟩
      · exact absurd h hno
      · exact Or.inr ⟨before, e', after ++ [e], by rw [hes]; simp, hd, hev⟩

end

/-- A call of the key dispatches now. -/
def Begins (s : EventDedupe) (key : JsString) : Prop :=
  (s.dispatchOnce key).calls[s.calls.length]? = some (key, .dispatching)

/-- After every run: at most one dispatch of a key is registered; a call that turns out a
    duplicate awaited a dispatch that succeeded, or came less than the TTL after one was
    committed; a dispatch that failed commits nothing, and until the key is called again it
    is free to dispatch; a key that was dispatched with success less than the TTL ago is
    dispatched again only if it was evicted with more than `maxSize` unexpired keys held. -/
theorem dispatch_once (ttlMs maxSize now : Nat) (es : List Event) :
    (∀ (n m : Nat) key p q, (EventDedupe.run ttlMs maxSize now es).calls[n]? = some (key, p) →
      (EventDedupe.run ttlMs maxSize now es).calls[m]? = some (key, q) → p.owns = true → q.owns = true → n = m) ∧
    (∀ (e : Event) (n : Nat) (key : JsString),
      (EventDedupe.run ttlMs maxSize now (es ++ [e])).calls[n]? = some (key, .duplicate) →
      (EventDedupe.run ttlMs maxSize now es).calls[n]? ≠ some (key, .duplicate) →
        (∃ (m : Nat) (p : Progress), (EventDedupe.run ttlMs maxSize now es).calls[n]? = some (key, .waiting m) ∧
          (EventDedupe.run ttlMs maxSize now es).calls[m]? = some (key, p) ∧ p.outcome = some true) ∨
        n = (EventDedupe.run ttlMs maxSize now es).calls.length ∧
          ∃ (m tc : Nat), (EventDedupe.run ttlMs maxSize now es).calls[m]? = some (key, .delivered tc) ∧
            (EventDedupe.run ttlMs maxSize now es).now < tc + ttlMs) ∧
    (∀ (before : List Event) (n : Nat) (after : List Event) (key : JsString), es = before ++ .resume n :: after →
      (EventDedupe.run ttlMs maxSize now before).calls[n]? = some (key, .dispatched false) →
        (EventDedupe.run ttlMs maxSize now (before ++ [.resume n])).committed =
          (EventDedupe.run ttlMs maxSize now before).committed ∧
        ((∀ userId eventId, .call userId eventId ∈ after → dedupeKey userId eventId ≠ key) →
          Begins (.run ttlMs maxSize now es) key)) ∧
    ∀ (n : Nat) (key : JsString) (p : Progress), (EventDedupe.run ttlMs maxSize now es).calls[n]? = some (key, p) →
      (p = .dispatched true ∨ ∃ tc, p = .delivered tc ∧ (EventDedupe.run ttlMs maxSize now es).now < tc + ttlMs) →
      Begins (.run ttlMs maxSize now es) key →
        ∃ (before : List Event) (e : Event) (after : List Event) (tc : Nat), es = before ++ e :: after ∧
          (EventDedupe.run ttlMs maxSize now (before ++ [e])).calls[n]? = some (key, .delivered tc) ∧
          Evicted ttlMs maxSize (.run ttlMs maxSize now before) (.run ttlMs maxSize now (before ++ [e])) key := by
  have hk : Kept ttlMs (.run ttlMs maxSize now es) := kept_run now es
  refine ⟨fun n m key p q hn hm hp hq => ?_, fun e n key hn hold => ?_, fun before n after key hes hn => ?_,
    fun n key p hn hp hbegins => ?_⟩
  · exact Option.some.inj ((hk.owner n key p hn hp).symm.trans (hk.owner m key q hm hq))
  · rw [EventDedupe.run, runFrom_append] at hn
    exact duplicate_moved hk (step_moved _ e) hn hold
  · have hbefore : Kept ttlMs (.run ttlMs maxSize now before) := kept_run now before
    have hfrees := @failed_frees ttlMs maxSize _ hbefore n key hn
    refine ⟨?_, fun hafter => begins_iff.mpr ?_⟩
    · rw [EventDedupe.run, runFrom_append]
      exact hfrees.1
    · rw [hes, EventDedupe.run, runFrom_append]
      exact free_run (kept_moved hbefore (step_moved _ (.resume n))) hfrees.2 hafter
  · obtain ⟨hlive, hflight⟩ := begins_iff.mp hbegins
    rcases hp with rfl | ⟨tc, rfl, hnow⟩
    · rw [hk.owner n key _ hn rfl] at hflight
      cases hflight
    · rcases recorded_or_evicted now es hn hnow with ⟨x, hx, hle⟩ | ⟨before, e, after, hes, hd, hev⟩
      · exact absurd ⟨x, hx, by omega⟩ hlive
      · exact ⟨before, e, after, tc, hes, hd, hev⟩

end NotifyHub.Events
