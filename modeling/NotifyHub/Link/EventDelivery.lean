/-
  NotifyHub.Link.EventDelivery — one event sent by `GatewaySender.send`, over the retries of
  the sender and the dedupe of the gateway.

  An attempt reaches the gateway within its timeout, once or not at all, whatever the sender
  is told of it. Timers fire when they are due. What else goes on at the gateway is free, but
  for other calls of the event's key.

  The dedupe forgets an event ten minutes after its dispatch succeeded. Proved
  (`one_dispatch_iff`): the configurations under which no second dispatch can succeed are
  those whose longest send is shorter than that.
-/

import NotifyHub.Events.Dedupe
import NotifyHub.Plugin.Sender

namespace NotifyHub.Link

open Events (EventDedupe dedupeKey unexpired Moved Kept Live Recorded Evicted Progress DEDUPE_TTL_MS DEDUPE_MAX_SIZE)
open Plugin

structure Attempt where
  start : Nat
  /-- It has reached the gateway. -/
  reached : Bool
  deriving DecidableEq

/-- How far `send` has come. -/
inductive SendPhase where
  | queued
  /-- It awaits the attempt that was begun at `start`. -/
  | attempting (start : Nat)
  | sleeping (wakesAt : Nat)
  | resolved
  | rejected
  deriving DecidableEq

structure Delivery where
  gateway : EventDedupe
  attempts : List Attempt
  phase : SendPhase

inductive DeliveryEvent where
  /-- What else happens at the gateway, and the time. -/
  | gateway (e : Events.Event)
  | send
  /-- Attempt `i` reaches the gateway. -/
  | reach (i : Nat)
  /-- The attempt ends with a status, or `fetch` throws; what `Math.random()` returns then. -/
  | answer (response : Option Nat) (random : RandomValue)
  | wake

variable (o : GatewaySenderOptions) (ttlMs maxSize : Nat) (userId eventId : JsString)

namespace Delivery

def init (now : Nat) : Delivery := ⟨.init now, [], .queued⟩

variable (s : Delivery)

/-- The next attempt of the loop. -/
def attempt : Delivery :=
  { s with attempts := s.attempts ++ [⟨s.gateway.now, false⟩], phase := .attempting s.gateway.now }

/-- When the timer fires that `send` has set. -/
def deadline : Option Nat :=
  match s.phase with
  | .attempting start => some (start + o.timeoutMs)
  | .sleeping wakesAt => some wakesAt
  | _ => none

/-- The event's own calls are those of its attempts, and no timer is passed over. -/
def admits : Events.Event → Bool
  | .call u i => dedupeKey u i ≠ dedupeKey userId eventId
  | .advance ms => (s.deadline o).all (s.gateway.now + ms ≤ ·)
  | _ => true

/-- The attempt arrives, if it may still. -/
def reach (i : Nat) : Delivery :=
  match s.attempts[i]? with
  | some ⟨start, false⟩ =>
    if s.gateway.now ≤ start + o.timeoutMs then
      { s with
        gateway := s.gateway.dispatchOnce (dedupeKey userId eventId), attempts := s.attempts.set i ⟨start, true⟩ }
    else s
  | _ => s

/-- `send` goes on after `tryOnce`. -/
def answer (response : Option Nat) (random : RandomValue) : Delivery :=
  match s.phase with
  | .attempting _ =>
    match attemptOutcome response with
    | .ok => { s with phase := .resolved }
    | .permanent => { s with phase := .rejected }
    | .retryable =>
      if s.attempts.length ≤ o.maxRetries then
        { s with phase := .sleeping (s.gateway.now + sleepMs o (s.attempts.length - 1) random) }
      else { s with phase := .rejected }
  | _ => s

def step (s : Delivery) : DeliveryEvent → Delivery
  | .gateway e => if s.admits o userId eventId e then { s with gateway := s.gateway.step ttlMs maxSize e } else s
  | .send => if s.phase = .queued then s.attempt else s
  | .reach i => s.reach o userId eventId i
  | .answer response random => s.answer o response random
  | .wake =>
    match s.phase with
    | .sleeping wakesAt => if wakesAt ≤ s.gateway.now then s.attempt else s
    | _ => s

abbrev run (now : Nat) (es : List DeliveryEvent) : Delivery :=
  runFrom (step o ttlMs maxSize userId eventId) (init now) es

/-- A key that is committed now finds room among those that have not expired. -/
def Roomy (s : Delivery) (e : DeliveryEvent) : Prop :=
  ∀ (n : Nat) (k : JsString), e = .gateway (.resume n) → s.gateway.calls[n]? = some (k, .dispatched true) →
    (unexpired (s.gateway.held ttlMs k) s.gateway.now).size ≤ maxSize

/-- Call `n` dispatched the event with success. -/
def Succeeded (n : Nat) : Prop :=
  ∃ p, s.gateway.calls[n]? = some (dedupeKey userId eventId, p) ∧ p.outcome = some true

end Delivery

/-- When attempt `i` begins at the latest, after the first. -/
def latestStart : Nat → Nat
  | 0 => 0
  | i + 1 => latestStart i + o.timeoutMs + longestSleepMs o i

/-- From the first attempt to the latest the last one reaches the gateway. -/
def longestSend : Nat := latestStart o o.maxRetries + o.timeoutMs

theorem latestStart_mono {i j : Nat} (h : i ≤ j) : latestStart o i ≤ latestStart o j := by
  induction h with
  | refl => exact Nat.le_refl _
  | step _ ih =>
    rw [latestStart]
    omega

namespace Delivery

variable {o ttlMs maxSize userId eventId} {s : Delivery}

/-- What one step makes of the state. -/
inductive Stepped (o : GatewaySenderOptions) (ttlMs maxSize : Nat) (userId eventId : JsString) (s : Delivery)
    (e : DeliveryEvent) : Delivery → Prop where
  | same : Stepped o ttlMs maxSize userId eventId s e s
  | gateway (g : Events.Event) (he : e = .gateway g) (h : s.admits o userId eventId g = true) :
    Stepped o ttlMs maxSize userId eventId s e { s with gateway := s.gateway.step ttlMs maxSize g }
  | reached (i start : Nat) (hi : s.attempts[i]? = some ⟨start, false⟩) (hnow : s.gateway.now ≤ start + o.timeoutMs) :
    Stepped o ttlMs maxSize userId eventId s e
      { s with
        gateway := s.gateway.dispatchOnce (dedupeKey userId eventId), attempts := s.attempts.set i ⟨start, true⟩ }
  | attempted (h : s.phase = .queued ∨ ∃ wakesAt, s.phase = .sleeping wakesAt ∧ wakesAt ≤ s.gateway.now) :
    Stepped o ttlMs maxSize userId eventId s e s.attempt
  | slept (start : Nat) (random : RandomValue) (hp : s.phase = .attempting start)
    (hn : s.attempts.length ≤ o.maxRetries) :
    Stepped o ttlMs maxSize userId eventId s e
      { s with phase := .sleeping (s.gateway.now + sleepMs o (s.attempts.length - 1) random) }
  | ended (phase : SendPhase) (hp : phase = .resolved ∨ phase = .rejected) :
    Stepped o ttlMs maxSize userId eventId s e { s with phase }

theorem step_stepped (s : Delivery) (e : DeliveryEvent) :
    Stepped o ttlMs maxSize userId eventId s e (s.step o ttlMs maxSize userId eventId e) := by
  cases e with
  | gateway g =>
    unfold step
    dsimp only
    split
    · exact .gateway g rfl ‹_›
    · exact .same
  | send =>
    unfold step
    dsimp only
    split
    · exact .attempted (Or.inl ‹_›)
    · exact .same
  | reach i =>
    unfold step reach
    dsimp only
    split
    · split
      · exact .reached i _ ‹_› ‹_›
      · exact .same
    · exact .same
  | answer response random =>
    unfold step answer
    dsimp only
    split
    · split
      · exact .ended _ (Or.inl rfl)
      · exact .ended _ (Or.inr rfl)
      · split
        · exact .slept _ random ‹_› ‹_›
        · exact .ended _ (Or.inr rfl)
    · exact .same
  | wake =>
    unfold step
    dsimp only
    split
    · split
      · exact .attempted (Or.inr ⟨_, ‹_›, ‹_›⟩)
      · exact .same
    · exact .same

/-! ## The times of the attempts -/

/-- The attempts come no later than timeouts and backoffs allow. -/
structure Punctual (o : GatewaySenderOptions) (s : Delivery) : Prop where
  starts : ∀ (i : Nat) (a : Attempt), s.attempts[i]? = some a → ∃ first, s.attempts[0]? = some first ∧
    first.start ≤ a.start ∧ a.start ≤ first.start + latestStart o i ∧ a.start ≤ s.gateway.now
  count : s.attempts.length ≤ o.maxRetries + 1
  queued : s.phase = .queued → s.attempts = []
  attempting : ∀ start, s.phase = .attempting start → ∃ (n : Nat) (reached : Bool), s.attempts.length = n + 1 ∧
    s.attempts[n]? = some ⟨start, reached⟩ ∧ s.gateway.now ≤ start + o.timeoutMs
  sleeping : ∀ wakesAt, s.phase = .sleeping wakesAt → ∃ (n : Nat) (a : Attempt), s.attempts.length = n + 1 ∧
    n < o.maxRetries ∧ s.attempts[n]? = some a ∧ wakesAt ≤ a.start + o.timeoutMs + longestSleepMs o n ∧
    s.gateway.now ≤ wakesAt

theorem punctual_init (now : Nat) : Punctual o (init now) :=
  ⟨nofun, Nat.zero_le _, fun _ => rfl, nofun, nofun⟩

/-- Only the clock moves the gateway's time. -/
theorem step_now (g : EventDedupe) (e : Events.Event) :
    (g.step ttlMs maxSize e).now = g.now ∨ ∃ ms, e = .advance ms ∧ (g.step ttlMs maxSize e).now = g.now + ms := by
  cases e with
  | call u i =>
    left
    simp only [EventDedupe.step, EventDedupe.dispatchOnce]
    split
    · rfl
    · split <;> rfl
  | settle n ok =>
    left
    simp only [EventDedupe.step]
    split <;> rfl
  | resume n =>
    left
    simp only [EventDedupe.step, EventDedupe.resume]
    split
    · rfl
    · rfl
    · split <;> rfl
    · rfl
  | advance ms => exact Or.inr ⟨ms, rfl, rfl⟩

theorem dispatchOnce_now (g : EventDedupe) (key : JsString) : (g.dispatchOnce key).now = g.now := by
  unfold EventDedupe.dispatchOnce
  split
  · rfl
  · split <;> rfl

/-- Time goes on up to the deadline. -/
theorem Punctual.at (h : Punctual o s) {g : EventDedupe} (hle : s.gateway.now ≤ g.now)
    (hdeadline : ∀ d, s.deadline o = some d → g.now ≤ d) : Punctual o { s with gateway := g } := by
  refine ⟨fun i a hi => ?_, h.count, h.queued, fun start hp => ?_, fun wakesAt hp => ?_⟩
  · obtain ⟨first, hfirst, h1, h2, h3⟩ := h.starts i a hi
    exact ⟨first, hfirst, h1, h2, Nat.le_trans h3 hle⟩
  · obtain ⟨n, reached, hn, ha, -⟩ := h.attempting start hp
    exact ⟨n, reached, hn, ha, hdeadline _ (by rw [deadline, show s.phase = _ from hp])⟩
  · obtain ⟨n, a, hn, hr, ha, hw, -⟩ := h.sleeping wakesAt hp
    exact ⟨n, a, hn, hr, ha, hw, hdeadline _ (by rw [deadline, show s.phase = _ from hp])⟩

theorem Punctual.admitted (h : Punctual o s) {g : Events.Event} (hadmits : s.admits o userId eventId g = true) :
    Punctual o { s with gateway := s.gateway.step ttlMs maxSize g } := by
  rcases @step_now ttlMs maxSize s.gateway g with hnow | ⟨ms, rfl, hnow⟩
  · refine h.at (Nat.le_of_eq hnow.symm) fun d hd => ?_
    rw [hnow]
    unfold deadline at hd
    split at hd
    · rename_i start hp
      cases hd
      exact (h.attempting _ hp).choose_spec.choose_spec.2.2
    · rename_i wakesAt hp
      cases hd
      exact (h.sleeping _ hp).choose_spec.choose_spec.2.2.2.2
    · cases hd
  · refine h.at (by omega) fun d hd => ?_
    rw [admits, hd] at hadmits
    rw [hnow]
    simpa using hadmits

theorem Punctual.reached (h : Punctual o s) {i start : Nat} (hi : s.attempts[i]? = some ⟨start, false⟩)
    {g : EventDedupe}
    (hg : g.now = s.gateway.now) : Punctual o { s with gateway := g, attempts := s.attempts.set i ⟨start, true⟩ } := by
  -- the starts are as they were
  have hold : ∀ {j : Nat} {a : Attempt}, (s.attempts.set i ⟨start, true⟩)[j]? = some a →
      ∃ b : Attempt, s.attempts[j]? = some b ∧ b.start = a.start := by
    intro j a hj
    rcases (getElem_set hi).mp hj with ⟨rfl, rfl⟩ | ⟨-, hj⟩
    · exact ⟨_, hi, rfl⟩
    · exact ⟨a, hj, rfl⟩
  have hnew : ∀ {j : Nat} {b : Attempt}, s.attempts[j]? = some b → ∃ r,
    (s.attempts.set i ⟨start, true⟩)[j]? = some ⟨b.start, r⟩ := by
    intro j b hj
    by_cases hij : i = j
    · subst hij
      cases hi.symm.trans hj
      exact ⟨true, getElem_set_self hi⟩
    · exact ⟨b.reached, (List.getElem?_set_ne hij).trans hj⟩
  have hlen : (s.attempts.set i ⟨start, true⟩).length = s.attempts.length := List.length_set
  refine ⟨fun j a hj => ?_, hlen ▸ h.count, fun hq => ?_, fun t hp => ?_, fun w hp => ?_⟩
  · obtain ⟨b, hb, hba⟩ := hold hj
    obtain ⟨first, hfirst, h1, h2, h3⟩ := h.starts j b hb
    obtain ⟨r, hr⟩ := hnew hfirst
    exact ⟨_, hr, hba ▸ h1, hba ▸ h2, hba ▸ hg ▸ h3⟩
  · have hnil := h.queued hq
    rw [hnil] at hi
    cases hi
  · obtain ⟨n, r, hn, ha, hnow⟩ := h.attempting t hp
    obtain ⟨r', hr'⟩ := hnew ha
    exact ⟨n, r', hlen.trans hn, hr', hg ▸ hnow⟩
  · obtain ⟨n, a, hn, hlt, ha, hw, hnow⟩ := h.sleeping w hp
    obtain ⟨r, hr⟩ := hnew ha
    exact ⟨n, _, hlen.trans hn, hlt, hr, hw, hg ▸ hnow⟩

theorem Punctual.attempted (h : Punctual o s)
    (hp : s.phase = .queued ∨ ∃ wakesAt, s.phase = .sleeping wakesAt ∧ wakesAt ≤ s.gateway.now) :
    Punctual o s.attempt := by
  have hlast : (s.attempts ++ [⟨s.gateway.now, false⟩])[s.attempts.length]? = some ⟨s.gateway.now, false⟩ :=
    getElem_snoc.mpr (Or.inr ⟨rfl, rfl⟩)
  -- the time of the new attempt, after the first one
  have hstart : ∃ first, (s.attempts ++ [⟨s.gateway.now, false⟩])[0]? = some first ∧ first.start ≤ s.gateway.now ∧
      s.gateway.now ≤ first.start + latestStart o s.attempts.length ∧ s.attempts.length ≤ o.maxRetries := by
    rcases hp with hp | ⟨w, hp, hw⟩
    · have hnil := h.queued hp
      rw [hnil]
      exact ⟨_, rfl, Nat.le_refl _, Nat.le_add_right _ _, Nat.zero_le _⟩
    · obtain ⟨n, a, hn, hlt, ha, hle, -⟩ := h.sleeping w hp
      obtain ⟨first, hfirst, h1, h2, h3⟩ := h.starts n a ha
      obtain ⟨first', hfirst', h1', -, h3'⟩ := h.starts 0 first hfirst
      refine ⟨first, getElem_append_old hfirst _, h3', ?_, by omega⟩
      have hnow := (h.sleeping w hp).choose_spec.choose_spec.2.2.2.2
      rw [hn, latestStart]
      omega
  obtain ⟨first, hfirst, hge, hle, hcount⟩ := hstart
  refine ⟨fun i a hi => ?_, ?_, nofun, fun t ht => ?_, nofun⟩
  · rcases getElem_snoc.mp hi with hi | ⟨rfl, rfl⟩
    · obtain ⟨f, hf, h1, h2, h3⟩ := h.starts i a hi
      exact ⟨f, getElem_append_old hf _, h1, h2, h3⟩
    · exact ⟨first, hfirst, hge, hle, Nat.le_refl _⟩
  · show (s.attempts ++ [_]).length ≤ _
    rw [List.length_append, List.length_singleton]
    omega
  · cases ht
    exact ⟨s.attempts.length, false, by simp [attempt], hlast, Nat.le_add_right _ _⟩

theorem Punctual.slept (h : Punctual o s) {start : Nat} (random : RandomValue) (hp : s.phase = .attempting start)
    (hn : s.attempts.length ≤ o.maxRetries) :
    Punctual o { s with phase := .sleeping (s.gateway.now + sleepMs o (s.attempts.length - 1) random) } := by
  refine ⟨h.starts, h.count, nofun, nofun, fun w hw => ?_⟩
  obtain ⟨n, reached, hlen, ha, hnow⟩ := h.attempting start hp
  cases hw
  have hsleep := sleepMs_le o n random
  refine ⟨n, _, hlen, by omega, ha, ?_, Nat.le_add_right _ _⟩
  show s.gateway.now + sleepMs o (s.attempts.length - 1) random ≤ start + o.timeoutMs + longestSleepMs o n
  rw [show s.attempts.length - 1 = n by omega]
  omega

theorem punctual_step (h : Punctual o s) (e : DeliveryEvent) :
    Punctual o (s.step o ttlMs maxSize userId eventId e) := by
  have hx := @step_stepped o ttlMs maxSize userId eventId s e
  generalize s.step o ttlMs maxSize userId eventId e = s' at hx ⊢
  cases hx with
  | same => exact h
  | gateway g he hadmits => exact h.admitted hadmits
  | reached i start hi hnow => exact h.reached hi (dispatchOnce_now _ _)
  | attempted hp => exact h.attempted hp
  | slept start random hp hn => exact h.slept random hp hn
  | ended phase hp =>
    refine ⟨h.starts, h.count, fun hq => ?_, fun t ht => ?_, fun w hw => ?_⟩
    · rcases hp with rfl | rfl <;> cases hq
    · rcases hp with rfl | rfl <;> cases ht
    · rcases hp with rfl | rfl <;> cases hw

/-! ## One success -/

/-- A call that succeeded is the only one that has, or may still. -/
def Sole (g : EventDedupe) (key : JsString) : Prop :=
  ∀ (n m : Nat) (p q : Progress), g.calls[n]? = some (key, p) → g.calls[m]? = some (key, q) → p.outcome = some true →
    q.outcome = some true ∨ q.owns = true → n = m

/-- A move keeps that, unless it begins a dispatch of the key after a success. -/
theorem sole_moved {g g' : EventDedupe} {key : JsString} (hk : Kept ttlMs g) (hm : Moved ttlMs maxSize g g')
    (h : Sole g key)
    (hbegin : g'.calls[g.calls.length]? = some (key, .dispatching) → ∀ (n : Nat) p, g.calls[n]? = some (key, p) →
      p.outcome ≠ some true) :
    Sole g' key := by
  -- a call that goes on has succeeded, or may still, only if it could before
  have hset : ∀ {i k p p'}, g.calls[i]? = some (k, p) →
    (p'.outcome = some true ∨ p'.owns = true → p.outcome = some true ∨ p.owns = true) →
      (p'.outcome = some true → p.outcome = some true ∨ p.owns = true) →
        Sole { g with calls := g.calls.set i (k, p') } key := by
    intro i k p p' hi hmay hdid n m a b hn hm ha hb
    have howner : ∀ {n m : Nat} {a b : Progress}, g.calls[n]? = some (key, a) → g.calls[m]? = some (key, b) →
        a.outcome = some true ∨ a.owns = true → b.outcome = some true ∨ b.owns = true → n = m := by
      intro n m a b hn hm ha hb
      rcases ha with ha | ha
      · exact h n m a b hn hm ha hb
      · rcases hb with hb | hb
        · exact (h m n b a hm hn hb (Or.inr ha)).symm
        · exact Option.some.inj ((hk.owner n key a hn ha).symm.trans (hk.owner m key b hm hb))
    have hcould : ∀ {n : Nat} {a : Progress}, (g.calls.set i (k, p'))[n]? = some (key, a) →
      a.outcome = some true ∨ a.owns = true →
        ∃ a', g.calls[n]? = some (key, a') ∧ (a'.outcome = some true ∨ a'.owns = true) := by
      intro n a hn ha
      rcases (getElem_set hi).mp hn with ⟨rfl, hx⟩ | ⟨-, hn⟩
      · obtain ⟨rfl, rfl⟩ := Prod.mk.inj hx
        exact ⟨p, hi, hmay ha⟩
      · exact ⟨a, hn, ha⟩
    obtain ⟨a', ha', hacan⟩ := hcould hn (Or.inl ha)
    obtain ⟨b', hb', hbcan⟩ := hcould hm hb
    exact howner ha' hb' hacan hbcan
  have happend : ∀ {k p}, p.outcome ≠ some true → p.owns = false →
    Sole { g with calls := g.calls ++ [(k, p)] } key := by
    intro k p hp ho n m a b hn hm ha hb
    have hold : ∀ {n : Nat} {a : Progress}, (g.calls ++ [(k, p)])[n]? = some (key, a) → a.outcome = some true ∨
      a.owns = true →
        g.calls[n]? = some (key, a) := by
      intro n a hn ha
      rcases getElem_snoc.mp hn with hn | ⟨-, hx⟩
      · exact hn
      · obtain ⟨-, rfl⟩ := Prod.mk.inj hx
        rcases ha with ha | ha
        · exact absurd ha hp
        · rw [ho] at ha
          cases ha
    exact h n m a b (hold hn (Or.inl ha)) (hold hm hb) ha hb
  cases hm with
  | same => exact h
  | advanced ms => exact h
  | found k hl => exact happend nofun rfl
  | joined k owner hf => exact happend nofun rfl
  | begun k hl hf =>
    intro n m a b hn hm ha hb
    rcases getElem_snoc.mp hn with hold | ⟨-, hx⟩
    · rcases getElem_snoc.mp hm with hm | ⟨rfl, hx⟩
      · exact h n m a b hold hm ha hb
      · obtain ⟨rfl, rfl⟩ := Prod.mk.inj hx
        exact absurd ha (hbegin (getElem_snoc.mpr (Or.inr ⟨rfl, rfl⟩)) n a hold)
    · obtain ⟨-, rfl⟩ := Prod.mk.inj hx
      cases ha
  | settled n k ok hn => exact hset hn (fun _ => Or.inr rfl) fun _ => Or.inr rfl
  | delivered n k hn => exact hset hn (fun _ => Or.inl rfl) fun _ => Or.inl rfl
  | failed n k hn => exact hset hn (fun h => by rcases h with h | h <;> cases h) nofun
  | answered n k owner k' p ok hn ho hp =>
    cases ok with
    | true => exact hset hn (fun h => by rcases h with h | h <;> cases h) nofun
    | false => exact hset hn (fun h => by rcases h with h | h <;> cases h) nofun

/-- A call is begun by its event. -/
theorem newcomer {g : EventDedupe} {e : Events.Event} {k : JsString} {p : Progress}
    (h : (g.step ttlMs maxSize e).calls[g.calls.length]? = some (k, p)) : ∃ u i, e = .call u i ∧ k = dedupeKey u i := by
  have hnone : ∀ {calls : List (JsString × Progress)}, calls.length = g.calls.length →
    calls[g.calls.length]? ≠ some (k, p) := by
    intro calls hlen hget
    have := (List.getElem?_eq_some_iff.mp hget).1
    omega
  cases e with
  | call u i =>
    refine ⟨u, i, rfl, ?_⟩
    simp only [EventDedupe.step, EventDedupe.dispatchOnce] at h
    split at h
    · rw [List.getElem?_concat_length] at h
      exact (Prod.mk.inj (Option.some.inj h)).1.symm
    · split at h
      · rw [List.getElem?_concat_length] at h
        exact (Prod.mk.inj (Option.some.inj h)).1.symm
      · rw [List.getElem?_concat_length] at h
        exact (Prod.mk.inj (Option.some.inj h)).1.symm
  | settle n ok =>
    refine absurd h (hnone ?_)
    simp only [EventDedupe.step]
    split
    · exact List.length_set
    · rfl
  | resume n =>
    refine absurd h (hnone ?_)
    simp only [EventDedupe.step, EventDedupe.resume]
    split
    · exact List.length_set
    · exact List.length_set
    · split
      · exact List.length_set
      · exact List.length_set
      · rfl
    · rfl
  | advance ms => exact absurd h (hnone rfl)

/-- A call was there before, or is new; it is delivered at the time it commits. -/
theorem moved_back {g g' : EventDedupe} (hm : Moved ttlMs maxSize g g') {n : Nat} {k : JsString} {p : Progress}
    (hn : g'.calls[n]? = some (k, p)) :
    (∃ q, g.calls[n]? = some (k, q) ∧ ∀ tc, p = .delivered tc → q = .delivered tc ∨ q = .dispatched true ∧ tc = g.now) ∨
      n = g.calls.length ∧ ∀ tc, p ≠ .delivered tc := by
  have hset : ∀ {i key a b}, g.calls[i]? = some (key, a) →
    (∀ tc, b = .delivered tc → a = .dispatched true ∧ tc = g.now) →
      (g.calls.set i (key, b))[n]? = some (k, p) →
      ∃ q, g.calls[n]? = some (k, q) ∧ ∀ tc, p = .delivered tc → q = .delivered tc ∨
        q = .dispatched true ∧ tc = g.now := by
    intro i key a b hi hd hget
    rcases (getElem_set hi).mp hget with ⟨rfl, hx⟩ | ⟨-, hget⟩
    · obtain ⟨rfl, rfl⟩ := Prod.mk.inj hx
      exact ⟨a, hi, fun tc htc => Or.inr (hd tc htc)⟩
    · exact ⟨p, hget, fun tc htc => Or.inl htc⟩
  have happend : ∀ {key b}, (∀ tc, b ≠ .delivered tc) → (g.calls ++ [(key, b)])[n]? = some (k, p) →
      (∃ q, g.calls[n]? = some (k, q) ∧ ∀ tc, p = .delivered tc → q = .delivered tc ∨
        q = .dispatched true ∧ tc = g.now) ∨
        n = g.calls.length ∧ ∀ tc, p ≠ .delivered tc := by
    intro key b hb hget
    rcases getElem_snoc.mp hget with hget | ⟨rfl, hx⟩
    · exact Or.inl ⟨p, hget, fun tc htc => Or.inl htc⟩
    · obtain ⟨-, rfl⟩ := Prod.mk.inj hx
      exact Or.inr ⟨rfl, hb⟩
  cases hm with
  | same => exact Or.inl ⟨p, hn, fun tc htc => Or.inl htc⟩
  | advanced ms => exact Or.inl ⟨p, hn, fun tc htc => Or.inl htc⟩
  | found key h => exact happend (by nofun) hn
  | joined key owner h => exact happend (by nofun) hn
  | begun key hl h => exact happend (by nofun) hn
  | settled m key ok h => exact Or.inl (hset h (by nofun) hn)
  | delivered m key h => exact Or.inl (hset h (fun tc htc => by cases htc; exact ⟨rfl, rfl⟩) hn)
  | failed m key h => exact Or.inl (hset h (by nofun) hn)
  | answered m key owner k' p' ok h ho hp =>
    cases ok with
    | true => exact Or.inl (hset h (by nofun) hn)
    | false => exact Or.inl (hset h (by nofun) hn)

/-- A call that commits has just gone on. -/
theorem committed_resume {g : EventDedupe} {e : Events.Event} {n : Nat} {k : JsString} {tc : Nat}
    (hn : g.calls[n]? = some (k, .dispatched true))
    (hd : (g.step ttlMs maxSize e).calls[n]? = some (k, .delivered tc)) :
    e = .resume n := by
  have happend : ∀ {x}, (g.calls ++ [x])[n]? ≠ some (k, .delivered tc) := by
    intro x hx
    rw [getElem_append_old hn] at hx
    cases hx
  cases e with
  | call u i =>
    simp only [EventDedupe.step, EventDedupe.dispatchOnce] at hd
    split at hd
    · exact absurd hd happend
    · split at hd
      · exact absurd hd happend
      · exact absurd hd happend
  | settle m ok =>
    simp only [EventDedupe.step] at hd
    split at hd
    · rename_i key hm
      rcases (getElem_set hm).mp hd with ⟨-, hx⟩ | ⟨-, hd⟩
      · cases hx
      · rw [hn] at hd
        cases hd
    · rw [hn] at hd
      cases hd
  | resume m =>
    by_cases hmn : m = n
    · rw [hmn]
    · have hother : ∀ {x}, (g.calls.set m x)[n]? ≠ some (k, .delivered tc) := by
        intro x hx
        rw [List.getElem?_set_ne hmn, hn] at hx
        cases hx
      have hsame : g.calls[n]? ≠ some (k, .delivered tc) := by
        rw [hn]
        rintro ⟨⟩
      simp only [EventDedupe.step, EventDedupe.resume] at hd
      split at hd
      · exact absurd hd hother
      · exact absurd hd hother
      · split at hd
        · exact absurd hd hother
        · exact absurd hd hother
        · exact absurd hd hsame
      · exact absurd hd hsame
  | advance ms =>
    have hd : g.calls[n]? = some (k, .delivered tc) := hd
    rw [hn] at hd
    cases hd

structure Once (o : GatewaySenderOptions) (ttlMs : Nat) (userId eventId : JsString) (s : Delivery) : Prop where
  punctual : Punctual o s
  kept : Kept ttlMs s.gateway
  /-- The event is called, and committed, after its first attempt began. -/
  called : ∀ (n : Nat) p, s.gateway.calls[n]? = some (dedupeKey userId eventId, p) →
    ∃ first, s.attempts[0]? = some first ∧ ∀ tc, p = .delivered tc → first.start ≤ tc
  recorded : ∀ (n tc : Nat), s.gateway.calls[n]? = some (dedupeKey userId eventId, .delivered tc) →
    s.gateway.now < tc + ttlMs → Recorded s.gateway (dedupeKey userId eventId) (tc + ttlMs)
  sole : Sole s.gateway (dedupeKey userId eventId)

theorem once_init (now : Nat) : Once o ttlMs userId eventId (init now) :=
  ⟨punctual_init now, Events.kept_init now, nofun, nofun, nofun⟩

/-- What an attempt that arrives finds: the first success is remembered still. -/
theorem Once.remembered (h : Once o ttlMs userId eventId s) (hlong : longestSend o < ttlMs) {i start : Nat}
    (hi : s.attempts[i]? = some ⟨start, false⟩) (hnow : s.gateway.now ≤ start + o.timeoutMs)
    (hfree : ¬ Live s.gateway (dedupeKey userId eventId) ∧ s.gateway.inFlight.get (dedupeKey userId eventId) = none)
    (n : Nat) (p : Progress) (hn : s.gateway.calls[n]? = some (dedupeKey userId eventId, p)) :
    p.outcome ≠ some true := by
  intro hp
  obtain ⟨hlive, hflight⟩ := hfree
  cases p with
  | dispatched ok =>
    rw [h.kept.owner n _ _ hn rfl] at hflight
    cases hflight
  | delivered tc =>
    obtain ⟨first, hfirst, hle⟩ := h.called n _ hn
    obtain ⟨first', hfirst', -, hstart, -⟩ := h.punctual.starts i _ hi
    cases hfirst.symm.trans hfirst'
    have htc := hle tc rfl
    have hcount := h.punctual.count
    have hlt := (List.getElem?_eq_some_iff.mp hi).1
    have hmono := latestStart_mono o (show i ≤ o.maxRetries by omega)
    unfold longestSend at hlong
    dsimp only at hstart
    obtain ⟨x, hx, hxle⟩ := h.recorded n tc hn (by omega)
    exact hlive ⟨x, hx, by omega⟩
  | dispatching => cases hp
  | failed => cases hp
  | waiting m => cases hp
  | duplicate => cases hp
  | rejected => cases hp

/-- A step of the gateway, or an arrival, once neither begins the event after a success nor evicts it. -/
theorem Once.moved (h : Once o ttlMs userId eventId s) {g : EventDedupe} (hm : Moved ttlMs maxSize s.gateway g)
    {attempts : List Attempt} (hp : Punctual o { s with gateway := g, attempts })
    (hfirst : ∀ first, s.attempts[0]? = some first → ∃ first' : Attempt, attempts[0]? = some first' ∧
      first'.start = first.start)
    (hnew : ∀ p, g.calls[s.gateway.calls.length]? = some (dedupeKey userId eventId, p) →
      ∃ first, attempts[0]? = some first)
    (hbegin : g.calls[s.gateway.calls.length]? = some (dedupeKey userId eventId, .dispatching) →
      ∀ (n : Nat) p, s.gateway.calls[n]? = some (dedupeKey userId eventId, p) → p.outcome ≠ some true)
    (hroom : ¬ Evicted ttlMs maxSize s.gateway g (dedupeKey userId eventId)) :
    Once o ttlMs userId eventId { s with gateway := g, attempts } := by
  refine ⟨hp, Events.kept_moved h.kept hm, fun n p hn => ?_, fun n tc hn hnow => ?_, sole_moved h.kept hm h.sole hbegin⟩
  · rcases moved_back hm hn with ⟨q, hq, hdelivered⟩ | ⟨rfl, hno⟩
    · obtain ⟨first, hget, hle⟩ := h.called n q hq
      obtain ⟨first', hget', hstart⟩ := hfirst first hget
      refine ⟨first', hget', fun tc htc => ?_⟩
      rw [hstart]
      rcases hdelivered tc htc with rfl | ⟨-, rfl⟩
      · exact hle tc rfl
      · obtain ⟨f, hf, h1, -, h3⟩ := h.punctual.starts 0 first hget
        exact h3
    · obtain ⟨first, hget⟩ := hnew p hn
      exact ⟨first, hget, fun tc htc => absurd htc (hno tc)⟩
  · rcases Events.recorded_moved h.kept hm hn hnow with hr | hev | ⟨hold, hbefore, hno⟩
    · exact hr
    · exact absurd hev hroom
    · exact absurd (h.recorded n tc hold hbefore) hno

theorem once_step (hlong : longestSend o < ttlMs) (h : Once o ttlMs userId eventId s) {e : DeliveryEvent}
    (hroom : s.Roomy ttlMs maxSize e) : Once o ttlMs userId eventId (s.step o ttlMs maxSize userId eventId e) := by
  have hpunctual := @punctual_step o ttlMs maxSize userId eventId s h.punctual e
  have hx := @step_stepped o ttlMs maxSize userId eventId s e
  generalize s.step o ttlMs maxSize userId eventId e = s' at hx hpunctual ⊢
  cases hx with
  | same => exact h
  | gateway g he hadmits =>
    have hother : ∀ {p}, (s.gateway.step ttlMs maxSize g).calls[s.gateway.calls.length]? ≠
      some (dedupeKey userId eventId, p) := by
      intro p hnew
      obtain ⟨u, i, rfl, hkey⟩ := newcomer hnew
      simp [admits, hkey] at hadmits
    refine h.moved (Events.step_moved s.gateway g) hpunctual (fun first hf => ⟨first, hf, rfl⟩)
      (fun p hp => absurd hp hother)
      (fun hp => absurd hp hother) fun hev => ?_
    obtain ⟨n, k, x, hn, hd, -, -, -, hsize⟩ := hev
    rw [committed_resume hn hd] at he
    exact absurd hsize (Nat.not_lt.mpr (hroom n k he hn))
  | reached i start hi hnow =>
    refine h.moved (@Events.dispatchOnce_moved ttlMs maxSize s.gateway _) hpunctual (fun first hf => ?_)
      (fun p hp => ?_) (fun hb => ?_) fun hev => ?_
    · by_cases hzero : i = 0
      · subst hzero
        cases hi.symm.trans hf
        exact ⟨_, getElem_set_self hi, rfl⟩
      · exact ⟨first, (List.getElem?_set_ne hzero).trans hf, rfl⟩
    · obtain ⟨first, hf, -⟩ := h.punctual.starts i _ hi
      have hlt := (List.getElem?_eq_some_iff.mp hf).1
      exact ⟨_, List.getElem?_eq_getElem (by rwa [List.length_set])⟩
    · exact h.remembered hlong hi hnow (Events.begins_iff.mp hb)
    · obtain ⟨n, k, x, hn, hd, -⟩ := hev
      have hold : ∀ c : JsString × Progress, (s.gateway.calls ++ [c])[n]? ≠ some (k, .delivered s.gateway.now) := by
        intro c hc
        rw [getElem_append_old hn] at hc
        cases hc
      unfold EventDedupe.dispatchOnce at hd
      split at hd
      · exact hold _ hd
      · split at hd
        · exact hold _ hd
        · exact hold _ hd
  | attempted hp =>
    refine ⟨hpunctual, h.kept, fun n p hn => ?_, h.recorded, h.sole⟩
    obtain ⟨first, hf, hle⟩ := h.called n p hn
    exact ⟨first, getElem_append_old hf _, hle⟩
  | slept start random hp hn => exact ⟨hpunctual, h.kept, h.called, h.recorded, h.sole⟩
  | ended phase hp => exact ⟨hpunctual, h.kept, h.called, h.recorded, h.sole⟩

/-- Where the longest send is shorter than the dedupe remembers, one dispatch succeeds at most. -/
theorem one_success (hlong : longestSend o < ttlMs) {now : Nat} {es : List DeliveryEvent}
    (hroom : Along (step o ttlMs maxSize userId eventId) (Roomy ttlMs maxSize) (init now) es) {n m : Nat}
    (hn : (run o ttlMs maxSize userId eventId now es).Succeeded userId eventId n)
    (hm : (run o ttlMs maxSize userId eventId now es).Succeeded userId eventId m) : n = m := by
  have honce : Once o ttlMs userId eventId (run o ttlMs maxSize userId eventId now es) :=
    @Along.inv _ _ (step o ttlMs maxSize userId eventId) (Roomy ttlMs maxSize) (Once o ttlMs userId eventId)
      (fun s e h hok => once_step hlong h hok) es _ (once_init now) hroom
  obtain ⟨p, hn, hp⟩ := hn
  obtain ⟨q, hm, hq⟩ := hm
  exact honce.sole n m p q hn hm hp (Or.inl hq)

/-! ## A send that lasts longer -/

/-- The first attempt was dispatched with success at 0, and the sender knows nothing of it: attempt `k` begins now. -/
structure Unanswered (o : GatewaySenderOptions) (ttlMs : Nat) (userId eventId : JsString) (k : Nat) (s : Delivery) :
    Prop where
  now : s.gateway.now = latestStart o k
  calls : s.gateway.calls = [(dedupeKey userId eventId, .delivered 0)]
  flight : s.gateway.inFlight.get (dedupeKey userId eventId) = none
  committed : s.gateway.committed.get (dedupeKey userId eventId) = some ttlMs
  others : ∀ j, j ≠ dedupeKey userId eventId → s.gateway.committed.get j = none
  phase : s.phase = .attempting (latestStart o k)
  count : s.attempts.length = k + 1
  last : 0 < k → s.attempts[k]? = some ⟨latestStart o k, false⟩

theorem size_le_one {m : OMap JsString Nat} {key : JsString} (h : ∀ j, j ≠ key → m.get j = none) : m.size ≤ 1 := by
  have hkey : ∀ e ∈ m.entries, e.1 = key := by
    intro e he
    by_contra hne
    have hget : m.get e.1 = some e.2 := OMap.get_eq_some.mpr he
    rw [h e.1 hne] at hget
    cases hget
  have hnodup := m.nodup
  unfold OMap.size
  match hm : m.entries with
  | [] => exact Nat.zero_le _
  | [_] => exact Nat.le_refl _
  | e :: f :: rest =>
    rw [hm] at hkey hnodup
    simp [hkey e (by simp), hkey f (by simp)] at hnodup

theorem size_unexpired_le (m : OMap JsString Nat) (now : Nat) : (unexpired m now).size ≤ m.size :=
  List.length_filter_le ..

/-- A key that is committed alone finds room. -/
theorem roomy_alone (hmax : 1 ≤ maxSize) {n : Nat}
    (hcall : ∀ k p, s.gateway.calls[n]? = some (k, p) → k = dedupeKey userId eventId)
    (h : ∀ j, j ≠ dedupeKey userId eventId → s.gateway.committed.get j = none) :
    s.Roomy ttlMs maxSize (.gateway (.resume n)) := by
  intro m k he hm
  cases he
  obtain rfl := hcall k _ hm
  refine Nat.le_trans (Nat.le_trans (size_unexpired_le _ _)
    (@size_le_one _ (dedupeKey userId eventId) fun j hj => ?_)) hmax
  cases hget : (s.gateway.held ttlMs (dedupeKey userId eventId)).get j with
  | none => rfl
  | some x =>
    rcases Events.get_held.mp hget with ⟨hj', -⟩ | ⟨-, hx⟩
    · exact absurd hj' hj
    · rw [h j hj] at hx
      cases hx

theorem unanswered_first (httl : 0 < ttlMs) (hmax : 1 ≤ maxSize) :
    ∃ es, Along (step o ttlMs maxSize userId eventId) (Roomy ttlMs maxSize) (init 0) es ∧
      Unanswered o ttlMs userId eventId 0 (run o ttlMs maxSize userId eventId 0 es) := by
  let dispatched : Delivery :=
    ⟨⟨0, .empty, (OMap.empty.set (dedupeKey userId eventId) 0), [(dedupeKey userId eventId, .dispatched true)]⟩,
      [⟨0, true⟩], .attempting 0⟩
  have hroom : dispatched.Roomy ttlMs maxSize (.gateway (.resume 0)) := by
    refine @roomy_alone ttlMs maxSize userId eventId dispatched hmax 0 (fun k p hk => ?_) fun j _ => rfl
    cases hk
    rfl
  have hsize : (unexpired (dispatched.gateway.held ttlMs (dedupeKey userId eventId)) 0).size ≤ maxSize :=
    hroom 0 _ rfl rfl
  refine ⟨[.send, .reach 0, .gateway (.settle 0 true), .gateway (.resume 0)], ⟨nofun, nofun, nofun, hroom, trivial⟩, ?_⟩
  have hrun : run o ttlMs maxSize userId eventId 0 [.send, .reach 0, .gateway (.settle 0 true), .gateway (.resume 0)] =
      ⟨⟨0, dispatched.gateway.commit ttlMs maxSize (dedupeKey userId eventId),
        (OMap.empty.set (dedupeKey userId eventId) 0).delete (dedupeKey userId eventId),
        [(dedupeKey userId eventId, .delivered 0)]⟩, [⟨0, true⟩], .attempting 0⟩ := rfl
  rw [hrun]
  constructor
  case now => rfl
  case calls => rfl
  case flight => exact OMap.get_delete_self ..
  case committed =>
    have hheld : (dispatched.gateway.held ttlMs (dedupeKey userId eventId)).get (dedupeKey userId eventId) =
      some ttlMs :=
      Events.get_held.mpr (Or.inl ⟨rfl, (Nat.zero_add _).symm⟩)
    exact Events.get_commit_of_held hheld httl hsize
  case others =>
    intro j hj
    cases hget : (dispatched.gateway.commit ttlMs maxSize (dedupeKey userId eventId)).get j with
    | none => rfl
    | some x =>
      rcases Events.get_held.mp (Events.get_commit hget) with ⟨hj', -⟩ | ⟨-, hx⟩
      · exact absurd hj' hj
      · cases hx
  case phase => rfl
  case count => rfl
  case last => exact fun h => absurd h (Nat.lt_irrefl 0)

/-- The attempt is lost, the sender waits as long as it may, and tries again. -/
theorem unanswered_next {k : Nat} (h : Unanswered o ttlMs userId eventId k s) (hk : k < o.maxRetries) :
    ∃ es, Along (step o ttlMs maxSize userId eventId) (Roomy ttlMs maxSize) s es ∧
      Unanswered o ttlMs userId eventId (k + 1) (runFrom (step o ttlMs maxSize userId eventId) s es) := by
  obtain ⟨random, hrandom⟩ := sleepMs_longest o k
  obtain ⟨g, attempts, phase⟩ := s
  obtain ⟨hnow, hcalls, hflight, hcommitted, hothers, hphase, hcount, -⟩ := h
  dsimp only at hnow hcalls hflight hcommitted hothers hphase hcount
  subst hphase
  let lost : Delivery := ⟨{ g with now := latestStart o k + o.timeoutMs }, attempts, .attempting (latestStart o k)⟩
  let slept : Delivery := { lost with phase := .sleeping (latestStart o (k + 1)) }
  let woken : Delivery := ⟨{ g with now := latestStart o (k + 1) }, attempts, .sleeping (latestStart o (k + 1))⟩
  have h1 : step o ttlMs maxSize userId eventId ⟨g, attempts, .attempting (latestStart o k)⟩
    (.gateway (.advance o.timeoutMs)) = lost := by
    simp [step, admits, deadline, hnow, EventDedupe.step, lost]
  have hmore : k + 1 ≤ o.maxRetries := hk
  have h2 : step o ttlMs maxSize userId eventId lost (.answer none random) = slept := by
    simp [step, answer, attemptOutcome, lost, slept, hcount, hmore, hrandom, latestStart]
  have h3 : step o ttlMs maxSize userId eventId slept (.gateway (.advance (longestSleepMs o k))) = woken := by
    simp [step, admits, deadline, EventDedupe.step, lost, slept, woken, latestStart]
  have h4 : step o ttlMs maxSize userId eventId woken .wake = woken.attempt := by
    simp [step, woken]
  refine ⟨[.gateway (.advance o.timeoutMs), .answer none random, .gateway (.advance (longestSleepMs o k)), .wake],
    ⟨(by rintro _ _ ⟨⟩), (by rintro _ _ ⟨⟩), (by rintro _ _ ⟨⟩), (by rintro _ _ ⟨⟩), trivial⟩, ?_⟩
  rw [runFrom_cons, h1, runFrom_cons, h2, runFrom_cons, h3, runFrom_cons, h4, runFrom_nil]
  refine ⟨rfl, hcalls, hflight, hcommitted, hothers, rfl, ?_, fun _ => ?_⟩
  · simp [attempt, woken, hcount]
  · exact getElem_snoc.mpr (Or.inr ⟨hcount.symm, rfl⟩)

/-- Each attempt is lost, up to the last. -/
theorem unanswered_last (httl : 0 < ttlMs) (hmax : 1 ≤ maxSize) {k : Nat} (hk : k ≤ o.maxRetries) :
    ∃ es, Along (step o ttlMs maxSize userId eventId) (Roomy ttlMs maxSize) (init 0) es ∧
      Unanswered o ttlMs userId eventId k (run o ttlMs maxSize userId eventId 0 es) := by
  induction k with
  | zero => exact unanswered_first httl hmax
  | succ k ih =>
    obtain ⟨es, halong, h⟩ := ih (Nat.le_of_succ_le hk)
    obtain ⟨fs, halong', h'⟩ := @unanswered_next o ttlMs maxSize userId eventId _ k h hk
    refine ⟨es ++ fs, along_append.mpr ⟨halong, halong'⟩, ?_⟩
    rw [run, runFrom_append]
    exact h'

/-- The last attempt arrives when the first success is forgotten. -/
theorem two_successes (httl : 0 < ttlMs) (hmax : 1 ≤ maxSize) (hretries : 1 ≤ o.maxRetries)
    (hlong : ttlMs ≤ longestSend o) :
    ∃ es, Along (step o ttlMs maxSize userId eventId) (Roomy ttlMs maxSize) (init 0) es ∧
      (run o ttlMs maxSize userId eventId 0 es).Succeeded userId eventId 0 ∧
      (run o ttlMs maxSize userId eventId 0 es).Succeeded userId eventId 1 := by
  obtain ⟨es, halong, h⟩ := @unanswered_last o ttlMs maxSize userId eventId httl hmax o.maxRetries (Nat.le_refl _)
  unfold longestSend at hlong
  generalize hs : run o ttlMs maxSize userId eventId 0 es = s at h
  obtain ⟨g, attempts, phase⟩ := s
  obtain ⟨hnow, hcalls, hflight, hcommitted, hothers, hphase, hcount, hlast⟩ := h
  dsimp only at hnow hcalls hflight hcommitted hothers hphase hcount
  have hgot : attempts[o.maxRetries]? = some ⟨latestStart o o.maxRetries, false⟩ := hlast hretries
  subst hphase
  let key := dedupeKey userId eventId
  let late : EventDedupe := { g with now := latestStart o o.maxRetries + o.timeoutMs }
  let begun : Delivery :=
    ⟨{ late with inFlight := g.inFlight.set key 1, calls := [(key, .delivered 0), (key, .dispatching)] },
    attempts.set o.maxRetries ⟨latestStart o o.maxRetries, true⟩, .attempting (latestStart o o.maxRetries)⟩
  let dispatched : Delivery :=
    { begun with gateway := { begun.gateway with calls := [(key, .delivered 0), (key, .dispatched true)] } }
  have h1 : step o ttlMs maxSize userId eventId ⟨g, attempts, .attempting (latestStart o o.maxRetries)⟩
      (.gateway (.advance o.timeoutMs)) = ⟨late, attempts, .attempting (latestStart o o.maxRetries)⟩ := by
    simp [step, admits, deadline, hnow, EventDedupe.step, late]
  have h2 : step o ttlMs maxSize userId eventId ⟨late, attempts, .attempting (latestStart o o.maxRetries)⟩
      (.reach o.maxRetries) = begun := by
    have hexpired : ((late.committed.get (dedupeKey userId eventId)).any (late.now < ·)) = false := by
      show (g.committed.get (dedupeKey userId eventId)).any _ = false
      rw [hcommitted]
      simpa [late] using hlong
    have hfree : late.inFlight.get (dedupeKey userId eventId) = none := hflight
    have harrives : late.now ≤ latestStart o o.maxRetries + o.timeoutMs := Nat.le_refl _
    have hdispatch : late.dispatchOnce (dedupeKey userId eventId) = begun.gateway := by
      simp [EventDedupe.dispatchOnce, hexpired, hfree, begun, late, key, hcalls]
    unfold step reach
    dsimp only
    rw [hgot]
    dsimp only
    rw [if_pos harrives, hdispatch]
  have h3 : step o ttlMs maxSize userId eventId begun (.gateway (.settle 1 true)) = dispatched := rfl
  have hroom : dispatched.Roomy ttlMs maxSize (.gateway (.resume 1)) := by
    refine @roomy_alone ttlMs maxSize userId eventId dispatched hmax 1 (fun k p hk => ?_) hothers
    cases hk
    rfl
  have hend : runFrom (step o ttlMs maxSize userId eventId) ⟨g, attempts, .attempting (latestStart o o.maxRetries)⟩
      [.gateway (.advance o.timeoutMs), .reach o.maxRetries, .gateway (.settle 1 true), .gateway (.resume 1)] =
      dispatched.step o ttlMs maxSize userId eventId (.gateway (.resume 1)) := by
    rw [runFrom_cons, h1, runFrom_cons, h2, runFrom_cons, h3, runFrom_cons, runFrom_nil]
  refine ⟨es ++ [.gateway (.advance o.timeoutMs), .reach o.maxRetries, .gateway (.settle 1 true),
    .gateway (.resume 1)], ?_, ?_⟩
  · rw [along_append]
    refine ⟨halong, ?_⟩
    rw [show runFrom (step o ttlMs maxSize userId eventId) (init 0) es = _ from hs]
    refine ⟨(by rintro _ _ ⟨⟩), (by rintro _ _ ⟨⟩), (by rintro _ _ ⟨⟩), ?_, trivial⟩
    rw [h1, h2, h3]
    exact hroom
  · rw [run, runFrom_append, show runFrom (step o ttlMs maxSize userId eventId) (init 0) es = _ from hs, hend]
    exact ⟨⟨.delivered 0, rfl, rfl⟩, ⟨.delivered (latestStart o o.maxRetries + o.timeoutMs), rfl, rfl⟩⟩

end Delivery

/-! ## The configurations -/

variable {P : ConfigPlatform}

/-- In every run that leaves the dedupe room, one dispatch of the event succeeds at most. -/
def DispatchedOnce (o : GatewaySenderOptions) (userId eventId : JsString) : Prop :=
  ∀ now es, Along (Delivery.step o DEDUPE_TTL_MS DEDUPE_MAX_SIZE userId eventId)
      (Delivery.Roomy DEDUPE_TTL_MS DEDUPE_MAX_SIZE) (.init now) es →
    ∀ n m, (Delivery.run o DEDUPE_TTL_MS DEDUPE_MAX_SIZE userId eventId now es).Succeeded userId eventId n →
      (Delivery.run o DEDUPE_TTL_MS DEDUPE_MAX_SIZE userId eventId now es).Succeeded userId eventId m → n = m

/-- Of what `loadConfig` accepts, no second dispatch of an event can succeed exactly under the configurations
    whose longest send is shorter than the dedupe remembers. -/
theorem one_dispatch_iff {env : String → Option JsString} {config : PluginConfig} (h : loadConfig P env = some config)
    (userId eventId : JsString) :
    DispatchedOnce config.senderOptions userId eventId ↔ longestSend config.senderOptions < DEDUPE_TTL_MS := by
  constructor
  · intro hone
    by_contra hlong
    obtain ⟨es, halong, hfirst, hsecond⟩ :=
      @Delivery.two_successes config.senderOptions DEDUPE_TTL_MS DEDUPE_MAX_SIZE userId
      eventId (by decide) (by decide) (loadConfig_limits h).2.2.1 (Nat.le_of_not_lt hlong)
    exact absurd (hone 0 es halong 0 1 hfirst hsecond) (by decide)
  · intro hlong now es halong n m hn hm
    exact Delivery.one_success hlong halong hn hm

/-! ### Two configurations -/

namespace EventDelivery

def gateway : JsString := js "https://hub.example"

/-- A platform that reads the values the runs give it. -/
def platform : ConfigPlatform where
  parseUrl raw := if raw = gateway then some ⟨[], [], [], [], js "https:", js "hub.example",
    js "https://hub.example/"⟩ else none
  parseJson raw := if raw = js "[]" then some (.arr []) else none
  hostname := js "box"
  isAbsolute directory := directory.head? == some 47
  normalize directory := directory

/-- Only what is required is set. -/
def plainEnv : String → Option JsString
  | "NOTIFY_GATEWAY_URL" => some gateway
  | "NOTIFY_INGEST_KEY" => some (js "key.secret")
  | _ => none

/-- Attempts of five minutes, one retry. -/
def patientEnv : String → Option JsString
  | "NOTIFY_HTTP_TIMEOUT_MS" => some (js "300000")
  | "NOTIFY_MAX_RETRIES" => some (js "1")
  | name => plainEnv name

def plain : PluginConfig where
  gatewayUrl := gateway
  ingestKey := ⟨js "key", js "secret"⟩
  machine := js "box"
  remoteDirectories := []
  includeSummary := false
  queueCapacity := 100
  heartbeatMs := 60000
  idleDebounceMs := 15000
  httpTimeoutMs := 5000
  maxRetries := 3

def patient : PluginConfig := { plain with httpTimeoutMs := 300000, maxRetries := 1 }

end EventDelivery

open EventDelivery in
/-- Twenty seconds and the waits between the attempts stay within the window. -/
theorem plain_one_dispatch : longestSend plain.senderOptions = 20697 ∧
    DispatchedOnce plain.senderOptions (js "u") (js "e") := by
  have hload : loadConfig platform plainEnv = some plain := by decide +kernel
  exact ⟨by decide, (one_dispatch_iff hload (js "u") (js "e")).mpr (by decide)⟩

namespace EventDelivery

/-- The answer to the first attempt is lost, and the second one arrives as its own time runs out. -/
def lostAnswer : List DeliveryEvent :=
  [.send, .reach 0, .gateway (.settle 0 true), .gateway (.resume 0), .gateway (.advance 300000),
    .answer none ⟨1, 2, by decide⟩,
    .gateway (.advance 50), .wake, .gateway (.advance 300000), .reach 1, .gateway (.settle 1 true),
    .gateway (.resume 1)]

theorem lostAnswer_calls :
    (Delivery.run patient.senderOptions DEDUPE_TTL_MS DEDUPE_MAX_SIZE (js "u") (js "e") 0 lostAnswer).gateway.calls =
      [(dedupeKey (js "u") (js "e"), .delivered 0), (dedupeKey (js "u") (js "e"), .delivered 600050)] := by
  decide +kernel

theorem lostAnswer_roomy :
    Along (Delivery.step patient.senderOptions DEDUPE_TTL_MS DEDUPE_MAX_SIZE (js "u") (js "e"))
      (Delivery.Roomy DEDUPE_TTL_MS DEDUPE_MAX_SIZE) (.init 0) lostAnswer := by
  refine ⟨nofun, nofun, nofun, fun n k he hk => ?_, nofun, nofun, nofun, nofun, nofun, nofun,
    nofun, fun n k he hk => ?_, trivial⟩
  · cases he
    cases hk
    decide +kernel
  · cases he
    cases hk
    decide +kernel

end EventDelivery

open EventDelivery in
/-- After ten minutes the gateway does not know the event any more. -/
theorem dispatched_twice :
    ¬ ∀ (P : ConfigPlatform) (env : String → Option JsString) (config : PluginConfig), loadConfig P env = some config →
      ∀ userId eventId, DispatchedOnce config.senderOptions userId eventId := by
  intro h
  have hload : loadConfig platform patientEnv = some patient := by decide +kernel
  have hsame := h platform patientEnv patient hload (js "u") (js "e") 0 lostAnswer lostAnswer_roomy 0 1
    ⟨.delivered 0, by rw [lostAnswer_calls]; rfl, rfl⟩ ⟨.delivered 600050, by rw [lostAnswer_calls]; rfl, rfl⟩
  exact absurd hsame (by decide)

end NotifyHub.Link
