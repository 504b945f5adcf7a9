/-
  NotifyHub.Client.TunnelProgress — a WebUI tunnel does not get stuck.

  `never_stuck`: once the local server stands, and until `close`, the tunnel is connected,
  or a reconnect runs, or the retry timer is armed. One timer is armed at most, and one
  channel is neither closed nor closing. A frame changes only responses whose requests
  went out on the frame's own channel.
-/

import NotifyHub.Client.WebUiTunnel

namespace NotifyHub.Client

open Control

namespace Flow

/-- `_reconnect` runs. -/
def reconnects : Flow → Bool
  | .opening caller .. | .waiting caller .. | .aborting caller .. | .connected caller | .failed caller _ =>
    caller = .reconnect
  | .refreshing reason => reason ≠ .start
  | .idle | .binding => false

/-- `start` runs. -/
def starts : Flow → Bool
  | .opening caller .. | .waiting caller .. | .aborting caller .. | .connected caller | .failed caller _ =>
    caller ≠ .reconnect
  | .refreshing reason => reason = .start
  | .binding => true
  | .idle => false

/-- `_connect` waits, and this is its generation and its channel. -/
def holds : Flow → Nat → Nat → Prop
  | .opening _ generation channel, g, c | .waiting _ generation channel _, g, c => generation = g ∧ channel = c
  | _, _, _ => False

/-- `_connect` drops the channel. -/
def aborts : Flow → Nat → Prop
  | .aborting _ channel _, c => channel = c
  | _, _ => False

/-- No `_connect` is at work. -/
def Rests (f : Flow) : Prop := (∀ g c, ¬ f.holds g c) ∧ ∀ c, ¬ f.aborts c

/-- The tunnel may be connected. -/
def settled : Flow → Bool
  | .idle | .connected _ | .binding => true
  | _ => false

end Flow

namespace GatewayWebUiTunnel

/-- How the fields of a tunnel hang together, before `close`. -/
structure Wired (s : GatewayWebUiTunnel) : Prop where
  reconnects : s.reconnecting = s.flow.reconnects
  starts : s.flow.starts = true → s.server = false
  stands : s.flow.reconnects = true → s.server = true
  up : s.connected = true → s.channel ≠ none ∧ s.flow.settled = true
  held : ∀ c, s.channel = some c → s.connected = true ∨ s.flow.holds s.generation c
  holds : ∀ c, s.flow.holds s.generation c → s.channel = some c
  past : ∀ g c, s.flow.holds g c → g ≤ s.generation
  /-- A retry is due only while nothing is connected. -/
  due : s.retry ≠ none → s.server = true ∧ s.channel = none ∧ s.flow ≠ .refreshing .expired
  timers : ∀ (t : Nat) (timer : RetryTimer), s.timers[t]? = some timer → (timer.armed = true ↔ s.retry = some t)
  timer : ∀ t, s.retry = some t → t < s.timers.length
  channels : ∀ (c : Nat) (channel : TunnelChannel), s.channels[c]? = some channel → channel.isOpen = true →
    s.channel = some c ∨ s.flow.aborts c

/-- The state between two steps, before `close`. -/
structure Good (s : GatewayWebUiTunnel) : Prop extends Wired s where
  progress : s.server = true → s.connected = true ∨ s.reconnecting = true ∨ s.retry ≠ none
  returned : s.flow = .connected .reconnect → s.connected = true ∨ s.retry ≠ none

variable {toLowerCase : JsString → JsString} {accepts : JsString × JsString → Bool} {s : GatewayWebUiTunnel}

theorem good_init (accessToken : JsString) (hasRefresh : Bool) : Good (.init accessToken hasRefresh) where
  reconnects := rfl
  starts := nofun
  stands := nofun
  up := nofun
  held := nofun
  holds := fun _ h => h.elim
  past := fun _ _ h => h.elim
  due := fun h => absurd rfl h
  timers := nofun
  timer := nofun
  channels := nofun
  progress := nofun
  returned := nofun

/-- The retry timer is armed. -/
theorem Wired.arm (h : Wired s) (hopen : s.closed = false) (expired : Bool) (hs : s.server = true)
    (hc : s.channel = none)
    (hf : s.flow ≠ .refreshing .expired) (hr : s.retry = none) : Good (s.scheduleReconnect expired) := by
  rw [scheduleReconnect, if_neg (by rw [hopen, hr]; simp)]
  refine { h with
    due := fun _ => ⟨hs, hc, hf⟩
    timers := fun t timer ht => ?_
    timer := fun t ht => ?_
    progress := fun _ => Or.inr (Or.inr nofun)
    returned := fun _ => Or.inr nofun }
  · dsimp only at ht ⊢
    rcases getElem_snoc.mp ht with ht | ⟨rfl, rfl⟩
    · obtain ⟨hlt, -⟩ := List.getElem?_eq_some_iff.mp ht
      rw [h.timers t timer ht, hr]
      simp only [reduceCtorEq, Option.some.injEq, false_iff]
      omega
    · simp
  · cases ht
    simp

/-- `start` and `_reconnect` go on, and no `_connect` is at work. -/
theorem Wired.turn (h : Wired s) {f : Flow} {b : Bool} (hrest : s.flow.Rests) (hf : f.Rests) (hb : b = f.reconnects)
    (hst : f.starts = true → s.server = false) (hstands : f.reconnects = true → s.server = true)
    (hup : s.connected = true → f.settled = true) (hdue : s.retry ≠ none → f ≠ .refreshing .expired) :
    Wired { s with flow := f, reconnecting := b } where
  reconnects := hb
  starts := hst
  stands := hstands
  up := fun hc => ⟨(h.up hc).1, hup hc⟩
  held := fun c hc => Or.inl ((h.held c hc).resolve_right (hrest.1 _ c))
  holds := fun c hc => absurd hc (hf.1 _ c)
  past := fun g c hc => absurd hc (hf.1 g c)
  due := fun hr => ⟨(h.due hr).1, (h.due hr).2.1, hdue hr⟩
  timers := h.timers
  timer := h.timer
  channels := fun c channel hc hopen => Or.inl ((h.channels c channel hc hopen).resolve_right (hrest.2 c))

theorem Wired.rest (h : Wired s) {f : Flow} {b : Bool} (hrest : s.flow.Rests) (hf : f.Rests) (hb : b = f.reconnects)
    (hst : f.starts = true → s.server = false) (hstands : f.reconnects = true → s.server = true)
    (hup : s.connected = true → f.settled = true) (hdue : s.retry ≠ none → f ≠ .refreshing .expired)
    (hprog : s.server = true → s.connected = true ∨ b = true ∨ s.retry ≠ none)
    (hret : f = .connected .reconnect → s.connected = true ∨ s.retry ≠ none) :
    Good { s with flow := f, reconnecting := b } :=
  { h.turn hrest hf hb hst hstands hup hdue with
    progress := hprog
    returned := hret }

theorem Flow.rests_idle : Flow.idle.Rests := ⟨fun _ _ => id, fun _ => id⟩

/-- `_reconnect` returns with a connection, or with a retry armed. -/
theorem Wired.finish (h : Wired s) (hrest : s.flow.Rests)
    (hprog : s.server = true → s.connected = true ∨ s.retry ≠ none) :
    Good s.finish :=
  h.rest hrest Flow.rests_idle rfl nofun nofun (fun _ => rfl) (fun _ => nofun)
    (fun hs => (hprog hs).imp_right Or.inr) nofun

theorem finish_schedule (s : GatewayWebUiTunnel) (expired : Bool) :
    (s.scheduleReconnect expired).finish = s.finish.scheduleReconnect expired := by
  rw [scheduleReconnect, scheduleReconnect]
  by_cases h : s.closed = true ∨ s.retry ≠ none
  · rw [if_pos h, if_pos (show s.finish.closed = true ∨ s.finish.retry ≠ none from h)]
  · rw [if_neg h, if_neg (show ¬ (s.finish.closed = true ∨ s.finish.retry ≠ none) from h)]
    rfl

/-- `_reconnect` arms the retry timer and returns. -/
theorem Wired.giveUp (h : Wired s) (hopen : s.closed = false) (expired : Bool) (hrest : s.flow.Rests)
    (hs : s.server = true)
    (hc : s.channel = none) : Good (s.scheduleReconnect expired).finish := by
  by_cases hr : s.retry = none
  · have hw : Wired s.finish := h.turn hrest Flow.rests_idle rfl nofun nofun (fun _ => rfl) fun _ => nofun
    rw [finish_schedule]
    exact hw.arm hopen expired hs hc nofun hr
  · rw [scheduleReconnect, if_pos (Or.inr hr)]
    exact h.finish hrest fun _ => Or.inr hr

theorem Wired.connect (h : Wired s) (caller : Caller) (b : Bool) (hrest : s.flow.Rests) (hc : s.channel = none)
    (hr : s.retry = none)
    (hb : b = decide (caller = .reconnect)) (hserver : s.server = decide (caller = .reconnect)) :
    Good (({ s with reconnecting := b } : GatewayWebUiTunnel).connect caller) where
  reconnects := hb
  starts := fun hst => hserver.trans (by simpa [GatewayWebUiTunnel.connect, Flow.starts] using hst)
  stands := fun hst => hserver.trans hst
  up := fun hup => absurd hc (h.up hup).1
  held := fun c hc => Or.inr ⟨rfl, Option.some.inj hc⟩
  holds := fun c hc => congrArg some hc.2
  past := fun g c hc => Nat.le_of_eq hc.1.symm
  due := fun hne => absurd hr hne
  timers := h.timers
  timer := h.timer
  channels := fun c channel hch hopen => by
    rcases getElem_snoc.mp hch with hch | ⟨rfl, -⟩
    · rcases h.channels c channel hch hopen with hs | ha
      · rw [hc] at hs; cases hs
      · exact absurd ha (hrest.2 c)
    · exact Or.inl rfl
  progress := fun hs => Or.inr (Or.inl (hb.trans (hserver.symm.trans hs)))
  returned := nofun

/-- The flow is `_connect`'s, and this is its channel. -/
def Connecting (s : GatewayWebUiTunnel) (caller : Caller) (c : Nat) : Prop :=
  ∃ g, s.flow = .opening caller g c ∨ ∃ ready, s.flow = .waiting caller g c ready

theorem Connecting.facts {caller : Caller} {c : Nat} (hf : s.Connecting caller c) :
    s.flow.settled = false ∧ (∀ d, ¬ s.flow.aborts d) ∧ (∀ g d, s.flow.holds g d → c = d) ∧
      s.flow.reconnects = decide (caller = .reconnect) ∧ s.flow.starts = decide (caller ≠ .reconnect) := by
  obtain ⟨g, hf | ⟨ready, hf⟩⟩ := hf <;> rw [hf]
  · exact ⟨rfl, fun _ => id, fun _ _ h => h.2, rfl, rfl⟩
  · exact ⟨rfl, fun _ => id, fun _ _ h => h.2, rfl, rfl⟩

theorem Good.abort (h : Good s) {caller : Caller} {c : Nat} (unauthorized : Bool) (hf : s.Connecting caller c) :
    Good (s.abort caller c unauthorized) := by
  obtain ⟨hsettled, haborts, hholds, hreconnects, hstarts⟩ := hf.facts
  have hdown : s.connected ≠ true := fun hup => by
    have := (h.up hup).2
    rw [hsettled] at this
    cases this
  unfold GatewayWebUiTunnel.abort
  split
  · rename_i hc
    exact {
      reconnects := h.reconnects.trans hreconnects
      starts := fun hst => h.starts (hstarts.trans hst)
      stands := fun hst => h.stands (hreconnects.trans hst)
      up := fun hup => absurd hup hdown
      held := nofun
      holds := fun _ hh => hh.elim
      past := fun _ _ hh => hh.elim
      due := fun hr => by
        have := (h.due hr).2.1
        rw [hc] at this
        cases this
      timers := h.timers
      timer := h.timer
      channels := fun d channel hd hopen => by
        rcases h.channels d channel hd hopen with hs | ha
        · exact Or.inr (Option.some.inj (hc.symm.trans hs))
        · exact absurd ha (haborts d)
      progress := h.progress
      returned := nofun }
  · rename_i hc
    exact {
      reconnects := h.reconnects.trans hreconnects
      starts := fun hst => h.starts (hstarts.trans hst)
      stands := fun hst => h.stands (hreconnects.trans hst)
      up := fun hup => absurd hup hdown
      held := fun d hd => by
        rcases h.held d hd with hup | hh
        · exact Or.inl hup
        · exact absurd (hholds _ d hh ▸ hd) hc
      holds := fun _ hh => hh.elim
      past := fun _ _ hh => hh.elim
      due := fun hr => ⟨(h.due hr).1, (h.due hr).2.1, nofun⟩
      timers := h.timers
      timer := h.timer
      channels := fun d channel hd hopen => Or.inl ((h.channels d channel hd hopen).resolve_right (haborts d))
      progress := h.progress
      returned := nofun }

theorem closeChannel_get (s : GatewayWebUiTunnel) (c d : Nat) : (s.closeChannel c).channels[d]? =
    s.channels[d]?.map fun channel => if c = d then { channel with isOpen := false } else channel := by
  simp only [closeChannel, List.getElem?_modify]
  cases s.channels[d]? with
  | none => rfl
  | some channel =>
    by_cases h : c = d
    · simp [h]
    · simp [h]

/-- A channel that is open after another was closed. -/
theorem open_of_close {c d : Nat} {channel : TunnelChannel} (hd : (s.closeChannel c).channels[d]? = some channel)
    (hopen : channel.isOpen = true) : c ≠ d ∧ s.channels[d]? = some channel := by
  rw [closeChannel_get] at hd
  obtain ⟨x, hx, rfl⟩ := Option.map_eq_some_iff.mp hd
  split at hopen
  · cases hopen
  · rename_i hne
    rw [if_neg hne]
    exact ⟨hne, hx⟩

theorem Good.lost (h : Good s) (c : Nat) (expired : Bool) (hopen : s.closed = false) : Good (s.lost c expired) := by
  unfold GatewayWebUiTunnel.lost
  split
  · exact h
  · rename_i hn
    rw [not_or, not_not] at hn
    have hc := hn.2
    have hr : s.retry = none := by
      by_contra hr
      have := (h.due hr).2.1
      rw [hc] at this
      cases this
    have hf : s.flow ≠ .refreshing .expired := by
      intro hf
      rcases h.held c hc with hup | hh
      · have := (h.up hup).2
        rw [hf] at this
        cases this
      · rw [hf] at hh
        exact hh
    have hw : Wired (({ s with
        channel := none, generation := s.generation + 1, connected := false, tunnelId := none
        served := s.served.failAll } : GatewayWebUiTunnel).closeChannel c) := {
      reconnects := h.reconnects
      starts := h.starts
      stands := h.stands
      up := nofun
      held := nofun
      holds := fun d hh => by
        have := h.past _ d hh
        exact absurd this (Nat.not_succ_le_self _)
      past := fun g d hh => Nat.le_succ_of_le (h.past g d hh)
      due := fun hne => absurd hr hne
      timers := h.timers
      timer := h.timer
      channels := fun d channel hd hdopen => by
        obtain ⟨hne, hd⟩ := open_of_close hd hdopen
        rcases h.channels d channel hd hdopen with hs | ha
        · exact absurd (Option.some.inj (hc.symm.trans hs)) hne
        · exact Or.inr ha }
    dsimp only
    split
    · rename_i hserver
      exact hw.arm hopen expired hserver rfl hf hr
    · rename_i hserver
      exact { hw with
        progress := fun hs => absurd hs hserver
        returned := fun hfl => by
          have hfl : s.flow = .connected .reconnect := hfl
          exact absurd (h.stands (by rw [hfl]; rfl)) hserver }

/-! ## Steps -/

/-- `_connect` waits for the tunnel. -/
theorem Good.wait (h : Good s) {caller : Caller} {g c : Nat}
    (hf : s.flow = .opening caller g c ∨ ∃ ready, s.flow = .waiting caller g c ready)
    (ready : Option (Option JsString)) : Good { s with flow := .waiting caller g c ready } := by
  have hc : s.Connecting caller c := ⟨g, hf⟩
  obtain ⟨hsettled, haborts, -, hreconnects, hstarts⟩ := hc.facts
  exact {
    reconnects := h.reconnects.trans hreconnects
    starts := fun hst => h.starts (hstarts.trans hst)
    stands := fun hst => h.stands (hreconnects.trans hst)
    up := fun hup => by
      have := (h.up hup).2
      rw [hsettled] at this
      cases this
    held := fun d hd => (h.held d hd).imp_right fun hh => by
      rcases hf with hf | ⟨ready', hf⟩ <;> rw [hf] at hh <;> exact hh
    holds := fun d hh => h.holds d (by rcases hf with hf | ⟨ready', hf⟩ <;> rw [hf] <;> exact hh)
    past := fun g' d hh => h.past g' d (by rcases hf with hf | ⟨ready', hf⟩ <;> rw [hf] <;> exact hh)
    due := fun hr => ⟨(h.due hr).1, (h.due hr).2.1, nofun⟩
    timers := h.timers
    timer := h.timer
    channels := fun d channel hd hopen => Or.inl ((h.channels d channel hd hopen).resolve_right (haborts d))
    progress := h.progress
    returned := nofun }

theorem Good.complete (h : Good s) (ready : Option JsString) : Good (s.complete ready) := by
  unfold GatewayWebUiTunnel.complete
  split
  · rename_i hf
    exact h.wait (Or.inr ⟨none, hf⟩) _
  · exact h

/-- The tunnel is not closed by this, and no response changes. -/
structure Keeps (s t : GatewayWebUiTunnel) : Prop where
  closed : t.closed = s.closed
  served : t.served = s.served

theorem complete_keeps (s : GatewayWebUiTunnel) (ready : Option JsString) : Keeps s (s.complete ready) := by
  unfold GatewayWebUiTunnel.complete
  split <;> exact ⟨rfl, rfl⟩

theorem schedule_keeps (s : GatewayWebUiTunnel) (expired : Bool) : Keeps s (s.scheduleReconnect expired) := by
  unfold scheduleReconnect
  split <;> exact ⟨rfl, rfl⟩

theorem refreshFailed_keeps (s : GatewayWebUiTunnel) (reason : RefreshFor) : Keeps s (s.refreshFailed reason) := by
  cases reason with
  | start => exact ⟨rfl, rfl⟩
  | expired => exact ⟨(schedule_keeps s false).closed, (schedule_keeps s false).served⟩
  | unauthorized => exact ⟨(schedule_keeps s true).closed, (schedule_keeps s true).served⟩

theorem abort_keeps (s : GatewayWebUiTunnel) (caller : Caller) (c : Nat) (unauthorized : Bool) :
    Keeps s (s.abort caller c unauthorized) := by
  unfold GatewayWebUiTunnel.abort
  split <;> exact ⟨rfl, rfl⟩

theorem reconnect_keeps (s : GatewayWebUiTunnel) (expired : Bool) : Keeps s (s.reconnect expired) := by
  unfold GatewayWebUiTunnel.reconnect
  split
  · exact ⟨rfl, rfl⟩
  · dsimp only
    split <;> exact ⟨rfl, rfl⟩

/-- The channel that `_connect` dropped is closing. -/
theorem Good.aborted (h : Good s) {caller : Caller} {c : Nat} {unauthorized : Bool}
    (hf : s.flow = .aborting caller c unauthorized) :
    Good { s.closeChannel c with flow := .failed caller unauthorized } where
  reconnects := h.reconnects.trans (by rw [hf]; rfl)
  starts := fun hst => h.starts (by rw [hf]; exact hst)
  stands := fun hst => h.stands (by rw [hf]; exact hst)
  up := fun hup => by
    have := (h.up hup).2
    rw [hf] at this
    cases this
  held := fun d hd => (h.held d hd).imp_right fun hh => by rw [hf] at hh; exact hh
  holds := fun _ hh => hh.elim
  past := fun _ _ hh => hh.elim
  due := fun hr => ⟨(h.due hr).1, (h.due hr).2.1, nofun⟩
  timers := h.timers
  timer := h.timer
  channels := fun d channel hd hopen => by
    obtain ⟨hne, hd⟩ := open_of_close hd hopen
    rcases h.channels d channel hd hopen with hs | ha
    · exact Or.inl hs
    · rw [hf] at ha
      exact absurd ha hne
  progress := h.progress
  returned := nofun

theorem Good.serve (h : Good s) (served : TunnelResponses) : Good (s.serve served) := { h with }

theorem idle_of_flow {f : Flow} (hr : f.reconnects = false) (hs : f.starts = false) : f = .idle := by
  cases f with
  | idle => rfl
  | binding => cases hs
  | refreshing reason =>
    cases reason with
    | start => cases hs
    | expired => cases hr
    | unauthorized => cases hr
  | _ =>
    simp only [Flow.reconnects, Flow.starts, decide_eq_false_iff_not, ne_eq, not_not] at hr hs
    exact absurd hs hr

/-- The retry that was due is no longer armed. -/
theorem Wired.disarm (h : Wired s) {timers : List RetryTimer}
    (ht : ∀ (t : Nat) (timer : RetryTimer), timers[t]? = some timer → timer.armed = false) :
    Wired { s with timers, retry := none } where
  reconnects := h.reconnects
  starts := h.starts
  stands := h.stands
  up := h.up
  held := h.held
  holds := h.holds
  past := h.past
  due := fun hr => absurd rfl hr
  timers := fun t timer hm => by rw [ht t timer hm]; simp
  timer := nofun
  channels := h.channels

/-- `_reconnect` begins, unless one is at work that has not returned. -/
theorem Wired.reconnect (h : Wired s) (hopen : s.closed = false) (hs : s.server = true) (hc : s.channel = none)
    (hr : s.retry = none)
    (hf : s.flow ≠ .connected .reconnect) (expired : Bool) : Good (s.reconnect expired) := by
  unfold GatewayWebUiTunnel.reconnect
  split
  · rename_i hrec
    have hrec : s.reconnecting = true := hrec.resolve_left (by rw [hopen]; exact nofun)
    exact { h with
      progress := fun _ => Or.inr (Or.inl hrec)
      returned := fun hfl => absurd hfl hf }
  · rename_i hrec
    rw [not_or] at hrec
    have hidle : s.flow = .idle := by
      refine idle_of_flow (h.reconnects ▸ Bool.eq_false_iff.mpr hrec.2) ?_
      refine Bool.eq_false_iff.mpr fun hst => ?_
      have := h.starts hst
      rw [hs] at this
      cases this
    have hrest : s.flow.Rests := hidle ▸ Flow.rests_idle
    dsimp only
    split
    · exact h.rest (f := .refreshing .expired) (b := true) hrest ⟨fun _ _ => id, fun _ => id⟩ rfl nofun
        (fun _ => hs) (fun hup => absurd hc (h.up hup).1)
        (fun hne => absurd hr hne) (fun _ => Or.inr (Or.inl rfl)) nofun
    · exact h.connect .reconnect true hrest hc hr rfl hs

theorem Good.fires (h : Good s) (hopen : s.closed = false) (t : Nat) : Good (s.fires t) := by
  unfold GatewayWebUiTunnel.fires
  split
  · rename_i timer ht
    split
    · rename_i hfire
      have hretry : s.retry = some t := (h.timers t timer ht).mp hfire.1
      obtain ⟨hs, hc, -⟩ := h.due (by rw [hretry]; exact nofun)
      refine (h.disarm fun t' timer' ht' => ?_).reconnect hopen hs hc rfl (fun hf => ?_) _
      · rcases (getElem_set ht).mp ht' with ⟨-, rfl⟩ | ⟨hne, ht'⟩
        · rfl
        · refine Bool.eq_false_iff.mpr fun harmed => hne ?_
          have := (h.timers t' timer' ht').mp harmed
          exact Option.some.inj (hretry.symm.trans this)
      · have hf : s.flow = .connected .reconnect := hf
        refine hfire.2 ?_
        rw [Ready, hf]
        trivial
    · exact h
  · exact h

theorem cancelRetry_armed (h : Wired s) (t : Nat) (timer : RetryTimer) (ht : s.cancelRetry[t]? = some timer) :
    timer.armed = false := by
  unfold cancelRetry at ht
  split at ht
  · rename_i t' hr
    rw [List.getElem?_modify] at ht
    obtain ⟨x, hx, rfl⟩ := Option.map_eq_some_iff.mp ht
    split
    · rfl
    · rename_i hne
      refine Bool.eq_false_iff.mpr fun harmed => hne ?_
      have := (h.timers t x hx).mp harmed
      exact Option.some.inj (hr.symm.trans this)
  · rename_i hr
    refine Bool.eq_false_iff.mpr fun harmed => ?_
    have := (h.timers t timer ht).mp harmed
    rw [hr] at this
    cases this

/-- What `lost` leaves alone. -/
theorem lost_same (s : GatewayWebUiTunnel) (c : Nat) (expired : Bool) :
    (s.lost c expired).server = s.server ∧ (s.lost c expired).reconnecting = s.reconnecting ∧
      (s.lost c expired).closed = s.closed := by
  unfold GatewayWebUiTunnel.lost
  split
  · exact ⟨rfl, rfl, rfl⟩
  · dsimp only
    split
    · unfold scheduleReconnect
      split <;> exact ⟨rfl, rfl, rfl⟩
    · exact ⟨rfl, rfl, rfl⟩

theorem Good.resume (h : Good s) (hopen : s.closed = false) (afterSleep : Bool) : Good (s.resume afterSleep) := by
  unfold GatewayWebUiTunnel.resume
  split
  · exact h
  · rename_i hn
    simp only [hopen, Bool.false_eq_true, false_or, not_or, Bool.not_eq_false, Bool.not_eq_true] at hn
    -- After a sleep a connection counts as lost.
    have hdrop : ∀ t : GatewayWebUiTunnel, Good t → t.server = true → t.reconnecting = false → t.closed = false →
        Good (if t.connected = true ∨ t.channel ≠ none then t
          else ({ t with timers := t.cancelRetry, retry := none } : GatewayWebUiTunnel).reconnect false) := by
      intro t ht hs hrec hopen
      split
      · exact ht
      · rename_i hdown
        rw [not_or, not_not] at hdown
        refine (ht.disarm (cancelRetry_armed ht.toWired)).reconnect hopen hs hdown.2 rfl (fun hf => ?_) false
        have hf : t.flow = .connected .reconnect := hf
        have := ht.reconnects
        rw [hrec, hf] at this
        cases this
    dsimp only
    split
    · rename_i c hc
      split
      · obtain ⟨hserver, hrec, hclosed⟩ := lost_same s c false
        exact hdrop _ (h.lost c false hopen) (hserver.trans hn.1) (hrec.trans hn.2) (hclosed.trans hopen)
      · exact hdrop _ h hn.1 hn.2 hopen
    · exact hdrop _ h hn.1 hn.2 hopen

/-- While `_connect` is not at work and the tunnel may not be connected, there is no channel. -/
theorem Wired.none_of_rest (h : Wired s) (hrest : s.flow.Rests) (hs : s.flow.settled = false) :
    s.connected ≠ true ∧ s.channel = none := by
  have hdown : s.connected ≠ true := fun hup => by
    have := (h.up hup).2
    rw [hs] at this
    cases this
  refine ⟨hdown, ?_⟩
  cases hc : s.channel with
  | none => rfl
  | some c => exact ((h.held c hc).elim hdown (hrest.1 _ c)).elim

/-- `_connect` returns. -/
theorem Good.arrive (h : Good s) {caller : Caller} {c : Nat} (hconn : s.Connecting caller c)
    (hc : s.channel = some c) (n : Nat) :
    Good { s with connected := true, attempt := n, flow := .connected caller } := by
  obtain ⟨-, haborts, -, hreconnects, hstarts⟩ := hconn.facts
  exact {
    reconnects := h.reconnects.trans hreconnects
    starts := fun hst => h.starts (hstarts.trans hst)
    stands := fun hst => h.stands (hreconnects.trans hst)
    up := fun _ => ⟨by rw [hc]; exact nofun, rfl⟩
    held := fun _ _ => Or.inl rfl
    holds := fun _ hh => hh.elim
    past := fun _ _ hh => hh.elim
    due := fun hr => by
      have := (h.due hr).2.1
      rw [hc] at this
      cases this
    timers := h.timers
    timer := h.timer
    channels := fun d channel hd hopen => Or.inl ((h.channels d channel hd hopen).resolve_right (haborts d))
    progress := fun _ => Or.inl rfl
    returned := fun _ => Or.inl rfl }

/-- `start` goes on to where it waits for something else than `_connect`, or throws. -/
theorem Good.startTurn (h : Good s) {f : Flow} (hrest : s.flow.Rests) (hst : s.flow.starts = true)
    (hf : f = .idle ∨ f = .binding ∨ f = .refreshing .start) (hup : s.connected = true → f.settled = true) :
    Good { s with flow := f } := by
  have hserver := h.starts hst
  have hrec : s.reconnecting = false := by
    rw [h.reconnects]
    refine Bool.eq_false_iff.mpr fun hr => ?_
    have := h.stands hr
    rw [hserver] at this
    cases this
  have hprog : s.server = true → s.connected = true ∨ s.reconnecting = true ∨ s.retry ≠ none := fun hs => by
    rw [hserver] at hs
    cases hs
  rcases hf with rfl | rfl | rfl
  · exact h.rest hrest Flow.rests_idle hrec nofun nofun hup (fun _ => nofun) hprog nofun
  · exact h.rest hrest ⟨fun _ _ => id, fun _ => id⟩ hrec (fun _ => hserver) nofun hup (fun _ => nofun) hprog nofun
  · exact h.rest hrest ⟨fun _ _ => id, fun _ => id⟩ hrec (fun _ => hserver) nofun hup (fun _ => nofun) hprog nofun

theorem Good.goesOn (h : Good s) (hopen : s.closed = false) : Good s.goesOn := by
  unfold GatewayWebUiTunnel.goesOn
  split
  · rename_i caller g c ready hf
    have hconn : s.Connecting caller c := ⟨g, Or.inr ⟨some ready, hf⟩⟩
    split
    · rename_i tunnelId
      have hnamed : Good { s with tunnelId := some tunnelId } := { h with }
      split
      · exact hnamed.abort false hconn
      · rename_i hn
        rw [not_or, not_not] at hn
        exact hnamed.arrive hconn (h.holds c (by rw [hf]; exact ⟨hn.2.symm, rfl⟩)) 0
    · exact h.abort false hconn
  · rename_i again hf
    have hrest : s.flow.Rests := hf ▸ ⟨fun _ _ => id, fun _ => id⟩
    rw [if_neg (by rw [hopen]; exact nofun)]
    exact h.startTurn hrest (by rw [hf]; rfl) (Or.inr (Or.inl rfl)) fun _ => rfl
  · rename_i hf
    exact h.finish (hf ▸ ⟨fun _ _ => id, fun _ => id⟩) fun _ => h.returned hf
  · rename_i again unauthorized hf
    have hrest : s.flow.Rests := hf ▸ ⟨fun _ _ => id, fun _ => id⟩
    have hdown := (h.none_of_rest hrest (by rw [hf]; rfl)).1
    split
    · exact h.startTurn hrest (by rw [hf]; rfl) (Or.inr (Or.inr rfl)) fun hup => absurd hup hdown
    · exact h.startTurn hrest (by rw [hf]; rfl) (Or.inl rfl) fun hup => absurd hup hdown
  · rename_i unauthorized hf
    have hrest : s.flow.Rests := hf ▸ ⟨fun _ _ => id, fun _ => id⟩
    obtain ⟨hdown, hc⟩ := h.none_of_rest hrest (by rw [hf]; rfl)
    have hs : s.server = true := h.stands (by rw [hf]; rfl)
    have hrec : s.reconnecting = true := h.reconnects.trans (by rw [hf]; rfl)
    rw [if_neg (by rw [hopen]; exact nofun)]
    split
    · exact h.rest (f := .refreshing .unauthorized) hrest ⟨fun _ _ => id, fun _ => id⟩ hrec nofun (fun _ => hs)
        (fun hup => absurd hup hdown) (fun _ => nofun) (fun _ => Or.inr (Or.inl hrec)) nofun
    · exact h.giveUp hopen false hrest hs hc
  · exact h

theorem close_closed (s : GatewayWebUiTunnel) : s.close.closed = true := by
  unfold GatewayWebUiTunnel.close
  split
  · rename_i h; exact h
  · unfold GatewayWebUiTunnel.complete
    split <;> rfl

theorem Good.refreshFailed (h : Good s) (hopen : s.closed = false) {reason : RefreshFor}
    (hf : s.flow = .refreshing reason) :
    Good (s.refreshFailed reason) := by
  have hrest : s.flow.Rests := hf ▸ ⟨fun _ _ => id, fun _ => id⟩
  obtain ⟨hdown, hc⟩ := h.none_of_rest hrest (by rw [hf]; rfl)
  cases reason with
  | start => exact h.startTurn hrest (by rw [hf]; rfl) (Or.inl rfl) fun _ => rfl
  | expired => exact h.giveUp hopen false hrest (h.stands (by rw [hf]; rfl)) hc
  | unauthorized => exact h.giveUp hopen true hrest (h.stands (by rw [hf]; rfl)) hc

theorem Good.refreshed (h : Good s) (hopen : s.closed = false) (outcome : RefreshOutcome)
    (hstill : (s.refreshed outcome).closed = false) :
    Good (s.refreshed outcome) := by
  revert hstill
  unfold GatewayWebUiTunnel.refreshed
  split
  · rename_i reason hf
    have hrest : s.flow.Rests := hf ▸ ⟨fun _ _ => id, fun _ => id⟩
    obtain ⟨hdown, hc⟩ := h.none_of_rest hrest (by rw [hf]; rfl)
    split
    · rename_i accessToken _
      intro _
      have htoken : Good { s with accessToken } := { h with }
      rw [if_neg (by rw [hopen]; exact nofun)]
      cases reason with
      | start =>
        have hserver := h.starts (by rw [hf]; rfl)
        refine htoken.connect (.start true) s.reconnecting hrest hc ?_ (h.reconnects.trans (by rw [hf]; rfl)) hserver
        by_contra hr
        have := (h.due hr).1
        rw [hserver] at this
        cases this
      | expired =>
        refine htoken.connect .reconnect s.reconnecting hrest hc ?_ (h.reconnects.trans (by rw [hf]; rfl))
          (h.stands (by rw [hf]; rfl))
        by_contra hr
        exact (h.due hr).2.2 hf
      | unauthorized => exact htoken.giveUp hopen false hrest (h.stands (by rw [hf]; rfl)) hc
    · intro hstill
      rw [(refreshFailed_keeps ..).closed, close_closed] at hstill
      cases hstill
    · exact fun _ => h.refreshFailed hopen hf
    · exact fun _ => h.refreshFailed hopen hf
  · exact fun _ => h

theorem Good.bound (h : Good s) (hopen : s.closed = false) : Good s.bound := by
  unfold GatewayWebUiTunnel.bound
  split
  · rename_i hf
    rw [if_neg (by rw [hopen]; exact nofun)]
    have hrest : s.flow.Rests := hf ▸ ⟨fun _ _ => id, fun _ => id⟩
    have hserver := h.starts (by rw [hf]; rfl)
    have hr : s.retry = none := by
      by_contra hr
      have := (h.due hr).1
      rw [hserver] at this
      cases this
    have hrec : s.reconnecting = false := h.reconnects.trans (by rw [hf]; rfl)
    have hw : Wired { s with server := true, flow := .idle } := {
      reconnects := hrec
      starts := nofun
      stands := nofun
      up := fun hup => ⟨(h.up hup).1, rfl⟩
      held := fun c hc => Or.inl ((h.held c hc).resolve_right (hrest.1 _ c))
      holds := fun _ hh => hh.elim
      past := fun _ _ hh => hh.elim
      due := fun hne => absurd hr hne
      timers := h.timers
      timer := h.timer
      channels := fun c channel hc hopen => Or.inl ((h.channels c channel hc hopen).resolve_right (hrest.2 c)) }
    dsimp only
    split
    · rename_i hup
      exact { hw with
        progress := fun _ => Or.inl hup
        returned := nofun }
    · rename_i hdown
      refine hw.arm hopen false rfl ?_ nofun hr
      cases hc : s.channel with
      | none => rfl
      | some c => exact ((h.held c hc).elim hdown (hrest.1 _ c)).elim
  · exact h

theorem Good.opened (h : Good s) (outcome : TunnelOpened) : Good (s.opened outcome) := by
  unfold GatewayWebUiTunnel.opened
  split
  · rename_i caller g c hf
    have hconn : s.Connecting caller c := ⟨g, Or.inl hf⟩
    cases outcome with
    | ready asked =>
      dsimp only
      split
      · exact h.abort false hconn
      · exact h.wait (Or.inl hf) _
    | failed unauthorized => exact h.abort unauthorized hconn
  · exact h

theorem Good.respond (h : Good s) (hopen : s.closed = false) (c : Nat) (id : JsString) (i : Nat)
    (part : WebUiResponsePart) :
    Good (s.respond toLowerCase accepts c id i part) := by
  have hs := h.serve (s.served.modify i fun r => { r with received := r.received ++ [part] })
  unfold GatewayWebUiTunnel.respond
  cases part with
  | start status headers =>
    dsimp only
    split
    · split
      · exact (hs.serve _).lost c false hopen
      · exact hs.serve _
    · exact hs
  | chunk body =>
    dsimp only
    split
    · exact hs.serve _
    · split
      · exact hs.serve _
      · exact hs
  | «end» => exact hs.serve _

theorem Good.frame (h : Good s) (hopen : s.closed = false) (c : Nat) (f : TunnelFrame) :
    Good (s.frame toLowerCase accepts c f) := by
  unfold GatewayWebUiTunnel.frame
  split
  · split
    · exact h
    · cases f with
      | ready tunnelId => exact h.complete _
      | error => exact h.complete _
      | response tunnelId id part =>
        unfold handleFrame
        dsimp only
        split
        · exact h
        · split
          · exact h.respond hopen c id _ part
          · exact h
  · exact h

theorem good_step (h : Good s) (hopen : s.closed = false) (e : TunnelEvent) :
    (step toLowerCase accepts s e).closed = false → Good (step toLowerCase accepts s e) := by
  cases e with
  | start =>
    intro _
    unfold step
    dsimp only
    split
    · exact h
    · rename_i hn
      simp only [hopen, Bool.false_eq_true, false_or, not_or, ne_eq, not_not, Bool.not_eq_true] at hn
      obtain ⟨hc, hf, hserver⟩ := hn
      refine h.connect (.start false) s.reconnecting (hf ▸ Flow.rests_idle) hc ?_
        (h.reconnects.trans (by rw [hf]; rfl)) hserver
      by_contra hr
      have := (h.due hr).1
      rw [hserver] at this
      cases this
  | opened outcome => exact fun _ => h.opened outcome
  | frame c f => exact fun _ => h.frame hopen c f
  | ended c expired =>
    intro _
    change Good (s.ended c expired)
    unfold GatewayWebUiTunnel.ended
    split
    · split
      · refine (h.complete none).lost c expired ?_
        rw [(complete_keeps s none).closed, hopen]
      · exact h.lost c expired hopen
    · exact h.lost c expired hopen
  | timedOut =>
    intro _
    simp only [step]
    split
    · rename_i caller g c hf
      exact h.abort false ⟨g, Or.inr ⟨none, hf⟩⟩
    · exact h
  | aborted =>
    intro _
    simp only [step]
    split
    · rename_i caller c unauthorized hf
      exact h.aborted hf
    · exact h
  | goesOn => exact fun _ => h.goesOn hopen
  | refreshed outcome => exact h.refreshed hopen outcome
  | bound => exact fun _ => h.bound hopen
  | fires t => exact fun _ => h.fires hopen t
  | resume afterSleep => exact fun _ => h.resume hopen afterSleep
  | lost c expired => exact fun _ => h.lost c expired hopen
  | renewed outcome =>
    intro hstill
    cases outcome with
    | token accessToken =>
      change Good (if s.closed = true then s else { s with accessToken })
      rw [if_neg (by rw [hopen]; exact nofun)]
      exact { h with }
    | null =>
      change s.close.closed = false at hstill
      rw [close_closed] at hstill
      cases hstill
    | dioException => exact h
    | threw => exact h
  | request =>
    intro _
    change Good s.request
    unfold request
    split
    · split
      · exact h.serve _
      · exact h
    · exact h
  | gone i =>
    intro _
    change Good (s.gone i)
    unfold gone
    split
    · exact h.serve _
    · exact h
  | wrote i outcome =>
    intro _
    change Good (s.wrote i outcome)
    unfold wrote
    split
    · split
      · exact h
      · dsimp only
        split
        · exact (h.serve _).serve _
        · exact h.serve _
    · exact h
  | close =>
    intro hstill
    change s.close.closed = false at hstill
    rw [close_closed] at hstill
    cases hstill
  | teardown =>
    intro _
    simp only [step, hopen, Bool.false_eq_true, if_false]
    exact h

/-! ## Whose responses a frame changes -/

/-- Generations tell channels apart, and the pending responses are the present channel's. -/
structure Owned (s : GatewayWebUiTunnel) : Prop where
  past : ∀ (c : Nat) (channel : TunnelChannel), s.channels[c]? = some channel → channel.generation ≤ s.generation
  distinct : ∀ (c d : Nat) (channel channel' : TunnelChannel), s.channels[c]? = some channel →
    s.channels[d]? = some channel' →
    channel.generation = channel'.generation → c = d
  /-- After `close` no channel has the generation that is due. -/
  later : s.closed = true → ∀ (c : Nat) (channel : TunnelChannel), s.channels[c]? = some channel →
    channel.generation < s.generation
  current : s.closed = false → ∀ c, s.channel = some c → ∃ channel, s.channels[c]? = some channel ∧
    channel.generation = s.generation
  pending : s.closed = false → ∀ id i, s.served.pending.get id = some i →
    ∃ tag, (s.served.responses.map (·.tag))[i]? = some tag ∧ s.channel = some tag.2 ∧ s.connected = true

theorem owned_init (accessToken : JsString) (hasRefresh : Bool) : Owned (.init accessToken hasRefresh) :=
  ⟨nofun, nofun, nofun, nofun, nofun⟩

theorem Owned.serve (h : Owned s) {w : TunnelResponses} (hw : s.served.Narrows w) : Owned (s.serve w) :=
  { h with
    pending := fun hopen id i hi => by
      obtain ⟨tag, htag, hc⟩ := h.pending hopen id i (hw.pending id i hi)
      exact ⟨tag, (congrArg (·[i]?) hw.tags).trans htag, hc⟩ }

theorem Owned.closeChannel (h : Owned s) (c : Nat) : Owned (s.closeChannel c) := by
  have hback : ∀ {d : Nat} {channel : TunnelChannel}, (s.closeChannel c).channels[d]? = some channel →
      ∃ channel', s.channels[d]? = some channel' ∧ channel'.generation = channel.generation := by
    intro d channel hd
    rw [closeChannel_get] at hd
    obtain ⟨x, hx, rfl⟩ := Option.map_eq_some_iff.mp hd
    refine ⟨x, hx, ?_⟩
    split <;> rfl
  refine { h with
    past := fun d channel hd => ?_
    distinct := fun d e channel channel' hd he heq => ?_
    later := fun hcl d channel hd => ?_
    current := fun hopen d hd => ?_ }
  · obtain ⟨x, hx, hg⟩ := hback hd
    exact hg ▸ h.past d x hx
  · obtain ⟨x, hx, hg⟩ := hback hd
    obtain ⟨y, hy, hg'⟩ := hback he
    exact h.distinct d e x y hx hy (by rw [hg, hg', heq])
  · obtain ⟨x, hx, hg⟩ := hback hd
    exact hg ▸ h.later hcl d x hx
  · obtain ⟨x, hx, hg⟩ := h.current hopen d hd
    rw [closeChannel_get, hx]
    refine ⟨_, rfl, ?_⟩
    dsimp only
    split <;> exact hg

/-- The next generation begins without a channel. -/
theorem Owned.advance (h : Owned s) {t : GatewayWebUiTunnel} (hch : t.channels = s.channels)
    (hg : t.generation = s.generation + 1)
    (hc : t.channel = none) (hp : t.closed = false → ∀ id, t.served.pending.get id = none) : Owned t where
  past := fun c channel hcc => hg ▸ Nat.le_succ_of_le (h.past c channel (hch ▸ hcc))
  distinct := fun c d channel channel' hcc hd => h.distinct c d channel channel' (hch ▸ hcc) (hch ▸ hd)
  later := fun _ c channel hcc => hg ▸ Nat.lt_succ_of_le (h.past c channel (hch ▸ hcc))
  current := fun _ c hcc => by rw [hc] at hcc; cases hcc
  pending := fun hopen id i hi => by
    rw [hp hopen id] at hi
    cases hi

/-- What neither the generations nor the responses depend on is written. -/
theorem Owned.write (h : Owned s) {t : GatewayWebUiTunnel} (hch : t.channels = s.channels)
    (hg : t.generation = s.generation)
    (hc : t.channel = s.channel) (hcl : t.closed = s.closed) (hup : s.connected = true → t.connected = true)
    (hs : t.served = s.served) : Owned t where
  past := fun c channel hcc => hg ▸ h.past c channel (hch ▸ hcc)
  distinct := fun c d channel channel' hcc hd => h.distinct c d channel channel' (hch ▸ hcc) (hch ▸ hd)
  later := fun hcl' c channel hcc => hg ▸ h.later (hcl ▸ hcl') c channel (hch ▸ hcc)
  current := fun hopen c hcc => by
    rw [hch, hg]
    exact h.current (hcl ▸ hopen) c (hc ▸ hcc)
  pending := fun hopen id i hi => by
    obtain ⟨tag, htag, hch, hconn⟩ := h.pending (hcl ▸ hopen) id i (hs ▸ hi)
    exact ⟨tag, hs ▸ htag, hc.trans hch, hup hconn⟩

theorem Owned.schedule (h : Owned s) (expired : Bool) : Owned (s.scheduleReconnect expired) := by
  unfold scheduleReconnect
  split
  · exact h
  · exact h.write rfl rfl rfl rfl id rfl

theorem Owned.complete (h : Owned s) (ready : Option JsString) : Owned (s.complete ready) := by
  unfold GatewayWebUiTunnel.complete
  split
  · exact h.write rfl rfl rfl rfl id rfl
  · exact h

theorem Owned.none_pending (h : Owned s) (hopen : s.closed = false) (hdown : s.channel = none ∨ s.connected ≠ true)
    (id : JsString) :
    s.served.pending.get id = none := by
  cases hp : s.served.pending.get id with
  | none => rfl
  | some i =>
    obtain ⟨tag, -, hc, hup⟩ := h.pending hopen id i hp
    rcases hdown with hnone | hdown
    · rw [hnone] at hc
      cases hc
    · exact absurd hup hdown

theorem Owned.connect (h : Owned s) (hc : s.channel = none) (hopen : s.closed = false) (caller : Caller) :
    Owned (s.connect caller) := by
  have hnew : ∀ {c : Nat} {channel : TunnelChannel}, (s.connect caller).channels[c]? = some channel →
      s.channels[c]? = some channel ∨ c = s.channels.length ∧ channel.generation = s.generation + 1 := by
    intro c channel hcc
    rcases getElem_snoc.mp hcc with hcc | ⟨rfl, rfl⟩
    · exact Or.inl hcc
    · exact Or.inr ⟨rfl, rfl⟩
  refine ⟨fun c channel hcc => ?_, fun c d channel channel' hcc hd heq => ?_, fun hcl => ?_,
    fun _ c hcc => ?_, fun _ id i hi => ?_⟩
  · rcases hnew hcc with hcc | ⟨-, hg⟩
    · exact Nat.le_succ_of_le (h.past c channel hcc)
    · exact Nat.le_of_eq hg
  · rcases hnew hcc with hcc | ⟨hce, hg⟩ <;> rcases hnew hd with hd | ⟨hde, hg'⟩
    · exact h.distinct c d channel channel' hcc hd heq
    · have := h.past c channel hcc
      omega
    · have := h.past d channel' hd
      omega
    · rw [hce, hde]
  · have hcl : s.closed = true := hcl
    rw [hopen] at hcl
    cases hcl
  · cases hcc
    exact ⟨_, getElem_snoc.mpr (Or.inr ⟨rfl, rfl⟩), rfl⟩
  · have hi : s.served.pending.get id = some i := hi
    rw [h.none_pending hopen (Or.inl hc)] at hi
    cases hi

theorem Owned.abort (h : Owned s) (hg : s.closed = false → Good s) {caller : Caller} {c : Nat}
    (hconn : s.Connecting caller c)
    (unauthorized : Bool) : Owned (s.abort caller c unauthorized) := by
  unfold GatewayWebUiTunnel.abort
  split
  · refine h.advance rfl rfl rfl fun hopen id => ?_
    refine h.none_pending hopen (Or.inr fun hup => ?_) id
    have := ((hg hopen).up hup).2
    rw [hconn.facts.1] at this
    cases this
  · exact h.write rfl rfl rfl rfl id rfl

theorem Owned.lost (h : Owned s) (c : Nat) (expired : Bool) : Owned (s.lost c expired) := by
  unfold GatewayWebUiTunnel.lost
  split
  · exact h
  · have hdown : Owned { s with
        channel := none, generation := s.generation + 1, connected := false, tunnelId := none,
        served := s.served.failAll } :=
      h.advance rfl rfl rfl fun _ _ => rfl
    have hdrop := hdown.closeChannel c
    dsimp only
    split
    · exact hdrop.schedule expired
    · exact hdrop

theorem Owned.close (h : Owned s) : Owned s.close := by
  unfold GatewayWebUiTunnel.close
  split
  · exact h
  · refine Owned.complete ?_ none
    exact {
      past := fun c channel hc => Nat.le_succ_of_le (h.past c channel hc)
      distinct := h.distinct
      later := fun _ c channel hc => Nat.lt_succ_of_le (h.past c channel hc)
      current := nofun
      pending := nofun }

theorem Owned.refreshFailed (h : Owned s) (reason : RefreshFor) : Owned (s.refreshFailed reason) := by
  cases reason with
  | start => exact h.write rfl rfl rfl rfl id rfl
  | expired => exact (h.schedule false).write rfl rfl rfl rfl id rfl
  | unauthorized => exact (h.schedule true).write rfl rfl rfl rfl id rfl

theorem Owned.reconnect (h : Owned s) (hc : s.closed = false → s.channel = none) (expired : Bool) :
    Owned (s.reconnect expired) := by
  unfold GatewayWebUiTunnel.reconnect
  split
  · exact h
  · rename_i hn
    rw [not_or, Bool.not_eq_true] at hn
    have hrec : Owned { s with reconnecting := true } := h.write rfl rfl rfl rfl id rfl
    dsimp only
    split
    · exact hrec.write rfl rfl rfl rfl id rfl
    · exact hrec.connect (hc hn.1) hn.1 .reconnect

theorem Owned.respond (h : Owned s) (c : Nat) (id : JsString) (i : Nat) (part : WebUiResponsePart) :
    Owned (s.respond toLowerCase accepts c id i part) := by
  have hnote : Owned (s.serve (s.served.modify i fun r => { r with received := r.received ++ [part] })) :=
    h.serve (TunnelResponses.narrows_modify _ i fun _ => rfl)
  unfold GatewayWebUiTunnel.respond
  cases part with
  | start status headers =>
    dsimp only
    split
    · rename_i r hr
      have hstart := hnote.serve (w := (s.serve (s.served.modify i fun r =>
          { r with received := r.received ++ [.start status headers] })).served.modify i
          fun _ => (r.start toLowerCase accepts status headers).1)
            (TunnelResponses.narrows_put hr (r.start_tag status headers))
      split
      · exact hstart.lost c false
      · exact hstart
    · exact hnote
  | chunk body =>
    dsimp only
    split
    · exact hnote.serve (TunnelResponses.narrows_modify _ i fun r => r.add_tag _)
    · split
      · exact hnote.serve (TunnelResponses.narrows_cancelRequest ..)
      · exact hnote
  | «end» => exact hnote.serve ((TunnelResponses.narrows_delete _ id).trans
      (TunnelResponses.narrows_modify _ i fun r => r.end_tag))

theorem Owned.frame (h : Owned s) (c : Nat) (f : TunnelFrame) : Owned (s.frame toLowerCase accepts c f) := by
  unfold GatewayWebUiTunnel.frame
  split
  · split
    · exact h
    · cases f with
      | ready tunnelId => exact h.complete _
      | error => exact h.complete _
      | response tunnelId id part =>
        unfold handleFrame
        dsimp only
        split
        · exact h
        · split
          · exact h.respond c id _ part
          · exact h
  · exact h

/-- A request goes out on the channel that is connected. -/
theorem Owned.request (h : Owned s) {c : Nat} (hc : s.channel = some c) (hup : s.connected = true) :
    Owned (s.serve (s.served.request c)) := by
  refine { h with pending := fun hopen id i hi => ?_ }
  have htags : (s.serve (s.served.request c)).served.responses.map (·.tag) =
      s.served.responses.map (·.tag) ++ [(requestId s.served.nextRequest, c)] := List.map_append
  have hi : (s.served.pending.set (requestId s.served.nextRequest) s.served.responses.length).get id = some i := hi
  rw [htags]
  rw [OMap.get_set] at hi
  split at hi
  · cases hi
    exact ⟨_, getElem_snoc.mpr (Or.inr ⟨by rw [List.length_map], rfl⟩), hc, hup⟩
  · obtain ⟨tag, htag, hch⟩ := h.pending hopen id i hi
    exact ⟨tag, getElem_snoc.mpr (Or.inl htag), hch⟩

theorem owned_step (h : Owned s) (hg : s.closed = false → Good s) (e : TunnelEvent) :
    Owned (step toLowerCase accepts s e) := by
  cases e with
  | start =>
    unfold step
    dsimp only
    split
    · exact h
    · rename_i hn
      simp only [not_or, Bool.not_eq_true, ne_eq, not_not] at hn
      exact h.connect hn.2.1 hn.1 _
  | opened outcome =>
    change Owned (s.opened outcome)
    unfold GatewayWebUiTunnel.opened
    split
    · rename_i caller g c hf
      have hconn : s.Connecting caller c := ⟨g, Or.inl hf⟩
      cases outcome with
      | ready asked =>
        dsimp only
        split
        · exact h.abort hg hconn false
        · exact h.write rfl rfl rfl rfl id rfl
      | failed unauthorized => exact h.abort hg hconn unauthorized
    · exact h
  | frame c f => exact h.frame c f
  | ended c expired =>
    change Owned (s.ended c expired)
    unfold GatewayWebUiTunnel.ended
    split
    · split
      · exact (h.complete none).lost c expired
      · exact h.lost c expired
    · exact h.lost c expired
  | timedOut =>
    simp only [step]
    split
    · rename_i caller g c hf
      exact h.abort hg ⟨g, Or.inr ⟨none, hf⟩⟩ false
    · exact h
  | aborted =>
    simp only [step]
    split
    · exact (h.closeChannel _).write rfl rfl rfl rfl id rfl
    · exact h
  | goesOn =>
    change Owned s.goesOn
    unfold GatewayWebUiTunnel.goesOn
    split
    · rename_i caller g c ready hf
      have hconn : s.Connecting caller c := ⟨g, Or.inr ⟨some ready, hf⟩⟩
      split
      · rename_i tunnelId
        have hnamed : Owned { s with tunnelId := some tunnelId } := h.write rfl rfl rfl rfl id rfl
        split
        · exact hnamed.abort (fun hopen => { hg hopen with }) hconn false
        · exact hnamed.write rfl rfl rfl rfl (fun _ => rfl) rfl
      · exact h.abort hg hconn false
    · exact h.write rfl rfl rfl rfl id rfl
    · exact h.write rfl rfl rfl rfl id rfl
    · exact h.write rfl rfl rfl rfl id rfl
    · split
      · exact h.write rfl rfl rfl rfl id rfl
      · split
        · exact h.write rfl rfl rfl rfl id rfl
        · exact (h.schedule false).write rfl rfl rfl rfl id rfl
    · exact h
  | refreshed outcome =>
    change Owned (s.refreshed outcome)
    unfold GatewayWebUiTunnel.refreshed
    split
    · rename_i reason hf
      split
      · rename_i accessToken _
        split
        · exact h.refreshFailed reason
        · rename_i hopen
          have hopen : s.closed = false := by simpa using hopen
          have htoken : Owned { s with accessToken } := h.write rfl rfl rfl rfl id rfl
          have hc := ((hg hopen).none_of_rest (hf ▸ ⟨fun _ _ => id, fun _ => id⟩) (by rw [hf]; rfl)).2
          cases reason with
          | start => exact htoken.connect hc hopen _
          | expired => exact htoken.connect hc hopen _
          | unauthorized => exact (htoken.schedule false).write rfl rfl rfl rfl id rfl
      · exact h.close.refreshFailed reason
      · exact h.refreshFailed reason
      · exact h.refreshFailed reason
    · exact h
  | bound =>
    change Owned s.bound
    unfold GatewayWebUiTunnel.bound
    split
    · split
      · exact h.write rfl rfl rfl rfl id rfl
      · have hs : Owned { s with server := true, flow := .idle } := h.write rfl rfl rfl rfl id rfl
        dsimp only
        split
        · exact hs
        · exact hs.schedule false
    · exact h
  | fires t =>
    change Owned (s.fires t)
    unfold GatewayWebUiTunnel.fires
    split
    · rename_i timer ht
      split
      · rename_i hfire
        have hdisarmed : Owned { s with timers := s.timers.set t { timer with armed := false }, retry := none } :=
          h.write rfl rfl rfl rfl id rfl
        refine hdisarmed.reconnect (fun hopen => ?_) _
        have hretry := ((hg hopen).timers t timer ht).mp hfire.1
        exact ((hg hopen).due (by rw [hretry]; exact nofun)).2.1
      · exact h
    · exact h
  | resume afterSleep =>
    change Owned (s.resume afterSleep)
    unfold GatewayWebUiTunnel.resume
    split
    · exact h
    · have hdrop : ∀ t : GatewayWebUiTunnel, Owned t → Owned (if t.connected = true ∨ t.channel ≠ none then t
          else ({ t with timers := t.cancelRetry, retry := none } : GatewayWebUiTunnel).reconnect false) := by
        intro t ht
        split
        · exact ht
        · rename_i hdown
          rw [not_or, not_not] at hdown
          have hdisarmed : Owned { t with timers := t.cancelRetry, retry := none } := ht.write rfl rfl rfl rfl id rfl
          exact hdisarmed.reconnect (fun _ => hdown.2) false
      dsimp only
      split
      · split
        · exact hdrop _ (h.lost _ false)
        · exact hdrop _ h
      · exact hdrop _ h
  | lost c expired => exact h.lost c expired
  | renewed outcome =>
    cases outcome with
    | token accessToken =>
      change Owned (if s.closed = true then s else { s with accessToken })
      split
      · exact h
      · exact h.write rfl rfl rfl rfl id rfl
    | null => exact h.close
    | dioException => exact h
    | threw => exact h
  | request =>
    change Owned s.request
    unfold GatewayWebUiTunnel.request
    split
    · rename_i c hc
      split
      · rename_i hup
        exact h.request hc hup.1
      · exact h
    · exact h
  | gone i =>
    change Owned (s.gone i)
    unfold gone
    split
    · exact h.serve (TunnelResponses.narrows_cancelRequest ..)
    · exact h
  | wrote i outcome =>
    change Owned (s.wrote i outcome)
    unfold wrote
    split
    · split
      · exact h
      · have hwrote : Owned (s.serve (s.served.modify i (·.wrote outcome))) :=
          h.serve (TunnelResponses.narrows_modify _ i fun r => r.wrote_tag outcome)
        dsimp only
        split
        · exact hwrote.serve (TunnelResponses.narrows_cancelRequest ..)
        · exact hwrote
    · exact h
  | close => exact h.close
  | teardown =>
    simp only [step]
    split
    · refine Owned.serve ?_ ?_
      · split
        · exact h.closeChannel _
        · exact h
      · split <;> exact TunnelResponses.narrows_failAll _
    · exact h

theorem lost_served (s : GatewayWebUiTunnel) (c : Nat) (expired : Bool) :
    (s.lost c expired).served = s.served ∨ (s.lost c expired).served = s.served.failAll := by
  unfold GatewayWebUiTunnel.lost
  split
  · exact Or.inl rfl
  · refine Or.inr ?_
    dsimp only
    split
    · unfold scheduleReconnect
      split <;> rfl
    · rfl

/-- A part changes the response it came for, or fails the pending ones. -/
theorem respond_get {id : JsString} {i j : Nat} (hne : i ≠ j) (hj : j ∉ s.served.pending.values)
    (c : Nat) (part : WebUiResponsePart) :
    (s.respond toLowerCase accepts c id i part).served.responses[j]? = s.served.responses[j]? := by
  have hget : ∀ (w : TunnelResponses) (f : TunnelResponse → TunnelResponse),
    (w.modify i f).responses[j]? = w.responses[j]? :=
    fun w f => TunnelResponses.modify_get_ne hne
  unfold GatewayWebUiTunnel.respond
  cases part with
  | start status headers =>
    dsimp only
    split
    · split
      · rcases lost_served (GatewayWebUiTunnel.serve _ _) c false with h | h
        · rw [h]
          exact (hget _ _).trans (hget _ _)
        · rw [h]
          refine (TunnelResponses.failAll_get ?_).trans ((hget _ _).trans (hget _ _))
          exact hj
      · exact (hget _ _).trans (hget _ _)
    · exact hget _ _
  | chunk body =>
    dsimp only
    split
    · exact (hget _ _).trans (hget _ _)
    · split
      · exact (TunnelResponses.cancelRequest_get_ne hne).trans (hget _ _)
      · exact hget _ _
  | «end» => exact (hget _ _).trans (hget _ _)

/-- The channel whose frames are heard is the pending responses' own. -/
theorem Owned.channel_of_pending (h : Owned s) {c : Nat} {channel : TunnelChannel} (hc : s.channels[c]? = some channel)
    (hg : channel.generation = s.generation) {id : JsString} {i : Nat} (hi : s.served.pending.get id = some i)
    {r : TunnelResponse}
    (hr : s.served.responses[i]? = some r) : r.channel = c := by
  have hopen : s.closed = false := by
    refine Bool.eq_false_iff.mpr fun hclosed => ?_
    have := h.later hclosed c channel hc
    omega
  obtain ⟨tag, htag, hch, -⟩ := h.pending hopen id i hi
  obtain ⟨channel', hc', hg'⟩ := h.current hopen tag.2 hch
  rw [List.getElem?_map, hr] at htag
  cases htag
  exact h.distinct _ _ _ _ hc' hc (hg'.trans hg.symm)

theorem Owned.frame_get (h : Owned s) (c : Nat) (f : TunnelFrame) {i : Nat} {r : TunnelResponse}
    (hr : s.served.responses[i]? = some r)
    (hne : r.channel ≠ c) : (s.frame toLowerCase accepts c f).served.responses[i]? = some r := by
  unfold GatewayWebUiTunnel.frame
  split
  · rename_i channel hc
    split
    · exact hr
    · rename_i hg
      rw [ne_eq, not_not] at hg
      cases f with
      | ready tunnelId => exact (congrArg (·.responses[i]?) (complete_keeps s _).served).trans hr
      | error => exact (congrArg (·.responses[i]?) (complete_keeps s _).served).trans hr
      | response tunnelId id part =>
        unfold handleFrame
        dsimp only
        split
        · exact hr
        · split
          · rename_i j hj
            refine (respond_get ?_ ?_ c part).trans hr
            · rintro rfl
              exact hne (h.channel_of_pending hc hg hj hr)
            · intro hi
              obtain ⟨id', hid⟩ := OMap.mem_values.mp hi
              exact hne (h.channel_of_pending hc hg hid hr)
          · exact hr
  · exact hr

/-! ## Whole runs -/

theorem respond_closed (s : GatewayWebUiTunnel) (c : Nat) (id : JsString) (i : Nat) (part : WebUiResponsePart) :
    (s.respond toLowerCase accepts c id i part).closed = s.closed := by
  unfold GatewayWebUiTunnel.respond
  cases part with
  | start status headers =>
    dsimp only
    split
    · split
      · exact (lost_same _ c false).2.2
      · rfl
    · rfl
  | chunk body =>
    dsimp only
    split
    · rfl
    · split <;> rfl
  | «end» => rfl

theorem frame_closed (s : GatewayWebUiTunnel) (c : Nat) (f : TunnelFrame) :
    (s.frame toLowerCase accepts c f).closed = s.closed := by
  unfold GatewayWebUiTunnel.frame
  split
  · split
    · rfl
    · cases f with
      | ready tunnelId => exact (complete_keeps s _).closed
      | error => exact (complete_keeps s _).closed
      | response tunnelId id part =>
        unfold handleFrame
        dsimp only
        split
        · rfl
        · split
          · exact respond_closed s c id _ part
          · rfl
  · rfl

/-- A tunnel that was closed stays closed. -/
theorem closed_step (hclosed : s.closed = true) (e : TunnelEvent) : (step toLowerCase accepts s e).closed = true := by
  cases e with
  | start =>
    simp only [step, hclosed, true_or, if_true]
  | opened outcome =>
    change (s.opened outcome).closed = true
    unfold GatewayWebUiTunnel.opened
    split
    · cases outcome with
      | ready asked =>
        dsimp only
        split
        · exact (abort_keeps ..).closed.trans hclosed
        · exact hclosed
      | failed unauthorized => exact (abort_keeps ..).closed.trans hclosed
    · exact hclosed
  | frame c f => exact (frame_closed s c f).trans hclosed
  | ended c expired =>
    refine ((lost_same _ c expired).2.2).trans ?_
    split
    · split
      · exact (complete_keeps s none).closed.trans hclosed
      · exact hclosed
    · exact hclosed
  | timedOut =>
    simp only [step]
    split
    · exact (abort_keeps ..).closed.trans hclosed
    · exact hclosed
  | aborted =>
    simp only [step]
    split <;> exact hclosed
  | goesOn =>
    change s.goesOn.closed = true
    unfold GatewayWebUiTunnel.goesOn
    simp only [hclosed, true_or, if_true]
    split
    · split
      · exact (abort_keeps ..).closed
      · exact (abort_keeps ..).closed.trans hclosed
    · rfl
    · exact hclosed
    · rfl
    · exact hclosed
    · exact hclosed
  | refreshed outcome =>
    change (s.refreshed outcome).closed = true
    unfold GatewayWebUiTunnel.refreshed
    simp only [hclosed, if_true]
    split
    · split
      · exact (refreshFailed_keeps ..).closed.trans hclosed
      · exact (refreshFailed_keeps ..).closed.trans (close_closed s)
      · exact (refreshFailed_keeps ..).closed.trans hclosed
      · exact (refreshFailed_keeps ..).closed.trans hclosed
    · exact hclosed
  | bound =>
    change s.bound.closed = true
    unfold GatewayWebUiTunnel.bound
    simp only [hclosed, if_true]
    split
    · rfl
    · exact hclosed
  | fires t =>
    change (s.fires t).closed = true
    unfold GatewayWebUiTunnel.fires
    split
    · split
      · exact (reconnect_keeps ..).closed.trans hclosed
      · exact hclosed
    · exact hclosed
  | resume afterSleep =>
    simp only [step, GatewayWebUiTunnel.resume, hclosed, true_or, if_true]
  | lost c expired => exact ((lost_same s c expired).2.2).trans hclosed
  | renewed outcome =>
    cases outcome with
    | token accessToken =>
      simp only [step, GatewayWebUiTunnel.renewed, hclosed, if_true]
    | null => exact close_closed s
    | dioException => exact hclosed
    | threw => exact hclosed
  | request =>
    change s.request.closed = true
    unfold GatewayWebUiTunnel.request
    split
    · split <;> exact hclosed
    · exact hclosed
  | gone i =>
    change (s.gone i).closed = true
    unfold gone
    split <;> exact hclosed
  | wrote i outcome =>
    change (s.wrote i outcome).closed = true
    unfold wrote
    split
    · split
      · exact hclosed
      · dsimp only
        split <;> exact hclosed
    · exact hclosed
  | close => exact close_closed s
  | teardown =>
    simp only [step, hclosed, if_true]
    split <;> exact hclosed

theorem good_open_step (h : s.closed = false → Good s) (e : TunnelEvent) :
    (step toLowerCase accepts s e).closed = false → Good (step toLowerCase accepts s e) := by
  intro hstill
  have hopen : s.closed = false := by
    refine Bool.eq_false_iff.mpr fun hclosed => ?_
    have hstays : (step toLowerCase accepts s e).closed = true := closed_step hclosed e
    rw [hstill] at hstays
    cases hstays
  exact good_step (h hopen) hopen e hstill

theorem good_run (accessToken : JsString) (hasRefresh : Bool) (es : List TunnelEvent) :
    ((run toLowerCase accepts accessToken hasRefresh es).closed = false →
      Good (run toLowerCase accepts accessToken hasRefresh es)) ∧
      Owned (run toLowerCase accepts accessToken hasRefresh es) := by
  exact runFrom_inv (I := fun s => (s.closed = false → Good s) ∧ Owned s)
    (fun s e h => ⟨good_open_step h.1 e, owned_step h.2 h.1 e⟩)
      ⟨fun _ => good_init accessToken hasRefresh, owned_init accessToken hasRefresh⟩ es

theorem Good.one_timer (h : Good s) (t u : Nat) (timer timer' : RetryTimer) (ht : s.timers[t]? = some timer)
    (hu : s.timers[u]? = some timer') (harmed : timer.armed = true) (harmed' : timer'.armed = true) : t = u := by
  have hretry := (h.timers t timer ht).mp harmed
  exact Option.some.inj (hretry.symm.trans ((h.timers u timer' hu).mp harmed'))

theorem aborts_inj {f : Flow} {c d : Nat} (hc : f.aborts c) (hd : f.aborts d) : c = d := by
  cases f with
  | aborting caller channel unauthorized => exact hc.symm.trans hd
  | _ => exact hc.elim

theorem Wired.not_aborts (h : Wired s) {c : Nat} (hc : s.channel = some c) (d : Nat) : ¬ s.flow.aborts d := by
  intro ha
  cases hf : s.flow with
  | aborting caller channel unauthorized =>
    rcases h.held c hc with hup | hh
    · have := (h.up hup).2
      rw [hf] at this
      cases this
    · rw [hf] at hh
      exact hh
  | _ =>
    rw [hf] at ha
    exact ha

theorem Good.one_channel (h : Good s) (c d : Nat) (channel channel' : TunnelChannel)
    (hc : s.channels[c]? = some channel)
    (hd : s.channels[d]? = some channel') (hopen : channel.isOpen = true) (hopen' : channel'.isOpen = true) :
    c = d := by
  rcases h.channels c channel hc hopen with hs | ha <;> rcases h.channels d channel' hd hopen' with hs' | ha'
  · exact Option.some.inj (hs.symm.trans hs')
  · exact absurd ha' (h.not_aborts hs d)
  · exact absurd ha (h.not_aborts hs' c)
  · exact aborts_inj ha ha'

/-- From where `start` has returned and until `close`. -/
theorem never_stuck (toLowerCase : JsString → JsString) (accepts : JsString × JsString → Bool) (accessToken : JsString)
    (hasRefresh : Bool) (es : List TunnelEvent) :
    let s := run toLowerCase accepts accessToken hasRefresh es
    s.server = true → s.closed = false →
      (s.connected = true ∧ s.channel ≠ none ∨ s.reconnecting = true ∧ s.flow.reconnects = true ∨
        ∃ t timer, s.retry = some t ∧ s.timers[t]? = some timer ∧ timer.armed = true) ∧
      (∀ (t u : Nat) (timer timer' : RetryTimer), s.timers[t]? = some timer → s.timers[u]? = some timer' →
        timer.armed = true → timer'.armed = true → t = u) ∧
      (∀ (c d : Nat) (channel channel' : TunnelChannel), s.channels[c]? = some channel →
        s.channels[d]? = some channel' →
        channel.isOpen = true → channel'.isOpen = true → c = d) ∧
      ∀ (c : Nat) (f : TunnelFrame) (i : Nat) (r : TunnelResponse), s.served.responses[i]? = some r → r.channel ≠ c →
        (step toLowerCase accepts s (.frame c f)).served.responses[i]? = some r := by
  intro s hserver hopen
  obtain ⟨hgood, howned⟩ := good_run accessToken hasRefresh es
  have hgood := hgood hopen
  refine ⟨?_, hgood.one_timer, hgood.one_channel, fun c f i r hr hne => howned.frame_get c f hr hne⟩
  rcases hgood.progress hserver with hup | hrec | hretry
  · exact Or.inl ⟨hup, (hgood.up hup).1⟩
  · exact Or.inr (Or.inl ⟨hrec, hgood.reconnects.symm.trans hrec⟩)
  · obtain ⟨t, ht⟩ := Option.ne_none_iff_exists'.mp hretry
    have htimer := List.getElem?_eq_getElem (hgood.timer t ht)
    exact Or.inr (Or.inr ⟨t, _, ht, htimer, (hgood.timers t _ htimer).mpr ht⟩)

/-- The tunnel stands, and its channel goes while nothing else is at work. -/
theorem lost_tunnel_retries :
    let s := run id (fun _ => true) (js "a") true
      [.start, .opened (.ready true), .frame 0 (.ready (js "t")), .goesOn, .goesOn, .bound, .ended 0 false]
    ∃ t timer, s.retry = some t ∧ s.timers[t]? = some timer ∧ timer.armed = true := by
  intro s
  have hprog := (never_stuck id (fun _ => true) (js "a") true
    [.start, .opened (.ready true), .frame 0 (.ready (js "t")), .goesOn, .goesOn, .bound, .ended 0 false]
    (by decide +kernel) (by decide +kernel)).1
  exact (hprog.resolve_left (by decide +kernel)).resolve_left (by decide +kernel)

end GatewayWebUiTunnel

end NotifyHub.Client
