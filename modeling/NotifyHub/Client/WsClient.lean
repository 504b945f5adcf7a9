/-
  NotifyHub.Client.WsClient — the run loops of the realtime client
  (`GatewayWsClient`, apps/client/lib/realtime/ws_client.dart).

  A run loop is known by its place in the order they were started, and so are a channel
  and a wait (a timer with its completer). A loop goes on where what it awaits has come:
  a refresh, the channel, a frame, the end of the channel's stream (which leaves the
  channel closed), or a wait. Whoever else holds the token writes it at any time.

  - `inert_iff`: the state is orderly throughout (one loop that is not stale, one open
    channel for each loop, a `disconnect` that cancels the wait of the live loop), and no
    stale loop writes what the loops share, exactly in the runs in which no stale loop
    sees its first refresh throw (`ThrowsLive`).
  - `stale_loop_takes_the_timer`: a loop whose refresh throws waits without asking
    whether it is stale, and takes the timer of the live loop's wait.
-/

import NotifyHub.Client.AuthInterceptor
import NotifyHub.Lib.Rows

namespace NotifyHub.Client

inductive WsStatus where
  | disconnected
  | connecting
  | connected
  deriving DecidableEq

/-- What makes a run loop refresh. -/
inductive RefreshReason where
  /-- No token is held. -/
  | missing
  /-- The upgrade was refused, or the connection closed, for the token's sake. -/
  | refused
  deriving DecidableEq

/-- Where a run loop is suspended. -/
inductive Suspended where
  | refreshing (reason : RefreshReason)
  | opening (channel : Nat)
  | streaming (channel : Nat)
  | backoff (wait : Nat)
  | returned
  deriving DecidableEq

structure RunLoop where
  epoch : Nat
  attempt : Nat
  authRetried : Bool
  suspended : Suspended
  deriving DecidableEq

structure WsChannel where
  loop : Nat
  /-- The `Authorization` header. -/
  authorization : JsString
  isOpen : Bool
  deriving DecidableEq

structure BackoffWait where
  /-- The delay before the jitter. -/
  ms : Nat
  /-- The timer has neither fired nor been cancelled. -/
  armed : Bool
  completed : Bool
  deriving DecidableEq

structure GatewayWsClient where
  running : Bool
  epoch : Nat
  lastStatus : WsStatus
  channel : Option Nat
  reconnectTimer : Option Nat
  cancelWait : Option Nat
  accessToken : Option JsString
  loops : List RunLoop
  channels : List WsChannel
  waits : List BackoffWait
  /-- The events of the `status` stream. -/
  status : List WsStatus

def GatewayWsClient.init : GatewayWsClient := ⟨false, 0, .disconnected, none, none, none, none, [], [], [], []⟩

def backoffDelay (attempt : Nat) : Nat := min (500 * 2 ^ min attempt 6) 30000

inductive OpenOutcome where
  | ready
  | failed (unauthorized : Bool)
  deriving DecidableEq

inductive WsEvent where
  | connect
  | disconnect
  | refreshed (loop : Nat) (outcome : RefreshOutcome)
  | opened (loop : Nat) (outcome : OpenOutcome)
  | frame (loop : Nat)
  /-- The stream is done, or ends with an error. -/
  | closed (loop : Nat) (closeCode : Option Nat)
  | fires (wait : Nat)
  /-- The wait is over, and its loop goes on. -/
  | waited (loop : Nat)
  /-- Another holder writes the token. -/
  | holds (accessToken : Option JsString)
  deriving DecidableEq

/-- The loop that goes on. -/
def WsEvent.loop : WsEvent → Option Nat
  | .refreshed i _ | .opened i _ | .frame i | .closed i _ | .waited i => some i
  | _ => none

namespace GatewayWsClient

variable (s : GatewayWsClient)

def setStatus (status : WsStatus) : GatewayWsClient :=
  { s with lastStatus := status, status := if status = s.lastStatus then s.status else s.status ++ [status] }

def suspend (i : Nat) (l : RunLoop) (suspended : Suspended) : GatewayWsClient :=
  { s with loops := s.loops.set i { l with suspended } }

/-- `isStale() || !_running` -/
def Left (l : RunLoop) : Prop := l.epoch ≠ s.epoch ∨ s.running = false

instance (l : RunLoop) : Decidable (s.Left l) := inferInstanceAs (Decidable (_ ∨ _))

/-- `_stop`, and the loop returns. -/
def stop (i : Nat) (l : RunLoop) : GatewayWsClient :=
  (({ s with running := false }).setStatus .disconnected).suspend i l .returned

def close (c : Nat) : GatewayWsClient :=
  { s with channels := s.channels.modify c fun channel => { channel with isOpen := false } }

/-- `_openChannel`, up to where it waits for the channel. -/
def openChannel (i : Nat) (l : RunLoop) (token : JsString) : GatewayWsClient :=
  ({ s with channels := s.channels ++ [⟨i, js "Bearer " ++ token, true⟩] } : GatewayWsClient).suspend i l
    (.opening s.channels.length)

/-- `_waitBackoff`, up to where it waits. -/
def waitBackoff (i : Nat) (l : RunLoop) : GatewayWsClient :=
  ({ s with
    waits := s.waits ++ [⟨backoffDelay l.attempt, true, false⟩]
    reconnectTimer := some s.waits.length
    cancelWait := some s.waits.length } : GatewayWsClient).suspend i { l with attempt := l.attempt + 1 }
      (.backoff s.waits.length)

/-- The loop is at its head. -/
def turn (i : Nat) (l : RunLoop) : GatewayWsClient :=
  if s.Left l then s.suspend i l .returned
  else
    let s := s.setStatus .connecting
    match s.accessToken with
    | none => s.suspend i l (.refreshing .missing)
    | some token => s.openChannel i l token

def connect : GatewayWsClient :=
  if s.running then s
  else
    let l : RunLoop := ⟨s.epoch, 0, false, .returned⟩
    ({ s with running := true, loops := s.loops ++ [l] }).turn s.loops.length l

/-- `_reconnectTimer?.cancel()` and `_cancelWait?.call()` -/
def endWait : List BackoffWait :=
  let waits := match s.reconnectTimer with
    | some t => s.waits.modify t fun wait => { wait with armed := false }
    | none => s.waits
  match s.cancelWait with
  | some w => waits.modify w fun wait => { wait with completed := true }
  | none => waits

def disconnect : GatewayWsClient :=
  if s.running = false then s
  else
    let t : GatewayWsClient :=
      { s with
        running := false, epoch := s.epoch + 1, waits := s.endWait
        reconnectTimer := none, cancelWait := none, channel := none }
    (match s.channel with
    | some c => t.close c
    | none => t).setStatus .disconnected

/-- The refresh for a missing token has ended. -/
def refreshedMissing (i : Nat) (l : RunLoop) : RefreshOutcome → GatewayWsClient
  | .dioException | .threw => s.waitBackoff i l
  | .null => if s.Left l then s.suspend i l .returned else s.stop i l
  | .token token =>
    if s.Left l then s.suspend i l .returned else ({ s with accessToken := some token }).openChannel i l token

/-- The refresh for a token that was refused has ended. -/
def refreshedRefused (i : Nat) (l : RunLoop) : RefreshOutcome → GatewayWsClient
  | .dioException | .threw | .null => if s.Left l then s.suspend i l .returned else s.stop i l
  | .token token =>
    if s.Left l then s.suspend i l .returned
      else ({ s with accessToken := some token }).turn i { l with authRetried := true }

/-- The gateway refuses the token. -/
def refused (i : Nat) (l : RunLoop) : GatewayWsClient :=
  if l.authRetried then s.stop i l else s.suspend i l (.refreshing .refused)

def opened (i : Nat) (l : RunLoop) (c : Nat) : OpenOutcome → GatewayWsClient
  | .ready =>
    if s.Left l then (s.close c).suspend i l .returned
    else (({ s with channel := some c }).setStatus .connected).suspend i { l with authRetried := false } (.streaming c)
  | .failed unauthorized =>
    let s := s.close c
    if s.Left l then s.suspend i l .returned
    else if unauthorized then s.refused i l
    else s.waitBackoff i l

/-- What the frame says goes to the listeners of `events` and `instancePresences`. -/
def frame (i : Nat) (l : RunLoop) (c : Nat) : GatewayWsClient :=
  s.suspend i { l with attempt := 0, authRetried := false } (if s.Left l then .returned else .streaming c)

def closed (i : Nat) (l : RunLoop) (c : Nat) (closeCode : Option Nat) : GatewayWsClient :=
  let s := s.close c
  if s.Left l then s.suspend i l .returned
  else
    let s := { s with channel := none }
    if closeCode = some 4401 ∨ closeCode = some 401 then s.refused i l else s.waitBackoff i l

/-- The timer completes the wait. -/
def fires (w : Nat) : GatewayWsClient :=
  { s with waits := s.waits.modify w fun wait => if wait.armed then { wait with armed := false, completed := true }
    else wait }

/-- The rest of `_waitBackoff`. -/
def waited (i : Nat) (l : RunLoop) (w : Nat) : GatewayWsClient :=
  if (s.waits[w]?.map (·.completed)).getD false then
    (if l.epoch = s.epoch then { s with reconnectTimer := none, cancelWait := none } else s).turn i l
  else s

def step (s : GatewayWsClient) (e : WsEvent) : GatewayWsClient :=
  match e with
  | .connect => s.connect
  | .disconnect => s.disconnect
  | .fires w => s.fires w
  | .holds accessToken => { s with accessToken }
  | .refreshed i outcome =>
    match s.loops[i]? with
    | some l =>
      match l.suspended with
      | .refreshing .missing => s.refreshedMissing i l outcome
      | .refreshing .refused => s.refreshedRefused i l outcome
      | _ => s
    | none => s
  | .opened i outcome =>
    match s.loops[i]? with
    | some l =>
      match l.suspended with
      | .opening c => s.opened i l c outcome
      | _ => s
    | none => s
  | .frame i =>
    match s.loops[i]? with
    | some l =>
      match l.suspended with
      | .streaming c => s.frame i l c
      | _ => s
    | none => s
  | .closed i closeCode =>
    match s.loops[i]? with
    | some l =>
      match l.suspended with
      | .streaming c => s.closed i l c closeCode
      | _ => s
    | none => s
  | .waited i =>
    match s.loops[i]? with
    | some l =>
      match l.suspended with
      | .backoff w => s.waited i l w
      | _ => s
    | none => s

abbrev run (es : List WsEvent) : GatewayWsClient := runFrom step .init es

/-! ## What the loops share -/

/-- What a loop may write for others to see. -/
structure Shared where
  lastStatus : WsStatus
  accessToken : Option JsString
  channel : Option Nat
  reconnectTimer : Option Nat
  cancelWait : Option Nat
  deriving DecidableEq

def shared : Shared := ⟨s.lastStatus, s.accessToken, s.channel, s.reconnectTimer, s.cancelWait⟩

/-- The loop that goes on is stale. -/
def Stale (e : WsEvent) : Prop := ∃ i l, e.loop = some i ∧ s.loops[i]? = some l ∧ l.epoch ≠ s.epoch

/-- A stale loop writes nothing that is shared. -/
def Inert (e : WsEvent) : Prop := s.Stale e → (step s e).shared = s.shared

/-- No stale loop sees the refresh for a missing token throw. -/
def ThrowsLive (s : GatewayWsClient) : WsEvent → Prop
  | .refreshed i .dioException | .refreshed i .threw =>
    ∀ l, s.loops[i]? = some l → l.suspended = .refreshing .missing → l.epoch = s.epoch
  | _ => True

/-! ## The invariant -/

/-- The loop can still go on in this epoch. -/
def Live (l : RunLoop) : Prop := l.epoch = s.epoch ∧ l.suspended ≠ .returned

/-- The state between two steps; `P` says that no stale loop has thrown so far. -/
structure Sound (P : Prop) (s : GatewayWsClient) : Prop where
  epochs : ∀ (i : Nat) (l : RunLoop), s.loops[i]? = some l → l.epoch ≤ s.epoch
  single : ∀ (i j : Nat) (l l' : RunLoop), s.loops[i]? = some l → s.loops[j]? = some l' → s.Live l → s.Live l' → i = j
  running : ∀ (i : Nat) (l : RunLoop), s.loops[i]? = some l → s.Live l → s.running = true
  /-- A channel is open while its loop waits for it, or streams it and is not stale. -/
  channels : ∀ (c : Nat) (channel : WsChannel), s.channels[c]? = some channel → channel.isOpen = true →
    ∃ l, s.loops[channel.loop]? = some l ∧ (l.suspended = .opening c ∨ l.suspended = .streaming c ∧ l.epoch = s.epoch)
  owner : ∀ (i : Nat) (l : RunLoop) (c : Nat), s.loops[i]? = some l → l.suspended = .opening c →
    ∃ channel, s.channels[c]? = some channel ∧ channel.loop = i
  current : ∀ (i : Nat) (l : RunLoop) (c : Nat), s.loops[i]? = some l → l.epoch = s.epoch → l.suspended = .streaming c →
    s.channel = some c
  waits : ∀ (i : Nat) (l : RunLoop) (w : Nat), s.loops[i]? = some l → l.suspended = .backoff w → w < s.waits.length
  timer : ∀ w, s.reconnectTimer = some w → w < s.waits.length
  /-- The live loop's wait is the one that `disconnect` ends. -/
  cancels : P → ∀ (i : Nat) (l : RunLoop) (w : Nat), s.loops[i]? = some l → l.epoch = s.epoch →
    l.suspended = .backoff w →
    s.reconnectTimer = some w ∧ s.cancelWait = some w

/-- The loop at place `i` has the floor, and no open channel. -/
structure Hand (P : Prop) (s : GatewayWsClient) (i epoch : Nat) : Prop where
  placed : i < s.loops.length
  sound : ∀ l : RunLoop, l.epoch = epoch → Sound P (s.suspend i l .returned)
  alone : epoch = s.epoch → s.running = true ∧ ∀ (j : Nat) (l : RunLoop), j ≠ i → s.loops[j]? = some l → ¬ s.Live l

section
variable {P : Prop} {s : GatewayWsClient} {i j : Nat} {l m : RunLoop} {x : Suspended}

theorem suspend_self (hi : i < s.loops.length) : (s.suspend i l x).loops[i]? = some { l with suspended := x } :=
  List.getElem?_set_self hi

theorem suspend_other (hij : i ≠ j) : (s.suspend i l x).loops[j]? = s.loops[j]? := List.getElem?_set_ne hij

theorem suspend_cases (hi : i < s.loops.length) (h : (s.suspend i l x).loops[j]? = some m) :
    j = i ∧ m = { l with suspended := x } ∨ j ≠ i ∧ s.loops[j]? = some m := by
  by_cases hij : i = j
  · subst hij
    rw [suspend_self hi] at h
    exact Or.inl ⟨rfl, (Option.some.inj h).symm⟩
  · rw [suspend_other hij] at h
    exact Or.inr ⟨fun he => hij he.symm, h⟩

theorem not_left (h : ¬ s.Left l) : l.epoch = s.epoch ∧ s.running = true := by
  rw [Left, not_or, not_not] at h
  exact ⟨h.1, by simpa using h.2⟩

/-- The loop suspends itself; a channel it has opened is one that it waits for. -/
theorem Hand.wake (h : Hand P s i l.epoch) {channels : List WsChannel}
    (hc : ∀ (c : Nat) (channel : WsChannel), channels[c]? = some channel → channel.isOpen = true →
      s.channels[c]? = some channel ∨ channel.loop = i ∧ (x = .opening c ∨ x = .streaming c ∧ l.epoch = s.epoch))
    (hold : ∀ (c : Nat) (channel : WsChannel), s.channels[c]? = some channel →
      ∃ channel', channels[c]? = some channel' ∧ channel'.loop = channel.loop)
    (hown : ∀ c, x = .opening c → ∃ channel, channels[c]? = some channel ∧ channel.loop = i)
    (hs : ∀ c, x = .streaming c → l.epoch = s.epoch → s.channel = some c)
    (hw : ∀ w, x = .backoff w → w < s.waits.length ∧
      (P → l.epoch = s.epoch → s.reconnectTimer = some w ∧ s.cancelWait = some w)) :
    Sound P (({ s with channels } : GatewayWsClient).suspend i l x) := by
  have h0 := h.sound l rfl
  have hself : (s.suspend i l .returned).loops[i]? = some { l with suspended := .returned } := suspend_self h.placed
  have old : ∀ {j : Nat} {m : RunLoop}, j ≠ i → s.loops[j]? = some m → (s.suspend i l .returned).loops[j]? = some m :=
    fun hj hm => (suspend_other (Ne.symm hj)).trans hm
  refine ⟨fun j m hm => ?_, fun j k m m' hm hm' hl hl' => ?_, fun j m hm hl => ?_, fun c channel hch hopen => ?_,
    fun j m c hm hx => ?_, fun j m c hm he hx => ?_, fun j m w hm hx => ?_, h0.timer, fun hP j m w hm he hx => ?_⟩
  · rcases suspend_cases h.placed hm with ⟨-, rfl⟩ | ⟨hj, hold⟩
    · exact (h0.epochs _ _ hself :)
    · exact h0.epochs j m (old hj hold)
  · rcases suspend_cases h.placed hm with ⟨hj, rfl⟩ | ⟨hj, hold⟩
    · rcases suspend_cases h.placed hm' with ⟨hk, -⟩ | ⟨hk, hold'⟩
      · rw [hj, hk]
      · exact absurd hl' ((h.alone hl.1).2 k m' hk hold')
    · rcases suspend_cases h.placed hm' with ⟨-, rfl⟩ | ⟨hk, hold'⟩
      · exact absurd hl ((h.alone hl'.1).2 j m hj hold)
      · exact h0.single j k m m' (old hj hold) (old hk hold') hl hl'
  · rcases suspend_cases h.placed hm with ⟨-, rfl⟩ | ⟨hj, hold⟩
    · exact (h.alone hl.1).1
    · exact h0.running j m (old hj hold) hl
  · rcases hc c channel hch hopen with hwas | ⟨rfl, hx⟩
    · obtain ⟨m, hm, hx⟩ := h0.channels c channel hwas hopen
      rcases suspend_cases h.placed hm with ⟨-, rfl⟩ | ⟨hj, hold⟩
      · rcases hx with hx | ⟨hx, -⟩ <;> cases hx
      · exact ⟨m, (suspend_other (Ne.symm hj)).trans hold, hx⟩
    · exact ⟨_, suspend_self h.placed, hx⟩
  · rcases suspend_cases h.placed hm with ⟨rfl, rfl⟩ | ⟨hj, hwas⟩
    · exact hown c hx
    · obtain ⟨channel, hch, rfl⟩ := h0.owner j m c (old hj hwas) hx
      exact hold c channel hch
  · rcases suspend_cases h.placed hm with ⟨-, rfl⟩ | ⟨hj, hold⟩
    · exact hs c hx he
    · exact h0.current j m c (old hj hold) he hx
  · rcases suspend_cases h.placed hm with ⟨-, rfl⟩ | ⟨hj, hold⟩
    · exact (hw w hx).1
    · exact h0.waits j m w (old hj hold) hx
  · rcases suspend_cases h.placed hm with ⟨-, rfl⟩ | ⟨hj, hold⟩
    · exact (hw w hx).2 hP he
    · exact h0.cancels hP j m w (old hj hold) he hx

theorem Hand.refreshing (h : Hand P s i l.epoch) (reason : RefreshReason) :
    Sound P (s.suspend i l (.refreshing reason)) :=
  h.wake (fun _ _ hc _ => Or.inl hc) (fun _ channel hc => ⟨channel, hc, rfl⟩) nofun nofun nofun

theorem Hand.openChannel (h : Hand P s i l.epoch) (token : JsString) : Sound P (s.openChannel i l token) := by
  refine h.wake (fun c channel hc _ => ?_) (fun c channel hc => ⟨channel, getElem_append_old hc _, rfl⟩)
    (fun c hc => ?_)
    nofun nofun
  · rcases getElem_snoc.mp hc with hc | ⟨rfl, rfl⟩
    · exact Or.inl hc
    · exact Or.inr ⟨rfl, Or.inl rfl⟩
  · cases hc
    exact ⟨_, getElem_snoc.mpr (Or.inr ⟨rfl, rfl⟩), rfl⟩

/-- What a loop may write while it has the floor: what the loops share only if it is not stale. -/
theorem Hand.write (h : Hand P s i j) {t : GatewayWsClient} (hl : t.loops = s.loops) (he : t.epoch = s.epoch)
    (hr : t.running = s.running) (hch : t.channels = s.channels) (hw : s.waits.length ≤ t.waits.length)
    (ht : ∀ w, t.reconnectTimer = some w → w < t.waits.length)
    (hlive : j ≠ s.epoch → t.channel = s.channel ∧
      (P → t.reconnectTimer = s.reconnectTimer ∧ t.cancelWait = s.cancelWait)) :
    Hand P t i j := by
  have hlive' : ∀ m : RunLoop, t.Live m ↔ s.Live m := fun m => by rw [Live, Live, he]
  refine ⟨hl ▸ h.placed, fun l hle => ?_, fun hj => ?_⟩
  · have h0 := h.sound l hle
    have hsame : (t.suspend i l .returned).loops = (s.suspend i l .returned).loops := by
      rw [GatewayWsClient.suspend, GatewayWsClient.suspend, hl]
    -- A loop that is not stale is the only one, so the others have no say in what is shared.
    have hnone : ∀ {k : Nat} {m : RunLoop}, j = s.epoch → (s.suspend i l .returned).loops[k]? = some m →
      ¬ s.Live m := by
      intro k m hj hm
      rcases suspend_cases h.placed hm with ⟨-, rfl⟩ | ⟨hk, hold⟩
      · exact fun hlive => hlive.2 rfl
      · exact (h.alone hj).2 k m hk hold
    refine ⟨fun k m hm => ?_, fun k k' m m' hm hm' hm1 hm2 => ?_, fun k m hm hm1 => ?_, fun c channel hc hopen => ?_,
      fun k m c hm hx => ?_, fun k m c hm hme hx => ?_, fun k m w hm hx => ?_, ht, fun hP k m w hm hme hx => ?_⟩
    · rw [hsame] at hm
      exact Nat.le_trans (h0.epochs k m hm) (Nat.le_of_eq he.symm)
    · rw [hsame] at hm hm'
      exact h0.single k k' m m' hm hm' ((hlive' m).mp hm1) ((hlive' m').mp hm2)
    · rw [hsame] at hm
      exact hr.trans (h0.running k m hm ((hlive' m).mp hm1))
    · rw [hsame]
      obtain ⟨m, hm, hx⟩ := h0.channels c channel (hch ▸ hc) hopen
      exact ⟨m, hm, hx.imp_right fun hx => ⟨hx.1, hx.2.trans he.symm⟩⟩
    · rw [hsame] at hm
      exact (h0.owner k m c hm hx).imp fun channel hc => ⟨(congrArg (·[c]?) hch).trans hc.1, hc.2⟩
    · rw [hsame] at hm
      have hme' : m.epoch = s.epoch := hme.trans he
      by_cases hj : j = s.epoch
      · exact absurd ⟨hme', by rw [hx]; exact nofun⟩ (hnone hj hm)
      · exact (hlive hj).1.trans (h0.current k m c hm hme' hx)
    · rw [hsame] at hm
      exact Nat.lt_of_lt_of_le (h0.waits k m w hm hx) hw
    · rw [hsame] at hm
      have hme' : m.epoch = s.epoch := hme.trans he
      by_cases hj : j = s.epoch
      · exact absurd ⟨hme', by rw [hx]; exact nofun⟩ (hnone hj hm)
      · have hkeep := (hlive hj).2 hP
        have hold := h0.cancels hP k m w hm hme' hx
        exact ⟨hkeep.1.trans hold.1, hkeep.2.trans hold.2⟩
  · rw [he] at hj
    refine ⟨hr.trans (h.alone hj).1, fun k m hk hm => ?_⟩
    rw [hlive']
    exact (h.alone hj).2 k m hk (hl ▸ hm)

theorem Hand.setStatus (h : Hand P s i j) (status : WsStatus) : Hand P (s.setStatus status) i j := by
  have htimer := (h.sound ⟨j, 0, false, .returned⟩ rfl).timer
  exact h.write rfl rfl rfl rfl (Nat.le_refl _) htimer fun _ => ⟨rfl, fun _ => ⟨rfl, rfl⟩⟩

theorem Hand.hold (h : Hand P s i j) (accessToken : Option JsString) : Hand P { s with accessToken } i j := by
  have htimer := (h.sound ⟨j, 0, false, .returned⟩ rfl).timer
  exact h.write rfl rfl rfl rfl (Nat.le_refl _) htimer fun _ => ⟨rfl, fun _ => ⟨rfl, rfl⟩⟩

theorem Hand.turn (h : Hand P s i l.epoch) : Sound P (s.turn i l) := by
  unfold GatewayWsClient.turn
  split
  · exact h.sound l rfl
  · dsimp only
    split
    · exact (h.setStatus .connecting).refreshing .missing
    · exact (h.setStatus .connecting).openChannel _

theorem Hand.stop (h : Hand P s i l.epoch) (he : l.epoch = s.epoch) : Sound P (s.stop i l) := by
  have h0 := (h.setStatus .disconnected).sound l rfl
  refine { h0 with running := fun k m hm hlive => ?_ }
  rcases suspend_cases h.placed hm with ⟨-, rfl⟩ | ⟨hk, hold⟩
  · exact absurd rfl hlive.2
  · exact absurd hlive ((h.alone he).2 k m hk hold)

theorem Hand.waitBackoff (h : Hand P s i l.epoch) (hlive : P → l.epoch = s.epoch) : Sound P (s.waitBackoff i l) := by
  have hwrite : Hand P { s with
      waits := s.waits ++ [⟨backoffDelay l.attempt, true, false⟩]
      reconnectTimer := some s.waits.length
      cancelWait := some s.waits.length } i l.epoch := by
    refine h.write rfl rfl rfl rfl ?_ (fun w hw => ?_) fun hne => ⟨rfl, fun hP => absurd (hlive hP) hne⟩
    · rw [List.length_append]
      exact Nat.le_add_right _ _
    · cases hw
      rw [List.length_append]
      exact Nat.lt_succ_self _
  refine Hand.wake (l := { l with attempt := l.attempt + 1 }) hwrite (fun _ _ hc _ => Or.inl hc)
    (fun _ channel hc => ⟨channel, hc, rfl⟩) nofun nofun fun w hw => ?_
  cases hw
  exact ⟨by rw [List.length_append]; exact Nat.lt_succ_self _, fun _ _ => ⟨rfl, rfl⟩⟩

/-! ## Steps -/

theorem close_get (s : GatewayWsClient) (c d : Nat) : (s.close c).channels[d]? =
    s.channels[d]?.map fun channel => if c = d then { channel with isOpen := false } else channel := by
  simp only [GatewayWsClient.close, List.getElem?_modify]
  cases s.channels[d]? with
  | none => rfl
  | some channel =>
    by_cases h : c = d
    · simp [h]
    · simp [h]

theorem Sound.close (h : Sound P s) (c : Nat) : Sound P (s.close c) := by
  refine { h with
    channels := fun d channel hd hopen => ?_
    owner := fun i l d hl hx => ?_ }
  · rw [close_get] at hd
    obtain ⟨x, hx, rfl⟩ := Option.map_eq_some_iff.mp hd
    split at hopen
    · cases hopen
    · rename_i hne
      rw [if_neg hne]
      exact h.channels d x hx hopen
  · obtain ⟨channel, hd, hi⟩ := h.owner i l d hl hx
    rw [close_get, hd]
    refine ⟨_, rfl, ?_⟩
    dsimp only
    split <;> exact hi

/-- A loop without an open channel goes on. -/
theorem Sound.hand (h : Sound P s) (hl : s.loops[i]? = some l) (hlive : l.suspended ≠ .returned)
    (hc : ∀ (c : Nat) (channel : WsChannel), s.channels[c]? = some channel → channel.isOpen = true → channel.loop ≠ i) :
    Hand P s i l.epoch := by
  obtain ⟨hi, -⟩ := List.getElem?_eq_some_iff.mp hl
  refine ⟨hi, fun l' hl' => ?_, fun he => ⟨h.running i l hl ⟨he, hlive⟩, fun j m hj hm hm' => ?_⟩⟩
  · refine ⟨fun k m hm => ?_, fun k k' m m' hm hm' hm1 hm2 => ?_, fun k m hm hm1 => ?_, fun c channel hch hopen => ?_,
      fun k m c hm hx => ?_, fun k m c hm he hx => ?_, fun k m w hm hx => ?_, h.timer, fun hP k m w hm he hx => ?_⟩
    · rcases suspend_cases hi hm with ⟨-, rfl⟩ | ⟨-, hold⟩
      · exact hl' ▸ h.epochs i l hl
      · exact h.epochs k m hold
    · rcases suspend_cases hi hm with ⟨-, rfl⟩ | ⟨-, hold⟩
      · exact absurd rfl hm1.2
      · rcases suspend_cases hi hm' with ⟨-, rfl⟩ | ⟨-, hold'⟩
        · exact absurd rfl hm2.2
        · exact h.single k k' m m' hold hold' hm1 hm2
    · rcases suspend_cases hi hm with ⟨-, rfl⟩ | ⟨-, hold⟩
      · exact absurd rfl hm1.2
      · exact h.running k m hold hm1
    · rw [suspend_other (Ne.symm (hc c channel hch hopen))]
      exact h.channels c channel hch hopen
    · rcases suspend_cases hi hm with ⟨-, rfl⟩ | ⟨-, hold⟩
      · cases hx
      · exact h.owner k m c hold hx
    · rcases suspend_cases hi hm with ⟨-, rfl⟩ | ⟨-, hold⟩
      · cases hx
      · exact h.current k m c hold he hx
    · rcases suspend_cases hi hm with ⟨-, rfl⟩ | ⟨-, hold⟩
      · cases hx
      · exact h.waits k m w hold hx
    · rcases suspend_cases hi hm with ⟨-, rfl⟩ | ⟨-, hold⟩
      · cases hx
      · exact h.cancels hP k m w hold he hx
  · exact hj (h.single j i m l hm hl hm' ⟨he, hlive⟩)

/-- A loop that waits for no channel has none open. -/
theorem Sound.hand_of_idle (h : Sound P s) (hl : s.loops[i]? = some l) (hlive : l.suspended ≠ .returned)
    (hx : ∀ c, l.suspended ≠ .opening c ∧ l.suspended ≠ .streaming c) : Hand P s i l.epoch := by
  refine h.hand hl hlive fun c channel hch hopen hi => ?_
  obtain ⟨m, hm, hm'⟩ := h.channels c channel hch hopen
  rw [hi, hl] at hm
  cases hm
  exact hm'.elim (hx c).1 fun hm' => (hx c).2 hm'.1

/-- The loop's channel is closed. -/
theorem Sound.hand_of_closed (h : Sound P s) {c : Nat} (hl : s.loops[i]? = some l)
    (hx : l.suspended = .opening c ∨ l.suspended = .streaming c) : Hand P (s.close c) i l.epoch := by
  refine (h.close c).hand hl (by rcases hx with hx | hx <;> rw [hx] <;> exact nofun) fun d channel hd hopen hi => ?_
  obtain ⟨m, hm, hm'⟩ := (h.close c).channels d channel hd hopen
  rw [hi] at hm
  obtain rfl : l = m := Option.some.inj (hl.symm.trans hm)
  have hcd : c = d := by
    rcases hx with hx | hx <;> rw [hx] at hm' <;> rcases hm' with hm' | ⟨hm', -⟩ <;> cases hm' <;> rfl
  rw [close_get] at hd
  obtain ⟨x, -, rfl⟩ := Option.map_eq_some_iff.mp hd
  rw [if_pos hcd] at hopen
  cases hopen

theorem Hand.refused (h : Hand P s i l.epoch) (he : l.epoch = s.epoch) : Sound P (s.refused i l) := by
  unfold GatewayWsClient.refused
  split
  · exact h.stop he
  · exact h.refreshing .refused

theorem Sound.refreshedMissing (h : Sound P s) (hl : s.loops[i]? = some l) (hx : l.suspended = .refreshing .missing)
    {outcome : RefreshOutcome} (hok : P → ThrowsLive s (.refreshed i outcome)) :
    Sound P (s.refreshedMissing i l outcome) := by
  have hand := h.hand_of_idle hl (by rw [hx]; exact nofun) fun c => by rw [hx]; exact ⟨nofun, nofun⟩
  cases outcome with
  | dioException => exact hand.waitBackoff fun hP => hok hP l hl hx
  | threw => exact hand.waitBackoff fun hP => hok hP l hl hx
  | null =>
    simp only [GatewayWsClient.refreshedMissing]
    split
    · exact hand.sound l rfl
    · rename_i hleft
      exact hand.stop (not_left hleft).1
  | token token =>
    simp only [GatewayWsClient.refreshedMissing]
    split
    · exact hand.sound l rfl
    · exact (hand.hold _).openChannel token

theorem Sound.refreshedRefused (h : Sound P s) (hl : s.loops[i]? = some l) (hx : l.suspended = .refreshing .refused)
    (outcome : RefreshOutcome) : Sound P (s.refreshedRefused i l outcome) := by
  have hand := h.hand_of_idle hl (by rw [hx]; exact nofun) fun c => by rw [hx]; exact ⟨nofun, nofun⟩
  have hstop : Sound P (if s.Left l then s.suspend i l .returned else s.stop i l) := by
    split
    · exact hand.sound l rfl
    · rename_i hleft
      exact hand.stop (not_left hleft).1
  cases outcome with
  | token token =>
    simp only [GatewayWsClient.refreshedRefused]
    split
    · exact hand.sound l rfl
    · exact Hand.turn (l := { l with authRetried := true }) (hand.hold _)
  | _ => exact hstop

theorem Sound.opened (h : Sound P s) {c : Nat} (hl : s.loops[i]? = some l) (hx : l.suspended = .opening c)
    (outcome : OpenOutcome) : Sound P (s.opened i l c outcome) := by
  have hand := h.hand_of_closed hl (Or.inl hx)
  cases outcome with
  | ready =>
    simp only [GatewayWsClient.opened]
    split
    · exact hand.sound l rfl
    · rename_i hleft
      have he := (not_left hleft).1
      have hcur : Hand P ({ s.close c with channel := some c } : GatewayWsClient) i l.epoch :=
        hand.write rfl rfl rfl rfl (Nat.le_refl _) (hand.sound l rfl).timer fun hne => absurd he hne
      refine Hand.wake (l := { l with authRetried := false }) (hcur.setStatus .connected) (fun d channel hd hopen => ?_)
        (fun d channel hd => ?_) nofun (fun d hd _ => by cases hd; rfl) nofun
      · by_cases hcd : c = d
        · subst hcd
          obtain ⟨channel', hc, hi⟩ := h.owner i l c hl hx
          obtain rfl : channel' = channel := Option.some.inj (hc.symm.trans hd)
          exact Or.inr ⟨hi, Or.inr ⟨rfl, he⟩⟩
        · refine Or.inl ?_
          change (s.close c).channels[d]? = some channel
          rw [close_get, hd, Option.map_some, if_neg hcd]
      · change (s.close c).channels[d]? = some channel at hd
        rw [close_get] at hd
        obtain ⟨channel', hd', rfl⟩ := Option.map_eq_some_iff.mp hd
        refine ⟨channel', hd', ?_⟩
        split <;> rfl
  | failed unauthorized =>
    simp only [GatewayWsClient.opened]
    split
    · exact hand.sound l rfl
    · rename_i hleft
      split
      · exact hand.refused (not_left hleft).1
      · exact hand.waitBackoff fun _ => (not_left hleft).1

theorem Sound.closed (h : Sound P s) {c : Nat} (hl : s.loops[i]? = some l) (hx : l.suspended = .streaming c)
    (closeCode : Option Nat) : Sound P (s.closed i l c closeCode) := by
  have hand := h.hand_of_closed hl (Or.inr hx)
  unfold GatewayWsClient.closed
  dsimp only
  split
  · exact hand.sound l rfl
  · rename_i hleft
    have he := (not_left hleft).1
    have hdrop : Hand P { s.close c with channel := none } i l.epoch :=
      hand.write rfl rfl rfl rfl (Nat.le_refl _) (hand.sound l rfl).timer fun hne => absurd he hne
    split
    · exact hdrop.refused he
    · exact hdrop.waitBackoff fun _ => he

/-- The loop stays where it is. -/
theorem Sound.set (h : Sound P s) {l' : RunLoop} (hl : s.loops[i]? = some l) (he : l'.epoch = l.epoch)
    (hx : l'.suspended = l.suspended) : Sound P { s with loops := s.loops.set i l' } := by
  have hget : ∀ {j : Nat} {m : RunLoop}, (s.loops.set i l')[j]? = some m →
      ∃ m', s.loops[j]? = some m' ∧ m.epoch = m'.epoch ∧ m.suspended = m'.suspended := by
    intro j m hm
    rcases (getElem_set hl).mp hm with ⟨rfl, rfl⟩ | ⟨-, hm⟩
    · exact ⟨l, hl, he, hx⟩
    · exact ⟨m, hm, rfl, rfl⟩
  have hput : ∀ {j : Nat} {m : RunLoop}, s.loops[j]? = some m →
      ∃ m', (s.loops.set i l')[j]? = some m' ∧ m'.epoch = m.epoch ∧ m'.suspended = m.suspended := by
    intro j m hm
    by_cases hij : i = j
    · subst hij
      obtain rfl : l = m := Option.some.inj (hl.symm.trans hm)
      exact ⟨l', getElem_set_self hl, he, hx⟩
    · exact ⟨m, (List.getElem?_set_ne hij).trans hm, rfl, rfl⟩
  refine ⟨fun j m hm => ?_, fun j k m m' hm hm' hm1 hm2 => ?_, fun j m hm hm1 => ?_, fun c channel hch hopen => ?_,
    fun j m c hm hmx => ?_, fun j m c hm hme hmx => ?_, fun j m w hm hmx => ?_, h.timer, fun hP j m w hm hme hmx => ?_⟩
  · obtain ⟨n, hn, hne, -⟩ := hget hm
    exact hne ▸ h.epochs j n hn
  · obtain ⟨n, hn, hne, hnx⟩ := hget hm
    obtain ⟨n', hn', hne', hnx'⟩ := hget hm'
    exact h.single j k n n' hn hn' ⟨hne ▸ hm1.1, hnx ▸ hm1.2⟩ ⟨hne' ▸ hm2.1, hnx' ▸ hm2.2⟩
  · obtain ⟨n, hn, hne, hnx⟩ := hget hm
    exact h.running j n hn ⟨hne ▸ hm1.1, hnx ▸ hm1.2⟩
  · obtain ⟨n, hn, hnx⟩ := h.channels c channel hch hopen
    obtain ⟨m, hm, hme, hmx⟩ := hput hn
    exact ⟨m, hm, by rw [hmx, hme]; exact hnx⟩
  · obtain ⟨n, hn, -, hnx⟩ := hget hm
    exact h.owner j n c hn (hnx ▸ hmx)
  · obtain ⟨n, hn, hne, hnx⟩ := hget hm
    exact h.current j n c hn (hne ▸ hme) (hnx ▸ hmx)
  · obtain ⟨n, hn, -, hnx⟩ := hget hm
    exact h.waits j n w hn (hnx ▸ hmx)
  · obtain ⟨n, hn, hne, hnx⟩ := hget hm
    exact h.cancels hP j n w hn (hne ▸ hme) (hnx ▸ hmx)

theorem Sound.frame (h : Sound P s) {c : Nat} (hl : s.loops[i]? = some l) (hx : l.suspended = .streaming c) :
    Sound P (s.frame i l c) := by
  unfold GatewayWsClient.frame
  split
  · rename_i hleft
    have he : l.epoch ≠ s.epoch := fun he => by
      rcases hleft with hne | hrun
      · exact hne he
      · have := h.running i l hl ⟨he, by rw [hx]; exact nofun⟩
        rw [hrun] at this
        cases this
    have hand : Hand P s i l.epoch := by
      refine h.hand hl (by rw [hx]; exact nofun) fun d channel hd hopen hi => ?_
      obtain ⟨m, hm, hmx⟩ := h.channels d channel hd hopen
      rw [hi, hl] at hm
      cases hm
      rcases hmx with hmx | ⟨-, hme⟩
      · rw [hx] at hmx
        cases hmx
      · exact he hme
    exact hand.sound { l with attempt := 0, authRetried := false } rfl
  · exact h.set hl rfl hx.symm

theorem Sound.waited (h : Sound P s) {w : Nat} (hl : s.loops[i]? = some l) (hx : l.suspended = .backoff w) :
    Sound P (s.waited i l w) := by
  have hand := h.hand_of_idle hl (by rw [hx]; exact nofun) fun c => by rw [hx]; exact ⟨nofun, nofun⟩
  unfold GatewayWsClient.waited
  split
  · split
    · rename_i he
      refine Hand.turn (hand.write rfl rfl rfl rfl (Nat.le_refl _) nofun fun hne => absurd he hne)
    · exact hand.turn
  · exact h

theorem Sound.connect (h : Sound P s) : Sound P s.connect := by
  unfold GatewayWsClient.connect
  split
  · exact h
  · rename_i hrun
    have hdead : ∀ (j : Nat) (m : RunLoop), s.loops[j]? = some m → ¬ s.Live m :=
      fun j m hm hlive => hrun (h.running j m hm hlive)
    have hplaced : s.loops.length < (s.loops ++ [(⟨s.epoch, 0, false, .returned⟩ : RunLoop)]).length := by
      rw [List.length_append]
      exact Nat.lt_succ_self _
    have hold : ∀ {j : Nat} {m : RunLoop}, j ≠ s.loops.length →
        (s.loops ++ [(⟨s.epoch, 0, false, .returned⟩ : RunLoop)])[j]? = some m → s.loops[j]? = some m :=
      fun hj hm => (getElem_snoc.mp hm).resolve_right fun he => hj he.1
    have hnew : ∀ {j : Nat} {m : RunLoop}, s.loops[j]? = some m → j ≠ s.loops.length := by
      intro j m hm
      obtain ⟨hj, -⟩ := List.getElem?_eq_some_iff.mp hm
      omega
    refine Hand.turn ⟨hplaced, fun l hl => ?_, fun _ => ⟨rfl, fun j m hj hm => hdead j m (hold hj hm)⟩⟩
    refine ⟨fun k m hm => ?_, fun k k' m m' hm hm' hm1 hm2 => ?_, fun _ _ _ _ => rfl, fun c channel hch hopen => ?_,
      fun k m c hm hx => ?_, fun k m c hm he hx => ?_, fun k m w hm hx => ?_, h.timer, fun hP k m w hm he hx => ?_⟩
    · rcases suspend_cases hplaced hm with ⟨-, rfl⟩ | ⟨hk, hm⟩
      · exact Nat.le_of_eq hl
      · exact h.epochs k m (hold hk hm)
    · rcases suspend_cases hplaced hm with ⟨-, rfl⟩ | ⟨hk, hm⟩
      · exact absurd rfl hm1.2
      · exact absurd hm1 (hdead k m (hold hk hm))
    · obtain ⟨m, hm, hx⟩ := h.channels c channel hch hopen
      exact ⟨m, (suspend_other (hnew hm).symm).trans (getElem_append_old hm _), hx⟩
    · rcases suspend_cases hplaced hm with ⟨-, rfl⟩ | ⟨hk, hm⟩
      · cases hx
      · exact h.owner k m c (hold hk hm) hx
    · rcases suspend_cases hplaced hm with ⟨-, rfl⟩ | ⟨hk, hm⟩
      · cases hx
      · exact h.current k m c (hold hk hm) he hx
    · rcases suspend_cases hplaced hm with ⟨-, rfl⟩ | ⟨hk, hm⟩
      · cases hx
      · exact h.waits k m w (hold hk hm) hx
    · rcases suspend_cases hplaced hm with ⟨-, rfl⟩ | ⟨hk, hm⟩
      · cases hx
      · exact h.cancels hP k m w (hold hk hm) he hx

/-- The next epoch begins, and what was shared is let go. -/
theorem Sound.nextEpoch (h : Sound P s) {waits : List BackoffWait} (hw : waits.length = s.waits.length)
    {channels : List WsChannel}
    (hch : ∀ (c : Nat) (channel : WsChannel), channels[c]? = some channel → channel.isOpen = true →
      s.channels[c]? = some channel ∧ s.channel ≠ some c)
    (hown : ∀ (c : Nat) (channel : WsChannel), s.channels[c]? = some channel →
      ∃ channel', channels[c]? = some channel' ∧ channel'.loop = channel.loop) :
    Sound P { s with
      running := false, epoch := s.epoch + 1, reconnectTimer := none, cancelWait := none,
      channel := none, waits, channels } := by
  have hpast : ∀ {j : Nat} {m : RunLoop}, s.loops[j]? = some m → m.epoch ≠ s.epoch + 1 := by
    intro j m hm
    have := h.epochs j m hm
    omega
  refine ⟨fun j m hm => Nat.le_succ_of_le (h.epochs j m hm), fun j k m m' hm _ hm1 _ => absurd hm1.1 (hpast hm),
    fun j m hm hm1 => absurd hm1.1 (hpast hm), fun c channel hc hopen => ?_, fun j m c hm hx => ?_,
    fun j m c hm he _ => absurd he (hpast hm), fun j m w hm hx => hw ▸ h.waits j m w hm hx, nofun,
    fun _ j m w hm he _ => absurd he (hpast hm)⟩
  · obtain ⟨hwas, hne⟩ := hch c channel hc hopen
    obtain ⟨m, hm, hx⟩ := h.channels c channel hwas hopen
    refine ⟨m, hm, Or.inl (hx.resolve_right fun hx => hne ?_)⟩
    exact h.current _ m c hm hx.2 hx.1
  · obtain ⟨channel, hc, rfl⟩ := h.owner j m c hm hx
    exact hown c channel hc

theorem endWait_length (s : GatewayWsClient) : s.endWait.length = s.waits.length := by
  unfold endWait
  cases s.reconnectTimer <;> cases s.cancelWait <;> simp only [List.length_modify]

theorem Sound.disconnect (h : Sound P s) : Sound P s.disconnect := by
  unfold GatewayWsClient.disconnect
  split
  · exact h
  · dsimp only
    split
    · rename_i c hc
      have hnext : Sound P ({ s with
          running := false, epoch := s.epoch + 1, waits := s.endWait
          reconnectTimer := none, cancelWait := none, channel := none
          channels := (s.close c).channels } : GatewayWsClient) := by
        refine h.nextEpoch (endWait_length s) (fun d channel hd hopen => ?_) fun d channel hd => ?_
        · rw [close_get] at hd
          obtain ⟨x, hx, rfl⟩ := Option.map_eq_some_iff.mp hd
          split at hopen
          · cases hopen
          · rename_i hne
            rw [if_neg hne]
            exact ⟨hx, fun he => hne (Option.some.inj (hc.symm.trans he))⟩
        · rw [close_get, hd]
          refine ⟨_, rfl, ?_⟩
          dsimp only
          split <;> rfl
      exact { hnext with }
    · rename_i hc
      have hnext := h.nextEpoch (endWait_length s)
        (fun d channel (hd : s.channels[d]? = some channel) _ => ⟨hd, by rw [hc]; exact nofun⟩) fun d channel hd =>
          ⟨channel, hd, rfl⟩
      exact { hnext with }

theorem Sound.fires (h : Sound P s) (w : Nat) : Sound P (s.fires w) := by
  have hlen : (s.fires w).waits.length = s.waits.length := List.length_modify ..
  exact { h with waits := fun i l v hl hx => hlen ▸ h.waits i l v hl hx, timer := fun v hv => hlen ▸ h.timer v hv }

theorem sound_step (h : Sound P s) {e : WsEvent} (hok : P → ThrowsLive s e) : Sound P (step s e) := by
  cases e with
  | connect => exact h.connect
  | disconnect => exact h.disconnect
  | fires w => exact h.fires w
  | holds accessToken => exact { h with }
  | refreshed i outcome =>
    simp only [step]
    split
    · rename_i l hl
      split
      · rename_i hx
        exact h.refreshedMissing hl hx hok
      · rename_i hx
        exact h.refreshedRefused hl hx outcome
      · exact h
    · exact h
  | opened i outcome =>
    simp only [step]
    split
    · rename_i l hl
      split
      · rename_i c hx
        exact h.opened hl hx outcome
      · exact h
    · exact h
  | frame i =>
    simp only [step]
    split
    · rename_i l hl
      split
      · rename_i c hx
        exact h.frame hl hx
      · exact h
    · exact h
  | closed i closeCode =>
    simp only [step]
    split
    · rename_i l hl
      split
      · rename_i c hx
        exact h.closed hl hx closeCode
      · exact h
    · exact h
  | waited i =>
    simp only [step]
    split
    · rename_i l hl
      split
      · rename_i w hx
        exact h.waited hl hx
      · exact h
    · exact h

end

/-! ## Stale loops -/

section
variable {P : Prop} {s : GatewayWsClient} {i : Nat} {l : RunLoop}

theorem left_of_stale (h : l.epoch ≠ s.epoch) : s.Left l := Or.inl h

theorem shared_turn (h : l.epoch ≠ s.epoch) : (s.turn i l).shared = s.shared := by
  rw [turn, if_pos (left_of_stale h)]
  rfl

/-- A stale loop writes what is shared exactly when the refresh for its missing token throws. -/
theorem inert_iff_throwsLive (h : Sound P s) (e : WsEvent) : s.Inert e ↔ s.ThrowsLive e := by
  have hthrow : ∀ {l : RunLoop} {i : Nat}, (s.waitBackoff i l).shared ≠ s.shared := by
    intro l i heq
    have hlt := h.timer _ (congrArg Shared.reconnectTimer heq).symm
    exact Nat.lt_irrefl _ hlt
  cases e with
  | connect => exact iff_of_true (fun ⟨_, _, hi, _⟩ => nomatch hi) trivial
  | disconnect => exact iff_of_true (fun ⟨_, _, hi, _⟩ => nomatch hi) trivial
  | fires w => exact iff_of_true (fun ⟨_, _, hi, _⟩ => nomatch hi) trivial
  | holds accessToken => exact iff_of_true (fun ⟨_, _, hi, _⟩ => nomatch hi) trivial
  | refreshed i outcome =>
    cases hl : s.loops[i]? with
    | none =>
      refine iff_of_true (fun ⟨j, l, hj, hl', _⟩ => ?_) ?_
      · cases hj
        rw [hl] at hl'
        cases hl'
      · cases outcome with
        | dioException | threw => exact fun l hl' => by rw [hl] at hl'; cases hl'
        | _ => trivial
    | some l =>
      have hsame : ∀ {m : RunLoop}, s.loops[i]? = some m → m = l := fun hm => Option.some.inj (hm.symm.trans hl)
      by_cases he : l.epoch = s.epoch
      · refine iff_of_true (fun ⟨j, m, hj, hm, hne⟩ => ?_) ?_
        · cases hj
          exact absurd (hsame hm ▸ he) hne
        · cases outcome with
          | dioException | threw => exact fun m hm _ => hsame hm ▸ he
          | _ => trivial
      · have hstale : s.Stale (.refreshed i outcome) := ⟨i, l, rfl, hl, he⟩
        by_cases hx : l.suspended = .refreshing .missing
        · have hstep : step s (.refreshed i outcome) = s.refreshedMissing i l outcome := by simp only [step, hl, hx]
          rw [Inert, hstep]
          cases outcome with
          | dioException | threw => exact iff_of_false (fun hi => hthrow (hi hstale)) fun hok => he (hok l hl hx)
          | null | token =>
            refine iff_of_true (fun _ => ?_) trivial
            simp only [refreshedMissing]
            rw [if_pos (left_of_stale he)]
            rfl
        · refine iff_of_true (fun _ => ?_) ?_
          · simp only [step, hl]
            split
            · rename_i hmissing
              exact absurd hmissing hx
            · cases outcome with
              | _ =>
                simp only [refreshedRefused]
                rw [if_pos (left_of_stale he)]
                rfl
            · rfl
          · cases outcome with
            | dioException | threw => exact fun m hm hmx => absurd (hsame hm ▸ hmx) hx
            | _ => trivial
  | opened i outcome =>
    refine iff_of_true (fun ⟨j, l, hj, hl, hne⟩ => ?_) trivial
    cases hj
    simp only [step, hl]
    split
    · cases outcome with
      | ready =>
        rw [opened, if_pos (left_of_stale hne)]
        rfl
      | failed unauthorized =>
        simp only [opened]
        rw [if_pos (left_of_stale (s := s.close _) hne)]
        rfl
    · rfl
  | frame i =>
    refine iff_of_true (fun ⟨j, l, hj, hl, hne⟩ => ?_) trivial
    cases hj
    simp only [step, hl]
    split <;> rfl
  | closed i closeCode =>
    refine iff_of_true (fun ⟨j, l, hj, hl, hne⟩ => ?_) trivial
    cases hj
    simp only [step, hl]
    split
    · simp only [closed]
      rw [if_pos (left_of_stale (s := s.close _) hne)]
      rfl
    · rfl
  | waited i =>
    refine iff_of_true (fun ⟨j, l, hj, hl, hne⟩ => ?_) trivial
    cases hj
    simp only [step, hl]
    split
    · simp only [waited]
      split
      · exact shared_turn hne
      · rfl
    · rfl

end

/-! ## Whole runs -/

/-- What holds between two steps. -/
structure Orderly (s : GatewayWsClient) : Prop where
  oneLoop : ∀ (i j : Nat) (l l' : RunLoop), s.loops[i]? = some l → s.loops[j]? = some l' → s.Live l → s.Live l' → i = j
  oneChannel : ∀ (c d : Nat) (channel channel' : WsChannel), s.channels[c]? = some channel →
    s.channels[d]? = some channel' →
    channel.isOpen = true → channel'.isOpen = true → channel.loop = channel'.loop → c = d
  /-- `disconnect` ends the wait of the live loop. -/
  endsWait : ∀ (i : Nat) (l : RunLoop) (w : Nat), s.loops[i]? = some l → l.epoch = s.epoch → l.suspended = .backoff w →
    ∃ wait, (step s .disconnect).waits[w]? = some wait ∧ wait.armed = false ∧ wait.completed = true

theorem Sound.orderly {s : GatewayWsClient} (h : Sound True s) : Orderly s := by
  refine ⟨h.single, fun c d channel channel' hc hd hopen hopen' hloop => ?_, fun i l w hl he hx => ?_⟩
  · obtain ⟨l, hl, hx⟩ := h.channels c channel hc hopen
    obtain ⟨l', hl', hx'⟩ := h.channels d channel' hd hopen'
    rw [← hloop] at hl'
    obtain rfl : l = l' := Option.some.inj (hl.symm.trans hl')
    rcases hx with hx | ⟨hx, -⟩ <;> rw [hx] at hx' <;> rcases hx' with hx' | ⟨hx', -⟩ <;> cases hx' <;> rfl
  · have hrun := h.running i l hl ⟨he, by rw [hx]; exact nofun⟩
    obtain ⟨ht, hw⟩ := h.cancels trivial i l w hl he hx
    have hwait := List.getElem?_eq_getElem (h.waits i l w hl hx)
    have hended : (step s .disconnect).waits = s.endWait := by
      change s.disconnect.waits = s.endWait
      rw [GatewayWsClient.disconnect, if_neg (by rw [hrun]; exact nofun)]
      dsimp only
      split <;> rfl
    rw [hended, endWait, ht, hw]
    refine ⟨_, getElem_modify (getElem_modify hwait), ?_, ?_⟩ <;> simp

theorem sound_init {P : Prop} : Sound P .init := ⟨nofun, nofun, nofun, nofun, nofun, nofun, nofun, nofun, nofun⟩

theorem inert_iff (es : List WsEvent) :
    ((∀ before after, es = before ++ after → Orderly (run before)) ∧ Along step Inert .init es) ↔
      Along step ThrowsLive .init es := by
  have hinert : Along step Inert .init es ↔ Along step ThrowsLive .init es :=
    along_congr (I := Sound False) (E := fun _ => True) (fun s e hs _ => inert_iff_throwsLive hs e)
      (fun s e hs _ _ => sound_step hs nofun) (fun _ _ => trivial) sound_init
  rw [hinert]
  refine ⟨And.right, fun h => ⟨fun before after hsplit => ?_, h⟩⟩
  rw [hsplit, along_append] at h
  exact (Along.inv (I := Sound True) (fun _ _ hs hok => sound_step hs fun _ => hok) sound_init h.1).orderly

/-- A loop without a token, whose refresh is slow, and the session that replaces it. -/
abbrev slowRefresh : List WsEvent :=
  [.connect, .disconnect, .holds (some (js "a")), .connect, .opened 1 (.failed false)]

/-- The refresh throws while the new loop waits: the old one takes its timer, and
    `disconnect` ends a wait that no live loop waits for. -/
theorem stale_loop_takes_the_timer :
    (run slowRefresh).reconnectTimer = some 0 ∧ ¬ Inert (run slowRefresh) (.refreshed 0 .threw) ∧
      (run (slowRefresh ++ [.refreshed 0 .threw])).reconnectTimer = some 1 ∧
      ((run (slowRefresh ++ [.refreshed 0 .threw, .disconnect])).waits[0]?.map (·.armed)) = some true := by
  refine ⟨by decide +kernel, fun h => ?_, by decide +kernel, by decide +kernel⟩
  have hstale : Stale (run slowRefresh) (.refreshed 0 .threw) :=
    ⟨0, ⟨0, 0, false, .refreshing .missing⟩, rfl, by decide +kernel, by decide +kernel⟩
  have hsame := congrArg Shared.reconnectTimer (h hstale)
  revert hsame
  decide +kernel

end GatewayWsClient

end NotifyHub.Client
