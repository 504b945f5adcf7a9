/-
  NotifyHub.Push.Dispatcher — Android pushes of dispatched events
  (apps/gateway/src/modules/events/dispatcher.ts, fcm/firebase-fcm-sender.ts).

  A dispatch reads its user's targets once, sends to each, and clears the token of a device
  whose send was rejected as invalid before its timeout. Reading, sending and clearing are
  apart, and the requests of the users come between.

  Effects are recorded in their order, so that the table is what the recorded requests and
  clean-ups make of the empty one (`replay`), and a row holds the token that was written to
  it last (`replay_token`). What holds of a run is in `NotifyHub.Push.DispatchTrace`.
-/

import NotifyHub.Lib.Register
import NotifyHub.Lib.Rows
import NotifyHub.Lib.Trace
import NotifyHub.Push.Devices
import NotifyHub.Push.Payload

namespace NotifyHub.Push

open Contracts

def FCM_SEND_TIMEOUT_MS : Nat := 5000

def CHANNEL_ALERTS : JsString := js "opencode_alerts"

def CHANNEL_SILENT : JsString := js "opencode_silent"

structure FcmPush where
  token : JsString
  title : JsString
  body : JsString
  channelId : JsString
  dataEvent : JsString
  deriving DecidableEq

def INVALID_TOKEN_CODES : List JsString :=
  [js "messaging/invalid-registration-token", js "messaging/registration-token-not-registered"]

/-- How the messaging API settles: what it rejects with may be no `Error`, and may have a `code` that is a string. -/
inductive MessagingOutcome where
  | delivered
  | rejected (isError : Bool) (code : Option JsString)

/-- How a send that is raced against its timeout settles. -/
inductive SendOutcome where
  | sent
  /-- `InvalidFcmTokenError` -/
  | invalidToken (code : JsString)
  | failed (code : Option JsString)

/-- `FirebaseAdminFcmSender.send`, and what `withTimeout` makes of its rejection. -/
def MessagingOutcome.send : MessagingOutcome → SendOutcome
  | .delivered => .sent
  | .rejected isError code =>
    match code.filter (· ∈ INVALID_TOKEN_CODES) with
    | some invalid => .invalidToken invalid
    | none => .failed (if isError then code else none)

inductive Level where
  | warn
  | error
  deriving DecidableEq

structure LogLine where
  level : Level
  userId : JsString
  deviceId : Option JsString
  eventId : JsString
  type : Option String
  code : Option JsString
  message : String

inductive Effect where
  /-- A request that succeeded. -/
  | requested (userId : JsString) (r : DeviceRequest)
  /-- Dispatch `n` fans its event out over the sockets. -/
  | published (n : Nat) (userId : JsString) (event : NotifyEvent)
  | listed (n : Nat) (userId : JsString) (targets : List AndroidPushTarget)
  /-- Send `i`, of dispatch `n`. -/
  | sent (i n : Nat) (target : AndroidPushTarget) (push : FcmPush)
  | rejected (i : Nat) (code : JsString)
  | timedOut (i : Nat)
  /-- The clean-up of send `i` found its row. -/
  | cleared (i : Nat) (userId id : JsString)
  | logged (line : LogLine)

/-- How far a dispatch has come. -/
inductive Progress where
  /-- It awaits its targets. -/
  | listing (content : PushContent)
  /-- They have been read. -/
  | listed (content : PushContent) (targets : List AndroidPushTarget)
  | sending
  | returned
  | rejected

inductive SendProgress where
  | sending (startedAt : Nat)
  | clearing
  | settled
  deriving DecidableEq

structure Dispatch where
  userId : JsString
  event : NotifyEvent
  progress : Progress

/-- A call of `sendToTarget`. -/
structure Send where
  n : Nat
  userId : JsString
  eventId : JsString
  target : AndroidPushTarget
  progress : SendProgress

structure State where
  now : Nat
  rows : List DeviceRecord
  dispatches : List Dispatch
  sends : List Send
  effects : List Effect

inductive Event where
  | request (userId : JsString) (r : DeviceRequest)
  | dispatch (userId : JsString) (event : NotifyEvent)
  /-- The database reads the targets of dispatch `n`, or fails. -/
  | lookup (n : Nat) (answered : Bool)
  /-- Dispatch `n` has its targets. -/
  | start (n : Nat)
  | settle (i : Nat) (outcome : MessagingOutcome)
  | timeout (i : Nat)
  /-- The database clears the token, or fails. -/
  | clear (i : Nat)
  | clearFails (i : Nat) (code : Option JsString)
  /-- `allSettled` of dispatch `n` resolves. -/
  | finish (n : Nat)
  | advance (ms : Nat)

/-- What is pushed: `action_required` and `terminal`. -/
def isAlert : EventPayload → Bool
  | .actionRequired .. | .terminal .. => true
  | .heartbeat .. | .actionResolved .. => false

def pushOf (content : PushContent) (target : AndroidPushTarget) : FcmPush :=
  ⟨target.fcmToken, content.title, content.body, if target.soundEnabled then CHANNEL_ALERTS else CHANNEL_SILENT,
    content.dataEvent⟩

/-- `{ fcmToken: null }` -/
def clearToken : DevicePatch := ⟨none, none, none, some none⟩

def Send.log (send : Send) (level : Level) (code : Option JsString) (message : String) : Effect :=
  .logged ⟨level, send.userId, some send.target.id, send.eventId, none, code, message⟩

namespace State

def init (now : Nat) : State := ⟨now, [], [], [], []⟩

variable (posix win32 : NodePath) (sendTimeoutMs : Nat) (s : State)

def request (userId : JsString) (r : DeviceRequest) : State :=
  if (handle s.rows userId r).2.1 < 300 then
    { s with rows := (handle s.rows userId r).1, effects := s.effects ++ [.requested userId r] }
  else s

/-- Every event is fanned out over the sockets first. -/
def begin (userId : JsString) (event : NotifyEvent) (progress : Progress) (effects : List Effect) : State :=
  { s with
    dispatches := s.dispatches ++ [⟨userId, event, progress⟩]
    effects := s.effects ++ .published s.dispatches.length userId event :: effects }

/-- `dispatch` up to the lookup. -/
def dispatch (userId : JsString) (event : NotifyEvent) : State :=
  if isAlert event.payload then
    match buildPushContent posix win32 event with
    | none =>
      s.begin userId event .returned [.logged ⟨.warn, userId, none, event.eventId, some event.payload.type, none,
        "event exceeds the FCM size budget; skipping Android push"⟩]
    | some content => s.begin userId event (.listing content) []
  else s.begin userId event .returned []

def lookup (n : Nat) (answered : Bool) : State :=
  match s.dispatches[n]? with
  | some ⟨userId, event, .listing content⟩ =>
    if answered then
      { s with
        dispatches := s.dispatches.set n
          ⟨userId, event, .listed content (DeviceRepository.listAndroidPushTargets s.rows userId)⟩
        effects := s.effects ++ [.listed n userId (DeviceRepository.listAndroidPushTargets s.rows userId)] }
    else { s with dispatches := s.dispatches.set n ⟨userId, event, .rejected⟩ }
  | _ => s

/-- The sends of dispatch `n` from the `i`th on. -/
def sentFrom (n : Nat) (content : PushContent) : Nat → List AndroidPushTarget → List Effect
  | _, [] => []
  | i, target :: targets => .sent i n target (pushOf content target) :: sentFrom n content (i + 1) targets

def start (n : Nat) : State :=
  match s.dispatches[n]? with
  | some ⟨userId, event, .listed content targets⟩ =>
    { s with
      dispatches := s.dispatches.set n ⟨userId, event, if targets = [] then .returned else .sending⟩
      sends := s.sends ++ targets.map fun target => ⟨n, userId, event.eventId, target, .sending s.now⟩
      effects := s.effects ++ sentFrom n content s.sends.length targets }
  | _ => s

/-- Send `i` goes on to `progress`. -/
def move (i : Nat) (send : Send) (progress : SendProgress) (effects : List Effect) : State :=
  { s with sends := s.sends.set i { send with progress }, effects := s.effects ++ effects }

def settle (i : Nat) (outcome : MessagingOutcome) : State :=
  match s.sends[i]? with
  | some send =>
    match send.progress, outcome.send with
    | .sending _, .sent => s.move i send .settled []
    | .sending _, .invalidToken code =>
      s.move i send .clearing
        [.rejected i code, send.log .warn (some code) "fcm registration token invalid; clearing device token"]
    | .sending _, .failed code => s.move i send .settled [send.log .error code "fcm send failed"]
    | _, _ => s
  | none => s

def timeout (i : Nat) : State :=
  match s.sends[i]? with
  | some send =>
    match send.progress with
    | .sending startedAt =>
      if startedAt + sendTimeoutMs ≤ s.now then
        s.move i send .settled [.timedOut i, send.log .error (some (js "notify/fcm-send-timeout")) "fcm send failed"]
      else s
    | _ => s
  | none => s

def clear (i : Nat) : State :=
  match s.sends[i]? with
  | some send =>
    if send.progress = .clearing then
      match DeviceRepository.update s.rows send.userId send.target.id clearToken with
      | (_, none) => s.move i send .settled []
      | (rows, some _) => { s.move i send .settled [.cleared i send.userId send.target.id] with rows }
    else s
  | none => s

def clearFails (i : Nat) (code : Option JsString) : State :=
  match s.sends[i]? with
  | some send =>
    if send.progress = .clearing then s.move i send .settled
      [send.log .error code "failed to clear invalid fcm token"] else s
  | none => s

def finish (n : Nat) : State :=
  match s.dispatches[n]? with
  | some ⟨userId, event, .sending⟩ =>
    if s.sends.all fun send => send.n != n || send.progress == .settled then
      { s with dispatches := s.dispatches.set n ⟨userId, event, .returned⟩ }
    else s
  | _ => s

def step (s : State) : Event → State
  | .request userId r => s.request userId r
  | .dispatch userId event => s.dispatch posix win32 userId event
  | .lookup n answered => s.lookup n answered
  | .start n => s.start n
  | .settle i outcome => s.settle i outcome
  | .timeout i => s.timeout sendTimeoutMs i
  | .clear i => s.clear i
  | .clearFails i code => s.clearFails i code
  | .finish n => s.finish n
  | .advance ms => { s with now := s.now + ms }

abbrev run (now : Nat) (es : List Event) : State := runFrom (step posix win32 sendTimeoutMs) (init now) es

end State

/-! ## The table, from the effects -/

def apply (rows : List DeviceRecord) : Effect → List DeviceRecord
  | .requested userId r => (handle rows userId r).1
  | .cleared _ userId id => (DeviceRepository.update rows userId id clearToken).1
  | _ => rows

def replay (effects : List Effect) : List DeviceRecord := runFrom apply [] effects

/-- The token that an effect stores in a row. -/
def tokenWrite (userId id : JsString) : Effect → Option (Option JsString)
  | .requested u (.create body drawn) => if u = userId ∧ canonical drawn = id then some body.fcmToken else none
  | .requested u (.patch id' body) => if u = userId ∧ canonical id' = id then body.fcmToken.map some else none
  | .cleared _ u id' => if u = userId ∧ canonical id' = id then some none else none
  | _ => none

/-- Every request in the list succeeded. -/
def Succeeded (effects : List Effect) : Prop :=
  ∀ before userId r after, effects = before ++ .requested userId r :: after →
    (handle (replay before) userId r).2.1 < 300

theorem replay_append (effects effects' : List Effect) :
    replay (effects ++ effects') = runFrom apply (replay effects) effects' :=
  runFrom_append ..

theorem replay_snoc (effects : List Effect) (e : Effect) : replay (effects ++ [e]) = apply (replay effects) e :=
  replay_append ..

theorem canonical_canonical (id : JsString) : canonical (canonical id) = canonical id := by
  rw [canonical, canonical, List.map_map]
  refine List.map_congr_left fun c _ => ?_
  simp only [Function.comp_apply, lower]
  split
  · rename_i h
    rw [if_neg]
    rintro ⟨h1, h2⟩
    have hc := UInt16.le_iff_toNat_le.mp h.1
    have hc' := UInt16.le_iff_toNat_le.mp h.2
    have hs := UInt16.le_iff_toNat_le.mp h2
    rw [UInt16.toNat_add] at hs
    have h65 : (65 : UInt16).toNat = 65 := rfl
    have h90 : (90 : UInt16).toNat = 90 := rfl
    have h32 : (32 : UInt16).toNat = 32 := rfl
    omega
  · rfl

/-- No id is there twice, and each is as the database prints it. -/
structure Keyed (rows : List DeviceRecord) : Prop where
  ids : (rows.map (·.id)).Nodup
  canonical : ∀ row ∈ rows, canonical row.id = row.id

theorem keyed_update {rows : List DeviceRecord} (h : Keyed rows) (userId id : JsString) (patch : DevicePatch) :
    Keyed (DeviceRepository.update rows userId id patch).1 := by
  have hid : ∀ row : DeviceRecord, (if row.owned userId id then row.set patch else row).id = row.id := by
    intro row
    split <;> rfl
  refine ⟨?_, fun row hrow => ?_⟩
  · show ((rows.map fun row => if row.owned userId id then row.set patch else row).map (·.id)).Nodup
    rw [List.map_map]
    exact (List.map_congr_left fun row _ => hid row) ▸ h.ids
  · obtain ⟨old, hold, rfl⟩ := List.mem_map.mp hrow
    rw [hid]
    exact h.canonical old hold

theorem keyed_handle {rows : List DeviceRecord} (h : Keyed rows) (userId : JsString) (r : DeviceRequest) :
    Keyed (handle rows userId r).1 := by
  cases r with
  | list => exact h
  | create body drawn =>
    simp only [handle]
    split
    · exact h
    · rename_i rows' record heq
      obtain ⟨hnew, rfl, rfl⟩ := create_eq heq
      refine ⟨?_, fun row hrow => ?_⟩
      · simp only [List.map_append, List.map_cons, List.map_nil]
        rw [List.nodup_append]
        refine ⟨h.ids, by simp, fun a ha b hb heq => ?_⟩
        obtain ⟨row, hrow, rfl⟩ := List.mem_map.mp ha
        exact hnew row hrow (heq.trans (List.mem_singleton.mp hb))
      · rcases List.mem_append.mp hrow with hrow | hrow
        · exact h.canonical row hrow
        · rw [List.mem_singleton.mp hrow]
          exact canonical_canonical drawn
  | patch id body =>
    have hk := keyed_update h userId id body.patch
    simp only [handle]
    split
    · split
      · rename_i heq
        rw [heq] at hk
        exact hk
      · rename_i heq
        rw [heq] at hk
        exact hk
    · exact h
  | delete id =>
    have hk : Keyed (DeviceRepository.delete rows userId id).1 :=
      ⟨h.ids.sublist (List.filter_sublist.map _), fun row hrow => h.canonical row (List.mem_of_mem_filter hrow)⟩
    simp only [handle]
    split
    · split
      · rename_i heq
        rw [heq] at hk
        exact hk
      · rename_i heq
        rw [heq] at hk
        exact hk
    · exact h

theorem keyed_replay (effects : List Effect) : Keyed (replay effects) := by
  refine runFrom_inv (I := Keyed) (fun rows e h => ?_) ⟨by simp, by simp⟩ effects
  cases e with
  | requested userId r => exact keyed_handle h userId r
  | cleared i userId id => exact keyed_update h userId id clearToken
  | _ => exact h

/-- A request that succeeds leaves in each row the token it writes, or the one that was there. -/
theorem handle_token {rows : List DeviceRecord} {userId : JsString} {r : DeviceRequest}
    (hs : (handle rows userId r).2.1 < 300)
    {row : DeviceRecord} (hrow : row ∈ (handle rows userId r).1) :
    tokenWrite row.userId row.id (.requested userId r) = some row.fcmToken ∨
      tokenWrite row.userId row.id (.requested userId r) = none ∧
        ∃ old ∈ rows, old.userId = row.userId ∧ old.id = row.id ∧ old.fcmToken = row.fcmToken := by
  cases r with
  | list => exact Or.inr ⟨rfl, row, hrow, rfl, rfl, rfl⟩
  | create body drawn =>
    simp only [handle] at hs hrow
    split at hs
    · exact absurd hs (by simp [internalError])
    · rename_i rows' record heq
      obtain ⟨hnew, rfl, rfl⟩ := create_eq heq
      rw [heq] at hrow
      rcases List.mem_append.mp hrow with hold | hnewest
      · refine Or.inr ⟨?_, row, hold, rfl, rfl, rfl⟩
        rw [tokenWrite, if_neg]
        rintro ⟨-, hid⟩
        exact hnew row hold hid.symm
      · rw [List.mem_singleton.mp hnewest]
        exact Or.inl (by simp [tokenWrite])
  | patch id body =>
    simp only [handle] at hs hrow
    split at hs
    · rename_i huuid
      rw [if_pos huuid] at hrow
      have hmem : row ∈ (DeviceRepository.update rows userId id body.patch).1 := by
        split at hrow
        · rename_i heq
          rw [heq]
          exact hrow
        · rename_i heq
          rw [heq]
          exact hrow
      obtain ⟨old, hold, rfl⟩ := List.mem_map.mp hmem
      by_cases howned : old.owned userId id = true
      · rw [if_pos howned]
        obtain ⟨hid, huser⟩ := owned_iff.mp howned
        cases htoken : body.fcmToken with
        | none =>
          refine Or.inr ⟨by simp [tokenWrite, hid, huser, htoken], old, hold, rfl, rfl, ?_⟩
          simp [DeviceRecord.set, PatchDeviceBody.patch, htoken]
        | some t =>
          refine Or.inl ?_
          simp [tokenWrite, hid, huser, htoken, DeviceRecord.set, PatchDeviceBody.patch]
      · rw [if_neg howned]
        refine Or.inr ⟨?_, old, hold, rfl, rfl, rfl⟩
        rw [tokenWrite, if_neg]
        rintro ⟨huser, hid⟩
        exact howned (owned_iff.mpr ⟨hid.symm, huser.symm⟩)
    · exact absurd hs (by simp [sendNotFound])
  | delete id =>
    have hsub : ∀ {rows' deleted}, DeviceRepository.delete rows userId id = (rows', deleted) →
      row ∈ rows' → row ∈ rows := by
      intro rows' deleted heq hmem
      cases heq
      exact List.mem_of_mem_filter hmem
    refine Or.inr ⟨rfl, row, ?_, rfl, rfl, rfl⟩
    simp only [handle] at hrow
    split at hrow
    · split at hrow
      · exact hsub ‹_› hrow
      · exact hsub ‹_› hrow
    · exact hrow

/-- A row holds the token that was written to it last. -/
theorem replay_token {effects : List Effect} (h : Succeeded effects) :
    ∀ row ∈ replay effects, lastWrite (tokenWrite row.userId row.id) effects = some row.fcmToken := by
  induction effects using List.reverseRecOn with
  | nil => simp [replay]
  | append_singleton effects e ih =>
    have hbefore : Succeeded effects := by
      intro before userId r after heq
      exact h before userId r (after ++ [e]) (by rw [heq]; simp)
    intro row hrow
    rw [replay_snoc] at hrow
    rw [lastWrite_snoc]
    have old : tokenWrite row.userId row.id e = none → row ∈ replay effects →
        (tokenWrite row.userId row.id e).or (lastWrite (tokenWrite row.userId row.id) effects) = some row.fcmToken := by
      intro hnone hmem
      rw [hnone]
      exact ih hbefore row hmem
    cases e with
    | requested userId r =>
      have hs := h effects userId r [] rfl
      rcases handle_token hs hrow with hw | ⟨hnone, before, hmem, huser, hid, htoken⟩
      · rw [hw]
        rfl
      · rw [hnone, ← huser, ← hid, ← htoken]
        exact ih hbefore before hmem
    | cleared i userId id =>
      obtain ⟨before, hmem, rfl⟩ := List.mem_map.mp hrow
      by_cases howned : before.owned userId id = true
      · rw [if_pos howned]
        obtain ⟨hid, huser⟩ := owned_iff.mp howned
        simp [tokenWrite, hid, huser, DeviceRecord.set, clearToken]
      · simp only [if_neg howned]
        rw [tokenWrite, if_neg]
        · exact ih hbefore before hmem
        · rintro ⟨huser, hid⟩
          exact howned (owned_iff.mpr ⟨hid.symm, huser.symm⟩)
    | _ => exact old rfl hrow

end NotifyHub.Push
