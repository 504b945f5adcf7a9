/-
  NotifyHub.Client.FcmService — `FcmService` (apps/client/lib/fcm/fcm_service.dart): its
  subscriptions, and the calls of `init`, `dispose` and `logout` and the publications of
  tokens that are under way.

  A call is an event where it begins and one for each platform call it awaits, which ends
  or throws at any time. What a message does when it arrives is left out.

  - `push_stops`: where no call of `init` subscribes over another's subscriptions or while
    a `logout` is under way, and no `init`, publication or cancellation is left when a
    `logout` ends, nothing is subscribed and no token is sent from then to the next `init`.
  - `init_outlives_logout`: an `init` that awaits the permission subscribes after the logout.
-/

import NotifyHub.Lib.Run
import NotifyHub.Lib.Text

namespace NotifyHub.Client.Fcm

inductive SubscriptionKind where
  | message
  | openedApp
  | token
  deriving DecidableEq

structure Subscription where
  kind : SubscriptionKind
  id : Nat
  deriving DecidableEq

/-- What a call of `init` awaits. -/
inductive InitStage where
  | permission
  | initialMessage
  | token
  /-- It has returned or thrown, or awaits its publication. -/
  | over
  deriving DecidableEq

/-- What a call of `dispose`, or of `logout`, awaits. -/
inductive TeardownStage where
  /-- One cancellation; these are left to do. -/
  | cancelling (rest : List (Option Subscription))
  | deletingToken
  | completed
  | failed
  deriving DecidableEq

structure Teardown where
  logout : Bool
  stage : TeardownStage
  deriving DecidableEq

def Teardown.over (t : Teardown) : Bool := t.stage = .completed || t.stage = .failed

/-- The subscriptions it has not cancelled. -/
def Teardown.left (t : Teardown) : List (Option Subscription) :=
  match t.stage with
  | .cancelling rest => rest
  | _ => []

/-- `_publishToken` awaits the device id, or it has gone on. -/
inductive Publication where
  | device (token : JsString)
  | over
  deriving DecidableEq

structure FcmService where
  messageSubscription : Option Subscription
  openedAppSubscription : Option Subscription
  tokenSubscription : Option Subscription
  /-- The subscriptions that are listening. -/
  active : List Subscription
  nextId : Nat
  inits : List InitStage
  teardowns : List Teardown
  publications : List Publication
  /-- The calls of `_updateFcmToken`. -/
  sent : List (JsString × JsString)
  deriving DecidableEq

inductive FcmEvent where
  | init
  /-- The platform call that an `init` awaits throws, or gives that token. -/
  | initGoesOn (n : Nat) (answer : Option (Option JsString))
  | dispose
  | logout
  | teardownGoesOn (n : Nat) (ok : Bool)
  /-- A token comes to a subscription. -/
  | tokenRefresh (subscription : Subscription) (token : JsString)
  /-- `_currentDeviceId` throws, or gives that device. -/
  | publishGoesOn (n : Nat) (deviceId : Option (Option JsString))

namespace FcmService

def new : FcmService := ⟨none, none, none, [], 0, [], [], [], []⟩

variable (s : FcmService)

def initialized : Bool := s.messageSubscription.isSome

/-- The three `listen` calls. -/
def subscribe : FcmService :=
  let m : Subscription := ⟨.message, s.nextId⟩
  let o : Subscription := ⟨.openedApp, s.nextId + 1⟩
  let t : Subscription := ⟨.token, s.nextId + 2⟩
  { s with
    messageSubscription := some m
    openedAppSubscription := some o
    tokenSubscription := some t
    active := s.active ++ [m, o, t]
    nextId := s.nextId + 3 }

/-- `subscription?.cancel()` -/
def cancel (subscription : Option Subscription) : FcmService :=
  { s with active := s.active.filter fun a => some a ≠ subscription }

/-- The start of `dispose`, up to its first await. -/
def beginTeardown (logout : Bool) : FcmService :=
  { s.cancel s.messageSubscription with
    messageSubscription := none
    openedAppSubscription := none
    tokenSubscription := none
    teardowns := s.teardowns ++ [⟨logout, .cancelling [s.openedAppSubscription, s.tokenSubscription]⟩] }

def setInit (n : Nat) (stage : InitStage) : FcmService := { s with inits := s.inits.set n stage }

def setTeardown (n : Nat) (t : Teardown) : FcmService := { s with teardowns := s.teardowns.set n t }

def publishToken (token : JsString) : FcmService := { s with publications := s.publications ++ [.device token] }

def step (s : FcmService) : FcmEvent → FcmService
  | .init => if s.initialized then s else { s with inits := s.inits ++ [.permission] }
  | .initGoesOn n answer =>
    match s.inits[n]?, answer with
    | some .permission, some _ => s.subscribe.setInit n .initialMessage
    | some .initialMessage, some _ => s.setInit n .token
    | some .token, some (some token) => (s.setInit n .over).publishToken token
    | some _, _ => s.setInit n .over
    | none, _ => s
  | .dispose => s.beginTeardown false
  | .logout => s.beginTeardown true
  | .teardownGoesOn n ok =>
    match s.teardowns[n]? with
    | some ⟨logout, .cancelling rest⟩ =>
      if ok then
        match rest with
        | subscription :: rest => (s.cancel subscription).setTeardown n ⟨logout, .cancelling rest⟩
        | [] => s.setTeardown n ⟨logout, if logout then .deletingToken else .completed⟩
      else s.setTeardown n ⟨logout, .failed⟩
    -- Whether the token was deleted makes no difference.
    | some ⟨logout, .deletingToken⟩ => s.setTeardown n ⟨logout, .completed⟩
    | _ => s
  | .tokenRefresh subscription token =>
    if subscription ∈ s.active ∧ subscription.kind = .token then s.publishToken token else s
  | .publishGoesOn n deviceId =>
    match s.publications[n]? with
    | some (.device token) =>
      let s := { s with publications := s.publications.set n .over }
      match deviceId with
      | some (some deviceId) => { s with sent := s.sent ++ [(deviceId, token)] }
      | _ => s
    | _ => s

def run (es : List FcmEvent) : FcmService := runFrom step new es

/-- A `logout` completes. -/
def CompletesLogout (s : FcmService) : FcmEvent → Prop
  | .teardownGoesOn n _ => s.teardowns[n]? = some ⟨true, .deletingToken⟩
  | _ => False

/-- Subscriptions are made where there are none and no `logout` is under way; when a `logout` completes no `init` and
    no publication is under way and no other call has subscriptions to cancel; a cancellation fails only where none is
    left to cancel. -/
def Orderly (s : FcmService) : FcmEvent → Prop
  | .initGoesOn n (some _) => s.inits[n]? = some .permission → s.initialized = false ∧ ∀ t ∈ s.teardowns,
      t.logout = true → t.over = true
  | .teardownGoesOn n ok =>
    (s.teardowns[n]? = some ⟨true, .deletingToken⟩ →
      (∀ i ∈ s.inits, i = .over) ∧ (∀ p ∈ s.publications, p = .over) ∧ ∀ t ∈ s.teardowns,
      ∀ subscription, some subscription ∉ t.left) ∧
    (ok = false → ∀ t, s.teardowns[n]? = some t → ∀ subscription, some subscription ∉ t.left)
  | _ => True

/-! ## Who holds the subscriptions -/

/-- The fields that hold subscriptions. -/
def fields : List (Option Subscription) := [s.messageSubscription, s.openedAppSubscription, s.tokenSubscription]

/-- What listens is in a field or is left to a teardown to cancel; while a `logout` is under way the fields are empty.
    -/
structure Held (s : FcmService) : Prop where
  held : ∀ a ∈ s.active, some a ∈ s.fields ∨ ∃ t ∈ s.teardowns, some a ∈ t.left
  together : s.initialized = false → ∀ a, some a ∉ s.fields
  cleared : (∃ t ∈ s.teardowns, t.logout = true ∧ t.over = false) → s.initialized = false

variable {s}

theorem held_new : Held new := ⟨nofun, fun _ _ h => by simp [fields, new] at h, fun _ => rfl⟩

theorem mem_set_cases {α : Type} {l : List α} {n : Nat} {x y : α} (h : y ∈ l.set n x) : y = x ∨ y ∈ l :=
  (List.mem_or_eq_of_mem_set h).symm

theorem held_subscribe (hh : Held s) (hnew : s.initialized = false)
    (hlogouts : ∀ t ∈ s.teardowns, t.logout = true → t.over = true)
    (n : Nat) (stage : InitStage) : Held (s.subscribe.setInit n stage) := by
  refine ⟨fun a ha => ?_, nofun, fun ⟨t, ht, hlogout, hover⟩ => ?_⟩
  · rcases List.mem_append.mp ha with hold | hin
    · rcases hh.held a hold with hfield | hleft
      · exact absurd hfield (hh.together hnew a)
      · exact .inr hleft
    · refine .inl ?_
      simp only [List.mem_cons, List.not_mem_nil, or_false] at hin
      rcases hin with rfl | rfl | rfl
      · simp [fields, setInit, subscribe]
      · simp [fields, setInit, subscribe]
      · simp [fields, setInit, subscribe]
  · rw [hlogouts t ht hlogout] at hover
    cases hover

theorem held_beginTeardown (hh : Held s) (logout : Bool) : Held (s.beginTeardown logout) := by
  refine ⟨fun a ha => ?_, fun _ a h => by simp [fields, beginTeardown] at h, fun _ => rfl⟩
  obtain ⟨hactive, hne⟩ := List.mem_filter.mp ha
  have hmessage : some a ≠ s.messageSubscription := of_decide_eq_true hne
  rcases hh.held a hactive with hfield | ⟨t, ht, hleft⟩
  · refine .inr ⟨_, List.mem_append_right _ (List.mem_singleton_self _), ?_⟩
    rcases List.mem_cons.mp hfield with heq | hrest
    · exact absurd heq hmessage
    · exact hrest
  · exact .inr ⟨t, List.mem_append_left _ ht, hleft⟩

/-- A teardown goes on: what it does not cancel then is left to it still. -/
theorem Held.setTeardown (hh : Held s) {n : Nat} {t : Teardown} (hget : s.teardowns[n]? = some t) (t' : Teardown)
    (subscription : Option Subscription) (hlogout : t'.logout = t.logout) (hover : t.over = false)
    (hleft : ∀ a, some a ∈ t.left → some a = subscription ∨ some a ∈ t'.left) :
    Held ((s.cancel subscription).setTeardown n t') := by
  have hlt := (List.getElem?_eq_some_iff.mp hget).1
  refine ⟨fun a ha => ?_, hh.together, fun ⟨u, hu, hu', hunder⟩ => ?_⟩
  · obtain ⟨hactive, hne⟩ := List.mem_filter.mp ha
    rcases hh.held a hactive with hfield | ⟨u, hu, hin⟩
    · exact .inl hfield
    · refine .inr ?_
      obtain ⟨i, hi⟩ := List.mem_iff_getElem?.mp hu
      by_cases hin' : n = i
      · subst hin'
        obtain rfl := Option.some.inj (hget.symm.trans hi)
        rcases hleft a hin with heq | hstill
        · exact absurd heq (of_decide_eq_true hne)
        · exact ⟨t', List.mem_set hlt t', hstill⟩
      · refine ⟨u, List.mem_iff_getElem?.mpr ⟨i, ?_⟩, hin⟩
        change (s.teardowns.set n t')[i]? = some u
        rw [List.getElem?_set_ne hin', hi]
  · rcases mem_set_cases hu with rfl | hold
    · exact hh.cleared ⟨t, List.mem_of_getElem? hget, hlogout.symm.trans hu', hover⟩
    · exact hh.cleared ⟨u, hold, hu', hunder⟩

theorem cancel_none : s.cancel none = s := by
  rw [cancel, List.filter_eq_self.mpr fun a _ => decide_eq_true nofun]

theorem held_step (hh : Held s) {e : FcmEvent} (horderly : Orderly s e) : Held (s.step e) := by
  have hsame : ∀ t : FcmService, t.active = s.active → t.fields = s.fields → t.teardowns = s.teardowns →
    t.initialized = s.initialized →
      Held t := by
    intro t hactive hfields hteardowns hinitialized
    exact ⟨by rw [hactive, hfields, hteardowns]; exact hh.held, by rw [hinitialized, hfields]; exact hh.together,
      by rw [hteardowns, hinitialized]; exact hh.cleared⟩
  cases e with
  | init =>
    rw [step]
    split
    · exact hh
    · exact hsame _ rfl rfl rfl rfl
  | initGoesOn n answer =>
    unfold step
    dsimp only
    split
    · rename_i answer hget
      obtain ⟨hnew, hlogouts⟩ := horderly hget
      exact held_subscribe hh hnew hlogouts n _
    · exact hsame _ rfl rfl rfl rfl
    · exact hsame _ rfl rfl rfl rfl
    · exact hsame _ rfl rfl rfl rfl
    · exact hh
  | dispose => exact held_beginTeardown hh false
  | logout => exact held_beginTeardown hh true
  | teardownGoesOn n ok =>
    unfold step
    dsimp only
    split
    · rename_i logout rest hget
      split
      · split
        · rename_i subscription left
          refine hh.setTeardown hget ⟨logout, .cancelling left⟩ subscription rfl rfl fun a ha => ?_
          rcases List.mem_cons.mp ha with heq | hrest
          · exact .inl heq
          · exact .inr hrest
        · have hend := hh.setTeardown hget ⟨logout, if logout then .deletingToken else .completed⟩ none rfl rfl
            fun a ha => absurd ha List.not_mem_nil
          rwa [cancel_none] at hend
      · rename_i hok
        have hnone := horderly.2 (Bool.eq_false_iff.mpr hok) _ hget
        have hend := hh.setTeardown hget ⟨logout, .failed⟩ none rfl rfl fun a ha => absurd ha (hnone a)
        rwa [cancel_none] at hend
    · rename_i logout hget
      have hend := hh.setTeardown hget ⟨logout, .completed⟩ none rfl rfl fun a ha => absurd ha List.not_mem_nil
      rwa [cancel_none] at hend
    · exact hh
  | tokenRefresh subscription token =>
    rw [step]
    split
    · exact hsame _ rfl rfl rfl rfl
    · exact hh
  | publishGoesOn n deviceId =>
    unfold step
    dsimp only
    split
    · split
      · exact hsame _ rfl rfl rfl rfl
      · exact hsame _ rfl rfl rfl rfl
    · exact hh

theorem held_run {es : List FcmEvent} (h : Along step Orderly new es) : Held (run es) :=
  Along.inv (I := Held) (fun _ _ hh hok => held_step hh hok) held_new h

/-! ## After a logout -/

/-- Nothing listens, and nothing is under way that could subscribe or send. -/
structure Calm (s : FcmService) : Prop where
  active : s.active = []
  inits : ∀ i ∈ s.inits, i = .over
  publications : ∀ p ∈ s.publications, p = .over

/-- The end of an orderly logout is calm. -/
theorem calm_of_completes (hh : Held s) {e : FcmEvent} (horderly : Orderly s e) (he : CompletesLogout s e) :
    Calm (s.step e) := by
  cases e with
  | teardownGoesOn n ok =>
    obtain ⟨hinits, hpublications, hleft⟩ := horderly.1 he
    have hstep : s.step (.teardownGoesOn n ok) = s.setTeardown n ⟨true, .completed⟩ := by
      unfold step
      dsimp only
      have hget : s.teardowns[n]? = some ⟨true, .deletingToken⟩ := he
      rw [hget]
    rw [hstep]
    refine ⟨List.eq_nil_iff_forall_not_mem.mpr fun a ha => ?_, hinits, hpublications⟩
    have hnew := hh.cleared ⟨_, List.mem_of_getElem? he, rfl, rfl⟩
    rcases hh.held a ha with hfield | ⟨t, ht, hin⟩
    · exact hh.together hnew a hfield
    · exact hleft t ht a hin
  | init => exact he.elim
  | initGoesOn n answer => exact he.elim
  | dispose => exact he.elim
  | logout => exact he.elim
  | tokenRefresh subscription token => exact he.elim
  | publishGoesOn n deviceId => exact he.elim

/-- Until `init` is called it stays calm, and no token is sent. -/
theorem calm_step (hc : Calm s) {e : FcmEvent} (he : e ≠ .init) : Calm (s.step e) ∧ (s.step e).sent = s.sent := by
  have hcancel : ∀ subscription, (s.cancel subscription).active = [] := by
    intro subscription
    rw [cancel, hc.active]
    rfl
  cases e with
  | init => exact absurd rfl he
  | initGoesOn n answer =>
    unfold step
    dsimp only
    split
    · rename_i hget
      cases hc.inits _ (List.mem_of_getElem? hget)
    · rename_i hget
      cases hc.inits _ (List.mem_of_getElem? hget)
    · rename_i hget
      cases hc.inits _ (List.mem_of_getElem? hget)
    · refine ⟨⟨hc.active, fun i hi => ?_, hc.publications⟩, rfl⟩
      rcases mem_set_cases hi with rfl | hold
      · rfl
      · exact hc.inits i hold
    · exact ⟨hc, rfl⟩
  | dispose => exact ⟨⟨hcancel _, hc.inits, hc.publications⟩, rfl⟩
  | logout => exact ⟨⟨hcancel _, hc.inits, hc.publications⟩, rfl⟩
  | teardownGoesOn n ok =>
    unfold step
    dsimp only
    split
    · split
      · split
        · exact ⟨⟨hcancel _, hc.inits, hc.publications⟩, rfl⟩
        · exact ⟨⟨hc.active, hc.inits, hc.publications⟩, rfl⟩
      · exact ⟨⟨hc.active, hc.inits, hc.publications⟩, rfl⟩
    · exact ⟨⟨hc.active, hc.inits, hc.publications⟩, rfl⟩
    · exact ⟨hc, rfl⟩
  | tokenRefresh subscription token =>
    rw [step, if_neg fun h => by rw [hc.active] at h; exact absurd h.1 List.not_mem_nil]
    exact ⟨hc, rfl⟩
  | publishGoesOn n deviceId =>
    unfold step
    dsimp only
    split
    · rename_i hget
      cases hc.publications _ (List.mem_of_getElem? hget)
    · exact ⟨hc, rfl⟩

theorem calm_run {es : List FcmEvent} (hc : Calm s) (hes : ∀ e ∈ es, e ≠ .init) :
    Calm (runFrom step s es) ∧ (runFrom step s es).sent = s.sent := by
  induction es generalizing s with
  | nil => exact ⟨hc, rfl⟩
  | cons e es ih =>
    obtain ⟨he, hrest⟩ := List.forall_mem_cons.mp hes
    obtain ⟨hcalm, hsent⟩ := calm_step hc he
    obtain ⟨hend, hsame⟩ := ih hcalm hrest
    exact ⟨hend, hsame.trans hsent⟩

/-- From when a `logout` completes to the next call of `init`, nothing is subscribed and no token is sent. -/
def Stops (es : List FcmEvent) : Prop :=
  ∀ (before : List FcmEvent) (e : FcmEvent) (mid after : List FcmEvent), es = before ++ e :: (mid ++ after) →
    CompletesLogout (run before) e → (∀ e' ∈ mid, e' ≠ .init) →
      (run (before ++ e :: mid)).active = [] ∧ (run (before ++ e :: mid)).sent = ((run before).step e).sent

theorem push_stops (es : List FcmEvent) (h : Along step Orderly new es) : Stops es := by
  intro before e mid after hsplit hcompletes hmid
  rw [hsplit] at h
  obtain ⟨hbefore, horderly, -⟩ := along_append.mp h
  have hrun : run (before ++ e :: mid) = runFrom step ((run before).step e) mid := runFrom_append _ before (e :: mid)
  rw [hrun]
  obtain ⟨hcalm, hsent⟩ := calm_run (calm_of_completes (held_run hbefore) horderly hcompletes) hmid
  exact ⟨hcalm.active, hsent⟩

/-- An `init` to its end, and then a `logout`. -/
def inTurn : List FcmEvent :=
  [.init, .initGoesOn 0 (some none), .initGoesOn 0 (some none), .initGoesOn 0 (some (some (js "token"))),
    .publishGoesOn 0 (some (some (js "d"))),
    .logout, .teardownGoesOn 0 true, .teardownGoesOn 0 true, .teardownGoesOn 0 true, .teardownGoesOn 0 true]

theorem inTurn_stops : (run inTurn).sent = [(js "d", js "token")] ∧ Stops inTurn := by
  refine ⟨by decide +kernel, push_stops inTurn ?_⟩
  have hother : ∀ (es : List FcmEvent), (run es).teardowns[0]? ≠ some ⟨true, .deletingToken⟩ →
    Orderly (run es) (.teardownGoesOn 0 true) :=
    fun es h => ⟨fun hget => absurd hget h, nofun⟩
  have hend : Orderly (run (inTurn.take 9)) (.teardownGoesOn 0 true) := by
    refine ⟨fun _ => ⟨by decide +kernel, by decide +kernel, fun t ht a ha => ?_⟩, nofun⟩
    obtain rfl : t = ⟨true, .deletingToken⟩ := List.mem_singleton.mp ht
    exact absurd ha List.not_mem_nil
  exact ⟨trivial, fun _ => ⟨rfl, nofun⟩, fun h => absurd h (by decide +kernel), fun h => absurd h (by decide +kernel),
    trivial, trivial,
    hother (inTurn.take 6) (by decide +kernel), hother (inTurn.take 7) (by decide +kernel),
    hother (inTurn.take 8) (by decide +kernel), hend,
    trivial⟩

/-- The `init` awaits the permission while the whole `logout` runs. -/
def outliving : List FcmEvent :=
  [.init, .logout, .teardownGoesOn 0 true, .teardownGoesOn 0 true, .teardownGoesOn 0 true, .teardownGoesOn 0 true,
    .initGoesOn 0 (some none), .initGoesOn 0 (some none), .initGoesOn 0 (some (some (js "token"))),
    .publishGoesOn 0 (some (some (js "d")))]

/-- It subscribes when the `logout` has completed, and sends the token. -/
theorem init_outlives_logout :
    (run outliving).active.length = 3 ∧ (run outliving).sent = [(js "d", js "token")] ∧ ¬ Stops outliving := by
  refine ⟨by decide +kernel, by decide +kernel, fun h => ?_⟩
  have hcompletes : CompletesLogout (run (outliving.take 5)) (.teardownGoesOn 0 true) := by
    change (run (outliving.take 5)).teardowns[0]? = some ⟨true, .deletingToken⟩
    decide +kernel
  have hmid : ∀ e ∈ outliving.drop 6, e ≠ .init := by
    rintro e he rfl
    simp [outliving] at he
  exact absurd (h (outliving.take 5) (.teardownGoesOn 0 true) (outliving.drop 6) [] rfl hcompletes hmid).1
    (by decide +kernel)

end FcmService

end NotifyHub.Client.Fcm
