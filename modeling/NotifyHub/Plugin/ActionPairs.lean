/-
  NotifyHub.Plugin.ActionPairs — the action effects of a `SessionMachine` pair up.

  An action is outstanding when the trace has its `action_required` and since then no
  `action_resolved` and nothing that resets it (`Entry.resets`): a failure, a stop, a
  completion or a disposal resets every action of the session, a busy or another provider
  action those of a provider. Proved, over every run (`actions_pair_up`):
  - an `action_required` goes out only for an action that is not outstanding, an
    `action_resolved` only for one that is, right after the signal that resolves it;
  - an ask goes out unless the action is outstanding, a resolve if it is;
  - at most one provider action is outstanding, and a retry's goes out unless it is the one.

  `Paired` carries it: the pending actions of a state are those outstanding in the trace.
  Their keys start with their kind, so what follows the prefix does not matter.
-/

import NotifyHub.Lib.Rows
import NotifyHub.Plugin.Turns

namespace NotifyHub.Plugin

open Machine

variable {O : MachineOptions}

def ActionDetails.kind : ActionDetails → PendingActionKind
  | question _ => .question
  | permission _ _ => .permission
  | providerAction .. => .providerAction

namespace Entry

def requires (sid : JsString) (k : PendingActionKind) (id : JsString) : Entry → Bool
  | effect (.actionRequired s r d) _ => s = sid ∧ d.kind = k ∧ r = id
  | _ => false

def resolves (sid : JsString) (k : PendingActionKind) (id : JsString) : Entry → Bool
  | effect (.actionResolved s r k') _ => s = sid ∧ k' = k ∧ r = id
  | _ => false

/-- What drops the session's actions of the kind without an effect. -/
def resets (sid : JsString) (k : PendingActionKind) : Entry → Bool
  | effect (.terminal s _ _) _ => s = sid
  | disposed s => s = sid
  | received s .failed _ => s = sid
  | received s .stopped _ => s = sid
  | received s .busy _ => s = sid ∧ k = .providerAction
  | effect (.actionRequired s _ (.providerAction ..)) _ => s = sid ∧ k = .providerAction
  | _ => false

end Entry

/-- The action was required, and neither resolved nor reset since. -/
def outstanding (sid : JsString) (k : PendingActionKind) (id : JsString) : List Entry → Bool
  | [] => false
  | e :: t => e.requires sid k id || (!e.resolves sid k id && !e.resets sid k && outstanding sid k id t)

theorem outstanding_cons {sid : JsString} {k : PendingActionKind} {id : JsString} {e : Entry} {t : List Entry} :
    outstanding sid k id (e :: t) = true ↔
      e.requires sid k id = true ∨ e.resolves sid k id = false ∧ e.resets sid k = false ∧
        outstanding sid k id t = true := by
  rw [outstanding]
  cases e.requires sid k id <;> cases e.resolves sid k id <;> cases e.resets sid k <;> simp

/-- What a provider action is known by. -/
def identityOf (sid : JsString) (a : RetryActionInfo) : List JsString :=
  [sid, a.provider, a.reason.getD a.title, a.label]

/-- What the entry leaves of the session's provider action, if it touches it. -/
def Entry.provider (sid : JsString) : Entry → Option (Option (List JsString))
  | received s (.retry (some a)) _ => if s = sid then some (some (identityOf sid a)) else none
  | received s .busy _ => if s = sid then some none else none
  | received s .failed _ => if s = sid then some none else none
  | received s .stopped _ => if s = sid then some none else none
  | effect (.terminal s _ _) _ => if s = sid then some none else none
  | disposed s => if s = sid then some none else none
  | _ => none

/-- The last provider action of the session's retries that nothing has cleared since. -/
def providerIdentity (sid : JsString) : List Entry → Option (List JsString)
  | [] => none
  | e :: t => (e.provider sid).getD (providerIdentity sid t)

/-! ## Keys -/

theorem requestKey_inj {k : PendingActionKind} {id id' : JsString} (h : requestKey k id = requestKey k id') :
    id = id' :=
  List.append_cancel_left h

/-- A key of pending actions of the kind. -/
def Keyed (key : JsString) : PendingActionKind → Prop
  | .question => ∃ id, key = requestKey .question id
  | .permission => ∃ id, key = requestKey .permission id
  | .providerAction => ∃ l, key = js "provider:" ++ O.digest l

/-- What the keys of the kind start with. -/
def keyTag : PendingActionKind → JsString
  | .question => js "qu"
  | .permission => js "pe"
  | .providerAction => js "pr"

theorem Keyed.tag {key : JsString} {k : PendingActionKind} (h : Keyed (O := O) key k) : key.take 2 = keyTag k := by
  cases k with
  | question | permission | providerAction =>
    obtain ⟨id, rfl⟩ := h
    rfl

/-- A key is of one kind only. -/
theorem Keyed.kind {key : JsString} {k k' : PendingActionKind} (h : Keyed (O := O) key k) (h' : Keyed (O := O) key k') :
    k = k' := by
  have htag : keyTag k = keyTag k' := h.tag.symm.trans h'.tag
  cases k <;> cases k' <;> first | rfl | exact absurd htag (by decide)

theorem keyed_asks {x : Signal} {k : PendingActionKind} {id : JsString} {details : ActionDetails}
    (hx : x.asks = some (k, id, details)) : Keyed (O := O) (requestKey k id) k ∧ details.kind = k ∧
      k ≠ .providerAction := by
  cases x with
  | questionAsked | permissionAsked =>
    cases hx
    exact ⟨⟨id, rfl⟩, rfl, nofun⟩
  | _ => cases hx

theorem keyed_resolves {x : Signal} {k : PendingActionKind} {id : JsString} (hx : x.resolves = some (k, id)) :
    Keyed (O := O) (requestKey k id) k ∧ k ≠ .providerAction := by
  cases x with
  | questionResolved | permissionResolved =>
    cases hx
    exact ⟨⟨id, rfl⟩, nofun⟩
  | _ => cases hx

/-! ## The invariant -/

/-- An entry no action of the session depends on. -/
structure Entry.Plain (e : Entry) (sid : JsString) : Prop where
  requires : ∀ k id, e.requires sid k id = false
  resolves : ∀ k id, e.resolves sid k id = false
  resets : ∀ k, e.resets sid k = false
  provider : e.provider sid = none

theorem Entry.Plain.outstanding {e : Entry} {sid : JsString} (h : e.Plain sid) (k : PendingActionKind) (id : JsString)
    (t : List Entry) : outstanding sid k id (e :: t) = Plugin.outstanding sid k id t := by
  rw [Plugin.outstanding, h.requires, h.resolves, h.resets]
  simp

theorem Entry.plain_of_ne {e : Entry} {sid : JsString} (h : e.sessionID ≠ sid) : e.Plain sid where
  requires k id := by unfold requires; split <;> simp_all
  resolves k id := by unfold resolves; split <;> simp_all
  resets k := by unfold resets; split <;> simp_all
  provider := by unfold provider; split <;> simp_all

theorem Entry.Plain.identity {e : Entry} {sid : JsString} (h : e.Plain sid) (t : List Entry) :
    providerIdentity sid (e :: t) = providerIdentity sid t := by
  rw [providerIdentity, h.provider]
  rfl

/-- An effect stands where it belongs. -/
structure Due (sid : JsString) (e : Entry) (t : List Entry) : Prop where
  required : ∀ k id, e.requires sid k id = true → outstanding sid k id t = false
  resolved : ∀ k id, e.resolves sid k id = true → outstanding sid k id t = true ∧
    ∃ x time t', t = .received sid x time :: t' ∧ x.resolves = some (k, id)

theorem due_of_silent {sid : JsString} {e : Entry} (hq : ∀ k id, e.requires sid k id = false)
    (hr : ∀ k id, e.resolves sid k id = false) (t : List Entry) : Due sid e t where
  required k id h := by
    rw [hq] at h
    cases h
  resolved k id h := by
    rw [hr] at h
    cases h

variable (O) in
/-- The pending actions of the state are those outstanding in the trace. -/
structure Paired (sid : JsString) (t : List Entry) (s : SessionState) : Prop where
  keyed : ∀ key k, s.pendingActions.get key = some k → Keyed (O := O) key k
  pending : ∀ k id, s.pendingActions.get (requestKey k id) = some k ↔ outstanding sid k id t = true
  provider : ∀ key, s.pendingActions.get key = some .providerAction ↔
    ∃ l, providerIdentity sid t = some l ∧ key = js "provider:" ++ O.digest l
  due : ∀ e t', e :: t' <:+ t → Due sid e t'

section
variable {sid : JsString} {t : List Entry} {s : SessionState}

theorem Paired.cons (h : Paired O sid t s) {e : Entry} (he : e.Plain sid) : Paired O sid (e :: t) s where
  keyed := h.keyed
  pending k id := by rw [he.outstanding]; exact h.pending k id
  provider key := by rw [he.identity]; exact h.provider key
  due := forall_suffix_cons (due_of_silent he.requires he.resolves t) h.due

/-- Only the pending actions count. -/
theorem Paired.congr (h : Paired O sid t s) {s' : SessionState} (ha : s'.pendingActions = s.pendingActions) :
    Paired O sid t s' where
  keyed := by rw [ha]; exact h.keyed
  pending := by rw [ha]; exact h.pending
  provider := by rw [ha]; exact h.provider
  due := h.due

theorem Paired.opening (h : Paired O sid t s) (r : SessionState) : Paired O sid (opening sid r ++ t) s := by
  unfold Plugin.opening
  split
  · exact h
  · exact h.cons ⟨fun _ _ => rfl, fun _ _ => rfl, fun _ => rfl, rfl⟩

/-- What has a pending action's key has that action pending. -/
theorem Paired.has (h : Paired O sid t s) {key : JsString} {k : PendingActionKind} (hk : Keyed (O := O) key k) :
    s.pendingActions.has key = true ↔ s.pendingActions.get key = some k := by
  rw [OMap.has, Option.isSome_iff_exists]
  constructor
  · rintro ⟨k', hk'⟩
    rw [hk', (h.keyed key k' hk').kind hk]
  · exact fun hk' => ⟨k, hk'⟩

/-- An entry that drops every action of the session. -/
theorem Paired.reset (h : Paired O sid t s) {e : Entry} (hq : ∀ k id, e.requires sid k id = false)
    (hs : ∀ k, e.resets sid k = true) (hr : ∀ k id, e.resolves sid k id = false)
    (hi : e.provider sid = some none) {s' : SessionState} (ha : s'.pendingActions = .empty) :
    Paired O sid (e :: t) s' where
  keyed key k hk := by
    rw [ha] at hk
    cases hk
  pending k id := by
    rw [ha, outstanding, hq, hs]
    simp
  provider key := by
    rw [ha, providerIdentity, hi]
    simp
  due := forall_suffix_cons (due_of_silent hq hr t) h.due

theorem withoutProvider_get (key : JsString) (k : PendingActionKind) :
    s.withoutProvider.pendingActions.get key = some k ↔ s.pendingActions.get key = some k ∧ k ≠ .providerAction := by
  show (s.pendingActions.filter _).get key = some k ↔ _
  rw [OMap.get_filter, Option.filter_eq_some_iff, decide_eq_true_iff]

/-- A busy drops the provider's action. -/
theorem Paired.busy (h : Paired O sid t s) (time : Nat) :
    Paired O sid (.received sid .busy time :: t) s.withoutProvider where
  keyed key k hk := h.keyed key k ((withoutProvider_get key k).mp hk).1
  pending k id := by
    rw [withoutProvider_get, h.pending, outstanding]
    simp [Entry.requires, Entry.resolves, Entry.resets]
    tauto
  provider key := by
    rw [withoutProvider_get]
    simp [providerIdentity, Entry.provider]
  due := forall_suffix_cons (due_of_silent (fun _ _ => rfl) (fun _ _ => rfl) t) h.due

/-- A retry with the provider action that is pending. -/
theorem Paired.sameProvider (h : Paired O sid t s) (time : Nat) (a : RetryActionInfo)
    (ha : s.pendingActions.get (providerActionKey O sid a) = some .providerAction) :
    Paired O sid (.received sid (.retry (some a)) time :: t) s where
  keyed := h.keyed
  pending k id := by
    rw [h.pending, outstanding]
    simp [Entry.requires, Entry.resolves, Entry.resets]
  provider key := by
    obtain ⟨l, hl, hkey⟩ := (h.provider _).mp ha
    rw [h.provider, hl]
    simp only [providerIdentity, Entry.provider, if_true, Option.getD_some, Option.some.injEq, exists_eq_left']
    exact hkey ▸ Iff.rfl
  due := forall_suffix_cons (due_of_silent (fun _ _ => rfl) (fun _ _ => rfl) t) h.due

/-- A retry with another provider action: what was logged before its effect is `r`. -/
theorem Paired.newProvider (h : Paired O sid t s) (r : List Entry) (time : Nat) (a : RetryActionInfo)
    (ha : s.pendingActions.get (providerActionKey O sid a) ≠ some .providerAction)
    (hout : ∀ k id, outstanding sid k id r = outstanding sid k id t)
    (hid : providerIdentity sid r = some (identityOf sid a)) (hdue : ∀ e t', e :: t' <:+ r → Due sid e t') :
    Paired O sid (.effect (.actionRequired sid (providerActionKey O sid a) (actionOf a)) time :: r)
      (s.withoutProvider.withAction .providerAction (providerActionKey O sid a)) := by
  have hkey : Keyed (O := O) (providerActionKey O sid a) .providerAction := ⟨identityOf sid a, rfl⟩
  have hget : ∀ key k, (s.withoutProvider.withAction .providerAction (providerActionKey O sid a)).pendingActions.get
    key = some k ↔
      key = providerActionKey O sid a ∧ k = .providerAction ∨
        key ≠ providerActionKey O sid a ∧ s.pendingActions.get key = some k ∧ k ≠ .providerAction := by
    intro key k
    show (s.withoutProvider.pendingActions.set _ _).get key = some k ↔ _
    rw [OMap.get_set]
    by_cases hk : key = providerActionKey O sid a
    · simp [hk, eq_comm]
    · simp [hk, withoutProvider_get]
  refine ⟨fun key k hk => ?_, fun k id => ?_, fun key => ?_,
    forall_suffix_cons ⟨fun k id hq => ?_, (by rintro _ _ ⟨⟩)⟩ hdue⟩
  · rcases (hget key k).mp hk with ⟨rfl, rfl⟩ | ⟨-, hk, -⟩
    · exact hkey
    · exact h.keyed key k hk
  · rw [hget, outstanding_cons, hout, ← h.pending]
    by_cases hk : k = .providerAction
    · subst hk
      simp only [requestKey, List.nil_append, Entry.requires, Entry.resets, actionOf, ActionDetails.kind,
        true_and, and_true,
        decide_true, decide_eq_true_eq, Bool.true_eq_false, false_and, and_false, or_false, ne_eq, not_true_eq_false]
      exact eq_comm
    · -- a key of another kind is not the provider's
      have hne : s.pendingActions.get (requestKey k id) = some k → requestKey k id ≠ providerActionKey O sid a :=
        fun hp he => hk ((h.keyed _ k hp).kind (he ▸ hkey))
      have hreq : (Entry.effect (.actionRequired sid (providerActionKey O sid a) (actionOf a)) time).requires
        sid k id = false := by
        simp only [Entry.requires, actionOf, ActionDetails.kind, true_and, decide_eq_false_iff_not, not_and]
        exact fun he => absurd he.symm hk
      have hres : (Entry.effect (.actionRequired sid (providerActionKey O sid a) (actionOf a)) time).resets sid k =
        false := by
        simp only [Entry.resets, actionOf, true_and, decide_eq_false_iff_not]
        exact hk
      rw [hreq, hres]
      simp only [Entry.resolves, hk, ne_eq, not_false_eq_true, and_true, and_false, false_or,
        true_and, Bool.false_eq_true]
      exact ⟨And.right, fun hp => ⟨hne hp, hp⟩⟩
  · rw [hget, providerIdentity, show Entry.provider sid (.effect (.actionRequired sid _ (actionOf a)) time) =
      none from rfl,
      Option.getD_none, hid]
    simp only [Option.some.injEq, exists_eq_left', ne_eq, not_true_eq_false, and_false, or_false, and_true]
    exact Iff.rfl
  · -- the effect is of an action that is not pending
    obtain ⟨-, hkind, hreq⟩ : sid = sid ∧ (actionOf a).kind = k ∧ providerActionKey O sid a = id := by
      simpa [Entry.requires] using hq
    rw [hout, ← Bool.not_eq_true, ← h.pending, ← hkind, ← hreq]
    exact ha

theorem Paired.asked (h : Paired O sid t s) {x : Signal} {k : PendingActionKind} {requestID : JsString}
    {details : ActionDetails} (hx : x.asks = some (k, requestID, details))
    (hno : s.pendingActions.has (requestKey k requestID) = false) (time : Nat) :
    Paired O sid (.effect (.actionRequired sid requestID details) time :: t)
      (s.withAction k (requestKey k requestID)) := by
  obtain ⟨hkey, hkind, hk⟩ := keyed_asks (O := O) hx
  have hnone : s.pendingActions.get (requestKey k requestID) ≠ some k := fun hsome => by
    rw [(h.has hkey).mpr hsome] at hno
    cases hno
  have hget : ∀ key k', (s.withAction k (requestKey k requestID)).pendingActions.get key = some k' ↔
      key = requestKey k requestID ∧ k' = k ∨ key ≠ requestKey k requestID ∧ s.pendingActions.get key = some k' := by
    intro key k'
    show (s.pendingActions.set _ _).get key = some k' ↔ _
    rw [OMap.get_set]
    by_cases hk : key = requestKey k requestID
    · simp [hk, eq_comm]
    · simp [hk]
  have hresets : ∀ k', (Entry.effect (.actionRequired sid requestID details) time).resets sid k' = false := by
    intro k'
    cases details with
    | providerAction => exact absurd hkind.symm hk
    | question | permission => rfl
  refine ⟨fun key k' hk' => ?_, fun k' id => ?_, fun key => ?_,
    forall_suffix_cons ⟨fun k' id hq => ?_, (by rintro _ _ ⟨⟩)⟩ h.due⟩
  · rcases (hget key k').mp hk' with ⟨rfl, rfl⟩ | ⟨-, hk'⟩
    · exact hkey
    · exact h.keyed key k' hk'
  · rw [hget, outstanding_cons, hresets, ← h.pending]
    by_cases hid : requestKey k' id = requestKey k requestID ∧ k' = k
    · obtain ⟨hid, rfl⟩ := hid
      have hid := requestKey_inj hid
      simp [Entry.requires, hkind, hid]
    · have hne : s.pendingActions.get (requestKey k' id) = some k' → requestKey k' id ≠ requestKey k requestID :=
        fun hp he => hid ⟨he, (h.keyed _ k' hp).kind (he ▸ hkey)⟩
      have hreq : (Entry.effect (.actionRequired sid requestID details) time).requires sid k' id = false := by
        simp only [Entry.requires, hkind, true_and, decide_eq_false_iff_not, not_and]
        intro hk' hid'
        exact hid ⟨by rw [hk', hid'], hk'.symm⟩
      rw [hreq]
      simp [Entry.resolves, hid]
      exact hne
  · rw [hget, h.provider, providerIdentity,
      show Entry.provider sid (.effect (.actionRequired sid requestID details) time) = none from rfl]
    constructor
    · rintro (⟨-, hk'⟩ | ⟨-, hl⟩)
      · exact absurd hk'.symm hk
      · exact hl
    · intro hl
      refine Or.inr ⟨fun he => hk ?_, hl⟩
      exact (hkey.kind (he ▸ h.keyed key _ ((h.provider key).mpr hl)))
  · obtain ⟨-, rfl, rfl⟩ : sid = sid ∧ k = k' ∧ requestID = id := by simpa [Entry.requires, hkind] using hq
    rw [← Bool.not_eq_true, ← h.pending]
    exact hnone

theorem Paired.resolved (h : Paired O sid t s) {k : PendingActionKind} {requestID : JsString}
    (hk : k ≠ .providerAction) (hsome : s.pendingActions.get (requestKey k requestID) = some k)
    (hhead : ∃ x time t', t = .received sid x time :: t' ∧ x.resolves = some (k, requestID)) (time : Nat) :
    Paired O sid (.effect (.actionResolved sid requestID k) time :: t) (s.withoutAction (requestKey k requestID)) := by
  have hkey := h.keyed _ _ hsome
  have hget : ∀ key k', (s.withoutAction (requestKey k requestID)).pendingActions.get key = some k' ↔
      key ≠ requestKey k requestID ∧ s.pendingActions.get key = some k' := by
    intro key k'
    show (s.pendingActions.delete _).get key = some k' ↔ _
    rw [OMap.get_delete]
    by_cases hk : key = requestKey k requestID
    · simp [hk]
    · simp [hk]
  refine ⟨fun key k' hk' => h.keyed key k' ((hget key k').mp hk').2, fun k' id => ?_, fun key => ?_,
    forall_suffix_cons ⟨(by rintro _ _ ⟨⟩), fun k' id hr => ?_⟩ h.due⟩
  · rw [hget, outstanding_cons, ← h.pending]
    by_cases hid : k = k' ∧ requestID = id
    · obtain ⟨rfl, rfl⟩ := hid
      simp [Entry.requires, Entry.resolves]
    · have hne : s.pendingActions.get (requestKey k' id) = some k' → requestKey k' id ≠ requestKey k requestID := by
        intro hp he
        obtain rfl : k' = k := (h.keyed _ k' hp).kind (he ▸ hkey)
        exact hid ⟨rfl, (requestKey_inj he).symm⟩
      have hres : (Entry.effect (.actionResolved sid requestID k) time).resolves sid k' id = false := by
        simpa [Entry.resolves] using hid
      rw [hres]
      simp [Entry.requires, Entry.resets]
      exact hne
  · rw [hget, h.provider, providerIdentity, show Entry.provider sid (.effect (.actionResolved sid requestID k) time) =
      none from rfl]
    constructor
    · exact And.right
    · intro hl
      refine ⟨fun he => hk ?_, hl⟩
      exact hkey.kind (he ▸ h.keyed key _ ((h.provider key).mpr hl))
  · obtain ⟨-, rfl, rfl⟩ : sid = sid ∧ k = k' ∧ requestID = id := by simpa [Entry.resolves] using hr
    exact ⟨(h.pending k requestID).mp hsome, hhead⟩

end

theorem activated_actions (s : SessionState) (now handle : Nat) (status : SessionStatus) :
    (s.activated O now handle status).pendingActions = s.pendingActions := by
  obtain ⟨_, _, he⟩ := s.activated_eq (O := O) now handle status
  rw [he]

theorem resets_outcome (sid : JsString) {x : Signal} {outcome : TerminalOutcome} (hx : x.outcome = some outcome)
    (time : Nat) :
    (∀ k, (Entry.received sid x time).resets sid k = true) ∧ (Entry.received sid x time).provider sid = some none := by
  cases x with
  | failed | stopped => exact ⟨fun k => decide_eq_true rfl, if_pos rfl⟩
  | _ => cases hx

theorem plain_asks {sid : JsString} {x : Signal} {p : PendingActionKind × JsString × ActionDetails}
    (hx : x.asks = some p) (time : Nat) : (Entry.received sid x time).Plain sid := by
  cases x with
  | questionAsked | permissionAsked => exact ⟨fun _ _ => rfl, fun _ _ => rfl, fun _ => rfl, rfl⟩
  | _ => cases hx

theorem plain_resolves {sid : JsString} {x : Signal} {p : PendingActionKind × JsString}
    (hx : x.resolves = some p) (time : Nat) : (Entry.received sid x time).Plain sid := by
  cases x with
  | questionResolved | permissionResolved => exact ⟨fun _ _ => rfl, fun _ _ => rfl, fun _ => rfl, rfl⟩
  | _ => cases hx

/-- What a retry logs before its effect. -/
theorem outstanding_retry (sid : JsString) (s : SessionState) (time : Nat) (a : RetryActionInfo) (t : List Entry)
    (k : PendingActionKind) (id : JsString) :
    outstanding sid k id (opening sid s ++ .received sid (.retry (some a)) time :: t) = outstanding sid k id t := by
  unfold Plugin.opening
  split <;> simp [outstanding, Entry.requires, Entry.resolves, Entry.resets]

theorem providerIdentity_retry (sid : JsString) (s : SessionState) (time : Nat) (a : RetryActionInfo) (t : List Entry) :
    providerIdentity sid (opening sid s ++ .received sid (.retry (some a)) time :: t) = some (identityOf sid a) := by
  unfold Plugin.opening
  split <;> simp [providerIdentity, Entry.provider]

theorem Paired.turn {now time : Nat} {sid : JsString} {t : List Entry} {s s' : SessionState} {es : List Entry}
    (h : Paired O sid t s) (ht : Turn O now time sid s es s') : Paired O sid (es ++ t) s' := by
  have hplain : ∀ e : Entry, e.Plain sid → Paired O sid (e :: t) s := fun e he => h.cons he
  cases ht with
  | rest => exact h
  | busy handle =>
    rw [List.append_assoc]
    refine ((h.busy time).opening s).congr ?_
    rw [SessionState.withoutProvider, SessionState.withoutProvider, activated_actions]
  | retry handle action hsame =>
    rw [List.append_assoc]
    refine (Paired.opening ?_ s).congr (activated_actions s now handle .retry)
    cases action with
    | none => exact h.cons ⟨fun _ _ => rfl, fun _ _ => rfl, fun _ => rfl, rfl⟩
    | some a => exact h.sameProvider time a (hsame a rfl)
  | provider handle a hnew =>
    rw [List.cons_append, List.append_assoc]
    refine (h.newProvider _ time a hnew (outstanding_retry sid s time a t)
      (providerIdentity_retry sid s time a t) ?_).congr ?_
    · have hr : ∀ e t', e :: t' <:+ .received sid (.retry (some a)) time :: t → Due sid e t' :=
        forall_suffix_cons (due_of_silent (fun _ _ => rfl) (fun _ _ => rfl) t) h.due
      unfold Plugin.opening
      split
      · exact hr
      · exact forall_suffix_cons (due_of_silent (fun _ _ => rfl) (fun _ _ => rfl) _) hr
    · simp only [SessionState.withAction, SessionState.withoutProvider, activated_actions]
  | idle handle =>
    refine (h.cons (e := .received sid .idle time) ⟨fun _ _ => rfl, fun _ _ => rfl, fun _ => rfl, rfl⟩).congr ?_
    unfold SessionState.idled
    split <;> rfl
  | ended x outcome hx =>
    obtain ⟨hresets, hprovider⟩ := resets_outcome sid hx time
    have h1 : Paired O sid (.received sid x time :: t) (s.ended outcome) :=
      h.reset (fun _ _ => rfl) hresets (fun _ _ => rfl) hprovider rfl
    rw [List.append_assoc]
    split
    · exact h1
    · exact h1.reset (e := .effect (.terminal sid outcome _) time) (fun _ _ => rfl) (fun _ => decide_eq_true rfl)
        (fun _ _ => rfl) (if_pos rfl) rfl
  | repeated x _ _ _ hx => exact h.cons (plain_asks hx time)
  | asked x _ _ _ hx hno => exact (h.cons (plain_asks hx time)).asked hx hno time
  | unknown x _ _ hx => exact h.cons (plain_resolves hx time)
  | resolved x k requestID hx hsome =>
    exact (h.cons (plain_resolves hx time)).resolved (keyed_resolves (O := O) hx).2 hsome ⟨x, time, t, rfl, hx⟩ time
  | completed flushed =>
    have h1 : Paired O sid ((if flushed then [Entry.flushed sid] else []) ++ t) s := by
      cases flushed with
      | false => exact h
      | true => exact h.cons ⟨fun _ _ => rfl, fun _ _ => rfl, fun _ => rfl, rfl⟩
    exact h1.reset (e := .effect (.terminal sid .completed _) time) (fun _ _ => rfl) (fun _ => decide_eq_true rfl)
      (fun _ _ => rfl) (if_pos rfl) rfl
  | beat => exact (h.cons ⟨fun _ _ => rfl, fun _ _ => rfl, fun _ => rfl, rfl⟩).congr rfl
  | stopped => exact h.congr rfl
  | rearmed handle =>
    refine h.congr ?_
    unfold SessionState.armed
    split <;> rfl
  | disposed =>
    exact h.reset (e := .disposed sid) (fun _ _ => rfl) (fun _ => decide_eq_true rfl) (fun _ _ => rfl)
      (if_pos rfl) rfl

theorem paired_run (es : List MachineEvent) (sid : JsString) :
    Paired O sid (run O es).trace ((run O es).state sid) := by
  rw [← clocked_map]
  refine Kept.run (O := O) (I := fun t s => Paired O sid (t.map Prod.snd) s)
    ⟨fun t s now e he h => h.cons (Entry.plain_of_ne he), fun now time t s es s' ht h => ?_⟩ ?_ es
  · rw [List.map_append, List.map_map]
    have hes : es.map (Prod.snd ∘ fun e => (now, e)) = es := List.map_id es
    rw [hes]
    exact h.turn ht
  · refine ⟨fun key k hk => ?_, fun k id => ?_, fun key => ?_, fun e t' hsuf => ?_⟩
    · cases hk
    · exact iff_of_false nofun nofun
    · exact iff_of_false nofun nofun
    · cases List.suffix_nil.mp hsuf

/-! ## Signals -/

theorem asked_trace {m : Machine} (hg : Good O m) (sid : JsString) {x : Signal} {k : PendingActionKind} {id : JsString}
    {details : ActionDetails} (hx : x.asks = some (k, id, details)) :
    (m.signal O sid x).trace = (if (m.state sid).pendingActions.has (requestKey k id) then []
      else [.effect (.actionRequired sid id details) m.time]) ++ .received sid x m.time :: m.trace := by
  have hs := m.stateFor_get sid
  have hsame := same_stateFor hg sid
  have ho := (hg.stateFor sid).held hs
  rw [← signal_stateFor, ← hsame.state, ← hsame.time, ← hsame.trace]
  generalize (m.stateFor sid).2 = o at hs ho
  generalize (m.stateFor sid).1 = m1 at hs ho ⊢
  have h := ((Local.refl m1 o).log (.received sid x m1.time)).onAsked hs k id details
  have hsig : m1.signal O sid x = (m1.log (.received sid x m1.time)).onAsked sid k id details := by
    cases x with
    | questionAsked | permissionAsked => cases hx; rfl
    | _ => cases hx
  rw [hsig, ho.state]
  split at h
  · rename_i hhas
    rw [h.trace, if_pos hhas]
    rfl
  · rename_i hhas
    rw [h.trace, if_neg hhas]
    rfl

theorem resolved_trace {m : Machine} (hg : Good O m) (sid : JsString) {x : Signal} {k : PendingActionKind}
    {id : JsString}
    (hx : x.resolves = some (k, id)) :
    (m.signal O sid x).trace = (if (m.state sid).pendingActions.get (requestKey k id) = some k
      then [.effect (.actionResolved sid id k) m.time] else []) ++ .received sid x m.time :: m.trace := by
  have hs := m.stateFor_get sid
  have hsame := same_stateFor hg sid
  have ho := (hg.stateFor sid).held hs
  rw [← signal_stateFor, ← hsame.state, ← hsame.time, ← hsame.trace]
  generalize (m.stateFor sid).2 = o at hs ho
  generalize (m.stateFor sid).1 = m1 at hs ho ⊢
  have h := ((Local.refl m1 o).log (.received sid x m1.time)).onResolved hs k id
  have hsig : m1.signal O sid x = (m1.log (.received sid x m1.time)).onResolved sid k id := by
    cases x with
    | questionResolved | permissionResolved => cases hx; rfl
    | _ => cases hx
  rw [hsig, ho.state]
  split at h
  · rename_i hget
    rw [h.trace, if_neg hget]
    rfl
  · rename_i hget
    rw [h.trace, if_pos (not_not.mp hget)]
    rfl

theorem retry_trace {m : Machine} (hg : Good O m) (sid : JsString) (a : RetryActionInfo) :
    ∃ opens, (opens = [] ∨ opens = [.opened sid]) ∧ (m.signal O sid (.retry (some a))).trace =
      (if (m.state sid).pendingActions.get (providerActionKey O sid a) = some .providerAction then []
        else [.effect (.actionRequired sid (providerActionKey O sid a) (actionOf a)) m.time]) ++
      (opens ++ .received sid (.retry (some a)) m.time :: m.trace) := by
  have hs := m.stateFor_get sid
  have hsame := same_stateFor hg sid
  have ho := (hg.stateFor sid).held hs
  rw [← signal_stateFor, ← hsame.state, ← hsame.time, ← hsame.trace]
  generalize (m.stateFor sid).2 = o at hs ho
  generalize (m.stateFor sid).1 = m1 at hs ho ⊢
  obtain ⟨handle, h⟩ := ((Local.refl m1 o).log (.received sid (.retry (some a)) m1.time)).onActive (O := O) hs .retry
  replace h := h.onProviderAction (O := O) hs a
  rw [activated_actions] at h
  refine ⟨opening sid (m1.objects o), ?_, ?_⟩
  · unfold Plugin.opening
    split
    · exact Or.inl rfl
    · exact Or.inr rfl
  · have hsig : m1.signal O sid (.retry (some a)) =
        ((m1.log (.received sid (.retry (some a)) m1.time)).onActive O sid .retry).onProviderAction O sid a := rfl
    rw [hsig, ho.state]
    split at h
    · rename_i hget
      rw [h.trace, if_pos hget]
      simp
    · rename_i hget
      rw [h.trace, if_neg hget]
      simp

/-! ## The theorem -/

variable (O) in
/-- The session's action effects after a run, and those of its next step. -/
structure PairsUp (es : List MachineEvent) (sid : JsString) : Prop where
  required : ∀ e t k id, e :: t <:+ (run O es).trace → e.requires sid k id = true → outstanding sid k id t = false
  resolved : ∀ e t k id, e :: t <:+ (run O es).trace → e.resolves sid k id = true → outstanding sid k id t = true ∧
    ∃ x time t', t = .received sid x time :: t' ∧ x.resolves = some (k, id)
  one_provider : ∀ id id', outstanding sid .providerAction id (run O es).trace = true →
    outstanding sid .providerAction id' (run O es).trace = true → id = id'
  asks : ∀ (e : MachineEvent) x k id details, e.op = .signal sid x → x.asks = some (k, id, details) →
    ((run O es).step O e).trace = (if outstanding sid k id (run O es).trace then []
      else [.effect (.actionRequired sid id details) (max (run O es).time e.time)]) ++
        .received sid x (max (run O es).time e.time) :: (run O es).trace
  resolves : ∀ (e : MachineEvent) x k id, e.op = .signal sid x → x.resolves = some (k, id) →
    ((run O es).step O e).trace = (if outstanding sid k id (run O es).trace
      then [.effect (.actionResolved sid id k) (max (run O es).time e.time)] else []) ++
        .received sid x (max (run O es).time e.time) :: (run O es).trace
  /-- A retry's action goes out again once it has changed or been cleared. -/
  retries : ∀ (e : MachineEvent) a, e.op = .signal sid (.retry (some a)) →
    ∃ opens, (opens = [] ∨ opens = [.opened sid]) ∧ ((run O es).step O e).trace =
      (if providerIdentity sid (run O es).trace = some (identityOf sid a) then []
        else [.effect (.actionRequired sid (providerActionKey O sid a) (actionOf a)) (max (run O es).time e.time)]) ++
      (opens ++ .received sid (.retry (some a)) (max (run O es).time e.time) :: (run O es).trace)

theorem actions_pair_up (hdigest : Function.Injective O.digest) (es : List MachineEvent) (sid : JsString) :
    PairsUp O es sid := by
  have h := paired_run (O := O) es sid
  have hnow : ∀ e : MachineEvent, Good O { run O es with nowMs := e.nowMs, time := max (run O es).time e.time } :=
    fun e => (good_run es).quiet
      ⟨rfl, rfl, fun _ => rfl, fun _ => rfl, fun _ => rfl, fun _ _ h _ => h, [], rfl, by simp⟩
  have hstep : ∀ (e : MachineEvent) x, e.op = .signal sid x → (run O es).step O e =
      ({ run O es with nowMs := e.nowMs, time := max (run O es).time e.time } : Machine).signal O sid x := by
    intro e x hop
    rw [Machine.step, hop]
    rfl
  refine ⟨fun e t k id hsuf => (h.due e t hsuf).required k id, fun e t k id hsuf => (h.due e t hsuf).resolved k id,
    ?_, ?_, ?_, ?_⟩
  · intro id id' hid hid'
    obtain ⟨l, hl, rfl⟩ := (h.provider id).mp ((h.pending .providerAction id).mpr hid)
    obtain ⟨l', hl', rfl⟩ := (h.provider id').mp ((h.pending .providerAction id').mpr hid')
    rw [Option.some.inj (hl.symm.trans hl')]
  · intro e x k id details hop hx
    rw [hstep e x hop, asked_trace (hnow e) sid hx]
    have hhas : ((run O es).state sid).pendingActions.has (requestKey k id) = outstanding sid k id
      (run O es).trace := by
      rw [Bool.eq_iff_iff, h.has (keyed_asks hx).1, h.pending]
    rw [← hhas]
    rfl
  · intro e x k id hop hx
    rw [hstep e x hop, resolved_trace (hnow e) sid hx]
    simp only [← h.pending k id]
    rfl
  · intro e a hop
    rw [hstep e _ hop]
    obtain ⟨opens, hopens, htrace⟩ := retry_trace (hnow e) sid a
    refine ⟨opens, hopens, htrace.trans ?_⟩
    -- the pending key is the last retry's, whose identity its digest tells
    have hpending : ((run O es).state sid).pendingActions.get (providerActionKey O sid a) = some .providerAction ↔
        providerIdentity sid (run O es).trace = some (identityOf sid a) := by
      rw [h.provider]
      constructor
      · rintro ⟨l, hl, hkey⟩
        have hid : identityOf sid a = l := hdigest (List.append_cancel_left hkey)
        rw [hl, hid]
      · exact fun hl => ⟨identityOf sid a, hl, rfl⟩
    simp only [← hpending]
    rfl

/-! ## A provider's action -/

/-- The SHA-256 of the identity `["s","p","quota","Retry"]`; other identities do not collide. -/
def sampleDigest (l : List JsString) : JsString :=
  if l = [js "s", js "p", js "quota", js "Retry"] then
    js "8c90d0aee16d683025d86d7017dab1399c5f091de64719edc7655e8319c21925"
  else 0 :: l.flatMap fun s => 1 :: (s.flatMap (fun c => [1, c]) ++ [0])

theorem sampleDigest_inj : Function.Injective sampleDigest := by
  have hcode : ∀ l l' : List JsString, (l.flatMap fun s => 1 :: (s.flatMap (fun c => [1, c]) ++ [(0 : UInt16)])) =
      (l'.flatMap fun s => 1 :: (s.flatMap (fun c => [1, c]) ++ [0])) → l = l' := by
    intro l
    induction l with
    | nil =>
      intro l' h
      cases l' with
      | nil => rfl
      | cons s l' => cases h
    | cons s l ih =>
      intro l' h
      cases l' with
      | nil => cases h
      | cons s' l' =>
        simp only [List.flatMap_cons, List.cons_append, List.append_assoc, List.nil_append,
          List.cons.injEq, true_and] at h
        obtain ⟨rfl, h'⟩ := marked_inj (by decide) h
        rw [ih l' h']
  intro l l' h
  unfold sampleDigest at h
  split at h <;> split at h
  · rename_i hl hl'
    rw [hl, hl']
  · exact absurd (show (some 56 : Option UInt16) = some 0 from congrArg List.head? h) (by decide)
  · exact absurd (show (some 0 : Option UInt16) = some 56 from congrArg List.head? h) (by decide)
  · exact hcode l l' (List.cons.inj h).2

def sampleOptions : MachineOptions := ⟨100, 1000, false, sampleDigest⟩

def quotaAction : RetryActionInfo := ⟨some (js "quota"), js "p", js "Quota exceeded", js "Try later", js "Retry", none⟩

/-- A retry with the same action but another message logs no second effect. -/
theorem quota_pairs_up : PairsUp sampleOptions [⟨5, 5, .signal (js "s") (.retry (some quotaAction))⟩] (js "s") ∧
    (run sampleOptions [⟨5, 5, .signal (js "s") (.retry (some quotaAction))⟩,
      ⟨6, 6, .signal (js "s") (.retry (some { quotaAction with message := js "Wait" }))⟩]).trace.length = 4 :=
  ⟨actions_pair_up sampleDigest_inj _ _, by decide⟩

end NotifyHub.Plugin
