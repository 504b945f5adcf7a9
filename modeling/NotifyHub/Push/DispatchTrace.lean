/-
  NotifyHub.Push.DispatchTrace — what a run of the push dispatcher can do (see
  `NotifyHub.Push.Dispatcher`).

  Each effect of a run is justified by those before it: a push is to a target that its
  dispatch listed, one to each, with the content built from the event; a clean-up is of a
  send that was rejected as invalid before its timeout, one to each (`push_dispatch`). The
  token it clears is the one sent to, unless one was stored since the targets were read;
  then it is that one (`new_token_cleared`).
-/

import NotifyHub.Push.Dispatcher

namespace NotifyHub.Push

open Contracts

/-! ## What comes before an effect -/

/-- A send has begun, and neither been rejected as invalid nor run out of time. -/
def Open (effects : List Effect) (i : Nat) : Prop :=
  (∃ n target push, Effect.sent i n target push ∈ effects) ∧ Effect.timedOut i ∉ effects ∧ ∀ code,
  Effect.rejected i code ∉ effects

/-- Dispatch `n` read the user's targets, this one among them, and these effects came after. -/
def Listing (effects : List Effect) (n : Nat) (userId : JsString) (target : AndroidPushTarget) (since : List Effect) :
    Prop :=
  ∃ before targets, effects = before ++ .listed n userId targets :: since ∧ target ∈ targets

section
variable (posix win32 : NodePath)

/-- What holds of the effects before one. -/
def Justified (pre : List Effect) : Effect → Prop
  | .requested userId r => (handle (replay pre) userId r).2.1 < 300
  | .published n _ _ => ∀ userId event, .published n userId event ∉ pre
  | .listed n userId targets =>
    targets = DeviceRepository.listAndroidPushTargets (replay pre) userId ∧ (∀ u t, .listed n u t ∉ pre) ∧
      ∃ event content, .published n userId event ∈ pre ∧ isAlert event.payload = true ∧
        buildPushContent posix win32 event = some content
  | .sent i n target push =>
    (∀ n t p, .sent i n t p ∉ pre) ∧ (∀ j t p, .sent j n t p ∈ pre → t.id ≠ target.id) ∧
      ∃ userId event content since, Listing pre n userId target since ∧ .published n userId event ∈ pre ∧
        buildPushContent posix win32 event = some content ∧ push = pushOf content target
  | .rejected i code => code ∈ INVALID_TOKEN_CODES ∧ Open pre i
  | .timedOut i => Open pre i
  | .cleared i userId id =>
    (∃ code, .rejected i code ∈ pre) ∧ (∀ u d, .cleared i u d ∉ pre) ∧
      ∃ n target push since, .sent i n target push ∈ pre ∧ target.id = id ∧ Listing pre n userId target since ∧
        ∃ row ∈ replay pre, row.owned userId id = true ∧
          row.fcmToken = (lastWrite (tokenWrite userId id) since).getD (some target.fcmToken)
  | .logged line => ∃ n event, .published n line.userId event ∈ pre ∧ event.eventId = line.eventId

/-- What is known of dispatch `n`. -/
def Stage (effects : List Effect) (n : Nat) : Dispatch → Prop
  | ⟨_, event, .listing content⟩ =>
    isAlert event.payload = true ∧ buildPushContent posix win32 event = some content ∧ ∀ u t, .listed n u t ∉ effects
  | ⟨userId, event, .listed content targets⟩ =>
    buildPushContent posix win32 event = some content ∧
      (∃ before since, effects = before ++ .listed n userId targets :: since) ∧
      ∀ i t p, .sent i n t p ∉ effects
  | _ => True

end

/-- What is known of a send that has come this far. -/
def SendProgress.Known (effects : List Effect) (i : Nat) : SendProgress → Prop
  | .sending _ => Effect.timedOut i ∉ effects ∧ (∀ code, Effect.rejected i code ∉ effects) ∧ ∀ u d,
      Effect.cleared i u d ∉ effects
  | .clearing => (∃ code, Effect.rejected i code ∈ effects) ∧ ∀ u d, Effect.cleared i u d ∉ effects
  | .settled => True

structure Send.Known (effects : List Effect) (i : Nat) (send : Send) : Prop where
  listing : ∃ since, Listing effects send.n send.userId send.target since
  sent : ∃ push, Effect.sent i send.n send.target push ∈ effects
  published : ∃ event, Effect.published send.n send.userId event ∈ effects ∧ event.eventId = send.eventId
  progress : send.progress.Known effects i

/-- The dispatch whose stage an effect changes. -/
def Effect.dispatch? : Effect → Option Nat
  | .listed n _ _ | .sent _ n _ _ => some n
  | _ => none

/-- The send whose progress an effect changes. -/
def Effect.send? : Effect → Option Nat
  | .rejected i _ | .timedOut i | .cleared i _ _ => some i
  | _ => none

theorem Listing.later {effects : List Effect} {n : Nat} {userId : JsString} {target : AndroidPushTarget}
    {since : List Effect}
    (h : Listing effects n userId target since) (es : List Effect) :
    Listing (effects ++ es) n userId target (since ++ es) := by
  obtain ⟨before, targets, rfl, hmem⟩ := h
  exact ⟨before, targets, by simp, hmem⟩

theorem not_mem_later {effects es : List Effect} {e : Effect} (h : e ∉ effects) (hes : e ∉ es) : e ∉ effects ++ es := by
  simp [h, hes]

theorem Stage.later {posix win32 : NodePath} {effects es : List Effect} {n : Nat} {d : Dispatch}
    (h : Stage posix win32 effects n d)
    (hes : ∀ e ∈ es, e.dispatch? ≠ some n) : Stage posix win32 (effects ++ es) n d := by
  obtain ⟨userId, event, progress⟩ := d
  cases progress with
  | listing content =>
    obtain ⟨halert, hbuild, hnone⟩ := h
    exact ⟨halert, hbuild, fun u t => not_mem_later (hnone u t) fun hmem => hes _ hmem rfl⟩
  | listed content targets =>
    obtain ⟨hbuild, ⟨before, since, heq⟩, hnone⟩ := h
    exact ⟨hbuild, ⟨before, since ++ es, by rw [heq]; simp⟩, fun i t p => not_mem_later (hnone i t p) fun hmem =>
      hes _ hmem rfl⟩
  | _ => trivial

theorem SendProgress.Known.later {effects es : List Effect} {i : Nat} {progress : SendProgress}
    (h : progress.Known effects i)
    (hes : ∀ e ∈ es, e.send? ≠ some i) : progress.Known (effects ++ es) i := by
  cases progress with
  | sending startedAt =>
    obtain ⟨htime, hrej, hclear⟩ := h
    exact ⟨not_mem_later htime fun hmem => hes _ hmem rfl,
      fun code => not_mem_later (hrej code) fun hmem => hes _ hmem rfl,
      fun u d => not_mem_later (hclear u d) fun hmem => hes _ hmem rfl⟩
  | clearing =>
    obtain ⟨⟨code, hrej⟩, hclear⟩ := h
    exact ⟨⟨code, List.mem_append_left _ hrej⟩, fun u d => not_mem_later (hclear u d) fun hmem => hes _ hmem rfl⟩
  | settled => trivial

/-- All but the progress stays known. -/
theorem Send.Known.later {effects : List Effect} {i : Nat} {send : Send} (h : send.Known effects i) (es : List Effect)
    {progress : SendProgress} (hp : progress.Known (effects ++ es) i) :
    ({ send with progress } : Send).Known (effects ++ es) i := by
  obtain ⟨since, hlisting⟩ := h.listing
  obtain ⟨push, hsent⟩ := h.sent
  obtain ⟨event, hpub, hid⟩ := h.published
  exact ⟨⟨since ++ es, hlisting.later es⟩, ⟨push, List.mem_append_left _ hsent⟩,
    ⟨event, List.mem_append_left _ hpub, hid⟩, hp⟩

section
variable {posix win32 : NodePath}

theorem traced_succeeded {effects : List Effect} (h : Traced (Justified posix win32) effects) : Succeeded effects :=
  fun before userId r after heq => h before (.requested userId r) after heq

/-- An effect of a send comes after its begin. -/
theorem traced_begun {effects : List Effect} (h : Traced (Justified posix win32) effects)
    {e : Effect} {i : Nat} (he : e ∈ effects)
    (hi : e.send? = some i) : ∃ n target push, Effect.sent i n target push ∈ effects := by
  obtain ⟨before, after, rfl⟩ := List.append_of_mem he
  have sub : (∃ n target push, Effect.sent i n target push ∈ before) → ∃ n target push,
    Effect.sent i n target push ∈ before ++ e :: after := by
    rintro ⟨n, target, push, hmem⟩
    exact ⟨n, target, push, List.mem_append_left _ hmem⟩
  have hj := h before e after rfl
  cases e with
  | rejected j code =>
    cases hi
    exact sub hj.2.1
  | timedOut j =>
    cases hi
    exact sub hj.1
  | cleared j userId id =>
    cases hi
    obtain ⟨-, -, n, target, push, since, hsent, -⟩ := hj
    exact sub ⟨n, target, push, hsent⟩
  | _ => cases hi

/-- The token of a row whose target was listed. -/
theorem traced_token {effects since : List Effect} (h : Traced (Justified posix win32) effects)
    {n : Nat} {userId : JsString}
    {target : AndroidPushTarget} (hl : Listing effects n userId target since) {row : DeviceRecord}
    (hrow : row ∈ replay effects)
    (howned : row.owned userId target.id = true) :
    row.fcmToken = (lastWrite (tokenWrite userId target.id) since).getD (some target.fcmToken) := by
  have hlast := replay_token (traced_succeeded h) row hrow
  obtain ⟨before, targets, rfl, hmem⟩ := hl
  obtain ⟨rfl, -, -⟩ := h before _ since rfl
  obtain ⟨listed, hlisted, hsome⟩ := List.mem_filterMap.mp hmem
  obtain ⟨hid, huser⟩ := owned_iff.mp howned
  split at hsome
  · rename_i hcond
    obtain ⟨t, ht, rfl⟩ := Option.map_eq_some_iff.mp hsome
    simp only [Bool.and_eq_true, beq_iff_eq] at hcond
    have hcanon := (keyed_replay before).canonical listed hlisted
    have hbefore := replay_token (traced_succeeded h.init) listed hlisted
    rw [hcanon] at hid
    rw [huser, hid, lastWrite_append, lastWrite_cons] at hlast
    rw [hcond.1.1, ht] at hbefore
    rw [hbefore] at hlast
    have hnone : tokenWrite userId listed.id
      (.listed n userId (DeviceRepository.listAndroidPushTargets (replay before) userId)) = none := rfl
    rw [hnone, Option.or_none] at hlast
    cases hw : lastWrite (tokenWrite userId listed.id) since with
    | none =>
      rw [hw] at hlast
      exact (Option.some.inj hlast).symm
    | some w =>
      rw [hw] at hlast
      exact (Option.some.inj hlast).symm
  · cases hsome

end

/-! ## Every step -/

structure Inv (posix win32 : NodePath) (s : State) : Prop where
  rows : s.rows = replay s.effects
  traced : Traced (Justified posix win32) s.effects
  dispatches : ∀ (n : Nat) (d : Dispatch), s.dispatches[n]? = some d → .published n d.userId d.event ∈ s.effects ∧
    Stage posix win32 s.effects n d
  begun : ∀ n u e, .published n u e ∈ s.effects → n < s.dispatches.length
  sends : ∀ (i : Nat) (send : Send), s.sends[i]? = some send → send.Known s.effects i
  sent : ∀ i n t p, .sent i n t p ∈ s.effects → i < s.sends.length

section
variable {posix win32 : NodePath} {s : State}

theorem inv_init (now : Nat) : Inv posix win32 (.init now) := by
  refine ⟨rfl, fun before e after heq => ?_, by simp [State.init], by simp [State.init], by simp
    [State.init], by simp [State.init]⟩
  simp [State.init] at heq

/-- A send that is not begun has no effects. -/
theorem Inv.fresh (h : Inv posix win32 s) {i : Nat} (hi : s.sends.length ≤ i) : ∀ e ∈ s.effects, e.send? ≠ some i := by
  intro e he hsend
  obtain ⟨n, target, push, hsent⟩ := traced_begun h.traced he hsend
  exact absurd (h.sent i n target push hsent) (by omega)

/-- Nor has a dispatch that is not begun. -/
theorem Inv.unlisted (h : Inv posix win32 s) {n : Nat} (hn : s.dispatches.length ≤ n) (u : JsString)
    (t : List AndroidPushTarget) : .listed n u t ∉ s.effects := by
  intro hmem
  obtain ⟨before, after, heq⟩ := List.append_of_mem hmem
  obtain ⟨-, -, event, content, hpub, -⟩ := h.traced before _ after heq
  have hin : Effect.published n u event ∈ s.effects := heq ▸ List.mem_append_left _ hpub
  exact absurd (h.begun n u event hin) (by omega)

theorem inv_request (h : Inv posix win32 s) (userId : JsString) (r : DeviceRequest) :
    Inv posix win32 (s.request userId r) := by
  unfold State.request
  split
  · rename_i hs
    refine ⟨?_, ?_, fun n d hd => ?_, fun n u e he => ?_, fun i send hi => ?_, fun i n t p hp => ?_⟩
    · show _ = replay (s.effects ++ [_])
      rw [replay_snoc, ← h.rows]
      rfl
    · refine h.traced.append fun before e after heq => ?_
      obtain ⟨rfl, heq⟩ | ⟨x, heq⟩ := List.cons_eq_append_iff.mp heq
      · cases heq
        rw [List.append_nil]
        show (handle (replay s.effects) userId r).2.1 < 300
        rwa [← h.rows]
      · simp at heq
    · obtain ⟨hpub, hstage⟩ := h.dispatches n d hd
      exact ⟨List.mem_append_left _ hpub, hstage.later (by simp [Effect.dispatch?])⟩
    · exact h.begun n u e (by simpa using he)
    · have hk := h.sends i send hi
      exact hk.later _ (hk.progress.later (by simp [Effect.send?]))
    · exact h.sent i n t p (by simpa using hp)
  · exact h

/-- A dispatch begins. -/
theorem inv_begin (h : Inv posix win32 s) (userId : JsString) (event : NotifyEvent) {progress : Progress}
    {es : List Effect}
    (hes : es = [] ∨ ∃ line : LogLine, es = [.logged line] ∧ line.userId = userId ∧ line.eventId = event.eventId)
    (hstage : Stage posix win32 (s.effects ++ .published s.dispatches.length userId event :: es) s.dispatches.length
      ⟨userId, event, progress⟩) : Inv posix win32 (s.begin userId event progress es) := by
  have hquiet : ∀ e ∈ es, e.dispatch? = none ∧ e.send? = none ∧ apply s.rows e = s.rows ∧
    (∀ n u ev, e ≠ .published n u ev) ∧
      ∀ i n t p, e ≠ .sent i n t p := by
    intro e he
    rcases hes with rfl | ⟨line, rfl, -, -⟩
    · cases he
    · rw [List.mem_singleton.mp he]
      simp [Effect.dispatch?, Effect.send?, apply]
  refine ⟨?_, ?_, fun n d hd => ?_, fun n u e he => ?_, fun i send hi => ?_, fun i n t p hp => ?_⟩
  · show s.rows = replay (s.effects ++ _)
    rw [replay_append, ← h.rows]
    rcases hes with rfl | ⟨line, rfl, -, -⟩ <;> rfl
  · refine h.traced.append fun before e after heq => ?_
    cases before with
    | nil =>
      obtain ⟨rfl, -⟩ := List.cons.inj heq
      rw [List.append_nil]
      intro u ev hmem
      exact absurd (h.begun _ u ev hmem) (by omega)
    | cons x before =>
      obtain ⟨rfl, htail⟩ := List.cons.inj heq
      rcases hes with rfl | ⟨line, rfl, hu, hid⟩
      · simp at htail
      · cases before with
        | nil =>
          obtain ⟨rfl, -⟩ := List.cons.inj htail
          exact ⟨s.dispatches.length, event, by simp [hu], hid.symm⟩
        | cons y before => simp at htail
  · rcases getElem_snoc.mp hd with hd | ⟨rfl, rfl⟩
    · obtain ⟨hpub, hst⟩ := h.dispatches n d hd
      refine ⟨List.mem_append_left _ hpub, hst.later fun e he => ?_⟩
      rcases List.mem_cons.mp he with rfl | he
      · simp [Effect.dispatch?]
      · simp [(hquiet e he).1]
    · exact ⟨by simp [State.begin], hstage⟩
  · simp only [State.begin, List.length_append, List.length_singleton]
    rcases List.mem_append.mp he with he | he
    · have := h.begun n u e he
      omega
    · rcases List.mem_cons.mp he with heq | he
      · cases heq
        omega
      · exact absurd rfl ((hquiet _ he).2.2.2.1 n u e)
  · have hk := h.sends i send hi
    refine hk.later _ (hk.progress.later fun e he => ?_)
    rcases List.mem_cons.mp he with rfl | he
    · simp [Effect.send?]
    · simp [(hquiet e he).2.1]
  · rcases List.mem_append.mp hp with hp | hp
    · exact h.sent i n t p hp
    · rcases List.mem_cons.mp hp with heq | hp
      · cases heq
      · exact absurd rfl ((hquiet _ hp).2.2.2.2 i n t p)

theorem inv_dispatch (h : Inv posix win32 s) (userId : JsString) (event : NotifyEvent) :
    Inv posix win32 (s.dispatch posix win32 userId event) := by
  unfold State.dispatch
  split
  · rename_i halert
    split
    · exact inv_begin h userId event (Or.inr ⟨_, rfl, rfl, rfl⟩) trivial
    · rename_i content hbuild
      refine inv_begin h userId event (Or.inl rfl)
        ⟨halert, hbuild, fun u t => not_mem_later (h.unlisted (Nat.le_refl _) u t) ?_⟩
      simp
  · exact inv_begin h userId event (Or.inl rfl) trivial

/-- Where only the progress of a dispatch changes, to one that says nothing. -/
theorem inv_progress (h : Inv posix win32 s) {n : Nat} {d : Dispatch} (hd : s.dispatches[n]? = some d)
    {progress : Progress}
    (hp : Stage posix win32 s.effects n { d with progress }) :
    Inv posix win32 { s with dispatches := s.dispatches.set n { d with progress } } := by
  refine ⟨h.rows, h.traced, fun m d' hd' => ?_, fun m u e he => ?_, h.sends, h.sent⟩
  · rcases (getElem_set hd).mp hd' with ⟨rfl, rfl⟩ | ⟨-, hd'⟩
    · exact ⟨(h.dispatches n d hd).1, hp⟩
    · exact h.dispatches m d' hd'
  · rw [List.length_set]
    exact h.begun m u e he

theorem inv_lookup (h : Inv posix win32 s) (n : Nat) (answered : Bool) : Inv posix win32 (s.lookup n answered) := by
  unfold State.lookup
  split
  · rename_i userId event content hd
    obtain ⟨hpub, halert, hbuild, hnone⟩ := h.dispatches n _ hd
    split
    · refine ⟨?_, ?_, fun m d' hd' => ?_, fun m u e he => ?_, fun i send hi => ?_, fun i m t p hp => ?_⟩
      · show s.rows = replay (s.effects ++ [_])
        rw [replay_snoc]
        exact h.rows
      · refine h.traced.append fun before e after heq => ?_
        cases before with
        | nil =>
          obtain ⟨rfl, -⟩ := List.cons.inj heq
          rw [List.append_nil]
          exact ⟨by rw [← h.rows], hnone, event, content, hpub, halert, hbuild⟩
        | cons x before => simp at heq
      · rcases (getElem_set hd).mp hd' with ⟨rfl, rfl⟩ | ⟨hne, hd'⟩
        · refine ⟨List.mem_append_left _ hpub, hbuild, ⟨s.effects, [], rfl⟩, fun i t p hmem => ?_⟩
          rcases List.mem_append.mp hmem with hmem | hmem
          · -- A send is of a dispatch that was listed.
            obtain ⟨before, after, heq⟩ := List.append_of_mem hmem
            obtain ⟨-, -, u, ev, content', since, ⟨first, targets, hfirst, -⟩, -⟩ := h.traced before _ after heq
            exact hnone u targets (by rw [heq, hfirst]; simp)
          · simp at hmem
        · obtain ⟨hpub', hstage⟩ := h.dispatches m d' hd'
          exact ⟨List.mem_append_left _ hpub', hstage.later (by simp [Effect.dispatch?, hne])⟩
      · simp only [List.length_set]
        exact h.begun m u e (by simpa using he)
      · have hk := h.sends i send hi
        exact hk.later _ (hk.progress.later (by simp [Effect.send?]))
      · exact h.sent i m t p (by simpa using hp)
    · exact inv_progress h hd trivial
  · exact h

end

/-! ## The sends -/

theorem mem_sentFrom {n : Nat} {content : PushContent} {targets : List AndroidPushTarget} {i : Nat} {e : Effect} :
    e ∈ State.sentFrom n content i targets ↔
      ∃ k target, targets[k]? = some target ∧ e = .sent (i + k) n target (pushOf content target) := by
  induction targets generalizing i with
  | nil => simp [State.sentFrom]
  | cons target targets ih =>
    rw [State.sentFrom, List.mem_cons, ih]
    constructor
    · rintro (rfl | ⟨k, t, hk, rfl⟩)
      · exact ⟨0, target, rfl, rfl⟩
      · exact ⟨k + 1, t, hk, by rw [Nat.add_assoc, Nat.add_comm 1]⟩
    · rintro ⟨k, t, hk, rfl⟩
      cases k with
      | zero =>
        cases hk
        exact Or.inl rfl
      | succ k => exact Or.inr ⟨k, t, hk, by rw [Nat.add_assoc, Nat.add_comm 1]⟩

/-- A send, and those of the same dispatch before it. -/
theorem sentFrom_split {n : Nat} {content : PushContent} {targets : List AndroidPushTarget}
    {i : Nat} {before after : List Effect}
    {e : Effect} (h : State.sentFrom n content i targets = before ++ e :: after) :
    ∃ first target rest, targets = first ++ target :: rest ∧
      e = .sent (i + first.length) n target (pushOf content target) ∧
      before = State.sentFrom n content i first := by
  induction targets generalizing i before with
  | nil => simp [State.sentFrom] at h
  | cons target targets ih =>
    rw [State.sentFrom] at h
    cases before with
    | nil =>
      obtain ⟨rfl, -⟩ := List.cons.inj h
      exact ⟨[], target, targets, rfl, rfl, rfl⟩
    | cons x before =>
      obtain ⟨rfl, htail⟩ := List.cons.inj h
      obtain ⟨first, t, rest, rfl, rfl, rfl⟩ := ih htail
      exact ⟨target :: first, t, rest, rfl, by rw [List.length_cons, Nat.add_assoc, Nat.add_comm 1], rfl⟩

theorem apply_sentFrom (rows : List DeviceRecord) (n : Nat) (content : PushContent) (targets : List AndroidPushTarget)
    (i : Nat) :
    runFrom apply rows (State.sentFrom n content i targets) = rows := by
  induction targets generalizing i with
  | nil => rfl
  | cons target targets ih => exact ih (i + 1)

/-- Targets that are listed at once are of different devices. -/
theorem targets_ids {rows : List DeviceRecord} (h : Keyed rows) (userId : JsString) :
    ((DeviceRepository.listAndroidPushTargets rows userId).map (·.id)).Nodup := by
  have hsub : ∀ rows : List DeviceRecord,
      ((DeviceRepository.listAndroidPushTargets rows userId).map (·.id)).Sublist (rows.map (·.id)) := by
    intro rows
    induction rows with
    | nil => exact .slnil
    | cons row rows ih =>
      rw [DeviceRepository.listAndroidPushTargets, List.filterMap_cons]
      split
      · exact ih.cons _
      · rename_i target heq
        split at heq
        · obtain ⟨t, -, rfl⟩ := Option.map_eq_some_iff.mp heq
          exact ih.cons_cons _
        · cases heq
  exact h.ids.sublist (hsub rows)

section
variable {posix win32 : NodePath} {s : State}

theorem inv_start (h : Inv posix win32 s) (n : Nat) : Inv posix win32 (s.start n) := by
  unfold State.start
  split
  · rename_i userId event content targets hd
    obtain ⟨hpub, hbuild, ⟨first, since, hlisted⟩, hnone⟩ := h.dispatches n _ hd
    have hlisting : ∀ target ∈ targets, Listing s.effects n userId target since :=
      fun target ht => ⟨first, targets, hlisted, ht⟩
    have hids : (targets.map (·.id)).Nodup := by
      obtain ⟨heq, -⟩ := h.traced first _ since hlisted
      rw [heq]
      exact targets_ids (keyed_replay first) userId
    refine ⟨?_, ?_, fun m d' hd' => ?_, fun m u e he => ?_, fun i send hi => ?_, fun i m t p hp => ?_⟩
    · show s.rows = replay (s.effects ++ _)
      rw [replay_append, apply_sentFrom]
      exact h.rows
    · refine h.traced.append fun before e after heq => ?_
      obtain ⟨earlier, target, rest, rfl, rfl, rfl⟩ := sentFrom_split heq
      refine ⟨fun m t p hmem => ?_, fun j t p hmem => ?_, userId, event, content,
        since ++ State.sentFrom n content s.sends.length earlier,
        (hlisting target (by simp)).later _, List.mem_append_left _ hpub, hbuild, rfl⟩
      · rcases List.mem_append.mp hmem with hmem | hmem
        · have := h.sent _ m t p hmem
          omega
        · obtain ⟨k, t', hk, heq'⟩ := mem_sentFrom.mp hmem
          have hlt := (List.getElem?_eq_some_iff.mp hk).1
          injection heq'
          omega
      · rcases List.mem_append.mp hmem with hmem | hmem
        · exact absurd hmem (hnone j t p)
        · obtain ⟨k, t', hk, heq'⟩ := mem_sentFrom.mp hmem
          cases heq'
          intro hid
          rw [List.map_append, List.nodup_append] at hids
          exact hids.2.2 t.id (List.mem_map.mpr ⟨t, List.mem_of_getElem? hk, rfl⟩) target.id (by simp) hid
    · rcases (getElem_set hd).mp hd' with ⟨rfl, rfl⟩ | ⟨hne, hd'⟩
      · refine ⟨List.mem_append_left _ hpub, ?_⟩
        dsimp only
        split <;> trivial
      · obtain ⟨hpub', hstage⟩ := h.dispatches m d' hd'
        refine ⟨List.mem_append_left _ hpub', hstage.later fun e he => ?_⟩
        obtain ⟨k, t, -, rfl⟩ := mem_sentFrom.mp he
        simpa [Effect.dispatch?] using hne
    · simp only [List.length_set]
      refine h.begun m u e ((List.mem_append.mp he).resolve_right fun hmem => ?_)
      obtain ⟨k, t, -, heq⟩ := mem_sentFrom.mp hmem
      cases heq
    · have hquiet : ∀ e ∈ State.sentFrom n content s.sends.length targets, e.send? ≠ some i := by
        intro e he
        obtain ⟨k, t, -, rfl⟩ := mem_sentFrom.mp he
        simp [Effect.send?]
      by_cases hlt : i < s.sends.length
      · rw [List.getElem?_append_left hlt] at hi
        have hk := h.sends i send hi
        exact hk.later _ (hk.progress.later hquiet)
      · rw [List.getElem?_append_right (by omega), List.getElem?_map] at hi
        obtain ⟨target, ht, rfl⟩ := Option.map_eq_some_iff.mp hi
        have hnew := h.fresh (i := i) (by omega)
        have hmem := List.mem_of_getElem? ht
        refine ⟨⟨_, (hlisting target hmem).later _⟩, ⟨pushOf content target, List.mem_append_right _ ?_⟩,
          ⟨event, List.mem_append_left _ hpub, rfl⟩, SendProgress.Known.later ?_ hquiet⟩
        · exact mem_sentFrom.mpr ⟨_, target, ht, by rw [Nat.add_sub_cancel' (by omega)]⟩
        · exact ⟨fun hm => hnew _ hm rfl, fun code hm => hnew _ hm rfl, fun u d hm => hnew _ hm rfl⟩
    · rw [List.length_append, List.length_map]
      rcases List.mem_append.mp hp with hp | hp
      · have := h.sent i m t p hp
        omega
      · obtain ⟨k, t', hk, heq⟩ := mem_sentFrom.mp hp
        have hlt := (List.getElem?_eq_some_iff.mp hk).1
        injection heq
        omega
  · exact h

/-- A send goes on, with effects of its own. -/
theorem inv_move (h : Inv posix win32 s) {i : Nat} {send : Send} (hi : s.sends[i]? = some send)
    {progress : SendProgress}
    {es : List Effect} {rows : List DeviceRecord} (hrows : rows = runFrom apply s.rows es)
    (hes : ∀ e ∈ es, e.dispatch? = none ∧ (∀ n u ev, e ≠ .published n u ev) ∧ ∀ j, e.send? = some j → j = i)
    (hj : ∀ before e after, es = before ++ e :: after → Justified posix win32 (s.effects ++ before) e)
    (hp : progress.Known (s.effects ++ es) i) : Inv posix win32 { s.move i send progress es with rows } := by
  refine ⟨?_, h.traced.append hj, fun n d hd => ?_, fun n u e he => ?_, fun j send' hj' => ?_, fun j n t p hmem => ?_⟩
  · show rows = replay (s.effects ++ es)
    rw [replay_append, ← h.rows]
    exact hrows
  · obtain ⟨hpub, hstage⟩ := h.dispatches n d hd
    exact ⟨List.mem_append_left _ hpub, hstage.later fun e he => by simp [(hes e he).1]⟩
  · exact h.begun n u e ((List.mem_append.mp he).resolve_right fun hmem => (hes _ hmem).2.1 n u e rfl)
  · rcases (getElem_set hi).mp hj' with ⟨rfl, rfl⟩ | ⟨hne, hj'⟩
    · exact (h.sends i send hi).later es hp
    · have hk := h.sends j send' hj'
      exact hk.later _ (hk.progress.later fun e he hsend => hne ((hes e he).2.2 j hsend).symm)
  · simp only [State.move, List.length_set]
    exact h.sent j n t p ((List.mem_append.mp hmem).resolve_right fun hmem => by simpa [Effect.dispatch?] using
      (hes _ hmem).1)

/-- A line about a send. -/
theorem log_justified (h : Inv posix win32 s) {i : Nat} {send : Send} (hi : s.sends[i]? = some send)
    (es : List Effect) (level : Level)
    (code : Option JsString) (message : String) : Justified posix win32 (s.effects ++ es)
    (send.log level code message) := by
  obtain ⟨event, hpub, hid⟩ := (h.sends i send hi).published
  exact ⟨send.n, event, List.mem_append_left _ hpub, hid⟩

/-- A send goes on with a line, and with an effect before it. -/
theorem inv_logged (h : Inv posix win32 s) {i : Nat} {send : Send} (hi : s.sends[i]? = some send)
    {progress : SendProgress}
    {e : Effect} (he : e.dispatch? = none ∧ (∀ n u ev, e ≠ .published n u ev) ∧ ∀ j, e.send? = some j → j = i)
    (hj : Justified posix win32 s.effects e) (ha : apply s.rows e = s.rows) (level : Level)
    (code : Option JsString) (message : String)
    (hp : progress.Known (s.effects ++ [e, send.log level code message]) i) :
    Inv posix win32 (s.move i send progress [e, send.log level code message]) := by
  refine inv_move h hi ha.symm (fun e' he' => ?_) (fun before e' after heq => ?_) hp
  · rcases List.mem_cons.mp he' with rfl | he'
    · exact he
    · rw [List.mem_singleton.mp he']
      simp [Send.log, Effect.dispatch?, Effect.send?]
  · cases before with
    | nil =>
      obtain ⟨rfl, -⟩ := List.cons.inj heq
      rwa [List.append_nil]
    | cons x before =>
      obtain ⟨-, htail⟩ := List.cons.inj heq
      cases before with
      | nil =>
        obtain ⟨rfl, -⟩ := List.cons.inj htail
        exact log_justified h hi ..
      | cons y before => simp at htail

/-- A send is over, with a line at most. -/
theorem inv_settled (h : Inv posix win32 s) {i : Nat} {send : Send} (hi : s.sends[i]? = some send) {es : List Effect}
    (hes : es = [] ∨ ∃ level code message, es = [send.log level code message]) :
    Inv posix win32 (s.move i send .settled es) := by
  rcases hes with rfl | ⟨level, code, message, rfl⟩
  · exact inv_move h hi rfl (by simp) (by simp) trivial
  · refine inv_move h hi (by simp [Send.log, apply]) (by simp [Send.log, Effect.dispatch?, Effect.send?])
      (fun before e after heq => ?_) trivial
    cases before with
    | nil =>
      obtain ⟨rfl, -⟩ := List.cons.inj heq
      exact log_justified h hi ..
    | cons x before => simp at heq

end

/-! ## Every run -/

section
variable {posix win32 : NodePath} {s : State}

theorem send_invalid {outcome : MessagingOutcome} {code : JsString} (h : outcome.send = .invalidToken code) :
    code ∈ INVALID_TOKEN_CODES := by
  cases outcome with
  | delivered => cases h
  | rejected isError code' =>
    simp only [MessagingOutcome.send] at h
    split at h
    · rename_i heq
      cases h
      simpa using (Option.filter_eq_some_iff.mp heq).2
    · cases h

theorem inv_settle (h : Inv posix win32 s) (i : Nat) (outcome : MessagingOutcome) :
    Inv posix win32 (s.settle i outcome) := by
  unfold State.settle
  split
  · rename_i send hi
    split
    · exact inv_settled h hi (Or.inl rfl)
    · rename_i startedAt code hprogress hsend
      have hk := h.sends i send hi
      obtain ⟨push, hsent⟩ := hk.sent
      have hopen := hk.progress
      rw [hprogress] at hopen
      obtain ⟨htime, hrej, hclear⟩ := hopen
      have hj : Justified posix win32 s.effects (.rejected i code) :=
        ⟨send_invalid hsend, ⟨_, _, push, hsent⟩, htime, hrej⟩
      refine inv_logged h hi (by simp [Effect.dispatch?, Effect.send?]) hj rfl _ _ _ ⟨⟨code, by simp⟩, fun u d => ?_⟩
      simpa [Send.log] using hclear u d
    · exact inv_settled h hi (Or.inr ⟨_, _, _, rfl⟩)
    · exact h
  · exact h

theorem inv_timeout (h : Inv posix win32 s) (sendTimeoutMs i : Nat) : Inv posix win32 (s.timeout sendTimeoutMs i) := by
  unfold State.timeout
  split
  · rename_i send hi
    split
    · rename_i startedAt hprogress
      split
      · have hk := h.sends i send hi
        obtain ⟨push, hsent⟩ := hk.sent
        have hopen := hk.progress
        rw [hprogress] at hopen
        have hj : Justified posix win32 s.effects (.timedOut i) := ⟨⟨_, _, push, hsent⟩, hopen.1, hopen.2.1⟩
        exact inv_logged h hi (by simp [Effect.dispatch?, Effect.send?]) hj rfl _ _ _ trivial
      · exact h
    · exact h
  · exact h

theorem inv_clear (h : Inv posix win32 s) (i : Nat) : Inv posix win32 (s.clear i) := by
  unfold State.clear
  split
  · rename_i send hi
    split
    · rename_i hprogress
      have hk := h.sends i send hi
      obtain ⟨since, hlisting⟩ := hk.listing
      obtain ⟨push, hsent⟩ := hk.sent
      have hclearing := hk.progress
      rw [hprogress] at hclearing
      split
      · exact inv_settled h hi (Or.inl rfl)
      · rename_i rows record hupdate
        obtain ⟨old, hold, -⟩ := Option.map_eq_some_iff.mp (congrArg Prod.snd hupdate)
        have howned := List.find?_some hold
        have hmem := List.mem_of_find?_eq_some hold
        rw [h.rows] at hmem
        refine inv_move h hi ?_ (by simp [Effect.dispatch?, Effect.send?]) (fun before e after heq => ?_) trivial
        · show rows = (DeviceRepository.update s.rows send.userId send.target.id clearToken).1
          rw [hupdate]
        · cases before with
          | nil =>
            obtain ⟨rfl, -⟩ := List.cons.inj heq
            rw [List.append_nil]
            exact ⟨hclearing.1, hclearing.2, send.n, send.target, push, since, hsent, rfl, hlisting, old, hmem, howned,
              traced_token h.traced hlisting hmem howned⟩
          | cons x before => simp at heq
    · exact h
  · exact h

theorem inv_clearFails (h : Inv posix win32 s) (i : Nat) (code : Option JsString) :
    Inv posix win32 (s.clearFails i code) := by
  unfold State.clearFails
  split
  · split
    · exact inv_settled h ‹_› (Or.inr ⟨_, _, _, rfl⟩)
    · exact h
  · exact h

theorem inv_finish (h : Inv posix win32 s) (n : Nat) : Inv posix win32 (s.finish n) := by
  unfold State.finish
  split
  · split
    · refine inv_progress h ‹_› ?_
      trivial
    · exact h
  · exact h

theorem inv_step (sendTimeoutMs : Nat) (s : State) (e : Event) (h : Inv posix win32 s) :
    Inv posix win32 (s.step posix win32 sendTimeoutMs e) := by
  cases e with
  | request userId r => exact inv_request h userId r
  | dispatch userId event => exact inv_dispatch h userId event
  | lookup n answered => exact inv_lookup h n answered
  | start n => exact inv_start h n
  | settle i outcome => exact inv_settle h i outcome
  | timeout i => exact inv_timeout h sendTimeoutMs i
  | clear i => exact inv_clear h i
  | clearFails i code => exact inv_clearFails h i code
  | finish n => exact inv_finish h n
  | advance ms => exact ⟨h.rows, h.traced, h.dispatches, h.begun, h.sends, h.sent⟩

theorem inv_run (sendTimeoutMs now : Nat) (es : List Event) : Inv posix win32 (.run posix win32 sendTimeoutMs now es) :=
  runFrom_inv (inv_step sendTimeoutMs) (inv_init now) es

end

/-- Dispatch `n` has rejected. -/
def Rejected (s : State) (n : Nat) : Prop := ∃ userId event, s.dispatches[n]? = some ⟨userId, event, .rejected⟩

theorem rejected_step {posix win32 : NodePath} {sendTimeoutMs : Nat} {s : State} {e : Event} {n : Nat}
    (h : Rejected (s.step posix win32 sendTimeoutMs e) n) : Rejected s n ∨ e = .lookup n false := by
  have begin : ∀ {u : JsString} {ev : NotifyEvent} {p : Progress} {es : List Effect}, p ≠ .rejected →
    Rejected (s.begin u ev p es) n → Rejected s n := by
    rintro u ev p es hne ⟨u', ev', hd⟩
    rcases getElem_snoc.mp hd with hd | ⟨-, heq⟩
    · exact ⟨u', ev', hd⟩
    · cases heq
      exact absurd rfl hne
  have put : ∀ {m : Nat} {d : Dispatch} {p : Progress}, s.dispatches[m]? = some d → p ≠ .rejected →
      (∃ u ev, (s.dispatches.set m { d with progress := p })[n]? = some ⟨u, ev, .rejected⟩) → Rejected s n := by
    rintro m d p hd hne ⟨u, ev, hset⟩
    rcases (getElem_set hd).mp hset with ⟨-, heq⟩ | ⟨-, hold⟩
    · cases heq
      exact absurd rfl hne
    · exact ⟨u, ev, hold⟩
  cases e with
  | request userId r =>
    simp only [State.step, State.request] at h
    split at h <;> exact Or.inl h
  | dispatch userId event =>
    simp only [State.step, State.dispatch] at h
    split at h
    · split at h <;> exact Or.inl (begin (by simp) h)
    · exact Or.inl (begin (by simp) h)
  | lookup m answered =>
    simp only [State.step, State.lookup] at h
    split at h
    · rename_i hd
      split at h
      · exact Or.inl (put hd (by simp) h)
      · rename_i hfailed
        obtain ⟨u, ev, hset⟩ := h
        rcases (getElem_set hd).mp hset with ⟨rfl, -⟩ | ⟨-, hold⟩
        · rw [Bool.not_eq_true] at hfailed
          exact Or.inr (by rw [hfailed])
        · exact Or.inl ⟨u, ev, hold⟩
    · exact Or.inl h
  | start m =>
    simp only [State.step, State.start] at h
    split at h
    · rename_i targets hd
      refine Or.inl (put hd ?_ h)
      split <;> simp
    · exact Or.inl h
  | settle i outcome =>
    simp only [State.step, State.settle] at h
    split at h
    · split at h <;> exact Or.inl h
    · exact Or.inl h
  | timeout i =>
    simp only [State.step, State.timeout] at h
    split at h
    · split at h
      · split at h <;> exact Or.inl h
      · exact Or.inl h
    · exact Or.inl h
  | clear i =>
    simp only [State.step, State.clear] at h
    split at h
    · split at h
      · split at h <;> exact Or.inl h
      · exact Or.inl h
    · exact Or.inl h
  | clearFails i code =>
    simp only [State.step, State.clearFails] at h
    split at h
    · split at h <;> exact Or.inl h
    · exact Or.inl h
  | finish m =>
    simp only [State.step, State.finish] at h
    split at h
    · rename_i hd
      split at h
      · exact Or.inl (put hd (by simp) h)
      · exact Or.inl h
    · exact Or.inl h
  | advance ms => exact Or.inl h

/-- In every interleaving of device requests, dispatches, lookups, sends, timeouts and clean-ups: the device table is
    what the successful requests and the clean-ups make of the empty one; every effect is justified by those before
    it; and a dispatch rejects only when its lookup failed. -/
theorem push_dispatch (posix win32 : NodePath) (sendTimeoutMs now : Nat) (es : List Event) :
    (State.run posix win32 sendTimeoutMs now es).rows = replay (State.run posix win32 sendTimeoutMs now es).effects ∧
      (∀ before e after, (State.run posix win32 sendTimeoutMs now es).effects = before ++ e :: after →
        Justified posix win32 before e) ∧
      ∀ n, Rejected (.run posix win32 sendTimeoutMs now es) n → Event.lookup n false ∈ es := by
  refine ⟨(inv_run sendTimeoutMs now es).rows, (inv_run sendTimeoutMs now es).traced, fun n => ?_⟩
  induction es using List.reverseRecOn with
  | nil => rintro ⟨u, ev, hd⟩; cases hd
  | append_singleton es e ih =>
    intro h
    rw [State.run, runFrom_append] at h
    rcases rejected_step h with h | rfl
    · exact List.mem_append_left _ (ih h)
    · simp

/-! ## A token stored in between -/

theorem some_bounded {n : Nat} {t : JsString} (h : Bounded n t) : ∀ t', some t = some t' → Bounded n t' := by
  intro t' ht
  cases ht
  exact h

theorem token_property (t : JsString) : (none : Option JsString) ≠ none ∨ (none : Option Bool) ≠ none ∨
    (none : Option Bool) ≠ none ∨
    some t ≠ none := by simp

/-- A phone whose token is this. -/
def phoneWith (t : JsString) (h : Bounded 4096 t) : RegisterDeviceBody :=
  ⟨js "Phone", .android, some t, none, none, phone_name, some_bounded h⟩

theorem no_name : ∀ n, (none : Option JsString) = some n → Bounded 64 n := no_token

def refreshed (t : JsString) (h : Bounded 4096 t) : PatchDeviceBody :=
  ⟨none, none, none, some t, no_name, some_bounded h, token_property t⟩

/-- The phone stores a new token after the targets were read; then the send to the old one is rejected as not
    registered. -/
def refreshDuringSend (event : NotifyEvent) {t t' : JsString} (h : Bounded 4096 t) (h' : Bounded 4096 t') :
    List Event :=
  [.request (js "ann") (.create (phoneWith t h) phoneId), .dispatch (js "ann") event, .lookup 0 true, .start 0,
    .request (js "ann") (.patch phoneId (refreshed t' h')),
    .settle 0 (.rejected true (some (js "messaging/registration-token-not-registered"))), .clear 0]

/-- Then the phone has no token, whatever the new one is. -/
theorem new_token_cleared {posix win32 : NodePath} {event : NotifyEvent} {content : PushContent}
    (ha : isAlert event.payload = true)
    (hb : buildPushContent posix win32 event = some content) (sendTimeoutMs now : Nat) {t t' : JsString}
    (h : Bounded 4096 t)
    (h' : Bounded 4096 t') : (State.run posix win32 sendTimeoutMs now (refreshDuringSend event h h')).rows.map
    (·.fcmToken) = [none] := by
  have huuid : isUuid phoneId = true := by decide +kernel
  have hsend : (MessagingOutcome.rejected true (some (js "messaging/registration-token-not-registered"))).send =
      .invalidToken (js "messaging/registration-token-not-registered") := by
    rw [MessagingOutcome.send, Option.filter_some, if_pos (by simp [INVALID_TOKEN_CODES])]
  simp [State.run, refreshDuringSend, State.step, State.init, State.request, handle, DeviceRepository.create,
    State.dispatch, ha, hb,
    State.begin, State.lookup, DeviceRepository.listAndroidPushTargets, State.start, DeviceRepository.update, huuid,
    State.settle, hsend, State.move, State.clear, phoneWith, refreshed, DeviceRecord.owned,
    canonical_canonical, DeviceRecord.set, PatchDeviceBody.patch, clearToken]

end NotifyHub.Push
