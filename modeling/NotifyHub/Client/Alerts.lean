/-
  NotifyHub.Client.Alerts — how often `NotificationRouter.handle` alerts for an event
  (apps/client/lib/notifications/notification_router.dart).

  - `no_double_alert`: while the history retains the row of an event, no read of that row
    throws, and no call for the event writes after as many other ids have come as the deduper
    holds, the event has one alert and one row at most, whatever comes between and however
    often the app restarts; and the first call for an event that alerts does alert once it has
    had its turns, whether or not the history throws.
  - `lost_read_alerts_twice`: after a restart, a read that throws alerts again.

  The deduper covers a call until it writes, and the row covers the event from then on.
-/

import Mathlib.Data.List.Lex
import NotifyHub.Client.NotificationRouter

namespace NotifyHub.Client.Alerts

/-- A call for the event that has added its row, and has not alerted. -/
def Call.adds (eventId : JsString) (call : Call) : Bool := call.event.eventId = eventId ∧ call.phase = .added

theorem adds_meet (eventId id : JsString) (call : Call) : (call.meet id).adds eventId = call.adds eventId := by
  rw [Call.adds, Call.adds, meet_event, meet_phase]

section

variable [LinearOrder JsString] (P : Platform) (opens : Bool) (eventId : JsString)

/-- The call that writes. -/
def writes (s : AlertRouter) : Op → Option Call
  | .write i _ => s.calls[i]?.filter fun call => match call.phase with
    | .adding _ => true
    | _ => false
  | _ => none

/-- A call for the event writes before as many other ids have come as the deduper holds. -/
def Prompt (s : AlertRouter) (op : Op) : Prop :=
  ∀ call ∈ writes s op, call.event.eventId = eventId → call.prompt s.deduper.capacity = true

/-- The history retains the row of the event. -/
def Keeps (s : AlertRouter) (op : Op) : Prop :=
  (s.history.contains eventId = true → (s.step P opens op).history.contains eventId = true) ∧
    ∀ call ∈ writes s op, call.event.eventId = eventId → (s.step P opens op).history.contains eventId = true

/-- No look for the event throws while the history has its row. -/
def Finds (s : AlertRouter) : Op → Prop
  | .check i thrown => thrown = true → ∀ call ∈ s.calls[i]?, call.phase = .checking → call.event.eventId = eventId →
    s.history.contains eventId = false
  | _ => True

instance (s : AlertRouter) : (op : Op) → Decidable (Finds eventId s op)
  | .check i _ => inferInstanceAs (Decidable (_ → ∀ call ∈ s.calls[i]?, _ → _ → _))
  | .handle _ | .resume .. | .write .. | .alert .. | .delete _ | .restart => inferInstanceAs (Decidable True)

instance (s : AlertRouter) (op : Op) : Decidable (Prompt eventId s op) :=
  inferInstanceAs (Decidable (∀ call ∈ writes s op, _ → _))

instance (s : AlertRouter) (op : Op) : Decidable (Keeps P opens eventId s op) :=
  inferInstanceAs (Decidable ((_ → _) ∧ ∀ call ∈ writes s op, _ → _))

/-- The event has a call that added its row, or an alert, and one only; neither is without the row, and with the row
    no call of the event is about to write. -/
structure Single (s : AlertRouter) : Prop where
  tracked : Tracked eventId s.deduper s.calls
  idle : s.history.contains eventId = true → ∀ (i : Nat) (call : Call), s.calls[i]? = some call →
    call.event.eventId = eventId →
    call.phase.committed = true → call.prompt s.deduper.capacity = false
  kept : 0 < s.alerts.countP (·.eventId = eventId) + s.calls.countP (·.adds eventId) + s.rows.count eventId →
    s.history.contains eventId = true
  one : s.alerts.countP (·.eventId = eventId) + s.calls.countP (·.adds eventId) ≤ 1
  row : s.rows.count eventId ≤ 1

variable {P opens eventId} {s : AlertRouter}

/-- A call goes on, and it adds no row of the event. -/
theorem Single.setPhase (h : Single eventId s) {i : Nat} {phase : Phase} {call : Call} (hcall : s.calls[i]? = some call)
    (htracked : Tracked eventId s.deduper (s.setPhase i phase).calls)
    (hsame : Call.adds eventId { call with phase } = call.adds eventId)
    (hcommitted : s.history.contains eventId = true → call.event.eventId = eventId → phase.committed = true →
      call.phase.committed = true) : Single eventId (s.setPhase i phase) := by
  have hadds : (s.setPhase i phase).calls.countP (·.adds eventId) = s.calls.countP (·.adds eventId) := by
    have hcount := countP_modify (f := ({ · with phase })) (·.adds eventId) hcall
    rw [hsame] at hcount
    exact Nat.add_right_cancel hcount
  refine ⟨htracked, fun hin j call' hj hid hphase => ?_, fun hpos => h.kept (by rwa [hadds] at hpos), ?_, h.row⟩
  · obtain ⟨a, haj, ha⟩ := modified_iff.mp hj
    by_cases hij : i = j
    · rw [if_pos hij] at ha
      subst ha hij
      rw [hcall] at haj
      obtain rfl := Option.some.inj haj
      exact h.idle hin i call hcall hid (hcommitted hin hid hphase)
    · rw [if_neg hij] at ha
      subst ha
      exact h.idle hin j a haj hid hphase
  · change s.alerts.countP (·.eventId = eventId) + _ ≤ 1
    rw [hadds]
    exact h.one

theorem Single.handle (h : Single eventId s) (event : AlertEvent) : Single eventId (s.handle event) := by
  have htracked : Tracked eventId (s.handle event).deduper (s.handle event).calls := h.tracked.handle event
  have hmet : (s.calls.map (·.meet event.eventId)).countP (·.adds eventId) = s.calls.countP (·.adds eventId) := by
    rw [List.countP_map]
    exact List.countP_congr fun call _ => by rw [Function.comp, adds_meet]
  have hadds : (s.handle event).calls.countP (·.adds eventId) = s.calls.countP (·.adds eventId) := by
    rw [calls_handle]
    split
    · exact hmet
    · rw [List.countP_append, hmet, List.countP_singleton]
      simp [Call.adds]
  refine ⟨htracked, fun hin i call' hi hid hphase => ?_, fun hpos => h.kept (by rwa [hadds] at hpos), ?_, h.row⟩
  · have hmem : ∃ call, s.calls[i]? = some call ∧ call.meet event.eventId = call' := by
      rcases handle_cases hi with hold | ⟨-, rfl⟩
      · exact hold
      · cases hphase
    obtain ⟨call, hcall, rfl⟩ := hmem
    rw [meet_event] at hid
    rw [meet_phase] at hphase
    change (call.meet event.eventId).prompt (s.deduper.isDuplicate event.eventId).2.capacity = false
    rw [isDuplicate_capacity, ← Bool.not_eq_true]
    intro hprompt
    have hidle := h.idle hin i call hcall hid hphase
    rw [prompt_of_meet hprompt] at hidle
    cases hidle
  · change s.alerts.countP (·.eventId = eventId) + _ ≤ 1
    rw [hadds]
    exact h.one

/-- What a step does to a call that is not the one that goes on. -/
theorem other_of_setPhase {i j : Nat} {phase : Phase} {call' : Call} (hne : i ≠ j)
    (h : (s.setPhase i phase).calls[j]? = some call') :
    s.calls[j]? = some call' := by
  obtain ⟨call, hcall, hcall'⟩ := modified_iff.mp h
  rw [if_neg hne] at hcall'
  exact hcall' ▸ hcall

/-- A call that is about to write, in time, finds no row, no alert and no other call that added the row. -/
theorem Single.none_before (h : Single eventId s) {i : Nat} {call : Call} (hcall : s.calls[i]? = some call)
    (hid : call.event.eventId = eventId)
    (hphase : call.phase.committed = true) (hprompt : call.prompt s.deduper.capacity = true) :
    s.history.contains eventId = false ∧
      s.alerts.countP (·.eventId = eventId) + s.calls.countP (·.adds eventId) + s.rows.count eventId = 0 := by
  have hout : s.history.contains eventId = false := by
    rw [← Bool.not_eq_true]
    intro hheld
    rw [h.idle hheld i call hcall hid hphase] at hprompt
    cases hprompt
  refine ⟨hout, ?_⟩
  by_contra hsome
  rw [h.kept (Nat.pos_of_ne_zero hsome)] at hout
  cases hout

/-- The first call for the event adds its row. -/
theorem Single.write_own (h : Single eventId s) {i : Nat} {event : AlertEvent} {entry : HistoryEntry JsString}
    {others : List JsString}
    (hcall : s.calls[i]? = some ⟨event, .adding entry, others⟩) (hid : event.eventId = eventId)
    (hprompt : Call.prompt s.deduper.capacity ⟨event, .adding entry, others⟩ = true)
    (hin : (s.write i false).history.contains eventId = true)
    (hwrite : s.write i false = { s.setPhase i .added with
      history := s.history.add entry
      rows := if s.history.contains entry.eventId then s.rows else s.rows ++ [entry.eventId] })
    (htracked : Tracked eventId (s.write i false).deduper (s.write i false).calls) :
    Single eventId (s.write i false) := by
  have hentry : entry.eventId = event.eventId := h.tracked.own i _ entry hcall rfl
  obtain ⟨hout, hnone⟩ := h.none_before hcall hid rfl hprompt
  have hbefore : ¬ Call.adds eventId ⟨event, .adding entry, others⟩ = true := by simp [Call.adds]
  have hafter : Call.adds eventId ⟨event, .added, others⟩ = true := by simp [Call.adds, hid]
  have hcount := countP_modify (f := ({ · with phase := Phase.added })) (·.adds eventId) hcall
  rw [if_neg hbefore, if_pos hafter] at hcount
  rw [hwrite] at htracked hin ⊢
  refine ⟨htracked, fun _ j call' hj hid' hphase => ?_, fun _ => hin, ?_, ?_⟩
  · by_cases hij : i = j
    · subst hij
      obtain ⟨a, -, ha⟩ := modified_iff.mp hj
      rw [if_pos rfl] at ha
      subst ha
      cases hphase
    · have hold := other_of_setPhase hij hj
      change call'.prompt s.deduper.capacity = false
      rcases Nat.lt_or_gt_of_ne hij with hlt | hgt
      · -- a later call was made after the call that writes was overtaken
        rw [h.tracked.first i j _ call' hlt hcall hold hid hid' rfl] at hprompt
        cases hprompt
      · exact h.tracked.first j i call' _ hgt hold hcall hid' hid (waits_of_committed hphase)
  · change s.alerts.countP (·.eventId = eventId) + (s.calls.modify i _).countP _ ≤ 1
    omega
  · change (if s.history.contains entry.eventId then s.rows else s.rows ++ [entry.eventId]).count eventId ≤ 1
    rw [hentry, hid, hout, if_neg Bool.false_ne_true, List.count_append, List.count_singleton_self]
    omega

/-- A call for another event adds its row. -/
theorem Single.write_other (h : Single eventId s) {i : Nat} {event : AlertEvent} {entry : HistoryEntry JsString}
    {others : List JsString}
    (hcall : s.calls[i]? = some ⟨event, .adding entry, others⟩) (hid : event.eventId ≠ eventId)
    (hkeep : s.history.contains eventId = true → (s.write i false).history.contains eventId = true)
    (hwrite : s.write i false = { s.setPhase i .added with
      history := s.history.add entry
      rows := if s.history.contains entry.eventId then s.rows else s.rows ++ [entry.eventId] })
    (htracked : Tracked eventId (s.write i false).deduper (s.write i false).calls) :
    Single eventId (s.write i false) := by
  have hentry : entry.eventId = event.eventId := h.tracked.own i _ entry hcall rfl
  have hcount := countP_modify (f := ({ · with phase := Phase.added })) (·.adds eventId) hcall
  have hadds : (s.calls.modify i ({ · with phase := .added })).countP (·.adds eventId) =
    s.calls.countP (·.adds eventId) := by
    simpa [Call.adds, hid] using hcount
  have hsame : (if s.history.contains entry.eventId then s.rows else s.rows ++ [entry.eventId]).count eventId =
    s.rows.count eventId := by
    rw [hentry]
    split
    · rfl
    · rw [List.count_append, List.count_singleton, beq_eq_false_iff_ne.mpr hid]
      rfl
  rw [hwrite] at htracked hkeep ⊢
  refine ⟨htracked, fun hin j call' hj hid' hphase => ?_, fun hpos => hkeep (h.kept ?_), ?_, ?_⟩
  · have hheld : s.history.contains eventId = true :=
      (contains_add hin).resolve_right fun heq => hid (hentry.symm.trans heq)
    by_cases hij : i = j
    · subst hij
      obtain ⟨a, -, ha⟩ := modified_iff.mp hj
      rw [if_pos rfl] at ha
      subst ha
      cases hphase
    · exact h.idle hheld j call' (other_of_setPhase hij hj) hid' hphase
  · change 0 < s.alerts.countP (·.eventId = eventId) + (s.calls.modify i _).countP _ + List.count eventId
      (if _ then _ else _) at hpos
    rwa [hadds, hsame] at hpos
  · change s.alerts.countP (·.eventId = eventId) + (s.calls.modify i _).countP _ ≤ 1
    rw [hadds]
    exact h.one
  · change List.count eventId (if _ then _ else _) ≤ 1
    rw [hsame]
    exact h.row

/-- A call that added its row alerts, or the alerts are paused. -/
theorem Single.alert (h : Single eventId s) (i : Nat) (settings : NotificationSettings) :
    Single eventId (s.alert P opens i settings) := by
  have htracked : Tracked eventId (s.alert P opens i settings).deduper (s.alert P opens i settings).calls :=
    tracked_step h.tracked (.alert i settings)
  rcases alert_cases P opens s i settings with heq | ⟨event, others, hcall, heq⟩
  · rwa [heq]
  have hafter : ¬ Call.adds eventId ⟨event, .ended, others⟩ = true := by simp [Call.adds]
  have hcount := countP_modify (f := ({ · with phase := Phase.ended })) (·.adds eventId) hcall
  rw [if_neg hafter] at hcount
  have halerts : (if settings.paused then s.alerts else s.alerts ++ [requestOf P opens settings event]).countP
    (·.eventId = eventId) ≤
      s.alerts.countP (·.eventId = eventId) + if Call.adds eventId ⟨event, .added, others⟩ = true then 1 else 0 := by
    split
    · exact Nat.le_add_right _ _
    · rw [List.countP_append, List.countP_singleton]
      by_cases hid : event.eventId = eventId
      · simp [requestOf, Call.adds, hid]
      · simp [requestOf, Call.adds, hid]
  rw [heq] at htracked ⊢
  refine ⟨htracked, fun hin j call' hj hid' hphase => ?_, fun hpos => h.kept ?_, ?_, h.row⟩
  · by_cases hij : i = j
    · subst hij
      obtain ⟨a, -, ha⟩ := modified_iff.mp hj
      rw [if_pos rfl] at ha
      subst ha
      cases hphase
    · exact h.idle hin j call' (other_of_setPhase hij hj) hid' hphase
  · change 0 < List.countP _ (if _ then _ else _) + (s.calls.modify i _).countP _ + s.rows.count eventId at hpos
    omega
  · change List.countP _ (if _ then _ else _) + (s.calls.modify i _).countP _ ≤ 1
    have hone := h.one
    omega

theorem single_step (h : Single eventId s) {op : Op} (hprompt : Prompt eventId s op)
    (hkeeps : Keeps P opens eventId s op)
    (hfinds : Finds eventId s op) : Single eventId (s.step P opens op) := by
  have htracked : Tracked eventId (s.step P opens op).deduper (s.step P opens op).calls := tracked_step h.tracked op
  cases op with
  | handle event => exact h.handle event
  | check i thrown =>
    change Single eventId (s.check i thrown)
    rcases check_cases s i thrown with heq | ⟨event, others, hcall, heq⟩
    · rwa [heq]
    · change Tracked eventId (s.check i thrown).deduper (s.check i thrown).calls at htracked
      rw [heq] at htracked ⊢
      refine h.setPhase hcall htracked (by simp [Call.adds]) fun hin hid hphase => ?_
      change event.eventId = eventId at hid
      rw [hid, hin] at hphase
      cases thrown with
      | true =>
        have hout := hfinds rfl _ hcall rfl hid
        rw [hin] at hout
        cases hout
      | false => cases hphase
  | resume i receivedAt =>
    change Single eventId (s.resume P i receivedAt)
    rcases resume_cases P s i receivedAt with heq | ⟨event, found, others, sessions, hcall, heq⟩
    · rwa [heq]
    · change Tracked eventId (s.resume P i receivedAt).deduper (s.resume P i receivedAt).calls at htracked
      rw [heq] at htracked ⊢
      have hnext := h.setPhase hcall htracked (by split <;> simp [Call.adds]) fun _ _ hphase => by
        split at hphase
        · rename_i hfound
          rw [hfound.1]
          rfl
        · cases hphase
      exact ⟨hnext.tracked, hnext.idle, hnext.kept, hnext.one, hnext.row⟩
  | write i thrown =>
    change Single eventId (s.write i thrown)
    rcases write_cases s i thrown with
      heq | ⟨event, entry, others, hcall, rfl, heq⟩ | ⟨event, entry, others, hcall, rfl, heq⟩
    · rwa [heq]
    · change Tracked eventId (s.write i true).deduper (s.write i true).calls at htracked
      have hwrites : writes s (.write i true) = some ⟨event, .adding entry, others⟩ := by
        rw [writes, hcall]
        rfl
      rw [heq] at htracked ⊢
      by_cases hid : event.eventId = eventId
      · -- the row of the event would be lost
        have hkept := hkeeps.2 _ hwrites hid
        change (s.write i true).history.contains eventId = true at hkept
        rw [heq] at hkept
        obtain ⟨hout, -⟩ := h.none_before hcall hid rfl (hprompt _ hwrites hid)
        rw [show s.history.contains eventId = true from hkept] at hout
        cases hout
      · refine h.setPhase hcall htracked (by simp [Call.adds, hid]) fun _ hsame => ?_
        exact absurd hsame hid
    · have hwrites : writes s (.write i false) = some ⟨event, .adding entry, others⟩ := by
        rw [writes, hcall]
        rfl
      by_cases hid : event.eventId = eventId
      · exact h.write_own hcall hid (hprompt _ hwrites hid) (hkeeps.2 _ hwrites hid) heq htracked
      · exact h.write_other hcall hid hkeeps.1 heq htracked
  | alert i settings => exact h.alert i settings
  | delete id => exact ⟨htracked, fun hin => h.idle (contains_remove hin), fun hpos => hkeeps.1 (h.kept hpos),
      h.one, h.row⟩
  | restart =>
    refine ⟨htracked, fun _ _ _ hi => (nomatch hi), fun hpos => h.kept ?_, ?_, h.row⟩
    · change 0 < s.alerts.countP (·.eventId = eventId) + 0 + s.rows.count eventId at hpos
      omega
    · change s.alerts.countP (·.eventId = eventId) + 0 ≤ 1
      have hone := h.one
      omega

theorem single_init (capacity : Nat) (positive : 0 < capacity) (history : SqliteNotificationHistory JsString) :
    Single eventId (AlertRouter.init capacity positive history) :=
  ⟨tracked_nil List.nodup_nil, fun _ _ _ hi => (nomatch hi), fun hpos => absurd hpos (Nat.lt_irrefl 0),
    Nat.zero_le 1, Nat.zero_le 1⟩

/-! ## The first call -/

/-- Nothing has heard of the event. -/
structure Unknown (eventId : JsString) (s : AlertRouter) : Prop where
  history : s.history.contains eventId = false
  seen : eventId ∉ s.deduper.seen
  calls : ∀ call ∈ s.calls, call.event.eventId ≠ eventId
  tracked : Tracked eventId s.deduper s.calls

/-- The app does not restart, the alerts are not paused, and the call looks before as many other ids have come as the
    deduper holds. -/
def Calm (i : Nat) (s : AlertRouter) : Op → Prop
  | .restart => False
  | .alert _ settings => settings.paused = false
  | .check j thrown => i = j → thrown = false → ∀ call ∈ s.calls[i]?, call.prompt s.deduper.capacity = true
  | _ => True

instance (i : Nat) (s : AlertRouter) : (op : Op) → Decidable (Calm i s op)
  | .restart => inferInstanceAs (Decidable False)
  | .alert .. => inferInstanceAs (Decidable (_ = _))
  | .check .. => inferInstanceAs (Decidable (_ → _ → ∀ call ∈ s.calls[i]?, _))
  | .handle _ | .resume .. | .write .. | .delete _ => inferInstanceAs (Decidable True)

/-- The call is the first for the event, finds no row before it writes, and is over once it has alerted only. -/
structure Served (event : AlertEvent) (i : Nat) (s : AlertRouter) : Prop where
  tracked : Tracked event.eventId s.deduper s.calls
  alone : ∀ (j : Nat) (call : Call), s.calls[j]? = some call → call.event.eventId = event.eventId → i ≤ j
  call : ∃ call, s.calls[i]? = some call ∧ call.event = event ∧ call.phase ≠ .checked true ∧
    (call.phase = .checking → call.prompt s.deduper.capacity = true → s.history.contains event.eventId = false) ∧
    (call.phase = .ended → event.eventId ∈ s.alerts.map (·.eventId))

/-- The calls of a step of a call are for the same events. -/
theorem events_setPhase {i : Nat} {phase : Phase} {call' : Call} (h : call' ∈ (s.setPhase i phase).calls) :
    ∃ call ∈ s.calls, call'.event = call.event := by
  obtain ⟨j, hj⟩ := List.mem_iff_getElem?.mp h
  obtain ⟨call, hcall, rfl⟩ := modified_iff.mp hj
  refine ⟨call, List.mem_of_getElem? hcall, ?_⟩
  split <;> rfl

theorem unknown_step (h : Unknown eventId s) {op : Op}
    (hother : ∀ event, op = .handle event → event.eventId ≠ eventId) :
    Unknown eventId (s.step P opens op) := by
  have htracked : Tracked eventId (s.step P opens op).deduper (s.step P opens op).calls := tracked_step h.tracked op
  have hcalls : ∀ {i : Nat} {phase : Phase}, ∀ call ∈ (s.setPhase i phase).calls, call.event.eventId ≠ eventId := by
    intro i phase call' hcall'
    obtain ⟨call, hcall, hevent⟩ := events_setPhase hcall'
    rw [hevent]
    exact h.calls call hcall
  cases op with
  | handle event =>
    have hne := hother event rfl
    refine ⟨h.history, seen_isDuplicate hne h.seen, fun call' hcall' => ?_, htracked⟩
    obtain ⟨i, hi⟩ := List.mem_iff_getElem?.mp hcall'
    rcases handle_cases hi with ⟨call, hcall, rfl⟩ | ⟨-, rfl⟩
    · rw [meet_event]
      exact h.calls call (List.mem_of_getElem? hcall)
    · exact hne
  | check i thrown =>
    change Unknown eventId (s.check i thrown)
    change Tracked eventId (s.check i thrown).deduper (s.check i thrown).calls at htracked
    rcases check_cases s i thrown with heq | ⟨event, others, -, heq⟩
    · rwa [heq]
    · rw [heq] at htracked ⊢
      exact ⟨h.history, h.seen, hcalls, htracked⟩
  | resume i receivedAt =>
    change Unknown eventId (s.resume P i receivedAt)
    change Tracked eventId (s.resume P i receivedAt).deduper (s.resume P i receivedAt).calls at htracked
    rcases resume_cases P s i receivedAt with heq | ⟨event, found, others, sessions, -, heq⟩
    · rwa [heq]
    · rw [heq] at htracked ⊢
      exact ⟨h.history, h.seen, hcalls, htracked⟩
  | write i thrown =>
    change Unknown eventId (s.write i thrown)
    change Tracked eventId (s.write i thrown).deduper (s.write i thrown).calls at htracked
    rcases write_cases s i thrown with heq | ⟨event, entry, others, -, -, heq⟩ | ⟨event, entry, others, hcall, -, heq⟩
    · rwa [heq]
    · rw [heq] at htracked ⊢
      exact ⟨h.history, h.seen, hcalls, htracked⟩
    · have hentry : entry.eventId ≠ eventId := by
        rw [h.tracked.own i _ entry hcall rfl]
        exact h.calls _ (List.mem_of_getElem? hcall)
      rw [heq] at htracked ⊢
      refine ⟨?_, h.seen, hcalls, htracked⟩
      rw [← Bool.not_eq_true]
      intro hin
      have hout := h.history
      rw [(contains_add hin).resolve_right hentry] at hout
      cases hout
  | alert i settings =>
    change Unknown eventId (s.alert P opens i settings)
    change Tracked eventId (s.alert P opens i settings).deduper (s.alert P opens i settings).calls at htracked
    rcases alert_cases P opens s i settings with heq | ⟨event, others, -, heq⟩
    · rwa [heq]
    · rw [heq] at htracked ⊢
      exact ⟨h.history, h.seen, hcalls, htracked⟩
  | delete id =>
    refine ⟨?_, h.seen, h.calls, htracked⟩
    rw [← Bool.not_eq_true]
    intro hin
    have hout := h.history
    rw [contains_remove hin] at hout
    cases hout
  | restart => exact ⟨h.history, List.not_mem_nil, fun _ hcall => (nomatch hcall), htracked⟩

section

variable {i : Nat} {event : AlertEvent}

theorem setPhase_self {phase : Phase} {call : Call} (h : s.calls[i]? = some call) :
    (s.setPhase i phase).calls[i]? = some { call with phase } := by
  have hnext := getElem_modify (i := i) (f := ({ · with phase })) h
  rwa [if_pos rfl] at hnext

theorem setPhase_other {j : Nat} {phase : Phase} {call : Call} (hne : j ≠ i) (h : s.calls[i]? = some call) :
    (s.setPhase j phase).calls[i]? = some call := by
  have hnext := getElem_modify (i := j) (f := ({ · with phase })) h
  rwa [if_neg hne] at hnext

theorem handle_old {call : Call} (h : s.calls[i]? = some call) (other : AlertEvent) :
    (s.handle other).calls[i]? = some (call.meet other.eventId) := by
  have hmet : (s.calls.map (·.meet other.eventId))[i]? = some (call.meet other.eventId) := by
    rw [List.getElem?_map, h]
    rfl
  rw [calls_handle]
  split
  · exact hmet
  · exact getElem_append_old hmet _

/-- No call goes on as an earlier one for the event. -/
theorem alone_setPhase (h : Served event i s) {k : Nat} {phase : Phase} :
    ∀ (j : Nat) (call : Call), (s.setPhase k phase).calls[j]? = some call → call.event.eventId = event.eventId →
      i ≤ j := by
  intro j call' hj hid
  obtain ⟨call, hcall, rfl⟩ := modified_iff.mp hj
  refine h.alone j call hcall ?_
  split at hid
  · exact hid
  · exact hid

theorem served_step (h : Served event i s) (halerts : alerts event = true) {op : Op} (hcalm : Calm i s op) :
    Served event i (s.step P opens op) := by
  have htracked : Tracked event.eventId (s.step P opens op).deduper (s.step P opens op).calls :=
    tracked_step h.tracked op
  obtain ⟨call, hcall, hevent, hfound, hclear, halerted⟩ := h.call
  cases op with
  | handle other =>
    refine ⟨htracked, fun j call' hj hid => ?_, call.meet other.eventId, handle_old hcall other,
      ?_, ?_, fun hphase hprompt => ?_, ?_⟩
    · rcases handle_cases hj with ⟨old, hold, rfl⟩ | ⟨rfl, -⟩
      · rw [meet_event] at hid
        exact h.alone j old hold hid
      · exact (List.getElem?_eq_some_iff.mp hcall).1.le
    · rwa [meet_event]
    · rwa [meet_phase]
    · rw [meet_phase] at hphase
      change Call.prompt (s.deduper.isDuplicate other.eventId).2.capacity _ = true at hprompt
      rw [isDuplicate_capacity] at hprompt
      exact hclear hphase (prompt_of_meet hprompt)
    · rwa [meet_phase]
  | check j thrown =>
    change Served event i (s.check j thrown)
    change Tracked event.eventId (s.check j thrown).deduper (s.check j thrown).calls at htracked
    rcases check_cases s j thrown with heq | ⟨event', others, hj, heq⟩
    · rwa [heq]
    · rw [heq] at htracked ⊢
      by_cases hij : j = i
      · subst hij
        rw [hcall] at hj
        obtain rfl := Option.some.inj hj
        obtain rfl : event' = event := hevent
        have hout : (!thrown && s.history.contains event'.eventId) = false := by
          cases thrown with
          | true => rfl
          | false => exact hclear rfl (hcalm rfl rfl _ hcall)
        refine ⟨htracked, alone_setPhase h, _, setPhase_self hcall, rfl, ?_, ?_, ?_⟩
        · simp [hout]
        · simp
        · simp
      · exact ⟨htracked, alone_setPhase h, call, setPhase_other hij hcall, hevent, hfound, hclear, halerted⟩
  | resume j receivedAt =>
    change Served event i (s.resume P j receivedAt)
    change Tracked event.eventId (s.resume P j receivedAt).deduper (s.resume P j receivedAt).calls at htracked
    rcases resume_cases P s j receivedAt with heq | ⟨event', found, others, sessions, hj, heq⟩
    · rwa [heq]
    · rw [heq] at htracked ⊢
      by_cases hij : j = i
      · subst hij
        rw [hcall] at hj
        obtain rfl := Option.some.inj hj
        obtain rfl : event' = event := hevent
        obtain rfl : found = false := by
          cases found with
          | false => rfl
          | true => exact absurd rfl hfound
        rw [if_pos ⟨rfl, halerts⟩] at htracked ⊢
        refine ⟨htracked, alone_setPhase h, _, setPhase_self hcall, rfl, ?_, ?_, ?_⟩
        · simp
        · simp
        · simp
      · exact ⟨htracked, alone_setPhase h, call, setPhase_other hij hcall, hevent, hfound, hclear, halerted⟩
  | write j thrown =>
    change Served event i (s.write j thrown)
    change Tracked event.eventId (s.write j thrown).deduper (s.write j thrown).calls at htracked
    rcases write_cases s j thrown with heq | ⟨event', entry, others, hj, -, heq⟩ | ⟨event', entry, others, hj, -, heq⟩
    · rwa [heq]
    · rw [heq] at htracked ⊢
      by_cases hij : j = i
      · subst hij
        rw [hcall] at hj
        obtain rfl := Option.some.inj hj
        exact ⟨htracked, alone_setPhase h, _, setPhase_self hcall, hevent, by simp, by simp, by simp⟩
      · exact ⟨htracked, alone_setPhase h, call, setPhase_other hij hcall, hevent, hfound, hclear, halerted⟩
    · rw [heq] at htracked ⊢
      by_cases hij : j = i
      · subst hij
        rw [hcall] at hj
        obtain rfl := Option.some.inj hj
        exact ⟨htracked, alone_setPhase h, _, setPhase_self hcall, hevent, by simp, by simp, by simp⟩
      · refine ⟨htracked, alone_setPhase h, call, setPhase_other hij hcall, hevent, hfound,
          fun hphase hprompt => ?_, halerted⟩
        change (s.history.add entry).contains event.eventId = false
        rw [← Bool.not_eq_true]
        intro hin
        have hentry : entry.eventId = event'.eventId := h.tracked.own j _ entry hj rfl
        have hid := (contains_add hin).resolve_left fun hheld => by
          rw [hclear hphase hprompt] at hheld
          cases hheld
        -- the call that writes is a later one for the event: this one was overtaken
        have hle := h.alone j _ hj (hentry.symm.trans hid)
        change Call.prompt s.deduper.capacity call = true at hprompt
        have hover := h.tracked.first i j call _ (by omega) hcall hj (hevent ▸ rfl) (hentry.symm.trans hid)
          (by rw [hphase]; rfl)
        rw [hprompt] at hover
        cases hover
  | alert j settings =>
    change Served event i (s.alert P opens j settings)
    change Tracked event.eventId (s.alert P opens j settings).deduper (s.alert P opens j settings).calls at htracked
    have hpaused : settings.paused = false := hcalm
    rcases alert_cases P opens s j settings with heq | ⟨event', others, hj, heq⟩
    · rwa [heq]
    · rw [hpaused, if_neg Bool.false_ne_true] at heq
      rw [heq] at htracked ⊢
      by_cases hij : j = i
      · subst hij
        rw [hcall] at hj
        obtain rfl := Option.some.inj hj
        obtain rfl : event' = event := hevent
        refine ⟨htracked, alone_setPhase h, _, setPhase_self hcall, rfl, ?_, ?_, fun _ => ?_⟩
        · simp
        · simp
        · exact List.mem_map.mpr ⟨requestOf P opens settings event', List.mem_append_right _ List.mem_cons_self, rfl⟩
      · refine ⟨htracked, alone_setPhase h, call, setPhase_other hij hcall, hevent, hfound, hclear, fun hphase => ?_⟩
        change event.eventId ∈ (s.alerts ++ [_]).map _
        rw [List.map_append]
        exact List.mem_append_left _ (halerted hphase)
  | delete id =>
    refine ⟨htracked, h.alone, call, hcall, hevent, hfound, fun hphase hprompt => ?_, halerted⟩
    rw [← Bool.not_eq_true]
    intro hin
    have hout := hclear hphase hprompt
    rw [contains_remove hin] at hout
    cases hout
  | restart => exact hcalm.elim

/-- The first call for the event is made. -/
theorem served_handle (h : Unknown event.eventId s) : Served event s.calls.length (s.handle event) := by
  have hcalls := calls_handle s event
  rw [if_neg h.seen] at hcalls
  refine ⟨h.tracked.handle event, fun j call' hj hid => ?_, ⟨event, .checking, []⟩, ?_, rfl,
    ?_, fun _ _ => h.history, ?_⟩
  · rcases handle_cases hj with ⟨call, hcall, rfl⟩ | ⟨rfl, -⟩
    · rw [meet_event] at hid
      exact absurd hid (h.calls call (List.mem_of_getElem? hcall))
    · exact Nat.le_refl _
  · rw [hcalls]
    exact getElem_snoc.mpr (Or.inr ⟨by rw [List.length_map], rfl⟩)
  · simp
  · simp

end

/-! ## The turns of a call -/

/-- How the steps of a call come: whether the look and the row throw, the clock, and the settings. -/
structure Turns where
  checkThrows : Bool
  receivedAt : DateTime
  writeThrows : Bool
  settings : NotificationSettings

/-- The steps that a call has ahead of it. -/
def Phase.ahead (i : Nat) (t : Turns) : Phase → List Op
  | .checking => [.check i t.checkThrows, .resume i t.receivedAt, .write i t.writeThrows, .alert i t.settings]
  | .checked _ => [.resume i t.receivedAt, .write i t.writeThrows, .alert i t.settings]
  | .adding _ => [.write i t.writeThrows, .alert i t.settings]
  | .added => [.alert i t.settings]
  | .ended => []

section

variable {i : Nat} {t : Turns}

/-- No step puts a call back. -/
theorem ahead_shrinks {call : Call} (hcall : s.calls[i]? = some call) {op : Op} (hop : op ≠ .restart) :
    ∃ call', (s.step P opens op).calls[i]? = some call' ∧
      (call'.phase.ahead i t).Sublist (call.phase.ahead i t) := by
  have moved : ∀ {j : Nat} {phase : Phase} {old : Call}, s.calls[j]? = some old →
      (phase.ahead i t).Sublist (old.phase.ahead i t) →
      ∃ call', (s.setPhase j phase).calls[i]? = some call' ∧
        (call'.phase.ahead i t).Sublist (call.phase.ahead i t) := by
    intro j phase old hj hsub
    by_cases hij : j = i
    · subst hij
      rw [hcall] at hj
      obtain rfl := Option.some.inj hj
      exact ⟨_, setPhase_self hcall, hsub⟩
    · exact ⟨call, setPhase_other hij hcall, List.Sublist.refl _⟩
  cases op with
  | handle other =>
    refine ⟨_, handle_old hcall other, ?_⟩
    rw [meet_phase]
  | check j thrown =>
    change ∃ call', (s.check j thrown).calls[i]? = some call' ∧ _
    rcases check_cases s j thrown with heq | ⟨event, others, hj, heq⟩
    · rw [heq]
      exact ⟨call, hcall, List.Sublist.refl _⟩
    · rw [heq]
      exact moved hj (List.sublist_cons_self _ _)
  | resume j receivedAt' =>
    change ∃ call', (s.resume P j receivedAt').calls[i]? = some call' ∧ _
    rcases resume_cases P s j receivedAt' with heq | ⟨event, found, others, sessions, hj, heq⟩
    · rw [heq]
      exact ⟨call, hcall, List.Sublist.refl _⟩
    · rw [heq]
      refine moved hj ?_
      split
      · exact List.sublist_cons_self _ _
      · exact List.nil_sublist _
  | write j thrown =>
    change ∃ call', (s.write j thrown).calls[i]? = some call' ∧ _
    rcases write_cases s j thrown with heq | ⟨event, entry, others, hj, -, heq⟩ | ⟨event, entry, others, hj, -, heq⟩
    · rw [heq]
      exact ⟨call, hcall, List.Sublist.refl _⟩
    · rw [heq]
      exact moved hj (List.sublist_cons_self _ _)
    · rw [heq]
      exact moved hj (List.sublist_cons_self _ _)
  | alert j settings' =>
    change ∃ call', (s.alert P opens j settings').calls[i]? = some call' ∧ _
    rcases alert_cases P opens s j settings' with heq | ⟨event, others, hj, heq⟩
    · rw [heq]
      exact ⟨call, hcall, List.Sublist.refl _⟩
    · rw [heq]
      exact moved hj (List.nil_sublist _)
  | delete id => exact ⟨call, hcall, List.Sublist.refl _⟩
  | restart => exact absurd rfl hop

/-- The step that a call has ahead of it is taken when it comes. -/
theorem ahead_taken {call : Call} (hcall : s.calls[i]? = some call) {op : Op} {later : List Op}
    (hahead : call.phase.ahead i t = op :: later) :
    ∃ call', (s.step P opens op).calls[i]? = some call' ∧ (call'.phase.ahead i t).Sublist later := by
  obtain ⟨event, phase, others⟩ := call
  cases phase with
  | checking =>
    obtain ⟨rfl, rfl⟩ := List.cons.inj hahead
    change ∃ call', (s.check i t.checkThrows).calls[i]? = some call' ∧ _
    rw [check_at hcall]
    exact ⟨_, setPhase_self hcall, List.Sublist.refl _⟩
  | checked found =>
    obtain ⟨rfl, rfl⟩ := List.cons.inj hahead
    change ∃ call', (s.resume P i t.receivedAt).calls[i]? = some call' ∧ _
    obtain ⟨sessions, hresume⟩ := resume_at (P := P) hcall t.receivedAt
    rw [hresume]
    refine ⟨_, setPhase_self hcall, ?_⟩
    change ((if _ then _ else _ : Phase).ahead i t).Sublist _
    split
    · exact List.Sublist.refl _
    · exact List.nil_sublist _
  | adding entry =>
    obtain ⟨rfl, rfl⟩ := List.cons.inj hahead
    change ∃ call', (s.write i t.writeThrows).calls[i]? = some call' ∧ _
    rw [write_calls hcall]
    exact ⟨_, setPhase_self hcall, List.Sublist.refl _⟩
  | added =>
    obtain ⟨rfl, rfl⟩ := List.cons.inj hahead
    change ∃ call', (s.alert P opens i t.settings).calls[i]? = some call' ∧ _
    rw [alert_at hcall]
    exact ⟨_, setPhase_self hcall, List.Sublist.refl _⟩
  | ended => cases hahead

/-- A call is over once it has had its turns. -/
theorem over_of_turns {call : Call} (hcall : s.calls[i]? = some call) {rest : List Op} (hrest : Op.restart ∉ rest)
    (hturns : (call.phase.ahead i t).Sublist rest) :
    ∃ call', (runFrom (AlertRouter.step P opens) s rest).calls[i]? = some call' ∧ call'.phase = .ended := by
  induction rest generalizing s call with
  | nil =>
    refine ⟨call, hcall, ?_⟩
    have hnone := List.sublist_nil.mp hturns
    obtain ⟨event, phase, others⟩ := call
    cases phase with
    | ended => rfl
    | checking => cases hnone
    | checked found => cases hnone
    | adding entry => cases hnone
    | added => cases hnone
  | cons op rest ih =>
    have hop : op ≠ .restart := fun heq => hrest (heq ▸ List.mem_cons_self)
    have hrest' : Op.restart ∉ rest := fun hmem => hrest (List.mem_cons_of_mem _ hmem)
    rcases List.sublist_cons_iff.mp hturns with hlater | ⟨later, hahead, hlater⟩
    · obtain ⟨call', hcall', hsub⟩ : ∃ call', (s.step P opens op).calls[i]? = some call' ∧
          (call'.phase.ahead i t).Sublist (call.phase.ahead i t) := ahead_shrinks hcall hop
      exact ih hcall' hrest' (hsub.trans hlater)
    · obtain ⟨call', hcall', hsub⟩ : ∃ call', (s.step P opens op).calls[i]? = some call' ∧
          (call'.phase.ahead i t).Sublist later := ahead_taken hcall hahead
      exact ih hcall' hrest' (hsub.trans hlater)

end

/-! ## No double alert -/

/-- While the history retains the row of an event, no look for the event throws while it has the row, and no call for
    the event writes after as many other ids have come as the deduper holds, the event has at most one alert and one
    row. The first call for an event that alerts, which the history does not have, alerts when it has had its turns,
    where the app does not restart, the alerts are not paused, and the call looks into the history before as many
    other ids have come as the deduper holds, unless the look throws. -/
theorem no_double_alert (P : Platform) (opens : Bool) (capacity : Nat) (positive : 0 < capacity)
    (history : SqliteNotificationHistory JsString)
    (ops : List Op) :
    let step := AlertRouter.step P opens
    let start := AlertRouter.init capacity positive history
    (∀ eventId, Along step (fun s op => Prompt eventId s op ∧ Keeps P opens eventId s op ∧ Finds eventId s op)
      start ops →
      (runFrom step start ops).alerts.countP (·.eventId = eventId) ≤ 1 ∧
        (runFrom step start ops).rows.count eventId ≤ 1) ∧
    ∀ before event rest t, ops = before ++ .handle event :: rest → alerts event = true →
      history.contains event.eventId = false →
        (∀ earlier, Op.handle earlier ∈ before → earlier.eventId ≠ event.eventId) →
      let i := (runFrom step start before).calls.length
      Along step (Calm i) ((runFrom step start before).handle event) rest → (Phase.checking.ahead i t).Sublist rest →
      event.eventId ∈ (runFrom step start ops).alerts.map (·.eventId) := by
  intro step start
  refine ⟨fun eventId halong => ?_, ?_⟩
  · have hsingle : Single eventId (runFrom step start ops) :=
      Along.inv (I := Single eventId) (fun _ _ h hok => single_step h hok.1 hok.2.1 hok.2.2)
        (single_init capacity positive history) halong
    exact ⟨(Nat.le_add_right _ _).trans hsingle.one, hsingle.row⟩
  · intro before event rest t hops halerts hnew hfirst i hcalm hturns
    have hunknown : Unknown event.eventId (runFrom step start before) := by
      have hstart : Unknown event.eventId start :=
        ⟨hnew, List.not_mem_nil, fun _ hcall => (nomatch hcall), tracked_nil List.nodup_nil⟩
      have hothers : Along step (fun _ op => ∀ earlier, op = .handle earlier → earlier.eventId ≠ event.eventId)
        start before := by
        refine along_iff.mpr fun pre op post hsplit earlier heq => hfirst earlier ?_
        rw [hsplit, heq]
        exact List.mem_append_right _ List.mem_cons_self
      exact Along.inv (I := Unknown event.eventId) (fun _ _ h hok => unknown_step h hok) hstart hothers
    have hserved := Along.inv (I := Served event i) (fun _ _ h hok => served_step h halerts hok)
      (served_handle hunknown) hcalm
    have hrest : Op.restart ∉ rest := by
      intro hmem
      obtain ⟨pre, post, hsplit⟩ := List.append_of_mem hmem
      exact along_iff.mp hcalm pre .restart post hsplit
    have hcalls := calls_handle (runFrom step start before) event
    rw [if_neg hunknown.seen] at hcalls
    have hcall : ((runFrom step start before).handle event).calls[i]? = some ⟨event, .checking, []⟩ := by
      rw [hcalls]
      exact getElem_snoc.mpr (Or.inr ⟨by rw [List.length_map], rfl⟩)
    obtain ⟨call, hover, hphase⟩ : ∃ call, (runFrom step _ rest).calls[i]? = some call ∧ call.phase = .ended :=
      over_of_turns hcall hrest hturns
    obtain ⟨call', hcall', -, -, -, halerted⟩ := hserved.call
    rw [hover] at hcall'
    obtain rfl := Option.some.inj hcall'
    rw [hops, runFrom_append]
    exact halerted hphase

end

/-! ## One event, delivered twice -/

section

/-- The order of the code units. -/
abbrev unitOrder : LinearOrder JsString := LinearOrder.lift' (fun s => s.map UInt16.toNat)
  (List.map_injective_iff.mpr fun _ _ h => UInt16.toNat_inj.mp h)

def samplePlatform : Platform := ⟨id, fun _ => ⟨0, true⟩⟩

def sampleQuestion : AlertEvent :=
  { eventId := js "e", occurredAt := js "t", machine := js "m", project := js "p", directory := js "d"
    sessionId := js "s", sessionTitle := js "T", type := .actionRequired, requestId := some (js "r")
    actionKind := some .question, questions := [], permissionType := none, permissionSummary := none
    providerActionMessage := none, outcome := none, elapsedSeconds := none, summary := none }

def noHistory : SqliteNotificationHistory JsString := ⟨5, by decide, [], List.nodup_nil, 0⟩

def sampleSettings : NotificationSettings := ⟨false, true, js "ding"⟩

/-- The event comes again while the first call for it is under way; the first look throws. -/
def deliveredTwice : List Op :=
  [.handle sampleQuestion, .check 0 true, .handle sampleQuestion, .resume 0 ⟨0, true⟩, .write 0 false, .check 1 false,
    .alert 0 sampleSettings]

theorem delivered_twice_alerts_once :
    letI := unitOrder
    let s := runFrom (AlertRouter.step samplePlatform true) (AlertRouter.init 1 (by decide) noHistory) deliveredTwice
    (s.alerts.countP (·.eventId = js "e") ≤ 1 ∧ s.rows.count (js "e") ≤ 1) ∧ js "e" ∈ s.alerts.map (·.eventId) := by
  obtain ⟨hsafe, hlive⟩ := @no_double_alert unitOrder samplePlatform true 1 (by decide) noHistory deliveredTwice
  refine ⟨hsafe (js "e") (by decide +kernel), ?_⟩
  refine hlive [] sampleQuestion _ ⟨true, ⟨0, true⟩, false, sampleSettings⟩ rfl rfl rfl (fun _ h => (nomatch h))
    (by decide +kernel) ?_
  exact .cons_cons _ (.cons _ (.cons_cons _ (.cons_cons _ (.cons _ (.cons_cons _ .slnil)))))

/-- The event comes again after a restart, and the look for its row throws. -/
def lostRead : List Op :=
  [.handle sampleQuestion, .check 0 false, .resume 0 ⟨0, true⟩, .write 0 false, .alert 0 sampleSettings, .restart,
    .handle sampleQuestion, .check 0 true, .resume 0 ⟨0, true⟩, .write 0 false, .alert 0 sampleSettings]

theorem lost_read_alerts_twice :
    letI := unitOrder
    let s := runFrom (AlertRouter.step samplePlatform true) (AlertRouter.init 1 (by decide) noHistory) lostRead
    s.alerts.countP (·.eventId = js "e") = 2 ∧ s.rows.count (js "e") = 1 := by
  decide +kernel

end

end NotifyHub.Client.Alerts
