/-
  NotifyHub.Client.NotificationRouter — `NotificationRouter.handle`
  (apps/client/lib/notifications/notification_router.dart), with its `EventDeduper`
  (apps/client/lib/realtime/event_deduper.dart), the database of the history, and the texts
  of notification_text.dart.

  A call of `handle` passes the deduper when it is made, and goes on in steps of its own: the
  look into the history, what follows it, the row that is added, the alert. The look and the
  row may throw: the call goes on as if the history did not have the event, or without a row.
  Any steps of other calls come between, and a restart ends them all, with the deduper; the
  history stays. Left out: what takes the place of a database that fails
  (resilient_notification_history.dart), and a notification service that throws.

  - `Tracked`: the deduper holds the id of a call that has not written yet, unless as many
    other ids came since as it holds.

  The order of event ids stands for that of the text column.
-/

import NotifyHub.Client.ActiveSessions
import NotifyHub.Client.History
import NotifyHub.Lib.Rows
import NotifyHub.Lib.Run

namespace NotifyHub.Client.Alerts

/-! ## Texts -/

inductive ActionKind where
  | question
  | permission
  | providerAction
  deriving DecidableEq

inductive TerminalOutcome where
  | completed
  | failed
  | stopped
  deriving DecidableEq

structure QuestionOption where
  label : JsString
  description : Option JsString
  deriving DecidableEq

structure QuestionPrompt where
  text : JsString
  options : List QuestionOption
  multiple : Bool
  deriving DecidableEq

/-- An event, with what its texts are made of. -/
structure AlertEvent extends NotifyEvent where
  actionKind : Option ActionKind
  questions : List QuestionPrompt
  permissionType : Option JsString
  permissionSummary : Option JsString
  providerActionMessage : Option JsString
  outcome : Option TerminalOutcome
  elapsedSeconds : Option Nat
  summary : Option JsString
  deriving DecidableEq

/-- What the package `path` makes of a directory, and the time that an event holds. -/
structure Platform where
  basename : JsString → JsString
  time : JsString → DateTime

variable (P : Platform)

/-- A value in a text; none is `null`. -/
def shownText (value : Option JsString) : JsString := value.getD (js "null")

def join (separator : JsString) (l : List JsString) : JsString := separator.intercalate l

def buildNotificationStatus (event : AlertEvent) : JsString :=
  match event.type with
  | .heartbeat => js "任务进行中"
  | .actionResolved => js "操作已处理"
  | .actionRequired =>
    match event.actionKind with
    | some .question => js "需要回答"
    | some .permission => js "需要授权"
    | some .providerAction => js "需要操作"
    | none => js "需要处理"
  | .terminal =>
    match event.outcome with
    | some .completed => js "任务已完成"
    | some .failed => js "任务失败"
    | some .stopped => js "任务已停止"
    | none => js "任务已结束"

def buildNotificationTitle (event : AlertEvent) : JsString :=
  join (js " · ") [event.machine, P.basename event.directory, event.sessionTitle, buildNotificationStatus event]

def maxQuestionsInBody : Nat := 3

def questionLines (question : QuestionPrompt) : List JsString :=
  question.text :: if question.options = [] then [] else [js "选项：" ++ join (js "、") (question.options.map (·.label))]

def questionBody (questions : List QuestionPrompt) : JsString :=
  let shown := questions.take maxQuestionsInBody
  let remaining := questions.length - shown.length
  join (js "\n")
    (shown.flatMap questionLines ++ if remaining = 0 then [] else [js "还有 " ++ decimal remaining ++ js " 个问题"])

def actionRequiredBody (event : AlertEvent) : JsString :=
  match event.actionKind with
  | some .question => questionBody event.questions
  | some .permission =>
    join (js "\n") ((js "请求权限：" ++ shownText event.permissionType) :: event.permissionSummary.toList)
  | some .providerAction => event.providerActionMessage.getD (js "请在 OpenCode 中完成操作")
  | none => js "请打开 OpenCode 查看详情"

def terminalBody (event : AlertEvent) : JsString :=
  let base := js "用时 " ++ shownText (event.elapsedSeconds.map decimal) ++ js " 秒"
  match event.summary with
  | none => base
  | some summary => base ++ js "\n" ++ summary

def buildNotificationBody (event : AlertEvent) : JsString :=
  match event.type with
  | .actionRequired => actionRequiredBody event
  | .terminal => terminalBody event
  | .heartbeat | .actionResolved => []

def wireName : NotifyEventType → JsString
  | .heartbeat => js "heartbeat"
  | .actionRequired => js "action_required"
  | .actionResolved => js "action_resolved"
  | .terminal => js "terminal"

def buildHistoryEntry (event : AlertEvent) (receivedAt : DateTime) : HistoryEntry JsString where
  eventId := event.eventId
  title := buildNotificationTitle P event
  body := buildNotificationBody event
  receivedAt := receivedAt
  occurredAt := some (P.time event.occurredAt)
  context :=
    { status := some (buildNotificationStatus event), eventType := some (wireName event.type)
      machine := some event.machine, project := some event.project, directory := some event.directory
      directoryName := some (P.basename event.directory), sessionId := some event.sessionId
      sessionTitle := some event.sessionTitle, requestId := event.requestId }

/-! ## The router -/

structure EventDeduper where
  capacity : Nat
  positive : 0 < capacity
  /-- Oldest first. -/
  seen : List JsString

/-- `isDuplicate`, and the deduper after it. -/
def EventDeduper.isDuplicate (d : EventDeduper) (eventId : JsString) : Bool × EventDeduper :=
  if eventId ∈ d.seen then (true, d)
  else (false, { d with seen := (if d.capacity ≤ d.seen.length then d.seen.tail else d.seen) ++ [eventId] })

structure NotificationSettings where
  paused : Bool
  soundEnabled : Bool
  alertSound : JsString
  deriving DecidableEq

/-- An alert; `onClick` is the event that a click opens. -/
structure NotifyRequest where
  eventId : JsString
  title : JsString
  body : JsString
  playSound : Bool
  alertSound : JsString
  onClick : Option AlertEvent
  deriving DecidableEq

/-- How far a call of `handle` is. -/
inductive Phase where
  | checking
  | checked (found : Bool)
  | adding (entry : HistoryEntry JsString)
  /-- The row was added, or adding it threw. -/
  | added
  | ended
  deriving DecidableEq

structure Call where
  event : AlertEvent
  phase : Phase
  /-- Ghost: the other ids that came since, each once. -/
  others : List JsString
  deriving DecidableEq

structure AlertRouter [LinearOrder JsString] where
  sessions : ActiveSessions
  deduper : EventDeduper
  history : SqliteNotificationHistory JsString
  /-- The calls since the app started. -/
  calls : List Call
  /-- The alerts shown so far. -/
  alerts : List NotifyRequest
  /-- The ids of the rows added so far. -/
  rows : List JsString

inductive Op where
  | handle (event : AlertEvent)
  /-- `contains` reads the history, or throws. -/
  | check (i : Nat) (thrown : Bool)
  /-- What follows `contains`, up to the next wait. -/
  | resume (i : Nat) (receivedAt : DateTime)
  /-- The transaction of `add`, or it throws. -/
  | write (i : Nat) (thrown : Bool)
  /-- What follows `add`. -/
  | alert (i : Nat) (settings : NotificationSettings)
  | delete (eventId : JsString)
  | restart

/-- Another id comes while a call is under way. -/
def Call.meet (eventId : JsString) (call : Call) : Call :=
  if eventId = call.event.eventId ∨ eventId ∈ call.others then call
    else { call with others := call.others ++ [eventId] }

/-- `onClick` is set for a question or a permission with a request id, where the app listens. -/
def clickOf (opens : Bool) (event : AlertEvent) : Option AlertEvent :=
  if opens ∧ event.requestId.isSome ∧ (event.actionKind = some .question ∨ event.actionKind = some .permission) then
    some event
  else none

def requestOf (opens : Bool) (settings : NotificationSettings) (event : AlertEvent) : NotifyRequest :=
  ⟨event.eventId, buildNotificationTitle P event, buildNotificationBody event, settings.soundEnabled,
    settings.alertSound,
    clickOf opens event⟩

namespace AlertRouter

variable [LinearOrder JsString] (opens : Bool) (s : AlertRouter)

def setPhase (i : Nat) (phase : Phase) : AlertRouter := { s with calls := s.calls.modify i ({ · with phase }) }

/-- The start of `handle`. -/
def handle (event : AlertEvent) : AlertRouter :=
  let (duplicate, deduper) := s.deduper.isDuplicate event.eventId
  let calls := s.calls.map (·.meet event.eventId)
  { s with deduper, calls := if duplicate then calls else calls ++ [⟨event, .checking, []⟩] }

def check (i : Nat) (thrown : Bool) : AlertRouter :=
  match s.calls[i]? with
  | some ⟨event, .checking, _⟩ => s.setPhase i (.checked (!thrown && s.history.contains event.eventId))
  | _ => s

/-- The switch over the type of the event. -/
def resume (i : Nat) (receivedAt : DateTime) : AlertRouter :=
  match s.calls[i]? with
  | some ⟨_, .checked true, _⟩ => s.setPhase i .ended
  | some ⟨event, .checked false, _⟩ =>
    let s := { s with sessions := s.sessions.apply event.toNotifyEvent }
    match event.type with
    | .actionRequired | .terminal => s.setPhase i (.adding (buildHistoryEntry P event receivedAt))
    | .heartbeat | .actionResolved => s.setPhase i .ended
  | _ => s

def write (i : Nat) (thrown : Bool) : AlertRouter :=
  match s.calls[i]? with
  | some ⟨_, .adding entry, _⟩ =>
    if thrown then s.setPhase i .added
    else
      { s.setPhase i .added with
        history := s.history.add entry
        rows := if s.history.contains entry.eventId then s.rows else s.rows ++ [entry.eventId] }
  | _ => s

def alert (i : Nat) (settings : NotificationSettings) : AlertRouter :=
  match s.calls[i]? with
  | some ⟨event, .added, _⟩ =>
    { s.setPhase i .ended with alerts := if settings.paused then s.alerts
      else s.alerts ++ [requestOf P opens settings event] }
  | _ => s

/-- The app starts again. -/
def restart : AlertRouter := { s with sessions := OMap.empty, deduper := { s.deduper with seen := [] }, calls := [] }

def step : Op → AlertRouter
  | .handle event => s.handle event
  | .check i thrown => s.check i thrown
  | .resume i receivedAt => s.resume P i receivedAt
  | .write i thrown => s.write i thrown
  | .alert i settings => s.alert P opens i settings
  | .delete eventId => { s with history := s.history.remove eventId }
  | .restart => s.restart

/-- A new app, with the history of its predecessors. -/
def init (capacity : Nat) (positive : 0 < capacity) (history : SqliteNotificationHistory JsString) : AlertRouter :=
  ⟨OMap.empty, ⟨capacity, positive, []⟩, history, [], [], []⟩

end AlertRouter

/-! ## The deduper -/

/-- The call has not written, and may. -/
def Phase.waits : Phase → Bool
  | .checking | .checked false | .adding _ => true
  | _ => false

/-- The history did not have the event when the call looked, and the call has not written. -/
def Phase.committed : Phase → Bool
  | .checked false | .adding _ => true
  | _ => false

theorem waits_of_committed {phase : Phase} (h : phase.committed = true) : phase.waits = true := by
  cases phase with
  | checking => rfl
  | checked found =>
    cases found with
    | false => rfl
    | true => cases h
  | adding entry => rfl
  | added => cases h
  | ended => cases h

/-- Fewer other ids came since than the deduper holds. -/
def Call.prompt (capacity : Nat) (call : Call) : Bool := call.others.length < capacity

/-- What the deduper remembers of an id: it holds the id while a call waits for it, unless as many
    other ids came as it holds; a call before another was so overtaken. -/
structure Tracked (eventId : JsString) (d : EventDeduper) (calls : List Call) : Prop where
  unique : d.seen.Nodup
  /-- What was remembered after the id came since the call. -/
  remembered : ∀ (i : Nat) (call : Call), calls[i]? = some call → call.event.eventId = eventId →
    call.phase.waits = true →
    call.prompt d.capacity = true → ∃ before after, d.seen = before ++ eventId :: after ∧ after ⊆ call.others
  first : ∀ (i j : Nat) (a b : Call), i < j → calls[i]? = some a → calls[j]? = some b → a.event.eventId = eventId →
    b.event.eventId = eventId →
    a.phase.waits = true → a.prompt d.capacity = false
  own : ∀ (i : Nat) (call : Call) (entry : HistoryEntry JsString), calls[i]? = some call →
    call.phase = .adding entry → entry.eventId = call.event.eventId

section

variable {eventId : JsString} {d : EventDeduper} {calls : List Call}

theorem meet_event (id : JsString) (call : Call) : (call.meet id).event = call.event := by
  unfold Call.meet
  split <;> rfl

theorem meet_phase (id : JsString) (call : Call) : (call.meet id).phase = call.phase := by
  unfold Call.meet
  split <;> rfl

theorem others_meet (id : JsString) (call : Call) : call.others ⊆ (call.meet id).others := by
  unfold Call.meet
  split
  · exact List.Subset.refl _
  · exact List.subset_append_left _ _

theorem mem_others_meet {id : JsString} {call : Call} (h : id ≠ call.event.eventId) : id ∈ (call.meet id).others := by
  unfold Call.meet
  split
  · rename_i hor
    exact hor.resolve_left h
  · exact List.mem_append_right _ List.mem_cons_self

theorem prompt_of_meet {id : JsString} {call : Call} {capacity : Nat} (h : (call.meet id).prompt capacity = true) :
    call.prompt capacity = true := by
  have hle : call.others.length ≤ (call.meet id).others.length := by
    unfold Call.meet
    split
    · exact Nat.le_refl _
    · rw [List.length_append]
      exact Nat.le_add_right _ _
  unfold Call.prompt at h ⊢
  rw [decide_eq_true_iff] at h ⊢
  exact Nat.lt_of_le_of_lt hle h

theorem isDuplicate_capacity (d : EventDeduper) (id : JsString) : (d.isDuplicate id).2.capacity = d.capacity := by
  unfold EventDeduper.isDuplicate
  split <;> rfl

theorem nodup_isDuplicate (h : d.seen.Nodup) (id : JsString) : (d.isDuplicate id).2.seen.Nodup := by
  unfold EventDeduper.isDuplicate
  split
  · exact h
  · rename_i hid
    have hkept : (if d.capacity ≤ d.seen.length then d.seen.tail else d.seen).Sublist d.seen := by
      split
      · exact List.tail_sublist _
      · exact List.Sublist.refl _
    refine List.nodup_append.mpr ⟨h.sublist hkept, List.nodup_singleton _, ?_⟩
    rintro a ha b hb rfl
    rw [List.mem_singleton.mp hb] at ha
    exact hid (hkept.subset ha)

theorem seen_isDuplicate {id : JsString} (hne : id ≠ eventId) (h : eventId ∉ d.seen) :
    eventId ∉ (d.isDuplicate id).2.seen := by
  unfold EventDeduper.isDuplicate
  split
  · exact h
  · intro hmem
    rcases List.mem_append.mp hmem with hold | hnew
    · refine h ?_
      split at hold
      · exact List.mem_of_mem_tail hold
      · exact hold
    · exact hne (List.mem_singleton.mp hnew).symm

/-- An id stays remembered while fewer other ids come than the deduper holds. -/
theorem remembered_isDuplicate (hnodup : d.seen.Nodup) {id : JsString} {others : List JsString}
    {before after : List JsString} (hseen : d.seen = before ++ eventId :: after) (hafter : after ⊆ others)
    (hid : id ∈ others)
    (hprompt : others.length < d.capacity) :
    ∃ before' after', (d.isDuplicate id).2.seen = before' ++ eventId :: after' ∧ after' ⊆ others := by
  unfold EventDeduper.isDuplicate
  split
  · exact ⟨before, after, hseen, hafter⟩
  · rename_i hnew
    dsimp only
    have hafter' : after ++ [id] ⊆ others := List.append_subset.mpr ⟨hafter, fun a ha => List.mem_singleton.mp ha ▸ hid⟩
    by_cases hfull : d.capacity ≤ d.seen.length
    · rw [if_pos hfull]
      cases before with
      | nil =>
        -- it would be the oldest of a full deduper: all the others came since
        rw [List.nil_append] at hseen
        rw [hseen] at hnodup hnew hfull
        rw [List.nodup_cons] at hnodup
        have hall : (id :: after).Nodup := List.nodup_cons.mpr ⟨fun h => hnew (List.mem_cons_of_mem _ h), hnodup.2⟩
        have hsub : id :: after ⊆ others := List.cons_subset.mpr ⟨hid, hafter⟩
        have hle := (List.subperm_of_subset hall hsub).length_le
        rw [List.length_cons] at hle hfull
        omega
      | cons b before =>
        refine ⟨before, after ++ [id], ?_, hafter'⟩
        rw [hseen]
        simp
    · rw [if_neg hfull]
      refine ⟨before, after ++ [id], ?_, hafter'⟩
      rw [hseen]
      simp

theorem tracked_nil (hunique : d.seen.Nodup) : Tracked eventId d [] :=
  ⟨hunique, fun _ _ hi => (nomatch hi), fun _ _ _ _ _ hi => (nomatch hi), fun _ _ _ hi => (nomatch hi)⟩

/-- A call that waits is not for an id that the deduper does not know. -/
theorem Tracked.overtaken (h : Tracked eventId d calls) (hunseen : eventId ∉ d.seen) {i : Nat}
    {call : Call} (hi : calls[i]? = some call)
    (hid : call.event.eventId = eventId) (hwaits : call.phase.waits = true) : call.prompt d.capacity = false := by
  rw [← Bool.not_eq_true]
  intro hprompt
  obtain ⟨before, after, hseen, -⟩ := h.remembered i call hi hid hwaits hprompt
  exact hunseen (hseen ▸ List.mem_append_right _ List.mem_cons_self)

/-- The ids go on being tracked when a call goes on. -/
theorem Tracked.setPhase (h : Tracked eventId d calls) {i : Nat} {phase : Phase}
    (hwaits : ∀ call, calls[i]? = some call → phase.waits = true → call.phase.waits = true)
    (hown : ∀ call entry, calls[i]? = some call → phase = .adding entry → entry.eventId = call.event.eventId) :
    Tracked eventId d (calls.modify i ({ · with phase })) := by
  have back : ∀ (j : Nat) (call' : Call), (calls.modify i ({ · with phase }))[j]? = some call' →
    ∃ call : Call, calls[j]? = some call ∧
      call'.event = call.event ∧ call'.others = call.others ∧ (call'.phase.waits = true → call.phase.waits = true) ∧
      ∀ entry, call'.phase = .adding entry → entry.eventId = call.event.eventId := by
    intro j call' hj
    obtain ⟨call, hcall, hcall'⟩ := modified_iff.mp hj
    refine ⟨call, hcall, ?_⟩
    by_cases hij : i = j
    · rw [if_pos hij] at hcall'
      subst hcall'
      subst hij
      exact ⟨rfl, rfl, hwaits call hcall, fun entry => hown call entry hcall⟩
    · rw [if_neg hij] at hcall'
      subst hcall'
      exact ⟨rfl, rfl, id, fun entry => h.own j call entry hcall⟩
  refine ⟨h.unique, fun j call' hj hid hw hp => ?_, fun j k a' b' hjk hj hk ha hb hw => ?_,
    fun j call' entry hj hphase => ?_⟩
  · obtain ⟨call, hcall, hevent, hothers, hback, -⟩ := back j call' hj
    rw [Call.prompt, hothers] at hp
    obtain ⟨before, after, hseen, hafter⟩ := h.remembered j call hcall (hevent ▸ hid) (hback hw) hp
    exact ⟨before, after, hseen, hothers ▸ hafter⟩
  · obtain ⟨a, haj, hevent, hothers, hback, -⟩ := back j a' hj
    obtain ⟨b, hbk, hevent', -⟩ := back k b' hk
    rw [Call.prompt, hothers]
    exact h.first j k a b hjk haj hbk (hevent ▸ ha) (hevent' ▸ hb) (hback hw)
  · obtain ⟨call, -, hevent, -, -, hentry⟩ := back j call' hj
    rw [hevent]
    exact hentry entry hphase

/-- An id comes while calls are under way. -/
theorem Tracked.meet (h : Tracked eventId d calls) (id : JsString) :
    Tracked eventId (d.isDuplicate id).2 (calls.map (·.meet id)) := by
  have hcapacity := isDuplicate_capacity d id
  have back : ∀ (i : Nat) (call' : Call), (calls.map (·.meet id))[i]? = some call' →
      ∃ call, calls[i]? = some call ∧ call.meet id = call' := by
    intro i call' hi
    rw [List.getElem?_map] at hi
    exact Option.map_eq_some_iff.mp hi
  refine ⟨nodup_isDuplicate h.unique id, fun i call' hi hid hw hp => ?_, fun i j a' b' hij hi hj ha hb hw => ?_,
    fun i call' entry hi hphase => ?_⟩
  · obtain ⟨call, hcall, rfl⟩ := back i call' hi
    rw [meet_event] at hid
    rw [meet_phase] at hw
    rw [hcapacity] at hp
    obtain ⟨before, after, hseen, hafter⟩ := h.remembered i call hcall hid hw (prompt_of_meet hp)
    have hafter' := List.Subset.trans hafter (others_meet id call)
    by_cases hsame : id = eventId
    · have hmem : id ∈ d.seen := hseen ▸ List.mem_append_right _ (hsame ▸ List.mem_cons_self)
      refine ⟨before, after, ?_, hafter'⟩
      rw [EventDeduper.isDuplicate, if_pos hmem]
      exact hseen
    · have hother : id ≠ call.event.eventId := fun heq => hsame (heq.trans hid)
      exact remembered_isDuplicate h.unique hseen hafter' (mem_others_meet hother) (of_decide_eq_true hp)
  · obtain ⟨a, hai, rfl⟩ := back i a' hi
    obtain ⟨b, hbj, rfl⟩ := back j b' hj
    rw [meet_event] at ha hb
    rw [meet_phase] at hw
    rw [hcapacity, ← Bool.not_eq_true]
    intro hp
    have hold := h.first i j a b hij hai hbj ha hb hw
    rw [prompt_of_meet hp] at hold
    cases hold
  · obtain ⟨call, hcall, rfl⟩ := back i call' hi
    rw [meet_phase] at hphase
    rw [meet_event]
    exact h.own i call entry hcall hphase

/-- A call is made for an id that was just remembered, and no call that waits for it is prompt. -/
theorem Tracked.snoc (h : Tracked eventId d calls) {event : AlertEvent}
    (hlast : event.eventId = eventId → ∃ before, d.seen = before ++ [eventId])
    (hover : event.eventId = eventId → ∀ (i : Nat) (a : Call), calls[i]? = some a → a.event.eventId = eventId →
      a.phase.waits = true → a.prompt d.capacity = false) :
    Tracked eventId d (calls ++ [⟨event, .checking, []⟩]) := by
  refine ⟨h.unique, fun i call hi hid hw hp => ?_, fun i j a b hij hi hj ha hb hw => ?_,
    fun i call entry hi hphase => ?_⟩
  · rcases getElem_snoc.mp hi with hi | ⟨-, rfl⟩
    · exact h.remembered i call hi hid hw hp
    · obtain ⟨before, hseen⟩ := hlast hid
      exact ⟨before, [], hseen, List.nil_subset _⟩
  · rcases getElem_snoc.mp hi with hi | ⟨rfl, -⟩
    · rcases getElem_snoc.mp hj with hj | ⟨-, rfl⟩
      · exact h.first i j a b hij hi hj ha hb hw
      · exact hover hb i a hi ha hw
    · have hlt := (List.getElem?_eq_some_iff.mp hj).1
      rw [List.length_append, List.length_singleton] at hlt
      omega
  · rcases getElem_snoc.mp hi with hi | ⟨-, rfl⟩
    · exact h.own i call entry hi hphase
    · cases hphase

theorem Tracked.handle (h : Tracked eventId d calls) (event : AlertEvent) :
    Tracked eventId (d.isDuplicate event.eventId).2
      (if (d.isDuplicate event.eventId).1 then calls.map (·.meet event.eventId)
        else calls.map (·.meet event.eventId) ++ [⟨event, .checking, []⟩]) := by
  have hmet := h.meet event.eventId
  by_cases hdup : event.eventId ∈ d.seen
  · rwa [if_pos (by rw [EventDeduper.isDuplicate, if_pos hdup])]
  · rw [if_neg (by rw [EventDeduper.isDuplicate, if_neg hdup]; exact Bool.false_ne_true)]
    refine hmet.snoc (fun hid => ?_) fun hid i a' hi ha hw => ?_
    · refine ⟨if d.capacity ≤ d.seen.length then d.seen.tail else d.seen, ?_⟩
      rw [EventDeduper.isDuplicate, if_neg hdup, hid]
    · rw [List.getElem?_map] at hi
      obtain ⟨a, hai, rfl⟩ := Option.map_eq_some_iff.mp hi
      rw [meet_event] at ha
      rw [meet_phase] at hw
      rw [isDuplicate_capacity, ← Bool.not_eq_true]
      intro hp
      have hover := h.overtaken (hid ▸ hdup) hai ha hw
      rw [prompt_of_meet hp] at hover
      cases hover

end

/-! ## What a step does -/

section

variable {ι : Type} [LinearOrder ι]

theorem contains_add {h : SqliteNotificationHistory ι} {entry : HistoryEntry ι} {eventId : ι}
    (hin : (h.add entry).contains eventId = true) : h.contains eventId = true ∨ entry.eventId = eventId := by
  by_cases hnew : h.contains (toCompanion entry).eventId = true
  · rw [Histories.add_held hnew] at hin
    exact Or.inl hin
  · have hrows : ∃ row ∈ toCompanion entry :: h.rows, row.eventId = eventId := by
      rw [Histories.add_new hnew] at hin
      obtain ⟨row, hrow, hid⟩ : ∃ row ∈ (h.insert (toCompanion entry) hnew).deletePastCapacity.rows,
        row.eventId = eventId := by
        split at hin
        · simpa [SqliteNotificationHistory.contains] using hin
        · simpa [SqliteNotificationHistory.contains] using hin
      exact ⟨row, (List.mem_filter.mp hrow).1, hid⟩
    obtain ⟨row, hrow, hid⟩ := hrows
    rcases List.mem_cons.mp hrow with rfl | hrow
    · exact Or.inr hid
    · exact Or.inl (List.any_eq_true.mpr ⟨row, hrow, decide_eq_true hid⟩)

theorem contains_remove {h : SqliteNotificationHistory ι} {id eventId : ι}
    (hin : (h.remove id).contains eventId = true) : h.contains eventId = true := by
  obtain ⟨row, hrow, hid⟩ := List.any_eq_true.mp hin
  exact List.any_eq_true.mpr ⟨row, List.mem_of_mem_filter hrow, hid⟩

end

section

variable [LinearOrder JsString] {P : Platform} {opens : Bool} {s : AlertRouter}

/-- The event shows an alert. -/
def alerts (event : AlertEvent) : Bool := event.type = .actionRequired ∨ event.type = .terminal

/-- The calls after a new one: those before met its id, and it is made unless the deduper holds the id. -/
theorem calls_handle (s : AlertRouter) (event : AlertEvent) : (s.handle event).calls =
    if event.eventId ∈ s.deduper.seen then s.calls.map (·.meet event.eventId)
    else s.calls.map (·.meet event.eventId) ++ [⟨event, .checking, []⟩] := by
  unfold AlertRouter.handle EventDeduper.isDuplicate
  by_cases hseen : event.eventId ∈ s.deduper.seen
  · rw [if_pos hseen, if_pos hseen]
    rfl
  · rw [if_neg hseen, if_neg hseen]
    rfl

theorem handle_cases {event : AlertEvent} {i : Nat} {call' : Call} (h : (s.handle event).calls[i]? = some call') :
    (∃ call, s.calls[i]? = some call ∧ call.meet event.eventId = call') ∨ i = s.calls.length ∧
      call' = ⟨event, .checking, []⟩ := by
  have hold : ∀ c', (s.calls.map (·.meet event.eventId))[i]? = some c' → ∃ call, s.calls[i]? = some call ∧
    call.meet event.eventId = c' := by
    intro c' hc
    rw [List.getElem?_map] at hc
    exact Option.map_eq_some_iff.mp hc
  rw [calls_handle] at h
  split at h
  · exact Or.inl (hold call' h)
  · rcases getElem_snoc.mp h with h | ⟨hi, rfl⟩
    · exact Or.inl (hold call' h)
    · rw [List.length_map] at hi
      exact Or.inr ⟨hi, rfl⟩

variable {i : Nat} {event : AlertEvent} {others : List JsString}

theorem check_at (h : s.calls[i]? = some ⟨event, .checking, others⟩) (thrown : Bool) :
    s.check i thrown = s.setPhase i (.checked (!thrown && s.history.contains event.eventId)) := by
  rw [AlertRouter.check, h]

theorem check_cases (s : AlertRouter) (i : Nat) (thrown : Bool) : s.check i thrown = s ∨
    ∃ event others, s.calls[i]? = some ⟨event, .checking, others⟩ ∧
      s.check i thrown = s.setPhase i (.checked (!thrown && s.history.contains event.eventId)) := by
  unfold AlertRouter.check
  split
  · rename_i event others hcall
    exact Or.inr ⟨event, others, hcall, rfl⟩
  · exact Or.inl rfl

theorem resume_at {found : Bool} (h : s.calls[i]? = some ⟨event, .checked found, others⟩) (receivedAt : DateTime) :
    ∃ sessions, s.resume P i receivedAt =
      { s.setPhase i
          (if found = false ∧ alerts event = true then .adding (buildHistoryEntry P event receivedAt) else .ended) with
        sessions } := by
  cases found with
  | true => exact ⟨s.sessions, by rw [AlertRouter.resume, h]; rfl⟩
  | false =>
    refine ⟨s.sessions.apply event.toNotifyEvent, ?_⟩
    rw [AlertRouter.resume, h]
    cases htype : event.type with
    | heartbeat => simp [alerts, htype, AlertRouter.setPhase]
    | actionResolved => simp [alerts, htype, AlertRouter.setPhase]
    | actionRequired => simp [alerts, htype, AlertRouter.setPhase]
    | terminal => simp [alerts, htype, AlertRouter.setPhase]

theorem resume_cases (P : Platform) (s : AlertRouter) (i : Nat) (receivedAt : DateTime) : s.resume P i receivedAt = s ∨
    ∃ event found others sessions, s.calls[i]? = some ⟨event, .checked found, others⟩ ∧ s.resume P i receivedAt =
      { s.setPhase i
          (if found = false ∧ alerts event = true then .adding (buildHistoryEntry P event receivedAt) else .ended) with
        sessions } := by
  by_cases hcall : ∃ event found others, s.calls[i]? = some ⟨event, .checked found, others⟩
  · obtain ⟨event, found, others, hcall⟩ := hcall
    obtain ⟨sessions, hresume⟩ := resume_at hcall receivedAt
    exact Or.inr ⟨event, found, others, sessions, hcall, hresume⟩
  · refine Or.inl ?_
    unfold AlertRouter.resume
    split
    · rename_i event others h
      exact absurd ⟨event, true, others, h⟩ hcall
    · rename_i event others h
      exact absurd ⟨event, false, others, h⟩ hcall
    · rfl

/-- A step of a call that writes leaves it added, with or without its row. -/
theorem write_calls {entry : HistoryEntry JsString} (h : s.calls[i]? = some ⟨event, .adding entry, others⟩)
    (thrown : Bool) :
    (s.write i thrown).calls = (s.setPhase i .added).calls := by
  rw [AlertRouter.write, h]
  dsimp only
  split <;> rfl

theorem write_cases (s : AlertRouter) (i : Nat) (thrown : Bool) : s.write i thrown = s ∨
    (∃ event entry others, s.calls[i]? = some ⟨event, .adding entry, others⟩ ∧ thrown = true ∧
      s.write i thrown = s.setPhase i .added) ∨
    ∃ event entry others, s.calls[i]? = some ⟨event, .adding entry, others⟩ ∧ thrown = false ∧
      s.write i thrown = { s.setPhase i .added with
        history := s.history.add entry
        rows := if s.history.contains entry.eventId then s.rows else s.rows ++ [entry.eventId] } := by
  unfold AlertRouter.write
  split
  · rename_i event entry others hcall
    cases thrown with
    | true => exact Or.inr (Or.inl ⟨event, entry, others, hcall, rfl, rfl⟩)
    | false => exact Or.inr (Or.inr ⟨event, entry, others, hcall, rfl, rfl⟩)
  · exact Or.inl rfl

theorem alert_at (h : s.calls[i]? = some ⟨event, .added, others⟩) (settings : NotificationSettings) :
    s.alert P opens i settings =
      { s.setPhase i .ended with alerts := if settings.paused then s.alerts
        else s.alerts ++ [requestOf P opens settings event] } := by
  rw [AlertRouter.alert, h]

theorem alert_cases (P : Platform) (opens : Bool) (s : AlertRouter) (i : Nat) (settings : NotificationSettings) :
    s.alert P opens i settings = s ∨ ∃ event others, s.calls[i]? = some ⟨event, .added, others⟩ ∧
      s.alert P opens i settings =
      { s.setPhase i .ended with alerts := if settings.paused then s.alerts
        else s.alerts ++ [requestOf P opens settings event] } := by
  unfold AlertRouter.alert
  split
  · rename_i event others hcall
    exact Or.inr ⟨event, others, hcall, rfl⟩
  · exact Or.inl rfl

/-- Every step keeps the ids tracked. -/
theorem tracked_step {eventId : JsString} (h : Tracked eventId s.deduper s.calls) (op : Op) :
    Tracked eventId (s.step P opens op).deduper (s.step P opens op).calls := by
  cases op with
  | handle event => exact h.handle event
  | check i thrown =>
    change Tracked eventId (s.check i thrown).deduper (s.check i thrown).calls
    rcases check_cases s i thrown with heq | ⟨event, others, hcall, heq⟩
    · rwa [heq]
    · rw [heq]
      refine h.setPhase (fun call hi _ => ?_) (fun _ _ _ hphase => (nomatch hphase))
      rw [hcall] at hi
      obtain rfl := Option.some.inj hi
      rfl
  | resume i receivedAt =>
    change Tracked eventId (s.resume P i receivedAt).deduper (s.resume P i receivedAt).calls
    rcases resume_cases P s i receivedAt with heq | ⟨event, found, others, sessions, hcall, heq⟩
    · rwa [heq]
    · rw [heq]
      refine h.setPhase (fun call hi hw => ?_) (fun call entry hi hphase => ?_)
      · rw [hcall] at hi
        obtain rfl := Option.some.inj hi
        cases found with
        | false => rfl
        | true => exact hw
      · rw [hcall] at hi
        obtain rfl := Option.some.inj hi
        split at hphase
        · cases hphase
          rfl
        · cases hphase
  | write i thrown =>
    change Tracked eventId (s.write i thrown).deduper (s.write i thrown).calls
    rcases write_cases s i thrown with
      heq | ⟨event, entry, others, hcall, -, heq⟩ | ⟨event, entry, others, hcall, -, heq⟩
    · rwa [heq]
    · rw [heq]
      exact h.setPhase (fun _ _ hw => (nomatch hw)) (fun _ _ _ hphase => (nomatch hphase))
    · rw [heq]
      exact h.setPhase (fun _ _ hw => (nomatch hw)) (fun _ _ _ hphase => (nomatch hphase))
  | alert i settings =>
    change Tracked eventId (s.alert P opens i settings).deduper (s.alert P opens i settings).calls
    rcases alert_cases P opens s i settings with heq | ⟨event, others, hcall, heq⟩
    · rwa [heq]
    · rw [heq]
      exact h.setPhase (fun _ _ hw => (nomatch hw)) (fun _ _ _ hphase => (nomatch hphase))
  | delete id => exact h
  | restart => exact tracked_nil List.nodup_nil

end

end NotifyHub.Client.Alerts
