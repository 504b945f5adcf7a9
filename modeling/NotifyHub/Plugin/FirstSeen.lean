/-
  NotifyHub.Plugin.FirstSeen — the times of pending requests, over polls that overlap
  (`PendingAdapter.list`, packages/plugin/src/pending-adapter.ts).

  A poll has two calls, one for each kind of request. OpenCode answers a call when it
  takes the list (`takes`); the poll goes on at any time after both were answered, or one
  rejected, whether the channel still waits for it or not (`completes`).

  - `first_seen_is_kept`: in the runs in which a poll that misses a remembered request
    took its list after that request was first seen (`InTime`), a request that every list
    since contains has one time in every snapshot, the clock of the poll that reported it
    first; one that comes back gets the clock of the poll that reported it again.
  - `late_poll_forgets`: a poll with an older list completes after a newer one, and the
    request gets a new time though it never left.
-/

import NotifyHub.Lib.Rows
import NotifyHub.Lib.Run
import NotifyHub.Plugin.PendingAdapter

namespace NotifyHub.Plugin

open Control

structure TakenList where
  call : ListCall
  /-- Ghost: when it was taken. -/
  takenAt : Nat

structure PendingPoll where
  source : PendingSource
  question : TakenList
  permission : TakenList
  completed : Bool

structure PendingPolls where
  firstObserved : OMap JsString JsString
  polls : List PendingPoll
  /-- Ghost: how many events there were. -/
  time : Nat
  /-- Ghost: when a remembered request was first seen. -/
  since : JsString → Option Nat
  /-- Ghost: what the polls that read both lists returned. -/
  snapshots : List (List PendingInteraction)

inductive PendingPollEvent where
  | issue (source : PendingSource)
  | takes (poll : Nat) (kind : CommandKind) (call : ListCall)
  | completes (poll : Nat) (titles : JsString → Option JsString) (nowIso : JsString)

/-! ## Requests -/

def pendingKey (kind : CommandKind) (id : JsString) : JsString :=
  (match kind with | .question => js "question:" | .permission => js "permission:") ++ id

/-- The id of the request that the adapter reads from an entry of a list. -/
def requestOf (kind : CommandKind) (raw : Json) : Option JsString :=
  match kind with
  | .question => (mapQuestion (fun _ => none) ⟨[], [], [], []⟩ raw).map (·.requestId)
  | .permission => (mapPermission (fun _ => none) ⟨[], [], [], []⟩ raw).map (·.requestId)

/-- The list, if it is one, contains the request. -/
def HoldsRequest (kind : CommandKind) (call : ListCall) (id : JsString) : Prop :=
  ∀ raws, call.payload = some raws → ∃ raw ∈ raws, requestOf kind raw = some id

theorem pendingKey_inj {kind kind' : CommandKind} {id id' : JsString} (h : pendingKey kind id = pendingKey kind' id') :
    kind = kind' ∧ id = id' := by
  cases kind with
  | question =>
    cases kind' with
    | question => exact ⟨rfl, List.append_cancel_left h⟩
    | permission => exact absurd (List.cons.inj h).1 (by decide)
  | permission =>
    cases kind' with
    | question => exact absurd (List.cons.inj h).1 (by decide)
    | permission => exact ⟨rfl, List.append_cancel_left h⟩

theorem stampKey_eq {i : PendingInteraction} {kind : CommandKind} {id : JsString} :
    stampKey i = pendingKey kind id ↔ i.kind = kind ∧ i.requestId = id :=
  ⟨pendingKey_inj, fun ⟨hkind, hid⟩ => by rw [← hkind, ← hid]; rfl⟩

/-- Neither the titles nor the source matter for what is asked. -/
theorem mapQuestion_key (titles : JsString → Option JsString) (source : PendingSource) (raw : Json) :
    (mapQuestion titles source raw).map stampKey = (requestOf .question raw).map (pendingKey .question) := by
  simp only [requestOf, mapQuestion, Option.bind_eq_bind]
  cases raw.record? with
  | none => rfl
  | some ms =>
    simp only [Option.bind_some]
    cases asNonEmptyString (member ms "id") with
    | none => rfl
    | some id =>
      cases asNonEmptyString (member ms "sessionID") with
      | none => rfl
      | some sessionID =>
        cases (member ms "questions").bind Json.arr? with
        | none => rfl
        | some questions =>
          simp only [Option.bind_some]
          split <;> rfl

theorem mapPermission_key (titles : JsString → Option JsString) (source : PendingSource) (raw : Json) :
    (mapPermission titles source raw).map stampKey = (requestOf .permission raw).map (pendingKey .permission) := by
  simp only [requestOf, mapPermission, Option.bind_eq_bind]
  cases raw.record? with
  | none => rfl
  | some ms =>
    simp only [Option.bind_some]
    cases asNonEmptyString (member ms "id") with
    | none => rfl
    | some id =>
      cases asNonEmptyString (member ms "sessionID") with
      | none => rfl
      | some sessionID =>
        cases asNonEmptyString (member ms "action") with
        | none => rfl
        | some permission =>
          cases (member ms "resources").bind Json.arr? with
          | none => rfl
          | some resources => rfl

theorem map_stampKey (titles : JsString → Option JsString) (source : PendingSource) (qs ps : List Json) :
    (interactions titles source qs ps).map stampKey =
      (qs.filterMap (requestOf .question)).map (pendingKey .question) ++ (ps.filterMap (requestOf .permission)).map
        (pendingKey .permission) := by
  simp only [interactions, List.map_append, List.map_filterMap, mapQuestion_key, mapPermission_key]

/-- What a poll reports is what its lists hold. -/
theorem mem_interactions {titles : JsString → Option JsString} {source : PendingSource} {qs ps : List Json}
    {kind : CommandKind}
    {id : JsString} : pendingKey kind id ∈ (interactions titles source qs ps).map stampKey ↔
      ∃ raw ∈ (match kind with | .question => qs | .permission => ps), requestOf kind raw = some id := by
  rw [map_stampKey, List.mem_append, List.mem_map, List.mem_map]
  cases kind with
  | question =>
    constructor
    · rintro (⟨id', hid, hkey⟩ | ⟨id', hid, hkey⟩)
      · rw [← (pendingKey_inj hkey).2]
        exact List.mem_filterMap.mp hid
      · exact nomatch (pendingKey_inj hkey).1
    · exact fun h => Or.inl ⟨id, List.mem_filterMap.mpr h, rfl⟩
  | permission =>
    constructor
    · rintro (⟨id', hid, hkey⟩ | ⟨id', hid, hkey⟩)
      · exact nomatch (pendingKey_inj hkey).1
      · rw [← (pendingKey_inj hkey).2]
        exact List.mem_filterMap.mp hid
    · exact fun h => Or.inr ⟨id, List.mem_filterMap.mpr h, rfl⟩

/-! ## The times -/

theorem stampEach_get (nowIso : JsString) (l : List PendingInteraction) (m : OMap JsString JsString) (key : JsString) :
    (stampEach nowIso m l).1.get key = (m.get key).or (if key ∈ l.map stampKey then some nowIso else none) := by
  induction l generalizing m with
  | nil => simp [stampEach]
  | cons i l ih =>
    rw [stampEach, ih]
    cases hi : m.get (stampKey i) with
    | some t =>
      by_cases hk : key = stampKey i
      · subst hk
        simp [hi]
      · simp [hk]
    | none =>
      by_cases hk : key = stampKey i
      · subst hk
        simp [hi]
      · simp [hk, OMap.get_set_ne _ _ hk]

theorem stampEach_time {nowIso : JsString} {l : List PendingInteraction} {m : OMap JsString JsString}
    {i : PendingInteraction}
    (hi : i ∈ (stampEach nowIso m l).2) : i.occurredAt = (m.get (stampKey i)).getD nowIso := by
  induction l generalizing m with
  | nil => cases hi
  | cons j l ih =>
    rw [stampEach] at hi
    rcases List.mem_cons.mp hi with rfl | hi
    · rfl
    · rw [ih hi]
      cases hj : m.get (stampKey j) with
      | some t => simp
      | none =>
        by_cases hk : stampKey i = stampKey j
        · simp [hk, hj]
        · simp [OMap.get_set_ne _ _ hk]

theorem stampEach_keys (nowIso : JsString) (l : List PendingInteraction) :
    ∀ m, (stampEach nowIso m l).2.map stampKey = l.map stampKey := by
  induction l with
  | nil => exact fun _ => rfl
  | cons i l ih =>
    intro m
    rw [stampEach, List.map_cons, List.map_cons, ih]
    rfl

theorem stampOccurredAt_get (nowIso : JsString) (l : List PendingInteraction) (m : OMap JsString JsString)
    (key : JsString) :
    (stampOccurredAt nowIso m l).1.get key = if key ∈ l.map stampKey then some ((m.get key).getD nowIso) else none := by
  rw [stampOccurredAt, OMap.get_filter, stampEach_get]
  by_cases hk : key ∈ l.map stampKey
  · cases hm : m.get key with
    | none => simp [hk]
    | some t => simp [hk]
  · cases hm : m.get key with
    | none => simp [hk]
    | some t => simp [hk]

/-! ## Steps -/

/-- A call is answered once. -/
def TakenList.answer (l : TakenList) (time : Nat) (call : ListCall) : TakenList :=
  match l.call with
  | .waiting => ⟨call, time⟩
  | _ => l

def PendingPoll.taken (p : PendingPoll) : CommandKind → TakenList
  | .question => p.question
  | .permission => p.permission

def PendingPoll.take (p : PendingPoll) (time : Nat) (kind : CommandKind) (call : ListCall) : PendingPoll :=
  match kind with
  | .question => { p with question := p.question.answer time call }
  | .permission => { p with permission := p.permission.answer time call }

namespace PendingPolls

def init : PendingPolls := ⟨.empty, [], 0, fun _ => none, []⟩

/-- Ghost: the poll read both lists, and this is what it returns. -/
def note (s : PendingPolls) (l : List PendingInteraction) : PendingPolls :=
  { s with
    since := fun key => if key ∈ l.map stampKey then some ((s.since key).getD s.time) else none
    snapshots := s.snapshots ++ [l] }

/-- `list` goes on once its two calls have settled. -/
def goesOn (s : PendingPolls) (p : Nat) (poll : PendingPoll) (titles : JsString → Option JsString)
    (nowIso : JsString) : PendingPolls :=
  match list titles poll.source nowIso s.firstObserved poll.question.call poll.permission.call with
  | some (firstObserved, l) =>
    let s := { s with firstObserved, polls := s.polls.set p { poll with completed := true } }
    match poll.question.call.payload, poll.permission.call.payload with
    | some _, some _ => s.note l
    | _, _ => s
  | none => s

def event (s : PendingPolls) : PendingPollEvent → PendingPolls
  | .issue source => { s with polls := s.polls ++ [⟨source, ⟨.waiting, 0⟩, ⟨.waiting, 0⟩, false⟩] }
  | .takes p kind call => { s with polls := s.polls.modify p fun poll => poll.take s.time kind call }
  | .completes p titles nowIso =>
    match s.polls[p]? with
    | some poll => if poll.completed then s else s.goesOn p poll titles nowIso
    | none => s

def step (s : PendingPolls) (e : PendingPollEvent) : PendingPolls := { s.event e with time := s.time + 1 }

abbrev run (es : List PendingPollEvent) : PendingPolls := runFrom step init es

/-- A poll that misses a remembered request took its list after that request was first seen. -/
def InTime (s : PendingPolls) : PendingPollEvent → Prop
  | .completes p _ _ => ∀ (poll : PendingPoll) (kind : CommandKind) (id : JsString) (t : Nat), s.polls[p]? = some poll →
      poll.completed = false → poll.question.call.payload ≠ none → poll.permission.call.payload ≠ none →
      s.since (pendingKey kind id) = some t → ¬ HoldsRequest kind (poll.taken kind).call id →
        t < (poll.taken kind).takenAt
  | _ => True

/-- The last poll that read both lists reported the request. -/
def Reported (s : PendingPolls) (key : JsString) : Prop := ∃ l, s.snapshots.getLast? = some l ∧ key ∈ l.map stampKey

/-! ## What a poll does -/

variable {s : PendingPolls}

/-- What the poll returns, where it read both lists. -/
def reads (s : PendingPolls) (p : Nat) (poll : PendingPoll) (nowIso : JsString) (l : List PendingInteraction) :
    PendingPolls :=
  ({ s with
    firstObserved := (stampOccurredAt nowIso s.firstObserved l).1
    polls := s.polls.set p { poll with completed := true } } : PendingPolls).note
      (stampOccurredAt nowIso s.firstObserved l).2

/-- What `list` returns is read from both lists, or the times are left alone. -/
theorem list_result {titles : JsString → Option JsString} {source : PendingSource} {nowIso : JsString}
    {firstObserved firstObserved' : OMap JsString JsString} {question permission : ListCall}
    {l : List PendingInteraction}
    (h : list titles source nowIso firstObserved question permission = some (firstObserved', l)) :
    (∃ qs ps, question.payload = some qs ∧ permission.payload = some ps ∧
      stampOccurredAt nowIso firstObserved (interactions titles source qs ps) = (firstObserved', l)) ∨
    ((question.payload = none ∨ permission.payload = none) ∧ firstObserved' = firstObserved) := by
  unfold list at h
  split at h
  · cases h; exact Or.inr ⟨Or.inl rfl, rfl⟩
  · cases h; exact Or.inr ⟨Or.inr rfl, rfl⟩
  · rename_i q p
    split at h
    · rename_i qs ps hq hp
      exact Or.inl ⟨qs, ps, hq, hp, Option.some.inj h⟩
    · rename_i hnone
      cases h
      refine Or.inr ⟨?_, rfl⟩
      cases hq : listPayload q with
      | none => exact Or.inl hq
      | some qs =>
        cases hp : listPayload p with
        | none => exact Or.inr hp
        | some ps => exact absurd hp (hnone qs ps hq)
  · cases h

/-- A poll reads both lists, or changes nothing but itself. -/
theorem goesOn_cases (s : PendingPolls) (p : Nat) (poll : PendingPoll) (titles : JsString → Option JsString)
    (nowIso : JsString) :
    (∃ qs ps, poll.question.call.payload = some qs ∧ poll.permission.call.payload = some ps ∧
      s.goesOn p poll titles nowIso = s.reads p poll nowIso (interactions titles poll.source qs ps)) ∨
    s.goesOn p poll titles nowIso = s ∨
    s.goesOn p poll titles nowIso = { s with polls := s.polls.set p { poll with completed := true } } := by
  unfold goesOn
  cases hl : list titles poll.source nowIso s.firstObserved poll.question.call poll.permission.call with
  | none => exact Or.inr (Or.inl rfl)
  | some result =>
    obtain ⟨firstObserved, l⟩ := result
    rcases list_result hl with ⟨qs, ps, hq, hp, hresult⟩ | ⟨hfail, rfl⟩
    · refine Or.inl ⟨qs, ps, hq, hp, ?_⟩
      rw [hq, hp, reads, ← hresult]
    · refine Or.inr (Or.inr ?_)
      dsimp only
      split
      · rename_i qs ps hq hp
        rcases hfail with hfail | hfail
        · rw [hfail] at hq
          cases hq
        · rw [hfail] at hp
          cases hp
      · rfl

structure Tidy (s : PendingPolls) : Prop where
  remembered : ∀ key, (∃ t, s.firstObserved.get key = some t) ↔ s.Reported key
  since : ∀ key, (∃ t, s.since key = some t) ↔ s.Reported key
  takenAt : ∀ poll ∈ s.polls, ∀ kind, (poll.taken kind).takenAt ≤ s.time

theorem reported_note (s : PendingPolls) (l : List PendingInteraction) (key : JsString) :
    (s.note l).Reported key ↔ key ∈ l.map stampKey := by
  simp [Reported, note]

theorem reads_keys (nowIso : JsString) (m : OMap JsString JsString) (l : List PendingInteraction) :
    (stampOccurredAt nowIso m l).2.map stampKey = l.map stampKey := stampEach_keys nowIso l m

/-- The polls after a step have the lists they had, but for the one that is answered. -/
theorem mem_set_completed {polls : List PendingPoll} {p : Nat} {poll q : PendingPoll} (hp : polls[p]? = some poll)
    (hq : q ∈ polls.set p { poll with completed := true }) : ∃ q' ∈ polls, ∀ kind, q.taken kind = q'.taken kind := by
  rcases List.mem_or_eq_of_mem_set hq with hq | rfl
  · exact ⟨q, hq, fun _ => rfl⟩
  · exact ⟨poll, List.mem_of_getElem? hp, fun kind => by cases kind <;> rfl⟩

theorem Tidy.reads (h : Tidy s) {p : Nat} {poll : PendingPoll} (hp : s.polls[p]? = some poll) (nowIso : JsString)
    (l : List PendingInteraction) : Tidy (s.reads p poll nowIso l) := by
  have hrep : ∀ key, (s.reads p poll nowIso l).Reported key ↔ key ∈ l.map stampKey := fun key => by
    rw [PendingPolls.reads, reported_note, reads_keys]
  refine ⟨fun key => ?_, fun key => ?_, fun q hq kind => ?_⟩
  · rw [hrep]
    change (∃ t, (stampOccurredAt nowIso s.firstObserved l).1.get key = some t) ↔ _
    rw [stampOccurredAt_get]
    split
    · rename_i hk; exact iff_of_true ⟨_, rfl⟩ hk
    · rename_i hk; exact iff_of_false (by rintro ⟨_, ⟨⟩⟩) hk
  · rw [hrep]
    change (∃ t, (if key ∈ (stampOccurredAt nowIso s.firstObserved l).2.map stampKey then _ else none) = some t) ↔ _
    rw [reads_keys]
    split
    · rename_i hk; exact iff_of_true ⟨_, rfl⟩ hk
    · rename_i hk; exact iff_of_false (by rintro ⟨_, ⟨⟩⟩) hk
  · obtain ⟨q', hq', htaken⟩ := mem_set_completed hp hq
    rw [htaken]
    exact h.takenAt q' hq' kind

theorem taken_take (poll : PendingPoll) (time : Nat) (kind kind' : CommandKind) (call : ListCall) :
    (poll.take time kind call).taken kind' = poll.taken kind' ∨
      kind' = kind ∧ (poll.take time kind call).taken kind' = ⟨call, time⟩ := by
  have hanswer : ∀ l : TakenList, l.answer time call = l ∨ l.answer time call = ⟨call, time⟩ := by
    intro l
    unfold TakenList.answer
    split
    · exact Or.inr rfl
    · exact Or.inl rfl
  cases kind with
  | question =>
    cases kind' with
    | question => exact (hanswer poll.question).imp_right fun h => ⟨rfl, h⟩
    | permission => exact Or.inl rfl
  | permission =>
    cases kind' with
    | question => exact Or.inl rfl
    | permission => exact (hanswer poll.permission).imp_right fun h => ⟨rfl, h⟩

/-- The lists after an event: those there were, and the one that was just taken. -/
theorem event_lists {e : PendingPollEvent} {q : PendingPoll} (hq : q ∈ (s.event e).polls) (kind : CommandKind) :
    (q.taken kind).takenAt = 0 ∨ (∃ q' ∈ s.polls, q.taken kind = q'.taken kind) ∨
      ∃ p call, e = .takes p kind call ∧ q.taken kind = ⟨call, s.time⟩ := by
  cases e with
  | issue source =>
    rcases List.mem_append.mp hq with hq | hq
    · exact Or.inr (Or.inl ⟨q, hq, rfl⟩)
    · rw [List.mem_singleton.mp hq]
      exact Or.inl (by cases kind <;> rfl)
  | takes p kind' call =>
    obtain ⟨i, hi⟩ := List.mem_iff_getElem?.mp hq
    rw [event, List.getElem?_modify] at hi
    obtain ⟨q', hq', rfl⟩ := Option.map_eq_some_iff.mp hi
    have hmem := List.mem_of_getElem? hq'
    split
    · rcases taken_take q' s.time kind' kind call with h | ⟨rfl, h⟩
      · exact Or.inr (Or.inl ⟨q', hmem, h⟩)
      · exact Or.inr (Or.inr ⟨p, call, rfl, h⟩)
    · exact Or.inr (Or.inl ⟨q', hmem, rfl⟩)
  | completes p titles nowIso =>
    refine Or.inr (Or.inl ?_)
    simp only [event] at hq
    split at hq
    · rename_i poll hp
      split at hq
      · exact ⟨q, hq, rfl⟩
      · rcases s.goesOn_cases p poll titles nowIso with ⟨qs, ps, -, -, h⟩ | h | h <;> rw [h] at hq
        · obtain ⟨q', hq', htaken⟩ := mem_set_completed hp hq
          exact ⟨q', hq', htaken kind⟩
        · exact ⟨q, hq, rfl⟩
        · obtain ⟨q', hq', htaken⟩ := mem_set_completed hp hq
          exact ⟨q', hq', htaken kind⟩
    · exact ⟨q, hq, rfl⟩

/-- Nothing is read, or a poll reads both of its lists. -/
theorem event_cases (s : PendingPolls) (e : PendingPollEvent) :
    ((s.event e).firstObserved = s.firstObserved ∧ (s.event e).since = s.since ∧ (s.event e).snapshots = s.snapshots) ∨
    ∃ p poll titles nowIso qs ps, e = .completes p titles nowIso ∧ s.polls[p]? = some poll ∧ poll.completed = false ∧
      poll.question.call.payload = some qs ∧ poll.permission.call.payload = some ps ∧
      s.event e = s.reads p poll nowIso (interactions titles poll.source qs ps) := by
  cases e with
  | issue source => exact Or.inl ⟨rfl, rfl, rfl⟩
  | takes p kind call => exact Or.inl ⟨rfl, rfl, rfl⟩
  | completes p titles nowIso =>
    simp only [event]
    split
    · rename_i poll hp
      split
      · exact Or.inl ⟨rfl, rfl, rfl⟩
      · rename_i hopen
        rcases s.goesOn_cases p poll titles nowIso with ⟨qs, ps, hq, hps, h⟩ | h | h
        · exact Or.inr ⟨p, poll, titles, nowIso, qs, ps, rfl, hp, Bool.eq_false_iff.mpr hopen, hq, hps, h⟩
        · rw [h]
          exact Or.inl ⟨rfl, rfl, rfl⟩
        · rw [h]
          exact Or.inl ⟨rfl, rfl, rfl⟩
    · exact Or.inl ⟨rfl, rfl, rfl⟩

theorem tidy_init : Tidy init :=
  ⟨fun _ => iff_of_false nofun nofun, fun _ => iff_of_false nofun nofun, nofun⟩

theorem tidy_step (h : Tidy s) (e : PendingPollEvent) : Tidy (step s e) := by
  have htaken : ∀ q ∈ (s.event e).polls, ∀ kind, (q.taken kind).takenAt ≤ s.time + 1 := by
    intro q hq kind
    rcases event_lists hq kind with hz | ⟨q', hq', htaken⟩ | ⟨p, call, -, htaken⟩
    · omega
    · rw [htaken]
      have := h.takenAt q' hq' kind
      omega
    · rw [htaken]
      exact Nat.le_succ _
  rcases event_cases s e with ⟨hfirst, hsince, hsnap⟩ | ⟨p, poll, titles, nowIso, qs, ps, -, hp, -, -, -, he⟩
  · have hrep : ∀ key, (step s e).Reported key ↔ s.Reported key := fun key => by
      unfold Reported
      rw [step, hsnap]
    refine ⟨fun key => ?_, fun key => ?_, htaken⟩
    · rw [hrep, step, hfirst]
      exact h.remembered key
    · rw [hrep, step, hsince]
      exact h.since key
  · have hr := h.reads hp nowIso (interactions titles poll.source qs ps)
    rw [← he] at hr
    exact ⟨hr.remembered, hr.since, htaken⟩

/-! ## A request that stays -/

/-- What is known of a request from its first report on, while every list holds it. -/
structure Kept (nowIso : JsString) (t n : Nat) (kind : CommandKind) (id : JsString) (s : PendingPolls) : Prop where
  first : s.firstObserved.get (pendingKey kind id) = some nowIso
  since : s.since (pendingKey kind id) = some t
  later : t < s.time
  lists : ∀ q ∈ s.polls, t < (q.taken kind).takenAt → HoldsRequest kind (q.taken kind).call id
  snapshots : ∀ l ∈ s.snapshots.drop n, ∀ i ∈ l, stampKey i = pendingKey kind id → i.occurredAt = nowIso
  count : n ≤ s.snapshots.length

theorem Kept.step {nowIso : JsString} {t n : Nat} {kind : CommandKind} {id : JsString} (h : Kept nowIso t n kind id s)
    {e : PendingPollEvent} (hin : InTime s e)
    (hpresent : ∀ p call, e = .takes p kind call → HoldsRequest kind call id) :
    Kept nowIso t n kind id (step s e) := by
  have hlists : ∀ q ∈ (s.event e).polls, t < (q.taken kind).takenAt → HoldsRequest kind (q.taken kind).call id := by
    intro q hq hlate
    rcases event_lists hq kind with hz | ⟨q', hq', htaken⟩ | ⟨p, call, he, htaken⟩
    · omega
    · rw [htaken] at hlate ⊢
      exact h.lists q' hq' hlate
    · rw [htaken]
      exact hpresent p call he
  have hlater : t < s.time + 1 := Nat.lt_succ_of_lt h.later
  rcases event_cases s e with ⟨hfirst, hsince, hsnap⟩ | ⟨p, poll, titles, now, qs, ps, he, hp, hopen, hq, hps, hev⟩
  · exact ⟨hfirst.symm ▸ h.first, hsince.symm ▸ h.since, hlater, hlists, hsnap.symm ▸ h.snapshots, hsnap.symm ▸ h.count⟩
  · -- The poll holds the request: its list was taken since, or it would be late.
    have hmem : pendingKey kind id ∈ (interactions titles poll.source qs ps).map stampKey := by
      by_contra hmiss
      have hmiss' : ¬ HoldsRequest kind (poll.taken kind).call id := by
        intro hholds
        refine hmiss (mem_interactions.mpr ?_)
        cases kind with
        | question => exact hholds qs hq
        | permission => exact hholds ps hps
      rw [he] at hin
      exact hmiss' (h.lists poll (List.mem_of_getElem? hp)
        (hin poll kind id t hp hopen (by rw [hq]; exact nofun) (by rw [hps]; exact nofun) h.since hmiss'))
    refine ⟨?_, ?_, hlater, hlists, ?_, ?_⟩
    · rw [PendingPolls.step, hev]
      change (stampOccurredAt now s.firstObserved _).1.get _ = _
      rw [stampOccurredAt_get, if_pos hmem, h.first]
      rfl
    · rw [PendingPolls.step, hev]
      change (if _ ∈ (stampOccurredAt now s.firstObserved _).2.map stampKey then _ else none) = _
      rw [reads_keys, if_pos hmem]
      change some ((s.since _).getD s.time) = _
      rw [h.since]
      rfl
    · rw [PendingPolls.step, hev]
      change ∀ l ∈ (s.snapshots ++ [(stampOccurredAt now s.firstObserved _).2]).drop n, _
      rw [List.drop_append_of_le_length h.count]
      intro l hl i hi hkey
      rcases List.mem_append.mp hl with hl | hl
      · exact h.snapshots l hl i hi hkey
      · rw [List.mem_singleton.mp hl] at hi
        rw [stampEach_time hi, hkey, h.first]
        rfl
    · rw [PendingPolls.step, hev]
      change n ≤ (s.snapshots ++ [_]).length
      rw [List.length_append]
      exact Nat.le_add_right_of_le h.count

theorem Kept.run {nowIso : JsString} {t n : Nat} {kind : CommandKind} {id : JsString} (h : Kept nowIso t n kind id s)
    {es : List PendingPollEvent} (hin : Along PendingPolls.step InTime s es)
    (hpresent : ∀ p call, .takes p kind call ∈ es → HoldsRequest kind call id) :
    Kept nowIso t n kind id (runFrom PendingPolls.step s es) := by
  induction es generalizing s with
  | nil => exact h
  | cons e es ih =>
    exact ih (h.step hin.1 fun p call he => hpresent p call (he ▸ List.mem_cons_self)) hin.2
      fun p call hmem => hpresent p call (List.mem_cons_of_mem _ hmem)

/-- A poll reports a request that the poll before it did not report. -/
theorem kept_first (h : Tidy s) {p : Nat} {titles : JsString → Option JsString} {nowIso : JsString}
    {kind : CommandKind} {id : JsString}
    (hnew : ¬ s.Reported (pendingKey kind id))
    (hrep : (step s (.completes p titles nowIso)).Reported (pendingKey kind id)) :
    Kept nowIso s.time s.snapshots.length kind id (step s (.completes p titles nowIso)) := by
  have hnone : s.firstObserved.get (pendingKey kind id) = none := by
    cases hg : s.firstObserved.get (pendingKey kind id) with
    | none => rfl
    | some t => exact absurd ((h.remembered _).mp ⟨t, hg⟩) hnew
  have hsince : s.since (pendingKey kind id) = none := by
    cases hg : s.since (pendingKey kind id) with
    | none => rfl
    | some t => exact absurd ((h.since _).mp ⟨t, hg⟩) hnew
  rcases event_cases s (.completes p titles nowIso) with
    ⟨-, -, hsnap⟩ | ⟨p', poll, titles', now, qs, ps, he, hp, -, -, -, hev⟩
  · refine absurd ?_ hnew
    unfold Reported at hrep ⊢
    rw [step, hsnap] at hrep
    exact hrep
  · cases he
    have hmem : pendingKey kind id ∈ (interactions titles poll.source qs ps).map stampKey := by
      rw [step, hev] at hrep
      exact reads_keys nowIso s.firstObserved _ ▸ (reported_note _ _ _).mp hrep
    refine ⟨?_, ?_, Nat.lt_succ_self _, fun q hq hlate => ?_, ?_, ?_⟩
    · rw [step, hev]
      change (stampOccurredAt nowIso s.firstObserved _).1.get _ = _
      rw [stampOccurredAt_get, if_pos hmem, hnone]
      rfl
    · rw [step, hev]
      change (if _ ∈ (stampOccurredAt nowIso s.firstObserved _).2.map stampKey then _ else none) = _
      rw [reads_keys, if_pos hmem]
      change some ((s.since _).getD s.time) = _
      rw [hsince]
      rfl
    · rcases event_lists hq kind with hz | ⟨q', hq', htaken⟩ | ⟨p, call, he, -⟩
      · omega
      · rw [htaken] at hlate
        have := h.takenAt q' hq' kind
        omega
      · cases he
    · rw [step, hev]
      change ∀ l ∈ (s.snapshots ++ [(stampOccurredAt nowIso s.firstObserved _).2]).drop s.snapshots.length, _
      rw [List.drop_left]
      intro l hl i hi hkey
      rw [List.mem_singleton.mp hl] at hi
      rw [stampEach_time hi, hkey, hnone]
      rfl
    · rw [step, hev]
      change s.snapshots.length ≤ (s.snapshots ++ [_]).length
      rw [List.length_append]
      exact Nat.le_add_right _ _

/-- From the poll that reports a request anew, and while every list holds it, each snapshot
    that reports it gives it that poll's clock. -/
theorem first_seen_is_kept (before after : List PendingPollEvent) (p : Nat) (titles : JsString → Option JsString)
    (nowIso : JsString)
    (kind : CommandKind) (id : JsString) (hin : Along step InTime init (before ++ .completes p titles nowIso :: after))
    (hnew : ¬ (run before).Reported (pendingKey kind id))
    (hrep : (run (before ++ [.completes p titles nowIso])).Reported (pendingKey kind id))
    (hpresent : ∀ poll call, .takes poll kind call ∈ after → HoldsRequest kind call id) :
    ∀ l ∈ (run (before ++ .completes p titles nowIso :: after)).snapshots.drop (run before).snapshots.length, ∀ i ∈ l,
      i.kind = kind → i.requestId = id → i.occurredAt = nowIso := by
  have htidy : Tidy (run before) := runFrom_inv (I := Tidy) (fun _ e h => tidy_step h e) tidy_init before
  rw [along_append] at hin
  rw [run, runFrom_append] at hrep
  have hkept := (kept_first htidy hnew hrep).run hin.2.2 hpresent
  have hrun : run (before ++ .completes p titles nowIso :: after) =
      runFrom step (step (run before) (.completes p titles nowIso)) after := by
    rw [run, runFrom_append, runFrom_cons]
  rw [hrun]
  exact fun l hl i hi hkind hid => hkept.snapshots l hl i hi (stampKey_eq.mpr ⟨hkind, hid⟩)

/-- A list that holds one permission request, or none. -/
def permissionsOf (requests : List Json) : ListCall :=
  .resolved (some (.obj [(js "data", .obj [(js "data", .arr requests)])]))

def askedPermission : Json :=
  .obj [(js "id", .str (js "per_1")), (js "sessionID", .str (js "ses_1")), (js "action", .str (js "bash")),
    (js "resources", .arr [])]

/-- Poll `p` reads these permissions and no question. -/
def reading (p : Nat) (requests : List Json) : List PendingPollEvent :=
  [.issue ⟨[], [], [], []⟩, .takes p .question (permissionsOf []), .takes p .permission (permissionsOf requests)]

/-- Two polls, one after the other. -/
def inTurn : List PendingPollEvent :=
  reading 0 [askedPermission] ++ .completes 0 (fun _ => none) (js "1") :: reading 1 [askedPermission]

theorem inTurn_reported {key : JsString} (h : (run inTurn).Reported key) :
    key = pendingKey .permission (js "per_1") := by
  obtain ⟨l, hl, hkey⟩ := h
  have hlast : (run inTurn).snapshots.getLast?.map (·.map stampKey) =
    some [pendingKey .permission (js "per_1")] := by decide +kernel
  rw [hl] at hlast
  have hkeys : l.map stampKey = _ := Option.some.inj hlast
  rw [hkeys] at hkey
  exact List.mem_singleton.mp hkey

theorem second_poll_keeps :
    ((run (inTurn ++ [.completes 1 (fun _ => none) (js "2")])).snapshots.drop
      (run (reading 0 [askedPermission])).snapshots.length).all
      (fun l => l.all fun i => !decide (i.kind = .permission ∧ i.requestId = js "per_1") ||
        decide (i.occurredAt = js "1")) = true := by
  have hholds : HoldsRequest .permission (permissionsOf [askedPermission]) (js "per_1") := by
    intro raws hraws
    cases hraws
    exact ⟨askedPermission, List.mem_singleton_self _, by decide +kernel⟩
  have hkept := first_seen_is_kept (reading 0 [askedPermission])
    (reading 1 [askedPermission] ++ [.completes 1 (fun _ => none) (js "2")]) 0 (fun _ => none)
      (js "1") .permission (js "per_1")
    ?_ ?_ ?_ ?_
  · rw [List.all_eq_true]
    intro l hl
    rw [List.all_eq_true]
    intro i hi
    rw [Bool.or_eq_true, Bool.not_eq_true', decide_eq_false_iff_not, decide_eq_true_iff]
    by_cases hasked : i.kind = .permission ∧ i.requestId = js "per_1"
    · exact Or.inr (hkept l hl i hi hasked.1 hasked.2)
    · exact Or.inl hasked
  · have hsecond : InTime (run inTurn) (.completes 1 (fun _ => none) (js "2")) := ?_
    · exact ⟨trivial, trivial, trivial, fun _ _ _ _ _ _ _ _ hs => (nomatch hs), trivial,
        trivial, trivial, hsecond, trivial⟩
    intro poll kind id t hp hopen _ _ hs hmiss
    have htidy : Tidy (run inTurn) := runFrom_inv (I := Tidy) (fun _ e h => tidy_step h e) tidy_init inTurn
    obtain ⟨rfl, rfl⟩ := pendingKey_inj (inTurn_reported ((htidy.since _).mp ⟨t, hs⟩))
    have hcall : (run inTurn).polls[1]?.map (fun poll => poll.permission.call) =
      some (permissionsOf [askedPermission]) := rfl
    rw [hp] at hcall
    have hcall : poll.permission.call = _ := Option.some.inj hcall
    exact absurd (show HoldsRequest .permission poll.permission.call (js "per_1") from hcall ▸ hholds) hmiss
  · rintro ⟨l, hl, -⟩
    cases hl
  · have hlast : ((run (reading 0 [askedPermission] ++ [.completes 0 (fun _ => none) (js "1")])).snapshots.getLast?.map
        (·.map stampKey)) = some [pendingKey .permission (js "per_1")] := by decide +kernel
    obtain ⟨l, hl, hkeys⟩ := Option.map_eq_some_iff.mp hlast
    exact ⟨l, hl, by rw [hkeys]; exact List.mem_singleton_self _⟩
  · intro poll call hmem
    simp only [reading, List.cons_append, List.nil_append, List.mem_cons, reduceCtorEq, PendingPollEvent.takes.injEq,
      false_and,
      and_false, List.not_mem_nil, or_false, false_or] at hmem
    rw [hmem.2.2]
    exact hholds

/-- A poll began before the request was asked, and completes after the one that reported it. -/
def overtaken : List PendingPollEvent :=
  reading 0 [] ++ reading 1 [askedPermission] ++
    [.completes 1 (fun _ => none) (js "1"), .completes 0 (fun _ => none) (js "2")] ++
    reading 2 [askedPermission] ++ [.completes 2 (fun _ => none) (js "3")]

/-- No list that was taken after its first report misses the request, but it gets a new time. -/
theorem late_poll_forgets :
    ((run overtaken).snapshots.map fun l => l.map (·.occurredAt)) = [[js "1"], [], [js "3"]] := by
  decide +kernel

end PendingPolls

end NotifyHub.Plugin
