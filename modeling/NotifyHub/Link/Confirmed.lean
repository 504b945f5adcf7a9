/-
  NotifyHub.Link.Confirmed — a confirmed request is not routed again.

  Once the registry has taken a confirmed result for a request of a connection, every
  later answer and decision for it there is a conflict and sends nothing
  (`confirmed_is_refused`), while
  - no accepted snapshot response lists the request from list calls made before OpenCode
    confirmed it (`Overtaken`): such a response was collected earlier but is answered, or
    waited for, across the confirmation, and it puts the request back;
  - fewer than `MAX_STALE_REQUEST_IDS` other ids stand behind it among the stale ones: a
    request that was stale before keeps its old place there when it is confirmed.
-/

import NotifyHub.Control.Outcomes
import NotifyHub.Link.System

namespace NotifyHub

open Control

namespace Plugin

/-- The responses of a collection list nothing OpenCode had confirmed when it was asked. -/
def Unlisted (op : Operation) : Prop :=
  ∀ k response, op.call k = .resolved response → ∀ id ∈ listedIds response, id ∉ op.since

/-- A call of the collection that settles so. -/
def UnlistedCall (op : Operation) (call : ListCall) : Prop :=
  ∀ response, call = .resolved response → ∀ id ∈ listedIds response, id ∉ op.since

variable {O : Options}

theorem unlisted_new (since : List JsString) : Unlisted (Channel.runCollection O since) := by
  intro k response hr
  unfold Channel.runCollection at hr
  split at hr <;> cases k <;> cases hr

theorem unlisted_setCall {op : Operation} {k : CommandKind} {call : ListCall} (h : Unlisted op)
    (hc : UnlistedCall op call) :
    Unlisted (op.setCall k call) := by
  intro k' response hr
  by_cases hk : k' = k
  · refine hc response ?_
    cases k <;> subst hk <;> exact hr
  · refine h k' response ?_
    cases k <;> cases k' <;> first | exact absurd rfl hk | exact hr

theorem unlisted_next {op op' : Operation} (hu : Unlisted op) (h : Operation.Next O UnlistedCall op op') :
    Unlisted op' := by
  cases h with
  | waits k call hw hp => exact unlisted_setCall hu hp
  | returns k call hw hp hl => exact fun k' => unlisted_setCall hu hp k'
  | timeout hr => exact fun k => hu k

theorem payload_eq_some {call : ListCall} {rs : List Json} (h : call.payload = some rs) :
    ∃ response, call = .resolved response ∧ listPayload response = some rs := by
  cases call with
  | resolved response => exact ⟨response, rfl, h⟩
  | _ => cases h

/-- Nor does the result of such a collection. -/
theorem outcome_unlisted {op : Operation} {l : List PendingInteraction} (hu : Unlisted op) (h : op.Outcome O l)
    {i : PendingInteraction} (hi : i ∈ l) : i.requestId ∉ op.since := by
  rcases h with ⟨-, titles, nowIso, firstObserved, qs, ps, hq, hp, rfl⟩ | ⟨-, rfl⟩
  · obtain ⟨question, hcq, hq⟩ := payload_eq_some hq
    obtain ⟨permission, hcp, hp⟩ := payload_eq_some hp
    have hid : i.requestId ∈ (interactions titles O.source qs ps).map (·.requestId) := by
      rw [← stampEach_ids nowIso _ firstObserved]
      exact List.mem_map_of_mem hi
    obtain ⟨j, hj, hji⟩ := List.mem_map.mp hid
    rcases interactions_listed hq hp hj with hl | hl
    · exact hji ▸ hu .question question hcq _ hl
    · exact hji ▸ hu .permission permission hcp _ hl
  · cases hi

end Plugin

namespace Link

variable {S : Setup}

theorem unlisted_step {l : Link} {e : Event} (h : ∀ op ∈ l.channel.operations, Plugin.Unlisted op) (he : Honest l e) :
    ∀ op ∈ (step S l e).channel.operations, Plugin.Unlisted op := by
  refine Plugin.collects_forall
    (step_collects (P := Plugin.UnlistedCall) fun n k response titles nowIso op hev hop => ?_)
    Plugin.unlisted_new (fun _ _ => Plugin.unlisted_next) h
  subst hev
  intro r hr
  cases response with
  | none => cases hr
  | some response => cases hr; exact he op hop

theorem unlisted_run {es : List Event} (h : Along (step S) Honest init es) :
    ∀ op ∈ (run S es).channel.operations, Plugin.Unlisted op :=
  Along.inv (I := fun l : Link => ∀ op ∈ l.channel.operations, Plugin.Unlisted op) (fun _ _ => unlisted_step)
    (fun _ hop => absurd hop List.not_mem_nil) h

variable (S)

/-- The registry takes a confirmed result for a command for the request. -/
def Confirms (l : Link) (e : Event) (c : ConnId) (id : JsString) : Prop :=
  ∃ now f rest k commandId instanceId p, e = .deliver now c ∧ l.up c = f :: rest ∧
    read S f = some (CommandKind.result k commandId instanceId .confirmed) ∧
    Answers l.gateway k c commandId instanceId = some p ∧ p.requestId = id

/-- The registry accepts a snapshot response that lists the request from list calls made
    before OpenCode confirmed it. -/
def Overtaken (l : Link) (e : Event) (c : ConnId) (id : JsString) : Prop :=
  ∃ now f rest requestId instanceId is n op, e = .deliver now c ∧ l.up c = f :: rest ∧
    read S f = some (.pendingSnapshotResponse requestId instanceId is) ∧ Accepts l.gateway c requestId instanceId ∧
    (∃ i ∈ is, i.requestId = id) ∧ f.collection = some n ∧ l.channel.operations[n]? = some op ∧ id ∉ op.since

/-- The request becomes stale on the connection. -/
def Stales (l : Link) (e : Event) (c : ConnId) (q : JsString) : Prop :=
  ∃ e', gatewayEvent S l e = some e' ∧ GoesStale l.gateway e' c q

variable {S}

/-- What is known of a link once a request has been confirmed on a connection. -/
structure Withdraws (c : ConnId) (id : JsString) (later : List JsString) (l : Link) : Prop where
  seats : Seats l.gateway
  traced : Traced l
  accounted : ∀ op ∈ l.channel.operations, Plugin.Accounted S.options op
  unlisted : ∀ op ∈ l.channel.operations, Plugin.Unlisted op
  dialed : c ∈ l.dialed
  registered : ∃ instanceId, (l.gateway.conns c).instanceId = some instanceId
  withdrawn : ∀ r, recordOn l.gateway c = some r → Withdrawn id later r

theorem withdraws_step {c : ConnId} {id : JsString} {later : List JsString}
    (hfew : later.length < MAX_STALE_REQUEST_IDS)
    {l : Link} {e : Event} (h : Withdraws (S := S) c id later l) (honest : Honest l e) (timely : ¬ Overtaken S l e c id)
    (few : ∀ q, Stales S l e c q → q = id ∨ q ∈ later) : Withdraws (S := S) c id later (step S l e) := by
  obtain ⟨instanceId, hi⟩ := h.registered
  have hacc := Plugin.collects_forall (step_collects (S := S) (P := fun _ _ => True) (l := l) (e := e)
    fun _ _ _ _ _ _ _ _ => trivial) Plugin.accounted_new (fun _ _ => Plugin.accounted_next) h.accounted
  have hunl := unlisted_step (S := S) h.unlisted honest
  cases hg : gatewayEvent S l e with
  | none =>
    have hsame : (step S l e).gateway = l.gateway := by rw [step_gateway, hg]; rfl
    refine ⟨?_, traced_step h.traced e, hacc, hunl, dialed_step l e h.dialed, ?_, ?_⟩ <;> rw [hsame]
    · exact h.seats
    · exact h.registered
    · exact h.withdrawn
  | some e' =>
    have hnext : (step S l e).gateway = Control.step S.deps l.gateway e' := by rw [step_gateway, hg]; rfl
    refine ⟨?_, traced_step h.traced e, hacc, hunl, dialed_step l e h.dialed, ?_, ?_⟩ <;> rw [hnext]
    · exact seats_step h.seats e'
    · exact ⟨instanceId, instance_step h.seats e' hi⟩
    · refine withdrawn_step h.seats hi hfew h.withdrawn (fun requestId instance' is hop hacc' i hiis he => timely ?_)
        fun q hq => few q ⟨e', hg, hq⟩
      -- The response is a collection's result, so what it lists was not confirmed when it was asked.
      obtain ⟨f, rest, hev, hup, hread⟩ := gatewayEvent_frame h.dialed hg hop
      obtain ⟨n, op, hn, hop', hres⟩ := h.traced.taken c f (by rw [hup]; exact List.mem_cons_self) _ _ _
        (read_eq_some hread.symm)
      have hmem := List.mem_of_getElem? hop'
      have hnot := Plugin.outcome_unlisted (h.unlisted op hmem) ((h.accounted op hmem).outcome is hres) hiis
      exact ⟨e'.now, f, rest, requestId, instance', is, n, op, hev, hup, hread.symm, hacc',
        ⟨i, hiis, he⟩, hn, hop', he ▸ hnot⟩

theorem withdraws_confirmed {es : List Event} {e : Event} {c : ConnId} {id : JsString} {later : List JsString}
    (honest : Along (step S) Honest init (es ++ [e])) (confirms : Confirms S (run S es) e c id)
    (hbehind : ∀ r, recordOn (run S es).gateway c = some r → ∀ x ∈ behind id r.staleRequests, x ∈ later)
    (hfew : later.length < MAX_STALE_REQUEST_IDS) : Withdraws (S := S) c id later (run S (es ++ [e])) := by
  obtain ⟨now, f, rest, k, commandId, instanceId, p, rfl, hup, hread, hp, hid⟩ := confirms
  have hnext : (run S (es ++ [.deliver now c])).gateway = Control.step S.deps (run S es).gateway
      ⟨now, .frame c (some (k.result commandId instanceId .confirmed))⟩ := by
    rw [run, runFrom_append, runFrom_cons, runFrom_nil, step_gateway, gatewayEvent, hup,
      List.head?_cons, Option.map_some, hread]
    rfl
  have hi : ((run S es).gateway.conns c).instanceId = some instanceId := by
    unfold Answers at hp
    split at hp
    · rename_i h; exact h.2
    · cases hp
  refine ⟨seats_run _, traced_run _, accounted_run _, unlisted_run honest, ?_, ?_, fun r hr => ?_⟩
  · rw [run, runFrom_append, runFrom_cons, runFrom_nil]
    exact dialed_step _ _ ((traced_run es).dialed c f (by rw [hup]; exact List.mem_cons_self))
  · rw [hnext]; exact ⟨instanceId, instance_step (seats_run es) _ hi⟩
  · rw [hnext, recordOn_result (seats_run es), hp] at hr
    obtain ⟨r₀, hr₀, rfl⟩ := Option.map_eq_some_iff.mp hr
    rw [hid]
    exact withdrawn_result now (hbehind r₀ hr₀) hfew

/-- Once a confirmed result for a request was taken on a connection, every later command for
    the request there is a conflict, and changes and sends nothing. -/
theorem confirmed_is_refused {es₁ es₂ : List Event} {e : Event} {c : ConnId} {id : JsString} {later : List JsString}
    (honest : Along (step S) Honest init (es₁ ++ e :: es₂)) (confirms : Confirms S (run S es₁) e c id)
    (timely : Along (step S) (fun l e => ¬ Overtaken S l e c id) (run S (es₁ ++ [e])) es₂)
    (hbehind : ∀ r, recordOn (run S es₁).gateway c = some r → ∀ x ∈ behind id r.staleRequests, x ∈ later)
    (few : Along (step S) (fun l e => ∀ q, Stales S l e c q → q = id ∨ q ∈ later) (run S (es₁ ++ [e])) es₂)
    (hfew : later.length < MAX_STALE_REQUEST_IDS) : Refuses S.deps (run S (es₁ ++ e :: es₂)).gateway c id := by
  rw [List.append_cons, along_append] at honest
  have h : Withdraws (S := S) c id later (run S (es₁ ++ e :: es₂)) := by
    rw [List.append_cons, run, runFrom_append]
    exact Along.inv (I := Withdraws (S := S) c id later)
      (fun l e h ok => withdraws_step hfew h ok.1 ok.2.1 ok.2.2)
      (withdraws_confirmed honest.1 confirms hbehind hfew) (honest.2.and (timely.and few))
  exact refused h.seats h.withdrawn

/-! ## A snapshot collected across the confirmation -/

/-- The command result a frame carries. -/
def resultOf : ClientMessage → Option (CommandKind × JsString × JsString × CommandStatus)
  | .questionAnswerResult commandId instanceId status => some (.question, commandId, instanceId, status)
  | .permissionDecideResult commandId instanceId status => some (.permission, commandId, instanceId, status)
  | _ => none

theorem confirms_of {l : Link} {now : Nat} {c : ConnId} {k : CommandKind} {commandId instanceId : JsString}
    {p : PendingCommand}
    (hr : ((l.up c).head?.bind fun f => (read S f).bind resultOf) = some (k, commandId, instanceId, .confirmed))
    (hp : Answers l.gateway k c commandId instanceId = some p) : Confirms S l (.deliver now c) c p.requestId := by
  obtain ⟨f, hf, hf'⟩ := Option.bind_eq_some_iff.mp hr
  obtain ⟨rest, hup⟩ := List.head?_eq_some_iff.mp hf
  obtain ⟨m, hread, hm⟩ := Option.bind_eq_some_iff.mp hf'
  refine ⟨now, f, rest, k, commandId, instanceId, p, rfl, hup, hread.trans (congrArg some ?_), hp, rfl⟩
  cases m <;> cases hm <;> rfl

/-- A frame that is no command result makes nothing stale where nothing is shown. -/
theorem not_stales {l : Link} {now : Nat} {c : ConnId}
    (hshown : (recordOn l.gateway c).map (·.projectedRequests.keys) = some [])
    (hr : ((l.up c).head?.bind fun f => (read S f).bind resultOf) = none) (q : JsString) :
    ¬ Stales S l (.deliver now c) c q := by
  rintro ⟨e', he, hgoes⟩
  obtain ⟨f, hf, rfl⟩ := Option.map_eq_some_iff.mp he
  rcases hgoes with ⟨r, _, _, _, hrec, -, -, hhas, -⟩ | ⟨k, commandId, instanceId, _, hop, -⟩
  · rw [hrec] at hshown
    have hkeys : r.projectedRequests.keys = [] := Option.some.inj hshown
    rw [OMap.has_eq_true, hkeys] at hhas
    cases hhas
  · have hread : read S f = some (k.result commandId instanceId .confirmed) := by injection hop
    rw [hf, Option.bind_some, hread, Option.bind_some] at hr
    cases k <;> cases hr

def sampleSetup : Setup := ⟨sampleDeps, ⟨instance1, js "desk", js "hub", js "/hub", true⟩, fun _ => true⟩

/-- An SDK list response. -/
def envelope (requests : List Json) : Json := .obj [(js "data", .obj [(js "data", .arr requests)])]

def rawQuestion (id : JsString) : Json :=
  .obj [(js "id", .str id), (js "sessionID", .str (js "ses_1")),
    (js "questions", .arr [.obj [(js "header", .str (js "Deploy")), (js "question", .str (js "Deploy now?")),
      (js "options", .arr [.obj [(js "label", .str (js "Yes"))]])]])]

def listed (n : Nat) (k : CommandKind) (requests : List Json) : Event :=
  .plugin (.listSettled n k (some (some (envelope requests))) (fun _ => none) (js "2026-01-01T00:00:00.000Z"))

/-- The plugin registers and reports the question `que_1`. -/
def reported : List Event :=
  [.plugin .start, .connect (plugin 0), .gateway ⟨0, .add (plugin 0) openSocket⟩,
    .plugin (.opened (plugin 0) (js "1.0.0") true false), .deliver 1 (plugin 0), .receive (plugin 0),
    .gateway ⟨2, .collectPendingInteractions alice fun n => draw n⟩, .receive (plugin 0),
    listed 0 .question [rawQuestion (js "que_1")], listed 0 .permission [], .plugin (.cleared 0),
    .plugin (.answered 0 false),
    .deliver 3 (plugin 0)]

/-- The question is answered, and OpenCode confirms it. -/
def answeredOnce : List Event :=
  [.gateway ⟨5, .answerQuestion alice instance1 (js "que_1") commandId1 (js "ses_1") [[js "Yes"]]⟩, .receive (plugin 0),
    .confirms (js "que_1"), .plugin (.commandDone 0 .confirmed false)]

def commandId2 : JsString := js "c0000002-0000-4000-8000-000000000000"

/-- A second answer to the question. -/
def again : Route :=
  ⟨.question, alice, instance1, js "que_1", commandId2, js "ses_1",
    .questionAnswerCommand commandId2 (js "que_1") (js "ses_1") [[js "Yes"]]⟩

def askAgain : Event := .gateway ⟨8, .answerQuestion alice instance1 (js "que_1") commandId2 (js "ses_1") [[js "Yes"]]⟩

theorem answered_once_confirms : Confirms sampleSetup (run sampleSetup (reported ++ answeredOnce))
    (.deliver 6 (plugin 0))
    (plugin 0) (js "que_1") :=
  confirms_of (p := ⟨plugin 0, js "que_1", commandId1⟩) (k := .question)
    (show _ = some (CommandKind.question, commandId1, instance1, CommandStatus.confirmed) by decide +kernel)
      (by decide +kernel)

theorem answered_once_is_refused :
    Refuses sampleDeps (run sampleSetup ((reported ++ answeredOnce) ++ .deliver 6 (plugin 0) :: [askAgain])).gateway
      (plugin 0)
      (js "que_1") := by
  refine confirmed_is_refused (S := sampleSetup) (by decide +kernel) answered_once_confirms
    ⟨?_, trivial⟩ (fun r hr x hx => ?_) ⟨?_, trivial⟩
      (show ([] : List JsString).length < MAX_STALE_REQUEST_IDS by decide)
  · rintro ⟨now, f, rest, requestId, instanceId, is, n, op, h, -⟩
    cases h
  · have hb : ((recordOn (run sampleSetup (reported ++ answeredOnce)).gateway (plugin 0)).map
        fun r => behind (js "que_1") r.staleRequests) = some [] := by decide +kernel
    rw [hr] at hb
    have hnone : behind (js "que_1") r.staleRequests = [] := Option.some.inj hb
    exact hnone ▸ hx
  · rintro q ⟨e', he, hgoes⟩
    cases he
    rcases hgoes with ⟨_, _, _, _, -, hop, -⟩ | ⟨k, _, _, _, hop, -⟩ <;> cases hop

/-- A second collection: its question list was read before the answer, its permission list
    comes after the confirmation. -/
def recollected : List Event :=
  [.gateway ⟨4, .collectPendingInteractions alice fun n => draw (n + 10)⟩, .receive (plugin 0),
    listed 1 .question [rawQuestion (js "que_1")]]

def settledLate : List Event := [listed 1 .permission [], .plugin (.answered 0 false), .deliver 7 (plugin 0)]

def overtaking : List Event := reported ++ recollected ++ answeredOnce

/-- The response of the second collection puts the confirmed question back, and it is routed again. -/
theorem overtaken_snapshot_reopens :
    Along (step sampleSetup) Honest init (overtaking ++ .deliver 6 (plugin 0) :: settledLate) ∧
    Confirms sampleSetup (run sampleSetup overtaking) (.deliver 6 (plugin 0)) (plugin 0) (js "que_1") ∧
    (∀ r, recordOn (run sampleSetup overtaking).gateway (plugin 0) = some r →
      behind (js "que_1") r.staleRequests = []) ∧
    Along (step sampleSetup) (fun l e => ∀ q, ¬ Stales sampleSetup l e (plugin 0) q)
      (run sampleSetup (overtaking ++ [.deliver 6 (plugin 0)])) settledLate ∧
    ¬ Refuses sampleDeps (run sampleSetup (overtaking ++ .deliver 6 (plugin 0) :: settledLate)).gateway (plugin 0)
      (js "que_1") ∧
    (commandFrames (run sampleSetup overtaking).gateway.trace).length = 1 ∧
    (commandFrames (run sampleSetup
      (overtaking ++ .deliver 6 (plugin 0) :: settledLate ++ [askAgain])).gateway.trace).length = 2 := by
  refine ⟨by decide +kernel, ?_, fun r hr => ?_, ⟨?_, ?_, not_stales (by decide +kernel) (by decide +kernel), trivial⟩,
    fun h => ?_, by decide +kernel, by decide +kernel⟩
  · exact confirms_of (p := ⟨plugin 0, js "que_1", commandId1⟩) (k := .question)
      (show _ = some (CommandKind.question, commandId1, instance1, CommandStatus.confirmed) by decide +kernel)
      (by decide +kernel)
  · have hb : ((recordOn (run sampleSetup overtaking).gateway (plugin 0)).map
        fun r => behind (js "que_1") r.staleRequests) = some [] := by decide +kernel
    rw [hr] at hb
    exact Option.some.inj hb
  · rintro q ⟨e', he, -⟩
    cases he
  · rintro q ⟨e', he, -⟩
    cases he
  · have hc : (again.call sampleDeps (run sampleSetup (overtaking ++ .deliver 6 (plugin 0) :: settledLate)).gateway).2 =
        .accepted commandId2 := by decide +kernel
    have hreach : ((run sampleSetup (overtaking ++ .deliver 6 (plugin 0) :: settledLate)).gateway.records.get
        (recordKey alice instance1)).bind
          (reachable (run sampleSetup (overtaking ++ .deliver 6 (plugin 0) :: settledLate)).gateway) =
        some (plugin 0) := by decide +kernel
    rw [h again rfl hreach] at hc
    cases hc

end Link

end NotifyHub
