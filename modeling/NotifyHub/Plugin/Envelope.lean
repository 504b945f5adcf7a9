/-
  NotifyHub.Plugin.Envelope — `EnvelopeFactory` (packages/plugin/src/envelope.ts): the
  events made of the machine's effects. Each is bounded to the contract, then checked
  against it; one that fails throws (`none`), and index.ts drops the notification.

  Of a sound effect, everything lands inside the schema but the link of a provider action:
  `asContractUri` asks the URL parser, the schema RFC 3986 (`build_iff`).
-/

import NotifyHub.Contracts.Events
import NotifyHub.Lib.Utf8
import NotifyHub.Plugin.Normalize
import NotifyHub.Plugin.Pipeline

namespace NotifyHub.Plugin

open Contracts (NotifyEvent EventSource EventSession EventQuestion EventProviderAction RequiredAction EventPayload
  EventOutcome HeartbeatStatus ResolvedKind Bounded notifyEventSchema event_valid)

def MAX_QUESTIONS : Nat := 8

def MAX_QUESTION_TEXT_CODE_POINTS : Nat := 2000

def MAX_QUESTION_OPTIONS : Nat := 16

def MAX_PERMISSION_SUMMARY_CODE_POINTS : Nat := 500

def MAX_PROVIDER_FIELD_CODE_POINTS : Nat := 120

def MAX_PROVIDER_MESSAGE_CODE_POINTS : Nat := 500

def MAX_PROVIDER_LINK_CODE_POINTS : Nat := 2048

def MAX_SUMMARY_CODE_POINTS : Nat := 500

/-- What the factory takes from outside: `new URL(value)` does not throw, and ajv's format `date-time`. -/
structure EnvelopePlatform where
  parsesUrl : JsString → Bool
  dateTime : JsString → Bool

/-- What one event draws: `crypto.randomUUID()`, and `toISOString()` of the clock. -/
structure Stamp (P : EnvelopePlatform) where
  eventId : JsString
  occurredAt : JsString
  isUuid : uuidFormat eventId = true
  isDateTime : P.dateTime occurredAt = true

structure EnvelopeFactoryOptions where
  source : EventSource
  includeSummary : Bool

def Envelope.truncateCodePoints (text : JsString) (max : Nat) : JsString :=
  let points := codePoints text
  if points.length ≤ max then text else (points.take (max - 1)).flatten ++ [ellipsis]

def elapsedSeconds (elapsedMs : Nat) : Nat := elapsedMs / 1000

variable (P : EnvelopePlatform)

def asContractUri (value : JsString) : Option JsString :=
  if MAX_PROVIDER_LINK_CODE_POINTS < (codePoints value).length then none
  else if value.any fun c => isSpace c || isControl c then none
  else if P.parsesUrl value then some value else none

def boundQuestion (q : NormalizedQuestion) : Option EventQuestion :=
  if q.question.length = 0 then none
  else
    let options := ((q.options.filter fun label => 0 < label.length).take MAX_QUESTION_OPTIONS).map fun label =>
      ⟨label, none⟩
    some ⟨Envelope.truncateCodePoints q.question MAX_QUESTION_TEXT_CODE_POINTS,
      if 0 < options.length then some options else none,
      q.multiple⟩

def boundProviderAction (provider title message label : JsString) (link : Option JsString) : EventProviderAction where
  provider := Envelope.truncateCodePoints provider MAX_PROVIDER_FIELD_CODE_POINTS
  title := Envelope.truncateCodePoints title MAX_PROVIDER_FIELD_CODE_POINTS
  message := Envelope.truncateCodePoints message MAX_PROVIDER_MESSAGE_CODE_POINTS
  label := Envelope.truncateCodePoints label MAX_PROVIDER_FIELD_CODE_POINTS
  link := link.bind (asContractUri P)

def sessionSection (id : JsString) (title : Option JsString) : EventSession :=
  match title with
  | some t => if 0 < (trim t).length then ⟨id, t⟩ else ⟨id, js "未命名会话"⟩
  | none => ⟨id, js "未命名会话"⟩

variable {P} in
/-- The event, unless it fails the schema. -/
def finalize (e : NotifyEvent) : Option NotifyEvent :=
  if notifyEventSchema.validate P.dateTime e.toJson then some e else none

variable (o : EnvelopeFactoryOptions) (stamp : Stamp P)

def envelope (session : EventSession) (payload : EventPayload) : NotifyEvent :=
  ⟨stamp.eventId, stamp.occurredAt, o.source, session, payload⟩

/-- `heartbeat`; an idle session has none. -/
def heartbeat (session : EventSession) (status : SessionStatus) (elapsedMs : Nat) : Option NotifyEvent :=
  match status with
  | .busy => finalize (P := P) (envelope P o stamp session (.heartbeat .busy (elapsedSeconds elapsedMs)))
  | .retry => finalize (P := P) (envelope P o stamp session (.heartbeat .retry (elapsedSeconds elapsedMs)))
  | .idle => none

def TerminalOutcome.event : TerminalOutcome → EventOutcome
  | .completed => .completed
  | .failed => .failed
  | .stopped => .stopped

def terminal (session : EventSession) (outcome : TerminalOutcome) (elapsedMs : Nat) (summary : Option JsString) :
    Option NotifyEvent :=
  let summary :=
    match summary with
    | some s => if o.includeSummary = true ∧
        0 < s.length then some (Envelope.truncateCodePoints s MAX_SUMMARY_CODE_POINTS) else none
    | none => none
  finalize (P := P) (envelope P o stamp session (.terminal outcome.event (elapsedSeconds elapsedMs) summary))

def actionRequired (session : EventSession) (requestId : JsString) : ActionDetails → Option NotifyEvent
  | .question questions =>
    let questions := (questions.filterMap boundQuestion).take MAX_QUESTIONS
    if questions.length = 0 then none
    else finalize (P := P) (envelope P o stamp session (.actionRequired requestId (.question questions)))
  | .permission permission summary =>
    if summary.length = 0 then none
    else finalize (P := P) (envelope P o stamp session (.actionRequired requestId
      (.permission permission (Envelope.truncateCodePoints summary MAX_PERMISSION_SUMMARY_CODE_POINTS))))
  | .providerAction provider title message label link =>
    finalize (P := P) (envelope P o stamp session (.actionRequired requestId
      (.providerAction (boundProviderAction P provider title message label link))))

/-- `actionResolved`; a provider action never resolves. -/
def actionResolved (session : EventSession) (requestId : JsString) (kind : PendingActionKind) : Option NotifyEvent :=
  match kind with
  | .question => finalize (P := P) (envelope P o stamp session (.actionResolved requestId .question))
  | .permission => finalize (P := P) (envelope P o stamp session (.actionResolved requestId .permission))
  | .providerAction => none

/-- The event a notification is sent as, by the callback that made it. -/
def build (n : Notification) : Option NotifyEvent :=
  let session := sessionSection n.effect.sessionID n.title
  match n.effect with
  | .heartbeat _ status elapsedMs => heartbeat P o stamp session status elapsedMs
  | .terminal _ outcome elapsedMs => terminal P o stamp session outcome elapsedMs n.summary
  | .actionRequired _ requestId details => actionRequired P o stamp session requestId details
  | .actionResolved _ requestId kind => actionResolved P o stamp session requestId kind

/-! ## Clipped texts -/

/-- Joining code points makes no more of them. -/
theorem length_codePoints_append {p : JsString}
    (hp : (∃ c, p = [c]) ∨ ∃ c d, p = [c, d] ∧ (isHighSurrogate c && isLowSurrogate d) = true) (s : JsString) :
    (codePoints (p ++ s)).length ≤ 1 + (codePoints s).length := by
  rcases hp with ⟨c, rfl⟩ | ⟨c, d, rfl, hpair⟩
  · cases s with
    | nil => simp [codePoints]
    | cons d s =>
      rw [List.singleton_append, codePoints]
      split
      · rename_i hpair
        -- the low surrogate that joins `c` began a code point of its own
        have hlow : isHighSurrogate d = false := by
          rw [Bool.and_eq_true] at hpair
          have hd := Utf8.isLowSurrogate_iff.mp hpair.2
          rw [← Bool.not_eq_true, Utf8.isHighSurrogate_iff]
          omega
        rw [Utf8.codePoints_cons hlow]
        simp only [List.length_cons]
        omega
      · simp only [List.length_cons]
        omega
  · have hjoin : codePoints ([c, d] ++ s) = [c, d] :: codePoints s := by simp [codePoints, hpair]
    rw [hjoin, List.length_cons]
    omega

theorem length_codePoints_flatten {l : List JsString}
    (hl : ∀ p ∈ l, (∃ c, p = [c]) ∨ ∃ c d, p = [c, d] ∧ (isHighSurrogate c && isLowSurrogate d) = true) (s : JsString) :
    (codePoints (l.flatten ++ s)).length ≤ l.length + (codePoints s).length := by
  induction l with
  | nil => simp
  | cons p l ih =>
    have hp := length_codePoints_append (hl p (by simp)) (l.flatten ++ s)
    have hrest := ih fun q hq => hl q (by simp [hq])
    rw [List.flatten_cons, List.append_assoc, List.length_cons]
    omega

/-- A clipped text keeps to its cap. -/
theorem length_truncateCodePoints (text : JsString) {max : Nat} (hmax : 1 ≤ max) :
    (codePoints (Envelope.truncateCodePoints text max)).length ≤ max := by
  unfold Envelope.truncateCodePoints
  dsimp only
  split
  · assumption
  · have hpoints : ∀ p ∈ (codePoints text).take (max - 1),
        (∃ c, p = [c]) ∨ ∃ c d, p = [c, d] ∧ (isHighSurrogate c && isLowSurrogate d) = true :=
      fun p hp => Utf8.mem_codePoints (List.mem_of_mem_take hp)
    have hlen := length_codePoints_flatten hpoints [ellipsis]
    have htake := List.length_take_le (max - 1) (codePoints text)
    have hone : (codePoints [ellipsis]).length = 1 := rfl
    omega

theorem bounded_truncateCodePoints {text : JsString} (h : text ≠ []) {max : Nat} (hmax : 1 ≤ max) :
    Bounded max (Envelope.truncateCodePoints text max) := by
  refine ⟨?_, length_truncateCodePoints text hmax⟩
  unfold Envelope.truncateCodePoints
  dsimp only
  split
  · exact h
  · simp

/-! ## Bounded sections -/

theorem boundQuestion_sound {q : NormalizedQuestion} (hq : q.Sound) : ∃ e, boundQuestion q = some e ∧ e.Valid := by
  unfold boundQuestion
  rw [if_neg fun h => hq.1 (List.length_eq_zero_iff.mp h)]
  refine ⟨_, rfl, bounded_truncateCodePoints hq.1 (by decide), fun l hl => ?_⟩
  dsimp only at hl
  split at hl
  · cases hl
    refine ⟨?_, fun e he => ?_⟩
    · rw [List.length_map]
      exact List.length_take_le ..
    · obtain ⟨label, hlabel, rfl⟩ := List.mem_map.mp he
      exact hq.2 label (List.mem_of_mem_filter (List.mem_of_mem_take hlabel))
  · cases hl

/-- The questions of a request, none of them lost but by the cap. -/
theorem boundQuestions_valid {questions : List NormalizedQuestion} (hne : questions ≠ [])
    (h : ∀ q ∈ questions, q.Sound) :
    (RequiredAction.question ((questions.filterMap boundQuestion).take MAX_QUESTIONS)).Valid := by
  have hall : ∀ e ∈ questions.filterMap boundQuestion, e.Valid := by
    intro e he
    obtain ⟨q, hq, hqe⟩ := List.mem_filterMap.mp he
    obtain ⟨e', he', hvalid⟩ := boundQuestion_sound (h q hq)
    rw [he', Option.some.injEq] at hqe
    exact hqe ▸ hvalid
  obtain ⟨q, hq⟩ := List.exists_mem_of_ne_nil _ hne
  obtain ⟨e, he, -⟩ := boundQuestion_sound (h q hq)
  have hpos := List.length_pos_of_mem (List.mem_filterMap.mpr ⟨q, hq, he⟩)
  refine ⟨?_, ?_, fun e he => hall e (List.mem_of_mem_take he)⟩
  · rw [List.length_take, MAX_QUESTIONS]
    omega
  · exact List.length_take_le ..

variable {P}

theorem asContractUri_some {value link : JsString} (h : asContractUri P value = some link) :
    link = value ∧ (codePoints link).length ≤ 2048 := by
  unfold asContractUri at h
  split at h
  · cases h
  · rename_i hlen
    split at h
    · cases h
    · split at h
      · cases h
        exact ⟨rfl, by rw [MAX_PROVIDER_LINK_CODE_POINTS] at hlen; omega⟩
      · cases h

/-! ## Sound effects -/

def ActionDetails.Sound : ActionDetails → Prop
  | .question questions => questions ≠ [] ∧ ∀ q ∈ questions, q.Sound
  | .permission name summary => name ≠ [] ∧ summary ≠ []
  | .providerAction provider title message label _ => provider ≠ [] ∧ title ≠ [] ∧ message ≠ [] ∧ label ≠ []

/-- An effect as the machine makes it of sound events. -/
def Effect.Sound : Effect → Prop
  | .terminal sessionID .. => sessionID ≠ []
  | .heartbeat sessionID status _ => sessionID ≠ [] ∧ status ≠ .idle
  | .actionRequired sessionID requestId details => sessionID ≠ [] ∧ requestId ≠ [] ∧ details.Sound
  | .actionResolved sessionID requestId kind => sessionID ≠ [] ∧ requestId ≠ [] ∧ kind ≠ .providerAction

variable (P) in
/-- The link the factory keeps of an effect. -/
def Effect.keptLink : Effect → Option JsString
  | .actionRequired _ _ (.providerAction _ _ _ _ link) => link.bind (asContractUri P)
  | _ => none

/-- The payload of a finalized event decides whether it is one. -/
theorem finalize_iff {o : EnvelopeFactoryOptions} (ho : o.source.Valid) (stamp : Stamp P) {session : EventSession}
    (hs : session.id ≠ []) (payload : EventPayload) :
    (∃ e, finalize (P := P) (envelope P o stamp session payload) = some e ∧
      notifyEventSchema.validate P.dateTime e.toJson = true) ↔ payload.Valid := by
  have hvalid : notifyEventSchema.validate P.dateTime (envelope P o stamp session payload).toJson = true ↔
    payload.Valid := by
    rw [event_valid]
    exact ⟨fun h => h.payload, fun h => ⟨stamp.isUuid, stamp.isDateTime, ho, hs, h⟩⟩
  rw [← hvalid, finalize]
  constructor
  · rintro ⟨e, he, -⟩
    split at he
    · assumption
    · cases he
  · intro h
    exact ⟨_, if_pos h, h⟩

theorem sessionSection_id (id : JsString) (title : Option JsString) : (sessionSection id title).id = id := by
  unfold sessionSection
  split
  · split <;> rfl
  · rfl

/-- A sound effect becomes an event of the contract exactly if the link it keeps is an RFC 3986 URI. -/
theorem build_iff {o : EnvelopeFactoryOptions} (ho : o.source.Valid) (stamp : Stamp P) {n : Notification}
    (hn : n.effect.Sound) :
    (∃ e, build P o stamp n = some e ∧ notifyEventSchema.validate P.dateTime e.toJson = true) ↔
      ∀ link, n.effect.keptLink P = some link → Uri.isUri link = true := by
  obtain ⟨effect, title, summary⟩ := n
  have hsection {sessionID : JsString} (hid : sessionID ≠ []) : (sessionSection sessionID title).id ≠ [] := by
    rw [sessionSection_id]
    exact hid
  cases effect with
  | terminal sessionID outcome elapsedMs =>
    refine (finalize_iff ho stamp (hsection hn) _).trans (iff_of_true ?_ nofun)
    intro s hs
    split at hs
    · split at hs
      · cases hs
        exact length_truncateCodePoints _ (by decide)
      · cases hs
    · cases hs
  | heartbeat sessionID status elapsedMs =>
    cases status with
    | busy => exact (finalize_iff ho stamp (hsection hn.1) _).trans (iff_of_true trivial nofun)
    | retry => exact (finalize_iff ho stamp (hsection hn.1) _).trans (iff_of_true trivial nofun)
    | idle => exact absurd rfl hn.2
  | actionRequired sessionID requestId details =>
    obtain ⟨hid, hrequest, hdetails⟩ := hn
    cases details with
    | question questions =>
      have hvalid := boundQuestions_valid hdetails.1 hdetails.2
      have hsome : ((questions.filterMap boundQuestion).take MAX_QUESTIONS).length ≠ 0 := Nat.ne_of_gt hvalid.1
      have hbuild : build P o stamp ⟨.actionRequired sessionID requestId (.question questions), title, summary⟩ =
          finalize (P := P) (envelope P o stamp (sessionSection sessionID title) (.actionRequired requestId
            (.question ((questions.filterMap boundQuestion).take MAX_QUESTIONS)))) := if_neg hsome
      rw [hbuild]
      exact (finalize_iff ho stamp (hsection hid) _).trans (iff_of_true ⟨hrequest, hvalid⟩ nofun)
    | permission permission text =>
      have hbuild : build P o stamp
        ⟨.actionRequired sessionID requestId (.permission permission text), title, summary⟩ =
          finalize (P := P) (envelope P o stamp (sessionSection sessionID title) (.actionRequired requestId
            (.permission permission (Envelope.truncateCodePoints text MAX_PERMISSION_SUMMARY_CODE_POINTS)))) :=
        if_neg fun h => hdetails.2 (List.length_eq_zero_iff.mp h)
      rw [hbuild]
      refine (finalize_iff ho stamp (hsection hid) _).trans (iff_of_true ⟨hrequest, hdetails.1, ?_⟩ nofun)
      exact bounded_truncateCodePoints hdetails.2 (by decide)
    | providerAction provider name message label link =>
      refine (finalize_iff ho stamp (hsection hid) _).trans ?_
      obtain ⟨hprovider, hname, hmessage, hlabel⟩ := hdetails
      constructor
      · intro ⟨_, hvalid⟩ kept hkept
        exact (hvalid.link kept hkept).2
      · intro hlinks
        refine ⟨hrequest, ?_⟩
        refine ⟨bounded_truncateCodePoints hprovider (by decide), bounded_truncateCodePoints hname (by decide),
          bounded_truncateCodePoints hmessage (by decide), bounded_truncateCodePoints hlabel (by decide),
          fun kept hkept => ?_⟩
        obtain ⟨value, -, hvalue⟩ := Option.bind_eq_some_iff.mp hkept
        exact ⟨(asContractUri_some hvalue).2, hlinks kept hkept⟩
  | actionResolved sessionID requestId kind =>
    obtain ⟨hid, hrequest, hkind⟩ := hn
    cases kind with
    | question => exact (finalize_iff ho stamp (hsection hid) _).trans (iff_of_true hrequest nofun)
    | permission => exact (finalize_iff ho stamp (hsection hid) _).trans (iff_of_true hrequest nofun)
    | providerAction => exact absurd rfl hkind

end NotifyHub.Plugin
