/-
  NotifyHub.Link.Agreement — do the gateway and the plugin agree on commands?

  The gateway takes a command body that passes its schema, or a WebUI request that passes
  its inline checks; the plugin reads the frame with parsers of its own. `commands_understood`
  says exactly which accepted commands are read: ajv's `uuid` allows a `urn:uuid:` prefix
  that the plugin's pattern does not, ajv's lengths count code points and allow white
  space, ids in the path may be empty, and the gateway does not look at header values.
-/

import NotifyHub.Control.CommandBodies
import NotifyHub.Control.Commands
import NotifyHub.Control.TunnelIsolation
import NotifyHub.Plugin.FrameParsers

namespace NotifyHub.Link

open Control Contracts Plugin

variable (D : Deps) {dateTime : JsString → Bool}

/-- The gateway has handed the frame to an open socket of a plugin. -/
def HandsOver (s' : Registry) (m : ServerMessage) : Prop :=
  ∃ t c, (t.conns c).socket.open = true ∧ s' = send D t c m

variable {D}

/-! ## What the gateway hands over -/

theorem handsOver_routeCommand {k : CommandKind} {s s' : Registry} {u : UserId}
    {instanceId requestId commandId sessionID : JsString} {m : ServerMessage}
    (h : routeCommand D k s u instanceId requestId commandId sessionID m = (s', .accepted commandId)) :
    HandsOver D s' m := by
  unfold routeCommand at h
  split at h
  · rename_i reply ht
    have htarget : reply = .notFound ∨ reply = .conflict := by
      unfold commandTarget at ht
      repeat' split at ht
      all_goals cases ht
      all_goals simp
    rcases htarget with rfl | rfl <;> cases h
  · rename_i r c ht
    cases h
    refine ⟨_, c, ?_, rfl⟩
    have hgate := (target_ok (q := ⟨k, u, instanceId, requestId, commandId, sessionID, m⟩) ht).1
    exact hgate.isOpen

theorem handsOver_prompt {s s' : Registry} {u : UserId} {instanceId sessionID commandId text : JsString}
    (h : sendSessionPrompt D s u instanceId sessionID commandId text = (s', .accepted commandId)) :
    HandsOver D s' (.sessionPromptCommand commandId sessionID text) := by
  unfold sendSessionPrompt at h
  split at h
  · cases h
  · rename_i c hc
    split at h
    · cases h
    · cases h
      obtain ⟨r, _, hr⟩ := Option.bind_eq_some_iff.mp hc
      have isOpen := (reachable_eq_some.mp hr).2.2
      exact ⟨{ s with
          pendingPromptCommands := s.pendingPromptCommands.set (commandKey s c commandId) ⟨c, sessionID, commandId⟩ },
        c, isOpen, rfl⟩

theorem isQuestionAnswers_iff {answers : QuestionAnswers} :
    Channel.isQuestionAnswers answers = true ↔ Complete answers := by
  simp [Channel.isQuestionAnswers, Complete]

/-- A request is forwarded for a client's frame that asks for it, on a tunnel it holds. -/
theorem request_of_sent {es : List Control.Event} {e : Control.Event} {c : ConnId} {m : ServerMessage}
    (hm : m.tunnel?.isSome = true)
    (h : .sent c m ∈ effects D (Control.run D es) e) : ∃ w ms draw tunnel, e.op = .clientFrame w (some ms) draw ∧
      (Control.run D es).held w = some tunnel ∧ tunnel.forward? ms = some m := by
  have hx : (Effect.sent c m).forwards = true := hm
  cases step_change (D := D) (kept_run es).blank e with
  | still _ hq => cases (hq.mem hx).mp h
  | client w ms draw he _ hc =>
    obtain ⟨tunnel, hw, _, hf, _⟩ := (sent_of_client hc hm).mp h
    exact ⟨w, ms, draw, tunnel, he, hw, hf⟩
  | response _ _ _ _ _ _ l _ _ _ _ hl hch =>
    have := (hch.mem hx).mp h
    rcases hl with rfl | rfl
    · cases this
    · cases List.mem_singleton.mp this

/-! ## What the plugin reads -/

/-- Which of the commands the gateway accepts the plugin reads. -/
theorem commands_understood :
    (∀ s u instanceId requestId body b s', answerQuestionBody dateTime body = some b →
      answerQuestion D s u instanceId requestId b.commandId b.sessionId b.answers = (s', .accepted b.commandId) →
      HandsOver D s' (.questionAnswerCommand b.commandId requestId b.sessionId b.answers) ∧
      ((parseAnswerCommand (serverFrame
        (.questionAnswerCommand b.commandId requestId b.sessionId b.answers))).isSome = true ↔
        isUuid b.commandId = true ∧ requestId ≠ [])) ∧
    (∀ s u instanceId requestId body b s', decidePermissionBody dateTime body = some b →
      decidePermission D s u instanceId requestId b.commandId b.sessionId b.decision = (s', .accepted b.commandId) →
      HandsOver D s' (.permissionDecideCommand b.commandId requestId b.sessionId b.decision) ∧
      ((parseDecisionCommand
        (serverFrame (.permissionDecideCommand b.commandId requestId b.sessionId b.decision))).isSome = true ↔
        isUuid b.commandId = true ∧ requestId ≠ [])) ∧
    (∀ s u instanceId sessionId body b s', sendPromptBody dateTime body = some b →
      sendSessionPrompt D s u instanceId sessionId b.commandId b.text = (s', .accepted b.commandId) →
      HandsOver D s' (.sessionPromptCommand b.commandId sessionId b.text) ∧
      ((parsePromptCommand (serverFrame (.sessionPromptCommand b.commandId sessionId b.text))).isSome = true ↔
        isUuid b.commandId = true ∧ sessionId ≠ [] ∧ trim b.text ≠ [] ∧ b.text.length ≤ 32000)) ∧
    (∀ es, (∀ e ∈ es, Drawn e) → ∀ e c tunnelId requestId method path headers body,
      .sent c (.webUiHttpRequest tunnelId requestId method path headers body) ∈ effects D (Control.run D es) e →
      ∃ w ms draw, e.op = .clientFrame w (some ms) draw ∧ member ms "headers" = some (.obj headers) ∧
      ((parseWebUiRequest (serverFrame (.webUiHttpRequest tunnelId requestId method path headers body))).isSome = true ↔
        SoundHeaders headers)) := by
  refine ⟨?_, ?_, ?_, ?_⟩
  · intro s u instanceId requestId body b s' hb h
    refine ⟨handsOver_routeCommand h, ?_⟩
    obtain ⟨_, hsession, hanswers⟩ := answerQuestionBody_spec hb
    have hanswers := isQuestionAnswers_iff.mpr hanswers
    rw [parseAnswerCommand_frame, hanswers, Bool.and_true]
    by_cases hc : Channel.isCommand b.commandId requestId b.sessionId = true
    · have := isCommand_iff.mp hc
      simp [hc, this.1, this.2.1]
    · simp only [hc, if_false, Bool.false_eq_true, Option.isSome_none, false_iff]
      intro ⟨hid, hreq⟩
      exact hc (isCommand_iff.mpr ⟨hid, hreq, hsession⟩)
  · intro s u instanceId requestId body b s' hb h
    refine ⟨handsOver_routeCommand h, ?_⟩
    obtain ⟨_, hsession⟩ := decidePermissionBody_spec hb
    rw [parseDecisionCommand_frame]
    by_cases hc : Channel.isCommand b.commandId requestId b.sessionId = true
    · have := isCommand_iff.mp hc
      simp [hc, this.1, this.2.1]
    · simp only [hc, if_false, Bool.false_eq_true, Option.isSome_none, false_iff]
      intro ⟨hid, hreq⟩
      exact hc (isCommand_iff.mpr ⟨hid, hreq, hsession⟩)
  · intro s u instanceId sessionId body b s' hb h
    refine ⟨handsOver_prompt h, ?_⟩
    rw [parsePromptCommand_frame]
    exact ⟨fun h => ⟨h.command, h.session, h.written, h.short⟩, fun h => ⟨h.1, h.2.1, h.2.2.1, h.2.2.2⟩⟩
  · intro es hdrawn e c tunnelId requestId method path headers body h
    obtain ⟨w, ms, draw, tunnel, he, hw, hf⟩ := request_of_sent rfl h
    obtain ⟨rfl, hreq⟩ := forward_request hf
    have hrequest : isUuid requestId = true := (Option.filter_eq_some_iff.mp hreq.request).2
    exact ⟨w, ms, draw, he, hreq.headers, parseWebUiRequest_frame (tunnel_drawn hdrawn hw) hrequest hreq.method.2
      hreq.path.2 hreq.body⟩

/-! ## Accepted, and dropped -/

def prompt1 : JsString := js "30000000-0000-4000-8000-000000000000"

/-- A prompt of one space. -/
def blankPrompt : Json := .obj [(js "commandId", .str prompt1), (js "text", text " ")]

/-- One plugin has registered. -/
def onePlugin : List Control.Event :=
  [⟨0, .add (plugin 0) openSocket⟩, ⟨1, .frame (plugin 0) (some (.register (sampleRegistration instance1)))⟩]

/-- The gateway accepts a blank prompt for an open plugin; the plugin does not read it. -/
theorem blank_prompt_dropped : ∃ b, sendPromptBody (fun _ => false) blankPrompt = some b ∧
    (sendSessionPrompt sampleDeps (Control.run sampleDeps onePlugin) alice instance1 (js "ses") b.commandId b.text).2 =
      .accepted b.commandId ∧
    (parsePromptCommand (serverFrame (.sessionPromptCommand b.commandId (js "ses") b.text))).isSome = false :=
  ⟨⟨prompt1, js " "⟩, by decide +kernel, by decide +kernel, by decide +kernel⟩

end NotifyHub.Link
