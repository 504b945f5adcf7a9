/-
  NotifyHub.Plugin.Events — the normalized OpenCode events (packages/plugin/src/events.ts),
  as far as the pipeline and the state machine read them.
-/

import NotifyHub.Lib.Json

namespace NotifyHub.Plugin

inductive SessionStatus where
  | busy
  | retry
  | idle
  deriving DecidableEq

/-- `reason` is identity-only: it feeds the synthetic request id and is never emitted. -/
structure RetryActionInfo where
  reason : Option JsString
  provider : JsString
  title : JsString
  message : JsString
  label : JsString
  link : Option JsString
  deriving DecidableEq

structure NormalizedQuestion where
  question : JsString
  /-- The labels of the options. -/
  options : List JsString
  multiple : Option Bool
  deriving DecidableEq

/-- How a session error ends a round: an abort stops it, any other error fails it. -/
inductive ErrorOutcome where
  | stopped
  | failed
  deriving DecidableEq

inductive Role where
  | user
  | assistant
  deriving DecidableEq

/-- `NormalizedEvent`; an upsert is `deleted` under the kind `session.deleted`. -/
inductive NormalizedEvent where
  | session (deleted : Bool) (sessionID : JsString) (parentID : Option JsString) (title : JsString)
      (directory : Option JsString) (archived : Bool)
  | status (sessionID : JsString) (status : SessionStatus) (action : Option RetryActionInfo)
  | error (sessionID : Option JsString) (outcome : ErrorOutcome)
  | message (sessionID messageID : JsString) (role : Role) (outcome : Option ErrorOutcome)
  | messageText (sessionID messageID partID text : JsString)
  | questionAsked (sessionID requestID : JsString) (questions : List NormalizedQuestion)
  | questionResolved (sessionID requestID : JsString)
  | permissionAsked (sessionID requestID permission summary : JsString)
  | permissionResolved (sessionID requestID : JsString)
  deriving DecidableEq

end NotifyHub.Plugin
