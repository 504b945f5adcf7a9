/-
  NotifyHub.Plugin.MessageCache — the assistant-text cache (packages/plugin/src/message-cache.ts).

  A session's records are in order of last activity, the sessions in order of creation;
  both are bounded by dropping the first. A record that has just been touched is the last
  of its session, so a positive bound never drops it.
-/

import NotifyHub.Lib.OMap
import NotifyHub.Plugin.Events

namespace NotifyHub.Plugin

/-- `MessageCacheOptions`, each checked by `boundedPositive`. -/
structure CacheBounds where
  maxMessagesPerSession : Nat
  maxTextLength : Nat
  maxSessions : Nat
  messages_pos : 0 < maxMessagesPerSession
  text_pos : 0 < maxTextLength
  sessions_pos : 0 < maxSessions

/-- The `DEFAULT_MAX_*` bounds. -/
def CacheBounds.default : CacheBounds := ⟨100, 500, 1000, by decide, by decide, by decide⟩

structure MessageRecord where
  role : Option Role
  text : Option JsString

structure MessageCache where
  sessions : OMap JsString (OMap JsString MessageRecord)

def truncateCodePoints (text : JsString) (n : Nat) : JsString :=
  if (codePoints text).length ≤ n then text else ((codePoints text).take n).flatten

namespace MessageCache

variable (B : CacheBounds)

def empty : MessageCache := ⟨.empty⟩

def recordsFor (c : MessageCache) (sessionID : JsString) : MessageCache :=
  if c.sessions.has sessionID then c else ⟨(c.sessions.set sessionID .empty).evict B.maxSessions⟩

def touch (records : OMap JsString MessageRecord) (messageID : JsString) : OMap JsString MessageRecord :=
  let record := (records.get messageID).getD ⟨none, none⟩
  ((records.delete messageID).set messageID record).evict B.maxMessagesPerSession

/-- Touch a message of the session, and write to its record. -/
def record (c : MessageCache) (sessionID messageID : JsString) (f : MessageRecord → MessageRecord) : MessageCache :=
  let c := c.recordsFor B sessionID
  let records := touch B ((c.sessions.get sessionID).getD .empty) messageID
  ⟨c.sessions.set sessionID (records.set messageID (f ((records.get messageID).getD ⟨none, none⟩)))⟩

def onRole (c : MessageCache) (sessionID messageID : JsString) (role : Role) : MessageCache :=
  c.record B sessionID messageID fun r => ⟨some role, if role = .user then none else r.text⟩

def onText (c : MessageCache) (sessionID messageID text : JsString) : MessageCache :=
  c.record B sessionID messageID fun r =>
    if r.role = some .user then r else { r with text := some (truncateCodePoints text B.maxTextLength) }

/-- What makes a record eligible. -/
def eligible (r : MessageRecord) : Bool := r.role == some .assistant && r.text.any fun t => (trim t).length > 0

def summary (c : MessageCache) (sessionID : JsString) : Option JsString := do
  let records ← c.sessions.get sessionID
  let record ← records.values.reverse.find? eligible
  record.text

def clearSession (c : MessageCache) (sessionID : JsString) : MessageCache := ⟨c.sessions.delete sessionID⟩

/-- `clear` drops every session. -/
def clear : MessageCache := empty

end MessageCache

end NotifyHub.Plugin
