/-
  NotifyHub.Plugin.SessionRegistry — the main-session ancestry registry
  (packages/plugin/src/session-registry.ts), without its `isMain`, whose waiting is the
  pipeline's: see `NotifyHub.Plugin.Pipeline`.
-/

import NotifyHub.Lib.Json
import NotifyHub.Lib.OMap

namespace NotifyHub.Plugin

structure CacheEntry where
  /-- None while the ancestry is not known; `some none` is a top-level session. -/
  parentID : Option (Option JsString)
  title : Option JsString
  excluded : Bool
  deriving DecidableEq

/-- What an SDK call comes to. -/
inductive SdkResult where
  | rejected
  | resolved (response : Option Json)

def isInternalSession (title : Option JsString) : Bool := title.any fun t => startsWith t (js "magic-context-")

/-- Session info as `update` takes it. -/
structure SessionInfo where
  sessionID : JsString
  parentID : Option JsString
  title : Option JsString
  archived : Bool

abbrev SessionRegistry := OMap JsString CacheEntry

namespace SessionRegistry

def update (r : SessionRegistry) (info : SessionInfo) : SessionRegistry :=
  let title := info.title.or ((r.get info.sessionID).bind (·.title))
  r.set info.sessionID ⟨some info.parentID, title, info.archived || isInternalSession title⟩

def title (r : SessionRegistry) (sessionID : JsString) : Option JsString := (r.get sessionID).bind (·.title)

def excluded (r : SessionRegistry) (sessionID : JsString) : Bool :=
  (r.get sessionID).any fun e => e.excluded || e.parentID.any (·.isSome)

def updateFromLookup (r : SessionRegistry) (info : SessionInfo) : SessionRegistry :=
  if r.has info.sessionID then r else r.update info

/-- What the registry alone says of a session, once it knows its ancestry. -/
def known (r : SessionRegistry) (sessionID : JsString) : Option Bool := do
  let entry ← r.get sessionID
  let parentID ← entry.parentID
  some (parentID.isNone && !entry.excluded)

/-- The end of `resolve`: the lookup said `parentID`, none when it failed. -/
def resolve (r : SessionRegistry) (sessionID : JsString) (parentID : Option (Option JsString)) :
    SessionRegistry × Option Bool :=
  match r.known sessionID, parentID with
  | some main, _ => (r, some main)
  | none, none => (r, none)
  | none, some parentID =>
    let entry := (r.get sessionID).getD ⟨none, none, false⟩
    (r.set sessionID { entry with parentID := some parentID }, some parentID.isNone)

/-! ## What each write leaves known -/

section
variable (r : SessionRegistry)

theorem known_update_ne (info : SessionInfo) {sid : JsString} (h : sid ≠ info.sessionID) :
    (r.update info).known sid = r.known sid := by
  rw [known, known, update, OMap.get_set_ne _ _ h]

theorem known_update_self (info : SessionInfo) : ((r.update info).known info.sessionID).isSome := by
  rw [known, update, OMap.get_set_self]; rfl

theorem known_update (info : SessionInfo) {sid : JsString} (h : (r.known sid).isSome) :
    ((r.update info).known sid).isSome := by
  by_cases hs : sid = info.sessionID
  · subst hs; exact known_update_self r info
  · rw [known_update_ne r info hs]; exact h

theorem known_updateFromLookup (info : SessionInfo) {sid : JsString} (h : (r.known sid).isSome) :
    ((r.updateFromLookup info).known sid).isSome := by
  unfold updateFromLookup
  split
  · exact h
  · exact known_update r info h

theorem known_resolve (sessionID : JsString) (parentID : Option (Option JsString)) {sid : JsString}
    (h : (r.known sid).isSome) : ((r.resolve sessionID parentID).1.known sid).isSome := by
  unfold resolve
  split
  · exact h
  · exact h
  · rename_i hn
    have hne : sid ≠ sessionID := fun he => by rw [he, hn] at h; cases h
    rw [known, OMap.get_set_ne _ _ hne]
    exact h

/-- Main is said only of a session whose ancestry is known from then on. -/
theorem known_of_resolve {sessionID : JsString} {parentID : Option (Option JsString)} {main : Bool}
    (h : (r.resolve sessionID parentID).2 = some main) : ((r.resolve sessionID parentID).1.known sessionID).isSome := by
  unfold resolve at h ⊢
  split at h
  · rename_i hk; rw [hk]; rfl
  · cases h
  · rw [known, OMap.get_set_self]; rfl

end

end SessionRegistry

/-- The session of a `createSdkLookup` response; none where its ancestry is unknown. -/
def lookupSession (sessionID : JsString) (response : Option Json) : Option SessionInfo := do
  let envelope := response.bind Json.record?
  if envelope.any fun ms => nonNullish (member ms "error") then none
  else
    let session := (envelope.bind fun ms => (member ms "data").bind Json.record?).or envelope
    let ms ← session
    if (member ms "id").bind Json.str? ≠ some sessionID then none
    else if nonNullish (member ms "parentID") && (asNonEmptyString (member ms "parentID")).isNone then none
    else
      some
        { sessionID
          parentID := asNonEmptyString (member ms "parentID")
          title := (member ms "title").bind Json.str?
          archived := match ((member ms "time").bind Json.record?).bind (member · "archived") with
            | some (.num mantissa _) => 0 < mantissa
            | _ => false }

end NotifyHub.Plugin
