/-
  NotifyHub.Client.SessionCatalog — the sessions the client lists and the bookmarks it keeps
  (apps/client/lib/sessions/session_catalog.dart): the state and its updates, and the
  controller that loads it, saves it and rolls a delete back that could not be saved.

  A save is two writes to the preferences, the sessions and then the rest, and the saves
  wait for each other. What the controller keeps besides (errors, paging, the followed
  sources) decides nothing here. `DartSort` is `List.sort`, which is not stable.
-/

import Mathlib.Data.Finset.Basic
import NotifyHub.Lib.OMap
import NotifyHub.Lib.Run
import NotifyHub.Client.ActiveSessions
import NotifyHub.Client.PendingController
import NotifyHub.Contracts.Frames

namespace NotifyHub.Client

/-- What `List.sort` makes of a list: some order of it in which no two are the wrong way round. -/
structure DartSort {α : Type} (before : α → α → Prop) where
  sort : List α → List α
  perm : ∀ l, (sort l).Perm l
  sorted : ∀ l, (sort l).Pairwise before

/-- Those of a kind first, and then the latest. -/
def FirstThen {α : Type} (first : α → Bool) (time : α → Int) (a b : α) : Prop :=
  if first a ≠ first b then first a = true else time b ≤ time a

structure OpenCodeInstancePresence where
  instanceId : JsString
  machine : JsString
  project : JsString
  directory : JsString
  state : InstancePresenceState
  deriving DecidableEq

/-- `jsonEncode([machine, directory, sessionId])` -/
abbrev SessionKey := JsString × JsString × JsString

structure RemoteSession where
  session : ActiveSession
  instanceId : JsString
  status : JsString
  pinned : Bool
  openedAt : Option JsString
  verified : Bool
  deriving DecidableEq

namespace RemoteSession

def key (s : RemoteSession) : SessionKey := (s.session.machine, s.session.directory, s.session.sessionId)

def belongsTo (s : RemoteSession) (instance_ : OpenCodeInstancePresence) : Bool :=
  instance_.machine == s.session.machine && instance_.directory == s.session.directory

def unverified (s : RemoteSession) (status : String) : RemoteSession :=
  { s with verified := false, status := js status }

/-- `copyWith(pinned: old?.pinned, openedAt: old?.openedAt)` -/
def keeping (s : RemoteSession) (old : Option RemoteSession) : RemoteSession :=
  { s with pinned := (old.map (·.pinned)).getD s.pinned, openedAt := (old.bind (·.openedAt)).or s.openedAt }

/-- `openedAt ?? session.lastHeartbeatAt` -/
def lastUsed (s : RemoteSession) : JsString := s.openedAt.getD s.session.lastHeartbeatAt

/-- `fromJson(toJson())` -/
def stored (s : RemoteSession) : RemoteSession :=
  { s with
    session := { s.session with running := false, pendingRequestIds := [] }
    status := js "unknown", verified := false }

end RemoteSession

/-- The instants of `DateTime`s, `List.sort`, and `toLowerCase`. -/
structure DartPlatform where
  instant : JsString → Int
  listed : DartSort (FirstThen RemoteSession.pinned fun s => instant s.lastUsed)
  choices : DartSort (FirstThen (fun s : RemoteSession => s.openedAt.isSome) fun s => instant s.lastUsed)
  lower : JsString → JsString

def sessionControlTarget (session : ActiveSession) (instances : List OpenCodeInstancePresence) :
    Option OpenCodeInstancePresence :=
  match instances.filter fun i =>
    i.state == .controllable && i.machine == session.machine &&
      (session.directory == [] || i.directory == session.directory) &&
      (session.directory != [] || i.project == session.project) with
  | [i] => some i
  | _ => none

structure SessionCatalogState where
  sessions : OMap SessionKey RemoteSession
  search : JsString
  hiddenSources : Finset (JsString × JsString)
  hiddenSessions : Finset SessionKey
  deletedSessions : Finset SessionKey

namespace SessionCatalogState

variable (P : DartPlatform) (state : SessionCatalogState)

def empty : SessionCatalogState := ⟨.empty, [], ∅, ∅, ∅⟩

def pinned : List RemoteSession := state.sessions.values.filter (·.pinned)

def searched (s : RemoteSession) : JsString :=
  s.session.title ++ js " " ++ s.session.machine ++ js " " ++ s.session.project ++ js " " ++ s.session.directory

def visible : List RemoteSession :=
  P.listed.sort (state.sessions.values.filter fun s =>
    (s.session.machine, s.session.directory) ∉ state.hiddenSources ∧ s.key ∉ state.hiddenSessions ∧
      s.key ∉ state.deletedSessions ∧ P.lower state.search <:+: P.lower (searched s))

def preferred (instance_ : OpenCodeInstancePresence) : Option RemoteSession :=
  (P.choices.sort (state.sessions.values.filter fun s =>
    s.instanceId = instance_.instanceId ∧ s.verified ∧ s.key ∉ state.hiddenSessions)).head?

/-! ## Updates -/

/-- The part of the listener of the presences before it captures. -/
def staleBindings (next : List OpenCodeInstancePresence) : SessionCatalogState :=
  { state with
    sessions := state.sessions.map fun value =>
      if (next.find? (·.instanceId = value.instanceId)).any (·.state == .controllable) then value
        else value.unverified "unknown" }

def localItem (instances : List OpenCodeInstancePresence) (session : ActiveSession) : RemoteSession :=
  let target := sessionControlTarget session instances
  ⟨session, (target.map (·.instanceId)).getD [], if session.running then js "busy"
    else js "unknown", false, none, target.isSome⟩

def captured (instances : List OpenCodeInstancePresence) (next : OMap SessionKey RemoteSession)
    (session : ActiveSession) :
    OMap SessionKey RemoteSession :=
  let item := localItem instances session
  next.set item.key (item.keeping (next.get item.key))

/-- A session bound to the instance that serves it now. -/
def retarget (instances : List OpenCodeInstancePresence) (item : RemoteSession) : RemoteSession :=
  let target := sessionControlTarget item.session instances
  { item with
    instanceId := (target.map (·.instanceId)).getD item.instanceId
    verified := target.isSome
    status := if target.isSome then item.status else js "unknown" }

def captureLocalSessions (instances : List OpenCodeInstancePresence) (active : List ActiveSession) :
    SessionCatalogState :=
  { state with
    sessions := ((active.foldl (captured instances) state.sessions).filter fun key _ => key ∉ state.deletedSessions).map
      (retarget instances) }

def snapshotItem (instance_ : OpenCodeInstancePresence) (item : Control.CatalogSession) : RemoteSession :=
  ⟨⟨item.sessionId, instance_.machine, instance_.project, item.directory, item.title, item.updatedAt,
      item.status == .busy || item.status == .retry, []⟩,
    instance_.instanceId, js (Contracts.sessionStatusText item.status), false, none, true⟩

/-- The sessions under a snapshot, before they are bounded. -/
def merged (instance_ : OpenCodeInstancePresence) (snapshot : List Control.CatalogSession) :
    OMap SessionKey RemoteSession :=
  let previous := state.sessions
  let kept := previous.filter fun _ s => !(s.belongsTo instance_ && !s.pinned)
  let missing := kept.map fun s => if s.belongsTo instance_ then s.unverified "missing" else s
  snapshot.foldl
    (fun next item =>
      let session := snapshotItem instance_ item
      next.set session.key (session.keeping (previous.get session.key)))
    missing

/-- `_apply` -/
def applySnapshot (instance_ : OpenCodeInstancePresence) (snapshot : List Control.CatalogSession) :
    SessionCatalogState :=
  { state with
    sessions := OMap.empty.addAll (·.key) ((P.listed.sort (state.merged instance_ snapshot).values).take 1000) }

/-- A refresh of the instance that failed. -/
def refreshFailed (instance_ : OpenCodeInstancePresence) : SessionCatalogState :=
  { state with
    sessions := state.sessions.map fun value =>
      if value.belongsTo instance_ then value.unverified "unknown" else value }

/-- Nothing when 50 sessions are pinned. -/
def togglePin (item : RemoteSession) : Option SessionCatalogState :=
  if !item.pinned ∧ state.pinned.length ≥ 50 then none
  else some { state with sessions := state.sessions.set item.key { item with pinned := !item.pinned } }

def setSourceHidden (machine directory : JsString) (hidden : Bool) : SessionCatalogState :=
  { state with
    hiddenSources :=
      if hidden then insert (machine, directory) state.hiddenSources
        else state.hiddenSources.erase (machine, directory) }

def deleteSession (item : RemoteSession) : SessionCatalogState :=
  { state with
    sessions := state.sessions.delete item.key
    hiddenSessions := state.hiddenSessions.erase item.key
    deletedSessions := insert item.key state.deletedSessions }

/-- What `deleteSession` does where the save failed. -/
def rollback (item : RemoteSession) : SessionCatalogState :=
  { state with
    sessions := (OMap.empty.set item.key item).merge state.sessions
    deletedSessions := state.deletedSessions.erase item.key }

def hideSession (item : RemoteSession) : SessionCatalogState :=
  { state with hiddenSessions := insert item.key state.hiddenSessions }

def restoreHiddenSessions : SessionCatalogState := { state with hiddenSessions := ∅ }

def forgetInstance (instanceId : JsString) : SessionCatalogState :=
  { state with sessions := state.sessions.filter fun _ s => !(s.instanceId == instanceId && !s.pinned) }

def markOpened (instanceId sessionId now : JsString) : SessionCatalogState :=
  { state with
    sessions := state.sessions.map fun item =>
      if item.instanceId = instanceId ∧ item.session.sessionId = sessionId then { item with openedAt := some now }
        else item }

def setSearch (query : JsString) : SessionCatalogState := { state with search := trim query }

/-- What can happen to the state. -/
inductive CatalogUpdate where
  | stale (next : List OpenCodeInstancePresence)
  | capture (instances : List OpenCodeInstancePresence) (active : List ActiveSession)
  | snapshot (instance_ : OpenCodeInstancePresence) (sessions : List Control.CatalogSession)
  | failed (instance_ : OpenCodeInstancePresence)
  | search (query : JsString)
  | togglePin (item : RemoteSession)
  | setSourceHidden (machine directory : JsString) (hidden : Bool)
  | deleteSession (item : RemoteSession)
  | rollback (item : RemoteSession)
  | hideSession (item : RemoteSession)
  | restoreHidden
  | forgetInstance (instanceId : JsString)
  | markOpened (instanceId sessionId now : JsString)

def update : CatalogUpdate → SessionCatalogState
  | .stale next => state.staleBindings next
  | .capture instances active => state.captureLocalSessions instances active
  | .snapshot instance_ sessions => state.applySnapshot P instance_ sessions
  | .failed instance_ => state.refreshFailed instance_
  | .search query => state.setSearch query
  | .togglePin item => (state.togglePin item).getD state
  | .setSourceHidden machine directory hidden => state.setSourceHidden machine directory hidden
  | .deleteSession item => state.deleteSession item
  | .rollback item => state.rollback item
  | .hideSession item => state.hideSession item
  | .restoreHidden => state.restoreHiddenSessions
  | .forgetInstance instanceId => state.forgetInstance instanceId
  | .markOpened instanceId sessionId now => state.markOpened instanceId sessionId now

end SessionCatalogState

/-! ## One session under an update -/

/-- Every session is under its own key. -/
def Keyed (m : OMap SessionKey RemoteSession) : Prop := ∀ k v, m.get k = some v → v.key = k

namespace Keyed

theorem empty : Keyed .empty := nofun

theorem map {m : OMap SessionKey RemoteSession} (h : Keyed m) {f : RemoteSession → RemoteSession}
    (hf : ∀ v, (f v).key = v.key) :
    Keyed (m.map f) := by
  intro k v hv
  rw [OMap.get_map, Option.map_eq_some_iff] at hv
  obtain ⟨w, hw, rfl⟩ := hv
  exact (hf w).trans (h k w hw)

theorem filter {m : OMap SessionKey RemoteSession} (h : Keyed m) (p : SessionKey → RemoteSession → Bool) :
    Keyed (m.filter p) := by
  intro k v hv
  rw [OMap.get_filter, Option.filter_eq_some_iff] at hv
  exact h k v hv.1

theorem set {m : OMap SessionKey RemoteSession} (h : Keyed m) {k : SessionKey} {v : RemoteSession} (hv : v.key = k) :
    Keyed (m.set k v) := by
  intro k' v' hv'
  rw [OMap.get_set] at hv'
  split at hv'
  · cases hv'
    exact hv.trans (by simp [*])
  · exact h k' v' hv'

theorem merge {m n : OMap SessionKey RemoteSession} (hm : Keyed m) (hn : Keyed n) : Keyed (m.merge n) := by
  intro k v hv
  rw [OMap.get_merge, Option.or_eq_some_iff] at hv
  exact hv.elim (hn k v) fun hv => hm k v hv.2

theorem addAll (l : List RemoteSession) : Keyed (OMap.empty.addAll (·.key) l) := by
  intro k v hv
  rcases OMap.get_addAll hv with hv | ⟨-, hk⟩
  · cases hv
  · exact hk

theorem map_key_values {m : OMap SessionKey RemoteSession} (h : Keyed m) : m.values.map (·.key) = m.keys := by
  rw [OMap.values, OMap.keys, List.map_map]
  exact List.map_congr_left fun e he => h e.1 e.2 (OMap.get_eq_some.mpr he)

end Keyed

/-- Sets one after the other, seen at one key. -/
theorem get_foldl_keyed {α : Type} (item : α → RemoteSession) (value : α → Option RemoteSession → RemoteSession)
    (l : List α)
    (m : OMap SessionKey RemoteSession) (k : SessionKey) :
    (l.foldl (fun m x => m.set (item x).key (value x (m.get (item x).key))) m).get k =
      l.foldl (fun old x => if (item x).key = k then some (value x old) else old) (m.get k) := by
  induction l generalizing m with
  | nil => rfl
  | cons x l ih =>
    rw [List.foldl_cons, ih, List.foldl_cons, OMap.get_set]
    congr 1
    by_cases hk : (item x).key = k
    · rw [if_pos hk.symm, if_pos hk, hk]
    · rw [if_neg (Ne.symm hk), if_neg hk]

theorem foldl_of_ne {α : Type} {k : SessionKey} {key : α → SessionKey}
    {value : α → Option RemoteSession → RemoteSession} {l : List α}
    (h : ∀ x ∈ l, key x ≠ k) (old : Option RemoteSession) :
    l.foldl (fun old x => if key x = k then some (value x old) else old) old = old := by
  induction l generalizing old with
  | nil => rfl
  | cons x l ih =>
    rw [List.foldl_cons, if_neg (h x List.mem_cons_self)]
    exact ih (fun y hy => h y (List.mem_cons_of_mem _ hy)) old

namespace SessionCatalogState

variable {P : DartPlatform} {state : SessionCatalogState}

/-- What the live sessions make of one entry. -/
def capturedAt (instances : List OpenCodeInstancePresence) (active : List ActiveSession)
    (k : SessionKey) (old : Option RemoteSession) :
    Option RemoteSession :=
  active.foldl
    (fun old session =>
      if (localItem instances session).key = k then some ((localItem instances session).keeping old) else old)
    old

/-- What a snapshot makes of one entry. -/
def mergedAt (instance_ : OpenCodeInstancePresence) (snapshot : List Control.CatalogSession)
    (k : SessionKey) (old : Option RemoteSession) :
    Option RemoteSession :=
  snapshot.foldl
    (fun next item => if (snapshotItem instance_ item).key = k then some ((snapshotItem instance_ item).keeping old)
      else next)
    ((old.filter fun s => !(s.belongsTo instance_ && !s.pinned)).map fun s =>
      if s.belongsTo instance_ then s.unverified "missing" else s)

theorem get_capture (instances : List OpenCodeInstancePresence) (active : List ActiveSession) (k : SessionKey) :
    (state.captureLocalSessions instances active).sessions.get k =
      if k ∈ state.deletedSessions then none
      else (capturedAt instances active k (state.sessions.get k)).map (retarget instances) := by
  have hfold := get_foldl_keyed (localItem instances) (fun session old => (localItem instances session).keeping old)
    active
    state.sessions k
  have hcaptured : (active.foldl (captured instances) state.sessions).get k =
      capturedAt instances active k (state.sessions.get k) := hfold
  rw [captureLocalSessions, OMap.get_map, OMap.get_filter, hcaptured]
  by_cases hk : k ∈ state.deletedSessions
  · cases capturedAt instances active k (state.sessions.get k) <;> simp [hk, Option.filter]
  · cases capturedAt instances active k (state.sessions.get k) <;> simp [hk, Option.filter]

theorem get_merged (instance_ : OpenCodeInstancePresence) (snapshot : List Control.CatalogSession) (k : SessionKey) :
    (state.merged instance_ snapshot).get k = mergedAt instance_ snapshot k (state.sessions.get k) := by
  have hfold := get_foldl_keyed (snapshotItem instance_)
    (fun item _ => (snapshotItem instance_ item).keeping (state.sessions.get (snapshotItem instance_ item).key))
      snapshot
    ((state.sessions.filter fun _ s => !(s.belongsTo instance_ && !s.pinned)).map fun s =>
      if s.belongsTo instance_ then s.unverified "missing" else s) k
  rw [merged]
  refine hfold.trans ?_
  rw [OMap.get_map, OMap.get_filter, mergedAt]
  congr 1
  funext next item
  by_cases hk : (snapshotItem instance_ item).key = k
  · rw [if_pos hk, if_pos hk, hk]
  · rw [if_neg hk, if_neg hk]

theorem keyed_merged (h : Keyed state.sessions) (instance_ : OpenCodeInstancePresence)
    (snapshot : List Control.CatalogSession) :
    Keyed (state.merged instance_ snapshot) := by
  unfold merged
  dsimp only
  have hstart : Keyed ((state.sessions.filter fun _ s => !(s.belongsTo instance_ && !s.pinned)).map fun s =>
      if s.belongsTo instance_ then s.unverified "missing" else s) := by
    refine (h.filter _).map fun v => ?_
    split <;> rfl
  generalize (state.sessions.filter fun _ s => !(s.belongsTo instance_ && !s.pinned)).map _ = next at hstart
  induction snapshot generalizing next with
  | nil => exact hstart
  | cons item snapshot ih => exact ih _ (hstart.set rfl)

theorem keyed_captured {instances : List OpenCodeInstancePresence} (active : List ActiveSession)
    {m : OMap SessionKey RemoteSession}
    (h : Keyed m) : Keyed (active.foldl (captured instances) m) := by
  induction active generalizing m with
  | nil => exact h
  | cons session active ih => exact ih (h.set rfl)

theorem keyed_update (h : Keyed state.sessions) (u : CatalogUpdate) : Keyed (state.update P u).sessions := by
  cases u with
  | stale next =>
    refine h.map fun v => ?_
    split <;> rfl
  | capture instances active => exact ((keyed_captured active h).filter _).map fun _ => rfl
  | snapshot => exact Keyed.addAll _
  | failed =>
    refine h.map fun v => ?_
    split <;> rfl
  | togglePin item =>
    rw [update, togglePin]
    split
    · exact h
    · exact h.set rfl
  | deleteSession => exact h.filter _
  | rollback item => exact (Keyed.empty.set rfl).merge h
  | forgetInstance => exact h.filter _
  | markOpened =>
    refine h.map fun v => ?_
    split <;> rfl
  | search | setSourceHidden | hideSession | restoreHidden => exact h

/-! ## The bound of a snapshot -/

/-- What is left of a snapshot was merged, or was there. -/
theorem get_of_applySnapshot (h : Keyed state.sessions) {instance_ : OpenCodeInstancePresence}
    {snapshot : List Control.CatalogSession}
    {k : SessionKey} {v : RemoteSession} (hv : (state.applySnapshot P instance_ snapshot).sessions.get k = some v) :
    (state.merged instance_ snapshot).get k = some v := by
  rcases OMap.get_addAll hv with hv | ⟨hmem, rfl⟩
  · cases hv
  · obtain ⟨k, hk⟩ := OMap.mem_values.mp ((P.listed.perm _).subset (List.mem_of_mem_take hmem))
    rwa [keyed_merged h instance_ snapshot k v hk]

/-- A session that is among the first thousand stays. -/
theorem get_applySnapshot (h : Keyed state.sessions) {instance_ : OpenCodeInstancePresence}
    {snapshot : List Control.CatalogSession}
    {v : RemoteSession} (hv : v ∈ (P.listed.sort (state.merged instance_ snapshot).values).take 1000) :
    (state.applySnapshot P instance_ snapshot).sessions.get v.key = some v := by
  have hnodup : ((P.listed.sort (state.merged instance_ snapshot).values).map (·.key)).Nodup := by
    rw [((P.listed.perm _).map _).nodup_iff, (keyed_merged h instance_ snapshot).map_key_values]
    exact (state.merged instance_ snapshot).nodup
  exact OMap.get_addAll_of_mem (hnodup.sublist ((List.take_sublist _ _).map _)) hv _

end SessionCatalogState

/-! ## The controller -/

structure CatalogPreferences where
  hiddenSources : Finset (JsString × JsString)
  hiddenSessions : Finset SessionKey
  deletedSessions : Finset SessionKey

/-- A save that waits its turn, or is under way; a delete may wait for it. -/
structure CatalogWrite where
  storageKey : JsString
  sessions : List RemoteSession
  preferences : CatalogPreferences
  delete : Option Nat

/-- A call of `deleteSession`, and what its save came to. -/
structure DeleteCall where
  item : RemoteSession
  epoch : Nat
  saved : Option Bool
  returned : Bool
  deriving DecidableEq

structure SessionCatalogController where
  storageKey : Option JsString
  epoch : Nat
  loaded : Bool
  state : SessionCatalogState
  catalogs : OMap JsString (List RemoteSession)
  preferences : OMap JsString CatalogPreferences
  writes : List CatalogWrite
  /-- What the first half of the write under way came to. -/
  half : Option Bool
  deletes : List DeleteCall

/-- What `setString` comes to, and whether the value is there when it did not succeed. -/
inductive SetString where
  | saved
  | refused (landed : Bool)
  | threw (landed : Bool)

def SetString.landed : SetString → Bool
  | .saved => true
  | .refused landed | .threw landed => landed

def SetString.ok : SetString → Bool
  | .saved => true
  | .refused _ | .threw _ => false

def SetString.store {α : Type} (outcome : SetString) (m : OMap JsString α) (k : JsString) (v : α) : OMap JsString α :=
  if outcome.landed then m.set k v else m

inductive CatalogEvent where
  /-- `build`, for an account and a gateway or for none. -/
  | build (storageKey : Option JsString)
  /-- The app starts anew: what was not written yet is lost. -/
  | restart (storageKey : Option JsString)
  | load (instances : List OpenCodeInstancePresence) (active : List ActiveSession)
  | presences (instances : List OpenCodeInstancePresence) (active : List ActiveSession)
  | active (instances : List OpenCodeInstancePresence) (active : List ActiveSession)
  | snapshot (instance_ : OpenCodeInstancePresence) (sessions : List Control.CatalogSession)
  | failed (instance_ : OpenCodeInstancePresence)
  /-- The end of a refresh, or a source followed. -/
  | save
  | search (query : JsString)
  | togglePin (item : RemoteSession)
  | setSourceHidden (machine directory : JsString) (hidden : Bool)
  | deleteSession (item : RemoteSession)
  | hideSession (item : RemoteSession)
  | restoreHidden
  | forgetInstance (instanceId : JsString)
  | markOpened (instanceId sessionId now : JsString)
  | setSessions (outcome : SetString)
  | setPreferences (outcome : SetString)
  /-- A call of `deleteSession` goes on after its save. -/
  | resumed (call : Nat)

namespace SessionCatalogController

def init (storageKey : Option JsString) (catalogs : OMap JsString (List RemoteSession))
    (preferences : OMap JsString CatalogPreferences) :
    SessionCatalogController := ⟨storageKey, 0, false, .empty, catalogs, preferences, [], none, []⟩

variable (P : DartPlatform) (c : SessionCatalogController)

def settle (delete : Option Nat) (saved : Bool) : SessionCatalogController :=
  match delete with
  | some n => { c with deletes := c.deletes.modify n fun call => { call with saved := some saved } }
  | none => c

/-- `_save` -/
def save (delete : Option Nat) : SessionCatalogController :=
  match c.storageKey with
  | none => c.settle delete false
  | some key =>
    { c with
      writes := c.writes ++ [⟨key, c.state.sessions.values.map RemoteSession.stored,
        ⟨c.state.hiddenSources, c.state.hiddenSessions, c.state.deletedSessions⟩, delete⟩] }

def update (u : SessionCatalogState.CatalogUpdate) : SessionCatalogController := { c with state := c.state.update P u }

/-- `_captureLocalSessions`, which does nothing before the load. -/
def capture (instances : List OpenCodeInstancePresence) (active : List ActiveSession) : SessionCatalogController :=
  if c.loaded then (c.update P (.capture instances active)).save none else c

def rebuild (storageKey : Option JsString) : SessionCatalogController :=
  { c with storageKey := storageKey, epoch := c.epoch + 1, loaded := false, state := .empty }

/-- What the load reads. -/
def read (key : JsString) : SessionCatalogState :=
  let sessions := OMap.empty.addAll (·.key) ((c.catalogs.get key).getD [])
  match c.preferences.get key with
  | some p => { c.state with
      sessions := sessions, hiddenSources := p.hiddenSources, hiddenSessions := p.hiddenSessions
      deletedSessions := p.deletedSessions }
  | none => { c.state with sessions := sessions }

/-- `_load` -/
def load (instances : List OpenCodeInstancePresence) (active : List ActiveSession) : SessionCatalogController :=
  match c.storageKey with
  | some key => if c.loaded then c else ({ c with state := c.read key, loaded := true }).capture P instances active
  | none => c

/-- The first half of the write under way. -/
def setSessions (outcome : SetString) : SessionCatalogController :=
  match c.writes, c.half with
  | w :: writes, none =>
    match outcome with
    | .saved => { c with catalogs := outcome.store c.catalogs w.storageKey w.sessions, half := some true }
    | .refused _ => { c with catalogs := outcome.store c.catalogs w.storageKey w.sessions, half := some false }
    | .threw _ =>
      { c with catalogs := outcome.store c.catalogs w.storageKey w.sessions, writes := writes }.settle w.delete false
  | _, _ => c

/-- The other half. -/
def setPreferences (outcome : SetString) : SessionCatalogController :=
  match c.writes, c.half with
  | w :: writes, some sessionsSaved =>
    { c with
      preferences := outcome.store c.preferences w.storageKey w.preferences, writes := writes, half := none }.settle
      w.delete (sessionsSaved && outcome.ok)
  | _, _ => c

/-- `deleteSession`, up to its save. -/
def deleteSession (item : RemoteSession) : SessionCatalogController :=
  let call : DeleteCall := ⟨item, c.epoch, none, false⟩
  ({ c with state := c.state.update P (.deleteSession item), deletes := c.deletes ++ [call] }).save
    (some c.deletes.length)

/-- `deleteSession` after its save. -/
def resumed (n : Nat) : SessionCatalogController :=
  match c.deletes[n]? with
  | some ⟨item, epoch, some saved, false⟩ =>
    let c := { c with deletes := c.deletes.modify n fun call => { call with returned := true } }
    if saved then c else if epoch = c.epoch then c.update P (.rollback item) else c
  | _ => c

def step (c : SessionCatalogController) : CatalogEvent → SessionCatalogController
  | .build storageKey => c.rebuild storageKey
  | .restart storageKey => { c.rebuild storageKey with writes := [], half := none }
  | .load instances active => c.load P instances active
  | .presences instances active => (c.update P (.stale instances)).capture P instances active
  | .active instances active => c.capture P instances active
  | .snapshot instance_ sessions => if c.loaded then c.update P (.snapshot instance_ sessions) else c
  | .failed instance_ => if c.loaded then c.update P (.failed instance_) else c
  | .save => c.save none
  | .search query => c.update P (.search query)
  | .togglePin item =>
    match c.state.togglePin item with
    | some state => { c with state := state }.save none
    | none => c
  | .setSourceHidden machine directory hidden => (c.update P (.setSourceHidden machine directory hidden)).save none
  | .deleteSession item => c.deleteSession P item
  | .hideSession item => (c.update P (.hideSession item)).save none
  | .restoreHidden => (c.update P .restoreHidden).save none
  | .forgetInstance instanceId => (c.update P (.forgetInstance instanceId)).save none
  | .markOpened instanceId sessionId now => (c.update P (.markOpened instanceId sessionId now)).save none
  | .setSessions outcome => c.setSessions outcome
  | .setPreferences outcome => c.setPreferences outcome
  | .resumed n => c.resumed P n

/-! ## What a step does to the state -/

/-- The catalog is neither built nor loaded. -/
def Steady : CatalogEvent → Prop
  | .build _ | .restart _ | .load .. => False
  | _ => True

/-- The updates a step makes, in their order. -/
def updates (c : SessionCatalogController) : CatalogEvent → List SessionCatalogState.CatalogUpdate
  | .presences instances active => .stale instances :: if c.loaded then [.capture instances active] else []
  | .active instances active => if c.loaded then [.capture instances active] else []
  | .snapshot instance_ sessions => if c.loaded then [.snapshot instance_ sessions] else []
  | .failed instance_ => if c.loaded then [.failed instance_] else []
  | .search query => [.search query]
  | .togglePin item => [.togglePin item]
  | .setSourceHidden machine directory hidden => [.setSourceHidden machine directory hidden]
  | .deleteSession item => [.deleteSession item]
  | .hideSession item => [.hideSession item]
  | .restoreHidden => [.restoreHidden]
  | .forgetInstance instanceId => [.forgetInstance instanceId]
  | .markOpened instanceId sessionId now => [.markOpened instanceId sessionId now]
  | .resumed n =>
    match c.deletes[n]? with
    | some ⟨item, epoch, some false, false⟩ => if epoch = c.epoch then [.rollback item] else []
    | _ => []
  | .build _ | .restart _ | .load .. | .save | .setSessions _ | .setPreferences _ => []

variable {P : DartPlatform} {c : SessionCatalogController}

/-- What saving leaves alone. -/
structure Same (c c' : SessionCatalogController) : Prop where
  storageKey : c'.storageKey = c.storageKey
  epoch : c'.epoch = c.epoch
  loaded : c'.loaded = c.loaded

theorem Same.refl (c : SessionCatalogController) : Same c c := ⟨rfl, rfl, rfl⟩

theorem Same.trans {c c' c'' : SessionCatalogController} (h : Same c c') (h' : Same c' c'') : Same c c'' :=
  ⟨h'.1.trans h.1, h'.2.trans h.2, h'.3.trans h.3⟩

theorem settle_same {c' : SessionCatalogController} (h : Same c c') (hstate : c'.state = c.state)
    (delete : Option Nat) (saved : Bool) :
    Same c (c'.settle delete saved) ∧ (c'.settle delete saved).state = c.state := by
  cases delete with
  | none => exact ⟨h, hstate⟩
  | some n => exact ⟨⟨h.1, h.2, h.3⟩, hstate⟩

theorem save_same (c : SessionCatalogController) (delete : Option Nat) : Same c (c.save delete) ∧
    (c.save delete).state = c.state := by
  unfold save
  split
  · exact settle_same (.refl c) rfl delete false
  · exact ⟨⟨rfl, rfl, rfl⟩, rfl⟩

theorem setSessions_same (c : SessionCatalogController) (outcome : SetString) :
    Same c (c.setSessions outcome) ∧ (c.setSessions outcome).state = c.state := by
  unfold setSessions
  split
  · cases outcome with
    | saved | refused landed => exact ⟨⟨rfl, rfl, rfl⟩, rfl⟩
    | threw landed =>
      refine settle_same ?_ ?_ _ _
      · exact ⟨rfl, rfl, rfl⟩
      · rfl
  · exact ⟨.refl c, rfl⟩

theorem setPreferences_same (c : SessionCatalogController) (outcome : SetString) :
    Same c (c.setPreferences outcome) ∧ (c.setPreferences outcome).state = c.state := by
  unfold setPreferences
  split
  · refine settle_same ?_ ?_ _ _
    · exact ⟨rfl, rfl, rfl⟩
    · rfl
  · exact ⟨.refl c, rfl⟩

theorem capture_same (instances : List OpenCodeInstancePresence) (active : List ActiveSession) :
    Same c (c.capture P instances active) ∧
      (c.capture P instances active).state =
        (if c.loaded then [SessionCatalogState.CatalogUpdate.capture instances active] else []).foldl
          (·.update P) c.state := by
  unfold capture
  split
  · obtain ⟨hsame, hstate⟩ := save_same (c.update P (.capture instances active)) none
    exact ⟨⟨hsame.1, hsame.2, hsame.3⟩, hstate⟩
  · exact ⟨.refl c, rfl⟩

theorem step_same {e : CatalogEvent} (he : Steady e) :
    Same c (step P c e) ∧ (step P c e).state = (c.updates e).foldl (·.update P) c.state := by
  cases e with
  | build => exact absurd he id
  | restart => exact absurd he id
  | load => exact absurd he id
  | presences instances active =>
    obtain ⟨hsame, hstate⟩ := capture_same (P := P) (c := c.update P (.stale instances)) instances active
    exact ⟨⟨hsame.1, hsame.2, hsame.3⟩, hstate⟩
  | active instances active => exact capture_same instances active
  | snapshot instance_ sessions =>
    rw [step, updates]
    split <;> exact ⟨⟨rfl, rfl, rfl⟩, rfl⟩
  | failed instance_ =>
    rw [step, updates]
    split <;> exact ⟨⟨rfl, rfl, rfl⟩, rfl⟩
  | search query => exact ⟨⟨rfl, rfl, rfl⟩, rfl⟩
  | togglePin item =>
    rw [step, updates, List.foldl_cons, List.foldl_nil, SessionCatalogState.update]
    cases htoggle : c.state.togglePin item with
    | none => exact ⟨.refl c, rfl⟩
    | some state =>
      obtain ⟨hsame, hstate⟩ := save_same { c with state := state } none
      exact ⟨⟨hsame.1, hsame.2, hsame.3⟩, hstate⟩
  | deleteSession item =>
    obtain ⟨hsame, hstate⟩ :=
      save_same
        { c with
          state := c.state.update P (.deleteSession item)
          deletes := c.deletes ++ [⟨item, c.epoch, none, false⟩] }
        (some c.deletes.length)
    exact ⟨⟨hsame.1, hsame.2, hsame.3⟩, hstate⟩
  | resumed n =>
    rw [step, resumed, updates]
    rcases hcall : c.deletes[n]? with _ | ⟨item, epoch, _ | saved, returned⟩
    · exact ⟨.refl c, rfl⟩
    · exact ⟨.refl c, rfl⟩
    · cases returned with
      | true => cases saved <;> exact ⟨.refl c, rfl⟩
      | false =>
        cases saved with
        | true => exact ⟨⟨rfl, rfl, rfl⟩, rfl⟩
        | false =>
          dsimp only
          rw [if_neg Bool.false_ne_true]
          split <;> exact ⟨⟨rfl, rfl, rfl⟩, rfl⟩
  | setSessions outcome => exact setSessions_same c outcome
  | setPreferences outcome => exact setPreferences_same c outcome
  | save => exact save_same c none
  | setSourceHidden | hideSession | restoreHidden | forgetInstance | markOpened =>
    obtain ⟨hsame, hstate⟩ := save_same (c.update P _) none
    exact ⟨⟨hsame.1, hsame.2, hsame.3⟩, hstate⟩

theorem keyed_updates {us : List SessionCatalogState.CatalogUpdate} {state : SessionCatalogState}
    (h : Keyed state.sessions) :
    Keyed (us.foldl (·.update P) state).sessions := by
  induction us generalizing state with
  | nil => exact h
  | cons u us ih => exact ih (SessionCatalogState.keyed_update h u)

theorem keyed_read (key : JsString) : Keyed (c.read key).sessions := by
  unfold read
  cases c.preferences.get key with
  | none => exact Keyed.addAll _
  | some p => exact Keyed.addAll _

theorem keyed_step (h : Keyed c.state.sessions) (e : CatalogEvent) : Keyed (step P c e).state.sessions := by
  have hsteady : Steady e → Keyed (step P c e).state.sessions := by
    intro he
    rw [(step_same he).2]
    exact keyed_updates h
  cases e with
  | build | restart => exact Keyed.empty
  | load instances active =>
    rw [step, load]
    split
    · rename_i key _
      split
      · exact h
      · rw [(capture_same instances active).2]
        exact keyed_updates (keyed_read key)
    · exact h
  | _ => exact hsteady trivial

theorem keyed_run (h : Keyed c.state.sessions) (es : List CatalogEvent) :
    Keyed (runFrom (step P) c es).state.sessions := by
  induction es generalizing c with
  | nil => exact h
  | cons e es ih => exact ih (keyed_step h e)

end SessionCatalogController

/-! ## A sort -/

/-- Insertion, in place of what `List.sort` does. -/
def DartSort.insertion {α : Type} (before : α → α → Prop) [DecidableRel before] [Std.Total before]
    [IsTrans α before] : DartSort before :=
  ⟨List.insertionSort before, List.perm_insertionSort before, fun l => List.pairwise_insertionSort before l⟩

section

variable {α : Type} {first : α → Bool} {time : α → Int}

instance : DecidableRel (FirstThen first time) :=
  fun a b => inferInstanceAs (Decidable (if first a ≠ first b then first a = true else time b ≤ time a))

theorem firstThen_iff {a b : α} :
    FirstThen first time a b ↔ first a = true ∧ first b = false ∨ first a = first b ∧ time b ≤ time a := by
  unfold FirstThen
  cases first a <;> cases first b <;> simp

instance : Std.Total (FirstThen first time) where
  total a b := by
    simp only [firstThen_iff]
    cases first a <;> cases first b <;> simp <;> omega

instance : IsTrans α (FirstThen first time) where
  trans a b c := by
    simp only [firstThen_iff]
    cases first a <;> cases first b <;> cases first c <;> simp <;> omega

end

/-- A platform that sorts by insertion. -/
def DartPlatform.insertion (instant : JsString → Int) (lower : JsString → JsString) : DartPlatform :=
  ⟨instant, .insertion _, .insertion _, lower⟩

/-! ## A catalog -/

namespace CatalogSample

def noon : JsString := js "2026-01-01T12:00:00.000Z"

def platform : DartPlatform := .insertion (fun s => if s = noon then 1767268800000000 else 0) id

def laptop : OpenCodeInstancePresence := ⟨js "i1", js "laptop", js "app", js "/work", .controllable⟩

def account : JsString := js "session_catalog_v1"

/-- A session that `laptop` serves. -/
def item (sessionId : JsString) (pinned : Bool) : RemoteSession :=
  ⟨⟨sessionId, js "laptop", js "app", js "/work", js "s", noon, false, []⟩, js "i1", js "idle", pinned, none, true⟩

def listed (sessionId : JsString) : Control.CatalogSession := ⟨sessionId, js "s", js "/work", noon, .idle⟩

end CatalogSample

end NotifyHub.Client
