/-
  NotifyHub.Client.InstancePresence — `InstancePresences`
  (apps/client/lib/realtime/instance_presence.dart): the instances of the current account,
  from the cache, from `GET /v1/instances` and from realtime snapshots.

  A call that awaits is an event where it begins and one where it goes on: the load of an
  epoch, the response of a refresh, the writes one after the other, and a `forgetOffline`
  once its write is done. What the preferences hold is the list that `parse` makes of the
  text under a key, or nothing where there is none or it cannot be read.

  - `cached_never_live`: what is shown as live is of the last snapshot of the account; an
    overtaken refresh does nothing; an id goes with the account or by `forgetOffline` only.
-/

import NotifyHub.Client.History
import NotifyHub.Lib.OMap

namespace NotifyHub.Client.Presence

inductive InstancePresenceState where
  | controllable
  | conflicting
  | incompatible
  | offline
  deriving DecidableEq

structure OpenCodeInstancePresence where
  instanceId : JsString
  machine : JsString
  project : JsString
  directory : JsString
  openCodeVersion : JsString
  protocolVersion : Int
  state : InstancePresenceState
  lastSeenAt : DateTime
  webUiAvailable : Bool
  deriving DecidableEq

namespace OpenCodeInstancePresence

def canOpen (i : OpenCodeInstancePresence) : Bool := i.state = .controllable && i.webUiAvailable

def asOffline (i : OpenCodeInstancePresence) : OpenCodeInstancePresence := { i with state := .offline }

def isLive (i : OpenCodeInstancePresence) : Bool := i.state ≠ .offline

@[simp] theorem asOffline_instanceId (i : OpenCodeInstancePresence) : i.asOffline.instanceId = i.instanceId := rfl

@[simp] theorem asOffline_state (i : OpenCodeInstancePresence) : i.asOffline.state = .offline := rfl

/-- What is cached cannot be opened. -/
theorem asOffline_canOpen (i : OpenCodeInstancePresence) : i.asOffline.canOpen = false := rfl

end OpenCodeInstancePresence

/-- A map literal, or what a loop puts into a map: the last of an id wins. -/
def byInstanceId (instances : List OpenCodeInstancePresence) (m : OMap JsString OpenCodeInstancePresence) :
    OMap JsString OpenCodeInstancePresence := m.addAll (·.instanceId) instances

/-- The part of a snapshot that `replaceAll` takes as it is. -/
def liveOf (instances : List OpenCodeInstancePresence) : List OpenCodeInstancePresence := instances.filter (·.isLive)

structure HistoryWrite (κ : Type) where
  key : κ
  raw : List OpenCodeInstancePresence
  /-- The call of `forgetOffline` that awaits it. -/
  forget : Option Nat

/-- How a write ends. Where it fails, the text may be stored all the same. -/
inductive WriteOutcome where
  | saved
  | failed (stored : Bool)
  deriving DecidableEq

def WriteOutcome.stores : WriteOutcome → Bool
  | .saved => true
  | .failed stored => stored

inductive ForgetPhase where
  | saving
  | saved
  | saveFailed
  | returned
  | threw
  /-- The app was closed before it ended. -/
  | lost
  deriving DecidableEq

/-- A call of `forgetOffline` that removed an entry. -/
structure ForgetCall where
  instanceId : JsString
  item : OpenCodeInstancePresence
  epoch : Nat
  phase : ForgetPhase

/-- A call of `refresh`, and the account it was sent for. -/
structure RefreshCall (κ : Type) where
  epoch : Nat
  revision : Nat
  account : Option κ

structure InstancePresences (κ : Type) where
  /-- `_storageKey`: of the account and gateway, nothing where nobody is signed in. -/
  storageKey : Option κ
  epoch : Nat
  revision : Nat
  loaded : Bool
  state : OMap JsString OpenCodeInstancePresence
  writes : List (HistoryWrite κ)
  /-- The epochs whose `_load` has not ended. -/
  loads : List Nat
  refreshes : List (RefreshCall κ)
  forgets : List ForgetCall
  /-- The preferences. -/
  files : κ → Option (List OpenCodeInstancePresence)
  /-- Ghost: the snapshots that were applied and whose they are, the last one first. -/
  snapshots : List (Option κ × List OpenCodeInstancePresence)

inductive PresenceEvent (κ : Type) where
  /-- The account or the gateway changes. -/
  | build (key : Option κ)
  /-- The `_load` of an epoch reads the cache, or the preferences fail. -/
  | load (epoch : Nat) (fails : Bool)
  /-- A realtime snapshot of the current account. -/
  | replaceAll (instances : List OpenCodeInstancePresence)
  | refresh
  /-- The response of the refresh of that index; nothing where it throws. -/
  | response (n : Nat) (instances : Option (List OpenCodeInstancePresence))
  | forgetOffline (instanceId : JsString)
  /-- The first of the writes ends. -/
  | writeCompletes (outcome : WriteOutcome)
  /-- The `forgetOffline` of that index goes on after its write. -/
  | forgetGoesOn (n : Nat)

namespace InstancePresences

variable {κ : Type}

def build (s : InstancePresences κ) (key : Option κ) : InstancePresences κ :=
  { s with
    storageKey := key
    epoch := s.epoch + 1
    loaded := false
    state := .empty
    loads := match key with
      | some _ => s.loads ++ [s.epoch + 1]
      | none => s.loads }

/-- The app starts, with what the preferences hold. -/
def init (files : κ → Option (List OpenCodeInstancePresence)) (key : Option κ) : InstancePresences κ :=
  build ⟨none, 0, 0, false, .empty, [], [], [], [], files, []⟩ key

variable (s : InstancePresences κ)

/-- `_save` comes to a write. -/
def saves : Bool := s.storageKey.isSome && s.loaded

def save (forget : Option Nat) : InstancePresences κ :=
  match s.storageKey with
  | some key => if s.loaded then { s with writes := s.writes ++ [⟨key, s.state.values, forget⟩] } else s
  | none => s

/-- The entries of the cache, all offline, and over them what is shown already. -/
def merged (cached : List OpenCodeInstancePresence) : OMap JsString OpenCodeInstancePresence :=
  (byInstanceId (cached.map (·.asOffline)) .empty).merge s.state

/-- `replaceAll` with a snapshot of that account. -/
def replaceAll (account : Option κ) (instances : List OpenCodeInstancePresence) : InstancePresences κ :=
  save { s with
    revision := s.revision + 1
    state := byInstanceId (liveOf instances) (byInstanceId (s.state.values.map (·.asOffline)) .empty)
    snapshots := (account, instances) :: s.snapshots } none

/-- After its check of the epoch. -/
def load (fails : Bool) : InstancePresences κ :=
  match s.storageKey with
  | none => s
  | some key =>
    let state := if fails then s.state else
      match s.files key with
      | some cached => s.merged cached
      | none => s.state
    save { s with state, loaded := true } none

def setForget (n : Nat) (phase : ForgetPhase) : InstancePresences κ :=
  { s with forgets := s.forgets.modify n fun f => { f with phase } }

def forgetOffline (instanceId : JsString) : InstancePresences κ :=
  match s.state.get instanceId with
  | some item =>
    if item.state = .offline then
      -- Where nothing is written there is nothing to await.
      let phase := if s.saves then ForgetPhase.saving else .returned
      save { s with
        state := s.state.delete instanceId
        forgets := s.forgets ++ [⟨instanceId, item, s.epoch, phase⟩] } (some s.forgets.length)
    else s
  | none => s

def writeCompletes [DecidableEq κ] (outcome : WriteOutcome) : InstancePresences κ :=
  match s.writes with
  | [] => s
  | w :: rest =>
    let written := { s with
      writes := rest
      files := if outcome.stores then Function.update s.files w.key (some w.raw) else s.files }
    match w.forget with
    | none => written
    | some n => written.setForget n (if outcome = .saved then .saved else .saveFailed)

def forgetGoesOn (n : Nat) : InstancePresences κ :=
  match s.forgets[n]? with
  | some ⟨_, _, _, .saved⟩ => s.setForget n .returned
  | some ⟨instanceId, item, epoch, .saveFailed⟩ =>
    { s.setForget n .threw with
      state := if epoch = s.epoch then (OMap.empty.set instanceId item).merge s.state else s.state }
  | _ => s

def step [DecidableEq κ] (s : InstancePresences κ) : PresenceEvent κ → InstancePresences κ
  | .build key => s.build key
  | .load epoch fails =>
    if epoch ∈ s.loads then
      let s := { s with loads := s.loads.erase epoch }
      if epoch = s.epoch then s.load fails else s
    else s
  | .replaceAll instances => s.replaceAll s.storageKey instances
  | .refresh => { s with refreshes := s.refreshes ++ [⟨s.epoch, s.revision, s.storageKey⟩] }
  | .response n instances =>
    match s.refreshes[n]?, instances with
    | some r, some instances =>
      if r.epoch = s.epoch ∧ r.revision = s.revision then s.replaceAll r.account instances else s
    | _, _ => s
  | .forgetOffline instanceId => s.forgetOffline instanceId
  | .writeCompletes outcome => s.writeCompletes outcome
  | .forgetGoesOn n => s.forgetGoesOn n

/-- The state after a run from the start. -/
def run [DecidableEq κ] (files : κ → Option (List OpenCodeInstancePresence)) (key : Option κ)
    (es : List (PresenceEvent κ)) : InstancePresences κ :=
  runFrom step (init files key) es

/-! ## What the steps do to the map -/

variable {s}

@[simp] theorem save_state (forget : Option Nat) : (s.save forget).state = s.state := by
  unfold save
  split
  · split <;> rfl
  · rfl

/-- Apart from the writes, a save changes nothing. -/
theorem save_eq (forget : Option Nat) : s.save forget = { s with writes := (s.save forget).writes } := by
  unfold save
  split
  · split <;> rfl
  · rfl

/-- The entries are under their own ids. -/
def Keyed (m : OMap JsString OpenCodeInstancePresence) : Prop := ∀ id p, m.get id = some p → p.instanceId = id

theorem keyed_byInstanceId {instances : List OpenCodeInstancePresence} {m : OMap JsString OpenCodeInstancePresence}
    (h : Keyed m) :
    Keyed (byInstanceId instances m) := by
  intro id p hget
  rcases OMap.get_addAll hget with hold | ⟨-, hid⟩
  · exact h id p hold
  · exact hid

theorem keyed_empty : Keyed .empty := nofun

theorem keyed_merge {m n : OMap JsString OpenCodeInstancePresence} (hm : Keyed m) (hn : Keyed n) :
    Keyed (m.merge n) := by
  intro id p hget
  rw [OMap.get_merge, Option.or_eq_some_iff] at hget
  rcases hget with hnew | ⟨-, hold⟩
  · exact hn id p hnew
  · exact hm id p hold

/-- The map with every entry offline. -/
theorem get_offline {m : OMap JsString OpenCodeInstancePresence} (h : Keyed m) (id : JsString) :
    (byInstanceId (m.values.map (·.asOffline)) .empty).get id = (m.get id).map (·.asOffline) := by
  have hids : (m.values.map (·.asOffline)).map (·.instanceId) = m.keys := by
    rw [OMap.values, OMap.keys, List.map_map, List.map_map]
    exact List.map_congr_left fun e he => h e.1 e.2 (OMap.get_eq_some.mpr he)
  cases hget : m.get id with
  | some p =>
    have hmem : p.asOffline ∈ m.values.map (·.asOffline) := List.mem_map_of_mem (OMap.mem_values.mpr ⟨id, hget⟩)
    have hput := @OMap.get_addAll_of_mem _ _ _ OpenCodeInstancePresence.instanceId _ (hids ▸ m.nodup) _ hmem .empty
    rw [OpenCodeInstancePresence.asOffline_instanceId, h id p hget] at hput
    exact hput
  | none =>
    refine OMap.get_eq_none.mpr fun hmem => OMap.get_eq_none.mp hget ?_
    rcases OMap.mem_keys_addAll.mp hmem with hempty | ⟨p, hp, hid⟩
    · exact absurd hempty List.not_mem_nil
    · rw [← hids]
      exact List.mem_map.mpr ⟨p, hp, hid⟩

/-- A snapshot's own entry, or what was there before as offline. -/
theorem get_replaceAll (h : Keyed s.state) (account : Option κ) (instances : List OpenCodeInstancePresence)
    (id : JsString) :
    (s.replaceAll account instances).state.get id =
      ((byInstanceId (liveOf instances) .empty).get id).or ((s.state.get id).map (·.asOffline)) := by
  rw [replaceAll, save_state, ← get_offline h]
  exact OMap.get_addAll_or ..

theorem get_merged (cached : List OpenCodeInstancePresence) (id : JsString) :
    (s.merged cached).get id = (s.state.get id).or ((byInstanceId (cached.map (·.asOffline)) .empty).get id) :=
  OMap.get_merge ..

/-- What comes from the cache is offline. -/
theorem cached_offline {cached : List OpenCodeInstancePresence} {id : JsString} {p : OpenCodeInstancePresence}
    (h : (byInstanceId (cached.map (·.asOffline)) .empty).get id = some p) : p.state = .offline := by
  rcases OMap.get_addAll h with hempty | ⟨hp, -⟩
  · cases hempty
  · obtain ⟨q, -, rfl⟩ := List.mem_map.mp hp
    rfl

/-! ## What holds of every run -/

/-- What is live is of the last snapshot; what awaits knows whose it is. -/
structure Sound (s : InstancePresences κ) : Prop where
  keyed : Keyed s.state
  live : ∀ id p, s.state.get id = some p → p.state ≠ .offline →
    ∃ snapshot earlier, s.snapshots = (s.storageKey, snapshot) :: earlier ∧
      (byInstanceId (liveOf snapshot) .empty).get id = some p
  sent : ∀ r ∈ s.refreshes, r.epoch ≤ s.epoch ∧ (r.epoch = s.epoch → r.account = s.storageKey)
  forgotten : ∀ f ∈ s.forgets, f.item.state = .offline ∧ f.item.instanceId = f.instanceId

/-- A step that adds offline entries at most. -/
theorem Sound.adds (hs : Sound s) {t : InstancePresences κ} (hkeyed : Keyed t.state)
    (hstate : ∀ id p, t.state.get id = some p → s.state.get id = some p ∨ p.state = .offline)
    (hkey : t.storageKey = s.storageKey)
    (hsnapshots : t.snapshots = s.snapshots) (hepoch : t.epoch = s.epoch) (hrefreshes : t.refreshes = s.refreshes)
    (hforgets : ∀ f ∈ t.forgets, f.item.state = .offline ∧ f.item.instanceId = f.instanceId) : Sound t := by
  refine ⟨hkeyed, fun id p hget hlive => ?_, ?_, hforgets⟩
  · rw [hsnapshots, hkey]
    rcases hstate id p hget with hold | hoffline
    · exact hs.live id p hold hlive
    · exact absurd hoffline hlive
  · rw [hrefreshes, hepoch, hkey]
    exact hs.sent

theorem sound_build (hs : Sound s) (key : Option κ) : Sound (s.build key) := by
  refine ⟨keyed_empty, fun id p hget => ?_, fun r hr => ?_, hs.forgotten⟩
  · change OMap.empty.get id = some p at hget
    cases hget
  have hsent := (hs.sent r hr).1
  refine ⟨Nat.le_succ_of_le hsent, fun heq => ?_⟩
  change r.epoch = s.epoch + 1 at heq
  omega

theorem sound_init (files : κ → Option (List OpenCodeInstancePresence)) (key : Option κ) : Sound (init files key) := by
  refine sound_build ⟨keyed_empty, fun id p hget => ?_, fun r hr => ?_, fun f hf => ?_⟩ key
  · change OMap.empty.get id = some p at hget
    cases hget
  · exact absurd hr List.not_mem_nil
  · exact absurd hf List.not_mem_nil

theorem sound_replaceAll (hs : Sound s) (instances : List OpenCodeInstancePresence) :
    Sound (s.replaceAll s.storageKey instances) := by
  have hget := get_replaceAll hs.keyed s.storageKey instances
  have hkeyed : Keyed (s.replaceAll s.storageKey instances).state := by
    rw [replaceAll, save_state]
    exact keyed_byInstanceId (keyed_byInstanceId keyed_empty)
  refine ⟨hkeyed, fun id p hp hlive => ?_, ?_, ?_⟩
  · rw [hget, Option.or_eq_some_iff] at hp
    rcases hp with hnew | ⟨-, hold⟩
    · rw [replaceAll, save_eq]
      exact ⟨instances, s.snapshots, rfl, hnew⟩
    · obtain ⟨q, -, rfl⟩ := Option.map_eq_some_iff.mp hold
      exact absurd rfl hlive
  · rw [replaceAll, save_eq]
    exact hs.sent
  · rw [replaceAll, save_eq]
    exact hs.forgotten

/-- A load changes the map, what is loaded and the writes. -/
theorem load_eq (fails : Bool) :
    s.load fails =
      { s with state := (s.load fails).state, loaded := (s.load fails).loaded, writes := (s.load fails).writes } := by
  unfold load
  split
  · rfl
  · dsimp only
    rw [save_eq]

/-- It merges what the file of the account holds, or leaves the map as it is. -/
theorem load_state (fails : Bool) :
    (s.load fails).state = s.state ∨
      ∃ key cached, s.storageKey = some key ∧ s.files key = some cached ∧ (s.load fails).state = s.merged cached := by
  unfold load
  split
  · exact .inl rfl
  · rename_i key hkey
    dsimp only
    rw [save_state]
    split
    · exact .inl rfl
    · split
      · rename_i cached hfile
        exact .inr ⟨key, cached, hkey, hfile, rfl⟩
      · exact .inl rfl

theorem sound_load (hs : Sound s) (fails : Bool) : Sound (s.load fails) := by
  rw [load_eq]
  rcases load_state (s := s) fails with hsame | ⟨key, cached, -, -, hmerged⟩
  · rw [hsame]
    exact hs.adds hs.keyed (fun id p hget => .inl hget) rfl rfl rfl rfl hs.forgotten
  · rw [hmerged]
    refine hs.adds (keyed_merge (keyed_byInstanceId keyed_empty) hs.keyed)
      (fun id p hget => ?_) rfl rfl rfl rfl hs.forgotten
    rw [get_merged, Option.or_eq_some_iff] at hget
    rcases hget with hold | ⟨-, hcached⟩
    · exact .inl hold
    · exact .inr (cached_offline hcached)

theorem keyed_delete {m : OMap JsString OpenCodeInstancePresence} (h : Keyed m) (id : JsString) :
    Keyed (m.delete id) := by
  intro id' p hget
  rw [OMap.get_delete] at hget
  split at hget
  · cases hget
  · exact h id' p hget

theorem sound_forgetOffline (hs : Sound s) (id : JsString) : Sound (s.forgetOffline id) := by
  unfold forgetOffline
  split
  · rename_i item hitem
    split
    · rename_i hoffline
      dsimp only
      rw [save_eq]
      refine hs.adds (keyed_delete hs.keyed id) (fun id' p hget => .inl ?_) rfl rfl rfl rfl ?_
      · change (s.state.delete id).get id' = some p at hget
        rw [OMap.get_delete] at hget
        split at hget
        · cases hget
        · exact hget
      · intro f hf
        rcases List.mem_append.mp hf with hold | hnew
        · exact hs.forgotten f hold
        · rw [List.mem_singleton.mp hnew]
          exact ⟨hoffline, hs.keyed id item hitem⟩
    · exact hs
  · exact hs

/-- A phase is set, and what the calls removed stays what it is. -/
theorem forgotten_setForget (hs : Sound s) (n : Nat) (phase : ForgetPhase) :
    ∀ f ∈ (s.setForget n phase).forgets, f.item.state = .offline ∧ f.item.instanceId = f.instanceId := by
  intro f hf
  obtain ⟨i, hi⟩ := List.mem_iff_getElem?.mp hf
  rw [setForget, List.getElem?_modify] at hi
  obtain ⟨f', hget, rfl⟩ := Option.map_eq_some_iff.mp hi
  have hold := hs.forgotten f' (List.mem_of_getElem? hget)
  split
  · exact hold
  · exact hold

theorem sound_forgetGoesOn (hs : Sound s) (n : Nat) : Sound (s.forgetGoesOn n) := by
  unfold forgetGoesOn
  split
  · exact hs.adds hs.keyed (fun id p hget => .inl hget) rfl rfl rfl rfl (forgotten_setForget hs n _)
  · rename_i id item epoch hget
    have hitem := hs.forgotten _ (List.mem_of_getElem? hget)
    refine hs.adds ?_ ?_ rfl rfl rfl rfl (forgotten_setForget hs n _)
    · dsimp only
      split
      · refine keyed_merge (fun id' p hp => ?_) hs.keyed
        rw [OMap.get_set] at hp
        split at hp
        · rename_i heq
          cases hp
          exact hitem.2.trans heq.symm
        · cases hp
      · exact hs.keyed
    · intro id' p hp
      dsimp only at hp
      split at hp
      · rw [OMap.get_merge, Option.or_eq_some_iff, OMap.get_set] at hp
        rcases hp with hold | ⟨-, hnew⟩
        · exact .inl hold
        · split at hnew
          · cases hnew
            exact .inr hitem.1
          · cases hnew
      · exact .inl hp
  · exact hs

variable [DecidableEq κ]

theorem sound_writeCompletes (hs : Sound s) (outcome : WriteOutcome) : Sound (s.writeCompletes outcome) := by
  unfold writeCompletes
  split
  · exact hs
  · rename_i w rest hwrites
    dsimp only
    split
    · exact hs.adds hs.keyed (fun id p hget => .inl hget) rfl rfl rfl rfl hs.forgotten
    · exact hs.adds hs.keyed (fun id p hget => .inl hget) rfl rfl rfl rfl (forgotten_setForget hs _ _)

/-- A response is ignored, or its snapshot is applied where nothing has overtaken it. -/
theorem response_cases (n : Nat) (instances : Option (List OpenCodeInstancePresence)) :
    s.step (.response n instances) = s ∨
      ∃ r snapshot, s.refreshes[n]? = some r ∧ r.epoch = s.epoch ∧ r.revision = s.revision ∧ instances = some snapshot ∧
        s.step (.response n instances) = s.replaceAll r.account snapshot := by
  cases hget : s.refreshes[n]? with
  | none =>
    refine .inl ?_
    unfold step
    simp only [hget]
  | some r =>
    cases instances with
    | none =>
      refine .inl ?_
      unfold step
      simp only [hget]
    | some snapshot =>
      by_cases hsame : r.epoch = s.epoch ∧ r.revision = s.revision
      · refine .inr ⟨r, snapshot, rfl, hsame.1, hsame.2, rfl, ?_⟩
        unfold step
        simp only [hget, if_pos hsame]
      · refine .inl ?_
        unfold step
        simp only [hget, if_neg hsame]

theorem sound_step (hs : Sound s) (e : PresenceEvent κ) : Sound (s.step e) := by
  cases e with
  | build key => exact sound_build hs key
  | load epoch fails =>
    rw [step]
    split
    · have herased : Sound { s with loads := s.loads.erase epoch } :=
        hs.adds hs.keyed (fun id p hget => .inl hget) rfl rfl rfl rfl hs.forgotten
      dsimp only
      split
      · exact sound_load herased fails
      · exact herased
    · exact hs
  | replaceAll instances => exact sound_replaceAll hs instances
  | refresh =>
    refine ⟨hs.keyed, hs.live, fun r hr => ?_, hs.forgotten⟩
    rcases List.mem_append.mp hr with hold | hnew
    · exact hs.sent r hold
    · rw [List.mem_singleton.mp hnew]
      exact ⟨Nat.le_refl _, fun _ => rfl⟩
  | response n instances =>
    rcases response_cases (s := s) n instances with hsame | ⟨r, snapshot, hget, hepoch, -, -, hstep⟩
    · rwa [hsame]
    · rw [hstep, (hs.sent r (List.mem_of_getElem? hget)).2 hepoch]
      exact sound_replaceAll hs snapshot
  | forgetOffline id => exact sound_forgetOffline hs id
  | writeCompletes outcome => exact sound_writeCompletes hs outcome
  | forgetGoesOn n => exact sound_forgetGoesOn hs n

theorem sound_run (files : κ → Option (List OpenCodeInstancePresence)) (key : Option κ) (es : List (PresenceEvent κ)) :
    Sound (run files key es) :=
  runFrom_inv (I := Sound) (fun _ e hs => sound_step hs e) (sound_init files key) es

/-! ## Overtaken refreshes -/

/-- No step takes back a revision or a refresh, and a snapshot that is applied is a revision. -/
theorem step_grows (e : PresenceEvent κ) : s.revision ≤ (s.step e).revision ∧ s.refreshes <+: (s.step e).refreshes := by
  cases e with
  | build key => exact ⟨Nat.le_refl _, List.prefix_rfl⟩
  | load epoch fails =>
    rw [step]
    split
    · dsimp only
      split
      · rw [load_eq]
        exact ⟨Nat.le_refl _, List.prefix_rfl⟩
      · exact ⟨Nat.le_refl _, List.prefix_rfl⟩
    · exact ⟨Nat.le_refl _, List.prefix_rfl⟩
  | replaceAll instances =>
    rw [step, replaceAll, save_eq]
    exact ⟨Nat.le_succ _, List.prefix_rfl⟩
  | refresh => exact ⟨Nat.le_refl _, List.prefix_append ..⟩
  | response n instances =>
    rcases response_cases (s := s) n instances with hsame | ⟨r, snapshot, -, -, -, -, hstep⟩
    · rw [hsame]
      exact ⟨Nat.le_refl _, List.prefix_rfl⟩
    · rw [hstep, replaceAll, save_eq]
      exact ⟨Nat.le_succ _, List.prefix_rfl⟩
  | forgetOffline id =>
    rw [step, forgetOffline]
    split
    · split
      · dsimp only
        rw [save_eq]
        exact ⟨Nat.le_refl _, List.prefix_rfl⟩
      · exact ⟨Nat.le_refl _, List.prefix_rfl⟩
    · exact ⟨Nat.le_refl _, List.prefix_rfl⟩
  | writeCompletes outcome =>
    rw [step, writeCompletes]
    split
    · exact ⟨Nat.le_refl _, List.prefix_rfl⟩
    · dsimp only
      split
      · exact ⟨Nat.le_refl _, List.prefix_rfl⟩
      · exact ⟨Nat.le_refl _, List.prefix_rfl⟩
  | forgetGoesOn n =>
    rw [step, forgetGoesOn]
    split
    · exact ⟨Nat.le_refl _, List.prefix_rfl⟩
    · exact ⟨Nat.le_refl _, List.prefix_rfl⟩
    · exact ⟨Nat.le_refl _, List.prefix_rfl⟩

theorem run_grows (es : List (PresenceEvent κ)) :
    s.revision ≤ (runFrom step s es).revision ∧ s.refreshes <+: (runFrom step s es).refreshes :=
  runFrom_inv (I := fun t : InstancePresences κ => s.revision ≤ t.revision ∧ s.refreshes <+: t.refreshes)
    (fun _ e h => ⟨Nat.le_trans h.1 (step_grows e).1, h.2.trans (step_grows e).2⟩) ⟨Nat.le_refl _, List.prefix_rfl⟩ es

/-- A snapshot that comes between a refresh and its response makes the response one that does nothing. -/
theorem response_overtaken {mid : List (PresenceEvent κ)} {instances : List OpenCodeInstancePresence}
    (h : .replaceAll instances ∈ mid)
    (answer : Option (List OpenCodeInstancePresence)) :
    (runFrom step (s.step .refresh) mid).step (.response s.refreshes.length answer) = runFrom step
      (s.step .refresh) mid := by
  obtain ⟨before, after, rfl⟩ := List.append_of_mem h
  have hsent : (runFrom step (s.step .refresh)
    (before ++ .replaceAll instances :: after)).refreshes[s.refreshes.length]? =
      some ⟨s.epoch, s.revision, s.storageKey⟩ := by
    obtain ⟨rest, hrest⟩ := (run_grows (s := s.step .refresh) (before ++ .replaceAll instances :: after)).2
    rw [← hrest]
    simp [step]
  have hrevision : s.revision <
    (runFrom step (s.step .refresh) (before ++ .replaceAll instances :: after)).revision := by
    rw [runFrom_append, runFrom_cons]
    have hbefore := (run_grows (s := s.step .refresh) before).1
    have hafter := (run_grows (s := (runFrom step (s.step .refresh) before).step (.replaceAll instances)) after).1
    have hsnapshot : ((runFrom step (s.step .refresh) before).step (.replaceAll instances)).revision =
        (runFrom step (s.step .refresh) before).revision + 1 := by
      rw [step, replaceAll, save_eq]
    change s.revision ≤ _ at hbefore
    omega
  rcases response_cases (s := runFrom step (s.step .refresh) (before ++ .replaceAll instances :: after))
    s.refreshes.length answer with
    hsame | ⟨r, snapshot, hget, -, hequal, -⟩
  · exact hsame
  · obtain rfl := Option.some.inj (hsent.symm.trans hget)
    change s.revision = _ at hequal
    omega

/-! ## Known ids -/

omit [DecidableEq κ] in
/-- A snapshot takes no id away. -/
theorem known_replaceAll (hs : Sound s) {id : JsString} (h : id ∈ s.state.keys) (account : Option κ)
    (instances : List OpenCodeInstancePresence) :
    id ∈ (s.replaceAll account instances).state.keys := by
  obtain ⟨p, hp⟩ := OMap.mem_keys.mp h
  have hget := get_replaceAll hs.keyed account instances id
  rw [hp] at hget
  cases hnew : (byInstanceId (liveOf instances) .empty).get id with
  | some q => exact OMap.mem_keys.mpr ⟨q, by rw [hget, hnew]; rfl⟩
  | none => exact OMap.mem_keys.mpr ⟨p.asOffline, by rw [hget, hnew]; rfl⟩

theorem known_merge {m n : OMap JsString OpenCodeInstancePresence} {id : JsString} (h : id ∈ n.keys) :
    id ∈ (m.merge n).keys := by
  obtain ⟨p, hp⟩ := OMap.mem_keys.mp h
  exact OMap.mem_keys.mpr ⟨p, by rw [OMap.get_merge, hp]; rfl⟩

/-- Within an account an id goes by its `forgetOffline` only. -/
theorem known_step (hs : Sound s) {e : PresenceEvent κ} {id : JsString} (h : id ∈ s.state.keys)
    (hbuild : ∀ key, e ≠ .build key)
    (hforget : e ≠ .forgetOffline id) : id ∈ (s.step e).state.keys := by
  cases e with
  | build key => exact absurd rfl (hbuild key)
  | load epoch fails =>
    rw [step]
    split
    · dsimp only
      split
      · rcases load_state (s := { s with loads := s.loads.erase epoch }) fails with hsame | ⟨key, cached, -, -, hmerged⟩
        · rwa [hsame]
        · rw [hmerged]
          exact known_merge h
      · exact h
    · exact h
  | replaceAll instances => exact known_replaceAll hs h _ instances
  | refresh => exact h
  | response n instances =>
    rcases response_cases (s := s) n instances with hsame | ⟨r, snapshot, -, -, -, -, hstep⟩
    · rwa [hsame]
    · rw [hstep]
      exact known_replaceAll hs h _ snapshot
  | forgetOffline id' =>
    have hne : id ≠ id' := fun heq => hforget (heq ▸ rfl)
    rw [step, forgetOffline]
    split
    · split
      · dsimp only
        rw [save_state]
        obtain ⟨p, hp⟩ := OMap.mem_keys.mp h
        exact OMap.mem_keys.mpr ⟨p, by rw [OMap.get_delete_ne _ hne, hp]⟩
      · exact h
    · exact h
  | writeCompletes outcome =>
    rw [step, writeCompletes]
    split
    · exact h
    · dsimp only
      split
      · exact h
      · exact h
  | forgetGoesOn n =>
    rw [step, forgetGoesOn]
    split
    · exact h
    · dsimp only
      split
      · exact known_merge h
      · exact h
    · exact h

/-- What is shown of the instances in a run. -/
structure NeverLive (files : κ → Option (List OpenCodeInstancePresence)) (key : Option κ)
    (es : List (PresenceEvent κ)) : Prop where
  /-- What is not offline is the entry of the last snapshot, which is of the current account. -/
  live : ∀ id p, (run files key es).state.get id = some p → p.state ≠ .offline →
    ∃ snapshot earlier, (run files key es).snapshots = ((run files key es).storageKey, snapshot) :: earlier ∧
      (byInstanceId (liveOf snapshot) .empty).get id = some p
  /-- The response of a refresh does nothing once a realtime snapshot has come after the refresh. -/
  overtaken : ∀ (before mid : List (PresenceEvent κ)) (instances : List OpenCodeInstancePresence)
    (answer : Option (List OpenCodeInstancePresence)) (after : List (PresenceEvent κ)),
    es = before ++ .refresh :: (mid ++ .response (run files key before).refreshes.length answer :: after) →
      .replaceAll instances ∈ mid →
      (run files key (before ++ .refresh :: mid)).step (.response (run files key before).refreshes.length answer) =
        run files key (before ++ .refresh :: mid)
  /-- While the account does not change, an id stays that is not forgotten. -/
  known : ∀ (before after : List (PresenceEvent κ)) (id : JsString), es = before ++ after →
    id ∈ (run files key before).state.keys →
    (∀ e ∈ after, (∀ key, e ≠ .build key) ∧ e ≠ .forgetOffline id) → id ∈ (run files key es).state.keys

theorem cached_never_live (files : κ → Option (List OpenCodeInstancePresence)) (key : Option κ)
    (es : List (PresenceEvent κ)) :
    NeverLive files key es := by
  refine ⟨(sound_run files key es).live, ?_, ?_⟩
  · intro before mid instances answer after hsplit hmem
    have hrun : run files key (before ++ .refresh :: mid) = runFrom step ((run files key before).step .refresh) mid :=
      runFrom_append _ before (.refresh :: mid)
    rw [hrun]
    exact response_overtaken hmem answer
  · intro before after id hsplit h hafter
    have hrun : run files key es = runFrom step (run files key before) after := by
      rw [hsplit]
      exact runFrom_append ..
    have hkeep : ∀ (after : List (PresenceEvent κ)) (s : InstancePresences κ), Sound s → id ∈ s.state.keys →
        (∀ e ∈ after, (∀ key, e ≠ .build key) ∧ e ≠ .forgetOffline id) → id ∈ (runFrom step s after).state.keys := by
      intro after
      induction after with
      | nil => exact fun s _ h _ => h
      | cons e after ih =>
        intro s hs h hafter
        obtain ⟨⟨hbuild, hforget⟩, hrest⟩ := List.forall_mem_cons.mp hafter
        exact ih _ (sound_step hs e) (known_step hs h hbuild hforget) hrest
    rw [hrun]
    exact hkeep after _ (sound_run files key before) h hafter

end InstancePresences

end NotifyHub.Client.Presence
