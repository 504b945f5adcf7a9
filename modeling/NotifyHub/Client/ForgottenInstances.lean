/-
  NotifyHub.Client.ForgottenInstances — how long a `forgetOffline` of
  `NotifyHub.Client.InstancePresence` lasts, over runs of the app: a run ends at any time,
  and with it what is in flight; the preferences stay.

  - `forgotten_lasts`: where every offline id is forgotten once the cache is loaded (or does
    not hold it) and while no other `forgetOffline` of it is under way, it stays away.
  - `forgotten_comes_back`: forgotten before the cache is loaded, it comes back with it.
-/

import NotifyHub.Client.InstancePresence

namespace NotifyHub.Client.Presence

inductive AppEvent (κ : Type) where
  | inRun (e : PresenceEvent κ)
  /-- The app ends, at any time, and starts. -/
  | restart (key : Option κ)

/-- The call goes no further. -/
def ForgetPhase.finished : ForgetPhase → Bool
  | .returned | .threw | .lost => true
  | .saving | .saved | .saveFailed => false

def ForgetCall.lose (f : ForgetCall) : ForgetCall := if f.phase.finished then f else { f with phase := .lost }

namespace InstancePresences

variable {κ : Type}

/-- What is left of a run is what the preferences hold. -/
def restart (s : InstancePresences κ) (key : Option κ) : InstancePresences κ :=
  { init s.files key with
    forgets := s.forgets.map ForgetCall.lose
    snapshots := s.snapshots }

section

variable [DecidableEq κ]

def appStep (s : InstancePresences κ) : AppEvent κ → InstancePresences κ
  | .inRun e => s.step e
  | .restart key => s.restart key

def runApp (files : κ → Option (List OpenCodeInstancePresence)) (key : Option κ) (es : List (AppEvent κ)) :
    InstancePresences κ :=
  runFrom appStep (init files key) es

end

/-- The id is one of those of the list. -/
def Lists (id : JsString) (l : List OpenCodeInstancePresence) : Prop := ∃ p ∈ l, p.instanceId = id

/-- The file of the account holds the id, or a write of it will. -/
def Stored (s : InstancePresences κ) (key : κ) (id : JsString) : Prop :=
  (∃ cached, s.files key = some cached ∧ Lists id cached) ∨ ∃ w ∈ s.writes, w.key = key ∧ Lists id w.raw

/-- A live snapshot that contains the id is received. -/
def Brings (id : JsString) : AppEvent κ → Prop
  | .inRun (.replaceAll instances) => Lists id (liveOf instances)
  | .inRun (.response _ (some instances)) => Lists id (liveOf instances)
  | _ => False

/-- An offline id is forgotten once the cache is loaded, or where the cache does not hold it, and while no other call
    forgets it; the account does not change while one does. -/
def Safe (s : InstancePresences κ) : AppEvent κ → Prop
  | .inRun (.build _) => ∀ f ∈ s.forgets, f.phase.finished = true
  | .inRun (.forgetOffline id) => ∀ item, s.state.get id = some item → item.state = .offline →
    (s.loaded = true ∨ ∀ key, s.storageKey = some key → ¬ s.Stored key id) ∧
      ∀ f ∈ s.forgets, f.instanceId = id → f.phase.finished = true
  | _ => True

/-! ## What a step writes -/

variable {s : InstancePresences κ}

/-- A save writes the map under the key of the account, or nothing. -/
theorem save_writes (forget : Option Nat) :
    ∃ new, (s.save forget).writes = s.writes ++ new ∧
      (new = [] ∨ s.saves = true ∧ ∃ key, s.storageKey = some key ∧ new = [⟨key, s.state.values, forget⟩]) := by
  unfold save saves
  cases hkey : s.storageKey with
  | none => exact ⟨[], (List.append_nil _).symm, .inl rfl⟩
  | some key =>
    cases hloaded : s.loaded with
    | false => exact ⟨[], (List.append_nil _).symm, .inl rfl⟩
    | true => exact ⟨[⟨key, s.state.values, forget⟩], rfl, .inr ⟨rfl, key, rfl, rfl⟩⟩

/-- The map's values have the map's ids. -/
theorem lists_values {m : OMap JsString OpenCodeInstancePresence} (h : Keyed m) (id : JsString) : Lists id m.values ↔
    id ∈ m.keys := by
  constructor
  · rintro ⟨p, hp, rfl⟩
    obtain ⟨k, hk⟩ := OMap.mem_values.mp hp
    exact OMap.mem_keys.mpr ⟨p, (h k p hk).symm ▸ hk⟩
  · intro hmem
    obtain ⟨p, hp⟩ := OMap.mem_keys.mp hmem
    exact ⟨p, OMap.mem_values.mpr ⟨id, hp⟩, h id p hp⟩

variable [DecidableEq κ]

/-- A step that is not the end of a write leaves the files, and what it writes is the map it leaves. -/
theorem writes_step {e : PresenceEvent κ} (h : ∀ outcome, e ≠ .writeCompletes outcome) :
    (s.step e).files = s.files ∧
      ∃ new, (s.step e).writes = s.writes ++ new ∧
        ∀ w ∈ new, (s.step e).storageKey = some w.key ∧ w.raw = (s.step e).state.values := by
  have hsame : ∃ new, s.writes = s.writes ++ new ∧ ∀ w ∈ new, s.storageKey = some w.key ∧ w.raw = s.state.values :=
    ⟨[], (List.append_nil _).symm, nofun⟩
  have hsave : ∀ (t : InstancePresences κ) (forget : Option Nat), t.files = s.files → t.writes = s.writes →
      (t.save forget).files = s.files ∧ ∃ new, (t.save forget).writes = s.writes ++ new ∧
        ∀ w ∈ new, (t.save forget).storageKey = some w.key ∧ w.raw = (t.save forget).state.values := by
    intro t forget hfiles hwrites
    obtain ⟨new, hnew, hshape⟩ := save_writes (s := t) forget
    rw [save_eq] at hnew ⊢
    refine ⟨hfiles, new, by rw [← hwrites]; exact hnew, fun w hw => ?_⟩
    rcases hshape with rfl | ⟨-, key, hkey, rfl⟩
    · exact absurd hw List.not_mem_nil
    · rw [List.mem_singleton.mp hw]
      exact ⟨hkey, rfl⟩
  cases e with
  | build key => exact ⟨rfl, [], (List.append_nil _).symm, nofun⟩
  | load epoch fails =>
    unfold step
    dsimp only
    split
    · split
      · unfold load
        split
        · exact ⟨rfl, [], (List.append_nil _).symm, nofun⟩
        · exact hsave _ none rfl rfl
      · exact ⟨rfl, [], (List.append_nil _).symm, nofun⟩
    · exact ⟨rfl, hsame⟩
  | replaceAll instances => exact hsave _ none rfl rfl
  | refresh => exact ⟨rfl, [], (List.append_nil _).symm, nofun⟩
  | response n instances =>
    rcases response_cases (s := s) n instances with heq | ⟨r, snapshot, -, -, -, -, hstep⟩
    · rw [heq]
      exact ⟨rfl, hsame⟩
    · rw [hstep]
      exact hsave _ none rfl rfl
  | forgetOffline id =>
    unfold step
    dsimp only
    unfold forgetOffline
    split
    · split
      · exact hsave _ _ rfl rfl
      · exact ⟨rfl, hsame⟩
    · exact ⟨rfl, hsame⟩
  | writeCompletes outcome => exact absurd rfl (h outcome)
  | forgetGoesOn n =>
    unfold step
    dsimp only
    unfold forgetGoesOn
    split
    · exact ⟨rfl, [], (List.append_nil _).symm, nofun⟩
    · exact ⟨rfl, [], (List.append_nil _).symm, nofun⟩
    · exact ⟨rfl, hsame⟩

/-- What becomes stored by such a step is in the map. -/
theorem stored_step (hs : Sound s) {e : PresenceEvent κ} (h : ∀ outcome, e ≠ .writeCompletes outcome)
    {key : κ} {id : JsString}
    (hstored : (s.step e).Stored key id) : s.Stored key id ∨ (s.step e).storageKey = some key ∧
      id ∈ (s.step e).state.keys := by
  obtain ⟨hfiles, new, hnew, hraw⟩ := writes_step (s := s) h
  rcases hstored with ⟨cached, hfile, hid⟩ | ⟨w, hw, hkey, hid⟩
  · rw [hfiles] at hfile
    exact .inl (.inl ⟨cached, hfile, hid⟩)
  · rw [hnew] at hw
    rcases List.mem_append.mp hw with hold | hin
    · exact .inl (.inr ⟨w, hold, hkey, hid⟩)
    · obtain ⟨hsame, hvalues⟩ := hraw w hin
      rw [hvalues] at hid
      exact .inr ⟨hkey ▸ hsame, (lists_values (sound_step hs e).keyed id).mp hid⟩

theorem lists_of_get {instances : List OpenCodeInstancePresence} {id : JsString} {p : OpenCodeInstancePresence}
    (h : (byInstanceId instances .empty).get id = some p) : Lists id instances := by
  rcases OMap.get_addAll h with hempty | ⟨hp, hid⟩
  · cases hempty
  · exact ⟨p, hp, hid⟩

omit [DecidableEq κ] in
/-- A snapshot brings in what it lists. -/
theorem new_replaceAll (hs : Sound s) {account : Option κ} {instances : List OpenCodeInstancePresence} {id : JsString}
    (hnot : id ∉ s.state.keys) (h : id ∈ (s.replaceAll account instances).state.keys) :
    Lists id (liveOf instances) := by
  obtain ⟨p, hp⟩ := OMap.mem_keys.mp h
  rw [get_replaceAll hs.keyed, OMap.get_eq_none.mpr hnot, Option.map_none, Option.or_none] at hp
  exact lists_of_get hp

/-- How an id comes into the map: in a snapshot, from the cache, or back after its save has failed. -/
theorem new_id (hs : Sound s) {e : PresenceEvent κ} {id : JsString} (hnot : id ∉ s.state.keys)
    (h : id ∈ (s.step e).state.keys) :
    Brings id (.inRun e : AppEvent κ) ∨
      (∃ fails, e = .load s.epoch fails ∧ s.epoch ∈ s.loads ∧ ∃ key, s.storageKey = some key ∧ s.Stored key id) ∨
      ∃ n f, e = .forgetGoesOn n ∧ s.forgets[n]? = some f ∧ f.phase = .saveFailed ∧ f.instanceId = id := by
  have hsame : (s.step e).state = s.state → Brings id (.inRun e : AppEvent κ) ∨
      (∃ fails, e = .load s.epoch fails ∧ s.epoch ∈ s.loads ∧ ∃ key, s.storageKey = some key ∧ s.Stored key id) ∨
      ∃ n f, e = .forgetGoesOn n ∧ s.forgets[n]? = some f ∧ f.phase = .saveFailed ∧ f.instanceId = id :=
    fun heq => absurd (heq ▸ h) hnot
  cases e with
  | build key => exact absurd h List.not_mem_nil
  | load epoch fails =>
    by_cases hload : epoch ∈ s.loads ∧ epoch = s.epoch
    · obtain ⟨hmem, rfl⟩ := hload
      have hstep : s.step (.load s.epoch fails) =
        ({ s with loads := s.loads.erase s.epoch } : InstancePresences κ).load fails := by
        unfold step
        dsimp only
        rw [if_pos hmem, if_pos rfl]
      rw [hstep] at h
      rcases load_state (s := { s with loads := s.loads.erase s.epoch }) fails with
        heq | ⟨key, cached, hkey, hfile, hmerged⟩
      · rw [heq] at h
        exact absurd h hnot
      · rw [hmerged] at h
        obtain ⟨p, hp⟩ := OMap.mem_keys.mp h
        rw [get_merged, Option.or_eq_some_iff] at hp
        rcases hp with hold | ⟨-, hcached⟩
        · exact absurd (OMap.mem_keys.mpr ⟨p, hold⟩) hnot
        · obtain ⟨q, hq, hid⟩ := lists_of_get hcached
          obtain ⟨q', hq', rfl⟩ := List.mem_map.mp hq
          exact .inr (.inl ⟨fails, rfl, hmem, key, hkey, .inl ⟨cached, hfile, q', hq', hid⟩⟩)
    · refine hsame ?_
      unfold step
      dsimp only
      split
      · rename_i hmem
        rw [if_neg fun heq => hload ⟨hmem, heq⟩]
      · rfl
  | replaceAll instances => exact .inl (new_replaceAll hs hnot h)
  | refresh => exact hsame rfl
  | response n instances =>
    rcases response_cases (s := s) n instances with heq | ⟨r, snapshot, -, -, -, rfl, hstep⟩
    · exact hsame (by rw [heq])
    · rw [hstep] at h
      exact .inl (new_replaceAll hs hnot h)
  | forgetOffline id' =>
    refine absurd ?_ hnot
    unfold step at h
    dsimp only at h
    unfold forgetOffline at h
    split at h
    · split at h
      · dsimp only at h
        rw [save_state] at h
        obtain ⟨p, hp⟩ := OMap.mem_keys.mp h
        rw [OMap.get_delete] at hp
        split at hp
        · cases hp
        · exact OMap.mem_keys.mpr ⟨p, hp⟩
      · exact h
    · exact h
  | writeCompletes outcome =>
    refine hsame ?_
    unfold step
    dsimp only
    unfold writeCompletes
    split
    · rfl
    · dsimp only
      split <;> rfl
  | forgetGoesOn n =>
    unfold step at h
    dsimp only at h
    unfold forgetGoesOn at h
    split at h
    · exact absurd h hnot
    · rename_i id' item epoch hget
      dsimp only at h
      split at h
      · obtain ⟨p, hp⟩ := OMap.mem_keys.mp h
        rw [OMap.get_merge, Option.or_eq_some_iff, OMap.get_set] at hp
        rcases hp with hold | ⟨-, hnew⟩
        · exact absurd (OMap.mem_keys.mpr ⟨p, hold⟩) hnot
        · split at hnew
          · rename_i heq
            exact .inr (.inr ⟨n, _, rfl, hget, rfl, heq.symm⟩)
          · cases hnew
      · exact absurd h hnot
    · exact absurd h hnot

/-! ## The calls of `forgetOffline` -/

omit [DecidableEq κ] in
/-- An offline entry goes; it is saved, or there is nothing to save. -/
theorem forgetOffline_cases (id : JsString) :
    s.forgetOffline id = s ∨
      ∃ item, s.state.get id = some item ∧ item.state = .offline ∧
        ((s.saves = false ∧ s.forgetOffline id =
            { s with state := s.state.delete id, forgets := s.forgets ++ [⟨id, item, s.epoch, .returned⟩] }) ∨
          ∃ key, s.storageKey = some key ∧ s.loaded = true ∧ s.forgetOffline id =
            { s with
              state := s.state.delete id
              forgets := s.forgets ++ [⟨id, item, s.epoch, .saving⟩]
              writes := s.writes ++ [⟨key, (s.state.delete id).values, some s.forgets.length⟩] }) := by
  unfold forgetOffline
  split
  · rename_i item hitem
    split
    · rename_i hoffline
      refine .inr ⟨item, hitem, hoffline, ?_⟩
      unfold saves save
      cases hkey : s.storageKey with
      | none => exact .inl ⟨rfl, by simp⟩
      | some key =>
        cases hloaded : s.loaded with
        | false => exact .inl ⟨rfl, by simp⟩
        | true => exact .inr ⟨key, rfl, rfl, by simp⟩
    · exact .inl rfl
  · exact .inl rfl

omit [DecidableEq κ] in
/-- A call goes on after its write. -/
theorem forgetGoesOn_cases (n : Nat) :
    s.forgetGoesOn n = s ∨
      ∃ f, s.forgets[n]? = some f ∧
        ((f.phase = .saved ∧ s.forgetGoesOn n = s.setForget n .returned) ∨
          (f.phase = .saveFailed ∧ s.forgetGoesOn n =
            { s.setForget n .threw with
              state := if f.epoch = s.epoch then (OMap.empty.set f.instanceId f.item).merge s.state
                else s.state })) := by
  unfold forgetGoesOn
  split
  · rename_i hget
    exact .inr ⟨_, hget, .inl ⟨rfl, rfl⟩⟩
  · rename_i hget
    exact .inr ⟨_, hget, .inr ⟨rfl, rfl⟩⟩
  · exact .inl rfl

/-- The first of the writes ends, and the call that awaits it can go on. -/
theorem writeCompletes_cases (outcome : WriteOutcome) :
    s.writeCompletes outcome = s ∨
      ∃ w rest, s.writes = w :: rest ∧
        ((w.forget = none ∧ (s.writeCompletes outcome).forgets = s.forgets) ∨
          ∃ n, w.forget = some n ∧
            (s.writeCompletes outcome).forgets =
              (s.setForget n (if outcome = .saved then .saved else .saveFailed)).forgets) ∧
        s.writeCompletes outcome = { s with
          writes := rest
          files := if outcome.stores then Function.update s.files w.key (some w.raw) else s.files
          forgets := (s.writeCompletes outcome).forgets } := by
  unfold writeCompletes
  split
  · exact .inl rfl
  · rename_i w rest hwrites
    refine .inr ⟨w, rest, hwrites, ?_⟩
    dsimp only
    cases hforget : w.forget with
    | none => exact ⟨.inl ⟨rfl, rfl⟩, rfl⟩
    | some n => exact ⟨.inr ⟨n, rfl, rfl⟩, rfl⟩

omit [DecidableEq κ] in
/-- The steps of a call, and the others. -/
theorem forget_cases (e : PresenceEvent κ) :
    ((∀ id, e ≠ .forgetOffline id) ∧ (∀ outcome, e ≠ .writeCompletes outcome) ∧ ∀ n, e ≠ .forgetGoesOn n) ∨
      (∃ id, e = .forgetOffline id) ∨ (∃ outcome, e = .writeCompletes outcome) ∨ ∃ n, e = .forgetGoesOn n := by
  cases e with
  | forgetOffline id => exact .inr (.inl ⟨id, rfl⟩)
  | writeCompletes outcome => exact .inr (.inr (.inl ⟨outcome, rfl⟩))
  | forgetGoesOn n => exact .inr (.inr (.inr ⟨n, rfl⟩))
  | build key => simp
  | load epoch fails => simp
  | replaceAll instances => simp
  | refresh => simp
  | response n instances => simp

/-- The other steps leave the calls, and what they write nobody awaits. -/
theorem plain_step {e : PresenceEvent κ} (hforget : ∀ id, e ≠ .forgetOffline id)
    (hwrite : ∀ outcome, e ≠ .writeCompletes outcome)
    (hgoes : ∀ n, e ≠ .forgetGoesOn n) :
    (s.step e).forgets = s.forgets ∧ ∃ new, (s.step e).writes = s.writes ++ new ∧ ∀ w ∈ new, w.forget = none := by
  have hsame : ∃ new, s.writes = s.writes ++ new ∧ ∀ w ∈ new, w.forget = none := ⟨[], (List.append_nil _).symm, nofun⟩
  have hsave : ∀ t : InstancePresences κ, t.forgets = s.forgets → t.writes = s.writes →
      (t.save none).forgets = s.forgets ∧ ∃ new, (t.save none).writes = s.writes ++ new ∧ ∀ w ∈ new,
      w.forget = none := by
    intro t hforgets hwrites
    obtain ⟨new, hnew, hshape⟩ := save_writes (s := t) none
    rw [save_eq] at hnew ⊢
    refine ⟨hforgets, new, by rw [← hwrites]; exact hnew, fun w hw => ?_⟩
    rcases hshape with rfl | ⟨-, key, -, rfl⟩
    · exact absurd hw List.not_mem_nil
    · rw [List.mem_singleton.mp hw]
  cases e with
  | build key => exact ⟨rfl, hsame⟩
  | load epoch fails =>
    unfold step
    dsimp only
    split
    · split
      · unfold load
        split
        · exact ⟨rfl, hsame⟩
        · exact hsave _ rfl rfl
      · exact ⟨rfl, hsame⟩
    · exact ⟨rfl, hsame⟩
  | replaceAll instances => exact hsave _ rfl rfl
  | refresh => exact ⟨rfl, hsame⟩
  | response n instances =>
    rcases response_cases (s := s) n instances with heq | ⟨r, snapshot, -, -, -, -, hstep⟩
    · rw [heq]
      exact ⟨rfl, hsame⟩
    · rw [hstep]
      exact hsave _ rfl rfl
  | forgetOffline id => exact absurd rfl (hforget id)
  | writeCompletes outcome => exact absurd rfl (hwrite outcome)
  | forgetGoesOn n => exact absurd rfl (hgoes n)

omit [DecidableEq κ] in
theorem get_setForget {n i : Nat} {phase : ForgetPhase} {f' : ForgetCall}
    (h : (s.setForget n phase).forgets[i]? = some f') :
    ∃ f, s.forgets[i]? = some f ∧ f' = { f with phase := if n = i then phase else f.phase } := by
  rw [setForget, List.getElem?_modify] at h
  obtain ⟨f, hget, rfl⟩ := Option.map_eq_some_iff.mp h
  refine ⟨f, hget, ?_⟩
  split <;> rfl

/-- Only a change of account changes the account and the epoch, and only a load ends one. -/
theorem frame_step {e : PresenceEvent κ} (hbuild : ∀ key, e ≠ .build key) :
    (s.step e).epoch = s.epoch ∧ (s.step e).storageKey = s.storageKey ∧
      ((∀ epoch fails, e ≠ .load epoch fails) → (s.step e).loads = s.loads ∧ (s.step e).loaded = s.loaded) := by
  cases e with
  | build key => exact absurd rfl (hbuild key)
  | load epoch fails =>
    refine (?_ : _ ∧ _).imp id fun h => ⟨h, fun hload => absurd rfl (hload epoch fails)⟩
    unfold step
    dsimp only
    split
    · split
      · rw [load_eq]
        exact ⟨rfl, rfl⟩
      · exact ⟨rfl, rfl⟩
    · exact ⟨rfl, rfl⟩
  | replaceAll instances =>
    unfold step replaceAll
    dsimp only
    rw [save_eq]
    exact ⟨rfl, rfl, fun _ => ⟨rfl, rfl⟩⟩
  | refresh => exact ⟨rfl, rfl, fun _ => ⟨rfl, rfl⟩⟩
  | response n instances =>
    rcases response_cases (s := s) n instances with heq | ⟨r, snapshot, -, -, -, -, hstep⟩
    · rw [heq]
      exact ⟨rfl, rfl, fun _ => ⟨rfl, rfl⟩⟩
    · rw [hstep, replaceAll, save_eq]
      exact ⟨rfl, rfl, fun _ => ⟨rfl, rfl⟩⟩
  | forgetOffline id =>
    change (s.forgetOffline id).epoch = _ ∧ (s.forgetOffline id).storageKey = _ ∧ (_ → (s.forgetOffline id).loads = _ ∧
      (s.forgetOffline id).loaded = _)
    rcases forgetOffline_cases (s := s) id with heq | ⟨item, -, -, ⟨-, heq⟩ | ⟨key, -, -, heq⟩⟩
    · rw [heq]
      exact ⟨rfl, rfl, fun _ => ⟨rfl, rfl⟩⟩
    · rw [heq]
      exact ⟨rfl, rfl, fun _ => ⟨rfl, rfl⟩⟩
    · rw [heq]
      exact ⟨rfl, rfl, fun _ => ⟨rfl, rfl⟩⟩
  | writeCompletes outcome =>
    change (s.writeCompletes outcome).epoch = _ ∧ (s.writeCompletes outcome).storageKey = _ ∧
      (_ → (s.writeCompletes outcome).loads = _ ∧ (s.writeCompletes outcome).loaded = _)
    rcases writeCompletes_cases (s := s) outcome with heq | ⟨w, rest, -, -, heq⟩
    · rw [heq]
      exact ⟨rfl, rfl, fun _ => ⟨rfl, rfl⟩⟩
    · rw [heq]
      exact ⟨rfl, rfl, fun _ => ⟨rfl, rfl⟩⟩
  | forgetGoesOn n =>
    change (s.forgetGoesOn n).epoch = _ ∧ (s.forgetGoesOn n).storageKey = _ ∧ (_ → (s.forgetGoesOn n).loads = _ ∧
      (s.forgetGoesOn n).loaded = _)
    rcases forgetGoesOn_cases (s := s) n with heq | ⟨f, -, ⟨-, heq⟩ | ⟨-, heq⟩⟩
    · rw [heq]
      exact ⟨rfl, rfl, fun _ => ⟨rfl, rfl⟩⟩
    · rw [heq]
      exact ⟨rfl, rfl, fun _ => ⟨rfl, rfl⟩⟩
    · rw [heq]
      exact ⟨rfl, rfl, fun _ => ⟨rfl, rfl⟩⟩

/-- An epoch is loaded once. -/
structure Loading (s : InstancePresences κ) : Prop where
  once : s.loads.Nodup
  begun : ∀ epoch ∈ s.loads, epoch ≤ s.epoch
  ended : s.loaded = true → s.epoch ∉ s.loads

/-- Who awaits a write is saving, and no other awaits it; who is under way began in this epoch. -/
structure Owed (s : InstancePresences κ) : Prop where
  saving : ∀ w ∈ s.writes, ∀ n, w.forget = some n → ∃ f, s.forgets[n]? = some f ∧ f.phase = .saving
  once : (s.writes.filterMap (·.forget)).Nodup
  current : ∀ f ∈ s.forgets, f.phase.finished = false → f.epoch = s.epoch

omit [DecidableEq κ] in
theorem loading_init (files : κ → Option (List OpenCodeInstancePresence)) (key : Option κ) :
    Loading (init files key) := by
  refine ⟨?_, ?_, nofun⟩
  · cases key
    · exact List.nodup_nil
    · exact List.nodup_singleton _
  · intro epoch hepoch
    cases key with
    | none => exact absurd hepoch List.not_mem_nil
    | some key => exact (List.mem_singleton.mp hepoch).le

theorem loading_step (hl : Loading s) (e : PresenceEvent κ) : Loading (s.step e) := by
  by_cases hbuild : ∃ key, e = .build key
  · obtain ⟨key, rfl⟩ := hbuild
    refine ⟨?_, ?_, nofun⟩
    · cases key with
      | none => exact hl.once
      | some key =>
        refine List.nodup_append.mpr ⟨hl.once, List.nodup_singleton _, ?_⟩
        intro a ha b hb heq
        have hle := hl.begun a ha
        rw [heq, List.mem_singleton.mp hb] at hle
        omega
    · intro epoch hepoch
      cases key with
      | none => exact Nat.le_succ_of_le (hl.begun epoch hepoch)
      | some key =>
        rcases List.mem_append.mp hepoch with hold | hnew
        · exact Nat.le_succ_of_le (hl.begun epoch hold)
        · exact (List.mem_singleton.mp hnew).le
  · obtain ⟨hepoch, -, hrest⟩ := frame_step (s := s) (e := e) fun key heq => hbuild ⟨key, heq⟩
    by_cases hload : ∃ epoch fails, e = .load epoch fails
    · obtain ⟨epoch, fails, rfl⟩ := hload
      unfold step
      dsimp only
      split
      · have herased : ∀ e ∈ s.loads.erase epoch, e ≤ s.epoch := fun e he => hl.begun e (List.mem_of_mem_erase he)
        split
        · rename_i hsame
          rw [load_eq]
          refine ⟨hl.once.erase epoch, herased, fun _ => ?_⟩
          change s.epoch ∉ s.loads.erase epoch
          rw [hsame]
          exact hl.once.not_mem_erase
        · exact ⟨hl.once.erase epoch, herased, fun hloaded hmem => hl.ended hloaded (List.mem_of_mem_erase hmem)⟩
      · exact hl
    · obtain ⟨hloads, hloaded⟩ := hrest fun epoch fails heq => hload ⟨epoch, fails, heq⟩
      exact ⟨hloads ▸ hl.once, by rw [hloads, hepoch]; exact hl.begun, by rw [hloads, hloaded, hepoch]; exact hl.ended⟩

omit [DecidableEq κ] in
theorem get_setForget_ne {n i : Nat} (h : n ≠ i) (phase : ForgetPhase) :
    (s.setForget n phase).forgets[i]? = s.forgets[i]? := by
  rw [setForget, List.getElem?_modify]
  cases s.forgets[i]? with
  | none => rfl
  | some f => simp [h]

omit [DecidableEq κ] in
/-- A phase is set of a call that nobody's write is for. -/
theorem Owed.set (ho : Owed s) {n : Nat} {phase : ForgetPhase} {t : InstancePresences κ}
    (hforgets : t.forgets = (s.setForget n phase).forgets) (hwrites : t.writes.Sublist s.writes)
    (hfree : ∀ w ∈ t.writes, w.forget ≠ some n) (hepoch : t.epoch = s.epoch)
    (hphase : ∀ f, s.forgets[n]? = some f → phase.finished = false → f.phase.finished = false) : Owed t := by
  refine ⟨fun w hw k hk => ?_, ?_, fun f' hf' hunder => ?_⟩
  · obtain ⟨f, hget, hsaving⟩ := ho.saving w (hwrites.subset hw) k hk
    have hne : n ≠ k := fun heq => hfree w hw (heq ▸ hk)
    exact ⟨f, by rw [hforgets, get_setForget_ne hne, hget], hsaving⟩
  · exact ho.once.sublist (hwrites.filterMap _)
  · rw [hforgets] at hf'
    obtain ⟨i, hi⟩ := List.mem_iff_getElem?.mp hf'
    obtain ⟨f, hget, rfl⟩ := get_setForget hi
    rw [hepoch]
    refine ho.current f (List.mem_of_getElem? hget) ?_
    dsimp only at hunder
    split at hunder
    · rename_i heq
      subst heq
      exact hphase f hget hunder
    · exact hunder

theorem owed_step (ho : Owed s) {e : PresenceEvent κ} (hsafe : Safe s (.inRun e)) : Owed (s.step e) := by
  rcases forget_cases e with hplain | ⟨id, rfl⟩ | ⟨outcome, rfl⟩ | ⟨n, rfl⟩
  · obtain ⟨hforget, hwrite, hgoes⟩ := hplain
    obtain ⟨hforgets, new, hnew, hnobody⟩ := plain_step (s := s) hforget hwrite hgoes
    have hnone : new.filterMap (·.forget) = [] := List.filterMap_eq_nil_iff.mpr hnobody
    refine ⟨fun w hw n hn => ?_, ?_, fun f hf hunder => ?_⟩
    · rw [hforgets]
      rw [hnew] at hw
      rcases List.mem_append.mp hw with hold | hin
      · exact ho.saving w hold n hn
      · exact absurd ((hnobody w hin).symm.trans hn) nofun
    · rw [hnew, List.filterMap_append, hnone, List.append_nil]
      exact ho.once
    · rw [hforgets] at hf
      by_cases hbuild : ∃ key, e = .build key
      · obtain ⟨key, rfl⟩ := hbuild
        exact absurd (hunder.symm.trans (hsafe f hf)) nofun
      · rw [(frame_step (s := s) fun key heq => hbuild ⟨key, heq⟩).1]
        exact ho.current f hf hunder
  · change Owed (s.forgetOffline id)
    rcases forgetOffline_cases (s := s) id with heq | ⟨item, -, -, ⟨-, heq⟩ | ⟨key, -, -, heq⟩⟩
    · rwa [heq]
    · rw [heq]
      refine ⟨fun w hw n hn => ?_, ho.once, fun f hf hunder => ?_⟩
      · obtain ⟨f, hget, hsaving⟩ := ho.saving w hw n hn
        exact ⟨f, by rw [List.getElem?_append_left (List.getElem?_eq_some_iff.mp hget).1, hget], hsaving⟩
      · rcases List.mem_append.mp hf with hold | hnew
        · exact ho.current f hold hunder
        · rw [List.mem_singleton.mp hnew]
    · rw [heq]
      refine ⟨fun w hw n hn => ?_, ?_, fun f hf hunder => ?_⟩
      · rcases List.mem_append.mp hw with hold | hnew
        · obtain ⟨f, hget, hsaving⟩ := ho.saving w hold n hn
          exact ⟨f, by rw [List.getElem?_append_left (List.getElem?_eq_some_iff.mp hget).1, hget], hsaving⟩
        · rw [List.mem_singleton.mp hnew] at hn
          obtain rfl := Option.some.inj hn
          exact ⟨_, List.getElem?_concat_length, rfl⟩
      · change ((s.writes ++
          [(⟨key, (s.state.delete id).values, some s.forgets.length⟩ : HistoryWrite κ)]).filterMap
            HistoryWrite.forget).Nodup
        rw [List.filterMap_append]
        refine List.nodup_append.mpr ⟨ho.once, List.nodup_singleton _, ?_⟩
        intro n hn m hm hnm
        obtain ⟨w, hw, hwn⟩ := List.mem_filterMap.mp hn
        obtain ⟨f, hget, -⟩ := ho.saving w hw n hwn
        have hlt := (List.getElem?_eq_some_iff.mp hget).1
        rw [hnm, List.mem_singleton.mp hm] at hlt
        exact absurd hlt (Nat.lt_irrefl _)
      · rcases List.mem_append.mp hf with hold | hnew
        · exact ho.current f hold hunder
        · rw [List.mem_singleton.mp hnew]
  · change Owed (s.writeCompletes outcome)
    rcases writeCompletes_cases (s := s) outcome with heq | ⟨w, rest, hwrites, hforgets, heq⟩
    · rwa [heq]
    · have honce := ho.once
      rw [hwrites] at honce
      have hrest : rest.Sublist s.writes := hwrites ▸ List.sublist_cons_self w rest
      rcases hforgets with ⟨hnone, hsame⟩ | ⟨n, hn, hset⟩
      · rw [heq, hsame]
        exact ⟨fun w' hw' => ho.saving w' (hrest.subset hw'), ho.once.sublist (hrest.filterMap _), ho.current⟩
      · rw [List.filterMap_cons_some hn, List.nodup_cons] at honce
        obtain ⟨f, hget, hsaving⟩ := ho.saving w (hwrites ▸ List.mem_cons_self) n hn
        rw [heq]
        refine ho.set hset hrest (fun w' hw' hw'n => honce.1 (List.mem_filterMap.mpr ⟨w', hw', hw'n⟩))
          rfl fun f' hget' _ => ?_
        obtain rfl := Option.some.inj (hget.symm.trans hget')
        rw [hsaving]
        rfl
  · change Owed (s.forgetGoesOn n)
    rcases forgetGoesOn_cases (s := s) n with heq | ⟨f, hget, ⟨hphase, heq⟩ | ⟨hphase, heq⟩⟩
    · rwa [heq]
    · rw [heq]
      refine ho.set rfl (List.Sublist.refl _) (fun w hw hn => ?_) rfl nofun
      obtain ⟨f', hget', hsaving⟩ := ho.saving w hw n hn
      obtain rfl := Option.some.inj (hget.symm.trans hget')
      exact absurd (hphase.symm.trans hsaving) nofun
    · rw [heq]
      refine ho.set rfl (List.Sublist.refl _) (fun w hw hn => ?_) rfl nofun
      obtain ⟨f', hget', hsaving⟩ := ho.saving w hw n hn
      obtain rfl := Option.some.inj (hget.symm.trans hget')
      exact absurd (hphase.symm.trans hsaving) nofun

/-! ## A call and what becomes of it -/

/-- The call of that index is at that phase. -/
def At (s : InstancePresences κ) (n : Nat) (phase : ForgetPhase) : Prop := ∃ f, s.forgets[n]? = some f ∧ f.phase = phase

/-- The id is not shown to the account, and no other call can bring it back. -/
structure Away (s : InstancePresences κ) (account : Option κ) (id : JsString) (n : Nat) : Prop where
  map : s.storageKey = account → id ∉ s.state.keys
  others : s.storageKey = account → ∀ (i : Nat) (f : ForgetCall), s.forgets[i]? = some f → f.instanceId = id → i ≠ n →
    f.phase.finished = true

/-- The call is done, and nothing is stored that holds the id. -/
structure Done (s : InstancePresences κ) (account : Option κ) (id : JsString) (n : Nat) : Prop where
  away : s.Away account id n
  cleared : ∀ key, account = some key → ¬ s.Stored key id
  phase : s.At n .saved ∨ s.At n .returned

/-- The call awaits its write; before it the id may be written, after it not. -/
structure Pending (s : InstancePresences κ) (account : Option κ) (id : JsString) (n : Nat) : Prop where
  away : s.Away account id n
  here : s.storageKey = account
  loaded : s.loaded = true
  phase : s.At n .saving
  write : ∃ earlier w later, s.writes = earlier ++ w :: later ∧ w.forget = some n ∧ account = some w.key ∧
    ¬ Lists id w.raw ∧
    ∀ w' ∈ later, account = some w'.key → ¬ Lists id w'.raw

/-- What can become of a call. -/
inductive Tracked (s : InstancePresences κ) (account : Option κ) (id : JsString) (n : Nat) : Prop where
  | pending (h : s.Pending account id n)
  | done (h : s.Done account id n)
  | failed (h : s.At n .saveFailed ∨ s.At n .threw ∨ s.At n .lost)

omit [DecidableEq κ] in
theorem At.unique {n : Nat} {phase phase' : ForgetPhase} (h : s.At n phase) (h' : s.At n phase') : phase = phase' := by
  obtain ⟨f, hget, rfl⟩ := h
  obtain ⟨f', hget', rfl⟩ := h'
  rw [Option.some.inj (hget.symm.trans hget')]

omit [DecidableEq κ] in
theorem At.set {n k : Nat} {phase phase' : ForgetPhase} (h : s.At n phase) {t : InstancePresences κ}
    (ht : t.forgets = (s.setForget k phase').forgets) : t.At n (if k = n then phase' else phase) := by
  obtain ⟨f, hget, rfl⟩ := h
  rw [At, ht]
  split
  · rename_i heq
    subst heq
    exact ⟨{ f with phase := phase' }, by rw [setForget, List.getElem?_modify, hget]; simp, rfl⟩
  · rename_i hne
    exact ⟨f, by rw [get_setForget_ne hne, hget], rfl⟩

/-- A call's phase changes when its write ends, and when it goes on. -/
theorem at_step {n : Nat} {phase : ForgetPhase} (h : s.At n phase) (e : PresenceEvent κ) :
    (s.step e).At n phase ∨
      (∃ outcome w rest, e = .writeCompletes outcome ∧ s.writes = w :: rest ∧ w.forget = some n ∧
        (s.step e).At n (if outcome = .saved then .saved else .saveFailed)) ∨
      (phase = .saved ∧ (s.step e).At n .returned) ∨ (phase = .saveFailed ∧ (s.step e).At n .threw) := by
  rcases forget_cases e with hplain | ⟨id, rfl⟩ | ⟨outcome, rfl⟩ | ⟨k, rfl⟩
  · refine .inl ?_
    rw [At, (plain_step (s := s) hplain.1 hplain.2.1 hplain.2.2).1]
    exact h
  · refine .inl ?_
    change (s.forgetOffline id).At n phase
    obtain ⟨f, hget, hphase⟩ := h
    have happend : ∀ l : List ForgetCall, (s.forgets ++ l)[n]? = some f := by
      intro l
      rw [List.getElem?_append_left (List.getElem?_eq_some_iff.mp hget).1, hget]
    rcases forgetOffline_cases (s := s) id with heq | ⟨item, -, -, ⟨-, heq⟩ | ⟨key, -, -, heq⟩⟩
    · rw [heq]
      exact ⟨f, hget, hphase⟩
    · rw [heq]
      exact ⟨f, happend _, hphase⟩
    · rw [heq]
      exact ⟨f, happend _, hphase⟩
  · change (s.writeCompletes outcome).At n phase ∨
      (∃ outcome' w rest, _ ∧ _ ∧ _ ∧ (s.writeCompletes outcome).At n _) ∨
      (_ ∧ (s.writeCompletes outcome).At n _) ∨ (_ ∧ (s.writeCompletes outcome).At n _)
    rcases writeCompletes_cases (s := s) outcome with heq | ⟨w, rest, hwrites, ⟨-, hforgets⟩ | ⟨k, hk, hforgets⟩, -⟩
    · rw [heq]
      exact .inl h
    · exact .inl (by rw [At, hforgets]; exact h)
    · have hset := h.set hforgets
      split at hset
      · rename_i heq
        subst heq
        exact .inr (.inl ⟨outcome, w, rest, rfl, hwrites, hk, hset⟩)
      · exact .inl hset
  · change (s.forgetGoesOn k).At n phase ∨ (∃ outcome' w rest, _ ∧ _ ∧ _ ∧ (s.forgetGoesOn k).At n _) ∨
      (_ ∧ (s.forgetGoesOn k).At n _) ∨ (_ ∧ (s.forgetGoesOn k).At n _)
    rcases forgetGoesOn_cases (s := s) k with heq | ⟨f, hget, ⟨hphase, heq⟩ | ⟨hphase, heq⟩⟩
    · rw [heq]
      exact .inl h
    · have hset := h.set (congrArg forgets heq)
      split at hset
      · rename_i hsame
        subst hsame
        exact .inr (.inr (.inl ⟨h.unique ⟨f, hget, hphase⟩, hset⟩))
      · exact .inl hset
    · have hforgets : (s.forgetGoesOn k).forgets = (s.setForget k .threw).forgets := by rw [heq]
      have hset := h.set hforgets
      split at hset
      · rename_i hsame
        subst hsame
        exact .inr (.inr (.inr ⟨h.unique ⟨f, hget, hphase⟩, hset⟩))
      · exact .inl hset

/-- Every call of the state after a step began before it, or with it, of an entry that was there. -/
theorem forgets_back {e : PresenceEvent κ} {i : Nat} {f' : ForgetCall} (h : (s.step e).forgets[i]? = some f') :
    (∃ f, s.forgets[i]? = some f ∧ f'.instanceId = f.instanceId) ∨ e = .forgetOffline f'.instanceId ∧
      f'.instanceId ∈ s.state.keys := by
  have hset : ∀ k phase, (s.step e).forgets = (s.setForget k phase).forgets →
      ∃ f, s.forgets[i]? = some f ∧ f'.instanceId = f.instanceId := by
    intro k phase hforgets
    rw [hforgets] at h
    obtain ⟨f, hget, rfl⟩ := get_setForget h
    exact ⟨f, hget, rfl⟩
  rcases forget_cases e with hplain | ⟨id, rfl⟩ | ⟨outcome, rfl⟩ | ⟨k, rfl⟩
  · rw [(plain_step (s := s) hplain.1 hplain.2.1 hplain.2.2).1] at h
    exact .inl ⟨f', h, rfl⟩
  · change (s.forgetOffline id).forgets[i]? = some f' at h
    have happend : ∀ item phase, (s.forgets ++ [(⟨id, item, s.epoch, phase⟩ : ForgetCall)])[i]? = some f' →
      s.state.get id = some item →
        (∃ f, s.forgets[i]? = some f ∧ f'.instanceId = f.instanceId) ∨
          (PresenceEvent.forgetOffline id : PresenceEvent κ) = .forgetOffline f'.instanceId ∧
            f'.instanceId ∈ s.state.keys := by
      intro item phase hget hitem
      rcases Nat.lt_or_ge i s.forgets.length with hlt | hge
      · rw [List.getElem?_append_left hlt] at hget
        exact .inl ⟨f', hget, rfl⟩
      · rw [List.getElem?_append_right hge] at hget
        obtain rfl := List.mem_singleton.mp (List.mem_of_getElem? hget)
        exact .inr ⟨rfl, OMap.mem_keys.mpr ⟨item, hitem⟩⟩
    rcases forgetOffline_cases (s := s) id with heq | ⟨item, hitem, -, ⟨-, heq⟩ | ⟨key, -, -, heq⟩⟩
    · rw [heq] at h
      exact .inl ⟨f', h, rfl⟩
    · rw [heq] at h
      exact happend item _ h hitem
    · rw [heq] at h
      exact happend item _ h hitem
  · rcases writeCompletes_cases (s := s) outcome with heq | ⟨w, rest, -, ⟨-, hforgets⟩ | ⟨k, -, hforgets⟩, -⟩
    · change (s.writeCompletes outcome).forgets[i]? = some f' at h
      rw [heq] at h
      exact .inl ⟨f', h, rfl⟩
    · change (s.writeCompletes outcome).forgets[i]? = some f' at h
      rw [hforgets] at h
      exact .inl ⟨f', h, rfl⟩
    · exact .inl (hset k _ hforgets)
  · rcases forgetGoesOn_cases (s := s) k with heq | ⟨f, hget, ⟨-, heq⟩ | ⟨-, heq⟩⟩
    · change (s.forgetGoesOn k).forgets[i]? = some f' at h
      rw [heq] at h
      exact .inl ⟨f', h, rfl⟩
    · exact .inl (hset k .returned (congrArg forgets heq))
    · refine .inl (hset k .threw ?_)
      change (s.forgetGoesOn k).forgets = _
      rw [heq]

/-- A call that is finished stays so. -/
theorem finished_step (ho : Owed s) {n : Nat} {phase phase' : ForgetPhase} (h : s.At n phase)
    (hfinished : phase.finished = true)
    {e : PresenceEvent κ} (h' : (s.step e).At n phase') : phase' = phase := by
  rcases at_step h e with hsame | ⟨outcome, w, rest, -, hwrites, hw, -⟩ | ⟨rfl, -⟩ | ⟨rfl, -⟩
  · exact h'.unique hsame
  · rw [h.unique (ho.saving w (hwrites ▸ List.mem_cons_self) n hw)] at hfinished
    cases hfinished
  · cases hfinished
  · cases hfinished

/-- The id stays away where no snapshot brings it, no cache holds it, and the call itself does not put it back. -/
theorem Away.step {account : Option κ} {id : JsString} {n : Nat} (h : s.Away account id n) (hs : Sound s) (ho : Owed s)
    {e : PresenceEvent κ} (hsafe : Safe s (.inRun e))
    (hquiet : s.storageKey = account → ¬ Brings id (.inRun e : AppEvent κ))
    (hcache : s.epoch ∈ s.loads → ∀ key, account = some key → ¬ s.Stored key id) (hmine : ¬ s.At n .saveFailed) :
    (s.step e).Away account id n := by
  by_cases hbuild : ∃ key, e = .build key
  · obtain ⟨key, rfl⟩ := hbuild
    exact ⟨fun _ => List.not_mem_nil, fun _ i f hget _ _ => hsafe f (List.mem_of_getElem? hget)⟩
  · obtain ⟨-, hkey, -⟩ := frame_step (s := s) (e := e) fun key heq => hbuild ⟨key, heq⟩
    refine ⟨fun haccount hid => ?_, fun haccount i f' hget' hid hne => ?_⟩
    · rw [hkey] at haccount
      rcases new_id hs (h.map haccount) hid with
        hbrings | ⟨fails, -, hload, key, hstorage, hstored⟩ | ⟨k, f, -, hget, hphase, hf⟩
      · exact hquiet haccount hbrings
      · exact hcache hload key (haccount.symm.trans hstorage) hstored
      · by_cases hk : k = n
        · exact hmine (hk ▸ ⟨f, hget, hphase⟩)
        · have hfinished := h.others haccount k f hget hf hk
          rw [hphase] at hfinished
          cases hfinished
    · rw [hkey] at haccount
      rcases forgets_back hget' with ⟨f, hget, hsame⟩ | ⟨-, hmem⟩
      · have hfinished := h.others haccount i f hget (hsame.symm.trans hid) hne
        rw [finished_step ho ⟨f, hget, rfl⟩ hfinished ⟨f', hget', rfl⟩]
        exact hfinished
      · rw [hid] at hmem
        exact absurd hmem (h.map haccount)

/-- The end of a write stores what was to be written. -/
theorem stored_writeCompletes {outcome : WriteOutcome} {key : κ} {id : JsString}
    (h : (s.writeCompletes outcome).Stored key id) :
    s.Stored key id := by
  rcases writeCompletes_cases (s := s) outcome with heq | ⟨w, rest, hwrites, -, heq⟩
  · rwa [heq] at h
  · rw [heq] at h
    rcases h with ⟨cached, hfile, hid⟩ | ⟨w', hw', hkey, hid⟩
    · dsimp only at hfile
      split at hfile
      · by_cases hk : key = w.key
        · rw [hk, Function.update_self] at hfile
          cases hfile
          exact .inr ⟨w, hwrites ▸ List.mem_cons_self, hk.symm, hid⟩
        · rw [Function.update_of_ne hk] at hfile
          exact .inl ⟨cached, hfile, hid⟩
      · exact .inl ⟨cached, hfile, hid⟩
    · exact .inr ⟨w', hwrites ▸ List.mem_cons_of_mem _ hw', hkey, hid⟩

/-- A call that is done stays done. -/
theorem Done.step {account : Option κ} {id : JsString} {n : Nat} (h : s.Done account id n) (hs : Sound s) (ho : Owed s)
    {e : PresenceEvent κ} (hsafe : Safe s (.inRun e))
    (hquiet : s.storageKey = account → ¬ Brings id (.inRun e : AppEvent κ)) :
    (s.step e).Done account id n := by
  have hmine : ∀ phase, s.At n phase → phase = .saved ∨ phase = .returned := by
    intro phase hphase
    rcases h.phase with hsaved | hreturned
    · exact .inl (hphase.unique hsaved)
    · exact .inr (hphase.unique hreturned)
  have haway := h.away.step hs ho hsafe hquiet (fun _ => h.cleared) fun hfailed => by
    rcases hmine _ hfailed with heq | heq
    · cases heq
    · cases heq
  refine ⟨haway, fun key hkey hstored => ?_, ?_⟩
  · by_cases hwrite : ∃ outcome, e = .writeCompletes outcome
    · obtain ⟨outcome, rfl⟩ := hwrite
      exact h.cleared key hkey (stored_writeCompletes hstored)
    · rcases stored_step hs (fun outcome heq => hwrite ⟨outcome, heq⟩) hstored with hold | ⟨hhere, hid⟩
      · exact h.cleared key hkey hold
      · exact haway.map (hhere.trans hkey.symm) hid
  · have hnot : ∀ w ∈ s.writes, w.forget ≠ some n := by
      intro w hw hn
      rcases hmine _ (ho.saving w hw n hn) with heq | heq
      · cases heq
      · cases heq
    rcases h.phase with hsaved | hreturned
    · rcases at_step hsaved e with hsame | ⟨outcome, w, rest, -, hwrites, hw, -⟩ | ⟨-, hnext⟩ | ⟨heq, -⟩
      · exact .inl hsame
      · exact absurd hw (hnot w (hwrites ▸ List.mem_cons_self))
      · exact .inr hnext
      · cases heq
    · rcases at_step hreturned e with hsame | ⟨outcome, w, rest, -, hwrites, hw, -⟩ | ⟨heq, -⟩ | ⟨heq, -⟩
      · exact .inr hsame
      · exact absurd hw (hnot w (hwrites ▸ List.mem_cons_self))
      · cases heq
      · cases heq

theorem loaded_step {e : PresenceEvent κ} (hbuild : ∀ key, e ≠ .build key) (h : s.loaded = true) :
    (s.step e).loaded = true := by
  by_cases hload : ∃ epoch fails, e = .load epoch fails
  · obtain ⟨epoch, fails, rfl⟩ := hload
    unfold step
    dsimp only
    split
    · split
      · unfold load
        split
        · exact h
        · dsimp only
          rw [save_eq]
      · exact h
    · exact h
  · rw [((frame_step (s := s) hbuild).2.2 fun epoch fails heq => hload ⟨epoch, fails, heq⟩).2, h]

/-- A call that awaits its write goes on waiting, or its write ends. -/
theorem Pending.step {account : Option κ} {id : JsString} {n : Nat} (h : s.Pending account id n)
    (hs : Sound s) (ho : Owed s)
    (hl : Loading s) {e : PresenceEvent κ} (hsafe : Safe s (.inRun e))
    (hquiet : s.storageKey = account → ¬ Brings id (.inRun e : AppEvent κ)) : (s.step e).Tracked account id n := by
  have hbuild : ∀ key, e ≠ .build key := by
    rintro key rfl
    obtain ⟨f, hget, hphase⟩ := h.phase
    have hfinished := hsafe f (List.mem_of_getElem? hget)
    rw [hphase] at hfinished
    cases hfinished
  have haway := h.away.step hs ho hsafe hquiet (fun hload => absurd hload (hl.ended h.loaded)) fun hfailed => by
    cases hfailed.unique h.phase
  obtain ⟨-, hkey, -⟩ := frame_step (s := s) hbuild
  have hhere : (s.step e).storageKey = account := hkey.trans h.here
  obtain ⟨earlier, w, later, hwrites, hw, haccount, hraw, hlater⟩ := h.write
  by_cases hwrite : ∃ outcome, e = .writeCompletes outcome
  · obtain ⟨outcome, rfl⟩ := hwrite
    rcases writeCompletes_cases (s := s) outcome with heq | ⟨w₁, rest, hwrites', hforgets, heq⟩
    · change (s.writeCompletes outcome).Tracked account id n
      rw [heq]
      exact .pending h
    have hrest : (s.step (.writeCompletes outcome)).writes = rest := by
      change (s.writeCompletes outcome).writes = rest
      rw [heq]
    cases earlier with
    | nil =>
      obtain ⟨rfl, rfl⟩ := List.cons.inj (hwrites'.symm.trans hwrites)
      rcases at_step h.phase (.writeCompletes outcome) with
        hsame | ⟨outcome', _, _, houtcome, -, -, hat⟩ | ⟨hcontra, -⟩ | ⟨hcontra, -⟩
      · rcases hforgets with ⟨hnone, -⟩ | ⟨k, hk, hset⟩
        · exact absurd (hnone.symm.trans hw) nofun
        · obtain rfl := Option.some.inj (hk.symm.trans hw)
          have hat := h.phase.set hset
          rw [if_pos rfl] at hat
          have hphase := hat.unique hsame
          split at hphase
          · cases hphase
          · cases hphase
      · cases houtcome
        cases outcome with
        | failed stored => exact .failed (.inl hat)
        | saved =>
          refine .done ⟨haway, fun key hkey' hstored => ?_, .inl hat⟩
          obtain rfl := Option.some.inj (hkey'.symm.trans haccount)
          rcases hstored with ⟨cached, hfile, hid⟩ | ⟨w', hw', hwkey, hid⟩
          · change (s.writeCompletes .saved).files w₁.key = some cached at hfile
            rw [heq] at hfile
            change Function.update s.files w₁.key (some w₁.raw) w₁.key = some cached at hfile
            rw [Function.update_self] at hfile
            cases hfile
            exact hraw hid
          · rw [hrest] at hw'
            exact hlater w' hw' (hkey'.trans (congrArg some hwkey.symm)) hid
      · cases hcontra
      · cases hcontra
    | cons w₀ earlier =>
      obtain ⟨rfl, rfl⟩ := List.cons.inj (hwrites'.symm.trans hwrites)
      refine .pending ⟨haway, hhere, loaded_step hbuild h.loaded, ?_, earlier, w, later,
        hrest, hw, haccount, hraw, hlater⟩
      rcases at_step h.phase (.writeCompletes outcome) with
        hsame | ⟨outcome', w', rest', -, hwrites'', hw', -⟩ | ⟨hcontra, -⟩ | ⟨hcontra, -⟩
      · exact hsame
      · -- Two writes would be for the one call.
        obtain ⟨rfl, -⟩ := List.cons.inj (hwrites''.symm.trans hwrites')
        have honce := ho.once
        rw [hwrites', List.filterMap_cons_some hw', List.nodup_cons] at honce
        exact absurd (List.mem_filterMap.mpr ⟨w, by simp, hw⟩) honce.1
      · cases hcontra
      · cases hcontra
  · obtain ⟨-, new, hnew, hvalues⟩ := writes_step (s := s) (e := e) fun outcome heq => hwrite ⟨outcome, heq⟩
    refine .pending ⟨haway, hhere, loaded_step hbuild h.loaded, ?_, earlier, w, later ++ new,
      ?_, hw, haccount, hraw, ?_⟩
    · rcases at_step h.phase e with hsame | ⟨outcome, _, _, heq, -⟩ | ⟨heq, -⟩ | ⟨heq, -⟩
      · exact hsame
      · exact absurd ⟨outcome, heq⟩ hwrite
      · cases heq
      · cases heq
    · rw [hnew, hwrites, List.append_assoc, List.cons_append]
    · intro w' hw' hkey' hid
      rcases List.mem_append.mp hw' with hold | hin
      · exact hlater w' hold hkey' hid
      · obtain ⟨hsame, hraw'⟩ := hvalues w' hin
        rw [hraw'] at hid
        exact haway.map hhere ((lists_values (sound_step hs e).keyed id).mp hid)

/-- What has failed, or was lost, stays so. -/
theorem failed_step (ho : Owed s) {n : Nat} (h : s.At n .saveFailed ∨ s.At n .threw ∨ s.At n .lost)
    (e : PresenceEvent κ) :
    (s.step e).At n .saveFailed ∨ (s.step e).At n .threw ∨ (s.step e).At n .lost := by
  have hother : ∀ phase, s.At n phase → phase ≠ .saving → phase ≠ .saved → (s.step e).At n phase ∨
    (s.step e).At n .threw := by
    intro phase hat hsaving hsaved
    rcases at_step hat e with hsame | ⟨outcome, w, rest, -, hwrites, hw, -⟩ | ⟨heq, -⟩ | ⟨-, hthrew⟩
    · exact .inl hsame
    · exact absurd (hat.unique (ho.saving w (hwrites ▸ List.mem_cons_self) n hw)) hsaving
    · exact absurd heq hsaved
    · exact .inr hthrew
  rcases h with hfailed | hthrew | hlost
  · exact (hother _ hfailed nofun nofun).imp id Or.inl
  · exact .inr (.inl ((hother _ hthrew nofun nofun).elim id id))
  · exact .inr ((hother _ hlost nofun nofun).symm)

/-! ## Over runs of the app -/

/-- What holds in every state. -/
structure Kept (s : InstancePresences κ) : Prop where
  sound : Sound s
  owed : Owed s
  loading : Loading s

omit [DecidableEq κ] in
theorem kept_init (files : κ → Option (List OpenCodeInstancePresence)) (key : Option κ) : Kept (init files key) :=
  ⟨sound_init files key, ⟨nofun, List.nodup_nil, nofun⟩, loading_init files key⟩

omit [DecidableEq κ] in
theorem lost_finished {f : ForgetCall} (h : f ∈ s.forgets.map ForgetCall.lose) : f.phase.finished = true := by
  obtain ⟨g, -, rfl⟩ := List.mem_map.mp h
  rw [ForgetCall.lose]
  split
  · assumption
  · rfl

omit [DecidableEq κ] in
theorem kept_restart (hk : Kept s) (key : Option κ) : Kept (s.restart key) := by
  have hinit := sound_init s.files key
  refine ⟨⟨hinit.keyed, fun id p hget => ?_, hinit.sent, fun f hf => ?_⟩,
    ⟨nofun, List.nodup_nil, fun f hf hunder => ?_⟩, ?_⟩
  · change OMap.empty.get id = some p at hget
    cases hget
  · obtain ⟨g, hg, rfl⟩ := List.mem_map.mp hf
    have hold := hk.sound.forgotten g hg
    rw [ForgetCall.lose]
    split
    · exact hold
    · exact hold
  · exact absurd ((lost_finished hf).symm.trans hunder) nofun
  · exact ⟨(loading_init s.files key).once, (loading_init s.files key).begun, nofun⟩

theorem kept_step (hk : Kept s) {e : AppEvent κ} (hsafe : Safe s e) : Kept (s.appStep e) := by
  cases e with
  | inRun e => exact ⟨sound_step hk.sound e, owed_step hk.owed hsafe, loading_step hk.loading e⟩
  | restart key => exact kept_restart hk key

omit [DecidableEq κ] in
theorem At.restart {n : Nat} {phase : ForgetPhase} (h : s.At n phase) (key : Option κ) :
    (s.restart key).At n (if phase.finished then phase else .lost) := by
  obtain ⟨f, hget, rfl⟩ := h
  refine ⟨f.lose, ?_, ?_⟩
  · change (s.forgets.map ForgetCall.lose)[n]? = some f.lose
    rw [List.getElem?_map, hget]
    rfl
  · rw [ForgetCall.lose]
    split
    · rfl
    · rfl

theorem tracked_step {account : Option κ} {id : JsString} {n : Nat} (h : s.Tracked account id n)
    (hk : Kept s) {e : AppEvent κ}
    (hsafe : Safe s e) (hquiet : s.storageKey = account → ¬ Brings id e) : (s.appStep e).Tracked account id n := by
  cases e with
  | inRun e =>
    cases h with
    | pending h => exact h.step hk.sound hk.owed hk.loading hsafe hquiet
    | done h => exact .done (h.step hk.sound hk.owed hsafe hquiet)
    | failed h => exact .failed (failed_step hk.owed h e)
  | restart key =>
    cases h with
    | pending h => exact .failed (.inr (.inr (h.phase.restart key)))
    | failed h =>
      rcases h with hfailed | hthrew | hlost
      · exact .failed (.inr (.inr (hfailed.restart key)))
      · exact .failed (.inr (.inl (hthrew.restart key)))
      · exact .failed (.inr (.inr (hlost.restart key)))
    | done h =>
      rcases h.phase with hsaved | hreturned
      · exact .failed (.inr (.inr (hsaved.restart key)))
      · refine .done ⟨⟨fun _ => List.not_mem_nil, fun _ i f hget _ _ => ?_⟩, fun key' hkey hstored => ?_,
          .inr (hreturned.restart key)⟩
        · exact lost_finished (List.mem_of_getElem? hget)
        · rcases hstored with ⟨cached, hfile, hid⟩ | ⟨w, hw, -⟩
          · exact h.cleared key' hkey (.inl ⟨cached, hfile, hid⟩)
          · exact absurd hw List.not_mem_nil

omit [DecidableEq κ] in
/-- The call removes the entry, and awaits its write or is done. -/
theorem tracked_forgetOffline (hs : Sound s) {id : JsString} {item : OpenCodeInstancePresence}
    (hsafe : Safe s (.inRun (.forgetOffline id) : AppEvent κ)) (hitem : s.state.get id = some item)
    (hoffline : item.state = .offline) :
    (s.forgetOffline id).Tracked s.storageKey id s.forgets.length := by
  obtain ⟨hcache, hother⟩ := hsafe item hitem hoffline
  have hgone : id ∉ (s.state.delete id).keys := OMap.get_eq_none.mp (OMap.get_delete_self ..)
  have hothers : ∀ phase, ∀ (i : Nat) (f : ForgetCall),
    (s.forgets ++ [(⟨id, item, s.epoch, phase⟩ : ForgetCall)])[i]? = some f →
      f.instanceId = id → i ≠ s.forgets.length → f.phase.finished = true := by
    intro phase i f hget hid hne
    rcases Nat.lt_or_ge i s.forgets.length with hlt | hge
    · rw [List.getElem?_append_left hlt] at hget
      exact hother f (List.mem_of_getElem? hget) hid
    · have hlt := (List.getElem?_eq_some_iff.mp hget).1
      rw [List.length_append, List.length_singleton] at hlt
      omega
  rcases forgetOffline_cases (s := s) id with heq | ⟨item', hitem', -, ⟨hsaves, heq⟩ | ⟨key, hkey, hloaded, heq⟩⟩
  · have hstate : (s.forgetOffline id).state = s.state.delete id := by
      unfold forgetOffline
      simp only [hitem, hoffline, if_true, save_state]
    rw [heq] at hstate
    rw [← hstate] at hgone
    exact absurd (OMap.mem_keys.mpr ⟨item, hitem⟩) hgone
  · obtain rfl := Option.some.inj (hitem'.symm.trans hitem)
    rw [heq]
    refine .done ⟨⟨fun _ => hgone, fun _ => hothers _⟩, fun key hkey hstored => ?_,
      .inr ⟨_, List.getElem?_concat_length, rfl⟩⟩
    rcases hcache with hloaded | hmissing
    · unfold saves at hsaves
      rw [hkey, hloaded] at hsaves
      cases hsaves
    · exact hmissing key hkey hstored
  · obtain rfl := Option.some.inj (hitem'.symm.trans hitem)
    rw [heq]
    refine .pending ⟨⟨fun _ => hgone, fun _ => hothers _⟩, rfl, hloaded, ⟨_, List.getElem?_concat_length, rfl⟩,
      s.writes, _, [], rfl, rfl,
      hkey, ?_, (by rintro _ ⟨⟩)⟩
    exact fun hlists => hgone ((lists_values (keyed_delete hs.keyed id) id).mp hlists)

/-- How long forgetting lasts in a run. -/
structure Lasts (files : κ → Option (List OpenCodeInstancePresence)) (key : Option κ) (es : List (AppEvent κ)) :
    Prop where
  /-- Once the call has returned, the id is not shown to the account until a snapshot contains it. -/
  gone : ∀ (before : List (AppEvent κ)) (id : JsString) (item : OpenCodeInstancePresence) (after : List (AppEvent κ)),
    es = before ++ .inRun (.forgetOffline id) :: after →
    (runApp files key before).state.get id = some item → item.state = .offline →
    Along appStep (fun t e => t.storageKey = (runApp files key before).storageKey → ¬ Brings id e)
      ((runApp files key before).appStep (.inRun (.forgetOffline id))) after →
    (runApp files key es).At (runApp files key before).forgets.length .returned →
    (runApp files key es).storageKey = (runApp files key before).storageKey → id ∉ (runApp files key es).state.keys
  /-- A call that ends because its save has failed puts the id back. -/
  restored : ∀ (before : List (AppEvent κ)) (n : Nat) (f : ForgetCall) (after : List (AppEvent κ)),
    es = before ++ .inRun (.forgetGoesOn n) :: after → (runApp files key before).forgets[n]? = some f →
      f.phase = .saveFailed →
    f.instanceId ∈ ((runApp files key before).appStep (.inRun (.forgetGoesOn n))).state.keys

theorem tracked_run {account : Option κ} {id : JsString} {n : Nat} {es : List (AppEvent κ)}
    (h : s.Tracked account id n) (hk : Kept s)
    (hsafe : Along appStep Safe s es)
    (hquiet : Along appStep (fun t e => t.storageKey = account → ¬ Brings id e) s es) :
    (runFrom appStep s es).Tracked account id n :=
  (Along.inv (I := fun t : InstancePresences κ => t.Tracked account id n ∧ Kept t)
    (fun _ _ h hok => ⟨tracked_step h.1 h.2 hok.1 hok.2, kept_step h.2 hok.1⟩) ⟨h, hk⟩ (hsafe.and hquiet)).1

theorem forgotten_lasts (files : κ → Option (List OpenCodeInstancePresence)) (key : Option κ) (es : List (AppEvent κ))
    (hsafe : Along appStep Safe (init files key) es) : Lasts files key es := by
  have hbefore : ∀ (before : List (AppEvent κ)) (e : AppEvent κ) (after : List (AppEvent κ)),
    es = before ++ e :: after →
      Kept (runApp files key before) ∧ Safe (runApp files key before) e ∧
        Along appStep Safe ((runApp files key before).appStep e) after := by
    intro before e after hsplit
    rw [hsplit] at hsafe
    obtain ⟨hstart, hnext, hrest⟩ := along_append.mp hsafe
    exact ⟨Along.inv (I := Kept) (fun _ _ hk hok => kept_step hk hok) (kept_init files key) hstart, hnext, hrest⟩
  refine ⟨?_, ?_⟩
  · intro before id item after hsplit hitem hoffline hquiet hreturned haccount
    obtain ⟨hk, hnext, hrest⟩ := hbefore before _ after hsplit
    have hrun : runApp files key es = runFrom appStep ((runApp files key before).appStep (.inRun (.forgetOffline id)))
      after := by
      rw [hsplit]
      exact runFrom_append ..
    have htracked := tracked_run (tracked_forgetOffline hk.sound hnext hitem hoffline) (kept_step hk hnext) hrest hquiet
    rw [hrun] at hreturned haccount ⊢
    cases htracked with
    | pending h => cases h.phase.unique hreturned
    | done h => exact h.away.map haccount
    | failed h =>
      rcases h with hfailed | hthrew | hlost
      · cases hfailed.unique hreturned
      · cases hthrew.unique hreturned
      · cases hlost.unique hreturned
  · intro before n f after hsplit hget hphase
    obtain ⟨hk, -, -⟩ := hbefore before _ after hsplit
    have hepoch := hk.owed.current f (List.mem_of_getElem? hget) (by rw [hphase]; rfl)
    have hstate : ((runApp files key before).forgetGoesOn n).state =
        (OMap.empty.set f.instanceId f.item).merge (runApp files key before).state := by
      cases f with
      | mk instanceId item epoch phase =>
        obtain rfl : phase = .saveFailed := hphase
        unfold forgetGoesOn
        simp only [hget, if_pos hepoch]
    change f.instanceId ∈ ((runApp files key before).forgetGoesOn n).state.keys
    rw [hstate]
    refine OMap.mem_keys.mpr ?_
    cases hold : (runApp files key before).state.get f.instanceId with
    | some p => exact ⟨p, by rw [OMap.get_merge, hold]; rfl⟩
    | none => exact ⟨f.item, by rw [OMap.get_merge, hold, OMap.get_set_self]; rfl⟩

section

def samplePresence (state : InstancePresenceState) : OpenCodeInstancePresence :=
  ⟨js "i", js "laptop", js "app", js "/work", js "1.0.0", 1, state, ⟨0, true⟩, true⟩

/-- The cache of the one account holds the instance. -/
def sampleFiles : Unit → Option (List OpenCodeInstancePresence) := fun _ => some [samplePresence .offline]

/-- Forgotten when the cache is loaded; then the app starts again. -/
def forgottenLoaded : List (AppEvent Unit) :=
  [.inRun (.writeCompletes .saved), .inRun (.writeCompletes .saved), .inRun (.forgetGoesOn 0),
    .restart (some ()), .inRun (.load 1 false)]

theorem forgotten_loaded_lasts :
    js "i" ∉ (runApp sampleFiles (some ())
      (.inRun (.load 1 false) :: .inRun (.forgetOffline (js "i")) :: forgottenLoaded)).state.keys := by
  refine (forgotten_lasts sampleFiles (some ()) _ ?_).gone [.inRun (.load 1 false)] (js "i")
    (samplePresence .offline) forgottenLoaded rfl
    (by decide +kernel) rfl ?_ ⟨_, rfl, by decide +kernel⟩ rfl
  · exact ⟨trivial, fun _ _ _ => ⟨.inl (by decide +kernel), nofun⟩, trivial, trivial, trivial,
      trivial, trivial, trivial⟩
  · exact ⟨fun _ => id, fun _ => id, fun _ => id, fun _ => id, fun _ => id, trivial⟩

/-- Seen, gone offline and forgotten before the cache is loaded. -/
def forgottenEarly : List (AppEvent Unit) :=
  [.inRun (.replaceAll [samplePresence .controllable]), .inRun (.replaceAll []), .inRun (.forgetOffline (js "i")),
    .inRun (.load 1 false)]

/-- The call returned, nothing was written, and the cache brings the entry back. -/
theorem forgotten_comes_back :
    (runApp sampleFiles (some ()) forgottenEarly).state.keys = [js "i"] ∧
      ¬ Lasts sampleFiles (some ()) forgottenEarly := by
  refine ⟨by decide +kernel, fun h => ?_⟩
  refine h.gone [.inRun (.replaceAll [samplePresence .controllable]), .inRun (.replaceAll [])]
    (js "i") (samplePresence .offline)
    [.inRun (.load 1 false)] rfl (by decide +kernel) rfl ⟨fun _ => id, trivial⟩ ⟨_, rfl, by decide +kernel⟩ rfl ?_
  decide +kernel

end

end InstancePresences

end NotifyHub.Client.Presence
