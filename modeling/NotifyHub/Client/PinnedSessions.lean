/-
  NotifyHub.Client.PinnedSessions — are pins kept, and never more than fifty?

  - `pins_kept_and_bounded`: in a run after a load in which no capture drops a pinned session
    that is deleted, no snapshot is merged over more than a thousand pins and no rollback pins
    a fifty-first session (`KeepsPins`), a pin goes by `togglePin` or `deleteSession` only, and
    there are at most fifty if there were at the load.
  - `rollback_pins_one_more`: the rollback of a delete does not count.
-/

import NotifyHub.Client.SessionCatalog

namespace NotifyHub.Client

namespace SessionCatalogState

variable {P : DartPlatform} {state state' : SessionCatalogState} {k : SessionKey}

def pinnedAt (state : SessionCatalogState) (k : SessionKey) : Bool := (state.sessions.get k).any (·.pinned)

theorem pinnedAt_eq {old : Option RemoteSession} (h : state.sessions.get k = old) :
    state.pinnedAt k = old.any (·.pinned) :=
  congrArg _ h

theorem pinnedAt_iff : state.pinnedAt k = true ↔ ∃ v, state.sessions.get k = some v ∧ v.pinned = true :=
  Option.any_eq_true ..

def pinnedKeys (state : SessionCatalogState) : List SessionKey := (state.sessions.entries.filter (·.2.pinned)).map (·.1)

theorem mem_pinnedKeys : k ∈ state.pinnedKeys ↔ state.pinnedAt k = true := by
  rw [pinnedKeys, List.mem_map, pinnedAt_iff]
  constructor
  · rintro ⟨e, he, rfl⟩
    obtain ⟨he, hpinned⟩ := List.mem_filter.mp he
    exact ⟨e.2, OMap.get_eq_some.mpr he, hpinned⟩
  · rintro ⟨v, hv, hpinned⟩
    exact ⟨(k, v), List.mem_filter.mpr ⟨OMap.get_eq_some.mp hv, hpinned⟩, rfl⟩

theorem length_pinned (state : SessionCatalogState) : state.pinned.length = state.pinnedKeys.length := by
  rw [pinned, pinnedKeys, OMap.values, List.filter_map, List.length_map, List.length_map]
  rfl

theorem nodup_pinnedKeys (state : SessionCatalogState) : state.pinnedKeys.Nodup :=
  OMap.nodup_filter state.sessions.nodup _

/-- Fewer pins. -/
theorem pinned_le (h : ∀ k, state'.pinnedAt k = true → state.pinnedAt k = true) :
    state'.pinned.length ≤ state.pinned.length := by
  rw [length_pinned, length_pinned]
  refine ((nodup_pinnedKeys state').subperm fun k hk => ?_).length_le
  exact mem_pinnedKeys.mpr (h k (mem_pinnedKeys.mp hk))

/-- One pin more. -/
theorem pinned_le_succ {j : SessionKey} (h : ∀ k, state'.pinnedAt k = true → k = j ∨ state.pinnedAt k = true) :
    state'.pinned.length ≤ state.pinned.length + 1 := by
  rw [length_pinned, length_pinned, ← List.length_cons]
  have hsubset : state'.pinnedKeys ⊆ j :: state.pinnedKeys := fun k hk =>
    List.mem_cons.mpr ((h k (mem_pinnedKeys.mp hk)).imp_right mem_pinnedKeys.mpr)
  exact ((nodup_pinnedKeys state').subperm hsubset).length_le

/-! ## Pins under an update -/

theorem any_pinned_map {f : RemoteSession → RemoteSession} (hf : ∀ s, (f s).pinned = s.pinned)
    (old : Option RemoteSession) :
    (old.map f).any (·.pinned) = old.any (·.pinned) := by
  cases old with
  | none => rfl
  | some s => exact hf s

theorem any_pinned_keeping {s : RemoteSession} (hs : s.pinned = false) (old : Option RemoteSession) :
    (s.keeping old).pinned = old.any (·.pinned) := by
  cases old with
  | none => exact hs
  | some t => rfl

theorem pinned_capturedAt (instances : List OpenCodeInstancePresence) (active : List ActiveSession) (k : SessionKey)
    (old : Option RemoteSession) : (capturedAt instances active k old).any (·.pinned) = old.any (·.pinned) := by
  unfold capturedAt
  induction active generalizing old with
  | nil => rfl
  | cons session active ih =>
    rw [List.foldl_cons, ih]
    split
    · exact any_pinned_keeping rfl old
    · rfl

theorem pinned_mergedAt (instance_ : OpenCodeInstancePresence) (snapshot : List Control.CatalogSession) (k : SessionKey)
    (old : Option RemoteSession) : (mergedAt instance_ snapshot k old).any (·.pinned) = old.any (·.pinned) := by
  have hfold : ∀ next : Option RemoteSession, next.any (·.pinned) = old.any (·.pinned) →
      (snapshot.foldl (fun next item =>
        if (snapshotItem instance_ item).key = k then some ((snapshotItem instance_ item).keeping old) else next)
          next).any (·.pinned) =
        old.any (·.pinned) := by
    induction snapshot with
    | nil => exact fun _ h => h
    | cons item snapshot ih =>
      intro next hnext
      refine ih _ ?_
      dsimp only
      split
      · exact any_pinned_keeping rfl old
      · exact hnext
  refine hfold _ ?_
  rw [any_pinned_map (fun s => by split <;> rfl)]
  cases old with
  | none => rfl
  | some s => cases hpinned : s.pinned <;> cases hbelongs : s.belongsTo instance_ <;> simp [Option.filter,
      hpinned, hbelongs]

/-- What is pinned comes first, and so is among the first thousand. -/
theorem pinned_listed {l : List RemoteSession} (hcount : (l.filter (·.pinned)).length ≤ 1000)
    {v : RemoteSession} (hv : v ∈ l)
    (hpinned : v.pinned = true) : v ∈ (P.listed.sort l).take 1000 := by
  have hmem := (P.listed.perm l).mem_iff.mpr hv
  rw [← List.take_append_drop 1000 (P.listed.sort l)] at hmem
  refine (List.mem_append.mp hmem).resolve_right fun hdropped => ?_
  have hfirst : ∀ s ∈ (P.listed.sort l).take 1000, s.pinned = true := by
    intro s hs
    have hsorted := P.listed.sorted l
    rw [← List.take_append_drop 1000 (P.listed.sort l)] at hsorted
    have hbefore := (List.pairwise_append.mp hsorted).2.2 s hs v hdropped
    rcases firstThen_iff.mp hbefore with h | h
    · exact h.1
    · exact h.1.trans hpinned
  have hlong := List.length_pos_of_mem hdropped
  have hone : 0 < (((P.listed.sort l).drop 1000).filter (·.pinned)).length :=
    List.length_pos_of_mem (List.mem_filter.mpr ⟨hdropped, hpinned⟩)
  have hlength : (l.filter (·.pinned)).length =
      ((P.listed.sort l).take 1000).length + (((P.listed.sort l).drop 1000).filter (·.pinned)).length := by
    rw [← ((P.listed.perm l).filter _).length_eq, ← List.filter_eq_self.mpr hfirst, ← List.length_append,
      ← List.filter_append,
      List.take_append_drop]
  rw [List.length_take] at hlength
  rw [List.length_drop] at hlong
  omega

/-- The update takes no pin but by its own key, and adds none but by its own key. -/
def CatalogUpdate.KeepsPins (state : SessionCatalogState) : CatalogUpdate → Prop
  | .capture .. => ∀ k ∈ state.deletedSessions, state.pinnedAt k = false
  | .snapshot .. => state.pinned.length ≤ 1000
  | .rollback item => item.pinned = true → state.sessions.has item.key = true ∨ state.pinned.length < 50
  | _ => True

def CatalogUpdate.Repins (k : SessionKey) : CatalogUpdate → Prop
  | .togglePin item | .deleteSession item => item.key = k
  | _ => False

theorem pinnedAt_merged (instance_ : OpenCodeInstancePresence) (snapshot : List Control.CatalogSession)
    (k : SessionKey) :
    ((state.merged instance_ snapshot).get k).any (·.pinned) = state.pinnedAt k := by
  rw [get_merged, pinned_mergedAt, pinnedAt]

theorem pinned_merged_le (instance_ : OpenCodeInstancePresence) (snapshot : List Control.CatalogSession) :
    ((state.merged instance_ snapshot).values.filter (·.pinned)).length ≤ state.pinned.length := by
  have hle : ({ state with sessions := state.merged instance_ snapshot } : SessionCatalogState).pinned.length ≤
    state.pinned.length :=
    pinned_le fun k hk => (pinnedAt_merged instance_ snapshot k).symm.trans hk
  exact hle

theorem pinned_retarget (instances : List OpenCodeInstancePresence) (s : RemoteSession) :
    (retarget instances s).pinned = s.pinned := rfl

/-- A pin stays, unless it is taken. -/
theorem pinnedAt_update (hkeyed : Keyed state.sessions) {u : CatalogUpdate} (hu : u.KeepsPins state) (hk : ¬ u.Repins k)
    (hpinned : state.pinnedAt k = true) : (state.update P u).pinnedAt k = true := by
  cases u with
  | stale | failed | markOpened =>
    refine (pinnedAt_eq (OMap.get_map _ _ _)).trans ((any_pinned_map (fun s => ?_) _).trans hpinned)
    split <;> rfl
  | capture instances active =>
    have hdeleted : k ∉ state.deletedSessions := by
      intro hmem
      rw [hu k hmem] at hpinned
      cases hpinned
    refine (pinnedAt_eq ((get_capture instances active k).trans (if_neg hdeleted))).trans ?_
    rw [any_pinned_map (pinned_retarget instances), pinned_capturedAt]
    exact hpinned
  | snapshot instance_ snapshot =>
    obtain ⟨v, hv, hvp⟩ := (Option.any_eq_true ..).mp ((pinnedAt_merged instance_ snapshot k).trans hpinned)
    obtain rfl := keyed_merged hkeyed instance_ snapshot k v hv
    have hstays := get_applySnapshot (P := P) hkeyed
      (pinned_listed (Nat.le_trans (pinned_merged_le instance_ snapshot) hu)
      (OMap.mem_values.mpr ⟨_, hv⟩) hvp)
    exact (pinnedAt_eq hstays).trans hvp
  | togglePin item =>
    rw [update, togglePin]
    split
    · exact hpinned
    · exact (pinnedAt_eq (OMap.get_set_ne _ _ fun h => hk h.symm)).trans hpinned
  | deleteSession item => exact (pinnedAt_eq (OMap.get_delete_ne _ fun h => hk h.symm)).trans hpinned
  | rollback item =>
    obtain ⟨v, hv, hvp⟩ := pinnedAt_iff.mp hpinned
    refine (pinnedAt_eq (OMap.get_merge _ _ _)).trans ?_
    rw [hv]
    exact hvp
  | forgetInstance instanceId =>
    obtain ⟨v, hv, hvp⟩ := pinnedAt_iff.mp hpinned
    refine (pinnedAt_eq (OMap.get_filter _ _ _)).trans ?_
    rw [hv, Option.filter_some, hvp]
    simpa using hvp
  | search | setSourceHidden | hideSession | restoreHidden => exact hpinned

/-- The pins that a pin or a rollback adds are its own. -/
theorem pinnedAt_of_update (hkeyed : Keyed state.sessions) {u : CatalogUpdate}
    (hpinned : (state.update P u).pinnedAt k = true) :
    state.pinnedAt k = true ∨
      (∃ item, u = .togglePin item ∧ k = item.key ∧ item.pinned = false ∧ state.pinned.length < 50) ∨
      ∃ item, u = .rollback item ∧ k = item.key ∧ item.pinned = true ∧ state.sessions.has item.key = false := by
  cases u with
  | stale | failed | markOpened =>
    refine Or.inl ((any_pinned_map (fun s => ?_) _).symm.trans ((pinnedAt_eq (OMap.get_map _ _ _)).symm.trans hpinned))
    split <;> rfl
  | capture instances active =>
    have hget := (pinnedAt_eq (get_capture instances active k)).symm.trans hpinned
    split at hget
    · cases hget
    · rw [any_pinned_map (pinned_retarget instances), pinned_capturedAt] at hget
      exact Or.inl hget
  | snapshot instance_ snapshot =>
    obtain ⟨v, hv, hvp⟩ := pinnedAt_iff.mp hpinned
    refine Or.inl ((pinnedAt_merged instance_ snapshot k).symm.trans ?_)
    rw [get_of_applySnapshot hkeyed hv]
    exact hvp
  | togglePin item =>
    rw [update, togglePin] at hpinned
    split at hpinned
    · exact Or.inl hpinned
    · rename_i hroom
      have hget := (pinnedAt_eq
        (OMap.get_set state.sessions item.key k { item with pinned := !item.pinned })).symm.trans hpinned
      split at hget
      · rename_i hk
        have hitem : item.pinned = false := by simpa using hget
        refine Or.inr (Or.inl ⟨item, rfl, hk, hitem, ?_⟩)
        simpa [hitem] using hroom
      · exact Or.inl hget
  | deleteSession item =>
    have hget := (pinnedAt_eq (OMap.get_delete state.sessions item.key k)).symm.trans hpinned
    split at hget
    · cases hget
    · exact Or.inl hget
  | rollback item =>
    have hget := (pinnedAt_eq (OMap.get_merge (OMap.empty.set item.key item) state.sessions k)).symm.trans hpinned
    cases hold : state.sessions.get k with
    | some v =>
      rw [hold] at hget
      exact Or.inl ((pinnedAt_eq hold).trans hget)
    | none =>
      rw [hold, Option.none_or, OMap.get_set] at hget
      split at hget
      · rename_i hk
        refine Or.inr (Or.inr ⟨item, rfl, hk, hget, ?_⟩)
        rw [OMap.has, ← hk, hold]
        rfl
      · cases hget
  | forgetInstance instanceId =>
    obtain ⟨v, hv, hvp⟩ := pinnedAt_iff.mp hpinned
    have hold := Option.filter_eq_some_iff.mp ((OMap.get_filter state.sessions _ k).symm.trans hv)
    exact Or.inl ((pinnedAt_eq hold.1).trans hvp)
  | search | setSourceHidden | hideSession | restoreHidden => exact Or.inl hpinned

theorem bounded_update (hkeyed : Keyed state.sessions) {u : CatalogUpdate} (hu : u.KeepsPins state)
    (h : state.pinned.length ≤ 50) :
    (state.update P u).pinned.length ≤ 50 := by
  by_cases hadds : ∃ item, u = .togglePin item ∧ item.pinned = false ∧ state.pinned.length < 50 ∨
      u = .rollback item ∧ item.pinned = true ∧ state.sessions.has item.key = false
  · obtain ⟨item, ⟨rfl, -, hroom⟩ | ⟨rfl, hitem, hhas⟩⟩ := hadds
    · refine Nat.le_trans (pinned_le_succ (j := item.key) fun k hk => ?_) hroom
      rcases pinnedAt_of_update hkeyed hk with hk | ⟨_, hu, hk, -⟩ | ⟨_, hu, -⟩
      · exact Or.inr hk
      · cases hu
        exact Or.inl hk
      · cases hu
    · have hroom : state.pinned.length < 50 := (hu hitem).resolve_left (by simp [hhas])
      refine Nat.le_trans (pinned_le_succ (j := item.key) fun k hk => ?_) hroom
      rcases pinnedAt_of_update hkeyed hk with hk | ⟨_, hu, -⟩ | ⟨_, hu, hk, -⟩
      · exact Or.inr hk
      · cases hu
      · cases hu
        exact Or.inl hk
  · refine Nat.le_trans (pinned_le fun k hk => ?_) h
    rcases pinnedAt_of_update hkeyed hk with hk | ⟨item, hu, -, hitem, hroom⟩ | ⟨item, hu, -, hitem, hhas⟩
    · exact hk
    · exact absurd ⟨item, Or.inl ⟨hu, hitem, hroom⟩⟩ hadds
    · exact absurd ⟨item, Or.inr ⟨hu, hitem, hhas⟩⟩ hadds

end SessionCatalogState

open SessionCatalogState

namespace SessionCatalogController

variable {P : DartPlatform} {c : SessionCatalogController} {k : SessionKey}

/-- No capture drops a pinned session that is deleted, no snapshot is merged over more than a thousand pins, and no
rollback adds a pin to fifty. -/
def KeepsPins (c : SessionCatalogController) : CatalogEvent → Prop
  | .presences .. | .active .. => c.loaded = true → ∀ k ∈ c.state.deletedSessions, c.state.pinnedAt k = false
  | .snapshot .. => c.loaded = true → c.state.pinned.length ≤ 1000
  | .resumed n => ∀ item, c.deletes[n]? = some ⟨item, c.epoch, some false, false⟩ → item.pinned = true →
      c.state.sessions.has item.key = true ∨ c.state.pinned.length < 50
  | _ => True

/-- `togglePin` or `deleteSession` of the session. -/
def Repins (k : SessionKey) : CatalogEvent → Prop
  | .togglePin item | .deleteSession item => item.key = k
  | _ => False

/-- Stale bindings are as pinned as they were. -/
theorem pinnedAt_stale (state : SessionCatalogState) (next : List OpenCodeInstancePresence) (k : SessionKey) :
    (state.staleBindings next).pinnedAt k = state.pinnedAt k := by
  refine (pinnedAt_eq (OMap.get_map _ _ _)).trans (any_pinned_map (fun s => ?_) _)
  split <;> rfl

/-- Each update of a step keeps the pins in the state it finds. -/
theorem keepsPins_updates {e : CatalogEvent} (h : KeepsPins c e) :
    Along (SessionCatalogState.update P) (fun state u => u.KeepsPins state) c.state (c.updates e) := by
  cases e with
  | presences instances active =>
    refine ⟨trivial, ?_⟩
    split
    · rename_i hloaded
      refine ⟨fun k hk => ?_, trivial⟩
      exact (pinnedAt_stale c.state instances k).trans (h hloaded k hk)
    · trivial
  | active instances active =>
    rw [updates]
    split
    · rename_i hloaded
      exact ⟨h hloaded, trivial⟩
    · trivial
  | snapshot instance_ sessions =>
    rw [updates]
    split
    · rename_i hloaded
      exact ⟨h hloaded, trivial⟩
    · trivial
  | failed =>
    rw [updates]
    split
    · exact ⟨trivial, trivial⟩
    · trivial
  | resumed n =>
    rw [updates]
    split
    · rename_i item epoch hcall
      split
      · rename_i hepoch
        exact ⟨h item (hepoch ▸ hcall), trivial⟩
      · trivial
    · trivial
  | build | restart | load | save | setSessions | setPreferences => trivial
  | _ => exact ⟨trivial, trivial⟩

theorem repins_updates {e : CatalogEvent} (h : ¬ Repins k e) : ∀ u ∈ c.updates e, ¬ u.Repins k := by
  intro u hu
  cases e with
  | togglePin | deleteSession =>
    rw [List.mem_singleton.mp hu]
    exact h
  | presences instances active =>
    rcases List.mem_cons.mp hu with rfl | hu
    · exact id
    · split at hu
      · rw [List.mem_singleton.mp hu]
        exact id
      · cases hu
  | active | snapshot | failed =>
    rw [updates] at hu
    split at hu
    · rw [List.mem_singleton.mp hu]
      exact id
    · cases hu
  | resumed n =>
    rw [updates] at hu
    split at hu
    · split at hu
      · rw [List.mem_singleton.mp hu]
        exact id
      · cases hu
    · cases hu
  | build | restart | load | save | setSessions | setPreferences => cases hu
  | _ =>
    rw [List.mem_singleton.mp hu]
    exact id

theorem pinnedAt_updates {us : List CatalogUpdate} {state : SessionCatalogState} (hkeyed : Keyed state.sessions)
    (hus : Along (SessionCatalogState.update P) (fun state u => u.KeepsPins state) state us)
    (hk : ∀ u ∈ us, ¬ u.Repins k)
    (hpinned : state.pinnedAt k = true) : (us.foldl (·.update P) state).pinnedAt k = true := by
  induction us generalizing state with
  | nil => exact hpinned
  | cons u us ih =>
    exact ih (keyed_update hkeyed u) hus.2 (fun u' hu' => hk u' (List.mem_cons_of_mem _ hu'))
      (pinnedAt_update hkeyed hus.1 (hk u List.mem_cons_self) hpinned)

theorem bounded_updates {us : List CatalogUpdate} {state : SessionCatalogState} (hkeyed : Keyed state.sessions)
    (hus : Along (SessionCatalogState.update P) (fun state u => u.KeepsPins state) state us)
    (h : state.pinned.length ≤ 50) :
    (us.foldl (·.update P) state).pinned.length ≤ 50 := by
  induction us generalizing state with
  | nil => exact h
  | cons u us ih => exact ih (keyed_update hkeyed u) hus.2 (bounded_update hkeyed hus.1 h)

theorem pinnedAt_step (hkeyed : Keyed c.state.sessions) {e : CatalogEvent} (hsteady : Steady e)
    (h : KeepsPins c e) (hk : ¬ Repins k e)
    (hpinned : c.state.pinnedAt k = true) : (step P c e).state.pinnedAt k = true := by
  rw [(step_same hsteady).2]
  exact pinnedAt_updates hkeyed (keepsPins_updates h) (repins_updates hk) hpinned

theorem bounded_step (hkeyed : Keyed c.state.sessions) {e : CatalogEvent} (hsteady : Steady e) (h : KeepsPins c e)
    (hbound : c.state.pinned.length ≤ 50) : (step P c e).state.pinned.length ≤ 50 := by
  rw [(step_same hsteady).2]
  exact bounded_updates hkeyed (keepsPins_updates h) hbound

/-- From a load on: a pin goes by `togglePin` or `deleteSession`, and fifty stay the most. -/
theorem pins_kept_and_bounded (P : DartPlatform) (c loaded : SessionCatalogController) (account : JsString)
    (instances : List OpenCodeInstancePresence) (active : List ActiveSession) (es : List CatalogEvent)
    (haccount : c.storageKey = some account) (hnew : c.loaded = false)
    (hloaded : loaded = step P c (.load instances active))
    (hsteady : ∀ e ∈ es, Steady e) (hkeeps : Along (step P) KeepsPins loaded es) :
    (∀ before e after, es = before ++ e :: after → ∀ k, (runFrom (step P) loaded before).state.pinnedAt k = true →
      (runFrom (step P) loaded (before ++ [e])).state.pinnedAt k = true ∨ Repins k e) ∧
    (loaded.state.pinned.length ≤ 50 → (runFrom (step P) loaded es).state.pinned.length ≤ 50) := by
  have hkeyed : Keyed loaded.state.sessions := by
    rw [hloaded, step, load, haccount]
    dsimp only
    rw [if_neg (by simp [hnew]), (capture_same instances active).2]
    exact keyed_updates (keyed_read account)
  have hrun : ∀ es, Keyed (runFrom (step P) loaded es).state.sessions := keyed_run hkeyed
  constructor
  · intro before e after hes k hpinned
    have hkeep := along_iff.mp hkeeps before e after hes
    have hsteady := hsteady e (hes ▸ List.mem_append_right _ List.mem_cons_self)
    rw [runFrom_append]
    by_cases hk : Repins k e
    · exact Or.inr hk
    · exact Or.inl (pinnedAt_step (hrun before) hsteady hkeep hk hpinned)
  · intro hbound
    induction es using List.reverseRecOn with
    | nil => exact hbound
    | append_singleton es e ih =>
      obtain ⟨hbefore, hkeep, -⟩ := along_append.mp hkeeps
      rw [runFrom_append]
      refine bounded_step (hrun es) (hsteady e (by simp)) hkeep (ih (fun e' he' => hsteady e' (by simp [he'])) hbefore)

/-! ## One pin, and fifty -/

namespace PinnedRun

open CatalogSample

/-- Sessions with names of different lengths. -/
def name (i : Nat) : JsString := List.replicate (i + 1) 97

def stored (catalog : List RemoteSession) : SessionCatalogController :=
  init (some account) (OMap.empty.set account catalog) .empty

def fifty : List RemoteSession := (List.range 50).map (fun i => item (name i) true) ++ [item (name 50) false]

end PinnedRun

open PinnedRun CatalogSample in
/-- A snapshot without it keeps a pin. -/
theorem pin_survives_snapshot :
    (runFrom (step platform) (step platform (stored [item (name 0) true]) (.load [laptop] []))
      [.snapshot laptop [listed (name 1)]]).state.pinnedAt
      (item (name 0) true).key = true := by
  refine ((pins_kept_and_bounded platform (stored [item (name 0) true]) _ account [laptop] []
    [.snapshot laptop [listed (name 1)]] rfl rfl rfl ?_ ?_).1 [] _ [] rfl _ ?_).resolve_right id
  · exact List.forall_mem_singleton.mpr trivial
  · exact ⟨fun _ => by decide +kernel, trivial⟩
  · decide +kernel

open PinnedRun CatalogSample in
/-- A delete of a pinned session fails after another one was pinned in its place. -/
theorem rollback_pins_one_more :
    (step platform (stored fifty) (.load [] [])).state.pinned.length = 50 ∧
      (runFrom (step platform) (step platform (stored fifty) (.load [] []))
        [.deleteSession (item (name 0) true), .togglePin (item (name 50) false), .setSessions .saved,
          .setPreferences .saved,
          .setSessions (.threw false), .resumed 0]).state.pinned.length = 51 := by
  refine ⟨by decide +kernel, by decide +kernel⟩

end SessionCatalogController

end NotifyHub.Client
