/-
  NotifyHub.Client.DeleteRollback — does a delete that could not be saved change nothing?

  - `failed_delete_changes_nothing`: while no update touches the session (`LeavesAlone`), the
    rollback leaves what the other updates alone make of the state before the call, if the
    session was listed as it was given, not deleted, and not hidden or hidden anew since.
  - `hidden_comes_back`: the delete also unhides the session, and the rollback does not undo
    that.
-/

import NotifyHub.Client.PinnedSessions

namespace NotifyHub.Client

namespace SessionCatalogState

variable {P : DartPlatform} {state : SessionCatalogState} {item : RemoteSession} {k : SessionKey}

/-- The same sessions, hidden and deleted sets; the order of a map does not count. -/
structure Agree (s t : SessionCatalogState) : Prop where
  sessions : ∀ k, s.sessions.get k = t.sessions.get k
  hidden : s.hiddenSessions = t.hiddenSessions
  deleted : s.deletedSessions = t.deletedSessions

/-! ## Hidden sessions -/

/-- What an update makes of the hidden sessions. -/
def CatalogUpdate.hides (hidden : Finset SessionKey) : CatalogUpdate → Finset SessionKey
  | .hideSession item => insert item.key hidden
  | .restoreHidden => ∅
  | .deleteSession item => hidden.erase item.key
  | _ => hidden

theorem hidden_update (state : SessionCatalogState) (u : CatalogUpdate) :
    (state.update P u).hiddenSessions = u.hides state.hiddenSessions := by
  cases u with
  | togglePin item =>
    rw [update, togglePin]
    split <;> rfl
  | _ => rfl

theorem hidden_updates (state : SessionCatalogState) (us : List CatalogUpdate) :
    (us.foldl (·.update P) state).hiddenSessions = us.foldl CatalogUpdate.hides state.hiddenSessions := by
  induction us generalizing state with
  | nil => rfl
  | cons u us ih => rw [List.foldl_cons, ih, hidden_update, List.foldl_cons]

/-- After the update, whether the session was hidden before does not count. -/
def CatalogUpdate.Rehides (k : SessionKey) : CatalogUpdate → Prop
  | .hideSession item => item.key = k
  | .restoreHidden => True
  | _ => False

theorem hides_of_rehides {hidden : Finset SessionKey} {u : CatalogUpdate} (hu : u.Rehides k) :
    u.hides (hidden.erase k) = u.hides hidden := by
  cases u with
  | hideSession item =>
    obtain rfl := hu
    refine Finset.ext fun j => ?_
    simp only [CatalogUpdate.hides, Finset.mem_insert, Finset.mem_erase]
    tauto
  | restoreHidden => rfl
  | _ => exact hu.elim

theorem hides_erase {hidden : Finset SessionKey} {u : CatalogUpdate} (hu : ¬ u.Rehides k) :
    u.hides (hidden.erase k) = (u.hides hidden).erase k := by
  cases u with
  | hideSession item => exact (Finset.erase_insert_of_ne hu).symm
  | restoreHidden => exact absurd trivial hu
  | deleteSession item => exact Finset.erase_right_comm
  | _ => rfl

/-- A session that was unhidden is hidden like the others in the end. -/
theorem hides_run {hidden : Finset SessionKey} {us : List CatalogUpdate} (hagain : k ∉ hidden ∨ ∃ u ∈ us, u.Rehides k) :
    us.foldl CatalogUpdate.hides (hidden.erase k) = us.foldl CatalogUpdate.hides hidden := by
  rcases hagain with hmem | hagain
  · rw [Finset.erase_eq_of_notMem hmem]
  · induction us generalizing hidden with
    | nil =>
      obtain ⟨u, hu, -⟩ := hagain
      cases hu
    | cons v us ih =>
      rw [List.foldl_cons, List.foldl_cons]
      by_cases hv : v.Rehides k
      · rw [hides_of_rehides hv]
      · obtain ⟨u, hu, hrehides⟩ := hagain
        rcases List.mem_cons.mp hu with rfl | hu
        · exact absurd hrehides hv
        · rw [hides_erase hv]
          exact ih ⟨u, hu, hrehides⟩

/-! ## The two runs -/

/-- The state of the run in which the delete was called, and the state of the run without it. -/
structure Apart (item : RemoteSession) (s t : SessionCatalogState) : Prop where
  keyed : Keyed s.sessions ∧ Keyed t.sessions
  others : ∀ k, k ≠ item.key → s.sessions.get k = t.sessions.get k
  own : t.sessions.get item.key = (s.sessions.get item.key).or (some item)
  deleted : t.deletedSessions = s.deletedSessions.erase item.key
  marked : item.key ∈ s.deletedSessions

/-- The update does the same to the session whether or not it was taken out. -/
def CatalogUpdate.LeavesAlone (item : RemoteSession) (s : SessionCatalogState) : CatalogUpdate → Prop
  | .stale next => s.sessions.get item.key = none →
      (next.find? (·.instanceId = item.instanceId)).any (·.state == .controllable) = true ∨
        item.unverified "unknown" = item
  | .capture instances active => s.sessions.get item.key = none ∧
      (∀ session ∈ active, (localItem instances session).key ≠ item.key) ∧
      retarget instances item = item
  | .snapshot instance_ sessions => s.sessions.size + sessions.length < 1000 ∧
      match s.sessions.get item.key with
      | none =>
        if ∃ x ∈ sessions, (snapshotItem instance_ x).key = item.key then item.pinned = false ∧ item.openedAt = none
        else item.belongsTo instance_ = false
      | some x => x.belongsTo instance_ = true → x.pinned = true ∨ ∃ y ∈ sessions,
          (snapshotItem instance_ y).key = item.key
  | .failed instance_ => s.sessions.get item.key = none → item.belongsTo instance_ = false ∨
      item.unverified "unknown" = item
  | .togglePin other => other.pinned = true ∨ item.pinned = false ∨ s.sessions.has item.key = true ∨
      s.pinned.length ≠ 49
  | .deleteSession other | .rollback other => other.key ≠ item.key
  | .forgetInstance instanceId =>
      ((s.sessions.get item.key).getD item).instanceId = instanceId →
        ((s.sessions.get item.key).getD item).pinned = true
  | .markOpened instanceId sessionId _ => s.sessions.get item.key = none → item.instanceId = instanceId →
      item.session.sessionId ≠ sessionId
  | .search _ | .setSourceHidden .. | .hideSession _ | .restoreHidden => True

/-! ## One update -/

/-- Where the key is set, what was there before does not count. -/
theorem foldl_of_mem {α : Type} {key : α → SessionKey} {value : α → RemoteSession} {l : List α}
    (h : ∃ x ∈ l, key x = k) :
    ∃ v, ∀ old : Option RemoteSession, l.foldl (fun next x => if key x = k then some (value x) else next) old =
      some v := by
  induction l with
  | nil =>
    obtain ⟨x, hx, -⟩ := h
    cases hx
  | cons x l ih =>
    by_cases hl : ∃ y ∈ l, key y = k
    · obtain ⟨v, hv⟩ := ih hl
      exact ⟨v, fun old => hv _⟩
    · obtain ⟨y, hy, hk⟩ := h
      rcases List.mem_cons.mp hy with rfl | hy
      · refine ⟨value y, fun old => ?_⟩
        rw [List.foldl_cons, if_pos hk]
        exact foldl_of_ne (fun z hz hkey => hl ⟨z, hz, hkey⟩) _
      · exact absurd ⟨y, hy, hk⟩ hl

theorem keeping_plain {s : RemoteSession} (hs : s.pinned = false) (hitem : item.pinned = false ∧ item.openedAt = none) :
    s.keeping (some item) = s.keeping none := by
  simp [RemoteSession.keeping, hs, hitem.1, hitem.2]

theorem size_merged_le (instance_ : OpenCodeInstancePresence) (snapshot : List Control.CatalogSession) :
    (state.merged instance_ snapshot).size ≤ state.sessions.size + snapshot.length := by
  have hfold : ∀ next : OMap SessionKey RemoteSession, (snapshot.foldl (fun next x =>
      next.set (snapshotItem instance_ x).key
        ((snapshotItem instance_ x).keeping (state.sessions.get (snapshotItem instance_ x).key)))
      next).size ≤ next.size + snapshot.length := by
    induction snapshot with
    | nil => exact fun _ => Nat.le_refl _
    | cons x snapshot ih =>
      intro next
      have hset := OMap.size_set_le next (snapshotItem instance_ x).key
        ((snapshotItem instance_ x).keeping (state.sessions.get (snapshotItem instance_ x).key))
      have hrest := ih (next.set (snapshotItem instance_ x).key
        ((snapshotItem instance_ x).keeping (state.sessions.get (snapshotItem instance_ x).key)))
      rw [List.foldl_cons, List.length_cons]
      omega
  refine Nat.le_trans (hfold _) (Nat.add_le_add_right ?_ _)
  rw [OMap.size, OMap.map, List.length_map]
  exact List.length_filter_le _ _

/-- A snapshot that leaves room is merged as a whole. -/
theorem get_applySnapshot_of_room (hkeyed : Keyed state.sessions) {instance_ : OpenCodeInstancePresence}
    {snapshot : List Control.CatalogSession} (hroom : state.sessions.size + snapshot.length ≤ 1000) (k : SessionKey) :
    (state.applySnapshot P instance_ snapshot).sessions.get k = mergedAt instance_ snapshot k
      (state.sessions.get k) := by
  rw [← get_merged]
  cases hget : (state.merged instance_ snapshot).get k with
  | none =>
    refine Option.eq_none_iff_forall_ne_some.mpr fun v hv => ?_
    rw [get_of_applySnapshot hkeyed hv] at hget
    cases hget
  | some v =>
    obtain rfl := keyed_merged hkeyed instance_ snapshot k v hget
    refine get_applySnapshot hkeyed ?_
    have hsize : (P.listed.sort (state.merged instance_ snapshot).values).length ≤ 1000 := by
      rw [(P.listed.perm _).length_eq, OMap.values, List.length_map]
      exact Nat.le_trans (size_merged_le instance_ snapshot) hroom
    rw [List.take_of_length_le hsize]
    exact (P.listed.perm _).mem_iff.mpr (OMap.mem_values.mpr ⟨_, hget⟩)

theorem togglePin_refused {other : RemoteSession} (h : !other.pinned ∧ state.pinned.length ≥ 50) :
    state.update P (.togglePin other) = state := by
  rw [update, togglePin, if_pos h, Option.getD_none]

theorem togglePin_done {other : RemoteSession} (h : ¬ (!other.pinned ∧ state.pinned.length ≥ 50)) :
    state.update P (.togglePin other) =
      { state with sessions := state.sessions.set other.key { other with pinned := !other.pinned } } := by
  rw [update, togglePin, if_neg h, Option.getD_some]

namespace Apart

variable {s t s' t' : SessionCatalogState}

/-- Each entry is changed for itself. -/
theorem entrywise (h : Apart item s t) (hkeyed : Keyed s'.sessions ∧ Keyed t'.sessions)
    (f : SessionKey → Option RemoteSession → Option RemoteSession)
    (hs : ∀ k, s'.sessions.get k = f k (s.sessions.get k)) (ht : ∀ k, t'.sessions.get k = f k (t.sessions.get k))
    (hown : f item.key ((s.sessions.get item.key).or (some item)) =
      (f item.key (s.sessions.get item.key)).or (some item))
    (hdeleted : t'.deletedSessions = s'.deletedSessions.erase item.key) (hmarked : item.key ∈ s'.deletedSessions) :
    Apart item s' t' where
  keyed := hkeyed
  others k hk := by rw [hs, ht, h.others k hk]
  own := by rw [ht, h.own, hown, hs]
  deleted := hdeleted
  marked := hmarked

theorem own_map {f : RemoteSession → RemoteSession} {old : Option RemoteSession} (hf : old = none → f item = item) :
    (old.or (some item)).map f = (old.map f).or (some item) := by
  cases old with
  | none => exact congrArg some (hf rfl)
  | some x => rfl

/-- `togglePin` finds room in both runs or in none. -/
theorem full_iff (h : Apart item s t)
    (hroom : item.pinned = false ∨ s.sessions.has item.key = true ∨ s.pinned.length ≠ 49) :
    t.pinned.length ≥ 50 ↔ s.pinned.length ≥ 50 := by
  have hle : s.pinned.length ≤ t.pinned.length := by
    refine pinned_le fun k hk => ?_
    by_cases hkey : k = item.key
    · subst hkey
      obtain ⟨v, hv, hvp⟩ := pinnedAt_iff.mp hk
      refine pinnedAt_iff.mpr ⟨v, ?_, hvp⟩
      rw [h.own, hv]
      rfl
    · exact (pinnedAt_eq (h.others k hkey).symm).trans hk
  have hge : t.pinned.length ≤ s.pinned.length + 1 ∧
      (item.pinned = false ∨ s.sessions.has item.key = true → t.pinned.length ≤ s.pinned.length) := by
    constructor
    · refine pinned_le_succ (j := item.key) fun k hk => ?_
      by_cases hkey : k = item.key
      · exact Or.inl hkey
      · exact Or.inr ((pinnedAt_eq (h.others k hkey)).trans hk)
    · intro hsame
      refine pinned_le fun k hk => ?_
      by_cases hkey : k = item.key
      · subst hkey
        rw [pinnedAt_eq h.own] at hk
        cases hget : s.sessions.get item.key with
        | some v =>
          rw [hget] at hk
          exact (pinnedAt_eq hget).trans hk
        | none =>
          rw [hget] at hk
          rcases hsame with hitem | hhas
          · exact absurd hk (by simp [hitem])
          · rw [OMap.has, hget] at hhas
            cases hhas
      · exact (pinnedAt_eq (h.others k hkey)).trans hk
  rcases hroom with hroom | hroom | hroom
  · have := hge.2 (Or.inl hroom)
    omega
  · have := hge.2 (Or.inr hroom)
    omega
  · have := hge.1
    omega

/-- What a snapshot makes of the session. -/
theorem own_merged {instance_ : OpenCodeInstancePresence} {sessions : List Control.CatalogSession}
    {old : Option RemoteSession}
    (h : match old with
      | none =>
        if ∃ x ∈ sessions, (snapshotItem instance_ x).key = item.key then item.pinned = false ∧ item.openedAt = none
        else item.belongsTo instance_ = false
      | some x => x.belongsTo instance_ = true → x.pinned = true ∨ ∃ y ∈ sessions,
          (snapshotItem instance_ y).key = item.key) :
    mergedAt instance_ sessions item.key (old.or (some item)) = (mergedAt instance_ sessions item.key old).or
      (some item) := by
  by_cases hlisted : ∃ x ∈ sessions, (snapshotItem instance_ x).key = item.key
  · have hset : ∀ old : Option RemoteSession, ∃ v, ∀ next : Option RemoteSession, sessions.foldl (fun next x =>
        if (snapshotItem instance_ x).key = item.key then some ((snapshotItem instance_ x).keeping old) else next)
          next = some v :=
      fun _ => foldl_of_mem hlisted
    cases old with
    | none =>
      have hplain : item.pinned = false ∧ item.openedAt = none := by simpa [hlisted] using h
      have hkeeping : ∀ x, (snapshotItem instance_ x).keeping (some item) = (snapshotItem instance_ x).keeping none :=
        fun _ => keeping_plain rfl hplain
      obtain ⟨v, hv⟩ := hset none
      simp only [mergedAt, Option.none_or, hkeeping, hv, Option.some_or]
    | some x =>
      obtain ⟨v, hv⟩ := hset (some x)
      simp only [mergedAt, Option.some_or, hv]
  · have hne : ∀ x ∈ sessions, (snapshotItem instance_ x).key ≠ item.key := fun x hx hk => hlisted ⟨x, hx, hk⟩
    rw [mergedAt, mergedAt, foldl_of_ne hne, foldl_of_ne hne]
    cases old with
    | none =>
      have hbelongs : item.belongsTo instance_ = false := by simpa [hlisted] using h
      simp [Option.filter, hbelongs]
    | some x =>
      have hkept : (!(x.belongsTo instance_ && !x.pinned)) = true := by
        cases hbelongs : x.belongsTo instance_ with
        | false => rfl
        | true =>
          rw [(h hbelongs).resolve_right hlisted]
          rfl
      simp [Option.filter, hkept]

theorem size_le (h : Apart item s t) : t.sessions.size ≤ s.sessions.size + 1 := by
  have hsize : ∀ m : OMap SessionKey RemoteSession, m.size = m.keys.length := fun m => (List.length_map _).symm
  rw [hsize, hsize, ← List.length_cons]
  have hsubset : t.sessions.keys ⊆ item.key :: s.sessions.keys := by
    intro k hk
    by_cases hkey : k = item.key
    · exact hkey ▸ List.mem_cons_self
    · obtain ⟨v, hv⟩ := OMap.mem_keys.mp hk
      exact List.mem_cons_of_mem _ (OMap.mem_keys.mpr ⟨v, (h.others k hkey).trans hv⟩)
  exact (t.sessions.nodup.subperm hsubset).length_le

theorem update (h : Apart item s t) {u : CatalogUpdate} (hu : u.LeavesAlone item s) :
    Apart item (s.update P u) (t.update P u) := by
  have hkeyed : Keyed (s.update P u).sessions ∧ Keyed (t.update P u).sessions :=
    ⟨keyed_update h.keyed.1 u, keyed_update h.keyed.2 u⟩
  cases u with
  | stale next =>
    refine h.entrywise hkeyed (fun _ => Option.map _) (fun k => OMap.get_map _ _ k) (fun k => OMap.get_map _ _ k)
      (own_map fun hnone => ?_) h.deleted h.marked
    rcases hu hnone with hbound | hstale
    · exact if_pos hbound
    · split
      · rfl
      · exact hstale
  | failed instance_ =>
    refine h.entrywise hkeyed (fun _ => Option.map _) (fun k => OMap.get_map _ _ k) (fun k => OMap.get_map _ _ k)
      (own_map fun hnone => ?_) h.deleted h.marked
    rcases hu hnone with hother | hstale
    · exact if_neg (by simp [hother])
    · split
      · exact hstale
      · rfl
  | markOpened instanceId sessionId now =>
    refine h.entrywise hkeyed (fun _ => Option.map _) (fun k => OMap.get_map _ _ k) (fun k => OMap.get_map _ _ k)
      (own_map fun hnone => ?_) h.deleted h.marked
    exact if_neg fun hopened => hu hnone hopened.1 hopened.2
  | forgetInstance instanceId =>
    refine h.entrywise hkeyed (fun _ => Option.filter _) (fun k => OMap.get_filter _ _ k)
      (fun k => OMap.get_filter _ _ k)
      ?_ h.deleted h.marked
    have hkept : (!((((s.sessions.get item.key).getD item).instanceId == instanceId) &&
      !((s.sessions.get item.key).getD item).pinned)) =
        true := by
      by_cases hid : ((s.sessions.get item.key).getD item).instanceId = instanceId
      · simp [hu hid]
      · simp [hid]
    cases hget : s.sessions.get item.key with
    | none =>
      rw [hget, Option.getD_none] at hkept
      simp only [Option.none_or, Option.filter, hkept, if_true]
    | some x =>
      rw [hget] at hkept
      simp only [Option.getD_some] at hkept
      simp [Option.filter, hkept]
  | capture instances active =>
    obtain ⟨hnone, hlive, hretarget⟩ := hu
    have hs : ∀ k, (s.captureLocalSessions instances active).sessions.get k = _ := get_capture instances active
    have ht : ∀ k, (t.captureLocalSessions instances active).sessions.get k = _ := get_capture instances active
    refine ⟨hkeyed, fun k hk => ?_, ?_, h.deleted, h.marked⟩
    · refine (hs k).trans (Eq.trans ?_ (ht k).symm)
      rw [h.others k hk, h.deleted]
      simp [hk]
    · refine (ht item.key).trans (Eq.trans ?_ (congrArg (Option.or · (some item)) (hs item.key)).symm)
      rw [h.deleted, if_neg (Finset.notMem_erase _ _), if_pos h.marked, h.own, hnone, capturedAt,
        foldl_of_ne hlive, Option.none_or, Option.map_some, hretarget]
  | snapshot instance_ sessions =>
    obtain ⟨hroom, hown⟩ := hu
    have hsize := h.size_le
    exact h.entrywise hkeyed (fun k => mergedAt instance_ sessions k) (get_applySnapshot_of_room h.keyed.1 (by omega))
      (get_applySnapshot_of_room h.keyed.2 (by omega)) (own_merged hown) h.deleted h.marked
  | togglePin other =>
    have hfull : (!other.pinned ∧ t.pinned.length ≥ 50) ↔ (!other.pinned ∧ s.pinned.length ≥ 50) := by
      refine and_congr_right fun hother => ?_
      rcases hu with hu | hu
      · simp [hu] at hother
      · exact h.full_iff hu
    by_cases hrefused : !other.pinned ∧ s.pinned.length ≥ 50
    · rw [togglePin_refused hrefused, togglePin_refused (hfull.mpr hrefused)]
      exact h
    · rw [togglePin_done hrefused, togglePin_done (hfull.not.mpr hrefused)] at hkeyed ⊢
      refine h.entrywise hkeyed (fun k old => if k = other.key then some { other with pinned := !other.pinned }
        else old)
        (fun k => OMap.get_set _ _ _ _) (fun k => OMap.get_set _ _ _ _) ?_ h.deleted h.marked
      split <;> rfl
  | deleteSession other =>
    refine h.entrywise hkeyed (fun k old => if k = other.key then none else old) (fun k => OMap.get_delete _ _ _)
      (fun k => OMap.get_delete _ _ _) ?_ ?_ (Finset.mem_insert_of_mem h.marked)
    · rw [if_neg fun hk => hu hk.symm, if_neg fun hk => hu hk.symm]
    · show insert other.key t.deletedSessions = (insert other.key s.deletedSessions).erase item.key
      rw [h.deleted, Finset.erase_insert_of_ne hu]
  | rollback other =>
    refine h.entrywise hkeyed (fun k old => old.or ((OMap.empty.set other.key other).get k))
      (fun k => OMap.get_merge _ _ _)
      (fun k => OMap.get_merge _ _ _) ?_ ?_ (Finset.mem_erase.mpr ⟨fun hk => hu hk.symm, h.marked⟩)
    · rw [OMap.get_set_ne _ _ fun hk => hu hk.symm]
      cases s.sessions.get item.key <;> rfl
    · show t.deletedSessions.erase other.key = (s.deletedSessions.erase other.key).erase item.key
      rw [h.deleted, Finset.erase_right_comm]
  | search | setSourceHidden | hideSession | restoreHidden => exact ⟨h.keyed, h.others, h.own, h.deleted, h.marked⟩

end Apart

end SessionCatalogState

open SessionCatalogState

namespace SessionCatalogController

variable {P : DartPlatform} {c : SessionCatalogController}

/-- The updates of a run. -/
def updatesAlong (P : DartPlatform) (c : SessionCatalogController) : List CatalogEvent → List CatalogUpdate
  | [] => []
  | e :: es => c.updates e ++ updatesAlong P (step P c e) es

theorem run_same {es : List CatalogEvent} (hsteady : ∀ e ∈ es, Steady e) :
    Same c (runFrom (step P) c es) ∧
      (runFrom (step P) c es).state = (updatesAlong P c es).foldl (·.update P) c.state := by
  induction es generalizing c with
  | nil => exact ⟨.refl c, rfl⟩
  | cons e es ih =>
    obtain ⟨hsame, hstate⟩ := step_same (P := P) (c := c) (hsteady e List.mem_cons_self)
    obtain ⟨hrest, hrun⟩ := ih (c := step P c e) fun e' he' => hsteady e' (List.mem_cons_of_mem _ he')
    refine ⟨hsame.trans hrest, ?_⟩
    rw [updatesAlong, List.foldl_append, ← hstate]
    exact hrun

theorem apart_run {item : RemoteSession} {us : List CatalogUpdate} {s t : SessionCatalogState} (h : Apart item s t)
    (hus : Along (SessionCatalogState.update P) (fun s u => u.LeavesAlone item s) s us) :
    Apart item (us.foldl (·.update P) s) (us.foldl (·.update P) t) := by
  induction us generalizing s t with
  | nil => exact h
  | cons u us ih => exact ih (h.update hus.1) hus.2

theorem apart_delete {item : RemoteSession} {s : SessionCatalogState} (hkeyed : Keyed s.sessions)
    (hlisted : s.sessions.get item.key = some item) (hkept : item.key ∉ s.deletedSessions) :
    Apart item (s.deleteSession item) s where
  keyed := ⟨hkeyed.filter _, hkeyed⟩
  others k hk := OMap.get_delete_ne _ hk
  own := by
    have hgone : (s.deleteSession item).sessions.get item.key = none := (OMap.get_delete _ _ _).trans (if_pos rfl)
    rw [hgone, hlisted]
    rfl
  deleted := (Finset.erase_insert hkept).symm
  marked := Finset.mem_insert_self _ _

/-- A delete fails while no update of the run touches the session. -/
theorem failed_delete_changes_nothing (P : DartPlatform) (storageKey : Option JsString)
    (catalogs : OMap JsString (List RemoteSession))
    (preferences : OMap JsString CatalogPreferences) (before es : List CatalogEvent) (c c' : SessionCatalogController)
    (item : RemoteSession) (hc : c = runFrom (step P) (init storageKey catalogs preferences) before)
    (hc' : c' = runFrom (step P) (step P c (.deleteSession item)) es) (hsteady : ∀ e ∈ es, Steady e)
    (hfails : c'.deletes[c.deletes.length]? = some ⟨item, c.epoch, some false, false⟩)
    (hlisted : c.state.sessions.get item.key = some item) (hkept : item.key ∉ c.state.deletedSessions)
    (hhidden : item.key ∉ c.state.hiddenSessions ∨
      ∃ u ∈ updatesAlong P (step P c (.deleteSession item)) es, u.Rehides item.key)
    (halone : Along (SessionCatalogState.update P) (fun s u => u.LeavesAlone item s) (c.state.deleteSession item)
      (updatesAlong P (step P c (.deleteSession item)) es)) :
    Agree (step P c' (.resumed c.deletes.length)).state
      ((updatesAlong P (step P c (.deleteSession item)) es).foldl (·.update P) c.state) := by
  have hkeyed : Keyed c.state.sessions := hc ▸ keyed_run Keyed.empty before
  obtain ⟨hcalled, hcallState⟩ := step_same (P := P) (c := c) (e := .deleteSession item) trivial
  obtain ⟨hrun, hstate⟩ := run_same (P := P) (c := step P c (.deleteSession item)) hsteady
  have hepoch : c'.epoch = c.epoch := by rw [hc', hrun.epoch, hcalled.epoch]
  generalize updatesAlong P (step P c (.deleteSession item)) es = us at *
  have hrolled : (step P c' (.resumed c.deletes.length)).state =
    (us.foldl (·.update P) (c.state.deleteSession item)).rollback item := by
    rw [step, resumed, hfails]
    dsimp only
    rw [if_neg Bool.false_ne_true, if_pos hepoch.symm]
    show c'.state.rollback item = _
    rw [hc', hstate, hcallState]
    rfl
  have hapart := apart_run (apart_delete hkeyed hlisted hkept) halone
  rw [hrolled]
  refine ⟨fun k => (OMap.get_merge _ _ _).trans ?_, ?_, hapart.deleted.symm⟩
  · by_cases hk : k = item.key
    · subst hk
      rw [OMap.get_set_self, hapart.own]
    · rw [OMap.get_set_ne _ _ hk, ← hapart.others k hk]
      exact Option.or_none
  · show (us.foldl (·.update P) (c.state.deleteSession item)).hiddenSessions = _
    rw [hidden_updates, hidden_updates]
    exact hides_run hhidden

/-! ## Two deletes that fail -/

namespace RollbackRun

open CatalogSample

def session : RemoteSession := item (js "ses_1") false

/-- The session is listed. -/
def before : List CatalogEvent := [.load [laptop] [], .snapshot laptop [listed (js "ses_1")]]

def run (es : List CatalogEvent) : SessionCatalogController :=
  runFrom (step platform) (init (some account) .empty .empty) es

end RollbackRun

open RollbackRun CatalogSample in
/-- Another session is hidden in the meantime. -/
theorem other_hide_survives :
    Agree (step platform (run
      (before ++ [.deleteSession session, .hideSession (item (js "ses_2") false), .setSessions .saved,
        .setPreferences .saved, .setSessions (.threw false)])) (.resumed 0)).state
      ((run before).state.hideSession (item (js "ses_2") false)) := by
  refine failed_delete_changes_nothing platform (some account) .empty .empty before
    [.hideSession (item (js "ses_2") false), .setSessions .saved, .setPreferences .saved, .setSessions (.threw false)]
      (run before) _ session
    rfl rfl ?_ (by decide +kernel) (by decide +kernel) (by decide +kernel) (Or.inl (by decide +kernel))
      ⟨trivial, trivial⟩
  intro e he
  simp only [List.mem_cons, List.not_mem_nil, or_false] at he
  rcases he with rfl | rfl | rfl | rfl <;> trivial

open RollbackRun CatalogSample in
/-- The session was hidden, and is not after the delete that failed. -/
theorem hidden_comes_back :
    ¬ Agree (run (before ++
      [.hideSession session, .deleteSession session, .setSessions .saved, .setPreferences .saved, .setSessions .saved,
        .setPreferences .saved, .setSessions (.threw false), .resumed 0])).state
      (run (before ++ [.hideSession session])).state := by
  intro h
  have hmem : session.key ∈ (run (before ++ [.hideSession session])).state.hiddenSessions := by decide +kernel
  rw [← h.hidden] at hmem
  exact absurd hmem (by decide +kernel)

end SessionCatalogController

end NotifyHub.Client
