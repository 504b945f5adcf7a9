/-
  NotifyHub.Client.DeletedSessions — does a deleted session stay deleted?

  - `deleted_stays_deleted`: in a run in which nothing brings it back (`Keeps`), a session
    whose delete was called is neither listed nor preferred, and once the delete is saved it
    is not among the stored ones; loads and restarts included.
  - `snapshot_revives`: a snapshot brings it back, and `preferred` does not ask whether it
    was deleted.
-/

import NotifyHub.Client.SessionCatalog

namespace NotifyHub.Client

namespace SessionCatalogState

/-- The update may put a session under this key. -/
def CatalogUpdate.Brings (k : SessionKey) : CatalogUpdate → Prop
  | .snapshot instance_ sessions => ∃ item ∈ sessions, (snapshotItem instance_ item).key = k
  | .togglePin item | .rollback item => item.key = k
  | _ => False

/-- A capture drops what is deleted. -/
def CatalogUpdate.Captures : CatalogUpdate → Prop
  | .capture .. => True
  | _ => False

variable {P : DartPlatform} {state : SessionCatalogState} {k : SessionKey}

theorem absent_update (hkeyed : Keyed state.sessions) (habsent : state.sessions.get k = none) {u : CatalogUpdate}
    (hdeleted : u.Captures → k ∈ state.deletedSessions) (hu : ¬ u.Brings k) :
    (state.update P u).sessions.get k = none := by
  cases u with
  | stale | failed | markOpened =>
    refine (OMap.get_map _ _ _).trans ?_
    rw [habsent, Option.map_none]
  | capture instances active =>
    refine (get_capture instances active k).trans ?_
    rw [if_pos (hdeleted trivial)]
  | snapshot instance_ sessions =>
    refine Option.eq_none_iff_forall_ne_some.mpr fun v hv => ?_
    have hmerged := get_of_applySnapshot hkeyed hv
    rw [get_merged, habsent, mergedAt, foldl_of_ne fun item hmem hk => hu ⟨item, hmem, hk⟩] at hmerged
    cases hmerged
  | togglePin item =>
    rw [update, togglePin]
    split
    · exact habsent
    · exact (OMap.get_set_ne _ _ fun hk => hu hk.symm).trans habsent
  | deleteSession | forgetInstance =>
    refine (OMap.get_filter _ _ _).trans ?_
    rw [habsent]
    rfl
  | rollback item =>
    refine (OMap.get_merge _ _ _).trans ?_
    rw [habsent, Option.none_or, OMap.get_set_ne _ _ fun hk => hu hk.symm]
    rfl
  | search | setSourceHidden | hideSession | restoreHidden => exact habsent

theorem deleted_update (hdeleted : k ∈ state.deletedSessions) {u : CatalogUpdate} (hu : ¬ u.Brings k) :
    k ∈ (state.update P u).deletedSessions := by
  cases u with
  | deleteSession item => exact Finset.mem_insert_of_mem hdeleted
  | rollback item => exact Finset.mem_erase.mpr ⟨fun hk => hu hk.symm, hdeleted⟩
  | togglePin item =>
    rw [update, togglePin]
    split <;> exact hdeleted
  | _ => exact hdeleted

theorem key_ne_of_absent (hkeyed : Keyed state.sessions) (habsent : state.sessions.get k = none) {s : RemoteSession}
    (hs : s ∈ state.sessions.values) : s.key ≠ k := by
  obtain ⟨j, hj⟩ := OMap.mem_values.mp hs
  rw [hkeyed j s hj]
  rintro rfl
  rw [habsent] at hj
  cases hj

end SessionCatalogState

open SessionCatalogState

namespace SessionCatalogController

/-! ## What is stored -/

/-- The stored sessions are without it. -/
def CleanCatalog (a : JsString) (k : SessionKey) (c : SessionCatalogController) : Prop :=
  ∀ l, c.catalogs.get a = some l → ∀ s ∈ l, s.key ≠ k

/-- The delete is stored. -/
def StoresDelete (a : JsString) (k : SessionKey) (c : SessionCatalogController) : Prop :=
  ∃ p, c.preferences.get a = some p ∧ k ∈ p.deletedSessions

structure CleanStore (a : JsString) (k : SessionKey) (c : SessionCatalogController) : Prop where
  catalog : CleanCatalog a k c
  stores : StoresDelete a k c

/-- The write stores the delete, and not the session. -/
def CleanWrite (a : JsString) (k : SessionKey) (w : CatalogWrite) : Prop :=
  w.storageKey = a → (∀ s ∈ w.sessions, s.key ≠ k) ∧ k ∈ w.preferences.deletedSessions

/-- The save of a delete succeeded. -/
def Saved (d : Nat) (c : SessionCatalogController) : Prop := ∃ call, c.deletes[d]? = some call ∧ call.saved = some true

theorem saved_iff {d : Nat} {c : SessionCatalogController} : Saved d c ↔ c.deletes[d]?.bind (·.saved) = some true := by
  rw [Option.bind_eq_some_iff]
  rfl

/-- How far the save of the delete `d` is. -/
inductive Progress (a : JsString) (k : SessionKey) (d : Nat) (c : SessionCatalogController) : Prop where
  | waiting (old : List CatalogWrite) (w : CatalogWrite) (new : List CatalogWrite) (queue : c.writes = old ++ w :: new)
      (own : w.storageKey = a ∧ w.delete = some d ∧ CleanWrite a k w)
      (later : ∀ x ∈ new, CleanWrite a k x ∧ x.delete ≠ some d)
      (earlier : ∀ x ∈ old, x.delete ≠ some d) (unsaved : ¬ Saved d c)
      (half : old = [] → c.half = some true → CleanCatalog a k c)
  | settled (queue : ∀ x ∈ c.writes, CleanWrite a k x ∧ x.delete ≠ some d) (stored : Saved d c → CleanStore a k c)

variable {P : DartPlatform} {a : JsString} {k : SessionKey} {d : Nat} {c c' : SessionCatalogController}

theorem saved_settle {delete : Option Nat} {saved : Bool} (h : Saved d (c.settle delete saved)) :
    Saved d c ∨ delete = some d ∧ saved = true := by
  cases delete with
  | none => exact Or.inl h
  | some n =>
    obtain ⟨call, hcall, hsaved⟩ := h
    rw [settle, List.getElem?_modify] at hcall
    by_cases hn : n = d
    · subst hn
      cases hold : c.deletes[n]? with
      | none => simp [hold] at hcall
      | some old =>
        simp only [hold, if_true, Option.map_eq_map, Option.map_some, Option.some.injEq] at hcall
        subst hcall
        exact Or.inr ⟨rfl, Option.some.inj hsaved⟩
    · simp only [if_neg hn, id_map'] at hcall
      exact Or.inl ⟨call, by simpa using hcall, hsaved⟩

namespace Progress

/-- Nothing that the save depends on is different. -/
theorem congr (h : Progress a k d c) (hwrites : c'.writes = c.writes) (hhalf : c'.half = c.half)
    (hcatalogs : c'.catalogs = c.catalogs)
    (hpreferences : c'.preferences = c.preferences) (hsaved : Saved d c' → Saved d c) : Progress a k d c' := by
  have hcatalog : CleanCatalog a k c → CleanCatalog a k c' := by
    unfold CleanCatalog
    rw [hcatalogs]
    exact id
  cases h with
  | waiting old w new queue own later earlier unsaved half =>
    exact .waiting old w new (hwrites.trans queue) own later earlier (fun h => unsaved (hsaved h))
      fun hold hhalf' => hcatalog (half hold (hhalf ▸ hhalf'))
  | settled queue stored =>
    refine .settled (hwrites ▸ queue) fun h => ?_
    obtain ⟨hclean, p, hp⟩ := stored (hsaved h)
    exact ⟨hcatalog hclean, p, hpreferences ▸ hp⟩

theorem settle (h : Progress a k d c) {delete : Option Nat} {saved : Bool} (hd : delete = some d → saved = false) :
    Progress a k d (c.settle delete saved) := by
  have hsaved : Saved d (c.settle delete saved) → Saved d c := by
    intro hs
    rcases saved_settle hs with hs | ⟨hdelete, htrue⟩
    · exact hs
    · rw [hd hdelete] at htrue
      cases htrue
  cases delete with
  | none => exact h.congr rfl rfl rfl rfl hsaved
  | some n => exact h.congr rfl rfl rfl rfl hsaved

/-- Another save waits. -/
theorem append (h : Progress a k d c) {x : CatalogWrite} (hx : CleanWrite a k x ∧ x.delete ≠ some d) :
    Progress a k d { c with writes := c.writes ++ [x] } := by
  cases h with
  | waiting old w new queue own later earlier unsaved half =>
    refine .waiting old w (new ++ [x]) (by simp [queue]) own (fun y hy => ?_) earlier unsaved half
    rcases List.mem_append.mp hy with hy | hy
    · exact later y hy
    · exact List.mem_singleton.mp hy ▸ hx
  | settled queue stored =>
    refine .settled (fun y hy => ?_) fun h => ⟨(stored h).1, (stored h).2⟩
    rcases List.mem_append.mp hy with hy | hy
    · exact queue y hy
    · exact List.mem_singleton.mp hy ▸ hx

/-- A clean write leaves a clean catalog clean. -/
theorem catalog_store {w : CatalogWrite} (hw : CleanWrite a k w) {m : OMap JsString (List RemoteSession)}
    {outcome : SetString}
    (h : ∀ l, m.get a = some l → ∀ s ∈ l, s.key ≠ k) :
    ∀ l, (outcome.store m w.storageKey w.sessions).get a = some l → ∀ s ∈ l, s.key ≠ k := by
  unfold SetString.store
  split
  · intro l hl
    rw [OMap.get_set] at hl
    split at hl
    · rename_i hkey
      cases hl
      exact (hw hkey.symm).1
    · exact h l hl
  · exact h

theorem preferences_store {w : CatalogWrite} (hw : CleanWrite a k w) {m : OMap JsString CatalogPreferences}
    {outcome : SetString}
    (h : ∃ p, m.get a = some p ∧ k ∈ p.deletedSessions) :
    ∃ p, (outcome.store m w.storageKey w.preferences).get a = some p ∧ k ∈ p.deletedSessions := by
  unfold SetString.store
  split
  · rw [OMap.get_set]
    split
    · rename_i hkey
      exact ⟨w.preferences, rfl, (hw hkey.symm).2⟩
    · exact h
  · exact h

/-- A write that is saved is stored. -/
theorem get_store {α : Type} {m : OMap JsString α} {x : JsString} {v : α} {outcome : SetString}
    (hok : outcome.landed = true) :
    (outcome.store m x v).get x = some v := by
  rw [SetString.store, if_pos hok, OMap.get_set_self]

theorem setSessions (h : Progress a k d c) (outcome : SetString) : Progress a k d (c.setSessions outcome) := by
  unfold SessionCatalogController.setSessions
  split
  · rename_i w writes hwrites hhalf
    cases h with
    | waiting old w' new queue own later earlier unsaved half =>
      cases old with
      | nil =>
        -- the first half of the delete's own write
        obtain ⟨rfl, rfl⟩ := List.cons.inj (hwrites.symm.trans queue)
        obtain ⟨rfl, hdelete, hclean⟩ := own
        have hstored : outcome.landed = true →
            ∀ l, (outcome.store c.catalogs w.storageKey w.sessions).get w.storageKey = some l → ∀ s ∈ l, s.key ≠ k := by
          intro hlanded l hl
          rw [get_store hlanded] at hl
          cases hl
          exact (hclean rfl).1
        cases outcome with
        | saved =>
          exact .waiting [] w writes hwrites ⟨rfl, hdelete, hclean⟩ later earlier unsaved fun _ _ => hstored rfl
        | refused landed =>
          exact .waiting [] w writes hwrites ⟨rfl, hdelete, hclean⟩ later earlier unsaved fun _ h => nomatch h
        | threw landed =>
          refine Progress.settle ?_ fun _ => rfl
          exact .settled later fun h => absurd h unsaved
      | cons x old =>
        obtain ⟨rfl, rfl⟩ := List.cons.inj (hwrites.symm.trans queue)
        cases outcome with
        | saved | refused landed =>
          exact .waiting (w :: old) w' new hwrites own later earlier unsaved fun h => nomatch h
        | threw landed =>
          refine Progress.settle ?_ fun hd => absurd hd (earlier w List.mem_cons_self)
          refine .waiting old w' new rfl own later (fun x hx => earlier x (List.mem_cons_of_mem _ hx))
            unsaved fun _ h => ?_
          rw [hhalf] at h
          cases h
    | settled queue stored =>
      have hw := queue w (hwrites ▸ List.mem_cons_self)
      have hstored : ∀ c' : SessionCatalogController, c'.catalogs = outcome.store c.catalogs w.storageKey w.sessions →
          c'.preferences = c.preferences → CleanStore a k c → CleanStore a k c' := by
        rintro c' hcatalogs hpreferences ⟨hclean, hp⟩
        refine ⟨?_, ?_⟩
        · unfold CleanCatalog
          rw [hcatalogs]
          exact catalog_store hw.1 hclean
        · unfold StoresDelete
          rw [hpreferences]
          exact hp
      cases outcome with
      | saved | refused landed => exact .settled queue fun h => hstored _ rfl rfl (stored h)
      | threw landed =>
        refine Progress.settle ?_ fun hd => absurd hd hw.2
        exact .settled (fun x hx => queue x (hwrites ▸ List.mem_cons_of_mem _ hx)) fun h => hstored _ rfl rfl (stored h)
  · exact h

theorem setPreferences (h : Progress a k d c) (outcome : SetString) : Progress a k d (c.setPreferences outcome) := by
  unfold SessionCatalogController.setPreferences
  split
  · rename_i w writes sessionsSaved hwrites hhalf
    cases h with
    | waiting old w' new queue own later earlier unsaved half =>
      cases old with
      | nil =>
        obtain ⟨rfl, rfl⟩ := List.cons.inj (hwrites.symm.trans queue)
        obtain ⟨rfl, hdelete, hclean⟩ := own
        refine .settled (fun x hx => ?_) fun h => ?_
        · cases hw : w.delete <;> exact later x (by simpa [SessionCatalogController.settle, hw] using hx)
        · rcases saved_settle h with h | ⟨-, hsaved⟩
          · exact absurd h unsaved
          · obtain ⟨rfl, hok⟩ := Bool.and_eq_true_iff.mp hsaved
            cases outcome with
            | saved =>
              rw [hdelete]
              exact ⟨half rfl hhalf, w.preferences, get_store rfl, (hclean rfl).2⟩
            | refused | threw => cases hok
      | cons x old =>
        obtain ⟨rfl, rfl⟩ := List.cons.inj (hwrites.symm.trans queue)
        refine Progress.settle ?_ fun hd => absurd hd (earlier w List.mem_cons_self)
        exact .waiting old w' new rfl own later (fun x hx => earlier x (List.mem_cons_of_mem _ hx)) unsaved fun _ h =>
          nomatch h
    | settled queue stored =>
      have hw := queue w (hwrites ▸ List.mem_cons_self)
      refine Progress.settle ?_ fun hd => absurd hd hw.2
      refine .settled (fun x hx => queue x (hwrites ▸ List.mem_cons_of_mem _ hx)) fun h => ?_
      obtain ⟨hclean, hp⟩ := stored h
      exact ⟨hclean, preferences_store hw.1 hp⟩
  · exact h

end Progress

theorem length_settle (c : SessionCatalogController) (delete : Option Nat) (saved : Bool) :
    (c.settle delete saved).deletes.length = c.deletes.length := by
  cases delete with
  | none => rfl
  | some n => exact List.length_modify _ _ _

theorem length_setSessions (c : SessionCatalogController) (outcome : SetString) :
    (c.setSessions outcome).deletes.length = c.deletes.length := by
  unfold setSessions
  split
  · cases outcome with
    | saved | refused landed => rfl
    | threw landed => exact length_settle _ _ _
  · rfl

theorem length_setPreferences (c : SessionCatalogController) (outcome : SetString) :
    (c.setPreferences outcome).deletes.length = c.deletes.length := by
  unfold setPreferences
  split
  · exact length_settle _ _ _
  · rfl

/-! ## Runs after a delete -/

/-- A session is deleted in the account `a`, and its delete is the call `d`. -/
structure Deleted (a : JsString) (k : SessionKey) (d : Nat) (c : SessionCatalogController) : Prop where
  keyed : Keyed c.state.sessions
  known : d < c.deletes.length
  absent : c.storageKey = some a → c.state.sessions.get k = none
  deleted : c.storageKey = some a → c.loaded = true → k ∈ c.state.deletedSessions
  progress : Progress a k d c

/-- Nothing brings the session back: no snapshot lists it, no copy of it is pinned, no delete of it is rolled back;
nothing is saved before the catalog is loaded, and no load comes between the delete and its save but one that
reads the delete. -/
def Keeps (a : JsString) (k : SessionKey) (d : Nat) (c : SessionCatalogController) (e : CatalogEvent) : Prop :=
  c.storageKey = some a →
    match e with
    | .load .. => c.loaded = true ∨ Saved d c ∨ CleanStore a k c
    | .snapshot instance_ sessions => ∀ item ∈ sessions, (snapshotItem instance_ item).key ≠ k
    | .togglePin item => c.loaded = true ∧ item.key ≠ k
    | .save | .setSourceHidden .. | .deleteSession _ | .hideSession _ | .restoreHidden | .forgetInstance _
    | .markOpened .. => c.loaded = true
    | .resumed n => ∀ item epoch, c.deletes[n]? = some ⟨item, epoch, some false, false⟩ → epoch = c.epoch → item.key ≠ k
    | _ => True

namespace Deleted

theorem update (h : Deleted a k d c) {u : CatalogUpdate}
    (hu : c.storageKey = some a → ¬ u.Brings k ∧ (u.Captures → c.loaded = true)) : Deleted a k d (c.update P u) where
  keyed := keyed_update h.keyed u
  known := h.known
  absent ha := absent_update h.keyed (h.absent ha) (fun hcap => h.deleted ha ((hu ha).2 hcap)) (hu ha).1
  deleted ha hloaded := deleted_update (h.deleted ha hloaded) (hu ha).1
  progress := h.progress.congr rfl rfl rfl rfl id

theorem of_same (h : Deleted a k d c) (hsame : Same c c') (hstate : c'.state = c.state)
    (hlength : c'.deletes.length = c.deletes.length)
    (hprogress : Progress a k d c') : Deleted a k d c' where
  keyed := hstate ▸ h.keyed
  known := hlength ▸ h.known
  absent ha := hstate ▸ h.absent (hsame.storageKey ▸ ha)
  deleted ha hloaded := hstate ▸ h.deleted (hsame.storageKey ▸ ha) (hsame.loaded ▸ hloaded)
  progress := hprogress

theorem save (h : Deleted a k d c) (hloaded : c.storageKey = some a → c.loaded = true) {delete : Option Nat}
    (hdelete : delete ≠ some d) :
    Deleted a k d (c.save delete) := by
  obtain ⟨hsame, hstate⟩ := save_same c delete
  refine h.of_same hsame hstate ?_ ?_
  · unfold SessionCatalogController.save
    split
    · exact length_settle _ _ _
    · rfl
  · unfold SessionCatalogController.save
    split
    · exact h.progress.settle fun hd => absurd hd hdelete
    · rename_i key hkey
      refine h.progress.append ⟨fun ha => ⟨fun s hs => ?_, ?_⟩, hdelete⟩
      · obtain ⟨v, hv, rfl⟩ := List.mem_map.mp hs
        show v.key ≠ k
        exact key_ne_of_absent h.keyed (h.absent (hkey.trans (congrArg some ha))) hv
      · have ha := hkey.trans (congrArg some ha)
        exact h.deleted ha (hloaded ha)

theorem capture (h : Deleted a k d c) (instances : List OpenCodeInstancePresence) (active : List ActiveSession) :
    Deleted a k d (c.capture P instances active) := by
  unfold SessionCatalogController.capture
  split
  · rename_i hloaded
    exact (h.update fun _ => ⟨id, fun _ => hloaded⟩).save (fun _ => hloaded) nofun
  · exact h

/-- A call that returns is done. -/
theorem returned (h : Deleted a k d c) (n : Nat) :
    Deleted a k d { c with deletes := c.deletes.modify n fun call => { call with returned := true } } := by
  refine h.of_same ⟨rfl, rfl, rfl⟩ rfl (List.length_modify _ _ _) (h.progress.congr rfl rfl rfl rfl ?_)
  rintro ⟨call, hcall, hsaved⟩
  dsimp only at hcall
  rw [List.getElem?_modify] at hcall
  obtain ⟨old, hold, rfl⟩ := Option.map_eq_some_iff.mp hcall
  refine ⟨old, hold, ?_⟩
  split at hsaved <;> exact hsaved

theorem rebuild (h : Deleted a k d c) (storageKey : Option JsString) : Deleted a k d (c.rebuild storageKey) where
  keyed := Keyed.empty
  known := h.known
  absent _ := rfl
  deleted _ hloaded := nomatch hloaded
  progress := h.progress.congr rfl rfl rfl rfl id

/-- Once the delete is saved, it is stored. -/
theorem stored (h : Deleted a k d c) (hsaved : Saved d c) : CleanStore a k c := by
  cases h.progress with
  | waiting old w new queue own later earlier unsaved => exact absurd hsaved unsaved
  | settled queue stored => exact stored hsaved

theorem load (h : Deleted a k d c) (hstored : c.storageKey = some a → c.loaded = true ∨ Saved d c ∨ CleanStore a k c)
    (instances : List OpenCodeInstancePresence) (active : List ActiveSession) :
    Deleted a k d (c.load P instances active) := by
  unfold SessionCatalogController.load
  split
  · rename_i key hkey
    split
    · exact h
    · rename_i hloaded
      refine capture ?_ instances active
      refine ⟨keyed_read key, h.known, fun ha => ?_, fun ha _ => ?_, h.progress.congr rfl rfl rfl rfl id⟩
      all_goals
        obtain rfl : key = a := Option.some.inj (hkey.symm.trans ha)
        obtain ⟨hclean, p, hp, hmem⟩ : CleanStore key k c :=
          (hstored ha).elim (absurd · hloaded) fun hs => hs.elim h.stored id
      · refine Option.eq_none_iff_forall_ne_some.mpr fun v hv => ?_
        simp only [read, hp] at hv
        rcases OMap.get_addAll hv with hv | ⟨hv, hk⟩
        · cases hv
        · cases hl : c.catalogs.get key with
          | none => simp [hl] at hv
          | some l =>
            rw [hl, Option.getD_some] at hv
            exact hclean l hl v hv hk
      · simp only [read, hp]
        exact hmem
  · exact h

theorem step (h : Deleted a k d c) {e : CatalogEvent} (hk : Keeps a k d c e) : Deleted a k d (step P c e) := by
  cases e with
  | build storageKey => exact h.rebuild storageKey
  | restart storageKey =>
    have hrebuilt := h.rebuild storageKey
    exact ⟨hrebuilt.keyed, hrebuilt.known, hrebuilt.absent, hrebuilt.deleted,
      .settled (by rintro _ ⟨⟩) fun hs => ⟨(h.stored hs).1, (h.stored hs).2⟩⟩
  | load instances active => exact h.load hk instances active
  | presences instances active => exact (h.update fun _ => ⟨id, False.elim⟩).capture instances active
  | active instances active => exact h.capture instances active
  | snapshot instance_ sessions =>
    rw [SessionCatalogController.step]
    split
    · exact h.update fun ha => ⟨fun hshown => by
        obtain ⟨item, hitem, hkey⟩ := hshown
        exact hk ha item hitem hkey, False.elim⟩
    · exact h
  | failed instance_ =>
    rw [SessionCatalogController.step]
    split
    · exact h.update fun _ => ⟨id, False.elim⟩
    · exact h
  | save => exact h.save hk (by rintro ⟨⟩)
  | search query => exact h.update fun _ => ⟨id, False.elim⟩
  | togglePin item =>
    rw [SessionCatalogController.step]
    split
    · rename_i state htoggle
      have hupdate : c.update P (.togglePin item) = { c with state := state } := by
        rw [SessionCatalogController.update, SessionCatalogState.update, htoggle, Option.getD_some]
      have hpin := h.update (P := P) (u := .togglePin item) fun ha => ⟨(hk ha).2, False.elim⟩
      rw [hupdate] at hpin
      exact hpin.save (fun ha => (hk ha).1) (by rintro ⟨⟩)
    · exact h
  | deleteSession item =>
    have hdelete := h.update (P := P) (u := .deleteSession item) fun _ => ⟨id, False.elim⟩
    have hcalled : Deleted a k d { c with
        state := c.state.update P (.deleteSession item), deletes := c.deletes ++ [⟨item, c.epoch, none, false⟩] } := by
      refine ⟨hdelete.keyed, ?_, hdelete.absent, hdelete.deleted, hdelete.progress.congr rfl rfl rfl rfl ?_⟩
      · rw [List.length_append]
        exact Nat.lt_add_right _ h.known
      · rintro ⟨call, hcall, hsaved⟩
        exact ⟨call, (List.getElem?_append_left h.known).symm.trans hcall, hsaved⟩
    exact hcalled.save hk fun hd => Nat.lt_irrefl _ (Option.some.inj hd ▸ h.known)
  | setSourceHidden | hideSession | restoreHidden | forgetInstance | markOpened =>
    exact (h.update fun _ => ⟨id, False.elim⟩).save hk (by rintro ⟨⟩)
  | setSessions outcome =>
    obtain ⟨hsame, hstate⟩ := setSessions_same c outcome
    exact h.of_same hsame hstate (length_setSessions c outcome) (h.progress.setSessions outcome)
  | setPreferences outcome =>
    obtain ⟨hsame, hstate⟩ := setPreferences_same c outcome
    exact h.of_same hsame hstate (length_setPreferences c outcome) (h.progress.setPreferences outcome)
  | resumed n =>
    rw [SessionCatalogController.step, SessionCatalogController.resumed]
    split
    · rename_i item epoch saved hcall
      have hreturned := h.returned n
      dsimp only
      split
      · exact hreturned
      · rename_i hfailed
        obtain rfl : saved = false := Bool.eq_false_iff.mpr hfailed
        split
        · rename_i hepoch
          exact hreturned.update fun ha => ⟨hk ha item epoch hcall hepoch, False.elim⟩
        · exact hreturned
    · exact h

end Deleted

/-! ## Reachable states -/

/-- What holds of every state of a run. -/
structure Sound (c : SessionCatalogController) : Prop where
  keyed : Keyed c.state.sessions
  known : ∀ x ∈ c.writes, ∀ n, x.delete = some n → n < c.deletes.length
  half : c.writes = [] → c.half = none

namespace Sound

theorem save (h : Sound c) {delete : Option Nat} (hdelete : ∀ n, delete = some n → n < c.deletes.length) :
    Sound (c.save delete) := by
  refine ⟨(save_same c delete).2 ▸ h.keyed, ?_, ?_⟩
  · unfold SessionCatalogController.save
    split
    · rw [length_settle]
      cases delete <;> exact h.known
    · intro x hx
      rcases List.mem_append.mp hx with hx | hx
      · exact h.known x hx
      · rw [List.mem_singleton.mp hx]
        exact hdelete
  · unfold SessionCatalogController.save
    split
    · cases delete <;> exact h.half
    · intro hnil
      simp at hnil

theorem setSessions (h : Sound c) (outcome : SetString) : Sound (c.setSessions outcome) := by
  refine ⟨(setSessions_same c outcome).2 ▸ h.keyed, ?_, ?_⟩
  · rw [length_setSessions]
    unfold SessionCatalogController.setSessions
    split
    · rename_i w writes hwrites hhalf
      cases outcome with
      | saved | refused landed => exact h.known
      | threw landed =>
        intro x hx
        refine h.known x (hwrites ▸ List.mem_cons_of_mem _ ?_)
        cases hw : w.delete <;> simpa [settle, hw] using hx
    · exact h.known
  · unfold SessionCatalogController.setSessions
    split
    · rename_i w writes hwrites hhalf
      cases outcome with
      | saved | refused landed =>
        intro hnil
        rw [hwrites] at hnil
        cases hnil
      | threw landed => cases hw : w.delete <;> exact fun _ => hhalf
    · exact h.half

theorem setPreferences (h : Sound c) (outcome : SetString) : Sound (c.setPreferences outcome) := by
  refine ⟨(setPreferences_same c outcome).2 ▸ h.keyed, ?_, ?_⟩
  · rw [length_setPreferences]
    unfold SessionCatalogController.setPreferences
    split
    · rename_i w writes sessionsSaved hwrites hhalf
      intro x hx
      refine h.known x (hwrites ▸ List.mem_cons_of_mem _ ?_)
      cases hw : w.delete <;> simpa [settle, hw] using hx
    · exact h.known
  · unfold SessionCatalogController.setPreferences
    split
    · rename_i w writes sessionsSaved hwrites hhalf
      cases hw : w.delete <;> exact fun _ => rfl
    · exact h.half

theorem capture (h : Sound c) (instances : List OpenCodeInstancePresence) (active : List ActiveSession) :
    Sound (c.capture P instances active) := by
  unfold SessionCatalogController.capture
  split
  · refine save ?_ nofun
    exact ⟨keyed_update h.keyed _, h.known, h.half⟩
  · exact h

theorem step (h : Sound c) (e : CatalogEvent) : Sound (step P c e) := by
  have hkeyed := keyed_step (P := P) h.keyed e
  have hupdate : ∀ u, Sound (c.update P u) := fun u => ⟨keyed_update h.keyed u, h.known, h.half⟩
  cases e with
  | build => exact ⟨hkeyed, h.known, h.half⟩
  | restart => exact ⟨hkeyed, (by rintro _ ⟨⟩), fun _ => rfl⟩
  | load instances active =>
    rw [SessionCatalogController.step, SessionCatalogController.load]
    split
    · split
      · exact h
      · refine capture ?_ instances active
        exact ⟨keyed_read _, h.known, h.half⟩
    · exact h
  | presences instances active => exact (hupdate _).capture instances active
  | active instances active => exact h.capture instances active
  | snapshot | failed =>
    refine ⟨hkeyed, ?_, ?_⟩
    all_goals rw [SessionCatalogController.step]
    · split <;> exact h.known
    · split <;> exact h.half
  | save => exact h.save (by rintro _ ⟨⟩)
  | search => exact hupdate _
  | togglePin item =>
    rw [SessionCatalogController.step]
    split
    · rename_i state htoggle
      have htoggled := keyed_update (P := P) h.keyed (.togglePin item)
      rw [SessionCatalogState.update, htoggle] at htoggled
      refine save ?_ (by rintro _ ⟨⟩)
      exact ⟨htoggled, h.known, h.half⟩
    · exact h
  | deleteSession item =>
    rw [SessionCatalogController.step, SessionCatalogController.deleteSession]
    refine save ?_ fun n hn => ?_
    · refine ⟨keyed_update h.keyed _, fun x hx n hn => ?_, h.half⟩
      exact Nat.lt_of_lt_of_le (h.known x hx n hn) (by simp)
    · obtain rfl := Option.some.inj hn
      simp
  | setSourceHidden | hideSession | restoreHidden | forgetInstance | markOpened =>
    exact (hupdate _).save (by rintro _ ⟨⟩)
  | setSessions outcome => exact h.setSessions outcome
  | setPreferences outcome => exact h.setPreferences outcome
  | resumed n =>
    refine ⟨hkeyed, ?_, ?_⟩
    all_goals rw [SessionCatalogController.step, SessionCatalogController.resumed]
    · split
      · dsimp only
        split
        · simpa using h.known
        · split
          · simpa [SessionCatalogController.update] using h.known
          · simpa using h.known
      · exact h.known
    · split
      · dsimp only
        split
        · exact h.half
        · split <;> exact h.half
      · exact h.half

theorem run {es : List CatalogEvent} (h : Sound c) : Sound (runFrom (SessionCatalogController.step P) c es) := by
  induction es generalizing c with
  | nil => exact h
  | cons e es ih => exact ih (h.step e)

end Sound

theorem sound_init (storageKey : Option JsString) (catalogs : OMap JsString (List RemoteSession))
    (preferences : OMap JsString CatalogPreferences) : Sound (init storageKey catalogs preferences) :=
  ⟨Keyed.empty, nofun, fun _ => rfl⟩

/-- At the call, the delete's own write is the last that waits. -/
theorem deleted_call (h : Sound c) (hkey : c.storageKey = some a) (item : RemoteSession) :
    Deleted a item.key c.deletes.length (c.deleteSession P item) := by
  have hsessions : (c.state.deleteSession item).sessions.get item.key = none := by
    refine Option.eq_none_iff_forall_ne_some.mpr fun v hv => ?_
    obtain ⟨-, hne⟩ := Option.filter_eq_some_iff.mp ((OMap.get_filter _ _ _).symm.trans hv)
    simp at hne
  have hkeyed' := keyed_update (P := P) h.keyed (.deleteSession item)
  rw [SessionCatalogController.deleteSession, SessionCatalogController.save]
  simp only [hkey]
  refine ⟨hkeyed', by simp, fun _ => hsessions, fun _ _ => Finset.mem_insert_self _ _, ?_⟩
  refine .waiting c.writes _ [] rfl ⟨rfl, rfl, fun _ => ⟨fun s hs => ?_, Finset.mem_insert_self _ _⟩⟩ nofun
    (fun x hx hd => Nat.lt_irrefl _ (h.known x hx _ hd)) ?_ ?_
  · obtain ⟨v, hv, rfl⟩ := List.mem_map.mp hs
    show v.key ≠ item.key
    exact key_ne_of_absent hkeyed' hsessions hv
  · rintro ⟨call, hcall, hsaved⟩
    simp only [List.getElem?_concat_length, Option.some.injEq] at hcall
    subst hcall
    cases hsaved
  · intro hold hhalf
    rw [h.half hold] at hhalf
    cases hhalf

/-- In every state that is reached while nothing brings it back. -/
theorem deleted_stays_deleted (P : DartPlatform) (storageKey : Option JsString)
    (catalogs : OMap JsString (List RemoteSession))
    (preferences : OMap JsString CatalogPreferences) (before after : List CatalogEvent)
    (c c' : SessionCatalogController)
    (a : JsString) (item : RemoteSession) (hc : c = runFrom (step P) (init storageKey catalogs preferences) before)
    (hkey : c.storageKey = some a)
    (hkeeps : Along (step P) (Keeps a item.key c.deletes.length) (step P c (.deleteSession item)) after)
    (hc' : c' = runFrom (step P) c (.deleteSession item :: after)) :
    (c'.storageKey = some a → (∀ s ∈ c'.state.visible P, s.key ≠ item.key) ∧
      ∀ instance_ s, c'.state.preferred P instance_ = some s → s.key ≠ item.key) ∧
      (Saved c.deletes.length c' → CleanCatalog a item.key c') := by
  have hsound : Sound c := hc ▸ (sound_init storageKey catalogs preferences).run
  have hdeleted : Deleted a item.key c.deletes.length c' := by
    rw [hc', runFrom_cons]
    exact Along.inv (fun _ _ h hk => h.step hk) (deleted_call hsound hkey item) hkeeps
  refine ⟨fun ha => ⟨fun s hs => ?_, fun instance_ s hs => ?_⟩, fun hsaved => (hdeleted.stored hsaved).catalog⟩
  · have hlisted := (P.listed.perm _).subset hs
    exact key_ne_of_absent hdeleted.keyed (hdeleted.absent ha) (List.mem_filter.mp hlisted).1
  · have hchoice := (P.choices.perm _).subset (List.mem_of_mem_head? hs)
    exact key_ne_of_absent hdeleted.keyed (hdeleted.absent ha) (List.mem_filter.mp hchoice).1

/-! ## A session that the server still lists -/

namespace DeletedRun

open CatalogSample (platform laptop account listed)

def item : RemoteSession := CatalogSample.item (js "ses_1") false

/-- The session is listed. -/
def before : List CatalogEvent := [.load [laptop] [], .snapshot laptop [listed (js "ses_1")]]

/-- Both saves succeed, and the delete returns. -/
def deleted : List CatalogEvent :=
  [.setSessions .saved, .setPreferences .saved, .setSessions .saved, .setPreferences .saved, .resumed 0]

def run (es : List CatalogEvent) : SessionCatalogController :=
  runFrom (step platform) (init (some account) .empty .empty) es

end DeletedRun

open DeletedRun in
open CatalogSample (platform laptop account listed) in
/-- A live event of the session after a restart does not bring it back. -/
theorem stays_after_restart :
    CleanCatalog account item.key
      (run (before ++ .deleteSession item ::
        (deleted ++ [.restart (some account), .load [laptop] [item.session]]))) := by
  refine (deleted_stays_deleted platform (some account) .empty .empty before _ (run before) _ account item rfl rfl ?_
    (runFrom_append ..)).2 (saved_iff.mpr (by decide +kernel))
  refine ⟨fun _ => trivial, fun _ => trivial, fun _ => trivial, fun _ => trivial, ?_, fun _ => trivial, ?_, trivial⟩
  · intro _ item epoch hcall
    have hsaved : (run (before ++ .deleteSession DeletedRun.item :: deleted.take 4)).deletes[0]?.bind
      (·.saved) = some true := by
      decide +kernel
    have hfalse := congrArg (fun call : Option DeleteCall => call.bind (·.saved)) hcall
    have htrue : some true = some false := hsaved.symm.trans hfalse
    cases htrue
  · exact fun _ => Or.inr (Or.inl (saved_iff.mpr (by decide +kernel)))

open DeletedRun in
open CatalogSample (platform laptop account listed) in
/-- The next snapshot does, also for `preferred` and for the storage. -/
theorem snapshot_revives :
    (run (before ++ .deleteSession item :: deleted)).deletes.map (fun call => (call.saved, call.returned)) =
      [(some true, true)] ∧
      ((run (before ++ .deleteSession item :: deleted ++ [.snapshot laptop [listed (js "ses_1")]])).state.preferred
        platform laptop).map (·.key) =
        some item.key ∧
      ((run (before ++ .deleteSession item :: deleted ++
        [.snapshot laptop [listed (js "ses_1")], .save, .setSessions .saved, .setPreferences .saved])).catalogs.get
          account).map (·.map (·.key)) =
        some [item.key] := by
  refine ⟨by decide +kernel, by decide +kernel, by decide +kernel⟩

end SessionCatalogController

end NotifyHub.Client
