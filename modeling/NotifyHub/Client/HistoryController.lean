/-
  NotifyHub.Client.HistoryController — the pages of the history that the client shows
  (apps/client/lib/history/history_controller.dart).

  A load reads the history when its turn comes, and again where the page it asked for is
  past the last one; what it read is shown when it completes, if no newer load was issued.
  The load of `build` has no token, so nothing outdates it.

  - `first_page_is_fresh`: whenever no load is in flight, a first page that is shown is the
    first page of the history, in every run in which no change comes while no first page is
    held and the newest load has already read one, and in which `build`, where it completes
    behind all other loads, has read since the last change (`Heard`).
  - `change_during_build`, `change_on_the_way_back`: otherwise a change is missed.

  Ghost: `outdated`, whether a change came since the load of `build` read.
-/

import NotifyHub.Client.History
import NotifyHub.Lib.Run

namespace NotifyHub.Client

def historyPageSizes : List Nat := [20, 30, 50, 100]

structure HistoryViewState (ι : Type) where
  entries : List (HistoryEntry ι)
  totalCount : Nat
  pageIndex : Nat
  pageSize : Nat
  newEntryCount : Nat
  deriving DecidableEq

/-- `totalCount == 0 ? 1 : (totalCount / pageSize).ceil()` -/
def pageCount (totalCount pageSize : Nat) : Nat := if totalCount = 0 then 1 else (totalCount + pageSize - 1) / pageSize

def HistoryViewState.totalPages {ι : Type} (v : HistoryViewState ι) : Nat := pageCount v.totalCount v.pageSize

/-- The state of the provider; `value` outlives a state that has none of its own. -/
inductive AsyncView (ι : Type) where
  | loading (value : Option (HistoryViewState ι))
  | data (v : HistoryViewState ι)
  | error (value : Option (HistoryViewState ι))
  deriving DecidableEq

def AsyncView.value {ι : Type} : AsyncView ι → Option (HistoryViewState ι)
  | .loading value | .error value => value
  | .data v => some v

/-- What the package makes of a state without a value, after one with a value, and whether the
    result of `build` still comes after the state was set. -/
structure Riverpod (ι : Type) where
  under : Option (HistoryViewState ι) → Option (HistoryViewState ι)
  lateBuild : Bool

/-- How far `_load` is. -/
inductive Reading (ι : Type) where
  | first (pageIndex : Nat)
  | second (pageIndex : Nat)
  | done (view : HistoryViewState ι)
  | threw
  deriving DecidableEq

/-- It reads no more. -/
def Reading.over {ι : Type} : Reading ι → Bool
  | .done _ | .threw => true
  | .first _ | .second _ => false

/-- It has read a first page. -/
def Reading.hasFirstPage {ι : Type} : Reading ι → Bool
  | .done v => v.pageIndex == 0
  | _ => false

structure PageLoad (ι : Type) where
  token : Nat
  pageSize : Nat
  reading : Reading ι
  deriving DecidableEq

structure HistoryController (ι σ : Type) where
  history : σ
  shown : AsyncView ι
  /-- The state was set since `build` began. -/
  assigned : Bool
  loadToken : Nat
  loads : List (PageLoad ι)
  /-- The load of `build`, while it is in flight. -/
  build : Option (Reading ι)
  /-- A change came since that load last read. -/
  outdated : Bool

inductive HistoryOp (σ : Type) where
  /-- An insertion or a deletion, and what it emits. -/
  | changed (history : σ)
  | refresh
  | setPageSize (pageSize : Nat)
  | goToPage (pageIndex : Int)
  | showNewest
  /-- The load reads a page. -/
  | read (token : Nat)
  | complete (token : Nat)
  | readBuild
  | completeBuild

namespace HistoryController

variable {ι σ : Type} (R : Riverpod ι) (loadPage : σ → Int → Int → Option (HistoryBatch ι))

/-- `build` was called. -/
def init (history : σ) : HistoryController ι σ := ⟨history, .loading none, false, 0, [], some (.first 0), false⟩

/-- The next step of `_load`. -/
def advance (history : σ) (pageSize : Nat) : Reading ι → Reading ι
  | .first pageIndex =>
    match loadPage history (pageIndex * pageSize : Nat) pageSize with
    | none => .threw
    | some batch =>
      let actualPage := min pageIndex (pageCount batch.totalCount pageSize - 1)
      if actualPage ≠ pageIndex then .second actualPage
      else .done ⟨batch.entries, batch.totalCount, actualPage, pageSize, 0⟩
  | .second actualPage =>
    match loadPage history (actualPage * pageSize : Nat) pageSize with
    | none => .threw
    | some batch => .done ⟨batch.entries, batch.totalCount, actualPage, pageSize, 0⟩
  | r => r

variable (s : HistoryController ι σ)

/-- `_replace`, up to the load. -/
def replace (pageIndex pageSize : Nat) (showLoading : Bool) : HistoryController ι σ :=
  { s with
    loadToken := s.loadToken + 1
    shown := if showLoading then .loading (R.under s.shown.value) else s.shown
    assigned := s.assigned || showLoading
    loads := s.loads ++ [⟨s.loadToken + 1, pageSize, .first pageIndex⟩] }

def refresh : HistoryController ι σ :=
  match s.shown.value with
  | none => s
  | some current => s.replace R current.pageIndex current.pageSize false

/-- It throws on a size that is not offered. -/
def setPageSize (pageSize : Nat) : HistoryController ι σ :=
  if pageSize ∈ historyPageSizes then s.replace R 0 pageSize true else s

def goToPage (pageIndex : Int) : HistoryController ι σ :=
  match s.shown.value with
  | none => s
  | some current =>
    if pageIndex < 0 ∨ (current.totalPages : Int) ≤ pageIndex then s
      else s.replace R pageIndex.toNat current.pageSize true

def showNewest : HistoryController ι σ := s.replace R 0 ((s.shown.value.map (·.pageSize)).getD 50) true

/-- `_onHistoryChanged` -/
def onHistoryChanged : HistoryController ι σ :=
  match s.shown.value with
  | none => s
  | some current =>
    if current.pageIndex = 0 then s.refresh R
    else { s with shown := .data { current with newEntryCount := current.newEntryCount + 1 }, assigned := true }

def read (token : Nat) : HistoryController ι σ :=
  { s with
    loads := s.loads.map fun l =>
      if l.token = token then { l with reading := advance loadPage s.history l.pageSize l.reading } else l }

/-- What a load that is over sets the state to. -/
def outcome : Reading ι → Option (AsyncView ι)
  | .done view => some (.data view)
  | .threw => some (.error (R.under s.shown.value))
  | _ => none

/-- The rest of `_replace`, where its load is over. -/
def complete (token : Nat) : HistoryController ι σ :=
  match (s.loads.find? (·.token = token)).bind fun l => s.outcome R l.reading with
  | none => s
  | some next =>
    let left := { s with loads := s.loads.filter (·.token ≠ token) }
    if token = s.loadToken then { left with shown := next, assigned := true } else left

def readBuild : HistoryController ι σ :=
  { s with
    build := s.build.map (advance loadPage s.history 50)
    outdated := s.outdated && s.build.all (·.over) }

def completeBuild : HistoryController ι σ :=
  match s.build.bind (s.outcome R) with
  | none => s
  | some next => { s with build := none, shown := if s.assigned && !R.lateBuild then s.shown else next }

def step : HistoryOp σ → HistoryController ι σ
  | .changed history => onHistoryChanged R { s with history, outdated := true }
  | .refresh => s.refresh R
  | .setPageSize pageSize => s.setPageSize R pageSize
  | .goToPage pageIndex => s.goToPage R pageIndex
  | .showNewest => s.showNewest R
  | .read token => s.read loadPage token
  | .complete token => s.complete R token
  | .readBuild => s.readBuild loadPage
  | .completeBuild => s.completeBuild R

/-- Nothing is in flight. -/
def AtRest : Prop := s.loads = [] ∧ s.build = none

/-- The entries and the total are those of a fresh load of the first page. -/
def FirstPage (v : HistoryViewState ι) : Prop := loadPage s.history 0 v.pageSize = some ⟨v.entries, v.totalCount⟩

/-- The newest load is in flight. -/
def Newest (l : PageLoad ι) : Prop := l ∈ s.loads ∧ l.token = s.loadToken

/-- No change is missed: it comes while a first page is held, or before the newest load has read
    a first page; and `build` does not complete after all other loads when a change came since it read. -/
def Heard : HistoryOp σ → Prop
  | .changed _ => (∃ v ∈ s.shown.value, v.pageIndex = 0) ∨
    ∀ l ∈ s.loads, l.token = s.loadToken → l.reading.hasFirstPage = false
  | .completeBuild => (∃ l ∈ s.loads, l.token = s.loadToken) ∨ (s.assigned = true ∧ R.lateBuild = false) ∨
      s.outdated = false
  | _ => True

instance (op : HistoryOp σ) : Decidable (Heard R s op) := by
  cases op <;> unfold Heard <;> infer_instance

/-! ## The newest load -/

/-- A load that is newest and has read a first page has read the present one, and so has `build`
    unless a change came since; where no load is newest, a first page that is shown is the present one. -/
structure Inv : Prop where
  bounded : ∀ l ∈ s.loads, l.token ≤ s.loadToken
  newest : ∀ l v, s.Newest l → l.reading = .done v → v.pageIndex = 0 → s.FirstPage loadPage v
  built : s.outdated = false → ∀ v, s.build = some (.done v) → v.pageIndex = 0 → s.FirstPage loadPage v
  settled : (∀ l, ¬ s.Newest l) → ∀ v, s.shown = .data v → v.pageIndex = 0 → s.FirstPage loadPage v

variable {R loadPage s}

theorem inv_init (history : σ) : Inv loadPage (init (ι := ι) history) := by
  refine ⟨nofun, ?_, ?_, ?_⟩
  · rintro l v ⟨hl, -⟩
    cases hl
  · intro _ v hv
    cases hv
  · intro _ v hv
    cases hv

/-- A load that begins is the newest, and has read nothing. -/
theorem inv_replace (hbounded : ∀ l ∈ s.loads, l.token ≤ s.loadToken)
    (hbuilt : s.outdated = false → ∀ v, s.build = some (.done v) → v.pageIndex = 0 → s.FirstPage loadPage v)
    (pageIndex pageSize : Nat) (showLoading : Bool) : Inv loadPage (s.replace R pageIndex pageSize showLoading) := by
  have hnewest : ∀ l, (s.replace R pageIndex pageSize showLoading).Newest l →
    l = ⟨s.loadToken + 1, pageSize, .first pageIndex⟩ := by
    rintro l ⟨hl, htoken⟩
    rcases List.mem_append.mp hl with hl | hl
    · have hold := hbounded l hl
      have hnew : l.token = s.loadToken + 1 := htoken
      omega
    · exact List.mem_singleton.mp hl
  refine ⟨fun l hl => ?_, fun l v hl hread => ?_, hbuilt, fun hnone => ?_⟩
  · rcases List.mem_append.mp hl with hl | hl
    · exact Nat.le_succ_of_le (hbounded l hl)
    · rw [List.mem_singleton.mp hl]
      exact Nat.le_refl _
  · rw [hnewest l hl] at hread
    cases hread
  · exact absurd ⟨List.mem_append_right _ List.mem_cons_self, rfl⟩ (hnone ⟨s.loadToken + 1, pageSize, .first pageIndex⟩)

theorem inv_refresh (hi : Inv loadPage s) : Inv loadPage (s.refresh R) := by
  unfold refresh
  split
  · exact hi
  · exact inv_replace hi.bounded hi.built _ _ _

theorem inv_goToPage (hi : Inv loadPage s) (pageIndex : Int) : Inv loadPage (s.goToPage R pageIndex) := by
  unfold goToPage
  split
  · exact hi
  · split
    · exact hi
    · exact inv_replace hi.bounded hi.built _ _ _

theorem inv_setPageSize (hi : Inv loadPage s) (pageSize : Nat) : Inv loadPage (s.setPageSize R pageSize) := by
  unfold setPageSize
  split
  · exact inv_replace hi.bounded hi.built _ _ _
  · exact hi

/-- A change that is heard outdates the newest load, or comes before it has read a first page. -/
theorem inv_changed (hi : Inv loadPage s) (history : σ) (hok : Heard R s (.changed history)) :
    Inv loadPage (step R loadPage s (.changed history)) := by
  change Inv loadPage (onHistoryChanged R { s with history, outdated := true })
  -- where no first page is held, the newest load has read none
  have hunread : (∀ v, s.shown.value = some v → v.pageIndex ≠ 0) →
      ∀ l v, s.Newest l → l.reading = .done v → v.pageIndex ≠ 0 := by
    intro hnone l v hl hread
    rcases hok with ⟨v, hv, hzero⟩ | hok
    · exact absurd hzero (hnone v hv)
    · have hfirst := hok l hl.1 hl.2
      rw [hread] at hfirst
      simpa [Reading.hasFirstPage] using hfirst
  unfold onHistoryChanged
  dsimp only
  cases hvalue : s.shown.value with
  | none =>
    have hnewest := hunread fun v hv => by rw [hvalue] at hv; cases hv
    refine ⟨hi.bounded, fun l v hl hread hzero => absurd hzero (hnewest l v hl hread), nofun, fun _ v hv => ?_⟩
    have hdata : s.shown.value = some v := congrArg AsyncView.value hv
    rw [hvalue] at hdata
    cases hdata
  | some current =>
    dsimp only
    by_cases hfirst : current.pageIndex = 0
    · rw [if_pos hfirst, refresh]
      dsimp only
      rw [hvalue]
      exact inv_replace (s := { s with history, outdated := true }) hi.bounded nofun _ _ _
    · rw [if_neg hfirst]
      have hnewest := hunread fun v hv => by rw [hvalue] at hv; cases hv; exact hfirst
      refine ⟨hi.bounded, fun l v hl hread hzero => absurd hzero (hnewest l v hl hread), nofun, fun _ v hv hzero => ?_⟩
      cases hv
      exact absurd hzero hfirst

/-- What a load has read of a first page is the page of its time. -/
theorem advance_done {history : σ} {pageSize : Nat} {r : Reading ι} {v : HistoryViewState ι}
    (h : advance loadPage history pageSize r = .done v) (hzero : v.pageIndex = 0) :
    r = .done v ∨ loadPage history 0 v.pageSize = some ⟨v.entries, v.totalCount⟩ := by
  cases r with
  | first pageIndex =>
    rw [advance] at h
    split at h
    · cases h
    · rename_i batch hbatch
      dsimp only at h
      split at h
      · cases h
      · rename_i hsame
        cases h
        have hpage : pageIndex = 0 := (Decidable.of_not_not hsame).symm.trans hzero
        subst hpage
        refine Or.inr ?_
        rwa [Nat.zero_mul, Nat.cast_zero] at hbatch
  | second actualPage =>
    rw [advance] at h
    split at h
    · cases h
    · rename_i batch hbatch
      cases h
      have hpage : actualPage = 0 := hzero
      subst hpage
      refine Or.inr ?_
      rwa [Nat.zero_mul, Nat.cast_zero] at hbatch
  | done view => exact Or.inl h
  | threw => cases h

theorem inv_read (hi : Inv loadPage s) (token : Nat) : Inv loadPage (s.read loadPage token) := by
  have back : ∀ l', l' ∈ (s.read loadPage token).loads → ∃ l ∈ s.loads, l.token = l'.token ∧
      (l'.reading = l.reading ∨ l'.reading = advance loadPage s.history l.pageSize l.reading) := by
    intro l' hl'
    obtain ⟨l, hl, rfl⟩ := List.mem_map.mp hl'
    refine ⟨l, hl, ?_⟩
    split
    · exact ⟨rfl, Or.inr rfl⟩
    · exact ⟨rfl, Or.inl rfl⟩
  refine ⟨fun l' hl' => ?_, fun l' v hl' hread hzero => ?_, hi.built, fun hnone => ?_⟩
  · obtain ⟨l, hl, htoken, -⟩ := back l' hl'
    rw [← htoken]
    exact hi.bounded l hl
  · obtain ⟨l, hl, htoken, hreading | hreading⟩ := back l' hl'.1
    · exact hi.newest l v ⟨hl, htoken.trans hl'.2⟩ (hreading.symm.trans hread) hzero
    · rcases advance_done (hreading.symm.trans hread) hzero with hold | hfresh
      · exact hi.newest l v ⟨hl, htoken.trans hl'.2⟩ hold hzero
      · exact hfresh
  · refine hi.settled fun l hl => hnone _ ⟨List.mem_map_of_mem hl.1, ?_⟩
    split
    · exact hl.2
    · exact hl.2

/-- What `build` reads is the present page, until a change comes. -/
theorem inv_readBuild (hi : Inv loadPage s) : Inv loadPage (s.readBuild loadPage) := by
  refine ⟨hi.bounded, hi.newest, fun houtdated v hv hzero => ?_, hi.settled⟩
  obtain ⟨r, hbuild, hread⟩ := Option.map_eq_some_iff.mp hv
  rcases advance_done hread hzero with hold | hfresh
  · subst hold
    refine hi.built ?_ v hbuild hzero
    change (s.outdated && s.build.all (·.over)) = false at houtdated
    rw [hbuild] at houtdated
    simpa [Reading.over] using houtdated
  · exact hfresh

theorem outcome_data {r : Reading ι} {v : HistoryViewState ι} (h : s.outcome R r = some (.data v)) : r = .done v := by
  cases r with
  | done view =>
    cases h
    rfl
  | _ => cases h

theorem inv_complete (hi : Inv loadPage s) (token : Nat) : Inv loadPage (s.complete R token) := by
  unfold complete
  cases hnext : (s.loads.find? (·.token = token)).bind fun l => s.outcome R l.reading with
  | none => exact hi
  | some next =>
    obtain ⟨l, hfind, houtcome⟩ := Option.bind_eq_some_iff.mp hnext
    have hl := List.mem_of_find?_eq_some hfind
    have hfound := List.find?_some hfind
    have htoken : l.token = token := of_decide_eq_true hfound
    dsimp only
    split
    · rename_i hlatest
      -- the newest load is over, and what it read is shown
      refine ⟨fun l' hl' => hi.bounded l' (List.mem_filter.mp hl').1, ?_, hi.built, fun _ v hv hzero => ?_⟩
      · rintro l' v ⟨hl', htoken'⟩
        have hne := of_decide_eq_true (List.mem_filter.mp hl').2
        exact absurd (htoken'.trans hlatest.symm) hne
      · rw [show next = .data v from hv] at houtcome
        exact hi.newest l v ⟨hl, htoken.trans hlatest⟩ (outcome_data houtcome) hzero
    · rename_i hold
      -- an older load is over, and the newest is as before
      refine ⟨fun l' hl' => hi.bounded l' (List.mem_filter.mp hl').1, ?_, hi.built, fun hnone => ?_⟩
      · rintro l' v ⟨hl', htoken'⟩
        exact hi.newest l' v ⟨(List.mem_filter.mp hl').1, htoken'⟩
      · refine hi.settled fun l' hl' => hnone l' ⟨List.mem_filter.mpr ⟨hl'.1, ?_⟩, hl'.2⟩
        exact decide_eq_true fun heq => hold (heq.symm.trans hl'.2)

theorem inv_completeBuild (hi : Inv loadPage s) (hok : Heard R s .completeBuild) :
    Inv loadPage (s.completeBuild R) := by
  unfold completeBuild
  cases hnext : s.build.bind (s.outcome R) with
  | none => exact hi
  | some next =>
    obtain ⟨r, hbuild, houtcome⟩ := Option.bind_eq_some_iff.mp hnext
    refine ⟨hi.bounded, hi.newest, fun _ _ => nofun, fun hnone v hv hzero => ?_⟩
    dsimp only at hv
    split at hv
    · exact hi.settled hnone v hv hzero
    · rename_i hshown
      subst hv
      obtain rfl := outcome_data houtcome
      rcases hok with ⟨l, hl⟩ | ⟨hassigned, hlate⟩ | houtdated
      · exact absurd hl (hnone l)
      · exact absurd (by rw [hassigned, hlate]; rfl) hshown
      · exact hi.built houtdated v hbuild hzero

theorem inv_step {op : HistoryOp σ} (hi : Inv loadPage s) (hok : Heard R s op) :
    Inv loadPage (step R loadPage s op) := by
  cases op with
  | changed history => exact inv_changed hi history hok
  | refresh => exact inv_refresh hi
  | setPageSize pageSize => exact inv_setPageSize hi pageSize
  | goToPage pageIndex => exact inv_goToPage hi pageIndex
  | showNewest => exact inv_replace hi.bounded hi.built _ _ _
  | read token => exact inv_read hi token
  | complete token => exact inv_complete hi token
  | readBuild => exact inv_readBuild hi
  | completeBuild => exact inv_completeBuild hi hok

/-! ## At rest -/

/-- In every run in which no change is missed: whenever nothing is in flight, a first page that
    is shown is the first page of the history. -/
theorem first_page_is_fresh (R : Riverpod ι) (loadPage : σ → Int → Int → Option (HistoryBatch ι)) (history : σ)
    (ops : List (HistoryOp σ)) (h : Along (step R loadPage) (Heard R) (init history) ops) :
    ∀ before after, ops = before ++ after → (runFrom (step R loadPage) (init history) before).AtRest →
      ∀ v, (runFrom (step R loadPage) (init history) before).shown = .data v → v.pageIndex = 0 →
        (runFrom (step R loadPage) (init history) before).FirstPage loadPage v := by
  rintro before after rfl ⟨hloads, -⟩ v hv hzero
  have hstep : ∀ (s : HistoryController ι σ) op, Inv loadPage s → Heard R s op → Inv loadPage (step R loadPage s op) :=
    fun s op hi hok => inv_step hi hok
  have hi := Along.inv hstep (inv_init history) (along_append.mp h).1
  refine hi.settled ?_ v hv hzero
  rintro l ⟨hl, -⟩
  rw [hloads] at hl
  cases hl

/-! ## Runs in memory -/

def entryOf (n : Nat) : HistoryEntry Nat :=
  ⟨n, [], [], ⟨n, true⟩, none, ⟨none, none, none, none, none, none, none, none, none⟩⟩

/-- A history of so many entries. -/
def historyOf (n : Nat) : InMemoryNotificationHistory Nat := ⟨200, by decide, (List.range n).map entryOf, 0⟩

/-- The package keeps the value under a state that has none, and the result of `build` comes anyway. -/
def riverpod : Riverpod Nat := ⟨id, true⟩

abbrev runInMemory (n : Nat) (ops : List (HistoryOp (InMemoryNotificationHistory Nat))) :
    HistoryController Nat (InMemoryNotificationHistory Nat) :=
  runFrom (step riverpod InMemoryNotificationHistory.loadPage) (init (historyOf n)) ops

/-- A change comes before `build` reads, one on the second page, and one before the load of the way back reads. -/
def heard : List (HistoryOp (InMemoryNotificationHistory Nat)) :=
  [.changed (historyOf 21), .readBuild, .completeBuild, .setPageSize 20, .read 1, .complete 1,
    .goToPage 1, .read 2, .complete 2,
    .changed (historyOf 22), .showNewest, .changed (historyOf 23), .read 3, .complete 3]

theorem heard_is_shown : (runInMemory 0 heard).FirstPage InMemoryNotificationHistory.loadPage
    ⟨(List.range 20).map entryOf, 23, 0, 20, 0⟩ :=
  first_page_is_fresh riverpod InMemoryNotificationHistory.loadPage (historyOf 0) heard (by decide +kernel) heard []
    (List.append_nil _).symm ⟨by decide +kernel, by decide +kernel⟩ _ (by decide +kernel) rfl

/-- A change between the read and the completion of `build` is missed. -/
theorem change_during_build :
    ∃ ops v, (runInMemory 0 ops).AtRest ∧ (runInMemory 0 ops).shown = .data v ∧ v.pageIndex = 0 ∧
      ¬ (runInMemory 0 ops).FirstPage InMemoryNotificationHistory.loadPage v := by
  refine ⟨[.readBuild, .changed (historyOf 1), .completeBuild], ⟨[], 0, 0, 50, 0⟩, ⟨rfl, rfl⟩, rfl, rfl, ?_⟩
  change ¬ (historyOf 1).loadPage 0 50 = some ⟨[], 0⟩
  decide

/-- So is a change that comes on the way back from the second page, after the first has been read. -/
theorem change_on_the_way_back :
    ∃ ops v, (runInMemory 21 ops).AtRest ∧ (runInMemory 21 ops).shown = .data v ∧ v.pageIndex = 0 ∧
      ¬ (runInMemory 21 ops).FirstPage InMemoryNotificationHistory.loadPage v := by
  refine ⟨[.readBuild, .completeBuild, .setPageSize 20, .read 1, .complete 1, .goToPage 1, .read 2, .complete 2,
    .showNewest, .read 3, .changed (historyOf 22), .complete 3], ⟨(List.range 20).map entryOf, 21, 0, 20, 0⟩,
    ⟨?_, ?_⟩, ?_, rfl, ?_⟩
  · decide +kernel
  · decide +kernel
  · decide +kernel
  · change ¬ (historyOf 22).loadPage 0 20 = some ⟨(List.range 20).map entryOf, 21⟩
    decide +kernel

end HistoryController

end NotifyHub.Client
