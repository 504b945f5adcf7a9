/-
  NotifyHub.Client.PendingController — the client's pending interactions across logins
  (apps/client/lib/pending/pending_controller.dart: `PendingInteractionsController` and
  `offlineLastKnownProvider`).

  Riverpod rebuilds the controller, which bootstrap.dart keeps listened to, when the
  authentication changes; a callback that runs before it does leaves nothing a build
  without login does not clear, so a login or logout is one step with its build. The
  value of a build is installed when it comes, unless the controller was built again; a
  state that loads or has failed keeps the value it had. Fetches settle in any order. What
  a flow does after an `await` is the step in which its fetch settles; the microtask of a
  build, the pages and the answering flows may call `refresh`, `reconcile` and the
  removals at any time.

  Ghosts: a login session is counted by the logouts before it, each load knows the one it
  was started under, and each interaction the load it came with.

  - `shown_is_own`: the state holds no interaction of an earlier session, in any run.
  - `isolated_iff`: nothing of an earlier session is in the state, retained, or listed as
    offline, exactly in the runs where no load of an earlier session brings interactions.
  - `late_load_is_retained`: one that does is retained, and listed under the next account:
    `_fetch` retains before its caller looks at the epoch.
-/

import Mathlib.Data.List.Sort
import NotifyHub.Lib.OMap
import NotifyHub.Lib.Rows
import NotifyHub.Lib.Run
import NotifyHub.Lib.Text

namespace NotifyHub.Client

inductive InstancePresenceState where
  | controllable
  | conflicting
  | incompatible
  | offline
  deriving DecidableEq

structure InstancePresence where
  state : InstancePresenceState
  lastSeenAt : Int
  deriving DecidableEq

structure PendingInteraction where
  instanceId : JsString
  requestId : JsString
  /-- In microseconds. -/
  occurredAt : Int
  deriving DecidableEq

/-- An interaction, and the load it came with. -/
structure Loaded where
  item : PendingInteraction
  load : Nat
  deriving DecidableEq

inductive FetchOwner where
  | build
  | refresh
  | reconcile
  deriving DecidableEq

/-- A `_fetch`: the flow that awaits it, the epoch that flow captured, and the session it began under. -/
structure PendingFetch where
  owner : FetchOwner
  epoch : Nat
  session : Nat
  waiting : Bool
  deriving DecidableEq

structure PendingController where
  authenticated : Bool
  session : Nat
  presences : OMap JsString InstancePresence
  building : Bool
  refreshQueued : Bool
  /-- `_activeRefresh` is set. -/
  activeRefresh : Bool
  /-- The active refresh has come to its end, and its `whenComplete` has not. -/
  refreshOver : Bool
  epoch : Nat
  lastKnownByInstance : OMap JsString (List Loaded)
  submittedInteractionKeys : List JsString
  forgottenOfflineKeys : List JsString
  /-- `state.value`, empty where there is none. -/
  value : List Loaded
  fetches : List PendingFetch

def PendingController.init : PendingController :=
  ⟨false, 0, .empty, false, false, false, false, 0, .empty, [], [], [], []⟩

/-- A snapshot: its interactions, and the instances the gateway says it queried. -/
structure PendingSnapshotLoad where
  interactions : List PendingInteraction
  queriedInstanceIds : Option (List JsString)
  deriving DecidableEq

def interactionKey (instanceId requestId : JsString) : JsString := instanceId ++ js ":" ++ requestId

/-- The order of `interactions.sort`. -/
def Before (l r : Loaded) : Prop :=
  l.item.occurredAt < r.item.occurredAt ∨ l.item.occurredAt = r.item.occurredAt ∧
    (l.item.instanceId < r.item.instanceId ∨ l.item.instanceId = r.item.instanceId ∧
      l.item.requestId ≤ r.item.requestId)

instance : DecidableRel Before := fun _ _ => inferInstanceAs (Decidable (_ ∨ _ ∧ (_ ∨ _ ∧ _)))

/-- The controllable instances, in order. -/
def actionableSignature (instances : OMap JsString InstancePresence) : JsString :=
  (js "|").intercalate ((instances.filter fun _ p => p.state = .controllable).keys.insertionSort (· ≤ ·))

namespace PendingController

variable (s : PendingController)

def clearRetention : PendingController :=
  { s with lastKnownByInstance := .empty, submittedInteractionKeys := [], forgottenOfflineKeys := [] }

/-- `_fetch` up to where it waits for the loader. -/
def fetch (owner : FetchOwner) : PendingController :=
  { s with fetches := s.fetches ++ [⟨owner, s.epoch, s.session, true⟩] }

/-- What a fetch keeps of a load, in order. -/
def kept (i : Nat) (interactions : List PendingInteraction) : List Loaded :=
  let shown := interactions.filter fun x =>
    !(s.submittedInteractionKeys.contains (interactionKey x.instanceId x.requestId)) &&
      (!(s.forgottenOfflineKeys.contains (interactionKey x.instanceId x.requestId)) ||
        (s.presences.get x.instanceId).map (·.state) = some .controllable)
  (shown.map (⟨·, i⟩)).insertionSort Before

/-- The presence-derived fallback for the instances the gateway queried. -/
def queriedInstanceIds : List JsString := (s.presences.filter fun _ p => p.state = .controllable).keys

def retain (interactions : List Loaded) (queried : List JsString) : PendingController :=
  { s with
    lastKnownByInstance := (queried ++ interactions.map (·.item.instanceId)).foldl
      (fun m id => m.set id (interactions.filter (·.item.instanceId = id))) s.lastKnownByInstance }

/-- `build` up to where it waits, or with its value where it does not. -/
def build : PendingController :=
  let s := { s with epoch := s.epoch + 1, building := true, refreshQueued := false }
  if s.authenticated then s.fetch .build else { s.clearRetention with building := false, value := [] }

def runRefreshLoop : PendingController :=
  if s.authenticated then ({ s with refreshQueued := false } : PendingController).fetch .refresh
  else { s.clearRetention with value := [], refreshOver := true }

def refresh : PendingController :=
  if s.building || s.activeRefresh then { s with refreshQueued := true }
  else ({ s with activeRefresh := true } : PendingController).runRefreshLoop

/-- The `whenComplete` of a refresh. -/
def refreshEnded : PendingController :=
  if s.refreshOver then
    let s := { s with activeRefresh := false, refreshOver := false }
    if s.refreshQueued && !s.building then s.refresh else s
  else s

def reconcile : PendingController :=
  if s.building || s.activeRefresh then { s with refreshQueued := true }
  else if s.authenticated then s.fetch .reconcile
  else { s.clearRetention with value := [] }

/-- A flow goes on after its fetch, with its value unless it failed. -/
def resume (fetch : PendingFetch) (next : Option (List Loaded)) : PendingController :=
  match fetch.owner with
  | .build =>
    let s := { s with building := false }
    if fetch.epoch = s.epoch then { s with value := next.getD s.value } else s
  | .refresh =>
    if fetch.epoch ≠ s.epoch ∨ s.authenticated = false then { s with refreshOver := true }
    else
      let s := { s with value := next.getD s.value }
      if s.refreshQueued then ({ s with refreshQueued := false } : PendingController).fetch .refresh
      else { s with refreshOver := true }
  | .reconcile =>
    if fetch.epoch ≠ s.epoch ∨ s.authenticated = false then s else { s with value := next.getD s.value }

/-- A loader settles. -/
def settle (i : Nat) (result : Option PendingSnapshotLoad) : PendingController :=
  match s.fetches[i]? with
  | some ⟨owner, epoch, session, true⟩ =>
    let fetch : PendingFetch := ⟨owner, epoch, session, false⟩
    let s := { s with fetches := s.fetches.set i fetch }
    match result with
    | none => s.resume fetch none
    | some load =>
      let interactions := s.kept i load.interactions
      (s.retain interactions (load.queriedInstanceIds.getD s.queriedInstanceIds)).resume fetch (some interactions)
  | _ => s

def presencesChanged (next : OMap JsString InstancePresence) : PendingController :=
  let previous := s.presences
  let s := { s with presences := next }
  if actionableSignature previous ≠ actionableSignature next then
    if s.building then { s with refreshQueued := true } else s.refresh
  else s

def forgetOffline (item : PendingInteraction) : PendingController :=
  if ((s.presences.get item.instanceId).any fun p => p.state ≠ .offline) then s
  else
    { s with
      forgottenOfflineKeys := interactionKey item.instanceId item.requestId :: s.forgottenOfflineKeys
      lastKnownByInstance := s.lastKnownByInstance.set item.instanceId
        (((s.lastKnownByInstance.get item.instanceId).getD []).filter fun x => x.item.requestId ≠ item.requestId)
      value := s.value.filter fun x => x.item.instanceId ≠ item.instanceId ∨ x.item.requestId ≠ item.requestId }

def removeInteraction (requestId : JsString) : PendingController :=
  { s with value := s.value.filter fun x => x.item.requestId ≠ requestId }

def removeSubmittedInteraction (instanceId requestId : JsString) : PendingController :=
  { s with
    submittedInteractionKeys := interactionKey instanceId requestId :: s.submittedInteractionKeys
    lastKnownByInstance := s.lastKnownByInstance.set instanceId
      (((s.lastKnownByInstance.get instanceId).getD []).filter fun x => x.item.requestId ≠ requestId)
    value := s.value.filter fun x => x.item.instanceId ≠ instanceId ∨ x.item.requestId ≠ requestId }

/-! ## The offline list -/

/-- The first interaction of each request. -/
def distinct : List JsString → List Loaded → List Loaded
  | _, [] => []
  | seen, x :: xs =>
    if seen.contains x.item.requestId then distinct seen xs else x :: distinct (x.item.requestId :: seen) xs

/-- The requests of one instance, with its last-online time, unless it is online. -/
def offlineOf (instanceId : JsString) : List (Loaded × Int) :=
  let presence := s.presences.get instanceId
  if presence.any fun p => p.state ≠ .offline then []
  else
    let items := s.value.filter (·.item.instanceId = instanceId) ++ (s.lastKnownByInstance.get instanceId).getD []
    (distinct [] items).map fun x => (x, (presence.map (·.lastSeenAt)).getD x.item.occurredAt)

/-- `offlineLastKnownProvider` -/
def offlineLastKnown : List (Loaded × Int) :=
  ((s.lastKnownByInstance.keys ++ s.value.map (·.item.instanceId)).eraseDups).flatMap s.offlineOf

end PendingController

inductive PendingOp where
  | login
  | logout
  /-- The controller is invalidated, or the tokens of the session change. -/
  | rebuild
  | refresh
  | refreshEnded
  | reconcile
  | settle (fetch : Nat) (result : Option PendingSnapshotLoad)
  | presences (next : OMap JsString InstancePresence)
  | forgetOffline (item : PendingInteraction)
  | removeInteraction (requestId : JsString)
  | removeSubmittedInteraction (instanceId requestId : JsString)

namespace PendingController

def step (s : PendingController) : PendingOp → PendingController
  | .login => ({ s with authenticated := true } : PendingController).build
  | .logout => ({ s with authenticated := false, session := s.session + 1 } : PendingController).build
  | .rebuild => s.build
  | .refresh => s.refresh
  | .refreshEnded => s.refreshEnded
  | .reconcile => s.reconcile
  | .settle i result => s.settle i result
  | .presences next => s.presencesChanged next
  | .forgetOffline item => s.forgetOffline item
  | .removeInteraction requestId => s.removeInteraction requestId
  | .removeSubmittedInteraction instanceId requestId => s.removeSubmittedInteraction instanceId requestId

abbrev run (es : List PendingOp) : PendingController := runFrom step .init es

/-! ## Whose interactions there are -/

/-- It came with a load of the current session. -/
def Own (s : PendingController) (x : Loaded) : Prop :=
  ∃ f : PendingFetch, s.fetches[x.load]? = some f ∧ f.session = s.session

def Retained (s : PendingController) (x : Loaded) : Prop := ∃ id l, s.lastKnownByInstance.get id = some l ∧ x ∈ l

structure Isolated (s : PendingController) : Prop where
  state : ∀ x ∈ s.value, s.Own x
  retained : ∀ x, s.Retained x → s.Own x
  offline : ∀ o ∈ s.offlineLastKnown, s.Own o.1

/-- A load of an earlier session that comes brings nothing the controller keeps. -/
def Prompt (s : PendingController) : PendingOp → Prop
  | .settle i (some load) => ∀ f ∈ s.fetches[i]?, f.waiting = true → f.session = s.session ∨
      s.kept i load.interactions = []
  | _ => True

instance (s : PendingController) (op : PendingOp) : Decidable (Prompt s op) :=
  match op with
  | .settle _ (some _) => inferInstanceAs (Decidable (∀ _ ∈ _, _ → _))
  | .settle _ none | .login | .logout | .rebuild | .refresh | .refreshEnded | .reconcile | .presences _
  | .forgetOffline _ | .removeInteraction _ | .removeSubmittedInteraction .. => inferInstanceAs (Decidable True)

/-- Fetches of earlier sessions captured earlier epochs. -/
def Dated (s : PendingController) : Prop :=
  ∀ (i : Nat) (f : PendingFetch), s.fetches[i]? = some f → f.session ≤ s.session ∧ f.epoch ≤ s.epoch ∧
    (f.session < s.session → f.epoch < s.epoch)

/-- A step within a session that shows and retains nothing new but what is in `new`. -/
structure Adds (new : List Loaded) (s s' : PendingController) : Prop where
  session : s'.session = s.session
  epoch : s.epoch ≤ s'.epoch
  kept : ∀ (i : Nat) (f : PendingFetch), s.fetches[i]? = some f → ∃ f' : PendingFetch,
  s'.fetches[i]? = some f' ∧ f'.session = f.session
  began : ∀ (i : Nat) (f' : PendingFetch), s'.fetches[i]? = some f' →
    (∃ f : PendingFetch, s.fetches[i]? = some f ∧ f'.session = f.session ∧ f'.epoch = f.epoch) ∨
    f'.session = s'.session ∧ f'.epoch ≤ s'.epoch
  value : ∀ x ∈ s'.value, x ∈ s.value ∨ x ∈ new
  retained : ∀ x, s'.Retained x → s.Retained x ∨ x ∈ new

section
variable {s s' s'' : PendingController} {new : List Loaded}

/-- A step that leaves the fetches alone. -/
theorem Adds.of_eq (hs : s'.session = s.session) (he : s.epoch ≤ s'.epoch) (hf : s'.fetches = s.fetches)
    (hv : ∀ x ∈ s'.value, x ∈ s.value ∨ x ∈ new) (hr : ∀ x, s'.Retained x → s.Retained x ∨ x ∈ new) :
    Adds new s s' := by
  refine ⟨hs, he, fun i f h => ⟨f, by rw [hf]; exact h, rfl⟩, fun i f' h => Or.inl ⟨f', ?_, rfl, rfl⟩, hv, hr⟩
  rw [← hf]
  exact h

/-- A step that leaves all of it alone. -/
theorem Adds.of_same (hs : s'.session = s.session) (he : s.epoch ≤ s'.epoch) (hf : s'.fetches = s.fetches)
    (hv : s'.value = s.value) (hl : s'.lastKnownByInstance = s.lastKnownByInstance) : Adds new s s' := by
  refine .of_eq hs he hf (fun x hx => Or.inl (hv ▸ hx)) fun x hx => Or.inl ?_
  unfold Retained at hx ⊢
  rw [← hl]
  exact hx

theorem Adds.refl (new : List Loaded) (s : PendingController) : Adds new s s := .of_same rfl (Nat.le_refl _) rfl rfl rfl

theorem Adds.trans (h : Adds new s s') (h' : Adds new s' s'') : Adds new s s'' := by
  refine ⟨h'.session.trans h.session, Nat.le_trans h.epoch h'.epoch, fun i f hf => ?_, fun i f'' hf => ?_,
    fun x hx => ?_,
    fun x hx => ?_⟩
  · obtain ⟨f', hf', heq⟩ := h.kept i f hf
    obtain ⟨f'', hf'', heq'⟩ := h'.kept i f' hf'
    exact ⟨f'', hf'', heq'.trans heq⟩
  · rcases h'.began i f'' hf with ⟨f', hf', hsession, hepoch⟩ | hnew
    · rcases h.began i f' hf' with ⟨f, hf, hsession', hepoch'⟩ | ⟨hsession', hepoch'⟩
      · exact Or.inl ⟨f, hf, hsession.trans hsession', hepoch.trans hepoch'⟩
      · refine Or.inr ⟨hsession.trans (hsession'.trans h'.session.symm), ?_⟩
        rw [hepoch]
        exact Nat.le_trans hepoch' h'.epoch
    · exact Or.inr hnew
  · rcases h'.value x hx with hx | hx
    · exact h.value x hx
    · exact Or.inr hx
  · rcases h'.retained x hx with hx | hx
    · exact h.retained x hx
    · exact Or.inr hx

theorem Adds.own (h : Adds new s s') {x : Loaded} (hx : s.Own x) : s'.Own x := by
  obtain ⟨f, hf, hs⟩ := hx
  obtain ⟨f', hf', hs'⟩ := h.kept _ f hf
  exact ⟨f', hf', hs'.trans (hs.trans h.session.symm)⟩

theorem Dated.adds (h : Dated s) (ha : Adds new s s') : Dated s' := by
  intro i f' hf'
  rcases ha.began i f' hf' with ⟨f, hf, hsession, hepoch⟩ | ⟨hsession, hepoch⟩
  · obtain ⟨hle, hle', hlt⟩ := h i f hf
    have hs := ha.session
    have he := ha.epoch
    rw [hsession, hepoch]
    refine ⟨by omega, by omega, fun hearlier => ?_⟩
    have := hlt (by omega)
    omega
  · exact ⟨Nat.le_of_eq hsession, hepoch, fun hearlier => absurd hsession (Nat.ne_of_lt hearlier)⟩

/-! ## The offline list -/

theorem mem_distinct {seen : List JsString} {xs : List Loaded} {x : Loaded} (h : x ∈ distinct seen xs) : x ∈ xs := by
  induction xs generalizing seen with
  | nil => exact h
  | cons y ys ih =>
    unfold distinct at h
    split at h
    · exact List.mem_cons_of_mem y (ih h)
    · rcases List.mem_cons.mp h with rfl | h
      · exact List.mem_cons_self
      · exact List.mem_cons_of_mem y (ih h)

theorem mem_offline {o : Loaded × Int} (h : o ∈ s.offlineLastKnown) : o.1 ∈ s.value ∨ s.Retained o.1 := by
  obtain ⟨id, -, h⟩ := List.mem_flatMap.mp h
  unfold offlineOf at h
  dsimp only at h
  split at h
  · cases h
  · obtain ⟨x, hx, rfl⟩ := List.mem_map.mp h
    rcases List.mem_append.mp (mem_distinct hx) with hx | hx
    · exact Or.inl (List.mem_of_mem_filter hx)
    · refine Or.inr ?_
      cases hl : s.lastKnownByInstance.get id with
      | none => rw [hl] at hx; cases hx
      | some l => exact ⟨id, l, hl, by rw [hl] at hx; exact hx⟩

/-- What is listed is shown or retained. -/
theorem isolated_of (hv : ∀ x ∈ s.value, s.Own x) (hr : ∀ x, s.Retained x → s.Own x) : Isolated s := by
  refine ⟨hv, hr, fun o ho => ?_⟩
  rcases mem_offline ho with ho | ho
  · exact hv _ ho
  · exact hr _ ho

theorem Isolated.adds (h : Isolated s) (ha : Adds new s s') (hnew : ∀ x ∈ new, s'.Own x) : Isolated s' := by
  refine isolated_of (fun x hx => ?_) fun x hx => ?_
  · rcases ha.value x hx with hx | hx
    · exact ha.own (h.state x hx)
    · exact hnew x hx
  · rcases ha.retained x hx with hx | hx
    · exact ha.own (h.retained x hx)
    · exact hnew x hx

end

/-! ## What each operation adds -/

section
variable (new : List Loaded) (s : PendingController)

theorem adds_fetch (owner : FetchOwner) : Adds new s (s.fetch owner) := by
  refine ⟨rfl, Nat.le_refl _, fun i f hf => ⟨f, getElem_append_old hf _, rfl⟩, fun i f' hf' => ?_,
    fun _ hx => Or.inl hx,
    fun _ hx => Or.inl hx⟩
  rcases getElem_snoc.mp hf' with hf | ⟨-, rfl⟩
  · exact Or.inl ⟨f', hf, rfl, rfl⟩
  · exact Or.inr ⟨rfl, Nat.le_refl _⟩

/-- Without login all goes. -/
theorem adds_clear {s' : PendingController} (hs : s'.session = s.session) (he : s.epoch ≤ s'.epoch)
    (hf : s'.fetches = s.fetches) (hv : s'.value = []) (hl : s'.lastKnownByInstance = .empty) : Adds new s s' := by
  refine .of_eq hs he hf (fun x hx => ?_) fun x ⟨id, l, hget, _⟩ => ?_
  · rw [hv] at hx
    cases hx
  · rw [hl] at hget
    cases hget

theorem adds_build : Adds new s s.build := by
  unfold build
  dsimp only
  split
  · have hset : Adds new s { s with epoch := s.epoch + 1, building := true, refreshQueued := false } :=
      .of_same rfl (Nat.le_succ _) rfl rfl rfl
    exact hset.trans (adds_fetch new _ .build)
  · exact adds_clear new s rfl (Nat.le_succ _) rfl rfl rfl

theorem adds_runRefreshLoop : Adds new s s.runRefreshLoop := by
  unfold runRefreshLoop
  split
  · have hset : Adds new s { s with refreshQueued := false } := .of_same rfl (Nat.le_refl _) rfl rfl rfl
    exact hset.trans (adds_fetch new _ .refresh)
  · exact adds_clear new s rfl (Nat.le_refl _) rfl rfl rfl

theorem adds_refresh : Adds new s s.refresh := by
  unfold refresh
  split
  · exact .of_same rfl (Nat.le_refl _) rfl rfl rfl
  · have hset : Adds new s { s with activeRefresh := true } := .of_same rfl (Nat.le_refl _) rfl rfl rfl
    exact hset.trans (adds_runRefreshLoop new _)

theorem adds_refreshEnded : Adds new s s.refreshEnded := by
  have hended : Adds new s { s with activeRefresh := false, refreshOver := false } :=
    .of_same rfl (Nat.le_refl _) rfl rfl rfl
  unfold refreshEnded
  split
  · dsimp only
    split
    · exact hended.trans (adds_refresh new _)
    · exact hended
  · exact .refl new s

theorem adds_reconcile : Adds new s s.reconcile := by
  unfold reconcile
  split
  · exact .of_same rfl (Nat.le_refl _) rfl rfl rfl
  · split
    · exact adds_fetch new s .reconcile
    · exact adds_clear new s rfl (Nat.le_refl _) rfl rfl rfl

/-- A flow shows the value of its fetch, or what was shown. -/
theorem adds_value {next : Option (List Loaded)} (hnext : ∀ l, next = some l → l = new) {s' : PendingController}
    (hs : s'.session = s.session) (he : s.epoch ≤ s'.epoch) (hf : s'.fetches = s.fetches)
    (hv : s'.value = next.getD s.value)
    (hl : s'.lastKnownByInstance = s.lastKnownByInstance) : Adds new s s' := by
  refine .of_eq hs he hf (fun x hx => ?_) fun x hx => Or.inl ?_
  · rw [hv] at hx
    cases next with
    | none => exact Or.inl hx
    | some l => exact Or.inr (hnext l rfl ▸ hx)
  · unfold Retained at hx ⊢
    rw [← hl]
    exact hx

theorem adds_resume (fetch : PendingFetch) {next : Option (List Loaded)} (hnext : ∀ l, next = some l → l = new) :
    Adds new s (s.resume fetch next) := by
  unfold resume
  split
  · dsimp only
    split
    · exact adds_value new s hnext rfl (Nat.le_refl _) rfl rfl rfl
    · exact .of_same rfl (Nat.le_refl _) rfl rfl rfl
  · split
    · exact .of_same rfl (Nat.le_refl _) rfl rfl rfl
    · dsimp only
      split
      · have hset : Adds new s { s with value := next.getD s.value, refreshQueued := false } :=
          adds_value new s hnext rfl (Nat.le_refl _) rfl rfl rfl
        exact hset.trans (adds_fetch new _ .refresh)
      · exact adds_value new s hnext rfl (Nat.le_refl _) rfl rfl rfl
  · split
    · exact .refl new s
    · exact adds_value new s hnext rfl (Nat.le_refl _) rfl rfl rfl

theorem adds_presencesChanged (next : OMap JsString InstancePresence) : Adds new s (s.presencesChanged next) := by
  have hset : Adds new s { s with presences := next } := .of_same rfl (Nat.le_refl _) rfl rfl rfl
  unfold presencesChanged
  dsimp only
  split
  · split
    · exact hset.trans (.of_same rfl (Nat.le_refl _) rfl rfl rfl)
    · exact hset.trans (adds_refresh new _)
  · exact hset

variable {s} in
/-- Less of one instance is retained. -/
theorem retained_of_set {id : JsString} {p : Loaded → Bool} {s' : PendingController} {x : Loaded}
    (hl : s'.lastKnownByInstance = s.lastKnownByInstance.set id (((s.lastKnownByInstance.get id).getD []).filter p))
    (hx : s'.Retained x) : s.Retained x := by
  obtain ⟨id', l, hget, hx⟩ := hx
  rw [hl, OMap.get_set] at hget
  split at hget
  · obtain rfl := Option.some.inj hget
    cases hold : s.lastKnownByInstance.get id with
    | none =>
      rw [hold] at hx
      cases hx
    | some l =>
      rw [hold] at hx
      exact ⟨id, l, hold, List.mem_of_mem_filter hx⟩
  · exact ⟨id', l, hget, hx⟩

theorem adds_forgetOffline (item : PendingInteraction) : Adds new s (s.forgetOffline item) := by
  unfold forgetOffline
  split
  · exact .refl new s
  · exact .of_eq rfl (Nat.le_refl _) rfl (fun _ hx => Or.inl (List.mem_of_mem_filter hx)) fun _ hx =>
      Or.inl (retained_of_set rfl hx)

theorem adds_removeInteraction (requestId : JsString) : Adds new s (s.removeInteraction requestId) :=
  .of_eq rfl (Nat.le_refl _) rfl (fun _ hx => Or.inl (List.mem_of_mem_filter hx)) fun _ hx => Or.inl hx

theorem adds_removeSubmittedInteraction (instanceId requestId : JsString) :
    Adds new s (s.removeSubmittedInteraction instanceId requestId) :=
  .of_eq rfl (Nat.le_refl _) rfl (fun _ hx => Or.inl (List.mem_of_mem_filter hx)) fun _ hx =>
    Or.inl (retained_of_set rfl hx)

end

/-! ## A load -/

section
variable {s : PendingController}

/-- An instance in the snapshot, or queried, is retained with what the snapshot has of it. -/
theorem get_retain (interactions : List Loaded) (ids : List JsString) (m : OMap JsString (List Loaded))
    (id : JsString) :
    (ids.foldl (fun m id => m.set id (interactions.filter (·.item.instanceId = id))) m).get id =
      if id ∈ ids then some (interactions.filter (·.item.instanceId = id)) else m.get id := by
  induction ids generalizing m with
  | nil => rfl
  | cons id' ids ih =>
    rw [List.foldl_cons, ih, OMap.get_set]
    by_cases hmem : id ∈ ids
    · rw [if_pos hmem, if_pos (List.mem_cons_of_mem id' hmem)]
    · rw [if_neg hmem]
      by_cases heq : id = id'
      · rw [if_pos heq, if_pos (by rw [heq]; exact List.mem_cons_self), heq]
      · rw [if_neg heq, if_neg fun hcons => ?_]
        rcases List.mem_cons.mp hcons with h | h
        · exact heq h
        · exact hmem h

theorem adds_retain (interactions : List Loaded) (queried : List JsString) :
    Adds interactions s (s.retain interactions queried) := by
  refine .of_eq rfl (Nat.le_refl _) rfl (fun x hx => Or.inl hx) fun x ⟨id, l, hget, hx⟩ => ?_
  rw [retain, get_retain] at hget
  split at hget
  · obtain rfl := Option.some.inj hget
    exact Or.inr (List.mem_of_mem_filter hx)
  · exact Or.inl ⟨id, l, hget, hx⟩

/-- All that a fetch keeps is retained. -/
theorem retained_retain {interactions : List Loaded} (queried : List JsString) {x : Loaded} (hx : x ∈ interactions) :
    (s.retain interactions queried).Retained x := by
  refine ⟨x.item.instanceId, interactions.filter (·.item.instanceId = x.item.instanceId), ?_, ?_⟩
  · rw [retain, get_retain, if_pos (List.mem_append_right _ (List.mem_map_of_mem hx))]
  · exact List.mem_filter.mpr ⟨hx, decide_eq_true rfl⟩

theorem resume_lastKnown (s : PendingController) (fetch : PendingFetch) (next : Option (List Loaded)) :
    (s.resume fetch next).lastKnownByInstance = s.lastKnownByInstance := by
  unfold resume
  split
  · dsimp only
    split <;> rfl
  · split
    · rfl
    · dsimp only
      split <;> rfl
  · split <;> rfl

theorem load_of_kept {i : Nat} {interactions : List PendingInteraction} {x : Loaded} (hx : x ∈ s.kept i interactions) :
    x.load = i := by
  unfold kept at hx
  rw [List.mem_insertionSort] at hx
  obtain ⟨_, -, rfl⟩ := List.mem_map.mp hx
  rfl

theorem adds_settled (new : List Loaded) {i : Nat} {f : PendingFetch} (hf : s.fetches[i]? = some f) :
    Adds new s { s with fetches := s.fetches.set i { f with waiting := false } } := by
  refine ⟨rfl, Nat.le_refl _, fun j g hg => ?_, fun j g hg => Or.inl ?_, fun _ hx => Or.inl hx, fun _ hx => Or.inl hx⟩
  · by_cases hij : i = j
    · subst hij
      obtain rfl := Option.some.inj (hf.symm.trans hg)
      exact ⟨_, getElem_set_self hf, rfl⟩
    · exact ⟨g, (getElem_set hf).mpr (Or.inr ⟨hij, hg⟩), rfl⟩
  · rcases (getElem_set hf).mp hg with ⟨rfl, rfl⟩ | ⟨-, hg⟩
    · exact ⟨f, hf, rfl, rfl⟩
    · exact ⟨g, hg, rfl, rfl⟩

/-- What a load brings is what its fetch keeps of it, and all of that is retained. -/
theorem settle_some {i : Nat} {f : PendingFetch} (hf : s.fetches[i]? = some f) (hw : f.waiting = true)
    (load : PendingSnapshotLoad) :
    Adds (s.kept i load.interactions) s (s.settle i (some load)) ∧
      ∀ x ∈ s.kept i load.interactions, (s.settle i (some load)).Retained x := by
  obtain ⟨owner, epoch, session, waiting⟩ := f
  obtain rfl : waiting = true := hw
  unfold settle
  rw [hf]
  dsimp only
  have hset := adds_settled (s.kept i load.interactions) hf
  refine ⟨hset.trans ((adds_retain _ _).trans (adds_resume _ _ _ fun l hl => (Option.some.inj hl).symm)),
    fun x hx => ?_⟩
  obtain ⟨id, l, hget, hx⟩ :=
    retained_retain (s := { s with fetches := s.fetches.set i ⟨owner, epoch, session, false⟩ })
    (load.queriedInstanceIds.getD s.queriedInstanceIds) hx
  exact ⟨id, l, (congrArg (OMap.get · id) (resume_lastKnown _ _ _)).trans hget, hx⟩

theorem adds_settle_none (new : List Loaded) (i : Nat) : Adds new s (s.settle i none) := by
  unfold settle
  split
  · rename_i owner epoch session hf
    exact (adds_settled new hf).trans (adds_resume new _ _ nofun)
  · exact .refl new s

theorem settle_over {i : Nat} (h : ∀ f, s.fetches[i]? = some f → f.waiting = false)
    (result : Option PendingSnapshotLoad) :
    s.settle i result = s := by
  unfold settle
  split
  · rename_i hf
    cases h _ hf
  · rfl

end

/-! ## One step -/

section
variable {s : PendingController}

/-- A step adds nothing, ends the session, or is a load. -/
theorem step_cases (s : PendingController) (op : PendingOp) :
    Adds [] s (s.step op) ∨ op = .logout ∨
      ∃ i load f, op = .settle i (some load) ∧ s.fetches[i]? = some f ∧ f.waiting = true := by
  cases op with
  | login =>
    have hset : Adds [] s { s with authenticated := true } := .of_same rfl (Nat.le_refl _) rfl rfl rfl
    exact Or.inl (hset.trans (adds_build [] _))
  | logout => exact Or.inr (Or.inl rfl)
  | rebuild => exact Or.inl (adds_build [] s)
  | refresh => exact Or.inl (adds_refresh [] s)
  | refreshEnded => exact Or.inl (adds_refreshEnded [] s)
  | reconcile => exact Or.inl (adds_reconcile [] s)
  | settle i result =>
    cases result with
    | none => exact Or.inl (adds_settle_none [] i)
    | some load =>
      by_cases h : ∃ f, s.fetches[i]? = some f ∧ f.waiting = true
      · obtain ⟨f, hf, hw⟩ := h
        exact Or.inr (Or.inr ⟨i, load, f, rfl, hf, hw⟩)
      · refine Or.inl ?_
        show Adds [] s (s.settle i (some load))
        rw [settle_over fun f hf => Bool.eq_false_iff.mpr fun hw => h ⟨f, hf, hw⟩]
        exact .refl [] s
  | presences next => exact Or.inl (adds_presencesChanged [] s next)
  | forgetOffline item => exact Or.inl (adds_forgetOffline [] s item)
  | removeInteraction requestId => exact Or.inl (adds_removeInteraction [] s requestId)
  | removeSubmittedInteraction instanceId requestId =>
    exact Or.inl (adds_removeSubmittedInteraction [] s instanceId requestId)

/-- After a logout nothing is left. -/
theorem isolated_logout (s : PendingController) : Isolated (s.step .logout) := by
  refine isolated_of (fun x hx => ?_) fun x ⟨id, l, hget, _⟩ => ?_
  · cases hx
  · cases hget

theorem dated_step (h : Dated s) (op : PendingOp) : Dated (s.step op) := by
  rcases step_cases s op with ha | rfl | ⟨i, load, f, rfl, hf, hw⟩
  · exact h.adds ha
  · intro i f hf
    obtain ⟨hle, hle', -⟩ := h i f hf
    exact ⟨Nat.le_succ_of_le hle, Nat.le_succ_of_le hle', fun _ => Nat.lt_succ_of_le hle'⟩
  · exact h.adds (settle_some hf hw load).1

theorem isolated_step (h : Isolated s) (op : PendingOp) : Isolated (s.step op) ↔ Prompt s op := by
  by_cases hload : ∃ i load f, op = .settle i (some load) ∧ s.fetches[i]? = some f ∧ f.waiting = true
  · obtain ⟨i, load, f, rfl, hf, hw⟩ := hload
    obtain ⟨hadds, hretained⟩ := settle_some hf hw load
    constructor
    · intro hi g hg _
      obtain rfl := Option.some.inj (hf.symm.trans hg)
      by_cases hnone : s.kept i load.interactions = []
      · exact Or.inr hnone
      · -- one that is kept is retained, so it came with a load of this session
        obtain ⟨x, hx⟩ := List.exists_mem_of_ne_nil _ hnone
        obtain ⟨f', hf', hs'⟩ := hi.retained x (hretained x hx)
        obtain ⟨g, hg, hs⟩ := hadds.kept i f hf
        rw [load_of_kept hx] at hf'
        obtain rfl := Option.some.inj (hg.symm.trans hf')
        exact Or.inl (hs.symm.trans (hs'.trans hadds.session))
    · intro hprompt
      refine h.adds hadds fun x hx => hadds.own ?_
      rcases hprompt f hf hw with hs | hnone
      · exact ⟨f, load_of_kept hx ▸ hf, hs⟩
      · rw [hnone] at hx
        cases hx
  · have hprompt : Prompt s op := by
      cases op with
      | settle i result =>
        cases result with
        | none => trivial
        | some load => exact fun f hf hw => absurd ⟨i, load, f, rfl, hf, hw⟩ hload
      | _ => trivial
    refine iff_of_true ?_ hprompt
    rcases step_cases s op with ha | rfl | hset
    · exact h.adds ha nofun
    · exact isolated_logout s
    · exact absurd hset hload

/-- A flow that captured an earlier epoch shows nothing. -/
theorem resume_value {fetch : PendingFetch} (h : fetch.epoch ≠ s.epoch) (next : Option (List Loaded)) :
    (s.resume fetch next).value = s.value := by
  unfold resume
  split
  · dsimp only
    rw [if_neg h]
  · rw [if_pos (Or.inl h)]
  · rw [if_pos (Or.inl h)]

theorem shown_step (hd : Dated s) (h : ∀ x ∈ s.value, s.Own x) (op : PendingOp) : ∀ x ∈ (s.step op).value,
    (s.step op).Own x := by
  rcases step_cases s op with ha | rfl | ⟨i, load, f, rfl, hf, hw⟩
  · intro x hx
    rcases ha.value x hx with hx | hx
    · exact ha.own (h x hx)
    · cases hx
  · exact nofun
  · intro x hx
    have hadds := (settle_some hf hw load).1
    obtain ⟨hle, -, hlt⟩ := hd i f hf
    rcases Nat.lt_or_eq_of_le hle with hs | hs
    · -- a load of an earlier session
      have hstale := Nat.ne_of_lt (hlt hs)
      obtain ⟨owner, epoch, session, waiting⟩ := f
      obtain rfl : waiting = true := hw
      have hvalue : (s.settle i (some load)).value = s.value := by
        unfold settle
        rw [hf]
        have hfetch : (⟨owner, epoch, session, false⟩ : PendingFetch).epoch ≠ s.epoch := hstale
        exact resume_value
          (s := ({ s with fetches := s.fetches.set i ⟨owner, epoch, session, false⟩ } : PendingController).retain _ _)
          hfetch _
      exact hadds.own (h x (hvalue ▸ hx))
    · rcases hadds.value x hx with hx | hx
      · exact hadds.own (h x hx)
      · exact hadds.own ⟨f, load_of_kept hx ▸ hf, hs⟩

end

/-! ## Over runs -/

/-- What is shown is of the current session in every run: each flow looks at the epoch before it shows its value. -/
theorem shown_is_own (es : List PendingOp) : ∀ x ∈ (run es).value, (run es).Own x := by
  have hinv := @runFrom_inv _ _ step (fun s => Dated s ∧ ∀ x ∈ s.value, s.Own x)
    (fun s op h => ⟨dated_step h.1 op, shown_step h.1 h.2 op⟩) .init ⟨nofun, nofun⟩ es
  exact hinv.2

/-- Nothing of an earlier session is ever shown, retained or listed exactly if no load of one brings anything. -/
theorem isolated_iff (es : List PendingOp) :
    (∀ before after, es = before ++ after → Isolated (run before)) ↔ Along step Prompt .init es := by
  have hinit : Isolated .init := by
    refine isolated_of nofun fun x ⟨id, l, hget, _⟩ => ?_
    cases hget
  exact @good_iff_along _ _ step (fun _ => True) Isolated Prompt (fun _ _ _ => trivial)
    (fun _ op _ h => isolated_step h op)
    es .init trivial hinit

def sampleInteraction : PendingInteraction := ⟨js "inst-a", js "request-1", 5⟩

/-- A refresh is out at the logout, and its load comes after the next login. -/
def lateLoad : List PendingOp :=
  [.login, .settle 0 (some ⟨[], none⟩), .refresh, .logout, .login, .settle 1 (some ⟨[sampleInteraction], none⟩)]

theorem late_load_is_retained : ¬ Isolated (run lateLoad) ∧ (run lateLoad).session = 1 ∧
    (run lateLoad).fetches[1]? = some ⟨.refresh, 1, 0, false⟩ ∧
    (run lateLoad).offlineLastKnown = [(⟨sampleInteraction, 1⟩, 5)] := by
  have hoffline : (run lateLoad).offlineLastKnown = [(⟨sampleInteraction, 1⟩, 5)] := by decide +kernel
  have hfetch : (run lateLoad).fetches[1]? = some ⟨.refresh, 1, 0, false⟩ := by decide +kernel
  refine ⟨fun h => ?_, by decide +kernel, hfetch, hoffline⟩
  obtain ⟨f, hf, hs⟩ := h.offline (⟨sampleInteraction, 1⟩, 5) (by rw [hoffline]; exact List.mem_singleton_self _)
  obtain rfl := Option.some.inj (hfetch.symm.trans hf)
  exact absurd hs (by decide +kernel)

end PendingController

end NotifyHub.Client
