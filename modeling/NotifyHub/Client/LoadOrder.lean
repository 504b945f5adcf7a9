/-
  NotifyHub.Client.LoadOrder — whose snapshot the pending list shows.

  Loads are numbered in the order they are issued. `LoadTrace` adds to the controller,
  as ghosts, the load whose snapshot the state holds, the load whose snapshot each
  instance retains, and what the loads brought so far.

  Proved (`later_loads_stay_iff`): within a session no snapshot of an earlier load
  replaces one of a later load exactly in the runs in which a load that settles after a
  later one has no instance in common with it, and is not of the same build of the
  controller (`InOrder`). `reconcile` sets no guard: two of them can be out at once, and
  the first may settle last (`earlier_load_replaces_later`).
-/

import NotifyHub.Client.Submissions

namespace NotifyHub.Client

/-- A load that brought a snapshot: the epoch it began in, and the instances it covered. -/
structure Brought where
  load : Nat
  epoch : Nat
  instances : List JsString
  deriving DecidableEq

structure LoadTrace where
  ctrl : PendingController
  /-- Ghost: the load whose snapshot the state holds. -/
  shown : Option Nat
  /-- Ghost: the load whose snapshot an instance retains. -/
  retainedFrom : JsString → Option Nat
  /-- Ghost: the loads of the session that brought a snapshot. -/
  brought : List Brought

namespace PendingController

/-- The instances `_retain` writes. -/
def covered (s : PendingController) (i : Nat) (load : PendingSnapshotLoad) : List JsString :=
  load.queriedInstanceIds.getD s.queriedInstanceIds ++ (s.kept i load.interactions).map (·.item.instanceId)

/-- A waiting load brings its snapshot. -/
def brings (s : PendingController) : PendingOp → Option Brought
  | .settle i (some load) =>
    match s.fetches[i]? with
    | some ⟨_, epoch, _, true⟩ => some ⟨i, epoch, s.covered i load⟩
    | _ => none
  | _ => none

end PendingController

open PendingController

def stepL (t : LoadTrace) (op : PendingOp) : LoadTrace :=
  match t.ctrl.brings op with
  | none => { t with ctrl := t.ctrl.step op }
  | some b =>
    { ctrl := t.ctrl.step op
      shown := if b.epoch = t.ctrl.epoch then some b.load else t.shown
      retainedFrom := fun id => if id ∈ b.instances then some b.load else t.retainedFrom id
      brought := b :: t.brought }

/-- A session begins. -/
def sessionStart (before : List PendingOp) : LoadTrace := ⟨run (before ++ [.login]), none, fun _ => none, []⟩

/-- No earlier load's snapshot replaces a later one's. -/
structure Forward (t t' : LoadTrace) : Prop where
  state : ∀ j i, t.shown = some j → t'.shown = some i → j ≤ i
  retained : ∀ id j i, t.retainedFrom id = some j → t'.retainedFrom id = some i → j ≤ i

/-- A load that settles after a later one covers none of its instances, and they do not both
    belong to the present build. -/
def InOrder (t : LoadTrace) (op : PendingOp) : Prop :=
  ∀ b ∈ t.ctrl.brings op, ∀ b' ∈ t.brought, b.load < b'.load →
    ¬ (b.epoch = t.ctrl.epoch ∧ b'.epoch = t.ctrl.epoch) ∧ ∀ id ∈ b.instances, id ∉ b'.instances

/-- The ghosts name the loads of what there is. -/
structure Truthful (t : LoadTrace) : Prop where
  state : ∀ j, t.shown = some j → ∀ x ∈ t.ctrl.value, x.load = j
  retained : ∀ id j, t.retainedFrom id = some j → ∀ l, t.ctrl.lastKnownByInstance.get id = some l → ∀ x ∈ l, x.load = j

instance (t : LoadTrace) (op : PendingOp) : Decidable (InOrder t op) :=
  inferInstanceAs (Decidable (∀ b ∈ t.ctrl.brings op, _))

namespace PendingController

/-! ## The order of the fetches -/

/-- The epochs of the fetches do not go down, nor pass the present one. -/
structure Ordered (s : PendingController) : Prop where
  sorted : (s.fetches.map (·.epoch)).Pairwise (· ≤ ·)
  bounded : ∀ e ∈ s.fetches.map (·.epoch), e ≤ s.epoch

/-- The fetches stay, and new ones begin in the present epoch or a later one. -/
structure Grows (s s' : PendingController) : Prop where
  epoch : s.epoch ≤ s'.epoch
  began : ∃ l, s'.fetches.map (·.epoch) = s.fetches.map (·.epoch) ++ l ∧ l.Pairwise (· ≤ ·) ∧ ∀ e ∈ l,
  s.epoch ≤ e ∧ e ≤ s'.epoch

section
variable {s s' s'' : PendingController}

theorem Grows.of_eq (he : s.epoch ≤ s'.epoch) (hf : s'.fetches.map (·.epoch) = s.fetches.map (·.epoch)) : Grows s s' :=
  ⟨he, [], by rw [hf, List.append_nil], .nil, nofun⟩

theorem Grows.refl (s : PendingController) : Grows s s := .of_eq (Nat.le_refl _) rfl

theorem Grows.trans (h : Grows s s') (h' : Grows s' s'') : Grows s s'' := by
  obtain ⟨he, l, hl, hs, hb⟩ := h
  obtain ⟨he', l', hl', hs', hb'⟩ := h'
  refine ⟨Nat.le_trans he he', l ++ l', by rw [hl', hl, List.append_assoc], List.pairwise_append.mpr ⟨hs, hs', ?_⟩, ?_⟩
  · intro e hm e' hm'
    have h1 := (hb e hm).2
    have h2 := (hb' e' hm').1
    omega
  · intro e hm
    rcases List.mem_append.mp hm with hm | hm
    · have := hb e hm
      omega
    · have := hb' e hm
      omega

/-- Before it only fields change that the fetches do not show. -/
theorem Grows.after (h : Grows s' s'') (he : s'.epoch = s.epoch) (hf : s'.fetches = s.fetches) : Grows s s'' :=
  Grows.trans (.of_eq (Nat.le_of_eq he.symm) (by rw [hf])) h

theorem Ordered.grows (h : Ordered s) (hg : Grows s s') : Ordered s' := by
  obtain ⟨he, l, hl, hs, hb⟩ := hg
  refine ⟨?_, fun e hm => ?_⟩
  · rw [hl]
    refine List.pairwise_append.mpr ⟨h.sorted, hs, fun e hm e' hm' => ?_⟩
    have := h.bounded e hm
    have := (hb e' hm').1
    omega
  · rw [hl] at hm
    rcases List.mem_append.mp hm with hm | hm
    · have := h.bounded e hm
      omega
    · exact (hb e hm).2

/-- An earlier fetch began in an earlier epoch or the same. -/
theorem Ordered.le (h : Ordered s) {i j : Nat} {f g : PendingFetch} (hf : s.fetches[i]? = some f)
    (hg : s.fetches[j]? = some g)
    (hij : i < j) : f.epoch ≤ g.epoch := by
  have hfi : (s.fetches.map (·.epoch))[i]? = some f.epoch := by rw [List.getElem?_map, hf]; rfl
  have hgj : (s.fetches.map (·.epoch))[j]? = some g.epoch := by rw [List.getElem?_map, hg]; rfl
  obtain ⟨hi, hfi⟩ := List.getElem?_eq_some_iff.mp hfi
  obtain ⟨hj, hgj⟩ := List.getElem?_eq_some_iff.mp hgj
  have hle := List.pairwise_iff_getElem.mp h.sorted i j hi hj hij
  rwa [hfi, hgj] at hle

theorem Ordered.le_epoch (h : Ordered s) {i : Nat} {f : PendingFetch} (hf : s.fetches[i]? = some f) :
    f.epoch ≤ s.epoch :=
  h.bounded f.epoch (List.mem_map_of_mem (List.mem_of_getElem? hf))

theorem Grows.fetch (h : Grows s s') {i : Nat} {f : PendingFetch} (hf : s.fetches[i]? = some f) :
    ∃ f' : PendingFetch, s'.fetches[i]? = some f' ∧ f'.epoch = f.epoch := by
  obtain ⟨-, l, hl, -, -⟩ := h
  have hi : (s'.fetches.map (·.epoch))[i]? = some f.epoch := by
    rw [hl]
    exact getElem_append_old (by rw [List.getElem?_map, hf]; rfl) l
  rw [List.getElem?_map] at hi
  exact Option.map_eq_some_iff.mp hi

theorem grows_fetch (s : PendingController) (owner : FetchOwner) : Grows s (s.fetch owner) :=
  ⟨Nat.le_refl _, [s.epoch], List.map_append, List.pairwise_singleton .., fun e he => by
    rw [List.mem_singleton.mp he]
    exact ⟨Nat.le_refl _, Nat.le_refl _⟩⟩

theorem grows_build (s : PendingController) : Grows s s.build := by
  have hset : Grows s { s with epoch := s.epoch + 1, building := true, refreshQueued := false } :=
    .of_eq (Nat.le_succ _) rfl
  unfold build
  dsimp only
  split
  · exact hset.trans (grows_fetch _ .build)
  · exact .of_eq (Nat.le_succ _) rfl

theorem grows_refresh (s : PendingController) : Grows s s.refresh := by
  unfold refresh runRefreshLoop
  split
  · exact .of_eq (Nat.le_refl _) rfl
  · split
    · exact (grows_fetch { s with activeRefresh := true, refreshQueued := false } .refresh).after rfl rfl
    · exact .of_eq (Nat.le_refl _) rfl

theorem grows_resume (s : PendingController) (fetch : PendingFetch) (next : Option (List Loaded)) :
    Grows s (s.resume fetch next) := by
  unfold resume
  split
  · dsimp only
    split <;> exact .of_eq (Nat.le_refl _) rfl
  · split
    · exact .of_eq (Nat.le_refl _) rfl
    · dsimp only
      split
      · refine Grows.trans ?_ (grows_fetch _ .refresh)
        exact .of_eq (Nat.le_refl _) rfl
      · exact .of_eq (Nat.le_refl _) rfl
  · split
    · exact .refl s
    · exact .of_eq (Nat.le_refl _) rfl

theorem grows_settle (s : PendingController) (i : Nat) (result : Option PendingSnapshotLoad) :
    Grows s (s.settle i result) := by
  unfold settle
  split
  · rename_i owner epoch session hf
    dsimp only
    have hset : Grows s { s with fetches := s.fetches.set i ⟨owner, epoch, session, false⟩ } :=
      .of_eq (Nat.le_refl _) (map_set_same hf rfl)
    split
    · exact hset.trans (grows_resume _ _ _)
    · refine hset.trans (Grows.trans ?_ (grows_resume _ _ _))
      exact .of_eq (Nat.le_refl _) rfl
  · exact .refl s

theorem grows_step (s : PendingController) (op : PendingOp) : Grows s (s.step op) := by
  cases op with
  | login => exact (grows_build { s with authenticated := true }).after rfl rfl
  | logout =>
    exact (grows_build { s with authenticated := false, session := s.session + 1 }).after rfl rfl
  | rebuild => exact grows_build s
  | refresh => exact grows_refresh s
  | refreshEnded =>
    show Grows s s.refreshEnded
    unfold refreshEnded
    split
    · dsimp only
      split
      · exact (grows_refresh { s with activeRefresh := false, refreshOver := false }).after rfl rfl
      · exact .of_eq (Nat.le_refl _) rfl
    · exact .refl s
  | reconcile =>
    show Grows s s.reconcile
    unfold reconcile
    split
    · exact .of_eq (Nat.le_refl _) rfl
    · split
      · exact grows_fetch s .reconcile
      · exact .of_eq (Nat.le_refl _) rfl
  | settle i result => exact grows_settle s i result
  | presences next =>
    show Grows s (s.presencesChanged next)
    unfold presencesChanged
    dsimp only
    split
    · split
      · exact .of_eq (Nat.le_refl _) rfl
      · exact (grows_refresh { s with presences := next }).after rfl rfl
    · exact .of_eq (Nat.le_refl _) rfl
  | forgetOffline item =>
    show Grows s (s.forgetOffline item)
    unfold forgetOffline
    split
    · exact .refl s
    · exact .of_eq (Nat.le_refl _) rfl
  | removeInteraction requestId => exact .of_eq (Nat.le_refl _) rfl
  | removeSubmittedInteraction instanceId requestId => exact .of_eq (Nat.le_refl _) rfl

theorem ordered_run (es : List PendingOp) : Ordered (run es) :=
  @runFrom_inv _ _ step Ordered (fun s op h => h.grows (grows_step s op)) .init ⟨.nil, nofun⟩ es

end

/-! ## One load -/

section
variable {s : PendingController}

theorem brings_eq_some {op : PendingOp} {b : Brought} : s.brings op = some b ↔ ∃ i load f, op = .settle i (some load) ∧
    s.fetches[i]? = some f ∧ f.waiting = true ∧ b = ⟨i, f.epoch, s.covered i load⟩ := by
  constructor
  · intro h
    unfold brings at h
    split at h
    · rename_i i load
      split at h
      · rename_i owner epoch session hf
        exact ⟨i, load, _, rfl, hf, rfl, (Option.some.inj h).symm⟩
      · cases h
    · cases h
  · rintro ⟨i, load, ⟨owner, epoch, session, waiting⟩, rfl, hf, rfl, rfl⟩
    unfold brings
    dsimp only
    rw [hf]

theorem resume_epoch (s : PendingController) (fetch : PendingFetch) (next : Option (List Loaded)) :
    (s.resume fetch next).epoch = s.epoch := by
  unfold resume
  split
  · dsimp only
    split <;> rfl
  · split
    · rfl
    · dsimp only
      split <;> rfl
  · split <;> rfl

/-- A flow of the present epoch shows its snapshot. -/
theorem resume_current {fetch : PendingFetch} (he : fetch.epoch = s.epoch) (ha : s.authenticated = true)
    (l : List Loaded) :
    (s.resume fetch (some l)).value = l := by
  have hgo : ¬ (fetch.epoch ≠ s.epoch ∨ s.authenticated = false) := by rw [he, ha]; simp
  unfold resume
  split
  · dsimp only
    rw [if_pos he]; rfl
  · rw [if_neg hgo]
    dsimp only
    split <;> rfl
  · rw [if_neg hgo]; rfl

variable {i : Nat} {f : PendingFetch} (hf : s.fetches[i]? = some f) (hw : f.waiting = true) (load : PendingSnapshotLoad)
include hf hw

theorem settle_epoch : (s.settle i (some load)).epoch = s.epoch := by
  obtain ⟨owner, epoch, session, waiting⟩ := f
  obtain rfl : waiting = true := hw
  unfold settle
  rw [hf]
  exact resume_epoch _ _ _

/-- The state shows the snapshot of a load of the present epoch. -/
theorem settle_value (ha : s.authenticated = true) : (s.settle i (some load)).value =
    if f.epoch = s.epoch then s.kept i load.interactions else s.value := by
  obtain ⟨owner, epoch, session, waiting⟩ := f
  obtain rfl : waiting = true := hw
  unfold settle
  rw [hf]
  dsimp only
  by_cases he : epoch = s.epoch
  · rw [if_pos he]
    exact resume_current (s := ({ s with fetches := _ } : PendingController).retain _ _) he ha _
  · rw [if_neg he]
    have hstale : (⟨owner, epoch, session, false⟩ : PendingFetch).epoch ≠ s.epoch := he
    exact resume_value
      (s := ({ s with fetches := s.fetches.set i ⟨owner, epoch, session, false⟩ } : PendingController).retain _ _)
      hstale _

/-- The instances it covers retain what the load has of them, whatever its epoch. -/
theorem settle_lastKnown (id : JsString) : (s.settle i (some load)).lastKnownByInstance.get id =
    if id ∈ s.covered i load then some ((s.kept i load.interactions).filter (·.item.instanceId = id))
    else s.lastKnownByInstance.get id := by
  obtain ⟨owner, epoch, session, waiting⟩ := f
  obtain rfl : waiting = true := hw
  unfold settle
  rw [hf]
  dsimp only
  rw [resume_lastKnown, retain, get_retain]
  rfl

end

/-! ## The ghosts -/

/-- What the ghosts say in every run of a session. -/
structure Tracks (t : LoadTrace) : Prop where
  authenticated : t.ctrl.authenticated = true
  ordered : Ordered t.ctrl
  filed : Filed t.ctrl
  truthful : Truthful t
  known : ∀ b ∈ t.brought, ∃ f : PendingFetch, t.ctrl.fetches[b.load]? = some f ∧ f.epoch = b.epoch
  shown : ∀ j, t.shown = some j → ∃ b ∈ t.brought, b.load = j
  retained : ∀ id j, t.retainedFrom id = some j → ∃ b ∈ t.brought, b.load = j ∧ id ∈ b.instances

/-- What they say as long as no load is replaced by an earlier one: what is there is the latest. -/
structure Latest (t : LoadTrace) : Prop where
  shown : ∀ b ∈ t.brought, b.epoch = t.ctrl.epoch → ∃ j, t.shown = some j ∧ b.load ≤ j
  retained : ∀ b ∈ t.brought, ∀ id ∈ b.instances, ∃ j, t.retainedFrom id = some j ∧ b.load ≤ j

section
variable {t : LoadTrace} {op : PendingOp}

theorem stepL_none (h : t.ctrl.brings op = none) : stepL t op = { t with ctrl := t.ctrl.step op } := by
  unfold stepL; rw [h]

theorem stepL_some {b : Brought} (h : t.ctrl.brings op = some b) : stepL t op =
    { ctrl := t.ctrl.step op
      shown := if b.epoch = t.ctrl.epoch then some b.load else t.shown
      retainedFrom := fun id => if id ∈ b.instances then some b.load else t.retainedFrom id
      brought := b :: t.brought } := by
  unfold stepL; rw [h]

/-- Without a snapshot nothing is added to the state or to an instance. -/
theorem truthful_none (ht : Tracks t) (h : t.ctrl.brings op = none) (hop : op ≠ .logout) :
    Truthful { t with ctrl := t.ctrl.step op } := by
  have hadds : Adds [] t.ctrl (t.ctrl.step op) := by
    rcases step_cases t.ctrl op with ha | rfl | ⟨i, load, f, rfl, hf, hw⟩
    · exact ha
    · exact absurd rfl hop
    · rw [brings_eq_some.mpr ⟨i, load, f, rfl, hf, hw, rfl⟩] at h; cases h
  refine ⟨fun j hj x hx => ?_, fun id j hj l hl x hx => ?_⟩
  · exact ht.truthful.state j hj x ((hadds.value x hx).resolve_right nofun)
  · -- what an instance retains it retained before
    obtain ⟨id', l', hl', hx'⟩ := (hadds.retained x ⟨id, l, hl, hx⟩).resolve_right nofun
    have hid : id' = id := (ht.filed id' l' hl' x hx').symm.trans (filed_step ht.filed op id l hl x hx)
    subst hid
    exact ht.truthful.retained id' j hj l' hl' x hx'

theorem tracks_step (ht : Tracks t) (hop : op ≠ .logout) : Tracks (stepL t op) := by
  have hauth : (t.ctrl.step op).authenticated = true := (stays_step t.ctrl hop ht.authenticated).1
  have hgrows := grows_step t.ctrl op
  have hknown : ∀ b ∈ t.brought, ∃ f : PendingFetch, (t.ctrl.step op).fetches[b.load]? = some f ∧
    f.epoch = b.epoch := by
    intro b hb
    obtain ⟨f, hf, he⟩ := ht.known b hb
    obtain ⟨f', hf', he'⟩ := hgrows.fetch hf
    exact ⟨f', hf', he'.trans he⟩
  cases hb : t.ctrl.brings op with
  | none =>
    rw [stepL_none hb]
    exact ⟨hauth, ht.ordered.grows hgrows, filed_step ht.filed op, truthful_none ht hb hop,
      hknown, ht.shown, ht.retained⟩
  | some b =>
    rw [stepL_some hb]
    obtain ⟨i, load, f, rfl, hf, hw, rfl⟩ := brings_eq_some.mp hb
    refine ⟨hauth, ht.ordered.grows hgrows, filed_step ht.filed _, ⟨?_, ?_⟩, ?_, ?_, ?_⟩
    · intro j hj x hx
      have hvalue : x ∈ (t.ctrl.settle i (some load)).value := hx
      rw [settle_value hf hw load ht.authenticated] at hvalue
      dsimp only at hj
      split at hj
      · rename_i he
        rw [if_pos he] at hvalue
        cases hj
        exact load_of_kept hvalue
      · rename_i he
        rw [if_neg he] at hvalue
        exact ht.truthful.state j hj x hvalue
    · intro id j hj l hl x hx
      have hget : (t.ctrl.settle i (some load)).lastKnownByInstance.get id = some l := hl
      rw [settle_lastKnown hf hw load id] at hget
      dsimp only at hj
      split at hj
      · rename_i hid
        rw [if_pos hid] at hget
        cases hj
        obtain rfl := Option.some.inj hget
        exact load_of_kept (List.mem_of_mem_filter hx)
      · rename_i hid
        rw [if_neg hid] at hget
        exact ht.truthful.retained id j hj l hget x hx
    · intro b' hb'
      rcases List.mem_cons.mp hb' with rfl | hb'
      · exact hgrows.fetch hf
      · exact hknown b' hb'
    · intro j hj
      dsimp only at hj
      split at hj
      · cases hj
        exact ⟨_, List.mem_cons_self, rfl⟩
      · obtain ⟨b', hb', he⟩ := ht.shown j hj
        exact ⟨b', List.mem_cons_of_mem _ hb', he⟩
    · intro id j hj
      dsimp only at hj
      split at hj
      · rename_i hid
        cases hj
        exact ⟨_, List.mem_cons_self, rfl, hid⟩
      · obtain ⟨b', hb', he, hid⟩ := ht.retained id j hj
        exact ⟨b', List.mem_cons_of_mem _ hb', he, hid⟩

/-- While what is there is the latest, a step goes forward exactly if its load is in order. -/
theorem forward_iff (ht : Tracks t) (hl : Latest t) : Forward t (stepL t op) ↔ InOrder t op := by
  cases hb : t.ctrl.brings op with
  | none =>
    rw [stepL_none hb]
    refine iff_of_true ⟨fun j i hj hi => ?_, fun id j i hj hi => ?_⟩ fun b hb' => by rw [hb] at hb'; cases hb'
    · exact Nat.le_of_eq (Option.some.inj (hj.symm.trans hi))
    · exact Nat.le_of_eq (Option.some.inj (hj.symm.trans hi))
  | some b =>
    rw [stepL_some hb]
    constructor
    · intro hfwd b₁ hb₁ b' hb' hlt
      obtain rfl := Option.some.inj (hb.symm.trans hb₁)
      constructor
      · rintro ⟨he, he'⟩
        obtain ⟨j, hj, hle⟩ := hl.shown b' hb' he'
        have := hfwd.state j b.load hj (if_pos he)
        omega
      · intro id hid hid'
        obtain ⟨j, hj, hle⟩ := hl.retained b' hb' id hid'
        have := hfwd.retained id j b.load hj (if_pos hid)
        omega
    · intro hin
      have hin := hin b hb
      refine ⟨fun j i hj hi => ?_, fun id j i hj hi => ?_⟩
      · dsimp only at hi
        split at hi
        · rename_i he
          obtain rfl := Option.some.inj hi
          by_contra hlt
          obtain ⟨b', hb', rfl⟩ := ht.shown j hj
          refine (hin b' hb' (by omega)).1 ⟨he, ?_⟩
          -- a later load began in the present epoch as well
          obtain ⟨i, load, f, rfl, hf, hw, rfl⟩ := brings_eq_some.mp hb
          obtain ⟨g, hg, hge⟩ := ht.known b' hb'
          have h1 := ht.ordered.le hf hg (Nat.lt_of_not_le hlt)
          have h2 := ht.ordered.le_epoch hg
          dsimp only at he
          omega
        · exact Nat.le_of_eq (Option.some.inj (hj.symm.trans hi))
      · dsimp only at hi
        split at hi
        · rename_i hid
          obtain rfl := Option.some.inj hi
          by_contra hlt
          obtain ⟨b', hb', rfl, hid'⟩ := ht.retained id j hj
          exact (hin b' hb' (by omega)).2 id hid hid'
        · exact Nat.le_of_eq (Option.some.inj (hj.symm.trans hi))

theorem latest_step (ht : Tracks t) (hl : Latest t) (hfwd : Forward t (stepL t op)) : Latest (stepL t op) := by
  have hepoch := (grows_step t.ctrl op).epoch
  -- what a load of the new epoch would have begun in is not later than the old one
  have hold : ∀ b ∈ t.brought, b.epoch = (t.ctrl.step op).epoch → b.epoch = t.ctrl.epoch := by
    intro b hb he
    obtain ⟨f, hf, hfe⟩ := ht.known b hb
    have := ht.ordered.le_epoch hf
    omega
  cases hb : t.ctrl.brings op with
  | none =>
    rw [stepL_none hb]
    exact ⟨fun b hb he => hl.shown b hb (hold b hb he), hl.retained⟩
  | some b =>
    rw [stepL_some hb] at hfwd ⊢
    constructor
    · intro b' hb' he'
      rcases List.mem_cons.mp hb' with rfl | hb'
      · obtain ⟨i, load, f, rfl, hf, hw, rfl⟩ := brings_eq_some.mp hb
        have he : f.epoch = t.ctrl.epoch := he'.trans (settle_epoch hf hw load)
        exact ⟨i, if_pos he, Nat.le_refl _⟩
      · obtain ⟨j, hj, hle⟩ := hl.shown b' hb' (hold b' hb' he')
        by_cases he : b.epoch = t.ctrl.epoch
        · have := hfwd.state j b.load hj (if_pos he)
          exact ⟨b.load, if_pos he, by omega⟩
        · exact ⟨j, (if_neg he).trans hj, hle⟩
    · intro b' hb' id hid'
      rcases List.mem_cons.mp hb' with rfl | hb'
      · exact ⟨b'.load, if_pos hid', Nat.le_refl _⟩
      · obtain ⟨j, hj, hle⟩ := hl.retained b' hb' id hid'
        by_cases hid : id ∈ b.instances
        · have := hfwd.retained id j b.load hj (if_pos hid)
          exact ⟨b.load, if_pos hid, by omega⟩
        · exact ⟨j, (if_neg hid).trans hj, hle⟩

end

/-! ## Over a session -/

theorem tracks_start (before : List PendingOp) : Tracks (sessionStart before) := by
  have hauth : (run (before ++ [.login])).authenticated = true := by
    rw [run, runFrom_append]
    exact (stays_build { runFrom step .init before with authenticated := true } rfl).1
  exact ⟨hauth, ordered_run _, filed_run _, ⟨(by rintro _ ⟨⟩), (by rintro _ _ ⟨⟩)⟩, (by rintro _ ⟨⟩),
    (by rintro _ ⟨⟩), (by rintro _ _ ⟨⟩)⟩

/-- Within a session, no snapshot of an earlier load replaces one of a later load exactly if
    each load that settles after a later one has neither its build nor an instance in common. -/
theorem later_loads_stay_iff (before es : List PendingOp) (hes : .logout ∉ es) :
    (∀ pre post, es = pre ++ post → Truthful (runFrom stepL (sessionStart before) pre)) ∧
    (Along stepL (fun t op => Forward t (stepL t op)) (sessionStart before) es ↔
      Along stepL InOrder (sessionStart before) es) := by
  have hne : ∀ op ∈ es, op ≠ .logout := fun op hop he => hes (he ▸ hop)
  constructor
  · intro pre post hsplit
    have htracks : ∀ (ops : List PendingOp) (t : LoadTrace), (∀ op ∈ ops, op ≠ .logout) → Tracks t →
        Tracks (runFrom stepL t ops) := by
      intro ops
      induction ops with
      | nil => exact fun t _ ht => ht
      | cons op ops ih =>
        intro t hops ht
        exact ih _ (fun o ho => hops o (List.mem_cons_of_mem _ ho)) (tracks_step ht (hops op List.mem_cons_self))
    exact (htracks pre _ (fun op hop => hne op (hsplit ▸ List.mem_append_left _ hop)) (tracks_start before)).truthful
  · exact along_congr (I := fun t => Tracks t ∧ Latest t) (E := (· ≠ .logout)) (fun t op h _ => forward_iff h.1 h.2)
      (fun t op h hop hfwd => ⟨tracks_step h.1 hop, latest_step h.1 h.2 hfwd⟩) hne ⟨tracks_start before, nofun, nofun⟩

def laterInteraction : PendingInteraction := ⟨js "inst-a", js "request-2", 6⟩

/-- Two refreshes one after the other, and a reconcile that settles before the next load. -/
def oneAfterTheOther : List PendingOp :=
  [.settle 0 (some ⟨[sampleInteraction], none⟩), .reconcile, .settle 1 (some ⟨[laterInteraction], none⟩), .refresh,
    .settle 2 (some ⟨[], some [js "inst-a"]⟩)]

theorem loads_one_after_the_other :
    Along stepL (fun t op => Forward t (stepL t op)) (sessionStart []) oneAfterTheOther :=
  (later_loads_stay_iff [] oneAfterTheOther (by simp [oneAfterTheOther])).2.mpr (by decide +kernel)

/-- Two answers that were not accepted reconcile at once; the load of the first settles last. -/
def reconciledTwice : List PendingOp :=
  [.settle 0 (some ⟨[], none⟩), .reconcile, .reconcile, .settle 2 (some ⟨[laterInteraction], none⟩),
    .settle 1 (some ⟨[sampleInteraction, laterInteraction], none⟩)]

/-- The state and the retention show the second load's snapshot, and then the first's. -/
theorem earlier_load_replaces_later :
    ¬ Along stepL (fun t op => Forward t (stepL t op)) (sessionStart []) reconciledTwice ∧
    (run (.login :: reconciledTwice.take 4)).value = [⟨laterInteraction, 2⟩] ∧
    (run (.login :: reconciledTwice)).value = [⟨sampleInteraction, 1⟩, ⟨laterInteraction, 1⟩] ∧
    (run (.login :: reconciledTwice)).lastKnownByInstance.get (js "inst-a") =
      some [⟨sampleInteraction, 1⟩, ⟨laterInteraction, 1⟩] := by
  refine ⟨fun h => ?_, by decide +kernel, by decide +kernel, by decide +kernel⟩
  have hlast := along_iff.mp h (reconciledTwice.take 4)
    (.settle 1 (some ⟨[sampleInteraction, laterInteraction], none⟩)) [] rfl
  have := hlast.state 2 1 (by decide +kernel) (by decide +kernel)
  omega

end PendingController

end NotifyHub.Client
