/-
  NotifyHub.Client.Submissions — an accepted answer does not come back.

  An accepted answer or decision is one `removeSubmittedInteraction`: its key is kept,
  and the pair leaves the state and the retention. Each load is filtered by the keys at
  the moment it settles, whenever it began.

  Proved (`accepted_is_gone`): after one that is accepted while there is a login, the
  pair is in no state, retention or offline list before the next logout, in any run.
  Without a login a build drops the keys again: one that is accepted after the logout
  comes back after the next login (`accepted_after_logout`).
-/

import NotifyHub.Client.PendingController

namespace NotifyHub.Client

/-- The interaction of this instance with this request. -/
def Loaded.IsPair (x : Loaded) (instanceId requestId : JsString) : Prop :=
  x.item.instanceId = instanceId ∧ x.item.requestId = requestId

namespace PendingController

/-- The pair is neither shown nor retained nor listed as offline. -/
structure Gone (s : PendingController) (instanceId requestId : JsString) : Prop where
  state : ∀ x ∈ s.value, ¬ x.IsPair instanceId requestId
  retained : ∀ x, s.Retained x → ¬ x.IsPair instanceId requestId
  offline : ∀ o ∈ s.offlineLastKnown, ¬ o.1.IsPair instanceId requestId

/-- With a login, and the key kept. -/
structure Suppressed (s : PendingController) (instanceId requestId : JsString) : Prop where
  authenticated : s.authenticated = true
  key : interactionKey instanceId requestId ∈ s.submittedInteractionKeys
  gone : s.Gone instanceId requestId

/-- Each instance retains its own interactions. -/
def Filed (s : PendingController) : Prop :=
  ∀ id l, s.lastKnownByInstance.get id = some l → ∀ x ∈ l, x.item.instanceId = id

section
variable {s s' s'' : PendingController} {instanceId requestId : JsString}

theorem gone_of (hv : ∀ x ∈ s.value, ¬ x.IsPair instanceId requestId)
    (hr : ∀ x, s.Retained x → ¬ x.IsPair instanceId requestId) : s.Gone instanceId requestId := by
  refine ⟨hv, hr, fun o ho => ?_⟩
  rcases mem_offline ho with ho | ho
  · exact hv _ ho
  · exact hr _ ho

/-! ## Within a login -/

/-- The login goes on and no key is dropped. -/
def Stays (s s' : PendingController) : Prop :=
  s.authenticated = true → s'.authenticated = true ∧ s.submittedInteractionKeys ⊆ s'.submittedInteractionKeys

theorem Stays.refl (s : PendingController) : Stays s s := fun h => ⟨h, List.Subset.refl _⟩

theorem Stays.trans (h : Stays s s') (h' : Stays s' s'') : Stays s s'' := fun ha =>
  have ⟨ha', hsub⟩ := h ha
  have ⟨ha'', hsub'⟩ := h' ha'
  ⟨ha'', List.Subset.trans hsub hsub'⟩

theorem Stays.of_eq (ha : s'.authenticated = s.authenticated)
    (hk : s'.submittedInteractionKeys = s.submittedInteractionKeys) :
    Stays s s' := fun h => ⟨ha.trans h, hk ▸ List.Subset.refl _⟩

theorem stays_build (s : PendingController) : Stays s s.build := by
  intro h
  unfold build
  dsimp only
  rw [if_pos h]
  exact ⟨h, List.Subset.refl _⟩

theorem stays_runRefreshLoop (s : PendingController) : Stays s s.runRefreshLoop := by
  intro h
  unfold runRefreshLoop
  rw [if_pos h]
  exact ⟨h, List.Subset.refl _⟩

theorem stays_refresh (s : PendingController) : Stays s s.refresh := by
  unfold refresh
  split
  · exact .of_eq rfl rfl
  · exact Stays.trans (.of_eq rfl rfl) (stays_runRefreshLoop { s with activeRefresh := true })

theorem stays_refreshEnded (s : PendingController) : Stays s s.refreshEnded := by
  unfold refreshEnded
  split
  · dsimp only
    split
    · exact Stays.trans (.of_eq rfl rfl) (stays_refresh { s with activeRefresh := false, refreshOver := false })
    · exact .of_eq rfl rfl
  · exact .refl s

theorem stays_reconcile (s : PendingController) : Stays s s.reconcile := by
  intro h
  unfold reconcile
  split
  · exact ⟨h, List.Subset.refl _⟩
  · exact ⟨h, List.Subset.refl _⟩

theorem stays_resume (s : PendingController) (fetch : PendingFetch) (next : Option (List Loaded)) :
    Stays s (s.resume fetch next) := by
  unfold resume
  split
  · dsimp only
    split <;> exact .of_eq rfl rfl
  · split
    · exact .of_eq rfl rfl
    · dsimp only
      split <;> exact .of_eq rfl rfl
  · split
    · exact .refl s
    · exact .of_eq rfl rfl

theorem stays_settle (s : PendingController) (i : Nat) (result : Option PendingSnapshotLoad) :
    Stays s (s.settle i result) := by
  unfold settle
  split
  · dsimp only
    split
    · refine Stays.trans ?_ (stays_resume _ _ _)
      exact .of_eq rfl rfl
    · refine Stays.trans ?_ (stays_resume _ _ _)
      exact .of_eq rfl rfl
  · exact .refl s

theorem stays_presencesChanged (s : PendingController) (next : OMap JsString InstancePresence) :
    Stays s (s.presencesChanged next) := by
  unfold presencesChanged
  dsimp only
  split
  · split
    · exact .of_eq rfl rfl
    · exact Stays.trans (.of_eq rfl rfl) (stays_refresh { s with presences := next })
  · exact .of_eq rfl rfl

/-- But for a logout, a step with a login keeps it, with the keys. -/
theorem stays_step (s : PendingController) {op : PendingOp} (h : op ≠ .logout) : Stays s (s.step op) := by
  cases op with
  | login => exact fun hs => stays_build { s with authenticated := true } rfl
  | logout => exact absurd rfl h
  | rebuild => exact stays_build s
  | refresh => exact stays_refresh s
  | refreshEnded => exact stays_refreshEnded s
  | reconcile => exact stays_reconcile s
  | settle i result => exact stays_settle s i result
  | presences next => exact stays_presencesChanged s next
  | forgetOffline item =>
    show Stays s (s.forgetOffline item)
    unfold forgetOffline
    split
    · exact .refl s
    · exact .of_eq rfl rfl
  | removeInteraction requestId => exact .of_eq rfl rfl
  | removeSubmittedInteraction instanceId requestId => exact fun hs => ⟨hs, List.subset_cons_self _ _⟩

/-! ## What a step brings -/

/-- A fetch keeps nothing that was submitted. -/
theorem not_pair_of_kept (hk : interactionKey instanceId requestId ∈ s.submittedInteractionKeys) {i : Nat}
    {interactions : List PendingInteraction} {x : Loaded} (hx : x ∈ s.kept i interactions) :
    ¬ x.IsPair instanceId requestId := by
  rintro ⟨rfl, rfl⟩
  unfold kept at hx
  rw [List.mem_insertionSort] at hx
  obtain ⟨item, hitem, rfl⟩ := List.mem_map.mp hx
  have hshown := (List.mem_filter.mp hitem).2
  rw [Bool.and_eq_true, Bool.not_eq_true'] at hshown
  have hno : interactionKey item.instanceId item.requestId ∉ s.submittedInteractionKeys := by simpa using hshown.1
  exact hno hk

theorem Gone.adds (h : s.Gone instanceId requestId) {new : List Loaded} (ha : Adds new s s')
    (hnew : ∀ x ∈ new, ¬ x.IsPair instanceId requestId) : s'.Gone instanceId requestId := by
  refine gone_of (fun x hx => ?_) fun x hx => ?_
  · rcases ha.value x hx with hx | hx
    · exact h.state x hx
    · exact hnew x hx
  · rcases ha.retained x hx with hx | hx
    · exact h.retained x hx
    · exact hnew x hx

theorem suppressed_step (h : s.Suppressed instanceId requestId) {op : PendingOp} (hop : op ≠ .logout) :
    (s.step op).Suppressed instanceId requestId := by
  obtain ⟨ha, hsub⟩ := stays_step s hop h.authenticated
  refine ⟨ha, hsub h.key, ?_⟩
  rcases step_cases s op with hadds | rfl | ⟨i, load, f, rfl, hf, hw⟩
  · exact h.gone.adds hadds nofun
  · exact absurd rfl hop
  · exact h.gone.adds (settle_some hf hw load).1 fun x hx => not_pair_of_kept h.key hx

/-! ## Where interactions are filed -/

theorem filed_set {id : JsString} {l : List Loaded} (h : Filed s) (hl : ∀ x ∈ l, x.item.instanceId = id)
    (hs : s'.lastKnownByInstance = s.lastKnownByInstance.set id l) : Filed s' := by
  intro id' l' hget x hx
  rw [hs, OMap.get_set] at hget
  split at hget
  · rename_i he
    obtain rfl := Option.some.inj hget
    exact (hl x hx).trans he.symm
  · exact h id' l' hget x hx

theorem filed_filter {id : JsString} (h : Filed s) (p : Loaded → Bool) :
    ∀ x ∈ ((s.lastKnownByInstance.get id).getD []).filter p, x.item.instanceId = id := by
  intro x hx
  have hx := List.mem_of_mem_filter hx
  cases hl : s.lastKnownByInstance.get id with
  | none => rw [hl] at hx; cases hx
  | some l => rw [hl] at hx; exact h id l hl x hx

/-- What an operation leaves of the retention: what there was, or nothing. -/
theorem lastKnown_fetch_flow :
    (s.build.lastKnownByInstance = s.lastKnownByInstance ∨ s.build.lastKnownByInstance = .empty) ∧
    (s.refresh.lastKnownByInstance = s.lastKnownByInstance ∨ s.refresh.lastKnownByInstance = .empty) ∧
    (s.reconcile.lastKnownByInstance = s.lastKnownByInstance ∨ s.reconcile.lastKnownByInstance = .empty) := by
  refine ⟨?_, ?_, ?_⟩
  · unfold build
    dsimp only
    split
    · exact Or.inl rfl
    · exact Or.inr rfl
  · unfold refresh runRefreshLoop
    split
    · exact Or.inl rfl
    · split
      · exact Or.inl rfl
      · exact Or.inr rfl
  · unfold reconcile
    split
    · exact Or.inl rfl
    · split
      · exact Or.inl rfl
      · exact Or.inr rfl

theorem filed_of (h : Filed s) (hs : s'.lastKnownByInstance = s.lastKnownByInstance ∨ s'.lastKnownByInstance = .empty) :
    Filed s' := by
  intro id l hget
  rcases hs with hs | hs
  · exact h id l (hs ▸ hget)
  · rw [hs] at hget; cases hget

theorem filed_settle (h : Filed s) (i : Nat) (result : Option PendingSnapshotLoad) : Filed (s.settle i result) := by
  unfold settle
  split
  · dsimp only
    split
    · exact filed_of h (Or.inl (resume_lastKnown _ _ _))
    · intro id l hget x hx
      rw [resume_lastKnown, retain, get_retain] at hget
      split at hget
      · obtain rfl := Option.some.inj hget
        exact of_decide_eq_true (List.mem_filter.mp hx).2
      · exact h id l hget x hx
  · exact h

theorem filed_step (h : Filed s) (op : PendingOp) : Filed (s.step op) := by
  cases op with
  | login => exact filed_of (s := { s with authenticated := true }) h lastKnown_fetch_flow.1
  | logout => exact filed_of (s := { s with authenticated := false, session := s.session + 1 }) h lastKnown_fetch_flow.1
  | rebuild => exact filed_of h lastKnown_fetch_flow.1
  | refresh => exact filed_of h lastKnown_fetch_flow.2.1
  | refreshEnded =>
    show Filed s.refreshEnded
    unfold refreshEnded
    split
    · dsimp only
      split
      · exact filed_of (s := { s with activeRefresh := false, refreshOver := false }) h lastKnown_fetch_flow.2.1
      · exact h
    · exact h
  | reconcile => exact filed_of h lastKnown_fetch_flow.2.2
  | settle i result => exact filed_settle h i result
  | presences next =>
    show Filed (s.presencesChanged next)
    unfold presencesChanged
    dsimp only
    split
    · split
      · exact h
      · exact filed_of (s := { s with presences := next }) h lastKnown_fetch_flow.2.1
    · exact h
  | forgetOffline item =>
    show Filed (s.forgetOffline item)
    unfold forgetOffline
    split
    · exact h
    · exact filed_set h (filed_filter h _) rfl
  | removeInteraction requestId => exact h
  | removeSubmittedInteraction instanceId requestId => exact filed_set h (filed_filter h _) rfl

/-- An accepted answer takes the pair out everywhere. -/
theorem suppressed_accepted (hf : Filed s) (ha : s.authenticated = true) (instanceId requestId : JsString) :
    (s.removeSubmittedInteraction instanceId requestId).Suppressed instanceId requestId := by
  refine ⟨ha, List.mem_cons_self, gone_of (fun x hx hpair => ?_) fun x hx hpair => ?_⟩
  · have hne := of_decide_eq_true (List.mem_filter.mp hx).2
    exact hne.elim (· hpair.1) (· hpair.2)
  · obtain ⟨id, l, hget, hx⟩ := hx
    rw [removeSubmittedInteraction, OMap.get_set] at hget
    split at hget
    · obtain rfl := Option.some.inj hget
      exact of_decide_eq_true (List.mem_filter.mp hx).2 hpair.2
    · rename_i hne
      exact hne ((hf id l hget x hx).symm.trans hpair.1)

end

/-! ## Over runs -/

theorem filed_run (es : List PendingOp) : Filed (run es) :=
  @runFrom_inv _ _ step Filed (fun _ op h => filed_step h op) .init nofun es

/-- A pair accepted with a login is gone in every state before the next logout. -/
theorem accepted_is_gone (before : List PendingOp) (instanceId requestId : JsString) (after : List PendingOp)
    (ha : (run before).authenticated = true) (hl : .logout ∉ after) :
    (run (before ++ .removeSubmittedInteraction instanceId requestId :: after)).Gone instanceId requestId := by
  rw [run, runFrom_append, runFrom_cons]
  have hstart := suppressed_accepted (filed_run before) ha instanceId requestId
  have hrun : ∀ (ops : List PendingOp) (s : PendingController), .logout ∉ ops → s.Suppressed instanceId requestId →
      (runFrom step s ops).Suppressed instanceId requestId := by
    intro ops
    induction ops with
    | nil => exact fun s _ hs => hs
    | cons op ops ih =>
      intro s hno hs
      rw [List.mem_cons, not_or] at hno
      exact ih _ hno.2 (suppressed_step hs (Ne.symm hno.1))
  exact (hrun after _ hl hstart).gone

/-- A load that began before the answer was accepted settles after it, and a second one still lists the pair. -/
theorem stale_snapshots_filtered :
    (run ([.login, .settle 0 (some ⟨[sampleInteraction], none⟩), .refresh] ++
      .removeSubmittedInteraction (js "inst-a") (js "request-1") ::
        [.settle 1 (some ⟨[sampleInteraction], none⟩), .refreshEnded, .refresh,
          .settle 2 (some ⟨[sampleInteraction], none⟩)])).Gone
      (js "inst-a") (js "request-1") :=
  accepted_is_gone _ _ _ _ (by decide +kernel) (by simp)

/-- An answer out at the logout is accepted after it; the controller is built again before the next login. -/
def acceptedLate : List PendingOp :=
  [.login, .settle 0 (some ⟨[sampleInteraction], none⟩), .logout,
    .removeSubmittedInteraction (js "inst-a") (js "request-1"),
    .rebuild, .login, .settle 1 (some ⟨[sampleInteraction], none⟩)]

theorem accepted_after_logout : ∃ before after, acceptedLate =
      before ++ .removeSubmittedInteraction (js "inst-a") (js "request-1") :: after ∧ .logout ∉ after ∧
    ¬ (run acceptedLate).Gone (js "inst-a") (js "request-1") := by
  refine ⟨acceptedLate.take 3, acceptedLate.drop 4, rfl, by simp [acceptedLate], fun h => ?_⟩
  have hshown : (⟨sampleInteraction, 1⟩ : Loaded) ∈ (run acceptedLate).value := by decide +kernel
  exact h.state _ hshown ⟨rfl, rfl⟩

end PendingController

end NotifyHub.Client
