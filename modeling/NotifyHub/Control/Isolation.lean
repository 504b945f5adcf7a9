/-
  NotifyHub.Control.Isolation — what one user sees does not depend on the others.

  Every operation of a user keeps `Twin` (Control/Tenants): it reads and writes that
  user's part alone, in step with any other registry that has the same part. So the
  part of `u` after a run is that after the run of `u`'s own events (`run_own`), and two
  runs with the same events of `u` show `u` the same (`tenants_isolated`).

  The ids an operation draws are among its arguments, so runs with the same events of
  `u` draw the same ids for `u`. That a drawn id is not in use (`Fresh`) is what
  `randomUUID` promises: the maps of tunnels and of catalog requests have nothing but
  the drawn id as their key.
-/

import NotifyHub.Control.Ownership
import NotifyHub.Control.Tenants

namespace NotifyHub.Control

variable {D : Deps}

/-! ## Disconnecting -/

theorem bySequence_filter {s : Registry} (h : Sound s) (p : InstanceRecord → Bool) :
    bySequence (s.records.values.filter p) = s.records.values.filter p := by
  have hlt : s.records.values.Pairwise (·.sequence < ·.sequence) := List.pairwise_map.mp h.filed.ranked
  exact ((hlt.sublist List.filter_sublist).imp Nat.le_of_lt).insertionSort_eq

namespace Twin

variable {u : UserId} {z s t : Registry}

theorem snapshot (h : Twin u z s t) : snapshot t u = snapshot s u := by
  have hopen : ∀ r : InstanceRecord, (∀ c, r.connection = some c → c.user = u) →
    connectionOpen t r = connectionOpen s r := by
    intro r hr
    unfold connectionOpen
    cases hc : r.connection with
    | none => rfl
    | some c => dsimp only; rw [h.own.socket (hr c hc)]
  have hrecords := h.filterRecords
    (p := fun r => r.userId = u ∧ r.state ≠ .offline ∧ connectionOpen s r = true)
    (q := fun r => r.userId = u ∧ r.state ≠ .offline ∧ connectionOpen t r = true)
    (fun r hr => (of_decide_eq_true hr).1) (fun r hr => (of_decide_eq_true hr).1) (fun _ _ => rfl) (fun _ _ => rfl)
    fun r _ hc => by rw [hopen r hc]
  have hpresence := congrArg (List.map toPresence) hrecords
  rw [List.map_map, List.map_map] at hpresence
  unfold Control.snapshot
  rw [bySequence_filter h.left, bySequence_filter h.right]
  exact hpresence.symm

theorem publish (h : Twin u z s t) : Twin u z (publishSnapshot s u) (publishSnapshot t u) := by
  unfold publishSnapshot
  rw [h.snapshot]
  exact h.log fun v hv => (Option.some.inj hv).symm

theorem rivals (h : Twin u z s t) (key : JsString) : (rivals D s key u).map InstanceRecord.unranked =
    (rivals D t key u).map InstanceRecord.unranked := by
  unfold Control.rivals
  rw [bySequence_filter h.left, bySequence_filter h.right]
  exact h.filterRecords (fun r hr => (of_decide_eq_true hr).1) (fun r hr => (of_decide_eq_true hr).1) (fun _ _ => rfl)
    (fun _ _ => rfl) fun _ _ _ => rfl

theorem terminate (h : Twin u z s t) {c : ConnId} (hc : c.user = u) : Twin u z (s.terminate c) (t.terminate c) :=
  (h.shut hc).log fun _ hv => (Option.some.inj hv).symm.trans hc

theorem closeSocket (h : Twin u z s t) {c : ConnId} (hc : c.user = u) (code : Nat) (reason : String) :
    Twin u z (s.closeSocket c code reason) (t.closeSocket c code reason) :=
  (h.shut hc).log fun _ hv => (Option.some.inj hv).symm.trans hc

theorem sendWith {f : Registry → ConnId → Registry} {c : ConnId} (h : Twin u z s t) (hc : c.user = u)
    (hf : Twin u z (f s c) (f t c)) (m : ServerMessage) : Twin u z (sendWith f s c m) (sendWith f t c m) := by
  unfold Control.sendWith
  rw [h.own.socket hc]
  dsimp only
  split
  · exact hf.terminate hc
  · split
    · exact hf
    · exact h.log fun _ hv => (Option.some.inj hv).symm.trans hc

theorem promoteWith {f : Registry → ConnId → Registry} (h : Twin u z s t) (registration : RegisterMessage)
    (hf : ∀ s' t' c, s'.connections = s.connections → c.user = u → Twin u z s' t' → Twin u z (f s' c) (f t' c)) :
    Twin u z (promoteWith D f s (ownershipKey D u registration) u)
      (promoteWith D f t (ownershipKey D u registration) u) := by
  have hrivals := h.rivals (D := D) (ownershipKey D u registration)
  unfold Control.promoteWith
  cases hs : Control.rivals D s (ownershipKey D u registration) u with
  | nil =>
    rw [hs] at hrivals
    rw [List.map_eq_nil_iff.mp hrivals.symm]
    exact h
  | cons r rs =>
    cases ht : Control.rivals D t (ownershipKey D u registration) u with
    | nil => rw [hs, ht] at hrivals; cases hrivals
    | cons r' rs' =>
      rw [hs, ht] at hrivals
      obtain ⟨n, rfl⟩ := unranked_eq.mp (List.cons.inj hrivals).1
      obtain ⟨⟨k, hk⟩, hu, -⟩ := mem_rivals.mp (hs ▸ List.mem_cons_self : r ∈ Control.rivals D s _ u)
      obtain ⟨⟨k', hk'⟩, -⟩ := mem_rivals.mp (ht ▸ List.mem_cons_self : _ ∈ Control.rivals D t _ u)
      have hcrown : Twin u z (crown s (ownershipKey D u registration) r)
          (crown t (ownershipKey D u registration) { r with sequence := n }) := by
        refine Twin.lock ?_ registration r.registration.instanceId
        have hput := h.put (x := { r with state := .controllable, lastSeenAt := s.nowMs })
          hk hk' hu rfl rfl rfl fun _ hc => hc
        rw [show t.nowMs = s.nowMs from h.own.nowMs.symm]
        exact hput
      dsimp only
      cases hc : r.connection with
      | none => rw [hc] at hcrown; exact hcrown
      | some c =>
        rw [hc] at hcrown
        have hcu := (h.left.filed.seated k r c hk hc).1.trans hu
        exact hcrown.sendWith hcu (hf _ _ c rfl hcu hcrown) _

theorem retire (h : Twin u z s t) {k k' : JsString} {r : InstanceRecord} {n : Nat} (hs : s.records.get k = some r)
    (ht : t.records.get k' = some { r with sequence := n }) (hr : r.userId = u) :
    Twin u z (retire s r) (retire t { r with sequence := n }) := by
  have hput := h.put (x := { r with connection := none, state := .offline, lastSeenAt := s.nowMs })
    hs ht hr rfl rfl rfl nofun
  unfold Control.retire
  rw [show t.nowMs = s.nowMs from h.own.nowMs.symm]
  exact hput

theorem disconnect (h : Twin u z s t) {c : ConnId} (hc : c.user = u) :
    Twin u z (disconnect D s c) (disconnect D t c) := by
  refine disconnect_rule (D := D)
    (R := fun s c s' => ∀ t, c.user = u → Twin u z s t → Twin u z s' (Control.disconnect D t c))
    ?_ ?_ s c t hc h
  · intro s c hgone t hc h
    rw [disconnect_of_not_mem fun hn => hgone ((h.own.mem_connections hc).mp hn)]
    exact h
  · intro s c hmem ih t hc h
    rw [disconnect_of_mem ((h.own.mem_connections hc).mpr hmem)]
    have hleave := h.leave hc
    unfold disconnectBody
    rcases hleave.recordOn hc with ⟨hs, ht⟩ | ⟨r, n, hr, hs, ht⟩ <;> rw [hs, ht]
    · exact hleave
    · obtain ⟨id, -, hk, -⟩ := recordOn_eq_some.mp hs
      obtain ⟨id', -, hk', -⟩ := recordOn_eq_some.mp ht
      have hretire := hleave.retire hk hk' hr
      dsimp only
      rw [hr] at hretire ⊢
      rw [h.own.owner]
      split
      · refine publish ?_
        exact (hretire.disown r.registration).promoteWith r.registration fun s' t' d hd hdu hst => ih s' d hd t' hdu hst
      · exact hretire.publish

theorem send (h : Twin u z s t) {c : ConnId} (hc : c.user = u) (m : ServerMessage) :
    Twin u z (send D s c m) (send D t c m) := h.sendWith hc (h.disconnect hc) m

/-! ## Registering -/

theorem prune (h : Twin u z s t) (key exceptInstanceId : JsString) :
    Twin u z (pruneOfflineOwnership D s u key exceptInstanceId) (pruneOfflineOwnership D t u key exceptInstanceId) :=
  h.dropRecords (fun _ _ _ => rfl) fun _ r _ hr => by simp [hr]

theorem prune_keeps {s : Registry} (hs : Sound s) (key id : JsString) :
    (pruneOfflineOwnership D s u key id).records.get (recordKey u id) = s.records.get (recordKey u id) := by
  rw [pruneOfflineOwnership, OMap.get_filter]
  cases hr : s.records.get (recordKey u id) with
  | none => rfl
  | some r => simp [(hs.filed.user hr).2]

theorem place_of_existing {records : OMap JsString InstanceRecord} {next : Nat} {existing : Option InstanceRecord}
    {r : InstanceRecord} (h : existing.map (·.sequence) =
      (records.get (recordKey r.userId r.registration.instanceId)).map (·.sequence))
    (hr : r.sequence = (existing.map (·.sequence)).getD next) :
    Placed records next r (if existing.isSome then next else next + 1) := by
  cases hg : records.get (recordKey r.userId r.registration.instanceId) with
  | none =>
    rw [hg] at h
    have hnone : existing = none := Option.map_eq_none_iff.mp h
    subst hnone
    exact Or.inr ⟨hg, hr, rfl⟩
  | some y =>
    rw [hg] at h
    obtain ⟨e, rfl, he⟩ := Option.map_eq_some_iff.mp h
    exact Or.inl ⟨y, hg, hr.trans he, rfl⟩

/-- `existing` has the place of the record that is there. -/
theorem enroll {c : ConnId} (h : Twin u z s t) (hc : c.user = u) (ha : (s.conns c).added = true)
    (registration : RegisterMessage)
    {existing existing' : Option InstanceRecord}
    (hs : existing.map (·.sequence) = (s.records.get (recordKey u registration.instanceId)).map (·.sequence))
    (ht : existing'.map (·.sequence) = (t.records.get (recordKey u registration.instanceId)).map (·.sequence)) :
    Twin u z (enroll D s c registration existing) (enroll D t c registration existing') := by
  subst hc
  have hconn := h.conn (c := c) rfl (fun x => { x with instanceId := some registration.instanceId }) (fun _ => rfl)
    (fun _ => rfl) fun x y hxy => by
      obtain ⟨ha, hs, hl, -⟩ := Agree.bare_iff.mp hxy
      exact Agree.bare_iff.mpr ⟨ha, hs, hl, rfl⟩
  have hs' := hs.trans (congrArg (Option.map (·.sequence))
    (prune_keeps (D := D) hconn.left (ownershipKey D c.user registration) registration.instanceId).symm)
  have ht' := ht.trans (congrArg (Option.map (·.sequence))
    (prune_keeps (D := D) hconn.right (ownershipKey D c.user registration) registration.instanceId).symm)
  have hprune := hconn.prune (D := D) (ownershipKey D c.user registration) registration.instanceId
  have hadded : ((s.setConn c { s.conns c with instanceId := some registration.instanceId }).conns c).added = true := by
    simp [Registry.setConn, ha]
  unfold Control.enroll
  dsimp only
  rw [show (pruneOfflineOwnership D (t.setConn c _) c.user _ registration.instanceId).ownership = t.ownership from rfl,
    show (pruneOfflineOwnership D (s.setConn c _) c.user _ registration.instanceId).ownership = s.ownership from rfl,
    h.own.owner]
  generalize registrationState (s.ownership.get (ownershipKey D c.user registration)) registration = state
  have hlock : Twin c.user z
      { pruneOfflineOwnership D (s.setConn c { s.conns c with instanceId := some registration.instanceId }) c.user
          (ownershipKey D c.user registration) registration.instanceId
        with
        ownership :=
          if state = .controllable then s.ownership.set (ownershipKey D c.user registration) registration.instanceId
            else s.ownership }
      { pruneOfflineOwnership D (t.setConn c { t.conns c with instanceId := some registration.instanceId }) c.user
          (ownershipKey D c.user registration) registration.instanceId
        with
        ownership :=
          if state = .controllable then t.ownership.set (ownershipKey D c.user registration) registration.instanceId
            else t.ownership } := by
    split
    · exact hprune.lock registration registration.instanceId
    · exact hprune
  have hnow : t.nowMs = s.nowMs := h.own.nowMs.symm
  exact hlock.file
    (r := ⟨registration, c.user, (existing.map (·.sequence)).getD s.nextSequence, state,
      s.nowMs, some c, .empty, .empty⟩)
    (x := ⟨registration, c.user, (existing'.map (·.sequence)).getD t.nextSequence, state,
      t.nowMs, some c, .empty, .empty⟩)
    (by rw [hnow]; rfl) rfl (fun d hd => by cases hd; exact ⟨rfl, hadded⟩) (place_of_existing hs' rfl)
    (place_of_existing ht' rfl)

theorem completeRegistration {c : ConnId} (h : Twin u z s t) (hc : c.user = u) (ha : (s.conns c).added = true)
    (registration : RegisterMessage) {existing existing' : Option InstanceRecord}
    (hs : existing.map (·.sequence) = (s.records.get (recordKey u registration.instanceId)).map (·.sequence))
    (ht : existing'.map (·.sequence) = (t.records.get (recordKey u registration.instanceId)).map (·.sequence)) :
    Twin u z (completeRegistration D s c registration existing)
      (completeRegistration D t c registration existing') := by
  have henroll := h.enroll (D := D) hc ha registration hs ht
  subst hc
  unfold Control.completeRegistration
  dsimp only
  rw [h.own.owner]
  exact (henroll.send rfl _).publish

/-- A disconnect leaves every record its sequence. -/
theorem disconnect_sequence {s : Registry} (hs : Sound s) (c : ConnId) (k : JsString) :
    (s.records.get k).map (·.sequence) = ((Control.disconnect D s c).records.get k).map (·.sequence) := by
  have hlast := disconnect_lasting (D := D) hs.filed.keyed c
  cases hk : (Control.disconnect D s c).records.get k with
  | none =>
    cases hk' : s.records.get k with
    | none => rfl
    | some r =>
      obtain ⟨r', hr'⟩ := hlast.forth k r hk'
      rw [hk] at hr'; cases hr'
  | some r' =>
    obtain ⟨r, hr, hl⟩ := hlast.back k r' hk
    rw [hr, Option.map_some, Option.map_some, hl.sequence]

theorem register {c : ConnId} (h : Twin u z s t) (hc : c.user = u) (ha : (s.conns c).added = true)
    (registration : RegisterMessage) : Twin u z (register D s c registration) (register D t c registration) := by
  unfold Control.register
  rw [hc]
  rcases h.record registration.instanceId with ⟨hs, ht⟩ | ⟨r, n, hr, hs, ht⟩ <;> dsimp only <;> rw
    [hs, ht] <;> dsimp only
  · exact h.completeRegistration hc ha registration (by rw [hs]) (by rw [ht])
  · have hsame : Twin u z (Control.completeRegistration D s c registration (some r))
        (Control.completeRegistration D t c registration (some { r with sequence := n })) :=
      h.completeRegistration hc ha registration (by rw [hs]) (by rw [ht])
    cases hd : r.connection with
    | none => rw [hd] at hsame; exact hsame
    | some d =>
      rw [hd] at hsame
      dsimp only
      split
      · exact hsame
      · have hdu := (h.left.filed.seated _ r d hs hd).1.trans hr
        have hdisc := h.disconnect (D := D) hdu
        have hseq := (disconnect_sequence (D := D) h.left d (recordKey u registration.instanceId))
        have hseq' := (disconnect_sequence (D := D) h.right d (recordKey u registration.instanceId))
        rw [hs] at hseq
        rw [ht] at hseq'
        rcases hdisc.record registration.instanceId with ⟨hs', ht'⟩ | ⟨r', n', hr', hs', ht'⟩ <;> rw [hs', ht']
        · exact hdisc.log fun v hv => (Option.some.inj hv).symm
        · simp only [Option.bind_some]
          cases hd' : r'.connection with
          | none => exact hdisc.log fun v hv => (Option.some.inj hv).symm
          | some d' =>
            have hdu' := (hdisc.left.filed.seated _ r' d' hs' hd').1.trans hr'
            refine (hdisc.closeSocket hdu' _ _).completeRegistration hc ?_ registration hseq hseq'
            have hadded := ((disconnect_same D s d c).1).trans ha
            by_cases hcd : c = d'
            · subst hcd; simp [Registry.closeSocket, Registry.setConn, Registry.log, hadded]
            · simp [Registry.closeSocket, Registry.setConn, Registry.log, hcd, hadded]

/-! ## Frames of a plugin -/

/-- A write to the record on a connection that leaves its seat. -/
theorem onRecord {c : ConnId} (h : Twin u z s t) (hc : c.user = u) (f : Nat → InstanceRecord → InstanceRecord)
    (hseat : ∀ now r, (f now r).seat = r.seat)
    (hrank : ∀ now r n, f now { r with sequence := n } = { f now r with sequence := n }) :
    Twin u z (onRecord s c (f s.nowMs)) (onRecord t c (f t.nowMs)) := by
  rw [← h.own.nowMs]
  unfold Control.onRecord
  rcases h.recordOn hc with ⟨hs, ht⟩ | ⟨r, n, hr, hs, ht⟩ <;> rw [hs, ht] <;> dsimp only
  · exact h
  · obtain ⟨id, -, hk, -⟩ := recordOn_eq_some.mp hs
    obtain ⟨id', -, hk', -⟩ := recordOn_eq_some.mp ht
    have hf := hseat s.nowMs r
    simp only [InstanceRecord.seat, Seat.mk.injEq] at hf
    rw [hrank s.nowMs r n]
    exact h.put hk hk' hr hf.2.1 (by rw [hf.1]) hf.2.2.1 fun d hd => by rw [hf.2.2.2.2] at hd; exact hd

theorem touch {c : ConnId} (h : Twin u z s t) (hc : c.user = u) : Twin u z (touch s c) (touch t c) :=
  h.onRecord hc (fun now r => { r with lastSeenAt := now }) (fun _ _ => rfl) fun _ _ _ => rfl

theorem handleSnapshotResponse {c : ConnId} (h : Twin u z s t) (hc : c.user = u) (ha : (s.conns c).added = true)
    (requestId instanceId : JsString) (interactions : List PendingInteraction) :
    Twin u z (handleSnapshotResponse s c requestId instanceId interactions)
      (handleSnapshotResponse t c requestId instanceId interactions) := by
  have hget := h.entries_get h.left.requests h.right.requests h.own.requests hc ha requestId
  have hdel := h.entries_delete h.left.requests h.right.requests h.own.requests hc ha requestId
  unfold Control.handleSnapshotResponse pendingKey
  rw [h.own.instanceId hc, hget]
  split
  · exact h
  · split
    · exact h
    · rename_i p hp
      have hpc : p.connection = c := (h.left.requests.of_get h.left.distinct ha hp).1
      have hdrop := h.setRequests (h.left.requests.delete _) (h.right.requests.delete _) hdel.1 hdel.2
      dsimp only
      rw [hpc]
      exact (hdrop.onRecord hc (fun now => applyProjection now interactions) (fun _ _ => rfl) fun _ _ _ =>
        rfl).resolve hc _ _

theorem untrackCommand {c : ConnId} (h : Twin u z s t) (hc : c.user = u) (ha : (s.conns c).added = true)
    (k : CommandKind)
    (commandId : JsString) : Twin u z (untrackCommand s k c commandId) (untrackCommand t k c commandId) := by
  have hdel := h.entries_delete (h.left.commands k) (h.right.commands k) (h.own.commands k) hc ha commandId
  exact h.setCommands k ((h.left.commands k).delete _) ((h.right.commands k).delete _) hdel.1 hdel.2

theorem settleOutcome (h : Twin u z s t) (commandId commandId' : JsString) (status : CommandStatus) :
    Twin u z (settleOutcome s commandId status) (settleOutcome t commandId' status) := h.outcomes _ _

theorem handleCommandResult {c : ConnId} (h : Twin u z s t) (hc : c.user = u) (ha : (s.conns c).added = true)
    (k : CommandKind)
    (commandId instanceId : JsString) (status : CommandStatus) :
    Twin u z (handleCommandResult k s c commandId instanceId status)
      (handleCommandResult k t c commandId instanceId status) := by
  have hget := h.entries_get (h.left.commands k) (h.right.commands k) (h.own.commands k) hc ha commandId
  have hun := h.untrackCommand hc ha k commandId
  unfold Control.handleCommandResult
  unfold commandKey
  rw [h.own.instanceId hc, hget]
  split
  · exact h
  · split
    · exact h
    · refine Twin.settleOutcome ?_ _ _ _
      split
      · rename_i p _ _
        exact hun.onRecord hc (fun now => confirmRequest now p.requestId) (fun _ _ => rfl) fun _ _ _ => rfl
      · exact hun

theorem dropPrompt {c : ConnId} (h : Twin u z s t) (hc : c.user = u) (ha : (s.conns c).added = true)
    (commandId : JsString) :
    Twin u z { s with pendingPromptCommands := s.pendingPromptCommands.delete (commandKey s c commandId) }
      { t with pendingPromptCommands := t.pendingPromptCommands.delete (commandKey t c commandId) } := by
  have hdel := h.entries_delete h.left.prompts h.right.prompts h.own.prompts hc ha commandId
  exact h.setPrompts (h.left.prompts.delete _) (h.right.prompts.delete _) hdel.1 hdel.2

theorem handleSessionPromptResult {c : ConnId} (h : Twin u z s t) (hc : c.user = u) (ha : (s.conns c).added = true)
    (commandId instanceId : JsString) :
    Twin u z (handleSessionPromptResult s c commandId instanceId)
      (handleSessionPromptResult t c commandId instanceId) := by
  unfold Control.handleSessionPromptResult
  rw [h.own.instanceId hc]
  split
  · exact h
  · exact h.dropPrompt hc ha commandId

/-- The own catalog request of an id. -/
theorem catalog (h : Twin u z s t) {requestId : JsString} {p : CatalogRequest} (hp : p.connection.user = u) :
    t.catalogRequests.get requestId = some p ↔ s.catalogRequests.get requestId = some p := by
  have hget := congrArg (OMap.get · requestId) h.own.catalogs
  simp only [OMap.get_filter] at hget
  have hiff : ∀ x : Option CatalogRequest, x = some p ↔ x.filter (fun p => p.connection.user = u) = some p := by
    intro x
    rw [Option.filter_eq_some_iff]
    exact ⟨fun hx => ⟨hx, by simpa using hp⟩, fun hx => hx.1⟩
  rw [hiff, ← hget, ← hiff]

theorem dropCatalog (h : Twin u z s t) {requestId : JsString}
    (hs : ∀ p, s.catalogRequests.get requestId = some p → p.connection.user = u) :
    Twin u z { s with catalogRequests := s.catalogRequests.delete requestId }
      { t with catalogRequests := t.catalogRequests.delete requestId } := by
  refine h.next { h.left with } { h.right with } { h.own with catalogs := ?_ } fun v hv =>
    { Agree.refl v s with catalogs := ?_ }
  · dsimp only
    rw [OMap.delete, OMap.filter_filter, h.own.catalogs, OMap.delete, OMap.filter_filter]
  · dsimp only
    rw [OMap.delete, OMap.filter_filter]
    refine (OMap.filter_eq_self fun k p hp => decide_eq_true ?_).symm
    rw [OMap.get_filter, Option.filter_eq_some_iff, decide_eq_true_iff] at hp
    rintro rfl
    exact hv (hp.2.symm.trans (hs p hp.1))

theorem handleCatalogResponse {c : ConnId} (h : Twin u z s t) (hc : c.user = u) (requestId instanceId : JsString)
    (status : CatalogStatus) (catalog : Option SessionCatalog) :
    Twin u z (handleCatalogResponse s c requestId instanceId status catalog)
      (handleCatalogResponse t c requestId instanceId status catalog) := by
  -- Only a request on this very connection is answered, and that one is in both.
  have hquiet : ∀ (x : Registry), (∀ p, x.catalogRequests.get requestId = some p → p.connection ≠ c) →
      Control.handleCatalogResponse x c requestId instanceId status catalog = x := by
    intro x hx
    unfold Control.handleCatalogResponse
    split
    · rfl
    · rename_i p hp
      rw [if_pos (Or.inl (hx p hp))]
  by_cases hp : ∃ p, s.catalogRequests.get requestId = some p ∧ p.connection = c
  · obtain ⟨p, hs, rfl⟩ := hp
    have ht := (h.catalog hc).mpr hs
    unfold Control.handleCatalogResponse
    rw [hs, ht, h.own.instanceId hc]
    dsimp only
    split
    · exact h
    · refine (h.dropCatalog fun q hq => ?_).log fun v hv => (Option.some.inj hv).symm.trans hc
      rw [hs] at hq; cases hq; exact hc
  · have hs : ∀ p, s.catalogRequests.get requestId = some p → p.connection ≠ c := fun p hsp he => hp ⟨p, hsp, he⟩
    rw [hquiet s hs, hquiet t fun p htp he => hs p ((h.catalog (he ▸ hc)).mp htp) he]
    exact h

/-! ## WebUI tunnels -/

theorem clientEq {w : ClientId} (h : Twin u z s t) (hw : w.userId = u) : t.clients w = s.clients w :=
  (h.own.clients w hw).symm

theorem tunnelUser {w : ClientId} (h : Twin u z s t) (hw : w.userId = u) {tunnel : WebUiTunnel}
    (ht : (s.clients w).tunnel = some tunnel) : tunnel.connection.user = u := (h.left.tunnels w tunnel ht).trans hw

/-- A write to an own client that keeps its tunnel's connection. -/
theorem writeClient {w : ClientId} (h : Twin u z s t) (hw : w.userId = u) (f : WebUiClient → WebUiClient)
    (hf : ∀ x tunnel, (f x).tunnel = some tunnel → ∃ tunnel', x.tunnel = some tunnel' ∧
      tunnel'.connection = tunnel.connection) :
    Twin u z (s.setClient w (f (s.clients w))) (t.setClient w (f (t.clients w))) := by
  rw [h.clientEq hw]
  refine h.client hw fun tunnel ht => ?_
  obtain ⟨tunnel', ht', hc⟩ := hf _ tunnel ht
  exact hc ▸ h.tunnelUser hw ht'

theorem logClient {w : ClientId} (h : Twin u z s t) (hw : w.userId = u) {e : Effect} (he : e.user = some w.userId) :
    Twin u z (s.log e) (t.log e) := h.log fun v hv => by
  rw [he] at hv
  exact (Option.some.inj hv).symm.trans hw

theorem closeClient {w : ClientId} (h : Twin u z s t) (hw : w.userId = u) (code : Nat) (reason : String) :
    Twin u z (s.closeClient w code reason) (t.closeClient w code reason) :=
  (h.writeClient hw (fun x => { x with socket := x.socket.shut }) fun _ tunnel ht => ⟨tunnel, ht, rfl⟩).logClient hw rfl

theorem terminateClient {w : ClientId} (h : Twin u z s t) (hw : w.userId = u) :
    Twin u z (s.terminateClient w) (t.terminateClient w) :=
  (h.writeClient hw (fun x => { x with socket := x.socket.shut }) fun _ tunnel ht => ⟨tunnel, ht, rfl⟩).logClient hw rfl

theorem sendClient {w : ClientId} (h : Twin u z s t) (hw : w.userId = u) (m : WebUiFrame) :
    Twin u z (s.sendClient w m) (t.sendClient w m) := by
  unfold Registry.sendClient
  rw [h.clientEq hw]
  split <;> exact h.logClient hw rfl

theorem setPendingRequests {w : ClientId} (h : Twin u z s t) (hw : w.userId = u) (f : List JsString → List JsString) :
    Twin u z (setPendingRequests s w f) (setPendingRequests t w f) :=
  h.writeClient hw (fun x =>
    { x with tunnel := x.tunnel.map fun y => { y with pendingRequests := f y.pendingRequests } })
    fun x tunnel ht => by
      obtain ⟨tunnel', ht', rfl⟩ := Option.map_eq_some_iff.mp ht
      exact ⟨tunnel', ht', rfl⟩

/-- The own client of a tunnel. -/
theorem tunnel {w : ClientId} (h : Twin u z s t) (hw : w.userId = u) (tunnelId : JsString) :
    t.webUiTunnels.get tunnelId = some w ↔ s.webUiTunnels.get tunnelId = some w := by
  have hget := congrArg (OMap.get · tunnelId) h.own.tunnels
  simp only [OMap.get_filter] at hget
  have hiff : ∀ x : Option ClientId, x = some w ↔ x.filter (fun w => w.userId = u) = some w := by
    intro x
    rw [Option.filter_eq_some_iff]
    exact ⟨fun hx => ⟨hx, by simpa using hw⟩, fun hx => hx.1⟩
  rw [hiff, ← hget, ← hiff]

theorem dropTunnel {w : ClientId} (h : Twin u z s t) (hw : w.userId = u) {tunnelId : JsString}
    (hs : s.webUiTunnels.get tunnelId = some w) :
    Twin u z { s with webUiTunnels := s.webUiTunnels.delete tunnelId }
      { t with webUiTunnels := t.webUiTunnels.delete tunnelId } := by
  refine h.next { h.left with } { h.right with } { h.own with tunnels := ?_ } fun v hv =>
    { Agree.refl v s with tunnels := ?_ }
  · dsimp only
    rw [OMap.delete, OMap.filter_filter, h.own.tunnels, OMap.delete, OMap.filter_filter]
  · dsimp only
    rw [OMap.delete, OMap.filter_filter]
    refine (OMap.filter_eq_self fun k w' hk => decide_eq_true ?_).symm
    rw [OMap.get_filter, Option.filter_eq_some_iff, decide_eq_true_iff] at hk
    rintro rfl
    rw [hs] at hk
    exact hv (hk.2.symm.trans (Option.some.inj hk.1 ▸ hw))

/-- A new tunnel, under an id that no tunnel has. -/
theorem newTunnel {w : ClientId} (h : Twin u z s t) (hw : w.userId = u) {tunnelId : JsString}
    (hs : s.webUiTunnels.has tunnelId = false) (ht : t.webUiTunnels.has tunnelId = false) :
    Twin u z { s with webUiTunnels := s.webUiTunnels.set tunnelId w }
      { t with webUiTunnels := t.webUiTunnels.set tunnelId w } := by
  have hnone : ∀ {m : OMap JsString ClientId}, m.has tunnelId = false → ∀ w', m.get tunnelId ≠ some w' := by
    intro m hm w' hw'
    rw [OMap.has, hw'] at hm; cases hm
  refine h.next { h.left with } { h.right with } { h.own with tunnels := ?_ } fun v hv =>
    { Agree.refl v s with tunnels := ?_ }
  · dsimp only
    rw [OMap.filter_set_of_pos (p := fun _ w => w.userId = u) (decide_eq_true hw) fun w' hw' =>
      absurd hw' (hnone hs w'),
      OMap.filter_set_of_pos (p := fun _ w => w.userId = u) (decide_eq_true hw) fun w' hw' => absurd hw' (hnone ht w'),
      h.own.tunnels]
  · dsimp only
    rw [OMap.filter_set_of_neg (p := fun _ w => w.userId = v) (decide_eq_false fun he => hv (he.symm.trans hw))
      fun w' hw' => absurd hw' (hnone hs w')]

theorem closeWebUiTunnel {w : ClientId} (h : Twin u z s t) (hw : w.userId = u) :
    Twin u z (closeWebUiTunnel D s w) (closeWebUiTunnel D t w) := by
  unfold Control.closeWebUiTunnel
  rw [h.clientEq hw]
  cases htun : (s.clients w).tunnel with
  | none => exact h
  | some tunnel =>
    dsimp only
    have hc := h.tunnelUser hw htun
    by_cases hget : s.webUiTunnels.get tunnel.tunnelId = some w
    · rw [if_neg (not_not.mpr hget), if_neg (not_not.mpr ((h.tunnel hw _).mpr hget)), h.own.socket hc]
      split
      · exact (h.dropTunnel hw hget).send hc _
      · exact h.dropTunnel hw hget
    · rw [if_pos hget, if_pos fun hn => hget ((h.tunnel hw _).mp hn)]
      exact h

theorem handleWebUiResponse {c : ConnId} (h : Twin u z s t) (hc : c.user = u) (tunnelId requestId : JsString)
    (part : WebUiResponsePart) :
    Twin u z (handleWebUiResponse D s c tunnelId requestId part)
      (handleWebUiResponse D t c tunnelId requestId part) := by
  -- Only a tunnel on this very connection is written to, and its client is an own one.
  have hquiet : ∀ (x : Registry),
    (∀ w tunnel, x.webUiTunnels.get tunnelId = some w → (x.clients w).tunnel = some tunnel →
      tunnel.connection ≠ c) → Control.handleWebUiResponse D x c tunnelId requestId part = x := by
    intro x hx
    unfold Control.handleWebUiResponse
    split
    · rfl
    · rename_i w hw
      split
      · rfl
      · rename_i tunnel htun
        rw [if_pos (Or.inl (hx w tunnel hw htun))]
  by_cases hp : ∃ w tunnel, s.webUiTunnels.get tunnelId = some w ∧ (s.clients w).tunnel = some tunnel ∧
    tunnel.connection = c
  · obtain ⟨w, tunnel, hs, htun, rfl⟩ := hp
    have hw : w.userId = u := (h.left.tunnels w tunnel htun).symm.trans hc
    unfold Control.handleWebUiResponse
    rw [hs, (h.tunnel hw _).mpr hs]
    dsimp only
    rw [h.clientEq hw, htun]
    dsimp only
    split
    · exact h
    · have hset : Twin u z (if part = .end then Control.setPendingRequests s w (·.erase requestId) else s)
          (if part = .end then Control.setPendingRequests t w (·.erase requestId) else t) := by
        split
        · exact h.setPendingRequests hw _
        · exact h
      generalize (if part = .end then Control.setPendingRequests s w (·.erase requestId) else s) = s₁ at hset ⊢
      generalize (if part = .end then Control.setPendingRequests t w (·.erase requestId) else t) = t₁ at hset ⊢
      rw [hset.clientEq hw]
      split
      · exact (hset.closeWebUiTunnel hw).terminateClient hw
      · split
        · exact hset.closeWebUiTunnel hw
        · exact hset.logClient hw rfl
  · have hs : ∀ w tunnel, s.webUiTunnels.get tunnelId = some w → (s.clients w).tunnel = some tunnel →
      tunnel.connection ≠ c :=
      fun w tunnel hsw hst he => hp ⟨w, tunnel, hsw, hst, he⟩
    rw [hquiet s hs, hquiet t fun w tunnel htw htt he => ?_]
    · exact h
    · have hw : w.userId = u := (h.right.tunnels w tunnel htt).symm.trans (he ▸ hc)
      exact hs w tunnel ((h.tunnel hw _).mp htw) (h.clientEq hw ▸ htt) he

theorem receiveWebUiRequest {w : ClientId} {tunnel : WebUiTunnel} (h : Twin u z s t) (hw : w.userId = u)
    (hc : tunnel.connection.user = u) (ms : List (JsString × Json)) :
    Twin u z (receiveWebUiRequest D s w tunnel ms) (receiveWebUiRequest D t w tunnel ms) := by
  unfold Control.receiveWebUiRequest
  dsimp only
  split
  · exact (h.setPendingRequests hw _).send hc _
  · split
    · exact h.closeWebUiTunnel hw
    · split
      · split
        · exact h
        · exact (h.setPendingRequests hw _).send hc _
      · exact h

theorem tunnelTarget (h : Twin u z s t) (instanceId : JsString) :
    Control.tunnelTarget t u instanceId = Control.tunnelTarget s u instanceId ∧
      ∀ c, Control.tunnelTarget s u instanceId = some c → c.user = u := by
  unfold Control.tunnelTarget
  rcases h.record instanceId with ⟨hs, ht⟩ | ⟨r, n, hr, hs, ht⟩ <;> rw [hs, ht]
  · exact ⟨rfl, nofun⟩
  · simp only [Option.bind_eq_bind, Option.bind_some]
    cases hc : r.connection with
    | none => exact ⟨rfl, nofun⟩
    | some c =>
      have hcu := (h.left.filed.seated _ r c hs hc).1.trans hr
      simp only [Option.bind_some, h.own.socket hcu, true_and]
      intro c' hc'
      split at hc'
      · cases hc'; exact hcu
      · cases hc'

theorem openWebUiTunnel {w : ClientId} (h : Twin u z s t) (hw : w.userId = u) (ms : List (JsString × Json))
    {tunnelId : JsString}
    (hs : s.webUiTunnels.has tunnelId = false) (ht : t.webUiTunnels.has tunnelId = false) :
    Twin u z (openWebUiTunnel s w ms tunnelId) (openWebUiTunnel t w ms tunnelId) := by
  unfold Control.openWebUiTunnel
  split
  · exact h.closeClient hw _ _
  · rename_i instanceId _
    obtain ⟨htarget, hown⟩ := h.tunnelTarget instanceId
    rw [← hw] at htarget hown
    rw [htarget, h.clientEq hw]
    split
    · split
      · exact h.logClient hw rfl
      · exact (h.logClient hw rfl).closeClient hw _ _
    · rename_i c hc
      have hset := h.client hw (x := { s.clients w with tunnel := some ⟨tunnelId, c, []⟩ }) fun tunnel htun => by
        cases htun
        exact (hown c hc).trans hw
      replace hs : (s.setClient w { s.clients w with tunnel := some ⟨tunnelId, c, []⟩ }).webUiTunnels.has tunnelId =
        false := hs
      replace ht : (t.setClient w { s.clients w with tunnel := some ⟨tunnelId, c, []⟩ }).webUiTunnels.has tunnelId =
        false := ht
      generalize s.setClient w { s.clients w with tunnel := some ⟨tunnelId, c, []⟩ } = s₁ at hset hs ⊢
      generalize t.setClient w { s.clients w with tunnel := some ⟨tunnelId, c, []⟩ } = t₁ at hset ht ⊢
      dsimp only
      rw [hset.clientEq hw]
      exact (hset.newTunnel hw hs ht).sendClient hw _

theorem refreshWebUiAuth {w : ClientId} (h : Twin u z s t) (hw : w.userId = u) (accessToken : Option Json) :
    Twin u z (refreshWebUiAuth D s w accessToken) (refreshWebUiAuth D t w accessToken) := by
  unfold Control.refreshWebUiAuth
  rw [h.own.nowMs]
  split
  · exact h.closeClient hw _ _
  · rename_i sub exp _
    split
    · exact h.closeClient hw _ _
    · exact (h.writeClient hw (fun x => { x with
        expiresAtMs := exp * 1000, expiry := some (expiryDue t.nowMs (exp * 1000)) })
        fun _ tunnel htun => ⟨tunnel, htun, rfl⟩).sendClient hw _

theorem receiveWebUi {w : ClientId} (h : Twin u z s t) (hw : w.userId = u) (frame : Option (List (JsString × Json)))
    {tunnelId : JsString} (hs : s.webUiTunnels.has tunnelId = false) (ht : t.webUiTunnels.has tunnelId = false) :
    Twin u z (receiveWebUi D s w frame tunnelId) (receiveWebUi D t w frame tunnelId) := by
  unfold Control.receiveWebUi
  rw [h.clientEq hw]
  split
  · exact h
  · split
    · exact h
    · have halive : Twin u z (s.setClient w { s.clients w with alive := true })
        (t.setClient w { s.clients w with alive := true }) :=
        h.client hw fun tunnel htun => h.tunnelUser hw htun
      replace hs : (s.setClient w { s.clients w with alive := true }).webUiTunnels.has tunnelId = false := hs
      replace ht : (t.setClient w { s.clients w with alive := true }).webUiTunnels.has tunnelId = false := ht
      generalize s.setClient w { s.clients w with alive := true } = s₁ at halive hs ⊢
      generalize t.setClient w { s.clients w with alive := true } = t₁ at halive ht ⊢
      dsimp only
      split
      · exact halive.refreshWebUiAuth hw _
      · rw [halive.clientEq hw]
        split
        · exact halive.openWebUiTunnel hw _ hs ht
        · rename_i tunnel htun
          exact halive.receiveWebUiRequest hw (halive.tunnelUser hw htun) _

theorem addWebUiClient {w : ClientId} (h : Twin u z s t) (hw : w.userId = u) (socket : Socket) (expiresAtMs : Nat) :
    Twin u z (addWebUiClient s w socket expiresAtMs) (addWebUiClient t w socket expiresAtMs) := by
  unfold Control.addWebUiClient
  rw [h.clientEq hw, h.own.nowMs]
  split
  · exact h
  · exact h.client hw nofun

theorem webUiClientGone {w : ClientId} (h : Twin u z s t) (hw : w.userId = u) :
    Twin u z (webUiClientGone D s w) (webUiClientGone D t w) := by
  unfold Control.webUiClientGone
  rw [h.clientEq hw]
  split
  · exact h
  · exact (h.client hw (x := { s.clients w with expiry := none, heartbeat := false })
      fun tunnel htun => h.tunnelUser hw htun).closeWebUiTunnel hw

theorem webUiHeartbeat {w : ClientId} (h : Twin u z s t) (hw : w.userId = u) :
    Twin u z (webUiHeartbeat s w) (webUiHeartbeat t w) := by
  unfold Control.webUiHeartbeat
  rw [h.clientEq hw]
  split
  · exact h
  · split
    · exact h.terminateClient hw
    · exact (h.client hw (x := { s.clients w with alive := false }) fun tunnel htun => h.tunnelUser hw htun).logClient
        hw rfl

theorem webUiExpired {w : ClientId} (h : Twin u z s t) (hw : w.userId = u) :
    Twin u z (webUiExpired s w) (webUiExpired t w) := by
  unfold Control.webUiExpired
  rw [h.clientEq hw, h.own.nowMs]
  split
  · exact (h.client hw (x := { s.clients w with expiry := none }) fun tunnel htun => h.tunnelUser hw htun).closeClient
      hw _ _
  · exact h

/-! ## Sockets of plugins -/

theorem add {c : ConnId} (h : Twin u z s t) (hc : c.user = u) (socket : Socket) :
    Twin u z (add s c socket) (add t c socket) := by
  unfold Control.add
  rw [h.own.added hc]
  split
  · exact h
  · rename_i hnot
    refine h.next (sound_add h.left hnot socket) (sound_add h.right (h.own.added hc ▸ hnot) socket) { h.own with
      conns := fun d hd => ?_, connections := ?_ } fun v hv =>
        { Agree.refl v s with conns := fun d hd => ?_, connections := ?_ }
    · by_cases hdc : d = c
      · subst hdc; simp [Registry.setConn, ControlConnection.bare]
      · simp [Registry.setConn, hdc, h.own.conns d hd]
    · dsimp only
      rw [List.filter_append, List.filter_append, h.own.connections]
    · have hdc : d ≠ c := by rintro rfl; exact hv (hd.symm.trans hc)
      simp [Registry.setConn, hdc]
    · have hne : c.user ≠ v := fun he => hv (he.symm.trans hc)
      dsimp only
      rw [List.filter_append]
      simp [hne]

theorem aliveConn {c : ConnId} (h : Twin u z s t) (hc : c.user = u) (alive : Bool) :
    Twin u z (s.setConn c { s.conns c with alive }) (t.setConn c { t.conns c with alive }) :=
  h.conn hc (fun x => { x with alive }) (fun _ => rfl) (fun _ => rfl) fun x y hxy => by
    obtain ⟨ha, hs, -, hi⟩ := Agree.bare_iff.mp hxy
    exact Agree.bare_iff.mpr ⟨ha, hs, rfl, hi⟩

theorem receive {c : ConnId} (h : Twin u z s t) (hc : c.user = u) (frame : Option ClientMessage) :
    Twin u z (receive D s c frame) (receive D t c frame) := by
  unfold Control.receive
  rw [h.own.added hc]
  cases ha : (s.conns c).added with
  | false => exact h
  | true =>
    have halive := h.aliveConn hc true
    have hadded : ((s.setConn c { s.conns c with alive := true }).conns c).added = true := by simp
      [Registry.setConn, ha]
    simp only [Bool.true_eq_false, if_false]
    cases frame with
    | none => exact (halive.disconnect hc).closeSocket hc _ _
    | some m =>
      cases m with
      | register registration =>
        dsimp only
        rw [halive.own.instanceId hc]
        split
        · exact (halive.disconnect hc).closeSocket hc _ _
        · exact halive.register hc hadded registration
      | pendingSnapshotResponse requestId instanceId interactions =>
        exact halive.handleSnapshotResponse hc hadded requestId instanceId interactions
      | questionAnswerResult commandId instanceId status =>
        exact halive.handleCommandResult hc hadded .question commandId instanceId status
      | permissionDecideResult commandId instanceId status =>
        exact halive.handleCommandResult hc hadded .permission commandId instanceId status
      | sessionPromptResult commandId instanceId status =>
        exact halive.handleSessionPromptResult hc hadded commandId instanceId
      | webUiResponse tunnelId requestId part => exact halive.handleWebUiResponse hc tunnelId requestId part
      | sessionCatalogResponse requestId instanceId status catalog =>
        exact halive.handleCatalogResponse hc requestId instanceId status catalog

theorem markAlive {c : ConnId} (h : Twin u z s t) (hc : c.user = u) : Twin u z (markAlive s c) (markAlive t c) := by
  unfold Control.markAlive
  rw [h.own.added hc]
  split
  · exact h
  · exact (h.aliveConn hc true).touch hc

theorem heartbeat {c : ConnId} (h : Twin u z s t) (hc : c.user = u) : Twin u z (heartbeat D s c) (heartbeat D t c) := by
  unfold Control.heartbeat
  rw [h.own.socket hc, h.own.alive hc]
  simp only [h.own.mem_connections hc]
  split
  · exact h
  · split
    · exact h.disconnect hc
    · split
      · exact (h.disconnect hc).terminate hc
      · exact (h.aliveConn hc false).log fun _ hv => (Option.some.inj hv).symm.trans hc

theorem closeEach {cs : List ConnId} (h : Twin u z s t) (hc : ∀ c ∈ cs, c.user = u) (code : Nat) (reason : String) :
    Twin u z (closeEach D code reason s cs) (closeEach D code reason t cs) := by
  induction cs generalizing s t with
  | nil => exact h
  | cons c cs ih =>
    have hcu := hc c List.mem_cons_self
    exact ih ((h.disconnect hcu).closeSocket hcu code reason) fun d hd => hc d (List.mem_cons_of_mem _ hd)

/-! ## Calls of the routes -/

theorem forgetOffline (h : Twin u z s t) (instanceId : JsString) :
    Twin u z (forgetOffline s u instanceId).1 (forgetOffline t u instanceId).1 ∧
      (forgetOffline t u instanceId).2 = (forgetOffline s u instanceId).2 := by
  unfold Control.forgetOffline
  dsimp only
  rcases h.record instanceId with ⟨hs, ht⟩ | ⟨r, n, hr, hs, ht⟩ <;> rw [hs, ht] <;> dsimp only
  · exact ⟨h, rfl⟩
  · split
    · exact ⟨h, rfl⟩
    · refine ⟨(h.dropRecords (fun _ _ _ => rfl) fun k r' hk hne => decide_eq_true ?_).publish, rfl⟩
      rintro rfl
      exact hne (h.left.filed.user hk).1

theorem reachable (h : Twin u z s t) {r : InstanceRecord} (hr : ∀ c, r.connection = some c → c.user = u) (n : Nat) :
    Control.reachable t { r with sequence := n } = Control.reachable s r := by
  unfold Control.reachable
  cases hc : r.connection with
  | none => rfl
  | some c => simp only [Option.filter_some, h.own.socket (hr c hc)]

/-- The seat of the connection a call is sent to. -/
theorem reachable_seat (h : Twin u z s t) {k : JsString} {r : InstanceRecord} (hk : s.records.get k = some r)
    (hr : r.userId = u)
    {c : ConnId} (hc : Control.reachable s r = some c) : c.user = u ∧ (s.conns c).added = true := by
  obtain ⟨hcu, ha⟩ := h.left.filed.seated k r c hk (Option.filter_eq_some_iff.mp hc).1
  exact ⟨hcu.trans hr, ha⟩

/-- A new catalog request, under an id that none has. -/
theorem newCatalog {c : ConnId} (h : Twin u z s t) (hc : c.user = u) {requestId : JsString}
    (hs : s.catalogRequests.has requestId = false) (ht : t.catalogRequests.has requestId = false) :
    Twin u z { s with catalogRequests := s.catalogRequests.set requestId ⟨c, requestId⟩ }
      { t with catalogRequests := t.catalogRequests.set requestId ⟨c, requestId⟩ } := by
  have hnone : ∀ {m : OMap JsString CatalogRequest}, m.has requestId = false → ∀ p, m.get requestId ≠ some p := by
    intro m hm p hp
    rw [OMap.has, hp] at hm; cases hm
  refine h.next { h.left with } { h.right with } { h.own with catalogs := ?_ } fun v hv =>
    { Agree.refl v s with catalogs := ?_ }
  · dsimp only
    rw [OMap.filter_set_of_pos (p := fun _ p => p.connection.user = u) (decide_eq_true hc) fun p hp =>
      absurd hp (hnone hs p),
      OMap.filter_set_of_pos (p := fun _ p => p.connection.user = u) (decide_eq_true hc) fun p hp =>
        absurd hp (hnone ht p),
      h.own.catalogs]
  · dsimp only
    rw [OMap.filter_set_of_neg (p := fun _ p => p.connection.user = v) (decide_eq_false fun he => hv (he.symm.trans hc))
      fun p hp => absurd hp (hnone hs p)]

theorem collectSessions (h : Twin u z s t) (instanceId : JsString) (query : SessionCatalogQuery) {draw : JsString}
    (hs : s.catalogRequests.has draw = false) (ht : t.catalogRequests.has draw = false) :
    Twin u z (collectSessions D s u instanceId query draw) (collectSessions D t u instanceId query draw) := by
  unfold Control.collectSessions
  rcases h.record instanceId with ⟨hrs, hrt⟩ | ⟨r, n, hr, hrs, hrt⟩ <;> rw [hrs, hrt]
  · exact h.log fun v hv => (Option.some.inj hv).symm
  · simp only [Option.bind_some]
    rw [h.reachable fun c hc => (h.left.filed.seated _ r c hrs hc).1.trans hr]
    split
    · exact h.log fun v hv => (Option.some.inj hv).symm
    · rename_i c hc
      have hcu := (h.reachable_seat hrs hr hc).1
      exact (h.newCatalog hcu hs ht).send hcu _

/-- What a command call is checked for is the user's own. -/
theorem commandTarget (h : Twin u z s t) (k : CommandKind) (instanceId requestId commandId sessionID : JsString) :
    (∃ e, commandTarget s k u instanceId requestId commandId sessionID = .error e ∧
      commandTarget t k u instanceId requestId commandId sessionID = .error e) ∨
    ∃ r n c, commandTarget s k u instanceId requestId commandId sessionID = .ok (r, c) ∧
      commandTarget t k u instanceId requestId commandId sessionID = .ok ({ r with sequence := n }, c) ∧
      c.user = u ∧ (s.conns c).added = true := by
  unfold Control.commandTarget
  rcases h.record instanceId with ⟨hs, ht⟩ | ⟨r, n, hr, hs, ht⟩ <;> rw [hs, ht]
  · exact Or.inl ⟨.notFound, rfl, rfl⟩
  · simp only [Option.filter_some, hr, decide_true, if_true]
    have hreach := h.reachable (r := r) (fun c hc => (h.left.filed.seated _ r c hs hc).1.trans hr) n
    rw [hr] at hreach
    rw [hreach]
    cases hc : Control.reachable s r with
    | none => exact Or.inl ⟨.notFound, rfl, rfl⟩
    | some c =>
      obtain ⟨hcu, ha⟩ := h.reachable_seat hs hr hc
      dsimp only
      cases r.projectedRequests.get requestId with
      | none => exact Or.inl ⟨_, rfl, rfl⟩
      | some p =>
        have hany : ∀ m : OMap JsString PendingCommand,
            m.values.any (fun q => q.connection = c ∧ (q.requestId = requestId ∨ q.commandId = commandId)) =
            (ownEntries (·.connection) u m).any fun q => q.connection = c ∧
              (q.requestId = requestId ∨ q.commandId = commandId) := by
          intro m
          unfold ownEntries
          rw [List.any_filter]
          congr 1
          funext q
          by_cases hq : q.connection = c
          · simp [hq, hcu]
          · simp [hq]
        dsimp only
        rw [hany, hany, h.own.commands]
        split
        · exact Or.inl ⟨_, rfl, rfl⟩
        · split
          · exact Or.inl ⟨_, rfl, rfl⟩
          · exact Or.inr ⟨r, n, c, rfl, by rw [hr], hcu, ha⟩

theorem trackCommand {c : ConnId} (h : Twin u z s t) (hc : c.user = u) (ha : (s.conns c).added = true) (k : CommandKind)
    (r : InstanceRecord) (n : Nat) (requestId commandId : JsString) :
    Twin u z (trackCommand D s k r c u requestId commandId)
      (trackCommand D t k { r with sequence := n } c u requestId commandId) := by
  have ha' := (h.own.added hc).trans ha
  have hset := h.entries_set (h.left.commands k) (h.right.commands k) (h.own.commands k) hc ha
    (x := ⟨c, requestId, commandId⟩) rfl commandId
  have hput := h.setCommands k ((h.left.commands k).set (x := ⟨c, requestId, commandId⟩) rfl rfl ha)
    ((h.right.commands k).set (x := ⟨c, requestId, commandId⟩) rfl rfl ha') hset.1 hset.2
  exact hput.outcomes _ _

theorem routeCommand (h : Twin u z s t) (k : CommandKind) (instanceId requestId commandId sessionID : JsString)
    (command : ServerMessage) :
    Twin u z (routeCommand D k s u instanceId requestId commandId sessionID command).1
        (routeCommand D k t u instanceId requestId commandId sessionID command).1 ∧
      (routeCommand D k t u instanceId requestId commandId sessionID command).2 =
        (routeCommand D k s u instanceId requestId commandId sessionID command).2 := by
  unfold Control.routeCommand
  rcases h.commandTarget k instanceId requestId commandId sessionID with
    ⟨e, hs, ht⟩ | ⟨r, n, c, hs, ht, hc, ha⟩ <;> rw [hs, ht]
  · exact ⟨h, rfl⟩
  · exact ⟨(h.trackCommand hc ha k r n requestId commandId).send hc _, rfl⟩

theorem sendSessionPrompt (h : Twin u z s t) (instanceId sessionID commandId text : JsString) :
    Twin u z (sendSessionPrompt D s u instanceId sessionID commandId text).1
        (sendSessionPrompt D t u instanceId sessionID commandId text).1 ∧
      (sendSessionPrompt D t u instanceId sessionID commandId text).2 =
        (sendSessionPrompt D s u instanceId sessionID commandId text).2 := by
  unfold Control.sendSessionPrompt
  rcases h.record instanceId with ⟨hs, ht⟩ | ⟨r, n, hr, hs, ht⟩ <;> rw [hs, ht]
  · exact ⟨h, rfl⟩
  · simp only [Option.filter_some, hr, decide_true, if_true, Option.bind_some]
    have hreach := h.reachable (r := r) (fun c hc => (h.left.filed.seated _ r c hs hc).1.trans hr) n
    rw [hr] at hreach
    rw [hreach]
    cases hc : Control.reachable s r with
    | none => exact ⟨h, rfl⟩
    | some c =>
      obtain ⟨hcu, ha⟩ := h.reachable_seat hs hr hc
      have ha' := (h.own.added hcu).trans ha
      have hany : ∀ m : OMap JsString PendingPromptCommand,
        m.values.any (fun q => q.connection = c ∧ q.commandId = commandId) =
          (ownEntries (·.connection) u m).any fun q => q.connection = c ∧ q.commandId = commandId := by
        intro m
        unfold ownEntries
        rw [List.any_filter]
        congr 1
        funext q
        by_cases hq : q.connection = c
        · simp [hq, hcu]
        · simp [hq]
      dsimp only
      rw [hany, hany, h.own.prompts]
      split
      · exact ⟨h, rfl⟩
      · have hset := h.entries_set h.left.prompts h.right.prompts h.own.prompts hcu ha
          (x := ⟨c, sessionID, commandId⟩) rfl commandId
        exact ⟨(h.setPrompts (h.left.prompts.set (x := ⟨c, sessionID, commandId⟩) rfl rfl ha)
          (h.right.prompts.set (x := ⟨c, sessionID, commandId⟩) rfl rfl ha') hset.1 hset.2).send hcu _, rfl⟩

/-! ## Collecting -/

end Twin

/-- The newest collection is the user's. -/
def Newest (u : UserId) (s : Registry) : Prop := ∃ q qs, s.collections = q :: qs ∧ q.userId = u

theorem newest_resolve {u : UserId} {l : List PendingSnapshotRequest} {c : ConnId} : ∀ {qs : List Collection},
    (∃ q qs', qs = q :: qs' ∧ q.userId = u) →
    ∃ q qs', l.foldl (fun qs p => qs.map (Collection.resolve c p.requestId [])) qs = q :: qs' ∧ q.userId = u := by
  induction l with
  | nil => exact fun h => h
  | cons p l ih =>
    rintro _ ⟨q, qs', rfl, hq⟩
    exact ih ⟨q.resolve c p.requestId [], _, rfl, hq⟩

theorem newest_disconnect {u : UserId} {s : Registry} (c : ConnId) (h : Newest u s) : Newest u (disconnect D s c) := by
  refine disconnect_inv (P := Newest u) ?_ ?_ ?_ ?_ ?_ ?_ s c h
  · exact fun _ _ _ h => newest_resolve h
  · exact fun _ _ _ _ _ h => h
  · exact fun _ _ h => h
  · exact fun _ _ _ _ _ _ h => h
  · exact fun _ _ h => h
  · exact fun _ _ _ h => h

theorem newest_send {u : UserId} {s : Registry} (c : ConnId) (m : ServerMessage) (h : Newest u s) :
    Newest u (send D s c m) := by
  unfold send
  rcases sendWith_cases (disconnect D) s c m with ⟨-, hs⟩ | ⟨-, hs | hs⟩ <;> rw [hs]
  · exact h
  · exact newest_disconnect (D := D) c h
  · exact newest_disconnect (D := D) c h

theorem newest_query {u : UserId} {s : Registry} (r : InstanceRecord) (id : JsString) (h : Newest u s) :
    Newest u (queryPendingSnapshot D s r id) := by
  obtain ⟨q, qs, hq, hu⟩ := h
  unfold queryPendingSnapshot
  split
  · exact ⟨{ q with rejected := true }, qs, by simp [Registry.log, atNewest, hq], hu⟩
  · rename_i c _
    exact newest_send _ _ ⟨{ q with batches := q.batches ++ [⟨c, id, none⟩] }, qs, by simp [atNewest, hq], hu⟩

namespace Twin

variable {u : UserId} {z s t : Registry}

/-- A write to the newest collection, which is the user's in both. -/
theorem atNewest (h : Twin u z s t) (hs : Newest u s) (ht : Newest u t) (f : Collection → Collection)
    (hf : ∀ q, (f q).userId = q.userId)
    (hb : ∀ q b, q.userId = u → (∀ b ∈ q.batches, b.connection.user = u) → b ∈ (f q).batches → b.connection.user = u) :
    Twin u z { s with collections := atNewest f s.collections } { t with collections := atNewest f t.collections } := by
  obtain ⟨q, qs, hq, hu⟩ := hs
  obtain ⟨q', qs', hq', hu'⟩ := ht
  have hown := h.own.collections
  rw [hq, hq', List.filter_cons_of_pos (by simpa using hu), List.filter_cons_of_pos (by simpa using hu'),
    List.cons.injEq] at hown
  obtain ⟨rfl, htail⟩ := hown
  have hbatches : ∀ {x : Registry} {l : List Collection}, Sound x → x.collections = q :: l →
      ∀ p ∈ Control.atNewest f x.collections, ∀ b ∈ p.batches, b.connection.user = p.userId := by
    intro x l hx hl p hp b hbp
    rw [hl, Control.atNewest] at hp
    rcases List.mem_cons.mp hp with rfl | hp
    · rw [hf, hu]
      exact hb q b hu (fun b' hb' => hu ▸ hx.batches q (hl ▸ List.mem_cons_self) b' hb') hbp
    · exact hx.batches p (hl ▸ List.mem_cons_of_mem _ hp) b hbp
  refine h.next { h.left with batches := hbatches h.left hq } { h.right with batches := hbatches h.right hq' }
    { h.own with collections := ?_ } fun v hv => { Agree.refl v s with collections := ?_ }
  · rw [hq, hq', Control.atNewest, Control.atNewest, List.filter_cons_of_pos (by simpa [hf] using hu),
      List.filter_cons_of_pos (by simpa [hf] using hu), htail]
  · have hne : ¬ q.userId = v := fun he => hv (he.symm.trans hu)
    rw [hq, Control.atNewest, List.filter_cons_of_neg (by simpa using hne),
      List.filter_cons_of_neg (by simpa [hf] using hne)]

theorem queryPendingSnapshot (h : Twin u z s t) (hs : Newest u s) (ht : Newest u t) {r : InstanceRecord}
    (hr : r.userId = u)
    (requestId : JsString) : Twin u z (queryPendingSnapshot D s r requestId)
    (queryPendingSnapshot D t r requestId) := by
  have hreject := (h.atNewest hs ht (fun q => { q with rejected := true }) (fun _ => rfl) fun _ b _ hq hb =>
    hq b hb).log
    (e := .threw u "Cannot read properties of undefined (reading 'uid')") fun v hv => (Option.some.inj hv).symm
  unfold Control.queryPendingSnapshot
  rw [hr]
  rcases h.record r.registration.instanceId with ⟨hgs, hgt⟩ | ⟨x, n, hx, hgs, hgt⟩ <;> rw [hgs, hgt]
  · exact hreject
  · simp only [Option.bind_some]
    cases hc : x.connection with
    | none => exact hreject
    | some c =>
      obtain ⟨hcu, ha⟩ := h.left.filed.seated _ x c hgs hc
      replace hcu := hcu.trans hx
      have ha' := (h.own.added hcu).trans ha
      have hset := h.entries_set h.left.requests h.right.requests h.own.requests hcu ha
        (x := ⟨c, requestId, r.registration⟩) rfl requestId
      have hreq := h.setRequests (h.left.requests.set (x := ⟨c, requestId, r.registration⟩) rfl rfl ha)
        (h.right.requests.set (x := ⟨c, requestId, r.registration⟩) rfl rfl ha') hset.1 hset.2
      refine (hreq.atNewest hs ht (fun q => { q with batches := q.batches ++ [⟨c, requestId, none⟩] }) (fun _ => rfl)
        fun q b _ hq hb => ?_).send hcu _
      rcases List.mem_append.mp hb with hb | hb
      · exact hq b hb
      · rw [List.mem_singleton.mp hb]; exact hcu

/-- The queries of a collection, one after the other. -/
theorem queryAll (l : List (InstanceRecord × Nat)) (hl : ∀ x ∈ l, x.1.userId = u) (draws : Nat → JsString)
    (h : Twin u z s t) (hs : Newest u s) (ht : Newest u t) :
    Twin u z (l.foldl (fun s x => Control.queryPendingSnapshot D s x.1 (draws x.2)) s)
      (l.foldl (fun s x => Control.queryPendingSnapshot D s x.1 (draws x.2)) t) := by
  induction l generalizing s t with
  | nil => exact h
  | cons x l ih =>
    exact ih (fun y hy => hl y (List.mem_cons_of_mem _ hy))
      (h.queryPendingSnapshot hs ht (hl x List.mem_cons_self) _) (newest_query _ _ hs) (newest_query _ _ ht)

/-- A query reads nothing of the sequence of its record. -/
theorem queryAll_unranked (s : Registry) (l : List InstanceRecord) (draws : Nat → JsString) :
    l.zipIdx.foldl (fun s x => Control.queryPendingSnapshot D s x.1 (draws x.2)) s =
      (l.map InstanceRecord.unranked).zipIdx.foldl (fun s x => Control.queryPendingSnapshot D s x.1 (draws x.2)) s := by
  rw [List.zipIdx_map, List.foldl_map]
  rfl

theorem collectionTargets (h : Twin u z s t) : (Control.collectionTargets s u).map InstanceRecord.unranked =
    (Control.collectionTargets t u).map InstanceRecord.unranked := by
  unfold Control.collectionTargets
  refine h.filterRecords (fun r hr => (of_decide_eq_true hr).1) (fun r hr => (of_decide_eq_true hr).1) (fun _ _ => rfl)
    (fun _ _ => rfl) fun r _ hc => ?_
  rw [show Control.reachable t r = Control.reachable s r from h.reachable hc r.sequence]

theorem collectPendingInteractions (h : Twin u z s t) (draws : Nat → JsString) :
    Twin u z (collectPendingInteractions D s u draws) (collectPendingInteractions D t u draws) := by
  have htargets := h.collectionTargets
  have hids : (Control.collectionTargets s u).map (·.registration.instanceId) =
      (Control.collectionTargets t u).map (·.registration.instanceId) := by
    have hmap := congrArg (List.map (·.registration.instanceId)) htargets
    rw [List.map_map, List.map_map] at hmap
    exact hmap
  unfold Control.collectPendingInteractions
  dsimp only
  rw [queryAll_unranked, queryAll_unranked (startCollection t u _), ← htargets, ← hids]
  refine queryAll _ (fun x hx => ?_) draws ?_ ⟨_, _, rfl, rfl⟩ ⟨_, _, rfl, rfl⟩
  · obtain ⟨r, hr, he⟩ := List.mem_map.mp (List.fst_mem_of_mem_zipIdx hx)
    rw [← he]
    exact (of_decide_eq_true (List.mem_filter.mp hr).2).1
  · refine h.next { h.left with batches := ?_ } { h.right with batches := ?_ } { h.own with collections := ?_ }
      fun v hv => { Agree.refl v s with collections := ?_ }
    · intro q hq b hb
      rcases List.mem_cons.mp hq with rfl | hq
      · cases hb
      · exact h.left.batches q hq b hb
    · intro q hq b hb
      rcases List.mem_cons.mp hq with rfl | hq
      · cases hb
      · exact h.right.batches q hq b hb
    · simp only [startCollection, List.filter_cons, h.own.collections]
    · have hne : ¬ u = v := fun he => hv he.symm
      simp [startCollection, hne]

/-! ## Timers -/

theorem catalogTimeout {c : ConnId} (h : Twin u z s t) (hc : c.user = u) (requestId : JsString) :
    Twin u z (catalogTimeout s c requestId) (catalogTimeout t c requestId) := by
  unfold Control.catalogTimeout
  by_cases hs : s.catalogRequests.get requestId = some ⟨c, requestId⟩
  · rw [if_neg (not_not.mpr hs), if_neg (not_not.mpr ((h.catalog hc).mpr hs))]
    refine (h.dropCatalog fun p hp => ?_).log fun v hv => (Option.some.inj hv).symm.trans hc
    rw [hs] at hp; cases hp; exact hc
  · rw [if_pos hs, if_pos fun ht => hs ((h.catalog hc).mp ht)]
    exact h

theorem snapshotTimeout {c : ConnId} (h : Twin u z s t) (hc : c.user = u) (requestId : JsString) :
    Twin u z (snapshotTimeout s c requestId) (snapshotTimeout t c requestId) := by
  unfold Control.snapshotTimeout
  rw [h.own.added hc]
  by_cases ha : (s.conns c).added = true
  · have hget := h.entries_get h.left.requests h.right.requests h.own.requests hc ha requestId
    have hdel := h.entries_delete h.left.requests h.right.requests h.own.requests hc ha requestId
    unfold OMap.has pendingKey
    rw [hget]
    split
    · exact (h.setRequests (h.left.requests.delete _) (h.right.requests.delete _) hdel.1 hdel.2).resolve hc _ _
    · exact h
  · rw [if_neg fun hn => ha hn.1, if_neg fun hn => ha hn.1]
    exact h

theorem commandTimeout {c : ConnId} (h : Twin u z s t) (hc : c.user = u) (k : CommandKind) (commandId : JsString) :
    Twin u z (commandTimeout k s c commandId) (commandTimeout k t c commandId) := by
  unfold Control.commandTimeout
  rw [h.own.added hc]
  cases ha : (s.conns c).added with
  | false => exact h
  | true =>
    have hget := h.entries_get (h.left.commands k) (h.right.commands k) (h.own.commands k) hc ha commandId
    unfold commandKey
    rw [hget]
    simp only [Bool.true_eq_false, if_false]
    split
    · exact h
    · exact (h.untrackCommand hc ha k commandId).settleOutcome _ _ _

theorem promptTimeout {c : ConnId} (h : Twin u z s t) (hc : c.user = u) (commandId : JsString) :
    Twin u z (promptTimeout s c commandId) (promptTimeout t c commandId) := by
  unfold Control.promptTimeout
  rw [h.own.added hc]
  cases ha : (s.conns c).added with
  | false => exact h
  | true => exact h.dropPrompt hc ha commandId

end Twin

/-! ## Steps -/

/-- Who the operation is of, given the owner of each key: none for a shutdown, which is everyone's. -/
def Op.user (keyUser : JsString → UserId) : Op → Option UserId
  | .add c _ | .frame c _ | .alive c | .heartbeat c | .close c | .error c | .sendFailed c | .socket c _ => some c.user
  | .catalogTimeout c _ | .snapshotTimeout c _ | .answerTimeout c _ | .decideTimeout c _ | .promptTimeout c _ =>
    some c.user
  | .revokeKey ingestKeyId => some (keyUser ingestKeyId)
  | .closeAll => none
  | .forgetOffline u _ | .publishSnapshot u | .collectSessions u .. | .collectPendingInteractions u _ => some u
  | .answerQuestion u .. | .decidePermission u .. | .sendSessionPrompt u .. | .outcomeFor u _ => some u
  | .addWebUiClient w .. | .clientFrame w .. | .clientAlive w | .clientHeartbeat w | .clientExpired w => some w.userId
  | .clientClose w | .clientError w | .clientSocket w _ => some w.userId

/-- The connection is authenticated with a key of its user, and a drawn id is not in use. -/
def Fresh (keyUser : JsString → UserId) (s : Registry) (e : Event) : Prop :=
  match e.op with
  | .add c _ => keyUser c.auth.id = c.user
  | .collectSessions _ _ _ draw => s.catalogRequests.has draw = false
  | .clientFrame _ _ draw => s.webUiTunnels.has draw = false
  | _ => True

instance (keyUser : JsString → UserId) (s : Registry) (e : Event) : Decidable (Fresh keyUser s e) := by
  unfold Fresh; split <;> infer_instance

/-- Every connection is authenticated with a key of its user. -/
def KeyOwned (keyUser : JsString → UserId) (s : Registry) : Prop := ∀ c ∈ s.connections, keyUser c.auth.id = c.user

theorem keyOwned_step {keyUser : JsString → UserId} {s : Registry} {e : Event} (h : KeyOwned keyUser s)
    (he : Fresh keyUser s e) :
    KeyOwned keyUser (step D s e) := by
  refine (step_moves s e).inv (P := KeyOwned keyUser) (fun s' t' m h' => ?_) h
  cases m with
  | add c socket ha ho =>
    have hc : keyUser c.auth.id = c.user := by
      unfold Fresh at he
      rw [ho] at he
      exact he
    simp only [add, ha, Bool.false_eq_true, if_false]
    intro d hd
    rcases List.mem_append.mp hd with hd | hd
    · exact h' d hd
    · rw [List.mem_singleton.mp hd]; exact hc
  | disconnect c => exact fun d hd => h' d (disconnect_connections s' c d hd).1
  | _ => exact h'

theorem revokeKey_twin {keyUser : JsString → UserId} {u : UserId} {z s t : Registry} {ingestKeyId : JsString}
    (h : Twin u z s t)
    (hu : keyUser ingestKeyId = u) (hs : KeyOwned keyUser s) (ht : KeyOwned keyUser t) :
    Twin u z (revokeKey D s ingestKeyId) (revokeKey D t ingestKeyId) := by
  have hpart : ∀ {x : Registry}, KeyOwned keyUser x → x.connections.filter (fun c => c.auth.id = ingestKeyId) =
      (x.connections.filter (·.user = u)).filter fun c => c.auth.id = ingestKeyId := by
    intro x hx
    rw [List.filter_filter]
    refine List.filter_congr fun c hc => ?_
    by_cases hid : c.auth.id = ingestKeyId
    · simp [hid, ← hx c hc, hu]
    · simp [hid]
  unfold revokeKey
  rw [hpart ht, hpart hs, ← h.own.connections]
  exact h.closeEach (fun c hc => of_decide_eq_true (List.mem_filter.mp (List.mem_filter.mp hc).1).2) _ _

/-- An operation of `u` keeps to `u`'s part. -/
theorem apply_twin {keyUser : JsString → UserId} {u : UserId} {z s t : Registry} {e : Event} (h : Twin u z s t)
    (hu : e.op.user keyUser = some u) (hks : KeyOwned keyUser s) (hkt : KeyOwned keyUser t) (hfs : Fresh keyUser s e)
    (hft : Fresh keyUser t e) : Twin u z (apply D s e.op) (apply D t e.op) := by
  obtain ⟨now, op⟩ := e
  cases op with
  | closeAll => cases hu
  | revokeKey ingestKeyId => exact revokeKey_twin h (Option.some.inj hu) hks hkt
  | add c socket => exact h.add (Option.some.inj hu) socket
  | frame c frame => exact h.receive (Option.some.inj hu) frame
  | alive c => exact h.markAlive (Option.some.inj hu)
  | heartbeat c => exact h.heartbeat (Option.some.inj hu)
  | close c => exact h.disconnect (Option.some.inj hu)
  | error c => exact h.disconnect (Option.some.inj hu)
  | sendFailed c => exact h.disconnect (Option.some.inj hu)
  | socket c socket =>
    exact h.conn (Option.some.inj hu) (fun x => { x with socket }) (fun _ => rfl) (fun _ => rfl) fun x y hxy => by
      obtain ⟨ha, -, hl, hi⟩ := Agree.bare_iff.mp hxy
      exact Agree.bare_iff.mpr ⟨ha, rfl, hl, hi⟩
  | forgetOffline v instanceId =>
    cases hu
    obtain ⟨htwin, hres⟩ := h.forgetOffline instanceId
    simp only [apply, hres]
    exact htwin.log fun w hw => (Option.some.inj hw).symm
  | publishSnapshot v => cases hu; exact h.publish
  | collectSessions v instanceId query draw => cases hu; exact h.collectSessions instanceId query hfs hft
  | collectPendingInteractions v draws => cases hu; exact h.collectPendingInteractions draws
  | answerQuestion v instanceId requestId commandId sessionID answers =>
    cases hu
    obtain ⟨htwin, hres⟩ := h.routeCommand (D := D) .question instanceId requestId commandId sessionID
      (.questionAnswerCommand commandId requestId sessionID answers)
    simp only [apply, answerQuestion, hres]
    exact htwin.log fun w hw => (Option.some.inj hw).symm
  | decidePermission v instanceId requestId commandId sessionID decision =>
    cases hu
    obtain ⟨htwin, hres⟩ := h.routeCommand (D := D) .permission instanceId requestId commandId sessionID
      (.permissionDecideCommand commandId requestId sessionID decision)
    simp only [apply, decidePermission, hres]
    exact htwin.log fun w hw => (Option.some.inj hw).symm
  | sendSessionPrompt v instanceId sessionID commandId text =>
    cases hu
    obtain ⟨htwin, hres⟩ := h.sendSessionPrompt (D := D) instanceId sessionID commandId text
    simp only [apply, hres]
    exact htwin.log fun w hw => (Option.some.inj hw).symm
  | outcomeFor v commandId =>
    cases hu
    have hout := h.outcomes (outcomeFor s u commandId).1.commandOutcomes (outcomeFor t u commandId).1.commandOutcomes
    refine hout.next { hout.left with } { hout.right with } { hout.own with trace := ?_ }
      fun w hw => { Agree.refl w _ with trace := ?_ }
    · simp only [apply, Registry.log, List.filter_append, Effect.user]
      exact congrArg (· ++ _) h.own.trace
    · simp [apply, Registry.log, List.filter_append, Effect.user, outcomeFor]
  | catalogTimeout c requestId => exact h.catalogTimeout (Option.some.inj hu) requestId
  | snapshotTimeout c requestId => exact h.snapshotTimeout (Option.some.inj hu) requestId
  | answerTimeout c commandId => exact h.commandTimeout (Option.some.inj hu) .question commandId
  | decideTimeout c commandId => exact h.commandTimeout (Option.some.inj hu) .permission commandId
  | promptTimeout c commandId => exact h.promptTimeout (Option.some.inj hu) commandId
  | addWebUiClient w socket expiresAtMs => exact h.addWebUiClient (Option.some.inj hu) socket expiresAtMs
  | clientFrame w frame draw => exact h.receiveWebUi (Option.some.inj hu) frame hfs hft
  | clientAlive w => exact h.writeClient (Option.some.inj hu) (fun x => { x with alive := true }) fun _ y hy =>
    ⟨y, hy, rfl⟩
  | clientHeartbeat w => exact h.webUiHeartbeat (Option.some.inj hu)
  | clientExpired w => exact h.webUiExpired (Option.some.inj hu)
  | clientClose w => exact h.webUiClientGone (Option.some.inj hu)
  | clientError w => exact h.webUiClientGone (Option.some.inj hu)
  | clientSocket w socket => exact h.writeClient (Option.some.inj hu) (fun x => { x with socket }) fun _ y hy =>
    ⟨y, hy, rfl⟩

theorem Twin.self {s : Registry} (h : Sound s) (u : UserId) : Twin u s s s := ⟨h, h, .refl u s, fun v _ => .refl v s⟩

/-- Closing the connections of everyone closes a user's own. -/
theorem closeEach_own {u : UserId} (code : Nat) (reason : String) (cs : List ConnId) {s t : Registry} (hs : Sound s)
    (ht : Sound t) (h : Agree u s t) :
    Sound (closeEach D code reason s cs) ∧
      Agree u (closeEach D code reason s cs) (closeEach D code reason t (cs.filter (·.user = u))) := by
  induction cs generalizing s t with
  | nil => exact ⟨hs, h⟩
  | cons c cs ih =>
    by_cases hc : c.user = u
    · rw [List.filter_cons_of_pos (by simpa using hc)]
      have htwin : Twin u s s t := ⟨hs, ht, h, fun v _ => .refl v s⟩
      have hclose := (htwin.disconnect (D := D) hc).closeSocket hc code reason
      exact ih hclose.left hclose.right hclose.own
    · rw [List.filter_cons_of_neg (by simpa using hc)]
      have hclose := ((Twin.self hs c.user).disconnect (D := D) rfl).closeSocket rfl code reason
      exact ih hclose.left ht ((hclose.others u fun he => hc he.symm).symm.trans h)

theorem closeAll_own {u : UserId} {s t : Registry} (hs : Sound s) (ht : Sound t) (h : Agree u s t) :
    Agree u (closeAll D s) (closeAll D t) := by
  have hown := (closeEach_own (D := D) WS_CLOSE_SERVER_SHUTDOWN "server shutting down" s.connections hs ht h).2
  have hown' := (closeEach_own (D := D) WS_CLOSE_SERVER_SHUTDOWN "server shutting down" t.connections ht ht
    (.refl u t)).2
  rw [h.connections] at hown
  exact hown.trans hown'.symm

/-- Between steps every collection waits. -/
def Quiet (s : Registry) : Prop := ∀ q ∈ s.collections, q.settled = false

theorem quiet_settle (s : Registry) : Quiet (settleCollections s) := fun q hq => by
  simpa using (List.mem_filter.mp hq).2

theorem sound_settle {s : Registry} (h : Sound s) : Sound (settleCollections s) :=
  { h with batches := fun q hq => h.batches q (List.mem_filter.mp hq).1 }

theorem settle_own {u : UserId} {s t : Registry} (h : Agree u s t) :
    Agree u (settleCollections s) (settleCollections t) := by
  have htrace : ∀ x : Registry, (((x.collections.reverse.filter (·.settled)).map
      fun q => Effect.collected q.userId (q.snapshot x.nowMs)).filter (·.user = some u)) =
      (((x.collections.filter (·.userId = u)).reverse.filter (·.settled)).map
        fun q => Effect.collected q.userId (q.snapshot x.nowMs)) := by
    intro x
    rw [List.filter_map, ← List.filter_reverse, List.filter_comm]
    refine congrArg _ (congrArg _ (List.filter_congr fun q _ => ?_))
    simp [Effect.user]
  refine { h with collections := ?_, trace := ?_ }
  · simp only [settleCollections]
    rw [List.filter_comm, h.collections, List.filter_comm]
  · simp only [settleCollections, List.filter_append]
    rw [htrace, htrace, h.collections, h.nowMs, h.trace]

/-- A step of someone else settles none of the collections that waited. -/
theorem settle_others {u : UserId} {s t : Registry} (h : Agree u s t) (hs : Quiet s) :
    Agree u s (settleCollections t) := by
  have hquiet : ∀ q ∈ t.collections, q.userId = u → q.settled = false := by
    intro q hq hu
    have hmem : q ∈ t.collections.filter (·.userId = u) := List.mem_filter.mpr ⟨hq, decide_eq_true hu⟩
    rw [← h.collections] at hmem
    exact hs q (List.mem_filter.mp hmem).1
  refine { h with collections := ?_, trace := ?_ }
  · simp only [settleCollections]
    rw [List.filter_comm, h.collections]
    refine (List.filter_eq_self.mpr fun q hq => ?_).symm
    obtain ⟨hq, hu⟩ := List.mem_filter.mp hq
    simp [hquiet q hq (of_decide_eq_true hu)]
  · have hnil : ((t.collections.reverse.filter (·.settled)).map fun q =>
      Effect.collected q.userId (q.snapshot t.nowMs)).filter
        (·.user = some u) = [] := by
      refine List.filter_eq_nil_iff.mpr fun e he hu => ?_
      obtain ⟨q, hq, rfl⟩ := List.mem_map.mp he
      obtain ⟨hq, hset⟩ := List.mem_filter.mp hq
      have hqu : q.userId = u := by simpa [Effect.user] using hu
      rw [hquiet q (List.mem_reverse.mp hq) hqu] at hset
      cases hset
    simp only [settleCollections, List.filter_append, hnil, List.append_nil]
    exact h.trace

/-- The same part of a user, whatever the clocks read. -/
def Alike (u : UserId) (s t : Registry) : Prop := ∀ now, Agree u { s with nowMs := now } { t with nowMs := now }

theorem Agree.alike {u : UserId} {s t : Registry} (h : Agree u s t) : Alike u s t := fun _ => { h with nowMs := rfl }

theorem Alike.trans {u : UserId} {r s t : Registry} (h : Alike u r s) (h' : Alike u s t) : Alike u r t :=
  fun now => (h now).trans (h' now)

theorem sound_now {s : Registry} (h : Sound s) (now : Nat) : Sound { s with nowMs := now } := { h with }

/-- What every run keeps. -/
structure Ready (keyUser : JsString → UserId) (s : Registry) : Prop where
  sound : Sound s
  keys : KeyOwned keyUser s
  quiet : Quiet s

theorem ready_init (keyUser : JsString → UserId) : Ready keyUser .init := ⟨sound_init, nofun, nofun⟩

section
variable {keyUser : JsString → UserId} {u : UserId} {s t : Registry} {e : Event}

theorem ready_step (h : Ready keyUser s) (he : Fresh keyUser s e) : Ready keyUser (step D s e) := by
  refine ⟨sound_settle ?_, keyOwned_step h.keys he, quiet_settle _⟩
  have hnow := sound_now h.sound e.now
  cases hu : e.op.user keyUser with
  | some v => exact (apply_twin (Twin.self hnow v) hu h.keys h.keys he he).left
  | none =>
    have hall : e.op = .closeAll := by
      cases hop : e.op <;> rw [hop] at hu <;> first | rfl | cases hu
    rw [hall]
    exact (closeEach_own (u := keyUser []) _ _ s.connections hnow hnow (.refl _ _)).1

/-- A user's own event, and a shutdown, in two registries with the same part of the user. -/
theorem step_own (hs : Ready keyUser s) (ht : Ready keyUser t) (hfs : Fresh keyUser s e) (hft : Fresh keyUser t e)
    (hu : e.op.user keyUser = some u ∨ e.op.user keyUser = none) (h : Alike u s t) :
    Alike u (step D s e) (step D t e) := by
  have hns := sound_now hs.sound e.now
  have hnt := sound_now ht.sound e.now
  refine Agree.alike (settle_own ?_)
  rcases hu with hu | hu
  · have htwin : Twin u { s with nowMs := e.now } { s with nowMs := e.now } { t with nowMs := e.now } :=
      ⟨hns, hnt, h e.now, fun v _ => .refl v _⟩
    exact (apply_twin htwin hu hs.keys ht.keys hfs hft).own
  · have hall : e.op = .closeAll := by
      cases hop : e.op <;> rw [hop] at hu <;> first | rfl | cases hu
    rw [hall]
    exact closeAll_own hns hnt (h e.now)

/-- An event of someone else. -/
theorem step_others (hs : Ready keyUser s) (hf : Fresh keyUser s e)
    (hu : ¬ (e.op.user keyUser = some u ∨ e.op.user keyUser = none)) : Alike u s (step D s e) := by
  have hns := sound_now hs.sound e.now
  have hnow : Alike u s { s with nowMs := e.now } := fun now => .refl u _
  refine hnow.trans (Agree.alike (settle_others ?_ hs.quiet))
  cases hv : e.op.user keyUser with
  | none => exact absurd (Or.inr hv) hu
  | some v =>
    refine (apply_twin (Twin.self hns v) hv hs.keys hs.keys hf hf).others u fun he => ?_
    exact hu (Or.inl (hv.trans (congrArg some he.symm)))

end

/-! ## Runs -/

/-- The event is the user's, or everyone's. -/
def Event.concerns (keyUser : JsString → UserId) (u : UserId) (e : Event) : Bool :=
  e.op.user keyUser = some u ∨ e.op.user keyUser = none

section
variable {keyUser : JsString → UserId} {u : UserId}

/-- A stretch of events of others. -/
theorem run_others (es : List Event) (hes : ∀ e ∈ es, e.concerns keyUser u = false) {s : Registry}
    (hs : Ready keyUser s)
    (hf : Along (step D) (Fresh keyUser) s es) :
    Ready keyUser (runFrom (step D) s es) ∧ Alike u s (runFrom (step D) s es) := by
  induction es generalizing s with
  | nil => exact ⟨hs, (Agree.refl u s).alike⟩
  | cons e es ih =>
    have he : ¬ (e.op.user keyUser = some u ∨ e.op.user keyUser = none) :=
      of_decide_eq_false (hes e List.mem_cons_self)
    obtain ⟨hready, halike⟩ := ih (fun e' he' => hes e' (List.mem_cons_of_mem _ he')) (ready_step (D := D) hs hf.1) hf.2
    exact ⟨hready, (step_others (D := D) hs hf.1 he).trans halike⟩

/-- Two runs with the same events of `u` keep the same part of `u`. -/
theorem runs_alike (es : List Event) : ∀ (fs : List Event) {s t : Registry}, Ready keyUser s →
    Ready keyUser t → Alike u s t →
    Along (step D) (Fresh keyUser) s es → Along (step D) (Fresh keyUser) t fs →
    es.filter (Event.concerns keyUser u) = fs.filter (Event.concerns keyUser u) →
    Alike u (runFrom (step D) s es) (runFrom (step D) t fs) := by
  induction es with
  | nil =>
    intro fs s t hs ht h _ hft hsame
    refine h.trans (run_others fs (fun e he => ?_) ht hft).2
    have := List.filter_eq_nil_iff.mp hsame.symm e he
    simpa using this
  | cons e es ih =>
    intro fs s t hs ht h hfs hft hsame
    by_cases he : e.concerns keyUser u = true
    · rw [List.filter_cons_of_pos he] at hsame
      obtain ⟨fs₁, fs₂, rfl, hothers, -, hrest⟩ := List.filter_eq_cons_iff.mp hsame.symm
      obtain ⟨hft₁, hft₂⟩ := along_append.mp hft
      obtain ⟨ht₁, h₁⟩ := run_others (D := D) fs₁ (fun e he => by simpa using hothers e he) ht hft₁
      rw [runFrom_append]
      exact ih fs₂ (ready_step hs hfs.1) (ready_step ht₁ hft₂.1)
        (step_own hs ht₁ hfs.1 hft₂.1 (of_decide_eq_true he) (h.trans h₁)) hfs.2 hft₂.2 hrest.symm
    · rw [List.filter_cons_of_neg he] at hsame
      have he' : ¬ (e.op.user keyUser = some u ∨ e.op.user keyUser = none) := fun hn => he (decide_eq_true hn)
      have hback : Alike u (step D s e) s := fun now => (step_others (D := D) hs hfs.1 he' now).symm
      exact ih fs (ready_step hs hfs.1) ht (hback.trans h) hfs.2 hft hsame

end

/-- What a user sees of a run, outside the outcome cache. -/
def seen (u : UserId) (s : Registry) : List Effect := s.trace.filter (·.user = some u)

theorem tenants_isolated (keyUser : JsString → UserId) (u : UserId) (es fs : List Event)
    (hes : Along (step D) (Fresh keyUser) .init es) (hfs : Along (step D) (Fresh keyUser) .init fs)
    (hsame : es.filter (Event.concerns keyUser u) = fs.filter (Event.concerns keyUser u)) :
    seen u (run D es) = seen u (run D fs) ∧ snapshot (run D es) u = snapshot (run D fs) u := by
  have hinit := ready_init keyUser
  have halike := runs_alike (D := D) (u := u) es fs hinit hinit (Agree.refl u _).alike hes hfs hsame
  have hsound : ∀ es, Along (step D) (Fresh keyUser) .init es → Sound (run D es) := fun es h =>
    (h.inv (I := Ready keyUser) (fun _ _ hr hf => ready_step hr hf) hinit).sound
  have htwin : Twin u _ { run D es with nowMs := 0 } { run D fs with nowMs := 0 } :=
    ⟨sound_now (hsound es hes) 0, sound_now (hsound fs hfs) 0, halike 0, fun v _ => .refl v _⟩
  exact ⟨(halike 0).trace, htwin.snapshot.symm⟩

def bob : UserId := ⟨js "b0b00000-0000-4000-8000-000000000000", by decide⟩

def bobsPlugin : ConnId := ⟨⟨js "key-of-bob", bob⟩, 0⟩

def sampleKeyUser (ingestKeyId : JsString) : UserId := if ingestKeyId = js "key-of-bob" then bob else alice

/-- Alice's plugin registers, and she looks at her instances before and after its socket closes. -/
def alicesMorning : List Event :=
  [⟨0, .add (plugin 0) openSocket⟩, ⟨1, .frame (plugin 0) (some (.register (sampleRegistration instance1)))⟩]

def alicesEvening : List Event := [⟨7, .publishSnapshot alice⟩, ⟨8, .close (plugin 0)⟩, ⟨9, .publishSnapshot alice⟩]

/-- Bob registers the same instance for the same directory, and revokes his key. -/
def bobsDay : List Event :=
  [⟨2, .add bobsPlugin openSocket⟩, ⟨3, .frame bobsPlugin (some (.register (sampleRegistration instance1)))⟩,
    ⟨4, .publishSnapshot bob⟩, ⟨5, .revokeKey (js "key-of-bob")⟩, ⟨6, .forgetOffline bob instance1⟩]

theorem bob_changes_nothing_for_alice :
    seen alice (run sampleDeps (alicesMorning ++ alicesEvening)) =
        seen alice (run sampleDeps (alicesMorning ++ (bobsDay ++ alicesEvening))) ∧
      (seen alice (run sampleDeps (alicesMorning ++ alicesEvening))).length = 5 := by
  have hbob : bobsDay.filter (Event.concerns sampleKeyUser alice) = [] :=
    List.filter_eq_nil_iff.mpr (by decide +kernel)
  refine ⟨(tenants_isolated sampleKeyUser alice _ _ (by decide +kernel) (by decide +kernel) ?_).1, by decide +kernel⟩
  rw [List.filter_append, List.filter_append, List.filter_append, hbob, List.nil_append]

end NotifyHub.Control
