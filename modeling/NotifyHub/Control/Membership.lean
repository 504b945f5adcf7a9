/-
  NotifyHub.Control.Membership — which connections the registry still counts as its own.

  `connections` loses a connection when it closes, when a frame to it fails, or when the
  registry drops it. On a platform whose closed sockets are not open (`Platform`), what
  is left out has registered or is not open (`parted`), and a record rests on a member or
  on a socket that is not open (`resting`), in every reachable state: a record that can be
  reached is on a member.
-/

import NotifyHub.Control.Ownership
import NotifyHub.Control.Requests
import NotifyHub.Control.Sockets

namespace NotifyHub.Control

open Relation

variable {D : Deps} {op : Op} {s t : Registry} {c d : ConnId}

/-! ## The platform -/

def Effect.sentTo (c : ConnId) : Effect → Bool
  | .sent d _ => d = c
  | _ => false

/-- Sockets, as the platform has them: `close` and `error` come of one that is not open, a
    failed send of one that was written to, and none that is not open opens again. -/
def Platform (s : Registry) (e : Event) : Prop :=
  match e.op with
  | .close c | .error c => (s.conns c).socket.open = false
  | .sendFailed c => s.trace.any (·.sentTo c) = true
  | .socket c x => (s.conns c).added = true → (s.conns c).socket.open = false → x.open = false
  | _ => True

instance (s : Registry) (e : Event) : Decidable (Platform s e) := by
  cases e; unfold Platform; split <;> infer_instance

theorem sentTo_iff {x : Effect} : x.sentTo c = true ↔ ∃ m, x = .sent c m := by
  cases x with
  | sent d m => simp [Effect.sentTo]
  | _ => simp [Effect.sentTo]

/-! ## Connections that were added -/

theorem added_move (m : Move D op s t) (h : (s.conns c).added = true) : (t.conns c).added = true := by
  cases m with
  | conn d x ha =>
    by_cases hd : c = d
    · subst hd; rw [setConn_self, ha]; exact h
    · rw [setConn_ne s x hd]; exact h
  | add d socket ha =>
    have hne : c ≠ d := fun he => by rw [he, ha] at h; cases h
    simpa [add, ha, Registry.setConn, hne] using h
  | enroll d registration existing ho ha =>
    by_cases hd : c = d
    · subst hd; simpa [enroll, pruneOfflineOwnership, Registry.setConn] using h
    · simpa [enroll, pruneOfflineOwnership, Registry.setConn, hd] using h
  | disconnect d => rw [(disconnect_same D s d c).1]; exact h
  | _ => exact h

/-- Every member of `connections` was added. -/
def Joined (s : Registry) : Prop := ∀ c ∈ s.connections, (s.conns c).added = true

theorem joined_move (m : Move D op s t) (h : Joined s) : Joined t := by
  intro c hc
  by_cases hs : c ∈ s.connections
  · exact added_move m (h c hs)
  · cases m with
    | add d socket ha =>
      have heq : add s d socket = _ := if_neg (by rw [ha]; decide)
      rw [heq] at hc ⊢
      rcases List.mem_append.mp hc with hc | hc
      · exact absurd hc hs
      · obtain rfl := List.mem_singleton.mp hc
        exact congrArg ControlConnection.added (setConn_self s c _)
    | disconnect d => exact absurd (disconnect_connections s d c hc).1 hs
    | _ => exact absurd hc hs

/-! ## Connections that registered -/

/-- What is used, and what was written to, has registered. -/
structure Registered (s : Registry) : Prop where
  used : ∀ c, s.Uses c → (s.conns c).instanceId ≠ none
  sent : ∀ c m, .sent c m ∈ s.trace → (s.conns c).instanceId ≠ none

theorem registered_init : Registered .init where
  used c := by rintro (⟨k, r, hr, -⟩ | ⟨w, tunnel, hw, -⟩) <;> cases ‹_›
  sent _ _ h := absurd h List.not_mem_nil

/-- `disconnect` uses no connection that was not used, and writes to no other. -/
theorem disconnect_uses (D : Deps) (s : Registry) (c : ConnId) :
    (∀ d, (disconnect D s c).Uses d → s.Uses d) ∧
      ∀ d m, .sent d m ∈ (disconnect D s c).trace → .sent d m ∈ s.trace ∨ s.Uses d := by
  refine disconnect_keeps
    (P := fun t => (∀ d, t.Uses d → s.Uses d) ∧ ∀ d m, .sent d m ∈ t.trace → .sent d m ∈ s.trace ∨ s.Uses d)
    ?_ ?_ ?_ ?_ ?_ ?_ s c ⟨fun _ h => h, fun _ _ h => Or.inl h⟩
  · intro t e _ h
    refine ⟨fun d hd => h.1 d ?_, fun d m hm => h.2 d m ?_⟩
    · rcases hd with hd | ⟨w, tunnel, hw, htc⟩
      · exact Or.inl hd
      · refine Or.inr ⟨w, tunnel, ?_, htc⟩
        rw [← hw]
        simp only [leave, dropTunnels]
        split <;> rfl
    · simpa [leave, dropTunnels, dropPending] using hm
  · intro t e r _ hr h
    refine ⟨fun d hd => h.1 d ?_, h.2⟩
    rcases hd with ⟨k, x, hx, hxd⟩ | hd
    · rw [retire, putRecord, OMap.get_set] at hx
      split at hx
      · cases hx; cases hxd
      · exact Or.inl ⟨k, x, hx, hxd⟩
    · exact Or.inr hd
  · exact fun _ _ h => h
  · intro t key u r rs hrs h
    obtain ⟨⟨k, hk⟩, -⟩ := mem_rivals.mp (hrs ▸ List.mem_cons_self : r ∈ rivals D t key u)
    refine ⟨fun d hd => h.1 d ?_, h.2⟩
    rcases hd with ⟨k', x, hx, hxd⟩ | hd
    · simp only [crown, putRecord, OMap.get_set] at hx
      split at hx
      · cases hx; exact Or.inl ⟨k, r, hk, hxd⟩
      · exact Or.inl ⟨k', x, hx, hxd⟩
    · exact Or.inr hd
  · exact fun t e h => ⟨fun d hd => h.1 d hd, h.2⟩
  · intro t e _ ha h
    refine ⟨fun d hd => h.1 d hd, fun d m hm => ?_⟩
    rcases List.mem_append.mp hm with hm | hm
    · exact h.2 d m hm
    · exact Or.inr (h.1 d (Or.inl (ha d m (List.mem_singleton.mp hm).symm).2))

/-- A record of a step's start is on a connection that registered; a tunnel of its end was
    opened on one. -/
theorem registered_move (m : Move D op s t) (hs : Seats s) (h : Registered s) : Registered t := by
  have keeps : ∀ {c}, (s.conns c).instanceId ≠ none → (t.conns c).instanceId ≠ none := by
    intro c hc
    obtain ⟨id, hid⟩ := Option.ne_none_iff_exists'.mp hc
    rw [instance_move m hs hid]
    nofun
  have records : ∀ c k r, t.records.get k = some r → r.connection = some c → (t.conns c).instanceId ≠ none := by
    intro c k r hr hc
    rw [((seats_move m hs).held k r c hr hc).2]
    nofun
  have same : t.clients = s.clients → (∀ c m, .sent c m ∈ t.trace → .sent c m ∈ s.trace) → Registered t := by
    intro hclients htrace
    refine ⟨?_, fun c m hm => keeps (h.sent c m (htrace c m hm))⟩
    rintro c (⟨k, r, hr, hc⟩ | ⟨w, tunnel, hw, hc⟩)
    · exact records c k r hr hc
    · exact keeps (h.used c (Or.inr ⟨w, tunnel, hclients ▸ hw, hc⟩))
  cases m with
  | settle =>
    refine same rfl fun c m hm => ?_
    simpa [settleCollections] using hm
  | log e he =>
    refine same rfl fun c m hm => ?_
    rcases List.mem_append.mp hm with hm | hm
    · exact hm
    · exact absurd (List.mem_singleton.mp hm).symm (he c m)
  | sent c m ha hm hu =>
    refine ⟨h.used, fun d m' hm' => ?_⟩
    rcases List.mem_append.mp hm' with hm' | hm'
    · exact h.sent d m' hm'
    · obtain ⟨rfl, -⟩ := Effect.sent.inj (List.mem_singleton.mp hm')
      exact h.used d hu
  | client w x hx ht =>
    refine ⟨?_, h.sent⟩
    rintro c (⟨k, r, hr, hc⟩ | ⟨v, tunnel, hv, rfl⟩)
    · exact records c k r hr hc
    · by_cases hvw : v = w
      · subst hvw
        simp only [Registry.setClient, if_true] at hv
        exact h.used _ (ht tunnel hv)
      · simp only [Registry.setClient, hvw, if_false] at hv
        exact h.used _ (uses_of_tunnel hv)
  | add d socket ha =>
    have heq : add s d socket = _ := if_neg (by rw [ha]; decide)
    rw [heq] at keeps records same ⊢
    exact same rfl fun _ _ hm => hm
  | disconnect d =>
    obtain ⟨huses, hsent⟩ := disconnect_uses D s d
    refine ⟨fun c hc => keeps (h.used c (huses c hc)), fun c m hm => ?_⟩
    rcases hsent c m hm with hm | hu
    · exact keeps (h.sent c m hm)
    · exact keeps (h.used c hu)
  | _ => exact same rfl fun _ _ hm => hm

/-! ## Who leaves -/

/-- Besides its own connection, `disconnect` lets go of such that a record rested on. -/
theorem disconnect_leavers (D : Deps) (s : Registry) (c : ConnId) : ∀ d ∈ s.connections,
    d ∉ (disconnect D s c).connections →
    d = c ∨ ∃ k r, s.records.get k = some r ∧ r.connection = some d := by
  refine disconnect_rule (R := fun s c t => ∀ d ∈ s.connections, d ∉ t.connections →
    d = c ∨ ∃ k r, s.records.get k = some r ∧ r.connection = some d) (fun s c _ d hd hn => absurd hd hn) ?_ s c
  intro s c _ ih d hd hn
  by_cases hdc : d = c
  · exact Or.inl hdc
  refine Or.inr ?_
  have hstays : d ∈ s.connections.filter (· ≠ c) := by simpa using ⟨hd, hdc⟩
  unfold disconnectBody at hn
  cases hr : recordOn (leave s c) c with
  | none => rw [hr] at hn; exact absurd hstays hn
  | some r =>
    rw [hr] at hn
    dsimp only at hn
    split at hn
    · unfold promoteWith at hn
      split at hn
      · exact absurd hstays hn
      · rename_i candidate _ hcand
        obtain ⟨⟨k, hk⟩, -⟩ := mem_rivals.mp (hcand ▸ List.mem_cons_self : candidate ∈ rivals D _ _ _)
        -- the promoted record, and every other of the crowned state, rested on its connection before
        have hback : ∀ k' x e, (crown (disown (retire (leave s c) r) (ownershipKey D r.userId r.registration))
            (ownershipKey D r.userId r.registration) candidate).records.get k' = some x → x.connection = some e →
            ∃ k r, s.records.get k = some r ∧ r.connection = some e := by
          have hretired : ∀ k' x e, (retire (leave s c) r).records.get k' = some x → x.connection = some e →
              ∃ k r, s.records.get k = some r ∧ r.connection = some e := by
            intro k' x e hx hxe
            rw [retire, putRecord, OMap.get_set] at hx
            split at hx
            · cases hx; cases hxe
            · exact ⟨k', x, hx, hxe⟩
          intro k' x e hx hxe
          simp only [crown, putRecord, OMap.get_set] at hx
          split at hx
          · cases hx; exact hretired k candidate e hk hxe
          · exact hretired k' x e hx hxe
        split at hn
        · rename_i e he
          have hnested : d ∉ (disconnect D
            (crown (disown (retire (leave s c) r) (ownershipKey D r.userId r.registration))
              (ownershipKey D r.userId r.registration) candidate) e).connections →
              ∃ k r, s.records.get k = some r ∧ r.connection = some d := by
            intro hgone
            rcases ih _ e rfl d hstays hgone with rfl | ⟨k', x, hx, hxd⟩
            · exact hback _ _ d (OMap.get_set_self ..) he
            · exact hback k' x d hx hxd
          rcases sendWith_cases (disconnect D)
            (crown (disown (retire (leave s c) r) (ownershipKey D r.userId r.registration))
              (ownershipKey D r.userId r.registration) candidate) e
              (.registration candidate.registration.instanceId .controllable) with ⟨-, h⟩ | ⟨-, h | h⟩ <;> rw [h] at hn
          · exact absurd hstays hn
          · exact hnested hn
          · exact hnested hn
        · exact absurd hstays hn
    · exact absurd hstays hn

/-- A socket that is not open is not opened by the registry. -/
theorem disconnect_closed (s : Registry) (c d : ConnId) (h : (s.conns d).socket.open = false) :
    ((disconnect D s c).conns d).socket.open = false := by
  refine disconnect_keeps (P := fun t => (t.conns d).socket.open = false) ?_ ?_ ?_ ?_ ?_ ?_ s c h
  · exact fun _ _ _ h => h
  · exact fun _ _ _ _ _ h => h
  · exact fun _ _ h => h
  · exact fun _ _ _ _ _ _ h => h
  · intro t e h
    by_cases hd : d = e
    · subst hd; rw [setConn_self]; exact open_shut
    · rw [setConn_ne t _ hd]; exact h
  · exact fun _ _ _ _ h => h

theorem move_closed (hsocket : ∀ x, op ≠ .socket c x) (m : Move D op s t) (h : (s.conns c).socket.open = false)
    (ha : (s.conns c).added = true) : (t.conns c).socket.open = false := by
  cases m with
  | conn d x _ _ _ hx =>
    by_cases hd : c = d
    · subst hd
      rw [setConn_self]
      rcases hx with hx | hx | hx
      · exact hx ▸ h
      · exact hx ▸ open_shut
      · exact absurd hx (hsocket _)
    · rw [setConn_ne s x hd]; exact h
  | add d socket hd =>
    have hne : c ≠ d := fun he => by rw [he, hd] at ha; cases ha
    simpa [add, hd, Registry.setConn, hne] using h
  | enroll d registration existing =>
    by_cases hd : c = d
    · subst hd; simpa [enroll, pruneOfflineOwnership, Registry.setConn] using h
    · simpa [enroll, pruneOfflineOwnership, Registry.setConn, hd] using h
  | disconnect d => exact disconnect_closed s d c h
  | _ => exact h

/-- What leaves `connections` before it registered is not open. -/
def Parted (c : ConnId) (s : Registry) : Prop :=
  (s.conns c).added = true → (s.conns c).instanceId = none → c ∉ s.connections → (s.conns c).socket.open = false

theorem parted_move (hop : ¬ op.Drops c) (hsocket : ∀ x, op ≠ .socket c x) (m : Move D op s t) (hr : Registered s)
    (h : Parted c s) : Parted c t := by
  cases m with
  | conn d x ha hu hi hx =>
    by_cases hd : c = d
    · subst hd
      unfold Parted
      rw [setConn_self, ha, hi]
      intro hadd hnone hmem
      rcases hx with hx | hx | hx
      · exact hx ▸ h hadd hnone hmem
      · exact hx ▸ open_shut
      · exact absurd hx (hsocket _)
    · unfold Parted
      rw [setConn_ne s x hd]
      exact h
  | add d socket ha =>
    have heq : add s d socket = _ := if_neg (by rw [ha]; decide)
    rw [heq]
    intro hadd hnone hmem
    by_cases hd : c = d
    · exact absurd (List.mem_append.mpr (Or.inr (List.mem_singleton.mpr hd))) hmem
    · simp only [Registry.setConn, hd, if_false] at hadd hnone ⊢
      exact h hadd hnone fun hc => hmem (List.mem_append.mpr (Or.inl hc))
  | enroll d registration existing =>
    intro hadd hnone hmem
    by_cases hd : c = d
    · subst hd
      simp [enroll, pruneOfflineOwnership, Registry.setConn] at hnone
    · simp only [enroll, pruneOfflineOwnership, Registry.setConn, hd, if_false] at hadd hnone ⊢
      exact h hadd hnone hmem
  | disconnect d hd =>
    intro hadd hnone hmem
    obtain ⟨ha, -, hi⟩ := disconnect_same D s d c
    rw [ha] at hadd
    rw [hi] at hnone
    by_cases hc : c ∈ s.connections
    · exfalso
      rcases disconnect_leavers D s d c hc hmem with rfl | hused
      · rcases hd with hu | hne | hdrop
        · exact hr.used c hu hnone
        · exact hne hnone
        · exact hop hdrop
      · exact hr.used c (Or.inl hused) hnone
    · exact disconnect_closed s d c (h hadd hnone hc)
  | _ => exact h

/-! ## Where records rest -/

/-- `Seats` of a record written where one with its registration was. -/
theorem seats_write (h : Seats s) {k : JsString} {r q : InstanceRecord} (hk : s.records.get k = some r)
    (hreg : q.registration = r.registration) (hu : q.userId = r.userId)
    (hc : q.connection = r.connection ∨ q.connection = none) : Seats (putRecord s q) := by
  have hkey : recordKey q.userId q.registration.instanceId = k := by rw [hu, hreg]; exact (h.keyed k r hk).symm
  refine ⟨fun k' x hx => ?_, fun k' x c hx hxc => ?_, h.named⟩ <;> rw [putRecord, OMap.get_set] at hx <;> split at hx
  · rename_i he; cases hx; exact he
  · exact h.keyed k' x hx
  · cases hx
    rw [hu, hreg]
    rcases hc with hc | hc
    · exact h.held k r c hk (hc ▸ hxc)
    · rw [hc] at hxc; cases hxc
  · exact h.held k' x c hx hxc

/-- Two records do not rest on one connection. -/
theorem Seats.one (h : Seats s) {k k' : JsString} {r r' : InstanceRecord} (hr : s.records.get k = some r)
    (hr' : s.records.get k' = some r') (hc : r.connection = some c) (hc' : r'.connection = some c) :
    k = k' ∧ r = r' := by
  obtain rfl : r = r' := Option.some.inj ((h.recordOn hr hc).symm.trans (h.recordOn hr' hc'))
  exact ⟨(h.keyed k r hr).trans (h.keyed k' r hr').symm, rfl⟩

/-- What `disconnect` leaves of the records on other connections: a connection that a
    record keeps is not let go of, and a controllable record is not touched. -/
structure Spares (s : Registry) (c : ConnId) (t : Registry) : Prop where
  rests : ∀ k r d, t.records.get k = some r → r.connection = some d → d ∈ s.connections → d ∈ t.connections
  controllable : ∀ k r d, s.records.get k = some r → r.state = .controllable → r.connection = some d → d ≠ c →
    t.records.get k = some r

theorem disconnect_spares (D : Deps) (s : Registry) (c : ConnId) : Seats s → Spares s c (disconnect D s c) := by
  refine disconnect_rule (R := fun s c t => Seats s → Spares s c t)
    (fun s c _ _ => ⟨fun _ _ _ _ _ hd => hd, fun _ _ _ h _ _ _ => h⟩) ?_ s c
  intro s c hc ih hs
  unfold disconnectBody
  cases hr : recordOn (leave s c) c with
  | none =>
    refine ⟨fun k r d hk hd hmem => ?_, fun k r d hk _ _ _ => hk⟩
    have hne : d ≠ c := by
      rintro rfl
      rw [recordOn_leave, hs.recordOn hk hd] at hr
      cases hr
    simpa [leave_connections] using ⟨hmem, hne⟩
  | some r =>
    obtain ⟨id, hi, hg, hrc⟩ := recordOn_eq_some.mp hr
    have hleave : Seats (leave s c) := hs.congr rfl fun _ => ⟨rfl, rfl⟩
    have hretire : Seats (retire (leave s c) r) := seats_write hleave hg rfl rfl (Or.inr rfl)
    have hkey : recordKey r.userId r.registration.instanceId = recordKey c.user id := (hs.keyed _ r hg).symm
    -- once retired, nothing rests on `c`
    have hfree : ∀ k x d, (retire (leave s c) r).records.get k = some x → x.connection = some d → d ≠ c := by
      rintro k x d hx hxd rfl
      have hx' := hx
      rw [retire, putRecord, OMap.get_set] at hx'
      split at hx'
      · cases hx'; cases hxd
      · rename_i hne
        exact hne ((hs.one hx' hg hxd hrc).1.trans hkey.symm)
    have hkept : ∀ k x d, s.records.get k = some x → x.connection = some d → d ≠ c →
        (retire (leave s c) r).records.get k = some x := by
      intro k x d hx hxd hne
      show ((leave s c).records.set (recordKey r.userId r.registration.instanceId) _).get k = some x
      rw [OMap.get_set_ne]
      · exact hx
      · rintro rfl
        rw [hkey] at hx
        obtain rfl : x = r := Option.some.inj (hx.symm.trans hg)
        exact hne (Option.some.inj (hxd.symm.trans hrc))
    have hstays : ∀ d, d ≠ c → d ∈ s.connections → d ∈ s.connections.filter (· ≠ c) := fun d hne hd => by
      simpa using ⟨hd, hne⟩
    have hquiet : Spares s c (retire (leave s c) r) :=
      ⟨fun k x d hx hxd hd => hstays d (hfree k x d hx hxd) hd, fun k x d hx _ hxd hne => hkept k x d hx hxd hne⟩
    dsimp only
    split
    · unfold promoteWith
      split
      · exact ⟨hquiet.rests, hquiet.controllable⟩
      · rename_i candidate _ hcand
        obtain ⟨⟨k₁, hk₁⟩, -, hconflict, -⟩ := mem_rivals.mp (hcand ▸ List.mem_cons_self : candidate ∈ rivals D _ _ _)
        have hown : k₁ = recordKey candidate.userId candidate.registration.instanceId := hretire.keyed k₁ candidate hk₁
        generalize hv : crown (disown (retire (leave s c) r) (ownershipKey D r.userId r.registration))
          (ownershipKey D r.userId r.registration) candidate = v
        have hvget : ∀ k, v.records.get k = if k = k₁ then
            some { candidate with state := .controllable, lastSeenAt := (leave s c).nowMs }
            else (retire (leave s c) r).records.get k := by
          intro k
          rw [← hv, hown]
          exact OMap.get_set ..
        have hvs : Seats v := by
          rw [← hv]
          exact (seats_write (s := disown (retire (leave s c) r) (ownershipKey D r.userId r.registration))
            (q := { candidate with state := .controllable, lastSeenAt := (leave s c).nowMs })
            (hretire.congr rfl fun _ => ⟨rfl, rfl⟩) hk₁ rfl rfl (Or.inl rfl)).congr rfl fun _ => ⟨rfl, rfl⟩
        have hvfree : ∀ k x d, v.records.get k = some x → x.connection = some d → d ≠ c := by
          intro k x d hx hxd
          rw [hvget] at hx
          split at hx
          · cases hx; exact hfree k₁ candidate d hk₁ hxd
          · exact hfree k x d hx hxd
        have hvkept : ∀ k x d, s.records.get k = some x → x.state = .controllable → x.connection = some d → d ≠ c →
            k ≠ k₁ ∧ v.records.get k = some x := by
          intro k x d hx hstate hxd hne
          have hx' := hkept k x d hx hxd hne
          have hk : k ≠ k₁ := by
            rintro rfl
            obtain rfl : x = candidate := Option.some.inj (hx'.symm.trans hk₁)
            rw [hstate] at hconflict; cases hconflict
          exact ⟨hk, by rw [hvget, if_neg hk]; exact hx'⟩
        have hvconn : v.connections = s.connections.filter (· ≠ c) := by rw [← hv]; rfl
        have hcrowned : Spares s c v :=
          ⟨fun k x d hx hxd hd => hvconn ▸ hstays d (hvfree k x d hx hxd) hd,
            fun k x d hx hstate hxd hne => (hvkept k x d hx hstate hxd hne).2⟩
        split
        · rename_i e he
          -- the frame to the promoted connection may fail, and disconnect it in turn
          have hnested : Spares s c (disconnect D v e) := by
            have hinner := ih v e hvconn hvs
            refine ⟨fun k x d hx hxd hd => ?_, fun k x d hx hstate hxd hne => ?_⟩
            · obtain ⟨y, hy, hlast⟩ := (disconnect_lasting (D := D) hvs.keyed e).back k x hx
              have hyd : y.connection = some d := by
                rcases hlast.connection with h | h
                · exact h ▸ hxd
                · rw [h] at hxd; cases hxd
              exact hinner.rests k x d hx hxd (hcrowned.rests k y d hy hyd hd)
            · obtain ⟨hk, hx'⟩ := hvkept k x d hx hstate hxd hne
              refine hinner.controllable k x d hx' hstate hxd ?_
              rintro rfl
              have hcand' : v.records.get k₁ =
                some { candidate with state := .controllable, lastSeenAt := (leave s c).nowMs } := by
                rw [hvget, if_pos rfl]
              exact hk (hvs.one hx' hcand' hxd he).1
          rcases sendWith_cases (disconnect D) v e (.registration candidate.registration.instanceId .controllable)
            with ⟨-, h⟩ | ⟨-, h | h⟩ <;> rw [h]
          · exact ⟨hcrowned.rests, hcrowned.controllable⟩
          · exact ⟨hnested.rests, hnested.controllable⟩
          · exact ⟨hnested.rests, hnested.controllable⟩
        · exact ⟨hcrowned.rests, hcrowned.controllable⟩
    · exact ⟨hquiet.rests, hquiet.controllable⟩

/-- A record rests on a member of `connections`, or on a socket that is not open. -/
def Resting (s : Registry) : Prop :=
  ∀ k r c, s.records.get k = some r → r.connection = some c → c ∈ s.connections ∨ (s.conns c).socket.open = false

theorem resting_move (hop : ∀ c x, op ≠ .socket c x) (m : Move D op s t) (hs : Seats s)
    (hp : ∀ c, ¬ op.Drops c → Parted c s) (h : Resting s) : Resting t := by
  have closed : ∀ {c}, (s.conns c).socket.open = false → (s.conns c).added = true → (t.conns c).socket.open = false :=
    fun hc ha => move_closed (hop _) m hc ha
  have same : (∀ c ∈ s.connections, c ∈ t.connections) →
      (∀ k r c, t.records.get k = some r → r.connection = some c → ∃ k' r', s.records.get k' = some r' ∧
        r'.connection = some c) →
      Resting t := by
    intro hconn hrec k r c hk hc
    obtain ⟨k', r', hk', hc'⟩ := hrec k r c hk hc
    rcases h k' r' c hk' hc' with hmem | hclosed
    · exact Or.inl (hconn c hmem)
    · exact Or.inr (closed hclosed (hs.named c _ (hs.held k' r' c hk' hc').2))
  cases m with
  | record c r r' hr hseat =>
    refine same (fun _ hc => hc) fun k x d hx hd => ?_
    obtain ⟨id, -, hg, -⟩ := recordOn_eq_some.mp hr
    rw [putRecord, OMap.get_set] at hx
    split at hx
    · cases hx
      have hconn : r'.connection = r.connection := congrArg Seat.connection hseat
      exact ⟨_, r, hg, hconn ▸ hd⟩
    · exact ⟨k, x, hx, hd⟩
  | forget key r hr =>
    refine same (fun _ hc => hc) fun k x d hx hd => ⟨k, x, ?_, hd⟩
    rw [OMap.delete, OMap.get_filter] at hx
    exact (Option.filter_eq_some_iff.mp hx).1
  | add d socket ha =>
    have heq : add s d socket = _ := if_neg (by rw [ha]; decide)
    rw [heq] at same ⊢
    exact same (fun c hc => List.mem_append.mpr (Or.inl hc)) fun k r c hk hc => ⟨k, r, hk, hc⟩
  | enroll d registration existing ho ha hi =>
    intro k r c hk hc
    simp only [enroll, pruneOfflineOwnership, OMap.get_set, OMap.get_filter] at hk
    split at hk
    · cases hk; cases hc
      by_cases hmem : d ∈ s.connections
      · exact Or.inl hmem
      · have hdrop : ¬ op.Drops d := by rw [ho]; exact id
        exact Or.inr (closed (hp d hdrop ha hi hmem) ha)
    · have hk' : s.records.get k = some r := (Option.filter_eq_some_iff.mp hk).1
      rcases h k r c hk' hc with hmem | hclosed
      · exact Or.inl hmem
      · exact Or.inr (closed hclosed (hs.named c _ (hs.held k r c hk' hc).2))
  | disconnect d =>
    intro k r c hk hc
    obtain ⟨x, hx, hlast⟩ := (disconnect_lasting (D := D) hs.keyed d).back k r hk
    have hxc : x.connection = some c := by
      rcases hlast.connection with he | he
      · exact he ▸ hc
      · rw [he] at hc; cases hc
    rcases h k x c hx hxc with hmem | hclosed
    · exact Or.inl ((disconnect_spares D s d hs).rests k r c hk hc hmem)
    · exact Or.inr (disconnect_closed s d c hclosed)
  | _ => exact same (fun _ hc => hc) fun k r c hk hc => ⟨k, r, hk, hc⟩

/-! ## Steps and runs -/

structure Membership (s : Registry) : Prop where
  joined : Joined s
  seats : Seats s
  registered : Registered s
  parted : ∀ c, Parted c s
  resting : Resting s

theorem membership_init : Membership .init :=
  ⟨nofun, seats_init, registered_init, fun _ _ _ _ => rfl, nofun⟩

/-- A record that can be reached is on a member of `connections`. -/
theorem Membership.reachable (h : Membership s) {k : JsString} {r : InstanceRecord} (hk : s.records.get k = some r)
    (hr : reachable s r = some c) : c ∈ s.connections := by
  obtain ⟨hc, -, ho⟩ := reachable_eq_some.mp hr
  refine (h.resting k r c hk hc).resolve_right fun hclosed => ?_
  rw [hclosed] at ho
  cases ho

/-- Closing each of some connections leaves none of them open. -/
theorem closeEach_closed (code : Nat) (reason : String) : ∀ (cs : List ConnId) (s : Registry),
    c ∈ cs ∨ (s.conns c).socket.open = false → ((closeEach D code reason s cs).conns c).socket.open = false
  | [], _, h => h.resolve_left List.not_mem_nil
  | d :: cs, s, h => by
    show ((closeEach D code reason ((disconnect D s d).closeSocket d code reason) cs).conns c).socket.open = false
    refine closeEach_closed code reason cs _ ?_
    by_cases hd : c = d
    · subst hd
      exact Or.inr (by rw [closeSocket_socket]; exact open_shut)
    · refine h.imp (fun h => (List.mem_cons.mp h).resolve_left hd) fun h => ?_
      have hother : ((disconnect D s d).closeSocket d code reason).conns c = (disconnect D s d).conns c :=
        setConn_ne (disconnect D s d) _ hd
      rw [hother]
      exact disconnect_closed s d c h

theorem closeEach_added (code : Nat) (reason : String) : ∀ (cs : List ConnId) (s : Registry),
    ((closeEach D code reason s cs).conns c).added = (s.conns c).added
  | [], _ => rfl
  | d :: cs, s => by
    show ((closeEach D code reason ((disconnect D s d).closeSocket d code reason) cs).conns c).added = _
    rw [closeEach_added code reason cs, ← (disconnect_same D s d c).1]
    by_cases hd : c = d
    · subst hd
      exact (congrArg ControlConnection.added (setConn_self (disconnect D s c) c _)).trans rfl
    · exact congrArg ControlConnection.added (setConn_ne (disconnect D s d) _ hd)

/-- An operation about the connection's end leaves it not open, or registered, or a member. -/
theorem parted_drop {e : Event} (hplat : Platform s e) (hm : Membership s) (hop : e.op.Drops c) :
    Parted c (step D s e) := by
  intro hadd hnone hmem
  have hadded : ∀ {c}, (s.conns c).instanceId ≠ none → ((step D s e).conns c).instanceId ≠ none := by
    intro c hc
    obtain ⟨id, hid⟩ := Option.ne_none_iff_exists'.mp hc
    rw [instance_step hm.seats e hid]
    nofun
  have hstart : (s.conns c).instanceId = none := by
    by_contra hne
    exact hadded hne hnone
  obtain ⟨now, op⟩ := e
  cases op with
  | close d =>
    obtain rfl : d = c := hop
    exact disconnect_closed { s with nowMs := now } d d hplat
  | error d =>
    obtain rfl : d = c := hop
    exact disconnect_closed { s with nowMs := now } d d hplat
  | sendFailed d =>
    obtain rfl : d = c := hop
    obtain ⟨x, hx, hsent⟩ := List.any_eq_true.mp hplat
    obtain ⟨m, rfl⟩ := sentTo_iff.mp hsent
    exact absurd hstart (hm.registered.sent d m hx)
  | heartbeat d =>
    obtain rfl : d = c := hop
    change ((heartbeat D { s with nowMs := now } d).conns d).socket.open = false
    change d ∉ (heartbeat D { s with nowMs := now } d).connections at hmem
    change ((heartbeat D { s with nowMs := now } d).conns d).added = true at hadd
    unfold heartbeat at hmem hadd ⊢
    split at hmem
    · rename_i hgone
      rw [if_pos hgone] at hadd ⊢
      exact hm.parted d hadd hstart hgone
    · rename_i hin
      rw [if_neg hin] at hadd ⊢
      split
      · rename_i hclosed
        exact disconnect_closed { s with nowMs := now } d d hclosed
      · rename_i hopen
        rw [if_neg hopen] at hmem
        split
        · show (((disconnect D { s with nowMs := now } d).setConn d _).conns d).socket.open = false
          rw [setConn_self]
          exact open_shut
        · rename_i halive
          rw [if_neg halive] at hmem
          exact absurd hmem hin
  | frame d frame =>
    cases frame with
    | some m => exact absurd hop id
    | none =>
      obtain rfl : d = c := hop
      change ((receive D { s with nowMs := now } d none).conns d).added = true at hadd
      change ((receive D { s with nowMs := now } d none).conns d).socket.open = false
      unfold receive at hadd ⊢
      split
      · rename_i ha
        rw [if_pos ha, ha] at hadd
        cases hadd
      · exact (congrArg Socket.open (closeSocket_socket _ d _ _)).trans open_shut
  | revokeKey id =>
    change ((revokeKey D { s with nowMs := now } id).conns c).added = true at hadd
    change ((revokeKey D { s with nowMs := now } id).conns c).socket.open = false
    rw [revokeKey, closeEach_added] at hadd
    refine closeEach_closed _ _ _ _ ?_
    by_cases hin : c ∈ s.connections
    · exact Or.inl (List.mem_filter.mpr ⟨hin, decide_eq_true hop⟩)
    · exact Or.inr (hm.parted c hadd hstart hin)
  | closeAll =>
    change ((closeAll D { s with nowMs := now }).conns c).added = true at hadd
    change ((closeAll D { s with nowMs := now }).conns c).socket.open = false
    rw [closeAll, closeEach_added] at hadd
    refine closeEach_closed _ _ _ _ ?_
    by_cases hin : c ∈ s.connections
    · exact Or.inl hin
    · exact Or.inr (hm.parted c hadd hstart hin)
  | _ => exact absurd hop id

theorem membership_step {e : Event} (hplat : Platform s e) (hm : Membership s) : Membership (step D s e) := by
  have hjoined : Joined (step D s e) := (step_moves s e).inv (fun _ _ => joined_move) hm.joined
  by_cases hsocket : ∃ d x, e.op = .socket d x
  · obtain ⟨d, x, hop⟩ := hsocket
    have hstep : step D s e = settleCollections
      (({ s with nowMs := e.now } : Registry).setConn d { s.conns d with socket := x }) := by
      rw [step, hop]; rfl
    have hx : (s.conns d).added = true → (s.conns d).socket.open = false → x.open = false := by
      simpa only [Platform, hop] using hplat
    have hconns : ∀ c, ((step D s e).conns c).added = (s.conns c).added ∧
      ((step D s e).conns c).instanceId = (s.conns c).instanceId ∧
        ((s.conns c).added = true → (s.conns c).socket.open = false → ((step D s e).conns c).socket.open = false) := by
      intro c
      rw [hstep]
      by_cases hc : c = d
      · subst hc
        simpa [settleCollections, Registry.setConn] using hx
      · simp only [settleCollections, Registry.setConn, hc, if_false, true_and]
        exact fun _ h => h
    have hrecords : (step D s e).records = s.records := by rw [hstep]; rfl
    have hmembers : (step D s e).connections = s.connections := by rw [hstep]; rfl
    refine ⟨hjoined, seats_step hm.seats e, ?_, fun c hadd hnone hmem => ?_, fun k r c hk hc => ?_⟩
    · exact ((step_moves s e).inv (P := fun t => Seats t ∧ Registered t)
        (fun _ _ m h => ⟨seats_move m h.1, registered_move m h.1 h.2⟩) ⟨hm.seats, hm.registered⟩).2
    · rw [(hconns c).1] at hadd
      rw [(hconns c).2.1] at hnone
      rw [hmembers] at hmem
      exact (hconns c).2.2 hadd (hm.parted c hadd hnone hmem)
    · rw [hrecords] at hk
      rw [hmembers]
      refine (hm.resting k r c hk hc).imp_right fun h => (hconns c).2.2 ?_ h
      exact hm.seats.named c _ (hm.seats.held k r c hk hc).2
  · have hquiet : ∀ c x, e.op ≠ .socket c x := fun c x h => hsocket ⟨c, x, h⟩
    have hmoves := (step_moves (D := D) s e).inv
      (P := fun t => Seats t ∧ Registered t ∧ (∀ c, ¬ e.op.Drops c → Parted c t) ∧ Resting t)
      (fun _ _ m h => ⟨seats_move m h.1, registered_move m h.1 h.2.1,
        fun c hc => parted_move hc (hquiet c) m h.2.1 (h.2.2.1 c hc), resting_move hquiet m h.1 h.2.2.1 h.2.2.2⟩)
      ⟨hm.seats, hm.registered, fun c _ => hm.parted c, hm.resting⟩
    refine ⟨hjoined, hmoves.1, hmoves.2.1, fun c => ?_, hmoves.2.2.2⟩
    by_cases hc : e.op.Drops c
    · exact parted_drop hplat hm hc
    · exact hmoves.2.2.1 c hc

theorem membership_run {es : List Event} (h : Along (step D) Platform .init es) : Membership (run D es) :=
  h.inv (fun _ _ hm hplat => membership_step hplat hm) membership_init

end NotifyHub.Control
