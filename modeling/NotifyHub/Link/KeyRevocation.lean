/-
  NotifyHub.Link.KeyRevocation — plugin WebSocket upgrades and the revocation of keys
  (apps/gateway/src/modules/control/control-ws.routes.ts,
  apps/gateway/src/modules/ingest-keys/ingest-keys.routes.ts), over the table of ingest
  keys and the control registry.

  An upgrade reads the table, and its socket is added once the handshake is through. A
  revocation writes the table; then, in one go, it sweeps the connections of the key and
  is answered. Between the two steps of either anything may happen. A socket goes
  forward only, as in `ws`: once closing, it does not open again.

  Proved: from the answer on, the key has no connection and is sent nothing, in every
  run where no socket is added for it after the sweep (`key_cut_off`). Nothing keeps an
  upgrade that was verified before from adding its socket after (`upgrade_outruns_revocation`).
-/

import NotifyHub.Control.Ownership
import NotifyHub.Control.Sockets
import NotifyHub.Events.IngestAuth

namespace NotifyHub.Link

open Control (Registry UserId ConnId Socket Deps Effect Shut StillShut Silent Unopened)
open IngestKeys (Store VerifiedIngestKey)

structure Upgrades where
  store : Store
  registry : Registry
  /-- What each upgrade was verified as; none once its socket was added. -/
  verified : List (Option VerifiedIngestKey)
  /-- The keys whose revocation is written and not answered. -/
  revoking : List JsString
  /-- The keys whose revocation was answered. -/
  revoked : List JsString

inductive UpgradeEvent where
  | create (userId name id : JsString) (keyIdBytes : Vector UInt8 IngestKeys.INGEST_KEY_ID_BYTES)
      (secretBytes : Vector UInt8 IngestKeys.INGEST_KEY_SECRET_BYTES)
  /-- `preValidation` of `GET /v1/plugin/ws`. -/
  | verify (authorization : Option JsString)
  /-- The handler of the n-th upgrade that was verified. -/
  | upgraded (n now : Nat) (socket : Socket)
  /-- `DELETE /v1/ingest-keys/:id`, up to the write. -/
  | revoke (userId id : JsString) (now : Nat)
  /-- The rest of the n-th of these. -/
  | sweep (n now : Nat)
  /-- Whatever else happens to the registry. -/
  | registry (e : Control.Event)

namespace Upgrades

variable (N : NodeCrypto) (D : Deps)

def init : Upgrades := ⟨⟨[], []⟩, .init, [], [], []⟩

/-- A user id of the database as the registry has it; a UUID column holds no NUL. -/
def userId? (chars : JsString) : Option UserId := if h : 0 ∉ chars then some ⟨chars, h⟩ else none

/-- The connection of the n-th upgrade. -/
def connection? (v : VerifiedIngestKey) (n : Nat) : Option ConnId :=
  (userId? v.userId).map fun userId => ⟨⟨v.id, userId⟩, n⟩

/-- Sockets are added, and keys revoked, by the routes alone; a socket that was added goes forward only. -/
def admits (s : Registry) : Control.Op → Bool
  | .add .. => false
  | .revokeKey _ => false
  | .socket c socket => (s.conns c).added && (s.conns c).socket.readyState ≤ socket.readyState
  | _ => true

def step (s : Upgrades) : UpgradeEvent → Upgrades
  | .create userId name id keyIdBytes secretBytes =>
    { s with store := s.store.step N (.create userId name id keyIdBytes secretBytes) }
  | .verify authorization =>
    match (Events.bearerCredential authorization).bind (IngestKeys.verify N s.store.rows) with
    | none => s
    | some v => { s with verified := s.verified ++ [some v] }
  | .upgraded n now socket =>
    match s.verified[n]?.join with
    | none => s
    | some v =>
      match connection? v n with
      | none => s
      | some c =>
        { s with registry := Control.step D s.registry ⟨now, .add c socket⟩, verified := s.verified.set n none }
  | .revoke userId id now =>
    if isUuid id ∧ (IngestKeys.revoke s.store.rows userId id now).2 then
      { s with store := s.store.step N (.revoke userId id now), revoking := s.revoking ++ [id] }
    else s
  | .sweep n now =>
    match s.revoking[n]? with
    | none => s
    | some id =>
      { s with
        registry := Control.step D s.registry ⟨now, .revokeKey id⟩
        revoking := s.revoking.eraseIdx n
        revoked := id :: s.revoked }
  | .registry e => if admits s.registry e.op then { s with registry := Control.step D s.registry e } else s

abbrev run (es : List UpgradeEvent) : Upgrades := runFrom (step N D) init es

/-- The key has no connection, and was sent nothing since. -/
def CutOff (id : JsString) (s t : Upgrades) : Prop :=
  (∀ c ∈ t.registry.connections, c.auth.id ≠ id) ∧ Silent (fun c => c.auth.id = id) s.registry t.registry

/-- A socket is added before the revocation of its key is answered, and then none of the key's sockets is
    open that the registry dropped without closing it. -/
def Timely (s : Upgrades) : UpgradeEvent → Prop
  | .upgraded n _ _ => ∀ v, s.verified[n]? = some (some v) → v.id ∉ s.revoked
  | .sweep n _ => ∀ id, s.revoking[n]? = some id → ∀ c, c.auth.id = id → (s.registry.conns c).added = true →
      c ∉ s.registry.connections → Control.READY_OPEN < (s.registry.conns c).socket.readyState
  | _ => True

variable {N D} {s : Upgrades}

theorem connection_auth {v : VerifiedIngestKey} {n : Nat} {c : ConnId} (h : connection? v n = some c) :
    c.auth.id = v.id := by
  obtain ⟨userId, -, rfl⟩ := Option.map_eq_some_iff.mp h
  rfl

theorem admits_add {r : Registry} {op : Control.Op} (h : admits r op = true) (c : ConnId) (x : Socket) :
    op ≠ .add c x := by
  rintro rfl
  cases h

theorem admits_socket {r : Registry} {op : Control.Op} (h : admits r op = true) {c : ConnId}
    {x : Socket} (hop : op = .socket c x) :
    (r.conns c).added = true ∧ (r.conns c).socket.readyState ≤ x.readyState := by
  subst hop
  simpa [admits] using h

/-- The registry is through with every key whose revocation was answered. -/
structure Swept (s : Upgrades) : Prop where
  unopened : Unopened s.registry
  shut : ∀ c, c.auth.id ∈ s.revoked → Shut s.registry c

theorem swept_init : Swept init := ⟨Control.unopened_init, nofun⟩

theorem swept_step {e : UpgradeEvent} (h : Swept s) (ht : Timely s e) :
    Swept (s.step N D e) ∧ Silent (fun c => c.auth.id ∈ s.revoked) s.registry (s.step N D e).registry := by
  have same : Swept s ∧ Silent (fun c => c.auth.id ∈ s.revoked) s.registry s.registry := ⟨h, .refl _⟩
  cases e with
  | create userId name id keyIdBytes secretBytes => exact ⟨⟨h.unopened, h.shut⟩, .refl _⟩
  | verify authorization =>
    unfold step
    dsimp only
    split
    · exact same
    · exact ⟨⟨h.unopened, h.shut⟩, .refl _⟩
  | upgraded n now socket =>
    unfold step
    dsimp only
    split
    · exact same
    · rename_i v hv
      split
      · exact same
      · rename_i c hc
        have hlate : c.auth.id ∉ s.revoked := connection_auth hc ▸ ht v (Option.join_eq_some_iff.mp hv)
        obtain ⟨hshut, hsilent⟩ := Control.stillShut_step (D := D) (e := ⟨now, .add c socket⟩)
          (Q := fun c => c.auth.id ∈ s.revoked) (fun d x hop => by cases hop; exact hlate) nofun h.shut
        exact ⟨⟨Control.unopened_step nofun h.unopened, hshut⟩, hsilent⟩
  | revoke userId id now =>
    unfold step
    dsimp only
    split
    · exact ⟨⟨h.unopened, h.shut⟩, .refl _⟩
    · exact same
  | sweep n now =>
    unfold step
    dsimp only
    split
    · exact same
    · rename_i id hid
      obtain ⟨hshut, hsilent⟩ := Control.stillShut_step (D := D) (e := ⟨now, .revokeKey id⟩)
        (Q := fun c => c.auth.id ∈ s.revoked) nofun nofun h.shut
      refine ⟨⟨Control.unopened_step nofun h.unopened, fun c hc => ?_⟩, hsilent⟩
      rcases List.mem_cons.mp hc with hc | hc
      · have hrevoked := Control.revokeKey_shut (D := D) (s := { s.registry with nowMs := now }) h.unopened
          (ht id hid) hc
        exact hrevoked.congr (fun _ hm => hm) rfl
      · exact hshut c hc
  | registry e =>
    unfold step
    dsimp only
    split
    · rename_i hadmits
      obtain ⟨hshut, hsilent⟩ := Control.stillShut_step (D := D) (e := e) (Q := fun c => c.auth.id ∈ s.revoked)
        (fun c x hop => absurd hop (admits_add hadmits c x))
        (fun c x hop hq => Nat.lt_of_lt_of_le ((h.shut c hq).closing (admits_socket hadmits hop).1)
          (admits_socket hadmits hop).2)
        h.shut
      exact ⟨⟨Control.unopened_step (fun c x hop => (admits_socket hadmits hop).1) h.unopened, hshut⟩, hsilent⟩
    · exact same

theorem revoked_step (s : Upgrades) (e : UpgradeEvent) {id : JsString} (h : id ∈ s.revoked) :
    id ∈ (s.step N D e).revoked := by
  unfold step
  split <;> (try split) <;> (try split) <;> simp [h]

/-- From the answer to a key's revocation on, the key stays cut off. -/
theorem cutOff_run {es : List UpgradeEvent} {id : JsString} (h : Swept s) (hid : id ∈ s.revoked)
    (ht : Along (step N D) Timely s es) : CutOff id s (runFrom (step N D) s es) := by
  have hrun : Swept (runFrom (step N D) s es) ∧ id ∈ (runFrom (step N D) s es).revoked ∧
      Silent (fun c => c.auth.id = id) s.registry (runFrom (step N D) s es).registry := by
    refine ht.inv (I := fun t => Swept t ∧ id ∈ t.revoked ∧ Silent (fun c => c.auth.id = id) s.registry t.registry)
      (fun t e hi he => ?_) ⟨h, hid, .refl _⟩
    obtain ⟨hswept, hrevoked, hsilent⟩ := hi
    obtain ⟨hswept', later, htrace, hnone⟩ := @swept_step N D t e hswept he
    refine ⟨hswept', revoked_step t e hrevoked, hsilent.trans ⟨later, htrace, fun c m hc => ?_⟩⟩
    refine hnone c m ?_
    show c.auth.id ∈ t.revoked
    rw [show c.auth.id = id from hc]
    exact hrevoked
  obtain ⟨hswept, hrevoked, hsilent⟩ := hrun
  exact ⟨fun c hc he => (hswept.shut c (he ▸ hrevoked)).gone hc, hsilent⟩

/-- The key has its row, and the row is revoked. -/
def Revoked (rows : List IngestKeys.IngestKeyRow) (id : JsString) : Prop :=
  (∃ r ∈ rows, r.id = id) ∧ ∀ r ∈ rows, r.id = id → r.revokedAt ≠ none

theorem revoked_store {store : Store} {id : JsString} (h : Revoked store.rows id) (e : IngestKeys.Request) :
    Revoked (store.step N e).rows id := by
  obtain ⟨⟨r, hr, hid⟩, hall⟩ := h
  cases e with
  | create userId name newId keyIdBytes secretBytes =>
    simp only [Store.step]
    split
    · exact ⟨⟨r, hr, hid⟩, hall⟩
    · rename_i rows hinsert
      unfold IngestKeys.insert at hinsert
      split at hinsert
      · cases hinsert
      · rename_i hfresh
        cases hinsert
        simp only [List.any_eq_true, Bool.or_eq_true, beq_iff_eq, not_exists, not_and, not_or] at hfresh
        refine ⟨⟨r, List.mem_append_left _ hr, hid⟩, fun r' hr' hid' => ?_⟩
        rcases List.mem_append.mp hr' with hr' | hr'
        · exact hall r' hr' hid'
        · obtain rfl := List.mem_singleton.mp hr'
          exact absurd (hid.trans hid'.symm) (hfresh r hr).1
  | revoke userId revokedId now =>
    simp only [Store.step, IngestKeys.revoke]
    refine ⟨⟨_, List.mem_map_of_mem hr, ?_⟩, fun r' hr' hid' => ?_⟩
    · split <;> exact hid
    · obtain ⟨r'', hr'', rfl⟩ := List.mem_map.mp hr'
      by_cases hrevokes : IngestKeys.revokes userId revokedId r'' = true
      · rw [if_pos hrevokes]
        rintro ⟨⟩
      · rw [if_neg hrevokes] at hid' ⊢
        exact hall r'' hr'' hid'

/-- A `revoke` that answers `true` has revoked the key. -/
theorem revoked_revoke {store : Store} (hs : IngestKeys.Kept N store) {userId id : JsString} {now : Nat}
    (h : (IngestKeys.revoke store.rows userId id now).2 = true) :
    Revoked (store.step N (.revoke userId id now)).rows id := by
  obtain ⟨r, hr, hrevokes⟩ := List.any_eq_true.mp h
  have hid : r.id = id := by
    simp only [IngestKeys.revokes, Bool.and_eq_true, beq_iff_eq] at hrevokes
    exact hrevokes.1.1
  simp only [Store.step, IngestKeys.revoke]
  refine ⟨⟨_, List.mem_map_of_mem hr, by rw [if_pos hrevokes]; exact hid⟩, fun r' hr' hid' => ?_⟩
  obtain ⟨r'', hr'', rfl⟩ := List.mem_map.mp hr'
  by_cases hrevokes' : IngestKeys.revokes userId id r'' = true
  · rw [if_pos hrevokes']
    rintro ⟨⟩
  · rw [if_neg hrevokes'] at hid'
    have hsame : r'' = r := List.inj_on_of_nodup_map hs.ids hr'' hr (hid'.trans hid.symm)
    exact absurd hrevokes (hsame ▸ hrevokes')

structure Written (N : NodeCrypto) (s : Upgrades) : Prop where
  kept : IngestKeys.Kept N s.store
  revoked : ∀ id, id ∈ s.revoking ∨ id ∈ s.revoked → Revoked s.store.rows id

theorem written_step (h : Written N s) (e : UpgradeEvent) : Written N (s.step N D e) := by
  cases e with
  | create userId name id keyIdBytes secretBytes =>
    exact ⟨IngestKeys.kept_step h.kept (.create userId name id keyIdBytes secretBytes),
      fun k hk => @revoked_store N _ _ (h.revoked k hk) (.create userId name id keyIdBytes secretBytes)⟩
  | verify authorization =>
    unfold step
    dsimp only
    split
    · exact h
    · exact ⟨h.kept, h.revoked⟩
  | upgraded n now socket =>
    unfold step
    dsimp only
    split
    · exact h
    · split
      · exact h
      · exact ⟨h.kept, h.revoked⟩
  | revoke userId id now =>
    unfold step
    dsimp only
    split
    · rename_i hrevoke
      refine ⟨IngestKeys.kept_step h.kept (.revoke userId id now), fun k hk => ?_⟩
      rw [List.mem_append, List.mem_singleton] at hk
      rcases hk with (hk | rfl) | hk
      · exact @revoked_store N _ _ (h.revoked k (Or.inl hk)) (.revoke userId id now)
      · exact revoked_revoke h.kept hrevoke.2
      · exact @revoked_store N _ _ (h.revoked k (Or.inr hk)) (.revoke userId id now)
    · exact h
  | sweep n now =>
    unfold step
    dsimp only
    split
    · exact h
    · rename_i id hid
      refine ⟨h.kept, fun k hk => h.revoked k ?_⟩
      rcases hk with hk | hk
      · exact Or.inl (List.mem_of_mem_eraseIdx hk)
      · rcases List.mem_cons.mp hk with rfl | hk
        · exact Or.inl (List.mem_of_getElem? hid)
        · exact Or.inr hk
  | registry e =>
    unfold step
    dsimp only
    split
    · exact ⟨h.kept, h.revoked⟩
    · exact h

/-- Once its revocation is written, a key verifies no upgrade: only those verified before can come late. -/
theorem no_upgrade_once_revoked (es : List UpgradeEvent) {id : JsString}
    (h : id ∈ (run N D es).revoking ∨ id ∈ (run N D es).revoked) {credential : JsString} {v : VerifiedIngestKey}
    (hv : IngestKeys.verify N (run N D es).store.rows credential = some v) : v.id ≠ id := by
  have hw : Written N (run N D es) := runFrom_inv (I := Written N) (fun _ e h => written_step h e)
    ⟨IngestKeys.kept_nil, by simp [init]⟩ es
  rintro rfl
  unfold IngestKeys.verify at hv
  split at hv
  · cases hv
  · split at hv
    · cases hv
    · dsimp only at hv
      split at hv
      · cases hv
      · rename_i active hactive
        split at hv
        · cases hv
          obtain ⟨hmem, -, hnone⟩ := (IngestKeys.findActive_iff hw.kept).mp hactive
          exact (hw.revoked _ h).2 active hmem rfl hnone
        · cases hv

/-! ## Two runs -/

/-- A connection the registry was given is of an upgrade. -/
theorem added_upgraded {e : UpgradeEvent} {c : ConnId} (h : ((s.step N D e).registry.conns c).added = true) :
    (s.registry.conns c).added = true ∨
      ∃ n now socket v, e = .upgraded n now socket ∧ s.verified[n]? = some (some v) ∧ connection? v n = some c := by
  cases e with
  | create userId name id keyIdBytes secretBytes => exact Or.inl h
  | verify authorization =>
    unfold step at h
    dsimp only at h
    split at h <;> exact Or.inl h
  | upgraded n now socket =>
    unfold step at h
    dsimp only at h
    split at h
    · exact Or.inl h
    · rename_i v hv
      split at h
      · exact Or.inl h
      · rename_i d hd
        rcases Control.added_step h with h | ⟨x, hop⟩
        · exact Or.inl h
        · cases hop
          exact Or.inr ⟨n, now, socket, v, rfl, Option.join_eq_some_iff.mp hv, hd⟩
  | revoke userId id now =>
    unfold step at h
    dsimp only at h
    split at h <;> exact Or.inl h
  | sweep n now =>
    unfold step at h
    dsimp only at h
    split at h
    · exact Or.inl h
    · rcases Control.added_step h with h | ⟨x, hop⟩
      · exact Or.inl h
      · cases hop
  | registry e =>
    unfold step at h
    dsimp only at h
    split at h
    · rename_i hadmits
      rcases Control.added_step h with h | ⟨x, hop⟩
      · exact Or.inl h
      · exact absurd hop (admits_add hadmits c x)
    · exact Or.inl h

def laptop : JsString := js "30000000-0000-4000-8000-000000000000"

/-- Alice makes a key, and her plugin's upgrade is verified. -/
def verifiedUpgrade : List UpgradeEvent :=
  [.create Control.alice.chars (js "laptop") laptop (Vector.replicate _ 0) (Vector.replicate _ 0),
    .verify (some (js "Bearer " ++ Events.zeroKey.credential))]

/-- The connection of that upgrade. -/
def laptopPlugin : ConnId := ⟨⟨laptop, Control.alice⟩, 0⟩

/-- The upgrade is through, the plugin registers and is asked for its pending interactions. -/
def registeredUpgrade : List UpgradeEvent :=
  verifiedUpgrade ++ [.upgraded 0 1 Control.openSocket] ++
    [.registry ⟨2, .frame laptopPlugin (some (.register (Control.sampleRegistration Control.instance1)))⟩] ++
    [.registry ⟨3, .collectPendingInteractions Control.alice fun _ => js "request"⟩]

/-- She revokes the key. -/
def revocation : List UpgradeEvent := [.revoke Control.alice.chars laptop 4, .sweep 0 5]

/-- The plugin's last frame, another request for pending interactions, and the end of the socket. -/
def lateFrames : List UpgradeEvent :=
  [.registry ⟨6, .frame laptopPlugin (some (.pendingSnapshotResponse (js "request") Control.instance1 []))⟩,
    .registry ⟨7, .collectPendingInteractions Control.alice fun _ => js "again"⟩, .registry ⟨8, .close laptopPlugin⟩]

theorem verify_registry (s : Upgrades) (authorization : Option JsString) :
    (s.step N D (.verify authorization)).registry = s.registry := by
  unfold step
  dsimp only
  split <;> rfl

theorem revoke_registry (s : Upgrades) (userId id : JsString) (now : Nat) :
    (s.step N D (.revoke userId id now)).registry = s.registry := by
  unfold step
  dsimp only
  split <;> rfl

theorem run_snoc (es : List UpgradeEvent) (e : UpgradeEvent) : run N D (es ++ [e]) = (run N D es).step N D e :=
  runFrom_append ..

theorem verifiedUpgrade_verified : (run Events.zeroCrypto Control.sampleDeps verifiedUpgrade).verified =
    [some ⟨laptop, Control.alice.chars, Events.zeroKey.keyId⟩] := by decide +kernel

theorem verifiedUpgrade_registry : (run Events.zeroCrypto Control.sampleDeps verifiedUpgrade).registry = .init := by
  unfold verifiedUpgrade
  rw [run, runFrom_cons, runFrom_cons, runFrom_nil, verify_registry]
  rfl

theorem connection_laptop : connection? ⟨laptop, Control.alice.chars, Events.zeroKey.keyId⟩ 0 = some laptopPlugin := by
  decide +kernel

/-- Before the revocation the upgrade's connection is the only one. -/
theorem added_registeredUpgrade {c : ConnId}
    (h : ((run Events.zeroCrypto Control.sampleDeps registeredUpgrade).registry.conns c).added = true) :
    c = laptopPlugin := by
  unfold registeredUpgrade at h
  rw [run_snoc] at h
  rcases added_upgraded h with h | ⟨n, now, socket, v, he, -⟩
  · rw [run_snoc] at h
    rcases added_upgraded h with h | ⟨n, now, socket, v, he, -⟩
    · rw [run_snoc] at h
      rcases added_upgraded h with h | ⟨n, now, socket, v, he, hv, hc⟩
      · rw [verifiedUpgrade_registry] at h
        cases h
      · cases he
        rw [verifiedUpgrade_verified] at hv
        cases hv
        exact Option.some.inj (hc.symm.trans connection_laptop)
    · cases he
  · cases he

/-- She revokes the key before the upgrade is through. -/
def revokedUpgrade : List UpgradeEvent := verifiedUpgrade ++ revocation

/-- Then it is, and the plugin registers. -/
def upgradeLate : List UpgradeEvent :=
  [.upgraded 0 5 Control.openSocket,
    .registry ⟨6, .frame laptopPlugin (some (.register (Control.sampleRegistration Control.instance1)))⟩]

end Upgrades

end NotifyHub.Link
