/-
  NotifyHub.Control.Tenants — one user's part of a registry.

  All users share the maps of the registry, and the two counters. `Agree u s t` says
  that two registries have the same part of `u`: their own connections, records,
  locks, pending entries, tunnels, collections, and what they have seen, up to the
  sequences of the records and the uids of the connections. `Sound` is what the code
  relies on to tell the parts apart: a record rests on a connection of its user, the
  records stand in the order of their sequences, and a pending entry is under the key
  of its own connection and id.

  `Twin u z s t` is the step law the operations are shown to keep (Control/Isolation):
  what `u` does reads and writes `u`'s part alone. `s` and `t` start with the same part
  of `u` and keep it; `z`, where `s` started, still agrees with it for everyone else.
-/

import NotifyHub.Control.Moves

namespace NotifyHub.Control

variable {D : Deps}

/-! ## One user's part -/

def InstanceRecord.unranked (r : InstanceRecord) : InstanceRecord := { r with sequence := 0 }

def ControlConnection.bare (x : ControlConnection) : ControlConnection := { x with uid := 0 }

/-- Who sees the effect. What the outcome cache answers is left out. -/
def Effect.user : Effect → Option UserId
  | .sent c _ | .closed c _ _ | .terminated c | .pinged c => some c.user
  | .clientSent w _ | .clientClosed w _ _ | .clientTerminated w | .clientPinged w => some w.userId
  | .published u _ | .catalog u _ _ | .collected u _ | .replied u _ _ | .forgotten u _ _ | .threw u _ => some u
  | .outcome .. => none

def ownRecords (u : UserId) (records : OMap JsString InstanceRecord) : OMap JsString InstanceRecord :=
  (records.filter fun _ r => r.userId = u).map InstanceRecord.unranked

/-- The entries of a user's connections. -/
def ownEntries {α : Type} (connection : α → ConnId) (u : UserId) (m : OMap JsString α) : List α :=
  m.values.filter fun x => (connection x).user = u

/-- The same part of a user in both. -/
structure Agree (u : UserId) (s t : Registry) : Prop where
  nowMs : s.nowMs = t.nowMs
  conns : ∀ c : ConnId, c.user = u → (s.conns c).bare = (t.conns c).bare
  clients : ∀ w : ClientId, w.userId = u → s.clients w = t.clients w
  records : ownRecords u s.records = ownRecords u t.records
  ownership : ∀ place, s.ownership.get (joinNul u.chars place) = t.ownership.get (joinNul u.chars place)
  connections : s.connections.filter (·.user = u) = t.connections.filter (·.user = u)
  requests : ownEntries (·.connection) u s.pendingRequests = ownEntries (·.connection) u t.pendingRequests
  commands : ∀ k, ownEntries (·.connection) u (s.commands k) = ownEntries (·.connection) u (t.commands k)
  prompts : ownEntries (·.connection) u s.pendingPromptCommands = ownEntries (·.connection) u t.pendingPromptCommands
  catalogs : s.catalogRequests.filter (fun _ p => p.connection.user = u) =
    t.catalogRequests.filter (fun _ p => p.connection.user = u)
  tunnels : s.webUiTunnels.filter (fun _ w => w.userId = u) = t.webUiTunnels.filter (fun _ w => w.userId = u)
  collections : s.collections.filter (·.userId = u) = t.collections.filter (·.userId = u)
  trace : s.trace.filter (·.user = some u) = t.trace.filter (·.user = some u)

theorem Agree.refl (u : UserId) (s : Registry) : Agree u s s :=
  ⟨rfl, fun _ _ => rfl, fun _ _ => rfl, rfl, fun _ => rfl, rfl, rfl, fun _ => rfl, rfl, rfl, rfl, rfl, rfl⟩

theorem Agree.symm {u : UserId} {s t : Registry} (h : Agree u s t) : Agree u t s :=
  ⟨h.nowMs.symm, fun c hc => (h.conns c hc).symm, fun w hw => (h.clients w hw).symm, h.records.symm,
    fun p => (h.ownership p).symm, h.connections.symm, h.requests.symm, fun k => (h.commands k).symm, h.prompts.symm,
    h.catalogs.symm, h.tunnels.symm, h.collections.symm, h.trace.symm⟩

theorem Agree.trans {u : UserId} {r s t : Registry} (h : Agree u r s) (g : Agree u s t) : Agree u r t :=
  ⟨h.nowMs.trans g.nowMs, fun c hc => (h.conns c hc).trans (g.conns c hc),
    fun w hw => (h.clients w hw).trans (g.clients w hw), h.records.trans g.records,
    fun p => (h.ownership p).trans (g.ownership p), h.connections.trans g.connections, h.requests.trans g.requests,
    fun k => (h.commands k).trans (g.commands k), h.prompts.trans g.prompts, h.catalogs.trans g.catalogs,
    h.tunnels.trans g.tunnels, h.collections.trans g.collections, h.trace.trans g.trace⟩

/-! ## What keeps the parts apart -/

/-- Every entry is under the key of its connection and its id. -/
def Named {α : Type} (conns : ConnId → ControlConnection) (connection : α → ConnId) (name : α → JsString)
    (m : OMap JsString α) : Prop :=
  ∀ key p, m.get key = some p →
    key = joinNul (decimal (conns (connection p)).uid) (name p) ∧ (conns (connection p)).added = true

/-- Connections have their own uids. -/
structure Distinct (conns : ConnId → ControlConnection) (nextConnectionUid : Nat) : Prop where
  below : ∀ c, (conns c).added = true → (conns c).uid < nextConnectionUid
  inj : ∀ c d, (conns c).added = true → (conns d).added = true → (conns c).uid = (conns d).uid → c = d

/-- The records, each under its key, in the order of their sequences, on connections of their users. -/
structure Filed (conns : ConnId → ControlConnection) (records : OMap JsString InstanceRecord) (nextSequence : Nat) :
    Prop where
  keyed : ∀ k r, records.get k = some r → k = recordKey r.userId r.registration.instanceId
  seated : ∀ k r c, records.get k = some r → r.connection = some c → c.user = r.userId ∧ (conns c).added = true
  ranked : (records.values.map (·.sequence)).Pairwise (· < ·)
  below : ∀ n ∈ records.values.map (·.sequence), n < nextSequence

structure Sound (s : Registry) : Prop where
  distinct : Distinct s.conns s.nextConnectionUid
  filed : Filed s.conns s.records s.nextSequence
  joined : ∀ c ∈ s.connections, (s.conns c).added = true
  requests : Named s.conns (·.connection) (·.requestId) s.pendingRequests
  commands : ∀ k, Named s.conns (·.connection) (·.commandId) (s.commands k)
  prompts : Named s.conns (·.connection) (·.commandId) s.pendingPromptCommands
  batches : ∀ q ∈ s.collections, ∀ b ∈ q.batches, b.connection.user = q.userId
  tunnels : ∀ w tunnel, (s.clients w).tunnel = some tunnel → tunnel.connection.user = w.userId

theorem sound_init : Sound .init := by
  refine ⟨⟨fun _ h => ?_, fun _ _ h => ?_⟩, ⟨nofun, nofun, List.Pairwise.nil, nofun⟩, nofun,
    nofun, ?_, nofun, nofun, nofun⟩
  · cases h
  · cases h
  · intro k; cases k <;> exact nofun

structure Twin (u : UserId) (z s t : Registry) : Prop where
  left : Sound s
  right : Sound t
  own : Agree u s t
  others : ∀ v, v ≠ u → Agree v z s

/-- What the next writes keep. -/
theorem Twin.next {u : UserId} {z s t s' t' : Registry} (h : Twin u z s t) (hs : Sound s') (ht : Sound t')
    (hown : Agree u s' t') (hothers : ∀ v, v ≠ u → Agree v s s') : Twin u z s' t' :=
  ⟨hs, ht, hown, fun v hv => (h.others v hv).trans (hothers v hv)⟩

/-! ## Entries under the key of their connection -/

namespace Named

variable {α : Type} {conns conns' : ConnId → ControlConnection} {connection : α → ConnId} {name : α → JsString}
  {m : OMap JsString α} {n : Nat}

theorem filter (h : Named conns connection name m) (p : JsString → α → Bool) :
    Named conns connection name (m.filter p) := by
  intro key x hx
  rw [OMap.get_filter] at hx
  exact h key x (Option.filter_eq_some_iff.mp hx).1

theorem delete (h : Named conns connection name m) (key : JsString) : Named conns connection name (m.delete key) :=
  h.filter _

theorem set (h : Named conns connection name m) {c : ConnId} {id : JsString} {x : α} (hc : connection x = c)
    (hid : name x = id)
    (ha : (conns c).added = true) : Named conns connection name (m.set (joinNul (decimal (conns c).uid) id) x) := by
  intro key y hy
  rw [OMap.get_set] at hy
  split at hy
  · rename_i hk
    cases hy
    rw [hc, hid]
    exact ⟨hk, ha⟩
  · exact h key y hy

theorem mono (h : Named conns connection name m)
    (hc : ∀ c, (conns c).added = true → (conns' c).added = true ∧ (conns' c).uid = (conns c).uid) :
    Named conns' connection name m := by
  intro key x hx
  obtain ⟨hk, ha⟩ := h key x hx
  obtain ⟨ha', hu⟩ := hc _ ha
  exact ⟨hu ▸ hk, ha'⟩

/-- The key of an added connection and an id finds the entry of that connection and id. -/
theorem names (h : Named conns connection name m) (hd : Distinct conns n) {c : ConnId} (ha : (conns c).added = true)
    (id : JsString) : m.Names (joinNul (decimal (conns c).uid) id) fun x => connection x = c ∧ name x = id := by
  intro key x hx
  obtain ⟨rfl, hx'⟩ := h key x hx
  rw [decide_eq_true_iff]
  constructor
  · intro he
    obtain ⟨hu, hid⟩ := joinNul_inj (nul_not_mem_decimal _) (nul_not_mem_decimal _) he
    exact ⟨hd.inj _ _ hx' ha (decimal_inj hu), hid⟩
  · rintro ⟨rfl, rfl⟩; rfl

/-- An entry of another user is not under the key of a connection of `u`. -/
theorem of_get (h : Named conns connection name m) (hd : Distinct conns n) {c : ConnId} (ha : (conns c).added = true)
    {id : JsString} {x : α} (hx : m.get (joinNul (decimal (conns c).uid) id) = some x) :
    connection x = c ∧ name x = id := by
  have := (h.names hd ha id _ x hx).mp rfl
  simpa using this

end Named

/-- Reading the entry of an own connection. -/
theorem get_own {α : Type} {connsS connsT : ConnId → ControlConnection} {connection : α → ConnId} {name : α → JsString}
    {m m' : OMap JsString α} {n n' : Nat} {c : ConnId} (h : Named connsS connection name m)
    (h' : Named connsT connection name m') (hd : Distinct connsS n) (hd' : Distinct connsT n')
    (ha : (connsS c).added = true) (ha' : (connsT c).added = true)
    (hown : ownEntries connection c.user m = ownEntries connection c.user m') (id : JsString) :
    m.get (joinNul (decimal (connsS c).uid) id) = m'.get (joinNul (decimal (connsT c).uid) id) := by
  have hfind : ∀ l : List α, l.find? (fun x => connection x = c ∧ name x = id) =
      (l.filter fun x => (connection x).user = c.user).find? (fun x => connection x = c ∧ name x = id) := by
    intro l
    rw [List.find?_filter]
    refine List.find?_congr fun x _ => ?_
    simp only [decide_eq_true_eq, decide_eq_decide]
    constructor
    · exact fun hx => ⟨by rw [hx.1], hx⟩
    · exact fun hx => hx.2
  rw [(h.names hd ha id).get, (h'.names hd' ha' id).get, hfind, ← ownEntries, hown, ownEntries, ← hfind]

/-- The values of `u` after a write to the entry of a connection. -/
theorem values_set {α : Type} {conns : ConnId → ControlConnection} {connection : α → ConnId} {name : α → JsString}
    {m : OMap JsString α} {n : Nat} {c : ConnId} {id : JsString} {x : α} (h : Named conns connection name m)
    (hd : Distinct conns n) (ha : (conns c).added = true) (hc : connection x = c) (u : UserId) :
    ownEntries connection u (m.set (joinNul (decimal (conns c).uid) id) x) =
      if c.user = u then OMap.upsert (fun x => connection x = c ∧ name x = id) x (ownEntries connection u m)
      else ownEntries connection u m := by
  unfold ownEntries
  rw [(h.names hd ha id).set]
  split
  · rename_i hu
    refine OMap.filter_upsert_of_pos (by simp [hc, hu]) fun y hy => ?_
    simp only [decide_eq_true_eq] at hy ⊢
    rw [hy.1]; exact hu
  · rename_i hu
    refine OMap.filter_upsert_of_neg (by simp [hc, hu]) fun y hy => ?_
    simp only [decide_eq_true_eq, decide_eq_false_iff_not] at hy ⊢
    rw [hy.1]; exact hu

theorem values_delete {α : Type} {conns : ConnId → ControlConnection} {connection : α → ConnId} {name : α → JsString}
    {m : OMap JsString α} {n : Nat} {c : ConnId} (h : Named conns connection name m) (hd : Distinct conns n)
    (ha : (conns c).added = true) (id : JsString) (u : UserId) :
    ownEntries connection u (m.delete (joinNul (decimal (conns c).uid) id)) =
      (ownEntries connection u m).filter fun x => !decide (connection x = c ∧ name x = id) := by
  unfold ownEntries
  rw [(h.names hd ha id).delete, List.filter_comm]

/-! ## Reading an own part -/

namespace Agree

variable {u : UserId} {s t : Registry}

theorem bare_iff {x y : ControlConnection} : x.bare = y.bare ↔
    x.added = y.added ∧ x.socket = y.socket ∧ x.alive = y.alive ∧ x.instanceId = y.instanceId := by
  cases x; cases y
  simp [ControlConnection.bare]

theorem added (h : Agree u s t) {c : ConnId} (hc : c.user = u) : (t.conns c).added = (s.conns c).added :=
  (bare_iff.mp (h.conns c hc)).1.symm

theorem socket (h : Agree u s t) {c : ConnId} (hc : c.user = u) : (t.conns c).socket = (s.conns c).socket :=
  (bare_iff.mp (h.conns c hc)).2.1.symm

theorem alive (h : Agree u s t) {c : ConnId} (hc : c.user = u) : (t.conns c).alive = (s.conns c).alive :=
  (bare_iff.mp (h.conns c hc)).2.2.1.symm

theorem instanceId (h : Agree u s t) {c : ConnId} (hc : c.user = u) : (t.conns c).instanceId = (s.conns c).instanceId :=
  (bare_iff.mp (h.conns c hc)).2.2.2.symm

theorem mem_connections (h : Agree u s t) {c : ConnId} (hc : c.user = u) : c ∈ t.connections ↔ c ∈ s.connections := by
  have hmem := congrArg (c ∈ ·) h.connections
  simpa [hc] using hmem.symm

theorem owner (h : Agree u s t) (r : RegisterMessage) :
    t.ownership.get (ownershipKey D u r) = s.ownership.get (ownershipKey D u r) := (h.ownership _).symm

end Agree

theorem unranked_eq {r r' : InstanceRecord} : r.unranked = r'.unranked ↔ ∃ n, r' = { r with sequence := n } := by
  constructor
  · intro h
    refine ⟨r'.sequence, ?_⟩
    cases r; cases r'
    simp only [InstanceRecord.unranked, InstanceRecord.mk.injEq, true_and] at h ⊢
    exact ⟨h.1.symm, h.2.1.symm, h.2.2.1.symm, h.2.2.2.1.symm, h.2.2.2.2.1.symm, h.2.2.2.2.2.1.symm, h.2.2.2.2.2.2.symm⟩
  · rintro ⟨n, rfl⟩; rfl

/-- No record of `u`, or the same one in both registries. -/
def Same (u : UserId) (x y : Option InstanceRecord) : Prop :=
  (x = none ∧ y = none) ∨ ∃ r n, r.userId = u ∧ x = some r ∧ y = some { r with sequence := n }

theorem same_of_map {u : UserId} {x y : Option InstanceRecord}
    (h : x.map InstanceRecord.unranked = y.map InstanceRecord.unranked)
    (hu : ∀ r, x = some r → r.userId = u) : Same u x y := by
  cases x with
  | none =>
    cases y with
    | none => exact Or.inl ⟨rfl, rfl⟩
    | some r' => cases h
  | some r =>
    cases y with
    | none => cases h
    | some r' =>
      obtain ⟨n, rfl⟩ := unranked_eq.mp (Option.some.inj h)
      exact Or.inr ⟨r, n, hu r rfl, rfl, rfl⟩

theorem Filed.user {conns : ConnId → ControlConnection} {records : OMap JsString InstanceRecord} {n : Nat}
    (h : Filed conns records n) {u : UserId} {id : JsString} {r : InstanceRecord}
    (hr : records.get (recordKey u id) = some r) : r.userId = u ∧ r.registration.instanceId = id := by
  obtain ⟨hu, hid⟩ := recordKey_inj (h.keyed _ _ hr)
  exact ⟨hu.symm, hid.symm⟩

theorem get_ownRecords {s : Registry} (hs : Sound s) (u : UserId) (id : JsString) :
    (ownRecords u s.records).get (recordKey u id) = (s.records.get (recordKey u id)).map InstanceRecord.unranked := by
  rw [ownRecords, OMap.get_map, OMap.get_filter]
  cases hg : s.records.get (recordKey u id) with
  | none => rfl
  | some r => simp [(hs.filed.user hg).1]

/-- The own records that meet a condition which does not read the sequence. -/
theorem filter_ownRecords {u : UserId} (s : Registry) {p : InstanceRecord → Bool} (hp : ∀ r, p r = true → r.userId = u)
    (hrank : ∀ r n, p { r with sequence := n } = p r) :
    (s.records.values.filter p).map InstanceRecord.unranked = (ownRecords u s.records).values.filter p := by
  rw [ownRecords, OMap.values_map, List.filter_map, OMap.values, OMap.values, OMap.entries_filter, List.filter_map,
    List.filter_map, List.filter_filter]
  refine congrArg (List.map _) (congrArg (List.map _) (List.filter_congr fun e _ => ?_))
  simp only [Function.comp_apply, InstanceRecord.unranked, hrank]
  by_cases hu : p e.2 = true
  · simp [hu, hp _ hu]
  · simp [hu]

namespace Twin

variable {u : UserId} {z s t : Registry}

theorem record (h : Twin u z s t) (id : JsString) : Same u (s.records.get (recordKey u id))
    (t.records.get (recordKey u id)) := by
  refine same_of_map ?_ fun r hr => (h.left.filed.user hr).1
  rw [← get_ownRecords h.left, h.own.records, get_ownRecords h.right]

theorem recordOn (h : Twin u z s t) {c : ConnId} (hc : c.user = u) : Same u (recordOn s c) (recordOn t c) := by
  unfold Control.recordOn
  rw [h.own.instanceId hc, hc]
  cases (s.conns c).instanceId with
  | none => exact Or.inl ⟨rfl, rfl⟩
  | some id =>
    simp only [Option.bind_eq_bind, Option.bind_some]
    rcases h.record id with ⟨hs, ht⟩ | ⟨r, n, hr, hs, ht⟩ <;> rw [hs, ht]
    · exact Or.inl ⟨rfl, rfl⟩
    · simp only [Option.bind_some]
      split
      · exact Or.inr ⟨r, n, hr, rfl, rfl⟩
      · exact Or.inl ⟨rfl, rfl⟩

/-- The same own records meet the same condition. -/
theorem filterRecords (h : Twin u z s t) {p q : InstanceRecord → Bool} (hp : ∀ r, p r = true → r.userId = u)
    (hq : ∀ r, q r = true → r.userId = u) (hp' : ∀ r n, p { r with sequence := n } = p r)
    (hq' : ∀ r n, q { r with sequence := n } = q r)
    (hpq : ∀ r, r.userId = u → (∀ c, r.connection = some c → c.user = u) → p r = q r) :
    (s.records.values.filter p).map InstanceRecord.unranked =
      (t.records.values.filter q).map InstanceRecord.unranked := by
  rw [filter_ownRecords s hp hp', filter_ownRecords t hq hq', h.own.records]
  refine List.filter_congr fun r hr => ?_
  rw [ownRecords, OMap.values_map] at hr
  obtain ⟨r', hr', rfl⟩ := List.mem_map.mp hr
  obtain ⟨k, hk⟩ := OMap.mem_values.mp hr'
  rw [OMap.get_filter, Option.filter_eq_some_iff, decide_eq_true_iff] at hk
  exact hpq _ hk.2 fun c hc => (h.right.filed.seated k r' c hk.1 hc).1.trans hk.2

end Twin

/-! ## Writing an own part -/

namespace Filed

variable {conns conns' : ConnId → ControlConnection} {records : OMap JsString InstanceRecord} {n : Nat}

theorem mono (h : Filed conns records n) (hc : ∀ c, (conns c).added = true → (conns' c).added = true) :
    Filed conns' records n :=
  { h with seated := fun k r c hr he => ⟨(h.seated k r c hr he).1, hc _ (h.seated k r c hr he).2⟩ }

theorem filter (h : Filed conns records n) (p : JsString → InstanceRecord → Bool) :
    Filed conns (records.filter p) n := by
  have hsub : ∀ k r, (records.filter p).get k = some r → records.get k = some r := fun k r hr => by
    rw [OMap.get_filter] at hr; exact (Option.filter_eq_some_iff.mp hr).1
  exact ⟨fun k r hr => h.keyed k r (hsub k r hr), fun k r c hr => h.seated k r c (hsub k r hr),
    h.ranked.sublist ((List.filter_sublist.map _).map _),
    fun m hm => h.below m (List.map_subset _ OMap.values_filter_subset hm)⟩

theorem set (h : Filed conns records n) {n' : Nat} {r : InstanceRecord}
    (hc : ∀ c, r.connection = some c → c.user = r.userId ∧ (conns c).added = true)
    (hranked : (((records.set (recordKey r.userId r.registration.instanceId) r).values.map (·.sequence)).Pairwise
      (· < ·)))
    (hbelow : ∀ m ∈ (records.set (recordKey r.userId r.registration.instanceId) r).values.map (·.sequence), m < n') :
    Filed conns (records.set (recordKey r.userId r.registration.instanceId) r) n' := by
  refine ⟨fun k x hx => ?_, fun k x c hx hxc => ?_, hranked, hbelow⟩ <;> rw [OMap.get_set] at hx <;> split at hx
  · rename_i hk; cases hx; exact hk
  · exact h.keyed k x hx
  · cases hx; exact hc c hxc
  · exact h.seated k x c hx hxc

/-- A record of the same instance and place. -/
theorem replace (h : Filed conns records n) {k : JsString} {r x : InstanceRecord} (hr : records.get k = some r)
    (hu : x.userId = r.userId) (hid : x.registration.instanceId = r.registration.instanceId)
    (hseq : x.sequence = r.sequence) (hc : ∀ c, x.connection = some c → c.user = x.userId ∧ (conns c).added = true) :
    Filed conns (records.set (recordKey x.userId x.registration.instanceId) x) n := by
  have hkey : records.get (recordKey x.userId x.registration.instanceId) = some r := by
    rw [hu, hid, ← h.keyed k r hr]; exact hr
  have hvalues := OMap.map_values_set (·.sequence) hkey hseq
  exact h.set hc (hvalues ▸ h.ranked) (hvalues ▸ h.below)

/-- A record of a new instance. -/
theorem insert (h : Filed conns records n) {r : InstanceRecord}
    (hnew : records.get (recordKey r.userId r.registration.instanceId) = none) (hseq : r.sequence = n)
    (hc : ∀ c, r.connection = some c → c.user = r.userId ∧ (conns c).added = true) :
    Filed conns (records.set (recordKey r.userId r.registration.instanceId) r) (n + 1) := by
  have hvalues := OMap.values_set_of_not_mem r (OMap.get_eq_none.mp hnew)
  refine h.set hc ?_ ?_ <;> rw [hvalues, List.map_append, List.map_cons, List.map_nil, hseq]
  · exact List.pairwise_append.mpr ⟨h.ranked, List.pairwise_singleton _ _, fun a ha b hb =>
      List.mem_singleton.mp hb ▸ h.below a ha⟩
  · intro m hm
    rcases List.mem_append.mp hm with hm | hm
    · exact Nat.lt_succ_of_lt (h.below m hm)
    · rw [List.mem_singleton.mp hm]; exact Nat.lt_succ_self n

end Filed

/-- The record has the sequence of the one it replaces, or the next one. -/
def Placed (records : OMap JsString InstanceRecord) (next : Nat) (r : InstanceRecord) (n : Nat) : Prop :=
  (∃ y, records.get (recordKey r.userId r.registration.instanceId) = some y ∧ r.sequence = y.sequence ∧ n = next) ∨
    (records.get (recordKey r.userId r.registration.instanceId) = none ∧ r.sequence = next ∧ n = next + 1)

theorem Filed.place {conns : ConnId → ControlConnection} {records : OMap JsString InstanceRecord} {next n : Nat}
    (h : Filed conns records next) {r : InstanceRecord} (hr : Placed records next r n)
    (hc : ∀ c, r.connection = some c → c.user = r.userId ∧ (conns c).added = true) :
    Filed conns (records.set (recordKey r.userId r.registration.instanceId) r) n := by
  rcases hr with ⟨y, hy, hseq, rfl⟩ | ⟨hnone, hseq, rfl⟩
  · exact h.replace hy (h.user hy).1.symm (h.user hy).2.symm hseq hc
  · exact h.insert hnone hseq hc

theorem ownRecords_set {conns : ConnId → ControlConnection} {records : OMap JsString InstanceRecord} {n : Nat}
    (h : Filed conns records n) (r : InstanceRecord) (u : UserId) :
    ownRecords u (records.set (recordKey r.userId r.registration.instanceId) r) =
      if r.userId = u then (ownRecords u records).set (recordKey r.userId r.registration.instanceId) r.unranked
      else ownRecords u records := by
  have hold : ∀ r', records.get (recordKey r.userId r.registration.instanceId) = some r' → r'.userId = r.userId :=
    fun r' hr' => (h.user hr').1
  unfold ownRecords
  split
  · rename_i hu
    rw [OMap.filter_set_of_pos (by simpa using hu) fun r' hr' => by simpa [hold r' hr'] using hu, OMap.map_set]
  · rename_i hu
    rw [OMap.filter_set_of_neg (by simpa using hu) fun r' hr' => by simpa [hold r' hr'] using hu]

namespace Twin

variable {u : UserId} {z s t : Registry}

theorem log (h : Twin u z s t) {e : Effect} (he : ∀ v, e.user = some v → v = u) : Twin u z (s.log e) (t.log e) := by
  refine h.next { h.left with } { h.right with } { h.own with trace := ?_ } fun v hv =>
    { Agree.refl v s with trace := ?_ }
  · simp only [Registry.log, List.filter_append, h.own.trace]
  · have : ¬ e.user = some v := fun hev => hv (he v hev)
    simp [Registry.log, List.filter_append, this]

theorem sound_setConn {s : Registry} (h : Sound s) (c : ConnId) {x : ControlConnection} (hu : x.uid = (s.conns c).uid)
    (ha : x.added = (s.conns c).added) : Sound (s.setConn c x) := by
  have hsame : ∀ d, ((s.setConn c x).conns d).added = (s.conns d).added ∧
    ((s.setConn c x).conns d).uid = (s.conns d).uid := by
    intro d
    by_cases hd : d = c
    · subst hd; simp [Registry.setConn, hu, ha]
    · simp [Registry.setConn, hd]
  have hmono : ∀ d, (s.conns d).added = true →
      ((s.setConn c x).conns d).added = true ∧ ((s.setConn c x).conns d).uid = (s.conns d).uid :=
    fun d hd => ⟨(hsame d).1.trans hd, (hsame d).2⟩
  refine { h with
    distinct := ⟨fun d hd => ?_, fun d e hd he => ?_⟩
    filed := h.filed.mono fun d hd => (hmono d hd).1
    joined := fun d hd => (hmono d (h.joined d hd)).1
    requests := h.requests.mono hmono
    commands := fun k => (h.commands k).mono hmono
    prompts := h.prompts.mono hmono }
  · rw [(hsame d).1] at hd; rw [(hsame d).2]; exact h.distinct.below d hd
  · rw [(hsame d).1] at hd; rw [(hsame e).1] at he; rw [(hsame d).2, (hsame e).2]; exact h.distinct.inj d e hd he

theorem sound_add {s : Registry} (h : Sound s) {c : ConnId} (hc : (s.conns c).added ≠ true) (socket : Socket) :
    Sound { s.setConn c { added := true, socket, uid := s.nextConnectionUid, alive := true, instanceId := none } with
      nextConnectionUid := s.nextConnectionUid + 1, connections := s.connections ++ [c] } := by
  have hold : ∀ d, (s.conns d).added = true → (s.setConn c
      { added := true, socket, uid := s.nextConnectionUid, alive := true, instanceId := none }).conns d =
        s.conns d := by
    intro d hd
    have hdc : d ≠ c := by rintro rfl; exact hc hd
    simp [Registry.setConn, hdc]
  have hself : (s.setConn c
    { added := true, socket, uid := s.nextConnectionUid, alive := true, instanceId := none }).conns c =
      { added := true, socket, uid := s.nextConnectionUid, alive := true, instanceId := none } := by simp
        [Registry.setConn]
  have hmono : ∀ d, (s.conns d).added = true →
      ((s.setConn c
        { added := true, socket, uid := s.nextConnectionUid, alive := true, instanceId := none }).conns d).added =
        true ∧
      ((s.setConn c
        { added := true, socket, uid := s.nextConnectionUid, alive := true, instanceId := none }).conns d).uid =
        (s.conns d).uid := fun d hd => by rw [hold d hd]; exact ⟨hd, rfl⟩
  have hadded : ∀ d, ((s.setConn c
      { added := true, socket, uid := s.nextConnectionUid, alive := true, instanceId := none }).conns d).added = true →
      d = c ∨ (s.conns d).added = true := by
    intro d hd
    by_cases hdc : d = c
    · exact Or.inl hdc
    · right; simpa [Registry.setConn, hdc] using hd
  refine { h with
    distinct := ⟨fun d hd => ?_, fun d e hd he heq => ?_⟩
    filed := h.filed.mono fun d hd => (hmono d hd).1
    joined := fun d hd => ?_
    requests := h.requests.mono hmono
    commands := fun k => (h.commands k).mono hmono
    prompts := h.prompts.mono hmono }
  · rcases hadded d hd with rfl | hd
    · dsimp only; rw [hself]; exact Nat.lt_succ_self _
    · dsimp only; rw [hold d hd]; exact Nat.lt_succ_of_lt (h.distinct.below d hd)
  · dsimp only at heq
    rcases hadded d hd with hdc | hd' <;> rcases hadded e he with hec | he'
    · rw [hdc, hec]
    · rw [hdc, hself, hold e he'] at heq
      exact absurd heq (h.distinct.below e he').ne'
    · rw [hec, hself, hold d hd'] at heq
      exact absurd heq (h.distinct.below d hd').ne
    · rw [hold d hd', hold e he'] at heq
      exact h.distinct.inj d e hd' he' heq
  · rcases List.mem_append.mp hd with hd | hd
    · exact (hmono d (h.joined d hd)).1
    · rw [List.mem_singleton.mp hd, hself]

/-- A write to an own connection that leaves its uid. -/
theorem conn (h : Twin u z s t) {c : ConnId} (hc : c.user = u) (f : ControlConnection → ControlConnection)
    (huid : ∀ x, (f x).uid = x.uid) (hadded : ∀ x, (f x).added = x.added)
    (hbare : ∀ x y : ControlConnection, x.bare = y.bare → (f x).bare = (f y).bare) :
    Twin u z (s.setConn c (f (s.conns c))) (t.setConn c (f (t.conns c))) := by
  refine h.next (sound_setConn h.left c (huid _) (hadded _)) (sound_setConn h.right c (huid _) (hadded _))
    { h.own with conns := fun d hd => ?_ } fun v hv => { Agree.refl v s with conns := fun d hd => ?_ }
  · by_cases hdc : d = c
    · subst hdc; simp [Registry.setConn, hbare _ _ (h.own.conns d hd)]
    · simp [Registry.setConn, hdc, h.own.conns d hd]
  · have hdc : d ≠ c := by rintro rfl; exact hv (hd.symm.trans hc)
    simp [Registry.setConn, hdc]

theorem shut (h : Twin u z s t) {c : ConnId} (hc : c.user = u) :
    Twin u z (s.setConn c { s.conns c with socket := (s.conns c).socket.shut })
      (t.setConn c { t.conns c with socket := (t.conns c).socket.shut }) :=
  h.conn hc (fun x => { x with socket := x.socket.shut }) (fun _ => rfl) (fun _ => rfl) fun x y hxy => by
    obtain ⟨ha, hs, hl, hi⟩ := Agree.bare_iff.mp hxy
    exact Agree.bare_iff.mpr ⟨ha, congrArg Socket.shut hs, hl, hi⟩

theorem sound_setClient {s : Registry} (h : Sound s) {w : ClientId} {x : WebUiClient}
    (hx : ∀ tunnel, x.tunnel = some tunnel → tunnel.connection.user = w.userId) : Sound (s.setClient w x) := by
  refine { h with tunnels := fun v tunnel hv => ?_ }
  by_cases hvw : v = w
  · subst hvw
    simp only [Registry.setClient, if_true] at hv
    exact hx tunnel hv
  · simp only [Registry.setClient, hvw, if_false] at hv
    exact h.tunnels v tunnel hv

/-- A write to an own client; a tunnel it holds is on an own connection. -/
theorem client (h : Twin u z s t) {w : ClientId} (hw : w.userId = u) {x : WebUiClient}
    (hx : ∀ tunnel, x.tunnel = some tunnel → tunnel.connection.user = u) :
    Twin u z (s.setClient w x) (t.setClient w x) := by
  refine h.next (sound_setClient h.left (hw ▸ hx)) (sound_setClient h.right (hw ▸ hx))
    { h.own with clients := fun v hv => ?_ } fun v hv => { Agree.refl v s with clients := fun w' hw' => ?_ }
  · by_cases hvw : v = w
    · subst hvw; simp [Registry.setClient]
    · simp [Registry.setClient, hvw, h.own.clients v hv]
  · have hne : w' ≠ w := by rintro rfl; exact hv (hw'.symm.trans hw)
    simp [Registry.setClient, hne]

/-- A write to an own record, at its place. -/
theorem put (h : Twin u z s t) {k k' : JsString} {r x : InstanceRecord} {n : Nat} (hs : s.records.get k = some r)
    (ht : t.records.get k' = some { r with sequence := n }) (hr : r.userId = u) (hu : x.userId = r.userId)
    (hid : x.registration.instanceId = r.registration.instanceId) (hseq : x.sequence = r.sequence)
    (hc : ∀ c, x.connection = some c → r.connection = some c) :
    Twin u z (putRecord s x) (putRecord t { x with sequence := n }) := by
  have hfiled := h.left.filed.replace hs hu hid hseq fun c hcc => hu ▸ h.left.filed.seated k r c hs (hc c hcc)
  have hfiled' := h.right.filed.replace (x := { x with sequence := n }) ht hu hid rfl
    fun c hcc => hu ▸ h.right.filed.seated k' { r with sequence := n } c ht (hc c hcc)
  refine h.next { h.left with filed := hfiled } { h.right with filed := hfiled' }
    { h.own with records := ?_ } fun v hv => { Agree.refl v s with records := ?_ }
  · show ownRecords u (s.records.set _ x) = ownRecords u (t.records.set _ { x with sequence := n })
    rw [ownRecords_set h.left.filed, ownRecords_set h.right.filed, if_pos (hu.trans hr),
      if_pos (hu.trans hr), h.own.records]
    rfl
  · show ownRecords v s.records = ownRecords v (s.records.set _ x)
    rw [ownRecords_set h.left.filed, if_neg]
    rw [hu, hr]; exact fun he => hv he.symm

/-- A new record of the user, at the place of the old one or at the end. -/
theorem file (h : Twin u z s t) {r x : InstanceRecord} {n n' : Nat} (hrr : r.unranked = x.unranked) (hr : r.userId = u)
    (hc : ∀ c, r.connection = some c → c.user = u ∧ (s.conns c).added = true)
    (hs : Placed s.records s.nextSequence r n) (ht : Placed t.records t.nextSequence x n') :
    Twin u z { s with records := s.records.set (recordKey r.userId r.registration.instanceId) r, nextSequence := n }
      { t with records := t.records.set (recordKey x.userId x.registration.instanceId) x, nextSequence := n' } := by
  obtain ⟨m, rfl⟩ := unranked_eq.mp hrr
  have hfiled := h.left.filed.place hs fun c hcc => hr ▸ hc c hcc
  have hfiled' := h.right.filed.place ht fun c hcc => by
    obtain ⟨hcu, ha⟩ := hc c hcc
    exact ⟨hcu.trans hr.symm, (h.own.added hcu).trans ha⟩
  refine h.next { h.left with filed := hfiled } { h.right with filed := hfiled' } { h.own with records := ?_ }
    fun v hv => { Agree.refl v s with records := ?_ }
  · show ownRecords u (s.records.set _ r) = ownRecords u (t.records.set _ { r with sequence := m })
    rw [ownRecords_set h.left.filed, ownRecords_set h.right.filed, if_pos hr, if_pos hr, h.own.records]
    rfl
  · show ownRecords v s.records = ownRecords v (s.records.set _ r)
    rw [ownRecords_set h.left.filed, if_neg]
    rw [hr]; exact fun he => hv he.symm

/-- Dropping own records. -/
theorem dropRecords (h : Twin u z s t) {p : JsString → InstanceRecord → Bool}
    (hp : ∀ k r n, p k { r with sequence := n } = p k r)
    (hothers : ∀ k r, s.records.get k = some r → r.userId ≠ u → p k r = true) :
    Twin u z { s with records := s.records.filter p } { t with records := t.records.filter p } := by
  have hown : ∀ m : OMap JsString InstanceRecord, ∀ v, ownRecords v (m.filter p) = (ownRecords v m).filter p := by
    intro m v
    rw [ownRecords, ownRecords, OMap.map_filter, OMap.filter_filter]
    simp only [InstanceRecord.unranked, hp]
  refine h.next { h.left with filed := h.left.filed.filter p } { h.right with filed := h.right.filed.filter p }
    { h.own with records := ?_ } fun v hv => { Agree.refl v s with records := ?_ }
  · rw [hown, hown, h.own.records]
  · show ownRecords v s.records = ownRecords v (s.records.filter p)
    rw [ownRecords, ownRecords, OMap.filter_filter]
    congr 1
    refine (OMap.filter_eq_self fun k r hr => ?_).symm
    rw [OMap.get_filter, Option.filter_eq_some_iff, decide_eq_true_iff] at hr
    exact hothers k r hr.1 (hr.2 ▸ hv)

theorem joinNul_user {u v : UserId} {a b : JsString} (h : joinNul u.chars a = joinNul v.chars b) : u = v := by
  have hchars := (joinNul_inj u.noNul v.noNul h).1
  cases u; cases v; cases hchars; rfl

/-- A write to the locks of own directories. -/
theorem locks (h : Twin u z s t) {m m' : OMap JsString JsString}
    (hown : ∀ place, m.get (joinNul u.chars place) = m'.get (joinNul u.chars place))
    (hothers : ∀ k, (∀ p, k ≠ joinNul u.chars p) → m.get k = s.ownership.get k) :
    Twin u z { s with ownership := m } { t with ownership := m' } :=
  h.next { h.left with } { h.right with } { h.own with ownership := hown }
    fun v hv => { Agree.refl v s with ownership := fun _ => (hothers _ fun _ he => hv (joinNul_user he)).symm }

theorem disown (h : Twin u z s t) (r : RegisterMessage) :
    Twin u z (disown s (ownershipKey D u r)) (disown t (ownershipKey D u r)) := by
  refine h.locks (fun place => ?_) fun k hk => ?_
  · rw [OMap.get_delete, OMap.get_delete, h.own.ownership]
  · exact OMap.get_delete_ne _ (hk _)

theorem lock (h : Twin u z s t) (r : RegisterMessage) (instanceId : JsString) :
    Twin u z { s with ownership := s.ownership.set (ownershipKey D u r) instanceId }
      { t with ownership := t.ownership.set (ownershipKey D u r) instanceId } := by
  refine h.locks (fun place => ?_) fun k hk => ?_
  · rw [OMap.get_set, OMap.get_set, h.own.ownership]
  · exact OMap.get_set_ne _ _ (hk _)

/-- An outcome, and what is left out of the view. -/
theorem outcomes (h : Twin u z s t) (o o' : OutcomeCache) :
    Twin u z { s with commandOutcomes := o } { t with commandOutcomes := o' } :=
  h.next { h.left with } { h.right with } { h.own with } fun v _ => { Agree.refl v s with }

/-! ## What a connection leaves behind -/

theorem ownEntries_off {α : Type} (connection : α → ConnId) (c : ConnId) (m : OMap JsString α) (v : UserId) :
    ownEntries connection v (offConnection connection c m) = (ownEntries connection v m).filter fun x =>
      connection x ≠ c := by
  unfold ownEntries offConnection
  rw [OMap.values, OMap.values, OMap.entries_filter, List.filter_comm]
  simp only [List.filter_map]; rfl

/-- The entries on a connection are its user's. -/
theorem onConnection_eq {α : Type} (connection : α → ConnId) (c : ConnId) (m : OMap JsString α) :
    onConnection connection c m = (ownEntries connection c.user m).filter fun x => connection x = c := by
  unfold onConnection ownEntries
  rw [List.filter_filter]
  refine List.filter_congr fun x _ => ?_
  by_cases hx : connection x = c <;> simp [hx]

theorem off_others {α : Type} {connection : α → ConnId} {c : ConnId} {m : OMap JsString α}
    {v : UserId} (hv : v ≠ c.user) :
    ownEntries connection v (offConnection connection c m) = ownEntries connection v m := by
  rw [ownEntries_off]
  refine List.filter_eq_self.mpr fun x hx => ?_
  have := (List.mem_filter.mp hx).2
  simp only [decide_eq_true_eq] at this
  simp only [decide_eq_true_eq]
  rintro rfl; exact hv this.symm

theorem catalogs_off (c : ConnId) (m : OMap JsString CatalogRequest) :
    onConnection (·.connection) c m = onConnection (·.connection) c
      (m.filter fun _ p => p.connection.user = c.user) := by
  unfold onConnection
  rw [OMap.values, OMap.values, OMap.entries_filter, List.filter_map, List.filter_map, List.filter_filter]
  refine congrArg _ (List.filter_congr fun e _ => ?_)
  simp only [Function.comp_apply]
  by_cases he : e.2.connection = c <;> simp [he]

end Twin

/-! ## Promises -/

theorem resolve_batches {c : ConnId} {id : JsString} {l : List PendingInteraction} {q : Collection} {b : Batch}
    (hb : b ∈ (q.resolve c id l).batches) : ∃ b' ∈ q.batches, b'.connection = b.connection := by
  obtain ⟨b', hb', rfl⟩ := List.mem_map.mp hb
  refine ⟨b', hb', ?_⟩
  unfold Batch.resolve
  split <;> rfl

/-- A promise of another user's request is not touched. -/
theorem resolve_others {c : ConnId} {id : JsString} {l : List PendingInteraction} {q : Collection}
    (h : ∀ b ∈ q.batches, b.connection.user = q.userId) (hq : q.userId ≠ c.user) : q.resolve c id l = q := by
  have hb : q.batches.map (Batch.resolve c id l) = q.batches := by
    refine (List.map_congr_left fun b hb => ?_).trans (List.map_id _)
    have hne : b.connection ≠ c := by rintro rfl; exact hq (h b hb).symm
    simp [Batch.resolve, hne]
  rw [Collection.resolve, hb]

namespace Twin

variable {u : UserId} {z s t : Registry}

/-- Settling promises of own requests. -/
theorem resolve (h : Twin u z s t) {c : ConnId} (hc : c.user = u) (id : JsString) (l : List PendingInteraction) :
    Twin u z (resolveBatch s c id l) (resolveBatch t c id l) := by
  have hbatches : ∀ {x : Registry}, Sound x → ∀ q ∈ (resolveBatch x c id l).collections, ∀ b ∈ q.batches,
      b.connection.user = q.userId := by
    intro x hx q hq b hb
    obtain ⟨q', hq', rfl⟩ := List.mem_map.mp hq
    obtain ⟨b', hb', he⟩ := resolve_batches hb
    rw [← he]; exact hx.batches q' hq' b' hb'
  have huser : (fun q : Collection => decide (q.userId = u)) ∘ Collection.resolve c id l = fun q =>
    decide (q.userId = u) := rfl
  refine h.next { h.left with batches := hbatches h.left } { h.right with batches := hbatches h.right }
    { h.own with collections := ?_ } fun v hv => { Agree.refl v s with collections := ?_ }
  · rw [resolveBatch, resolveBatch, List.filter_map, List.filter_map]
    show List.map _ (s.collections.filter fun q => q.userId = u) = List.map _
      (t.collections.filter fun q => q.userId = u)
    rw [h.own.collections]
  · rw [resolveBatch, List.filter_map]
    show _ = List.map _ (s.collections.filter fun q => q.userId = v)
    refine (List.map_id _).symm.trans (List.map_congr_left fun q hq => ?_)
    obtain ⟨hq, hqv⟩ := List.mem_filter.mp hq
    refine (resolve_others (h.left.batches q hq) fun he => hv ?_).symm
    rw [← of_decide_eq_true hqv, he, hc]

theorem resolve_all (h : Twin u z s t) {c : ConnId} (hc : c.user = u) (l : List PendingSnapshotRequest) :
    Twin u z { s with collections := l.foldl (fun q p => q.map (Collection.resolve c p.requestId [])) s.collections }
      { t with collections := l.foldl (fun q p => q.map (Collection.resolve c p.requestId [])) t.collections } := by
  induction l generalizing s t with
  | nil => exact h
  | cons p l ih => exact ih (h.resolve hc p.requestId [])

theorem offCatalogs (c : ConnId) (m : OMap JsString CatalogRequest) (v : UserId) (hv : v ≠ c.user) :
    (offConnection (·.connection) c m).filter (fun _ p => p.connection.user = v) = m.filter fun _ p =>
      p.connection.user = v := by
  rw [offConnection, OMap.filter_filter]
  refine OMap.filter_eq_self fun k p hp => ?_
  rw [OMap.get_filter, Option.filter_eq_some_iff] at hp
  simp only [decide_eq_true_eq] at hp ⊢
  rintro rfl; exact hv hp.2.symm

theorem dropPending (h : Twin u z s t) {c : ConnId} (hc : c.user = u) :
    Twin u z (dropPending s c) (dropPending t c) := by
  have hrequests : onConnection (·.connection) c t.pendingRequests = onConnection
    (·.connection) c s.pendingRequests := by
    rw [onConnection_eq, onConnection_eq, hc, h.own.requests]
  have hcatalogs : onConnection (·.connection) c t.catalogRequests = onConnection
    (·.connection) c s.catalogRequests := by
    rw [catalogs_off, catalogs_off c s.catalogRequests, hc, h.own.catalogs]
  have hoff : ∀ {α : Type} {connection : α → ConnId} {m m' : OMap JsString α},
    ownEntries connection u m = ownEntries connection u m' →
      ownEntries connection u (offConnection connection c m) = ownEntries connection u
        (offConnection connection c m') := by
    intro α connection m m' hm
    rw [ownEntries_off, ownEntries_off, hm]
  have hlog : ∀ v, v ≠ u → ((onConnection (·.connection) c s.catalogRequests).map
      fun p => Effect.catalog c.user p.requestId .notFound).filter (·.user = some v) = [] := by
    intro v hv
    refine List.filter_eq_nil_iff.mpr fun e he => ?_
    obtain ⟨p, -, rfl⟩ := List.mem_map.mp he
    simp only [Effect.user, hc, Option.some.injEq, decide_eq_true_eq]
    exact fun he => hv he.symm
  have hres := h.resolve_all hc (onConnection (·.connection) c s.pendingRequests)
  have hsound : ∀ {x : Registry}, Sound x → Sound { x with
        collections := (onConnection (·.connection) c s.pendingRequests).foldl
          (fun q p => q.map (Collection.resolve c p.requestId [])) x.collections } →
      onConnection (·.connection) c x.pendingRequests = onConnection (·.connection) c s.pendingRequests →
      Sound (Control.dropPending x c) := by
    intro x hx hbatches hreq
    refine { hx with
      requests := hx.requests.filter _
      commands := fun k => ?_
      prompts := hx.prompts.filter _
      batches := ?_ }
    · cases k with
      | question =>
        show Named x.conns _ _ (offConnection (·.connection) c x.pendingAnswerCommands)
        exact (hx.commands .question).filter _
      | permission =>
        show Named x.conns _ _ (offConnection (·.connection) c x.pendingDecideCommands)
        exact (hx.commands .permission).filter _
    · show ∀ q ∈ (onConnection (·.connection) c x.pendingRequests).foldl _ x.collections, _
      rw [hreq]; exact hbatches.batches
  refine h.next (hsound h.left hres.left rfl) (hsound h.right hres.right hrequests)
    { h.own with
      requests := hoff h.own.requests
      commands := fun k => ?_
      prompts := hoff h.own.prompts
      catalogs := ?_
      collections := ?_
      trace := ?_ }
    fun v hv => { Agree.refl v s with
      requests := (off_others (hc ▸ hv)).symm
      commands := fun k => ?_
      prompts := (off_others (hc ▸ hv)).symm
      catalogs := (offCatalogs c _ v (hc ▸ hv)).symm
      collections := ?_
      trace := ?_ }
  · cases k
    · exact hoff (h.own.commands .question)
    · exact hoff (h.own.commands .permission)
  · simp only [Control.dropPending, offConnection]
    rw [OMap.filter_filter, h.own.catalogs, OMap.filter_filter]
  · simp only [Control.dropPending, hrequests]
    exact hres.own.collections
  · simp only [Control.dropPending, hcatalogs, List.filter_append, h.own.trace]
  · cases k
    · exact (off_others (m := s.commands .question) (hc ▸ hv)).symm
    · exact (off_others (m := s.commands .permission) (hc ▸ hv)).symm
  · exact ((h.others v hv).symm.trans (hres.others v hv)).collections
  · simp only [Control.dropPending, List.filter_append, hlog v hv, List.append_nil]

theorem tunnelClients_own {s : Registry} (h : Sound s) {c : ConnId} {w : ClientId} (hw : w ∈ tunnelClients s c) :
    w.userId = c.user := by
  have hany := (List.mem_filter.mp hw).2
  cases ht : (s.clients w).tunnel with
  | none => rw [ht] at hany; cases hany
  | some tunnel =>
    rw [ht, Option.any_some, decide_eq_true_iff] at hany
    rw [← h.tunnels w tunnel ht, hany]

theorem tunnelClients_eq (h : Twin u z s t) {c : ConnId} (hc : c.user = u) : tunnelClients t c = tunnelClients s c := by
  have hpart : ∀ {x : Registry}, Sound x → tunnelClients x c =
      (x.webUiTunnels.filter fun _ w => w.userId = u).values.filter fun w =>
        (x.clients w).tunnel.any (·.connection = c) := by
    intro x hx
    unfold tunnelClients
    rw [OMap.values, OMap.values, OMap.entries_filter, List.filter_map, List.filter_map, List.filter_filter]
    refine congrArg _ (List.filter_congr fun e he => ?_)
    simp only [Function.comp_apply]
    by_cases hany : (x.clients e.2).tunnel.any (·.connection = c) = true
    · have : e.2.userId = c.user := tunnelClients_own hx (List.mem_filter.mpr ⟨List.mem_map_of_mem he, hany⟩)
      simp [hany, this, hc]
    · simp [hany]
  rw [hpart h.left, hpart h.right, ← h.own.tunnels]
  refine List.filter_congr fun w hw => ?_
  have hwu : w.userId = u := by
    obtain ⟨e, he, rfl⟩ := List.mem_map.mp hw
    exact of_decide_eq_true (List.mem_filter.mp he).2
  rw [h.own.clients w hwu]

theorem dropTunnels (h : Twin u z s t) {c : ConnId} (hc : c.user = u) :
    Twin u z (dropTunnels s c) (dropTunnels t c) := by
  have hown : ∀ w ∈ tunnelClients s c, w.userId = u := fun w hw => (tunnelClients_own h.left hw).trans hc
  have hsound : ∀ {x : Registry}, Sound x → Sound (Control.dropTunnels x c) := by
    intro x hx
    refine { hx with tunnels := fun w tunnel hw => hx.tunnels w tunnel ?_ }
    simp only [Control.dropTunnels] at hw
    split at hw <;> exact hw
  refine h.next (hsound h.left) (hsound h.right)
    { h.own with clients := fun w hw => ?_, tunnels := ?_, trace := ?_ }
    fun v hv => { Agree.refl v s with clients := fun w hw => ?_, tunnels := ?_, trace := ?_ }
  · simp only [Control.dropTunnels, h.tunnelClients_eq hc, h.own.clients w hw]
  · simp only [Control.dropTunnels, h.tunnelClients_eq hc]
    rw [OMap.filter_filter, h.own.tunnels, OMap.filter_filter]
  · simp only [Control.dropTunnels, h.tunnelClients_eq hc, List.filter_append, h.own.trace]
  · have hw' : w ∉ tunnelClients s c := fun hn => hv (hw.symm.trans (hown w hn))
    simp only [Control.dropTunnels, hw', if_false]
  · simp only [Control.dropTunnels]
    rw [OMap.filter_filter]
    refine (OMap.filter_eq_self fun k w hw => ?_).symm
    rw [OMap.get_filter, Option.filter_eq_some_iff] at hw
    exact decide_eq_true fun hn => hv ((of_decide_eq_true hw.2).symm.trans (hown w hn))
  · have hnil : ((tunnelClients s c).map fun w => Effect.clientClosed w 1011 "OpenCode instance disconnected").filter
        (·.user = some v) = [] := by
      refine List.filter_eq_nil_iff.mpr fun e he => ?_
      obtain ⟨w, hw, rfl⟩ := List.mem_map.mp he
      simp only [Effect.user, hown w hw, Option.some.injEq, decide_eq_true_eq]
      exact fun he => hv he.symm
    simp only [Control.dropTunnels, List.filter_append, hnil, List.append_nil]

theorem leave (h : Twin u z s t) {c : ConnId} (hc : c.user = u) : Twin u z (leave s c) (leave t c) := by
  have hfilter : Twin u z { s with connections := s.connections.filter (· ≠ c) }
      { t with connections := t.connections.filter (· ≠ c) } := by
    refine h.next { h.left with joined := fun d hd => h.left.joined d (List.mem_filter.mp hd).1 }
      { h.right with joined := fun d hd => h.right.joined d (List.mem_filter.mp hd).1 }
      { h.own with connections := ?_ } fun v hv => { Agree.refl v s with connections := ?_ }
    · dsimp only
      rw [List.filter_comm, h.own.connections, List.filter_comm]
    · dsimp only
      rw [List.filter_comm]
      refine (List.filter_eq_self.mpr fun d hd => decide_eq_true ?_).symm
      rintro rfl
      exact hv ((of_decide_eq_true (List.mem_filter.mp hd).2).symm.trans hc)
  exact (hfilter.dropPending hc).dropTunnels hc

/-! ## Entries of own connections -/

/-- A write to the entries of own connections, the same in both. -/
theorem setRequests (h : Twin u z s t) {m m' : OMap JsString PendingSnapshotRequest}
    (hs : Named s.conns (·.connection) (·.requestId) m) (ht : Named t.conns (·.connection) (·.requestId) m')
    (hown : ownEntries (·.connection) u m = ownEntries (·.connection) u m')
    (hothers : ∀ v, v ≠ u → ownEntries (·.connection) v m = ownEntries (·.connection) v s.pendingRequests) :
    Twin u z { s with pendingRequests := m } { t with pendingRequests := m' } :=
  h.next { h.left with requests := hs } { h.right with requests := ht } { h.own with requests := hown }
    fun v hv => { Agree.refl v s with requests := (hothers v hv).symm }

theorem setPrompts (h : Twin u z s t) {m m' : OMap JsString PendingPromptCommand}
    (hs : Named s.conns (·.connection) (·.commandId) m) (ht : Named t.conns (·.connection) (·.commandId) m')
    (hown : ownEntries (·.connection) u m = ownEntries (·.connection) u m')
    (hothers : ∀ v, v ≠ u → ownEntries (·.connection) v m = ownEntries (·.connection) v s.pendingPromptCommands) :
    Twin u z { s with pendingPromptCommands := m } { t with pendingPromptCommands := m' } :=
  h.next { h.left with prompts := hs } { h.right with prompts := ht } { h.own with prompts := hown }
    fun v hv => { Agree.refl v s with prompts := (hothers v hv).symm }

theorem commands_setCommands (s : Registry) (k k' : CommandKind) (m : OMap JsString PendingCommand) :
    (s.setCommands k m).commands k' = if k' = k then m else s.commands k' := by
  cases k <;> cases k' <;> rfl

theorem setCommands (h : Twin u z s t) (k : CommandKind) {m m' : OMap JsString PendingCommand}
    (hs : Named s.conns (·.connection) (·.commandId) m) (ht : Named t.conns (·.connection) (·.commandId) m')
    (hown : ownEntries (·.connection) u m = ownEntries (·.connection) u m')
    (hothers : ∀ v, v ≠ u → ownEntries (·.connection) v m = ownEntries (·.connection) v (s.commands k)) :
    Twin u z (s.setCommands k m) (t.setCommands k m') := by
  refine h.next { h.left with commands := fun k' => ?_ } { h.right with commands := fun k' => ?_ }
    { h.own with commands := fun k' => ?_ } fun v hv => { Agree.refl v s with commands := fun k' => ?_ }
  all_goals rw [commands_setCommands]
  · split
    · exact hs
    · exact h.left.commands k'
  · split
    · exact ht
    · exact h.right.commands k'
  · rw [commands_setCommands]
    split
    · exact hown
    · exact h.own.commands k'
  · split
    · rename_i hk; rw [hk]; exact (hothers v hv).symm
    · rfl

variable {α : Type} {connection : α → ConnId} {name : α → JsString} {m m' : OMap JsString α} {c : ConnId}

/-- The entries of a user after a write to the entry of a connection, or its deletion. -/
theorem entries_set (h : Twin u z s t) (hm : Named s.conns connection name m) (hm' : Named t.conns connection name m')
    (hown : ownEntries connection u m = ownEntries connection u m') (hc : c.user = u) (ha : (s.conns c).added = true)
    {x : α} (hx : connection x = c) (id : JsString) :
    ownEntries connection u (m.set (joinNul (decimal (s.conns c).uid) id) x) =
        ownEntries connection u (m'.set (joinNul (decimal (t.conns c).uid) id) x) ∧
      ∀ v, v ≠ u → ownEntries connection v (m.set (joinNul (decimal (s.conns c).uid) id) x) =
        ownEntries connection v m := by
  have ha' := (h.own.added hc).trans ha
  rw [values_set hm h.left.distinct ha hx, values_set hm' h.right.distinct ha' hx, if_pos hc, if_pos hc, hown]
  refine ⟨rfl, fun v hv => ?_⟩
  rw [values_set hm h.left.distinct ha hx, if_neg fun he => hv (he.symm.trans hc)]

theorem entries_delete (h : Twin u z s t) (hm : Named s.conns connection name m)
    (hm' : Named t.conns connection name m')
    (hown : ownEntries connection u m = ownEntries connection u m') (hc : c.user = u) (ha : (s.conns c).added = true)
    (id : JsString) :
    ownEntries connection u (m.delete (joinNul (decimal (s.conns c).uid) id)) =
        ownEntries connection u (m'.delete (joinNul (decimal (t.conns c).uid) id)) ∧
      ∀ v, v ≠ u → ownEntries connection v (m.delete (joinNul (decimal (s.conns c).uid) id)) =
        ownEntries connection v m := by
  have ha' := (h.own.added hc).trans ha
  rw [values_delete hm h.left.distinct ha, values_delete hm' h.right.distinct ha', hown]
  refine ⟨rfl, fun v hv => ?_⟩
  rw [values_delete hm h.left.distinct ha]
  refine List.filter_eq_self.mpr fun x hx => ?_
  have hxv := of_decide_eq_true (List.mem_filter.mp hx).2
  simp only [Bool.not_eq_true', decide_eq_false_iff_not]
  rintro ⟨rfl, -⟩
  exact hv (hxv.symm.trans hc)

theorem entries_get (h : Twin u z s t) (hm : Named s.conns connection name m) (hm' : Named t.conns connection name m')
    (hown : ownEntries connection u m = ownEntries connection u m') (hc : c.user = u) (ha : (s.conns c).added = true)
    (id : JsString) :
    m'.get (joinNul (decimal (t.conns c).uid) id) = m.get (joinNul (decimal (s.conns c).uid) id) := by
  subst hc
  exact (get_own hm hm' h.left.distinct h.right.distinct ha ((h.own.added rfl).trans ha) hown id).symm

end Twin

end NotifyHub.Control
