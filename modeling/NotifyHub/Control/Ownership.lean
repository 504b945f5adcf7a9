/-
  NotifyHub.Control.Ownership — the directory lock over whole runs.

  Proved, over every run of the registry:
  - `no_record_on_a_dead_connection`: with no `register` frame on a connection that was
    disconnected before it had registered, every record rests on a live connection, and
    nothing rests on a connection whose close event was handled. With such a frame a
    dead plugin keeps its directory (`late_register_locks_the_directory`).
  - `ownership_exclusive`: with no frame on a disconnected connection, a directory has
    at most one controllable record, which the ownership map names, and has one as long
    as it has a connected record of a supported version.
  - `promotes_the_oldest_that_accepts`: when its owner goes, a directory goes to the
    oldest connected claimant whose socket takes the `registration` frame.
-/

import NotifyHub.Control.Owners

namespace NotifyHub.Control

variable {D : Deps}

/-! ## Sample plugins -/

/-- Lower case of the ASCII letters. -/
def asciiLower (s : JsString) : JsString := s.map fun c => if 65 ≤ c ∧ c ≤ 90 then c + 32 else c

def sampleDeps : Deps := ⟨600000, 1024, asciiLower, fun _ _ => none⟩

def alice : UserId := ⟨js "a11ce000-0000-4000-8000-000000000000", by decide⟩

/-- Alice's plugin sockets, by serial. -/
def plugin (n : Nat) : ConnId := ⟨⟨js "key-of-alice", alice⟩, n⟩

def openSocket : Socket := ⟨READY_OPEN, 0, false⟩

def instance1 : JsString := js "00000001-0000-4000-8000-000000000000"
def instance2 : JsString := js "00000002-0000-4000-8000-000000000000"
def instance3 : JsString := js "00000003-0000-4000-8000-000000000000"

/-- The registration of an instance for one directory. -/
def sampleRegistration (instanceId : JsString) : RegisterMessage :=
  ⟨instanceId, js "desk", js "hub", js "/hub", js "1.0.0", none, SUPPORTED_PROTOCOL_VERSION⟩

def sampleDirectory : JsString := ownershipKey sampleDeps alice (sampleRegistration instance1)

/-! ## Dead connections -/

def NoDeadRecord (s : Registry) : Prop :=
  ∀ k r c, s.records.get k = some r → r.connection = some c → c ∈ s.connections

variable (D) in
/-- No record rests on the connection, and every owner of a directory rests on another. -/
def Released (s : Registry) (c : ConnId) : Prop :=
  (∀ k r, s.records.get k = some r → r.connection ≠ some c) ∧
  ∀ d id, s.ownership.get d = some id → ∃ k r e, s.records.get k = some r ∧ r.registration.instanceId = id ∧
    ownershipKey D r.userId r.registration = d ∧ r.connection = some e ∧ e ≠ c

/-- The registry had the connection and has it no longer. -/
def Gone (c : ConnId) (s : Registry) : Prop := (s.conns c).added = true ∧ c ∉ s.connections

theorem gone_disconnect {s : Registry} {c : ConnId} (d : ConnId) (h : Gone c s) : Gone c (disconnect D s d) :=
  ⟨(disconnect_same D s d c).1.trans h.1, fun hc => h.2 (disconnect_connections s d c hc).1⟩

theorem gone_move {op : Op} {c : ConnId} {s t : Registry} (m : Move D op s t) (h : Gone c s) : Gone c t := by
  cases m with
  | conn d x ha hu hi =>
    refine ⟨?_, h.2⟩
    by_cases hd : c = d
    · subst hd; simpa [Registry.setConn, ha] using h.1
    · simpa [Registry.setConn, hd] using h.1
  | add d socket ha =>
    have hne : c ≠ d := fun he => by rw [he] at h; rw [h.1] at ha; cases ha
    simp only [Gone, add, ha, Bool.false_eq_true, if_false, List.mem_append, List.mem_singleton, not_or]
    exact ⟨by simpa [Registry.setConn, hne] using h.1, h.2, hne⟩
  | enroll d registration existing ho ha =>
    refine ⟨?_, h.2⟩
    by_cases hd : c = d
    · subst hd; simpa [enroll, pruneOfflineOwnership, Registry.setConn] using h.1
    · simpa [enroll, pruneOfflineOwnership, Registry.setConn, hd] using h.1
  | disconnect d => exact gone_disconnect d h
  | _ => exact h

theorem gone_run {c : ConnId} {s : Registry} (h : Gone c s) (es : List Event) : Gone c (runFrom (step D) s es) :=
  runFrom_inv (I := Gone c) (fun t e ht => (step_moves t e).inv (fun _ _ => gone_move) ht) h es

theorem gone_of_close {s : Registry} {c : ConnId} (ha : (s.conns c).added = true) (now : Nat) :
    Gone c (step D s ⟨now, .close c⟩) :=
  ⟨(disconnect_same D _ c c).1.trans ha, fun hc => (disconnect_connections _ c c hc).2 rfl⟩

theorem no_dead_record {s : Registry} (h : Law D none s.roster) : NoDeadRecord s :=
  fun k r c hr hc => (h.held k r.seat c (seats_of_get hr) hc).1

theorem released_of_gone {s : Registry} {c : ConnId} (h : Law D none s.roster) (hg : Gone c s) : Released D s c := by
  refine ⟨fun k r hr hc => hg.2 (no_dead_record h k r c hr hc), fun d id hid => ?_⟩
  obtain ⟨k, x, hx, hs, hi, hd⟩ := h.owned d id hid
  obtain ⟨r, hr, rfl⟩ := seats_eq_some.mp hx
  have hne : r.connection ≠ none := fun hn => by
    have := (h.offline k r.seat hx).mpr hn
    rw [hs] at this; cases this
  obtain ⟨e, he⟩ := Option.ne_none_iff_exists'.mp hne
  exact ⟨k, r, e, hr, hi, hd, he, fun hec => hg.2 (hec ▸ no_dead_record h k r e hr he)⟩

theorem no_record_on_a_dead_connection (es : List Event)
    (h : Along (step D) (fun s e => ¬ LateRegister s e) .init es) :
    NoDeadRecord (run D es) ∧
    ∀ before after now c, es = before ++ ⟨now, .close c⟩ :: after → ((run D before).conns c).added = true →
      Released D (run D es) c := by
  refine ⟨no_dead_record (law_run h), ?_⟩
  rintro before after now c rfl ha
  refine released_of_gone (law_run h) ?_
  rw [run, runFrom_append, runFrom_cons]
  exact gone_run (gone_of_close ha now) after

/-- A plugin registers and is replaced by another once its socket has closed. -/
def handOver : List Event :=
  [⟨0, .add (plugin 0) openSocket⟩, ⟨1, .frame (plugin 0) (some (.register (sampleRegistration instance1)))⟩,
    ⟨2, .close (plugin 0)⟩, ⟨3, .add (plugin 1) openSocket⟩,
    ⟨4, .frame (plugin 1) (some (.register (sampleRegistration instance2)))⟩]

theorem handOver_releases : NoDeadRecord (run sampleDeps handOver) ∧
    Released sampleDeps (run sampleDeps handOver) (plugin 0) :=
  have h := no_record_on_a_dead_connection (D := sampleDeps) handOver (by decide +kernel)
  ⟨h.1, h.2 (handOver.take 2) (handOver.drop 3) 2 (plugin 0) rfl (by decide +kernel)⟩

/-- A connection sends an invalid frame, and a `register` frame still arrives before it closes. -/
def lateRegister : List Event :=
  [⟨0, .add (plugin 0) openSocket⟩, ⟨1, .frame (plugin 0) none⟩,
    ⟨2, .frame (plugin 0) (some (.register (sampleRegistration instance1)))⟩, ⟨3, .close (plugin 0)⟩]

theorem late_register_locks_the_directory :
    ¬ NoDeadRecord (run sampleDeps lateRegister) ∧
    ((run sampleDeps lateRegister).records.get (recordKey alice instance1)).map (fun r => (r.state, r.connection)) =
      some (.controllable, some (plugin 0)) ∧
    (run sampleDeps lateRegister).ownership.get sampleDirectory = some instance1 := by
  have hr : ((run sampleDeps lateRegister).records.get (recordKey alice instance1)).map
    (fun r => (r.state, r.connection)) =
      some (.controllable, some (plugin 0)) := by decide +kernel
  refine ⟨fun h => ?_, hr, by decide +kernel⟩
  obtain ⟨r, hg, he⟩ := Option.map_eq_some_iff.mp hr
  exact absurd (h _ r (plugin 0) hg (Prod.ext_iff.mp he).2) (by decide +kernel)

/-! ## Exclusive owners -/

variable (D) in
structure ExclusiveOwnership (s : Registry) : Prop where
  /-- At most one record of a directory is controllable. -/
  one : ∀ k k' r r', s.records.get k = some r → s.records.get k' = some r' → r.state = .controllable →
    r'.state = .controllable → ownershipKey D r.userId r.registration = ownershipKey D r'.userId r'.registration →
      k = k'
  /-- The ownership map names exactly the controllable connected records. -/
  names : ∀ d id, s.ownership.get d = some id ↔ ∃ u r, s.records.get (recordKey u id) = some r ∧ r.userId = u ∧
    r.state = .controllable ∧ r.connection.isSome ∧ ownershipKey D u r.registration = d
  /-- A directory with a connected record of a supported version has an owner. -/
  served : ∀ k r, s.records.get k = some r → r.connection.isSome →
    r.registration.protocolVersion = SUPPORTED_PROTOCOL_VERSION → ∃! k', ∃ r', s.records.get k' = some r' ∧
      r'.state = .controllable ∧ r'.connection.isSome ∧ r'.registration.protocolVersion = SUPPORTED_PROTOCOL_VERSION ∧
      ownershipKey D r'.userId r'.registration = ownershipKey D r.userId r.registration

theorem connected_iff {s : Registry} {gap : Option JsString} (h : Law D gap s.roster) {k : JsString}
    {r : InstanceRecord}
    (hr : s.records.get k = some r) : r.connection.isSome ↔ r.state ≠ .offline := by
  rw [Option.isSome_iff_ne_none, not_iff_not]
  exact (h.offline k r.seat (seats_of_get hr)).symm

theorem exclusive_of_law {s : Registry} (h : Law D none s.roster) : ExclusiveOwnership D s where
  one k k' r r' hr hr' hs hs' hd := h.one_owner (seats_of_get hr) (seats_of_get hr') hs hs' hd
  names d id := by
    constructor
    · intro hid
      obtain ⟨k, x, hx, hs, rfl, hd⟩ := h.owned d id hid
      obtain ⟨r, hr, rfl⟩ := seats_eq_some.mp hx
      have hk : k = recordKey r.userId r.registration.instanceId := h.keyed k r.seat hx
      have hs' : r.state = .controllable := hs
      exact ⟨r.userId, r, hk ▸ hr, rfl, hs, (connected_iff h hr).mpr (by rw [hs']; decide), hd⟩
    · rintro ⟨u, r, hr, rfl, hs, -, rfl⟩
      have hi := (recordKey_inj (h.keyed _ r.seat (seats_of_get hr))).2
      rw [hi]
      exact h.owns _ r.seat (seats_of_get hr) hs
  served k r hr hc hp := by
    have hne := (connected_iff h hr).mp hc
    have hstate : r.state = .controllable ∨ r.state = .conflicting := by
      have hv := (h.versions k r.seat (seats_of_get hr) hne).not.mpr (not_not.mpr hp)
      have hv' : r.state ≠ .incompatible := hv
      cases hs : r.state <;> simp_all
    obtain ⟨k', x, hx, hs, hd⟩ := h.has_owner (seats_of_get hr) hstate
    obtain ⟨r', hr', rfl⟩ := seats_eq_some.mp hx
    have hs' : r'.state = .controllable := hs
    have hne' : r'.state ≠ .offline := by rw [hs']; decide
    refine ⟨k', ⟨r', hr', hs, (connected_iff h hr').mpr hne', ?_, hd⟩, ?_⟩
    · by_contra hp'
      have := (h.versions k' r'.seat hx hne').mpr hp'
      rw [hs] at this; cases this
    · rintro k'' ⟨r'', hr'', hs'', -, -, hd''⟩
      exact h.one_owner (seats_of_get hr'') hx hs'' hs (hd''.trans hd.symm)

/-! ## Succession -/

/-- A connection whose socket takes frames outlives the `disconnect` of another. -/
theorem accepting_stays (s : Registry) (c : ConnId) : ∀ d, d ≠ c → d ∈ s.connections →
    (s.conns d).socket.accepts = true →
    d ∈ (disconnect D s c).connections ∧ (disconnect D s c).conns d = s.conns d := by
  refine disconnect_rule (R := fun s c t => ∀ d, d ≠ c → d ∈ s.connections → (s.conns d).socket.accepts = true →
    d ∈ t.connections ∧ t.conns d = s.conns d) (fun _ _ _ _ _ hd _ => ⟨hd, rfl⟩) ?_ s c
  intro s c _ ih d hne hd ha
  have hkeep : ∀ t : Registry, t.connections = s.connections.filter (· ≠ c) → d ∈ t.connections :=
    fun t ht => ht ▸ List.mem_filter.mpr ⟨hd, by simpa using hne⟩
  unfold disconnectBody
  rw [recordOn_leave]
  cases recordOn s c with
  | none => exact ⟨hkeep _ rfl, rfl⟩
  | some r =>
    dsimp only
    split
    · unfold promoteWith
      split
      · exact ⟨hkeep _ rfl, rfl⟩
      · rename_i candidate _ _
        split
        · rename_i e _
          generalize ht : crown (disown (retire (leave s c) r) (ownershipKey D r.userId r.registration))
            (ownershipKey D r.userId r.registration) candidate = t
          have hlive : t.connections = s.connections.filter (· ≠ c) := ht ▸ rfl
          have hconns : t.conns = s.conns := ht ▸ rfl
          rcases sendWith_cases (disconnect D) t e (.registration candidate.registration.instanceId .controllable)
            with ⟨-, he⟩ | ⟨hb, he⟩
          · rw [he]; exact ⟨hkeep t hlive, congrFun hconns d⟩
          · have hde : d ≠ e := fun h => by rw [← h, hconns, ha] at hb; cases hb
            have hstay := ih t e hlive d hde (hkeep t hlive) (by rw [hconns]; exact ha)
            rw [hconns] at hstay
            rcases he with he | he <;> rw [he]
            · refine ⟨hstay.1, ?_⟩
              rw [← hstay.2]
              simp [publishSnapshot, Registry.terminate, Registry.log, Registry.setConn, hde]
            · exact hstay
        · exact ⟨hkeep _ rfl, rfl⟩
    · exact ⟨hkeep _ rfl, rfl⟩

/-- A claimant of a directory: a connected record in conflict. -/
structure Claimant (s : Registry) (k : JsString) (h : InstanceRecord) (c : ConnId) : Prop where
  get : s.records.get k = some h
  state : h.state = .conflicting
  connection : h.connection = some c

variable (D) in
/-- The claimant is the oldest of its directory whose socket takes a frame. -/
def First (s : Registry) (h : InstanceRecord) (c : ConnId) : Prop :=
  (s.conns c).socket.accepts = true ∧
  ∀ k' h' c', Claimant s k' h' c' → (s.conns c').socket.accepts = true →
    ownershipKey D h'.userId h'.registration = ownershipKey D h.userId h.registration → h.sequence ≤ h'.sequence

theorem bySequence_head {l rest : List InstanceRecord} {a : InstanceRecord} (h : bySequence l = a :: rest) :
    ∀ b ∈ l, a.sequence ≤ b.sequence := by
  have htot : Std.Total (fun a b : InstanceRecord => a.sequence ≤ b.sequence) :=
    ⟨fun a b => le_total a.sequence b.sequence⟩
  have htrans : IsTrans InstanceRecord fun a b => a.sequence ≤ b.sequence := ⟨fun _ _ _ => le_trans⟩
  have hs := List.pairwise_insertionSort (fun a b : InstanceRecord => a.sequence ≤ b.sequence) l
  rw [bySequence] at h
  rw [h, List.pairwise_cons] at hs
  intro b hb
  have hmem : b ∈ a :: rest := h ▸ (List.perm_insertionSort _ l).mem_iff.mpr hb
  rcases List.mem_cons.mp hmem with rfl | hb'
  · exact le_rfl
  · exact hs.1 b hb'

theorem get_retire (s : Registry) (r : InstanceRecord) (k : JsString) :
    (retire s r).records.get k =
      if k = r.seat.key then some { r with connection := none, state := .offline, lastSeenAt := s.nowMs }
      else s.records.get k := OMap.get_set ..

theorem get_crown (s : Registry) (d : JsString) (r : InstanceRecord) (k : JsString) :
    (crown s d r).records.get k =
      if k = r.seat.key then some { r with state := .controllable, lastSeenAt := s.nowMs } else s.records.get k :=
  OMap.get_set ..

variable (D) in
/-- The state `q` in which `disconnect s c` sends the next owner of a directory its new state:
    `x`, the oldest claimant, on the connection `e`. -/
structure HandedOver (s : Registry) (c : ConnId) (q : Registry) (k₀ : JsString) (x : InstanceRecord) (e : ConnId) :
    Prop where
  law : Law D none q.roster
  conns : q.conns = s.conns
  connections : q.connections = s.connections.filter (· ≠ c)
  claimant : Claimant s k₀ x e
  crowned : ∃ y, q.records.get k₀ = some y ∧ y.state = .controllable ∧ y.connection = some e
  others : ∀ k y, k ≠ k₀ → q.records.get k = some y → y.state ≠ .offline → s.records.get k = some y
  claims : ∀ k h d, k ≠ k₀ → Claimant s k h d → q.records.get k = some h
  oldest : ∀ k h d, Claimant s k h d → ownershipKey D h.userId h.registration = ownershipKey D x.userId x.registration →
    x.sequence ≤ h.sequence

theorem handedOver {s : Registry} {c : ConnId} {r candidate : InstanceRecord} {rest : List InstanceRecord} {e : ConnId}
    (h : Law D none s.roster) (hon : recordOn s c = some r) (hs : r.state = .controllable)
    (hcand : rivals D (disown (retire (leave s c) r) (ownershipKey D r.userId r.registration))
      (ownershipKey D r.userId r.registration) r.userId = candidate :: rest) (he : candidate.connection = some e) :
    HandedOver D s c (crown (disown (retire (leave s c) r) (ownershipKey D r.userId r.registration))
      (ownershipKey D r.userId r.registration) candidate) candidate.seat.key candidate e := by
  have hget := get_of_recordOn h hon
  have hmem := mem_rivals.mp (hcand ▸ List.mem_cons_self : candidate ∈ rivals D _ _ r.userId)
  obtain ⟨⟨k₀, hk₀⟩, -, hcs, -, hcd⟩ := hmem
  -- The records on the way: `r` has gone offline, the others are as they were.
  have hrec : ∀ k, (disown (retire (leave s c) r) (ownershipKey D r.userId r.registration)).records.get k =
      if k = r.seat.key then some { r with connection := none, state := .offline, lastSeenAt := (leave s c).nowMs }
      else s.records.get k := get_retire (leave s c) r
  have hk₀s : s.records.get k₀ = some candidate := by
    rw [hrec] at hk₀
    split at hk₀
    · cases hk₀; cases hcs
    · exact hk₀
  obtain rfl : k₀ = candidate.seat.key := h.keyed _ candidate.seat (seats_of_get hk₀s)
  have hclaims : ∀ k x d, Claimant s k x d → k ≠ r.seat.key := by
    rintro k x d hx rfl
    have hxs := hx.state
    rw [Option.some.inj (hx.get.symm.trans hget), hs] at hxs; cases hxs
  have hv := h.vacate (seats_of_get hget) (recordOn_eq_some.mp hon).choose_spec.2.2
  rw [← roster_vacate, if_pos hs, if_pos (show r.seat.state = _ from hs)] at hv
  refine ⟨?_, rfl, rfl, ⟨hk₀s, hcs, he⟩,
    ⟨{ candidate with state := .controllable, lastSeenAt := s.nowMs }, (get_crown ..).trans (if_pos rfl), rfl, he⟩,
    ?_, ?_, ?_⟩
  · rw [roster_crown]
    exact hv.crown (seats_of_get hk₀) hcs hcd (OMap.get_delete_self ..)
  · intro k y hk hy hne
    rw [get_crown, if_neg hk, hrec] at hy
    split at hy
    · cases hy; exact absurd rfl hne
    · exact hy
  · intro k x d hk hx
    rw [get_crown, if_neg hk, hrec, if_neg (hclaims k x d hx)]
    exact hx.get
  · intro k x d hx hd
    have hx' : (disown (retire (leave s c) r) (ownershipKey D r.userId r.registration)).records.get k = some x := by
      rw [hrec, if_neg (hclaims k x d hx)]; exact hx.get
    have hxmem : x ∈ rivals D (disown (retire (leave s c) r) (ownershipKey D r.userId r.registration))
        (ownershipKey D r.userId r.registration) r.userId :=
      mem_rivals.mpr ⟨⟨k, hx'⟩, ownershipKey_user (hd.trans hcd), hx.state, by rw [hx.connection]; rfl, hd.trans hcd⟩
    rw [rivals] at hcand hxmem
    exact bySequence_head hcand x (mem_bySequence.mp hxmem)

/-- A `disconnect` only empties a seat, or hands the directory on; the next owner may go in turn. -/
theorem disconnect_cases {s : Registry} {c : ConnId} (h : Law D none s.roster) (hc : c ∈ s.connections) :
    (∀ k y, (disconnect D s c).records.get k = some y → y.state ≠ .offline → s.records.get k = some y) ∨
    ∃ q k₀ x e, HandedOver D s c q k₀ x e ∧
      (((q.conns e).socket.accepts = true ∧ (disconnect D s c).records = q.records) ∨
       ((q.conns e).socket.accepts = false ∧ (disconnect D s c).records = (disconnect D q e).records)) := by
  rw [disconnect_of_mem hc]
  cases hon : recordOn s c with
  | none =>
    left; intro k y hy _
    rw [disconnectBody, recordOn_leave, hon] at hy
    exact hy
  | some r =>
    have hretired : ∀ k y, (retire (leave s c) r).records.get k = some y → y.state ≠ .offline →
        s.records.get k = some y := by
      intro k y hy hne
      rw [get_retire] at hy
      split at hy
      · cases hy; exact absurd rfl hne
      · exact hy
    rw [disconnectBody_eq h hon]
    by_cases hs : r.state = .controllable
    · rw [if_pos hs]
      unfold promoteWith
      split
      · left; exact hretired
      · rename_i candidate rest hcand
        obtain ⟨-, -, -, hsome, -⟩ := mem_rivals.mp (hcand ▸ List.mem_cons_self : candidate ∈ rivals D _ _ r.userId)
        obtain ⟨e, he⟩ := Option.isSome_iff_exists.mp hsome
        right
        refine ⟨_, _, candidate, e, handedOver h hon hs hcand he, ?_⟩
        rw [he]
        dsimp only
        rcases sendWith_cases (disconnect D)
          (crown (disown (retire (leave s c) r) (ownershipKey D r.userId r.registration))
            (ownershipKey D r.userId r.registration) candidate) e
            (.registration candidate.registration.instanceId .controllable) with ⟨ha, hq⟩ | ⟨hb, hq | hq⟩
        · left; rw [hq]; exact ⟨ha, rfl⟩
        · right; rw [hq]; exact ⟨hb, rfl⟩
        · right; rw [hq]; exact ⟨hb, rfl⟩
    · rw [if_neg hs]
      left; exact hretired

/-- A record that is controllable after a `disconnect` was so before, or was the first in line. -/
theorem heir (s : Registry) (c : ConnId) : Law D none s.roster → ∀ k y, (disconnect D s c).records.get k = some y →
    y.state = .controllable → (∃ r, s.records.get k = some r ∧ r.state = .controllable) ∨
      ∃ x e, Claimant s k x e ∧ First D s x e := by
  refine disconnect_rule (R := fun s _ t => Law D none s.roster → ∀ k y, t.records.get k = some y →
    y.state = .controllable → (∃ r, s.records.get k = some r ∧ r.state = .controllable) ∨
      ∃ x e, Claimant s k x e ∧ First D s x e) (fun s c _ _ k y hy hs => Or.inl ⟨y, hy, hs⟩) ?_ s c
  intro s c hc ih h k y hy hs
  rw [← disconnect_of_mem hc] at hy
  have hne : y.state ≠ .offline := by rw [hs]; decide
  rcases disconnect_cases h hc with hq | ⟨q, k₀, x, e, hq, ⟨ha, he⟩ | ⟨hb, he⟩⟩
  · exact Or.inl ⟨y, hq k y hy hne, hs⟩
  · rw [he] at hy
    by_cases hk : k = k₀
    · subst hk
      exact Or.inr ⟨x, e, hq.claimant, hq.conns ▸ ha, fun k' h' d hd _ => hq.oldest k' h' d hd⟩
    · exact Or.inl ⟨y, hq.others k y hk hy hne, hs⟩
  · rw [he] at hy
    by_cases hk : k = k₀
    · -- The candidate itself was disconnected.
      subst hk
      obtain ⟨z, hz, -, hze⟩ := hq.crowned
      obtain ⟨z', hz', hlast⟩ := (disconnect_lasting (keyed_of_law hq.law) e).back k y hy
      obtain rfl : z = z' := Option.some.inj (hz.symm.trans hz')
      have hlaw := law_disconnect q e hq.law
      have hsome := (connected_iff hlaw hy).mpr hne
      rcases hlast.connection with hc' | hc'
      · have hlive := no_dead_record hlaw k y e hy (hc'.trans hze)
        exact absurd rfl (disconnect_connections q e e hlive).2
      · rw [hc'] at hsome; cases hsome
    · rcases ih q e hq.connections hq.law k y hy hs with ⟨r, hr, hrs⟩ | ⟨x', e', hx', hfirst⟩
      · exact Or.inl ⟨r, hq.others k r hk hr (by rw [hrs]; decide), hrs⟩
      · refine Or.inr ⟨x', e', ⟨hq.others k x' hk hx'.get (by rw [hx'.state]; decide), hx'.state, hx'.connection⟩,
          hq.conns ▸ hfirst.1, fun k' h' d hd hda hdir => ?_⟩
        have hk' : k' ≠ k₀ := by
          rintro rfl
          obtain rfl : x = h' := Option.some.inj (hq.claimant.get.symm.trans hd.get)
          obtain rfl : e = d := Option.some.inj (hq.claimant.connection.symm.trans hd.connection)
          rw [hq.conns, hda] at hb; cases hb
        exact hfirst.2 k' h' d ⟨hq.claims k' h' d hk' hd, hd.state, hd.connection⟩ (hq.conns ▸ hda) hdir

theorem lasts_directory {r r' : InstanceRecord} (h : r.Lasts r') :
    ownershipKey D r'.userId r'.registration = ownershipKey D r.userId r.registration := by
  rw [h.userId, h.registration]

/-- When its owner goes, a directory goes to the first in line. -/
theorem promotes_the_oldest_that_accepts {s : Registry} {c : ConnId} {r : InstanceRecord} (h : Law D none s.roster)
    (hon : recordOn s c = some r) (hs : r.state = .controllable) {k : JsString} {x : InstanceRecord} {e : ConnId}
    (hx : Claimant s k x e) (hd : ownershipKey D x.userId x.registration = ownershipKey D r.userId r.registration) :
    (∃ y, (disconnect D s c).records.get k = some y ∧ y.state = .controllable) ↔ First D s x e := by
  constructor
  · rintro ⟨y, hy, hys⟩
    rcases heir s c h k y hy hys with ⟨z, hz, hzs⟩ | ⟨z, d, hz, hfirst⟩
    · rw [Option.some.inj (hz.symm.trans hx.get), hx.state] at hzs; cases hzs
    · obtain rfl : z = x := Option.some.inj (hz.get.symm.trans hx.get)
      obtain rfl : d = e := Option.some.inj (hz.connection.symm.trans hx.connection)
      exact hfirst
  · intro hfirst
    have hget := get_of_recordOn h hon
    have hrc := (recordOn_eq_some.mp hon).choose_spec.2.2
    have hlast := disconnect_lasting (D := D) (keyed_of_law h) c
    have hlaw := law_disconnect s c h
    have hec : e ≠ c := by
      rintro rfl
      obtain rfl := h.one_seat (seats_of_get hx.get) (seats_of_get hget) hx.connection hrc
      have hxs := hx.state
      rw [Option.some.inj (hx.get.symm.trans hget), hs] at hxs; cases hxs
    -- The claimant is still connected, so its directory has an owner.
    obtain ⟨y, hy⟩ := hlast.forth k x hx.get
    obtain ⟨x', hx', hxy⟩ := hlast.back k y hy
    obtain rfl : x = x' := Option.some.inj (hx.get.symm.trans hx')
    have hye := hlast.stays k x y e hx.get hy hx.connection
      (accepting_stays s c e hec (no_dead_record h k x e hx.get hx.connection) hfirst.1).1
    have hversion : y.registration.protocolVersion = SUPPORTED_PROTOCOL_VERSION := by
      have hxs : x.seat.state = .conflicting := hx.state
      have hv := h.versions k x.seat (seats_of_get hx.get) (by rw [hxs]; decide)
      rw [hxs] at hv
      rw [hxy.registration]
      by_contra hp
      exact absurd (hv.mpr hp) (by decide)
    obtain ⟨k', ⟨y', hy', hys', -, -, hyd'⟩, -⟩ := (exclusive_of_law hlaw).served k y hy (by rw [hye]; rfl) hversion
    obtain ⟨z, hz, hzy'⟩ := hlast.back k' y' hy'
    have hzd : ownershipKey D z.userId z.registration = ownershipKey D x.userId x.registration :=
      (lasts_directory hzy').symm.trans (hyd'.trans (lasts_directory hxy))
    rcases heir s c h k' y' hy' hys' with ⟨w, hw, hws⟩ | ⟨w, d, hw, hwfirst⟩
    · -- The old owner is not it.
      obtain rfl : z = w := Option.some.inj (hz.symm.trans hw)
      obtain rfl := h.one_owner (seats_of_get hz) (seats_of_get hget) hws hs (hzd.trans hd)
      obtain rfl : z = r := Option.some.inj (hz.symm.trans hget)
      have hne := (connected_iff hlaw hy').mpr (by rw [hys']; decide)
      rcases hzy'.connection with hc' | hc'
      · exact absurd rfl (disconnect_connections s c c (no_dead_record hlaw _ y' c hy' (hc'.trans hrc))).2
      · rw [hc'] at hne; cases hne
    · obtain rfl : z = w := Option.some.inj (hz.symm.trans hw.get)
      have hle := hfirst.2 k' z d hw hwfirst.1 hzd
      have hge := hwfirst.2 k x e hx hfirst.1 hzd.symm
      obtain rfl := h.ordered k k' x.seat z.seat (seats_of_get hx.get) (seats_of_get hz) (le_antisymm hle hge)
      exact ⟨y', hy', hys'⟩

/-! ## Runs without late frames -/

def Op.framed : Op → Option ConnId
  | .frame c _ => some c
  | _ => none

/-- A frame on a connection the registry has disconnected. -/
def LateFrame (s : Registry) (e : Event) : Prop := ∃ c ∈ e.op.framed, (s.conns c).added = true ∧ c ∉ s.connections

instance (s : Registry) (e : Event) : Decidable (LateFrame s e) := inferInstanceAs (Decidable (∃ c ∈ e.op.framed, _))

theorem lateFrame_of_lateRegister {s : Registry} {e : Event} (h : LateRegister s e) : LateFrame s e := by
  obtain ⟨c, hc, ha, -, hl⟩ := h
  refine ⟨c, ?_, ha, hl⟩
  unfold Op.registering at hc
  split at hc
  · rename_i he; rw [he]; exact hc
  · cases hc

theorem ownership_exclusive (es : List Event) (h : Along (step D) (fun s e => ¬ LateFrame s e) .init es) :
    (Law D none (run D es).roster ∧ ExclusiveOwnership D (run D es)) ∧
    ∀ s c r, Law D none s.roster → recordOn s c = some r → r.state = .controllable →
      ∀ k x e, Claimant s k x e → ownershipKey D x.userId x.registration = ownershipKey D r.userId r.registration →
        ((∃ y, (disconnect D s c).records.get k = some y ∧ y.state = .controllable) ↔ First D s x e) :=
  have hlaw := law_run (h.mono fun _ _ hl hr => hl (lateFrame_of_lateRegister hr))
  ⟨⟨hlaw, exclusive_of_law hlaw⟩, fun _ _ _ hs hon hr _ _ _ hx hd => promotes_the_oldest_that_accepts hs hon hr hx hd⟩

/-- Two more plugins want the directory; the socket of the first of them is full when its owner closes. -/
def contested : List Event :=
  [⟨0, .add (plugin 0) openSocket⟩, ⟨1, .frame (plugin 0) (some (.register (sampleRegistration instance1)))⟩,
    ⟨2, .add (plugin 1) openSocket⟩, ⟨3, .frame (plugin 1) (some (.register (sampleRegistration instance2)))⟩,
    ⟨4, .add (plugin 2) openSocket⟩, ⟨5, .frame (plugin 2) (some (.register (sampleRegistration instance3)))⟩,
    ⟨6, .socket (plugin 1) ⟨READY_OPEN, WS_MAX_BUFFERED_BYTES + 1, false⟩⟩, ⟨7, .close (plugin 0)⟩]

theorem contested_exclusive : ExclusiveOwnership sampleDeps (run sampleDeps contested) ∧
    (run sampleDeps contested).ownership.get sampleDirectory = some instance3 :=
  ⟨(ownership_exclusive (D := sampleDeps) contested (by decide +kernel)).1.2, by decide +kernel⟩

end NotifyHub.Control
