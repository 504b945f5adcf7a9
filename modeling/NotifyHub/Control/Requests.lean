/-
  NotifyHub.Control.Requests — what becomes of the requests a record shows.

  A record rests on the connection that registered its instance (`Seats`), and from
  then on its requests change in two ways only (`requests_step`): an accepted snapshot
  replaces what it shows, and a confirmed result takes one request out. What leaves is
  remembered as stale, in a map that drops its oldest entry when it is full
  (`Remembered`); a stale request that is not shown is refused (`refused`).
-/

import NotifyHub.Control.Commands

namespace NotifyHub.Control

open Relation

variable {D : Deps}

/-! ## Records and their connections -/

structure Seats (s : Registry) : Prop where
  keyed : Keyed s
  held : ∀ k r c, s.records.get k = some r → r.connection = some c →
    c.user = r.userId ∧ (s.conns c).instanceId = some r.registration.instanceId
  named : ∀ c id, (s.conns c).instanceId = some id → (s.conns c).added = true

theorem seats_init : Seats .init := ⟨nofun, nofun, nofun⟩

theorem Seats.congr {s t : Registry} (h : Seats s) (hr : t.records = s.records)
    (hc : ∀ c, (t.conns c).instanceId = (s.conns c).instanceId ∧ (t.conns c).added = (s.conns c).added) : Seats t := by
  refine ⟨?_, ?_, fun c id hid => ?_⟩
  · unfold Keyed; rw [hr]; exact h.keyed
  · rw [hr]; exact fun k r c hk hrc => ⟨(h.held k r c hk hrc).1, (hc c).1.trans (h.held k r c hk hrc).2⟩
  · rw [(hc c).2]; exact h.named c id ((hc c).1 ▸ hid)

/-- The record on a connection is the one found on it. -/
theorem Seats.recordOn {s : Registry} (h : Seats s) {k : JsString} {r : InstanceRecord} {c : ConnId}
    (hk : s.records.get k = some r) (hc : r.connection = some c) : recordOn s c = some r := by
  obtain ⟨hu, hi⟩ := h.held k r c hk hc
  exact recordOn_eq_some.mpr ⟨_, hi, by rw [hu, ← h.keyed k r hk]; exact hk, hc⟩

theorem seats_put {s : Registry} (h : Seats s) {k : JsString} {r r' : InstanceRecord} (hk : s.records.get k = some r)
    (hs : r'.seat = r.seat) : Seats (putRecord s r') := by
  simp only [InstanceRecord.seat, Seat.mk.injEq] at hs
  obtain ⟨hreg, hu, -, -, hconn⟩ := hs
  have hkey : recordKey r'.userId r'.registration.instanceId = k := by rw [hu, hreg]; exact (h.keyed k r hk).symm
  refine ⟨fun k' x hx => ?_, fun k' x c hx hc => ?_, h.named⟩ <;> rw [putRecord, OMap.get_set] at hx <;> split at hx
  · rename_i he; cases hx; exact he
  · exact h.keyed k' x hx
  · cases hx
    rw [hu, hreg]
    exact h.held k r c hk (hconn ▸ hc)
  · exact h.held k' x c hx hc

theorem seats_drop {s : Registry} (h : Seats s) (p : JsString → InstanceRecord → Bool) :
    Seats { s with records := s.records.filter p } := by
  have hsub : ∀ k r, (s.records.filter p).get k = some r → s.records.get k = some r := fun k r hr => by
    rw [OMap.get_filter] at hr; exact (Option.filter_eq_some_iff.mp hr).1
  exact ⟨fun k r hr => h.keyed k r (hsub k r hr), fun k r c hr => h.held k r c (hsub k r hr), h.named⟩

theorem seats_move {op : Op} {s t : Registry} (m : Move D op s t) (h : Seats s) : Seats t := by
  cases m with
  | conn d x ha hu hi =>
    refine h.congr rfl fun c => ?_
    by_cases hc : c = d
    · subst hc; simp [Registry.setConn, ha, hi]
    · simp [Registry.setConn, hc]
  | record c r r' hr hs hq =>
    obtain ⟨id, -, hk, -⟩ := recordOn_eq_some.mp hr
    exact seats_put h hk hs
  | forget key r hr ho hc => exact seats_drop h _
  | add c socket ha ho =>
    simp only [add, ha, Bool.false_eq_true, if_false]
    have hne : ∀ d id, (s.conns d).instanceId = some id → d ≠ c := fun d id hd he => by
      rw [he] at hd; rw [h.named c id hd] at ha; cases ha
    refine ⟨h.keyed, fun k r d hk hd => ?_, fun d id hd => ?_⟩
    · obtain ⟨hu, hi⟩ := h.held k r d hk hd
      exact ⟨hu, by simpa [Registry.setConn, hne d _ hi] using hi⟩
    · by_cases hdc : d = c
      · subst hdc; simp [Registry.setConn]
      · simp only [Registry.setConn, hdc, if_false] at hd ⊢
        exact h.named d id hd
  | enroll c registration existing ho ha hi =>
    have hother : ∀ d id, (s.conns d).instanceId = some id → d ≠ c := fun d id hd he => by
      rw [he, hi] at hd; cases hd
    have hprune : ∀ k r, (pruneOfflineOwnership D (s.setConn c { s.conns c with
        instanceId := some registration.instanceId }) c.user (ownershipKey D c.user registration)
        registration.instanceId).records.get k = some r → s.records.get k = some r := fun k r hr => by
      rw [pruneOfflineOwnership, OMap.get_filter] at hr; exact (Option.filter_eq_some_iff.mp hr).1
    refine ⟨fun k r hr => ?_, fun k r d hr hd => ?_, fun d id hd => ?_⟩
    · simp only [enroll, OMap.get_set] at hr
      split at hr
      · rename_i hk; cases hr; exact hk
      · exact h.keyed k r (hprune k r hr)
    · simp only [enroll, OMap.get_set] at hr
      split at hr
      · cases hr; cases hd
        exact ⟨rfl, by simp [enroll, pruneOfflineOwnership, Registry.setConn]⟩
      · obtain ⟨hu, hi'⟩ := h.held k r d (hprune k r hr) hd
        exact ⟨hu, by simpa [enroll, pruneOfflineOwnership, Registry.setConn, hother d _ hi'] using hi'⟩
    · by_cases hdc : d = c
      · subst hdc; simpa [enroll, pruneOfflineOwnership, Registry.setConn] using ha
      · simp only [enroll, pruneOfflineOwnership, Registry.setConn, hdc, if_false] at hd ⊢
        exact h.named d id hd
  | disconnect c =>
    have hl := disconnect_lasting (D := D) h.keyed c
    refine ⟨hl.keyed, fun k r' d hr' hd => ?_, fun d id hd => ?_⟩
    · obtain ⟨r, hr, hlast⟩ := hl.back k r' hr'
      have hrd : r.connection = some d := by
        rcases hlast.connection with he | he
        · exact he ▸ hd
        · rw [he] at hd; cases hd
      rw [hlast.userId, hlast.registration, (disconnect_same D s c d).2.2]
      exact h.held k r d hr hrd
    · rw [(disconnect_same D s c d).1]
      rw [(disconnect_same D s c d).2.2] at hd
      exact h.named d id hd
  | track q r c hq ht =>
    refine h.congr rfl fun _ => ⟨rfl, rfl⟩
  | _ => exact h.congr rfl fun _ => ⟨rfl, rfl⟩

theorem seats_step {s : Registry} (h : Seats s) (e : Event) : Seats (step D s e) :=
  (step_moves s e).inv (fun _ _ => seats_move) h

/-! ## What a step does to the requests -/

/-- A connection that registered stays registered, under the same instance. -/
theorem instance_move {op : Op} {c : ConnId} {s t : Registry} {id : JsString} (m : Move D op s t) (hs : Seats s)
    (hi : (s.conns c).instanceId = some id) : (t.conns c).instanceId = some id := by
  cases m with
  | conn d x ha hu hid =>
    by_cases hc : c = d
    · subst hc; simpa [Registry.setConn, hid] using hi
    · simpa [Registry.setConn, hc] using hi
  | add d socket ha ho =>
    have hne : c ≠ d := by
      rintro rfl
      rw [hs.named c id hi] at ha; cases ha
    simpa [add, ha, Registry.setConn, hne] using hi
  | enroll d registration existing ho ha hnone =>
    have hne : c ≠ d := by
      rintro rfl
      rw [hnone] at hi; cases hi
    simpa [enroll, pruneOfflineOwnership, Registry.setConn, hne] using hi
  | disconnect d => exact (disconnect_same D s d c).2.2.trans hi
  | _ => exact hi

theorem instance_step {s : Registry} (hs : Seats s) (e : Event) {c : ConnId} {id : JsString}
    (hi : (s.conns c).instanceId = some id) : ((step D s e).conns c).instanceId = some id :=
  ((step_moves s e).inv (P := fun t => Seats t ∧ (t.conns c).instanceId = some id)
    (fun _ _ m h => ⟨seats_move m h.1, instance_move m h.1 h.2⟩) ⟨hs, hi⟩).2

/-- Whatever else an operation does, it leaves the requests of the record on a connection. -/
theorem requests_move {op : Op} {c : ConnId} (hop : ¬ op.Rewrites c) {s₀ s t : Registry}
    {id : JsString} (m : Move D op s t)
    (hs : Seats s) (hi : (s.conns c).instanceId = some id)
    (h : ∀ r', recordOn s c = some r' → ∃ r, recordOn s₀ c = some r ∧ r'.requests = r.requests) :
    ∀ r', recordOn t c = some r' → ∃ r, recordOn s₀ c = some r ∧ r'.requests = r.requests := by
  have hinst : (t.conns c).instanceId = (s.conns c).instanceId := (instance_move m hs hi).trans hi.symm
  cases m with
  | conn d x ha hu hid =>
    refine fun r' hr' => h r' ?_
    rw [recordOn_eq_some] at hr' ⊢
    rwa [hinst] at hr'
  | record d r r' hr hseat hq =>
    intro x hx
    obtain ⟨idd, hidd, hk, hrd⟩ := recordOn_eq_some.mp hr
    obtain ⟨id, hid, hget, hc⟩ := recordOn_eq_some.mp hx
    simp only [InstanceRecord.seat, Seat.mk.injEq] at hseat
    rw [putRecord, OMap.get_set] at hget
    split at hget
    · cases hget
      have hdc : d = c := by rw [hseat.2.2.2.2, hrd] at hc; exact Option.some.inj hc
      subst hdc
      obtain ⟨y, hy, hyr⟩ := h r hr
      rcases hq with hq | hq
      · exact ⟨y, hy, hq.trans hyr⟩
      · exact absurd hq hop
    · exact h x (recordOn_eq_some.mpr ⟨id, hid, hget, hc⟩)
  | forget key r hr ho hc =>
    intro x hx
    obtain ⟨id, hid, hget, hxc⟩ := recordOn_eq_some.mp hx
    rw [OMap.delete, OMap.get_filter] at hget
    exact h x (recordOn_eq_some.mpr ⟨id, hid, (Option.filter_eq_some_iff.mp hget).1, hxc⟩)
  | add d socket ha ho =>
    simp only [add, ha, Bool.false_eq_true, if_false] at hinst ⊢
    refine fun r' hr' => h r' ?_
    rw [recordOn_eq_some] at hr' ⊢
    rwa [hinst] at hr'
  | enroll d registration existing ho ha hnone =>
    intro x hx
    obtain ⟨id, hid, hget, hxc⟩ := recordOn_eq_some.mp hx
    simp only [enroll, OMap.get_set] at hget
    split at hget
    · cases hget; cases hxc
      rw [hnone] at hi; cases hi
    · rw [pruneOfflineOwnership, OMap.get_filter] at hget
      exact h x (recordOn_eq_some.mpr ⟨id, hinst ▸ hid, (Option.filter_eq_some_iff.mp hget).1, hxc⟩)
  | disconnect d =>
    have hl := disconnect_lasting (D := D) hs.keyed d
    intro x hx
    obtain ⟨id, hid, hget, hxc⟩ := recordOn_eq_some.mp hx
    obtain ⟨r, hr, hlast⟩ := hl.back _ x hget
    have hrc : r.connection = some c := by
      rcases hlast.connection with he | he
      · exact he ▸ hxc
      · rw [he] at hxc; cases hxc
    obtain ⟨y, hy, hyr⟩ := h r (hs.recordOn hr hrc)
    refine ⟨y, hy, ?_⟩
    rw [← hyr, InstanceRecord.requests, InstanceRecord.requests, hlast.projected, hlast.stale]
  | _ => exact h

theorem requests_kept {s : Registry} (hs : Seats s) {e : Event} {c : ConnId} (hop : ¬ e.op.Rewrites c)
    {id : JsString} (hi : (s.conns c).instanceId = some id) {r' : InstanceRecord}
    (hr' : recordOn (step D s e) c = some r') :
    ∃ r, recordOn s c = some r ∧ r'.requests = r.requests :=
  ((step_moves s e).inv (P := fun t => Seats t ∧ (t.conns c).instanceId = some id ∧
      ∀ r', recordOn t c = some r' → ∃ r, recordOn s c = some r ∧ r'.requests = r.requests)
    (fun _ _ m h => ⟨seats_move m h.1, instance_move m h.1 h.2.1, requests_move hop m h.1 h.2.1 h.2.2⟩)
    ⟨hs, hi, fun r hr => ⟨r, hr, rfl⟩⟩).2.2 r' hr'

theorem recordOn_onRecord {s : Registry} (hs : Seats s) {c : ConnId} {f : InstanceRecord → InstanceRecord}
    (hf : ∀ r, (f r).seat = r.seat) : recordOn (onRecord s c f) c = (recordOn s c).map f := by
  unfold onRecord
  cases hr : recordOn s c with
  | none => exact hr
  | some r =>
    obtain ⟨id, hid, hk, hc⟩ := recordOn_eq_some.mp hr
    have hseat := hf r
    simp only [InstanceRecord.seat, Seat.mk.injEq] at hseat
    refine recordOn_eq_some.mpr ⟨id, hid, ?_, hseat.2.2.2.2.trans hc⟩
    show (s.records.set (recordKey (f r).userId (f r).registration.instanceId) (f r)).get _ = _
    rw [hseat.2.1, hseat.1, ← hs.keyed _ r hk, OMap.get_set_self]

/-- The registry takes the frame for the answer to a request of its own. -/
def Accepts (s : Registry) (c : ConnId) (requestId instanceId : JsString) : Prop :=
  (s.conns c).added = true ∧ (s.conns c).instanceId = some instanceId ∧
    (s.pendingRequests.get (pendingKey s c requestId)).isSome = true

instance (s : Registry) (c : ConnId) (requestId instanceId : JsString) : Decidable (Accepts s c requestId instanceId) :=
  inferInstanceAs (Decidable (_ ∧ _ ∧ _))

/-- The frame is handled with the connection marked alive. -/
def marked (s : Registry) (c : ConnId) : Registry := s.setConn c { s.conns c with alive := true }

theorem marked_conns (s : Registry) (c d : ConnId) : ((marked s c).conns d).added = (s.conns d).added ∧
    ((marked s c).conns d).uid = (s.conns d).uid ∧ ((marked s c).conns d).instanceId = (s.conns d).instanceId := by
  by_cases hd : d = c
  · subst hd; simp [marked, Registry.setConn]
  · simp [marked, Registry.setConn, hd]

theorem seats_marked {s : Registry} (h : Seats s) (c : ConnId) : Seats (marked s c) :=
  h.congr rfl fun d => ⟨(marked_conns s c d).2.2, (marked_conns s c d).1⟩

theorem recordOn_marked (s : Registry) (c d : ConnId) : recordOn (marked s c) d = recordOn s d := by
  unfold recordOn
  rw [(marked_conns s c d).2.2]
  rfl

theorem pendingKey_marked (s : Registry) (c : ConnId) (id : JsString) :
    pendingKey (marked s c) c id = pendingKey s c id := by
  rw [pendingKey, pendingKey, (marked_conns s c c).2.1]

theorem commandKey_marked (s : Registry) (c : ConnId) (id : JsString) :
    commandKey (marked s c) c id = commandKey s c id := by
  rw [commandKey, commandKey, (marked_conns s c c).2.1]

theorem commands_marked (s : Registry) (c : ConnId) (k : CommandKind) : (marked s c).commands k = s.commands k := by
  cases k <;> rfl

/-- A snapshot response rewrites the record on its connection exactly when it is accepted. -/
theorem recordOn_snapshot {s : Registry} (hs : Seats s) (now : Nat) (c : ConnId) (requestId instanceId : JsString)
    (interactions : List PendingInteraction) :
    recordOn (step D s ⟨now, .frame c (some (.pendingSnapshotResponse requestId instanceId interactions))⟩) c =
      if Accepts s c requestId instanceId then (recordOn s c).map (applyProjection now interactions)
        else recordOn s c := by
  have hsn : Seats { s with nowMs := now } := hs.congr rfl fun _ => ⟨rfl, rfl⟩
  show recordOn (receive D { s with nowMs := now } c _) c =
    if Accepts { s with nowMs := now } c requestId instanceId
    then (recordOn { s with nowMs := now } c).map
      (applyProjection ({ s with nowMs := now } : Registry).nowMs interactions)
    else recordOn { s with nowMs := now } c
  generalize ({ s with nowMs := now } : Registry) = x at hsn
  by_cases ha : (x.conns c).added = true
  · have hreceive : receive D x c (some (.pendingSnapshotResponse requestId instanceId interactions)) =
        handleSnapshotResponse (marked x c) c requestId instanceId interactions := by
      unfold receive
      rw [if_neg (by rw [ha]; decide)]
      rfl
    rw [hreceive]
    unfold handleSnapshotResponse
    rw [(marked_conns x c c).2.2, pendingKey_marked]
    by_cases hi : (x.conns c).instanceId = some instanceId
    · rw [if_neg (not_not.mpr hi)]
      cases hp : x.pendingRequests.get (pendingKey x c requestId) with
      | none =>
        rw [show (marked x c).pendingRequests.get (pendingKey x c requestId) = none from hp,
          if_neg fun h : Accepts x c requestId instanceId => by have := h.2.2; rw [hp] at this; cases this]
        exact recordOn_marked x c c
      | some p =>
        rw [show (marked x c).pendingRequests.get (pendingKey x c requestId) = some p from hp,
          if_pos (show Accepts x c requestId instanceId from ⟨ha, hi, by rw [hp]; rfl⟩),
          ← recordOn_marked x c c]
        have hdrop : Seats { marked x c with
            pendingRequests := (marked x c).pendingRequests.delete (pendingKey x c requestId) } :=
          (seats_marked hsn c).congr rfl fun _ => ⟨rfl, rfl⟩
        exact recordOn_onRecord hdrop (f := applyProjection x.nowMs interactions) fun _ => rfl
    · rw [if_pos hi, if_neg fun h : Accepts x c requestId instanceId => hi h.2.1]
      exact recordOn_marked x c c
  · rw [if_neg fun h : Accepts x c requestId instanceId => ha h.1, receive, if_pos (Bool.not_eq_true _ ▸ ha)]

/-- The command the registry takes the result for. -/
def Answers (s : Registry) (k : CommandKind) (c : ConnId) (commandId instanceId : JsString) : Option PendingCommand :=
  if (s.conns c).added = true ∧ (s.conns c).instanceId = some instanceId then
    (s.commands k).get (commandKey s c commandId)
  else none

theorem receive_result {s : Registry} {c : ConnId} (ha : (s.conns c).added = true) (k : CommandKind)
    (commandId instanceId : JsString) (status : CommandStatus) :
    receive D s c (some (k.result commandId instanceId status)) =
      handleCommandResult k (marked s c) c commandId instanceId status := by
  unfold receive
  rw [if_neg (by rw [ha]; decide)]
  cases k <;> rfl

/-- A confirmed result takes its request out of the record on its connection. -/
theorem recordOn_result {s : Registry} (hs : Seats s) (now : Nat) (k : CommandKind) (c : ConnId)
    (commandId instanceId : JsString) :
    recordOn (step D s ⟨now, .frame c (some (k.result commandId instanceId .confirmed))⟩) c =
      match Answers s k c commandId instanceId with
      | some p => (recordOn s c).map (confirmRequest now p.requestId)
      | none => recordOn s c := by
  have hsn : Seats { s with nowMs := now } := hs.congr rfl fun _ => ⟨rfl, rfl⟩
  show recordOn (receive D { s with nowMs := now } c _) c =
    match Answers { s with nowMs := now } k c commandId instanceId with
    | some p => (recordOn { s with nowMs := now } c).map (confirmRequest
        ({ s with nowMs := now } : Registry).nowMs p.requestId)
    | none => recordOn { s with nowMs := now } c
  generalize ({ s with nowMs := now } : Registry) = x at hsn
  unfold Answers
  cases ha : (x.conns c).added with
  | false =>
    rw [if_neg (by simp), receive, if_pos ha]
  | true =>
    rw [receive_result ha]
    unfold handleCommandResult
    rw [(marked_conns x c c).2.2, commandKey_marked, commands_marked]
    by_cases hi : (x.conns c).instanceId = some instanceId
    · rw [if_neg (not_not.mpr hi), if_pos ⟨rfl, hi⟩]
      cases hp : (x.commands k).get (commandKey x c commandId) with
      | none => exact recordOn_marked x c c
      | some p =>
        dsimp only
        rw [if_pos rfl, ← recordOn_marked x c c]
        have hun : Seats (untrackCommand (marked x c) k c commandId) :=
          (seats_marked hsn c).congr (by cases k <;> rfl) fun _ => by cases k <;> exact ⟨rfl, rfl⟩
        exact recordOn_onRecord hun (f := confirmRequest x.nowMs p.requestId) fun _ => rfl
    · rw [if_pos hi, if_neg fun h => hi h.2]
      exact recordOn_marked x c c

/-- What a step does to the requests of the record on a connection. -/
theorem requests_step {s : Registry} (hs : Seats s) (e : Event) {c : ConnId} {id : JsString}
    (hi : (s.conns c).instanceId = some id) {r' : InstanceRecord} (hr' : recordOn (step D s e) c = some r') :
    ∃ r, recordOn s c = some r ∧
      (r'.requests = r.requests ∨
        (∃ requestId instanceId interactions,
          e.op = .frame c (some (.pendingSnapshotResponse requestId instanceId interactions)) ∧
          Accepts s c requestId instanceId ∧ r' = applyProjection e.now interactions r) ∨
        ∃ k commandId instanceId p, e.op = .frame c (some (CommandKind.result k commandId instanceId .confirmed)) ∧
          Answers s k c commandId instanceId = some p ∧ r' = confirmRequest e.now p.requestId r) := by
  obtain ⟨now, op⟩ := e
  by_cases hop : op.Rewrites c
  · rcases hop with ⟨requestId, instanceId, l, rfl⟩ | ⟨k, commandId, instanceId, rfl⟩
    · rw [recordOn_snapshot hs] at hr'
      split at hr'
      · rename_i hacc
        obtain ⟨r, hr, rfl⟩ := Option.map_eq_some_iff.mp hr'
        exact ⟨r, hr, Or.inr (Or.inl ⟨requestId, instanceId, l, rfl, hacc, rfl⟩)⟩
      · exact ⟨r', hr', Or.inl rfl⟩
    · rw [recordOn_result hs] at hr'
      cases hp : Answers s k c commandId instanceId with
      | none => rw [hp] at hr'; exact ⟨r', hr', Or.inl rfl⟩
      | some p =>
        rw [hp] at hr'
        obtain ⟨r, hr, rfl⟩ := Option.map_eq_some_iff.mp hr'
        exact ⟨r, hr, Or.inr (Or.inr ⟨k, commandId, instanceId, p, rfl, hp, rfl⟩)⟩
  · obtain ⟨r, hr, hreq⟩ := requests_kept hs hop hi hr'
    exact ⟨r, hr, Or.inl hreq⟩

/-! ## Stale requests -/

/-- The id is remembered, and only ids of the list were remembered after it. -/
def Remembered (id : JsString) (later : List JsString) (stale : OMap JsString Nat) : Prop :=
  ∃ before after, stale.keys = before ++ id :: after ∧ ∀ x ∈ after, x ∈ later

/-- The ids remembered after one. -/
def behind (id : JsString) (stale : OMap JsString Nat) : List JsString := (stale.keys.dropWhile (· ≠ id)).tail

theorem split_behind {id : JsString} {stale : OMap JsString Nat} (h : id ∈ stale.keys) :
    ∃ before, stale.keys = before ++ id :: behind id stale := by
  have hsplit : ∀ l : List JsString, id ∈ l → ∃ before, l = before ++ id :: (l.dropWhile (· ≠ id)).tail := by
    intro l
    induction l with
    | nil => exact nofun
    | cons x l ih =>
      intro hmem
      by_cases hx : x = id
      · exact ⟨[], by simp [hx]⟩
      · obtain ⟨before, hl⟩ := ih ((List.mem_cons.mp hmem).resolve_left (Ne.symm hx))
        refine ⟨x :: before, ?_⟩
        rw [List.dropWhile_cons_of_pos (by simpa using hx), List.cons_append, ← hl]
  exact hsplit _ h

theorem keys_evict {α : Type} (m : OMap JsString α) (n : Nat) : (m.evict n).keys = m.keys.drop (m.keys.length - n) := by
  rw [OMap.keys, OMap.keys, OMap.evict, List.map_drop, List.length_map]
  rfl

theorem nodup_keys {α : Type} (m : OMap JsString α) : m.keys.Nodup := m.nodup

/-- The eviction reaches an id only when the map is full of later ones. -/
theorem remembered_evict {id : JsString} {later : List JsString} {stale : OMap JsString Nat}
    (h : Remembered id later stale)
    (hfew : later.length < MAX_STALE_REQUEST_IDS) : Remembered id later (stale.evict MAX_STALE_REQUEST_IDS) := by
  obtain ⟨before, after, hkeys, hafter⟩ := h
  have hnodup : after.Nodup := by
    have := nodup_keys stale
    rw [hkeys] at this
    exact (List.nodup_cons.mp (List.nodup_append.mp this).2.1).2
  have hlen : after.length ≤ later.length := (List.subperm_of_subset hnodup hafter).length_le
  refine ⟨before.drop (stale.keys.length - MAX_STALE_REQUEST_IDS), after, ?_, hafter⟩
  rw [keys_evict, hkeys, List.drop_append_of_le_length]
  simp only [List.length_append, List.length_cons]
  omega

theorem remembered_other {id : JsString} {later : List JsString} {stale : OMap JsString Nat}
    (h : Remembered id later stale)
    (hfew : later.length < MAX_STALE_REQUEST_IDS) {q : JsString} (hq : q = id ∨ q ∈ later) (now : Nat) :
    Remembered id later (rememberStale now stale q) := by
  refine remembered_evict ?_ hfew
  obtain ⟨before, after, hkeys, hafter⟩ := h
  by_cases hmem : q ∈ stale.keys
  · exact ⟨before, after, (OMap.keys_set_of_mem now hmem).trans hkeys, hafter⟩
  · refine ⟨before, after ++ [q], ?_, fun x hx => ?_⟩
    · rw [OMap.keys_set_of_not_mem now hmem, hkeys, List.append_assoc, List.cons_append]
    · rcases List.mem_append.mp hx with hx | hx
      · exact hafter x hx
      · rw [List.mem_singleton.mp hx]
        refine hq.resolve_left fun he => hmem ?_
        rw [he, hkeys]
        exact List.mem_append_right _ List.mem_cons_self

/-- An id just remembered, at the end of the map or where it stood. -/
theorem remembered_self {id : JsString} {later : List JsString} {stale : OMap JsString Nat}
    (h : ∀ x ∈ behind id stale, x ∈ later)
    (hfew : later.length < MAX_STALE_REQUEST_IDS) (now : Nat) : Remembered id later (rememberStale now stale id) := by
  refine remembered_evict ?_ hfew
  by_cases hmem : id ∈ stale.keys
  · obtain ⟨before, hsplit⟩ := split_behind hmem
    exact ⟨before, behind id stale, (OMap.keys_set_of_mem now hmem).trans hsplit, h⟩
  · exact ⟨stale.keys, [], OMap.keys_set_of_not_mem now hmem, nofun⟩

theorem remembered_all {id : JsString} {later : List JsString} (hfew : later.length < MAX_STALE_REQUEST_IDS) (now : Nat)
    {l : List JsString} {stale : OMap JsString Nat} (h : Remembered id later stale) (hl : ∀ q ∈ l, q = id ∨ q ∈ later) :
    Remembered id later (l.foldl (rememberStale now) stale) := by
  induction l generalizing stale with
  | nil => exact h
  | cons q l ih =>
    have hq := remembered_other h hfew (hl q List.mem_cons_self) now
    rw [List.foldl_cons]
    exact ih hq fun x hx => hl x (List.mem_cons_of_mem _ hx)

/-- One more stale id drops a remembered one only when the map is full. -/
theorem rememberStale_or_full {stale : OMap JsString Nat} {id q : JsString} (now : Nat)
    (h : id = q ∨ stale.has id = true ∨ stale.size = MAX_STALE_REQUEST_IDS) :
    (rememberStale now stale q).has id = true ∨ (rememberStale now stale q).size = MAX_STALE_REQUEST_IDS := by
  have hsize : (rememberStale now stale q).size = min (stale.set q now).size MAX_STALE_REQUEST_IDS := by
    rw [rememberStale, OMap.size_evict]
  rcases h with hid | hid | hfull
  · by_cases hle : (stale.set q now).size ≤ MAX_STALE_REQUEST_IDS
    · left
      rw [rememberStale, OMap.evict_eq_self hle, hid, OMap.has, OMap.get_set_self]; rfl
    · right; rw [hsize]; omega
  · by_cases hle : (stale.set q now).size ≤ MAX_STALE_REQUEST_IDS
    · left
      rw [rememberStale, OMap.evict_eq_self hle, OMap.has, OMap.get_set]
      split
      · rfl
      · exact hid
    · right; rw [hsize]; omega
  · right
    have := OMap.size_le_set stale q now
    rw [hsize]; omega

theorem remembered_or_full {l : List JsString} {id : JsString} (now : Nat) : ∀ {stale : OMap JsString Nat},
    (id ∈ l ∨ stale.has id = true ∨ stale.size = MAX_STALE_REQUEST_IDS) →
    (l.foldl (rememberStale now) stale).has id = true ∨
      (l.foldl (rememberStale now) stale).size = MAX_STALE_REQUEST_IDS := by
  induction l with
  | nil => exact fun h => h.resolve_left List.not_mem_nil
  | cons q l ih =>
    intro stale h
    rw [List.foldl_cons]
    refine ih ?_
    rcases h with h | h
    · rcases List.mem_cons.mp h with h | h
      · exact Or.inr (rememberStale_or_full now (Or.inl h))
      · exact Or.inl h
    · exact Or.inr (rememberStale_or_full now (Or.inr h))

theorem incoming_has {l : List PendingInteraction} {id : JsString} :
    (incoming l).has id = true ↔ ∃ i ∈ l, i.requestId = id := by
  have hfold : ∀ (l : List PendingInteraction) (m : OMap JsString Projected),
      (l.foldl (fun m i => m.set i.requestId ⟨i.kind, i.sessionId⟩) m).has id = true ↔
        (∃ i ∈ l, i.requestId = id) ∨ m.has id = true := by
    intro l
    induction l with
    | nil => simp
    | cons i l ih =>
      intro m
      rw [List.foldl_cons, ih, OMap.has, OMap.get_set]
      by_cases hi : id = i.requestId
      · simp [hi]
      · simp [hi, Ne.symm hi, OMap.has]
  rw [incoming, hfold]
  simp [OMap.has]

/-- The request is not shown, and remembered as stale. -/
structure Withdrawn (id : JsString) (later : List JsString) (r : InstanceRecord) : Prop where
  hidden : r.projectedRequests.get id = none
  stale : Remembered id later r.staleRequests

/-- The ids an event makes stale on a connection: those an accepted snapshot no longer shows,
    and that of a confirmed result. -/
def GoesStale (s : Registry) (e : Event) (c : ConnId) (q : JsString) : Prop :=
  (∃ r requestId instanceId l, recordOn s c = some r ∧
      e.op = .frame c (some (.pendingSnapshotResponse requestId instanceId l)) ∧ Accepts s c requestId instanceId ∧
      r.projectedRequests.has q = true ∧ ∀ i ∈ l, i.requestId ≠ q) ∨
    ∃ k commandId instanceId p, e.op = .frame c (some (CommandKind.result k commandId instanceId .confirmed)) ∧
      Answers s k c commandId instanceId = some p ∧ p.requestId = q

theorem withdrawn_step {s : Registry} (hs : Seats s) {e : Event} {c : ConnId} {id instanceId : JsString}
    {later : List JsString} (hi : (s.conns c).instanceId = some instanceId)
    (hfew : later.length < MAX_STALE_REQUEST_IDS)
    (h : ∀ r, recordOn s c = some r → Withdrawn id later r)
    (hshown : ∀ requestId instanceId l, e.op = .frame c (some (.pendingSnapshotResponse requestId instanceId l)) →
      Accepts s c requestId instanceId → ∀ i ∈ l, i.requestId ≠ id)
    (hstale : ∀ q, GoesStale s e c q → q = id ∨ q ∈ later) :
    ∀ r, recordOn (step D s e) c = some r → Withdrawn id later r := by
  intro r' hr'
  obtain ⟨r, hr, hcase⟩ := requests_step hs e hi hr'
  obtain ⟨hhidden, hrem⟩ := h r hr
  rcases hcase with hsame | ⟨requestId, instanceId, l, hop, hacc, rfl⟩ | ⟨k, commandId, instanceId, p, hop, hp, rfl⟩
  · simp only [InstanceRecord.requests, Prod.mk.injEq] at hsame
    exact ⟨hsame.1 ▸ hhidden, hsame.2 ▸ hrem⟩
  · have hnot := hshown requestId instanceId l hop hacc
    refine ⟨?_, remembered_all hfew _ hrem fun q hq => ?_⟩
    · have : ¬ (incoming l).has id = true := fun hn => by
        obtain ⟨i, hi, he⟩ := incoming_has.mp hn
        exact hnot i hi he
      rw [OMap.has, Option.isSome_iff_ne_none, ne_eq, not_not] at this
      exact this
    · obtain ⟨hmem, hgone⟩ := List.mem_filter.mp hq
      refine hstale q (Or.inl
        ⟨r, requestId, instanceId, l, hr, hop, hacc, OMap.has_eq_true.mpr hmem, fun i hi he => ?_⟩)
      rw [incoming_has.mpr ⟨i, hi, he⟩] at hgone
      cases hgone
  · have hq := hstale p.requestId (Or.inr ⟨k, commandId, instanceId, p, hop, hp, rfl⟩)
    refine ⟨?_, remembered_other hrem hfew hq _⟩
    simp only [confirmRequest, OMap.get_delete, hhidden, ite_self]

/-- A confirmed result withdraws its request. -/
theorem withdrawn_result {r : InstanceRecord} {id : JsString} {later : List JsString} (now : Nat)
    (h : ∀ x ∈ behind id r.staleRequests, x ∈ later) (hfew : later.length < MAX_STALE_REQUEST_IDS) :
    Withdrawn id later (confirmRequest now id r) :=
  ⟨OMap.get_delete_self _ _, remembered_self h hfew now⟩

/-- Every answer and decision for the request on the connection is a conflict, and changes nothing. -/
def Refuses (D : Deps) (s : Registry) (c : ConnId) (id : JsString) : Prop :=
  ∀ q : Route, q.requestId = id → (s.records.get (recordKey q.user q.instanceId)).bind (reachable s) = some c →
    q.call D s = (s, .conflict)

theorem refused {s : Registry} (hs : Seats s) {c : ConnId} {id : JsString} {later : List JsString}
    (h : ∀ r, recordOn s c = some r → Withdrawn id later r) : Refuses D s c id := by
  intro q hq hreach
  obtain ⟨r, hr, hc⟩ := Option.bind_eq_some_iff.mp hreach
  have hu : r.userId = q.user := (recordKey_inj (hs.keyed _ r hr)).1.symm
  have hw := h r (hs.recordOn hr (Option.filter_eq_some_iff.mp hc).1)
  have hstale : r.staleRequests.has id = true := by
    obtain ⟨before, after, hkeys, -⟩ := hw.stale
    rw [OMap.has_eq_true, hkeys]
    exact List.mem_append_right _ List.mem_cons_self
  unfold Route.call routeCommand commandTarget
  simp only [hr, Option.filter_some, hu, decide_true, if_true, hc, hq, hw.hidden, hstale]

end NotifyHub.Control
