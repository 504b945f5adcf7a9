/-
  NotifyHub.Control.Owners — who owns a directory.

  `Roster` is what ownership depends on: the seats (records without their requests),
  the owner of each ownership key, and the live connections. `Law` is the invariant of
  a roster. `disconnect` empties a seat, takes the directory from it and hands it to the
  next in line, which may fail in turn; in between, the directory has claimants and no
  owner, so the law names that key (`gap`).

  Every seat with a connection rests on a live one, unless a `register` frame arrives
  on a connection that was disconnected before it had registered (`LateRegister`):
  `disconnect` finds the connection already gone, and `register` never asks.
-/

import NotifyHub.Control.Moves

namespace NotifyHub.Control

open Relation

@[ext] structure Roster where
  seats : JsString → Option Seat
  owner : JsString → Option JsString
  live : ConnId → Prop
  added : ConnId → Prop
  instanceOf : ConnId → Option JsString
  nextSequence : Nat

def Registry.roster (s : Registry) : Roster where
  seats k := (s.records.get k).map (·.seat)
  owner := s.ownership.get
  live c := c ∈ s.connections
  added c := (s.conns c).added = true
  instanceOf c := (s.conns c).instanceId
  nextSequence := s.nextSequence

variable (D : Deps)

def Seat.key (r : Seat) : JsString := recordKey r.userId r.registration.instanceId

def Seat.directory (r : Seat) : JsString := ownershipKey D r.userId r.registration

structure Law (gap : Option JsString) (R : Roster) : Prop where
  keyed : ∀ k r, R.seats k = some r → k = r.key
  joined : ∀ c, R.live c → R.added c
  held : ∀ k r c, R.seats k = some r → r.connection = some c →
    R.live c ∧ R.instanceOf c = some r.registration.instanceId ∧ c.user = r.userId
  offline : ∀ k r, R.seats k = some r → (r.state = .offline ↔ r.connection = none)
  owns : ∀ k r, R.seats k = some r → r.state = .controllable →
    R.owner (r.directory D) = some r.registration.instanceId
  owned : ∀ d id, R.owner d = some id → ∃ k r, R.seats k = some r ∧ r.state = .controllable ∧
    r.registration.instanceId = id ∧ r.directory D = d
  versions : ∀ k r, R.seats k = some r → r.state ≠ .offline →
    (r.state = .incompatible ↔ r.registration.protocolVersion ≠ SUPPORTED_PROTOCOL_VERSION)
  waits : ∀ k r, R.seats k = some r → r.state = .conflicting → gap ≠ some (r.directory D) →
    R.owner (r.directory D) ≠ none
  below : ∀ k r, R.seats k = some r → r.sequence < R.nextSequence
  ordered : ∀ k k' r r', R.seats k = some r → R.seats k' = some r' → r.sequence = r'.sequence → k = k'

variable {D}

theorem law_init : Law D none Registry.init.roster := by
  refine ⟨?_, ?_, ?_, ?_, ?_, ?_, ?_, ?_, ?_, ?_⟩ <;> intros <;> simp_all [Registry.init, Registry.roster]

theorem seats_eq_some {s : Registry} {k : JsString} {x : Seat} :
    s.roster.seats k = some x ↔ ∃ r, s.records.get k = some r ∧ r.seat = x := Option.map_eq_some_iff

theorem seats_of_get {s : Registry} {k : JsString} {r : InstanceRecord} (h : s.records.get k = some r) :
    s.roster.seats k = some r.seat := seats_eq_some.mpr ⟨r, h, rfl⟩

/-! ## Reading the law -/

namespace Law

variable {gap : Option JsString} {R : Roster}

/-- A connection holds one seat. -/
theorem one_seat (h : Law D gap R) {k k' : JsString} {r r' : Seat} {c : ConnId} (hr : R.seats k = some r)
    (hr' : R.seats k' = some r') (hc : r.connection = some c) (hc' : r'.connection = some c) : k = k' := by
  obtain ⟨-, hi, hu⟩ := h.held k r c hr hc
  obtain ⟨-, hi', hu'⟩ := h.held k' r' c hr' hc'
  rw [h.keyed k r hr, h.keyed k' r' hr', Seat.key, Seat.key, ← hu, ← hu', Option.some.inj (hi.symm.trans hi')]

/-- A directory has one controllable seat. -/
theorem one_owner (h : Law D gap R) {k k' : JsString} {r r' : Seat} (hr : R.seats k = some r)
    (hr' : R.seats k' = some r') (hs : r.state = .controllable) (hs' : r'.state = .controllable)
    (hd : r.directory D = r'.directory D) : k = k' := by
  have hi := (h.owns k r hr hs).symm.trans (hd ▸ h.owns k' r' hr' hs')
  rw [h.keyed k r hr, h.keyed k' r' hr', Seat.key, Seat.key, ownershipKey_user hd, Option.some.inj hi]

/-- A seat that is neither offline nor incompatible has an owner of its directory. -/
theorem has_owner (h : Law D none R) {k : JsString} {r : Seat} (hr : R.seats k = some r)
    (hs : r.state = .controllable ∨ r.state = .conflicting) :
    ∃ k' r', R.seats k' = some r' ∧ r'.state = .controllable ∧ r'.directory D = r.directory D := by
  have hne : R.owner (r.directory D) ≠ none := by
    rcases hs with hs | hs
    · rw [h.owns k r hr hs]; exact Option.some_ne_none _
    · exact h.waits k r hr hs nofun
  obtain ⟨id, hid⟩ := Option.ne_none_iff_exists'.mp hne
  obtain ⟨k', r', hr', hs', -, hd⟩ := h.owned _ id hid
  exact ⟨k', r', hr', hs', hd⟩

end Law

/-- The seat a connection holds is the one `recordOn` finds. -/
theorem recordOn_of_seat {s : Registry} {gap : Option JsString} (h : Law D gap s.roster) {k : JsString}
    {r : InstanceRecord} {c : ConnId} (hr : s.records.get k = some r) (hc : r.connection = some c) :
    recordOn s c = some r := by
  obtain ⟨-, hi, hu⟩ := h.held k r.seat c (seats_of_get hr) hc
  refine recordOn_eq_some.mpr ⟨_, hi, ?_, hc⟩
  have hk : k = recordKey r.userId r.registration.instanceId := h.keyed k r.seat (seats_of_get hr)
  rw [hu, ← hr, hk]; rfl

theorem get_of_recordOn {s : Registry} {gap : Option JsString} (h : Law D gap s.roster) {r : InstanceRecord}
    {c : ConnId} (hr : recordOn s c = some r) : s.records.get r.seat.key = some r := by
  obtain ⟨id, -, hg, -⟩ := recordOn_eq_some.mp hr
  exact h.keyed _ _ (seats_of_get hg) ▸ hg

theorem keyed_of_law {s : Registry} {gap : Option JsString} (h : Law D gap s.roster) : Keyed s :=
  fun _ r hr => h.keyed _ r.seat (seats_of_get hr)

/-! ## What happens to a roster -/

/-- A seat that has lost its connection. -/
def Seat.empty (x : Seat) : Seat := { x with connection := none, state := .offline }

def Seat.crowned (x : Seat) : Seat := { x with state := .controllable }

namespace Roster

def leave (R : Roster) (c : ConnId) : Roster := { R with live := fun d => R.live d ∧ d ≠ c }

def put (R : Roster) (x : Seat) : Roster := { R with seats := fun k => if k = x.key then some x else R.seats k }

def setOwner (R : Roster) (directory : JsString) (id : Option JsString) : Roster :=
  { R with owner := fun d => if d = directory then id else R.owner d }

/-- Take away the seats `p` rejects. -/
def drop (R : Roster) (p : Seat → Bool) : Roster := { R with seats := fun k => (R.seats k).filter p }

variable (D) in
/-- A connection goes: its seat is empty, and the directory it owned has no owner. -/
def vacate (R : Roster) (c : ConnId) (x : Seat) : Roster :=
  let R' := (R.leave c).put x.empty
  if x.state = .controllable then R'.setOwner (x.directory D) none else R'

variable (D) in
/-- A live connection that held no seat takes one. -/
def join (R : Roster) (c : ConnId) (x : Seat) (nextSequence : Nat) : Roster :=
  { R.put x with
    owner := fun d => if x.state = .controllable ∧ d = x.directory D then some x.registration.instanceId else R.owner d
    instanceOf := fun d => if d = c then some x.registration.instanceId else R.instanceOf d
    nextSequence }

def connect (R : Roster) (c : ConnId) : Roster :=
  { R with
    live := fun d => R.live d ∨ d = c
    added := fun d => R.added d ∨ d = c
    instanceOf := fun d => if d = c then none else R.instanceOf d }

theorem put_some {R : Roster} {x y : Seat} {k : JsString} :
    (R.put x).seats k = some y ↔ (k = x.key ∧ x = y) ∨ (k ≠ x.key ∧ R.seats k = some y) := by
  by_cases hk : k = x.key <;> simp [put, hk]

end Roster

open Roster

namespace Law

variable {gap : Option JsString} {R : Roster}

theorem leave (h : Law D gap R) {c : ConnId} (hc : ∀ k r, R.seats k = some r → r.connection ≠ some c) :
    Law D gap (R.leave c) := by
  refine { h with joined := fun d hd => h.joined d hd.1, held := fun k r d hr hd => ?_ }
  obtain ⟨hl, hi, hu⟩ := h.held k r d hr hd
  exact ⟨⟨hl, fun he => hc k r hr (he ▸ hd)⟩, hi, hu⟩

theorem vacate_seats {c : ConnId} {x : Seat} : (R.vacate D c x).seats = (R.put x.empty).seats := by
  unfold vacate; dsimp only; split <;> rfl

theorem vacate_live {c : ConnId} {x : Seat} : (R.vacate D c x).live = (R.leave c).live := by
  unfold vacate; dsimp only; split <;> rfl

theorem vacate_owner {c : ConnId} {x : Seat} (d : JsString) :
    (R.vacate D c x).owner d = if x.state = .controllable ∧ d = x.directory D then none else R.owner d := by
  unfold vacate; dsimp only
  by_cases hs : x.state = .controllable
  · simp [hs, setOwner, put, Roster.leave]
  · simp [hs, put, Roster.leave]

theorem vacate (h : Law D none R) {c : ConnId} {k : JsString} {r : Seat} (hr : R.seats k = some r)
    (hc : r.connection = some c) :
    Law D (if r.state = .controllable then some (r.directory D) else none) (R.vacate D c r) := by
  have hk : k = r.key := h.keyed k r hr
  have hrest : (R.vacate D c r).added = R.added ∧ (R.vacate D c r).instanceOf = R.instanceOf ∧
      (R.vacate D c r).nextSequence = R.nextSequence := by
    unfold Roster.vacate; dsimp only; split <;> exact ⟨rfl, rfl, rfl⟩
  -- The seats that are not offline are the others, on other connections.
  have hother : ∀ k' r', (R.vacate D c r).seats k' = some r' → r'.state ≠ .offline → R.seats k' = some r' ∧ k' ≠ k := by
    intro k' r' hr' hne
    rw [vacate_seats] at hr'
    rcases put_some.mp hr' with ⟨-, rfl⟩ | ⟨hk', hr'⟩
    · exact absurd rfl hne
    · exact ⟨hr', fun he => hk' (he.trans hk)⟩
  have hown : ∀ k' r', R.seats k' = some r' → k' ≠ k → r'.state = .controllable →
      (R.vacate D c r).owner (r'.directory D) = R.owner (r'.directory D) := by
    intro k' r' hr' hne hs'
    rw [vacate_owner, if_neg]
    exact fun hd => hne (h.one_owner hr' hr hs' hd.1 hd.2)
  refine ⟨?_, ?_, ?_, ?_, ?_, ?_, ?_, ?_, ?_, ?_⟩
  · intro k' r' hr'
    rw [vacate_seats] at hr'
    rcases put_some.mp hr' with ⟨rfl, rfl⟩ | ⟨-, hr'⟩
    · rfl
    · exact h.keyed k' r' hr'
  · intro d hd
    rw [vacate_live] at hd
    rw [hrest.1]; exact h.joined d hd.1
  · intro k' r' d hr' hd
    rw [vacate_seats] at hr'
    rw [vacate_live, hrest.2.1]
    rcases put_some.mp hr' with ⟨-, rfl⟩ | ⟨hk', hr'⟩
    · cases hd
    · obtain ⟨hl, hi, hu⟩ := h.held k' r' d hr' hd
      exact ⟨⟨hl, fun he => hk' ((h.one_seat hr' hr (he ▸ hd) hc).trans hk)⟩, hi, hu⟩
  · intro k' r' hr'
    rw [vacate_seats] at hr'
    rcases put_some.mp hr' with ⟨-, rfl⟩ | ⟨-, hr'⟩
    · exact ⟨fun _ => rfl, fun _ => rfl⟩
    · exact h.offline k' r' hr'
  · intro k' r' hr' hs'
    obtain ⟨hr', hne⟩ := hother k' r' hr' (by rw [hs']; decide)
    rw [hown k' r' hr' hne hs']
    exact h.owns k' r' hr' hs'
  · intro d id hid
    rw [vacate_owner, Option.ite_none_left_eq_some] at hid
    obtain ⟨k', r', hr', hs', hi, hd⟩ := h.owned d id hid.2
    refine ⟨k', r', ?_, hs', hi, hd⟩
    rw [vacate_seats]
    refine put_some.mpr (Or.inr ⟨fun he => hid.1 ?_, hr'⟩)
    have hrr : r' = r := Option.some.inj (by rw [← hr', ← hr, hk]; exact congrArg R.seats he)
    exact ⟨hrr ▸ hs', hrr ▸ hd.symm⟩
  · intro k' r' hr' hne
    exact h.versions k' r' (hother k' r' hr' hne).1 hne
  · intro k' r' hr' hs' hg
    obtain ⟨hr', -⟩ := hother k' r' hr' (by rw [hs']; decide)
    rw [vacate_owner, if_neg]
    · exact h.waits k' r' hr' hs' nofun
    · rintro ⟨hs, hd⟩
      rw [if_pos hs] at hg
      exact hg (congrArg some hd.symm)
  · intro k' r' hr'
    rw [vacate_seats] at hr'
    rw [hrest.2.2]
    rcases put_some.mp hr' with ⟨-, rfl⟩ | ⟨-, hr'⟩
    · exact h.below k r hr
    · exact h.below k' r' hr'
  · intro k' k'' r' r'' hr' hr'' he
    rw [vacate_seats] at hr' hr''
    rcases put_some.mp hr' with ⟨hk', rfl⟩ | ⟨-, hr'⟩ <;> rcases put_some.mp hr'' with ⟨hk'', rfl⟩ | ⟨-, hr''⟩
    · rw [hk', hk'']
    · rw [hk']; exact hk ▸ h.ordered k k'' r r'' hr hr'' he
    · rw [hk'']; exact hk ▸ h.ordered k' k r' r hr' hr he
    · exact h.ordered k' k'' r' r'' hr' hr'' he

/-- The next in line takes a directory that has no owner. -/
theorem crown {d : JsString} (h : Law D (some d) R) {k : JsString} {r : Seat} (hr : R.seats k = some r)
    (hs : r.state = .conflicting) (hd : r.directory D = d) (ho : R.owner d = none) :
    Law D none ((R.put r.crowned).setOwner d (some r.registration.instanceId)) := by
  have hk : k = r.key := h.keyed k r hr
  have hsame : ∀ k' r', (R.put r.crowned).seats k' = some r' → r' = r.crowned ∧ k' = k ∨ R.seats k' = some r' := by
    intro k' r' hr'
    rcases put_some.mp hr' with ⟨hk', rfl⟩ | ⟨-, hr'⟩
    · exact Or.inl ⟨rfl, hk'.trans hk.symm⟩
    · exact Or.inr hr'
  -- No seat of the directory was controllable.
  have hfree : ∀ k' r', R.seats k' = some r' → r'.state = .controllable → r'.directory D ≠ d := by
    intro k' r' hr' hs' he
    have := h.owns k' r' hr' hs'
    rw [he, ho] at this; cases this
  refine ⟨?_, h.joined, ?_, ?_, ?_, ?_, ?_, ?_, ?_, ?_⟩
  · intro k' r' hr'
    rcases hsame k' r' hr' with ⟨rfl, rfl⟩ | hr'
    · exact hk
    · exact h.keyed k' r' hr'
  · intro k' r' c hr' hc
    rcases hsame k' r' hr' with ⟨rfl, rfl⟩ | hr'
    · exact h.held _ r c hr hc
    · exact h.held k' r' c hr' hc
  · intro k' r' hr'
    rcases hsame k' r' hr' with ⟨rfl, rfl⟩ | hr'
    · have := h.offline _ r hr
      rw [hs] at this
      exact ⟨nofun, fun hn => absurd (this.mpr hn) (by decide)⟩
    · exact h.offline k' r' hr'
  · intro k' r' hr' hs'
    rcases hsame k' r' hr' with ⟨rfl, rfl⟩ | hr'
    · exact if_pos hd
    · rw [← h.owns k' r' hr' hs']
      exact if_neg (hfree k' r' hr' hs')
  · intro d' id hid
    by_cases he : d' = d
    · subst he
      have hi : r.registration.instanceId = id := Option.some.inj ((if_pos rfl).symm.trans hid)
      exact ⟨k, r.crowned, put_some.mpr (Or.inl ⟨hk, rfl⟩), rfl, hi, hd⟩
    · obtain ⟨k', r', hr', hs', hi, hd'⟩ := h.owned d' id ((if_neg he).symm.trans hid)
      refine ⟨k', r', put_some.mpr (Or.inr ⟨fun hk' => ?_, hr'⟩), hs', hi, hd'⟩
      have hrr : r' = r := Option.some.inj (by rw [← hr', ← hr, hk]; exact congrArg R.seats hk')
      exact he (hd'.symm.trans (hrr ▸ hd))
  · intro k' r' hr' hne
    rcases hsame k' r' hr' with ⟨rfl, rfl⟩ | hr'
    · have := h.versions _ r hr (by rw [hs]; decide)
      rw [hs] at this
      exact ⟨nofun, fun hp => absurd (this.mpr hp) (by decide)⟩
    · exact h.versions k' r' hr' hne
  · intro k' r' hr' hs' _
    rcases hsame k' r' hr' with ⟨rfl, rfl⟩ | hr'
    · cases hs'
    · by_cases he : r'.directory D = d
      · rw [show ((R.put r.crowned).setOwner d _).owner (r'.directory D) = _ from if_pos he]
        exact Option.some_ne_none _
      · rw [show ((R.put r.crowned).setOwner d _).owner (r'.directory D) = _ from if_neg he]
        exact h.waits k' r' hr' hs' fun hg => he (Option.some.inj hg).symm
  · intro k' r' hr'
    rcases hsame k' r' hr' with ⟨rfl, rfl⟩ | hr'
    · exact h.below _ r hr
    · exact h.below k' r' hr'
  · intro k' k'' r' r'' hr' hr'' he
    rcases hsame k' r' hr' with ⟨rfl, rfl⟩ | hr' <;> rcases hsame k'' r'' hr'' with ⟨rfl, hk''⟩ | hr''
    · exact hk''.symm
    · exact h.ordered _ k'' r r'' hr hr'' he
    · rw [hk'']; exact h.ordered k' _ r' r hr' hr he
    · exact h.ordered k' k'' r' r'' hr' hr'' he

/-- A directory nobody waits for needs no owner. -/
theorem close {d : JsString} (h : Law D (some d) R)
    (hd : ∀ k r, R.seats k = some r → r.state = .conflicting → r.directory D ≠ d) : Law D none R :=
  { h with waits := fun k r hr hs _ => h.waits k r hr hs fun he => hd k r hr hs (Option.some.inj he).symm }

/-- Offline seats can go. -/
theorem drop (h : Law D none R) {p : Seat → Bool} (hp : ∀ x, p x = false → x.state = .offline) :
    Law D none (R.drop p) := by
  have hsub : ∀ k r, (R.drop p).seats k = some r → R.seats k = some r :=
    fun k r hr => (Option.filter_eq_some_iff.mp hr).1
  refine ⟨fun k r hr => h.keyed k r (hsub k r hr), h.joined, fun k r c hr => h.held k r c (hsub k r hr),
    fun k r hr => h.offline k r (hsub k r hr), fun k r hr => h.owns k r (hsub k r hr), ?_,
    fun k r hr => h.versions k r (hsub k r hr), fun k r hr => h.waits k r (hsub k r hr),
    fun k r hr => h.below k r (hsub k r hr), fun k k' r r' hr hr' => h.ordered k k' r r' (hsub k r hr) (hsub k' r' hr')⟩
  intro d id hid
  obtain ⟨k, r, hr, hs, hi, hd⟩ := h.owned d id hid
  refine ⟨k, r, Option.filter_eq_some_iff.mpr ⟨hr, ?_⟩, hs, hi, hd⟩
  by_contra hf
  rw [hp r (Bool.eq_false_iff.mpr hf)] at hs
  cases hs

theorem connect (h : Law D none R) {c : ConnId} (hc : ¬ R.added c) : Law D none (R.connect c) := by
  refine { h with joined := ?_, held := fun k r d hr hd => ?_ }
  · rintro d (hd | hd)
    · exact Or.inl (h.joined d hd)
    · exact Or.inr hd
  · obtain ⟨hl, hi, hu⟩ := h.held k r d hr hd
    have hne : d ≠ c := fun he => hc (h.joined c (he ▸ hl))
    exact ⟨Or.inl hl, (if_neg hne).trans hi, hu⟩

theorem registrationState_ne_offline (o : Option JsString) (m : RegisterMessage) :
    registrationState o m ≠ .offline := by
  unfold registrationState; split
  · decide
  · split <;> decide

theorem registrationState_incompatible (o : Option JsString) (m : RegisterMessage) :
    registrationState o m = .incompatible ↔ m.protocolVersion ≠ SUPPORTED_PROTOCOL_VERSION := by
  unfold registrationState; split
  · simp [*]
  · split <;> simp_all

theorem registrationState_controllable {o : Option JsString} {m : RegisterMessage}
    (h : registrationState o m = .controllable) : o = none ∨ o = some m.instanceId := by
  unfold registrationState at h
  split at h
  · cases h
  · split at h
    · assumption
    · cases h

theorem registrationState_conflicting {o : Option JsString} {m : RegisterMessage}
    (h : registrationState o m = .conflicting) : o ≠ none := by
  unfold registrationState at h
  split at h
  · cases h
  · split at h
    · cases h
    · rename_i hn; exact fun ho => hn (Or.inl ho)

theorem join (h : Law D none R) {c : ConnId} {x : Seat} {next : Nat} (hl : R.live c) (hi : R.instanceOf c = none)
    (hx : x.connection = some c) (hu : c.user = x.userId)
    (hs : x.state = registrationState (R.owner (x.directory D)) x.registration)
    (hold : ∀ r, R.seats x.key = some r → r.state = .offline) (hnext : R.nextSequence ≤ next) (hlt : x.sequence < next)
    (hseq : ∀ k r, R.seats k = some r → r.sequence = x.sequence → k = x.key) : Law D none (R.join D c x next) := by
  have hseat : ∀ k r, (R.join D c x next).seats k = some r ↔ (k = x.key ∧ x = r) ∨ (k ≠ x.key ∧ R.seats k = some r) :=
    fun _ _ => put_some
  -- The other seats of the directory, if x becomes its owner: none is controllable.
  have hother : ∀ k r, k ≠ x.key → R.seats k = some r → r.state = .controllable →
      ¬ (x.state = .controllable ∧ r.directory D = x.directory D) := by
    rintro k r hk hr hrs ⟨hxs, hd⟩
    have ho := h.owns k r hr hrs
    rcases registrationState_controllable (hs ▸ hxs) with hn | hn
    · rw [hd, hn] at ho; cases ho
    · rw [hd, hn] at ho
      exact hk ((h.keyed k r hr).trans (by rw [Seat.key, Seat.key, ownershipKey_user hd, Option.some.inj ho]))
  refine ⟨?_, h.joined, ?_, ?_, ?_, ?_, ?_, ?_, ?_, ?_⟩
  · intro k r hr
    rcases (hseat k r).mp hr with ⟨rfl, rfl⟩ | ⟨-, hr⟩
    · rfl
    · exact h.keyed k r hr
  · intro k r d hr hd
    rcases (hseat k r).mp hr with ⟨-, rfl⟩ | ⟨-, hr⟩
    · obtain rfl : d = c := Option.some.inj (hd.symm.trans hx)
      exact ⟨hl, if_pos rfl, hu⟩
    · obtain ⟨hl', hi', hu'⟩ := h.held k r d hr hd
      refine ⟨hl', ?_, hu'⟩
      rw [← hi']
      refine if_neg fun he => ?_
      rw [he, hi] at hi'; cases hi'
  · intro k r hr
    rcases (hseat k r).mp hr with ⟨-, rfl⟩ | ⟨-, hr⟩
    · exact ⟨fun ho => absurd (hs.symm.trans ho) (registrationState_ne_offline _ _),
        fun hn => by rw [hn] at hx; cases hx⟩
    · exact h.offline k r hr
  · intro k r hr hrs
    rcases (hseat k r).mp hr with ⟨-, rfl⟩ | ⟨hk, hr⟩
    · exact if_pos ⟨hrs, rfl⟩
    · rw [← h.owns k r hr hrs]
      exact if_neg (hother k r hk hr hrs)
  · intro d id hid
    by_cases hx' : x.state = .controllable ∧ d = x.directory D
    · have he : x.registration.instanceId = id := Option.some.inj ((if_pos hx').symm.trans hid)
      exact ⟨x.key, x, (hseat _ _).mpr (Or.inl ⟨rfl, rfl⟩), hx'.1, he, hx'.2.symm⟩
    · obtain ⟨k, r, hr, hrs, hri, hd⟩ := h.owned d id ((if_neg hx').symm.trans hid)
      refine ⟨k, r, (hseat _ _).mpr (Or.inr ⟨fun hk => ?_, hr⟩), hrs, hri, hd⟩
      rw [hold r (hk ▸ hr)] at hrs; cases hrs
  · intro k r hr hne
    rcases (hseat k r).mp hr with ⟨-, rfl⟩ | ⟨-, hr⟩
    · rw [hs]; exact registrationState_incompatible _ _
    · exact h.versions k r hr hne
  · intro k r hr hrs _
    have hkeep : ∀ d, R.owner d ≠ none → (R.join D c x next).owner d ≠ none := by
      intro d hd
      by_cases hx' : x.state = .controllable ∧ d = x.directory D
      · rw [show (R.join D c x next).owner d = _ from if_pos hx']; exact Option.some_ne_none _
      · rw [show (R.join D c x next).owner d = _ from if_neg hx']; exact hd
    rcases (hseat k r).mp hr with ⟨-, rfl⟩ | ⟨-, hr⟩
    · exact hkeep _ (registrationState_conflicting (hs ▸ hrs))
    · exact hkeep _ (h.waits k r hr hrs nofun)
  · intro k r hr
    rcases (hseat k r).mp hr with ⟨-, rfl⟩ | ⟨-, hr⟩
    · exact hlt
    · exact lt_of_lt_of_le (h.below k r hr) hnext
  · intro k k' r r' hr hr' he
    rcases (hseat k r).mp hr with ⟨hk, rfl⟩ | ⟨-, hr⟩ <;> rcases (hseat k' r').mp hr' with ⟨hk', rfl⟩ | ⟨-, hr'⟩
    · rw [hk, hk']
    · rw [hk]; exact (hseq k' r' hr' he.symm).symm
    · rw [hk']; exact hseq k r hr he
    · exact h.ordered k k' r r' hr hr' he

end Law

/-! ## What the registry does to its roster -/

theorem roster_setConn {s : Registry} {c : ConnId} {x : ControlConnection} (ha : x.added = (s.conns c).added)
    (hi : x.instanceId = (s.conns c).instanceId) : (s.setConn c x).roster = s.roster := by
  ext k
  · rfl
  · rfl
  · rfl
  · by_cases hk : k = c
    · subst hk; simp [Registry.roster, Registry.setConn, ha]
    · simp [Registry.roster, Registry.setConn, hk]
  · by_cases hk : k = c
    · subst hk; simp [Registry.roster, Registry.setConn, hi]
    · simp [Registry.roster, Registry.setConn, hk]
  · rfl

theorem roster_terminate (s : Registry) (c : ConnId) : (s.terminate c).roster = s.roster :=
  roster_setConn (s := s) (x := { s.conns c with socket := (s.conns c).socket.shut }) rfl rfl

theorem roster_closeSocket (s : Registry) (c : ConnId) (code : Nat) (reason : String) :
    (s.closeSocket c code reason).roster = s.roster :=
  roster_setConn (s := s) (x := { s.conns c with socket := (s.conns c).socket.shut }) rfl rfl

theorem roster_leave (s : Registry) (c : ConnId) : (leave s c).roster = s.roster.leave c := by
  ext k <;> try rfl
  simp [Registry.roster, Roster.leave, leave_connections]

theorem roster_putRecord (s : Registry) (r : InstanceRecord) : (putRecord s r).roster = s.roster.put r.seat := by
  ext k <;> try rfl
  simp only [Registry.roster, putRecord, Roster.put, OMap.get_set]
  by_cases hk : k = recordKey r.userId r.registration.instanceId
  · rw [if_pos hk, if_pos (show k = r.seat.key from hk)]; rfl
  · rw [if_neg hk, if_neg (show k ≠ r.seat.key from hk)]

theorem roster_disown (s : Registry) (d : JsString) : (disown s d).roster = s.roster.setOwner d none := by
  ext k <;> try rfl
  simp only [Registry.roster, disown, Roster.setOwner, OMap.get_delete]

theorem roster_crown (s : Registry) (d : JsString) (r : InstanceRecord) :
    (crown s d r).roster = (s.roster.put r.seat.crowned).setOwner d (some r.registration.instanceId) := by
  have hp : (putRecord s { r with state := .controllable, lastSeenAt := s.nowMs }).roster =
    s.roster.put r.seat.crowned :=
    roster_putRecord ..
  rw [← hp]
  ext k <;> try rfl
  simp only [Registry.roster, crown, Roster.setOwner, OMap.get_set]

theorem roster_retire (s : Registry) (r : InstanceRecord) : (retire s r).roster = s.roster.put r.seat.empty :=
  roster_putRecord ..

/-- Writing a record without touching its seat. -/
theorem roster_record {gap : Option JsString} {s : Registry} (h : Law D gap s.roster) {c : ConnId}
    {r r' : InstanceRecord}
    (hr : recordOn s c = some r) (hs : r'.seat = r.seat) : (putRecord s r').roster = s.roster := by
  have hg := seats_of_get (get_of_recordOn h hr)
  rw [roster_putRecord, hs]
  ext k <;> try rfl
  by_cases hk : k = r.seat.key
  · subst hk; simp [Roster.put, hg]
  · simp [Roster.put, hk]

theorem roster_drop (s : Registry) (p : Seat → Bool) :
    ({ s with records := s.records.filter fun _ r => p r.seat } : Registry).roster = s.roster.drop p := by
  ext k <;> try rfl
  simp only [Registry.roster, Roster.drop, OMap.get_filter]
  cases s.records.get k with
  | none => rfl
  | some r => by_cases hp : p r.seat = true <;> simp [Option.filter, hp]

theorem roster_forget {s : Registry} {gap : Option JsString} (h : Law D gap s.roster) {key : JsString}
    {r : InstanceRecord} (hr : s.records.get key = some r) :
    ({ s with records := s.records.delete key } : Registry).roster = s.roster.drop (· ≠ r.seat) := by
  ext k <;> try rfl
  simp only [Registry.roster, Roster.drop, OMap.get_delete]
  by_cases hk : k = key
  · subst hk; simp [hr, Option.filter]
  · rw [if_neg hk]
    cases hg : s.records.get k with
    | none => rfl
    | some x =>
      have hne : x.seat ≠ r.seat := fun he =>
        hk ((h.keyed k _ (seats_of_get hg)).trans (he ▸ (h.keyed key _ (seats_of_get hr)).symm))
      simp [Option.filter, hne]

theorem roster_add (s : Registry) (c : ConnId) (socket : Socket) (ha : (s.conns c).added = false) :
    (add s c socket).roster = s.roster.connect c := by
  simp only [add, ha, Bool.false_eq_true, if_false]
  ext k <;> try rfl
  · simp [Registry.roster, Roster.connect]
  · by_cases hk : k = c <;> simp [Registry.roster, Roster.connect, Registry.setConn, hk]
  · by_cases hk : k = c <;> simp [Registry.roster, Roster.connect, Registry.setConn, hk]

/-! ## Disconnecting -/

/-- `promote` gives a directory without owner to the next in line, if there is one. -/
theorem law_promote {disc : Registry → ConnId → Registry} {s : Registry} {d : JsString} {u : UserId}
    (h : Law D (some d) s.roster) (ho : s.ownership.get d = none) (hu : ∃ m, ownershipKey D u m = d)
    (hdisc : ∀ t c, t.connections = s.connections → Law D none t.roster → Law D none (disc t c).roster) :
    Law D none (promoteWith D disc s d u).roster := by
  unfold promoteWith
  split
  · rename_i hnil
    refine h.close fun k x hx hs hd => ?_
    obtain ⟨r, hr, rfl⟩ := seats_eq_some.mp hx
    have hne : r.connection ≠ none := fun hn => by
      have := (h.offline k r.seat hx).mpr hn
      rw [hs] at this; cases this
    obtain ⟨m, hm⟩ := hu
    have hmem : r ∈ rivals D s d u :=
      mem_rivals.mpr ⟨⟨k, hr⟩, ownershipKey_user (hd.trans hm.symm), hs, Option.isSome_iff_ne_none.mpr hne, hd⟩
    rw [hnil] at hmem; cases hmem
  · rename_i candidate rest hcand
    obtain ⟨⟨k, hk⟩, -, hs, -, hd⟩ := mem_rivals.mp (hcand ▸ List.mem_cons_self : candidate ∈ rivals D s d u)
    have hc : Law D none (crown s d candidate).roster := by
      rw [roster_crown]
      exact h.crown (seats_of_get hk) hs hd ho
    split
    · rename_i c _
      rcases sendWith_cases disc (crown s d candidate) c (.registration candidate.registration.instanceId .controllable)
        with ⟨-, he⟩ | ⟨-, he | he⟩ <;> rw [he]
      · exact hc
      · rw [roster_terminate]; exact hdisc _ c rfl hc
      · exact hdisc _ c rfl hc
    · exact hc

theorem roster_vacate {s : Registry} {c : ConnId} {r : InstanceRecord} :
    (if r.state = .controllable then disown (retire (leave s c) r) (ownershipKey D r.userId r.registration)
      else retire (leave s c) r).roster = s.roster.vacate D c r.seat := by
  unfold Roster.vacate
  by_cases hs : r.state = .controllable
  · rw [if_pos hs, if_pos (show r.seat.state = _ from hs), roster_disown, roster_retire, roster_leave]; rfl
  · rw [if_neg hs, if_neg (show r.seat.state ≠ _ from hs), roster_retire, roster_leave]

/-- Under the law, `disconnect` gives up a directory exactly when its record owned one. -/
theorem disconnectBody_eq {disc : Registry → ConnId → Registry} {s : Registry} {c : ConnId} {r : InstanceRecord}
    (h : Law D none s.roster) (hr : recordOn s c = some r) :
    disconnectBody D disc s c = publishSnapshot
      (if r.state = .controllable then
        promoteWith D disc (disown (retire (leave s c) r) (ownershipKey D r.userId r.registration))
          (ownershipKey D r.userId r.registration) r.userId
      else retire (leave s c) r) r.userId := by
  have hown : r.state = .controllable → s.ownership.get (ownershipKey D r.userId r.registration) =
      some r.registration.instanceId :=
    fun hs => h.owns _ r.seat (seats_of_get (get_of_recordOn h hr)) hs
  unfold disconnectBody
  rw [recordOn_leave, hr]
  dsimp only
  by_cases hs : r.state = .controllable
  · rw [if_pos ⟨hs, hown hs⟩, if_pos hs]
  · rw [if_neg fun hn => hs hn.1, if_neg hs]

theorem law_disconnect (s : Registry) (c : ConnId) : Law D none s.roster → Law D none (disconnect D s c).roster := by
  refine disconnect_rule (R := fun s _ t => Law D none s.roster → Law D none t.roster) (fun _ _ _ h => h) ?_ s c
  intro s c _ ih h
  cases hr : recordOn s c with
  | none =>
    unfold disconnectBody
    rw [recordOn_leave, hr]
    dsimp only
    rw [roster_leave]
    refine h.leave fun k x hx hc => ?_
    obtain ⟨r, hg, rfl⟩ := seats_eq_some.mp hx
    rw [recordOn_of_seat h hg hc] at hr; cases hr
  | some r =>
    obtain ⟨-, -, -, hc⟩ := recordOn_eq_some.mp hr
    have hv := h.vacate (seats_of_get (get_of_recordOn h hr)) hc
    rw [← roster_vacate] at hv
    rw [disconnectBody_eq h hr]
    by_cases hs : r.state = .controllable
    · rw [if_pos hs, if_pos (show r.seat.state = _ from hs)] at hv
      rw [if_pos hs]
      exact law_promote hv (OMap.get_delete_self ..) ⟨_, rfl⟩ fun t d ht => ih t d ht
    · rw [if_neg hs, if_neg (show r.seat.state ≠ _ from hs)] at hv
      rw [if_neg hs]; exact hv

/-! ## Registering -/

variable (D) in
/-- The seat `register` gives a connection. -/
def newSeat (s : Registry) (c : ConnId) (registration : RegisterMessage) (existing : Option InstanceRecord) : Seat where
  registration := registration
  userId := c.user
  sequence := (existing.map (·.sequence)).getD s.nextSequence
  state := registrationState (s.ownership.get (ownershipKey D c.user registration)) registration
  connection := some c

variable (D) in
/-- The seats `pruneOfflineOwnership` keeps. -/
def kept (u : UserId) (directory exceptInstanceId : JsString) (x : Seat) : Bool :=
  !(x.userId = u ∧ x.registration.instanceId ≠ exceptInstanceId ∧ x.state = .offline ∧
    ownershipKey D u x.registration = directory)

theorem roster_enroll (s : Registry) (c : ConnId) (registration : RegisterMessage) (existing : Option InstanceRecord) :
    (enroll D s c registration existing).roster =
      (s.roster.drop (kept D c.user (ownershipKey D c.user registration) registration.instanceId)).join D c
        (newSeat D s c registration existing) (if existing.isSome then s.nextSequence else s.nextSequence + 1) := by
  have hd := roster_drop s (kept D c.user (ownershipKey D c.user registration) registration.instanceId)
  rw [← hd]
  ext k
  · simp only [Registry.roster, enroll, Roster.join, Roster.put, OMap.get_set]
    by_cases hk : k = recordKey c.user registration.instanceId
    · rw [if_pos hk, if_pos (show k = (newSeat D s c registration existing).key from hk)]; rfl
    · rw [if_neg hk, if_neg (show k ≠ (newSeat D s c registration existing).key from hk)]; rfl
  · by_cases hs : (newSeat D s c registration existing).state = .controllable
    · have hs' : registrationState (s.ownership.get (ownershipKey D c.user registration)) registration =
        .controllable := hs
      simp only [Registry.roster, enroll, Roster.join, hs, pruneOfflineOwnership, Registry.setConn, hs', if_true,
        OMap.get_set, true_and]
      rfl
    · have hs' : registrationState (s.ownership.get (ownershipKey D c.user registration)) registration ≠
        .controllable := hs
      simp only [Registry.roster, enroll, Roster.join, hs, pruneOfflineOwnership, Registry.setConn,
        hs', if_false, false_and]
  · rfl
  · by_cases hk : k = c
    · subst hk; simp [Registry.roster, enroll, Roster.join, Roster.put, pruneOfflineOwnership, Registry.setConn]
    · simp [Registry.roster, enroll, Roster.join, Roster.put, pruneOfflineOwnership, Registry.setConn, hk]
  · by_cases hk : k = c
    · subst hk; simp [Registry.roster, enroll, Roster.join, pruneOfflineOwnership, Registry.setConn, newSeat]
    · simp [Registry.roster, enroll, Roster.join, pruneOfflineOwnership, Registry.setConn, hk]
  · rfl

theorem law_enroll {s : Registry} {c : ConnId} {registration : RegisterMessage} {existing : Option InstanceRecord}
    (h : Law D none s.roster) (hl : c ∈ s.connections) (hi : (s.conns c).instanceId = none)
    (he : s.records.get (recordKey c.user registration.instanceId) = existing)
    (hoff : ∀ r, existing = some r → r.connection = none) : Law D none (enroll D s c registration existing).roster := by
  have hexisting : ∀ x, s.roster.seats (recordKey c.user registration.instanceId) = some x →
      ∃ r, existing = some r ∧ r.seat = x := by
    intro x hx
    obtain ⟨r, hr, rfl⟩ := seats_eq_some.mp hx
    exact ⟨r, he.symm.trans hr, rfl⟩
  have hsub : ∀ k x, (s.roster.drop
    (kept D c.user (ownershipKey D c.user registration) registration.instanceId)).seats k =
      some x → s.roster.seats k = some x := fun k x hx => (Option.filter_eq_some_iff.mp hx).1
  rw [roster_enroll]
  refine (h.drop fun x hx => ?_).join hl hi rfl rfl rfl ?_ ?_ ?_ ?_
  · simp only [kept, Bool.not_eq_false', decide_eq_true_iff] at hx
    exact hx.2.2.1
  · intro x hx
    obtain ⟨r, hr, rfl⟩ := hexisting x (hsub _ x hx)
    exact (h.offline _ r.seat (hsub _ _ hx)).mpr (hoff r hr)
  · show s.nextSequence ≤ _
    split <;> omega
  · cases existing with
    | none => simp [newSeat]
    | some r => exact h.below _ r.seat (seats_of_get he)
  · intro k x hx hseq
    cases existing with
    | none => exact absurd hseq (Nat.ne_of_lt (h.below k x (hsub k x hx)))
    | some r => exact h.ordered k _ x r.seat (hsub k x hx) (seats_of_get he) hseq

theorem law_send {s : Registry} (h : Law D none s.roster) (c : ConnId) (m : ServerMessage) :
    Law D none (send D s c m).roster := by
  unfold send
  rcases sendWith_cases (disconnect D) s c m with ⟨-, he⟩ | ⟨-, he | he⟩ <;> rw [he]
  · exact h
  · rw [roster_terminate]; exact law_disconnect s c h
  · exact law_disconnect s c h

theorem law_register {s : Registry} {c : ConnId} {registration : RegisterMessage} (h : Law D none s.roster)
    (hl : c ∈ s.connections) (hi : (s.conns c).instanceId = none) :
    Law D none (register D s c registration).roster := by
  have hfinish : ∀ existing, s.records.get (recordKey c.user registration.instanceId) = existing →
      (∀ r, existing = some r → r.connection = none) →
      Law D none (completeRegistration D s c registration existing).roster :=
    fun existing he hoff => law_send (law_enroll h hl hi he hoff) c _
  unfold register
  dsimp only
  split
  · rename_i hn; exact hfinish none hn nofun
  · rename_i existing he
    split
    · rename_i hn
      exact hfinish _ he fun r hr => Option.some.inj hr ▸ hn
    · rename_i d hd
      obtain ⟨-, hid, -⟩ := h.held _ _ d (seats_of_get he) hd
      split
      · rename_i hdc
        subst hdc
        have hid' : (s.conns d).instanceId = some existing.registration.instanceId := hid
        rw [hi] at hid'; cases hid'
      · have hlaw := law_disconnect s d h
        split
        · exact hlaw
        · -- The record would still rest on a connection that is gone.
          rename_i e hbind
          obtain ⟨r, hr, hre⟩ := Option.bind_eq_some_iff.mp hbind
          have hlive : e ∈ (disconnect D s d).connections := (hlaw.held _ _ e (seats_of_get hr) hre).1
          obtain ⟨y, hy, hlast⟩ := (disconnect_lasting (keyed_of_law h) d).back _ _ hr
          obtain rfl : existing = y := Option.some.inj (he.symm.trans hy)
          rcases hlast.connection with hc | hc
          · obtain rfl : e = d := Option.some.inj (hre.symm.trans (hc.trans hd))
            exact absurd rfl (disconnect_connections s e e hlive).2
          · rw [hre] at hc; cases hc

/-! ## Runs -/

/-- The connection a `register` frame arrives on. -/
def Op.registering : Op → Option ConnId
  | .frame c (some (.register _)) => some c
  | _ => none

/-- A `register` frame on a connection that was disconnected before it had registered. -/
def LateRegister (s : Registry) (e : Event) : Prop :=
  ∃ c ∈ e.op.registering, (s.conns c).added = true ∧ (s.conns c).instanceId = none ∧ c ∉ s.connections

instance (s : Registry) (e : Event) : Decidable (LateRegister s e) :=
  inferInstanceAs (Decidable (∃ c ∈ e.op.registering, _))

theorem law_move {op : Op} (hop : ∀ c registration, op ≠ .frame c (some (.register registration))) {s t : Registry}
    (m : Move D op s t) (h : Law D none s.roster) : Law D none t.roster := by
  cases m with
  | conn c x ha hu hi => rw [roster_setConn ha hi]; exact h
  | record c r r' hr hs => rw [roster_record h hr hs]; exact h
  | forget key r hr ho hc =>
    rw [roster_forget h hr]
    exact h.drop fun x hx => by
      have hx' : x = r.seat := by simpa using hx
      rw [hx']; exact ho
  | add c socket ha => rw [roster_add s c socket ha]; exact h.connect (by simp [Registry.roster, ha])
  | enroll c registration existing ho ha => exact absurd ho (hop c registration)
  | disconnect c => exact law_disconnect s c h
  | _ => exact h

theorem law_receive_register {s : Registry} {c : ConnId} {registration : RegisterMessage} (h : Law D none s.roster)
    (hl : (s.conns c).added = true → (s.conns c).instanceId = none → c ∈ s.connections) :
    Law D none (receive D s c (some (.register registration))).roster := by
  unfold receive
  by_cases ha : (s.conns c).added = true
  · rw [if_neg (by simp [ha])]
    have halive : Law D none (s.setConn c { s.conns c with alive := true }).roster := by
      rw [roster_setConn (x := { s.conns c with alive := true }) rfl rfl]; exact h
    cases hi : (s.conns c).instanceId with
    | some id =>
      dsimp only
      rw [if_pos (by simp [Registry.setConn, hi]), roster_closeSocket]
      exact law_disconnect _ c halive
    | none =>
      dsimp only
      rw [if_neg (by simp [Registry.setConn, hi])]
      exact law_register halive (hl ha hi) (by simp [Registry.setConn, hi])
  · rw [if_pos (by simpa using ha)]; exact h

theorem law_step {s : Registry} {e : Event} (h : Law D none s.roster) (he : ¬ LateRegister s e) :
    Law D none (step D s e).roster := by
  by_cases hop : ∃ c registration, e.op = .frame c (some (.register registration))
  · obtain ⟨c, registration, hop⟩ := hop
    show Law D none (apply D { s with nowMs := e.now } e.op).roster
    rw [hop]
    refine law_receive_register (s := { s with nowMs := e.now }) h fun ha hi => ?_
    by_contra hl
    exact he ⟨c, by rw [hop]; rfl, ha, hi, hl⟩
  · exact (step_moves s e).inv (fun s t => law_move fun c registration hc => hop ⟨c, registration, hc⟩) h

theorem law_run {es : List Event} (h : Along (step D) (fun s e => ¬ LateRegister s e) .init es) :
    Law D none (run D es).roster :=
  h.inv (I := fun s => Law D none s.roster) (fun _ _ => law_step) law_init

end NotifyHub.Control
