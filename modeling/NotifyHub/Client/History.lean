/-
  NotifyHub.Client.History — the two notification histories of the client,
  `InMemoryNotificationHistory` (apps/client/lib/history/notification_history.dart) and
  `SqliteNotificationHistory` (apps/client/lib/history/sqlite_notification_history.dart,
  by what its statements say).

  - `histories_agree_iff`: they hold alike after every call of a run, and answer every call
    alike, if and only if every entry that is added is newer than all that are held
    (`Newest`) and no page that has entries ends past the largest `int` (`EndFits`).
  - `older_entry_differs`: one orders by insertion, the other by the time of receipt.
  - `long_page_differs`: memory adds the bounds of a page, and the sum wraps.

  Event ids are of any type with a linear order, which stands for the order of the text
  column. An `int` of Dart has 64 bits.
-/

import Mathlib.Data.Prod.Lex
import NotifyHub.Lib.Run
import NotifyHub.Lib.SortBy
import NotifyHub.Lib.Text

namespace NotifyHub.Client

structure DateTime where
  microsecondsSinceEpoch : Int
  isUtc : Bool
  deriving DecidableEq

def DateTime.toUtc (t : DateTime) : DateTime := ⟨t.microsecondsSinceEpoch, true⟩

/-- Where a notification came from. -/
structure HistoryContext where
  status : Option JsString
  eventType : Option JsString
  machine : Option JsString
  project : Option JsString
  directory : Option JsString
  directoryName : Option JsString
  sessionId : Option JsString
  sessionTitle : Option JsString
  requestId : Option JsString
  deriving DecidableEq

structure HistoryEntry (ι : Type) where
  eventId : ι
  title : JsString
  body : JsString
  receivedAt : DateTime
  occurredAt : Option DateTime
  context : HistoryContext
  deriving DecidableEq

/-- The entry with its times in UTC. -/
def HistoryEntry.inUtc {ι : Type} (e : HistoryEntry ι) : HistoryEntry ι :=
  { e with receivedAt := e.receivedAt.toUtc, occurredAt := e.occurredAt.map DateTime.toUtc }

structure HistoryBatch (ι : Type) where
  entries : List (HistoryEntry ι)
  totalCount : Nat
  deriving DecidableEq

/-! ## In memory -/

/-- The value of a sum of Dart's `int`s. -/
def wrapInt (n : Int) : Int := n.bmod (2 ^ 64)

theorem wrapInt_of_lt {n : Int} (hn : 0 ≤ n) (h : n < 2 ^ 63) : wrapInt n = n :=
  Int.bmod_eq_of_le (by omega) (by omega)

theorem wrapInt_neg {n : Int} (h : 2 ^ 63 ≤ n) (hn : n < 2 ^ 64) : wrapInt n < 0 := by
  have hmod : n % ((2 ^ 64 : Nat) : Int) = n := Int.emod_eq_of_lt (by omega) (by omega)
  rw [wrapInt, Int.bmod_def, hmod, if_neg (by omega)]
  omega

structure InMemoryNotificationHistory (ι : Type) where
  capacity : Nat
  positive : 0 < capacity
  entries : List (HistoryEntry ι)
  /-- How often `changes` has emitted. -/
  changes : Nat

namespace InMemoryNotificationHistory

variable {ι : Type} [DecidableEq ι] (m : InMemoryNotificationHistory ι)

def contains (eventId : ι) : Bool := m.entries.any (·.eventId = eventId)

def add (entry : HistoryEntry ι) : InMemoryNotificationHistory ι :=
  if m.contains entry.eventId then m
  else { m with entries := (entry :: m.entries).take m.capacity, changes := m.changes + 1 }

/-- Nothing where it throws. -/
def loadPage (offset limit : Int) : Option (HistoryBatch ι) :=
  if offset < 0 ∨ limit ≤ 0 then none
  else
    let start := min offset.toNat m.entries.length
    -- `(start + limit).clamp(start, _entries.length)`
    let stop := max start (min (wrapInt (start + limit)).toNat m.entries.length)
    some ⟨(m.entries.take stop).drop start, m.entries.length⟩

def remove (eventId : ι) : InMemoryNotificationHistory ι :=
  { m with entries := m.entries.filter (·.eventId ≠ eventId), changes := m.changes + 1 }

end InMemoryNotificationHistory

section

variable {ι : Type} {m : InMemoryNotificationHistory ι} {offset limit : Int}

/-- A page cut out by its bounds. -/
theorem take_drop_min {α : Type} (l : List α) (offset limit : Nat) :
    (l.take (max (min offset l.length) (min (min offset l.length + limit) l.length))).drop (min offset l.length) =
      (l.drop offset).take limit := by
  rw [max_eq_right (le_min (Nat.le_add_right ..) (Nat.min_le_right ..))]
  rcases le_total offset l.length with hle | hge
  · rw [min_eq_left hle, ← List.take_eq_take_min, List.drop_take, Nat.add_sub_cancel_left]
  · rw [min_eq_right hge, List.drop_eq_nil_of_le (by simp), List.drop_eq_nil_of_le hge, List.take_nil]

/-- A page whose end is an `int`. -/
theorem loadPage_fits (hoffset : 0 ≤ offset) (hlimit : 0 < limit) (hin : offset < m.entries.length)
    (hend : offset + limit < 2 ^ 63) :
    m.loadPage offset limit = some ⟨(m.entries.drop offset.toNat).take limit.toNat, m.entries.length⟩ := by
  have hstart : min offset.toNat m.entries.length = offset.toNat := min_eq_left (by omega)
  have hstop : (wrapInt (offset.toNat + limit)).toNat = offset.toNat + limit.toNat := by
    rw [wrapInt_of_lt (by omega) (by omega)]
    omega
  have hpage := take_drop_min m.entries offset.toNat limit.toNat
  rw [hstart] at hpage
  rw [InMemoryNotificationHistory.loadPage, if_neg (by omega)]
  dsimp only
  rw [hstart, hstop, hpage]

/-- A page whose end wraps. -/
theorem loadPage_wraps (hoffset : 0 ≤ offset) (hlimit : 0 < limit) (hin : offset < m.entries.length)
    (hend : 2 ^ 63 ≤ offset + limit) (hsum : offset + limit < 2 ^ 64) :
    m.loadPage offset limit = some ⟨[], m.entries.length⟩ := by
  have hstart : min offset.toNat m.entries.length = offset.toNat := min_eq_left (by omega)
  have hwrap := wrapInt_neg (n := (offset.toNat : Int) + limit) (by omega) (by omega)
  rw [InMemoryNotificationHistory.loadPage, if_neg (by omega)]
  dsimp only
  rw [hstart, Int.toNat_of_nonpos hwrap.le, Nat.zero_min, Nat.max_zero, List.drop_eq_nil_of_le]
  rw [List.length_take]
  exact Nat.min_le_left ..

/-- A page past the entries. -/
theorem loadPage_past (hlimit : 0 < limit) (hpast : m.entries.length ≤ offset) :
    m.loadPage offset limit = some ⟨[], m.entries.length⟩ := by
  have hstart : min offset.toNat m.entries.length = m.entries.length := min_eq_right (by omega)
  rw [InMemoryNotificationHistory.loadPage, if_neg (by omega)]
  dsimp only
  rw [hstart, List.drop_eq_nil_of_le]
  rw [List.length_take]
  exact Nat.min_le_right ..

end

/-! ## In the database -/

structure StoredHistoryEntry (ι : Type) where
  eventId : ι
  title : JsString
  body : JsString
  receivedAtMicros : Int
  occurredAtMicros : Option Int
  context : HistoryContext
  deriving DecidableEq

section

variable {ι : Type}

/-- `_toCompanion` -/
def toCompanion (entry : HistoryEntry ι) : StoredHistoryEntry ι :=
  ⟨entry.eventId, entry.title, entry.body, entry.receivedAt.toUtc.microsecondsSinceEpoch,
    entry.occurredAt.map (·.toUtc.microsecondsSinceEpoch), entry.context⟩

/-- `_fromStored` -/
def fromStored (row : StoredHistoryEntry ι) : HistoryEntry ι :=
  ⟨row.eventId, row.title, row.body, ⟨row.receivedAtMicros, true⟩, row.occurredAtMicros.map (⟨·, true⟩), row.context⟩

theorem fromStored_toCompanion (entry : HistoryEntry ι) : fromStored (toCompanion entry) = entry.inUtc := by
  cases entry with
  | mk eventId title body receivedAt occurredAt context => cases occurredAt <;> rfl

theorem toCompanion_inUtc (e : HistoryEntry ι) : toCompanion e.inUtc = toCompanion e := by
  cases e with
  | mk eventId title body receivedAt occurredAt context => cases occurredAt <;> rfl

theorem toCompanion_fromStored (row : StoredHistoryEntry ι) : toCompanion (fromStored row) = row := by
  cases row with
  | mk eventId title body receivedAtMicros occurredAtMicros context => cases occurredAtMicros <;> rfl

/-- `received_at_micros`, and then `event_id`. -/
def StoredHistoryEntry.rank (row : StoredHistoryEntry ι) : Int ×ₗ ι := toLex (row.receivedAtMicros, row.eventId)

/-- The rank of the entry's row. -/
def HistoryEntry.rank (entry : HistoryEntry ι) : Int ×ₗ ι := (toCompanion entry).rank

end

/-- The rows, in no order; `event_id` is the primary key. -/
structure SqliteNotificationHistory (ι : Type) where
  capacity : Nat
  positive : 0 < capacity
  rows : List (StoredHistoryEntry ι)
  primaryKey : (rows.map (·.eventId)).Nodup
  changes : Nat

namespace SqliteNotificationHistory

variable {ι : Type} [LinearOrder ι] (s : SqliteNotificationHistory ι)

def contains (eventId : ι) : Bool := s.rows.any (·.eventId = eventId)

/-- `ORDER BY received_at_micros DESC, event_id DESC` -/
def ordered : List (StoredHistoryEntry ι) := sortDesc StoredHistoryEntry.rank s.rows

def insert (row : StoredHistoryEntry ι) (h : ¬ s.contains row.eventId = true) : SqliteNotificationHistory ι :=
  { s with
    rows := row :: s.rows
    primaryKey := List.nodup_cons.mpr ⟨fun hmem => h (by simpa [contains] using hmem), s.primaryKey⟩ }

/-- `INSERT OR IGNORE`, and how many rows it changed. -/
def insertOrIgnore (row : StoredHistoryEntry ι) : SqliteNotificationHistory ι × Nat :=
  if h : s.contains row.eventId = true then (s, 0) else (s.insert row h, 1)

/-- `DELETE ... WHERE event_id IN (SELECT event_id ... LIMIT -1 OFFSET capacity)` -/
def deletePastCapacity : SqliteNotificationHistory ι :=
  { s with
    rows := s.rows.filter fun row => row.eventId ∉ (s.ordered.drop s.capacity).map (·.eventId)
    primaryKey := s.primaryKey.sublist (List.filter_sublist.map _) }

/-- `_insertAndPrune`, and whether the entry is retained. -/
def insertAndPrune (entry : HistoryEntry ι) : SqliteNotificationHistory ι × Bool :=
  let (inserted, changed) := s.insertOrIgnore (toCompanion entry)
  if changed = 0 then (inserted, false)
  else
    let pruned := inserted.deletePastCapacity
    (pruned, pruned.contains entry.eventId)

def add (entry : HistoryEntry ι) : SqliteNotificationHistory ι :=
  let (after, retained) := s.insertAndPrune entry
  if retained then { after with changes := after.changes + 1 } else after

def loadPage (offset limit : Int) : Option (HistoryBatch ι) :=
  if offset < 0 ∨ limit ≤ 0 then none
  else some ⟨((s.ordered.drop offset.toNat).take limit.toNat).map fromStored, s.rows.length⟩

def remove (eventId : ι) : SqliteNotificationHistory ι :=
  { s with
    rows := s.rows.filter (·.eventId ≠ eventId)
    primaryKey := s.primaryKey.sublist (List.filter_sublist.map _)
    changes := s.changes + 1 }

end SqliteNotificationHistory

/-! ## Both -/

inductive HistoryCall (ι : Type) where
  | contains (eventId : ι)
  | add (entry : HistoryEntry ι)
  | loadPage (offset limit : Int64)
  | remove (eventId : ι)

structure Histories (ι : Type) where
  memory : InMemoryNotificationHistory ι
  database : SqliteNotificationHistory ι

/-- No two rows are of one rank. -/
theorem rank_nodup {ι : Type} (s : SqliteNotificationHistory ι) : (s.rows.map StoredHistoryEntry.rank).Nodup := by
  refine List.Nodup.of_map (fun r => (ofLex r).2) ?_
  rw [List.map_map]
  exact s.primaryKey

namespace Histories

variable {ι : Type} [LinearOrder ι]

/-- Both new, with one capacity. -/
def init (capacity : Nat) (positive : 0 < capacity) : Histories ι :=
  ⟨⟨capacity, positive, [], 0⟩, ⟨capacity, positive, [], List.nodup_nil, 0⟩⟩

def step (h : Histories ι) : HistoryCall ι → Histories ι
  | .contains _ | .loadPage .. => h
  | .add entry => ⟨h.memory.add entry, h.database.add entry⟩
  | .remove eventId => ⟨h.memory.remove eventId, h.database.remove eventId⟩

/-- They hold the same ids, list the same entries in the same order, the times taken in UTC, and have emitted
    as often. -/
structure Alike (h : Histories ι) : Prop where
  contains : ∀ eventId, h.memory.contains eventId = h.database.contains eventId
  order : h.memory.entries.map HistoryEntry.inUtc = h.database.ordered.map fromStored
  changes : h.memory.changes = h.database.changes

/-- They answer the call alike, the times of a page taken in UTC. -/
def AnswersAlike (h : Histories ι) : HistoryCall ι → Prop
  | .contains eventId => h.memory.contains eventId = h.database.contains eventId
  | .loadPage offset limit =>
    (h.memory.loadPage offset.toInt limit.toInt).map (fun b => { b with entries := b.entries.map HistoryEntry.inUtc }) =
      h.database.loadPage offset.toInt limit.toInt
  | .add _ | .remove _ => True

/-- An entry that is added is newer than all that are held. -/
def Newest (h : Histories ι) : HistoryCall ι → Prop
  | .add entry => h.memory.contains entry.eventId = false → ∀ e ∈ h.memory.entries, e.rank < entry.rank
  | _ => True

instance (h : Histories ι) (c : HistoryCall ι) : Decidable (Newest h c) := by
  cases c <;> unfold Newest <;> infer_instance

/-- A page that begins among the entries ends at an `int`. -/
def EndFits (h : Histories ι) : HistoryCall ι → Prop
  | .loadPage offset limit => 0 ≤ offset.toInt → 0 < limit.toInt → offset.toInt < h.memory.entries.length →
      offset.toInt + limit.toInt < 2 ^ 63
  | _ => True

instance (h : Histories ι) (c : HistoryCall ι) : Decidable (EndFits h c) := by
  cases c <;> unfold EndFits <;> infer_instance

/-! ## What the statements do -/

/-- The rows are those of the entries, in the order of the entries. -/
structure Matched (h : Histories ι) : Prop where
  capacity : h.memory.capacity = h.database.capacity
  entries : h.database.ordered = h.memory.entries.map toCompanion
  changes : h.memory.changes = h.database.changes

theorem contains_eq_true {s : SqliteNotificationHistory ι} {eventId : ι} :
    s.contains eventId = true ↔ ∃ row ∈ s.ordered, row.eventId = eventId := by
  rw [SqliteNotificationHistory.contains, List.any_eq_true]
  simp only [SqliteNotificationHistory.ordered, mem_sortDesc, decide_eq_true_iff]

theorem Matched.contains {h : Histories ι} (hm : Matched h) (eventId : ι) :
    h.memory.contains eventId = h.database.contains eventId := by
  rw [Bool.eq_iff_iff, contains_eq_true, hm.entries, InMemoryNotificationHistory.contains, List.any_eq_true]
  simp [toCompanion]

/-- An entry that is held already changes nothing. -/
theorem add_held {s : SqliteNotificationHistory ι} {entry : HistoryEntry ι} (h : s.contains entry.eventId = true) :
    s.add entry = s := by
  have hrow : s.contains (toCompanion entry).eventId = true := h
  simp only [SqliteNotificationHistory.add, SqliteNotificationHistory.insertAndPrune,
    SqliteNotificationHistory.insertOrIgnore, hrow,
    dif_pos, if_true, Bool.false_eq_true, if_false]

/-- An entry that is new is inserted, and the rows past the capacity go. -/
theorem add_new {s : SqliteNotificationHistory ι} {entry : HistoryEntry ι}
    (hnew : ¬ s.contains (toCompanion entry).eventId = true) :
    s.add entry =
      if (s.insert (toCompanion entry) hnew).deletePastCapacity.contains entry.eventId then
        { (s.insert (toCompanion entry) hnew).deletePastCapacity with changes := s.changes + 1 }
      else (s.insert (toCompanion entry) hnew).deletePastCapacity := by
  simp only [SqliteNotificationHistory.add, SqliteNotificationHistory.insertAndPrune,
    SqliteNotificationHistory.insertOrIgnore,
    dif_neg hnew, one_ne_zero, if_false]
  rfl

theorem ordered_prune (s : SqliteNotificationHistory ι) : s.deletePastCapacity.ordered = s.ordered.take s.capacity :=
  sortDesc_prune _ (rank_nodup s) s.primaryKey s.capacity

theorem ordered_add {s : SqliteNotificationHistory ι} {entry : HistoryEntry ι}
    (hnew : ¬ s.contains (toCompanion entry).eventId = true) :
    (s.add entry).ordered = (sortDesc StoredHistoryEntry.rank (toCompanion entry :: s.rows)).take s.capacity := by
  have hpruned := ordered_prune (s.insert (toCompanion entry) hnew)
  rw [add_new hnew]
  split
  · exact hpruned
  · exact hpruned

/-! ## Agreement -/

theorem add_entries {m : InMemoryNotificationHistory ι} {entry : HistoryEntry ι}
    (hnew : ¬ m.contains entry.eventId = true) :
    (m.add entry).entries = (entry :: m.entries).take m.capacity := by
  rw [InMemoryNotificationHistory.add, if_neg hnew]

theorem capacity_add (s : SqliteNotificationHistory ι) (entry : HistoryEntry ι) :
    (s.add entry).capacity = s.capacity := by
  by_cases hnew : s.contains (toCompanion entry).eventId = true
  · rw [add_held hnew]
  · rw [add_new hnew]
    split <;> rfl

/-- No call changes a capacity. -/
theorem capacity_step {h : Histories ι} (hcapacity : h.memory.capacity = h.database.capacity) (c : HistoryCall ι) :
    (h.step c).memory.capacity = (h.step c).database.capacity := by
  cases c with
  | add entry =>
    have hmemory : (h.memory.add entry).capacity = h.memory.capacity := by
      rw [InMemoryNotificationHistory.add]
      split <;> rfl
    exact hmemory.trans (hcapacity.trans (capacity_add h.database entry).symm)
  | contains eventId => exact hcapacity
  | loadPage offset limit => exact hcapacity
  | remove eventId => exact hcapacity

theorem Matched.not_contains {h : Histories ι} (hm : Matched h) {entry : HistoryEntry ι}
    (hnew : h.memory.contains entry.eventId = false) :
    ¬ h.database.contains (toCompanion entry).eventId = true := by
  have hdatabase := (hm.contains entry.eventId).symm.trans hnew
  exact Bool.eq_false_iff.mp hdatabase

/-- The newest entry comes first in both. -/
theorem matched_add {h : Histories ι} (hm : Matched h) (entry : HistoryEntry ι) (hnewest : Newest h (.add entry)) :
    Matched (h.step (.add entry)) := by
  cases hheld : h.memory.contains entry.eventId with
  | true =>
    have hsame : h.step (.add entry) = h := by
      rw [step, InMemoryNotificationHistory.add, if_pos hheld, add_held ((hm.contains _).symm.trans hheld)]
    rwa [hsame]
  | false =>
    have hnew := hm.not_contains hheld
    have hmemory : h.memory.add entry = { h.memory with
        entries := (entry :: h.memory.entries).take h.memory.capacity, changes := h.memory.changes + 1 } := by
      rw [InMemoryNotificationHistory.add, if_neg (by simp [hheld])]
    have hfirst : ∀ row ∈ h.database.rows, row.rank ≤ (toCompanion entry).rank := by
      intro row hrow
      have hordered : row ∈ h.database.ordered := mem_sortDesc.mpr hrow
      rw [hm.entries] at hordered
      obtain ⟨e, he, rfl⟩ := List.mem_map.mp hordered
      exact (hnewest hheld e he).le
    have hentries : (h.database.add entry).ordered =
      ((entry :: h.memory.entries).take h.memory.capacity).map toCompanion := by
      rw [ordered_add hnew, sortDesc_cons hfirst (rank_nodup (h.database.insert _ hnew)),
        List.map_take, List.map_cons, ← hm.entries, hm.capacity]
      rfl
    have hretained : (h.database.insert (toCompanion entry) hnew).deletePastCapacity.contains entry.eventId = true := by
      refine contains_eq_true.mpr ⟨toCompanion entry, ?_, rfl⟩
      have hpruned := ordered_add hnew
      rw [ordered_prune]
      change toCompanion entry ∈ (sortDesc StoredHistoryEntry.rank (toCompanion entry :: h.database.rows)).take
        h.database.capacity
      rw [← hpruned, hentries, hm.capacity]
      obtain ⟨n, hn⟩ := Nat.exists_eq_add_one_of_ne_zero h.database.positive.ne'
      simp [hn]
    refine ⟨?_, ?_, ?_⟩
    · change (h.memory.add entry).capacity = (h.database.add entry).capacity
      rw [hmemory, add_new hnew, if_pos hretained]
      exact hm.capacity
    · change (h.database.add entry).ordered = (h.memory.add entry).entries.map toCompanion
      rw [hmemory, hentries]
    · change (h.memory.add entry).changes = (h.database.add entry).changes
      rw [hmemory, add_new hnew, if_pos hretained]
      exact congrArg (· + 1) hm.changes

theorem matched_remove {h : Histories ι} (hm : Matched h) (eventId : ι) : Matched (h.step (.remove eventId)) := by
  refine ⟨hm.capacity, ?_, congrArg (· + 1) hm.changes⟩
  change sortDesc StoredHistoryEntry.rank (h.database.rows.filter (·.eventId ≠ eventId)) =
    (h.memory.entries.filter (·.eventId ≠ eventId)).map toCompanion
  have hordered : sortDesc StoredHistoryEntry.rank h.database.rows = h.memory.entries.map toCompanion := hm.entries
  rw [sortDesc_filter (rank_nodup h.database), hordered, List.filter_map]
  rfl

theorem matched_step {h : Histories ι} (hm : Matched h) (c : HistoryCall ι) (hnewest : Newest h c) :
    Matched (h.step c) := by
  cases c with
  | contains eventId => exact hm
  | add entry => exact matched_add hm entry hnewest
  | loadPage offset limit => exact hm
  | remove eventId => exact matched_remove hm eventId

theorem matched_init {capacity : Nat} (positive : 0 < capacity) : Matched (init (ι := ι) capacity positive) :=
  ⟨rfl, rfl, rfl⟩

theorem Matched.alike {h : Histories ι} (hm : Matched h) : Alike h := by
  refine ⟨hm.contains, ?_, hm.changes⟩
  rw [hm.entries, List.map_map]
  exact List.map_congr_left fun e _ => (fromStored_toCompanion e).symm

theorem Alike.matched {h : Histories ι} (ha : Alike h) (hcapacity : h.memory.capacity = h.database.capacity) :
    Matched h := by
  refine ⟨hcapacity, ?_, ha.changes⟩
  have hrows := congrArg (List.map toCompanion) ha.order
  rw [List.map_map, List.map_map] at hrows
  have hmemory : toCompanion ∘ HistoryEntry.inUtc = (toCompanion : HistoryEntry ι → _) := funext toCompanion_inUtc
  have hdatabase : toCompanion ∘ fromStored = (id : StoredHistoryEntry ι → _) := funext toCompanion_fromStored
  rw [hmemory, hdatabase, List.map_id] at hrows
  exact hrows.symm

theorem Alike.length {h : Histories ι} (ha : Alike h) : h.database.rows.length = h.memory.entries.length := by
  have horder := congrArg List.length ha.order
  rw [List.length_map, List.length_map] at horder
  exact ((sortDesc_perm StoredHistoryEntry.rank h.database.rows).length_eq).symm.trans horder.symm

/-- The pages of histories that hold alike: alike, unless memory's end wraps. -/
theorem answersAlike_iff {h : Histories ι} (ha : Alike h) (c : HistoryCall ι) : AnswersAlike h c ↔ EndFits h c := by
  cases c with
  | contains eventId => exact iff_of_true (ha.contains eventId) trivial
  | add entry => exact Iff.rfl
  | remove eventId => exact Iff.rfl
  | loadPage offset limit =>
    have hoffset := offset.toInt_lt
    have hlimit := limit.toInt_lt
    show ((h.memory.loadPage offset.toInt limit.toInt).map _ = h.database.loadPage offset.toInt limit.toInt) ↔ _
    by_cases hproper : 0 ≤ offset.toInt ∧ 0 < limit.toInt
    · obtain ⟨h0, h1⟩ := hproper
      have hlength := congrArg List.length ha.order
      rw [List.length_map, List.length_map] at hlength
      rw [SqliteNotificationHistory.loadPage, if_neg (by omega), ha.length]
      by_cases hin : offset.toInt < h.memory.entries.length
      · by_cases hend : offset.toInt + limit.toInt < 2 ^ 63
        · refine iff_of_true ?_ fun _ _ _ => hend
          rw [loadPage_fits h0 h1 hin hend, Option.map_some, List.map_take, List.map_drop, ha.order, ← List.map_drop,
            ← List.map_take]
        · refine iff_of_false (fun hsame => ?_) fun hfits => hend (hfits h0 h1 hin)
          -- memory answers nothing, the database the entry at the offset
          rw [loadPage_wraps h0 h1 hin (by omega) (by omega)] at hsame
          have hpage := congrArg List.length (HistoryBatch.mk.inj (Option.some.inj hsame)).1
          simp only [List.map_nil, List.length_nil, List.length_map, List.length_take, List.length_drop] at hpage
          omega
      · refine iff_of_true ?_ fun _ _ hlt => absurd hlt hin
        rw [loadPage_past h1 (by omega), List.drop_eq_nil_of_le (by omega), List.take_nil]
        rfl
    · refine iff_of_true ?_ fun h0 h1 => absurd ⟨h0, h1⟩ hproper
      rw [InMemoryNotificationHistory.loadPage, SqliteNotificationHistory.loadPage, if_pos (by omega),
        if_pos (by omega)]
      rfl

/-- What comes first in the database is of the greatest rank. -/
theorem newest_of_matched {h : Histories ι} (hm : Matched h) {entry : HistoryEntry ι}
    (hafter : Matched (h.step (.add entry))) :
    Newest h (.add entry) := by
  intro hheld e he
  have hnew := hm.not_contains hheld
  have hordered : (h.database.add entry).ordered = (h.memory.add entry).entries.map toCompanion := hafter.entries
  rw [ordered_add hnew, add_entries (by simp [hheld]), hm.capacity] at hordered
  obtain ⟨n, hn⟩ := Nat.exists_eq_add_one_of_ne_zero h.database.positive.ne'
  have hmem : toCompanion e ∈ h.database.rows := by
    have hin : toCompanion e ∈ h.database.ordered := by
      rw [hm.entries]
      exact List.mem_map_of_mem he
    exact mem_sortDesc.mp hin
  have hsorted := sortDesc_pairwise StoredHistoryEntry.rank (toCompanion entry :: h.database.rows)
  have hin : toCompanion e ∈ sortDesc StoredHistoryEntry.rank (toCompanion entry :: h.database.rows) :=
    mem_sortDesc.mpr (List.mem_cons_of_mem _ hmem)
  cases hlist : sortDesc StoredHistoryEntry.rank (toCompanion entry :: h.database.rows) with
  | nil => exact absurd (hlist ▸ hin) List.not_mem_nil
  | cons first rest =>
    rw [hlist, hn] at hordered
    have hfirst : first = toCompanion entry := (List.cons.inj hordered).1
    rw [hlist, hfirst] at hsorted hin
    have hdifferent : e.rank ≠ entry.rank := by
      intro heq
      have hid : e.eventId = entry.eventId := congrArg (fun r => (ofLex r).2) heq
      exact hnew (List.any_eq_true.mpr ⟨toCompanion e, hmem, decide_eq_true hid⟩)
    refine lt_of_le_of_ne ?_ hdifferent
    rcases List.mem_cons.mp hin with hsame | hrest
    · exact (congrArg StoredHistoryEntry.rank hsame).le
    · exact List.rel_of_pairwise_cons hsorted hrest

theorem alike_step {h : Histories ι} (hcapacity : h.memory.capacity = h.database.capacity)
    (ha : Alike h) (c : HistoryCall ι) :
    Alike (h.step c) ↔ Newest h c := by
  have hm := ha.matched hcapacity
  constructor
  · intro hafter
    cases c with
    | add entry => exact newest_of_matched hm (hafter.matched (capacity_step hcapacity _))
    | contains eventId => trivial
    | loadPage offset limit => trivial
    | remove eventId => trivial
  · exact fun hnewest => (matched_step hm c hnewest).alike

section

def sampleContext : HistoryContext := ⟨none, none, none, none, none, none, none, none, none⟩

/-- An entry of that id, received at that microsecond. -/
def sampleEntry (eventId : Nat) (micros : Int) : HistoryEntry Nat :=
  ⟨eventId, js "T", js "B", ⟨micros, true⟩, none, sampleContext⟩

/-- The entry that was received later is added first. -/
def outOfOrder : List (HistoryCall Nat) := [.add (sampleEntry 1 20), .add (sampleEntry 2 10)]

/-- With room for both, the pages are in other orders. -/
theorem older_entry_first :
    let h := runFrom step (init 2 (by decide)) outOfOrder
    (h.memory.loadPage 0 2).map (·.entries.map (·.eventId)) = some [2, 1] ∧
      (h.database.loadPage 0 2).map (·.entries.map (·.eventId)) = some [1, 2] := by
  decide +kernel

/-- Added in order, and the second page asked for with the largest `int` as its length. -/
def longPage : List (HistoryCall Nat) :=
  [.add (sampleEntry 1 10), .add (sampleEntry 2 20), .loadPage 1 9223372036854775807]

/-- Its end wraps: memory answers no entry, the database the older one. -/
theorem long_page_differs :
    let h := runFrom step (init 2 (by decide)) longPage
    (h.memory.loadPage 1 9223372036854775807).map (·.entries.map (·.eventId)) = some [] ∧
      (h.database.loadPage 1 9223372036854775807).map (·.entries.map (·.eventId)) = some [1] := by
  decide +kernel

/-- Received and added in one order, one of them twice, with a page, a deletion and an eviction. -/
def inOrder : List (HistoryCall Nat) :=
  [.add (sampleEntry 2 10), .add (sampleEntry 1 20), .add (sampleEntry 2 10), .loadPage 1 20, .remove 1,
    .add (sampleEntry 3 20), .add (sampleEntry 4 20), .contains 2, .loadPage 0 20]

end

end Histories

end NotifyHub.Client
