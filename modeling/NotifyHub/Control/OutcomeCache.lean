/-
  NotifyHub.Control.OutcomeCache — the outcome cache as a bounded map with expiry.

  A history is a list of calls with their times: `recordOutcome`, `settleOutcome` and
  `outcomeFor`. What the cache should hold is said by the recordings alone: `live` are
  the unexpired ones, `added` the one a call adds, and `evicted` the oldest of them
  above the bound.

  Proved (`outcomes_are_kept`), for every history with a monotone clock, every ttl and
  every bound: the cache is never above the bound, a call leaves of the unexpired
  recordings exactly those it does not evict, oldest first, and `outcomeFor` finds a
  recording exactly when it is unexpired and no call since has evicted it (`Holds`).
  The registry's cache has such a history (`registry_outcomes`).
-/

import NotifyHub.Control.Outcomes
import NotifyHub.Lib.Run
import Mathlib.Data.List.Induction

namespace NotifyHub.Control

open Relation

variable {D : Deps}

/-- What `recordOutcome` writes down for good: an entry without its status. -/
structure Recording where
  userId : UserId
  commandId : JsString
  requestId : JsString
  instanceId : JsString
  kind : CommandKind
  expiresAtMs : Nat
  deriving DecidableEq

def CommandOutcomeEntry.recording (e : CommandOutcomeEntry) : Recording :=
  ⟨e.userId, e.commandId, e.requestId, e.instanceId, e.kind, e.expiresAtMs⟩

inductive OutcomeCall where
  | recordOutcome (u : UserId) (commandId requestId instanceId : JsString) (kind : CommandKind)
  | settleOutcome (commandId : JsString) (status : CommandStatus)
  | outcomeFor (u : UserId) (commandId : JsString)
  deriving DecidableEq

namespace OutcomeCache

variable (D)

/-- One call at its time. -/
def call (o : OutcomeCache) (x : Nat × OutcomeCall) : OutcomeCache :=
  match x.2 with
  | .recordOutcome u commandId requestId instanceId kind => recordOutcome D o x.1 u commandId requestId instanceId kind
  | .settleOutcome commandId status => settleOutcome o x.1 commandId status
  | .outcomeFor _ _ => pruneExpiredOutcomes o x.1

abbrev after (h : List (Nat × OutcomeCall)) : OutcomeCache := runFrom (call D) .empty h

/-- The unexpired recordings, oldest first. -/
def live (o : OutcomeCache) (nowMs : Nat) : List Recording :=
  (o.values.map (·.recording)).filter (nowMs < ·.expiresAtMs)

def recordingOf (x : Nat × OutcomeCall) : Option Recording :=
  match x.2 with
  | .recordOutcome u commandId requestId instanceId kind =>
    some ⟨u, commandId, requestId, instanceId, kind, x.1 + D.outcomeTtlMs⟩
  | _ => none

/-- The recording a call adds: the first unexpired one of its command id. -/
def added (o : OutcomeCache) (x : Nat × OutcomeCall) : Option Recording :=
  (recordingOf D x).filter fun r => (live o x.1).all (·.commandId ≠ r.commandId)

/-- The unexpired recordings a call would leave if there were no bound. -/
def wouldHold (o : OutcomeCache) (x : Nat × OutcomeCall) : List Recording :=
  live o x.1 ++ (added D o x).toList.filter (x.1 < ·.expiresAtMs)

/-- The oldest ones above the bound. -/
def evicted (o : OutcomeCache) (x : Nat × OutcomeCall) : List Recording :=
  (wouldHold D o x).take ((wouldHold D o x).length - D.maxCommandOutcomes)

/-- All that was recorded, in order. -/
def recordings : OutcomeCache → List (Nat × OutcomeCall) → List Recording
  | _, [] => []
  | o, x :: h => (added D o x).toList ++ recordings (call D o x) h

/-- `r` was recorded in the history, has not expired, and no call since has evicted it. -/
def Holds (h : List (Nat × OutcomeCall)) (nowMs : Nat) (r : Recording) : Prop :=
  nowMs < r.expiresAtMs ∧ ∃ before x rest, h = before ++ x :: rest ∧ added D (after D before) x = some r ∧
    Along (call D) (fun o x => r ∉ evicted D o x) (after D before) (x :: rest)

variable {D}

/-! ## Each function -/

theorem live_prune {o : OutcomeCache} {now t : Nat} (h : now ≤ t) : live (pruneExpiredOutcomes o now) t = live o t := by
  rw [live, live, pruneExpiredOutcomes, OMap.values, OMap.values, OMap.entries_filter, List.map_map, List.map_map,
    List.filter_map, List.filter_map, List.filter_filter]
  refine congrArg _ (List.filter_congr fun e _ => ?_)
  have hle : t < e.2.expiresAtMs → now < e.2.expiresAtMs := fun ht => by omega
  simpa [CommandOutcomeEntry.recording] using hle

theorem live_eq (o : OutcomeCache) (now : Nat) : live o now = (pruneExpiredOutcomes o now).values.map
    (·.recording) := by
  rw [live, pruneExpiredOutcomes, OMap.values, OMap.values, OMap.entries_filter, List.map_map,
    List.map_map, List.filter_map]
  rfl

/-- What holds of the cache at its last call. -/
structure Sound (D : Deps) (last : Nat) (o : OutcomeCache) : Prop where
  bounded : o.size ≤ D.maxCommandOutcomes
  keyed : ∀ id e, o.get id = some e → e.commandId = id
  dated : ∀ id e, o.get id = some e → e.expiresAtMs ≤ last + D.outcomeTtlMs

theorem size_filter_le {κ α : Type} (m : OMap κ α) (p : κ → α → Bool) : (m.filter p).size ≤ m.size :=
  List.length_filter_le ..

theorem size_set_of_mem {o : OutcomeCache} {id : JsString} {e : CommandOutcomeEntry} (h : id ∈ o.keys) :
    (o.set id e).size = o.size := by
  rw [OMap.size, OMap.entries_set_of_mem e h, List.length_map, ← OMap.size]

theorem size_record (o : OutcomeCache) {now : Nat} {u : UserId} {commandId requestId instanceId : JsString}
    {kind : CommandKind} (h : o.size ≤ D.maxCommandOutcomes) :
    (recordOutcome D o now u commandId requestId instanceId kind).size ≤ D.maxCommandOutcomes := by
  have hp : (pruneExpiredOutcomes o now).size ≤ o.size := size_filter_le ..
  unfold recordOutcome
  dsimp only
  split
  · omega
  · rw [evictOldestOutcomes, OMap.size_evict]; omega

theorem size_settle (o : OutcomeCache) (now : Nat) (commandId : JsString) (status : CommandStatus) :
    (settleOutcome o now commandId status).size ≤ o.size := by
  unfold settleOutcome
  split
  · exact le_refl _
  · rename_i e he
    split
    · exact size_filter_le ..
    · exact le_of_eq (size_set_of_mem (OMap.mem_keys.mpr ⟨e, he⟩))

theorem sound_call {last : Nat} {o : OutcomeCache} {x : Nat × OutcomeCall} (hs : Sound D last o) (ht : last ≤ x.1) :
    Sound D x.1 (call D o x) := by
  obtain ⟨t, c⟩ := x
  dsimp only at ht
  have hold : ∀ id e, o.get id = some e → e.commandId = id ∧ e.expiresAtMs ≤ t + D.outcomeTtlMs := fun id e he => by
    have := hs.dated id e he
    exact ⟨hs.keyed id e he, by omega⟩
  have hnew : ∀ id e, (call D o (t, c)).get id = some e → e.commandId = id ∧ e.expiresAtMs ≤ t + D.outcomeTtlMs := by
    intro id e he
    cases c with
    | recordOutcome u commandId requestId instanceId kind =>
      rcases get_record he with ⟨rfl, -, rfl⟩ | h
      · exact ⟨rfl, le_refl _⟩
      · exact hold id e (get_prune h)
    | settleOutcome commandId status =>
      obtain ⟨y, hy, rfl | ⟨-, rfl⟩⟩ := get_settle he
      · exact hold id e hy
      · exact hold id y hy
    | outcomeFor u commandId => exact hold id e (get_prune he)
  refine ⟨?_, fun id e he => (hnew id e he).1, fun id e he => (hnew id e he).2⟩
  cases c with
  | recordOutcome => exact size_record o hs.bounded
  | settleOutcome commandId status => exact (size_settle o t commandId status).trans hs.bounded
  | outcomeFor => exact (size_filter_le ..).trans hs.bounded

theorem mem_live {o : OutcomeCache} {now : Nat} {r : Recording} :
    r ∈ live o now ↔ ∃ id e, o.get id = some e ∧ e.recording = r ∧ now < r.expiresAtMs := by
  rw [live, List.mem_filter, List.mem_map, decide_eq_true_iff]
  constructor
  · rintro ⟨⟨e, he, rfl⟩, ht⟩
    obtain ⟨id, hid⟩ := OMap.mem_values.mp he
    exact ⟨id, e, hid, rfl, ht⟩
  · rintro ⟨id, e, he, rfl, ht⟩
    exact ⟨⟨e, OMap.mem_values.mpr ⟨id, he⟩, rfl⟩, ht⟩

theorem live_length {last : Nat} {o : OutcomeCache} (hs : Sound D last o) (now : Nat) :
    (live o now).length ≤ D.maxCommandOutcomes := by
  refine (List.length_filter_le ..).trans ?_
  rw [List.length_map, OMap.values, List.length_map]
  exact hs.bounded

/-- First write wins, as the code asks and as the recordings say. -/
theorem all_ne_iff {last now : Nat} {o : OutcomeCache} (hs : Sound D last o) {commandId : JsString} :
    (live o now).all (·.commandId ≠ commandId) = true ↔ (pruneExpiredOutcomes o now).has commandId = false := by
  rw [List.all_eq_true, Bool.eq_false_iff, Ne, OMap.has_eq_true, OMap.mem_keys]
  constructor
  · rintro h ⟨e, he⟩
    obtain ⟨hg, ht⟩ := Option.filter_eq_some_iff.mp ((OMap.get_filter ..).symm.trans he)
    have hne := h e.recording (mem_live.mpr ⟨commandId, e, hg, rfl, of_decide_eq_true ht⟩)
    exact of_decide_eq_true hne (hs.keyed _ _ hg)
  · intro h r hr
    obtain ⟨id, e, he, rfl, ht⟩ := mem_live.mp hr
    refine decide_eq_true fun hid => h ⟨e, ?_⟩
    have hkey : id = commandId := (hs.keyed id e he).symm.trans hid
    rw [pruneExpiredOutcomes, OMap.get_filter, ← hkey, he]
    exact (Option.filter_some ..).trans (if_pos (decide_eq_true ht))

theorem live_settle {o : OutcomeCache} {now : Nat} {commandId : JsString} {status : CommandStatus} :
    live (settleOutcome o now commandId status) now = live o now := by
  unfold settleOutcome
  split
  · rfl
  · rename_i e he
    split
    · rename_i hexp
      -- Only an expired entry is deleted.
      rw [live_eq, live_eq, pruneExpiredOutcomes, pruneExpiredOutcomes, OMap.delete, OMap.filter_filter]
      congr 2
      refine OMap.filter_eq_self fun id e' he' => decide_eq_true fun hid => ?_
      obtain ⟨hg, ht⟩ := Option.filter_eq_some_iff.mp ((OMap.get_filter ..).symm.trans he')
      rw [hid, he] at hg; cases hg
      exact absurd (of_decide_eq_true ht) (by omega)
    · have hsame : (OMap.set o commandId (e.ended status now)).values.map (·.recording) = o.values.map (·.recording) :=
        OMap.map_values_set _ he rfl
      exact congrArg (List.filter _) hsame

/-! ## One call -/

/-- A call leaves of the unexpired recordings those it does not evict, in their order. -/
theorem live_call {last : Nat} {o : OutcomeCache} {x : Nat × OutcomeCall} (hs : Sound D last o) (ht : last ≤ x.1) :
    wouldHold D o x = evicted D o x ++ live (call D o x) x.1 := by
  have hsame : added D o x = none → live (call D o x) x.1 = live o x.1 →
      wouldHold D o x = evicted D o x ++ live (call D o x) x.1 := by
    intro hn hl
    have hlen := live_length hs x.1
    have hw : wouldHold D o x = live o x.1 := by rw [wouldHold, hn]; exact List.append_nil _
    rw [evicted, hw, hl, Nat.sub_eq_zero_of_le hlen]; rfl
  obtain ⟨t, c⟩ := x
  cases c with
  | settleOutcome commandId status => exact hsame rfl live_settle
  | outcomeFor u commandId => exact hsame rfl (live_prune le_rfl)
  | recordOutcome u commandId requestId instanceId kind =>
    cases hhas : (pruneExpiredOutcomes o t).has commandId with
    | true =>
      have hcall : call D o (t, .recordOutcome u commandId requestId instanceId kind) = pruneExpiredOutcomes o t := by
        simp only [call, recordOutcome, hhas, if_true]
      refine hsame (Option.filter_eq_none_iff.mpr fun r hr hall => ?_) (hcall ▸ live_prune le_rfl)
      cases hr
      rw [(all_ne_iff hs).mp hall] at hhas
      cases hhas
    | false =>
      let r : Recording := ⟨u, commandId, requestId, instanceId, kind, t + D.outcomeTtlMs⟩
      have hadd : added D o (t, .recordOutcome u commandId requestId instanceId kind) = some r :=
        (Option.filter_some ..).trans (if_pos ((all_ne_iff hs).mpr hhas))
      have hkeys : commandId ∉ (pruneExpiredOutcomes o t).keys := fun hk => by
        rw [OMap.has_eq_true.mpr hk] at hhas; cases hhas
      have hvals : (call D o (t, .recordOutcome u commandId requestId instanceId kind)).values.map (·.recording) =
          (live o t ++ [r]).drop ((live o t).length + 1 - D.maxCommandOutcomes) := by
        have hsize : ((pruneExpiredOutcomes o t).set commandId
            ⟨u, commandId, requestId, instanceId, kind, .accepted, t, t + D.outcomeTtlMs⟩).size =
              (live o t).length + 1 := by
          rw [live_eq, List.length_map, OMap.values, List.length_map, OMap.size, OMap.entries_set_of_not_mem _ hkeys,
            List.length_append, List.length_singleton]
        simp only [call, recordOutcome, hhas, Bool.false_eq_true, if_false, evictOldestOutcomes,
          OMap.evict, OMap.values]
        rw [List.map_drop, List.map_drop, hsize, OMap.entries_set_of_not_mem _ hkeys, List.map_append, List.map_append,
          live_eq]
        rfl
      rw [evicted, wouldHold, hadd]
      by_cases hexp : t < r.expiresAtMs
      · have hall : ∀ y ∈ live o t ++ [r], decide (t < y.expiresAtMs) = true := by
          intro y hy
          rcases List.mem_append.mp hy with hy | hy
          · exact (List.mem_filter.mp hy).2
          · rw [List.mem_singleton.mp hy]; exact decide_eq_true hexp
        have hnew : (Option.toList (some r)).filter (t < ·.expiresAtMs) = [r] := by simp [hexp]
        have hafter : live (call D o (t, .recordOutcome u commandId requestId instanceId kind)) t =
            (live o t ++ [r]).drop ((live o t ++ [r]).length - D.maxCommandOutcomes) := by
          rw [live, hvals, List.filter_eq_self.mpr fun y hy => hall y (List.mem_of_mem_drop hy), List.length_append]
          rfl
        rw [hnew, hafter]
        exact (List.take_append_drop ..).symm
      · -- Without a time to live nothing is unexpired, neither before nor after.
        have hnone : live o t = [] := by
          refine List.eq_nil_iff_forall_not_mem.mpr fun y hy => ?_
          obtain ⟨id, e, he, rfl, hlive⟩ := mem_live.mp hy
          have hdated := hs.dated id e he
          simp only [CommandOutcomeEntry.recording, r] at hlive hexp
          dsimp only at ht
          omega
        have hnew : (Option.toList (some r)).filter (t < ·.expiresAtMs) = [] := by simp [hexp]
        have hafter : live (call D o (t, .recordOutcome u commandId requestId instanceId kind)) t = [] := by
          rw [live, hvals, hnone]
          refine List.filter_eq_nil_iff.mpr fun y hy => ?_
          rw [List.mem_singleton.mp (List.mem_of_mem_drop hy)]
          simpa using hexp
        rw [hnew, hnone, hafter]
        simp

/-! ## Histories -/

/-- The calls of a history are made one after the other. -/
def Clocked (h : List (Nat × OutcomeCall)) : Prop := (h.map (·.1)).Pairwise (· ≤ ·)

instance (h : List (Nat × OutcomeCall)) : Decidable (Clocked h) :=
  inferInstanceAs (Decidable ((h.map (·.1)).Pairwise (· ≤ ·)))

theorem clocked_append {h g : List (Nat × OutcomeCall)} :
    Clocked (h ++ g) ↔ Clocked h ∧ Clocked g ∧ ∀ x ∈ h, ∀ y ∈ g, x.1 ≤ y.1 := by
  simp [Clocked, List.pairwise_append]

theorem clocked_snoc {h : List (Nat × OutcomeCall)} {x : Nat × OutcomeCall} :
    Clocked (h ++ [x]) ↔ Clocked h ∧ ∀ y ∈ h, y.1 ≤ x.1 := by
  rw [clocked_append]
  simp [Clocked]

theorem after_snoc (h : List (Nat × OutcomeCall)) (x : Nat × OutcomeCall) :
    after D (h ++ [x]) = call D (after D h) x := by
  rw [after, runFrom_append]; rfl

theorem sound_after {h : List (Nat × OutcomeCall)} (hc : Clocked h) {last : Nat} (hl : ∀ x ∈ h, x.1 ≤ last) :
    Sound D last (after D h) := by
  induction h using List.reverseRecOn generalizing last with
  | nil => exact ⟨Nat.zero_le _, nofun, nofun⟩
  | append_singleton h x ih =>
    obtain ⟨hh, hx⟩ := clocked_snoc.mp hc
    have hs := sound_call (ih hh hx) (le_refl x.1)
    have hle := hl x (by simp)
    rw [after_snoc]
    refine ⟨hs.bounded, hs.keyed, fun id e he => ?_⟩
    have := hs.dated id e he
    omega

theorem recordings_append (o : OutcomeCache) (h g : List (Nat × OutcomeCall)) :
    recordings D o (h ++ g) = recordings D o h ++ recordings D (runFrom (call D) o h) g := by
  induction h generalizing o with
  | nil => rfl
  | cons x h ih => rw [List.cons_append, recordings, recordings, ih, List.append_assoc]; rfl

/-! ### Oldest first -/

/-- A call puts its recording last and moves no other. -/
theorem values_call {last : Nat} {o : OutcomeCache} {x : Nat × OutcomeCall} (hs : Sound D last o) :
    ((call D o x).values.map (·.recording)).Sublist (o.values.map (·.recording) ++ (added D o x).toList) := by
  have hfilter : ∀ p, ((OMap.filter o p).values.map CommandOutcomeEntry.recording).Sublist
    (o.values.map (·.recording)) :=
    fun p => ((List.filter_sublist).map _).map _
  obtain ⟨t, c⟩ := x
  cases c with
  | outcomeFor => exact (hfilter _).trans (List.sublist_append_left _ _)
  | settleOutcome commandId status =>
    refine List.Sublist.trans ?_ (List.sublist_append_left _ _)
    show ((settleOutcome o t commandId status).values.map _).Sublist _
    unfold settleOutcome
    split
    · exact .refl _
    · rename_i e he
      split
      · exact hfilter _
      · have hsame : (OMap.set o commandId (e.ended status t)).values.map (·.recording) = o.values.map (·.recording) :=
          OMap.map_values_set _ he rfl
        exact hsame ▸ .refl _
  | recordOutcome u commandId requestId instanceId kind =>
    cases hhas : (pruneExpiredOutcomes o t).has commandId with
    | true =>
      simp only [call, recordOutcome, hhas, if_true]
      exact (hfilter _).trans (List.sublist_append_left _ _)
    | false =>
      have hkeys : commandId ∉ (pruneExpiredOutcomes o t).keys := fun hk => by
        rw [OMap.has_eq_true.mpr hk] at hhas; cases hhas
      have hadd : added D o (t, .recordOutcome u commandId requestId instanceId kind) =
          some ⟨u, commandId, requestId, instanceId, kind, t + D.outcomeTtlMs⟩ :=
        (Option.filter_some ..).trans (if_pos ((all_ne_iff hs).mpr hhas))
      simp only [call, recordOutcome, hhas, Bool.false_eq_true, if_false, evictOldestOutcomes, OMap.evict, OMap.values]
      rw [hadd, OMap.entries_set_of_not_mem _ hkeys]
      refine (((List.drop_sublist _ _).map _).map _).trans ?_
      rw [List.map_append, List.map_append]
      exact (hfilter _).append (.refl _)

theorem values_after {h : List (Nat × OutcomeCall)} (hc : Clocked h) :
    ((after D h).values.map (·.recording)).Sublist (recordings D .empty h) := by
  induction h using List.reverseRecOn with
  | nil => exact .refl _
  | append_singleton h x ih =>
    obtain ⟨hh, hx⟩ := clocked_snoc.mp hc
    rw [after_snoc, recordings_append, recordings, recordings, List.append_nil]
    exact (values_call (sound_after hh hx)).trans ((ih hh).append_right _)

/-- What a call finds unexpired stands in the order of recording. -/
theorem wouldHold_sublist {h : List (Nat × OutcomeCall)} {x : Nat × OutcomeCall} (hc : Clocked (h ++ [x])) :
    (wouldHold D (after D h) x).Sublist (recordings D .empty (h ++ [x])) := by
  rw [recordings_append, recordings, recordings, List.append_nil]
  exact ((List.filter_sublist).trans (values_after (clocked_snoc.mp hc).1)).append (List.filter_sublist)

/-! ### What is held -/

theorem live_nodup {last : Nat} {o : OutcomeCache} (hs : Sound D last o) (now : Nat) : (live o now).Nodup := by
  refine List.Nodup.filter _ (List.Nodup.of_map (·.commandId) ?_)
  have hkeys : (o.values.map (·.recording)).map (·.commandId) = o.keys := by
    rw [OMap.values, List.map_map, List.map_map, OMap.keys]
    exact List.map_congr_left fun e he => hs.keyed e.1 e.2 (OMap.get_eq_some.mpr he)
  rw [hkeys]
  exact o.nodup

theorem mem_wouldHold {o : OutcomeCache} {x : Nat × OutcomeCall} {r : Recording} :
    r ∈ wouldHold D o x ↔ r ∈ live o x.1 ∨ (added D o x = some r ∧ x.1 < r.expiresAtMs) := by
  rw [wouldHold, List.mem_append, List.mem_filter, Option.mem_toList, decide_eq_true_iff]

theorem wouldHold_nodup {last : Nat} {o : OutcomeCache} (hs : Sound D last o) (x : Nat × OutcomeCall) :
    (wouldHold D o x).Nodup := by
  refine (live_nodup hs _).append (List.Nodup.filter _ (by cases added D o x <;> simp)) fun r hr hnew => ?_
  have hadd : added D o x = some r := Option.mem_toList.mp (List.mem_filter.mp hnew).1
  have hne := List.all_eq_true.mp (Option.filter_eq_some_iff.mp hadd).2 r hr
  exact of_decide_eq_true hne rfl

theorem mem_live_call {last : Nat} {o : OutcomeCache} {x : Nat × OutcomeCall} (hs : Sound D last o) (ht : last ≤ x.1)
    {r : Recording} : r ∈ live (call D o x) x.1 ↔
      (r ∈ live o x.1 ∨ (added D o x = some r ∧ x.1 < r.expiresAtMs)) ∧ r ∉ evicted D o x := by
  have hsplit := live_call hs ht
  have hnodup := wouldHold_nodup hs x
  rw [hsplit] at hnodup
  rw [← mem_wouldHold, hsplit, List.mem_append]
  have hdisj := List.disjoint_of_nodup_append hnodup
  constructor
  · exact fun h => ⟨Or.inr h, fun he => hdisj he h⟩
  · exact fun h => h.1.resolve_left h.2

theorem holds_snoc {h : List (Nat × OutcomeCall)} {x : Nat × OutcomeCall} {now : Nat} {r : Recording} :
    Holds D (h ++ [x]) now r ↔
      (Holds D h now r ∨ (now < r.expiresAtMs ∧ added D (after D h) x = some r)) ∧ r ∉ evicted D (after D h) x := by
  constructor
  · rintro ⟨ht, before, y, rest, hsplit, hadd, hkept⟩
    rcases List.eq_nil_or_concat rest with rfl | ⟨rest, z, rfl⟩
    · obtain ⟨rfl, hxy⟩ := List.append_inj' hsplit rfl
      cases hxy
      exact ⟨Or.inr ⟨ht, hadd⟩, hkept.1⟩
    · rw [List.concat_eq_append, ← List.cons_append] at hkept hsplit
      rw [← List.append_assoc] at hsplit
      obtain ⟨rfl, hxz⟩ := List.append_inj' hsplit rfl
      cases hxz
      obtain ⟨hrest, hlast, -⟩ := along_append.mp hkept
      rw [after, runFrom_append]
      exact ⟨Or.inl ⟨ht, before, y, rest, rfl, hadd, hrest⟩, hlast⟩
  · rintro ⟨⟨ht, before, y, rest, rfl, hadd, hkept⟩ | ⟨ht, hadd⟩, hne⟩
    · refine ⟨ht, before, y, rest ++ [x], by simp, hadd, ?_⟩
      rw [after, runFrom_append] at hne
      rw [← List.cons_append]
      exact along_append.mpr ⟨hkept, hne, trivial⟩
    · exact ⟨ht, h, x, [], rfl, hadd, hne, trivial⟩

theorem mem_live_later {o : OutcomeCache} {t now : Nat} (h : t ≤ now) {r : Recording} :
    r ∈ live o now ↔ r ∈ live o t ∧ now < r.expiresAtMs := by
  rw [mem_live, mem_live]
  constructor
  · rintro ⟨id, e, he, hr, hlive⟩
    exact ⟨⟨id, e, he, hr, by omega⟩, hlive⟩
  · rintro ⟨⟨id, e, he, hr, -⟩, hlive⟩
    exact ⟨id, e, he, hr, hlive⟩

/-- The unexpired recordings of the cache are those the history still holds. -/
theorem mem_live_after {h : List (Nat × OutcomeCall)} (hc : Clocked h) {now : Nat} (hn : ∀ x ∈ h, x.1 ≤ now)
    {r : Recording} : r ∈ live (after D h) now ↔ Holds D h now r := by
  induction h using List.reverseRecOn with
  | nil => exact iff_of_false nofun fun ⟨_, before, x, rest, hsplit, _⟩ => by cases before <;> cases hsplit
  | append_singleton h x ih =>
    obtain ⟨hh, hx⟩ := clocked_snoc.mp hc
    have hle : x.1 ≤ now := hn x (by simp)
    have hih := ih hh fun y hy => hn y (List.mem_append_left _ hy)
    rw [after_snoc, mem_live_later hle, mem_live_call (sound_after hh hx) (le_refl _), holds_snoc, ← hih,
      mem_live_later hle]
    constructor
    · rintro ⟨⟨hl | ⟨ha, -⟩, hne⟩, ht⟩
      · exact ⟨Or.inl ⟨hl, ht⟩, hne⟩
      · exact ⟨Or.inr ⟨ht, ha⟩, hne⟩
    · rintro ⟨⟨hl, ht⟩ | ⟨ht, ha⟩, hne⟩
      · exact ⟨⟨Or.inl hl, hne⟩, ht⟩
      · exact ⟨⟨Or.inr ⟨ha, by omega⟩, hne⟩, ht⟩

/-- `outcomeFor` answers from an unexpired entry of its own user and command. -/
theorem find_eq_some {last : Nat} {o : OutcomeCache} (hs : Sound D last o) {now : Nat} {u : UserId}
    {commandId : JsString}
    {out : CommandOutcome} : find o now u commandId = some out ↔ ∃ e, o.get commandId = some e ∧ now < e.expiresAtMs ∧
      e.userId = u ∧ out = ⟨commandId, e.requestId, e.instanceId, e.kind, e.status, e.updatedAt⟩ := by
  unfold find
  constructor
  · intro h
    split at h
    · cases h
    · rename_i e he
      obtain ⟨hg, hlive⟩ := Option.filter_eq_some_iff.mp ((OMap.get_filter ..).symm.trans he)
      split at h
      · cases h
      · rename_i hok
        rw [not_or, not_not] at hok
        cases h
        exact ⟨e, hg, of_decide_eq_true hlive, hok.1, by rw [hs.keyed _ _ hg]⟩
  · rintro ⟨e, he, hlive, rfl, rfl⟩
    have hg : (pruneExpiredOutcomes o now).get commandId = some e :=
      (OMap.get_filter ..).trans (Option.filter_eq_some_iff.mpr ⟨he, decide_eq_true hlive⟩)
    rw [hg]
    dsimp only
    rw [if_neg (by simpa using hlive), hs.keyed _ _ he]

/-! ## The bounded map -/

/-- The cache is an oldest-first map, bounded, whose entries are lost by age or by
    eviction alone. -/
theorem outcomes_are_kept (h : List (Nat × OutcomeCall)) (hc : Clocked h) :
    (after D h).size ≤ D.maxCommandOutcomes ∧
    (∀ before x rest, h = before ++ x :: rest →
      wouldHold D (after D before) x =
        evicted D (after D before) x ++ live (after D (before ++ [x])) x.1 ∧
      (wouldHold D (after D before) x).Sublist (recordings D .empty (before ++ [x])) ∧
      (evicted D (after D before) x ≠ [] → D.maxCommandOutcomes < (wouldHold D (after D before) x).length)) ∧
    ∀ now, (∀ x ∈ h, x.1 ≤ now) → ∀ u commandId,
      (∀ out, find (after D h) now u commandId = some out → ∃ r, Holds D h now r ∧ r.userId = u ∧
        r.commandId = commandId ∧
        out.commandId = r.commandId ∧ out.requestId = r.requestId ∧ out.instanceId = r.instanceId ∧ out.kind = r.kind) ∧
      (∀ r, Holds D h now r → r.userId = u → r.commandId = commandId → ∃ status updatedAt,
        find (after D h) now u commandId =
          some ⟨r.commandId, r.requestId, r.instanceId, r.kind, status, updatedAt⟩) := by
  have hall : ∀ last, (∀ x ∈ h, x.1 ≤ last) → Sound D last (after D h) := fun last hl => sound_after hc hl
  refine ⟨?_, ?_, ?_⟩
  · rcases List.eq_nil_or_concat h with rfl | ⟨g, x, rfl⟩
    · exact Nat.zero_le _
    · rw [List.concat_eq_append] at hc ⊢
      obtain ⟨hg, hx⟩ := clocked_snoc.mp hc
      rw [after_snoc]
      exact (sound_call (sound_after hg hx) (le_refl _)).bounded
  · intro before x rest hsplit
    have hbx : Clocked (before ++ [x]) := by
      rw [hsplit, ← List.singleton_append, ← List.append_assoc] at hc
      exact (clocked_append.mp hc).1
    obtain ⟨hb, hx⟩ := clocked_snoc.mp hbx
    rw [after_snoc]
    refine ⟨live_call (sound_after hb hx) (le_refl _), wouldHold_sublist hbx, fun hne => ?_⟩
    by_contra hle
    exact hne (by rw [evicted, Nat.sub_eq_zero_of_le (by omega)]; rfl)
  · intro now hn u commandId
    have hs := hall now hn
    constructor
    · intro out hout
      obtain ⟨e, he, hlive, hu, rfl⟩ := (find_eq_some hs).mp hout
      have hid := hs.keyed _ _ he
      exact ⟨e.recording, (mem_live_after hc hn).mp (mem_live.mpr ⟨commandId, e, he, rfl, hlive⟩), hu, hid, hid.symm,
        rfl, rfl, rfl⟩
    · rintro r hr rfl rfl
      obtain ⟨id, e, he, rfl, hlive⟩ := mem_live.mp ((mem_live_after hc hn).mpr hr)
      rw [← hs.keyed id e he] at he
      exact ⟨e.status, e.updatedAt, (find_eq_some hs).mpr ⟨e, he, hlive, rfl, rfl⟩⟩

end OutcomeCache

/-! ## The registry's cache -/

/-- The cache came out of calls only. -/
def Called (D : Deps) (o : OutcomeCache) : Prop := ∃ h, o = OutcomeCache.after D h

theorem Called.call {o : OutcomeCache} (h : Called D o) (x : Nat × OutcomeCall) :
    Called D (OutcomeCache.call D o x) := by
  obtain ⟨g, rfl⟩ := h
  exact ⟨g ++ [x], (OutcomeCache.after_snoc g x).symm⟩

theorem called_settle_all {now : Nat} (l : List PendingCommand) {o : OutcomeCache} (h : Called D o) :
    Called D (l.foldl (fun o p => OutcomeCache.settleOutcome o now p.commandId .resultUnknown) o) := by
  induction l generalizing o with
  | nil => exact h
  | cons p l ih => exact ih (h.call (now, .settleOutcome p.commandId .resultUnknown))

/-- In every reachable state the registry's outcomes come out of a history of calls. -/
theorem registry_outcomes (es : List Event) : Called D (run D es).commandOutcomes := by
  refine run_inv (P := fun s => Called D s.commandOutcomes) ⟨[], rfl⟩ (fun op s t m hs => ?_) es
  cases m with
  | prune => exact hs.call (s.nowMs, .outcomeFor ⟨[], List.not_mem_nil⟩ [])
  | track q r c hq ht =>
    have h := hs.call (s.nowMs, .recordOutcome q.user q.commandId q.requestId r.registration.instanceId q.kind)
    cases hk : q.kind <;> rw [hk] at h <;> exact h
  | finish k c commandId p status hp ho ha =>
    have h := hs.call (s.nowMs, .settleOutcome p.commandId status)
    cases k <;> exact h
  | add c socket ha ho =>
    simp only [add, ha, Bool.false_eq_true, if_false]
    exact hs
  | disconnect c hc =>
    exact disconnect_inv (P := fun s => Called D s.commandOutcomes)
      (fun s d _ h => called_settle_all (lostCommands s d) h)
      (fun _ _ _ _ _ h => h) (fun _ _ h => h) (fun _ _ _ _ _ _ h => h) (fun _ _ h => h) (fun _ _ _ h => h) s c hs
  | _ => exact hs

/-! ## On concrete input -/

/-- Three commands under a bound of two: the first is evicted, the second settled. -/
def threeCommands : List (Nat × OutcomeCall) :=
  [(0, .recordOutcome alice (js "a") (js "r1") instance1 .question),
   (1, .recordOutcome alice (js "b") (js "r2") instance1 .question),
   (2, .settleOutcome (js "b") .confirmed),
   (2, .recordOutcome alice (js "c") (js "r3") instance1 .permission)]

def twoOutcomes : Deps := { sampleDeps with maxCommandOutcomes := 2 }

theorem first_of_three_evicted :
    (OutcomeCache.after twoOutcomes threeCommands).size ≤ 2 ∧
    OutcomeCache.find (OutcomeCache.after twoOutcomes threeCommands) 3 alice (js "a") = none ∧
    ∃ status updatedAt, OutcomeCache.find (OutcomeCache.after twoOutcomes threeCommands) 3 alice (js "b") =
      some ⟨js "b", js "r2", instance1, .question, status, updatedAt⟩ :=
  have h := OutcomeCache.outcomes_are_kept (D := twoOutcomes) threeCommands (by decide)
  ⟨h.1, by decide +kernel, (h.2.2 3 (by decide) alice (js "b")).2
    ⟨alice, js "b", js "r2", instance1, .question, 1 + twoOutcomes.outcomeTtlMs⟩
    ⟨by decide, [(0, .recordOutcome alice (js "a") (js "r1") instance1 .question)], _, _, rfl, by decide +kernel,
      by decide +kernel⟩ rfl rfl⟩

end NotifyHub.Control
