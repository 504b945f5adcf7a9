/-
  NotifyHub.Control.StaleRequests — how long a record remembers a request that stopped
  being pending.

  An accepted snapshot takes out of the projection what it does not list, a confirmed
  result its own request, and each of these ids goes into `staleRequests`, which drops its
  oldest entry above MAX_STALE_REQUEST_IDS. The map is a function of the ids that stopped,
  in order (`stale_eq`).

  - `recent_stops_remembered`: an id that was not in the map when it last stopped is in it
    until MAX_STALE_REQUEST_IDS other ids have stopped; the map never holds more.
  - `second_stop_forgotten`: an id that is still in the map when it stops again keeps its
    old place there, and is dropped as if it had not stopped again.
-/

import Mathlib.Data.List.Dedup
import Mathlib.Data.List.TakeWhile
import NotifyHub.Control.Outcomes
import NotifyHub.Control.Requests

namespace NotifyHub.Control

variable {D : Deps} {r : InstanceRecord} {id : JsString}

/-- What is written to the requests of a record. -/
inductive Rewrite where
  | snapshot (now : Nat) (interactions : List PendingInteraction)
  | confirmed (now : Nat) (requestId : JsString)

def InstanceRecord.rewrite (r : InstanceRecord) : Rewrite → InstanceRecord
  | .snapshot now interactions => applyProjection now interactions r
  | .confirmed now requestId => confirmRequest now requestId r

/-- Nothing else is written to the requests of the record on a connection. -/
theorem requests_rewritten {s : Registry} (hs : Seats s) (e : Event) {c : ConnId} {instanceId : JsString}
    {r' : InstanceRecord}
    (hi : (s.conns c).instanceId = some instanceId) (hr' : recordOn (step D s e) c = some r') :
    ∃ r, recordOn s c = some r ∧ (r'.requests = r.requests ∨ ∃ x, r' = r.rewrite x) := by
  obtain ⟨r, hr, hcase⟩ := requests_step hs e hi hr'
  refine ⟨r, hr, ?_⟩
  rcases hcase with hsame | ⟨requestId, instanceId, l, -, -, he⟩ | ⟨k, commandId, instanceId, p, -, -, he⟩
  · exact Or.inl hsame
  · exact Or.inr ⟨.snapshot e.now l, he⟩
  · exact Or.inr ⟨.confirmed e.now p.requestId, he⟩

/-- The ids that stop being pending, in the order the code takes them out. -/
def InstanceRecord.stops (r : InstanceRecord) : Rewrite → List (Nat × JsString)
  | .snapshot now interactions =>
    (r.projectedRequests.keys.filter fun id => !(incoming interactions).has id).map (now, ·)
  | .confirmed now requestId => [(now, requestId)]

/-- The ids that stop over a history, oldest first. -/
def InstanceRecord.stopped (r : InstanceRecord) : List Rewrite → List (Nat × JsString)
  | [] => []
  | x :: xs => r.stops x ++ (r.rewrite x).stopped xs

def remember (stale : OMap JsString Nat) (stop : Nat × JsString) : OMap JsString Nat :=
  rememberStale stop.1 stale stop.2

theorem stale_rewrite (r : InstanceRecord) (x : Rewrite) :
    (r.rewrite x).staleRequests = (r.stops x).foldl remember r.staleRequests := by
  cases x with
  | snapshot now interactions =>
    show List.foldl (rememberStale now) r.staleRequests _ = _
    rw [InstanceRecord.stops, List.foldl_map]
    rfl
  | confirmed now requestId => rfl

theorem stale_eq (xs : List Rewrite) (r : InstanceRecord) :
    (xs.foldl InstanceRecord.rewrite r).staleRequests = (r.stopped xs).foldl remember r.staleRequests := by
  induction xs generalizing r with
  | nil => rfl
  | cons x xs ih =>
    rw [List.foldl_cons, ih, InstanceRecord.stopped, List.foldl_append, stale_rewrite]

theorem size_remember (stale : OMap JsString Nat) (stop : Nat × JsString) :
    (remember stale stop).size ≤ MAX_STALE_REQUEST_IDS := by
  rw [remember, rememberStale, OMap.size_evict]
  exact Nat.min_le_right ..

theorem size_remembered {stale : OMap JsString Nat} (h : stale.size ≤ MAX_STALE_REQUEST_IDS)
    (stops : List (Nat × JsString)) :
    (stops.foldl remember stale).size ≤ MAX_STALE_REQUEST_IDS := by
  induction stops generalizing stale with
  | nil => exact h
  | cons stop stops ih =>
    rw [List.foldl_cons]
    exact ih (size_remember stale stop)

/-- From a stop that finds the id absent, it is in the map until enough others have stopped. -/
theorem remembered_since {stale : OMap JsString Nat} (habsent : stale.has id = false) (now : Nat)
    {after : List (Nat × JsString)}
    (hfew : (after.map Prod.snd).dedup.length < MAX_STALE_REQUEST_IDS) :
    Remembered id (after.map Prod.snd).dedup (((now, id) :: after).foldl remember stale) := by
  have hbehind : behind id stale = [] := by
    unfold behind
    have hall : stale.keys.dropWhile (· ≠ id) = [] := by
      rw [List.dropWhile_eq_nil_iff]
      intro x hx
      refine decide_eq_true fun he => ?_
      rw [OMap.has_eq_true.mpr (he ▸ hx)] at habsent
      cases habsent
    rw [hall]
    rfl
  have hself : Remembered id (after.map Prod.snd).dedup (rememberStale now stale id) :=
    remembered_self (by rw [hbehind]; nofun) hfew now
  have hrest : ∀ (l : List (Nat × JsString)) {m : OMap JsString Nat}, Remembered id (after.map Prod.snd).dedup m →
      (∀ stop ∈ l, stop ∈ after) → Remembered id (after.map Prod.snd).dedup (l.foldl remember m) := by
    intro l
    induction l with
    | nil => exact fun h _ => h
    | cons stop l ih =>
      intro m hm hl
      have hmem : stop.2 ∈ (after.map Prod.snd).dedup :=
        List.mem_dedup.mpr (List.mem_map_of_mem (hl stop List.mem_cons_self))
      rw [List.foldl_cons]
      have hnext := remembered_other hm hfew (Or.inr hmem) stop.1
      exact ih hnext fun x hx => hl x (List.mem_cons_of_mem _ hx)
  rw [List.foldl_cons]
  exact hrest after hself fun _ h => h

theorem Remembered.has {later : List JsString} {stale : OMap JsString Nat} (h : Remembered id later stale) :
    stale.has id = true := by
  obtain ⟨before, after, hkeys, -⟩ := h
  rw [OMap.has_eq_true, hkeys]
  exact List.mem_append_right _ List.mem_cons_self

/-- A request that is not shown and remembered is refused as a conflict. -/
theorem target_conflict {s : Registry} {k : CommandKind} {u : UserId} {instanceId commandId sessionID : JsString}
    {c : ConnId}
    (hr : (s.records.get (recordKey u instanceId)).filter (fun r => r.userId = u) = some r)
    (hc : reachable s r = some c)
    (hhidden : r.projectedRequests.get id = none) (hstale : r.staleRequests.has id = true) :
    commandTarget s k u instanceId id commandId sessionID = .error .conflict := by
  unfold commandTarget
  simp only [hr, hc, hhidden, hstale, if_true]

theorem recent_stops_remembered (r : InstanceRecord) (hsize : r.staleRequests.size ≤ MAX_STALE_REQUEST_IDS)
    (xs : List Rewrite) :
    (xs.foldl InstanceRecord.rewrite r).staleRequests.size ≤ MAX_STALE_REQUEST_IDS ∧
    ∀ id before now after, r.stopped xs = before ++ (now, id) :: after → id ∉ after.map Prod.snd →
      (before.foldl remember r.staleRequests).has id = false →
      (xs.foldl InstanceRecord.rewrite r).projectedRequests.get id = none →
      (after.map Prod.snd).dedup.length < MAX_STALE_REQUEST_IDS →
      (xs.foldl InstanceRecord.rewrite r).staleRequests.has id = true ∧
      ∀ s k u instanceId commandId sessionID c,
        (s.records.get (recordKey u instanceId)).filter (fun r => r.userId = u) =
          some (xs.foldl InstanceRecord.rewrite r) →
        reachable s (xs.foldl InstanceRecord.rewrite r) = some c →
        commandTarget s k u instanceId id commandId sessionID = .error .conflict := by
  refine ⟨?_, fun id before now after hsplit _ habsent hhidden hfew => ?_⟩
  · rw [stale_eq]
    exact size_remembered hsize _
  · have hstale : (xs.foldl InstanceRecord.rewrite r).staleRequests.has id = true := by
      rw [stale_eq, hsplit, List.foldl_append]
      exact (remembered_since habsent now hfew).has
    exact ⟨hstale, fun s k u instanceId commandId sessionID c hr hc => target_conflict hr hc hhidden hstale⟩

/-! ## An id that stops twice -/

/-- New ids go to the end, as long as there is room. -/
theorem keys_remember_new {stops : List (Nat × JsString)} : ∀ {stale : OMap JsString Nat},
    (stale.keys ++ stops.map Prod.snd).Nodup → stale.keys.length + stops.length ≤ MAX_STALE_REQUEST_IDS →
    (stops.foldl remember stale).keys = stale.keys ++ stops.map Prod.snd := by
  induction stops with
  | nil => intro stale _ _; rw [List.map_nil, List.append_nil, List.foldl_nil]
  | cons stop stops ih =>
    intro stale hnodup hroom
    rw [List.length_cons] at hroom
    have hnew : stop.2 ∉ stale.keys := fun hmem =>
      (List.nodup_append.mp hnodup).2.2 _ hmem _ (List.mem_map_of_mem List.mem_cons_self) rfl
    have hkeys : (remember stale stop).keys = stale.keys ++ [stop.2] := by
      rw [remember, rememberStale, keys_evict, OMap.keys_set_of_not_mem _ hnew, List.length_append,
        List.length_singleton,
        show stale.keys.length + 1 - MAX_STALE_REQUEST_IDS = 0 by omega, List.drop_zero]
    rw [List.foldl_cons, ih, hkeys, List.append_assoc]
    · rfl
    · rw [hkeys, List.append_assoc]
      exact hnodup
    · rw [hkeys, List.length_append, List.length_singleton]
      omega

/-- In a full map the oldest id keeps its place when it stops again, and is the next to go. -/
theorem forgotten_of_full {stale : OMap JsString Nat} {rest : List JsString} {q : JsString}
    (hkeys : stale.keys = id :: rest)
    (hfull : rest.length + 1 = MAX_STALE_REQUEST_IDS) (hq : q ∉ stale.keys) (now now' : Nat) :
    (remember (remember stale (now, id)) (now', q)).has id = false := by
  have hmem : id ∈ stale.keys := by rw [hkeys]; exact List.mem_cons_self
  have hagain : (remember stale (now, id)).keys = stale.keys := by
    rw [remember, rememberStale, keys_evict, OMap.keys_set_of_mem _ hmem, hkeys, List.length_cons, hfull, Nat.sub_self,
      List.drop_zero]
  have hlast : (remember (remember stale (now, id)) (now', q)).keys = rest ++ [q] := by
    rw [remember, rememberStale, keys_evict, OMap.keys_set_of_not_mem _ (by rw [hagain]; exact hq), hagain, hkeys,
      List.length_append, List.length_cons, List.length_singleton,
      show rest.length + 1 + 1 - MAX_STALE_REQUEST_IDS = 1 by omega]
    rfl
  have hnodup : (id :: rest).Nodup := hkeys ▸ nodup_keys stale
  rw [← Bool.not_eq_true, OMap.has_eq_true, hlast]
  intro hin
  rcases List.mem_append.mp hin with hin | hin
  · exact (List.nodup_cons.mp hnodup).1 hin
  · rw [List.mem_singleton.mp hin] at hmem
    exact hq hmem

/-- A request id of its own for each of the first numbers. -/
def manyIds (n : Nat) : JsString := [UInt16.ofNat (0x4E00 + n)]

theorem manyIds_inj {n m : Nat} (hn : n < 1000) (hm : m < 1000) (h : manyIds n = manyIds m) : n = m := by
  have hval := congrArg UInt16.toNat (List.cons.inj h).1
  rw [UInt16.toNat_ofNat', UInt16.toNat_ofNat', Nat.mod_eq_of_lt (by omega), Nat.mod_eq_of_lt (by omega)] at hval
  omega

theorem nodup_manyIds {l : List Nat} (hl : l.Nodup) (hsmall : ∀ n ∈ l, n < 1000) : (l.map manyIds).Nodup :=
  hl.map_on fun n hn m hm h => manyIds_inj (hsmall n hn) (hsmall m hm) h

/-- A snapshot with the requests of some numbers. -/
def listing (ids : List Nat) : Rewrite := .snapshot 0 (ids.map fun n => sampleQuestion (manyIds n) (js "ses_1"))

/-- The requests of some numbers come, and go. -/
def comeAndGo (ids : List Nat) : List Rewrite := [listing ids, listing []]

theorem keys_incoming {l : List PendingInteraction} (h : (l.map (·.requestId)).Nodup) :
    (incoming l).keys = l.map (·.requestId) := by
  have hfold : ∀ (l : List PendingInteraction) (m : OMap JsString Projected), (m.keys ++ l.map (·.requestId)).Nodup →
      (l.foldl (fun m i => m.set i.requestId ⟨i.kind, i.sessionId⟩) m).keys = m.keys ++ l.map (·.requestId) := by
    intro l
    induction l with
    | nil => intro m _; rw [List.map_nil, List.append_nil, List.foldl_nil]
    | cons i l ih =>
      intro m hm
      have hnew : i.requestId ∉ m.keys := fun hmem => (List.nodup_append.mp hm).2.2 _ hmem _ List.mem_cons_self rfl
      have hset := OMap.keys_set_of_not_mem ⟨i.kind, i.sessionId⟩ hnew
      rw [List.foldl_cons, ih, hset, List.append_assoc]
      · rfl
      · rw [hset, List.append_assoc]
        exact hm
  exact hfold l .empty h

theorem stopped_comeAndGo (hr : r.projectedRequests = .empty) {n : List Nat} (hids : (n.map manyIds).Nodup)
    (xs : List Rewrite) : ∃ r', r'.projectedRequests = .empty ∧
      r.stopped (comeAndGo n ++ xs) = (n.map fun m => (0, manyIds m)) ++ r'.stopped xs ∧
      (comeAndGo n ++ xs).foldl InstanceRecord.rewrite r = xs.foldl InstanceRecord.rewrite r' := by
  have hlist : n.map manyIds = (n.map fun m => sampleQuestion (manyIds m) (js "ses_1")).map (·.requestId) := by
    rw [List.map_map]; rfl
  have hcome : r.stops (listing n) = [] := by
    rw [listing, InstanceRecord.stops, hr]; rfl
  have hshown : (r.rewrite (listing n)).projectedRequests.keys = n.map manyIds :=
    (keys_incoming (hlist ▸ hids)).trans hlist.symm
  have hgo : (r.rewrite (listing n)).stops (listing []) = n.map fun m => (0, manyIds m) := by
    show ((r.rewrite (listing n)).projectedRequests.keys.filter fun _ => true).map _ = _
    rw [List.filter_true, hshown, List.map_map]; rfl
  refine ⟨(r.rewrite (listing n)).rewrite (listing []), rfl, ?_, rfl⟩
  show r.stops (listing n) ++ ((r.rewrite (listing n)).stops (listing []) ++ _) = _
  rw [hcome, hgo, List.nil_append]
  rfl

def freshRecord : InstanceRecord :=
  ⟨sampleRegistration instance1, alice, 0, .controllable, 0, some (plugin 0), .empty, .empty⟩

/-- The requests after the first. -/
def following (n : Nat) : List Nat := (List.range n).map (· + 1)

theorem nodup_following {n : Nat} (hn : n < 999) : (manyIds 0 :: (following n).map manyIds).Nodup := by
  refine nodup_manyIds (l := 0 :: following n) (List.nodup_cons.mpr ⟨fun hmem => ?_, ?_⟩) fun m hm => ?_
  · obtain ⟨m, -, hm⟩ := List.mem_map.mp hmem
    omega
  · exact List.nodup_range.map fun _ _ => Nat.succ.inj
  · rcases List.mem_cons.mp hm with rfl | hm
    · omega
    · obtain ⟨k, hk, rfl⟩ := List.mem_map.mp hm
      have := List.mem_range.mp hk
      omega

theorem following_succ (n : Nat) : following (n + 1) = following n ++ [n + 1] := by
  rw [following, List.range_succ, List.map_append]
  rfl

theorem next_not_mem {n : Nat} (hn : n < 998) : manyIds (n + 1) ∉ manyIds 0 :: (following n).map manyIds := by
  have hnodup := nodup_following (n := n + 1) (by omega)
  rw [following_succ, List.map_append, List.map_cons, List.map_nil, ← List.cons_append] at hnodup
  exact fun hmem => (List.nodup_append.mp hnodup).2.2 _ hmem _ List.mem_cons_self rfl

/-- What the first request and those after it leave in the map, as long as there is room. -/
theorem keys_following {n : Nat} (hn : n < MAX_STALE_REQUEST_IDS) :
    (((0, manyIds 0) :: (following n).map fun m => (0, manyIds m)).foldl remember .empty).keys =
      manyIds 0 :: (following n).map manyIds := by
  have hsmall : n < 999 := Nat.lt_trans hn (by decide)
  rw [keys_remember_new]
  · rw [OMap.keys_empty, List.nil_append, List.map_cons, List.map_map]; rfl
  · rw [OMap.keys_empty, List.nil_append, List.map_cons, List.map_map]; exact nodup_following hsmall
  · simp only [OMap.keys_empty, List.length_nil, List.length_cons, List.length_map, following, List.length_range]
    omega

/-- The first request comes and goes, and 256 others do: it is forgotten. It does again, and then three others
    do, one of them for the third time. -/
def stoppingAgain : List Rewrite :=
  comeAndGo [0] ++ (comeAndGo (following 256) ++ (comeAndGo [0] ++ (comeAndGo [2, 300] ++ (comeAndGo [301, 2] ++ []))))

theorem stoppingAgain_remembered :
    (stoppingAgain.foldl InstanceRecord.rewrite freshRecord).staleRequests.size ≤ MAX_STALE_REQUEST_IDS ∧
    (stoppingAgain.foldl InstanceRecord.rewrite freshRecord).staleRequests.has (manyIds 0) = true := by
  have hmany : ((following 256).map manyIds).Nodup := (List.nodup_cons.mp (nodup_following (by omega))).2
  obtain ⟨r₁, h₁, hs₁, hf₁⟩ := stopped_comeAndGo (r := freshRecord) rfl (n := [0]) (List.nodup_singleton _)
    (comeAndGo (following 256) ++ (comeAndGo [0] ++ (comeAndGo [2, 300] ++ (comeAndGo [301, 2] ++ []))))
  obtain ⟨r₂, h₂, hs₂, hf₂⟩ := stopped_comeAndGo h₁ hmany
    (comeAndGo [0] ++ (comeAndGo [2, 300] ++ (comeAndGo [301, 2] ++ [])))
  obtain ⟨r₃, h₃, hs₃, hf₃⟩ := stopped_comeAndGo h₂ (n := [0]) (List.nodup_singleton _)
    (comeAndGo [2, 300] ++ (comeAndGo [301, 2] ++ []))
  obtain ⟨r₄, h₄, hs₄, hf₄⟩ := stopped_comeAndGo h₃ (n := [2, 300]) (by decide) (comeAndGo [301, 2] ++ [])
  obtain ⟨r₅, h₅, hs₅, hf₅⟩ := stopped_comeAndGo h₄ (n := [301, 2]) (by decide) []
  have hstops : freshRecord.stopped stoppingAgain = ((0, manyIds 0) :: (following 256).map fun n => (0, manyIds n)) ++
      (0, manyIds 0) :: [(0, manyIds 2), (0, manyIds 300), (0, manyIds 301), (0, manyIds 2)] := by
    rw [stoppingAgain, hs₁, hs₂, hs₃, hs₄, hs₅]
    rfl
  -- the last of the 256 takes the place of the first request
  have habsent : (((0, manyIds 0) :: (following 256).map fun n => (0, manyIds n)).foldl remember
      freshRecord.staleRequests).has (manyIds 0) = false := by
    have hfull := keys_following (n := 255) (by decide)
    have hnodup := nodup_following (n := 256) (by omega)
    rw [following_succ, List.map_append, List.map_cons, List.map_nil] at hnodup
    rw [following_succ, List.map_append, ← List.cons_append, List.foldl_append,
      show freshRecord.staleRequests = .empty from rfl]
    generalize List.foldl remember OMap.empty _ = full at hfull
    have hnew : manyIds 256 ∉ full.keys := by
      rw [hfull]
      exact next_not_mem (by omega)
    have hevicted : (remember full (0, manyIds 256)).keys = (following 255).map manyIds ++ [manyIds 256] := by
      rw [remember, rememberStale, keys_evict, OMap.keys_set_of_not_mem _ hnew, hfull]
      simp only [List.length_append, List.length_cons, List.length_map, following, List.length_range,
        MAX_STALE_REQUEST_IDS]
      rfl
    rw [← Bool.not_eq_true, OMap.has_eq_true]
    show manyIds 0 ∉ (remember full (0, manyIds 256)).keys
    rw [hevicted]
    exact (List.nodup_cons.mp hnodup).1
  have hhidden : (stoppingAgain.foldl InstanceRecord.rewrite freshRecord).projectedRequests.get (manyIds 0) = none := by
    rw [stoppingAgain, hf₁, hf₂, hf₃, hf₄, hf₅, List.foldl_nil, h₅]
    rfl
  obtain ⟨hsize, hremembered⟩ := recent_stops_remembered freshRecord (by decide) stoppingAgain
  exact ⟨hsize, (hremembered (manyIds 0) _ 0 _ hstops (by decide) habsent hhidden (by decide)).1⟩

/-- The first request comes and goes, 255 others do, it does again, and one more does. -/
def comingAndGoing : List Rewrite :=
  comeAndGo [0] ++ (comeAndGo (following 255) ++ (comeAndGo [0] ++ (comeAndGo [256] ++ [])))

/-- Since it stopped only one other request has, and it is forgotten. -/
theorem second_stop_forgotten :
    (∃ before, freshRecord.stopped comingAndGoing = before ++ (0, manyIds 0) :: [(0, manyIds 256)]) ∧
    manyIds 0 ∉ [manyIds 256] ∧ [manyIds 256].dedup.length < MAX_STALE_REQUEST_IDS ∧
    (comingAndGoing.foldl InstanceRecord.rewrite freshRecord).projectedRequests.get (manyIds 0) = none ∧
    (comingAndGoing.foldl InstanceRecord.rewrite freshRecord).staleRequests.has (manyIds 0) = false := by
  have hmany : ((following 255).map manyIds).Nodup := (List.nodup_cons.mp (nodup_following (by omega))).2
  obtain ⟨r₁, h₁, hs₁, hf₁⟩ := stopped_comeAndGo (r := freshRecord) rfl (n := [0]) (List.nodup_singleton _)
    (comeAndGo (following 255) ++ (comeAndGo [0] ++ (comeAndGo [256] ++ [])))
  obtain ⟨r₂, h₂, hs₂, hf₂⟩ := stopped_comeAndGo h₁ hmany (comeAndGo [0] ++ (comeAndGo [256] ++ []))
  obtain ⟨r₃, h₃, hs₃, hf₃⟩ := stopped_comeAndGo h₂ (n := [0]) (List.nodup_singleton _) (comeAndGo [256] ++ [])
  obtain ⟨r₄, h₄, hs₄, hf₄⟩ := stopped_comeAndGo h₃ (n := [256]) (List.nodup_singleton _) []
  have hstops : freshRecord.stopped comingAndGoing = ((0, manyIds 0) :: (following 255).map fun n => (0, manyIds n)) ++
      [(0, manyIds 0), (0, manyIds 256)] := by
    rw [comingAndGoing, hs₁, hs₂, hs₃, hs₄]
    rfl
  have hfull := keys_following (n := 255) (by decide)
  refine ⟨⟨_, hstops⟩, by decide, by decide, ?_, ?_⟩
  · rw [comingAndGoing, hf₁, hf₂, hf₃, hf₄, List.foldl_nil, h₄]
    rfl
  · rw [stale_eq, hstops, List.foldl_append, show freshRecord.staleRequests = .empty from rfl]
    generalize List.foldl remember OMap.empty _ = full at hfull
    refine forgotten_of_full hfull (by simp [following, MAX_STALE_REQUEST_IDS]) ?_ 0 0
    rw [hfull]
    exact next_not_mem (by omega)

end NotifyHub.Control
