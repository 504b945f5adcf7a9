/-
  NotifyHub.Link.Collected — what takes a request out of a projection.

  A request leaves the projection of a record that stays on its connection when a
  confirmed result for it is taken, or when a snapshot response is accepted that does not
  list it (`requests_leave`). A response carries the result of the collection its request
  was coalesced onto: the adapter's reading of both lists if both were read in time, and
  nothing if the collection failed. So a failed collection, once a response of it is
  accepted, empties the projection (`failed_collection_resolves` is such a run); before
  that it changes nothing.
-/

import NotifyHub.Link.Confirmed

namespace NotifyHub.Link

open Control

variable (S : Setup)

/-- The registry accepts a response that carries the result of a collection. -/
def Takes (l : Link) (e : Event) (c : ConnId) (op : Plugin.Operation) (is : List PendingInteraction) : Prop :=
  ∃ now f rest requestId instanceId n, e = .deliver now c ∧ l.up c = f :: rest ∧
    read S f = some (.pendingSnapshotResponse requestId instanceId is) ∧ Accepts l.gateway c requestId instanceId ∧
    f.collection = some n ∧ l.channel.operations[n]? = some op

variable {S}

/-- A response the registry accepts carries its collection's result, and replaces the projection. -/
theorem takes_applies {es : List Event} {e : Event} {c : ConnId} {op : Plugin.Operation} {is : List PendingInteraction}
    (h : Takes S (run S es) e c op is) : op.Outcome S.options is ∧
      ∃ now, recordOn (step S (run S es) e).gateway c = (recordOn (run S es).gateway c).map
        (applyProjection now is) := by
  obtain ⟨now, f, rest, requestId, instanceId, n, rfl, hup, hread, hacc, hn, hop⟩ := h
  constructor
  · obtain ⟨m, op', hm, hop', hres⟩ := (traced_run es).taken c f (by rw [hup]; exact List.mem_cons_self) _ _ _
      (read_eq_some hread)
    obtain rfl : n = m := Option.some.inj (hn.symm.trans hm)
    obtain rfl : op = op' := Option.some.inj (hop.symm.trans hop')
    exact (accounted_run es op (List.mem_of_getElem? hop)).outcome is hres
  · refine ⟨now, ?_⟩
    have hg : gatewayEvent S (run S es) (.deliver now c) =
        some ⟨now, .frame c (some (.pendingSnapshotResponse requestId instanceId is))⟩ := by
      rw [gatewayEvent, hup, List.head?_cons, Option.map_some, hread]
    rw [step_gateway, hg]
    exact (recordOn_snapshot (seats_run es) now c requestId instanceId is).trans (if_pos hacc)

/-- What a step does to the requests of the record on a socket of the channel. -/
theorem requests_link (es : List Event) (e : Event) {c : ConnId} (hc : c ∈ (run S es).dialed) {r' : InstanceRecord}
    {instanceId : JsString} (hi : ((run S es).gateway.conns c).instanceId = some instanceId)
    (hr' : recordOn (step S (run S es) e).gateway c = some r') :
    ∃ r, recordOn (run S es).gateway c = some r ∧
      (r'.requests = r.requests ∨
        (∃ op is now, Takes S (run S es) e c op is ∧ r' = applyProjection now is r) ∨
        ∃ id now, Confirms S (run S es) e c id ∧ r' = confirmRequest now id r) := by
  rw [step_gateway] at hr'
  cases hg : gatewayEvent S (run S es) e with
  | none => rw [hg] at hr'; exact ⟨r', hr', Or.inl rfl⟩
  | some e' =>
    rw [hg] at hr'
    obtain ⟨r, hr, hcase⟩ := requests_step (seats_run es) e' hi hr'
    refine ⟨r, hr, ?_⟩
    rcases hcase with hsame | ⟨requestId, instance', is, hop, hacc, rfl⟩ | ⟨k, commandId, instance', p, hop, hp, rfl⟩
    · exact Or.inl hsame
    · obtain ⟨f, rest, hev, hup, hread⟩ := gatewayEvent_frame hc hg hop
      obtain ⟨n, op, hn, hop', -⟩ := (traced_run es).taken c f (by rw [hup]; exact List.mem_cons_self) _ _ _
        (read_eq_some hread.symm)
      exact Or.inr (Or.inl ⟨op, is, _,
        ⟨e'.now, f, rest, requestId, instance', n, hev, hup, hread.symm, hacc, hn, hop'⟩, rfl⟩)
    · obtain ⟨f, rest, hev, hup, hread⟩ := gatewayEvent_frame hc hg hop
      exact Or.inr (Or.inr ⟨p.requestId, _,
        ⟨e'.now, f, rest, k, commandId, instance', p, hev, hup, hread.symm, hp, rfl⟩, rfl⟩)

/-- A failed collection lists nothing. -/
theorem outcome_failed {op : Plugin.Operation} {is : List PendingInteraction} (h : op.Outcome S.options is)
    (hf : op.failed = true) : is = [] := by
  rcases h with ⟨hn, -⟩ | ⟨-, hnil⟩
  · rw [hf] at hn; cases hn
  · exact hnil

/-- An empty snapshot empties the projection, and remembers what it held as far as it can. -/
theorem applyProjection_nil (now : Nat) (r : InstanceRecord) :
    (applyProjection now [] r).projectedRequests = .empty ∧ ∀ id, r.projectedRequests.has id = true →
      (applyProjection now [] r).staleRequests.has id = true ∨
        (applyProjection now [] r).staleRequests.size = MAX_STALE_REQUEST_IDS := by
  refine ⟨rfl, fun id hid => ?_⟩
  have hkeys : r.projectedRequests.keys.filter (fun q => !(incoming []).has q) = r.projectedRequests.keys :=
    List.filter_eq_self.mpr fun _ _ => rfl
  rw [applyProjection, hkeys]
  exact remembered_or_full now (Or.inl (OMap.has_eq_true.mp hid))

/-- A request leaves a projection by a confirmed result for it, or by an accepted response
    that does not list it: the reading of both lists, or nothing of a failed collection,
    which then takes every request out. -/
theorem requests_leave (es : List Event) (e : Event) {c : ConnId} (hc : c ∈ (run S es).dialed) {r r' : InstanceRecord}
    (hr : recordOn (run S es).gateway c = some r) (hr' : recordOn (step S (run S es) e).gateway c = some r') :
    (∀ id, r.projectedRequests.has id = true → r'.projectedRequests.has id = false → Confirms S (run S es) e c id ∨
      ∃ op is, Takes S (run S es) e c op is ∧ op.Outcome S.options is ∧ ∀ i ∈ is, i.requestId ≠ id) ∧
    (∀ op is, Takes S (run S es) e c op is → op.Outcome S.options is ∧ r'.projectedRequests = incoming is ∧
      (op.failed = true → r'.projectedRequests = .empty ∧ ∀ id, r.projectedRequests.has id = true →
        r'.staleRequests.has id = true ∨ r'.staleRequests.size = MAX_STALE_REQUEST_IDS)) ∧
    ((∀ op is, ¬ Takes S (run S es) e c op is) → (∀ id, ¬ Confirms S (run S es) e c id) →
      r'.projectedRequests = r.projectedRequests ∧ r'.staleRequests = r.staleRequests) := by
  obtain ⟨instanceId, hi, -⟩ := recordOn_eq_some.mp hr
  obtain ⟨r₀, hr₀, hcase⟩ := requests_link es e hc hi hr'
  obtain rfl : r₀ = r := Option.some.inj (hr₀.symm.trans hr)
  refine ⟨fun id hid hgone => ?_, fun op is ht => ?_, fun hnot hnone => ?_⟩
  · rcases hcase with hsame | ⟨op, is, now, ht, rfl⟩ | ⟨q, now, hconf, rfl⟩
    · simp only [InstanceRecord.requests, Prod.mk.injEq] at hsame
      rw [hsame.1, hid] at hgone; cases hgone
    · refine Or.inr ⟨op, is, ht, (takes_applies ht).1, fun i hi' he => ?_⟩
      have : (incoming is).has id = true := incoming_has.mpr ⟨i, hi', he⟩
      rw [show (applyProjection now is r₀).projectedRequests = incoming is from rfl, this] at hgone
      cases hgone
    · by_cases hq : id = q
      · exact Or.inl (hq ▸ hconf)
      · rw [show (confirmRequest now q r₀).projectedRequests = r₀.projectedRequests.delete q from rfl, OMap.has,
          OMap.get_delete_ne _ hq] at hgone
        rw [OMap.has, hgone] at hid; cases hid
  · obtain ⟨hout, now, hmap⟩ := takes_applies ht
    rw [hr, hr', Option.map_some] at hmap
    obtain rfl : r' = applyProjection now is r₀ := Option.some.inj hmap
    refine ⟨hout, rfl, fun hf => ?_⟩
    rw [outcome_failed hout hf]
    exact applyProjection_nil now r₀
  · rcases hcase with hsame | ⟨op, is, now, ht, -⟩ | ⟨q, now, hconf, -⟩
    · simp only [InstanceRecord.requests, Prod.mk.injEq] at hsame
      exact hsame
    · exact absurd ht (hnot op is)
    · exact absurd hconf (hnone q)

/-- A second collection that fails: one of its list calls throws. -/
def failing : List Event :=
  [.gateway ⟨4, .collectPendingInteractions alice fun n => draw (n + 10)⟩, .receive (plugin 0),
    listed 1 .question [rawQuestion (js "que_1")], .plugin (.listSettled 1 .permission none (fun _ => none) []),
    .plugin (.answered 0 false)]

/-- The ids the record on the plugin's socket shows, and those it remembers. -/
def requestIds (l : Link) : Option (List JsString × List JsString) :=
  (recordOn l.gateway (plugin 0)).map fun r => (r.projectedRequests.keys, r.staleRequests.keys)

/-- The failed collection takes the question out of the projection, though it was listed and never confirmed. -/
theorem failed_collection_resolves :
    (run sampleSetup (reported ++ failing)).channel.operations[1]?.map (·.failed) = some true ∧
    (run sampleSetup (reported ++ failing)).confirmed = [] ∧
    requestIds (run sampleSetup (reported ++ failing)) = some ([js "que_1"], []) ∧
    requestIds (run sampleSetup (reported ++ failing ++ [.deliver 7 (plugin 0)])) = some ([], [js "que_1"]) ∧
    (again.call sampleDeps (run sampleSetup (reported ++ failing ++ [.deliver 7 (plugin 0)])).gateway).2 =
      .conflict := by
  decide +kernel

/-- The step that takes the response is one the theorem speaks of. -/
theorem failing_leaves : Confirms sampleSetup (run sampleSetup (reported ++ failing)) (.deliver 7 (plugin 0))
    (plugin 0) (js "que_1") ∨
    ∃ op is, Takes sampleSetup (run sampleSetup (reported ++ failing)) (.deliver 7 (plugin 0)) (plugin 0) op is ∧
      op.Outcome sampleSetup.options is ∧ ∀ i ∈ is, i.requestId ≠ js "que_1" := by
  have hb : requestIds (run sampleSetup (reported ++ failing)) = some ([js "que_1"], []) := by decide +kernel
  have ha : requestIds (step sampleSetup (run sampleSetup (reported ++ failing)) (.deliver 7 (plugin 0))) =
      some ([], [js "que_1"]) := by decide +kernel
  obtain ⟨r, hr, hkeys⟩ := Option.map_eq_some_iff.mp hb
  obtain ⟨r', hr', hkeys'⟩ := Option.map_eq_some_iff.mp ha
  refine (requests_leave (S := sampleSetup) (reported ++ failing) (.deliver 7 (plugin 0))
    (by decide +kernel) hr hr').1 _ ?_ ?_
  · rw [OMap.has_eq_true, (Prod.mk.inj hkeys).1]; exact List.mem_singleton_self _
  · rw [← Bool.not_eq_true, OMap.has_eq_true, (Prod.mk.inj hkeys').1]; exact List.not_mem_nil

end NotifyHub.Link
