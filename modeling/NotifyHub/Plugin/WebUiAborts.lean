/-
  NotifyHub.Plugin.WebUiAborts — the abort controllers of the WebUI requests a control
  channel runs (packages/plugin/src/control-channel.ts: `webUiAborts`, `webUiRequest`,
  `closeWebUiTunnel`, `drop`, `stop`).

  `webUiAborts` maps a tunnel to an inner map from request ids to controllers. The inner
  maps are objects: a request keeps the one it was entered in, and its `finally` deletes
  by key from that one, whatever has become of the outer map since. So they are numbered
  here (`maps`), and a controller is named by the number of its request.

  A request settles at any time after it was begun; what it emits is Plugin.WebUiProxy's.

  In every run each request that runs can be aborted, as long as no request frame takes the
  ids of a running request and no settling request takes another's entry away
  (`requests_abortable`); reusing a tunnel's id before its old requests have settled is
  enough for that (`reused_tunnel_unabortable`).
-/

import NotifyHub.Lib.Run
import NotifyHub.Plugin.FrameParsers

namespace NotifyHub.Plugin

open Control

/-- A `webUiRequest` that has called its seam. -/
structure LocalRequest where
  socket : ConnId
  tunnelId : JsString
  requestId : JsString
  /-- The inner map it keeps. -/
  active : Nat
  aborted : Bool
  settled : Bool
  deriving DecidableEq

structure InnerMap where
  /-- Ghost: the tunnel it was made for. -/
  tunnelId : JsString
  controllers : OMap JsString Nat

structure WebUi where
  channel : Channel
  maps : List InnerMap
  webUiAborts : OMap JsString Nat
  requests : List LocalRequest

namespace WebUi

def init : WebUi := ⟨.init, [], .empty, []⟩

/-- The entries of an inner map. -/
def controllers (s : WebUi) (m : Nat) : OMap JsString Nat := (s.maps[m]?.map (·.controllers)).getD .empty

/-- `webUiAborts.get(tunnelId)?.get(requestId)` -/
def controller (s : WebUi) (tunnelId requestId : JsString) : Option Nat :=
  (s.webUiAborts.get tunnelId).bind fun m => (s.controllers m).get requestId

/-- `abort()` of the controllers of the requests `ns`. -/
def abortAll (s : WebUi) (ns : List Nat) : WebUi :=
  { s with requests := s.requests.mapIdx fun n r => if n ∈ ns then { r with aborted := true } else r }

def cancel (s : WebUi) (tunnelId requestId : JsString) : WebUi := s.abortAll (s.controller tunnelId requestId).toList

def closeWebUiTunnel (s : WebUi) (tunnelId : JsString) : WebUi :=
  match s.webUiAborts.get tunnelId with
  | none => s
  | some m => { s with webUiAborts := s.webUiAborts.delete tunnelId }.abortAll (s.controllers m).values

/-- The loop of `stop` and `drop` over the tunnels. -/
def closeAll (s : WebUi) : WebUi := s.webUiAborts.keys.foldl closeWebUiTunnel s

/-- `webUiAborts.get(tunnelId) ?? new Map()`: the inner maps with it, and its number. -/
def innerMap (s : WebUi) (tunnelId : JsString) : List InnerMap × Nat :=
  match s.webUiAborts.get tunnelId with
  | some m => (s.maps, m)
  | none => (s.maps ++ [⟨tunnelId, .empty⟩], s.maps.length)

/-- The request a frame begins. -/
def entry (s : WebUi) (c : ConnId) (request : WebUiHttpRequest) : LocalRequest :=
  ⟨c, request.tunnelId, request.requestId, (s.innerMap request.tunnelId).2, false, false⟩

/-- `webUiRequest` up to its `await`. -/
def begin (s : WebUi) (c : ConnId) (request : WebUiHttpRequest) : WebUi :=
  let (maps, active) := s.innerMap request.tunnelId
  { s with
    maps := maps.modify active fun M => { M with controllers := M.controllers.set request.requestId s.requests.length }
    webUiAborts := s.webUiAborts.set request.tunnelId active
    requests := s.requests ++ [s.entry c request] }

/-- The `finally` of a request. -/
def settle (s : WebUi) (n : Nat) : WebUi :=
  match s.requests[n]? with
  | none => s
  | some r =>
    if r.settled then s
    else
      let active := (s.controllers r.active).delete r.requestId
      { s with
        maps := s.maps.modify r.active fun M => { M with controllers := active }
        webUiAborts := if active.size = 0 then s.webUiAborts.delete r.tunnelId else s.webUiAborts
        requests := s.requests.modify n fun r => { r with settled := true } }

/-! ## The channel's events -/

variable (O : Options) (webUi : Bool)

/-- The events on which the channel drops its socket or stops. -/
def releases (ch : Channel) : Plugin.Event → Bool
  | .stop => true
  | .opened c _ _ thrown => ch.holds c && thrown
  | .closed c _ => ch.socket == some c
  | .error c => ch.socket == some c
  | _ => false

/-- The request a frame begins; without the seam none. -/
def asked (s : WebUi) (c : ConnId) (ms : List (JsString × Json)) : Option WebUiHttpRequest :=
  if webUi && s.channel.holds c && s.channel.registered && isText (member ms "type") (js "webui_http_request") then
    parseWebUiRequest ms
  else none

/-- The two ids of a cancel frame. -/
def cancels (s : WebUi) (c : ConnId) (ms : List (JsString × Json)) : Option (JsString × JsString) :=
  if s.channel.holds c && s.channel.registered && isText (member ms "type") (js "webui_http_cancel") then
    (uuid? (member ms "tunnelId")).bind fun t => (uuid? (member ms "requestId")).map (t, ·)
  else none

/-- The tunnel a frame closes. -/
def closes (s : WebUi) (c : ConnId) (ms : List (JsString × Json)) : Option JsString :=
  if s.channel.holds c && s.channel.registered && isText (member ms "type") (js "webui_tunnel_close") then
    uuid? (member ms "tunnelId")
  else none

/-- The WebUI frames of `onServerFrame`. -/
def onWebUiFrame (s : WebUi) (c : ConnId) (ms : List (JsString × Json)) : WebUi :=
  match asked webUi s c ms with
  | some request => s.begin c request
  | none =>
    match s.cancels c ms with
    | some ids => s.cancel ids.1 ids.2
    | none =>
      match s.closes c ms with
      | some tunnelId => s.closeWebUiTunnel tunnelId
      | none => s

inductive Event where
  /-- An event of the channel itself. -/
  | channel (e : Plugin.Event)
  | connect (c : ConnId)
  /-- A frame the channel answers without a local request. -/
  | server (since : List JsString) (c : ConnId) (m : ServerMessage)
  | webUi (c : ConnId) (ms : List (JsString × Json))
  /-- The seam's promise settles, either way. -/
  | settled (n : Nat)

def step (s : WebUi) : Event → WebUi
  | .channel e =>
    { (if releases s.channel e then s.closeAll else s) with channel := (Plugin.step O s.channel e).1 }
  | .connect c => { s with channel := s.channel.connect c }
  | .server since c m => { s with channel := s.channel.onServerFrame O since c m }
  | .webUi c ms => s.onWebUiFrame webUi c ms
  | .settled n => s.settle n

abbrev run (es : List Event) : WebUi := runFrom (step O webUi) init es

/-! ## The property -/

/-- The request has neither settled nor been aborted. -/
structure Running (s : WebUi) (n : Nat) (r : LocalRequest) : Prop where
  begun : s.requests[n]? = some r
  unsettled : r.settled = false
  unaborted : r.aborted = false

/-- Every running request's controller is where its ids lead. -/
def Abortable (s : WebUi) : Prop := ∀ n r, Running s n r → s.controller r.tunnelId r.requestId = some n

/-! ## The inner maps -/

/-- An inner map belongs to one tunnel, and holds requests that were entered in it. -/
structure Shape (s : WebUi) : Prop where
  stored : ∀ t m, s.webUiAborts.get t = some m → ∃ M, s.maps[m]? = some M ∧ M.tunnelId = t
  kept : ∀ (n : Nat) r, s.requests[n]? = some r → ∃ M, s.maps[r.active]? = some M ∧ M.tunnelId = r.tunnelId
  held : ∀ m id n, (s.controllers m).get id = some n →
    ∃ r, s.requests[n]? = some r ∧ r.active = m ∧ r.requestId = id

theorem controllers_eq {s : WebUi} {m : Nat} {M : InnerMap} (h : s.maps[m]? = some M) :
    s.controllers m = M.controllers := by
  rw [controllers, h]
  rfl

theorem controller_eq_some {s : WebUi} {t id : JsString} {n : Nat} :
    s.controller t id = some n ↔ ∃ m, s.webUiAborts.get t = some m ∧ (s.controllers m).get id = some n :=
  Option.bind_eq_some_iff

/-- Where a running request of an abortable state is entered. -/
theorem Abortable.entered {s : WebUi} (hs : Shape s) (ha : Abortable s) {n : Nat} {r : LocalRequest}
    (h : Running s n r) :
    s.webUiAborts.get r.tunnelId = some r.active ∧ (s.controllers r.active).get r.requestId = some n := by
  obtain ⟨m, hm, hget⟩ := controller_eq_some.mp (ha n r h)
  obtain ⟨r', hr', hactive, -⟩ := hs.held m _ n hget
  cases h.begun.symm.trans hr'
  exact ⟨hactive ▸ hm, hactive ▸ hget⟩

/-! ## Aborting -/

theorem getElem_abortAll (s : WebUi) (ns : List Nat) (n : Nat) :
    (s.abortAll ns).requests[n]? = s.requests[n]?.map fun r => if n ∈ ns then { r with aborted := true } else r :=
  List.getElem?_mapIdx ..

theorem running_abortAll {s : WebUi} {ns : List Nat} {n : Nat} {r : LocalRequest} :
    Running (s.abortAll ns) n r ↔ Running s n r ∧ n ∉ ns := by
  constructor
  · intro h
    have hb := h.begun
    rw [getElem_abortAll] at hb
    obtain ⟨r', hr', hr⟩ := Option.map_eq_some_iff.mp hb
    by_cases hn : n ∈ ns
    · rw [if_pos hn] at hr
      have := h.unaborted
      rw [← hr] at this
      cases this
    · rw [if_neg hn] at hr
      exact ⟨⟨hr ▸ hr', h.unsettled, h.unaborted⟩, hn⟩
  · intro ⟨h, hn⟩
    refine ⟨?_, h.unsettled, h.unaborted⟩
    rw [getElem_abortAll, h.begun, Option.map_some, if_neg hn]

theorem shape_abortAll {s : WebUi} (hs : Shape s) (ns : List Nat) : Shape (s.abortAll ns) := by
  refine ⟨hs.stored, fun n r h => ?_, fun m id n h => ?_⟩
  · rw [getElem_abortAll] at h
    obtain ⟨r', hr', hr⟩ := Option.map_eq_some_iff.mp h
    obtain ⟨M, hM, ht⟩ := hs.kept n r' hr'
    refine ⟨M, ?_, ?_⟩ <;> rw [← hr] <;> split <;> assumption
  · obtain ⟨r, hr, hactive, hid⟩ := hs.held m id n h
    refine ⟨if n ∈ ns then { r with aborted := true } else r, ?_, ?_, ?_⟩
    · rw [getElem_abortAll, hr, Option.map_some]
    · split <;> exact hactive
    · split <;> exact hid

theorem abortable_abortAll {s : WebUi} (ha : Abortable s) (ns : List Nat) : Abortable (s.abortAll ns) :=
  fun n r h => ha n r (running_abortAll.mp h).1

/-! ## Closing tunnels -/

theorem shape_close {s : WebUi} (hs : Shape s) (t : JsString) : Shape (s.closeWebUiTunnel t) := by
  unfold closeWebUiTunnel
  split
  · exact hs
  · have hdel : Shape { s with webUiAborts := s.webUiAborts.delete t } := by
      refine ⟨fun t' m h => hs.stored t' m ?_, hs.kept, hs.held⟩
      by_cases ht : t' = t
      · rw [ht, OMap.get_delete_self] at h
        cases h
      · rwa [OMap.get_delete_ne _ ht] at h
    exact shape_abortAll hdel _

theorem running_close {s : WebUi} {t : JsString} {n : Nat} {r : LocalRequest} (h : Running (s.closeWebUiTunnel t) n r) :
    Running s n r := by
  unfold closeWebUiTunnel at h
  split at h
  · exact h
  · obtain ⟨h, -⟩ := running_abortAll.mp h
    exact ⟨h.begun, h.unsettled, h.unaborted⟩

/-- Closing a tunnel aborts every request that runs on it. -/
theorem close_aborts {s : WebUi} (hs : Shape s) (ha : Abortable s) {t : JsString} {n : Nat} {r : LocalRequest}
    (h : Running (s.closeWebUiTunnel t) n r) : r.tunnelId ≠ t := by
  rintro rfl
  obtain ⟨hstored, hget⟩ := ha.entered hs (running_close h)
  unfold closeWebUiTunnel at h
  rw [hstored] at h
  exact (running_abortAll.mp h).2 (OMap.mem_values.mpr ⟨_, hget⟩)

theorem abortable_close {s : WebUi} (hs : Shape s) (ha : Abortable s) (t : JsString) :
    Abortable (s.closeWebUiTunnel t) := by
  intro n r h
  have hne := close_aborts hs ha h
  have hcontroller := ha n r (running_close h)
  unfold closeWebUiTunnel
  split
  · exact hcontroller
  · rw [controller_eq_some] at hcontroller ⊢
    obtain ⟨m, hm, hget⟩ := hcontroller
    exact ⟨m, (OMap.get_delete_ne _ hne).trans hm, hget⟩

theorem closeEach {ts : List JsString} :
    ∀ {s : WebUi}, Shape s → Abortable s →
      ∀ n r, Running (ts.foldl closeWebUiTunnel s) n r → Running s n r ∧ r.tunnelId ∉ ts := by
  induction ts with
  | nil => exact fun hs ha n r h => ⟨h, List.not_mem_nil⟩
  | cons t ts ih =>
    intro s hs ha n r h
    have hrun := ih (shape_close hs t) (abortable_close hs ha t)
    obtain ⟨hr, hts⟩ := hrun n r h
    exact ⟨running_close hr, fun hm => (List.mem_cons.mp hm).elim (close_aborts hs ha hr) hts⟩

/-- `stop` and `drop` leave no request running. -/
theorem closeAll_aborts {s : WebUi} (hs : Shape s) (ha : Abortable s) (n : Nat) (r : LocalRequest) :
    ¬ Running s.closeAll n r := by
  intro h
  obtain ⟨hr, hkeys⟩ := closeEach hs ha n r h
  exact hkeys (OMap.mem_keys.mpr ⟨_, (ha.entered hs hr).1⟩)

theorem shape_closeAll {s : WebUi} (hs : Shape s) : Shape s.closeAll := by
  unfold closeAll
  generalize s.webUiAborts.keys = ts
  induction ts generalizing s with
  | nil => exact hs
  | cons t ts ih => exact ih (shape_close hs t)

/-! ## Beginning a request -/

theorem innerMap_old {s : WebUi} {t : JsString} {m : Nat} {M : InnerMap} (h : s.maps[m]? = some M) :
    (s.innerMap t).1[m]? = some M := by
  unfold innerMap
  split
  · exact h
  · obtain ⟨hm, -⟩ := List.getElem?_eq_some_iff.mp h
    rw [List.getElem?_append_left hm, h]

/-- The tunnel's inner map, with what it holds. -/
theorem innerMap_active {s : WebUi} (hs : Shape s) (t : JsString) :
    ∃ M, (s.innerMap t).1[(s.innerMap t).2]? = some M ∧ M.tunnelId = t ∧
      ∀ id, M.controllers.get id = s.controller t id := by
  unfold innerMap
  cases hm : s.webUiAborts.get t with
  | some m =>
    obtain ⟨M, hM, ht⟩ := hs.stored t m hm
    refine ⟨M, hM, ht, fun id => ?_⟩
    rw [controller, hm, Option.bind_some, controllers_eq hM]
  | none =>
    refine ⟨⟨t, .empty⟩, ?_, rfl, fun id => ?_⟩
    · dsimp only
      rw [List.getElem?_append_right (Nat.le_refl _), Nat.sub_self]
      rfl
    · rw [controller, hm]
      rfl

/-- A new inner map is empty. -/
theorem innerMap_new {s : WebUi} {t : JsString} {m : Nat} {M : InnerMap} (h : (s.innerMap t).1[m]? = some M) :
    s.maps[m]? = some M ∨ M.controllers = .empty := by
  unfold innerMap at h
  split at h
  · exact Or.inl h
  · rcases List.mem_append.mp (List.mem_of_getElem? h) with hM | hM
    · by_cases hm : m < s.maps.length
      · rw [List.getElem?_append_left hm] at h
        exact Or.inl h
      · rw [List.getElem?_append_right (by omega)] at h
        have := List.mem_of_getElem? h
        rw [List.mem_singleton.mp this]
        exact Or.inr rfl
    · rw [List.mem_singleton.mp hM]
      exact Or.inr rfl

section

variable {s : WebUi} {c : ConnId} {q : WebUiHttpRequest}

theorem maps_begin {m : Nat} {M : InnerMap} (h : (s.innerMap q.tunnelId).1[m]? = some M) :
    (s.begin c q).maps[m]? = some
      (if (s.innerMap q.tunnelId).2 = m then { M with controllers := M.controllers.set q.requestId s.requests.length }
      else M) := by
  change ((s.innerMap q.tunnelId).1.modify _ _)[m]? = _
  rw [List.getElem?_modify, h]
  rfl

/-- Each inner map but the tunnel's keeps its entries. -/
theorem controllers_begin_other (hs : Shape s) {t : JsString} {m : Nat} (hm : s.webUiAborts.get t = some m)
    (ht : t ≠ q.tunnelId) : (s.begin c q).controllers m = s.controllers m := by
  obtain ⟨M, hM, hMt⟩ := hs.stored t m hm
  obtain ⟨A, hA, hAt, -⟩ := innerMap_active hs q.tunnelId
  have hne : (s.innerMap q.tunnelId).2 ≠ m := by
    intro heq
    rw [heq, innerMap_old hM] at hA
    cases hA
    exact ht (hMt.symm.trans hAt)
  have hbegin := maps_begin (c := c) (innerMap_old (t := q.tunnelId) hM)
  rw [if_neg hne] at hbegin
  rw [controllers_eq hbegin, controllers_eq hM]

/-- The new request's ids lead to it; all others lead where they did. -/
theorem controller_begin (hs : Shape s) (t id : JsString) :
    (s.begin c q).controller t id =
      if t = q.tunnelId ∧ id = q.requestId then some s.requests.length else s.controller t id := by
  by_cases ht : t = q.tunnelId
  · subst ht
    obtain ⟨A, hA, -, hAget⟩ := innerMap_active hs q.tunnelId
    have hbegin := maps_begin (c := c) hA
    rw [if_pos rfl] at hbegin
    have hstored : (s.begin c q).webUiAborts.get q.tunnelId = some (s.innerMap q.tunnelId).2 := OMap.get_set_self ..
    rw [controller, hstored, Option.bind_some, controllers_eq hbegin, OMap.get_set, hAget]
    simp
  · have hstored : (s.begin c q).webUiAborts.get t = s.webUiAborts.get t := OMap.get_set_ne _ _ ht
    rw [if_neg fun h => ht h.1, controller, controller, hstored]
    cases hm : s.webUiAborts.get t with
    | none => rfl
    | some m => rw [Option.bind_some, Option.bind_some, controllers_begin_other hs hm ht]

theorem begun_begin {n : Nat} {r : LocalRequest} :
    (s.begin c q).requests[n]? = some r ↔ s.requests[n]? = some r ∨ n = s.requests.length ∧ r = s.entry c q := by
  change (s.requests ++ [s.entry c q])[n]? = some r ↔ _
  constructor
  · intro h
    rcases Nat.lt_or_ge n s.requests.length with hn | hn
    · rw [List.getElem?_append_left hn] at h
      exact Or.inl h
    · rw [List.getElem?_append_right hn] at h
      obtain ⟨hlt, hr⟩ := List.getElem?_eq_some_iff.mp h
      rw [List.length_singleton] at hlt
      rw [List.getElem_singleton] at hr
      exact Or.inr ⟨by omega, hr.symm⟩
  · rintro (h | ⟨rfl, rfl⟩)
    · obtain ⟨hn, -⟩ := List.getElem?_eq_some_iff.mp h
      rw [List.getElem?_append_left hn, h]
    · rw [List.getElem?_append_right (Nat.le_refl _), Nat.sub_self]
      rfl

theorem running_begin {n : Nat} {r : LocalRequest} :
    Running (s.begin c q) n r ↔ Running s n r ∨ n = s.requests.length ∧ r = s.entry c q := by
  constructor
  · intro h
    rcases begun_begin.mp h.begun with hb | hnew
    · exact Or.inl ⟨hb, h.unsettled, h.unaborted⟩
    · exact Or.inr hnew
  · rintro (h | ⟨hn, rfl⟩)
    · exact ⟨begun_begin.mpr (Or.inl h.begun), h.unsettled, h.unaborted⟩
    · exact ⟨begun_begin.mpr (Or.inr ⟨hn, rfl⟩), rfl, rfl⟩

theorem shape_begin (hs : Shape s) : Shape (s.begin c q) := by
  obtain ⟨A, hA, hAt, -⟩ := innerMap_active hs q.tunnelId
  refine ⟨fun t m h => ?_, fun n r h => ?_, fun m id n h => ?_⟩
  · have hset : (s.begin c q).webUiAborts.get t =
        if t = q.tunnelId then some (s.innerMap q.tunnelId).2 else s.webUiAborts.get t := OMap.get_set ..
    rw [hset] at h
    split at h
    · rename_i ht
      cases h
      exact ⟨_, maps_begin hA, by rw [if_pos rfl, ht]; exact hAt⟩
    · obtain ⟨M, hM, hMt⟩ := hs.stored t m h
      exact ⟨_, maps_begin (innerMap_old hM), by split <;> exact hMt⟩
  · rcases begun_begin.mp h with h | ⟨-, rfl⟩
    · obtain ⟨M, hM, hMt⟩ := hs.kept n r h
      exact ⟨_, maps_begin (innerMap_old hM), by split <;> exact hMt⟩
    · exact ⟨_, maps_begin hA, by rw [entry, if_pos rfl]; exact hAt⟩
  · -- an entry that was there, or the new one
    have hold : (s.controllers m).get id = some n →
        ∃ r, (s.begin c q).requests[n]? = some r ∧ r.active = m ∧ r.requestId = id := by
      intro hget
      obtain ⟨r, hr, hactive⟩ := hs.held m id n hget
      exact ⟨r, begun_begin.mpr (Or.inl hr), hactive⟩
    have hold' : ∀ M : InnerMap, (s.innerMap q.tunnelId).1[m]? = some M → M.controllers.get id = some n →
        (s.controllers m).get id = some n := by
      intro M hM hget
      rcases innerMap_new hM with hM | hempty
      · rwa [controllers_eq hM]
      · rw [hempty] at hget
        cases hget
    cases hM : (s.innerMap q.tunnelId).1[m]? with
    | none =>
      have hnone : (s.begin c q).maps[m]? = none := by
        change ((s.innerMap q.tunnelId).1.modify _ _)[m]? = _
        rw [List.getElem?_modify, hM]
        rfl
      rw [controllers, hnone] at h
      cases h
    | some M =>
      rw [controllers_eq (maps_begin hM)] at h
      split at h
      · rename_i hm
        rw [OMap.get_set] at h
        split at h
        · rename_i hid
          cases h
          exact ⟨_, begun_begin.mpr (Or.inr ⟨rfl, rfl⟩), hm, hid.symm⟩
        · exact hold (hold' M hM h)
      · exact hold (hold' M hM h)

/-- A request frame leaves every running request abortable exactly if none of them has its ids. -/
theorem abortable_begin (hs : Shape s) (ha : Abortable s) :
    Abortable (s.begin c q) ↔ ∀ n r, Running s n r → r.tunnelId = q.tunnelId → r.requestId ≠ q.requestId := by
  constructor
  · intro h n r hr ht hid
    have hn := h n r (running_begin.mpr (Or.inl hr))
    rw [controller_begin hs, if_pos ⟨ht, hid⟩] at hn
    obtain ⟨hlt, -⟩ := List.getElem?_eq_some_iff.mp hr.begun
    have := Option.some.inj hn
    omega
  · intro h n r hr
    rw [controller_begin hs]
    rcases running_begin.mp hr with hr | ⟨rfl, rfl⟩
    · rw [if_neg fun hq => h n r hr hq.1 hq.2]
      exact ha n r hr
    · exact if_pos ⟨rfl, rfl⟩

end

/-! ## Settling -/

section

variable {s : WebUi} {n : Nat} {r : LocalRequest}

/-- Nothing is left in the inner map of the settled request. -/
def Empties (s : WebUi) (r : LocalRequest) : Prop := ((s.controllers r.active).delete r.requestId).size = 0

instance (s : WebUi) (r : LocalRequest) : Decidable (Empties s r) := inferInstanceAs (Decidable (_ = 0))

theorem settle_eq (h : s.requests[n]? = some r) (hu : r.settled = false) :
    s.settle n =
      { s with
        maps := s.maps.modify r.active fun M => { M with controllers := (s.controllers r.active).delete r.requestId }
        webUiAborts := if Empties s r then s.webUiAborts.delete r.tunnelId else s.webUiAborts
        requests := s.requests.modify n fun r => { r with settled := true } } := by
  rw [settle, h]
  simp only [hu, Bool.false_eq_true, if_false]
  rfl

theorem controllers_settle (h : s.requests[n]? = some r) (hu : r.settled = false) (hs : Shape s) (m : Nat) :
    (s.settle n).controllers m =
      if r.active = m then (s.controllers r.active).delete r.requestId else s.controllers m := by
  obtain ⟨M, hM, -⟩ := hs.kept n r h
  rw [settle_eq h hu]
  change Option.getD (((s.maps.modify _ _)[m]?).map _) _ = _
  rw [List.getElem?_modify]
  by_cases hm : r.active = m
  · subst hm
    rw [hM, if_pos rfl]
    simp
  · rw [if_neg hm]
    simp [hm]
    rfl

theorem webUiAborts_settle (h : s.requests[n]? = some r) (hu : r.settled = false) (t : JsString) :
    (s.settle n).webUiAborts.get t = if Empties s r ∧ t = r.tunnelId then none else s.webUiAborts.get t := by
  rw [settle_eq h hu]
  by_cases he : Empties s r
  · rw [if_pos he, OMap.get_delete]
    simp [he]
  · rw [if_neg he, if_neg fun hc => he hc.1]

/-- The settled request's entry is gone from its map, and with the map's last entry the map is. -/
theorem controller_settle (h : s.requests[n]? = some r) (hu : r.settled = false) (hs : Shape s) (t id : JsString) :
    (s.settle n).controller t id =
      if Empties s r ∧ t = r.tunnelId then none
      else if s.webUiAborts.get t = some r.active ∧ id = r.requestId then none
      else s.controller t id := by
  rw [controller, webUiAborts_settle h hu]
  split
  · rfl
  · rw [controller]
    cases hm : s.webUiAborts.get t with
    | none => simp
    | some m =>
      rw [Option.bind_some, Option.bind_some, controllers_settle h hu hs]
      by_cases hactive : r.active = m
      · subst hactive
        rw [if_pos rfl, OMap.get_delete]
        simp
      · rw [if_neg hactive, if_neg fun hc => hactive (Option.some.inj hc.1).symm]

theorem begun_settle (h : s.requests[n]? = some r) (hu : r.settled = false) (n' : Nat) :
    (s.settle n).requests[n']? = s.requests[n']?.map fun r => if n = n' then { r with settled := true } else r := by
  rw [settle_eq h hu]
  change (s.requests.modify n _)[n']? = _
  rw [List.getElem?_modify]
  rfl

theorem running_settle (h : s.requests[n]? = some r) (hu : r.settled = false) {n' : Nat} {r' : LocalRequest} :
    Running (s.settle n) n' r' ↔ Running s n' r' ∧ n' ≠ n := by
  constructor
  · intro hr
    have hb := hr.begun
    rw [begun_settle h hu] at hb
    obtain ⟨r₀, hr₀, heq⟩ := Option.map_eq_some_iff.mp hb
    by_cases hn : n = n'
    · rw [if_pos hn] at heq
      have := hr.unsettled
      rw [← heq] at this
      cases this
    · rw [if_neg hn] at heq
      exact ⟨⟨heq ▸ hr₀, hr.unsettled, hr.unaborted⟩, fun hc => hn hc.symm⟩
  · intro ⟨hr, hn⟩
    refine ⟨?_, hr.unsettled, hr.unaborted⟩
    rw [begun_settle h hu, hr.begun, Option.map_some, if_neg fun hc => hn hc.symm]

theorem shape_settle (hs : Shape s) (n : Nat) : Shape (s.settle n) := by
  cases h : s.requests[n]? with
  | none => rw [settle, h]; exact hs
  | some r =>
    by_cases hu : r.settled = true
    · rw [settle, h]
      simp only [hu, if_true]
      exact hs
    rw [Bool.not_eq_true] at hu
    have hmaps : ∀ (m : Nat) (M : InnerMap), s.maps[m]? = some M →
        ∃ M', (s.settle n).maps[m]? = some M' ∧ M'.tunnelId = M.tunnelId := by
      intro m M hM
      rw [settle_eq h hu]
      change ∃ M', (s.maps.modify _ _)[m]? = some M' ∧ _
      rw [List.getElem?_modify, hM]
      exact ⟨_, rfl, by split <;> rfl⟩
    refine ⟨fun t m ht => ?_, fun n' r' hb => ?_, fun m id n' hget => ?_⟩
    · rw [webUiAborts_settle h hu] at ht
      split at ht
      · cases ht
      · obtain ⟨M, hM, hMt⟩ := hs.stored t m ht
        obtain ⟨M', hM', hMt'⟩ := hmaps m M hM
        exact ⟨M', hM', hMt'.trans hMt⟩
    · rw [begun_settle h hu] at hb
      obtain ⟨r₀, hr₀, heq⟩ := Option.map_eq_some_iff.mp hb
      obtain ⟨M, hM, hMt⟩ := hs.kept n' r₀ hr₀
      obtain ⟨M', hM', hMt'⟩ := hmaps _ M hM
      refine ⟨M', ?_, ?_⟩ <;> rw [← heq] <;> split
      · exact hM'
      · exact hM'
      · exact hMt'.trans hMt
      · exact hMt'.trans hMt
    · have hold : (s.controllers m).get id = some n' := by
        rw [controllers_settle h hu hs] at hget
        split at hget
        · rename_i hm
          rw [OMap.get_delete] at hget
          split at hget
          · cases hget
          · exact hm ▸ hget
        · exact hget
      obtain ⟨r₀, hr₀, hactive, hid⟩ := hs.held m id n' hold
      refine ⟨_, (begun_settle h hu n').trans (congrArg _ hr₀), ?_, ?_⟩
      · split <;> exact hactive
      · split <;> exact hid

/-- A request settles without taking another's entry away: while another one runs on its
    tunnel its own inner map is left with an entry, and the other was not entered there
    under its id. -/
def Fair (s : WebUi) (n : Nat) : Prop :=
  ∀ r, s.requests[n]? = some r → r.settled = false → ∀ n' r', Running s n' r' → n' ≠ n → r'.tunnelId = r.tunnelId →
    ¬ Empties s r ∧ (r'.active = r.active → r'.requestId ≠ r.requestId)

theorem abortable_settle (hs : Shape s) (ha : Abortable s) (n : Nat) : Abortable (s.settle n) ↔ Fair s n := by
  cases h : s.requests[n]? with
  | none =>
    have hfair : Fair s n := fun r hr => by rw [h] at hr; cases hr
    rw [settle, h]
    exact iff_of_true ha hfair
  | some r =>
    by_cases hu : r.settled = true
    · have hfair : Fair s n := fun r' hr' hu' => by
        rw [h] at hr'
        cases hr'
        rw [hu] at hu'
        cases hu'
      rw [settle, h]
      simp only [hu, if_true]
      exact iff_of_true ha hfair
    rw [Bool.not_eq_true] at hu
    constructor
    · intro hafter r₀ hr₀ _ n' r' hr hn ht
      cases h.symm.trans hr₀
      have hc := hafter n' r' ((running_settle h hu).mpr ⟨hr, hn⟩)
      have hstored := (ha.entered hs hr).1
      rw [controller_settle h hu hs] at hc
      split at hc
      · cases hc
      · rename_i hempties
        split at hc
        · cases hc
        · rename_i hsame
          exact ⟨fun he => hempties ⟨he, ht⟩, fun hactive hid => hsame ⟨hactive ▸ hstored, hid⟩⟩
    · intro hfair n' r' hr
      obtain ⟨hr, hn⟩ := (running_settle h hu).mp hr
      rw [controller_settle h hu hs]
      have hstored := (ha.entered hs hr).1
      by_cases ht : r'.tunnelId = r.tunnelId
      · obtain ⟨hempties, hid⟩ := hfair r h hu n' r' hr hn ht
        rw [if_neg fun hc => hempties hc.1, if_neg ?_]
        · exact ha n' r' hr
        · intro hc
          exact hid (Option.some.inj (hstored.symm.trans hc.1)) hc.2
      · rw [if_neg fun hc => ht hc.2, if_neg ?_]
        · exact ha n' r' hr
        · -- an inner map belongs to one tunnel
          intro hc
          obtain ⟨M, hM, hMt⟩ := hs.stored _ _ hc.1
          obtain ⟨M', hM', hMt'⟩ := hs.kept n r h
          cases hM.symm.trans hM'
          exact ht (hMt.symm.trans hMt')

end

/-! ## Runs -/

variable {O webUi}

theorem shape_channel {s : WebUi} (hs : Shape s) (ch : Channel) : Shape { s with channel := ch } :=
  ⟨hs.stored, hs.kept, hs.held⟩

theorem running_channel {s : WebUi} {ch : Channel} {n : Nat} {r : LocalRequest}
    (h : Running { s with channel := ch } n r) :
    Running s n r := ⟨h.begun, h.unsettled, h.unaborted⟩

theorem abortable_channel {s : WebUi} (ha : Abortable s) (ch : Channel) : Abortable { s with channel := ch } :=
  fun n r h => ha n r (running_channel h)

theorem shape_step {s : WebUi} (hs : Shape s) (e : Event) : Shape (step O webUi s e) := by
  cases e with
  | channel e =>
    refine shape_channel ?_ _
    split
    · exact shape_closeAll hs
    · exact hs
  | connect c => exact shape_channel hs _
  | server since c m => exact shape_channel hs _
  | webUi c ms =>
    simp only [step, onWebUiFrame]
    split
    · exact shape_begin hs
    · split
      · exact shape_abortAll hs _
      · split
        · exact shape_close hs _
        · exact hs
  | settled n => exact shape_settle hs n

variable (webUi) in
/-- A request frame does not take the ids of a running request, and a request settles
    without taking another's entry away. -/
def Undisturbed (s : WebUi) : Event → Prop
  | .webUi c ms => ∀ q, asked webUi s c ms = some q →
      ∀ n r, Running s n r → r.tunnelId = q.tunnelId → r.requestId ≠ q.requestId
  | .settled n => Fair s n
  | _ => True

theorem abortable_step {s : WebUi} (hs : Shape s) (ha : Abortable s) (e : Event) :
    Abortable (step O webUi s e) ↔ Undisturbed webUi s e := by
  cases e with
  | channel e =>
    refine iff_of_true (abortable_channel ?_ _) trivial
    split
    · exact fun n r h => absurd h (closeAll_aborts hs ha n r)
    · exact ha
  | connect c => exact iff_of_true (abortable_channel ha _) trivial
  | server since c m => exact iff_of_true (abortable_channel ha _) trivial
  | webUi c ms =>
    simp only [step, onWebUiFrame, Undisturbed]
    cases asked webUi s c ms with
    | some q =>
      dsimp only
      rw [abortable_begin hs ha]
      exact ⟨fun h q' hq' => by cases hq'; exact h, fun h => h q rfl⟩
    | none =>
      refine iff_of_true ?_ fun q hq => by cases hq
      dsimp only
      split
      · exact abortable_abortAll ha _
      · split
        · exact abortable_close hs ha _
        · exact ha
  | settled n => exact abortable_settle hs ha n

/-- A step names a request: a cancel of its ids, the close of its tunnel, or the end of the connection. -/
def Names (s : WebUi) (r : LocalRequest) : Event → Prop
  | .channel e => releases s.channel e = true
  | .webUi c ms => s.cancels c ms = some (r.tunnelId, r.requestId) ∨ s.closes c ms = some r.tunnelId
  | _ => False

/-- The three kinds of frame are told apart by their type. -/
theorem asked_none {s : WebUi} {c : ConnId} {ms : List (JsString × Json)} {type : JsString}
    (h : isText (member ms "type") type = true) (hne : type ≠ js "webui_http_request") : asked webUi s c ms = none := by
  unfold asked
  split
  · rename_i hc
    simp only [Bool.and_eq_true] at hc
    exact absurd (isText_inj h hc.2) hne
  · rfl

theorem cancels_spec {s : WebUi} {c : ConnId} {ms : List (JsString × Json)} {ids : JsString × JsString}
    (h : s.cancels c ms = some ids) : isText (member ms "type") (js "webui_http_cancel") = true := by
  unfold cancels at h
  split at h
  · rename_i hc
    simp only [Bool.and_eq_true] at hc
    exact hc.2
  · cases h

theorem closes_spec {s : WebUi} {c : ConnId} {ms : List (JsString × Json)} {t : JsString} (h : s.closes c ms = some t) :
    isText (member ms "type") (js "webui_tunnel_close") = true := by
  unfold closes at h
  split at h
  · rename_i hc
    simp only [Bool.and_eq_true] at hc
    exact hc.2
  · cases h

/-- Cancel, tunnel close, drop and stop abort every request they name. -/
theorem names_aborts {s : WebUi} (hs : Shape s) (ha : Abortable s) {e : Event} {r : LocalRequest} (h : Names s r e)
    (n : Nat) : ¬ Running (step O webUi s e) n r := by
  intro hr
  cases e with
  | channel e =>
    have hrel : releases s.channel e = true := h
    have hr' := running_channel hr
    rw [if_pos hrel] at hr'
    exact closeAll_aborts hs ha n r hr'
  | connect c => exact h
  | server since c m => exact h
  | webUi c ms =>
    rcases h with h | h
    · have hasked : asked webUi s c ms = none := asked_none (cancels_spec h) (by decide)
      simp only [step, onWebUiFrame, hasked, h, cancel] at hr
      obtain ⟨hrun, hnot⟩ := running_abortAll.mp hr
      exact hnot (by rw [ha n r hrun]; exact List.mem_singleton_self n)
    · have hasked : asked webUi s c ms = none := asked_none (closes_spec h) (by decide)
      have hcancels : s.cancels c ms = none := by
        rw [Option.eq_none_iff_forall_ne_some]
        intro ids hids
        exact absurd (isText_inj (cancels_spec hids) (closes_spec h)) (by decide)
      simp only [step, onWebUiFrame, hasked, hcancels, h] at hr
      exact close_aborts hs ha hr rfl
  | settled n => exact h

theorem shape_init : Shape init :=
  ⟨fun t m h => (by cases h), fun n r h => (by cases h), fun m id n h => (by cases h)⟩

theorem shape_run (es : List Event) : Shape (run O webUi es) :=
  @runFrom_inv _ _ (step O webUi) Shape (fun _ e hs => shape_step hs e) _ shape_init es

/-- In every state of a run each running request can be aborted, exactly if no step
    disturbs another's entry; and from such a state every request a cancel, a tunnel
    close, a drop or a stop names is aborted. -/
theorem requests_abortable (es : List Event) :
    ((∀ before after, es = before ++ after → Abortable (run O webUi before)) ↔
      Along (step O webUi) (Undisturbed webUi) init es) ∧
    ∀ before e after, es = before ++ e :: after → Abortable (run O webUi before) →
      ∀ n r, Names (run O webUi before) r e → ¬ Running (run O webUi (before ++ [e])) n r := by
  constructor
  · have hinit : Abortable init := fun n r h => by cases h.begun
    exact @good_iff_along _ _ (step O webUi) Shape Abortable (Undisturbed webUi) (fun _ e hs => shape_step hs e)
      (fun _ e hs ha => abortable_step hs ha e) es init shape_init hinit
  · intro before e after _ ha n r hnames hr
    rw [run, runFrom_append] at hr
    exact names_aborts (shape_run before) ha hnames n hr

/-! ## A tunnel id used again -/

def here : Options := ⟨js "ins", js "desk", js "hub", js "/hub", true⟩

def socket0 : ConnId := ⟨⟨js "key", ⟨js "alice", by decide⟩⟩, 0⟩

def tunnel : JsString := js "50000000-0000-4000-8000-000000000000"

def firstId : JsString := js "60000000-0000-4000-8000-000000000000"

def secondId : JsString := js "70000000-0000-4000-8000-000000000000"

def httpFrame (requestId : JsString) : List (JsString × Json) :=
  [(js "type", .str (js "webui_http_request")), (js "tunnelId", .str tunnel), (js "requestId", .str requestId),
    (js "method", .str (js "GET")), (js "path", .str (js "/")), (js "headers", .obj [])]

def closeFrame : List (JsString × Json) := [(js "type", .str (js "webui_tunnel_close")), (js "tunnelId", .str tunnel)]

/-- The tunnel is closed while its request runs, another is begun under the same tunnel id,
    and then the first one settles. -/
def reused : List Event :=
  [.channel .start, .connect socket0, .server [] socket0 (.registration (js "ins") .controllable),
    .webUi socket0 (httpFrame firstId),
    .webUi socket0 closeFrame, .webUi socket0 (httpFrame secondId), .settled 0]

/-- The second request runs where no controller leads to it; it outlives the close of its
    tunnel and the stop of the channel. -/
theorem reused_tunnel_unabortable :
    ¬ Abortable (run here true reused) ∧
      ∃ r, Running (run here true (reused ++ [.webUi socket0 closeFrame, .channel .stop])) 1 r ∧
        r.tunnelId = tunnel := by
  refine ⟨fun h => ?_, ⟨socket0, tunnel, secondId, 1, false, false⟩, ⟨by decide +kernel, rfl, rfl⟩, rfl⟩
  have hrun : Running (run here true reused) 1 ⟨socket0, tunnel, secondId, 1, false, false⟩ :=
    ⟨by decide +kernel, rfl, rfl⟩
  have hnone : (run here true reused).controller tunnel secondId = none := by decide +kernel
  rw [h 1 _ hrun] at hnone
  cases hnone

end WebUi

end NotifyHub.Plugin
