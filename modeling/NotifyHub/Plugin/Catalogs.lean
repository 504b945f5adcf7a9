/-
  NotifyHub.Plugin.Catalogs — the session catalogs of the two versions of OpenCode, compared:
  `SessionCatalogAdapter.list` and `V2Api.catalog` on servers that hold the same sessions and
  answer alike.

  The filter of OpenCode 2 leaves internal sessions out, that of OpenCode 1 does not
  (`internal_session_listed`); `catalogs_agree_iff` says when the two come to the same.
-/

import NotifyHub.Plugin.V2Catalog

namespace NotifyHub.Plugin.Catalogs

open SessionCatalogAdapter (requestedIds visible statusOf)
open V2 (Thrown chained literal)
open Percent (encodeURIComponent decodeComponent)

/-- `[A-Za-z0-9_,.-]` -/
def idChar (c : UInt16) : Bool :=
  (65 ≤ c && c ≤ 90) || (97 ≤ c && c ≤ 122) || (48 ≤ c && c ≤ 57) || c = 95 || c = 44 || c = 46 || c = 45

/-- `sessionCatalogQuerySchema` -/
structure Accepted (query : Control.SessionCatalogQuery) : Prop where
  search : ∀ s, query.search = some s → (codePoints s).length ≤ 200
  limit : ∀ n, query.limit = some n → 1 ≤ n ∧ n ≤ 200
  sessionIds : ∀ s, query.sessionIds = some s → (codePoints s).length ≤ 4096 ∧ s.all idChar = true

/-- The two servers hold the same sessions, and answer alike. -/
structure Alike (sessions : List Session) (answer : ListAnswer) (statuses : StatusAnswer) (get : JsString → GetAnswer)
    (page active : Except Thrown Json) (get' : JsString → Except Thrown Json) : Prop where
  distinct : (sessions.map (·.id)).Nodup
  listed : ∀ data, answer = .listed data → data ⊆ sessions
  found : ∀ id s, SessionCatalogAdapter.found (get id) = some s → s ∈ sessions ∧ s.id = id
  sameList : V2Catalog.SameList answer page
  sameGet : ∀ id, V2Catalog.SameGet (get id) (V2Catalog.fetched get' id)
  /-- The statuses are of the types of the two APIs. -/
  statuses : ∀ data, statuses = some data → ∀ id t, data.get id = some t → SharedCatalog.StatusText t
  active : V2Catalog.ActiveBody active

def key (r : CatalogRow) : JsString × JsString × JsString := (r.sessionId, r.title, r.updatedAt)

/-- The same sessions in the same order with the same titles and update times, and the same
    `hasMore`, or none. -/
def Agree : Option Catalog → Option Catalog → Prop
  | some c, some d => c.sessions.map key = d.sessions.map key ∧ c.hasMore = d.hasMore
  | none, none => True
  | _, _ => False

theorem statusOf_text {statuses : StatusAnswer}
    (h : ∀ data, statuses = some data → ∀ id t, data.get id = some t → SharedCatalog.StatusText t) (id : JsString) :
    SharedCatalog.StatusText (statusOf statuses id) := by
  unfold statusOf
  cases statuses with
  | none => exact Or.inr (Or.inr (Or.inr rfl))
  | some data =>
    dsimp only
    cases hid : data.get id with
    | none => exact Or.inl rfl
    | some t => exact h data rfl id t hid

theorem Accepted.limit_le {query : Control.SessionCatalogQuery} (h : Accepted query) : query.limit.getD 50 ≤ 200 := by
  cases hlimit : query.limit with
  | none => decide
  | some n => exact (h.limit n hlimit).2

/-- The narrower filter shows what the other shows and what is not internal. -/
theorem shows_iff {directory : JsString} {s : Session} :
    V2Catalog.shows directory s = true ↔ visible directory s = true ∧ isInternalSession (some s.title) = false := by
  rw [V2Catalog.shows, Bool.and_eq_true, Bool.not_eq_true']

section

variable {P : CatalogPlatform} {directory : JsString} {sessions data : List Session} {get : JsString → GetAnswer}
  {query : Control.SessionCatalogQuery} {status status' : JsString → JsString}

theorem keys_rows (l : List Session) :
    (l.map (SharedCatalog.rowOf P status)).map key = (l.map (SharedCatalog.rowOf P status')).map key := by
  rw [List.map_map, List.map_map]
  rfl

theorem ids_rows (l : List Session) : ((l.map (SharedCatalog.rowOf P status)).map key).map (·.1) = l.map (·.id) := by
  rw [List.map_map, List.map_map]
  rfl

/-- Where nothing internal is shown, the narrower filter changes nothing. -/
theorem agree_of_none_internal (hheld : SharedCatalog.Held sessions data get) (hlimit : query.limit.getD 50 ≤ 200)
    (hstatus : ∀ id, SharedCatalog.StatusText (status id)) (hstatus' : ∀ id, SharedCatalog.StatusText (status' id))
    (h : ∀ s, SharedCatalog.Shown (visible directory) get (query.limit.getD 50) (requestedIds query) data s →
      isInternalSession (some s.title) = false) :
    Agree (SharedCatalog.built P (visible directory) get status query data)
      (SharedCatalog.built P (V2Catalog.shows directory) get status' query data) := by
  have hmerged : SharedCatalog.merged (V2Catalog.shows directory) get (query.limit.getD 50) (requestedIds query) data =
      SharedCatalog.merged (visible directory) get (query.limit.getD 50) (requestedIds query) data :=
    SharedCatalog.merged_congr hheld (fun s hs => (shows_iff.mp hs).1) fun s hs => shows_iff.mpr ⟨hs.passes, h s hs⟩
  unfold SharedCatalog.built
  rw [hmerged]
  cases hm : SharedCatalog.merged (visible directory) get (query.limit.getD 50) (requestedIds query) data with
  | none => trivial
  | some m =>
    have hsize := SharedCatalog.size_merged hm
    have hids := SessionCatalogAdapter.requestedIds_length query
    have hnone : SharedCatalog.finish P status (decide (data.length > query.limit.getD 50)) m.values = none ↔ _ :=
      SharedCatalog.finish_eq_none hstatus (by omega)
    have hnone' : SharedCatalog.finish P status' (decide (data.length > query.limit.getD 50)) m.values = none ↔ _ :=
      SharedCatalog.finish_eq_none hstatus' (by omega)
    rw [Option.bind_some, Option.bind_some]
    cases hc : SharedCatalog.finish P status (decide (data.length > query.limit.getD 50)) m.values with
    | none =>
      rw [hnone'.mpr (hnone.mp hc)]
      trivial
    | some c =>
      cases hd : SharedCatalog.finish P status' (decide (data.length > query.limit.getD 50)) m.values with
      | none =>
        rw [hnone.mpr (hnone'.mp hd)] at hc
        cases hc
      | some d =>
        rw [SharedCatalog.finish_eq_some hc, SharedCatalog.finish_eq_some hd]
        exact ⟨keys_rows m.values, rfl⟩

/-- Catalogs that agree show no internal session. -/
theorem none_internal_of_agree (hheld : SharedCatalog.Held sessions data get) {c d : Catalog}
    (hc : SharedCatalog.built P (visible directory) get status query data = some c)
    (hd : SharedCatalog.built P (V2Catalog.shows directory) get status' query data = some d)
    (hagree : Agree (some c) (some d)) :
    ∀ s, SharedCatalog.Shown (visible directory) get (query.limit.getD 50) (requestedIds query) data s →
      isInternalSession (some s.title) = false := by
  intro s hs
  obtain ⟨l, rfl, -, hl⟩ := SharedCatalog.built_rows hheld hc
  obtain ⟨l', rfl, -, hl'⟩ := SharedCatalog.built_rows hheld hd
  have hids := congrArg (List.map (·.1)) hagree.1
  rw [ids_rows, ids_rows] at hids
  have hmem : s.id ∈ l'.map (·.id) := hids ▸ List.mem_map_of_mem ((hl s).mpr hs)
  obtain ⟨t, ht, hid⟩ := List.mem_map.mp hmem
  have hshown := (hl' t).mp ht
  obtain rfl := hheld.eq (hshown.mem hheld) (hs.mem hheld) hid
  exact (shows_iff.mp hshown.passes).2

end

/-- The two catalogs agree exactly where OpenCode 1 shows no internal session, or both reject:
    a lookup fails, or a session that is shown cannot be rendered. -/
theorem catalogs_agree_iff (P : CatalogPlatform) (directory : JsString) (query : Control.SessionCatalogQuery)
    (haccepted : Accepted query)
    {sessions : List Session} {answer : ListAnswer} {statuses : StatusAnswer} {get : JsString → GetAnswer}
    {page active : Except Thrown Json} {get' : JsString → Except Thrown Json}
    (halike : Alike sessions answer statuses get page active get') :
    Agree (SessionCatalogAdapter.list P directory query answer statuses get)
        (V2Catalog.catalog P directory get' query page active).toOption ↔
      ∀ data, answer = .listed data →
        (∀ s, SharedCatalog.Shown (visible directory) get (query.limit.getD 50) (requestedIds query) data s →
          isInternalSession (some s.title) = false) ∨
        (SharedCatalog.Refuses P (visible directory) get (query.limit.getD 50) (requestedIds query) data ∧
          SharedCatalog.Refuses P (V2Catalog.shows directory) get (query.limit.getD 50) (requestedIds query) data) := by
  obtain ⟨status', hstatus', hactive⟩ := V2Catalog.exists_status halike.active
  have hstatus := statusOf_text halike.statuses
  rw [SharedCatalog.list_eq, V2Catalog.catalog_eq P directory query halike.sameList halike.sameGet
    (fun id s h => (halike.found id s h).2) hactive]
  cases answer with
  | rejected => exact iff_of_true trivial nofun
  | invalid => exact iff_of_true trivial nofun
  | listed data =>
    have hheld : SharedCatalog.Held sessions data get := ⟨halike.distinct, halike.listed data rfl, halike.found⟩
    have hlimit := haccepted.limit_le
    have hlist : SharedCatalog.built P (visible directory) get (statusOf statuses) query data = none ↔ _ :=
      SharedCatalog.built_eq_none hheld hlimit hstatus
    have hcatalog : SharedCatalog.built P (V2Catalog.shows directory) get status' query data = none ↔ _ :=
      SharedCatalog.built_eq_none hheld hlimit hstatus'
    rw [SharedCatalog.listed, Option.bind_some, Option.bind_some]
    constructor
    · intro hagree _ hdata
      cases hdata
      cases hc : SharedCatalog.built P (visible directory) get (statusOf statuses) query data with
      | none =>
        cases hd : SharedCatalog.built P (V2Catalog.shows directory) get status' query data with
        | none => exact Or.inr ⟨hlist.mp hc, hcatalog.mp hd⟩
        | some d =>
          rw [hc, hd] at hagree
          exact hagree.elim
      | some c =>
        cases hd : SharedCatalog.built P (V2Catalog.shows directory) get status' query data with
        | none =>
          rw [hc, hd] at hagree
          exact hagree.elim
        | some d =>
          rw [hc, hd] at hagree
          exact Or.inl (none_internal_of_agree hheld hc hd hagree)
    · intro h
      rcases h data rfl with h | ⟨hrefused, hrefused'⟩
      · exact agree_of_none_internal hheld hlimit hstatus hstatus' h
      · rw [hlist.mpr hrefused, hcatalog.mpr hrefused']
        trivial

/-! ## Servers -/

/-- A session as OpenCode 2 sends it. -/
def body (s : Session) : Json :=
  literal [("id", some (.str s.id)), ("parentID", s.parentID.map .str), ("title", some (.str s.title)),
    ("location", some (literal [("directory", some (.str s.directory))])),
    ("time", some (literal [("updated", some (.num s.updated 0)), ("archived", s.archived.map fun t => .num t 0)]))]

def data (value : Json) : Json := literal [("data", some value)]

/-- `session.get` of OpenCode 1 -/
def served (sessions : List Session) (id : JsString) : GetAnswer :=
  match encodeURIComponent id with
  | none => .rejected
  | some _ =>
    match sessions.find? (·.id = id) with
    | none => .resolved 404 none true
    | some s => .resolved 200 (some s) false

/-- `/api/session/${id}` of OpenCode 2 -/
def served2 (sessions : List Session) (encoded : JsString) : Except Thrown Json :=
  match sessions.find? (·.id = decodeComponent encoded) with
  | none => .error (.api 404 (some (.str (js "SessionNotFoundError"))))
  | some s => .ok (data (body s))

theorem holds_body (s : Session) : V2Catalog.Holds (body s) s := by
  have hid : chained (some (body s)) "id" = some (.str s.id) := by
    unfold body
    simp only [V2.chained_here]
  have hparent : chained (some (body s)) "parentID" = s.parentID.map .str := by
    unfold body
    cases s.parentID with
    | none =>
      simp (disch := decide) only [V2.chained_skip, V2.chained_undefined, V2.chained_nil, Option.map_none]
    | some p => simp (disch := decide) only [V2.chained_skip, V2.chained_here, Option.map_some]
  have htitle : chained (some (body s)) "title" = some (.str s.title) := by
    unfold body
    simp (disch := decide) only [V2.chained_skip, V2.chained_here]
  have hlocation : chained (some (body s)) "location" = some (literal [("directory", some (.str s.directory))]) := by
    unfold body
    simp (disch := decide) only [V2.chained_skip, V2.chained_here]
  have htime : chained (some (body s)) "time" =
      some (literal [("updated", some (.num s.updated 0)), ("archived", s.archived.map fun t => .num t 0)]) := by
    unfold body
    simp (disch := decide) only [V2.chained_skip, V2.chained_last]
  refine ⟨hid, ?_, ?_, ?_, ?_, some s.title, ?_, rfl⟩
  · rw [hlocation, V2.chained_last]
  · rw [htime, V2.chained_here]
    simp [Json.int?]
  · rw [hparent]
    cases s.parentID with
    | none => exact .absent rfl
    | some p => exact .present rfl
  · rw [htime, V2.chained_skip (by decide), V2.chained_last]
    cases s.archived with
    | none => exact .absent rfl
    | some t => exact .present (by simp [Json.int?])
  · rw [htitle]
    exact .present rfl

theorem data_data (value : Json) : chained (some (data value)) "data" = some value := V2.chained_last _ _

/-- Servers that hold the same sessions and list the same page of them are alike. -/
theorem alike_served {sessions page : List Session} (hdistinct : (sessions.map (·.id)).Nodup)
    (hpage : page ⊆ sessions) :
    Alike sessions (.listed page) (some OMap.empty) (served sessions) (.ok (data (.arr (page.map body))))
      (.ok (data (.obj [])))
      (served2 sessions) := by
  refine ⟨hdistinct, fun _ h => ListAnswer.listed.inj h ▸ hpage, fun id s h => ?_, ?_, fun id => ?_, ?_, ?_⟩
  · unfold served at h
    cases hencoded : encodeURIComponent id with
    | none =>
      rw [hencoded] at h
      cases h
    | some encoded =>
      rw [hencoded] at h
      dsimp only at h
      cases hfind : sessions.find? fun s => decide (s.id = id) with
      | none =>
        rw [hfind] at h
        cases h
      | some t =>
        rw [hfind] at h
        cases h
        have hid := List.find?_some hfind
        exact ⟨List.mem_of_find?_eq_some hfind, of_decide_eq_true hid⟩
  · refine .listed (data_data _) ?_
    exact List.forall₂_map_left_iff.mpr (List.forall₂_same.mpr fun s _ => holds_body s)
  · unfold served V2Catalog.fetched
    cases hencoded : encodeURIComponent id with
    | none => exact .failed rfl rfl
    | some encoded =>
      dsimp only
      rw [served2, Percent.decodeComponent_encode hencoded]
      cases sessions.find? fun s => decide (s.id = id) with
      | none => exact .missing none true _
      | some s => exact .found (by decide) (data_data _) (holds_body s)
  · intro data hdata id t ht
    cases hdata
    cases ht
  · intro v hv _
    cases hv
    exact ⟨[], data_data _⟩

/-! ## An internal session -/

/-- A background worker, which has no parent. -/
def worker : Session := ⟨js "ses_w", js "/work", none, js "magic-context-historian", 0, none⟩

def task : Session := ⟨js "ses_t", js "/work", none, js "Fix the build", 20, none⟩

def review : Session := ⟨js "ses_r", js "/work", none, js "Review the change", 40, none⟩

/-- A session of the task. -/
def subtask : Session := ⟨js "ses_s", js "/work", some (js "ses_t"), js "Read the log", 30, none⟩

def old : Session := ⟨js "ses_o", js "/work", none, js "Write the docs", 10, none⟩

/-- The sessions of a server, of which the page has three. -/
def held : List Session := [review, subtask, task, old, worker]

def firstPage : List Session := [review, subtask, task]

/-- The times of these sessions, in their format. -/
def platform : CatalogPlatform :=
  ⟨fun t => if 10 ≤ t ∧ t < 100 then some (js "1970-01-01T00:00:00.0" ++ decimal t.toNat ++ js "Z")
    else none, fun _ => true⟩

def anyPage : Control.SessionCatalogQuery := ⟨none, none, none⟩

theorem anyPage_accepted : Accepted anyPage := ⟨nofun, nofun, nofun⟩

/-- Bookmarks of a session of the page, of one off it, and of one that is gone. -/
def bookmarks : Control.SessionCatalogQuery := ⟨none, some 3, some (js "ses_t,ses_o,ses_x")⟩

theorem bookmarks_accepted : Accepted bookmarks := by
  refine ⟨nofun, fun n hn => ?_, fun s hs => ?_⟩
  · obtain rfl := Option.some.inj hn
    decide
  · obtain rfl := Option.some.inj hs
    decide +kernel

/-- Where neither the page nor a bookmark has the worker, the two catalogs agree. -/
theorem task_agrees :
    Agree (SessionCatalogAdapter.list platform (js "/work") bookmarks (.listed firstPage) (some OMap.empty)
        (served held))
      (V2Catalog.catalog platform (js "/work") (served2 held) bookmarks (.ok (data (.arr (firstPage.map body))))
        (.ok (data (.obj [])))).toOption ∧
      (SessionCatalogAdapter.list platform (js "/work") bookmarks (.listed firstPage) (some OMap.empty)
        (served held)).map (fun c => c.sessions.map (·.sessionId)) = some [js "ses_r", js "ses_t", js "ses_o"] := by
  have hdistinct : (held.map (·.id)).Nodup := by decide +kernel
  have halike := alike_served hdistinct (List.sublist_append_left firstPage [old, worker]).subset
  have hpage : ∀ s ∈ firstPage, isInternalSession (some s.title) = false := by decide +kernel
  have hmarked : ∀ id ∈ requestedIds bookmarks, ∀ s ∈ SessionCatalogAdapter.found (served held id),
      isInternalSession (some s.title) = false := by decide +kernel
  have hiff := catalogs_agree_iff platform (js "/work") bookmarks bookmarks_accepted halike
  refine ⟨?_, by decide +kernel⟩
  rw [hiff]
  rintro data hdata
  obtain rfl := ListAnswer.listed.inj hdata
  refine Or.inl fun s hs => ?_
  rcases hs with ⟨hlisted, -⟩ | ⟨hid, -, hfound, -⟩
  · exact hpage s (List.mem_of_mem_take hlisted)
  · exact hmarked s.id hid s hfound

/-- OpenCode 1 lists the worker, OpenCode 2 does not. -/
theorem internal_session_listed : ∃ (P : CatalogPlatform) (directory : JsString) (query : Control.SessionCatalogQuery)
    (sessions : List Session) (answer : ListAnswer) (statuses : StatusAnswer) (get : JsString → GetAnswer)
    (page active : Except Thrown Json) (get' : JsString → Except Thrown Json),
    Accepted query ∧ Alike sessions answer statuses get page active get' ∧
      ¬ Agree (SessionCatalogAdapter.list P directory query answer statuses get)
        (V2Catalog.catalog P directory get' query page active).toOption := by
  have hdistinct : ([worker].map (·.id)).Nodup := by decide
  have halike := alike_served hdistinct (List.Subset.refl _)
  refine ⟨SessionCatalogAdapter.platform, js "/work", anyPage, [worker], _, _, _, _, _, _, anyPage_accepted, halike, ?_⟩
  have hlist : (SessionCatalogAdapter.list SessionCatalogAdapter.platform (js "/work") anyPage
    (.listed [worker]) (some OMap.empty)
      (served [worker])).map (fun c => c.sessions.map (·.sessionId)) = some [js "ses_w"] := by decide +kernel
  have hcatalog : (V2Catalog.catalog SessionCatalogAdapter.platform (js "/work") (served2 [worker]) anyPage
      (.ok (data (.arr ([worker].map body)))) (.ok (data (.obj [])))).toOption = some ⟨false, []⟩ := by decide +kernel
  rw [hcatalog]
  obtain ⟨c, hc, hids⟩ := Option.map_eq_some_iff.mp hlist
  rw [hc]
  rintro ⟨hkeys, -⟩
  have hnone : c.sessions = [] := List.map_eq_nil_iff.mp hkeys
  rw [hnone] at hids
  cases hids

end NotifyHub.Plugin.Catalogs
