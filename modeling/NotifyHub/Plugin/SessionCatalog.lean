/-
  NotifyHub.Plugin.SessionCatalog — `SessionCatalogAdapter.list` of
  packages/plugin/src/session-catalog.ts: a page of the sessions of a directory, and the
  bookmarked sessions that are not on it.

  - `catalog_is_exact`: the catalog lists the visible sessions of the page and of the
    bookmarks, each once, and nothing else; a list or a lookup that fails, fails the call.
-/

import NotifyHub.Lib.OMap
import NotifyHub.Contracts.Frames

namespace NotifyHub.Plugin

/-- `Session` of the SDK, as far as the catalog reads it. -/
structure Session where
  id : JsString
  directory : JsString
  parentID : Option JsString
  title : JsString
  updated : Int
  archived : Option Int
  deriving DecidableEq

/-- What `session.list` comes to. -/
inductive ListAnswer where
  | rejected
  /-- The data is no array. -/
  | invalid
  | listed (data : List Session)

/-- What `session.get` comes to: the status of the response, its data, and whether it is an error. -/
inductive GetAnswer where
  | rejected
  | resolved (status : Nat) (data : Option Session) (error : Bool)

/-- The types of the statuses by session, or nothing where the call failed. -/
abbrev StatusAnswer := Option (OMap JsString JsString)

/-- `new Date(updated).toISOString()`, which throws outside the range of dates, and ajv's `date-time`. -/
structure CatalogPlatform where
  toISOString : Int → Option JsString
  dateTime : JsString → Bool

structure CatalogRow where
  sessionId : JsString
  title : JsString
  directory : JsString
  updatedAt : JsString
  status : JsString
  deriving DecidableEq

structure Catalog where
  hasMore : Bool
  sessions : List CatalogRow
  deriving DecidableEq

def CatalogRow.json (r : CatalogRow) : Json :=
  .obj [(js "sessionId", .str r.sessionId), (js "title", .str r.title), (js "directory", .str r.directory),
    (js "updatedAt", .str r.updatedAt), (js "status", .str r.status)]

def Catalog.json (c : Catalog) : Json :=
  .obj [(js "hasMore", .bool c.hasMore), (js "sessions", .arr (c.sessions.map CatalogRow.json))]

namespace SessionCatalogAdapter

variable (P : CatalogPlatform) (directory : JsString)

/-- An empty parent is none, and so is a time of 0. -/
def visible (session : Session) : Bool :=
  session.directory == directory && session.parentID.all (· == []) && session.archived.all (· == 0)

/-- The page as a `Map` by id. -/
def page (limit : Nat) (data : List Session) : OMap JsString Session :=
  OMap.empty.addAll (·.id) ((data.take limit).filter (visible directory))

def requestedIds (query : Control.SessionCatalogQuery) : List JsString :=
  (((query.sessionIds.map (List.splitOn 44)).getD []).filter (· ≠ [])).eraseDups.take 50

/-- The loop over the bookmarks; nothing where it throws. -/
def lookups (get : JsString → GetAnswer) : List JsString → OMap JsString Session → Option (OMap JsString Session)
  | [], sessions => some sessions
  | sessionID :: ids, sessions =>
    if sessions.has sessionID then lookups get ids sessions
    else
      match get sessionID with
      | .rejected => none
      | .resolved status data error =>
        if status = 404 then lookups get ids sessions
        else
          match data with
          | none => none
          | some session =>
            if error then none
            else lookups get ids (if visible directory session then sessions.set sessionID session else sessions)

def statusOf (statuses : StatusAnswer) (sessionId : JsString) : JsString :=
  match statuses with
  | some data => (data.get sessionId).getD (js "idle")
  | none => js "unknown"

def row (statuses : StatusAnswer) (s : Session) : Option CatalogRow := do
  let updatedAt ← P.toISOString s.updated
  some ⟨s.id, s.title.take 1000, s.directory, updatedAt, statusOf statuses s.id⟩

def list (query : Control.SessionCatalogQuery) (listed : ListAnswer) (statuses : StatusAnswer)
    (get : JsString → GetAnswer) : Option Catalog :=
  let limit := query.limit.getD 50
  match listed with
  | .rejected | .invalid => none
  | .listed data => do
    let sessions ← lookups directory get (requestedIds query) (page directory limit data)
    let rows ← sessions.values.mapM (row P statuses)
    let catalog : Catalog := ⟨decide (data.length > limit), rows⟩
    if Contracts.sessionCatalogSchema.validate P.dateTime catalog.json then some catalog else none

/-! ## What a lookup finds -/

/-- The session a lookup comes back with. -/
def found : GetAnswer → Option Session
  | .resolved status (some session) false => if status = 404 then none else some session
  | _ => none

/-- The session that a lookup adds. -/
def added (get : JsString → GetAnswer) (id : JsString) : Option Session := (found (get id)).filter (visible directory)

/-- A lookup that fails, other than with 404. -/
def failed : GetAnswer → Bool
  | .rejected => true
  | .resolved status data error => status ≠ 404 && (data.isNone || error)

variable {P : CatalogPlatform} {directory : JsString} {get : JsString → GetAnswer}

/-! ## The sessions -/

/-- A visible session of the page. -/
def OnPage (directory : JsString) (limit : Nat) (data : List Session) (s : Session) : Prop :=
  s ∈ data.take limit ∧ visible directory s = true

/-- A visible session that a bookmark off the page finds. -/
def Bookmarked (directory : JsString) (get : JsString → GetAnswer) (limit : Nat) (data : List Session)
    (ids : List JsString)
    (s : Session) : Prop :=
  s.id ∈ ids ∧ (∀ t, OnPage directory limit data t → t.id ≠ s.id) ∧ found (get s.id) = some s ∧
    visible directory s = true

theorem get_page {limit : Nat} {data : List Session} {k : JsString} {s : Session}
    (h : (page directory limit data).get k = some s) :
    OnPage directory limit data s ∧ s.id = k := by
  rcases OMap.get_addAll h with h | ⟨hs, hk⟩
  · cases h
  · exact ⟨List.mem_filter.mp hs, hk⟩

theorem mem_keys_page {limit : Nat} {data : List Session} {k : JsString} :
    k ∈ (page directory limit data).keys ↔ ∃ s, OnPage directory limit data s ∧ s.id = k := by
  rw [page, OMap.mem_keys_addAll]
  simp [OnPage]

theorem size_page_le (directory : JsString) (limit : Nat) (data : List Session) :
    (page directory limit data).size ≤ limit := by
  have hlength := List.length_filter_le (visible directory) (data.take limit)
  have hsize := OMap.size_addAll_le (·.id) ((data.take limit).filter (visible directory)) OMap.empty
  rw [List.length_take] at hlength
  rw [page]
  exact Nat.le_trans hsize (by simp only [OMap.size, OMap.entries_empty, List.length_nil]; omega)

/-! ## The bookmarks -/

/-- One bookmark that is not on the page. -/
theorem lookups_cons {id : JsString} {ids : List JsString} {sessions : OMap JsString Session}
    (hid : id ∉ sessions.keys) :
    lookups directory get (id :: ids) sessions =
      if failed (get id) then none
      else lookups directory get ids ((added directory get id).elim sessions (sessions.set id)) := by
  have hhas : ¬ sessions.has id = true := fun h => hid (OMap.has_eq_true.mp h)
  rw [lookups, if_neg hhas, added]
  cases get id with
  | rejected => rfl
  | resolved status data error =>
    by_cases hstatus : status = 404
    · cases data <;> cases error <;> simp [hstatus, failed, found]
    · cases data with
      | none => cases error <;> simp [hstatus, failed]
      | some session =>
        cases error with
        | true => simp [hstatus, failed]
        | false =>
          by_cases hvisible : visible directory session = true
          · simp [hstatus, failed, found, hvisible, Option.filter]
          · simp [hstatus, failed, found, hvisible, Option.filter]

theorem lookups_fails {ids : List JsString} {sessions : OMap JsString Session} {id : JsString} (hmem : id ∈ ids)
    (hid : id ∉ sessions.keys) (hfailed : failed (get id) = true) : lookups directory get ids sessions = none := by
  induction ids generalizing sessions with
  | nil => cases hmem
  | cons k ids ih =>
    by_cases hk : k ∈ sessions.keys
    · rw [lookups, if_pos (OMap.has_eq_true.mpr hk)]
      rcases List.mem_cons.mp hmem with rfl | hmem
      · exact absurd hk hid
      · exact ih hmem hid
    · rw [lookups_cons hk]
      split
      · rfl
      · rename_i hok
        have hne : id ≠ k := fun h => hok (h ▸ hfailed)
        refine ih ((List.mem_cons.mp hmem).resolve_left hne) ?_
        cases added directory get k with
        | none => exact hid
        | some s => exact fun h => (OMap.mem_keys_set.mp h).elim hne hid

/-- The bookmarks that are found and visible come to the sessions, and what was there stays. -/
theorem lookups_spec {ids : List JsString} {sessions sessions' : OMap JsString Session}
    (h : lookups directory get ids sessions = some sessions') :
    (∀ k s, sessions'.get k = some s ↔ sessions.get k = some s ∨ k ∉ sessions.keys ∧ k ∈ ids ∧
      added directory get k = some s) ∧
      sessions'.size ≤ sessions.size + ids.length := by
  induction ids generalizing sessions with
  | nil =>
    cases h
    exact ⟨fun k s => by simp, Nat.le_refl _⟩
  | cons id ids ih =>
    by_cases hid : id ∈ sessions.keys
    · rw [lookups, if_pos (OMap.has_eq_true.mpr hid)] at h
      obtain ⟨hget, hsize⟩ := ih h
      refine ⟨fun k s => ?_, by rw [List.length_cons]; omega⟩
      rw [hget, List.mem_cons]
      refine or_congr_right (and_congr_right fun hk => ?_)
      have hne : k ≠ id := fun h => hk (h ▸ hid)
      simp [hne]
    · rw [lookups_cons hid] at h
      split at h
      · cases h
      · cases hadded : added directory get id with
        | none =>
          rw [hadded] at h
          obtain ⟨hget, hsize⟩ := ih h
          dsimp only [Option.elim] at hget hsize
          refine ⟨fun k s => ?_, by rw [List.length_cons]; omega⟩
          rw [hget, List.mem_cons]
          refine or_congr_right (and_congr_right fun _ => ?_)
          by_cases hk : k = id
          · simp [hk, hadded]
          · simp [hk]
        | some t =>
          rw [hadded] at h
          obtain ⟨hget, hsize⟩ := ih h
          dsimp only [Option.elim] at hget hsize
          have hset := OMap.size_set_le sessions id t
          refine ⟨fun k s => ?_, by rw [List.length_cons]; omega⟩
          rw [hget, OMap.get_set, OMap.mem_keys_set, List.mem_cons]
          by_cases hk : k = id
          · subst hk
            have hnone : sessions.get k = none := OMap.get_eq_none.mpr hid
            simp [hid, hnone, hadded]
          · simp [hk]

/-! ## The catalog -/

/-- What a catalog says of the page, the bookmarks and the statuses that it is made of. -/
structure Exact (P : CatalogPlatform) (directory : JsString) (limit : Nat) (ids : List JsString) (data : List Session)
    (statuses : StatusAnswer) (get : JsString → GetAnswer) (c : Catalog) : Prop where
  once : (c.sessions.map (·.sessionId)).Nodup
  /-- Every row is a session's, with the status that was reported. -/
  sound : ∀ r ∈ c.sessions, ∃ s, row P statuses s = some r ∧
    (OnPage directory limit data s ∨ Bookmarked directory get limit data ids s)
  listed : ∀ s, OnPage directory limit data s → ∃ r ∈ c.sessions, r.sessionId = s.id
  bookmarked : ∀ id ∈ ids, ∀ s, found (get id) = some s → visible directory s = true → ∃ r ∈ c.sessions,
  r.sessionId = s.id
  bounded : c.sessions.length ≤ limit + 50
  hasMore : c.hasMore = true ↔ limit < data.length
  valid : Contracts.sessionCatalogSchema.validate P.dateTime c.json = true

theorem row_id {statuses : StatusAnswer} {s : Session} {r : CatalogRow} (h : row P statuses s = some r) :
    r.sessionId = s.id := by
  simp only [row, Option.bind_eq_bind, Option.bind_eq_some_iff] at h
  obtain ⟨updatedAt, -, h⟩ := h
  cases h
  rfl

theorem requestedIds_length (query : Control.SessionCatalogQuery) : (requestedIds query).length ≤ 50 := by
  rw [requestedIds, List.length_take]
  omega

/-- The rows are of the sessions, in their order. -/
theorem mem_rows {statuses : StatusAnswer} {l : List Session} {rows : List CatalogRow}
    (h : l.mapM (row P statuses) = some rows) :
    l.map (·.id) = rows.map (·.sessionId) ∧ ∀ r ∈ rows, ∃ s ∈ l, row P statuses s = some r := by
  induction l generalizing rows with
  | nil =>
    cases h
    exact ⟨rfl, nofun⟩
  | cons s l ih =>
    simp only [List.mapM_cons, Option.bind_eq_bind, Option.bind_eq_some_iff] at h
    obtain ⟨r, hr, rest, hrest, h⟩ := h
    cases h
    obtain ⟨hids, hsound⟩ := ih hrest
    refine ⟨by rw [List.map_cons, List.map_cons, hids, row_id hr], fun r' hr' => ?_⟩
    rcases List.mem_cons.mp hr' with rfl | hr'
    · exact ⟨s, List.mem_cons_self, hr⟩
    · obtain ⟨t, ht, hrow⟩ := hsound r' hr'
      exact ⟨t, List.mem_cons_of_mem _ ht, hrow⟩

/-- The catalog that is resolved. -/
theorem list_eq_some {query : Control.SessionCatalogQuery} {answer : ListAnswer} {statuses : StatusAnswer} {c : Catalog}
    (h : list P directory query answer statuses get = some c) :
    ∃ data sessions, answer = .listed data ∧
      lookups directory get (requestedIds query) (page directory (query.limit.getD 50) data) = some sessions ∧
      sessions.values.mapM (row P statuses) = some c.sessions ∧ c.hasMore = decide (data.length > query.limit.getD 50) ∧
      Contracts.sessionCatalogSchema.validate P.dateTime c.json = true := by
  unfold list at h
  cases answer with
  | rejected => cases h
  | invalid => cases h
  | listed data =>
    simp only [Option.bind_eq_bind, Option.bind_eq_some_iff] at h
    obtain ⟨sessions, hsessions, rows, hrows, h⟩ := h
    split at h
    · rename_i hvalid
      cases h
      exact ⟨data, sessions, rfl, hsessions, hrows, rfl, hvalid⟩
    · cases h

theorem exact_of_list (hget : ∀ id s, found (get id) = some s → s.id = id) {query : Control.SessionCatalogQuery}
    {data : List Session}
    {statuses : StatusAnswer} {c : Catalog} (h : list P directory query (.listed data) statuses get = some c) :
    Exact P directory (query.limit.getD 50) (requestedIds query) data statuses get c := by
  obtain ⟨data, sessions, hdata, hsessions, hrows, hmore, hvalid⟩ := list_eq_some h
  cases hdata
  obtain ⟨hspec, hsize⟩ := lookups_spec hsessions
  obtain ⟨hids, hsound⟩ := mem_rows hrows
  -- the key of a session is its own id
  have hid : ∀ k s, sessions.get k = some s → s.id = k := by
    intro k s hs
    rcases (hspec k s).mp hs with hs | ⟨-, -, hs⟩
    · exact (get_page hs).2
    · exact hget k s (Option.filter_eq_some_iff.mp hs).1
  have hkeys : c.sessions.map (·.sessionId) = sessions.keys := by
    rw [← hids, OMap.values, OMap.keys, List.map_map]
    exact List.map_congr_left fun e he => hid e.1 e.2 (OMap.get_eq_some.mpr he)
  have hrow : ∀ id, id ∈ sessions.keys → ∃ r ∈ c.sessions, r.sessionId = id := by
    intro id hmem
    rw [← hkeys] at hmem
    exact List.mem_map.mp hmem
  refine ⟨hkeys ▸ sessions.nodup, fun r hr => ?_, fun s hs => ?_, fun id hmem s hs hvisible => ?_, ?_, ?_, hvalid⟩
  · obtain ⟨s, hs, hrow⟩ := hsound r hr
    refine ⟨s, hrow, ?_⟩
    obtain ⟨k, hk⟩ := OMap.mem_values.mp hs
    obtain rfl := hid k s hk
    rcases (hspec s.id s).mp hk with hk | ⟨hoff, hmem, hs⟩
    · exact Or.inl (get_page hk).1
    · obtain ⟨hfound, hvisible⟩ := Option.filter_eq_some_iff.mp hs
      exact Or.inr ⟨hmem, fun t ht htid => hoff (mem_keys_page.mpr ⟨t, ht, htid⟩), hfound, hvisible⟩
  · obtain ⟨t, ht⟩ := OMap.mem_keys.mp (mem_keys_page.mpr ⟨s, hs, rfl⟩)
    exact hrow s.id (OMap.mem_keys.mpr ⟨t, (hspec s.id t).mpr (Or.inl ht)⟩)
  · obtain rfl := hget id s hs
    by_cases hpage : s.id ∈ (page directory (query.limit.getD 50) data).keys
    · obtain ⟨t, ht⟩ := OMap.mem_keys.mp hpage
      exact hrow s.id (OMap.mem_keys.mpr ⟨t, (hspec s.id t).mpr (Or.inl ht)⟩)
    · exact hrow s.id (OMap.mem_keys.mpr
        ⟨s, (hspec s.id s).mpr (Or.inr ⟨hpage, hmem, Option.filter_eq_some_iff.mpr ⟨hs, hvisible⟩⟩)⟩)
  · have hlength : c.sessions.length = sessions.size := by
      have := congrArg List.length hkeys
      rwa [List.length_map, OMap.keys, List.length_map] at this
    have hpage := size_page_le directory (query.limit.getD 50) data
    have hasked := requestedIds_length query
    omega
  · rw [hmore, decide_eq_true_iff]

/-- The catalog is exact when there is one; there is none when the list or a lookup failed. -/
theorem catalog_is_exact (P : CatalogPlatform) (directory : JsString) (query : Control.SessionCatalogQuery)
    (answer : ListAnswer)
    (statuses : StatusAnswer) (get : JsString → GetAnswer) (hget : ∀ id s, found (get id) = some s → s.id = id) :
    (∀ c, list P directory query answer statuses get = some c → ∃ data, answer = .listed data ∧
      Exact P directory (query.limit.getD 50) (requestedIds query) data statuses get c) ∧
    (∀ data, answer = .listed data → ∀ id ∈ requestedIds query,
      (∀ s, OnPage directory (query.limit.getD 50) data s → s.id ≠ id) → failed (get id) = true →
      list P directory query answer statuses get = none) := by
  constructor
  · intro c hc
    obtain ⟨data, _, rfl, -⟩ := list_eq_some hc
    exact ⟨data, rfl, exact_of_list hget hc⟩
  · rintro data rfl id hmem hoff hfailed
    have hid : id ∉ (page directory (query.limit.getD 50) data).keys := by
      intro h
      obtain ⟨s, hs, hsid⟩ := mem_keys_page.mp h
      exact hoff s hs hsid
    rw [list]
    simp only [lookups_fails hmem hid hfailed, Option.bind_eq_bind, Option.bind_none]

/-! ## A page of one -/

def platform : CatalogPlatform := ⟨fun t => if t = 0 then some (js "1970-01-01T00:00:00.000Z") else none, fun _ => true⟩

def session (id : String) : Session := ⟨js id, js "/work", none, js id, 0, none⟩

/-- The server knows `ses_b`, and nothing of `ses_c`. -/
def lookup (id : JsString) : GetAnswer :=
  if id = js "ses_b" then .resolved 200 (some (session "ses_b")) false else .resolved 404 none true

def query : Control.SessionCatalogQuery := ⟨none, some 1, some (js "ses_c,ses_b,,ses_b")⟩

def expected : Catalog :=
  ⟨true, [⟨js "ses_a", js "ses_a", js "/work", js "1970-01-01T00:00:00.000Z", js "busy"⟩,
    ⟨js "ses_b", js "ses_b", js "/work", js "1970-01-01T00:00:00.000Z", js "idle"⟩]⟩

/-- One session of the page, and one bookmark. -/
theorem page_and_bookmark : ∃ data, ListAnswer.listed [session "ses_a", session "ses_b"] = .listed data ∧
    Exact platform (js "/work") 1 (requestedIds query) data (some (OMap.empty.set (js "ses_a") (js "busy")))
      lookup expected := by
  refine (catalog_is_exact platform (js "/work") query _ _ lookup ?_).1 expected (by decide +kernel)
  intro id s h
  unfold lookup at h
  split at h
  · rename_i hid
    cases h
    exact hid.symm
  · cases h

end SessionCatalogAdapter

end NotifyHub.Plugin
