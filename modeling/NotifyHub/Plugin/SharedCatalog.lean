/-
  NotifyHub.Plugin.SharedCatalog — a catalog of sessions with any filter: the page, the
  bookmarks off the page, and what is rendered of them. `SessionCatalogAdapter.list` is one
  (`list_eq`).

  - `mem_merged`: the sessions of the catalog are those of the page that the filter shows
    and those that the bookmarks find and the filter shows;
  - `built_eq_none`: there is no catalog exactly where a lookup off the page fails, or where
    a session of it cannot be rendered.
-/

import NotifyHub.Lib.Fill
import NotifyHub.Plugin.SessionCatalog

namespace NotifyHub.Plugin.SharedCatalog

open SessionCatalogAdapter (found failed requestedIds visible statusOf)

section

variable (P : CatalogPlatform) (shows : Session → Bool) (get : JsString → GetAnswer)

/-- What a bookmark brings. -/
def find (id : JsString) : Option (Option Session) :=
  if failed (get id) then none else some ((found (get id)).filter shows)

def pageOf (limit : Nat) (data : List Session) : OMap JsString Session :=
  OMap.empty.addAll (·.id) ((data.take limit).filter shows)

def merged (limit : Nat) (ids : List JsString) (data : List Session) : Option (OMap JsString Session) :=
  (pageOf shows limit data).fill (find shows get) ids

/-- A row, with a status by the id. -/
def rendered (status : JsString → JsString) (s : Session) : Option CatalogRow :=
  (P.toISOString s.updated).map fun updatedAt => ⟨s.id, s.title.take 1000, s.directory, updatedAt, status s.id⟩

def finish (status : JsString → JsString) (hasMore : Bool) (sessions : List Session) : Option Catalog :=
  (sessions.mapM (rendered P status)).bind fun rows =>
    if Contracts.sessionCatalogSchema.validate P.dateTime (Catalog.json ⟨hasMore, rows⟩) then some ⟨hasMore, rows⟩
      else none

def built (status : JsString → JsString) (query : Control.SessionCatalogQuery) (data : List Session) : Option Catalog :=
  (merged shows get (query.limit.getD 50) (requestedIds query) data).bind fun sessions =>
    finish P status (decide (data.length > query.limit.getD 50)) sessions.values

end

/-- What was listed. -/
def listed : ListAnswer → Option (List Session)
  | .listed data => some data
  | _ => none

variable {P : CatalogPlatform} {shows shows' : Session → Bool} {get : JsString → GetAnswer} {directory : JsString}

/-! ## The catalog of OpenCode 1 -/

theorem lookups_eq (ids : List JsString) (m : OMap JsString Session) :
    SessionCatalogAdapter.lookups directory get ids m = m.fill (find (visible directory) get) ids := by
  induction ids generalizing m with
  | nil => rfl
  | cons id ids ih =>
    by_cases hid : id ∈ m.keys
    · rw [SessionCatalogAdapter.lookups, if_pos (OMap.has_eq_true.mpr hid), ih, OMap.fill_cons_of_mem hid]
    · rw [SessionCatalogAdapter.lookups_cons hid, OMap.fill_cons_of_not_mem hid, find]
      split
      · rfl
      · exact ih _

theorem list_eq (query : Control.SessionCatalogQuery) (answer : ListAnswer) (statuses : StatusAnswer) :
    SessionCatalogAdapter.list P directory query answer statuses get =
      (listed answer).bind (built P (visible directory) get (statusOf statuses) query) := by
  have hrow : SessionCatalogAdapter.row P statuses = rendered P (statusOf statuses) := by
    funext s
    unfold SessionCatalogAdapter.row rendered
    cases P.toISOString s.updated <;> rfl
  unfold SessionCatalogAdapter.list
  rw [hrow]
  cases answer with
  | rejected => rfl
  | invalid => rfl
  | listed data =>
    dsimp only
    rw [lookups_eq]
    rfl

/-! ## The sessions of a catalog -/

/-- A session of the page. -/
def OnPage (shows : Session → Bool) (limit : Nat) (data : List Session) (s : Session) : Prop :=
  s ∈ data.take limit ∧ shows s = true

/-- A session that a bookmark finds, of an id that is not on the page. -/
def Bookmarked (shows : Session → Bool) (get : JsString → GetAnswer) (limit : Nat) (ids : List JsString)
    (data : List Session)
    (s : Session) : Prop :=
  s.id ∈ ids ∧ (∀ t, OnPage shows limit data t → t.id ≠ s.id) ∧ found (get s.id) = some s ∧ shows s = true

def Shown (shows : Session → Bool) (get : JsString → GetAnswer) (limit : Nat) (ids : List JsString)
    (data : List Session)
    (s : Session) : Prop :=
  OnPage shows limit data s ∨ Bookmarked shows get limit ids data s

/-- The answers come of one set of sessions. -/
structure Held (sessions : List Session) (data : List Session) (get : JsString → GetAnswer) : Prop where
  distinct : (sessions.map (·.id)).Nodup
  listed : data ⊆ sessions
  found : ∀ id s, found (get id) = some s → s ∈ sessions ∧ s.id = id

variable {sessions data : List Session} {limit : Nat} {ids : List JsString}

theorem Held.eq (h : Held sessions data get) {s t : Session} (hs : s ∈ sessions) (ht : t ∈ sessions)
    (hid : s.id = t.id) : s = t :=
  List.inj_on_of_nodup_map h.distinct hs ht hid

theorem OnPage.mem {s : Session} (h : OnPage shows limit data s) (hheld : Held sessions data get) : s ∈ sessions :=
  hheld.listed (List.mem_of_mem_take h.1)

theorem Shown.mem {s : Session} (h : Shown shows get limit ids data s) (hheld : Held sessions data get) :
    s ∈ sessions := by
  rcases h with h | ⟨-, -, hfound, -⟩
  · exact h.mem hheld
  · exact (hheld.found s.id s hfound).1

theorem Shown.passes {s : Session} (h : Shown shows get limit ids data s) : shows s = true := by
  rcases h with h | ⟨-, -, -, h⟩
  · exact h.2
  · exact h

theorem mem_keys_pageOf {k : JsString} : k ∈ (pageOf shows limit data).keys ↔
    ∃ s, OnPage shows limit data s ∧ s.id = k := by
  rw [pageOf, OMap.mem_keys_addAll]
  simp [OnPage]

theorem get_pageOf (hheld : Held sessions data get) {k : JsString} {s : Session} :
    (pageOf shows limit data).get k = some s ↔ OnPage shows limit data s ∧ s.id = k := by
  have back : ∀ {t : Session}, (pageOf shows limit data).get k = some t → OnPage shows limit data t ∧ t.id = k := by
    intro t h
    rcases OMap.get_addAll h with h | ⟨ht, hk⟩
    · cases h
    · exact ⟨List.mem_filter.mp ht, hk⟩
  refine ⟨back, fun ⟨hs, hk⟩ => ?_⟩
  obtain ⟨t, ht⟩ := OMap.mem_keys.mp (mem_keys_pageOf.mpr ⟨s, hs, hk⟩)
  obtain ⟨htp, htk⟩ := back ht
  rw [ht, hheld.eq (htp.mem hheld) (hs.mem hheld) (htk.trans hk.symm)]

theorem find_eq_none {id : JsString} : find shows get id = none ↔ failed (get id) = true := by
  unfold find
  split <;> simp_all

theorem find_eq_found {id : JsString} {s : Session} : find shows get id = some (some s) ↔
    found (get id) = some s ∧ shows s = true := by
  have hfailed : failed (get id) = true → found (get id) = none := by
    intro h
    cases hget : get id with
    | rejected => rfl
    | resolved status data error =>
      rw [hget] at h
      cases data <;> cases error <;> simp_all [failed, found]
  unfold find
  split
  · rename_i h
    simp [hfailed h]
  · rw [Option.some.injEq, Option.filter_eq_some_iff]

/-- A bookmark off the page whose lookup fails. -/
def Unanswered (shows : Session → Bool) (get : JsString → GetAnswer) (limit : Nat) (ids : List JsString)
    (data : List Session) : Prop :=
  ∃ id ∈ ids, (∀ t, OnPage shows limit data t → t.id ≠ id) ∧ failed (get id) = true

theorem off_page {id : JsString} : id ∉ (pageOf shows limit data).keys ↔ ∀ t, OnPage shows limit data t →
    t.id ≠ id := by
  rw [mem_keys_pageOf]
  simp

theorem merged_eq_none : merged shows get limit ids data = none ↔ Unanswered shows get limit ids data := by
  rw [merged, OMap.fill_eq_none]
  simp only [Unanswered, find_eq_none, off_page]

theorem mem_merged (hheld : Held sessions data get) {m : OMap JsString Session}
    (h : merged shows get limit ids data = some m)
    {s : Session} : s ∈ m.values ↔ Shown shows get limit ids data s := by
  rw [OMap.mem_values]
  simp only [OMap.get_fill h, get_pageOf hheld, find_eq_found, off_page]
  constructor
  · rintro ⟨k, ⟨hs, -⟩ | ⟨hoff, hmem, hfound, hshows⟩⟩
    · exact Or.inl hs
    · obtain rfl := (hheld.found k s hfound).2
      exact Or.inr ⟨hmem, hoff, hfound, hshows⟩
  · rintro (hs | ⟨hmem, hoff, hfound, hshows⟩)
    · exact ⟨s.id, Or.inl ⟨hs, rfl⟩⟩
    · exact ⟨s.id, Or.inr ⟨hoff, hmem, hfound, hshows⟩⟩

/-- A narrower filter that keeps everything that is shown changes nothing. -/
theorem merged_congr (hheld : Held sessions data get) (hle : ∀ s, shows' s = true → shows s = true)
    (h : ∀ s, Shown shows get limit ids data s → shows' s = true) :
    merged shows' get limit ids data = merged shows get limit ids data := by
  have hpage : pageOf shows' limit data = pageOf shows limit data := by
    unfold pageOf
    congr 1
    refine List.filter_congr fun s hs => ?_
    rw [Bool.eq_iff_iff]
    exact ⟨hle s, fun hshows => h s (Or.inl ⟨hs, hshows⟩)⟩
  unfold merged
  rw [hpage]
  refine OMap.fill_congr fun id hmem hoff => ?_
  unfold find
  cases hfound : found (get id) with
  | none => rfl
  | some s =>
    have hs : shows' s = shows s := by
      rw [Bool.eq_iff_iff]
      refine ⟨hle s, fun hshows => h s (Or.inr ?_)⟩
      obtain rfl := (hheld.found id s hfound).2
      exact ⟨hmem, off_page.mp hoff, hfound, hshows⟩
    simp only [Option.filter_some, hs]

theorem size_merged {m : OMap JsString Session} (h : merged shows get limit ids data = some m) :
    m.values.length ≤ limit + ids.length := by
  have hfill := OMap.size_fill_le h
  have hpage := OMap.size_addAll_le (·.id) ((data.take limit).filter shows) OMap.empty
  have hfilter := List.length_filter_le shows (data.take limit)
  rw [List.length_take] at hfilter
  have hempty : (OMap.empty : OMap JsString Session).size = 0 := rfl
  have hvalues : m.values.length = m.size := by rw [OMap.values, List.length_map, OMap.size]
  unfold pageOf at hfill
  omega

/-! ## The rows -/

/-- The statuses that a row may have. -/
def StatusText (t : JsString) : Prop := t = js "idle" ∨ t = js "busy" ∨ t = js "retry" ∨ t = js "unknown"

/-- A session that a valid row can be made of. -/
structure Renders (P : CatalogPlatform) (s : Session) : Prop where
  id : 1 ≤ (codePoints s.id).length ∧ (codePoints s.id).length ≤ 200
  directory : 1 ≤ (codePoints s.directory).length ∧ (codePoints s.directory).length ≤ 4096
  updated : ∃ t, P.toISOString s.updated = some t ∧ P.dateTime t = true

theorem row_valid {r : CatalogRow} (htitle : r.title.length ≤ 1000) (hstatus : StatusText r.status) :
    Contracts.catalogSessionSchema.validate P.dateTime r.json = true ↔
      (1 ≤ (codePoints r.sessionId).length ∧ (codePoints r.sessionId).length ≤ 200) ∧
        (1 ≤ (codePoints r.directory).length ∧ (codePoints r.directory).length ≤ 4096) ∧
          P.dateTime r.updatedAt = true := by
  have hlength := codePoints_length_le r.title
  have hjson : r.json = .obj ([("sessionId", Schema.string 1 (some 200) none, Json.str r.sessionId),
      ("title", Schema.string 0 (some 1000) none, Json.str r.title),
      ("directory", Schema.string 1 (some 4096) none, Json.str r.directory),
      ("updatedAt", Contracts.dateTimeString, Json.str r.updatedAt),
      ("status", Schema.enum ["idle", "busy", "retry", "unknown"], Json.str r.status)].map fun f =>
        (js f.1, f.2.2)) := rfl
  have hstatus' : (Schema.enum ["idle", "busy", "retry", "unknown"]).validate P.dateTime (.str r.status) = true := by
    rw [Schema.validate_enum]
    rcases hstatus with h | h | h | h <;> simp [h]
  rw [Contracts.catalogSessionSchema, hjson, Schema.validate_fields _ (by decide) _ (by simp) (by simp)]
  simp only [List.forall_mem_cons, List.not_mem_nil, false_implies, implies_true, and_true,
    hstatus', Schema.validate_string,
    Contracts.dateTimeString, Json.str.injEq, exists_eq_left', Option.all_none, Option.all_some,
    within_none, within_some,
    decide_eq_true_iff, Format.holds]
  simp only [Nat.zero_le, true_and]
  constructor
  · rintro ⟨hid, -, hrest⟩
    exact ⟨hid, hrest⟩
  · rintro ⟨hid, hrest⟩
    exact ⟨hid, by omega, hrest⟩

variable {status : JsString → JsString} {hasMore : Bool} {l : List Session}

/-- The row of a session whose time is a date. -/
def rowOf (P : CatalogPlatform) (status : JsString → JsString) (s : Session) : CatalogRow :=
  ⟨s.id, s.title.take 1000, s.directory, (P.toISOString s.updated).getD [], status s.id⟩

theorem rows_eq (P : CatalogPlatform) (status : JsString → JsString) (l : List Session) :
    l.mapM (rendered P status) =
      if ∀ s ∈ l, (P.toISOString s.updated).isSome = true then some (l.map (rowOf P status)) else none := by
  induction l with
  | nil => rfl
  | cons s l ih =>
    rw [List.mapM_cons, ih]
    simp only [List.forall_mem_cons, rendered, rowOf, List.map_cons]
    cases P.toISOString s.updated with
    | none => simp
    | some t =>
      by_cases hl : ∀ s ∈ l, (P.toISOString s.updated).isSome = true
      · rw [if_pos hl, if_pos ⟨rfl, hl⟩]
        rfl
      · rw [if_neg hl, if_neg fun h => hl h.2]
        rfl

theorem finish_eq_some {c : Catalog} (h : finish P status hasMore l = some c) :
    c = ⟨hasMore, l.map (rowOf P status)⟩ := by
  obtain ⟨rows, hrows, h⟩ := Option.bind_eq_some_iff.mp h
  rw [rows_eq] at hrows
  split at hrows
  · cases hrows
    split at h
    · exact (Option.some.inj h).symm
    · cases h
  · cases hrows

theorem rowOf_valid (hstatus : ∀ id, StatusText (status id)) {s : Session}
    (hdate : (P.toISOString s.updated).isSome = true) :
    Contracts.catalogSessionSchema.validate P.dateTime (rowOf P status s).json = true ↔ Renders P s := by
  obtain ⟨t, ht⟩ := Option.isSome_iff_exists.mp hdate
  have htitle : (s.title.take 1000).length ≤ 1000 := by
    rw [List.length_take]
    omega
  rw [row_valid htitle (hstatus s.id), rowOf, ht]
  constructor
  · rintro ⟨hid, hdirectory, hupdated⟩
    exact ⟨hid, hdirectory, t, ht, hupdated⟩
  · rintro ⟨hid, hdirectory, t', ht', hupdated⟩
    obtain rfl := Option.some.inj (ht.symm.trans ht')
    exact ⟨hid, hdirectory, hupdated⟩

theorem finish_eq_none (hstatus : ∀ id, StatusText (status id)) (hl : l.length ≤ 250) :
    finish P status hasMore l = none ↔ ∃ s ∈ l, ¬ Renders P s := by
  unfold finish
  rw [rows_eq]
  by_cases hdate : ∀ s ∈ l, (P.toISOString s.updated).isSome = true
  · have hvalid : Contracts.sessionCatalogSchema.validate P.dateTime (Catalog.json ⟨hasMore, l.map (rowOf P status)⟩)
      = true ↔
        ∀ s ∈ l, Renders P s := by
      have hjson : Catalog.json ⟨hasMore, l.map (rowOf P status)⟩ =
          .obj ([("hasMore", Schema.boolean, Json.bool hasMore),
            ("sessions", Schema.array 0 (some 250) Contracts.catalogSessionSchema,
            Json.arr ((l.map (rowOf P status)).map CatalogRow.json))].map fun f => (js f.1, f.2.2)) := rfl
      rw [Contracts.sessionCatalogSchema, hjson, Schema.validate_fields _ (by decide) _ (by simp) (by simp)]
      simp only [List.forall_mem_cons, List.not_mem_nil, false_implies, implies_true, and_true,
        Schema.validate_boolean, true_and,
        Schema.validate_array_map, Nat.zero_le, within_some, List.length_map, decide_eq_true_iff,
        hl, List.forall_mem_map]
      exact forall₂_congr fun s hs => rowOf_valid hstatus (hdate s hs)
    rw [if_pos hdate, Option.bind_some]
    by_cases hall : ∀ s ∈ l, Renders P s
    · rw [if_pos (hvalid.mpr hall)]
      refine iff_of_false nofun ?_
      rintro ⟨s, hs, hno⟩
      exact hno (hall s hs)
    · rw [if_neg fun h => hall (hvalid.mp h)]
      refine iff_of_true rfl ?_
      by_contra hno
      exact hall fun s hs => Classical.byContradiction fun h => hno ⟨s, hs, h⟩
  · rw [if_neg hdate]
    refine iff_of_true rfl ?_
    by_contra hno
    refine hdate fun s hs => ?_
    by_contra hnone
    refine hno ⟨s, hs, fun h => hnone ?_⟩
    obtain ⟨t, ht, -⟩ := h.updated
    rw [ht]
    rfl

/-! ## Where there is no catalog -/

/-- A lookup off the page fails, or a session that is shown cannot be rendered. -/
def Refuses (P : CatalogPlatform) (shows : Session → Bool) (get : JsString → GetAnswer) (limit : Nat)
    (ids : List JsString)
    (data : List Session) : Prop :=
  Unanswered shows get limit ids data ∨ ∃ s, Shown shows get limit ids data s ∧ ¬ Renders P s

theorem built_eq_none (hheld : Held sessions data get) {query : Control.SessionCatalogQuery}
    (hlimit : query.limit.getD 50 ≤ 200)
    (hstatus : ∀ id, StatusText (status id)) :
    built P shows get status query data = none ↔
      Refuses P shows get (query.limit.getD 50) (requestedIds query) data := by
  unfold built Refuses
  cases hmerged : merged shows get (query.limit.getD 50) (requestedIds query) data with
  | none => exact iff_of_true rfl (Or.inl (merged_eq_none.mp hmerged))
  | some m =>
    have hsize := size_merged hmerged
    have hids := SessionCatalogAdapter.requestedIds_length query
    have hanswered : ¬ Unanswered shows get (query.limit.getD 50) (requestedIds query) data := by
      rw [← merged_eq_none, hmerged]
      nofun
    rw [Option.bind_some, finish_eq_none hstatus (by omega), or_iff_right hanswered]
    exact exists_congr fun s => and_congr_left' (mem_merged hheld hmerged)

/-- The rows are of the sessions that are shown. -/
theorem built_rows (hheld : Held sessions data get) {query : Control.SessionCatalogQuery} {c : Catalog}
    (h : built P shows get status query data = some c) :
    ∃ l, c = ⟨decide (data.length > query.limit.getD 50), l.map (rowOf P status)⟩ ∧
      (merged shows get (query.limit.getD 50) (requestedIds query) data).map OMap.values = some l ∧
      ∀ s, s ∈ l ↔ Shown shows get (query.limit.getD 50) (requestedIds query) data s := by
  obtain ⟨m, hm, h⟩ := Option.bind_eq_some_iff.mp h
  exact ⟨m.values, finish_eq_some h, by rw [hm, Option.map_some], fun s => mem_merged hheld hm⟩

end NotifyHub.Plugin.SharedCatalog
