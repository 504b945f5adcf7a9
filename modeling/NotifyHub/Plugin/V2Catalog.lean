/-
  NotifyHub.Plugin.V2Catalog — `V2Api.catalog` (packages/plugin/src/v2-api.ts): the catalog
  of the sessions of a directory on OpenCode 2, made of the same page and bookmarks as
  `SessionCatalogAdapter.list` makes it of on OpenCode 1.

  - `catalog_eq`: where the bodies are of the types of the API, and the answers are those of
    a server of OpenCode 1, it is the catalog of the same sessions with a narrower filter.
-/

import NotifyHub.Plugin.SessionRegistry
import NotifyHub.Plugin.SharedCatalog
import NotifyHub.Plugin.V2Forms

namespace NotifyHub.Plugin.V2Catalog

open Percent (encodeURIComponent)
open V2 (Thrown HostSession chained property hostSession readSession)

/-- The time of `new Date(x)`: the fraction of a millisecond goes. -/
def millis : Int × Int → Int
  | (mantissa, .ofNat exponent) => mantissa * 10 ^ exponent
  | (mantissa, .negSucc exponent) => mantissa.tdiv (10 ^ (exponent + 1))

section

variable (P : CatalogPlatform) (directory : JsString) (get : JsString → Except Thrown Json)

def visible (s : HostSession) : Except Thrown Bool :=
  if s.directory = directory ∧ truthy s.parentID = false ∧ truthy s.archived = false then
    match s.title with
    | .str title => .ok (!isInternalSession (some title))
    -- it has no `startsWith`
    | _ => .error .other
  else .ok false

/-- `sessions`, of what `json` comes to. -/
def listedSessions (page : Except Thrown Json) : Except Thrown (List HostSession) := do
  match ← property (some (← page)) "data" with
  | some (.arr data) => data.mapM fun session => hostSession (some session)
  | _ => throw .other

/-- `filter(visible)` -/
def filterVisible : List HostSession → Except Thrown (List HostSession)
  | [] => .ok []
  | s :: rest => do
    let keep ← visible directory s
    let kept ← filterVisible rest
    return if keep then s :: kept else kept

/-- What `json` comes to for the path of an id; an id that cannot be encoded throws. -/
def fetched (id : JsString) : Except Thrown Json :=
  match encodeURIComponent id with
  | none => .error .other
  | some encoded => get encoded

/-- The body of the loop over the bookmarks: the session that comes to the catalog. -/
def lookup (id : JsString) : Except Thrown (Option HostSession) := do
  let s ← readSession directory id (← fetched get id)
  return if ← visible directory s then some s else none

/-- `error instanceof ApiError && error.status === 404` -/
def notFound : Thrown → Bool
  | .api status _ => status = 404
  | .other => false

def lookups : List JsString → OMap JsString HostSession → Except Thrown (OMap JsString HostSession)
  | [], sessions => .ok sessions
  | id :: ids, sessions =>
    if sessions.has id then lookups ids sessions
    else
      match lookup directory get id with
      | .ok none => lookups ids sessions
      | .ok (some s) => lookups ids (sessions.set id s)
      | .error thrown => if notFound thrown then lookups ids sessions else .error thrown

/-- `active ? (active.data[s.id] ? "busy" : "idle") : "unknown"` -/
def activeStatus (active : Except Thrown Json) (id : JsString) : Except Thrown JsString :=
  match active with
  | .error _ => .ok (js "unknown")
  | .ok active =>
    if truthy (some active) then
      match chained (some active) "data" with
      | none | some .null => .error .other
      | some (.obj ms) => .ok (if truthy ((ms.find? (·.1 = id)).map (·.2)) then js "busy" else js "idle")
      | some _ => .ok (js "idle")
    else .ok (js "unknown")

def row (active : Except Thrown Json) (s : HostSession) : Except Thrown CatalogRow := do
  match s.title, P.toISOString (millis s.updated) with
  | .str title, some updatedAt => return ⟨s.id, title.take 1000, s.directory, updatedAt, ← activeStatus active s.id⟩
  | _, _ => throw .other

/-- `catalog`, of what `json` comes to for the page, for the active sessions and for an id. -/
def catalog (query : Control.SessionCatalogQuery) (page active : Except Thrown Json) : Except Thrown Catalog := do
  let limit := query.limit.getD 50
  let listed ← listedSessions page
  let shown ← filterVisible directory (listed.take limit)
  let sessions ← lookups directory get (SessionCatalogAdapter.requestedIds query) (OMap.empty.addAll (·.id) shown)
  let rows ← sessions.values.mapM (row P active)
  let catalog : Catalog := ⟨decide (listed.length > limit), rows⟩
  if Contracts.sessionCatalogSchema.validate P.dateTime catalog.json then return catalog else throw .other

end

/-! ## Bodies of the API -/

/-- A member that may be left out, or `null`. -/
inductive Nullable {α : Type} (read : Json → Option α) : Option Json → Option α → Prop
  | absent {v : Option Json} (h : nonNullish v = false) : Nullable read v none
  | present {v : Json} {a : α} (h : read v = some a) : Nullable read (some v) (some a)

/-- A body that is the session. -/
structure Holds (v : Json) (s : Session) : Prop where
  id : chained (some v) "id" = some (.str s.id)
  directory : chained (chained (some v) "location") "directory" = some (.str s.directory)
  updated : (chained (chained (some v) "time") "updated").bind Json.int? = some s.updated
  parentID : Nullable Json.str? (chained (some v) "parentID") s.parentID
  archived : Nullable Json.int? (chained (chained (some v) "time") "archived") s.archived
  title : ∃ title, Nullable Json.str? (chained (some v) "title") title ∧ s.title = title.getD []

/-- The session as OpenCode 1 has it. -/
def plain (s : HostSession) : Session :=
  ⟨s.id, s.directory, s.parentID.bind Json.str?, s.title.str?.getD [], millis s.updated, s.archived.bind Json.int?⟩

/-- The members that are read are of their types. -/
structure Typed (s : HostSession) : Prop where
  title : ∃ title, s.title = .str title
  parentID : Nullable Json.str? s.parentID (s.parentID.bind Json.str?)
  archived : Nullable Json.int? s.archived (s.archived.bind Json.int?)

/-- What the filter shows. -/
def shows (directory : JsString) (s : Session) : Bool :=
  SessionCatalogAdapter.visible directory s && !isInternalSession (some s.title)

theorem Nullable.eq_bind {α : Type} {read : Json → Option α} (hnull : read .null = none)
    {v : Option Json} {a : Option α}
    (h : Nullable read v a) : a = v.bind read := by
  cases h with
  | @absent v h =>
    cases v with
    | none => rfl
    | some v =>
      cases v with
      | null => exact hnull.symm
      | _ => cases h
  | present h => exact h.symm

theorem millis_of_int {m e u : Int} (h : (Json.num m e).int? = some u) : millis (m, e) = u := by
  cases e with
  | ofNat e => exact Option.some.inj h
  | negSucc e =>
    rw [Json.int?] at h
    split at h
    · rename_i hdvd
      rw [millis, ← Option.some.inj h]
      exact Int.tdiv_eq_ediv_of_dvd (Int.dvd_of_emod_eq_zero hdvd)
    · cases h

theorem int_eq_zero {m e a : Int} (h : (Json.num m e).int? = some a) : a = 0 ↔ m = 0 := by
  have hpow : ∀ n : Nat, (10 : Int) ^ n ≠ 0 := fun n => pow_ne_zero n (by decide)
  cases e with
  | ofNat e =>
    rw [← Option.some.inj h, mul_eq_zero, or_iff_left (hpow e)]
  | negSucc e =>
    rw [Json.int?] at h
    split at h
    · rename_i hdvd
      rw [← Option.some.inj h]
      obtain ⟨k, rfl⟩ := Int.dvd_of_emod_eq_zero hdvd
      rw [Int.mul_ediv_cancel_left _ (hpow (e + 1)), mul_eq_zero, or_iff_right (hpow (e + 1))]
    · cases h

/-- A session is read from its body. -/
theorem hostSession_of_holds {v : Json} {s : Session} (h : Holds v s) :
    ∃ host, hostSession (some v) = .ok host ∧ Typed host ∧ plain host = s := by
  obtain ⟨id, directory, parentID, title, updated, archived⟩ := s
  obtain ⟨hid, hdirectory, hupdated, hparent, harchived, t, ht, htitle⟩ := h
  dsimp only at hid hdirectory hupdated hparent harchived htitle
  obtain ⟨number, hnumber, hint⟩ := Option.bind_eq_some_iff.mp hupdated
  obtain ⟨m, e, rfl⟩ : ∃ m e, number = .num m e := by
    cases number with
    | num m e => exact ⟨m, e, rfl⟩
    | _ => cases hint
  have hparent' := hparent.eq_bind rfl
  have harchived' := harchived.eq_bind rfl
  refine ⟨⟨id, chained (some v) "parentID", .str title, directory, (m, e),
    chained (chained (some v) "time") "archived"⟩, ?_, ?_, ?_⟩
  · unfold hostSession
    rw [hid, hdirectory, hnumber, htitle]
    generalize chained (some v) "title" = member at ht ⊢
    -- a title left out, or `null`, is the empty title
    cases ht with
    | absent hnull =>
      cases member with
      | none => rfl
      | some member =>
        cases member with
        | null => rfl
        | _ => cases hnull
    | @present member t hstr =>
      cases member with
      | str text =>
        obtain rfl : text = t := Option.some.inj hstr
        rfl
      | _ => cases hstr
  · exact ⟨⟨title, rfl⟩, hparent' ▸ hparent, harchived' ▸ harchived⟩
  · simp only [plain, ← hparent', ← harchived', millis_of_int hint, Json.str?, Option.getD_some]

/-! ## The filter -/

theorem truthy_text {v : Option Json} (h : Nullable Json.str? v (v.bind Json.str?)) :
    truthy v = !(v.bind Json.str?).all (· == []) := by
  cases v with
  | none => rfl
  | some v =>
    cases v with
    | null => rfl
    | str t => cases t <;> rfl
    | _ =>
      cases h with
      | absent h => cases h

theorem truthy_number {v : Option Json} (h : Nullable Json.int? v (v.bind Json.int?)) :
    truthy v = !(v.bind Json.int?).all (· == 0) := by
  cases v with
  | none => rfl
  | some v =>
    cases v with
    | null => rfl
    | num m e =>
      rw [Option.bind_some] at h ⊢
      cases hint : (Json.num m e).int? with
      | none =>
        rw [hint] at h
        cases h with
        | absent h => cases h
      | some a =>
        rw [Option.all_some, truthy, Bool.eq_iff_iff]
        simp [int_eq_zero hint]
    | _ =>
      cases h with
      | absent h => cases h

theorem visible_typed (directory : JsString) {s : HostSession} (h : Typed s) :
    visible directory s = .ok (shows directory (plain s)) := by
  obtain ⟨title, htitle⟩ := h.title
  unfold visible shows SessionCatalogAdapter.visible
  rw [truthy_text h.parentID, truthy_number h.archived, htitle]
  simp only [plain, htitle, Json.str?, Option.getD_some, Bool.not_eq_false']
  split
  · rename_i hshown
    obtain ⟨hdirectory, hparent, harchived⟩ := hshown
    simp only [hdirectory, hparent, harchived, beq_self_eq_true, Bool.and_self, Bool.true_and]
  · rename_i hhidden
    congr 1
    symm
    rw [Bool.and_eq_false_iff]
    refine Or.inl ?_
    rw [← Bool.not_eq_true]
    intro hall
    simp only [Bool.and_eq_true, beq_iff_eq] at hall
    exact hhidden ⟨hall.1.1, hall.1.2, hall.2⟩

theorem filterVisible_typed (directory : JsString) {l : List HostSession} (h : ∀ s ∈ l, Typed s) :
    filterVisible directory l = .ok (l.filter fun s => shows directory (plain s)) := by
  induction l with
  | nil => rfl
  | cons s l ih =>
    rw [filterVisible, visible_typed directory (h s List.mem_cons_self),
      ih fun t ht => h t (List.mem_cons_of_mem _ ht), List.filter_cons]
    rfl

/-! ## The page -/

/-- The answers to the list, alike. -/
inductive SameList : ListAnswer → Except Thrown Json → Prop
  | failed {answer : ListAnswer} {thrown : Thrown} (h : SharedCatalog.listed answer = none) :
    SameList answer (.error thrown)
  | listed {data : List Session} {bodies : List Json} {v : Json} (hdata : chained (some v) "data" = some (.arr bodies))
      (h : List.Forall₂ Holds bodies data) : SameList (.listed data) (.ok v)

theorem property_of_chained {v w : Json} {name : String} (h : chained (some v) name = some w) :
    property (some v) name = .ok (some w) := by
  cases v with
  | obj ms =>
    rw [property, h]
    rfl
  | _ => cases h

theorem hostSessions_of_holds {bodies : List Json} {data : List Session} (h : List.Forall₂ Holds bodies data) :
    ∃ hosts, bodies.mapM (fun session => hostSession (some session)) = .ok hosts ∧ (∀ s ∈ hosts, Typed s) ∧
      hosts.map plain = data := by
  induction h with
  | nil => exact ⟨[], rfl, nofun, rfl⟩
  | cons hbody _ ih =>
    obtain ⟨host, hhost, htyped, hplain⟩ := hostSession_of_holds hbody
    obtain ⟨hosts, hhosts, hall, hmap⟩ := ih
    refine ⟨host :: hosts, ?_, List.forall_mem_cons.mpr ⟨htyped, hall⟩, by rw [List.map_cons, hplain, hmap]⟩
    rw [List.mapM_cons, hhost, hhosts]
    rfl

theorem listedSessions_of_listed {data : List Session} {bodies : List Json} {v : Json}
    (hdata : chained (some v) "data" = some (.arr bodies))
    (h : List.Forall₂ Holds bodies data) :
    ∃ hosts, listedSessions (.ok v) = .ok hosts ∧ (∀ s ∈ hosts, Typed s) ∧ hosts.map plain = data := by
  obtain ⟨hosts, hhosts, hrest⟩ := hostSessions_of_holds h
  refine ⟨hosts, ?_, hrest⟩
  rw [← hhosts]
  change (property (some v) "data" >>= _) = _
  rw [property_of_chained hdata]
  rfl

/-! ## The bookmarks -/

/-- The answers to a lookup, alike. -/
inductive SameGet : GetAnswer → Except Thrown Json → Prop
  | missing (data : Option Session) (error : Bool) (tag : Option Json) :
    SameGet (.resolved 404 data error) (.error (.api 404 tag))
  | found {status : Nat} {s : Session} {v body : Json} (hstatus : status ≠ 404)
    (hdata : chained (some v) "data" = some body)
      (hbody : Holds body s) : SameGet (.resolved status (some s) false) (.ok v)
  | failed {answer : GetAnswer} {thrown : Thrown} (hfailed : SessionCatalogAdapter.failed answer = true)
      (hthrown : notFound thrown = false) : SameGet answer (.error thrown)

/-- What a bookmark brings to the map. -/
def brings (directory : JsString) (get : JsString → Except Thrown Json) (id : JsString) : Option (Option HostSession) :=
  match lookup directory get id with
  | .ok s => some s
  | .error thrown => if notFound thrown then some none else none

theorem lookups_toOption (directory : JsString) (get : JsString → Except Thrown Json) (ids : List JsString)
    (m : OMap JsString HostSession) :
    (lookups directory get ids m).toOption = m.fill (brings directory get) ids := by
  induction ids generalizing m with
  | nil => rfl
  | cons id ids ih =>
    by_cases hid : id ∈ m.keys
    · rw [lookups, if_pos (OMap.has_eq_true.mpr hid), ih, OMap.fill_cons_of_mem hid]
    · rw [lookups, if_neg fun h => hid (OMap.has_eq_true.mp h), OMap.fill_cons_of_not_mem hid, brings]
      cases lookup directory get id with
      | error thrown =>
        dsimp only
        by_cases hthrown : notFound thrown = true
        · rw [if_pos hthrown, if_pos hthrown, ih]
          rfl
        · rw [if_neg hthrown, if_neg hthrown]
          rfl
      | ok found =>
        cases found with
        | none => exact ih m
        | some s => exact ih (m.set id s)

/-- Alike answers bring the same session, and a typed one. -/
theorem brings_same {directory : JsString} {get : JsString → GetAnswer} {get' : JsString → Except Thrown Json}
    {id : JsString}
    (hsame : SameGet (get id) (fetched get' id))
    (hown : ∀ s, SessionCatalogAdapter.found (get id) = some s → s.id = id) :
    (brings directory get' id).map (Option.map plain) = SharedCatalog.find (shows directory) get id ∧
      ∀ s, brings directory get' id = some (some s) → Typed s := by
  unfold brings lookup SharedCatalog.find
  generalize hanswer : get id = answer at hsame hown ⊢
  generalize fetched get' id = body at hsame ⊢
  cases hsame with
  | missing data error tag =>
    refine ⟨?_, fun s h => ?_⟩
    · cases data <;> cases error <;> rfl
    · cases h
  | failed hfailed hthrown =>
    rw [if_pos hfailed]
    dsimp only [bind, Except.bind]
    rw [hthrown]
    exact ⟨rfl, (by rintro _ ⟨⟩)⟩
  | @found status s v data hstatus hdata hbody =>
    obtain ⟨host, hhost, htyped, rfl⟩ := hostSession_of_holds hbody
    have hid : host.id = id := hown (plain host) (by simp [SessionCatalogAdapter.found, hstatus])
    have hread : readSession directory id v =
        if host.id ≠ id ∨ host.directory ≠ directory then .error (.api 404 (some (.str (js "SessionNotFoundError"))))
          else .ok host := by
      unfold readSession
      rw [property_of_chained hdata]
      dsimp only [bind, Except.bind]
      rw [hhost]
      dsimp only
      split <;> rfl
    have hfailed : SessionCatalogAdapter.failed (.resolved status (some (plain host)) false) = false := by
      simp [SessionCatalogAdapter.failed]
    have hfound : SessionCatalogAdapter.found (.resolved status (some (plain host)) false) = some (plain host) := by
      simp [SessionCatalogAdapter.found, hstatus]
    rw [hfailed, hfound, if_neg Bool.false_ne_true, Option.filter_some]
    dsimp only [bind, Except.bind]
    rw [hread]
    by_cases hdirectory : host.directory = directory
    · rw [if_neg (by simp [hid, hdirectory])]
      dsimp only
      rw [visible_typed directory htyped]
      dsimp only [pure, Except.pure]
      split
      · refine ⟨rfl, fun s hs => ?_⟩
        cases hs
        exact htyped
      · exact ⟨rfl, (by rintro _ ⟨⟩)⟩
    · -- a session of another directory is none, to both
      have hhidden : shows directory (plain host) = false := by
        simp [shows, SessionCatalogAdapter.visible, plain, hdirectory]
      rw [if_pos (Or.inr hdirectory), hhidden]
      exact ⟨rfl, (by rintro _ ⟨⟩)⟩

/-! ## The catalog -/

/-- The record of the active sessions, where the call resolves to anything. -/
def ActiveBody (active : Except Thrown Json) : Prop :=
  ∀ v, active = .ok v → truthy (some v) = true → ∃ ms, chained (some v) "data" = some (.obj ms)

theorem exists_status {active : Except Thrown Json} (h : ActiveBody active) :
    ∃ status : JsString → JsString, (∀ id, SharedCatalog.StatusText (status id)) ∧ ∀ id,
    activeStatus active id = .ok (status id) := by
  have unknown : ∀ _ : JsString, SharedCatalog.StatusText (js "unknown") := fun _ => Or.inr (Or.inr (Or.inr rfl))
  cases active with
  | error thrown => exact ⟨fun _ => js "unknown", unknown, fun _ => rfl⟩
  | ok v =>
    by_cases hv : truthy (some v) = true
    · obtain ⟨ms, hms⟩ := h v rfl hv
      refine ⟨fun id => if truthy ((ms.find? (·.1 = id)).map (·.2)) then js "busy"
        else js "idle", fun id => ?_, fun id => ?_⟩
      · dsimp only
        split
        · exact Or.inr (Or.inl rfl)
        · exact Or.inl rfl
      · unfold activeStatus
        dsimp only
        rw [if_pos hv, hms]
    · refine ⟨fun _ => js "unknown", unknown, fun id => ?_⟩
      unfold activeStatus
      dsimp only
      rw [if_neg hv]

theorem row_typed (P : CatalogPlatform) {active : Except Thrown Json} {status : JsString → JsString}
    (hstatus : ∀ id, activeStatus active id = .ok (status id)) {s : HostSession} (h : Typed s) :
    (row P active s).toOption = SharedCatalog.rendered P status (plain s) := by
  obtain ⟨title, htitle⟩ := h.title
  unfold row SharedCatalog.rendered plain
  rw [htitle]
  dsimp only
  cases P.toISOString (millis s.updated) with
  | none => rfl
  | some updatedAt =>
    dsimp only
    rw [hstatus]
    rfl

theorem toOption_bind {α β : Type} (x : Except Thrown α) (f : α → Except Thrown β) :
    (x >>= f).toOption = x.toOption.bind fun a => (f a).toOption := by
  cases x <;> rfl

theorem rows_typed (P : CatalogPlatform) {active : Except Thrown Json} {status : JsString → JsString}
    (hstatus : ∀ id, activeStatus active id = .ok (status id)) {l : List HostSession} (h : ∀ s ∈ l, Typed s) :
    (l.mapM (row P active)).toOption = (l.map plain).mapM (SharedCatalog.rendered P status) := by
  induction l with
  | nil => rfl
  | cons s l ih =>
    rw [List.mapM_cons, List.map_cons, List.mapM_cons, toOption_bind, row_typed P hstatus (h s List.mem_cons_self)]
    refine Option.bind_congr fun r _ => ?_
    rw [toOption_bind, ih fun t ht => h t (List.mem_cons_of_mem _ ht)]
    rfl

/-- The sessions of alike answers are the same, and typed. -/
theorem sessions_same (directory : JsString) (limit : Nat) (ids : List JsString) {get : JsString → GetAnswer}
    {get' : JsString → Except Thrown Json} {hosts : List HostSession} (htyped : ∀ s ∈ hosts, Typed s)
    (hget : ∀ id, SameGet (get id) (fetched get' id))
    (hown : ∀ id s, SessionCatalogAdapter.found (get id) = some s → s.id = id) :
    ∃ sessions : Option (OMap JsString HostSession),
      (lookups directory get' ids
        (OMap.empty.addAll (·.id) ((hosts.take limit).filter fun s => shows directory (plain s)))).toOption =
        sessions ∧
      sessions.map (OMap.map plain) = SharedCatalog.merged (shows directory) get limit ids (hosts.map plain) ∧
      ∀ m, sessions = some m → ∀ s ∈ m.values, Typed s := by
  have hfind : (fun id => (brings directory get' id).map (Option.map plain)) = SharedCatalog.find
    (shows directory) get :=
    funext fun id => (brings_same (hget id) (hown id)).1
  have hpage : ∀ l : List HostSession,
      (OMap.empty.addAll (·.id) l).map plain = (OMap.empty.map plain).addAll (·.id) (l.map plain) :=
    fun l => OMap.map_addAll plain (·.id) (·.id) (fun _ => rfl) l OMap.empty
  refine ⟨_, lookups_toOption directory get' ids _, ?_, fun m hm s hs => ?_⟩
  · rw [OMap.map_fill, hfind, SharedCatalog.merged, SharedCatalog.pageOf, hpage, ← List.map_take, List.filter_map]
    rfl
  · obtain ⟨k, hk⟩ := OMap.mem_values.mp hs
    rcases (OMap.get_fill hm k s).mp hk with hk | ⟨-, -, hk⟩
    · rcases OMap.get_addAll hk with hk | ⟨hmem, -⟩
      · cases hk
      · exact htyped s (List.mem_of_mem_take (List.mem_filter.mp hmem).1)
    · exact (brings_same (hget k) (hown k)).2 s hk

/-- The catalog of alike answers: that of the same sessions, with a filter of its own. -/
theorem catalog_eq (P : CatalogPlatform) (directory : JsString) (query : Control.SessionCatalogQuery)
    {answer : ListAnswer}
    {get : JsString → GetAnswer} {page active : Except Thrown Json} {get' : JsString → Except Thrown Json}
    {status : JsString → JsString}
    (hlist : SameList answer page) (hget : ∀ id, SameGet (get id) (fetched get' id))
    (hown : ∀ id s, SessionCatalogAdapter.found (get id) = some s → s.id = id)
    (hstatus : ∀ id, activeStatus active id = .ok (status id)) :
    (catalog P directory get' query page active).toOption =
      (SharedCatalog.listed answer).bind (SharedCatalog.built P (shows directory) get status query) := by
  cases hlist with
  | failed h =>
    rw [h]
    rfl
  | @listed data bodies v hdata hbodies =>
    obtain ⟨hosts, hhosts, htyped, rfl⟩ := listedSessions_of_listed hdata hbodies
    obtain ⟨sessions, hsessions, hmap, hall⟩ := sessions_same directory (query.limit.getD 50)
      (SessionCatalogAdapter.requestedIds query) htyped hget hown
    unfold catalog
    rw [hhosts, toOption_bind, SharedCatalog.listed, Except.toOption, Option.bind_some, Option.bind_some, toOption_bind,
      filterVisible_typed directory fun s hs => htyped s (List.mem_of_mem_take hs), Except.toOption,
      Option.bind_some, toOption_bind,
      hsessions, SharedCatalog.built, ← hmap, Option.bind_map]
    refine Option.bind_congr fun m hm => ?_
    rw [toOption_bind, rows_typed P hstatus (hall m hm)]
    dsimp only [Function.comp]
    rw [OMap.values_map, List.length_map]
    refine Option.bind_congr fun rows _ => ?_
    split <;> rfl

end NotifyHub.Plugin.V2Catalog
