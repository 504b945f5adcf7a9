/-
  NotifyHub.Plugin.Summaries — which text becomes a summary.

  A history is the role and text events of all sessions and messages, with the session
  clears. `TextAt` and `RoleAt` name the last accepted text of a message and its last
  role event; `Kept` says that the cache has held the record since.

  Proved (`summary_is_the_latest_reply`): after every history the summary of a session
  is the text of the message that `Speaks` (its last role is the assistant's, no user
  role since its text, both kept, the text not blank) and was active last; and the
  three bounds hold. A role that was evicted is forgotten: a message whose text came
  after that is silent though its last role was the assistant's
  (`forgotten_role_is_silent`).
-/

import NotifyHub.Lib.Run
import NotifyHub.Plugin.MessageCache
import Mathlib.Data.List.Induction

namespace NotifyHub.Plugin

inductive CacheEvent where
  | role (sessionID messageID : JsString) (role : Role)
  | text (sessionID messageID text : JsString)
  | clearSession (sessionID : JsString)
  | clear
  deriving DecidableEq

/-- A role or text event of the message. -/
def CacheEvent.touches (e : CacheEvent) (s m : JsString) : Prop :=
  match e with
  | .role s' m' _ | .text s' m' _ => s' = s ∧ m' = m
  | _ => False

instance : ∀ (e : CacheEvent) (s m : JsString), Decidable (e.touches s m)
  | .role s' m' _, s, m | .text s' m' _, s, m => inferInstanceAs (Decidable (s' = s ∧ m' = m))
  | .clearSession _, _, _ | .clear, _, _ => inferInstanceAs (Decidable False)

namespace MessageCache

variable (B : CacheBounds)

def apply (c : MessageCache) : CacheEvent → MessageCache
  | .role s m r => c.onRole B s m r
  | .text s m x => c.onText B s m x
  | .clearSession s => c.clearSession s
  | .clear => clear

abbrev run (h : List CacheEvent) : MessageCache := runFrom (apply B) .empty h

def recordOf (c : MessageCache) (s m : JsString) : Option MessageRecord := (c.sessions.get s).bind (·.get m)

/-! ## What a history says of a message -/

/-- The text is not dropped: the message is not known as a user's. -/
def Accepted (h : List CacheEvent) (s m : JsString) : Prop := (recordOf (run B h) s m).bind (·.role) ≠ some .user

/-- The message's last role event stands between `before` and `rest`. -/
structure RoleAt (h : List CacheEvent) (s m : JsString) (r : Role) (before rest : List CacheEvent) : Prop where
  split : h = before ++ .role s m r :: rest
  last : ∀ r', .role s m r' ∉ rest

/-- The message's last accepted text stands there, and no user role has come since. -/
structure TextAt (h : List CacheEvent) (s m x : JsString) (before rest : List CacheEvent) : Prop where
  split : h = before ++ .text s m x :: rest
  accepted : Accepted B before s m
  last : ∀ mid y after, rest = mid ++ .text s m y :: after → ¬ Accepted B (before ++ .text s m x :: mid) s m
  noUser : .role s m .user ∉ rest

/-- The cache holds the message's record from the end of `before` to the end of `rest`. -/
def Kept (before rest : List CacheEvent) (s m : JsString) : Prop :=
  ∀ mid, mid <+: rest → (recordOf (run B (before ++ mid)) s m).isSome

def RoleSince (h : List CacheEvent) (s m : JsString) (r : Role) : Prop :=
  ∃ before rest, RoleAt h s m r before rest ∧ Kept B (before ++ [.role s m r]) rest s m

def TextSince (h : List CacheEvent) (s m t : JsString) : Prop := ∃ x before rest,
  TextAt B h s m x before rest ∧ Kept B (before ++ [.text s m x]) rest s m ∧ t = truncateCodePoints x B.maxTextLength

/-- The message's text may be a summary. -/
structure Speaks (h : List CacheEvent) (s m t : JsString) : Prop where
  role : RoleSince B h s m .assistant
  text : TextSince B h s m t
  notBlank : 0 < (trim t).length

/-- The last event of `a` comes after every event of `b`. -/
def Later (h : List CacheEvent) (s a b : JsString) : Prop :=
  ∃ before e rest, h = before ++ e :: rest ∧ e.touches s a ∧ ∀ e' ∈ rest, ¬ e'.touches s b

variable {B}

/-! ## One record -/

/-- What an event writes to the record it touches. -/
def write (B : CacheBounds) (e : CacheEvent) (r : MessageRecord) : MessageRecord :=
  match e with
  | .role _ _ role => ⟨some role, if role = .user then none else r.text⟩
  | .text _ _ x => if r.role = some .user then r else { r with text := some (truncateCodePoints x B.maxTextLength) }
  | _ => r

def blank : MessageRecord := ⟨none, none⟩

/-- A session's records after one of them is touched and written. -/
def touched (B : CacheBounds) (records : OMap JsString MessageRecord) (m : JsString)
    (f : MessageRecord → MessageRecord) :
    OMap JsString MessageRecord :=
  (touch B records m).set m (f (((touch B records m).get m).getD ⟨none, none⟩))

theorem not_mem_keys_delete {α : Type} (records : OMap JsString α) (m : JsString) : m ∉ (records.delete m).keys :=
  OMap.get_eq_none.mp (OMap.get_delete_self records m)

theorem get_touch_self (records : OMap JsString MessageRecord) (m : JsString) :
    (touch B records m).get m = some ((records.get m).getD blank) :=
  OMap.get_set_evict_self (not_mem_keys_delete records m) B.messages_pos

theorem get_touched_self (records : OMap JsString MessageRecord) (m : JsString) (f : MessageRecord → MessageRecord) :
    (touched B records m f).get m = some (f ((records.get m).getD blank)) := by
  rw [touched, OMap.get_set_self, get_touch_self]; rfl

theorem get_touched_ne (records : OMap JsString MessageRecord) {m m' : JsString} (f : MessageRecord → MessageRecord)
    (h : m' ≠ m) : (touched B records m f).get m' = records.get m' ∨ (touched B records m f).get m' = none := by
  rw [touched, OMap.get_set_ne _ _ h, touch]
  rw [OMap.get_evict]
  split
  · exact Or.inr rfl
  · rw [OMap.get_set_ne _ _ h, OMap.get_delete_ne _ h]
    exact Or.inl rfl

theorem keys_touch (records : OMap JsString MessageRecord) (m : JsString) :
    (touch B records m).keys.Sublist ((records.keys.filter (· ≠ m)) ++ [m]) := by
  have hdelete : (records.delete m).keys = records.keys.filter (· ≠ m) := by
    rw [OMap.keys, OMap.delete, OMap.entries_filter, OMap.keys, List.filter_map]; rfl
  rw [← hdelete, ← OMap.keys_set_of_not_mem ((records.get m).getD ⟨none, none⟩) (not_mem_keys_delete records m)]
  exact (List.drop_sublist _ _).map _

theorem keys_touched (records : OMap JsString MessageRecord) (m : JsString) (f : MessageRecord → MessageRecord) :
    (touched B records m f).keys = (touch B records m).keys :=
  OMap.keys_set_of_mem _ (OMap.mem_keys.mpr ⟨_, get_touch_self records m⟩)

theorem size_touched (records : OMap JsString MessageRecord) (m : JsString) (f : MessageRecord → MessageRecord) :
    (touched B records m f).size ≤ B.maxMessagesPerSession := by
  have hsize : ∀ o : OMap JsString MessageRecord, o.size = o.keys.length := fun o => (List.length_map _).symm
  rw [hsize, keys_touched, ← hsize, touch]
  rw [OMap.size_evict]
  omega

/-! ## The sessions -/

theorem get_recordsFor_self (c : MessageCache) (s : JsString) :
    (c.recordsFor B s).sessions.get s = some ((c.sessions.get s).getD .empty) := by
  unfold recordsFor
  split
  · rename_i h
    obtain ⟨records, hr⟩ := OMap.mem_keys.mp (OMap.has_eq_true.mp h)
    rw [hr]; rfl
  · rename_i h
    have hk : s ∉ c.sessions.keys := fun hk => h (OMap.has_eq_true.mpr hk)
    rw [OMap.get_eq_none.mpr hk]
    exact OMap.get_set_evict_self hk B.sessions_pos

theorem get_recordsFor_ne (c : MessageCache) {s s' : JsString} (h : s' ≠ s) :
    (c.recordsFor B s).sessions.get s' = c.sessions.get s' ∨ (c.recordsFor B s).sessions.get s' = none := by
  unfold recordsFor
  split
  · exact Or.inl rfl
  · rw [OMap.get_evict]
    split
    · exact Or.inr rfl
    · exact Or.inl (OMap.get_set_ne _ _ h)

theorem get_record_self (c : MessageCache) (s m : JsString) (f : MessageRecord → MessageRecord) :
    (c.record B s m f).sessions.get s = some (touched B ((c.sessions.get s).getD .empty) m f) := by
  unfold record
  rw [OMap.get_set_self, get_recordsFor_self]; rfl

theorem get_record_ne (c : MessageCache) {s s' : JsString} (m : JsString) (f : MessageRecord → MessageRecord)
    (h : s' ≠ s) :
    (c.record B s m f).sessions.get s' = c.sessions.get s' ∨ (c.record B s m f).sessions.get s' = none := by
  unfold record
  rw [OMap.get_set_ne _ _ h]
  exact get_recordsFor_ne c h

theorem size_record (c : MessageCache) (s m : JsString) (f : MessageRecord → MessageRecord)
    (h : c.sessions.size ≤ B.maxSessions) : (c.record B s m f).sessions.size ≤ B.maxSessions := by
  have hfor : (c.recordsFor B s).sessions.size ≤ B.maxSessions := by
    unfold recordsFor
    split
    · exact h
    · rw [OMap.size_evict]; omega
  have hsize : ∀ o : OMap JsString (OMap JsString MessageRecord), o.size = o.keys.length :=
    fun o => (List.length_map _).symm
  unfold record
  rw [hsize, OMap.keys_set_of_mem _ (OMap.mem_keys.mpr ⟨_, get_recordsFor_self c s⟩), ← hsize]
  exact hfor

/-- An event touches one message of its session, or leaves a session as it is or drops it. -/
theorem get_apply (c : MessageCache) (e : CacheEvent) (s : JsString) :
    (∃ m, e.touches s m ∧
      (apply B c e).sessions.get s = some (touched B ((c.sessions.get s).getD .empty) m (write B e))) ∨
    ((∀ m, ¬ e.touches s m) ∧
      ((apply B c e).sessions.get s = c.sessions.get s ∨ (apply B c e).sessions.get s = none)) := by
  cases e with
  | role s' m r =>
    by_cases h : s' = s
    · exact Or.inl ⟨m, ⟨h, rfl⟩, by subst h; exact get_record_self ..⟩
    · exact Or.inr ⟨fun _ ht => h ht.1, get_record_ne c m _ fun he => h he.symm⟩
  | text s' m x =>
    by_cases h : s' = s
    · exact Or.inl ⟨m, ⟨h, rfl⟩, by subst h; exact get_record_self ..⟩
    · exact Or.inr ⟨fun _ ht => h ht.1, get_record_ne c m _ fun he => h he.symm⟩
  | clearSession s' =>
    refine Or.inr ⟨fun _ => id, ?_⟩
    rw [apply, clearSession, OMap.get_delete]
    split
    · exact Or.inr rfl
    · exact Or.inl rfl
  | clear => exact Or.inr ⟨fun _ => id, Or.inr rfl⟩

theorem touches_inj {e : CacheEvent} {s m m' : JsString} (h : e.touches s m) (h' : e.touches s m') : m = m' := by
  cases e with
  | role => exact h.2.symm.trans h'.2
  | text => exact h.2.symm.trans h'.2
  | _ => exact h.elim

theorem recordOf_touched (c : MessageCache) {e : CacheEvent} {s m : JsString} (h : e.touches s m) :
    recordOf (apply B c e) s m = some (write B e ((recordOf c s m).getD blank)) := by
  rcases get_apply (B := B) c e s with ⟨m', ht, hg⟩ | ⟨hn, -⟩
  · obtain rfl := touches_inj h ht
    rw [recordOf, hg]
    refine (get_touched_self _ m _).trans ?_
    rw [recordOf]
    cases c.sessions.get s <;> rfl
  · exact absurd h (hn m)

theorem recordOf_other (c : MessageCache) {e : CacheEvent} {s m : JsString} (h : ¬ e.touches s m) :
    recordOf (apply B c e) s m = recordOf c s m ∨ recordOf (apply B c e) s m = none := by
  rcases get_apply (B := B) c e s with ⟨m', ht, hg⟩ | ⟨-, hg | hg⟩
  · have hne : m ≠ m' := fun he => h (he ▸ ht)
    rw [recordOf, recordOf, hg]
    refine (get_touched_ne _ _ hne).imp_left fun hsame => hsame.trans ?_
    cases c.sessions.get s <;> rfl
  · rw [recordOf, recordOf, hg]; exact Or.inl rfl
  · rw [recordOf, recordOf, hg]; exact Or.inr rfl

/-! ## Histories -/

theorem run_snoc (h : List CacheEvent) (e : CacheEvent) : run B (h ++ [e]) = apply B (run B h) e := by
  rw [run, runFrom_append]; rfl

theorem kept_nil {before : List CacheEvent} {s m : JsString} :
    Kept B before [] s m ↔ (recordOf (run B before) s m).isSome := by
  constructor
  · intro h
    have hk := h [] (List.prefix_refl _)
    rwa [List.append_nil] at hk
  · intro h mid hmid
    rw [List.prefix_nil.mp hmid, List.append_nil]
    exact h

theorem kept_snoc {before rest : List CacheEvent} {e : CacheEvent} {s m : JsString} :
    Kept B before (rest ++ [e]) s m ↔ Kept B before rest s m ∧
      (recordOf (run B (before ++ (rest ++ [e]))) s m).isSome := by
  constructor
  · exact fun h => ⟨fun mid hmid => h mid (hmid.trans (List.prefix_append _ _)), h _ (List.prefix_refl _)⟩
  · rintro ⟨hrest, hlast⟩ mid hmid
    rcases List.prefix_concat_iff.mp hmid with rfl | hmid
    · exact hlast
    · exact hrest mid hmid

theorem roleSince_snoc {h : List CacheEvent} {e : CacheEvent} {s m : JsString} {r : Role} :
    RoleSince B (h ++ [e]) s m r ↔ e = .role s m r ∨
      (RoleSince B h s m r ∧ (∀ r', e ≠ .role s m r') ∧ (recordOf (run B (h ++ [e])) s m).isSome) := by
  constructor
  · rintro ⟨before, rest, ⟨hsplit, hlast⟩, hkept⟩
    rcases List.eq_nil_or_concat rest with rfl | ⟨rest, z, rfl⟩
    · obtain ⟨-, he⟩ := List.append_inj' hsplit rfl
      exact Or.inl (List.singleton_injective he)
    · rw [List.concat_eq_append] at *
      obtain ⟨hk, hheld⟩ := kept_snoc.mp hkept
      rw [← List.cons_append, ← List.append_assoc] at hsplit
      obtain ⟨rfl, he⟩ := List.append_inj' hsplit rfl
      cases he
      refine Or.inr ⟨⟨before, rest, ⟨rfl, fun r' hr' => hlast r' (List.mem_append_left _ hr')⟩, hk⟩, ?_, ?_⟩
      · exact fun r' hr' => hlast r' (by rw [hr']; simp)
      · rw [List.append_assoc, List.singleton_append] at hheld
        rw [List.append_assoc, List.cons_append]
        exact hheld
  · rintro (rfl | ⟨⟨before, rest, ⟨rfl, hlast⟩, hkept⟩, hne, hheld⟩)
    · refine ⟨h, [], ⟨rfl, fun _ => nofun⟩, kept_nil.mpr ?_⟩
      rw [run_snoc, recordOf_touched (s := s) (m := m) (e := .role s m r) _ ⟨rfl, rfl⟩]; rfl
    · refine ⟨before, rest ++ [e], ⟨by simp, fun r' hr' => ?_⟩, kept_snoc.mpr ⟨hkept, ?_⟩⟩
      · rcases List.mem_append.mp hr' with hr' | hr'
        · exact hlast r' hr'
        · exact hne r' (List.mem_singleton.mp hr').symm
      · rw [List.append_assoc, List.singleton_append]
        rwa [List.append_assoc, List.cons_append] at hheld

theorem textSince_snoc {h : List CacheEvent} {e : CacheEvent} {s m t : JsString} :
    TextSince B (h ++ [e]) s m t ↔
      (∃ x, e = .text s m x ∧ Accepted B h s m ∧ t = truncateCodePoints x B.maxTextLength) ∨
      (TextSince B h s m t ∧ ((∃ x, e = .text s m x) → ¬ Accepted B h s m) ∧ e ≠ .role s m .user ∧
        (recordOf (run B (h ++ [e])) s m).isSome) := by
  constructor
  · rintro ⟨x, before, rest, ⟨hsplit, hacc, hlast, huser⟩, hkept, rfl⟩
    rcases List.eq_nil_or_concat rest with rfl | ⟨rest, z, rfl⟩
    · obtain ⟨rfl, he⟩ := List.append_inj' hsplit rfl
      exact Or.inl ⟨x, List.singleton_injective he, hacc, rfl⟩
    · rw [List.concat_eq_append] at *
      obtain ⟨hk, hheld⟩ := kept_snoc.mp hkept
      rw [← List.cons_append, ← List.append_assoc] at hsplit
      obtain ⟨rfl, he⟩ := List.append_inj' hsplit rfl
      cases he
      refine Or.inr ⟨⟨x, before, rest, ⟨rfl, hacc, ?_, fun hu => huser (List.mem_append_left _ hu)⟩, hk, rfl⟩,
        ?_, ?_, ?_⟩
      · intro mid y after hm
        exact hlast mid y (after ++ [e]) (by rw [hm]; simp)
      · rintro ⟨y, rfl⟩
        exact hlast rest y [] rfl
      · exact fun hu => huser (by rw [hu]; simp)
      · rw [List.append_assoc, List.singleton_append] at hheld
        rw [List.append_assoc, List.cons_append]
        exact hheld
  · rintro (⟨x, rfl, hacc, rfl⟩ | ⟨⟨x, before, rest, ⟨rfl, hacc, hlast, huser⟩, hkept, rfl⟩, hne, hu, hheld⟩)
    · refine ⟨x, h, [], ⟨rfl, hacc, ?_, nofun⟩, kept_nil.mpr ?_, rfl⟩
      · intro mid y after hm
        cases mid <;> cases hm
      · rw [run_snoc, recordOf_touched (s := s) (m := m) (e := .text s m x) _ ⟨rfl, rfl⟩]; rfl
    · refine ⟨x, before, rest ++ [e], ⟨by simp, hacc, ?_, fun hmem => ?_⟩, kept_snoc.mpr ⟨hkept, ?_⟩, rfl⟩
      · intro mid y after hm
        rcases List.eq_nil_or_concat after with rfl | ⟨after, z, rfl⟩
        · obtain ⟨rfl, he⟩ := List.append_inj' hm rfl
          exact hne ⟨y, List.singleton_injective he⟩
        · rw [List.concat_eq_append, ← List.cons_append, ← List.append_assoc] at hm
          exact hlast mid y after (List.append_inj' hm rfl).1
      · rcases List.mem_append.mp hmem with hmem | hmem
        · exact huser hmem
        · exact hu (List.mem_singleton.mp hmem).symm
      · rw [List.append_assoc, List.singleton_append]
        rwa [List.append_assoc, List.cons_append] at hheld

/-- The record's role is the last one since it was made. -/
theorem role_iff {h : List CacheEvent} {s m : JsString} {r : Role} :
    (recordOf (run B h) s m).bind (·.role) = some r ↔ RoleSince B h s m r := by
  induction h using List.reverseRecOn with
  | nil => exact iff_of_false nofun fun ⟨before, _, ⟨hsplit, _⟩, _⟩ => by cases before <;> cases hsplit
  | append_singleton h e ih =>
    rw [roleSince_snoc, ← ih, run_snoc]
    by_cases ht : e.touches s m
    · have hrec := recordOf_touched (B := B) (run B h) ht
      rw [hrec]
      cases e with
      | role s' m' r' =>
        obtain ⟨rfl, rfl⟩ := ht
        simp [write]
      | text s' m' x =>
        have hrole : (write B (.text s' m' x) ((recordOf (run B h) s m).getD blank)).role =
            (recordOf (run B h) s m).bind (·.role) := by
          unfold write
          cases recordOf (run B h) s m <;> dsimp only <;> split <;> rfl
        simp only [Option.bind_some, hrole]
        simp
      | _ => exact ht.elim
    · have hne : ∀ r', e ≠ .role s m r' := fun r' he => ht (he ▸ ⟨rfl, rfl⟩)
      rcases recordOf_other (B := B) (run B h) ht with hrec | hrec
      · rw [hrec]
        constructor
        · intro hr
          refine Or.inr ⟨hr, hne, ?_⟩
          cases hrec' : recordOf (run B h) s m with
          | none => rw [hrec'] at hr; cases hr
          | some _ => rfl
        · rintro (he | ⟨hr, -, -⟩)
          · exact absurd he (hne r)
          · exact hr
      · rw [hrec]
        exact iff_of_false nofun fun h => h.elim (hne r) fun h => by cases h.2.2

/-- The record's text is the last one accepted since it was made. -/
theorem text_iff {h : List CacheEvent} {s m t : JsString} :
    (recordOf (run B h) s m).bind (·.text) = some t ↔ TextSince B h s m t := by
  induction h using List.reverseRecOn with
  | nil => exact iff_of_false nofun fun ⟨_, before, _, ⟨hsplit, _, _, _⟩, _⟩ => by cases before <;> cases hsplit
  | append_singleton h e ih =>
    rw [textSince_snoc, ← ih, run_snoc]
    by_cases ht : e.touches s m
    · have hrec := recordOf_touched (B := B) (run B h) ht
      rw [hrec]
      cases e with
      | role s' m' r' =>
        obtain ⟨rfl, rfl⟩ := ht
        cases hr : recordOf (run B h) s' m' <;> cases r' <;> simp [write, blank]
      | text s' m' x =>
        obtain ⟨rfl, rfl⟩ := ht
        unfold Accepted
        cases hr : recordOf (run B h) s' m' with
        | none => simp [write, blank, eq_comm]
        | some y =>
          by_cases hu : y.role = some .user
          · simp [write, hu]
          · simp [write, hu, eq_comm]
      | _ => exact ht.elim
    · have hne : ∀ x, e ≠ .text s m x := fun x he => ht (he ▸ ⟨rfl, rfl⟩)
      have hu : e ≠ .role s m .user := fun he => ht (he ▸ ⟨rfl, rfl⟩)
      rcases recordOf_other (B := B) (run B h) ht with hrec | hrec
      · rw [hrec]
        constructor
        · intro hr
          refine Or.inr ⟨hr, fun ⟨x, hx⟩ => absurd hx (hne x), hu, ?_⟩
          cases hrec' : recordOf (run B h) s m with
          | none => rw [hrec'] at hr; cases hr
          | some _ => rfl
        · rintro (⟨x, he, -⟩ | ⟨hr, -⟩)
          · exact absurd he (hne x)
          · exact hr
      · rw [hrec]
        exact iff_of_false nofun fun h => h.elim (fun ⟨x, hx, _⟩ => hne x hx) fun h => by cases h.2.2.2

/-! ## Order of activity -/

theorem Later.snoc {h : List CacheEvent} {e : CacheEvent} {s a b : JsString} (hl : Later h s a b)
    (he : ¬ e.touches s b) :
    Later (h ++ [e]) s a b := by
  obtain ⟨before, x, rest, rfl, hx, hrest⟩ := hl
  refine ⟨before, x, rest ++ [e], by simp, hx, fun e' he' => ?_⟩
  rcases List.mem_append.mp he' with he' | he'
  · exact hrest e' he'
  · rwa [List.mem_singleton.mp he']

theorem later_last {h : List CacheEvent} {e : CacheEvent} {s a : JsString} (he : e.touches s a) (b : JsString) :
    Later (h ++ [e]) s a b := ⟨h, e, [], rfl, he, nofun⟩

theorem Later.asymm {h : List CacheEvent} {s a b : JsString} (hab : Later h s a b) (hba : Later h s b a) : a = b := by
  obtain ⟨before, x, rest, rfl, hx, hrest⟩ := hab
  obtain ⟨before', y, rest', hsplit, hy, hrest'⟩ := hba
  rcases List.append_eq_append_iff.mp hsplit with ⟨mid, rfl, hmid⟩ | ⟨mid, rfl, hmid⟩
  · cases mid with
    | nil => cases hmid; exact touches_inj hx hy
    | cons z mid =>
      obtain ⟨rfl, htail⟩ := List.cons.inj hmid
      exact absurd hy (hrest y (by rw [htail]; simp))
  · cases mid with
    | nil => cases hmid; exact touches_inj hx hy
    | cons z mid =>
      obtain ⟨rfl, htail⟩ := List.cons.inj hmid
      exact absurd hx (hrest' x (by rw [htail]; simp))

/-- A session's records stand in the order of their last events. -/
theorem keys_by_activity {h : List CacheEvent} {s : JsString} {records : OMap JsString MessageRecord}
    (hs : (run B h).sessions.get s = some records) : records.keys.Pairwise fun b a => Later h s a b := by
  induction h using List.reverseRecOn generalizing records with
  | nil => cases hs
  | append_singleton h e ih =>
    rw [run_snoc] at hs
    rcases get_apply (B := B) (run B h) e s with ⟨m, ht, hg⟩ | ⟨hn, hg | hg⟩
    · rw [hg] at hs; cases hs
      have hold : (((run B h).sessions.get s).getD .empty).keys.Pairwise fun b a => Later h s a b := by
        cases hr : (run B h).sessions.get s with
        | none => exact .nil
        | some old => exact ih hr
      rw [keys_touched]
      refine List.Pairwise.sublist (keys_touch _ m) (List.pairwise_append.mpr ⟨?_, List.pairwise_singleton .., ?_⟩)
      · refine (hold.filter _).imp_of_mem fun {b a} hb _ hl => hl.snoc fun hb' => ?_
        have hne : b ≠ m := by simpa using (List.mem_filter.mp hb).2
        exact hne (touches_inj hb' ht)
      · intro b _ a ha
        rw [List.mem_singleton.mp ha]
        exact later_last ht b
    · rw [hg] at hs
      exact (ih hs).imp fun hl => hl.snoc (hn _)
    · rw [hg] at hs; cases hs

/-! ## The bounds -/

theorem length_truncate (x : JsString) (n : Nat) : (codePoints (truncateCodePoints x n)).length ≤ n := by
  unfold truncateCodePoints
  split
  · assumption
  · rw [codePoints_take, List.length_take]; omega

theorem bounded_run (h : List CacheEvent) : (run B h).sessions.size ≤ B.maxSessions ∧
    ∀ s records, (run B h).sessions.get s = some records → records.size ≤ B.maxMessagesPerSession := by
  induction h using List.reverseRecOn with
  | nil => exact ⟨Nat.zero_le _, nofun⟩
  | append_singleton h e ih =>
    rw [run_snoc]
    refine ⟨?_, fun s records hr => ?_⟩
    · cases e with
      | role => exact size_record _ _ _ _ ih.1
      | text => exact size_record _ _ _ _ ih.1
      | clearSession s => exact (List.length_filter_le ..).trans ih.1
      | clear => exact Nat.zero_le _
    · rcases get_apply (B := B) (run B h) e s with ⟨m, -, hg⟩ | ⟨-, hg | hg⟩
      · rw [hg] at hr; cases hr
        exact size_touched ..
      · exact ih.2 s records (hg ▸ hr)
      · rw [hg] at hr; cases hr

/-! ## The summary -/

theorem eligible_iff {h : List CacheEvent} {s m : JsString} {r : MessageRecord} (hr : recordOf (run B h) s m = some r) :
    eligible r = true ↔ ∃ t, r.text = some t ∧ Speaks B h s m t := by
  have hrole : r.role = some .assistant ↔ RoleSince B h s m .assistant := by rw [← role_iff, hr]; rfl
  have htext : ∀ t, r.text = some t ↔ TextSince B h s m t := fun t => by rw [← text_iff, hr]; rfl
  unfold eligible
  rw [Bool.and_eq_true, beq_iff_eq, Option.any_eq_true]
  constructor
  · rintro ⟨ha, t, ht, hb⟩
    exact ⟨t, ht, hrole.mp ha, (htext t).mp ht, of_decide_eq_true hb⟩
  · rintro ⟨t, ht, ha, -, hb⟩
    exact ⟨hrole.mpr ha, t, ht, decide_eq_true hb⟩

/-- A message that speaks has its text on record. -/
theorem Speaks.record {h : List CacheEvent} {s m t : JsString} (hs : Speaks B h s m t) :
    ∃ records r, (run B h).sessions.get s = some records ∧ records.get m = some r ∧ eligible r = true ∧
      r.text = some t := by
  obtain ⟨r, hr, ht⟩ := Option.bind_eq_some_iff.mp (text_iff.mpr hs.text)
  obtain ⟨records, hg, hm⟩ := Option.bind_eq_some_iff.mp hr
  exact ⟨records, r, hg, hm, (eligible_iff hr).mpr ⟨t, ht, hs⟩, ht⟩

/-- The scan finds the eligible record that was active last. -/
theorem summary_speaks {h : List CacheEvent} {s t : JsString} (hsum : (run B h).summary s = some t) :
    ∃ m, Speaks B h s m t ∧ ∀ m' t', m' ≠ m → Speaks B h s m' t' → Later h s m m' := by
  obtain ⟨records, hg, hsum⟩ := Option.bind_eq_some_iff.mp hsum
  obtain ⟨r, hfind, ht⟩ := Option.bind_eq_some_iff.mp hsum
  obtain ⟨he, later, earlier, hsplit, hlater⟩ := List.find?_eq_some_iff_append.mp hfind
  have hvalues : records.entries.map (·.2) = earlier.reverse ++ r :: later.reverse := by
    have := congrArg List.reverse hsplit
    rw [List.reverse_reverse] at this
    rw [← OMap.values, this]
    simp
  obtain ⟨before, rest, hentries, hbefore, hrest⟩ := List.map_eq_append_iff.mp hvalues
  obtain ⟨x, after, rfl, hx, hafter⟩ := List.map_eq_cons_iff.mp hrest
  have hget : records.get x.1 = some r := OMap.get_eq_some.mpr (by rw [hentries, ← hx]; simp)
  have hrec : recordOf (run B h) s x.1 = some r := by rw [recordOf, hg]; exact hget
  obtain ⟨t', ht', hspeaks⟩ := (eligible_iff hrec).mp he
  obtain rfl : t' = t := Option.some.inj (ht'.symm.trans ht)
  refine ⟨x.1, hspeaks, fun m' t'' hne hs' => ?_⟩
  obtain ⟨records', r', hg', hget', he', -⟩ := hs'.record
  obtain rfl : records' = records := Option.some.inj (hg'.symm.trans hg)
  have hmem := OMap.get_eq_some.mp hget'
  rw [hentries] at hmem
  rcases List.mem_append.mp hmem with hmem | hmem
  · have horder := keys_by_activity hg
    rw [OMap.keys, hentries, List.map_append, List.map_cons, List.pairwise_append] at horder
    exact horder.2.2 m' (List.mem_map_of_mem (f := (·.1)) hmem) x.1 List.mem_cons_self
  · rcases List.mem_cons.mp hmem with hx' | hmem
    · exact absurd (congrArg Prod.fst hx') hne
    · -- The records after it are not eligible.
      have hmem' : r' ∈ later.reverse := hafter ▸ List.mem_map_of_mem (f := (·.2)) hmem
      have := hlater r' (List.mem_reverse.mp hmem')
      rw [he'] at this; cases this

/-- The summary is the text of the message that speaks and was active last, and the
    cache stays within its bounds. -/
theorem summary_is_the_latest_reply (B : CacheBounds) (h : List CacheEvent) :
    (∀ s t, (run B h).summary s = some t ↔
      ∃ m, Speaks B h s m t ∧ ∀ m' t', m' ≠ m → Speaks B h s m' t' → Later h s m m') ∧
    (∀ s records, (run B h).sessions.get s = some records → records.size ≤ B.maxMessagesPerSession) ∧
    (∀ s m r t, recordOf (run B h) s m = some r → r.text = some t → (codePoints t).length ≤ B.maxTextLength) ∧
    (run B h).sessions.size ≤ B.maxSessions := by
  refine ⟨fun s t => ⟨summary_speaks, ?_⟩, (bounded_run h).2, ?_, (bounded_run h).1⟩
  · rintro ⟨m, hs, hlatest⟩
    obtain ⟨records, r, hg, hm, he, ht⟩ := hs.record
    -- Some record is eligible, so there is a summary; it can only be this message's.
    have hsome : ((run B h).summary s).isSome := by
      have hmem : r ∈ records.values.reverse := List.mem_reverse.mpr (OMap.mem_values.mpr ⟨m, hm⟩)
      obtain ⟨r', hr'⟩ := Option.isSome_iff_exists.mp (List.find?_isSome.mpr ⟨r, hmem, he⟩)
      have he' : eligible r' = true := List.find?_some hr'
      unfold eligible at he'
      cases htext : r'.text with
      | none => rw [htext] at he'; simp at he'
      | some t' =>
        have hsum : (run B h).summary s = some t' := by
          unfold summary
          rw [hg]
          show records.values.reverse.find? eligible >>= _ = _
          rw [hr']; exact htext
        rw [hsum]; rfl
    obtain ⟨t', ht'⟩ := Option.isSome_iff_exists.mp hsome
    obtain ⟨m', hs', hlatest'⟩ := summary_speaks ht'
    have hsame : m' = m := by
      by_contra hne
      exact hne ((hlatest m' t' hne hs').asymm (hlatest' m t (Ne.symm hne) hs)).symm
    subst hsame
    have hboth := (text_iff.mpr hs'.text).symm.trans (text_iff.mpr hs.text)
    rw [ht', Option.some.inj hboth]
  · intro s m r t hr ht
    obtain ⟨x, before, rest, -, -, rfl⟩ := text_iff.mp (Option.bind_eq_some_iff.mpr ⟨r, hr, ht⟩)
    exact length_truncate x _

/-! ## A forgotten role -/

variable (B) in
/-- What is said of a message without asking whether its role was kept. -/
def Replied (h : List CacheEvent) (s m t : JsString) : Prop :=
  (∃ before rest, RoleAt h s m .assistant before rest) ∧
    ∃ x before rest, TextAt B h s m x before rest ∧ t = truncateCodePoints x B.maxTextLength

def twoMessages : CacheBounds := ⟨2, 10, 1, by decide, by decide, by decide⟩

/-- The first message's role is evicted before its text comes. -/
def forgetting : List CacheEvent :=
  [.role (js "s") (js "1") .assistant, .role (js "s") (js "2") .assistant, .role (js "s") (js "3") .assistant,
    .text (js "s") (js "3") (js "third"), .text (js "s") (js "1") (js "first")]

/-- The first message is retained with its text, its last role is the assistant's and it
    was active last, but the summary is the third's. -/
theorem forgotten_role_is_silent :
    (run twoMessages forgetting).summary (js "s") = some (js "third") ∧
    (Replied twoMessages forgetting (js "s") (js "1") (js "first") ∧
      (recordOf (run twoMessages forgetting) (js "s") (js "1")).bind (·.text) = some (js "first")) ∧
    ¬ ∃ m, Replied twoMessages forgetting (js "s") m (js "third") ∧ ∀ m' t', m' ≠ m →
      Replied twoMessages forgetting (js "s") m' t' →
      (recordOf (run twoMessages forgetting) (js "s") m').bind (·.text) = some t' → 0 < (trim t').length →
      Later forgetting (js "s") m m' := by
  have hreplied : Replied twoMessages forgetting (js "s") (js "1") (js "first") :=
    ⟨⟨[], _, rfl, fun r' => by cases r' <;> decide⟩, js "first", forgetting.dropLast, [],
      ⟨rfl, by unfold Accepted; decide +kernel, fun mid y after hm => (by cases mid <;> cases hm), nofun⟩, by decide⟩
  have hretained : (recordOf (run twoMessages forgetting) (js "s") (js "1")).bind (·.text) = some (js "first") := by
    decide +kernel
  refine ⟨by decide +kernel, ⟨hreplied, hretained⟩, ?_⟩
  rintro ⟨m, ⟨-, x, before, rest, ⟨hsplit, -, -, -⟩, ht⟩, hlatest⟩
  have hlast : ∀ before' e rest', forgetting = before' ++ e :: rest' →
      e = .text (js "s") (js "1") (js "first") ∨ .text (js "s") (js "1") (js "first") ∈ rest' := by
    intro before' e rest' h
    rcases List.eq_nil_or_concat rest' with rfl | ⟨rest', z, rfl⟩
    · have hone : forgetting = forgetting.dropLast ++ [.text (js "s") (js "1") (js "first")] := by decide
      rw [hone] at h
      exact Or.inl (List.singleton_injective (List.append_inj' h rfl).2).symm
    · have hone : forgetting = forgetting.dropLast ++ [.text (js "s") (js "1") (js "first")] := by decide
      rw [hone, List.concat_eq_append, ← List.cons_append, ← List.append_assoc] at h
      right
      rw [List.concat_eq_append, ← List.singleton_injective (List.append_inj' h rfl).2]
      simp
  by_cases hm : m = js "1"
  · -- The last text of the first message is not the summary.
    have hx : x = js "first" ∨ x = js "third" := by
      have hmem : CacheEvent.text (js "s") m x ∈ forgetting := by rw [hsplit]; simp
      simp only [forgetting, List.mem_cons, CacheEvent.text.injEq, reduceCtorEq, false_or,
        List.not_mem_nil, or_false] at hmem
      rcases hmem with ⟨-, -, rfl⟩ | ⟨-, -, rfl⟩
      · exact Or.inr rfl
      · exact Or.inl rfl
    rcases hx with rfl | rfl
    · exact absurd ht (by decide)
    · have hmem : CacheEvent.text (js "s") m (js "third") ∈ forgetting := by rw [hsplit]; simp
      rw [hm] at hmem
      exact absurd hmem (by decide)
  · obtain ⟨before', e, rest', hsplit', he, hrest⟩ :=
      hlatest (js "1") (js "first") (Ne.symm hm) hreplied hretained (by decide)
    rcases hlast before' e rest' hsplit' with rfl | hmem
    · exact hm he.2.symm
    · exact hrest _ hmem ⟨rfl, rfl⟩

end MessageCache

end NotifyHub.Plugin
