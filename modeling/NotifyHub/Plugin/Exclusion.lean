/-
  NotifyHub.Plugin.Exclusion — sessions the pipeline does not notify for.

  Proved, over every run:
  - `excluded_stay_silent`: from an upsert that makes a session a child, archived or
    internal one, or its deletion, until an upsert that makes it a main session, nothing
    is enqueued for it.
  - `lookups_defer`: ancestry that is known is not written to but by events, and a lookup
    that fails leaves the registry alone and says only what the registry says.

  `Excluded` is what lasts in between: the registry excludes the session, so its events
  are not dispatched, and the machine has no state for it, so (`Armed`) no timer either.
-/

import NotifyHub.Plugin.DispatchOrder
import NotifyHub.Plugin.Timers

namespace NotifyHub.Plugin

variable {O : PipelineOptions}

/-! ## The registry -/

namespace SessionRegistry

variable (r : SessionRegistry)

theorem has_of_excluded {sid : JsString} (h : r.excluded sid = true) : r.has sid = true := by
  unfold excluded at h
  unfold OMap.has
  cases hg : r.get sid with
  | none => rw [hg] at h; cases h
  | some e => rfl

theorem get_updateFromLookup (info : SessionInfo) {sid : JsString} (h : r.has sid = true) :
    (r.updateFromLookup info).get sid = r.get sid := by
  unfold updateFromLookup
  split
  · rfl
  · rename_i hno
    have hne : sid ≠ info.sessionID := fun he => hno (he ▸ h)
    exact OMap.get_set_ne _ _ hne

theorem get_resolve (sessionID : JsString) (parentID : Option (Option JsString)) {sid : JsString}
    (h : (r.known sid).isSome ∨ sid ≠ sessionID) : (r.resolve sessionID parentID).1.get sid = r.get sid := by
  unfold resolve
  split
  · rfl
  · rfl
  · rename_i hn
    rcases h with h | h
    · have hne : sid ≠ sessionID := fun he => by rw [he, hn] at h; cases h
      exact OMap.get_set_ne _ _ hne
    · exact OMap.get_set_ne _ _ h

theorem excluded_congr {r r' : SessionRegistry} {sid : JsString} (h : r'.get sid = r.get sid) :
    r'.excluded sid = r.excluded sid := by rw [excluded, excluded, h]

/-- A lookup does not bring an excluded session back. -/
theorem excluded_resolve (sessionID : JsString) (parentID : Option (Option JsString)) {sid : JsString}
    (h : r.excluded sid = true) : (r.resolve sessionID parentID).1.excluded sid = true := by
  cases hk : r.known sid with
  | some main => rw [excluded_congr (r.get_resolve sessionID parentID (Or.inl (by rw [hk]; rfl)))]; exact h
  | none =>
    by_cases hs : sid = sessionID
    · subst hs
      unfold resolve
      rw [hk]
      cases parentID with
      | none => exact h
      | some parentID =>
        -- an entry that excludes without ancestry does so by its flag
        unfold excluded known at *
        dsimp only
        rw [OMap.get_set_self]
        cases hg : r.get sid with
        | none => rw [hg] at h; cases h
        | some e =>
          rw [hg] at h hk
          cases hp : e.parentID with
          | some q => simp [hp] at hk
          | none =>
            have he : e.excluded = true := by simpa [hp] using h
            simp [he]
    · rw [excluded_congr (r.get_resolve sessionID parentID (Or.inr hs))]; exact h

theorem excluded_update (info : SessionInfo) :
    (r.update info).excluded info.sessionID =
      (info.archived || isInternalSession (info.title.or (r.title info.sessionID)) || info.parentID.isSome) := by
  rw [excluded, update, OMap.get_set_self]; rfl

theorem known_isSome {sid : JsString} {e : CacheEntry} (h : r.get sid = some e) (hp : e.parentID.isSome) :
    (r.known sid).isSome := by
  obtain ⟨q, hq⟩ := Option.isSome_iff_exists.mp hp
  rw [known, h]
  simp [hq]

end SessionRegistry

/-! ## The machine -/

/-- A step that emits nothing for the session and does not bring it back. -/
structure Mute (sid : JsString) (m m' : Machine) : Prop where
  gone : m.sessions.get sid = none → m'.sessions.get sid = none
  trace : ∃ es, m'.trace = es ++ m.trace ∧ ∀ e ∈ es, ∀ x time, e = .effect x time → x.sessionID ≠ sid

theorem Mute.refl (sid : JsString) (m : Machine) : Mute sid m m := ⟨id, [], rfl, by simp⟩

theorem Mute.trans {sid : JsString} {m m' m'' : Machine} (h : Mute sid m m') (h' : Mute sid m' m'') :
    Mute sid m m'' := by
  refine ⟨fun hg => h'.gone (h.gone hg), ?_⟩
  obtain ⟨es, he, hes⟩ := h.trace
  obtain ⟨fs, hf, hfs⟩ := h'.trace
  refine ⟨fs ++ es, by rw [hf, he, List.append_assoc], fun e hm => ?_⟩
  rcases List.mem_append.mp hm with hm | hm
  · exact hfs e hm
  · exact hes e hm

theorem Entry.sessionID_effect (x : Effect) (time : Nat) : (Entry.effect x time).sessionID = x.sessionID := by
  cases x <;> rfl

theorem About.mute {s sid : JsString} {m m' : Machine} (h : About s m m') (hs : s ≠ sid) : Mute sid m m' := by
  refine ⟨fun hg => (h.sessions sid hs.symm).trans hg, ?_⟩
  obtain ⟨es, he, hes⟩ := h.trace
  refine ⟨es, he, fun e hm x time hx => ?_⟩
  have := hes e hm
  rw [hx, Entry.sessionID_effect] at this
  rw [this]; exact hs

theorem mute_disposeSession (m : Machine) (s sid : JsString) : Mute sid m (m.disposeSession s) := by
  constructor
  · intro hg
    by_cases hs : sid = s
    · rw [hs]; exact OMap.get_delete_self _ _
    · exact ((about_disposeSession m s).sessions sid hs).trans hg
  · unfold Machine.disposeSession
    cases m.sessions.get s with
    | some o => exact ⟨[.disposed s], by simp, by simp⟩
    | none => exact ⟨[.disposed s], rfl, by simp⟩

theorem completePendingIdle_sessions (m : Machine) (sid : JsString) (o : Nat) :
    (m.completePendingIdle sid o).sessions = m.sessions := by
  unfold Machine.completePendingIdle; split <;> rfl

theorem flushNext_sessions (m : Machine) (i : Nat) : (m.flushNext i).sessions = m.sessions := by
  unfold Machine.flushNext
  split
  · rfl
  · split
    · rfl
    · dsimp only
      split
      · rw [completePendingIdle_sessions, Machine.log_sessions, Machine.clearIdleTimer_sessions]
      · rfl

section
variable {O : MachineOptions} {m : Machine} {sid : JsString} (h : Armed m) (hg : m.sessions.get sid = none)
include h hg

theorem mute_fire (k : Nat) : Mute sid m (m.fire O k) := by
  rcases about_fire (O := O) m k with heq | ⟨t, ht, hab⟩
  · rw [heq]; exact .refl sid m
  · refine hab.mute fun hs => ?_
    have := (h.kept k t ht).1
    rw [hs, hg] at this; cases this

omit h in
theorem mute_ticked (i : Nat) : Mute sid m (m.ticked O i) := by
  unfold Machine.ticked
  split
  · exact .refl sid m
  · rename_i s o _
    have hab := about_rearm (O := O) { m with ticking := m.ticking.eraseIdx i } s o
    by_cases hs : s = sid
    · subst hs
      -- a session without a state does not re-arm
      unfold Machine.rearm
      rw [if_neg fun hc => by rw
        [show ({ m with ticking := m.ticking.eraseIdx i } : Machine).sessions.get s = none from hg] at hc; cases hc.1]
      exact ⟨id, [], rfl, by simp⟩
    · have h0 : Mute sid m { m with ticking := m.ticking.eraseIdx i } := ⟨id, [], rfl, by simp⟩
      exact h0.trans (hab.mute hs)

omit h in
theorem mute_flushNext (i : Nat) : Mute sid m (m.flushNext i) := by
  obtain ⟨s, hab, hs⟩ := about_flushNext m i
  by_cases hne : s = sid
  · subst hne
    refine ⟨fun _ => ?_, ?_⟩
    · exact (flushNext_sessions m i).symm ▸ hg
    · rcases hs with ht | hs
      · exact ⟨[], by simpa using ht, by simp⟩
      · rw [hg] at hs; cases hs
  · exact hab.mute hne

end

/-! ## The pipeline -/

namespace Pipeline

/-- What was handed to the pump for the session. -/
def notes (p : Pipeline) (sid : JsString) : List Notification := p.outbox.filter fun n => n.effect.sessionID = sid

structure Excluded (p : Pipeline) (sid : JsString) : Prop where
  excluded : p.registry.excluded sid = true
  gone : p.machine.sessions.get sid = none

/-- A step that leaves the session excluded, and hands nothing to the pump for it. -/
structure Silent (sid : JsString) (p p' : Pipeline) : Prop where
  excluded : Excluded p sid → Excluded p' sid
  notes : p'.notes sid = p.notes sid

theorem Silent.refl (sid : JsString) (p : Pipeline) : Silent sid p p := ⟨id, rfl⟩

theorem Silent.trans {sid : JsString} {p p' p'' : Pipeline} (h : Silent sid p p') (h' : Silent sid p' p'') :
    Silent sid p p'' := ⟨fun hx => h'.excluded (h.excluded hx), h'.notes.trans h.notes⟩

theorem deliver_machine (p : Pipeline) (e : Effect) : (p.deliver e).machine = p.machine := by
  unfold deliver; split <;> rfl

theorem deliver_registry (p : Pipeline) (e : Effect) : (p.deliver e).registry = p.registry := by
  unfold deliver; split <;> rfl

theorem notes_deliver (p : Pipeline) {e : Effect} {sid : JsString} (h : e.sessionID ≠ sid) :
    (p.deliver e).notes sid = p.notes sid := by
  unfold deliver
  split <;>
  · rw [notes, List.filter_append]
    simp [h, notes]

theorem foldl_deliver {sid : JsString} : ∀ {es : List Effect} {p : Pipeline}, (∀ e ∈ es, e.sessionID ≠ sid) →
    (es.foldl deliver p).machine = p.machine ∧ (es.foldl deliver p).registry = p.registry ∧
      (es.foldl deliver p).notes sid = p.notes sid
  | [], _, _ => ⟨rfl, rfl, rfl⟩
  | e :: es, p, h => by
    obtain ⟨hm, hr, hn⟩ := foldl_deliver (p := p.deliver e) fun x hx => h x (List.mem_cons_of_mem _ hx)
    exact ⟨hm.trans (deliver_machine p e), hr.trans (deliver_registry p e),
      hn.trans (notes_deliver p (h e List.mem_cons_self))⟩

theorem call_machine (p : Pipeline) (f : Machine → Machine) : (p.call f).machine = f p.machine := by
  unfold call
  generalize newEffects p.machine (f p.machine) = es
  suffices h : ∀ q : Pipeline, (es.foldl deliver q).machine = q.machine from h _
  intro q
  induction es generalizing q with
  | nil => rfl
  | cons e es ih => exact (ih _).trans (deliver_machine q e)

theorem call_registry (p : Pipeline) (f : Machine → Machine) : (p.call f).registry = p.registry := by
  unfold call
  generalize newEffects p.machine (f p.machine) = es
  suffices h : ∀ q : Pipeline, (es.foldl deliver q).registry = q.registry from h _
  intro q
  induction es generalizing q with
  | nil => rfl
  | cons e es ih => exact (ih _).trans (deliver_registry q e)

theorem newEffects_away {m m' : Machine} {sid : JsString} (h : Mute sid m m') : ∀ e ∈ newEffects m m',
    e.sessionID ≠ sid := by
  obtain ⟨es, he, hes⟩ := h.trace
  intro x hx
  rw [newEffects, he, List.length_append, Nat.add_sub_cancel, List.take_left, List.mem_reverse,
    List.mem_filterMap] at hx
  obtain ⟨e, hm, hx⟩ := hx
  cases e with
  | effect y time => cases hx; exact hes _ hm x time rfl
  | _ => cases hx

theorem silent_call {p : Pipeline} {f : Machine → Machine} {sid : JsString} (h : Mute sid p.machine (f p.machine)) :
    Silent sid p (p.call f) := by
  constructor
  · intro hx
    refine ⟨?_, ?_⟩
    · rw [call_registry]; exact hx.excluded
    · rw [call_machine]; exact h.gone hx.gone
  · exact (foldl_deliver (p := { p with machine := f p.machine }) (newEffects_away h)).2.2

theorem silent_dispatch {p : Pipeline} {e : NormalizedEvent} {s sid : JsString} (he : e.sessionID = some s)
    (hs : s ≠ sid) :
    Silent sid p (p.dispatch O e) := by
  have hcache : ∀ c, Silent sid p { p with cache := c } := fun _ => ⟨fun h => ⟨h.excluded, h.gone⟩, rfl⟩
  have hsig : ∀ (q : Pipeline) x, Silent sid q (q.signals O s x) := fun q x =>
    silent_call ((about_signal q.machine s x).mute hs)
  cases e with
  | session => exact .refl sid p
  | status s' st action =>
    cases he
    cases st <;> exact hsig p _
  | error s' outcome => cases he; exact hsig p _
  | message s' mid role outcome =>
    cases he
    cases outcome with
    | none => exact hcache _
    | some outcome => exact (hcache (p.cache.onRole O.bounds s mid role)).trans (hsig _ _)
  | messageText s' mid part text => exact hcache _
  | questionAsked s' => cases he; exact hsig p _
  | questionResolved s' => cases he; exact hsig p _
  | permissionAsked s' => cases he; exact hsig p _
  | permissionResolved s' => cases he; exact hsig p _

/-! ## Upserts -/

/-- The plugin's own directory, or none given. -/
def Here (O : PipelineOptions) (directory : Option JsString) : Prop := ∀ d ∈ directory, d = O.directory

/-- Session info that makes a session a child, archived or internal one, or its deletion. -/
def excludes (O : PipelineOptions) (sid : JsString) : PipelineOp → Prop
  | .receive (.session deleted s parentID title directory archived) =>
    s = sid ∧ Here O directory ∧ (deleted || archived || isInternalSession (some title) || parentID.isSome) = true
  | _ => False

/-- Session info that makes a session a main session. -/
def readmits (O : PipelineOptions) (sid : JsString) : PipelineOp → Prop
  | .receive (.session deleted s parentID title directory archived) =>
    s = sid ∧ Here O directory ∧ (deleted || archived || isInternalSession (some title) || parentID.isSome) = false
  | _ => False

theorem here_iff {directory : Option JsString} : Here O directory ↔ ¬ (directory.any (· ≠ O.directory)) = true := by
  cases directory with
  | none => simp [Here]
  | some d => simp [Here]

theorem excluded_upsert {p : Pipeline} {deleted : Bool} {sid : JsString} {parentID : Option JsString} {title : JsString}
    {directory : Option JsString} {archived : Bool} (hh : Here O directory)
    (hx : (deleted || archived || isInternalSession (some title) || parentID.isSome) = true) :
    Excluded (p.upsert O deleted sid parentID title directory archived) sid ∧
      (p.upsert O deleted sid parentID title directory archived).notes sid = p.notes sid := by
  have hreg : (p.registry.update ⟨sid, parentID, some title, deleted || archived⟩).excluded sid = true :=
    (SessionRegistry.excluded_update p.registry ⟨sid, parentID, some title, deleted || archived⟩).trans hx
  unfold upsert
  rw [if_neg (here_iff.mp hh)]
  dsimp only
  rw [if_pos hreg]
  refine ⟨⟨?_, ?_⟩, ?_⟩
  · show (call _ _).registry.excluded sid = true
    rw [call_registry]; exact hreg
  · show (call _ _).machine.sessions.get sid = none
    rw [call_machine]
    exact OMap.get_delete_self _ _
  · exact (silent_call (p := { p with registry := _ }) (mute_disposeSession p.machine sid sid)).notes

theorem silent_upsert {p : Pipeline} {deleted : Bool} {s sid : JsString} {parentID : Option JsString} {title : JsString}
    {directory : Option JsString} {archived : Bool} (hs : s ≠ sid) :
    Silent sid p (p.upsert O deleted s parentID title directory archived) := by
  unfold upsert
  split
  · exact .refl sid p
  · have hreg : Silent sid p
      { p with registry := p.registry.update ⟨s, parentID, some title, deleted || archived⟩ } := by
      refine ⟨fun h => ⟨?_, h.gone⟩, rfl⟩
      exact (SessionRegistry.excluded_congr (OMap.get_set_ne _ _ hs.symm)).trans h.excluded
    dsimp only
    split
    · refine (hreg.trans (silent_call (mute_disposeSession p.machine s sid))).trans ⟨fun h => ⟨h.excluded, h.gone⟩, rfl⟩
    · exact hreg

/-! ## One step -/

/-- A step that leaves the registry's word on the session, the machine and the outbox. -/
theorem silent_of_eq {p p' : Pipeline} {sid : JsString}
    (hr : p.registry.excluded sid = true → p'.registry.excluded sid = true)
    (hm : p'.machine.sessions = p.machine.sessions)
    (ho : p'.outbox = p.outbox) : Silent sid p p' :=
  ⟨fun h => ⟨hr h.excluded, by rw [hm]; exact h.gone⟩, by rw [notes, notes, ho]⟩

theorem silent_isMain (p : Pipeline) (n : Nat) (s sid : JsString) : Silent sid p (p.isMain n s) := by
  unfold isMain
  split <;> exact silent_of_eq id rfl rfl

theorem silent_answer (p : Pipeline) (l : Nat) (result : SdkResult) (sid : JsString) :
    Silent sid p (p.answer l result) := by
  unfold answer
  split
  · dsimp only
    split
    · exact silent_of_eq id rfl rfl
    · refine silent_of_eq (fun h => ?_) rfl rfl
      exact (SessionRegistry.excluded_congr
        (SessionRegistry.get_updateFromLookup _ _ (SessionRegistry.has_of_excluded _ h))).trans h
  · exact .refl sid p

theorem silent_discovered (p : Pipeline) (sessions : List SessionInfo) (sid : JsString) :
    Silent sid p (p.discovered sessions) := by
  unfold discovered
  split
  · exact .refl sid p
  · refine silent_of_eq ?_ rfl rfl
    dsimp only
    generalize p.registry = r
    intro h
    induction sessions generalizing r with
    | nil => exact h
    | cons info sessions ih =>
      refine ih _ ((SessionRegistry.excluded_congr ?_).trans h)
      exact SessionRegistry.get_updateFromLookup r info (SessionRegistry.has_of_excluded r h)

/-- A job: the session's own events are held back by the registry. -/
theorem silent_perform {p : Pipeline} {sid : JsString} (h : Excluded p sid) (j : Job) :
    Silent sid p (p.perform O j) := by
  cases j with
  | resolved l parentID =>
    unfold perform
    dsimp only
    split
    · exact silent_of_eq (SessionRegistry.excluded_resolve _ _ _) rfl rfl
    · exact .refl sid p
  | owner l main =>
    unfold perform
    dsimp only
    split
    · exact silent_of_eq id rfl rfl
    · exact .refl sid p
  | thenable n l =>
    unfold perform
    dsimp only
    split
    · split <;> exact silent_of_eq id rfl rfl
    · exact .refl sid p
  | adopt n main => exact silent_of_eq id rfl rfl
  | resume n main =>
    show Silent sid p (p.resume O n main)
    unfold resume
    split
    · exact .refl sid p
    · rename_i e he
      split
      · exact .refl sid p
      · rename_i hgo
        have hstart : Silent sid p { p with dispatched := p.dispatched ++ [n] } := silent_of_eq id rfl rfl
        cases hs : e.sessionID with
        | none =>
          have hquiet : ({ p with dispatched := p.dispatched ++ [n] } : Pipeline).dispatch O e =
              { p with dispatched := p.dispatched ++ [n] } := by
            cases e with
            | error s outcome => cases hs; rfl
            | _ => cases hs
          rw [hquiet]; exact hstart
        | some s =>
          have hne : s ≠ sid := by
            intro heq
            refine hgo (Or.inr (Or.inr ?_))
            rw [hs, heq]; exact h.excluded
          exact hstart.trans (silent_dispatch hs hne)

theorem foldl_flushNext {sid : JsString} (l : List Nat) {m : Machine} (hg : m.sessions.get sid = none) :
    Mute sid m (l.foldl (fun m _ => m.flushNext 0) m) := by
  induction l generalizing m with
  | nil => exact .refl sid m
  | cons _ l ih => exact (mute_flushNext hg 0).trans (ih ((mute_flushNext hg 0).gone hg))

theorem mute_disposeAll (m : Machine) (sid : JsString) : Mute sid m m.disposeAll := by
  unfold Machine.disposeAll
  generalize m.sessions.keys = ks
  induction ks generalizing m with
  | nil => exact .refl sid m
  | cons s ks ih => exact (mute_disposeSession m s sid).trans (ih _)

theorem silent_disposeAll {p : Pipeline} {sid : JsString} (h : Excluded p sid) : Silent sid p p.disposeAll := by
  unfold disposeAll
  split
  · have hflush : Mute sid p.machine (flush p.machine) := by
      have h0 : Mute sid p.machine p.machine.flushPendingCompletions := ⟨id, [], rfl, by simp⟩
      exact h0.trans (foldl_flushNext _ (h0.gone h.gone))
    refine Silent.trans ((silent_call hflush).trans (silent_call (mute_disposeAll _ sid))) ?_
    exact silent_of_eq id rfl rfl
  · exact .refl sid p

theorem silent_step {p : Pipeline} {sid : JsString} (harm : Armed p.machine) (h : Excluded p sid) (e : PipelineEvent)
    (hno : ¬ readmits O sid e.op) : Silent sid p (p.step O e) := by
  have htick : Silent sid p (p.tick e) := silent_of_eq id rfl rfl
  have harm' : Armed (p.tick e).machine := ⟨harm.made, harm.kept⟩
  refine htick.trans ?_
  replace h := htick.excluded h
  unfold step apply
  generalize p.tick e = p at h harm'
  split
  · rename_i x hx
    rw [hx] at hno
    unfold onEvent
    split
    · exact .refl sid p
    · split
      · rename_i deleted s parentID title directory archived
        by_cases hs : s = sid
        · subst hs
          by_cases hh : Here O directory
          · have hex : (deleted || archived || isInternalSession (some title) || parentID.isSome) = true := by
              cases hb : (deleted || archived || isInternalSession (some title) || parentID.isSome) with
              | true => rfl
              | false => exact absurd ⟨rfl, hh, hb⟩ hno
            obtain ⟨hexc, hnotes⟩ := excluded_upsert (p := p) hh hex
            exact ⟨fun _ => hexc, hnotes⟩
          · unfold upsert
            rw [if_pos (not_not.mp fun hc => hh (here_iff.mpr hc))]
            exact .refl s p
        · exact silent_upsert hs
      · split
        · exact .refl sid p
        · have h0 : Silent sid p { p with events := p.events ++ [x] } := silent_of_eq id rfl rfl
          exact h0.trans (silent_isMain _ _ _ sid)
  · exact silent_answer p _ _ sid
  · unfold runJob
    split
    · exact .refl sid p
    · rename_i j js _
      have h0 : Silent sid p { p with jobs := js } := silent_of_eq id rfl rfl
      exact h0.trans (silent_perform (h0.excluded h) j)
  · exact silent_discovered p _ sid
  · rename_i k _
    have hfire := mute_fire (O := O.machine) harm' h.gone k
    exact silent_call (hfire.trans (mute_ticked (hfire.gone h.gone) 0))
  · exact silent_of_eq id rfl rfl
  · exact silent_disposeAll h

/-! ## Runs -/

theorem armed_call {p : Pipeline} {f : Machine → Machine} (h : Armed (f p.machine)) : Armed (p.call f).machine := by
  rw [call_machine]; exact h

theorem armed_dispatch {p : Pipeline} (h : Armed p.machine) (e : NormalizedEvent) : Armed (p.dispatch O e).machine := by
  have hsig : ∀ (q : Pipeline) s x, Armed q.machine → Armed (q.signals O s x).machine :=
    fun q s x hq => armed_call (hq.signal s x)
  cases e with
  | session => exact h
  | status s st action => cases st <;> exact hsig p s _ h
  | error s outcome =>
    cases s with
    | none => exact h
    | some s => exact hsig p s _ h
  | message s mid role outcome =>
    cases outcome with
    | none => exact h
    | some outcome => exact hsig { p with cache := p.cache.onRole O.bounds s mid role } s _ h
  | messageText => exact h
  | questionAsked s => exact hsig p s _ h
  | questionResolved s => exact hsig p s _ h
  | permissionAsked s => exact hsig p s _ h
  | permissionResolved s => exact hsig p s _ h

theorem armed_perform {p : Pipeline} (h : Armed p.machine) (j : Job) : Armed (p.perform O j).machine := by
  cases j with
  | resolved l parentID => unfold perform; dsimp only; split <;> exact h
  | owner l main => unfold perform; dsimp only; split <;> exact h
  | thenable n l =>
    unfold perform
    dsimp only
    split
    · split <;> exact h
    · exact h
  | adopt n main => exact h
  | resume n main =>
    show Armed (p.resume O n main).machine
    unfold resume
    split
    · exact h
    · rename_i e _
      split
      · exact h
      · exact armed_dispatch (p := { p with dispatched := p.dispatched ++ [n] }) h e

theorem armed_upsert {p : Pipeline} (h : Armed p.machine) (deleted : Bool) (sid : JsString) (parentID : Option JsString)
    (title : JsString) (directory : Option JsString) (archived : Bool) :
    Armed (p.upsert O deleted sid parentID title directory archived).machine := by
  unfold upsert
  split
  · exact h
  · dsimp only
    split
    · exact armed_call (h.disposeSession sid)
    · exact h

theorem armed_disposeAll {p : Pipeline} (h : Armed p.machine) : Armed p.disposeAll.machine := by
  have hflush : ∀ (l : List Nat) (m : Machine), Armed m → Armed (l.foldl (fun m _ => m.flushNext 0) m) := by
    intro l
    induction l with
    | nil => intro m hm; exact hm
    | cons _ l ih => intro m hm; exact ih _ (hm.flushNext 0)
  have hdispose : ∀ (ks : List JsString) (m : Machine), Armed m → Armed (ks.foldl Machine.disposeSession m) := by
    intro ks
    induction ks with
    | nil => intro m hm; exact hm
    | cons s ks ih => intro m hm; exact ih _ (hm.disposeSession s)
  unfold disposeAll
  split
  · refine armed_call (hdispose _ _ (armed_call (hflush _ _ ?_)))
    exact ⟨h.made, h.kept⟩
  · exact h

theorem armed_step {p : Pipeline} (h : Armed p.machine) (e : PipelineEvent) : Armed (p.step O e).machine := by
  replace h : Armed (p.tick e).machine := ⟨h.made, h.kept⟩
  unfold step apply
  generalize p.tick e = p at h
  split
  · unfold onEvent
    split
    · exact h
    · split
      · exact armed_upsert h _ _ _ _ _ _
      · split
        · exact h
        · unfold isMain; split <;> exact h
  · unfold answer
    split
    · dsimp only; split <;> exact h
    · exact h
  · unfold runJob
    split
    · exact h
    · rename_i j js _
      exact armed_perform (p := { p with jobs := js }) h j
  · unfold discovered; split <;> exact h
  · exact armed_call ((h.fire _).ticked 0)
  · exact h
  · exact armed_disposeAll h

theorem armed_run (es : List PipelineEvent) : Armed (run O es).machine :=
  runFrom_inv (I := fun p : Pipeline => Armed p.machine) (fun _ e h => armed_step h e) Armed.init es

theorem silent_from {es es' : List PipelineEvent} {e : PipelineEvent} {sid : JsString}
    (hlive : (run O es).disposed = false) (hex : excludes O sid e.op) (hno : ∀ e' ∈ es', ¬ readmits O sid e'.op) :
    (runFrom (step O) ((run O es).step O e) es').notes sid = (run O es).notes sid := by
  -- the info is processed
  have hstart : Excluded ((run O es).step O e) sid ∧ ((run O es).step O e).notes sid = (run O es).notes sid := by
    unfold step apply
    split
    · rename_i x hx
      rw [hx] at hex
      unfold onEvent
      rw [if_neg (by show ¬ (run O es).disposed = true; simp [hlive])]
      cases x with
      | session deleted s parentID title directory archived =>
        obtain ⟨rfl, hh, hx⟩ := hex
        exact excluded_upsert hh hx
      | _ => exact hex.elim
    all_goals (rename_i hx; rw [hx] at hex; exact hex.elim)
  obtain ⟨hexc, hnotes⟩ := hstart
  have harm := armed_step (O := O) (armed_run (O := O) es) e
  rw [← hnotes]
  generalize (run O es).step O e = p at hexc harm
  clear hnotes hlive hex
  induction es' generalizing p with
  | nil => rfl
  | cons e' es' ih =>
    have hs := silent_step harm hexc e' (hno e' List.mem_cons_self)
    rw [runFrom_cons, ih (fun x hx => hno x (List.mem_cons_of_mem _ hx)) _ (hs.excluded hexc) (armed_step harm e')]
    exact hs.notes

/-! ## Lookups -/

theorem dispatch_registry (p : Pipeline) (e : NormalizedEvent) : (p.dispatch O e).registry = p.registry := by
  have hsig : ∀ (q : Pipeline) s x, (q.signals O s x).registry = q.registry := fun q s x => call_registry q _
  cases e with
  | session => rfl
  | status s st action => cases st <;> exact hsig p s _
  | error s outcome =>
    cases s with
    | none => rfl
    | some s => exact hsig p s _
  | message s mid role outcome =>
    cases outcome with
    | none => rfl
    | some outcome => exact hsig { p with cache := p.cache.onRole O.bounds s mid role } s _
  | messageText => rfl
  | questionAsked s => exact hsig p s _
  | questionResolved s => exact hsig p s _
  | permissionAsked s => exact hsig p s _
  | permissionResolved s => exact hsig p s _

theorem has_of_get {r : SessionRegistry} {sid : JsString} {entry : CacheEntry} (h : r.get sid = some entry) :
    r.has sid = true := by rw [OMap.has, h]; rfl

/-- Ancestry that is known is written to by events alone. -/
theorem get_step {p : Pipeline} {e : PipelineEvent} {sid : JsString} {entry : CacheEntry}
    (he : ∀ x, e.op ≠ .receive x) (h : p.registry.get sid = some entry) (hp : entry.parentID.isSome) :
    (p.step O e).registry.get sid = some entry := by
  have hk := SessionRegistry.known_isSome _ h hp
  replace h : (p.tick e).registry.get sid = some entry := h
  replace hk : ((p.tick e).registry.known sid).isSome := hk
  unfold step apply
  generalize p.tick e = p at h hk
  split
  · rename_i x hx; exact absurd hx (he x)
  · unfold answer
    split
    · dsimp only
      split
      · exact h
      · exact (SessionRegistry.get_updateFromLookup _ _ (has_of_get h)).trans h
    · exact h
  · unfold runJob
    split
    · exact h
    · rename_i j js _
      cases j with
      | resolved l parentID =>
        unfold perform
        dsimp only
        split
        · exact (SessionRegistry.get_resolve _ _ _ (Or.inl hk)).trans h
        · exact h
      | owner l main => unfold perform; dsimp only; split <;> exact h
      | thenable n l =>
        unfold perform
        dsimp only
        split
        · split <;> exact h
        · exact h
      | adopt n main => exact h
      | resume n main =>
        show (resume O { p with jobs := js } n main).registry.get sid = some entry
        unfold resume
        split
        · exact h
        · rename_i x _
          split
          · exact h
          · rw [dispatch_registry]; exact h
  · unfold discovered
    split
    · exact h
    · rename_i sessions hop _
      clear hop
      dsimp only
      generalize p.registry = r at h
      induction sessions generalizing r with
      | nil => exact h
      | cons info sessions ih => exact ih _ ((SessionRegistry.get_updateFromLookup r info (has_of_get h)).trans h)
  · exact (congrArg (OMap.get · sid) (call_registry p _)).trans h
  · exact h
  · unfold disposeAll
    split
    · exact (congrArg (OMap.get · sid) ((call_registry _ _).trans (call_registry p _))).trans h
    · exact h

/-- The SDK call was rejected, or its response says nothing of the session's ancestry. -/
def Fails (sid : JsString) : SdkResult → Prop
  | .rejected => True
  | .resolved response => lookupSession sid response = none

theorem answer_of_fails {p : Pipeline} {l : Nat} {k : Lookup} {result : SdkResult} (hl : p.lookup l = some k)
    (hk : k.status = .asking) (hf : Fails k.sessionID result) :
    (p.answer l result).registry = p.registry ∧ (p.answer l result).jobs = p.jobs ++ [.resolved l none] := by
  obtain ⟨s, owner, waiters, status⟩ := k
  dsimp only at hk hf
  subst hk
  unfold answer
  rw [hl]
  cases result with
  | rejected => exact ⟨rfl, rfl⟩
  | resolved response =>
    replace hf : lookupSession s response = none := hf
    simp only [hf]
    exact ⟨rfl, rfl⟩

theorem perform_of_failed {p : Pipeline} {l : Nat} {k : Lookup} (hl : p.lookup l = some k) (hk : k.status = .answered) :
    (p.perform O (.resolved l none)).registry = p.registry ∧
      (p.perform O (.resolved l none)).lookup l =
        some { k with status := .settled (p.registry.known k.sessionID) } := by
  obtain ⟨s, owner, waiters, status⟩ := k
  dsimp only at hk
  subst hk
  have hres : p.registry.resolve s none = (p.registry, p.registry.known s) := by
    unfold SessionRegistry.resolve
    cases p.registry.known s <;> rfl
  unfold perform
  dsimp only
  rw [hl]
  dsimp only
  rw [hres]
  exact ⟨rfl, lookup_set_self hl⟩

/-! ## The theorem -/

variable (O) in
/-- From session info that excludes a session on, until some readmits it, nothing is enqueued for it;
  what is known is left by every lookup, and a failed one says what the registry says, no more. -/
theorem excluded_stay_silent :
    (∀ es e es' sid, (run O es).disposed = false → excludes O sid e.op → (∀ e' ∈ es', ¬ readmits O sid e'.op) →
      (runFrom (step O) ((run O es).step O e) es').notes sid = (run O es).notes sid) ∧
    (∀ (p : Pipeline) e sid entry, (∀ x, e.op ≠ .receive x) → p.registry.get sid = some entry →
      entry.parentID.isSome → (p.step O e).registry.get sid = some entry) ∧
    (∀ (p : Pipeline) l k result, p.lookup l = some k → k.status = .asking → Fails k.sessionID result →
      (p.answer l result).registry = p.registry ∧ (p.answer l result).jobs = p.jobs ++ [.resolved l none]) ∧
    ∀ (p : Pipeline) l k, p.lookup l = some k → k.status = .answered →
      (p.perform O (.resolved l none)).registry = p.registry ∧
        (p.perform O (.resolved l none)).lookup l = some { k with status := .settled (p.registry.known k.sessionID) } :=
  ⟨fun _ _ _ _ hlive hex hno => silent_from hlive hex hno, fun _ _ _ _ he h hp => get_step he h hp,
    fun _ _ _ _ hl hk hf => answer_of_fails hl hk hf, fun _ _ _ hl hk => perform_of_failed hl hk⟩

/-- A busy main session, deleted: its heartbeat does not fire. -/
def deletedWhileBusy : List PipelineEvent :=
  [⟨1, 1, .receive (.session false ses none (js "Main") none false)⟩, ⟨2, 2, .receive (.status ses .busy none)⟩,
    ⟨2, 2, .runJob⟩, ⟨3, 3, .receive (.session true ses none (js "Main") none false)⟩, ⟨90000, 90000, .timer 0⟩]

example : (run sampleOptions deletedWhileBusy).outbox = [] := by decide +kernel

end Pipeline

end NotifyHub.Plugin
