/-
  NotifyHub.Plugin.Remote — when the plugin's control channel runs
  (packages/plugin/src/index.ts: `startControl`, `stopEmptyControl`,
  `discoverRemoteEntry`, and what `onEvent` and `dispose` do to it), over the pipeline.

  A discovery lists the directory's sessions, a page of one, then of 50, then of 200, and
  starts the channel if one is a main session, stops it if there is none. It holds the
  revision it began with, and is dropped after an `await` where that is not the current
  one. A start counts the revision up only if the channel was not wanted; a stop runs on
  while the channel is started again, which then waits for its end.

  `running` is the channel's own field: its `start` and `stop` set it and do not throw.

  The log, newest first, is ghost: a discovery began, an event of a main session was
  processed, a start was requested (`startControl` past its first line), a discovery found
  the directory empty.

  - `pipeline_run`: without the channel, a run is one of the pipeline.
  - `follows_main_sessions`: a discovery that finds the directory empty began after the
    last event of a main session; the channel runs if the last word was a request, once no
    stop is under way; after `dispose` it does not run. In runs where no event of a main
    session meets a current discovery while the channel is wanted (`Undisturbed`).
  - `stopped_by_a_stale_page`: where one does, the discovery stops the channel after it.
-/

import NotifyHub.Lib.Rows
import NotifyHub.Plugin.DispatchOrder

namespace NotifyHub.Plugin

/-! ## Pages -/

/-- A session of a page, its `parentID` and `title` strings or absent, as the SDK types them. -/
structure ListedSession where
  id : JsString
  parentID : Option JsString
  title : Option JsString
  /-- `"archived" in s.time && s.time.archived`; none where it throws. -/
  archived : Option Bool

/-- `"archived" in time && time.archived` -/
def archivedOf : Option Json → Option Bool
  | some (.obj ms) => some (truthy (member ms "archived"))
  | some (.arr _) => some false
  | _ => none

/-- A session of the directory, none where the page is refused for it. -/
def listedSession (directory : JsString) (s : Json) : Option ListedSession := do
  let ms ← s.record?
  let id ← (member ms "id").bind Json.str?
  if (member ms "directory").bind Json.str? = some directory ∧ truthy (member ms "time") = true then
    some
      { id
        parentID := (member ms "parentID").bind Json.str?
        title := (member ms "title").bind Json.str?
        archived := archivedOf (member ms "time") }
  else none

/-- The page of a response. -/
def listedPage (directory : JsString) (response : Option Json) : Option (List ListedSession) := do
  let ms ← response.bind Json.record?
  let data ← (member ms "data").bind Json.arr?
  data.mapM (listedSession directory)

def ListedSession.info (s : ListedSession) : SessionInfo := ⟨s.id, s.parentID, s.title, s.archived.getD false⟩

/-- A session the directory is listed for. -/
def ListedSession.isMain (s : ListedSession) : Bool :=
  s.parentID.all (· = []) && !isInternalSession s.title && !s.archived.getD false

/-! ## The state -/

/-- A `discoverRemoteEntry`: its revision, and the pages it has still to read, that it is asking for first. -/
structure Discovery where
  revision : Nat
  limits : List Nat
  deriving DecidableEq

inductive RemoteEntry where
  | began (discovery : Nat)
  | mainEvent
  | requested
  | emptied (discovery : Nat)
  deriving DecidableEq

structure RemoteOptions where
  pipeline : PipelineOptions
  /-- `config.remoteDirectories` has the directory. -/
  listed : Bool

structure Remote where
  pipeline : Pipeline
  running : Bool
  controlStarted : Bool
  controlWanted : Bool
  controlStopping : Bool
  directoryRevision : Nat
  /-- An immediate is set. -/
  scheduled : Bool
  /-- All that began, in order. -/
  discoveries : List Discovery
  log : List RemoteEntry

def Remote.init : Remote := ⟨.init, false, false, false, false, 0, true, [], []⟩

variable (O : RemoteOptions)

namespace Remote

def note (s : Remote) (e : RemoteEntry) : Remote := { s with log := e :: s.log }

def bump (s : Remote) : Remote := { s with directoryRevision := s.directoryRevision + 1 }

def startControl (s : Remote) : Remote :=
  if s.pipeline.disposed then s
  else
    let s := if s.controlWanted then s else s.bump
    let s := ({ s with controlWanted := true } : Remote).note .requested
    if s.controlStarted || s.controlStopping then s else { s with running := true, controlStarted := true }

/-- `stopEmptyControl` up to where it waits for the stop. -/
def stopEmptyControl (s : Remote) (d : Nat) : Remote :=
  let s := ({ s with controlWanted := false } : Remote).note (.emptied d)
  if s.controlStarted then { s with running := false, controlStarted := false, controlStopping := true } else s

/-- The stop `stopEmptyControl` waits for settles. -/
def stopped (s : Remote) : Remote :=
  if s.controlStopping then
    let s : Remote := { s with controlStopping := false }
    if s.controlWanted then s.startControl else s
  else s

/-! ## Discovery -/

/-- `discoverRemoteEntry` up to its first page. -/
def discoverRemoteEntry (s : Remote) : Remote :=
  if s.pipeline.disposed then s
  else
    let s := s.bump.note (.began s.discoveries.length)
    if O.listed then ({ s with discoveries := s.discoveries ++ [⟨s.directoryRevision, []⟩] } : Remote).startControl
    else { s with discoveries := s.discoveries ++ [⟨s.directoryRevision, [1, 50, 200]⟩] }

/-- The immediate fires. -/
def immediate (s : Remote) : Remote :=
  if s.scheduled then ({ s with scheduled := false } : Remote).discoverRemoteEntry O else s

/-- What the page says: go on with the next one, or the discovery is over. -/
def readPage (s : Remote) (d revision limit : Nat) (limits : List Nat) (sessions : List ListedSession) : Remote :=
  let ended : Remote := { s with discoveries := s.discoveries.set d ⟨revision, []⟩ }
  if sessions.any (·.archived.isNone) then ended.startControl
  else if sessions.any (·.isMain) then ended.startControl
  else if sessions.length < limit then ended.stopEmptyControl d
  else if limits = [] then ended.startControl
  else { s with discoveries := s.discoveries.set d ⟨revision, limits⟩ }

/-- The list call of a discovery settles. -/
def list (s : Remote) (d : Nat) (result : SdkResult) : Remote :=
  match s.discoveries[d]? with
  | some ⟨revision, limit :: limits⟩ =>
    let ended : Remote := { s with discoveries := s.discoveries.set d ⟨revision, []⟩ }
    if s.pipeline.disposed ∨ revision ≠ s.directoryRevision then ended
    else
      match result with
      | .rejected => ended.startControl
      | .resolved response =>
        match listedPage O.pipeline.directory response with
        | none => ended.startControl
        | some sessions =>
          -- where the time of a session is no object, those before it have been taken in
          let known := (sessions.takeWhile (·.archived.isSome)).map (·.info)
          ({ s with pipeline := s.pipeline.discovered known } : Remote).readPage d revision limit limits sessions
  | _ => s

/-! ## Events -/

def scheduleDiscovery (s : Remote) : Remote := { s with scheduled := true }

/-- What an upsert of the directory does to the channel, once the registry has taken it in. -/
def upserted (s : Remote) (wasExcluded deleted archived : Bool) (sessionID : JsString) : Remote :=
  if s.pipeline.registry.excluded sessionID then
    if deleted || archived || !wasExcluded then s.bump.scheduleDiscovery else s
  else (s.bump.note .mainEvent).startControl

def receive (s : Remote) (e : NormalizedEvent) : Remote :=
  let s' : Remote := { s with pipeline := s.pipeline.onEvent O.pipeline e }
  match e with
  | .session deleted sessionID _ _ directory archived =>
    if s.pipeline.disposed || directory.any (· ≠ O.pipeline.directory) then s'
    else s'.upserted (s.pipeline.registry.excluded sessionID) deleted archived sessionID
  | _ => s'

/-- The next job dispatches an event of a main session. -/
def dispatches (p : Pipeline) : Bool :=
  match p.jobs with
  | .resume event main :: _ =>
    match p.events[event]? with
    | some e => main = some true ∧ p.disposed = false ∧ e.sessionID.any p.registry.excluded = false
    | none => false
  | _ => false

/-- A job runs; an event it dispatches starts the channel first. -/
def runJob (s : Remote) : Remote :=
  let started := if dispatches s.pipeline then (s.note .mainEvent).startControl else s
  { started with pipeline := s.pipeline.runJob O.pipeline }

/-- `dispose` up to where it waits for the channel's stop. -/
def dispose (s : Remote) : Remote :=
  { s with pipeline := { s.pipeline with disposed := true }, scheduled := false, running := false }

end Remote

inductive RemoteOp where
  | receive (e : NormalizedEvent)
  | answer (lookup : Nat) (result : SdkResult)
  | runJob
  | timer (handle : Nat)
  | immediate
  | list (discovery : Nat) (result : SdkResult)
  | stopped
  | dispose
  | disposeAll

/-- What happens, what the clock reads then, and the scheduler's time. -/
structure RemoteEvent where
  nowMs : Nat
  time : Nat
  op : RemoteOp

namespace Remote

def apply (s : Remote) : RemoteOp → Remote
  | .receive e => s.receive O e
  | .answer l result => { s with pipeline := s.pipeline.answer l result }
  | .runJob => s.runJob O
  | .timer h => { s with pipeline := s.pipeline.timer O.pipeline h }
  | .immediate => s.immediate O
  | .list d result => s.list O d result
  | .stopped => s.stopped
  | .dispose => s.dispose
  | .disposeAll => { s with pipeline := s.pipeline.disposeAll }

/-- The machine's clocks move on. -/
def tick (s : Remote) (e : RemoteEvent) : Remote :=
  { s with pipeline := { s.pipeline with
      machine := { s.pipeline.machine with nowMs := e.nowMs, time := max s.pipeline.machine.time e.time } } }

def step (s : Remote) (e : RemoteEvent) : Remote := (s.tick e).apply O e.op

abbrev run (es : List RemoteEvent) : Remote := runFrom (step O) .init es

end Remote

/-! ## The pipeline under it -/

namespace Pipeline

variable {O : PipelineOptions}

theorem disposed_deliver (p : Pipeline) (e : Effect) : (p.deliver e).disposed = p.disposed := by
  unfold deliver; split <;> rfl

theorem disposed_call (p : Pipeline) (f : Machine → Machine) : (p.call f).disposed = p.disposed := by
  unfold call
  generalize newEffects p.machine (f p.machine) = es
  suffices h : ∀ q : Pipeline, (es.foldl deliver q).disposed = q.disposed from h _
  intro q
  induction es generalizing q with
  | nil => rfl
  | cons e es ih => exact (ih _).trans (disposed_deliver q e)

theorem disposed_dispatch (p : Pipeline) (e : NormalizedEvent) : (p.dispatch O e).disposed = p.disposed := by
  have hsig : ∀ (q : Pipeline) s x, (q.signals O s x).disposed = q.disposed := fun q s x => disposed_call q _
  cases e with
  | session => rfl
  | status s st action => cases st <;> exact hsig p s _
  | error s outcome =>
    cases s with
    | none => rfl
    | some s => exact hsig p s _
  | message s mid role outcome =>
    cases outcome with
    | none => rfl
    | some outcome => exact hsig { p with cache := p.cache.onRole O.bounds s mid role } s _
  | messageText => rfl
  | questionAsked s => exact hsig p s _
  | questionResolved s => exact hsig p s _
  | permissionAsked s => exact hsig p s _
  | permissionResolved s => exact hsig p s _

theorem disposed_onEvent (p : Pipeline) (e : NormalizedEvent) : (p.onEvent O e).disposed = p.disposed := by
  unfold onEvent
  split
  · rfl
  · split
    · unfold upsert
      split
      · rfl
      · dsimp only
        split
        · exact disposed_call _ _
        · rfl
    · split
      · rfl
      · unfold isMain
        split <;> rfl

theorem disposed_answer (p : Pipeline) (l : Nat) (result : SdkResult) : (p.answer l result).disposed = p.disposed := by
  unfold answer
  split
  · dsimp only
    split <;> rfl
  · rfl

theorem disposed_runJob (p : Pipeline) : (p.runJob O).disposed = p.disposed := by
  unfold runJob
  split
  · rfl
  · rename_i j jobs _
    cases j with
    | resolved l parentID =>
      unfold perform
      dsimp only
      split <;> rfl
    | owner l main =>
      unfold perform
      dsimp only
      split <;> rfl
    | thenable n l =>
      unfold perform
      dsimp only
      split
      · split <;> rfl
      · rfl
    | adopt n main => rfl
    | resume n main =>
      show (resume O { p with jobs } n main).disposed = p.disposed
      unfold resume
      split
      · rfl
      · split
        · rfl
        · exact disposed_dispatch _ _

theorem disposed_discovered (p : Pipeline) (sessions : List SessionInfo) :
    (p.discovered sessions).disposed = p.disposed := by
  unfold discovered; split <;> rfl

theorem disposed_disposeAll (p : Pipeline) : p.disposeAll.disposed = p.disposed := by
  unfold disposeAll
  split
  · exact (disposed_call _ _).trans (disposed_call _ _)
  · rfl

end Pipeline

namespace Remote

variable {O : RemoteOptions}

/-- The job that `dispatches` is the one the pipeline dispatches an event by. -/
theorem dispatches_iff (P : PipelineOptions) (p : Pipeline) :
    dispatches p = true ↔ (p.runJob P).dispatched.length = p.dispatched.length + 1 := by
  unfold dispatches Pipeline.runJob
  cases hj : p.jobs with
  | nil => simp
  | cons j jobs =>
    cases j with
    | resolved l parentID =>
      dsimp only
      unfold Pipeline.perform
      dsimp only
      split <;> simp [Pipeline.enqueue]
    | owner l main =>
      dsimp only
      unfold Pipeline.perform
      dsimp only
      split <;> simp [Pipeline.enqueue]
    | thenable n l =>
      dsimp only
      unfold Pipeline.perform
      dsimp only
      split
      · split <;> simp [Pipeline.enqueue]
      · simp
    | adopt n main => simp [Pipeline.perform, Pipeline.enqueue]
    | resume n main =>
      dsimp only
      show _ ↔ (Pipeline.resume P { p with jobs } n main).dispatched.length = _
      unfold Pipeline.resume
      dsimp only
      cases he : p.events[n]? with
      | none => simp
      | some e =>
        dsimp only
        split
        · rename_i hno
          refine iff_of_false (fun h => ?_) (Nat.ne_of_lt (Nat.lt_succ_self _))
          obtain ⟨hmain, hlive, hincluded⟩ := of_decide_eq_true h
          rcases hno with hno | hno | hno
          · exact hno hmain
          · rw [hlive] at hno; cases hno
          · rw [hincluded] at hno; cases hno
        · rename_i hyes
          rw [not_or, not_or] at hyes
          obtain ⟨hmain, hlive, hincluded⟩ := hyes
          refine iff_of_true (decide_eq_true ⟨Classical.not_not.mp hmain, ?_, ?_⟩) ?_
          · exact Bool.eq_false_iff.mpr hlive
          · exact Bool.eq_false_iff.mpr hincluded
          · rw [(Pipeline.frame_dispatch _ e).dispatched]
            simp

@[simp] theorem startControl_pipeline (s : Remote) : s.startControl.pipeline = s.pipeline := by
  unfold startControl
  split
  · rfl
  · dsimp only
    split <;> split <;> rfl

@[simp] theorem stopEmptyControl_pipeline (s : Remote) (d : Nat) : (s.stopEmptyControl d).pipeline = s.pipeline := by
  unfold stopEmptyControl
  dsimp only
  split <;> rfl

theorem stopped_pipeline (s : Remote) : s.stopped.pipeline = s.pipeline := by
  unfold stopped
  split
  · dsimp only
    split
    · exact startControl_pipeline _
    · rfl
  · rfl

theorem immediate_pipeline (s : Remote) : (s.immediate O).pipeline = s.pipeline := by
  unfold immediate
  split
  · unfold discoverRemoteEntry
    split
    · rfl
    · dsimp only
      split
      · exact startControl_pipeline _
      · rfl
  · rfl

theorem readPage_pipeline (s : Remote) (d revision limit : Nat) (limits : List Nat) (sessions : List ListedSession) :
    (s.readPage d revision limit limits sessions).pipeline = s.pipeline := by
  unfold readPage
  dsimp only
  split
  · exact startControl_pipeline _
  · split
    · exact startControl_pipeline _
    · split
      · exact stopEmptyControl_pipeline _ d
      · split
        · exact startControl_pipeline _
        · rfl

theorem list_pipeline (s : Remote) (d : Nat) (result : SdkResult) :
    (s.list O d result).pipeline = s.pipeline ∨ ∃ known,
    (s.list O d result).pipeline = s.pipeline.discovered known := by
  unfold list
  split
  · dsimp only
    split
    · exact Or.inl rfl
    · split
      · exact Or.inl (startControl_pipeline _)
      · split
        · exact Or.inl (startControl_pipeline _)
        · exact Or.inr ⟨_, readPage_pipeline _ _ _ _ _ _⟩
  · exact Or.inl rfl

theorem receive_pipeline (s : Remote) (e : NormalizedEvent) :
    (s.receive O e).pipeline = s.pipeline.onEvent O.pipeline e := by
  unfold receive
  dsimp only
  split
  · split
    · rfl
    · unfold upserted
      split
      · split <;> rfl
      · exact startControl_pipeline _
  · rfl

/-- Without the channel, a run is one of the pipeline. -/
theorem pipeline_run (es : List RemoteEvent) : ∃ pes, (run O es).pipeline = Pipeline.run O.pipeline pes := by
  -- a step that leaves the pipeline reads an empty page
  have hidle : ∀ (p : Pipeline) (e : RemoteEvent), p.step O.pipeline ⟨e.nowMs, e.time, .discovered []⟩ =
      p.tick ⟨e.nowMs, e.time, .discovered []⟩ := by
    intro p e
    show (p.tick _).discovered [] = _
    unfold Pipeline.discovered
    split <;> rfl
  have hstep : ∀ (s : Remote) e, ∃ pe, (s.step O e).pipeline = s.pipeline.step O.pipeline pe := by
    intro s e
    obtain ⟨nowMs, time, op⟩ := e
    cases op with
    | receive e => exact ⟨⟨nowMs, time, .receive e⟩, receive_pipeline _ e⟩
    | answer l result => exact ⟨⟨nowMs, time, .answer l result⟩, rfl⟩
    | runJob => exact ⟨⟨nowMs, time, .runJob⟩, rfl⟩
    | timer k => exact ⟨⟨nowMs, time, .timer k⟩, rfl⟩
    | immediate => exact ⟨_, (immediate_pipeline _).trans (hidle s.pipeline ⟨nowMs, time, .immediate⟩).symm⟩
    | list d result =>
      rcases list_pipeline (O := O) (s.tick ⟨nowMs, time, .list d result⟩) d result with heq | ⟨known, heq⟩
      · exact ⟨_, heq.trans (hidle s.pipeline ⟨nowMs, time, .list d result⟩).symm⟩
      · exact ⟨⟨nowMs, time, .discovered known⟩, heq⟩
    | stopped => exact ⟨_, (stopped_pipeline _).trans (hidle s.pipeline ⟨nowMs, time, .stopped⟩).symm⟩
    | dispose => exact ⟨⟨nowMs, time, .dispose⟩, rfl⟩
    | disposeAll => exact ⟨⟨nowMs, time, .disposeAll⟩, rfl⟩
  suffices h : ∀ s pes, s.pipeline = Pipeline.run O.pipeline pes →
      ∃ pes', (runFrom (step O) s es).pipeline = Pipeline.run O.pipeline pes' from h .init [] rfl
  induction es with
  | nil => exact fun _ pes h => ⟨pes, h⟩
  | cons e es ih =>
    intro s pes h
    obtain ⟨pe, hpe⟩ := hstep s e
    refine ih (s.step O e) (pes ++ [pe]) ?_
    rw [hpe, h]
    exact (@runFrom_append _ _ (Pipeline.step O.pipeline) .init pes [pe]).symm

/-! ## What holds of the channel -/

/-- The last word on the channel was a request. -/
def wanted : List RemoteEntry → Bool
  | [] => false
  | .requested :: _ => true
  | .emptied _ :: _ => false
  | _ :: log => wanted log

/-- No event of a main session was processed since the discovery began. -/
def Fresh (log : List RemoteEntry) (d : Nat) : Prop :=
  ∃ newer older, log = newer ++ .began d :: older ∧ .mainEvent ∉ newer

structure Follows (s : Remote) : Prop where
  /-- A discovery that found the directory empty began after the last event of a main session. -/
  fresh : ∀ d newer older, s.log = newer ++ .emptied d :: older → Fresh older d
  /-- Once no stop is under way, what was requested last has been done. -/
  effective : s.pipeline.disposed = false → s.controlStopping = false → wanted s.log = true → s.running = true
  ended : s.pipeline.disposed = true → s.running = false

/-- No event of a main session is processed while the channel is wanted and a current discovery is under way. -/
def Undisturbed (s : Remote) (e : RemoteEvent) : Prop :=
  match e.op with
  | .runJob => dispatches s.pipeline = true → s.controlWanted = false ∨
      ∀ k ∈ s.discoveries, k.revision = s.directoryRevision → k.limits = []
  | _ => True

instance (s : Remote) (e : RemoteEvent) : Decidable (Undisturbed s e) :=
  match e with
  | ⟨_, _, .runJob⟩ => inferInstanceAs (Decidable (_ → _))
  | ⟨_, _, .receive _⟩ | ⟨_, _, .answer ..⟩ | ⟨_, _, .timer _⟩ | ⟨_, _, .immediate⟩ | ⟨_,
    _, .list ..⟩ | ⟨_, _, .stopped⟩
  | ⟨_, _, .dispose⟩ | ⟨_, _, .disposeAll⟩ => inferInstanceAs (Decidable True)

/-- The current discoveries under way are fresh. -/
def Current (s : Remote) : Prop :=
  ∀ d limit limits, s.discoveries[d]? = some ⟨s.directoryRevision, limit :: limits⟩ → Fresh s.log d

structure Inv (s : Remote) : Prop where
  fresh : ∀ d newer older, s.log = newer ++ .emptied d :: older → Fresh older d
  bounded : ∀ (d : Nat) (k : Discovery), s.discoveries[d]? = some k → k.revision ≤ s.directoryRevision
  wanted : wanted s.log = s.controlWanted
  started : s.pipeline.disposed = false → s.controlStopping = false → s.controlWanted = true → s.controlStarted = true
  running : s.pipeline.disposed = false → s.controlStarted = true → s.running = true
  ended : s.pipeline.disposed = true → s.running = false

theorem Inv.follows {s : Remote} (h : Inv s) : Follows s :=
  ⟨h.fresh, fun hlive hstop hwanted => h.running hlive (h.started hlive hstop (h.wanted ▸ hwanted)), h.ended⟩

theorem Inv.init : Inv .init where
  fresh d newer older h := by cases newer <;> cases h
  bounded d k h := by cases h
  wanted := rfl
  started _ _ h := by cases h
  running _ h := by cases h
  ended _ := rfl

theorem current_init : Current .init := fun _ _ _ h => by cases h

theorem fresh_cons {log : List RemoteEntry} {d : Nat} {e : RemoteEntry} :
    Fresh (e :: log) d ↔ e = .began d ∨ e ≠ .mainEvent ∧ Fresh log d := by
  constructor
  · rintro ⟨newer, older, hlog, hno⟩
    cases newer with
    | nil => exact Or.inl (List.cons.inj hlog).1
    | cons x newer =>
      obtain ⟨rfl, htail⟩ := List.cons.inj hlog
      rw [List.mem_cons, not_or] at hno
      exact Or.inr ⟨Ne.symm hno.1, newer, older, htail, hno.2⟩
  · rintro (rfl | ⟨he, newer, older, rfl, hno⟩)
    · exact ⟨[], log, rfl, by simp⟩
    · refine ⟨e :: newer, older, rfl, fun hmem => ?_⟩
      rcases List.mem_cons.mp hmem with heq | hmem
      · exact he heq.symm
      · exact hno hmem

theorem Fresh.cons {log : List RemoteEntry} {d : Nat} (h : Fresh log d) {e : RemoteEntry} (he : e ≠ .mainEvent) :
    Fresh (e :: log) d := fresh_cons.mpr (Or.inr ⟨he, h⟩)

/-- An entry that finds nothing empty leaves what was found fresh. -/
theorem fresh_note {s : Remote} (h : ∀ d newer older, s.log = newer ++ .emptied d :: older → Fresh older d)
    {e : RemoteEntry}
    (he : ∀ d, e ≠ .emptied d) : ∀ d newer older, (s.note e).log = newer ++ .emptied d :: older → Fresh older d := by
  intro d newer older hlog
  cases newer with
  | nil => exact absurd (List.cons.inj hlog).1 (he d)
  | cons x newer => exact h d newer older (List.cons.inj hlog).2

theorem Inv.note_mainEvent {s : Remote} (h : Inv s) : Inv (s.note .mainEvent) :=
  ⟨fresh_note h.fresh nofun, h.bounded, h.wanted, h.started, h.running, h.ended⟩

theorem Current.note {s : Remote} (h : Current s) {e : RemoteEntry} (he : e ≠ .mainEvent) : Current (s.note e) :=
  fun d limit limits hd => (h d limit limits hd).cons he

theorem Inv.bump {s : Remote} (h : Inv s) : Inv s.bump :=
  ⟨h.fresh, fun d k hk => Nat.le_succ_of_le (h.bounded d k hk), h.wanted, h.started, h.running, h.ended⟩

/-- A count up makes every discovery stale. -/
theorem Inv.current_bump {s : Remote} (h : Inv s) {d : Nat} {k : Discovery} (hd : s.discoveries[d]? = some k) :
    k.revision ≠ s.bump.directoryRevision := Nat.ne_of_lt (Nat.lt_succ_of_le (h.bounded d k hd))

theorem Inv.bump_current {s : Remote} (h : Inv s) : Current s.bump :=
  fun _ _ _ hd => absurd rfl (h.current_bump hd)

theorem Inv.pipeline {s : Remote} (h : Inv s) {p : Pipeline} (hp : p.disposed = s.pipeline.disposed) :
    Inv { s with pipeline := p } :=
  ⟨h.fresh, h.bounded, h.wanted, hp ▸ h.started, hp ▸ h.running, hp ▸ h.ended⟩

/-- While a stop is under way nothing need be started. -/
theorem Inv.stopping {s : Remote} (h : Inv s) : Inv { s with controlStopping := true } :=
  ⟨h.fresh, h.bounded, h.wanted, nofun, h.running, h.ended⟩

/-- A start of a channel that is not wanted makes every discovery stale, so only of a wanted one need they be fresh. -/
theorem Inv.startControl {s : Remote} (h : Inv { s with controlStopping := true })
    (hc : s.pipeline.disposed = true ∨ s.controlWanted = true → Current s) : Inv s.startControl ∧
      Current s.startControl := by
  unfold Remote.startControl
  split
  · rename_i hover
    refine ⟨⟨h.fresh, h.bounded, h.wanted, fun hlive => ?_, h.running, h.ended⟩, hc (Or.inl hover)⟩
    rw [hover] at hlive
    cases hlive
  · rename_i hlive
    replace hlive := Bool.eq_false_iff.mpr hlive
    obtain ⟨s', hs', hi, hcur, hlive⟩ : ∃ s' : Remote, s' = (if s.controlWanted then s else s.bump) ∧
        Inv { s' with controlStopping := true } ∧ Current s' ∧ s'.pipeline.disposed = false := by
      refine ⟨_, rfl, ?_⟩
      split
      · rename_i hw
        exact ⟨h, hc (Or.inr hw), hlive⟩
      · exact ⟨h.bump, h.bump_current, hlive⟩
    rw [← hs']
    have hfresh := fresh_note (s := s') hi.fresh (e := .requested) nofun
    replace hcur : Current (({ s' with controlWanted := true } : Remote).note .requested) :=
      Current.note (s := { s' with controlWanted := true }) hcur nofun
    dsimp only
    split
    · rename_i hor
      refine ⟨⟨hfresh, hi.bounded, rfl, fun _ hstop _ => ?_, hi.running, hi.ended⟩, hcur⟩
      rcases (Bool.or_eq_true _ _).mp hor with hor | hor
      · exact hor
      · rw [show s'.controlStopping = true from hor] at hstop
        cases hstop
    · refine ⟨⟨hfresh, hi.bounded, rfl, fun _ _ _ => rfl, fun _ _ => rfl, fun hover => ?_⟩, hcur⟩
      rw [show s'.pipeline.disposed = true from hover] at hlive
      cases hlive

/-- A fresh discovery finds the directory empty. -/
theorem Inv.stopEmptyControl {s : Remote} (h : Inv s) (hc : Current s) {d : Nat} (hd : Fresh s.log d) :
    Inv (s.stopEmptyControl d) ∧ Current (s.stopEmptyControl d) := by
  have hfresh : ∀ e newer older, .emptied d :: s.log = newer ++ .emptied e :: older → Fresh older e := by
    intro e newer older hlog
    cases newer with
    | nil =>
      obtain ⟨he, rfl⟩ := List.cons.inj hlog
      cases he
      exact hd
    | cons x newer => exact h.fresh e newer older (List.cons.inj hlog).2
  have hcur : Current (({ s with controlWanted := false } : Remote).note (.emptied d)) :=
    Current.note (s := { s with controlWanted := false }) hc nofun
  unfold Remote.stopEmptyControl
  dsimp only
  split
  · exact ⟨⟨hfresh, h.bounded, rfl, nofun, nofun, fun _ => rfl⟩, hcur⟩
  · exact ⟨⟨hfresh, h.bounded, rfl, nofun, h.running, h.ended⟩, hcur⟩

/-- A stop that is over leaves the channel as it was asked for last. -/
theorem Inv.stopped {s : Remote} (h : Inv s) (hc : Current s) : Inv s.stopped ∧ Current s.stopped := by
  unfold Remote.stopped
  split
  · rename_i hstopping
    dsimp only
    split
    · refine Inv.startControl (s := { s with controlStopping := false }) ?_ fun _ => hc
      exact ⟨h.fresh, h.bounded, h.wanted, nofun, h.running, h.ended⟩
    · rename_i hw
      exact ⟨⟨h.fresh, h.bounded, h.wanted, fun _ _ hwanted => absurd hwanted hw, h.running, h.ended⟩, hc⟩
  · exact ⟨h, hc⟩

/-! ## Discoveries -/

theorem Inv.discoverRemoteEntry {s : Remote} (h : Inv s) (hc : Current s) :
    Inv (s.discoverRemoteEntry O) ∧ Current (s.discoverRemoteEntry O) := by
  unfold Remote.discoverRemoteEntry
  split
  · exact ⟨h, hc⟩
  · have hi : ∀ limits, Inv { s.bump.note (.began s.discoveries.length) with
        discoveries := s.discoveries ++ [⟨s.bump.directoryRevision, limits⟩] } := by
      intro limits
      refine ⟨fresh_note h.fresh nofun, fun d k hk => ?_, h.wanted, h.started, h.running, h.ended⟩
      rcases getElem_snoc.mp hk with hk | hk
      · exact h.bump.bounded d k hk
      · rw [hk.2]; exact Nat.le_refl _
    have hcur : ∀ limits, Current { s.bump.note (.began s.discoveries.length) with
        discoveries := s.discoveries ++ [⟨s.bump.directoryRevision, limits⟩] } := by
      intro limits d limit rest hk
      rcases getElem_snoc.mp hk with hk | hk
      · exact absurd rfl (h.current_bump hk)
      · rw [hk.1]
        exact fresh_cons.mpr (Or.inl rfl)
    dsimp only
    split
    · exact Inv.startControl (hi _).stopping fun _ => hcur _
    · exact ⟨hi _, hcur _⟩

/-- A discovery goes on to the pages that are left, or is over. -/
theorem Inv.advance {s : Remote} (h : Inv s) (hc : Current s) {d revision limit : Nat} {limits : List Nat}
    (hd : s.discoveries[d]? = some ⟨revision, limit :: limits⟩) (rest : List Nat) :
    Inv { s with discoveries := s.discoveries.set d ⟨revision, rest⟩ } ∧
      Current { s with discoveries := s.discoveries.set d ⟨revision, rest⟩ } := by
  refine ⟨⟨h.fresh, fun d' k hk => ?_, h.wanted, h.started, h.running, h.ended⟩, fun d' limit' limits' hk => ?_⟩
  · rcases (getElem_set hd).mp hk with ⟨-, rfl⟩ | ⟨-, hk⟩
    · exact (h.bounded d _ hd : revision ≤ s.directoryRevision)
    · exact h.bounded d' k hk
  · rcases (getElem_set hd).mp hk with ⟨rfl, heq⟩ | ⟨-, hk⟩
    · obtain ⟨hrev, -⟩ := Discovery.mk.inj heq
      replace hrev : s.directoryRevision = revision := hrev
      exact hc d limit limits (hrev ▸ hd)
    · exact hc d' limit' limits' hk

theorem Inv.readPage {s : Remote} (h : Inv s) (hc : Current s) {d revision limit : Nat} {limits : List Nat}
    (hd : s.discoveries[d]? = some ⟨revision, limit :: limits⟩) (hr : revision = s.directoryRevision)
    (sessions : List ListedSession) :
    Inv (s.readPage d revision limit limits sessions) ∧ Current (s.readPage d revision limit limits sessions) := by
  obtain ⟨hi, hcur⟩ := h.advance hc hd []
  have hstart := Inv.startControl hi.stopping fun _ => hcur
  unfold Remote.readPage
  dsimp only
  split
  · exact hstart
  · split
    · exact hstart
    · split
      · subst hr
        exact hi.stopEmptyControl hcur (hc d limit limits hd)
      · split
        · exact hstart
        · exact h.advance hc hd limits

theorem Inv.list {s : Remote} (h : Inv s) (hc : Current s) (d : Nat) (result : SdkResult) :
    Inv (s.list O d result) ∧ Current (s.list O d result) := by
  unfold Remote.list
  split
  · rename_i revision limit limits hd
    obtain ⟨hi, hcur⟩ := h.advance hc hd []
    dsimp only
    split
    · exact ⟨hi, hcur⟩
    · rename_i hlive
      rw [not_or] at hlive
      split
      · exact Inv.startControl hi.stopping fun _ => hcur
      · split
        · exact Inv.startControl hi.stopping fun _ => hcur
        · exact Inv.readPage (h.pipeline (Pipeline.disposed_discovered _ _)) hc hd (Classical.not_not.mp hlive.2) _
  · exact ⟨h, hc⟩

/-! ## Events -/

/-- An event of a main session that makes the discoveries stale, or meets none that is not. -/
theorem Inv.mainEvent {s : Remote} (h : Inv s)
    (hc : s.pipeline.disposed = true ∨ s.controlWanted = true → Current (s.note .mainEvent)) :
    Inv (s.note .mainEvent).startControl ∧ Current (s.note .mainEvent).startControl :=
  Inv.startControl h.note_mainEvent.stopping hc

theorem Inv.upserted {s : Remote} (h : Inv s) (hc : Current s) (wasExcluded deleted archived : Bool)
    (sessionID : JsString) :
    Inv (s.upserted wasExcluded deleted archived sessionID) ∧
      Current (s.upserted wasExcluded deleted archived sessionID) := by
  unfold Remote.upserted
  split
  · split
    · have hb := h.bump
      exact ⟨⟨hb.fresh, hb.bounded, hb.wanted, hb.started, hb.running, hb.ended⟩, h.bump_current⟩
    · exact ⟨h, hc⟩
  · exact h.bump.mainEvent fun _ _ _ _ hd => absurd rfl (h.current_bump hd)

theorem Inv.receive {s : Remote} (h : Inv s) (hc : Current s) (e : NormalizedEvent) :
    Inv (s.receive O e) ∧ Current (s.receive O e) := by
  have hi : Inv { s with pipeline := s.pipeline.onEvent O.pipeline e } := h.pipeline (Pipeline.disposed_onEvent _ _)
  unfold Remote.receive
  dsimp only
  split
  · split
    · exact ⟨hi, hc⟩
    · exact hi.upserted hc _ _ _ _
  · exact ⟨hi, hc⟩

theorem Inv.runJob {s : Remote} (h : Inv s) (hc : Current s)
    (hok : dispatches s.pipeline = true → s.controlWanted = false ∨
      ∀ k ∈ s.discoveries, k.revision = s.directoryRevision → k.limits = []) :
    Inv (s.runJob O) ∧ Current (s.runJob O) := by
  have hdisposed : ∀ s' : Remote, s'.pipeline = s.pipeline →
      (s.pipeline.runJob O.pipeline).disposed = s'.pipeline.disposed := by
    intro s' hs'
    rw [hs']
    exact Pipeline.disposed_runJob _
  unfold Remote.runJob
  dsimp only
  split
  · rename_i hdispatch
    have hlive : s.pipeline.disposed = false := by
      unfold dispatches at hdispatch
      split at hdispatch
      · split at hdispatch
        · exact (of_decide_eq_true hdispatch).2.1
        · cases hdispatch
      · cases hdispatch
    obtain ⟨hi, hcur⟩ := h.mainEvent fun hw => by
      rcases hw with hover | hw
      · rw [hover] at hlive
        cases hlive
      · rcases hok hdispatch with hno | hno
        · rw [hno] at hw
          cases hw
        · intro d limit limits hd
          cases hno _ (List.mem_of_getElem? hd) rfl
    exact ⟨hi.pipeline (hdisposed _ (startControl_pipeline _)), hcur⟩
  · exact ⟨h.pipeline (hdisposed s rfl), hc⟩

theorem Inv.step {s : Remote} (h : Inv s) (hc : Current s) {e : RemoteEvent} (hok : Undisturbed s e) :
    Inv (s.step O e) ∧ Current (s.step O e) := by
  have ht : Inv (s.tick e) := h.pipeline rfl
  replace hc : Current (s.tick e) := hc
  replace hok : Undisturbed (s.tick e) e := hok
  unfold Remote.step
  generalize s.tick e = s at ht hc hok
  obtain ⟨nowMs, time, op⟩ := e
  cases op with
  | receive e => exact ht.receive hc e
  | answer l result => exact ⟨ht.pipeline (Pipeline.disposed_answer _ _ _), hc⟩
  | runJob => exact ht.runJob hc hok
  | timer k => exact ⟨ht.pipeline (Pipeline.disposed_call _ _), hc⟩
  | immediate =>
    show Inv (s.immediate O) ∧ Current (s.immediate O)
    unfold Remote.immediate
    split
    · refine Inv.discoverRemoteEntry (s := { s with scheduled := false }) ?_ hc
      exact ⟨ht.fresh, ht.bounded, ht.wanted, ht.started, ht.running, ht.ended⟩
    · exact ⟨ht, hc⟩
  | list d result => exact ht.list hc d result
  | stopped => exact ht.stopped hc
  | dispose => exact ⟨⟨ht.fresh, ht.bounded, ht.wanted, nofun, nofun, fun _ => rfl⟩, hc⟩
  | disposeAll => exact ⟨ht.pipeline (Pipeline.disposed_disposeAll _), hc⟩

/-! ## The theorem -/

/-- In a run whose events of main sessions meet no current discovery of a wanted channel, the channel follows them. -/
theorem follows_main_sessions {es : List RemoteEvent} (h : Along (step O) Undisturbed .init es) :
    Follows (run O es) := by
  have hinv := Along.inv (I := fun s => Inv s ∧ Current s) (fun s e hi hok => hi.1.step hi.2 hok)
    ⟨Inv.init, current_init⟩ h
  exact hinv.1.follows

/-- The session of the first event is deleted, and the directory found empty; one is created while the channel stops. -/
def recreated : List RemoteEvent :=
  [⟨1, 1, .receive (.session false Pipeline.ses none (js "Main") none false)⟩,
    ⟨2, 2, .receive (.session true Pipeline.ses none (js "Main") none false)⟩, ⟨3, 3, .immediate⟩,
    ⟨4, 4, .list 0 (.resolved (some (.obj [(js "data", .arr [])])))⟩,
    ⟨5, 5, .receive (.session false (js "ses_2") none (js "Next") none false)⟩, ⟨6, 6, .stopped⟩]

def sampleRemote : RemoteOptions := ⟨Pipeline.sampleOptions, false⟩

/-- It starts again when the stop is over. -/
theorem recreated_runs : (run sampleRemote recreated).running = true :=
  (follows_main_sessions (by decide +kernel : Along (step sampleRemote) Undisturbed .init recreated)).effective
    (by decide +kernel) (by decide +kernel) (by decide +kernel)

/-- While the list call of the deletion's discovery is out, an event of a session that came about unseen is processed.
    -/
def disturbed : List RemoteEvent :=
  [⟨1, 1, .receive (.session false Pipeline.ses none (js "Main") none false)⟩,
    ⟨2, 2, .receive (.session true Pipeline.ses none (js "Main") none false)⟩, ⟨3, 3, .immediate⟩,
    ⟨4, 4, .receive (.status (js "ses_2") .busy none)⟩,
    ⟨5, 5, .answer 0 (.resolved (some (.obj [(js "id", .str (js "ses_2")), (js "title", .str (js "Next"))])))⟩,
    ⟨5, 5, .runJob⟩, ⟨5, 5, .runJob⟩, ⟨5, 5, .runJob⟩,
    ⟨6, 6, .list 0 (.resolved (some (.obj [(js "data", .arr [])])))⟩, ⟨7, 7, .stopped⟩]

/-- The page from before it stops the channel. -/
theorem stopped_by_a_stale_page : ¬ Follows (run sampleRemote disturbed) ∧
    (run sampleRemote disturbed).running = false ∧
    (run sampleRemote disturbed).pipeline.disposed = false ∧ (run sampleRemote disturbed).log =
      [.emptied 0, .requested, .mainEvent, .began 0, .requested, .mainEvent] := by
  have hlog : (run sampleRemote disturbed).log =
    [.emptied 0, .requested, .mainEvent, .began 0, .requested, .mainEvent] := by
    decide +kernel
  refine ⟨fun h => ?_, by decide +kernel, by decide +kernel, hlog⟩
  have hfresh := h.fresh 0 [] _ hlog
  simp [fresh_cons] at hfresh

end Remote

end NotifyHub.Plugin
