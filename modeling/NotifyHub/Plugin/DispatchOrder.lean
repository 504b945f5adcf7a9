/-
  NotifyHub.Plugin.DispatchOrder — the order in which the pipeline dispatches a session's
  events.

  An event is dispatched by the job that resumes it, and jobs run in order. `line` is a
  session's events on their way there, those next to be resumed first: resumed by a job
  (`ready`), to be resumed by one (`settling`), waiting for the lookup in flight
  (`asking`), on their way to join it (`joining`). Every job moves an event from the
  head of one part to the end of the part before, so the line keeps its order as long as
  an event joins it at its end.

  - `dispatched_in_order`: it does, and a session's events are dispatched in the order
    they were received, if none is received of a session known to be main while one
    before it still waits for a lookup (`waiting`).
  - `idle_overtakes_busy`: one that is goes ahead of it.
-/

import NotifyHub.Plugin.Pipeline

namespace NotifyHub.Plugin

/-- Not settled yet. -/
def Lookup.pending (k : Lookup) : Bool :=
  match k.status with
  | .settled _ => false
  | _ => true

/-- May still find its session to be main, or has found it to be. -/
def Lookup.live (k : Lookup) : Bool := k.pending || k.status = .settled (some true)

namespace Pipeline

variable {O : PipelineOptions}

/-- The session of a received event. -/
def sessionOf (p : Pipeline) (event : Nat) : Option JsString := p.events[event]?.bind (·.sessionID)

/-- The event of the session a job resumes, if it may be dispatched. -/
def readyOf (p : Pipeline) (sid : JsString) : Job → Option Nat
  | .resume n (some true) => if p.sessionOf n = some sid then some n else none
  | _ => none

/-- The event of the session a job settles `isMain` for, if it may be dispatched. -/
def settlingOf (p : Pipeline) (sid : JsString) : Job → Option Nat
  | .owner l (some true) => ((p.lookup l).filter (·.sessionID = sid)).map (·.owner)
  | .adopt n (some true) => if p.sessionOf n = some sid then some n else none
  | _ => none

/-- The event of the session a job joins to a lookup, if it may be dispatched. -/
def joiningOf (p : Pipeline) (sid : JsString) : Job → Option Nat
  | .thenable n l => ((p.lookup l).filter fun k => k.sessionID = sid ∧ k.live).map fun _ => n
  | _ => none

def ready (p : Pipeline) (sid : JsString) : List Nat := p.jobs.filterMap (p.readyOf sid)

def settling (p : Pipeline) (sid : JsString) : List Nat := p.jobs.filterMap (p.settlingOf sid)

/-- The events attached to the session's lookup in flight. -/
def asking (p : Pipeline) (sid : JsString) : List Nat :=
  match ((p.inflight.get sid).bind p.lookup).filter (·.pending) with
  | some k => k.owner :: k.waiters
  | none => []

def joining (p : Pipeline) (sid : JsString) : List Nat := p.jobs.filterMap (p.joiningOf sid)

/-- The session's events whose `isMain` waits for a lookup that may still find it to be main. -/
def waiting (p : Pipeline) (sid : JsString) : List Nat := p.settling sid ++ (p.asking sid ++ p.joining sid)

def line (p : Pipeline) (sid : JsString) : List Nat := p.ready sid ++ p.waiting sid

/-- The session's dispatched events. -/
def past (p : Pipeline) (sid : JsString) : List Nat := p.dispatched.filter fun n => p.sessionOf n = some sid

/-- The session's events in the order they were and will be dispatched. -/
def order (p : Pipeline) (sid : JsString) : List Nat := p.past sid ++ p.line sid

/-- In the order they were received, and all of them received. -/
structure Ordered (p : Pipeline) : Prop where
  increasing : ∀ sid, (p.order sid).Pairwise (· < ·)
  received : ∀ sid, ∀ n ∈ p.order sid, n < p.events.length

/-! ## Lookups and the jobs that go on after them -/

/-- The session of the event is known. -/
def KnownFor (p : Pipeline) (event : Nat) : Prop := ∃ sid, p.sessionOf event = some sid ∧ (p.registry.known sid).isSome

def isOwner (l : Nat) : Job → Bool
  | .owner l' _ => l' = l
  | _ => false

structure Sound (p : Pipeline) : Prop where
  held : ∀ l k, p.lookup l = some k → k.pending = true → p.inflight.get k.sessionID = some l
  named : ∀ sid l, p.inflight.get sid = some l → ∃ k, p.lookup l = some k ∧ k.sessionID = sid
  main : ∀ l k, p.lookup l = some k → k.status = .settled (some true) → (p.registry.known k.sessionID).isSome
  alone : ∀ l k l' k', p.lookup l = some k → p.lookup l' = some k' → k.sessionID = k'.sessionID →
    k.status = .settled (some true) → k'.pending = false
  starter : ∀ l k, p.lookup l = some k → ∀ n ∈ k.owner :: k.waiters, p.sessionOf n = some k.sessionID
  owner : ∀ l main, .owner l main ∈ p.jobs →
    ∃ k, p.lookup l = some k ∧ k.status = .settled main ∧ p.inflight.get k.sessionID = some l
  once : ∀ l, p.jobs.countP (isOwner l) ≤ 1
  joins : ∀ n l, .thenable n l ∈ p.jobs → ∃ k, p.lookup l = some k ∧ p.sessionOf n = some k.sessionID
  adopted : ∀ n, .adopt n (some true) ∈ p.jobs → p.KnownFor n
  resumed : ∀ n, .resume n (some true) ∈ p.jobs → p.KnownFor n
  gated : ∀ n ∈ p.dispatched, n < p.events.length

/-- A step that leaves the events, the lookups and the jobs alone. -/
structure Frame (p p' : Pipeline) : Prop where
  inflight : p'.inflight = p.inflight
  lookups : p'.lookups = p.lookups
  events : p'.events = p.events
  jobs : p'.jobs = p.jobs
  dispatched : p'.dispatched = p.dispatched
  known : ∀ sid, (p.registry.known sid).isSome → (p'.registry.known sid).isSome

theorem Frame.refl (p : Pipeline) : Frame p p := ⟨rfl, rfl, rfl, rfl, rfl, fun _ h => h⟩

theorem Frame.trans {p p' p'' : Pipeline} (h : Frame p p') (h' : Frame p' p'') : Frame p p'' :=
  ⟨h'.inflight.trans h.inflight, h'.lookups.trans h.lookups, h'.events.trans h.events, h'.jobs.trans h.jobs,
    h'.dispatched.trans h.dispatched, fun sid hk => h'.known sid (h.known sid hk)⟩

theorem Sound.frame {p p' : Pipeline} (h : Sound p) (f : Frame p p') : Sound p' := by
  obtain ⟨d, r, i, ls, es, js, c, m, o, ds⟩ := p
  obtain ⟨d', r', i', ls', es', js', c', m', o', ds'⟩ := p'
  obtain ⟨hi, hl, he, hj, hd, hk⟩ := f
  dsimp only at hi hl he hj hd hk
  subst hi hl he hj hd
  have hknown : ∀ {n}, KnownFor ⟨d, r, i', ls', es', js', c, m, o, ds'⟩ n →
      KnownFor ⟨d', r', i', ls', es', js', c', m', o', ds'⟩ n := fun ⟨sid, hs, hr⟩ => ⟨sid, hs, hk sid hr⟩
  exact ⟨h.held, h.named, fun l k hl hs => hk _ (h.main l k hl hs), h.alone, h.starter, h.owner, h.once, h.joins,
    fun n hn => hknown (h.adopted n hn), fun n hn => hknown (h.resumed n hn), h.gated⟩

theorem Ordered.frame {p p' : Pipeline} (h : Ordered p) (f : Frame p p') : Ordered p' := by
  obtain ⟨d, r, i, ls, es, js, c, m, o, ds⟩ := p
  obtain ⟨d', r', i', ls', es', js', c', m', o', ds'⟩ := p'
  obtain ⟨hi, hl, he, hj, hd, -⟩ := f
  dsimp only at hi hl he hj hd
  subst hi hl he hj hd
  exact ⟨h.increasing, h.received⟩

/-! ## What leaves the lookups and the jobs alone -/

theorem frame_deliver (p : Pipeline) (e : Effect) : Frame p (p.deliver e) := by
  unfold deliver
  split <;> exact ⟨rfl, rfl, rfl, rfl, rfl, fun _ h => h⟩

theorem frame_call (p : Pipeline) (f : Machine → Machine) : Frame p (p.call f) := by
  unfold call
  have hstart : Frame p { p with machine := f p.machine } := ⟨rfl, rfl, rfl, rfl, rfl, fun _ h => h⟩
  generalize newEffects p.machine (f p.machine) = es
  generalize ({ p with machine := f p.machine } : Pipeline) = q at hstart
  induction es generalizing q with
  | nil => exact hstart
  | cons e es ih => exact ih (q.deliver e) (hstart.trans (frame_deliver q e))

theorem frame_signals (p : Pipeline) (sid : JsString) (x : Signal) : Frame p (p.signals O sid x) := frame_call p _

theorem frame_dispatch (p : Pipeline) (e : NormalizedEvent) : Frame p (p.dispatch O e) := by
  have hcache : ∀ c, Frame p { p with cache := c } := fun _ => ⟨rfl, rfl, rfl, rfl, rfl, fun _ h => h⟩
  cases e with
  | session => exact Frame.refl p
  | status sid s action => cases s <;> exact frame_signals p sid _
  | error sid outcome =>
    cases sid with
    | none => exact Frame.refl p
    | some sid => exact frame_signals p sid _
  | message sid mid role outcome =>
    cases outcome with
    | none => exact hcache _
    | some outcome => exact (hcache (p.cache.onRole O.bounds sid mid role)).trans (frame_signals _ sid _)
  | messageText sid mid part text => exact hcache _
  | questionAsked sid => exact frame_signals p sid _
  | questionResolved sid => exact frame_signals p sid _
  | permissionAsked sid => exact frame_signals p sid _
  | permissionResolved sid => exact frame_signals p sid _

theorem frame_upsert (p : Pipeline) (deleted : Bool) (sid : JsString) (parentID : Option JsString) (title : JsString)
    (directory : Option JsString) (archived : Bool) :
    Frame p (p.upsert O deleted sid parentID title directory archived) := by
  unfold upsert
  split
  · exact Frame.refl p
  · have hreg : Frame p { p with registry := p.registry.update ⟨sid, parentID, some title, deleted || archived⟩ } :=
      ⟨rfl, rfl, rfl, rfl, rfl, fun _ h => SessionRegistry.known_update _ _ h⟩
    dsimp only
    split
    · exact (hreg.trans (frame_call _ _)).trans ⟨rfl, rfl, rfl, rfl, rfl, fun _ h => h⟩
    · exact hreg

theorem frame_discovered (p : Pipeline) (sessions : List SessionInfo) : Frame p (p.discovered sessions) := by
  unfold discovered
  split
  · exact Frame.refl p
  · refine ⟨rfl, rfl, rfl, rfl, rfl, ?_⟩
    dsimp only
    generalize p.registry = r
    intro sid h
    induction sessions generalizing r with
    | nil => exact h
    | cons info sessions ih => exact ih _ (SessionRegistry.known_updateFromLookup r info h)

theorem frame_disposeAll (p : Pipeline) : Frame p p.disposeAll := by
  unfold disposeAll
  split
  · exact ((frame_call p _).trans (frame_call _ _)).trans ⟨rfl, rfl, rfl, rfl, rfl, fun _ h => h⟩
  · exact Frame.refl p

/-! ## Jobs -/

theorem Sound.sublist {p : Pipeline} (h : Sound p) {js : List Job} (hjs : js.Sublist p.jobs) :
    Sound { p with jobs := js } where
  held := h.held
  named := h.named
  main := h.main
  alone := h.alone
  starter := h.starter
  owner l main hm := h.owner l main (hjs.subset hm)
  once l := Nat.le_trans hjs.countP_le (h.once l)
  joins n l hm := h.joins n l (hjs.subset hm)
  adopted n hm := h.adopted n (hjs.subset hm)
  resumed n hm := h.resumed n (hjs.subset hm)
  gated := h.gated

theorem Sound.enqueue {p : Pipeline} (h : Sound p) {js : List Job}
    (howner : ∀ l main, .owner l main ∈ js →
      ∃ k, p.lookup l = some k ∧ k.status = .settled main ∧ p.inflight.get k.sessionID = some l)
    (honce : ∀ l, p.jobs.countP (isOwner l) + js.countP (isOwner l) ≤ 1)
    (hjoins : ∀ n l, .thenable n l ∈ js → ∃ k, p.lookup l = some k ∧ p.sessionOf n = some k.sessionID)
    (hadopted : ∀ n, .adopt n (some true) ∈ js → p.KnownFor n)
    (hresumed : ∀ n, .resume n (some true) ∈ js → p.KnownFor n) : Sound (p.enqueue js) where
  held := h.held
  named := h.named
  main := h.main
  alone := h.alone
  starter := h.starter
  owner l main hm := (List.mem_append.mp hm).elim (h.owner l main) (howner l main)
  once l := by
    show (p.jobs ++ js).countP (isOwner l) ≤ 1
    rw [List.countP_append]
    exact honce l
  joins n l hm := (List.mem_append.mp hm).elim (h.joins n l) (hjoins n l)
  adopted n hm := (List.mem_append.mp hm).elim (h.adopted n) (hadopted n)
  resumed n hm := (List.mem_append.mp hm).elim (h.resumed n) (hresumed n)
  gated := h.gated

/-- A job that is no owner's may be enqueued where it is known to be right. -/
theorem Sound.push {p : Pipeline} (h : Sound p) {j : Job} (howner : ∀ l, isOwner l j = false)
    (hjoins : ∀ n l, j = .thenable n l → ∃ k, p.lookup l = some k ∧ p.sessionOf n = some k.sessionID)
    (hadopted : ∀ n, j = .adopt n (some true) → p.KnownFor n)
    (hresumed : ∀ n, j = .resume n (some true) → p.KnownFor n) : Sound (p.enqueue [j]) := by
  refine h.enqueue ?_ ?_ ?_ ?_ ?_
  · intro l main hm
    have hl := howner l
    rw [← List.mem_singleton.mp hm] at hl
    simp [isOwner] at hl
  · intro l
    rw [List.countP_singleton, if_neg (by simp [howner l])]
    exact h.once l
  · intro n l hm; exact hjoins n l (List.mem_singleton.mp hm).symm
  · intro n hm; exact hadopted n (List.mem_singleton.mp hm).symm
  · intro n hm; exact hresumed n (List.mem_singleton.mp hm).symm

theorem lookup_set {p : Pipeline} {l l' : Nat} {k k' : Lookup} (h : (p.lookups.set l k)[l']? = some k') :
    l' = l ∧ k' = k ∧ (p.lookup l).isSome ∨ l' ≠ l ∧ p.lookup l' = some k' := by
  rw [List.getElem?_set] at h
  split at h
  · rename_i heq
    subst heq
    split at h
    · rename_i hlt
      cases h
      refine Or.inl ⟨rfl, rfl, ?_⟩
      rw [lookup, List.getElem?_eq_getElem hlt]; rfl
    · cases h
  · rename_i hne
    exact Or.inr ⟨fun he => hne he.symm, h⟩

theorem lookup_set_self {p : Pipeline} {l : Nat} {k k' : Lookup} (h : p.lookup l = some k) :
    (p.lookups.set l k')[l]? = some k' := by
  have hlt : l < p.lookups.length := by
    rw [lookup] at h
    exact (List.getElem?_eq_some_iff.mp h).1
  rw [List.getElem?_set_self hlt]

/-- Write to a lookup that keeps its session and does not come to be pending again. -/
theorem Sound.setLookup {p : Pipeline} (h : Sound p) {l : Nat} {k : Lookup} (k' : Lookup) (hl : p.lookup l = some k)
    (hsid : k'.sessionID = k.sessionID) (hpend : k.pending = true)
    (hmain : k'.status = .settled (some true) → (p.registry.known k.sessionID).isSome)
    (hstarter : ∀ n ∈ k'.owner :: k'.waiters, p.sessionOf n = some k.sessionID) :
    Sound { p with lookups := p.lookups.set l k' } := by
  have hself : ({ p with lookups := p.lookups.set l k' } : Pipeline).lookup l = some k' := lookup_set_self hl
  -- every lookup is an old one under its id, or the one written to
  have hold : ∀ {l' x}, ({ p with lookups := p.lookups.set l k' } : Pipeline).lookup l' = some x →
      l' = l ∧ x = k' ∨ l' ≠ l ∧ p.lookup l' = some x := fun hx =>
    (lookup_set hx).imp (fun ⟨a, b, _⟩ => ⟨a, b⟩) id
  have hnew : ∀ {l' x}, p.lookup l' = some x →
      ∃ y, ({ p with lookups := p.lookups.set l k' } : Pipeline).lookup l' = some y ∧ y.sessionID = x.sessionID := by
    intro l' x hx
    by_cases hne : l' = l
    · subst hne
      rw [hl] at hx; cases hx
      exact ⟨k', hself, hsid⟩
    · exact ⟨x, (List.getElem?_set_ne fun he => hne he.symm).trans hx, rfl⟩
  refine ⟨?_, ?_, ?_, ?_, ?_, ?_, h.once, ?_, h.adopted, h.resumed, h.gated⟩
  · intro l' x hx hp
    rcases hold hx with ⟨rfl, rfl⟩ | ⟨-, hx⟩
    · rw [hsid]; exact h.held _ k hl hpend
    · exact h.held l' x hx hp
  · intro sid l' hi
    obtain ⟨x, hx, hs⟩ := h.named sid l' hi
    obtain ⟨y, hy, hys⟩ := hnew hx
    exact ⟨y, hy, hys.trans hs⟩
  · intro l' x hx hs
    rcases hold hx with ⟨rfl, rfl⟩ | ⟨-, hx⟩
    · rw [hsid]; exact hmain hs
    · exact h.main l' x hx hs
  · intro l₁ x l₂ y hx hy hxy hs
    rcases hold hx with ⟨rfl, rfl⟩ | ⟨-, hx'⟩ <;> rcases hold hy with ⟨rfl, rfl⟩ | ⟨hne, hy'⟩
    · simp [Lookup.pending, hs]
    · cases hpy : y.pending with
      | false => rfl
      | true =>
        -- two pending lookups of one session would be the same
        have hheld := h.held _ k hl hpend
        rw [← hsid, hxy, h.held l₂ y hy' hpy] at hheld
        exact absurd (Option.some.inj hheld) hne
    · have := h.alone l₁ x _ k hx' hl (hxy.trans hsid) hs
      rw [hpend] at this; cases this
    · exact h.alone l₁ x l₂ y hx' hy' hxy hs
  · intro l' x hx
    rcases hold hx with ⟨rfl, rfl⟩ | ⟨-, hx⟩
    · rw [hsid]; exact hstarter
    · exact h.starter l' x hx
  · intro l' main hm
    obtain ⟨x, hx, hs, hi⟩ := h.owner l' main hm
    have hne : l' ≠ l := by
      intro he
      subst he
      rw [hl] at hx; cases hx
      simp [Lookup.pending, hs] at hpend
    exact ⟨x, (List.getElem?_set_ne fun he => hne he.symm).trans hx, hs, hi⟩
  · intro n l' hm
    obtain ⟨x, hx, hs⟩ := h.joins n l' hm
    obtain ⟨y, hy, hys⟩ := hnew hx
    exact ⟨y, hy, by rw [hys]; exact hs⟩

/-! ## The line -/

theorem Ordered.of_sublist {p p' : Pipeline} (h : Ordered p) (hlen : p.events.length ≤ p'.events.length)
    (hsub : ∀ sid, (p'.order sid).Sublist (p.order sid)) : Ordered p' where
  increasing sid := (h.increasing sid).sublist (hsub sid)
  received sid n hn := Nat.lt_of_lt_of_le (h.received sid n ((hsub sid).subset hn)) hlen

/-- The newest event joins at the end. -/
theorem Ordered.snoc {p p' : Pipeline} (h : Ordered p) (hlen : p'.events.length = p.events.length + 1)
    (hsub : ∀ sid, (p'.order sid).Sublist (p.order sid ++ [p.events.length])) : Ordered p' where
  increasing sid := by
    refine List.Pairwise.sublist (hsub sid)
      (List.pairwise_append.mpr ⟨h.increasing sid, List.pairwise_singleton _ _, ?_⟩)
    intro n hn m hm
    rw [List.mem_singleton.mp hm]
    exact h.received sid n hn
  received sid n hn := by
    rw [hlen]
    rcases List.mem_append.mp ((hsub sid).subset hn) with hn | hn
    · have := h.received sid n hn; omega
    · rw [List.mem_singleton.mp hn]; omega

/-- The order, with the job `j` at the head of the queue. -/
theorem order_cons (p : Pipeline) (j : Job) (js : List Job) (sid : JsString) :
    ({ p with jobs := j :: js } : Pipeline).order sid =
      p.past sid ++ ((p.readyOf sid j).toList ++ js.filterMap (p.readyOf sid) ++
        ((p.settlingOf sid j).toList ++ js.filterMap (p.settlingOf sid) ++
          (p.asking sid ++ ((p.joiningOf sid j).toList ++ js.filterMap (p.joiningOf sid))))) := by
  have hcons : ∀ f : Job → Option Nat, (j :: js).filterMap f = (f j).toList ++ js.filterMap f := by
    intro f
    rw [List.filterMap_cons]
    cases f j <;> rfl
  show _ ++ ((j :: js).filterMap (p.readyOf sid) ++ ((j :: js).filterMap (p.settlingOf sid) ++
    (p.asking sid ++ (j :: js).filterMap (p.joiningOf sid)))) = _
  rw [hcons, hcons, hcons]; rfl

/-- The order, with the jobs `js` put at the end of the queue. -/
theorem order_enqueue (p : Pipeline) (js : List Job) (sid : JsString) :
    (p.enqueue js).order sid =
      p.past sid ++ (p.ready sid ++ js.filterMap (p.readyOf sid) ++
        (p.settling sid ++ js.filterMap (p.settlingOf sid) ++
          (p.asking sid ++ (p.joining sid ++ js.filterMap (p.joiningOf sid))))) := by
  show _ ++ ((p.jobs ++ js).filterMap (p.readyOf sid) ++ ((p.jobs ++ js).filterMap (p.settlingOf sid) ++
    (p.asking sid ++ (p.jobs ++ js).filterMap (p.joiningOf sid)))) = _
  rw [List.filterMap_append, List.filterMap_append, List.filterMap_append]; rfl

theorem order_push (p : Pipeline) (j : Job) (sid : JsString) :
    (p.enqueue [j]).order sid =
      p.past sid ++ (p.ready sid ++ (p.readyOf sid j).toList ++ (p.settling sid ++ (p.settlingOf sid j).toList ++
        (p.asking sid ++ (p.joining sid ++ (p.joiningOf sid j).toList)))) := by
  have hone : ∀ f : Job → Option Nat, [j].filterMap f = (f j).toList := by
    intro f
    rw [List.filterMap_cons]
    cases f j <;> rfl
  rw [order_enqueue, hone, hone, hone]

theorem asking_eq {p : Pipeline} {sid : JsString} {l : Nat} {k : Lookup} (hi : p.inflight.get sid = some l)
    (hl : p.lookup l = some k) : p.asking sid = if k.pending then k.owner :: k.waiters else [] := by
  rw [asking, hi, Option.bind_some, hl, Option.filter_some]
  cases k.pending <;> rfl

theorem asking_none {p : Pipeline} {sid : JsString} (hi : p.inflight.get sid = none) : p.asking sid = [] := by
  rw [asking, hi]; rfl

/-- An event whose `isMain` settles goes from the head of those settling to the end of those ready. -/
theorem order_settle {p q : Pipeline} {j : Job} {n : Nat} {main : Option Bool} {sid : JsString}
    (hpast : q.past sid = p.past sid) (hask : q.asking sid = p.asking sid) (hjobs : q.jobs = p.jobs)
    (hready : q.readyOf sid = p.readyOf sid) (hsettling : q.settlingOf sid = p.settlingOf sid)
    (hjoining : q.joiningOf sid = p.joiningOf sid) (hr : p.readyOf sid j = none) (hj : p.joiningOf sid j = none)
    (hs : p.settlingOf sid j = p.readyOf sid (.resume n main)) :
    (q.enqueue [.resume n main]).order sid = ({ p with jobs := j :: p.jobs } : Pipeline).order sid := by
  have hs' : p.settlingOf sid (.resume n main) = none := rfl
  have hj' : p.joiningOf sid (.resume n main) = none := rfl
  rw [order_cons, order_push, hpast, hask, ready, settling, joining, hjobs, hready, hsettling, hjoining, hr, hj, hs,
    hs', hj']
  simp

theorem order_adopt (p : Pipeline) (n : Nat) (main : Option Bool) (sid : JsString) :
    (p.enqueue [.resume n main]).order sid = ({ p with jobs := .adopt n main :: p.jobs } : Pipeline).order sid := by
  refine order_settle rfl rfl rfl rfl rfl rfl rfl rfl ?_
  cases main with
  | none => rfl
  | some b => cases b <;> rfl

theorem order_owner {p : Pipeline} {l : Nat} {main : Option Bool} {k : Lookup} (h : Sound p) (hl : p.lookup l = some k)
    (hk : k.status = .settled main) (hi : p.inflight.get k.sessionID = some l) (sid : JsString) :
    ({ p with inflight := p.inflight.delete k.sessionID }.enqueue [.resume k.owner main]).order sid =
      ({ p with jobs := .owner l main :: p.jobs } : Pipeline).order sid := by
  refine order_settle rfl ?_ rfl rfl rfl rfl rfl rfl ?_
  · -- the lookup has settled, so nothing of its session waits on it
    by_cases hsid : sid = k.sessionID
    · subst hsid
      have hpend : k.pending = false := by simp [Lookup.pending, hk]
      rw [asking_eq hi hl, hpend, asking_none (OMap.get_delete_self ..)]; rfl
    · simp only [asking, OMap.get_delete_ne _ hsid]; rfl
  · cases main with
    | none => rfl
    | some b =>
      cases b with
      | false => rfl
      | true =>
        have hown := h.starter l k hl k.owner List.mem_cons_self
        by_cases hsid : k.sessionID = sid
        · simp [settlingOf, readyOf, hl, hown, hsid]
        · simp [settlingOf, readyOf, hl, hown, hsid, Option.filter]

/-- A lookup is written to, its session and owner left. -/
theorem settlingOf_set {p : Pipeline} {l : Nat} {k : Lookup} (k' : Lookup) (hl : p.lookup l = some k)
    (hsid : k'.sessionID = k.sessionID) (howner : k'.owner = k.owner) (sid : JsString) :
    settlingOf { p with lookups := p.lookups.set l k' } sid = p.settlingOf sid := by
  funext j
  cases j with
  | owner l' main =>
    have hl' : ({ p with lookups := p.lookups.set l k' } : Pipeline).lookup l' =
        if l' = l then some k' else p.lookup l' := by
      by_cases he : l' = l
      · subst he; rw [if_pos rfl]; exact lookup_set_self hl
      · rw [if_neg he]; exact List.getElem?_set_ne fun h => he h.symm
    cases main with
    | none => rfl
    | some b =>
      cases b with
      | false => rfl
      | true =>
        simp only [settlingOf, hl']
        by_cases he : l' = l
        · subst he
          rw [if_pos rfl, hl, Option.filter_some, Option.filter_some, hsid]
          split
          · simp [howner]
          · rfl
        · rw [if_neg he]
  | adopt n main =>
    cases main with
    | none => rfl
    | some b => cases b <;> rfl
  | _ => rfl

theorem asking_set_ne {p : Pipeline} (h : Sound p) {l : Nat} {k k' : Lookup} (hl : p.lookup l = some k) {sid : JsString}
    (hsid : sid ≠ k.sessionID) : asking { p with lookups := p.lookups.set l k' } sid = p.asking sid := by
  cases hi : p.inflight.get sid with
  | none => exact (asking_none (p := { p with lookups := p.lookups.set l k' }) hi).trans (asking_none hi).symm
  | some l' =>
    obtain ⟨x, hx, hs⟩ := h.named sid l' hi
    have hne : l' ≠ l := fun he => by subst he; rw [hl] at hx; cases hx; exact hsid hs.symm
    have hx' : ({ p with lookups := p.lookups.set l k' } : Pipeline).lookup l' = some x :=
      (List.getElem?_set_ne fun he => hne he.symm).trans hx
    exact (asking_eq (p := { p with lookups := p.lookups.set l k' }) hi hx').trans (asking_eq hi hx).symm

/-- What joins it still does, if it is live. -/
theorem joiningOf_set {p : Pipeline} {l : Nat} {k : Lookup} (k' : Lookup) (hl : p.lookup l = some k)
    (hsid : k'.sessionID = k.sessionID) (hlive : k.live = true) (sid : JsString) :
    joiningOf { p with lookups := p.lookups.set l k' } sid =
      fun j => match j with
        | .thenable n l' => if l' = l ∧ k'.live = false then none else p.joiningOf sid (.thenable n l')
        | _ => none := by
  funext j
  cases j with
  | thenable n l' =>
    have hl' : ({ p with lookups := p.lookups.set l k' } : Pipeline).lookup l' =
        if l' = l then some k' else p.lookup l' := by
      by_cases he : l' = l
      · subst he; rw [if_pos rfl]; exact lookup_set_self hl
      · rw [if_neg he]; exact List.getElem?_set_ne fun h => he h.symm
    simp only [joiningOf, hl']
    by_cases he : l' = l
    · subst he
      rw [if_pos rfl, hl, Option.filter_some, Option.filter_some, hsid, hlive]
      cases hk' : k'.live <;> simp
    · simp [he]
  | _ => rfl

theorem asking_set_self {p : Pipeline} (h : Sound p) {l : Nat} {k : Lookup} (hl : p.lookup l = some k)
    (hpend : k.pending = true) (k' : Lookup) :
    asking { p with lookups := p.lookups.set l k' } k.sessionID = if k'.pending then k'.owner :: k'.waiters else [] :=
  asking_eq (p := { p with lookups := p.lookups.set l k' }) (h.held l k hl hpend) (lookup_set_self hl)

theorem live_of_pending {k : Lookup} (h : k.pending = true) : k.live = true := by simp [Lookup.live, h]

theorem joiningOf_thenable {p : Pipeline} {l : Nat} {k : Lookup} (hl : p.lookup l = some k) (n : Nat) (sid : JsString) :
    p.joiningOf sid (.thenable n l) = if k.sessionID = sid ∧ k.live = true then some n else none := by
  rw [joiningOf, hl, Option.filter_some]
  by_cases hk : k.sessionID = sid ∧ k.live = true
  · rw [if_pos hk, if_pos (by simpa using hk)]; rfl
  · rw [if_neg hk, if_neg (by simpa using hk)]; rfl

/-- An event that attaches to a pending lookup goes from the head of those joining to the end of those attached. -/
theorem order_attach {p : Pipeline} (h : Sound p) {l : Nat} {k : Lookup} (hl : p.lookup l = some k)
    (hpend : k.pending = true) (n : Nat) (sid : JsString) :
    ({ p with lookups := p.lookups.set l { k with waiters := k.waiters ++ [n] } } : Pipeline).order sid =
      ({ p with jobs := .thenable n l :: p.jobs } : Pipeline).order sid := by
  have hlive := live_of_pending hpend
  have hs := settlingOf_set { k with waiters := k.waiters ++ [n] } hl rfl rfl sid
  have hj : joiningOf { p with lookups := p.lookups.set l { k with waiters := k.waiters ++ [n] } } sid =
      p.joiningOf sid := by
    rw [joiningOf_set { k with waiters := k.waiters ++ [n] } hl rfl hlive]
    funext j
    cases j with
    | thenable =>
      exact if_neg fun hc => Bool.noConfusion (hlive.symm.trans (show k.live = false from hc.2))
    | _ => rfl
  have hr : p.readyOf sid (.thenable n l) = none := rfl
  have hs' : p.settlingOf sid (.thenable n l) = none := rfl
  rw [order_cons, hr, hs', joiningOf_thenable hl, hlive]
  show p.past sid ++ (p.ready sid ++ (p.jobs.filterMap (settlingOf _ sid) ++
    (asking _ sid ++ p.jobs.filterMap (joiningOf _ sid)))) = _
  rw [hs, hj, ready]
  by_cases hsid : sid = k.sessionID
  · subst hsid
    rw [asking_eq (h.held l k hl hpend) hl, hpend, asking_set_self h hl hpend,
      show Lookup.pending { k with waiters := k.waiters ++ [n] } = true from hpend]
    simp
  · rw [asking_set_ne h hl hsid, if_neg fun hc => hsid hc.1.symm]
    simp

/-- Where the session's lookup found it to be main, none is pending. -/
theorem asking_of_main {p : Pipeline} (h : Sound p) {l : Nat} {k : Lookup} (hl : p.lookup l = some k)
    (hk : k.status = .settled (some true)) : p.asking k.sessionID = [] := by
  cases hi : p.inflight.get k.sessionID with
  | none => exact asking_none hi
  | some l' =>
    obtain ⟨k', hl', hs⟩ := h.named _ l' hi
    rw [asking_eq hi hl', h.alone l k l' k' hl hl' hs.symm hk]; rfl

theorem order_join {p : Pipeline} (h : Sound p) {l n : Nat} {k : Lookup} {main : Option Bool} (hl : p.lookup l = some k)
    (hk : k.status = .settled main) (hn : p.sessionOf n = some k.sessionID) (sid : JsString) :
    (p.enqueue [.adopt n main]).order sid = ({ p with jobs := .thenable n l :: p.jobs } : Pipeline).order sid := by
  have hr : p.readyOf sid (.thenable n l) = none := rfl
  have hs : p.settlingOf sid (.thenable n l) = none := rfl
  have hr' : p.readyOf sid (.adopt n main) = none := rfl
  have hj' : p.joiningOf sid (.adopt n main) = none := rfl
  rw [order_cons, order_push, hr, hs, hr', hj', joiningOf_thenable hl, ready, settling, joining]
  by_cases hlive : k.sessionID = sid ∧ k.live = true
  · obtain ⟨rfl, hlive⟩ := hlive
    have hmain : main = some true := by simpa [Lookup.live, Lookup.pending, hk] using hlive
    subst hmain
    have hset : p.settlingOf k.sessionID (.adopt n (some true)) = some n := if_pos hn
    rw [asking_of_main h hl hk, hset, hlive]
    simp
  · have hset : p.settlingOf sid (.adopt n main) = none := by
      unfold settlingOf
      split
      · rename_i heq; cases heq
      · rename_i heq
        cases heq
        refine if_neg fun hc => hlive ⟨Option.some.inj (hn.symm.trans hc), ?_⟩
        simp [Lookup.live, hk]
      · rfl
    rw [hset, if_neg hlive]
    simp

theorem filterMap_sublist {α β : Type} {f g : α → Option β} (h : ∀ a, f a = none ∨ f a = g a) (l : List α) :
    (l.filterMap f).Sublist (l.filterMap g) := by
  induction l with
  | nil => exact List.Sublist.refl _
  | cons a l ih =>
    rw [List.filterMap_cons, List.filterMap_cons]
    rcases h a with ha | ha
    · rw [ha]
      cases g a with
      | none => exact ih
      | some b => exact ih.cons b
    · rw [ha]
      cases g a with
      | none => exact ih
      | some b => exact ih.cons_cons b

theorem settlingOf_adopts {p : Pipeline} {sid s : JsString} :
    ∀ {ws : List Nat}, (∀ n ∈ ws, p.sessionOf n = some s) →
      (ws.map (Job.adopt · (some true))).filterMap (p.settlingOf sid) = if sid = s then ws else []
  | [], _ => by simp
  | n :: ws, h => by
    rw [List.map_cons, List.filterMap_cons, settlingOf_adopts fun m hm => h m (List.mem_cons_of_mem _ hm)]
    have hn := h n List.mem_cons_self
    by_cases hsid : sid = s
    · subst hsid; simp [settlingOf, hn]
    · have hne : s ≠ sid := fun he => hsid he.symm
      simp [settlingOf, hn, hsid, if_neg hne]

/-- A lookup that settles: what waits for it settles too, or will not be dispatched. -/
theorem order_resolved {p : Pipeline} (h : Sound p) {l : Nat} {k : Lookup} (hl : p.lookup l = some k)
    (hpend : k.pending = true) (main : Option Bool) (sid : JsString) :
    ((({ p with lookups := p.lookups.set l { k with status := .settled main } } : Pipeline).enqueue
      (.owner l main :: k.waiters.map (.adopt · main))).order sid).Sublist (p.order sid) := by
  have hlive := live_of_pending hpend
  have hstart := h.starter l k hl
  -- what is put in the queue settles what was attached, in its order
  have hset : (((Job.owner l main :: k.waiters.map (.adopt · main)).filterMap (p.settlingOf sid))).Sublist
      (if sid = k.sessionID then k.owner :: k.waiters else []) := by
    cases main with
    | none =>
      have hnil : (Job.owner l none :: k.waiters.map (.adopt · none)).filterMap (p.settlingOf sid) = [] := by
        simp [settlingOf]
      rw [hnil]; exact List.nil_sublist _
    | some b =>
      cases b with
      | false =>
        have hnil : (Job.owner l (some false) :: k.waiters.map (.adopt · (some false))).filterMap
          (p.settlingOf sid) = [] := by
          simp [settlingOf]
        rw [hnil]; exact List.nil_sublist _
      | true =>
        rw [List.filterMap_cons, settlingOf_adopts fun n hn => hstart n (List.mem_cons_of_mem _ hn), settlingOf, hl,
          Option.filter_some]
        by_cases hsid : sid = k.sessionID
        · simp [hsid]
        · have hne : k.sessionID ≠ sid := fun he => hsid he.symm
          simp [hsid, hne]
  have hask : (asking { p with lookups := p.lookups.set l { k with status := .settled main } } sid) =
      if sid = k.sessionID then [] else p.asking sid := by
    by_cases hsid : sid = k.sessionID
    · subst hsid; rw [if_pos rfl, asking_set_self h hl hpend]; rfl
    · rw [if_neg hsid]; exact asking_set_ne h hl hsid
  have hjoin : (p.jobs.filterMap
      (joiningOf { p with lookups := p.lookups.set l { k with status := .settled main } } sid)).Sublist
        (p.joining sid) := by
    rw [joiningOf_set { k with status := .settled main } hl rfl hlive]
    refine filterMap_sublist (fun j => ?_) _
    cases j with
    | thenable n l' =>
      dsimp only
      split
      · exact Or.inl rfl
      · exact Or.inr rfl
    | _ => exact Or.inl rfl
  have hr : (Job.owner l main :: k.waiters.map (.adopt · main)).filterMap (p.readyOf sid) = [] := by
    simp [readyOf]
  have hj : ∀ q : Pipeline, (Job.owner l main :: k.waiters.map (.adopt · main)).filterMap (q.joiningOf sid) = [] := by
    intro q; simp [joiningOf]
  have hs := settlingOf_set { k with status := .settled main } hl rfl rfl sid
  generalize (Job.owner l main :: k.waiters.map (.adopt · main)) = js at hset hr hj ⊢
  rw [order_enqueue]
  show (p.past sid ++ (p.ready sid ++ js.filterMap (p.readyOf sid) ++ (p.jobs.filterMap (settlingOf _ sid) ++
    js.filterMap (settlingOf _ sid) ++ (asking _ sid ++ (p.jobs.filterMap (joiningOf _ sid) ++
      js.filterMap (joiningOf _ sid)))))).Sublist
        (p.past sid ++ (p.ready sid ++ (p.settling sid ++ (p.asking sid ++ p.joining sid))))
  have hmid : (js.filterMap (p.settlingOf sid) ++ if sid = k.sessionID then [] else p.asking sid).Sublist
    (p.asking sid) := by
    split at hset
    · rename_i hsid
      subst hsid
      rw [if_pos rfl, List.append_nil, asking_eq (h.held l k hl hpend) hl, hpend]
      exact hset
    · rename_i hsid
      rw [if_neg hsid, List.sublist_nil.mp hset, List.nil_append]
  rw [hr, hs, hj, hask, List.append_nil, List.append_nil, List.append_assoc (p.jobs.filterMap _),
    ← List.append_assoc (js.filterMap _)]
  exact (List.Sublist.refl _).append ((List.Sublist.refl _).append ((List.Sublist.refl _).append (hmid.append hjoin)))

/-! ## One job -/

/-- Where it is certain, `main` is the answer of a session that is known. -/
theorem Sound.knownFor {p : Pipeline} (h : Sound p) {l n : Nat} {k : Lookup} (hl : p.lookup l = some k)
    (hk : k.status = .settled (some true)) (hn : p.sessionOf n = some k.sessionID) : p.KnownFor n :=
  ⟨k.sessionID, hn, h.main l k hl hk⟩

theorem not_owner_of_once {js : List Job} {l : Nat} {main : Option Bool}
    (h : (Job.owner l main :: js).countP (isOwner l) ≤ 1) (main' : Option Bool) : .owner l main' ∉ js := by
  intro hm
  have hone : isOwner l (.owner l main) = true := by simp [isOwner]
  rw [List.countP_cons_of_pos hone] at h
  have : 0 < js.countP (isOwner l) := List.countP_pos_iff.mpr ⟨_, hm, by simp [isOwner]⟩
  omega

theorem Sound.deleteInflight {p : Pipeline} (h : Sound p) {l : Nat} {k : Lookup} (hl : p.lookup l = some k)
    (hpend : k.pending = false) (hi : p.inflight.get k.sessionID = some l) (hno : ∀ main, .owner l main ∉ p.jobs) :
    Sound { p with inflight := p.inflight.delete k.sessionID } := by
  refine ⟨?_, ?_, h.main, h.alone, h.starter, ?_, h.once, h.joins, h.adopted, h.resumed, h.gated⟩
  · intro l' k' hl' hp
    have hheld := h.held l' k' hl' hp
    have hne : k'.sessionID ≠ k.sessionID := by
      intro he
      rw [he, hi] at hheld
      cases hheld
      obtain rfl : k = k' := Option.some.inj (hl.symm.trans hl')
      rw [hpend] at hp; cases hp
    exact (OMap.get_delete_ne _ hne).trans hheld
  · intro sid l' hd
    rw [OMap.get_delete] at hd
    split at hd
    · cases hd
    · exact h.named sid l' hd
  · intro l' main hm
    obtain ⟨k', hl', hk', hi'⟩ := h.owner l' main hm
    refine ⟨k', hl', hk', ?_⟩
    have hne : k'.sessionID ≠ k.sessionID := by
      intro he
      rw [he, hi] at hi'
      cases hi'
      exact hno main hm
    exact (OMap.get_delete_ne _ hne).trans hi'

theorem Sound.resolved {p : Pipeline} (h : Sound p) {l : Nat} {k : Lookup} (hl : p.lookup l = some k)
    (hpend : k.pending = true) {registry : SessionRegistry} {main : Option Bool}
    (hknown : ∀ sid, (p.registry.known sid).isSome → (registry.known sid).isSome)
    (hmain : main = some true → (registry.known k.sessionID).isSome) :
    Sound (({ p with registry, lookups := p.lookups.set l { k with status := .settled main } } : Pipeline).enqueue
      (.owner l main :: k.waiters.map (.adopt · main))) := by
  have hreg : Sound { p with registry } := h.frame ⟨rfl, rfl, rfl, rfl, rfl, hknown⟩
  have hset := hreg.setLookup { k with status := .settled main } hl rfl hpend
    (fun hs => hmain (LookupStatus.settled.inj hs)) (h.starter l k hl)
  have hself : (p.lookups.set l { k with status := .settled main })[l]? = some { k with status := .settled main } :=
    lookup_set_self hl
  refine hset.enqueue ?_ ?_ ?_ ?_ ?_
  · intro l' main' hm
    rcases List.mem_cons.mp hm with he | hm
    · cases he
      exact ⟨_, hself, rfl, h.held l k hl hpend⟩
    · obtain ⟨n, -, hn⟩ := List.mem_map.mp hm
      cases hn
  · intro l'
    have hadopts : (k.waiters.map (Job.adopt · main)).countP (isOwner l') = 0 := by
      rw [List.countP_eq_zero]
      intro j hj
      obtain ⟨n, -, rfl⟩ := List.mem_map.mp hj
      simp [isOwner]
    rw [List.countP_cons, hadopts, Nat.zero_add]
    by_cases he : l = l'
    · subst he
      have hzero : p.jobs.countP (isOwner l) = 0 := by
        rw [List.countP_eq_zero]
        intro j hj hown
        cases j with
        | owner l' main' =>
          have heq : l' = l := by simpa [isOwner] using hown
          subst heq
          obtain ⟨k', hl', hk', -⟩ := h.owner l' main' hj
          rw [hl] at hl'; cases hl'
          simp [Lookup.pending, hk'] at hpend
        | _ => cases hown
      show p.jobs.countP (isOwner l) + _ ≤ 1
      rw [hzero]
      split <;> omega
    · have := h.once l'
      simpa [isOwner, he] using this
  · intro n l' hm
    rcases List.mem_cons.mp hm with he | hm
    · cases he
    · obtain ⟨n, -, hn⟩ := List.mem_map.mp hm; cases hn
  · intro n hm
    rcases List.mem_cons.mp hm with he | hm
    · cases he
    · obtain ⟨n', hn', he⟩ := List.mem_map.mp hm
      cases he
      exact ⟨k.sessionID, h.starter l k hl n (List.mem_cons_of_mem _ hn'), hmain rfl⟩
  · intro n hm
    rcases List.mem_cons.mp hm with he | hm
    · cases he
    · obtain ⟨n, -, hn⟩ := List.mem_map.mp hm; cases hn

theorem sound_ordered_resume {p : Pipeline} {n : Nat} {main : Option Bool} {js : List Job}
    (hs : Sound { p with jobs := .resume n main :: js }) (ho : Ordered { p with jobs := .resume n main :: js }) :
    Sound (({ p with jobs := js } : Pipeline).resume O n main) ∧
      Ordered (({ p with jobs := js } : Pipeline).resume O n main) := by
  have htail : Sound { p with jobs := js } := hs.sublist (List.sublist_cons_self _ _)
  have hsettle : ∀ sid, p.settlingOf sid (.resume n main) = none := fun _ => rfl
  have hjoin : ∀ sid, p.joiningOf sid (.resume n main) = none := fun _ => rfl
  have hdrop : Ordered { p with jobs := js } := by
    refine ho.of_sublist (Nat.le_refl _) fun sid => ?_
    rw [order_cons, hsettle, hjoin]
    refine (List.Sublist.refl _).append (List.Sublist.append ?_ (List.Sublist.refl _))
    exact List.sublist_append_right _ _
  unfold resume
  split
  · exact ⟨htail, hdrop⟩
  · rename_i e he
    split
    · exact ⟨htail, hdrop⟩
    · rename_i hgo
      obtain rfl : main = some true := by
        by_contra hne
        exact hgo (Or.inl hne)
      have hn : n < p.events.length := (List.getElem?_eq_some_iff.mp he).1
      have hsound : Sound { p with jobs := js, dispatched := p.dispatched ++ [n] } := by
        refine ⟨htail.held, htail.named, htail.main, htail.alone, htail.starter, htail.owner, htail.once, htail.joins,
          htail.adopted, htail.resumed, ?_⟩
        intro m hm
        rcases List.mem_append.mp hm with hm | hm
        · exact htail.gated m hm
        · rw [List.mem_singleton.mp hm]; exact hn
      refine ⟨hsound.frame (frame_dispatch _ e), Ordered.frame ?_ (frame_dispatch _ e)⟩
      refine ho.of_sublist (Nat.le_refl _) fun sid => ?_
      -- the event goes from the head of those ready to the end of those dispatched
      rw [order_cons, hsettle, hjoin]
      have hpast : past { p with jobs := js, dispatched := p.dispatched ++ [n] } sid =
          p.past sid ++ (p.readyOf sid (.resume n (some true))).toList := by
        rw [past, List.filter_append]
        show p.past sid ++ [n].filter (fun m => p.sessionOf m = some sid) = _
        rw [readyOf]
        by_cases hsid : p.sessionOf n = some sid
        · simp [hsid]
        · simp [hsid]
      rw [order, hpast]
      show (p.past sid ++ _ ++ (js.filterMap (p.readyOf sid) ++ (js.filterMap (p.settlingOf sid) ++
        (p.asking sid ++ js.filterMap (p.joiningOf sid))))).Sublist _
      rw [List.append_assoc, List.append_assoc]
      exact List.Sublist.refl _

theorem sound_ordered_perform {p : Pipeline} {j : Job} {js : List Job} (hs : Sound { p with jobs := j :: js })
    (ho : Ordered { p with jobs := j :: js }) :
    Sound (({ p with jobs := js } : Pipeline).perform O j) ∧
      Ordered (({ p with jobs := js } : Pipeline).perform O j) := by
  have htail : Sound { p with jobs := js } := hs.sublist (List.sublist_cons_self _ _)
  cases j with
  | resolved l parentID =>
    have hdrop : Ordered { p with jobs := js } := by
      refine ho.of_sublist (Nat.le_refl _) fun sid => ?_
      have hr : p.readyOf sid (.resolved l parentID) = none := rfl
      have hset : p.settlingOf sid (.resolved l parentID) = none := rfl
      have hj : p.joiningOf sid (.resolved l parentID) = none := rfl
      rw [order_cons, hr, hset, hj]
      exact List.Sublist.refl _
    unfold perform
    dsimp only
    split
    · rename_i sid owner waiters hl
      constructor
      · refine htail.resolved (k := ⟨sid, owner, waiters, .answered⟩) hl rfl
          (fun s hk => SessionRegistry.known_resolve _ _ _ hk) ?_
        intro hmain
        exact SessionRegistry.known_of_resolve _ hmain
      · refine hdrop.of_sublist (Nat.le_refl _) fun s => ?_
        exact order_resolved (k := ⟨sid, owner, waiters, .answered⟩) htail hl rfl _ s
    · exact ⟨htail, hdrop⟩
  | owner l main =>
    obtain ⟨k, hl, hk, hi⟩ := hs.owner l main List.mem_cons_self
    have hpend : k.pending = false := by simp [Lookup.pending, hk]
    unfold perform
    dsimp only
    split
    · rename_i k' hl'
      obtain rfl : k = k' := Option.some.inj (hl.symm.trans hl')
      constructor
      · have hno := not_owner_of_once (hs.once l)
        refine (htail.deleteInflight hl hpend hi hno).push (fun _ => rfl) nofun nofun ?_
        intro n hn
        cases hn
        exact htail.knownFor hl hk (htail.starter l k hl _ List.mem_cons_self)
      · refine ho.of_sublist (Nat.le_refl _) fun sid => ?_
        exact (order_owner htail hl hk hi sid).symm ▸ List.Sublist.refl _
    · rename_i hn
      exact absurd (hl.symm.trans hn) nofun
  | thenable n l =>
    obtain ⟨k, hl, hn⟩ := hs.joins n l List.mem_cons_self
    unfold perform
    dsimp only
    split
    · rename_i sid owner waiters status hl'
      obtain rfl : k = ⟨sid, owner, waiters, status⟩ := Option.some.inj (hl.symm.trans hl')
      split
      · rename_i main
        constructor
        · refine htail.push (fun _ => rfl) nofun ?_ nofun
          intro m hm
          cases hm
          exact htail.knownFor hl rfl hn
        · refine ho.of_sublist (Nat.le_refl _) fun s => ?_
          exact (order_join htail hl rfl hn s).symm ▸ List.Sublist.refl _
      · rename_i hopen
        have hpend : (⟨sid, owner, waiters, status⟩ : Lookup).pending = true := by
          cases status with
          | settled main => exact absurd rfl (hopen main)
          | _ => rfl
        constructor
        · refine htail.setLookup _ hl rfl hpend (fun hsm => ?_) ?_
          · exact absurd hsm (hopen _)
          · intro m hm
            rw [← List.cons_append] at hm
            rcases List.mem_append.mp hm with hm | hm
            · exact htail.starter l _ hl m hm
            · rw [List.mem_singleton.mp hm]; exact hn
        · refine ho.of_sublist (Nat.le_refl _) fun s => ?_
          exact (order_attach htail hl hpend n s).symm ▸ List.Sublist.refl _
    · rename_i hnone
      exact absurd (hl.symm.trans hnone) nofun
  | adopt n main =>
    constructor
    · refine htail.push (fun _ => rfl) nofun nofun ?_
      intro m hm
      cases hm
      exact hs.adopted n List.mem_cons_self
    · refine ho.of_sublist (Nat.le_refl _) fun sid => ?_
      exact (order_adopt { p with jobs := js } n main sid).symm ▸ List.Sublist.refl _
  | resume n main => exact sound_ordered_resume hs ho

/-! ## Answers and new events -/

theorem sound_ordered_answer {p : Pipeline} (hs : Sound p) (ho : Ordered p) (l : Nat) (result : SdkResult) :
    Sound (p.answer l result) ∧ Ordered (p.answer l result) := by
  unfold answer
  split
  · rename_i sid owner waiters hl
    have hset : Sound { p with lookups := p.lookups.set l ⟨sid, owner, waiters, .answered⟩ } :=
      hs.setLookup ⟨sid, owner, waiters, .answered⟩ hl rfl rfl nofun
        (hs.starter l ⟨sid, owner, waiters, .asking⟩ hl)
    have hord : Ordered { p with lookups := p.lookups.set l ⟨sid, owner, waiters, .answered⟩ } := by
      refine ho.of_sublist (Nat.le_refl _) fun s => ?_
      show (p.past s ++ (p.ready s ++ (p.jobs.filterMap (settlingOf _ s) ++ (asking _ s ++
        p.jobs.filterMap (joiningOf _ s))))).Sublist _
      have hlive : (⟨sid, owner, waiters, .answered⟩ : Lookup).live = true := rfl
      have hj : joiningOf { p with lookups := p.lookups.set l ⟨sid, owner, waiters, .answered⟩ } s = p.joiningOf s := by
        rw [joiningOf_set ⟨sid, owner, waiters, .answered⟩ hl rfl rfl]
        funext j
        cases j with
        | thenable => exact if_neg fun hc => Bool.noConfusion (hlive.symm.trans hc.2)
        | _ => rfl
      have hask : asking { p with lookups := p.lookups.set l ⟨sid, owner, waiters, .answered⟩ } s = p.asking s := by
        by_cases hsid : s = sid
        · subst hsid
          exact (asking_set_self hs hl rfl ⟨s, owner, waiters, .answered⟩).trans
            (asking_eq (hs.held l _ hl rfl) hl).symm
        · exact asking_set_ne hs hl hsid
      rw [settlingOf_set ⟨sid, owner, waiters, .answered⟩ hl rfl rfl, hj, hask]
      exact List.Sublist.refl _
    have hpush : ∀ {q : Pipeline} (parentID : Option (Option JsString)), Sound q → Ordered q →
        Sound (q.enqueue [.resolved l parentID]) ∧ Ordered (q.enqueue [.resolved l parentID]) := by
      intro q parentID hq hqo
      refine ⟨hq.push (fun _ => rfl) nofun nofun nofun, hqo.of_sublist (Nat.le_refl _) fun s => ?_⟩
      have hr : q.readyOf s (.resolved l parentID) = none := rfl
      have hset : q.settlingOf s (.resolved l parentID) = none := rfl
      have hj : q.joiningOf s (.resolved l parentID) = none := rfl
      rw [order_push, hr, hset, hj]
      simp only [Option.toList_none, List.append_nil]
      exact List.Sublist.refl _
    dsimp only
    split
    · exact hpush none hset hord
    · rename_i info hinfo
      have f : Frame { p with lookups := p.lookups.set l ⟨sid, owner, waiters, .answered⟩ }
          { p with
            lookups := p.lookups.set l ⟨sid, owner, waiters, .answered⟩,
            registry := p.registry.updateFromLookup info } :=
        ⟨rfl, rfl, rfl, rfl, rfl, fun _ h => SessionRegistry.known_updateFromLookup _ _ h⟩
      exact hpush _ (hset.frame f) (hord.frame f)
  · exact ⟨hs, ho⟩

theorem sessionOf_lt {p : Pipeline} {n : Nat} {sid : JsString} (h : p.sessionOf n = some sid) :
    n < p.events.length := by
  obtain ⟨e, he, -⟩ := Option.bind_eq_some_iff.mp h
  exact (List.getElem?_eq_some_iff.mp he).1

theorem sessionOf_append {p : Pipeline} (e : NormalizedEvent) {n : Nat} (h : n < p.events.length) :
    sessionOf { p with events := p.events ++ [e] } n = p.sessionOf n := by
  show (p.events ++ [e])[n]?.bind _ = _
  rw [List.getElem?_append_left h]; rfl

theorem sessionOf_new (p : Pipeline) (e : NormalizedEvent) :
    sessionOf { p with events := p.events ++ [e] } p.events.length = e.sessionID := by
  show (p.events ++ [e])[p.events.length]?.bind _ = _
  rw [List.getElem?_append_right (Nat.le_refl _), Nat.sub_self]; rfl

/-- One more event changes nothing for those before it. -/
theorem Sound.addEvent {p : Pipeline} (h : Sound p) (e : NormalizedEvent) :
    Sound { p with events := p.events ++ [e] } := by
  have hsess : ∀ {n sid}, p.sessionOf n = some sid → sessionOf { p with events := p.events ++ [e] } n = some sid :=
    fun hn => (sessionOf_append e (sessionOf_lt hn)).trans hn
  have hfor : ∀ {n}, p.KnownFor n → KnownFor { p with events := p.events ++ [e] } n :=
    fun ⟨sid, hn, hk⟩ => ⟨sid, hsess hn, hk⟩
  refine ⟨h.held, h.named, h.main, h.alone, fun l k hl n hn => hsess (h.starter l k hl n hn), h.owner, h.once, ?_,
    fun n hn => hfor (h.adopted n hn), fun n hn => hfor (h.resumed n hn), ?_⟩
  · intro n l hm
    obtain ⟨k, hl, hn⟩ := h.joins n l hm
    exact ⟨k, hl, hsess hn⟩
  · intro n hn
    have := h.gated n hn
    show n < (p.events ++ [e]).length
    rw [List.length_append]; omega

section
variable {p : Pipeline} (h : Sound p) (e : NormalizedEvent) (sid : JsString)
include h

theorem past_addEvent : past { p with events := p.events ++ [e] } sid = p.past sid := by
  refine List.filter_congr fun n hn => ?_
  rw [sessionOf_append e (h.gated n hn)]

theorem ready_addEvent : ready { p with events := p.events ++ [e] } sid = p.ready sid := by
  refine List.filterMap_congr fun j hj => ?_
  cases j with
  | resume n main =>
    cases main with
    | none => rfl
    | some b =>
      cases b with
      | false => rfl
      | true =>
        obtain ⟨s, hs, -⟩ := h.resumed n hj
        rw [readyOf, readyOf, sessionOf_append e (sessionOf_lt hs)]
  | _ => rfl

theorem settling_addEvent : settling { p with events := p.events ++ [e] } sid = p.settling sid := by
  refine List.filterMap_congr fun j hj => ?_
  cases j with
  | adopt n main =>
    cases main with
    | none => rfl
    | some b =>
      cases b with
      | false => rfl
      | true =>
        obtain ⟨s, hs, -⟩ := h.adopted n hj
        rw [settlingOf, settlingOf, sessionOf_append e (sessionOf_lt hs)]
  | owner l main =>
    cases main with
    | none => rfl
    | some b => cases b <;> rfl
  | _ => rfl

omit h in
theorem joining_addEvent : joining { p with events := p.events ++ [e] } sid = p.joining sid := by
  refine List.filterMap_congr fun j _ => ?_
  cases j <;> rfl

theorem order_addEvent : order { p with events := p.events ++ [e] } sid = p.order sid := by
  rw [order, past_addEvent h, line, ready_addEvent h, waiting, settling_addEvent h, joining_addEvent]; rfl

end

/-- The first miss starts a lookup. -/
def begin (p : Pipeline) (sid : JsString) (n : Nat) : Pipeline :=
  { p with
    lookups := p.lookups ++ [⟨sid, n, [], .asking⟩]
    inflight := p.inflight.set sid p.lookups.length }

theorem lookup_begin {p : Pipeline} {sid : JsString} {n l : Nat} {k : Lookup} (hl : p.lookup l = some k) :
    (p.begin sid n).lookup l = some k :=
  (List.getElem?_append_left (List.getElem?_eq_some_iff.mp hl).1).trans hl

theorem lookup_begin_new (p : Pipeline) (sid : JsString) (n : Nat) :
    (p.begin sid n).lookup p.lookups.length = some ⟨sid, n, [], .asking⟩ := by
  show (p.lookups ++ [_])[p.lookups.length]? = _
  rw [List.getElem?_append_right (Nat.le_refl _), Nat.sub_self]; rfl

theorem lookup_of_begin {p : Pipeline} {sid : JsString} {n l : Nat} {k : Lookup}
    (hl : (p.begin sid n).lookup l = some k) :
    p.lookup l = some k ∨ l = p.lookups.length ∧ k = ⟨sid, n, [], .asking⟩ := by
  rcases Nat.lt_trichotomy l p.lookups.length with hlt | rfl | hgt
  · exact Or.inl ((List.getElem?_append_left hlt).symm.trans hl)
  · rw [lookup_begin_new] at hl
    exact Or.inr ⟨rfl, (Option.some.inj hl).symm⟩
  · have hnone : (p.begin sid n).lookup l = none := by
      refine List.getElem?_eq_none ?_
      show (p.lookups ++ [_]).length ≤ l
      rw [List.length_append]; exact hgt
    rw [hnone] at hl; cases hl

theorem Sound.begin {p : Pipeline} (h : Sound p) {sid : JsString} {n : Nat} (hk : p.registry.known sid = none)
    (hi : p.inflight.get sid = none) (hn : p.sessionOf n = some sid) : Sound (p.begin sid n) := by
  -- no lookup of the session is pending, and none has found it to be main
  have hquiet : ∀ l k, p.lookup l = some k → k.sessionID = sid → k.pending = false ∧
    k.status ≠ .settled (some true) := by
    intro l k hl hs
    constructor
    · cases hp : k.pending with
      | false => rfl
      | true => have := h.held l k hl hp; rw [hs, hi] at this; cases this
    · intro hm
      have := h.main l k hl hm
      rw [hs, hk] at this; cases this
  refine ⟨?_, ?_, ?_, ?_, ?_, ?_, h.once, ?_, h.adopted, h.resumed, h.gated⟩
  · intro l k hl hp
    show (p.inflight.set sid p.lookups.length).get k.sessionID = some l
    rw [OMap.get_set]
    rcases lookup_of_begin hl with hl | ⟨rfl, rfl⟩
    · by_cases hs : k.sessionID = sid
      · rw [(hquiet l k hl hs).1] at hp; cases hp
      · rw [if_neg hs]; exact h.held l k hl hp
    · exact if_pos rfl
  · intro s l hs
    replace hs : (p.inflight.set sid p.lookups.length).get s = some l := hs
    rw [OMap.get_set] at hs
    split at hs
    · rename_i heq
      cases hs
      exact ⟨_, lookup_begin_new p sid n, heq.symm⟩
    · obtain ⟨k, hl, hk⟩ := h.named s l hs
      exact ⟨k, lookup_begin hl, hk⟩
  · intro l k hl hm
    rcases lookup_of_begin hl with hl | ⟨rfl, rfl⟩
    · exact h.main l k hl hm
    · cases hm
  · intro l k l' k' hl hl' hs hm
    rcases lookup_of_begin hl with hl | ⟨rfl, rfl⟩
    · rcases lookup_of_begin hl' with hl' | ⟨rfl, rfl⟩
      · exact h.alone l k l' k' hl hl' hs hm
      · exact absurd hm (hquiet l k hl hs).2
    · cases hm
  · intro l k hl m hm
    rcases lookup_of_begin hl with hl | ⟨rfl, rfl⟩
    · exact h.starter l k hl m hm
    · rw [List.mem_singleton.mp hm]; exact hn
  · intro l main hm
    obtain ⟨k, hl, hk', hi'⟩ := h.owner l main hm
    refine ⟨k, lookup_begin hl, hk', ?_⟩
    have hne : k.sessionID ≠ sid := fun he => by rw [he, hi] at hi'; cases hi'
    exact (OMap.get_set_ne _ _ hne).trans hi'
  · intro m l hm
    obtain ⟨k, hl, hs⟩ := h.joins m l hm
    exact ⟨k, lookup_begin hl, hs⟩

theorem settling_begin {p : Pipeline} (h : Sound p) (sid : JsString) (n : Nat) (s : JsString) :
    (p.begin sid n).settling s = p.settling s := by
  refine List.filterMap_congr fun j hj => ?_
  cases j with
  | owner l main =>
    cases main with
    | none => rfl
    | some b =>
      cases b with
      | false => rfl
      | true =>
        obtain ⟨k, hl, -⟩ := h.owner l _ hj
        rw [settlingOf, settlingOf, hl, lookup_begin hl]
  | adopt m main =>
    cases main with
    | none => rfl
    | some b => cases b <;> rfl
  | _ => rfl

theorem joining_begin {p : Pipeline} (h : Sound p) (sid : JsString) (n : Nat) (s : JsString) :
    (p.begin sid n).joining s = p.joining s := by
  refine List.filterMap_congr fun j hj => ?_
  cases j with
  | thenable m l =>
    obtain ⟨k, hl, -⟩ := h.joins m l hj
    rw [joiningOf, joiningOf, hl, lookup_begin hl]
  | _ => rfl

theorem asking_begin {p : Pipeline} (h : Sound p) (sid : JsString) (n : Nat) (s : JsString) :
    (p.begin sid n).asking s = if s = sid then [n] else p.asking s := by
  have hget : (p.begin sid n).inflight.get s = if s = sid then some p.lookups.length else p.inflight.get s :=
    OMap.get_set ..
  by_cases hs : s = sid
  · rw [if_pos hs] at hget ⊢
    exact asking_eq hget (lookup_begin_new p sid n)
  · rw [if_neg hs] at hget ⊢
    cases hi : p.inflight.get s with
    | none => rw [asking_none hi, asking_none (hget.trans hi)]
    | some l =>
      obtain ⟨k, hl, -⟩ := h.named s l hi
      rw [asking_eq hi hl, asking_eq (hget.trans hi) (lookup_begin hl)]

/-- Nothing of an unknown session without a lookup is on its way to join one. -/
theorem joining_of_unknown {p : Pipeline} (h : Sound p) {sid : JsString} (hk : p.registry.known sid = none)
    (hi : p.inflight.get sid = none) : p.joining sid = [] := by
  refine List.filterMap_eq_nil_iff.mpr fun j hj => ?_
  cases j with
  | thenable n l =>
    obtain ⟨k, hl, -⟩ := h.joins n l hj
    rw [joiningOf_thenable hl]
    refine if_neg fun ⟨hs, hlive⟩ => ?_
    subst hs
    rcases (Bool.or_eq_true _ _).mp hlive with hp | hm
    · have := h.held l k hl hp
      rw [hi] at this; cases this
    · have := h.main l k hl (of_decide_eq_true hm)
      rw [hk] at this; cases this
  | _ => rfl

/-- The step of an event, in a state where it may not go ahead of one that waits. -/
theorem sound_ordered_isMain {p : Pipeline} (h : Sound p) (ho : Ordered p) (e : NormalizedEvent) {sid : JsString}
    (he : e.sessionID = some sid) (hok : p.registry.known sid = some true → p.waiting sid = []) :
    Sound (isMain { p with events := p.events ++ [e] } p.events.length sid) ∧
      Ordered (isMain { p with events := p.events ++ [e] } p.events.length sid) := by
  have hadd := h.addEvent e
  have hord := order_addEvent h e
  have hnew : sessionOf { p with events := p.events ++ [e] } p.events.length = some sid := (sessionOf_new p e).trans he
  have hwait : waiting { p with events := p.events ++ [e] } sid = p.waiting sid := by
    rw [waiting, settling_addEvent h, joining_addEvent]; rfl
  have hlen : ∀ {q : Pipeline}, q.events = p.events ++ [e] → q.events.length = p.events.length + 1 := by
    intro q hq; rw [hq, List.length_append]; rfl
  have hknown : ({ p with events := p.events ++ [e] } : Pipeline).registry.known sid = p.registry.known sid := rfl
  have hlast : ({ p with events := p.events ++ [e] } : Pipeline).events = p.events ++ [e] := rfl
  generalize ({ p with events := p.events ++ [e] } : Pipeline) = q at hadd hord hnew hwait hknown hlast ⊢
  rw [← hwait, ← hknown] at hok
  unfold isMain
  split
  · rename_i main hk
    have hset : ∀ s, q.settlingOf s (.resume p.events.length (some main)) = none := fun _ => rfl
    have hj : ∀ s, q.joiningOf s (.resume p.events.length (some main)) = none := fun _ => rfl
    constructor
    · refine hadd.push (fun _ => rfl) nofun nofun ?_
      intro n hn
      cases hn
      exact ⟨sid, hnew, by rw [hk]; rfl⟩
    · refine ho.snoc (hlen hlast) fun s => ?_
      rw [order_push, hset, hj, ← hord s]
      by_cases hgo : main = true ∧ s = sid
      · -- the session is known to be main, and nothing of it waits
        obtain ⟨rfl, rfl⟩ := hgo
        have hw := hok hk
        have hr : q.readyOf s (.resume p.events.length (some true)) = some p.events.length := if_pos hnew
        rw [order, line, hw]
        obtain ⟨hs', hw⟩ := List.append_eq_nil_iff.mp hw
        obtain ⟨ha', hj'⟩ := List.append_eq_nil_iff.mp hw
        rw [hs', ha', hj', hr]
        simp
      · have hr : q.readyOf s (.resume p.events.length (some main)) = none := by
          cases main with
          | false => rfl
          | true => exact if_neg fun hc => hgo ⟨rfl, Option.some.inj (hc.symm.trans hnew)⟩
        rw [hr]
        simp [order, line, waiting]
  · rename_i l hk hi
    obtain ⟨k, hl, hs⟩ := hadd.named sid l hi
    constructor
    · refine hadd.push (fun _ => rfl) ?_ nofun nofun
      intro n l' hn
      cases hn
      exact ⟨k, hl, by rw [hs]; exact hnew⟩
    · refine ho.snoc (hlen hlast) fun s => ?_
      have hr : q.readyOf s (.thenable p.events.length l) = none := rfl
      have hset : q.settlingOf s (.thenable p.events.length l) = none := rfl
      rw [order_push, hr, hset, ← hord s, joiningOf_thenable hl]
      by_cases hjoin : k.sessionID = s ∧ k.live = true
      · rw [if_pos hjoin]
        simp [order, line, waiting]
      · rw [if_neg hjoin]
        simp [order, line, waiting]
  · rename_i hk hi
    refine ⟨hadd.begin hk hi hnew, ho.snoc (hlen hlast) fun s => ?_⟩
    show ((q.begin sid p.events.length).order s).Sublist _
    rw [← hord s]
    show (q.past s ++ (q.ready s ++
      ((q.begin sid p.events.length).settling s ++ ((q.begin sid p.events.length).asking s ++
      (q.begin sid p.events.length).joining s)))).Sublist _
    rw [settling_begin hadd, joining_begin hadd, asking_begin hadd]
    by_cases hs : s = sid
    · subst hs
      rw [if_pos rfl, order, line, waiting, joining_of_unknown hadd hk hi, asking_none hi]
      simp
    · rw [if_neg hs]
      exact List.sublist_append_left _ _

/-! ## Runs -/

/-- The session of an event that comes to the main-session gate. -/
def gate : PipelineOp → Option JsString
  | .receive (.session ..) => none
  | .receive e => e.sessionID
  | _ => none

/-- An event of a session known to be main is received while none before it waits for a lookup. -/
def Unhurried (p : Pipeline) (e : PipelineEvent) : Prop :=
  ∀ sid ∈ gate e.op, p.disposed = false → p.registry.known sid = some true → p.waiting sid = []

instance (p : Pipeline) (e : PipelineEvent) : Decidable (Unhurried p e) :=
  inferInstanceAs (Decidable
    (∀ sid ∈ gate e.op, p.disposed = false → p.registry.known sid = some true → p.waiting sid = []))

theorem sound_init : Sound .init := by
  refine ⟨?_, ?_, ?_, ?_, ?_, ?_, fun _ => Nat.zero_le _, ?_, ?_, ?_, ?_⟩ <;>
    · intros
      simp_all [init, Pipeline.lookup, OMap.get_empty]

theorem ordered_init : Ordered .init := ⟨fun _ => List.Pairwise.nil, fun _ _ h => absurd h List.not_mem_nil⟩

theorem frame_tick (p : Pipeline) (e : PipelineEvent) : Frame p (p.tick e) := ⟨rfl, rfl, rfl, rfl, rfl, fun _ h => h⟩

theorem sound_ordered_onEvent {p : Pipeline} (h : Sound p) (ho : Ordered p) (e : NormalizedEvent)
    (hok : ∀ sid ∈ gate (.receive e), p.disposed = false → p.registry.known sid = some true → p.waiting sid = []) :
    Sound (p.onEvent O e) ∧ Ordered (p.onEvent O e) := by
  unfold onEvent
  split
  · exact ⟨h, ho⟩
  · rename_i hd
    split
    · exact ⟨h.frame (frame_upsert ..), ho.frame (frame_upsert ..)⟩
    · rename_i hne
      split
      · exact ⟨h, ho⟩
      · rename_i sid hsid
        refine sound_ordered_isMain h ho e hsid (hok sid ?_ (by simpa using hd))
        cases e with
        | session => exact absurd rfl (hne _ _ _ _ _ _)
        | _ => exact hsid

theorem sound_ordered_step {p : Pipeline} (h : Sound p ∧ Ordered p) (e : PipelineEvent) (hok : Unhurried p e) :
    Sound (p.step O e) ∧ Ordered (p.step O e) := by
  have f := frame_tick p e
  obtain ⟨h, ho⟩ := h
  have h' := h.frame f
  have ho' := ho.frame f
  unfold step apply
  split
  · rename_i x hx
    refine sound_ordered_onEvent h' ho' x ?_
    rw [Unhurried, hx] at hok
    exact hok
  · exact sound_ordered_answer h' ho' _ _
  · unfold runJob
    split
    · exact ⟨h', ho'⟩
    · rename_i j js hj
      have heq : ({ p.tick e with jobs := j :: js } : Pipeline) = p.tick e := by rw [← hj]
      exact sound_ordered_perform (heq ▸ h') (heq ▸ ho')
  · exact ⟨h'.frame (frame_discovered _ _), ho'.frame (frame_discovered _ _)⟩
  · exact ⟨h'.frame (frame_call _ _), ho'.frame (frame_call _ _)⟩
  · exact ⟨h'.frame ⟨rfl, rfl, rfl, rfl, rfl, fun _ h => h⟩, ho'.frame ⟨rfl, rfl, rfl, rfl, rfl, fun _ h => h⟩⟩
  · exact ⟨h'.frame (frame_disposeAll _), ho'.frame (frame_disposeAll _)⟩

theorem dispatched_in_order {es : List PipelineEvent} (h : Along (step O) Unhurried .init es) (sid : JsString) :
    ((run O es).past sid).Pairwise (· < ·) := by
  have hinv := Along.inv (I := fun p => Sound p ∧ Ordered p) (fun p e hp hok => sound_ordered_step hp e hok)
    ⟨sound_init, ordered_init⟩ h
  exact (List.pairwise_append.mp (hinv.2.increasing sid)).1

/-! ## Overtaking -/

def sampleOptions : PipelineOptions := ⟨⟨5000, 60000, true, fun _ => []⟩, .default, js "/work"⟩

def ses : JsString := js "ses_1"

/-- The session's busy starts a lookup; its info arrives, and an idle; then the lookup is answered. -/
def overtaken : List PipelineEvent :=
  [⟨1, 1, .receive (.status ses .busy none)⟩, ⟨2, 2, .receive (.session false ses none (js "Main") none false)⟩,
    ⟨3, 3, .receive (.status ses .idle none)⟩, ⟨3, 3, .runJob⟩, ⟨9, 9, .answer 0 .rejected⟩,
    ⟨9, 9, .runJob⟩, ⟨9, 9, .runJob⟩, ⟨9, 9, .runJob⟩]

/-- The idle reaches the machine first, and the busy opens a round that nothing ends. -/
theorem idle_overtakes_busy : ¬ ((run sampleOptions overtaken).past ses).Pairwise (· < ·) ∧
    (run sampleOptions overtaken).machine.trace =
      [.opened ses, .received ses .busy 9, .received ses .idle 3] := by decide +kernel

/-- Without the info in between, the idle joins the lookup. -/
def joined : List PipelineEvent :=
  [⟨1, 1, .receive (.status ses .busy none)⟩, ⟨3, 3, .receive (.status ses .idle none)⟩, ⟨3, 3, .runJob⟩,
    ⟨9, 9, .answer 0 (.resolved (some (.obj [(js "id", .str ses), (js "title", .str (js "Main"))])))⟩,
    ⟨9, 9, .runJob⟩, ⟨9, 9, .runJob⟩, ⟨9, 9, .runJob⟩, ⟨9, 9, .runJob⟩, ⟨9, 9, .runJob⟩]

theorem joined_in_order : (run sampleOptions joined).past ses = [0, 1] ∧
    ((run sampleOptions joined).past ses).Pairwise (· < ·) :=
  ⟨by decide +kernel, dispatched_in_order (by decide +kernel) ses⟩

end Pipeline

end NotifyHub.Plugin
