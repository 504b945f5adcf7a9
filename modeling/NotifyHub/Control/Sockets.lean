/-
  NotifyHub.Control.Sockets — connections the registry is through with: out of
  `connections`, their socket closing or closed.

  Unless the platform takes a socket back, such a connection stays so and is sent nothing
  more (`Shut.run`). `revokeKey` makes every member of `connections` with the key one
  (`revokeKey_shut`).
-/

import NotifyHub.Control.Moves

namespace NotifyHub.Control

open Relation

variable {D : Deps} {op : Op} {s t : Registry} {c d : ConnId}

/-! ## Closing -/

structure Shut (s : Registry) (c : ConnId) : Prop where
  gone : c ∉ s.connections
  closed : (s.conns c).socket.open = false
  /-- A socket that is connecting yet may open, one the registry was given may not. -/
  closing : (s.conns c).added = true → READY_OPEN < (s.conns c).socket.readyState

theorem open_iff {x : Socket} : x.open = true ↔ x.readyState = READY_OPEN := by simp [Socket.open]

theorem not_open_of_lt {x : Socket} (h : READY_OPEN < x.readyState) : x.open = false := by
  rw [Bool.eq_false_iff, Ne, open_iff]
  omega

theorem lt_shut (x : Socket) : READY_OPEN < x.shut.readyState := Nat.lt_of_lt_of_le (by decide) (Nat.le_max_right ..)

theorem Shut.congr (h : Shut s c) (hc : ∀ d ∈ t.connections, d ∈ s.connections) (hx : t.conns c = s.conns c) :
    Shut t c :=
  ⟨fun hm => h.gone (hc c hm), by rw [hx]; exact h.closed, by rw [hx]; exact h.closing⟩

theorem setConn_self (s : Registry) (c : ConnId) (x : ControlConnection) : (s.setConn c x).conns c = x := if_pos rfl

theorem setConn_ne (s : Registry) (x : ControlConnection) (h : c ≠ d) : (s.setConn d x).conns c = s.conns c := if_neg h

theorem Shut.setConn (h : Shut s c) {x : ControlConnection} (ha : x.added = (s.conns d).added)
    (hs : x.socket = (s.conns d).socket ∨ READY_OPEN < x.socket.readyState) : Shut (s.setConn d x) c := by
  by_cases hd : c = d
  · subst hd
    refine ⟨h.gone, ?_, ?_⟩
    · rw [setConn_self]
      exact hs.elim (fun hs => hs ▸ h.closed) not_open_of_lt
    · rw [setConn_self, ha]
      exact fun hadd => hs.elim (fun hs => hs ▸ h.closing hadd) id
  · exact h.congr (fun _ hm => hm) (setConn_ne s x hd)

theorem Shut.closeSocket (h : Shut s c) (d : ConnId) (code : Nat) (reason : String) :
    Shut (s.closeSocket d code reason) c :=
  (h.setConn (x := { s.conns d with socket := (s.conns d).socket.shut }) rfl (Or.inr (lt_shut _))).congr
    (fun _ hm => hm) rfl

/-! ## What is sent -/

/-- Of what was written since, nothing is a frame for one of the connections. -/
def Silent (Q : ConnId → Prop) (s t : Registry) : Prop :=
  ∃ later, t.trace = s.trace ++ later ∧ ∀ c m, Q c → .sent c m ∉ later

variable {Q : ConnId → Prop}

theorem Silent.refl (s : Registry) : Silent Q s s := ⟨[], by simp, by simp⟩

theorem Silent.trans {u : Registry} (h : Silent Q s t) (h' : Silent Q t u) : Silent Q s u := by
  obtain ⟨l, hl, hs⟩ := h
  obtain ⟨l', hl', hs'⟩ := h'
  refine ⟨l ++ l', by rw [hl', hl, List.append_assoc], fun c m hq hm => ?_⟩
  rcases List.mem_append.mp hm with hm | hm
  · exact hs c m hq hm
  · exact hs' c m hq hm

theorem Silent.same (h : t.trace = s.trace) : Silent Q s t := ⟨[], by simp [h], by simp⟩

theorem Silent.effects {l : List Effect} (h : t.trace = s.trace ++ l) (hl : ∀ c m, .sent c m ∉ l) : Silent Q s t :=
  ⟨l, h, fun c m _ => hl c m⟩

theorem Silent.log (s : Registry) (e : Effect) (he : ∀ c m, e = .sent c m → ¬ Q c) : Silent Q s (s.log e) := by
  refine ⟨[e], rfl, fun c m hq hm => ?_⟩
  exact he c m (List.mem_singleton.mp hm).symm hq

theorem silent_leave (s : Registry) (c : ConnId) : Silent Q s (leave s c) :=
  .effects (List.append_assoc ..) (by simp)

/-- The connections stay shut, and silent. -/
def StillShut (Q : ConnId → Prop) (s t : Registry) : Prop := (∀ c, Q c → Shut t c) ∧ Silent Q s t

theorem stillShut_disconnect (hs : ∀ c, Q c → Shut s c) (d : ConnId) : StillShut Q s (disconnect D s d) := by
  refine disconnect_keeps (P := StillShut Q s) ?_ ?_ ?_ ?_ ?_ ?_ s d ⟨hs, .refl s⟩
  · exact fun t e _ h =>
      ⟨fun c hc => (h.1 c hc).congr (fun _ hm => (List.mem_filter.mp hm).1) rfl, h.2.trans (silent_leave t e)⟩
  · exact fun t e r _ _ h => ⟨fun c hc => (h.1 c hc).congr (fun _ hm => hm) rfl, h.2.trans (.same rfl)⟩
  · exact fun t key h => ⟨fun c hc => (h.1 c hc).congr (fun _ hm => hm) rfl, h.2.trans (.same rfl)⟩
  · exact fun t key u r rs _ h => ⟨fun c hc => (h.1 c hc).congr (fun _ hm => hm) rfl, h.2.trans (.same rfl)⟩
  · exact fun t e h => ⟨fun c hc => (h.1 c hc).setConn rfl (Or.inr (lt_shut _)), h.2.trans (.same rfl)⟩
  · intro t e _ ha h
    refine ⟨fun c hc => (h.1 c hc).congr (fun _ hm => hm) rfl, h.2.trans (.log t e fun c m he hq => ?_)⟩
    have hopen := (accepts_iff.mp (ha c m he).1).1
    rw [(h.1 c hq).closed] at hopen
    cases hopen

theorem stillShut_move (hadd : ∀ c x, op = .add c x → ¬ Q c)
    (hsocket : ∀ c x, op = .socket c x → Q c → READY_OPEN < x.readyState)
    (h : Move D op s t) (hs : ∀ c, Q c → Shut s c) : StillShut Q s t := by
  have same : ∀ {u : Registry}, u.connections = s.connections → u.conns = s.conns → ∀ c, Q c → Shut u c :=
    fun hc hx c hq => (hs c hq).congr (fun _ hm => hc ▸ hm) (congrFun hx c)
  cases h with
  | settle => exact ⟨same rfl rfl, .effects rfl (by simp)⟩
  | log e he => exact ⟨same rfl rfl, .log s e fun c m h => absurd h (he c m)⟩
  | sent d m ha =>
    refine ⟨same rfl rfl, .log s _ fun c m' he hq => ?_⟩
    cases he
    have hopen := (accepts_iff.mp ha).1
    rw [(hs d hq).closed] at hopen
    cases hopen
  | conn d x hadded hu hi hx =>
    refine ⟨fun c hq => ?_, .same rfl⟩
    by_cases hd : c = d
    · subst hd
      refine (hs c hq).setConn hadded ?_
      rcases hx with hx | hx | hx
      · exact Or.inl hx
      · exact Or.inr (hx ▸ lt_shut _)
      · exact Or.inr (hsocket c _ hx hq)
    · exact (hs c hq).congr (fun _ hm => hm) (setConn_ne s x hd)
  | add d socket ha ho =>
    refine ⟨fun c hq => ?_, .same ?_⟩
    · have hne : c ≠ d := fun he => hadd d socket ho (he ▸ hq)
      have hshut := hs c hq
      simp only [add, ha, Bool.false_eq_true, if_false]
      refine ⟨fun hm => ?_, by simpa [Registry.setConn, hne] using hshut.closed, by simpa
        [Registry.setConn, hne] using hshut.closing⟩
      rcases List.mem_append.mp hm with hm | hm
      · exact hshut.gone hm
      · exact hne (List.mem_singleton.mp hm)
    · simp [add, ha, Registry.setConn]
  | enroll d registration existing =>
    refine ⟨fun c hq => ?_, .same rfl⟩
    exact ((hs c hq).setConn (x := { s.conns d with instanceId := some registration.instanceId }) rfl
      (Or.inl rfl)).congr
      (fun _ hm => hm) rfl
  | disconnect d => exact stillShut_disconnect hs d
  | _ => exact ⟨same rfl rfl, .same rfl⟩

theorem stillShut_moves (hadd : ∀ c x, op = .add c x → ¬ Q c)
    (hsocket : ∀ c x, op = .socket c x → Q c → READY_OPEN < x.readyState)
    (h : Moves D op s t) (hs : ∀ c, Q c → Shut s c) : StillShut Q s t := by
  refine h.inv (P := StillShut Q s) (fun u v hm hu => ?_) ⟨hs, .refl s⟩
  have hv := stillShut_move hadd hsocket hm hu.1
  exact ⟨hv.1, hu.2.trans hv.2⟩

theorem stillShut_step {e : Event} (hadd : ∀ c x, e.op = .add c x → ¬ Q c)
    (hsocket : ∀ c x, e.op = .socket c x → Q c → READY_OPEN < x.readyState) (hs : ∀ c, Q c → Shut s c) :
    StillShut Q s (step D s e) := stillShut_moves hadd hsocket (step_moves s e) hs

/-! ## Adding -/

theorem added_back (m : Move D op s t) (h : (t.conns c).added = true) : (s.conns c).added = true ∨
    ∃ x, op = .add c x := by
  cases m with
  | conn d x ha =>
    by_cases hd : c = d
    · subst hd
      rw [setConn_self, ha] at h
      exact Or.inl h
    · rw [setConn_ne s x hd] at h
      exact Or.inl h
  | add d socket ha ho =>
    by_cases hd : c = d
    · subst hd
      exact Or.inr ⟨socket, ho⟩
    · exact Or.inl (by simpa [add, ha, Registry.setConn, hd] using h)
  | enroll d registration existing ho ha =>
    by_cases hd : c = d
    · subst hd
      exact Or.inl ha
    · exact Or.inl (by simpa [enroll, pruneOfflineOwnership, Registry.setConn, hd] using h)
  | disconnect d =>
    rw [(disconnect_same D s d c).1] at h
    exact Or.inl h
  | _ => exact Or.inl h

/-- A step adds the connection it is about, and no other. -/
theorem added_step {e : Event} (h : ((step D s e).conns c).added = true) :
    (s.conns c).added = true ∨ ∃ x, e.op = .add c x := by
  refine (step_moves (D := D) s e).inv
    (P := fun t => (t.conns c).added = true → (s.conns c).added = true ∨ ∃ x, e.op = .add c x)
      (fun t u m ht hu => ?_) Or.inl h
  rcases added_back m hu with hadded | hop
  · exact ht hadded
  · exact Or.inr hop

/-! ## Revoking -/

/-- A socket the registry was not given yet is not open to it. -/
def Unopened (s : Registry) : Prop := ∀ c, (s.conns c).added = false → (s.conns c).socket.open = false

theorem unopened_init : Unopened .init := fun _ _ => rfl

theorem open_shut {x : Socket} : x.shut.open = false := not_open_of_lt (lt_shut x)

theorem unopened_setConn (h : Unopened s) {x : ControlConnection} (hx : x.added = false → x.socket.open = false) :
    Unopened (s.setConn d x) := by
  intro c hc
  by_cases hd : c = d
  · subst hd
    rw [setConn_self] at hc ⊢
    exact hx hc
  · rw [setConn_ne s x hd] at hc ⊢
    exact h c hc

theorem unopened_disconnect (h : Unopened s) (c : ConnId) : Unopened (disconnect D s c) := by
  refine disconnect_keeps (P := Unopened) ?_ ?_ ?_ ?_ ?_ ?_ s c h
  · exact fun _ _ _ h => h
  · exact fun _ _ _ _ _ h => h
  · exact fun _ _ h => h
  · exact fun _ _ _ _ _ _ h => h
  · exact fun t d h => unopened_setConn h fun _ => open_shut
  · exact fun _ _ _ _ h => h

theorem unopened_move (hsocket : ∀ c x, op ≠ .socket c x) (m : Move D op s t) (h : Unopened s) : Unopened t := by
  cases m with
  | conn d x ha hu hi hx =>
    refine unopened_setConn h fun hadd => ?_
    rcases hx with hx | hx | hx
    · exact hx ▸ h d (ha ▸ hadd)
    · exact hx ▸ open_shut
    · exact absurd hx (hsocket d _)
  | add d socket ha =>
    simp only [add, ha, Bool.false_eq_true, if_false]
    exact unopened_setConn h nofun
  | enroll d registration existing ho ha =>
    exact unopened_setConn (x := { s.conns d with instanceId := some registration.instanceId }) h (h d)
  | disconnect d => exact unopened_disconnect h d
  | _ => exact h

/-- The platform's news are of a socket the registry was given. -/
theorem unopened_step {e : Event} (hsocket : ∀ c x, e.op = .socket c x → (s.conns c).added = true) (h : Unopened s) :
    Unopened (step D s e) := by
  by_cases hop : ∃ c x, e.op = .socket c x
  · obtain ⟨c, x, hop⟩ := hop
    unfold step
    rw [hop]
    exact unopened_setConn h fun hadd => absurd hadd (by rw [hsocket c x hop]; decide)
  · exact (step_moves s e).inv (fun _ _ => unopened_move fun c x he => hop ⟨c, x, he⟩) h

theorem closeSocket_socket (s : Registry) (c : ConnId) (code : Nat) (reason : String) :
    ((s.closeSocket c code reason).conns c).socket = (s.conns c).socket.shut :=
  congrArg ControlConnection.socket (setConn_self s c _)

theorem closeEach_shut (code : Nat) (reason : String) :
    ∀ {cs : List ConnId} {s : Registry}, c ∈ cs ∨ Shut s c → Shut (closeEach D code reason s cs) c
  | [], s, h => h.resolve_left (by simp)
  | d :: cs, s, h => by
    show Shut (closeEach D code reason ((disconnect D s d).closeSocket d code reason) cs) c
    refine closeEach_shut code reason ?_
    by_cases hd : c = d
    · subst hd
      refine Or.inr ⟨fun hm => (disconnect_connections s c c hm).2 rfl, ?_, fun _ => ?_⟩
      · rw [closeSocket_socket]
        exact open_shut
      · rw [closeSocket_socket]
        exact lt_shut _
    · rcases h with h | h
      · exact Or.inl ((List.mem_cons.mp h).resolve_left hd)
      · exact Or.inr (((stillShut_disconnect (Q := (· = c)) (fun _ he => he ▸ h) d).1 c rfl).closeSocket d code reason)

/-- What `revokeKey` is through with: every connection of the key, where those that left
    `connections` before are closing. -/
theorem revokeKey_shut {ingestKeyId : JsString} (h : Unopened s)
    (hdropped : ∀ c, c.auth.id = ingestKeyId → (s.conns c).added = true → c ∉ s.connections →
      READY_OPEN < (s.conns c).socket.readyState) (hc : c.auth.id = ingestKeyId) :
    Shut (revokeKey D s ingestKeyId) c := by
  refine closeEach_shut _ _ ?_
  by_cases hm : c ∈ s.connections
  · exact Or.inl (List.mem_filter.mpr ⟨hm, by simpa using hc⟩)
  · refine Or.inr ⟨hm, ?_, fun ha => hdropped c hc ha hm⟩
    cases ha : (s.conns c).added with
    | false => exact h c ha
    | true => exact not_open_of_lt (hdropped c hc ha hm)

end NotifyHub.Control
