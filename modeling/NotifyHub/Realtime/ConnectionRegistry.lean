/-
  NotifyHub.Realtime.ConnectionRegistry — the registry of realtime sockets
  (apps/gateway/src/modules/realtime/connection-registry.ts): `add` with its timers and
  listeners, `send`, `dispatch`, `closeAll`, `remove`.

  A connection is named by its place in the list of all that were ever added. What a call of
  a socket does before it returns is up to the environment: any events of any sockets, in any
  order. What a socket reads (`readyState`, `bufferedAmount`) is read when its turn comes.

  (1) `Inv`: a registered connection has both timers armed, a removed one has both cleared
      once, and no user maps to an empty set; every operation keeps it, at every turn of a
      fan-out.
  (2) `FansOut`: one turn for every connection of the user, and the payload once for each
      that is open and within the limit at its turn.
  (3) `closeAll_empty`: after `closeAll` the map is empty.
-/

import NotifyHub.Lib.OMap
import NotifyHub.Lib.Stringify

namespace NotifyHub.Realtime

/-- `WS_MAX_BUFFERED_BYTES` -/
def maxBufferedBytes : Nat := 1024 * 1024

def closeTokenExpired : Nat := 4401

def closeServerShutdown : Nat := 1012

/-- A timer: its delay, whether it can still fire, and how often it was cleared. -/
structure Timer where
  delay : Int
  armed : Bool
  cleared : Nat
  deriving DecidableEq

def Timer.start (delay : Int) : Timer := ⟨delay, true, 0⟩

def Timer.clear (t : Timer) : Timer := { t with armed := false, cleared := t.cleared + 1 }

/-- A timeout that fires. -/
def Timer.fire (t : Timer) : Timer := { t with armed := false }

structure Connection where
  /-- The user that its callbacks close over. -/
  user : JsString
  alive : Bool
  heartbeat : Timer
  expiry : Timer
  deriving DecidableEq

/-- What the registry asks of a socket. -/
inductive SocketCall where
  | send (data : JsString)
  | ping
  | close (code : Nat) (reason : JsString)
  | terminate
  deriving DecidableEq

structure State where
  byUser : OMap JsString (List Nat)
  connections : List Connection
  /-- The calls of the sockets so far. -/
  calls : List (Nat × SocketCall)

def State.init : State := ⟨OMap.empty, [], []⟩

inductive SocketEvent where
  | pong
  | ping
  | close
  | error
  deriving DecidableEq

/-- Events of sockets, in the order they are emitted. -/
abbrev Emitted := List (Nat × SocketEvent)

def State.call (s : State) (c : Nat) (call : SocketCall) : State := { s with calls := s.calls ++ [(c, call)] }

/-- `clearInterval` and `clearTimeout` -/
def Connection.clear (connection : Connection) : Connection :=
  { connection with heartbeat := connection.heartbeat.clear, expiry := connection.expiry.clear }

def remove (s : State) (c : Nat) : State :=
  match s.connections[c]? with
  | none => s
  | some connection =>
    match s.byUser.get connection.user with
    | none => s
    | some sockets =>
      if c ∈ sockets then
        { s with
          connections := s.connections.modify c Connection.clear
          byUser :=
            if sockets.erase c = [] then s.byUser.delete connection.user
            else s.byUser.set connection.user (sockets.erase c) }
      else s

def setAlive (s : State) (c : Nat) (alive : Bool) : State :=
  { s with connections := s.connections.modify c ({ · with alive }) }

/-- The listeners of a socket. -/
def listen (s : State) : Nat × SocketEvent → State
  | (c, .pong) | (c, .ping) => setAlive s c true
  | (c, .close) | (c, .error) => remove s c

def emit (s : State) (emitted : Emitted) : State := emitted.foldl listen s

/-- The delay of the expiry timer: at least 0, and at most what `setTimeout` can hold. -/
def expiryDelay (expiresAtMs nowMs : Int) : Int := min (max 0 (expiresAtMs - nowMs)) 2147483647

def add (pingIntervalMs : Int) (s : State) (user : JsString) (expiresAtMs nowMs : Int) : State :=
  let connection : Connection := ⟨user, true, .start pingIntervalMs, .start (expiryDelay expiresAtMs nowMs)⟩
  { s with
    connections := s.connections ++ [connection]
    byUser := s.byUser.set user ((s.byUser.get user).getD [] ++ [s.connections.length]) }

/-- The interval of a connection, which fires while it is not cleared. -/
def heartbeat (s : State) (c : Nat) (isOpen : Bool) (emitted : Emitted) : State :=
  match s.connections[c]? with
  | none => s
  | some connection =>
    if !connection.heartbeat.armed then s
    else if !isOpen then remove s c
    else if !connection.alive then emit ((remove s c).call c .terminate) emitted
    else emit ((setAlive s c false).call c .ping) emitted

def fireExpiry (s : State) (c : Nat) : State :=
  { s with
    connections := s.connections.modify c fun connection => { connection with expiry := connection.expiry.fire } }

/-- The timeout of a connection, which fires once and while it is not cleared. -/
def expiry (s : State) (c : Nat) (emitted : Emitted) : State :=
  match s.connections[c]? with
  | none => s
  | some connection =>
    if !connection.expiry.armed then s
    else emit ((remove (fireExpiry s c) c).call c (.close closeTokenExpired (js "access token expired"))) emitted

def userIds (s : State) : List JsString := s.byUser.keys

def count (s : State) : Option JsString → Nat
  | some user => ((s.byUser.get user).map (·.length)).getD 0
  | none => (s.byUser.values.map (·.length)).sum

/-- What a socket reads at its turn, and what its call does. -/
structure Turn where
  isOpen : Bool
  buffered : Nat
  emitted : Emitted
  /-- `send` throws. -/
  throws : Bool

/-- One turn of the loop of `send`. -/
def sendTurn (payload : JsString) (turns : Nat → Turn) (s : State) (c : Nat) : State :=
  let turn := turns c
  if !turn.isOpen then remove s c
  else if maxBufferedBytes < turn.buffered then emit ((remove s c).call c .terminate) turn.emitted
  else
    let sent := emit (s.call c (.send payload)) turn.emitted
    if turn.throws then remove sent c else sent

/-- The loop goes over a copy of the set. -/
def send (s : State) (user : JsString) (message : Json) (turns : Nat → Turn) : State :=
  match s.byUser.get user with
  | none => s
  | some sockets => sockets.foldl (sendTurn message.stringify turns) s

def dispatch (s : State) (user : JsString) (event : Json) (turns : Nat → Turn) : State :=
  send s user (.obj [(js "type", .str (js "event")), (js "event", event)]) turns

/-- One connection of `closeAll`. -/
def closeOne (code : Nat) (reason : JsString) (emitted : Nat → Emitted) (s : State) (c : Nat) : State :=
  emit ((remove s c).call c (.close code reason)) (emitted c)

/-- One entry of the map, unless it is gone by then. -/
def closeUser (code : Nat) (reason : JsString) (emitted : Nat → Emitted) (s : State) (user : JsString) : State :=
  match s.byUser.get user with
  | none => s
  | some sockets => sockets.foldl (closeOne code reason emitted) s

/-- The loop goes over the map itself; nothing is added to it meanwhile. -/
def closeAll (s : State) (code : Nat) (reason : JsString) (emitted : Nat → Emitted) : State :=
  s.byUser.keys.foldl (closeUser code reason emitted) s

inductive Op where
  | add (user : JsString) (expiresAtMs nowMs : Int)
  | send (user : JsString) (message : Json) (turns : Nat → Turn)
  | dispatch (user : JsString) (event : Json) (turns : Nat → Turn)
  | heartbeat (c : Nat) (isOpen : Bool) (emitted : Emitted)
  | expiry (c : Nat) (emitted : Emitted)
  | event (c : Nat) (event : SocketEvent)
  /-- The callback of a send, with an error. -/
  | sendFailed (c : Nat)
  | closeAll (code : Nat) (reason : JsString) (emitted : Nat → Emitted)

variable (pingIntervalMs : Int)

def step (s : State) : Op → State
  | .add user expiresAtMs nowMs => add pingIntervalMs s user expiresAtMs nowMs
  | .send user message turns => send s user message turns
  | .dispatch user event turns => dispatch s user event turns
  | .heartbeat c isOpen emitted => heartbeat s c isOpen emitted
  | .expiry c emitted => expiry s c emitted
  | .event c event => listen s (c, event)
  | .sendFailed c => remove s c
  | .closeAll code reason emitted => closeAll s code reason emitted

def run (ops : List Op) : State := ops.foldl (step pingIntervalMs) .init

/-! ## The invariant -/

def Registered (s : State) (user : JsString) (c : Nat) : Prop :=
  ∃ sockets, s.byUser.get user = some sockets ∧ c ∈ sockets

/-- Both timers can fire, and were never cleared. -/
structure Connection.Armed (connection : Connection) : Prop where
  heartbeat : connection.heartbeat.armed = true ∧ connection.heartbeat.cleared = 0
  expiry : connection.expiry.armed = true ∧ connection.expiry.cleared = 0

/-- Both timers were cleared once, and cannot fire. -/
structure Connection.Cleared (connection : Connection) : Prop where
  heartbeat : connection.heartbeat.armed = false ∧ connection.heartbeat.cleared = 1
  expiry : connection.expiry.armed = false ∧ connection.expiry.cleared = 1

structure Inv (s : State) : Prop where
  nonempty : ∀ user sockets, s.byUser.get user = some sockets → sockets ≠ []
  nodup : ∀ user sockets, s.byUser.get user = some sockets → sockets.Nodup
  own : ∀ user c, Registered s user c → ∃ connection, s.connections[c]? = some connection ∧ connection.user = user
  armed : ∀ c connection, s.connections[c]? = some connection → Registered s connection.user c → connection.Armed
  cleared : ∀ c connection, s.connections[c]? = some connection → ¬ Registered s connection.user c → connection.Cleared

theorem inv_init : Inv .init := by
  refine ⟨nofun, nofun, ?_, nofun, nofun⟩
  rintro user c ⟨sockets, h, -⟩
  cases h

variable {s : State}

def Connection.timers (connection : Connection) : JsString × Timer × Timer :=
  (connection.user, connection.heartbeat, connection.expiry)

/-- The invariant looks at the map and at the timers. -/
theorem Inv.congr {s' : State} (h : Inv s) (hmap : s'.byUser = s.byUser)
    (hconnections : ∀ c : Nat, (s'.connections[c]?).map Connection.timers =
      (s.connections[c]?).map Connection.timers) : Inv s' := by
  have hregistered : ∀ user c, Registered s' user c ↔ Registered s user c :=
    fun user c => by rw [Registered, Registered, hmap]
  have back : ∀ (c : Nat) (connection' : Connection), s'.connections[c]? = some connection' → ∃ connection : Connection,
      s.connections[c]? = some connection ∧ connection.user = connection'.user ∧
        connection.heartbeat = connection'.heartbeat ∧ connection.expiry = connection'.expiry := by
    intro c connection' hc
    have := hconnections c
    rw [hc, Option.map_some] at this
    obtain ⟨connection, hconnection, heq⟩ := Option.map_eq_some_iff.mp this.symm
    simp only [Connection.timers, Prod.mk.injEq] at heq
    exact ⟨connection, hconnection, heq⟩
  refine ⟨hmap ▸ h.nonempty, hmap ▸ h.nodup, fun user c hc => ?_, fun c connection' hc hin => ?_,
    fun c connection' hc hout => ?_⟩
  · obtain ⟨connection, hconnection, huser⟩ := h.own user c ((hregistered user c).mp hc)
    have := hconnections c
    rw [hconnection, Option.map_some] at this
    obtain ⟨connection', hconnection', heq⟩ := Option.map_eq_some_iff.mp this
    exact ⟨connection', hconnection', (congrArg Prod.fst heq).trans huser⟩
  · obtain ⟨connection, hconnection, huser, hheartbeat, hexpiry⟩ := back c connection' hc
    have harmed := h.armed c connection hconnection (huser ▸ (hregistered _ c).mp hin)
    exact ⟨hheartbeat ▸ harmed.heartbeat, hexpiry ▸ harmed.expiry⟩
  · obtain ⟨connection, hconnection, huser, hheartbeat, hexpiry⟩ := back c connection' hc
    have hcleared := h.cleared c connection hconnection fun hin => hout ((hregistered _ c).mpr (huser ▸ hin))
    exact ⟨hheartbeat ▸ hcleared.heartbeat, hexpiry ▸ hcleared.expiry⟩

theorem inv_call (h : Inv s) (c : Nat) (call : SocketCall) : Inv (s.call c call) := h.congr rfl fun _ => rfl

theorem inv_setAlive (h : Inv s) (c : Nat) (alive : Bool) : Inv (setAlive s c alive) := by
  refine h.congr rfl fun c' => ?_
  rw [setAlive, List.getElem?_modify]
  cases s.connections[c']? with
  | none => rfl
  | some connection =>
    rw [Option.map_eq_map, Option.map_some, Option.map_some, Option.map_some]
    split <;> rfl

/-! ## Removal -/

theorem remove_registered {c : Nat} {connection : Connection} {sockets : List Nat}
    (hc : s.connections[c]? = some connection)
    (hsockets : s.byUser.get connection.user = some sockets) (hmem : c ∈ sockets) :
    remove s c =
      { s with
        connections := s.connections.modify c Connection.clear
        byUser :=
          if sockets.erase c = [] then s.byUser.delete connection.user
          else s.byUser.set connection.user (sockets.erase c) } := by
  unfold remove
  rw [hc]
  dsimp only
  rw [hsockets]
  dsimp only
  rw [if_pos hmem]

theorem remove_pruned {c : Nat}
    (h : ∀ connection, s.connections[c]? = some connection → ¬ Registered s connection.user c) :
    remove s c = s := by
  unfold remove
  cases hc : s.connections[c]? with
  | none => rfl
  | some connection =>
    dsimp only
    cases hsockets : s.byUser.get connection.user with
    | none => rfl
    | some sockets =>
      dsimp only
      rw [if_neg fun hmem => h connection hc ⟨sockets, hsockets, hmem⟩]

/-- A removal takes the connection out, and no other. -/
theorem registered_remove (h : Inv s) {c : Nat} (user : JsString) (c' : Nat) :
    Registered (remove s c) user c' ↔ Registered s user c' ∧ c' ≠ c := by
  by_cases hc : ∃ connection, s.connections[c]? = some connection ∧ Registered s connection.user c
  · obtain ⟨connection, hconnection, sockets, hsockets, hmem⟩ := hc
    have hnodup := h.nodup _ _ hsockets
    rw [remove_registered hconnection hsockets hmem, Registered, Registered]
    dsimp only
    by_cases huser : user = connection.user
    · subst huser
      by_cases hlast : sockets.erase c = []
      · rw [if_pos hlast, OMap.get_delete_self]
        refine iff_of_false nofun ?_
        rintro ⟨⟨sockets', hsockets', hmem'⟩, hne⟩
        rw [hsockets] at hsockets'
        cases hsockets'
        have hin := (List.mem_erase_of_ne hne).mpr hmem'
        rw [hlast] at hin
        cases hin
      · rw [if_neg hlast, OMap.get_set_self, hsockets]
        simp only [Option.some.injEq, exists_eq_left', hnodup.mem_erase_iff]
        exact and_comm
    · have hget : (if sockets.erase c = [] then s.byUser.delete connection.user
          else s.byUser.set connection.user (sockets.erase c)).get user = s.byUser.get user := by
        split
        · exact OMap.get_delete_ne _ huser
        · exact OMap.get_set_ne _ _ huser
      rw [hget]
      refine (and_iff_left_of_imp fun hreg => ?_).symm
      -- the connection is in the set of its own user only
      rintro rfl
      obtain ⟨connection', hconnection', huser'⟩ := h.own user c' hreg
      rw [hconnection] at hconnection'
      cases hconnection'
      exact huser huser'.symm
  · have hout : ∀ connection, s.connections[c]? = some connection → ¬ Registered s connection.user c :=
      fun connection hconnection hreg => hc ⟨connection, hconnection, hreg⟩
    rw [remove_pruned hout]
    refine (and_iff_left_of_imp fun hreg => ?_).symm
    rintro rfl
    obtain ⟨connection, hconnection, rfl⟩ := h.own user c' hreg
    exact hout connection hconnection hreg

theorem inv_remove (h : Inv s) (c : Nat) : Inv (remove s c) := by
  by_cases hc : ∃ connection, s.connections[c]? = some connection ∧ Registered s connection.user c
  · have hregistered := registered_remove h (c := c)
    obtain ⟨connection, hconnection, sockets, hsockets, hmem⟩ := hc
    have heq := remove_registered hconnection hsockets hmem
    have hget : ∀ user sockets', (remove s c).byUser.get user = some sockets' →
        s.byUser.get user = some sockets' ∨ sockets' = sockets.erase c ∧ sockets' ≠ [] := by
      intro user sockets' hsockets'
      rw [heq] at hsockets'
      dsimp only at hsockets'
      split at hsockets'
      · rw [OMap.get_delete] at hsockets'
        split at hsockets'
        · cases hsockets'
        · exact Or.inl hsockets'
      · rename_i hne
        rw [OMap.get_set] at hsockets'
        split at hsockets'
        · cases hsockets'
          exact Or.inr ⟨rfl, hne⟩
        · exact Or.inl hsockets'
    have hmodify : ∀ c' : Nat, (remove s c).connections[c']? = (fun x => if c = c' then Connection.clear x else x)
      <$> s.connections[c']? := by
      intro c'
      rw [heq]
      exact List.getElem?_modify _ _ _ _
    have back : ∀ (c' : Nat) (connection' : Connection), (remove s c).connections[c']? = some connection' →
      ∃ old, s.connections[c']? = some old ∧
        (if c = c' then old.clear else old) = connection' := by
      intro c' connection' hc'
      rw [hmodify] at hc'
      exact Option.map_eq_some_iff.mp hc'
    have huser : ∀ old : Connection, ∀ c', (if c = c' then old.clear else old).user = old.user := by
      intro old c'
      split <;> rfl
    refine ⟨fun user sockets' h' => ?_, fun user sockets' h' => ?_, fun user c' hin => ?_,
      fun c' connection' hc' hin => ?_,
      fun c' connection' hc' hout => ?_⟩
    · rcases hget user sockets' h' with h' | ⟨-, h'⟩
      · exact h.nonempty user sockets' h'
      · exact h'
    · rcases hget user sockets' h' with h' | ⟨rfl, -⟩
      · exact h.nodup user sockets' h'
      · exact (h.nodup _ _ hsockets).erase c
    · obtain ⟨hin, -⟩ := (hregistered user c').mp hin
      obtain ⟨old, hold, hol⟩ := h.own user c' hin
      exact ⟨_, by rw [hmodify, hold]; rfl, (huser old c').trans hol⟩
    · obtain ⟨old, hold, rfl⟩ := back c' connection' hc'
      rw [huser] at hin
      obtain ⟨hin, hne⟩ := (hregistered old.user c').mp hin
      rw [if_neg (Ne.symm hne)]
      exact h.armed c' old hold hin
    · obtain ⟨old, hold, rfl⟩ := back c' connection' hc'
      rw [huser, hregistered] at hout
      by_cases hne : c' = c
      · subst hne
        rw [hconnection] at hold
        cases hold
        obtain ⟨⟨-, hheartbeat⟩, -, hexpiry⟩ := h.armed c' connection hconnection ⟨sockets, hsockets, hmem⟩
        rw [if_pos rfl]
        exact ⟨⟨rfl, congrArg (· + 1) hheartbeat⟩, rfl, congrArg (· + 1) hexpiry⟩
      · rw [if_neg (Ne.symm hne)]
        exact h.cleared c' old hold fun hin => hout ⟨hin, hne⟩
  · rw [remove_pruned fun connection hconnection hreg => hc ⟨connection, hconnection, hreg⟩]
    exact h

/-! ## Events -/

theorem inv_listen (h : Inv s) (e : Nat × SocketEvent) : Inv (listen s e) := by
  obtain ⟨c, event⟩ := e
  cases event with
  | pong => exact inv_setAlive h c true
  | ping => exact inv_setAlive h c true
  | close => exact inv_remove h c
  | error => exact inv_remove h c

theorem calls_remove (c : Nat) : (remove s c).calls = s.calls := by
  unfold remove
  split
  · rfl
  · split
    · rfl
    · split <;> rfl

theorem calls_listen (e : Nat × SocketEvent) : (listen s e).calls = s.calls := by
  obtain ⟨c, event⟩ := e
  cases event with
  | pong => rfl
  | ping => rfl
  | close => exact calls_remove c
  | error => exact calls_remove c

/-- Events only take connections out. -/
theorem registered_listen (h : Inv s) {e : Nat × SocketEvent} {user : JsString} {c' : Nat}
    (hin : Registered (listen s e) user c') :
    Registered s user c' := by
  obtain ⟨c, event⟩ := e
  cases event with
  | pong => exact hin
  | ping => exact hin
  | close => exact ((registered_remove h user c').mp hin).1
  | error => exact ((registered_remove h user c').mp hin).1

theorem inv_emit (h : Inv s) (emitted : Emitted) : Inv (emit s emitted) := by
  induction emitted generalizing s with
  | nil => exact h
  | cons e emitted ih => exact ih (inv_listen h e)

theorem calls_emit (emitted : Emitted) : (emit s emitted).calls = s.calls := by
  induction emitted generalizing s with
  | nil => rfl
  | cons e emitted ih => exact ih.trans (calls_listen e)

theorem registered_emit (h : Inv s) {emitted : Emitted} {user : JsString} {c : Nat}
    (hin : Registered (emit s emitted) user c) :
    Registered s user c := by
  induction emitted generalizing s with
  | nil => exact hin
  | cons e emitted ih => exact registered_listen h (ih (inv_listen h e) hin)

/-! ## Timers and sockets -/

theorem inv_add (h : Inv s) (pingIntervalMs : Int) (user : JsString) (expiresAtMs nowMs : Int) :
    Inv (add pingIntervalMs s user expiresAtMs nowMs) := by
  have hfresh : ∀ user', ¬ Registered s user' s.connections.length := by
    intro user' hin
    obtain ⟨connection, hconnection, -⟩ := h.own user' _ hin
    have hlt := (List.getElem?_eq_some_iff.mp hconnection).1
    exact Nat.lt_irrefl _ hlt
  have hregistered : ∀ user' c, Registered (add pingIntervalMs s user expiresAtMs nowMs) user' c ↔
      Registered s user' c ∨ user' = user ∧ c = s.connections.length := by
    intro user' c
    simp only [Registered, add, OMap.get_set]
    by_cases huser : user' = user
    · subst huser
      cases hget : s.byUser.get user' with
      | none => simp
      | some sockets => simp
    · simp [huser]
  have back : ∀ (c : Nat) (connection : Connection),
    (add pingIntervalMs s user expiresAtMs nowMs).connections[c]? = some connection →
      s.connections[c]? = some connection ∨ c = s.connections.length ∧
        connection = ⟨user, true, .start pingIntervalMs, .start (expiryDelay expiresAtMs nowMs)⟩ := by
    intro c connection hc
    rw [add, List.getElem?_append] at hc
    split at hc
    · exact Or.inl hc
    · rename_i hge
      rw [List.getElem?_singleton] at hc
      split at hc
      · rename_i hzero
        exact Or.inr ⟨by omega, (Option.some.inj hc).symm⟩
      · cases hc
  have kept : ∀ (c : Nat) (connection : Connection), s.connections[c]? = some connection →
      (add pingIntervalMs s user expiresAtMs nowMs).connections[c]? = some connection := by
    intro c connection hc
    rw [add, List.getElem?_append_left (List.getElem?_eq_some_iff.mp hc).1]
    exact hc
  refine ⟨fun user' sockets hsockets => ?_, fun user' sockets hsockets => ?_, fun user' c hin => ?_,
    fun c connection hc hin => ?_,
    fun c connection hc hout => ?_⟩
  · rw [add, OMap.get_set] at hsockets
    split at hsockets
    · cases hsockets
      simp
    · exact h.nonempty user' sockets hsockets
  · rw [add, OMap.get_set] at hsockets
    split at hsockets
    · cases hsockets
      rw [List.nodup_append]
      refine ⟨?_, List.nodup_singleton _, ?_⟩
      · cases hget : s.byUser.get user with
        | none => exact List.nodup_nil
        | some sockets => exact h.nodup user sockets hget
      · rintro c hc c' hc' rfl
        rw [List.mem_singleton] at hc'
        subst hc'
        cases hget : s.byUser.get user with
        | none =>
          rw [hget] at hc
          cases hc
        | some sockets =>
          rw [hget] at hc
          exact hfresh user ⟨sockets, hget, hc⟩
    · exact h.nodup user' sockets hsockets
  · rcases (hregistered user' c).mp hin with hin | ⟨rfl, rfl⟩
    · obtain ⟨connection, hconnection, huser⟩ := h.own user' c hin
      exact ⟨connection, kept c connection hconnection, huser⟩
    · exact ⟨⟨user', true, .start pingIntervalMs, .start (expiryDelay expiresAtMs nowMs)⟩, by simp [add], rfl⟩
  · rcases back c connection hc with hc | ⟨rfl, rfl⟩
    · rcases (hregistered connection.user c).mp hin with hin | ⟨-, rfl⟩
      · exact h.armed c connection hc hin
      · exact absurd (List.getElem?_eq_some_iff.mp hc).1 (Nat.lt_irrefl _)
    · exact ⟨⟨rfl, rfl⟩, rfl, rfl⟩
  · rcases back c connection hc with hc | ⟨rfl, rfl⟩
    · exact h.cleared c connection hc fun hin => hout ((hregistered connection.user c).mpr (Or.inl hin))
    · exact absurd ((hregistered user s.connections.length).mpr (Or.inr ⟨rfl, rfl⟩)) hout

theorem inv_heartbeat (h : Inv s) (c : Nat) (isOpen : Bool) (emitted : Emitted) :
    Inv (heartbeat s c isOpen emitted) := by
  unfold heartbeat
  split
  · exact h
  · split
    · exact h
    · split
      · exact inv_remove h c
      · split
        · exact inv_emit (inv_call (inv_remove h c) _ _) emitted
        · exact inv_emit (inv_call (inv_setAlive h c false) _ _) emitted

/-- A timeout that fires and is cleared in its callback is as one that is cleared. -/
theorem remove_fireExpiry {c : Nat} {connection : Connection} (hc : s.connections[c]? = some connection)
    (hin : Registered s connection.user c) : remove (fireExpiry s c) c = remove s c := by
  obtain ⟨sockets, hsockets, hmem⟩ := hin
  have hfired : (fireExpiry s c).connections[c]? = some { connection with expiry := connection.expiry.fire } := by
    rw [fireExpiry, List.getElem?_modify, hc]
    simp
  rw [remove_registered hc hsockets hmem, remove_registered hfired hsockets hmem]
  congr 1
  rw [fireExpiry]
  refine List.ext_getElem? fun i => ?_
  rw [List.getElem?_modify, List.getElem?_modify, List.getElem?_modify]
  cases s.connections[i]? with
  | none => rfl
  | some old =>
    simp only [Option.map_eq_map, Option.map_some, Option.some.injEq]
    split <;> rfl

theorem inv_expiry (h : Inv s) (c : Nat) (emitted : Emitted) : Inv (expiry s c emitted) := by
  unfold expiry
  split
  · exact h
  · rename_i connection hc
    split
    · exact h
    · rename_i harmed
      -- a timeout that can fire is a registered connection's
      have hin : Registered s connection.user c := by
        by_contra hout
        have := (h.cleared c connection hc hout).expiry.1
        simp [this] at harmed
      rw [remove_fireExpiry hc hin]
      exact inv_emit (inv_call (inv_remove h c) _ _) emitted

/-! ## The fan-out -/

/-- The connections of a user, as the loop copies them. -/
def snapshot (s : State) (user : JsString) : List Nat := (s.byUser.get user).getD []

/-- Open, and within the limit. -/
def Turn.takes (t : Turn) : Bool := t.isOpen && decide (t.buffered ≤ maxBufferedBytes)

/-- What a turn asks of its socket. -/
def turnCalls (payload : JsString) (turns : Nat → Turn) (c : Nat) : List (Nat × SocketCall) :=
  if (turns c).takes then [(c, .send payload)] else if (turns c).isOpen then [(c, .terminate)] else []

section

variable {payload : JsString} {turns : Nat → Turn}

theorem send_eq (user : JsString) (message : Json) :
    send s user message turns = (snapshot s user).foldl (sendTurn message.stringify turns) s := by
  unfold send snapshot
  cases s.byUser.get user <;> rfl

theorem mem_snapshot {user : JsString} {c : Nat} : c ∈ snapshot s user ↔ Registered s user c := by
  unfold snapshot Registered
  cases s.byUser.get user with
  | none => simp
  | some sockets => simp

theorem nodup_snapshot (h : Inv s) (user : JsString) : (snapshot s user).Nodup := by
  unfold snapshot
  cases hsockets : s.byUser.get user with
  | none => exact List.nodup_nil
  | some sockets => exact h.nodup user sockets hsockets

theorem inv_sendTurn (h : Inv s) (c : Nat) : Inv (sendTurn payload turns s c) := by
  unfold sendTurn
  dsimp only
  split
  · exact inv_remove h c
  · split
    · exact inv_emit (inv_call (inv_remove h c) _ _) _
    · have hsent := inv_emit (inv_call h c (.send payload)) (turns c).emitted
      split
      · exact inv_remove hsent c
      · exact hsent

/-- A turn only takes connections out. -/
theorem registered_sendTurn (h : Inv s) {c : Nat} {user : JsString} {c' : Nat}
    (hin : Registered (sendTurn payload turns s c) user c') :
    Registered s user c' := by
  unfold sendTurn at hin
  dsimp only at hin
  split at hin
  · exact ((registered_remove h user c').mp hin).1
  · split at hin
    · have hremoved := registered_emit (inv_call (inv_remove h c) _ _) hin
      exact ((registered_remove h user c').mp hremoved).1
    · have hsent := inv_emit (inv_call h c (.send payload)) (turns c).emitted
      split at hin
      · exact registered_emit (inv_call h c _) ((registered_remove hsent user c').mp hin).1
      · exact registered_emit (inv_call h c _) hin

theorem calls_sendTurn (c : Nat) : (sendTurn payload turns s c).calls = s.calls ++ turnCalls payload turns c := by
  unfold sendTurn turnCalls Turn.takes
  dsimp only
  cases hopen : (turns c).isOpen with
  | false => simpa using calls_remove c
  | true =>
    by_cases hlimit : maxBufferedBytes < (turns c).buffered
    · have hover : ¬ (turns c).buffered ≤ maxBufferedBytes := Nat.not_le.mpr hlimit
      simp [hlimit, hover, calls_emit, State.call, calls_remove]
    · have hwithin : (turns c).buffered ≤ maxBufferedBytes := Nat.not_lt.mp hlimit
      cases (turns c).throws <;> simp [hlimit, hwithin, calls_emit, State.call, calls_remove]

theorem inv_turns (h : Inv s) (l : List Nat) :
    Inv (l.foldl (sendTurn payload turns) s) ∧
      ∀ user c, Registered (l.foldl (sendTurn payload turns) s) user c → Registered s user c := by
  induction l generalizing s with
  | nil => exact ⟨h, fun _ _ hin => hin⟩
  | cons c l ih =>
    obtain ⟨hinv, hshrinks⟩ := ih (inv_sendTurn h c)
    exact ⟨hinv, fun user c' hin => registered_sendTurn h (hshrinks user c' hin)⟩

theorem calls_turns (l : List Nat) :
    (l.foldl (sendTurn payload turns) s).calls = s.calls ++ l.flatMap (turnCalls payload turns) := by
  induction l generalizing s with
  | nil => rw [List.flatMap_nil, List.append_nil, List.foldl_nil]
  | cons c l ih => rw [List.foldl_cons, ih, calls_sendTurn, List.flatMap_cons, List.append_assoc]

/-- The turn of a connection hands the payload to that connection only. -/
theorem count_turnCalls (c c' : Nat) :
    (turnCalls payload turns c).count (c', .send payload) = if c = c' ∧ (turns c').takes = true then 1 else 0 := by
  unfold turnCalls
  by_cases hc : c = c'
  · subst hc
    by_cases htakes : (turns c).takes = true
    · simp [htakes]
    · cases (turns c).isOpen <;> simp [htakes]
  · by_cases htakes : (turns c).takes = true
    · simp [htakes, hc]
    · cases (turns c).isOpen <;> simp [htakes, hc]

theorem count_turns {l : List Nat} (hl : l.Nodup) (c : Nat) :
    (l.flatMap (turnCalls payload turns)).count (c, .send payload) = if c ∈ l ∧ (turns c).takes = true then 1
      else 0 := by
  induction l with
  | nil => simp
  | cons x l ih =>
    rw [List.nodup_cons] at hl
    rw [List.flatMap_cons, List.count_append, count_turnCalls, ih hl.2]
    by_cases hx : x = c
    · subst hx
      simp [hl.1]
    · simp [hx, Ne.symm hx]

theorem data_of_turns {l : List Nat} {c : Nat} {data : JsString}
    (h : (c, SocketCall.send data) ∈ l.flatMap (turnCalls payload turns)) :
    data = payload := by
  obtain ⟨x, -, hx⟩ := List.mem_flatMap.mp h
  unfold turnCalls at hx
  split at hx
  · simp only [List.mem_singleton, Prod.mk.injEq, SocketCall.send.injEq] at hx
    exact hx.2
  · split at hx
    · simp at hx
    · cases hx

end

/-- What a fan-out comes to, whatever the sockets do at their turns. -/
structure FansOut (s : State) (user : JsString) (payload : JsString) (turns : Nat → Turn) (s' : State) : Prop where
  /-- There is one turn for every connection of the user. -/
  everyone : (snapshot s user).Nodup ∧ ∀ c, c ∈ snapshot s user ↔ Registered s user c
  steps : s' = (snapshot s user).foldl (sendTurn payload turns) s
  /-- The invariant holds at every turn, and who is registered then was so from the start. -/
  between : ∀ before, before <+: snapshot s user → Inv (before.foldl (sendTurn payload turns) s) ∧
    ∀ user' c, Registered (before.foldl (sendTurn payload turns) s) user' c → Registered s user' c
  /-- The payload is handed once to each connection that is open and within the limit at its
      turn, and to no other; nothing else is handed. -/
  handed : ∃ calls, s'.calls = s.calls ++ calls ∧
    (∀ c, calls.count (c, .send payload) = if c ∈ snapshot s user ∧ (turns c).takes = true then 1 else 0) ∧
    ∀ c data, (c, .send data) ∈ calls → data = payload

theorem send_fansOut (h : Inv s) (user : JsString) (message : Json) (turns : Nat → Turn) :
    FansOut s user message.stringify turns (send s user message turns) := by
  refine ⟨⟨nodup_snapshot h user, fun c => mem_snapshot⟩, send_eq user message, fun before _ => inv_turns h before,
    _, ?_, count_turns (nodup_snapshot h user), fun c data => data_of_turns⟩
  rw [send_eq]
  exact calls_turns _

/-- A connection that another's turn takes out is still handed the payload: its socket is open. -/
example : (send (run 30000 [.add (js "u") 900 0, .add (js "u") 900 0]) (js "u") .null
    fun c => ⟨true, 0, if c = 0 then [(1, .close)] else [], false⟩).calls =
      [(0, .send (js "null")), (1, .send (js "null"))] := by
  decide +kernel

theorem inv_send (h : Inv s) (user : JsString) (message : Json) (turns : Nat → Turn) :
    Inv (send s user message turns) := by
  rw [send_eq]
  exact (inv_turns h _).1

/-! ## Shutdown -/

section

variable (code : Nat) (reason : JsString) (emitted : Nat → Emitted)

theorem inv_closeOne (h : Inv s) (c : Nat) : Inv (closeOne code reason emitted s c) :=
  inv_emit (inv_call (inv_remove h c) _ _) _

theorem registered_closeOne {code : Nat} {reason : JsString} {emitted : Nat → Emitted} (h : Inv s)
    {c : Nat} {user : JsString} {c' : Nat}
    (hin : Registered (closeOne code reason emitted s c) user c') : Registered s user c' ∧ c' ≠ c := by
  have hremoved := registered_emit (inv_call (inv_remove h c) _ _) hin
  exact (registered_remove h user c').mp hremoved

theorem closeEach_spec (h : Inv s) (l : List Nat) :
    Inv (l.foldl (closeOne code reason emitted) s) ∧
      ∀ user c, Registered (l.foldl (closeOne code reason emitted) s) user c → Registered s user c ∧ c ∉ l := by
  induction l generalizing s with
  | nil => exact ⟨h, fun user c hin => ⟨hin, List.not_mem_nil⟩⟩
  | cons x l ih =>
    obtain ⟨hinv, hout⟩ := ih (inv_closeOne code reason emitted h x)
    refine ⟨hinv, fun user c hin => ?_⟩
    obtain ⟨hin, hc⟩ := hout user c hin
    obtain ⟨hin, hne⟩ := registered_closeOne h hin
    exact ⟨hin, List.not_mem_cons_of_ne_of_not_mem hne hc⟩

/-- The user is left without a connection. -/
theorem closeUser_spec (h : Inv s) (user : JsString) :
    Inv (closeUser code reason emitted s user) ∧
      ∀ user' c, Registered (closeUser code reason emitted s user) user' c → Registered s user' c ∧ user' ≠ user := by
  unfold closeUser
  cases hsockets : s.byUser.get user with
  | none =>
    refine ⟨h, fun user' c hin => ⟨hin, ?_⟩⟩
    rintro rfl
    obtain ⟨sockets, hget, -⟩ := hin
    rw [hsockets] at hget
    cases hget
  | some sockets =>
    obtain ⟨hinv, hout⟩ := closeEach_spec code reason emitted h sockets
    refine ⟨hinv, fun user' c hin => ?_⟩
    obtain ⟨hin, hc⟩ := hout user' c hin
    refine ⟨hin, ?_⟩
    rintro rfl
    obtain ⟨sockets', hget, hmem⟩ := hin
    rw [hsockets] at hget
    cases hget
    exact hc hmem

theorem closeUsers_spec (h : Inv s) (users : List JsString) :
    Inv (users.foldl (closeUser code reason emitted) s) ∧
      ∀ user c, Registered (users.foldl (closeUser code reason emitted) s) user c →
        Registered s user c ∧ user ∉ users := by
  induction users generalizing s with
  | nil => exact ⟨h, fun user c hin => ⟨hin, List.not_mem_nil⟩⟩
  | cons u users ih =>
    obtain ⟨hinv, hout⟩ := closeUser_spec code reason emitted h u
    obtain ⟨hinv', hout'⟩ := ih hinv
    refine ⟨hinv', fun user c hin => ?_⟩
    obtain ⟨hin, huser⟩ := hout' user c hin
    obtain ⟨hin, hne⟩ := hout user c hin
    exact ⟨hin, List.not_mem_cons_of_ne_of_not_mem hne huser⟩

end

theorem inv_closeAll (h : Inv s) (code : Nat) (reason : JsString) (emitted : Nat → Emitted) :
    Inv (closeAll s code reason emitted) :=
  (closeUsers_spec code reason emitted h s.byUser.keys).1

theorem closeAll_empty (h : Inv s) (code : Nat) (reason : JsString) (emitted : Nat → Emitted) :
    (closeAll s code reason emitted).byUser = OMap.empty := by
  obtain ⟨hinv, hout⟩ := closeUsers_spec code reason emitted h s.byUser.keys
  refine OMap.ext (List.eq_nil_iff_forall_not_mem.mpr fun entry hentry => ?_)
  obtain ⟨user, sockets⟩ := entry
  have hget := OMap.get_eq_some.mpr hentry
  obtain ⟨c, hc⟩ := List.exists_mem_of_ne_nil sockets (hinv.nonempty user sockets hget)
  obtain ⟨⟨sockets', hget', -⟩, huser⟩ := hout user c ⟨sockets, hget, hc⟩
  exact huser (OMap.mem_keys.mpr ⟨sockets', hget'⟩)

/-! ## Whole runs -/

theorem inv_step (h : Inv s) (op : Op) : Inv (step pingIntervalMs s op) := by
  cases op with
  | add user expiresAtMs nowMs => exact inv_add h pingIntervalMs user expiresAtMs nowMs
  | send user message turns => exact inv_send h user message turns
  | dispatch user event turns => exact inv_send h user _ turns
  | heartbeat c isOpen emitted => exact inv_heartbeat h c isOpen emitted
  | expiry c emitted => exact inv_expiry h c emitted
  | event c event => exact inv_listen h (c, event)
  | sendFailed c => exact inv_remove h c
  | closeAll code reason emitted => exact inv_closeAll h code reason emitted

theorem inv_run (ops : List Op) : Inv (run pingIntervalMs ops) := by
  suffices ∀ s, Inv s → Inv (ops.foldl (step pingIntervalMs) s) from this _ inv_init
  induction ops with
  | nil => exact fun s h => h
  | cons op ops ih => exact fun s h => ih _ (inv_step pingIntervalMs h op)

/-- The users with a connection, each once. -/
theorem userIds_run (ops : List Op) (user : JsString) :
    user ∈ userIds (run pingIntervalMs ops) ↔ ∃ c, Registered (run pingIntervalMs ops) user c := by
  have h := inv_run pingIntervalMs ops
  rw [userIds, OMap.mem_keys]
  constructor
  · rintro ⟨sockets, hsockets⟩
    obtain ⟨c, hc⟩ := List.exists_mem_of_ne_nil sockets (h.nonempty user sockets hsockets)
    exact ⟨c, sockets, hsockets, hc⟩
  · rintro ⟨c, sockets, hsockets, -⟩
    exact ⟨sockets, hsockets⟩

/-- After any run: the timers and the map are in order, every fan-out hands its payload once
    to each connection that can take it, and `closeAll` leaves nothing. -/
theorem registry_invariant (ops : List Op) :
    Inv (run pingIntervalMs ops) ∧
      (∀ user message turns, FansOut (run pingIntervalMs ops) user message.stringify turns
        (send (run pingIntervalMs ops) user message turns)) ∧
      (∀ user event turns, FansOut (run pingIntervalMs ops) user
        (Json.obj [(js "type", .str (js "event")), (js "event", event)]).stringify turns
          (dispatch (run pingIntervalMs ops) user event turns)) ∧
      ∀ code reason emitted, (closeAll (run pingIntervalMs ops) code reason emitted).byUser = OMap.empty := by
  have h := inv_run pingIntervalMs ops
  exact ⟨h, fun user message turns => send_fansOut h user message turns,
    fun user event turns => send_fansOut h user _ turns,
    closeAll_empty h⟩

end NotifyHub.Realtime
