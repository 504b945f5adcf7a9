/-
  NotifyHub.Client.AuthInterceptor — the recovery from a 401
  (apps/client/lib/api/auth_interceptor.dart, auth/token_refresher.dart).

  The interceptor's queue handles one error at a time: the next one begins when the
  handler of the one before is completed. An error handler waits for a refresh, or for a
  replay; what else holds the token changes it at any time (a login, a logout). A
  handler whose wait throws what it does not catch is never completed (`dead`).

  Ghosts: the order of arrival numbers the requests, a login begins a session.

  - `every_failure_answered`: handlers are completed once and in order, no request is
    replayed twice, and no session expires twice. Unless a token is handed out again, it
    is refreshed once, not counting the refreshes that failed. As long as nothing but a
    `DioException` is thrown, each outcome brings the queue on until all are answered.
  - `burst_refreshes_again`: after a failed refresh the next error of a burst refreshes
    again; and where the secure storage throws, nothing is answered any more.
-/

import Mathlib.Data.List.Infix
import Mathlib.Data.List.Nodup
import Mathlib.Logic.Relation
import NotifyHub.Client.Credentials

namespace NotifyHub.Client

/-- How the future of `refresh()` ends. -/
inductive RefreshOutcome where
  | token (accessToken : JsString)
  | null
  | dioException
  /-- Any other thrown error. -/
  | threw
  deriving DecidableEq

inductive RefreshResponse where
  | tokens (refreshToken accessToken : JsString)
  /-- A success without a body. -/
  | empty
  | dioException (statusCode : Option Nat)
  | threw
  deriving DecidableEq

/-- What the calls of one `_doRefresh` come to. -/
structure RefreshCalls where
  /-- `store.read()`, nothing if it throws. -/
  read : Option (Option Credentials)
  response : RefreshResponse
  /-- `store.save` or `store.clear` does not throw. -/
  written : Bool
  deriving DecidableEq

/-- `_doRefresh` -/
def doRefresh (calls : RefreshCalls) : RefreshOutcome :=
  match calls.read with
  | none => .threw
  | some none => .null
  | some (some _) =>
    match calls.response with
    | .tokens _ accessToken => if calls.written then .token accessToken else .threw
    | .empty => .null
    | .dioException statusCode =>
      if statusCode = some 401 ∨ statusCode = some 403 then if calls.written then .null else .threw
      else .dioException
    | .threw => .threw

/-- A request whose error comes to `onError`. -/
structure FailedRequest where
  statusCode : Option Nat
  path : JsString
  /-- `headers['Authorization']` -/
  authorization : Option JsString
  /-- `extra[retriedExtraKey] == true` -/
  retried : Bool
  deriving DecidableEq

def isAuthPath (path : JsString) : Bool := decide (js "/auth/" <:+: path)

def bearerToken (f : FailedRequest) : Option JsString :=
  f.authorization.bind fun header => if startsWith header (js "Bearer ") then some (header.drop (js "Bearer ").length)
    else none

/-- How a handler is completed. -/
inductive Answer where
  /-- `handler.next` with the original error. -/
  | passedOn
  /-- `handler.resolve` with the replay's response. -/
  | resolved
  /-- `handler.next` with the replay's error. -/
  | replayError
  deriving DecidableEq

/-- What the active handler waits for. -/
inductive Wait where
  | refresh (sentToken : JsString)
  | replay (accessToken : JsString)
  /-- Its future has ended with an error, and the handler is not completed. -/
  | dead
  deriving DecidableEq

structure Active where
  request : Nat
  failure : FailedRequest
  wait : Wait
  deriving DecidableEq

structure AuthInterceptor where
  accessToken : Option JsString
  active : Option Active
  queue : List (Nat × FailedRequest)
  arrived : Nat
  session : Nat
  answered : List (Nat × Answer)
  /-- The tokens the interceptor called `refresh` for, and those of them whose refresh failed. -/
  triggered : List JsString
  failed : List JsString
  replays : List Nat
  /-- The sessions `onSessionExpired` was called in. -/
  expired : List Nat

def AuthInterceptor.init : AuthInterceptor := ⟨none, none, [], 0, 0, [], [], [], [], []⟩

inductive ReplayOutcome where
  | response
  | dioException
  | threw
  deriving DecidableEq

inductive AuthEvent where
  | fails (f : FailedRequest)
  | refreshed (calls : RefreshCalls)
  | replayed (outcome : ReplayOutcome)
  | login (accessToken : JsString)
  | logout
  deriving DecidableEq

namespace AuthInterceptor

variable (s : AuthInterceptor)

/-- The handler is completed. -/
def answer (n : Nat) (a : Answer) : AuthInterceptor := { s with active := none, answered := s.answered ++ [(n, a)] }

/-- `_replay` up to where it waits. -/
def replay (n : Nat) (f : FailedRequest) (accessToken : JsString) : AuthInterceptor :=
  { s with
    active := some ⟨n, { f with authorization := some (js "Bearer " ++ accessToken), retried := true },
      .replay accessToken⟩
    replays := s.replays ++ [n] }

/-- `onError` up to where it waits, or to its end. -/
def onError (n : Nat) (f : FailedRequest) : AuthInterceptor :=
  match bearerToken f with
  | none => s.answer n .passedOn
  | some sentToken =>
    if f.statusCode ≠ some 401 ∨ isAuthPath f.path = true ∨ f.retried = true then s.answer n .passedOn
    else
      match s.accessToken with
      | none => s.answer n .passedOn
      | some current =>
        if current ≠ sentToken then s.replay n f current
        else { s with active := some ⟨n, f, .refresh sentToken⟩, triggered := s.triggered ++ [sentToken] }

/-- The queue goes on to the next handler that waits. -/
def drain (s : AuthInterceptor) : List (Nat × FailedRequest) → AuthInterceptor
  | [] => { s with queue := [] }
  | (n, f) :: queue =>
    let s := s.onError n f
    if s.active.isSome then { s with queue } else s.drain queue

/-- The refresh the active handler waits for has ended. -/
def refreshed (n : Nat) (f : FailedRequest) (sentToken : JsString) : RefreshOutcome → AuthInterceptor
  | .token accessToken => ({ s with accessToken := some accessToken } : AuthInterceptor).replay n f accessToken
  | .null =>
    (({ s with accessToken := none, expired := s.expired ++ [s.session] } : AuthInterceptor).answer n .passedOn).drain
      s.queue
  | .dioException => (({ s with failed := s.failed ++ [sentToken] } : AuthInterceptor).answer n .passedOn).drain s.queue
  | .threw => { s with active := some ⟨n, f, .dead⟩ }

/-- The replay has ended. -/
def replayed (n : Nat) (f : FailedRequest) : ReplayOutcome → AuthInterceptor
  | .response => (s.answer n .resolved).drain s.queue
  | .dioException => (s.answer n .replayError).drain s.queue
  | .threw => { s with active := some ⟨n, f, .dead⟩ }

def step (s : AuthInterceptor) : AuthEvent → AuthInterceptor
  | .fails f =>
    let t : AuthInterceptor := { s with arrived := s.arrived + 1 }
    if s.active.isSome then { t with queue := s.queue ++ [(s.arrived, f)] } else t.drain [(s.arrived, f)]
  | .refreshed calls =>
    match s.active with
    | some ⟨n, f, .refresh sentToken⟩ => s.refreshed n f sentToken (doRefresh calls)
    | _ => s
  | .replayed outcome =>
    match s.active with
    | some ⟨n, f, .replay _⟩ => s.replayed n f outcome
    | _ => s
  | .login accessToken => { s with accessToken := some accessToken, session := s.session + 1 }
  | .logout => { s with accessToken := none }

abbrev run (es : List AuthEvent) : AuthInterceptor := runFrom step .init es

end AuthInterceptor

/-! ## What is expected of the events -/

/-- The outcomes a handler may still wait for. -/
def Wait.work : Wait → Nat
  | .refresh _ => 2
  | .replay _ => 1
  | .dead => 0

/-- Nothing is thrown but a `DioException`. -/
def AuthEvent.Expected : AuthEvent → Prop
  | .refreshed calls => doRefresh calls ≠ .threw
  | .replayed outcome => outcome ≠ .threw
  | _ => True

instance : ∀ e : AuthEvent, Decidable e.Expected
  | .refreshed calls => inferInstanceAs (Decidable (doRefresh calls ≠ .threw))
  | .replayed outcome => inferInstanceAs (Decidable (outcome ≠ .threw))
  | .fails _ | .login _ | .logout => inferInstanceAs (Decidable True)

def AuthEvent.isFailure : AuthEvent → Bool
  | .fails _ => true
  | _ => false

/-- The access token a login or refresh hands out. -/
def AuthEvent.handsOut : AuthEvent → Option JsString
  | .login accessToken => some accessToken
  | .refreshed calls =>
    match doRefresh calls with
    | .token accessToken => some accessToken
    | _ => none
  | _ => none

namespace AuthInterceptor

/-- No token is handed out that the interceptor has found expired. -/
def HandsOutNew (s : AuthInterceptor) (e : AuthEvent) : Prop := ∀ t ∈ e.handsOut, t ∉ s.triggered

instance (s : AuthInterceptor) (e : AuthEvent) : Decidable (HandsOutNew s e) := inferInstanceAs (Decidable (∀ _ ∈ _, _))

/-- The event is what the active handler waits for. -/
def awaits (s : AuthInterceptor) (e : AuthEvent) : Bool :=
  match e, s.active with
  | .refreshed _, some ⟨_, _, .refresh _⟩ => true
  | .replayed _, some ⟨_, _, .replay _⟩ => true
  | _, _ => false

/-- The outcomes that are still to come at most. -/
def work (s : AuthInterceptor) : Nat := 2 * s.queue.length + (s.active.map (·.wait.work)).getD 0

/-- The handlers in the order they are completed, are at work and wait. -/
def handlers (s : AuthInterceptor) : List Nat :=
  s.answered.map (·.1) ++ (s.active.map (·.request)).toList ++ s.queue.map (·.1)

/-! ## One handler begins -/

open Relation

/-- The next handler begins, and is completed at once or waits. -/
inductive Takes : AuthInterceptor → AuthInterceptor → Prop
  | answer {s : AuthInterceptor} {n : Nat} {f : FailedRequest} {queue : List (Nat × FailedRequest)}
    (ha : s.active = none)
      (hq : s.queue = (n, f) :: queue) : Takes s { s.answer n .passedOn with queue }
  | replay {s : AuthInterceptor} {n : Nat} {f : FailedRequest} {queue : List (Nat × FailedRequest)} (current : JsString)
      (ha : s.active = none) (hq : s.queue = (n, f) :: queue) : Takes s { s.replay n f current with queue }
  | refresh {s : AuthInterceptor} {n : Nat} {f : FailedRequest} {queue : List (Nat × FailedRequest)}
    (sentToken : JsString)
      (ha : s.active = none) (hq : s.queue = (n, f) :: queue) (ht : s.accessToken = some sentToken) :
      Takes s { s with active := some ⟨n, f, .refresh sentToken⟩, triggered := s.triggered ++ [sentToken], queue }

theorem onError_takes (s : AuthInterceptor) (n : Nat) (f : FailedRequest) (queue : List (Nat × FailedRequest))
    (ha : s.active = none) :
    Takes { s with queue := (n, f) :: queue } { s.onError n f with queue } := by
  unfold onError
  split
  · exact .answer ha rfl
  · rename_i sentToken _
    split
    · exact .answer ha rfl
    · split
      · exact .answer ha rfl
      · rename_i current hcurrent
        split
        · exact .replay current ha rfl
        · rename_i heq
          rw [Ne, not_not] at heq
          exact .refresh sentToken ha rfl (by rw [hcurrent, heq])

theorem drain_takes (queue : List (Nat × FailedRequest)) (s : AuthInterceptor) (ha : s.active = none) :
    ReflTransGen Takes { s with queue } (s.drain queue) ∧
      ((s.drain queue).active = none → (s.drain queue).queue = []) := by
  induction queue generalizing s with
  | nil => exact ⟨.refl, fun _ => rfl⟩
  | cons x queue ih =>
    obtain ⟨n, f⟩ := x
    have hfirst := onError_takes s n f queue ha
    rw [drain]
    split
    · rename_i hactive
      refine ⟨.single hfirst, fun hnone => ?_⟩
      change (s.onError n f).active = none at hnone
      rw [hnone] at hactive
      cases hactive
    · rename_i hactive
      obtain ⟨hrest, hidle⟩ := ih (s.onError n f) (Option.not_isSome_iff_eq_none.mp hactive)
      exact ⟨.head hfirst hrest, hidle⟩

/-- What holds before a handler begins and each beginning keeps, holds when the queue has gone on. -/
theorem drain_keeps {P : AuthInterceptor → Prop} (htakes : ∀ s s', Takes s s' → P s → P s') {s : AuthInterceptor}
    {queue : List (Nat × FailedRequest)} (ha : s.active = none) (hs : P { s with queue }) : P (s.drain queue) := by
  have hchain := (drain_takes queue s ha).1
  generalize s.drain queue = t at hchain
  induction hchain with
  | refl => exact hs
  | tail _ hstep ih => exact htakes _ _ hstep ih

/-! ## No handler is lost, and none is answered twice -/

structure Sound (s : AuthInterceptor) : Prop where
  handlers : s.handlers = List.range s.arrived
  replays : s.replays.Nodup
  /-- A replayed request is answered, or its handler waits for the replay. -/
  replayed : ∀ n ∈ s.replays, n ∈ s.answered.map (·.1) ∨ ∃ a, s.active = some a ∧ a.request = n ∧ ∀ t,
  a.wait ≠ .refresh t
  expired : s.expired.Nodup
  sessions : ∀ k ∈ s.expired, k ≤ s.session
  /-- A session that expired has no token and asks for none. -/
  ended : s.session ∈ s.expired → s.accessToken = none ∧ ∀ a t, s.active = some a → a.wait ≠ .refresh t

theorem Sound.fresh {s : AuthInterceptor} (h : Sound s) {n : Nat} (hn : n ∈ s.queue.map (·.1)) :
    n ∉ s.answered.map (·.1) := by
  intro hm
  have hnodup : s.handlers.Nodup := h.handlers ▸ List.nodup_range
  exact (List.nodup_append.mp hnodup).2.2 n (List.mem_append_left _ hm) n hn rfl

theorem Sound.active_fresh {s : AuthInterceptor} (h : Sound s) {a : Active} (ha : s.active = some a) :
    a.request ∉ s.answered.map (·.1) := by
  intro hm
  have hnodup : s.handlers.Nodup := h.handlers ▸ List.nodup_range
  refine (List.nodup_append.mp (List.nodup_append.mp hnodup).1).2.2 a.request hm a.request ?_ rfl
  rw [ha]
  exact List.mem_singleton_self _

theorem sound_takes {s s' : AuthInterceptor} (h : Takes s s') (hs : Sound s) : Sound s' := by
  have hrange := hs.handlers
  cases h with
  | @answer n f queue ha hq =>
    simp only [AuthInterceptor.handlers, ha, hq] at hrange
    refine ⟨?_, hs.replays, fun m hm => ?_, hs.expired, hs.sessions, fun hk => ⟨(hs.ended hk).1, nofun⟩⟩
    · simpa [AuthInterceptor.handlers, AuthInterceptor.answer] using hrange
    · rcases hs.replayed m hm with h | ⟨a, h, -⟩
      · exact Or.inl (by simp only [AuthInterceptor.answer, List.map_append]; exact List.mem_append_left _ h)
      · rw [ha] at h; cases h
  | @replay n f queue current ha hq =>
    have hfresh := hs.fresh (n := n) (by rw [hq]; exact List.mem_cons_self)
    simp only [AuthInterceptor.handlers, ha, hq] at hrange
    have hnew : n ∉ s.replays := fun hm => (hs.replayed n hm).elim hfresh fun ⟨a, h, _⟩ => by rw [ha] at h; cases h
    refine ⟨?_, ?_, fun m hm => ?_, hs.expired, hs.sessions, fun hk => ⟨(hs.ended hk).1, ?_⟩⟩
    · simpa [AuthInterceptor.handlers, AuthInterceptor.replay] using hrange
    · exact List.Nodup.append hs.replays (List.nodup_singleton n) (List.disjoint_singleton.mpr hnew)
    · rcases List.mem_append.mp hm with hm | hm
      · rcases hs.replayed m hm with h | ⟨a, h, -⟩
        · exact Or.inl h
        · rw [ha] at h; cases h
      · exact Or.inr ⟨_, rfl, (List.mem_singleton.mp hm).symm, nofun⟩
    · intro a t h
      cases h
      exact nofun
  | @refresh n f queue sentToken ha hq ht =>
    simp only [AuthInterceptor.handlers, ha, hq] at hrange
    refine ⟨?_, hs.replays, fun m hm => ?_, hs.expired, hs.sessions, fun hk => ?_⟩
    · simpa [AuthInterceptor.handlers] using hrange
    · rcases hs.replayed m hm with h | ⟨a, h, -⟩
      · exact Or.inl h
      · rw [ha] at h; cases h
    · rw [(hs.ended hk).1] at ht
      cases ht

/-- The active handler is completed. -/
theorem Sound.complete {s : AuthInterceptor} (h : Sound s) {n : Nat} {f : FailedRequest} {w : Wait}
    (ha : s.active = some ⟨n, f, w⟩) (r : Answer) : Sound (s.answer n r) := by
  have hrange := h.handlers
  simp only [AuthInterceptor.handlers, ha] at hrange
  refine ⟨?_, h.replays, fun m hm => Or.inl ?_, h.expired, h.sessions, fun hk => ⟨(h.ended hk).1, nofun⟩⟩
  · simpa [AuthInterceptor.handlers, AuthInterceptor.answer] using hrange
  · simp only [AuthInterceptor.answer, List.map_append, List.mem_append]
    rcases h.replayed m hm with h | ⟨a, h, rfl, -⟩
    · exact Or.inl h
    · rw [ha] at h
      cases h
      exact Or.inr (List.mem_singleton_self _)

/-- The handler's wait ends with an error that nothing catches. -/
theorem Sound.die {s : AuthInterceptor} (h : Sound s) {n : Nat} {f : FailedRequest} {w : Wait}
    (ha : s.active = some ⟨n, f, w⟩) : Sound { s with active := some ⟨n, f, .dead⟩ } := by
  have hrange := h.handlers
  simp only [AuthInterceptor.handlers, ha] at hrange
  refine ⟨by simpa [AuthInterceptor.handlers] using hrange, h.replays, fun m hm => ?_, h.expired, h.sessions,
    fun hk => ⟨(h.ended hk).1, ?_⟩⟩
  · rcases h.replayed m hm with h | ⟨a, h, hr, -⟩
    · exact Or.inl h
    · rw [ha] at h
      cases h
      exact Or.inr ⟨_, rfl, hr, nofun⟩
  · intro a t he
    cases he
    exact nofun

theorem Sound.failed {s : AuthInterceptor} (h : Sound s) {l : List JsString} : Sound { s with failed := l } :=
  ⟨h.handlers, h.replays, h.replayed, h.expired, h.sessions, h.ended⟩

/-- The session is over. -/
theorem Sound.expire {s : AuthInterceptor} (h : Sound s) (ha : s.active = none) (hlive : s.session ∉ s.expired) :
    Sound { s with accessToken := none, expired := s.expired ++ [s.session] } := by
  refine ⟨h.handlers, h.replays, h.replayed, ?_, fun k hk => ?_, fun _ => ⟨rfl, fun a t he => ?_⟩⟩
  · exact List.Nodup.append h.expired (List.nodup_singleton _) (List.disjoint_singleton.mpr hlive)
  · rcases List.mem_append.mp hk with hk | hk
    · exact h.sessions k hk
    · exact Nat.le_of_eq (List.mem_singleton.mp hk)
  · change s.active = some a at he
    rw [ha] at he
    cases he

theorem Sound.refreshed {s : AuthInterceptor} (h : Sound s) {n : Nat} {f : FailedRequest} {sentToken : JsString}
    (ha : s.active = some ⟨n, f, .refresh sentToken⟩) (outcome : RefreshOutcome) :
    Sound (s.refreshed n f sentToken outcome) := by
  have hlive : s.session ∉ s.expired := fun hk => (h.ended hk).2 _ _ ha rfl
  cases outcome with
  | token accessToken =>
    have hfresh : n ∉ s.answered.map (·.1) := h.active_fresh ha
    have hrange := h.handlers
    simp only [AuthInterceptor.handlers, ha] at hrange
    have hnew : n ∉ s.replays := by
      intro hm
      rcases h.replayed n hm with hm | ⟨a, he, -, hw⟩
      · exact hfresh hm
      · rw [ha] at he
        cases he
        exact hw sentToken rfl
    refine ⟨by simpa [AuthInterceptor.handlers, AuthInterceptor.refreshed, replay] using hrange,
      ?_, fun m hm => ?_, h.expired,
      h.sessions, fun hk => absurd hk hlive⟩
    · exact List.Nodup.append h.replays (List.nodup_singleton n) (List.disjoint_singleton.mpr hnew)
    · rcases List.mem_append.mp hm with hm | hm
      · rcases h.replayed m hm with hm | ⟨a, he, -, hw⟩
        · exact Or.inl hm
        · rw [ha] at he
          cases he
          exact absurd rfl (hw sentToken)
      · exact Or.inr ⟨_, rfl, (List.mem_singleton.mp hm).symm, nofun⟩
  | null =>
    exact drain_keeps (fun _ _ => sound_takes) rfl ((h.complete ha .passedOn).expire rfl hlive)
  | dioException => exact drain_keeps (fun _ _ => sound_takes) rfl (h.complete ha .passedOn).failed
  | threw => exact h.die ha

theorem sound_step {s : AuthInterceptor} (e : AuthEvent) (hidle : s.active = none → s.queue = []) (h : Sound s) :
    Sound (step s e) := by
  cases e with
  | fails f =>
    have hrange := h.handlers
    unfold step
    dsimp only
    split
    · rename_i hactive
      refine ⟨?_, h.replays, h.replayed, h.expired, h.sessions, h.ended⟩
      simp only [AuthInterceptor.handlers, List.map_append, List.range_succ, ← hrange, List.append_assoc]
      rfl
    · rename_i hactive
      have ha := Option.not_isSome_iff_eq_none.mp hactive
      refine drain_keeps (fun _ _ => sound_takes) ha ⟨?_, h.replays, h.replayed, h.expired, h.sessions, h.ended⟩
      simp only [AuthInterceptor.handlers, ha, hidle ha, List.map_nil, List.append_nil, Option.map_none,
        Option.toList_none] at hrange
      simp [AuthInterceptor.handlers, ha, List.range_succ, ← hrange]
  | refreshed calls =>
    simp only [step]
    split
    · rename_i n f sentToken ha
      exact h.refreshed ha _
    · exact h
  | replayed outcome =>
    simp only [step]
    split
    · rename_i n f t ha
      cases outcome with
      | response => exact drain_keeps (fun _ _ => sound_takes) rfl (h.complete ha .resolved)
      | dioException => exact drain_keeps (fun _ _ => sound_takes) rfl (h.complete ha .replayError)
      | threw => exact h.die ha
    · exact h
  | login accessToken =>
    have hnew : s.session + 1 ∉ s.expired := fun hk => by
      have := h.sessions _ hk
      omega
    exact ⟨h.handlers, h.replays, h.replayed, h.expired, fun k hk => Nat.le_succ_of_le (h.sessions k hk),
      fun hk => absurd hk hnew⟩
  | logout => exact ⟨h.handlers, h.replays, h.replayed, h.expired, h.sessions, fun hk => ⟨rfl, (h.ended hk).2⟩⟩

/-! ## How often a token is refreshed -/

structure Counted (s : AuthInterceptor) : Prop where
  refreshes : ∀ t, s.triggered.count t ≤ s.failed.count t + 1
  /-- Every refresh of a token that is held, and not being refreshed, has failed. -/
  held : ∀ t, s.accessToken = some t → (∀ a, s.active = some a → a.wait ≠ .dead ∧ a.wait ≠ .refresh t) →
    s.triggered.count t ≤ s.failed.count t

theorem counted_takes {s s' : AuthInterceptor} (h : Takes s s') (hs : Counted s) : Counted s' := by
  cases h with
  | answer ha hq => exact ⟨hs.refreshes, fun t ht _ => hs.held t ht fun a h => by rw [ha] at h; cases h⟩
  | replay current ha hq => exact ⟨hs.refreshes, fun t ht _ => hs.held t ht fun a h => by rw [ha] at h; cases h⟩
  | refresh sentToken ha hq ht =>
    have hall := hs.held sentToken ht fun a h => by rw [ha] at h; cases h
    refine ⟨fun t => ?_, fun t htoken hw => ?_⟩
    · have hone := hs.refreshes t
      dsimp only
      rw [List.count_append, List.count_singleton]
      by_cases he : sentToken = t
      · subst he
        simp only [beq_self_eq_true, if_true]
        omega
      · rw [if_neg (by simpa using he)]
        omega
    · obtain rfl : sentToken = t := Option.some.inj (ht.symm.trans htoken)
      exact absurd rfl (hw _ rfl).2

theorem counted_step {s : AuthInterceptor} (e : AuthEvent) (h : Counted s) (hnew : HandsOutNew s e) :
    Counted (step s e) := by
  cases e with
  | fails f =>
    unfold step
    dsimp only
    split
    · exact ⟨h.refreshes, h.held⟩
    · rename_i hactive
      exact drain_keeps (fun _ _ => counted_takes) (Option.not_isSome_iff_eq_none.mp hactive) ⟨h.refreshes, h.held⟩
  | refreshed calls =>
    simp only [step]
    split
    · rename_i n f sentToken ha
      cases hcalls : doRefresh calls with
      | token accessToken =>
        have hzero : s.triggered.count accessToken = 0 :=
          List.count_eq_zero.mpr (hnew accessToken (by simp [AuthEvent.handsOut, hcalls]))
        refine ⟨h.refreshes, fun t ht _ => ?_⟩
        cases ht
        change s.triggered.count accessToken ≤ _
        omega
      | null => exact drain_keeps (fun _ _ => counted_takes) rfl ⟨h.refreshes, nofun⟩
      | dioException =>
        refine drain_keeps (fun _ _ => counted_takes) rfl ⟨fun t => ?_, fun t ht _ => ?_⟩
        · have hone := h.refreshes t
          dsimp only [answer]
          rw [List.count_append]
          omega
        · have hone := h.refreshes t
          dsimp only [answer]
          rw [List.count_append, List.count_singleton]
          by_cases he : sentToken = t
          · subst he
            simp only [beq_self_eq_true, if_true]
            omega
          · have hheld := h.held t ht fun a hact => by
              rw [ha] at hact
              cases hact
              exact ⟨nofun, fun hw => he (Wait.refresh.inj hw)⟩
            omega
      | threw => exact ⟨h.refreshes, fun t _ hw => absurd rfl (hw _ rfl).1⟩
    · exact h
  | replayed outcome =>
    simp only [step]
    split
    · rename_i n f t ha
      have hheld : ∀ u, s.accessToken = some u → s.triggered.count u ≤ s.failed.count u :=
        fun u hu => h.held u hu fun a hact => by
        rw [ha] at hact
        cases hact
        exact ⟨nofun, nofun⟩
      cases outcome with
      | response => exact drain_keeps (fun _ _ => counted_takes) rfl ⟨h.refreshes, fun u hu _ => hheld u hu⟩
      | dioException => exact drain_keeps (fun _ _ => counted_takes) rfl ⟨h.refreshes, fun u hu _ => hheld u hu⟩
      | threw => exact ⟨h.refreshes, fun t _ hw => absurd rfl (hw _ rfl).1⟩
    · exact h
  | login accessToken =>
    refine ⟨h.refreshes, fun t ht _ => ?_⟩
    cases ht
    have hzero : s.triggered.count accessToken = 0 := List.count_eq_zero.mpr (hnew accessToken rfl)
    change s.triggered.count accessToken ≤ _
    omega
  | logout => exact ⟨h.refreshes, nofun⟩

/-! ## Every handler is brought to its end -/

theorem work_takes {s s' : AuthInterceptor} (h : Takes s s') : s'.work ≤ s.work := by
  cases h with
  | answer ha hq =>
    simp only [work, ha, hq, answer, Option.map_none, Option.getD_none, List.length_cons]
    omega
  | replay current ha hq =>
    simp only [work, ha, hq, replay, Wait.work, Option.map_none, Option.map_some, Option.getD_none,
      Option.getD_some, List.length_cons]
    omega
  | refresh sentToken ha hq ht =>
    simp only [work, ha, hq, Wait.work, Option.map_none, Option.map_some, Option.getD_none,
      Option.getD_some, List.length_cons]
    omega

theorem alive_takes {s s' : AuthInterceptor} (h : Takes s s') : ∀ a, s'.active = some a → a.wait ≠ .dead := by
  intro a ha
  cases h with
  | answer => cases ha
  | replay => cases ha; exact nofun
  | refresh => cases ha; exact nofun

/-- A queue that goes on makes no work. -/
theorem work_drain {s : AuthInterceptor} {queue : List (Nat × FailedRequest)} (ha : s.active = none) :
    (s.drain queue).work ≤ 2 * queue.length := by
  refine drain_keeps (P := fun s => s.work ≤ 2 * queue.length) (fun _ _ h => Nat.le_trans (work_takes h)) ha ?_
  simp [work, ha]

theorem alive_drain {s : AuthInterceptor} {queue : List (Nat × FailedRequest)} (ha : s.active = none) :
    ∀ a, (s.drain queue).active = some a → a.wait ≠ .dead :=
  drain_keeps (P := fun s => ∀ a, s.active = some a → a.wait ≠ .dead) (fun _ _ h _ => alive_takes h) ha
    fun a h => by rw [ha] at h; cases h

theorem alive_step {s : AuthInterceptor} (e : AuthEvent) (he : e.Expected)
    (h : ∀ a, s.active = some a → a.wait ≠ .dead) :
    ∀ a, (step s e).active = some a → a.wait ≠ .dead := by
  cases e with
  | fails f =>
    simp only [step]
    split
    · exact h
    · rename_i hactive
      exact alive_drain (s := { s with arrived := s.arrived + 1 }) (Option.not_isSome_iff_eq_none.mp hactive)
  | refreshed calls =>
    simp only [step]
    split
    · rename_i n f sentToken ha
      cases hcalls : doRefresh calls with
      | token accessToken =>
        intro a ha
        cases ha
        exact nofun
      | null => exact alive_drain rfl
      | dioException => exact alive_drain rfl
      | threw => exact absurd hcalls he
    · exact h
  | replayed outcome =>
    simp only [step]
    split
    · cases outcome with
      | response => exact alive_drain rfl
      | dioException => exact alive_drain rfl
      | threw => exact absurd rfl he
    · exact h
  | login => exact h
  | logout => exact h

/-- Each outcome that the active handler waits for brings the queue on. -/
theorem work_step {s : AuthInterceptor} {e : AuthEvent} (he : e.Expected) (ha : s.awaits e = true) :
    (step s e).work < s.work := by
  unfold awaits at ha
  split at ha
  · rename_i calls n f sentToken hactive
    have hwork : s.work = 2 * s.queue.length + 2 := by simp [work, hactive, Wait.work]
    simp only [step, hactive]
    cases hcalls : doRefresh calls with
    | token accessToken =>
      rw [hwork]
      simp [refreshed, replay, work, Wait.work]
    | null =>
      have hle : (s.refreshed n f sentToken .null).work ≤ 2 * s.queue.length := work_drain rfl
      omega
    | dioException =>
      have hle : (s.refreshed n f sentToken .dioException).work ≤ 2 * s.queue.length := work_drain rfl
      omega
    | threw => exact absurd hcalls he
  · rename_i outcome n f t hactive
    have hwork : s.work = 2 * s.queue.length + 1 := by simp [work, hactive, Wait.work]
    simp only [step, hactive]
    cases outcome with
    | response =>
      have hle : (s.replayed n f .response).work ≤ 2 * s.queue.length := work_drain rfl
      omega
    | dioException =>
      have hle : (s.replayed n f .dioException).work ≤ 2 * s.queue.length := work_drain rfl
      omega
    | threw => exact absurd rfl he
  · cases ha

/-! ## Whole runs -/

/-- While handlers wait, one is active. -/
theorem idle_step {s : AuthInterceptor} (e : AuthEvent) (h : s.active = none → s.queue = []) :
    (step s e).active = none → (step s e).queue = [] := by
  cases e with
  | fails f =>
    simp only [step]
    split
    · rename_i hactive
      intro hnone
      change s.active = none at hnone
      rw [hnone] at hactive
      cases hactive
    · rename_i hactive
      exact (drain_takes _ { s with arrived := s.arrived + 1 } (Option.not_isSome_iff_eq_none.mp hactive)).2
  | refreshed calls =>
    simp only [step]
    split
    · cases doRefresh calls with
      | token accessToken => exact nofun
      | null => exact (drain_takes _ _ rfl).2
      | dioException => exact (drain_takes _ _ rfl).2
      | threw => exact nofun
    · exact h
  | replayed outcome =>
    simp only [step]
    split
    · cases outcome with
      | response => exact (drain_takes _ _ rfl).2
      | dioException => exact (drain_takes _ _ rfl).2
      | threw => exact nofun
    · exact h
  | login => exact h
  | logout => exact h

theorem arrived_takes {s s' : AuthInterceptor} (h : Takes s s') : s'.arrived = s.arrived := by
  cases h <;> rfl

theorem arrived_drain {s : AuthInterceptor} {queue : List (Nat × FailedRequest)} (ha : s.active = none) :
    (s.drain queue).arrived = s.arrived :=
  drain_keeps (P := fun t => t.arrived = s.arrived) (fun _ _ h => (arrived_takes h).trans) ha rfl

theorem arrived_step (s : AuthInterceptor) (e : AuthEvent) : (step s e).arrived = s.arrived + if e.isFailure then 1
    else 0 := by
  cases e with
  | fails f =>
    simp only [step]
    split
    · rfl
    · rename_i hactive
      exact arrived_drain (s := { s with arrived := s.arrived + 1 }) (Option.not_isSome_iff_eq_none.mp hactive)
  | refreshed calls =>
    simp only [step]
    split
    · cases doRefresh calls with
      | token accessToken => rfl
      | null => exact arrived_drain rfl
      | dioException => exact arrived_drain rfl
      | threw => rfl
    · rfl
  | replayed outcome =>
    simp only [step]
    split
    · cases outcome with
      | response => exact arrived_drain rfl
      | dioException => exact arrived_drain rfl
      | threw => rfl
    · rfl
  | login => rfl
  | logout => rfl

theorem arrived_run (es : List AuthEvent) (s : AuthInterceptor) :
    (runFrom step s es).arrived = s.arrived + es.countP AuthEvent.isFailure := by
  induction es generalizing s with
  | nil => rfl
  | cons e es ih =>
    rw [runFrom_cons, ih, arrived_step, List.countP_cons]
    omega

theorem sound_init : Sound .init := ⟨rfl, .nil, nofun, .nil, nofun, nofun⟩

theorem sound_run (es : List AuthEvent) : Sound (run es) ∧ ((run es).active = none → (run es).queue = []) :=
  runFrom_inv (I := fun s => Sound s ∧ (s.active = none → s.queue = []))
    (fun _ e h => ⟨sound_step e h.2 h.1, idle_step e h.2⟩)
    ⟨sound_init, fun _ => rfl⟩ es

theorem alive_run {es : List AuthEvent} (hes : ∀ e ∈ es, e.Expected) {s : AuthInterceptor}
    (h : ∀ a, s.active = some a → a.wait ≠ .dead) : ∀ a, (runFrom step s es).active = some a → a.wait ≠ .dead := by
  induction es generalizing s with
  | nil => exact h
  | cons e es ih =>
    have he := hes e List.mem_cons_self
    exact ih (fun e' he' => hes e' (List.mem_cons_of_mem e he')) (alive_step e he h)

/-- A handler at work that is alive waits for an outcome. -/
theorem awaits_of_alive {s : AuthInterceptor} {a : Active} (ha : s.active = some a) (hw : a.wait ≠ .dead) :
    ∃ e : AuthEvent, e.Expected ∧ s.awaits e = true := by
  obtain ⟨n, f, w⟩ := a
  cases w with
  | refresh sentToken => exact ⟨.refreshed ⟨some none, .empty, true⟩, nofun, by simp [awaits, ha]⟩
  | replay t => exact ⟨.replayed .response, nofun, by simp [awaits, ha]⟩
  | dead => exact absurd rfl hw

/-- Without work to come every handler has been completed. -/
theorem answered_of_work {s : AuthInterceptor} (h : Sound s) (halive : ∀ a, s.active = some a → a.wait ≠ .dead)
    (hidle : s.active = none → s.queue = []) (hw : s.work = 0) : s.answered.map (·.1) = List.range s.arrived := by
  have hrange := h.handlers
  cases ha : s.active with
  | none =>
    simp only [handlers, ha, hidle ha, List.map_nil, List.append_nil, Option.map_none, Option.toList_none] at hrange
    exact hrange
  | some a =>
    have hdead := halive a ha
    rw [work, ha] at hw
    cases hwait : a.wait with
    | dead => exact absurd hwait hdead
    | _ => simp [hwait, Wait.work] at hw

theorem every_failure_answered (es : List AuthEvent) :
    (run es).handlers = List.range (es.countP AuthEvent.isFailure) ∧ (run es).replays.Nodup ∧ (run es).expired.Nodup ∧
      (Along step HandsOutNew .init es → ∀ t, (run es).triggered.count t ≤ (run es).failed.count t + 1) ∧
      ((∀ e ∈ es, e.Expected) →
        ((run es).work = 0 → (run es).answered.map (·.1) = List.range (es.countP AuthEvent.isFailure)) ∧
        ((run es).work ≠ 0 → ∃ e, e.Expected ∧ (run es).awaits e = true) ∧
        ∀ e, e.Expected → (run es).awaits e = true → (step (run es) e).work < (run es).work) := by
  obtain ⟨hsound, hidle⟩ := sound_run es
  have hhandlers : (run es).handlers = List.range (es.countP AuthEvent.isFailure) := by
    rw [hsound.handlers, arrived_run]
    simp [init]
  refine ⟨hhandlers, hsound.replays, hsound.expired, fun hnew => ?_,
    fun hes => ⟨fun hw => ?_, fun hw => ?_, fun _ => work_step⟩⟩
  · exact (Along.inv (I := Counted) (fun _ e h he => counted_step e h he)
      ⟨fun t => by simp [init], fun t ht => by cases ht⟩ hnew).refreshes
  · rw [answered_of_work hsound (alive_run hes fun _ h => by cases h) hidle hw, arrived_run]
    simp [init]
  · cases ha : (run es).active with
    | none => exact absurd (by rw [work, ha, hidle ha]; rfl) hw
    | some a => exact awaits_of_alive ha (alive_run hes (fun _ h => by cases h) a ha)

/-- A request with a token, and its 401. -/
def expiredRequest (token : JsString) : FailedRequest :=
  ⟨some 401, js "/v1/devices", some (js "Bearer " ++ token), false⟩

/-- Two requests fail with the same token; the refresh yields another, and both are replayed. -/
theorem one_refresh_for_both :
    let es : List AuthEvent := [.login (js "a"), .fails (expiredRequest (js "a")), .fails (expiredRequest (js "a")),
      .refreshed ⟨some (some ⟨js "r", js "e"⟩), .tokens (js "r2") (js "b"), true⟩, .replayed .response]
    (run es).triggered.count (js "a") ≤ (run es).failed.count (js "a") + 1 ∧ (run es).replays = [0, 1] ∧
      (step (run es) (.replayed .response)).work < (run es).work := by
  intro es
  have h := every_failure_answered es
  exact ⟨h.2.2.2.1 (by decide +kernel) (js "a"), by decide +kernel,
    (h.2.2.2.2 (by decide +kernel)).2.2 (.replayed .response) (by decide +kernel) (by decide +kernel)⟩

/-- An uncaught error leaves its handler, and all behind it, without an answer. -/
theorem dead_blocks {s : AuthInterceptor} {a : Active} (ha : s.active = some a) (hw : a.wait = .dead)
    (es : List AuthEvent) :
    (runFrom step s es).active = some a ∧ (runFrom step s es).answered = s.answered := by
  refine runFrom_inv (I := fun t : AuthInterceptor => t.active = some a ∧ t.answered = s.answered)
    (fun t e h => ?_) ⟨ha, rfl⟩ es
  obtain ⟨n, f, w⟩ := a
  cases hw
  cases e with
  | fails f => simpa [step, h.1] using h
  | refreshed calls => simpa [step, h.1] using h
  | replayed outcome => simpa [step, h.1] using h
  | login accessToken => exact h
  | logout => exact h

/-- The refresh of a burst fails, or the storage throws. -/
theorem burst_refreshes_again :
    (run [.login (js "a"), .fails (expiredRequest (js "a")), .fails (expiredRequest (js "a")),
        .refreshed ⟨some (some ⟨js "r", js "e"⟩), .dioException none, true⟩]).triggered = [js "a", js "a"] ∧
      ∀ es, (runFrom step (run [.login (js "a"), .fails (expiredRequest (js "a")), .fails (expiredRequest (js "a")),
        .refreshed ⟨none, .empty, true⟩]) es).answered = [] := by
  refine ⟨by decide +kernel, ?_⟩
  generalize hs : run [.login (js "a"), .fails (expiredRequest (js "a")), .fails (expiredRequest (js "a")),
    .refreshed ⟨none, .empty, true⟩] = s
  have hdead : s.active = some ⟨0, expiredRequest (js "a"), .dead⟩ := by rw [← hs]; decide +kernel
  have hnone : s.answered = [] := by rw [← hs]; decide +kernel
  intro es
  exact (dead_blocks hdead rfl es).2.trans hnone

end AuthInterceptor

end NotifyHub.Client
