/-
  NotifyHub.Client.Credentials — the client's stored credentials and its access token
  across logins, logouts and refreshes (apps/client/lib/auth/token_refresher.dart,
  auth_controller.dart, api/auth_interceptor.dart, realtime/ws_client.dart,
  sessions/webui_tunnel.dart).

  One refresh is in flight at a time and its callers share it (`waiters`). It reads the
  store, asks the gateway, saves or clears, and hands its result over; each caller goes on
  in a step of its own. A call to the store takes effect where it is made (its
  completion is the next step of its flow). A login ends the session before it where it
  saves the new credentials, a logout (also a password reset, or a failed restore that is
  given up) where it clears them; both write the token holder in a later step, where the
  realtime controller disconnects the WebSocket client and, after a login, connects it.

  Ghosts: `session` counts the sessions, `account` is the email of the present one, and a
  refresh knows the session it began under.

  - `faithful_run`: where no logout clears and no login saves between the beginning of a
    refresh and what it writes (`Timely`), the steps of a refresh whose session has ended
    change neither the store nor the token.
  - `store_is_the_accounts`: in such a run the credentials stored are the account's.
  - `refresh_outlives_logout`: a refresh answered after the logout stores its credentials
    again, and the tunnel that waits for it holds the token again.
-/

import NotifyHub.Lib.Rows
import NotifyHub.Lib.Run
import NotifyHub.Lib.Text

namespace NotifyHub.Client

structure Credentials where
  refreshToken : JsString
  accountEmail : JsString
  deriving DecidableEq

inductive RefreshResult where
  | token (accessToken : JsString)
  /-- `null`: the session is no longer valid. -/
  | null
  /-- Any other `DioException`. -/
  | failed
  deriving DecidableEq

inductive RefreshStage where
  | reading (credentials : Option Credentials)
  | asking (credentials : Credentials)
  | finishing (result : RefreshResult)
  | done (result : RefreshResult)
  deriving DecidableEq

/-- The gateway has been asked. -/
def RefreshStage.asks : RefreshStage → Bool
  | .asking _ => true
  | _ => false

structure TokenRefresh where
  session : Nat
  stage : RefreshStage
  deriving DecidableEq

/-- What awaits a refresh; the WebSocket client's run loop knows the epoch it began with. -/
inductive RefreshCaller where
  | interceptor
  | ws (epoch : Nat)
  | tunnel
  | bootstrap
  deriving DecidableEq

structure RefreshWaiter where
  caller : RefreshCaller
  refresh : Nat
  /-- It has gone on. -/
  resumed : Bool
  deriving DecidableEq

structure AuthClient where
  store : Option Credentials
  accessToken : Option JsString
  session : Nat
  account : Option JsString
  /-- The access tokens of logins that are saving. -/
  logins : List JsString
  wsRunning : Bool
  wsEpoch : Nat
  refreshes : List TokenRefresh
  inFlight : Option Nat
  waiters : List RefreshWaiter

/-- The app starts with what an earlier run stored. -/
def AuthClient.init (stored : Option Credentials) : AuthClient :=
  ⟨stored, none, 0, stored.map (·.accountEmail), [], false, 0, [], none, []⟩

inductive RefreshAnswer where
  | tokens (refreshToken accessToken : JsString)
  /-- A success without a body. -/
  | empty
  /-- 401 or 403. -/
  | refused
  | failed
  deriving DecidableEq

/-- The refresh saves the credentials, or clears the store. -/
def RefreshAnswer.saves : RefreshAnswer → Bool
  | .tokens .. | .refused => true
  | .empty | .failed => false

namespace AuthClient

variable (s : AuthClient)

/-- `refresh()`: join the refresh in flight, or begin one. -/
def refresh (caller : RefreshCaller) : AuthClient :=
  match s.inFlight with
  | some r => { s with waiters := s.waiters ++ [⟨caller, r, false⟩] }
  | none =>
    { s with
      refreshes := s.refreshes ++ [⟨s.session, .reading s.store⟩]
      inFlight := some s.refreshes.length
      waiters := s.waiters ++ [⟨caller, s.refreshes.length, false⟩] }

/-- The interceptor's `onError`, of a 401 to a request that was sent with the token. -/
def unauthorized (sentToken : JsString) : AuthClient :=
  if s.accessToken = some sentToken then s.refresh .interceptor else s

def setStage (r : Nat) (f : TokenRefresh) (stage : RefreshStage) : AuthClient :=
  { s with refreshes := s.refreshes.set r { f with stage } }

/-- The store has been read. -/
def read (r : Nat) : AuthClient :=
  match s.refreshes[r]? with
  | some f =>
    match f.stage with
    | .reading none => s.setStage r f (.finishing .null)
    | .reading (some c) => s.setStage r f (.asking c)
    | _ => s
  | none => s

/-- The gateway answers. -/
def answered (r : Nat) (answer : RefreshAnswer) : AuthClient :=
  match s.refreshes[r]? with
  | some f =>
    match f.stage with
    | .asking c =>
      match answer with
      | .tokens refreshToken accessToken =>
        { s with store := some ⟨refreshToken, c.accountEmail⟩ }.setStage r f (.finishing (.token accessToken))
      | .empty => s.setStage r f (.finishing .null)
      | .refused => { s with store := none }.setStage r f (.finishing .null)
      | .failed => s.setStage r f (.finishing .failed)
    | _ => s
  | none => s

/-- The refresh completes: `_inFlight` is cleared before its callers go on. -/
def completed (r : Nat) : AuthClient :=
  match s.refreshes[r]? with
  | some f =>
    match f.stage with
    | .finishing result => { s with inFlight := none }.setStage r f (.done result)
    | _ => s
  | none => s

def wsDisconnect : AuthClient := if s.wsRunning then { s with wsRunning := false, wsEpoch := s.wsEpoch + 1 } else s

/-- The token holder is cleared, and the state is `Unauthenticated`. -/
def drop : AuthClient := { s with accessToken := none }.wsDisconnect

/-- The token is held, and the state is `Authenticated`. -/
def authenticated (accessToken : JsString) : AuthClient :=
  { ({ s with accessToken := some accessToken } : AuthClient).wsDisconnect with wsRunning := true }

/-- A caller goes on with the result. -/
def receive (caller : RefreshCaller) (result : RefreshResult) : AuthClient :=
  match caller, result with
  | .interceptor, .token t => { s with accessToken := some t }
  | .interceptor, .null => s.drop
  | .ws epoch, .token t => if epoch ≠ s.wsEpoch ∨ s.wsRunning = false then s else { s with accessToken := some t }
  | .ws epoch, .null => if epoch ≠ s.wsEpoch ∨ s.wsRunning = false then s else { s with wsRunning := false }
  | .tunnel, .token t => { s with accessToken := some t }
  | .bootstrap, .token t => s.authenticated t
  | .bootstrap, .null | .bootstrap, .failed => s.wsDisconnect
  | .interceptor, .failed | .ws _, .failed | .tunnel, .null | .tunnel, .failed => s

/-- What a waiter awaits, if it has come. -/
def result (w : RefreshWaiter) : Option RefreshResult :=
  if w.resumed then none
  else
    match s.refreshes[w.refresh]? with
    | some ⟨_, .done result⟩ => some result
    | _ => none

def resumed (i : Nat) : AuthClient :=
  match s.waiters[i]? with
  | some w =>
    match s.result w with
    | some result => { s with waiters := s.waiters.set i { w with resumed := true } }.receive w.caller result
    | none => s
  | none => s

/-- A login is answered: its credentials are saved. -/
def loginAnswered (email refreshToken accessToken : JsString) : AuthClient :=
  { s with
    store := some ⟨refreshToken, email⟩
    session := s.session + 1
    account := some email
    logins := s.logins ++ [accessToken] }

/-- A login has saved. -/
def loginDone (i : Nat) : AuthClient :=
  match s.logins[i]? with
  | some t => ({ s with logins := s.logins.eraseIdx i } : AuthClient).authenticated t
  | none => s

/-- A logout has come to its local cleanup. -/
def logoutCleared : AuthClient := { s with store := none, session := s.session + 1, account := none }

end AuthClient

inductive AuthOp where
  | unauthorized (sentToken : JsString)
  | wsRefresh
  | tunnelRefresh
  | bootstrap
  | read (refresh : Nat)
  | answered (refresh : Nat) (answer : RefreshAnswer)
  | completed (refresh : Nat)
  | resumed (waiter : Nat)
  | loginAnswered (email refreshToken accessToken : JsString)
  | loginDone (login : Nat)
  | logoutCleared
  | logoutDone
  /-- The app goes to the background, or comes back. -/
  | wsDisconnect
  | wsConnect
  /-- The run loop gives up. -/
  | wsStop
  deriving DecidableEq

namespace AuthClient

def step (s : AuthClient) : AuthOp → AuthClient
  | .unauthorized sentToken => s.unauthorized sentToken
  | .wsRefresh => if s.wsRunning then s.refresh (.ws s.wsEpoch) else s
  | .tunnelRefresh => s.refresh .tunnel
  | .bootstrap => s.refresh .bootstrap
  | .read r => s.read r
  | .answered r answer => s.answered r answer
  | .completed r => s.completed r
  | .resumed i => s.resumed i
  | .loginAnswered email refreshToken accessToken => s.loginAnswered email refreshToken accessToken
  | .loginDone i => s.loginDone i
  | .logoutCleared => s.logoutCleared
  | .logoutDone => s.drop
  | .wsDisconnect => s.wsDisconnect
  | .wsConnect => { s with wsRunning := true }
  | .wsStop => { s with wsRunning := false }

abbrev run (stored : Option Credentials) (es : List AuthOp) : AuthClient := runFrom step (init stored) es

/-! ## Whose steps they are -/

/-- The refresh whose flow, or whose caller, takes the step. -/
def actor (s : AuthClient) : AuthOp → Option TokenRefresh
  | .read r | .answered r _ | .completed r => s.refreshes[r]?
  | .resumed i => s.waiters[i]?.bind fun w => s.refreshes[w.refresh]?
  | _ => none

/-- A step of a refresh whose session has ended changes neither the store nor the token. -/
def Faithful (s : AuthClient) (op : AuthOp) : Prop :=
  ∀ f, s.actor op = some f → f.session ≠ s.session → (s.step op).store = s.store ∧
    (s.step op).accessToken = s.accessToken

/-- The caller goes on by writing the token holder. -/
def writesToken (s : AuthClient) : RefreshCaller → RefreshResult → Bool
  | .interceptor, .token _ | .interceptor, .null | .tunnel, .token _ | .bootstrap, .token _ => true
  | .ws epoch, .token _ => epoch = s.wsEpoch && s.wsRunning
  | _, _ => false

/-- No logout has cleared and no login has saved since the refresh began: when it saves or clears
    at the answer, and when a caller writes the token holder. -/
def Timely (s : AuthClient) : AuthOp → Prop
  | .answered r answer => answer.saves = true → ∀ f ∈ s.refreshes[r]?, f.stage.asks = true → f.session = s.session
  | .resumed i => ∀ w ∈ s.waiters[i]?, ∀ f ∈ s.refreshes[w.refresh]?, ∀ result ∈ s.result w,
      s.writesToken w.caller result = true → f.session = s.session
  | _ => True

instance (s : AuthClient) (op : AuthOp) : Decidable (Timely s op) := by
  cases op <;> unfold Timely <;> infer_instance

/-! ## What a step writes -/

section
variable {s : AuthClient}

@[simp] theorem wsDisconnect_store (s : AuthClient) :
    s.wsDisconnect.store = s.store := by unfold wsDisconnect; split <;> rfl

@[simp] theorem wsDisconnect_accessToken (s : AuthClient) : s.wsDisconnect.accessToken = s.accessToken := by
  unfold wsDisconnect; split <;> rfl

theorem read_writes (s : AuthClient) (r : Nat) : (s.read r).store = s.store ∧
    (s.read r).accessToken = s.accessToken := by
  unfold read
  split
  · split <;> exact ⟨rfl, rfl⟩
  · exact ⟨rfl, rfl⟩

theorem completed_writes (s : AuthClient) (r : Nat) :
    (s.completed r).store = s.store ∧ (s.completed r).accessToken = s.accessToken := by
  unfold completed
  split
  · split <;> exact ⟨rfl, rfl⟩
  · exact ⟨rfl, rfl⟩

theorem answered_accessToken (s : AuthClient) (r : Nat) (answer : RefreshAnswer) :
    (s.answered r answer).accessToken = s.accessToken := by
  unfold answered
  split
  · split
    · split <;> rfl
    · rfl
  · rfl

/-- An answer changes the store where the refresh asks for it and saves or clears. -/
theorem answered_store {r : Nat} {answer : RefreshAnswer}
    (h : answer.saves = true → ∀ f ∈ s.refreshes[r]?, f.stage.asks = false) :
    (s.answered r answer).store = s.store := by
  unfold answered
  split
  · rename_i f hf
    split
    · rename_i c hc
      have hquiet : answer.saves = false := by
        refine Bool.eq_false_iff.mpr fun hsaves => ?_
        have hasks := h hsaves f hf
        rw [hc] at hasks
        cases hasks
      cases answer with
      | tokens refreshToken accessToken => cases hquiet
      | refused => cases hquiet
      | empty => rfl
      | failed => rfl
    · rfl
  · rfl

theorem receive_store (s : AuthClient) (caller : RefreshCaller) (result : RefreshResult) :
    (s.receive caller result).store = s.store := by
  unfold receive
  split
  · rfl
  · exact wsDisconnect_store _
  · split <;> rfl
  · split <;> rfl
  · rfl
  · exact wsDisconnect_store _
  · exact wsDisconnect_store _
  · exact wsDisconnect_store _
  all_goals rfl

theorem receive_accessToken {caller : RefreshCaller} {result : RefreshResult}
    (h : s.writesToken caller result = false) :
    (s.receive caller result).accessToken = s.accessToken := by
  cases caller with
  | interceptor =>
    cases result with
    | token t => cases h
    | null => cases h
    | failed => rfl
  | ws epoch =>
    cases result with
    | token t =>
      -- the run loop's `isStale`
      have hstale : epoch ≠ s.wsEpoch ∨ s.wsRunning = false := by
        by_cases he : epoch = s.wsEpoch
        · exact Or.inr (by simpa [writesToken, he] using h)
        · exact Or.inl he
      show AuthClient.accessToken (if _ then _ else _) = _
      rw [if_pos hstale]
    | null =>
      unfold receive
      dsimp only
      split <;> rfl
    | failed => rfl
  | tunnel =>
    cases result with
    | token t => cases h
    | null => rfl
    | failed => rfl
  | bootstrap =>
    cases result with
    | token t => cases h
    | null => exact wsDisconnect_accessToken _
    | failed => exact wsDisconnect_accessToken _

/-- A caller that goes on leaves the store, and the holder unless it writes it. -/
theorem resumed_writes {i : Nat} {w : RefreshWaiter} (hw : s.waiters[i]? = some w)
    (h : ∀ result ∈ s.result w, s.writesToken w.caller result = false) :
    (s.resumed i).store = s.store ∧ (s.resumed i).accessToken = s.accessToken := by
  unfold resumed
  rw [hw]
  dsimp only
  cases hr : s.result w with
  | none => exact ⟨rfl, rfl⟩
  | some result => exact ⟨receive_store _ _ _, receive_accessToken (h result hr)⟩

/-! ## Timely steps -/

theorem faithful_answered {r : Nat} {answer : RefreshAnswer} (h : Timely s (.answered r answer)) :
    Faithful s (.answered r answer) := by
  intro f hf hs
  refine ⟨answered_store fun hsaves g hg => ?_, answered_accessToken s r answer⟩
  obtain rfl : f = g := Option.some.inj (hf.symm.trans hg)
  exact Bool.eq_false_iff.mpr fun hasks => hs (h hsaves f hf hasks)

theorem faithful_resumed {i : Nat} (h : Timely s (.resumed i)) : Faithful s (.resumed i) := by
  intro f hactor hs
  obtain ⟨w, hw, hf⟩ := Option.bind_eq_some_iff.mp hactor
  refine resumed_writes hw fun result hr => ?_
  exact Bool.eq_false_iff.mpr fun hwrites => hs (h w hw f hf result hr hwrites)

theorem Timely.faithful {op : AuthOp} (h : Timely s op) : Faithful s op := by
  cases op with
  | answered r answer => exact faithful_answered h
  | resumed i => exact faithful_resumed h
  | read r => exact fun _ _ _ => read_writes s r
  | completed r => exact fun _ _ _ => completed_writes s r
  | _ => exact fun _ hactor _ => by cases hactor

end

/-- Along a timely run, the steps of refreshes whose session has ended change nothing. -/
theorem faithful_run {stored : Option Credentials} {es : List AuthOp} (h : Along step Timely (init stored) es) :
    ∀ before op after, es = before ++ op :: after → Faithful (run stored before) op :=
  along_iff.mp (h.mono fun _ _ => Timely.faithful)

def sampleCredentials : Credentials := ⟨js "refresh-1", js "a@example.com"⟩

/-- The WebSocket client's refresh is answered and saved, and its loop goes on when a logout has made it
    stale. After a login the tunnel's refresh is out during a logout, and fails. -/
def staleRefreshes : List AuthOp :=
  [.wsConnect, .wsRefresh, .read 0, .answered 0 (.tokens (js "refresh-2") (js "access-2")), .completed 0,
    .logoutCleared, .logoutDone, .resumed 0, .loginAnswered (js "b@example.com") (js "refresh-3") (js "access-3"),
    .loginDone 0, .tunnelRefresh, .read 1, .logoutCleared, .logoutDone, .answered 1 .failed, .completed 1, .resumed 1]

theorem staleRefreshes_faithful : (∀ before op after, staleRefreshes = before ++ op :: after →
    Faithful (run (some sampleCredentials) before) op) ∧
    (run (some sampleCredentials) staleRefreshes).refreshes.map (·.session) = [0, 2] ∧
    (run (some sampleCredentials) staleRefreshes).session = 3 ∧
    (run (some sampleCredentials) staleRefreshes).store = none ∧
    (run (some sampleCredentials) staleRefreshes).accessToken = none :=
  ⟨faithful_run (by decide +kernel), by decide +kernel, by decide +kernel, by decide +kernel, by decide +kernel⟩

/-! ## Whose credentials are stored -/

/-- What is stored, and what the refreshes of the session have read, is the account's. -/
structure Kept (s : AuthClient) : Prop where
  store : ∀ c, s.store = some c → s.account = some c.accountEmail
  past : ∀ (r : Nat) (f : TokenRefresh), s.refreshes[r]? = some f → f.session ≤ s.session
  held : ∀ (r : Nat) (f : TokenRefresh), s.refreshes[r]? = some f → f.session = s.session →
    ∀ c, f.stage = .asking c ∨ f.stage = .reading (some c) → s.account = some c.accountEmail

section
variable {s s' : AuthClient}

theorem kept_init (stored : Option Credentials) : Kept (init stored) := by
  refine ⟨fun c hc => ?_, nofun, nofun⟩
  rw [show stored = some c from hc, init]
  rfl

theorem Kept.of_eq (h : Kept s) (hst : s'.store = s.store) (hse : s'.session = s.session) (ha : s'.account = s.account)
    (hr : s'.refreshes = s.refreshes) : Kept s' := by
  refine ⟨?_, ?_, ?_⟩
  · rw [hst, ha]; exact h.store
  · rw [hr, hse]; exact h.past
  · rw [hr, hse, ha]; exact h.held

theorem Kept.refresh (h : Kept s) (caller : RefreshCaller) : Kept (s.refresh caller) := by
  unfold AuthClient.refresh
  split
  · exact h.of_eq rfl rfl rfl rfl
  · refine ⟨h.store, fun r f hf => ?_, fun r f hf hs c hc => ?_⟩
    · rcases getElem_snoc.mp hf with hf | ⟨-, rfl⟩
      · exact h.past r f hf
      · exact Nat.le_refl _
    · rcases getElem_snoc.mp hf with hf | ⟨-, rfl⟩
      · exact h.held r f hf hs c hc
      · -- it has just read the store
        rcases hc with hc | hc
        · cases hc
        · exact h.store c (RefreshStage.reading.inj hc)

theorem Kept.setStage (h : Kept s) {r : Nat} {f : TokenRefresh} (hf : s.refreshes[r]? = some f) {stage : RefreshStage}
    (hstage : ∀ c, stage = .asking c ∨ stage = .reading (some c) → f.stage = .asking c ∨ f.stage = .reading (some c)) :
    Kept (s.setStage r f stage) := by
  refine ⟨h.store, fun r' g hg => ?_, fun r' g hg hs c hc => ?_⟩
  · rcases (getElem_set hf).mp hg with ⟨-, rfl⟩ | ⟨-, hg⟩
    · exact h.past r f hf
    · exact h.past r' g hg
  · rcases (getElem_set hf).mp hg with ⟨-, rfl⟩ | ⟨-, hg⟩
    · exact h.held r f hf hs c (hstage c hc)
    · exact h.held r' g hg hs c hc

/-- A flow that is past the store keeps nothing of it. -/
theorem Kept.finish (h : Kept s) {r : Nat} {f : TokenRefresh} (hf : s.refreshes[r]? = some f) (result : RefreshResult) :
    Kept (s.setStage r f (.finishing result)) := h.setStage hf fun c hc => by rcases hc with hc | hc <;> cases hc

theorem Kept.read (h : Kept s) (r : Nat) : Kept (s.read r) := by
  unfold AuthClient.read
  split
  · rename_i f hf
    split
    · exact h.finish hf .null
    · rename_i c hstage
      refine h.setStage hf fun c' hc => ?_
      rcases hc with hc | hc
      · cases hc
        exact Or.inr hstage
      · cases hc
    · exact h
  · exact h

theorem Kept.answered (h : Kept s) {r : Nat} {answer : RefreshAnswer} (hok : Timely s (.answered r answer)) :
    Kept (s.answered r answer) := by
  unfold AuthClient.answered
  split
  · rename_i f hf
    split
    · rename_i c hc
      have hasks : f.stage.asks = true := by rw [hc]; rfl
      cases answer with
      | tokens refreshToken accessToken =>
        have hset : Kept { s with store := some ⟨refreshToken, c.accountEmail⟩ } := by
          refine ⟨fun c' hc' => ?_, h.past, h.held⟩
          cases hc'
          exact h.held r f hf (hok rfl f hf hasks) c (Or.inl hc)
        exact hset.finish hf _
      | empty => exact h.finish hf _
      | refused =>
        have hset : Kept { s with store := none } := ⟨fun _ hc' => (by cases hc'), h.past, h.held⟩
        exact hset.finish hf _
      | failed => exact h.finish hf _
    · exact h
  · exact h

theorem Kept.completed (h : Kept s) (r : Nat) : Kept (s.completed r) := by
  unfold AuthClient.completed
  split
  · rename_i f hf
    split
    · have hset : Kept { s with inFlight := none } := h.of_eq rfl rfl rfl rfl
      exact hset.setStage hf fun c hc => by rcases hc with hc | hc <;> cases hc
    · exact h
  · exact h

theorem Kept.wsDisconnect (h : Kept s) : Kept s.wsDisconnect := by
  unfold AuthClient.wsDisconnect
  split
  · exact h.of_eq rfl rfl rfl rfl
  · exact h

theorem Kept.drop (h : Kept s) : Kept s.drop := Kept.wsDisconnect (h.of_eq rfl rfl rfl rfl)

theorem Kept.authenticated (h : Kept s) (t : JsString) : Kept (s.authenticated t) := by
  have hset : Kept { s with accessToken := some t } := h.of_eq rfl rfl rfl rfl
  exact hset.wsDisconnect.of_eq rfl rfl rfl rfl

theorem Kept.receive (h : Kept s) (caller : RefreshCaller) (result : RefreshResult) :
    Kept (s.receive caller result) := by
  unfold AuthClient.receive
  split
  · exact h.of_eq rfl rfl rfl rfl
  · exact h.drop
  · split
    · exact h
    · exact h.of_eq rfl rfl rfl rfl
  · split
    · exact h
    · exact h.of_eq rfl rfl rfl rfl
  · exact h.of_eq rfl rfl rfl rfl
  · exact h.authenticated _
  · exact h.wsDisconnect
  · exact h.wsDisconnect
  all_goals exact h

theorem Kept.resumed (h : Kept s) (i : Nat) : Kept (s.resumed i) := by
  unfold AuthClient.resumed
  split
  · split
    · refine Kept.receive ?_ _ _
      exact h.of_eq rfl rfl rfl rfl
    · exact h
  · exact h

/-- A new session: the refreshes there are began before it. -/
theorem Kept.session (h : Kept s) {store : Option Credentials} {account : Option JsString} {logins : List JsString}
    (hstore : ∀ c, store = some c → account = some c.accountEmail) :
    Kept { s with store, session := s.session + 1, account, logins } := by
  refine ⟨hstore, fun r f hf => Nat.le_succ_of_le (h.past r f hf), fun r f hf hs => ?_⟩
  exact absurd hs (Nat.ne_of_lt (Nat.lt_succ_of_le (h.past r f hf)))

theorem Kept.step (h : Kept s) {op : AuthOp} (hok : Timely s op) : Kept (s.step op) := by
  cases op with
  | unauthorized sentToken =>
    show Kept (s.unauthorized sentToken)
    unfold AuthClient.unauthorized
    split
    · exact h.refresh _
    · exact h
  | wsRefresh =>
    unfold AuthClient.step
    dsimp only
    split
    · exact h.refresh _
    · exact h
  | tunnelRefresh => exact h.refresh _
  | bootstrap => exact h.refresh _
  | read r => exact h.read r
  | answered r answer => exact h.answered hok
  | completed r => exact h.completed r
  | resumed i => exact h.resumed i
  | loginAnswered email refreshToken accessToken => exact h.session fun c hc => by cases hc; rfl
  | loginDone i =>
    show Kept (s.loginDone i)
    unfold AuthClient.loginDone
    split
    · refine Kept.authenticated ?_ _
      exact h.of_eq rfl rfl rfl rfl
    · exact h
  | logoutCleared => exact h.session nofun
  | logoutDone => exact h.drop
  | wsDisconnect => exact h.wsDisconnect
  | wsConnect => exact h.of_eq rfl rfl rfl rfl
  | wsStop => exact h.of_eq rfl rfl rfl rfl

end

/-- In a timely run the credentials stored are those of the account logged in. -/
theorem store_is_the_accounts {stored : Option Credentials} {es : List AuthOp}
    (h : Along step Timely (init stored) es) :
    ∀ c, (run stored es).store = some c → (run stored es).account = some c.accountEmail := by
  have hinv : Kept (run stored es) :=
    @Along.inv _ _ step Timely Kept (fun _ _ hk hok => hk.step hok) es _ (kept_init stored) h
  exact hinv.store

/-! ## A late answer -/

/-- The tunnel's refresh is out when the user logs out; the gateway answers it with new tokens. -/
def lateAnswer : List AuthOp :=
  [.tunnelRefresh, .read 0, .logoutCleared, .logoutDone, .answered 0 (.tokens (js "refresh-2") (js "access-2")),
    .completed 0, .resumed 0]

theorem refresh_outlives_logout :
    ¬ (∀ before op after, lateAnswer = before ++ op :: after → Faithful (run (some sampleCredentials) before) op) ∧
    (run (some sampleCredentials) lateAnswer).account = none ∧
    (run (some sampleCredentials) lateAnswer).store = some ⟨js "refresh-2", js "a@example.com"⟩ ∧
    (run (some sampleCredentials) lateAnswer).accessToken = some (js "access-2") := by
  refine ⟨fun h => ?_, by decide +kernel, by decide +kernel, by decide +kernel⟩
  -- the answer is a step of a refresh of the session before
  have hanswer := h [.tunnelRefresh, .read 0, .logoutCleared, .logoutDone] _ _ rfl ⟨0, .asking sampleCredentials⟩
    (by decide +kernel) (by decide +kernel)
  exact absurd hanswer.1 (by decide +kernel)

end AuthClient

end NotifyHub.Client
