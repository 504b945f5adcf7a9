/-
  NotifyHub.Auth.Service — the calls of the auth service
  (apps/gateway/src/modules/auth/auth.service.ts) over one database.

  A call is an `async` function: it waits for a repository method, goes on with the answer
  up to the next one, and so on until it returns or throws. A step is one method of one
  waiting call, with what the call makes of the answer; the calls take their steps in any
  order. The clock and what the call draws at random are given with the step.

  What a step writes is what its method writes (`advance_wrote`). In every state a call that
  waits to rotate a token names one of the database with its own family, and a refresh that
  returned tokens has rotated the presented one (`Consistent`, `kept_run`).
-/

import NotifyHub.Auth.Repository
import NotifyHub.Lib.Run

namespace NotifyHub.Auth

def VERIFICATION_CODE_TTL_MS : Nat := 24 * 60 * 60 * 1000

def PASSWORD_RESET_CODE_TTL_MS : Nat := 60 * 60 * 1000

def REFRESH_TOKEN_TTL_MS : Nat := 30 * 24 * 60 * 60 * 1000

inductive AuthErrorKind where
  | EMAIL_TAKEN
  | EMAIL_NOT_ALLOWED
  | INVALID_CODE
  | MAIL_UNAVAILABLE
  | INVALID_CREDENTIALS
  | EMAIL_UNVERIFIED
  | INVALID_REFRESH
  | REFRESH_REUSED
  deriving DecidableEq

/-- The libraries the service calls. -/
structure Crypto where
  /-- `toLowerCase()` -/
  toLowerCase : JsString → JsString
  sha256Hex : JsString → JsString
  /-- Argon2id, with the salt it draws. -/
  hashPassword : JsString → JsString → JsString
  verifyPassword : JsString → JsString → Bool

/-- What the outside gives a step: a random text or salt, the policy's answer, and whether mail went out. -/
structure Draw where
  random : JsString
  allowed : Bool
  mailed : Bool

/-- The access token is signed for the user. -/
structure TokenPair where
  subject : Nat
  refreshToken : JsString
  deriving DecidableEq

inductive Result where
  | returned
  | pair (tokens : TokenPair)
  | threw (kind : AuthErrorKind) (message : String)
  /-- The database refused a write. -/
  | broken
  deriving DecidableEq

inductive Call where
  | register (email password : JsString)
  | verifyEmail (email code : JsString)
  | resendVerification (email : JsString)
  | forgotPassword (email : JsString)
  | resetPassword (email code password : JsString)
  | login (email password : JsString)
  | refresh (refreshToken : JsString)
  | logout (refreshToken : JsString)
  deriving DecidableEq

/-- The method a call waits for, with what it goes on with. -/
inductive Waiting where
  /-- `registrationPolicy.isEmailAllowed` -/
  | admitting (email password : JsString)
  /-- `findUserByEmail`, of each call that begins with it -/
  | registering (email password : JsString)
  | verifying (email code : JsString)
  | resending (email : JsString)
  | forgetting (email : JsString)
  | resetting (email code password : JsString)
  | loggingIn (email password : JsString)
  | creatingUser (email passwordHash : JsString)
  | issuingVerification (userId : Nat) (tokenHash : JsString) (expiresAt : Nat)
  | consumingVerification (userId : Nat) (tokenHash : JsString) (now : Nat)
  | issuingReset (userId : Nat) (tokenHash : JsString) (expiresAt : Nat)
  | consumingReset (userId : Nat) (tokenHash : JsString) (now : Nat) (passwordHash : JsString)
  | creatingSession (user : UserRecord) (refreshToken : JsString) (expiresAt : Nat)
  /-- `findRefreshTokenByHash`, of `refresh` and of `logout` -/
  | refreshing (refreshToken : JsString)
  | loggingOut (refreshToken : JsString)
  | rotating (record : RefreshTokenRecord) (now : Nat) (next : JsString) (expiresAt : Nat)
  | revoking (familyId now : Nat)

inductive Progress where
  | waiting (w : Waiting)
  | settled (r : Result)

section

variable (K : Crypto)

def normalizeEmail (email : JsString) : JsString := K.toLowerCase (trim email)

/-- A call up to its first `await`. -/
def Call.start : Call → Waiting
  | .register email password => .admitting (normalizeEmail K email) password
  | .verifyEmail email code => .verifying (normalizeEmail K email) code
  | .resendVerification email => .resending (normalizeEmail K email)
  | .forgotPassword email => .forgetting (normalizeEmail K email)
  | .resetPassword email code password => .resetting (normalizeEmail K email) code password
  | .login email password => .loggingIn (normalizeEmail K email) password
  | .refresh refreshToken => .refreshing refreshToken
  | .logout refreshToken => .loggingOut refreshToken

def threw (kind : AuthErrorKind) (message : String) : Progress := .settled (.threw kind message)

def invalidCode : Progress := threw .INVALID_CODE "Invalid, expired, or already used code"

def invalidCredentials : Progress := threw .INVALID_CREDENTIALS "Invalid email or password"

variable (now : Nat) (d : Draw)

/-- `issueVerificationCode`, with the code drawn. -/
def issueVerificationCode (userId : Nat) : Progress :=
  .waiting (.issuingVerification userId (K.sha256Hex d.random) (now + VERIFICATION_CODE_TTL_MS))

/-- `login` after its user was looked up. -/
def loginRead (password : JsString) : Option UserRecord → Progress
  | none => invalidCredentials
  | some user =>
    if K.verifyPassword user.passwordHash password = false then invalidCredentials
    else if user.emailVerifiedAt.isNone then threw .EMAIL_UNVERIFIED "Email address is not verified"
    else .waiting (.creatingSession user d.random (now + REFRESH_TOKEN_TTL_MS))

/-- `refresh` after its token was looked up. -/
def refreshRead : Option RefreshTokenRecord → Progress
  | none => threw .INVALID_REFRESH "Invalid or expired refresh token"
  | some record =>
    if record.expiresAt ≤ now then threw .INVALID_REFRESH "Invalid or expired refresh token"
    else if record.familyRevokedAt.isSome then threw .REFRESH_REUSED "Refresh token family was revoked"
    else .waiting (.rotating record now d.random (now + REFRESH_TOKEN_TTL_MS))

/-- `logout` after its token was looked up. -/
def logoutRead : Option RefreshTokenRecord → Progress
  | none => .settled .returned
  | some record =>
    if record.familyRevokedAt.isSome then .settled .returned else .waiting (.revoking record.familyId now)

/-- The method the call waits for, and the call up to its next `await`. -/
def advance (db : Database) : Waiting → Database × Progress
  | .admitting email password =>
    (db, if d.allowed then .waiting (.registering email password)
      else threw .EMAIL_NOT_ALLOWED "Email is not allowed to register; contact the administrator")
  | .registering email password =>
    (db, if (db.findUserByEmail email).isSome then threw .EMAIL_TAKEN "Email already registered"
      else .waiting (.creatingUser email (K.hashPassword d.random password)))
  | .creatingUser email passwordHash =>
    match db.createUser email passwordHash with
    | none => (db, threw .EMAIL_TAKEN "Email already registered")
    | some (db, user) => (db, issueVerificationCode K now d user.id)
  | .issuingVerification userId tokenHash expiresAt =>
    match db.createVerificationToken userId tokenHash expiresAt with
    | none => (db, .settled .broken)
    | some db =>
      (db, if d.mailed then .settled .returned
        else threw .MAIL_UNAVAILABLE "Email delivery failed; please try again later")
  | .verifying email code =>
    (db, match db.findUserByEmail email with
      | none => invalidCode
      | some user => .waiting (.consumingVerification user.id (K.sha256Hex code) now))
  | .consumingVerification userId tokenHash stamp =>
    let (db, consumed) := db.consumeVerificationToken userId tokenHash stamp
    (db, if consumed then .settled .returned else invalidCode)
  | .resending email =>
    (db, match db.findUserByEmail email with
      | none => .settled .returned
      | some user => if user.emailVerifiedAt.isSome then .settled .returned else issueVerificationCode K now d user.id)
  | .forgetting email =>
    (db, match db.findUserByEmail email with
      | none => .settled .returned
      | some user => .waiting (.issuingReset user.id (K.sha256Hex d.random) (now + PASSWORD_RESET_CODE_TTL_MS)))
  | .issuingReset userId tokenHash expiresAt =>
    match db.createPasswordResetToken userId tokenHash expiresAt with
    | none => (db, .settled .broken)
    | some db => (db, .settled .returned)
  | .resetting email code password =>
    (db, match db.findUserByEmail email with
      | none => invalidCode
      | some user => .waiting (.consumingReset user.id (K.sha256Hex code) now (K.hashPassword d.random password)))
  | .consumingReset userId tokenHash stamp passwordHash =>
    let (db, consumed) := db.consumePasswordResetToken userId tokenHash stamp passwordHash
    (db, if consumed then .settled .returned else invalidCode)
  | .loggingIn email password => (db, loginRead K now d password (db.findUserByEmail email))
  | .creatingSession user refreshToken expiresAt =>
    match db.createRefreshSession user.id (K.sha256Hex refreshToken) expiresAt with
    | none => (db, .settled .broken)
    | some db => (db, .settled (.pair ⟨user.id, refreshToken⟩))
  | .refreshing refreshToken => (db, refreshRead now d (db.findRefreshTokenByHash (K.sha256Hex refreshToken)))
  | .rotating record stamp next expiresAt =>
    match db.rotateRefreshToken record.id record.familyId stamp (K.sha256Hex next) expiresAt with
    | none => (db, .settled .broken)
    | some (db, .reused) => (db, threw .REFRESH_REUSED "Refresh token was already used")
    | some (db, .rotated) => (db, .settled (.pair ⟨record.userId, next⟩))
  | .loggingOut refreshToken => (db, logoutRead now (db.findRefreshTokenByHash (K.sha256Hex refreshToken)))
  | .revoking familyId stamp => (db.revokeRefreshFamily familyId stamp, .settled .returned)

end

/-! ## Interleaving -/

structure AuthService where
  db : Database
  /-- The calls in the order they were begun, each with how far it has come. -/
  calls : List (Call × Progress)

inductive Event where
  | call (c : Call)
  | step (n : Nat) (now : Nat) (d : Draw)

namespace AuthService

/-- The accounts there are at the start; nobody has logged in. -/
def init (users : List UserRow) : AuthService := ⟨⟨users, [], [], [], []⟩, []⟩

variable (K : Crypto)

def step (s : AuthService) : Event → AuthService
  | .call c => { s with calls := s.calls ++ [(c, .waiting (c.start K))] }
  | .step n now d =>
    match s.calls[n]? with
    | some (c, .waiting w) =>
      { db := (advance K now d s.db w).1, calls := s.calls.set n (c, (advance K now d s.db w).2) }
    | _ => s

abbrev run (users : List UserRow) (es : List Event) : AuthService := runFrom (step K) (init users) es

end AuthService

/-! ## Each call on its way -/

section

variable {K : Crypto}

/-- What is known of a call that has come this far. -/
def Consistent (K : Crypto) (db : Database) (c : Call) : Progress → Prop
  | .waiting (.refreshing p) => c = .refresh p
  | .waiting (.loggingIn _ _) => ∃ email password, c = .login email password
  | .waiting (.creatingSession user _ _) =>
    (∃ email password, c = .login email password) ∧ ∃ u, db.users[user.id]? = some u ∧ user.resets ≤ u.resets
  | .waiting (.rotating record _ _ _) =>
    record.familyRevokedAt = none ∧ ∃ p, c = .refresh p ∧ ∃ t, db.refreshTokens[record.id]? = some t ∧
      t.familyId = record.familyId ∧ t.tokenHash = K.sha256Hex p
  | .waiting _ => ∀ p, c ≠ .refresh p
  | .settled (.pair _) =>
    (∃ email password, c = .login email password) ∨
      ∃ p, c = .refresh p ∧ ∃ (i : Nat), ∃ t, db.refreshTokens[i]? = some t ∧ t.tokenHash = K.sha256Hex p ∧
        t.rotatedAt.isSome = true
  | .settled _ => True

theorem consistent_start (db : Database) (c : Call) : Consistent K db c (.waiting (c.start K)) := by
  cases c with
  | login email password => exact ⟨email, password, rfl⟩
  | refresh p => rfl
  | _ => exact fun p h => by cases h

theorem Consistent.later {db db' : Database} {c : Call} {p : Progress} (h : Consistent K db c p) (hl : Later db db') :
    Consistent K db' c p := by
  unfold Consistent at h ⊢
  split at h
  · exact h
  · exact h
  · obtain ⟨hc, u, hu, hle⟩ := h
    obtain ⟨u', hu', hle'⟩ := hl.user _ u hu
    exact ⟨hc, u', hu', hle.trans hle'⟩
  · obtain ⟨hr, p, hc, t, ht, hf, hh⟩ := h
    obtain ⟨t', ht', hf', hh', -⟩ := hl.token _ t ht
    exact ⟨hr, p, hc, t', ht', hf'.trans hf, hh'.trans hh⟩
  · exact h
  · rcases h with h | ⟨p, hc, i, t, ht, hh, hr⟩
    · exact Or.inl h
    · obtain ⟨t', ht', -, hh', -, hr'⟩ := hl.token i t ht
      exact Or.inr ⟨p, hc, i, t', ht', hh'.trans hh, hr' hr⟩
  · trivial

/-- A step writes what its method writes. -/
theorem advance_wrote {now : Nat} {d : Draw} {db : Database} {c : Call} {w : Waiting}
    (h : Consistent K db c (.waiting w)) : Wrote db (advance K now d db w).1 := by
  cases w with
  | creatingUser email passwordHash =>
    simp only [advance]
    split
    · exact .refl db
    · exact createUser_wrote ‹_›
  | issuingVerification userId tokenHash expiresAt =>
    simp only [advance]
    split
    · exact .refl db
    · exact createVerificationToken_wrote ‹_›
  | consumingVerification userId tokenHash stamp => exact consumeVerificationToken_wrote ..
  | issuingReset userId tokenHash expiresAt =>
    simp only [advance]
    split
    · exact .refl db
    · exact createPasswordResetToken_wrote ‹_›
  | consumingReset userId tokenHash stamp passwordHash => exact consumePasswordResetToken_wrote ..
  | creatingSession user refreshToken expiresAt =>
    simp only [advance]
    split
    · exact .refl db
    · exact createRefreshSession_wrote ‹_›
  | rotating record stamp next expiresAt =>
    obtain ⟨-, -, -, t, ht, hf, -⟩ := h
    simp only [advance]
    split
    · exact .refl db
    · obtain ⟨-, rfl⟩ := rotateRefreshToken_reused ‹_›
      exact .revoked ..
    · obtain ⟨hu, hh, rfl⟩ := rotateRefreshToken_rotated ‹_›
      obtain ⟨t', ht', hr⟩ := unrotated_iff.mp hu
      cases ht.symm.trans ht'
      exact .rotated _ _ _ _ t ht hr hf hh
  | revoking familyId stamp => exact .revoked ..
  | _ => exact .refl db

/-- `login` waits to create a session for the user it has read. -/
theorem loginRead_spec {now : Nat} {d : Draw} {db : Database} {email password : JsString} {c : Call}
    (hc : ∃ email password, c = .login email password) :
    Consistent K db c (loginRead K now d password (db.findUserByEmail email)) := by
  cases hfind : db.findUserByEmail email with
  | none => trivial
  | some user =>
    unfold loginRead
    dsimp only
    split
    · trivial
    · split
      · trivial
      · obtain ⟨u, hu, -, -, hresets⟩ := findUserByEmail_spec hfind
        exact ⟨hc, u, hu, Nat.le_of_eq hresets⟩

/-- `refresh` waits to rotate the token it has read, whose family was not revoked. -/
theorem refreshRead_spec {now : Nat} {d : Draw} {db : Database} {p : JsString} :
    Consistent K db (.refresh p) (refreshRead now d (db.findRefreshTokenByHash (K.sha256Hex p))) := by
  cases hfind : db.findRefreshTokenByHash (K.sha256Hex p) with
  | none => trivial
  | some record =>
    unfold refreshRead
    dsimp only
    split
    · trivial
    · split
      · trivial
      · rename_i hrevoked
        obtain ⟨t, f, ht, -, hh, hrec⟩ := findRefreshTokenByHash_spec hfind
        refine ⟨by simpa using hrevoked, p, rfl, t, ht, ?_, hh⟩
        rw [hrec]

theorem consistent_advance {now : Nat} {d : Draw} {db : Database} {c : Call} {w : Waiting}
    (h : Consistent K db c (.waiting w)) :
    Consistent K (advance K now d db w).1 c (advance K now d db w).2 := by
  cases w with
  | loggingIn email password => exact loginRead_spec h
  | refreshing p =>
    cases (h : c = .refresh p)
    exact refreshRead_spec
  | creatingSession user refreshToken expiresAt =>
    simp only [advance]
    split
    · trivial
    · exact Or.inl h.1
  | rotating record stamp next expiresAt =>
    have hlater : Later db (advance K now d db (.rotating record stamp next expiresAt)).1 := (advance_wrote h).later
    obtain ⟨-, p, hc, t, ht, -, hh⟩ := h
    simp only [advance] at hlater ⊢
    split
    · trivial
    · trivial
    · rename_i db' hrot
      rw [hrot] at hlater
      obtain ⟨-, -, rfl⟩ := rotateRefreshToken_rotated hrot
      refine Or.inr ⟨p, hc, record.id, { t with rotatedAt := some stamp }, ?_, hh, rfl⟩
      have hmod := getElem_modify (f := fun t : TokenRow => { t with rotatedAt := some stamp }) (i := record.id) ht
      rw [if_pos rfl] at hmod
      obtain ⟨hlt, -⟩ := List.getElem?_eq_some_iff.mp hmod
      exact (List.getElem?_append_left hlt).trans hmod
  | _ =>
    -- the other methods go on with a call that is no refresh, or return no tokens
    simp only [advance, logoutRead]
    repeat' split
    all_goals trivial

theorem step_other {s : AuthService} {n : Nat} {now : Nat} {d : Draw}
    (h : ∀ c w, s.calls[n]? ≠ some (c, .waiting w)) : s.step K (.step n now d) = s := by
  -- the last branch of the match is the one `h` leaves
  simp only [AuthService.step]

theorem step_waiting {s : AuthService} {n : Nat} {now : Nat} {d : Draw} {c : Call} {w : Waiting}
    (h : s.calls[n]? = some (c, .waiting w)) :
    s.step K (.step n now d) =
      { db := (advance K now d s.db w).1, calls := s.calls.set n (c, (advance K now d s.db w).2) } := by
  simp only [AuthService.step, h]

/-- Every call is where it says it is. -/
def Kept (K : Crypto) (s : AuthService) : Prop := ∀ (n : Nat) c p, s.calls[n]? = some (c, p) → Consistent K s.db c p

theorem step_wrote {s : AuthService} (hk : Kept K s) (e : Event) : Wrote s.db (s.step K e).db := by
  cases e with
  | call c => exact .refl _
  | step n now d =>
    simp only [AuthService.step]
    split
    · exact advance_wrote (hk n _ _ ‹_›)
    · exact .refl _

theorem calls_call {s : AuthService} {c : Call} {m : Nat} {x : Call × Progress} :
    (s.step K (.call c)).calls[m]? = some x ↔
      s.calls[m]? = some x ∨ m = s.calls.length ∧ x = (c, .waiting (c.start K)) := getElem_snoc

theorem calls_step {s : AuthService} {n : Nat} {now : Nat} {d : Draw} {m : Nat} {c : Call} {p : Progress}
    (h : (s.step K (.step n now d)).calls[m]? = some (c, p)) :
    (s.calls[m]? = some (c, p)) ∨
      n = m ∧ ∃ w, s.calls[m]? = some (c, .waiting w) ∧ p = (advance K now d s.db w).2 ∧
        (s.step K (.step n now d)).db = (advance K now d s.db w).1 := by
  by_cases hw : ∃ c w, s.calls[n]? = some (c, .waiting w)
  · obtain ⟨c', w, hn⟩ := hw
    rw [step_waiting hn] at h ⊢
    dsimp only at h ⊢
    rw [List.getElem?_set] at h
    split at h
    · rename_i hnm
      split at h
      · cases h
        exact Or.inr ⟨hnm, w, hnm ▸ hn, rfl, rfl⟩
      · cases h
    · exact Or.inl h
  · rw [step_other fun c w hn => hw ⟨c, w, hn⟩] at h
    exact Or.inl h

/-- A step is one call's. -/
theorem calls_other {s : AuthService} {n m : Nat} {now : Nat} {d : Draw} (h : n ≠ m) :
    (s.step K (.step n now d)).calls[m]? = s.calls[m]? := by
  by_cases hw : ∃ c w, s.calls[n]? = some (c, .waiting w)
  · obtain ⟨c, w, hn⟩ := hw
    rw [step_waiting hn]
    exact List.getElem?_set_ne h
  · rw [step_other fun c w hn => hw ⟨c, w, hn⟩]

theorem kept_step {s : AuthService} (hk : Kept K s) (e : Event) : Kept K (s.step K e) := by
  intro m c p hm
  have hlater := (step_wrote hk e).later
  cases e with
  | call c' =>
    rcases calls_call.mp hm with h | ⟨-, h⟩
    · exact (hk m c p h).later hlater
    · cases h
      exact consistent_start ..
  | step n now d =>
    rcases calls_step hm with h | ⟨-, w, hw, rfl, hdb⟩
    · exact (hk m c p h).later hlater
    · rw [hdb]
      exact consistent_advance (hk m c _ hw)

theorem kept_init (users : List UserRow) : Kept K (.init users) := fun n c p h => by cases h

theorem kept_run (users : List UserRow) (es : List Event) : Kept K (.run K users es) :=
  @runFrom_inv _ _ (AuthService.step K) (Kept K) (fun _ e hk => kept_step hk e) _ (kept_init users) es

end

end NotifyHub.Auth
