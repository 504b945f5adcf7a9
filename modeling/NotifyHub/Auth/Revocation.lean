/-
  NotifyHub.Auth.Revocation — logout and password reset against calls on their way
  (apps/gateway/src/modules/auth/auth.service.ts, auth.repository.ts).

  `login` checks the password and `refresh` the family in a read of its own, and neither
  `createRefreshSession` nor `rotateRefreshToken` looks again. A reset that commits between
  the two leaves a login with tokens for the replaced password, a logout a refresh with
  tokens of the revoked family (`commits_overtaken`). In a run where each call issues its
  tokens while what it read still stands, neither happens (`revocation_effective`).
-/

import NotifyHub.Auth.Rotation

namespace NotifyHub.Auth

section

variable (K : Crypto)

/-- The step commits a reset of the user's password. -/
def ResetCommits (s : AuthService) (e : Event) (userId : Nat) : Prop :=
  ∃ n now d c tokenHash stamp passwordHash, e = .step n now d ∧
    s.calls[n]? = some (c, .waiting (.consumingReset userId tokenHash stamp passwordHash)) ∧
    (s.step K e).calls[n]? = some (c, .settled .returned)

/-- The step commits a logout with a token of the family. -/
def LogoutCommits (s : AuthService) (e : Event) (familyId : Nat) : Prop :=
  ∃ n now d c stamp, e = .step n now d ∧ s.calls[n]? = some (c, .waiting (.revoking familyId stamp))

/-- The step, of a reset or of a logout, revokes the family. -/
def RevokedBy (s : AuthService) (e : Event) (familyId : Nat) : Prop :=
  ((∃ userId, ResetCommits K s e userId) ∨ LogoutCommits s e familyId) ∧
    ¬ Revoked s.db familyId ∧ Revoked (s.step K e).db familyId

/-- A login that had read the user when a reset of the password committed returns no tokens. -/
def ResetsEffective (users : List UserRow) (es : List Event) : Prop :=
  ∀ (before : List Event) (e : Event) (after : List Event) (n : Nat) (c : Call) (user : UserRecord)
    (refreshToken : JsString)
    (expiresAt : Nat) (r : TokenPair), es = before ++ e :: after →
    ResetCommits K (.run K users before) e user.id →
    (AuthService.run K users before).calls[n]? = some (c, .waiting (.creatingSession user refreshToken expiresAt)) →
    (AuthService.run K users es).calls[n]? ≠ some (c, .settled (.pair r))

/-- A refresh that is given tokens for one of a revoked family had them before the
    revocation committed. -/
def RevocationsEffective (users : List UserRow) (es : List Event) : Prop :=
  ∀ (before : List Event) (e : Event) (after : List Event) (n : Nat) (p : JsString) (r : TokenPair)
    (i : Nat) (t : TokenRow),
    es = before ++ e :: after → RevokedBy K (.run K users before) e t.familyId →
    (AuthService.run K users es).calls[n]? = some (.refresh p, .settled (.pair r)) →
    (AuthService.run K users es).db.refreshTokens[i]? = some t → t.tokenHash = K.sha256Hex p →
    (AuthService.run K users before).calls[n]? = some (.refresh p, .settled (.pair r))

/-- The step issues no tokens, or what its call has read still stands: the password was not
    replaced, the family not revoked. -/
def upToDate (s : AuthService) : Event → Bool
  | .call _ => true
  | .step n _ _ =>
    match s.calls[n]? with
    | some (_, .waiting (.creatingSession user refreshToken _)) =>
      !s.db.freshHash (K.sha256Hex refreshToken) || s.db.users[user.id]?.all (·.resets == user.resets)
    | some (_, .waiting (.rotating record _ next _)) =>
      !(s.db.unrotated record.id && s.db.freshHash (K.sha256Hex next)) ||
        s.db.refreshTokenFamilies[record.familyId]?.all (·.revokedAt.isNone)
    | _ => true

end

section

variable {K : Crypto}

/-! ## Logins -/

theorem consumingReset_returned {now : Nat} {d : Draw} {db : Database} {userId : Nat}
    {tokenHash passwordHash : JsString}
    {stamp : Nat} (h : (advance K now d db (.consumingReset userId tokenHash stamp passwordHash)).2 =
      .settled .returned) :
    ∃ codes, (advance K now d db (.consumingReset userId tokenHash stamp passwordHash)).1 =
      db.resetPassword codes userId stamp passwordHash := by
  simp only [advance, Database.consumePasswordResetToken] at h ⊢
  cases hcodes : consumeCode db.passwordResetTokens userId tokenHash stamp with
  | none => simp [hcodes, invalidCode, threw] at h
  | some codes => exact ⟨codes, rfl⟩

/-- A committed reset is counted. -/
theorem ResetCommits.counted {s : AuthService} {e : Event} {userId : Nat} {u : UserRow} (h : ResetCommits K s e userId)
    (hu : s.db.users[userId]? = some u) :
    ∃ u', (s.step K e).db.users[userId]? = some u' ∧ u'.resets = u.resets + 1 := by
  obtain ⟨n, now, d, c, tokenHash, stamp, passwordHash, rfl, hn, hn'⟩ := h
  obtain ⟨hlt, -⟩ := List.getElem?_eq_some_iff.mp hn
  rw [step_waiting hn] at hn' ⊢
  have hsettled := (List.getElem?_set_self hlt).symm.trans hn'
  obtain ⟨codes, hdb⟩ := consumingReset_returned (Prod.mk.inj (Option.some.inj hsettled)).2
  dsimp only
  rw [hdb]
  refine ⟨_, getElem_modify hu, ?_⟩
  rw [if_pos rfl]

/-- The call waits with a user whose password was replaced since, or has come to an end without tokens. -/
def Overtaken (s : AuthService) (n : Nat) : Prop :=
  ∃ c p, s.calls[n]? = some (c, p) ∧
    ((∃ user refreshToken expiresAt u, p = .waiting (.creatingSession user refreshToken expiresAt) ∧
      s.db.users[user.id]? = some u ∧ user.resets < u.resets) ∨ p = .settled .broken)

theorem overtaken_step {s : AuthService} (hk : Kept K s) {n : Nat} (h : Overtaken s n) (e : Event)
    (ho : upToDate K s e = true) : Overtaken (s.step K e) n := by
  have hlater := (step_wrote hk e).later
  obtain ⟨c, p, hn, h⟩ := h
  cases e with
  | call c' =>
    refine ⟨c, p, calls_call.mpr (Or.inl hn), ?_⟩
    rcases h with ⟨user, refreshToken, expiresAt, u, rfl, hu, hlt⟩ | rfl
    · exact Or.inl ⟨user, refreshToken, expiresAt, u, rfl, hu, hlt⟩
    · exact Or.inr rfl
  | step m now d =>
    rcases h with ⟨user, refreshToken, expiresAt, u, rfl, hu, hlt⟩ | rfl
    · by_cases hm : m = n
      · subst hm
        obtain ⟨hlen, -⟩ := List.getElem?_eq_some_iff.mp hn
        simp only [upToDate, hn, hu, Option.all_some, Bool.or_eq_true, Bool.not_eq_true', beq_iff_eq] at ho
        have hfresh : s.db.freshHash (K.sha256Hex refreshToken) = false := ho.resolve_right (by omega)
        rw [step_waiting hn]
        refine ⟨c, _, List.getElem?_set_self hlen, Or.inr ?_⟩
        simp [advance, Database.createRefreshSession, hfresh]
      · obtain ⟨u', hu', hle⟩ := hlater.user _ u hu
        exact ⟨c, _, (calls_other hm).trans hn, Or.inl ⟨user, refreshToken, expiresAt, u', rfl, hu', by omega⟩⟩
    · refine ⟨c, .settled .broken, ?_, Or.inr rfl⟩
      by_cases hm : m = n
      · subst hm
        have hsame : s.step K (.step m now d) = s := step_other fun c w hw => by rw [hn] at hw; cases hw
        rw [hsame, hn]
      · exact (calls_other hm).trans hn

theorem overtaken_run {s : AuthService} (hk : Kept K s) {n : Nat} (h : Overtaken s n) {es : List Event}
    (ho : Along (AuthService.step K) (fun s e => upToDate K s e = true) s es) :
    Overtaken (runFrom (AuthService.step K) s es) n := by
  have hall := Along.inv (I := fun s => Kept K s ∧ Overtaken s n)
    (fun s e h ho => ⟨kept_step h.1 e, overtaken_step h.1 h.2 e ho⟩) ⟨hk, h⟩ ho
  exact hall.2

theorem Overtaken.no_pair {s : AuthService} {n : Nat} (h : Overtaken s n) {c : Call} {r : TokenPair} :
    s.calls[n]? ≠ some (c, .settled (.pair r)) := by
  intro hn
  obtain ⟨c', p, hn', h⟩ := h
  rw [hn] at hn'
  cases hn'
  rcases h with ⟨user, refreshToken, expiresAt, u, hp, -⟩ | hp
  · cases hp
  · cases hp

theorem resets_effective {users : List UserRow} {es : List Event}
    (h : Along (AuthService.step K) (fun s e => upToDate K s e = true) (.init users) es) :
    ResetsEffective K users es := by
  intro before e after n c user refreshToken expiresAt r hes hreset hn
  have hk := kept_run (K := K) users before
  obtain ⟨-, u, hu, hle⟩ := hk n _ _ hn
  obtain ⟨u', hu', hresets⟩ := hreset.counted hu
  have hovertaken : Overtaken ((AuthService.run K users before).step K e) n := by
    refine ⟨c, _, ?_, Or.inl ⟨user, refreshToken, expiresAt, u', rfl, hu', by omega⟩⟩
    obtain ⟨m, now, d, c', tokenHash, stamp, passwordHash, rfl, hm, -⟩ := hreset
    refine (calls_other ?_).trans hn
    rintro rfl
    rw [hm] at hn
    cases hn
  rw [hes, along_append] at h
  rw [hes, AuthService.run, runFrom_append]
  exact (overtaken_run (kept_step hk e) hovertaken h.2.2).no_pair

/-! ## Refreshes -/

/-- Only refreshes of `old` were given tokens for one of the family. -/
def Closed (K : Crypto) (old s : AuthService) (familyId : Nat) : Prop :=
  ∀ (n : Nat) p r (i : Nat) t, s.calls[n]? = some (.refresh p, .settled (.pair r)) →
    s.db.refreshTokens[i]? = some t → t.tokenHash = K.sha256Hex p → t.familyId = familyId →
    old.calls[n]? = some (.refresh p, .settled (.pair r))

/-- The refresh that is given tokens now found the family of its token still open. -/
theorem pair_not_revoked {s : AuthService} (hk : Kept K s) (hs : s.db.sound) {n now : Nat} {d : Draw} {p : JsString}
    {w : Waiting} {r : TokenPair} (hn : s.calls[n]? = some (.refresh p, .waiting w))
    (hr : (advance K now d s.db w).2 = .settled (.pair r)) (ho : upToDate K s (.step n now d) = true)
    {i : Nat} {t : TokenRow}
    (ht : s.db.refreshTokens[i]? = some t) (hh : t.tokenHash = K.sha256Hex p) : ¬ Revoked s.db t.familyId := by
  have hc := hk n _ _ hn
  cases w with
  | loggingIn email password =>
    obtain ⟨_, _, hc⟩ := hc
    cases hc
  | creatingSession user refreshToken expiresAt =>
    obtain ⟨⟨_, _, hc⟩, -⟩ := hc
    cases hc
  | refreshing p' =>
    simp only [advance, refreshRead] at hr
    repeat' split at hr
    all_goals cases hr
  | rotating record stamp next expiresAt =>
    obtain ⟨-, p', hc, t', ht', hf, hh'⟩ := hc
    cases hc
    cases hs.hashes i _ t t' ht ht' (hh.trans hh'.symm)
    cases ht.symm.trans ht'
    simp only [advance] at hr
    split at hr
    · cases hr
    · cases hr
    · obtain ⟨hu, hfresh, -⟩ := rotateRefreshToken_rotated ‹_›
      simp only [upToDate, hn, hu, hfresh, Bool.and_self, Bool.not_true, Bool.false_or] at ho
      rintro ⟨f, hfam, hrev⟩
      rw [← hf, hfam, Option.all_some] at ho
      rw [Option.isNone_iff_eq_none.mp ho] at hrev
      cases hrev
  | _ => exact absurd rfl (hc p)

/-- A row is known by its hash as long as it is there. -/
theorem same_family {db db' : Database} (hl : Later db db') (hs : db'.sound) {i j : Nat} {t t' : TokenRow}
    (ht : db.refreshTokens[i]? = some t) (ht' : db'.refreshTokens[j]? = some t') (hh : t.tokenHash = t'.tokenHash) :
    t.familyId = t'.familyId := by
  obtain ⟨t'', ht'', hf, hh', -⟩ := hl.token i t ht
  cases hs.hashes i j t'' t' ht'' ht' (hh'.trans hh)
  cases ht''.symm.trans ht'
  exact hf.symm

theorem closed_step {old s : AuthService} (hk : Kept K s) (hs : s.db.sound) {familyId : Nat}
    (hr : Revoked s.db familyId)
    (h : Closed K old s familyId) (e : Event) (ho : upToDate K s e = true) : Closed K old (s.step K e) familyId := by
  intro n p r i t hn ht hh hf
  have hlater := (step_wrote hk e).later
  have hsound := (step_wrote hk e).sound hs
  cases e with
  | call c =>
    rcases calls_call.mp hn with hn | ⟨-, hn⟩
    · exact h n p r i t hn ht hh hf
    · cases hn
  | step m now d =>
    rcases calls_step hn with hn | ⟨rfl, w, hn, hpair, -⟩
    · rcases hk n _ _ hn with ⟨_, _, hc⟩ | ⟨p', hc, j, t₀, ht₀, hh₀, -⟩
      · cases hc
      · cases hc
        exact h n p r j t₀ hn ht₀ hh₀ ((same_family hlater hsound ht₀ ht (hh₀.trans hh.symm)).trans hf)
    · obtain ⟨j, t₀, ht₀, hh₀, -⟩ := pair_of_refresh (hk m _ _ hn) hpair.symm
      have hopen := pair_not_revoked hk hs hn hpair.symm ho ht₀ hh₀
      rw [same_family hlater hsound ht₀ ht (hh₀.trans hh.symm), hf] at hopen
      exact absurd hr hopen

theorem closed_run {old s : AuthService} (hk : Kept K s) (hs : s.db.sound) {familyId : Nat} (hr : Revoked s.db familyId)
    (h : Closed K old s familyId) {es : List Event}
    (ho : Along (AuthService.step K) (fun s e => upToDate K s e = true) s es) :
    Closed K old (runFrom (AuthService.step K) s es) familyId := by
  have hall := Along.inv (I := fun s => Kept K s ∧ s.db.sound ∧ Revoked s.db familyId ∧ Closed K old s familyId)
    (fun s e h ho => ⟨kept_step h.1 e, (step_wrote h.1 e).sound h.2.1, h.2.2.1.later (step_wrote h.1 e).later,
      closed_step h.1 h.2.1 h.2.2.1 h.2.2.2 e ho⟩) ⟨hk, hs, hr, h⟩ ho
  exact hall.2.2.2

/-- The step that revokes a family gives no tokens to anyone. -/
theorem RevokedBy.closed {s : AuthService} {e : Event} {familyId : Nat} (h : RevokedBy K s e familyId) :
    Closed K s (s.step K e) familyId := by
  intro n p r i t hn _ _ _
  obtain ⟨h | h, -⟩ := h
  · obtain ⟨userId, m, now, d, c, tokenHash, stamp, passwordHash, rfl, hm, hm'⟩ := h
    by_cases hmn : m = n
    · subst hmn
      rw [hm'] at hn
      cases hn
    · exact (calls_other hmn).symm.trans hn
  · obtain ⟨m, now, d, c, stamp, rfl, hm⟩ := h
    by_cases hmn : m = n
    · subst hmn
      obtain ⟨hlt, -⟩ := List.getElem?_eq_some_iff.mp hm
      rw [step_waiting hm] at hn
      cases (List.getElem?_set_self hlt).symm.trans hn
    · exact (calls_other hmn).symm.trans hn

theorem revocations_effective {users : List UserRow} {es : List Event}
    (h : Along (AuthService.step K) (fun s e => upToDate K s e = true) (.init users) es) :
    RevocationsEffective K users es := by
  intro before e after n p r i t hes hrev hn ht hh
  have hk := kept_run (K := K) users before
  rw [hes, along_append] at h
  rw [hes, AuthService.run, runFrom_append] at hn ht
  exact closed_run (kept_step hk e) ((step_wrote hk e).sound (sound_run users before)) hrev.2.2 hrev.closed h.2.2
    n p r i t hn ht hh rfl

end

/-- Where each call issues its tokens while what it has read still stands, a reset and a
    logout reach every call on its way. -/
theorem revocation_effective (K : Crypto) (users : List UserRow) (es : List Event)
    (h : Along (AuthService.step K) (fun s e => upToDate K s e = true) (.init users) es) :
    ResetsEffective K users es ∧ RevocationsEffective K users es :=
  ⟨resets_effective h, revocations_effective h⟩

/-! ## One account -/

/-- Hashes that can be read. -/
def plainCrypto : Crypto := ⟨id, id, fun _ password => password, fun hash password => hash == password⟩

def alice : UserRow := ⟨js "a", js "old", some 0, 0⟩

def drawn (s : String) : Draw := ⟨js s, true, true⟩

/-- The user logs in, and asks for a reset code. -/
def loggedIn : List Event :=
  [.call (.login (js "a") (js "old")), .step 0 1 (drawn "t"), .step 0 1 (drawn ""),
    .call (.forgotPassword (js "a")), .step 1 2 (drawn "code"), .step 1 2 (drawn "")]

/-- Two refreshes have read the token, of which one has rotated it, and of two logins one has checked the old
    password, when the reset commits; all but that login go on. -/
def resetAmidCalls : List Event :=
  loggedIn ++ [.call (.refresh (js "t")), .call (.refresh (js "t")), .step 2 2 (drawn "u"), .step 3 2 (drawn "v"),
    .step 2 2 (drawn ""), .call (.login (js "a") (js "old")), .step 4 3 (drawn "w"), .call (.login (js "a") (js "old")),
    .call (.resetPassword (js "a") (js "code") (js "new")), .step 6 3 (drawn ""), .step 6 3 (drawn ""),
    .step 3 4 (drawn ""), .step 5 4 (drawn "x"), .call (.refresh (js "u")), .step 7 4 (drawn "y")]

/-- The refresh and the login that go on are refused, and so is the token of the other refresh. -/
theorem old_token_refused :
    (ResetsEffective plainCrypto [alice] resetAmidCalls ∧ RevocationsEffective plainCrypto [alice] resetAmidCalls) ∧
    [3, 5, 7].map (fun n : Nat => (AuthService.run plainCrypto [alice] resetAmidCalls).calls[n]?.map (·.2)) =
      [some (threw .REFRESH_REUSED "Refresh token was already used"), some invalidCredentials,
        some (threw .REFRESH_REUSED "Refresh token family was revoked")] :=
  ⟨revocation_effective _ _ _ (by decide +kernel), rfl⟩

/-- A login has checked the old password; the reset commits; the login is given tokens. -/
def loginOverReset : List Event :=
  loggedIn ++ [.call (.login (js "a") (js "old")), .step 2 3 (drawn "u"),
    .call (.resetPassword (js "a") (js "code") (js "new")),
    .step 3 3 (drawn ""), .step 3 3 (drawn ""), .step 2 4 (drawn "")]

/-- A refresh has read its token; the logout commits; the refresh is given tokens. -/
def refreshOverLogout : List Event :=
  loggedIn ++ [.call (.refresh (js "t")), .step 2 3 (drawn "u"), .call (.logout (js "t")),
    .step 3 3 (drawn ""), .step 3 3 (drawn ""), .step 2 4 (drawn "")]

theorem commits_overtaken :
    ¬ ResetsEffective plainCrypto [alice] loginOverReset ∧
      ¬ RevocationsEffective plainCrypto [alice] refreshOverLogout := by
  constructor
  · intro h
    refine h (loginOverReset.take 10) (.step 3 3 (drawn "")) [.step 2 4 (drawn "")] 2 (.login (js "a") (js "old"))
      ⟨0, js "a", js "old", some 0, 0⟩ (js "u") (3 + REFRESH_TOKEN_TTL_MS) ⟨0, js "u"⟩ rfl ?_ ?_ ?_
    · exact ⟨3, 3, drawn "", .resetPassword (js "a") (js "code") (js "new"), js "code", 3, js "new", rfl, rfl, rfl⟩
    · rfl
    · rfl
  · intro h
    have hbefore := h (refreshOverLogout.take 10) (.step 3 3 (drawn "")) [.step 2 4 (drawn "")] 2 (js "t") ⟨0, js "u"⟩
      0 ⟨0, js "t", 1 + REFRESH_TOKEN_TTL_MS, some 3⟩ rfl ?_ rfl rfl rfl
    · cases hbefore
    · refine ⟨Or.inr ⟨3, 3, drawn "", .logout (js "t"), 3, rfl, rfl⟩, ?_, ?_⟩
      · rintro ⟨f, hf, hr⟩
        cases (rfl : _ = some (FamilyRow.mk 0 none)).symm.trans hf
        cases hr
      · exact ⟨⟨0, some 3⟩, rfl, rfl⟩

end NotifyHub.Auth
