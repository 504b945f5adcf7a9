/-
  NotifyHub.Auth.OneTimeCodes — e-mail verification and password reset codes
  (apps/gateway/src/modules/auth/auth.service.ts, auth.repository.ts).

  A code is kept as its hash, which a unique constraint keeps apart from every other one.
  The conditional `UPDATE` takes a row that is not consumed and marks it, and no row is ever
  unmarked (`CodesLater`). So of all calls that present one code, in any interleaving, one
  succeeds at most; it names the account of the row it took, which a call for that account
  wrote in one step of the run (`Issued`), and read the clock before the row's expiry
  (`one_time_codes`). A presentation that does not succeed writes nothing.
-/

import Mathlib.Data.List.Nodup
import NotifyHub.Auth.Service

namespace NotifyHub.Auth

/-- The tables of codes. -/
inductive CodeKind where
  | verification
  | passwordReset
  deriving DecidableEq

def Database.codes (db : Database) : CodeKind → List CodeRow
  | .verification => db.emailVerificationTokens
  | .passwordReset => db.passwordResetTokens

/-- The code a call presents: of which table, for which e-mail address. -/
def Call.presented : Call → Option (CodeKind × JsString × JsString)
  | .verifyEmail email code => some (.verification, email, code)
  | .resetPassword email code _ => some (.passwordReset, email, code)
  | _ => none

/-- The code a call has issued, and to which e-mail address. -/
def Call.issues : Call → Option (CodeKind × JsString)
  | .register email _ => some (.verification, email)
  | .resendVerification email => some (.verification, email)
  | .forgotPassword email => some (.passwordReset, email)
  | _ => none

/-- The row as it was written. -/
def CodeRow.unused (r : CodeRow) : CodeRow := { r with consumedAt := none }

/-! ## What stays of the tables -/

structure CodesLater (db db' : Database) : Prop where
  row : ∀ k (i : Nat) r, (db.codes k)[i]? = some r → ∃ r', (db'.codes k)[i]? = some r' ∧ r'.userId = r.userId ∧
    r'.tokenHash = r.tokenHash ∧ r'.expiresAt = r.expiresAt ∧
      (r.consumedAt.isSome = true → r'.consumedAt = r.consumedAt)
  user : ∀ (i : Nat) u, db.users[i]? = some u → ∃ u', db'.users[i]? = some u' ∧ u'.email = u.email
  hashes : ∀ k, ((db.codes k).map (·.tokenHash)).Nodup → ((db'.codes k).map (·.tokenHash)).Nodup

theorem CodesLater.of_codes {db db' : Database} (hv : db'.emailVerificationTokens = db.emailVerificationTokens)
    (hr : db'.passwordResetTokens = db.passwordResetTokens)
    (hu : ∀ (i : Nat) u, db.users[i]? = some u → ∃ u', db'.users[i]? = some u' ∧ u'.email = u.email) :
    CodesLater db db' := by
  have hsame : ∀ k, db'.codes k = db.codes k := by
    intro k
    cases k with
    | verification => exact hv
    | passwordReset => exact hr
  refine ⟨fun k i r h => ⟨r, (hsame k).symm ▸ h, rfl, rfl, rfl, fun _ => rfl⟩, hu, fun k h => ?_⟩
  rw [hsame k]
  exact h

theorem CodesLater.refl (db : Database) : CodesLater db db := .of_codes rfl rfl fun _ u h => ⟨u, h, rfl⟩

theorem insertCode_spec {codes codes' : List CodeRow} {userId : Nat} {tokenHash : JsString} {expiresAt : Nat}
    (h : insertCode codes userId tokenHash expiresAt = some codes') :
    (∀ r ∈ codes, r.tokenHash ≠ tokenHash) ∧ codes' = codes ++ [⟨userId, tokenHash, expiresAt, none⟩] := by
  unfold insertCode at h
  split at h
  · cases h
  · rename_i hfresh
    cases h
    refine ⟨fun r hr heq => hfresh ?_, rfl⟩
    simp only [List.any_eq_true, beq_iff_eq]
    exact ⟨r, hr, heq⟩

/-- The rows after the `UPDATE`. -/
theorem consumeCode_spec {codes codes' : List CodeRow} {userId : Nat} {tokenHash : JsString} {now : Nat}
    (h : consumeCode codes userId tokenHash now = some codes') :
    (∃ r ∈ codes, r.live userId tokenHash now = true) ∧
      codes' = codes.map fun c => if c.live userId tokenHash now then { c with consumedAt := some now } else c := by
  unfold consumeCode at h
  split at h
  · rename_i hlive
    cases h
    exact ⟨List.any_eq_true.mp hlive, rfl⟩
  · cases h

theorem live_iff {r : CodeRow} {userId : Nat} {tokenHash : JsString} {now : Nat} : r.live userId tokenHash now = true ↔
    r.userId = userId ∧ r.tokenHash = tokenHash ∧ r.consumedAt = none ∧ now < r.expiresAt := by
  simp [CodeRow.live, and_assoc]

theorem insert_rows {codes : List CodeRow} (row : CodeRow) (hfresh : ∀ r ∈ codes, r.tokenHash ≠ row.tokenHash)
    (h : (codes.map (·.tokenHash)).Nodup) : ((codes ++ [row]).map (·.tokenHash)).Nodup := by
  rw [List.map_append, List.nodup_append]
  refine ⟨h, by simp, fun a ha b hb heq => ?_⟩
  obtain ⟨r, hr, rfl⟩ := List.mem_map.mp ha
  simp only [List.map_cons, List.map_nil, List.mem_singleton] at hb
  exact hfresh r hr (heq.trans hb)

theorem consume_row {codes : List CodeRow} {userId : Nat} {tokenHash : JsString} {now i : Nat}
    {r : CodeRow} (h : codes[i]? = some r) :
    ∃ r', (codes.map fun c => if c.live userId tokenHash now then { c with consumedAt := some now } else c)[i]? =
      some r' ∧
      r'.userId = r.userId ∧ r'.tokenHash = r.tokenHash ∧ r'.expiresAt = r.expiresAt ∧
      (r.consumedAt.isSome = true → r'.consumedAt = r.consumedAt) := by
  rw [List.getElem?_map, h]
  refine ⟨_, rfl, ?_⟩
  dsimp only
  split
  · rename_i hlive
    have hnone := (live_iff.mp hlive).2.2.1
    exact ⟨rfl, rfl, rfl, fun hsome => by rw [hnone] at hsome; cases hsome⟩
  · exact ⟨rfl, rfl, rfl, fun _ => rfl⟩

theorem consume_hashes {codes : List CodeRow} {userId : Nat} {tokenHash : JsString} {now : Nat} :
    (codes.map fun c => if c.live userId tokenHash now then { c with consumedAt := some now } else c).map
      (·.tokenHash) =
      codes.map (·.tokenHash) := by
  rw [List.map_map]
  refine List.map_congr_left fun c _ => ?_
  simp only [Function.comp_apply]
  split <;> rfl

/-! ## Methods -/

variable {K : Crypto}

theorem createUser_codes {db db' : Database} {email passwordHash : JsString} {user : UserRecord}
    (h : db.createUser email passwordHash = some (db', user)) : CodesLater db db' := by
  unfold Database.createUser at h
  split at h
  · cases h
  · cases h
    exact .of_codes rfl rfl fun i u hu => ⟨u, getElem_append_old hu _, rfl⟩

theorem createUser_account {db db' : Database} {email passwordHash : JsString} {user : UserRecord}
    (h : db.createUser email passwordHash = some (db', user)) : ∃ u, db'.users[user.id]? = some u ∧
      u.email = email := by
  unfold Database.createUser at h
  split at h
  · cases h
  · cases h
    exact ⟨_, List.getElem?_concat_length, rfl⟩

/-- A table with one more row. -/
theorem append_codes {db db' : Database} {k : CodeKind} (row : CodeRow)
    (hfresh : ∀ r ∈ db.codes k, r.tokenHash ≠ row.tokenHash) (hk : db'.codes k = db.codes k ++ [row])
    (ho : ∀ k', k' ≠ k → db'.codes k' = db.codes k') (hu : db'.users = db.users) :
    CodesLater db db' := by
  refine ⟨fun k' i r h => ⟨r, ?_, rfl, rfl, rfl, fun _ => rfl⟩, fun i u h => ⟨u, hu.symm ▸ h, rfl⟩, fun k' h => ?_⟩
  · by_cases hkk : k' = k
    · subst hkk
      rw [hk]
      exact getElem_append_old h _
    · rw [ho k' hkk]
      exact h
  · by_cases hkk : k' = k
    · subst hkk
      rw [hk]
      exact insert_rows row hfresh h
    · rw [ho k' hkk]
      exact h

theorem createVerificationToken_spec {db db' : Database} {userId : Nat} {tokenHash : JsString} {expiresAt : Nat}
    (h : db.createVerificationToken userId tokenHash expiresAt = some db') :
    (∀ r ∈ db.emailVerificationTokens, r.tokenHash ≠ tokenHash) ∧
      db' = { db with emailVerificationTokens := db.emailVerificationTokens ++
        [⟨userId, tokenHash, expiresAt, none⟩] } := by
  obtain ⟨codes, hcodes, rfl⟩ := Option.map_eq_some_iff.mp h
  obtain ⟨hfresh, rfl⟩ := insertCode_spec hcodes
  exact ⟨hfresh, rfl⟩

theorem createPasswordResetToken_spec {db db' : Database} {userId : Nat} {tokenHash : JsString} {expiresAt : Nat}
    (h : db.createPasswordResetToken userId tokenHash expiresAt = some db') :
    (∀ r ∈ db.passwordResetTokens, r.tokenHash ≠ tokenHash) ∧
      db' = { db with passwordResetTokens := db.passwordResetTokens ++ [⟨userId, tokenHash, expiresAt, none⟩] } := by
  obtain ⟨codes, hcodes, rfl⟩ := Option.map_eq_some_iff.mp h
  obtain ⟨hfresh, rfl⟩ := insertCode_spec hcodes
  exact ⟨hfresh, rfl⟩

theorem createVerificationToken_codes {db db' : Database} {userId : Nat} {tokenHash : JsString} {expiresAt : Nat}
    (h : db.createVerificationToken userId tokenHash expiresAt = some db') : CodesLater db db' := by
  obtain ⟨hfresh, rfl⟩ := createVerificationToken_spec h
  refine append_codes (k := .verification) ⟨userId, tokenHash, expiresAt, none⟩ hfresh rfl (fun k' hk => ?_) rfl
  cases k' with
  | verification => exact absurd rfl hk
  | passwordReset => rfl

theorem createPasswordResetToken_codes {db db' : Database} {userId : Nat} {tokenHash : JsString} {expiresAt : Nat}
    (h : db.createPasswordResetToken userId tokenHash expiresAt = some db') : CodesLater db db' := by
  obtain ⟨hfresh, rfl⟩ := createPasswordResetToken_spec h
  refine append_codes (k := .passwordReset) ⟨userId, tokenHash, expiresAt, none⟩ hfresh rfl (fun k' hk => ?_) rfl
  cases k' with
  | passwordReset => exact absurd rfl hk
  | verification => rfl

/-- A table after the `UPDATE`, and users that keep their addresses. -/
theorem consume_codes {db db' : Database} {k : CodeKind} {userId : Nat} {tokenHash : JsString}
    {now : Nat} {codes : List CodeRow}
    (h : consumeCode (db.codes k) userId tokenHash now = some codes) (hk : db'.codes k = codes)
    (ho : ∀ k', k' ≠ k → db'.codes k' = db.codes k')
    (hu : ∀ (i : Nat) u, db.users[i]? = some u → ∃ u', db'.users[i]? = some u' ∧ u'.email = u.email) :
    CodesLater db db' := by
  obtain ⟨-, rfl⟩ := consumeCode_spec h
  refine ⟨fun k' i r hr => ?_, hu, fun k' hn => ?_⟩
  · by_cases hkk : k' = k
    · subst hkk
      rw [hk]
      exact consume_row hr
    · rw [ho k' hkk]
      exact ⟨r, hr, rfl, rfl, rfl, fun _ => rfl⟩
  · by_cases hkk : k' = k
    · subst hkk
      rw [hk, consume_hashes]
      exact hn
    · rw [ho k' hkk]
      exact hn

theorem email_modify {users : List UserRow} {f : UserRow → UserRow} (hf : ∀ u, (f u).email = u.email)
    (userId : Nat) (i : Nat)
    (u : UserRow) (h : users[i]? = some u) : ∃ u', (users.modify userId f)[i]? = some u' ∧ u'.email = u.email := by
  refine ⟨_, getElem_modify h, ?_⟩
  split
  · exact hf u
  · rfl

theorem consumeVerificationToken_codes (db : Database) (userId : Nat) (tokenHash : JsString) (now : Nat) :
    CodesLater db (db.consumeVerificationToken userId tokenHash now).1 := by
  unfold Database.consumeVerificationToken
  split
  · exact .refl db
  · rename_i codes hcodes
    refine consume_codes (k := .verification) hcodes rfl (fun k' hk => ?_) (email_modify (by simp) userId)
    cases k' with
    | verification => exact absurd rfl hk
    | passwordReset => rfl

theorem consumePasswordResetToken_codes (db : Database) (userId : Nat) (tokenHash : JsString) (now : Nat)
    (passwordHash : JsString) : CodesLater db (db.consumePasswordResetToken userId tokenHash now passwordHash).1 := by
  unfold Database.consumePasswordResetToken
  split
  · exact .refl db
  · rename_i codes hcodes
    refine consume_codes (k := .passwordReset) hcodes rfl (fun k' hk => ?_) (email_modify (by simp) userId)
    cases k' with
    | passwordReset => exact absurd rfl hk
    | verification => rfl

theorem consumeVerificationToken_true {db : Database} {userId : Nat} {tokenHash : JsString} {now : Nat}
    (h : (db.consumeVerificationToken userId tokenHash now).2 = true) :
    consumeCode (db.codes .verification) userId tokenHash now =
      some ((db.consumeVerificationToken userId tokenHash now).1.codes .verification) := by
  unfold Database.consumeVerificationToken at h ⊢
  cases hc : consumeCode db.emailVerificationTokens userId tokenHash now with
  | none =>
    rw [hc] at h
    cases h
  | some codes => exact hc

theorem consumePasswordResetToken_true {db : Database} {userId : Nat} {tokenHash : JsString}
    {now : Nat} {passwordHash : JsString}
    (h : (db.consumePasswordResetToken userId tokenHash now passwordHash).2 = true) :
    consumeCode (db.codes .passwordReset) userId tokenHash now =
      some ((db.consumePasswordResetToken userId tokenHash now passwordHash).1.codes .passwordReset) := by
  unfold Database.consumePasswordResetToken at h ⊢
  cases hc : consumeCode db.passwordResetTokens userId tokenHash now with
  | none =>
    rw [hc] at h
    cases h
  | some codes => exact hc

/-- Every step keeps the codes there are. -/
theorem advance_codes (now : Nat) (d : Draw) (db : Database) (w : Waiting) :
    CodesLater db (advance K now d db w).1 := by
  cases w with
  | creatingUser email passwordHash =>
    simp only [advance]
    split
    · exact .refl db
    · exact createUser_codes ‹_›
  | issuingVerification userId tokenHash expiresAt =>
    simp only [advance]
    split
    · exact .refl db
    · exact createVerificationToken_codes ‹_›
  | consumingVerification userId tokenHash stamp => exact consumeVerificationToken_codes ..
  | issuingReset userId tokenHash expiresAt =>
    simp only [advance]
    split
    · exact .refl db
    · exact createPasswordResetToken_codes ‹_›
  | consumingReset userId tokenHash stamp passwordHash => exact consumePasswordResetToken_codes ..
  | creatingSession user refreshToken expiresAt =>
    simp only [advance]
    split
    · exact .refl db
    · rename_i db' hdb
      unfold Database.createRefreshSession at hdb
      split at hdb
      · cases hdb
        exact .of_codes rfl rfl fun i u h => ⟨u, h, rfl⟩
      · cases hdb
  | rotating record stamp next expiresAt =>
    simp only [advance]
    split
    · exact .refl db
    · obtain ⟨-, rfl⟩ := rotateRefreshToken_reused ‹_›
      exact .of_codes rfl rfl fun i u h => ⟨u, h, rfl⟩
    · obtain ⟨-, -, rfl⟩ := rotateRefreshToken_rotated ‹_›
      exact .of_codes rfl rfl fun i u h => ⟨u, h, rfl⟩
  | revoking familyId stamp => exact .of_codes rfl rfl fun i u h => ⟨u, h, rfl⟩
  | _ => exact .refl db

/-- The step that comes writes a row of that table for that account. -/
def Issuing (userId : Nat) (w : Waiting) : CodeKind → Prop
  | .verification => ∃ tokenHash expiresAt, w = .issuingVerification userId tokenHash expiresAt
  | .passwordReset => ∃ tokenHash expiresAt, w = .issuingReset userId tokenHash expiresAt

/-- A new row is the one the step writes, at the end of its table. -/
theorem advance_rows {now : Nat} {d : Draw} {db : Database} {w : Waiting} {k : CodeKind} {i : Nat} {r : CodeRow}
    (h : ((advance K now d db w).1.codes k)[i]? = some r) :
    (∃ r', (db.codes k)[i]? = some r' ∧ r'.unused = r.unused) ∨
      (Issuing r.userId w k ∧ (db.codes k).length = i ∧ (advance K now d db w).1.codes k =
        db.codes k ++ [r.unused]) := by
  have old : ∀ db' : Database, db'.codes k = db.codes k → (db'.codes k)[i]? = some r →
      ∃ r', (db.codes k)[i]? = some r' ∧ r'.unused = r.unused := by
    intro db' heq hr
    exact ⟨r, heq ▸ hr, rfl⟩
  have marked : ∀ {userId : Nat} {tokenHash : JsString} {stamp : Nat},
      ((db.codes k).map fun c => if c.live userId tokenHash stamp then { c with consumedAt := some stamp }
        else c)[i]? = some r →
      ∃ r', (db.codes k)[i]? = some r' ∧ r'.unused = r.unused := by
    intro userId tokenHash stamp hr
    rw [List.getElem?_map] at hr
    obtain ⟨r', hr', rfl⟩ := Option.map_eq_some_iff.mp hr
    refine ⟨r', hr', ?_⟩
    split <;> rfl
  cases w with
  | creatingUser email passwordHash =>
    simp only [advance] at h
    split at h
    · exact Or.inl (old _ rfl h)
    · rename_i db' user hdb
      unfold Database.createUser at hdb
      split at hdb
      · cases hdb
      · cases hdb
        exact Or.inl (old _ (by cases k <;> rfl) h)
  | issuingVerification userId tokenHash expiresAt =>
    simp only [advance] at h
    split at h
    · exact Or.inl (old _ rfl h)
    · obtain ⟨-, rfl⟩ := createVerificationToken_spec ‹_›
      cases k with
      | passwordReset => exact Or.inl (old _ rfl h)
      | verification =>
        rcases getElem_snoc.mp h with h | ⟨hlength, rfl⟩
        · exact Or.inl ⟨r, h, rfl⟩
        · refine Or.inr ⟨⟨tokenHash, expiresAt, rfl⟩, hlength.symm, ?_⟩
          simp only [advance, ‹db.createVerificationToken _ _ _ = _›]
          rfl
  | issuingReset userId tokenHash expiresAt =>
    simp only [advance] at h
    split at h
    · exact Or.inl (old _ rfl h)
    · obtain ⟨-, rfl⟩ := createPasswordResetToken_spec ‹_›
      cases k with
      | verification => exact Or.inl (old _ rfl h)
      | passwordReset =>
        rcases getElem_snoc.mp h with h | ⟨hlength, rfl⟩
        · exact Or.inl ⟨r, h, rfl⟩
        · refine Or.inr ⟨⟨tokenHash, expiresAt, rfl⟩, hlength.symm, ?_⟩
          simp only [advance, ‹db.createPasswordResetToken _ _ _ = _›]
          rfl
  | consumingVerification userId tokenHash stamp =>
    simp only [advance, Database.consumeVerificationToken] at h
    split at h
    · exact Or.inl (old _ rfl h)
    · obtain ⟨-, rfl⟩ := consumeCode_spec ‹_›
      cases k with
      | verification => exact Or.inl (marked h)
      | passwordReset => exact Or.inl (old _ rfl h)
  | consumingReset userId tokenHash stamp passwordHash =>
    simp only [advance, Database.consumePasswordResetToken] at h
    split at h
    · exact Or.inl (old _ rfl h)
    · obtain ⟨-, rfl⟩ := consumeCode_spec ‹_›
      cases k with
      | passwordReset => exact Or.inl (marked h)
      | verification => exact Or.inl (old _ rfl h)
  | creatingSession user refreshToken expiresAt =>
    simp only [advance] at h
    split at h
    · exact Or.inl (old _ rfl h)
    · rename_i db' hdb
      unfold Database.createRefreshSession at hdb
      split at hdb
      · cases hdb
        exact Or.inl (old _ (by cases k <;> rfl) h)
      · cases hdb
  | rotating record stamp next expiresAt =>
    simp only [advance] at h
    split at h
    · exact Or.inl (old _ rfl h)
    · obtain ⟨-, rfl⟩ := rotateRefreshToken_reused ‹_›
      exact Or.inl (old _ (by cases k <;> rfl) h)
    · obtain ⟨-, -, rfl⟩ := rotateRefreshToken_rotated ‹_›
      exact Or.inl (old _ (by cases k <;> rfl) h)
  | revoking familyId stamp => exact Or.inl (old _ (by cases k <;> rfl) h)
  | _ => exact Or.inl (old _ rfl h)

/-! ## Calls on their way -/

/-- The row of the user who has this address. -/
def Account (K : Crypto) (db : Database) (userId : Nat) (email : JsString) : Prop :=
  ∃ u, db.users[userId]? = some u ∧ u.email = normalizeEmail K email

/-- The code was taken, of a row that had not expired, for the account of the address. -/
def Used (K : Crypto) (db : Database) (k : CodeKind) (email code : JsString) : Prop :=
  ∃ (i : Nat), ∃ r stamp, (db.codes k)[i]? = some r ∧ r.tokenHash = K.sha256Hex code ∧ r.consumedAt = some stamp ∧
    stamp < r.expiresAt ∧ Account K db r.userId email

theorem Account.later {db db' : Database} {userId : Nat} {email : JsString} (h : Account K db userId email)
    (hl : CodesLater db db') :
    Account K db' userId email := by
  obtain ⟨u, hu, he⟩ := h
  obtain ⟨u', hu', he'⟩ := hl.user _ u hu
  exact ⟨u', hu', he'.trans he⟩

theorem Used.later {db db' : Database} {k : CodeKind} {email code : JsString} (h : Used K db k email code)
    (hl : CodesLater db db') :
    Used K db' k email code := by
  obtain ⟨i, r, stamp, hr, hh, hc, he, ha⟩ := h
  obtain ⟨r', hr', hu', hh', he', hc'⟩ := hl.row k i r hr
  exact ⟨i, r', stamp, hr', hh'.trans hh, (hc' (by rw [hc]; rfl)).trans hc, he' ▸ he, hu' ▸ ha.later hl⟩

theorem account_find {db : Database} {email e : JsString} {user : UserRecord} (h : db.findUserByEmail email = some user)
    (he : email = normalizeEmail K e) : Account K db user.id e := by
  obtain ⟨u, hu, hemail, -, -⟩ := findUserByEmail_spec h
  exact ⟨u, hu, hemail.trans he⟩

/-- What is known of a call that has come this far. -/
def Stage (K : Crypto) (db : Database) (c : Call) : Progress → Prop
  | .waiting (.admitting email _) | .waiting (.registering email _) | .waiting (.creatingUser email _) =>
    ∃ e p, c = .register e p ∧ email = normalizeEmail K e
  | .waiting (.resending email) => ∃ e, c = .resendVerification e ∧ email = normalizeEmail K e
  | .waiting (.forgetting email) => ∃ e, c = .forgotPassword e ∧ email = normalizeEmail K e
  | .waiting (.issuingVerification userId _ _) => ∃ e, c.issues = some (.verification, e) ∧
      c.presented = none ∧ Account K db userId e
  | .waiting (.issuingReset userId _ _) => ∃ e, c.issues = some (.passwordReset, e) ∧ c.presented = none ∧
      Account K db userId e
  | .waiting (.verifying email code) => ∃ e, c = .verifyEmail e code ∧ email = normalizeEmail K e
  | .waiting (.consumingVerification userId tokenHash _) =>
    ∃ e code, c = .verifyEmail e code ∧ tokenHash = K.sha256Hex code ∧ Account K db userId e
  | .waiting (.resetting email code _) => ∃ e p, c = .resetPassword e code p ∧ email = normalizeEmail K e
  | .waiting (.consumingReset userId tokenHash _ _) =>
    ∃ e code p, c = .resetPassword e code p ∧ tokenHash = K.sha256Hex code ∧ Account K db userId e
  | .waiting _ => c.presented = none
  | .settled .returned => ∀ k e code, c.presented = some (k, e, code) → Used K db k e code
  | .settled _ => True

theorem stage_start (db : Database) (c : Call) : Stage K db c (.waiting (c.start K)) := by
  cases c with
  | register email password => exact ⟨email, password, rfl, rfl⟩
  | verifyEmail email code => exact ⟨email, rfl, rfl⟩
  | resendVerification email => exact ⟨email, rfl, rfl⟩
  | forgotPassword email => exact ⟨email, rfl, rfl⟩
  | resetPassword email code password => exact ⟨email, password, rfl, rfl⟩
  | _ => rfl

theorem Stage.later {db db' : Database} {c : Call} {p : Progress} (h : Stage K db c p) (hl : CodesLater db db') :
    Stage K db' c p := by
  cases p with
  | waiting w =>
    cases w with
    | issuingVerification | issuingReset =>
      obtain ⟨e, hi, hp, ha⟩ := h
      exact ⟨e, hi, hp, ha.later hl⟩
    | consumingVerification =>
      obtain ⟨e, code, hc, hh, ha⟩ := h
      exact ⟨e, code, hc, hh, ha.later hl⟩
    | consumingReset =>
      obtain ⟨e, code, p, hc, hh, ha⟩ := h
      exact ⟨e, code, p, hc, hh, ha.later hl⟩
    | _ => exact h
  | settled r =>
    cases r with
    | returned => exact fun k e code hc => (h k e code hc).later hl
    | _ => trivial

/-- A row that the `UPDATE` took is used. -/
theorem used_consume {db db' : Database} {k : CodeKind} {userId : Nat} {code e : JsString}
    {stamp : Nat} {codes : List CodeRow}
    (h : consumeCode (db.codes k) userId (K.sha256Hex code) stamp = some codes) (hk : db'.codes k = codes)
    (ha : Account K db' userId e) : Used K db' k e code := by
  obtain ⟨⟨r, hr, hlive⟩, rfl⟩ := consumeCode_spec h
  obtain ⟨i, hi⟩ := List.getElem?_of_mem hr
  obtain ⟨huser, hhash, -, hexp⟩ := live_iff.mp hlive
  refine ⟨i, { r with consumedAt := some stamp }, stamp, ?_, hhash, rfl, hexp, huser.symm ▸ ha⟩
  rw [hk, List.getElem?_map, hi, Option.map_some, if_pos hlive]

theorem stage_issue {now : Nat} {d : Draw} {db : Database} {c : Call} {userId : Nat} {e : JsString}
    (hi : c.issues = some (.verification, e)) (hp : c.presented = none) (ha : Account K db userId e) :
    Stage K db c (issueVerificationCode K now d userId) := ⟨e, hi, hp, ha⟩

theorem stage_advance {now : Nat} {d : Draw} {db : Database} {c : Call} {w : Waiting} (h : Stage K db c (.waiting w)) :
    Stage K (advance K now d db w).1 c (advance K now d db w).2 := by
  have quiet : ∀ {db : Database}, c.presented = none → Stage K db c (.settled .returned) := by
    intro db hp k e code hc
    rw [hp] at hc
    cases hc
  cases w with
  | admitting email password =>
    simp only [advance]
    split
    · exact h
    · trivial
  | registering email password =>
    simp only [advance]
    split
    · trivial
    · exact h
  | creatingUser email passwordHash =>
    obtain ⟨e, p, rfl, rfl⟩ := h
    simp only [advance]
    split
    · trivial
    · exact stage_issue rfl rfl (createUser_account ‹_›)
  | issuingVerification userId tokenHash expiresAt =>
    obtain ⟨e, -, hp, -⟩ := h
    simp only [advance]
    split
    · trivial
    · dsimp only
      split
      · exact quiet hp
      · trivial
  | issuingReset userId tokenHash expiresAt =>
    obtain ⟨e, -, hp, -⟩ := h
    simp only [advance]
    split
    · trivial
    · exact quiet hp
  | verifying email code =>
    obtain ⟨e, rfl, he⟩ := h
    simp only [advance]
    split
    · trivial
    · exact ⟨e, code, rfl, rfl, account_find ‹_› he⟩
  | resetting email code password =>
    obtain ⟨e, p, rfl, he⟩ := h
    simp only [advance]
    split
    · trivial
    · exact ⟨e, code, p, rfl, rfl, account_find ‹_› he⟩
  | resending email =>
    obtain ⟨e, rfl, he⟩ := h
    simp only [advance]
    split
    · exact quiet rfl
    · split
      · exact quiet rfl
      · exact stage_issue rfl rfl (account_find ‹_› he)
  | forgetting email =>
    obtain ⟨e, rfl, he⟩ := h
    simp only [advance]
    split
    · exact quiet rfl
    · exact ⟨e, rfl, rfl, account_find ‹_› he⟩
  | consumingVerification userId tokenHash stamp =>
    obtain ⟨e, code, rfl, rfl, ha⟩ := h
    have hl := consumeVerificationToken_codes db userId (K.sha256Hex code) stamp
    simp only [advance]
    split
    · rename_i hreturned
      intro k e' code' hc
      cases hc
      exact used_consume (consumeVerificationToken_true hreturned) rfl (ha.later hl)
    · trivial
  | consumingReset userId tokenHash stamp passwordHash =>
    obtain ⟨e, code, p, rfl, rfl, ha⟩ := h
    have hl := consumePasswordResetToken_codes db userId (K.sha256Hex code) stamp passwordHash
    simp only [advance]
    split
    · rename_i hreturned
      intro k e' code' hc
      cases hc
      exact used_consume (consumePasswordResetToken_true hreturned) rfl (ha.later hl)
    · trivial
  | loggingIn email password =>
    simp only [advance, loginRead]
    repeat' split
    all_goals first | exact h | trivial
  | creatingSession user refreshToken expiresAt =>
    simp only [advance]
    split <;> trivial
  | refreshing refreshToken =>
    simp only [advance, refreshRead]
    repeat' split
    all_goals first | exact h | trivial
  | loggingOut refreshToken =>
    simp only [advance, logoutRead]
    repeat' split
    all_goals first | exact quiet h | exact h
  | rotating record stamp next expiresAt =>
    simp only [advance]
    split <;> trivial
  | revoking familyId stamp => exact quiet h

/-! ## Runs -/

/-- What holds in every state: of the calls, of the rows and their hashes, and of two calls that used one code. -/
structure Codes (K : Crypto) (s : AuthService) : Prop where
  stages : ∀ (n : Nat) c p, s.calls[n]? = some (c, p) → Stage K s.db c p
  hashes : ∀ k, ((s.db.codes k).map (·.tokenHash)).Nodup
  once : ∀ (n m : Nat) c c' k e e' code code', s.calls[n]? = some (c, .settled .returned) →
    s.calls[m]? = some (c', .settled .returned) → c.presented = some (k, e, code) → c'.presented = some (k, e', code') →
    K.sha256Hex code = K.sha256Hex code' → n = m

theorem codes_init (users : List UserRow) : Codes K (.init users) := by
  constructor
  · intro n c p h
    cases h
  · intro k
    cases k <;> exact List.nodup_nil
  · intro n m c c' k e e' code code' h
    cases h

/-- A call that a step settles with a code has taken a row that was not consumed. -/
theorem takes_row {now : Nat} {d : Draw} {db : Database} {c : Call} {w : Waiting} {k : CodeKind} {e code : JsString}
    (h : Stage K db c (.waiting w)) (hc : c.presented = some (k, e, code))
    (hr : (advance K now d db w).2 = .settled .returned) :
    ∃ r ∈ db.codes k, r.tokenHash = K.sha256Hex code ∧ r.consumedAt = none := by
  have none_presented : c.presented ≠ none := by
    rw [hc]
    simp
  cases w with
  | consumingVerification userId tokenHash stamp =>
    obtain ⟨e', code', rfl, rfl, -⟩ := h
    cases hc
    simp only [advance] at hr
    split at hr
    · rename_i htrue
      obtain ⟨⟨r, hr, hlive⟩, -⟩ := consumeCode_spec (consumeVerificationToken_true htrue)
      exact ⟨r, hr, (live_iff.mp hlive).2.1, (live_iff.mp hlive).2.2.1⟩
    · cases hr
  | consumingReset userId tokenHash stamp passwordHash =>
    obtain ⟨e', code', p, rfl, rfl, -⟩ := h
    cases hc
    simp only [advance] at hr
    split at hr
    · rename_i htrue
      obtain ⟨⟨r, hr, hlive⟩, -⟩ := consumeCode_spec (consumePasswordResetToken_true htrue)
      exact ⟨r, hr, (live_iff.mp hlive).2.1, (live_iff.mp hlive).2.2.1⟩
    · cases hr
  | verifying email code' =>
    simp only [advance] at hr
    split at hr <;> cases hr
  | resetting email code' password =>
    simp only [advance] at hr
    split at hr <;> cases hr
  | admitting | registering | creatingUser =>
    obtain ⟨e', p, rfl, -⟩ := h
    exact absurd rfl none_presented
  | resending | forgetting =>
    obtain ⟨e', rfl, -⟩ := h
    exact absurd rfl none_presented
  | issuingVerification | issuingReset =>
    obtain ⟨e', -, hp, -⟩ := h
    exact absurd hp none_presented
  | _ => exact absurd h none_presented

/-- No code is used twice: the row of one that is used is consumed, and no other row has its hash. -/
theorem not_again {db : Database} {k : CodeKind} {e code code' : JsString} (hn : ((db.codes k).map (·.tokenHash)).Nodup)
    (hu : Used K db k e code) (h : K.sha256Hex code = K.sha256Hex code') :
    ¬ ∃ r ∈ db.codes k, r.tokenHash = K.sha256Hex code' ∧ r.consumedAt = none := by
  rintro ⟨r, hr, hhash, hnone⟩
  obtain ⟨i, r', stamp, hr', hhash', hc', -⟩ := hu
  have hsame := List.inj_on_of_nodup_map hn hr (List.mem_of_getElem? hr') (hhash.trans (h.symm.trans hhash'.symm))
  rw [hsame, hc'] at hnone
  cases hnone

theorem codes_step {s : AuthService} (hs : Codes K s) (e : Event) : Codes K (s.step K e) := by
  cases e with
  | call c =>
    have hnew : ∀ {m : Nat} {c' : Call}, (s.step K (.call c)).calls[m]? = some (c', .settled .returned) →
        s.calls[m]? = some (c', .settled .returned) := by
      intro m c' h
      rcases calls_call.mp h with h | ⟨-, h⟩
      · exact h
      · cases h
    refine ⟨fun n c' p h => ?_, hs.hashes, fun n m c c' k e e' code code' hn hm => ?_⟩
    · rcases calls_call.mp h with h | ⟨-, h⟩
      · exact hs.stages n c' p h
      · cases h
        exact stage_start ..
    · exact hs.once n m c c' k e e' code code' (hnew hn) (hnew hm)
  | step n now d =>
    by_cases hw : ∃ c w, s.calls[n]? = some (c, .waiting w)
    · obtain ⟨c, w, hn⟩ := hw
      have hstage := hs.stages n c _ hn
      have hl := advance_codes (K := K) now d s.db w
      have hdb : (s.step K (.step n now d)).db = (advance K now d s.db w).1 := by rw [step_waiting hn]
      have hself : (s.step K (.step n now d)).calls[n]? = some (c, (advance K now d s.db w).2) := by
        obtain ⟨hlt, -⟩ := List.getElem?_eq_some_iff.mp hn
        rw [step_waiting hn]
        exact List.getElem?_set_self hlt
      have hother : ∀ {m : Nat}, n ≠ m → (s.step K (.step n now d)).calls[m]? = s.calls[m]? := fun h => calls_other h
      have hused : ∀ {m : Nat} {c' : Call} {k : CodeKind} {e code : JsString},
        s.calls[m]? = some (c', .settled .returned) →
          c'.presented = some (k, e, code) → Used K s.db k e code := fun hm hc => hs.stages _ _ _ hm _ _ _ hc
      refine ⟨fun m c' p h => ?_, fun k => ?_, fun m m' c₁ c₂ k e e' code code' hm hm' hc₁ hc₂ hcode => ?_⟩
      · rw [hdb]
        by_cases hnm : n = m
        · subst hnm
          cases hself.symm.trans h
          exact stage_advance hstage
        · exact (hs.stages m c' p ((hother hnm).symm.trans h)).later hl
      · rw [hdb]
        exact hl.hashes k (hs.hashes k)
      · by_cases hnm : n = m
        · by_cases hnm' : n = m'
          · exact hnm.symm.trans hnm'
          · -- the first call took its row in this step, the second one before
            subst hnm
            have hret := Option.some.inj (hself.symm.trans hm)
            obtain ⟨rfl, hsettled⟩ := Prod.mk.inj hret
            have htakes := takes_row hstage hc₁ hsettled
            exact absurd htakes (not_again (hs.hashes k) (hused ((hother hnm').symm.trans hm') hc₂) hcode.symm)
        · by_cases hnm' : n = m'
          · subst hnm'
            have hret := Option.some.inj (hself.symm.trans hm')
            obtain ⟨rfl, hsettled⟩ := Prod.mk.inj hret
            have htakes := takes_row hstage hc₂ hsettled
            exact absurd htakes (not_again (hs.hashes k) (hused ((hother hnm).symm.trans hm) hc₁) hcode)
          · exact hs.once m m' c₁ c₂ k e e' code code' ((hother hnm).symm.trans hm)
              ((hother hnm').symm.trans hm') hc₁ hc₂ hcode
    · rw [step_other fun c w hn => hw ⟨c, w, hn⟩]
      exact hs

theorem codes_run (users : List UserRow) (es : List Event) : Codes K (.run K users es) :=
  @runFrom_inv _ _ (AuthService.step K) (Codes K) (fun _ e hs => codes_step hs e) _ (codes_init users) es

/-! ## Where a row comes from -/

/-- A call for the account of the row wrote the row in one step of the run, where that table ended. -/
def Issued (K : Crypto) (users : List UserRow) (es : List Event) (k : CodeKind) (i : Nat) (r : CodeRow) : Prop :=
  ∃ before after n now d c p e, es = before ++ .step n now d :: after ∧
    (AuthService.run K users before).calls[n]? = some (c, p) ∧ c.issues = some (k, e) ∧
    Account K (AuthService.run K users before).db r.userId e ∧
      ((AuthService.run K users before).db.codes k).length = i ∧
    (AuthService.run K users (before ++ [.step n now d])).db.codes k =
      (AuthService.run K users before).db.codes k ++ [r.unused]

theorem issuing_call {db : Database} {c : Call} {w : Waiting} {k : CodeKind} {userId : Nat}
    (h : Stage K db c (.waiting w))
    (hw : Issuing userId w k) : ∃ e, c.issues = some (k, e) ∧ Account K db userId e := by
  cases k with
  | verification =>
    obtain ⟨tokenHash, expiresAt, rfl⟩ := hw
    obtain ⟨e, hi, -, ha⟩ := h
    exact ⟨e, hi, ha⟩
  | passwordReset =>
    obtain ⟨tokenHash, expiresAt, rfl⟩ := hw
    obtain ⟨e, hi, -, ha⟩ := h
    exact ⟨e, hi, ha⟩

theorem run_snoc (users : List UserRow) (es : List Event) (e : Event) :
    AuthService.run K users (es ++ [e]) = (AuthService.run K users es).step K e := by
  rw [AuthService.run, runFrom_append]
  rfl

/-- A row that is there after a step was there, or the step wrote it. -/
theorem step_rows {s : AuthService} {e : Event} {k : CodeKind} {i : Nat} {r : CodeRow}
    (h : ∃ r', ((s.step K e).db.codes k)[i]? = some r' ∧ r'.unused = r.unused) :
    (∃ r', (s.db.codes k)[i]? = some r' ∧ r'.unused = r.unused) ∨
      ∃ n now d c w, e = .step n now d ∧ s.calls[n]? = some (c, .waiting w) ∧ Issuing r.userId w k ∧
        (s.db.codes k).length = i ∧ (s.step K e).db.codes k = s.db.codes k ++ [r.unused] := by
  obtain ⟨r', hr', hsame⟩ := h
  cases e with
  | call c => exact Or.inl ⟨r', hr', hsame⟩
  | step n now d =>
    by_cases hw : ∃ c w, s.calls[n]? = some (c, .waiting w)
    · obtain ⟨c, w, hn⟩ := hw
      rw [step_waiting hn] at hr' ⊢
      rcases advance_rows hr' with ⟨r'', hr'', hold⟩ | ⟨hissuing, hlength, hrows⟩
      · exact Or.inl ⟨r'', hr'', hold.trans hsame⟩
      · have huser : r'.userId = r.userId := by
          change r'.unused.userId = r.unused.userId
          rw [hsame]
        exact Or.inr ⟨n, now, d, c, w, rfl, hn, huser ▸ hissuing, hlength, hsame ▸ hrows⟩
    · rw [step_other fun c w hn => hw ⟨c, w, hn⟩] at hr'
      exact Or.inl ⟨r', hr', hsame⟩

theorem issued_run (users : List UserRow) (es : List Event) {k : CodeKind} {i : Nat} {r : CodeRow}
    (h : ((AuthService.run K users es).db.codes k)[i]? = some r) : Issued K users es k i r := by
  have hfrom := @runFrom_origin _ _ (AuthService.step K)
    (fun s => ∃ r', (s.db.codes k)[i]? = some r' ∧ r'.unused = r.unused) _
    (fun _ _ => step_rows) _ es ⟨r, h, rfl⟩
  rcases hfrom with hinit | hissued
  · obtain ⟨r', hr', -⟩ := hinit
    cases k <;> cases hr'
  · obtain ⟨before, e, after, rfl, n, now, d, c, w, rfl, hn, hissuing, hlength, hrows⟩ := hissued
    obtain ⟨email, hi, ha⟩ := issuing_call ((codes_run users before).stages n c _ hn) hissuing
    refine ⟨before, after, n, now, d, c, _, email, rfl, hn, hi, ha, hlength, ?_⟩
    rw [run_snoc]
    exact hrows

/-! ## Presentations that fail -/

/-- A presentation that a step does not settle with success writes nothing in that step. -/
theorem presented_writes {s : AuthService} (hs : Codes K s) {n now : Nat} {d : Draw} {c : Call} {w : Waiting}
    (hn : s.calls[n]? = some (c, .waiting w)) (hc : c.presented ≠ none)
    (hr : (s.step K (.step n now d)).calls[n]? ≠ some (c, .settled .returned)) :
    (s.step K (.step n now d)).db = s.db := by
  have hstage := hs.stages n c _ hn
  have hself : (s.step K (.step n now d)).calls[n]? = some (c, (advance K now d s.db w).2) := by
    obtain ⟨hlt, -⟩ := List.getElem?_eq_some_iff.mp hn
    rw [step_waiting hn]
    exact List.getElem?_set_self hlt
  have hnot : (advance K now d s.db w).2 ≠ .settled .returned := fun h => hr (by rw [hself, h])
  rw [step_waiting hn]
  show (advance K now d s.db w).1 = s.db
  cases w with
  | verifying email code => rfl
  | resetting email code password => rfl
  | consumingVerification userId tokenHash stamp =>
    simp only [advance] at hnot ⊢
    unfold Database.consumeVerificationToken at hnot ⊢
    cases hcodes : consumeCode s.db.emailVerificationTokens userId tokenHash stamp with
    | none => rfl
    | some codes =>
      rw [hcodes] at hnot
      exact absurd rfl hnot
  | consumingReset userId tokenHash stamp passwordHash =>
    simp only [advance] at hnot ⊢
    unfold Database.consumePasswordResetToken at hnot ⊢
    cases hcodes : consumeCode s.db.passwordResetTokens userId tokenHash stamp with
    | none => rfl
    | some codes =>
      rw [hcodes] at hnot
      exact absurd rfl hnot
  | admitting | registering | creatingUser =>
    obtain ⟨e', p, rfl, -⟩ := hstage
    exact absurd rfl hc
  | resending | forgetting =>
    obtain ⟨e', rfl, -⟩ := hstage
    exact absurd rfl hc
  | issuingVerification | issuingReset =>
    obtain ⟨e', -, hp, -⟩ := hstage
    exact absurd hp hc
  | _ => exact absurd hstage hc

/-- In every run, whatever its interleaving: of the calls that present one code, one succeeds at most. It took a row
    of that code before the row expired, names the account of the row, and a call for that account wrote that very
    row. And a call that presents a code writes nothing but in the step in which it succeeds. -/
theorem one_time_codes (K : Crypto) (users : List UserRow) (es : List Event) :
    (∀ (n m : Nat) c c' k e e' code code', (AuthService.run K users es).calls[n]? = some (c, .settled .returned) →
        (AuthService.run K users es).calls[m]? = some (c', .settled .returned) → c.presented = some (k, e, code) →
        c'.presented = some (k, e', code') → K.sha256Hex code = K.sha256Hex code' → n = m) ∧
      (∀ (n : Nat) c k e code, (AuthService.run K users es).calls[n]? = some (c, .settled .returned) →
        c.presented = some (k, e, code) →
        ∃ (i : Nat), ∃ r stamp, ((AuthService.run K users es).db.codes k)[i]? = some r ∧
          r.tokenHash = K.sha256Hex code ∧
          r.consumedAt = some stamp ∧ stamp < r.expiresAt ∧ Account K (AuthService.run K users es).db r.userId e ∧
          Issued K users es k i r) ∧
      ∀ before after n now d c w, es = before ++ .step n now d :: after →
        (AuthService.run K users before).calls[n]? = some (c, .waiting w) → c.presented ≠ none →
        (AuthService.run K users (before ++ [.step n now d])).calls[n]? ≠ some (c, .settled .returned) →
        (AuthService.run K users (before ++ [.step n now d])).db = (AuthService.run K users before).db := by
  have hs := codes_run (K := K) users es
  refine ⟨hs.once, fun n c k e code hn hc => ?_, fun before after n now d c w _ hn hc hr => ?_⟩
  · obtain ⟨i, r, stamp, hi, hh, hconsumed, hexp, ha⟩ := hs.stages n c _ hn k e code hc
    exact ⟨i, r, stamp, hi, hh, hconsumed, hexp, ha, issued_run users es hi⟩
  · rw [run_snoc] at hr ⊢
    exact presented_writes (codes_run users before) hn hc hr

end NotifyHub.Auth
