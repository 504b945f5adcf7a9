/-
  NotifyHub.Auth.Repository — the tables of the auth module and the transactions over them
  (apps/gateway/src/modules/auth/auth.repository.ts, apps/gateway/src/db/schema.ts).

  Rows are appended and never leave, so a row's id is its place. Each method is one
  atomic step on the database; `none` is a broken unique constraint, which rolls it back.

  Over time a refresh token keeps its family, its hash and its expiry, and once it is
  rotated or its family revoked it stays so (`Later`, which every method respects).
-/

import NotifyHub.Lib.Rows
import NotifyHub.Lib.Text

namespace NotifyHub.Auth

structure UserRow where
  email : JsString
  passwordHash : JsString
  emailVerifiedAt : Option Nat
  /-- Ghost: how often the password was replaced. -/
  resets : Nat

/-- A row of `emailVerificationTokens` or of `passwordResetTokens`. -/
structure CodeRow where
  userId : Nat
  tokenHash : JsString
  expiresAt : Nat
  consumedAt : Option Nat

structure FamilyRow where
  userId : Nat
  revokedAt : Option Nat
  deriving DecidableEq

structure TokenRow where
  familyId : Nat
  tokenHash : JsString
  expiresAt : Nat
  rotatedAt : Option Nat
  deriving DecidableEq

structure Database where
  users : List UserRow
  emailVerificationTokens : List CodeRow
  passwordResetTokens : List CodeRow
  refreshTokenFamilies : List FamilyRow
  refreshTokens : List TokenRow

structure UserRecord where
  id : Nat
  email : JsString
  passwordHash : JsString
  emailVerifiedAt : Option Nat
  /-- Ghost: how often the password had been replaced when the row was read. -/
  resets : Nat

structure RefreshTokenRecord where
  id : Nat
  familyId : Nat
  userId : Nat
  tokenHash : JsString
  expiresAt : Nat
  rotatedAt : Option Nat
  familyRevokedAt : Option Nat

inductive RotationOutcome where
  | rotated
  | reused
  deriving DecidableEq

/-- `SET revoked_at = now WHERE revoked_at IS NULL` -/
def FamilyRow.revoke (now : Nat) (f : FamilyRow) : FamilyRow := { f with revokedAt := f.revokedAt <|> some now }

/-- `WHERE user_id = .. AND token_hash = .. AND consumed_at IS NULL AND expires_at > now` -/
def CodeRow.live (userId : Nat) (tokenHash : JsString) (now : Nat) (c : CodeRow) : Bool :=
  c.userId == userId && c.tokenHash == tokenHash && c.consumedAt.isNone && c.expiresAt > now

/-- `INSERT` under the unique constraint on `token_hash`. -/
def insertCode (codes : List CodeRow) (userId : Nat) (tokenHash : JsString) (expiresAt : Nat) : Option (List CodeRow) :=
  if codes.any (·.tokenHash == tokenHash) then none else some (codes ++ [⟨userId, tokenHash, expiresAt, none⟩])

/-- The conditional `UPDATE .. SET consumed_at = now`; `none` when it returns no row. -/
def consumeCode (codes : List CodeRow) (userId : Nat) (tokenHash : JsString) (now : Nat) : Option (List CodeRow) :=
  if codes.any (·.live userId tokenHash now) then
    some (codes.map fun c => if c.live userId tokenHash now then { c with consumedAt := some now } else c)
  else none

namespace Database

variable (db : Database)

def findUserByEmail (email : JsString) : Option UserRecord := do
  let id ← db.users.findIdx? (·.email == email)
  let u ← db.users[id]?
  some ⟨id, u.email, u.passwordHash, u.emailVerifiedAt, u.resets⟩

/-- `none` is a `DuplicateEmailError`. -/
def createUser (email passwordHash : JsString) : Option (Database × UserRecord) :=
  if db.users.any (·.email == email) then none
  else some ({ db with users := db.users ++ [⟨email, passwordHash, none, 0⟩] },
    ⟨db.users.length, email, passwordHash, none, 0⟩)

def createVerificationToken (userId : Nat) (tokenHash : JsString) (expiresAt : Nat) : Option Database :=
  (insertCode db.emailVerificationTokens userId tokenHash expiresAt).map fun codes =>
    { db with emailVerificationTokens := codes }

def consumeVerificationToken (userId : Nat) (tokenHash : JsString) (now : Nat) : Database × Bool :=
  match consumeCode db.emailVerificationTokens userId tokenHash now with
  | none => (db, false)
  | some codes =>
    ({ db with emailVerificationTokens := codes
               users := db.users.modify userId fun u => { u with emailVerifiedAt := some now } }, true)

def createPasswordResetToken (userId : Nat) (tokenHash : JsString) (expiresAt : Nat) : Option Database :=
  (insertCode db.passwordResetTokens userId tokenHash expiresAt).map fun codes =>
    { db with passwordResetTokens := codes }

/-- What a consumed reset code does: a new password, and every family of the user is revoked. -/
def resetPassword (codes : List CodeRow) (userId now : Nat) (passwordHash : JsString) : Database :=
  { db with
    passwordResetTokens := codes
    users := db.users.modify userId fun u => { u with passwordHash, resets := u.resets + 1 }
    refreshTokenFamilies := db.refreshTokenFamilies.map fun f => if f.userId = userId then f.revoke now else f }

def consumePasswordResetToken (userId : Nat) (tokenHash : JsString) (now : Nat) (passwordHash : JsString) :
    Database × Bool :=
  match consumeCode db.passwordResetTokens userId tokenHash now with
  | none => (db, false)
  | some codes => (db.resetPassword codes userId now passwordHash, true)

/-- No row of `refreshTokens` has the hash. -/
def freshHash (tokenHash : JsString) : Bool := !db.refreshTokens.any (·.tokenHash == tokenHash)

/-- A new family with its first token. -/
def openFamily (userId : Nat) (tokenHash : JsString) (expiresAt : Nat) : Database :=
  { db with
    refreshTokenFamilies := db.refreshTokenFamilies ++ [⟨userId, none⟩]
    refreshTokens := db.refreshTokens ++ [⟨db.refreshTokenFamilies.length, tokenHash, expiresAt, none⟩] }

def createRefreshSession (userId : Nat) (tokenHash : JsString) (expiresAt : Nat) : Option Database :=
  if db.freshHash tokenHash then some (db.openFamily userId tokenHash expiresAt) else none

def findRefreshTokenByHash (tokenHash : JsString) : Option RefreshTokenRecord := do
  let id ← db.refreshTokens.findIdx? (·.tokenHash == tokenHash)
  let t ← db.refreshTokens[id]?
  let f ← db.refreshTokenFamilies[t.familyId]?
  some ⟨id, t.familyId, f.userId, t.tokenHash, t.expiresAt, t.rotatedAt, f.revokedAt⟩

def revokeRefreshFamily (familyId now : Nat) : Database :=
  { db with refreshTokenFamilies := db.refreshTokenFamilies.modify familyId (FamilyRow.revoke now) }

/-- The row of the presented token is marked and its successor appended. -/
def succeed (tokenId familyId now : Nat) (tokenHash : JsString) (expiresAt : Nat) : Database :=
  { db with
    refreshTokens :=
      (db.refreshTokens.modify tokenId fun t => { t with rotatedAt := some now }) ++
        [⟨familyId, tokenHash, expiresAt, none⟩] }

/-- The row is there and `rotated_at IS NULL`. -/
def unrotated (tokenId : Nat) : Bool := db.refreshTokens[tokenId]?.any (·.rotatedAt.isNone)

def rotateRefreshToken (tokenId familyId now : Nat) (tokenHash : JsString) (expiresAt : Nat) :
    Option (Database × RotationOutcome) :=
  if db.unrotated tokenId then
    if db.freshHash tokenHash then some (db.succeed tokenId familyId now tokenHash expiresAt, .rotated) else none
  else some (db.revokeRefreshFamily familyId now, .reused)

end Database

/-! ## Reading -/

theorem findUserByEmail_spec {db : Database} {email : JsString} {user : UserRecord}
    (h : db.findUserByEmail email = some user) :
    ∃ u, db.users[user.id]? = some u ∧ u.email = email ∧ user.passwordHash = u.passwordHash ∧
      user.resets = u.resets := by
  simp only [Database.findUserByEmail, Option.bind_eq_bind, Option.bind_eq_some_iff] at h
  obtain ⟨id, hid, u, hu, hrec⟩ := h
  cases hrec
  obtain ⟨hlt, hemail, -⟩ := List.findIdx?_eq_some_iff_getElem.mp hid
  rw [List.getElem?_eq_getElem hlt] at hu
  cases hu
  exact ⟨_, List.getElem?_eq_getElem hlt, by simpa using hemail, rfl, rfl⟩

theorem findRefreshTokenByHash_spec {db : Database} {tokenHash : JsString} {record : RefreshTokenRecord}
    (h : db.findRefreshTokenByHash tokenHash = some record) :
    ∃ t f, db.refreshTokens[record.id]? = some t ∧ db.refreshTokenFamilies[t.familyId]? = some f ∧
      t.tokenHash = tokenHash ∧
      record = ⟨record.id, t.familyId, f.userId, t.tokenHash, t.expiresAt, t.rotatedAt, f.revokedAt⟩ := by
  simp only [Database.findRefreshTokenByHash, Option.bind_eq_bind, Option.bind_eq_some_iff] at h
  obtain ⟨id, hid, t, ht, f, hf, hrec⟩ := h
  cases hrec
  obtain ⟨hlt, hhash, -⟩ := List.findIdx?_eq_some_iff_getElem.mp hid
  rw [List.getElem?_eq_getElem hlt] at ht
  cases ht
  exact ⟨_, f, List.getElem?_eq_getElem hlt, hf, by simpa using hhash, rfl⟩

/-! ## What stays over time -/

/-- Every row of `db` is still there in `db'`, further on. -/
structure Later (db db' : Database) : Prop where
  token : ∀ (i : Nat) t, db.refreshTokens[i]? = some t → ∃ t', db'.refreshTokens[i]? = some t' ∧
    t'.familyId = t.familyId ∧ t'.tokenHash = t.tokenHash ∧ t'.expiresAt = t.expiresAt ∧
    (t.rotatedAt.isSome = true → t'.rotatedAt.isSome = true)
  family : ∀ (i : Nat) f, db.refreshTokenFamilies[i]? = some f → ∃ f', db'.refreshTokenFamilies[i]? = some f' ∧
    f'.userId = f.userId ∧ (f.revokedAt.isSome = true → f'.revokedAt.isSome = true)
  user : ∀ (i : Nat) u, db.users[i]? = some u → ∃ u', db'.users[i]? = some u' ∧ u.resets ≤ u'.resets

theorem Later.refl (db : Database) : Later db db :=
  ⟨fun _ t h => ⟨t, h, rfl, rfl, rfl, id⟩, fun _ f h => ⟨f, h, rfl, id⟩, fun _ u h => ⟨u, h, Nat.le_refl _⟩⟩

theorem Later.trans {a b c : Database} (hab : Later a b) (hbc : Later b c) : Later a c := by
  refine ⟨fun i t h => ?_, fun i f h => ?_, fun i u h => ?_⟩
  · obtain ⟨t', h', hf, hh, he, hr⟩ := hab.token i t h
    obtain ⟨t'', h'', hf', hh', he', hr'⟩ := hbc.token i t' h'
    exact ⟨t'', h'', hf'.trans hf, hh'.trans hh, he'.trans he, fun h => hr' (hr h)⟩
  · obtain ⟨f', h', hu, hr⟩ := hab.family i f h
    obtain ⟨f'', h'', hu', hr'⟩ := hbc.family i f' h'
    exact ⟨f'', h'', hu'.trans hu, fun h => hr' (hr h)⟩
  · obtain ⟨u', h', hle⟩ := hab.user i u h
    obtain ⟨u'', h'', hle'⟩ := hbc.user i u' h'
    exact ⟨u'', h'', hle.trans hle'⟩

theorem revoke_isSome {now : Nat} {f : FamilyRow} : (f.revoke now).revokedAt.isSome = true := by
  cases h : f.revokedAt <;> simp [FamilyRow.revoke, h]

/-- What a method wrote, to the tables of the sessions and to the passwords. -/
inductive Wrote : Database → Database → Prop where
  | kept {db db' : Database} (hf : db'.refreshTokenFamilies = db.refreshTokenFamilies)
      (ht : db'.refreshTokens = db.refreshTokens)
      (hu : ∀ (i : Nat) u, db.users[i]? = some u → ∃ u', db'.users[i]? = some u' ∧ u'.resets = u.resets) : Wrote db db'
  | opened {db : Database} (userId : Nat) {tokenHash : JsString} (expiresAt : Nat)
    (hh : db.freshHash tokenHash = true) :
      Wrote db (db.openFamily userId tokenHash expiresAt)
  | rotated {db : Database} (tokenId familyId now : Nat) {tokenHash : JsString} (expiresAt : Nat) (t : TokenRow)
      (ht : db.refreshTokens[tokenId]? = some t) (hr : t.rotatedAt = none) (hf : t.familyId = familyId)
      (hh : db.freshHash tokenHash = true) : Wrote db (db.succeed tokenId familyId now tokenHash expiresAt)
  | revoked (db : Database) (familyId now : Nat) : Wrote db (db.revokeRefreshFamily familyId now)
  | reset (db : Database) (codes : List CodeRow) (userId now : Nat) (passwordHash : JsString) :
      Wrote db (db.resetPassword codes userId now passwordHash)

theorem Wrote.refl (db : Database) : Wrote db db := .kept rfl rfl fun _ u h => ⟨u, h, rfl⟩

theorem Wrote.later {db db' : Database} (h : Wrote db db') : Later db db' := by
  cases h with
  | kept hf ht hu =>
    refine ⟨fun i t h => ⟨t, ht ▸ h, rfl, rfl, rfl, id⟩, fun i f h => ⟨f, hf ▸ h, rfl, id⟩, fun i u h => ?_⟩
    obtain ⟨u', h', hresets⟩ := hu i u h
    exact ⟨u', h', hresets ▸ Nat.le_refl _⟩
  | opened userId expiresAt hh =>
    refine ⟨fun i t h => ⟨t, getElem_append_old h _, rfl, rfl, rfl, id⟩, fun i f h => ⟨f, ?_, rfl, id⟩,
      fun i u h => ⟨u, h, Nat.le_refl _⟩⟩
    obtain ⟨hlt, -⟩ := List.getElem?_eq_some_iff.mp h
    exact (List.getElem?_append_left hlt).trans h
  | rotated tokenId familyId now expiresAt t ht hr hf hh =>
    refine ⟨fun i t' h => ?_, fun i f h => ⟨f, h, rfl, id⟩, fun i u h => ⟨u, h, Nat.le_refl _⟩⟩
    have hmod := getElem_modify (f := fun t : TokenRow => { t with rotatedAt := some now }) (i := tokenId) h
    obtain ⟨hlt, -⟩ := List.getElem?_eq_some_iff.mp hmod
    refine ⟨_, (List.getElem?_append_left hlt).trans hmod, ?_⟩
    split
    · exact ⟨rfl, rfl, rfl, fun _ => rfl⟩
    · exact ⟨rfl, rfl, rfl, id⟩
  | revoked familyId now =>
    refine ⟨fun i t h => ⟨t, h, rfl, rfl, rfl, id⟩, fun i f h => ⟨_, getElem_modify h, ?_⟩,
      fun i u h => ⟨u, h, Nat.le_refl _⟩⟩
    split
    · exact ⟨rfl, fun _ => revoke_isSome⟩
    · exact ⟨rfl, id⟩
  | reset codes userId now passwordHash =>
    refine ⟨fun i t h => ⟨t, h, rfl, rfl, rfl, id⟩, fun i f h => ?_, fun i u h => ⟨_, getElem_modify h, ?_⟩⟩
    · refine ⟨_, (List.getElem?_map ..).trans (congrArg _ h), ?_⟩
      dsimp only
      split
      · exact ⟨rfl, fun _ => revoke_isSome⟩
      · exact ⟨rfl, id⟩
    · split
      · exact Nat.le_succ _
      · exact Nat.le_refl _

/-! ## The methods -/

theorem createUser_wrote {db db' : Database} {email passwordHash : JsString} {user : UserRecord}
    (h : db.createUser email passwordHash = some (db', user)) : Wrote db db' := by
  unfold Database.createUser at h
  split at h
  · cases h
  · cases h
    refine .kept rfl rfl fun i u h => ⟨u, ?_, rfl⟩
    obtain ⟨hlt, -⟩ := List.getElem?_eq_some_iff.mp h
    exact (List.getElem?_append_left hlt).trans h

theorem createVerificationToken_wrote {db db' : Database} {userId : Nat} {tokenHash : JsString} {expiresAt : Nat}
    (h : db.createVerificationToken userId tokenHash expiresAt = some db') : Wrote db db' := by
  obtain ⟨codes, -, rfl⟩ := Option.map_eq_some_iff.mp h
  exact .kept rfl rfl fun i u h => ⟨u, h, rfl⟩

theorem createPasswordResetToken_wrote {db db' : Database} {userId : Nat} {tokenHash : JsString} {expiresAt : Nat}
    (h : db.createPasswordResetToken userId tokenHash expiresAt = some db') : Wrote db db' := by
  obtain ⟨codes, -, rfl⟩ := Option.map_eq_some_iff.mp h
  exact .kept rfl rfl fun i u h => ⟨u, h, rfl⟩

theorem consumeVerificationToken_wrote (db : Database) (userId : Nat) (tokenHash : JsString) (now : Nat) :
    Wrote db (db.consumeVerificationToken userId tokenHash now).1 := by
  unfold Database.consumeVerificationToken
  split
  · exact .refl db
  · refine .kept rfl rfl fun i u h => ⟨_, getElem_modify h, ?_⟩
    split <;> rfl

theorem consumePasswordResetToken_wrote (db : Database) (userId : Nat) (tokenHash : JsString) (now : Nat)
    (passwordHash : JsString) : Wrote db (db.consumePasswordResetToken userId tokenHash now passwordHash).1 := by
  unfold Database.consumePasswordResetToken
  split
  · exact .refl db
  · exact .reset ..

theorem createRefreshSession_wrote {db db' : Database} {userId : Nat} {tokenHash : JsString} {expiresAt : Nat}
    (h : db.createRefreshSession userId tokenHash expiresAt = some db') : Wrote db db' := by
  unfold Database.createRefreshSession at h
  split at h
  · rename_i hh
    cases h
    exact .opened userId expiresAt hh
  · cases h

theorem rotateRefreshToken_rotated {db db' : Database} {tokenId familyId now : Nat} {tokenHash : JsString}
    {expiresAt : Nat}
    (h : db.rotateRefreshToken tokenId familyId now tokenHash expiresAt = some (db', .rotated)) :
    db.unrotated tokenId = true ∧ db.freshHash tokenHash = true ∧
      db' = db.succeed tokenId familyId now tokenHash expiresAt := by
  unfold Database.rotateRefreshToken at h
  split at h
  · rename_i hu
    split at h
    · rename_i hh
      cases h
      exact ⟨hu, hh, rfl⟩
    · cases h
  · cases h

theorem rotateRefreshToken_reused {db db' : Database} {tokenId familyId now : Nat} {tokenHash : JsString}
    {expiresAt : Nat}
    (h : db.rotateRefreshToken tokenId familyId now tokenHash expiresAt = some (db', .reused)) :
    db.unrotated tokenId = false ∧ db' = db.revokeRefreshFamily familyId now := by
  unfold Database.rotateRefreshToken at h
  split at h
  · split at h <;> cases h
  · rename_i hu
    cases h
    exact ⟨Bool.not_eq_true _ ▸ hu, rfl⟩

theorem unrotated_iff {db : Database} {tokenId : Nat} :
    db.unrotated tokenId = true ↔ ∃ t, db.refreshTokens[tokenId]? = some t ∧ t.rotatedAt = none := by
  unfold Database.unrotated
  cases h : db.refreshTokens[tokenId]? with
  | none => simp
  | some t => simp

end NotifyHub.Auth
