/-
  NotifyHub.Auth.IngestKeys — ingest keys (apps/gateway/src/modules/ingest-keys): the
  table, the service's `create` and `verify`, and revocation.

  A credential is `keyId.secret`; the table holds the SHA-256 of the secret only, and its
  key ids are unique. `Stored` says which row belongs to which credential handed out, in
  every run of creations and revocations, and from it `verify` accepts a credential handed
  out exactly while its row is not revoked (`verify_issued`).
-/

import NotifyHub.Lib.Run
import NotifyHub.Lib.Digest
import Mathlib.Data.List.Forall2
import Mathlib.Data.List.Nodup

namespace NotifyHub.IngestKeys

open Base64 (Bytes encodeUrl UrlSafe)

def INGEST_KEY_ID_BYTES : Nat := 9

def INGEST_KEY_SECRET_BYTES : Nat := 32

/-- A row of `ingest_keys`; key ids are unique, ids the primary key. -/
structure IngestKeyRow where
  id : JsString
  userId : JsString
  keyId : JsString
  secretHash : JsString
  name : JsString
  revokedAt : Option Nat
  deriving DecidableEq

structure VerifiedIngestKey where
  id : JsString
  userId : JsString
  keyId : JsString
  deriving DecidableEq

variable (N : NodeCrypto)

/-- `randomBytes(9).toString("base64url")` -/
def generateIngestKeyId (bytes : Vector UInt8 INGEST_KEY_ID_BYTES) : JsString := encodeUrl bytes.toList

/-- `randomBytes(32).toString("base64url")` -/
def generateIngestKeySecret (bytes : Vector UInt8 INGEST_KEY_SECRET_BYTES) : JsString := encodeUrl bytes.toList

/-! ## The table -/

def findActiveByKeyId (rows : List IngestKeyRow) (keyId : JsString) : Option IngestKeyRow :=
  rows.find? fun r => r.keyId == keyId && r.revokedAt.isNone

/-- The insert of `create`; it throws where it would break a unique key. -/
def insert (rows : List IngestKeyRow) (row : IngestKeyRow) : Option (List IngestKeyRow) :=
  if rows.any fun r => r.id == row.id || r.keyId == row.keyId then none else some (rows ++ [row])

/-- Whether `revoke` sets `revokedAt` on the row. -/
def revokes (userId id : JsString) (r : IngestKeyRow) : Bool := r.id == id && r.userId == userId && r.revokedAt.isNone

/-- The rows after `revoke`, and what it returns. -/
def revoke (rows : List IngestKeyRow) (userId id : JsString) (now : Nat) : List IngestKeyRow × Bool :=
  (rows.map fun r => if revokes userId id r then { r with revokedAt := some now } else r, rows.any (revokes userId id))

/-! ## The service -/

def verify (rows : List IngestKeyRow) (credential : JsString) : Option VerifiedIngestKey :=
  match credential.idxOf? dot with
  | none => none
  | some i =>
    if i = 0 ∨ i + 1 = credential.length ∨ dot ∈ credential.drop (i + 1) then none
    else
      let keyId := credential.take i
      let secret := credential.drop (i + 1)
      match findActiveByKeyId rows keyId with
      | none => none
      -- both sides are digests, of one length: `timingSafeEqual` does not throw
      | some active =>
        if active.secretHash = sha256Hex N secret then some ⟨active.id, active.userId, active.keyId⟩ else none

/-- A key as it was handed out: the parts of its credential, and whose it is. -/
structure IssuedKey where
  id : JsString
  userId : JsString
  keyId : JsString
  secret : JsString
  deriving DecidableEq

def IssuedKey.credential (k : IssuedKey) : JsString := k.keyId ++ dot :: k.secret

/-- The table, and the keys handed out by the creation responses. -/
structure Store where
  rows : List IngestKeyRow
  issued : List IssuedKey

/-- A request, with the database's uuid, the random bytes and the clock it draws. -/
inductive Request where
  | create (userId name id : JsString) (keyIdBytes : Vector UInt8 INGEST_KEY_ID_BYTES)
      (secretBytes : Vector UInt8 INGEST_KEY_SECRET_BYTES)
  | revoke (userId id : JsString) (now : Nat)

def Store.step (s : Store) : Request → Store
  | .create userId name id keyIdBytes secretBytes =>
    let keyId := generateIngestKeyId keyIdBytes
    let secret := generateIngestKeySecret secretBytes
    match insert s.rows ⟨id, userId, keyId, sha256Hex N secret, name, none⟩ with
    | none => s
    | some rows => ⟨rows, s.issued ++ [⟨id, userId, keyId, secret⟩]⟩
  | .revoke userId id now => { s with rows := (IngestKeys.revoke s.rows userId id now).1 }

def Store.run (es : List Request) : Store := runFrom (Store.step N) ⟨[], []⟩ es

/-- The key's row is not revoked. -/
def Active (rows : List IngestKeyRow) (k : IssuedKey) : Prop := ∃ r ∈ rows, r.id = k.id ∧ r.revokedAt = none

instance (rows : List IngestKeyRow) (k : IssuedKey) : Decidable (Active rows k) :=
  inferInstanceAs (Decidable (∃ r ∈ rows, r.id = k.id ∧ r.revokedAt = none))

/-! ## Rows and credentials -/

variable {N}

theorem urlSafe_generate {n : Nat} (hn : 0 < n) (bytes : Vector UInt8 n) : UrlSafe (encodeUrl bytes.toList) := by
  refine ⟨Base64.encodeUrl_ne_nil fun h => ?_, Base64.isUrlSafe_encodeUrl _⟩
  have hlen := congrArg List.length h
  simp at hlen
  omega

/-- The row of a key. -/
structure Stored (N : NodeCrypto) (r : IngestKeyRow) (k : IssuedKey) : Prop where
  id : r.id = k.id
  userId : r.userId = k.userId
  keyId : r.keyId = k.keyId
  secretHash : r.secretHash = sha256Hex N k.secret
  safe : UrlSafe k.keyId ∧ UrlSafe k.secret

/-- Each key handed out has its row, in the same place; ids and key ids are unique. -/
structure Kept (N : NodeCrypto) (s : Store) : Prop where
  stored : List.Forall₂ (Stored N) s.rows s.issued
  keyIds : (s.rows.map IngestKeyRow.keyId).Nodup
  ids : (s.rows.map IngestKeyRow.id).Nodup

theorem kept_nil : Kept N ⟨[], []⟩ := ⟨.nil, .nil, .nil⟩

theorem kept_step {s : Store} (hs : Kept N s) (e : Request) : Kept N (s.step N e) := by
  cases e with
  | create userId name id keyIdBytes secretBytes =>
    simp only [Store.step]
    split
    · exact hs
    · rename_i rows hinsert
      unfold insert at hinsert
      split at hinsert
      · cases hinsert
      · rename_i hfresh
        cases hinsert
        simp only [List.any_eq_true, Bool.or_eq_true, beq_iff_eq, not_exists, not_and, not_or] at hfresh
        refine ⟨?_, ?_, ?_⟩
        · exact List.rel_append hs.stored (.cons ⟨rfl, rfl, rfl, rfl, urlSafe_generate (by decide) _,
            urlSafe_generate (by decide) _⟩ .nil)
        · rw [List.map_append, List.nodup_append]
          refine ⟨hs.keyIds, by simp, ?_⟩
          intro k hk k' hk' heq
          obtain ⟨r, hr, rfl⟩ := List.mem_map.mp hk
          rw [List.map_singleton, List.mem_singleton] at hk'
          exact (hfresh r hr).2 (heq.trans hk')
        · rw [List.map_append, List.nodup_append]
          refine ⟨hs.ids, by simp, ?_⟩
          intro k hk k' hk' heq
          obtain ⟨r, hr, rfl⟩ := List.mem_map.mp hk
          rw [List.map_singleton, List.mem_singleton] at hk'
          exact (hfresh r hr).1 (heq.trans hk')
  | revoke userId id now =>
    have hkeyId : ∀ r : IngestKeyRow, (if revokes userId id r then { r with revokedAt := some now } else r).keyId =
      r.keyId := by
      intro r
      split <;> rfl
    have hid : ∀ r : IngestKeyRow, (if revokes userId id r then { r with revokedAt := some now } else r).id = r.id := by
      intro r
      split <;> rfl
    refine ⟨?_, ?_, ?_⟩
    · refine List.forall₂_map_left_iff.mpr (List.Forall₂.imp (fun r k h => ?_) hs.stored)
      split
      · exact ⟨h.id, h.userId, h.keyId, h.secretHash, h.safe⟩
      · exact h
    · rw [Store.step, IngestKeys.revoke, List.map_map, Function.comp_def]
      simp only [hkeyId]
      exact hs.keyIds
    · rw [Store.step, IngestKeys.revoke, List.map_map, Function.comp_def]
      simp only [hid]
      exact hs.ids

theorem kept_run (es : List Request) : Kept N (Store.run N es) :=
  @runFrom_inv _ _ (Store.step N) (Kept N) (fun _ e h => kept_step h e) _ kept_nil es

/-! ## What `verify` answers -/

/-- What a key id finds in the table. -/
theorem findActive_iff {s : Store} (hs : Kept N s) {keyId : JsString} {r : IngestKeyRow} :
    findActiveByKeyId s.rows keyId = some r ↔ r ∈ s.rows ∧ r.keyId = keyId ∧ r.revokedAt = none := by
  constructor
  · intro h
    have hr := List.find?_some h
    simp only [Bool.and_eq_true, beq_iff_eq, Option.isNone_iff_eq_none] at hr
    exact ⟨List.mem_of_find?_eq_some h, hr⟩
  · rintro ⟨hmem, hkey, hactive⟩
    cases hfind : findActiveByKeyId s.rows keyId with
    | none =>
      have hnone := List.find?_eq_none.mp hfind r hmem
      simp [hkey, hactive] at hnone
    | some r' =>
      have hr' := List.find?_some hfind
      simp only [Bool.and_eq_true, beq_iff_eq] at hr'
      have hsame : r' = r :=
        List.inj_on_of_nodup_map hs.keyIds (List.mem_of_find?_eq_some hfind) hmem (hr'.1.trans hkey.symm)
      rw [hsame]

theorem take_credential (k : IssuedKey) : k.credential.take k.keyId.length = k.keyId := List.take_left

theorem drop_credential (k : IssuedKey) : k.credential.drop (k.keyId.length + 1) = k.secret := by
  rw [IssuedKey.credential, ← List.drop_drop, List.drop_left]
  rfl

theorem Kept.row {s : Store} (hs : Kept N s) {k : IssuedKey} (hk : k ∈ s.issued) : ∃ r ∈ s.rows, Stored N r k := by
  obtain ⟨n, hn, rfl⟩ := List.mem_iff_getElem.mp hk
  have hlen := hs.stored.length_eq
  have hrow := hs.stored.get (by omega) hn
  exact ⟨s.rows.get ⟨n, by omega⟩, List.get_mem .., hrow⟩

theorem verify_credential {rows : List IngestKeyRow} {k : IssuedKey} (hkeyId : UrlSafe k.keyId)
    (hsecret : UrlSafe k.secret) :
    verify N rows k.credential = (findActiveByKeyId rows k.keyId).bind fun active =>
      if active.secretHash = sha256Hex N k.secret then some ⟨active.id, active.userId, active.keyId⟩ else none := by
  have hdot : ¬ (k.keyId.length = 0 ∨ k.keyId.length + 1 = k.credential.length ∨ dot ∈ k.secret) := by
    have hpos := List.length_pos_iff.mpr hkeyId.1
    have hpos' := List.length_pos_iff.mpr hsecret.1
    have hlen : k.credential.length = k.keyId.length + (k.secret.length + 1) := by simp [IssuedKey.credential]
    rintro (h | h | h)
    · omega
    · omega
    · exact hsecret.no_dot h
  have hindex : k.credential.idxOf? dot = some k.keyId.length := idxOf_dot hkeyId.no_dot k.secret
  simp only [verify, hindex, take_credential, drop_credential]
  rw [if_neg hdot]
  cases findActiveByKeyId rows k.keyId <;> rfl

/-- The credential of a key handed out is accepted exactly while its row is not revoked. -/
theorem verify_issued {s : Store} (hs : Kept N s) {k : IssuedKey} (hk : k ∈ s.issued) :
    verify N s.rows k.credential = if Active s.rows k then some ⟨k.id, k.userId, k.keyId⟩ else none := by
  obtain ⟨r, hr, hrow⟩ := hs.row hk
  rw [verify_credential hrow.safe.1 hrow.safe.2]
  split
  · rename_i hactive
    obtain ⟨r', hr', hid, hnone⟩ := hactive
    have hsame : r' = r := List.inj_on_of_nodup_map hs.ids hr' hr (hid.trans hrow.id.symm)
    subst hsame
    rw [(findActive_iff hs).mpr ⟨hr, hrow.keyId, hnone⟩, Option.bind_some, if_pos hrow.secretHash, hrow.id, hrow.userId,
      hrow.keyId]
  · rename_i hactive
    cases hfind : findActiveByKeyId s.rows k.keyId with
    | none => rfl
    | some r' =>
      obtain ⟨hr', hkey, hnone⟩ := (findActive_iff hs).mp hfind
      have hsame : r' = r := List.inj_on_of_nodup_map hs.keyIds hr' hr (hkey.trans hrow.keyId.symm)
      exact absurd ⟨r', hr', hsame ▸ hrow.id, hnone⟩ hactive

end NotifyHub.IngestKeys
