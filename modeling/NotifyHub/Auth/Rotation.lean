/-
  NotifyHub.Auth.Rotation — refresh tokens are used once
  (apps/gateway/src/modules/auth/auth.service.ts, `refresh`, and `rotateRefreshToken` of
  auth.repository.ts).

  The tables keep one row for each hash and at most one token that is not rotated for each
  family (`Sound`, `sound_run`). So of all the calls that present one token a single one is
  given tokens, in whatever order their reads and transactions come; and a call that
  presents a rotated token leaves its family revoked, which every later call with a token
  of that family finds (`rotation_single_use`).
-/

import NotifyHub.Auth.Service

namespace NotifyHub.Auth

/-- Of the rows of `refreshTokens`, with `n` families. -/
structure Sound (n : Nat) (tokens : List TokenRow) : Prop where
  hashes : ∀ (i j : Nat) t t', tokens[i]? = some t → tokens[j]? = some t' → t.tokenHash = t'.tokenHash → i = j
  families : ∀ (i : Nat) t, tokens[i]? = some t → t.familyId < n
  live : ∀ (i j : Nat) t t', tokens[i]? = some t → tokens[j]? = some t' → t.familyId = t'.familyId →
    t.rotatedAt = none → t'.rotatedAt = none → i = j

abbrev Database.sound (db : Database) : Prop := Sound db.refreshTokenFamilies.length db.refreshTokens

theorem Sound.mono {n m : Nat} {tokens : List TokenRow} (h : Sound n tokens) (hnm : n ≤ m) : Sound m tokens :=
  ⟨h.hashes, fun i t ht => Nat.lt_of_lt_of_le (h.families i t ht) hnm, h.live⟩

/-- A row with a hash of its own, for a family without a live token. -/
theorem Sound.append {n : Nat} {tokens : List TokenRow} {row : TokenRow} (h : Sound n tokens) (hf : row.familyId < n)
    (hh : ∀ (i : Nat) t, tokens[i]? = some t → t.tokenHash ≠ row.tokenHash)
    (hl : ∀ (i : Nat) t, tokens[i]? = some t → t.familyId = row.familyId → t.rotatedAt ≠ none) :
    Sound n (tokens ++ [row]) := by
  refine ⟨fun i j t t' hi hj heq => ?_, fun i t hi => ?_, fun i j t t' hi hj heq hr hr' => ?_⟩
  · rcases getElem_snoc.mp hi with hti | ⟨rfl, rfl⟩ <;> rcases getElem_snoc.mp hj with htj | ⟨rfl, rfl⟩
    · exact h.hashes i j t t' hti htj heq
    · exact absurd heq (hh i t hti)
    · exact absurd heq.symm (hh j t' htj)
    · rfl
  · rcases getElem_snoc.mp hi with hi | ⟨-, rfl⟩
    · exact h.families i t hi
    · exact hf
  · rcases getElem_snoc.mp hi with hti | ⟨rfl, rfl⟩ <;> rcases getElem_snoc.mp hj with htj | ⟨rfl, rfl⟩
    · exact h.live i j t t' hti htj heq hr hr'
    · exact absurd hr (hl i t hti heq)
    · exact absurd hr' (hl j t' htj heq.symm)
    · rfl

theorem getElem_mark {tokens : List TokenRow} {k now i : Nat} {t : TokenRow}
    (h : (tokens.modify k fun t => { t with rotatedAt := some now })[i]? = some t) :
    ∃ t₀, tokens[i]? = some t₀ ∧ t.familyId = t₀.familyId ∧ t.tokenHash = t₀.tokenHash ∧
      (t.rotatedAt = none → k ≠ i ∧ t₀.rotatedAt = none) := by
  rw [List.getElem?_modify] at h
  obtain ⟨t₀, ht₀, rfl⟩ := Option.map_eq_some_iff.mp h
  refine ⟨t₀, ht₀, ?_⟩
  split
  · exact ⟨rfl, rfl, fun hr => by cases hr⟩
  · rename_i hk
    exact ⟨rfl, rfl, fun hr => ⟨hk, hr⟩⟩

/-- Marking a row as rotated. -/
theorem Sound.mark {n : Nat} {tokens : List TokenRow} (h : Sound n tokens) (k now : Nat) :
    Sound n (tokens.modify k fun t => { t with rotatedAt := some now }) := by
  refine ⟨fun i j t t' hi hj heq => ?_, fun i t hi => ?_, fun i j t t' hi hj heq hr hr' => ?_⟩
  · obtain ⟨t₀, hi, -, hh, -⟩ := getElem_mark hi
    obtain ⟨t₀', hj, -, hh', -⟩ := getElem_mark hj
    exact h.hashes i j t₀ t₀' hi hj (hh.symm.trans (heq.trans hh'))
  · obtain ⟨t₀, hi, hf, -⟩ := getElem_mark hi
    exact hf ▸ h.families i t₀ hi
  · obtain ⟨t₀, hi, hf, -, hu⟩ := getElem_mark hi
    obtain ⟨t₀', hj, hf', -, hu'⟩ := getElem_mark hj
    exact h.live i j t₀ t₀' hi hj (hf.symm.trans (heq.trans hf')) (hu hr).2 (hu' hr').2

theorem freshHash_spec {db : Database} {tokenHash : JsString} (h : db.freshHash tokenHash = true)
    {i : Nat} {t : TokenRow}
    (ht : db.refreshTokens[i]? = some t) : t.tokenHash ≠ tokenHash := by
  simp only [Database.freshHash, Bool.not_eq_true', List.any_eq_false, beq_iff_eq] at h
  exact h t (List.mem_of_getElem? ht)

theorem Wrote.sound {db db' : Database} (h : Wrote db db') (hs : db.sound) : db'.sound := by
  cases h with
  | kept hf ht hu =>
    unfold Database.sound
    rw [hf, ht]
    exact hs
  | opened userId expiresAt hh =>
    have hlen : (db.refreshTokenFamilies ++ [FamilyRow.mk userId none]).length =
      db.refreshTokenFamilies.length + 1 := by simp
    unfold Database.sound Database.openFamily
    dsimp only
    rw [hlen]
    refine (hs.mono (Nat.le_succ _)).append (Nat.lt_succ_self _) (fun i t ht => freshHash_spec hh ht)
      fun i t ht heq => ?_
    have := hs.families i t ht
    dsimp only at heq
    omega
  | rotated tokenId familyId now expiresAt t ht hr hf hh =>
    -- the family's live token was the one that is marked
    refine (hs.mark tokenId now).append ?_ (fun i t' hi => ?_) fun i t' hi heq hr' => ?_
    · exact hf ▸ hs.families tokenId t ht
    · obtain ⟨t₀, hi, -, heq, -⟩ := getElem_mark hi
      exact heq ▸ freshHash_spec hh hi
    · obtain ⟨t₀, hi, hf', -, hu⟩ := getElem_mark hi
      obtain ⟨hne, hr₀⟩ := hu hr'
      exact hne (hs.live tokenId i t t₀ ht hi (hf.trans (heq.symm.trans hf')) hr hr₀)
  | revoked familyId now =>
    unfold Database.sound Database.revokeRefreshFamily
    dsimp only
    rw [List.length_modify]
    exact hs
  | reset codes userId now passwordHash =>
    unfold Database.sound Database.resetPassword
    dsimp only
    rw [List.length_map]
    exact hs

section

variable {K : Crypto}

theorem sound_run (users : List UserRow) (es : List Event) : (AuthService.run K users es).db.sound := by
  have hboth : Kept K (AuthService.run K users es) ∧ (AuthService.run K users es).db.sound := by
    refine @runFrom_inv _ _ (AuthService.step K) (fun s => Kept K s ∧ s.db.sound) (fun s e h => ?_) _ ?_ es
    · exact ⟨kept_step h.1 e, (step_wrote h.1 e).sound h.2⟩
    · refine ⟨kept_init users, ⟨fun i j t t' h => ?_, fun i t h => ?_, fun i j t t' h => ?_⟩⟩ <;> cases h
  exact hboth.2

/-! ## One exchange for each token -/

/-- A refresh is given tokens when its transaction finds the presented one not rotated. -/
theorem pair_of_refresh {now : Nat} {d : Draw} {db : Database} {p : JsString} {w : Waiting} {r : TokenPair}
    (h : Consistent K db (.refresh p) (.waiting w)) (hr : (advance K now d db w).2 = .settled (.pair r)) :
    ∃ (i : Nat), ∃ t, db.refreshTokens[i]? = some t ∧ t.tokenHash = K.sha256Hex p ∧ t.rotatedAt = none := by
  cases w with
  | loggingIn email password =>
    obtain ⟨_, _, hc⟩ := h
    cases hc
  | creatingSession user refreshToken expiresAt =>
    obtain ⟨⟨_, _, hc⟩, -⟩ := h
    cases hc
  | refreshing p' =>
    simp only [advance, refreshRead] at hr
    repeat' split at hr
    all_goals cases hr
  | rotating record stamp next expiresAt =>
    obtain ⟨-, p', hc, t, ht, -, hh⟩ := h
    cases hc
    simp only [advance] at hr
    split at hr
    · cases hr
    · cases hr
    · obtain ⟨hu, -⟩ := rotateRefreshToken_rotated ‹_›
      obtain ⟨t', ht', hr'⟩ := unrotated_iff.mp hu
      cases ht.symm.trans ht'
      exact ⟨_, t, ht, hh, hr'⟩
  | _ => exact absurd rfl (h p)

/-- The calls that were given tokens for one presented token are one call. -/
def Once (K : Crypto) (s : AuthService) : Prop :=
  ∀ (n m : Nat) p q r r', s.calls[n]? = some (.refresh p, .settled (.pair r)) →
    s.calls[m]? = some (.refresh q, .settled (.pair r')) → K.sha256Hex p = K.sha256Hex q → n = m

/-- The call that is given tokens now is the first for its token. -/
theorem first_exchange {s : AuthService} (hk : Kept K s) (hs : s.db.sound) {n m : Nat} {now : Nat} {d : Draw}
    {p q : JsString} {w : Waiting} {r r' : TokenPair} (hn : s.calls[n]? = some (.refresh p, .waiting w))
    (hr : (advance K now d s.db w).2 = .settled (.pair r))
    (hm : s.calls[m]? = some (.refresh q, .settled (.pair r'))) : K.sha256Hex p ≠ K.sha256Hex q := by
  intro heq
  obtain ⟨i, t, ht, hh, hnone⟩ := pair_of_refresh (hk n _ _ hn) hr
  rcases hk m _ _ hm with ⟨_, _, hc⟩ | ⟨q', hc, j, t', ht', hh', hsome⟩
  · cases hc
  · cases hc
    cases hs.hashes i j t t' ht ht' (hh.trans (heq.trans hh'.symm))
    cases ht.symm.trans ht'
    rw [hnone] at hsome
    cases hsome

theorem once_step {s : AuthService} (hk : Kept K s) (hs : s.db.sound) (ho : Once K s) (e : Event) :
    Once K (s.step K e) := by
  intro n m p q r r' hn hm heq
  cases e with
  | call c =>
    rcases calls_call.mp hn with hn | ⟨-, hn⟩
    · rcases calls_call.mp hm with hm | ⟨-, hm⟩
      · exact ho n m p q r r' hn hm heq
      · cases hm
    · cases hn
  | step k now d =>
    rcases calls_step hn with hn | ⟨rfl, w, hn, hr, -⟩ <;> rcases calls_step hm with hm | ⟨rfl, w', hm, hr', -⟩
    · exact ho n m p q r r' hn hm heq
    · exact absurd heq.symm (first_exchange hk hs hm hr'.symm hn)
    · exact absurd heq (first_exchange hk hs hn hr.symm hm)
    · rfl

theorem once_run (users : List UserRow) (es : List Event) : Once K (.run K users es) := by
  have hall : Kept K (.run K users es) ∧ (AuthService.run K users es).db.sound ∧ Once K (.run K users es) := by
    refine @runFrom_inv _ _ (AuthService.step K) (fun s => Kept K s ∧ s.db.sound ∧ Once K s) (fun s e h => ?_) _ ?_ es
    · exact ⟨kept_step h.1 e, (step_wrote h.1 e).sound h.2.1, once_step h.1 h.2.1 h.2.2 e⟩
    · exact ⟨kept_init users, (sound_run users [] : (AuthService.run K users []).db.sound),
        fun n m p q r r' h => by cases h⟩
  exact hall.2.2

/-! ## Reuse -/

/-- The family is revoked. -/
def Revoked (db : Database) (familyId : Nat) : Prop :=
  ∃ f, db.refreshTokenFamilies[familyId]? = some f ∧ f.revokedAt.isSome = true

theorem Revoked.later {db db' : Database} {familyId : Nat} (h : Revoked db familyId) (hl : Later db db') :
    Revoked db' familyId := by
  obtain ⟨f, hf, hr⟩ := h
  obtain ⟨f', hf', -, hr'⟩ := hl.family _ f hf
  exact ⟨f', hf', hr' hr⟩

theorem revoked_revoke {db : Database} {familyId now : Nat} (h : familyId < db.refreshTokenFamilies.length) :
    Revoked (db.revokeRefreshFamily familyId now) familyId := by
  refine ⟨_, getElem_modify (List.getElem?_eq_getElem h), ?_⟩
  rw [if_pos rfl]
  exact revoke_isSome

/-- The token at `i` is rotated, and belongs to the family. -/
def Spent (db : Database) (i familyId : Nat) : Prop :=
  ∃ t, db.refreshTokens[i]? = some t ∧ t.familyId = familyId ∧ t.rotatedAt.isSome = true

theorem Spent.later {db db' : Database} {i familyId : Nat} (h : Spent db i familyId) (hl : Later db db') :
    Spent db' i familyId := by
  obtain ⟨t, ht, hf, hr⟩ := h
  obtain ⟨t', ht', hf', -, -, hr'⟩ := hl.token i t ht
  exact ⟨t', ht', hf'.trans hf, hr' hr⟩

/-- The call `n` presents a token that was rotated before: it waits to rotate it again, or
    the family is revoked. -/
def Caught (s : AuthService) (n familyId : Nat) : Prop :=
  Revoked s.db familyId ∨
    ∃ c record stamp next expiresAt, s.calls[n]? = some (c, .waiting (.rotating record stamp next expiresAt)) ∧
      record.familyId = familyId ∧ Spent s.db record.id familyId

/-- To rotate a rotated token again is to revoke its family. -/
theorem rotate_spent {now : Nat} {d : Draw} {db : Database} (hs : db.sound) {record : RefreshTokenRecord} {stamp : Nat}
    {next : JsString} {expiresAt : Nat} (h : Spent db record.id record.familyId) :
    Revoked (advance K now d db (.rotating record stamp next expiresAt)).1 record.familyId := by
  obtain ⟨t, ht, hf, hr⟩ := h
  have hspent : db.unrotated record.id = false := by
    rw [← Bool.not_eq_true, unrotated_iff]
    rintro ⟨t', ht', hnone⟩
    cases ht.symm.trans ht'
    rw [hnone] at hr
    cases hr
  simp only [advance, Database.rotateRefreshToken, hspent, Bool.false_eq_true, if_false]
  exact revoked_revoke (hf ▸ hs.families _ t ht)

theorem caught_step {s : AuthService} (hk : Kept K s) (hs : s.db.sound) {n familyId : Nat} (h : Caught s n familyId)
    (e : Event) : Caught (s.step K e) n familyId := by
  have hlater := (step_wrote hk e).later
  rcases h with h | ⟨c, record, stamp, next, expiresAt, hn, rfl, hspent⟩
  · exact Or.inl (h.later hlater)
  · cases e with
    | call c' => exact Or.inr ⟨c, record, stamp, next, expiresAt, calls_call.mpr (Or.inl hn), rfl, hspent⟩
    | step m now d =>
      by_cases hm : m = n
      · subst hm
        rw [step_waiting hn]
        exact Or.inl (rotate_spent hs hspent)
      · refine Or.inr ⟨c, record, stamp, next, expiresAt, ?_, rfl, hspent.later hlater⟩
        exact (calls_other hm).trans hn

/-- A token is found by its hash. -/
theorem find_of_row {db : Database} (hs : db.sound) {i : Nat} {t : TokenRow} (ht : db.refreshTokens[i]? = some t) :
    ∃ record, db.findRefreshTokenByHash t.tokenHash = some record ∧ record.id = i := by
  obtain ⟨j, hj⟩ : ∃ j, db.refreshTokens.findIdx? (·.tokenHash == t.tokenHash) = some j := by
    rw [← Option.isSome_iff_exists, List.findIdx?_isSome, List.any_eq_true]
    exact ⟨t, List.mem_of_getElem? ht, by simp⟩
  obtain ⟨hlt, hhash, -⟩ := List.findIdx?_eq_some_iff_getElem.mp hj
  cases hs.hashes j i _ t (List.getElem?_eq_getElem hlt) ht (by simpa using hhash)
  obtain ⟨f, hf⟩ : ∃ f, db.refreshTokenFamilies[t.familyId]? = some f :=
    ⟨_, List.getElem?_eq_getElem (hs.families i t ht)⟩
  refine ⟨⟨i, t.familyId, f.userId, t.tokenHash, t.expiresAt, t.rotatedAt, f.revokedAt⟩, ?_, rfl⟩
  simp only [Database.findRefreshTokenByHash, hj, Option.bind_eq_bind, Option.bind_some, ht, hf]

/-- A refresh that reads a rotated token that has not expired waits to rotate it, or has
    found its family revoked. -/
theorem caught_read {s : AuthService} (hs : s.db.sound) {n i : Nat} {p : JsString} {t : TokenRow} {now : Nat} {d : Draw}
    (hn : s.calls[n]? = some (.refresh p, .waiting (.refreshing p))) (ht : s.db.refreshTokens[i]? = some t)
    (hh : t.tokenHash = K.sha256Hex p) (hr : t.rotatedAt.isSome = true) (hnow : now < t.expiresAt) :
    Caught (s.step K (.step n now d)) n t.familyId := by
  obtain ⟨record, hfind, hid⟩ := find_of_row hs ht
  rw [hh] at hfind
  obtain ⟨t', f, ht', hf, -, hrec⟩ := findRefreshTokenByHash_spec hfind
  rw [hid] at ht'
  cases ht.symm.trans ht'
  rw [step_waiting hn]
  by_cases hrev : f.revokedAt.isSome = true
  · exact Or.inl ⟨f, hf, hrev⟩
  · refine Or.inr ⟨.refresh p, record, now, d.random, now + REFRESH_TOKEN_TTL_MS, ?_, by rw [hrec], t, ?_, rfl, hr⟩
    · have hread : refreshRead now d (some record) =
          .waiting (.rotating record now d.random (now + REFRESH_TOKEN_TTL_MS)) := by
        rw [hrec, refreshRead, if_neg (by simpa using hnow), if_neg hrev]
      obtain ⟨hlt, -⟩ := List.getElem?_eq_some_iff.mp hn
      simp only [advance, hfind, hread]
      exact List.getElem?_set_self hlt
    · rw [hid]
      exact ht

theorem caught_run {n familyId : Nat} (es : List Event) {s : AuthService} (hk : Kept K s) (hs : s.db.sound)
    (h : Caught s n familyId) : Caught (runFrom (AuthService.step K) s es) n familyId := by
  have hall := @runFrom_inv _ _ (AuthService.step K) (fun s => Kept K s ∧ s.db.sound ∧ Caught s n familyId)
    (fun s e h => ⟨kept_step h.1 e, (step_wrote h.1 e).sound h.2.1, caught_step h.1 h.2.1 h.2.2 e⟩) s ⟨hk, hs, h⟩ es
  exact hall.2.2

/-- A call that was caught has not returned before its family was revoked. -/
theorem Caught.revoked {s : AuthService} {n familyId : Nat} (h : Caught s n familyId) {c : Call} {r : Result}
    (hn : s.calls[n]? = some (c, .settled r)) : Revoked s.db familyId := by
  rcases h with h | ⟨c', record, stamp, next, expiresAt, hn', -⟩
  · exact h
  · rw [hn] at hn'
    cases hn'

/-- A token of another family has the hash of `q`. -/
def Foreign (K : Crypto) (db : Database) (q : JsString) (familyId : Nat) : Prop :=
  ∃ (i : Nat), ∃ t, db.refreshTokens[i]? = some t ∧ t.tokenHash = K.sha256Hex q ∧ t.familyId ≠ familyId

theorem Foreign.later {db db' : Database} {q : JsString} {familyId : Nat} (h : Foreign K db q familyId)
    (hl : Later db db') : Foreign K db' q familyId := by
  obtain ⟨i, t, ht, hh, hf⟩ := h
  obtain ⟨t', ht', hf', hh', -⟩ := hl.token i t ht
  exact ⟨i, t', ht', hh'.trans hh, hf' ▸ hf⟩

/-- How far a refresh of `q` can come once the family is revoked, unless `q` is a token of another. -/
def Turned (K : Crypto) (db : Database) (q : JsString) (familyId : Nat) : Progress → Prop
  | .waiting (.refreshing _) => True
  | .settled (.threw _ _) => True
  | _ => Foreign K db q familyId

theorem Turned.later {db db' : Database} {q : JsString} {familyId : Nat} {p : Progress} (h : Turned K db q familyId p)
    (hl : Later db db') : Turned K db' q familyId p := by
  unfold Turned at h ⊢
  split at h
  · trivial
  · trivial
  · exact h.later hl

/-- Read after the revocation, a token of the family is turned down. -/
theorem turned_read {now : Nat} {d : Draw} {db : Database} {q : JsString} {familyId : Nat} (h : Revoked db familyId) :
    Turned K db q familyId (refreshRead now d (db.findRefreshTokenByHash (K.sha256Hex q))) := by
  cases hfind : db.findRefreshTokenByHash (K.sha256Hex q) with
  | none => trivial
  | some record =>
    unfold refreshRead
    dsimp only
    split
    · trivial
    · split
      · trivial
      · rename_i hrev
        obtain ⟨t, f, ht, hf, hh, hrec⟩ := findRefreshTokenByHash_spec hfind
        refine ⟨record.id, t, ht, hh, ?_⟩
        rintro rfl
        obtain ⟨f', hf', hr⟩ := h
        cases hf.symm.trans hf'
        rw [hrec] at hrev
        exact hrev hr

/-- So is one that had been read, when it comes to be rotated. -/
theorem turned_advance {now : Nat} {d : Draw} {db : Database} {q : JsString} {familyId : Nat} {w : Waiting}
    (hr : Revoked db familyId) (hc : Consistent K db (.refresh q) (.waiting w))
    (ht : Turned K db q familyId (.waiting w))
    (hl : Later db (advance K now d db w).1) :
    Turned K (advance K now d db w).1 q familyId (advance K now d db w).2 := by
  cases w with
  | refreshing q' =>
    cases (hc : Call.refresh q = .refresh q')
    exact turned_read hr
  | rotating record stamp next expiresAt =>
    have hforeign : Foreign K db q familyId := ht
    simp only [advance] at hl ⊢
    split at hl
    · exact hforeign.later hl
    · trivial
    · exact hforeign.later hl
  | loggingIn email password =>
    obtain ⟨_, _, hc⟩ := hc
    cases hc
  | creatingSession user refreshToken expiresAt =>
    obtain ⟨⟨_, _, hc⟩, -⟩ := hc
    cases hc
  | _ => exact absurd rfl (hc q)

theorem turned_step {s : AuthService} (hk : Kept K s) {m familyId : Nat} {q : JsString} (hr : Revoked s.db familyId)
    (h : ∃ p, s.calls[m]? = some (.refresh q, p) ∧ Turned K s.db q familyId p) (e : Event) :
    ∃ p, (s.step K e).calls[m]? = some (.refresh q, p) ∧ Turned K (s.step K e).db q familyId p := by
  have hlater := (step_wrote hk e).later
  obtain ⟨p, hm, ht⟩ := h
  cases e with
  | call c => exact ⟨p, calls_call.mpr (Or.inl hm), ht⟩
  | step n now d =>
    by_cases hnm : n = m
    · subst hnm
      cases p with
      | settled r =>
        have hsame : s.step K (.step n now d) = s := step_other fun c w hn => by rw [hm] at hn; cases hn
        rw [hsame]
        exact ⟨_, hm, ht⟩
      | waiting w =>
        obtain ⟨hlt, -⟩ := List.getElem?_eq_some_iff.mp hm
        rw [step_waiting hm] at hlater ⊢
        exact ⟨_, List.getElem?_set_self hlt, turned_advance hr (hk n _ _ hm) ht hlater⟩
    · exact ⟨p, (calls_other hnm).trans hm, ht.later hlater⟩

/-- A refresh begun once the family is revoked is turned down. -/
theorem turned_run {s : AuthService} (hk : Kept K s) {familyId : Nat} (hr : Revoked s.db familyId) (q : JsString)
    (es : List Event) :
    ∃ p, (runFrom (AuthService.step K) s (.call (.refresh q) :: es)).calls[s.calls.length]? = some (.refresh q, p) ∧
      Turned K (runFrom (AuthService.step K) s (.call (.refresh q) :: es)).db q familyId p := by
  have hall := @runFrom_inv _ _ (AuthService.step K)
    (fun s' => Kept K s' ∧ Revoked s'.db familyId ∧
      ∃ p, s'.calls[s.calls.length]? = some (.refresh q, p) ∧ Turned K s'.db q familyId p)
    (fun s' e h => ⟨kept_step h.1 e, h.2.1.later (step_wrote h.1 e).later, turned_step h.1 h.2.1 h.2.2 e⟩)
    (s.step K (.call (.refresh q))) ⟨kept_step hk _, hr, _, calls_call.mpr (Or.inr ⟨rfl, rfl⟩), trivial⟩ es
  exact hall.2.2

/-- It throws, for a token of that family. -/
theorem Turned.threw {db : Database} (hs : db.sound) {q : JsString} {familyId i : Nat} {t : TokenRow} {r : Result}
    (h : Turned K db q familyId (.settled r)) (ht : db.refreshTokens[i]? = some t) (hh : t.tokenHash = K.sha256Hex q)
    (hf : t.familyId = familyId) : ∃ kind message, r = .threw kind message := by
  unfold Turned at h
  split at h
  · cases ‹Progress.settled r = _›
  · cases ‹Progress.settled r = _›
    exact ⟨_, _, rfl⟩
  · obtain ⟨j, t', ht', hh', hf'⟩ := h
    cases hs.hashes i j t t' ht ht' (hh.trans hh'.symm)
    cases ht.symm.trans ht'
    exact absurd hf hf'

end

/-- In every interleaving of calls, two that are given tokens have presented different ones;
    two tokens of one family that are not rotated are one; and when a refresh that has read
    a token that was rotated and had not expired is over, the family of the token is revoked
    and every refresh begun from then on with one of its tokens throws. -/
theorem rotation_single_use (K : Crypto) (users : List UserRow) (es : List Event) :
    (∀ (n m : Nat) p q r r', (AuthService.run K users es).calls[n]? = some (.refresh p, .settled (.pair r)) →
      (AuthService.run K users es).calls[m]? = some (.refresh q, .settled (.pair r')) →
      K.sha256Hex p = K.sha256Hex q → n = m) ∧
    (∀ (i j : Nat) t t', (AuthService.run K users es).db.refreshTokens[i]? = some t →
      (AuthService.run K users es).db.refreshTokens[j]? = some t' → t.familyId = t'.familyId →
      t.rotatedAt = none → t'.rotatedAt = none → i = j) ∧
    ∀ (before after : List Event) (n now : Nat) (d : Draw) (p : JsString) (i : Nat) (t : TokenRow) (r : Result),
      es = before ++ .step n now d :: after →
      (AuthService.run K users before).calls[n]? = some (.refresh p, .waiting (.refreshing p)) →
      (AuthService.run K users before).db.refreshTokens[i]? = some t → t.tokenHash = K.sha256Hex p →
      t.rotatedAt.isSome = true → now < t.expiresAt →
      (AuthService.run K users es).calls[n]? = some (.refresh p, .settled r) →
        Revoked (AuthService.run K users es).db t.familyId ∧
        ∀ (q : JsString) (rest : List Event) (j : Nat) (t' : TokenRow) (r' : Result),
          (AuthService.run K users (es ++ .call (.refresh q) :: rest)).db.refreshTokens[j]? = some t' →
          t'.tokenHash = K.sha256Hex q → t'.familyId = t.familyId →
          (AuthService.run K users
            (es ++ .call (.refresh q) :: rest)).calls[(AuthService.run K users es).calls.length]? =
            some (.refresh q, .settled r') → ∃ kind message, r' = .threw kind message := by
  refine ⟨once_run users es, (sound_run users es).live, ?_⟩
  intro before after n now d p i t r hes hn ht hh hrot hnow hr
  have hrevoked : Revoked (AuthService.run K users es).db t.familyId := by
    have hread : Caught ((AuthService.run K users before).step K (.step n now d)) n t.familyId :=
      caught_read (sound_run users before) hn ht hh hrot hnow
    have hcaught := caught_run after (kept_step (kept_run users before) (.step n now d))
      ((step_wrote (kept_run users before) (.step n now d)).sound (sound_run users before)) hread
    rw [hes, AuthService.run, runFrom_append] at hr ⊢
    exact hcaught.revoked hr
  refine ⟨hrevoked, fun q rest j t' r' ht' hh' hf' hr' => ?_⟩
  obtain ⟨progress, hm, hturned⟩ := turned_run (kept_run users es) hrevoked q rest
  have hsound := sound_run (K := K) users (es ++ .call (.refresh q) :: rest)
  rw [AuthService.run, runFrom_append] at ht' hr' hsound
  rw [hm] at hr'
  cases hr'
  exact hturned.threw hsound ht' hh' hf'

end NotifyHub.Auth
