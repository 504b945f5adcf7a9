/-
  NotifyHub.Events.IngestAuth — the signed requests of the plugin at the gateway
  (apps/gateway/src/modules/events/ingest-auth.ts, plugins/raw-body.ts, with the request
  of packages/plugin/src/sender.ts).

  Both sides sign `timestamp.body`; the gateway signs the text it decoded the body to. A
  text without lone surrogates comes back from its bytes, so a request as it was sent is
  accepted exactly while the key is active and the clocks agree (`accepts_signed`). Bytes
  that are no UTF-8 decode to U+FFFD, so a body with a U+FFFD has other bytes that pass in
  its place (`replaced_body_accepted`), and a body without one has none
  (`signed_requests_agree`).
-/

import NotifyHub.Lib.Rows
import NotifyHub.Auth.IngestKeys
import NotifyHub.Plugin.Sender

namespace NotifyHub.Events

open Base64 (Bytes UrlSafe)
open IngestKeys (VerifiedIngestKey IngestKeyRow IssuedKey Active Store verify)
open Plugin (GatewaySenderOptions HttpRequest TimeValue parseIngestKey signedRequest bearer)

def INGEST_TIMESTAMP_TOLERANCE_MS : Nat := 300000

/-- `Number.MAX_SAFE_INTEGER` -/
def MAX_SAFE_INTEGER : Nat := 9007199254740991

/-- `string | string[] | undefined` -/
inductive HeaderValue where
  | absent
  | one (value : JsString)
  | many (values : List JsString)

def firstHeaderValue : HeaderValue → Option JsString
  | .absent => none
  | .one value => some value
  | .many values => values.head?

structure IngestAuthInput where
  authorization : HeaderValue
  timestamp : HeaderValue
  signature : HeaderValue
  rawBody : JsString

/-- A request on the wire. -/
structure IngestRequest where
  authorization : HeaderValue
  timestamp : HeaderValue
  signature : HeaderValue
  body : Bytes

/-- What the raw-body parser (`parseAs: "string"`) leaves of a request. -/
def IngestRequest.input (r : IngestRequest) : IngestAuthInput :=
  ⟨r.authorization, r.timestamp, r.signature, Utf8.decode r.body⟩

/-- The request as the gateway receives it. -/
def received (r : HttpRequest) : IngestRequest := ⟨.one r.authorization, .one r.timestamp, .one r.signature, r.body⟩

variable (N : NodeCrypto)

def expectedIngestSignature (secret timestamp rawBody : JsString) : JsString :=
  hmacHex N secret (timestamp ++ dot :: rawBody)

def timingSafeStringEqual (expected candidate : JsString) : Bool := Utf8.encode expected == Utf8.encode candidate

/-- The credential of an `Authorization` header. -/
def bearerCredential (authorization : Option JsString) : Option JsString :=
  match authorization with
  | none => none
  | some a => if startsWith a bearer then some (a.drop bearer.length) else none

/-- `credential.slice(credential.indexOf(".") + 1)` -/
def credentialSecret (credential : JsString) : JsString :=
  match credential.idxOf? dot with
  | none => credential
  | some i => credential.drop (i + 1)

def skewMs (nowMs timestampMs : Nat) : Nat := ((nowMs : Int) - timestampMs).natAbs

/-- The timestamp is the text of a safe integer within the tolerance of the clock. -/
def timestampOk (nowMs : Nat) (timestamp : Option JsString) : Bool :=
  match timestamp.bind numeral? with
  | none => false
  | some timestampMs => timestampMs ≤ MAX_SAFE_INTEGER && skewMs nowMs timestampMs ≤ INGEST_TIMESTAMP_TOLERANCE_MS

def authenticateIngestRequest (rows : List IngestKeyRow) (nowMs : Nat) (input : IngestAuthInput) :
    Option VerifiedIngestKey :=
  let timestamp := firstHeaderValue input.timestamp
  let credential := bearerCredential (firstHeaderValue input.authorization)
  let secret := match credential with
    | none => []
    | some c => credentialSecret c
  let expected := expectedIngestSignature N secret (timestamp.getD []) input.rawBody
  let signatureOk := match firstHeaderValue input.signature with
    | none => false
    | some signature => timingSafeStringEqual expected signature
  let verified := credential.bind (verify N rows)
  if !timestampOk nowMs timestamp || !signatureOk || verified.isNone then none else verified

/-- The secret a request presents. -/
def IngestRequest.secret (r : IngestRequest) : Option JsString :=
  (bearerCredential (firstHeaderValue r.authorization)).map credentialSecret

/-- The request carries the signature of the other and differs from it in the body's bytes,
    the timestamp or the secret. -/
def Altered (signed : HttpRequest) (secret : JsString) (r : IngestRequest) : Prop :=
  firstHeaderValue r.signature = some signed.signature ∧
    (r.body ≠ signed.body ∨ firstHeaderValue r.timestamp ≠ some signed.timestamp ∨ r.secret ≠ some secret)

/-- The event, sent with any key the service handed out, is accepted exactly while the key
    is active and the clocks agree, and no altered request is accepted in its place. -/
def Agree (event : Contracts.NotifyEvent) : Prop :=
  ∀ (es : List IngestKeys.Request) (k : IssuedKey), k ∈ (Store.run N es).issued →
    ∃ key, parseIngestKey k.credential = some key ∧
      ∀ (o : GatewaySenderOptions) (sent : TimeValue) (nowMs : Nat), o.ingestKey = key →
        ((authenticateIngestRequest N (Store.run N es).rows nowMs
            (received (signedRequest N o sent event.toJson.stringify)).input).isSome ↔
          Active (Store.run N es).rows k ∧ skewMs nowMs sent ≤ INGEST_TIMESTAMP_TOLERANCE_MS) ∧
        ∀ r, Altered (signedRequest N o sent event.toJson.stringify) key.secret r →
          authenticateIngestRequest N (Store.run N es).rows nowMs r.input = none

/-! ## Both sides read one credential, one signature, one timestamp -/

variable {N}

theorem parse_issued {k : IssuedKey} (hkeyId : UrlSafe k.keyId) (hsecret : UrlSafe k.secret) :
    parseIngestKey k.credential = some ⟨k.keyId, k.secret⟩ := by
  have hindex : k.credential.idxOf? dot = some k.keyId.length := idxOf_dot hkeyId.no_dot k.secret
  have hlen : k.credential.length = k.keyId.length + (k.secret.length + 1) := by simp [IssuedKey.credential]
  have hpos := List.length_pos_iff.mpr hkeyId.1
  have hpos' := List.length_pos_iff.mpr hsecret.1
  have hpattern : Plugin.base64UrlPattern k.keyId = true := by
    rw [Plugin.base64UrlPattern, Bool.and_eq_true, bne_iff_ne, List.all_eq_true]
    exact hkeyId
  simp only [parseIngestKey, hindex, IngestKeys.take_credential, IngestKeys.drop_credential, hpattern, if_true]
  rw [if_neg (by omega)]

theorem bearerCredential_bearer (c : JsString) : bearerCredential (some (bearer ++ c)) = some c := by
  have hprefix : startsWith (bearer ++ c) bearer = true := by
    rw [startsWith, List.isPrefixOf_iff_prefix]
    exact List.prefix_append ..
  rw [bearerCredential, if_pos hprefix, List.drop_left]

theorem credentialSecret_issued {k : IssuedKey} (h : UrlSafe k.keyId) : credentialSecret k.credential = k.secret := by
  have hindex : k.credential.idxOf? dot = some k.keyId.length := idxOf_dot h.no_dot k.secret
  simp only [credentialSecret, hindex, IngestKeys.drop_credential]

theorem timestampOk_decimal (nowMs : Nat) (sent : TimeValue) :
    timestampOk nowMs (some (decimal sent)) = true ↔ skewMs nowMs sent ≤ INGEST_TIMESTAMP_TOLERANCE_MS := by
  have hsafe : sent.val ≤ MAX_SAFE_INTEGER := Nat.le_trans sent.property (by decide)
  simp [timestampOk, numeral_decimal, hsafe]

/-- The request as it was sent, or with other bytes of the same text, is accepted exactly
    while its key is active and the clocks agree. -/
theorem accepts_signed {s : Store} (hs : IngestKeys.Kept N s) {k : IssuedKey} (hk : k ∈ s.issued)
    (o : GatewaySenderOptions)
    (ho : o.ingestKey = ⟨k.keyId, k.secret⟩) (sent : TimeValue) (nowMs : Nat) (text : JsString) :
    authenticateIngestRequest N s.rows nowMs
        ⟨.one (signedRequest N o sent text).authorization, .one (signedRequest N o sent text).timestamp,
          .one (signedRequest N o sent text).signature, text⟩ =
      if Active s.rows k ∧ skewMs nowMs sent ≤ INGEST_TIMESTAMP_TOLERANCE_MS then some ⟨k.id, k.userId, k.keyId⟩
        else none := by
  obtain ⟨r, -, hrow⟩ := hs.row hk
  have hcredential : bearerCredential (some (signedRequest N o sent text).authorization) = some k.credential := by
    rw [signedRequest, ho]
    exact bearerCredential_bearer k.credential
  have hsignature : timingSafeStringEqual
      (expectedIngestSignature N k.secret (decimal sent) text) (signedRequest N o sent text).signature = true := by
    rw [signedRequest, ho]
    exact beq_self_eq_true _
  have htimestamp : (signedRequest N o sent text).timestamp = decimal sent := rfl
  unfold authenticateIngestRequest
  simp only [firstHeaderValue, hcredential, credentialSecret_issued hrow.safe.1, htimestamp,
    Option.getD_some, hsignature,
    Option.bind_some, IngestKeys.verify_issued hs hk]
  by_cases hactive : Active s.rows k
  · by_cases hskew : skewMs nowMs sent ≤ INGEST_TIMESTAMP_TOLERANCE_MS
    · simp [hactive, hskew, (timestampOk_decimal nowMs sent).mpr hskew]
    · have hstale : timestampOk nowMs (some (decimal sent)) = false :=
        Bool.eq_false_iff.mpr fun h => hskew ((timestampOk_decimal nowMs sent).mp h)
      simp [hskew, hstale]
  · simp [hactive]

/-! ## What a signature covers -/

theorem numeral_ascii {s : JsString} {n : Nat} (h : numeral? s = some n) : Ascii s := by
  unfold numeral? at h
  split at h
  · rename_i hs
    intro c hc
    have hdigit := List.all_eq_true.mp hs.2 c hc
    simp only [isDigit, Bool.and_eq_true, decide_eq_true_eq, UInt16.le_iff_toNat_le] at hdigit
    exact Nat.lt_of_le_of_lt hdigit.2 (by decide)
  · cases h

theorem ascii_no_replacement {s : JsString} (h : Ascii s) : 0xfffd ∉ s := fun hmem => absurd (h _ hmem) (by decide)

/-- A timestamp and a text are read back from what is signed. -/
theorem signed_text_inj {t t' text text' : JsString} {n n' : Nat} (ht : numeral? t = some n)
    (ht' : numeral? t' = some n')
    (hwell : Utf8.WellFormed text) (hwell' : Utf8.WellFormed text')
    (h : Utf8.encode (t ++ dot :: text) = Utf8.encode (t' ++ dot :: text')) : t = t' ∧ text = text' := by
  have hjoined {u v : JsString} {m : Nat} (hu : numeral? u = some m) (hv : Utf8.WellFormed v) :
      Utf8.WellFormed (u ++ dot :: v) :=
    (Utf8.wellFormed_of_ascii (numeral_ascii hu)).append (Utf8.WellFormed.append (s := [dot]) (by decide) hv)
  have heq := Utf8.encode_inj (hjoined ht hwell) (hjoined ht' hwell') h
  have hindex := idxOf_dot (dot_not_mem_of_numeral ht) text
  rw [heq, idxOf_dot (dot_not_mem_of_numeral ht') text'] at hindex
  obtain ⟨hstamp, htext⟩ := List.append_inj heq (Option.some.inj hindex).symm
  exact ⟨hstamp, (List.cons.inj htext).2⟩

/-- A request accepted under a signature presents the secret, the timestamp and the text that were signed. -/
theorem accepted_signed (hN : Function.Injective2 N.hmacSha256) {o : GatewaySenderOptions}
    (hsecret : UrlSafe o.ingestKey.secret)
    {sent : TimeValue} {text : JsString} (hwell : Utf8.WellFormed text) {rows : List IngestKeyRow} {nowMs : Nat}
    {r : IngestRequest} (hsignature : firstHeaderValue r.signature = some (signedRequest N o sent text).signature)
    (h : authenticateIngestRequest N rows nowMs r.input ≠ none) :
    r.secret = some o.ingestKey.secret ∧ firstHeaderValue r.timestamp = some (decimal sent) ∧
      Utf8.decode r.body = text := by
  unfold authenticateIngestRequest at h
  simp only [IngestRequest.input, hsignature] at h
  cases hcredential : bearerCredential (firstHeaderValue r.authorization) with
  | none =>
    rw [hcredential] at h
    simp at h
  | some c =>
    rw [hcredential] at h
    dsimp only at h
    split at h
    · exact absurd rfl h
    · rename_i haccepted
      simp only [Bool.or_eq_true, Bool.not_eq_true', not_or, Bool.not_eq_false] at haccepted
      obtain ⟨⟨hstamp, hequal⟩, -⟩ := haccepted
      cases hts : firstHeaderValue r.timestamp with
      | none =>
        rw [hts] at hstamp
        cases hstamp
      | some t =>
        rw [hts] at hstamp hequal
        cases hms : numeral? t with
        | none => simp [timestampOk, hms] at hstamp
        | some ms =>
          have hbytes : Utf8.encode (expectedIngestSignature N (credentialSecret c) t (Utf8.decode r.body)) =
              Utf8.encode (signedRequest N o sent text).signature := eq_of_beq hequal
          have hhex := Utf8.encode_inj (Utf8.wellFormed_of_ascii (ascii_hex _))
            (Utf8.wellFormed_of_ascii (ascii_hex _)) hbytes
          obtain ⟨hkey, hmessage⟩ := hN (hex_inj hhex)
          obtain ⟨rfl, htext⟩ :=
            signed_text_inj hms (numeral_decimal sent.val) (Utf8.wellFormed_decode r.body) hwell hmessage
          refine ⟨?_, rfl, htext⟩
          rw [IngestRequest.secret, hcredential, Option.map_some]
          congr 1
          exact Utf8.eq_of_encode_eq (Utf8.wellFormed_of_ascii hsecret.ascii) (ascii_no_replacement hsecret.ascii) hkey

/-- Without U+FFFD in the signed text, no altered request is accepted. -/
theorem altered_rejected (hN : Function.Injective2 N.hmacSha256) {o : GatewaySenderOptions}
    (hsecret : UrlSafe o.ingestKey.secret)
    {sent : TimeValue} {text : JsString} (hwell : Utf8.WellFormed text) (hno : 0xfffd ∉ text) {rows : List IngestKeyRow}
    {nowMs : Nat} {r : IngestRequest} (hr : Altered (signedRequest N o sent text) o.ingestKey.secret r) :
    authenticateIngestRequest N rows nowMs r.input = none := by
  by_contra haccepted
  obtain ⟨hsame, hstamp, hbody⟩ := accepted_signed hN hsecret hwell hr.1 haccepted
  have hbytes : r.body = Utf8.encode text := by
    rw [← hbody]
    exact (Utf8.encode_decode (by rw [hbody]; exact hno)).symm
  rcases hr.2 with h | h | h
  · exact h hbytes
  · exact h hstamp
  · exact h hsame

/-- Sender and gateway agree about an event exactly if its JSON holds no U+FFFD. -/
theorem signed_requests_agree (hN : Function.Injective2 N.hmacSha256) (event : Contracts.NotifyEvent) :
    Agree N event ↔ 0xfffd ∉ event.toJson.stringify := by
  have hwell := Json.wellFormed_stringify event.toJson
  constructor
  · intro hagree hmem
    obtain ⟨bytes, hne, -, hdecode⟩ := Utf8.other_spelling hwell hmem
    -- the first key ever created, and a request with other bytes of the same text
    let es : List IngestKeys.Request := [.create [] [] [] (Vector.replicate _ 0) (Vector.replicate _ 0)]
    let k : IssuedKey := ⟨[], [], IngestKeys.generateIngestKeyId (Vector.replicate _ 0),
      IngestKeys.generateIngestKeySecret (Vector.replicate _ 0)⟩
    have hk : k ∈ (Store.run N es).issued := List.mem_singleton.mpr rfl
    have hkept := IngestKeys.kept_run (N := N) es
    obtain ⟨key, hkey, hall⟩ := hagree es k hk
    obtain ⟨row, -, hrow⟩ := hkept.row hk
    obtain rfl : ⟨k.keyId, k.secret⟩ = key := Option.some.inj ((parse_issued hrow.safe.1 hrow.safe.2).symm.trans hkey)
    let o : GatewaySenderOptions := ⟨[], ⟨k.keyId, k.secret⟩, 0, 0, 0, 0⟩
    obtain ⟨-, hrejected⟩ := hall o ⟨0, by decide⟩ 0 rfl
    let signed := signedRequest N o ⟨0, by decide⟩ event.toJson.stringify
    have hnone := hrejected ⟨.one signed.authorization, .one signed.timestamp, .one signed.signature, bytes⟩
      ⟨rfl, Or.inl hne⟩
    have haccepts := accepts_signed hkept hk o rfl ⟨0, by decide⟩ 0 event.toJson.stringify
    rw [IngestRequest.input, hdecode, haccepts, if_pos ⟨⟨_, List.mem_singleton.mpr rfl, rfl, rfl⟩, by decide⟩] at hnone
    cases hnone
  · intro hno es k hk
    have hkept := IngestKeys.kept_run (N := N) es
    obtain ⟨row, -, hrow⟩ := hkept.row hk
    refine ⟨_, parse_issued hrow.safe.1 hrow.safe.2, fun o sent nowMs ho => ⟨?_, fun r hr => ?_⟩⟩
    · have hbody : (signedRequest N o sent event.toJson.stringify).body = Utf8.encode event.toJson.stringify := rfl
      rw [received, IngestRequest.input, hbody, Utf8.decode_encode hwell, accepts_signed hkept hk o ho]
      split
      · exact iff_of_true rfl ‹_›
      · exact iff_of_false (by simp) ‹_›
    · have hsecret : o.ingestKey.secret = k.secret := by rw [ho]
      have hr : Altered (signedRequest N o sent event.toJson.stringify) o.ingestKey.secret r := hsecret ▸ hr
      exact altered_rejected hN (hsecret ▸ hrow.safe.2) hwell hno hr

/-! ## A body with a U+FFFD -/

/-- A keyed digest without collisions that has a given value at one key and message. -/
def digestWith (key message digest k m : Bytes) : Bytes :=
  if k = key ∧ m = message then digest else 0 :: (k.flatMap (fun b => [1, b]) ++ 0 :: m)

theorem digestWith_inj {key message digest : Bytes} (hdigest : digest.head? ≠ some 0) :
    Function.Injective2 (digestWith key message digest) := by
  intro k k' m m' h
  unfold digestWith at h
  split at h
  · rename_i hk
    split at h
    · rename_i hk'
      exact ⟨hk.1.trans hk'.1.symm, hk.2.trans hk'.2.symm⟩
    · rw [h] at hdigest
      exact absurd rfl hdigest
  · split at h
    · rw [← h] at hdigest
      exact absurd rfl hdigest
    · exact marked_inj (by decide) (List.cons.inj h).2

/-- A heartbeat of a session whose title is U+FFFD. -/
def replacedEvent : Contracts.NotifyEvent where
  eventId := js "00000000-0000-4000-8000-000000000000"
  occurredAt := js "2023-11-14T22:13:20.000Z"
  source := ⟨js "m", js "p", js "/p"⟩
  session := ⟨js "s", [0xfffd]⟩
  payload := .heartbeat .busy 0

/-- The key whose random bytes are all zero. -/
def zeroKey : IssuedKey := ⟨js "k", js "u", js "AAAAAAAAAAAA", List.replicate 43 65⟩

def zeroCreation : IngestKeys.Request :=
  .create (js "u") (js "laptop") (js "k") (Vector.replicate _ 0) (Vector.replicate _ 0)

/-- SHA-256 of the key's secret, and HMAC-SHA256 of the event signed with it at 1700000000000. -/
def zeroCrypto : NodeCrypto where
  sha256 m := if m = Utf8.encode zeroKey.secret then
      [15, 0, 115, 133, 182, 249, 212, 183, 238, 178, 116, 134, 5, 175, 225, 169, 132, 160,
        163, 191, 163, 240, 20, 208, 158, 42, 120, 76, 233, 229, 205, 26]
    else 0 :: m
  hmacSha256 := digestWith (Utf8.encode zeroKey.secret)
    (Utf8.encode (js "1700000000000." ++ replacedEvent.toJson.stringify))
    [219, 171, 69, 29, 202, 47, 95, 103, 182, 154, 77, 47, 71, 23, 75, 44, 102, 95, 77, 101,
      50, 41, 114, 223, 154, 8, 180, 73, 103, 72, 139, 60]

def zeroSender : GatewaySenderOptions := ⟨js "https://hub", ⟨zeroKey.keyId, zeroKey.secret⟩, 5000, 3, 100, 5000⟩

def zeroRequest : HttpRequest :=
  signedRequest zeroCrypto zeroSender ⟨1700000000000, by decide⟩ replacedEvent.toJson.stringify

/-- The request with the title's bytes EF BF BD replaced by F0 9F 98. -/
def respelledRequest : IngestRequest :=
  ⟨.one zeroRequest.authorization, .one zeroRequest.timestamp, .one zeroRequest.signature,
    (zeroRequest.body.takeWhile (· != 0xef)) ++ [0xf0, 0x9f, 0x98] ++ (zeroRequest.body.dropWhile (· != 0xef)).drop 3⟩

/-- Another body of the same length is accepted under the signature. -/
theorem replaced_body_accepted :
    respelledRequest.body ≠ zeroRequest.body ∧ respelledRequest.body.length = zeroRequest.body.length ∧
    authenticateIngestRequest zeroCrypto (Store.run zeroCrypto [zeroCreation]).rows 1700000000000
      respelledRequest.input =
      some ⟨js "k", js "u", js "AAAAAAAAAAAA"⟩ ∧
    ¬ Agree zeroCrypto replacedEvent := by
  have haccepted : authenticateIngestRequest zeroCrypto (Store.run zeroCrypto [zeroCreation]).rows 1700000000000
      respelledRequest.input = some ⟨js "k", js "u", js "AAAAAAAAAAAA"⟩ := by decide +kernel
  have hbody : respelledRequest.body ≠ zeroRequest.body := by decide +kernel
  refine ⟨hbody, by decide +kernel, haccepted, fun hagree => ?_⟩
  obtain ⟨key, hkey, hall⟩ := hagree [zeroCreation] zeroKey (by decide +kernel)
  have hparse : parseIngestKey zeroKey.credential = some zeroSender.ingestKey := by decide +kernel
  obtain rfl : zeroSender.ingestKey = key := Option.some.inj (hparse.symm.trans hkey)
  have hnone := (hall zeroSender ⟨1700000000000, by decide⟩ 1700000000000 rfl).2 respelledRequest ⟨rfl, Or.inl hbody⟩
  rw [haccepted] at hnone
  cases hnone

theorem zero_requests_agree : Agree zeroCrypto replacedEvent ↔ 0xfffd ∉ replacedEvent.toJson.stringify :=
  signed_requests_agree (digestWith_inj (by decide)) replacedEvent

end NotifyHub.Events
