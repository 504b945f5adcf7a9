/-
  NotifyHub.Plugin.SafeLogger — what leaves the plugin as text: the entries
  `createSafeLogger` hands its sink (packages/plugin/src/log.ts), and the errors
  `GatewaySender.send` throws (packages/plugin/src/sender.ts).

  Both replace the credential, its secret and its key id, one after the other, by
  `[redacted]`; the sender also replaces the body it sent. An issued key id or secret is a
  base64url text of twelve characters or more. The brackets are no such characters, so no
  replacement makes an occurrence out of its surroundings, nor does a cut, and every word
  of the fixed texts is shorter. Hence no entry and no error contains the secret or the key id
  (`logs_hide_key`).
-/

import NotifyHub.Auth.IngestKeys
import NotifyHub.Lib.Replace
import NotifyHub.Plugin.MessageCache
import NotifyHub.Plugin.Sender
import Mathlib.Data.Nat.Digits.Lemmas

namespace NotifyHub.Plugin.Logs

open Base64 (isUrlSafe encodeUrl)
open Replace (Glue replaceAll replaceEach runsBelow)

/-! ## Redaction -/

/-- `[redacted]` -/
def REDACTED : Glue UInt16 := ⟨91, js "redacted", 93⟩

example : REDACTED.text = js "[redacted]" := by decide

/-- Scrub every configured secret from `text`. -/
def redact (text : JsString) (secrets : List JsString) : JsString := replaceEach REDACTED text secrets

def credential (key : IngestKey) : JsString := key.keyId ++ dot :: key.secret

/-- The secrets index.ts configures. -/
def loggedSecrets (key : IngestKey) : List JsString := [credential key, key.secret, key.keyId]

/-! ## The logger -/

inductive LogLevel where
  | debug
  | info
  | warn
  | error
  deriving DecidableEq

/-- The values that reach the log: strings, finite numbers, booleans, null. -/
inductive Primitive where
  | string (text : JsString)
  | number (mantissa exponent : Int)
  | boolean (b : Bool)
  | null
  deriving DecidableEq

/-- A context value; `NaN` and the infinities are `nonFinite`, `other` is an object, a
    function, `undefined`, a symbol or a bigint. -/
inductive ContextValue where
  | primitive (value : Primitive)
  | nonFinite
  | other
  deriving DecidableEq

/-- The context of a call; `hostile` if reading it throws, by a getter or a proxy. -/
inductive Context where
  | absent
  | hostile
  | entries (entries : List (JsString × ContextValue))
  deriving DecidableEq

structure LogEntry where
  service : JsString
  level : LogLevel
  message : JsString
  extra : Option (List (JsString × Primitive))
  deriving DecidableEq

structure SafeLoggerOptions where
  service : Option JsString
  secrets : Option (List JsString)
  maxMessageLength : Option Nat
  maxContextValueLength : Option Nat

def DEFAULT_SERVICE : JsString := js "opencode-notify"

def DEFAULT_MAX_MESSAGE_LENGTH : Nat := 500

def DEFAULT_MAX_CONTEXT_VALUE_LENGTH : Nat := 200

/-- Truncate to `max` code points; the function of message-cache.ts, written again. -/
def truncateCodePoints (text : JsString) (max : Nat) : JsString := Plugin.truncateCodePoints text max

def sanitizeValue (secrets : List JsString) (maxValueLength : Nat) : ContextValue → Option Primitive
  | .primitive (.string text) => some (.string (truncateCodePoints (redact text secrets) maxValueLength))
  | .primitive value => some value
  | .nonFinite => none
  | .other => none

/-- Assigning a primitive to `__proto__` makes no property. -/
def sanitizeContext (context : List (JsString × ContextValue)) (secrets : List JsString) (maxValueLength : Nat) :
    List (JsString × Primitive) :=
  context.filterMap fun (key, value) =>
    if key = js "__proto__" then none else (sanitizeValue secrets maxValueLength value).map (key, ·)

variable (o : SafeLoggerOptions)

def SafeLoggerOptions.configured : List JsString := o.secrets.getD []

/-- The entry `emit` hands the sink, if it comes to that. -/
def emit (level : LogLevel) (message : JsString) (context : Context) : Option LogEntry :=
  let entry : LogEntry :=
    { service := o.service.getD DEFAULT_SERVICE
      level := level
      message := truncateCodePoints (redact message o.configured) (o.maxMessageLength.getD DEFAULT_MAX_MESSAGE_LENGTH)
      extra := none }
  match context with
  | .absent => some entry
  -- swallowed by the `catch`
  | .hostile => none
  | .entries context =>
    let extra := sanitizeContext context o.configured (o.maxContextValueLength.getD DEFAULT_MAX_CONTEXT_VALUE_LENGTH)
    some (if 0 < extra.length then { entry with extra := some extra } else entry)

/-! ## The sender's errors -/

/-- A value thrown by `fetch`: an `Error`, or another value with its `String(error)`. -/
inductive Thrown where
  | error (name message : JsString)
  | other (text : JsString)

/-- The status of a response. -/
abbrev HttpStatus := { n : Nat // n ≤ 999 }

/-- How `fetch` ends. -/
inductive Fetched where
  | response (status : HttpStatus)
  | throws (thrown : Thrown)

def Fetched.status : Fetched → Option Nat
  | .response status => some status
  | .throws _ => none

/-- The outcome of an attempt, with its detail. -/
inductive Attempted where
  | ok
  | retryable (detail : JsString)
  | permanent (detail : JsString)

def Attempted.outcome : Attempted → AttemptOutcome
  | .ok => .ok
  | .retryable _ => .retryable
  | .permanent _ => .permanent

variable (g : GatewaySenderOptions) (rawBody : JsString)

/-- `redact` of the sender -/
def redactSent (text : JsString) : JsString :=
  replaceEach REDACTED text [credential g.ingestKey, g.ingestKey.secret, g.ingestKey.keyId, rawBody]

def describe : Thrown → JsString
  | .error name message => redactSent g rawBody (name ++ js ": " ++ message)
  | .other text => redactSent g rawBody text

def httpDetail (status : Nat) : JsString := js "HTTP " ++ decimal status

def tryOnce : Fetched → Attempted
  | .throws thrown => .retryable (js "network error (" ++ describe g rawBody thrown ++ js ")")
  | .response status =>
    if 200 ≤ status.val ∧ status.val < 300 then .ok
    else if 500 ≤ status.val then .retryable (httpDetail status)
    else .permanent (httpDetail status)

/-- With its detail left out, the outcome is the one by the status. -/
theorem tryOnce_outcome (f : Fetched) : (tryOnce g rawBody f).outcome = attemptOutcome f.status := by
  cases f with
  | throws thrown => rfl
  | response status =>
    simp only [tryOnce, Fetched.status, attemptOutcome]
    split
    · rfl
    · split <;> rfl

def rejected (detail : JsString) : JsString := js "gateway event delivery rejected: " ++ detail

def failedAfter (lastDetail : JsString) : JsString :=
  js "gateway event delivery failed after " ++ decimal (g.maxRetries + 1) ++ js " attempts: " ++ lastDetail

/-- The attempts from `attempt` on, `left` of them; the message of the error where it throws. -/
def attempts (fetch : Nat → Fetched) : Nat → Nat → JsString → Except JsString Unit
  | 0, _, lastDetail => .error (failedAfter g lastDetail)
  | left + 1, attempt, _ =>
    match tryOnce g rawBody (fetch attempt) with
    | .ok => .ok ()
    | .permanent detail => .error (rejected detail)
    | .retryable detail => attempts fetch left (attempt + 1) detail

/-- `send` of an event whose JSON text is `rawBody`; `fetch` says how each attempt ends. -/
def send (fetch : Nat → Fetched) : Except JsString Unit :=
  attempts g rawBody fetch (g.maxRetries + 1) 0 (js "no attempt made")

/-! ## Issued keys -/

/-- The form of the credentials the gateway issues. -/
structure Issued (key : IngestKey) : Prop where
  keyIdLength : key.keyId.length = 12
  keyIdSafe : ∀ c ∈ key.keyId, isUrlSafe c = true
  secretLength : key.secret.length = 43
  secretSafe : ∀ c ∈ key.secret, isUrlSafe c = true

theorem issued_generate (keyIdBytes : Vector UInt8 IngestKeys.INGEST_KEY_ID_BYTES)
    (secretBytes : Vector UInt8 IngestKeys.INGEST_KEY_SECRET_BYTES) :
    Issued ⟨IngestKeys.generateIngestKeyId keyIdBytes, IngestKeys.generateIngestKeySecret secretBytes⟩ where
  keyIdLength := by
    rw [IngestKeys.generateIngestKeyId, Base64.length_encodeUrl, Vector.length_toList]
    rfl
  keyIdSafe := Base64.isUrlSafe_encodeUrl _
  secretLength := by
    rw [IngestKeys.generateIngestKeySecret, Base64.length_encodeUrl, Vector.length_toList]
    rfl
  secretSafe := Base64.isUrlSafe_encodeUrl _

/-- The text contains the secret or the key id. -/
def Reveals (key : IngestKey) (text : JsString) : Prop := key.secret <:+: text ∨ key.keyId <:+: text

instance (key : IngestKey) (text : JsString) : Decidable (Reveals key text) := inferInstanceAs (Decidable (_ ∨ _))

/-- What the key id and the secret have in common. -/
structure Word (w : JsString) : Prop where
  length : 12 ≤ w.length
  safe : ∀ c ∈ w, isUrlSafe c = true

variable {key : IngestKey} {w text : JsString} {g o rawBody}

theorem Issued.keyIdWord (h : Issued key) : Word key.keyId := ⟨h.keyIdLength ▸ Nat.le_refl 12, h.keyIdSafe⟩

theorem Issued.secretWord (h : Issued key) : Word key.secret := ⟨by rw [h.secretLength]; decide, h.secretSafe⟩

theorem not_reveals (hissued : Issued key) (h : ∀ w, Word w → w ∈ loggedSecrets key → ¬ w <:+: text) :
    ¬ Reveals key text := by
  rintro (hsecret | hkeyId)
  · exact h key.secret hissued.secretWord (by simp [loggedSecrets]) hsecret
  · exact h key.keyId hissued.keyIdWord (by simp [loggedSecrets]) hkeyId

namespace Word

theorem ne_nil (h : Word w) : w ≠ [] := by
  rintro rfl
  exact absurd h.length (by decide)

theorem not_mem (h : Word w) {c : UInt16} (hc : isUrlSafe c = false) : c ∉ w := by
  intro hmem
  rw [h.safe c hmem] at hc
  cases hc

/-- A text whose words are shorter does not contain it. -/
theorem not_infix (h : Word w) (hruns : runsBelow isUrlSafe 12 0 text = true) : ¬ w <:+: text :=
  Replace.not_infix_of_runsBelow h.length h.safe [] text hruns

theorem spares (h : Word w) : REDACTED.Spares w where
  opening := h.not_mem (by decide)
  closing := h.not_mem (by decide)
  inner := h.not_infix (by decide)

theorem not_infix_redact (h : Word w) {secrets : List JsString} (hmem : w ∈ secrets) : ¬ w <:+: redact text secrets :=
  Replace.not_infix_replaceEach h.spares h.ne_nil hmem

/-- Two texts with a character between them that is no letter. -/
theorem not_infix_cons (h : Word w) (before : JsString) (c : UInt16) {after : JsString} (hc : isUrlSafe c = false)
    (hbefore : ¬ w <:+: before) (hafter : ¬ w <:+: after) : ¬ w <:+: before ++ c :: after := fun hin =>
  (Replace.infix_append_cons (h.not_mem hc) hin).elim hbefore hafter

/-- What ends in such a character, with another text after it. -/
theorem not_infix_append (h : Word w) {before after : JsString} (hlast : before.getLast?.any (!isUrlSafe ·) = true)
    (hbefore : ¬ w <:+: before) (hafter : ¬ w <:+: after) : ¬ w <:+: before ++ after := by
  obtain ⟨c, hc, hmark⟩ := (Option.any_eq_true _ _).mp hlast
  obtain ⟨init, rfl⟩ := List.getLast?_eq_some_iff.mp hc
  have hinit : ¬ w <:+: init := fun hin => hbefore (List.infix_append_of_infix_left hin)
  rw [List.append_assoc, List.singleton_append]
  exact h.not_infix_cons _ _ (by simpa using hmark) hinit hafter

theorem not_infix_decimal (h : Word w) {n : Nat} (hn : n ≤ 999) : ¬ w <:+: decimal n := by
  intro hin
  have hlen : (decimal n).length ≤ 3 := by
    unfold decimal
    split
    · decide
    · rw [List.length_map, List.length_reverse, Nat.digits_length_le_iff (by decide)]
      omega
  have := h.length
  have := hin.length_le
  omega

end Word

/-! ## Nothing is revealed -/

theorem truncateCodePoints_cuts (text : JsString) (max : Nat) : truncateCodePoints text max <+: text := by
  unfold truncateCodePoints Plugin.truncateCodePoints
  split
  · exact List.prefix_rfl
  · have hcut : ((codePoints text).take max).flatten <+: (codePoints text).flatten :=
      ⟨((codePoints text).drop max).flatten, by rw [← List.flatten_append, List.take_append_drop]⟩
    rwa [codePoints_flatten] at hcut

/-- A configured word is in no text that is redacted and then cut. -/
theorem Word.not_infix_bounded (h : Word w) {secrets : List JsString} (hmem : w ∈ secrets) (max : Nat) :
    ¬ w <:+: truncateCodePoints (redact text secrets) max := fun hin =>
  h.not_infix_redact hmem (hin.trans (truncateCodePoints_cuts _ max).isInfix)

/-- The values `emit` hands on are primitives whose text is redacted and cut. -/
theorem mem_sanitizeContext {context : List (JsString × ContextValue)} {secrets : List JsString}
    {max : Nat} {k : JsString}
    (h : (k, .string text) ∈ sanitizeContext context secrets max) :
    ∃ raw, (k, .primitive (.string raw)) ∈ context ∧ text = truncateCodePoints (redact raw secrets) max := by
  obtain ⟨⟨key, value⟩, hmem, hvalue⟩ := List.mem_filterMap.mp h
  dsimp only at hvalue
  split at hvalue
  · cases hvalue
  · obtain ⟨p, hp, hkp⟩ := Option.map_eq_some_iff.mp hvalue
    cases hkp
    match value, hp with
    | .primitive (.string raw), hp =>
      simp only [sanitizeValue, Option.some.injEq, Primitive.string.injEq] at hp
      exact ⟨raw, hmem, hp.symm⟩

/-- The texts of an entry: its message, and the texts among its context values. -/
def LogEntry.texts (entry : LogEntry) : List JsString :=
  entry.message :: (entry.extra.getD []).filterMap fun (_, value) =>
    match value with
    | .string text => some text
    | _ => none

/-- Each is a text of the call, redacted and cut. -/
theorem mem_texts {level : LogLevel} {message : JsString} {context : Context} {entry : LogEntry}
    (h : emit o level message context = some entry) (htext : text ∈ entry.texts) :
    ∃ raw max, text = truncateCodePoints (redact raw o.configured) max := by
  rcases List.mem_cons.mp htext with rfl | hvalue
  · cases context with
    | absent =>
      cases h
      exact ⟨message, _, rfl⟩
    | hostile => cases h
    | entries context =>
      cases h
      refine ⟨message, o.maxMessageLength.getD DEFAULT_MAX_MESSAGE_LENGTH, ?_⟩
      split <;> rfl
  · obtain ⟨⟨k, value⟩, hmem, hv⟩ := List.mem_filterMap.mp hvalue
    cases context with
    | absent =>
      cases h
      cases hmem
    | hostile => cases h
    | entries context =>
      cases h
      split at hmem
      · match value, hv with
        | .string _, rfl =>
          obtain ⟨raw, -, hraw⟩ := mem_sanitizeContext hmem
          exact ⟨raw, _, hraw⟩
      · cases hmem

theorem Word.not_infix_describe (h : Word w) (hmem : w ∈ loggedSecrets g.ingestKey) (thrown : Thrown) :
    ¬ w <:+: describe g rawBody thrown := by
  have hmem' : w ∈ [credential g.ingestKey, g.ingestKey.secret, g.ingestKey.keyId, rawBody] := by
    simp only [loggedSecrets, List.mem_cons, List.not_mem_nil, or_false] at hmem ⊢
    rcases hmem with h | h | h <;> simp [h]
  cases thrown with
  | error name message => exact Replace.not_infix_replaceEach h.spares h.ne_nil hmem'
  | other text => exact Replace.not_infix_replaceEach h.spares h.ne_nil hmem'

theorem Word.not_infix_httpDetail (h : Word w) (status : HttpStatus) : ¬ w <:+: httpDetail status :=
  h.not_infix_append (by decide) (h.not_infix (by decide)) (h.not_infix_decimal status.property)

/-- The detail of an attempt that failed. -/
def Attempted.detail : Attempted → JsString
  | .ok => []
  | .retryable detail => detail
  | .permanent detail => detail

theorem Word.not_infix_detail (h : Word w) (hmem : w ∈ loggedSecrets g.ingestKey) (f : Fetched) :
    ¬ w <:+: (tryOnce g rawBody f).detail := by
  cases f with
  | throws thrown =>
    have hclosed : ¬ w <:+: describe g rawBody thrown ++ js ")" :=
      h.not_infix_cons _ _ (by decide) (h.not_infix_describe hmem thrown) (h.not_infix (by decide))
    rw [tryOnce, Attempted.detail, List.append_assoc]
    exact h.not_infix_append (by decide) (h.not_infix (by decide)) hclosed
  | response status =>
    have hstatus := h.not_infix_httpDetail status
    have hnil : ¬ w <:+: [] := h.not_infix (by decide)
    rw [tryOnce]
    split_ifs <;> assumption

theorem Word.not_infix_rejected (h : Word w) {detail : JsString} (hdetail : ¬ w <:+: detail) :
    ¬ w <:+: rejected detail :=
  h.not_infix_append (by decide) (h.not_infix (by decide)) hdetail

theorem Word.not_infix_failedAfter (h : Word w) (hretries : g.maxRetries ≤ 100) {lastDetail : JsString}
    (hlast : ¬ w <:+: lastDetail) : ¬ w <:+: failedAfter g lastDetail := by
  have hcount : ¬ w <:+: decimal (g.maxRetries + 1) := h.not_infix_decimal (by omega)
  have hlabel : ¬ w <:+: js "attempts: " ++ lastDetail := h.not_infix_append (by decide) (h.not_infix (by decide)) hlast
  have hcounted := h.not_infix_cons _ 32 (by decide) hcount hlabel
  rw [failedAfter, List.append_assoc, List.append_assoc]
  exact h.not_infix_append (by decide) (h.not_infix (by decide)) hcounted

/-- Attempt by attempt: the detail carried along is clear of the word, and so is the error. -/
theorem Word.not_infix_attempts (h : Word w) (hmem : w ∈ loggedSecrets g.ingestKey) (hretries : g.maxRetries ≤ 100)
    {fetch : Nat → Fetched} {left attempt : Nat} {lastDetail message : JsString} (hlast : ¬ w <:+: lastDetail)
    (herror : attempts g rawBody fetch left attempt lastDetail = .error message) : ¬ w <:+: message := by
  induction left generalizing attempt lastDetail with
  | zero =>
    cases herror
    exact h.not_infix_failedAfter hretries hlast
  | succ left ih =>
    have hdetail : ¬ w <:+: (tryOnce g rawBody (fetch attempt)).detail := h.not_infix_detail hmem (fetch attempt)
    unfold attempts at herror
    cases hout : tryOnce g rawBody (fetch attempt) with
    | ok => simp [hout] at herror
    | permanent detail =>
      rw [hout] at herror hdetail
      cases herror
      exact h.not_infix_rejected hdetail
    | retryable detail =>
      rw [hout] at herror hdetail
      exact ih hdetail herror

/-- The logger is given the credential, the secret and the key id, among others and in any order. -/
def Configured (o : SafeLoggerOptions) (key : IngestKey) : Prop := ∀ s ∈ loggedSecrets key, s ∈ o.configured

/-- Neither an entry of the logger nor an error of the sender contains the secret or the key
    id of an issued credential; `loadConfig` bounds the retries by 100. -/
theorem logs_hide_key (hissued : Issued key) :
    (∀ o level message context entry, Configured o key → emit o level message context = some entry →
      ∀ text ∈ entry.texts, ¬ Reveals key text) ∧
    ∀ (g : GatewaySenderOptions) rawBody fetch message, g.ingestKey = key →
      g.maxRetries ≤ (NUMERIC_LIMITS .NOTIFY_MAX_RETRIES).max → send g rawBody fetch = .error message →
        ¬ Reveals key message := by
  constructor
  · intro o level message context entry hconfigured hentry text htext
    obtain ⟨raw, max, rfl⟩ := mem_texts hentry htext
    exact not_reveals hissued fun w hw hmem => hw.not_infix_bounded (hconfigured w hmem) max
  · intro g rawBody fetch message hkey hretries herror
    subst hkey
    exact not_reveals hissued fun w hw hmem => hw.not_infix_attempts hmem hretries (hw.not_infix (by decide)) herror

/-- The key whose random bytes are all zero. -/
def zeroIngestKey : IngestKey := ⟨js "AAAAAAAAAAAA", List.replicate 43 65⟩

def zeroLogger : SafeLoggerOptions := ⟨none, some (loggedSecrets zeroIngestKey), none, none⟩

def zeroOptions : GatewaySenderOptions := ⟨js "https://hub", zeroIngestKey, 5000, 0, 100, 5000⟩

/-- A text with the credential in it, and in what `fetch` throws. -/
theorem zero_key_hidden :
    (∀ entry, emit zeroLogger .warn (js "sent " ++ credential zeroIngestKey)
        (.entries [(js "key", .primitive (.string zeroIngestKey.keyId))]) = some entry →
      entry.texts = [js "sent [redacted]", js "[redacted]"] ∧ ∀ text ∈ entry.texts, ¬ Reveals zeroIngestKey text) ∧
    ∀ message, send zeroOptions (js "{}") (fun _ => .throws (.error (js "TypeError") zeroIngestKey.secret)) =
      .error message →
      message = js "gateway event delivery failed after 1 attempts: network error (TypeError: [redacted])" ∧
        ¬ Reveals zeroIngestKey message := by
  have hissued : Issued zeroIngestKey :=
    ⟨rfl, List.all_eq_true.mp (by decide), rfl, List.all_eq_true.mp (by decide)⟩
  have hconfigured : Configured zeroLogger zeroIngestKey := fun s hs => hs
  refine ⟨fun entry hentry => ⟨?_, (logs_hide_key hissued).1 _ _ _ _ _ hconfigured hentry⟩,
    fun message herror => ⟨?_, (logs_hide_key hissued).2 _ _ _ _ rfl (by decide) herror⟩⟩
  · cases hentry
    decide +kernel
  · cases herror
    decide +kernel

end NotifyHub.Plugin.Logs
