/-
  NotifyHub.Plugin.Config — the ingest credential, the numeric settings and `loadConfig`
  (packages/plugin/src/config.ts).
-/

import NotifyHub.Lib.Base64
import NotifyHub.Lib.Json

namespace NotifyHub.Plugin

open Base64 (isUrlSafe)

structure IngestKey where
  keyId : JsString
  secret : JsString
  deriving DecidableEq

/-- `/^[A-Za-z0-9_-]+$/.test(s)` -/
def base64UrlPattern (s : JsString) : Bool := s != [] && s.all isUrlSafe

def parseIngestKey (raw : JsString) : Option IngestKey :=
  match raw.idxOf? dot with
  | none => none
  | some i =>
    if i = 0 ∨ i + 1 = raw.length then none
    else if base64UrlPattern (raw.take i) then some ⟨raw.take i, raw.drop (i + 1)⟩ else none

/-! ## Numeric settings -/

inductive NumericSetting where
  | NOTIFY_QUEUE_CAPACITY
  | NOTIFY_HEARTBEAT_MS
  | NOTIFY_IDLE_DEBOUNCE_MS
  | NOTIFY_HTTP_TIMEOUT_MS
  | NOTIFY_MAX_RETRIES
  deriving DecidableEq

structure NumericLimit where
  defaultValue : Nat
  max : Nat

def NUMERIC_LIMITS : NumericSetting → NumericLimit
  | .NOTIFY_QUEUE_CAPACITY => ⟨100, 10000⟩
  | .NOTIFY_HEARTBEAT_MS => ⟨60000, 3600000⟩
  | .NOTIFY_IDLE_DEBOUNCE_MS => ⟨15000, 600000⟩
  | .NOTIFY_HTTP_TIMEOUT_MS => ⟨5000, 300000⟩
  | .NOTIFY_MAX_RETRIES => ⟨3, 100⟩

/-- `parseNumericOverride`, of the value of the variable. -/
def parseNumericOverride (raw : Option JsString) (name : NumericSetting) : Option Nat :=
  match raw.map trim with
  | none => some (NUMERIC_LIMITS name).defaultValue
  | some trimmed =>
    if trimmed = [] then some (NUMERIC_LIMITS name).defaultValue
    else match numeral? trimmed with
      | none => none
      | some value => if value < 1 ∨ (NUMERIC_LIMITS name).max < value then none else some value

/-- A setting, default or override, is positive and within its limit. -/
theorem parseNumericOverride_bounds {raw : Option JsString} {name : NumericSetting} {n : Nat}
    (h : parseNumericOverride raw name = some n) : 1 ≤ n ∧ n ≤ (NUMERIC_LIMITS name).max := by
  have hdefault : 1 ≤ (NUMERIC_LIMITS name).defaultValue ∧
    (NUMERIC_LIMITS name).defaultValue ≤ (NUMERIC_LIMITS name).max := by
    cases name <;> decide
  unfold parseNumericOverride at h
  split at h
  · cases h
    exact hdefault
  · split at h
    · cases h
      exact hdefault
    · split at h
      · cases h
      · split at h
        · cases h
        · rename_i hn
          cases h
          omega

/-! ## The configuration -/

/-- The parts of a `URL` that are read, and its serialization. -/
structure ParsedUrl where
  username : JsString
  password : JsString
  search : JsString
  hash : JsString
  protocol : JsString
  hostname : JsString
  href : JsString

/-- What the loader takes from Node. -/
structure ConfigPlatform where
  /-- `new URL(raw)`; none when it throws. -/
  parseUrl : JsString → Option ParsedUrl
  /-- `JSON.parse` -/
  parseJson : JsString → Option Json
  hostname : JsString
  isAbsolute : JsString → Bool
  normalize : JsString → JsString

structure PluginConfig where
  gatewayUrl : JsString
  ingestKey : IngestKey
  machine : JsString
  remoteDirectories : List JsString
  includeSummary : Bool
  queueCapacity : Nat
  heartbeatMs : Nat
  idleDebounceMs : Nat
  httpTimeoutMs : Nat
  maxRetries : Nat
  deriving DecidableEq

def HTTP_LOOPBACK_HOSTS : List JsString := [js "localhost", js "127.0.0.1", js "[::1]"]

/-- `replace(/\/+$/, "")` -/
def withoutTrailingSlashes (s : JsString) : JsString := (s.reverse.dropWhile (· == 47)).reverse

variable (P : ConfigPlatform)

def parseGatewayUrl (raw : JsString) : Option JsString :=
  match P.parseUrl raw with
  | none => none
  | some url =>
    if url.username ≠ [] ∨ url.password ≠ [] then none
    else if url.search ≠ [] ∨ url.hash ≠ [] then none
    else if url.protocol = js "http:" then
      if url.hostname ∈ HTTP_LOOPBACK_HOSTS then some (withoutTrailingSlashes url.href) else none
    else if url.protocol = js "https:" then some (withoutTrailingSlashes url.href)
    else none

/-- A directory of the list: a string without NUL, absolute. -/
def remoteDirectory : Json → Option JsString
  | .str directory => if (0 : UInt16) ∈ directory ∨
      P.isAbsolute directory = false then none else some (P.normalize directory)
  | _ => none

def remoteDirectories (raw : Option JsString) : Option (List JsString) :=
  let trimmed := (raw.map trim).getD []
  match P.parseJson (if trimmed = [] then js "[]" else trimmed) with
  | some (.arr directories) => directories.mapM (remoteDirectory P)
  | _ => none

/-- The value of a variable, trimmed, unless that is empty. -/
def setting (raw : Option JsString) : Option JsString := (raw.map trim).filter (· ≠ [])

def includeSummary (raw : Option JsString) : Option Bool :=
  match setting raw with
  | none => some false
  | some value => if value = js "true" then some true else if value = js "false" then some false else none

/-- The credential, both parts of the form the gateway issues. -/
def issuedKey (raw : JsString) : Option IngestKey :=
  (parseIngestKey raw).filter fun key => base64UrlPattern key.keyId && base64UrlPattern key.secret

def loadConfig (env : String → Option JsString) : Option PluginConfig := do
  let gatewayUrl ← parseGatewayUrl P (← setting (env "NOTIFY_GATEWAY_URL"))
  let ingestKey ← issuedKey (← setting (env "NOTIFY_INGEST_KEY"))
  let machine := (setting (env "NOTIFY_MACHINE")).getD P.hostname
  let remoteDirectories ← remoteDirectories P (env "NOTIFY_REMOTE_DIRECTORIES")
  let includeSummary ← includeSummary (env "NOTIFY_INCLUDE_SUMMARY")
  let queueCapacity ← parseNumericOverride (env "NOTIFY_QUEUE_CAPACITY") .NOTIFY_QUEUE_CAPACITY
  let heartbeatMs ← parseNumericOverride (env "NOTIFY_HEARTBEAT_MS") .NOTIFY_HEARTBEAT_MS
  let idleDebounceMs ← parseNumericOverride (env "NOTIFY_IDLE_DEBOUNCE_MS") .NOTIFY_IDLE_DEBOUNCE_MS
  let httpTimeoutMs ← parseNumericOverride (env "NOTIFY_HTTP_TIMEOUT_MS") .NOTIFY_HTTP_TIMEOUT_MS
  let maxRetries ← parseNumericOverride (env "NOTIFY_MAX_RETRIES") .NOTIFY_MAX_RETRIES
  return ⟨gatewayUrl, ingestKey, machine, remoteDirectories, includeSummary, queueCapacity, heartbeatMs, idleDebounceMs,
    httpTimeoutMs, maxRetries⟩

variable {P}

/-- What is loaded keeps to the limits of the settings. -/
theorem loadConfig_limits {env : String → Option JsString} {config : PluginConfig}
    (h : loadConfig P env = some config) :
    1 ≤ config.httpTimeoutMs ∧ config.httpTimeoutMs ≤ 300000 ∧ 1 ≤ config.maxRetries ∧ config.maxRetries ≤ 100 := by
  unfold loadConfig at h
  simp only [Option.bind_eq_bind, Option.bind_eq_some_iff, Option.pure_def] at h
  obtain ⟨_, -, _, -, _, -, _, -, _, -, _, -, _, -, _, -, _, -, timeoutMs, htimeout, retries, hretries, hconfig⟩ := h
  cases hconfig
  obtain ⟨htimeout1, htimeout2⟩ := parseNumericOverride_bounds htimeout
  obtain ⟨hretries1, hretries2⟩ := parseNumericOverride_bounds hretries
  exact ⟨htimeout1, htimeout2, hretries1, hretries2⟩

end NotifyHub.Plugin
