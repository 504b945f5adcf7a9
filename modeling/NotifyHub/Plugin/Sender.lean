/-
  NotifyHub.Plugin.Sender — `GatewaySender` (packages/plugin/src/sender.ts): the signed
  request of one attempt, what becomes of it, and the wait before the next one.
-/

import NotifyHub.Contracts.Events
import NotifyHub.Lib.Digest
import NotifyHub.Lib.Stringify
import NotifyHub.Plugin.Config

namespace NotifyHub.Plugin

open Base64 (Bytes)

/-- The largest time value of ECMAScript, which `Date.now()` never exceeds. -/
def MAX_TIME_VALUE : Nat := 8640000000000000

/-- What `Date.now()` reads. -/
abbrev TimeValue := { ms : Nat // ms ≤ MAX_TIME_VALUE }

structure GatewaySenderOptions where
  gatewayUrl : JsString
  ingestKey : IngestKey
  timeoutMs : Nat
  maxRetries : Nat
  backoffBaseMs : Nat
  backoffCapMs : Nat

/-- A `POST`, as `fetch` sends it. -/
structure HttpRequest where
  url : JsString
  contentType : JsString
  authorization : JsString
  timestamp : JsString
  signature : JsString
  body : Bytes
  deriving DecidableEq

def DEFAULT_BACKOFF_BASE_MS : Nat := 100

def DEFAULT_BACKOFF_CAP_MS : Nat := 5000

/-- The options index.ts gives the sender; the backoff keeps its defaults. -/
def PluginConfig.senderOptions (c : PluginConfig) : GatewaySenderOptions :=
  ⟨c.gatewayUrl, c.ingestKey, c.httpTimeoutMs, c.maxRetries, DEFAULT_BACKOFF_BASE_MS, DEFAULT_BACKOFF_CAP_MS⟩

def bearer : JsString := js "Bearer "

/-- The request of `tryOnce`. -/
def signedRequest (N : NodeCrypto) (o : GatewaySenderOptions) (now : TimeValue) (rawBody : JsString) : HttpRequest where
  url := o.gatewayUrl ++ js "/v1/events"
  contentType := js "application/json"
  authorization := bearer ++ (o.ingestKey.keyId ++ dot :: o.ingestKey.secret)
  timestamp := decimal now
  signature := hmacHex N o.ingestKey.secret (decimal now ++ dot :: rawBody)
  body := Utf8.encode rawBody

/-- What becomes of an attempt; the details of the errors are left out. -/
inductive AttemptOutcome where
  | ok
  | retryable
  | permanent
  deriving DecidableEq

/-- The outcome of `tryOnce`, by the status of the response; none when `fetch` throws. -/
def attemptOutcome : Option Nat → AttemptOutcome
  | none => .retryable
  | some status =>
    if 200 ≤ status ∧ status < 300 then .ok else if 500 ≤ status then .retryable else .permanent

/-- What `Math.random()` returns: a fraction below one. -/
structure RandomValue where
  num : Nat
  den : Nat
  lt : num < den

variable (o : GatewaySenderOptions)

/-- The bound of `backoffDelay`. -/
def backoffBound (failedAttempts : Nat) : Nat := min o.backoffCapMs (o.backoffBaseMs * 2 ^ failedAttempts)

/-- The timer `sleep` sets for `backoffDelay`: whole milliseconds, one at least. -/
def sleepMs (failedAttempts : Nat) (random : RandomValue) : Nat :=
  max 1 (random.num * backoffBound o failedAttempts / random.den)

/-- The longest of these. -/
def longestSleepMs (failedAttempts : Nat) : Nat := max 1 (backoffBound o failedAttempts - 1)

theorem sleepMs_le (failedAttempts : Nat) (random : RandomValue) :
    sleepMs o failedAttempts random ≤ longestSleepMs o failedAttempts := by
  have hden : 0 < random.den := Nat.zero_lt_of_lt random.lt
  have hdelay : random.num * backoffBound o failedAttempts / random.den ≤ backoffBound o failedAttempts - 1 := by
    by_cases hzero : backoffBound o failedAttempts = 0
    · simp [hzero]
    · have hlt : random.num * backoffBound o failedAttempts / random.den < backoffBound o failedAttempts := by
        rw [Nat.div_lt_iff_lt_mul hden, Nat.mul_comm]
        exact Nat.mul_lt_mul_of_pos_left random.lt (Nat.pos_of_ne_zero hzero)
      omega
  unfold sleepMs longestSleepMs
  omega

/-- Some value of `Math.random()` makes it the longest. -/
theorem sleepMs_longest (failedAttempts : Nat) : ∃ random,
    sleepMs o failedAttempts random = longestSleepMs o failedAttempts := by
  by_cases hzero : backoffBound o failedAttempts = 0
  · exact ⟨⟨0, 1, Nat.one_pos⟩, by simp [sleepMs, longestSleepMs, hzero]⟩
  · have hpos := Nat.pos_of_ne_zero hzero
    refine ⟨⟨backoffBound o failedAttempts - 1, backoffBound o failedAttempts, by omega⟩, ?_⟩
    rw [sleepMs, longestSleepMs, Nat.mul_div_cancel _ hpos]

end NotifyHub.Plugin
