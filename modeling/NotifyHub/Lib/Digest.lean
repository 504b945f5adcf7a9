/-
  NotifyHub.Lib.Digest — SHA-256 and HMAC-SHA256 of node:crypto, in hexadecimal. What they
  compute is a parameter (`NodeCrypto`); a text is hashed as its UTF-8 bytes.
-/

import NotifyHub.Lib.Utf8

namespace NotifyHub

open Base64 (Bytes)

/-- `digest("hex")` -/
def hex (l : Bytes) : JsString := l.flatMap fun b => [hexDigit (b.toNat / 16), hexDigit (b.toNat % 16)]

theorem hex_inj {l m : Bytes} (h : hex l = hex m) : l = m := by
  induction l generalizing m with
  | nil =>
    cases m with
    | nil => rfl
    | cons b m => simp [hex] at h
  | cons a l ih =>
    cases m with
    | nil => simp [hex] at h
    | cons b m =>
      have ha := a.toNat_lt
      have hb := b.toNat_lt
      simp only [hex, List.flatMap_cons, List.cons_append, List.nil_append, List.cons.injEq] at h
      have hhigh := hexDigit_inj (by omega) (by omega) h.1
      have hlow := hexDigit_inj (by omega) (by omega) h.2.1
      have hab : a = b := UInt8.toNat_inj.mp (by omega)
      rw [hab, ih h.2.2]

theorem ascii_hex (l : Bytes) : Ascii (hex l) := by
  intro c hc
  obtain ⟨b, -, hc⟩ := List.mem_flatMap.mp hc
  have hb := b.toNat_lt
  simp only [List.mem_cons, List.not_mem_nil, or_false] at hc
  rcases hc with rfl | rfl
  · exact hexDigit_lt (by omega)
  · exact hexDigit_lt (by omega)

/-- node:crypto's SHA-256 and HMAC-SHA256 (key, then message), on bytes. -/
structure NodeCrypto where
  sha256 : Bytes → Bytes
  hmacSha256 : Bytes → Bytes → Bytes

variable (N : NodeCrypto)

/-- `createHash("sha256").update(value, "utf8").digest("hex")` -/
def sha256Hex (value : JsString) : JsString := hex (N.sha256 (Utf8.encode value))

/-- `createHmac("sha256", key).update(message).digest("hex")` -/
def hmacHex (key message : JsString) : JsString := hex (N.hmacSha256 (Utf8.encode key) (Utf8.encode message))

end NotifyHub
