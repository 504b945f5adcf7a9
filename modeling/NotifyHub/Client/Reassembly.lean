/-
  NotifyHub.Client.Reassembly — a browser response is put together from the frames of its
  own request.

  - `reassembled`: in every run, whatever the order in which frames, writes, cancellations
    and losses come. What a response has received is told from the run alone (`own`).
  - `early_chunk_decides`: a chunk that comes before the start makes the response a 502
    without headers, whatever the start says afterwards.
-/

import Mathlib.Data.List.Infix
import NotifyHub.Client.TunnelProgress

namespace NotifyHub.Client

open Control
open Base64 (Bytes)

/-! ## Request ids -/

def hexValue (c : UInt16) : Nat := if c < 58 then c.toNat - 48 else c.toNat - 87

theorem hexValue_hexDigit : ∀ d < 16, hexValue (hexDigit d) = d := by decide

theorem map_hexValue {l : List Nat} (h : ∀ d ∈ l, d < 16) : (l.map hexDigit).map hexValue = l := by
  have hid : ∀ d ∈ l, (hexValue ∘ hexDigit) d = id d := fun d hd => hexValue_hexDigit d (h d hd)
  rw [List.map_map, List.map_congr_left hid, List.map_id]

/-- The places of a number, with zeros before them, are those of one number only. -/
theorem digits_padded_inj {a b j k : Nat}
    (h : List.replicate j 0 ++ (Nat.digits 16 a).reverse = List.replicate k 0 ++ (Nat.digits 16 b).reverse) :
    a = b := by
  have hvalue : ∀ n m : Nat, Nat.ofDigits 16 (List.replicate m 0 ++ (Nat.digits 16 n).reverse).reverse = n := by
    intro n m
    rw [List.reverse_append, List.reverse_reverse, List.reverse_replicate, Nat.ofDigits_append_replicate_zero,
      Nat.ofDigits_digits]
  rw [← hvalue a j, h, hvalue]

theorem requestId_inj {a b : Nat} (h : requestId a = requestId b) : a = b := by
  have hdigits : ∀ n k : Nat, ∀ d ∈ List.replicate k 0 ++ (Nat.digits 16 n).reverse, d < 16 := by
    intro n k d hd
    rcases List.mem_append.mp hd with hd | hd
    · rw [List.eq_of_mem_replicate hd]
      decide
    · exact Nat.digits_lt_base (by decide) (List.mem_reverse.mp hd)
  have hspell : ∀ n : Nat, requestId n = js "00000000-0000-4000-8000-" ++
      (List.replicate (12 - ((Nat.digits 16 n).reverse.map hexDigit).length) 0 ++ (Nat.digits 16 n).reverse).map
        hexDigit := by
    intro n
    rw [requestId, List.append_assoc, List.map_append, List.map_replicate]
    rfl
  rw [hspell, hspell, List.append_cancel_left_eq] at h
  have hvalues := congrArg (List.map hexValue) h
  rw [map_hexValue (hdigits a _), map_hexValue (hdigits b _)] at hvalues
  exact digits_padded_inj hvalues

/-! ## One response -/

namespace TunnelResponse

variable (toLowerCase : JsString → JsString) (accepts : JsString × JsString → Bool)

/-- The bytes of a chunk. -/
def chunk : WebUiResponsePart → Option Bytes
  | .chunk body => Base64.decode body
  | _ => none

/-- What gives a response its status. -/
def opens : WebUiResponsePart → Bool
  | .start .. => true
  | .chunk body => (Base64.decode body).isSome
  | .end => false

/-- The headers of a start frame that become the browser's. -/
def kept (headers : List (JsString × List JsString)) : List (JsString × JsString) :=
  ((headers.filter fun h =>
    !([js "connection", js "transfer-encoding", js "content-length"].contains (toLowerCase h.1))).flatMap
    fun h => h.2.map (h.1, ·)).takeWhile accepts

/-- The status and the headers: of the first start, unless bytes came before it. -/
def head (parts : List WebUiResponsePart) (ended : Bool) : Nat × List (JsString × JsString) :=
  match parts.find? opens with
  | some (.start status headers) => (status, kept toLowerCase accepts headers)
  | some _ => (502, [])
  | none => (if ended then 502 else 200, [])

theorem head_opened {parts : List WebUiResponsePart} (h : (parts.find? opens).isSome = true) (ended ended' : Bool) :
    head toLowerCase accepts parts ended = head toLowerCase accepts parts ended' := by
  obtain ⟨part, hpart⟩ := Option.isSome_iff_exists.mp h
  rw [head, head, hpart]
  cases part <;> rfl

/-- A response is what its parts make of it, but for the closing. -/
structure Reassembled (r : TunnelResponse) : Prop where
  started : r.response.started = (r.received.find? opens).isSome
  head : (r.response.statusCode, r.response.headers) = head toLowerCase accepts r.received r.response.ended
  writes : r.response.writes = r.received.filterMap chunk
  written : r.written ≤ r.response.writes.length
  closing : r.ending + r.closes = r.response.ended.toNat
  closed : r.closes ≠ 0 → r.settled = true

structure Faithful (r : TunnelResponse) : Prop extends Reassembled toLowerCase accepts r where
  waits : r.settled = true → r.ending = 0

variable {toLowerCase accepts} {r : TunnelResponse}

@[simp] theorem settle_received (r : TunnelResponse) : r.settle.received = r.received := by
  unfold settle
  split <;> rfl

@[simp] theorem settle_ended (r : TunnelResponse) : r.settle.response.ended = r.response.ended := by
  unfold settle
  split <;> rfl

@[simp] theorem end_received (r : TunnelResponse) : r.end.received = r.received := by
  unfold «end»
  split
  · rfl
  · exact settle_received _

@[simp] theorem end_ended (r : TunnelResponse) : r.end.response.ended = true := by
  unfold «end»
  split
  · assumption
  · rename_i hopen
    rw [settle_ended]
    simp [PendingResponse.end, hopen]

@[simp] theorem fail_received (r : TunnelResponse) : r.fail.received = r.received := by
  unfold fail
  split
  · rfl
  · exact end_received r

@[simp] theorem fail_ended (r : TunnelResponse) : r.fail.response.ended = true := by
  unfold fail
  split
  · assumption
  · exact end_ended r

@[simp] theorem wrote_received (r : TunnelResponse) (outcome : WriteOutcome) :
    (r.wrote outcome).received = r.received := by
  unfold wrote
  split
  · rfl
  · cases outcome with
    | performed => exact settle_received _
    | failed added => exact settle_received _

@[simp] theorem wrote_ended (r : TunnelResponse) (outcome : WriteOutcome) :
    (r.wrote outcome).response.ended = r.response.ended := by
  unfold wrote
  split
  · rfl
  · cases outcome with
    | performed => exact settle_ended _
    | failed added => exact settle_ended _

theorem start_received (r : TunnelResponse) (status : Nat) (headers : List (JsString × List JsString)) :
    (r.start toLowerCase accepts status headers).1.received = r.received := by
  unfold start
  split <;> rfl

theorem start_ended (r : TunnelResponse) (status : Nat) (headers : List (JsString × List JsString)) :
    (r.start toLowerCase accepts status headers).1.response.ended = r.response.ended := by
  unfold start
  split
  · rfl
  · change (r.response.start toLowerCase status headers).ended = _
    unfold PendingResponse.start
    split <;> rfl

theorem add_ended (r : TunnelResponse) (bytes : Bytes) :
    (r.add toLowerCase bytes).response.ended = r.response.ended := by
  change (r.response.add toLowerCase bytes).ended = _
  unfold PendingResponse.add
  split
  · rfl
  · dsimp only
    split
    · rfl
    · unfold PendingResponse.start
      split <;> rfl

/-- Once the writes are through, the `end` that waited has closed the response. -/
theorem Reassembled.settle (h : Reassembled toLowerCase accepts r) : Faithful toLowerCase accepts r.settle := by
  unfold TunnelResponse.settle
  split
  · rename_i hs
    exact {
      started := h.started
      head := h.head
      writes := h.writes
      written := h.written
      closing := by
        have := h.closing
        dsimp only
        omega
      closed := fun _ => hs
      waits := fun _ => rfl }
  · rename_i hs
    exact { h with waits := fun hs' => absurd hs' hs }

theorem faithful_init (requestId : JsString) (channel : Nat) :
    Faithful toLowerCase accepts (init requestId channel) where
  started := rfl
  head := rfl
  writes := rfl
  written := Nat.le_refl _
  closing := rfl
  closed := fun h => absurd rfl h
  waits := fun _ => rfl

/-- What is not opened by its parts is as it began. -/
theorem Reassembled.unopened (h : Reassembled toLowerCase accepts r) (hs : r.response.started = false) :
    r.received.find? opens = none ∧ r.response.headers = [] := by
  have hnone : r.received.find? opens = none := by
    have := h.started
    rw [hs] at this
    simpa using this.symm
  refine ⟨hnone, ?_⟩
  have := h.head
  rw [TunnelResponse.head, hnone] at this
  exact (Prod.mk.inj this).2

/-- Before the end nothing has been closed, and nothing waits to be. -/
theorem Reassembled.before (h : Reassembled toLowerCase accepts r) (hopen : r.response.ended = false) :
    r.ending = 0 ∧ r.closes = 0 := by
  have := h.closing
  rw [hopen, Bool.toNat_false] at this
  omega

theorem Faithful.end (h : Faithful toLowerCase accepts r) : Faithful toLowerCase accepts r.end := by
  unfold TunnelResponse.end
  split
  · exact h
  · rename_i hended
    rw [Bool.not_eq_true] at hended
    obtain ⟨hending, hcloses⟩ := h.before hended
    refine Reassembled.settle ?_
    have hend : r.response.end =
      { r.response with ended := true, statusCode := if r.response.started then r.response.statusCode else 502 } := by
      rw [PendingResponse.end, if_neg (by rw [hended]; rintro ⟨⟩)]
    rw [hend]
    refine ⟨h.started, ?_, h.writes, h.written, ?_, fun hne => absurd hcloses hne⟩
    · dsimp only
      cases hs : r.response.started with
      | true =>
        rw [if_pos rfl, h.head]
        exact head_opened toLowerCase accepts (h.started.symm.trans hs) _ _
      | false =>
        obtain ⟨hnone, hheaders⟩ := h.unopened hs
        rw [head, hnone, hheaders]
        rfl
    · dsimp only
      rw [hending, hcloses]
      rfl

theorem Faithful.fail (h : Faithful toLowerCase accepts r) : Faithful toLowerCase accepts r.fail := by
  unfold TunnelResponse.fail
  split
  · exact h
  · exact h.end

theorem Faithful.wrote (h : Faithful toLowerCase accepts r) (outcome : WriteOutcome) :
    Faithful toLowerCase accepts (r.wrote outcome) := by
  unfold TunnelResponse.wrote
  split
  · exact h
  · rename_i hs
    have hlt : r.written < r.response.writes.length := by
      simp only [settled, Bool.or_eq_true, beq_iff_eq, not_or] at hs
      exact Nat.lt_of_le_of_ne h.written hs.2
    have hcloses : r.closes = 0 := by
      by_contra hne
      exact hs (h.closed hne)
    cases outcome with
    | performed => exact Reassembled.settle { h with written := hlt, closed := fun hne => absurd hcloses hne }
    | failed added =>
      refine Reassembled.settle { h with written := ?_, closed := fun hne => absurd hcloses hne }
      cases added with
      | true => exact hlt
      | false => exact h.written

/-! A part comes. -/

def note (r : TunnelResponse) (part : WebUiResponsePart) : TunnelResponse := { r with received := r.received ++ [part] }

theorem find_note {parts : List WebUiResponsePart} {part : WebUiResponsePart} (h : opens part = false) :
    (parts ++ [part]).find? opens = parts.find? opens := by
  rw [List.find?_append, List.find?_singleton, h]
  exact Option.or_none

/-- The part has no bytes and no status. -/
theorem Faithful.note (h : Faithful toLowerCase accepts r) {part : WebUiResponsePart} (hopens : opens part = false)
    (hchunk : chunk part = none) : Faithful toLowerCase accepts (r.note part) where
  started := h.started.trans (congrArg _ (find_note hopens).symm)
  head := h.head.trans (by rw [TunnelResponse.note, TunnelResponse.head, TunnelResponse.head, find_note hopens])
  writes := h.writes.trans (by rw [TunnelResponse.note, List.filterMap_append, List.filterMap_cons, hchunk]; simp)
  written := h.written
  closing := h.closing
  closed := h.closed
  waits := h.waits

theorem Faithful.start (h : Faithful toLowerCase accepts r) (hopen : r.response.ended = false) (status : Nat)
    (headers : List (JsString × List JsString)) :
    Faithful toLowerCase accepts ((r.note (.start status headers)).start toLowerCase accepts status headers).1 := by
  have hnote : (r.note (.start status headers)).response = r.response := rfl
  obtain ⟨hending, hcloses⟩ := h.before hopen
  have hwrites : (r.received ++ [WebUiResponsePart.start status headers]).filterMap TunnelResponse.chunk =
    r.received.filterMap TunnelResponse.chunk := by
    rw [List.filterMap_append]
    exact List.append_nil _
  unfold TunnelResponse.start
  rw [hnote, hopen, Bool.or_false]
  cases hs : r.response.started with
  | true =>
    have hsome := h.started.symm.trans hs
    have hfind : (r.received ++ [WebUiResponsePart.start status headers]).find? opens = r.received.find? opens := by
      obtain ⟨part, hpart⟩ := Option.isSome_iff_exists.mp hsome
      rw [List.find?_append, hpart]
      rfl
    exact {
      started := h.started.trans (congrArg _ hfind.symm)
      head := h.head.trans (by rw [if_pos rfl, TunnelResponse.note, TunnelResponse.head, TunnelResponse.head, hfind])
      writes := h.writes.trans hwrites.symm
      written := h.written
      closing := h.closing
      closed := h.closed
      waits := h.waits }
  | false =>
    obtain ⟨hnone, hheaders⟩ := h.unopened hs
    have hfind : (r.received ++ [WebUiResponsePart.start status headers]).find? opens =
      some (.start status headers) := by
      rw [List.find?_append, hnone]
      rfl
    have hstart : r.response.start toLowerCase status headers =
        { r.response with
          started := true
          statusCode := status
          headers := (headers.filter fun h =>
            !([js "connection", js "transfer-encoding", js "content-length"].contains (toLowerCase h.1))).flatMap
              fun h => h.2.map (h.1, ·) } := by
      rw [PendingResponse.start, if_neg (by rw [hs, hopen]; rintro ⟨⟩), hheaders]
      rfl
    rw [if_neg (by rintro ⟨⟩), hstart]
    exact {
      started := (congrArg Option.isSome hfind).symm
      head := by
        dsimp only [TunnelResponse.note]
        rw [TunnelResponse.head, hfind]
        rfl
      writes := h.writes.trans hwrites.symm
      written := h.written
      closing := h.closing
      closed := fun hne => absurd hcloses hne
      waits := fun _ => hending }

theorem Faithful.chunk (h : Faithful toLowerCase accepts r) (hopen : r.response.ended = false)
    {body : JsString} {bytes : Bytes}
    (hbody : Base64.decode body = some bytes) :
    Faithful toLowerCase accepts ((r.note (.chunk body)).add toLowerCase bytes) := by
  obtain ⟨hending, hcloses⟩ := h.before hopen
  have hwrites : (r.received ++ [WebUiResponsePart.chunk body]).filterMap TunnelResponse.chunk =
    r.response.writes ++ [bytes] := by
    rw [List.filterMap_append, ← h.writes]
    congr 1
    exact List.filterMap_cons_some hbody
  have hopens : opens (.chunk body) = true := congrArg Option.isSome hbody
  have hnote : (r.note (.chunk body)).response = r.response := rfl
  rw [TunnelResponse.add, hnote, PendingResponse.add, if_neg (by rw [hopen]; rintro ⟨⟩)]
  cases hs : r.response.started with
  | true =>
    have hsome := h.started.symm.trans hs
    have hfind : (r.received ++ [WebUiResponsePart.chunk body]).find? opens = r.received.find? opens := by
      obtain ⟨part, hpart⟩ := Option.isSome_iff_exists.mp hsome
      rw [List.find?_append, hpart]
      rfl
    exact {
      started := h.started.trans (congrArg _ hfind.symm)
      head := h.head.trans (by rw [TunnelResponse.head, TunnelResponse.head]; dsimp only
        [TunnelResponse.note]; rw [hfind]; rfl)
      writes := hwrites.symm
      written := Nat.le_trans h.written (by simp)
      closing := h.closing
      closed := fun hne => absurd hcloses hne
      waits := fun _ => hending }
  | false =>
    obtain ⟨hnone, hheaders⟩ := h.unopened hs
    have hfind : (r.received ++ [WebUiResponsePart.chunk body]).find? opens = some (.chunk body) := by
      rw [List.find?_append, hnone, List.find?_singleton, hopens]
      rfl
    have hstart : r.response.start toLowerCase 502 [] =
      { r.response with started := true, statusCode := 502, headers := [] } := by
      rw [PendingResponse.start, if_neg (by rw [hs, hopen]; rintro ⟨⟩), hheaders]
      rfl
    rw [if_neg (by rintro ⟨⟩), hstart]
    exact {
      started := (congrArg Option.isSome hfind).symm
      head := by
        dsimp only [TunnelResponse.note]
        rw [TunnelResponse.head, hfind]
      writes := hwrites.symm
      written := Nat.le_trans h.written (by simp)
      closing := h.closing
      closed := fun hne => absurd hcloses hne
      waits := fun _ => hending }

theorem Faithful.body_prefix (h : Faithful toLowerCase accepts r) :
    r.body <+: (r.received.filterMap TunnelResponse.chunk).flatten := by
  rw [body, h.writes]
  exact List.IsPrefix.flatten (List.take_prefix _ _)

theorem Faithful.body_whole (h : Faithful toLowerCase accepts r) (hclosed : r.closes = 1) (hwhole : r.broken = false) :
    r.body = (r.received.filterMap TunnelResponse.chunk).flatten := by
  have hs := h.closed (by rw [hclosed]; exact Nat.one_ne_zero)
  simp only [settled, hwhole, Bool.false_or, beq_iff_eq] at hs
  rw [body, hs, List.take_length, h.writes]

/-- A response is closed once: when it has ended and its writes are through. -/
theorem Faithful.closed_once (h : Faithful toLowerCase accepts r) :
    r.closes ≤ 1 ∧ (r.closes = 1 ↔ r.response.ended = true ∧ r.settled = true) := by
  have hclosing := h.closing
  cases hended : r.response.ended with
  | false =>
    obtain ⟨-, hcloses⟩ := h.before hended
    simp [hcloses]
  | true =>
    rw [hended, Bool.toNat_true] at hclosing
    refine ⟨by omega, fun hc => ⟨rfl, h.closed (by omega)⟩, fun hs => ?_⟩
    have := h.waits hs.2
    omega

end TunnelResponse

/-! ## The responses of a tunnel -/

namespace TunnelResponses

open TunnelResponse (Faithful)

variable (toLowerCase : JsString → JsString) (accepts : JsString × JsString → Bool)

/-- What the response at a place has received. -/
def received (w : TunnelResponses) (i : Nat) : List WebUiResponsePart := (w.responses[i]?).elim [] (·.received)

structure Served (w : TunnelResponses) : Prop where
  next : w.nextRequest = w.responses.length
  ids : ∀ (i : Nat) (r : TunnelResponse), w.responses[i]? = some r → r.requestId = requestId i
  known : ∀ id i, w.pending.get id = some i → ∃ r, w.responses[i]? = some r ∧ r.requestId = id
  pending : ∀ (i : Nat) (r : TunnelResponse), w.responses[i]? = some r →
    (w.pending.get r.requestId = some i ↔ r.response.ended = false)
  faithful : ∀ (i : Nat) (r : TunnelResponse), w.responses[i]? = some r → Faithful toLowerCase accepts r

variable {toLowerCase accepts} {w w' : TunnelResponses}

theorem served_init : Served toLowerCase accepts ⟨.empty, [], 0⟩ := ⟨rfl, nofun, nofun, nofun, nofun⟩

/-- A response changes, and what is pending under its id. -/
theorem Served.put (h : Served toLowerCase accepts w) {i : Nat} {r : TunnelResponse} (hr : w.responses[i]? = some r)
    {pending : OMap JsString Nat} {f : TunnelResponse → TunnelResponse}
    (hsame : ∀ id, id ≠ r.requestId → pending.get id = w.pending.get id)
    (hown : ∀ j, pending.get r.requestId = some j ↔ i = j ∧ (f r).response.ended = false)
    (hid : (f r).requestId = r.requestId)
    (hf : Faithful toLowerCase accepts (f r)) :
    Served toLowerCase accepts (({ w with pending } : TunnelResponses).modify i f) := by
  have hget : ∀ {j : Nat} {r' : TunnelResponse}, (w.modify i f).responses[j]? = some r' →
      i = j ∧ r' = f r ∨ i ≠ j ∧ w.responses[j]? = some r' := by
    intro j r' hj
    by_cases hij : i = j
    · subst hij
      rw [TunnelResponses.modify, List.getElem?_modify_eq, hr] at hj
      exact Or.inl ⟨rfl, (Option.some.inj hj).symm⟩
    · rw [modify_get_ne hij] at hj
      exact Or.inr ⟨hij, hj⟩
  have hkeep : ∀ {j : Nat} {r' : TunnelResponse}, i ≠ j → w.responses[j]? = some r' → r'.requestId ≠ r.requestId := by
    intro j r' hij hj heq
    rw [h.ids j r' hj, h.ids i r hr] at heq
    exact hij (requestId_inj heq).symm
  refine ⟨h.next.trans (List.length_modify ..).symm, fun j r' hj => ?_, fun id j hj => ?_,
    fun j r' hj => ?_, fun j r' hj => ?_⟩
  · rcases hget hj with ⟨rfl, rfl⟩ | ⟨-, hj⟩
    · exact hid.trans (h.ids i r hr)
    · exact h.ids j r' hj
  · have hj : pending.get id = some j := hj
    by_cases hidr : id = r.requestId
    · subst hidr
      obtain ⟨rfl, -⟩ := (hown j).mp hj
      exact ⟨f r, by rw [TunnelResponses.modify, List.getElem?_modify_eq, hr]; rfl, hid⟩
    · rw [hsame id hidr] at hj
      obtain ⟨r', hr', hid'⟩ := h.known id j hj
      refine ⟨r', ?_, hid'⟩
      rw [modify_get_ne]
      · exact hr'
      · rintro rfl
        obtain rfl : r = r' := Option.some.inj (hr.symm.trans hr')
        exact hidr hid'.symm
  · change pending.get r'.requestId = some j ↔ _
    rcases hget hj with ⟨rfl, rfl⟩ | ⟨hij, hj⟩
    · rw [hid, hown]
      exact and_iff_right rfl
    · rw [hsame _ (hkeep hij hj)]
      exact h.pending j r' hj
  · rcases hget hj with ⟨rfl, rfl⟩ | ⟨-, hj⟩
    · exact hf
    · exact h.faithful j r' hj

theorem Served.modify (h : Served toLowerCase accepts w) {i : Nat} {r : TunnelResponse} (hr : w.responses[i]? = some r)
    {f : TunnelResponse → TunnelResponse} (hid : (f r).requestId = r.requestId)
    (hended : (f r).response.ended = r.response.ended)
    (hf : Faithful toLowerCase accepts (f r)) : Served toLowerCase accepts (w.modify i f) := by
  refine h.put hr (fun _ _ => rfl) (fun j => ?_) hid hf
  rw [hended, ← h.pending i r hr]
  refine ⟨fun hj => ?_, fun ⟨hij, hj⟩ => hij ▸ hj⟩
  obtain ⟨r', hr', hid'⟩ := h.known _ j hj
  rw [h.ids j r' hr', h.ids i r hr] at hid'
  obtain rfl := requestId_inj hid'
  exact ⟨rfl, hj⟩

/-- A response ends, and is no longer pending. -/
theorem Served.drop (h : Served toLowerCase accepts w) {i : Nat} {r : TunnelResponse} (hr : w.responses[i]? = some r)
    {f : TunnelResponse → TunnelResponse} (hid : (f r).requestId = r.requestId) (hended : (f r).response.ended = true)
    (hf : Faithful toLowerCase accepts (f r)) :
    Served toLowerCase accepts (({ w with pending := w.pending.delete r.requestId } : TunnelResponses).modify i f) := by
  refine h.put hr (fun id hne => OMap.get_delete_ne _ hne) (fun j => ?_) hid hf
  rw [OMap.get_delete_self, hended]
  exact ⟨nofun, nofun⟩

theorem received_modify (w : TunnelResponses) (i : Nat) {f : TunnelResponse → TunnelResponse}
    (hf : ∀ r, (f r).received = r.received)
    (j : Nat) : (w.modify i f).received j = w.received j := by
  simp only [received, TunnelResponses.modify, List.getElem?_modify]
  cases w.responses[j]? with
  | none => rfl
  | some r =>
    by_cases hij : i = j
    · simp [hij, hf]
    · simp [hij]

theorem received_put {i : Nat} {r : TunnelResponse} {f : TunnelResponse → TunnelResponse} {part : WebUiResponsePart}
    (hr : w.responses[i]? = some r) (hf : (f r).received = r.received ++ [part]) (j : Nat) :
    (w.modify i f).received j = w.received j ++ if i = j then [part] else [] := by
  by_cases hij : i = j
  · subst hij
    simp [received, TunnelResponses.modify, hr, hf]
  · rw [if_neg hij, List.append_nil, received, modify_get_ne hij]
    rfl

theorem modify_modify (w : TunnelResponses) (i : Nat) (f g : TunnelResponse → TunnelResponse) :
    (w.modify i f).modify i g = w.modify i (g ∘ f) := by
  rw [TunnelResponses.modify, TunnelResponses.modify, TunnelResponses.modify, List.modify_modify_eq]

variable (toLowerCase accepts) in
/-- Nothing is received. -/
structure Quiet (w w' : TunnelResponses) : Prop where
  received : ∀ i, w'.received i = w.received i
  served : Served toLowerCase accepts w → Served toLowerCase accepts w'

theorem Quiet.refl (w : TunnelResponses) : Quiet toLowerCase accepts w w := ⟨fun _ => rfl, id⟩

theorem Quiet.trans {w'' : TunnelResponses} (h : Quiet toLowerCase accepts w w')
    (h' : Quiet toLowerCase accepts w' w'') :
    Quiet toLowerCase accepts w w'' :=
  ⟨fun i => (h'.received i).trans (h.received i), fun hw => h'.served (h.served hw)⟩

theorem tag_id {r r' : TunnelResponse} (h : r'.tag = r.tag) : r'.requestId = r.requestId := (Prod.mk.inj h).1

theorem quiet_cancelRequest (w : TunnelResponses) (id : JsString) (i : Nat) :
    Quiet toLowerCase accepts w (w.cancelRequest id i) := by
  unfold cancelRequest
  split
  · exact .refl w
  · rename_i hpending
    rw [ne_eq, not_not] at hpending
    refine ⟨fun j => received_modify _ i (fun r => r.fail_received) j, fun h => ?_⟩
    obtain ⟨r, hr, rfl⟩ := h.known id i hpending
    exact h.drop hr (tag_id r.fail_tag) r.fail_ended (h.faithful i r hr).fail

theorem quiet_failAll (w : TunnelResponses) : Quiet toLowerCase accepts w w.failAll := by
  have hget : ∀ {i : Nat} {r' : TunnelResponse}, w.failAll.responses[i]? = some r' →
      ∃ r, w.responses[i]? = some r ∧ r' = if i ∈ w.pending.values then r.fail else r := by
    intro i r' hi
    simp only [failAll, List.getElem?_mapIdx] at hi
    obtain ⟨r, hr, rfl⟩ := Option.map_eq_some_iff.mp hi
    exact ⟨r, hr, rfl⟩
  refine ⟨fun i => ?_, fun h =>
    ⟨h.next.trans (List.length_mapIdx ..).symm, fun i r' hi => ?_, (by rintro _ _ ⟨⟩), fun i r' hi => ?_,
      fun i r' hi => ?_⟩⟩
  · simp only [received, failAll, List.getElem?_mapIdx]
    cases w.responses[i]? with
    | none => rfl
    | some r =>
      by_cases hp : i ∈ w.pending.values
      · simp [hp]
      · simp [hp]
  · obtain ⟨r, hr, rfl⟩ := hget hi
    split
    · exact (tag_id r.fail_tag).trans (h.ids i r hr)
    · exact h.ids i r hr
  · obtain ⟨r, hr, rfl⟩ := hget hi
    refine ⟨(by rintro ⟨⟩), fun hopen => ?_⟩
    split at hopen
    · rw [r.fail_ended] at hopen
      cases hopen
    · rename_i hp
      exact absurd (OMap.mem_values.mpr ⟨_, (h.pending i r hr).mpr hopen⟩) hp
  · obtain ⟨r, hr, rfl⟩ := hget hi
    split
    · exact (h.faithful i r hr).fail
    · exact h.faithful i r hr

theorem quiet_wrote {i : Nat} {r : TunnelResponse} (hr : w.responses[i]? = some r) (outcome : WriteOutcome) :
    Quiet toLowerCase accepts w (w.modify i (·.wrote outcome)) :=
  ⟨fun j => received_modify w i (fun r => r.wrote_received outcome) j,
    fun h => h.modify hr (tag_id (r.wrote_tag outcome)) (r.wrote_ended outcome) ((h.faithful i r hr).wrote outcome)⟩

theorem quiet_request (w : TunnelResponses) (c : Nat) : Quiet toLowerCase accepts w (w.request c) := by
  refine ⟨fun i => ?_, fun h => ?_⟩
  · simp only [received, request]
    rcases Nat.lt_trichotomy i w.responses.length with hi | rfl | hi
    · rw [List.getElem?_append_left hi]
    · rw [List.getElem?_concat_length, List.getElem?_eq_none (Nat.le_refl _)]
      rfl
    · rw [List.getElem?_eq_none (Nat.le_of_lt hi),
        List.getElem?_eq_none (by rw [List.length_append, List.length_singleton]; omega)]
  · have hfresh : ∀ {j : Nat} {r : TunnelResponse}, w.responses[j]? = some r →
      r.requestId ≠ requestId w.nextRequest := by
      intro j r hj heq
      rw [h.ids j r hj, h.next] at heq
      have := (List.getElem?_eq_some_iff.mp hj).1
      have := requestId_inj heq
      omega
    refine ⟨?_, fun i r hi => ?_, fun id i hi => ?_, fun i r hi => ?_, fun i r hi => ?_⟩
    · simp only [request, List.length_append, List.length_singleton, h.next]
    · rcases getElem_snoc.mp hi with hi | ⟨rfl, rfl⟩
      · exact h.ids i r hi
      · exact congrArg requestId h.next
    · have hi : (w.pending.set (requestId w.nextRequest) w.responses.length).get id = some i := hi
      rw [OMap.get_set] at hi
      split at hi
      · rename_i hid
        cases hi
        exact ⟨_, getElem_snoc.mpr (Or.inr ⟨rfl, rfl⟩), hid.symm⟩
      · obtain ⟨r, hr, hid⟩ := h.known id i hi
        exact ⟨r, getElem_snoc.mpr (Or.inl hr), hid⟩
    · change (w.pending.set (requestId w.nextRequest) w.responses.length).get r.requestId = some i ↔ _
      rcases getElem_snoc.mp hi with hi | ⟨rfl, rfl⟩
      · rw [OMap.get_set_ne _ _ (hfresh hi)]
        exact h.pending i r hi
      · rw [TunnelResponse.init, OMap.get_set_self]
        exact iff_of_true rfl rfl
    · rcases getElem_snoc.mp hi with hi | ⟨rfl, rfl⟩
      · exact h.faithful i r hi
      · exact TunnelResponse.faithful_init _ c

end TunnelResponses

/-! ## Steps -/

namespace GatewayWebUiTunnel

open TunnelResponses (Served Quiet)
open TunnelResponse (Faithful)

variable {toLowerCase : JsString → JsString} {accepts : JsString × JsString → Bool} {s : GatewayWebUiTunnel}

theorem quiet_lost (s : GatewayWebUiTunnel) (c : Nat) (expired : Bool) :
    Quiet toLowerCase accepts s.served (s.lost c expired).served := by
  rcases lost_served s c expired with h | h
  · exact h ▸ .refl _
  · exact h ▸ TunnelResponses.quiet_failAll _

theorem Keeps.quiet {t : GatewayWebUiTunnel} (h : Keeps s t) : Quiet toLowerCase accepts s.served t.served :=
  h.served ▸ .refl _

theorem close_served (s : GatewayWebUiTunnel) : s.close.served = s.served := by
  unfold GatewayWebUiTunnel.close
  split
  · rfl
  · exact (complete_keeps _ none).served

/-- Only a frame is heard. -/
theorem quiet_step (s : GatewayWebUiTunnel) {e : TunnelEvent} (he : ∀ c f, e ≠ .frame c f) :
    Quiet toLowerCase accepts s.served (step toLowerCase accepts s e).served := by
  cases e with
  | start =>
    simp only [step]
    split <;> exact .refl _
  | opened outcome =>
    change Quiet toLowerCase accepts s.served (s.opened outcome).served
    unfold GatewayWebUiTunnel.opened
    split
    · cases outcome with
      | ready asked =>
        dsimp only
        split
        · exact (abort_keeps ..).quiet
        · exact .refl _
      | failed unauthorized => exact (abort_keeps ..).quiet
    · exact .refl _
  | frame c f => exact absurd rfl (he c f)
  | ended c expired =>
    refine Quiet.trans ?_ (quiet_lost _ c expired)
    split
    · split
      · exact (complete_keeps s none).quiet
      · exact .refl _
    · exact .refl _
  | timedOut =>
    simp only [step]
    split
    · exact (abort_keeps ..).quiet
    · exact .refl _
  | aborted =>
    simp only [step]
    split <;> exact .refl _
  | goesOn =>
    change Quiet toLowerCase accepts s.served s.goesOn.served
    unfold GatewayWebUiTunnel.goesOn
    split
    · split
      · split
        · exact (abort_keeps { s with tunnelId := some _ } ..).quiet
        · exact .refl _
      · exact (abort_keeps ..).quiet
    · exact .refl _
    · exact .refl _
    · exact .refl _
    · split
      · exact .refl _
      · split
        · exact .refl _
        · exact (schedule_keeps s false).quiet
    · exact .refl _
  | refreshed outcome =>
    change Quiet toLowerCase accepts s.served (s.refreshed outcome).served
    unfold GatewayWebUiTunnel.refreshed
    split
    · rename_i reason _
      split
      · rename_i accessToken _
        split
        · exact (refreshFailed_keeps ..).quiet
        · cases reason with
          | start => exact .refl _
          | expired => exact .refl _
          | unauthorized => exact (schedule_keeps { s with accessToken } false).quiet
      · exact close_served s ▸ (refreshFailed_keeps s.close reason).quiet
      · exact (refreshFailed_keeps ..).quiet
      · exact (refreshFailed_keeps ..).quiet
    · exact .refl _
  | bound =>
    change Quiet toLowerCase accepts s.served s.bound.served
    unfold GatewayWebUiTunnel.bound
    split
    · split
      · exact .refl _
      · dsimp only
        split
        · exact .refl _
        · exact (schedule_keeps { s with server := true, flow := .idle } false).quiet
    · exact .refl _
  | fires t =>
    change Quiet toLowerCase accepts s.served (s.fires t).served
    unfold GatewayWebUiTunnel.fires
    split
    · rename_i timer _
      split
      · exact (reconnect_keeps { s with timers := _, retry := none } timer.expired).quiet
      · exact .refl _
    · exact .refl _
  | resume afterSleep =>
    change Quiet toLowerCase accepts s.served (s.resume afterSleep).served
    unfold GatewayWebUiTunnel.resume
    split
    · exact .refl _
    · have hdrop : ∀ t : GatewayWebUiTunnel,
        Quiet toLowerCase accepts t.served (if t.connected = true ∨ t.channel ≠ none then t
          else ({ t with timers := t.cancelRetry, retry := none } : GatewayWebUiTunnel).reconnect false).served := by
        intro t
        split
        · exact .refl _
        · exact (reconnect_keeps { t with timers := t.cancelRetry, retry := none } false).quiet
      dsimp only
      split
      · split
        · exact (quiet_lost s _ false).trans (hdrop _)
        · exact hdrop _
      · exact hdrop _
  | lost c expired => exact quiet_lost s c expired
  | renewed outcome =>
    cases outcome with
    | token accessToken =>
      change Quiet toLowerCase accepts s.served (if s.closed = true then s else { s with accessToken }).served
      split <;> exact .refl _
    | null => exact close_served s ▸ .refl s.close.served
    | dioException => exact .refl _
    | threw => exact .refl _
  | request =>
    change Quiet toLowerCase accepts s.served s.request.served
    unfold GatewayWebUiTunnel.request
    split
    · split
      · exact TunnelResponses.quiet_request ..
      · exact .refl _
    · exact .refl _
  | gone i =>
    change Quiet toLowerCase accepts s.served (s.gone i).served
    unfold gone
    split
    · exact TunnelResponses.quiet_cancelRequest ..
    · exact .refl _
  | wrote i outcome =>
    change Quiet toLowerCase accepts s.served (s.wrote i outcome).served
    unfold wrote
    split
    · rename_i r hr
      split
      · exact .refl _
      · dsimp only
        split
        · exact (TunnelResponses.quiet_wrote hr outcome).trans (TunnelResponses.quiet_cancelRequest ..)
        · exact TunnelResponses.quiet_wrote hr outcome
    · exact .refl _
  | close => exact close_served s ▸ .refl s.close.served
  | teardown =>
    simp only [step]
    split
    · split <;> exact TunnelResponses.quiet_failAll _
    · exact .refl _

/-- A part of a pending response is received, and changes what its parts make of it. -/
theorem respond_served (h : Served toLowerCase accepts s.served) {i : Nat} {r : TunnelResponse}
    (hr : s.served.responses[i]? = some r)
    (hopen : r.response.ended = false) (c : Nat) (part : WebUiResponsePart) :
    Served toLowerCase accepts (s.respond toLowerCase accepts c r.requestId i part).served ∧
      ∀ j, (s.respond toLowerCase accepts c r.requestId i part).served.received j =
        s.served.received j ++ if i = j then [part] else [] := by
  have hfaithful := h.faithful i r hr
  have hnote : (s.served.modify i (·.note part)).responses[i]? = some (r.note part) := by
    rw [TunnelResponses.modify, List.getElem?_modify_eq, hr]
    rfl
  have hreceived : ∀ {f : TunnelResponse → TunnelResponse}, (f r).received = r.received ++ [part] → ∀ j,
      (s.served.modify i f).received j = s.served.received j ++ if i = j then [part] else [] :=
    TunnelResponses.received_put hr
  -- Nothing is made of it: what follows hears nothing.
  have hplain : TunnelResponse.opens part = false → TunnelResponse.chunk part = none → ∀ w : TunnelResponses,
      Quiet toLowerCase accepts (s.served.modify i (·.note part)) w →
      Served toLowerCase accepts w ∧ ∀ j, w.received j = s.served.received j ++ if i = j then [part] else [] := by
    intro hopens hchunk w hq
    exact ⟨hq.served (h.modify hr rfl rfl (hfaithful.note hopens hchunk)),
      fun j => (hq.received j).trans (hreceived rfl j)⟩
  -- The part is noted and made use of.
  have hmade : ∀ {g : TunnelResponse → TunnelResponse}, (g (r.note part)).tag = r.tag →
      (g (r.note part)).response.ended = false → (g (r.note part)).received = r.received ++ [part] →
      Faithful toLowerCase accepts (g (r.note part)) →
      Served toLowerCase accepts ((s.served.modify i (·.note part)).modify i g) ∧
        ∀ j, ((s.served.modify i (·.note part)).modify i g).received j = s.served.received j ++ if i = j then [part]
          else [] := by
    intro g htag hended hrec hf
    rw [TunnelResponses.modify_modify]
    exact ⟨h.modify hr (TunnelResponses.tag_id htag) (hended.trans hopen.symm) hf, hreceived hrec⟩
  unfold GatewayWebUiTunnel.respond
  cases part with
  | start status headers =>
    have hget : (s.serve (s.served.modify i fun r =>
      { r with received := r.received ++ [.start status headers] })).served.responses[i]? =
        some (r.note (.start status headers)) := hnote
    obtain ⟨hserved, hnoted⟩ :=
      hmade (g := fun _ => ((r.note (.start status headers)).start toLowerCase accepts status headers).1)
      (TunnelResponse.start_tag _ status headers) ((TunnelResponse.start_ended _ status headers).trans hopen)
      (TunnelResponse.start_received _ status headers) (hfaithful.start hopen status headers)
    dsimp only
    rw [hget]
    dsimp only
    split
    · have hq : Quiet toLowerCase accepts _ _ :=
        quiet_lost (s.serve ((s.served.modify i (·.note (.start status headers))).modify i
        fun _ => ((r.note (.start status headers)).start toLowerCase accepts status headers).1)) c false
      exact ⟨hq.served hserved, fun j => (hq.received j).trans (hnoted j)⟩
    · exact ⟨hserved, hnoted⟩
  | chunk body =>
    dsimp only
    split
    · rename_i bytes hbody
      exact hmade (g := (·.add toLowerCase bytes)) rfl ((TunnelResponse.add_ended _ bytes).trans hopen) rfl
        (hfaithful.chunk hopen hbody)
    · rename_i hbody
      have hopens : TunnelResponse.opens (.chunk body) = false := by rw [TunnelResponse.opens, hbody]; rfl
      split
      · exact hplain hopens hbody _ (TunnelResponses.quiet_cancelRequest ..)
      · exact hplain hopens hbody _ (.refl _)
  | «end» =>
    have hw : ((s.served.modify i (·.note .end)).modify i .end) = s.served.modify i (.end ∘ (·.note .end)) :=
      TunnelResponses.modify_modify ..
    have hdrop := h.drop (f := TunnelResponse.end ∘ (·.note .end)) hr (TunnelResponses.tag_id (r.note .end).end_tag)
      (r.note .end).end_ended (hfaithful.note rfl rfl).end
    refine ⟨?_, fun j => ?_⟩
    · change Served toLowerCase accepts
        (({ s.served with pending := s.served.pending.delete r.requestId } : TunnelResponses).modify i
        (·.note .end) |>.modify i .end)
      rw [TunnelResponses.modify_modify]
      exact hdrop
    · change ((s.served.modify i (·.note .end)).modify i .end).received j = _
      rw [hw]
      exact hreceived (TunnelResponse.end_received _) j

/-! ## Whole runs -/

/-- What a response hears of an event: the part of a frame for it, on its own channel. -/
def heard (s : GatewayWebUiTunnel) (r : TunnelResponse) : TunnelEvent → List WebUiResponsePart
  | .frame c (.response tunnelId id part) =>
    if c = r.channel ∧ id = r.requestId ∧ tunnelId = s.tunnelId ∧ s.closed = false ∧
      r.response.ended = false then [part] else []
  | _ => []

def heardAt (s : GatewayWebUiTunnel) (i : Nat) (e : TunnelEvent) : List WebUiResponsePart :=
  (s.served.responses[i]?).elim [] (s.heard · e)

variable (toLowerCase accepts) in
/-- What the response at a place hears of a run. -/
def own (i : Nat) : GatewayWebUiTunnel → List TunnelEvent → List WebUiResponsePart
  | _, [] => []
  | s, e :: es => s.heardAt i e ++ own i (step toLowerCase accepts s e) es

theorem heardAt_none (s : GatewayWebUiTunnel) (i : Nat) {e : TunnelEvent} (h : ∀ r, s.heard r e = []) :
    s.heardAt i e = [] := by
  unfold heardAt
  cases s.served.responses[i]? with
  | none => rfl
  | some r => exact h r

/-- What a response hears is for a pending one, on the channel that is heard. -/
theorem Owned.hears (h : Owned s) (hw : Served toLowerCase accepts s.served) {i : Nat} {r : TunnelResponse}
    (hr : s.served.responses[i]? = some r) (hclosed : s.closed = false) (hopen : r.response.ended = false) :
    s.served.pending.get r.requestId = some i ∧
      ∃ channel, s.channels[r.channel]? = some channel ∧ channel.generation = s.generation := by
  have hp := (hw.pending i r hr).mpr hopen
  obtain ⟨tag, htag, hch, -⟩ := h.pending hclosed _ i hp
  rw [List.getElem?_map, hr] at htag
  cases htag
  exact ⟨hp, h.current hclosed r.channel hch⟩

theorem frame_served (h : Owned s) (hw : Served toLowerCase accepts s.served) (c : Nat) (f : TunnelFrame) :
    Served toLowerCase accepts (s.frame toLowerCase accepts c f).served ∧
      ∀ j, (s.frame toLowerCase accepts c f).served.received j = s.served.received j ++ s.heardAt j (.frame c f) := by
  -- Where nothing is heard, nothing changes.
  have hquiet : ∀ {w : TunnelResponses}, Quiet toLowerCase accepts s.served w → (∀ j, s.heardAt j (.frame c f) = []) →
      Served toLowerCase accepts w ∧ ∀ j, w.received j = s.served.received j ++ s.heardAt j (.frame c f) :=
    fun hq hnone => ⟨hq.served hw, fun j => by rw [hnone j, List.append_nil, hq.received j]⟩
  cases f with
  | ready tunnelId =>
    have hq : Quiet toLowerCase accepts s.served (s.frame toLowerCase accepts c (.ready tunnelId)).served := by
      unfold GatewayWebUiTunnel.frame
      split
      · split
        · exact .refl _
        · exact (complete_keeps s _).quiet
      · exact .refl _
    exact hquiet hq fun j => heardAt_none s j fun _ => rfl
  | error =>
    have hq : Quiet toLowerCase accepts s.served (s.frame toLowerCase accepts c .error).served := by
      unfold GatewayWebUiTunnel.frame
      split
      · split
        · exact .refl _
        · exact (complete_keeps s _).quiet
      · exact .refl _
    exact hquiet hq fun j => heardAt_none s j fun _ => rfl
  | response tunnelId id part =>
    have hsilent : (∀ (i : Nat) (r : TunnelResponse), s.served.responses[i]? = some r →
      ¬ (c = r.channel ∧ id = r.requestId ∧ tunnelId = s.tunnelId ∧
        s.closed = false ∧ r.response.ended = false)) → ∀ j,
        s.heardAt j (.frame c (.response tunnelId id part)) = [] := by
      intro hno j
      unfold heardAt
      cases hj : s.served.responses[j]? with
      | none => rfl
      | some r => exact if_neg (hno j r hj)
    unfold GatewayWebUiTunnel.frame
    split
    · rename_i channel hc
      split
      · rename_i hg
        refine hquiet (.refl _) (hsilent fun i r hr hheard => ?_)
        obtain ⟨hcr, _, _, hclosed, hopen⟩ := hheard
        obtain ⟨-, channel', hc', hg'⟩ := h.hears hw hr hclosed hopen
        rw [← hcr, hc] at hc'
        cases hc'
        exact hg hg'
      · rename_i hg
        rw [ne_eq, not_not] at hg
        unfold handleFrame
        dsimp only
        split
        · rename_i ht
          exact hquiet (.refl _) (hsilent fun i r hr hheard => ht hheard.2.2.1)
        · rename_i ht
          rw [ne_eq, not_not] at ht
          split
          · rename_i i hi
            obtain ⟨r, hr, rfl⟩ := hw.known id i hi
            have hopen := (hw.pending i r hr).mp hi
            have hclosed : s.closed = false := by
              refine Bool.eq_false_iff.mpr fun hclosed => ?_
              have := h.later hclosed c channel hc
              omega
            have hcr := h.channel_of_pending hc hg hi hr
            obtain ⟨hserved, hreceived⟩ := respond_served hw hr hopen c part
            refine ⟨hserved, fun j => (hreceived j).trans (congrArg _ ?_)⟩
            unfold heardAt
            by_cases hij : i = j
            · subst hij
              rw [hr, if_pos rfl]
              exact (if_pos ⟨hcr.symm, rfl, ht, hclosed, hopen⟩).symm
            · rw [if_neg hij]
              cases hj : s.served.responses[j]? with
              | none => rfl
              | some r' =>
                refine (if_neg fun hheard => hij ?_).symm
                have hid := hheard.2.1
                rw [hw.ids i r hr, hw.ids j r' hj] at hid
                exact requestId_inj hid
          · rename_i hi
            refine hquiet (.refl _) (hsilent fun i r hr hheard => ?_)
            obtain ⟨_, hid, _, hclosed, hopen⟩ := hheard
            have := (h.hears hw hr hclosed hopen).1
            rw [← hid, hi] at this
            cases this
    · rename_i hc
      refine hquiet (.refl _) (hsilent fun i r hr hheard => ?_)
      obtain ⟨hcr, _, _, hclosed, hopen⟩ := hheard
      obtain ⟨-, channel', hc', -⟩ := h.hears hw hr hclosed hopen
      rw [← hcr, hc] at hc'
      cases hc'

theorem step_served (h : Owned s) (hw : Served toLowerCase accepts s.served) (e : TunnelEvent) :
    Served toLowerCase accepts (step toLowerCase accepts s e).served ∧
      ∀ j, (step toLowerCase accepts s e).served.received j = s.served.received j ++ s.heardAt j e := by
  by_cases he : ∃ c f, e = .frame c f
  · obtain ⟨c, f, rfl⟩ := he
    exact frame_served h hw c f
  · have he : ∀ c f, e ≠ .frame c f := fun c f heq => he ⟨c, f, heq⟩
    have hq : Quiet toLowerCase accepts s.served (step toLowerCase accepts s e).served := quiet_step s he
    refine ⟨hq.served hw, fun j => ?_⟩
    have hnone : s.heardAt j e = [] := heardAt_none s j fun r => by
      cases e with
      | frame c f => exact absurd rfl (he c f)
      | _ => rfl
    rw [hnone, List.append_nil, hq.received j]

theorem served_run (accessToken : JsString) (hasRefresh : Bool) (es : List TunnelEvent) (i : Nat) :
    Served toLowerCase accepts (run toLowerCase accepts accessToken hasRefresh es).served ∧
      (run toLowerCase accepts accessToken hasRefresh es).served.received i =
        own toLowerCase accepts i (.init accessToken hasRefresh) es := by
  -- From any state: what was received, and what is heard from there on.
  have hfrom : ∀ (es : List TunnelEvent) (s : GatewayWebUiTunnel), (s.closed = false → Good s) → Owned s →
      Served toLowerCase accepts s.served →
        Served toLowerCase accepts (runFrom (step toLowerCase accepts) s es).served ∧
        (runFrom (step toLowerCase accepts) s es).served.received i = s.served.received i ++
          own toLowerCase accepts i s es := by
    intro es
    induction es with
    | nil => exact fun s _ _ hw => ⟨hw, (List.append_nil _).symm⟩
    | cons e es ih =>
      intro s hg ho hw
      obtain ⟨hw', hreceived⟩ := step_served ho hw e
      obtain ⟨hlast, hrun⟩ := ih _ (good_open_step hg e) (owned_step ho hg e) hw'
      refine ⟨hlast, ?_⟩
      rw [runFrom_cons, hrun, hreceived, own, List.append_assoc]
  exact hfrom es _ (fun _ => good_init accessToken hasRefresh) (owned_init accessToken hasRefresh)
    TunnelResponses.served_init

/-- In every run, at every time. -/
theorem reassembled (toLowerCase : JsString → JsString) (accepts : JsString × JsString → Bool) (accessToken : JsString)
    (hasRefresh : Bool) (es : List TunnelEvent) (i : Nat) (r : TunnelResponse)
    (hr : (run toLowerCase accepts accessToken hasRefresh es).served.responses[i]? = some r) :
    let s := run toLowerCase accepts accessToken hasRefresh es
    let own := own toLowerCase accepts i (.init accessToken hasRefresh) es
    (r.response.statusCode, r.response.headers) = TunnelResponse.head toLowerCase accepts own r.response.ended ∧
      r.body <+: (own.filterMap TunnelResponse.chunk).flatten ∧
      (r.closes = 1 → r.broken = false → r.body = (own.filterMap TunnelResponse.chunk).flatten) ∧
      r.closes ≤ 1 ∧ (r.closes = 1 ↔ r.response.ended = true ∧ r.settled = true) ∧
      (r.response.ended = true ↔ s.served.pending.get r.requestId ≠ some i) ∧
      ∀ (j : Nat) (r' : TunnelResponse), s.served.responses[j]? = some r' → r'.requestId = r.requestId → i = j := by
  intro s own
  have hrun : Served toLowerCase accepts s.served ∧ s.served.received i = own := served_run accessToken hasRefresh es i
  obtain ⟨hw, hown⟩ := hrun
  have hown : own = r.received := by
    rw [← hown, TunnelResponses.received, hr]
    rfl
  have hf := hw.faithful i r hr
  obtain ⟨honce, hwhen⟩ := hf.closed_once
  rw [hown]
  refine ⟨hf.head, hf.body_prefix, hf.body_whole, honce, hwhen, ?_, fun j r' hj hid => ?_⟩
  · rw [ne_eq, hw.pending i r hr, Bool.not_eq_false]
  · rw [hw.ids j r' hj, hw.ids i r hr] at hid
    exact (requestId_inj hid).symm

/-- A tunnel that stands, and a request. -/
abbrev asked : List TunnelEvent :=
  [.start, .opened (.ready true), .frame 0 (.ready (js "t")), .goesOn, .goesOn, .bound, .request]

/-- A part of the answer to a request. -/
abbrev answerTo (n : Nat) (part : WebUiResponsePart) : TunnelEvent :=
  .frame 0 (.response (some (js "t")) (requestId n) part)

/-- A part of the answer to the first request. -/
abbrev answer (part : WebUiResponsePart) : TunnelEvent := answerTo 0 part

/-- The answers to two requests come in turns, and are written in turns. -/
def inTurns : List TunnelEvent :=
  asked ++ [.request, answerTo 0 (.start 200 [(js "etag", [js "x"]), (js "connection", [js "close"])]),
    answerTo 1 (.start 404 []),
    answerTo 0 (.chunk (js "AAAA")), answerTo 1 (.chunk (js "CCCC")), answerTo 0 (.chunk (js "BBBB")), answerTo 0 .end,
    .wrote 0 .performed, answerTo 1 .end, .wrote 1 .performed, .wrote 0 .performed]

theorem answer_closes_once :
    ∃ r, (run id (fun _ => true) (js "a") true inTurns).served.responses[0]? = some r ∧
      (r.response.statusCode, r.response.headers) = (200, [(js "etag", js "x")]) ∧ r.body = [0, 0, 0, 4, 16, 65] ∧
        r.closes = 1 := by
  obtain ⟨r, hr⟩ := Option.isSome_iff_exists.mp
    (show (run id (fun _ => true) (js "a") true inTurns).served.responses[0]?.isSome = true by decide +kernel)
  have hown : own id (fun _ => true) 0 (.init (js "a") true) inTurns =
      [.start 200 [(js "etag", [js "x"]), (js "connection", [js "close"])], .chunk (js "AAAA"),
        .chunk (js "BBBB"), .end] := by
    decide +kernel
  have hover : (run id (fun _ => true) (js "a") true inTurns).served.responses[0]?.all
      (fun r => r.response.ended && r.settled && !r.broken) = true := by decide +kernel
  rw [hr] at hover
  simp only [Option.all_some, Bool.and_eq_true, Bool.not_eq_true'] at hover
  obtain ⟨⟨hended, hsettled⟩, hwhole⟩ := hover
  obtain ⟨hhead, -, hbody, -, hclosed, -⟩ := reassembled id (fun _ => true) (js "a") true inTurns 0 r hr
  have hcloses : r.closes = 1 := hclosed.mpr ⟨hended, hsettled⟩
  rw [hown] at hhead hbody
  refine ⟨r, hr, ?_, ?_, hcloses⟩
  · rw [hhead, hended]
    decide +kernel
  · rw [hbody hcloses hwhole]
    decide +kernel

/-- The chunk comes before the start. -/
theorem early_chunk_decides :
    let es : List TunnelEvent :=
      asked ++ [answer (.chunk (js "AAAA")), answer (.start 200 []), answer .end, .wrote 0 .performed]
    own id (fun _ => true) 0 (.init (js "a") true) es = [.chunk (js "AAAA"), .start 200 [], .end] ∧
      ((run id (fun _ => true) (js "a") true es).served.responses[0]?.map
        (fun r => (r.response.statusCode, r.closes))) = some (502, 1) := by
  decide +kernel

end GatewayWebUiTunnel

end NotifyHub.Client
