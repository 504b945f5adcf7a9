/-
  NotifyHub.Link.Responses — the response to one WebUI request, from the local server
  through the plugin's frames to the browser (packages/plugin/src/control-channel.ts and
  webui-proxy.ts, apps/client/lib/sessions/webui_tunnel.dart).

  The frames are one response and carry the server's bytes exactly when the server's body
  does not break (`responses_genuine`). When it breaks the channel's own error page is
  written behind the bytes that came through, and the browser takes the whole for what the
  server sent (`error_page_appended`).
-/

import NotifyHub.Client.PendingResponse
import NotifyHub.Plugin.WebUiProxy

namespace NotifyHub.Link

open Control Plugin Client
open Base64 (Bytes)

/-- One start, then chunks, then at most one end. -/
def IsResponse (frames : List WebUiResponsePart) : Prop :=
  ∃ (status : Nat) (headers : List (JsString × List JsString)) (chunks : List JsString) (tail : List WebUiResponsePart),
    (tail = [] ∨ tail = [.end]) ∧ frames = .start status headers :: (chunks.map .chunk ++ tail)

/-- The bytes of a chunk. -/
def chunkBytes : WebUiResponsePart → Bytes
  | .chunk body => (Base64.decode body).getD []
  | _ => []

/-- Every chunk is base64. -/
def Readable (frames : List WebUiResponsePart) : Prop :=
  ∀ body, .chunk body ∈ frames → (Base64.decode body).isSome = true

def carried (frames : List WebUiResponsePart) : Bytes := frames.flatMap chunkBytes

/-- The frames of a request are genuine, for what the server did when it was asked. -/
structure Genuine (toLowerCase : JsString → JsString) (upstream : Option Fetch) (frames : List WebUiResponsePart) :
    Prop where
  grammar : IsResponse frames ∨ upstream = some .waiting ∧ frames = []
  readable : Readable frames
  genuine : ∀ status headers body, upstream = some (.response status headers body) →
    carried frames <+: (Fetch.response status headers body).bytes
  whole : ∀ status headers body, upstream = some (.response status headers body) → .end ∈ frames →
    (Fetch.response status headers body).complete = true ∧
      carried frames = (Fetch.response status headers body).bytes
  unforged : ∀ status headers body, upstream = some (.response status headers body) →
    (PendingResponse.init.receiveAll toLowerCase frames).ended = true →
      (PendingResponse.init.receiveAll toLowerCase frames).body <+: (Fetch.response status headers body).bytes

theorem receive_body {toLowerCase : JsString → JsString} {r : PendingResponse} (h : r.ended = false)
    {part : WebUiResponsePart} (hpart : part ≠ .end) (hread : Readable [part]) :
    (r.receive toLowerCase part).ended = false ∧ (r.receive toLowerCase part).body = r.body ++ chunkBytes part := by
  cases part with
  | start status headers =>
    have hbody : r.body ++ chunkBytes (.start status headers) = r.body := List.append_nil _
    rw [hbody]
    cases hs : r.started <;> simp [PendingResponse.receive, PendingResponse.start, PendingResponse.body, hs, h]
  | chunk body =>
    obtain ⟨bytes, hbytes⟩ := Option.isSome_iff_exists.mp (hread body List.mem_cons_self)
    cases hs : r.started <;>
      simp [PendingResponse.receive, PendingResponse.add, PendingResponse.start, PendingResponse.body,
        chunkBytes, hs, h,
        hbytes]
  | «end» => exact absurd rfl hpart

/-- Up to the end a response is put together from the chunks as they come. -/
theorem receiveAll_body (toLowerCase : JsString → JsString) {frames : List WebUiResponsePart} :
    ∀ {r : PendingResponse}, r.ended = false → .end ∉ frames → Readable frames →
      (r.receiveAll toLowerCase frames).body = r.body ++ carried frames := by
  induction frames with
  | nil => exact fun _ _ _ => (List.append_nil _).symm
  | cons part frames ih =>
    intro r h hend hread
    have hpart : Readable [part] := fun body hb => hread body (by simp at hb; simp [hb])
    obtain ⟨hended, hbody⟩ := receive_body (r := r) h (fun hp => hend (by simp [hp])) hpart
    calc (r.receiveAll toLowerCase (part :: frames)).body
        = ((r.receive toLowerCase part).receiveAll toLowerCase frames).body := rfl
      _ = (r.receive toLowerCase part).body ++ carried frames :=
          ih hended (fun hm => hend (List.mem_cons_of_mem _ hm)) fun b hb => hread b (List.mem_cons_of_mem _ hb)
      _ = r.body ++ carried (part :: frames) := by rw [hbody, List.append_assoc]; rfl

/-- The bytes of the browser's response are those the frames carry. -/
theorem body_of_response {toLowerCase : JsString → JsString} {frames : List WebUiResponsePart} (h : IsResponse frames)
    (hread : Readable frames) : (PendingResponse.init.receiveAll toLowerCase frames).body = carried frames := by
  obtain ⟨status, headers, chunks, tail, htail, rfl⟩ := h
  have hend : WebUiResponsePart.end ∉ WebUiResponsePart.start status headers :: chunks.map .chunk := by simp
  have hchunks : Readable (.start status headers :: chunks.map .chunk) := fun body hb =>
    hread body (List.mem_append_left tail hb)
  have hbody := receiveAll_body toLowerCase (r := .init) rfl hend hchunks
  rw [← List.cons_append, PendingResponse.receiveAll_append]
  rcases htail with rfl | rfl
  · rw [List.append_nil]
    exact hbody
  · rw [carried, List.flatMap_append]
    exact (PendingResponse.end_body _).trans (hbody.trans (List.append_nil _).symm)

@[simp] theorem chunkBytes_chunkFrame (bytes : Bytes) : chunkBytes (chunkFrame bytes) = bytes := by
  rw [chunkFrame, chunkBytes, Base64.decode_encode, Option.getD_some]

theorem carried_chunks (l : List Bytes) : carried (l.map chunkFrame) = l.flatten := by
  rw [carried, List.flatMap_map]
  simp only [chunkBytes_chunkFrame]
  exact List.flatMap_id'

theorem pieces_reads (reads : List Bytes) : (reads.flatMap pieces).flatten = reads.flatten := by
  induction reads with
  | nil => rfl
  | cons bytes reads ih => rw [List.flatMap_cons, List.flatten_append, pieces_flatten, ih, List.flatten_cons]

/-- The frames of a body carry what was read of it. -/
theorem carried_bodyFrames (status : Nat) (headers : List (JsString × JsString)) (body : Option UpstreamBody) :
    carried (bodyFrames body).1 = (Fetch.response status headers body).bytes := by
  cases body with
  | none => rfl
  | some body =>
    have hchunks : carried ((body.reads.flatMap pieces).map chunkFrame) = body.reads.flatten :=
      (carried_chunks _).trans (pieces_reads _)
    unfold bodyFrames
    dsimp only
    split
    · exact hchunks
    · rw [carried, List.flatMap_append]
      exact (List.append_nil _).trans hchunks
    · exact hchunks

theorem isResponse_answer (status : Nat) (text : String) : IsResponse (answer status text) :=
  ⟨status, _, [_], [.end], Or.inr rfl, rfl⟩

/-- Behind its headers a body is chunks and at most one end. -/
theorem bodyFrames_tail (body : Option UpstreamBody) :
    ∃ chunks : List Bytes, ∃ tail, (tail = [] ∨ tail = [.end]) ∧
      (bodyFrames body).1 = chunks.map chunkFrame ++ tail := by
  cases body with
  | none => exact ⟨[], [.end], Or.inr rfl, rfl⟩
  | some body =>
    unfold bodyFrames
    dsimp only
    split
    · exact ⟨_, [], Or.inl rfl, (List.append_nil _).symm⟩
    · exact ⟨_, [.end], Or.inr rfl, rfl⟩
    · exact ⟨_, [], Or.inl rfl, (List.append_nil _).symm⟩

theorem isResponse_response (status : Nat) (headers : List (JsString × List JsString)) (body : Option UpstreamBody) :
    IsResponse (.start status headers :: (bodyFrames body).1) := by
  obtain ⟨chunks, tail, htail, hframes⟩ := bodyFrames_tail body
  refine ⟨status, headers, chunks.map Base64.encode, tail, htail, ?_⟩
  rw [hframes, List.map_map]
  rfl

/-- The end of a body is emitted only when the body has ended. -/
theorem end_mem_bodyFrames {status : Nat} {headers : List (JsString × JsString)} {body : Option UpstreamBody}
    (h : .end ∈ (bodyFrames body).1) : (Fetch.response status headers body).complete = true := by
  have hchunk : ∀ l : List Bytes, WebUiResponsePart.end ∉ l.map chunkFrame := by
    intro l hmem
    obtain ⟨bytes, -, hbytes⟩ := List.mem_map.mp hmem
    cases hbytes
  cases body with
  | none => rfl
  | some body =>
    unfold bodyFrames at h
    dsimp only at h
    split at h
    · exact absurd h (hchunk _)
    · rename_i hdone
      simp [Fetch.complete, hdone]
    · exact absurd h (hchunk _)

theorem Readable.append {frames frames' : List WebUiResponsePart} (h : Readable frames) (h' : Readable frames') :
    Readable (frames ++ frames') :=
  fun body hb => (List.mem_append.mp hb).elim (h body) (h' body)

theorem Readable.start {status : Nat} {headers : List (JsString × List JsString)} {frames : List WebUiResponsePart}
    (h : Readable frames) : Readable (.start status headers :: frames) := by
  intro body hb
  rcases List.mem_cons.mp hb with hb | hb
  · cases hb
  · exact h body hb

theorem readable_chunks (l : List Bytes) : Readable (l.map chunkFrame) := by
  intro body hb
  obtain ⟨bytes, -, hbytes⟩ := List.mem_map.mp hb
  cases hbytes
  rw [Base64.decode_encode]
  rfl

theorem readable_end {tail : List WebUiResponsePart} (h : tail = [] ∨ tail = [.end]) : Readable tail := by
  intro body hb
  rcases h with rfl | rfl <;> simp at hb

theorem readable_answer (status : Nat) (text : String) : Readable (answer status text) :=
  ((readable_chunks [ascii (js text)]).append (readable_end (Or.inr rfl))).start

theorem readable_bodyFrames (body : Option UpstreamBody) : Readable (bodyFrames body).1 := by
  obtain ⟨chunks, tail, htail, hframes⟩ := bodyFrames_tail body
  rw [hframes]
  exact (readable_chunks chunks).append (readable_end htail)

/-- A complete response of the plugin's own, when no server has answered. -/
theorem genuine_own {toLowerCase : JsString → JsString} {upstream : Option Fetch} {frames : List WebUiResponsePart}
    (hframes : IsResponse frames) (hread : Readable frames) (h : upstream = none ∨ upstream = some .failed) :
    Genuine toLowerCase upstream frames := by
  refine ⟨Or.inl hframes, hread, ?_, ?_, ?_⟩
  · intro status headers body hu
    rcases h with rfl | rfl <;> cases hu
  · intro status headers body hu
    rcases h with rfl | rfl <;> cases hu
  · intro status headers body hu
    rcases h with rfl | rfl <;> cases hu

/-- The frames of an answer whose body has not broken. -/
theorem genuine_response {toLowerCase : JsString → JsString} {P : Platform} {status : Nat}
    {headers : List (JsString × JsString)} {body : Option UpstreamBody} :
    Genuine toLowerCase (some (.response status headers body))
      (.start status (responseHeaders P headers) :: (bodyFrames body).1) := by
  have hcarried : carried (.start status (responseHeaders P headers) :: (bodyFrames body).1) =
      (Fetch.response status headers body).bytes := carried_bodyFrames status headers body
  have hr := isResponse_response status (responseHeaders P headers) body
  have hread : Readable (.start status (responseHeaders P headers) :: (bodyFrames body).1) :=
    (readable_bodyFrames body).start
  refine ⟨Or.inl hr, hread, ?_, ?_, ?_⟩
  · intro status' headers' body' hu
    cases hu
    exact hcarried ▸ List.prefix_rfl
  · intro status' headers' body' hu hend
    cases hu
    rcases List.mem_cons.mp hend with hend | hend
    · cases hend
    · exact ⟨end_mem_bodyFrames hend, hcarried⟩
  · intro status' headers' body' hu _
    cases hu
    rw [body_of_response hr hread]
    exact hcarried ▸ List.prefix_rfl

/-- Two starts are no response. -/
theorem not_isResponse {status status' : Nat} {headers headers' : List (JsString × List JsString)}
    {frames frames' : List WebUiResponsePart} :
    ¬ IsResponse (.start status headers :: (frames ++ .start status' headers' :: frames')) := by
  intro ⟨_, _, chunks, tail, htail, h⟩
  have hmem : WebUiResponsePart.start status' headers' ∈ chunks.map WebUiResponsePart.chunk ++ tail := by
    rw [← (List.cons.inj h).2]
    simp
  rcases List.mem_append.mp hmem with hmem | hmem
  · obtain ⟨_, -, hchunk⟩ := List.mem_map.mp hmem
    cases hchunk
  · rcases htail with rfl | rfl <;> simp at hmem

/-- The channel's frames for a request whose server was asked. -/
theorem webUiRequest_response {P : Platform} {proxy : WebUiProxy} {fetch : FetchRequest → Fetch}
    {request : WebUiHttpRequest} {q : FetchRequest} (hq : prepare P proxy request = .fetches q) {status : Nat}
    {headers : List (JsString × JsString)} {body : Option UpstreamBody} (hf : fetch q = .response status headers body) :
    webUiRequest P (some (.proxied proxy)) fetch request =
      .start status (responseHeaders P headers) ::
        ((bodyFrames body).1 ++
          if (Fetch.response status headers body).broken then answer 502 "OpenCode WebUI request failed" else []) := by
  simp only [webUiRequest, Seam.request, WebUiProxy.request, hq, hf]
  cases body with
  | none => rfl
  | some body =>
    obtain ⟨reads, ending⟩ := body
    cases ending <;> simp [bodyFrames, Fetch.broken]

/-- The frames the plugin emits for a request are genuine exactly if the server's body,
    when it answered with one, has not broken. -/
theorem responses_genuine (P : Platform) (seam : Option Seam) (fetch : FetchRequest → Fetch)
    (request : WebUiHttpRequest)
    (toLowerCase : JsString → JsString) :
    Genuine toLowerCase (seam.bind fun s => s.upstream P fetch request) (webUiRequest P seam fetch request) ↔
      ∀ u, (seam.bind fun s => s.upstream P fetch request) = some u → u.broken = false := by
  cases seam with
  | none =>
    have hg : Genuine toLowerCase none (webUiRequest P none fetch request) :=
      genuine_own (isResponse_answer ..) (readable_answer _ _) (Or.inl rfl)
    exact ⟨fun _ u hu => (by cases hu), fun _ => hg⟩
  | some seam =>
    cases seam with
    | unreachable =>
      have hg : Genuine toLowerCase none (webUiRequest P (some .unreachable) fetch request) :=
        genuine_own (isResponse_answer ..) (readable_answer _ _) (Or.inl rfl)
      exact ⟨fun _ u hu => (by cases hu), fun _ => hg⟩
    | proxied proxy =>
      simp only [Option.bind_some, Seam.upstream]
      cases hq : prepare P proxy request with
      | thrown =>
        have hframes : webUiRequest P (some (.proxied proxy)) fetch request =
            answer 502 "OpenCode WebUI request failed" := by
          simp [webUiRequest, Seam.request, WebUiProxy.request, hq]
        rw [hframes]
        exact ⟨fun _ u hu => (by cases hu), fun _ => genuine_own (isResponse_answer ..) (readable_answer _ _)
          (Or.inl rfl)⟩
      | page html =>
        have hframes : webUiRequest P (some (.proxied proxy)) fetch request =
            .start 200 [(js "content-type", [js "text/html; charset=utf-8"]), (js "cache-control", [js "no-store"])] ::
              ([ascii html].map chunkFrame ++ [.end]) := by
          simp [webUiRequest, Seam.request, WebUiProxy.request, hq]
        rw [hframes]
        refine ⟨fun _ u hu => (by cases hu), fun _ => genuine_own ?_ ?_ (Or.inl rfl)⟩
        · exact ⟨_, _, [Base64.encode (ascii html)], [.end], Or.inr rfl, rfl⟩
        · exact ((readable_chunks _).append (readable_end (Or.inr rfl))).start
      | fetches q =>
        dsimp only
        cases hf : fetch q with
        | waiting =>
          have hframes : webUiRequest P (some (.proxied proxy)) fetch request = [] := by
            simp [webUiRequest, Seam.request, WebUiProxy.request, hq, hf]
          rw [hframes]
          refine ⟨fun _ u hu => (by cases hu; rfl), fun _ => ⟨Or.inr ⟨rfl, rfl⟩, ?_, ?_, ?_, ?_⟩⟩
          · intro body hb; cases hb
          · intro status headers body hu; cases hu
          · intro status headers body hu; cases hu
          · intro status headers body hu; cases hu
        | failed =>
          have hframes : webUiRequest P (some (.proxied proxy)) fetch request =
              answer 502 "OpenCode WebUI request failed" := by
            simp [webUiRequest, Seam.request, WebUiProxy.request, hq, hf]
          rw [hframes]
          exact ⟨fun _ u hu => (by cases hu; rfl),
            fun _ => genuine_own (isResponse_answer ..) (readable_answer _ _) (Or.inr rfl)⟩
        | response status headers body =>
          rw [webUiRequest_response hq hf]
          constructor
          · intro h u hu
            cases hu
            by_contra hbroken
            rw [Bool.not_eq_false] at hbroken
            rw [if_pos hbroken] at h
            rcases h.grammar with hr | ⟨hw, -⟩
            · exact not_isResponse hr
            · cases hw
          · intro h
            have hbroken := h _ rfl
            rw [hbroken, if_neg Bool.false_ne_true, List.append_nil]
            exact genuine_response

/-! ## A body that breaks -/

/-- A URL is its path on the base, without a query. -/
def plainPlatform : Platform :=
  { resolve := fun path base => some { base with pathname := path, searchParams := [] }
    href := fun url => url.origin ++ url.pathname
    validHeader := fun _ _ => true
    toLowerCase := id
    fromBase64 := fun text => (Base64.decode text).getD []
    base64UrlText := fun text => ((Base64.decode text).getD []).map (·.toUInt16) }

def localProxy : WebUiProxy := ⟨⟨js "http://127.0.0.1:4096", js "/", []⟩, js "/hub", 1⟩

def getPage : WebUiHttpRequest :=
  { tunnelId := js "50000000-0000-4000-8000-000000000000"
    requestId := js "60000000-0000-4000-8000-000000000000"
    method := js "GET"
    path := js "/page"
    headers := []
    body := none }

/-- The server sends one text, and its connection is lost. -/
def lostAfter (text : String) : Fetch := .response 200 [] (some ⟨[ascii (js text)], .failed⟩)

/-- The browser is given the error page as the rest of what the server sent, and the
    response is complete. -/
theorem error_page_appended :
    let frames := webUiRequest plainPlatform (some (.proxied localProxy)) (fun _ => lostAfter "hi") getPage
    let response := PendingResponse.init.receiveAll id frames
    response.ended = true ∧ response.statusCode = 200 ∧
      response.body = ascii (js "hiOpenCode WebUI request failed") ∧ ¬ Genuine id (some (lostAfter "hi")) frames := by
  refine ⟨by decide +kernel, by decide +kernel, by decide +kernel, fun h => ?_⟩
  exact absurd (h.unforged _ _ _ rfl (by decide +kernel)) (by decide +kernel)

end NotifyHub.Link
