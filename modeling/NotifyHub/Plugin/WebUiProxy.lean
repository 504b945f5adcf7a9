/-
  NotifyHub.Plugin.WebUiProxy — one WebUI request at the plugin
  (packages/plugin/src/webui-proxy.ts and `ControlChannel.webUiRequest` of
  control-channel.ts): the request is passed to the local OpenCode server, and what comes
  back is cut into frames.

  The local server answers when it likes and its body ends, stalls or breaks where it
  likes; an aborted signal is one way for it to break. `fetch` says what it has done so
  far. The URL and `Headers` classes the proxy calls are the `Platform`.

  A body is cut without losing a byte (`pieces_flatten`), into chunks the frame's schema
  has room for (`pieces_fit`).
-/

import NotifyHub.Lib.Base64
import NotifyHub.Plugin.FrameParsers

namespace NotifyHub.Plugin

open Control
open Base64 (Bytes)

/-- The parts of a `URL` the proxy reads, with the query's parameters in order. -/
structure Url where
  origin : JsString
  pathname : JsString
  searchParams : List (JsString × JsString)

structure Platform where
  /-- `new URL(path, base)`; `none` when it throws. -/
  resolve : JsString → Url → Option Url
  /-- `url.toString()` -/
  href : Url → JsString
  /-- `Headers` takes the name with the value; otherwise `append` and `set` throw. -/
  validHeader : JsString → JsString → Bool
  /-- `name.toLowerCase()` -/
  toLowerCase : JsString → JsString
  /-- `Buffer.from(text, "base64")` -/
  fromBase64 : JsString → Bytes
  /-- `Buffer.from(text, "base64url").toString("utf8")` -/
  base64UrlText : JsString → JsString

structure WebUiProxy where
  baseUrl : Url
  directory : JsString
  generation : Nat

/-- What `fetch` is called with. -/
structure FetchRequest where
  url : Url
  method : JsString
  headers : List (JsString × JsString)
  body : Option Bytes

/-! ## The local server -/

inductive BodyEnd where
  | open
  | done
  | failed
  deriving DecidableEq

/-- What `reader.read()` has given so far, and how it went on. -/
structure UpstreamBody where
  reads : List Bytes
  ending : BodyEnd

inductive Fetch where
  | waiting
  | failed
  | response (status : Nat) (headers : List (JsString × JsString)) (body : Option UpstreamBody)

/-- Every byte the server's body has given. -/
def Fetch.bytes : Fetch → Bytes
  | .response _ _ (some body) => body.reads.flatten
  | _ => []

/-- The server has given its whole body. -/
def Fetch.complete : Fetch → Bool
  | .response _ _ (some body) => body.ending == .done
  | .response _ _ none => true
  | _ => false

/-- The server answered, and its body broke. -/
def Fetch.broken : Fetch → Bool
  | .response _ _ (some body) => body.ending == .failed
  | _ => false

/-! ## The request to the server -/

def MAX_CHUNK_BYTES : Nat := 450000

def HOP_BY_HOP_HEADERS : List JsString :=
  ["connection", "keep-alive", "proxy-authenticate", "proxy-authorization", "te", "trailer", "transfer-encoding",
    "upgrade"].map js

/-- `[A-Za-z0-9_-]` -/
def isSlug (c : UInt16) : Bool :=
  (65 ≤ c && c ≤ 90) || (97 ≤ c && c ≤ 122) || (48 ≤ c && c ≤ 57) || c == 95 || c == 45

/-- `/^\/([A-Za-z0-9_-]+)\/session(?:\/(ses[A-Za-z0-9_-]+))?$/` -/
def legacyLink (pathname : JsString) : Option (JsString × Option JsString) :=
  let slug := (pathname.drop 1).takeWhile isSlug
  let tail := (pathname.drop 1).dropWhile isSlug
  let session := tail.drop (js "/session/").length
  if startsWith pathname (js "/") = false ∨ slug = [] then none
  else if tail = js "/session" then some (slug, none)
  else if startsWith tail (js "/session/ses") ∧ session.length > 3 ∧ session.all isSlug then some (slug, some session)
  else none

/-- `Buffer.from(text)` of a text of ASCII characters. -/
def ascii (s : JsString) : Bytes := s.map (·.toUInt8)

def legacyScript : Option JsString → JsString
  | some session =>
    js "const key=btoa(location.origin).replace(/\\+/g,'-').replace(/\\//g,'_').replace(/=+$/,'');location.replace('/server/'+key+'/session/'+\"" ++
      session ++ js "\");"
  | none => js "location.replace('/');"

section

variable (P : Platform) (proxy : WebUiProxy)

/-- The request stays on the origin of the local server. -/
def onOrigin (path : JsString) (url : Url) : Bool :=
  startsWith path (js "/") && !startsWith path (js "//") && !(path.contains 92) && url.origin == proxy.baseUrl.origin

/-- The page an old deep link is answered with. -/
def legacyPage (request : WebUiHttpRequest) (url : Url) : Option JsString := do
  let (slug, session) ← legacyLink url.pathname
  if proxy.generation = 2 ∧ request.method = js "GET" ∧ P.base64UrlText slug = proxy.directory then
    some (js "<!doctype html><script>" ++ legacyScript session ++ js "</script>")
  else none

def skipsHeader (name : JsString) : Bool :=
  let lower := P.toLowerCase name
  HOP_BY_HOP_HEADERS.contains lower || [js "host", js "origin", js "referer", js "accept-encoding"].contains lower

/-- `headers.set(name, value)`, of a name in lower case. -/
def setHeader (name value : JsString) (headers : List (JsString × JsString)) : List (JsString × JsString) :=
  headers.filter (fun h => P.toLowerCase h.1 ≠ name) ++ [(name, value)]

def requestHeaders (request : WebUiHttpRequest) : List (JsString × JsString) :=
  let headers := (request.headers.filter fun h => !skipsHeader P h.1).flatMap fun h => h.2.map (h.1, ·)
  let headers :=
    if request.headers.any (·.1 == js "origin") then setHeader P (js "origin") proxy.baseUrl.origin headers else headers
  let headers :=
    if request.headers.any (·.1 == js "referer") then setHeader P (js "referer") (P.href proxy.baseUrl) headers
      else headers
  if proxy.generation = 1 then setHeader P (js "x-opencode-directory") proxy.directory headers else headers

def requestUrl (url : Url) : Url :=
  if proxy.generation = 1 ∧ url.searchParams.any (·.1 == js "directory") = false ∧ proxy.directory ≠ js "unknown" then
    { url with searchParams := url.searchParams ++ [(js "directory", proxy.directory)] }
  else url

/-- What `request` does before it waits for the server. -/
inductive Prepared where
  | thrown
  | page (html : JsString)
  | fetches (request : FetchRequest)

def prepare (request : WebUiHttpRequest) : Prepared :=
  match P.resolve request.path proxy.baseUrl with
  | none => .thrown
  | some url =>
    if onOrigin proxy request.path url = false then .thrown
    else
      match legacyPage P proxy request url with
      | some html => .page html
      | none =>
        if (requestHeaders P proxy request).all fun h => P.validHeader h.1 h.2 then
          .fetches
            { url := requestUrl proxy url
              method := request.method
              headers := requestHeaders P proxy request
              body := request.body.map P.fromBase64 }
        else .thrown

end

/-! ## The frames of the response -/

/-- How far an `async` function has come. -/
inductive Outcome where
  | running
  | returned
  | thrown
  deriving DecidableEq

/-- `for (offset = 0; offset < bytes.length; offset += MAX_CHUNK_BYTES)` -/
def pieces (bytes : Bytes) : List Bytes :=
  (List.range ((bytes.length + (MAX_CHUNK_BYTES - 1)) / MAX_CHUNK_BYTES)).map fun i =>
    (bytes.drop (i * MAX_CHUNK_BYTES)).take MAX_CHUNK_BYTES

def chunkFrame (bytes : Bytes) : WebUiResponsePart := .chunk (Base64.encode bytes)

/-- `responseHeaders`: `forEach` gives each name once, with its values joined. -/
def responseHeaders (P : Platform) (headers : List (JsString × JsString)) : List (JsString × List JsString) :=
  (headers.filter fun h =>
    !(HOP_BY_HOP_HEADERS ++ [js "content-length", js "content-encoding"]).contains (P.toLowerCase h.1)).map
      fun h => (h.1, [h.2])

/-- The frames of a body, once its headers are out. -/
def bodyFrames : Option UpstreamBody → List WebUiResponsePart × Outcome
  | none => ([.end], .returned)
  | some body =>
    let chunks := (body.reads.flatMap pieces).map chunkFrame
    match body.ending with
    | .open => (chunks, .running)
    | .done => (chunks ++ [.end], .returned)
    | .failed => (chunks, .thrown)

def WebUiProxy.request (P : Platform) (proxy : WebUiProxy) (fetch : FetchRequest → Fetch) (request : WebUiHttpRequest) :
    List WebUiResponsePart × Outcome :=
  match prepare P proxy request with
  | .thrown => ([], .thrown)
  | .page html =>
    ([.start 200 [(js "content-type", [js "text/html; charset=utf-8"]), (js "cache-control", [js "no-store"])],
      chunkFrame (ascii html), .end], .returned)
  | .fetches q =>
    match fetch q with
    | .waiting => ([], .running)
    | .failed => ([], .thrown)
    | .response status headers body =>
      (.start status (responseHeaders P headers) :: (bodyFrames body).1, (bodyFrames body).2)

/-- A `webUiRequest` option: without a server to ask, or a proxy. -/
inductive Seam where
  | unreachable
  | proxied (proxy : WebUiProxy)

def Seam.request (P : Platform) (fetch : FetchRequest → Fetch) (request : WebUiHttpRequest) :
    Seam → List WebUiResponsePart × Outcome
  | .unreachable => ([], .thrown)
  | .proxied proxy => proxy.request P fetch request

/-- What the server did for the request, when it was asked. -/
def Seam.upstream (P : Platform) (fetch : FetchRequest → Fetch) (request : WebUiHttpRequest) : Seam → Option Fetch
  | .unreachable => none
  | .proxied proxy =>
    match prepare P proxy request with
    | .fetches q => some (fetch q)
    | _ => none

/-- A complete response of the channel itself. -/
def answer (status : Nat) (text : String) : List WebUiResponsePart :=
  [.start status [(js "content-type", [js "text/plain; charset=utf-8"])], chunkFrame (ascii (js text)), .end]

/-- `ControlChannel.webUiRequest` on a live socket: the frames it emits. -/
def webUiRequest (P : Platform) (seam : Option Seam) (fetch : FetchRequest → Fetch) (request : WebUiHttpRequest) :
    List WebUiResponsePart :=
  match seam with
  | none => answer 501 "WebUI tunnel is unavailable"
  | some seam =>
    match seam.request P fetch request with
    | (frames, .thrown) => frames ++ answer 502 "OpenCode WebUI request failed"
    | (frames, _) => frames

/-! ## Cutting a body -/

theorem flatten_slices {α : Type} (l : List α) (n k : Nat) :
    ((List.range k).map fun i => (l.drop (i * n)).take n).flatten = l.take (k * n) := by
  induction k with
  | zero => simp
  | succ k ih =>
    rw [List.range_succ, List.map_append, List.flatten_append, ih, Nat.succ_mul, List.take_add]
    simp

/-- Put together again the pieces are the bytes. -/
theorem pieces_flatten (bytes : Bytes) : (pieces bytes).flatten = bytes := by
  have h := flatten_slices bytes MAX_CHUNK_BYTES ((bytes.length + (MAX_CHUNK_BYTES - 1)) / MAX_CHUNK_BYTES)
  refine h.trans (List.take_of_length_le ?_)
  unfold MAX_CHUNK_BYTES
  omega

/-- A piece fits the 700000 characters a frame's body may have. -/
theorem pieces_fit {bytes piece : Bytes} (h : piece ∈ pieces bytes) : (Base64.encode piece).length ≤ 700000 := by
  obtain ⟨i, -, rfl⟩ := List.mem_map.mp h
  have hlen : ((bytes.drop (i * MAX_CHUNK_BYTES)).take MAX_CHUNK_BYTES).length ≤ MAX_CHUNK_BYTES :=
    List.length_take_le ..
  rw [Base64.length_encode]
  unfold MAX_CHUNK_BYTES at hlen ⊢
  omega

end NotifyHub.Plugin
