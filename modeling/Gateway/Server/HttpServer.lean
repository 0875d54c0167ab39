import Gateway.Server.Routes
import Gateway.Server.TrustedProxy

/-! # The server side of a request -/

namespace Gateway.Server

open Lib

structure Incoming where
  verb : Bytes
  target : Bytes
  headers : List (Bytes × Bytes)
  header : Bytes → Bytes
  peerIp : Bytes
  acceptsWebsocket : Bool

structure HttpServerConfig where
  maxBodySize : Nat
  trustedProxyCidrs : Bytes

inductive Handled where
  | answered (status : Int) (contentType body : Bytes)
  | notAccepted
  | handleWebsocket (req : HttpRequest)
  | handleRequest (req : HttpRequest)

def hasWord (word text : Bytes) : Bool := contains (lower text) word

def isWebsocketUpgrade (upgrade connection : Bytes) : Bool :=
  hasWord "websocket" upgrade && hasWord "upgrade" connection

def stoull (text : Bytes) : Option Nat :=
  let number := (cstr text).dropWhile isSpace
  let minus := startsWith number "-"
  let digits := (if minus || startsWith number "+" then number.tail else number).takeWhile isDigit
  if digits = [] ∨ 2 ^ 64 ≤ digitsValue digits then none
  else some (if minus then (2 ^ 64 - digitsValue digits) % 2 ^ 64 else digitsValue digits)

namespace Incoming

variable (libc : Libc) (config : HttpServerConfig) (req : Incoming)

def path : Bytes := req.target.take ((find "?" req.target).getD req.target.length)

def query : Bytes := req.target.drop req.path.length

def clientIp : Bytes :=
  let xff := req.header "X-Forwarded-For"
  let realIp := req.header "X-Real-IP"
  if libc.ipv4InCidrs req.peerIp config.trustedProxyCidrs then
    if xff ≠ [] then (xff.take ((find "," xff).getD xff.length)).rdropWhile (· = 32)
    else if realIp ≠ [] then realIp
    else req.peerIp
  else req.peerIp

def forwardedHeaders : List (Bytes × Bytes) :=
  req.headers.filter fun (key, _) => key == "Accept" || key == "User-Agent"
    || key == "X-Request-ID" || key == "Idempotency-Key"

def gatewayRequest (method body contentType : Bytes) (disconnected : Bool) : HttpRequest where
  method
  path := req.path
  query := req.query
  body
  authorization := req.header "Authorization"
  xApiKey := req.header "X-Api-Key"
  clientIp := req.clientIp libc config
  contentType
  accept := req.header "Accept"
  userAgent := req.header "User-Agent"
  requestId := req.header "X-Request-ID"
  idempotencyKey := req.header "Idempotency-Key"
  headers := req.forwardedHeaders
  clientDisconnected := disconnected

def isUpgrade : Bool := isWebsocketUpgrade (req.header "Upgrade") (req.header "Connection")

def upgraded : Handled :=
  let auth := req.header "Authorization"
  if !((matchCapability "GET" req.path).any fun matched => matched.spec.realtime) then
    .answered 404 "application/json" (ascii "\x7b\"error\":\x7b\"type\":\"not_found_error\"," ++
      ascii "\"message\":\"Unknown or unsupported WebSocket endpoint\"\x7d\x7d")
  else if !(startsWith auth "Bearer " && auth.length > 7) && req.header "X-Api-Key" == [] then
    .answered 401 "application/json" (ascii
      "\x7b\"error\":\x7b\"type\":\"authentication_error\"," ++
      ascii "\"message\":\"Missing API key\"\x7d\x7d")
  else if !isSafeQueryString req.query then
    .answered 400 "application/json" (ascii
      "\x7b\"error\":\x7b\"type\":\"invalid_request_error\"," ++
      ascii "\"message\":\"Malformed query string\"\x7d\x7d")
  else if !req.acceptsWebsocket then .notAccepted
  else .handleWebsocket (req.gatewayRequest libc config "GET" [] [] false)

def readLength (len : Nat) : List Bytes → Bytes → Bytes
  | [], body => body
  | chunk :: reads, body =>
    if body.length < len then
      let got := chunk.take (len - body.length)
      if got = [] then body else readLength len reads (body ++ got)
    else body

def readEncoded (limit : Nat) : List Bytes → Bytes → Option Bytes
  | [], body => some body
  | chunk :: reads, body =>
    let got := chunk.take (64 * 1024)
    if got = [] then some body
    else if body.length + got.length > limit then none
    else readEncoded limit reads (body ++ got)

def routed (body : Bytes) : Handled :=
  .handleRequest (req.gatewayRequest libc config req.verb body (req.header "Content-Type") true)

def httpHandler (reads : List Bytes) : Handled :=
  if req.isUpgrade then req.upgraded libc config
  else if req.header "Content-Length" ≠ [] then
    match stoull (req.header "Content-Length") with
    | none => .answered 400 [] []
    | some len =>
      if len > config.maxBodySize then
        .answered 413 "application/json" "\x7b\"error\":\"request too large\"\x7d"
      else req.routed libc config (readLength len reads [])
  else if req.header "Transfer-Encoding" ≠ [] then
    match readEncoded config.maxBodySize reads [] with
    | none => .answered 413 [] []
    | some body => req.routed libc config body
  else req.routed libc config []

def acceptedLength : Option Nat :=
  if req.isUpgrade ∨ req.header "Content-Length" = [] then none
  else (stoull (req.header "Content-Length")).filter (· ≤ config.maxBodySize)

def Delivers (len : Nat) (reads : List Bytes) : Prop :=
  len ≤ (reads.takeWhile (· ≠ [])).flatten.length

theorem readLength_length_iff (len : Nat) (reads : List Bytes) (body : Bytes)
    (h : body.length ≤ len) : (readLength len reads body).length = len ↔
      len ≤ body.length + (reads.takeWhile (· ≠ [])).flatten.length := by
  induction reads generalizing body with
  | nil => simp only [readLength, List.takeWhile_nil, List.flatten_nil, List.length_nil]; omega
  | cons chunk reads ih =>
    unfold readLength
    by_cases hle : body.length < len
    · by_cases hch : chunk = []
      · simp [hle, hch]; omega
      · have hgo : chunk.take (len - body.length) ≠ [] := by
          simp [hch]
          omega
        have hlen : (body ++ chunk.take (len - body.length)).length ≤ len := by
          simp
          omega
        simp only [hle, hgo, if_true, if_false, ih _ hlen]
        simp [hch]
        omega
    · simp [hle]; omega

theorem httpHandler_accepted {len : Nat} (h : req.acceptedLength config = some len)
    (reads : List Bytes) :
    req.httpHandler libc config reads = req.routed libc config (readLength len reads []) := by
  unfold acceptedLength at h
  split at h
  · cases h
  · rename_i hpl
    obtain ⟨hst, hfi⟩ := Option.filter_eq_some_iff.mp h
    simp only [not_or] at hpl
    simp only [decide_eq_true_eq] at hfi
    simp [httpHandler, hpl.1, hpl.2, hst, Nat.not_lt.mpr hfi]

def RoutedWhole (reads : List Bytes) (len : Nat) : Prop :=
  ∀ routed, req.httpHandler libc config reads = .handleRequest routed → routed.body.length = len

theorem upload_whole_iff {len : Nat} (h : req.acceptedLength config = some len)
    (reads : List Bytes) : req.RoutedWhole libc config reads len ↔ Delivers len reads := by
  have hroute := httpHandler_accepted libc config req h reads
  have hbody := readLength_length_iff len reads [] (Nat.zero_le len)
  simp only [List.length_nil, Nat.zero_add] at hbody
  unfold RoutedWhole Delivers
  rw [hroute, ← hbody]
  constructor
  · intro hwhole; exact hwhole _ rfl
  · rintro hlength routed hrouted; cases hrouted; exact hlength

end Incoming

def fiveBytes : Incoming where
  verb := "POST"
  target := "/v1/audio/transcriptions"
  headers := [("Content-Length", "5")]
  header name := if name = "Content-Length" then "5" else []
  peerIp := "10.0.0.1"
  acceptsWebsocket := false

theorem upload_whole_hello : fiveBytes.RoutedWhole glibc ⟨1024, []⟩ ["he", "llo"] 5 :=
  (fiveBytes.upload_whole_iff glibc ⟨1024, []⟩ (by decide) ["he", "llo"]).mpr
    (show 5 ≤ _ by decide)

theorem truncated_upload_routed : fiveBytes.acceptedLength ⟨1024, []⟩ = some 5 ∧
      ∃ req, fiveBytes.httpHandler glibc ⟨1024, []⟩ ["he", []] = .handleRequest req ∧
        req.body = "he" := by
  refine ⟨by decide, _, rfl, rfl⟩

end Gateway.Server
