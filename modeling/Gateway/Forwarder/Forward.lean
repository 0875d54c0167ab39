import Gateway.Dispatch.Client
import Gateway.Forwarder.StreamPipe

/-! # Forwarding to a provider -/

namespace Gateway.Forwarder

open Lib
open Dispatch (UpstreamTarget)
open Protocol (Format toInt32)

variable (request : ForwardRequest) (rj : RapidJson) (target : UpstreamTarget)

structure ForwardRequest where
  method : Bytes := []
  body : Bytes := []
  contentType : Bytes := []
  accept : Bytes := []
  userAgent : Bytes := []
  requestId : Bytes := []
  idempotencyKey : Bytes := []
  headers : List (Bytes × Bytes) := []
  stream : Bool := false
  streamSource : Format := .openAIChatCompletions
  streamTarget : Format := .anthropic
  streamWrite : Bool := true
  streamPolicy : Option StreamPolicyFn := none
  clientDisconnected : Bool := true

structure ForwardResult extends BodyReading where
  statusCode : Int := 0
  stream : Bool := false
  body : Bytes := []
  firstTokenMs : Int := 0
  durationMs : Int := 0
  clientDisconnect : Bool := false
  streamIncomplete : Bool := false
  streamTimeout : Bool := false
  outputStarted : Bool := false
  providerResponseReceived : Bool := false
  providerStatusCode : Int := 0
  policyBlocked : Bool := false
  policyFailedClosed : Bool := false
  policyErrorCode : Bytes := []
  policyMessage : Bytes := []
  contentType : Bytes := []
  responseHeaders : List (Bytes × Bytes) := []
  retryAfterMs : Int := 0
  disconnectReason : Bytes := []
  cancellationReason : Bytes := []
  error : Bytes := []
  deriving DecidableEq

def isExplicitProviderRejection (result : ForwardResult) : Bool :=
  result.providerResponseReceived && result.providerStatusCode ≥ 400

structure ResponseStart where
  statusCode : Int
  contentType : Bytes
  headers : List (Bytes × Bytes)
  deriving DecidableEq

structure Forwarded where
  result : ForwardResult
  responseStart : Option ResponseStart := none
  actions : List PipeAction := []

inductive Cancellation where
  | beforeResponse
  | duringBody
  | beforeReturn
  | never
  deriving DecidableEq

structure ProviderResponse where
  statusCode : Int
  headers : List (Bytes × Bytes) := []

def ProviderResponse.contentType (response : ProviderResponse) : Bytes :=
  ((response.headers.find? fun (name, _) => lower name = "content-type").map (·.2)).getD []

structure Provider where
  clientAvailable : Bool := true
  call : Except Int ProviderResponse
  reads : List ReadOutcome := []
  surroundings : Surroundings
  cancellation : Cancellation := .never
  durationMs : Int := 0

def hopByHop (name : Bytes) : Bool :=
  [ascii "connection", "keep-alive", "proxy-authenticate", "proxy-authorization", "te", "trailer",
    "transfer-encoding", "upgrade"].contains (lower name)

def reservedHeaders : List Bytes :=
  ["host", "content-length", "content-type", "accept", "user-agent", "x-request-id",
    "idempotency-key", "api_key", "anthropic_version", "anthropic_beta", "provider_scenario"]

def isTokenByte (c : UInt8) : Bool := isAlnum c || (ascii "!#$%&'*+-.^_`|~").contains c

def validAuthHeader (name value : Bytes) : Bool :=
  !name.isEmpty && name.length ≤ 64 && !value.isEmpty && value.length ≤ 4096
    && name.all isTokenByte && !value.contains 13 && !value.contains 10 && !value.contains 0
    && !hopByHop name && !reservedHeaders.contains (lower name)

def validAuthHeaders (names : List Bytes) (totalBytes : Nat) : List (Bytes × Bytes) → Bool
  | [] => true
  | (name, value) :: headers =>
    let totalBytes := totalBytes + name.length + value.length
    validAuthHeader name value && !names.contains (lower name) && totalBytes ≤ 32 * 1024
      && validAuthHeaders (lower name :: names) totalBytes headers

def validateTargetAuthHeaders (headers : List (Bytes × Bytes)) : Bool :=
  headers.length ≤ 16 && validAuthHeaders [] 0 headers

def safeRequestHeader (name : Bytes) : Bool :=
  !hopByHop name
    && [ascii "accept", "user-agent", "x-request-id", "idempotency-key"].contains (lower name)

def safeResponseHeader (name : Bytes) (target : UpstreamTarget) : Bool :=
  let key := lower name
  if hopByHop name then false
  else if target.allowedResponseHeaders.isEmpty then
    [ascii "content-type", "retry-after", "x-request-id", "openai-request-id"].contains key
      || startsWith key "x-ratelimit-" || startsWith key "ratelimit-"
  else target.allowedResponseHeaders.any (lower · = key)

def strtol (text : Bytes) : Option Int :=
  let text := cstr text
  let unsigned := text.dropWhile isSpace
  let negative := unsigned.head? = some 45
  let digits := if negative || unsigned.head? = some 43 then unsigned.drop 1 else unsigned
  if text.isEmpty then some 0
  else if digits.isEmpty || !digits.all isDigit then none
  else if negative then some (max (-2 ^ 63) (-digitsValue digits))
  else some (min (2 ^ 63 - 1) (digitsValue digits))

def retryAfter (headers : List (Bytes × Bytes)) : Int :=
  headers.foldl (fun ms (name, value) =>
    if lower name = "retry-after" then
      match strtol value with
      | some n => if n ≥ 0 then toInt32 (n * 1000) else ms
      | none => ms
    else ms) 0

structure ProviderCall where
  method : Bytes
  url : Bytes
  headers : List (Bytes × Bytes)
  body : Bytes
  proxy : Option Bytes
  deriving DecidableEq

def upstreamUrl : Bytes :=
  if target.upstreamPath.isEmpty then target.baseUrl
  else
    let separator : Bytes :=
      if !target.baseUrl.isEmpty && target.baseUrl.getLast? ≠ some 47
          && target.upstreamPath.head? ≠ some 47 then "/" else []
    target.baseUrl ++ separator ++ target.upstreamPath

def upperHexDigit (n : UInt8) : UInt8 := if n < 10 then 48 + n else 55 + n

def urlEncodeComponent (value : Bytes) : Bytes :=
  value.flatMap fun c =>
    if isAlnum c || (ascii "-_.~").contains c then [c]
    else [37, upperHexDigit (c >>> 4), upperHexDigit (c &&& 15)]

def buildProxyAuthUrl (baseUrl username password : Bytes) : Bytes :=
  match find "://" baseUrl with
  | none => baseUrl
  | some schemeEnd =>
    baseUrl.take (schemeEnd + 3) ++ urlEncodeComponent username ++ ":"
      ++ urlEncodeComponent password ++ "@" ++ baseUrl.drop (schemeEnd + 3)

def proxyUrl (target : UpstreamTarget) : Option Bytes :=
  if target.proxyUrl.isEmpty then none
  else if target.proxyUsername.isEmpty then some target.proxyUrl
  else some (buildProxyAuthUrl target.proxyUrl target.proxyUsername target.proxyPassword)

def headerIf (name value : Bytes) : List (Bytes × Bytes) :=
  if value.isEmpty then [] else [(name, value)]

def upstreamHeaders (request : ForwardRequest) : List (Bytes × Bytes) :=
  target.authHeaders
    ++ target.requestHeaders.filter (!hopByHop ·.1)
    ++ request.headers.filter (safeRequestHeader ·.1)
    ++ headerIf "Accept" request.accept
    ++ headerIf "User-Agent" request.userAgent
    ++ headerIf "X-Request-ID" request.requestId
    ++ headerIf "Idempotency-Key" request.idempotencyKey
    ++ headerIf "Content-Type"
        (if !request.contentType.isEmpty then request.contentType
         else if !request.body.isEmpty then "application/json" else [])

def providerCall (request : ForwardRequest) : ProviderCall where
  method := if target.httpMethod.isEmpty then request.method else target.httpMethod
  url := upstreamUrl target
  headers := upstreamHeaders target request
  body := request.body
  proxy := proxyUrl target

def mediaType (contentType : Bytes) : Bytes :=
  ((lower contentType).takeWhile (· ≠ 59)).rdropWhile isSpace

def hasInvalidSuccessPayload (statusCode : Int) (contentType body : Bytes) :
    Bool :=
  if statusCode < 200 ∨ statusCode ≥ 300 ∨ statusCode = 204 ∨ statusCode = 205 then false
  else if body.isEmpty then true
  else
    let type := mediaType contentType
    if type == "application/json" || (type.length > 5 && endsWith type "+json") then
      (rj.parse body).isNone
    else false

def isEventStreamContentType (contentType : Bytes) : Bool :=
  (mediaType contentType).dropWhile isSpace = "text/event-stream"

inductive BodyOutcome where
  | complete (body : Bytes)
  | failed (errno : Int)
  | tooLarge

def maxResponseBodySize : Nat := 64 * 1024 * 1024

def readBody (body : Bytes) : List ReadOutcome → BodyOutcome
  | [] => .complete body
  | .error errno :: _ => .failed errno
  | .bytes [] :: _ => .complete body
  | .bytes (b :: bs) :: reads =>
    if body.length + (b :: bs).length > maxResponseBodySize then .tooLarge
    else readBody (body ++ b :: bs) reads

def ownError (type message : Bytes) : Bytes :=
  "\x7b\"error\":\x7b\"type\":\"" ++ type ++ "\",\"message\":\"" ++ message ++ "\"\x7d\x7d"

def protocolError (message : Bytes) : Bytes := ownError "provider_protocol_error" message

def unavailableError (message : Bytes) : Bytes := ownError "provider_unavailable" message

def noteUsage (body : Bytes) (r : ForwardResult) : ForwardResult :=
  { r with
    toBodyReading := (parseUsage rj body r.toBodyReading).toOption.getD r.toBodyReading }

def bodyFailed (errno : Int) (r : ForwardResult) : ForwardResult × Bytes :=
  let r := { r with contentType := "application/json" }
  if StreamPipe.providerDisconnectErrno errno then
    ({ r with statusCode := 503, error := "provider response body connection unavailable" },
     unavailableError
       "Provider connection was unavailable before the response body completed")
  else
    ({ r with statusCode := 502, error := "provider response body read failed" },
     protocolError "Provider response ended before the body was complete")

def acceptBody (durationMs : Int) (invalidStreamContentType : Bool)
    (body : Bytes) (r : ForwardResult) : ForwardResult :=
  let r := { r with durationMs }
  let (r, body) :=
    if hasInvalidSuccessPayload rj r.statusCode r.contentType body then
      ({ r with
          statusCode := 502
          contentType := "application/json"
          error := "provider returned incomplete or invalid JSON" },
       protocolError "Provider returned incomplete or invalid JSON")
    else (noteUsage rj body r, body)
  { r with
    stream := false
    body :=
      if invalidStreamContentType then
        protocolError "Streaming provider response must use text/event-stream"
      else body }

def receiveBody (provider : Provider) (invalidStreamContentType : Bool)
    (r : ForwardResult) : ForwardResult :=
  match readBody [] provider.reads with
  | .tooLarge =>
    { r with statusCode := 502, error := "upstream response exceeded configured body limit" }
  | .complete body => acceptBody rj provider.durationMs invalidStreamContentType body r
  | .failed errno =>
    let (r, body) := bodyFailed errno r
    acceptBody rj provider.durationMs invalidStreamContentType body r

def streamPipe (request : ForwardRequest) (mode : ProtocolMode) : StreamPipe where
  config := { policy := request.streamPolicy }
  mode
  source := request.streamSource
  target := request.streamTarget
  rj

def clientSide (env : Surroundings) : Surroundings :=
  if request.streamWrite then env
  else { env with write := fun _ data => data.length }

def takeStreamResult (s : StreamResult) (r : ForwardResult) : ForwardResult :=
  { r with
    toUsageReading := s.toUsageReading
    stream := true
    firstTokenMs := s.firstTokenMs
    durationMs := s.totalDurationMs
    clientDisconnect := s.clientDisconnect
    streamIncomplete := s.incomplete
    streamTimeout := s.timedOut
    policyBlocked := s.policyBlocked
    policyFailedClosed := s.policyFailedClosed
    policyErrorCode := s.policyErrorCode
    policyMessage := s.policyMessage }

def endedByPolicy (r : ForwardResult) : ForwardResult :=
  { r with
    statusCode := if r.policyBlocked then 400 else 503
    contentType := "text/event-stream"
    disconnectReason :=
      if r.policyBlocked then "content_policy_blocked" else "content_policy_unavailable"
    cancellationReason :=
      if r.policyBlocked then "content_policy_blocked" else "content_policy_failed_closed"
    error := r.policyMessage }

def endedByClient (r : ForwardResult) : ForwardResult :=
  let r := { r with
    disconnectReason := "client_disconnect"
    cancellationReason :=
      if r.outputStarted then "client_disconnect_after_output"
      else "client_disconnect_before_output" }
  if !r.outputStarted then
    { r with statusCode := 499, error := "client disconnected before response output" }
  else if r.streamIncomplete then
    { r with
      statusCode := 502
      error := "client disconnected before provider stream completion" }
  else r

def endedEarly (r : ForwardResult) : ForwardResult :=
  let r := { r with
    statusCode := if r.streamTimeout then 502 else 503
    contentType := "application/json"
    disconnectReason := if r.streamTimeout then "provider_timeout" else "provider_disconnect"
    cancellationReason := "provider_stream_incomplete"
    error :=
      if r.streamTimeout then "provider stream timed out before a terminal event"
      else "provider stream ended before a terminal event" }
  if r.outputStarted then r
  else { r with
    body :=
      if r.streamTimeout then protocolError "Provider stream ended before completion"
      else unavailableError
        "Provider connection was unavailable before the stream completed" }

def explainStream (r : ForwardResult) : ForwardResult :=
  if r.policyBlocked || r.policyFailedClosed then endedByPolicy r
  else if r.clientDisconnect then endedByClient r
  else if r.streamIncomplete then endedEarly r
  else r

def noteCancelled (cancelled : Bool) (r : ForwardResult) : ForwardResult :=
  if cancelled then { r with clientDisconnect := true, streamIncomplete := true } else r

def receiveStream (request : ForwardRequest) (mode : ProtocolMode)
    (provider : Provider) (cancelled : Bool) (r : ForwardResult) : ForwardResult × List
      PipeAction :=
  let st := (streamPipe rj request mode).run (clientSide request provider.surroundings)
    provider.reads
  let r := takeStreamResult st.result { r with outputStarted := !(clientBytes st.log).isEmpty }
  (explainStream (noteCancelled cancelled r), st.log)

def watched : Bool := request.stream && request.clientDisconnected

def cancelledBy (provider : Provider) (times : List Cancellation) :
    Bool :=
  watched request && times.contains provider.cancellation

def applyTransportCancellation (cancelled : Bool) (r : ForwardResult) :
    ForwardResult :=
  if !cancelled || r.clientDisconnect then r
  else
    { r with
      statusCode := if r.outputStarted then 502 else 499
      stream := request.stream
      clientDisconnect := true
      streamIncomplete := true
      disconnectReason := "client_disconnect"
      cancellationReason :=
        if r.outputStarted then "client_disconnect_after_output"
        else "client_disconnect_before_output"
      error :=
        if r.outputStarted then "client disconnected before provider stream completion"
        else "client disconnected before response output" }

def callFailed (provider : Provider) (errno : Int) : Forwarded :=
  if cancelledBy request provider [.beforeResponse] then
    { result :=
        { statusCode := 499
          stream := true
          clientDisconnect := true
          streamIncomplete := true
          disconnectReason := "client_disconnect"
          cancellationReason := "client_disconnect_before_output"
          error := "client disconnected before provider response headers" } }
  else
    -- ETIMEDOUT
    let timedOut := errno = 110
    let statusCode : Int := if timedOut then 502 else 503
    { result :=
        { statusCode
          error :=
            if timedOut then "provider response header timed out"
            else "upstream connection unavailable"
          body :=
            if timedOut then protocolError
              "Provider did not return response headers before the first-token deadline"
            else unavailableError
              "Provider connection was unavailable before a response was received" }
      responseStart :=
        if request.stream then
          some { statusCode, contentType := "application/json", headers := [] }
        else none }

def invalidStreamContentType (response : ProviderResponse) : Bool :=
  request.stream && response.statusCode < 400 && !isEventStreamContentType response.contentType

def responded (request : ForwardRequest) (response : ProviderResponse) :
    ForwardResult :=
  let r : ForwardResult :=
    { statusCode := response.statusCode
      providerResponseReceived := true
      providerStatusCode := response.statusCode
      contentType := response.contentType
      responseHeaders := response.headers.filter (safeResponseHeader ·.1 target)
      retryAfterMs := retryAfter response.headers }
  if invalidStreamContentType request response then
    { r with
      statusCode := 502
      contentType := "application/json"
      error := "streaming upstream response did not use text/event-stream" }
  else r

def receive (target : UpstreamTarget) (request : ForwardRequest)
    (mode : ProtocolMode) (provider : Provider) (response : ProviderResponse) : Forwarded :=
  let r := responded target request response
  let (result, actions) :=
    if !request.stream || r.statusCode ≥ 400 then
      (receiveBody rj provider (invalidStreamContentType request response) r, [])
    else
      receiveStream rj request mode provider
        (cancelledBy request provider [.beforeResponse, .duringBody]) r
  { result := applyTransportCancellation request
      (cancelledBy request provider [.beforeResponse, .duringBody, .beforeReturn]) result
    responseStart := some
      { statusCode := r.statusCode, contentType := r.contentType, headers := r.responseHeaders }
    actions }

def forward (transport : ProviderCall → Provider) (target : UpstreamTarget)
    (request : ForwardRequest) (mode : ProtocolMode) : Forwarded :=
  let provider := transport (providerCall target request)
  if !validateTargetAuthHeaders target.authHeaders then
    { result :=
        { statusCode := 502
          error := "invalid upstream auth header contract"
          body := protocolError "Provider authentication contract is invalid" } }
  else if target.tlsFingerprint && !target.tlsFingerprintProfileId.isEmpty then
    { result :=
        { statusCode := 501
          error := "TLS fingerprint profile not implemented"
          body := ownError "unsupported" "TLS fingerprint profiling is not supported" } }
  else if (upstreamUrl target).isEmpty then
    { result := { statusCode := 502, error := "empty upstream URL" } }
  else if !provider.clientAvailable then
    { result := { statusCode := 502, error := "HTTP client not available" } }
  else
    match provider.call with
    | .error errno => callFailed request provider errno
    | .ok response => receive rj target request mode provider response

def ForwardResult.facts (r : ForwardResult) : Bool × Bool × Int :=
  (r.outputStarted, r.providerResponseReceived, r.providerStatusCode)

variable (r : ForwardResult)

variable (rj : RapidJson)

@[simp] theorem facts_endedByClient : (endedByClient r).facts = r.facts := by
  unfold endedByClient
  dsimp only
  split
  · rfl
  · split <;> rfl

@[simp] theorem facts_endedEarly : (endedEarly r).facts = r.facts := by
  unfold endedEarly
  dsimp only
  split <;> rfl

@[simp] theorem facts_explainStream : (explainStream r).facts = r.facts := by
  unfold explainStream
  split
  · rfl
  · split
    · exact facts_endedByClient r
    · split
      · exact facts_endedEarly r
      · rfl

@[simp] theorem facts_noteCancelled (cancelled : Bool) (r : ForwardResult) :
    (noteCancelled cancelled r).facts = r.facts := by
  unfold noteCancelled
  split <;> rfl

@[simp] theorem facts_applyTransportCancellation (request : ForwardRequest) (cancelled : Bool)
    (r : ForwardResult) : (applyTransportCancellation request cancelled r).facts = r.facts := by
  unfold applyTransportCancellation
  split <;> rfl

@[simp] theorem facts_acceptBody (durationMs : Int) (invalid : Bool) (body : Bytes)
    (r : ForwardResult) : (acceptBody rj durationMs invalid body r).facts = r.facts := by
  unfold acceptBody
  dsimp only
  split <;> rfl

@[simp] theorem facts_bodyFailed (errno : Int) (r : ForwardResult) :
    (bodyFailed errno r).1.facts = r.facts := by
  unfold bodyFailed
  dsimp only
  split <;> rfl

@[simp] theorem facts_receiveBody (provider : Provider) (invalid : Bool)
    (r : ForwardResult) : (receiveBody rj provider invalid r).facts = r.facts := by
  unfold receiveBody
  split
  · rfl
  · exact facts_acceptBody _ _ _ _ _
  · exact (facts_acceptBody _ _ _ _ _).trans (facts_bodyFailed _ r)

theorem facts_receiveStream (request : ForwardRequest) (mode : ProtocolMode)
    (provider : Provider) (cancelled : Bool) (r : ForwardResult) :
    (receiveStream rj request mode provider cancelled r).1.facts =
      (!(clientBytes (receiveStream rj request mode provider cancelled r).2).isEmpty,
        r.providerResponseReceived, r.providerStatusCode) := by
  unfold receiveStream
  dsimp only
  rw [facts_explainStream, facts_noteCancelled]
  rfl

theorem facts_responded (target : UpstreamTarget) (request : ForwardRequest)
    (response : ProviderResponse) :
    (responded target request response).facts = (false, true, response.statusCode) := by
  unfold responded
  dsimp only
  split <;> rfl

theorem facts_receive (target : UpstreamTarget) (request : ForwardRequest)
    (mode : ProtocolMode) (provider : Provider) (response : ProviderResponse) :
    (receive rj target request mode provider response).result.facts =
      (!(clientBytes (receive rj target request mode provider response).actions).isEmpty, true,
        response.statusCode) := by
  have hr := facts_responded target request response
  simp only [receive, facts_applyTransportCancellation]
  split
  · rw [facts_receiveBody]; exact hr
  · rw [facts_receiveStream]
    simp only [ForwardResult.facts, Prod.mk.injEq] at hr ⊢
    exact ⟨trivial, hr.2⟩

section

variable {rj : RapidJson} {transport : ProviderCall → Provider} {target : UpstreamTarget}
  {request : ForwardRequest} {mode : ProtocolMode}

variable (rj transport target request mode) in
theorem forward_cases : ((forward rj transport target request mode).actions = [] ∧
      (forward rj transport target request mode).result.facts = (false, false, 0)) ∨
    ∃ response, (transport (providerCall target request)).call = .ok response ∧
      forward rj transport target request mode =
        receive rj target request mode (transport (providerCall target request)) response := by
  unfold forward
  dsimp only
  split_ifs
  · exact .inl ⟨rfl, rfl⟩
  · exact .inl ⟨rfl, rfl⟩
  · exact .inl ⟨rfl, rfl⟩
  · exact .inl ⟨rfl, rfl⟩
  · split
    · left
      unfold callFailed
      split <;> exact ⟨rfl, rfl⟩
    · next response hc => exact .inr ⟨response, hc, rfl⟩

theorem clientBytes_forward
    (h : (forward rj transport target request mode).result.outputStarted = false) :
    clientBytes (forward rj transport target request mode).actions = [] := by
  rcases forward_cases rj transport target request mode with ⟨ha, -⟩ | ⟨response, -, heq⟩
  · rw [ha]; rfl
  · rw [heq] at h ⊢
    have hf := congrArg Prod.fst (facts_receive rj target request mode
      (transport (providerCall target request)) response)
    rw [ForwardResult.facts, h] at hf
    exact List.isEmpty_iff.1 (Bool.not_eq_eq_eq_not.1 hf.symm)

def ProviderResponse.start (response : ProviderResponse) (target : UpstreamTarget) :
    ResponseStart where
  statusCode := response.statusCode
  contentType := response.contentType
  headers := response.headers.filter (safeResponseHeader ·.1 target)

theorem answer_of_rejection
    (h : isExplicitProviderRejection (forward rj transport target request mode).result) :
    ∃ response, (transport (providerCall target request)).call = .ok response ∧
      400 ≤ response.statusCode ∧
      (forward rj transport target request mode).result.providerStatusCode = response.statusCode ∧
      (forward rj transport target request mode).responseStart = some (response.start target) := by
  rw [isExplicitProviderRejection, Bool.and_eq_true, decide_eq_true_eq] at h
  rcases forward_cases rj transport target request mode with ⟨-, hf⟩ | ⟨response, hc, heq⟩
  · have hre : (forward rj transport target request mode).result.providerResponseReceived =
        false := congrArg (·.2.1) hf
    rw [hre] at h
    cases h.1
  · have hs : (forward rj transport target request mode).result.providerStatusCode =
        response.statusCode := by
      rw [heq]
      exact congrArg (·.2.2) (facts_receive rj target request mode
        (transport (providerCall target request)) response)
    have hr : 400 ≤ response.statusCode := h.2.trans_eq hs
    refine ⟨response, hc, hr, hs, ?_⟩
    have hv : invalidStreamContentType request response = false := by
      simp [invalidStreamContentType, hr]
    rw [heq]
    simp only [receive, responded, hv]; rfl

theorem unbroken_of_not_stream (hs : request.stream = false) :
    (forward rj transport target request mode).result.clientDisconnect = false ∧
      (forward rj transport target request mode).result.streamIncomplete = false := by
  have hw : ∀ provider times, cancelledBy request provider times = false := by
    intro provider times
    simp [cancelledBy, watched, hs]
  have ha : ∀ durationMs invalid body (r : ForwardResult),
      (acceptBody rj durationMs invalid body r).clientDisconnect = r.clientDisconnect ∧
        (acceptBody rj durationMs invalid body r).streamIncomplete = r.streamIncomplete := by
    intro durationMs invalid body r
    unfold acceptBody
    dsimp only
    split <;> exact ⟨rfl, rfl⟩
  have hr : ∀ provider invalid (r : ForwardResult),
      (receiveBody rj provider invalid r).clientDisconnect = r.clientDisconnect ∧
        (receiveBody rj provider invalid r).streamIncomplete = r.streamIncomplete := by
    intro provider invalid r
    unfold receiveBody
    split
    · exact ⟨rfl, rfl⟩
    · exact ha _ _ _ r
    · next errno _ =>
      have hf : (bodyFailed errno r).1.clientDisconnect = r.clientDisconnect ∧
          (bodyFailed errno r).1.streamIncomplete = r.streamIncomplete := by
        unfold bodyFailed
        dsimp only
        split <;> exact ⟨rfl, rfl⟩
      exact ⟨(ha _ _ _ _).1.trans hf.1, (ha _ _ _ _).2.trans hf.2⟩
  unfold forward
  dsimp only
  split_ifs
  · exact ⟨rfl, rfl⟩
  · exact ⟨rfl, rfl⟩
  · exact ⟨rfl, rfl⟩
  · exact ⟨rfl, rfl⟩
  · split
    · unfold callFailed; rw [hw]; exact ⟨rfl, rfl⟩
    · next response _ =>
      have hre : (responded target request response).clientDisconnect = false ∧
          (responded target request response).streamIncomplete = false := by
        unfold responded
        dsimp only
        split <;> exact ⟨rfl, rfl⟩
      simp only [receive, hs, Bool.not_false, Bool.true_or, if_true, hw, applyTransportCancellation]
      exact ⟨(hr _ _ _).1.trans hre.1, (hr _ _ _).2.trans hre.2⟩

end

end Gateway.Forwarder
