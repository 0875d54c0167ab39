import Gateway.Server.Preparation

/-! # Realtime sessions -/

namespace Gateway.Server.Realtime

open Lib Dispatch
open Usage (UsageEvent)
open Protocol (toInt32)
open Protocol.Converter (ParsedRequest parseObject textAt objectAt)

inductive Opcode
  | continuation
  | text
  | binary
  | close
  | ping
  | pong
  deriving DecidableEq

inductive CloseCode
  | normalClosure
  | protocolError
  | invalidFramePayloadData
  | policyViolation
  | internalServerError
  deriving DecidableEq

def maxFrame : Nat := 1024 * 1024

structure Frame where
  opcode : Opcode
  payload : Bytes
  fits : payload.length ≤ maxFrame
  deriving DecidableEq

def Frame.size (f : Frame) : Int := f.payload.length

inductive Received
  | failed
  | frame (f : Frame)
  deriving DecidableEq

inductive Effect
  | platform (action : Action)
  | toClient (opcode : Opcode) (payload : Bytes)
  | toProvider (opcode : Opcode) (payload : Bytes)
  | closedClient (code : CloseCode) (reason : Bytes)
  | closedProvider (code : CloseCode)
  deriving DecidableEq

def actions (log : List Effect) : List Action :=
  log.filterMap fun
    | .platform action => some action
    | _ => none

structure Caps where
  sessionBytes : Int := 512 * 1024 * 1024
  sessionFrames : Int := 65536
  sessionDurationSec : Int := 1800
  deriving DecidableEq

structure WebSocketCall where
  url : Bytes
  headers : List (Bytes × Bytes)
  userAgent : Option Bytes
  proxy : Option Bytes
  deriving DecidableEq

structure Outside where
  world : World
  caps : Caps
  first : Received
  hasHttpClient : Bool
  connects : WebSocketCall → Bool
  initialSend : Bool

structure Bridge where
  log : List Effect := []
  clockCalls : Nat := 0
  exit : Exit := .running
  result : Int := 0
  deriving DecidableEq

namespace Bridge

def emit (e : Effect) (b : Bridge) : Bridge := { b with log := b.log ++ [e] }

def act (a : Action) (b : Bridge) : Bridge := b.emit (.platform a)

def returned (result : Int) (b : Bridge) : Bridge := { b with exit := .returned, result }

def refuse (message : Option Bytes) (code : CloseCode) (reason : Bytes) (b : Bridge) : Bridge :=
  let b := match message with
    | none => b
    | some text => b.emit (.toClient .text text)
  (b.emit (.closedClient code reason)).returned (-1)

def readClock (w : World) (b : Bridge) : Int × Bridge :=
  (w.now (actions b.log) b.clockCalls, { b with clockCalls := b.clockCalls + 1 })

def abort (w : World) (lease reason : Bytes) (disposition : LeaseAbortDisposition) (b : Bridge) :
    Bridge :=
  b.act (.aborted lease reason disposition 0 (w.abort (actions b.log) lease reason disposition 0))

end Bridge

def errorEvent (code message : Bytes) : Bytes :=
  "\x7b\"type\":\"error\",\"error\":\x7b\"code\":\"" ++ code ++ "\",\"message\":\"" ++ message
    ++ "\"\x7d\x7d"

variable (w : World) (req : HttpRequest) (rj : RapidJson)

variable (target : UpstreamTarget)

def parseRealtimeModel (event : Bytes) : Bytes :=
  match parseObject rj event with
  | none => []
  | some document =>
    let models := [textAt document "model",
      (objectAt document "session").bind (textAt · "model"),
      (objectAt document "response").bind (textAt · "model")]
    (models.findSome? fun model => model.filter (!·.isEmpty)).getD []

def photonWebsocketUrl (url : Bytes) : Bytes :=
  if startsWith url "wss://" then "https://" ++ url.drop 6
  else if startsWith url "ws://" then "http://" ++ url.drop 5
  else url

def upstreamUrl : Bytes :=
  let url := photonWebsocketUrl target.websocketUrl
  if url.isEmpty then
    photonWebsocketUrl (target.baseUrl
      ++ (if target.upstreamPath.isEmpty then ascii "/v1/responses" else target.upstreamPath))
  else url

def proxyOf : Option Bytes :=
  if target.proxyUrl.isEmpty then none
  else if target.proxyUsername.isEmpty then some target.proxyUrl
  else
    match find "://" target.proxyUrl with
    | none => some target.proxyUrl
    | some schemeEnd => some (target.proxyUrl.take (schemeEnd + 3) ++ target.proxyUsername ++ ":"
        ++ target.proxyPassword ++ "@" ++ target.proxyUrl.drop (schemeEnd + 3))

def webSocketCall : WebSocketCall where
  url := upstreamUrl target
  headers := target.authHeaders ++ target.requestHeaders
    ++ (if target.websocketProtocol.isEmpty then []
      else [(ascii "Sec-WebSocket-Protocol", target.websocketProtocol)])
  userAgent := if req.userAgent.isEmpty then none else some req.userAgent
  proxy := proxyOf target

structure Caller where
  start : Int
  requestId : Bytes
  model : Bytes
  deriving DecidableEq

def isLease (result : DispatchResult) : Bool := result.outcome = .ok || result.outcome = .reauth

def dispatchLoop (w : World) (request : DispatchRequest) (deadline : Int) :
    Nat → Bridge → DispatchResult × Bridge
  | retries, b =>
    let result := w.dispatch (actions b.log) request
    let b := b.act (.dispatched request result)
    if isLease result || !isRetryablePlatformDispatch result then (result, b)
    else
      match retries with
      | 0 => (result, b)
      | retries + 1 =>
        let (now, b) := b.readClock w
        if now ≥ deadline then (result, b)
        else
          dispatchLoop w request deadline retries
            (b.act (.slept (UInt64.ofNat (platformDispatchRetryDelayMs (8 - retries)) * 1000)))

def dispatchRequestOf (caller : Caller) (parsed : ParsedRequest) (keyHash first : Bytes) :
    DispatchRequest where
  apiKeyHash := keyHash
  requestedModel := caller.model
  sessionHash := computeSessionHash w keyHash parsed.metadataUserId first caller.model
  clientIp := req.clientIp
  requestId := caller.requestId
  cachedAuthVersion := cachedAuthVersion w keyHash
  endpoint := 10
  metadataUserId := parsed.metadataUserId
  stream := true
  operation := "realtime_session"
  inboundFormat := "openai_responses"
  httpMethod := "GET"
  requestPath := req.path
  contentType := "application/json"
  capability := "realtime"
  idempotencyKey := req.idempotencyKey
  realtimeSession := true
  requestQuery := req.query
  requestBody := first

structure FirstEvent where
  frame : Frame
  parsed : ParsedRequest
  model : Bytes
  rawKey : Bytes

def readFirst (o : Outside) (req : HttpRequest) : Except Bridge FirstEvent :=
  match o.first with
  | .failed => .error (Bridge.refuse none .protocolError "first realtime event must be JSON" {})
  | .frame frame =>
    if frame.payload.isEmpty || !(frame.opcode = .text || frame.opcode = .binary) then
      .error (Bridge.refuse none .protocolError "first realtime event must be JSON" {})
    else
      match Protocol.Converter.parse o.world.rj frame.payload .openAIResponses with
      | .error _ => .error { exit := .faulted }
      | .ok parsed =>
        let model :=
          if parsed.model.isEmpty then parseRealtimeModel o.world.rj frame.payload else parsed.model
        let rawKey := extractApiKey req
        if model.isEmpty then
          .error (Bridge.refuse (some (errorEvent "invalid_request" "model is required"))
            .invalidFramePayloadData "model is required" {})
        else if rawKey.isEmpty then
          .error (Bridge.refuse none .policyViolation "missing API key" {})
        else .ok { frame, parsed, model, rawKey }

def requestIdOf (start : Int) : Bytes :=
  if req.requestId.isEmpty then hex64 (w.xxh64 (w.stamp start) 0) else req.requestId

def dispatchSession (first : FirstEvent) : Except Bridge (Caller × DispatchResult × Bridge) :=
  let (start, b) := Bridge.readClock w {}
  let caller : Caller := { start, requestId := requestIdOf w req start, model := first.model }
  let request :=
    dispatchRequestOf w req caller first.parsed (w.hashKey first.rawKey) first.frame.payload
  let (now, b) := b.readClock w
  let (dispatched, b) := dispatchLoop w request (now + 45 * secondNs) 8 b
  if isLease dispatched then .ok (caller, dispatched, b)
  else
    .error (b.refuse (some (errorEvent "provider_unavailable" "No realtime provider is available"))
      .policyViolation "provider unavailable")

def recordEvidence (lease : Bytes) (stage : LeaseEvidenceStage) (detail : Bytes)
    (log : List Effect) :
    RpcAck × List Effect :=
  let log := log ++ [.platform (.storedEvidence lease stage detail)]
  let ack := w.reportEvidence (actions log) lease stage detail
  let log := log ++ [.platform (.reportedEvidence lease stage detail ack)]
  (ack, if ack.acknowledged then log ++ [.platform (.acknowledgedEvidence lease stage)] else log)

def openUpstream (o : Outside) (req : HttpRequest) (first : Frame) (dispatched : DispatchResult)
    (b : Bridge) : Except Bridge Bridge :=
  let lease := dispatched.leaseToken
  let target := dispatched.upstream
  if !Forwarder.validateTargetAuthHeaders target.authHeaders then
    .error ((b.abort o.world lease "invalid_upstream_auth_headers" .noCharge).refuse
      (some (errorEvent "provider_protocol_error" "Provider authentication contract is invalid"))
      .internalServerError "invalid upstream auth headers")
  else if !o.hasHttpClient then
    .error ((b.abort o.world lease "realtime_connect_failed" .noCharge).refuse none
      .internalServerError "upstream client unavailable")
  else
    let (ack, log) := recordEvidence o.world lease .forwarded
      "realtime Provider handshake authorized" b.log
    let b := { b with log }
    if !ack.acknowledged then
      .error ((b.abort o.world lease "forward_evidence_unavailable" .noCharge).refuse none
        .internalServerError "dispatch evidence unavailable")
    else if !o.connects (webSocketCall req target) then
      .error ((b.abort o.world lease "realtime_connect_failed" .unknown).refuse
        (some (errorEvent "provider_unavailable" "Realtime provider handshake failed"))
        .internalServerError "upstream handshake failed")
    else
      let b := b.emit (.toProvider first.opcode first.payload)
      if !o.initialSend then
        .error (((b.abort o.world lease "realtime_initial_send_failed" .unknown).emit
          (.closedProvider .internalServerError)).refuse none .internalServerError
          "upstream send failed")
      else .ok b

inductive Side
  | upstream
  | client
  deriving DecidableEq

inductive Pc
  | head
  | receiving
  | received (f : Frame)
  | counted (f : Frame)
  | added (f : Frame) (total elapsedMs : Int)
  | exceeded (f : Frame)
  | capped (f : Frame)
  | tested (f : Frame)
  | sending (f : Frame)
  | sent
  | leaving
  | ended
  deriving DecidableEq

structure Tokens where
  input : Int := 0
  output : Int := 0
  cache : Int := 0
  reasoning : Int := 0
  deriving DecidableEq

structure Session where
  log : List Effect := []
  clockCalls : Nat := 0
  done : Bool := false
  clientDisconnected : Bool := false
  frames : Int := 1
  sessionBytes : Int := 0
  tokens : Tokens := {}
  outputEvidenceRecorded : Bool := false
  sessionCapExceeded : Bool := false
  upstream : Pc := .head
  client : Pc := .head
  forwarded : List Frame := []
  deriving DecidableEq

structure Event where
  side : Side
  received : Received := .failed
  elapsedMs : Int := 0
  sends : Bool := true
  deriving DecidableEq

namespace Session

def pc (s : Session) : Side → Pc
  | .upstream => s.upstream
  | .client => s.client

def goto (s : Session) (side : Side) (pc : Pc) : Session :=
  match side with
  | .upstream => { s with upstream := pc }
  | .client => { s with client := pc }

def emit (s : Session) (e : Effect) : Session := { s with log := s.log ++ [e] }

end Session

def toInt64 (n : Int) : Int := n.bmod (2 ^ 64)

def tokenCount (usage : Json) (keys : List Bytes) : Int :=
  (keys.findSome? fun key => (usage.lookup key).bind fun value =>
    if value.isInt then some (max 0 value.getInteger)
    else if value.isUint then some (toInt32 value.getInteger)
    else none).getD 0

def usageObject (document : Json) : Option Json :=
  (objectAt document "usage").or ((objectAt document "response").bind (objectAt · "usage"))

def accumulateRealtimeUsage (frame : Bytes) (tokens : Tokens) : Tokens :=
  match (parseObject rj frame).bind usageObject with
  | none => tokens
  | some usage =>
    { input := max tokens.input (tokenCount usage ["input_tokens", "prompt_tokens"])
      output := max tokens.output (tokenCount usage ["output_tokens", "completion_tokens"])
      cache := max tokens.cache (tokenCount usage ["cache_read_input_tokens", "cached_tokens"])
      reasoning := max tokens.reasoning (tokenCount usage ["reasoning_tokens"]) }

structure Context where
  world : World
  caps : Caps
  lease : Bytes

section

variable (c : Context)

def Caps.areExceeded (caps : Caps) (total frames elapsedMs : Int) : Bool :=
  total > caps.sessionBytes || frames > caps.sessionFrames
    || elapsedMs > caps.sessionDurationSec * 1000

def receive (side : Side) (received : Received) (s : Session) : Session :=
  match side, received with
  | .upstream, .failed => s.goto side .leaving
  | .upstream, .frame f =>
    s.goto side (if f.payload.isEmpty || f.opcode = .close then .leaving else .received f)
  | .client, .failed => { s with clientDisconnected := true }.goto side .leaving
  | .client, .frame f =>
    if f.opcode = .close then { s with clientDisconnected := true }.goto side .leaving
    else s.goto side (if f.payload.isEmpty then .leaving else .received f)

def send (side : Side) (f : Frame) (sends : Bool) (s : Session) : Session :=
  if f.opcode = .text ∨ f.opcode = .binary then
    let s := { s with forwarded := s.forwarded ++ [f] }
    match side with
    | .upstream =>
      let s := if f.opcode = .text then
          { s with tokens := accumulateRealtimeUsage c.world.rj f.payload s.tokens }
        else s
      (s.emit (.toClient f.opcode f.payload)).goto side (if sends then .sent else .head)
    | .client => (s.emit (.toProvider f.opcode f.payload)).goto side .head
  else s.goto side .head

def outputEvidence (side : Side) (s : Session) : Session :=
  if s.outputEvidenceRecorded then s.goto side .head
  else
    { s with
      outputEvidenceRecorded := true
      log := (recordEvidence c.world c.lease .outputStarted
        "first realtime frame written to client" s.log).2 }.goto side .head

def closing : Side → Effect
  | .upstream => .closedClient .normalClosure []
  | .client => .closedProvider .normalClosure

def step (s : Session) (e : Event) : Session :=
  match s.pc e.side with
  | .head => s.goto e.side (if s.done then .leaving else .receiving)
  | .receiving => receive e.side e.received s
  | .received f => { s with frames := toInt32 (s.frames + 1) }.goto e.side (.counted f)
  | .counted f =>
    let total := toInt64 (s.sessionBytes + f.size)
    { s with sessionBytes := total }.goto e.side (.added f total e.elapsedMs)
  | .added f total elapsedMs =>
    s.goto e.side
      (if c.caps.areExceeded total s.frames elapsedMs then .exceeded f else .tested f)
  | .exceeded f => { s with sessionCapExceeded := true }.goto e.side (.capped f)
  | .capped f => { s with done := true }.goto e.side (.tested f)
  | .tested f => s.goto e.side (if s.done then .leaving else .sending f)
  | .sending f => send c e.side f e.sends s
  | .sent => outputEvidence c e.side s
  | .leaving => ({ s with done := true }.emit (closing e.side)).goto e.side .ended
  | .ended => s

def run (events : List Event) (s : Session) : Session := events.foldl (step c) s

end

def startSession (first : Frame) (b : Bridge) : Session where
  log := b.log
  clockCalls := b.clockCalls
  sessionBytes := first.size

def disconnectReason (s : Session) : Bytes :=
  if s.sessionCapExceeded then "session_cap_exceeded"
  else if s.clientDisconnected then "client_disconnect"
  else "normal"

def usageEvent (caller : Caller) (dispatched : DispatchResult) (durationMs : Int) (s : Session) :
    UsageEvent where
  leaseToken := dispatched.leaseToken
  requestId := caller.requestId
  apiKeyId := dispatched.apiKeyId
  userId := dispatched.upstream.userId
  accountId := dispatched.upstream.accountId
  groupId := dispatched.upstream.groupId
  model := caller.model
  upstreamModel := dispatched.upstream.mappedModel
  inputTokens := s.tokens.input
  outputTokens := s.tokens.output
  cacheReadTokens := s.tokens.cache
  durationMs := toInt32 durationMs
  stream := true
  clientDisconnect := s.clientDisconnected
  statusCode := 101
  realtimeDurationMs := toInt32 durationMs
  realtimeFrames := s.frames
  disconnectReason := disconnectReason s
  reasoningTokens := s.tokens.reasoning
  upstreamEndpoint := dispatched.upstream.upstreamPath
  pricingVersion := "v1"

def nsPerMs : Int := 1000000

def settle (caller : Caller) (dispatched : DispatchResult) (s : Session) : Bridge :=
  let b : Bridge := { log := s.log, clockCalls := s.clockCalls }
  let (now, b) := b.readClock w
  let durationMs := (now - caller.start).tdiv nsPerMs
  let b := if s.sessionCapExceeded then
      b.abort w dispatched.leaseToken "realtime_session_cap_exceeded" .safe
    else b
  (b.act (.recordedUsage (usageEvent caller dispatched durationMs s))).returned 0

structure Opened where
  first : Frame
  caller : Caller
  dispatched : DispatchResult
  bridge : Bridge

def Opened.context (opened : Opened) (o : Outside) : Context where
  world := o.world
  caps := o.caps
  lease := opened.dispatched.leaseToken

def openSession (o : Outside) (req : HttpRequest) : Except Bridge Opened := do
  let first ← readFirst o req
  let (caller, dispatched, b) ← dispatchSession o.world req first
  let bridge ← openUpstream o req first.frame dispatched b
  return { first := first.frame, caller, dispatched, bridge }

def bridgeRealtime (o : Outside) (req : HttpRequest) (events : List Event) : Bridge :=
  match openSession o req with
  | .error b => b
  | .ok opened =>
    let s := run (opened.context o) events (startSession opened.first opened.bridge)
    if s.upstream = .ended ∧ s.client = .ended then
      settle o.world opened.caller opened.dispatched s
    else { log := s.log, clockCalls := s.clockCalls }

end Gateway.Server.Realtime
