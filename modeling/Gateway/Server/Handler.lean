import Gateway.Server.Preparation

/-! # The dispatch loop and the settlement -/

namespace Gateway.Server

open Lib Dispatch Forwarder Protocol
open Usage (UsageEvent)
open Protocol (Format toInt32)
open Protocol.Converter (ValidationResult)

namespace Context

variable (c : Context)

variable (st : Handler) (target : UpstreamTarget)

def abortAck (reason : Bytes) (disposition : LeaseAbortDisposition) (providerStatus : Int)
    (st : Handler) : RpcAck :=
  c.world.abort st.log st.lease reason disposition providerStatus

def abort (reason : Bytes) (disposition : LeaseAbortDisposition) (providerStatus : Int)
    (st : Handler) : Handler :=
  st.emit (.aborted st.lease reason disposition providerStatus
    (c.abortAck reason disposition providerStatus st))

def abortUnknown (reason : Bytes) (st : Handler) : Handler :=
  c.abort reason .unknown st.forwardResult.providerStatusCode st

def reportError (error : ErrorReportData) (st : Handler) : Handler :=
  st.emit (.reportedError error (c.world.reportError st.log error))

def store (a : Action) (st : Handler) : Handling :=
  if c.world.outboxThrows st.log then .error st.threw else .ok (st.emit a)

def giveEvidence (stage : LeaseEvidenceStage) (detail : Bytes) (st : Handler) :
    Except Handler (RpcAck × Handler) := do
  let st ← c.store (.storedEvidence st.lease stage detail) st
  let ack := c.world.reportEvidence st.log st.lease stage detail
  let st := st.emit (.reportedEvidence st.lease stage detail ack)
  if ack.acknowledged then
    return (ack, ← c.store (.acknowledgedEvidence st.lease stage) st)
  return (ack, st)

def sleepMs (ms : Int) (st : Handler) : Handler :=
  st.emit (.slept (UInt64.ofInt ms * 1000))

def pastDeadline : Bool × Handler :=
  let (now, st) := readClock c.world st
  (now ≥ c.dispatchDeadline, st)

def platformUnavailable : Handler :=
  st.answered 503 (errorJson c.world.rj "provider_unavailable"
    "Platform dispatch was unavailable before the retry deadline")

def retryDispatch : Handling :=
  let retries := st.dispatchTransportRetries + 1
  let st := { st with dispatchTransportRetries := retries }
  if retries > 8 then .error (c.platformUnavailable st)
  else
    let (late, st) := c.pastDeadline st
    if late then .error (c.platformUnavailable st)
    else .ok (sleepMs (platformDispatchRetryDelayMs retries) st)

def noAccount : Handler :=
  st.answered 503 (literalError "provider_unavailable"
    "No upstream Provider account became available before the deadline")

def nsPerMs : Int := 1000000

def waitMs (waitTimeoutMs remainingNs : Int) : Int :=
  min (max waitTimeoutMs 1) (min 1000 (remainingNs.tdiv nsPerMs))

def waitForAccount : Handling :=
  let waits := st.dispatchWaits + 1
  let st := { st with dispatchWaits := waits }
  if waits > 8 then .error (noAccount st)
  else
    let (late, st) := c.pastDeadline st
    if late then .error (noAccount st)
    else
      let (now, st) := readClock c.world st
      .ok (sleepMs (waitMs st.dispatchResult.waitTimeoutMs (c.dispatchDeadline - now)) st)

def rejectStatus (code : Int) : Int :=
  if code ≤ 1 then 401
  else if code = 2 then 402
  else if code = 3 ∨ code = 5 ∨ code = 7 then 429
  else if code = 8 then 409
  else if code = 10 then 409
  else if code = 9 then 403
  else if code = 11 then 503
  else if code = 13 then 400
  else 503

def rejectType (code : Int) : Bytes :=
  if code ≤ 1 then "authentication_error"
  else if code = 2 then "insufficient_quota"
  else if code = 3 ∨ code = 5 ∨ code = 7 then "rate_limit_error"
  else if code = 8 then "idempotency_conflict"
  else if code = 9 then "permission_error"
  else if code = 10 then "idempotency_replay"
  else if code = 11 then "pricing_unavailable"
  else if code = 13 then "content_policy_violation"
  else "provider_unavailable"

def refuse : Handler :=
  let result := st.dispatchResult
  st.answered (rejectStatus result.rejectCode)
    (errorJson c.world.rj (rejectType result.rejectCode) result.rejectMessage)

def replay : Handler :=
  let result := st.dispatchResult
  if result.replayStatusCode > 0 && !result.replayBody.isEmpty then
    ({ st with
        resp.statusCode := result.replayStatusCode
        resp.contentType :=
          if result.replayContentType.isEmpty then "application/json"
          else result.replayContentType
        resp.body := result.replayBody
        resp.stream := false }.addHeader "Cache-Control" "no-store").returned
  else c.refuse st

def pollPath (operationType : Bytes) : Bytes :=
  if startsWith operationType "images_batch" then "/v1/images/batches/"
  else if startsWith operationType "videos_" then "/v1/videos/"
  else "/v1/images/tasks/"

def existsMarker : Bytes := "Media operation already exists: "

def repeated : Handler :=
  let message := st.dispatchResult.rejectMessage
  match find existsMarker message with
  | none => c.replay st
  | some position =>
    let (existing, st) := callMedia c.world
      { mediaRequest c.keyHash c.requestId c.requestFingerprint c.req with
        operationId := message.drop (position + existsMarker.length), action := "get" } st
    if existing.accepted then
      ((showExisting c.world.rj existing st).addHeader "Location"
        (pollPath existing.operationType ++ existing.operationId)).returned
    else c.replay st

def rejected : Handling :=
  if isRetryablePlatformDispatch st.dispatchResult then c.retryDispatch st
  else if st.dispatchResult.rejectCode = 10 then .error (c.repeated st)
  else .error (c.refuse st)

def upstreamBody : Access (Except Bytes Bytes) :=
  if c.req.body.isEmpty || !c.matched.spec.capability.isChat then return .ok c.req.body
  else do
    let conversion ← Converter.convertRequest c.world.rj c.req.body
      c.matched.spec.inboundFormat (upstreamFormat target) target.mappedModel
    return if conversion.success then .ok conversion.body else .error conversion.error

def conversionFailed (message : Bytes) (st : Handler) : Handler :=
  { st with
    forwardResult.statusCode := 400
    forwardResult.contentType := "application/json"
    forwardResult.body := literalError "invalid_request_error" message
    terminalAbort := true }.broke

def evidenceUnavailable : Handler :=
  { c.abort "forward_evidence_unavailable" .noCharge 0 st with
    forwardResult.statusCode := 503
    forwardResult.contentType := "application/json"
    forwardResult.body := literalError "platform_unavailable"
      "Unable to persist Provider dispatch evidence"
    terminalAbort := true }.broke

def authorize : Handling := do
  let (ack, st) ← c.giveEvidence .forwarded "Provider transport authorized" st
  if ack.acknowledged then .ok st else .error (c.evidenceUnavailable st)

def streamDecision (policy : ContentPolicyResult) : StreamPolicyDecision :=
  match contentPolicyDisposition policy with
  | .allow => { disposition := .allow }
  | .block =>
    { disposition := .block
      errorCode := if policy.errorCode.isEmpty then "content_policy_blocked" else policy.errorCode
      message := "Provider response was withheld by the active content policy" }
  | .failClosed =>
    { disposition := .failClosed
      errorCode :=
        if policy.errorCode.isEmpty then "content_policy_unavailable" else policy.errorCode
      message := "Provider response could not be cleared for delivery" }

def streamPolicy : Option StreamPolicyFn :=
  if c.isStream && c.matched.spec.capability.isChat then
    some fun n content =>
      streamDecision (c.world.evaluateContent st.log n st.lease content c.matched.spec.name)
  else none

def forwardRequest (body : Bytes) (st : Handler) : ForwardRequest where
  method := c.req.method
  body
  contentType := c.req.contentType
  accept := c.req.accept
  userAgent := c.req.userAgent
  requestId := c.requestId
  idempotencyKey := c.req.idempotencyKey
  headers := c.req.headers
  stream := c.isStream
  streamSource := upstreamFormat st.dispatchResult.upstream
  streamTarget := c.matched.spec.inboundFormat
  streamWrite := st.resp.streamWrite
  streamPolicy := c.streamPolicy st
  clientDisconnected := c.req.clientDisconnected

def streamMode : ProtocolMode :=
  if c.isStream && c.matched.spec.inboundFormat ≠ upstreamFormat target then .crossProtocol
  else .passthrough

def startResponse : Option ResponseStart → Handler → Handler
  | none, st => st
  | some start, st =>
    let hasRequestId := start.headers.any fun header =>
      header.1 == "X-Request-ID" || header.1 == "x-request-id"
    { st with
      resp.statusCode := start.statusCode
      resp.contentType :=
        if start.contentType.isEmpty then "application/octet-stream" else start.contentType
      resp.headers :=
        if hasRequestId then start.headers
        else start.headers ++ [(ascii "X-Request-ID", c.requestId)]
      resp.stream := c.isStream }

def outputDetail : Bytes := "first response bytes written to client"

def replayPipe (started : Bool) : List PipeAction → Handler → Handling
  | [], st => .ok st
  | a :: actions, st =>
    let st := st.emit (.piped a)
    if !started && !(clientBytes [a]).isEmpty then do
      let (_, st) ← c.giveEvidence .outputStarted outputDetail st
      replayPipe true actions st
    else replayPipe started actions st

def callForward (body : Bytes) (st : Handler) : Handling := do
  let target := st.dispatchResult.upstream
  let outcome := forward c.world.rj (c.world.transport st.log) target (c.forwardRequest body st)
    (c.streamMode target)
  let st := st.emit (.forwarding st.lease target body)
  let st ← c.replayPipe false outcome.actions (c.startResponse outcome.responseStart st)
  .ok { st.emit (.forwarded st.lease outcome.result) with forwardResult := outcome.result }

def isAmbiguous (r : ForwardResult) : Bool :=
  (r.clientDisconnect && !r.outputStarted) || r.streamIncomplete

def ambiguousReason (r : ForwardResult) : Bytes :=
  if r.policyBlocked then "response_content_policy_blocked"
  else if r.policyFailedClosed then "response_content_policy_fail_closed"
  else if r.clientDisconnect then "client_disconnect"
  else "incomplete_provider_stream"

def abortAmbiguous : Handler :=
  if isAmbiguous st.forwardResult then
    let st := { c.abortUnknown (ambiguousReason st.forwardResult) st with terminalAbort := true }
    if st.forwardResult.streamIncomplete && !st.forwardResult.outputStarted then
      { st with resp.contentType := "application/json" }
    else st
  else st

def abortMalformed : Handler :=
  if st.forwardResult.malformedUsage then
    let st := c.reportError
      { accountId := st.dispatchResult.upstream.accountId
        statusCode := 502
        requestId := c.requestId } st
    { c.abortUnknown "malformed_provider_usage" st with
      terminalAbort := true, forwardResult.statusCode := 502 }
  else st

def elapsedMs (now : Int) : Int := (now - c.start).tdiv nsPerMs

def isRetryable (elapsedMs : Int) (r : ForwardResult) : Bool :=
  isExplicitProviderRejection r && c.matched.spec.canFailover && !r.outputStarted
    && elapsedMs < ({} : RetryPolicy).maxElapsedMs
    && RetryPolicy.isRetryableStatus r.statusCode

def abortFailed : Handler :=
  c.abort "upstream_failure"
    (if isExplicitProviderRejection st.forwardResult then .noCharge else .unknown)
    st.forwardResult.providerStatusCode st

def nextAttempt : Handler :=
  let sequence := st.dispatchRetrySequence + 1
  sleepMs (({} : RetryPolicy).computeDelay st.failover.switchCount)
    { st with
      dispatchRetrySequence := sequence
      dispatchReq.requestId := c.requestId ++ ":retry:" ++ decimal sequence
      dispatchReq.excludedAccounts := st.failover.failedAccounts }

def tryAgain : Handling :=
  let accountId := st.dispatchResult.upstream.accountId
  let next := st.failover.handleError accountId st.forwardResult.statusCode
  let st := c.reportError
    { accountId
      statusCode := st.forwardResult.statusCode
      retryAfterMs := st.forwardResult.retryAfterMs
      requestId := c.requestId } { st with failover := next.2 }
  let st := c.abortFailed st
  if next.1 = .exhausted then .error { st with terminalAbort := true }.broke
  else .ok (c.nextAttempt st)

def failOver : Handling :=
  let (now, st) := readClock c.world st
  if c.isRetryable (c.elapsedMs now) st.forwardResult then c.tryAgain st
  else .error { c.abortFailed st with terminalAbort := true }.broke

def afterForward : Handling :=
  let st := c.abortMalformed (c.abortAmbiguous st)
  if st.forwardResult.statusCode ≥ 400 && !st.forwardResult.malformedUsage && !st.terminalAbort then
    c.failOver st
  else .error st.broke

def attempt : Handling :=
  let target := st.dispatchResult.upstream
  let st := { st with lastUpstreamFormat := upstreamFormat target }
  match c.upstreamBody target with
  | .error _ => .error st.faulted
  | .ok (.error message) => .error (conversionFailed message st)
  | .ok (.ok body) => do
    let st ← c.authorize st
    let st ← c.callForward body st
    c.afterForward st

def updateAuthCache : Handler :=
  let result := st.dispatchResult
  if result.outcome = .reauth then st.emit (.evictedAuth c.keyHash)
  else if result.authVersion > 0 then
    st.emit (.cachedAuth c.keyHash result.authVersion result.upstream.userId
      result.upstream.groupId)
  else st

def callDispatch : Handler :=
  let result := c.world.dispatch st.log st.dispatchReq
  { st.emit (.dispatched st.dispatchReq result) with dispatchResult := result }

def round : Handling :=
  let st := c.callDispatch st
  match st.dispatchResult.outcome with
  | .ok | .reauth => c.attempt (c.updateAuthCache st)
  | .rejected => c.rejected st
  | .wait => c.waitForAccount st

def rounds : Nat → Handler → Handler
  | 0, st => st
  | n + 1, st =>
    match c.round st with
    | .ok st => rounds n st
    | .error st => st

def withhold (reason type message : Bytes) (st : Handler) : Handler :=
  { c.abortUnknown reason st with
    terminalAbort := true
    forwardResult.statusCode := 502
    resp.statusCode := 502
    resp.body := errorJson c.world.rj type message }

def errorSource : Format :=
  if isExplicitProviderRejection st.forwardResult then st.lastUpstreamFormat
  else .openAIChatCompletions

def convertErrorBody : Handling :=
  let r := st.forwardResult
  if r.statusCode ≥ 400 && c.matched.spec.inboundFormat ≠ errorSource st then
    let status := if isExplicitProviderRejection r then r.providerStatusCode else r.statusCode
    match Converter.convertError c.world.rj st.resp.body status (errorSource st)
      c.matched.spec.inboundFormat with
    | .error _ => .error st.faulted
    | .ok body => .ok { st with resp.body := body, resp.contentType := "application/json" }
  else .ok st

def convertSuccessBody : Handling :=
  if st.forwardResult.statusCode < 400 && c.matched.spec.capability.isChat
      && c.matched.spec.inboundFormat ≠ st.lastUpstreamFormat then
    match Converter.convertResponseChecked c.world.rj st.resp.body st.lastUpstreamFormat
      c.matched.spec.inboundFormat c.parsed.model with
    | .error _ => .error st.faulted
    | .ok converted =>
      if converted.success then .ok { st with resp.body := converted.body }
      else .ok (c.withhold "response_conversion_failed" "response_conversion_error"
        converted.error st)
  else .ok st

def isSuccess (status : Int) : Bool := 200 ≤ status && status < 400

def checkBody (applies : Bool) (validation : ValidationResult) (reason : Bytes)
    (st : Handler) : Handler :=
  if isSuccess st.forwardResult.statusCode && applies then
    match validation with
    | .ok _ => st
    | .error message =>
      { c.withhold reason "provider_protocol_error" message st with
        resp.contentType := "application/json" }
  else st

def checkEmbeddings : Handler :=
  c.checkBody (c.matched.spec.capability = .embeddings)
    (Converter.validateEmbeddingsResponse c.world.rj c.req.body st.resp.body)
    "embeddings_response_invalid" st

def checkCatalogue : Handler :=
  let capability := c.matched.spec.capability
  c.checkBody
    (capability = .models || capability = .geminiModels || capability = .countTokens)
    (if capability = .countTokens then
      Converter.validateCountTokensResponse c.world.rj st.resp.body
     else
      Converter.validateModelsResponse c.world.rj st.resp.body
        c.matched.spec.inboundFormat)
    "catalog_response_invalid" st

def checkResponses : Handler :=
  c.checkBody (!c.isStream && c.matched.spec.capability = .responses)
    (Converter.validateResponsesResponse c.world.rj st.resp.body)
    "responses_response_invalid" st

def takeBody : Handling :=
  if (!c.isStream || st.forwardResult.statusCode ≥ 400) && !st.forwardResult.body.isEmpty then do
    let st ← c.convertErrorBody
      { st with resp.body := st.forwardResult.body, forwardResult.body := [] }
    let st ← c.convertSuccessBody st
    return c.checkResponses (c.checkCatalogue (c.checkEmbeddings st))
  else .ok st

def overrideResponse (statusCode : Int) (type message : Bytes) (st : Handler) : Handler :=
  { st with
    responsePolicyOverridden := true
    resp.statusCode := statusCode
    resp.contentType := "application/json"
    resp.body := errorJson c.world.rj type message }.addHeader "Cache-Control" "no-store"

def evaluateResponse : Handler :=
  let policy := c.world.evaluateContent st.log 0 st.lease st.resp.body c.matched.spec.name
  let st := st.emit (.evaluated st.lease st.resp.body policy)
  match contentPolicyDisposition policy with
  | .allow => st
  | .block => c.overrideResponse 400 "content_policy_violation"
      "Provider response was withheld by the active content policy" st
  | .failClosed => c.overrideResponse 503 "content_policy_unavailable"
      "Provider response could not be cleared for delivery" st

def decideResponse : Handler :=
  match c.matched.spec.capability with
  | .models | .countTokens | .geminiModels | .embeddings => st
  | .imagesSync | .imagesAsync | .imagesBatch | .videos | .audioTts | .audioStt =>
    c.overrideResponse 400 "content_policy_unavailable"
      "Media content policy classifier not yet implemented for this capability" st
  | _ => c.overrideResponse 503 "content_policy_unavailable"
      "Content policy decision unavailable for this capability" st

def applyContentPolicy : Handler :=
  if !c.isStream && !st.terminalAbort && !st.forwardResult.malformedUsage
      && isSuccess st.forwardResult.statusCode && !st.resp.body.isEmpty then
    if c.matched.spec.capability.isChat then c.evaluateResponse st else c.decideResponse st
  else st

def showMalformed : Handler :=
  if st.forwardResult.malformedUsage then
    { st with
      resp.statusCode := 502
      resp.contentType := "application/json"
      resp.body := errorJson c.world.rj "provider_error" "Provider returned malformed usage" }
  else st

def mediaStatus : Bytes :=
  if st.terminalAbort || st.forwardResult.statusCode ≥ 400 then "failed"
  else providerMediaStatus c.world.rj st.resp.body (providerTaskId c.world.rj st.resp.body)

def mediaUpdate : MediaOperationRequest :=
  let status := c.mediaStatus st
  { mediaRequest c.keyHash c.requestId c.requestFingerprint c.req with
    operationId := st.dispatchResult.upstream.mediaOperationId
    action := if status = "failed" then "fail" else "attach"
    status
    upstreamTaskId := providerTaskId c.world.rj st.resp.body
    outputMetadata := if st.resp.body.length ≤ 512 * 1024 then st.resp.body else []
    outputUrl := providerOutputUrl c.world.rj st.resp.body
    contentType := st.forwardResult.contentType
    progress := if status = "running" then 0 else 100 }

def mediaUnstored (operation : MediaOperationResult) (st : Handler) : Handler :=
  { c.abortUnknown "media_operation_persist_failed" st with
    resp.statusCode := if operation.statusCode > 0 then operation.statusCode else 503
    resp.body := literalError "media_operation_error" "Unable to persist media operation state"
    terminalAbort := true }

def taskPath : Capability → Bytes
  | .imagesAsync => "/v1/images/tasks/"
  | .imagesBatch => "/v1/images/batches/"
  | _ => "/v1/videos/"

def mediaStored (running : Bool) (operation : MediaOperationResult) (st : Handler) :
    Handler :=
  let st := { st with
    deferMediaUsage := running
    resp.statusCode := if running then 202 else 200
    resp.body := mediaViewJson c.world.rj operation }
  let st := st.addHeader "Cache-Control" "no-store"
  let st := if running then st.addHeader "Retry-After" "3" else st
  st.addHeader "Location" (taskPath c.matched.spec.capability ++ operation.operationId)

def persistMedia : Handler :=
  if persistentCreate c.matched.operation
      && !st.dispatchResult.upstream.mediaOperationId.isEmpty then
    let st := { st with mediaResponseOverridden := true }
    let request := c.mediaUpdate st
    let (operation, st) := callMedia c.world request st
    if operation.accepted then c.mediaStored (request.status = "running") operation st
    else c.mediaUnstored operation st
  else st

def releaseControl : Handler :=
  if c.matched.spec.capability.isNonBillableControl && !st.terminalAbort
      && isSuccess st.forwardResult.statusCode then
    let status := st.forwardResult.providerStatusCode
    let ack := c.abortAck "non_billable_control" .noCharge status st
    let st := c.abort "non_billable_control" .noCharge status st
    if ack.acknowledged then { st with terminalAbort := true } else st
  else st

def lateUsageCandidate (r : ForwardResult) : Bool :=
  c.isStream && r.streamIncomplete && !r.malformedUsage && !r.providerUsageJson.isEmpty
    && (r.inputTokens > 0 || r.outputTokens > 0 || r.cacheCreateTokens > 0
      || r.cacheReadTokens > 0 || r.reasoningTokens > 0)

def persistResponse : Bool :=
  !c.isStream && !st.terminalAbort && !st.deferMediaUsage && !st.mediaResponseOverridden
    && isSuccess st.forwardResult.statusCode && st.resp.body.length ≤ 4 * 1024 * 1024

def countOr (response request : Int) : Int := if response > 0 then response else request

def textOr (response request : Bytes) : Bytes := if response.isEmpty then request else response

def usageEvent (now : Int) (st : Handler) : UsageEvent :=
  let r := st.forwardResult
  let upstream := st.dispatchResult.upstream
  let media := Converter.parseMediaResponse c.world.rj st.resp.body c.matched.operation
  let persist := c.persistResponse st
  { leaseToken := st.lease
    requestId := c.requestId
    apiKeyId := st.dispatchResult.apiKeyId
    userId := upstream.userId
    accountId := upstream.accountId
    groupId := upstream.groupId
    model := c.parsed.model
    upstreamModel := upstream.mappedModel
    inputTokens := r.inputTokens
    outputTokens := r.outputTokens
    cacheCreateTokens := r.cacheCreateTokens
    cacheReadTokens := r.cacheReadTokens
    durationMs := toInt32 (c.elapsedMs now)
    firstTokenMs := r.firstTokenMs
    stream := c.isStream
    clientDisconnect := r.clientDisconnect
    statusCode := r.statusCode
    inputImageCount := c.mediaRequestUsage.inputImageCount
    outputImageCount := countOr media.outputImageCount c.mediaRequestUsage.outputImageCount
    imageSize := textOr media.imageSize c.mediaRequestUsage.imageSize
    videoCount := countOr media.videoCount c.mediaRequestUsage.videoCount
    videoResolution := textOr media.videoResolution c.mediaRequestUsage.videoResolution
    videoDurationSeconds :=
      countOr media.videoDurationSeconds c.mediaRequestUsage.videoDurationSeconds
    disconnectReason := r.disconnectReason
    providerUsageJson := r.providerUsageJson
    reasoningTokens := r.reasoningTokens
    serviceTier := r.serviceTier
    upstreamEndpoint := upstream.upstreamPath
    cancellationReason := r.cancellationReason
    mediaOperationId := upstream.mediaOperationId
    pricingVersion := "v1"
    responseStatusCode := if persist then st.resp.statusCode else 0
    responseContentType := if persist then st.resp.contentType else []
    responseBody := if persist then st.resp.body else [] }

def recordUsage : Handler :=
  let (now, st) := readClock c.world st
  if (!st.terminalAbort || c.lateUsageCandidate st.forwardResult) && !st.deferMediaUsage then
    let event := c.usageEvent now st
    if c.world.outboxThrows st.log then
      st.emit (.reportedUsage event (c.world.reportUsage st.log event))
    else st.emit (.recordedUsage event)
  else st

def finalStatus : Handler :=
  if st.mediaResponseOverridden || st.responsePolicyOverridden then st
  else
    { st with
      resp.statusCode :=
        if st.forwardResult.statusCode > 0 then st.forwardResult.statusCode else 200 }

def settle : Handler :=
  match c.takeBody st with
  | .error st => st
  | .ok st =>
    (finalStatus (c.recordUsage (c.releaseControl (c.persistMedia (c.showMalformed
      (c.applyContentPolicy st)))))).returned

def serve (fuel : Nat) (st : Handler) : Handler :=
  let st := c.rounds fuel st
  if st.exit = .broke then c.settle st else st

end Context

def handle (w : World) (req : HttpRequest) (resp : HttpResponse) (matched : MatchedCapability)
    (fuel : Nat) : Handler :=
  match prepare w req resp matched with
  | .error st => st
  | .ok (c, st) => c.serve fuel st

end Gateway.Server
