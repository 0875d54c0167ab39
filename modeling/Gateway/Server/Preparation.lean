import Gateway.Server.HandlerState

/-! # From the request to the dispatch loop -/

namespace Gateway.Server

open Lib Dispatch Protocol
open Protocol (Format)
open Protocol.Converter (ParsedRequest ValidationResult parseObject reject ifPresent textAt)

variable (rj : RapidJson) (w : World) (req : HttpRequest) (matched : MatchedCapability)

def extractApiKey : Bytes :=
  if startsWith req.authorization "Bearer " then req.authorization.drop 7 else req.xApiKey

def fingerprint : Bytes :=
  let seed := w.xxh64 req.method 0
  let seed := w.xxh64 req.path seed
  let seed := w.xxh64 req.query seed
  let seed := w.xxh64 req.contentType seed
  hex64 (w.xxh64 req.body seed)

def computeSessionHash (keyHash metadataUserId body model : Bytes) : Bytes :=
  hex64 (w.xxh64 (keyHash ++ "\n" ++ model ++ "\n"
    ++ (if metadataUserId.isEmpty then body.take 4096 else metadataUserId)) 0)

def cachedAuthVersion (keyHash : Bytes) : Int :=
  match w.cachedVersion keyHash with
  | some version => version
  | none => ((w.garnet keyHash).map (parseAuthVersion w.rj)).getD 0

def requireString (document : Json) (key missing : Bytes) (limit : Nat) (outOfRange : Bytes) :
    ValidationResult := do
  match stringField document key with
  | none => .error missing
  | some text => reject (text.isEmpty || text.length > limit) outOfRange

def optionalString (document : Json) (key message : Bytes) : ValidationResult :=
  ifPresent document key fun value => reject (!value.isString) message

def validateSearch (body : Bytes) : ValidationResult := do
  let some document := parseObject rj body | .error "A JSON object with a query is required"
  requireString document "query" "query is required and must be a string" 1000
    "query must be between 1 and 1000 characters"
  optionalString document "domain" "domain must be a string"
  optionalString document "recency" "recency must be a string"

def audioFormats : List Bytes := ["mp3", "opus", "aac", "flac", "wav", "pcm"]

def validateTts (body : Bytes) : ValidationResult := do
  let some document := parseObject rj body |
    .error "A JSON object with input and voice is required"
  requireString document "input" "input is required and must be a string" 4096
    "input must be between 1 and 4096 characters"
  reject (stringField document "voice").isNone "voice is required and must be a string"
  ifPresent document "response_format" fun value =>
    match value.string? with
    | none => .error "response_format must be a string"
    | some format => reject (!audioFormats.contains format)
        "response_format must be one of: mp3, opus, aac, flac, wav, pcm"

def validateStt (body : Bytes) : ValidationResult := do
  let some document := parseObject rj body | .error "A JSON object is required"
  ifPresent document "language" fun value =>
    match value.string? with
    | none => .error "language must be a string"
    | some language => reject (language.length > 5)
        "language must be a BCP-47 tag of at most 5 characters"

def operationsWithModel : List Bytes :=
  ["images_generations", "images_edits", "images_generations_async", "images_edits_async",
    "images_batch_create", "videos_generations", "videos_edits", "videos_extensions",
    "audio_speech", "audio_transcriptions"]

def needsModel : Bool :=
  let capability := matched.spec.capability
  (capability.isChat && capability ≠ .responsesSubpath) || capability = .embeddings
    || capability = .countTokens || operationsWithModel.contains matched.operation

def lacksModel (parsed : ParsedRequest) : Bool :=
  needsModel matched
    && ((isJsonRequest req && !validJsonObject rj req.body) || parsed.model.isEmpty)

def requestError (parsed : ParsedRequest) : Option Bytes :=
  let literal (result : ValidationResult) : Option Bytes :=
    match result with
    | .ok _ => none
    | .error message => some (literalError "invalid_request_error" message)
  if lacksModel rj req matched parsed then
    some (literalError "invalid_request_error" "A JSON object with a model is required")
  else if !isJsonRequest req then none
  else
    match matched.spec.capability with
    | .embeddings =>
      match Converter.validateEmbeddingsRequest rj req.body with
      | .ok _ => none
      | .error message => some (errorJson rj "invalid_request_error" message)
    | .search => literal (validateSearch rj req.body)
    | .audioTts => literal (validateTts rj req.body)
    | .audioStt => literal (validateStt rj req.body)
    | _ => none

def modelOfPath (path : Bytes) : Option Bytes :=
  (find "/models/" path).map fun marker => (path.drop (marker + 8)).takeWhile (· ≠ 58)

def parseBody (spec : CapabilitySpec) : Access ParsedRequest :=
  if spec.capability.isChat && isJsonRequest req then
    Converter.parse rj req.body spec.inboundFormat
  else
    let model := extractModel rj req.body
    let model :=
      if model.isEmpty && startsWith req.contentType "multipart/form-data" then
        Converter.extractMultipartField req.body req.contentType "model"
      else model
    return { format := spec.inboundFormat, model }

def parseRequest (spec : CapabilitySpec) :
    Access ParsedRequest := do
  let parsed ← parseBody rj req spec
  if (spec.capability = .geminiGenerate || spec.capability = .geminiModels)
      && parsed.model.isEmpty then
    return { parsed with model := (modelOfPath req.path).getD parsed.model }
  return parsed

def streams (parsed : ParsedRequest) : Bool :=
  matched.spec.canStream && (parsed.stream || matched.operation = "streamGenerateContent")
    && !matched.spec.realtime

def mediaRequest (keyHash requestId fingerprint : Bytes) (req : HttpRequest) :
    MediaOperationRequest where
  apiKeyHash := keyHash
  requestId
  clientIp := req.clientIp
  idempotencyKey := req.idempotencyKey
  requestFingerprint := fingerprint

def callMedia (request : MediaOperationRequest) (st : Handler) :
    MediaOperationResult × Handler :=
  let result := w.mediaOperation st.log request
  (result, st.emit (.mediaOperation request result))

def showMedia (action : Bytes) (result : MediaOperationResult) (st : Handler) : Handler :=
  let st := { st with resp.statusCode := result.statusCode }
  if !result.accepted then
    { st with resp.body := errorJson rj result.errorCode result.errorMessage }
  else if action = "list" then
    ({ st with
        resp.statusCode := 200
        resp.body :=
          if result.outputMetadata.isEmpty then
            "\x7b\"object\":\"list\",\"data\":[],\"has_more\":false\x7d"
          else result.outputMetadata }.addHeader
      "Content-Type" "application/json").addHeader "Cache-Control" "no-store"
  else if action = "items" then
    ({ st with resp.statusCode := 200, resp.body := mediaItemsJson rj result }.addHeader
      "Content-Type" "application/json").addHeader "Cache-Control" "no-store"
  else if action = "content" then
    if result.outputUrl.isEmpty then
      { st with
        resp.statusCode := 409
        resp.body := errorJson rj "output_not_ready" "Media output is not available" }
    else
      ({ st with resp.statusCode := 302 }.addHeader "Location" result.outputUrl).addHeader
        "Cache-Control" "no-store"
  else if result.statusCode ≠ 204 then
    let st := { st with resp.body := mediaViewJson rj result }
    let st := if unfinished result.status then st.addHeader "Retry-After" "3" else st
    st.addHeader "Cache-Control" "no-store"
  else st

def showExisting (existing : MediaOperationResult) (st : Handler) : Handler :=
  let running := unfinished existing.status
  let st := { st with
    resp.statusCode := if running then 202 else 200
    resp.body := mediaViewJson rj existing }
  let st := st.addHeader "Cache-Control" "no-store"
  if running then st.addHeader "Retry-After" "3" else st

def afterLookup (existing : MediaOperationResult) (st : Handler) : Handling :=
  if existing.accepted then .error (showExisting rj existing st).returned
  else if existing.statusCode = 409 then
    .error (st.answered 409 (literalError "idempotency_conflict"
      "Idempotency key was already used for a different request"))
  else if existing.statusCode ≠ 404 then
    .error (st.answered (if existing.statusCode > 0 then existing.statusCode else 503)
      (literalError "platform_unavailable" "Media idempotency lookup failed"))
  else .ok st

structure Caller where
  requestId : Bytes
  keyHash : Bytes
  fingerprint : Bytes

def controlMedia (caller : Caller) (st : Handler) : Handling :=
  if mediaControlOperation matched.operation then
    let action := mediaAction matched.operation
    let (result, st) := callMedia w
      { mediaRequest caller.keyHash caller.requestId caller.fingerprint req with
        operationId := mediaOperationId req.path, action } st
    .error (showMedia w.rj action result st).returned
  else .ok st

def lookupIdempotency (caller : Caller) (st : Handler) : Handling :=
  if persistentCreate matched.operation && !req.idempotencyKey.isEmpty then
    let (existing, st) := callMedia w
      { mediaRequest caller.keyHash caller.requestId caller.fingerprint req with
        action := "lookup_idempotency" } st
    afterLookup w.rj existing st
  else .ok st

def maxInlineRequestBodyBytes : Nat := 512 * 1024

def placeBody (st : Handler) : Handling :=
  if req.body.length > maxInlineRequestBodyBytes then
    let blobId := hex64 w.randomWords.1 ++ hex64 w.randomWords.2
    let upload := w.uploadBlob st.log blobId req.body
    let st := st.emit (.uploadedBlob blobId req.body upload)
    if upload.accepted then
      .ok { st with
        dispatchReq.requestBodyRef := upload.blobId
        dispatchReq.requestBodyDigest := upload.digest
        dispatchReq.requestBodySize := upload.totalBytes }
    else
      .error (st.answered 503 (errorJson w.rj "provider_unavailable"
        ("Platform blob upload failed: " ++ upload.errorCode)))
  else .ok { st with dispatchReq.requestBody := req.body }

def formatNumber : Format → Nat
  | .anthropic => 0
  | .openAIChatCompletions => 1
  | .openAIResponses => 2
  | .gemini => 3

def dispatchRequest (caller : Caller) (parsed : ParsedRequest) : DispatchRequest where
  apiKeyHash := caller.keyHash
  requestedModel := parsed.model
  sessionHash := computeSessionHash w caller.keyHash parsed.metadataUserId req.body parsed.model
  clientIp := req.clientIp
  requestId := caller.requestId
  cachedAuthVersion := cachedAuthVersion w caller.keyHash
  endpoint := matched.spec.endpoint
  metadataUserId := parsed.metadataUserId
  stream := streams matched parsed
  operation := matched.operation
  inboundFormat := decimal (formatNumber matched.spec.inboundFormat)
  httpMethod := req.method
  requestPath := req.path
  contentType := req.contentType
  capability := matched.spec.name
  idempotencyKey := req.idempotencyKey
  realtimeSession := matched.spec.realtime
  forcePlatform := matched.forcePlatform
  requestFingerprint := caller.fingerprint
  requestQuery := req.query

def readClock (st : Handler) : Int × Handler :=
  (w.now st.log st.clockCalls, { st with clockCalls := st.clockCalls + 1 })

def secondNs : Int := 1000000000

def enterLoop (start : Int) (caller : Caller) (parsed : ParsedRequest) (st : Handler) :
    Except Handler (Context × Handler) := do
  if let some body := requestError w.rj req matched parsed then
    throw (st.answered 400 body)
  let st ← placeBody w req
    { st with
      dispatchReq := dispatchRequest w req matched caller parsed
      lastUpstreamFormat := matched.spec.inboundFormat }
  let (now, st) := readClock w st
  return ({
    world := w
    req
    matched
    start
    requestId := caller.requestId
    keyHash := caller.keyHash
    requestFingerprint := caller.fingerprint
    parsed
    isStream := streams matched parsed
    mediaRequestUsage := Converter.parseMediaRequest w.rj req.body req.contentType matched.operation
    dispatchDeadline := now + 45 * secondNs }, st)

def prepare (resp : HttpResponse) (matched : MatchedCapability) :
    Except Handler (Context × Handler) := do
  let (start, st) := readClock w { resp, activeConnections := 1 }
  let requestId :=
    if req.requestId.isEmpty then hex64 (w.xxh64 (w.stamp start) 0) else req.requestId
  let st := st.addHeader "X-Request-ID" requestId
  if !isSafeQueryString req.query then
    throw (st.answered 400 (literalError "invalid_request_error" "Malformed query string"))
  let rawKey := extractApiKey req
  if rawKey.isEmpty then
    throw (st.answered 401 (literalError "authentication_error" "Missing API key"))
  let caller : Caller :=
    { requestId, keyHash := w.hashKey rawKey, fingerprint := fingerprint w req }
  let st ← controlMedia w req matched caller st
  let st ← lookupIdempotency w req matched caller st
  match parseRequest w.rj req matched.spec with
  | .error _ => throw st.faulted
  | .ok parsed => enterLoop w req matched start caller parsed st

end Gateway.Server
