import Mathlib.Data.Finset.Insert
import Gateway.Lib.Bytes

/-! # The platform's remote calls -/

namespace Gateway.Dispatch

open Lib

structure DispatchRequest where
  apiKeyHash : Bytes := []
  requestedModel : Bytes := []
  sessionHash : Bytes := []
  clientIp : Bytes := []
  requestId : Bytes := []
  excludedAccounts : Finset Int := ∅
  cachedAuthVersion : Int := 0
  endpoint : Int := 0
  metadataUserId : Bytes := []
  stream : Bool := false
  operation : Bytes := []
  inboundFormat : Bytes := []
  httpMethod : Bytes := []
  requestPath : Bytes := []
  contentType : Bytes := []
  capability : Bytes := []
  idempotencyKey : Bytes := []
  realtimeSession : Bool := false
  forcePlatform : Bytes := []
  requestFingerprint : Bytes := []
  requestQuery : Bytes := []
  requestBody : Bytes := []
  requestBodyRef : Bytes := []
  requestBodyDigest : Bytes := []
  requestBodySize : Nat := 0
  requestBodyTruncated : Bool := false
  deriving DecidableEq

structure MediaOperationRequest where
  apiKeyHash : Bytes := []
  operationId : Bytes := []
  action : Bytes := []
  requestId : Bytes := []
  clientIp : Bytes := []
  idempotencyKey : Bytes := []
  requestFingerprint : Bytes := []
  status : Bytes := []
  upstreamTaskId : Bytes := []
  outputMetadata : Bytes := []
  outputUrl : Bytes := []
  contentType : Bytes := []
  progress : Int := 0
  deriving DecidableEq

structure UpstreamTarget where
  accountId : Int := 0
  platform : Bytes := []
  baseUrl : Bytes := []
  upstreamPath : Bytes := []
  authHeaders : List (Bytes × Bytes) := []
  mappedModel : Bytes := []
  proxyUrl : Bytes := []
  proxyUsername : Bytes := []
  proxyPassword : Bytes := []
  userId : Int := 0
  groupId : Int := 0
  tlsFingerprint : Bool := false
  httpMethod : Bytes := []
  upstreamFormat : Bytes := []
  requestHeaders : List (Bytes × Bytes) := []
  allowedResponseHeaders : List Bytes := []
  tlsFingerprintProfileId : Bytes := []
  mediaOperationId : Bytes := []
  websocketUrl : Bytes := []
  websocketProtocol : Bytes := []
  deriving DecidableEq

inductive Outcome where
  | ok
  | wait
  | rejected
  | reauth
  deriving DecidableEq

structure DispatchResult where
  outcome : Outcome := .rejected
  authVersion : Int := 0
  apiKeyId : Int := 0
  leaseToken : Bytes := []
  upstream : UpstreamTarget := {}
  rejectMessage : Bytes := []
  rejectCode : Int := 0
  waitTimeoutMs : Int := 0
  replayStatusCode : Int := 0
  replayContentType : Bytes := []
  replayBody : Bytes := []
  deriving DecidableEq

def DispatchResult.granted (result : DispatchResult) : Bool :=
  result.outcome == .ok || result.outcome == .reauth

def platformUnavailableRejectCode : Int := 12

def isRetryablePlatformDispatch (result : DispatchResult) : Bool :=
  result.outcome == .rejected && result.rejectCode == platformUnavailableRejectCode

def platformDispatchRetryDelayMs (retryNumber : Nat) : Nat :=
  if retryNumber = 0 then 50 else min 1000 (50 * 2 ^ min (retryNumber - 1) 5)

structure MediaOperationResult where
  accepted : Bool := false
  statusCode : Int := 500
  operationId : Bytes := []
  operationType : Bytes := []
  status : Bytes := []
  progress : Int := 0
  upstreamTaskId : Bytes := []
  outputMetadata : Bytes := []
  outputUrl : Bytes := []
  contentType : Bytes := []
  errorCode : Bytes := []
  errorMessage : Bytes := []
  deriving DecidableEq

structure RpcAck where
  accepted : Bool := false
  duplicate : Bool := false
  retryable : Bool := false
  errorCode : Bytes := []
  deriving DecidableEq

namespace RpcAck

def acknowledged (ack : RpcAck) : Bool := ack.accepted || ack.duplicate

def invalid : RpcAck := { retryable := true, errorCode := "invalid_ack" }

def refused (ack : RpcAck) : Bool := !ack.acknowledged && !ack.retryable

end RpcAck

def wordSize : Nat := 8

def usageAnswer : UInt8 := 0x82

def parseAck (wire : Bytes → Option RpcAck) (method : UInt8) : Bytes → Option RpcAck
  | [] => some .invalid
  | tag :: message =>
    if message = [] ∨ tag ≠ method ∨ message.length % wordSize ≠ 0 then some .invalid
    else wire message

structure ContentPolicyResult where
  evaluated : Bool := false
  allowed : Bool := false
  retryable : Bool := false
  errorCode : Bytes := "platform_unavailable"
  matchedRuleId : Int := 0
  message : Bytes := []
  deriving DecidableEq

inductive ContentPolicyDisposition where
  | allow
  | block
  | failClosed
  deriving DecidableEq

def contentPolicyDisposition (result : ContentPolicyResult) : ContentPolicyDisposition :=
  if !result.evaluated || result.retryable then .failClosed
  else if result.allowed then .allow
  else .block

inductive LeaseEvidenceStage where
  | forwarded
  | outputStarted
  deriving DecidableEq

inductive LeaseAbortDisposition where
  | noCharge
  | unknown
  | safe
  deriving DecidableEq

structure ErrorReportData where
  accountId : Int := 0
  statusCode : Int := 0
  retryAfterMs : Int := 0
  requestId : Bytes := []
  errorMessage : Bytes := []
  deriving DecidableEq

structure BlobUploadResult where
  accepted : Bool := false
  errorCode : Bytes := []
  blobId : Bytes := []
  digest : Bytes := []
  totalBytes : Nat := 0
  deriving DecidableEq

end Gateway.Dispatch
