import Gateway.Forwarder.Failover
import Gateway.Forwarder.Forward
import Gateway.Server.Media
import Gateway.Usage.Collector

/-! # The request handler -/

namespace Gateway.Server

open Lib Dispatch Forwarder
open Usage (UsageEvent)
open Protocol (Format toInt32)
open Protocol.Converter (ParsedRequest ConversionResult MediaUsageMetadata ValidationResult)

inductive Action where
  | dispatched (request : DispatchRequest) (result : DispatchResult)
  | cachedAuth (keyHash : Bytes) (version userId groupId : Int)
  | evictedAuth (keyHash : Bytes)
  | mediaOperation (request : MediaOperationRequest) (result : MediaOperationResult)
  | uploadedBlob (blobId body : Bytes) (result : BlobUploadResult)
  | storedEvidence (lease : Bytes) (stage : LeaseEvidenceStage) (detail : Bytes)
  | reportedEvidence (lease : Bytes) (stage : LeaseEvidenceStage) (detail : Bytes) (ack : RpcAck)
  | acknowledgedEvidence (lease : Bytes) (stage : LeaseEvidenceStage)
  | forwarding (lease : Bytes) (target : UpstreamTarget) (body : Bytes)
  | piped (action : PipeAction)
  | forwarded (lease : Bytes) (result : ForwardResult)
  | evaluated (lease content : Bytes) (result : ContentPolicyResult)
  | aborted (lease reason : Bytes) (disposition : LeaseAbortDisposition) (providerStatus : Int)
      (ack : RpcAck)
  | reportedError (error : ErrorReportData) (ack : RpcAck)
  | recordedUsage (event : UsageEvent)
  | reportedUsage (event : UsageEvent) (ack : RpcAck)
  | slept (us : UInt64)
  deriving DecidableEq

inductive Exit where
  | running
  | broke
  | returned
  | threw
  | faulted
  deriving DecidableEq

structure Handler where
  log : List Action := []
  resp : HttpResponse := {}
  clockCalls : Nat := 0
  activeConnections : Int := 0
  exit : Exit := .running
  dispatchReq : DispatchRequest := {}
  dispatchResult : DispatchResult := {}
  forwardResult : ForwardResult := {}
  failover : FailoverController := {}
  lastUpstreamFormat : Format := .anthropic
  dispatchWaits : Nat := 0
  dispatchTransportRetries : Nat := 0
  dispatchRetrySequence : Nat := 0
  terminalAbort : Bool := false
  responsePolicyOverridden : Bool := false
  mediaResponseOverridden : Bool := false
  deferMediaUsage : Bool := false

abbrev Handling := Except Handler Handler

namespace Handler

variable (st : Handler)

def emit (a : Action) : Handler := { st with log := st.log ++ [a] }

def lease : Bytes := st.dispatchResult.leaseToken

def addHeader (name value : Bytes) : Handler :=
  { st with resp.headers := st.resp.headers ++ [(name, value)] }

def returned (st : Handler) : Handler :=
  { st with exit := .returned, activeConnections := st.activeConnections - 1 }

def answered (statusCode : Int) (body : Bytes) : Handler :=
  { st with resp.statusCode := statusCode, resp.body := body }.returned

def broke (st : Handler) : Handler := { st with exit := .broke }

def threw (st : Handler) : Handler := { st with exit := .threw }

def faulted (st : Handler) : Handler := { st with exit := .faulted }

end Handler

structure World where
  rj : RapidJson
  xxh64 : Bytes → UInt64 → UInt64
  hashKey : Bytes → Bytes
  stamp : Int → Bytes
  now : List Action → Nat → Int
  randomWords : UInt64 × UInt64
  cachedVersion : Bytes → Option Int
  garnet : Bytes → Option Bytes
  outboxThrows : List Action → Bool
  dispatch : List Action → DispatchRequest → DispatchResult
  mediaOperation : List Action → MediaOperationRequest → MediaOperationResult
  uploadBlob : List Action → Bytes → Bytes → BlobUploadResult
  reportEvidence : List Action → Bytes → LeaseEvidenceStage → Bytes → RpcAck
  evaluateContent : List Action → Nat → Bytes → Bytes → Bytes → ContentPolicyResult
  abort : List Action → Bytes → Bytes → LeaseAbortDisposition → Int → RpcAck
  reportError : List Action → ErrorReportData → RpcAck
  reportUsage : List Action → UsageEvent → RpcAck
  transport : List Action → ProviderCall → Provider

structure Context where
  world : World
  req : HttpRequest
  matched : MatchedCapability
  start : Int
  requestId : Bytes
  keyHash : Bytes
  requestFingerprint : Bytes
  parsed : ParsedRequest
  isStream : Bool
  mediaRequestUsage : MediaUsageMetadata
  dispatchDeadline : Int

end Gateway.Server
