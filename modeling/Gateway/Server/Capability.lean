import Gateway.Protocol.Validation

/-! # Requests, responses and capabilities -/

namespace Gateway.Server

open Lib
open Protocol (Format)

structure HttpRequest where
  method : Bytes := []
  path : Bytes := []
  query : Bytes := []
  body : Bytes := []
  authorization : Bytes := []
  xApiKey : Bytes := []
  clientIp : Bytes := []
  contentType : Bytes := []
  accept : Bytes := []
  userAgent : Bytes := []
  requestId : Bytes := []
  idempotencyKey : Bytes := []
  headers : List (Bytes × Bytes) := []
  clientDisconnected : Bool := true

structure HttpResponse where
  statusCode : Int := 200
  body : Bytes := []
  contentType : Bytes := "application/json"
  headers : List (Bytes × Bytes) := []
  stream : Bool := false
  streamWrite : Bool := true
  deriving DecidableEq

inductive Capability where
  | messages
  | chatCompletions
  | responses
  | responsesSubpath
  | countTokens
  | models
  | search
  | embeddings
  | imagesSync
  | imagesAsync
  | imagesBatch
  | videos
  | realtime
  | geminiModels
  | geminiGenerate
  | antigravity
  | audioTts
  | audioStt
  deriving DecidableEq

structure CapabilitySpec where
  capability : Capability
  name : Bytes
  endpoint : Int
  inboundFormat : Format
  canStream : Bool
  canFailover : Bool
  realtime : Bool

structure MatchedCapability where
  spec : CapabilitySpec
  operation : Bytes
  forcePlatform : Bytes := []

def Capability.isChat : Capability → Bool
  | .messages | .chatCompletions | .responses | .responsesSubpath | .geminiGenerate => true
  | _ => false

def Capability.isNonBillableControl : Capability → Bool
  | .models | .geminiModels | .countTokens | .responsesSubpath => true
  | _ => false

def isHexDigit (c : UInt8) : Bool :=
  isDigit c || (97 ≤ c && c ≤ 102) || (65 ≤ c && c ≤ 70)

def safeQueryBytes : Bytes → Bool
  | [] => true
  | 37 :: a :: b :: rest => isHexDigit a && isHexDigit b && safeQueryBytes rest
  | c :: rest => 0x21 ≤ c && c ≤ 0x7e && c ≠ 35 && c ≠ 37 && safeQueryBytes rest

def isSafeQueryString (query : Bytes) : Bool :=
  query.isEmpty || (query.length ≤ 4096 && query.head? = some 63 && safeQueryBytes (query.drop 1))

end Gateway.Server
