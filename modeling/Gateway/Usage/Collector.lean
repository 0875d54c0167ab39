import Mathlib.Data.List.Sort
import Gateway.Lib.KeyedTable
import Gateway.Protocol.Converter

/-! # The usage outbox -/

namespace Gateway.Usage

open Lib
open Protocol (toInt32)

structure UsageEvent where
  leaseToken : Bytes := []
  requestId : Bytes := []
  apiKeyId : Int := 0
  userId : Int := 0
  accountId : Int := 0
  groupId : Int := 0
  model : Bytes := []
  upstreamModel : Bytes := []
  inputTokens : Int := 0
  outputTokens : Int := 0
  cacheCreateTokens : Int := 0
  cacheReadTokens : Int := 0
  durationMs : Int := 0
  firstTokenMs : Int := 0
  stream : Bool := false
  clientDisconnect : Bool := false
  statusCode : Int := 0
  inputImageCount : Int := 0
  outputImageCount : Int := 0
  imageSize : Bytes := []
  videoCount : Int := 0
  videoResolution : Bytes := []
  videoDurationSeconds : Int := 0
  realtimeDurationMs : Int := 0
  realtimeFrames : Int := 0
  disconnectReason : Bytes := []
  providerUsageJson : Bytes := []
  reasoningTokens : Int := 0
  serviceTier : Bytes := []
  upstreamEndpoint : Bytes := []
  cancellationReason : Bytes := []
  mediaOperationId : Bytes := []
  pricingVersion : Bytes := []
  responseStatusCode : Int := 0
  responseContentType : Bytes := []
  responseBody : Bytes := []
  deriving DecidableEq

structure UsageRow where
  event : UsageEvent
  createdAt : Int
  deadLetteredAt : Option Int := none
  deadLetterError : Bytes := []
  deriving DecidableEq

namespace UsageRow

def key (row : UsageRow) : Bytes := row.event.leaseToken

def isPending (row : UsageRow) : Bool := row.deadLetteredAt.isNone

def readBack (row : UsageRow) : UsageEvent :=
  { row.event with
    leaseToken := cstr row.event.leaseToken
    requestId := cstr row.event.requestId
    model := cstr row.event.model
    upstreamModel := cstr row.event.upstreamModel
    imageSize := cstr row.event.imageSize
    videoResolution := cstr row.event.videoResolution
    disconnectReason := cstr row.event.disconnectReason
    providerUsageJson := cstr row.event.providerUsageJson
    serviceTier := cstr row.event.serviceTier
    upstreamEndpoint := cstr row.event.upstreamEndpoint
    cancellationReason := cstr row.event.cancellationReason
    mediaOperationId := cstr row.event.mediaOperationId
    pricingVersion := cstr row.event.pricingVersion
    responseContentType := cstr row.event.responseContentType
    responseBody := cstr row.event.responseBody }

end UsageRow

structure Evidence where
  leaseToken : Bytes
  stage : Bytes
  source : Bytes
  detail : Bytes
  deriving DecidableEq

structure EvidenceRow where
  evidence : Evidence
  createdAt : Int
  acknowledgedAt : Option Int := none
  deadLetterError : Bytes := []
  deriving DecidableEq

namespace EvidenceRow

def key (row : EvidenceRow) : Bytes × Bytes := (row.evidence.leaseToken, row.evidence.stage)

def isPending (row : EvidenceRow) : Bool := row.acknowledgedAt.isNone

def readBack (row : EvidenceRow) : Evidence where
  leaseToken := cstr row.evidence.leaseToken
  stage := cstr row.evidence.stage
  source := cstr row.evidence.source
  detail := cstr row.evidence.detail

end EvidenceRow

abbrev UsageOutbox := KeyedTable UsageRow.key

abbrev EvidenceOutbox := KeyedTable EvidenceRow.key

def limited {α : Type} (limit : UInt64) (rows : List α) : List α :=
  if toInt32 limit.toNat < 0 then rows else rows.take (toInt32 limit.toNat).toNat

namespace UsageOutbox

def record (now : Int) (event : UsageEvent) (t : UsageOutbox) : UsageOutbox :=
  t.insertNew { event, createdAt := now }

def peek (limit : UInt64) (t : UsageOutbox) : List UsageEvent :=
  (limited limit ((t.rows.filter UsageRow.isPending).insertionSort
    fun a b => a.createdAt ≤ b.createdAt)).map UsageRow.readBack

def acknowledge (leaseToken : Bytes) (t : UsageOutbox) : UsageOutbox := t.delete leaseToken

def deadLettered (now : Int) (errorCode : Bytes) (row : UsageRow) : UsageRow :=
  if row.isPending then { row with deadLetteredAt := some now, deadLetterError := errorCode }
  else row

theorem key_deadLettered (now : Int) (errorCode : Bytes) (row : UsageRow) :
    (deadLettered now errorCode row).key = row.key := by
  unfold deadLettered
  split <;> rfl

def deadLetter (now : Int) (leaseToken errorCode : Bytes) (t : UsageOutbox) : UsageOutbox :=
  t.update leaseToken (deadLettered now errorCode) (key_deadLettered now errorCode)

theorem mem_deadLetter {now : Int} {leaseToken errorCode : Bytes} {t : UsageOutbox}
    {row' : UsageRow} : row' ∈ (t.deadLetter now leaseToken errorCode).rows ↔
      ∃ row ∈ t.rows, (if row.key = leaseToken then deadLettered now errorCode row else row)
        = row' :=
  KeyedTable.mem_update

end UsageOutbox

namespace EvidenceOutbox

def recordEvidence (now : Int) (evidence : Evidence) (t : EvidenceOutbox) : EvidenceOutbox :=
  t.insertNew { evidence, createdAt := now }

def peekEvidence (limit : UInt64) (t : EvidenceOutbox) : List Evidence :=
  (limited limit ((t.rows.filter EvidenceRow.isPending).insertionSort
    fun a b => a.createdAt ≤ b.createdAt)).map EvidenceRow.readBack

def resolved (now : Int) (errorCode : Option Bytes) (row : EvidenceRow) : EvidenceRow :=
  if row.isPending then
    { row with
      acknowledgedAt := some now
      deadLetterError := errorCode.getD row.deadLetterError }
  else row

theorem key_resolved (now : Int) (errorCode : Option Bytes) (row : EvidenceRow) :
    (resolved now errorCode row).key = row.key := by
  unfold resolved
  split <;> rfl

def acknowledgeEvidence (now : Int) (leaseToken stage : Bytes) (t : EvidenceOutbox) :
    EvidenceOutbox :=
  t.update (leaseToken, stage) (resolved now none) (key_resolved now none)

def deadLetterEvidence (now : Int) (leaseToken stage errorCode : Bytes) (t : EvidenceOutbox) :
    EvidenceOutbox :=
  t.update (leaseToken, stage) (resolved now (some errorCode)) (key_resolved now (some errorCode))

end EvidenceOutbox

inductive UsageCollector where
  | durable (usage : UsageOutbox) (evidence : EvidenceOutbox)
  | memory (events : List UsageEvent)

namespace UsageCollector

def record (now : Int) (event : UsageEvent) : UsageCollector → UsageCollector
  | .durable usage evidence => .durable (usage.record now event) evidence
  | .memory events => .memory (events ++ [event])

def peek (limit : UInt64) : UsageCollector → List UsageEvent
  | .durable usage _ => usage.peek limit
  | .memory events => events.take limit.toNat

def popFront (leaseToken : Bytes) : List UsageEvent → List UsageEvent
  | [] => []
  | event :: events => if event.leaseToken = leaseToken then events else event :: events

def acknowledge (leaseToken : Bytes) : UsageCollector → UsageCollector
  | .durable usage evidence => .durable (usage.acknowledge leaseToken) evidence
  | .memory events => .memory (popFront leaseToken events)

def deadLetter (now : Int) (leaseToken errorCode : Bytes) : UsageCollector → UsageCollector
  | .durable usage evidence => .durable (usage.deadLetter now leaseToken errorCode) evidence
  | .memory events => .memory (popFront leaseToken events)

def recordEvidence (now : Int) (evidence : Evidence) : UsageCollector → UsageCollector
  | .durable usage rows => .durable usage (rows.recordEvidence now evidence)
  | .memory events => .memory events

def acknowledgeEvidence (now : Int) (leaseToken stage : Bytes) : UsageCollector → UsageCollector
  | .durable usage rows => .durable usage (rows.acknowledgeEvidence now leaseToken stage)
  | .memory events => .memory events

end UsageCollector

end Gateway.Usage
