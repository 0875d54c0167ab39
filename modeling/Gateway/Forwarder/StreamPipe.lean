import Gateway.Lib.Loop
import Gateway.Forwarder.Sse
import Gateway.Forwarder.UsageCounts

/-! # The stream pipe -/

namespace Gateway.Forwarder

open Lib Protocol
open Protocol (Format StreamDelta toInt32)

inductive StreamPolicyDisposition where
  | allow
  | block
  | failClosed
  deriving DecidableEq, Repr

structure StreamPolicyDecision where
  disposition : StreamPolicyDisposition := .failClosed
  errorCode : Bytes := []
  message : Bytes := []
  deriving DecidableEq

inductive ProtocolMode where
  | passthrough
  | anthropicToOpenAI
  | openAIToAnthropic
  | geminiCompat
  | crossProtocol
  deriving DecidableEq, Repr

abbrev StreamPolicyFn := Nat → Bytes → StreamPolicyDecision

structure StreamPipeConfig where
  readBufSize : Nat := 64 * 1024
  firstTokenTimeoutMs : UInt32 := 60000
  interChunkTimeoutMs : UInt32 := 120000
  totalTimeoutMs : UInt32 := 300000
  keepaliveIntervalMs : UInt32 := 15000
  maxPolicyEventBytes : Nat := 128 * 1024
  injectKeepalive : Bool := true
  policy : Option StreamPolicyFn := none

structure StreamPipe where
  config : StreamPipeConfig
  mode : ProtocolMode
  source : Format := .openAIChatCompletions
  target : Format := .anthropic
  rj : RapidJson

structure Surroundings where
  clock : Nat → UInt64
  write : Nat → Bytes → Int

inductive ReadOutcome where
  | bytes (b : Bytes)
  | error (errno : Int)
  deriving DecidableEq

structure StreamResult extends UsageReading where
  bytesForwarded : Int := 0
  firstTokenMs : Int := 0
  totalDurationMs : Int := 0
  completed : Bool := false
  terminalEventSeen : Bool := false
  incomplete : Bool := false
  providerDisconnect : Bool := false
  timedOut : Bool := false
  clientDisconnect : Bool := false
  policyBlocked : Bool := false
  policyFailedClosed : Bool := false
  policyErrorCode : Bytes := []
  policyMessage : Bytes := []
  deriving DecidableEq

inductive Origin where
  | event (provider client : Bytes)
  | policyError
  | keepalive
  | raw
  deriving DecidableEq

inductive PipeAction where
  | asked (content : Bytes) (decision : StreamPolicyDecision)
  | wrote (origin : Origin) (delivered : Bytes)
  deriving DecidableEq

structure PipeState where
  result : StreamResult := {}
  acc : Bytes := []
  streamStart : UInt64
  lastDataMs : UInt64
  lastWriteMs : UInt64
  firstTokenReceived : Bool := false
  clockCalls : Nat
  writeCalls : Nat := 0
  policyCalls : Nat := 0
  log : List PipeAction := []

abbrev Flow := Except PipeState PipeState

def PipeState.tick (st : PipeState) : PipeState := { st with clockCalls := st.clockCalls + 1 }

def PipeState.logged (st : PipeState) (a : PipeAction) : PipeState := { st with log := st.log ++ [a] }

def clientBytes (log : List PipeAction) : Bytes :=
  log.flatMap fun
    | .wrote _ delivered => delivered
    | .asked _ _ => []

namespace StreamPipe

section

variable (p : StreamPipe) (env : Surroundings)

variable (st : PipeState)

structure Offered where
  accepted : Bool
  delivered : Bytes
  st : PipeState

def offer (onAccept : PipeState → PipeState) : Nat → Bytes → Bytes → PipeState → Offered
  | 0, _, delivered, st => ⟨true, delivered, st⟩
  | n + 1, data, delivered, st =>
    if data.isEmpty then ⟨true, delivered, st⟩
    else
      let count := env.write st.writeCalls data
      let st := { st with writeCalls := st.writeCalls + 1 }
      if count ≤ 0 then ⟨false, delivered, st⟩
      else offer onAccept n (data.drop count.toNat) (delivered ++ data.take count.toNat)
        (onAccept st)

def writeAll (origin : Origin) (data : Bytes) (st : PipeState) : Bool × PipeState :=
  let o := offer env id data.length data [] st
  let st := o.st.logged (.wrote origin o.delivered)
  if o.accepted then
    (true, { st with result.bytesForwarded := st.result.bytesForwarded + data.length })
  else (false, { st with result.clientDisconnect := true })

def touchWrite : PipeState :=
  { st.tick with lastWriteMs := env.clock st.clockCalls }

def finish : PipeState :=
  { st.tick with
    result.totalDurationMs := toInt32 (env.clock st.clockCalls - st.streamStart).toNat }

def exempt (event : Bytes) : Bool :=
  contains event "data: [DONE]"
    || (p.source == .anthropic && contains event "event: message_stop")

def tooLarge : StreamPolicyDecision where
  disposition := .failClosed
  errorCode := "content_policy_payload_too_large"
  message := "A streaming response event exceeded the content policy limit"

def askPolicy (policy : StreamPolicyFn) (content : Bytes) (st : PipeState) :
    StreamPolicyDecision × PipeState :=
  if content.length > p.config.maxPolicyEventBytes then (tooLarge, st)
  else
    let decision := policy st.policyCalls content
    (decision, { st.logged (.asked content decision) with policyCalls := st.policyCalls + 1 })

def refused (decision : StreamPolicyDecision) (r : StreamResult) : StreamResult :=
  let blocked := decision.disposition == .block
  { r with
    policyBlocked := blocked
    policyFailedClosed := decision.disposition == .failClosed
    policyErrorCode :=
      if decision.errorCode.isEmpty then
        (if blocked then "content_policy_blocked" else "content_policy_unavailable")
      else decision.errorCode
    policyMessage :=
      if decision.message.isEmpty then
        (if blocked then "Provider response was withheld by the active content policy"
         else "Provider response could not be cleared for delivery")
      else decision.message
    incomplete := true }

def policyContent (providerEvent clientEvent : Bytes) : Bytes :=
  if clientEvent.isEmpty then providerEvent else clientEvent

def applyPolicy (providerEvent clientEvent : Bytes) (st : PipeState) : Bool × PipeState :=
  match p.config.policy with
  | none => (true, st)
  | some policy =>
    if p.exempt providerEvent then (true, st)
    else
      let (decision, st) := p.askPolicy policy (policyContent providerEvent clientEvent) st
      if decision.disposition = .allow then (true, st)
      else (false, { st with result := refused decision st.result })

def quoteByte (byte : UInt8) : Bytes :=
  if byte = 34 then "\\\""
  else if byte = 92 then "\\\\"
  else if byte = 8 then "\\b"
  else if byte = 12 then "\\f"
  else if byte = 10 then "\\n"
  else if byte = 13 then "\\r"
  else if byte = 9 then "\\t"
  else if byte < 32 then "\\u00" ++ [hexDigit (byte >>> 4), hexDigit (byte &&& 15)]
  else [byte]

def jsonQuote (value : Bytes) : Bytes := "\"" ++ value.flatMap quoteByte ++ "\""

def policyErrorEvent (r : StreamResult) : Bytes :=
  let code := jsonQuote r.policyErrorCode
  let message := jsonQuote r.policyMessage
  match p.target with
  | .anthropic =>
    "event: error\ndata: \x7b\"type\":\"error\",\"error\":\x7b\"type\":" ++ code
      ++ ",\"message\":" ++ message ++ "\x7d\x7d\n\n"
  | .openAIResponses =>
    "event: response.failed\ndata: \x7b\"type\":\"response.failed\",\"response\":\x7b"
      ++ "\"status\":\"failed\",\"error\":\x7b\"code\":" ++ code
      ++ ",\"message\":" ++ message ++ "\x7d\x7d\x7d\n\n"
  | _ => "data: \x7b\"error\":\x7b\"type\":" ++ code ++ ",\"message\":" ++ message ++ "\x7d\x7d\n\n"

def emitPolicyError : PipeState :=
  (writeAll env .policyError (p.policyErrorEvent st.result) st).2

def parsedDelta (m : Access StreamDelta) : StreamDelta := m.toOption.getD {}

def transformEvent (event : Bytes) : Bytes :=
  let type := eventType event
  let payload := dataPayload event
  if payload.isEmpty then event
  else if p.mode = .crossProtocol ∨ p.source ≠ p.target then
    Converter.serializeStreamEvent p.rj p.target
      (parsedDelta (Converter.parseStreamEvent p.rj p.source type payload))
  else
    match p.mode with
    | .anthropicToOpenAI => OpenAI.serializeStreamEvent p.rj
        (parsedDelta (Anthropic.parseStreamEvent p.rj type payload))
    | .openAIToAnthropic => Anthropic.serializeStreamEvent p.rj
        (parsedDelta (OpenAI.parseStreamEvent p.rj payload))
    | .geminiCompat => OpenAI.serializeStreamEvent p.rj
        (parsedDelta (Gemini.parseStreamEvent p.rj payload))
    | _ => event

def readUsage (event : Bytes) (r : StreamResult) : StreamResult :=
  { r with
    toUsageReading :=
      (extractUsageFromEvent p.rj event r.toUsageReading).toOption.getD r.toUsageReading }

def noteTerminal (event : Bytes) (r : StreamResult) : StreamResult :=
  if (isTerminalEvent p.rj p.source event).toOption.getD false then
    { r with terminalEventSeen := true }
  else r

def clientLost : PipeState :=
  finish env { st with result.incomplete := !st.result.terminalEventSeen }

def deliver (providerEvent clientEvent : Bytes) (st : PipeState) : Flow :=
  let (allowed, st) := p.applyPolicy providerEvent clientEvent st
  if !allowed then .error (finish env (p.emitPolicyError env st))
  else if clientEvent.isEmpty then .ok st
  else
    let (written, st) := writeAll env (.event providerEvent clientEvent) clientEvent st
    if written then .ok st else .error (clientLost env st)

def passEvent (event : Bytes) : Flow := do
  let st := { st with result := p.noteTerminal event (p.readUsage event st.result) }
  if p.config.policy.isNone then
    return st
  return touchWrite env (← p.deliver env event event st)

def mentionsUsage (event : Bytes) : Bool :=
  contains event "\"usage\"" || contains event "\"usageMetadata\"" || contains event "message_stop"

def noteEvent (event : Bytes) (r : StreamResult) : StreamResult :=
  p.noteTerminal event (if mentionsUsage event then p.readUsage event r else r)

def transformOne (event : Bytes) : Flow :=
  p.deliver env event (p.transformEvent event) { st with result := p.noteEvent event st.result }

def providerDisconnectErrno (errno : Int) : Bool := [0, 104, 103, 32, 107].contains errno

def totalTimeout : Bool :=
  (env.clock st.clockCalls - st.streamStart).toNat > p.config.totalTimeoutMs.toNat

def timeOut : PipeState :=
  finish env { st with result.incomplete := true, result.timedOut := true }

def silentTooLong : Bool :=
  let sinceLast := (env.clock st.clockCalls - st.lastDataMs).toNat
  if st.firstTokenReceived then sinceLast > p.config.interChunkTimeoutMs.toNat
  else sinceLast > p.config.firstTokenTimeoutMs.toNat

def readFailed (errno : Int) (st : PipeState) : Flow :=
  if providerDisconnectErrno errno then
    .error (finish env
      { st with result.incomplete := true, result.providerDisconnect := true })
  else if p.silentTooLong env st then .error (timeOut env st.tick)
  else .ok st.tick

def endOfStream : PipeState :=
  finish env (if st.result.terminalEventSeen then { st with result.completed := true }
    else { st with
      result.completed := true, result.incomplete := true, result.providerDisconnect := true })

def received : PipeState :=
  let now := env.clock st.clockCalls
  let st := { st.tick with lastDataMs := now }
  if st.firstTokenReceived then st
  else { st with
    firstTokenReceived := true
    result.firstTokenMs := toInt32 (now - st.streamStart).toNat }

def keepaliveComment : Bytes := ": keepalive\n\n"

def keepaliveDue : Bool :=
  ¬ (env.clock st.clockCalls - st.lastWriteMs).toNat < p.config.keepaliveIntervalMs.toNat

def keepalive (st : PipeState) : Bool × PipeState :=
  if !p.keepaliveDue env st then (false, st.tick)
  else
    let st := st.tick
    let count := env.write st.writeCalls keepaliveComment
    let st := { st with writeCalls := st.writeCalls + 1 }
    (count ≤ 0, st.logged (.wrote .keepalive (keepaliveComment.take count.toNat)))

def zeroCopy (chunk : Bytes) (st : PipeState) : Flow :=
  let o := offer env (touchWrite env) chunk.length chunk [] st
  let st := o.st.logged (.wrote .raw o.delivered)
  if o.accepted then
    .ok { st with result.bytesForwarded := st.result.bytesForwarded + chunk.length }
  else .error (clientLost env { st with result.clientDisconnect := true })

def keptTail (rest : Bytes) : Bytes :=
  if rest.length > p.config.readBufSize * 4 then rest.drop (rest.length - p.config.readBufSize)
  else rest

def keepRest (rest : Bytes) (st : PipeState) : Flow :=
  if p.config.policy.isSome && rest.length > p.config.maxPolicyEventBytes then
    .error (finish env (p.emitPolicyError env (p.applyPolicy rest rest st).2))
  else .ok { st with acc := p.keptTail rest }

def round (onSilence : PipeState → Flow) (onChunk : Bytes → PipeState → Flow) (st : PipeState)
    (outcome : ReadOutcome) : Flow :=
  if p.totalTimeout env st then .error (timeOut env st.tick)
  else
    let st := st.tick
    match outcome with
    | .error errno => p.readFailed env errno st >>= onSilence
    | .bytes [] => .error (endOfStream env st)
    | .bytes (b :: bs) => onChunk (b :: bs) (received env st)

def passSilence : Flow :=
  if p.config.injectKeepalive then
    let (failed, st) := p.keepalive env st
    if failed then .error (finish env { st with result.clientDisconnect := true }) else .ok st
  else .ok st

def passOn (chunk : Bytes) (st : PipeState) : Flow :=
  if p.config.policy.isNone then zeroCopy env chunk st else .ok st

def passEvents (chunk : Bytes) (st : PipeState) : Flow := do
  let (events, rest) := nextEvent.frames (st.acc ++ chunk)
  let st ← events.foldlM (p.passEvent env) st
  p.keepRest env rest st

def passChunk (chunk : Bytes) (st : PipeState) : Flow :=
  p.passOn env chunk st >>= p.passEvents env chunk

def transformChunk (chunk : Bytes) (st : PipeState) : Flow := do
  let (events, rest) := nextEvent.frames (st.acc ++ chunk)
  let st ← events.foldlM (p.transformOne env) st
  return { st with acc := rest }

def step : PipeState → ReadOutcome → Flow :=
  if p.mode = .passthrough then p.round env (p.passSilence env) (p.passChunk env)
  else p.round env .ok (p.transformChunk env)

def start : PipeState where
  streamStart := env.clock 0
  lastDataMs := env.clock 0
  lastWriteMs := env.clock 0
  clockCalls := 1

def run (reads : List ReadOutcome) : PipeState :=
  drive (p.step env) (.bytes []) reads (start env)

end

end StreamPipe

end Gateway.Forwarder
