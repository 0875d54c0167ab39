import Gateway.Protocol.ChatIR

/-! # Anthropic messages -/

namespace Gateway.Protocol.Anthropic

open Lib Json

def systemText (doc : Json) : Access Bytes := do
  if ← doc.hasMember "system" then
    match ← doc.member "system" with
    | .string s => return cstr s
    | .array blocks => return ← blocks.foldlM (fun system block => do
        return ((← partText block).map (appendLine system)).getD system) []
    | _ => return []
  return []

variable (rj : RapidJson)

def addContentBlock (acc : Message × Bool) (block : Json) :
    Access (Message × Bool) := do
  let (msg, unsupported) := acc
  if !block.isObject then
    return acc
  let type ← block.getStr "type"
  if type == "text" then
    return (msg.addText (← block.getStr "text"), unsupported)
  else if type == "tool_use" then
    let b ← toolUseBlock rj block
    let tc : ToolCall := { id := b.toolCallId, name := b.toolName, arguments := b.toolArguments }
    return ({ msg with content := msg.content ++ [b], toolCalls := msg.toolCalls ++ [tc] },
      unsupported)
  else if type == "tool_result" then
    let (b, unsupported) ← toolResultBlock block unsupported
    return ({ msg with content := msg.content ++ [b], toolCallId := b.toolCallId }, unsupported)
  else
    return (msg, true)

def extractContent (content : Json) (acc : Message × Bool) : Access (Message × Bool) :=
  match content with
  | .string s => return (acc.1.addText (cstr s), acc.2)
  | .array blocks => blocks.foldlM (addContentBlock rj) acc
  | _ => return acc

def addMessage (req : ChatRequest) (m : Json) : Access ChatRequest := do
  if !m.isObject then
    return req
  let mut msg : Message := { role := ← m.getStr "role" }
  let mut unsupported := req.unsupportedContent
  if ← m.hasMember "content" then
    (msg, unsupported) ← extractContent rj (← m.member "content") (msg, unsupported)
  return { req with messages := req.messages ++ [msg], unsupportedContent := unsupported }

def addTool (tools : List ToolDef) (t : Json) : Access (List ToolDef) := do
  if !t.isObject then
    return tools
  return tools ++ [{
    name := ← t.getStr "name"
    description := ← t.getStr "description"
    parametersJson := ← objectText rj t "input_schema" }]

def metadataUserId (doc : Json) : Access Bytes := do
  match ← doc.memberAs "metadata" object? with
  | some md => return (← md.memberAs "user_id" string?).getD []
  | none => return []

def readRequest (doc : Json) : Access ChatRequest := do
  let req : ChatRequest := {
    model := ← doc.getStr "model"
    stream := (← doc.memberAs "stream" bool?).getD false
    maxTokens := (← doc.memberAs "max_tokens" int?).getD 4096
    temperature := ← doc.memberAs "temperature" double?
    topP := ← doc.memberAs "top_p" double?
    system := ← systemText doc
    stop := ← stringArray doc "stop_sequences"
    metadataUserId := ← metadataUserId doc }
  let req ← ((← doc.memberAs "messages" array?).getD []).foldlM (addMessage rj) req
  let tools ← ((← doc.memberAs "tools" array?).getD []).foldlM (addTool rj) []
  return { req with tools }

def parseRequest (body : Bytes) : Access ChatRequest :=
  match (rj.parse body).bind object? with
  | some doc => readRequest rj doc
  | none => return {}

def blockValue (b : ContentBlock) : Json :=
  match b.type with
  | .text => .object [("type", .str "text"), ("text", .str b.text)]
  | .toolUse => .object [
      ("type", .str "tool_use"), ("id", .str b.toolCallId), ("name", .str b.toolName),
      ("input", objectOfText rj b.toolArguments)]
  | .toolResult => .object [
      ("type", .str "tool_result"), ("tool_use_id", .str b.toolCallId), ("content", .str b.text)]
  | .image => .object []

def needsBlocks (msg : Message) : Bool :=
  msg.content.any (fun b => b.type ≠ .text) || !msg.toolCalls.isEmpty

def messageValue (msg : Message) : Json :=
  .object [
    ("role", .str msg.role),
    ("content",
      if needsBlocks msg then .array (msg.content.map (blockValue rj)) else .str msg.textContent)]

def toolValue (t : ToolDef) : Json :=
  objectOf [
    memberOf "name" (.str t.name),
    memberIf (!t.description.isEmpty) "description" (.str t.description),
    memberOf "input_schema" (objectOfText rj t.parametersJson)]

def requestValue (req : ChatRequest) : Json :=
  objectOf [
    memberOf "model" (.str req.model),
    memberOf "max_tokens" (.int (if req.maxTokens > 0 then req.maxTokens else 4096)),
    memberIf (!req.system.isEmpty) "system" (.str req.system),
    memberIf req.stream "stream" (.bool true),
    memberOpt "temperature" (req.temperature.map .double),
    memberOpt "top_p" (req.topP.map .double),
    memberIf (!req.stop.isEmpty) "stop_sequences" (stringsValue req.stop),
    memberIf (!req.metadataUserId.isEmpty) "metadata"
      (.object [("user_id", .str req.metadataUserId)]),
    memberOf "messages" (.array (req.messages.map (messageValue rj))),
    memberIf (!req.tools.isEmpty) "tools" (.array (req.tools.map (toolValue rj)))]

def serializeRequest (req : ChatRequest) : Bytes := rj.write (requestValue rj req)

def stopReason (delta : StreamDelta) : Bytes :=
  let reason : Bytes := if delta.finishReason.isEmpty then "end_turn" else delta.finishReason
  if reason == "stop" then "end_turn"
  else if reason == "tool_calls" then "tool_use"
  else reason

def contentBlockValue (delta : StreamDelta) : Json :=
  if !delta.toolName.isEmpty then
    .object [
      ("type", .str "tool_use"), ("id", .str delta.toolCallId), ("name", .str delta.toolName),
      ("input", .object [])]
  else
    .object [("type", .str "text"), ("text", .str [])]

def eventValue (delta : StreamDelta) : Bytes × Json :=
  match delta.type with
  | .messageStart => ("message_start", .object [
      ("type", .str "message_start"),
      ("message", .object [
        ("id", .str (if delta.id.isEmpty then "msg_gateway" else delta.id)),
        ("type", .str "message"), ("role", .str "assistant"), ("model", .str delta.model),
        ("usage", .object [("input_tokens", .int delta.inputTokens), ("output_tokens", .int 0)])])])
  | .contentStart => ("content_block_start", .object [
      ("type", .str "content_block_start"), ("index", .int delta.index),
      ("content_block", contentBlockValue delta)])
  | .textDelta => ("content_block_delta", .object [
      ("type", .str "content_block_delta"), ("index", .int delta.index),
      ("delta", .object [("type", .str "text_delta"), ("text", .str delta.text)])])
  | .toolCallDelta => ("content_block_delta", .object [
      ("type", .str "content_block_delta"), ("index", .int delta.index),
      ("delta", .object [
        ("type", .str "input_json_delta"), ("partial_json", .str delta.toolArgumentsDelta)])])
  | .contentEnd => ("content_block_stop", .object [
      ("type", .str "content_block_stop"), ("index", .int delta.index)])
  | .messageEnd => ("message_delta", .object [
      ("type", .str "message_delta"),
      ("delta", .object [("stop_reason", .str (stopReason delta))]),
      ("usage", .object [("output_tokens", .int delta.outputTokens)])])
  | .done => ("message_stop", .object [("type", .str "message_stop")])

def serializeStreamEvent (delta : StreamDelta) : Bytes :=
  let (eventType, doc) := eventValue delta
  "event: " ++ eventType ++ "\ndata: " ++ rj.write doc ++ "\n\n"

def usageCount (j : Json) (key : Bytes) : Access Int := do
  let some u ← j.memberAs "usage" object? | return 0
  return (← u.memberAs key int?).getD 0

def readMessageStart (doc : Json) : Access StreamDelta := do
  let some msg ← doc.memberAs "message" object? | return { type := .messageStart }
  return {
    type := .messageStart
    id := (← msg.memberAs "id" string?).getD []
    model := (← msg.memberAs "model" string?).getD []
    inputTokens := ← usageCount msg "input_tokens" }

def readContentBlockStart (doc : Json) : Access StreamDelta := do
  let delta : StreamDelta := {
    type := .contentStart
    index := (← doc.memberAs "index" int?).getD 0 }
  let some block ← doc.memberAs "content_block" object? | return delta
  if (← block.getStr "type") == "tool_use" then
    return { delta with toolCallId := ← block.getStr "id", toolName := ← block.getStr "name" }
  return delta

def readContentBlockDelta (doc : Json) : Access StreamDelta := do
  let delta : StreamDelta := { index := (← doc.memberAs "index" int?).getD 0 }
  let some d ← doc.memberAs "delta" object? | return delta
  let dtype ← d.getStr "type"
  if dtype == "text_delta" then
    return { delta with type := .textDelta, text := ← d.getStr "text" }
  else if dtype == "input_json_delta" then
    return { delta with type := .toolCallDelta, toolArgumentsDelta := ← d.getStr "partial_json" }
  else
    return delta

def readStopReason (doc : Json) : Access Bytes := do
  let some d ← doc.memberAs "delta" object? | return []
  let reason ← d.getStr "stop_reason"
  if reason == "end_turn" then return "stop"
  else if reason == "tool_use" then return "tool_calls"
  else return reason

def readMessageDelta (doc : Json) : Access StreamDelta := do
  return {
    type := .messageEnd
    finishReason := ← readStopReason doc
    outputTokens := ← usageCount doc "output_tokens" }

def readStreamEvent (eventType : Bytes) (doc : Json) : Access StreamDelta := do
  if eventType == "message_start" then
    readMessageStart doc
  else if eventType == "content_block_start" then
    readContentBlockStart doc
  else if eventType == "content_block_delta" then
    readContentBlockDelta doc
  else if eventType == "content_block_stop" then
    return { type := .contentEnd, index := (← doc.memberAs "index" int?).getD 0 }
  else if eventType == "message_delta" then
    readMessageDelta doc
  else if eventType == "message_stop" then
    return { type := .done }
  else
    return {}

def parseStreamEvent (eventType data : Bytes) : Access StreamDelta :=
  match (rj.parse data).bind object? with
  | some doc => readStreamEvent eventType doc
  | none => return {}

end Gateway.Protocol.Anthropic
