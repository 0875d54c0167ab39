import Gateway.Protocol.ChatIR

/-! # OpenAI chat completions -/

namespace Gateway.Protocol.OpenAI

open Lib Json

variable (rj : RapidJson)

def addContentPart (acc : Message × Bool) (part : Json) :
    Access (Message × Bool) := do
  let (msg, unsupported) := acc
  if !part.isObject then
    return acc
  let type ← part.getStr "type"
  if type == "text" then
    return (msg.addText (← part.getStr "text"), unsupported)
  else if type == "tool_use" then
    let b ← toolUseBlock rj part
    return ({ msg with content := msg.content ++ [b] }, unsupported)
  else if type == "tool_result" then
    let (b, unsupported) ← toolResultBlock part unsupported
    return ({ msg with content := msg.content ++ [b] }, unsupported)
  else
    return (msg, true)

def extractContentBlocks (content : Json) (acc : Message × Bool) : Access (Message × Bool) :=
  match content with
  | .string s => return (acc.1.addText (cstr s), acc.2)
  | .array parts => parts.foldlM (addContentPart rj) acc
  | _ => return acc

def systemText (content : Json) : Access Bytes :=
  match content with
  | .string s => return cstr s
  | .array parts => parts.foldlM (fun text p => do return text ++ (← partText p).getD []) []
  | _ => return []

def addToolCall (calls : List ToolCall) (tc : Json) : Access (List ToolCall) := do
  if !tc.isObject then
    return calls
  let id ← tc.getStr "id"
  match ← tc.memberAs "function" object? with
  | some fn =>
    return calls ++ [{ id, name := ← fn.getStr "name", arguments := ← fn.getStr "arguments" }]
  | none => return calls ++ [{ id := id }]

def addMessage (req : ChatRequest) (m : Json) : Access ChatRequest := do
  if !m.isObject then
    return req
  let role ← m.getStr "role"
  if role == "system" || role == "developer" then
    if ← m.hasMember "content" then
      let sysText ← systemText (← m.member "content")
      return { req with system := appendLine req.system sysText }
    return req
  let mut msg : Message := { role }
  let mut unsupported := req.unsupportedContent
  if ← m.hasMember "content" then
    (msg, unsupported) ← extractContentBlocks rj (← m.member "content") (msg, unsupported)
  let calls ← ((← m.memberAs "tool_calls" array?).getD []).foldlM addToolCall []
  msg := { msg with
    toolCalls := calls
    toolCallId := (← m.memberAs "tool_call_id" string?).getD [] }
  return { req with messages := req.messages ++ [msg], unsupportedContent := unsupported }

def addTool (tools : List ToolDef) (t : Json) : Access (List ToolDef) := do
  if !t.isObject then
    return tools
  if (← t.getStr "type") != "function" then
    return tools
  match ← t.memberAs "function" object? with
  | some fn =>
    return tools ++ [{
      name := ← fn.getStr "name"
      description := ← fn.getStr "description"
      parametersJson := ← objectText rj fn "parameters" }]
  | none => return tools ++ [({} : ToolDef)]

def tokenLimit (doc : Json) : Access Int := do
  match ← doc.memberAs "max_tokens" int? with
  | some n => return n
  | none => return (← doc.memberAs "max_completion_tokens" int?).getD 4096

def stopSequences (doc : Json) : Access (List Bytes) := do
  if ← doc.hasMember "stop" then
    match ← doc.member "stop" with
    | .string s => return [cstr s]
    | .array vs => return vs.filterMap string?
    | _ => return []
  return []

def readRequest (doc : Json) : Access ChatRequest := do
  let req : ChatRequest := {
    model := ← doc.getStr "model"
    stream := (← doc.memberAs "stream" bool?).getD false
    maxTokens := ← tokenLimit doc
    temperature := ← doc.memberAs "temperature" double?
    topP := ← doc.memberAs "top_p" double?
    metadataUserId := (← doc.memberAs "user" string?).getD []
    stop := ← stopSequences doc }
  let req ← ((← doc.memberAs "messages" array?).getD []).foldlM (addMessage rj) req
  let tools ← ((← doc.memberAs "tools" array?).getD []).foldlM (addTool rj) []
  return { req with tools }

def parseRequest (body : Bytes) : Access ChatRequest :=
  match (rj.parse body).bind object? with
  | some doc => readRequest rj doc
  | none => return {}

def blockValue (b : ContentBlock) : Json :=
  match b.type with
  | .text => .object [("type", .str "text"), ("text", .str b.text)]
  | .toolResult => .object [
      ("type", .str "tool_result"), ("tool_use_id", .str b.toolCallId), ("content", .str b.text)]
  | _ => .object []

def toolCallValue (tc : ToolCall) : Json :=
  .object [
    ("id", .str tc.id), ("type", .str "function"),
    ("function", .object [("name", .str tc.name), ("arguments", .str tc.arguments)])]

def hasToolBlocks (msg : Message) : Bool :=
  msg.content.any fun b => b.type = .toolUse ∨ b.type = .toolResult

def messageValue (msg : Message) : Json :=
  objectOf [
    memberOf "role" (.str msg.role),
    memberIf (!msg.toolCallId.isEmpty) "tool_call_id" (.str msg.toolCallId),
    memberOf "content"
      (if !hasToolBlocks msg && msg.toolCalls.isEmpty then .str msg.textContent
       else .array (msg.content.map blockValue)),
    memberIf (!msg.toolCalls.isEmpty) "tool_calls" (.array (msg.toolCalls.map toolCallValue))]

def schemaMember (t : ToolDef) : List (Bytes × Json) :=
  if t.parametersJson.isEmpty then []
  else memberOpt "parameters" (rj.parse (cstr t.parametersJson))

def toolValue (t : ToolDef) : Json :=
  .object [
    ("type", .str "function"),
    ("function", objectOf [
      memberOf "name" (.str t.name),
      memberIf (!t.description.isEmpty) "description" (.str t.description),
      schemaMember rj t])]

def requestValue (req : ChatRequest) : Json :=
  objectOf [
    memberOf "model" (.str req.model),
    memberOf "messages" (.array (
      (if req.system.isEmpty then []
       else [.object [("role", .str "system"), ("content", .str req.system)]])
      ++ req.messages.map messageValue)),
    memberIf req.stream "stream" (.bool true),
    memberIf (req.maxTokens > 0) "max_tokens" (.int req.maxTokens),
    memberOpt "temperature" (req.temperature.map .double),
    memberOpt "top_p" (req.topP.map .double),
    memberIf (!req.stop.isEmpty) "stop" (stringsValue req.stop),
    memberIf (!req.metadataUserId.isEmpty) "user" (.str req.metadataUserId),
    memberIf (!req.tools.isEmpty) "tools" (.array (req.tools.map (toolValue rj)))]

def serializeRequest (req : ChatRequest) : Bytes := rj.write (requestValue rj req)

def toolCallDeltaValue (delta : StreamDelta) : Json :=
  objectOf [
    memberOf "index" (.int delta.index),
    memberIf (!delta.toolCallId.isEmpty) "id" (.str delta.toolCallId),
    if !delta.toolName.isEmpty then
      [("type", .str "function"),
       ("function", .object [("name", .str delta.toolName), ("arguments", .str [])])]
    else
      memberIf (!delta.toolArgumentsDelta.isEmpty) "function"
        (.object [("name", .str []), ("arguments", .str delta.toolArgumentsDelta)])]

def deltaMembers (delta : StreamDelta) : List (Bytes × Json) :=
  match delta.type with
  | .messageStart => [("role", .str "assistant"), ("content", .str [])]
  | .textDelta => [("content", .str delta.text)]
  | .toolCallDelta => [("tool_calls", .array [toolCallDeltaValue delta])]
  | _ => []

def chunkValue (delta : StreamDelta) : Json :=
  objectOf [
    memberOf "object" (.str "chat.completion.chunk"),
    memberIf (!delta.id.isEmpty) "id" (.str delta.id),
    memberIf (!delta.model.isEmpty) "model" (.str delta.model),
    memberOf "choices" (.array [.object [
      ("index", .int delta.index),
      ("delta", .object (deltaMembers delta)),
      ("finish_reason", if delta.finishReason.isEmpty then .null else .str delta.finishReason)]])]

def serializeStreamEvent (delta : StreamDelta) : Bytes :=
  if delta.type = .done then "data: [DONE]\n\n"
  else "data: " ++ rj.write (chunkValue delta) ++ "\n\n"

def readToolCallDelta (delta : StreamDelta) (tc : Json) : Access StreamDelta := do
  let delta := { delta with
    type := .toolCallDelta
    index := (← tc.memberAs "index" int?).getD delta.index
    toolCallId := (← tc.memberAs "id" string?).getD delta.toolCallId }
  match ← tc.memberAs "function" object? with
  | some fn =>
    return { delta with
      toolName := (← fn.memberAs "name" string?).getD delta.toolName
      toolArgumentsDelta := (← fn.memberAs "arguments" string?).getD delta.toolArgumentsDelta }
  | none => return delta

def readChoice (delta : StreamDelta) (choice : Json) : Access StreamDelta := do
  let delta := { delta with
    finishReason := (← choice.memberAs "finish_reason" string?).getD delta.finishReason }
  let some d ← choice.memberAs "delta" object? | return delta
  if ← (d.hasMember "role" <&&> d.hasMember "content") then
    return { delta with type := .messageStart }
  if let some text ← d.memberAs "content" string? then
    return { delta with type := .textDelta, text }
  if let some (tc :: _) ← d.memberAs "tool_calls" array? then
    return ← readToolCallDelta delta tc
  if !delta.finishReason.isEmpty then
    return { delta with type := .messageEnd }
  return delta

def readStreamEvent (doc : Json) : Access StreamDelta := do
  let delta : StreamDelta := {
    model := (← doc.memberAs "model" string?).getD []
    id := (← doc.memberAs "id" string?).getD [] }
  match ← doc.memberAs "choices" array? with
  | some (choice :: _) => readChoice delta choice
  | _ => return delta

def parseStreamEvent (data : Bytes) : Access StreamDelta :=
  if data == "[DONE]" then return { type := .done }
  else
    match (rj.parse data).bind object? with
    | some doc => readStreamEvent doc
    | none => return {}

end Gateway.Protocol.OpenAI
