import Gateway.Protocol.OpenAI
import Gateway.Protocol.Anthropic

/-! # OpenAI responses -/

namespace Gateway.Protocol.OpenAIResponses

open Lib Json

def addContentPart (acc : Message × Bool) (part : Json) : Access (Message × Bool) := do
  if !part.isObject then
    return acc
  let pt ← part.getStr "type"
  if pt == "input_text" || pt == "text" || pt == "output_text" then
    return (acc.1.addText (← part.getStr "text"), acc.2)
  else
    return (acc.1, true)

def extractContent (content : Json) (acc : Message × Bool) : Access (Message × Bool) :=
  match content with
  | .string s => return (acc.1.addText (cstr s), acc.2)
  | .array parts => parts.foldlM addContentPart acc
  | _ => return acc

def addMessage (req : ChatRequest) (item : Json) : Access ChatRequest := do
  let role ← item.getStr "role"
  let role : Bytes := if role.isEmpty then "user" else role
  if role == "system" || role == "developer" then
    match ← item.memberAs "content" string? with
    | some text => return { req with system := appendLine req.system text }
    | none => return req
  let mut msg : Message := { role }
  let mut unsupported := req.unsupportedContent
  if ← item.hasMember "content" then
    (msg, unsupported) ← extractContent (← item.member "content") (msg, unsupported)
  return { req with messages := req.messages ++ [msg], unsupportedContent := unsupported }

def addItem (req : ChatRequest) (item : Json) : Access ChatRequest := do
  if !item.isObject then
    return req
  let type ← item.getStr "type"
  if ← (pure (type == "message") <||> item.hasMember "role") then
    addMessage req item
  else if type == "function_call" then
    let tc : ToolCall := {
      id := ← item.getStr "call_id"
      name := ← item.getStr "name"
      arguments := ← item.getStr "arguments" }
    return { req with
      messages := req.messages ++ [{ role := "assistant", toolCalls := [tc] }] }
  else if type == "function_call_output" then
    let msg : Message := { role := "tool", toolCallId := ← item.getStr "call_id" }
    return { req with messages := req.messages ++ [msg.addText (← item.getStr "output")] }
  else
    return req

def addInput (req : ChatRequest) (doc : Json) : Access ChatRequest := do
  if ← doc.hasMember "input" then
    match ← doc.member "input" with
    | .string s =>
      let msg : Message := { role := "user" }
      return { req with messages := req.messages ++ [msg.addText (cstr s)] }
    | .array items => return ← items.foldlM addItem req
    | _ => return req
  return req

variable (rj : RapidJson)

def addTool (tools : List ToolDef) (t : Json) : Access (List ToolDef) := do
  if !t.isObject then
    return tools
  if (← t.getStr "type") != "function" then
    return tools
  return tools ++ [{
    name := ← t.getStr "name"
    description := ← t.getStr "description"
    parametersJson := ← objectText rj t "parameters" }]

def tokenLimit (doc : Json) : Access Int := do
  match ← doc.memberAs "max_output_tokens" int? with
  | some n => return n
  | none => return (← doc.memberAs "max_tokens" int?).getD 4096

def readRequest (doc : Json) : Access ChatRequest := do
  let req : ChatRequest := {
    model := ← doc.getStr "model"
    stream := (← doc.memberAs "stream" bool?).getD false
    maxTokens := ← tokenLimit doc
    temperature := ← doc.memberAs "temperature" double?
    topP := ← doc.memberAs "top_p" double?
    metadataUserId := ← Anthropic.metadataUserId doc
    system := (← doc.memberAs "instructions" string?).getD [] }
  let req ← addInput req doc
  let tools ← ((← doc.memberAs "tools" array?).getD []).foldlM (addTool rj) []
  return { req with tools }

def parseRequest (body : Bytes) : Access ChatRequest :=
  match (rj.parse body).bind object? with
  | some doc => readRequest rj doc
  | none => return {}

def functionCallValue (tc : ToolCall) : Json :=
  .object [
    ("type", .str "function_call"), ("call_id", .str tc.id), ("name", .str tc.name),
    ("arguments", .str tc.arguments)]

def messageItems (msg : Message) : List Json :=
  if !msg.toolCalls.isEmpty then
    msg.toolCalls.map functionCallValue
  else if msg.role == "tool" && !msg.toolCallId.isEmpty then
    [.object [
      ("type", .str "function_call_output"), ("call_id", .str msg.toolCallId),
      ("output", .str msg.textContent)]]
  else
    [.object [
      ("type", .str "message"), ("role", .str msg.role),
      ("content", .array [.object [("type", .str "input_text"), ("text", .str msg.textContent)]])]]

def toolValue (t : ToolDef) : Json :=
  objectOf [
    memberOf "type" (.str "function"),
    memberOf "name" (.str t.name),
    memberIf (!t.description.isEmpty) "description" (.str t.description),
    OpenAI.schemaMember rj t]

def requestValue (req : ChatRequest) : Json :=
  objectOf [
    memberOf "model" (.str req.model),
    memberIf (!req.system.isEmpty) "instructions" (.str req.system),
    memberOf "input" (.array (req.messages.flatMap messageItems)),
    memberIf req.stream "stream" (.bool true),
    memberIf (req.maxTokens > 0) "max_output_tokens" (.int req.maxTokens),
    memberOpt "temperature" (req.temperature.map .double),
    memberOpt "top_p" (req.topP.map .double),
    memberIf (!req.tools.isEmpty) "tools" (.array (req.tools.map (toolValue rj))),
    memberIf (!req.metadataUserId.isEmpty) "metadata"
      (.object [("user_id", .str req.metadataUserId)])]

def serializeRequest (req : ChatRequest) : Bytes := rj.write (requestValue rj req)

def eventName : StreamDelta.Kind → Bytes
  | .messageStart => "response.created"
  | .contentStart => "response.output_item.added"
  | .textDelta => "response.output_text.delta"
  | .toolCallDelta => "response.function_call_arguments.delta"
  | .messageEnd => "response.completed"
  | .done => "response.completed"
  | .contentEnd => "response.output_text.delta"

def eventValue (delta : StreamDelta) : Json :=
  objectOf [
    memberOf "type" (.str (eventName delta.type)),
    match delta.type with
    | .textDelta => memberOf "delta" (.str delta.text)
    | .toolCallDelta => [
        memberOf "delta" (.str delta.toolArgumentsDelta),
        memberIf (!delta.toolCallId.isEmpty) "call_id" (.str delta.toolCallId),
        memberIf (!delta.toolName.isEmpty) "name" (.str delta.toolName)].flatten
    | _ => []]

def serializeStreamEvent (delta : StreamDelta) : Bytes :=
  if delta.type = .done then
    "event: response.completed\ndata: \x7b\"type\":\"response.completed\"\x7d\n\n"
  else "event: " ++ eventName delta.type ++ "\ndata: " ++ rj.write (eventValue delta) ++ "\n\n"

def readStreamEvent (doc : Json) : Access StreamDelta := do
  let type ← doc.getStr "type"
  if type == "response.created" then
    return { type := .messageStart }
  else if type == "response.output_item.added" then
    return { type := .contentStart }
  else if type == "response.output_text.delta" then
    return { type := .textDelta, text := ← doc.getStr "delta" }
  else if type == "response.function_call_arguments.delta" then
    return {
      type := .toolCallDelta
      toolArgumentsDelta := ← doc.getStr "delta"
      toolCallId := ← doc.getStr "call_id"
      toolName := ← doc.getStr "name" }
  else if type == "response.completed" then
    return { type := .done }
  else if type == "response.output_text.done" || type == "response.output_item.done" ||
      type == "response.content_part.done" || type == "response.content_part.added" then
    return { type := .contentEnd }
  else
    return {}

def parseStreamEvent (data : Bytes) : Access StreamDelta :=
  match (rj.parse data).bind object? with
  | some doc => readStreamEvent doc
  | none => return {}

end Gateway.Protocol.OpenAIResponses
