import Gateway.Protocol.ChatIR

/-! # Gemini contents -/

namespace Gateway.Protocol.Gemini

open Lib Json

def systemText (doc : Json) : Access Bytes := do
  let some si ← doc.memberAs "systemInstruction" object? | return []
  let parts := (← si.memberAs "parts" array?).getD []
  parts.foldlM (fun system p => do
    return ((← partText p).map (appendLine system)).getD system) []

def addGenerationConfig (req : ChatRequest) (doc : Json) : Access ChatRequest := do
  let some gc ← doc.memberAs "generationConfig" object? | return req
  return { req with
    maxTokens := (← gc.memberAs "maxOutputTokens" int?).getD req.maxTokens
    temperature := ← gc.memberAs "temperature" double?
    topP := ← gc.memberAs "topP" double?
    stop := ← stringArray gc "stopSequences" }

structure PartState where
  msg : Message
  unsupported : Bool
  toolCallCounter : Nat := 0

variable (rj : RapidJson)

def addPart (st : PartState) (p : Json) : Access PartState := do
  if !p.isObject then
    return st
  if let some text ← p.memberAs "text" string? then
    return { st with msg := st.msg.addText text }
  if let some fc ← p.memberAs "functionCall" object? then
    let name ← fc.getStr "name"
    let counter := st.toolCallCounter + 1
    let id : Bytes := name ++ "_" ++ decimal counter
    let arguments ← objectText rj fc "args"
    let b : ContentBlock :=
      { type := .toolUse, toolCallId := id, toolName := name, toolArguments := arguments }
    return { st with
      msg := { st.msg with
        content := st.msg.content ++ [b]
        toolCalls := st.msg.toolCalls ++ [{ id, name, arguments }] }
      toolCallCounter := counter }
  if let some fr ← p.memberAs "functionResponse" object? then
    let name ← fr.getStr "name"
    let b : ContentBlock := {
      type := .toolResult, toolCallId := name, toolName := name
      text := ← objectText rj fr "response" }
    return { st with
      msg := { st.msg with content := st.msg.content ++ [b], toolCallId := name } }
  return { st with unsupported := true }

def addContent (req : ChatRequest) (c : Json) : Access ChatRequest := do
  if !c.isObject then
    return req
  let role ← c.getStr "role"
  let msg : Message := { role := if role == "model" then "assistant" else role }
  let st ← ((← c.memberAs "parts" array?).getD []).foldlM (addPart rj)
    { msg, unsupported := req.unsupportedContent }
  return { req with messages := req.messages ++ [st.msg], unsupportedContent := st.unsupported }

def addFunctionDeclaration (tools : List ToolDef) (fd : Json) :
    Access (List ToolDef) := do
  if !fd.isObject then
    return tools
  return tools ++ [{
    name := ← fd.getStr "name"
    description := ← fd.getStr "description"
    parametersJson := ← objectText rj fd "parameters" }]

def addTool (tools : List ToolDef) (t : Json) : Access (List ToolDef) := do
  if !t.isObject then
    return tools
  ((← t.memberAs "functionDeclarations" array?).getD []).foldlM
    (addFunctionDeclaration rj) tools

def readRequest (doc : Json) : Access ChatRequest := do
  let req : ChatRequest := {
    model := (← doc.memberAs "model" string?).getD []
    system := ← systemText doc }
  let req ← addGenerationConfig req doc
  let req ← ((← doc.memberAs "contents" array?).getD []).foldlM (addContent rj) req
  let tools ← ((← doc.memberAs "tools" array?).getD []).foldlM (addTool rj) []
  return { req with tools }

def parseRequest (body : Bytes) : Access ChatRequest :=
  match (rj.parse body).bind object? with
  | some doc => readRequest rj doc
  | none => return {}

def responseOfText (text : Bytes) : Json :=
  ((rj.parse (cstr text)).bind object?).getD (.object [("result", .str text)])

def partValue (b : ContentBlock) : Json :=
  match b.type with
  | .text => .object [("text", .str b.text)]
  | .toolUse => .object [("functionCall", .object [
      ("name", .str b.toolName), ("args", objectOfText rj b.toolArguments)])]
  | .toolResult => .object [("functionResponse", .object [
      ("name", .str b.toolName), ("response", responseOfText rj b.text)])]
  | .image => .object []

def contentValue (msg : Message) : Json :=
  .object [
    ("role", .str (if msg.role == "assistant" then "model" else msg.role)),
    ("parts", .array (msg.content.map (partValue rj)))]

def generationConfig (req : ChatRequest) : List (Bytes × Json) :=
  [memberIf (req.maxTokens > 0) "maxOutputTokens" (.int req.maxTokens),
   memberOpt "temperature" (req.temperature.map .double),
   memberOpt "topP" (req.topP.map .double),
   memberIf (!req.stop.isEmpty) "stopSequences" (stringsValue req.stop)].flatten

def functionDeclarationValue (t : ToolDef) : Json :=
  objectOf [
    memberOf "name" (.str t.name),
    memberIf (!t.description.isEmpty) "description" (.str t.description),
    if t.parametersJson.isEmpty then []
    else memberOpt "parameters" ((rj.parse (cstr t.parametersJson)).bind object?)]

def requestValue (req : ChatRequest) : Json :=
  objectOf [
    memberIf (!req.system.isEmpty) "systemInstruction"
      (.object [("parts", .array [.object [("text", .str req.system)]])]),
    memberOf "contents" (.array (req.messages.map (contentValue rj))),
    memberIf (!(generationConfig req).isEmpty) "generationConfig" (.object (generationConfig req)),
    memberIf (!req.tools.isEmpty) "tools" (.array [.object [
      ("functionDeclarations", .array (req.tools.map (functionDeclarationValue rj)))]])]

def serializeRequest (req : ChatRequest) : Bytes := rj.write (requestValue rj req)

def deltaPart (delta : StreamDelta) : Json :=
  match delta.type with
  | .textDelta => .object [("text", .str delta.text)]
  | .toolCallDelta => .object [("functionCall", .object [
      ("name", .str delta.toolName), ("args", .object [])])]
  | _ => .object [("text", .str [])]

def finishReasonOf (reason : Bytes) : Bytes :=
  if reason == "length" || reason == "max_tokens" then "MAX_TOKENS"
  else if reason == "content_filter" then "SAFETY"
  else if reason == "recitation" then "RECITATION"
  else "STOP"

def chunkValue (delta : StreamDelta) : Json :=
  .object [("candidates", .array [objectOf [
    memberIf (delta.type = .messageEnd) "finishReason" (.str (finishReasonOf delta.finishReason)),
    memberOf "content" (.object [("role", .str "model"), ("parts", .array [deltaPart delta])]),
    memberOf "index" (.int 0)]])]

def serializeStreamEvent (delta : StreamDelta) : Bytes :=
  if delta.type = .done then "data: [DONE]\n\n"
  else "data: " ++ rj.write (chunkValue delta) ++ "\n\n"

def readFinishReason (reason : Bytes) : Bytes :=
  if reason == "MAX_TOKENS" then "length"
  else if reason == "SAFETY" then "content_filter"
  else if reason == "RECITATION" then "recitation"
  else "stop"

def readParts (rj : RapidJson) (delta : StreamDelta) : List Json → Access StreamDelta
  | [] => return delta
  | p :: ps => do
    if !p.isObject then
      return ← readParts rj delta ps
    if let some text ← p.memberAs "text" string? then
      if text.isEmpty then
        return ← readParts rj delta ps
      return { delta with type := .textDelta, text }
    if let some fc ← p.memberAs "functionCall" object? then
      return { delta with
        type := .toolCallDelta
        toolName := ← fc.getStr "name"
        toolArgumentsDelta := ← objectText rj fc "args" }
    readParts rj delta ps

def readCandidate (cand : Json) : Access StreamDelta := do
  let mut delta : StreamDelta := {}
  if let some reason ← cand.memberAs "finishReason" string? then
    delta := { delta with finishReason := readFinishReason reason, type := .messageEnd }
  let some content ← cand.memberAs "content" object? | return delta
  let some parts ← content.memberAs "parts" array? | return delta
  readParts rj delta parts

def readStreamEvent (doc : Json) : Access StreamDelta := do
  match ← doc.memberAs "candidates" array? with
  | some (cand :: _) => readCandidate rj cand
  | _ => return {}

def parseStreamEvent (data : Bytes) : Access StreamDelta :=
  if data == "[DONE]" then return { type := .done }
  else
    match (rj.parse data).bind object? with
    | some doc => readStreamEvent rj doc
    | none => return {}

end Gateway.Protocol.Gemini
