import Gateway.Json

/-! # The chat intermediate representation -/

namespace Gateway.Protocol

open Lib Json

inductive Format where
  | anthropic
  | openAIChatCompletions
  | openAIResponses
  | gemini
  deriving DecidableEq, Repr

structure ToolCall where
  id : Bytes := []
  name : Bytes := []
  arguments : Bytes := []
  deriving DecidableEq

inductive FinishReason where
  | stop
  | length
  | toolCalls
  | contentFilter
  | safety
  | recitation
  | unknown
  deriving DecidableEq, Repr

inductive ContentBlock.Kind where
  | text
  | image
  | toolUse
  | toolResult
  deriving DecidableEq, Repr

structure ContentBlock where
  type : ContentBlock.Kind := .text
  text : Bytes := []
  toolCallId : Bytes := []
  toolName : Bytes := []
  toolArguments : Bytes := []
  deriving DecidableEq

structure Message where
  role : Bytes := []
  content : List ContentBlock := []
  toolCalls : List ToolCall := []
  toolCallId : Bytes := []
  deriving DecidableEq

structure ToolDef where
  name : Bytes := []
  description : Bytes := []
  parametersJson : Bytes := []
  deriving DecidableEq

structure ChatRequest where
  model : Bytes := []
  system : Bytes := []
  messages : List Message := []
  tools : List ToolDef := []
  stream : Bool := false
  maxTokens : Int := 4096
  temperature : Option Rat := none
  topP : Option Rat := none
  stop : List Bytes := []
  metadataUserId : Bytes := []
  unsupportedContent : Bool := false
  deriving DecidableEq

inductive StreamDelta.Kind where
  | messageStart
  | contentStart
  | textDelta
  | contentEnd
  | messageEnd
  | toolCallDelta
  | done
  deriving DecidableEq, Repr

structure StreamDelta where
  type : StreamDelta.Kind := .textDelta
  id : Bytes := []
  text : Bytes := []
  toolCallId : Bytes := []
  toolName : Bytes := []
  toolArgumentsDelta : Bytes := []
  index : Int := 0
  model : Bytes := []
  finishReason : Bytes := []
  inputTokens : Int := 0
  outputTokens : Int := 0
  deriving DecidableEq

def appendLine (out text : Bytes) : Bytes := (if out.isEmpty then out else out ++ "\n") ++ text

def Message.addText (msg : Message) (t : Bytes) : Message :=
  { msg with content := msg.content ++ [{ type := .text, text := t }] }

def Message.textContent (msg : Message) : Bytes :=
  msg.content.foldl (fun out b => if b.type = .text then appendLine out b.text else out) []

variable (rj : RapidJson)

def objectText (j : Json) (key : Bytes) : Access Bytes := do
  return ((← j.memberAs key object?).map rj.write).getD []

def toolUseBlock (block : Json) : Access ContentBlock := do
  return {
    type := .toolUse
    toolCallId := ← block.getStr "id"
    toolName := ← block.getStr "name"
    toolArguments := ← objectText rj block "input" }

def addResultPart (acc : Bytes × Bool) (sub : Json) : Access (Bytes × Bool) := do
  if !sub.isObject then
    return acc
  let subType ← sub.getStr "type"
  if ← (pure (subType == "text") <&&> sub.hasMember "text") then
    return (acc.1 ++ (← (← sub.member "text").getString), acc.2)
  return (acc.1, true)

def toolResultText (block : Json) (unsupported : Bool) : Access (Bytes × Bool) := do
  if ← block.hasMember "content" then
    match ← block.member "content" with
    | .string s => return (cstr s, unsupported)
    | .array subs => return ← subs.foldlM addResultPart ([], unsupported)
    | _ => return ([], unsupported)
  return ([], unsupported)

def toolResultBlock (block : Json) (unsupported : Bool) : Access (ContentBlock × Bool) := do
  let id ← block.getStr "tool_use_id"
  let (text, unsupported) ← toolResultText block unsupported
  return ({ type := .toolResult, toolCallId := id, text }, unsupported)

def partText (p : Json) : Access (Option Bytes) :=
  if p.isObject then p.memberAs "text" string? else return none

def stringArray (j : Json) (key : Bytes) : Access (List Bytes) := do
  return ((← j.memberAs key array?).getD []).filterMap string?

def objectOf (groups : List (List (Bytes × Json))) : Json := .object groups.flatten

def memberOf (key : Bytes) (value : Json) : List (Bytes × Json) := [(key, value)]

def memberIf (p : Bool) (key : Bytes) (value : Json) : List (Bytes × Json) :=
  if p then [(key, value)] else []

def memberOpt (key : Bytes) (value : Option Json) : List (Bytes × Json) :=
  match value with
  | some v => [(key, v)]
  | none => []

def objectOfText (text : Bytes) : Json :=
  if text.isEmpty then .object []
  else ((rj.parse (cstr text)).bind object?).getD (.object [])

def stringsValue (ss : List Bytes) : Json := .array (ss.map str)

end Gateway.Protocol
