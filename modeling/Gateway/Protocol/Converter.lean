import Gateway.Protocol.Gemini
import Gateway.Protocol.OpenAIResponses

/-! # The converter -/

namespace Gateway.Protocol

open Lib Json

def toInt32 (n : Int) : Int := n.bmod (2 ^ 32)

def maxInt32 : Int := 2 ^ 31 - 1

namespace Converter

structure ParsedRequest where
  format : Format
  model : Bytes := []
  stream : Bool := false
  metadataUserId : Bytes := []
  maxTokens : Int := 0
  deriving DecidableEq

variable (rj : RapidJson)

def parseRequest : Format → Bytes → Access ChatRequest
  | .anthropic => Anthropic.parseRequest rj
  | .openAIChatCompletions => OpenAI.parseRequest rj
  | .openAIResponses => OpenAIResponses.parseRequest rj
  | .gemini => Gemini.parseRequest rj

def serializeRequest : Format → ChatRequest → Bytes
  | .anthropic => Anthropic.serializeRequest rj
  | .openAIChatCompletions => OpenAI.serializeRequest rj
  | .openAIResponses => OpenAIResponses.serializeRequest rj
  | .gemini => Gemini.serializeRequest rj

def parse (body : Bytes) (hint : Format) : Access ParsedRequest := do
  let ir ← parseRequest rj hint body
  return {
    format := hint
    model := ir.model
    stream := ir.stream
    maxTokens := ir.maxTokens
    metadataUserId := ir.metadataUserId }

structure ConversionResult where
  success : Bool := false
  body : Bytes := []
  error : Bytes := []
  deriving DecidableEq

def convertRequest (body : Bytes) (source target : Format) (mappedModel : Bytes) :
    Access ConversionResult := do
  if source = target && mappedModel.isEmpty then
    return { success := true, body }
  let ir ← parseRequest rj source body
  if ir.unsupportedContent then
    return {
      error := "Request contains unsupported multimodal content (images, audio, or video)" }
  let ir := if mappedModel.isEmpty then ir else { ir with model := mappedModel }
  return { success := true, body := serializeRequest rj target ir }

def streamEventType (data : Bytes) : Access Bytes := do
  let some doc := (rj.parse data).bind object? | return []
  return (← doc.memberAs "type" text?).getD []

def parseStreamEvent (source : Format) (eventType data : Bytes) : Access StreamDelta :=
  match source with
  | .anthropic => Anthropic.parseStreamEvent rj eventType data
  | .openAIChatCompletions => OpenAI.parseStreamEvent rj data
  | .openAIResponses => OpenAIResponses.parseStreamEvent rj data
  | .gemini => Gemini.parseStreamEvent rj data

def serializeStreamEvent : Format → StreamDelta → Bytes
  | .anthropic => Anthropic.serializeStreamEvent rj
  | .openAIChatCompletions => OpenAI.serializeStreamEvent rj
  | .openAIResponses => OpenAIResponses.serializeStreamEvent rj
  | .gemini => Gemini.serializeStreamEvent rj

def convertStreamEvent (sseData : Bytes) (source target : Format) :
    Access Bytes := do
  if source = target then
    return sseData
  let delta ← parseStreamEvent rj source (← streamEventType rj sseData) sseData
  return serializeStreamEvent rj target delta

def field {α : Type} (value : Json) (key : Bytes) (view : Json → Option α) : Access (Option α) :=
  if value.isObject then value.memberAs key view else return none

def memberString (value : Json) (key : Bytes) : Access Bytes := do
  return (← field value key string?).getD []

def firstOf (value : Json) (key : Bytes) : Access (Option Json) := do
  return (← value.memberAs key array?).bind List.head?

def candidateParts (candidate : Json) : Access (Option (List Json)) := do
  match ← field candidate "content" object? with
  | some content => content.memberAs "parts" array?
  | none => return none

namespace FinishReasonOf

def openAI (root : Json) : Access FinishReason := do
  let some choice ← firstOf root "choices" | return .unknown
  let some reason ← field choice "finish_reason" text? | return .unknown
  if reason == "stop" then return .stop
  else if reason == "length" then return .length
  else if reason == "tool_calls" then return .toolCalls
  else if reason == "content_filter" then return .contentFilter
  else return .unknown

def anthropic (root : Json) : Access FinishReason := do
  let some reason ← root.memberAs "stop_reason" text? | return .unknown
  if reason == "end_turn" then return .stop
  else if reason == "max_tokens" then return .length
  else if reason == "tool_use" then return .toolCalls
  else return .unknown

def hasFunctionCall (part : Json) : Access Bool :=
  if part.isObject then part.hasMember "functionCall" else return false

def gemini (root : Json) : Access FinishReason := do
  let some candidate ← firstOf root "candidates" | return .unknown
  let some reason ← field candidate "finishReason" text? | return .unknown
  if reason == "STOP" then
    let parts ← candidateParts candidate
    return if ← (parts.getD []).anyM hasFunctionCall then .toolCalls else .stop
  else if reason == "MAX_TOKENS" then return .length
  else if reason == "SAFETY" then return .safety
  else if reason == "RECITATION" then return .recitation
  else return .unknown

def isFunctionCallItem (item : Json) : Access Bool := do
  return (← field item "type" text?) == some "function_call"

def openAIResponses (root : Json) : Access FinishReason := do
  let some status ← root.memberAs "status" text? | return .unknown
  if status == "completed" then
    let items ← root.memberAs "output" array?
    return if ← (items.getD []).anyM isFunctionCallItem then .toolCalls else .stop
  else if status == "incomplete" then return .length
  else if status == "failed" then return .contentFilter
  else return .unknown

end FinishReasonOf

def parseFinishReason : Format → Json → Access FinishReason
  | .openAIChatCompletions => FinishReasonOf.openAI
  | .anthropic => FinishReasonOf.anthropic
  | .gemini => FinishReasonOf.gemini
  | .openAIResponses => FinishReasonOf.openAIResponses

def serializeFinishReason (reason : FinishReason) (target : Format) : Bytes :=
  match target, reason with
  | .openAIChatCompletions, .length => "length"
  | .openAIChatCompletions, .toolCalls => "tool_calls"
  | .openAIChatCompletions, .stop => "stop"
  | .openAIChatCompletions, .unknown => "stop"
  | .openAIChatCompletions, _ => "content_filter"
  | .anthropic, .length => "max_tokens"
  | .anthropic, .toolCalls => "tool_use"
  | .anthropic, _ => "end_turn"
  | .gemini, .length => "MAX_TOKENS"
  | .gemini, .contentFilter => "SAFETY"
  | .gemini, .safety => "SAFETY"
  | .gemini, .recitation => "RECITATION"
  | .gemini, _ => "STOP"
  | .openAIResponses, .length => "incomplete"
  | .openAIResponses, .contentFilter => "failed"
  | .openAIResponses, .safety => "failed"
  | .openAIResponses, .recitation => "failed"
  | .openAIResponses, _ => "completed"

namespace ToolCallsOf

def addOpenAI (calls : List ToolCall) (tc : Json) : Access (List ToolCall) := do
  if !tc.isObject then
    return calls
  let id ← memberString tc "id"
  match ← tc.memberAs "function" object? with
  | some fn =>
    return calls ++ [{
      id, name := ← memberString fn "name", arguments := ← memberString fn "arguments" }]
  | none => return calls ++ [{ id := id }]

def openAI (root : Json) : Access (List ToolCall) := do
  let some choice ← firstOf root "choices" | return []
  let some message ← field choice "message" object? | return []
  ((← message.memberAs "tool_calls" array?).getD []).foldlM addOpenAI []

def addAnthropic (rj : RapidJson) (calls : List ToolCall) (block : Json) :
    Access (List ToolCall) := do
  if (← field block "type" text?) != some "tool_use" then
    return calls
  return calls ++ [{
    id := ← memberString block "id"
    name := ← memberString block "name"
    arguments := ← objectText rj block "input" }]

def anthropic (rj : RapidJson) (root : Json) : Access (List ToolCall) := do
  ((← root.memberAs "content" array?).getD []).foldlM (addAnthropic rj) []

def addGemini (rj : RapidJson) (calls : List ToolCall) (part : Json) : Access (List ToolCall) := do
  let some fc ← field part "functionCall" object? | return calls
  let name ← memberString fc "name"
  return calls ++ [{
    id := name ++ "_" ++ decimal (calls.length + 1)
    name
    arguments := ← objectText rj fc "args" }]

def gemini (rj : RapidJson) (root : Json) : Access (List ToolCall) := do
  let some candidate ← firstOf root "candidates" | return []
  ((← candidateParts candidate).getD []).foldlM (addGemini rj) []

def addOpenAIResponses (calls : List ToolCall) (item : Json) : Access (List ToolCall) := do
  if (← field item "type" text?) != some "function_call" then
    return calls
  return calls ++ [{
    id := ← memberString item "call_id"
    name := ← memberString item "name"
    arguments := ← memberString item "arguments" }]

def openAIResponses (root : Json) : Access (List ToolCall) := do
  ((← root.memberAs "output" array?).getD []).foldlM addOpenAIResponses []

end ToolCallsOf

def extractToolCalls : Format → Json → Access (List ToolCall)
  | .openAIChatCompletions => ToolCallsOf.openAI
  | .anthropic => ToolCallsOf.anthropic rj
  | .gemini => ToolCallsOf.gemini rj
  | .openAIResponses => ToolCallsOf.openAIResponses

def addPartText (text : Bytes) (block : Json) : Access Bytes := do
  return text ++ (← partText block).getD []

def addItemText (text : Bytes) (item : Json) : Access Bytes := do
  ((← field item "content" array?).getD []).foldlM addPartText text

def messageText (choice : Json) : Access (Option Bytes) := do
  match ← field choice "message" object? with
  | some message => message.memberAs "content" string?
  | none => return none

def choiceText (root : Json) : Access (Option Bytes) := do
  let some choice ← firstOf root "choices" | return none
  match ← messageText choice with
  | some text => return some text
  | none => field choice "text" string?

def nonEmpty (text : Bytes) : Option Bytes := if text.isEmpty then none else some text

def contentText (root : Json) : Access (Option Bytes) := do
  return nonEmpty (← ((← root.memberAs "content" array?).getD []).foldlM addPartText [])

def outputText (root : Json) : Access (Option Bytes) := do
  return nonEmpty (← ((← root.memberAs "output" array?).getD []).foldlM addItemText [])

def candidateText (root : Json) : Access Bytes := do
  let some candidate ← firstOf root "candidates" | return []
  ((← candidateParts candidate).getD []).foldlM addPartText []

def responseText (root : Json) : Access Bytes := do
  if !root.isObject then
    return []
  if let some text ← choiceText root then
    return text
  if let some text ← root.memberAs "output_text" string? then
    return text
  if let some text ← contentText root then
    return text
  if let some text ← outputText root then
    return text
  candidateText root

namespace UnsupportedShape

def openAI (root : Json) : Access Bool := do
  let choices := (← root.memberAs "choices" array?).getD []
  if choices.length > 1 then
    return true
  let some choice := choices.head? | return false
  let some message ← field choice "message" object? | return false
  if ← message.hasMember "refusal" then
    return true
  let content ← message.memberAs "content" some
  return (content.map fun c => !c.isString && !c.isNull).getD false

def otherType (types : List Bytes) (block : Json) : Access Bool := do
  match ← field block "type" text? with
  | some type => return !types.contains type
  | none => return true

def anthropic (root : Json) : Access Bool := do
  ((← root.memberAs "content" array?).getD []).anyM (otherType ["text", "tool_use"])

def responsesItem (item : Json) : Access Bool := do
  if ← otherType ["message", "function_call"] item then
    return true
  if (← field item "type" text?) == some "message" then
    return ← ((← item.memberAs "content" array?).getD []).anyM (otherType ["output_text"])
  return false

def openAIResponses (root : Json) : Access Bool := do
  ((← root.memberAs "output" array?).getD []).anyM responsesItem

def geminiPart (part : Json) : Access Bool := do
  if !part.isObject then
    return true
  return !(← (part.hasMember "text" <||> part.hasMember "functionCall"))

def geminiCandidate (candidate : Json) : Access Bool := do
  ((← candidateParts candidate).getD []).anyM geminiPart

def gemini (root : Json) : Access Bool := do
  let candidates := (← root.memberAs "candidates" array?).getD []
  if candidates.length > 1 then
    return true
  candidates.anyM geminiCandidate

end UnsupportedShape

def hasUnsupportedResponseShape (root : Json) : Format → Access Bool
  | .openAIChatCompletions => UnsupportedShape.openAI root
  | .anthropic => UnsupportedShape.anthropic root
  | .openAIResponses => UnsupportedShape.openAIResponses root
  | .gemini => UnsupportedShape.gemini root

def responseModel (root : Json) (fallback : Bytes) : Access Bytes := do
  let model ← memberString root "model"
  if !model.isEmpty then
    return model
  let id ← memberString root "id"
  return if id.isEmpty then fallback else id

def responseId (root : Json) (target : Format) : Access Bytes := do
  let id ← memberString root "id"
  if !id.isEmpty then
    return id
  match target with
  | .openAIChatCompletions => return "chatcmpl-gateway"
  | .anthropic => return "msg_gateway"
  | .openAIResponses => return "resp_gateway"
  | .gemini => return []

def clampedCount (value : Json) : Option Int :=
  if value.isInt then some (max 0 value.getInteger)
  else if value.isInt64 then some (min maxInt32 (max 0 value.getInteger))
  else if value.isUint then some (min maxInt32 value.getInteger)
  else none

def usageInteger (usage : Json) : List Bytes → Access Int
  | [] => return 0
  | key :: keys => do
    match ← field usage key clampedCount with
    | some n => return n
    | none => usageInteger usage keys

def convertedCounts (usage : Json) : Access (Int × Int × Int × Int) := do
  let input ← usageInteger usage ["input_tokens", "prompt_tokens", "promptTokenCount"]
  let output ← usageInteger usage ["output_tokens", "completion_tokens", "candidatesTokenCount"]
  let cacheCreate ← usageInteger usage ["cache_creation_input_tokens"]
  let mut cacheRead ← usageInteger usage ["cache_read_input_tokens", "cachedContentTokenCount"]
  if let some details ← usage.memberAs "prompt_tokens_details" object? then
    cacheRead := max cacheRead (← usageInteger details ["cached_tokens"])
  if let some details ← usage.memberAs "input_tokens_details" object? then
    cacheRead := max cacheRead (← usageInteger details ["cached_tokens"])
  return (input, output, cacheCreate, cacheRead)

def usageMember (target : Format) (counts : Int × Int × Int × Int) : Bytes × Json :=
  let (input, output, cacheCreate, cacheRead) := counts
  let total := toInt32 (input + output)
  let cached : Json := .object [("cached_tokens", .int cacheRead)]
  match target with
  | .openAIChatCompletions => ("usage", objectOf [
      memberOf "prompt_tokens" (.int input),
      memberOf "completion_tokens" (.int output),
      memberOf "total_tokens" (.int total),
      memberIf (cacheRead > 0) "prompt_tokens_details" cached])
  | .openAIResponses => ("usage", objectOf [
      memberOf "input_tokens" (.int input),
      memberOf "output_tokens" (.int output),
      memberOf "total_tokens" (.int total),
      memberIf (cacheRead > 0) "input_tokens_details" cached])
  | .anthropic => ("usage", objectOf [
      memberOf "input_tokens" (.int input),
      memberOf "output_tokens" (.int output),
      memberIf (cacheCreate > 0) "cache_creation_input_tokens" (.int cacheCreate),
      memberIf (cacheRead > 0) "cache_read_input_tokens" (.int cacheRead)])
  | .gemini => ("usageMetadata", objectOf [
      memberOf "promptTokenCount" (.int input),
      memberOf "candidatesTokenCount" (.int output),
      memberOf "totalTokenCount" (.int total),
      memberIf (cacheRead > 0) "cachedContentTokenCount" (.int cacheRead)])

def addConvertedUsage (source : Json) (target : Format) : Access (List (Bytes × Json)) := do
  match ← source.memberAs "usage" object? with
  | some usage => return [usageMember target (← convertedCounts usage)]
  | none =>
    match ← source.memberAs "usageMetadata" object? with
    | some usage => return [usageMember target (← convertedCounts usage)]
    | none => return []

structure ResponseParts where
  id : Bytes
  model : Bytes
  text : Bytes
  toolCalls : List ToolCall
  finish : Bytes

def textBlock (kind text : Bytes) : Json := .object [("type", .str kind), ("text", .str text)]

def openAIResponse (r : ResponseParts) : List (Bytes × Json) :=
  let content : Json := if r.text.isEmpty && !r.toolCalls.isEmpty then .null else .str r.text
  [("id", .str r.id), ("object", .str "chat.completion"), ("model", .str r.model),
   ("choices", .array [.object [
      ("index", .int 0),
      ("message", objectOf [
        memberOf "role" (.str "assistant"),
        memberOf "content" content,
        memberIf (!r.toolCalls.isEmpty) "tool_calls"
          (.array (r.toolCalls.map OpenAI.toolCallValue))]),
      ("finish_reason", .str r.finish)]])]

def toolUseValue (tc : ToolCall) : Json :=
  .object [
    ("type", .str "tool_use"), ("id", .str tc.id), ("name", .str tc.name),
    ("input", objectOfText rj tc.arguments)]

def anthropicResponse (r : ResponseParts) : List (Bytes × Json) :=
  let blocks : List Json :=
    (if r.text.isEmpty then [] else [textBlock "text" r.text]) ++ r.toolCalls.map (toolUseValue rj)
  [("id", .str r.id), ("type", .str "message"), ("role", .str "assistant"),
   ("model", .str r.model),
   ("content", .array (if blocks.isEmpty then [textBlock "text" r.text] else blocks)),
   ("stop_reason", .str r.finish)]

def responsesResponse (r : ResponseParts) : List (Bytes × Json) :=
  let message : Json := .object [
    ("type", .str "message"), ("role", .str "assistant"),
    ("content", .array [textBlock "output_text" r.text])]
  [("id", .str r.id), ("object", .str "response"), ("status", .str r.finish),
   ("model", .str r.model), ("output_text", .str r.text),
   ("output", .array (
      (if !r.text.isEmpty || r.toolCalls.isEmpty then [message] else [])
      ++ r.toolCalls.map OpenAIResponses.functionCallValue))]

def functionCallPart (tc : ToolCall) : Json :=
  .object [("functionCall", .object [
    ("name", .str tc.name), ("args", objectOfText rj tc.arguments)])]

def geminiResponse (r : ResponseParts) : List (Bytes × Json) :=
  let textPart : Json := .object [("text", .str r.text)]
  let parts : List Json :=
    (if r.text.isEmpty then [] else [textPart]) ++ r.toolCalls.map (functionCallPart rj)
  [("candidates", .array [.object [
    ("content", .object [
      ("role", .str "model"),
      ("parts", .array (if parts.isEmpty then [textPart] else parts))]),
    ("finishReason", .str r.finish)]])]

def responseMembers (r : ResponseParts) : Format → List (Bytes × Json)
  | .openAIChatCompletions => openAIResponse r
  | .anthropic => anthropicResponse rj r
  | .openAIResponses => responsesResponse r
  | .gemini => geminiResponse rj r

def readResponse (doc : Json) (source target : Format) (requestedModel : Bytes) :
    Access ResponseParts := do
  let text ← responseText doc
  let model ← responseModel doc requestedModel
  let id ← responseId doc target
  let finish ← parseFinishReason source doc
  let toolCalls ← extractToolCalls rj source doc
  let effective := if toolCalls.isEmpty then finish else .toolCalls
  return { id, model, text, toolCalls, finish := serializeFinishReason effective target }

def convertDocument (doc : Json) (source target : Format) (requestedModel : Bytes) :
    Access ConversionResult := do
  if ← hasUnsupportedResponseShape doc source then
    return { error := "Upstream response contains unsupported tool or multimodal content" }
  let parts ← readResponse rj doc source target requestedModel
  let usage ← addConvertedUsage doc target
  return { success := true, body := rj.write (.object (responseMembers rj parts target ++ usage)) }

def convertResponseChecked (body : Bytes) (source target : Format) (requestedModel : Bytes) :
    Access ConversionResult :=
  if source = target then
    return { success := true, body }
  else
    match (rj.parse body).bind object? with
    | some doc => convertDocument rj doc source target requestedModel
    | none => return { error := "Upstream response is not a JSON object" }

structure CanonicalError where
  type : Bytes := []
  message : Bytes := []
  code : Bytes := []
  deriving DecidableEq

def errorMember (root : Json) (key : Bytes) : Access Bytes := do
  return (← field root key text?).getD []

def readError (source : Json) : Access CanonicalError := do
  let error := (← source.memberAs "error" object?).getD source
  let type ← errorMember error "type"
  let message ← errorMember error "message"
  let code ← errorMember error "code"
  if message.isEmpty then
    return { type, message := ← errorMember error "detail", code }
  return { type, message, code }

def canonicalType (type : Bytes) (statusCode : Int) : Bytes :=
  if statusCode = 401 then "authentication_error"
  else if statusCode = 403 then "permission_error"
  else if statusCode = 404 then "not_found_error"
  else if statusCode = 408 ∨ statusCode = 504 then "timeout_error"
  else if statusCode = 429 then "rate_limit_error"
  else if statusCode ≥ 500 then "provider_error"
  else if contains type "auth" then "authentication_error"
  else if contains type "rate" || contains type "quota" then "rate_limit_error"
  else if contains type "permission" || contains type "forbidden" then "permission_error"
  else if contains type "not_found" || type == "NOT_FOUND" then "not_found_error"
  else if contains type "invalid" || type == "INVALID_ARGUMENT" then "invalid_request_error"
  else if 400 ≤ statusCode ∧ statusCode < 500 then "invalid_request_error"
  else "provider_error"

def canonicalError (body : Bytes) (statusCode : Int) : Access CanonicalError := do
  let read ← match (rj.parse body).bind object? with
    | some source => readError source
    | none => pure {}
  return { read with
    message := if read.message.isEmpty then "Provider request failed" else read.message
    type := canonicalType read.type statusCode }

def geminiStatus (type : Bytes) : Bytes :=
  if type == "invalid_request_error" then "INVALID_ARGUMENT"
  else if type == "authentication_error" then "UNAUTHENTICATED"
  else if type == "permission_error" then "PERMISSION_DENIED"
  else if type == "not_found_error" then "NOT_FOUND"
  else if type == "rate_limit_error" then "RESOURCE_EXHAUSTED"
  else if type == "timeout_error" then "DEADLINE_EXCEEDED"
  else "INTERNAL"

def errorValue (e : CanonicalError) (statusCode : Int) : Format → Json
  | .anthropic => .object [
      ("type", .str "error"),
      ("error", .object [("type", .string e.type), ("message", .string e.message)])]
  | .gemini => .object [("error", .object [
      ("code", .int statusCode), ("message", .string e.message),
      ("status", .string (geminiStatus e.type))])]
  | _ => .object [("error", objectOf [
      memberOf "message" (.string e.message),
      memberOf "type" (.string e.type),
      memberOf "param" .null,
      memberIf (!e.code.isEmpty) "code" (.string e.code)])]

def convertError (body : Bytes) (statusCode : Int) (source target : Format) :
    Access Bytes := do
  if source = target then
    return body
  return rj.write (errorValue (← canonicalError rj body statusCode) statusCode target)

end Converter

end Gateway.Protocol
