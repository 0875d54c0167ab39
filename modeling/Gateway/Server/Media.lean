import Gateway.Dispatch.Client
import Gateway.Server.Capability

/-! # Bodies that the handler writes and reads -/

namespace Gateway.Server

open Lib Dispatch
open Protocol (Format objectOf memberOf memberIf memberOpt)
open Protocol.Converter (parseObject objectAt arrayOf)

def stringField (document : Json) (key : Bytes) : Option Bytes :=
  (document.lookup key).bind Json.string?

variable (rj : RapidJson)

def parseAuthVersion (json : Bytes) : Int :=
  match (parseObject rj json).bind (·.lookup "version") with
  | some value =>
    if value.isInt64 then value.getInteger
    else if value.isUint64 then value.getInteger.bmod (2 ^ 64)
    else 0
  | none => 0

def extractModel (body : Bytes) : Bytes :=
  ((parseObject rj body).bind (stringField · "model")).getD []

def isJsonRequest (req : HttpRequest) : Bool :=
  req.contentType.isEmpty || startsWith req.contentType "application/json"
    || startsWith req.contentType "text/json"

def validJsonObject (body : Bytes) : Bool := (parseObject rj body).isSome

def written (document : Json) : Bytes := cstr (rj.write document)

def errorJson (type message : Bytes) : Bytes :=
  written rj (.object [("error", .object [("type", .string type), ("message", .string message)])])

def literalError (type message : Bytes) : Bytes :=
  "\x7b\"error\":\x7b\"type\":\"" ++ type ++ "\",\"message\":\"" ++ message ++ "\"\x7d\x7d"

def formatFromName (name : Bytes) (fallback : Format) : Format :=
  if name = "anthropic" ∨ name = "messages" then .anthropic
  else if name = "openai_chat" ∨ name = "chat_completions" then .openAIChatCompletions
  else if name = "openai_responses" ∨ name = "responses" then .openAIResponses
  else if name = "gemini" then .gemini
  else if name = "grok" ∨ name = "xai" then .openAIChatCompletions
  else fallback

def upstreamFormat (target : UpstreamTarget) : Format :=
  formatFromName target.upstreamFormat
    (if target.platform = "anthropic" ∨ target.platform = "claude" then .anthropic
     else if target.platform = "gemini" ∨ target.platform = "google" then .gemini
     else if target.platform = "grok" ∨ target.platform = "xai" then .openAIChatCompletions
     else if target.upstreamPath = "/v1/responses" then .openAIResponses
     else .openAIChatCompletions)

def mediaAction (operation : Bytes) : Bytes :=
  if endsWith operation "list" then "list"
  else if endsWith operation "cancel" then "cancel"
  else if endsWith operation "content" || endsWith operation "download" then "content"
  else if endsWith operation "delete_outputs" then "delete_outputs"
  else if endsWith operation "delete" then "delete"
  else if endsWith operation "items" then "items"
  else "get"

def mediaControlOperations : List Bytes :=
  ["images_task_get", "images_batch_get", "images_batch_list", "images_batch_items",
    "images_batch_download", "images_batch_cancel", "images_batch_delete",
    "images_batch_delete_outputs", "images_batch_item_content", "videos_get", "videos_content",
    "videos_cancel", "videos_delete", "videos_delete_outputs"]

def mediaControlOperation (operation : Bytes) : Bool := mediaControlOperations.contains operation

def persistentCreateOperations : List Bytes :=
  ["images_generations_async", "images_edits_async", "images_batch_create", "videos_generations",
    "videos_edits", "videos_extensions"]

def persistentCreate (operation : Bytes) : Bool := persistentCreateOperations.contains operation

def mediaMarkers : List Bytes := ["/images/tasks/", "/images/batches/", "/videos/"]

def mediaOperationId (path : Bytes) : Bytes :=
  (mediaMarkers.findSome? fun marker =>
    (find marker path).map fun position =>
      (path.drop (position + marker.length)).takeWhile (· ≠ 47)).getD []

def memberIfText (key text : Bytes) : List (Bytes × Json) := memberIf (!text.isEmpty) key
    (.str text)

def mediaViewJson (result : MediaOperationResult) : Bytes :=
  written rj (objectOf [
    memberOf "id" (.str result.operationId),
    memberOf "task_id" (.str result.operationId),
    memberOf "object" (.str "media.operation"),
    memberOf "type" (.str result.operationType),
    memberOf "status" (.str result.status),
    memberOf "progress" (.int result.progress),
    memberIfText "upstream_task_id" result.upstreamTaskId,
    memberIfText "url" result.outputUrl,
    memberIfText "content_type" result.contentType,
    memberOpt "output"
      (if result.outputMetadata.isEmpty then none else rj.parse result.outputMetadata)])

def mediaItemsJson (result : MediaOperationResult) : Bytes :=
  match (parseObject rj result.outputMetadata).bind (arrayOf · "data") with
  | some data => written rj (.array data)
  | none => "[]"

def unfinished (status : Bytes) : Bool := status == "pending" || status == "running"

def providerTaskId (body : Bytes) : Bytes :=
  match parseObject rj body with
  | none => []
  | some document =>
    ([ascii "task_id", "request_id", "id"].findSome? (stringField document)).getD []

def finalMediaStatus (status : Bytes) : Option Bytes :=
  if status = "succeeded" ∨ status = "completed" then some "succeeded"
  else if status = "failed" ∨ status = "error" then some "failed"
  else if status = "canceled" ∨ status = "cancelled" then some "canceled"
  else none

def providerMediaStatus (body taskId : Bytes) : Bytes :=
  match parseObject rj body with
  | none => "running"
  | some document =>
    match (stringField document "status").bind (finalMediaStatus ∘ lower) with
    | some status => status
    | none =>
      if taskId.isEmpty && ((document.lookup "data").isSome || (document.lookup "url").isSome) then
        "succeeded"
      else "running"

def providerOutputUrl (body : Bytes) : Bytes :=
  match parseObject rj body with
  | none => []
  | some document =>
    match [ascii "output_url", "url"].findSome? (stringField document) with
    | some url => url
    | none => (((arrayOf document "data").getD []).findSome? (stringField · "url")).getD []

end Gateway.Server
