import Gateway.Server.Capability

/-! # The capability registry -/

namespace Gateway.Server

open Lib

def kMessages : CapabilitySpec := ⟨.messages, "messages", 0, .anthropic, true, true, false⟩
def kChat : CapabilitySpec :=
  ⟨.chatCompletions, "chat_completions", 1, .openAIChatCompletions, true, true, false⟩
def kResponses : CapabilitySpec :=
  ⟨.responses, "responses", 2, .openAIResponses, true, true, false⟩
def kResponsesSubpath : CapabilitySpec :=
  ⟨.responsesSubpath, "responses_subpath", 2, .openAIResponses, true, true, false⟩
def kCountTokens : CapabilitySpec :=
  ⟨.countTokens, "count_tokens", 7, .anthropic, false, true, false⟩
def kModels : CapabilitySpec := ⟨.models, "models", 8, .openAIChatCompletions, false, false, false⟩
def kSearch : CapabilitySpec := ⟨.search, "search", 9, .openAIResponses, true, true, false⟩
def kEmbeddings : CapabilitySpec :=
  ⟨.embeddings, "embeddings", 3, .openAIChatCompletions, false, true, false⟩
def kImagesSync : CapabilitySpec :=
  ⟨.imagesSync, "images_sync", 4, .openAIChatCompletions, false, true, false⟩
def kImagesAsync : CapabilitySpec :=
  ⟨.imagesAsync, "images_async", 4, .openAIChatCompletions, false, false, false⟩
def kImagesBatch : CapabilitySpec :=
  ⟨.imagesBatch, "images_batch", 4, .openAIChatCompletions, false, false, false⟩
def kVideos : CapabilitySpec := ⟨.videos, "videos", 6, .openAIChatCompletions, false, false, false⟩
def kRealtime : CapabilitySpec := ⟨.realtime, "realtime", 10, .openAIResponses, true, false, true⟩
def kGeminiModels : CapabilitySpec :=
  ⟨.geminiModels, "gemini_models", 8, .gemini, false, false, false⟩
def kGeminiGenerate : CapabilitySpec :=
  ⟨.geminiGenerate, "gemini_generate", 5, .gemini, true, true, false⟩
def kAntigravity : CapabilitySpec :=
  ⟨.antigravity, "antigravity", 11, .anthropic, true, true, false⟩
def kAudioTts : CapabilitySpec :=
  ⟨.audioTts, "audio_tts", 12, .openAIChatCompletions, false, true, false⟩
def kAudioStt : CapabilitySpec :=
  ⟨.audioStt, "audio_stt", 13, .openAIChatCompletions, false, true, false⟩

def segmentByte (c : UInt8) : Bool :=
  (97 ≤ c && c ≤ 122) || (65 ≤ c && c ≤ 90) || isDigit c || c = 95 || c = 45 || c = 46

def safeBytes (dotsOnly : Bool) : Bytes → Bool
  | [] => !dotsOnly
  | c :: rest => segmentByte c && safeBytes (if c ≠ 46 then false else dotsOnly) rest

def safeSegment (segment : Bytes) : Bool :=
  if segment.isEmpty || 128 < segment.length then false else safeBytes true segment

def isSafeGeminiModel (model : Bytes) : Bool := safeSegment model

structure PlainSegment (s : Bytes) : Prop where
  nonempty : s ≠ []
  short : s.length ≤ 128
  bytes : ∀ c ∈ s, isAlnum c = true ∨ c = 95 ∨ c = 45 ∨ c = 46
  notDots : ∃ c ∈ s, c ≠ 46

theorem segmentByte_iff (c : UInt8) : segmentByte c ↔ isAlnum c ∨ c = 95 ∨ c = 45 ∨ c = 46 := by
  simp only [segmentByte, isAlnum, Bool.or_eq_true, decide_eq_true_eq]
  tauto

theorem safeBytes_iff (dotsOnly : Bool) (s : Bytes) : safeBytes dotsOnly s ↔
      (∀ c ∈ s, segmentByte c) ∧ (dotsOnly = false ∨ ∃ c ∈ s, c ≠ 46) := by
  induction s generalizing dotsOnly with
  | nil => simp [safeBytes]
  | cons c s ih =>
    rw [safeBytes, Bool.and_eq_true, ih]
    by_cases hd : c = 46
    · simp [hd, and_assoc]
    · simp [hd]

theorem safeSegment_iff (s : Bytes) : safeSegment s ↔ PlainSegment s := by
  unfold safeSegment
  split
  · next h =>
    rw [Bool.or_eq_true, List.isEmpty_iff, decide_eq_true_eq] at h
    refine ⟨fun hf => absurd hf Bool.false_ne_true, fun hp => ?_⟩
    rcases h with he | hl
    · exact absurd he hp.nonempty
    · exact absurd hp.short (by omega)
  · next h =>
    rw [Bool.or_eq_true, List.isEmpty_iff, decide_eq_true_eq, not_or] at h
    rw [safeBytes_iff]
    constructor
    · rintro ⟨hby, hd⟩
      exact ⟨h.1, by omega, fun c hc => (segmentByte_iff c).1 (hby c hc), by simpa using hd⟩
    · intro hp; exact ⟨fun c hc => (segmentByte_iff c).2 (hp.bytes c hc), .inr hp.notDots⟩

theorem PlainSegment.slash_not_mem {s : Bytes} (h : PlainSegment s) : 47 ∉ s := fun hm => by
  have := h.bytes 47 hm
  revert this
  decide

def substrTo (b : Bytes) : Option Nat → Bytes
  | none => b
  | some i => b.take i

def sizeMinus (a b : Nat) : Nat := if a < b then a + 2 ^ 64 - b else a - b

def matchBatchPath (method relative forcePlatform : Bytes) : Option MatchedCapability :=
  if !startsWith relative "/images/batches/" then none else
  let suffix := relative.drop (ascii "/images/batches/").length
  let slash := find "/" suffix
  if !safeSegment (substrTo suffix slash) then none else
  match slash with
  | none =>
    if method = "GET" ∨ method = "DELETE" then
      some ⟨kImagesBatch,
        if method = "GET" then "images_batch_get" else "images_batch_delete", forcePlatform⟩
    else none
  | some i =>
    let tail := suffix.drop (i + 1)
    if tail = "items" ∧ method = "GET" then
      some ⟨kImagesBatch, "images_batch_items", forcePlatform⟩
    else if tail = "download" ∧ method = "GET" then
      some ⟨kImagesBatch, "images_batch_download", forcePlatform⟩
    else if tail = "cancel" ∧ method = "POST" then
      some ⟨kImagesBatch, "images_batch_cancel", forcePlatform⟩
    else if tail = "outputs" ∧ method = "DELETE" then
      some ⟨kImagesBatch, "images_batch_delete_outputs", forcePlatform⟩
    else if startsWith tail "items/" ∧ endsWith tail "/content" ∧ method = "GET" then
      let customId := (tail.drop (ascii "items/").length).take
        (sizeMinus (sizeMinus tail.length (ascii "items/").length) (ascii "/content").length)
      if safeSegment customId then
        some ⟨kImagesBatch, "images_batch_item_content", forcePlatform⟩
      else none
    else none

def matchVideoPath (method relative forcePlatform : Bytes) : Option MatchedCapability :=
  if !startsWith relative "/videos/" then none else
  let suffix := relative.drop (ascii "/videos/").length
  let slash := find "/" suffix
  if !safeSegment (substrTo suffix slash) then none else
  match slash with
  | none =>
    if method = "GET" then some ⟨kVideos, "videos_get", forcePlatform⟩
    else if method = "DELETE" then some ⟨kVideos, "videos_delete", forcePlatform⟩
    else none
  | some i =>
    let tail := suffix.drop (i + 1)
    if tail = "content" ∧ method = "GET" then some ⟨kVideos, "videos_content", forcePlatform⟩
    else if tail = "cancel" ∧ method = "POST" then some ⟨kVideos, "videos_cancel", forcePlatform⟩
    else if tail = "outputs" ∧ method = "DELETE" then
      some ⟨kVideos, "videos_delete_outputs", forcePlatform⟩
    else none

section
variable (method relative forcePlatform : Bytes)

def matchSuffix (suffix verb : Bytes) (spec : CapabilitySpec) (operation : Bytes) :
    Option MatchedCapability :=
  if method = verb ∧ relative = suffix then some ⟨spec, operation, forcePlatform⟩ else none

def matchSegment (stem verb : Bytes) (spec : CapabilitySpec) (operation : Bytes) :
    Option MatchedCapability :=
  if startsWith relative stem ∧ method = verb ∧ safeSegment (relative.drop stem.length) then
    some ⟨spec, operation, forcePlatform⟩
  else none

def matchSegmentBefore (stem ending verb : Bytes) (spec : CapabilitySpec) (operation : Bytes) :
    Option MatchedCapability :=
  let rest := relative.drop stem.length
  if startsWith relative stem ∧ method = verb ∧ endsWith rest ending
      ∧ safeSegment (rest.take (rest.length - ending.length)) then
    some ⟨spec, operation, forcePlatform⟩
  else none

def firstRoutes : List (Option MatchedCapability) :=
  let exactly := matchSuffix method relative forcePlatform
  [exactly "/messages" "POST" (if forcePlatform.isEmpty then kMessages else kAntigravity)
      "messages",
    exactly "/messages/count_tokens" "POST" kCountTokens "count_tokens",
    exactly "/chat/completions" "POST" kChat "chat_completions",
    exactly "/responses/compact" "POST" kResponses "responses_compact",
    exactly "/responses" "POST" kResponses "responses"]

def laterRoutes : List (Option MatchedCapability) :=
  let exactly := matchSuffix method relative forcePlatform
  let segment := matchSegment method relative forcePlatform
  let segmentBefore := matchSegmentBefore method relative forcePlatform
  [segmentBefore "/responses/" "/cancel" "POST" kResponsesSubpath "responses_cancel",
    segmentBefore "/responses/" "/input_items" "GET" kResponsesSubpath "responses_input_items",
    segment "/responses/" "GET" kResponsesSubpath "responses_get",
    segment "/responses/" "DELETE" kResponsesSubpath "responses_delete",
    exactly "/responses" "GET" kRealtime "responses_websocket",
    exactly "/live" "POST" kRealtime "live_create",
    segment "/live/" "GET" kRealtime "live_sideband",
    exactly "/alpha/search" "POST" kSearch "alpha_search",
    exactly "/audio/speech" "POST" kAudioTts "audio_speech",
    exactly "/audio/transcriptions" "POST" kAudioStt "audio_transcriptions",
    exactly "/embeddings" "POST" kEmbeddings "embeddings",
    exactly "/images/generations" "POST" kImagesSync "images_generations",
    exactly "/images/edits" "POST" kImagesSync "images_edits",
    exactly "/images/generations/async" "POST" kImagesAsync "images_generations_async",
    exactly "/images/edits/async" "POST" kImagesAsync "images_edits_async",
    segment "/images/tasks/" "GET" kImagesAsync "images_task_get",
    exactly "/images/batches" "POST" kImagesBatch "images_batch_create",
    exactly "/images/batches" "GET" kImagesBatch "images_batch_list",
    exactly "/images/batches/models" "GET" kImagesBatch "images_batch_models",
    matchBatchPath method relative forcePlatform,
    exactly "/videos/generations" "POST" kVideos "videos_generations",
    exactly "/videos/edits" "POST" kVideos "videos_edits",
    exactly "/videos/extensions" "POST" kVideos "videos_extensions",
    matchVideoPath method relative forcePlatform,
    exactly "/models" "GET" (if forcePlatform.isEmpty then kModels else kAntigravity)
      (if forcePlatform.isEmpty then "models" else "antigravity_models"),
    if forcePlatform.isEmpty then none
    else exactly "/usage" "GET" kAntigravity "antigravity_usage"]

end

def routeOpenai (method path stem forcePlatform : Bytes) : Option MatchedCapability :=
  let relative := path.drop stem.length
  match (firstRoutes method relative forcePlatform).findSome? id with
  | some matched => some matched
  | none =>
    if relative = "/responses/compact" then none
    else (laterRoutes method relative forcePlatform).findSome? id

def routeGemini (method path stem forcePlatform : Bytes) : Option MatchedCapability :=
  let relative := path.drop stem.length
  if relative = "/models" ∧ method = "GET" then
    some ⟨kGeminiModels, "gemini_models_list", forcePlatform⟩
  else if !startsWith relative "/models/" then none
  else
    let modelAction := relative.drop 8
    let colon := find ":" modelAction
    if !isSafeGeminiModel (substrTo modelAction colon) then none else
    match colon with
    | none =>
      if method = "GET" then some ⟨kGeminiModels, "gemini_models_get", forcePlatform⟩ else none
    | some i =>
      let action := modelAction.drop (i + 1)
      if method = "POST" ∧ (action = "generateContent" ∨ action = "streamGenerateContent") then
        some ⟨kGeminiGenerate, action, forcePlatform⟩
      else none

def matchCapability (method path : Bytes) : Option MatchedCapability :=
  if path = "/live" ∨ path = "/ready" ∨ path = "/metrics" then none
  else if startsWith path "/antigravity/v1beta" then
    routeGemini method path "/antigravity/v1beta" "antigravity"
  else if startsWith path "/antigravity/v1" then
    routeOpenai method path "/antigravity/v1" "antigravity"
  else if path = "/antigravity/models" ∧ method = "GET" then
    some ⟨kAntigravity, "antigravity_models", "antigravity"⟩
  else if startsWith path "/v1beta" then routeGemini method path "/v1beta" []
  else if startsWith path "/backend-api/codex" then
    if path = "/backend-api/codex/realtime/calls" ∧ method = "POST" then
      some ⟨kRealtime, "codex_realtime_calls", []⟩
    else
      let sideband := path.drop (ascii "/backend-api/codex/").length
      if startsWith path "/backend-api/codex/" ∧ method = "GET" ∧ isSafeGeminiModel sideband
          ∧ sideband ≠ "models" ∧ sideband ≠ "responses" then
        some ⟨kRealtime, "codex_live_sideband", []⟩
      else routeOpenai method path "/backend-api/codex" []
  else if startsWith path "/v1" then routeOpenai method path "/v1" []
  else routeOpenai method path [] []

end Gateway.Server
