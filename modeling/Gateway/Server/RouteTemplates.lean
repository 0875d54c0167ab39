import Gateway.Lib.Paths
import Gateway.Server.Media
import Gateway.Server.Routes

/-! # The routes that the registry recognises -/

namespace Gateway.Server

open Lib List
open Option (ite_none_right_eq_some)

structure Route where
  operation : Bytes
  verb : Bytes
  stems : List Bytes
  template : Template UInt8
  deriving DecidableEq

def openaiStems : List Bytes := ["", "/v1", "/antigravity/v1", "/backend-api/codex"]

def geminiStems : List Bytes := ["/v1beta", "/antigravity/v1beta"]

def lit (text : String) : Piece UInt8 := .word text

def slot : Piece UInt8 := .hole []

def openai (operation verb : String) (template : Template UInt8) : Route :=
  ⟨operation, verb, openaiStems, template⟩

def batchRoutes : List Route :=
  [openai "images_batch_get" "GET" [lit "images", lit "batches", slot],
    openai "images_batch_delete" "DELETE" [lit "images", lit "batches", slot],
    openai "images_batch_items" "GET" [lit "images", lit "batches", slot, lit "items"],
    openai "images_batch_download" "GET" [lit "images", lit "batches", slot, lit "download"],
    openai "images_batch_cancel" "POST" [lit "images", lit "batches", slot, lit "cancel"],
    openai "images_batch_delete_outputs" "DELETE"
      [lit "images", lit "batches", slot, lit "outputs"],
    openai "images_batch_item_content" "GET"
      [lit "images", lit "batches", slot, lit "items", slot, lit "content"]]

def videoRoutes : List Route :=
  [openai "videos_get" "GET" [lit "videos", slot],
    openai "videos_delete" "DELETE" [lit "videos", slot],
    openai "videos_content" "GET" [lit "videos", slot, lit "content"],
    openai "videos_cancel" "POST" [lit "videos", slot, lit "cancel"],
    openai "videos_delete_outputs" "DELETE" [lit "videos", slot, lit "outputs"]]

def firstTable : List (List Route) :=
  [[openai "messages" "POST" [lit "messages"]],
    [openai "count_tokens" "POST" [lit "messages", lit "count_tokens"]],
    [openai "chat_completions" "POST" [lit "chat", lit "completions"]],
    [openai "responses_compact" "POST" [lit "responses", lit "compact"]],
    [openai "responses" "POST" [lit "responses"]]]

def upToBatch : List (List Route) :=
  [[openai "responses_cancel" "POST" [lit "responses", slot, lit "cancel"]],
    [openai "responses_input_items" "GET" [lit "responses", slot, lit "input_items"]],
    [openai "responses_get" "GET" [lit "responses", slot]],
    [openai "responses_delete" "DELETE" [lit "responses", slot]],
    [openai "responses_websocket" "GET" [lit "responses"]],
    [openai "live_create" "POST" [lit "live"]],
    [openai "live_sideband" "GET" [lit "live", slot]],
    [openai "alpha_search" "POST" [lit "alpha", lit "search"]],
    [openai "audio_speech" "POST" [lit "audio", lit "speech"]],
    [openai "audio_transcriptions" "POST" [lit "audio", lit "transcriptions"]],
    [openai "embeddings" "POST" [lit "embeddings"]],
    [openai "images_generations" "POST" [lit "images", lit "generations"]],
    [openai "images_edits" "POST" [lit "images", lit "edits"]],
    [openai "images_generations_async" "POST" [lit "images", lit "generations", lit "async"]],
    [openai "images_edits_async" "POST" [lit "images", lit "edits", lit "async"]],
    [openai "images_task_get" "GET" [lit "images", lit "tasks", slot]],
    [openai "images_batch_create" "POST" [lit "images", lit "batches"]],
    [openai "images_batch_list" "GET" [lit "images", lit "batches"]],
    [openai "images_batch_models" "GET" [lit "images", lit "batches", lit "models"]]]

def fromVideos : List (List Route) :=
  [[openai "videos_generations" "POST" [lit "videos", lit "generations"]],
    [openai "videos_edits" "POST" [lit "videos", lit "edits"]],
    [openai "videos_extensions" "POST" [lit "videos", lit "extensions"]],
    videoRoutes,
    [openai "models" "GET" [lit "models"], openai "antigravity_models" "GET" [lit "models"]],
    [openai "antigravity_usage" "GET" [lit "usage"]]]

def laterTable (batch : List Route) : List (List Route) := upToBatch ++ batch :: fromVideos

def openaiRoutes (batch : List Route) : List Route :=
  firstTable.flatten ++ (laterTable batch).flatten

def geminiRoutes : List Route :=
  [⟨"gemini_models_list", "GET", geminiStems, [lit "models"]⟩,
    ⟨"gemini_models_get", "GET", geminiStems, [lit "models", slot]⟩,
    ⟨"generateContent", "POST", geminiStems, [lit "models", .hole ":generateContent"]⟩,
    ⟨"streamGenerateContent", "POST", geminiStems, [lit "models", .hole ":streamGenerateContent"]⟩]

def singleRoutes : List Route :=
  [⟨"antigravity_models", "GET", ["/antigravity"], [lit "models"]⟩,
    ⟨"codex_realtime_calls", "POST", ["/backend-api/codex"], [lit "realtime", lit "calls"]⟩,
    ⟨"codex_live_sideband", "GET", ["/backend-api/codex"], [slot]⟩]

def contract : List Route := openaiRoutes batchRoutes ++ geminiRoutes ++ singleRoutes

def overlapped : Route :=
  openai "images_batch_item_content" "GET"
    [lit "images", lit "batches", slot, lit "items", lit "content"]

def recognised : List Route :=
  openaiRoutes (overlapped :: batchRoutes) ++ geminiRoutes ++ singleRoutes

theorem mem_recognised {r : Route} : r ∈ recognised ↔ r = overlapped ∨ r ∈ contract := by
  simp only [recognised, contract, openaiRoutes, laterTable, flatten_append, flatten_cons,
    mem_append, mem_cons, or_assoc, or_left_comm]

def Route.Fills (r : Route) (relative : Bytes) : Prop :=
  ∃ values, (∀ v ∈ values, safeSegment v = true) ∧ r.template.fill 47 values = some relative

def Route.Addresses (r : Route) (path : Bytes) : Prop :=
  ∃ stem ∈ r.stems, ∃ relative, r.Fills relative ∧ path = stem ++ relative

def Follows (method relative : Bytes) (rule : Option MatchedCapability) (routes : List Route) :
    Prop :=
  ∀ m, rule = some m →
    ∃ r ∈ routes, r.operation = m.operation ∧ r.verb = method ∧ r.Fills relative

variable {b stem verb operation : Bytes} {routes : List Route} {rule : Option MatchedCapability}
  {spec : CapabilitySpec}

section
variable {method relative forcePlatform : Bytes}

theorem startsWith_iff : startsWith b stem ↔ ∃ rest, b = stem ++ rest := by
  rw [startsWith, isPrefixOf_iff_prefix]
  exact exists_congr fun _ => eq_comm

theorem endsWith_iff {ending : Bytes} : endsWith b ending ↔ ∃ front, b = front ++ ending := by
  rw [endsWith, isSuffixOf_iff_suffix]
  exact exists_congr fun _ => eq_comm

theorem eq_of_find {c : UInt8} {i : Nat} (h : find [c] b = some i) :
    b = b.take i ++ c :: b.drop (i + 1) := by
  obtain ⟨-, ⟨rest, hr⟩, -⟩ := find_eq_some_iff.1 h
  have ht : b.drop (i + 1) = rest := by rw [← drop_drop, ← hr]; rfl
  rw [ht]
  exact (take_append_drop i b).symm.trans (congrArg _ hr.symm)

theorem follows_none : Follows method relative none routes := fun _ h => by
  cases h

theorem Follows.mono {routes' : List Route} (hs : routes ⊆ routes')
    (h : Follows method relative rule routes) :
    Follows method relative rule routes' := fun m hm => by
  obtain ⟨r, hr, hmatch⟩ := h m hm
  exact ⟨r, hs hr, hmatch⟩

variable (r : Route)

variable {m : MatchedCapability} {path x y : Bytes}

theorem follows_suffix {suffix : Bytes} (hr : r ∈ routes) (hop : r.operation = operation)
    (hv : r.verb = verb) (hf : r.template.fill 47 [] = some suffix) :
    Follows method relative (matchSuffix method relative forcePlatform suffix verb spec operation)
      routes := by
  intro m h
  rw [matchSuffix, ite_none_right_eq_some] at h
  obtain ⟨⟨hmethod, hre⟩, hm⟩ := h
  cases hm
  exact ⟨r, hr, hop, hv.trans hmethod.symm, [], by simp, hre ▸ hf⟩

theorem follows_segment (hop : r.operation = operation) (hv : r.verb = verb)
    (hf : ∀ v, r.template.fill 47 [v] = some (stem ++ v)) :
    Follows method relative (matchSegment method relative forcePlatform stem verb spec operation)
      [r] := by
  intro m h
  rw [matchSegment, ite_none_right_eq_some, startsWith_iff] at h
  obtain ⟨⟨⟨v, rfl⟩, hmethod, hs⟩, hm⟩ := h
  cases hm
  rw [drop_left] at hs
  exact ⟨r, by simp, hop, hv.trans hmethod.symm, [v], by simpa using hs, hf v⟩

theorem follows_segmentBefore {ending : Bytes} (hop : r.operation = operation) (hv : r.verb = verb)
    (hf : ∀ v, r.template.fill 47 [v] = some (stem ++ (v ++ ending))) : Follows method relative
      (matchSegmentBefore method relative forcePlatform stem ending verb spec operation) [r] := by
  intro m h
  rw [matchSegmentBefore, ite_none_right_eq_some, startsWith_iff] at h
  obtain ⟨⟨⟨rest, rfl⟩, hmethod, he, hs⟩, hm⟩ := h
  cases hm
  rw [drop_left] at he hs
  obtain ⟨v, rfl⟩ := endsWith_iff.1 he
  rw [length_append, Nat.add_sub_cancel, take_left] at hs
  exact ⟨r, by simp, hop, hv.trans hmethod.symm, [v], by simpa using hs, hf v⟩

theorem follows_intro (hr : r ∈ routes) (hop : r.operation = m.operation)
    (hv : r.verb = method) (values : List Bytes) (hs : ∀ v ∈ values, safeSegment v)
    (hf : r.template.fill 47 values = some relative) :
    ∃ r ∈ routes, r.operation = m.operation ∧ r.verb = method ∧ r.Fills relative :=
  ⟨r, hr, hop, hv, values, hs, hf⟩

theorem follows_id {r : Route} {v : Bytes} (i : Nat)
    (hr : routes[i]? = some r) (hop : r.operation = m.operation) (hv : r.verb = method)
    (hs : safeSegment v) (hf : r.template.fill 47 [v] = some relative) :
    ∃ r ∈ routes, r.operation = m.operation ∧ r.verb = method ∧ r.Fills relative :=
  follows_intro r (mem_of_getElem? hr) hop hv [v] (by simpa using hs) hf

theorem items_overlap (h : ascii "items/" ++ x = y ++ ascii "/content")
    (hs : y.length < 6) : x = "content" := by
  rcases y with _ | ⟨a, _ | ⟨b, _ | ⟨c, _ | ⟨d, _ | ⟨e, _ | ⟨f, y⟩⟩⟩⟩⟩⟩
  all_goals simp +arith [ascii] at h hs
  exact h.2.2.2.2.2

theorem items_apart (h : ascii "items/" ++ x = y ++ ascii "/content")
    (hlo : 6 ≤ y.length) : ∃ item, x = item ++ ascii "/content" := by
  rcases append_eq_append_iff.1 h with ⟨item, -, hx⟩ | ⟨rest, hy, hx⟩
  · exact ⟨item, hx⟩
  · have hl : (ascii "items/").length = 6 := rfl
    rw [hy, length_append] at hl
    obtain rfl : rest = [] := length_eq_zero_iff.1 (by omega)
    exact ⟨[], by simpa using hx.symm⟩

theorem sizeMinus_add_left (a b : Nat) : sizeMinus (a + b) a = b := by
  rw [sizeMinus, if_neg (by omega)]
  omega

theorem sizeMinus_add_right (a b : Nat) : sizeMinus (a + b) b = a := by
  rw [Nat.add_comm, sizeMinus_add_left]

theorem follows_batch : Follows method relative (matchBatchPath method relative forcePlatform)
      (overlapped :: batchRoutes) := by
  intro m h
  rw [matchBatchPath] at h
  by_cases hst : startsWith relative "/images/batches/" = true
  swap
  · simp [hst] at h
  obtain ⟨suffix, rfl⟩ := startsWith_iff.1 hst
  simp only [hst, Bool.not_true, Bool.false_eq_true, ↓reduceIte, drop_left] at h
  by_cases hs : safeSegment (substrTo suffix (find "/" suffix))
  swap
  · simp [hs] at h
  simp only [hs, Bool.not_true, Bool.false_eq_true, ↓reduceIte] at h
  cases hsl : find "/" suffix with
  | none =>
    simp only [hsl, substrTo, ite_none_right_eq_some] at h hs
    obtain ⟨rfl | rfl, hm⟩ := h <;> cases hm
    · exact follows_id 1 rfl rfl rfl hs (by simp [openai, lit, slot]; rfl)
    · exact follows_id 2 rfl rfl rfl hs (by simp [openai, lit, slot]; rfl)
  | some i =>
    have hsu : suffix = suffix.take i ++ 47 :: suffix.drop (i + 1) := eq_of_find hsl
    simp only [hsl, substrTo] at h hs
    generalize suffix.take i = batch at hsu hs
    generalize suffix.drop (i + 1) = tail at hsu h
    subst hsu
    split at h
    · next hc =>
      obtain ⟨rfl, rfl⟩ := hc
      cases h
      exact follows_id 3 rfl rfl rfl hs (by simp [openai, lit, slot]; rfl)
    split at h
    · next hc =>
      obtain ⟨rfl, rfl⟩ := hc
      cases h
      exact follows_id 4 rfl rfl rfl hs (by simp [openai, lit, slot]; rfl)
    split at h
    · next hc =>
      obtain ⟨rfl, rfl⟩ := hc
      cases h
      exact follows_id 5 rfl rfl rfl hs (by simp [openai, lit, slot]; rfl)
    split at h
    · next hc =>
      obtain ⟨rfl, rfl⟩ := hc
      cases h
      exact follows_id 6 rfl rfl rfl hs (by simp [openai, lit, slot]; rfl)
    rw [ite_none_right_eq_some] at h
    obtain ⟨⟨hit, hco, rfl⟩, h⟩ := h
    rw [ite_none_right_eq_some] at h
    obtain ⟨hi, h⟩ := h
    cases h
    obtain ⟨x, rfl⟩ := startsWith_iff.1 hit
    obtain ⟨y, hy⟩ := endsWith_iff.1 hco
    by_cases hsh : y.length < 6
    · obtain rfl := items_overlap hy hsh
      exact ⟨overlapped, .head _, rfl, rfl, [batch], by simpa using hs,
        by simp [overlapped, openai, lit, slot]; rfl⟩
    · obtain ⟨item, rfl⟩ := items_apart hy (Nat.not_lt.1 hsh)
      rw [drop_left, length_append, length_append, sizeMinus_add_left,
        sizeMinus_add_right, take_left] at hi
      exact follows_intro _ (mem_of_getElem? (i := 7) rfl) rfl rfl [batch, item]
        (by simpa using ⟨hs, hi⟩) (by simp [openai, lit, slot]; rfl)

theorem follows_video :
    Follows method relative (matchVideoPath method relative forcePlatform) videoRoutes := by
  intro m h
  rw [matchVideoPath] at h
  by_cases hst : startsWith relative "/videos/" = true
  swap
  · simp [hst] at h
  obtain ⟨suffix, rfl⟩ := startsWith_iff.1 hst
  simp only [hst, Bool.not_true, Bool.false_eq_true, ↓reduceIte, drop_left] at h
  by_cases hs : safeSegment (substrTo suffix (find "/" suffix))
  swap
  · simp [hs] at h
  simp only [hs, Bool.not_true, Bool.false_eq_true, ↓reduceIte] at h
  cases hsl : find "/" suffix with
  | none =>
    simp only [hsl, substrTo] at h hs
    split at h
    · next hg =>
      subst hg
      cases h
      exact follows_id 0 rfl rfl rfl hs (by simp [openai, lit, slot]; rfl)
    · rw [ite_none_right_eq_some] at h
      obtain ⟨rfl, h⟩ := h
      cases h
      exact follows_id 1 rfl rfl rfl hs (by simp [openai, lit, slot]; rfl)
  | some i =>
    have hsu : suffix = suffix.take i ++ 47 :: suffix.drop (i + 1) := eq_of_find hsl
    simp only [hsl, substrTo] at h hs
    generalize suffix.take i = request at hsu hs
    generalize suffix.drop (i + 1) = tail at hsu h
    subst hsu
    split at h
    · next hc =>
      obtain ⟨rfl, rfl⟩ := hc
      cases h
      exact follows_id 2 rfl rfl rfl hs (by simp [openai, lit, slot]; rfl)
    split at h
    · next hc =>
      obtain ⟨rfl, rfl⟩ := hc
      cases h
      exact follows_id 3 rfl rfl rfl hs (by simp [openai, lit, slot]; rfl)
    rw [ite_none_right_eq_some] at h
    obtain ⟨⟨rfl, rfl⟩, h⟩ := h
    cases h
    exact follows_id 4 rfl rfl rfl hs (by simp [openai, lit, slot]; rfl)

theorem follows_findSome {rules : List (Option MatchedCapability)} {table : List (List Route)}
    (h : Forall₂ (Follows method relative) rules table) :
    Follows method relative (rules.findSome? id) table.flatten := by
  induction h with
  | nil => exact follows_none
  | cons hr _ ih =>
    intro m hm
    rw [findSome?_cons] at hm
    split at hm
    · next heq =>
      cases hm; exact hr.mono (subset_append_left _ _) m heq
    · exact ih.mono (subset_append_right _ _) m hm

theorem firstRoutes_follow :
    Forall₂ (Follows method relative) (firstRoutes method relative forcePlatform) firstTable := by
  simp only [firstRoutes, firstTable, forall₂_cons, forall₂_nil_right_iff, and_true]
  exact ⟨follows_suffix _ (.head _) rfl rfl rfl,
    follows_suffix _ (.head _) rfl rfl rfl,
    follows_suffix _ (.head _) rfl rfl rfl,
    follows_suffix _ (.head _) rfl rfl rfl,
    follows_suffix _ (.head _) rfl rfl rfl⟩

theorem laterRoutes_follow :
    Forall₂ (Follows method relative) (laterRoutes method relative forcePlatform)
      (laterTable (overlapped :: batchRoutes)) := by
  have hm : Follows method relative (matchSuffix method relative forcePlatform "/models" "GET"
      (if forcePlatform.isEmpty then kModels else kAntigravity)
      (if forcePlatform.isEmpty then "models" else "antigravity_models"))
      [openai "models" "GET" [lit "models"], openai "antigravity_models" "GET" [lit "models"]] := by
    split
    · exact follows_suffix _ (.head _) rfl rfl rfl
    · exact follows_suffix _ (.tail _ (.head _)) rfl rfl rfl
  have hu : Follows method relative (if forcePlatform.isEmpty then none
      else matchSuffix method relative forcePlatform "/usage" "GET" kAntigravity
        "antigravity_usage") [openai "antigravity_usage" "GET" [lit "usage"]] := by
    split
    · exact follows_none
    · exact follows_suffix _ (.head _) rfl rfl rfl
  simp only [laterRoutes, laterTable, upToBatch, fromVideos, cons_append, nil_append,
    forall₂_cons, forall₂_nil_right_iff, and_true]
  refine ⟨?cancel, ?inputItems, ?get, ?delete, ?_, ?_, ?live, ?_, ?_, ?_, ?_, ?_, ?_, ?_, ?_, ?task,
    ?_, ?_, ?_, follows_batch, ?_, ?_, ?_, follows_video, hm, hu⟩
  case cancel | inputItems =>
    exact follows_segmentBefore _ rfl rfl fun v => by simp [openai, lit, slot]; rfl
  case get | delete | live | task =>
    exact follows_segment _ rfl rfl fun v => by simp [openai, lit, slot]; rfl
  all_goals exact follows_suffix _ (.head _) rfl rfl rfl

theorem routeOpenai_follows :
    Follows method (path.drop stem.length) (routeOpenai method path stem forcePlatform)
      (openaiRoutes (overlapped :: batchRoutes)) := by
  intro m h
  rw [routeOpenai] at h
  split at h
  · next matched hm =>
    cases h
    exact (follows_findSome firstRoutes_follow).mono (subset_append_left _ _) _ hm
  · split at h
    · cases h
    · exact (follows_findSome laterRoutes_follow).mono (subset_append_right _ _) _ h

theorem routeGemini_follows :
    Follows method (path.drop stem.length) (routeGemini method path stem forcePlatform)
      geminiRoutes := by
  intro m h
  rw [routeGemini] at h
  generalize path.drop stem.length = relative at h
  split at h
  · next hl =>
    obtain ⟨rfl, rfl⟩ := hl
    cases h; exact follows_intro _ (.head _) rfl rfl [] (by simp) rfl
  by_cases hst : startsWith relative "/models/" = true
  swap
  · simp [hst] at h
  obtain ⟨modelAction, rfl⟩ := startsWith_iff.1 hst
  have hd : (ascii "/models/" ++ modelAction).drop 8 = modelAction := rfl
  simp only [hst, Bool.not_true, Bool.false_eq_true, ↓reduceIte, hd] at h
  by_cases hs : isSafeGeminiModel (substrTo modelAction (find ":" modelAction))
  swap
  · simp [hs] at h
  simp only [hs, Bool.not_true, Bool.false_eq_true, ↓reduceIte] at h
  cases hc : find ":" modelAction with
  | none =>
    simp only [hc, substrTo, isSafeGeminiModel, ite_none_right_eq_some] at h hs
    obtain ⟨rfl, h⟩ := h
    cases h
    exact follows_id 1 rfl rfl rfl hs (by simp [lit, slot]; rfl)
  | some i =>
    have hsp : modelAction = modelAction.take i ++ 58 :: modelAction.drop (i + 1) := eq_of_find hc
    simp only [hc, substrTo, isSafeGeminiModel, ite_none_right_eq_some] at h hs
    generalize modelAction.take i = model at hsp hs
    generalize modelAction.drop (i + 1) = action at hsp h
    subst hsp
    obtain ⟨⟨rfl, rfl | rfl⟩, h⟩ := h <;> cases h
    · exact follows_id 2 rfl rfl rfl hs (by simp [lit]; rfl)
    · exact follows_id 3 rfl rfl rfl hs (by simp [lit]; rfl)

end

theorem openaiRoutes_stems :
    ∀ r ∈ openaiRoutes (overlapped :: batchRoutes), r.stems = openaiStems := by decide

theorem geminiRoutes_stems : ∀ r ∈ geminiRoutes, r.stems = geminiStems := by decide

theorem Follows.addresses {method path : Bytes}
    (h : Follows method (path.drop stem.length) rule routes) (hs : startsWith path stem)
    (hst : ∀ r ∈ routes, stem ∈ r.stems) {m : MatchedCapability} (hm : rule = some m) :
    ∃ r ∈ routes, r.operation = m.operation ∧ r.verb = method ∧ r.Addresses path := by
  obtain ⟨r, hr, hop, hv, hf⟩ := h m hm
  obtain ⟨relative, rfl⟩ := startsWith_iff.1 hs
  rw [drop_left] at hf
  exact ⟨r, hr, hop, hv, stem, hst r hr, relative, hf, rfl⟩

section
variable {method path : Bytes} {m : MatchedCapability}

theorem routeOpenai_addresses {forcePlatform : Bytes} (hs : stem ∈ openaiStems)
    (hst : startsWith path stem) (h : routeOpenai method path stem forcePlatform = some m) :
    ∃ r ∈ recognised, r.operation = m.operation ∧ r.verb = method ∧ r.Addresses path := by
  obtain ⟨r, hr, hm⟩ := routeOpenai_follows.addresses hst
    (fun r hr => (openaiRoutes_stems r hr).symm ▸ hs) h
  exact ⟨r, mem_append_left _ (mem_append_left _ hr), hm⟩

theorem routeGemini_addresses {forcePlatform : Bytes} (hs : stem ∈ geminiStems)
    (hst : startsWith path stem) (h : routeGemini method path stem forcePlatform = some m) :
    ∃ r ∈ recognised, r.operation = m.operation ∧ r.verb = method ∧ r.Addresses path := by
  obtain ⟨r, hr, hm⟩ := routeGemini_follows.addresses hst
    (fun r hr => (geminiRoutes_stems r hr).symm ▸ hs) h
  exact ⟨r, mem_append_left _ (mem_append_right _ hr), hm⟩

theorem matchCapability_follows (h : matchCapability method path = some m) :
    ∃ r ∈ recognised, r.operation = m.operation ∧ r.verb = method ∧ r.Addresses path := by
  have single {r : Route} (hr : r ∈ singleRoutes) : r ∈ recognised := mem_append_right _ hr
  rw [matchCapability] at h
  split at h
  · cases h
  split at h
  · next hs => exact routeGemini_addresses (by decide) hs h
  split at h
  · next hs => exact routeOpenai_addresses (by decide) hs h
  split at h
  · next hm =>
    obtain ⟨rfl, rfl⟩ := hm
    cases h
    exact ⟨_, single (.head _), rfl, rfl, _, .head _, _, ⟨[], by simp, rfl⟩, rfl⟩
  split at h
  · next hs => exact routeGemini_addresses (by decide) hs h
  split at h
  · next hc =>
    split at h
    · next hcalls =>
      obtain ⟨rfl, rfl⟩ := hcalls
      cases h
      exact ⟨_, single (.tail _ (.head _)), rfl, rfl, _, .head _, _, ⟨[], by simp, rfl⟩, rfl⟩
    · dsimp only at h
      split at h
      · next hsi =>
        obtain ⟨hs, rfl, hsa, -, -⟩ := hsi
        cases h
        obtain ⟨sideband, rfl⟩ := startsWith_iff.1 hs
        rw [drop_left, isSafeGeminiModel] at hsa
        exact ⟨_, single (.tail _ (.tail _ (.head _))), rfl, rfl, _, .head _, 47 :: sideband,
          ⟨[sideband], by simpa using hsa, by simp [slot]⟩, rfl⟩
      · exact routeOpenai_addresses (by decide) hc h
  split at h
  · next hs => exact routeOpenai_addresses (by decide) hs h
  · exact routeOpenai_addresses (by decide) rfl h

end

end Gateway.Server
