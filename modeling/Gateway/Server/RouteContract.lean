import Gateway.Server.RouteTemplates

/-! # What reaches the handler is what the contract describes -/

namespace Gateway.Server

open Lib Option
open List hiding after

def openaiWords : List (List Bytes) :=
  [[], ["v1"], ["antigravity", "v1"], ["backend-api", "codex"]]

variable {stem : Bytes}

theorem openaiStems_joined (h : stem ∈ openaiStems) :
    ∃ words ∈ openaiWords, stem = joined 47 words := by
  simp only [openaiStems, mem_cons, not_mem_nil, or_false] at h
  rcases h with rfl | rfl | rfl | rfl
  · exact ⟨_, .head _, rfl⟩
  · exact ⟨_, .tail _ (.head _), rfl⟩
  · exact ⟨_, .tail _ (.tail _ (.head _)), rfl⟩
  · exact ⟨_, .tail _ (.tail _ (.tail _ (.head _))), rfl⟩

theorem openaiWords_safe : ∀ words ∈ openaiWords, ∀ s ∈ words, safeSegment s := by decide

variable {segs : List Bytes}

theorem slash_not_mem_of_safe (h : ∀ s ∈ segs, safeSegment s) : ∀ s ∈ segs, 47 ∉ s :=
  fun s hs => ((safeSegment_iff s).1 (h s hs)).slash_not_mem

variable {r : Route}

section
variable {method path batch : Bytes}

def overlapping (batch : Bytes) : Bytes := "/images/batches/" ++ (batch ++ "/items/content")

theorem find_slash (hb : 47 ∉ batch) (tail : Bytes) :
    find "/" (batch ++ 47 :: tail) = some batch.length := by
  have hf : find [47] (batch ++ 47 :: tail) = _ := find_append_of_not_mem hb _
  exact hf.trans (by simp [find])

theorem matchBatchPath_overlapping (hs : safeSegment batch) (forcePlatform : Bytes) :
    matchBatchPath "GET" (overlapping batch) forcePlatform =
      some ⟨kImagesBatch, "images_batch_item_content", forcePlatform⟩ := by
  have hsl : find "/" (batch ++ ascii "/items/content") = some batch.length :=
    find_slash ((safeSegment_iff _).1 hs).slash_not_mem (ascii "items/content")
  have ht : (batch ++ ascii "/items/content").drop (batch.length + 1) = "items/content" := by
    rw [← drop_drop, drop_left]; rfl
  rw [matchBatchPath, if_neg (by simp [overlapping, startsWith]), overlapping]
  simp only [drop_left, hsl, substrTo, take_left, hs, ht]
  rfl

variable {tail : Bytes}

theorem laterRoutes_batch (ht : tail ≠ "models") (forcePlatform : Bytes) :
    (laterRoutes "GET" (ascii "/images/batches/" ++ tail) forcePlatform).findSome? id =
      matchBatchPath "GET" (ascii "/images/batches/" ++ tail) forcePlatform := by
  have hm : matchSuffix "GET" (ascii "/images/batches/" ++ tail) forcePlatform
      "/images/batches/models" "GET" kImagesBatch "images_batch_models" = none := by
    rw [matchSuffix, if_neg]
    rintro ⟨-, h⟩
    have hm : ascii "/images/batches/models" = ascii "/images/batches/" ++ ascii "models" := rfl
    exact ht (append_cancel_left (h.trans hm))
  have hr : laterRoutes "GET" (ascii "/images/batches/" ++ tail) forcePlatform =
      replicate 18 none ++ (matchSuffix "GET" (ascii "/images/batches/" ++ tail)
          forcePlatform "/images/batches/models" "GET" kImagesBatch "images_batch_models") ::
        matchBatchPath "GET" (ascii "/images/batches/" ++ tail) forcePlatform ::
        (replicate 5 none ++ [if forcePlatform.isEmpty then none else none]) := rfl
  rw [hr, hm, ite_self]
  cases matchBatchPath "GET" (ascii "/images/batches/" ++ tail) forcePlatform <;> rfl

theorem routeOpenai_batch (ht : tail ≠ "models") (stem forcePlatform : Bytes) :
    routeOpenai "GET" (stem ++ (ascii "/images/batches/" ++ tail)) stem forcePlatform =
      matchBatchPath "GET" (ascii "/images/batches/" ++ tail) forcePlatform := by
  have hf : (firstRoutes "GET" (ascii "/images/batches/" ++ tail) forcePlatform).findSome? id =
    none := rfl
  have hc : ascii "/images/batches/" ++ tail ≠ "/responses/compact" := by simp [ascii]
  rw [routeOpenai, drop_left]
  simp only [hf, if_neg hc]
  exact laterRoutes_batch ht forcePlatform

theorem matchCapability_batch (hs : stem ∈ openaiStems) (ht : tail ≠ "models") :
    ∃ forcePlatform, matchCapability "GET" (stem ++ (ascii "/images/batches/" ++ tail)) =
      matchBatchPath "GET" (ascii "/images/batches/" ++ tail) forcePlatform := by
  have hr := routeOpenai_batch ht stem
  simp only [openaiStems, mem_cons, not_mem_nil, or_false] at hs
  rcases hs with rfl | rfl | rfl | rfl
  · exact ⟨_, hr []⟩
  · exact ⟨_, hr []⟩
  · exact ⟨_, hr "antigravity"⟩
  · have hsi : ¬ isSafeGeminiModel (ascii "images/batches/" ++ tail) := by
      rw [isSafeGeminiModel, safeSegment_iff]
      exact fun h => h.slash_not_mem (mem_append_left _ (by decide))
    refine ⟨[], ?_⟩
    generalize hp : ascii "/backend-api/codex" ++ (ascii "/images/batches/" ++ tail) = path
    have hbeta : startsWith path "/antigravity/v1beta" = false := hp ▸ rfl
    have ho : startsWith path "/antigravity/v1" = false := hp ▸ rfl
    have hg : startsWith path "/v1beta" = false := hp ▸ rfl
    have hc : startsWith path "/backend-api/codex" = true := hp ▸ rfl
    rw [matchCapability, if_neg (by simp [← hp, ascii]), hbeta, if_neg Bool.false_ne_true,
      ho, if_neg Bool.false_ne_true, if_neg (by simp [← hp, ascii]), hg,
      if_neg Bool.false_ne_true, hc, if_pos rfl, if_neg (by simp [← hp, ascii])]
    subst hp; exact (if_neg fun h => hsi h.2.2.1).trans (hr [])

theorem matchCapability_overlapping (hsa : safeSegment batch) (hs : stem ∈ openaiStems) :
    ∃ m, matchCapability "GET" (stem ++ overlapping batch) = some m ∧
      m.operation = "images_batch_item_content" := by
  have ht : batch ++ ascii "/items/content" ≠ "models" := fun h => by
    have hm : (47 : UInt8) ∈ ascii "models" := h ▸ mem_append_right _ (by decide)
    exact absurd hm (by decide)
  obtain ⟨forcePlatform, hm⟩ := matchCapability_batch hs ht
  exact ⟨_, hm.trans (matchBatchPath_overlapping hsa forcePlatform), rfl⟩

theorem itemContent_template : ∀ r ∈ contract, r.operation = "images_batch_item_content" →
    r.stems = openaiStems ∧
      r.template = [lit "images", lit "batches", slot, lit "items", slot, lit "content"] := by
  decide

theorem not_addresses_overlapping (hsa : safeSegment batch) (hst : stem ∈ openaiStems)
    (hr : r ∈ contract) (hop : r.operation = "images_batch_item_content") :
    ¬ r.Addresses (stem ++ overlapping batch) := by
  rintro ⟨stem', hs', relative, ⟨values, hv, hf⟩, hp⟩
  obtain ⟨hste, ht⟩ := itemContent_template r hr hop
  rw [hste] at hs'
  rw [ht] at hf
  obtain ⟨segs, hs, rfl⟩ := map_eq_some_iff.1 hf
  rcases values with _ | ⟨v, _ | ⟨w, _ | ⟨x, values⟩⟩⟩ <;>
    simp [Template.segments, lit, slot] at hs
  obtain ⟨words, hpl, rfl⟩ := openaiStems_joined hst
  obtain ⟨words', hp', rfl⟩ := openaiStems_joined hs'
  subst hs
  have hp : joined 47 (words ++ [ascii "images", ascii "batches", batch, ascii "items",
        ascii "content"]) =
      joined 47 (words' ++ [ascii "images", ascii "batches", v, ascii "items", w,
        ascii "content"]) := by
    rw [joined_append, joined_append, ← hp]
    simp [overlapping]
    rfl
  have hfi : ∀ s ∈ [ascii "images", ascii "batches", ascii "items", ascii "content"],
      safeSegment s := by decide
  have hse := joined_inj (slash_not_mem_of_safe ?_) (slash_not_mem_of_safe ?_) hp
  · simp only [openaiWords, mem_cons, not_mem_nil, or_false] at hpl hp'
    rcases hpl with rfl | rfl | rfl | rfl <;> rcases hp' with rfl | rfl | rfl | rfl <;>
      simp +decide at hse
  · simp_all [openaiWords_safe words hpl, or_imp, forall_and]
  · simp_all [openaiWords_safe words' hp', or_imp, forall_and]

end

def ItemsOverlap (method path : Bytes) : Prop :=
  method = "GET" ∧ ∃ stem ∈ openaiStems, ∃ batch, safeSegment batch = true ∧
    path = stem ++ overlapping batch

def MatchesTemplate (method path : Bytes) : Prop :=
  ∀ m, matchCapability method path = some m →
    ∃ r ∈ contract, r.operation = m.operation ∧ r.verb = method ∧ r.Addresses path

theorem matches_template_iff (method path : Bytes) :
    MatchesTemplate method path ↔ ¬ ItemsOverlap method path := by
  constructor
  · rintro hmatch ⟨rfl, stem, hstem, batch, hsafe, rfl⟩
    obtain ⟨m, hm, hop⟩ := matchCapability_overlapping hsafe hstem
    obtain ⟨r, hr, hrop, -, haddr⟩ := hmatch m hm
    exact not_addresses_overlapping hsafe hstem hr (hrop.trans hop) haddr
  · intro hno m hm
    obtain ⟨r, hr, hop, hverb, haddr⟩ := matchCapability_follows hm
    rcases mem_recognised.1 hr with rfl | hr
    · refine absurd ⟨hverb.symm, ?_⟩ hno
      obtain ⟨stem, hstem, relative, ⟨values, hsafe, hfill⟩, rfl⟩ := haddr
      obtain ⟨segs, hsegs, rfl⟩ := map_eq_some_iff.1 hfill
      rcases values with _ | ⟨batch, _ | ⟨x, values⟩⟩ <;>
        simp [overlapped, openai, Template.segments, lit, slot] at hsegs
      exact ⟨stem, hstem, batch, hsafe batch (by simp), by simp [← hsegs, overlapping]; rfl⟩
    · exact ⟨r, hr, hop, hverb, haddr⟩

theorem item_content_without_item :
    (matchCapability "GET" "/v1/images/batches/b1/items/content").map (·.operation) =
        some (ascii "images_batch_item_content") ∧
      ¬ MatchesTemplate "GET" "/v1/images/batches/b1/items/content" := by
  have hsafe : safeSegment "b1" = true := by decide
  have hstem : ascii "/v1" ∈ openaiStems := by decide
  obtain ⟨m, hm, hop⟩ := matchCapability_overlapping hsafe hstem
  refine ⟨?_, fun hmatch => ?_⟩
  · exact (congrArg (Option.map MatchedCapability.operation) hm).trans (congrArg some hop)
  · obtain ⟨r, hr, hrop, -, haddr⟩ := hmatch m hm
    exact not_addresses_overlapping hsafe hstem hr (hrop.trans hop) haddr

def stemWords : List (List Bytes) :=
  openaiWords ++ [[ascii "v1beta"], [ascii "antigravity", ascii "v1beta"], [ascii "antigravity"]]

theorem recognised_stems : ∀ r ∈ recognised, ∀ stem ∈ r.stems,
    stem ∈ stemWords.map (joined 47) := by decide

theorem stemWords_safe : ∀ words ∈ stemWords, ∀ s ∈ words, safeSegment s := by decide

def plainPiece : Piece UInt8 → Bool
  | .word text => safeSegment text
  | .hole rest => rest.isEmpty

theorem recognised_plain : ∀ r ∈ recognised, r.template ≠ [] ∧ (r.template.all plainPiece ∨
      (r.operation = "generateContent" ∨ r.operation = "streamGenerateContent") ∧
        r.stems = geminiStems ∧ r.template = [lit "models", .hole (":" ++ r.operation)]) := by
  decide

def SafePath (operation path : Bytes) : Prop :=
  ∃ rest front last, path = 47 :: rest ∧ rest.splitOn 47 = front ++ [last] ∧
    (∀ s ∈ front, PlainSegment s) ∧
    (PlainSegment last ∨
      (operation = "generateContent" ∨ operation = "streamGenerateContent") ∧
        (∃ stem ∈ geminiStems, startsWith path stem = true) ∧
        ∃ model, PlainSegment model ∧ last = model ++ ascii ":" ++ operation)

theorem Route.Addresses.segments {path : Bytes} (h : r.Addresses path) (hr : r ∈ recognised) :
    ∃ words ∈ stemWords, joined 47 words ∈ r.stems ∧ ∃ values segs,
      (∀ v ∈ values, safeSegment v) ∧ r.template.segments values = some segs ∧
      path = joined 47 (words ++ segs) := by
  obtain ⟨stem, hs, relative, ⟨values, hsa, hf⟩, rfl⟩ := h
  obtain ⟨segs, hse, rfl⟩ := map_eq_some_iff.1 hf
  obtain ⟨words, hw, rfl⟩ := List.mem_map.1 (recognised_stems r hr stem hs)
  exact ⟨words, hw, hs, values, segs, hsa, hse, (joined_append _ _).symm⟩

variable {values : List Bytes}

theorem safe_of_plainPiece {t : Template UInt8} (ht : t.all plainPiece)
    (hvalues : ∀ v ∈ values, safeSegment v) (hse : t.segments values = some segs) :
    ∀ s ∈ segs, safeSegment s := by
  intro s hs
  rcases Template.mem_segments hse hs with hw | ⟨v, hv, rest, hr, rfl⟩
  · exact List.all_eq_true.1 ht _ hw
  · have he : rest.isEmpty := List.all_eq_true.1 ht _ hr
    rw [List.isEmpty_iff.1 he, append_nil]; exact hvalues v hv

variable {front : List Bytes}

theorem SafePath.of_segments {operation path : Bytes} {last : Bytes}
    (hp : path = joined 47 (front ++ [last])) (hf : ∀ s ∈ front, safeSegment s) (hsl : 47 ∉ last)
    (hl : safeSegment last ∨ (operation = "generateContent" ∨ operation = "streamGenerateContent") ∧
      (∃ stem ∈ geminiStems, startsWith path stem) ∧ ∃ model, safeSegment model ∧
      last = model ++ ascii ":" ++ operation) : SafePath operation path := by
  have hfr : ∀ s ∈ front ++ [last], 47 ∉ s := by
    intro s hs
    rcases mem_append.1 hs with hs | hs
    · exact slash_not_mem_of_safe hf s hs
    · rw [mem_singleton.1 hs]; exact hsl
  obtain ⟨rest, hr, hsp⟩ := splitOn_joined (by simp) hfr
  refine ⟨rest, front, last, hp.trans hr, hsp,
    fun s hs => (safeSegment_iff s).1 (hf s hs), ?_⟩
  rcases hl with hsa | ⟨hop, hst, model, hm, heq⟩
  · exact .inl ((safeSegment_iff last).1 hsa)
  · exact .inr ⟨hop, hst, model, (safeSegment_iff model).1 hm, heq⟩

theorem safePath_of_addresses {path : Bytes} (hr : r ∈ recognised) (h : r.Addresses path) :
    SafePath r.operation path := by
  obtain ⟨words, hw, hst, values, segs, hv, hse, hp⟩ := h.segments hr
  obtain ⟨hne, hpl | ⟨hop, hste, ht⟩⟩ := recognised_plain r hr
  · have hsa := safe_of_plainPiece hpl hv hse
    obtain rfl | ⟨front, last, rfl⟩ := eq_nil_or_concat' segs
    · exact absurd rfl (Template.segments_ne_nil hne hse)
    have hl : safeSegment last := hsa last (by simp)
    refine .of_segments (hp.trans (congrArg _ (append_assoc words front [last]).symm)) ?_
      ((safeSegment_iff last).1 hl).slash_not_mem (.inl hl)
    intro s hs
    rcases mem_append.1 hs with hs | hs
    · exact stemWords_safe words hw s hs
    · exact hsa s (mem_append_left _ hs)
  · rw [ht] at hse
    rcases values with _ | ⟨model, _ | ⟨x, values⟩⟩ <;> simp [Template.segments, lit] at hse
    subst hse
    have hm : safeSegment model := hv model (by simp)
    have ha : 47 ∉ ascii ":" ++ r.operation := by
      rcases hop with hop | hop <;> rw [hop] <;> decide
    refine .of_segments (hp.trans (congrArg _ (append_cons words _ _))) ?_ ?_
      (.inr ⟨hop, ⟨_, hste ▸ hst, ?_⟩, model, hm, (append_assoc ..).symm⟩)
    · intro s hs
      rcases mem_append.1 hs with hs | hs
      · exact stemWords_safe words hw s hs
      · rw [mem_singleton.1 hs]; decide
    · rw [mem_append, not_or]; exact ⟨((safeSegment_iff model).1 hm).slash_not_mem, ha⟩
    · rw [hp, joined_append]; exact startsWith_iff.2 ⟨_, rfl⟩

def collection (operation : Bytes) : Bytes :=
  if startsWith operation "images_task" then "/images/tasks/"
  else if startsWith operation "images_batch" then "/images/batches/"
  else "/videos/"

def ReadsObject (operation path : Bytes) : Prop :=
  ∃ stem ∈ openaiStems, ∃ object rest, PlainSegment object ∧
    path = stem ++ collection operation ++ object ++ rest ∧ (rest = [] ∨ rest.head? = some 47) ∧
    mediaOperationId path = object

def markerWords : List (List Bytes) :=
  [[ascii "images", ascii "tasks"], [ascii "images", ascii "batches"], [ascii "videos"]]

theorem mediaOperationId_joined (h : ∀ s ∈ segs, 47 ∉ s) : mediaOperationId (joined 47 segs) =
      (markerWords.findSome? fun words => (after words segs).bind head?).getD [] := by
  have hm : mediaMarkers = markerWords.map fun words => joined 47 words ++ [47] := by rfl
  have hwo : ∀ words ∈ markerWords, ∀ w ∈ words, 47 ∉ w := by decide
  have hr := fun words hw => read_joined (hwo words hw) h
  simp only [markerWords, forall_mem_cons] at hr
  obtain ⟨ht, hba, hv, -⟩ := hr
  rw [mediaOperationId, hm, findSome?_map]
  simp only [markerWords, findSome?_cons, findSome?_nil, Function.comp_apply, ht, hba, hv]

variable {words : List Bytes}

theorem after_append {w : Bytes} (h : w ∉ front) (segs : List Bytes) :
    after (w :: words) (front ++ segs) = after (w :: words) segs := by
  induction front with
  | nil => rfl
  | cons s front ih =>
    have hne : (w == s) = false := beq_false_of_ne fun heq => h (heq ▸ mem_cons_self)
    rw [cons_append, after, isPrefixOf, hne, Bool.false_and, Bool.false_and,
      if_neg Bool.false_ne_true]
    exact ih fun hm => h (mem_cons_of_mem s hm)

def objectRoutes : List Route :=
  openai "images_task_get" "GET" [lit "images", lit "tasks", slot] ::
    overlapped :: batchRoutes ++ videoRoutes

theorem recognised_media : ∀ r ∈ recognised, mediaControlOperation r.operation →
    r.operation ≠ "images_batch_list" → r ∈ objectRoutes := by
  decide

theorem mediaOperationId_under (hw : words ∈ openaiWords) (hse : ∀ s ∈ segs, safeSegment s) :
    mediaOperationId (joined 47 (words ++ segs)) =
      (markerWords.findSome? fun marker => (after marker segs).bind head?).getD [] := by
  have hsa : ∀ s ∈ words ++ segs, safeSegment s := fun s hs =>
    (mem_append.1 hs).elim (openaiWords_safe words hw s) (hse s)
  have him : ∀ words ∈ openaiWords, ascii "images" ∉ words ∧ ascii "videos" ∉ words := by
    decide
  obtain ⟨hi, hv⟩ := him words hw
  rw [mediaOperationId_joined (slash_not_mem_of_safe hsa)]
  simp only [markerWords, findSome?_cons, findSome?_nil, after_append hi, after_append hv]

def HasObject (r : Route) (values segs : List Bytes) : Prop :=
  ∃ words object rest, object ∈ values ∧ segs = words ++ object :: rest ∧
    joined 47 words ++ [47] = collection r.operation ∧
    (markerWords.findSome? fun marker => (after marker segs).bind head?).getD [] = object

theorem hasObject_batch (hr : r ∈ overlapped :: batchRoutes)
    (h : r.template.segments values = some segs) : HasObject r values segs := by
  simp only [batchRoutes, mem_cons, not_mem_nil, or_false] at hr
  rcases hr with rfl | rfl | rfl | rfl | rfl | rfl | rfl | rfl <;>
    rcases values with _ | ⟨v, _ | ⟨w, _ | ⟨x, values⟩⟩⟩ <;>
    simp [overlapped, openai, Template.segments, lit, slot] at h <;> subst h <;>
    exact ⟨[ascii "images", ascii "batches"], v, _, by simp, rfl, rfl,
      by simp +decide [markerWords, after]⟩

theorem hasObject_video (hr : r ∈ videoRoutes) (h : r.template.segments values = some segs) :
    HasObject r values segs := by
  simp only [videoRoutes, mem_cons, not_mem_nil, or_false] at hr
  rcases hr with rfl | rfl | rfl | rfl | rfl <;>
    rcases values with _ | ⟨v, _ | ⟨w, values⟩⟩ <;>
    simp [openai, Template.segments, lit, slot] at h <;> subst h <;>
    exact ⟨[ascii "videos"], v, _, by simp, rfl, rfl, by simp +decide [markerWords, after]⟩

theorem hasObject (hr : r ∈ objectRoutes) (h : r.template.segments values = some segs) :
    HasObject r values segs := by
  rcases mem_cons.1 hr with rfl | hr
  · rcases values with _ | ⟨v, _ | ⟨w, values⟩⟩ <;>
      simp [openai, Template.segments, lit, slot] at h
    subst h
    exact ⟨[ascii "images", ascii "tasks"], v, [], by simp, rfl, rfl,
      by simp +decide [markerWords, after]⟩
  · rcases mem_append.1 hr with hr | hr
    · exact hasObject_batch hr h
    · exact hasObject_video hr h

theorem readsObject_of_addresses {path : Bytes} (ho : r ∈ objectRoutes) (h : r.Addresses path) :
    ReadsObject r.operation path := by
  have hr : ∀ r ∈ objectRoutes, r.stems = openaiStems ∧ r.template.all plainPiece := by decide
  obtain ⟨hst, hp⟩ := hr r ho
  obtain ⟨stem, hs, relative, ⟨values, hv, hf⟩, rfl⟩ := h
  obtain ⟨segs, hse, rfl⟩ := map_eq_some_iff.1 hf
  rw [hst] at hs
  obtain ⟨words, hw, rfl⟩ := openaiStems_joined hs
  have hre := mediaOperationId_under hw (safe_of_plainPiece hp hv hse)
  obtain ⟨marker, object, rest, hm, rfl, hc, hfi⟩ := hasObject ho hse
  refine ⟨_, hs, object, joined 47 rest, (safeSegment_iff object).1 (hv object hm), ?_,
    ?_, ?_⟩
  · rw [← hc]; simp
  · cases rest <;> simp
  · rw [← joined_append, hre, hfi]

theorem matched_path_safe (method path : Bytes) (m : MatchedCapability)
    (h : matchCapability method path = some m) : SafePath m.operation path ∧
      (mediaControlOperation m.operation = true → m.operation ≠ "images_batch_list" →
        ReadsObject m.operation path) := by
  obtain ⟨r, hr, hop, -, haddr⟩ := matchCapability_follows h
  rw [← hop]
  exact ⟨safePath_of_addresses hr haddr,
    fun hmedia hlist => readsObject_of_addresses (recognised_media r hr hmedia hlist) haddr⟩

theorem video_content_path_safe :
    matchCapability "GET" "/v1/videos/request_1/content" = some ⟨kVideos, "videos_content", []⟩ ∧
      SafePath "videos_content" "/v1/videos/request_1/content" ∧
      ReadsObject "videos_content" "/v1/videos/request_1/content" := by
  have hmatch : matchCapability "GET" "/v1/videos/request_1/content" =
      some ⟨kVideos, "videos_content", []⟩ := rfl
  obtain ⟨hsafe, hreads⟩ := matched_path_safe _ _ _ hmatch
  exact ⟨hmatch, hsafe, hreads (by decide) (by decide)⟩

end Gateway.Server
