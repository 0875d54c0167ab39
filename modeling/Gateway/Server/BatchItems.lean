import Gateway.JsonText
import Gateway.Server.LeaseAccount
import Gateway.Server.RouteContract

/-! # What a request for a batch item says of the item -/

namespace Gateway.Server

open Lib JsonText
open List hiding after
open Dispatch (MediaOperationRequest)

def mediaKey : Action → Option (Bytes × Bytes)
  | .mediaOperation request _ => some (request.operationId, request.action)
  | _ => none

def mediaKeysFor (w : World) (req : HttpRequest) (resp : HttpResponse) (fuel : Nat)
    (path : Bytes) : List (Bytes × Bytes) :=
  match matchCapability "GET" path with
  | none => []
  | some matched =>
    (handle w { req with method := "GET", path } resp matched fuel).log.filterMap mediaKey

def Admitted (req : HttpRequest) : Prop :=
  isSafeQueryString req.query = true ∧ extractApiKey req ≠ []

section
variable {w : World} {req : HttpRequest} {resp : HttpResponse} {fuel : Nat} {path : Bytes}
  {matched : MatchedCapability}

theorem showMedia_log (rj : RapidJson) (action : Bytes) (result : Dispatch.MediaOperationResult)
    (st : Handler) : (showMedia rj action result st).log = st.log := by
  obtain ⟨answer, h⟩ := showMedia_eq rj action result st
  rw [h]

theorem mediaKeysFor_of_control (hm : matchCapability "GET" path = some matched)
    (hc : mediaControlOperation matched.operation) (ha : Admitted req) :
    mediaKeysFor w req resp fuel path =
      [(mediaOperationId path, mediaAction matched.operation)] := by
  have hk : (extractApiKey req).isEmpty = false := by simpa using ha.2
  have hk' : (extractApiKey { req with method := "GET", path }).isEmpty = false := hk
  simp only [mediaKeysFor, hm, handle, prepare, readClock, ha.1, hk', controlMedia, hc, callMedia,
    Bool.not_true, Bool.false_eq_true, ↓reduceIte, bind, Except.bind,
    Handler.returned, showMedia_log]
  rfl

theorem mediaKeysFor_of_refused (ha : ¬ Admitted req) : mediaKeysFor w req resp fuel path = [] := by
  unfold mediaKeysFor
  split
  · rfl
  · by_cases hq : isSafeQueryString req.query
    · have hk : (extractApiKey { req with method := "GET", path }).isEmpty := by
        by_contra hk
        exact ha ⟨hq, fun he => hk (List.isEmpty_iff.2 he)⟩
      simp only [handle, prepare, readClock, hq, hk]; rfl
    · simp only [handle, prepare, readClock, hq]; rfl

end

def itemPath (stem batch item : Bytes) : Bytes :=
  stem ++ (ascii "/images/batches/" ++
    (batch ++ 47 :: (ascii "items/" ++ item ++ ascii "/content")))

def downloadPath (stem batch : Bytes) : Bytes :=
  stem ++ (ascii "/images/batches/" ++ (batch ++ 47 :: ascii "download"))

section
variable {stem batch item tail forcePlatform : Bytes}

theorem ne_of_slash_mem {word : Bytes} (hw : 47 ∉ word) (ht : 47 ∈ tail) : tail ≠ word :=
  fun h => hw (h ▸ ht)

theorem matchBatchPath_unsafe (hb : 47 ∉ batch) (hs : safeSegment batch = false) :
    matchBatchPath "GET" (ascii "/images/batches/" ++ (batch ++ 47 :: tail)) forcePlatform =
      none := by
  rw [matchBatchPath, if_neg (by simp [startsWith])]
  simp only [drop_left, find_slash hb, substrTo, take_left, hs]
  rfl

theorem matchBatchPath_content {front : Bytes} (hb : 47 ∉ batch) (hf : 6 ≤ front.length) :
    matchBatchPath "GET" (ascii "/images/batches/" ++ (batch ++ 47 :: (front ++ ascii "/content")))
      forcePlatform = if safeSegment batch ∧ startsWith front "items/" = true ∧
          safeSegment (front.drop 6) = true then
        some ⟨kImagesBatch, "images_batch_item_content", forcePlatform⟩ else none := by
  have hslash : (47 : UInt8) ∈ front ++ ascii "/content" := mem_append_right _ (by decide)
  have ht : (batch ++ 47 :: (front ++ ascii "/content")).drop (batch.length + 1) =
      front ++ ascii "/content" := by
    rw [← drop_drop, drop_left]; rfl
  have hst : startsWith (front ++ ascii "/content") "items/" = startsWith front "items/" := by
    rw [Bool.eq_iff_iff]
    simp only [startsWith, isPrefixOf_iff_prefix]
    exact ⟨fun h => prefix_of_prefix_length_le h (prefix_append _ _) hf,
      fun h => h.trans (prefix_append _ _)⟩
  have hen : endsWith (front ++ ascii "/content") "/content" = true :=
    isSuffixOf_iff_suffix.2 (suffix_append _ _)
  have hid : ((front ++ ascii "/content").drop 6).take (sizeMinus (sizeMinus
      (front ++ ascii "/content").length 6) 8) = front.drop 6 := by
    obtain ⟨k, hk⟩ := Nat.exists_eq_add_of_le hf
    have hl : (front ++ ascii "/content").length = 6 + (k + 8) := by
      rw [length_append, hk]; rfl
    rw [hl, sizeMinus_add_left, sizeMinus_add_right, drop_append_of_le_length hf]
    exact take_left' (by rw [length_drop]; omega)
  rw [matchBatchPath, if_neg (by simp [startsWith])]
  simp only [drop_left, find_slash hb, substrTo, take_left, ht]
  by_cases hs : safeSegment batch
  · rw [hs, if_neg (by simp), if_neg fun h => ne_of_slash_mem (by decide) hslash h.1,
      if_neg fun h => ne_of_slash_mem (by decide) hslash h.1,
      if_neg fun h => absurd h.2 (by decide), if_neg fun h => absurd h.2 (by decide), hst, hen]
    by_cases hi : startsWith front "items/" = true
    · rw [if_pos ⟨hi, rfl, trivial⟩]
      simp only [hi, true_and]
      exact congrArg (fun custom => if safeSegment custom = true then _ else none) hid
    · rw [if_neg fun h => hi h.1, if_neg fun h => hi h.2.1]
  · rw [if_pos (by simpa using hs), if_neg fun h => hs h.1]

theorem matchBatchPath_slash (hb : 47 ∉ batch) (ht : 47 ∈ tail)
    (he : endsWith tail "/content" = false) :
    matchBatchPath "GET" (ascii "/images/batches/" ++ (batch ++ 47 :: tail)) forcePlatform =
      none := by
  have hd : (batch ++ 47 :: tail).drop (batch.length + 1) = tail := by
    rw [← drop_drop, drop_left]; rfl
  rw [matchBatchPath, if_neg (by simp [startsWith])]
  simp only [drop_left, find_slash hb, substrTo, take_left, hd]
  split_ifs with _ hi hdo hc ho hit
  · rfl
  · exact absurd hi.1 (ne_of_slash_mem (by decide) ht)
  · exact absurd hdo.1 (ne_of_slash_mem (by decide) ht)
  · exact absurd hc.2 (by decide)
  · exact absurd ho.2 (by decide)
  · exact absurd hit.2.1 (by simp [he])
  · exact absurd hit.2.1 (by simp [he])
  · rfl

theorem ne_models (batch tail : Bytes) : batch ++ 47 :: tail ≠ "models" :=
  ne_of_slash_mem (by decide) (by simp)

theorem matchCapability_item (hst : stem ∈ openaiStems) (hb : safeSegment batch)
    (hi : safeSegment item) : ∃ m, matchCapability "GET" (itemPath stem batch item) = some m ∧
      m.operation = "images_batch_item_content" := by
  have hsl : 47 ∉ batch := ((safeSegment_iff _).1 hb).slash_not_mem
  have hf : 6 ≤ (ascii "items/" ++ item).length := by simp [ascii]
  have hs : startsWith (ascii "items/" ++ item) "items/" = true :=
    isPrefixOf_iff_prefix.2 (prefix_append _ _)
  obtain ⟨forcePlatform, hm⟩ := matchCapability_batch hst (ne_models _ _)
  exact ⟨_, hm.trans ((matchBatchPath_content hsl hf).trans (if_pos ⟨hb, hs, hi⟩)), rfl⟩

theorem split_slash (h : 47 ∈ batch) : ∃ front back, batch = front ++ 47 :: back ∧ 47 ∉ front :=
  eq_append_cons_of_mem h

theorem matchCapability_item_unsafe (hst : stem ∈ openaiStems) (hb : safeSegment batch = false) :
    matchCapability "GET" (itemPath stem batch item) = none := by
  obtain ⟨forcePlatform, hm⟩ := matchCapability_batch hst
    (ne_models batch (ascii "items/" ++ item ++ ascii "/content"))
  refine hm.trans ?_
  by_cases h : 47 ∈ batch
  · obtain ⟨front, back, rfl, hf⟩ := split_slash h
    have hl : 6 ≤ (back ++ 47 :: ascii "items").length := by simp [ascii]
    have hd : ¬ safeSegment (((back ++ 47 :: ascii "items") ++ 47 :: item).drop 6) := by
      rw [drop_append_of_le_length hl, safeSegment_iff]
      exact fun hp => hp.slash_not_mem (by simp)
    have he : (front ++ 47 :: back) ++ 47 :: (ascii "items/" ++ item ++ ascii "/content") =
        front ++ 47 :: (((back ++ 47 :: ascii "items") ++ 47 :: item) ++ ascii "/content") := by
      simp [ascii]
    rw [he, matchBatchPath_content hf (by rw [length_append]; omega), if_neg fun h => hd h.2.2]
  · exact matchBatchPath_unsafe h hb

theorem matchCapability_download_unsafe (hst : stem ∈ openaiStems)
    (hb : safeSegment batch = false) : matchCapability "GET" (downloadPath stem batch) = none := by
  obtain ⟨forcePlatform, hm⟩ := matchCapability_batch hst
    (ne_models batch (ascii "download"))
  refine hm.trans ?_
  by_cases h : 47 ∈ batch
  · obtain ⟨front, back, rfl, hf⟩ := split_slash h
    have he : endsWith (back ++ 47 :: ascii "download") "/content" = false := by
      rw [Bool.eq_false_iff]
      intro hs
      have hd : ascii "/content" <:+ ascii "download" :=
        suffix_of_suffix_length_le (isSuffixOf_iff_suffix.1 hs)
          ⟨back ++ [47], by simp⟩ (by decide)
      exact absurd hd (by decide)
    rw [append_assoc, cons_append]; exact matchBatchPath_slash hf (by simp) he
  · exact matchBatchPath_unsafe h hb

theorem mediaOperationId_batch (segs : List Bytes) (hst : stem ∈ openaiStems)
    (hb : safeSegment batch) (hs : ∀ s ∈ segs, safeSegment s)
    (ht : after [ascii "images", ascii "tasks"] (batch :: segs) = none) :
    mediaOperationId (stem ++ joined 47 (ascii "images" :: ascii "batches" :: batch :: segs)) =
      batch := by
  obtain ⟨words, hw, rfl⟩ := openaiStems_joined hst
  rw [← joined_append, mediaOperationId_under hw]
  · have h₁ : after [ascii "images", ascii "tasks"]
        (ascii "images" :: ascii "batches" :: batch :: segs) = none := by
      rw [after, if_neg (by simp +decide), after, if_neg (by simp +decide), ht]
    have h₂ : after [ascii "images", ascii "batches"]
        (ascii "images" :: ascii "batches" :: batch :: segs) = some (batch :: segs) := by
      simp [after]
    simp only [markerWords, findSome?_cons, h₁, h₂]; rfl
  · intro s hm
    simp only [mem_cons] at hm
    rcases hm with rfl | rfl | rfl | hm
    · decide
    · decide
    · exact hb
    · exact hs s hm

end

def ItemsIdentified (keysFor : Bytes → List (Bytes × Bytes)) (stem batch item item' : Bytes) :
    Prop :=
  (∀ key ∈ keysFor (itemPath stem batch item), key ∉ keysFor (itemPath stem batch item')) ∧
    ∀ key ∈ keysFor (downloadPath stem batch),
      key ∉ keysFor (itemPath stem batch item) ∧ key ∉ keysFor (itemPath stem batch item')

section
variable {w : World} {req : HttpRequest} {resp : HttpResponse} {fuel : Nat}
  {stem batch item item' : Bytes}

theorem mediaKeysFor_item (hst : stem ∈ openaiStems) (hb : safeSegment batch)
    (hi : safeSegment item) (ha : Admitted req) :
    mediaKeysFor w req resp fuel (itemPath stem batch item) = [(batch, ascii "content")] := by
  obtain ⟨m, hm, hop⟩ := matchCapability_item hst hb hi
  have hid : mediaOperationId (itemPath stem batch item) = batch := by
    refine Eq.trans (congrArg mediaOperationId ?_) (mediaOperationId_batch
      [ascii "items", item, ascii "content"] hst hb (by simp [hi]; decide)
      (by simp +decide [after]))
    simp [itemPath, ascii]
  rw [mediaKeysFor_of_control hm (by rw [hop]; decide) ha, hid, hop]
  rfl

/-- The requests are told apart only where none is sent. -/
theorem batch_items_identified_iff (w : World) (req : HttpRequest) (resp : HttpResponse)
    (fuel : Nat) (hstem : stem ∈ openaiStems) (batch : Bytes) (hitem : safeSegment item = true)
    (hitem' : safeSegment item' = true) :
    ItemsIdentified (mediaKeysFor w req resp fuel) stem batch item item' ↔
      ¬ (Admitted req ∧ safeSegment batch = true) := by
  constructor
  · rintro ⟨hdiffer, -⟩ ⟨hadmitted, hbatch⟩
    refine hdiffer (batch, ascii "content") ?_ ?_
    · simp [mediaKeysFor_item hstem hbatch hitem hadmitted]
    · simp [mediaKeysFor_item hstem hbatch hitem' hadmitted]
  · intro hnone
    have hnothing : mediaKeysFor w req resp fuel (itemPath stem batch item) = [] ∧
        mediaKeysFor w req resp fuel (downloadPath stem batch) = [] := by
      by_cases hadmitted : Admitted req
      · have hbatch : safeSegment batch = false := by
          simpa using fun hbatch => hnone ⟨hadmitted, hbatch⟩
        simp [mediaKeysFor, matchCapability_item_unsafe hstem hbatch,
          matchCapability_download_unsafe hstem hbatch]
      · exact ⟨mediaKeysFor_of_refused hadmitted, mediaKeysFor_of_refused hadmitted⟩
    simp [ItemsIdentified, hnothing.1, hnothing.2]

def keyedRequest : HttpRequest := { xApiKey := "k" }

theorem keyedRequest_admitted : Admitted keyedRequest := ⟨by decide, by decide⟩

theorem batch_items_confused : mediaKeysFor (refusingProvider compact {}) keyedRequest {} 1
        "/v1/images/batches/b1/items/c1/content" = [(ascii "b1", ascii "content")] ∧
      ¬ ItemsIdentified (mediaKeysFor (refusingProvider compact {}) keyedRequest {} 1)
        "/v1" "b1" "c1" "c2" := by
  have hkey : ∀ item, safeSegment item →
      mediaKeysFor (refusingProvider compact {}) keyedRequest {} 1
        (itemPath "/v1" "b1" item) = [(ascii "b1", ascii "content")] := fun item hitem =>
    mediaKeysFor_item (by decide) (by decide) hitem keyedRequest_admitted
  refine ⟨hkey "c1" (by decide), fun h => h.1 (ascii "b1", ascii "content") ?_ ?_⟩
  · rw [hkey "c1" (by decide)]
    exact mem_singleton.2 rfl
  · rw [hkey "c2" (by decide)]
    exact mem_singleton.2 rfl

theorem batch_items_without_key :
    ItemsIdentified (mediaKeysFor (refusingProvider compact {}) {} {} 1) "/v1" "b1" "c1" "c2" :=
  (batch_items_identified_iff (refusingProvider compact {}) {} {} 1 (by decide) "b1"
    (by decide) (by decide)).2 fun h => h.1.2 rfl

end

end Gateway.Server
