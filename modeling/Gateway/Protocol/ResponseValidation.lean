import Gateway.Protocol.ResponseConversion

/-! # Converted responses and the gateway's own validator -/

namespace Gateway.Protocol.Converter

open Lib Json JsonText List Option

variable (source : Format) (rj : RapidJson)

def answersWithCall (doc : Json) : Bool :=
  match source with
  | .openAIChatCompletions =>
    (entriesAt (valueAt (firstAt doc "choices") "message") "tool_calls").any isObject
  | .anthropic =>
    (entriesAt doc "content").any fun block => textAt block "type" == some (ascii "tool_use")
  | .gemini =>
    (entriesAt (valueAt (firstAt doc "candidates") "content") "parts").any fun part =>
      (valueAt part "functionCall").isObject
  | .openAIResponses =>
    (entriesAt doc "output").any fun item => textAt item "type" == some (ascii "function_call")

def cutReasons : Format → List Bytes
  | .openAIChatCompletions => ["length", "content_filter"]
  | .anthropic => ["max_tokens"]
  | .gemini => ["MAX_TOKENS", "SAFETY", "RECITATION"]
  | .openAIResponses => ["incomplete", "failed"]

def reasonOf (doc : Json) : Option Bytes :=
  match source with
  | .openAIChatCompletions => textAt (firstAt doc "choices") "finish_reason"
  | .anthropic => textAt doc "stop_reason"
  | .gemini => textAt (firstAt doc "candidates") "finishReason"
  | .openAIResponses => textAt doc "status"

def cutShort (doc : Json) : Bool :=
  (reasonOf source doc).any fun reason => (cutReasons source).contains reason

theorem numberCalls_eq_nil_iff (k : Nat) (tcs : List ToolCall) :
    numberCalls k tcs = [] ↔ tcs = [] := by
  cases tcs <;> simp [numberCalls]

theorem filterMap_isEmpty {α β : Type} {f : α → Option β} {p : α → Bool}
    (h : ∀ a, (f a).isSome = p a) (xs : List α) : (xs.filterMap f).isEmpty = !xs.any p := by
  induction xs with
  | nil => rfl
  | cons x xs ih =>
    have hx := h x
    cases hf : f x with
    | none => simp_all
    | some y => simp_all

theorem isEmpty_callsOf (source : Format) (doc : Json) :
    (callsOf rj source doc).isEmpty = !answersWithCall source doc := by
  cases source with
  | openAIChatCompletions =>
    unfold callsOf answersWithCall
    induction entriesAt (valueAt (firstAt doc "choices") "message") "tool_calls" with
    | nil => rfl
    | cons tc tcs ih =>
      cases h : tc.isObject <;> simp_all [OpenAI.callOf]
  | anthropic =>
    refine filterMap_isEmpty (fun block => ?_) _
    unfold toolUseOf
    split <;> simp_all
  | gemini =>
    have he := filterMap_isEmpty (f := geminiCallOf rj)
      (p := fun part => (valueAt part "functionCall").isObject)
      (fun part => by unfold geminiCallOf; split <;> simp_all)
      (entriesAt (valueAt (firstAt doc "candidates") "content") "parts")
    rw [callsOf, answersWithCall, ← he, Bool.eq_iff_iff, List.isEmpty_iff, List.isEmpty_iff,
      numberCalls_eq_nil_iff]
  | openAIResponses =>
    refine filterMap_isEmpty (fun item => ?_) _
    unfold functionCallOf
    split <;> simp_all

theorem completed_of_reason {source : Format} {o : Option Bytes} {f : Bytes → FinishReason}
    (h : ∀ reason, serializeFinishReason (f reason) .openAIResponses = ascii "completed" ↔
      (cutReasons source).contains reason = false) :
    serializeFinishReason ((o.map f).getD .unknown) .openAIResponses = ascii "completed" ↔
      (o.any fun reason => (cutReasons source).contains reason) = false := by
  cases o with
  | none => exact iff_of_true rfl rfl
  | some reason => exact h reason

theorem completed_iff (doc : Json) :
    serializeFinishReason (finishReasonOf source doc) .openAIResponses = ascii "completed" ↔
      cutShort source doc = false := by
  cases source with
  | openAIChatCompletions =>
    refine completed_of_reason fun reason => ?_
    unfold openAIReason cutReasons
    by_cases hs : reason = ascii "stop"
    · subst hs; decide
    by_cases hl : reason = ascii "length"
    · subst hl; decide
    by_cases ht : reason = ascii "tool_calls"
    · subst ht; decide
    by_cases hf : reason = ascii "content_filter"
    · subst hf; decide
    · simp [hs, hl, ht, hf, serializeFinishReason]
  | anthropic =>
    refine completed_of_reason fun reason => ?_
    unfold anthropicReason cutReasons
    by_cases hs : reason = ascii "end_turn"
    · subst hs; decide
    by_cases hl : reason = ascii "max_tokens"
    · subst hl; decide
    by_cases ht : reason = ascii "tool_use"
    · subst ht; decide
    · simp [hs, hl, ht, serializeFinishReason]
  | gemini =>
    refine completed_of_reason fun reason => ?_
    unfold geminiReason cutReasons
    by_cases hs : reason = ascii "STOP"
    · subst hs
      refine iff_of_true ?_ (by decide)
      rw [if_pos (by decide)]
      split <;> rfl
    by_cases hl : reason = ascii "MAX_TOKENS"
    · subst hl; simp +decide [serializeFinishReason]
    by_cases hsa : reason = ascii "SAFETY"
    · subst hsa; simp +decide [serializeFinishReason]
    by_cases hr : reason = ascii "RECITATION"
    · subst hr; simp +decide [serializeFinishReason]
    · simp [hs, hl, hsa, hr, serializeFinishReason]
  | openAIResponses =>
    refine completed_of_reason fun status => ?_
    unfold responsesReason cutReasons
    by_cases hc : status = ascii "completed"
    · subst hc
      refine iff_of_true ?_ (by decide)
      rw [if_pos (by decide)]
      split <;> rfl
    by_cases hi : status = ascii "incomplete"
    · subst hi; simp +decide [serializeFinishReason]
    by_cases hfa : status = ascii "failed"
    · subst hfa; simp +decide [serializeFinishReason]
    · simp [hc, hi, hfa, serializeFinishReason]

theorem finish_partsOf_iff (source : Format) (requestedModel : Bytes) (doc : Json) :
    (partsOf rj source .openAIResponses requestedModel doc).finish = ascii "completed" ↔
      answersWithCall source doc ∨ cutShort source doc = false := by
  unfold partsOf
  rw [isEmpty_callsOf]
  cases answersWithCall source doc with
  | true => exact iff_of_true rfl (.inl rfl)
  | false => simp [completed_iff]

theorem nulFree_serializeFinishReason (reason : FinishReason) (target : Format) :
    NulFree (serializeFinishReason reason target) := by
  cases reason <;> cases target <;> decide

theorem hasText_of_lookup {j : Json} {key s : Bytes} (h : j.lookup key = some (.str s))
    (hs : cstr s ≠ []) : hasText j key := by
  simpa [hasText, h, isText, str, text?] using hs

theorem responseIdOf_ne_nil (doc : Json) : cstr (responseIdOf doc .openAIResponses) ≠ [] := by
  unfold responseIdOf
  split
  · rename_i hid
    rw [(nulFree_stringAt doc "id").cstr_eq]
    simpa using hid
  · decide

theorem int64Of_of_lookup {j : Json} {key : Bytes} {n : Int} (h : j.lookup key = some (.int n))
    (hp : 0 < n) (hlt : n < 2 ^ 63) : int64Of j key = some n := by
  have hr : -2 ^ 63 ≤ n ∧ n < 2 ^ 63 := ⟨by omega, hlt⟩
  simpa [int64Of, h, isInt64, getInteger] using hr

theorem consistentUsage_written {input output create read : Int} (hi : 0 < input)
    (ho : 0 < output) (hs : input + output < 2 ^ 31) :
    consistentUsage (usageMember .openAIResponses (input, output, create, read)).2 := by
  have ht : toInt32 (input + output) = input + output := by
    unfold toInt32
    rw [Int.bmod_eq_of_le] <;> omega
  generalize hu : (usageMember .openAIResponses (input, output, create, read)).2 = usage
  have hin : int64Of usage "input_tokens" = some input :=
    int64Of_of_lookup (by simp [← hu, usageMember]) hi (by omega)
  have hou : int64Of usage "output_tokens" = some output :=
    int64Of_of_lookup (by simp +decide [← hu, usageMember]) ho (by omega)
  have ha : int64Of usage "total_tokens" = some (input + output) :=
    int64Of_of_lookup (by simp +decide [← hu, usageMember, ht]) (by omega) (by omega)
  simp [consistentUsage, hin, hou, ha, hi, ho]

theorem output_written (r : ResponseParts) (usage : List (Bytes × Json)) :
    ∃ item items, arrayOf (.object (responsesResponse r ++ usage)) "output" = some (item :: items) ∧
      ∀ v ∈ item :: items, hasText v "type" = true := by
  have hm : ∀ content : Json, hasText (.object [
      ("type", .str "message"), ("role", .str "assistant"), ("content", content)]) "type" = true :=
    fun content => hasText_of_lookup (s := "message") (by simp) (by decide)
  have hc : ∀ tc, hasText (OpenAIResponses.functionCallValue tc) "type" = true := fun tc =>
    hasText_of_lookup (s := "function_call") (by simp [OpenAIResponses.functionCallValue])
      (by decide)
  have ho : arrayOf (.object (responsesResponse r ++ usage)) "output" = some (
      (if !r.text.isEmpty || r.toolCalls.isEmpty then [object [
        ("type", .str "message"), ("role", .str "assistant"),
        ("content", .array [textBlock "output_text" r.text])]] else [])
      ++ r.toolCalls.map OpenAIResponses.functionCallValue) := by
    simp +decide [arrayOf, responsesResponse, array?]
  rw [ho]
  split
  · refine ⟨_, _, rfl, fun v hv => ?_⟩
    rcases mem_cons.1 hv with rfl | hv
    · exact hm _
    · obtain ⟨tc, -, rfl⟩ := List.mem_map.1 hv; exact hc tc
  · rename_i hn
    cases hcalls : r.toolCalls with
    | nil => simp [hcalls] at hn
    | cons tc tcs =>
      refine ⟨_, _, rfl, fun v hv => ?_⟩
      rw [← map_cons] at hv
      obtain ⟨tc, -, rfl⟩ := List.mem_map.1 hv
      exact hc tc

theorem validateResponsesResponse_iff {rj : RapidJson} {body : Bytes} {doc usage item : Json}
    {items : List Json} (hp : parseObject rj body = some doc) (hid : hasText doc "id" = true)
    (ho : textAt doc "object" = some (ascii "response")) (hm : hasText doc "model" = true)
    (hou : arrayOf doc "output" = some (item :: items))
    (hi : ∀ v ∈ item :: items, hasText v "type" = true)
    (hu : objectAt doc "usage" = some usage) (hc : consistentUsage usage) :
    validateResponsesResponse rj body = .ok () ↔ textAt doc "status" =
      some (ascii "completed") := by
  have ha : (item :: items).any (!hasText · "type") = false := by
    rw [List.any_eq_false]
    intro v hv
    simp [hi v hv]
  unfold validateResponsesResponse
  simp only [hp, hid, ho, hm, hou, hu, hc, getD_some, ha, reject]
  by_cases hs : textAt doc "status" = some (ascii "completed")
  · exact iff_of_true (by simp [hs]) hs
  · refine iff_of_false ?_ hs
    simp [hs]

theorem converted_response_valid_iff {rj : RapidJson} (hrj : Lawful rj) {source : Format}
    (hsource : source ≠ .openAIResponses) {body out requestedModel : Bytes} {doc doc' usage : Json}
    (hparse : rj.parse body = some doc)
    (hconvert : convertResponseChecked rj body source .openAIResponses requestedModel =
      .ok { success := true, body := out })
    (husage : usageObject doc = some usage) (hinput : 0 < inputCount usage)
    (houtput : 0 < outputCount usage) (hsum : inputCount usage + outputCount usage < 2 ^ 31)
    (hout : rj.parse out = some doc') (hmodel : stringAt doc' "model" ≠ []) :
    validateResponsesResponse rj out = .ok () ↔
      answersWithCall source doc ∨ cutShort source doc = false := by
  obtain ⟨doc₀, hparse₀, hobj, rfl⟩ := convertResponseChecked_cases hsource hconvert
  obtain rfl := some.inj (hparse.symm.trans hparse₀)
  rw [hrj.parse_write] at hout
  obtain rfl := some.inj hout
  rw [← finish_partsOf_iff rj source requestedModel doc]
  generalize hr : partsOf rj source .openAIResponses requestedModel doc = r
  have hid : cstr r.id ≠ [] := hr ▸ responseIdOf_ne_nil doc
  have hfinish : NulFree r.finish := hr ▸ nulFree_serializeFinishReason _ _
  have hdocument : convertedDocument rj source .openAIResponses requestedModel doc =
      .object (responsesResponse r ++
        [(ascii "usage", (usageMember .openAIResponses (countsOf usage)).2)]) := by
    rw [convertedDocument, hr, usageOf, husage]; rfl
  have hcounts : consistentUsage (usageMember .openAIResponses (countsOf usage)).2 :=
    consistentUsage_written hinput houtput hsum
  have hwritten : (usageMember .openAIResponses (countsOf usage)).2.isObject := rfl
  generalize (usageMember .openAIResponses (countsOf usage)).2 = written at *
  rw [hdocument] at hmodel ⊢
  generalize hdoc' : object (responsesResponse r ++ [(ascii "usage", written)]) = doc' at *
  obtain ⟨item, items, hitems, htypes⟩ := output_written r [(ascii "usage", written)]
  rw [hdoc'] at hitems
  have hread : parseObject rj (rj.write doc') = some doc' := by
    rw [parseObject, hrj.parse_write, ← hdoc']; rfl
  have hidText : hasText doc' "id" = true :=
    hasText_of_lookup (by simp [← hdoc', responsesResponse]) hid
  have hobject : textAt doc' "object" = some (ascii "response") := by
    simp +decide [← hdoc', textAt, responsesResponse, text?, str]
  have hmodelText : hasText doc' "model" = true := by
    have hlookup : doc'.lookup "model" = some (.str r.model) := by
      simp +decide [← hdoc', responsesResponse]
    refine hasText_of_lookup hlookup fun hnil => hmodel ?_
    rw [stringAt, hlookup]; exact congrArg cstr hnil
  have husage' : objectAt doc' "usage" = some written := by
    simp +decide [objectAt, ← hdoc', responsesResponse, object?, hwritten]
  have hstatus : textAt doc' "status" = some r.finish := by
    simp +decide [← hdoc', textAt, responsesResponse, text?, str, hfinish.cstr_eq]
  rw [validateResponsesResponse_iff hread hidText hobject hmodelText hitems htypes husage' hcounts,
    hstatus, some.injEq]

def storyAnswer (reason : Bytes) : Json := .object [
  ("id", .str "chatcmpl-1"), ("model", .str "gpt-4o"),
  ("choices", .array [.object [
    ("message", .object [("role", .str "assistant"), ("content", .str "Once upon a time")]),
    ("finish_reason", .str reason)]]),
  ("usage", .object [("prompt_tokens", .int 12), ("completion_tokens", .int 4)])]

theorem storyAnswer_valid :
    ∃ out, convertResponseChecked compact (compact.write (storyAnswer "stop"))
        .openAIChatCompletions .openAIResponses [] = .ok { success := true, body := out } ∧
      validateResponsesResponse compact out = .ok () := by
  have hread := lawful_compact.parse_write (storyAnswer "stop")
  have hconvert := convertResponseChecked_of_supported []
    (by decide : Format.openAIChatCompletions ≠ .openAIResponses) hread rfl rfl
  exact ⟨_, hconvert, (converted_response_valid_iff lawful_compact (by decide) hread hconvert rfl
    (by decide) (by decide) (by decide) (lawful_compact.parse_write _) (by decide)).2
      (.inr (by decide))⟩

theorem storyAnswer_refused :
    ∃ out, convertResponseChecked compact (compact.write (storyAnswer "length"))
        .openAIChatCompletions .openAIResponses [] = .ok { success := true, body := out } ∧
      usageObject (storyAnswer "length") =
        some (.object [("prompt_tokens", .int 12), ("completion_tokens", .int 4)]) ∧
      (compact.parse out).map (stringAt · "model") = some (ascii "gpt-4o") ∧
      validateResponsesResponse compact out =
        .error "Provider Responses response metadata is incomplete" := by
  have hread := lawful_compact.parse_write (storyAnswer "length")
  have hconvert := convertResponseChecked_of_supported []
    (by decide : Format.openAIChatCompletions ≠ .openAIResponses) hread rfl rfl
  refine ⟨_, hconvert, rfl, ?_, ?_⟩
  · rw [lawful_compact.parse_write]; rfl
  · rw [validateResponsesResponse, parseObject, lawful_compact.parse_write]; rfl

end Gateway.Protocol.Converter
