import Gateway.Protocol.ResponseValidation

/-! # Why a converted answer ended -/

namespace Gateway.Protocol.Converter

open Lib Json JsonText Option
open Except (ok)

def rereadReason (target : Format) (called : Bool) (reason : FinishReason) : FinishReason :=
  match target, reason with
  | _, .length => .length
  | .openAIChatCompletions, .toolCalls => .toolCalls
  | .openAIChatCompletions, .stop => .stop
  | .openAIChatCompletions, .unknown => .stop
  | .openAIChatCompletions, _ => .contentFilter
  | .anthropic, .toolCalls => .toolCalls
  | .anthropic, _ => .stop
  | .gemini, .contentFilter => .safety
  | .gemini, .safety => .safety
  | .gemini, .recitation => .recitation
  | .gemini, _ => if called then .toolCalls else .stop
  | .openAIResponses, .contentFilter => .contentFilter
  | .openAIResponses, .safety => .contentFilter
  | .openAIResponses, .recitation => .contentFilter
  | .openAIResponses, _ => if called then .toolCalls else .stop

section

variable (rj : RapidJson) (r : ResponseParts) (usage : List (Bytes × Json))

theorem textOf_str {j : Json} {key s : Bytes} (h : j.lookup key = some (.str s)) (hs : NulFree s) :
    textAt j key = some s := by
  simp [textAt, h, str, text?, hs.cstr_eq]

theorem any_functionCall_written :
    (entriesAt (valueAt (firstAt (.object (geminiResponse rj r ++ usage)) "candidates") "content")
      "parts").any (fun part => (part.lookup "functionCall").isSome) = !r.toolCalls.isEmpty := by
  have hp : entriesAt (valueAt (firstAt (.object (geminiResponse rj r ++ usage)) "candidates")
      "content") "parts" =
      if ((if r.text.isEmpty then [] else [object [("text", .str r.text)]])
        ++ r.toolCalls.map (functionCallPart rj)).isEmpty then [.object [("text", .str r.text)]]
      else (if r.text.isEmpty then [] else [.object [("text", .str r.text)]])
        ++ r.toolCalls.map (functionCallPart rj) := by
    simp +decide [geminiResponse, firstAt, entriesAt, valueAt, array?]
  rw [hp]
  cases r.toolCalls with
  | nil => cases r.text.isEmpty <;> simp +decide
  | cons tc tcs => cases r.text.isEmpty <;> simp +decide [functionCallPart]

theorem any_function_call_written :
    (entriesAt (.object (responsesResponse r ++ usage)) "output").any
      (fun item => textAt item "type" == some (ascii "function_call")) = !r.toolCalls.isEmpty := by
  have hi : entriesAt (.object (responsesResponse r ++ usage)) "output" =
      (if !r.text.isEmpty || r.toolCalls.isEmpty then [object [
        ("type", .str "message"), ("role", .str "assistant"),
        ("content", .array [textBlock "output_text" r.text])]] else [])
      ++ r.toolCalls.map OpenAIResponses.functionCallValue := by
    simp +decide [entriesAt, responsesResponse, array?]
  rw [hi]
  cases r.toolCalls with
  | nil => simp +decide [textAt, str, text?]
  | cons tc tcs => simp +decide [textAt, str, text?, OpenAIResponses.functionCallValue]

theorem finishReasonOf_written {target : Format} {reason : FinishReason}
    (hf : r.finish = serializeFinishReason reason target) :
    finishReasonOf target (.object (responseMembers rj r target ++ usage)) =
      rereadReason target (!r.toolCalls.isEmpty) reason := by
  have hn : NulFree r.finish := hf ▸ nulFree_serializeFinishReason reason target
  cases target with
  | openAIChatCompletions =>
    have hr : textAt (firstAt (.object (openAIResponse r ++ usage)) "choices")
        "finish_reason" = some r.finish := by
      refine textOf_str ?_ hn
      simp +decide [openAIResponse, firstAt, entriesAt, array?]
    rw [finishReasonOf, responseMembers, hr, hf]
    cases reason <;> rfl
  | anthropic =>
    have hr : textAt (.object (anthropicResponse rj r ++ usage)) "stop_reason" =
        some r.finish := by
      refine textOf_str ?_ hn
      simp +decide [anthropicResponse]
    rw [finishReasonOf, responseMembers, hr, hf]
    cases reason <;> rfl
  | gemini =>
    have hr : textAt (firstAt (.object (geminiResponse rj r ++ usage)) "candidates")
        "finishReason" = some r.finish := by
      refine textOf_str ?_ hn
      simp +decide [geminiResponse, firstAt, entriesAt, array?]
    rw [finishReasonOf, responseMembers, hr, hf, ← any_functionCall_written rj r usage]
    cases reason <;> rfl
  | openAIResponses =>
    have hr : textAt (.object (responsesResponse r ++ usage)) "status" = some r.finish := by
      refine textOf_str ?_ hn
      simp +decide [responsesResponse]
    rw [finishReasonOf, responseMembers, hr, hf, ← any_function_call_written r usage]
    cases reason <;> rfl

end

theorem finishReasonOf_converted (rj : RapidJson) (source target : Format) (requestedModel : Bytes)
    (doc : Json) : finishReasonOf target (convertedDocument rj source target requestedModel doc) =
      rereadReason target (answersWithCall source doc)
        (if answersWithCall source doc then .toolCalls else finishReasonOf source doc) := by
  have he := isEmpty_callsOf rj source doc
  have hf : (partsOf rj source target requestedModel doc).finish = serializeFinishReason
      (if answersWithCall source doc then .toolCalls else finishReasonOf source doc) target := by
    unfold partsOf
    rw [he]
    cases answersWithCall source doc <;> rfl
  have hc : (!(partsOf rj source target requestedModel doc).toolCalls.isEmpty) =
      answersWithCall source doc := by
    unfold partsOf
    rw [he, Bool.not_not]
  rw [convertedDocument, finishReasonOf_written rj _ _ hf, hc]

def lengthReason : Format → Bytes
  | .openAIChatCompletions => "length"
  | .anthropic => "max_tokens"
  | .gemini => "MAX_TOKENS"
  | .openAIResponses => "incomplete"

theorem length_of_reason {o : Option Bytes} {f : Bytes → FinishReason} {word : Bytes}
    (h : ∀ reason, f reason = .length ↔ reason = word) :
    (o.map f).getD .unknown = .length ↔ o = some word := by
  cases o with
  | none => simp
  | some reason => simp [h]

theorem finishReasonOf_eq_length_iff (source : Format) (doc : Json) :
    finishReasonOf source doc = .length ↔ reasonOf source doc = some (lengthReason source) := by
  cases source with
  | openAIChatCompletions =>
    refine length_of_reason fun reason => ?_
    have hne : ascii "stop" ≠ ascii "length" := by decide
    unfold openAIReason lengthReason
    grind
  | anthropic =>
    refine length_of_reason fun reason => ?_
    have hne : ascii "end_turn" ≠ ascii "max_tokens" := by decide
    unfold anthropicReason lengthReason
    grind
  | gemini =>
    refine length_of_reason fun reason => ?_
    have hne : ascii "STOP" ≠ ascii "MAX_TOKENS" := by decide
    unfold geminiReason lengthReason
    grind
  | openAIResponses =>
    refine length_of_reason fun status => ?_
    have hne : ascii "completed" ≠ ascii "incomplete" := by decide
    unfold responsesReason lengthReason
    grind

structure FinishKept (rj : RapidJson) (source target : Format) (doc doc' : Json) : Prop where
  length : parseFinishReason source doc = .ok .length → parseFinishReason target doc' = .ok .length
  stop : parseFinishReason source doc = .ok .stop → extractToolCalls rj source doc = .ok [] →
    parseFinishReason target doc' = .ok .stop
  toolCalls : ∀ calls, parseFinishReason source doc = .ok .toolCalls →
    extractToolCalls rj source doc = .ok calls → calls ≠ [] →
      parseFinishReason target doc' = .ok .toolCalls

theorem finish_kept_iff {rj : RapidJson} (hrj : Lawful rj) {source target : Format}
    (hne : source ≠ target) {body out requestedModel : Bytes} {doc doc' : Json}
    (hparse : rj.parse body = some doc)
    (hconvert : convertResponseChecked rj body source target requestedModel =
      .ok { success := true, body := out })
    (hparse' : rj.parse out = some doc') :
    FinishKept rj source target doc doc' ↔
      ¬ (reasonOf source doc = some (lengthReason source) ∧ answersWithCall source doc) := by
  obtain ⟨doc₀, hparse₀, hobj, rfl⟩ := convertResponseChecked_cases hne hconvert
  obtain rfl := some.inj (hparse.symm.trans hparse₀)
  obtain rfl := some.inj ((hrj.parse_write _).symm.trans hparse')
  have hread := parseFinishReason_eq source hobj
  have hcalls := extractToolCalls_eq rj source hobj
  have hempty := isEmpty_callsOf rj source doc
  have hreread : parseFinishReason target (convertedDocument rj source target requestedModel doc) =
      .ok (rereadReason target (answersWithCall source doc)
        (if answersWithCall source doc then .toolCalls else finishReasonOf source doc)) := by
    rw [parseFinishReason_eq target rfl, finishReasonOf_converted]
  rw [← finishReasonOf_eq_length_iff]
  cases hcalled : answersWithCall source doc with
  | true =>
    rw [hcalled] at hempty hreread
    have htold : rereadReason target true .toolCalls = .toolCalls := by cases target <;> rfl
    rw [if_pos rfl, htold] at hreread
    constructor
    · rintro hkept ⟨hlength, -⟩
      have hlost := hkept.length (by rw [hread, hlength])
      rw [hreread] at hlost; cases hlost
    · intro hwhole
      refine ⟨?_, ?_, ?_⟩
      · intro hlength; rw [hread, ok.injEq] at hlength; exact absurd ⟨hlength, rfl⟩ hwhole
      · intro _ hnone; rw [hcalls, ok.injEq] at hnone; rw [hnone] at hempty; cases hempty
      · intro _ _ _ _; exact hreread
  | false =>
    rw [hcalled] at hempty hreread
    rw [if_neg Bool.false_ne_true] at hreread
    refine iff_of_true ⟨?_, ?_, ?_⟩ (by simp)
    · intro hlength
      rw [hread, ok.injEq] at hlength
      rw [hreread, hlength]
      cases target <;> rfl
    · intro hstop _
      rw [hread, ok.injEq] at hstop
      rw [hreread, hstop]
      cases target <;> rfl
    · intro calls _ hextract hsome
      rw [hcalls, ok.injEq] at hextract
      rw [hextract] at hempty; exact absurd (List.isEmpty_iff.1 hempty) hsome

def callAnswer (arguments reason : Bytes) : Json := .object [
  ("id", .str "chatcmpl-1"), ("model", .str "gpt-4o"),
  ("choices", .array [.object [
    ("message", .object [("role", .str "assistant"), ("content", .null),
      ("tool_calls", .array [.object [("id", .str "call_1"), ("type", .str "function"),
        ("function", .object [("name", .str "get_weather"), ("arguments", .str arguments)])]])]),
    ("finish_reason", .str reason)]])]

theorem callAnswer_converted (arguments reason : Bytes) :
    convertResponseChecked compact (compact.write (callAnswer arguments reason))
        .openAIChatCompletions .anthropic [] = .ok {
      success := true
      body := compact.write (convertedDocument compact .openAIChatCompletions
        .anthropic [] (callAnswer arguments reason)) } :=
  convertResponseChecked_of_supported [] (by decide) (lawful_compact.parse_write _) rfl rfl

theorem whole_call_kept : FinishKept compact .openAIChatCompletions .anthropic
      (callAnswer "\x7b\"city\":\"Rome\"\x7d" "tool_calls")
      (convertedDocument compact .openAIChatCompletions .anthropic []
        (callAnswer "\x7b\"city\":\"Rome\"\x7d" "tool_calls")) := by
  refine (finish_kept_iff lawful_compact (by decide) (lawful_compact.parse_write _)
    (callAnswer_converted _ _) (lawful_compact.parse_write _)).2 ?_
  rintro ⟨hlength, -⟩
  revert hlength
  decide

theorem cutCall_throughObject :
    (callsOf compact .openAIChatCompletions (callAnswer "\x7b\"city\":\"Ro" "length")).map
        (throughObject compact) =
      [{ id := "call_1", name := "get_weather", arguments := "\x7b\x7d" }] := by
  have hc : callsOf compact .openAIChatCompletions
      (callAnswer "\x7b\"city\":\"Ro" "length") =
        [{ id := "call_1", name := "get_weather", arguments := "\x7b\"city\":\"Ro" }] := by decide
  have hcu : (compact.parse (cstr "\x7b\"city\":\"Ro")).isNone := by
    decide +kernel
  have ho : objectOfText compact "\x7b\"city\":\"Ro" = .object [] := by
    rw [objectOfText, isNone_iff_eq_none.1 hcu]; rfl
  rw [hc, List.map_singleton, throughObject, ho]
  rfl

theorem cut_call_finished :
    parseFinishReason .openAIChatCompletions (callAnswer "\x7b\"city\":\"Ro" "length") =
        .ok .length ∧ ∃ out doc', convertResponseChecked compact
          (compact.write (callAnswer "\x7b\"city\":\"Ro" "length"))
          .openAIChatCompletions .anthropic [] = .ok { success := true, body := out } ∧
        compact.parse out = some doc' ∧
        parseFinishReason .anthropic doc' = .ok .toolCalls ∧
        callsOf compact .anthropic doc' =
          [{ id := "call_1", name := "get_weather", arguments := "\x7b\x7d" }] := by
  refine ⟨by decide, _, _, callAnswer_converted _ _, lawful_compact.parse_write _, ?_, ?_⟩
  · rw [parseFinishReason_eq .anthropic rfl, finishReasonOf_converted]; decide
  · have hcanonical := canonical_callsOf lawful_compact .openAIChatCompletions
      (callAnswer "\x7b\"city\":\"Ro" "length")
    exact (callsOf_anthropicResponse compact (r := partsOf compact
      .openAIChatCompletions .anthropic [] (callAnswer "\x7b\"city\":\"Ro" "length"))
      hcanonical _).trans cutCall_throughObject

end Gateway.Protocol.Converter
