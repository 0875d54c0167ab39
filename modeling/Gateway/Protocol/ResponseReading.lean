import Gateway.Protocol.Rereading
import Gateway.Protocol.Validation

/-! # What is read of a response -/

namespace Gateway.Protocol

open Lib Json Option

variable {α : Type} {key body requestedModel : Bytes} {rj : RapidJson} {source target : Format}

namespace Converter

def firstAt (j : Json) (key : Bytes) : Json := (entriesAt j key).head?.getD .null

variable (value : Json)

theorem field_eq (key : Bytes) (view : Json → Option α) :
    field value key view = .ok ((value.lookup key).bind view) := by
  unfold field
  cases h : value.isObject with
  | true => simp [memberAs_of_object h]
  | false => simp [lookup_of_not_object h]

theorem memberString_eq (key : Bytes) : memberString value key = .ok (stringAt value key) := by
  rw [memberString, field_eq]
  rfl

theorem field_object_eq (key : Bytes) : field value key object? =
      .ok (if (valueAt value key).isObject then some (valueAt value key) else none) := by
  rw [field_eq]
  cases h : (valueAt value key).isObject with
  | true => rw [object_of_valueAt h, if_pos rfl]
  | false => rw [object_of_not_valueAt h, if_neg Bool.false_ne_true]

theorem candidateParts_eq (candidate : Json) : candidateParts candidate =
      .ok (((valueAt candidate "content").lookup "parts").bind array?) := by
  unfold candidateParts
  rw [field_object_eq, ok_bind]
  cases h : (valueAt candidate "content").isObject with
  | true => simp [memberAs_of_object h]
  | false => simp [lookup_of_not_object h]

section

variable {root : Json} (h : root.isObject = true)

include h in
theorem firstOf_eq (key : Bytes) : firstOf root key = .ok (entriesAt root key).head? := by
  rw [firstOf, memberAs_of_object h, ok_bind, entriesAt]
  cases (root.lookup key).bind array? <;> rfl

end

variable (doc : Json)

theorem firstAt_of_head {j : Json} {v : Json} (h : (entriesAt j key).head? = some v) :
    firstAt j key = v := by
  rw [firstAt, h]
  rfl

theorem firstAt_of_none {j : Json} (h : (entriesAt j key).head? = none) :
    firstAt j key = .null := by
  rw [firstAt, h]
  rfl

@[simp] theorem valueAt_null (key : Bytes) : valueAt .null key = .null := rfl

@[simp] theorem entriesAt_null (key : Bytes) : entriesAt .null key = [] := rfl

def partsText (parts : List Json) : Bytes := parts.flatMap fun p => (textOf p).getD []

def choiceTextOf : Option Bytes :=
  (((valueAt (firstAt doc "choices") "message").lookup "content").bind string?).or
    (((firstAt doc "choices").lookup "text").bind string?)

def contentTextOf : Bytes := partsText (entriesAt doc "content")

def outputTextOf : Bytes :=
  (entriesAt doc "output").flatMap fun item => partsText (entriesAt item "content")

def candidateTextOf : Bytes :=
  partsText (entriesAt (valueAt (firstAt doc "candidates") "content") "parts")

def responseTextOf : Bytes :=
  ((choiceTextOf doc).or ((doc.lookup "output_text").bind string?)).getD
    (if !(contentTextOf doc).isEmpty then contentTextOf doc
     else if !(outputTextOf doc).isEmpty then outputTextOf doc
     else candidateTextOf doc)

theorem foldlM_addPartText (parts : List Json) (text : Bytes) :
    parts.foldlM addPartText text = .ok (text ++ partsText parts) :=
  foldlM_append (fun p _ text => by rw [addPartText, partText_eq]; rfl) text

theorem foldlM_addItemText (items : List Json) (text : Bytes) : items.foldlM addItemText text =
      .ok (text ++ items.flatMap fun item => partsText (entriesAt item "content")) :=
  foldlM_append (fun item _ text => by
    rw [addItemText, field_eq, ok_bind]; exact foldlM_addPartText _ text) text

theorem messageText_eq (choice : Json) : messageText choice =
      .ok (((valueAt choice "message").lookup "content").bind string?) := by
  unfold messageText
  rw [field_object_eq, ok_bind]
  cases hm : (valueAt choice "message").isObject with
  | false => simp [lookup_of_not_object hm]
  | true => simp [memberAs_of_object hm]

section

variable {root : Json} (h : root.isObject = true)

include h

theorem choiceText_eq : choiceText root = .ok (choiceTextOf root) := by
  unfold choiceText choiceTextOf
  rw [firstOf_eq h, ok_bind]
  cases hc : (entriesAt root "choices").head? with
  | none => simp [firstAt_of_none hc]
  | some choice =>
    rw [firstAt_of_head hc]
    simp only [messageText_eq, ok_bind, field_eq]
    cases ((valueAt choice "message").lookup "content").bind string? <;> simp

theorem candidateText_eq : candidateText root = .ok (candidateTextOf root) := by
  unfold candidateText candidateTextOf
  rw [firstOf_eq h, ok_bind]
  cases hc : (entriesAt root "candidates").head? with
  | none => simp [firstAt_of_none hc, partsText]
  | some candidate =>
    simp only [firstAt_of_head hc, candidateParts_eq, ok_bind]
    exact foldlM_addPartText _ []

theorem responseText_eq : responseText root = .ok (responseTextOf root) := by
  have hc : contentText root = .ok (nonEmpty (contentTextOf root)) := by
    rw [contentText, memberAs_of_object h, ok_bind]
    exact congrArg (· >>= fun t => pure (nonEmpty t)) (foldlM_addPartText _ [])
  have ho : outputText root = .ok (nonEmpty (outputTextOf root)) := by
    rw [outputText, memberAs_of_object h, ok_bind]
    exact congrArg (· >>= fun t => pure (nonEmpty t)) (foldlM_addItemText _ [])
  unfold responseText responseTextOf
  simp only [h, choiceText_eq h, memberAs_of_object h, hc, ho,
    candidateText_eq h, ok_bind, nonEmpty]
  cases choiceTextOf root with
  | some text => simp
  | none =>
    cases (root.lookup "output_text").bind string? with
    | some text => simp
    | none =>
      cases (contentTextOf root).isEmpty <;> cases (outputTextOf root).isEmpty <;> simp

end

def toolUseOf (rj : RapidJson) (block : Json) : Option ToolCall :=
  if textAt block "type" == some (ascii "tool_use") then
    some {
      id := stringAt block "id", name := stringAt block "name"
      arguments := objectTextAt rj block "input" }
  else none

def functionCallOf (item : Json) : Option ToolCall :=
  if textAt item "type" == some (ascii "function_call") then
    some {
      id := stringAt item "call_id", name := stringAt item "name"
      arguments := stringAt item "arguments" }
  else none

def geminiCallOf (rj : RapidJson) (part : Json) : Option ToolCall :=
  if (valueAt part "functionCall").isObject then
    some {
      name := stringAt (valueAt part "functionCall") "name"
      arguments := objectTextAt rj (valueAt part "functionCall") "args" }
  else none

def numberCalls (k : Nat) : List ToolCall → List ToolCall
  | [] => []
  | tc :: tcs => { tc with id := tc.name ++ "_" ++ decimal (k + 1) } :: numberCalls (k + 1) tcs

def callsOf (rj : RapidJson) (source : Format) (doc : Json) : List ToolCall :=
  match source with
  | .openAIChatCompletions =>
    (entriesAt (valueAt (firstAt doc "choices") "message") "tool_calls").flatMap OpenAI.callOf
  | .anthropic => (entriesAt doc "content").filterMap (toolUseOf rj)
  | .gemini => numberCalls 0
      ((entriesAt (valueAt (firstAt doc "candidates") "content") "parts").filterMap
        (geminiCallOf rj))
  | .openAIResponses => (entriesAt doc "output").filterMap functionCallOf

namespace ToolCallsOf

variable (calls : List ToolCall)

theorem addOpenAI_eq (tc : Json) : addOpenAI calls tc = .ok (calls ++ OpenAI.callOf tc) := by
  unfold addOpenAI OpenAI.callOf
  cases h : tc.isObject with
  | false => simp
  | true =>
    simp only [memberString_eq, memberAs_of_object h, ok_bind]
    cases hf : (valueAt tc "function").isObject with
    | true => simp [object_of_valueAt hf]
    | false => simp [object_of_not_valueAt hf, stringAt_of_not_object hf]

theorem addAnthropic_eq (rj : RapidJson) (calls : List ToolCall) (block : Json) :
    addAnthropic rj calls block = .ok (calls ++ (toolUseOf rj block).toList) := by
  unfold addAnthropic toolUseOf textAt
  rw [field_eq, ok_bind]
  cases hb : block.isObject with
  | false => simp [lookup_of_not_object hb]
  | true =>
    simp only [memberString_eq, objectText_eq hb, ok_bind]
    cases ht : (block.lookup "type").bind text? == some (ascii "tool_use") <;> simp [bne, ht]

theorem addOpenAIResponses_eq (item : Json) :
    addOpenAIResponses calls item = .ok (calls ++ (functionCallOf item).toList) := by
  unfold addOpenAIResponses functionCallOf textAt
  rw [field_eq, ok_bind]
  simp only [memberString_eq, ok_bind]
  cases ht : (item.lookup "type").bind text? == some (ascii "function_call") <;> simp [bne, ht]

theorem addGemini_eq (rj : RapidJson) (calls : List ToolCall) (part : Json) :
    addGemini rj calls part =
      .ok (calls ++ numberCalls calls.length (geminiCallOf rj part).toList) := by
  unfold addGemini geminiCallOf
  rw [field_object_eq, ok_bind]
  cases hf : (valueAt part "functionCall").isObject with
  | false => simp [numberCalls]
  | true => simp [memberString_eq, objectText_eq hf, numberCalls]

theorem foldlM_addGemini (rj : RapidJson) (parts : List Json) (calls : List ToolCall) :
    parts.foldlM (addGemini rj) calls =
      .ok (calls ++ numberCalls calls.length (parts.filterMap (geminiCallOf rj))) := by
  induction parts generalizing calls with
  | nil => simp [numberCalls]
  | cons part parts ih =>
    rw [List.foldlM_cons, addGemini_eq, ok_bind, ih]
    cases hp : geminiCallOf rj part with
    | none => simp [hp, numberCalls]
    | some tc => simp [hp, numberCalls]

end ToolCallsOf

theorem foldlM_toList {β : Type} {step : List β → α → Access (List β)} {f : α → Option β}
    (h : ∀ acc a, step acc a = .ok (acc ++ (f a).toList)) (xs : List α) :
    xs.foldlM step [] = .ok (xs.filterMap f) := by
  rw [foldlM_append (fun a _ acc => h acc a), List.nil_append]
  congr 1
  induction xs with
  | nil => rfl
  | cons x xs ih => cases hx : f x <;> simp [hx, ih]

namespace ToolCallsOf

variable {doc : Json} (h : doc.isObject = true)

include h

theorem openAI_eq : openAI doc =
    .ok ((entriesAt (valueAt (firstAt doc "choices") "message") "tool_calls").flatMap
      OpenAI.callOf) := by
  unfold openAI
  rw [firstOf_eq h, ok_bind]
  cases hc : (entriesAt doc "choices").head? with
  | none => simp [firstAt_of_none hc]
  | some choice =>
    rw [firstAt_of_head hc]
    simp only [field_object_eq, ok_bind]
    cases hm : (valueAt choice "message").isObject with
    | false => simp [entriesAt_of_not_object hm]
    | true =>
      simp only [if_true, memberAs_of_object hm, ok_bind]
      exact foldlM_append (fun tc _ calls => addOpenAI_eq calls tc) []

theorem anthropic_eq (rj : RapidJson) :
    anthropic rj doc = .ok ((entriesAt doc "content").filterMap (toolUseOf rj)) := by
  unfold anthropic
  rw [memberAs_of_object h, ok_bind]
  exact foldlM_toList (addAnthropic_eq rj) _

theorem gemini_eq (rj : RapidJson) : gemini rj doc = .ok (numberCalls 0
      ((entriesAt (valueAt (firstAt doc "candidates") "content") "parts").filterMap
        (geminiCallOf rj))) := by
  unfold gemini
  rw [firstOf_eq h, ok_bind]
  cases hc : (entriesAt doc "candidates").head? with
  | none => simp [firstAt_of_none hc, numberCalls]
  | some candidate =>
    rw [firstAt_of_head hc]
    simp only [candidateParts_eq, ok_bind]; exact foldlM_addGemini rj _ []

theorem openAIResponses_eq :
    openAIResponses doc = .ok ((entriesAt doc "output").filterMap functionCallOf) := by
  unfold openAIResponses
  rw [memberAs_of_object h, ok_bind]
  exact foldlM_toList addOpenAIResponses_eq _

end ToolCallsOf

variable (doc : Json) (usage : Json)

theorem extractToolCalls_eq (rj : RapidJson) (source : Format) {doc : Json}
    (h : doc.isObject) : extractToolCalls rj source doc = .ok (callsOf rj source doc) := by
  cases source with
  | openAIChatCompletions => exact ToolCallsOf.openAI_eq h
  | anthropic => exact ToolCallsOf.anthropic_eq h rj
  | gemini => exact ToolCallsOf.gemini_eq h rj
  | openAIResponses => exact ToolCallsOf.openAIResponses_eq h

def responseModelOf (fallback : Bytes) : Bytes :=
  if !(stringAt doc "model").isEmpty then stringAt doc "model"
  else if (stringAt doc "id").isEmpty then fallback else stringAt doc "id"

def defaultId : Format → Bytes
  | .openAIChatCompletions => "chatcmpl-gateway"
  | .anthropic => "msg_gateway"
  | .openAIResponses => "resp_gateway"
  | .gemini => []

def responseIdOf (target : Format) : Bytes :=
  if !(stringAt doc "id").isEmpty then stringAt doc "id" else defaultId target

theorem responseModel_eq (fallback : Bytes) :
    responseModel doc fallback = .ok (responseModelOf doc fallback) := by
  unfold responseModel responseModelOf
  simp only [memberString_eq, ok_bind]
  cases (stringAt doc "model").isEmpty <;> simp

theorem responseId_eq (target : Format) :
    responseId doc target = .ok (responseIdOf doc target) := by
  unfold responseId responseIdOf
  simp only [memberString_eq, ok_bind]
  cases (stringAt doc "id").isEmpty <;> cases target <;> simp [defaultId]

def countAt (keys : List Bytes) : Int :=
  (keys.findSome? fun key => (usage.lookup key).bind clampedCount).getD 0

theorem usageInteger_eq (keys : List Bytes) :
    usageInteger usage keys = .ok (countAt usage keys) := by
  unfold countAt
  induction keys with
  | nil => rfl
  | cons key keys ih =>
    rw [usageInteger, field_eq, ok_bind, List.findSome?_cons]
    cases (usage.lookup key).bind clampedCount with
    | some n => rfl
    | none => exact ih

def inputCount : Int :=
  countAt usage ["input_tokens", "prompt_tokens", "promptTokenCount"]

def outputCount : Int :=
  countAt usage ["output_tokens", "completion_tokens", "candidatesTokenCount"]

def withDetails (key : Bytes) (cached : Int) : Int :=
  match (usage.lookup key).bind object? with
  | some details => max cached (countAt details ["cached_tokens"])
  | none => cached

def countsOf : Int × Int × Int × Int :=
  (inputCount usage, outputCount usage, countAt usage ["cache_creation_input_tokens"],
    withDetails usage "input_tokens_details" (withDetails usage "prompt_tokens_details"
      (countAt usage ["cache_read_input_tokens", "cachedContentTokenCount"])))

theorem convertedCounts_eq {usage : Json} (h : usage.isObject) :
    convertedCounts usage = .ok (countsOf usage) := by
  unfold convertedCounts countsOf withDetails
  simp only [usageInteger_eq, memberAs_of_object h, ok_bind]
  cases (usage.lookup "prompt_tokens_details").bind object? <;>
    cases (usage.lookup "input_tokens_details").bind object? <;> rfl

def usageObject : Option Json :=
  ((doc.lookup "usage").bind object?).or ((doc.lookup "usageMetadata").bind object?)

def usageOf (target : Format) : List (Bytes × Json) :=
  (usageObject doc).toList.map fun usage => usageMember target (countsOf usage)

theorem addConvertedUsage_eq {doc : Json} (h : doc.isObject) (target : Format) :
    addConvertedUsage doc target = .ok (usageOf doc target) := by
  unfold addConvertedUsage usageOf usageObject
  simp only [memberAs_of_object h, ok_bind]
  cases hu : (doc.lookup "usage").bind object? with
  | some usage => simp [convertedCounts_eq (isObject_of_bind_object? hu)]
  | none =>
    cases hm : (doc.lookup "usageMetadata").bind object? with
    | some usage => simp [convertedCounts_eq (isObject_of_bind_object? hm)]
    | none => simp

theorem lookup_usageOf (target : Format) (hu : key ≠ ascii "usage")
    (hm : key ≠ ascii "usageMetadata") : (object (usageOf doc target)).lookup key = none := by
  unfold usageOf
  cases usageObject doc with
  | none => rfl
  | some usage =>
    cases target <;> simp [usageMember, hu, hm]

def openAIReason (reason : Bytes) : FinishReason :=
  if reason == "stop" then .stop
  else if reason == "length" then .length
  else if reason == "tool_calls" then .toolCalls
  else if reason == "content_filter" then .contentFilter
  else .unknown

def anthropicReason (reason : Bytes) : FinishReason :=
  if reason == "end_turn" then .stop
  else if reason == "max_tokens" then .length
  else if reason == "tool_use" then .toolCalls
  else .unknown

def geminiReason (parts : List Json) (reason : Bytes) : FinishReason :=
  if reason == "STOP" then
    if parts.any fun part => (part.lookup "functionCall").isSome then .toolCalls else .stop
  else if reason == "MAX_TOKENS" then .length
  else if reason == "SAFETY" then .safety
  else if reason == "RECITATION" then .recitation
  else .unknown

def responsesReason (items : List Json) (status : Bytes) : FinishReason :=
  if status == "completed" then
    if items.any fun item => textAt item "type" == some (ascii "function_call") then .toolCalls else
      .stop
  else if status == "incomplete" then .length
  else if status == "failed" then .contentFilter
  else .unknown

def finishReasonOf (source : Format) (doc : Json) : FinishReason :=
  match source with
  | .openAIChatCompletions =>
    ((textAt (firstAt doc "choices") "finish_reason").map openAIReason).getD .unknown
  | .anthropic => ((textAt doc "stop_reason").map anthropicReason).getD .unknown
  | .gemini =>
    ((textAt (firstAt doc "candidates") "finishReason").map (geminiReason
      (entriesAt (valueAt (firstAt doc "candidates") "content") "parts"))).getD .unknown
  | .openAIResponses =>
    ((textAt doc "status").map (responsesReason (entriesAt doc "output"))).getD .unknown

theorem ite_ok (p : Bool) {x y : Access α} {a b : α} (hx : x = .ok a) (hy : y = .ok b) :
    (if p = true then x else y) = .ok (if p = true then a else b) := by
  cases p with
  | true => exact hx
  | false => exact hy

namespace FinishReasonOf

variable {doc : Json} (h : doc.isObject = true)

include h

theorem openAI_eq : openAI doc = .ok (Converter.finishReasonOf .openAIChatCompletions doc) := by
  unfold openAI Converter.finishReasonOf
  rw [firstOf_eq h, ok_bind]
  cases hc : (entriesAt doc "choices").head? with
  | none => simp [firstAt_of_none hc, textAt]
  | some choice =>
    simp only [firstAt_of_head hc, field_eq, ok_bind, ← textAt.eq_def]
    cases textAt choice "finish_reason" with
    | none => rfl
    | some reason => exact ite_ok _ rfl (ite_ok _ rfl (ite_ok _ rfl (ite_ok _ rfl rfl)))

theorem anthropic_eq : anthropic doc = .ok (Converter.finishReasonOf .anthropic doc) := by
  unfold anthropic Converter.finishReasonOf
  simp only [memberAs_of_object h, ok_bind, ← textAt.eq_def]
  cases textAt doc "stop_reason" with
  | none => rfl
  | some reason => exact ite_ok _ rfl (ite_ok _ rfl (ite_ok _ rfl rfl))

omit h in
theorem hasFunctionCall_eq (part : Json) :
    hasFunctionCall part = .ok (part.lookup "functionCall").isSome := by
  unfold hasFunctionCall
  cases hp : part.isObject with
  | true => simp [hasMember_of_object hp]
  | false => simp [lookup_of_not_object hp]

theorem gemini_eq : gemini doc = .ok (Converter.finishReasonOf .gemini doc) := by
  unfold gemini Converter.finishReasonOf
  rw [firstOf_eq h, ok_bind]
  cases hc : (entriesAt doc "candidates").head? with
  | none => simp [firstAt_of_none hc, textAt]
  | some candidate =>
    simp only [firstAt_of_head hc, field_eq, candidateParts_eq, ok_bind, ← textAt.eq_def]
    cases textAt candidate "finishReason" with
    | none => rfl
    | some reason =>
      refine ite_ok _ ?_ (ite_ok _ rfl (ite_ok _ rfl (ite_ok _ rfl rfl)))
      rw [anyM_of_ok fun part _ => hasFunctionCall_eq part, ok_bind]; rfl

theorem openAIResponses_eq :
    openAIResponses doc = .ok (Converter.finishReasonOf .openAIResponses doc) := by
  have hi : ∀ item, isFunctionCallItem item =
      .ok (textAt item "type" == some (ascii "function_call")) := fun item => by
    rw [isFunctionCallItem, field_eq]; rfl
  unfold openAIResponses Converter.finishReasonOf
  simp only [memberAs_of_object h, ok_bind, ← textAt.eq_def]
  cases textAt doc "status" with
  | none => rfl
  | some status =>
    refine ite_ok _ ?_ (ite_ok _ rfl (ite_ok _ rfl rfl))
    rw [anyM_of_ok fun item _ => hi item, ok_bind]; rfl

end FinishReasonOf

theorem parseFinishReason_eq (source : Format) {doc : Json} (h : doc.isObject) :
    parseFinishReason source doc = .ok (finishReasonOf source doc) := by
  cases source with
  | openAIChatCompletions => exact FinishReasonOf.openAI_eq h
  | anthropic => exact FinishReasonOf.anthropic_eq h
  | gemini => exact FinishReasonOf.gemini_eq h
  | openAIResponses => exact FinishReasonOf.openAIResponses_eq h

def firstMessage (doc : Json) : Json := valueAt (firstAt doc "choices") "message"

def foreignContent (message : Json) : Bool :=
  (message.lookup "content").any fun c => !c.isString && !c.isNull

def otherTypeOf (types : List Bytes) (block : Json) : Bool :=
  !(textAt block "type").any types.contains

def foreignItem (item : Json) : Bool :=
  otherTypeOf ["message", "function_call"] item
    || (textAt item "type" == some (ascii "message")
      && (entriesAt item "content").any (otherTypeOf ["output_text"]))

def candidatePartsOf (candidate : Json) : List Json :=
  entriesAt (valueAt candidate "content") "parts"

def foreignPart (part : Json) : Bool :=
  !((part.lookup "text").isSome || (part.lookup "functionCall").isSome)

def unsupportedOf (doc : Json) : Format → Bool
  | .openAIChatCompletions =>
    decide ((entriesAt doc "choices").length > 1)
      || (((firstMessage doc).lookup "refusal").isSome || foreignContent (firstMessage doc))
  | .anthropic => (entriesAt doc "content").any (otherTypeOf ["text", "tool_use"])
  | .openAIResponses => (entriesAt doc "output").any foreignItem
  | .gemini =>
    decide ((entriesAt doc "candidates").length > 1)
      || (entriesAt doc "candidates").any fun candidate =>
        (candidatePartsOf candidate).any foreignPart

namespace UnsupportedShape

theorem otherType_eq (types : List Bytes) (block : Json) :
    otherType types block = .ok (otherTypeOf types block) := by
  unfold otherType otherTypeOf textAt
  rw [field_eq, ok_bind]
  cases (block.lookup "type").bind text? <;> rfl

theorem responsesItem_eq (item : Json) : responsesItem item = .ok (foreignItem item) := by
  unfold responsesItem foreignItem
  rw [otherType_eq, ok_bind, field_eq, ok_bind, ← textAt.eq_def]
  simp only [bind_eq_bind, bind_some, pure_def]
  cases otherTypeOf ["message", "function_call"] item with
  | true => rfl
  | false =>
    rw [if_neg Bool.false_ne_true]
    by_cases ht : (textAt item "type" == some (ascii "message"))
    · have ho : item.isObject := by
        by_contra hn
        rw [textAt, lookup_of_not_object (Bool.eq_false_iff.2 hn)] at ht; cases ht
      rw [if_pos ht, ht, memberAs_of_object ho, ok_bind]
      exact anyM_of_ok fun block _ => otherType_eq _ block
    · rw [if_neg ht, Bool.eq_false_iff.2 ht]; rfl

theorem geminiPart_eq (part : Json) : geminiPart part = .ok (foreignPart part) := by
  unfold geminiPart foreignPart
  cases ho : part.isObject with
  | false => simp [lookup_of_not_object ho]
  | true =>
    simp only [hasMember_of_object ho]
    cases (part.lookup "text").isSome <;> cases (part.lookup "functionCall").isSome <;> rfl

theorem geminiCandidate_eq (candidate : Json) :
    geminiCandidate candidate = .ok ((candidatePartsOf candidate).any foreignPart) := by
  unfold geminiCandidate
  rw [candidateParts_eq, ok_bind]
  exact anyM_of_ok fun part _ => geminiPart_eq part

section

variable {doc : Json} (h : doc.isObject = true)

include h

theorem openAI_eq : openAI doc = .ok (unsupportedOf doc .openAIChatCompletions) := by
  unfold openAI unsupportedOf
  rw [memberAs_of_object h, ok_bind]
  simp only [← entriesAt.eq_def]
  by_cases hmany : (entriesAt doc "choices").length > 1
  · simp [hmany]
  · simp only [hmany, if_false, decide_false, Bool.false_or]
    cases hc : (entriesAt doc "choices").head? with
    | none => simp [firstMessage, firstAt_of_none hc, foreignContent]
    | some choice =>
      rw [firstMessage, firstAt_of_head hc]
      simp only [field_object_eq, ok_bind]
      cases hm : (valueAt choice "message").isObject with
      | false => simp [lookup_of_not_object hm, foreignContent]
      | true =>
        simp only [if_true, hasMember_of_object hm, memberAs_of_object hm, ok_bind,
          foreignContent]
        cases ((valueAt choice "message").lookup "refusal").isSome <;>
          cases (valueAt choice "message").lookup "content" <;> simp

theorem anthropic_eq : anthropic doc = .ok (unsupportedOf doc .anthropic) := by
  unfold anthropic
  rw [memberAs_of_object h, ok_bind]
  exact anyM_of_ok fun block _ => otherType_eq _ block

theorem openAIResponses_eq : openAIResponses doc = .ok (unsupportedOf doc .openAIResponses) := by
  unfold openAIResponses
  rw [memberAs_of_object h, ok_bind]
  exact anyM_of_ok fun item _ => responsesItem_eq item

theorem gemini_eq : gemini doc = .ok (unsupportedOf doc .gemini) := by
  unfold gemini unsupportedOf
  rw [memberAs_of_object h, ok_bind]
  simp only [← entriesAt.eq_def]
  by_cases hm : (entriesAt doc "candidates").length > 1
  · simp [hm]
  · simp only [hm, if_false, decide_false, Bool.false_or]
    exact anyM_of_ok fun candidate _ => geminiCandidate_eq candidate

end

end UnsupportedShape

variable {doc : Json} {out : Bytes}

theorem hasUnsupportedResponseShape_eq (h : doc.isObject) (source : Format) :
    hasUnsupportedResponseShape doc source = .ok (unsupportedOf doc source) := by
  cases source with
  | openAIChatCompletions => exact UnsupportedShape.openAI_eq h
  | anthropic => exact UnsupportedShape.anthropic_eq h
  | gemini => exact UnsupportedShape.gemini_eq h
  | openAIResponses => exact UnsupportedShape.openAIResponses_eq h

def partsOf (rj : RapidJson) (source target : Format) (requestedModel : Bytes) (doc : Json) :
    ResponseParts where
  id := responseIdOf doc target
  model := responseModelOf doc requestedModel
  text := responseTextOf doc
  toolCalls := callsOf rj source doc
  finish := serializeFinishReason
    (if (callsOf rj source doc).isEmpty then finishReasonOf source doc else .toolCalls) target

def convertedDocument (rj : RapidJson) (source target : Format) (requestedModel : Bytes)
    (doc : Json) : Json :=
  .object (responseMembers rj (partsOf rj source target requestedModel doc) target
    ++ usageOf doc target)

theorem readResponse_eq (rj : RapidJson) (source target : Format) (requestedModel : Bytes)
    (h : doc.isObject) : readResponse rj doc source target requestedModel =
      .ok (partsOf rj source target requestedModel doc) := by
  simp only [readResponse, responseText_eq h, responseModel_eq, responseId_eq,
    parseFinishReason_eq source h, extractToolCalls_eq rj source h, ok_bind, pure_eq_ok, partsOf]

theorem convertResponseChecked_of_supported (requestedModel : Bytes)
    (hne : source ≠ target) (hp : rj.parse body = some doc) (ho : doc.isObject)
    (hs : hasUnsupportedResponseShape doc source = .ok false) :
    convertResponseChecked rj body source target requestedModel = .ok {
      success := true
      body := rj.write (convertedDocument rj source target requestedModel doc) } := by
  have hd : (rj.parse body).bind object? = some doc := by rw [hp]; exact if_pos ho
  rw [convertResponseChecked, if_neg hne]
  simp only [hd, convertDocument, hs, readResponse_eq rj source target requestedModel ho,
    addConvertedUsage_eq ho, ok_bind]
  rfl

theorem convertResponseChecked_of_unsupported (requestedModel : Bytes)
    (hne : source ≠ target) (hp : rj.parse body = some doc) (ho : doc.isObject)
    (hs : hasUnsupportedResponseShape doc source = .ok true) :
    convertResponseChecked rj body source target requestedModel = .ok {
      error := "Upstream response contains unsupported tool or multimodal content" } := by
  have hd : (rj.parse body).bind object? = some doc := by rw [hp]; exact if_pos ho
  rw [convertResponseChecked, if_neg hne]
  simp only [hd, convertDocument, hs, ok_bind]
  rfl

def convertedBody (rj : RapidJson) (source target : Format) (requestedModel : Bytes) (doc : Json) :
    Option Bytes :=
  if doc.isObject && !unsupportedOf doc source then
    some (rj.write (convertedDocument rj source target requestedModel doc))
  else none

theorem convertResponseChecked_iff (hne : source ≠ target)
    (hp : rj.parse body = some doc) : convertResponseChecked rj body source target requestedModel =
        .ok { success := true, body := out } ↔
      convertedBody rj source target requestedModel doc = some out := by
  unfold convertedBody
  cases ho : doc.isObject with
  | false =>
    have hd : (rj.parse body).bind object? = none := by
      rw [hp]; exact if_neg (Bool.eq_false_iff.1 ho)
    rw [convertResponseChecked, if_neg hne]
    simp [hd]
  | true =>
    have hs := hasUnsupportedResponseShape_eq ho source
    cases hu : unsupportedOf doc source with
    | true =>
      rw [hu] at hs
      rw [convertResponseChecked_of_unsupported requestedModel hne hp ho hs]; simp
    | false =>
      rw [hu] at hs
      rw [convertResponseChecked_of_supported requestedModel hne hp ho hs]; simp

theorem convertResponseChecked_cases (hne : source ≠ target)
    (h : convertResponseChecked rj body source target requestedModel =
      .ok { success := true, body := out }) :
    ∃ doc, rj.parse body = some doc ∧ doc.isObject ∧
      out = rj.write (convertedDocument rj source target requestedModel doc) := by
  cases hp : rj.parse body with
  | none => rw [convertResponseChecked, if_neg hne, hp] at h; cases h
  | some doc =>
    rw [convertResponseChecked_iff hne hp, convertedBody, ite_none_right_eq_some,
      Bool.and_eq_true] at h
    exact ⟨doc, rfl, h.1.1, (some.inj h.2).symm⟩

end Converter

end Gateway.Protocol
