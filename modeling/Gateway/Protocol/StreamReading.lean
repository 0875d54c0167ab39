import Gateway.Protocol.Canonical

/-! # What the streaming parsers read -/

namespace Gateway.Protocol

open Lib Json Converter Option
open Bool (false_eq_true)

def toolCallOk (delta : Json) : Bool :=
  (delta.lookup "role").isSome && (delta.lookup "content").isSome
    || ((delta.lookup "content").bind string?).isSome
    || (entriesAt delta "tool_calls").head?.all isObject

def choiceOk (choice : Json) : Bool :=
  choice.isObject && ((choice.lookup "delta").bind object?).all toolCallOk

def chunkOk (source : Format) (doc : Json) : Bool :=
  match source with
  | .anthropic => true
  | .openAIChatCompletions => (entriesAt doc "choices").head?.all choiceOk
  | .openAIResponses => true
  | .gemini => (entriesAt doc "candidates").head?.all isObject

def intAt (j : Json) (key : Bytes) : Int := ((j.lookup key).bind int?).getD 0

theorem intAt_of_not_object {j : Json} (h : j.isObject = false) (key : Bytes) :
    intAt j key = 0 := by
  rw [intAt, lookup_of_not_object h]
  rfl

namespace OpenAI

variable {doc : Json} (delta : StreamDelta)

def toolCallDeltaOf (tc : Json) : StreamDelta :=
  { delta with
    type := .toolCallDelta
    index := intAt tc "index"
    toolCallId := stringAt tc "id"
    toolName := stringAt (valueAt tc "function") "name"
    toolArgumentsDelta := stringAt (valueAt tc "function") "arguments" }

def opensMessage (d : Json) : Bool := (d.lookup "role").isSome && (d.lookup "content").isSome

def choiceDeltaOf (choice : Json) : StreamDelta :=
  let delta := { delta with finishReason := stringAt choice "finish_reason" }
  let d := valueAt choice "delta"
  if !d.isObject then delta
  else if opensMessage d then { delta with type := .messageStart }
  else
    match (d.lookup "content").bind string? with
    | some text => { delta with type := .textDelta, text }
    | none =>
      match entriesAt d "tool_calls" with
      | tc :: _ => toolCallDeltaOf delta tc
      | [] => if delta.finishReason.isEmpty then delta else { delta with type := .messageEnd }

def deltaOf (doc : Json) : StreamDelta :=
  let delta : StreamDelta := { model := stringAt doc "model", id := stringAt doc "id" }
  match entriesAt doc "choices" with
  | choice :: _ => choiceDeltaOf delta choice
  | [] => delta

theorem readToolCallDelta_eq {delta : StreamDelta} (hid : delta.toolCallId = [])
    (hn : delta.toolName = []) (ha : delta.toolArgumentsDelta = [])
    (hi : delta.index = 0) {tc : Json} (h : tc.isObject) :
    readToolCallDelta delta tc = .ok (toolCallDeltaOf delta tc) := by
  unfold readToolCallDelta toolCallDeltaOf
  simp only [memberAs_of_object h, ok_bind, hid, hn, ha, hi]
  cases hf : (valueAt tc "function").isObject with
  | false =>
    rw [object_of_not_valueAt hf, stringAt_of_not_object hf, stringAt_of_not_object hf]
    rfl
  | true => rw [object_of_valueAt hf]; simp only [memberAs_of_object hf, ok_bind]; rfl

theorem readChoice_eq {model id : Bytes} {choice : Json} (hok : choiceOk choice) :
    readChoice { model, id } choice = .ok (choiceDeltaOf { model, id } choice) := by
  obtain ⟨hob, hde⟩ := Bool.and_eq_true_iff.1 hok
  unfold readChoice choiceDeltaOf stringAt
  simp only [memberAs_of_object hob, ok_bind]
  generalize ((choice.lookup "finish_reason").bind string?).getD [] = reason
  cases hd : (valueAt choice "delta").isObject with
  | false => rw [object_of_not_valueAt hd]; rfl
  | true =>
    rw [object_of_valueAt hd] at hde ⊢
    simp only [memberAs_of_object hd, hasMember_of_object hd, ok_bind, ok_and_ok,
      Bool.not_true, false_eq_true, if_false]
    generalize valueAt choice "delta" = d at hd hde ⊢
    cases ho : opensMessage d with
    | true => rw [opensMessage] at ho; simp only [ho, if_true]; rfl
    | false =>
      have ho' := ho
      rw [opensMessage] at ho'
      simp only [ho', false_eq_true, if_false]
      cases hc : (d.lookup "content").bind string? with
      | some text => rfl
      | none =>
        simp only [all_some, toolCallOk, ho', hc, isSome_none, Bool.false_or]
          at hde
        unfold entriesAt at hde ⊢
        rcases hcalls : (d.lookup "tool_calls").bind array? with _ | _ | ⟨tc, tcs⟩
        · cases reason <;> rfl
        · cases reason <;> rfl
        · have htc : tc.isObject := by simpa [hcalls] using hde
          simpa using readToolCallDelta_eq rfl rfl rfl rfl htc

theorem readStreamEvent_eq (h : doc.isObject)
    (hok : chunkOk .openAIChatCompletions doc) : readStreamEvent doc = .ok (deltaOf doc) := by
  unfold readStreamEvent deltaOf
  simp only [memberAs_of_object h, ok_bind]
  unfold chunkOk at hok
  unfold entriesAt at hok ⊢
  rcases hc : (doc.lookup "choices").bind array? with _ | _ | ⟨choice, choices⟩
  · rfl
  · rfl
  · rw [hc] at hok; exact readChoice_eq (by simpa using hok)

theorem readToolCallDelta_safe_iff (tc : Json) :
    Safe (readToolCallDelta delta tc) ↔ tc.isObject := by
  unfold readToolCallDelta
  cases h : tc.isObject with
  | false => simp [memberAs_of_not_object h]
  | true =>
    simp only [memberAs_of_object h, ok_bind, iff_true]
    split
    · rename_i hf
      simp only [memberAs_of_object (isObject_of_bind_object? hf), ok_bind]
      exact safe_ok _
    · exact safe_ok _

theorem readChoice_safe_iff (choice : Json) : Safe (readChoice delta choice) ↔ choiceOk choice := by
  unfold readChoice choiceOk
  cases h : choice.isObject with
  | false => simp [memberAs_of_not_object h]
  | true =>
    simp only [memberAs_of_object h, ok_bind, Bool.true_and]
    cases hd : (choice.lookup "delta").bind object? with
    | none => simp
    | some d =>
      have ho := isObject_of_bind_object? hd
      simp only [memberAs_of_object ho, hasMember_of_object ho, ok_bind,
        ok_and_ok, all_some, toolCallOk, entriesAt]
      cases (d.lookup "role").isSome && (d.lookup "content").isSome with
      | true => simp
      | false =>
        cases (d.lookup "content").bind string? with
        | some text => simp
        | none =>
          rcases (d.lookup "tool_calls").bind array? with _ | _ | ⟨tc, tcs⟩
          · simp only [false_eq_true, if_false]
            simpa using Safe.ite (fun _ => safe_ok _) fun _ => safe_ok _
          · simp only [false_eq_true, if_false]
            simpa using Safe.ite (fun _ => safe_ok _) fun _ => safe_ok _
          · simp [readToolCallDelta_safe_iff]

theorem readStreamEvent_safe_iff (h : doc.isObject) :
    Safe (readStreamEvent doc) ↔ chunkOk .openAIChatCompletions doc := by
  unfold readStreamEvent chunkOk entriesAt
  simp only [memberAs_of_object h, ok_bind]
  rcases (doc.lookup "choices").bind array? with _ | _ | ⟨choice, choices⟩
  · simp
  · simp
  · simp [readChoice_safe_iff]

end OpenAI

namespace Anthropic

variable (doc : Json)

def stopReasonOf : Bytes :=
  let reason := stringAt (valueAt doc "delta") "stop_reason"
  if reason == "end_turn" then "stop"
  else if reason == "tool_use" then "tool_calls"
  else reason

def messageStartOf : StreamDelta where
  type := .messageStart
  id := stringAt (valueAt doc "message") "id"
  model := stringAt (valueAt doc "message") "model"
  inputTokens := intAt (valueAt (valueAt doc "message") "usage") "input_tokens"

def contentBlockStartOf : StreamDelta :=
  let block := valueAt doc "content_block"
  if stringAt block "type" == "tool_use" then {
    type := .contentStart, index := intAt doc "index"
    toolCallId := stringAt block "id", toolName := stringAt block "name" }
  else { type := .contentStart, index := intAt doc "index" }

def contentBlockDeltaOf : StreamDelta :=
  let d := valueAt doc "delta"
  if stringAt d "type" == "text_delta" then
    { type := .textDelta, index := intAt doc "index", text := stringAt d "text" }
  else if stringAt d "type" == "input_json_delta" then {
    type := .toolCallDelta, index := intAt doc "index"
    toolArgumentsDelta := stringAt d "partial_json" }
  else { index := intAt doc "index" }

def messageDeltaOf : StreamDelta where
  type := .messageEnd
  finishReason := stopReasonOf doc
  outputTokens := intAt (valueAt doc "usage") "output_tokens"

def deltaOf (eventType : Bytes) (doc : Json) : StreamDelta :=
  if eventType == "message_start" then messageStartOf doc
  else if eventType == "content_block_start" then contentBlockStartOf doc
  else if eventType == "content_block_delta" then contentBlockDeltaOf doc
  else if eventType == "content_block_stop" then
    { type := .contentEnd, index := intAt doc "index" }
  else if eventType == "message_delta" then messageDeltaOf doc
  else if eventType == "message_stop" then { type := .done }
  else {}

section

variable {doc : Json} (h : doc.isObject = true)

include h

theorem usageCount_eq (key : Bytes) :
    usageCount doc key = .ok (intAt (valueAt doc "usage") key) := by
  unfold usageCount
  rw [memberAs_of_object h, ok_bind]
  cases hu : (valueAt doc "usage").isObject with
  | false => rw [object_of_not_valueAt hu, intAt_of_not_object hu]; rfl
  | true => rw [object_of_valueAt hu]; simp only [memberAs_of_object hu, ok_bind]; rfl

theorem readMessageStart_eq : readMessageStart doc = .ok (messageStartOf doc) := by
  unfold readMessageStart messageStartOf
  rw [memberAs_of_object h, ok_bind]
  cases hm : (valueAt doc "message").isObject with
  | false =>
    have hu : (valueAt (valueAt doc "message") "usage").isObject = false := by
      rw [valueAt, lookup_of_not_object hm]; rfl
    rw [object_of_not_valueAt hm, stringAt_of_not_object hm, stringAt_of_not_object hm,
      intAt_of_not_object hu]
    rfl
  | true =>
    rw [object_of_valueAt hm]
    simp only [memberAs_of_object hm, ok_bind, usageCount_eq hm]; rfl

theorem readContentBlockStart_eq : readContentBlockStart doc = .ok (contentBlockStartOf doc) := by
  unfold readContentBlockStart contentBlockStartOf
  simp only [memberAs_of_object h, ok_bind]
  cases hb : (valueAt doc "content_block").isObject with
  | false => rw [object_of_not_valueAt hb, stringAt_of_not_object hb]; rfl
  | true =>
    rw [object_of_valueAt hb]
    simp only [getStr_eq hb, ok_bind]
    split <;> rfl

theorem readContentBlockDelta_eq : readContentBlockDelta doc = .ok (contentBlockDeltaOf doc) := by
  unfold readContentBlockDelta contentBlockDeltaOf
  simp only [memberAs_of_object h, ok_bind]
  cases hd : (valueAt doc "delta").isObject with
  | false => rw [object_of_not_valueAt hd, stringAt_of_not_object hd]; rfl
  | true =>
    rw [object_of_valueAt hd]
    simp only [getStr_eq hd, ok_bind]
    split
    · rfl
    split <;> rfl

theorem readStopReason_eq : readStopReason doc = .ok (stopReasonOf doc) := by
  unfold readStopReason stopReasonOf
  rw [memberAs_of_object h, ok_bind]
  cases hd : (valueAt doc "delta").isObject with
  | false => rw [object_of_not_valueAt hd, stringAt_of_not_object hd]; rfl
  | true =>
    rw [object_of_valueAt hd]
    simp only [getStr_eq hd, ok_bind]
    split
    · rfl
    split <;> rfl

theorem readStreamEvent_eq (eventType : Bytes) :
    readStreamEvent eventType doc = .ok (deltaOf eventType doc) := by
  unfold readStreamEvent deltaOf readMessageDelta
  simp only [readMessageStart_eq h, readContentBlockStart_eq h, readContentBlockDelta_eq h,
    readStopReason_eq h, usageCount_eq h, memberAs_of_object h, ok_bind]
  repeat' (split; · rfl)
  rfl

end

end Anthropic

namespace OpenAIResponses

def endsContent (type : Bytes) : Bool :=
  type == "response.output_text.done" || type == "response.output_item.done" ||
    type == "response.content_part.done" || type == "response.content_part.added"

def deltaOf (doc : Json) : StreamDelta :=
  let type := stringAt doc "type"
  if type == "response.created" then { type := .messageStart }
  else if type == "response.output_item.added" then { type := .contentStart }
  else if type == "response.output_text.delta" then
    { type := .textDelta, text := stringAt doc "delta" }
  else if type == "response.function_call_arguments.delta" then {
    type := .toolCallDelta
    toolArgumentsDelta := stringAt doc "delta"
    toolCallId := stringAt doc "call_id"
    toolName := stringAt doc "name" }
  else if type == "response.completed" then { type := .done }
  else if endsContent type then { type := .contentEnd }
  else {}

theorem readStreamEvent_eq {doc : Json} (h : doc.isObject) :
    readStreamEvent doc = .ok (deltaOf doc) := by
  unfold readStreamEvent deltaOf endsContent
  simp only [getStr_eq h, ok_bind]
  repeat' (split; · rfl)
  rfl

end OpenAIResponses

namespace Gemini

variable (rj : RapidJson) (cand : Json)

def partDeltaOf (delta : StreamDelta) (p : Json) : Option StreamDelta :=
  match textOf p with
  | some text => if text.isEmpty then none else some { delta with type := .textDelta, text }
  | none =>
    if (valueAt p "functionCall").isObject then
      some { delta with
        type := .toolCallDelta
        toolName := stringAt (valueAt p "functionCall") "name"
        toolArgumentsDelta := objectTextAt rj (valueAt p "functionCall") "args" }
    else none

def finishOf : StreamDelta :=
  match (cand.lookup "finishReason").bind string? with
  | some reason => { type := .messageEnd, finishReason := readFinishReason reason }
  | none => {}

def candidateParts : List Json := entriesAt (valueAt cand "content") "parts"

def candidateDeltaOf (cand : Json) : StreamDelta :=
  ((candidateParts cand).findSome? (partDeltaOf rj (finishOf cand))).getD (finishOf cand)

def deltaOf (doc : Json) : StreamDelta :=
  match entriesAt doc "candidates" with
  | cand :: _ => candidateDeltaOf rj cand
  | [] => {}

variable (rj : RapidJson)

theorem readParts_eq (delta : StreamDelta) (parts : List Json) :
    readParts rj delta parts = .ok ((parts.findSome? (partDeltaOf rj delta)).getD delta) := by
  induction parts with
  | nil => rfl
  | cons p ps ih =>
    unfold readParts
    rw [List.findSome?_cons]
    cases h : p.isObject with
    | false =>
      have hp : partDeltaOf rj delta p = none := by
        simp [partDeltaOf, textOf, valueAt, lookup_of_not_object h, isObject]
      simpa [hp] using ih
    | true =>
      simp only [memberAs_of_object h, ok_bind, Bool.not_true, false_eq_true, if_false]
      rw [partDeltaOf, ← textOf.eq_def p]
      cases textOf p with
      | some text => cases text <;> simp [ih, pure, Except.pure]
      | none =>
        cases hf : (valueAt p "functionCall").isObject with
        | false => rw [object_of_not_valueAt hf]; simpa using ih
        | true =>
          rw [object_of_valueAt hf]
          simp only [getStr_eq hf, objectText_eq hf, ok_bind, if_true, getD_some]; rfl

def readContent (rj : RapidJson) (cand : Json) (delta : StreamDelta) : Access StreamDelta := do
  let some content := (cand.lookup "content").bind object? | pure delta
  let some parts ← content.memberAs "parts" array? | pure delta
  readParts rj delta parts

theorem readCandidate_eq {cand : Json} (h : cand.isObject) :
    readCandidate rj cand = .ok (candidateDeltaOf rj cand) := by
  have hp : ∀ delta : StreamDelta, readContent rj cand delta =
        .ok (((candidateParts cand).findSome? (partDeltaOf rj delta)).getD delta) := by
    intro delta
    unfold readContent candidateParts
    cases hc : (valueAt cand "content").isObject with
    | false => rw [object_of_not_valueAt hc, entriesAt_of_not_object hc]; rfl
    | true =>
      rw [object_of_valueAt hc]
      simp only [memberAs_of_object hc, ok_bind]
      unfold entriesAt
      cases ((valueAt cand "content").lookup "parts").bind array? with
      | none => rfl
      | some parts => exact readParts_eq rj delta parts
  unfold readCandidate candidateDeltaOf finishOf
  simp only [memberAs_of_object h, ok_bind]
  cases (cand.lookup "finishReason").bind string? with
  | none => exact hp _
  | some reason => exact hp _

theorem readStreamEvent_eq {doc : Json} (h : doc.isObject) (hok : chunkOk .gemini doc) :
    readStreamEvent rj doc = .ok (deltaOf rj doc) := by
  unfold readStreamEvent deltaOf
  simp only [memberAs_of_object h, ok_bind]
  unfold chunkOk at hok
  unfold entriesAt at hok ⊢
  rcases hc : (doc.lookup "candidates").bind array? with _ | _ | ⟨cand, cands⟩
  · rfl
  · rfl
  · rw [hc] at hok; exact readCandidate_eq rj (by simpa using hok)

theorem readStreamEvent_safe_iff {doc : Json} (h : doc.isObject) :
    Safe (readStreamEvent rj doc) ↔ chunkOk .gemini doc := by
  refine ⟨fun hs => ?_, fun hok => ⟨_, readStreamEvent_eq rj h hok⟩⟩
  unfold readStreamEvent at hs
  unfold chunkOk entriesAt
  simp only [memberAs_of_object h, ok_bind] at hs
  rcases hc : (doc.lookup "candidates").bind array? with _ | _ | ⟨cand, cands⟩
  · rfl
  · rfl
  · rw [hc] at hs
    by_contra hn
    have hcand : cand.isObject = false := by simpa using hn
    simp [readCandidate, memberAs_of_not_object hcand] at hs

end Gemini

variable {data : Bytes} (rj : RapidJson)

def deltaOf (rj : RapidJson) (source : Format) (eventType : Bytes) (doc : Json) : StreamDelta :=
  match source with
  | .anthropic => Anthropic.deltaOf eventType doc
  | .openAIChatCompletions => OpenAI.deltaOf doc
  | .openAIResponses => OpenAIResponses.deltaOf doc
  | .gemini => Gemini.deltaOf rj doc

def isDonePayload (source : Format) (data : Bytes) : Bool :=
  data == "[DONE]" && (source == .openAIChatCompletions || source == .gemini)

theorem parseStreamEvent_safe_iff (source : Format) (eventType data : Bytes) :
    Safe (parseStreamEvent rj source eventType data) ↔ isDonePayload source data ∨
        ∀ doc, (rj.parse data).bind object? = some doc → chunkOk source doc := by
  cases source with
  | anthropic =>
    refine Iff.trans ?_ (or_iff_right (by simp [isDonePayload])).symm
    exact safe_ofDocument_iff fun _ h =>
      iff_of_true ⟨_, Anthropic.readStreamEvent_eq h eventType⟩ rfl
  | openAIChatCompletions =>
    by_cases hd : data = "[DONE]"
    · subst hd; exact iff_of_true ⟨_, rfl⟩ (Or.inl rfl)
    · refine Iff.trans ?_ (or_iff_right (by simp [isDonePayload, hd])).symm
      unfold parseStreamEvent OpenAI.parseStreamEvent
      simp only [beq_iff_eq, hd, if_false]
      exact safe_ofDocument_iff fun _ h => OpenAI.readStreamEvent_safe_iff h
  | openAIResponses =>
    refine Iff.trans ?_ (or_iff_right (by simp [isDonePayload])).symm
    exact safe_ofDocument_iff fun _ h => iff_of_true ⟨_, OpenAIResponses.readStreamEvent_eq h⟩ rfl
  | gemini =>
    by_cases hd : data = "[DONE]"
    · subst hd; exact iff_of_true ⟨_, rfl⟩ (Or.inl rfl)
    · refine Iff.trans ?_ (or_iff_right (by simp [isDonePayload, hd])).symm
      unfold parseStreamEvent Gemini.parseStreamEvent
      simp only [beq_iff_eq, hd, if_false]
      exact safe_ofDocument_iff fun _ h => Gemini.readStreamEvent_safe_iff rj h

def readableDocument (source : Format) (data : Bytes) : Option Json :=
  ((rj.parse data).bind object?).filter (chunkOk source)

def streamDelta (source : Format) (eventType data : Bytes) : StreamDelta :=
  if isDonePayload source data then { type := .done }
  else ((readableDocument rj source data).map (deltaOf rj source eventType)).getD {}

variable {source : Format}

theorem parseStreamEvent_of_done (h : isDonePayload source data)
    (eventType : Bytes) : parseStreamEvent rj source eventType data = .ok { type := .done } := by
  obtain ⟨hd, hs⟩ := Bool.and_eq_true_iff.1 h
  have hd := eq_of_beq hd
  subst hd
  cases source with
  | anthropic => cases hs
  | openAIChatCompletions => rfl
  | openAIResponses => cases hs
  | gemini => rfl

theorem parseStreamEvent_of_not_done
    (h : isDonePayload source data = false) (eventType : Bytes) :
    parseStreamEvent rj source eventType data = match (rj.parse data).bind object? with
      | some doc =>
        match source with
        | .anthropic => Anthropic.readStreamEvent eventType doc
        | .openAIChatCompletions => OpenAI.readStreamEvent doc
        | .openAIResponses => OpenAIResponses.readStreamEvent doc
        | .gemini => Gemini.readStreamEvent rj doc
      | none => .ok {} := by
  cases source with
  | anthropic => rfl
  | openAIResponses => rfl
  | openAIChatCompletions =>
    have hd : (data == "[DONE]") = false := by simpa [isDonePayload] using h
    simp only [parseStreamEvent, OpenAI.parseStreamEvent, hd, false_eq_true, if_false]
    rfl
  | gemini =>
    have hd : (data == "[DONE]") = false := by simpa [isDonePayload] using h
    simp only [parseStreamEvent, Gemini.parseStreamEvent, hd, false_eq_true, if_false]
    rfl

theorem parseStreamEvent_eq (source : Format) (eventType data : Bytes) :
    (parseStreamEvent rj source eventType data).toOption.getD {} =
      streamDelta rj source eventType data := by
  unfold streamDelta readableDocument
  cases hd : isDonePayload source data with
  | true => rw [parseStreamEvent_of_done rj hd]; rfl
  | false =>
    cases hdo : (rj.parse data).bind object? with
    | none => rw [parseStreamEvent_of_not_done rj hd, hdo]; rfl
    | some doc =>
      have ho := isObject_of_bind_object? hdo
      cases hok : chunkOk source doc with
      | false =>
        have hf : ¬ Safe (parseStreamEvent rj source eventType data) := by
          rw [parseStreamEvent_safe_iff]
          rintro (h | h)
          · rw [hd] at h; cases h
          · rw [h doc hdo] at hok; cases hok
        simp only [false_eq_true, if_false, filter_some, hok, map_none]
        cases hm : parseStreamEvent rj source eventType data with
        | ok delta => exact absurd ⟨delta, hm⟩ hf
        | error e => rfl
      | true =>
        rw [parseStreamEvent_of_not_done rj hd, hdo]
        simp only [false_eq_true, if_false, filter_some, hok, if_true, map_some]
        cases source with
        | anthropic => simp only [Anthropic.readStreamEvent_eq ho]; rfl
        | openAIChatCompletions => simp only [OpenAI.readStreamEvent_eq ho hok]; rfl
        | openAIResponses => simp only [OpenAIResponses.readStreamEvent_eq ho]; rfl
        | gemini => simp only [Gemini.readStreamEvent_eq rj ho hok]; rfl

end Gateway.Protocol
