import Gateway.Protocol.ResponseReading

/-! # Responses keep their content -/

namespace Gateway.Protocol

open Lib Json JsonText List Option

variable {textPart : Json} {α : Type} {parse : Json → Option ToolCall}

namespace Converter

theorem nulFree_of_bind_string? {o : Option Json} {t : Bytes} (h : o.bind string? = some t) :
    NulFree t := by
  obtain ⟨v, -, hv⟩ := bind_eq_some_iff.1 h
  exact nulFree_of_string? hv

theorem nulFree_partsText (parts : List Json) : NulFree (partsText parts) := by
  have hpa : ∀ p, NulFree ((textOf p).getD []) := fun p => by
    cases hp : textOf p with
    | none => exact nulFree_nil
    | some t => exact nulFree_of_bind_string? hp
  induction parts with
  | nil => exact nulFree_nil
  | cons p ps ih => exact (hpa p).append ih

theorem nulFree_outputTextOf (doc : Json) : NulFree (outputTextOf doc) := by
  unfold outputTextOf
  induction entriesAt doc "output" with
  | nil => exact nulFree_nil
  | cons item items ih => exact (nulFree_partsText _).append ih

theorem nulFree_responseTextOf (doc : Json) : NulFree (responseTextOf doc) := by
  unfold responseTextOf
  cases ho : (choiceTextOf doc).or ((doc.lookup "output_text").bind string?) with
  | some t =>
    unfold choiceTextOf at ho
    rcases or_eq_some_iff.1 ho with h | ⟨-, h⟩
    · rcases or_eq_some_iff.1 h with h | ⟨-, h⟩ <;> exact nulFree_of_bind_string? h
    · exact nulFree_of_bind_string? h
  | none =>
    rw [getD_none]
    split
    · exact nulFree_partsText _
    split
    · exact nulFree_outputTextOf doc
    · exact nulFree_partsText _

section

variable {rj : RapidJson} (hrj : Lawful rj)

theorem canonical_numberCalls {tcs : List ToolCall} (h : ∀ tc ∈ tcs, tc.Canonical) (k : Nat) :
    ∀ tc ∈ numberCalls k tcs, tc.Canonical := by
  induction tcs generalizing k with
  | nil => exact nofun
  | cons tc tcs ih =>
    intro t ht
    rcases mem_cons.1 ht with rfl | ht
    · have hn := (h tc mem_cons_self).name
      refine ⟨(hn.append (by decide)).append (nulFree_decimal _), hn, ?_⟩
      exact (h tc mem_cons_self).arguments
    · exact ih (fun t ht => h t (mem_cons_of_mem _ ht)) (k + 1) t ht

include hrj

theorem canonical_callsOf (source : Format) (doc : Json) :
    ∀ tc ∈ callsOf rj source doc, tc.Canonical := by
  have ha := fun j key => (objectTextAt_objectText rj j key).nulFree hrj
  cases source with
  | openAIChatCompletions =>
    intro tc htc
    obtain ⟨v, -, hv⟩ := mem_flatMap.1 htc
    unfold OpenAI.callOf at hv
    split at hv
    · obtain rfl := mem_singleton.1 hv
      exact ⟨nulFree_stringAt _ _, nulFree_stringAt _ _, nulFree_stringAt _ _⟩
    · cases hv
  | anthropic =>
    intro tc htc
    obtain ⟨block, -, hblock⟩ := mem_filterMap.1 htc
    unfold toolUseOf at hblock
    split at hblock
    · cases hblock; exact ⟨nulFree_stringAt _ _, nulFree_stringAt _ _, ha _ _⟩
    · cases hblock
  | gemini =>
    refine canonical_numberCalls (fun tc htc => ?_) 0
    obtain ⟨part, -, hp⟩ := mem_filterMap.1 htc
    unfold geminiCallOf at hp
    split at hp
    · cases hp; exact ⟨nulFree_nil, nulFree_stringAt _ _, ha _ _⟩
    · cases hp
  | openAIResponses =>
    intro tc htc
    obtain ⟨item, -, hi⟩ := mem_filterMap.1 htc
    unfold functionCallOf at hi
    split at hi
    · cases hi; exact ⟨nulFree_stringAt _ _, nulFree_stringAt _ _, nulFree_stringAt _ _⟩
    · cases hi

end

theorem textOf_textBlock (kind : Bytes) {t : Bytes} (h : NulFree t) :
    textOf (textBlock kind t) = some t := by
  simp +decide [textOf, textBlock, string?_str h]

section

variable {doc : Json}

theorem entriesAt_of_lookup_none {key : Bytes} (h : doc.lookup key = none) :
    entriesAt doc key = [] := by
  rw [entriesAt, h]
  rfl

theorem responseTextOf_of_no_choices (hc : doc.lookup "choices" = none)
    (ho : doc.lookup "output_text" = none) : responseTextOf doc =
      if !(contentTextOf doc).isEmpty then contentTextOf doc
      else if !(outputTextOf doc).isEmpty then outputTextOf doc else candidateTextOf doc := by
  simp [responseTextOf, choiceTextOf, firstAt, entriesAt_of_lookup_none hc, ho]

theorem contentTextOf_of_none (h : doc.lookup "content" = none) : contentTextOf doc = [] := by
  rw [contentTextOf, entriesAt_of_lookup_none h]
  rfl

theorem outputTextOf_of_none (h : doc.lookup "output" = none) : outputTextOf doc = [] := by
  rw [outputTextOf, entriesAt_of_lookup_none h]
  rfl

theorem candidateTextOf_of_none (h : doc.lookup "candidates" = none) :
    candidateTextOf doc = [] := by
  simp [candidateTextOf, firstAt, entriesAt_of_lookup_none h, partsText]

end

variable {back : α → ToolCall} {write : α → Json} {calls : List α} (rj : RapidJson)

theorem partsText_written {text : Bytes} (hp : textOf textPart = some text)
    (callPart : α → Json) (hc : ∀ a, textOf (callPart a) = none) (calls : List α) :
    partsText (if ((if text.isEmpty then [] else [textPart]) ++ calls.map callPart).isEmpty
      then [textPart] else (if text.isEmpty then [] else [textPart]) ++ calls.map callPart) =
        text := by
  have hcalls : partsText (calls.map callPart) = [] := by simp [partsText, hc]
  cases text with
  | nil =>
    cases calls with
    | nil => simp [partsText, hp]
    | cons call calls => exact hcalls
  | cons c text => rw [partsText] at hcalls; simp [partsText, hp, hcalls]

theorem responseTextOf_written (target : Format) {r : ResponseParts}
    (ht : NulFree r.text) (doc : Json) :
    responseTextOf (.object (responseMembers rj r target ++ usageOf doc target)) = r.text := by
  have hu : ∀ key : Bytes, key ≠ ascii "usage" → key ≠ ascii "usageMetadata" →
      (object (usageOf doc target)).lookup key = none := fun key => lookup_usageOf doc target
  generalize usageOf doc target = usage at *
  generalize hd : object (responseMembers rj r target ++ usage) = doc'
  cases target with
  | openAIChatCompletions =>
    have hc : ((valueAt (firstAt doc' "choices") "message").lookup "content") = some
        (if r.text.isEmpty && !r.toolCalls.isEmpty then .null else .str r.text) := by
      simp +decide [← hd, responseMembers, openAIResponse, firstAt, entriesAt, valueAt, array?]
    have hch : (firstAt doc' "choices").lookup "text" = none := by
      simp +decide [← hd, responseMembers, openAIResponse, firstAt, entriesAt, array?]
    have hr : ∀ key ∈ [ascii "output_text", ascii "content", ascii "output",
        ascii "candidates"], doc'.lookup key = none := by
      simp +decide [← hd, responseMembers, openAIResponse, hu]
    simp only [mem_cons, not_mem_nil, or_false, forall_eq_or_imp, forall_eq] at hr
    rw [responseTextOf, choiceTextOf, hc, hch, hr.1, contentTextOf_of_none hr.2.1,
      outputTextOf_of_none hr.2.2.1, candidateTextOf_of_none hr.2.2.2]
    split
    · rename_i hn
      rw [Bool.and_eq_true, List.isEmpty_iff] at hn
      rw [hn.1]; rfl
    · simp [string?_str ht]
  | anthropic =>
    have hr : ∀ key ∈ [ascii "choices", ascii "output_text", ascii "output",
        ascii "candidates"], doc'.lookup key = none := by
      simp +decide [← hd, responseMembers, anthropicResponse, hu]
    simp only [mem_cons, not_mem_nil, or_false, forall_eq_or_imp, forall_eq] at hr
    have hc : contentTextOf doc' = r.text := by
      have hblocks := partsText_written (textOf_textBlock "text" ht) (toolUseValue rj)
        (fun tc => by simp +decide [textOf, toolUseValue]) r.toolCalls
      refine Eq.trans ?_ hblocks
      simp +decide [contentTextOf, ← hd, responseMembers, anthropicResponse, entriesAt, array?]
    rw [responseTextOf_of_no_choices hr.1 hr.2.1, hc, outputTextOf_of_none hr.2.2.1,
      candidateTextOf_of_none hr.2.2.2]
    cases r.text <;> rfl
  | openAIResponses =>
    have hcho : doc'.lookup "choices" = none := by
      simp +decide [← hd, responseMembers, responsesResponse, hu]
    have ho : doc'.lookup "output_text" = some (.str r.text) := by
      simp +decide [← hd, responseMembers, responsesResponse]
    simp [responseTextOf, choiceTextOf, firstAt, entriesAt_of_lookup_none hcho, ho, string?_str ht]
  | gemini =>
    have hr : ∀ key ∈ [ascii "choices", ascii "output_text", ascii "content",
        ascii "output"], doc'.lookup key = none := by
      simp +decide [← hd, responseMembers, geminiResponse, hu]
    simp only [mem_cons, not_mem_nil, or_false, forall_eq_or_imp, forall_eq] at hr
    rw [responseTextOf_of_no_choices hr.1 hr.2.1, contentTextOf_of_none hr.2.2.1,
      outputTextOf_of_none hr.2.2.2]
    have hp : textOf (.object [("text", .str r.text)]) = some r.text := by
      simp [textOf, string?_str ht]
    have hpa := partsText_written hp (functionCallPart rj)
      (fun tc => by simp +decide [textOf, functionCallPart]) r.toolCalls
    refine Eq.trans ?_ hpa
    simp +decide [candidateTextOf, ← hd, responseMembers, geminiResponse, firstAt, entriesAt,
      valueAt, array?]

def ObjectArguments (tc : ToolCall) : Prop :=
  ∃ o, rj.parse tc.arguments = some o ∧ o.isObject = true

def nameAndArguments (tc : ToolCall) : Bytes × Option Json :=
  (tc.name, rj.parse tc.arguments)

theorem parse_write_objectOfText {rj : RapidJson} (hrj : Lawful rj) {tc : ToolCall}
    (hc : tc.Canonical) (h : ObjectArguments rj tc) :
    rj.parse (rj.write (objectOfText rj tc.arguments)) = rj.parse tc.arguments := by
  obtain ⟨o, ho, hob⟩ := h
  have hne : tc.arguments ≠ [] := fun hn => by rw [hn, hrj.parse_nil] at ho; cases ho
  have hobj : objectOfText rj tc.arguments = o := by
    simp [objectOfText, hne, hc.arguments.cstr_eq, ho, object?, hob]
  rw [hobj, hrj.parse_write, ho]

theorem map_numberCalls {f : ToolCall → α} (hf : ∀ tc id, f { tc with id } = f tc) (k : Nat)
    (tcs : List ToolCall) : (numberCalls k tcs).map f = tcs.map f := by
  induction tcs generalizing k with
  | nil => rfl
  | cons tc tcs ih => rw [numberCalls, map_cons, map_cons, ih, hf]

theorem filterMap_written (others : List Json) (ho : ∀ p ∈ others, parse p = none)
    (hba : ∀ tc ∈ calls, parse (write tc) = some (back tc)) :
    (others ++ calls.map write).filterMap parse = calls.map back := by
  rw [filterMap_append, filterMap_eq_nil_iff.2 ho, nil_append, filterMap_map, ← filterMap_eq_map]
  exact filterMap_congr hba

theorem filterMap_written_parts (ht : parse textPart = none) (p : Bool)
    (hba : ∀ tc ∈ calls, parse (write tc) = some (back tc)) :
    (if ((if p = true then [] else [textPart]) ++ calls.map write).isEmpty = true then [textPart]
      else (if p = true then [] else [textPart]) ++ calls.map write).filterMap parse =
        calls.map back := by
  cases p with
  | true =>
    cases calls with
    | nil => simp [ht]
    | cons tc calls =>
      have hcalls := filterMap_written [] nofun hba
      exact hcalls
  | false =>
    have hcalls := filterMap_written [textPart] (by simpa using ht) hba
    exact hcalls

section

variable {rj : RapidJson} {r : ResponseParts} (hcalls : ∀ tc ∈ r.toolCalls, tc.Canonical)
  (usage : List (Bytes × Json))

include hcalls

theorem callsOf_openAIResponse :
    callsOf rj .openAIChatCompletions (.object (openAIResponse r ++ usage)) = r.toolCalls := by
  have hm : valueAt (firstAt (.object (openAIResponse r ++ usage)) "choices") "message" =
      objectOf [memberOf "role" (.str "assistant"),
        memberOf "content" (if r.text.isEmpty && !r.toolCalls.isEmpty then .null else .str r.text),
        memberIf (!r.toolCalls.isEmpty) "tool_calls"
          (.array (r.toolCalls.map OpenAI.toolCallValue))] := by
    simp +decide [openAIResponse, firstAt, entriesAt, valueAt, array?]
  have he : entriesAt (objectOf [memberOf "role" (.str "assistant"),
        memberOf "content" (if r.text.isEmpty && !r.toolCalls.isEmpty then .null else .str r.text),
        memberIf (!r.toolCalls.isEmpty) "tool_calls"
          (.array (r.toolCalls.map OpenAI.toolCallValue))]) "tool_calls" =
      r.toolCalls.map OpenAI.toolCallValue :=
    entriesAt_of_lookupIf (by simp +decide)
  rw [callsOf, hm, he,
    flatMap_map_of_singleton fun tc htc => OpenAI.callOf_toolCallValue (hcalls tc htc),
      List.map_id']

theorem callsOf_responsesResponse :
    callsOf rj .openAIResponses (.object (responsesResponse r ++ usage)) = r.toolCalls := by
  have hi : ∀ tc ∈ r.toolCalls, functionCallOf (OpenAIResponses.functionCallValue tc) =
      some tc := by
    intro tc htc
    have h := hcalls tc htc
    simp +decide [functionCallOf, OpenAIResponses.functionCallValue, textAt, stringAt, text?,
      str, string?, h.id.cstr_eq, h.name.cstr_eq, h.arguments.cstr_eq]
  have hm : ∀ (q : Bool) (content : Json), ∀ p ∈ (if q = true then [object [
      ("type", .str "message"), ("role", .str "assistant"), ("content", content)]] else []),
      functionCallOf p = none := by
    intro q content p hp
    cases q with
    | false => cases hp
    | true => obtain rfl := mem_singleton.1 hp; simp +decide [functionCallOf, textAt, text?, str]
  rw [← List.map_id r.toolCalls]
  refine Eq.trans ?_ (filterMap_written _ (hm (!r.text.isEmpty || r.toolCalls.isEmpty)
    (.array [textBlock "output_text" r.text])) hi)
  simp +decide [callsOf, responsesResponse, entriesAt, array?]

end

section

variable (rj : RapidJson) {r : ResponseParts} (hcalls : ∀ tc ∈ r.toolCalls, tc.Canonical)
  (usage : List (Bytes × Json))

def throughObject (tc : ToolCall) : ToolCall :=
  { tc with arguments := rj.write (objectOfText rj tc.arguments) }

include hcalls

theorem callsOf_anthropicResponse :
    callsOf rj .anthropic (.object (anthropicResponse rj r ++ usage)) =
      r.toolCalls.map (throughObject rj) := by
  have hblock : ∀ tc ∈ r.toolCalls, toolUseOf rj (toolUseValue rj tc) =
      some (throughObject rj tc) := by
    intro tc htc
    have h := hcalls tc htc
    simp +decide [toolUseOf, toolUseValue, textAt, stringAt, objectTextAt, text?, str,
      string?, object?, isObject_objectOfText, h.id.cstr_eq, h.name.cstr_eq, throughObject]
  have ht : toolUseOf rj (textBlock "text" r.text) = none := by
    simp +decide [toolUseOf, textBlock, textAt, text?, str]
  refine Eq.trans ?_ (filterMap_written_parts ht r.text.isEmpty hblock)
  simp +decide [callsOf, anthropicResponse, entriesAt, array?]

theorem callsOf_geminiResponse : callsOf rj .gemini (.object (geminiResponse rj r ++ usage)) =
      numberCalls 0 (r.toolCalls.map fun tc => { throughObject rj tc with id := [] }) := by
  have hp : ∀ tc ∈ r.toolCalls, geminiCallOf rj (functionCallPart rj tc) =
      some { throughObject rj tc with id := [] } := by
    intro tc htc
    have h := hcalls tc htc
    simp +decide [geminiCallOf, functionCallPart, valueAt, stringAt, objectTextAt, str,
      string?, object?, isObject_objectOfText, h.name.cstr_eq, throughObject]
  have ht : geminiCallOf rj (.object [("text", .str r.text)]) = none := by
    simp +decide [geminiCallOf, valueAt]
  refine Eq.trans ?_ (congrArg (numberCalls 0) (filterMap_written_parts ht r.text.isEmpty hp))
  simp +decide [callsOf, geminiResponse, firstAt, entriesAt, valueAt, array?]

end

theorem callsOf_written {rj : RapidJson} (hrj : Lawful rj) (target : Format) {r : ResponseParts}
    (hcalls : ∀ tc ∈ r.toolCalls, tc.Canonical)
    (ha : ∀ tc ∈ r.toolCalls, ObjectArguments rj tc) (usage : List (Bytes × Json)) :
    (callsOf rj target (.object (responseMembers rj r target ++ usage))).map (nameAndArguments rj) =
        r.toolCalls.map (nameAndArguments rj) ∧ (target ≠ .gemini →
        (callsOf rj target (.object (responseMembers rj r target ++ usage))).map (·.id) =
          r.toolCalls.map (·.id)) := by
  have ho : (r.toolCalls.map (throughObject rj)).map (nameAndArguments rj) =
      r.toolCalls.map (nameAndArguments rj) := by
    rw [List.map_map]
    refine map_congr_left fun tc htc => ?_
    have hp := parse_write_objectOfText hrj (hcalls tc htc) (ha tc htc)
    exact congrArg (Prod.mk tc.name) hp
  cases target with
  | openAIChatCompletions =>
    rw [responseMembers, callsOf_openAIResponse hcalls]
    exact ⟨rfl, fun _ => rfl⟩
  | openAIResponses =>
    rw [responseMembers, callsOf_responsesResponse hcalls]
    exact ⟨rfl, fun _ => rfl⟩
  | anthropic =>
    rw [responseMembers, callsOf_anthropicResponse rj hcalls]
    refine ⟨ho, fun _ => ?_⟩
    rw [List.map_map]; rfl
  | gemini =>
    rw [responseMembers, callsOf_geminiResponse rj hcalls]
    refine ⟨?_, fun hne => absurd rfl hne⟩
    rw [map_numberCalls fun _ _ => rfl, ← ho, List.map_map, List.map_map]; rfl

theorem response_content_kept {rj : RapidJson} (hrj : Lawful rj) {source target : Format}
    (hne : source ≠ target) {body out requestedModel : Bytes} {doc : Json}
    (hparse : rj.parse body = some doc)
    (hconvert : convertResponseChecked rj body source target requestedModel =
      .ok { success := true, body := out })
    {calls : List ToolCall} (hcalls : extractToolCalls rj source doc = .ok calls)
    (hargs : ∀ tc ∈ calls, ObjectArguments rj tc) :
    ∃ doc' text calls', rj.parse out = some doc' ∧
      responseText doc = .ok text ∧ responseText doc' = .ok text ∧
      extractToolCalls rj target doc' = .ok calls' ∧
      calls'.map (nameAndArguments rj) = calls.map (nameAndArguments rj) ∧
      (source ≠ .gemini → target ≠ .gemini → calls'.map (·.id) = calls.map (·.id)) := by
  obtain ⟨doc₀, hparse₀, hobj, rfl⟩ := convertResponseChecked_cases hne hconvert
  obtain rfl := some.inj (hparse.symm.trans hparse₀)
  obtain rfl := Except.ok.inj ((extractToolCalls_eq rj source hobj).symm.trans hcalls)
  have hcanonical := canonical_callsOf hrj source doc
  obtain ⟨hnames, hids⟩ := callsOf_written hrj target
    (r := partsOf rj source target requestedModel doc) hcanonical hargs (usageOf doc target)
  refine ⟨convertedDocument rj source target requestedModel doc, responseTextOf doc, _,
    hrj.parse_write _, responseText_eq hobj, ?_, extractToolCalls_eq rj target rfl, hnames,
    fun _ => hids⟩
  rw [responseText_eq rfl]
  exact congrArg _ (responseTextOf_written rj target (nulFree_responseTextOf doc) doc)

def weatherAnswer : Json := .object [
  ("id", .str "msg_1"), ("type", .str "message"), ("model", .str "claude"),
  ("content", .array [
    .object [("type", .str "text"), ("text", .str "Let me look.")],
    .object [("type", .str "tool_use"), ("id", .str "toolu_1"), ("name", .str "get_weather"),
      ("input", .object [("city", .str "Rome")])]]),
  ("stop_reason", .str "tool_use")]

theorem weatherAnswer_kept : ∃ out doc' text calls calls',
      convertResponseChecked compact (compact.write weatherAnswer) .anthropic
        .openAIChatCompletions [] = .ok { success := true, body := out } ∧
      extractToolCalls compact .anthropic weatherAnswer = .ok calls ∧ calls.length = 1 ∧
      compact.parse out = some doc' ∧
      responseText weatherAnswer = .ok text ∧ responseText doc' = .ok text ∧
      extractToolCalls compact .openAIChatCompletions doc' = .ok calls' ∧
      calls'.map (nameAndArguments compact) =
        calls.map (nameAndArguments compact) := by
  have hread := lawful_compact.parse_write weatherAnswer
  have hcalls := extractToolCalls_eq compact .anthropic
    (rfl : weatherAnswer.isObject)
  have hlist : callsOf compact .anthropic weatherAnswer = [{
      id := "toolu_1", name := "get_weather"
      arguments := compact.write (.object [("city", .str "Rome")]) }] := by decide
  rw [hlist] at hcalls
  have hconvert := convertResponseChecked_of_supported []
    (by decide : Format.anthropic ≠ .openAIChatCompletions) hread rfl rfl
  have hargs : ∀ tc ∈ [({
      id := "toolu_1", name := "get_weather"
      arguments := compact.write (.object [("city", .str "Rome")]) } : ToolCall)],
      ObjectArguments compact tc := by
    intro tc htc
    obtain rfl := mem_singleton.1 htc
    exact ⟨_, lawful_compact.parse_write _, rfl⟩
  obtain ⟨doc', text, calls', hout, htext, htext', hback, hsame, -⟩ :=
    response_content_kept lawful_compact (by decide) hread hconvert hcalls hargs
  exact ⟨_, doc', text, _, calls', hconvert, hcalls, rfl, hout, htext, htext', hback, hsame⟩

end Converter

end Gateway.Protocol
