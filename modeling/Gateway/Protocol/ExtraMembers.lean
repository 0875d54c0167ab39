import Gateway.Protocol.FinishReasons

/-! # Members that a response format does not have -/

namespace Gateway.Protocol.Converter

open Lib Json JsonText
open List hiding after

def textProbes : List (Bytes × (Json → Option Bytes)) := [
  ("choices", choiceTextOf),
  ("output_text", fun doc => (doc.lookup "output_text").bind string?),
  ("content", fun doc => nonEmpty (contentTextOf doc)),
  ("output", fun doc => nonEmpty (outputTextOf doc)),
  ("candidates", fun doc => nonEmpty (candidateTextOf doc))]

theorem responseTextOf_eq_probes (doc : Json) :
    responseTextOf doc = (textProbes.findSome? (·.2 doc)).getD [] := by
  unfold responseTextOf textProbes nonEmpty
  simp only [findSome?_cons, findSome?_nil]
  cases choiceTextOf doc with
  | some text => rfl
  | none =>
    cases (doc.lookup "output_text").bind string? with
    | some text => rfl
    | none =>
      cases (contentTextOf doc).isEmpty with
      | false => simp
      | true =>
        cases (outputTextOf doc).isEmpty with
        | false => simp
        | true => cases candidateTextOf doc <;> simp

variable {probe : Bytes × (Json → Option Bytes)}

section

variable {doc doc' : Json} {key : Bytes}

theorem entriesAt_congr (h : doc'.lookup key = doc.lookup key) :
    entriesAt doc' key = entriesAt doc key := by
  rw [entriesAt, h]
  rfl

theorem firstAt_congr (h : doc'.lookup key = doc.lookup key) :
    firstAt doc' key = firstAt doc key := by
  rw [firstAt, entriesAt_congr h]
  rfl

theorem probe_congr (hp : probe ∈ textProbes) (h : doc'.lookup probe.1 = doc.lookup probe.1) :
    probe.2 doc' = probe.2 doc := by
  simp only [textProbes, mem_cons, not_mem_nil, or_false] at hp
  rcases hp with rfl | rfl | rfl | rfl | rfl
  · simp only [choiceTextOf, firstAt_congr h]
  · simp only [h]
  · simp only [contentTextOf, entriesAt_congr h]
  · simp only [outputTextOf, entriesAt_congr h]
  · simp only [candidateTextOf, firstAt_congr h]

theorem probe_of_lookup_none (hp : probe ∈ textProbes) (h : doc.lookup probe.1 = none) :
    probe.2 doc = none := by
  have he : probe.2 (.object []) = none := by
    simp only [textProbes, mem_cons, not_mem_nil, or_false] at hp
    rcases hp with rfl | rfl | rfl | rfl | rfl <;> rfl
  have hs : (object []).lookup probe.1 = doc.lookup probe.1 := h.symm
  rw [← probe_congr hp hs, he]

end

def answerKeys : Format → List Bytes
  | .openAIChatCompletions => ["choices"]
  | .anthropic => ["content", "stop_reason"]
  | .openAIResponses => ["output_text", "output", "status"]
  | .gemini => ["candidates"]

structure Extends (format : Format) (doc doc' : Json) : Prop where
  object : doc.isObject = true
  object' : doc'.isObject = true
  kept : ∀ key v, doc.lookup key = some v → doc'.lookup key = some v
  foreign : ∀ key ∈ answerKeys format, doc'.lookup key = doc.lookup key

theorem extends_append (format : Format) (ms : List (Bytes × Json)) {extra : List (Bytes × Json)}
    (h : ∀ member ∈ extra, member.1 ∉ answerKeys format) :
    Extends format (.object ms) (.object (ms ++ extra)) := by
  have hl : ∀ key, (object (ms ++ extra)).lookup key =
      ((object ms).lookup key).or ((object extra).lookup key) :=
    fun key => lookup_append
  refine ⟨rfl, rfl, ?_, ?_⟩
  · intro key v hv; rw [hl, hv]; rfl
  · intro key hk
    have hn : (object extra).lookup key = none := by
      refine lookup_eq_none_iff.2 ?_
      intro member hm
      simpa using ne_of_mem_of_not_mem hk (h member hm)
    rw [hl, hn, Option.or_none]

def Captured (doc doc' : Json) : Prop :=
  ∃ before probe after text, textProbes = before ++ probe :: after ∧
    (∀ earlier ∈ before, earlier.2 doc' = none) ∧ doc.lookup probe.1 = none ∧
    probe.2 doc' = some text ∧ text ≠ responseTextOf doc

variable {text : Bytes}

section

variable {format : Format} {doc doc' : Json}

theorem Extends.probe_kept (h : Extends format doc doc') (hp : probe ∈ textProbes)
    (ht : probe.2 doc = some text) : probe.2 doc' = some text := by
  cases hl : doc.lookup probe.1 with
  | none => rw [probe_of_lookup_none hp hl] at ht; cases ht
  | some v => rw [probe_congr hp (by rw [hl, h.kept _ _ hl]), ht]

theorem Extends.probe_none (h : Extends format doc doc') (hp : probe ∈ textProbes)
    (hn : probe.2 doc' = none) : probe.2 doc = none := by
  cases ht : probe.2 doc with
  | none => rfl
  | some text => rw [h.probe_kept hp ht] at hn; cases hn

theorem responseTextOf_of_first {before after : List (Bytes × (Json → Option Bytes))}
    (hs : textProbes = before ++ probe :: after) (hbefore : ∀ earlier ∈ before, earlier.2 doc =
      none) (ht : probe.2 doc = some text) : responseTextOf doc = text := by
  rw [responseTextOf_eq_probes, hs, findSome?_append,
    findSome?_eq_none_iff.2 hbefore, Option.none_or, findSome?_cons, ht]
  rfl

theorem Extends.responseTextOf_eq_iff (h : Extends format doc doc') :
    responseTextOf doc' = responseTextOf doc ↔ ¬ Captured doc doc' := by
  constructor
  · rintro hsa ⟨before, probe, after, text, hs, hbefore, -, ht, hne⟩
    exact hne ((responseTextOf_of_first hs hbefore ht).symm.trans hsa)
  · intro hfr
    cases hf : textProbes.findSome? (·.2 doc') with
    | none =>
      have hn : textProbes.findSome? (·.2 doc) = none := by
        rw [findSome?_eq_none_iff] at hf ⊢
        exact fun probe hp => h.probe_none hp (hf probe hp)
      rw [responseTextOf_eq_probes, responseTextOf_eq_probes, hf, hn]
    | some text =>
      obtain ⟨before, probe, after, hs, ht, hbefore⟩ := findSome?_eq_some_iff.1 hf
      have hp : probe ∈ textProbes := by simp [hs]
      rw [responseTextOf_of_first hs hbefore ht]
      cases hl : doc.lookup probe.1 with
      | none =>
        by_contra hne
        exact hfr ⟨before, probe, after, text, hs, hbefore, hl, ht, hne⟩
      | some v =>
        have hold : probe.2 doc = some text := by
          have hsa : doc'.lookup probe.1 = doc.lookup probe.1 := by rw [hl, h.kept _ _ hl]
          rw [← probe_congr hp hsa, ht]
        refine (responseTextOf_of_first hs ?_ hold).symm
        intro earlier he
        have hm : earlier ∈ textProbes := by simp [hs, he]
        exact h.probe_none hm (hbefore earlier he)

end

def ownText (format : Format) (doc : Json) : Bytes :=
  ((textProbes.filter (·.1 ∈ answerKeys format)).findSome? (·.2 doc)).getD []

def answerOf (rj : RapidJson) (format : Format) (doc : Json) :
    Bytes × List ToolCall × FinishReason :=
  (ownText format doc, callsOf rj format doc, finishReasonOf format doc)

theorem ownText_eq_responseTextOf {format : Format} {doc : Json}
    (h : ∀ probe ∈ textProbes, probe.1 ∉ answerKeys format → doc.lookup probe.1 = none) :
    ownText format doc = responseTextOf doc := by
  have hf : ∀ probes : List (Bytes × (Json → Option Bytes)), probes ⊆ textProbes →
      (probes.filter (·.1 ∈ answerKeys format)).findSome? (·.2 doc) =
        probes.findSome? (·.2 doc) := by
    intro probes hp
    induction probes with
    | nil => rfl
    | cons probe probes ih =>
      have hr := ih (subset_of_cons_subset hp)
      by_cases ho : probe.1 ∈ answerKeys format
      · rw [filter_cons_of_pos (by simpa using ho), findSome?_cons, findSome?_cons, hr]
      · have hpr := hp mem_cons_self
        rw [filter_cons_of_neg (by simpa using ho), findSome?_cons, hr,
          probe_of_lookup_none hpr (h probe hpr ho)]
  unfold ownText
  rw [hf textProbes (List.Subset.refl _), responseTextOf_eq_probes]

section

variable {format : Format} {doc doc' : Json}
  (h : ∀ key ∈ answerKeys format, doc'.lookup key = doc.lookup key)

include h

theorem ownText_congr : ownText format doc' = ownText format doc := by
  have hpro : ∀ probes : List (Bytes × (Json → Option Bytes)), (∀ probe ∈ probes,
      probe ∈ textProbes ∧ probe.1 ∈ answerKeys format) →
      probes.findSome? (·.2 doc') = probes.findSome? (·.2 doc) := by
    intro probes ho
    induction probes with
    | nil => rfl
    | cons probe probes ih =>
      obtain ⟨hpr, hk⟩ := ho probe mem_cons_self
      rw [findSome?_cons, findSome?_cons, probe_congr hpr (h probe.1 hk),
        ih fun p hp => ho p (mem_cons_of_mem probe hp)]
  unfold ownText
  rw [hpro _ fun probe hpr => by simpa using mem_filter.1 hpr]

theorem callsOf_congr (rj : RapidJson) : callsOf rj format doc' = callsOf rj format doc := by
  cases format with
  | openAIChatCompletions => simp only [callsOf, firstAt_congr (h "choices" (by decide))]
  | anthropic => simp only [callsOf, entriesAt_congr (h "content" (by decide))]
  | openAIResponses => simp only [callsOf, entriesAt_congr (h "output" (by decide))]
  | gemini => simp only [callsOf, firstAt_congr (h "candidates" (by decide))]

theorem finishReasonOf_congr : finishReasonOf format doc' = finishReasonOf format doc := by
  cases format with
  | openAIChatCompletions => simp only [finishReasonOf, firstAt_congr (h "choices" (by decide))]
  | anthropic => simp only [finishReasonOf, textAt, h "stop_reason" (by decide)]
  | openAIResponses =>
    simp only [finishReasonOf, textAt, h "status" (by decide),
      entriesAt_congr (h "output" (by decide))]
  | gemini => simp only [finishReasonOf, firstAt_congr (h "candidates" (by decide))]

theorem answerOf_congr (rj : RapidJson) : answerOf rj format doc' = answerOf rj format doc := by
  unfold answerOf
  rw [ownText_congr h, callsOf_congr h, finishReasonOf_congr h]

theorem hasUnsupportedResponseShape_congr (ho : doc.isObject) (ho' : doc'.isObject) :
    hasUnsupportedResponseShape doc' format = hasUnsupportedResponseShape doc format := by
  cases format with
  | openAIChatCompletions =>
    simp only [hasUnsupportedResponseShape, UnsupportedShape.openAI,
      memberAs_of_object ho, memberAs_of_object ho', h "choices" (by decide)]
  | anthropic =>
    simp only [hasUnsupportedResponseShape, UnsupportedShape.anthropic,
      memberAs_of_object ho, memberAs_of_object ho', h "content" (by decide)]
  | openAIResponses =>
    simp only [hasUnsupportedResponseShape, UnsupportedShape.openAIResponses,
      memberAs_of_object ho, memberAs_of_object ho', h "output" (by decide)]
  | gemini =>
    simp only [hasUnsupportedResponseShape, UnsupportedShape.gemini,
      memberAs_of_object ho, memberAs_of_object ho', h "candidates" (by decide)]

end

def writtenCalls (rj : RapidJson) (target : Format) (calls : List ToolCall) : List ToolCall :=
  match target with
  | .openAIChatCompletions => calls
  | .openAIResponses => calls
  | .anthropic => calls.map (throughObject rj)
  | .gemini => numberCalls 0 (calls.map fun tc => { throughObject rj tc with id := [] })

section

variable {rj : RapidJson} (source target : Format) (model : Bytes) (doc : Json)

theorem callsOf_converted (hrj : Lawful rj) :
    callsOf rj target (convertedDocument rj source target model doc) =
      writtenCalls rj target (callsOf rj source doc) := by
  have hc : ∀ tc ∈ (partsOf rj source target model doc).toolCalls, tc.Canonical :=
    canonical_callsOf hrj source doc
  cases target with
  | openAIChatCompletions => exact callsOf_openAIResponse hc _
  | openAIResponses => exact callsOf_responsesResponse hc _
  | anthropic => exact callsOf_anthropicResponse rj hc _
  | gemini => exact callsOf_geminiResponse rj hc _

theorem lookup_converted_of_foreign (hp : probe ∈ textProbes) (hf : probe.1 ∉ answerKeys target) :
    (convertedDocument rj source target model doc).lookup probe.1 = none := by
  have hu : ∀ key : Bytes, key ≠ ascii "usage" → key ≠ ascii "usageMetadata" →
      (object (usageOf doc target)).lookup key = none := fun key => lookup_usageOf doc target
  unfold convertedDocument
  generalize usageOf doc target = usage at hu ⊢
  simp only [textProbes, mem_cons, not_mem_nil, or_false] at hp
  cases target with
  | openAIChatCompletions =>
    rcases hp with rfl | rfl | rfl | rfl | rfl <;>
      simp_all +decide [responseMembers, openAIResponse]
  | anthropic =>
    rcases hp with rfl | rfl | rfl | rfl | rfl <;>
      simp_all +decide [responseMembers, anthropicResponse]
  | openAIResponses =>
    rcases hp with rfl | rfl | rfl | rfl | rfl <;>
      simp_all +decide [responseMembers, responsesResponse]
  | gemini =>
    rcases hp with rfl | rfl | rfl | rfl | rfl <;>
      simp_all +decide [responseMembers, geminiResponse]

theorem answerOf_converted (hrj : Lawful rj) :
    answerOf rj target (convertedDocument rj source target model doc) =
      (responseTextOf doc, writtenCalls rj target (callsOf rj source doc),
        rereadReason target (answersWithCall source doc)
          (if answersWithCall source doc then .toolCalls else finishReasonOf source doc)) := by
  have ht : ownText target (convertedDocument rj source target model doc) =
      responseTextOf doc := by
    rw [ownText_eq_responseTextOf fun probe hp hf =>
      lookup_converted_of_foreign source target model doc hp hf]
    exact responseTextOf_written rj target (nulFree_responseTextOf doc) doc
  rw [answerOf, ht, callsOf_converted source target model doc hrj, finishReasonOf_converted]

end

def producedAnswer (rj : RapidJson) (target : Format) (result : Access ConversionResult) :
    Option (Bytes × List ToolCall × FinishReason) :=
  match result with
  | .ok r => if r.success then (rj.parse r.body).map (answerOf rj target) else none
  | .error _ => none

theorem producedAnswer_converted {rj : RapidJson} (hrj : Lawful rj) {source target : Format}
    (hne : source ≠ target) {body : Bytes} (model : Bytes) {doc : Json}
    (hp : rj.parse body = some doc) (ho : doc.isObject) {unsupported : Bool}
    (hs : hasUnsupportedResponseShape doc source = .ok unsupported) :
    producedAnswer rj target (convertResponseChecked rj body source target model) =
      if unsupported then none
      else some (answerOf rj target (convertedDocument rj source target model doc)) := by
  cases unsupported with
  | false =>
    rw [convertResponseChecked_of_supported model hne hp ho hs]
    simp [producedAnswer, hrj.parse_write]
  | true => rw [convertResponseChecked_of_unsupported model hne hp ho hs]; rfl

theorem extra_members_ignored_iff {rj : RapidJson} (hrj : Lawful rj) {source : Format}
    {body body' : Bytes} {doc doc' : Json} (hext : Extends source doc doc')
    (hparse : rj.parse body = some doc) (hparse' : rj.parse body' = some doc') (target : Format)
    (model : Bytes) :
    producedAnswer rj target (convertResponseChecked rj body' source target model) =
        producedAnswer rj target (convertResponseChecked rj body source target model) ↔
      source = target ∨ hasUnsupportedResponseShape doc source = .ok true ∨
        ¬ Captured doc doc' := by
  by_cases hne : source = target
  · subst hne
    refine iff_of_true ?_ (.inl rfl)
    simp [convertResponseChecked, producedAnswer, hparse, hparse', answerOf_congr hext.foreign]
  have hshape := hasUnsupportedResponseShape_eq hext.object source
  generalize unsupportedOf doc source = unsupported at hshape
  have hshape' : hasUnsupportedResponseShape doc' source = .ok unsupported := by
    rw [hasUnsupportedResponseShape_congr hext.foreign hext.object hext.object', hshape]
  rw [producedAnswer_converted hrj hne model hparse hext.object hshape,
    producedAnswer_converted hrj hne model hparse' hext.object' hshape', hshape]
  cases unsupported with
  | true => exact iff_of_true rfl (.inr (.inl rfl))
  | false =>
    have hcalled : answersWithCall source doc' = answersWithCall source doc := by
      have hempty := isEmpty_callsOf rj source doc'
      rw [callsOf_congr hext.foreign, isEmpty_callsOf] at hempty
      exact (Bool.not_inj hempty).symm
    simp [answerOf_converted _ _ _ _ hrj, callsOf_congr hext.foreign,
      finishReasonOf_congr hext.foreign, hcalled, hext.responseTextOf_eq_iff, hne]

def greeting : List (Bytes × Json) := [
  ("id", .str "msg_1"), ("type", .str "message"), ("role", .str "assistant"),
  ("model", .str "claude"),
  ("content", .array [.object [("type", .str "text"), ("text", .str "Hello.")]]),
  ("stop_reason", .str "end_turn")]

def harmless : List (Bytes × Json) := [("metadata", .null), ("choices", .array [])]

def foreignText : List (Bytes × Json) := [("output_text", .str "Goodbye.")]

def greetingAnswer (extra : List (Bytes × Json)) : Option (Bytes × List ToolCall × FinishReason) :=
  producedAnswer compact .openAIChatCompletions (convertResponseChecked compact
    (compact.write (.object (greeting ++ extra))) .anthropic .openAIChatCompletions [])

theorem harmless_members_ignored : greetingAnswer harmless = greetingAnswer [] := by
  have hext : Extends .anthropic (.object (greeting ++ [])) (.object (greeting ++ harmless)) :=
    extends_append .anthropic (greeting ++ []) (by decide)
  refine (extra_members_ignored_iff lawful_compact hext (lawful_compact.parse_write _)
    (lawful_compact.parse_write _) .openAIChatCompletions []).2 (.inr (.inr ?_))
  exact hext.responseTextOf_eq_iff.1 (by decide)

theorem greetingAnswer_eq (extra : List (Bytes × Json))
    (ht : responseTextOf (.object (greeting ++ extra)) = text) :
    (greetingAnswer extra).map (·.1) = some text := by
  have hs : hasUnsupportedResponseShape (.object (greeting ++ extra)) .anthropic =
      .ok false := rfl
  rw [greetingAnswer, producedAnswer_converted lawful_compact (by decide) []
    (lawful_compact.parse_write _) rfl hs, answerOf_converted _ _ _ _ lawful_compact, ht]
  rfl

theorem output_text_captures : (∀ member ∈ foreignText, member.1 ∉ answerKeys .anthropic) ∧
      (greetingAnswer []).map (·.1) = some (ascii "Hello.") ∧
      (greetingAnswer foreignText).map (·.1) = some (ascii "Goodbye.") :=
  ⟨by decide, greetingAnswer_eq [] (by decide),
    greetingAnswer_eq foreignText (by decide)⟩

end Gateway.Protocol.Converter
