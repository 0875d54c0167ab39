import Gateway.Protocol.PromptLoss
import Gateway.Protocol.ToolConversion

/-! # Converted requests in the target's grammar -/

namespace Gateway.Protocol

open Lib Json JsonText Converter List

variable {m out : Bytes} (rj : RapidJson)

def typedPart (target : Format) (part : Json) : Bool :=
  match target with
  | .gemini => (Gemini.partOf rj part).isSome
  | _ => !(stringAt part "type").isEmpty

def InGrammar (target : Format) (out : Bytes) : Prop :=
  (∃ ir, parseRequest rj target out = .ok ir ∧ ir.unsupportedContent = false) ∧
    ∃ doc, rj.parse out = some doc ∧ ∀ content ∈ promptContents target doc,
      ∀ part ∈ content.array?.getD [], part.isObject = true → typedPart rj target part = true

def documentOf (body : Bytes) : Json :=
  ((rj.parse body).bind object?).getD (.object [])

def hasCallPart (source : Format) (content : Json) : Bool :=
  match source with
  | .anthropic | .openAIChatCompletions =>
    (content.array?.getD []).any fun part => stringAt part "type" == "tool_use"
  | .openAIResponses => false
  | .gemini => (content.array?.getD []).any Gemini.callPart

theorem requestOf_empty (source : Format) : requestOf rj source (.object []) = {} := by
  cases source <;> rfl

variable {source : Format} {body : Bytes}

theorem parseRequest_eq_of_ok {rj : RapidJson} {ir : ChatRequest}
    (h : parseRequest rj source body = .ok ir) : ir = requestOf rj source (documentOf rj body) := by
  unfold documentOf
  cases hd : (rj.parse body).bind object? with
  | none =>
    have he : parseRequest rj source body = .ok {} := by
      cases source <;>
        simp [parseRequest, Anthropic.parseRequest, OpenAI.parseRequest,
          OpenAIResponses.parseRequest, Gemini.parseRequest, hd]
    rw [Option.getD_none, requestOf_empty]; exact Except.ok.inj (h.symm.trans he)
  | some doc =>
    have hok := (parseRequest_safe_iff rj source body).1 ⟨ir, h⟩ doc hd
    obtain ⟨v, hv, ho⟩ := Option.bind_eq_some_iff.1 hd
    obtain ⟨hv', rfl⟩ := object?_eq_some.1 ho
    exact Except.ok.inj (h.symm.trans (parseRequest_eq hv hv' hok))

variable {target : Format}

theorem safe_of_convertRequest {rj : RapidJson} (hm : source ≠ target ∨ m ≠ [])
    (h : convertRequest rj body source target m = .ok { success := true, body := out }) :
    Safe (parseRequest rj source body) := by
  have ht : (decide (source = target) && m.isEmpty) = false := by
    rcases hm with hm | hm <;> simp [hm]
  rw [convertRequest, ht, if_neg (by simp)] at h
  cases hir : parseRequest rj source body with
  | error f => rw [hir] at h; cases h
  | ok ir => exact ⟨ir, rfl⟩

theorem convertRequest_cases {rj : RapidJson} (hm : source ≠ target ∨ m ≠ [])
    (h : convertRequest rj body source target m = .ok { success := true, body := out }) :
    ∃ model, out = serializeRequest rj target
      { requestOf rj source (documentOf rj body) with model } := by
  obtain ⟨ir, hir⟩ := safe_of_convertRequest hm h
  have ht : (decide (source = target) && m.isEmpty) = false := by
    rcases hm with hm | hm <;> simp [hm]
  rw [convertRequest, ht, if_neg (by simp), hir, ok_bind] at h
  obtain rfl := parseRequest_eq_of_ok hir
  split at h
  · cases h
  · have ho := congrArg ConversionResult.body (Except.ok.inj h)
    refine ⟨if m.isEmpty then (requestOf rj source (documentOf rj body)).model else m,
      ho.symm.trans (congrArg (serializeRequest rj target) ?_)⟩
    cases m.isEmpty <;> rfl

theorem typedPart_of_hasForeignPart {rj : RapidJson} {content : Json}
    (h : hasForeignPart rj target content = false) {part : Json}
    (hp : part ∈ content.array?.getD []) (ho : part.isObject) : typedPart rj target part := by
  cases target with
  | gemini =>
    have hf := any_eq_false.1 h part hp
    simpa [Gemini.partForeign, ho, typedPart, Option.isSome_iff_ne_none] using hf
  | openAIResponses =>
    have hf := any_eq_false.1 h part hp
    have ht : stringAt part "type" ≠ [] := fun hn => hf (by
      simp +decide [OpenAIResponses.partForeign, ho, hn])
    simpa [typedPart] using ht
  | _ =>
    have hf := any_eq_false.1 h part hp
    have ht : stringAt part "type" ≠ [] := fun hn => hf (by
      simp +decide [partForeign, ho, hn])
    simpa [typedPart] using ht

variable {c : Json}

section

variable {rj : RapidJson} {req : ChatRequest} (hreq : ∀ msg ∈ req.messages, msg.Canonical rj)

include hreq

theorem Anthropic.hasForeignPart_written (hc : c ∈ promptContents .anthropic (requestValue rj req))
    : hasForeignPart rj .anthropic c = false := by
  simp only [promptContents, systemContents, messageContents, outputContents, append_nil,
    entries_requestValue, mem_append, mem_flatMap, mem_map] at hc
  rcases hc with hs | ⟨m, ⟨msg, hm, rfl⟩, hco⟩
  · have hl : (requestValue rj req).lookup "system" =
        if (!req.system.isEmpty) = true then some (.str req.system) else none := by
      simp +decide [requestValue]
    rw [hl] at hs
    split at hs
    · obtain rfl := mem_singleton.1 hs; rfl
    · cases hs
  · have hl : (messageValue rj msg).lookup "content" = some
        (if needsBlocks msg then .array (msg.content.map (blockValue rj))
         else .str msg.textContent) := by
      simp +decide [messageValue]
    rw [hl] at hco
    obtain rfl := mem_singleton.1 hco
    split
    · exact contentForeign_blocks (hreq msg hm).content
    · rfl

theorem Gemini.hasForeignPart_written (hc : c ∈ promptContents .gemini (requestValue rj req)) :
    hasForeignPart rj .gemini c = false := by
  have hcon : entriesAt (requestValue rj req) "contents" =
      req.messages.map (contentValue rj) :=
    entriesAt_of_lookup (by simp +decide [requestValue])
  simp only [promptContents, systemContents, messageContents, outputContents, append_nil,
    hcon, mem_append, mem_flatMap, mem_map] at hc
  rcases hc with hs | ⟨m, ⟨msg, hm, rfl⟩, hco⟩
  · have hl : (requestValue rj req).lookup "systemInstruction" =
        if (!req.system.isEmpty) = true then
          some (.object [("parts", .array [.object [("text", .str req.system)]])])
        else none := by
      simp +decide [requestValue]
    rw [valueAt, hl] at hs
    split at hs
    · obtain rfl := mem_singleton.1 hs; rfl
    · cases hs
  · have hl : (contentValue rj msg).lookup "parts" =
        some (.array (msg.content.map (partValue rj))) := by
      simp +decide [contentValue]
    rw [hl] at hco
    obtain rfl := mem_singleton.1 hco
    simp only [hasForeignPart, array?, Option.getD_some, any_map, any_eq_false]
    intro b hb
    simp [partForeign, partOf_partValue ((hreq msg hm).content b hb)]

omit hreq in
theorem OpenAIResponses.hasForeignPart_written
    (hc : c ∈ promptContents .openAIResponses (requestValue rj req)) :
    hasForeignPart rj .openAIResponses c = false := by
  have hinp : (requestValue rj req).lookup "input" =
      some (.array (req.messages.flatMap messageItems)) := by
    simp +decide [requestValue]
  have hit : ∀ item ∈ req.messages.flatMap messageItems, ∀ key c,
      key = ascii "content" ∨ key = ascii "output" → item.lookup key = some c →
      hasForeignPart rj .openAIResponses c = false := by
    intro item hm key c hk hl
    obtain ⟨msg, -, hms⟩ := mem_flatMap.1 hm
    unfold messageItems at hms
    split at hms
    · obtain ⟨tc, -, rfl⟩ := mem_map.1 hms
      rcases hk with rfl | rfl <;> simp +decide [functionCallValue] at hl
    split at hms
    · obtain rfl := mem_singleton.1 hms
      rcases hk with rfl | rfl
      · simp +decide at hl
      · simp +decide at hl; subst hl; rfl
    · obtain rfl := mem_singleton.1 hms
      rcases hk with rfl | rfl
      · simp +decide at hl; subst hl; rfl
      · simp +decide at hl
  have hl : ∀ item ∈ req.messages.flatMap messageItems, ∀ {q : Bool} {key : Bytes},
      key = ascii "content" ∨ key = ascii "output" →
      c ∈ (if q then (item.lookup key).toList else []) →
      hasForeignPart rj .openAIResponses c = false := by
    intro item hm q key hk hin
    split at hin
    · exact hit item hm key c hk (Option.mem_toList.1 hin)
    · cases hin
  clear hit
  generalize req.messages.flatMap messageItems = items at hinp hl
  simp only [promptContents, Protocol.systemContents, Protocol.messageContents,
    Protocol.outputContents, entriesAt_of_lookup hinp, hinp, mem_append, mem_flatMap] at hc
  rcases hc with ((hi | ⟨item, hm, hin⟩) | (hs | ⟨item, hm, hin⟩)) |
    ⟨item, hm, hin⟩
  · have hw : (requestValue rj req).lookup "instructions" =
        if (!req.system.isEmpty) = true then some (.str req.system) else none := by
      simp +decide [requestValue]
    rw [hw] at hi
    split at hi
    · obtain rfl := mem_singleton.1 hi; rfl
    · cases hi
  · exact hl item hm (.inl rfl) hin
  · cases hs
  · exact hl item hm (.inl rfl) hin
  · exact hl item hm (.inr rfl) hin

end

variable {b : ContentBlock}

namespace OpenAI

theorem mem_promptContents {doc : Json} : c ∈ promptContents .openAIChatCompletions doc ↔
    ∃ m ∈ entriesAt doc "messages", m.lookup "content" = some c := by
  simp only [promptContents, systemContents, messageContents, outputContents, append_nil,
    mem_append, mem_flatMap, ← exists_or, ← and_or_left]
  refine exists_congr fun m => and_congr_right fun _ => ?_
  cases isSystem m <;> simp

theorem lookup_content_messageValue (msg : Message) : (messageValue msg).lookup "content" = some
      (if writesText msg then .str msg.textContent else .array (msg.content.map blockValue)) := by
  simp +decide [messageValue, writesText]

theorem writesText_of_toolUse {msg : Message} (hb : b ∈ msg.content) (ht : b.type = .toolUse) :
    writesText msg = false := by
  have hto : hasToolBlocks msg := any_eq_true.2 ⟨b, hb, by simp [ht]⟩
  simp [writesText, hto]

variable {rj : RapidJson} {req : ChatRequest} (hreq : ∀ msg ∈ req.messages, msg.Canonical rj)

include hreq

theorem hasForeignPart_written (hcalls : ∀ msg ∈ req.messages, ∀ b ∈ msg.content, b.type ≠ .toolUse)
    (hc : c ∈ promptContents .openAIChatCompletions (requestValue rj req)) :
    hasForeignPart rj .openAIChatCompletions c = false := by
  obtain ⟨m, hm, hl⟩ := mem_promptContents.1 hc
  rw [entries_requestValue] at hm
  rcases mem_append.1 hm with hs | hmessage
  · split at hs
    · cases hs
    · obtain rfl := mem_singleton.1 hs
      have hc : str req.system = c := by simpa +decide using hl
      rw [← hc]; rfl
  · obtain ⟨msg, hms, rfl⟩ := mem_map.1 hmessage
    rw [lookup_content_messageValue] at hl
    obtain rfl := Option.some.inj hl
    split
    · rfl
    · simp only [hasForeignPart, contentForeign, array?, Option.getD_some, any_map,
        any_eq_false, Function.comp_def]
      intro b hb
      rw [partForeign_blockValue ((hreq msg hms).content b hb)]
      simpa using hcalls msg hms b hb

omit hreq in
theorem empty_part_written {msg : Message} (hm : msg ∈ req.messages) (hb : b ∈ msg.content)
    (ht : b.type = .toolUse) : ∃ c ∈ promptContents .openAIChatCompletions (requestValue rj req),
      object [] ∈ c.array?.getD [] := by
  refine ⟨.array (msg.content.map blockValue), mem_promptContents.2 ⟨messageValue msg, ?_, ?_⟩, ?_⟩
  · rw [entries_requestValue]; exact mem_append_right _ (mem_map_of_mem hm)
  · rw [lookup_content_messageValue, writesText_of_toolUse hb ht]; rfl
  · refine mem_map.2 ⟨b, hb, ?_⟩
    rw [blockValue, ht]

end OpenAI

variable {rj : RapidJson}

theorem inGrammar_of_hasForeignPart (hrj : Lawful rj) {req : ChatRequest}
    (h : ∀ c ∈ promptContents target (requestValue rj target req), hasForeignPart rj target c =
      false) : InGrammar rj target (serializeRequest rj target req) := by
  refine ⟨⟨_, parseRequest_written hrj target req, ?_⟩, _,
    serializeRequest_eq rj target req ▸ hrj.parse_write _, ?_⟩
  · rw [unsupportedContent_requestOf_eq, any_eq_false]
    intro c hc
    rw [h c (mem_append_left _ (mem_append_right _ hc))]; exact Bool.false_ne_true
  · intro content hco part hp ho; exact typedPart_of_hasForeignPart (h content hco) hp ho

theorem type_toolUse_blockOf_iff {part : Json} :
    (∃ b, blockOf rj part = some b ∧ b.type = .toolUse) ↔ stringAt part "type" =
      ascii "tool_use" := by
  unfold blockOf
  by_cases ht : stringAt part "type" = ascii "text"
  · simp +decide [ht]
  by_cases hu : stringAt part "type" = ascii "tool_use"
  · simp +decide [hu]
  by_cases hr : stringAt part "type" = ascii "tool_result"
  · simp +decide [hr]
  · simp [ht, hu, hr]

theorem Gemini.type_toolUse_partOf_iff {p : Json} :
    (∃ b, partOf rj p = some b ∧ b.type = .toolUse) ↔ callPart p := by
  unfold partOf callPart
  cases textOf p with
  | some text => simp
  | none =>
    cases (valueAt p "functionCall").isObject <;>
      cases (valueAt p "functionResponse").isObject <;> simp

theorem exists_toolUse_contentBlocks_iff {content : Json} :
    (∃ b ∈ contentBlocks rj source content, b.type = .toolUse) ↔ hasCallPart source content := by
  have hp : ∀ (f : Json → Option ContentBlock) (q : Json → Bool),
      (∀ part, (∃ b, f part = some b ∧ b.type = .toolUse) ↔ q part) → ∀ parts : List Json,
      (∃ b ∈ parts.filterMap f, b.type = .toolUse) ↔ parts.any q := by
    intro f q hq parts
    simp only [mem_filterMap, any_eq_true, ← hq]
    constructor
    · rintro ⟨b, ⟨part, hpa, hb⟩, ht⟩; exact ⟨part, hpa, b, hb, ht⟩
    · rintro ⟨part, hpa, b, hb, ht⟩; exact ⟨b, ⟨part, hpa, hb⟩, ht⟩
  have hc := hp (blockOf rj) (fun part => stringAt part "type" == "tool_use") fun part =>
    type_toolUse_blockOf_iff.trans beq_iff_eq.symm
  cases source with
  | anthropic =>
    cases content with
    | array parts => exact hc parts
    | _ => simp [contentBlocks, blocksOf, hasCallPart, array?]
  | openAIChatCompletions =>
    cases content with
    | array parts => exact hc parts
    | _ => simp [contentBlocks, blocksOf, hasCallPart, array?]
  | openAIResponses =>
    have htext : ∀ part, (∃ b, OpenAIResponses.textPartOf part = some b ∧ b.type = .toolUse) ↔
        false := by
      intro part
      unfold OpenAIResponses.textPartOf
      split <;> simp
    cases content with
    | array parts => exact (hp _ _ htext parts).trans (by simp [hasCallPart])
    | _ => simp [contentBlocks, OpenAIResponses.blocksOf, hasCallPart]
  | gemini => exact hp _ _ (fun _ => Gemini.type_toolUse_partOf_iff) _

theorem exists_toolUse_requestOf_iff (rj : RapidJson) (source : Format) (doc : Json) :
    (∃ msg ∈ (requestOf rj source doc).messages, ∃ b ∈ msg.content, b.type = .toolUse) ↔
      ∃ c ∈ messageContents source doc, hasCallPart source c := by
  rw [exists_block_requestOf_iff (p := fun b => b.type = .toolUse) ?_ (by decide)]
  · simp only [exists_toolUse_contentBlocks_iff, blockContents, mem_append, or_and_right, exists_or]
    refine or_iff_left ?_
    rintro ⟨c, hc, hcall⟩
    cases source with
    | openAIResponses => cases hcall
    | _ => cases hc
  · intro n b
    unfold Gemini.numbered
    split <;> rfl

theorem converted_in_grammar_iff {rj : RapidJson} (hrj : Lawful rj) {source target : Format}
    {body m out : Bytes} (hm : source ≠ target ∨ m ≠ [])
    (hconvert : convertRequest rj body source target m = .ok { success := true, body := out }) :
    InGrammar rj target out ↔ (target = .openAIChatCompletions →
      ∀ c ∈ messageContents source (documentOf rj body), hasCallPart source c = false) := by
  obtain ⟨model, rfl⟩ := convertRequest_cases hm hconvert
  have hcanonical := requestOf_canonical hrj source (documentOf rj body)
  have hcalls := exists_toolUse_requestOf_iff rj source (documentOf rj body)
  generalize requestOf rj source (documentOf rj body) = ir at *
  cases target with
  | anthropic =>
    exact iff_of_true (inGrammar_of_hasForeignPart hrj fun c hc =>
      Anthropic.hasForeignPart_written hcanonical.messages hc) nofun
  | openAIResponses =>
    exact iff_of_true (inGrammar_of_hasForeignPart hrj fun c hc =>
      OpenAIResponses.hasForeignPart_written hc) nofun
  | gemini =>
    exact iff_of_true (inGrammar_of_hasForeignPart hrj fun c hc =>
      Gemini.hasForeignPart_written hcanonical.messages hc) nofun
  | openAIChatCompletions =>
    constructor
    · rintro ⟨-, doc, hdoc, htyped⟩ - c hc
      rw [serializeRequest_eq, hrj.parse_write] at hdoc
      obtain rfl := Option.some.inj hdoc
      refine Bool.eq_false_iff.2 fun hcall => ?_
      obtain ⟨msg, hmsg, b, hb, htype⟩ := hcalls.2 ⟨c, hc, hcall⟩
      have hempty : ∃ c ∈ promptContents .openAIChatCompletions
          (OpenAI.requestValue rj { ir with model }), object [] ∈ c.array?.getD [] :=
        OpenAI.empty_part_written hmsg hb htype
      obtain ⟨content, hcontent, hpart⟩ := hempty
      exact absurd (htyped content hcontent _ hpart rfl) (by simp +decide [typedPart, stringAt])
    · intro hno
      refine inGrammar_of_hasForeignPart hrj fun c hc =>
        OpenAI.hasForeignPart_written hcanonical.messages (fun msg hmsg b hb htype => ?_) hc
      obtain ⟨c, hc, hcall⟩ := hcalls.1 ⟨msg, hmsg, b, hb, htype⟩
      exact absurd ((hno rfl c hc).symm.trans hcall) Bool.false_ne_true

theorem frenchQuestion_in_grammar : ∃ out, convertRequest compact (compact.write frenchQuestion)
        .anthropic .openAIChatCompletions "gpt-4o" = .ok { success := true, body := out } ∧
      InGrammar compact .openAIChatCompletions out := by
  have hread := lawful_compact.parse_write frenchQuestion
  have hroles : NoSystemRoles (requestOf compact .anthropic frenchQuestion).messages := by
    unfold NoSystemRoles; decide
  obtain ⟨out, hconvert, -⟩ := convertRequest_reread lawful_compact
    .openAIChatCompletions hread rfl (by decide) (by decide) (fun _ => hroles)
    (.inl (by decide : Format.anthropic ≠ .openAIChatCompletions))
  refine ⟨out, hconvert, (converted_in_grammar_iff lawful_compact (.inl (by decide)) hconvert).2 ?_⟩
  have hdoc : documentOf compact (compact.write frenchQuestion) =
      frenchQuestion := by
    rw [documentOf, hread]; rfl
  rw [hdoc]
  exact fun _ => by decide

theorem weatherCalls_not_in_grammar : ∃ out ir, convertRequest compact (compact.write weatherCalls)
        .gemini .openAIChatCompletions "gpt-4o" = .ok { success := true, body := out } ∧
      parseRequest compact .openAIChatCompletions out = .ok ir ∧
      ir.unsupportedContent ∧ ¬ InGrammar compact .openAIChatCompletions out := by
  have hread := lawful_compact.parse_write weatherCalls
  have hroles : NoSystemRoles (requestOf compact .gemini weatherCalls).messages := by
    unfold NoSystemRoles; decide
  obtain ⟨out, hconvert, hback⟩ := convertRequest_reread lawful_compact
    .openAIChatCompletions hread rfl (by decide) (by decide) (fun _ => hroles)
    (.inl (by decide : Format.gemini ≠ .openAIChatCompletions))
  refine ⟨out, _, hconvert, hback, by decide, ?_⟩
  rintro ⟨⟨ir, hir, hflag⟩, -⟩
  obtain rfl := Except.ok.inj (hback.symm.trans hir)
  revert hflag
  decide

end Gateway.Protocol
