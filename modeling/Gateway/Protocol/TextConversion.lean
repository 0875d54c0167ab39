import Gateway.Protocol.Conversion

/-! # Text requests survive a conversion -/

namespace Gateway.Protocol

open Lib Json JsonText ContentBlock Converter List

def textPart (part : Json) : Bool := !part.isObject || stringAt part "type" == "text"

def textContentOnly (content : Json) : Bool := (content.array?.getD []).all textPart

def isUserOrAssistant (role : Bytes) : Bool := role == "user" || role == "assistant"

def Anthropic.textMessage (m : Json) : Bool :=
  !m.isObject || isUserOrAssistant (stringAt m "role") && textContentOnly (valueAt m "content")

def OpenAI.textMessage (m : Json) : Bool :=
  !m.isObject || stringAt m "role" == "system" || stringAt m "role" == "developer"
    || isUserOrAssistant (stringAt m "role") && textContentOnly (valueAt m "content")
      && (entriesAt m "tool_calls").isEmpty

def Gemini.textContent (c : Json) : Bool :=
  !c.isObject
    || (stringAt c "role" == "user" || stringAt c "role" == "model")
      && (entriesAt c "parts").all fun p => !p.isObject || (textOf p).isSome

def OpenAIResponses.textItem (item : Json) : Bool :=
  !item.isObject
    || (stringAt item "type" == "message" || (item.lookup "role").isSome)
      && (roleOf item == "system" || roleOf item == "developer"
        || isUserOrAssistant (roleOf item) && !contentForeign (valueAt item "content"))

variable (rj : RapidJson)

def textRequest (source : Format) (doc : Json) : Bool :=
  match source with
  | .anthropic => (entriesAt doc "messages").all Anthropic.textMessage
  | .openAIChatCompletions => (entriesAt doc "messages").all OpenAI.textMessage
  | .openAIResponses => (entriesAt doc "input").all OpenAIResponses.textItem
  | .gemini => (entriesAt doc "contents").all Gemini.textContent

def tokenLimitOf (source : Format) (doc : Json) : Int :=
  match source with
  | .anthropic => ((doc.lookup "max_tokens").bind int?).getD 4096
  | .openAIChatCompletions => OpenAI.tokenLimitOf doc
  | .openAIResponses => OpenAIResponses.tokenLimitOf doc
  | .gemini => (((valueAt doc "generationConfig").lookup "maxOutputTokens").bind int?).getD 4096

theorem maxTokens_requestOf (source : Format) (doc : Json) :
    (requestOf rj source doc).maxTokens = tokenLimitOf source doc := by
  cases source <;> rfl

structure Message.Plain (msg : Message) : Prop where
  role : msg.role = ascii "user" ∨ msg.role = ascii "assistant"
  content : ∀ b ∈ msg.content, b.type = .text
  toolCalls : msg.toolCalls = []

theorem role_of_isUserOrAssistant {role : Bytes} (h : isUserOrAssistant role) :
    role = ascii "user" ∨ role = ascii "assistant" := by
  simpa [isUserOrAssistant] using h

structure Entry.Plain (e : Entry) : Prop where
  messages : ∀ msg ∈ e.messages, msg.Plain
  unsupported : e.unsupported = false

theorem Entry.Plain.empty : ({} : Entry).Plain := ⟨by simp, rfl⟩

theorem Entry.Plain.systemLine (s : Option Bytes) : ({ system := s } : Entry).Plain :=
    ⟨by simp, rfl⟩

variable {content : Json}

theorem text_of_blocksOf (h : textContentOnly content) :
    ∀ b ∈ blocksOf rj content, b.type = .text := by
  intro b hb
  unfold blocksOf at hb
  split at hb
  · rw [mem_singleton.1 hb]
  · obtain ⟨part, hp, hblock⟩ := mem_filterMap.1 hb
    have ht : textPart part := by
      have := all_eq_true.1 h part
      simp_all [array?]
    cases ho : part.isObject with
    | false => rw [blockOf_of_not_object rj ho] at hblock; cases hblock
    | true =>
      have htype : stringAt part "type" = ascii "text" := by simpa [textPart, ho] using ht
      simp only [blockOf, htype, beq_self_eq_true, if_true, Option.some.injEq] at hblock
      rw [← hblock]
  · cases hb

theorem not_contentForeign_of_text (h : textContentOnly content) :
    contentForeign content = false := by
  refine any_eq_false.2 fun part hp => ?_
  have ht := all_eq_true.1 h part hp
  cases ho : part.isObject <;> simp_all [textPart, partForeign]

theorem contentPartOk_of_text (h : textContentOnly content) :
    (content.array?.getD []).all contentPartOk := by
  refine all_eq_true.2 fun part hp => ?_
  have ht := all_eq_true.1 h part hp
  cases ho : part.isObject with
  | false => simp [contentPartOk, ho]
  | true =>
    have htype : stringAt part "type" = ascii "text" := by simpa [textPart, ho] using ht
    simp +decide [contentPartOk, htype]

theorem Anthropic.plain_entryOf {m : Json} (h : textMessage m) : (entryOf rj m).Plain := by
  unfold entryOf
  split
  · rename_i ho
    simp only [textMessage, ho, Bool.not_true, Bool.false_or, Bool.and_eq_true] at h
    refine ⟨fun msg hm => ?_, not_contentForeign_of_text h.2⟩
    have ht := text_of_blocksOf rj h.2
    rw [mem_singleton.1 hm, Message.ofBlocks_eq]
    refine ⟨role_of_isUserOrAssistant h.1, ht, filterMap_eq_nil_iff.2 fun b hb => ?_⟩
    simp [call?, ht b hb]
  · exact .empty

theorem OpenAI.plain_entryOf {m : Json} (h : textMessage m) : (entryOf rj m).Plain := by
  unfold entryOf
  split
  · exact .empty
  split
  · exact .systemLine _
  · rename_i ho hs
    simp only [Bool.not_eq_true', Bool.not_eq_true] at ho hs
    have ht : (isUserOrAssistant (stringAt m "role") ∧
        textContentOnly (valueAt m "content")) ∧
        (entriesAt m "tool_calls").isEmpty := by
      simpa [textMessage, ho, Bool.or_eq_false_iff.1 hs] using h
    refine ⟨fun msg hm => ?_, not_contentForeign_of_text ht.1.2⟩
    rw [mem_singleton.1 hm]
    refine ⟨role_of_isUserOrAssistant ht.1.1, text_of_blocksOf rj ht.1.2, ?_⟩
    rw [List.isEmpty_iff.1 ht.2]; rfl

variable {b : ContentBlock}

namespace Gemini

theorem number_of_text {bs : List ContentBlock} (h : ∀ b ∈ bs, b.type = .text) (k : Nat) :
    number k bs = bs := by
  induction bs generalizing k with
  | nil => rfl
  | cons b bs ih => rw [forall_mem_cons] at h; simp [number, numbered, h.1, ih h.2]

theorem text_of_partOf {rj : RapidJson} {p : Json} (h : (!p.isObject || (textOf p).isSome))
    (hb : partOf rj p = some b) : b.type = .text := by
  cases ht : textOf p with
  | some text => simp only [partOf, ht, Option.some.injEq] at hb; rw [← hb]
  | none =>
    have ho : p.isObject = false := by simpa [ht] using h
    simp [partOf, ht, valueAt, lookup_of_not_object ho] at hb

theorem role_of_content {role : Bytes} (h : (role == ascii "user" || role == ascii "model")) :
    (if role == ascii "model" then ascii "assistant" else role) = ascii "user" ∨
      (if role == ascii "model" then ascii "assistant" else role) = ascii "assistant" := by
  rcases Bool.or_eq_true_iff.1 h with hr | hr <;> rw [eq_of_beq hr] <;> decide

theorem plain_entryOf (rj : RapidJson) {c : Json} (h : textContent c) : (entryOf rj c).Plain := by
  unfold entryOf
  split
  · rename_i ho
    simp only [textContent, ho, Bool.not_true, Bool.false_or, Bool.and_eq_true] at h
    obtain ⟨hr, hpa⟩ := h
    rw [all_eq_true] at hpa
    have htext : ∀ b ∈ (entriesAt c "parts").filterMap (partOf rj), b.type = .text := by
      intro b hb
      obtain ⟨p, hp, hpb⟩ := mem_filterMap.1 hb
      exact text_of_partOf (hpa p hp) hpb
    refine ⟨fun msg hm => ?_, any_eq_false.2 fun p hp => ?_⟩
    · rw [mem_singleton.1 hm, number_of_text htext, Message.ofBlocks_eq]
      refine ⟨role_of_content hr, htext, filterMap_eq_nil_iff.2 fun b hb => ?_⟩
      simp [call?, htext b hb]
    · have := hpa p hp
      cases ht : textOf p <;> simp_all [partForeign, partOf]
  · exact .empty

end Gemini

variable {doc : Json}

namespace OpenAIResponses

theorem text_of_mem_blocksOf (h : b ∈ blocksOf content) : b.type = .text := by
  unfold blocksOf at h
  split at h
  · rw [mem_singleton.1 h]
  · obtain ⟨part, -, hp⟩ := mem_filterMap.1 h
    unfold textPartOf at hp
    split at hp
    · cases hp; rfl
    · cases hp
  · cases h

theorem plain_entryOf {item : Json} (h : textItem item) : (entryOf item).Plain := by
  unfold entryOf
  split
  · exact .empty
  · rename_i ho
    simp only [Bool.not_eq_true', Bool.not_eq_false] at ho
    simp only [textItem, ho, Bool.not_true, Bool.false_or, Bool.and_eq_true] at h
    rw [if_pos h.1]
    unfold messageEntry
    split
    · exact .systemLine _
    · rename_i hs
      have ht : isUserOrAssistant (roleOf item) ∧
          contentForeign (valueAt item "content") = false := by
        simpa [Bool.or_eq_false_iff.1 (Bool.not_eq_true _ ▸ hs)] using h.2
      refine ⟨fun msg hm => ?_, ht.2⟩
      rw [mem_singleton.1 hm]
      exact ⟨role_of_isUserOrAssistant ht.1, fun b => text_of_mem_blocksOf, rfl⟩

theorem plain_inputEntries (h : (entriesAt doc "input").all textItem) :
    ∀ e ∈ inputEntries doc, e.Plain := by
  unfold inputEntries
  split
  · intro e he
    rw [mem_singleton.1 he]
    refine ⟨fun msg hm => ?_, rfl⟩
    rw [mem_singleton.1 hm]
    exact ⟨.inl rfl, by simp, rfl⟩
  · rename_i items hi
    rw [entriesAt, hi] at h
    simp only [forall_mem_map]
    exact fun item hit => plain_entryOf (all_eq_true.1 h item hit)
  · simp

end OpenAIResponses

variable {source : Format}

theorem plain_entriesOf (rj : RapidJson) (h : textRequest source doc) :
    ∀ e ∈ entriesOf rj source doc, e.Plain := by
  cases source with
  | anthropic =>
    simp only [entriesOf, forall_mem_map]
    exact fun m hm => Anthropic.plain_entryOf rj (all_eq_true.1 h m hm)
  | openAIChatCompletions =>
    simp only [entriesOf, forall_mem_map]
    exact fun m hm => OpenAI.plain_entryOf rj (all_eq_true.1 h m hm)
  | openAIResponses => exact OpenAIResponses.plain_inputEntries h
  | gemini =>
    simp only [entriesOf, forall_mem_map]
    exact fun c hc => Gemini.plain_entryOf rj (all_eq_true.1 h c hc)

theorem requestOk_of_text (h : textRequest source doc) : requestOk source doc := by
  have hmessage : ∀ m : Json, textContentOnly (valueAt m "content") → messageOk m := by
    intro m hm
    have he : entriesAt m "content" = (valueAt m "content").array?.getD [] := by
      unfold entriesAt valueAt
      cases m.lookup "content" <;> rfl
    simp [messageOk, he, contentPartOk_of_text hm]
  cases source with
  | anthropic =>
    refine all_eq_true.2 fun m hm => ?_
    have ht := all_eq_true.1 h m hm
    cases ho : m.isObject with
    | false => simp [messageOk, ho]
    | true =>
      simp only [Anthropic.textMessage, ho, Bool.not_true, Bool.false_or, Bool.and_eq_true] at ht
      exact hmessage m ht.2
  | openAIChatCompletions =>
    refine all_eq_true.2 fun m hm => ?_
    have ht := all_eq_true.1 h m hm
    cases ho : m.isObject with
    | false => simp [openAIMessageOk, messageOk, ho]
    | true =>
      simp only [OpenAI.textMessage, ho, Bool.not_true, Bool.false_or, Bool.or_eq_true,
        Bool.and_eq_true] at ht
      unfold openAIMessageOk
      rcases ht with hs | ht
      · simp only [Bool.or_eq_true]; exact .inl hs
      · simp [hmessage m ht.1.2]
  | openAIResponses => rfl
  | gemini => rfl

def Message.turn (msg : Message) : Bytes × Bytes := (msg.role, msg.textContent)

def ToolDef.withSchema (rj : RapidJson) (t : ToolDef) : ToolDef :=
  { t with parametersJson :=
      if t.parametersJson = [] then rj.write (.object []) else t.parametersJson }

structure TextKept (rj : RapidJson) (target : Format) (m : Bytes) (ir ir' : ChatRequest) :
    Prop where
  system : ir'.system = ir.system
  turns : ir'.messages.map Message.turn = ir.messages.map Message.turn
  maxTokens : ir'.maxTokens = ir.maxTokens
  tools : ir'.tools.map (ToolDef.withSchema rj) = ir.tools.map (ToolDef.withSchema rj)
  model : target ≠ .gemini → ir'.model = m
  stream : target ≠ .gemini → ir'.stream = ir.stream
  metadataUserId : target ≠ .gemini → ir'.metadataUserId = ir.metadataUserId
  stop : target ≠ .openAIResponses → ir'.stop = ir.stop

section

variable {rj : RapidJson} {msg : Message}

theorem Anthropic.turn_reread (h : msg.Plain) : (reread rj msg).turn = msg.turn := by
  have hblocks : needsBlocks msg = false := by
    simp only [needsBlocks, h.toolCalls, Bool.or_eq_false_iff, any_eq_false]
    exact ⟨fun b hb => by simp [h.content b hb], rfl⟩
  simp [reread, hblocks, Message.ofBlocks_eq, Message.turn, Message.textContent, appendLine]

theorem OpenAI.turn_reread (h : msg.Plain) : (reread msg).turn = msg.turn := by
  have ht : writesText msg := by
    simp only [writesText, hasToolBlocks, h.toolCalls, Bool.and_eq_true, Bool.not_eq_true',
      any_eq_false]
    exact ⟨fun b hb => by simp [h.content b hb], rfl⟩
  simp [reread, ht, Message.turn, Message.textContent, appendLine]

theorem OpenAIResponses.turn_reread (h : msg.Plain) :
    (reread msg).map Message.turn = [msg.turn] := by
  have hro : msg.role.isEmpty = false := by rcases h.role with hr | hr <;> rw [hr] <;> rfl
  simp [reread, h.toolCalls, hro, Message.turn, Message.textContent, appendLine]

theorem Gemini.turn_reread (h : msg.Plain) : (reread rj msg).turn = msg.turn := by
  have hro : rereadRole msg.role = msg.role := by rcases h.role with hr | hr <;> rw [hr] <;> decide
  have hc : msg.content.map (rereadBlock rj) = msg.content := by
    refine (map_congr_left fun b hb => ?_).trans (map_id _)
    simp [rereadBlock, h.content b hb]
  simp [reread, hro, hc, number_of_text h.content, Message.ofBlocks_eq, Message.turn,
    Message.textContent]

theorem Anthropic.withSchema_rereadTool (hrj : Lawful rj) {t : ToolDef} (h : t.Canonical rj) :
    (rereadTool rj t).withSchema rj = t.withSchema rj := by
  obtain hn | ⟨o, ho, hw⟩ := h.parametersJson
  · simp [ToolDef.withSchema, rereadTool, hn, objectOfText]
  · simp [ToolDef.withSchema, rereadTool, hw, objectOfText_write hrj ho]

theorem textKept_reread (hrj : Lawful rj) {req : ChatRequest} (h : req.Canonical rj)
    (hp : ∀ msg ∈ req.messages, msg.Plain) (hl : 0 < req.maxTokens) (target : Format)
    {m : Bytes} (hm : m ≠ []) (hn : NulFree m) :
    TextKept rj target m req (reread rj target (withModel req m)) := by
  have hmodel : (withModel req m).model = m := by simp [withModel, hm, hn.cstr_eq]
  have hmax : writtenLimit req.maxTokens = req.maxTokens := writtenLimit_of_pos hl
  cases target with
  | anthropic =>
    refine ⟨rfl, ?_, hmax, ?_, fun _ => hmodel, fun _ => rfl, fun _ => rfl, fun _ => rfl⟩
    · simp only [reread, map_map]
      exact map_congr_left fun msg hms => Anthropic.turn_reread (hp msg hms)
    · simp only [reread, map_map]
      exact map_congr_left fun t ht => Anthropic.withSchema_rereadTool hrj (h.tools t ht)
  | openAIChatCompletions =>
    refine ⟨rfl, ?_, hmax, rfl, fun _ => hmodel, fun _ => rfl, fun _ => rfl, fun _ => rfl⟩
    simp only [reread, map_map]
    exact map_congr_left fun msg hms => OpenAI.turn_reread (hp msg hms)
  | openAIResponses =>
    refine ⟨rfl, ?_, hmax, rfl, fun _ => hmodel, fun _ => rfl, fun _ => rfl,
      fun h => absurd rfl h⟩
    simp only [reread, map_flatMap]
    exact (flatMap_congr fun msg hms => OpenAIResponses.turn_reread (hp msg hms)).trans
      map_eq_flatMap.symm
  | gemini =>
    refine ⟨rfl, ?_, hmax, rfl, fun h => absurd rfl h, fun h => absurd rfl h,
      fun h => absurd rfl h, fun _ => rfl⟩
    simp only [reread, map_map]
    exact map_congr_left fun msg hms => Gemini.turn_reread (hp msg hms)

end

theorem text_request_survives {rj : RapidJson} (hrj : Lawful rj) {source target : Format}
    {body m : Bytes} {doc : Json} (hparse : rj.parse body = some doc) (hobj : doc.isObject = true)
    (htext : textRequest source doc = true) (hlimit : 0 < tokenLimitOf source doc)
    (hm : m ≠ []) (hnul : NulFree m) : ∃ ir out ir', parseRequest rj source body = .ok ir ∧
      convertRequest rj body source target m = .ok { success := true, body := out } ∧
      parseRequest rj target out = .ok ir' ∧ TextKept rj target m ir ir' := by
  have hentries := plain_entriesOf rj htext
  have hplain : ∀ msg ∈ (requestOf rj source doc).messages, msg.Plain := by
    rw [messages_requestOf]
    intro msg hmsg
    obtain ⟨e, he, hmem⟩ := mem_flatMap.1 hmsg
    exact (hentries e he).messages msg hmem
  have hsupported : (requestOf rj source doc).unsupportedContent = false := by
    rw [unsupportedContent_requestOf]
    exact any_eq_false.2 fun e he => by simp [(hentries e he).unsupported]
  have hroles : NoSystemRoles (requestOf rj source doc).messages := by
    intro msg hmsg
    rcases (hplain msg hmsg).role with hr | hr <;> rw [hr] <;> decide
  have hok := requestOk_of_text htext
  obtain ⟨out, hconvert, hback⟩ := convertRequest_reread hrj target hparse hobj hok
    hsupported (fun _ => hroles) (.inr hm)
  rw [← maxTokens_requestOf rj] at hlimit
  exact ⟨_, out, _, parseRequest_eq hparse hobj hok, hconvert, hback,
    textKept_reread hrj (requestOf_canonical hrj source doc) hplain hlimit target hm hnul⟩

def weatherChat : Json := .object [
  ("model", .str "gpt-4o"), ("stream", .bool true), ("max_tokens", .int 256),
  ("messages", .array [
    .object [("role", .str "system"), ("content", .str "Answer briefly.")],
    .object [("role", .str "user"), ("content", .array [
      .object [("type", .str "text"), ("text", .str "What is the weather")],
      .object [("type", .str "text"), ("text", .str "in Paris?")]])],
    .object [("role", .str "assistant"), ("content", .str "Sunny.")],
    .object [("role", .str "user")]]),
  ("stop", .array [.str "END"]), ("user", .str "u-1"),
  ("tools", .array [.object [
    ("type", .str "function"), ("function", .object [("name", .str "weather")])]])]

theorem weatherChat_survives : ∃ ir out ir', parseRequest compact .openAIChatCompletions
        (compact.write weatherChat) = .ok ir ∧ convertRequest compact (compact.write weatherChat)
        .openAIChatCompletions .anthropic "claude" = .ok { success := true, body := out } ∧
      parseRequest compact .anthropic out = .ok ir' ∧
      TextKept compact .anthropic "claude" ir ir' := by
  have htext : textRequest .openAIChatCompletions weatherChat := by decide
  have hlimit : 0 < tokenLimitOf .openAIChatCompletions weatherChat := by decide
  exact text_request_survives lawful_compact (lawful_compact.parse_write weatherChat) rfl htext
    hlimit (by decide) (by decide)

end Gateway.Protocol
