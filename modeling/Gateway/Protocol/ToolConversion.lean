import Gateway.Protocol.ToolHistory

/-! # Conversions of requests with tools -/

namespace Gateway.Protocol

open Lib Json JsonText Converter List Option
open ContentBlock (called? result?)

def saysText (content : Json) : Bool :=
  match content with
  | .string s => !(cstr s).isEmpty
  | .array parts =>
    parts.any fun part => stringAt part "type" == "text" && !(stringAt part "text").isEmpty
  | _ => false

namespace Anthropic

def callsTool (m : Json) : Bool :=
  (entriesAt m "content").any fun part => stringAt part "type" == "tool_use"

def resultTexts (m : Json) : List Bytes :=
  (entriesAt m "content").filterMap fun part =>
    if stringAt part "type" == "tool_result" then some (resultText part) else none

def callsAndSays (m : Json) : Bool :=
  stringAt m "role" == "assistant" && callsTool m && saysText (valueAt m "content")

end Anthropic

def OpenAI.callsTool (m : Json) : Bool :=
  !(stringAt m "role" == "system" || stringAt m "role" == "developer")
    && (entriesAt m "tool_calls").any isObject

def OpenAI.callsAndSays (m : Json) : Bool :=
  stringAt m "role" == "assistant" && callsTool m && saysText (valueAt m "content")

def OpenAIResponses.callsTool (item : Json) : Bool :=
  !(stringAt item "type" == "message" || (item.lookup "role").isSome)
    && stringAt item "type" == "function_call"

namespace Gemini

def callPart (p : Json) : Bool := (textOf p).isNone && (valueAt p "functionCall").isObject

def responsePart (p : Json) : Bool :=
  (textOf p).isNone && !(valueAt p "functionCall").isObject
    && (valueAt p "functionResponse").isObject

def callsTool (c : Json) : Bool := (entriesAt c "parts").any callPart

def resultTexts (rj : RapidJson) (c : Json) : List Bytes :=
  (entriesAt c "parts").filterMap fun p =>
    if responsePart p then some (objectTextAt rj (valueAt p "functionResponse") "response")
    else none

def callsAndSays (c : Json) : Bool :=
  stringAt c "role" == "model" && callsTool c
    && (entriesAt c "parts").any fun p => (textOf p).any fun t => !t.isEmpty

end Gemini

def conversationOf (source : Format) (doc : Json) : List Json :=
  match source with
  | .anthropic => entriesAt doc "messages"
  | .openAIChatCompletions => entriesAt doc "messages"
  | .openAIResponses => entriesAt doc "input"
  | .gemini => entriesAt doc "contents"

def callsTool (source : Format) (e : Json) : Bool :=
  match source with
  | .anthropic => Anthropic.callsTool e
  | .openAIChatCompletions => OpenAI.callsTool e
  | .openAIResponses => OpenAIResponses.callsTool e
  | .gemini => Gemini.callsTool e

def resultTexts (rj : RapidJson) (source : Format) (e : Json) : List Bytes :=
  match source with
  | .anthropic => Anthropic.resultTexts e
  | .openAIChatCompletions => []
  | .openAIResponses => []
  | .gemini => Gemini.resultTexts rj e

def callsAndSays (source : Format) (e : Json) : Bool :=
  match source with
  | .anthropic => Anthropic.callsAndSays e
  | .openAIChatCompletions => OpenAI.callsAndSays e
  | .openAIResponses => false
  | .gemini => Gemini.callsAndSays e

def keepsHistory (rj : RapidJson) (source target : Format) (e : Json) : Prop :=
  match target with
  | .openAIChatCompletions => True
  | .anthropic => source.callsInFields = true → callsTool source e = false
  | .gemini => (source.callsInFields = true → callsTool source e = false) ∧
      ∀ t ∈ resultTexts rj source e, ∃ o : Json, o.isObject = true ∧ t = rj.write o
  | .openAIResponses => resultTexts rj source e = [] ∧ callsAndSays source e = false

structure Entry.Shows (rj : RapidJson) (source : Format) (e : Json) (entry : Entry) : Prop where
  calls : (∀ msg ∈ entry.messages, msg.toolCalls = []) ↔ callsTool source e = false
  results : entry.messages.flatMap (fun msg => msg.content.filterMap result?) =
    resultTexts rj source e
  both : (∀ msg ∈ entry.messages, msg.toolCalls = [] ∨ msg.assistantText = []) ↔
    callsAndSays source e = false

variable {source : Format} {e : Json} {entry : Entry}

theorem Entry.Shows.keepsHistory_iff {rj : RapidJson} (h : entry.Shows rj source e)
    (target : Format) : (∀ msg ∈ entry.messages, msg.KeepsHistory rj source target) ↔
      keepsHistory rj source target e := by
  have hc : (∀ msg ∈ entry.messages, source.callsInFields → msg.toolCalls = []) ↔
      (source.callsInFields → callsTool source e = false) := by
    rw [← h.calls]
    exact ⟨fun ha hf msg hm => ha msg hm hf, fun ha msg hm hf => ha hf msg hm⟩
  cases target with
  | openAIChatCompletions => simp [Message.KeepsHistory, keepsHistory]
  | anthropic => exact hc
  | gemini =>
    simp only [Message.KeepsHistory, keepsHistory, ← hc, ← h.results, mem_flatMap]
    constructor
    · refine fun ha => ⟨fun msg hm => (ha msg hm).1, fun t ht => ?_⟩
      obtain ⟨msg, hm, ht⟩ := ht
      exact (ha msg hm).2 t ht
    · exact fun ha msg hm => ⟨ha.1 msg hm, fun t ht => ha.2 t ⟨msg, hm, ht⟩⟩
  | openAIResponses =>
    simp only [Message.KeepsHistory, keepsHistory, ← h.both, ← h.results, flatMap_eq_nil_iff,
      ← forall_and]

theorem appendLine_eq_nil_iff {out text : Bytes} :
    appendLine out text = [] ↔ out = [] ∧ text = [] := by
  cases out <;> simp [appendLine]

theorem joinLines_eq_nil_iff {out : Bytes} {texts : List Bytes} :
    joinLines out texts = [] ↔ out = [] ∧ ∀ t ∈ texts, t = [] := by
  induction texts generalizing out with
  | nil => simp [joinLines]
  | cons t ts ih =>
    have hs : joinLines out (t :: ts) = joinLines (appendLine out t) ts := rfl
    rw [hs, ih, appendLine_eq_nil_iff, forall_mem_cons, and_assoc]

theorem Message.textContent_eq_nil_iff (msg : Message) :
    msg.textContent = [] ↔ ∀ t ∈ msg.content.filterMap ContentBlock.text?, t = [] := by
  rw [msg.textContent_eq, joinLines_eq_nil_iff, and_iff_right rfl]

theorem Message.assistantText_eq_nil_iff (msg : Message) :
    msg.assistantText = [] ↔ (msg.role = ascii "assistant" → msg.textContent = []) := by
  simp [Message.assistantText]

variable {msg : Message}

theorem Message.both_iff {assistant calls text : Bool}
    (hr : msg.role = ascii "assistant" ↔ assistant) (hc : msg.toolCalls = [] ↔ calls = false)
    (ht : msg.textContent = [] ↔ text = false) :
    msg.toolCalls = [] ∨ msg.assistantText = [] ↔ (assistant && calls && text) = false := by
  rw [Message.assistantText_eq_nil_iff, hc, hr, ht]
  cases assistant <;> cases calls <;> cases text <;> decide

section

variable (rj : RapidJson)

variable (content part : Json)

theorem result_blockOf : (blockOf rj part).bind result? =
      if stringAt part "type" == ascii "tool_result" then some (resultText part) else none := by
  unfold blockOf
  split
  · simp_all +decide [result?]
  split
  · simp_all +decide [result?]
  split <;> simp [result?]

theorem text_blockOf : (blockOf rj part).bind ContentBlock.text? =
      if stringAt part "type" == ascii "text" then some (stringAt part "text") else none := by
  unfold blockOf
  split
  · simp [ContentBlock.text?]
  split
  · simp [ContentBlock.text?]
  split <;> simp [ContentBlock.text?]

theorem isSome_called_blockOf : ((blockOf rj part).bind (called? rj)).isSome =
      (stringAt part "type" == ascii "tool_use") := by
  unfold blockOf
  split
  · simp_all +decide [called?]
  split
  · simp_all [called?]
  split <;> simp_all [called?]

theorem texts_blocksOf : (∀ t ∈ (blocksOf rj content).filterMap ContentBlock.text?, t = []) ↔
      saysText content = false := by
  cases content with
  | string s => simp [blocksOf, saysText, ContentBlock.text?]
  | array parts =>
    simp only [blocksOf, saysText, filterMap_filterMap, mem_filterMap, text_blockOf]
    rw [List.any_eq_false]
    constructor
    · intro h part hp
      simp only [Bool.and_eq_true, Bool.not_eq_true', not_and, Bool.not_eq_false]
      intro htype
      exact List.isEmpty_iff.2 (h _ ⟨part, hp, by simp [htype]⟩)
    · rintro h t ⟨part, hp, ht⟩
      have := h part hp
      split at ht
      · rename_i htype
        cases ht
        simpa [htype] using this
      · cases ht
  | _ => simp [blocksOf, saysText]

theorem toolCalls_ofBlocks_eq_nil_iff (role : Bytes) (blocks : List ContentBlock) :
    (Message.ofBlocks role blocks).toolCalls = [] ↔ blocks.filterMap (called? rj) = [] := by
  rw [← callsOf_ofBlocks role, Message.callsOf, map_eq_nil_iff]

theorem called_eq_nil_iff {parts : List Json} {read : Json → Option ContentBlock}
    {isCall : Json → Bool} (h : ∀ part, ((read part).bind (called? rj)).isSome = isCall part) :
    (parts.filterMap read).filterMap (called? rj) = [] ↔ parts.any isCall = false := by
  rw [filterMap_filterMap, filterMap_eq_nil_iff, List.any_eq_false]
  refine forall₂_congr fun part _ => ?_
  rw [← h part, Bool.not_eq_true, isSome_eq_false_iff, isNone_iff_eq_none]

theorem called_blocksOf : (blocksOf rj content).filterMap (called? rj) = [] ↔
      (content.array?.getD []).any (fun part => stringAt part "type" == ascii "tool_use") =
        false := by
  cases content with
  | array parts => exact called_eq_nil_iff rj (isSome_called_blockOf rj)
  | _ => simp [blocksOf, called?, array?]

theorem results_blocksOf : (blocksOf rj content).filterMap result? =
      (content.array?.getD []).filterMap fun part =>
        if stringAt part "type" == ascii "tool_result" then some (resultText part) else none := by
  cases content with
  | array parts => simp only [blocksOf, array?, getD_some, filterMap_filterMap, result_blockOf]
  | _ => simp [blocksOf, result?, array?]

end

theorem Entry.shows_nothing {rj : RapidJson} (hm : entry.messages = [])
    (hc : callsTool source e = false) (hr : resultTexts rj source e = [])
    (hbo : callsAndSays source e = false) : entry.Shows rj source e := by
  refine ⟨?_, ?_, ?_⟩ <;> simp [hm, hc, hr, hbo]

theorem Entry.shows_message {rj : RapidJson} (hm : entry.messages = [msg])
    (hc : msg.toolCalls = [] ↔ callsTool source e = false)
    (hr : msg.content.filterMap result? = resultTexts rj source e)
    (hbo : msg.toolCalls = [] ∨ msg.assistantText = [] ↔ callsAndSays source e = false) :
    entry.Shows rj source e := by
  refine ⟨?_, ?_, ?_⟩
  · rwa [hm, forall_mem_singleton]
  · rw [hm, flatMap_singleton, hr]
  · rwa [hm, forall_mem_singleton]

section

variable {rj : RapidJson}

theorem Anthropic.shows_entryOf (m : Json) : (entryOf rj m).Shows rj .anthropic m := by
  unfold entryOf
  split
  · have hc : (Message.ofBlocks (stringAt m "role")
        (blocksOf rj (valueAt m "content"))).toolCalls = [] ↔ callsTool m = false := by
      rw [toolCalls_ofBlocks_eq_nil_iff rj, callsTool, entriesAt_eq_valueAt]
      exact called_blocksOf rj _
    refine Entry.shows_message rfl hc ?_ (Message.both_iff ?_ hc ?_)
    · rw [Message.ofBlocks_eq, results_blocksOf, ← entriesAt_eq_valueAt]; rfl
    · simp [Message.ofBlocks_eq]
    · rw [Message.textContent_eq_nil_iff, Message.ofBlocks_eq]; exact texts_blocksOf rj _
  · rename_i ho
    have he := entriesAt_of_not_object (Bool.not_eq_true _ ▸ ho) "content"
    have hc : callsTool m = false := by simp [callsTool, he]
    have hr : resultTexts m = [] := by simp [resultTexts, he]
    have hbo : callsAndSays m = false := by simp [callsAndSays, hc]
    exact Entry.shows_nothing rfl hc hr hbo

theorem OpenAI.shows_entryOf {m : Json} (h : toolMessage m) :
    (entryOf rj m).Shows rj .openAIChatCompletions m := by
  unfold entryOf
  split
  · rename_i ho
    have he := entriesAt_of_not_object (by simpa using ho) "tool_calls"
    have hc : callsTool m = false := by simp [callsTool, he]
    have hbo : callsAndSays m = false := by simp [callsAndSays, hc]
    exact Entry.shows_nothing rfl hc rfl hbo
  split
  · rename_i hs
    have hc : callsTool m = false := by simp [callsTool, hs]
    have hbo : callsAndSays m = false := by simp [callsAndSays, hc]
    exact Entry.shows_nothing rfl hc rfl hbo
  · rename_i ho hs
    obtain ⟨-, ht, -⟩ := toolMessage_cases h (by simpa using ho) hs
    have hc : (entriesAt m "tool_calls").flatMap callOf = [] ↔ callsTool m = false := by
      rw [callsTool, Bool.eq_false_iff.2 hs, Bool.not_false, Bool.true_and,
        flatMap_eq_nil_iff, List.any_eq_false]
      exact forall₂_congr fun tc _ => by cases h : tc.isObject <;> simp [callOf, h]
    refine Entry.shows_message rfl hc ?_ (Message.both_iff (by simp) hc ?_)
    · exact results_of_text (text_of_blocksOf rj ht)
    · rw [Message.textContent_eq_nil_iff]; exact texts_blocksOf rj _

theorem OpenAIResponses.calls_entryOf (item : Json) :
    ((∀ msg ∈ (entryOf item).messages, msg.toolCalls = []) ↔ callsTool item = false) ∧
      ∀ msg ∈ (entryOf item).messages, msg.toolCalls = [] ∨ msg.assistantText = [] := by
  have hm : ∀ msg ∈ (messageEntry item).messages, msg.toolCalls = [] := by
    unfold messageEntry
    split <;> simp
  unfold entryOf callsTool
  split
  · rename_i ho
    simp +decide [stringAt_of_not_object (by simpa using ho)]
  split
  · rename_i hi
    rw [hi]
    exact ⟨iff_of_true hm rfl, fun msg hms => .inl (hm msg hms)⟩
  rename_i hi
  rw [Bool.eq_false_iff.2 hi, Bool.not_false, Bool.true_and]
  split
  · rename_i ht
    rw [ht, forall_mem_singleton, forall_mem_singleton]
    exact ⟨by simp, .inr rfl⟩
  · rename_i ht
    rw [Bool.eq_false_iff.2 ht]
    split <;> simp

theorem OpenAIResponses.shows_entryOf {item : Json} (h : toolItem item) :
    (entryOf item).Shows rj .openAIResponses item := by
  have hp : (entryOf item).Placed rj .openAIResponses := placed_entryOf h
  obtain ⟨hc, hbo⟩ := calls_entryOf item
  refine ⟨hc, flatMap_eq_nil_iff.2 fun msg hm => ?_, iff_of_true hbo rfl⟩
  have hf : msg.InFields := hp.messages msg hm
  exact results_of_text hf.content

theorem Gemini.partOf_pieces (p : Json) : ((partOf rj p).bind (called? rj)).isSome = callPart p ∧
      (partOf rj p).bind ContentBlock.text? = textOf p ∧ (partOf rj p).bind result? =
        if responsePart p then some (objectTextAt rj (valueAt p "functionResponse") "response")
        else none := by
  unfold partOf callPart responsePart
  cases textOf p with
  | some text => simp [called?, ContentBlock.text?, result?]
  | none =>
    cases (valueAt p "functionCall").isObject <;> cases (valueAt p "functionResponse").isObject <;>
      simp [called?, ContentBlock.text?, result?]

theorem Gemini.texts_partOf (parts : List Json) :
    (∀ t ∈ parts.filterMap (fun p => (partOf rj p).bind ContentBlock.text?), t = []) ↔
      (parts.any fun p => (textOf p).any fun t => !t.isEmpty) = false := by
  rw [List.any_eq_false, forall_mem_filterMap]
  refine forall₂_congr fun p _ => ?_
  rw [(partOf_pieces p).2.1]
  cases textOf p <;> simp

theorem Gemini.shows_entryOf {c : Json} (h : toolContent c) :
    (entryOf rj c).Shows rj .gemini c := by
  unfold entryOf
  split
  · rename_i ho
    simp only [toolContent, ho, Bool.not_true, Bool.false_or, Bool.and_eq_true] at h
    generalize hblocks : (entriesAt c "parts").filterMap (partOf rj) = blocks
    have hc : (Message.ofBlocks
        (if stringAt c "role" == ascii "model" then ascii "assistant" else stringAt c "role")
        (number 0 blocks)).toolCalls = [] ↔ callsTool c = false := by
      rw [toolCalls_ofBlocks_eq_nil_iff rj, filterMap_number called_numbered, ← hblocks]
      exact called_eq_nil_iff rj fun p => (partOf_pieces p).1
    refine Entry.shows_message rfl hc ?_ (Message.both_iff ?_ hc ?_)
    · rw [Message.ofBlocks_eq, filterMap_number result_numbered, ← hblocks, filterMap_filterMap]
      exact filterMap_congr fun p _ => (partOf_pieces p).2.2
    · rw [Message.ofBlocks_eq]
      rcases Bool.or_eq_true_iff.1 h.1 with hr | hr
      · simp +decide [beq_iff_eq.1 hr]
      · simp [hr]
    · rw [Message.textContent_eq_nil_iff, Message.ofBlocks_eq, filterMap_number text_numbered,
        ← hblocks, filterMap_filterMap]
      exact texts_partOf (entriesAt c "parts")
  · rename_i ho
    have he := entriesAt_of_not_object (Bool.not_eq_true _ ▸ ho) "parts"
    have hc : callsTool c = false := by simp [callsTool, he]
    have hre : resultTexts rj c = [] := by simp [resultTexts, he]
    have hbo : callsAndSays c = false := by simp [callsAndSays, hc]
    exact Entry.shows_nothing rfl hc hre hbo

theorem keepsHistory_map {es : List Json} {read : Json → Entry}
    (h : ∀ e ∈ es, (read e).Shows rj source e) (target : Format) :
    (∀ msg ∈ (es.map read).flatMap (·.messages), msg.KeepsHistory rj source target) ↔
      ∀ e ∈ es, keepsHistory rj source target e := by
  constructor
  · exact fun ha e he => ((h e he).keepsHistory_iff target).1 fun msg hm =>
      ha msg (mem_flatMap.2 ⟨_, List.mem_map_of_mem he, hm⟩)
  · intro ha msg hm
    obtain ⟨_, hen, hm⟩ := mem_flatMap.1 hm
    obtain ⟨e, he, rfl⟩ := List.mem_map.1 hen
    exact ((h e he).keepsHistory_iff target).2 (ha e he) msg hm

theorem keepsHistory_of_text (hc : msg.toolCalls = []) (ht : ∀ b ∈ msg.content, b.type = .text)
    (target : Format) : msg.KeepsHistory rj source target := by
  have hr := results_of_text ht
  cases target with
  | anthropic => exact fun _ => hc
  | openAIChatCompletions => trivial
  | openAIResponses => exact ⟨hr, .inl hc⟩
  | gemini => exact ⟨fun _ => hc, by simp [hr]⟩

theorem keepsHistory_requestOf {doc : Json} (h : toolRequest source doc) (target : Format) :
    (∀ msg ∈ (requestOf rj source doc).messages, msg.KeepsHistory rj source target) ↔
      ∀ e ∈ conversationOf source doc, keepsHistory rj source target e := by
  rw [messages_requestOf]
  cases source with
  | anthropic => exact keepsHistory_map (fun m _ => Anthropic.shows_entryOf m) target
  | openAIChatCompletions =>
    exact keepsHistory_map (fun m hm => OpenAI.shows_entryOf (List.all_eq_true.1 h m hm)) target
  | openAIResponses =>
    simp only [entriesOf, conversationOf, OpenAIResponses.inputEntries, entriesAt]
    simp only [toolRequest, entriesAt] at h
    split
    · -- one message of the user
      rename_i hi
      simp only [hi]
      refine iff_of_true ?_ (by simp [array?])
      exact forall_mem_singleton.2 (keepsHistory_of_text rfl (by simp) target)
    · rename_i items hi
      rw [hi] at h ⊢
      exact keepsHistory_map
        (fun item hit => OpenAIResponses.shows_entryOf (List.all_eq_true.1 h item hit)) target
    · rename_i ha
      have hn : (doc.lookup "input").bind array? = none := by
        cases hi : doc.lookup "input" with
        | none => rfl
        | some input =>
          cases input with
          | array items => exact absurd hi (ha items)
          | _ => rfl
      simp [hn]
  | gemini =>
    exact keepsHistory_map (fun c hc => Gemini.shows_entryOf (List.all_eq_true.1 h c hc)) target

end

theorem tool_history_kept_iff {rj : RapidJson} (hrj : Lawful rj) {source target : Format}
    (hne : source ≠ target) {body : Bytes} {doc : Json} (hparse : rj.parse body = some doc)
    (hobj : doc.isObject = true) (htool : toolRequest source doc = true) (m : Bytes) :
    ∃ ir out ir', parseRequest rj source body = .ok ir ∧
      convertRequest rj body source target m = .ok { success := true, body := out } ∧
      parseRequest rj target out = .ok ir' ∧
      (SameHistory rj ir ir' ↔
        ∀ e ∈ conversationOf source doc, keepsHistory rj source target e) := by
  have hok := requestOk_of_tool htool
  obtain ⟨hplaced, hsupported⟩ := placed_requestOf rj htool
  have hcanonical := requestOf_canonical hrj source doc
  obtain ⟨out, hconvert, hback⟩ := convertRequest_reread hrj target hparse hobj hok
    hsupported (fun _ => noSystemRoles_of_placed hplaced) (.inl hne)
  refine ⟨_, out, _, parseRequest_eq hparse hobj hok, hconvert, hback, ?_⟩
  have hkept := fun msg hmsg => kept_iff hrj (hcanonical.messages msg hmsg) (hplaced msg hmsg)
    target
  have hmessages : (withModel (requestOf rj source doc) m).messages =
      (requestOf rj source doc).messages := rfl
  calc SameHistory rj (requestOf rj source doc)
        (reread rj target (withModel (requestOf rj source doc) m))
      ↔ ∀ msg ∈ (requestOf rj source doc).messages, msg.Kept rj target :=
        sameHistory_reread_iff hmessages fun msg hmsg => (hkept msg hmsg).1
    _ ↔ ∀ msg ∈ (requestOf rj source doc).messages, msg.KeepsHistory rj source target :=
        forall₂_congr fun msg hmsg => (hkept msg hmsg).2
    _ ↔ ∀ e ∈ conversationOf source doc, keepsHistory rj source target e :=
        keepsHistory_requestOf htool target

theorem weatherCalls_history_kept : ∃ ir out ir',
      parseRequest compact .gemini (compact.write weatherCalls) = .ok ir ∧
      convertRequest compact (compact.write weatherCalls) .gemini
        .anthropic "claude" = .ok { success := true, body := out } ∧
      parseRequest compact .anthropic out = .ok ir' ∧
      SameHistory compact ir ir' := by
  obtain ⟨ir, out, ir', hparse, hconvert, hback, hiff⟩ := tool_history_kept_iff lawful_compact
    (by decide : Format.gemini ≠ .anthropic) (lawful_compact.parse_write weatherCalls) rfl
    (by decide) "claude"
  exact ⟨ir, out, ir', hparse, hconvert, hback, hiff.2 fun e _ h => by cases h⟩

def weatherToolCalls : Json :=
  .object [("model", .string "gpt-4o"), ("messages", .array [
    .object [("role", .string "user"), ("content", .string "Weather in Rome?")],
    .object [("role", .string "assistant"), ("content", .null), ("tool_calls", .array [
      .object [("id", .string "call_1"), ("type", .string "function"), ("function", .object [
        ("name", .string "get_weather"),
        ("arguments", .string "\x7b\"city\":\"Rome\"\x7d")])]])],
    .object [("role", .string "tool"), ("tool_call_id", .string "call_1"),
      ("content", .string "sunny")]])]

theorem weatherToolCalls_call_lost : toolRequest .openAIChatCompletions weatherToolCalls = true ∧
      ∃ ir out ir', parseRequest compact .openAIChatCompletions
          (compact.write weatherToolCalls) = .ok ir ∧
        convertRequest compact (compact.write weatherToolCalls)
          .openAIChatCompletions .anthropic "claude" = .ok { success := true, body := out } ∧
        parseRequest compact .anthropic out = .ok ir' ∧
        (ir.messages.flatMap (Message.callsOf compact)).length = 1 ∧
        ir'.messages.flatMap (Message.callsOf compact) = [] ∧
        ¬ SameHistory compact ir ir' := by
  have htool : toolRequest .openAIChatCompletions weatherToolCalls := by decide
  have hok := requestOk_of_tool htool
  obtain ⟨hplaced, hsupported⟩ := placed_requestOf compact htool
  have hread := lawful_compact.parse_write weatherToolCalls
  obtain ⟨out, hconvert, hback⟩ := convertRequest_reread lawful_compact .anthropic hread
    rfl hok hsupported (fun _ => noSystemRoles_of_placed hplaced)
    (.inl (by decide) : _ ∨ ascii "claude" ≠ [])
  have hcalls : ((requestOf compact .openAIChatCompletions weatherToolCalls).messages.flatMap
      (Message.callsOf compact)).length = 1 := by decide
  have hlost : (reread compact .anthropic (withModel
      (requestOf compact .openAIChatCompletions weatherToolCalls) "claude")).messages.flatMap
        (Message.callsOf compact) = [] := length_eq_zero_iff.1 (by decide)
  refine ⟨htool, _, out, _, parseRequest_eq hread rfl hok, hconvert, hback, hcalls, hlost,
    fun hsame => ?_⟩
  have hnone := hsame.calls.symm.trans hlost
  rw [hnone] at hcalls
  cases hcalls

end Gateway.Protocol
