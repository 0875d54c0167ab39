import Gateway.Protocol.Remapping

/-! # Requests with tools -/

namespace Gateway.Protocol

open Lib List

def textualPart (sub : Json) : Bool :=
  !sub.isObject || stringAt sub "type" == "text" && (valueAt sub "text").isString

def Anthropic.toolPart (part : Json) : Bool :=
  !part.isObject || stringAt part "type" == "text"
    || stringAt part "type" == "tool_use" && (valueAt part "input").isObject
    || stringAt part "type" == "tool_result" && (entriesAt part "content").all textualPart

def Anthropic.toolMessage (m : Json) : Bool :=
  !m.isObject || isUserOrAssistant (stringAt m "role") && (entriesAt m "content").all toolPart

def OpenAI.toolMessage (m : Json) : Bool :=
  !m.isObject || stringAt m "role" == "system" || stringAt m "role" == "developer"
    || (isUserOrAssistant (stringAt m "role") || stringAt m "role" == "tool")
      && textContentOnly (valueAt m "content")
      && (stringAt m "role" == "assistant" || (entriesAt m "tool_calls").isEmpty)

def Gemini.toolPart (p : Json) : Bool :=
  partComplete p && (!p.isObject || (textOf p).isSome || (valueAt p "functionCall").isObject
    || (valueAt p "functionResponse").isObject)

def Gemini.toolContent (c : Json) : Bool :=
  !c.isObject || (stringAt c "role" == "user" || stringAt c "role" == "model")
    && (entriesAt c "parts").all toolPart

def OpenAIResponses.toolItem (item : Json) : Bool :=
  textItem item || !(stringAt item "type" == "message" || (item.lookup "role").isSome)
    && (stringAt item "type" == "function_call" || stringAt item "type" == "function_call_output")

def toolRequest (source : Format) (doc : Json) : Bool :=
  match source with
  | .anthropic => (entriesAt doc "messages").all Anthropic.toolMessage
  | .openAIChatCompletions => (entriesAt doc "messages").all OpenAI.toolMessage
  | .openAIResponses => (entriesAt doc "input").all OpenAIResponses.toolItem
  | .gemini => (entriesAt doc "contents").all Gemini.toolContent

structure Message.InBlocks (rj : RapidJson) (msg : Message) : Prop where
  role : msg.role = ascii "user" ∨ msg.role = ascii "assistant"
  toolCalls : msg.toolCalls = msg.content.filterMap ContentBlock.call?
  arguments : ∀ b ∈ msg.content, b.type = .toolUse →
    ∃ o : Json, o.isObject = true ∧ b.toolArguments = rj.write o

structure Message.InFields (msg : Message) : Prop where
  role : msg.role = ascii "user" ∨ msg.role = ascii "assistant" ∨ msg.role = ascii "tool"
  content : ∀ b ∈ msg.content, b.type = .text
  toolCalls : msg.toolCalls ≠ [] → msg.role = ascii "assistant"

def Format.callsInFields : Format → Bool
  | .openAIChatCompletions => true
  | .openAIResponses => true
  | _ => false

def Message.Placed (rj : RapidJson) (source : Format) (msg : Message) : Prop :=
  if source.callsInFields then msg.InFields else msg.InBlocks rj

structure Entry.Placed (rj : RapidJson) (source : Format) (e : Entry) : Prop where
  messages : ∀ msg ∈ e.messages, msg.Placed rj source
  unsupported : e.unsupported = false

theorem textualPart_read {sub : Json} (h : textualPart sub) :
    resultPartOk sub ∧ resultPartForeign sub = false := by
  cases ho : sub.isObject with
  | false => simp [resultPartOk, resultPartForeign, ho]
  | true =>
    simp only [textualPart, ho, Bool.not_true, Bool.false_or, Bool.and_eq_true] at h
    obtain ⟨htype, ht⟩ := h
    unfold valueAt at ht
    cases hv : sub.lookup "text" with
    | none => rw [hv] at ht; cases ht
    | some v =>
      rw [hv] at ht
      have hs : v.isString := ht
      simp [resultPartOk, resultPartForeign, htype, hv, hs]

variable {part m : Json} {b : ContentBlock}

namespace Anthropic

variable {rj : RapidJson}

theorem toolPart_cases (h : toolPart part) (ho : part.isObject) :
    stringAt part "type" = ascii "text" ∨
      (stringAt part "type" = ascii "tool_use" ∧ (valueAt part "input").isObject) ∨
      (stringAt part "type" = ascii "tool_result" ∧
        ∀ sub ∈ entriesAt part "content", textualPart sub) := by
  simpa [toolPart, ho, or_assoc] using h

theorem toolPart_read (h : toolPart part) : contentPartOk part ∧ partForeign part = false := by
  cases ho : part.isObject with
  | false => simp [contentPartOk, partForeign, ho]
  | true =>
    obtain ht | ⟨ht, -⟩ | ⟨ht, hsu⟩ := toolPart_cases h ho
    · simp +decide [contentPartOk, partForeign, ht]
    · simp +decide [contentPartOk, partForeign, ht]
    · have hf : (entriesAt part "content").any resultPartForeign = false :=
        any_eq_false.2 fun sub hs => by simp [(textualPart_read (hsu sub hs)).2]
      have hok : (entriesAt part "content").all resultPartOk :=
        all_eq_true.2 fun sub hs => (textualPart_read (hsu sub hs)).1
      simp [contentPartOk, partForeign, ht, hf, hok]

theorem arguments_of_blockOf (h : toolPart part) (hb : blockOf rj part = some b)
    (htype : b.type = .toolUse) : ∃ o : Json, o.isObject ∧ b.toolArguments = rj.write o := by
  have ho : part.isObject := by
    cases ho : part.isObject with
    | true => rfl
    | false => rw [blockOf_of_not_object rj ho] at hb; cases hb
  obtain ht | ⟨ht, hi⟩ | ⟨ht, -⟩ := toolPart_cases h ho
  · simp only [blockOf, ht, beq_self_eq_true, if_true, Option.some.injEq] at hb
    rw [← hb] at htype; cases htype
  · refine ⟨valueAt part "input", hi, ?_⟩
    simp +decide only [blockOf, ht, if_false, if_true, Option.some.injEq] at hb
    rw [← hb, objectTextAt_of_object rj hi]
  · simp +decide only [blockOf, ht, if_false, if_true, Option.some.injEq] at hb
    rw [← hb] at htype; cases htype

theorem placed_entryOf (h : toolMessage m) : (entryOf rj m).Placed rj .anthropic := by
  unfold entryOf
  split
  · rename_i ho
    simp only [toolMessage, ho, Bool.not_true, Bool.false_or, Bool.and_eq_true,
      entriesAt_eq_valueAt] at h
    obtain ⟨hr, hp⟩ := h
    rw [all_eq_true] at hp
    refine ⟨fun msg hm => ?_, any_eq_false.2 fun part hpa => ?_⟩
    · rw [mem_singleton.1 hm, Message.ofBlocks_eq]
      refine ⟨role_of_isUserOrAssistant hr, rfl, fun b hb ht => ?_⟩
      generalize valueAt m "content" = content at hb hp
      cases content with
      | array parts =>
        obtain ⟨part, hpa, hblock⟩ := mem_filterMap.1 hb
        exact arguments_of_blockOf (hp part hpa) hblock ht
      | string t => rw [mem_singleton.1 hb] at ht; cases ht
      | _ => cases hb
    · simp [(toolPart_read (hp part hpa)).2]
  · exact ⟨by simp, rfl⟩

theorem messageOk_of_toolMessage (h : toolMessage m) : messageOk m := by
  cases ho : m.isObject with
  | false => simp [messageOk, ho]
  | true =>
    simp only [toolMessage, ho, Bool.not_true, Bool.false_or, Bool.and_eq_true] at h
    have hok : (entriesAt m "content").all contentPartOk :=
      all_eq_true.2 fun part hp => (toolPart_read (all_eq_true.1 h.2 part hp)).1
    simp [messageOk, hok]

end Anthropic

namespace OpenAI

variable {rj : RapidJson}

theorem toolMessage_cases (h : toolMessage m) (ho : m.isObject)
    (hs : ¬ (stringAt m "role" == ascii "system" || stringAt m "role" == ascii "developer")) :
    (stringAt m "role" = ascii "user" ∨ stringAt m "role" = ascii "assistant" ∨
        stringAt m "role" = ascii "tool") ∧ textContentOnly (valueAt m "content") ∧
      (stringAt m "role" = ascii "assistant" ∨ entriesAt m "tool_calls" = []) := by
  have hs' := Bool.or_eq_false_iff.1 (Bool.not_eq_true _ ▸ hs)
  simpa [toolMessage, ho, hs', isUserOrAssistant, or_assoc, and_assoc] using h

theorem placed_entryOf (h : toolMessage m) : (entryOf rj m).Placed rj .openAIChatCompletions := by
  unfold entryOf
  split
  · exact ⟨by simp, rfl⟩
  split
  · exact ⟨by simp, rfl⟩
  · rename_i ho hs
    simp only [Bool.not_eq_true', Bool.not_eq_false] at ho
    obtain ⟨hr, ht, hc⟩ := toolMessage_cases h ho hs
    refine ⟨fun msg hm => ?_, not_contentForeign_of_text ht⟩
    rw [mem_singleton.1 hm]
    refine ⟨hr, text_of_blocksOf rj ht, fun hne => hc.resolve_right fun hn => hne ?_⟩
    simp [hn]

theorem openAIMessageOk_of_toolMessage (h : toolMessage m) : openAIMessageOk m := by
  cases ho : m.isObject with
  | false => simp [openAIMessageOk, messageOk, ho]
  | true =>
    by_cases hs : (stringAt m "role" == ascii "system" ||
        stringAt m "role" == ascii "developer")
    · unfold openAIMessageOk; rw [Bool.or_eq_true]; exact .inl hs
    · obtain ⟨-, ht, -⟩ := toolMessage_cases h ho hs
      have hok : messageOk m := by simp [messageOk, entriesAt_eq_valueAt, contentPartOk_of_text ht]
      simp [openAIMessageOk, hok]

end OpenAI

namespace Gemini

variable {rj : RapidJson}

theorem not_partForeign_of_toolPart {p : Json} (h : toolPart p) : partForeign rj p = false := by
  unfold toolPart at h
  unfold partForeign partOf
  cases ho : p.isObject with
  | false => rfl
  | true =>
    cases ht : textOf p with
    | some text => rfl
    | none =>
      cases hc : (valueAt p "functionCall").isObject with
      | true => rfl
      | false =>
        cases hr : (valueAt p "functionResponse").isObject with
        | true => rfl
        | false => simp [ho, ht, hc, hr] at h

theorem arguments_of_partOf {p : Json} (h : partComplete p) (hb : partOf rj p = some b)
    (ht : b.type = .toolUse) : ∃ o : Json, o.isObject ∧ b.toolArguments = rj.write o := by
  unfold partOf at hb
  split at hb
  · cases hb; cases ht
  split at hb
  · rename_i hc
    simp only [partComplete, hc, Bool.not_true, Bool.false_or, Bool.and_eq_true] at h
    cases hb
    exact ⟨_, h.1, objectTextAt_of_object rj h.1⟩
  split at hb
  · cases hb; cases ht
  · cases hb

theorem exists_of_mem_number {bs : List ContentBlock} {k : Nat} (h : b ∈ number k bs) :
    ∃ i, ∃ b' ∈ bs, b = numbered i b' := by
  induction bs generalizing k with
  | nil => cases h
  | cons b' bs ih =>
    rcases mem_cons.1 h with rfl | h
    · exact ⟨_, b', mem_cons_self, rfl⟩
    · obtain ⟨i, b'', hb'', heq⟩ := ih h; exact ⟨i, b'', mem_cons_of_mem b' hb'', heq⟩

theorem type_numbered (k : Nat) (b : ContentBlock) : (numbered k b).type = b.type := by
  unfold numbered
  split <;> rfl

theorem toolArguments_numbered (k : Nat) (b : ContentBlock) :
    (numbered k b).toolArguments = b.toolArguments := by
  unfold numbered
  split <;> rfl

theorem placed_entryOf {c : Json} (h : toolContent c) : (entryOf rj c).Placed rj .gemini := by
  unfold entryOf
  split
  · rename_i ho
    simp only [toolContent, ho, Bool.not_true, Bool.false_or, Bool.and_eq_true] at h
    obtain ⟨hr, hpa⟩ := h
    rw [all_eq_true] at hpa
    refine ⟨fun msg hm => ?_, any_eq_false.2 fun p hp => by
      simp [not_partForeign_of_toolPart (hpa p hp)]⟩
    rw [mem_singleton.1 hm, Message.ofBlocks_eq]
    refine ⟨role_of_content hr, rfl, fun b hb ht => ?_⟩
    obtain ⟨i, b', hb', rfl⟩ := exists_of_mem_number hb
    obtain ⟨p, hp, hpb⟩ := mem_filterMap.1 hb'
    rw [type_numbered] at ht
    rw [toolArguments_numbered]
    exact arguments_of_partOf (Bool.and_eq_true_iff.1 (hpa p hp)).1 hpb ht
  · exact ⟨by simp, rfl⟩

end Gemini

variable {doc : Json}

namespace OpenAIResponses

variable {rj : RapidJson}

theorem placed_entryOf {item : Json} (h : toolItem item) :
    (entryOf item).Placed rj .openAIResponses := by
  rcases Bool.or_eq_true_iff.1 h with htext | ht
  · have hp := plain_entryOf htext
    refine ⟨fun msg hm => ?_, hp.unsupported⟩
    have hm' := hp.messages msg hm
    exact ⟨hm'.role.imp_right .inl, hm'.content, fun hne => absurd hm'.toolCalls hne⟩
  · rw [Bool.and_eq_true, Bool.not_eq_true'] at ht
    unfold entryOf
    split
    · exact ⟨by simp, rfl⟩
    rw [if_neg (by simp [ht.1])]
    split
    · refine ⟨fun msg hm => ?_, rfl⟩
      rw [mem_singleton.1 hm]
      exact ⟨.inr (.inl rfl), by simp, fun _ => rfl⟩
    split
    · refine ⟨fun msg hm => ?_, rfl⟩
      rw [mem_singleton.1 hm]
      exact ⟨.inr (.inr rfl), by simp, fun hne => absurd rfl hne⟩
    · exact ⟨by simp, rfl⟩

theorem placed_inputEntries (h : (entriesAt doc "input").all toolItem) :
    ∀ e ∈ inputEntries doc, e.Placed rj .openAIResponses := by
  unfold inputEntries
  split
  · intro e he
    rw [mem_singleton.1 he]
    refine ⟨fun msg hm => ?_, rfl⟩
    rw [mem_singleton.1 hm]
    exact ⟨.inl rfl, by simp, fun hne => absurd rfl hne⟩
  · rename_i items hi
    rw [entriesAt, hi] at h
    simp only [forall_mem_map]
    exact fun item hit => placed_entryOf (all_eq_true.1 h item hit)
  · simp

end OpenAIResponses

variable {source : Format}

theorem placed_entriesOf (rj : RapidJson) (h : toolRequest source doc) :
    ∀ e ∈ entriesOf rj source doc, e.Placed rj source := by
  cases source with
  | anthropic =>
    simp only [entriesOf, forall_mem_map]
    exact fun m hm => Anthropic.placed_entryOf (all_eq_true.1 h m hm)
  | openAIChatCompletions =>
    simp only [entriesOf, forall_mem_map]
    exact fun m hm => OpenAI.placed_entryOf (all_eq_true.1 h m hm)
  | openAIResponses => exact OpenAIResponses.placed_inputEntries h
  | gemini =>
    simp only [entriesOf, forall_mem_map]
    exact fun c hc => Gemini.placed_entryOf (all_eq_true.1 h c hc)

theorem placed_requestOf (rj : RapidJson) (h : toolRequest source doc) :
    (∀ msg ∈ (requestOf rj source doc).messages, msg.Placed rj source) ∧
      (requestOf rj source doc).unsupportedContent = false := by
  have hen := placed_entriesOf rj h
  refine ⟨fun msg hm => ?_, ?_⟩
  · obtain ⟨e, he, hmem⟩ := exists_entry_of_mem source hm; exact (hen e he).messages msg hmem
  · rw [unsupportedContent_requestOf]
    exact any_eq_false.2 fun e he => by simp [(hen e he).unsupported]

theorem requestOk_of_tool (h : toolRequest source doc) : requestOk source doc := by
  cases source with
  | anthropic =>
    exact all_eq_true.2 fun m hm => Anthropic.messageOk_of_toolMessage (all_eq_true.1 h m hm)
  | openAIChatCompletions =>
    exact all_eq_true.2 fun m hm => OpenAI.openAIMessageOk_of_toolMessage (all_eq_true.1 h m hm)
  | openAIResponses => rfl
  | gemini => rfl

theorem noSystemRoles_of_placed {rj : RapidJson} {msgs : List Message}
    (h : ∀ msg ∈ msgs, msg.Placed rj source) : NoSystemRoles msgs := by
  intro msg hm
  have hp := h msg hm
  unfold Message.Placed at hp
  split at hp
  · rcases hp.role with hr | hr | hr <;> rw [hr] <;> decide
  · rcases hp.role with hr | hr <;> rw [hr] <;> decide

end Gateway.Protocol
