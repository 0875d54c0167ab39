import Gateway.Protocol.Conversion

/-! # The content of a prompt -/

namespace Gateway.Protocol

open Lib Json List

def bytesAt (j : Json) (key : Bytes) : List Bytes := ((j.lookup key).bind text?).toList

def typedTexts (isText : Bytes → Bool) (part : Json) : List Bytes :=
  if isText (stringAt part "type") then bytesAt part "text" else []

def textsOf (partTexts : Json → List Bytes) (content : Json) : List Bytes :=
  match content with
  | .string s => [s]
  | .array parts => parts.flatMap partTexts
  | _ => []

def resultTextsOf (part : Json) : List Bytes :=
  if stringAt part "type" == "tool_result" then
    textsOf (typedTexts (· == "text")) (valueAt part "content")
  else []

def chatPartTexts (part : Json) : List Bytes :=
  typedTexts (· == "text") part ++ resultTextsOf part

def contentTexts (source : Format) (content : Json) : List Bytes :=
  match source with
  | .anthropic | .openAIChatCompletions => textsOf chatPartTexts content
  | .openAIResponses => textsOf (typedTexts OpenAIResponses.isTextType) content
  | .gemini => (content.array?.getD []).flatMap (bytesAt · "text")

variable (rj : RapidJson)

def hasForeignPart (source : Format) (content : Json) : Bool :=
  match source with
  | .anthropic | .openAIChatCompletions => contentForeign content
  | .openAIResponses => OpenAIResponses.contentForeign content
  | .gemini => (content.array?.getD []).any (Gemini.partForeign rj)

def OpenAI.isSystem (m : Json) : Bool :=
  stringAt m "role" == "system" || stringAt m "role" == "developer"

namespace OpenAIResponses

variable (item : Json)

def isMessage : Bool :=
  stringAt item "type" == "message" || (item.lookup "role").isSome

def isSystem : Bool := roleOf item == "system" || roleOf item == "developer"

def isCall : Bool := stringAt item "type" == "function_call"

def isOutput : Bool := stringAt item "type" == "function_call_output"

def systemContents : List Json :=
  if isMessage item && isSystem item then (item.lookup "content").toList else []

def messageContents : List Json :=
  if isMessage item && !isSystem item then (item.lookup "content").toList else []

def outputContents : List Json :=
  if !isMessage item && isOutput item then (item.lookup "output").toList else []

def foreignItem : Bool :=
  item.isObject && !isMessage item && !isCall item && !isOutput item

end OpenAIResponses

def systemContents (source : Format) (doc : Json) : List Json :=
  match source with
  | .anthropic => (doc.lookup "system").toList
  | .openAIChatCompletions => (entriesAt doc "messages").flatMap fun m =>
      if OpenAI.isSystem m then (m.lookup "content").toList else []
  | .openAIResponses => (doc.lookup "instructions").toList
      ++ (entriesAt doc "input").flatMap OpenAIResponses.systemContents
  | .gemini => ((valueAt doc "systemInstruction").lookup "parts").toList

def messageContents (source : Format) (doc : Json) : List Json :=
  match source with
  | .anthropic => (entriesAt doc "messages").flatMap fun m => (m.lookup "content").toList
  | .openAIChatCompletions => (entriesAt doc "messages").flatMap fun m =>
      if OpenAI.isSystem m then [] else (m.lookup "content").toList
  | .openAIResponses => ((doc.lookup "input").filter isString).toList
      ++ (entriesAt doc "input").flatMap OpenAIResponses.messageContents
  | .gemini => (entriesAt doc "contents").flatMap fun c => (c.lookup "parts").toList

def outputContents (source : Format) (doc : Json) : List Json :=
  match source with
  | .openAIResponses => (entriesAt doc "input").flatMap OpenAIResponses.outputContents
  | _ => []

def promptContents (source : Format) (doc : Json) : List Json :=
  systemContents source doc ++ messageContents source doc ++ outputContents source doc

def promptTexts (source : Format) (doc : Json) : List Bytes :=
  (promptContents source doc).flatMap (contentTexts source)

def promptForeign (source : Format) (doc : Json) : Bool :=
  (promptContents source doc).any (hasForeignPart rj source)
    || source == .openAIResponses && (entriesAt doc "input").any OpenAIResponses.foreignItem

def unreadTexts (source : Format) (doc : Json) : List Bytes :=
  match source with
  | .anthropic | .openAIChatCompletions =>
    (systemContents source doc).flatMap fun c => (c.array?.getD []).flatMap resultTextsOf
  | .openAIResponses =>
    ((systemContents source doc ++ outputContents source doc).filter (!·.isString)).flatMap
      (contentTexts source)
  | .gemini => []

def systemTextOf (source : Format) (doc : Json) : Bytes :=
  match source with
  | .anthropic => Anthropic.systemOf doc
  | .openAIChatCompletions => joinLines [] ((systemContents source doc).map OpenAI.systemLine)
  | .openAIResponses => joinLines [] ((systemContents source doc).filterMap string?)
  | .gemini => Gemini.systemOf doc

def contentBlocks (source : Format) (content : Json) : List ContentBlock :=
  match source with
  | .anthropic | .openAIChatCompletions => blocksOf rj content
  | .openAIResponses => OpenAIResponses.blocksOf content
  | .gemini => (content.array?.getD []).filterMap (Gemini.partOf rj)

def blockContents (source : Format) (doc : Json) : List Json :=
  messageContents source doc ++ (outputContents source doc).filter isString

def ReadIn (source : Format) (doc : Json) (t : Bytes) : Prop :=
  t <:+: systemTextOf source doc ∨
    ∃ c ∈ blockContents source doc, ∃ b ∈ contentBlocks rj source c, t <:+: b.text

theorem infix_appendLine (out text : Bytes) : text <:+: appendLine out text :=
  (suffix_append _ _).isInfix

variable {t : Bytes}

theorem infix_appendLine_left {out : Bytes} (h : t <:+: out) (text : Bytes) :
    t <:+: appendLine out text := by
  unfold appendLine
  split
  · exact h.trans (prefix_append _ _).isInfix
  · rw [append_assoc]; exact h.trans (prefix_append _ _).isInfix

theorem infix_joinLines_left {out : Bytes} (h : t <:+: out) (texts : List Bytes) :
    t <:+: joinLines out texts := by
  induction texts generalizing out with
  | nil => exact h
  | cons text texts ih => exact ih (infix_appendLine_left h text)

theorem infix_joinLines {u : Bytes} {texts : List Bytes} (h : u ∈ texts) (out : Bytes) :
    u <:+: joinLines out texts := by
  induction texts generalizing out with
  | nil => cases h
  | cons text texts ih =>
    rcases mem_cons.1 h with rfl | h
    · exact infix_joinLines_left (infix_appendLine out u) texts
    · exact ih h _

theorem infix_flatMap {α : Type} {f : α → Bytes} {a : α} {xs : List α} (h : a ∈ xs) :
    f a <:+: xs.flatMap f := by
  obtain ⟨s, t, rfl⟩ := append_of_mem h
  rw [flatMap_append, flatMap_cons]
  exact ⟨s.flatMap f, t.flatMap f, by simp⟩

theorem nulFree_of_isInfix {u : Bytes} (hu : NulFree u) (h : t <:+: u) : NulFree t :=
  fun h0 => hu (h.subset h0)

theorem stringAt_of_mem_bytesAt {j : Json} {key : Bytes} (h : t ∈ bytesAt j key) (ht : NulFree t) :
    (j.lookup key).bind string? = some t := by
  unfold bytesAt at h
  cases hv : j.lookup key with
  | none => rw [hv] at h; cases h
  | some v =>
    rw [hv] at h
    cases v with
    | string s =>
      obtain rfl : t = s := by simpa [text?] using h
      simp [string?, ht.cstr_eq]
    | _ => cases h

variable {part : Json}

theorem infix_resultText (h : t ∈ textsOf (typedTexts (· == "text")) (valueAt part "content"))
    (ht : NulFree t) : t <:+: resultText part := by
  unfold valueAt at h
  unfold resultText
  cases hc : part.lookup "content" with
  | none => rw [hc] at h; cases h
  | some content =>
    rw [hc] at h
    cases content with
    | string s => obtain rfl : t = s := mem_singleton.1 h; simpa only [ht.cstr_eq] using infix_rfl
    | array subs =>
      obtain ⟨sub, hs, hm⟩ := mem_flatMap.1 h
      unfold typedTexts at hm
      split at hm
      · have htext : resultPartText sub = t := by
          simp_all [resultPartText, stringAt, stringAt_of_mem_bytesAt hm ht]
        exact htext ▸ infix_flatMap hs
      · cases hm
    | _ => cases h

theorem stringAt_of_mem_typedTexts {isText : Bytes → Bool} (h : t ∈ typedTexts isText part)
    (ht : NulFree t) : isText (stringAt part "type") ∧ textOf part = some t := by
  unfold typedTexts at h
  split at h
  · exact ⟨‹_›, stringAt_of_mem_bytesAt h ht⟩
  · cases h

theorem stringAt_of_textOf (h : textOf part = some t) : stringAt part "text" = t := by
  rw [textOf] at h
  rw [stringAt, h]
  rfl

variable {content : Json}

theorem infix_textsOf {partTexts : Json → List Bytes} {blocks : Json → List ContentBlock}
    {blockOf : Json → Option ContentBlock}
    (hstring : ∀ s, blocks (.string s) = [{ type := .text, text := cstr s }])
    (harray : ∀ parts, blocks (.array parts) = parts.filterMap blockOf)
    (hpart : ∀ part, t ∈ partTexts part → ∃ b, blockOf part = some b ∧ t <:+: b.text)
    (h : t ∈ textsOf partTexts content) (ht : NulFree t) : ∃ b ∈ blocks content, t <:+: b.text := by
  cases content with
  | string s =>
    obtain rfl : t = s := mem_singleton.1 h
    rw [hstring]
    exact ⟨_, mem_singleton_self _, by simpa only [ht.cstr_eq] using infix_rfl⟩
  | array parts =>
    obtain ⟨part, hparts, hm⟩ := mem_flatMap.1 h
    obtain ⟨b, hb, hin⟩ := hpart part hm
    rw [harray]
    exact ⟨b, mem_filterMap.2 ⟨part, hparts, hb⟩, hin⟩
  | _ => cases h

theorem infix_blockOf (rj : RapidJson) (h : t ∈ chatPartTexts part) (ht : NulFree t) :
    ∃ b, blockOf rj part = some b ∧ t <:+: b.text := by
  rcases mem_append.1 h with htext | hr
  · obtain ⟨htype, htext⟩ := stringAt_of_mem_typedTexts htext ht
    refine ⟨{ type := .text, text := t }, ?_, infix_rfl⟩
    rw [blockOf, if_pos htype, stringAt_of_textOf htext]
  · unfold resultTextsOf at hr
    split at hr
    · rename_i htype
      refine ⟨{ type := .toolResult, toolCallId := stringAt part "tool_use_id"
                text := resultText part }, ?_, infix_resultText hr ht⟩
      rw [beq_iff_eq] at htype
      simp +decide [blockOf, htype]
    · cases hr

theorem OpenAIResponses.infix_textPartOf (h : t ∈ typedTexts isTextType part) (ht : NulFree t) :
    ∃ b, textPartOf part = some b ∧ t <:+: b.text := by
  obtain ⟨htype, htext⟩ := stringAt_of_mem_typedTexts h ht
  refine ⟨{ type := .text, text := t }, ?_, infix_rfl⟩
  rw [textPartOf, if_pos htype, stringAt_of_textOf htext]

theorem Gemini.infix_blocks (rj : RapidJson) (h : t ∈ contentTexts .gemini content)
    (ht : NulFree t) : ∃ b ∈ contentBlocks rj .gemini content, t <:+: b.text := by
  obtain ⟨part, hpart, hm⟩ := mem_flatMap.1 h
  have htext : textOf part = some t := stringAt_of_mem_bytesAt hm ht
  have hblock : partOf rj part = some { type := .text, text := t } := by simp [partOf, htext]
  exact ⟨_, mem_filterMap.2 ⟨part, hpart, hblock⟩, infix_rfl⟩

variable {source : Format}

theorem infix_contentBlocks (rj : RapidJson) (h : t ∈ contentTexts source content)
    (ht : NulFree t) : ∃ b ∈ contentBlocks rj source content, t <:+: b.text := by
  have hchat : t ∈ textsOf chatPartTexts content → ∃ b ∈ blocksOf rj content, t <:+: b.text :=
    fun h => infix_textsOf (fun _ => rfl) (fun _ => rfl) (fun _ hm => infix_blockOf rj hm ht) h ht
  cases source with
  | anthropic => exact hchat h
  | openAIChatCompletions => exact hchat h
  | openAIResponses =>
    exact infix_textsOf (fun _ => rfl) (fun _ => rfl)
      (fun _ hm => OpenAIResponses.infix_textPartOf hm ht) h ht
  | gemini => exact Gemini.infix_blocks rj h ht

theorem mem_unread_or_textOf {parts : List Json} (h : t ∈ textsOf chatPartTexts (.array parts))
    (ht : NulFree t) : t ∈ parts.flatMap resultTextsOf ∨ ∃ part ∈ parts, textOf part = some t := by
  obtain ⟨part, hp, hm⟩ := mem_flatMap.1 h
  rcases mem_append.1 hm with htext | hr
  · exact .inr ⟨part, hp, (stringAt_of_mem_typedTexts htext ht).2⟩
  · exact .inl (mem_flatMap.2 ⟨part, hp, hr⟩)

variable {doc : Json}

theorem Anthropic.infix_systemOf (hc : doc.lookup "system" = some content)
    (h : t ∈ textsOf chatPartTexts content) (ht : NulFree t) :
    t ∈ (content.array?.getD []).flatMap resultTextsOf ∨ t <:+: systemOf doc := by
  unfold systemOf
  rw [hc]
  cases content with
  | string s =>
    obtain rfl : t = s := mem_singleton.1 h
    exact .inr (by simpa only [ht.cstr_eq] using infix_rfl)
  | array parts =>
    rcases mem_unread_or_textOf h ht with hu | ⟨part, hp, hr⟩
    · exact .inl hu
    · exact .inr (infix_joinLines (mem_filterMap.2 ⟨part, hp, hr⟩) [])
  | _ => cases h

theorem OpenAI.infix_systemLine (h : t ∈ textsOf chatPartTexts content) (ht : NulFree t) :
    t ∈ (content.array?.getD []).flatMap resultTextsOf ∨ t <:+: systemLine content := by
  cases content with
  | string s =>
    obtain rfl : t = s := mem_singleton.1 h
    exact .inr (by simpa only [systemLine, ht.cstr_eq] using infix_rfl)
  | array parts =>
    rcases mem_unread_or_textOf h ht with hu | ⟨part, hp, hr⟩
    · exact .inl hu
    · refine .inr ?_
      have hpi : (textOf part).getD [] = t := by rw [hr]; rfl
      exact hpi ▸ infix_flatMap (f := fun p => (textOf p).getD []) hp
  | _ => cases h

theorem Gemini.infix_systemOf (hc : (valueAt doc "systemInstruction").lookup "parts" = some content)
    (h : t ∈ contentTexts .gemini content) (ht : NulFree t) : t <:+: systemOf doc := by
  obtain ⟨part, hp, hm⟩ := mem_flatMap.1 h
  have hpa : entriesAt (valueAt doc "systemInstruction") "parts" = content.array?.getD [] := by
    rw [entriesAt, hc]; rfl
  have hr : textOf part = some t := stringAt_of_mem_bytesAt hm ht
  exact infix_joinLines (mem_filterMap.2 ⟨part, hpa ▸ hp, hr⟩) []

theorem unread_or_infix_systemTextOf (hc : content ∈ systemContents source doc)
    (h : t ∈ contentTexts source content) (ht : NulFree t) :
    t ∈ unreadTexts source doc ∨ t <:+: systemTextOf source doc := by
  cases source with
  | anthropic =>
    exact (Anthropic.infix_systemOf (Option.mem_toList.1 hc) h ht).imp_left fun hu =>
      mem_flatMap.2 ⟨content, hc, hu⟩
  | openAIChatCompletions =>
    refine (OpenAI.infix_systemLine h ht).imp
      (fun hu => mem_flatMap.2 ⟨content, hc, hu⟩) fun hl => ?_
    exact hl.trans (infix_joinLines (mem_map_of_mem hc) [])
  | openAIResponses =>
    cases hs : content.isString with
    | false =>
      refine .inl (mem_flatMap.2 ⟨content, ?_, h⟩)
      exact mem_filter.2 ⟨mem_append_left _ hc, by simp [hs]⟩
    | true =>
      cases content with
      | string s =>
        obtain rfl : t = s := mem_singleton.1 h
        refine .inr (infix_joinLines (mem_filterMap.2 ⟨_, hc, ?_⟩) [])
        rw [string?, ht.cstr_eq]
      | _ => cases hs
  | gemini => exact .inr (Gemini.infix_systemOf (Option.mem_toList.1 hc) h ht)

theorem unread_or_readIn (rj : RapidJson) (h : t ∈ promptTexts source doc) (ht : NulFree t) :
    t ∈ unreadTexts source doc ∨ ReadIn rj source doc t := by
  obtain ⟨content, hc, hm⟩ := mem_flatMap.1 h
  rcases mem_append.1 hc with hc | ho
  · rcases mem_append.1 hc with hsystem | hmessage
    · exact (unread_or_infix_systemTextOf hsystem hm ht).imp_right Or.inl
    · exact .inr (.inr ⟨content, mem_append_left _ hmessage, infix_contentBlocks rj hm ht⟩)
  · cases hs : content.isString with
    | true =>
      refine .inr (.inr ⟨content, mem_append_right _ ?_, infix_contentBlocks rj hm ht⟩)
      exact mem_filter.2 ⟨ho, hs⟩
    | false =>
      cases source with
      | openAIResponses =>
        refine .inl (mem_flatMap.2 ⟨content, ?_, hm⟩)
        exact mem_filter.2 ⟨mem_append_right _ ho, by simp [hs]⟩
      | _ => cases ho

end Gateway.Protocol
