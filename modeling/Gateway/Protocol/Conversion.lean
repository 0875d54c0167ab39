import Gateway.Protocol.RereadingItems

/-! # Converting a request and parsing the result -/

namespace Gateway.Protocol

open Lib Json

variable (rj : RapidJson)

variable (source : Format) (msg : Message)

def entriesOf (doc : Json) : List Entry :=
  match source with
  | .anthropic => (entriesAt doc "messages").map (Anthropic.entryOf rj)
  | .openAIChatCompletions => (entriesAt doc "messages").map (OpenAI.entryOf rj)
  | .openAIResponses => OpenAIResponses.inputEntries doc
  | .gemini => (entriesAt doc "contents").map (Gemini.entryOf rj)

theorem messages_requestOf (doc : Json) :
    (requestOf rj source doc).messages = (entriesOf rj source doc).flatMap (·.messages) := by
  cases source <;> exact List.nil_append _

theorem unsupportedContent_requestOf (doc : Json) : (requestOf rj source doc).unsupportedContent =
      (entriesOf rj source doc).any (·.unsupported) := by
  cases source <;> exact Bool.false_or _

def reread (rj : RapidJson) (target : Format) (req : ChatRequest) : ChatRequest :=
  match target with
  | .anthropic => { req with
      maxTokens := writtenLimit req.maxTokens
      messages := req.messages.map (Anthropic.reread rj)
      tools := req.tools.map (Anthropic.rereadTool rj)
      unsupportedContent := false }
  | .openAIChatCompletions => { req with
      maxTokens := writtenLimit req.maxTokens
      messages := req.messages.map OpenAI.reread
      unsupportedContent := req.messages.any OpenAI.rereadForeign }
  | .openAIResponses => { req with
      maxTokens := writtenLimit req.maxTokens
      stop := []
      messages := req.messages.flatMap OpenAIResponses.reread
      unsupportedContent := false }
  | .gemini => { req with
      maxTokens := writtenLimit req.maxTokens
      model := [], stream := false, metadataUserId := []
      messages := req.messages.map (Gemini.reread rj)
      unsupportedContent := false }

def NoSystemRoles (msgs : List Message) : Prop :=
  ∀ msg ∈ msgs, msg.role ≠ ascii "system" ∧ msg.role ≠ ascii "developer"

theorem contentPartOk_of_entries {part : Json} (h : entriesAt part "content" = []) :
    contentPartOk part := by
  simp [contentPartOk, h]

theorem Anthropic.messageOk_messageValue : messageOk (messageValue rj msg) := by
  have hp : ∀ b : ContentBlock, contentPartOk (blockValue rj b) := fun b => by
    refine contentPartOk_of_entries ?_
    unfold blockValue
    cases b.type <;> simp +decide [entriesAt, str, array?]
  have hc : (messageValue rj msg).lookup "content" = some
      (if needsBlocks msg then .array (msg.content.map (blockValue rj))
       else .str msg.textContent) := by
    simp +decide [messageValue]
  unfold messageOk entriesAt
  rw [hc]
  cases needsBlocks msg <;> simp [str, array?, hp]

theorem OpenAI.openAIMessageOk_messageValue : openAIMessageOk (messageValue msg) := by
  have hp : ∀ b : ContentBlock, contentPartOk (blockValue b) := fun b => by
    refine contentPartOk_of_entries ?_
    unfold blockValue
    cases b.type <;> simp +decide [entriesAt, str, array?]
  have hc : (messageValue msg).lookup "content" = some
      (if writesText msg then .str msg.textContent
       else .array (msg.content.map blockValue)) := by
    simp +decide [messageValue, writesText]
  have hok : messageOk (messageValue msg) := by
    unfold messageOk entriesAt
    rw [hc]
    cases writesText msg <;> simp [str, array?, hp]
  simp [openAIMessageOk, hok]

namespace Converter

def requestValue (rj : RapidJson) : Format → ChatRequest → Json
  | .anthropic => Anthropic.requestValue rj
  | .openAIChatCompletions => OpenAI.requestValue rj
  | .openAIResponses => OpenAIResponses.requestValue rj
  | .gemini => Gemini.requestValue rj

theorem serializeRequest_eq (rj : RapidJson) (target : Format) (req : ChatRequest) :
    serializeRequest rj target req = rj.write (requestValue rj target req) := by
  cases target <;> rfl

theorem isObject_requestValue (rj : RapidJson) (target : Format) (req : ChatRequest) :
    (requestValue rj target req).isObject := by
  cases target <;> rfl

end Converter

theorem Anthropic.entries_requestValue (rj : RapidJson) (req : ChatRequest) :
    entriesAt (requestValue rj req) "messages" = req.messages.map (messageValue rj) :=
  entriesAt_of_lookup (by simp +decide [requestValue])

theorem OpenAI.entries_requestValue (rj : RapidJson) (req : ChatRequest) :
    entriesAt (requestValue rj req) "messages" = (if req.system.isEmpty then []
       else [.object [("role", .str "system"), ("content", .str req.system)]])
        ++ req.messages.map messageValue :=
  entriesAt_of_lookup (by simp +decide [requestValue])

theorem Converter.requestOk_requestValue (rj : RapidJson) (target : Format) (req : ChatRequest) :
    requestOk target (requestValue rj target req) := by
  cases target with
  | anthropic =>
    simp [requestOk, requestValue, Anthropic.entries_requestValue, Anthropic.messageOk_messageValue]
  | openAIChatCompletions =>
    have hs : openAIMessageOk
        (.object [("role", .str "system"), ("content", .str req.system)]) := by
      simp +decide [openAIMessageOk, messageOk, entriesAt, str, array?]
    simp only [requestOk, requestValue, OpenAI.entries_requestValue, List.all_append, List.all_map,
      Function.comp_def, OpenAI.openAIMessageOk_messageValue]
    cases req.system.isEmpty <;> simp [hs]
  | openAIResponses => rfl
  | gemini => rfl

section

variable {rj : RapidJson} (hrj : Lawful rj)

include hrj

variable (target : Format) (req : ChatRequest)

theorem Converter.parseRequest_written : parseRequest rj target (serializeRequest rj target req) =
      .ok (requestOf rj target (requestValue rj target req)) := by
  rw [serializeRequest_eq]
  exact parseRequest_eq (hrj.parse_write _) (isObject_requestValue rj target req)
    (requestOk_requestValue rj target req)

theorem Converter.parseRequest_serializeRequest {target : Format} {req : ChatRequest}
    (h : req.Canonical rj) (hr : target = .openAIChatCompletions ∨ target = .openAIResponses →
      NoSystemRoles req.messages) :
    parseRequest rj target (serializeRequest rj target req) = .ok (reread rj target req) := by
  rw [parseRequest_written hrj]
  cases target with
  | anthropic => exact congrArg _ (Anthropic.requestOf_requestValue h)
  | openAIChatCompletions => exact congrArg _ (OpenAI.requestOf_requestValue hrj h (hr (.inl rfl)))
  | openAIResponses =>
    exact congrArg _ (OpenAIResponses.requestOf_requestValue hrj h (hr (.inr rfl)))
  | gemini => exact congrArg _ (Gemini.requestOf_requestValue hrj h)

omit hrj in
theorem Converter.serializeRequest_cstr (m : Bytes) :
    serializeRequest rj target { req with model := m } =
      serializeRequest rj target { req with model := cstr m } := by
  have hs : str m = str (cstr m) := congrArg string (nulFree_cstr m).cstr_eq.symm
  cases target with
  | anthropic => exact congrArg rj.write (by simp only [Anthropic.requestValue, hs])
  | openAIChatCompletions => exact congrArg rj.write (by simp only [OpenAI.requestValue, hs])
  | openAIResponses => exact congrArg rj.write (by simp only [OpenAIResponses.requestValue, hs])
  | gemini => rfl

def withModel (req : ChatRequest) (m : Bytes) : ChatRequest :=
  { req with model := if m.isEmpty then req.model else cstr m }

theorem Converter.convertRequest_reread {source : Format} {body : Bytes} {doc : Json}
    (hp : rj.parse body = some doc) (ho : doc.isObject) (hok : requestOk source doc)
    (hs : (requestOf rj source doc).unsupportedContent = false)
    (hr : target = .openAIChatCompletions ∨ target = .openAIResponses →
      NoSystemRoles (requestOf rj source doc).messages)
    {m : Bytes} (hm : source ≠ target ∨ m ≠ []) :
    ∃ out, convertRequest rj body source target m = .ok { success := true, body := out } ∧
      parseRequest rj target out =
        .ok (reread rj target (withModel (requestOf rj source doc) m)) := by
  have hir := parseRequest_eq hp ho hok
  have hc := requestOf_canonical hrj source doc
  generalize requestOf rj source doc = ir at *
  have hmodel : NulFree (withModel ir m).model := by
    unfold withModel
    split
    · exact hc.model
    · exact nulFree_cstr m
  have hw : serializeRequest rj target (if m.isEmpty then ir else { ir with model := m }) =
      serializeRequest rj target (withModel ir m) := by
    unfold withModel
    split
    · rfl
    · exact serializeRequest_cstr target ir m
  have ht : (decide (source = target) && m.isEmpty) = false := by
    rcases hm with hm | hm <;> simp [hm]
  refine ⟨serializeRequest rj target (withModel ir m), ?_,
    parseRequest_serializeRequest hrj { hc with model := hmodel } hr⟩
  rw [convertRequest, ht, if_neg (by simp), hir, ok_bind,
    if_neg (show ¬ ir.unsupportedContent = true by simp [hs]), ← hw]
  rfl

end

end Gateway.Protocol
