import Gateway.Protocol.Converter

/-! # What the parsers read -/

namespace Gateway.Protocol

open Lib Json
open List hiding foldlM_append

def stringAt (j : Json) (key : Bytes) : Bytes := ((j.lookup key).bind string?).getD []

def entriesAt (j : Json) (key : Bytes) : List Json := ((j.lookup key).bind array?).getD []

def resultPartOk (sub : Json) : Bool :=
  !(sub.isObject && stringAt sub "type" == "text") || (sub.lookup "text").all isString

def contentPartOk (part : Json) : Bool :=
  !(part.isObject && stringAt part "type" == "tool_result")
    || (entriesAt part "content").all resultPartOk

def messageOk (message : Json) : Bool :=
  !message.isObject || (entriesAt message "content").all contentPartOk

def openAIMessageOk (message : Json) : Bool :=
  let role := stringAt message "role"
  role == "system" || role == "developer" || messageOk message

def requestOk (source : Format) (doc : Json) : Bool :=
  match source with
  | .anthropic => (entriesAt doc "messages").all messageOk
  | .openAIChatCompletions => (entriesAt doc "messages").all openAIMessageOk
  | .openAIResponses => true
  | .gemini => true

theorem safe_ofDocument_iff {α : Type} {o : Option Json} {read : Json → Access α} {d : α}
    {ok : Json → Bool} (hr : ∀ doc, doc.isObject → (Safe (read doc) ↔ ok doc)) :
    Safe (match o.bind object? with
      | some doc => read doc
      | none => pure d) ↔ ∀ doc, o.bind object? = some doc → ok doc := by
  cases ho : o.bind object? with
  | none => simp
  | some doc => rw [hr doc (isObject_of_bind_object? ho)]; simp

structure Entry where
  system : Option Bytes := none
  messages : List Message := []
  unsupported : Bool := false

def joinLines (out : Bytes) (texts : List Bytes) : Bytes := texts.foldl appendLine out

namespace ChatRequest

variable (req : ChatRequest)

def add (e : Entry) : ChatRequest :=
  { req with
    system := joinLines req.system e.system.toList
    messages := req.messages ++ e.messages
    unsupportedContent := req.unsupportedContent || e.unsupported }

@[simp] theorem add_empty : req.add {} = req := by
  simp [add, joinLines]

def addAll (es : List Entry) : ChatRequest :=
  { req with
    system := joinLines req.system (es.filterMap (·.system))
    messages := req.messages ++ es.flatMap (·.messages)
    unsupportedContent := req.unsupportedContent || es.any (·.unsupported) }

theorem foldl_add (es : List Entry) : es.foldl add req = req.addAll es := by
  induction es generalizing req with
  | nil => simp [addAll, joinLines]
  | cons e es ih =>
    rw [foldl_cons, ih]
    cases hs : e.system <;> simp [addAll, add, joinLines, hs, Bool.or_assoc]

theorem foldlM_add {f : ChatRequest → Json → Access ChatRequest} {entry : Json → Entry}
    {xs : List Json} (h : ∀ x ∈ xs, ∀ req, f req x = .ok (req.add (entry x))) (req : ChatRequest) :
    xs.foldlM f req = .ok (req.addAll (xs.map entry)) := by
  rw [foldlM_of_ok h, ← foldl_add, foldl_map]

end ChatRequest

variable (rj : RapidJson)

variable (j : Json) (b : ContentBlock) (content : Json) (part : Json) (sub : Json)

def objectTextAt (key : Bytes) : Bytes :=
  (((j.lookup key).bind object?).map rj.write).getD []

def valueAt (key : Bytes) : Json := (j.lookup key).getD .null

def flagAt (key : Bytes) : Bool := ((j.lookup key).bind bool?).getD false

def textOf (p : Json) : Option Bytes := (p.lookup "text").bind string?

def toolDefOf (fn : Json) (schema : Bytes) : ToolDef := {
  name := stringAt fn "name"
  description := stringAt fn "description"
  parametersJson := objectTextAt rj fn schema }

def stringsAt (key : Bytes) : List Bytes := (entriesAt j key).filterMap string?

def resultPartText : Bytes :=
  if stringAt sub "type" == "text" then stringAt sub "text" else []

def resultPartForeign : Bool :=
  sub.isObject && !(stringAt sub "type" == "text" && (sub.lookup "text").isSome)

def resultText (block : Json) : Bytes :=
  match block.lookup "content" with
  | some (.string s) => cstr s
  | some (.array subs) => subs.flatMap resultPartText
  | _ => []

def blockOf : Option ContentBlock :=
  if stringAt part "type" == "text" then
    some { type := .text, text := stringAt part "text" }
  else if stringAt part "type" == "tool_use" then
    some {
      type := .toolUse, toolCallId := stringAt part "id", toolName := stringAt part "name"
      toolArguments := objectTextAt rj part "input" }
  else if stringAt part "type" == "tool_result" then
    some { type := .toolResult, toolCallId := stringAt part "tool_use_id", text := resultText part }
  else none

def partForeign : Bool :=
  part.isObject && !(stringAt part "type" == "text") && !(stringAt part "type" == "tool_use")
    && (!(stringAt part "type" == "tool_result")
      || (entriesAt part "content").any resultPartForeign)

def blocksOf : List ContentBlock :=
  match content with
  | .string s => [{ type := .text, text := cstr s }]
  | .array parts => parts.filterMap (blockOf rj)
  | _ => []

def contentForeign : Bool := (content.array?.getD []).any partForeign

def ContentBlock.call? : Option ToolCall :=
  if b.type = .toolUse then some { id := b.toolCallId, name := b.toolName, arguments :=
    b.toolArguments }
  else none

def ContentBlock.answers? : Option Bytes :=
  if b.type = .toolResult then some b.toolCallId else none

namespace Message

def push (msg : Message) (b : ContentBlock) : Message :=
  { msg with
    content := msg.content ++ [b]
    toolCalls := msg.toolCalls ++ b.call?.toList
    toolCallId := b.answers?.getD msg.toolCallId }

def ofBlocks (role : Bytes) (blocks : List ContentBlock) : Message :=
  blocks.foldl push { role }

theorem foldl_push (msg : Message) (blocks : List ContentBlock) : blocks.foldl push msg = { msg with
      content := msg.content ++ blocks
      toolCalls := msg.toolCalls ++ blocks.filterMap ContentBlock.call?
      toolCallId := (blocks.filterMap ContentBlock.answers?).getLastD msg.toolCallId } := by
  induction blocks generalizing msg with
  | nil => simp
  | cons b bs ih =>
    rw [foldl_cons, ih]
    cases hc : b.call? <;> cases ha : b.answers? <;>
      simp [push, hc, ha, getLastD_cons, -getLastD_eq_getLast?]

theorem ofBlocks_eq (role : Bytes) (blocks : List ContentBlock) : ofBlocks role blocks = {
      role, content := blocks, toolCalls := blocks.filterMap ContentBlock.call?
      toolCallId := (blocks.filterMap ContentBlock.answers?).getLastD [] } := by
  simp [ofBlocks, foldl_push]

end Message

section

variable {j : Json} (h : j.isObject = true)

include h

theorem getStr_eq (key : Bytes) : j.getStr key = .ok (stringAt j key) :=
  getStr_of_object h key

theorem objectText_eq (rj : RapidJson) (key : Bytes) :
    objectText rj j key = .ok (objectTextAt rj j key) := by
  unfold objectText
  rw [memberAs_of_object h]
  rfl

theorem stringArray_eq (key : Bytes) : stringArray j key = .ok (stringsAt j key) := by
  unfold stringArray
  rw [memberAs_of_object h]
  rfl

end

theorem lookup_of_not_object {j : Json} (h : j.isObject = false) (key : Bytes) :
    j.lookup key = none := by
  cases j <;> first | rfl | cases h

@[simp] theorem lookup_null (key : Bytes) : null.lookup key = none := rfl

theorem stringAt_of_not_object {j : Json} (h : j.isObject = false) (key : Bytes) :
    stringAt j key = [] := by
  rw [stringAt, lookup_of_not_object h]
  rfl

theorem partText_eq (p : Json) : partText p = .ok (textOf p) := by
  unfold partText
  split
  · exact memberAs_of_object ‹_› _ _
  · rw [textOf, lookup_of_not_object (by simpa using ‹¬ p.isObject = true›)]; rfl

theorem foldlM_partText (parts : List Json) (out : Bytes) : parts.foldlM (fun system p => do
      return ((← partText p).map (appendLine system)).getD system) out =
      (.ok (joinLines out (parts.filterMap textOf)) : Access Bytes) := by
  induction parts generalizing out with
  | nil => rfl
  | cons p ps ih =>
    rw [foldlM_cons, partText_eq, ok_bind, pure_eq_ok, ok_bind, ih]
    cases ht : textOf p <;> simp [ht, joinLines]

theorem addResultPart_eq {sub : Json} (hok : resultPartOk sub) (acc : Bytes × Bool) :
    addResultPart acc sub = .ok (acc.1 ++ resultPartText sub, acc.2 || resultPartForeign sub) := by
  unfold addResultPart resultPartText resultPartForeign
  cases h : sub.isObject with
  | false => simp [stringAt_of_not_object h]
  | true =>
    simp only [getStr_eq h, hasMember_of_object h, ok_bind, pure_eq_ok, ok_and_ok, Bool.true_and]
    cases ht : stringAt sub "type" == ascii "text" with
    | false => simp
    | true =>
      cases hv : sub.lookup "text" with
      | none => simp [stringAt, hv]
      | some v =>
        rw [member_of_lookup h hv]
        have hs : v.isString := by simpa [resultPartOk, h, ht, hv] using hok
        cases v with
        | string s => simp [getString, stringAt, hv, string?]
        | _ => cases hs

theorem foldlM_addResultPart {subs : List Json} (hok : subs.all resultPartOk) (acc : Bytes × Bool) :
    subs.foldlM addResultPart acc =
      .ok (acc.1 ++ subs.flatMap resultPartText, acc.2 || subs.any resultPartForeign) := by
  rw [all_eq_true] at hok
  induction subs generalizing acc with
  | nil => simp
  | cons sub subs ih =>
    rw [foldlM_cons, addResultPart_eq (hok sub mem_cons_self), ok_bind,
      ih fun x hx => hok x (mem_cons_of_mem sub hx)]
    simp [Bool.or_assoc]

variable {block : Json}

theorem toolResultText_eq (h : block.isObject)
    (hok : (entriesAt block "content").all resultPartOk) (unsupported : Bool) :
    toolResultText block unsupported = .ok (resultText block,
      unsupported || (entriesAt block "content").any resultPartForeign) := by
  unfold toolResultText resultText
  rw [hasMember_of_object h]
  unfold entriesAt at hok ⊢
  cases hc : block.lookup "content" with
  | none => simp
  | some v =>
    rw [member_of_lookup h hc]
    cases v with
    | array subs =>
      rw [hc] at hok
      simpa [array?] using foldlM_addResultPart hok ([], unsupported)
    | _ => simp [array?]

theorem toolUseBlock_eq (rj : RapidJson) (h : block.isObject) : toolUseBlock rj block = .ok {
      type := .toolUse, toolCallId := stringAt block "id", toolName := stringAt block "name"
      toolArguments := objectTextAt rj block "input" } := by
  unfold toolUseBlock
  simp [getStr_eq h, objectText_eq h]

theorem toolResultBlock_eq (h : block.isObject)
    (hok : (entriesAt block "content").all resultPartOk) (unsupported : Bool) :
    toolResultBlock block unsupported = .ok (
      { type := .toolResult, toolCallId := stringAt block "tool_use_id", text := resultText block },
      unsupported || (entriesAt block "content").any resultPartForeign) := by
  unfold toolResultBlock
  simp [getStr_eq h, toolResultText_eq h hok]

theorem blockOf_of_not_object (rj : RapidJson) {part : Json} (h : part.isObject = false) :
    blockOf rj part = none := by
  simp +decide [blockOf, stringAt_of_not_object h]

variable {doc : Json}

namespace Anthropic

variable (rj : RapidJson)

theorem addContentBlock_eq (hok : contentPartOk block) (acc : Message × Bool) :
    addContentBlock rj acc block =
      .ok ((blockOf rj block).toList.foldl Message.push acc.1, acc.2 || partForeign block) := by
  unfold addContentBlock
  cases h : block.isObject with
  | false => simp [blockOf_of_not_object rj h, partForeign, h]
  | true =>
    simp only [getStr_eq h, ok_bind, toolUseBlock_eq rj h]
    unfold blockOf partForeign
    unfold contentPartOk at hok
    generalize stringAt block "type" = type at hok ⊢
    by_cases ht : type = ascii "text"
    · subst ht
      simp +decide [Message.addText, Message.push, ContentBlock.call?, ContentBlock.answers?]
    by_cases hu : type = ascii "tool_use"
    · subst hu; simp +decide [Message.push, ContentBlock.call?, ContentBlock.answers?]
    by_cases hr : type = ascii "tool_result"
    · subst hr
      have hp : (entriesAt block "content").all resultPartOk := by simpa [h] using hok
      simp [toolResultBlock_eq h hp, Message.push, ContentBlock.call?, ContentBlock.answers?, h,
        beq_false_of_ne ht, beq_false_of_ne hu]
    · simp [ht, hu, hr, h]

theorem extractContent_eq {content : Json} (hok : (content.array?.getD []).all contentPartOk)
    (acc : Message × Bool) : extractContent rj content acc =
      .ok ((blocksOf rj content).foldl Message.push acc.1, acc.2 || contentForeign content) := by
  cases content with
  | array blocks =>
    have hok' : ∀ b ∈ blocks, contentPartOk b := by simpa [array?] using hok
    simp only [extractContent, blocksOf, contentForeign, array?, Option.getD_some]
    clear hok
    induction blocks generalizing acc with
    | nil => simp
    | cons b bs ih =>
      rw [foldlM_cons, addContentBlock_eq rj (hok' b mem_cons_self), ok_bind,
        ih _ fun x hx => hok' x (mem_cons_of_mem b hx)]
      cases hb : blockOf rj b <;> simp [hb, Bool.or_assoc]
  | _ => simp [extractContent, blocksOf, contentForeign, array?, Message.addText, Message.push,
      ContentBlock.call?, ContentBlock.answers?]

def entryOf (rj : RapidJson) (m : Json) : Entry :=
  if m.isObject then {
    messages := [.ofBlocks (stringAt m "role") (blocksOf rj (valueAt m "content"))]
    unsupported := contentForeign (valueAt m "content") }
  else {}

theorem addMessage_eq {m : Json} (hok : messageOk m) (req : ChatRequest) :
    addMessage rj req m = .ok (req.add (entryOf rj m)) := by
  unfold addMessage entryOf
  cases h : m.isObject with
  | false => simp
  | true =>
    simp only [getStr_eq h, hasMember_of_object h, ok_bind]
    unfold valueAt
    cases hc : m.lookup "content" with
    | none => simp [ChatRequest.add, joinLines, blocksOf, contentForeign, array?, Message.ofBlocks]
    | some content =>
      have hp : (content.array?.getD []).all contentPartOk := by
        simpa [messageOk, h, entriesAt, hc] using hok
      simp [member_of_lookup h hc, extractContent_eq rj hp, ChatRequest.add, joinLines,
        Message.ofBlocks]

def systemOf (doc : Json) : Bytes :=
  match doc.lookup "system" with
  | some (.string s) => cstr s
  | some (.array blocks) => joinLines [] (blocks.filterMap textOf)
  | _ => []

theorem systemText_eq (h : doc.isObject) : systemText doc = .ok (systemOf doc) := by
  unfold systemText systemOf
  rw [hasMember_of_object h]
  cases hs : doc.lookup "system" with
  | none => rfl
  | some sys =>
    rw [member_of_lookup h hs]
    cases sys with
    | array blocks => simpa using foldlM_partText blocks []
    | _ => rfl

def userIdOf (doc : Json) : Bytes := stringAt (valueAt doc "metadata") "user_id"

theorem metadataUserId_eq (h : doc.isObject) : metadataUserId doc = .ok (userIdOf doc) := by
  unfold metadataUserId userIdOf valueAt
  rw [memberAs_of_object h, ok_bind]
  cases hm : doc.lookup "metadata" with
  | none => rfl
  | some md =>
    cases ho : md.isObject with
    | true => simp [object?, ho, memberAs_of_object ho, stringAt]
    | false => simp [object?, ho, stringAt_of_not_object ho]

def toolOf (rj : RapidJson) (t : Json) : List ToolDef :=
  if t.isObject then [toolDefOf rj t "input_schema"] else []

theorem addTool_eq (tools : List ToolDef) (t : Json) :
    addTool rj tools t = .ok (tools ++ toolOf rj t) := by
  unfold addTool toolOf
  cases h : t.isObject with
  | false => simp
  | true => simp [getStr_eq h, objectText_eq h, toolDefOf]

def requestOf (rj : RapidJson) (doc : Json) : ChatRequest :=
  { ({ model := stringAt doc "model"
       stream := flagAt doc "stream"
       maxTokens := ((doc.lookup "max_tokens").bind int?).getD 4096
       temperature := (doc.lookup "temperature").bind double?
       topP := (doc.lookup "top_p").bind double?
       system := systemOf doc
       stop := stringsAt doc "stop_sequences"
       metadataUserId := userIdOf doc } : ChatRequest).addAll
      ((entriesAt doc "messages").map (entryOf rj)) with
    tools := (entriesAt doc "tools").flatMap (toolOf rj) }

theorem readRequest_eq (h : doc.isObject) (hok : requestOk .anthropic doc) :
    readRequest rj doc = .ok (requestOf rj doc) := by
  have hmessages : ∀ m ∈ entriesAt doc "messages", ∀ req,
      addMessage rj req m = .ok (req.add (entryOf rj m)) := fun m hm req =>
    addMessage_eq rj (all_eq_true.1 hok m hm) req
  unfold entriesAt at hmessages
  unfold readRequest requestOf
  simp only [memberAs_of_object h, getStr_eq h, systemText_eq h, stringArray_eq h,
    metadataUserId_eq h, ok_bind, ChatRequest.foldlM_add hmessages,
    foldlM_append fun t _ tools => addTool_eq rj tools t, nil_append, pure_eq_ok]
  rfl

end Anthropic

namespace OpenAI

variable (rj : RapidJson)

theorem addContentPart_eq {part : Json} (hok : contentPartOk part)
    (acc : Message × Bool) : addContentPart rj acc part =
      .ok ({ acc.1 with content := acc.1.content ++ (blockOf rj part).toList },
        acc.2 || partForeign part) := by
  unfold addContentPart
  cases h : part.isObject with
  | false => simp [blockOf_of_not_object rj h, partForeign, h]
  | true =>
    simp only [getStr_eq h, ok_bind, toolUseBlock_eq rj h]
    unfold blockOf partForeign
    unfold contentPartOk at hok
    generalize stringAt part "type" = type at hok ⊢
    by_cases ht : type = ascii "text"
    · subst ht; simp +decide [Message.addText]
    by_cases hu : type = ascii "tool_use"
    · subst hu; simp +decide
    by_cases hr : type = ascii "tool_result"
    · subst hr
      have hp : (entriesAt part "content").all resultPartOk := by simpa [h] using hok
      simp [toolResultBlock_eq h hp, h, beq_false_of_ne ht, beq_false_of_ne hu]
    · simp [ht, hu, hr, h]

theorem extractContentBlocks_eq {content : Json}
    (hok : (content.array?.getD []).all contentPartOk) (acc : Message × Bool) :
    extractContentBlocks rj content acc =
      .ok ({ acc.1 with content := acc.1.content ++ blocksOf rj content },
        acc.2 || contentForeign content) := by
  cases content with
  | array parts =>
    have hok' : ∀ p ∈ parts, contentPartOk p := by simpa [array?] using hok
    simp only [extractContentBlocks, blocksOf, contentForeign, array?, Option.getD_some]
    clear hok
    induction parts generalizing acc with
    | nil => simp
    | cons p ps ih =>
      rw [foldlM_cons, addContentPart_eq rj (hok' p mem_cons_self), ok_bind,
        ih _ fun x hx => hok' x (mem_cons_of_mem p hx)]
      cases hp : blockOf rj p <;> simp [hp, Bool.or_assoc]
  | _ => simp [extractContentBlocks, blocksOf, contentForeign, array?, Message.addText]

def systemLine (content : Json) : Bytes :=
  match content with
  | .string s => cstr s
  | .array parts => parts.flatMap fun p => (textOf p).getD []
  | _ => []

theorem systemText_eq (content : Json) : systemText content = .ok (systemLine content) := by
  cases content with
  | array parts =>
    have hp : ∀ p ∈ parts, ∀ text : Bytes,
        (do return text ++ (← partText p).getD [] : Access Bytes) =
          .ok (text ++ (textOf p).getD []) := fun p _ text => by
      rw [partText_eq]; rfl
    exact foldlM_append hp []
  | _ => rfl

def callOf (tc : Json) : List ToolCall :=
  if tc.isObject then [{
    id := stringAt tc "id"
    name := stringAt (valueAt tc "function") "name"
    arguments := stringAt (valueAt tc "function") "arguments" }]
  else []

theorem addToolCall_eq (calls : List ToolCall) (tc : Json) :
    addToolCall calls tc = .ok (calls ++ callOf tc) := by
  unfold addToolCall callOf valueAt
  cases h : tc.isObject with
  | false => simp
  | true =>
    simp only [getStr_eq h, memberAs_of_object h, ok_bind]
    cases hf : tc.lookup "function" with
    | none => simp [stringAt]
    | some fn =>
      cases ho : fn.isObject with
      | true => simp [object?, ho, getStr_eq ho]
      | false => simp [object?, ho, stringAt_of_not_object ho]

def entryOf (m : Json) : Entry :=
  if !m.isObject then {}
  else if stringAt m "role" == "system" || stringAt m "role" == "developer" then
    { system := (m.lookup "content").map systemLine }
  else {
    messages := [{
      role := stringAt m "role"
      content := blocksOf rj (valueAt m "content")
      toolCalls := (entriesAt m "tool_calls").flatMap callOf
      toolCallId := stringAt m "tool_call_id" }]
    unsupported := contentForeign (valueAt m "content") }

theorem addMessage_eq {m : Json} (hok : openAIMessageOk m)
    (req : ChatRequest) : addMessage rj req m = .ok (req.add (entryOf rj m)) := by
  unfold addMessage entryOf
  cases h : m.isObject with
  | false => simp
  | true =>
    unfold openAIMessageOk at hok
    simp only [getStr_eq h, hasMember_of_object h, memberAs_of_object h, ok_bind,
      foldlM_append fun tc _ calls => addToolCall_eq calls tc, nil_append]
    cases hs : stringAt m "role" == ascii "system" || stringAt m "role" == ascii "developer" with
    | true =>
      cases hc : m.lookup "content" with
      | none => simp [ChatRequest.add, joinLines]
      | some content => simp [member_of_lookup h hc, systemText_eq, ChatRequest.add, joinLines]
    | false =>
      unfold valueAt
      cases hc : m.lookup "content" with
      | none =>
        simp [ChatRequest.add, joinLines, blocksOf, contentForeign, array?, entriesAt, stringAt]
      | some content =>
        have hp : (content.array?.getD []).all contentPartOk := by
          simpa [hs, messageOk, h, entriesAt, hc] using hok
        simp [member_of_lookup h hc, extractContentBlocks_eq rj hp, ChatRequest.add,
          joinLines, entriesAt, stringAt]

def toolOf (t : Json) : List ToolDef :=
  if stringAt t "type" == "function" then [toolDefOf rj (valueAt t "function") "parameters"] else []

theorem addTool_eq (tools : List ToolDef) (t : Json) :
    addTool rj tools t = .ok (tools ++ toolOf rj t) := by
  unfold addTool toolOf valueAt
  cases h : t.isObject with
  | false => simp +decide [stringAt_of_not_object h]
  | true =>
    simp only [getStr_eq h, memberAs_of_object h, ok_bind]
    cases ht : stringAt t "type" == ascii "function" with
    | false => simp [bne, ht]
    | true =>
      cases hf : t.lookup "function" with
      | none => simp [bne, ht, toolDefOf, stringAt_of_not_object (j := .null) rfl, objectTextAt]
      | some fn =>
        cases ho : fn.isObject with
        | true => simp [bne, ht, object?, ho, getStr_eq ho, objectText_eq ho, toolDefOf]
        | false =>
          simp [bne, ht, object?, ho, toolDefOf, stringAt_of_not_object ho, objectTextAt,
            lookup_of_not_object ho]

def tokenLimitOf (doc : Json) : Int :=
  ((doc.lookup "max_tokens").bind int?).getD
    (((doc.lookup "max_completion_tokens").bind int?).getD 4096)

theorem tokenLimit_eq (h : doc.isObject) : tokenLimit doc = .ok (tokenLimitOf doc) := by
  unfold tokenLimit tokenLimitOf
  simp only [memberAs_of_object h, ok_bind]
  cases (doc.lookup "max_tokens").bind int? <;> rfl

def stopOf (doc : Json) : List Bytes :=
  match doc.lookup "stop" with
  | some (.string s) => [cstr s]
  | some (.array vs) => vs.filterMap string?
  | _ => []

theorem stopSequences_eq (h : doc.isObject) : stopSequences doc = .ok (stopOf doc) := by
  unfold stopSequences stopOf
  rw [hasMember_of_object h]
  cases hs : doc.lookup "stop" with
  | none => rfl
  | some v =>
    rw [member_of_lookup h hs]
    cases v <;> rfl

def requestOf (doc : Json) : ChatRequest :=
  { ({ model := stringAt doc "model"
       stream := flagAt doc "stream"
       maxTokens := tokenLimitOf doc
       temperature := (doc.lookup "temperature").bind double?
       topP := (doc.lookup "top_p").bind double?
       metadataUserId := stringAt doc "user"
       stop := stopOf doc } : ChatRequest).addAll
      ((entriesAt doc "messages").map (entryOf rj)) with
    tools := (entriesAt doc "tools").flatMap (toolOf rj) }

theorem readRequest_eq (h : doc.isObject)
    (hok : requestOk .openAIChatCompletions doc) : readRequest rj doc = .ok (requestOf rj doc) := by
  have hmessages : ∀ m ∈ entriesAt doc "messages", ∀ req,
      addMessage rj req m = .ok (req.add (entryOf rj m)) := fun m hm req =>
    addMessage_eq rj (all_eq_true.1 hok m hm) req
  unfold entriesAt at hmessages
  unfold readRequest requestOf
  simp only [memberAs_of_object h, getStr_eq h, tokenLimit_eq h, stopSequences_eq h,
    ok_bind, ChatRequest.foldlM_add hmessages,
    foldlM_append fun t _ tools => addTool_eq rj tools t, nil_append, pure_eq_ok]
  rfl

end OpenAI

end Gateway.Protocol
