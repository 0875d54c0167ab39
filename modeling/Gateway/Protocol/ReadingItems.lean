import Gateway.Protocol.Reading

/-! # What the Gemini and Responses parsers read -/

namespace Gateway.Protocol

open Lib Json ContentBlock ChatRequest

section

variable {j : Json} {key : Bytes}

theorem object_of_valueAt (h : (valueAt j key).isObject) :
    (j.lookup key).bind object? = some (valueAt j key) := by
  unfold valueAt at h ⊢
  cases hv : j.lookup key with
  | none => rw [hv] at h; cases h
  | some v => rw [hv] at h; exact if_pos h

theorem object_of_not_valueAt (h : (valueAt j key).isObject = false) :
    (j.lookup key).bind object? = none := by
  unfold valueAt at h
  cases hv : j.lookup key with
  | none => rfl
  | some v => rw [hv] at h; exact if_neg (by simpa using h)

theorem entriesAt_of_not_object {j : Json} (h : j.isObject = false) (key : Bytes) :
    entriesAt j key = [] := by
  rw [entriesAt, lookup_of_not_object h]
  rfl

theorem entriesAt_eq_valueAt (j : Json) (key : Bytes) :
    entriesAt j key = (valueAt j key).array?.getD [] := by
  unfold entriesAt valueAt
  cases j.lookup key <;> rfl

end

variable {doc : Json}

namespace Gemini

def partOf (rj : RapidJson) (p : Json) : Option ContentBlock :=
  match textOf p with
  | some text => some { type := .text, text }
  | none =>
    if (valueAt p "functionCall").isObject then
      some {
        type := .toolUse, toolName := stringAt (valueAt p "functionCall") "name"
        toolArguments := objectTextAt rj (valueAt p "functionCall") "args" }
    else if (valueAt p "functionResponse").isObject then
      some {
        type := .toolResult
        toolCallId := stringAt (valueAt p "functionResponse") "name"
        toolName := stringAt (valueAt p "functionResponse") "name"
        text := objectTextAt rj (valueAt p "functionResponse") "response" }
    else none

def partForeign (rj : RapidJson) (p : Json) : Bool := p.isObject && (partOf rj p).isNone

def numbered (k : Nat) (b : ContentBlock) : ContentBlock :=
  if b.type = .toolUse then { b with toolCallId := b.toolName ++ "_" ++ decimal k } else b

def counted (k : Nat) (b : ContentBlock) : Nat := if b.type = .toolUse then k + 1 else k

def number (k : Nat) : List ContentBlock → List ContentBlock
  | [] => []
  | b :: bs => numbered (k + 1) b :: number (counted k b) bs

def PartState.push (st : PartState) (b : ContentBlock) : PartState :=
  { st with
    msg := st.msg.push (numbered (st.toolCallCounter + 1) b)
    toolCallCounter := counted st.toolCallCounter b }

variable (rj : RapidJson) (st : PartState) (tools : List ToolDef)

theorem PartState.foldl_push (bs : List ContentBlock) : bs.foldl PartState.push st = { st with
      msg := (number st.toolCallCounter bs).foldl Message.push st.msg
      toolCallCounter := bs.foldl counted st.toolCallCounter } := by
  induction bs generalizing st with
  | nil => rfl
  | cons b bs ih => rw [List.foldl_cons, ih]; rfl

theorem addPart_eq (p : Json) : addPart rj st p = .ok (((partOf rj p).toList.foldl PartState.push
      { st with unsupported := st.unsupported || partForeign rj p })) := by
  unfold addPart partForeign
  cases h : p.isObject with
  | false =>
    have hn : partOf rj p = none := by
      simp [partOf, textOf, valueAt, lookup_of_not_object h, isObject]
    simp [hn]
  | true =>
    simp only [memberAs_of_object h, ok_bind, ← textOf.eq_def]
    unfold partOf
    cases ht : textOf p with
    | some text =>
      simp [Message.addText, PartState.push, Message.push, numbered, counted, call?, answers?]
    | none =>
      cases hc : (valueAt p "functionCall").isObject with
      | true =>
        simp [object_of_valueAt hc, getStr_eq hc, objectText_eq hc, PartState.push, Message.push,
          numbered, counted, call?, answers?]
      | false =>
        cases hr : (valueAt p "functionResponse").isObject with
        | true =>
          simp [object_of_not_valueAt hc, object_of_valueAt hr, getStr_eq hr, objectText_eq hr,
            PartState.push, Message.push, numbered, counted, call?, answers?]
        | false => simp [object_of_not_valueAt hc, object_of_not_valueAt hr]

theorem foldlM_addPart (parts : List Json) :
    parts.foldlM (addPart rj) st = .ok ((parts.filterMap (partOf rj)).foldl PartState.push
      { st with unsupported := st.unsupported || parts.any (partForeign rj) }) := by
  induction parts generalizing st with
  | nil => simp
  | cons p ps ih =>
    rw [List.foldlM_cons, addPart_eq, ok_bind, ih]
    cases hp : partOf rj p <;> simp [hp, PartState.push, Bool.or_assoc]

def entryOf (rj : RapidJson) (c : Json) : Entry :=
  if c.isObject then {
    messages := [.ofBlocks
      (if stringAt c "role" == "model" then "assistant" else stringAt c "role")
      (number 0 ((entriesAt c "parts").filterMap (partOf rj)))]
    unsupported := (entriesAt c "parts").any (partForeign rj) }
  else {}

theorem addContent_eq (req : ChatRequest) (c : Json) :
    addContent rj req c = .ok (req.add (entryOf rj c)) := by
  unfold addContent entryOf
  cases h : c.isObject with
  | false => simp
  | true =>
    simp only [getStr_eq h, memberAs_of_object h, ok_bind, foldlM_addPart, PartState.foldl_push]
    simp [add, joinLines, Message.ofBlocks, entriesAt]

def systemOf (doc : Json) : Bytes :=
  joinLines [] ((entriesAt (valueAt doc "systemInstruction") "parts").filterMap textOf)

theorem systemText_eq (h : doc.isObject) : systemText doc = .ok (systemOf doc) := by
  unfold systemText systemOf
  rw [memberAs_of_object h, ok_bind]
  cases hs : (valueAt doc "systemInstruction").isObject with
  | true =>
    simp only [object_of_valueAt hs, memberAs_of_object hs, ok_bind]
    exact foldlM_partText _ []
  | false => simp [object_of_not_valueAt hs, entriesAt_of_not_object hs, joinLines]

def withGenerationConfig (req : ChatRequest) (gc : Json) : ChatRequest :=
  { req with
    maxTokens := ((gc.lookup "maxOutputTokens").bind int?).getD req.maxTokens
    temperature := (gc.lookup "temperature").bind double?
    topP := (gc.lookup "topP").bind double?
    stop := stringsAt gc "stopSequences" }

theorem addGenerationConfig_eq (h : doc.isObject) (model system : Bytes) :
    addGenerationConfig { model, system } doc =
      .ok (withGenerationConfig { model, system } (valueAt doc "generationConfig")) := by
  unfold addGenerationConfig withGenerationConfig
  rw [memberAs_of_object h, ok_bind]
  cases hg : (valueAt doc "generationConfig").isObject with
  | true => simp [object_of_valueAt hg, memberAs_of_object hg, stringArray_eq hg]
  | false =>
    simp [object_of_not_valueAt hg, lookup_of_not_object hg, stringsAt,
      entriesAt_of_not_object hg]

def declarationOf (rj : RapidJson) (fd : Json) : List ToolDef :=
  if fd.isObject then [toolDefOf rj fd "parameters"] else []

theorem addFunctionDeclaration_eq (fd : Json) :
    addFunctionDeclaration rj tools fd = .ok (tools ++ declarationOf rj fd) := by
  unfold addFunctionDeclaration declarationOf
  cases h : fd.isObject with
  | false => simp
  | true => simp [getStr_eq h, objectText_eq h, toolDefOf]

def toolOf (rj : RapidJson) (t : Json) : List ToolDef :=
  (entriesAt t "functionDeclarations").flatMap (declarationOf rj)

theorem addTool_eq (t : Json) : addTool rj tools t = .ok (tools ++ toolOf rj t) := by
  unfold addTool toolOf
  cases h : t.isObject with
  | false => simp [entriesAt_of_not_object h]
  | true =>
    simp only [memberAs_of_object h, ok_bind]
    exact foldlM_append (fun fd _ tools => addFunctionDeclaration_eq rj tools fd) tools

def requestOf (rj : RapidJson) (doc : Json) : ChatRequest :=
  { (withGenerationConfig { model := stringAt doc "model", system := systemOf doc }
      (valueAt doc "generationConfig")).addAll ((entriesAt doc "contents").map (entryOf rj)) with
    tools := (entriesAt doc "tools").flatMap (toolOf rj) }

theorem readRequest_eq (h : doc.isObject) : readRequest rj doc = .ok (requestOf rj doc) := by
  unfold readRequest requestOf
  simp only [memberAs_of_object h, systemText_eq h, ok_bind, addGenerationConfig_eq h,
    foldlM_add fun c _ req => addContent_eq rj req c,
    foldlM_append fun t _ tools => addTool_eq rj tools t, List.nil_append, pure_eq_ok]
  rfl

end Gemini

namespace OpenAIResponses

variable (content : Json) (part : Json) (item : Json)

def isTextType (type : Bytes) : Bool :=
  type == "input_text" || type == "text" || type == "output_text"

def textPartOf : Option ContentBlock :=
  if isTextType (stringAt part "type") then some { type := .text, text := stringAt part "text" }
  else none

def partForeign : Bool := part.isObject && !isTextType (stringAt part "type")

def blocksOf : List ContentBlock :=
  match content with
  | .string s => [{ type := .text, text := cstr s }]
  | .array parts => parts.filterMap textPartOf
  | _ => []

def contentForeign : Bool := (content.array?.getD []).any partForeign

theorem addContentPart_eq (acc : Message × Bool) (part : Json) : addContentPart acc part =
      .ok ({ acc.1 with content := acc.1.content ++ (textPartOf part).toList },
        acc.2 || partForeign part) := by
  unfold addContentPart textPartOf partForeign
  cases h : part.isObject with
  | false => simp +decide [stringAt_of_not_object h, isTextType]
  | true =>
    simp only [getStr_eq h, ok_bind]
    change (if isTextType (stringAt part "type") = true then _ else _) = _
    cases ht : isTextType (stringAt part "type") <;> simp [Message.addText]

theorem extractContent_eq (acc : Message × Bool) : extractContent content acc =
      .ok ({ acc.1 with content := acc.1.content ++ blocksOf content },
        acc.2 || contentForeign content) := by
  cases content with
  | array parts =>
    simp only [extractContent, blocksOf, contentForeign, array?, Option.getD_some]
    induction parts generalizing acc with
    | nil => simp
    | cons p ps ih =>
      rw [List.foldlM_cons, addContentPart_eq, ok_bind, ih]
      cases hp : textPartOf p <;> simp [hp, Bool.or_assoc]
  | _ => simp [extractContent, blocksOf, contentForeign, array?, Message.addText]

def roleOf : Bytes :=
  if (stringAt item "role").isEmpty then "user" else stringAt item "role"

def messageEntry : Entry :=
  if roleOf item == "system" || roleOf item == "developer" then
    { system := (item.lookup "content").bind string? }
  else {
    messages := [{ role := roleOf item, content := blocksOf (valueAt item "content") }]
    unsupported := contentForeign (valueAt item "content") }

variable (req : ChatRequest)

variable (rj : RapidJson)

theorem addMessage_eq {item : Json} (h : item.isObject) :
    addMessage req item = .ok (req.add (messageEntry item)) := by
  unfold addMessage messageEntry
  simp only [getStr_eq h, hasMember_of_object h, memberAs_of_object h, ok_bind, ← roleOf.eq_def]
  cases hs : roleOf item == ascii "system" || roleOf item == ascii "developer" with
  | true =>
    cases hc : (item.lookup "content").bind string? <;> simp [add, joinLines]
  | false =>
    unfold valueAt
    cases hc : item.lookup "content" with
    | none => simp [add, joinLines, blocksOf, contentForeign, array?]
    | some content => simp [member_of_lookup h hc, extractContent_eq, add, joinLines]

def entryOf (item : Json) : Entry :=
  if !item.isObject then {}
  else if stringAt item "type" == "message" || (item.lookup "role").isSome then messageEntry item
  else if stringAt item "type" == "function_call" then {
    messages := [{ role := "assistant", toolCalls := [{
      id := stringAt item "call_id", name := stringAt item "name"
      arguments := stringAt item "arguments" }] }] }
  else if stringAt item "type" == "function_call_output" then {
    messages := [{
      role := "tool", toolCallId := stringAt item "call_id"
      content := [{ type := .text, text := stringAt item "output" }] }] }
  else {}

theorem addItem_eq (item : Json) : addItem req item = .ok (req.add (entryOf item)) := by
  unfold addItem entryOf
  cases h : item.isObject with
  | false => simp
  | true =>
    simp only [getStr_eq h, hasMember_of_object h, ok_bind, pure_eq_ok, ok_or_ok,
      addMessage_eq req h]
    generalize stringAt item "type" = type
    cases type == ascii "message" || (item.lookup "role").isSome with
    | true => simp
    | false =>
      cases type == ascii "function_call" with
      | true => simp [add, joinLines]
      | false =>
        cases type == ascii "function_call_output" <;>
          simp [add, joinLines, Message.addText]

def inputEntries (doc : Json) : List Entry :=
  match doc.lookup "input" with
  | some (.string s) =>
    [{ messages := [{ role := "user", content := [{ type := .text, text := cstr s }] }] }]
  | some (.array items) => items.map entryOf
  | _ => []

theorem addInput_eq (h : doc.isObject) :
    addInput req doc = .ok (req.addAll (inputEntries doc)) := by
  unfold addInput inputEntries
  rw [hasMember_of_object h]
  cases hi : doc.lookup "input" with
  | none => simp [ChatRequest.addAll, joinLines]
  | some input =>
    rw [member_of_lookup h hi]
    cases input with
    | array items => simpa using foldlM_add (fun item _ req => addItem_eq req item) req
    | _ => simp [ChatRequest.addAll, joinLines, Message.addText]

def toolOf (t : Json) : List ToolDef :=
  if stringAt t "type" == "function" then [toolDefOf rj t "parameters"] else []

theorem addTool_eq (tools : List ToolDef) (t : Json) :
    addTool rj tools t = .ok (tools ++ toolOf rj t) := by
  unfold addTool toolOf
  cases h : t.isObject with
  | false => simp +decide [stringAt_of_not_object h]
  | true =>
    simp only [getStr_eq h, objectText_eq h, ok_bind]
    cases ht : stringAt t "type" == ascii "function" <;> simp [bne, ht, toolDefOf]

def tokenLimitOf (doc : Json) : Int :=
  ((doc.lookup "max_output_tokens").bind int?).getD
    (((doc.lookup "max_tokens").bind int?).getD 4096)

theorem tokenLimit_eq (h : doc.isObject) : tokenLimit doc = .ok (tokenLimitOf doc) := by
  unfold tokenLimit tokenLimitOf
  simp only [memberAs_of_object h, ok_bind]
  cases (doc.lookup "max_output_tokens").bind int? <;> rfl

def requestOf (doc : Json) : ChatRequest :=
  { ({ model := stringAt doc "model"
       stream := flagAt doc "stream"
       maxTokens := tokenLimitOf doc
       temperature := (doc.lookup "temperature").bind double?
       topP := (doc.lookup "top_p").bind double?
       metadataUserId := Anthropic.userIdOf doc
       system := stringAt doc "instructions" } : ChatRequest).addAll (inputEntries doc) with
    tools := (entriesAt doc "tools").flatMap (toolOf rj) }

theorem readRequest_eq (h : doc.isObject) : readRequest rj doc = .ok (requestOf rj doc) := by
  unfold readRequest requestOf
  simp only [memberAs_of_object h, getStr_eq h, tokenLimit_eq h,
    Anthropic.metadataUserId_eq h, ok_bind, addInput_eq _ h,
    foldlM_append fun t _ tools => addTool_eq rj tools t, List.nil_append, pure_eq_ok]
  rfl

end OpenAIResponses

end Gateway.Protocol
