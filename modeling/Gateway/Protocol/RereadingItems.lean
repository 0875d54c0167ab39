import Gateway.Protocol.Rereading

/-! # What comes back in the Gemini and Responses formats -/

namespace Gateway.Protocol

open Lib Json ChatRequest List

variable {req : ChatRequest}

namespace Gemini

def rereadBlock (rj : RapidJson) (b : ContentBlock) : ContentBlock :=
  match b.type with
  | .toolUse =>
    { b with toolCallId := [], toolArguments := rj.write (objectOfText rj b.toolArguments) }
  | .toolResult => { b with toolCallId := b.toolName, text := rj.write (responseOfText rj b.text) }
  | _ => b

def rereadRole (role : Bytes) : Bytes :=
  if role = ascii "assistant" ∨ role = ascii "model" then "assistant" else role

def reread (rj : RapidJson) (msg : Message) : Message :=
  .ofBlocks (rereadRole msg.role) (number 0 (msg.content.map (rereadBlock rj)))

variable {rj : RapidJson}

theorem isObject_responseOfText (s : Bytes) : (responseOfText rj s).isObject := by
  unfold responseOfText
  cases ho : (rj.parse (cstr s)).bind object? with
  | none => rfl
  | some o => exact isObject_of_bind_object? ho

theorem partOf_partValue {b : ContentBlock} (h : b.Canonical rj) :
    partOf rj (partValue rj b) = some (rereadBlock rj b) := by
  cases h with
  | text t ht => simp [partValue, partOf, textOf, string?_str, ht, rereadBlock]
  | toolUse id name arguments hid hn ha =>
    have hn' : stringAt (.object [("name", .str name), ("args", objectOfText rj arguments)])
        "name" = name :=
      stringAt_of_lookup (by simp) hn
    simp +decide [partValue, partOf, textOf, valueAt, hn', objectTextAt, object?,
      isObject_objectOfText, rereadBlock]
  | toolResult id name t hid hn ht =>
    have hn' : stringAt (.object [("name", .str name), ("response", responseOfText rj t)])
        "name" = name :=
      stringAt_of_lookup (by simp) hn
    simp +decide [partValue, partOf, textOf, valueAt, hn', objectTextAt, object?,
      isObject_responseOfText, rereadBlock]

theorem entryOf_contentValue {msg : Message} (h : msg.Canonical rj) :
    entryOf rj (contentValue rj msg) = { messages := [reread rj msg] } := by
  have ho : (contentValue rj msg).isObject := rfl
  have hr : stringAt (contentValue rj msg) "role" =
      if msg.role == ascii "assistant" then ascii "model" else msg.role := by
    refine stringAt_of_lookup (by simp [contentValue]) ?_
    split
    · decide
    · exact h.role
  have hp : entriesAt (contentValue rj msg) "parts" = msg.content.map (partValue rj) :=
    entriesAt_of_lookup (by simp +decide [contentValue])
  have hblocks : (msg.content.map (partValue rj)).filterMap (partOf rj) =
      msg.content.map (rereadBlock rj) := by
    rw [filterMap_map, ← filterMap_eq_map]
    exact filterMap_congr fun b hb => partOf_partValue (h.content b hb)
  have hf : (msg.content.map (partValue rj)).any (partForeign rj) = false := by
    rw [any_map, any_eq_false]
    intro b hb
    simp [partForeign, partOf_partValue (h.content b hb)]
  simp only [entryOf, ho, hr, hp, hblocks, hf, reread, rereadRole, if_true]
  by_cases ha : msg.role = ascii "assistant" <;> simp [ha]

theorem declarationOf_functionDeclarationValue (hrj : Lawful rj) {t : ToolDef}
    (h : t.Canonical rj) : declarationOf rj (functionDeclarationValue rj t) = [t] := by
  generalize hfd : functionDeclarationValue rj t = fd
  have hob : fd.isObject := by rw [← hfd]; rfl
  have hna : stringAt fd "name" = t.name :=
    stringAt_of_lookup (by simp [← hfd, functionDeclarationValue]) h.name
  obtain hn | ⟨o, ho, hw⟩ := h.parametersJson
  · have hd : stringAt fd "description" = t.description :=
      stringAt_of_lookupIf (by simp +decide [← hfd, functionDeclarationValue, hn]) h.description
    have hs : fd.lookup "parameters" = none := by
      simp +decide [← hfd, functionDeclarationValue, hn]
    simp [declarationOf, hob, toolDefOf, hna, hd, objectTextAt, hs, ← hn]
  · have hne : (rj.write o).isEmpty = false := by simpa using hrj.write_ne_nil o
    have hd : stringAt fd "description" = t.description :=
      stringAt_of_lookupIf (by
        simp +decide [← hfd, functionDeclarationValue, hw, hne]) h.description
    have hs : fd.lookup "parameters" = some o := by
      simp +decide [← hfd, functionDeclarationValue, hw, hne, parse_cstr_write hrj, object?, ho]
    simp [declarationOf, hob, toolDefOf, hna, hd, objectTextAt, hs, object?, ho, ← hw]

def configValue (req : ChatRequest) : Json :=
  objectOf [
    memberIf (req.maxTokens > 0) "maxOutputTokens" (.int req.maxTokens),
    memberOpt "temperature" (req.temperature.map .double),
    memberOpt "topP" (req.topP.map .double),
    memberIf (!req.stop.isEmpty) "stopSequences" (stringsValue req.stop)]

theorem lookup_generationConfig (rj : RapidJson) (req : ChatRequest) (key : Bytes) :
    (valueAt (requestValue rj req) "generationConfig").lookup key =
      (configValue req).lookup key := by
  have ho : configValue req = .object (generationConfig req) := rfl
  have hl : (requestValue rj req).lookup "generationConfig" =
      if (!(generationConfig req).isEmpty) = true then
        some (.object (generationConfig req)) else none := by
    simp +decide [requestValue]
  rw [ho]
  cases hgc : generationConfig req <;> simp [valueAt, hl, hgc]

theorem requestOf_requestValue (hrj : Lawful rj) (h : req.Canonical rj) :
    requestOf rj (requestValue rj req) = { req with
      maxTokens := writtenLimit req.maxTokens
      model := [], stream := false, metadataUserId := []
      messages := req.messages.map (reread rj)
      unsupportedContent := false } := by
  generalize hd : requestValue rj req = doc
  have hm : stringAt doc "model" = [] := by
    simp +decide [stringAt, ← hd, requestValue]
  have hsystem : systemOf doc = req.system := by
    have hl : doc.lookup "systemInstruction" = if (!req.system.isEmpty) = true then
        some (.object [("parts", .array [.object [("text", .str req.system)]])]) else none := by
      simp +decide [← hd, requestValue]
    rw [systemOf, valueAt, hl]
    cases hs : req.system with
    | nil => rfl
    | cons c s =>
      simp [entriesAt, array?, textOf, string?_str (hs ▸ h.system : NulFree (c :: s)),
        joinLines, appendLine]
  have hc : ∀ key, (valueAt doc "generationConfig").lookup key =
      (configValue req).lookup key := fun key => hd ▸ lookup_generationConfig rj req key
  generalize hgc : valueAt doc "generationConfig" = gc at hc
  unfold configValue at hc
  have hmax : ((gc.lookup "maxOutputTokens").bind int?).getD 4096 =
      writtenLimit req.maxTokens :=
    writtenLimit_of_lookupIf (by simp +decide [hc]) h.maxTokens rfl
  have htemperature : (gc.lookup "temperature").bind double? = req.temperature :=
    double?_of_lookup (by simp +decide [hc])
  have hto : (gc.lookup "topP").bind double? = req.topP :=
    double?_of_lookup (by simp +decide [hc])
  have hst : stringsAt gc "stopSequences" = req.stop :=
    stringsAt_of_lookupIf (by simp +decide [hc]) h.stop
  have hco : entriesAt doc "contents" = req.messages.map (contentValue rj) :=
    entriesAt_of_lookup (by simp +decide [← hd, requestValue])
  have he : (req.messages.map (contentValue rj)).map (entryOf rj) =
      (req.messages.map (reread rj)).map fun msg => { messages := [msg] } := by
    rw [map_map, map_map]
    exact map_congr_left fun msg hms => entryOf_contentValue (h.messages msg hms)
  have hde : (entriesAt doc "tools").flatMap (toolOf rj) = req.tools := by
    have hl : doc.lookup "tools" = if (!req.tools.isEmpty) = true then some (.array [.object [
        ("functionDeclarations", .array (req.tools.map (functionDeclarationValue rj)))]])
        else none := by
      simp +decide [← hd, requestValue]
    have hba := flatMap_map_of_singleton (k := id) fun t ht =>
      declarationOf_functionDeclarationValue hrj (h.tools t ht)
    rw [map_id] at hba
    cases ht : req.tools with
    | nil => simp [entriesAt, hl, ht]
    | cons t ts => rw [ht] at hba hl; simpa [entriesAt, hl, array?, toolOf] using hba
  simp only [requestOf, hm, hsystem, hgc, withGenerationConfig, hmax, htemperature, hto,
    hst, hco, he, hde, addAll_messages, nil_append]

end Gemini

namespace OpenAIResponses

def reread (msg : Message) : List Message :=
  if !msg.toolCalls.isEmpty then
    msg.toolCalls.map fun tc => { role := "assistant", toolCalls := [tc] }
  else [{
    role := if msg.role.isEmpty then "user" else msg.role
    content := [{ type := .text, text := msg.textContent }]
    toolCallId := if msg.role = ascii "tool" then msg.toolCallId else [] }]

variable {rj : RapidJson}

theorem entryOf_functionCallValue {tc : ToolCall} (h : tc.Canonical) :
    entryOf (functionCallValue tc) =
      { messages := [{ role := "assistant", toolCalls := [tc] }] } := by
  have ht : stringAt (functionCallValue tc) "type" = ascii "function_call" :=
    stringAt_of_lookup (by simp [functionCallValue]) (by decide)
  have hr : (functionCallValue tc).lookup "role" = none := by
    simp +decide [functionCallValue]
  have hid : stringAt (functionCallValue tc) "call_id" = tc.id :=
    stringAt_of_lookup (by simp +decide [functionCallValue]) h.id
  have hn : stringAt (functionCallValue tc) "name" = tc.name :=
    stringAt_of_lookup (by simp +decide [functionCallValue]) h.name
  have ha : stringAt (functionCallValue tc) "arguments" = tc.arguments :=
    stringAt_of_lookup (by simp +decide [functionCallValue]) h.arguments
  have ho : (functionCallValue tc).isObject := rfl
  simp +decide [entryOf, ho, ht, hr, hid, hn, ha]

theorem entryOf_output {id text : Bytes} (hid : NulFree id) (ht : NulFree text) : entryOf (.object [
      ("type", .str "function_call_output"), ("call_id", .str id), ("output", .str text)]) =
      { messages := [{
        role := "tool", toolCallId := id, content := [{ type := .text, text }] }] } := by
  generalize hi : object [
    ("type", .str "function_call_output"), ("call_id", .str id), ("output", .str text)] = item
  have ho : item.isObject := by rw [← hi]; rfl
  have htype : stringAt item "type" = ascii "function_call_output" :=
    stringAt_of_lookup (by simp [← hi]) (by decide)
  have hr : item.lookup "role" = none := by simp +decide [← hi]
  have hid' : stringAt item "call_id" = id :=
    stringAt_of_lookup (by simp +decide [← hi]) hid
  have ht' : stringAt item "output" = text :=
    stringAt_of_lookup (by simp +decide [← hi]) ht
  simp +decide [entryOf, ho, htype, hr, hid', ht']

theorem entryOf_message {role text : Bytes} (hr : NulFree role) (ht : NulFree text)
    (hs : role ≠ ascii "system") (hd : role ≠ ascii "developer") : entryOf (.object [
      ("type", .str "message"), ("role", .str role),
      ("content", .array [.object [("type", .str "input_text"), ("text", .str text)]])]) =
      { messages := [{
        role := if role.isEmpty then "user" else role
        content := [{ type := .text, text }] }] } := by
  generalize hi : object [("type", .str "message"), ("role", .str role),
    ("content", .array [.object [("type", .str "input_text"), ("text", .str text)]])] = item
  have ho : item.isObject := by rw [← hi]; rfl
  have htype : stringAt item "type" = ascii "message" :=
    stringAt_of_lookup (by simp [← hi]) (by decide)
  have hr' : roleOf item = if role.isEmpty then ascii "user" else role := by
    rw [roleOf, stringAt_of_lookup (by simp +decide [← hi]) hr]
  have hp : stringAt (.object [("type", .str "input_text"), ("text", .str text)]) "type" =
      ascii "input_text" :=
    stringAt_of_lookup (by simp) (by decide)
  have hc : blocksOf (valueAt item "content") = [{ type := .text, text }] := by
    have ht' : stringAt (.object [("type", .str "input_text"), ("text", .str text)]) "text" =
        text :=
      stringAt_of_lookup (by simp +decide) ht
    simp +decide [valueAt, ← hi, blocksOf, textPartOf, hp, ht', isTextType]
  have hf : contentForeign (valueAt item "content") = false := by
    simp +decide [valueAt, ← hi, contentForeign, array?, partForeign, hp, isTextType]
  have hn : (roleOf item == ascii "system" || roleOf item == ascii "developer") = false := by
    rw [hr']
    split
    · decide
    · simp [hs, hd]
  have he : messageEntry item = { messages := [{
      role := if role.isEmpty then "user" else role, content := [{ type := .text, text }] }] } := by
    rw [messageEntry, hn, hr', hc, hf]; rfl
  simp [entryOf, ho, htype, he]

theorem entries_messageItems {msg : Message} (h : msg.Canonical rj)
    (hs : msg.role ≠ ascii "system") (hd : msg.role ≠ ascii "developer") :
    (messageItems msg).map entryOf = (reread msg).map fun m => { messages := [m] } := by
  unfold messageItems reread
  have ht := nulFree_textContent h
  cases hc : msg.toolCalls.isEmpty with
  | false =>
    simp only [Bool.not_false, if_true, map_map]
    exact map_congr_left fun tc htc => entryOf_functionCallValue (h.toolCalls tc htc)
  | true =>
    simp only [Bool.not_true, Bool.false_eq_true, if_false]
    by_cases hto : msg.role = ascii "tool"
    · cases hid : msg.toolCallId with
      | nil =>
        have hr : NulFree (ascii "tool") := by decide
        simp +decide [entryOf_message hr ht, hto]
      | cons c id =>
        have hid' : NulFree (c :: id) := hid ▸ h.toolCallId
        simp +decide [entryOf_output hid' ht, hto]
    · simp [entryOf_message h.role ht hs hd, hto]

theorem toolOf_toolValue (hrj : Lawful rj) {t : ToolDef} (h : t.Canonical rj) :
    toolOf rj (toolValue rj t) = [t] := by
  have hno : ∀ key : Bytes, key ≠ ascii "parameters" →
      (OpenAI.schemaMember rj t).lookup key = none := by
    intro key hk
    unfold OpenAI.schemaMember
    split <;> simp [hk]
  generalize hv : toolValue rj t = v
  have ht : stringAt v "type" = ascii "function" :=
    stringAt_of_lookup (by simp [← hv, toolValue]) (by decide)
  have hn : stringAt v "name" = t.name :=
    stringAt_of_lookup (by simp +decide [← hv, toolValue]) h.name
  have hd : stringAt v "description" = t.description :=
    stringAt_of_lookupIf (by simp +decide [← hv, toolValue, hno]) h.description
  have hs : objectTextAt rj v "parameters" = t.parametersJson := by
    have hl : v.lookup "parameters" =
        (OpenAI.schemaMember rj t).lookup (ascii "parameters") := by
      simp +decide [← hv, toolValue]
    rw [objectTextAt, hl, OpenAI.objectText_of_schemaMember hrj h]
  simp [toolOf, ht, toolDefOf, hn, hd, hs]

theorem requestOf_requestValue (hrj : Lawful rj) (h : req.Canonical rj)
    (hr : ∀ msg ∈ req.messages, msg.role ≠ ascii "system" ∧ msg.role ≠ ascii "developer") :
    requestOf rj (requestValue rj req) = { req with
      maxTokens := writtenLimit req.maxTokens
      stop := []
      messages := req.messages.flatMap reread
      unsupportedContent := false } := by
  generalize hd : requestValue rj req = doc
  have hmodel : stringAt doc "model" = req.model :=
    stringAt_of_lookup (by simp [← hd, requestValue]) h.model
  have hs : stringAt doc "instructions" = req.system :=
    stringAt_of_lookupIf (by simp +decide [← hd, requestValue]) h.system
  have hmax : tokenLimitOf doc = writtenLimit req.maxTokens := by
    refine writtenLimit_of_lookupIf (by simp +decide [← hd, requestValue]) h.maxTokens ?_
    simp +decide [← hd, requestValue]
  have hst : flagAt doc "stream" = req.stream :=
    flagAt_of_lookupIf (by simp +decide [← hd, requestValue])
  have htemperature : (doc.lookup "temperature").bind double? = req.temperature :=
    double?_of_lookup (by simp +decide [← hd, requestValue])
  have hto : (doc.lookup "top_p").bind double? = req.topP :=
    double?_of_lookup (by simp +decide [← hd, requestValue])
  have hu : Anthropic.userIdOf doc = req.metadataUserId :=
    Anthropic.userIdOf_of_lookup (by simp +decide [← hd, requestValue]) h.metadataUserId
  have htoo : entriesAt doc "tools" = req.tools.map (toolValue rj) :=
    entriesAt_of_lookupIf (by simp +decide [← hd, requestValue])
  have he : inputEntries doc =
      (req.messages.flatMap reread).map fun msg => { messages := [msg] } := by
    have hl : doc.lookup "input" = some (.array (req.messages.flatMap messageItems)) := by
      simp +decide [← hd, requestValue]
    simp only [inputEntries, hl, map_flatMap]
    exact flatMap_congr fun msg hm =>
      entries_messageItems (h.messages msg hm) (hr msg hm).1 (hr msg hm).2
  have hde : (req.tools.map (toolValue rj)).flatMap (toolOf rj) = req.tools := by
    rw [flatMap_map_of_singleton fun t ht => toolOf_toolValue hrj (h.tools t ht), map_id']
  simp only [requestOf, hmodel, hs, hmax, hst, htemperature, hto, hu, htoo, he, hde,
    addAll_messages, nil_append]

end OpenAIResponses

end Gateway.Protocol
