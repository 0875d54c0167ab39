import Gateway.Protocol.TextConversion
import Gateway.Protocol.Safety

/-! # Mapping the model of a request -/

namespace Gateway.Protocol

open Lib Json JsonText ContentBlock Converter List

def Anthropic.partComplete (part : Json) : Bool :=
  !(stringAt part "type" == "tool_use") || (valueAt part "input").isObject

def OpenAI.partComplete (part : Json) : Bool := !(stringAt part "type" == "tool_use")

def Gemini.partComplete (p : Json) : Bool :=
  (!(valueAt p "functionCall").isObject || (valueAt (valueAt p "functionCall") "args").isObject)
    && (!(valueAt p "functionResponse").isObject
      || (valueAt (valueAt p "functionResponse") "response").isObject)

def toolPartsComplete (source : Format) (doc : Json) : Bool :=
  match source with
  | .anthropic =>
    (entriesAt doc "messages").all fun m => (entriesAt m "content").all Anthropic.partComplete
  | .openAIChatCompletions =>
    (entriesAt doc "messages").all fun m => (entriesAt m "content").all OpenAI.partComplete
  | .openAIResponses => true
  | .gemini => (entriesAt doc "contents").all fun c => (entriesAt c "parts").all Gemini.partComplete

def Message.comparable (msg : Message) : Message :=
  if !OpenAI.hasToolBlocks msg && msg.toolCalls.isEmpty then
    { msg with content := [{ type := .text, text := msg.textContent }] }
  else msg

structure Remapped (rj : RapidJson) (format : Format) (m : Bytes) (ir ir' : ChatRequest) :
    Prop where
  model : ir'.model = if format = .gemini then [] else m
  system : ir'.system = ir.system
  messages : ir'.messages.map Message.comparable = ir.messages.map Message.comparable
  tools : ir'.tools.map (ToolDef.withSchema rj) = ir.tools.map (ToolDef.withSchema rj)
  stream : ir'.stream = ir.stream
  maxTokens : ir'.maxTokens = ir.maxTokens
  temperature : ir'.temperature = ir.temperature
  topP : ir'.topP = ir.topP
  stop : ir'.stop = ir.stop
  metadataUserId : ir'.metadataUserId = ir.metadataUserId
  unsupportedContent : ir'.unsupportedContent = ir.unsupportedContent

theorem objectTextAt_of_object (rj : RapidJson) {j : Json} {key : Bytes}
    (h : (valueAt j key).isObject) : objectTextAt rj j key = rj.write (valueAt j key) := by
  rw [objectTextAt, object_of_valueAt h]
  rfl

variable {b : ContentBlock} {blocks : List ContentBlock} {msg : Message} {doc : Json}

section

variable {rj : RapidJson} (hrj : Lawful rj)

include hrj in
theorem Anthropic.rereadBlock_of_blockOf {part : Json} (hc : partComplete part)
    (h : blockOf rj part = some b) : rereadBlock rj b = b := by
  unfold blockOf at h
  split at h
  · cases h; rfl
  split at h
  · rename_i ht
    have hi : (valueAt part "input").isObject := by
      simpa [partComplete, ht] using hc
    cases h
    simp [rereadBlock, objectTextAt_of_object rj hi, objectOfText_write hrj hi]
  split at h
  · cases h; rfl
  · cases h

include hrj in
theorem Anthropic.rereadBlock_of_mem {content : Json}
    (hc : (content.array?.getD []).all partComplete) (h : b ∈ blocksOf rj content) :
    rereadBlock rj b = b := by
  unfold blocksOf at h
  split at h
  · rw [mem_singleton.1 h]; rfl
  · obtain ⟨part, hp, hblock⟩ := mem_filterMap.1 h
    exact rereadBlock_of_blockOf hrj (all_eq_true.1 hc part hp) hblock
  · cases h

omit hrj in
theorem Message.comparable_of_text (msg : Message) (hc : ∀ b ∈ msg.content, b.type = .text)
    (hcalls : msg.toolCalls = []) :
    msg.comparable = { msg with content := [{ type := .text, text := msg.textContent }] } := by
  have hblocks : OpenAI.hasToolBlocks msg = false := by
    simp only [OpenAI.hasToolBlocks, any_eq_false]; exact fun b hb => by simp [hc b hb]
  simp [comparable, hblocks, hcalls]

omit hrj in
theorem Message.comparable_singleton (msg : Message) (t : Bytes) :
    comparable { msg with content := [{ type := .text, text := t }] } =
      { msg with content := [{ type := .text, text := t }] } := by
  unfold comparable
  split
  · simp [textContent, appendLine]
  · rfl

omit hrj in
theorem Message.ofBlocks_of_text {role : Bytes} (h : ∀ b ∈ blocks, b.type = .text) :
    ofBlocks role blocks = { role, content := blocks } := by
  have hc : blocks.filterMap call? = [] :=
    filterMap_eq_nil_iff.2 fun b hb => by simp [call?, h b hb]
  have ha : blocks.filterMap answers? = [] :=
    filterMap_eq_nil_iff.2 fun b hb => by simp [answers?, h b hb]
  rw [ofBlocks_eq, hc, ha]
  rfl

omit hrj in
theorem Anthropic.comparable_reread {role : Bytes} (h : ∀ b ∈ blocks, rereadBlock rj b = b) :
    (reread rj (.ofBlocks role blocks)).comparable = (Message.ofBlocks role blocks).comparable := by
  unfold reread
  have hc : (Message.ofBlocks role blocks).content = blocks := by rw [Message.ofBlocks_eq]
  have hr : (Message.ofBlocks role blocks).role = role := by rw [Message.ofBlocks_eq]
  rw [hc, hr]
  cases hn : needsBlocks (.ofBlocks role blocks) with
  | true => rw [if_pos rfl, (map_congr_left h).trans (map_id'' (fun _ => rfl) blocks)]
  | false =>
    have ht : ∀ b ∈ blocks, b.type = .text := by
      simp only [needsBlocks, hc, Bool.or_eq_false_iff, any_eq_false] at hn
      simpa using hn.1
    rw [if_neg (by simp), Message.ofBlocks_of_text ht, Message.ofBlocks_of_text (by simp)]
    exact (Message.comparable_singleton { role } _).trans
      (Message.comparable_of_text { role, content := blocks } ht rfl).symm

omit hrj in
theorem OpenAI.rereadBlock_of_mem {content : Json} (hc : (content.array?.getD []).all partComplete)
    (h : b ∈ blocksOf rj content) : rereadBlock b = some b ∧ b.type ≠ .toolUse := by
  unfold blocksOf at h
  split at h
  · rw [mem_singleton.1 h]; exact ⟨rfl, by simp⟩
  · obtain ⟨part, hp, hblock⟩ := mem_filterMap.1 h
    have ht : ¬ (stringAt part "type" == ascii "tool_use") := by
      simpa [partComplete] using all_eq_true.1 hc part hp
    unfold blockOf at hblock
    rw [if_neg ht] at hblock
    split at hblock
    · cases hblock; exact ⟨rfl, by simp⟩
    split at hblock
    · cases hblock; exact ⟨rfl, by simp⟩
    · cases hblock
  · cases h

omit hrj in
theorem OpenAI.comparable_reread (h : ∀ b ∈ msg.content, rereadBlock b = some b) :
    (reread msg).comparable = msg.comparable := by
  unfold reread
  cases ht : writesText msg with
  | true => rw [if_pos rfl, Message.comparable_singleton]; exact (if_pos ht).symm
  | false =>
    have hc : msg.content.filterMap rereadBlock = msg.content := by
      rw [filterMap_congr h, filterMap_some]
    rw [if_neg (by simp), hc]

include hrj in
theorem Gemini.responseOfText_write {o : Json} (ho : o.isObject) :
    responseOfText rj (rj.write o) = o := by
  simp [responseOfText, parse_cstr_write hrj, object?, ho]

include hrj in
theorem Gemini.rereadBlock_numbered {p : Json} (hc : partComplete p)
    (h : partOf rj p = some b) (k : Nat) : rereadBlock rj (numbered k b) = b := by
  simp only [partComplete, Bool.and_eq_true] at hc
  unfold partOf at h
  split at h
  · cases h; rfl
  split at h
  · rename_i hcall
    have ha : (valueAt (valueAt p "functionCall") "args").isObject := by
      simpa [hcall] using hc.1
    cases h
    simp [rereadBlock, numbered, objectTextAt_of_object rj ha, objectOfText_write hrj ha]
  split at h
  · rename_i hr
    have ht : (valueAt (valueAt p "functionResponse") "response").isObject := by
      simpa [hr] using hc.2
    cases h
    simp [rereadBlock, numbered, objectTextAt_of_object rj ht, responseOfText_write hrj ht]
  · cases h

include hrj in
theorem Gemini.map_rereadBlock_number {parts : List Json} (hc : parts.all partComplete) (k : Nat) :
    (number k (parts.filterMap (partOf rj))).map (rereadBlock rj) =
      parts.filterMap (partOf rj) := by
  induction parts generalizing k with
  | nil => rfl
  | cons p ps ih =>
    rw [all_cons, Bool.and_eq_true] at hc
    cases hp : partOf rj p with
    | none => rw [filterMap_cons_none hp]; exact ih hc.2 k
    | some b =>
      rw [filterMap_cons_some hp, number, map_cons, rereadBlock_numbered hrj hc.1 hp, ih hc.2]

include hrj in
theorem Gemini.reread_entryOf {c : Json} (hc : (entriesAt c "parts").all partComplete) :
    (entryOf rj c).messages.map (reread rj) = (entryOf rj c).messages := by
  have hr : ∀ role : Bytes,
      rereadRole (if role == ascii "model" then ascii "assistant" else role) =
        if role == ascii "model" then ascii "assistant" else role := by
    intro role
    by_cases hm : role = ascii "model"
    · simp [rereadRole, hm]
    · by_cases ha : role = ascii "assistant" <;> simp [rereadRole, hm, ha]
  unfold entryOf
  split
  · simp only [map_cons, map_nil, reread, Message.ofBlocks_eq, map_rereadBlock_number hrj hc, hr]
  · rfl

omit hrj in
theorem OpenAIResponses.comparable_reread_entryOf (item : Json) :
    ((entryOf item).messages.flatMap reread).map Message.comparable =
      (entryOf item).messages.map Message.comparable := by
  unfold entryOf
  split
  · rfl
  split
  · unfold messageEntry
    split
    · rfl
    · have hr : (roleOf item).isEmpty = false := by
        unfold roleOf
        split <;> simp_all +decide
      generalize hm : ({ role := roleOf item, content := blocksOf (valueAt item "content") } :
        Message) = msg
      have hba : reread msg =
          [{ msg with content := [{ type := .text, text := msg.textContent }] }] := by
        simp [reread, ← hm, hr]
      have ht : ∀ b ∈ msg.content, b.type = .text := by
        rw [← hm]; exact fun b => text_of_mem_blocksOf
      have hc : msg.toolCalls = [] := by rw [← hm]
      simp only [flatMap_cons, flatMap_nil, append_nil, hba, map_cons,
        map_nil, Message.comparable_singleton, Message.comparable_of_text msg ht hc]
  split
  · simp [reread]
  split
  · simp +decide [reread, Message.textContent, appendLine]
  · rfl

omit hrj in
theorem OpenAIResponses.comparable_reread_of_mem {e : Entry} (h : e ∈ inputEntries doc) :
    (e.messages.flatMap reread).map Message.comparable = e.messages.map Message.comparable := by
  unfold inputEntries at h
  split at h
  · rw [mem_singleton.1 h]; simp +decide [reread, Message.textContent, appendLine]
  · obtain ⟨item, -, rfl⟩ := mem_map.1 h; exact comparable_reread_entryOf item
  · cases h

end

section

variable {rj : RapidJson}

theorem exists_entry_of_mem (source : Format) (h : msg ∈ (requestOf rj source doc).messages) :
    ∃ e ∈ entriesOf rj source doc, msg ∈ e.messages := by
  rw [messages_requestOf] at h
  exact mem_flatMap.1 h

theorem Anthropic.exists_ofBlocks (hrj : Lawful rj) (hc : toolPartsComplete .anthropic doc)
    (h : msg ∈ (requestOf rj doc).messages) :
    ∃ role blocks, msg = .ofBlocks role blocks ∧ ∀ b ∈ blocks, rereadBlock rj b = b := by
  obtain ⟨e, he, hms⟩ := exists_entry_of_mem .anthropic h
  obtain ⟨m, hm, rfl⟩ := mem_map.1 he
  unfold entryOf at hms
  split at hms
  · refine ⟨_, _, mem_singleton.1 hms, fun b hb => rereadBlock_of_mem hrj ?_ hb⟩
    rw [← entriesAt_eq_valueAt]; exact all_eq_true.1 hc m hm
  · cases hms

theorem OpenAI.rereadBlock_of_message (hc : toolPartsComplete .openAIChatCompletions doc)
    (h : msg ∈ (requestOf rj doc).messages) :
    ∀ b ∈ msg.content, rereadBlock b = some b ∧ b.type ≠ .toolUse := by
  obtain ⟨e, he, hms⟩ := exists_entry_of_mem .openAIChatCompletions h
  obtain ⟨m, hm, rfl⟩ := mem_map.1 he
  unfold entryOf at hms
  split at hms
  · cases hms
  split at hms
  · cases hms
  · rw [mem_singleton.1 hms]
    refine fun b hb => rereadBlock_of_mem ?_ hb
    rw [← entriesAt_eq_valueAt]; exact all_eq_true.1 hc m hm

theorem OpenAI.noSystemRoles_entryOf (m : Json) : NoSystemRoles (entryOf rj m).messages := by
  unfold entryOf
  split
  · simp [NoSystemRoles]
  split
  · simp [NoSystemRoles]
  · rename_i hr
    intro msg hm
    rw [mem_singleton.1 hm]
    simpa using hr

theorem OpenAIResponses.noSystemRoles_entryOf (item : Json) :
    NoSystemRoles (entryOf item).messages := by
  have hr : (ascii "assistant" ≠ ascii "system" ∧ ascii "assistant" ≠ ascii "developer") ∧
      (ascii "tool" ≠ ascii "system" ∧ ascii "tool" ≠ ascii "developer") := by decide
  unfold entryOf
  split
  · simp [NoSystemRoles]
  split
  · unfold messageEntry
    split
    · simp [NoSystemRoles]
    · rename_i hro
      intro msg hm
      rw [mem_singleton.1 hm]
      simpa using hro
  split
  · simpa [NoSystemRoles] using hr.1
  split
  · simpa [NoSystemRoles] using hr.2
  · simp [NoSystemRoles]

theorem noSystemRoles_requestOf {source : Format} (doc : Json)
    (hs : source = .openAIChatCompletions ∨ source = .openAIResponses) :
    NoSystemRoles (requestOf rj source doc).messages := by
  intro msg hms
  obtain ⟨e, he, hm⟩ := exists_entry_of_mem source hms
  obtain rfl | rfl := hs
  · obtain ⟨m, -, rfl⟩ := mem_map.1 he; exact OpenAI.noSystemRoles_entryOf m msg hm
  · simp only [entriesOf, OpenAIResponses.inputEntries] at he
    split at he
    · rw [mem_singleton.1 he, mem_singleton] at hm
      rw [hm]
      exact (by decide : ascii "user" ≠ ascii "system" ∧ ascii "user" ≠ ascii "developer")
    · obtain ⟨item, -, rfl⟩ := mem_map.1 he
      exact OpenAIResponses.noSystemRoles_entryOf item msg hm
    · cases he

theorem remapped_reread (hrj : Lawful rj) (format : Format) {m : Bytes}
    (hs : (requestOf rj format doc).unsupportedContent = false)
    (hl : 0 < (requestOf rj format doc).maxTokens) (hco : toolPartsComplete format doc)
    (hm : m ≠ []) (hn : NulFree m) : Remapped rj format m (requestOf rj format doc)
      (reread rj format (withModel (requestOf rj format doc) m)) := by
  have hcanonical := requestOf_canonical hrj format doc
  have hmodel : ∀ req : ChatRequest, (withModel req m).model = m := by
    simp [withModel, hm, hn.cstr_eq]
  have hmax := writtenLimit_of_pos hl
  cases format with
  | anthropic =>
    refine ⟨hmodel _, rfl, ?_, ?_, rfl, hmax, rfl, rfl, rfl, rfl, hs.symm⟩
    · simp only [reread, map_map]
      refine map_congr_left fun msg hms => ?_
      obtain ⟨role, blocks, rfl, hblocks⟩ := Anthropic.exists_ofBlocks hrj hco hms
      exact Anthropic.comparable_reread hblocks
    · simp only [reread, map_map]
      exact map_congr_left fun t ht => Anthropic.withSchema_rereadTool hrj (hcanonical.tools t ht)
  | openAIChatCompletions =>
    have hblocks : ∀ msg ∈ (OpenAI.requestOf rj doc).messages, ∀ b ∈ msg.content,
        OpenAI.rereadBlock b = some b ∧ b.type ≠ .toolUse := fun msg =>
      OpenAI.rereadBlock_of_message hco
    refine ⟨hmodel _, rfl, ?_, rfl, rfl, hmax, rfl, rfl, rfl, rfl, ?_⟩
    · simp only [reread, map_map]
      exact map_congr_left fun msg hms =>
        OpenAI.comparable_reread fun b hb => (hblocks msg hms b hb).1
    · rw [hs]
      refine any_eq_false.2 fun msg hms => ?_
      have hno : (msg.content.any fun b => b.type = .toolUse) = false :=
        any_eq_false.2 fun b hb => by simp [(hblocks msg hms b hb).2]
      simp [OpenAI.rereadForeign, hno]
  | openAIResponses =>
    refine ⟨hmodel _, rfl, ?_, rfl, rfl, hmax, rfl, rfl, rfl, rfl, hs.symm⟩
    simp only [reread, withModel, messages_requestOf, flatMap_assoc]
    rw [map_flatMap, map_flatMap]
    exact flatMap_congr fun e he => OpenAIResponses.comparable_reread_of_mem he
  | gemini =>
    refine ⟨rfl, rfl, congrArg (map _) ?_, rfl, rfl, hmax, rfl, rfl, rfl, rfl, hs.symm⟩
    simp only [reread, withModel, messages_requestOf, map_flatMap]
    refine flatMap_congr fun e he => ?_
    obtain ⟨c, hc, rfl⟩ := mem_map.1 he
    exact Gemini.reread_entryOf hrj (all_eq_true.1 hco c hc)

end

/-- The parser of a format reads a request with a mapped model as it read the request. -/
theorem model_remapping_keeps {rj : RapidJson} (hrj : Lawful rj) {format : Format}
    {body m : Bytes} {doc : Json} {ir : ChatRequest} (hparse : rj.parse body = some doc)
    (hobj : doc.isObject = true) (hir : parseRequest rj format body = .ok ir)
    (hsupported : ir.unsupportedContent = false) (hlimit : 0 < ir.maxTokens)
    (hcomplete : toolPartsComplete format doc = true) (hm : m ≠ []) (hnul : NulFree m) :
    ∃ out ir', convertRequest rj body format format m = .ok { success := true, body := out } ∧
      parseRequest rj format out = .ok ir' ∧ Remapped rj format m ir ir' := by
  have hok : requestOk format doc :=
    (parseRequest_safe_iff rj format body).1 ⟨ir, hir⟩ doc (by simp [hparse, object?, hobj])
  obtain rfl : requestOf rj format doc = ir := by
    rw [parseRequest_eq hparse hobj hok] at hir; exact Except.ok.inj hir
  obtain ⟨out, hconvert, hback⟩ := convertRequest_reread hrj format hparse hobj hok
    hsupported (noSystemRoles_requestOf doc) (.inr hm)
  exact ⟨out, _, hconvert, hback, remapped_reread hrj format hsupported hlimit hcomplete hm hnul⟩

def weatherCalls : Json := .object [
  ("contents", .array [
    .object [("role", .str "user"), ("parts", .array [
      .object [("text", .str "Paris")], .object [("text", .str "and Rome?")]])],
    .object [("role", .str "model"), ("parts", .array [
      .object [("functionCall", .object [
        ("name", .str "weather"), ("args", .object [("city", .str "Paris")])])],
      .object [("functionCall", .object [
        ("name", .str "weather"), ("args", .object [("city", .str "Rome")])])]])],
    .object [("role", .str "user"), ("parts", .array [
      .object [("functionResponse", .object [
        ("name", .str "weather"), ("response", .object [("sky", .str "clear")])])]])]]),
  ("generationConfig", .object [("maxOutputTokens", .int 64)])]

theorem weatherCalls_remapped : ∃ ir out ir', parseRequest compact .gemini
        (compact.write weatherCalls) = .ok ir ∧
      convertRequest compact (compact.write weatherCalls) .gemini .gemini
        "flash" = .ok { success := true, body := out } ∧
      parseRequest compact .gemini out = .ok ir' ∧
      Remapped compact .gemini "flash" ir ir' := by
  have hparse := lawful_compact.parse_write weatherCalls
  have hir : parseRequest compact .gemini
      (compact.write weatherCalls) =
        .ok (requestOf compact .gemini weatherCalls) :=
    parseRequest_eq hparse rfl rfl
  obtain ⟨out, ir', hconvert, hback, hsame⟩ := model_remapping_keeps (m := "flash") lawful_compact
    hparse rfl hir (by decide) (by decide) (by decide) (by decide) (by decide)
  exact ⟨_, out, ir', hir, hconvert, hback, hsame⟩

end Gateway.Protocol
