import Gateway.Lib.Linkage
import Gateway.Protocol.ToolConversion

/-! # Links between calls and results -/

namespace Gateway.Protocol

open Lib JsonText Message Converter Event List

def ContentBlock.event? (b : ContentBlock) : Option (Event (Bytes × Bytes) (Bytes × Bytes)) :=
  match b.type with
  | .toolUse => some (.call (b.toolCallId, b.toolName))
  | .toolResult => some (.answer (b.toolCallId, b.toolName))
  | _ => none

def ChatRequest.blocks (req : ChatRequest) : List ContentBlock := req.messages.flatMap (·.content)

def ChatRequest.callIds (req : ChatRequest) : List Bytes :=
  req.messages.flatMap fun msg => msg.toolCalls.map (·.id)

structure ChatRequest.Linked (req : ChatRequest) : Prop where
  ids : req.callIds.Nodup
  results : EachAnswer (fun calls result => result ∈ calls) []
    (req.blocks.filterMap ContentBlock.event?)

namespace Gemini

def partEvent? (p : Json) : Option (Event Bytes Bytes) :=
  if callPart p then some (.call (stringAt (valueAt p "functionCall") "name"))
  else if responsePart p then some (.answer (stringAt (valueAt p "functionResponse") "name"))
  else none

def contentEvents (c : Json) : List (Event Bytes Bytes) := (entriesAt c "parts").filterMap
    partEvent?

def toolEvents (doc : Json) : List (Event Bytes Bytes) :=
  (entriesAt doc "contents").flatMap contentEvents

def callNames (c : Json) : List Bytes := (contentEvents c).filterMap call?

def partsOf (out : Json) : List Json := (entriesAt out "contents").flatMap (entriesAt · "parts")

def writtenEvent? (b : ContentBlock) (part : Json) :
    Option (Event (Bytes × Bytes) (Bytes × Bytes)) :=
  match b.type with
  | .toolUse => some (.call (b.toolCallId, b.toolName))
  | .toolResult => some (.answer (b.toolCallId, stringAt (valueAt part "functionResponse") "name"))
  | _ => none

structure ResponsesNamed (req : ChatRequest) (out : Json) : Prop where
  parts : (partsOf out).length = req.blocks.length
  names : EachAnswer (fun calls result => result ∈ calls) []
    ((req.blocks.zip (partsOf out)).filterMap fun written => writtenEvent? written.1 written.2)

end Gemini

namespace Anthropic

def partEvent? (part : Json) : Option (Event (Bytes × Bytes) Bytes) :=
  if stringAt part "type" == "tool_use" then
    some (.call (stringAt part "id", stringAt part "name"))
  else if stringAt part "type" == "tool_result" then some (.answer (stringAt part "tool_use_id"))
  else none

def toolEvents (doc : Json) : List (Event (Bytes × Bytes) Bytes) :=
  (entriesAt doc "messages").flatMap fun m => (entriesAt m "content").filterMap partEvent?

def resultsRefer (doc : Json) : Prop :=
  EachAnswer (fun calls id => id ∈ calls.map Prod.fst) [] (toolEvents doc)

instance (doc : Json) : Decidable (resultsRefer doc) :=
  inferInstanceAs (Decidable (EachAnswer _ _ _))

end Anthropic

namespace Gemini

def callId (name : Bytes) (k : Nat) : Bytes := name ++ ascii "_" ++ decimal k

theorem underscore_notMem_decimal (k : Nat) : (95 : UInt8) ∉ decimal k := fun h => by
  cases isDigit_of_mem_decimal h

theorem callId_inj {a b : Bytes} {j k : Nat} (h : callId a j = callId b k) : a = b ∧ j = k := by
  have hs : ∀ name k, callId name k = name ++ 95 :: decimal k := fun name k => by
    rw [callId, append_assoc]; rfl
  rw [hs, hs] at h
  obtain ⟨hn, hnu⟩ :=
    append_separator_inj (underscore_notMem_decimal j) (underscore_notMem_decimal k) h
  exact ⟨hn, decimal_injective hnu⟩

theorem callId_ne (name : Bytes) (k : Nat) : callId name k ≠ name := fun h => by
  have hl := congrArg List.length h
  simp [callId, ascii] at hl

def callLabel (name : Bytes) (k : Nat) : Bytes × Bytes := (callId name k, name)

section

variable {rj : RapidJson}

theorem events_number (parts : List Json) (k : Nat) :
    (number k (parts.filterMap (partOf rj))).filterMap ContentBlock.event? =
      label callLabel (fun name => (name, name)) (k + 1) (parts.filterMap partEvent?) := by
  induction parts generalizing k with
  | nil => rfl
  | cons p ps ih =>
    cases ht : textOf p with
    | some text =>
      have hp : partOf rj p = some { type := .text, text } := by simp [partOf, ht]
      have he : partEvent? p = none := by simp [partEvent?, callPart, responsePart, ht]
      rw [filterMap_cons_some hp, filterMap_cons_none he]; exact ih k
    | none =>
      cases hc : (valueAt p "functionCall").isObject with
      | true =>
        have hp : partOf rj p = some {
            type := .toolUse, toolName := stringAt (valueAt p "functionCall") "name"
            toolArguments := objectTextAt rj (valueAt p "functionCall") "args" } := by
          simp [partOf, ht, hc]
        have he : partEvent? p = some (.call (stringAt (valueAt p "functionCall") "name")) := by
          simp [partEvent?, callPart, ht, hc]
        rw [filterMap_cons_some hp, filterMap_cons_some he]
        exact congrArg (_ :: ·) (ih (k + 1))
      | false =>
        cases hr : (valueAt p "functionResponse").isObject with
        | true =>
          have hp : partOf rj p = some {
              type := .toolResult
              toolCallId := stringAt (valueAt p "functionResponse") "name"
              toolName := stringAt (valueAt p "functionResponse") "name"
              text := objectTextAt rj (valueAt p "functionResponse") "response" } := by
            simp [partOf, ht, hc, hr]
          have he : partEvent? p =
              some (.answer (stringAt (valueAt p "functionResponse") "name")) := by
            simp [partEvent?, callPart, responsePart, ht, hc, hr]
          rw [filterMap_cons_some hp, filterMap_cons_some he]
          exact congrArg (_ :: ·) (ih k)
        | false =>
          have hp : partOf rj p = none := by simp [partOf, ht, hc, hr]
          have he : partEvent? p = none := by simp [partEvent?, callPart, responsePart, hc, hr]
          rw [filterMap_cons_none hp, filterMap_cons_none he]; exact ih k

theorem events_entryOf (rj : RapidJson) (c : Json) :
    ((entryOf rj c).messages.flatMap (·.content)).filterMap ContentBlock.event? =
      label callLabel (fun name => (name, name)) 1 (contentEvents c) := by
  unfold entryOf
  split
  · rw [flatMap_singleton, ofBlocks_eq]; exact events_number (entriesAt c "parts") 0
  · rename_i ho
    rw [contentEvents, entriesAt_of_not_object (Bool.not_eq_true _ ▸ ho)]; rfl

variable (doc : Json)

theorem events_requestOf :
    (Gateway.Protocol.requestOf rj .gemini doc).blocks.filterMap ContentBlock.event? =
      (entriesAt doc "contents").flatMap fun c =>
        label callLabel (fun name => (name, name)) 1 (contentEvents c) := by
  rw [ChatRequest.blocks, messages_requestOf, entriesOf, flatMap_map, flatMap_assoc,
    filterMap_flatMap]
  exact flatMap_congr fun c _ => events_entryOf rj c

theorem callIds_ofBlocks (role : Bytes) (blocks : List ContentBlock) :
    (ofBlocks role blocks).toolCalls.map (·.id) =
      ((blocks.filterMap ContentBlock.event?).filterMap call?).map Prod.fst := by
  rw [ofBlocks_eq, filterMap_filterMap, map_filterMap, map_filterMap]
  refine filterMap_congr fun b _ => ?_
  cases hb : b.type <;> simp [ContentBlock.call?, ContentBlock.event?, call?, hb]

theorem callIds_requestOf : (Gateway.Protocol.requestOf rj .gemini doc).callIds =
      ((entriesAt doc "contents").map callNames).flatMap (numberedFrom callId 1) := by
  rw [ChatRequest.callIds, messages_requestOf, entriesOf, flatMap_map, flatMap_assoc, flatMap_map]
  refine flatMap_congr fun c _ => ?_
  have hc : ((label callLabel (fun name => (name, name)) 1 (contentEvents c)).filterMap
      call?).map Prod.fst = numberedFrom callId 1 (callNames c) := by
    rw [calls_label, map_numberedFrom]; rfl
  rw [← hc, ← events_entryOf rj]
  unfold entryOf
  split
  · rw [flatMap_singleton, flatMap_singleton, callIds_ofBlocks, ofBlocks_eq]
  · rfl

theorem linked_requestOf_iff : (Gateway.Protocol.requestOf rj .gemini doc).Linked ↔
      (∀ name, answer name ∉ toolEvents doc) ∧
        (entriesAt doc "contents").Pairwise fun c c' => ∀ (i : Nat) (name : Bytes),
          (callNames c)[i]? = some name → (callNames c')[i]? ≠ some name := by
  have hi : (Gateway.Protocol.requestOf rj .gemini doc).callIds.Nodup ↔
      (entriesAt doc "contents").Pairwise fun c c' => ∀ (i : Nat) (name : Bytes),
        (callNames c)[i]? = some name → (callNames c')[i]? ≠ some name := by
    rw [callIds_requestOf, nodup_flatMap_numberedFrom_iff callId_inj, pairwise_map]
  have hr : EachAnswer (fun calls result => result ∈ calls) []
      ((Gateway.Protocol.requestOf rj .gemini doc).blocks.filterMap ContentBlock.event?) ↔
        ∀ name, answer name ∉ toolEvents doc := by
    rw [events_requestOf]
    constructor
    · intro h name hn
      obtain ⟨c, hc, hm⟩ := mem_flatMap.1 hn
      obtain ⟨calls, hcalls, hm⟩ := h.exists_calls
        (mem_flatMap.2 ⟨c, hc, answer_mem_label_iff.2 ⟨name, hm, rfl⟩⟩)
      obtain ⟨c', -, hcal⟩ := mem_flatMap.1 ((hcalls _ hm).resolve_left not_mem_nil)
      obtain ⟨name', k, heq⟩ := exists_of_call_mem_label hcal
      injection heq with hid hn
      exact callId_ne name' k (hid.symm.trans hn)
    · intro h
      refine eachAnswer_of_no_answer fun result hre => ?_
      obtain ⟨c, hc, hm⟩ := mem_flatMap.1 hre
      obtain ⟨name, hn, -⟩ := answer_mem_label_iff.1 hm
      exact h name (mem_flatMap.2 ⟨c, hc, hn⟩)
  exact ⟨fun h => ⟨hr.1 h.results, hi.1 h.ids⟩, fun h => ⟨hi.2 h.2, hr.2 h.1⟩⟩

end

end Gemini

namespace Gemini

variable {rj : RapidJson}

theorem partsOf_requestValue (req : ChatRequest) :
    partsOf (requestValue rj req) = req.blocks.map (partValue rj) := by
  have hc : entriesAt (requestValue rj req) "contents" =
      req.messages.map (contentValue rj) :=
    entriesAt_of_lookup (by simp +decide [requestValue])
  have hp : ∀ msg, entriesAt (contentValue rj msg) "parts" = msg.content.map (partValue rj) :=
    fun msg => entriesAt_of_lookup (by simp +decide [contentValue])
  rw [partsOf, hc, flatMap_map, ChatRequest.blocks, map_flatMap]
  exact flatMap_congr fun msg _ => hp msg

theorem writtenEvent_partValue {b : ContentBlock} (h : b.Canonical rj) :
    writtenEvent? b (partValue rj b) = b.event? := by
  cases h with
  | text t ht => rfl
  | toolUse id name arguments hid hn ha => rfl
  | toolResult id name t hid hn ht =>
    have hr : valueAt (partValue rj
        { type := .toolResult, toolCallId := id, toolName := name, text := t }) "functionResponse" =
          .object [("name", .str name), ("response", responseOfText rj t)] := by
      simp [valueAt, partValue]
    have hw : stringAt (.object [("name", .str name), ("response", responseOfText rj t)])
        "name" = name := stringAt_of_lookup (by simp) hn
    simp [writtenEvent?, ContentBlock.event?, hr, hw]

theorem responsesNamed_iff {req : ChatRequest} (h : req.Canonical rj) :
    ResponsesNamed req (requestValue rj req) ↔ EachAnswer (fun calls result => result ∈ calls) []
        (req.blocks.filterMap ContentBlock.event?) := by
  have he : (req.blocks.zip (partsOf (requestValue rj req))).filterMap
      (fun written => writtenEvent? written.1 written.2) =
        req.blocks.filterMap ContentBlock.event? := by
    have hz : req.blocks.zip (req.blocks.map (partValue rj)) =
        req.blocks.map fun b => (b, partValue rj b) := by
      rw [zip, zipWith_map_right, zipWith_self]
    rw [partsOf_requestValue, hz, filterMap_map]
    refine filterMap_congr fun b hb => ?_
    obtain ⟨msg, hm, hb⟩ := mem_flatMap.1 hb
    exact writtenEvent_partValue ((h.messages msg hm).content b hb)
  constructor
  · exact fun hn => he ▸ hn.names
  · exact fun hl => ⟨by rw [partsOf_requestValue, length_map], he ▸ hl⟩

end Gemini

namespace Anthropic

variable {rj : RapidJson}

theorem event_blockOf (part : Json) : (blockOf rj part).bind ContentBlock.event? =
      (partEvent? part).map (mapAnswer fun id => (id, [])) := by
  unfold blockOf partEvent?
  split
  · rename_i ht
    simp +decide [ContentBlock.event?, beq_iff_eq.1 ht]
  split
  · rfl
  split <;> rfl

theorem events_blocksOf (content : Json) : (blocksOf rj content).filterMap ContentBlock.event? =
      ((content.array?.getD []).filterMap partEvent?).map (mapAnswer fun id => (id, [])) := by
  cases content with
  | array parts =>
    rw [blocksOf, filterMap_filterMap, map_filterMap]
    exact filterMap_congr fun part _ => event_blockOf part
  | string s => rfl
  | _ => rfl

theorem events_requestOf (doc : Json) :
    (Gateway.Protocol.requestOf rj .anthropic doc).blocks.filterMap ContentBlock.event? =
      (toolEvents doc).map (mapAnswer fun id => (id, [])) := by
  rw [ChatRequest.blocks, messages_requestOf, entriesOf, flatMap_map, flatMap_assoc,
    filterMap_flatMap, toolEvents, map_flatMap]
  refine flatMap_congr fun m _ => ?_
  unfold entryOf
  split
  · rw [flatMap_singleton, ofBlocks_eq, entriesAt_eq_valueAt]; exact events_blocksOf _
  · rename_i ho
    rw [entriesAt_of_not_object (Bool.not_eq_true _ ▸ ho)]; rfl

end Anthropic

theorem tool_linkage_iff {rj : RapidJson} (hrj : Lawful rj) {body : Bytes} {doc : Json}
    (hparse : rj.parse body = some doc) (hobj : doc.isObject = true) :
    (∃ ir, parseRequest rj .gemini body = .ok ir ∧
      (ir.Linked ↔ (∀ name, answer name ∉ Gemini.toolEvents doc) ∧
        (entriesAt doc "contents").Pairwise fun c c' => ∀ (i : Nat) (name : Bytes),
          (Gemini.callNames c)[i]? = some name → (Gemini.callNames c')[i]? ≠ some name)) ∧
      (requestOk .anthropic doc = true → ∃ ir out, parseRequest rj .anthropic body = .ok ir ∧
          rj.parse (Gemini.serializeRequest rj ir) = some out ∧ (Gemini.ResponsesNamed ir out ↔
            EachAnswer (fun calls id => (id, []) ∈ calls) [] (Anthropic.toolEvents doc))) := by
  constructor
  · exact ⟨_, parseRequest_eq hparse hobj rfl, Gemini.linked_requestOf_iff doc⟩
  · intro hok
    refine ⟨_, _, parseRequest_eq hparse hobj hok, hrj.parse_write _, ?_⟩
    rw [Gemini.responsesNamed_iff (requestOf_canonical hrj .anthropic doc),
      Anthropic.events_requestOf, eachAnswer_map]

def timeQuestion : Json := .object [("contents", .array [
  .object [("role", .str "model"), ("parts", .array [
    .object [("functionCall", .object [("name", .str "get_time"), ("args", .object [])])]])]])]

def timeUse : Json := .object [("messages", .array [
  .object [("role", .str "assistant"), ("content", .array [
    .object [("type", .str "tool_use"), ("id", .str "toolu_1"), ("name", .str "get_time"),
      ("input", .object [])]])]])]

theorem timeQuestion_linked : (∃ ir, parseRequest compact .gemini (compact.write timeQuestion) =
        .ok ir ∧ ir.Linked) ∧ ∃ ir out, parseRequest compact .anthropic
          (compact.write timeUse) = .ok ir ∧
        compact.parse (Gemini.serializeRequest compact ir) = some out ∧
        Gemini.ResponsesNamed ir out := by
  constructor
  · obtain ⟨ir, hir, hiff⟩ :=
      (tool_linkage_iff lawful_compact (lawful_compact.parse_write timeQuestion) rfl).1
    have hevents : Gemini.toolEvents timeQuestion = [.call "get_time"] := by decide
    exact ⟨ir, hir, hiff.2 ⟨by simp [hevents], pairwise_singleton _ _⟩⟩
  · obtain ⟨ir, out, hir, hout, hiff⟩ :=
      (tool_linkage_iff lawful_compact (lawful_compact.parse_write timeUse) rfl).2 (by decide)
    exact ⟨ir, out, hir, hout, hiff.2 (by decide)⟩

def timeTwice : Json := .object [("contents", .array [
  .object [("role", .str "model"), ("parts", .array [
    .object [("functionCall", .object [("name", .str "get_time"), ("args", .object [])])]])],
  .object [("role", .str "user"), ("parts", .array [
    .object [("functionResponse", .object [("name", .str "get_time"),
      ("response", .object [("time", .str "12:00")])])]])],
  .object [("role", .str "model"), ("parts", .array [
    .object [("functionCall", .object [("name", .str "get_time"), ("args", .object [])])]])]])]

def timeAnswered : Json := .object [("messages", .array [
  .object [("role", .str "assistant"), ("content", .array [
    .object [("type", .str "tool_use"), ("id", .str "toolu_1"), ("name", .str "get_time"),
      ("input", .object [])]])],
  .object [("role", .str "user"), ("content", .array [
    .object [("type", .str "tool_result"), ("tool_use_id", .str "toolu_1"),
      ("content", .str "12:00")]])]])]

theorem timeTwice_not_linked : (answersPending [] (Gemini.toolEvents timeTwice) = true ∧
      ∃ ir, parseRequest compact .gemini (compact.write timeTwice) = .ok ir ∧
        ir.callIds = [ascii "get_time_1", ascii "get_time_1"] ∧
        answer (ascii "get_time", ascii "get_time") ∈ ir.blocks.filterMap ContentBlock.event? ∧
        ¬ ir.Linked) ∧ Anthropic.resultsRefer timeAnswered ∧
      ∃ ir out, parseRequest compact .anthropic (compact.write timeAnswered) = .ok ir ∧
        compact.parse (Gemini.serializeRequest compact ir) = some out ∧
        Gemini.toolEvents out = [.call "get_time", .answer []] ∧
        ¬ Gemini.ResponsesNamed ir out := by
  refine ⟨⟨by decide, _, parseRequest_eq (lawful_compact.parse_write timeTwice) rfl rfl,
    by decide, by decide, fun h => ?_⟩, by decide, _, _,
    parseRequest_eq (lawful_compact.parse_write timeAnswered) rfl (by decide),
    lawful_compact.parse_write _, by decide, ?_⟩
  · have hresponse : answer (ascii "get_time") ∈ Gemini.toolEvents timeTwice := by decide
    exact ((Gemini.linked_requestOf_iff timeTwice).1 h).1 _ hresponse
  · rw [Gemini.responsesNamed_iff (requestOf_canonical lawful_compact .anthropic timeAnswered),
      Anthropic.events_requestOf]
    decide

end Gateway.Protocol
