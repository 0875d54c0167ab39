import Gateway.Protocol.RequestSafety
import Gateway.Protocol.ResponseReading
import Gateway.Protocol.StreamReading
import Gateway.Forwarder.UsageCounts

/-! # Where the parsers are total -/

namespace Gateway.Protocol

open Lib Json Converter

theorem parseRequest_safe_iff (rj : RapidJson) (source : Format) (body : Bytes) :
    Safe (parseRequest rj source body) ↔
      ∀ doc, (rj.parse body).bind object? = some doc → requestOk source doc := by
  cases source with
  | anthropic => exact safe_ofDocument_iff fun _ => Anthropic.readRequest_safe_iff rj
  | openAIChatCompletions => exact safe_ofDocument_iff fun _ => OpenAI.readRequest_safe_iff rj
  | openAIResponses =>
    exact safe_ofDocument_iff fun _ h => iff_of_true ⟨_, OpenAIResponses.readRequest_eq rj h⟩ rfl
  | gemini => exact safe_ofDocument_iff fun _ h => iff_of_true ⟨_, Gemini.readRequest_eq rj h⟩ rfl

theorem convertResponseChecked_safe (rj : RapidJson) (body : Bytes) (source target : Format)
    (requestedModel : Bytes) :
    Safe (convertResponseChecked rj body source target requestedModel) := by
  have hd : ∀ doc : Json, doc.isObject →
      Safe (convertDocument rj doc source target requestedModel) := by
    intro doc h
    unfold convertDocument
    rw [hasUnsupportedResponseShape_eq h, ok_bind]
    refine Safe.ite (fun _ => safe_ok _) fun _ => ?_
    rw [readResponse_eq rj source target requestedModel h, ok_bind, addConvertedUsage_eq h]
    exact safe_ok _
  refine Safe.ite (fun _ => safe_ok _) fun _ => ?_
  exact (safe_ofDocument_iff fun doc h => iff_of_true (hd doc h) rfl).2 fun _ _ => rfl

theorem parsers_safe_iff (rj : RapidJson) : (∀ source body, Safe (parseRequest rj source body) ↔
      ∀ doc, (rj.parse body).bind object? = some doc → requestOk source doc = true) ∧
    (∀ source eventType data, Safe (parseStreamEvent rj source eventType data) ↔
      isDonePayload source data = true ∨
        ∀ doc, (rj.parse data).bind object? = some doc → chunkOk source doc = true) ∧
    (∀ body source target requestedModel,
      Safe (convertResponseChecked rj body source target requestedModel)) ∧
    (∀ event reading, Safe (Forwarder.extractUsageFromEvent rj event reading)) := by
  refine ⟨parseRequest_safe_iff rj, parseStreamEvent_safe_iff rj, convertResponseChecked_safe rj,
    ?_⟩
  intro event reading
  rw [Forwarder.extractUsageFromEvent_eq]
  exact safe_ok _

def numberAsText : Json := .object [("messages", .array [.object [
  ("role", .str "user"),
  ("content", .array [.object [
    ("type", .str "tool_result"), ("tool_use_id", .str "call_1"),
    ("content", .array [.object [("type", .str "text"), ("text", .int 5)]])]])]])]

def numberAsTextBody : Bytes :=
  "\x7b\"messages\":[\x7b\"role\":\"user\",\"content\":[\x7b\"type\":\"tool_result\","
    ++ "\"tool_use_id\":\"call_1\",\"content\":[\x7b\"type\":\"text\",\"text\":5\x7d]\x7d]\x7d]\x7d"

def nullChoice : Json := .object [("choices", .array [.null])]

def nullToolCall : Json := .object [("choices", .array [.object [
  ("delta", .object [("tool_calls", .array [.null])])]])]

def nullCandidate : Json := .object [("candidates", .array [.null])]

theorem unguarded_accesses_fault :
    let rj := RapidJson.ofTable [(numberAsTextBody, numberAsText),
      ("\x7b\"choices\":[null]\x7d", nullChoice),
      ("\x7b\"choices\":[\x7b\"delta\":\x7b\"tool_calls\":[null]\x7d\x7d]\x7d", nullToolCall),
      ("\x7b\"candidates\":[null]\x7d", nullCandidate)] []
    ¬ Safe (OpenAI.parseRequest rj numberAsTextBody) ∧
    ¬ Safe (Anthropic.parseRequest rj numberAsTextBody) ∧
    ¬ Safe (OpenAI.parseStreamEvent rj "\x7b\"choices\":[null]\x7d") ∧
    ¬ Safe (OpenAI.parseStreamEvent rj
      "\x7b\"choices\":[\x7b\"delta\":\x7b\"tool_calls\":[null]\x7d\x7d]\x7d") ∧
    ¬ Safe (Gemini.parseStreamEvent rj "\x7b\"candidates\":[null]\x7d") := by
  decide +kernel

end Gateway.Protocol
