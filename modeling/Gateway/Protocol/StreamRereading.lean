import Gateway.Protocol.Rereading
import Gateway.Protocol.StreamReading

/-! # What is left of a delta in another format -/

namespace Gateway.Protocol

open Lib Json Option
open List hiding lookup

theorem zero_fits : -2 ^ 31 ≤ (0 : Int) ∧ (0 : Int) < 2 ^ 31 := by decide

structure StreamDelta.Canonical (d : StreamDelta) : Prop where
  id : NulFree d.id := by exact nulFree_nil
  text : NulFree d.text := by exact nulFree_nil
  toolCallId : NulFree d.toolCallId := by exact nulFree_nil
  toolName : NulFree d.toolName := by exact nulFree_nil
  toolArgumentsDelta : NulFree d.toolArgumentsDelta := by exact nulFree_nil
  model : NulFree d.model := by exact nulFree_nil
  finishReason : NulFree d.finishReason := by exact nulFree_nil
  index : -2 ^ 31 ≤ d.index ∧ d.index < 2 ^ 31 := by exact zero_fits
  inputTokens : -2 ^ 31 ≤ d.inputTokens ∧ d.inputTokens < 2 ^ 31 := by exact zero_fits
  outputTokens : -2 ^ 31 ≤ d.outputTokens ∧ d.outputTokens < 2 ^ 31 := by exact zero_fits
  onlyText : d.type ≠ .textDelta → d.text = [] := by exact fun _ => rfl

theorem intAt_fits (j : Json) (key : Bytes) : -2 ^ 31 ≤ intAt j key ∧ intAt j key < 2 ^ 31 :=
  int?_bounds zero_fits rfl

variable (doc : Json)

variable {key : Bytes} (d : StreamDelta)

theorem Anthropic.nulFree_stopReasonOf : NulFree (stopReasonOf doc) := by
  unfold stopReasonOf
  simp only
  split
  · decide
  split
  · decide
  · exact nulFree_stringAt _ _

theorem Anthropic.canonical_deltaOf (eventType : Bytes) (doc : Json) :
    (deltaOf eventType doc).Canonical := by
  unfold deltaOf
  split
  · exact { id := nulFree_stringAt _ _, model := nulFree_stringAt _ _, inputTokens :=
      intAt_fits _ _ }
  split
  · unfold contentBlockStartOf
    simp only
    split
    · exact {
        index := intAt_fits _ _, toolCallId := nulFree_stringAt _ _
        toolName := nulFree_stringAt _ _ }
    · exact { index := intAt_fits _ _ }
  split
  · unfold contentBlockDeltaOf
    simp only
    split
    · exact {
        index := intAt_fits _ _, text := nulFree_stringAt _ _
        onlyText := fun h => absurd rfl h }
    split
    · exact { index := intAt_fits _ _, toolArgumentsDelta := nulFree_stringAt _ _ }
    · exact { index := intAt_fits _ _ }
  split
  · exact { index := intAt_fits _ _ }
  split
  · exact { finishReason := nulFree_stopReasonOf doc, outputTokens := intAt_fits _ _ }
  split
  · exact {}
  · exact {}

theorem OpenAI.canonical_choiceDeltaOf {model id : Bytes} (hm : NulFree model)
    (hid : NulFree id) (choice : Json) : (choiceDeltaOf { model, id } choice).Canonical := by
  have hr := nulFree_stringAt choice "finish_reason"
  unfold choiceDeltaOf
  simp only
  split
  · exact { id := hid, model := hm, finishReason := hr }
  split
  · exact { id := hid, model := hm, finishReason := hr }
  split
  · rename_i text ht
    obtain ⟨v, -, hv⟩ := bind_eq_some_iff.1 ht
    exact {
      id := hid, model := hm, finishReason := hr, text := nulFree_of_string? hv
      onlyText := fun h => absurd rfl h }
  split
  · exact {
      id := hid, model := hm, finishReason := hr, index := intAt_fits _ _
      toolCallId := nulFree_stringAt _ _, toolName := nulFree_stringAt _ _
      toolArgumentsDelta := nulFree_stringAt _ _ }
  split
  · exact { id := hid, model := hm, finishReason := hr }
  · exact { id := hid, model := hm, finishReason := hr }

theorem OpenAI.canonical_deltaOf : (deltaOf doc).Canonical := by
  unfold deltaOf
  simp only
  split
  · exact canonical_choiceDeltaOf (nulFree_stringAt _ _) (nulFree_stringAt _ _) _
  · exact { id := nulFree_stringAt _ _, model := nulFree_stringAt _ _ }

theorem OpenAIResponses.canonical_deltaOf : (deltaOf doc).Canonical := by
  unfold deltaOf
  simp only
  split
  · exact {}
  split
  · exact {}
  split
  · exact { text := nulFree_stringAt _ _, onlyText := fun h => absurd rfl h }
  split
  · exact {
      toolArgumentsDelta := nulFree_stringAt _ _, toolCallId := nulFree_stringAt _ _
      toolName := nulFree_stringAt _ _ }
  split
  · exact {}
  split
  · exact {}
  · exact {}

theorem Gemini.nulFree_readFinishReason (reason : Bytes) : NulFree (readFinishReason reason) := by
  unfold readFinishReason
  split
  · decide
  split
  · decide
  split <;> decide

theorem Gemini.canonical_finishOf (cand : Json) : (finishOf cand).Canonical := by
  unfold finishOf
  split
  · exact { finishReason := nulFree_readFinishReason _ }
  · exact {}

variable {rj : RapidJson}

theorem Gemini.canonical_deltaOf (hrj : Lawful rj) (doc : Json) : (deltaOf rj doc).Canonical := by
  unfold deltaOf
  split
  · rename_i cand _ _
    have hf := canonical_finishOf cand
    unfold candidateDeltaOf
    cases hfo : (candidateParts cand).findSome? (partDeltaOf rj (finishOf cand)) with
    | none => exact hf
    | some delta =>
      obtain ⟨p, -, hp⟩ := exists_of_findSome?_eq_some hfo
      unfold partDeltaOf at hp
      split at hp
      · rename_i text ht
        split at hp
        · cases hp
        · cases hp
          exact { hf with
            text := nulFree_of_textOf ht
            onlyText := fun h => absurd rfl h }
      · split at hp
        · cases hp
          have ht : (finishOf cand).text = [] := by
            unfold finishOf
            split <;> rfl
          exact { hf with
            toolName := nulFree_stringAt _ _
            toolArgumentsDelta := (objectTextAt_objectText rj _ _).nulFree hrj
            onlyText := fun _ => ht }
        · cases hp
  · exact {}

theorem canonical_streamDelta (hrj : Lawful rj) (source : Format) (eventType data : Bytes) :
    (streamDelta rj source eventType data).Canonical := by
  unfold streamDelta
  split
  · exact {}
  cases readableDocument rj source data with
  | none => exact {}
  | some doc =>
    cases source with
    | anthropic => exact Anthropic.canonical_deltaOf eventType doc
    | openAIChatCompletions => exact OpenAI.canonical_deltaOf doc
    | openAIResponses => exact OpenAIResponses.canonical_deltaOf doc
    | gemini => exact Gemini.canonical_deltaOf hrj doc

def OpenAI.rereadDelta : StreamDelta :=
  let chunk : StreamDelta := { id := d.id, model := d.model, finishReason := d.finishReason }
  match d.type with
  | .done => { type := .done }
  | .messageStart => { chunk with type := .messageStart }
  | .textDelta => { chunk with text := d.text }
  | .toolCallDelta => { chunk with
      type := .toolCallDelta, index := d.index, toolCallId := d.toolCallId, toolName := d.toolName
      toolArgumentsDelta := if d.toolName.isEmpty then d.toolArgumentsDelta else [] }
  | .contentStart | .contentEnd | .messageEnd => { chunk with
      type := if d.finishReason.isEmpty then .textDelta else .messageEnd }

def Anthropic.rereadReason : Bytes :=
  if stopReason d == "end_turn" then "stop"
  else if stopReason d == "tool_use" then "tool_calls"
  else stopReason d

def Anthropic.rereadDelta : StreamDelta :=
  match d.type with
  | .messageStart => {
      type := .messageStart, id := if d.id.isEmpty then "msg_gateway" else d.id, model := d.model
      inputTokens := d.inputTokens }
  | .contentStart => {
      type := .contentStart, index := d.index, toolName := d.toolName
      toolCallId := if d.toolName.isEmpty then [] else d.toolCallId }
  | .textDelta => { index := d.index, text := d.text }
  | .toolCallDelta => {
      type := .toolCallDelta, index := d.index, toolArgumentsDelta := d.toolArgumentsDelta }
  | .contentEnd => { type := .contentEnd, index := d.index }
  | .messageEnd => {
      type := .messageEnd, finishReason := Anthropic.rereadReason d
      outputTokens := d.outputTokens }
  | .done => { type := .done }

def OpenAIResponses.rereadDelta : StreamDelta :=
  match d.type with
  | .messageStart => { type := .messageStart }
  | .contentStart => { type := .contentStart }
  | .textDelta => { text := d.text }
  | .toolCallDelta => {
      type := .toolCallDelta, toolArgumentsDelta := d.toolArgumentsDelta
      toolCallId := d.toolCallId, toolName := d.toolName }
  | .messageEnd | .done => { type := .done }
  | .contentEnd => {}

def Gemini.rereadDelta (rj : RapidJson) (d : StreamDelta) : StreamDelta :=
  match d.type with
  | .textDelta => { text := d.text }
  | .toolCallDelta => {
      type := .toolCallDelta, toolName := d.toolName, toolArgumentsDelta := rj.write (.object []) }
  | .messageEnd => {
      type := .messageEnd, finishReason := readFinishReason (finishReasonOf d.finishReason) }
  | .done => { type := .done }
  | .messageStart | .contentStart | .contentEnd => {}

def rereadDelta (rj : RapidJson) (target : Format) (d : StreamDelta) : StreamDelta :=
  match target with
  | .anthropic => Anthropic.rereadDelta d
  | .openAIChatCompletions => OpenAI.rereadDelta d
  | .openAIResponses => OpenAIResponses.rereadDelta d
  | .gemini => Gemini.rereadDelta rj d

theorem valueAt_of_lookup {j v : Json} (h : j.lookup key = some v) : valueAt j key = v := by
  rw [valueAt, h]
  rfl

theorem intAt_of_lookup {j : Json} {n : Int} (h : j.lookup key = some (.int n))
    (hn : -2 ^ 31 ≤ n ∧ n < 2 ^ 31) : intAt j key = n := by
  rw [intAt, int?_of_lookup h hn]
  rfl

section

variable {d : StreamDelta} (h : d.Canonical)

include h in
theorem OpenAI.toolCallDeltaOf_value (delta : StreamDelta) :
    toolCallDeltaOf delta (toolCallDeltaValue d) = { delta with
      type := .toolCallDelta, index := d.index, toolCallId := d.toolCallId, toolName := d.toolName
      toolArgumentsDelta := if d.toolName.isEmpty then d.toolArgumentsDelta else [] } := by
  generalize htc : toolCallDeltaValue d = tc
  have hi : intAt tc "index" = d.index :=
    intAt_of_lookup (by simp +decide [← htc, toolCallDeltaValue]) h.index
  have hid : stringAt tc "id" = d.toolCallId := by
    refine stringAt_of_lookupIf ?_ h.toolCallId
    rw [← htc, toolCallDeltaValue]
    cases d.toolName with
    | nil => simp +decide
    | cons c s =>
      have hr : List.lookup (ascii "id") [("type", str "function"),
          ("function", .object [("name", .str (c :: s)), ("arguments", .str [])])] = none := rfl
      simp +decide [hr]
  have hf : stringAt (valueAt tc "function") "name" = d.toolName ∧
      stringAt (valueAt tc "function") "arguments" =
        if d.toolName.isEmpty then d.toolArgumentsDelta else [] := by
    cases hn : d.toolName with
    | nil =>
      cases ha : d.toolArgumentsDelta with
      | nil =>
        have hv : valueAt tc "function" = .null := by
          simp +decide [← htc, toolCallDeltaValue, valueAt, hn, ha]
        rw [hv]
        exact ⟨rfl, rfl⟩
      | cons c s =>
        have hv : valueAt tc "function" =
            .object [("name", .str []), ("arguments", .str (c :: s))] := by
          simp +decide [← htc, toolCallDeltaValue, valueAt, hn, ha]
        rw [hv]
        refine ⟨rfl, stringAt_of_lookup rfl ?_⟩
        rw [← ha]; exact h.toolArgumentsDelta
    | cons c s =>
      have hv : valueAt tc "function" =
          .object [("name", .str (c :: s)), ("arguments", .str [])] := by
        have hfo : List.lookup (ascii "function") [("type", str "function"),
            ("function", .object [("name", .str (c :: s)), ("arguments", .str [])])] =
            some (.object [("name", .str (c :: s)), ("arguments", .str [])]) := rfl
        simp +decide [← htc, toolCallDeltaValue, valueAt, hn, hfo]
      rw [hv]
      refine ⟨stringAt_of_lookup rfl ?_, rfl⟩
      rw [← hn]; exact h.toolName
  rw [toolCallDeltaOf, hi, hid, hf.1, hf.2]

def OpenAI.writtenChoice (d : StreamDelta) : Json := .object [
  ("index", .int d.index),
  ("delta", .object (deltaMembers d)),
  ("finish_reason", if d.finishReason.isEmpty then .null else .str d.finishReason)]

include h in
theorem OpenAI.stringAt_writtenChoice :
    stringAt (writtenChoice d) "finish_reason" = d.finishReason := by
  have hl : (writtenChoice d).lookup "finish_reason" =
      some (if d.finishReason.isEmpty then .null else .str d.finishReason) := rfl
  cases hr : d.finishReason with
  | nil => rw [hr] at hl; rw [stringAt, hl]; rfl
  | cons c s =>
    rw [hr] at hl
    refine stringAt_of_lookup hl ?_
    rw [← hr]; exact h.finishReason

include h in
theorem OpenAI.choiceDeltaOf_written (hdo : d.type ≠ .done) :
    choiceDeltaOf { model := d.model, id := d.id } (writtenChoice d) = rereadDelta d := by
  have hd : valueAt (writtenChoice d) "delta" = .object (deltaMembers d) :=
    rfl
  unfold choiceDeltaOf
  simp only [stringAt_writtenChoice h, hd]
  unfold rereadDelta deltaMembers
  cases ht : d.type with
  | done => exact absurd ht hdo
  | messageStart => rfl
  | textDelta =>
    have htext : (lookup (.object [("content", .str d.text)]) "content").bind string? =
        some d.text := string?_str h.text
    have hr : opensMessage (.object [("content", .str d.text)]) = false := rfl
    simp only [htext, hr]; rfl
  | toolCallDelta =>
    have hr : opensMessage (.object [("tool_calls", .array [toolCallDeltaValue d])]) = false :=
      rfl
    simp only [hr]; exact OpenAI.toolCallDeltaOf_value h _
  | contentStart => cases d.finishReason <;> rfl
  | contentEnd => cases d.finishReason <;> rfl
  | messageEnd => cases d.finishReason <;> rfl

include h in
theorem OpenAI.deltaOf_chunkValue (hdo : d.type ≠ .done) :
    deltaOf (chunkValue d) = rereadDelta d := by
  generalize hd : chunkValue d = doc
  have hm : stringAt doc "model" = d.model :=
    stringAt_of_lookupIf (by simp +decide [← hd, chunkValue]) h.model
  have hid : stringAt doc "id" = d.id :=
    stringAt_of_lookupIf (by simp +decide [← hd, chunkValue]) h.id
  have hc : entriesAt doc "choices" = [writtenChoice d] :=
    entriesAt_of_lookup (by simp +decide [← hd, chunkValue, writtenChoice])
  rw [deltaOf, hm, hid, hc]
  exact choiceDeltaOf_written h hdo

theorem OpenAI.chunkOk_chunkValue : chunkOk .openAIChatCompletions (chunkValue d) := by
  have hc : entriesAt (chunkValue d) "choices" = [writtenChoice d] :=
    entriesAt_of_lookup (by simp +decide [chunkValue, writtenChoice])
  have hd : (writtenChoice d).lookup "delta" = some (.object (deltaMembers d)) := rfl
  have hok : toolCallOk (.object (deltaMembers d)) := by
    unfold deltaMembers
    cases d.type <;> rfl
  simp only [chunkOk, hc, head?_cons, all_some, choiceOk, hd, bind_some,
    object?, isObject, if_true, hok]
  rfl

end

variable {d : StreamDelta}

theorem int?_int {n : Int} (hn : -2 ^ 31 ≤ n ∧ n < 2 ^ 31) : (int n).int? = some n := by
  simpa [int?, isInt, getInteger] using hn

theorem Anthropic.nulFree_stopReason (h : d.Canonical) : NulFree (stopReason d) := by
  have hr : NulFree (if d.finishReason.isEmpty then ascii "end_turn" else d.finishReason) := by
    split
    · decide
    · exact h.finishReason
  unfold stopReason
  simp only
  generalize (if d.finishReason.isEmpty then ascii "end_turn" else d.finishReason) = reason
    at hr ⊢
  split
  · decide
  split
  · decide
  · exact hr

def Anthropic.eventName : StreamDelta.Kind → Bytes
  | .messageStart => "message_start"
  | .contentStart => "content_block_start"
  | .textDelta => "content_block_delta"
  | .toolCallDelta => "content_block_delta"
  | .contentEnd => "content_block_stop"
  | .messageEnd => "message_delta"
  | .done => "message_stop"

theorem Anthropic.eventValue_fst (d : StreamDelta) : (eventValue d).1 = eventName d.type := by
  unfold eventValue
  cases d.type <;> rfl

theorem Anthropic.deltaOf_eventValue (h : d.Canonical) :
    deltaOf (eventValue d).1 (eventValue d).2 = rereadDelta d := by
  unfold eventValue rereadDelta
  cases d.type with
  | messageStart =>
    have hid : NulFree (if d.id.isEmpty then ascii "msg_gateway" else d.id) := by
      split
      · decide
      · exact h.id
    change ({
      type := .messageStart
      id := (str (if d.id.isEmpty then "msg_gateway" else d.id)).string?.getD []
      model := (str d.model).string?.getD []
      inputTokens := (int d.inputTokens).int?.getD 0 } : StreamDelta) = _
    rw [string?_str hid, string?_str h.model, int?_int h.inputTokens]; rfl
  | contentStart =>
    cases hn : d.toolName with
    | nil =>
      simp only [contentBlockValue, hn]
      change ({ type := .contentStart, index := (int d.index).int?.getD 0 } : StreamDelta) = _
      rw [int?_int h.index]; rfl
    | cons c s =>
      have hf : NulFree (c :: s) := hn ▸ h.toolName
      simp only [contentBlockValue, hn]
      change ({
        type := .contentStart
        index := (int d.index).int?.getD 0
        toolCallId := (str d.toolCallId).string?.getD []
        toolName := (str (c :: s)).string?.getD [] } : StreamDelta) = _
      rw [int?_int h.index, string?_str h.toolCallId, string?_str hf]; rfl
  | textDelta =>
    change ({
      index := (int d.index).int?.getD 0
      text := (str d.text).string?.getD [] } : StreamDelta) = _
    rw [int?_int h.index, string?_str h.text]; rfl
  | toolCallDelta =>
    change ({
      type := .toolCallDelta
      index := (int d.index).int?.getD 0
      toolArgumentsDelta := (str d.toolArgumentsDelta).string?.getD [] } : StreamDelta) = _
    rw [int?_int h.index, string?_str h.toolArgumentsDelta]; rfl
  | contentEnd =>
    change ({ type := .contentEnd, index := (int d.index).int?.getD 0 } : StreamDelta) = _
    rw [int?_int h.index]; rfl
  | messageEnd =>
    have hr : (str (stopReason d)).string?.getD [] = stopReason d := by
      rw [string?_str (nulFree_stopReason h)]; rfl
    change ({
      type := .messageEnd
      finishReason :=
        if (str (stopReason d)).string?.getD [] == "end_turn" then "stop"
        else if (str (stopReason d)).string?.getD [] == "tool_use" then "tool_calls"
        else (str (stopReason d)).string?.getD []
      outputTokens := (int d.outputTokens).int?.getD 0 } : StreamDelta) = _
    rw [hr, int?_int h.outputTokens]; rfl
  | done => rfl

theorem OpenAIResponses.deltaOf_eventValue (h : d.Canonical) :
    deltaOf (eventValue d) = rereadDelta d := by
  unfold eventValue rereadDelta
  cases d.type with
  | messageStart => rfl
  | contentStart => rfl
  | textDelta =>
    change ({ text := (str d.text).string?.getD [] } : StreamDelta) = _
    rw [string?_str h.text]; rfl
  | toolCallDelta =>
    generalize hd : objectOf [memberOf "type" (.str (eventName .toolCallDelta)), [
        memberOf "delta" (.str d.toolArgumentsDelta),
        memberIf (!d.toolCallId.isEmpty) "call_id" (.str d.toolCallId),
        memberIf (!d.toolName.isEmpty) "name" (.str d.toolName)].flatten] = doc
    have ht : stringAt doc "type" = "response.function_call_arguments.delta" := by
      refine stringAt_of_lookup ?_ (by decide)
      simp +decide [← hd, eventName]
    have hde : stringAt doc "delta" = d.toolArgumentsDelta := by
      refine stringAt_of_lookup ?_ h.toolArgumentsDelta
      simp +decide [← hd, lookup_append]
    have hid : stringAt doc "call_id" = d.toolCallId := by
      refine stringAt_of_lookupIf ?_ h.toolCallId
      simp +decide [← hd, lookup_append]
    have hn : stringAt doc "name" = d.toolName := by
      refine stringAt_of_lookupIf ?_ h.toolName
      simp +decide [← hd, lookup_append]
    simp only [deltaOf, ht, hde, hid, hn]; rfl
  | contentEnd => rfl
  | messageEnd => rfl
  | done => rfl

def Gemini.writtenCandidate (d : StreamDelta) : Json := objectOf [
  memberIf (d.type = .messageEnd) "finishReason" (.str (finishReasonOf d.finishReason)),
  memberOf "content" (.object [("role", .str "model"), ("parts", .array [deltaPart d])]),
  memberOf "index" (.int 0)]

theorem Gemini.nulFree_finishReasonOf (reason : Bytes) : NulFree (finishReasonOf reason) := by
  unfold finishReasonOf
  split
  · decide
  split
  · decide
  split <;> decide

theorem Gemini.candidateDeltaOf_written (rj : RapidJson) (h : d.Canonical)
    (hd : d.type ≠ .done) : candidateDeltaOf rj (writtenCandidate d) = rereadDelta rj d := by
  have hp : candidateParts (writtenCandidate d) = [deltaPart d] := by
    have hc : valueAt (writtenCandidate d) "content" =
        .object [("role", .str "model"), ("parts", .array [deltaPart d])] :=
      valueAt_of_lookup (by simp +decide [writtenCandidate])
    rw [candidateParts, hc]; rfl
  have hf : finishOf (writtenCandidate d) =
      if d.type = .messageEnd then {
        type := .messageEnd, finishReason := readFinishReason (finishReasonOf d.finishReason) }
      else {} := by
    have hl : (writtenCandidate d).lookup "finishReason" =
        if d.type = .messageEnd then some (.str (finishReasonOf d.finishReason)) else none := by
      simp +decide [writtenCandidate]
    rw [finishOf, hl]
    by_cases he : d.type = .messageEnd
    · rw [if_pos he, if_pos he, bind_some, string?_str (nulFree_finishReasonOf _)]
    · rw [if_neg he, if_neg he]; rfl
  rw [candidateDeltaOf, hp, hf]
  unfold rereadDelta deltaPart
  cases ht : d.type with
  | done => exact absurd ht hd
  | messageStart => rfl
  | contentStart => rfl
  | contentEnd => rfl
  | messageEnd => rfl
  | textDelta =>
    have htext : textOf (.object [("text", .str d.text)]) = some d.text := string?_str h.text
    rw [findSome?_singleton, partDeltaOf, htext]
    cases d.text <;> rfl
  | toolCallDelta =>
    have hn : stringAt (.object [("name", .str d.toolName), ("args", .object [])]) "name" =
        d.toolName := stringAt_of_lookup rfl h.toolName
    change ({
      type := .toolCallDelta
      toolName := stringAt (.object [("name", .str d.toolName), ("args", .object [])]) "name"
      toolArgumentsDelta := rj.write (.object []) } : StreamDelta) = _
    rw [hn]

def writtenEvent (rj : RapidJson) (target : Format) (d : StreamDelta) : Bytes × Bytes :=
  match target with
  | .anthropic => ((Anthropic.eventValue d).1, rj.write (Anthropic.eventValue d).2)
  | .openAIChatCompletions =>
    ([], if d.type = .done then "[DONE]" else rj.write (OpenAI.chunkValue d))
  | .openAIResponses => (OpenAIResponses.eventName d.type,
      if d.type = .done then "\x7b\"type\":\"response.completed\"\x7d"
      else rj.write (OpenAIResponses.eventValue d))
  | .gemini => ([], if d.type = .done then "[DONE]" else rj.write (Gemini.chunkValue d))

structure StreamLawful (rj : RapidJson) : Prop extends Lawful rj where
  write_oneLine : ∀ doc, 10 ∉ rj.write doc ∧ 13 ∉ rj.write doc
  write_head : ∀ doc, (rj.write doc).head? ≠ some 32
  parse_done_cr : ∀ n, rj.parse (ascii "[DONE]" ++ replicate n 13) = none
  parse_completed : rj.parse "\x7b\"type\":\"response.completed\"\x7d" =
    some (.object [("type", .str "response.completed")])

theorem StreamLawful.parse_done (h : StreamLawful rj) : rj.parse "[DONE]" = none := by
  have hd := h.parse_done_cr 0
  rwa [replicate_zero, append_nil] at hd

theorem parseText_done_cr (n : Nat) : JsonText.parse (ascii "[DONE]" ++ replicate n 13) = none := by
  have hby : ascii "[DONE]" ++ replicate n 13 =
      91 :: 68 :: 79 :: 78 :: 69 :: 93 :: replicate n 13 := rfl
  have hn : JsonText.parseNumber (68 :: 79 :: 78 :: 69 :: 93 :: replicate n 13) = none := rfl
  have hl : JsonText.parseLiteral (68 :: 79 :: 78 :: 69 :: 93 :: replicate n 13) =
      none := rfl
  rw [JsonText.parse, hby]
  simp [JsonText.parseValue, hn, hl]

theorem head_writeText (doc : Json) : (JsonText.write doc).head? ≠ some 32 := by
  have hi : ∀ n rest, (JsonText.writeInt n ++ rest).head? ≠ some 32 := by
    intro n rest hh
    obtain ⟨c, ds, hds⟩ := exists_cons_of_ne_nil (decimal_ne_nil n.natAbs)
    unfold JsonText.writeInt at hh
    split at hh
    · cases hh
    · rw [nil_append, hds, cons_append, head?_cons, some.injEq] at hh
      have hd : isDigit c := isDigit_of_mem_decimal (by rw [hds]; exact mem_cons_self)
      rw [hh] at hd; cases hd
  cases doc with
  | null => decide
  | bool b => cases b <;> decide
  | int n => simpa [JsonText.write] using hi n []
  | double q => exact hi _ _
  | string s => exact (by decide : some (34 : UInt8) ≠ some 32)
  | array xs => cases xs <;> exact (by decide : some (91 : UInt8) ≠ some 32)
  | object ms =>
    rcases ms with _ | ⟨⟨k, v⟩, ms⟩
    · exact (by decide : some (123 : UInt8) ≠ some 32)
    · exact (by decide : some (123 : UInt8) ≠ some 32)

theorem streamLawful_compact : StreamLawful JsonText.compact where
  toLawful := lawful_compact
  write_oneLine doc := ⟨(JsonText.printable_write doc).not_mem (by decide),
    (JsonText.printable_write doc).not_mem (by decide)⟩
  write_head := head_writeText
  parse_done_cr := parseText_done_cr
  parse_completed := by
    have hw : JsonText.write (.object [("type", .str "response.completed")]) =
        "\x7b\"type\":\"response.completed\"\x7d" := by decide
    have hp := lawful_compact.parse_write (.object [("type", .str "response.completed")])
    exact hw ▸ hp

theorem isDonePayload_write (hrj : StreamLawful rj) (target : Format) (doc : Json) :
    isDonePayload target (rj.write doc) = false := by
  have hne : rj.write doc ≠ "[DONE]" := by
    intro heq
    have hp := hrj.parse_write doc
    rw [heq, hrj.parse_done] at hp; cases hp
  simp [isDonePayload, hne]

theorem streamDelta_write (hrj : StreamLawful rj) {target : Format} {doc : Json}
    (ho : doc.isObject) (hok : chunkOk target doc) (eventType : Bytes) :
    streamDelta rj target eventType (rj.write doc) = deltaOf rj target eventType doc := by
  have hd : readableDocument rj target (rj.write doc) = some doc := by
    simp [readableDocument, hrj.parse_write, object?, ho, hok]
  simp [streamDelta, isDonePayload_write hrj, hd]

theorem streamDelta_writtenEvent (hrj : StreamLawful rj) (h : d.Canonical) (target : Format) :
    streamDelta rj target (writtenEvent rj target d).1 (writtenEvent rj target d).2 =
      rereadDelta rj target d := by
  cases target with
  | anthropic =>
    have ho : (Anthropic.eventValue d).2.isObject := by
      unfold Anthropic.eventValue
      cases d.type <;> rfl
    simp only [writtenEvent]
    rw [streamDelta_write hrj ho rfl]; exact Anthropic.deltaOf_eventValue h
  | openAIChatCompletions =>
    by_cases hd : d.type = .done
    · simp only [writtenEvent, rereadDelta, OpenAI.rereadDelta, hd]; rfl
    · have ho : (OpenAI.chunkValue d).isObject := rfl
      simp only [writtenEvent, if_neg hd]
      rw [streamDelta_write hrj ho OpenAI.chunkOk_chunkValue]
      exact OpenAI.deltaOf_chunkValue h hd
  | openAIResponses =>
    by_cases hd : d.type = .done
    · have hdo : readableDocument rj .openAIResponses "\x7b\"type\":\"response.completed\"\x7d" =
          some (.object [("type", .str "response.completed")]) := by
        rw [readableDocument, hrj.parse_completed]; rfl
      simp only [writtenEvent, rereadDelta, OpenAIResponses.rereadDelta, hd, if_true,
        streamDelta, hdo]
      rfl
    · have ho : (OpenAIResponses.eventValue d).isObject := rfl
      simp only [writtenEvent, if_neg hd]
      rw [streamDelta_write hrj ho rfl]; exact OpenAIResponses.deltaOf_eventValue h
  | gemini =>
    by_cases hd : d.type = .done
    · simp only [writtenEvent, rereadDelta, Gemini.rereadDelta, hd]; rfl
    · have ho : (Gemini.chunkValue d).isObject := rfl
      have hok : chunkOk .gemini (Gemini.chunkValue d) := rfl
      simp only [writtenEvent, if_neg hd]
      rw [streamDelta_write hrj ho hok]; exact Gemini.candidateDeltaOf_written rj h hd

end Gateway.Protocol
