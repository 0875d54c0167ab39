import Gateway.Protocol.ToolRequest

/-! # The tool history of a conversation -/

namespace Gateway.Protocol

open Lib List

def ContentBlock.result? (b : ContentBlock) : Option Bytes := if b.type = .toolResult then some b.text else none

def ContentBlock.called? (rj : RapidJson) (b : ContentBlock) : Option (Bytes × Option Json) :=
  if b.type = .toolUse then some (b.toolName, rj.parse b.toolArguments) else none

namespace Message

def callsOf (rj : RapidJson) (msg : Message) : List (Bytes × Option Json) :=
  msg.toolCalls.map fun tc => (tc.name, rj.parse tc.arguments)

def resultsOf (msg : Message) : List Bytes :=
  msg.content.filterMap ContentBlock.result?
    ++ if msg.role = ascii "tool" then [msg.textContent] else []

def assistantText (msg : Message) : List Bytes :=
  if msg.role = ascii "assistant" ∧ msg.textContent ≠ [] then [msg.textContent] else []

end Message

structure SameHistory (rj : RapidJson) (ir ir' : ChatRequest) : Prop where
  calls : ir'.messages.flatMap (Message.callsOf rj) = ir.messages.flatMap (Message.callsOf rj)
  results : ir'.messages.flatMap Message.resultsOf = ir.messages.flatMap Message.resultsOf
  texts : ir'.messages.flatMap Message.assistantText = ir.messages.flatMap Message.assistantText

def back (rj : RapidJson) (target : Format) (msg : Message) : List Message :=
  match target with
  | .anthropic => [Anthropic.reread rj msg]
  | .openAIChatCompletions => [OpenAI.reread msg]
  | .openAIResponses => OpenAIResponses.reread msg
  | .gemini => [Gemini.reread rj msg]

theorem messages_reread (rj : RapidJson) (target : Format) (req : ChatRequest) :
    (reread rj target req).messages = req.messages.flatMap (back rj target) := by
  cases target <;> simp only [reread, map_eq_flatMap] <;> rfl

structure Message.Kept (rj : RapidJson) (target : Format) (msg : Message) : Prop where
  calls : (back rj target msg).flatMap (Message.callsOf rj) = msg.callsOf rj
  results : (back rj target msg).flatMap Message.resultsOf = msg.resultsOf
  texts : (back rj target msg).flatMap Message.assistantText = msg.assistantText

structure Message.NotMore (rj : RapidJson) (target : Format) (msg : Message) : Prop where
  calls : ((back rj target msg).flatMap (Message.callsOf rj)).length ≤ (msg.callsOf rj).length
  results : ((back rj target msg).flatMap Message.resultsOf).length ≤ msg.resultsOf.length
  texts : ((back rj target msg).flatMap Message.assistantText).length ≤ msg.assistantText.length

theorem sameHistory_reread_iff {rj : RapidJson} {target : Format} {ir req : ChatRequest}
    (hms : req.messages = ir.messages) (h : ∀ msg ∈ ir.messages, msg.NotMore rj target) :
    SameHistory rj ir (reread rj target req) ↔ ∀ msg ∈ ir.messages, msg.Kept rj target := by
  have hba : (reread rj target req).messages = ir.messages.flatMap (back rj target) := by
    rw [messages_reread, hms]
  have hc := flatMap_eq_flatMap_iff fun msg hm => (h msg hm).calls
  have hr := flatMap_eq_flatMap_iff fun msg hm => (h msg hm).results
  have ht := flatMap_eq_flatMap_iff fun msg hm => (h msg hm).texts
  rw [← flatMap_assoc, ← hba] at hc hr ht
  constructor
  · exact fun hs msg hm => ⟨hc.1 hs.calls msg hm, hr.1 hs.results msg hm,
      ht.1 hs.texts msg hm⟩
  · exact fun hk => ⟨hc.2 fun msg hm => (hk msg hm).calls,
      hr.2 fun msg hm => (hk msg hm).results,
      ht.2 fun msg hm => (hk msg hm).texts⟩

variable {bs : List ContentBlock}

section

variable {rj : RapidJson} {msg msg' : Message}

theorem textContent_congr
    (h : msg'.content.filterMap ContentBlock.text? = msg.content.filterMap ContentBlock.text?) :
    msg'.textContent = msg.textContent := by
  rw [Message.textContent_eq, Message.textContent_eq, h]

theorem resultsOf_congr (hr : msg'.role = msg.role) (ht : msg'.textContent = msg.textContent)
    (h : msg'.content.filterMap ContentBlock.result? = msg.content.filterMap ContentBlock.result?) :
    msg'.resultsOf = msg.resultsOf := by
  rw [Message.resultsOf, Message.resultsOf, hr, ht, h]

theorem assistantText_congr (hr : msg'.role = msg.role)
    (ht : msg'.textContent = msg.textContent) : msg'.assistantText = msg.assistantText := by
  rw [Message.assistantText, Message.assistantText, hr, ht]

theorem callsOf_ofBlocks (role : Bytes) (blocks : List ContentBlock) :
    (Message.ofBlocks role blocks).callsOf rj = blocks.filterMap (ContentBlock.called? rj) := by
  rw [Message.ofBlocks_eq, Message.callsOf, map_filterMap]
  refine filterMap_congr fun b _ => ?_
  by_cases hb : b.type = .toolUse <;> simp [ContentBlock.call?, ContentBlock.called?, hb]

theorem Message.InBlocks.callsOf_eq (h : msg.InBlocks rj) :
    msg.callsOf rj = msg.content.filterMap (ContentBlock.called? rj) := by
  rw [Message.callsOf, h.toolCalls, map_filterMap]
  refine filterMap_congr fun b _ => ?_
  by_cases hb : b.type = .toolUse <;> simp [ContentBlock.call?, ContentBlock.called?, hb]

theorem results_of_text (h : ∀ b ∈ bs, b.type = .text) : bs.filterMap ContentBlock.result? = [] :=
  filterMap_eq_nil_iff.2 fun b hb => by simp [ContentBlock.result?, h b hb]

theorem called_of_text (h : ∀ b ∈ bs, b.type = .text) :
    bs.filterMap (ContentBlock.called? rj) = [] :=
  filterMap_eq_nil_iff.2 fun b hb => by simp [ContentBlock.called?, h b hb]

end

section

variable {rj : RapidJson} {msg : Message}

theorem OpenAI.textContent_reread (h : msg.Canonical rj) :
    (reread msg).textContent = msg.textContent := by
  unfold reread
  split
  · simp [Message.textContent, appendLine]
  · refine textContent_congr ?_
    rw [filterMap_filterMap]
    refine filterMap_congr fun b hb => ?_
    cases h.content b hb <;> simp [rereadBlock, ContentBlock.text?]

theorem OpenAI.results_reread (h : msg.Canonical rj) :
    (reread msg).content.filterMap ContentBlock.result? =
      msg.content.filterMap ContentBlock.result? := by
  unfold reread
  split
  · rename_i hw
    simp only [writesText, hasToolBlocks, Bool.and_eq_true, Bool.not_eq_true', any_eq_false] at hw
    refine (results_of_text (by simp)).trans (filterMap_eq_nil_iff.2 fun b hb => ?_).symm
    have := hw.1 b hb
    simp_all [ContentBlock.result?]
  · rw [filterMap_filterMap]
    refine filterMap_congr fun b hb => ?_
    cases h.content b hb <;> simp [rereadBlock, ContentBlock.result?]

theorem OpenAI.kept_reread (h : msg.Canonical rj) : msg.Kept rj .openAIChatCompletions where
  calls := flatMap_singleton _ _
  results := (flatMap_singleton _ _).trans
    (resultsOf_congr rfl (textContent_reread h) (results_reread h))
  texts := (flatMap_singleton _ _).trans (assistantText_congr rfl (textContent_reread h))

end

section

variable {rj : RapidJson} {msg : Message}

theorem Anthropic.text_rereadBlock (b : ContentBlock) : (rereadBlock rj b).text? = b.text? := by
  unfold rereadBlock ContentBlock.text?
  cases hb : b.type <;> simp [hb]

theorem Anthropic.result_rereadBlock (b : ContentBlock) :
    (rereadBlock rj b).result? = b.result? := by
  unfold rereadBlock ContentBlock.result?
  cases hb : b.type <;> simp [hb]

theorem Anthropic.called_rereadBlock (hrj : Lawful rj) {b : ContentBlock}
    (h : b.type = .toolUse → ∃ o : Json, o.isObject ∧ b.toolArguments = rj.write o) :
    (rereadBlock rj b).called? rj = b.called? rj := by
  by_cases hb : b.type = .toolUse
  · obtain ⟨o, ho, hw⟩ := h hb
    simp [rereadBlock, ContentBlock.called?, hb, hw, objectOfText_write hrj ho]
  · have hs : (rereadBlock rj b).type = b.type := by
      unfold rereadBlock
      cases ht : b.type <;> simp [ht]
    simp [ContentBlock.called?, hs, hb]

theorem Anthropic.text_of_not_needsBlocks (h : needsBlocks msg = false) :
    (∀ b ∈ msg.content, b.type = .text) ∧ msg.toolCalls = [] := by
  simpa [needsBlocks] using h

theorem Anthropic.content_reread :
    (reread rj msg).content = if needsBlocks msg then msg.content.map (rereadBlock rj)
      else [{ type := .text, text := msg.textContent }] := by
  rw [reread, Message.ofBlocks_eq]

theorem Anthropic.textContent_reread : (reread rj msg).textContent = msg.textContent := by
  cases hn : needsBlocks msg with
  | true =>
    refine textContent_congr ?_
    rw [content_reread, hn, if_pos rfl, filterMap_map]
    exact filterMap_congr fun b _ => text_rereadBlock b
  | false => rw [Message.textContent_eq, content_reread, hn]; rfl

theorem Anthropic.results_reread : (reread rj msg).content.filterMap ContentBlock.result? =
      msg.content.filterMap ContentBlock.result? := by
  rw [content_reread]
  cases hn : needsBlocks msg with
  | true => rw [if_pos rfl, filterMap_map]; exact filterMap_congr fun b _ => result_rereadBlock b
  | false =>
    exact (results_of_text (by simp)).trans
      (results_of_text (text_of_not_needsBlocks hn).1).symm

theorem Anthropic.role_reread : (reread rj msg).role = msg.role := by
  rw [reread, Message.ofBlocks_eq]

theorem Anthropic.callsOf_reread (hrj : Lawful rj) (h : msg.InBlocks rj) :
    (reread rj msg).callsOf rj = msg.callsOf rj := by
  rw [h.callsOf_eq, reread, callsOf_ofBlocks]
  cases hn : needsBlocks msg with
  | true =>
    rw [if_pos rfl, filterMap_map]
    exact filterMap_congr fun b hb => called_rereadBlock hrj (h.arguments b hb)
  | false =>
    exact (called_of_text (by simp)).trans
      (called_of_text (text_of_not_needsBlocks hn).1).symm

theorem Anthropic.callsOf_reread_of_fields (h : msg.InFields) :
    (reread rj msg).callsOf rj = [] := by
  rw [reread, callsOf_ofBlocks]
  split
  · refine called_of_text fun b hb => ?_
    obtain ⟨b', hb', rfl⟩ := mem_map.1 hb
    simp [rereadBlock, h.content b' hb']
  · exact called_of_text (by simp)

end

section

variable {rj : RapidJson} {msg : Message}

theorem Gemini.filterMap_number {g : ContentBlock → Option β} (hg : ∀ k b, g (numbered k b) = g b)
    (bs : List ContentBlock) (k : Nat) : (number k bs).filterMap g = bs.filterMap g := by
  induction bs generalizing k with
  | nil => rfl
  | cons b bs ih => rw [number, filterMap_cons, filterMap_cons, hg, ih]

theorem Gemini.text_numbered (k : Nat) (b : ContentBlock) : (numbered k b).text? = b.text? := by
  unfold numbered
  split <;> simp_all [ContentBlock.text?]

theorem Gemini.result_numbered (k : Nat) (b : ContentBlock) :
    (numbered k b).result? = b.result? := by
  unfold numbered
  split <;> simp_all [ContentBlock.result?]

theorem Gemini.called_numbered (k : Nat) (b : ContentBlock) :
    (numbered k b).called? rj = b.called? rj := by
  unfold numbered
  split <;> simp_all [ContentBlock.called?]

theorem Gemini.content_reread :
    (reread rj msg).content = number 0 (msg.content.map (rereadBlock rj)) := by
  rw [reread, Message.ofBlocks_eq]

theorem Gemini.textContent_reread : (reread rj msg).textContent = msg.textContent := by
  refine textContent_congr ?_
  rw [content_reread, filterMap_number text_numbered, filterMap_map]
  refine filterMap_congr fun b _ => ?_
  unfold rereadBlock ContentBlock.text?
  cases hb : b.type <;> simp [hb]

theorem Gemini.results_reread : (reread rj msg).content.filterMap ContentBlock.result? =
      (msg.content.filterMap ContentBlock.result?).map fun t => rj.write (responseOfText rj t) := by
  rw [content_reread, filterMap_number result_numbered, filterMap_map, map_filterMap]
  refine filterMap_congr fun b _ => ?_
  unfold rereadBlock ContentBlock.result?
  cases hb : b.type <;> simp [hb]

theorem Gemini.role_reread (h : msg.role ≠ ascii "model") : (reread rj msg).role = msg.role := by
  rw [reread, Message.ofBlocks_eq]
  unfold rereadRole
  by_cases ha : msg.role = ascii "assistant" <;> simp [ha, h]

theorem Gemini.callsOf_reread (hrj : Lawful rj) (h : msg.InBlocks rj) :
    (reread rj msg).callsOf rj = msg.callsOf rj := by
  rw [h.callsOf_eq, reread, callsOf_ofBlocks, filterMap_number called_numbered, filterMap_map]
  refine filterMap_congr fun b hb => ?_
  by_cases ht : b.type = .toolUse
  · obtain ⟨o, ho, hw⟩ := h.arguments b hb ht
    simp [rereadBlock, ContentBlock.called?, ht, hw, objectOfText_write hrj ho]
  · have hs : (rereadBlock rj b).type = b.type := by
      unfold rereadBlock
      cases htype : b.type <;> simp [htype]
    simp [ContentBlock.called?, hs, ht]

theorem Gemini.callsOf_reread_of_fields (h : msg.InFields) : (reread rj msg).callsOf rj = [] := by
  rw [reread, callsOf_ofBlocks, filterMap_number called_numbered]
  refine called_of_text fun b hb => ?_
  obtain ⟨b', hb', rfl⟩ := mem_map.1 hb
  simp [rereadBlock, h.content b' hb']

theorem Gemini.write_responseOfText_iff (hrj : Lawful rj) (t : Bytes) :
    rj.write (responseOfText rj t) = t ↔ ∃ o : Json, o.isObject ∧ t = rj.write o := by
  constructor
  · exact fun h => ⟨_, isObject_responseOfText t, h.symm⟩
  · rintro ⟨o, ho, rfl⟩; rw [responseOfText_write hrj ho]

end

section

variable {rj : RapidJson} {msg : Message}

theorem OpenAIResponses.history_of_calls (h : msg.toolCalls ≠ []) :
    (reread msg).flatMap (Message.callsOf rj) = msg.callsOf rj ∧
      (reread msg).flatMap Message.resultsOf = [] ∧
      (reread msg).flatMap Message.assistantText = [] := by
  have hc : msg.toolCalls.isEmpty = false := by simpa using h
  have ht : ascii "assistant" ≠ ascii "tool" := by decide
  simp only [reread, hc, Bool.not_false, if_true, flatMap_map]
  refine ⟨map_eq_flatMap.symm, ?_, ?_⟩
  · simp [Message.resultsOf, ht]
  · simp [Message.assistantText, Message.textContent]

theorem OpenAIResponses.history_of_no_calls (h : msg.toolCalls = []) (hr : msg.role ≠ []) :
    (reread msg).flatMap (Message.callsOf rj) = msg.callsOf rj ∧
      (reread msg).flatMap Message.resultsOf =
        (if msg.role = ascii "tool" then [msg.textContent] else []) ∧
      (reread msg).flatMap Message.assistantText = msg.assistantText := by
  have ht : ∀ calls id, ({ role := msg.role, content := [{ text := msg.textContent }]
                           toolCalls := calls, toolCallId := id } : Message).textContent =
      msg.textContent := fun _ _ => rfl
  simp [reread, h, hr, Message.callsOf, Message.resultsOf, Message.assistantText, ht,
    ContentBlock.result?]

end

def Message.KeepsHistory (rj : RapidJson) (source target : Format) (msg : Message) : Prop :=
  match target with
  | .openAIChatCompletions => True
  | .anthropic => source.callsInFields = true → msg.toolCalls = []
  | .gemini => (source.callsInFields = true → msg.toolCalls = []) ∧
      ∀ t ∈ msg.content.filterMap ContentBlock.result?,
        ∃ o : Json, o.isObject = true ∧ t = rj.write o
  | .openAIResponses => msg.content.filterMap ContentBlock.result? = [] ∧
      (msg.toolCalls = [] ∨ msg.assistantText = [])

section

variable {rj : RapidJson} {source : Format} {msg : Message}

theorem Message.Placed.role (h : msg.Placed rj source) :
    msg.role = ascii "user" ∨ msg.role = ascii "assistant" ∨ msg.role = ascii "tool" := by
  unfold Message.Placed at h
  split at h
  · exact h.role
  · exact h.role.imp_right .inl

theorem callsOf_eq_nil_iff (rj : RapidJson) : msg.callsOf rj = [] ↔ msg.toolCalls = [] := by
  simp [Message.callsOf]

theorem lost_or_kept {p : Bool} {xs ys : List α} (h : (p ∧ ys = []) ∨ (p = false ∧ ys = xs)) :
    ys.length ≤ xs.length ∧ (ys = xs ↔ (p → xs = [])) := by
  obtain ⟨hp, rfl⟩ | ⟨hp, rfl⟩ := h
  · simp [hp, eq_comm]
  · simp [hp]

theorem Message.Placed.calls_lost_or_kept {calls : List (Bytes × Option Json)}
    (h : msg.Placed rj source) (hf : msg.InFields → calls = [])
    (hblocks : msg.InBlocks rj → calls = msg.callsOf rj) : calls.length ≤ (msg.callsOf rj).length ∧
      (calls = msg.callsOf rj ↔ (source.callsInFields → msg.toolCalls = [])) := by
  rw [← callsOf_eq_nil_iff rj]
  unfold Message.Placed at h
  split at h
  · exact lost_or_kept (.inl ⟨‹_›, hf h⟩)
  · exact lost_or_kept (.inr ⟨by simpa using ‹¬ source.callsInFields = true›, hblocks h⟩)

theorem Anthropic.kept_iff (hrj : Lawful rj) (h : msg.Placed rj source) :
    msg.NotMore rj .anthropic ∧
      (msg.Kept rj .anthropic ↔ msg.KeepsHistory rj source .anthropic) := by
  have hr : (reread rj msg).resultsOf = msg.resultsOf :=
    resultsOf_congr role_reread textContent_reread results_reread
  have ht : (reread rj msg).assistantText = msg.assistantText :=
    assistantText_congr role_reread textContent_reread
  obtain ⟨hl, hc⟩ := h.calls_lost_or_kept callsOf_reread_of_fields (callsOf_reread hrj)
  refine ⟨⟨by simpa [back] using hl, by simp [back, hr], by simp [back, ht]⟩, ?_⟩
  constructor
  · exact fun hk => hc.1 (by simpa [back] using hk.calls)
  · exact fun hke => ⟨by simpa [back] using hc.2 hke, by simp [back, hr], by simp [back, ht]⟩

theorem Gemini.kept_iff (hrj : Lawful rj) (h : msg.Placed rj source) :
    msg.NotMore rj .gemini ∧ (msg.Kept rj .gemini ↔ msg.KeepsHistory rj source .gemini) := by
  have hro : (reread rj msg).role = msg.role := role_reread (by
    rcases h.role with hr | hr | hr <;> rw [hr] <;> decide)
  have ht : (reread rj msg).assistantText = msg.assistantText :=
    assistantText_congr hro textContent_reread
  have hre : (reread rj msg).resultsOf =
      (msg.content.filterMap ContentBlock.result?).map (fun t => rj.write (responseOfText rj t))
        ++ if msg.role = ascii "tool" then [msg.textContent] else [] := by
    rw [Message.resultsOf, results_reread, hro, textContent_reread]
  have hs : (reread rj msg).resultsOf = msg.resultsOf ↔
      ∀ t ∈ msg.content.filterMap ContentBlock.result?,
        ∃ o : Json, o.isObject ∧ t = rj.write o := by
    rw [hre, Message.resultsOf, append_left_inj]
    refine Iff.trans ?_ (forall₂_congr fun t _ => write_responseOfText_iff hrj t)
    exact Iff.trans (by rw [map_id]) (map_inj_left (g := id))
  have hco : (reread rj msg).resultsOf.length = msg.resultsOf.length := by
    rw [hre, Message.resultsOf, length_append, length_append, length_map]
  obtain ⟨hl, hc⟩ := h.calls_lost_or_kept callsOf_reread_of_fields (callsOf_reread hrj)
  refine ⟨⟨by simpa [back] using hl, by simp [back, hco], by simp [back, ht]⟩, ?_⟩
  constructor
  · exact fun hk => ⟨hc.1 (by simpa [back] using hk.calls),
      hs.1 (by simpa [back] using hk.results)⟩
  · exact fun hke => ⟨by simpa [back] using hc.2 hke.1,
      by simpa [back] using hs.2 hke.2, by simp [back, ht]⟩

theorem OpenAIResponses.kept_iff (h : msg.Placed rj source) : msg.NotMore rj .openAIResponses ∧
      (msg.Kept rj .openAIResponses ↔ msg.KeepsHistory rj source .openAIResponses) := by
  have hba : back rj .openAIResponses msg = reread msg := rfl
  by_cases hn : msg.toolCalls = []
  · have hro : msg.role ≠ [] := by rcases h.role with hr | hr | hr <;> rw [hr] <;> decide
    obtain ⟨hc, hre, ht⟩ := history_of_no_calls hn hro
    have hs : msg.resultsOf = msg.content.filterMap ContentBlock.result?
        ++ (reread msg).flatMap Message.resultsOf := by rw [hre, Message.resultsOf]
    refine ⟨⟨by rw [hba, hc], by simp [hba, hs], by rw [hba, ht]⟩,
      fun hk => ⟨?_, .inl hn⟩, fun hke => ⟨hc, ?_, ht⟩⟩
    · exact append_left_eq_self.1 (hs.symm.trans hk.results.symm)
    · rw [hba, hs, hke.1, nil_append]
  · obtain ⟨hc, hre, ht⟩ := history_of_calls hn
    have hro : msg.role ≠ ascii "tool" := by
      unfold Message.Placed at h
      split at h
      · rw [h.toolCalls hn]; decide
      · rcases h.role with hr | hr <;> rw [hr] <;> decide
    have hblocks : msg.resultsOf = msg.content.filterMap ContentBlock.result? := by
      simp [Message.resultsOf, hro]
    refine ⟨⟨by rw [hba, hc], by simp [hba, hre], by simp [hba, ht]⟩,
      fun hk => ⟨?_, .inr ?_⟩, fun hke => ⟨hc, ?_, ?_⟩⟩
    · rw [← hblocks, ← hk.results, hba, hre]
    · rw [← hk.texts, hba, ht]
    · rw [hba, hre, hblocks, hke.1]
    · rw [hba, ht, hke.2.resolve_left hn]

theorem kept_iff (hrj : Lawful rj) (hc : msg.Canonical rj) (h : msg.Placed rj source)
    (target : Format) :
    msg.NotMore rj target ∧ (msg.Kept rj target ↔ msg.KeepsHistory rj source target) := by
  cases target with
  | anthropic => exact Anthropic.kept_iff hrj h
  | openAIChatCompletions =>
    have hk := OpenAI.kept_reread hc
    exact ⟨⟨hk.calls ▸ le_rfl, hk.results ▸ le_rfl, hk.texts ▸ le_rfl⟩,
      iff_of_true hk trivial⟩
  | openAIResponses => exact OpenAIResponses.kept_iff h
  | gemini => exact Gemini.kept_iff hrj h

end

end Gateway.Protocol
