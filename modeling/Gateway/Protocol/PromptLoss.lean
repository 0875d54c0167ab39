import Gateway.Protocol.PromptContent
import Gateway.Protocol.Safety

/-! # What a parser drops without saying so -/

namespace Gateway.Protocol

open Lib Json JsonText Converter List

variable (rj : RapidJson)

variable (source : Format)

def ChatRequest.Shows (req : ChatRequest) (t : Bytes) : Prop :=
  t <:+: req.system ∨ ∃ msg ∈ req.messages, ∃ b ∈ msg.content, t <:+: b.text

def NothingLost (doc : Json) (req : ChatRequest) : Prop :=
  req.unsupportedContent = true ∨
    (∀ t ∈ promptTexts source doc, req.Shows t) ∧ promptForeign rj source doc = false

def losesNothing (doc : Json) : Prop :=
  (messageContents source doc).any (hasForeignPart rj source) = true ∨
    promptForeign rj source doc = false ∧ ∀ t ∈ promptTexts source doc,
      NulFree t ∧ (t ∈ unreadTexts source doc → ReadIn rj source doc t)

theorem appendLine_nil (text : Bytes) : appendLine [] text = text := rfl

variable {entry : Json → Entry} {contents : Json → List Json}

theorem filterMap_system_map {line : Json → Option Bytes}
    (h : ∀ m, (entry m).system.toList = (contents m).filterMap line) (ms : List Json) :
    (ms.map entry).filterMap (·.system) = (ms.flatMap contents).filterMap line := by
  induction ms with
  | nil => rfl
  | cons m ms ih =>
    rw [map_cons, flatMap_cons, filterMap_append, ← h, ← ih]
    cases hs : (entry m).system <;> simp [hs]

theorem OpenAI.system_entryOf (m : Json) : (entryOf rj m).system.toList =
      (if isSystem m then (m.lookup "content").toList else []).filterMap (some ∘ systemLine) := by
  unfold entryOf isSystem
  cases h : m.isObject with
  | false => simp +decide [stringAt_of_not_object h]
  | true =>
    cases stringAt m "role" == ascii "system" || stringAt m "role" == ascii "developer" with
    | true => cases m.lookup "content" <;> simp
    | false => simp

theorem OpenAIResponses.system_entryOf (item : Json) :
    (entryOf item).system.toList = (systemContents item).filterMap string? := by
  unfold entryOf systemContents isMessage messageEntry isSystem
  cases h : item.isObject with
  | false => simp +decide [stringAt_of_not_object h, lookup_of_not_object h]
  | true =>
    cases stringAt item "type" == ascii "message" || (item.lookup "role").isSome with
    | true =>
      cases roleOf item == ascii "system" || roleOf item == ascii "developer" with
      | true =>
        cases item.lookup "content" with
        | none => simp
        | some content => cases hs : content.string? <;> simp [hs]
      | false => simp
    | false => cases stringAt item "type" == ascii "function_call" <;>
        cases stringAt item "type" == ascii "function_call_output" <;> simp

theorem system_requestOf (doc : Json) :
    (requestOf rj source doc).system = systemTextOf source doc := by
  cases source with
  | anthropic =>
    have hn : (entriesOf rj .anthropic doc).filterMap (·.system) = [] := by
      refine filterMap_eq_nil_iff.2 fun e he => ?_
      obtain ⟨m, -, rfl⟩ := mem_map.1 he
      unfold Anthropic.entryOf
      split <;> rfl
    exact congrArg (joinLines (Anthropic.systemOf doc)) hn
  | openAIChatCompletions =>
    have hl := filterMap_system_map (OpenAI.system_entryOf rj) (entriesAt doc "messages")
    rw [filterMap_eq_map] at hl; exact congrArg (joinLines []) hl
  | openAIResponses =>
    have hl : (OpenAIResponses.inputEntries doc).filterMap (·.system) =
        ((entriesAt doc "input").flatMap OpenAIResponses.systemContents).filterMap string? := by
      rw [← filterMap_system_map OpenAIResponses.system_entryOf]
      unfold OpenAIResponses.inputEntries entriesAt
      cases doc.lookup "input" with
      | none => rfl
      | some input => cases input <;> rfl
    have hr : (requestOf rj .openAIResponses doc).system =
        joinLines (stringAt doc "instructions")
          ((OpenAIResponses.inputEntries doc).filterMap (·.system)) := rfl
    rw [hr, hl, systemTextOf, systemContents, filterMap_append, stringAt]
    cases doc.lookup "instructions" with
    | none => rfl
    | some v => cases hs : v.string? <;> simp [hs, joinLines, appendLine_nil]
  | gemini =>
    have hn : (entriesOf rj .gemini doc).filterMap (·.system) = [] := by
      refine filterMap_eq_nil_iff.2 fun e he => ?_
      obtain ⟨c, -, rfl⟩ := mem_map.1 he
      unfold Gemini.entryOf
      split <;> rfl
    exact congrArg (joinLines (Gemini.systemOf doc)) hn

def Entry.HasBlock (e : Entry) (p : ContentBlock → Prop) : Prop :=
  ∃ msg ∈ e.messages, ∃ b ∈ msg.content, p b

def ReadsBlock (p : ContentBlock → Prop)
    (contents : List Json) : Prop :=
  ∃ c ∈ contents, ∃ b ∈ contentBlocks rj source c, p b

section

variable {rj : RapidJson} {source : Format} {p : ContentBlock → Prop}

theorem readsBlock_append {xs ys : List Json} :
    ReadsBlock rj source p (xs ++ ys) ↔ ReadsBlock rj source p xs ∨ ReadsBlock rj source p ys := by
  simp only [ReadsBlock, mem_append, or_and_right, exists_or]

theorem readsBlock_flatMap {f : Json → List Json} {xs : List Json} :
    ReadsBlock rj source p (xs.flatMap f) ↔ ∃ x ∈ xs, ReadsBlock rj source p (f x) := by
  simp only [ReadsBlock, mem_flatMap]
  constructor
  · rintro ⟨c, ⟨x, hx, hc⟩, hb⟩; exact ⟨x, hx, c, hc, hb⟩
  · rintro ⟨x, hx, c, hc, hb⟩; exact ⟨c, ⟨x, hx, hc⟩, hb⟩

theorem readsBlock_lookup {m : Json} {key : Bytes} (hn : contentBlocks rj source .null = []) :
    ReadsBlock rj source p (m.lookup key).toList ↔
      ∃ b ∈ contentBlocks rj source (valueAt m key), p b := by
  unfold ReadsBlock valueAt
  cases m.lookup key <;> simp [hn]

theorem Anthropic.hasBlock_entryOf (m : Json) :
    (entryOf rj m).HasBlock p ↔ ReadsBlock rj .anthropic p (m.lookup "content").toList := by
  rw [readsBlock_lookup rfl]
  unfold entryOf Entry.HasBlock
  cases h : m.isObject with
  | false => simp [valueAt, lookup_of_not_object h, contentBlocks, blocksOf]
  | true => simp [Message.ofBlocks_eq, contentBlocks]

theorem OpenAI.hasBlock_entryOf (m : Json) :
    (entryOf rj m).HasBlock p ↔ ReadsBlock rj .openAIChatCompletions p
      (if isSystem m then [] else (m.lookup "content").toList) := by
  unfold entryOf Entry.HasBlock
  cases h : m.isObject with
  | false => simp +decide [isSystem, stringAt_of_not_object h, lookup_of_not_object h,
    ReadsBlock]
  | true =>
    rw [← isSystem.eq_def]
    cases isSystem m with
    | true => simp [ReadsBlock]
    | false =>
      simp only [Bool.false_eq_true, if_false]
      rw [readsBlock_lookup rfl]
      simp [contentBlocks]

theorem Gemini.exists_mem_number (hn : ∀ n b, p (numbered n b) ↔ p b) (k : Nat)
    (bs : List ContentBlock) : (∃ b ∈ number k bs, p b) ↔ ∃ b ∈ bs, p b := by
  induction bs generalizing k with
  | nil => rfl
  | cons b bs ih => simp [number, hn, ih]

theorem Gemini.hasBlock_entryOf (hn : ∀ n b, p (numbered n b) ↔ p b) (c : Json) :
    (entryOf rj c).HasBlock p ↔ ReadsBlock rj .gemini p (c.lookup "parts").toList := by
  rw [readsBlock_lookup rfl, contentBlocks, ← entriesAt_eq_valueAt]
  unfold entryOf Entry.HasBlock
  cases h : c.isObject with
  | false => simp [entriesAt_of_not_object h]
  | true =>
    refine Iff.trans ?_ (exists_mem_number hn 0 _)
    simp [Message.ofBlocks_eq]

theorem OpenAIResponses.hasBlock_entryOf (he : ¬ p { type := .text }) (item : Json) :
    (entryOf item).HasBlock p ↔ ReadsBlock rj .openAIResponses p
      (messageContents item ++ (outputContents item).filter isString) := by
  unfold entryOf messageContents outputContents Entry.HasBlock
  cases h : item.isObject with
  | false =>
    simp +decide [isMessage, isOutput, stringAt_of_not_object h, lookup_of_not_object h,
      ReadsBlock]
  | true =>
    rw [← isMessage.eq_def, ← isOutput.eq_def]
    cases isMessage item with
    | true =>
      unfold messageEntry
      rw [← isSystem.eq_def]
      cases isSystem item with
      | true => simp [ReadsBlock]
      | false =>
        simp only [Bool.not_false, Bool.and_self, if_true, Bool.not_true, Bool.false_and,
          Bool.false_eq_true, if_false, filter_nil, append_nil]
        rw [readsBlock_lookup rfl]
        simp [contentBlocks]
    | false =>
      cases ho : isOutput item with
      | false =>
        cases stringAt item "type" == ascii "function_call" <;> simp [ReadsBlock]
      | true =>
        have hc : (stringAt item "type" == ascii "function_call") = false := by
          rw [isOutput, beq_iff_eq] at ho
          rw [ho]; decide
        have hblock : (∃ msg ∈ [({
              role := "tool", toolCallId := stringAt item "call_id"
              content := [{ type := .text, text := stringAt item "output" }] } : Message)],
            ∃ b ∈ msg.content, p b) ↔ p { type := .text, text := stringAt item "output" } := by
          simp
        rw [hc]
        refine hblock.trans ?_
        unfold stringAt ReadsBlock
        cases item.lookup "output" with
        | none => simp [he]
        | some v => cases v <;> simp [he, string?, isString, contentBlocks, blocksOf]

theorem exists_mem_map_iff {q : Entry → Prop} {r : Json → Prop} (h : ∀ m, q (entry m) ↔ r m)
    (ms : List Json) : (∃ e ∈ ms.map entry, q e) ↔ ∃ m ∈ ms, r m := by
  simp [h]

theorem OpenAIResponses.hasBlock_inputEntries (hem : ¬ p { type := .text }) (doc : Json) :
    (∃ e ∈ inputEntries doc, e.HasBlock p) ↔
      ReadsBlock rj .openAIResponses p (blockContents .openAIResponses doc) := by
  unfold blockContents
  have hite : ∀ item, (entryOf item).HasBlock p ↔ ReadsBlock rj .openAIResponses p
      (messageContents item ++ (outputContents item).filter isString) :=
    hasBlock_entryOf hem
  have hit : (∃ e ∈ (entriesAt doc "input").map entryOf, e.HasBlock p) ↔
      ReadsBlock rj .openAIResponses p ((entriesAt doc "input").flatMap messageContents
        ++ ((entriesAt doc "input").flatMap outputContents).filter isString) := by
    rw [exists_mem_map_iff hite, filter_flatMap, readsBlock_append, readsBlock_flatMap,
      readsBlock_flatMap, ← exists_or]
    simp only [readsBlock_append, ← and_or_left]
  unfold inputEntries Protocol.messageContents Protocol.outputContents
  cases hi : doc.lookup "input" with
  | none => simp [entriesAt, hi, ReadsBlock]
  | some input =>
    cases input with
    | string s =>
      simp [entriesAt, hi, ReadsBlock, array?, isString, contentBlocks, blocksOf, Entry.HasBlock]
    | array items =>
      have he : entriesAt doc "input" = items := by simp [entriesAt, hi, array?]
      rw [he] at hit
      simpa [he, isString, Option.filter] using hit
    | _ => simp [entriesAt, hi, ReadsBlock, array?, isString]

theorem exists_block_requestOf_iff (hn : ∀ n b, p (Gemini.numbered n b) ↔ p b)
    (hem : ¬ p { type := .text }) (doc : Json) :
    (∃ msg ∈ (requestOf rj source doc).messages, ∃ b ∈ msg.content, p b) ↔
      ∃ c ∈ blockContents source doc, ∃ b ∈ contentBlocks rj source c, p b := by
  have hen : (∃ msg ∈ (requestOf rj source doc).messages, ∃ b ∈ msg.content, p b) ↔
      ∃ e ∈ entriesOf rj source doc, e.HasBlock p := by
    rw [messages_requestOf]
    simp only [mem_flatMap, Entry.HasBlock]
    constructor
    · rintro ⟨msg, ⟨e, he, hm⟩, hb⟩; exact ⟨e, he, msg, hm, hb⟩
    · rintro ⟨e, he, msg, hm, hb⟩; exact ⟨msg, ⟨e, he, hm⟩, hb⟩
  refine hen.trans (Iff.trans ?_ (by rfl : ReadsBlock rj source p _ ↔ _))
  cases source with
  | anthropic =>
    refine (exists_mem_map_iff (fun m => Anthropic.hasBlock_entryOf m) _).trans ?_
    rw [← readsBlock_flatMap, blockContents]
    simp only [messageContents, outputContents, filter_nil, append_nil]
  | openAIChatCompletions =>
    refine (exists_mem_map_iff (fun m => OpenAI.hasBlock_entryOf m) _).trans ?_
    rw [← readsBlock_flatMap, blockContents]
    simp only [messageContents, outputContents, filter_nil, append_nil]
  | openAIResponses => exact OpenAIResponses.hasBlock_inputEntries hem doc
  | gemini =>
    refine (exists_mem_map_iff (fun c => Gemini.hasBlock_entryOf hn c) _).trans ?_
    rw [← readsBlock_flatMap, blockContents]
    simp only [messageContents, outputContents, filter_nil, append_nil]

end

theorem shows_requestOf_iff (rj : RapidJson) (source : Format) (doc : Json) (t : Bytes) :
    (requestOf rj source doc).Shows t ↔ ReadIn rj source doc t := by
  by_cases ht : t = []
  · subst ht; exact iff_of_true (.inl nil_infix) (.inl nil_infix)
  unfold ChatRequest.Shows ReadIn
  rw [system_requestOf]
  refine or_congr_right (exists_block_requestOf_iff (p := fun b => t <:+: b.text) ?_ ?_ doc)
  · intro n b
    unfold Gemini.numbered
    split <;> rfl
  · simpa using ht

theorem any_lookup (p : Json → Bool) (m : Json) (key : Bytes) (hn : p .null = false) :
    (m.lookup key).toList.any p = p (valueAt m key) := by
  unfold valueAt
  cases m.lookup key <;> simp [hn]

theorem OpenAIResponses.unsupported_entryOf (rj : RapidJson) (item : Json) :
    (entryOf item).unsupported =
      (messageContents item).any (hasForeignPart rj .openAIResponses) := by
  unfold entryOf messageContents isMessage messageEntry isSystem
  cases h : item.isObject with
  | false => simp +decide [stringAt_of_not_object h, lookup_of_not_object h]
  | true =>
    cases stringAt item "type" == ascii "message" || (item.lookup "role").isSome with
    | true =>
      cases roleOf item == ascii "system" || roleOf item == ascii "developer" with
      | true => simp
      | false => simp [any_lookup (hasForeignPart rj .openAIResponses) item "content" rfl,
          hasForeignPart]
    | false => cases stringAt item "type" == ascii "function_call" <;>
        cases stringAt item "type" == ascii "function_call_output" <;> simp

theorem any_unsupported_map {p : Json → Bool} (h : ∀ m, (entry m).unsupported = (contents m).any p)
    (ms : List Json) : (ms.map entry).any (·.unsupported) = (ms.flatMap contents).any p := by
  simp only [any_map, any_flatMap, Function.comp_def, h]

theorem unsupportedContent_requestOf_eq (rj : RapidJson) (source : Format) (doc : Json) :
    (requestOf rj source doc).unsupportedContent =
      (messageContents source doc).any (hasForeignPart rj source) := by
  rw [unsupportedContent_requestOf]
  cases source with
  | anthropic =>
    refine any_unsupported_map (fun m => ?_) _
    rw [any_lookup (hasForeignPart rj .anthropic) m "content" rfl, hasForeignPart]
    unfold Anthropic.entryOf
    cases h : m.isObject with
    | false => simp [valueAt, lookup_of_not_object h, contentForeign, array?]
    | true => rfl
  | openAIChatCompletions =>
    refine any_unsupported_map (fun m => ?_) _
    unfold OpenAI.entryOf
    rw [← OpenAI.isSystem.eq_def]
    cases h : m.isObject with
    | false => simp [lookup_of_not_object h]
    | true =>
      cases OpenAI.isSystem m with
      | true => rfl
      | false => simp [any_lookup (hasForeignPart rj .openAIChatCompletions) m "content" rfl,
          hasForeignPart]
  | openAIResponses =>
    have hit := any_unsupported_map (OpenAIResponses.unsupported_entryOf rj)
      (entriesAt doc "input")
    unfold entriesOf OpenAIResponses.inputEntries messageContents
    cases hi : doc.lookup "input" with
    | none => simp [entriesAt, hi]
    | some input =>
      cases input with
      | array items =>
        have he : entriesAt doc "input" = items := by simp [entriesAt, hi, array?]
        rw [he] at hit
        simpa [he, isString, Option.filter] using hit
      | _ => simp [entriesAt, hi, array?, isString, hasForeignPart, Option.filter,
          OpenAIResponses.contentForeign]
  | gemini =>
    refine any_unsupported_map (fun c => ?_) _
    rw [any_lookup (hasForeignPart rj .gemini) c "parts" rfl, hasForeignPart,
      ← entriesAt_eq_valueAt]
    unfold Gemini.entryOf
    cases h : c.isObject with
    | false => simp [entriesAt_of_not_object h]
    | true => rfl

theorem ContentBlock.Canonical.nulFree_text {rj : RapidJson} {b : ContentBlock}
    (h : b.Canonical rj) : NulFree b.text := by
  cases h with
  | text t ht => exact ht
  | toolUse => exact nulFree_nil
  | toolResult _ _ _ _ _ ht => exact ht

/-- Nothing is lost in silence exactly where `losesNothing` says so of the document. -/
theorem nothing_lost_iff {rj : RapidJson} (hrj : Lawful rj) {source : Format} {body : Bytes}
    {doc : Json} (hparse : rj.parse body = some doc) (hobj : doc.isObject = true)
    {ir : ChatRequest} (hir : parseRequest rj source body = .ok ir) :
    NothingLost rj source doc ir ↔ losesNothing rj source doc := by
  have hok : requestOk source doc := by
    refine (parseRequest_safe_iff rj source body).1 ⟨ir, hir⟩ doc ?_
    rw [hparse]; exact if_pos hobj
  obtain rfl : requestOf rj source doc = ir :=
    Except.ok.inj ((parseRequest_eq hparse hobj hok).symm.trans hir)
  have hcanonical := requestOf_canonical hrj source doc
  unfold NothingLost losesNothing
  rw [unsupportedContent_requestOf_eq, and_comm]
  refine or_congr_right (and_congr_right fun _ => forall₂_congr fun t ht => ?_)
  rw [shows_requestOf_iff]
  constructor
  · intro hread
    refine ⟨?_, fun _ => hread⟩
    rcases (shows_requestOf_iff rj source doc t).2 hread with hsystem | ⟨msg, hmsg, b, hb, htext⟩
    · exact nulFree_of_isInfix hcanonical.system hsystem
    · exact nulFree_of_isInfix ((hcanonical.messages msg hmsg).content b hb).nulFree_text htext
  · rintro ⟨hnul, hunread⟩; exact (unread_or_readIn rj ht hnul).elim hunread id

def frenchQuestion : Json := .object [
  ("model", .str "claude"),
  ("system", .array [
    .object [("type", .str "text"), ("text", .str "Answer in French.")],
    .object [("type", .str "text"), ("text", .str "Be brief.")]]),
  ("messages", .array [.object [("role", .str "user"), ("content", .str "Who wrote Candide?")]])]

theorem frenchQuestion_nothing_lost : ∃ ir, parseRequest compact .anthropic
        (compact.write frenchQuestion) = .ok ir ∧
      NothingLost compact .anthropic frenchQuestion ir := by
  have hread : parseRequest compact .anthropic
      (compact.write frenchQuestion) =
        .ok (requestOf compact .anthropic frenchQuestion) :=
    parseRequest_eq (lawful_compact.parse_write frenchQuestion) rfl (by decide)
  refine ⟨_, hread, (nothing_lost_iff lawful_compact (lawful_compact.parse_write frenchQuestion) rfl
    hread).2 (.inr ⟨by decide, fun t ht => ⟨?_, fun h => by cases h⟩⟩)⟩
  have hnul : ∀ t ∈ promptTexts .anthropic frenchQuestion, 0 ∉ t := by decide
  exact hnul t ht

def frenchItems : Json := .object [
  ("model", .str "gpt-4o"),
  ("input", .array [
    .object [("role", .str "system"), ("content", .array [
      .object [("type", .str "input_text"), ("text", .str "Answer in French.")]])],
    .object [("role", .str "user"), ("content", .str "Who wrote Candide?")]])]

instance (rj : RapidJson) (source : Format) (doc : Json) (t : Bytes) :
    Decidable (ReadIn rj source doc t) :=
  inferInstanceAs (Decidable (_ ∨ _))

theorem frenchItems_instruction_lost : ∃ ir, parseRequest compact .openAIResponses
        (compact.write frenchItems) = .ok ir ∧ ir.unsupportedContent = false ∧
      ascii "Answer in French." ∈ promptTexts .openAIResponses frenchItems ∧
      ¬ ir.Shows "Answer in French." ∧ ¬ NothingLost compact .openAIResponses frenchItems ir := by
  have hread : parseRequest compact .openAIResponses
      (compact.write frenchItems) =
        .ok (requestOf compact .openAIResponses frenchItems) :=
    parseRequest_eq (lawful_compact.parse_write frenchItems) rfl (by decide)
  have hflag : (requestOf compact .openAIResponses frenchItems).unsupportedContent =
      false := by decide
  have htext : ascii "Answer in French." ∈ promptTexts .openAIResponses frenchItems := by decide
  have hlost : ¬ (requestOf compact .openAIResponses frenchItems).Shows
      "Answer in French." := by
    rw [shows_requestOf_iff]; decide
  refine ⟨_, hread, hflag, htext, hlost, ?_⟩
  rintro (h | ⟨htexts, -⟩)
  · exact absurd (hflag.symm.trans h) (by decide)
  · exact hlost (htexts _ htext)

end Gateway.Protocol
