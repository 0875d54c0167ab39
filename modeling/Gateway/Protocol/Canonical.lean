import Gateway.JsonText
import Gateway.Protocol.ReadingItems

/-! # What a parser leaves in the intermediate representation -/

namespace Gateway.Protocol

open Lib Json JsonText List Option

structure Lawful (rj : RapidJson) : Prop where
  parse_write : ∀ doc, rj.parse (rj.write doc) = some doc
  parse_nil : rj.parse [] = none
  write_nulFree : ∀ doc, NulFree (rj.write doc)

theorem Lawful.write_ne_nil {rj : RapidJson} (hrj : Lawful rj) (doc : Json) :
    rj.write doc ≠ [] := by
  intro h
  have := hrj.parse_write doc
  rw [h, hrj.parse_nil] at this
  cases this

theorem lawful_compact : Lawful compact where
  parse_write := parse_write
  parse_nil := rfl
  write_nulFree := nulFree_write

def ObjectText (rj : RapidJson) (s : Bytes) : Prop :=
  s = [] ∨ ∃ o : Json, o.isObject = true ∧ s = rj.write o

theorem objectTextAt_objectText (rj : RapidJson) (j : Json) (key : Bytes) :
    ObjectText rj (objectTextAt rj j key) := by
  unfold objectTextAt
  cases ho : (j.lookup key).bind object? with
  | none => exact .inl rfl
  | some o => exact .inr ⟨o, isObject_of_bind_object? ho, rfl⟩

variable {s : Bytes}

section

variable {rj : RapidJson} (hrj : Lawful rj)

include hrj in
theorem ObjectText.nulFree (h : ObjectText rj s) : NulFree s := by
  obtain rfl | ⟨o, -, rfl⟩ := h
  · exact nulFree_nil
  · exact hrj.write_nulFree o

include hrj in
theorem parse_cstr_write (o : Json) : rj.parse (cstr (rj.write o)) = some o := by
  rw [(hrj.write_nulFree o).cstr_eq, hrj.parse_write]

include hrj in
theorem objectOfText_write {o : Json} (ho : o.isObject) : objectOfText rj (rj.write o) = o := by
  have hne : (rj.write o).isEmpty = false := by simpa using hrj.write_ne_nil o
  simp [objectOfText, hne, parse_cstr_write hrj, object?, ho]

theorem isObject_objectOfText (s : Bytes) : (objectOfText rj s).isObject := by
  unfold objectOfText
  split
  · rfl
  · cases ho : (rj.parse (cstr s)).bind object? with
    | none => rfl
    | some o => exact isObject_of_bind_object? ho

end

variable (rj : RapidJson)

inductive ContentBlock.Canonical (rj : RapidJson) : ContentBlock → Prop where
  | text (t : Bytes) (ht : NulFree t) : Canonical rj { type := .text, text := t }
  | toolUse (id name arguments : Bytes) (hid : NulFree id) (hname : NulFree name)
      (harguments : ObjectText rj arguments) :
      Canonical rj {
        type := .toolUse, toolCallId := id, toolName := name, toolArguments := arguments }
  | toolResult (id name t : Bytes) (hid : NulFree id) (hname : NulFree name) (ht : NulFree t) :
      Canonical rj { type := .toolResult, toolCallId := id, toolName := name, text := t }

structure ToolCall.Canonical (tc : ToolCall) : Prop where
  id : NulFree tc.id
  name : NulFree tc.name
  arguments : NulFree tc.arguments

structure Message.Canonical (rj : RapidJson) (msg : Message) : Prop where
  role : NulFree msg.role
  content : ∀ b ∈ msg.content, b.Canonical rj
  toolCalls : ∀ tc ∈ msg.toolCalls, tc.Canonical
  toolCallId : NulFree msg.toolCallId

structure ToolDef.Canonical (rj : RapidJson) (t : ToolDef) : Prop where
  name : NulFree t.name
  description : NulFree t.description
  parametersJson : ObjectText rj t.parametersJson

structure ChatRequest.Canonical (rj : RapidJson) (req : ChatRequest) : Prop where
  model : NulFree req.model
  system : NulFree req.system
  messages : ∀ msg ∈ req.messages, msg.Canonical rj
  tools : ∀ t ∈ req.tools, t.Canonical rj
  maxTokens : -2 ^ 31 ≤ req.maxTokens ∧ req.maxTokens < 2 ^ 31
  stop : ∀ s ∈ req.stop, NulFree s
  metadataUserId : NulFree req.metadataUserId

theorem nulFree_of_string? {j : Json} (h : j.string? = some s) : NulFree s := by
  cases j with
  | string b => cases h; exact nulFree_cstr b
  | _ => cases h

theorem nulFree_stringAt (j : Json) (key : Bytes) : NulFree (stringAt j key) := by
  unfold stringAt
  cases h : (j.lookup key).bind string? with
  | none => exact nulFree_nil
  | some s => obtain ⟨v, -, hv⟩ := bind_eq_some_iff.1 h; exact nulFree_of_string? hv

theorem nulFree_of_textOf {p : Json} (h : textOf p = some s) : NulFree s := by
  obtain ⟨v, -, hv⟩ := bind_eq_some_iff.1 h
  exact nulFree_of_string? hv

theorem nulFree_of_mem_stringsAt {j : Json} {key : Bytes} (h : s ∈ stringsAt j key) :
    NulFree s := by
  obtain ⟨v, -, hv⟩ := mem_filterMap.1 h
  exact nulFree_of_string? hv

theorem nulFree_appendLine {out text : Bytes} (ho : NulFree out) (ht : NulFree text) :
    NulFree (appendLine out text) := by
  unfold appendLine
  split
  · exact ho.append ht
  · exact (ho.append (by decide)).append ht

theorem nulFree_joinLines {out : Bytes} {texts : List Bytes} (ho : NulFree out)
    (ht : ∀ t ∈ texts, NulFree t) : NulFree (joinLines out texts) := by
  induction texts generalizing out with
  | nil => exact ho
  | cons t ts ih =>
    exact ih (nulFree_appendLine ho (ht t mem_cons_self))
      fun x hx => ht x (mem_cons_of_mem t hx)

theorem nulFree_flatMap {α : Type} {f : α → Bytes} {xs : List α} (h : ∀ x, NulFree (f x)) :
    NulFree (xs.flatMap f) := fun hm => by
  obtain ⟨x, -, hx⟩ := mem_flatMap.1 hm
  exact h x hx

theorem nulFree_resultText (block : Json) : NulFree (resultText block) := by
  unfold resultText
  split
  · exact nulFree_cstr _
  · refine nulFree_flatMap fun sub => ?_
    unfold resultPartText
    split
    · exact nulFree_stringAt _ _
    · exact nulFree_nil
  · exact nulFree_nil

theorem int?_bounds {o : Option Json} {n d : Int} (hd : -2 ^ 31 ≤ d ∧ d < 2 ^ 31)
    (h : (o.bind int?).getD d = n) : -2 ^ 31 ≤ n ∧ n < 2 ^ 31 := by
  subst h
  cases hi : o.bind int? with
  | none => exact hd
  | some n =>
    obtain ⟨v, -, hv⟩ := bind_eq_some_iff.1 hi
    unfold int? at hv
    split at hv
    · rename_i hin
      cases v with
      | int m => cases hv; simpa [isInt, getInteger] using hin
      | _ => cases hin
    · cases hv

variable {b : ContentBlock}

theorem canonical_of_blockOf {part : Json} (h : blockOf rj part = some b) : b.Canonical rj := by
  unfold blockOf at h
  split at h
  · cases h; exact .text _ (nulFree_stringAt _ _)
  split at h
  · cases h
    exact .toolUse _ _ _ (nulFree_stringAt _ _) (nulFree_stringAt _ _) (objectTextAt_objectText ..)
  split at h
  · cases h; exact .toolResult _ [] _ (nulFree_stringAt _ _) nulFree_nil (nulFree_resultText _)
  · cases h

theorem canonical_of_mem_blocksOf {content : Json} (h : b ∈ blocksOf rj content) :
    b.Canonical rj := by
  unfold blocksOf at h
  split at h
  · rw [mem_singleton] at h; subst h; exact .text _ (nulFree_cstr _)
  · obtain ⟨part, -, hp⟩ := mem_filterMap.1 h; exact canonical_of_blockOf rj hp
  · cases h

theorem canonical_toolDefOf (fn : Json) (schema : Bytes) :
    (toolDefOf rj fn schema).Canonical rj where
  name := nulFree_stringAt _ _
  description := nulFree_stringAt _ _
  parametersJson := objectTextAt_objectText ..

theorem canonical_of_mem_tools {p : Prop} [Decidable p] {fn : Json} {schema : Bytes}
    {t : ToolDef} (h : t ∈ if p then [toolDefOf rj fn schema] else []) : t.Canonical rj := by
  split at h
  · rw [mem_singleton.1 h]; exact canonical_toolDefOf ..
  · cases h

theorem Message.canonical_ofBlocks {rj : RapidJson} (hrj : Lawful rj) {role : Bytes}
    {blocks : List ContentBlock} (hr : NulFree role) (hblocks : ∀ b ∈ blocks, b.Canonical rj) :
    (ofBlocks role blocks).Canonical rj := by
  rw [ofBlocks_eq]
  refine ⟨hr, hblocks, fun tc htc => ?_, ?_⟩
  · obtain ⟨b, hb, hc⟩ := mem_filterMap.1 htc
    cases hblocks b hb with
    | toolUse id name arguments hid hn ha => cases hc; exact ⟨hid, hn, ha.nulFree hrj⟩
    | _ => cases hc
  · rw [getLastD_eq_getLast?]
    cases hl : (blocks.filterMap ContentBlock.answers?).getLast? with
    | none => exact nulFree_nil
    | some id =>
      obtain ⟨b, hb, hid⟩ := mem_filterMap.1 (mem_of_getLast? hl)
      cases hblocks b hb with
      | toolResult id' name t hid' hn ht => cases hid; exact hid'
      | _ => cases hid

structure Entry.Canonical (rj : RapidJson) (e : Entry) : Prop where
  system : ∀ s ∈ e.system, NulFree s
  messages : ∀ msg ∈ e.messages, msg.Canonical rj

theorem Entry.Canonical.empty : ({} : Entry).Canonical rj :=
  ⟨by simp, by simp⟩

theorem ChatRequest.Canonical.addAll {rj : RapidJson} {req : ChatRequest} {es : List Entry}
    {tools : List ToolDef} (hr : req.Canonical rj) (hes : ∀ e ∈ es, e.Canonical rj)
    (ht : ∀ t ∈ tools, t.Canonical rj) : { req.addAll es with tools }.Canonical rj where
  model := hr.model
  system := nulFree_joinLines hr.system fun s hs => by
    obtain ⟨e, he, hse⟩ := mem_filterMap.1 hs
    exact (hes e he).system s hse
  messages msg hms := by
    rcases mem_append.1 hms with h | h
    · exact hr.messages msg h
    · obtain ⟨e, he, hm⟩ := mem_flatMap.1 h; exact (hes e he).messages msg hm
  tools := ht
  maxTokens := hr.maxTokens
  stop := hr.stop
  metadataUserId := hr.metadataUserId

section

variable {rj : RapidJson} (hrj : Lawful rj) (doc : Json)

include hrj

theorem Anthropic.canonical_entryOf (m : Json) : (entryOf rj m).Canonical rj := by
  unfold entryOf
  split
  · refine ⟨by simp, fun msg hm => ?_⟩
    rw [mem_singleton.1 hm]
    exact Message.canonical_ofBlocks hrj (nulFree_stringAt _ _) fun b =>
      canonical_of_mem_blocksOf rj
  · exact .empty rj

theorem Anthropic.requestOf_canonical : (requestOf rj doc).Canonical rj := by
  refine ChatRequest.Canonical.addAll ⟨nulFree_stringAt _ _, ?_, by simp, by simp,
    int?_bounds (by decide) rfl, fun s => nulFree_of_mem_stringsAt, nulFree_stringAt _ _⟩ ?_ ?_
  · change NulFree (systemOf doc)
    unfold systemOf
    split
    · exact nulFree_cstr _
    · refine nulFree_joinLines nulFree_nil fun s hs => ?_
      obtain ⟨p, -, hp⟩ := mem_filterMap.1 hs
      exact nulFree_of_textOf hp
    · exact nulFree_nil
  · simpa using fun m _ => canonical_entryOf hrj m
  · simp only [mem_flatMap, toolOf]; rintro t ⟨x, -, ht⟩; exact canonical_of_mem_tools rj ht

omit hrj in
theorem OpenAI.nulFree_systemLine (content : Json) : NulFree (systemLine content) := by
  unfold systemLine
  split
  · exact nulFree_cstr _
  · refine nulFree_flatMap fun p => ?_
    cases hp : textOf p with
    | none => exact nulFree_nil
    | some s => exact nulFree_of_textOf hp
  · exact nulFree_nil

omit hrj in
theorem OpenAI.canonical_entryOf (m : Json) : (entryOf rj m).Canonical rj := by
  unfold entryOf
  split
  · exact .empty rj
  split
  · refine ⟨fun s hs => ?_, by simp⟩
    obtain ⟨content, -, rfl⟩ := map_eq_some_iff.1 hs
    exact nulFree_systemLine content
  · refine ⟨by simp, fun msg hm => ?_⟩
    rw [mem_singleton.1 hm]
    refine ⟨nulFree_stringAt _ _, fun b => canonical_of_mem_blocksOf rj, fun tc htc => ?_,
      nulFree_stringAt _ _⟩
    obtain ⟨c, -, hc⟩ := mem_flatMap.1 htc
    unfold callOf at hc
    split at hc
    · rw [mem_singleton.1 hc]
      exact ⟨nulFree_stringAt _ _, nulFree_stringAt _ _, nulFree_stringAt _ _⟩
    · cases hc

omit hrj in
theorem OpenAI.requestOf_canonical : (requestOf rj doc).Canonical rj := by
  refine ChatRequest.Canonical.addAll ⟨nulFree_stringAt _ _, nulFree_nil, by simp, by simp,
    int?_bounds (int?_bounds (by decide) rfl) rfl, ?_, nulFree_stringAt _ _⟩ ?_ ?_
  · change ∀ s ∈ stopOf doc, NulFree s
    unfold stopOf
    split
    · simpa using nulFree_cstr _
    · intro s hs; obtain ⟨v, -, hv⟩ := mem_filterMap.1 hs; exact nulFree_of_string? hv
    · simp
  · simpa using fun m _ => canonical_entryOf m
  · simp only [mem_flatMap, toolOf]; rintro t ⟨x, -, ht⟩; exact canonical_of_mem_tools rj ht

theorem Gemini.canonical_of_partOf {p : Json} (h : partOf rj p = some b) : b.Canonical rj := by
  unfold partOf at h
  split at h
  · rename_i text ht
    cases h; exact .text _ (nulFree_of_textOf ht)
  split at h
  · cases h; exact .toolUse [] _ _ nulFree_nil (nulFree_stringAt _ _) (objectTextAt_objectText ..)
  split at h
  · cases h
    exact .toolResult _ _ _ (nulFree_stringAt _ _) (nulFree_stringAt _ _)
      ((objectTextAt_objectText ..).nulFree hrj)
  · cases h

omit hrj in
theorem Gemini.canonical_number {bs : List ContentBlock} (h : ∀ b ∈ bs, b.Canonical rj) (k : Nat) :
    ∀ b ∈ number k bs, b.Canonical rj := by
  induction bs generalizing k with
  | nil => simp [number]
  | cons b bs ih =>
    rw [forall_mem_cons] at h
    refine forall_mem_cons.2 ⟨?_, ih h.2 _⟩
    cases h.1 with
    | toolUse id name arguments hid hn ha =>
      exact .toolUse _ _ _ ((hn.append (by decide)).append (nulFree_decimal _)) hn ha
    | text t ht => exact .text t ht
    | toolResult id name t hid hn ht => exact .toolResult id name t hid hn ht

theorem Gemini.canonical_entryOf (c : Json) : (entryOf rj c).Canonical rj := by
  unfold entryOf
  split
  · refine ⟨by simp, fun msg hm => ?_⟩
    rw [mem_singleton.1 hm]
    refine Message.canonical_ofBlocks hrj ?_ (canonical_number (fun b hb => ?_) 0)
    · split
      · decide
      · exact nulFree_stringAt _ _
    · obtain ⟨p, -, hp⟩ := mem_filterMap.1 hb; exact canonical_of_partOf hrj hp
  · exact .empty rj

theorem Gemini.requestOf_canonical : (requestOf rj doc).Canonical rj := by
  refine ChatRequest.Canonical.addAll ⟨nulFree_stringAt _ _, ?_, by simp [withGenerationConfig],
    by simp [withGenerationConfig], int?_bounds ⟨by simp, by simp⟩ rfl,
    fun s => nulFree_of_mem_stringsAt, nulFree_nil⟩ ?_ ?_
  · refine nulFree_joinLines nulFree_nil fun s hs => ?_
    obtain ⟨p, -, hp⟩ := mem_filterMap.1 hs
    exact nulFree_of_textOf hp
  · simpa using fun c _ => canonical_entryOf hrj c
  · simp only [mem_flatMap, toolOf, declarationOf]
    rintro t ⟨x, -, fd, -, ht⟩; exact canonical_of_mem_tools rj ht

omit hrj in
theorem OpenAIResponses.canonical_messageEntry (item : Json) :
    (messageEntry item).Canonical rj := by
  unfold messageEntry
  split
  · refine ⟨fun s hs => ?_, by simp⟩
    obtain ⟨v, -, hv⟩ := bind_eq_some_iff.1 hs
    exact nulFree_of_string? hv
  · refine ⟨by simp, fun msg hm => ?_⟩
    rw [mem_singleton.1 hm]
    refine ⟨?_, fun b hb => ?_, by simp, nulFree_nil⟩
    · change NulFree (roleOf item)
      unfold roleOf
      split
      · decide
      · exact nulFree_stringAt _ _
    · change b ∈ blocksOf _ at hb
      unfold blocksOf at hb
      split at hb
      · rw [mem_singleton.1 hb]; exact .text _ (nulFree_cstr _)
      · obtain ⟨p, -, hp⟩ := mem_filterMap.1 hb
        unfold textPartOf at hp
        split at hp
        · cases hp; exact .text _ (nulFree_stringAt _ _)
        · cases hp
      · cases hb

omit hrj in
theorem OpenAIResponses.canonical_entryOf (item : Json) : (entryOf item).Canonical rj := by
  unfold entryOf
  split
  · exact .empty rj
  split
  · exact canonical_messageEntry item
  split
  · refine ⟨by simp, fun msg hm => ?_⟩
    rw [mem_singleton.1 hm]
    refine ⟨(by decide : NulFree (ascii "assistant")), by simp, fun tc htc => ?_, nulFree_nil⟩
    rw [mem_singleton.1 htc]
    exact ⟨nulFree_stringAt _ _, nulFree_stringAt _ _, nulFree_stringAt _ _⟩
  split
  · refine ⟨by simp, fun msg hm => ?_⟩
    rw [mem_singleton.1 hm]
    refine ⟨(by decide : NulFree (ascii "tool")), fun b hb => ?_, by simp, nulFree_stringAt _ _⟩
    rw [mem_singleton.1 hb]; exact .text _ (nulFree_stringAt _ _)
  · exact .empty rj

omit hrj in
theorem OpenAIResponses.requestOf_canonical : (requestOf rj doc).Canonical rj := by
  refine ChatRequest.Canonical.addAll ⟨nulFree_stringAt _ _, nulFree_stringAt _ _, by simp, by simp,
    int?_bounds (int?_bounds (by decide) rfl) rfl, by simp, nulFree_stringAt _ _⟩ ?_ ?_
  · unfold inputEntries
    split
    · intro e he
      rw [mem_singleton.1 he]
      refine ⟨by simp, fun msg hm => ?_⟩
      rw [mem_singleton.1 hm]
      refine ⟨(by decide : NulFree (ascii "user")), fun b hb => ?_, by simp, nulFree_nil⟩
      rw [mem_singleton.1 hb]; exact .text _ (nulFree_cstr _)
    · simpa using fun item _ => canonical_entryOf item
    · simp
  · simp only [mem_flatMap, toolOf]; rintro t ⟨x, -, ht⟩; exact canonical_of_mem_tools rj ht

end

def requestOf (rj : RapidJson) : Format → Json → ChatRequest
  | .anthropic => Anthropic.requestOf rj
  | .openAIChatCompletions => OpenAI.requestOf rj
  | .openAIResponses => OpenAIResponses.requestOf rj
  | .gemini => Gemini.requestOf rj

theorem requestOf_canonical {rj : RapidJson} (hrj : Lawful rj) (source : Format) (doc : Json) :
    (requestOf rj source doc).Canonical rj := by
  cases source with
  | anthropic => exact Anthropic.requestOf_canonical hrj doc
  | openAIChatCompletions => exact OpenAI.requestOf_canonical doc
  | openAIResponses => exact OpenAIResponses.requestOf_canonical doc
  | gemini => exact Gemini.requestOf_canonical hrj doc

theorem Converter.parseRequest_eq {rj : RapidJson} {source : Format} {body : Bytes} {doc : Json}
    (hp : rj.parse body = some doc) (ho : doc.isObject) (hok : requestOk source doc) :
    parseRequest rj source body = .ok (requestOf rj source doc) := by
  have hd : (rj.parse body).bind object? = some doc := by simp [hp, object?, ho]
  cases source with
  | anthropic =>
    simpa [parseRequest, Anthropic.parseRequest, hd, requestOf] using
      Anthropic.readRequest_eq rj ho hok
  | openAIChatCompletions =>
    simpa [parseRequest, OpenAI.parseRequest, hd, requestOf] using
      OpenAI.readRequest_eq rj ho hok
  | openAIResponses =>
    simpa [parseRequest, OpenAIResponses.parseRequest, hd, requestOf] using
      OpenAIResponses.readRequest_eq rj ho
  | gemini =>
    simpa [parseRequest, Gemini.parseRequest, hd, requestOf] using Gemini.readRequest_eq rj ho

end Gateway.Protocol
