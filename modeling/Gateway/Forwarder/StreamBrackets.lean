import Gateway.Forwarder.StreamEnd

/-! # The brackets of an Anthropic stream -/

namespace Gateway.Forwarder

open Lib JsonText Protocol List
open Protocol (Format StreamDelta StreamLawful)

def blocks : List Int → List StreamDelta → Bool
  | _, [] => false
  | opened, d :: ds =>
    match d.type with
    | .contentStart => !opened.contains d.index && blocks (d.index :: opened) ds
    | .textDelta | .toolCallDelta => opened.contains d.index && blocks opened ds
    | .contentEnd => opened.contains d.index && blocks (opened.erase d.index) ds
    | .messageEnd => opened.isEmpty && ds.map (·.type) == [.done]
    | .messageStart | .done => false

def wellBracketed : List StreamDelta → Bool
  | [] => false
  | d :: ds => d.type == .messageStart && blocks [] ds

variable {ds : List StreamDelta}

theorem blocks_of_no_start (h : ∀ d ∈ ds, d.type ≠ .contentStart) :
    blocks [] ds ↔ ds.map (·.type) = [.messageEnd, .done] := by
  cases ds with
  | nil => simp [blocks]
  | cons d ds =>
    have hd := h d mem_cons_self
    rw [blocks, map_cons]
    cases ht : d.type <;> simp_all

theorem blocks_of_no_end (h : ∀ d ∈ ds, d.type ≠ .messageEnd) (opened : List Int) :
    blocks opened ds = false := by
  induction ds generalizing opened with
  | nil => rfl
  | cons d ds ih =>
    rw [forall_mem_cons] at h
    have hr := ih h.2
    rw [blocks]
    cases ht : d.type with
    | messageEnd => exact absurd ht h.1
    | messageStart => rfl
    | done => rfl
    | _ => simp [hr]

theorem type_anthropic_rereadDelta (rj : RapidJson) (d : StreamDelta) :
    (rereadDelta rj .anthropic d).type = d.type := by
  unfold rereadDelta Anthropic.rereadDelta
  cases d.type <;> rfl

def emptyAnswer (rj : RapidJson) (source : Format) : List Bytes → Bool
  | [first, finish, done] =>
    source == .openAIChatCompletions &&
      (documentAt rj first).any (fun doc => OpenAI.opensMessage (OpenAI.firstDelta doc)) &&
      (documentAt rj finish).any (bareDocument .openAIChatCompletions) &&
      dataPayload done == "[DONE]"
  | _ => false

theorem emptyAnswer_of_ne {rj : RapidJson} {source : Format} (h : source ≠ .openAIChatCompletions)
    (events : List Bytes) : emptyAnswer rj source events = false := by
  unfold emptyAnswer
  split
  · rw [beq_false_of_ne h]; rfl
  · rfl

theorem emptyAnswer_of_four (rj : RapidJson) (source : Format) (a b c d : Bytes)
    (events : List Bytes) : emptyAnswer rj source (a :: b :: c :: d :: events) = false := rfl

section

variable {rj : RapidJson} (hrj : StreamLawful rj) {event : Bytes}

include hrj in
theorem type_eq_messageStart_iff_opens :
    (deltaRead rj .openAIChatCompletions event).type = .messageStart ↔
      (documentAt rj event).any (fun doc => OpenAI.opensMessage (OpenAI.firstDelta doc)) := by
  rw [type_deltaRead_iff hrj (by decide), Option.any_eq_true]
  constructor
  · rintro (⟨-, hk⟩ | ⟨doc, hd, -, ht⟩)
    · cases hk
    · exact ⟨doc, hd, OpenAI.type_eq_messageStart_iff.1 ht⟩
  · rintro ⟨doc, hd, ho⟩
    exact Or.inr ⟨doc, hd, OpenAI.chunkOk_of_firstDelta (Or.inl ho),
      OpenAI.type_eq_messageStart_iff.2 ho⟩

include hrj in
theorem openAI_type_ne_contentStart :
    (deltaRead rj .openAIChatCompletions event).type ≠ .contentStart := by
  rw [ne_eq, type_deltaRead_iff hrj (by decide)]
  rintro (⟨-, hk⟩ | ⟨doc, -, -, ht⟩)
  · cases hk
  · exact (OpenAI.type_deltaOf_ne doc).2.1 ht

include hrj in
theorem gemini_type_ne_messageStart : (deltaRead rj .gemini event).type ≠ .messageStart := by
  rw [ne_eq, type_deltaRead_iff hrj (by decide)]
  rintro (⟨-, hk⟩ | ⟨doc, -, -, ht⟩)
  · cases hk
  · exact (Gemini.type_deltaOf_ne rj doc).2 ht

theorem type_clientDelta (rj : RapidJson) (source : Format) (event : Bytes) :
    (clientDelta rj source .anthropic event).type = (deltaRead rj source event).type :=
  type_anthropic_rereadDelta rj _

include hrj in
theorem wellBracketed_openAI_iff (events : List Bytes) :
    wellBracketed (events.map (clientDelta rj .openAIChatCompletions .anthropic)) ↔
      emptyAnswer rj .openAIChatCompletions events := by
  have hs : Format.openAIChatCompletions = .openAIChatCompletions ∨
    Format.openAIChatCompletions = .gemini := Or.inl rfl
  cases events with
  | nil => simp [wellBracketed, emptyAnswer]
  | cons first events =>
    have hst : ∀ d ∈ events.map (clientDelta rj .openAIChatCompletions .anthropic),
        d.type ≠ .contentStart := by
      intro d hd
      obtain ⟨event, -, rfl⟩ := mem_map.1 hd
      rw [type_clientDelta]; exact openAI_type_ne_contentStart hrj
    rw [map_cons, wellBracketed, Bool.and_eq_true, blocks_of_no_start hst, beq_iff_eq,
      type_clientDelta, type_eq_messageStart_iff_opens hrj, map_map]
    match events with
    | [] => simp [emptyAnswer]
    | [finish] => simp [emptyAnswer]
    | [finish, done] =>
      simp only [map_cons, map_nil, Function.comp_apply, type_clientDelta, List.cons.injEq,
        and_true, type_eq_messageEnd_iff_bare hrj hs, type_eq_done_iff hrj hs, emptyAnswer,
        Bool.and_eq_true, beq_iff_eq, true_and, and_assoc]
    | finish :: done :: event :: events => simp [emptyAnswer_of_four]

end

theorem StreamPipe.well_bracketed_iff {p : StreamPipe} {env : Surroundings} {chunks : List Bytes}
    (h : Converts p env chunks.flatten) (hne : ∀ chunk ∈ chunks, chunk ≠ [])
    (htarget : p.target = .anthropic) :
    wellBracketed (deltas p.rj .anthropic (clientBytes (p.run env (chunks.map .bytes)).log)) =
        true ↔ emptyAnswer p.rj p.source (dataEvents chunks.flatten) = true := by
  have hrun := deltas_run h hne
  have hformats := h.formats
  rw [htarget] at hrun hformats
  rw [hrun, deltas, map_map]
  change wellBracketed ((dataEvents chunks.flatten).map (clientDelta p.rj p.source .anthropic)) =
    true ↔ _
  generalize dataEvents chunks.flatten = events
  cases hsource : p.source with
  | openAIChatCompletions => exact wellBracketed_openAI_iff h.lawful events
  | anthropic => exact absurd hsource hformats
  | openAIResponses =>
    rw [emptyAnswer_of_ne (by decide), Bool.false_eq_true, iff_false, Bool.not_eq_true]
    cases events with
    | nil => rfl
    | cons first events =>
      rw [map_cons, wellBracketed, blocks_of_no_end, Bool.and_false]
      intro d hd
      obtain ⟨event, -, rfl⟩ := mem_map.1 hd
      rw [type_clientDelta]; exact responses_type_ne_messageEnd h.lawful
  | gemini =>
    rw [emptyAnswer_of_ne (by decide), Bool.false_eq_true, iff_false, Bool.not_eq_true]
    cases events with
    | nil => rfl
    | cons first events =>
      rw [map_cons, wellBracketed, type_clientDelta,
        beq_false_of_ne (gemini_type_ne_messageStart h.lawful), Bool.false_and]

def doneStream (docs : List Json) : Bytes :=
  streamOf (docs.map (fun doc => ([], compact.write doc)) ++ [([], ascii "[DONE]")])

def doneEvent : Bytes := eventOf (eventLines ([], ascii "[DONE]"))

theorem dataEvents_doneStream (docs : List Json) : dataEvents (doneStream docs) =
    docs.map (fun doc => sentEvent ([], doc)) ++ [doneEvent] := by
  rw [doneStream, dataEvents_streamOf, map_append, map_map]
  · rfl
  · intro e he
    rcases mem_append.1 he with hd | hdo
    · obtain ⟨doc, -, rfl⟩ := mem_map.1 hd
      exact ⟨sendable_nil, sendable_write streamLawful_compact doc,
        lawful_compact.write_ne_nil doc⟩
    · rw [mem_singleton.1 hdo]; exact ⟨sendable_nil, sendable_done, by decide⟩

theorem dataPayload_doneEvent : dataPayload doneEvent = "[DONE]" :=
  dataPayload_eventLines sendable_nil sendable_done

theorem documentAt_sentEvent {doc : Json} (h : doc.isObject) :
    documentAt compact (sentEvent ([], doc)) = some doc :=
  (documentAt_event sendable_nil h).2

theorem doneStream_ne_nil (docs : List Json) : doneStream docs ≠ [] := by
  simp [doneStream, streamOf, eventOf]

def openingChunk : Json := chatChunk [("role", .str "assistant"), ("content", .str [])]

def finishChunk : Json := .object [("choices", .array [.object [
  ("index", .int 0), ("delta", .object []), ("finish_reason", .str "stop")]])]

theorem isObject_openingChunk : openingChunk.isObject := rfl

theorem isObject_finishChunk : finishChunk.isObject := rfl

theorem opensMessage_openingChunk : OpenAI.opensMessage (OpenAI.firstDelta openingChunk) := rfl

theorem bareDocument_finishChunk : bareDocument .openAIChatCompletions finishChunk := rfl

theorem finishesDocument_finishChunk : finishesDocument .openAIChatCompletions finishChunk := rfl

theorem StreamPipe.silence_well_bracketed : wellBracketed (deltas compact .anthropic
      (clientBytes ((pipeBetween .openAIChatCompletions .anthropic).run StreamPipe.patientClient
        ([doneStream [openingChunk, finishChunk]].map .bytes)).log)) = true := by
  have hconverts : Converts (pipeBetween .openAIChatCompletions .anthropic)
      StreamPipe.patientClient [doneStream [openingChunk, finishChunk]].flatten :=
    converts_pipeBetween (by decide) _
  have hevents : dataEvents (doneStream [openingChunk, finishChunk]) =
      [sentEvent ([], openingChunk), sentEvent ([], finishChunk), doneEvent] := by
    rw [dataEvents_doneStream, map_cons, map_singleton, cons_append, singleton_append]
  have hempty : emptyAnswer compact .openAIChatCompletions
      (dataEvents [doneStream [openingChunk, finishChunk]].flatten) := by
    rw [flatten_singleton, hevents, emptyAnswer, documentAt_sentEvent isObject_openingChunk,
      documentAt_sentEvent isObject_finishChunk, dataPayload_doneEvent, Option.any_some,
      Option.any_some, opensMessage_openingChunk, bareDocument_finishChunk]
    rfl
  exact (well_bracketed_iff hconverts (by simp [doneStream_ne_nil]) rfl).2 hempty

theorem StreamPipe.word_outside_block : wellBracketed (deltas compact .anthropic
        (clientBytes ((pipeBetween .openAIChatCompletions .anthropic).run StreamPipe.patientClient
          ([doneStream [openingChunk, chatChunk laterWords, finishChunk]].map .bytes)).log)) =
        false ∧ dataEvents (doneStream [openingChunk, chatChunk laterWords, finishChunk]) =
        [sentEvent ([], openingChunk), sentEvent ([], chatChunk laterWords)] ++
          [sentEvent ([], finishChunk), doneEvent] ∧ TerminalSequence compact .openAIChatCompletions
        [sentEvent ([], finishChunk), doneEvent] := by
  have hevents : dataEvents (doneStream [openingChunk, chatChunk laterWords, finishChunk]) =
      [sentEvent ([], openingChunk), sentEvent ([], chatChunk laterWords)] ++
        [sentEvent ([], finishChunk), doneEvent] := by
    simp only [dataEvents_doneStream, map_cons, map_nil, cons_append, nil_append]
  refine ⟨?_, hevents, ?_⟩
  · rw [deltas_pipeBetween (by decide) (doneStream_ne_nil _), hevents, ← Bool.not_eq_true,
      wellBracketed_openAI_iff streamLawful_compact, cons_append, cons_append,
      nil_append, emptyAnswer_of_four]
    exact Bool.false_ne_true
  · exact .openAI (documentAt_sentEvent isObject_finishChunk) finishesDocument_finishChunk
      (isDone_of_payload dataPayload_doneEvent)

end Gateway.Forwarder
