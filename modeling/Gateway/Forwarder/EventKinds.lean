import Gateway.Forwarder.StreamTools

/-! # The kinds of the events -/

namespace Gateway.Forwarder

open Lib Json Protocol List Option
open Protocol (Format StreamDelta StreamLawful stringAt valueAt entriesAt textOf)

theorem type_deltaRead_iff {rj : RapidJson} (hrj : StreamLawful rj) {source : Format}
    {event : Bytes} {k : StreamDelta.Kind} (hk : k ≠ .textDelta) :
    (deltaRead rj source event).type = k ↔ (isDonePayload source (dataPayload event) ∧ k = .done) ∨
        ∃ doc, documentAt rj event = some doc ∧ chunkOk source doc ∧
          (deltaOf rj source (eventType event) doc).type = k := by
  have hde : ({} : StreamDelta).type ≠ k := Ne.symm hk
  cases hdo : isDonePayload source (dataPayload event) with
  | true =>
    have hr : deltaRead rj source event = { type := .done } := by
      rw [deltaRead_eq, streamDelta, hdo]; rfl
    have hd : documentAt rj event = none := by
      have hp := eq_of_beq (Bool.and_eq_true_iff.1 hdo).1
      rw [documentAt, hp, hrj.parse_done]; rfl
    rw [hr, hd]
    constructor
    · intro ht; exact Or.inl ⟨rfl, ht.symm⟩
    · rintro (⟨-, rfl⟩ | ⟨doc, hn, -⟩)
      · rfl
      · cases hn
  | false =>
    cases hd : documentAt rj event with
    | none => simpa [deltaRead_of_no_document hdo hd] using hde
    | some doc =>
      cases hok : chunkOk source doc with
      | true => simp [deltaRead_of_document hdo hd hok, hok]
      | false =>
        have hr : deltaRead rj source event = {} := by
          unfold documentAt at hd
          simp [deltaRead_eq, streamDelta, hdo, readableDocument, hd, filter_some, hok]
        simpa [hr, hok] using hde

variable {doc : Json}

namespace OpenAI

def firstChoice (doc : Json) : Json := (entriesAt doc "choices").headD .null

def firstDelta (doc : Json) : Json := valueAt (firstChoice doc) "delta"

theorem deltaOf_eq_choiceDeltaOf (doc : Json) : OpenAI.deltaOf doc =
    OpenAI.choiceDeltaOf { model := stringAt doc "model", id := stringAt doc "id" }
      (firstChoice doc) := by
  unfold OpenAI.deltaOf firstChoice
  cases entriesAt doc "choices" <;> rfl

def hasContent (d : Json) : Bool := ((d.lookup "content").bind string?).isSome

def bareDelta (d : Json) : Bool :=
  d.isObject && !Protocol.OpenAI.opensMessage d && !hasContent d &&
    (entriesAt d "tool_calls").isEmpty

def finishes (doc : Json) : Bool := !(stringAt (firstChoice doc) "finish_reason").isEmpty

theorem isObject_of_opensMessage {d : Json} (h : OpenAI.opensMessage d) : d.isObject := by
  by_contra hno
  rw [Bool.not_eq_true] at hno
  rw [OpenAI.opensMessage, lookup_of_not_object hno] at h
  cases h

theorem type_deltaOf (doc : Json) : (OpenAI.deltaOf doc).type =
    if OpenAI.opensMessage (firstDelta doc) then .messageStart
    else if hasContent (firstDelta doc) then .textDelta
    else if !(entriesAt (firstDelta doc) "tool_calls").isEmpty then .toolCallDelta
    else if (firstDelta doc).isObject && finishes doc then .messageEnd else .textDelta := by
  rw [deltaOf_eq_choiceDeltaOf]
  unfold OpenAI.choiceDeltaOf firstDelta finishes hasContent
  simp only
  generalize valueAt (firstChoice doc) "delta" = d
  cases hd : d.isObject with
  | false =>
    have ho : OpenAI.opensMessage d = false := by
      by_contra hy
      rw [Bool.not_eq_false] at hy
      rw [isObject_of_opensMessage hy] at hd; cases hd
    rw [ho, entriesAt_of_not_object hd, lookup_of_not_object hd]; rfl
  | true =>
    cases OpenAI.opensMessage d with
    | true => rfl
    | false =>
      cases (d.lookup "content").bind string? with
      | some text => rfl
      | none =>
        cases entriesAt d "tool_calls" with
        | cons tc tcs => rfl
        | nil => cases stringAt (firstChoice doc) "finish_reason" <;> rfl

theorem type_eq_messageStart_iff : (OpenAI.deltaOf doc).type = .messageStart ↔
    OpenAI.opensMessage (firstDelta doc) := by
  rw [type_deltaOf]
  repeat' split
  all_goals simp_all

theorem type_eq_messageEnd_iff : (OpenAI.deltaOf doc).type = .messageEnd ↔
    (finishes doc && bareDelta (firstDelta doc)) := by
  rw [type_deltaOf]
  unfold bareDelta
  cases OpenAI.opensMessage (firstDelta doc) with
  | true => simp
  | false =>
    cases hasContent (firstDelta doc) with
    | true => simp
    | false =>
      cases entriesAt (firstDelta doc) "tool_calls" with
      | cons tc tcs => simp
      | nil => cases (firstDelta doc).isObject <;> cases finishes doc <;> simp

theorem type_deltaOf_ne (doc : Json) : (OpenAI.deltaOf doc).type ≠ .done ∧
    (OpenAI.deltaOf doc).type ≠ .contentStart ∧ (OpenAI.deltaOf doc).type ≠ .contentEnd := by
  rw [type_deltaOf]
  repeat' split
  all_goals simp

theorem chunkOk_of_firstDelta
    (h : OpenAI.opensMessage (firstDelta doc) ∨ bareDelta (firstDelta doc)) :
    chunkOk .openAIChatCompletions doc := by
  have ho : (firstDelta doc).isObject := by
    rcases h with h | h
    · exact isObject_of_opensMessage h
    · simp only [bareDelta, Bool.and_eq_true] at h; exact h.1.1.1
  have hc : toolCallOk (firstDelta doc) := by
    unfold toolCallOk
    rcases h with h | h
    · rw [OpenAI.opensMessage] at h; simp [h]
    · simp only [bareDelta, Bool.and_eq_true, List.isEmpty_iff] at h; simp [h.2]
  unfold chunkOk
  unfold firstDelta firstChoice at ho hc
  cases hch : entriesAt doc "choices" with
  | nil => rfl
  | cons choice choices =>
    rw [hch, headD_cons] at ho hc
    have hcho : choice.isObject := by
      by_contra hno
      rw [Bool.not_eq_true] at hno
      rw [valueAt, lookup_of_not_object hno] at ho; cases ho
    simp only [head?_cons, all_some, choiceOk, hcho, Bool.true_and, object_of_valueAt ho]
    exact hc

end OpenAI

namespace Gemini

variable (rj : RapidJson)

def firstCandidate (doc : Json) : Json := (entriesAt doc "candidates").headD .null

theorem deltaOf_eq_candidateDeltaOf (doc : Json) : Gemini.deltaOf rj doc =
      Gemini.candidateDeltaOf rj (firstCandidate doc) := by
  unfold Gemini.deltaOf firstCandidate
  cases entriesAt doc "candidates" <;> rfl

def barePart (p : Json) : Bool :=
  match textOf p with
  | some text => text.isEmpty
  | none => !(valueAt p "functionCall").isObject

def bareCandidate (cand : Json) : Bool := (Gemini.candidateParts cand).all barePart

def finishes (doc : Json) : Bool :=
  (((firstCandidate doc).lookup "finishReason").bind string?).isSome

theorem partDeltaOf_eq_none_iff (delta : StreamDelta) (p : Json) :
    Gemini.partDeltaOf rj delta p = none ↔ barePart p := by
  unfold Gemini.partDeltaOf barePart
  cases textOf p with
  | some text => cases text <;> simp
  | none => cases (valueAt p "functionCall").isObject <;> simp

theorem type_of_partDeltaOf {rj : RapidJson} {delta d : StreamDelta} {p : Json}
    (h : Gemini.partDeltaOf rj delta p = some d) :
    d.type = .textDelta ∨ d.type = .toolCallDelta := by
  unfold Gemini.partDeltaOf at h
  repeat' split at h
  all_goals cases h
  · exact Or.inl rfl
  · exact Or.inr rfl

theorem type_deltaOf_cases (doc : Json) :
    (bareCandidate (firstCandidate doc) ∧ (Gemini.deltaOf rj doc).type =
        if finishes doc then .messageEnd else .textDelta) ∨
      (bareCandidate (firstCandidate doc) = false ∧ ((Gemini.deltaOf rj doc).type = .textDelta ∨
          (Gemini.deltaOf rj doc).type = .toolCallDelta)) := by
  rw [deltaOf_eq_candidateDeltaOf, Gemini.candidateDeltaOf]
  cases hf : (Gemini.candidateParts (firstCandidate doc)).findSome?
      (Gemini.partDeltaOf rj (Gemini.finishOf (firstCandidate doc))) with
  | none =>
    rw [findSome?_eq_none_iff] at hf
    refine Or.inl ⟨?_, ?_⟩
    · rw [bareCandidate, List.all_eq_true]
      exact fun p hp => (partDeltaOf_eq_none_iff rj _ p).1 (hf p hp)
    · rw [getD_none, Gemini.finishOf, finishes]
      cases ((firstCandidate doc).lookup "finishReason").bind string? <;> rfl
  | some d =>
    obtain ⟨p, hp, hd⟩ := exists_of_findSome?_eq_some hf
    refine Or.inr ⟨?_, type_of_partDeltaOf hd⟩
    by_contra hba
    rw [Bool.not_eq_false, bareCandidate, List.all_eq_true] at hba
    rw [(partDeltaOf_eq_none_iff rj _ p).2 (hba p hp)] at hd; cases hd

theorem type_eq_messageEnd_iff : (Gemini.deltaOf rj doc).type = .messageEnd ↔
      (finishes doc && bareCandidate (firstCandidate doc)) := by
  rcases type_deltaOf_cases rj doc with ⟨hba, ht⟩ | ⟨hba, ht | ht⟩
  · rw [ht, hba]
    cases finishes doc <;> simp
  · simp [ht, hba]
  · simp [ht, hba]

theorem type_deltaOf_ne (doc : Json) : (Gemini.deltaOf rj doc).type ≠ .done ∧
      (Gemini.deltaOf rj doc).type ≠ .messageStart := by
  rcases type_deltaOf_cases rj doc with ⟨-, ht⟩ | ⟨-, ht | ht⟩
  · rw [ht]
    cases finishes doc <;> simp
  · simp [ht]
  · simp [ht]

theorem chunkOk_of_finishes (h : finishes doc) : chunkOk .gemini doc := by
  unfold chunkOk
  unfold finishes firstCandidate at h
  cases hc : entriesAt doc "candidates" with
  | nil => rfl
  | cons cand cands =>
    rw [hc, headD_cons] at h
    have ho : cand.isObject := by
      by_contra hno
      rw [Bool.not_eq_true] at hno
      rw [lookup_of_not_object hno] at h; cases h
    simpa using ho

end Gemini

def isDone (event : Bytes) : Bool := trimCr (dataPayload event) == "[DONE]"

def bareDocument (source : Format) (doc : Json) : Bool :=
  match source with
  | .openAIChatCompletions => OpenAI.finishes doc && OpenAI.bareDelta (OpenAI.firstDelta doc)
  | .gemini => Gemini.finishes doc && Gemini.bareCandidate (Gemini.firstCandidate doc)
  | _ => false

def takenForCompleted (rj : RapidJson) (event : Bytes) : Bool :=
  (documentAt rj event).any fun doc => stringAt doc "type" == "response.completed"

theorem payload_of_isDone {event : Bytes} (h : isDone event) :
    ∃ n, dataPayload event = ascii "[DONE]" ++ replicate n 13 := by
  have ht : (dataPayload event).rdropWhile (· = 13) = ascii "[DONE]" := eq_of_beq h
  refine ⟨((dataPayload event).rtakeWhile (· = 13)).length, ?_⟩
  have hcr : (dataPayload event).rtakeWhile (· = 13) =
      replicate ((dataPayload event).rtakeWhile (· = 13)).length 13 := by
    rw [eq_replicate_iff]
    refine ⟨rfl, ?_⟩
    intro c hc
    have hm := mem_rtakeWhile_imp hc
    exact of_decide_eq_true hm
  rw [← hcr, ← ht]
  exact rdropWhile_append_rtakeWhile.symm

theorem isDone_of_payload {event : Bytes} (h : dataPayload event = "[DONE]") : isDone event := by
  rw [isDone, h]
  decide

section

variable {rj : RapidJson} (hrj : StreamLawful rj) {source : Format} {event : Bytes}

include hrj in
theorem type_eq_done_iff (hs : source = .openAIChatCompletions ∨ source = .gemini) :
    (deltaRead rj source event).type = .done ↔ dataPayload event = "[DONE]" := by
  rw [type_deltaRead_iff hrj (by decide)]
  have hd : isDonePayload source (dataPayload event) ↔
      dataPayload event = "[DONE]" := by
    rcases hs with rfl | rfl <;> simp [isDonePayload]
  rw [hd]
  constructor
  · rintro (⟨hp, -⟩ | ⟨doc, -, -, ht⟩)
    · exact hp
    · rcases hs with rfl | rfl
      · exact absurd ht (OpenAI.type_deltaOf_ne doc).1
      · exact absurd ht (Gemini.type_deltaOf_ne rj doc).1
  · intro hp; exact Or.inl ⟨hp, rfl⟩

include hrj in
theorem type_eq_messageEnd_iff_bare (hs : source = .openAIChatCompletions ∨ source = .gemini) :
    (deltaRead rj source event).type = .messageEnd ↔
      (documentAt rj event).any (bareDocument source) := by
  rw [type_deltaRead_iff hrj (by decide), Option.any_eq_true]
  constructor
  · rintro (⟨-, hk⟩ | ⟨doc, hd, -, ht⟩)
    · cases hk
    · refine ⟨doc, hd, ?_⟩
      rcases hs with rfl | rfl
      · exact OpenAI.type_eq_messageEnd_iff.1 ht
      · exact (Gemini.type_eq_messageEnd_iff rj).1 ht
  · rintro ⟨doc, hd, hba⟩
    refine Or.inr ⟨doc, hd, ?_⟩
    rcases hs with rfl | rfl
    · exact ⟨OpenAI.chunkOk_of_firstDelta (Or.inr (Bool.and_eq_true_iff.1 hba).2),
        OpenAI.type_eq_messageEnd_iff.2 hba⟩
    · exact ⟨Gemini.chunkOk_of_finishes (Bool.and_eq_true_iff.1 hba).1,
        (Gemini.type_eq_messageEnd_iff rj).2 hba⟩

include hrj in
theorem deltaRead_of_done_cr (h : isDone event) (hcr : dataPayload event ≠ "[DONE]") :
    deltaRead rj source event = {} := by
  obtain ⟨n, hp⟩ := payload_of_isDone h
  refine deltaRead_of_no_document ?_ ?_
  · rw [isDonePayload, beq_false_of_ne hcr]; rfl
  · rw [documentAt, hp, hrj.parse_done_cr]; rfl

theorem type_anthropic_of_document (hd : documentAt rj event = some doc) :
    (deltaRead rj .anthropic event).type = (Anthropic.deltaOf (eventType event) doc).type := by
  rw [deltaRead_of_document (by simp [isDonePayload]) hd rfl]
  rfl

theorem name_of_type_anthropic {name : Bytes}
    (h : (Anthropic.deltaOf name doc).type = .done ∨ (Anthropic.deltaOf name doc).type =
      .messageEnd) : name = "message_delta" ∨ name = "message_stop" := by
  unfold Anthropic.deltaOf at h
  repeat' split at h
  all_goals simp_all [Anthropic.messageStartOf, Anthropic.contentBlockStartOf,
    Anthropic.contentBlockDeltaOf]
  all_goals (repeat' split at h) <;> simp_all

theorem type_responses_iff : (OpenAIResponses.deltaOf doc).type = .done ↔
      stringAt doc "type" = "response.completed" := by
  unfold OpenAIResponses.deltaOf
  simp only
  repeat' split
  all_goals simp_all
  all_goals decide

theorem type_responses_ne_messageEnd (doc : Json) :
    (OpenAIResponses.deltaOf doc).type ≠ .messageEnd := by
  unfold OpenAIResponses.deltaOf
  simp only
  repeat' split
  all_goals simp

include hrj

theorem type_eq_done_iff_taken : (deltaRead rj .openAIResponses event).type = .done ↔
    takenForCompleted rj event := by
  rw [type_deltaRead_iff hrj (by decide), takenForCompleted, Option.any_eq_true]
  simp only [isDonePayload, chunkOk, beq_iff_eq]
  constructor
  · rintro (⟨hno, -⟩ | ⟨doc, hd, -, ht⟩)
    · simp at hno
    · exact ⟨doc, hd, type_responses_iff.1 ht⟩
  · rintro ⟨doc, hd, ht⟩; exact Or.inr ⟨doc, hd, trivial, type_responses_iff.2 ht⟩

theorem responses_type_ne_messageEnd :
    (deltaRead rj .openAIResponses event).type ≠ .messageEnd := by
  rw [ne_eq, type_deltaRead_iff hrj (by decide)]
  rintro (⟨-, hk⟩ | ⟨doc, -, -, ht⟩)
  · cases hk
  · exact type_responses_ne_messageEnd doc ht

end

end Gateway.Forwarder
