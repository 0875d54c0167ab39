import Gateway.Forwarder.Transcript
import Gateway.Protocol.ToolHistory

/-! # Streamed text -/

namespace Gateway.Forwarder

open Lib Json JsonText Protocol List
open Option (all_some getD_none getD_some map_none map_some)
open Protocol (Format StreamDelta StreamLawful stringAt valueAt entriesAt textOf)

variable {source : Format} (parts : List Json) (doc : Json)

def streamText (ds : List StreamDelta) : Bytes := ds.flatMap (·.text)

theorem text_rereadDelta (rj : RapidJson) {d : StreamDelta} (h : d.Canonical) (target : Format) :
    (rereadDelta rj target d).text = d.text := by
  cases ht : d.type with
  | textDelta =>
    cases target <;> simp only [rereadDelta, Anthropic.rereadDelta, OpenAI.rereadDelta,
      OpenAIResponses.rereadDelta, Gemini.rereadDelta, ht]
  | _ =>
    have hn : d.text = [] := h.onlyText (by simp [ht])
    rw [hn]
    cases target <;> simp only [rereadDelta, Anthropic.rereadDelta, OpenAI.rereadDelta,
      OpenAIResponses.rereadDelta, Gemini.rereadDelta, ht]

variable {rj : RapidJson}

theorem canonical_deltaRead (hrj : Lawful rj) (format : Format) (event : Bytes) :
    (deltaRead rj format event).Canonical := by
  rw [deltaRead_eq]
  exact canonical_streamDelta hrj format _ _

theorem StreamPipe.streamText_run {p : StreamPipe} {env : Surroundings} {chunks : List Bytes}
    (h : Converts p env chunks.flatten) (hne : ∀ chunk ∈ chunks, chunk ≠ []) :
    streamText (deltas p.rj p.target (clientBytes (p.run env (chunks.map .bytes)).log)) =
      (dataEvents chunks.flatten).flatMap fun event => (deltaRead p.rj p.source event).text := by
  rw [deltas_run h hne, streamText, deltas, flatMap_map, flatMap_map]
  refine flatMap_congr fun event _ => ?_
  exact text_rereadDelta p.rj (canonical_deltaRead h.lawful.toLawful p.source event) p.target

def rawAt (j : Json) (key : Bytes) : Bytes := ((j.lookup key).bind text?).getD []

def documentText (source : Format) (doc : Json) : Bytes :=
  match source with
  | .anthropic =>
    if stringAt doc "type" == "content_block_delta" &&
        stringAt (valueAt doc "delta") "type" == "text_delta" then
      rawAt (valueAt doc "delta") "text"
    else []
  | .openAIResponses =>
    if stringAt doc "type" == "response.output_text.delta" then rawAt doc "delta" else []
  | .openAIChatCompletions =>
    match entriesAt doc "choices" with
    | choice :: _ => rawAt (valueAt choice "delta") "content"
    | [] => []
  | .gemini =>
    match entriesAt doc "candidates" with
    | cand :: _ => (Gemini.candidateParts cand).flatMap (rawAt · "text")
    | [] => []

def sourceText (rj : RapidJson) (source : Format) (event : Bytes) : Bytes :=
  ((documentAt rj event).map (documentText source)).getD []

theorem lookup_string_eq (j : Json) (key : Bytes) :
    (j.lookup key).bind string? = ((j.lookup key).bind text?).map cstr := by
  cases j.lookup key with
  | none => rfl
  | some v => cases v <;> rfl

theorem stringAt_eq_cstr (j : Json) (key : Bytes) : stringAt j key = cstr (rawAt j key) := by
  rw [stringAt, lookup_string_eq, rawAt]
  cases (j.lookup key).bind text? <;> rfl

theorem rawAt_of_not_object {j : Json} (h : j.isObject = false) (key : Bytes) :
    rawAt j key = [] := by
  rw [rawAt, lookup_of_not_object h]
  rfl

theorem length_cstr_le (b : Bytes) : (cstr b).length ≤ b.length :=
  ( takeWhile_prefix _).length_le

theorem sourceText_documentStream {es : List (Bytes × Json)}
    (h : ∀ e ∈ es, Sendable e.1 ∧ e.2.isObject) :
    (dataEvents (documentStream es)).flatMap (sourceText compact source) =
      es.flatMap fun e => documentText source e.2 := by
  rw [dataEvents_documentStream fun e he => (h e he).1, flatMap_map]
  refine flatMap_congr fun e he => ?_
  rw [sourceText, (documentAt_event (h e he).1 (h e he).2).2]
  rfl

theorem Anthropic.text_deltaOf (eventType : Bytes) (doc : Json) :
    (Anthropic.deltaOf eventType doc).text = if eventType == "content_block_delta" &&
          stringAt (valueAt doc "delta") "type" == "text_delta" then
        stringAt (valueAt doc "delta") "text" else [] := by
  by_cases hd : eventType = "content_block_delta"
  · subst hd
    change (Anthropic.contentBlockDeltaOf doc).text = _
    unfold Anthropic.contentBlockDeltaOf
    simp only [beq_self_eq_true, Bool.true_and]
    split
    · rfl
    split <;> rfl
  · have ho : (eventType == "content_block_delta") = false := beq_false_of_ne hd
    rw [ho, Bool.false_and]
    unfold Anthropic.deltaOf Anthropic.contentBlockStartOf
    simp only [ho, Bool.false_eq_true, if_false]
    repeat' (split; · first | rfl | (split <;> rfl))
    rfl

theorem OpenAIResponses.text_deltaOf : (OpenAIResponses.deltaOf doc).text =
      if stringAt doc "type" == "response.output_text.delta" then stringAt doc "delta" else [] := by
  by_cases hd : stringAt doc "type" = "response.output_text.delta"
  · simp only [OpenAIResponses.deltaOf, hd]; rfl
  · have ho : (stringAt doc "type" == "response.output_text.delta") = false :=
      beq_false_of_ne hd
    simp only [OpenAIResponses.deltaOf, ho]
    repeat' (split; · rfl)
    rfl

theorem OpenAI.text_deltaOf : (OpenAI.deltaOf doc).text =
    match entriesAt doc "choices" with
    | choice :: _ =>
      if OpenAI.opensMessage (valueAt choice "delta") then []
      else stringAt (valueAt choice "delta") "content"
    | [] => [] := by
  unfold OpenAI.deltaOf
  cases entriesAt doc "choices" with
  | nil => rfl
  | cons choice choices =>
    simp only [OpenAI.choiceDeltaOf]
    generalize valueAt choice "delta" = d
    cases hd : d.isObject with
    | false => rw [stringAt_of_not_object hd]; simp
    | true =>
      simp only [Bool.not_true, Bool.false_eq_true, if_false]
      cases OpenAI.opensMessage d with
      | true => rfl
      | false =>
        rw [show stringAt d "content" = ((d.lookup "content").bind string?).getD [] from rfl]
        cases (d.lookup "content").bind string? with
        | some text => rfl
        | none =>
          simp only [Bool.false_eq_true, if_false]
          split
          · rfl
          split <;> rfl

def Gemini.firstText : List Json → Bytes
  | [] => []
  | p :: ps =>
    match textOf p with
    | some text => if text.isEmpty then firstText ps else text
    | none => if (valueAt p "functionCall").isObject then [] else firstText ps

theorem Gemini.text_findSome (rj : RapidJson) {delta : StreamDelta} (h : delta.text = [])
    (parts : List Json) : ((parts.findSome? (Gemini.partDeltaOf rj delta)).getD delta).text =
      firstText parts := by
  induction parts with
  | nil => exact h
  | cons p ps ih =>
    rw [findSome?_cons, firstText, Gemini.partDeltaOf]
    cases textOf p with
    | some text => cases text <;> first | exact ih | rfl
    | none =>
      cases (valueAt p "functionCall").isObject with
      | true => exact h
      | false => exact ih

theorem Gemini.text_deltaOf (rj : RapidJson) (doc : Json) : (Gemini.deltaOf rj doc).text =
      match entriesAt doc "candidates" with
      | cand :: _ => firstText (Gemini.candidateParts cand)
      | [] => [] := by
  unfold Gemini.deltaOf
  cases entriesAt doc "candidates" with
  | nil => rfl
  | cons cand cands =>
    refine Gemini.text_findSome rj ?_ _
    unfold Gemini.finishOf
    split <;> rfl

def NamesType (rj : RapidJson) (event : Bytes) : Prop :=
  ∀ doc, documentAt rj event = some doc → eventType event = stringAt doc "type"

theorem text_deltaRead_of_nulFree {event : Bytes}
    (hsource : source = .anthropic ∨ source = .openAIResponses)
    (hna : source = .anthropic → NamesType rj event) (hn : NulFree (sourceText rj source event)) :
    (deltaRead rj source event).text = sourceText rj source event := by
  have hdo : isDonePayload source (dataPayload event) = false := by
    rcases hsource with rfl | rfl <;> simp [isDonePayload]
  unfold sourceText at hn ⊢
  cases hd : documentAt rj event with
  | none => rw [deltaRead_of_no_document hdo hd]; rfl
  | some doc =>
    rw [hd] at hn
    rcases hsource with rfl | rfl
    · rw [deltaRead_of_document hdo hd rfl]
      change (Anthropic.deltaOf (eventType event) doc).text = documentText .anthropic doc
      have hf : NulFree (documentText .anthropic doc) := hn
      rw [Anthropic.text_deltaOf, hna rfl doc hd, stringAt_eq_cstr (valueAt doc "delta") "text"]
      unfold documentText at hf ⊢
      split
      · rename_i ht
        simp only [ht, if_true] at hf; exact hf.cstr_eq
      · rfl
    · rw [deltaRead_of_document hdo hd rfl]
      change (OpenAIResponses.deltaOf doc).text = documentText .openAIResponses doc
      have hf : NulFree (documentText .openAIResponses doc) := hn
      rw [OpenAIResponses.text_deltaOf, stringAt_eq_cstr doc "delta"]
      unfold documentText at hf ⊢
      split
      · rename_i ht
        simp only [ht, if_true] at hf; exact hf.cstr_eq
      · rfl

theorem StreamPipe.text_kept {p : StreamPipe} {env : Surroundings} {chunks : List Bytes}
    (h : Converts p env chunks.flatten) (hne : ∀ chunk ∈ chunks, chunk ≠ [])
    (hsource : p.source = .anthropic ∨ p.source = .openAIResponses)
    (hnamed : p.source = .anthropic → ∀ event ∈ dataEvents chunks.flatten, NamesType p.rj event)
    (hnul : ∀ event ∈ dataEvents chunks.flatten, NulFree (sourceText p.rj p.source event)) :
    streamText (deltas p.rj p.target (clientBytes (p.run env (chunks.map .bytes)).log)) =
      (dataEvents chunks.flatten).flatMap (sourceText p.rj p.source) := by
  rw [streamText_run h hne]
  refine flatMap_congr fun event hevent => ?_
  exact text_deltaRead_of_nulFree hsource (fun ha => hnamed ha event hevent) (hnul event hevent)

def textPiece (text : Bytes) : Bytes × Json :=
  ("content_block_delta", .object [
    ("type", .str "content_block_delta"), ("index", .int 0),
    ("delta", .object [("type", .str "text_delta"), ("text", .string text)])])

def helloPieces : List Bytes := ["Hel", "lo, ", "world"]

def helloStream : Bytes := documentStream (helloPieces.map textPiece)

theorem StreamPipe.helloStream_text_kept : streamText (deltas compact .openAIChatCompletions
      (clientBytes ((pipeBetween .anthropic .openAIChatCompletions).run StreamPipe.patientClient
        ([helloStream.take 150, helloStream.drop 150].map .bytes)).log)) = "Hello, world" := by
  have hname : Sendable "content_block_delta" := ⟨by decide, by decide, by decide⟩
  have hpieces : ∀ e ∈ helloPieces.map textPiece, Sendable e.1 ∧ e.2.isObject := by
    intro e he
    obtain ⟨text, -, rfl⟩ := mem_map.1 he
    exact ⟨hname, rfl⟩
  have hread : ∀ event ∈ dataEvents helloStream, ∃ text ∈ helloPieces,
      eventType event = "content_block_delta" ∧
        documentAt compact event = some (textPiece text).2 := by
    intro event hevent
    rw [helloStream, dataEvents_documentStream fun e he => (hpieces e he).1] at hevent
    obtain ⟨e, he, rfl⟩ := mem_map.1 hevent
    obtain ⟨text, htext, rfl⟩ := mem_map.1 he
    exact ⟨text, htext, documentAt_event hname (hpieces _ he).2⟩
  have hflatten : [helloStream.take 150, helloStream.drop 150].flatten = helloStream := by
    rw [flatten_cons, flatten_singleton, take_append_drop]
  have hnamed : ∀ event ∈ dataEvents helloStream, NamesType compact event := by
    intro event hevent doc hd
    obtain ⟨text, -, htype, hdoc⟩ := hread event hevent
    rw [hdoc, Option.some.injEq] at hd
    rw [htype, ← hd]; rfl
  have hnul : ∀ event ∈ dataEvents helloStream,
      NulFree (sourceText compact .anthropic event) := by
    intro event hevent
    obtain ⟨text, htext, -, hdoc⟩ := hread event hevent
    have hfree : ∀ text ∈ helloPieces, NulFree text := by decide
    rw [sourceText, hdoc]; exact hfree text htext
  have hchunks : ∀ chunk ∈ [helloStream.take 150, helloStream.drop 150], chunk ≠ [] := by
    decide +kernel
  rw [← hflatten] at hnamed hnul
  have hformats : Format.anthropic ≠ .openAIChatCompletions := by decide
  have hkept := text_kept (converts_pipeBetween hformats _) hchunks (Or.inl rfl)
    (fun _ => hnamed) hnul
  rw [hflatten] at hkept
  exact hkept.trans (sourceText_documentStream hpieces)

def Gemini.keepsParts : List Json → Bool
  | [] => true
  | p :: ps =>
    if !(rawAt p "text").isEmpty then
      decide (NulFree (rawAt p "text")) && ps.all fun q => (rawAt q "text").isEmpty
    else if (textOf p).isNone && (valueAt p "functionCall").isObject then
      ps.all fun q => (rawAt q "text").isEmpty
    else keepsParts ps

def keepsText (source : Format) (doc : Json) : Bool :=
  match source with
  | .openAIChatCompletions =>
    match entriesAt doc "choices" with
    | choice :: _ =>
      let d := valueAt choice "delta"
      (rawAt d "content").isEmpty || decide (NulFree (rawAt d "content")) &&
        (d.lookup "role").isNone
    | [] => true
  | .gemini =>
    match entriesAt doc "candidates" with
    | cand :: _ => Gemini.keepsParts (Gemini.candidateParts cand)
    | [] => true
  | _ => true

theorem flatMap_raw_eq_nil_iff {ps : List Json} :
    ps.flatMap (rawAt · "text") = [] ↔ (ps.all fun q => (rawAt q "text").isEmpty) := by
  simp [flatMap_eq_nil_iff]

theorem textOf_eq (p : Json) : textOf p = ((p.lookup "text").bind text?).map cstr :=
  lookup_string_eq p "text"

theorem Gemini.length_firstText_le :
    (firstText parts).length ≤ (parts.flatMap (rawAt · "text")).length := by
  induction parts with
  | nil => exact le_rfl
  | cons p ps ih =>
    rw [firstText, textOf_eq, flatMap_cons, length_append, rawAt]
    cases (p.lookup "text").bind text? with
    | some t =>
      have hc := length_cstr_le t
      simp only [map_some, getD_some]
      split <;> omega
    | none =>
      simp only [map_none, getD_none, length_nil, Nat.zero_add]
      split
      · exact Nat.zero_le _
      · exact ih

theorem Gemini.firstText_eq_iff :
    firstText parts = parts.flatMap (rawAt · "text") ↔ keepsParts parts := by
  induction parts with
  | nil => exact iff_of_true rfl rfl
  | cons p ps ih =>
    have hr := length_firstText_le ps
    rw [firstText, keepsParts, textOf_eq, flatMap_cons, rawAt]
    cases (p.lookup "text").bind text? with
    | none =>
      simp only [map_none, getD_none, nil_append, isEmpty_nil,
        Bool.not_true, Bool.false_eq_true, if_false, Option.isNone_none, Bool.true_and]
      split
      · rw [eq_comm]; exact flatMap_raw_eq_nil_iff
      · exact ih
    | some t =>
      simp only [map_some, getD_some, Option.isNone_some, Bool.false_and,
        Bool.false_eq_true, if_false]
      cases t with
      | nil => simpa [cstr] using ih
      | cons c t =>
        simp only [isEmpty_cons, Bool.not_false, if_true, Bool.and_eq_true,
          decide_eq_true_eq, ← flatMap_raw_eq_nil_iff]
        have hc := length_cstr_le (c :: t)
        split
        · rename_i he
          refine iff_of_false (fun heq => ?_) fun hk => ?_
          · have hl := congrArg List.length heq
            simp only [length_append, length_cons] at hl; omega
          · rw [hk.1.cstr_eq] at he; cases he
        · constructor
          · intro heq
            have hl := congrArg List.length heq
            rw [length_append] at hl
            have hn : ps.flatMap (rawAt · "text") = [] := length_eq_zero_iff.1 (by omega)
            rw [hn, append_nil] at heq
            exact ⟨cstr_eq_self_iff.1 heq, hn⟩
          · rintro ⟨hf, hn⟩; rw [hf.cstr_eq, hn, append_nil]

section

variable {source : Format} (hsource : source = .openAIChatCompletions ∨ source = .gemini)

include hsource in
theorem length_text_deltaOf_le (rj : RapidJson) (eventType : Bytes) (doc : Json) :
    (deltaOf rj source eventType doc).text.length ≤ (documentText source doc).length := by
  rcases hsource with rfl | rfl
  · change (OpenAI.deltaOf doc).text.length ≤ _
    rw [OpenAI.text_deltaOf]
    unfold documentText
    cases entriesAt doc "choices" with
    | nil => exact le_rfl
    | cons choice choices =>
      simp only [stringAt_eq_cstr]
      split
      · exact Nat.zero_le _
      · exact length_cstr_le _
  · change (Gemini.deltaOf rj doc).text.length ≤ _
    rw [Gemini.text_deltaOf]
    unfold documentText
    cases entriesAt doc "candidates" with
    | nil => exact le_rfl
    | cons cand cands => exact Gemini.length_firstText_le _

theorem OpenAI.text_eq_iff (d : Json) :
    (if OpenAI.opensMessage d then [] else stringAt d "content") = rawAt d "content" ↔
      ((rawAt d "content").isEmpty || decide (NulFree (rawAt d "content")) &&
        (d.lookup "role").isNone) := by
  by_cases hr : rawAt d "content" = []
  · rw [stringAt_eq_cstr, hr]; simp [cstr]
  · have hco : (d.lookup "content").isSome := by
      cases hc : d.lookup "content" with
      | none => exact absurd (by rw [rawAt, hc]; rfl) hr
      | some v => rfl
    have hf : (rawAt d "content").isEmpty = false := by simpa using hr
    rw [stringAt_eq_cstr, hf, Bool.false_or, OpenAI.opensMessage, hco, Bool.and_true]
    cases d.lookup "role" with
    | some role => simpa using Ne.symm hr
    | none => simpa using cstr_eq_self_iff

include hsource

theorem text_deltaOf_eq_iff (rj : RapidJson) (eventType : Bytes) (doc : Json) :
    (deltaOf rj source eventType doc).text = documentText source doc ↔ keepsText source doc := by
  rcases hsource with rfl | rfl
  · change (OpenAI.deltaOf doc).text = _ ↔ _
    rw [OpenAI.text_deltaOf]
    unfold documentText keepsText
    cases entriesAt doc "choices" with
    | nil => exact iff_of_true rfl rfl
    | cons choice choices => exact OpenAI.text_eq_iff _
  · change (Gemini.deltaOf rj doc).text = _ ↔ _
    rw [Gemini.text_deltaOf]
    unfold documentText keepsText
    cases entriesAt doc "candidates" with
    | nil => exact iff_of_true rfl rfl
    | cons cand cands => exact Gemini.firstText_eq_iff _

theorem documentText_of_not_chunkOk {doc : Json} (h : chunkOk source doc = false) :
    documentText source doc = [] := by
  rcases hsource with rfl | rfl
  · unfold documentText
    unfold chunkOk at h
    cases hc : entriesAt doc "choices" with
    | nil => rfl
    | cons choice choices =>
      rw [hc] at h
      simp only [head?_cons, all_some, choiceOk] at h
      cases hd : (valueAt choice "delta").isObject with
      | false => exact rawAt_of_not_object hd _
      | true =>
        have ho : choice.isObject := by
          by_contra hno
          rw [Bool.not_eq_true] at hno
          rw [valueAt, lookup_of_not_object hno] at hd; cases hd
        rw [ho, object_of_valueAt hd] at h
        simp only [Bool.true_and, all_some, toolCallOk, Bool.or_eq_false_iff,
          lookup_string_eq, Option.isSome_map] at h
        have hn : ((valueAt choice "delta").lookup "content").bind text? = none := by
          simpa using h.1.2
        simp only [rawAt, hn]; rfl
  · unfold documentText
    unfold chunkOk at h
    cases hcalls : entriesAt doc "candidates" with
    | nil => rfl
    | cons cand cands =>
      rw [hcalls] at h
      have hcan : cand.isObject = false := by simpa using h
      have hco : (valueAt cand "content").isObject = false := by
        rw [valueAt, lookup_of_not_object hcan]; rfl
      simp only [Gemini.candidateParts, entriesAt_of_not_object hco]; rfl

end

theorem text_deltaRead_cases (hrj : StreamLawful rj) {source : Format}
    (hsource : source = .openAIChatCompletions ∨ source = .gemini) (event : Bytes) :
    (deltaRead rj source event).text.length ≤ (sourceText rj source event).length ∧
      ((deltaRead rj source event).text = sourceText rj source event ↔
        ∀ doc, documentAt rj event = some doc → keepsText source doc) := by
  unfold sourceText
  cases hdo : isDonePayload source (dataPayload event) with
  | true =>
    have hr : deltaRead rj source event = { type := .done } := by
      rw [deltaRead_eq, streamDelta, hdo]; rfl
    have hd : documentAt rj event = none := by
      have hp := eq_of_beq (Bool.and_eq_true_iff.1 hdo).1
      rw [documentAt, hp, hrj.parse_done]; rfl
    simp [hr, hd]
  | false =>
    cases hd : documentAt rj event with
    | none => simp [deltaRead_of_no_document hdo hd]
    | some doc =>
      simp only [map_some, getD_some, Option.some.injEq, forall_eq']
      have hl := length_text_deltaOf_le hsource rj (eventType event) doc
      have hi := text_deltaOf_eq_iff hsource rj (eventType event) doc
      cases hok : chunkOk source doc with
      | true => rw [deltaRead_of_document hdo hd hok]; exact ⟨hl, hi⟩
      | false =>
        have hn := documentText_of_not_chunkOk hsource hok
        have hr : deltaRead rj source event = {} := by
          unfold documentAt at hd
          simp [deltaRead_eq, streamDelta, hdo, readableDocument, hd, Option.filter_some, hok]
        rw [hn, hr]
        rw [hn] at hl hi
        exact ⟨le_rfl, iff_of_true rfl (hi.1 (length_eq_zero_iff.1 (Nat.le_zero.1 hl)))⟩

theorem StreamPipe.text_kept_iff {p : StreamPipe} {env : Surroundings} {chunks : List Bytes}
    (h : Converts p env chunks.flatten) (hne : ∀ chunk ∈ chunks, chunk ≠ [])
    (hsource : p.source = .openAIChatCompletions ∨ p.source = .gemini) :
    streamText (deltas p.rj p.target (clientBytes (p.run env (chunks.map .bytes)).log)) =
        (dataEvents chunks.flatten).flatMap (sourceText p.rj p.source) ↔
      ∀ event ∈ dataEvents chunks.flatten, ∀ doc, documentAt p.rj event = some doc →
        keepsText p.source doc = true := by
  have hcases := text_deltaRead_cases h.lawful hsource
  rw [streamText_run h hne, flatMap_eq_flatMap_iff fun event _ => (hcases event).1]
  exact forall₂_congr fun event _ => (hcases event).2

def chatChunk (delta : List (Bytes × Json)) : Json := .object [("choices", .array [.object [
  ("index", .int 0), ("delta", .object delta), ("finish_reason", .null)]])]

def chatStream (ds : List (List (Bytes × Json))) : Bytes :=
  documentStream (ds.map fun delta => ([], chatChunk delta))

theorem mem_chatStream {ds : List (List (Bytes × Json))} {e : Bytes × Json}
    (h : e ∈ ds.map fun delta => (([] : Bytes), chatChunk delta)) :
    Sendable e.1 ∧ e.2.isObject := by
  obtain ⟨delta, -, rfl⟩ := mem_map.1 h
  exact ⟨sendable_nil, rfl⟩

theorem converts_chatStream (ds : List (List (Bytes × Json))) :
    StreamPipe.Converts (pipeBetween .openAIChatCompletions .anthropic) StreamPipe.patientClient
      [chatStream ds].flatten :=
  converts_pipeBetween (by decide) _

def laterWords : List (Bytes × Json) := [("content", .str "Hi")]

def openingWords : List (Bytes × Json) := [("role", .str "assistant"), ("content", .str "Hi")]

theorem StreamPipe.laterWords_text_kept : streamText (deltas compact .anthropic
      (clientBytes ((pipeBetween .openAIChatCompletions .anthropic).run StreamPipe.patientClient
        ([chatStream [laterWords]].map .bytes)).log)) = "Hi" := by
  have hkept := (text_kept_iff (converts_chatStream [laterWords])
    (by simp [chatStream, documentStream, streamOf, eventOf]) (Or.inl rfl)).2
  rw [flatten_singleton] at hkept
  refine (hkept ?_).trans (sourceText_documentStream fun e he => mem_chatStream he)
  intro event hevent doc hd
  rw [chatStream, dataEvents_documentStream fun e he => (mem_chatStream he).1] at hevent
  obtain ⟨e, he, rfl⟩ := mem_map.1 hevent
  have he : e = ([], chatChunk laterWords) := by simpa using he
  subst he
  have hdoc := (documentAt_event sendable_nil
    (show (chatChunk laterWords).isObject from rfl)).2
  rw [show (pipeBetween .openAIChatCompletions .anthropic).rj = compact from rfl, hdoc,
    Option.some.injEq] at hd
  rw [← hd]
  rfl

theorem StreamPipe.openingWords_text_lost : streamText (deltas compact .anthropic
        (clientBytes ((pipeBetween .openAIChatCompletions .anthropic).run StreamPipe.patientClient
          ([chatStream [openingWords]].map .bytes)).log)) = [] ∧
      (dataEvents (chatStream [openingWords])).flatMap
        (sourceText compact .openAIChatCompletions) = "Hi" := by
  refine ⟨?_, sourceText_documentStream fun e he => mem_chatStream he⟩
  have hrun := deltas_run (converts_chatStream [openingWords])
    (by simp [chatStream, documentStream, streamOf, eventOf])
  have hread : deltas compact .openAIChatCompletions (chatStream [openingWords]) =
      [OpenAI.deltaOf (chatChunk openingWords)] := by
    refine deltas_documentStream fun e he => ?_
    have he : e = ([], chatChunk openingWords) := by simpa using he
    subst he
    exact ⟨sendable_nil, rfl, rfl⟩
  rw [flatten_singleton] at hrun
  refine (congrArg streamText hrun).trans ?_
  change streamText ((deltas compact .openAIChatCompletions _).map _) = _
  rw [hread]
  rfl

end Gateway.Forwarder
