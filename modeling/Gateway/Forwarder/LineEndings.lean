import Gateway.Lib.LineEndings
import Gateway.Forwarder.Outcomes
import Gateway.Forwarder.EventKinds

/-! # Line endings of the provider -/

namespace Gateway.Forwarder

open Lib Protocol Cutter List Option
open Protocol (Format StreamDelta StreamLawful)

variable {b : Bytes}

theorem delimiter_of_not_mem (h : 13 ∉ b) : delimiter b = (find "\n\n" b).map fun i => (i, 2) := by
  have hc : find "\r\n\r\n" b = none :=
    find_eq_none_of_not_mem (show (13 : UInt8) ∉ b from h)
  unfold delimiter
  rw [hc]
  cases find "\n\n" b <;> rfl

theorem delimiter_crlf (h : 13 ∉ b) :
    delimiter (crlf b) = (find "\n\n" b).map fun i => ((crlf (b.take i)).length, 4) := by
  have hlf : find "\n\n" (crlf b) = none := find_lf_lf_crlf b
  have hne : ascii "\n\n" ≠ [] := by decide
  have hc := find_crlf hne (by decide) h
  rw [show crlf (ascii "\n\n") = ascii "\r\n\r\n" by decide] at hc
  unfold delimiter
  rw [hlf, hc]
  cases find "\n\n" b <;> rfl

theorem take_of_find {i : Nat} (h : find "\n\n" b = some i) :
    b.take (i + 2) = b.take i ++ [10, 10] := by
  obtain ⟨-, ⟨rest, hr⟩, -⟩ := find_eq_some_iff.1 h
  rw [take_add, ← hr]
  rfl

theorem cutEvent_crlf (h : 13 ∉ b) : cutEvent (crlf b) = (cutEvent b).map (Prod.map crlf crlf) := by
  unfold cutEvent
  rw [delimiter_crlf h, delimiter_of_not_mem h]
  cases hf : find "\n\n" b with
  | none => rfl
  | some i =>
    have hl : (crlf (b.take i)).length + 4 = (crlf (b.take (i + 2))).length := by
      rw [take_of_find hf, crlf_append, length_append]; rfl
    simp only [map_some, hl, take_crlf, drop_crlf, Prod.map_apply]

theorem frames_crlf (h : 13 ∉ b) : nextEvent.frames (crlf b) =
    ((nextEvent.frames b).1.map crlf, crlf (nextEvent.frames b).2) := by
  induction b using nextEvent.cut_induction with
  | none b hc =>
    have hc' : nextEvent.cut (crlf b) = none := by
      change cutEvent (crlf b) = none
      rw [cutEvent_crlf h, show cutEvent b = none from hc]; rfl
    rw [frames_of_none hc, frames_of_none hc']; rfl
  | some b f r hc ih =>
    have hc' : nextEvent.cut (crlf b) = some (crlf f, crlf r) := by
      change cutEvent (crlf b) = _
      rw [cutEvent_crlf h, show cutEvent b = some (f, r) from hc]; rfl
    have hr : 13 ∉ r := by
      intro hm
      rw [← nextEvent.cut_append hc] at h; exact h (mem_append_right f hm)
    rw [frames_of_some hc, frames_of_some hc', ih hr]; rfl

structure LfEvent (event : Bytes) : Prop where
  noCr : 13 ∉ event
  ends : ∃ a, event = a ++ [10]

theorem lfEvent_of_mem_frames {event : Bytes} (h : 13 ∉ b) (he : event ∈ (nextEvent.frames b).1) :
    LfEvent event := by
  induction b using nextEvent.cut_induction with
  | none b hc => rw [frames_of_none hc] at he; cases he
  | some b f r hc ih =>
    have hs : 13 ∉ f ∧ 13 ∉ r := by rw [← nextEvent.cut_append hc, mem_append, not_or] at h; exact h
    rw [frames_of_some hc] at he
    rcases mem_cons.1 he with rfl | he
    · refine ⟨hs.1, ?_⟩
      have hc : cutEvent b = some (event, r) := hc
      unfold cutEvent at hc
      rw [delimiter_of_not_mem h] at hc
      cases hf : find "\n\n" b with
      | none => rw [hf] at hc; cases hc
      | some i =>
        rw [hf] at hc
        cases hc
        refine ⟨b.take i ++ [10], ?_⟩
        rw [take_of_find hf, append_assoc]; rfl
    · exact ih hs.2 he

theorem startsWith_concat_cr {name : Bytes} (hn : 13 ∉ name) (line : Bytes) :
    startsWith (line ++ [13]) name = startsWith line name := by
  rw [startsWith, startsWith, Bool.eq_iff_iff, isPrefixOf_iff_prefix,
    isPrefixOf_iff_prefix, prefix_concat_iff]
  constructor
  · rintro (rfl | h)
    · exact absurd (by simp) hn
    · exact h
  · exact Or.inr

theorem fieldValue_concat_cr {name : Bytes} (hn : 13 ∉ name) (line : Bytes) :
    fieldValue name (line ++ [13]) = (fieldValue name line).map (· ++ [13]) := by
  unfold fieldValue
  rw [startsWith_concat_cr hn]
  by_cases hat : startsWith line name
  · have hl : name.length ≤ line.length := ( isPrefixOf_iff_prefix.1 hat).length_le
    have hblanks : ∀ v : Bytes, (v ++ [13]).dropWhile (· = 32) = v.dropWhile (· = 32) ++ [13] := by
      intro v
      induction v with
      | nil => rfl
      | cons c v ih =>
        by_cases hc : c = 32
        · simpa [hc] using ih
        · simp [hc]
    rw [if_pos hat, if_pos hat, drop_append_of_le_length hl, hblanks]; rfl
  · rw [if_neg hat, if_neg hat]; rfl

theorem trimCr_concat_cr (v : Bytes) : trimCr (v ++ [13]) = trimCr v :=
  rdropWhile_concat_pos _ _ _ (by simp)

section

variable {event : Bytes} (h : LfEvent event)

include h in
theorem eventType_crlf : eventType (crlf event) = eventType event := by
  obtain ⟨a, rfl⟩ := h.ends
  unfold eventType
  rw [lines_crlf, lines_concat, foldl_append, foldl_append, foldl_map]
  have hs : ∀ (found line : Bytes),
      ((fieldValue "event:" (line ++ [13])).map trimCr).getD found =
        ((fieldValue "event:" line).map trimCr).getD found := by
    intro found line
    rw [fieldValue_concat_cr (by decide), Option.map_map]
    exact congrArg (fun f => (Option.map f (fieldValue "event:" line)).getD found)
      (funext trimCr_concat_cr)
  simp only [hs]

include h in
theorem dataLine_crlf : StreamPipe.dataLine (crlf event) = StreamPipe.dataLine event := by
  obtain ⟨a, rfl⟩ := h.ends
  unfold StreamPipe.dataLine
  rw [lines_crlf, lines_concat, any_append, any_append, List.any_map]
  have hl : ∀ line, startsWith (line ++ [13]) "data:" = startsWith line "data:" :=
    startsWith_concat_cr (by decide)
  simp only [Function.comp_def, hl]

theorem foldl_data_of_no_line {ls : List Bytes}
    (hno : ls.any (fun line => startsWith line "data:") = false) (found : Bytes) :
    ls.foldl (fun found line => (fieldValue "data:" line).getD found) found = found := by
  induction ls with
  | nil => rfl
  | cons line ls ih =>
    rw [any_cons, Bool.or_eq_false_iff] at hno
    have hv : fieldValue "data:" line = none := by simp [fieldValue, hno.1]
    rw [foldl_cons, hv]; exact ih hno.2

theorem foldl_data_crlf (ls : List Bytes) (found found' : Bytes) :
    ls.foldl (fun found line => (fieldValue "data:" (line ++ [13])).getD found) found' =
      if ls.any (fun line => startsWith line "data:") then
        ls.foldl (fun found line => (fieldValue "data:" line).getD found) found ++ [13]
      else found' := by
  induction ls generalizing found found' with
  | nil => rfl
  | cons line ls ih =>
    rw [foldl_cons, foldl_cons, any_cons, fieldValue_concat_cr (by decide)]
    cases hat : startsWith line "data:" with
    | false =>
      have hno : fieldValue "data:" line = none := by simp [fieldValue, hat]
      rw [hno, Bool.false_or]; exact ih found found'
    | true =>
      obtain ⟨v, hv⟩ : ∃ v, fieldValue "data:" line = some v := ⟨_, if_pos hat⟩
      rw [hv, Bool.true_or, if_pos rfl, map_some, getD_some, getD_some, ih v (v ++ [13])]
      split
      · rfl
      · rename_i hl
        rw [foldl_data_of_no_line (Bool.not_eq_true _ ▸ hl)]

theorem dataPayload_of_no_line {event : Bytes} (hno : StreamPipe.dataLine event = false) :
    dataPayload event = [] :=
  foldl_data_of_no_line hno []

include h

theorem dataPayload_crlf : dataPayload (crlf event) =
    if StreamPipe.dataLine event then dataPayload event ++ [13] else [] := by
  obtain ⟨a, rfl⟩ := h.ends
  unfold dataPayload StreamPipe.dataLine
  rw [lines_crlf, lines_concat, foldl_append, foldl_append, foldl_map,
    any_append, foldl_data_crlf (lines a) [] []]
  have he : fieldValue "data:" [] = none := rfl
  have hl : ([[]] : List Bytes).any (fun line => startsWith line "data:") = false := rfl
  rw [hl, Bool.or_false]
  simp only [foldl_cons, foldl_nil, he, getD_none]

theorem trimCr_dataPayload_crlf :
    trimCr (dataPayload (crlf event)) = trimCr (dataPayload event) := by
  rw [dataPayload_crlf h]
  cases hl : StreamPipe.dataLine event with
  | true => exact trimCr_concat_cr _
  | false => rw [dataPayload_of_no_line hl]; rfl

theorem isTerminalEvent_crlf (rj : RapidJson) (source : Format) :
    isTerminalEvent rj source (crlf event) = isTerminalEvent rj source event := by
  unfold isTerminalEvent
  rw [eventType_crlf h, trimCr_dataPayload_crlf h]

theorem usagePayload_crlf : usagePayload (crlf event) = usagePayload event := by
  have hne : ascii "data:" ≠ [] := by decide
  have hf := find_crlf hne (by decide) h.noCr
  rw [show crlf (ascii "data:") = ascii "data:" by decide] at hf
  unfold usagePayload
  rw [hf]
  cases hd : find "data:" event with
  | none => rfl
  | some i =>
    obtain ⟨-, ⟨rest, hr⟩, -⟩ := find_eq_some_iff.1 hd
    have ht : event.take (i + 5) = event.take i ++ ascii "data:" := by
      rw [take_add, ← hr]; rfl
    have hl : (crlf (event.take i)).length + 5 = (crlf (event.take (i + 5))).length := by
      rw [ht, crlf_append, length_append]; rfl
    simp only [map_some, hl, drop_crlf]
    rw [dropWhile_crlf (by decide) (by decide), rdropWhile_takeWhile_crlf]

theorem mentionsUsage_crlf :
    StreamPipe.mentionsUsage (crlf event) = StreamPipe.mentionsUsage event := by
  unfold StreamPipe.mentionsUsage
  rw [contains_crlf (by decide) (by decide) (by decide) h.noCr,
    contains_crlf (by decide) (by decide) (by decide) h.noCr,
    contains_crlf (by decide) (by decide) (by decide) h.noCr]

theorem exempt_crlf (p : StreamPipe) : p.exempt (crlf event) = p.exempt event := by
  unfold StreamPipe.exempt
  rw [contains_crlf (by decide) (by decide) (by decide) h.noCr,
    contains_crlf (by decide) (by decide) (by decide) h.noCr]

theorem noteEvent_crlf (p : StreamPipe) (r : StreamResult) :
    p.noteEvent (crlf event) r = p.noteEvent event r := by
  have hu : p.readUsage (crlf event) r = p.readUsage event r := by
    unfold StreamPipe.readUsage extractUsageFromEvent
    rw [usagePayload_crlf h]
  unfold StreamPipe.noteEvent StreamPipe.noteTerminal
  rw [mentionsUsage_crlf h, hu, isTerminalEvent_crlf h]

end

structure LineLawful (rj : RapidJson) : Prop extends StreamLawful rj where
  parse_cr : ∀ b, rj.parse (b ++ [13]) = rj.parse b

def lineBlind (source : Format) (event : Bytes) : Bool :=
  hasData event && !Protocol.isDonePayload source (dataPayload event)

theorem isDonePayload_concat_cr (source : Format) (payload : Bytes) :
    isDonePayload source (payload ++ [13]) = false := by
  have hne : payload ++ [13] ≠ ascii "[DONE]" := by
    intro heq
    have hm : (13 : UInt8) ∈ ascii "[DONE]" := heq ▸ mem_append_right _ mem_cons_self
    exact absurd hm (by decide)
  rw [isDonePayload, beq_false_of_ne hne]
  rfl

theorem ne_nil_of_hasData {event : Bytes} (h : hasData event) : event ≠ [] := by
  rintro rfl
  cases h

namespace LfEvent

variable {event : Bytes} (h : LfEvent event)

include h in
theorem ne_nil : event ≠ [] := by
  obtain ⟨a, rfl⟩ := h.ends
  simp

include h in
theorem cr_mem_crlf : 13 ∈ crlf event := by
  obtain ⟨a, rfl⟩ := h.ends
  rw [crlf_append]
  exact mem_append_right _ (by decide)

include h in
theorem hasData_crlf : hasData (crlf event) = StreamPipe.dataLine event := by
  rw [hasData, dataPayload_crlf h]
  cases StreamPipe.dataLine event <;> simp

theorem dataLine_of_hasData {event : Bytes} (hd : hasData event) : StreamPipe.dataLine event := by
  by_contra hl
  rw [Bool.not_eq_true] at hl
  rw [hasData, dataPayload_of_no_line hl] at hd
  cases hd

end LfEvent

namespace StreamPipe

section

variable {p : StreamPipe} (hrj : LineLawful p.rj) (hformats : p.source ≠ p.target)
  {event : Bytes} (h : LfEvent event)

include hrj h in
theorem deltaRead_crlf (hl : dataLine event)
    (hd : isDonePayload p.source (dataPayload event) = false) :
    deltaRead p.rj p.source (crlf event) = deltaRead p.rj p.source event := by
  rw [deltaRead_eq, deltaRead_eq, eventType_crlf h, dataPayload_crlf h, if_pos hl, streamDelta,
    streamDelta, isDonePayload_concat_cr, hd, readableDocument, readableDocument, hrj.parse_cr]

include hrj hformats h in
theorem transformEvent_crlf (hblind : lineBlind p.source event) :
    p.transformEvent (crlf event) = p.transformEvent event := by
  rw [lineBlind, Bool.and_eq_true, Bool.not_eq_true'] at hblind
  have hl := LfEvent.dataLine_of_hasData hblind.1
  have hd : hasData (crlf event) := h.hasData_crlf.trans hl
  rw [transformEvent_of_data hformats hd, transformEvent_of_data hformats hblind.1,
    deltaRead_crlf hrj h hl hblind.2]

include hrj hformats h in
theorem transformEvent_crlf_ne (hl : dataLine event) (hblind : lineBlind p.source event = false) :
    p.transformEvent (crlf event) ≠ p.transformEvent event := by
  intro heq
  have hd : hasData (crlf event) := h.hasData_crlf.trans hl
  have hw := hasData_transformEvent hrj.toStreamLawful hformats (crlf event)
  rw [heq, hasData_transformEvent hrj.toStreamLawful hformats, hd] at hw
  rw [lineBlind, hw, Bool.true_and, Bool.not_eq_false'] at hblind
  have hp : dataPayload event = "[DONE]" := eq_of_beq (Bool.and_eq_true_iff.1 hblind).1
  have hlf : deltaRead p.rj p.source event = { type := .done } := by
    rw [deltaRead_eq, streamDelta, hblind]; rfl
  have hc : deltaRead p.rj p.source (crlf event) = {} := by
    refine deltaRead_of_done_cr hrj.toStreamLawful ?_ ?_
    · rw [isDone, trimCr_dataPayload_crlf h, hp]; decide
    · rw [dataPayload_crlf h, if_pos hl, hp]; decide
  have hr := deltaRead_transformEvent hrj.toStreamLawful hformats hd
  rw [heq, deltaRead_transformEvent hrj.toStreamLawful hformats hw, hlf, hc] at hr
  have ht := congrArg StreamDelta.type hr
  revert ht
  cases p.target <;> simp [rereadDelta, OpenAI.rereadDelta, Anthropic.rereadDelta,
    OpenAIResponses.rereadDelta, Gemini.rereadDelta]

include hrj hformats in
theorem transformEvent_ne_nil {event : Bytes} (hne : event ≠ []) : p.transformEvent event ≠ [] := by
  cases hd : hasData event with
  | false => rwa [transformEvent_of_no_data hd]
  | true =>
    refine ne_nil_of_hasData ?_
    rw [hasData_transformEvent hrj.toStreamLawful hformats, hd]

include hrj hformats in
theorem conversion_eq {event : Bytes} (hne : event ≠ []) :
    p.conversion event = if dataLine event then [p.transformEvent event] else [] := by
  have hc : (p.transformEvent event).isEmpty = false := by
    simpa using transformEvent_ne_nil hrj hformats hne
  rw [conversion, hc, Bool.not_false, Bool.and_true]

include hrj hformats h in
theorem conversion_crlf_iff : p.conversion (crlf event) = p.conversion event ↔
    (dataLine event → lineBlind p.source event) := by
  have hne : crlf event ≠ [] := fun hn => h.ne_nil (crlf_eq_nil_iff.1 hn)
  rw [conversion_eq hrj hformats hne, conversion_eq hrj hformats h.ne_nil, dataLine_crlf h]
  cases hl : dataLine event with
  | false => simp
  | true =>
    simp only [if_true, List.cons.injEq, and_true, true_implies]
    constructor
    · intro heq
      by_contra hblind
      rw [Bool.not_eq_true] at hblind
      exact transformEvent_crlf_ne hrj hformats h hl hblind heq
    · exact transformEvent_crlf hrj hformats h

include hrj hformats in
theorem policyContent_transformEvent {event : Bytes} (hne : event ≠ []) :
    policyContent event (p.transformEvent event) = p.transformEvent event := by
  have hc : (p.transformEvent event).isEmpty = false := by
    simpa using transformEvent_ne_nil hrj hformats hne
  rw [policyContent, hc]
  rfl

end

end StreamPipe

end Gateway.Forwarder
