import Gateway.Forwarder.LineEndings
import Gateway.Forwarder.StreamEnd
import Mathlib.Algebra.Order.BigOperators.Group.List
import Mathlib.Algebra.Order.Ring.Nat

/-! # Streams with both line endings -/

namespace Gateway.Forwarder

open Lib JsonText Protocol Cutter List
open Protocol (Format)

variable {event bytes : Bytes} {events : List Bytes} {decision : StreamPolicyDecision}

namespace StreamPipe

section

variable {p : StreamPipe} (hrj : LineLawful p.rj) (hformats : p.source ≠ p.target)

include hrj hformats in
theorem verdict_crlf (h : LfEvent event) (hblind : dataLine event → lineBlind p.source event)
    (hq : dataLine event = false → p.config.policy = none ∨ p.exempt event) (n : Nat) :
    p.verdict n (crlf event) (p.transformEvent (crlf event)) =
      p.verdict n event (p.transformEvent event) := by
  cases hl : dataLine event with
  | true =>
    have hne : crlf event ≠ [] := fun hn => h.ne_nil (crlf_eq_nil_iff.1 hn)
    unfold verdict
    rw [exempt_crlf h, policyContent_transformEvent hrj hformats hne,
      policyContent_transformEvent hrj hformats h.ne_nil,
      transformEvent_crlf hrj hformats h (hblind hl)]
  | false =>
    unfold verdict
    rcases hq hl with hp | he
    · rw [hp]
    · rw [exempt_crlf h, he]
      cases p.config.policy <;> rfl

include hrj hformats in
theorem tellNext_crlf (h : LfEvent event) (hblind : dataLine event → lineBlind p.source event)
    (hq : dataLine event = false → p.config.policy = none ∨ p.exempt event)
    (o : Outcome × Nat) : p.tellNext o (crlf event) = p.tellNext o event := by
  unfold tellNext
  rw [noteEvent_crlf h, verdict_crlf hrj hformats h hblind hq,
    (conversion_crlf_iff hrj hformats h).2 hblind]

include hrj hformats in
theorem tellAll_crlf (hcr : 13 ∉ bytes)
    (hblind : ∀ event ∈ (nextEvent.frames bytes).1, dataLine event → lineBlind p.source event)
    (hq : ∀ event ∈ (nextEvent.frames bytes).1, dataLine event = false → p.config.policy = none ∨
      p.exempt event) : p.tellAll (crlf bytes) = p.tellAll bytes := by
  have hf : ∀ (events : List Bytes) (o : Outcome × Nat),
      (∀ event ∈ events, event ∈ (nextEvent.frames bytes).1) →
      (events.map crlf).foldlM p.tellNext o = events.foldlM p.tellNext o := by
    intro events
    induction events with
    | nil => exact fun o _ => rfl
    | cons event events ih =>
      intro o hm
      rw [forall_mem_cons] at hm
      rw [map_cons, foldlM_cons, foldlM_cons,
        tellNext_crlf hrj hformats (lfEvent_of_mem_frames hcr hm.1) (hblind event hm.1)
          (hq event hm.1)]
      cases p.tellNext o event with
      | error o' => rfl
      | ok o' => exact ih o' hm.2
  unfold tellAll
  rw [frames_crlf hcr, hf _ _ fun event he => he]

theorem tellNext_passed {o : Outcome × Nat}
    (h : (p.verdict o.2 event (p.transformEvent event)).1 = none) : ∃ n, p.tellNext o event = .ok (
      { converted := o.1.converted ++ p.conversion event
        result := p.noteEvent event o.1.result }, n) := by
  unfold tellNext
  cases hv : p.verdict o.2 event (p.transformEvent event) with
  | mk refusal n => rw [hv] at h; cases h; exact ⟨n, rfl⟩

theorem foldlM_tellNext_of_passes
    (hp : ∀ event ∈ events, ∀ n, (p.verdict n event (p.transformEvent event)).1 = none)
    (o : Outcome × Nat) : ∃ n, events.foldlM p.tellNext o = .ok (
      { converted := o.1.converted ++ events.flatMap p.conversion
        result := events.foldl (fun r event => p.noteEvent event r) o.1.result }, n) := by
  induction events generalizing o with
  | nil => exact ⟨o.2, by simp [pure, Except.pure]⟩
  | cons event events ih =>
    rw [forall_mem_cons] at hp
    obtain ⟨m, hs⟩ := tellNext_passed (hp.1 o.2)
    obtain ⟨n, hn⟩ := ih hp.2 (
      { converted := o.1.converted ++ p.conversion event
        result := p.noteEvent event o.1.result }, m)
    refine ⟨n, ?_⟩
    rw [foldlM_cons, hs, ok_bind, hn, flatMap_cons, foldl_cons, append_assoc]

theorem tellAll_of_passes (hp : ∀ event ∈ (nextEvent.frames bytes).1, ∀ n,
      (p.verdict n event (p.transformEvent event)).1 = none) : p.tellAll bytes = {
      converted := (nextEvent.frames bytes).1.flatMap p.conversion
      result := (nextEvent.frames bytes).1.foldl (fun r event => p.noteEvent event r) {} } := by
  obtain ⟨n, hn⟩ := foldlM_tellNext_of_passes hp ({}, 0)
  unfold tellAll
  rw [hn]
  rfl

theorem verdict_of_no_policy (hp : p.config.policy = none) (n : Nat)
    (provider client : Bytes) : (p.verdict n provider client).1 = none := by
  unfold verdict
  rw [hp]

theorem foldl_noteEvent_crlf (h : ∀ event ∈ events, LfEvent event) (r : StreamResult) :
    (events.map crlf).foldl (fun r event => p.noteEvent event r) r =
      events.foldl (fun r event => p.noteEvent event r) r := by
  induction events generalizing r with
  | nil => rfl
  | cons event events ih =>
    rw [forall_mem_cons] at h
    rw [map_cons, foldl_cons, foldl_cons, noteEvent_crlf h.1]; exact ih h.2 _

theorem result_crlf (hcr : 13 ∉ bytes) (hp : p.config.policy = none) :
    (p.tellAll (crlf bytes)).result = (p.tellAll bytes).result := by
  rw [tellAll_of_passes fun event _ n => verdict_of_no_policy hp n _ _,
    tellAll_of_passes fun event _ n => verdict_of_no_policy hp n _ _, frames_crlf hcr]
  exact foldl_noteEvent_crlf (fun event he => lfEvent_of_mem_frames hcr he) {}

include hrj hformats in
theorem converted_crlf_iff (hcr : 13 ∉ bytes) (hp : p.config.policy = none) :
    (p.tellAll (crlf bytes)).converted = (p.tellAll bytes).converted ↔
      ∀ event ∈ (nextEvent.frames bytes).1, dataLine event → lineBlind p.source event := by
  have hlf : ∀ event ∈ (nextEvent.frames bytes).1, LfEvent event :=
    fun event he => lfEvent_of_mem_frames hcr he
  rw [tellAll_of_passes fun event _ n => verdict_of_no_policy hp n _ _,
    tellAll_of_passes fun event _ n => verdict_of_no_policy hp n _ _, frames_crlf hcr,
    flatMap_map, flatMap_eq_flatMap_iff]
  · exact forall₂_congr fun event he => conversion_crlf_iff hrj hformats (hlf event he)
  · intro event he
    have h := hlf event he
    have hne : crlf event ≠ [] := fun hn => h.ne_nil (crlf_eq_nil_iff.1 hn)
    rw [conversion_eq hrj hformats hne, conversion_eq hrj hformats h.ne_nil, dataLine_crlf h]
    cases dataLine event <;> exact le_rfl

end

def underPolicy (p : StreamPipe) (policy : Option StreamPolicyFn) (limit : Nat) : StreamPipe :=
  { p with config := { p.config with policy := policy, maxPolicyEventBytes := limit } }

theorem Patient.underPolicy {p : StreamPipe} {env : Surroundings} (h : Patient p env)
    (policy : Option StreamPolicyFn) (limit : Nat) : Patient (p.underPolicy policy limit) env :=
  ⟨h.takes, h.inTime⟩

def refusing (content : Bytes) : StreamPolicyFn := fun _ shown =>
  { disposition := if shown = content then .block else .allow }

theorem policyBlocked_noteEvent (p : StreamPipe) (event : Bytes) (r : StreamResult) :
    (p.noteEvent event r).policyBlocked = r.policyBlocked := by
  unfold noteEvent noteTerminal readUsage
  split <;> split <;> rfl

theorem policyBlocked_foldl_noteEvent (p : StreamPipe) (events : List Bytes) (r : StreamResult) :
    (events.foldl (fun r event => p.noteEvent event r) r).policyBlocked = r.policyBlocked := by
  induction events generalizing r with
  | nil => rfl
  | cons event events ih => rw [foldl_cons, ih, policyBlocked_noteEvent]

theorem policyBlocked_refused (h : decision.disposition = .block) (r : StreamResult) :
    (told (refused decision r)).policyBlocked := by
  change (decision.disposition == .block)
  rw [h]
  rfl

section

variable {p : StreamPipe}

theorem policyBlocked_of_refusal (hblock : decision.disposition = .block)
    (hv : ∀ event ∈ events, (∀ n, (p.verdict n event (p.transformEvent event)).1 = none) ∨ ∀ n,
      (p.verdict n event (p.transformEvent event)).1 = some decision)
    (ho : ∃ event ∈ events, ∀ n, (p.verdict n event (p.transformEvent event)).1 = some decision)
    (o : Outcome × Nat) :
    ∃ o', events.foldlM p.tellNext o = .error o' ∧ o'.result.policyBlocked := by
  induction events generalizing o with
  | nil => simp at ho
  | cons event events ih =>
    rw [forall_mem_cons] at hv
    rw [foldlM_cons]
    rcases hv.1 with hp | hr
    · obtain ⟨m, hs⟩ := tellNext_passed (hp o.2)
      have hl : ∃ event ∈ events, ∀ n,
          (p.verdict n event (p.transformEvent event)).1 = some decision := by
        obtain ⟨event', hmem, hr⟩ := ho
        rcases mem_cons.1 hmem with rfl | hmem
        · have hbo := hr 0
          rw [hp 0] at hbo; cases hbo
        · exact ⟨event', hmem, hr⟩
      rw [hs, ok_bind]; exact ih hv.2 hl _
    · obtain ⟨m, hm⟩ : ∃ m, p.verdict o.2 event (p.transformEvent event) = (some decision, m) :=
        ⟨_, Prod.ext (hr o.2) rfl⟩
      have hs : p.tellNext o event = .error { o.1 with
          result := told (refused decision (p.noteEvent event o.1.result)) } := by
        unfold tellNext
        rw [hm]
      rw [hs]
      exact ⟨_, rfl, policyBlocked_refused hblock _⟩

variable (hrj : LineLawful p.rj) (hformats : p.source ≠ p.target)

include hrj hformats

theorem verdict_refusing {content : Bytes} {limit : Nat} (hne : event ≠ [])
    (hl : (p.transformEvent event).length ≤ limit) (n : Nat) :
    ((p.underPolicy (some (refusing content)) limit).verdict n event (p.transformEvent event)).1 =
      if p.exempt event = false ∧ p.transformEvent event = content then
        some { disposition := .block } else none := by
  have hsh : policyContent event (p.transformEvent event) = p.transformEvent event :=
    policyContent_transformEvent hrj hformats hne
  have hsi : ¬ (p.transformEvent event).length >
      (p.underPolicy (some (refusing content)) limit).config.maxPolicyEventBytes :=
    Nat.not_lt.2 hl
  have he : (p.underPolicy (some (refusing content)) limit).exempt event = p.exempt event := rfl
  have hp : (p.underPolicy (some (refusing content)) limit).config.policy =
      some (refusing content) := rfl
  unfold verdict
  rw [hp]
  simp only [he, hsh, hsi, if_false]
  by_cases hs : p.exempt event
  · simp [hs]
  · rw [Bool.not_eq_true] at hs
    by_cases hc : p.transformEvent event = content
    · simp [hs, hc, refusing]
    · simp [hs, hc, refusing]

theorem exists_policy_of_not_exempt (hcr : 13 ∉ bytes) (hev : event ∈ (nextEvent.frames bytes).1)
    (hli : dataLine event = false) (hex : p.exempt event = false) : ∃ policy limit,
      (p.underPolicy policy limit).tellAll (crlf bytes) ≠
        (p.underPolicy policy limit).tellAll bytes := by
  have hlf : ∀ e ∈ (nextEvent.frames bytes).1, LfEvent e := fun e he => lfEvent_of_mem_frames hcr he
  obtain ⟨limit, hl⟩ : ∃ limit, ∀ e ∈ (nextEvent.frames bytes).1 ++
      (nextEvent.frames bytes).1.map crlf, (p.transformEvent e).length ≤ limit := by
    refine ⟨(((nextEvent.frames bytes).1 ++ (nextEvent.frames bytes).1.map crlf).map
      fun e => (p.transformEvent e).length).sum, ?_⟩
    intro e he
    exact single_le_sum (fun _ _ => Nat.zero_le _) _ (mem_map_of_mem he)
  refine ⟨some (refusing event), limit, fun hs => ?_⟩
  have hd : hasData event = false := by rw [hasData, dataPayload_of_no_line hli]; rfl
  have hse : p.transformEvent event = event := transformEvent_of_no_data hd
  have hblocked : ((p.underPolicy (some (refusing event))
    limit).tellAll bytes).result.policyBlocked =
      true := by
    have hv : ∀ e ∈ (nextEvent.frames bytes).1, ∀ n,
        ((p.underPolicy (some (refusing event)) limit).verdict n e (p.transformEvent e)).1 =
          if p.exempt e = false ∧ p.transformEvent e = event then
            some { disposition := .block } else none := fun e he n =>
      verdict_refusing hrj hformats (hlf e he).ne_nil
        (hl e (mem_append_left _ he)) n
    have hblo : ({ disposition := .block } : StreamPolicyDecision).disposition = .block := rfl
    have hve : ∀ e ∈ (nextEvent.frames bytes).1,
        (∀ n, ((p.underPolicy (some (refusing event)) limit).verdict n e
          (p.transformEvent e)).1 = none) ∨
        ∀ n, ((p.underPolicy (some (refusing event)) limit).verdict n e
          (p.transformEvent e)).1 = some { disposition := .block } := by
      intro e he
      by_cases hh : p.exempt e = false ∧ p.transformEvent e = event
      · exact Or.inr fun n => (hv e he n).trans (if_pos hh)
      · exact Or.inl fun n => (hv e he n).trans (if_neg hh)
    obtain ⟨o', hf, hre⟩ := policyBlocked_of_refusal hblo hve
      ⟨event, hev, fun n => (hv event hev n).trans (if_pos ⟨hex, hse⟩)⟩ ({}, 0)
    unfold tellAll
    rw [hf]; exact hre
  have ho : ∀ e ∈ (nextEvent.frames bytes).1, p.transformEvent (crlf e) ≠ event := by
    intro e he heq
    cases hel : dataLine e with
    | true =>
      have hr := hasData_transformEvent hrj.toStreamLawful hformats (crlf e)
      rw [heq, hd, (hlf e he).hasData_crlf, hel] at hr; cases hr
    | false =>
      have hra : hasData (crlf e) = false := (hlf e he).hasData_crlf.trans hel
      rw [transformEvent_of_no_data hra] at heq
      exact (hlf event hev).noCr (heq ▸ (hlf e he).cr_mem_crlf)
  have hp : ((p.underPolicy (some (refusing event)) limit).tellAll
      (crlf bytes)).result.policyBlocked = false := by
    rw [tellAll_of_passes, policyBlocked_foldl_noteEvent]
    intro e' he' n
    rw [frames_crlf hcr] at he'
    obtain ⟨e, he, rfl⟩ := mem_map.1 he'
    have hne : crlf e ≠ [] := fun hn => (hlf e he).ne_nil (crlf_eq_nil_iff.1 hn)
    refine (verdict_refusing hrj hformats hne
      (hl _ (mem_append_right _ (mem_map_of_mem he))) n).trans (if_neg ?_)
    exact fun hh => ho e he hh.2
  rw [hs, hblocked] at hp
  cases hp

end

theorem line_endings_iff {p : StreamPipe} {env env' : Surroundings} {chunks chunks' : List Bytes}
    (hrj : LineLawful p.rj) (hmode : p.mode ≠ .passthrough) (hformats : p.source ≠ p.target)
    (hpatient : Patient p env) (hpatient' : Patient p env') (hne : ∀ chunk ∈ chunks, chunk ≠ [])
    (hne' : ∀ chunk ∈ chunks', chunk ≠ []) (hcr : 13 ∉ chunks.flatten)
    (hcrlf : chunks'.flatten = crlf chunks.flatten) : (∀ limit,
      (outcome ((p.underPolicy none limit).run env' (chunks'.map .bytes))).result =
        (outcome ((p.underPolicy none limit).run env (chunks.map .bytes))).result ∧
      ((outcome ((p.underPolicy none limit).run env' (chunks'.map .bytes))).converted =
          (outcome ((p.underPolicy none limit).run env (chunks.map .bytes))).converted ↔
        ∀ event ∈ (nextEvent.frames chunks.flatten).1,
          dataLine event = true → lineBlind p.source event = true)) ∧
    ((∀ policy limit, outcome ((p.underPolicy policy limit).run env' (chunks'.map .bytes)) =
        outcome ((p.underPolicy policy limit).run env (chunks.map .bytes))) ↔
      ∀ event ∈ (nextEvent.frames chunks.flatten).1,
        (dataLine event = true → lineBlind p.source event = true) ∧
          (dataLine event = false → p.exempt event = true)) := by
  have hrun : ∀ policy limit, outcome ((p.underPolicy policy limit).run env (chunks.map .bytes)) =
      (p.underPolicy policy limit).tellAll chunks.flatten := by
    intro policy limit
    have hmode : (p.underPolicy policy limit).mode ≠ .passthrough := hmode
    exact outcome_run hmode (hpatient.underPolicy policy limit) chunks hne
  have hrun' : ∀ policy limit,
      outcome ((p.underPolicy policy limit).run env' (chunks'.map .bytes)) =
        (p.underPolicy policy limit).tellAll (crlf chunks.flatten) := by
    intro policy limit
    have hmode : (p.underPolicy policy limit).mode ≠ .passthrough := hmode
    rw [outcome_run hmode (hpatient'.underPolicy policy limit) chunks' hne', hcrlf]
  have hconverted : ∀ limit, ((p.underPolicy none limit).tellAll (crlf chunks.flatten)).converted =
      ((p.underPolicy none limit).tellAll chunks.flatten).converted ↔
        ∀ event ∈ (nextEvent.frames chunks.flatten).1,
          dataLine event → lineBlind p.source event := by
    intro limit
    have hrj : LineLawful (p.underPolicy none limit).rj := hrj
    have hpolicy : (p.underPolicy none limit).config.policy = none := rfl
    exact converted_crlf_iff hrj hformats hcr hpolicy
  simp only [hrun, hrun']
  refine ⟨fun limit => ⟨result_crlf hcr rfl, hconverted limit⟩, ?_, ?_⟩
  · intro hsame event hevent
    refine ⟨(hconverted 0).1 (congrArg Outcome.converted (hsame none 0)) event hevent, ?_⟩
    intro hline
    by_contra hexempt
    rw [Bool.not_eq_true] at hexempt
    obtain ⟨policy, limit, hdiffer⟩ :=
      exists_policy_of_not_exempt hrj hformats hcr hevent hline hexempt
    exact hdiffer (hsame policy limit)
  · intro hevents policy limit
    have hrj : LineLawful (p.underPolicy policy limit).rj := hrj
    exact tellAll_crlf hrj hformats hcr (fun event hevent => (hevents event hevent).1)
      fun event hevent hline => Or.inr ((hevents event hevent).2 hline)

end StreamPipe

def lineJson : RapidJson where
  parse b := compact.parse (trimCr b)
  write := compact.write

theorem parse_lineJson (b : Bytes) : lineJson.parse b = compact.parse (trimCr b) := rfl

theorem write_lineJson (doc : Json) : lineJson.write doc = compact.write doc := rfl

theorem parse_lineJson_of_not_mem {b : Bytes} (h : 13 ∉ b) {r : Option Json}
    (hp : compact.parse b = r) : lineJson.parse b = r := by
  rw [parse_lineJson, trimCr_of_not_mem h]
  exact hp

theorem trimCr_done (n : Nat) : trimCr (ascii "[DONE]" ++ replicate n 13) = ascii "[DONE]" := by
  induction n with
  | zero => decide
  | succ n ih => rw [replicate_succ', ← append_assoc, trimCr_concat_cr, ih]

theorem lineLawful_lineJson : LineLawful lineJson where
  parse_write doc := by
    rw [write_lineJson]
    exact parse_lineJson_of_not_mem (streamLawful_compact.write_oneLine doc).2
      (lawful_compact.parse_write doc)
  parse_nil := parse_lineJson_of_not_mem not_mem_nil lawful_compact.parse_nil
  write_nulFree := lawful_compact.write_nulFree
  write_oneLine := streamLawful_compact.write_oneLine
  write_head := streamLawful_compact.write_head
  parse_done_cr n := by rw [parse_lineJson, trimCr_done]; exact streamLawful_compact.parse_done
  parse_completed := parse_lineJson_of_not_mem (by decide) streamLawful_compact.parse_completed
  parse_cr b := by rw [parse_lineJson, parse_lineJson, trimCr_concat_cr]

namespace StreamPipe

def linePipe : StreamPipe := { pipeBetween .openAIChatCompletions .anthropic with rj := lineJson }

theorem patient_linePipe : Patient linePipe patientClient := patientClient_patient linePipe

def chunkStream : Bytes := "data: \x7b\"choices\":[]\x7d\n\n"

theorem frames_of_payload {payload : Bytes} (h : Sendable payload) :
    (nextEvent.frames (eventOf (eventLines ([], payload)))).1 =
      [eventOf (eventLines ([], payload))] := by
  have hc : nextEvent.cut (eventOf (eventLines ([], payload))) =
      some (eventOf (eventLines ([], payload)), []) := cut_eventLines sendable_nil h
  rw [frames_of_some hc, frames_of_none (show nextEvent.cut [] = none from rfl)]

theorem chunkStream_eq : chunkStream =
    eventOf (eventLines ([], ascii "\x7b\"choices\":[]\x7d")) := by decide

theorem sendable_chunk : Sendable "\x7b\"choices\":[]\x7d" :=
  ⟨by decide, by decide, by decide⟩

theorem frames_chunkStream : (nextEvent.frames chunkStream).1 = [chunkStream] := by
  rw [chunkStream_eq]
  exact frames_of_payload sendable_chunk

theorem dataPayload_chunkStream : dataPayload chunkStream = "\x7b\"choices\":[]\x7d" := by
  rw [chunkStream_eq]
  exact dataPayload_eventLines sendable_nil sendable_chunk

theorem lineBlind_chunkStream : lineBlind .openAIChatCompletions chunkStream := by
  rw [lineBlind, hasData, dataPayload_chunkStream]
  decide

theorem dataLine_chunkStream : dataLine chunkStream := by
  refine LfEvent.dataLine_of_hasData ?_
  rw [hasData, dataPayload_chunkStream]
  decide

theorem not_mem_chunkStream : 13 ∉ chunkStream := by decide

theorem chunkStream_ne_nil : chunkStream ≠ [] := by decide

theorem chunk_either_way :
    outcome ((linePipe.underPolicy (some (refusing [])) 4096).run patientClient
        ([crlf chunkStream].map .bytes)) =
      outcome ((linePipe.underPolicy (some (refusing [])) 4096).run patientClient
        ([chunkStream].map .bytes)) := by
  have hmode : linePipe.mode ≠ .passthrough := by decide
  have hformats : linePipe.source ≠ linePipe.target := by decide
  have hne : ∀ chunk ∈ [chunkStream], chunk ≠ [] := forall_mem_singleton.2 chunkStream_ne_nil
  have hne' : ∀ chunk ∈ [crlf chunkStream], chunk ≠ [] :=
    forall_mem_singleton.2 fun hnil => chunkStream_ne_nil (crlf_eq_nil_iff.1 hnil)
  have hcr : 13 ∉ [chunkStream].flatten := by rw [flatten_singleton]; exact not_mem_chunkStream
  have hcrlf : [crlf chunkStream].flatten = crlf [chunkStream].flatten := by
    rw [flatten_singleton, flatten_singleton]
  refine (line_endings_iff lineLawful_lineJson hmode hformats patient_linePipe patient_linePipe
    hne hne' hcr hcrlf).2.2 ?_ (some (refusing [])) 4096
  rw [flatten_singleton, frames_chunkStream, forall_mem_singleton]
  refine ⟨fun _ => lineBlind_chunkStream, fun hline => ?_⟩
  rw [dataLine_chunkStream] at hline
  cases hline

def endStream : Bytes := "data: [DONE]\n\n"

theorem endStream_eq : endStream = eventOf (eventLines ([], ascii "[DONE]")) := by decide

theorem frames_endStream : (nextEvent.frames endStream).1 = [endStream] := by
  rw [endStream_eq]
  exact frames_of_payload sendable_done

theorem dataPayload_endStream : dataPayload endStream = "[DONE]" := by
  rw [endStream_eq]
  exact dataPayload_eventLines sendable_nil sendable_done

theorem dataLine_endStream : dataLine endStream := by
  refine LfEvent.dataLine_of_hasData ?_
  rw [hasData, dataPayload_endStream]
  decide

theorem lineBlind_endStream : lineBlind .openAIChatCompletions endStream = false := by
  rw [lineBlind, hasData, dataPayload_endStream]
  decide

theorem endStream_ne_nil : endStream ≠ [] := by decide

theorem end_lost_with_crlf : 13 ∉ endStream ∧
      (outcome ((linePipe.underPolicy none 0).run patientClient
          ([crlf endStream].map .bytes))).converted ≠
        (outcome ((linePipe.underPolicy none 0).run patientClient
          ([endStream].map .bytes))).converted := by
  have hcr : 13 ∉ endStream := by decide
  refine ⟨hcr, ?_⟩
  have hmode : (linePipe.underPolicy none 0).mode ≠ .passthrough := by
    change linePipe.mode ≠ .passthrough; decide
  have hformats : (linePipe.underPolicy none 0).source ≠ (linePipe.underPolicy none 0).target := by
    change linePipe.source ≠ linePipe.target; decide
  have hpatient := patient_linePipe.underPolicy none 0
  have hpolicy : (linePipe.underPolicy none 0).config.policy = none := rfl
  have hrj : LineLawful (linePipe.underPolicy none 0).rj := lineLawful_lineJson
  have hne : ∀ chunk ∈ [endStream], chunk ≠ [] := forall_mem_singleton.2 endStream_ne_nil
  have hne' : ∀ chunk ∈ [crlf endStream], chunk ≠ [] :=
    forall_mem_singleton.2 fun hnil => endStream_ne_nil (crlf_eq_nil_iff.1 hnil)
  rw [outcome_run hmode hpatient _ hne, outcome_run hmode hpatient _ hne', flatten_singleton,
    flatten_singleton, ne_eq, converted_crlf_iff hrj hformats hcr hpolicy, frames_endStream,
    forall_mem_singleton]
  intro hblind
  have hblind : lineBlind .openAIChatCompletions endStream := hblind dataLine_endStream
  rw [lineBlind_endStream] at hblind
  cases hblind

end StreamPipe

end Gateway.Forwarder
