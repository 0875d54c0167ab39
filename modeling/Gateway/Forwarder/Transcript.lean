import Gateway.Forwarder.Chunking
import Gateway.Protocol.StreamRereading

/-! # The stream that a client reads -/

namespace Gateway.Forwarder

open Lib JsonText Protocol Cutter List
open Protocol (Format StreamDelta StreamLawful)

def eventOf (ls : List Bytes) : Bytes := ls.flatMap (· ++ [10]) ++ [10]

theorem eventOf_cons (l : Bytes) (ls : List Bytes) : eventOf (l :: ls) = l ++ 10 :: eventOf ls := by
  simp [eventOf]

variable {ls : List Bytes}

theorem lines_eventOf (h : ∀ l ∈ ls, 10 ∉ l) : lines (eventOf ls) = ls ++ [[], []] := by
  induction ls with
  | nil => rfl
  | cons l ls ih =>
    rw [eventOf_cons, lines_append (h l mem_cons_self), ih fun k hk => h k (mem_cons_of_mem l hk)]
    rfl

variable {l : Bytes}

theorem find_eventOf (h : ∀ k ∈ l :: ls, k ≠ [] ∧ 10 ∉ k) :
    find "\n\n" (eventOf (l :: ls)) = some ((eventOf (l :: ls)).length - 2) := by
  induction ls generalizing l with
  | nil =>
    have hl := (h l mem_cons_self).2
    rw [eventOf_cons]
    have hf : find "\n\n" (l ++ 10 :: eventOf []) = (find "\n\n" (10 :: eventOf [])).map _ :=
      find_append_of_not_mem hl _
    rw [hf]
    simp [eventOf, show find "\n\n" [10, 10] = some 0 from rfl]
  | cons k ls ih =>
    have hl := (h l mem_cons_self).2
    obtain ⟨hk, hlf⟩ := h k (mem_cons_of_mem l mem_cons_self)
    have hr := ih fun x hx => h x (mem_cons_of_mem l hx)
    have hf : find "\n\n" (l ++ 10 :: eventOf (k :: ls)) =
        (find "\n\n" (10 :: eventOf (k :: ls))).map _ := find_append_of_not_mem hl _
    obtain ⟨c, cs, rfl⟩ := exists_cons_of_ne_nil hk
    have hc : (10 : UInt8) ≠ c := fun heq => hlf (heq ▸ mem_cons_self)
    have hat : ¬ isPrefixOf (ascii "\n\n") (10 :: eventOf ((c :: cs) :: ls)) := by
      rw [eventOf_cons, show ascii "\n\n" = [10, 10] from rfl]
      simp [isPrefixOf, hc]
    rw [eventOf_cons, hf, find, if_neg hat, hr]
    have hlo : 2 ≤ (eventOf ((c :: cs) :: ls)).length := by
      rw [eventOf_cons]
      simp only [length_append, length_cons]; omega
    simp only [Option.map_some, length_append, length_cons, Option.some.injEq]; omega

theorem cut_eventOf (h : ∀ k ∈ l :: ls, k ≠ [] ∧ 10 ∉ k ∧ 13 ∉ k) :
    nextEvent.cut (eventOf (l :: ls)) = some (eventOf (l :: ls), []) := by
  have hlf := find_eventOf fun k hk => ⟨(h k hk).1, (h k hk).2.1⟩
  have hcr : 13 ∉ eventOf (l :: ls) := by
    intro hm
    rcases mem_append.1 hm with hm | hm
    · obtain ⟨k, hk, hm⟩ := mem_flatMap.1 hm
      rcases mem_append.1 hm with hm | hm
      · exact (h k hk).2.2 hm
      · revert hm
        decide
    · revert hm
      decide
  have hc : find "\r\n\r\n" (eventOf (l :: ls)) = none := find_eq_none_of_not_mem hcr
  have hl : 2 ≤ (eventOf (l :: ls)).length := by
    rw [eventOf_cons, eventOf]
    simp only [length_append, length_cons, length_nil]; omega
  change cutEvent _ = _
  simp only [cutEvent, delimiter, hlf, hc, Option.map_some, Nat.sub_add_cancel hl,
    take_length, drop_length]

theorem cut_frame {b f r : Bytes} (h : nextEvent.cut b = some (f, r)) :
    nextEvent.cut f = some (f, []) := by
  have hb := nextEvent.cut_append h
  subst hb
  cases hf : nextEvent.cut f with
  | none => exact absurd (length_lt_of_cutEvent_append hf h) (lt_irrefl _)
  | some fr =>
    obtain ⟨g, s⟩ := fr
    have hbo := nextEvent.cut_extend r hf
    rw [h, Option.some.injEq, Prod.mk.injEq] at hbo
    obtain ⟨rfl, hr⟩ := hbo
    rw [self_eq_append_left.1 hr]

variable {event : Bytes}

theorem cut_of_mem_frames {bytes : Bytes} (h : event ∈ (nextEvent.frames bytes).1) :
    nextEvent.cut event = some (event, []) := by
  obtain ⟨b, r, hc⟩ := exists_cut_of_mem_frames h
  exact cut_frame hc

theorem fieldValue_field {name value : Bytes} (h : value.head? ≠ some 32) :
    fieldValue name (name ++ 32 :: value) = some value := by
  have hat : startsWith (name ++ 32 :: value) name := isPrefixOf_iff_prefix.2 (prefix_append _ _)
  have hs : (32 :: value).dropWhile (· = 32) = value := by
    cases value with
    | nil => rfl
    | cons c cs =>
      have hc : c ≠ 32 := fun heq => h (heq ▸ rfl)
      simp [hc]
  rw [fieldValue, if_pos hat, drop_left, hs]

theorem trimCr_of_not_mem {b : Bytes} (h : 13 ∉ b) : trimCr b = b := by
  unfold trimCr
  rw [rdropWhile_eq_self_iff]
  intro hne hl
  exact h ((of_decide_eq_true hl) ▸ getLast_mem hne)

def eventLines (e : Bytes × Bytes) : List Bytes :=
  (if e.1.isEmpty then [] else ["event:" ++ 32 :: e.1]) ++ ["data:" ++ 32 :: e.2]

structure Sendable (b : Bytes) : Prop where
  noLf : 10 ∉ b
  noCr : 13 ∉ b
  head : b.head? ≠ some 32

theorem sendable_nil : Sendable [] := ⟨by decide, by decide, by decide⟩

theorem sendable_done : Sendable "[DONE]" := ⟨by decide, by decide, by decide⟩

section

variable {e : Bytes × Bytes} (hname : Sendable e.1) (hdata : Sendable e.2)

include hname hdata

theorem isLine_of_mem_eventLines (h : l ∈ eventLines e) : l ≠ [] ∧ 10 ∉ l ∧ 13 ∉ l := by
  have hl : ∀ {field value : Bytes}, field ≠ [] → 10 ∉ field → 13 ∉ field → Sendable value →
      field ++ 32 :: value ≠ [] ∧ 10 ∉ field ++ 32 :: value ∧ 13 ∉ field ++ 32 :: value := by
    intro field value hne hlf hcr hv
    refine ⟨by simp, ?_, ?_⟩
    · simp [hlf, hv.noLf]
    · simp [hcr, hv.noCr]
  rcases mem_append.1 h with h | h
  · split at h
    · cases h
    · rw [mem_singleton] at h; subst h; exact hl (by decide) (by decide) (by decide) hname
  · rw [mem_singleton] at h; subst h; exact hl (by decide) (by decide) (by decide) hdata

theorem cut_eventLines :
    nextEvent.cut (eventOf (eventLines e)) = some (eventOf (eventLines e), []) := by
  have hl := fun l h => isLine_of_mem_eventLines hname hdata (l := l) h
  cases hls : eventLines e with
  | nil => exact absurd hls (by simp [eventLines])
  | cons l ls => rw [hls] at hl; exact cut_eventOf hl

theorem eventType_eventLines : eventType (eventOf (eventLines e)) = e.1 := by
  have hd : fieldValue "event:" ("data:" ++ 32 :: e.2) = none := rfl
  unfold eventType
  rw [lines_eventOf fun l h => (isLine_of_mem_eventLines hname hdata h).2.1, foldl_append]
  unfold eventLines
  cases hn : e.1 with
  | nil => simp only [isEmpty_nil, if_true, nil_append, foldl_cons, foldl_nil, hd]; rfl
  | cons c cs =>
    have hf : fieldValue "event:" ("event:" ++ 32 :: (c :: cs)) = some (c :: cs) :=
      fieldValue_field (hn ▸ hname.head)
    have ht : trimCr (c :: cs) = c :: cs := trimCr_of_not_mem (hn ▸ hname.noCr)
    simp only [isEmpty_cons, Bool.false_eq_true, if_false, cons_append, nil_append,
      foldl_cons, foldl_nil, hf, hd, Option.map_some, ht]
    rfl

theorem dataPayload_eventLines : dataPayload (eventOf (eventLines e)) = e.2 := by
  have hf : fieldValue "data:" ("data:" ++ 32 :: e.2) = some e.2 := fieldValue_field hdata.head
  have hn : ∀ n : Bytes, fieldValue "data:" ("event:" ++ 32 :: n) = none := fun n => rfl
  unfold dataPayload
  rw [lines_eventOf fun l h => (isLine_of_mem_eventLines hname hdata h).2.1, foldl_append]
  unfold eventLines
  cases e.1 with
  | nil => simp only [isEmpty_nil, if_true, nil_append, foldl_cons, foldl_nil, hf]; rfl
  | cons c cs =>
    simp only [isEmpty_cons, Bool.false_eq_true, if_false, cons_append, nil_append,
      foldl_cons, foldl_nil, hf, hn]
    rfl

end

section

variable {rj : RapidJson} (hrj : StreamLawful rj)

theorem serializeStreamEvent_eq (rj : RapidJson) (target : Format) (d : StreamDelta) :
    Converter.serializeStreamEvent rj target d =
      eventOf (eventLines (writtenEvent rj target d)) := by
  have hp : ∀ payload : Bytes, eventOf (eventLines ([], payload)) =
      ascii "data: " ++ payload ++ ascii "\n\n" := by
    intro payload
    simp [eventOf, eventLines, ascii]
  have hn : ∀ c name payload, eventOf (eventLines (c :: name, payload)) =
      ascii "event: " ++ (c :: name) ++ ascii "\ndata: " ++ payload ++ ascii "\n\n" := by
    intro c name payload
    simp [eventOf, eventLines, ascii]
  cases target with
  | anthropic =>
    obtain ⟨c, name, hname⟩ : ∃ c name, (Anthropic.eventValue d).1 = c :: name := by
      rw [Anthropic.eventValue_fst]
      cases d.type <;> exact ⟨_, _, rfl⟩
    change _ = eventOf (eventLines ((Anthropic.eventValue d).1, _))
    rw [hname, hn, ← hname]; rfl
  | openAIChatCompletions =>
    change _ = eventOf (eventLines ([], _))
    rw [hp]
    by_cases hd : d.type = .done
    · rw [if_pos hd]; exact if_pos hd
    · rw [if_neg hd]; exact if_neg hd
  | openAIResponses =>
    obtain ⟨c, name, hname⟩ : ∃ c name, OpenAIResponses.eventName d.type = c :: name := by
      cases d.type <;> exact ⟨_, _, rfl⟩
    change _ = eventOf (eventLines (OpenAIResponses.eventName d.type, _))
    rw [hname, hn, ← hname]
    by_cases hd : d.type = .done
    · rw [if_pos hd, hd]; exact if_pos hd
    · rw [if_neg hd]; exact if_neg hd
  | gemini =>
    change _ = eventOf (eventLines ([], _))
    rw [hp]
    by_cases hd : d.type = .done
    · rw [if_pos hd]; exact if_pos hd
    · rw [if_neg hd]; exact if_neg hd

include hrj

theorem sendable_write (doc : Json) : Sendable (rj.write doc) :=
  ⟨(hrj.write_oneLine doc).1, (hrj.write_oneLine doc).2, hrj.write_head doc⟩

theorem sendable_writtenEvent (target : Format) (d : StreamDelta) :
    Sendable (writtenEvent rj target d).1 ∧ Sendable (writtenEvent rj target d).2 := by
  have hd : Sendable "[DONE]" := ⟨by decide, by decide, by decide⟩
  have hc : Sendable "\x7b\"type\":\"response.completed\"\x7d" :=
    ⟨by decide, by decide, by decide⟩
  have hor : ∀ {b : Bytes} (doc : Json), Sendable b →
      Sendable (if d.type = .done then b else rj.write doc) := by
    intro b doc hb
    split
    · exact hb
    · exact sendable_write hrj doc
  cases target with
  | anthropic =>
    refine ⟨?_, sendable_write hrj _⟩
    change Sendable (Anthropic.eventValue d).1
    rw [Anthropic.eventValue_fst]
    cases d.type <;> exact ⟨by decide, by decide, by decide⟩
  | openAIChatCompletions => exact ⟨sendable_nil, hor _ hd⟩
  | openAIResponses =>
    refine ⟨?_, hor _ hc⟩
    change Sendable (OpenAIResponses.eventName d.type)
    cases d.type <;> exact ⟨by decide, by decide, by decide⟩
  | gemini => exact ⟨sendable_nil, hor _ hd⟩

end

variable (rj : RapidJson)

def hasData (event : Bytes) : Bool := !(dataPayload event).isEmpty

def dataEvents (bytes : Bytes) : List Bytes := (nextEvent.frames bytes).1.filter hasData

def deltaRead (format : Format) (event : Bytes) : StreamDelta :=
  StreamPipe.parsedDelta
    (Converter.parseStreamEvent rj format (eventType event) (dataPayload event))

def deltas (format : Format) (bytes : Bytes) : List StreamDelta :=
  (dataEvents bytes).map (deltaRead rj format)

theorem deltaRead_eq (format : Format) (event : Bytes) :
    deltaRead rj format event = streamDelta rj format (eventType event) (dataPayload event) :=
  parseStreamEvent_eq rj format (eventType event) (dataPayload event)

def documentAt (event : Bytes) : Option Json :=
  (rj.parse (dataPayload event)).bind Json.object?

variable {source : Format}

theorem deltaRead_of_document {rj : RapidJson} {doc : Json}
    (hdo : isDonePayload source (dataPayload event) = false)
    (hd : documentAt rj event = some doc) (hok : chunkOk source doc) :
    deltaRead rj source event = deltaOf rj source (eventType event) doc := by
  unfold documentAt at hd
  simp [deltaRead_eq, streamDelta, hdo, readableDocument, hd, Option.filter_some, hok]

theorem deltaRead_of_no_document {rj : RapidJson}
    (hdo : isDonePayload source (dataPayload event) = false)
    (hd : documentAt rj event = none) : deltaRead rj source event = {} := by
  unfold documentAt at hd
  simp [deltaRead_eq, streamDelta, hdo, readableDocument, hd]

def streamOf (es : List (Bytes × Bytes)) : Bytes := es.flatMap fun e => eventOf (eventLines e)

theorem dataEvents_streamOf {es : List (Bytes × Bytes)}
    (h : ∀ e ∈ es, Sendable e.1 ∧ Sendable e.2 ∧ e.2 ≠ []) :
    dataEvents (streamOf es) = es.map fun e => eventOf (eventLines e) := by
  have hfr : nextEvent.frames (streamOf es) = (es.map fun e => eventOf (eventLines e), []) := by
    rw [streamOf, flatMap_def]
    refine frames_flatten fun f hf => ?_
    obtain ⟨e, he, rfl⟩ := mem_map.1 hf
    exact cut_eventLines (h e he).1 (h e he).2.1
  rw [dataEvents, hfr, filter_eq_self]
  intro f hf
  obtain ⟨e, he, rfl⟩ := mem_map.1 hf
  obtain ⟨hname, hdata, hne⟩ := h e he
  simpa [hasData, dataPayload_eventLines hname hdata] using hne

namespace StreamPipe

section

variable {p : StreamPipe} (hrj : StreamLawful p.rj) (hformats : p.source ≠ p.target)

theorem transformEvent_of_no_data (h : hasData event = false) : p.transformEvent event = event := by
  have he : (dataPayload event).isEmpty := by simpa [hasData] using h
  simp only [transformEvent, he, if_true]

include hformats in
theorem transformEvent_of_data (h : hasData event) : p.transformEvent event = eventOf (eventLines
      (writtenEvent p.rj p.target (deltaRead p.rj p.source event))) := by
  have he : (dataPayload event).isEmpty = false := by simpa [hasData] using h
  simp only [transformEvent, he, Bool.false_eq_true, if_false, ne_eq, hformats,
    not_false_eq_true, or_true, if_true]
  exact serializeStreamEvent_eq p.rj p.target _

include hrj hformats

theorem cut_transformEvent {bytes : Bytes} (h : event ∈ (nextEvent.frames bytes).1) :
    nextEvent.cut (p.transformEvent event) = some (p.transformEvent event, []) := by
  cases hdata : hasData event with
  | false => rw [transformEvent_of_no_data hdata]; exact cut_of_mem_frames h
  | true =>
    rw [transformEvent_of_data hformats hdata]
    obtain ⟨hname, hp⟩ := sendable_writtenEvent hrj p.target (deltaRead p.rj p.source event)
    exact cut_eventLines hname hp

variable (bytes : Bytes)

theorem frames_written : nextEvent.frames ((nextEvent.frames bytes).1.flatMap p.transformEvent) =
      ((nextEvent.frames bytes).1.map p.transformEvent, []) := by
  rw [flatMap_def]
  refine frames_flatten fun f hf => ?_
  obtain ⟨event, he, rfl⟩ := mem_map.1 hf
  exact cut_transformEvent hrj hformats he

theorem hasData_transformEvent (event : Bytes) :
    hasData (p.transformEvent event) = hasData event := by
  cases hdata : hasData event with
  | false => rwa [transformEvent_of_no_data hdata]
  | true =>
    obtain ⟨hname, hp⟩ := sendable_writtenEvent hrj p.target (deltaRead p.rj p.source event)
    rw [transformEvent_of_data hformats hdata, hasData, dataPayload_eventLines hname hp]
    have hne : (writtenEvent p.rj p.target (deltaRead p.rj p.source event)).2 ≠ [] := by
      have hw := hrj.toLawful.write_ne_nil
      unfold writtenEvent
      split
      · exact hw _
      · simp only
        split
        · decide
        · exact hw _
      · simp only
        split
        · decide
        · exact hw _
      · simp only
        split
        · decide
        · exact hw _
    simpa using hne

theorem deltaRead_transformEvent (h : hasData event) :
    deltaRead p.rj p.target (p.transformEvent event) =
      rereadDelta p.rj p.target (deltaRead p.rj p.source event) := by
  obtain ⟨hname, hp⟩ := sendable_writtenEvent hrj p.target (deltaRead p.rj p.source event)
  have hc : (deltaRead p.rj p.source event).Canonical := by
    rw [deltaRead_eq]; exact canonical_streamDelta hrj.toLawful p.source _ _
  rw [deltaRead_eq p.rj p.target, transformEvent_of_data hformats h,
    eventType_eventLines hname hp, dataPayload_eventLines hname hp]
  exact streamDelta_writtenEvent hrj hc p.target

theorem dataEvents_written : dataEvents ((nextEvent.frames bytes).1.flatMap p.transformEvent) =
      (dataEvents bytes).map p.transformEvent := by
  rw [dataEvents, frames_written hrj hformats, filter_map]
  refine congrArg (map p.transformEvent) (filter_congr fun event _ => ?_)
  exact hasData_transformEvent hrj hformats event

theorem deltas_written :
    deltas p.rj p.target ((nextEvent.frames bytes).1.flatMap p.transformEvent) =
      (deltas p.rj p.source bytes).map (rereadDelta p.rj p.target) := by
  rw [deltas, dataEvents_written hrj hformats, deltas, map_map, map_map]
  refine map_congr_left fun event he => ?_
  exact deltaRead_transformEvent hrj hformats (mem_filter.1 he).2

end

structure Converts (p : StreamPipe) (env : Surroundings) (bytes : Bytes) : Prop where
  lawful : StreamLawful p.rj
  mode : p.mode ≠ .passthrough
  formats : p.source ≠ p.target
  patient : Patient p env
  stateless : Stateless p
  passes : ∀ event ∈ (nextEvent.frames bytes).1, p.allowed event = true

section

variable {p : StreamPipe} {env : Surroundings} {chunks : List Bytes}
  (h : Converts p env chunks.flatten) (hne : ∀ chunk ∈ chunks, chunk ≠ [])

include h hne

theorem clientBytes_run : clientBytes (p.run env (chunks.map .bytes)).log =
    (nextEvent.frames chunks.flatten).1.flatMap p.transformEvent := by
  have hr := congrArg Delivered.written (view_run h.mode h.patient h.stateless chunks hne)
  have ha : (nextEvent.frames chunks.flatten).1.all p.allowed := all_eq_true.2 h.passes
  rw [written_deliverAll, takeWhile_eq_self_iff.2 h.passes, if_pos ha, append_nil] at hr
  exact hr

theorem deltas_run : deltas p.rj p.target (clientBytes (p.run env (chunks.map .bytes)).log) =
    (deltas p.rj p.source chunks.flatten).map (rereadDelta p.rj p.target) := by
  rw [clientBytes_run h hne]
  exact deltas_written h.lawful h.formats chunks.flatten

end

theorem converts_of_no_policy {p : StreamPipe} {env : Surroundings} (hrj : StreamLawful p.rj)
    (hm : p.mode ≠ .passthrough) (hformats : p.source ≠ p.target)
    (hp : p.config.policy = none) (hpa : Patient p env) (bytes : Bytes) : Converts p env bytes where
  lawful := hrj
  mode := hm
  formats := hformats
  patient := hpa
  stateless policy hs := by rw [hp] at hs; cases hs
  passes event _ := by simp [allowed, refusal, hp]

end StreamPipe

def pipeBetween (source target : Format) : StreamPipe where
  config := {}
  mode := .crossProtocol
  source
  target
  rj := compact

theorem converts_pipeBetween {target : Format} (hformats : source ≠ target) (bytes : Bytes) :
    StreamPipe.Converts (pipeBetween source target) StreamPipe.patientClient bytes :=
  StreamPipe.converts_of_no_policy streamLawful_compact
    (show ProtocolMode.crossProtocol ≠ .passthrough by decide) hformats rfl
    (StreamPipe.patientClient_patient _) bytes

def documentStream (es : List (Bytes × Json)) : Bytes :=
  streamOf (es.map fun e => (e.1, compact.write e.2))

variable {es : List (Bytes × Json)}

theorem dataEvents_documentStream (h : ∀ e ∈ es, Sendable e.1) : dataEvents (documentStream es) =
      es.map fun e => eventOf (eventLines (e.1, compact.write e.2)) := by
  rw [documentStream, dataEvents_streamOf, map_map]
  · rfl
  · intro event hev
    obtain ⟨e, he, rfl⟩ := mem_map.1 hev
    exact ⟨h e he, sendable_write streamLawful_compact e.2,
      lawful_compact.write_ne_nil e.2⟩

theorem documentAt_event {name : Bytes} (hname : Sendable name) {doc : Json} (ho : doc.isObject) :
    eventType (eventOf (eventLines (name, compact.write doc))) = name ∧
      documentAt compact (eventOf (eventLines (name, compact.write doc))) = some doc := by
  have hdata := sendable_write streamLawful_compact doc
  refine ⟨eventType_eventLines hname hdata, ?_⟩
  rw [documentAt, dataPayload_eventLines hname hdata, lawful_compact.parse_write]
  exact if_pos ho

theorem deltas_documentStream {format : Format}
    (h : ∀ e ∈ es, Sendable e.1 ∧ e.2.isObject ∧ chunkOk format e.2) :
    deltas compact format (documentStream es) = es.map fun e => deltaOf compact format e.1 e.2 := by
  rw [deltas, dataEvents_documentStream fun e he => (h e he).1, map_map]
  refine map_congr_left fun e he => ?_
  obtain ⟨hname, ho, hok⟩ := h e he
  obtain ⟨ht, hd⟩ := documentAt_event hname ho
  have hdata := sendable_write streamLawful_compact e.2
  have hdo : isDonePayload format
      (dataPayload (eventOf (eventLines (e.1, compact.write e.2)))) = false := by
    rw [dataPayload_eventLines hname hdata]
    exact isDonePayload_write streamLawful_compact format e.2
  refine (deltaRead_of_document hdo hd hok).trans ?_
  rw [ht]

end Gateway.Forwarder
