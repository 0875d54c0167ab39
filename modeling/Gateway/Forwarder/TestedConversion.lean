import Gateway.Forwarder.Transcript

/-! # The tested and the deployed conversion of an event -/

namespace Gateway.Forwarder.StreamPipe

open Lib Protocol Json Converter List

def framed (source : Format) (type payload : Bytes) : Bytes :=
  eventOf ((if source = .anthropic then ["event:" ++ 32 :: type] else []) ++
    ["data:" ++ 32 :: payload])

structure SameConversion (p : StreamPipe) (payload event : Bytes) : Prop where
  written : ∀ bytes, convertStreamEvent p.rj payload p.source p.target = .ok bytes →
    p.transformEvent event = bytes
  safe : Safe (convertStreamEvent p.rj payload p.source p.target) ↔
    Safe (parseStreamEvent p.rj p.source (eventType event) (dataPayload event))

variable {source : Format} {type payload : Bytes}

theorem lines_framed (hlf : 10 ∉ payload) (ht : source = .anthropic → 10 ∉ type) :
    lines (framed source type payload) =
      (if source = .anthropic then ["event:" ++ 32 :: type] else []) ++
        ["data:" ++ 32 :: payload, [], []] := by
  rw [framed, lines_eventOf, append_assoc]
  · rfl
  · intro l hl
    rcases mem_append.1 hl with hl | hl
    · split at hl
      · next hs =>
        rw [mem_singleton.1 hl]
        simp [ht hs, ascii]
      · cases hl
    · rw [mem_singleton.1 hl]; simp [hlf, ascii]

theorem streamEventType_eq (rj : RapidJson) (data : Bytes) : streamEventType rj data = .ok
      ((((rj.parse data).bind object?).bind fun doc =>
        (doc.lookup "type").bind text?).getD []) := by
  unfold streamEventType
  cases h : (rj.parse data).bind object? with
  | none => rfl
  | some doc =>
    have ho : doc.isObject := isObject_of_bind_object? h
    simp only [memberAs_of_object ho, ok_bind]; rfl

theorem convertStreamEvent_eq {p : StreamPipe} (hfo : p.source ≠ p.target) {event : Bytes}
    (hda : dataPayload event = payload)
    (htype : p.source = .anthropic → streamEventType p.rj payload = .ok (eventType event)) :
    convertStreamEvent p.rj payload p.source p.target =
      (parseStreamEvent p.rj p.source (eventType event) (dataPayload event)).map
        (serializeStreamEvent p.rj p.target) := by
  unfold convertStreamEvent
  rw [if_neg hfo, hda]
  have hmap : ∀ m : Access StreamDelta, (do
      let delta ← m
      return serializeStreamEvent p.rj p.target delta) =
      m.map (serializeStreamEvent p.rj p.target) := by
    intro m
    cases m <;> rfl
  cases hs : p.source with
  | anthropic => rw [htype hs, ok_bind]; exact hmap _
  | _ => rw [streamEventType_eq, ok_bind]; exact hmap _

def TypeIs (rj : RapidJson) (payload type : Bytes) : Prop :=
  ∃ doc, rj.parse payload = some doc ∧ doc.isObject = true ∧
    doc.lookup "type" = some (.string type)

theorem tested_conversion_deployed {p : StreamPipe} (hmode : p.mode = .crossProtocol)
    (hformats : p.source ≠ p.target) (hne : payload ≠ []) (hlf : 10 ∉ payload)
    (hspace : payload.head? ≠ some 32)
    (htype : p.source = .anthropic → Sendable type ∧ TypeIs p.rj payload type) :
    SameConversion p payload (framed p.source type payload) := by
  have hl := lines_framed hlf fun hs => (htype hs).1.noLf
  have hd : dataPayload (framed p.source type payload) = payload := by
    have hf : fieldValue "data:" ("data:" ++ 32 :: payload) = some payload :=
      fieldValue_field hspace
    have hn : fieldValue "data:" ("event:" ++ 32 :: type) = none := rfl
    rw [dataPayload, hl]
    split <;> simp only [nil_append, cons_append, foldl_cons, hf, hn] <;> rfl
  have ht : p.source = .anthropic → streamEventType p.rj payload =
      .ok (eventType (framed p.source type payload)) := by
    intro hs
    obtain ⟨hsend, doc, hp, ho, hnamed⟩ := htype hs
    have hf : fieldValue "event:" ("event:" ++ 32 :: type) = some type :=
      fieldValue_field hsend.head
    have hn : fieldValue "event:" ("data:" ++ 32 :: payload) = none := rfl
    rw [streamEventType_eq, eventType, hl, if_pos hs, hp]
    simp only [cons_append, nil_append, foldl_cons, hf, hn, Option.map_some,
      trimCr_of_not_mem hsend.noCr, Option.bind_some, object?, ho, if_true, hnamed]
    rfl
  have hc := convertStreamEvent_eq hformats hd ht
  have hp : p.transformEvent (framed p.source type payload) =
      serializeStreamEvent p.rj p.target (parsedDelta (parseStreamEvent p.rj
        p.source (eventType (framed p.source type payload)) payload)) := by
    simp [transformEvent, hd, hne, hmode]
  rw [hd] at hc
  constructor
  · intro bytes h
    rw [hp]
    cases hr : parseStreamEvent p.rj p.source
        (eventType (framed p.source type payload)) payload with
    | error fault => rw [hc, hr] at h; cases h
    | ok delta => rw [hc, hr] at h; cases h; rfl
  · rw [hc, hd]
    cases parseStreamEvent p.rj p.source
        (eventType (framed p.source type payload)) payload with
    | error fault => simp [Safe, Except.map]
    | ok delta => simp [Safe, Except.map]

def deltaPipe : StreamPipe :=
  { config := {}, mode := .crossProtocol, source := .anthropic, target := .openAIChatCompletions
    rj := JsonText.compact }

def textDelta : Json := .object
  [("type", .string "content_block_delta"),
    ("delta", .object [("type", .string "text_delta"), ("text", .string "Hello")])]

theorem tested_conversion_deployed_delta : SameConversion deltaPipe (JsonText.write textDelta)
      (framed .anthropic "content_block_delta" (JsonText.write textDelta)) :=
  tested_conversion_deployed rfl (by decide) (by decide) (by decide) (by decide)
    fun _ => ⟨⟨by decide, by decide, by decide⟩, textDelta, JsonText.parse_write textDelta, rfl,
      rfl⟩

end Gateway.Forwarder.StreamPipe
