import Gateway.Protocol.TokenLimits
import Gateway.Server.LeaseAccount
import Gateway.Server.Routes

/-! # Streams that the provider is asked for -/

namespace Gateway.Server

open Lib Dispatch Json JsonText Protocol
open Protocol (Format Lawful requestOf documentOf documentOf_write flagAt requestOk)
open Protocol.Converter (convertRequest)

structure Context.Converts (c : Context) (target : UpstreamTarget) (out : Bytes) : Prop where
  nonempty : c.req.body ≠ []
  chat : c.matched.spec.capability.isChat = true
  converted : convertRequest c.world.rj c.req.body c.matched.spec.inboundFormat
    (upstreamFormat target) target.mappedModel = .ok { success := true, body := out }

def asksStream (format : Format) (doc : Json) : Bool :=
  match format with
  | .gemini => false
  | _ => flagAt doc "stream"

theorem stream_requestOf (rj : RapidJson) (format : Format) (doc : Json) :
    (requestOf rj format doc).stream = asksStream format doc := by
  cases format <;> rfl

variable {format : Format}

theorem asksStream_requestValue (rj : RapidJson) (h : format ≠ .gemini) (ir : ChatRequest) :
    asksStream format (Converter.requestValue rj format ir) = ir.stream := by
  cases format with
  | anthropic =>
    exact flagAt_of_lookupIf (by simp +decide [Converter.requestValue, Anthropic.requestValue])
  | openAIChatCompletions =>
    exact flagAt_of_lookupIf (by simp +decide [Converter.requestValue, OpenAI.requestValue])
  | openAIResponses =>
    exact flagAt_of_lookupIf (by
      simp +decide [Converter.requestValue, OpenAIResponses.requestValue])
  | gemini => exact absurd rfl h

def parsedStream (rj : RapidJson) (format : Format) (body : Bytes) : Access Bool :=
  (·.stream) <$> Converter.parseRequest rj format body

variable {rj : RapidJson} {body : Bytes}

theorem parsedStream_eq
    (hok : ∀ doc, (rj.parse body).bind object? = some doc → requestOk format doc) :
    parsedStream rj format body = .ok (asksStream format (documentOf rj body)) := by
  obtain ⟨ir, hir⟩ := (parseRequest_safe_iff rj format body).2 hok
  unfold parsedStream
  rw [hir, parseRequest_eq_of_ok hir, ← stream_requestOf rj]
  rfl

theorem parsedStream_eq_ok_iff {asked : Bool} : parsedStream rj format body = .ok asked ↔
      (∀ doc, (rj.parse body).bind object? = some doc → requestOk format doc) ∧
        asksStream format (documentOf rj body) = asked := by
  constructor
  · intro h
    have hs : Safe (Converter.parseRequest rj format body) := by
      unfold parsedStream at h
      cases hir : Converter.parseRequest rj format body with
      | error f => rw [hir] at h; cases h
      | ok ir => exact ⟨ir, rfl⟩
    have hok := (parseRequest_safe_iff rj format body).1 hs
    rw [parsedStream_eq hok] at h
    exact ⟨hok, Except.ok.inj h⟩
  · rintro ⟨hok, rfl⟩; exact parsedStream_eq hok

theorem parsedStream_converted (hrj : Lawful rj) {source target : Format} {m out : Bytes}
    (hta : target ≠ .gemini)
    (h : convertRequest rj body source target m = .ok { success := true, body := out })
    (asked : Bool) :
    parsedStream rj target out = .ok asked ↔
      (∀ doc, (rj.parse body).bind object? = some doc → requestOk source doc) ∧
        asksStream source (documentOf rj body) = asked := by
  by_cases ht : source = target ∧ m = []
  · obtain ⟨rfl, rfl⟩ := ht
    have ho : out = body := by
      rw [convertRequest, if_pos (by simp)] at h
      exact (congrArg Converter.ConversionResult.body (Except.ok.inj h)).symm
    rw [ho]; exact parsedStream_eq_ok_iff
  · have hm : source ≠ target ∨ m ≠ [] := by rw [not_and_or] at ht; exact ht
    have hok := (parseRequest_safe_iff rj source body).1
      (safe_of_convertRequest hm h)
    obtain ⟨model, rfl⟩ := convertRequest_cases hm h
    have hw : ∀ ir, parsedStream rj target
        (Converter.serializeRequest rj target ir) = .ok ir.stream := by
      intro ir
      unfold parsedStream
      rw [Converter.parseRequest_written hrj]
      refine congrArg Except.ok ?_
      dsimp only
      rw [stream_requestOf, asksStream_requestValue rj hta]
    rw [hw, Except.ok.injEq]
    dsimp only
    rw [stream_requestOf]; exact (and_iff_right hok).symm

section

variable {w : World} {req : HttpRequest} {matched : MatchedCapability}
  {parsed : Converter.ParsedRequest}

theorem stream_of_parseRequest (hc : matched.spec.capability.isChat)
    (h : parseRequest w.rj req matched.spec = .ok parsed) : parsed.stream = (isJsonRequest req &&
      asksStream matched.spec.inboundFormat (documentOf w.rj req.body)) := by
  have hbo : ∀ first, parseBody w.rj req matched.spec = .ok first → first.stream =
      (isJsonRequest req && asksStream matched.spec.inboundFormat (documentOf w.rj req.body)) := by
    intro first hf
    unfold parseBody at hf
    rw [hc, Bool.true_and] at hf
    cases hj : isJsonRequest req with
    | false => rw [hj, if_neg Bool.false_ne_true] at hf; cases hf; rfl
    | true =>
      rw [hj, if_pos rfl, Converter.parse] at hf
      cases hir : Converter.parseRequest w.rj matched.spec.inboundFormat req.body with
      | error f => rw [hir] at hf; cases hf
      | ok ir =>
        rw [hir] at hf
        cases hf
        rw [Bool.true_and, ← stream_requestOf w.rj, ← parseRequest_eq_of_ok hir]
  unfold parseRequest at h
  cases hf : parseBody w.rj req matched.spec with
  | error f => rw [hf] at h; cases h
  | ok first =>
    rw [hf, ok_bind] at h
    rw [← hbo first hf]
    split at h <;> cases h <;> rfl

end

theorem parsedStream_upstream {w : World} (hrj : Lawful w.rj) {req : HttpRequest}
    {resp : HttpResponse} {matched : MatchedCapability} {c : Context} {st : Handler}
    (he : Entered w req resp matched c st) {target : UpstreamTarget}
    (ht : upstreamFormat target ≠ .gemini) {out : Bytes} (ho : c.Converts target out)
    (asked : Bool) : parsedStream w.rj (upstreamFormat target) out = .ok asked ↔
      (∀ doc, (w.rj.parse req.body).bind object? = some doc →
        requestOk matched.spec.inboundFormat doc) ∧
      asksStream matched.spec.inboundFormat (documentOf w.rj req.body) = asked := by
  have hc := ho.converted
  rw [he.sameWorld, he.sameRequest, he.sameCapability] at hc
  exact parsedStream_converted hrj ht hc asked

theorem upstream_stream_agrees_iff {w : World} (hrj : Lawful w.rj) {req : HttpRequest}
    {resp : HttpResponse} {matched : MatchedCapability} {c : Context} {st : Handler}
    (hprepared : prepare w req resp matched = .ok (c, st)) {target : UpstreamTarget}
    (htarget : upstreamFormat target ≠ .gemini) {out : Bytes} (hout : c.Converts target out) :
    parsedStream w.rj (upstreamFormat target) out = .ok c.isStream ↔
      (∀ doc, (w.rj.parse req.body).bind object? = some doc →
        requestOk matched.spec.inboundFormat doc = true) ∧
      if asksStream matched.spec.inboundFormat (documentOf w.rj req.body) then
        matched.spec.canStream = true ∧ matched.spec.realtime = false ∧
          (isJsonRequest req = true ∨ matched.operation = "streamGenerateContent") else
        ¬ (matched.spec.canStream = true ∧ matched.spec.realtime = false ∧
          matched.operation = "streamGenerateContent") := by
  have hentered := entered_of_prepare hprepared
  have hchat := hout.chat
  rw [hentered.sameCapability] at hchat
  rw [parsedStream_upstream hrj hentered htarget hout, hentered.isStream, streams,
    stream_of_parseRequest hchat hentered.parsed]
  refine and_congr_right fun _ => ?_
  cases asksStream matched.spec.inboundFormat (documentOf w.rj req.body) with
  | true =>
    rw [if_pos rfl, Bool.and_true, eq_comm, Bool.and_eq_true, Bool.and_eq_true, Bool.or_eq_true,
      Bool.not_eq_true', decide_eq_true_eq, and_assoc]
    exact and_congr_right fun _ => and_comm
  | false =>
    rw [if_neg Bool.false_ne_true, Bool.and_false, Bool.false_or, eq_comm, Bool.and_eq_false_iff,
      Bool.and_eq_false_iff, Bool.not_eq_false', decide_eq_false_iff_not]
    cases matched.spec.canStream <;> cases matched.spec.realtime <;> simp

def openaiWorld : World :=
  refusingProvider compact { platform := "openai", baseUrl := "provider" }

def openaiTarget : UpstreamTarget :=
  { platform := "openai", baseUrl := "provider", mappedModel := "gpt-4o" }

def streamedQuestion : Json := .object [
  ("model", .str "claude"), ("stream", .bool true),
  ("messages", .array [.object [("role", .str "user"), ("content", .str "Hi")]])]

def geminiQuestion : Json := .object [
  ("contents", .array [.object [("role", .str "user"), ("parts", .array [
    .object [("text", .str "Hi")]])]])]

def postOf (path : Bytes) (doc : Json) : HttpRequest where
  method := "POST"
  path
  body := compact.write doc
  xApiKey := "key"
  contentType := "application/json"
  requestId := "request-1"

def messagesCall : MatchedCapability := ⟨kMessages, "messages", []⟩

def geminiStream : MatchedCapability := ⟨kGeminiGenerate, "streamGenerateContent", []⟩

def geminiPath : Bytes := "/v1beta/models/gemini-pro:streamGenerateContent"

theorem questions_prepared :
    ((prepare openaiWorld (postOf "/v1/messages" streamedQuestion) {} messagesCall).toOption.map
      (·.1.isStream)) = some true ∧
    ((prepare openaiWorld (postOf geminiPath geminiQuestion) {} geminiStream).toOption.map
      (·.1.isStream)) = some true := by
  decide +kernel

theorem converts_of_prepared {path : Bytes} {doc : Json} {matched : MatchedCapability}
    (h : (prepare openaiWorld (postOf path doc) {} matched).toOption.map (·.1.isStream) = some true)
    (hc : matched.spec.capability.isChat) (ho : doc.isObject)
    (hok : requestOk matched.spec.inboundFormat doc)
    (hs : (requestOf compact matched.spec.inboundFormat doc).unsupportedContent = false)
    (hr : NoSystemRoles (requestOf compact matched.spec.inboundFormat doc).messages) :
    ∃ c st out, prepare openaiWorld (postOf path doc) {} matched = .ok (c, st) ∧
      c.isStream ∧ c.Converts openaiTarget out := by
  cases hp : prepare openaiWorld (postOf path doc) {} matched with
  | error st => rw [hp] at h; cases h
  | ok entered =>
    obtain ⟨c, st⟩ := entered
    rw [hp] at h
    have he := entered_of_prepare hp
    have hl := lawful_compact
    obtain ⟨out, hou, -⟩ := Converter.convertRequest_reread hl
      (upstreamFormat openaiTarget) (hl.parse_write doc) ho hok hs
      (fun _ => hr) (m := openaiTarget.mappedModel) (.inr (by decide))
    refine ⟨c, st, out, rfl, Option.some.inj h, ?_, ?_, ?_⟩
    · rw [he.sameRequest]; exact hl.write_ne_nil doc
    · rw [he.sameCapability]; exact hc
    · rw [he.sameWorld, he.sameRequest, he.sameCapability]; exact hou

theorem streamed_question_asked :
    ∃ c st out, prepare openaiWorld (postOf "/v1/messages" streamedQuestion) {} messagesCall =
        .ok (c, st) ∧ c.isStream = true ∧ c.Converts openaiTarget out ∧
      parsedStream openaiWorld.rj (upstreamFormat openaiTarget) out = .ok c.isStream := by
  obtain ⟨c, st, out, hprepare, hstream, hout⟩ := converts_of_prepared questions_prepared.1 rfl rfl
    (by decide) (by decide) (by unfold NoSystemRoles; decide)
  refine ⟨c, st, out, hprepare, hstream, hout, ?_⟩
  refine (upstream_stream_agrees_iff lawful_compact hprepare (by decide) hout).2 ⟨?_, ?_⟩
  · intro doc hdoc
    have hparse : openaiWorld.rj.parse (postOf "/v1/messages" streamedQuestion).body =
        some streamedQuestion := lawful_compact.parse_write streamedQuestion
    rw [hparse] at hdoc
    cases hdoc; decide
  · rw [show documentOf openaiWorld.rj (postOf "/v1/messages" streamedQuestion).body =
      streamedQuestion from documentOf_write rfl]
    decide

theorem gemini_stream_not_asked : matchCapability "POST" geminiPath = some geminiStream ∧
      ∃ c st out, prepare openaiWorld (postOf geminiPath geminiQuestion) {} geminiStream =
          .ok (c, st) ∧ c.isStream = true ∧ c.Converts openaiTarget out ∧
        parsedStream openaiWorld.rj (upstreamFormat openaiTarget) out = .ok false := by
  refine ⟨rfl, ?_⟩
  obtain ⟨c, st, out, hprepare, hstream, hout⟩ := converts_of_prepared questions_prepared.2 rfl rfl
    (by decide) (by decide) (by unfold NoSystemRoles; decide)
  refine ⟨c, st, out, hprepare, hstream, hout, ?_⟩
  exact (parsedStream_upstream lawful_compact (entered_of_prepare hprepare) (by decide) hout
    false).2 ⟨fun _ _ => rfl, rfl⟩

end Gateway.Server
