import Gateway.Forwarder.EventKinds

/-! # The end of a stream -/

namespace Gateway.Forwarder

open Lib JsonText Protocol List
open Protocol (Format StreamDelta StreamLawful stringAt valueAt entriesAt textOf)

variable {target : Format} (rj : RapidJson)

def finishesDocument (source : Format) (doc : Json) : Bool :=
  match source with
  | .anthropic => false
  | .openAIChatCompletions =>
    (entriesAt doc "choices").any fun choice => !(rawAt choice "finish_reason").isEmpty
  | .openAIResponses => rawAt doc "type" == "response.completed"
  | .gemini =>
    (entriesAt doc "candidates").any fun cand =>
      ((cand.lookup "finishReason").bind Json.string?).isSome

variable {doc : Json}

theorem finishesDocument_of_openAI (h : OpenAI.finishes doc) :
    finishesDocument .openAIChatCompletions doc := by
  unfold OpenAI.finishes OpenAI.firstChoice at h
  unfold finishesDocument
  cases hc : entriesAt doc "choices" with
  | nil => rw [hc] at h; cases h
  | cons choice choices =>
    rw [hc, headD_cons, stringAt_eq_cstr] at h
    refine any_eq_true.2 ⟨choice, mem_cons_self, ?_⟩
    cases hr : rawAt choice "finish_reason" with
    | nil => rw [hr] at h; cases h
    | cons c cs => rfl

theorem finishesDocument_of_gemini (h : Gemini.finishes doc) : finishesDocument .gemini doc := by
  unfold Gemini.finishes Gemini.firstCandidate at h
  unfold finishesDocument
  cases hc : entriesAt doc "candidates" with
  | nil => rw [hc] at h; cases h
  | cons cand cands => rw [hc, headD_cons] at h; exact any_eq_true.2 ⟨cand, mem_cons_self, h⟩

def endEvent (source : Format) (event : Bytes) : Bool :=
  match source with
  | .anthropic => eventType event == "message_delta" || eventType event == "message_stop"
  | .openAIResponses => (documentAt rj event).any (finishesDocument .openAIResponses)
  | source => isDone event || (documentAt rj event).any (finishesDocument source)

inductive TerminalSequence (rj : RapidJson) : Format → List Bytes → Prop where
  | openAI {finish done : Bytes} {doc : Json} (hdoc : documentAt rj finish = some doc)
      (hfinish : finishesDocument .openAIChatCompletions doc = true) (hdone : isDone done = true) :
      TerminalSequence rj .openAIChatCompletions [finish, done]
  | anthropic {delta stop : Bytes} {doc doc' : Json} (hdelta : eventType delta = "message_delta")
      (hdoc : documentAt rj delta = some doc) (hstop : eventType stop = "message_stop")
      (hdoc' : documentAt rj stop = some doc') : TerminalSequence rj .anthropic [delta, stop]
  | responses {completed : Bytes} {doc : Json} (hdoc : documentAt rj completed = some doc)
      (hfinish : finishesDocument .openAIResponses doc = true) :
      TerminalSequence rj .openAIResponses [completed]
  | gemini {finish : Bytes} {doc : Json} (hdoc : documentAt rj finish = some doc)
      (hfinish : finishesDocument .gemini doc = true) : TerminalSequence rj .gemini [finish]
  | geminiDone {finish done : Bytes} {doc : Json} (hdoc : documentAt rj finish = some doc)
      (hfinish : finishesDocument .gemini doc = true) (hdone : isDone done = true) :
      TerminalSequence rj .gemini [finish, done]

def bare (source : Format) (tail : List Bytes) : Bool :=
  tail.head?.any fun event => (documentAt rj event).any (bareDocument source)

def plain (tail : List Bytes) : Bool :=
  tail.getLast?.any fun event => dataPayload event == "[DONE]"

def endsOnce (source target : Format) (body tail : List Bytes) : Bool :=
  match source, target with
  | .anthropic, .openAIResponses => false
  | .anthropic, _ => true
  | .openAIResponses, .gemini => false
  | .openAIResponses, _ => body.all fun event => !takenForCompleted rj event
  | .openAIChatCompletions, .openAIResponses => !bare rj source tail && plain tail
  | .openAIChatCompletions, .gemini => bare rj source tail && plain tail
  | .gemini, .openAIResponses =>
    (bare rj source tail && tail.length == 1) || (!bare rj source tail && plain tail)
  | _, _ => plain tail

def endsTarget (target : Format) (d : StreamDelta) : Bool :=
  match target with
  | .gemini => !d.finishReason.isEmpty
  | _ => d.type == .done

def isContent (d : StreamDelta) : Bool :=
  d.type == .contentStart || d.type == .textDelta || d.type == .toolCallDelta ||
    d.type == .contentEnd

def oneTerminal (target : Format) : List StreamDelta → Bool
  | [] => false
  | d :: ds =>
    if endsTarget target d then ds.all fun e => !endsTarget target e && !isContent e
    else oneTerminal target ds

def endsKind (target : Format) (k : StreamDelta.Kind) : Bool :=
  match target with
  | .openAIResponses => k == .done || k == .messageEnd
  | .gemini => k == .messageEnd
  | _ => k == .done

variable {ds : List StreamDelta}

theorem oneTerminal_append (h : ∀ d ∈ ds, endsTarget target d = false)
    (es : List StreamDelta) : oneTerminal target (ds ++ es) = oneTerminal target es := by
  induction ds with
  | nil => rfl
  | cons d ds ih => rw [forall_mem_cons] at h; rw [cons_append, oneTerminal, h.1]; exact ih h.2

theorem oneTerminal_of_end_before {e : StreamDelta}
    (h : ∃ d ∈ ds, endsTarget target d) (he : endsTarget target e) :
    oneTerminal target (ds ++ [e]) = false := by
  induction ds with
  | nil => simp at h
  | cons d ds ih =>
    rw [cons_append, oneTerminal]
    by_cases hd : endsTarget target d
    · rw [if_pos hd, all_append]; simp [he]
    · rw [if_neg hd]
      obtain ⟨d', hm, hd'⟩ := h
      rcases mem_cons.1 hm with rfl | hm
      · exact absurd hd' hd
      · exact ih ⟨d', hm, hd'⟩

theorem readFinishReason_ne_nil (reason : Bytes) : Gemini.readFinishReason reason ≠ [] := by
  unfold Gemini.readFinishReason
  repeat' split
  all_goals decide

theorem endsTarget_rereadDelta (target : Format) (d : StreamDelta) :
    endsTarget target (rereadDelta rj target d) = endsKind target d.type := by
  cases target with
  | anthropic =>
    unfold endsTarget endsKind rereadDelta Anthropic.rereadDelta
    cases d.type <;> rfl
  | openAIChatCompletions =>
    unfold endsTarget endsKind rereadDelta OpenAI.rereadDelta
    cases d.type <;> simp only <;> (try split) <;> rfl
  | openAIResponses =>
    unfold endsTarget endsKind rereadDelta OpenAIResponses.rereadDelta
    cases d.type <;> rfl
  | gemini =>
    unfold endsTarget endsKind rereadDelta Gemini.rereadDelta
    cases d.type with
    | messageEnd => simpa using readFinishReason_ne_nil _
    | _ => rfl

variable {event finish : Bytes} {body : List Bytes}

section

variable {rj : RapidJson} (hrj : StreamLawful rj) {source target : Format}

include hrj in
theorem endEvent_of_type
    (h : (deltaRead rj source event).type = .done ∨ (deltaRead rj source event).type = .messageEnd)
    : endEvent rj source event ∨ (source = .openAIResponses ∧ takenForCompleted rj event) := by
  cases source with
  | anthropic =>
    left
    cases hd : documentAt rj event with
    | none => rw [deltaRead_of_no_document (by simp [isDonePayload]) hd] at h; simp at h
    | some doc =>
      rw [type_anthropic_of_document hd] at h
      rcases name_of_type_anthropic h with hn | hn <;> simp [endEvent, hn]
  | openAIResponses =>
    right
    rcases h with h | h
    · exact ⟨rfl, (type_eq_done_iff_taken hrj).1 h⟩
    · exact absurd h (responses_type_ne_messageEnd hrj)
  | openAIChatCompletions =>
    left
    change (isDone event || (documentAt rj event).any (finishesDocument .openAIChatCompletions))
    rw [Bool.or_eq_true]
    rcases h with h | h
    · exact Or.inl (isDone_of_payload ((type_eq_done_iff hrj (Or.inl rfl)).1 h))
    · rw [type_eq_messageEnd_iff_bare hrj (Or.inl rfl), Option.any_eq_true] at h
      obtain ⟨doc, hd, hba⟩ := h
      refine Or.inr ?_
      rw [hd, Option.any_some]
      exact finishesDocument_of_openAI (Bool.and_eq_true_iff.1 hba).1
  | gemini =>
    left
    change (isDone event || (documentAt rj event).any (finishesDocument .gemini))
    rw [Bool.or_eq_true]
    rcases h with h | h
    · exact Or.inl (isDone_of_payload ((type_eq_done_iff hrj (Or.inr rfl)).1 h))
    · rw [type_eq_messageEnd_iff_bare hrj (Or.inr rfl), Option.any_eq_true] at h
      obtain ⟨doc, hd, hba⟩ := h
      refine Or.inr ?_
      rw [hd, Option.any_some]
      exact finishesDocument_of_gemini (Bool.and_eq_true_iff.1 hba).1

def clientDelta (rj : RapidJson) (source target : Format) (event : Bytes) : StreamDelta :=
  rereadDelta rj target (deltaRead rj source event)

theorem endsTarget_clientDelta (rj : RapidJson) (source target : Format) (event : Bytes) :
    endsTarget target (clientDelta rj source target event) =
      endsKind target (deltaRead rj source event).type :=
  endsTarget_rereadDelta rj target _

theorem type_of_endsKind {k : StreamDelta.Kind} (h : endsKind target k) :
    k = .done ∨ k = .messageEnd := by
  cases target <;> cases k <;> simp_all [endsKind]

theorem isContent_rereadDelta_of_done {d : StreamDelta} (h : d.type = .done) :
    isContent (rereadDelta rj target d) = false := by
  cases target <;> simp [isContent, rereadDelta, OpenAI.rereadDelta, Anthropic.rereadDelta,
    OpenAIResponses.rereadDelta, Gemini.rereadDelta, h]

theorem isContent_rereadDelta_default : isContent (rereadDelta rj target {}) := by
  cases target <;> rfl

include hrj in
theorem oneTerminal_body (hbo : ∀ e ∈ body, endEvent rj source e = false)
    (ht : source = .openAIResponses → ∀ e ∈ body, takenForCompleted rj e = false)
    (ds : List StreamDelta) :
    oneTerminal target (body.map (clientDelta rj source target) ++ ds) = oneTerminal target ds := by
  refine oneTerminal_append ?_ ds
  intro d hd
  obtain ⟨event, hev, rfl⟩ := mem_map.1 hd
  by_contra hen
  rw [Bool.not_eq_false, endsTarget_clientDelta] at hen
  rcases endEvent_of_type hrj (type_of_endsKind hen) with he | ⟨hs, he⟩
  · rw [hbo event hev] at he; cases he
  · rw [ht hs event hev] at he; cases he

theorem oneTerminal_singleton (event : Bytes) :
    oneTerminal target [clientDelta rj source target event] =
      endsKind target (deltaRead rj source event).type := by
  rw [oneTerminal, endsTarget_clientDelta]
  cases endsKind target (deltaRead rj source event).type <;> rfl

theorem oneTerminal_pair {first last : Bytes}
    (hl : (deltaRead rj source last).type = .done ∨ deltaRead rj source last = {}) :
    oneTerminal target [clientDelta rj source target first, clientDelta rj source target last] =
      ((deltaRead rj source last).type == .done &&
        (endsKind target (deltaRead rj source first).type != endsKind target .done)) := by
  rw [oneTerminal, endsTarget_clientDelta, oneTerminal_singleton]
  rcases hl with hd | hde
  · have hc : isContent (clientDelta rj source target last) = false :=
      isContent_rereadDelta_of_done hd
    simp only [all_cons, all_nil, endsTarget_clientDelta, hd, hc]
    cases endsKind target (deltaRead rj source first).type <;>
      cases endsKind target .done <;> rfl
  · have hc : isContent (clientDelta rj source target last) := by
      rw [clientDelta, hde]; exact isContent_rereadDelta_default
    simp only [all_cons, all_nil, endsTarget_clientDelta, hc, hde,
      Bool.not_true, Bool.and_false, Bool.false_and]
    cases endsKind target (deltaRead rj source first).type <;> cases target <;> rfl

include hrj in
theorem done_or_default (hs : source = .openAIChatCompletions ∨ source = .gemini)
    (h : isDone event) :
    (deltaRead rj source event).type = .done ∨ deltaRead rj source event = {} := by
  by_cases hp : dataPayload event = "[DONE]"
  · exact Or.inl ((type_eq_done_iff hrj hs).2 hp)
  · exact Or.inr (deltaRead_of_done_cr hrj h hp)

include hrj in
theorem done_beq (hs : source = .openAIChatCompletions ∨ source = .gemini) (event : Bytes) :
    ((deltaRead rj source event).type == .done) = (dataPayload event == "[DONE]") := by
  rw [Bool.eq_iff_iff, beq_iff_eq, beq_iff_eq]
  exact type_eq_done_iff hrj hs

include hrj in
theorem messageEnd_beq (hs : source = .openAIChatCompletions ∨ source = .gemini)
    (event : Bytes) : ((deltaRead rj source event).type == .messageEnd) =
      (documentAt rj event).any (bareDocument source) := by
  rw [Bool.eq_iff_iff, beq_iff_eq]
  exact type_eq_messageEnd_iff_bare hrj hs

include hrj in
theorem finish_ne_done (hs : source = .openAIChatCompletions ∨ source = .gemini)
    (hd : documentAt rj event = some doc) :
    ((deltaRead rj source event).type == .done) = false := by
  rw [done_beq hrj hs]
  refine beq_false_of_ne fun hp => ?_
  rw [documentAt, hp, hrj.parse_done] at hd
  cases hd

include hrj in
theorem oneTerminal_documents {done : Bytes}
    (hs : source = .openAIChatCompletions ∨ source = .gemini) (hd : documentAt rj finish = some doc)
    (hdo : isDone done) (hne : source ≠ target) (body : List Bytes) :
    oneTerminal target ([finish, done].map (clientDelta rj source target)) =
      endsOnce rj source target body [finish, done] := by
  rw [map_cons, map_singleton, oneTerminal_pair (done_or_default hrj hs hdo), done_beq hrj hs]
  have hf := finish_ne_done hrj hs hd
  have hba := messageEnd_beq hrj hs finish
  cases target with
  | openAIChatCompletions | anthropic =>
    rcases hs with rfl | rfl
    · simp_all [endsKind, endsOnce, plain]
    · simp [endsKind, hf, endsOnce, plain]
  | openAIResponses =>
    rcases hs with rfl | rfl <;>
      simp [endsKind, hf, hba, endsOnce, plain, bare, Bool.and_comm]
  | gemini =>
    have hk : endsKind .gemini .done = false := rfl
    obtain rfl := hs.resolve_right hne
    rw [hk]
    simp [endsKind, hba, endsOnce, plain, bare, Bool.and_comm]

include hrj in
theorem oneTerminal_gemini (hd : documentAt rj finish = some doc) (hne : Format.gemini ≠ target)
    (body : List Bytes) : oneTerminal target ([finish].map (clientDelta rj .gemini target)) =
      endsOnce rj .gemini target body [finish] := by
  have hs : Format.gemini = .openAIChatCompletions ∨ Format.gemini = .gemini := Or.inr rfl
  have hf := finish_ne_done hrj hs hd
  have hba := messageEnd_beq hrj hs finish
  have hp : plain [finish] = false := (done_beq hrj hs finish).symm.trans hf
  rw [map_singleton, oneTerminal_singleton]
  cases target with
  | gemini => exact absurd rfl hne
  | openAIResponses => simp [endsKind, hf, hba, endsOnce, hp, bare]
  | _ => simp [endsKind, hf, endsOnce, hp]

theorem oneTerminal_anthropic {delta stop : Bytes} {doc' : Json}
    (hde : eventType delta = "message_delta") (hdo : documentAt rj delta = some doc)
    (hs : eventType stop = "message_stop") (hd' : documentAt rj stop = some doc')
    (hne : Format.anthropic ≠ target) (body : List Bytes) :
    oneTerminal target ([delta, stop].map (clientDelta rj .anthropic target)) =
      endsOnce rj .anthropic target body [delta, stop] := by
  have he : (deltaRead rj .anthropic delta).type = .messageEnd := by
    rw [type_anthropic_of_document hdo, hde]; rfl
  have hd : (deltaRead rj .anthropic stop).type = .done := by
    rw [type_anthropic_of_document hd', hs]; rfl
  rw [map_cons, map_singleton, oneTerminal_pair (Or.inl hd), he, hd]
  cases target with
  | anthropic => exact absurd rfl hne
  | _ => rfl

include hrj

theorem oneTerminal_responses {completed : Bytes} (hdoc : documentAt rj completed = some doc)
    (hf : finishesDocument .openAIResponses doc)
    (hbo : ∀ e ∈ body, endEvent rj .openAIResponses e = false)
    (hne : Format.openAIResponses ≠ target) :
    oneTerminal target ((body ++ [completed]).map (clientDelta rj .openAIResponses target)) =
      endsOnce rj .openAIResponses target body [completed] := by
  have hdo : (deltaRead rj .openAIResponses completed).type = .done := by
    have htype : rawAt doc "type" = "response.completed" := eq_of_beq hf
    rw [type_eq_done_iff_taken hrj, takenForCompleted, hdoc, Option.any_some, stringAt_eq_cstr,
      htype]
    decide
  rw [map_append, map_singleton]
  by_cases hg : target = .gemini
  · subst hg
    have hn : ∀ d ∈ body.map (clientDelta rj .openAIResponses .gemini) ++
        [clientDelta rj .openAIResponses .gemini completed], endsTarget .gemini d = false := by
      rw [← map_singleton, ← map_append]
      intro d hd
      obtain ⟨event, -, rfl⟩ := mem_map.1 hd
      rw [endsTarget_clientDelta]
      exact beq_false_of_ne (responses_type_ne_messageEnd hrj)
    have ha := oneTerminal_append hn []
    rw [append_nil] at ha; exact ha
  · have hk : endsKind target .done := by
      cases target <;> first | rfl | exact absurd rfl hg
    have ho : endsOnce rj .openAIResponses target body [completed] =
        body.all fun event => !takenForCompleted rj event := by
      cases target <;> first | rfl | exact absurd rfl hg
    rw [ho]
    by_cases ht : ∀ e ∈ body, takenForCompleted rj e = false
    · rw [oneTerminal_body hrj hbo (fun _ => ht), oneTerminal_singleton, hdo, hk, eq_comm,
        all_eq_true]
      intro e he
      rw [ht e he]; rfl
    · rw [not_forall₂] at ht
      obtain ⟨e, he, hen⟩ := ht
      rw [Bool.not_eq_false] at hen
      have hfi : endsTarget target (clientDelta rj .openAIResponses target e) := by
        rw [endsTarget_clientDelta, (type_eq_done_iff_taken hrj).2 hen, hk]
      have hl : endsTarget target (clientDelta rj .openAIResponses target completed) := by
        rw [endsTarget_clientDelta, hdo, hk]
      rw [oneTerminal_of_end_before ⟨_, mem_map_of_mem he, hfi⟩ hl, eq_comm, all_eq_false]
      exact ⟨e, he, by simp [hen]⟩

theorem oneTerminal_eq_endsOnce {tail : List Bytes} (hne : source ≠ target)
    (hbo : ∀ e ∈ body, endEvent rj source e = false) (ht : TerminalSequence rj source tail) :
    oneTerminal target ((body ++ tail).map (clientDelta rj source target)) =
      endsOnce rj source target body tail := by
  cases ht with
  | openAI hd hf hdo =>
    rw [map_append, oneTerminal_body hrj hbo nofun]
    exact oneTerminal_documents hrj (.inl rfl) hd hdo hne body
  | anthropic hde hd hs hd' =>
    rw [map_append, oneTerminal_body hrj hbo nofun]
    exact oneTerminal_anthropic hde hd hs hd' hne body
  | responses hd hf => exact oneTerminal_responses hrj hd hf hbo hne
  | gemini hd hf =>
    rw [map_append, oneTerminal_body hrj hbo nofun]
    exact oneTerminal_gemini hrj hd hne body
  | geminiDone hd hf hdo =>
    rw [map_append, oneTerminal_body hrj hbo nofun]
    exact oneTerminal_documents hrj (.inr rfl) hd hdo hne body

end

theorem StreamPipe.one_terminal_iff {p : StreamPipe} {env : Surroundings} {chunks : List Bytes}
    (h : Converts p env chunks.flatten) (hne : ∀ chunk ∈ chunks, chunk ≠ [])
    {body tail : List Bytes} (hevents : dataEvents chunks.flatten = body ++ tail)
    (hbody : ∀ event ∈ body, endEvent p.rj p.source event = false)
    (htail : TerminalSequence p.rj p.source tail) : oneTerminal p.target
        (deltas p.rj p.target (clientBytes (p.run env (chunks.map .bytes)).log)) = true ↔
      endsOnce p.rj p.source p.target body tail = true := by
  rw [deltas_run h hne, deltas, hevents, map_map]
  have hcount := oneTerminal_eq_endsOnce h.lawful h.formats hbody htail
  exact Bool.eq_iff_iff.1 hcount

theorem deltas_pipeBetween {source target : Format} (hf : source ≠ target) {stream : Bytes}
    (hne : stream ≠ []) : deltas compact target (clientBytes ((pipeBetween source target).run
      StreamPipe.patientClient ([stream].map .bytes)).log) =
        (dataEvents stream).map (clientDelta compact source target) := by
  have hc : StreamPipe.Converts (pipeBetween source target) StreamPipe.patientClient
      [stream].flatten := converts_pipeBetween hf _
  have hr := StreamPipe.deltas_run hc (by simpa using hne)
  rw [flatten_singleton] at hr
  refine hr.trans ?_
  rw [deltas, map_map]
  rfl

def answerBody : List (Bytes × Json) := [
  ("message_start", .object [("type", .str "message_start"), ("message", .object [])]),
  ("content_block_delta", .object [
    ("type", .str "content_block_delta"), ("index", .int 0),
    ("delta", .object [("type", .str "text_delta"), ("text", .str "Hi")])])]

def answerTail : List (Bytes × Json) := [
  ("message_delta", .object [
    ("type", .str "message_delta"), ("delta", .object [("stop_reason", .str "end_turn")])]),
  ("message_stop", .object [("type", .str "message_stop")])]

def sentEvent (e : Bytes × Json) : Bytes := eventOf (eventLines (e.1, compact.write e.2))

theorem dataEvents_answer : dataEvents (documentStream (answerBody ++ answerTail)) =
    answerBody.map sentEvent ++ answerTail.map sentEvent := by
  rw [dataEvents_documentStream, map_append]
  · rfl
  · unfold answerBody answerTail
    simp only [cons_append, nil_append, forall_mem_cons]
    exact ⟨⟨by decide, by decide, by decide⟩, ⟨by decide, by decide, by decide⟩,
      ⟨by decide, by decide, by decide⟩, ⟨by decide, by decide, by decide⟩, by simp⟩

theorem endEvent_answerBody :
    ∀ event ∈ answerBody.map sentEvent, endEvent compact .anthropic event = false := by
  rw [answerBody, map_cons, map_singleton, forall_mem_cons, forall_mem_singleton]
  constructor
  · rw [endEvent, sentEvent, (documentAt_event ⟨by decide, by decide, by decide⟩ rfl).1]; decide
  · rw [endEvent, sentEvent, (documentAt_event ⟨by decide, by decide, by decide⟩ rfl).1]; decide

theorem terminalSequence_answerTail :
    TerminalSequence compact .anthropic (answerTail.map sentEvent) := by
  have hd : Sendable "message_delta" := ⟨by decide, by decide, by decide⟩
  have hs : Sendable "message_stop" := ⟨by decide, by decide, by decide⟩
  exact .anthropic (documentAt_event hd rfl).1 (documentAt_event hd rfl).2
    (documentAt_event hs rfl).1 (documentAt_event hs rfl).2

theorem StreamPipe.answer_ends_once :
    oneTerminal .openAIChatCompletions (deltas compact .openAIChatCompletions
      (clientBytes ((pipeBetween .anthropic .openAIChatCompletions).run StreamPipe.patientClient
        ([documentStream (answerBody ++ answerTail)].map .bytes)).log)) = true := by
  have hconverts : Converts (pipeBetween .anthropic .openAIChatCompletions)
      StreamPipe.patientClient [documentStream (answerBody ++ answerTail)].flatten :=
    converts_pipeBetween (by decide) _
  refine (one_terminal_iff hconverts ?_ ?_ endEvent_answerBody terminalSequence_answerTail).2 rfl
  · simp [documentStream, answerBody, streamOf, eventOf]
  · rw [flatten_singleton]; exact dataEvents_answer

theorem StreamPipe.answer_ends_twice : oneTerminal .openAIResponses (deltas compact .openAIResponses
        (clientBytes ((pipeBetween .anthropic .openAIResponses).run StreamPipe.patientClient
          ([documentStream (answerBody ++ answerTail)].map .bytes)).log)) = false ∧
      dataEvents (documentStream (answerBody ++ answerTail)) =
        answerBody.map sentEvent ++ answerTail.map sentEvent ∧ (∀ event ∈ answerBody.map sentEvent,
        endEvent compact .anthropic event = false) ∧
      TerminalSequence compact .anthropic (answerTail.map sentEvent) := by
  refine ⟨?_, dataEvents_answer, endEvent_answerBody, terminalSequence_answerTail⟩
  rw [deltas_pipeBetween (by decide) (by simp [documentStream, answerBody, streamOf, eventOf]),
    dataEvents_answer]
  exact oneTerminal_eq_endsOnce streamLawful_compact (by decide) endEvent_answerBody
    terminalSequence_answerTail

end Gateway.Forwarder
