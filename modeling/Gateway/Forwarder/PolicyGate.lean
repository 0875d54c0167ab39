import Gateway.Lib.Trace
import Gateway.Forwarder.PipeSteps

/-! # The content-policy gate -/

namespace Gateway.Forwarder.StreamPipe

open Lib List
open Protocol (Format)

def dataLines (event : Bytes) : List Bytes :=
  (lines event).filterMap fun line => (fieldValue "data:" line).map trimCr

def carriesNoText (source : Format) (event : Bytes) : Bool :=
  dataLines event == ["[DONE]"] || (source == .anthropic && eventType event == "message_stop")

variable {action : PipeAction} {log : List PipeAction} {st st' st'' : PipeState} {provider : Bytes}
  {outcome : ReadOutcome}

section

variable (p : StreamPipe) (env : Surroundings)

variable {events : List Bytes}

def clientForm (event : Bytes) : Bytes :=
  if p.mode = .passthrough then event else p.transformEvent event

def ActionOk (events : List Bytes) (earlier : List PipeAction) : PipeAction → Prop
  | .asked _ _ => True
  | .wrote .policyError delivered => ∃ r, delivered <+: p.policyErrorEvent r
  | .wrote .keepalive delivered => delivered <+: keepaliveComment
  | .wrote .raw _ => False
  | .wrote (.event provider client) delivered =>
    provider ∈ events ∧ client = p.clientForm provider ∧ delivered <+: client ∧
      (carriesNoText p.source provider = true ∨
        ∃ decision, .asked client decision ∈ earlier ∧ decision.disposition = .allow)

def Gated (events : List Bytes) (log : List PipeAction) : Prop :=
  EachAfter (ActionOk p events) log

variable {p}

theorem ActionOk.mono {earlier earlier' : List PipeAction}
    (he : earlier ⊆ earlier') (h : ActionOk p events earlier action) :
    ActionOk p events earlier' action := by
  cases action with
  | asked content decision => trivial
  | wrote origin delivered =>
    cases origin with
    | policyError => exact h
    | keepalive => exact h
    | raw => exact h
    | event provider client =>
      obtain ⟨hm, hc, hp, hok⟩ := h
      refine ⟨hm, hc, hp, ?_⟩
      rcases hok with hno | ⟨decision, ha, hal⟩
      · exact Or.inl hno
      · exact Or.inr ⟨decision, he ha, hal⟩

theorem Gated.append {acts : List PipeAction} (hl : Gated p events log)
    (ha : Gated p events acts) : Gated p events (log ++ acts) := by
  refine eachAfter_append.2 ⟨hl, ha.mono fun earlier action h => ?_⟩
  exact h.mono (subset_append_right log earlier)

theorem Gated.snoc (hl : Gated p events log)
    (h : ActionOk p events log action) : Gated p events (log ++ [action]) :=
  eachAfter_snoc.2 ⟨hl, h⟩

theorem Gated.singleton (h : ActionOk p events [] action) : Gated p events [action] := by
  have hs : Gated p events ([] ++ [action]) := Gated.snoc eachAfter_nil h
  exact hs

def Grows (p : StreamPipe) (events : List Bytes) (st st' : PipeState) : Prop :=
  ∃ acts, st'.log = st.log ++ acts ∧ Gated p events acts

theorem Grows.of_eq (h : st'.log = st.log) : Grows p events st st' :=
  ⟨[], by rw [h, append_nil], eachAfter_nil⟩

theorem Grows.refl (events : List Bytes) (st : PipeState) : Grows p events st st := Grows.of_eq rfl

theorem Grows.trans (h : Grows p events st st') (h' : Grows p events st' st'') :
    Grows p events st st'' := by
  obtain ⟨acts, hl, hg⟩ := h
  obtain ⟨acts', hl', hg'⟩ := h'
  exact ⟨acts ++ acts', by rw [hl', hl, append_assoc], hg.append hg'⟩

theorem Grows.emitPolicyError (events : List Bytes) (st : PipeState) :
    Grows p events st (p.emitPolicyError env st) := by
  obtain ⟨k, delivered, bytes, lost, hp, h⟩ := emitPolicyError_spec p env st
  exact ⟨[.wrote .policyError delivered], by rw [h], Gated.singleton ⟨_, hp⟩⟩

theorem Grows.applyPolicy (events : List Bytes) (provider client : Bytes) (st : PipeState) :
    Grows p events st (p.applyPolicy provider client st).2 := by
  have ha : ∀ d st', st' = st ∨ st' = afterAsking (policyContent provider client) d st →
      Grows p events st st' := by
    rintro d st' (rfl | rfl)
    · exact Grows.refl events _
    · exact ⟨[.asked (policyContent provider client) d], rfl, Gated.singleton trivial⟩
  rcases applyPolicy_cases p provider client st with ⟨h, -⟩ | ⟨d, -, h⟩ | ⟨d, st', hst', -, h⟩
  · rw [h]; exact Grows.refl events st
  · rw [h]; exact ha d _ (Or.inr rfl)
  · rw [h]; exact (ha d st' hst').trans (Grows.of_eq rfl)

theorem Grows.allowedWrite {client delivered : Bytes}
    (hpolicy : p.config.policy.isSome) (hm : provider ∈ events)
    (hexempt : p.exempt provider → carriesNoText p.source provider)
    (hc : client = p.clientForm provider) (hco : policyContent provider client = client)
    (ha : p.applyPolicy provider client st = (true, st')) (hp : delivered <+: client)
    (hl : st''.log = st'.log ++ [.wrote (.event provider client) delivered]) :
    Grows p events st st'' := by
  rcases applyPolicy_cases p provider client st with ⟨h, hw⟩ | ⟨d, hal, h⟩ | ⟨d, s, -, -, h⟩
  · rw [h] at ha
    cases ha
    have hno : carriesNoText p.source provider := by
      rcases hw with hn | hex
      · rw [hn] at hpolicy; cases hpolicy
      · exact hexempt hex
    exact ⟨_, hl, Gated.singleton ⟨hm, hc, hp, Or.inl hno⟩⟩
  · rw [h, hco] at ha
    cases ha
    refine ⟨[.asked client d, .wrote (.event provider client) delivered], ?_, ?_⟩
    · rw [hl]; simp [afterAsking]
    · have has : Gated p events [.asked client d] := Gated.singleton trivial
      exact has.snoc ⟨hm, hc, hp, Or.inr ⟨d, mem_singleton_self _, hal⟩⟩
  · rw [h] at ha; cases ha

theorem Grows.deliver {client : Bytes} (hpolicy : p.config.policy.isSome)
    (hm : provider ∈ events) (hexempt : p.exempt provider → carriesNoText p.source provider)
    (hcl : client = p.clientForm provider) :
    Grows p events st (stateOf (p.deliver env provider client st)) := by
  have has : Grows p events st (p.applyPolicy provider client st).2 :=
    Grows.applyPolicy events provider client st
  rcases deliver_cases p env provider client st with
    ⟨st', ha, h⟩ | ⟨st', ha, ⟨-, h⟩ | ⟨k, delivered, hne, hp, ⟨-, h⟩ | h⟩⟩
  · rw [h]
    rw [ha] at has
    exact (has.trans (Grows.emitPolicyError env events st')).trans (Grows.of_eq (by simp))
  · rw [h]; rw [ha] at has; exact has
  · have hc : policyContent provider client = client := by
      simp [policyContent, List.isEmpty_iff, hne]
    rw [h]
    exact Grows.allowedWrite hpolicy hm hexempt hcl hc ha hp rfl
  · have hc : policyContent provider client = client := by
      simp [policyContent, List.isEmpty_iff, hne]
    rw [h]
    exact Grows.allowedWrite hpolicy hm hexempt hcl hc ha hp (by simp)

theorem Grows.round {onSilence : PipeState → Flow}
    {onChunk : Bytes → PipeState → Flow} (hs : ∀ s, Grows p events s (stateOf (onSilence s)))
    (hc : ∀ chunk s, outcome = .bytes chunk → s.acc = st.acc →
      Grows p events s (stateOf (onChunk chunk s))) :
    Grows p events st (stateOf (p.round env onSilence onChunk st outcome)) := by
  unfold StreamPipe.round
  split
  · exact Grows.of_eq (by simp)
  · cases outcome with
    | error errno =>
      rcases readFailed_cases p env errno st.tick with ⟨hf, -, -⟩ | ⟨gone, late, clock, ms, -, hf⟩
      · simp only [hf, ok_bind]; exact (Grows.of_eq rfl).trans (hs st.tick.tick)
      · simp only [hf]; exact Grows.of_eq rfl
    | bytes chunk =>
      cases chunk with
      | nil => exact Grows.of_eq (by simp)
      | cons b bs =>
        refine Grows.trans (Grows.of_eq ?_) (hc _ (received env st.tick) rfl (by simp))
        simp

theorem Grows.passSilence (events : List Bytes) (st : PipeState) :
    Grows p events st (stateOf (p.passSilence env st)) := by
  unfold StreamPipe.passSilence
  split
  · rcases keepalive_cases p env st with ⟨-, h⟩ | ⟨-, delivered, hp, h⟩
    · rw [h]; exact Grows.of_eq rfl
    · have hg : Gated p events [.wrote .keepalive delivered] := Gated.singleton hp
      rw [h]
      simp only
      split
      · exact ⟨_, by simp, hg⟩
      · exact ⟨_, rfl, hg⟩
  · exact Grows.refl events st

section

variable {events : List Bytes} (hpolicy : p.config.policy.isSome = true)
  (hexempt : ∀ event ∈ events, p.exempt event = true → carriesNoText p.source event = true)

include hpolicy hexempt

theorem Grows.passChunk {chunk : Bytes} (hmode : p.mode = .passthrough)
    (hsu : (nextEvent.frames (st.acc ++ chunk)).1 ⊆ events) :
    Grows p events st (stateOf (p.passChunk env chunk st)) := by
  have hon : p.passOn env chunk st = .ok st := by
    unfold passOn
    cases hp : p.config.policy with
    | none => rw [hp] at hpolicy; cases hpolicy
    | some policy => rfl
  have he : ∀ event ∈ (nextEvent.frames (st.acc ++ chunk)).1, ∀ s,
      Grows p events s (stateOf (p.passEvent env s event)) := by
    intro event hm s
    have hd : Grows p events
        { s with result := p.noteTerminal event (p.readUsage event s.result) }
        (stateOf (p.deliver env event event
          { s with result := p.noteTerminal event (p.readUsage event s.result) })) :=
      Grows.deliver env hpolicy (hsu hm) (hexempt event (hsu hm)) (by simp [clientForm, hmode])
    have hs := Grows.trans (Grows.of_eq rfl) hd
    unfold passEvent
    simp only
    split
    · exact Grows.of_eq rfl
    · cases hr : p.deliver env event event
          { s with result := p.noteTerminal event (p.readUsage event s.result) } with
      | error s' => rw [hr] at hs; exact hs
      | ok s' => rw [hr] at hs; exact hs.trans (Grows.of_eq rfl)
  unfold StreamPipe.passChunk
  rw [hon, ok_bind]
  unfold passEvents
  simp only
  have hf := rel_foldlM (R := Grows p events) (fun _ _ _ => Grows.trans) (Grows.refl events)
    he st
  refine rel_bind (R := Grows p events) (fun _ _ _ => Grows.trans) hf fun s _ => ?_
  rcases keepRest_cases p env (nextEvent.frames (st.acc ++ chunk)).2 s with ⟨h, -⟩ | ⟨-, -, h⟩
  · rw [h]; exact Grows.of_eq rfl
  · have ha := Grows.applyPolicy (p := p) events (nextEvent.frames (st.acc ++ chunk)).2
      (nextEvent.frames (st.acc ++ chunk)).2 s
    rw [h, stateOf_error]
    refine (ha.trans (Grows.emitPolicyError env events _)).trans ?_
    exact Grows.of_eq (by simp)

theorem Grows.transformChunk {chunk : Bytes} (hmode : p.mode ≠ .passthrough)
    (hs : (nextEvent.frames (st.acc ++ chunk)).1 ⊆ events) :
    Grows p events st (stateOf (p.transformChunk env chunk st)) := by
  have he : ∀ event ∈ (nextEvent.frames (st.acc ++ chunk)).1, ∀ s,
      Grows p events s (stateOf (p.transformOne env s event)) := by
    intro event hm s
    refine Grows.trans (Grows.of_eq rfl) (Grows.deliver env hpolicy (hs hm)
      (hexempt event (hs hm)) ?_)
    simp [clientForm, hmode]
  unfold StreamPipe.transformChunk
  simp only
  have hf := rel_foldlM (R := Grows p events) (fun _ _ _ => Grows.trans) (Grows.refl events)
    he st
  refine rel_bind (R := Grows p events) (fun _ _ _ => Grows.trans) hf fun s _ => ?_
  exact Grows.of_eq rfl

theorem Grows.step (hs : (p.taken st.acc outcome).1 ⊆ events) :
    Grows p events st (stateOf (p.step env st outcome)) := by
  unfold StreamPipe.step
  by_cases hm : p.mode = .passthrough
  · rw [if_pos hm]
    refine Grows.round env (Grows.passSilence env events) ?_
    rintro chunk s rfl ha
    exact Grows.passChunk env hpolicy hexempt hm (by rw [ha]; exact hs)
  · rw [if_neg hm]
    refine Grows.round env (fun s => Grows.refl events s) ?_
    rintro chunk s rfl ha
    exact Grows.transformChunk env hpolicy hexempt hm (by rw [ha]; exact hs)

theorem Grows.drive (reads : List ReadOutcome) (hs : p.cutEvents st.acc reads ⊆ events) :
    Grows p events st (Lib.drive (p.step env) (.bytes []) reads st) := by
  have he : ∀ s : PipeState, Grows p events s (stateOf (p.step env s (.bytes []))) := by
    intro s
    rw [step_eof]
    refine Grows.of_eq ?_
    simp only [stateOf_error]
    split <;> simp
  induction reads generalizing st with
  | nil => exact he st
  | cons outcome outcomes ih =>
    by_cases heo : outcome = .bytes []
    · subst heo
      have h := he st
      rw [step_eof] at h
      rw [drive_cons_of_error (step_eof p env st)]; exact h
    · rw [cutEvents_cons p st.acc heo] at hs
      have hst := Grows.step env hpolicy hexempt (append_subset.1 hs).1
      cases hr : p.step env st outcome with
      | error s => rw [drive_cons_of_error hr]; rw [hr] at hst; exact hst
      | ok s =>
        rw [drive_cons_of_ok hr]
        rw [hr] at hst
        rw [← acc_of_step p env hr] at hs; exact hst.trans (ih (append_subset.1 hs).2)

end

variable (p)

theorem gated_run (reads : List ReadOutcome) (hpolicy : p.config.policy.isSome = true)
    (hexempt : ∀ event ∈ p.cutEvents [] reads,
      p.exempt event = true → carriesNoText p.source event = true) :
    Gated p (p.cutEvents [] reads) (p.run env reads).log := by
  have hgrows : Grows p (p.cutEvents [] reads) (start env)
      (Lib.drive (p.step env) (.bytes []) reads (start env)) :=
    Grows.drive env hpolicy hexempt reads (List.Subset.refl _)
  obtain ⟨acts, hlog, hgated⟩ := hgrows
  rw [run, hlog]
  exact hgated

end

def patientClient : Surroundings where
  clock _ := 0
  write _ data := data.length

def answering (disposition : StreamPolicyDisposition) : StreamPolicyFn :=
  fun _ _ => { disposition }

def guardedPipe (policy : StreamPolicyFn) (rj : RapidJson) : StreamPipe where
  config := { policy := some policy }
  mode := .passthrough
  target := .openAIChatCompletions
  rj := rj

def contentChunk (text : Bytes) : Json :=
  .object [("choices", .array [.object [("delta", .object [("content", .string text)])]])]

def contentChunkText (text : Bytes) : Bytes :=
  "\x7b\"choices\":[\x7b\"delta\":\x7b\"content\":\"" ++ text ++ "\"\x7d\x7d]\x7d"

def contentEvent (text : Bytes) : Bytes := "data: " ++ contentChunkText text ++ "\n\n"

def contentJson (text : Bytes) : RapidJson :=
  .ofTable [(contentChunkText text, contentChunk text)] []

def greeting : List ReadOutcome := [.bytes (contentEvent "hi"), .bytes "data: [DONE]\n\n"]

theorem greeting_gated :
    let p := guardedPipe (answering .allow) (contentJson "hi")
    p.cutEvents [] greeting = [contentEvent "hi", "data: [DONE]\n\n"] ∧
      Gated p (p.cutEvents [] greeting) (p.run patientClient greeting).log :=
  ⟨by decide +kernel, gated_run _ patientClient greeting rfl (by decide +kernel)⟩

theorem marker_in_text_passes_unasked :
    let p := guardedPipe (answering .block) (contentJson "send data: [DONE] last")
    let event := contentEvent "send data: [DONE] last"
    carriesNoText p.source event = false ∧
      (p.run patientClient [.bytes event]).log = [.wrote (.event event event) event] ∧
      ¬ Gated p (p.cutEvents [] [.bytes event]) (p.run patientClient [.bytes event]).log := by
  have hlog : ((guardedPipe (answering .block) (contentJson "send data: [DONE] last")).run
      patientClient [.bytes (contentEvent "send data: [DONE] last")]).log =
        [.wrote (.event (contentEvent "send data: [DONE] last")
          (contentEvent "send data: [DONE] last")) (contentEvent "send data: [DONE] last")] := by
    decide +kernel
  refine ⟨by decide +kernel, hlog, fun hgated => ?_⟩
  rw [hlog] at hgated
  obtain ⟨-, -, -, hno | ⟨d, hasked, -⟩⟩ := hgated [] _ [] rfl
  · revert hno
    decide +kernel
  · cases hasked

end Gateway.Forwarder.StreamPipe
