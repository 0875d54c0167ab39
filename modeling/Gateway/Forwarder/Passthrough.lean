import Gateway.Forwarder.Chunking

/-! # The policy path and the zero-copy path -/

namespace Gateway.Forwarder.StreamPipe

open Lib Cutter List

def CompleteEvent (event : Bytes) : Prop := nextEvent.cut event = some (event, [])

variable {events : List Bytes} {st : PipeState}

section

variable (p : StreamPipe) (env : Surroundings)

def noted (d : Delivered) (event : Bytes) : Delivered :=
  { d with result := p.noteTerminal event (p.readUsage event d.result) }

def sending (d : Delivered) (bytes : Bytes) : Delivered where
  result := { d.result with bytesForwarded := d.result.bytesForwarded + bytes.length }
  written := d.written ++ bytes

def sent (bytes : Bytes) : Bytes :=
  if p.config.policy.isNone then bytes else (nextEvent.frames bytes).1.flatten

def held (event : Bytes) : Bytes := if p.config.policy.isNone then [] else event

def passed (bytes : Bytes) : Delivered :=
  sending ((nextEvent.frames bytes).1.foldl p.noted {}) (p.sent bytes)

def passedThrough (bytes : Bytes) : Delivered := atEnd (p.passed bytes)

variable (d : Delivered) (bytes : Bytes)

theorem sending_nil : sending d [] = d := by
  simp [sending]

theorem sending_sending (a b : Bytes) : sending (sending d a) b = sending d (a ++ b) := by
  simp [sending, Int.add_assoc]

theorem noted_sending (event : Bytes) :
    p.noted (sending d bytes) event = sending (p.noted d event) bytes := by
  unfold noted sending noteTerminal readUsage
  simp only
  split <;> rfl

theorem foldl_noted_sending (events : List Bytes) (d : Delivered) (bytes : Bytes) :
    events.foldl p.noted (sending d bytes) = sending (events.foldl p.noted d) bytes := by
  induction events generalizing d with
  | nil => rfl
  | cons event events ih => rw [foldl_cons, noted_sending, ih, foldl_cons]

theorem foldl_noted_held (events : List Bytes) (d : Delivered) :
    events.foldl (fun d event => sending (p.noted d event) (p.held event)) d =
      sending (events.foldl p.noted d) (events.flatMap p.held) := by
  induction events generalizing d with
  | nil => exact (sending_nil d).symm
  | cons event events ih =>
    rw [foldl_cons, ih, foldl_noted_sending, sending_sending, foldl_cons, flatMap_cons]

theorem passed_append (chunk : Bytes) : p.passed (bytes ++ chunk) =
      (nextEvent.frames ((nextEvent.frames bytes).2 ++ chunk)).1.foldl
        (fun d event => sending (p.noted d event) (p.held event))
        (sending (p.passed bytes) (if p.config.policy.isNone then chunk else [])) := by
  rw [foldl_noted_held]
  unfold passed
  rw [frames_append, foldl_append, sending_sending, foldl_noted_sending, sending_sending]
  congr 1
  unfold sent held
  cases p.config.policy with
  | none => simp
  | some policy =>
    simp only [Option.isNone_some, Bool.false_eq_true, if_false, append_nil, flatMap_id']
    rw [frames_append, flatten_append]

def Lenient : Prop :=
  ∀ policy, p.config.policy = some policy → ∀ n content, (policy n content).disposition = .allow

theorem view_noted (st : PipeState) (event : Bytes) :
    view { st with result := p.noteTerminal event (p.readUsage event st.result) } =
      p.noted (view st) event := by
  have ht : untimed (p.noteTerminal event (p.readUsage event st.result)) =
      p.noteTerminal event (p.readUsage event (untimed st.result)) := by
    unfold noteTerminal
    split <;> rfl
  unfold view noted
  rw [ht]

theorem applyPolicy_lenient (hlenient : Lenient p) {event : Bytes}
    (hf : event.length ≤ p.config.maxPolicyEventBytes) (st : PipeState) :
    ∃ st', p.applyPolicy event event st = (true, st') ∧ view st' = view st ∧ SameAcc st st' := by
  unfold applyPolicy
  cases hp : p.config.policy with
  | none => exact ⟨st, rfl, rfl, SameAcc.refl st⟩
  | some policy =>
    simp only
    by_cases he : p.exempt event
    · exact ⟨st, if_pos he, rfl, SameAcc.refl st⟩
    · have hc : policyContent event event = event := by
        unfold policyContent
        split <;> rfl
      have ha : p.askPolicy policy event st =
          (policy st.policyCalls event, afterAsking event (policy st.policyCalls event) st) :=
        if_neg (by omega)
      refine ⟨afterAsking event (policy st.policyCalls event) st, ?_, ?_, rfl, rfl⟩
      · rw [if_neg he, hc, ha]; exact if_pos (hlenient policy hp _ _)
      · unfold view; rw [afterAsking, clientBytes_append]; simp [clientBytes]

section

variable {p env} (hpatient : Patient p env)

include hpatient in
theorem zeroCopy_patient (chunk : Bytes) (st : PipeState) :
    ∃ st', zeroCopy env chunk st = .ok st' ∧ view st' = sending (view st) chunk ∧
      SameAcc st st' := by
  obtain ⟨k, c, w, h⟩ := zeroCopy_taken hpatient.takes chunk st
  refine ⟨_, h, ?_, rfl, rfl⟩
  exact view_written { st with clockCalls := c, lastWriteMs := w } k .raw chunk

include hpatient in
theorem passOn_patient (chunk : Bytes) (st : PipeState) :
    ∃ st', p.passOn env chunk st = .ok st' ∧ SameAcc st st' ∧
      view st' = sending (view st) (if p.config.policy.isNone then chunk else []) := by
  unfold passOn
  by_cases hn : p.config.policy.isNone
  · rw [if_pos hn, if_pos hn]
    obtain ⟨st', h, hv, hs⟩ := zeroCopy_patient hpatient chunk st
    exact ⟨st', h, hs, hv⟩
  · rw [if_neg hn, if_neg hn, sending_nil]; exact ⟨st, rfl, SameAcc.refl st, rfl⟩

variable (hlenient : Lenient p)

include hpatient hlenient in
theorem passEvent_lenient {event : Bytes} (hfi : event.length ≤ p.config.maxPolicyEventBytes)
    (st : PipeState) : ∃ st', p.passEvent env st event = .ok st' ∧ SameAcc st st' ∧
      view st' = sending (p.noted (view st) event) (p.held event) := by
  unfold passEvent held
  by_cases hn : p.config.policy.isNone
  · rw [if_pos hn, if_pos hn, sending_nil]; exact ⟨_, rfl, ⟨rfl, rfl⟩, view_noted p st event⟩
  · rw [if_neg hn, if_neg hn, ← view_noted]
    have hs : SameAcc st
        { st with result := p.noteTerminal event (p.readUsage event st.result) } := ⟨rfl, rfl⟩
    revert hs
    generalize { st with result := p.noteTerminal event (p.readUsage event st.result) } = s
    intro hs
    obtain ⟨s', hap, hv, -⟩ := applyPolicy_lenient p hlenient hfi s
    have hd := viewFlow_deliver_passed p env hpatient hap
    have ha := deliver_acc p env event event s
    cases hf : p.deliver env event event s with
    | error t => rw [hf] at hd; cases hd
    | ok t =>
      rw [hf] at hd ha
      refine ⟨touchWrite env t, rfl, SameAcc.trans _ _ _ hs ha, ?_⟩
      have ht : view (touchWrite env t) = view t := rfl
      rw [ht, Except.ok.inj hd, ← hv]; rfl

include hpatient hlenient in
theorem foldlM_passEvent_lenient
    (hf : ∀ event ∈ events, event.length ≤ p.config.maxPolicyEventBytes) (st : PipeState) :
    ∃ st', events.foldlM (p.passEvent env) st = .ok st' ∧ SameAcc st st' ∧
      view st' = events.foldl (fun d event => sending (p.noted d event) (p.held event))
        (view st) := by
  induction events generalizing st with
  | nil => exact ⟨st, rfl, SameAcc.refl st, rfl⟩
  | cons event events ih =>
    obtain ⟨s, hs, hsa, hv⟩ := passEvent_lenient hpatient hlenient (hf event mem_cons_self) st
    obtain ⟨t, ht, hs', hv'⟩ := ih (fun e he => hf e (mem_cons_of_mem event he)) s
    refine ⟨t, ?_, SameAcc.trans _ _ _ hsa hs', ?_⟩
    · rw [foldlM_cons, hs, ok_bind, ht]
    · rw [hv', hv, foldl_cons]

structure Passed (p : StreamPipe) (env : Surroundings) (bytes : Bytes) (st : PipeState) : Prop where
  started : st.streamStart = env.clock 0
  rest : st.acc = (nextEvent.frames bytes).2
  viewed : view st = p.passed bytes

variable (hlimit : p.config.maxPolicyEventBytes ≤ p.config.readBufSize * 4)

include hpatient hlenient hlimit in
theorem passChunk_lenient {bytes chunk : Bytes}
    (hf : Within p.config.maxPolicyEventBytes (bytes ++ chunk)) (hst : Passed p env bytes st) :
    ∃ st', p.passChunk env chunk st = .ok st' ∧ Passed p env (bytes ++ chunk) st' := by
  obtain ⟨s, hs, hsa, hv⟩ := passOn_patient hpatient chunk st
  obtain ⟨hev, hr⟩ := hf
  rw [frames_append] at hev hr
  simp only at hr
  have ha : s.acc ++ chunk = (nextEvent.frames bytes).2 ++ chunk := by rw [hsa.1, hst.rest]
  obtain ⟨t, ht, hs', hv'⟩ := foldlM_passEvent_lenient hpatient hlenient
    (fun event he => hev event (mem_append_right _ he)) s
  have hk : p.keepRest env (nextEvent.frames ((nextEvent.frames bytes).2 ++ chunk)).2 t =
      .ok { t with acc := (nextEvent.frames ((nextEvent.frames bytes).2 ++ chunk)).2 } := by
    have hta : p.keptTail (nextEvent.frames ((nextEvent.frames bytes).2 ++ chunk)).2 =
        (nextEvent.frames ((nextEvent.frames bytes).2 ++ chunk)).2 := if_neg (by omega)
    rcases keepRest_cases p env (nextEvent.frames ((nextEvent.frames bytes).2 ++ chunk)).2 t with
      ⟨h, -⟩ | ⟨-, hl, -⟩
    · rw [h, hta]
    · omega
  refine ⟨{ t with acc := (nextEvent.frames ((nextEvent.frames bytes).2 ++ chunk)).2 }, ?_, ?_, ?_,
    ?_⟩
  · unfold passChunk passEvents
    rw [hs, ok_bind, ha]
    simp only
    rw [ht, ok_bind, hk]
  · exact (hs'.2.trans hsa.2).trans hst.started
  · exact (congrArg Prod.snd (frames_append bytes chunk)).symm
  · rw [passed_append, ← hst.viewed, ← hv]; exact hv'

theorem passed_received {bytes : Bytes} (h : Passed p env bytes st) :
    Passed p env bytes (received env st.tick) :=
  ⟨by simpa using h.started, by simpa using h.rest, by simpa using h.viewed⟩

variable (hmode : p.mode = .passthrough)

include hmode hpatient hlenient hlimit

theorem view_drive_passthrough (chunks : List Bytes) (hne : ∀ chunk ∈ chunks, chunk ≠ [])
    (bytes : Bytes) (hf : Within p.config.maxPolicyEventBytes (bytes ++ chunks.flatten))
    (hst : Passed p env bytes st) : view (drive (p.step env) (.bytes []) (chunks.map .bytes) st) =
      p.passedThrough (bytes ++ chunks.flatten) := by
  induction chunks generalizing bytes st with
  | nil =>
    simp only [map_nil, drive, step_eof, stateOf_error, flatten_nil, append_nil,
      totalTimeout_patient hpatient hst.started, Bool.false_eq_true, if_false]
    rw [view_endOfStream, view_tick, hst.viewed]; rfl
  | cons chunk chunks ih =>
    rw [flatten_cons, ← append_assoc] at hf ⊢
    obtain ⟨s, hs, hp⟩ := passChunk_lenient hpatient hlenient hlimit (within_of_append hf)
      (passed_received hst)
    have hste : p.step env st (.bytes chunk) = .ok s := by
      unfold step
      rw [if_pos hmode, round_chunk hpatient _ _ hst.started (hne chunk mem_cons_self), hs]
    rw [map_cons, drive_cons_of_ok hste]
    exact ih (fun c hc => hne c (mem_cons_of_mem chunk hc)) _ hf hp

theorem view_run_passthrough {chunks : List Bytes} (hne : ∀ chunk ∈ chunks, chunk ≠ [])
    (hf : Within p.config.maxPolicyEventBytes chunks.flatten) :
    view (p.run env (chunks.map .bytes)) = p.passedThrough chunks.flatten := by
  have hs : Passed p env [] (start env) := by
    refine ⟨rfl, rfl, ?_⟩
    have hse : p.sent [] = [] := by
      unfold sent
      split <;> rfl
    unfold passed
    rw [hse, sending_nil]; rfl
  exact view_drive_passthrough hpatient hlenient hlimit hmode chunks hne [] hf hs

end

theorem written_foldl_noted (events : List Bytes) (d : Delivered) :
    (events.foldl p.noted d).written = d.written := by
  induction events generalizing d with
  | nil => rfl
  | cons event events ih => exact ih (p.noted d event)

theorem written_passedThrough : (p.passedThrough bytes).written = p.sent bytes := by
  have he : ∀ d : Delivered, (atEnd d).written = d.written := by
    intro d
    unfold atEnd
    split <;> rfl
  unfold passedThrough passed sending
  rw [he, written_foldl_noted]
  rfl

theorem sent_events (h : ∀ event ∈ events, CompleteEvent event) :
    p.sent events.flatten = events.flatten := by
  unfold sent
  rw [frames_flatten h, ite_self]

end

def withPolicy (p : StreamPipe) (policy : Option StreamPolicyFn) : StreamPipe :=
  { p with config.policy := policy }

theorem passedThrough_withPolicy (p : StreamPipe) (policy policy' : Option StreamPolicyFn)
    (h : ∀ event ∈ events, CompleteEvent event) :
    (p.withPolicy policy).passedThrough events.flatten =
      (p.withPolicy policy').passedThrough events.flatten := by
  unfold passedThrough passed
  rw [sent_events _ h, sent_events _ h]
  rfl

theorem allowing_policy_agrees {p : StreamPipe} (hmode : p.mode = .passthrough)
    (hlimit : p.config.maxPolicyEventBytes ≤ p.config.readBufSize * 4)
    {policy : StreamPolicyFn} (hallows : ∀ n content, (policy n content).disposition = .allow)
    {events : List Bytes} (hevents : ∀ event ∈ events, CompleteEvent event)
    (hsmall : ∀ event ∈ events, event.length ≤ p.config.maxPolicyEventBytes)
    {chunks chunks' : List Bytes} (hne : ∀ chunk ∈ chunks, chunk ≠ [])
    (hne' : ∀ chunk ∈ chunks', chunk ≠ []) (hsplit : chunks.flatten = events.flatten)
    (hsplit' : chunks'.flatten = events.flatten) {env env' : Surroundings}
    (hpatient : Patient p env) (hpatient' : Patient p env') :
    clientBytes ((p.withPolicy (some policy)).run env (chunks.map .bytes)).log =
        clientBytes ((p.withPolicy none).run env' (chunks'.map .bytes)).log ∧
      untimed ((p.withPolicy (some policy)).run env (chunks.map .bytes)).result =
        untimed ((p.withPolicy none).run env' (chunks'.map .bytes)).result ∧
      clientBytes ((p.withPolicy (some policy)).run env (chunks.map .bytes)).log =
        events.flatten := by
  have hfits : Within p.config.maxPolicyEventBytes events.flatten := by
    unfold Within
    rw [frames_flatten hevents]
    exact ⟨hsmall, Nat.zero_le _⟩
  have hlenient : Lenient (p.withPolicy (some policy)) := by
    intro q hq
    cases hq; exact hallows
  have hlenient' : Lenient (p.withPolicy none) := fun q hq => by cases hq
  have hclient : Patient (p.withPolicy (some policy)) env := ⟨hpatient.takes, hpatient.inTime⟩
  have hclient' : Patient (p.withPolicy none) env' := ⟨hpatient'.takes, hpatient'.inTime⟩
  have hguarded := view_run_passthrough hclient hlenient hlimit hmode hne (by rwa [hsplit])
  have hbare := view_run_passthrough hclient' hlenient' hlimit hmode hne' (by rwa [hsplit'])
  rw [hsplit] at hguarded
  rw [hsplit'] at hbare
  have hboth := hguarded.trans ((passedThrough_withPolicy p (some policy) none hevents).trans
    hbare.symm)
  refine ⟨congrArg Delivered.written hboth, congrArg Delivered.result hboth, ?_⟩
  have hwritten := (congrArg Delivered.written hguarded).trans (written_passedThrough _ _)
  rwa [sent_events _ hevents] at hwritten

def passingPipe : StreamPipe := guardedPipe (answering .allow) (contentJson "hi")

theorem greeting_agrees :
    clientBytes ((passingPipe.withPolicy (some (answering .allow))).run patientClient
        ([greetingBytes.take 50, greetingBytes.drop 50].map .bytes)).log =
      clientBytes ((passingPipe.withPolicy none).run patientClient
        ([greetingBytes].map .bytes)).log := by
  have hevents : ∀ event ∈ [contentEvent "hi", ascii "data: [DONE]\n\n"], CompleteEvent event := by
    unfold CompleteEvent
    decide +kernel
  exact (allowing_policy_agrees rfl (by decide) (fun n content => rfl) hevents (by decide +kernel)
    (by decide +kernel) (by decide +kernel) (by decide +kernel) (by decide +kernel)
    (patientClient_patient passingPipe) (patientClient_patient passingPipe)).1

end Gateway.Forwarder.StreamPipe
