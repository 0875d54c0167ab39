import Gateway.Forwarder.PolicyGate

/-! # Chunking invariance of the transforming pipe -/

namespace Gateway.Forwarder.StreamPipe

open Lib List

structure Delivered where
  result : StreamResult := {}
  written : Bytes := []

def untimed (r : StreamResult) : StreamResult := { r with firstTokenMs := 0, totalDurationMs := 0 }

variable {provider chunk : Bytes} {st st' : PipeState}

section

variable (p : StreamPipe) (env : Surroundings)

def refusal (provider client : Bytes) : Option StreamPolicyDecision :=
  match p.config.policy with
  | none => none
  | some policy =>
    if p.exempt provider then none
    else
      let content := policyContent provider client
      let decision :=
        if content.length > p.config.maxPolicyEventBytes then tooLarge else policy 0 content
      if decision.disposition = .allow then none else some decision

def verdict (n : Nat) (provider client : Bytes) : Option StreamPolicyDecision × Nat :=
  match p.config.policy with
  | none => (none, n)
  | some policy =>
    if p.exempt provider then (none, n)
    else
      let content := policyContent provider client
      if content.length > p.config.maxPolicyEventBytes then (some tooLarge, n)
      else
        let decision := policy n content
        (if decision.disposition = .allow then none else some decision, n + 1)

def allowed (event : Bytes) : Bool := (p.refusal event (p.transformEvent event)).isNone

def deliverNext (d : Delivered) (event : Bytes) : Except Delivered Delivered :=
  let client := p.transformEvent event
  let noted := p.noteEvent event d.result
  match p.refusal event client with
  | none => .ok {
      result := { noted with bytesForwarded := noted.bytesForwarded + client.length }
      written := d.written ++ client }
  | some decision =>
    let r := refused decision noted
    let error := p.policyErrorEvent r
    .error {
      result := { r with bytesForwarded := r.bytesForwarded + error.length }
      written := d.written ++ error }

def atEnd (d : Delivered) : Delivered :=
  if d.result.terminalEventSeen then { d with result.completed := true }
  else { d with
    result.completed := true, result.incomplete := true, result.providerDisconnect := true }

def deliverAll (bytes : Bytes) : Delivered :=
  match (nextEvent.frames bytes).1.foldlM p.deliverNext {} with
  | .ok d => atEnd d
  | .error d => d

theorem tooLarge_refuses : tooLarge.disposition ≠ .allow := by decide

def DeliveredFrom (events : List Bytes) (d : Delivered) : Except Delivered Delivered → Prop
  | .ok d' => events.all p.allowed = true ∧
      d'.written = d.written ++ events.flatMap p.transformEvent
  | .error d' => events.all p.allowed = false ∧
      d'.written = d.written ++ (events.takeWhile p.allowed).flatMap p.transformEvent
        ++ p.policyErrorEvent d'.result

theorem foldlM_deliverNext (events : List Bytes) (d : Delivered) :
    DeliveredFrom p events d (events.foldlM p.deliverNext d) := by
  induction events generalizing d with
  | nil => exact ⟨rfl, (append_nil _).symm⟩
  | cons event events ih =>
    rw [foldlM_cons]
    cases hr : p.refusal event (p.transformEvent event) with
    | some decision =>
      have hs : p.allowed event = false := by simp [allowed, hr]
      simp only [deliverNext, hr, error_bind, DeliveredFrom]
      refine ⟨by simp [hs], ?_⟩
      rw [takeWhile_cons_of_neg (by simp [hs]), flatMap_nil, append_nil]; rfl
    | none =>
      have hp : p.allowed event := by simp [allowed, hr]
      simp only [deliverNext, hr, ok_bind]
      have hre := ih {
        result := { p.noteEvent event d.result with
          bytesForwarded := (p.noteEvent event d.result).bytesForwarded
            + (p.transformEvent event).length }
        written := d.written ++ p.transformEvent event }
      revert hre
      generalize events.foldlM p.deliverNext _ = flow
      intro hre
      cases flow with
      | ok d' =>
        refine ⟨by simp [hp, hre.1], ?_⟩
        rw [hre.2, flatMap_cons, append_assoc]
      | error d' =>
        refine ⟨by simp [hp, hre.1], ?_⟩
        rw [hre.2, takeWhile_cons_of_pos hp, flatMap_cons]
        simp only [append_assoc]

theorem written_deliverAll (bytes : Bytes) : (p.deliverAll bytes).written =
    ((nextEvent.frames bytes).1.takeWhile p.allowed).flatMap p.transformEvent ++
      if (nextEvent.frames bytes).1.all p.allowed then []
      else p.policyErrorEvent (p.deliverAll bytes).result := by
  have h := foldlM_deliverNext p (nextEvent.frames bytes).1 {}
  unfold deliverAll
  cases hf : (nextEvent.frames bytes).1.foldlM p.deliverNext {} with
  | ok d =>
    rw [hf] at h
    obtain ⟨ha, hw⟩ := h
    have hwh : (nextEvent.frames bytes).1.takeWhile p.allowed = (nextEvent.frames bytes).1 :=
      takeWhile_eq_self_iff.2 (all_eq_true.1 ha)
    rw [if_pos ha, hwh, append_nil]
    have hs : (atEnd d).written = d.written := by
      unfold atEnd
      split <;> rfl
    exact hs.trans hw
  | error d => rw [hf] at h; obtain ⟨hso, hw⟩ := h; rw [if_neg (by simp [hso])]; exact hw

structure Patient : Prop where
  takes : ∀ n data, data ≠ [] → 0 < env.write n data
  inTime : ∀ n, (env.clock n - env.clock 0).toNat ≤ p.config.totalTimeoutMs.toNat

def Stateless : Prop :=
  ∀ policy, p.config.policy = some policy → ∀ n content, policy n content = policy 0 content

def view (st : PipeState) : Delivered where
  result := untimed st.result
  written := clientBytes st.log

def viewFlow : Flow → Except Delivered Delivered
  | .ok st => .ok (view st)
  | .error st => .error (view st)

theorem clientBytes_append (log log' : List PipeAction) :
    clientBytes (log ++ log') = clientBytes log ++ clientBytes log' :=
  flatMap_append

theorem untimed_totalDurationMs (r : StreamResult) (ms : Int) :
    untimed { r with totalDurationMs := ms } = untimed r := rfl

@[simp] theorem view_finish (st : PipeState) : view (finish env st) = view st := by
  unfold view
  rw [finish_result, finish_log, untimed_totalDurationMs]

@[simp] theorem view_tick (st : PipeState) : view st.tick = view st := rfl

@[simp] theorem view_received (st : PipeState) : view (received env st) = view st := by
  obtain ⟨ms, h⟩ := received_result env st
  unfold view
  rw [h, received_log]
  rfl

theorem view_endOfStream (st : PipeState) : view (endOfStream env st) = atEnd (view st) := by
  unfold endOfStream atEnd
  rw [view_finish]
  have hs : (view st).result.terminalEventSeen = st.result.terminalEventSeen := rfl
  rw [hs]
  split <;> rfl

variable {env} (ht : ∀ n data, data ≠ [] → 0 < env.write n data)

include ht in
theorem offer_accepted (onAccept : PipeState → PipeState) :
    ∀ (n : Nat) (data delivered : Bytes) (st : PipeState),
      (offer env onAccept n data delivered st).accepted := by
  intro n
  induction n with
  | zero => exact fun data delivered st => rfl
  | succ n ih =>
    intro data delivered st
    unfold offer
    by_cases he : data.isEmpty
    · rw [if_pos he]
    · rw [if_neg he]
      have hne : data ≠ [] := fun h => he (List.isEmpty_iff.2 h)
      have hp := ht st.writeCalls data hne
      simp only
      rw [if_neg (by omega)]; exact ih _ _ _

include ht in
theorem writeAll_taken (origin : Origin) (data : Bytes) (st : PipeState) :
    ∃ k, writeAll env origin data st = (true, { st with
      writeCalls := k, log := st.log ++ [.wrote origin data]
      result.bytesForwarded := st.result.bytesForwarded + data.length }) := by
  have ha : (writeAll env origin data st).1 := by
    unfold writeAll
    simp only [offer_accepted ht id data.length data [] st, if_true]
  obtain ⟨k, delivered, -, ⟨h, rfl⟩ | h⟩ := writeAll_cases env origin data st
  · exact ⟨k, h⟩
  · rw [h] at ha; cases ha

include ht in
theorem zeroCopy_taken (chunk : Bytes) (st : PipeState) :
    ∃ k c w, zeroCopy env chunk st = .ok { st with
      writeCalls := k, clockCalls := c, lastWriteMs := w
      log := st.log ++ [.wrote .raw chunk]
      result.bytesForwarded := st.result.bytesForwarded + chunk.length } := by
  obtain ⟨⟨k, c, w, hst⟩, data, hd, -, hal⟩ := offer_spec env (touchWrite env)
    (fun st st' => ∃ k c w, st' = { st with writeCalls := k, clockCalls := c, lastWriteMs := w })
    (fun st k => ⟨k, st.clockCalls, st.lastWriteMs, rfl⟩)
    (fun st k st' ⟨k', c, w, h⟩ => ⟨k', c, w, h⟩)
    chunk.length chunk [] st (Nat.le_refl _)
  have ha := offer_accepted ht (touchWrite env) chunk.length chunk [] st
  rw [hal ha, nil_append] at hd
  refine ⟨k, c, w, ?_⟩
  unfold zeroCopy
  simp only [ha, if_true, hd, hst]
  rfl

variable (env)

theorem applyPolicy_verdict (provider client : Bytes) (st : PipeState) :
    ∃ st', st'.result = st.result ∧
      (st'.log = st.log ∨ ∃ content d, st'.log = st.log ++ [.asked content d]) ∧
      st'.policyCalls = (p.verdict st.policyCalls provider client).2 ∧
      p.applyPolicy provider client st = match (p.verdict st.policyCalls provider client).1 with
        | none => (true, st')
        | some decision => (false, { st' with result := refused decision st.result }) := by
  unfold applyPolicy verdict
  cases hp : p.config.policy with
  | none => exact ⟨st, rfl, .inl rfl, rfl, rfl⟩
  | some policy =>
    simp only
    by_cases he : p.exempt provider
    · simp only [he, if_true]; exact ⟨st, rfl, .inl rfl, rfl, rfl⟩
    · simp only [he, Bool.false_eq_true, if_false]
      unfold askPolicy
      by_cases hl : (policyContent provider client).length > p.config.maxPolicyEventBytes
      · simp only [hl, if_true, if_neg tooLarge_refuses]; exact ⟨st, rfl, .inl rfl, rfl, rfl⟩
      · simp only [hl, if_false]
        refine ⟨afterAsking (policyContent provider client)
          (policy st.policyCalls (policyContent provider client)) st, rfl, .inr ⟨_, _, rfl⟩, rfl,
            ?_⟩
        by_cases ha : (policy st.policyCalls (policyContent provider client)).disposition = .allow
        · simp only [ha, if_true]; rfl
        · simp only [ha, if_false]; rfl

theorem verdict_stateless (hstateless : Stateless p) (n : Nat) (provider client : Bytes) :
    (p.verdict n provider client).1 = p.refusal provider client := by
  unfold verdict refusal
  cases hp : p.config.policy with
  | none => rfl
  | some policy =>
    simp only [hstateless policy hp n]
    split
    · rfl
    · split
      · exact (if_neg tooLarge_refuses).symm
      · rfl

theorem untimed_noteEvent (event : Bytes) (r : StreamResult) :
    p.noteEvent event (untimed r) = untimed (p.noteEvent event r) := by
  have hr : ∀ r, p.readUsage event (untimed r) = untimed (p.readUsage event r) := fun r => rfl
  have ht : ∀ r, p.noteTerminal event (untimed r) = untimed (p.noteTerminal event r) := by
    intro r
    unfold noteTerminal
    split <;> rfl
  unfold noteEvent
  split
  · rw [hr, ht]
  · exact ht r

theorem view_written (st : PipeState) (k : Nat) (origin : Origin) (data : Bytes) : view { st with
      writeCalls := k, log := st.log ++ [.wrote origin data]
      result.bytesForwarded := st.result.bytesForwarded + data.length } =
    { result := { untimed st.result with
        bytesForwarded := st.result.bytesForwarded + data.length }
      written := clientBytes st.log ++ data } := by
  unfold view
  rw [clientBytes_append]
  simp only [clientBytes, flatMap_cons, flatMap_nil, append_nil]
  rfl

theorem viewFlow_deliver_refused (hpatient : Patient p env) {client : Bytes}
    (h : p.applyPolicy provider client st = (false, st')) :
    viewFlow (p.deliver env provider client st) = .error
      { result := { untimed st'.result with bytesForwarded :=
          st'.result.bytesForwarded + (p.policyErrorEvent st'.result).length }
        written := clientBytes st'.log ++ p.policyErrorEvent st'.result } := by
  obtain ⟨k, hw⟩ := writeAll_taken hpatient.takes .policyError
    (p.policyErrorEvent st'.result) st'
  have hd : p.deliver env provider client st =
      .error (finish env (p.emitPolicyError env st')) := by
    unfold deliver
    rw [h]; rfl
  rw [hd, emitPolicyError, hw, viewFlow, view_finish, view_written]

theorem viewFlow_deliver_passed (hpatient : Patient p env) {client : Bytes}
    (h : p.applyPolicy provider client st = (true, st')) :
    viewFlow (p.deliver env provider client st) = .ok
      { result := { untimed st'.result with
          bytesForwarded := st'.result.bytesForwarded + client.length }
        written := clientBytes st'.log ++ client } := by
  unfold deliver
  rw [h]
  cases client with
  | nil => simp [viewFlow, view, untimed]
  | cons c cs =>
    obtain ⟨k, hw⟩ := writeAll_taken hpatient.takes (.event provider (c :: cs)) (c :: cs) st'
    simp only [Bool.not_true, Bool.false_eq_true, if_false, isEmpty_cons, hw, if_true, viewFlow]
    rw [view_written]

theorem viewFlow_transformOne (hpatient : Patient p env) (hstateless : Stateless p) (st : PipeState)
    (event : Bytes) : viewFlow (p.transformOne env st event) = p.deliverNext (view st) event := by
  obtain ⟨st', hre, hlo, -, ha⟩ := applyPolicy_verdict p event
    (p.transformEvent event) { st with result := p.noteEvent event st.result }
  rw [verdict_stateless p hstateless] at ha
  have hby : clientBytes st'.log = clientBytes st.log := by
    rcases hlo with h | ⟨content, d, h⟩
    · rw [h]
    · rw [h, clientBytes_append]; exact append_nil _
  have hn : p.noteEvent event (view st).result = untimed (p.noteEvent event st.result) :=
    untimed_noteEvent p event st.result
  unfold transformOne deliverNext
  simp only [hn]
  cases hr : p.refusal event (p.transformEvent event) with
  | some decision => rw [hr] at ha; rw [viewFlow_deliver_refused p env hpatient ha, hby]; rfl
  | none => rw [hr] at ha; rw [viewFlow_deliver_passed p env hpatient ha, hby, hre]; rfl

theorem streamStart_of_transformChunk (h : p.transformChunk env chunk st = .ok st') :
    st'.streamStart = st.streamStart := by
  have hs : SameAcc st
      (stateOf ((nextEvent.frames (st.acc ++ chunk)).1.foldlM (p.transformOne env) st)) :=
    rel_foldlM SameAcc.trans SameAcc.refl (fun event _ s => transformOne_acc p env s event) st
  unfold transformChunk at h
  simp only at h
  cases hf : (nextEvent.frames (st.acc ++ chunk)).1.foldlM (p.transformOne env) st with
  | error s => rw [hf] at h; cases h
  | ok s => rw [hf] at h hs; cases h; exact hs.2

section

variable {p env} (hmode : p.mode ≠ .passthrough) (hpatient : Patient p env)
  (hstateless : Stateless p)

include hpatient in
theorem totalTimeout_patient (hs : st.streamStart = env.clock 0) :
    p.totalTimeout env st = false := by
  unfold totalTimeout
  rw [hs]
  exact decide_eq_false (Nat.not_lt.2 (hpatient.inTime st.clockCalls))

include hpatient in
theorem round_chunk (onSilence : PipeState → Flow) (onChunk : Bytes → PipeState → Flow)
    (hs : st.streamStart = env.clock 0) (hc : chunk ≠ []) :
    p.round env onSilence onChunk st (.bytes chunk) = onChunk chunk (received env st.tick) := by
  rcases round_cases p env onSilence onChunk st (.bytes chunk) with
    ⟨ht, -⟩ | ⟨-, ⟨errno, he, -⟩ | ⟨he, -⟩ | ⟨b, bs, he, h⟩⟩
  · rw [totalTimeout_patient hpatient hs] at ht; cases ht
  · cases he
  · exact absurd (ReadOutcome.bytes.inj he) hc
  · rw [h]; cases he; rfl

include hmode hpatient in
theorem step_chunk (hs : st.streamStart = env.clock 0) (hc : chunk ≠ []) :
    p.step env st (.bytes chunk) = p.transformChunk env chunk (received env st.tick) := by
  unfold step
  rw [if_neg hmode]
  exact round_chunk hpatient _ _ hs hc

def lookFlow {σ ρ : Type} (look : PipeState → σ) (final : PipeState → ρ) : Flow → Except ρ σ
  | .ok st => .ok (look st)
  | .error st => .error (final st)

structure Simulates (p : StreamPipe) (env : Surroundings) {σ ρ : Type} (look : PipeState → σ)
    (final : PipeState → ρ) (next : σ → Bytes → Except ρ σ) (close : σ → ρ) : Prop where
  event : ∀ st event, lookFlow look final (p.transformOne env st event) = next (look st) event
  received : ∀ st : PipeState, look (received env st.tick) = look st
  acc : ∀ (st : PipeState) (rest : Bytes), look { st with acc := rest } = look st
  ended : ∀ st : PipeState, final (endOfStream env st.tick) = close (look st)

namespace Simulates

variable {σ ρ : Type} {look : PipeState → σ} {final : PipeState → ρ}
  {next : σ → Bytes → Except ρ σ} {close : σ → ρ} (h : Simulates p env look final next close)

include h in
theorem foldlM (events : List Bytes) (st : PipeState) :
    lookFlow look final (events.foldlM (p.transformOne env) st) = events.foldlM next (look st) := by
  induction events generalizing st with
  | nil => rfl
  | cons event events ih =>
    rw [foldlM_cons, foldlM_cons, ← h.event]
    cases p.transformOne env st event with
    | error s => rfl
    | ok s => exact ih s

include h hmode hpatient

theorem step (hs : st.streamStart = env.clock 0) (hc : chunk ≠ []) :
    lookFlow (fun st => (look st, st.acc)) final (p.step env st (.bytes chunk)) =
      nextEvent.feed next (look st, st.acc) chunk := by
  rw [step_chunk hmode hpatient hs hc]
  unfold transformChunk Cutter.feed
  simp only [received_acc, tick_acc]
  rw [← h.received, ← h.foldlM]
  cases (nextEvent.frames (st.acc ++ chunk)).1.foldlM (p.transformOne env)
      (StreamPipe.received env st.tick) with
  | error s => rfl
  | ok s => exact congrArg (fun d => Except.ok (d, _)) (h.acc s _)

theorem drive (chunks : List Bytes) (hne : ∀ chunk ∈ chunks, chunk ≠ [])
    (hs : st.streamStart = env.clock 0) :
    final (Lib.drive (p.step env) (.bytes []) (chunks.map .bytes) st) =
      match chunks.foldlM (nextEvent.feed next) (look st, st.acc) with
      | .ok (d, _) => close d
      | .error d => d := by
  induction chunks generalizing st with
  | nil =>
    simp only [map_nil, Lib.drive, step_eof, stateOf_error,
      totalTimeout_patient hpatient hs, Bool.false_eq_true, if_false]
    rw [h.ended]; rfl
  | cons chunk chunks ih =>
    have hch := hne chunk mem_cons_self
    have hl := h.step hmode hpatient hs hch
    rw [map_cons, foldlM_cons, ← hl]
    cases hst : p.step env st (.bytes chunk) with
    | error s => rw [drive_cons_of_error hst]; rfl
    | ok s =>
      rw [drive_cons_of_ok hst]
      have hsa : s.streamStart = st.streamStart := by
        rw [step_chunk hmode hpatient hs hch] at hst
        simpa using streamStart_of_transformChunk p env hst
      exact ih (fun c hc => hne c (mem_cons_of_mem chunk hc)) (hsa.trans hs)

theorem run (chunks : List Bytes) (hne : ∀ chunk ∈ chunks, chunk ≠ []) :
    final (p.run env (chunks.map .bytes)) =
      match (nextEvent.frames chunks.flatten).1.foldlM next (look (start env)) with
      | .ok d => close d
      | .error d => d := by
  have hd := h.drive hmode hpatient chunks hne (show (start env).streamStart = _ from rfl)
  have hf := Cutter.foldlM_feed next chunks (look (start env)) [] (c := nextEvent) rfl
  unfold StreamPipe.run
  rw [hd, show (start env).acc = [] from rfl, hf, nil_append]
  cases (nextEvent.frames chunks.flatten).1.foldlM next (look (start env)) with
  | error d => rfl
  | ok d => rfl

end Simulates

include hpatient hstateless in
theorem simulates_view : Simulates p env view view p.deliverNext atEnd where
  event st event := by
    rw [← viewFlow_transformOne p env hpatient hstateless]
    cases p.transformOne env st event <;> rfl
  received st := by simp
  acc st rest := rfl
  ended st := by rw [view_endOfStream, view_tick]

include hmode hpatient hstateless in
theorem view_run (chunks : List Bytes) (hne : ∀ chunk ∈ chunks, chunk ≠ []) :
    view (p.run env (chunks.map .bytes)) = p.deliverAll chunks.flatten := by
  rw [(simulates_view hpatient hstateless).run hmode hpatient chunks hne, deliverAll,
    show view (start env) = {} from rfl]
  cases (nextEvent.frames chunks.flatten).1.foldlM p.deliverNext {} <;> rfl

end

variable {p} in
theorem transform_chunking_invariant {env env' : Surroundings} (hmode : p.mode ≠ .passthrough)
    (hstateless : Stateless p) (hpatient : Patient p env) (hpatient' : Patient p env')
    {chunks chunks' : List Bytes} (hne : ∀ chunk ∈ chunks, chunk ≠ [])
    (hne' : ∀ chunk ∈ chunks', chunk ≠ []) (hsame : chunks.flatten = chunks'.flatten) :
    clientBytes (p.run env (chunks.map .bytes)).log =
        clientBytes (p.run env' (chunks'.map .bytes)).log ∧
      untimed (p.run env (chunks.map .bytes)).result =
        untimed (p.run env' (chunks'.map .bytes)).result ∧
      clientBytes (p.run env (chunks.map .bytes)).log =
        ((nextEvent.frames chunks.flatten).1.takeWhile p.allowed).flatMap p.transformEvent ++
          if (nextEvent.frames chunks.flatten).1.all p.allowed then []
          else p.policyErrorEvent (p.run env (chunks.map .bytes)).result := by
  have hrun := view_run hmode hpatient hstateless chunks hne
  have hrun' := view_run hmode hpatient' hstateless chunks' hne'
  have hboth := hrun.trans ((congrArg p.deliverAll hsame).trans hrun'.symm)
  refine ⟨congrArg Delivered.written hboth, congrArg Delivered.result hboth, ?_⟩
  have hwritten := (congrArg Delivered.written hrun).trans (written_deliverAll p chunks.flatten)
  rw [← hrun] at hwritten
  exact hwritten

end

def convertingPipe : StreamPipe :=
  { guardedPipe (answering .allow) (contentJson "hi") with mode := .crossProtocol }

def greetingBytes : Bytes := contentEvent "hi" ++ "data: [DONE]\n\n"

theorem patientClient_patient (p : StreamPipe) : Patient p patientClient := by
  refine ⟨fun n data hne => ?_, fun n => ?_⟩
  · have hl := length_pos_iff.2 hne
    change 0 < (data.length : Int); omega
  · have hz : (patientClient.clock n - patientClient.clock 0).toNat = 0 := by simp [patientClient]
    omega

theorem greeting_in_two_pieces :
    clientBytes (convertingPipe.run patientClient ([greetingBytes].map .bytes)).log =
      clientBytes (convertingPipe.run patientClient
        ([greetingBytes.take 50, greetingBytes.drop 50].map .bytes)).log := by
  have hstateless : Stateless convertingPipe := by
    intro policy h n content
    cases h; rfl
  have hpatient := patientClient_patient convertingPipe
  exact (transform_chunking_invariant (by decide) hstateless hpatient hpatient
    (by decide +kernel) (by decide +kernel) (by decide +kernel)).1

end Gateway.Forwarder.StreamPipe
