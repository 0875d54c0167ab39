import Gateway.Forwarder.StreamPipe

/-! # What one step of the pipe can do -/

namespace Gateway.Forwarder.StreamPipe

open Lib Protocol Cutter List

variable {outcome : ReadOutcome} {chunk : Bytes} {st st' : PipeState}

section

variable (p : StreamPipe) (env : Surroundings)

section

variable (st : PipeState)

@[simp] theorem finish_acc : (finish env st).acc = st.acc := by
  unfold finish PipeState.tick
  rfl

@[simp] theorem finish_streamStart : (finish env st).streamStart = st.streamStart := by
  unfold finish PipeState.tick
  rfl

@[simp] theorem finish_log : (finish env st).log = st.log := by
  unfold finish PipeState.tick
  rfl

@[simp] theorem finish_result : (finish env st).result = { st.result with
    totalDurationMs := toInt32 (env.clock st.clockCalls - st.streamStart).toNat } := by
  unfold finish PipeState.tick
  rfl

@[simp] theorem clientLost_acc : (clientLost env st).acc = st.acc := by
  unfold clientLost
  rw [finish_acc]

@[simp] theorem clientLost_streamStart : (clientLost env st).streamStart = st.streamStart := by
  unfold clientLost
  rw [finish_streamStart]

@[simp] theorem clientLost_log : (clientLost env st).log = st.log := by
  unfold clientLost
  rw [finish_log]

@[simp] theorem tick_acc : st.tick.acc = st.acc := rfl

@[simp] theorem tick_streamStart : st.tick.streamStart = st.streamStart := rfl

@[simp] theorem tick_log : st.tick.log = st.log := rfl

@[simp] theorem tick_result : st.tick.result = st.result := rfl

@[simp] theorem received_acc : (received env st).acc = st.acc := by
  unfold received
  simp only
  split <;> rfl

@[simp] theorem received_streamStart : (received env st).streamStart = st.streamStart := by
  unfold received
  simp only
  split <;> rfl

@[simp] theorem received_log : (received env st).log = st.log := by
  unfold received
  simp only
  split <;> rfl

theorem received_result :
    ∃ ms, (received env st).result = { st.result with firstTokenMs := ms } := by
  unfold received PipeState.tick
  cases hf : st.firstTokenReceived with
  | true => exact ⟨st.result.firstTokenMs, by simp only [if_true]⟩
  | false =>
    refine ⟨toInt32 (env.clock st.clockCalls - st.streamStart).toNat, ?_⟩
    simp only [Bool.false_eq_true, if_false]

@[simp] theorem received_incomplete :
    (received env st).result.incomplete = st.result.incomplete := by
  obtain ⟨ms, h⟩ := received_result env st
  rw [h]

@[simp] theorem received_terminalEventSeen :
    (received env st).result.terminalEventSeen = st.result.terminalEventSeen := by
  obtain ⟨ms, h⟩ := received_result env st
  rw [h]

end

theorem offer_spec (onAccept : PipeState → PipeState) (same : PipeState → PipeState → Prop)
    (hr : ∀ st k, same st { st with writeCalls := k })
    (ha : ∀ st k st', same (onAccept { st with writeCalls := k }) st' → same st st') :
    ∀ (n : Nat) (data delivered : Bytes) (st : PipeState), data.length ≤ n →
      same st (offer env onAccept n data delivered st).st ∧
      ∃ sent, (offer env onAccept n data delivered st).delivered = delivered ++ sent ∧
        sent <+: data ∧ ((offer env onAccept n data delivered st).accepted → sent = data) := by
  intro n
  induction n with
  | zero =>
    intro data delivered st hl
    have hn : data = [] := length_eq_zero_iff.1 (by omega)
    subst hn
    exact ⟨hr st st.writeCalls, [], by simp [offer], nil_prefix, fun _ => rfl⟩
  | succ n ih =>
    intro data delivered st hl
    unfold offer
    by_cases he : data.isEmpty
    · rw [if_pos he]
      have hn : data = [] := List.isEmpty_iff.1 he
      subst hn
      exact ⟨hr st st.writeCalls, [], by simp, nil_prefix, fun _ => rfl⟩
    · rw [if_neg he]
      simp only
      by_cases hc : env.write st.writeCalls data ≤ 0
      · rw [if_pos hc]; exact ⟨hr st _, [], by simp, nil_prefix, fun h => by cases h⟩
      · rw [if_neg hc]
        have hs : (data.drop (env.write st.writeCalls data).toNat).length ≤ n := by
          rw [length_drop]
          have : 0 < (env.write st.writeCalls data).toNat := by omega
          omega
        obtain ⟨hsa, sent, hse, hp, hal⟩ := ih
          (data.drop (env.write st.writeCalls data).toNat)
          (delivered ++ data.take (env.write st.writeCalls data).toNat)
          (onAccept { st with writeCalls := st.writeCalls + 1 }) hs
        refine ⟨ha st _ _ hsa, data.take (env.write st.writeCalls data).toNat ++ sent, ?_, ?_, ?_⟩
        · rw [hse, append_assoc]
        · obtain ⟨rest, hre⟩ := hp
          refine ⟨rest, ?_⟩
          rw [append_assoc, hre, take_append_drop]
        · intro haccept; rw [hal haccept, take_append_drop]

theorem writeAll_cases (origin : Origin) (data : Bytes) (st : PipeState) :
    ∃ k delivered, delivered <+: data ∧ ((writeAll env origin data st = (true, { st with
          writeCalls := k, log := st.log ++ [.wrote origin delivered]
          result.bytesForwarded := st.result.bytesForwarded + data.length }) ∧ delivered = data) ∨
        writeAll env origin data st = (false, { st with
          writeCalls := k, log := st.log ++ [.wrote origin delivered]
          result.clientDisconnect := true })) := by
  have hs := offer_spec env id (fun st st' => ∃ k, st' = { st with writeCalls := k })
    (fun st k => ⟨k, rfl⟩) (fun st k st' ⟨k', h⟩ => ⟨k', h⟩)
    data.length data [] st (Nat.le_refl _)
  obtain ⟨⟨k, hk⟩, sent, hse, hp, ha⟩ := hs
  refine ⟨k, sent, hp, ?_⟩
  unfold writeAll
  simp only
  rw [hk, hse]
  cases hacc : (offer env id data.length data [] st).accepted with
  | true => exact Or.inl ⟨rfl, ha hacc⟩
  | false => exact Or.inr rfl

theorem emitPolicyError_spec (st : PipeState) :
    ∃ k delivered bytes lost, delivered <+: p.policyErrorEvent st.result ∧
      p.emitPolicyError env st = { st with
        writeCalls := k, log := st.log ++ [.wrote .policyError delivered]
        result.bytesForwarded := bytes, result.clientDisconnect := lost } := by
  obtain ⟨k, delivered, hp, h⟩ := writeAll_cases env .policyError (p.policyErrorEvent st.result) st
  unfold emitPolicyError
  rcases h with ⟨h, -⟩ | h
  · exact ⟨k, delivered, _, st.result.clientDisconnect, hp, by rw [h]⟩
  · exact ⟨k, delivered, st.result.bytesForwarded, _, hp, by rw [h]⟩

theorem zeroCopy_cases (chunk : Bytes) (st : PipeState) : ∃ k c w delivered,
      zeroCopy env chunk st = .ok { st with
          writeCalls := k, clockCalls := c, lastWriteMs := w
          log := st.log ++ [.wrote .raw delivered]
          result.bytesForwarded := st.result.bytesForwarded + chunk.length } ∨
        zeroCopy env chunk st = .error (clientLost env { st with
          writeCalls := k, clockCalls := c, lastWriteMs := w
          log := st.log ++ [.wrote .raw delivered]
          result.clientDisconnect := true }) := by
  have hs := offer_spec env (touchWrite env)
    (fun st st' => ∃ k c w, st' = { st with writeCalls := k, clockCalls := c, lastWriteMs := w })
    (fun st k => ⟨k, st.clockCalls, st.lastWriteMs, rfl⟩)
    (fun st k st' ⟨k', c, w, h⟩ => ⟨k', c, w, h⟩)
    chunk.length chunk [] st (Nat.le_refl _)
  obtain ⟨⟨k, c, w, hst⟩, sent, hse, -, -⟩ := hs
  refine ⟨k, c, w, sent, ?_⟩
  unfold zeroCopy
  simp only
  rw [hst, hse]
  cases (offer env (touchWrite env) chunk.length chunk [] st).accepted with
  | true => exact Or.inl rfl
  | false => exact Or.inr rfl

def afterAsking (content : Bytes) (decision : StreamPolicyDecision) (st : PipeState) : PipeState :=
  { st with
    log := st.log ++ [.asked content decision]
    policyCalls := st.policyCalls + 1 }

variable (provider client : Bytes)

theorem applyPolicy_cases (st : PipeState) :
    (p.applyPolicy provider client st = (true, st) ∧ (p.config.policy = none ∨ p.exempt provider)) ∨
      (∃ d : StreamPolicyDecision, d.disposition = .allow ∧ p.applyPolicy provider client st =
          (true, afterAsking (policyContent provider client) d st)) ∨
      (∃ (d : StreamPolicyDecision) (st' : PipeState),
        (st' = st ∨ st' = afterAsking (policyContent provider client) d st) ∧
        p.exempt provider = false ∧ p.applyPolicy provider client st =
          (false, { st' with result := refused d st'.result })) := by
  unfold applyPolicy
  cases hp : p.config.policy with
  | none => exact Or.inl ⟨rfl, Or.inl rfl⟩
  | some policy =>
    simp only
    cases he : p.exempt provider with
    | true => exact Or.inl ⟨rfl, Or.inr rfl⟩
    | false =>
      right
      simp only [Bool.false_eq_true, if_false]
      unfold askPolicy
      by_cases hl : (policyContent provider client).length > p.config.maxPolicyEventBytes
      · rw [if_pos hl]; exact Or.inr ⟨tooLarge, st, Or.inl rfl, trivial, rfl⟩
      · rw [if_neg hl]
        simp only
        by_cases ha :
            (policy st.policyCalls (policyContent provider client)).disposition = .allow
        · rw [if_pos ha]; exact Or.inl ⟨_, ha, rfl⟩
        · rw [if_neg ha]; exact Or.inr ⟨_, _, Or.inr rfl, trivial, rfl⟩

theorem deliver_cases (st : PipeState) : (∃ st', p.applyPolicy provider client st = (false, st') ∧
        p.deliver env provider client st = .error (finish env (p.emitPolicyError env st'))) ∨
      ∃ st', p.applyPolicy provider client st = (true, st') ∧
        ((client = [] ∧ p.deliver env provider client st = .ok st') ∨
          ∃ k delivered, client ≠ [] ∧ delivered <+: client ∧
            ((delivered = client ∧ p.deliver env provider client st = .ok { st' with
                writeCalls := k, log := st'.log ++ [.wrote (.event provider client) delivered]
                result.bytesForwarded := st'.result.bytesForwarded + client.length }) ∨
              p.deliver env provider client st = .error (clientLost env { st' with
                writeCalls := k, log := st'.log ++ [.wrote (.event provider client) delivered]
                result.clientDisconnect := true }))) := by
  unfold deliver
  cases hap : p.applyPolicy provider client st with
  | mk allowed st' =>
    simp only
    cases allowed with
    | false => exact Or.inl ⟨st', rfl, rfl⟩
    | true =>
      refine Or.inr ⟨st', rfl, ?_⟩
      cases client with
      | nil => exact Or.inl ⟨rfl, rfl⟩
      | cons c cs =>
        right
        obtain ⟨k, delivered, hp, ⟨h, ha⟩ | h⟩ :=
          writeAll_cases env (.event provider (c :: cs)) (c :: cs) st'
        · exact ⟨k, delivered, cons_ne_nil c cs, hp, Or.inl ⟨ha, by rw [h]; rfl⟩⟩
        · exact ⟨k, delivered, cons_ne_nil c cs, hp, Or.inr (by rw [h]; rfl)⟩

def SameAcc (st st' : PipeState) : Prop := st'.acc = st.acc ∧ st'.streamStart = st.streamStart

theorem SameAcc.refl (st : PipeState) : SameAcc st st := ⟨rfl, rfl⟩

theorem SameAcc.trans (a b c : PipeState) (hab : SameAcc a b) (hbc : SameAcc b c) : SameAcc a c :=
  ⟨hbc.1.trans hab.1, hbc.2.trans hab.2⟩

theorem applyPolicy_acc (st : PipeState) : SameAcc st (p.applyPolicy provider client st).2 := by
  rcases applyPolicy_cases p provider client st with ⟨h, -⟩ | ⟨d, -, h⟩ | ⟨d, st', hst', -, h⟩
  · rw [h]; exact SameAcc.refl st
  · rw [h]; exact ⟨rfl, rfl⟩
  · rw [h]
    rcases hst' with rfl | rfl <;> exact ⟨rfl, rfl⟩

theorem deliver_acc (st : PipeState) : SameAcc st (stateOf (p.deliver env provider client st)) := by
  have hacc : ∀ {b st'}, p.applyPolicy provider client st = (b, st') → SameAcc st st' := by
    intro b st' h
    have := applyPolicy_acc p provider client st
    rwa [h] at this
  rcases deliver_cases p env provider client st with
    ⟨st', ha, h⟩ | ⟨st', ha, ⟨-, h⟩ | ⟨k, delivered, -, -, ⟨-, h⟩ | h⟩⟩
  · obtain ⟨k, delivered, bytes, lost, -, he⟩ := emitPolicyError_spec p env st'
    rw [h, he]
    simpa [SameAcc] using hacc ha
  all_goals
    rw [h]
    simpa [SameAcc] using hacc ha

theorem transformOne_acc (st : PipeState) (event : Bytes) :
    SameAcc st (stateOf (p.transformOne env st event)) :=
  deliver_acc p env event (p.transformEvent event) _

theorem readFailed_cases (errno : Int) (st : PipeState) :
    (p.readFailed env errno st = .ok st.tick ∧ providerDisconnectErrno errno = false ∧
        p.silentTooLong env st = false) ∨
      ∃ gone late clock ms, (providerDisconnectErrno errno ∨ p.silentTooLong env st) ∧
        p.readFailed env errno st = .error { st with
          clockCalls := clock
          result.incomplete := true
          result.providerDisconnect := gone
          result.timedOut := late
          result.totalDurationMs := ms } := by
  unfold readFailed
  cases hd : providerDisconnectErrno errno with
  | true => exact Or.inr ⟨true, st.result.timedOut, _, _, Or.inl rfl, rfl⟩
  | false =>
    cases hs : p.silentTooLong env st with
    | true => exact Or.inr ⟨st.result.providerDisconnect, true, _, _, Or.inr rfl, rfl⟩
    | false => exact Or.inl ⟨rfl, rfl, rfl⟩

theorem round_cases (onSilence : PipeState → Flow) (onChunk : Bytes → PipeState → Flow)
    (st : PipeState) (outcome : ReadOutcome) : (p.totalTimeout env st ∧
        p.round env onSilence onChunk st outcome = .error (timeOut env st.tick)) ∨
      p.totalTimeout env st = false ∧ ((∃ errno, outcome = .error errno ∧
            p.round env onSilence onChunk st outcome =
              p.readFailed env errno st.tick >>= onSilence) ∨ (outcome = .bytes [] ∧
            p.round env onSilence onChunk st outcome = .error (endOfStream env st.tick)) ∨
          ∃ b bs, outcome = .bytes (b :: bs) ∧ p.round env onSilence onChunk st outcome =
              onChunk (b :: bs) (received env st.tick)) := by
  unfold round
  cases ht : p.totalTimeout env st with
  | true => exact Or.inl ⟨rfl, rfl⟩
  | false =>
    refine Or.inr ⟨rfl, ?_⟩
    match outcome with
    | .error errno => exact Or.inl ⟨errno, rfl, rfl⟩
    | .bytes [] => exact Or.inr (Or.inl ⟨rfl, rfl⟩)
    | .bytes (b :: bs) => exact Or.inr (Or.inr ⟨b, bs, rfl, rfl⟩)

theorem keepalive_cases (st : PipeState) :
    (p.keepaliveDue env st = false ∧ p.keepalive env st = (false, st.tick)) ∨
      (p.keepaliveDue env st ∧ ∃ delivered, delivered <+: keepaliveComment ∧
        p.keepalive env st = (decide (env.write st.writeCalls keepaliveComment ≤ 0), { st.tick with
            writeCalls := st.writeCalls + 1
            log := st.log ++ [.wrote .keepalive delivered] })) := by
  unfold keepalive
  cases hd : p.keepaliveDue env st with
  | false => exact Or.inl ⟨rfl, rfl⟩
  | true => exact Or.inr ⟨rfl, _, take_prefix _ _, rfl⟩

theorem keepRest_cases (rest : Bytes) (st : PipeState) :
    (p.keepRest env rest st = .ok { st with acc := p.keptTail rest } ∧
        ¬ (p.config.policy.isSome ∧ rest.length > p.config.maxPolicyEventBytes)) ∨
      (p.config.policy.isSome ∧ rest.length > p.config.maxPolicyEventBytes ∧
        p.keepRest env rest st =
          .error (finish env (p.emitPolicyError env (p.applyPolicy rest rest st).2))) := by
  unfold keepRest
  by_cases h : p.config.policy.isSome ∧ rest.length > p.config.maxPolicyEventBytes
  · rw [if_pos (by simpa using h)]; exact Or.inr ⟨h.1, h.2, rfl⟩
  · rw [if_neg (by simpa using h)]; exact Or.inl ⟨rfl, h⟩

theorem zeroCopy_acc (chunk : Bytes) (st : PipeState) :
    SameAcc st (stateOf (zeroCopy env chunk st)) := by
  obtain ⟨k, c, w, delivered, h | h⟩ := zeroCopy_cases env chunk st
  · rw [h]; exact ⟨rfl, rfl⟩
  · rw [h]; simp [SameAcc]

theorem passSilence_acc (st : PipeState) : SameAcc st (stateOf (p.passSilence env st)) := by
  unfold passSilence
  split
  · rcases keepalive_cases p env st with ⟨-, h⟩ | ⟨-, delivered, -, h⟩
    · rw [h]; exact ⟨rfl, rfl⟩
    · rw [h]
      simp only
      split
      · simp [SameAcc]
      · exact ⟨rfl, rfl⟩
  · exact SameAcc.refl st

theorem step_eof (st : PipeState) : p.step env st (.bytes []) =
    .error (if p.totalTimeout env st then timeOut env st.tick else endOfStream env st.tick) := by
  have hr : ∀ onSilence onChunk, p.round env onSilence onChunk st (.bytes []) =
      .error (if p.totalTimeout env st then timeOut env st.tick else endOfStream env st.tick) := by
    intro onSilence onChunk
    unfold round
    split <;> rfl
  unfold step
  split
  · exact hr _ _
  · exact hr _ _

@[simp] theorem timeOut_log (st : PipeState) : (timeOut env st).log = st.log := by
  unfold timeOut
  rw [finish_log]

@[simp] theorem endOfStream_log (st : PipeState) : (endOfStream env st).log = st.log := by
  unfold endOfStream
  rw [finish_log]
  split <;> rfl

def taken (acc : Bytes) : ReadOutcome → List Bytes × Bytes
  | .error _ => ([], acc)
  | .bytes chunk =>
    let (events, rest) := nextEvent.frames (acc ++ chunk)
    (events, if p.mode = .passthrough then p.keptTail rest else rest)

def cutEvents : Bytes → List ReadOutcome → List Bytes
  | _, [] => []
  | _, .bytes [] :: _ => []
  | acc, outcome :: outcomes =>
    (p.taken acc outcome).1 ++ cutEvents (p.taken acc outcome).2 outcomes

theorem cutEvents_cons (acc : Bytes) (hm : outcome ≠ .bytes []) (outcomes : List ReadOutcome) :
    p.cutEvents acc (outcome :: outcomes) =
      (p.taken acc outcome).1 ++ p.cutEvents (p.taken acc outcome).2 outcomes := by
  match outcome with
  | .error errno => rfl
  | .bytes [] => exact absurd rfl hm
  | .bytes (b :: bs) => rfl

theorem passOn_acc (chunk : Bytes) (st : PipeState) :
    SameAcc st (stateOf (p.passOn env chunk st)) := by
  unfold passOn
  split
  · exact zeroCopy_acc env chunk st
  · exact SameAcc.refl st

theorem acc_of_passEvents (h : p.passEvents env chunk st = .ok st') :
    st'.acc = p.keptTail (nextEvent.frames (st.acc ++ chunk)).2 ∧ ¬ (p.config.policy.isSome ∧
        (nextEvent.frames (st.acc ++ chunk)).2.length > p.config.maxPolicyEventBytes) := by
  unfold passEvents at h
  simp only at h
  cases hf : (nextEvent.frames (st.acc ++ chunk)).1.foldlM (p.passEvent env) st with
  | error st1 => rw [hf] at h; cases h
  | ok st1 =>
    rw [hf, ok_bind] at h
    rcases keepRest_cases p env (nextEvent.frames (st.acc ++ chunk)).2 st1 with
      ⟨hk, hl⟩ | ⟨-, -, hk⟩
    · rw [hk] at h; cases h; exact ⟨rfl, hl⟩
    · rw [hk] at h; cases h

theorem acc_of_passChunk (h : p.passChunk env chunk st = .ok st') :
    st'.acc = p.keptTail (nextEvent.frames (st.acc ++ chunk)).2 ∧ ¬ (p.config.policy.isSome ∧
        (nextEvent.frames (st.acc ++ chunk)).2.length > p.config.maxPolicyEventBytes) := by
  unfold passChunk at h
  have hf := passOn_acc p env chunk st
  cases hon : p.passOn env chunk st with
  | error st1 => rw [hon] at h; cases h
  | ok st1 =>
    rw [hon, ok_bind] at h
    rw [hon] at hf
    rw [← show st1.acc = st.acc from hf.1]; exact acc_of_passEvents p env h

theorem acc_of_transformChunk (h : p.transformChunk env chunk st = .ok st') :
    st'.acc = (nextEvent.frames (st.acc ++ chunk)).2 := by
  unfold transformChunk at h
  simp only at h
  cases hf : (nextEvent.frames (st.acc ++ chunk)).1.foldlM (p.transformOne env) st with
  | error st1 => rw [hf] at h; cases h
  | ok st1 => rw [hf] at h; cases h; rfl

theorem acc_of_step (h : p.step env st outcome = .ok st') :
    st'.acc = (p.taken st.acc outcome).2 := by
  unfold step at h
  have hro : ∀ onSilence onChunk, p.round env onSilence onChunk st outcome = .ok st' →
      (∀ errno, outcome = .error errno → ∃ s, s.acc = st.acc ∧ onSilence s = .ok st') ∧
      (∀ chunk, outcome = .bytes chunk → ∃ s, s.acc = st.acc ∧ onChunk chunk s = .ok st') := by
    intro onSilence onChunk hr
    unfold round at hr
    split at hr
    · cases hr
    · cases outcome with
      | error errno =>
        refine ⟨fun e _ => ?_, fun chunk hc => (by cases hc)⟩
        rcases readFailed_cases p env errno st.tick with ⟨hf, -, -⟩ | ⟨gone, late, clock, ms, -, hf⟩
        · simp only [hf, ok_bind] at hr; exact ⟨st.tick.tick, rfl, hr⟩
        · simp only [hf] at hr; cases hr
      | bytes chunk =>
        cases chunk with
        | nil => cases hr
        | cons b bs =>
          refine ⟨fun errno he => (by cases he), fun c hc => ?_⟩
          cases hc
          exact ⟨received env st.tick, received_acc env st.tick, hr⟩
  by_cases hm : p.mode = .passthrough
  · rw [if_pos hm] at h
    obtain ⟨her, hby⟩ := hro _ _ h
    cases outcome with
    | error errno =>
      obtain ⟨s, hs, hk⟩ := her errno rfl
      have := passSilence_acc p env s
      rw [hk] at this; exact this.1.trans hs
    | bytes chunk =>
      obtain ⟨s, hs, hk⟩ := hby chunk rfl
      rw [(acc_of_passChunk p env hk).1, hs]
      simp [taken, hm]
  · rw [if_neg hm] at h
    obtain ⟨her, hby⟩ := hro _ _ h
    cases outcome with
    | error errno => obtain ⟨s, hs, hk⟩ := her errno rfl; cases hk; exact hs
    | bytes chunk =>
      obtain ⟨s, hs, hk⟩ := hby chunk rfl
      rw [acc_of_transformChunk p env hk, hs]
      simp [taken, hm]

end

def Within (limit : Nat) (bytes : Bytes) : Prop :=
  (∀ event ∈ (nextEvent.frames bytes).1, event.length ≤ limit) ∧
    (nextEvent.frames bytes).2.length ≤ limit

theorem within_of_append {limit : Nat} {bytes more : Bytes} (h : Within limit (bytes ++ more)) :
    Within limit bytes := by
  obtain ⟨hev, hr⟩ := h
  rw [frames_append] at hev hr
  refine ⟨fun event he => hev event (mem_append_left _ he), ?_⟩
  have hn := nextEvent.cut_rest bytes
  cases hc : nextEvent.cut ((nextEvent.frames bytes).2 ++ more) with
  | none => rw [frames_of_none hc, length_append] at hr; omega
  | some fr =>
    obtain ⟨event, rest⟩ := fr
    rw [frames_of_some hc] at hev
    have hl := length_lt_of_cutEvent_append hn hc
    have heve := hev event (mem_append_right _ mem_cons_self)
    omega

end Gateway.Forwarder.StreamPipe
