import Gateway.Forwarder.Passthrough
import Gateway.Forwarder.StreamUsage
import Gateway.Forwarder.Transcript

/-! # Keepalives in a passed-through stream -/

namespace Gateway.Forwarder

open Lib Protocol Cutter List

def Placed (earlier : List PipeAction) (action : PipeAction) : Prop :=
  (∀ delivered, .wrote .policyError delivered ∉ earlier) ∧
    ∀ delivered, action = .wrote .keepalive delivered →
      (nextEvent.frames (clientBytes earlier)).2 = [] ∧ delivered = StreamPipe.keepaliveComment

def payload (log : List PipeAction) : Bytes :=
  log.flatMap fun
    | .wrote .keepalive _ | .wrote .policyError _ | .asked _ _ => []
    | .wrote _ delivered => delivered

structure Undamaged (upstream : Bytes) (log : List PipeAction) : Prop where
  placed : EachAfter Placed log
  initial : payload log <+: upstream

theorem payload_append (log log' : List PipeAction) :
    payload (log ++ log') = payload log ++ payload log' :=
  flatMap_append

def PipeAction.plain : PipeAction → Bool
  | .wrote .keepalive _ | .wrote .policyError _ => false
  | _ => true

def Plain (bytes : Bytes) (st st' : PipeState) : Prop :=
  ∃ acts, st'.log = st.log ++ acts ∧ (∀ a ∈ acts, a.plain = true) ∧ clientBytes acts = bytes

variable {st' : PipeState}

theorem Plain.refl {st : PipeState} (h : st'.log = st.log) : Plain [] st st' :=
  ⟨[], by rw [h, append_nil], by simp, rfl⟩

variable {a b : Bytes} {st'' : PipeState}

theorem Plain.trans {st : PipeState} (h : Plain a st st') (h' : Plain b st' st'') :
    Plain (a ++ b) st st'' := by
  obtain ⟨acts, hl, hp, hb⟩ := h
  obtain ⟨acts', hl', hp', hb'⟩ := h'
  refine ⟨acts ++ acts', by rw [hl', hl, append_assoc], ?_, ?_⟩
  · exact forall_mem_append.2 ⟨hp, hp'⟩
  · rw [StreamPipe.clientBytes_append, hb, hb']

theorem Plain.asked {st : PipeState} (content : Bytes) (decision : StreamPolicyDecision) :
    Plain [] st (StreamPipe.afterAsking content decision st) :=
  ⟨_, rfl, by simp [PipeAction.plain], rfl⟩

variable {acts : List PipeAction}

theorem payload_of_plain (h : ∀ a ∈ acts, a.plain) : payload acts = clientBytes acts := by
  induction acts with
  | nil => rfl
  | cons a acts ih =>
    have ha := h a mem_cons_self
    have hr := ih fun b hb => h b (mem_cons_of_mem a hb)
    unfold payload clientBytes at hr ⊢
    rw [flatMap_cons, flatMap_cons, hr]
    cases a with
    | asked content decision => rfl
    | wrote origin delivered => cases origin <;> first | rfl | cases ha

theorem placed_append {log : List PipeAction} (h : EachAfter Placed log)
    (hn : ∀ delivered, .wrote .policyError delivered ∉ log) (hp : ∀ a ∈ acts, a.plain) :
    EachAfter Placed (log ++ acts) ∧ ∀ delivered, .wrote .policyError delivered ∉ log ++ acts := by
  have her : ∀ delivered, .wrote .policyError delivered ∉ acts := by
    intro delivered hm
    cases hp _ hm
  have hno : ∀ delivered, .wrote .policyError delivered ∉ log ++ acts := fun delivered hm =>
    (mem_append.1 hm).elim (hn delivered) (her delivered)
  refine ⟨eachAfter_append.2 ⟨h, fun earlier a later heq => ⟨fun delivered hm => ?_, ?_⟩⟩, hno⟩
  · refine hno delivered ?_
    rw [heq, ← append_assoc]; exact mem_append_left _ hm
  · rintro delivered rfl; cases hp (.wrote .keepalive delivered) (by rw [heq]; simp)

variable {outcome : ReadOutcome}

namespace StreamPipe

section

variable {p : StreamPipe} {env : Surroundings} (ht : ∀ n data, data ≠ [] → 0 < env.write n data)

def Refused (bytes : Bytes) (st st' : PipeState) : Prop :=
  ∃ s part delivered, Plain part st s ∧ part <+: bytes ∧
    st'.log = s.log ++ [.wrote .policyError delivered]

def Delivers (bytes : Bytes) (st : PipeState) : Flow → Prop
  | .ok st' => Plain bytes st st'
  | .error st' => Refused bytes st st'

theorem Refused.after {st : PipeState} (h : Plain a st st') (h' : Refused b st' st'') :
    Refused (a ++ b) st st'' := by
  obtain ⟨s, part, delivered, hp, hpr, hl⟩ := h'
  exact ⟨s, a ++ part, delivered, h.trans hp, (prefix_append_right_inj a).2 hpr, hl⟩

theorem Delivers.after {st s : PipeState} {m : Flow} (h : Plain a st s) (hd : Delivers b s m) :
    Delivers (a ++ b) st m := by
  cases m with
  | ok t => exact Plain.trans h hd
  | error t => exact Refused.after h hd

theorem Delivers.bind {st : PipeState} {m : Flow} {k : PipeState → Flow} (h : Delivers a st m)
    (hk : ∀ s, m = .ok s → Delivers b s (k s)) : Delivers (a ++ b) st (m >>= k) := by
  cases m with
  | error s =>
    obtain ⟨t, part, delivered, hp, hpr, hl⟩ := h
    exact ⟨t, part, delivered, hp, hpr.trans (prefix_append a b), hl⟩
  | ok s => exact Delivers.after h (hk s rfl)

theorem refused_emit {bytes : Bytes} {st s : PipeState} (h : Plain [] st s) :
    Refused bytes st (finish env (p.emitPolicyError env s)) := by
  obtain ⟨k, delivered, b, lost, -, he⟩ := emitPolicyError_spec p env s
  exact ⟨s, [], delivered, h, nil_prefix, by rw [he]; rfl⟩

theorem plain_applyPolicy (provider client : Bytes) (st : PipeState) :
    Plain [] st (p.applyPolicy provider client st).2 := by
  rcases applyPolicy_cases p provider client st with ⟨h, -⟩ | ⟨d, -, h⟩ | ⟨d, st', hst', -, h⟩
  · rw [h]; exact .refl rfl
  · rw [h]; exact .asked _ _
  · rw [h]
    rcases hst' with rfl | rfl
    · exact .refl rfl
    · exact .asked _ _

include ht in
theorem delivers_deliver (event : Bytes) (st : PipeState) :
    Delivers event st (p.deliver env event event st) := by
  have hp := plain_applyPolicy (p := p) event event st
  unfold deliver
  cases hap : p.applyPolicy event event st with
  | mk allowed s =>
    rw [hap] at hp
    cases allowed with
    | false => exact refused_emit hp
    | true =>
      cases event with
      | nil => exact hp
      | cons c cs =>
        obtain ⟨k, hw⟩ := writeAll_taken ht (.event (c :: cs) (c :: cs)) (c :: cs) s
        simp only [hw]
        exact hp.trans ⟨_, rfl, by simp [PipeAction.plain], by simp [clientBytes]⟩

include ht in
theorem delivers_passEvent (st : PipeState) (event : Bytes) :
    Delivers (p.held event) st (p.passEvent env st event) := by
  unfold passEvent held
  by_cases hn : p.config.policy.isNone
  · simp only [hn, if_true]; exact Plain.refl rfl
  · simp only [hn]
    have hd : Delivers event st (p.deliver env event event
        { st with result := p.noteTerminal event (p.readUsage event st.result) }) :=
      delivers_deliver ht event _
    have hb := hd.bind (b := []) (k := fun s => .ok (touchWrite env s)) fun s _ => Plain.refl rfl
    rw [append_nil] at hb; exact hb

theorem delivers_keepRest (rest : Bytes) (st : PipeState) :
    Delivers [] st (p.keepRest env rest st) := by
  rcases keepRest_cases p env rest st with ⟨h, -⟩ | ⟨-, -, h⟩
  · rw [h]; exact Plain.refl rfl
  · rw [h]; exact refused_emit (plain_applyPolicy _ _ st)

include ht in
theorem delivers_passEvents (chunk : Bytes) (st : PipeState) :
    Delivers ((nextEvent.frames (st.acc ++ chunk)).1.flatMap p.held) st
      (p.passEvents env chunk st) := by
  have hfo : ∀ (events : List Bytes) (st : PipeState),
      Delivers (events.flatMap p.held) st (events.foldlM (p.passEvent env) st) := by
    intro events
    induction events with
    | nil => exact fun st => Plain.refl rfl
    | cons event events ih =>
      intro st
      rw [foldlM_cons, flatMap_cons]
      exact (delivers_passEvent ht st event).bind fun s _ => ih s
  unfold passEvents
  rw [← append_nil (flatMap _ _)]
  exact (hfo _ st).bind fun s _ => delivers_keepRest _ s

def fresh (p : StreamPipe) (acc chunk : Bytes) : Bytes :=
  (if p.config.policy.isNone then chunk else []) ++
    (nextEvent.frames (acc ++ chunk)).1.flatMap p.held

include ht in
theorem delivers_passChunk (chunk : Bytes) (st : PipeState) :
    Delivers (p.fresh st.acc chunk) st (p.passChunk env chunk st) := by
  have ha := passOn_acc p env chunk st
  have hon : Delivers (if p.config.policy.isNone then chunk else []) st
      (p.passOn env chunk st) := by
    unfold passOn
    split
    · obtain ⟨k, c, w, h⟩ := zeroCopy_taken ht chunk st
      rw [h]
      exact ⟨_, rfl, by simp [PipeAction.plain], by simp [clientBytes]⟩
    · exact Plain.refl rfl
  unfold fresh passChunk
  refine hon.bind fun s hs => ?_
  rw [hs] at ha
  rw [← show s.acc = st.acc from ha.1]
  exact delivers_passEvents ht chunk s

theorem sent_append {got acc : Bytes} (ha : p.config.policy.isSome → acc = (nextEvent.frames got).2)
    (chunk : Bytes) : p.sent (got ++ chunk) = p.sent got ++ p.fresh acc chunk := by
  unfold sent fresh held
  cases hp : p.config.policy with
  | none => simp
  | some policy => rw [hp] at ha; simp [ha rfl, frames_append got chunk]

end

section

variable (p : StreamPipe) (env : Surroundings)

def injects (st : PipeState) : ReadOutcome → Bool
  | .error errno => !p.totalTimeout env st && !providerDisconnectErrno errno
      && !p.silentTooLong env st.tick && p.config.injectKeepalive
      && p.keepaliveDue env st.tick.tick
  | .bytes _ => false

def commentTaken (st : PipeState) : Bytes :=
  keepaliveComment.take (env.write st.writeCalls keepaliveComment).toNat

variable {p env} (ht : ∀ n data, data ≠ [] → 0 < env.write n data) (hm : p.mode = .passthrough)

include ht in
theorem passSilence_eq (st : PipeState) : ∃ s, p.passSilence env st = .ok s ∧
    s.log = st.log ++ (if p.config.injectKeepalive && p.keepaliveDue env st then
      [.wrote .keepalive (commentTaken env st)] else []) := by
  unfold passSilence
  cases hon : p.config.injectKeepalive with
  | false => exact ⟨st, rfl, by simp⟩
  | true =>
    unfold keepalive
    cases hdu : p.keepaliveDue env st with
    | false => exact ⟨st.tick, rfl, by simp [PipeState.tick]⟩
    | true =>
      have hpo : ¬ env.write st.tick.writeCalls keepaliveComment ≤ 0 :=
        Int.not_le.2 (ht st.writeCalls keepaliveComment (by decide))
      simp only [if_true, Bool.not_true, Bool.false_eq_true, if_false, hpo, decide_false]
      exact ⟨_, rfl, rfl⟩

include ht hm

theorem step_silence (st : PipeState) (errno : Int) :
    (p.injects env st (.error errno) ∧ ∃ s, p.step env st (.error errno) = .ok s ∧
        s.log = st.log ++ [.wrote .keepalive (commentTaken env st)]) ∨
      (p.injects env st (.error errno) = false ∧
        (stateOf (p.step env st (.error errno))).log = st.log) := by
  have hin : p.injects env st (.error errno) = (!p.totalTimeout env st
      && !providerDisconnectErrno errno && !p.silentTooLong env st.tick
      && p.config.injectKeepalive && p.keepaliveDue env st.tick.tick) := rfl
  unfold step
  rw [if_pos hm, hin]
  rcases round_cases p env (p.passSilence env) (p.passChunk env) st (.error errno) with
    ⟨hti, h⟩ | ⟨hti, ⟨_, ⟨⟩, h⟩ | ⟨⟨⟩, -⟩ | ⟨b, bs, ⟨⟩, -⟩⟩
  · rw [h]; exact .inr ⟨by simp [hti], by simp⟩
  · rw [h, hti]
    rcases readFailed_cases p env errno st.tick with
      ⟨hf, hgo, hla⟩ | ⟨gone, late, clock, ms, hle, hf⟩
    · obtain ⟨s, hs, hlo⟩ := passSilence_eq (p := p) ht st.tick.tick
      rw [hf, ok_bind, hs, hgo, hla]
      cases hi : p.config.injectKeepalive && p.keepaliveDue env st.tick.tick with
      | true => exact .inl ⟨by simpa using hi, s, rfl, hlo.trans (by rw [hi]; rfl)⟩
      | false => exact .inr ⟨by simpa using hi, hlo.trans (by rw [hi]; exact append_nil _)⟩
    · rw [hf]
      refine .inr ⟨?_, rfl⟩
      rcases hle with hle | hle <;> simp [hle]

theorem delivers_step (st : PipeState) (b : UInt8) (bs : Bytes) :
    (Delivers (p.fresh st.acc (b :: bs)) st (p.step env st (.bytes (b :: bs))) ∧
        ∀ s, p.step env st (.bytes (b :: bs)) = .ok s → p.config.policy.isSome →
          (nextEvent.frames (st.acc ++ b :: bs)).2.length ≤ p.config.maxPolicyEventBytes) ∨
      ∃ s, p.step env st (.bytes (b :: bs)) = .error s ∧ s.log = st.log := by
  unfold step
  rw [if_pos hm]
  rcases round_cases p env (p.passSilence env) (p.passChunk env) st (.bytes (b :: bs)) with
    ⟨-, h⟩ | ⟨-, ⟨_, ⟨⟩, -⟩ | ⟨⟨⟩, -⟩ | ⟨_, _, ⟨⟩, h⟩⟩
  · exact .inr ⟨_, h, by simp⟩
  · left
    rw [h]
    have hacc : (received env st.tick).acc = st.acc := by simp
    have hlo : (received env st.tick).log = st.log := by simp
    have hd := delivers_passChunk (p := p) ht (b :: bs) (received env st.tick)
    rw [hacc] at hd
    refine ⟨Delivers.after (a := []) (Plain.refl hlo) hd, fun s hs hso => ?_⟩
    have hre := (acc_of_passChunk p env hs).2
    rw [hacc] at hre
    exact Nat.not_lt.1 fun hlon => hre ⟨hso, hlon⟩

end

section

variable (p : StreamPipe) (env : Surroundings)

structure Delivering (got : Bytes) (st : PipeState) : Prop where
  placed : EachAfter Placed st.log
  unrefused : ∀ delivered, .wrote .policyError delivered ∉ st.log
  delivered : payload st.log = p.sent got
  boundary : (nextEvent.frames (clientBytes st.log)).2 = (nextEvent.frames (p.sent got)).2
  held : p.config.policy.isSome = true → st.acc = (nextEvent.frames got).2

def Disturbs (got : Bytes) (st : PipeState) (outcome : ReadOutcome) : Prop :=
  p.injects env st outcome = true ∧
    (env.write st.writeCalls keepaliveComment < keepaliveComment.length ∨
      p.config.policy = none ∧ (nextEvent.frames got).2 ≠ [])

def Undisturbed : Bytes → PipeState → List ReadOutcome → Prop
  | _, _, [] => True
  | got, st, outcome :: outcomes => ¬ p.Disturbs env got st outcome ∧
      ∀ s, p.step env st outcome = .ok s → Undisturbed (got ++ readBytes [outcome]) s outcomes

variable {p env} {got : Bytes} {st s : PipeState}

theorem isPrefix_sent (got : Bytes) : p.sent got <+: got := by
  unfold sent
  split
  · exact prefix_rfl
  · exact ⟨_, nextEvent.flatten_frames got⟩

theorem rest_sent (got : Bytes) : (nextEvent.frames (p.sent got)).2 =
    if p.config.policy.isNone then (nextEvent.frames got).2 else [] := by
  unfold sent
  split
  · rfl
  · rw [frames_flatten fun _ => cut_of_mem_frames]

section

variable (h : Delivering p got st)

include h

theorem Delivering.undamaged (hl : s.log = st.log) (later : Bytes) :
    Undamaged (got ++ later) s.log := by
  rw [hl]
  refine ⟨h.placed, ?_⟩
  rw [h.delivered]
  exact (isPrefix_sent got).trans (prefix_append got later)

theorem Delivering.refused {chunk : Bytes} (hr : Refused (p.fresh st.acc chunk) st s)
    (later : Bytes) : Undamaged (got ++ chunk ++ later) s.log := by
  obtain ⟨t, part, delivered, ⟨acts, htl, hpl, hpa⟩, hpr, hsl⟩ := hr
  obtain ⟨hpla, hno⟩ := placed_append h.placed h.unrefused hpl
  rw [hsl, htl]
  refine ⟨eachAfter_snoc.2 ⟨hpla, hno, fun _ heq => by cases heq⟩, ?_⟩
  have hpay : payload (st.log ++ acts ++ [.wrote .policyError delivered]) = p.sent got ++ part := by
    rw [payload_append, payload_append, h.delivered, payload_of_plain hpl, hpa]
    exact append_nil _
  rw [hpay]
  have hse := isPrefix_sent (p := p) (got ++ chunk)
  rw [sent_append h.held] at hse
  exact ((prefix_append_right_inj _).2 hpr).trans (hse.trans (prefix_append _ later))

theorem Delivering.plain {chunk : Bytes} (hp : Plain (p.fresh st.acc chunk) st s)
    (hacc : p.config.policy.isSome → s.acc = (nextEvent.frames (got ++ chunk)).2) :
    Delivering p (got ++ chunk) s := by
  obtain ⟨acts, hl, hpl, hb⟩ := hp
  obtain ⟨hpla, hno⟩ := placed_append h.placed h.unrefused hpl
  refine ⟨hl ▸ hpla, hl ▸ hno, ?_, ?_, hacc⟩
  · rw [hl, payload_append, h.delivered, payload_of_plain hpl, hb, ← sent_append h.held]
  · rw [hl, clientBytes_append, hb, frames_append, h.boundary, sent_append h.held,
      frames_append (p.sent got)]

theorem Delivering.keepalive (hl : s.log = st.log ++ [.wrote .keepalive keepaliveComment])
    (hb : (nextEvent.frames (clientBytes st.log)).2 = []) (hacc : s.acc = st.acc) :
    Delivering p got s := by
  refine ⟨?_, ?_, ?_, ?_, fun hso => hacc.trans (h.held hso)⟩
  · rw [hl]
    refine eachAfter_snoc.2 ⟨h.placed, h.unrefused, fun delivered heq => ?_⟩
    cases heq
    exact ⟨hb, rfl⟩
  · rw [hl]
    intro delivered hm
    rcases mem_append.1 hm with hm | hm
    · exact h.unrefused delivered hm
    · cases mem_singleton.1 hm
  · rw [hl, payload_append, h.delivered]; exact append_nil _
  · have hc : clientBytes [.wrote .keepalive keepaliveComment] = keepaliveComment := by decide
    have hw : (nextEvent.frames keepaliveComment).2 = [] := by decide
    rw [hl, clientBytes_append, hc, frames_append, hb, nil_append, hw, ← hb, h.boundary]

end

variable (ht : ∀ n data, data ≠ [] → 0 < env.write n data) (hm : p.mode = .passthrough)

include ht hm in
theorem log_prefix_step (st : PipeState) (outcome : ReadOutcome) :
    st.log <+: (stateOf (p.step env st outcome)).log := by
  match outcome with
  | .error errno =>
    rcases step_silence ht hm st errno with ⟨-, s, hs, hl⟩ | ⟨-, hl⟩
    · rw [hs, stateOf_ok, hl]; exact prefix_append _ _
    · rw [hl]
  | .bytes [] =>
    rw [step_eof, stateOf_error]
    split <;> simp
  | .bytes (b :: bs) =>
    rcases delivers_step ht hm st b bs with ⟨hd, -⟩ | ⟨s, hs, hl⟩
    · cases hs : p.step env st (.bytes (b :: bs)) with
      | ok s => rw [hs] at hd; obtain ⟨acts, hl, -, -⟩ := hd; exact ⟨acts, hl.symm⟩
      | error s =>
        rw [hs] at hd
        obtain ⟨t, part, delivered, ⟨acts, htl, -, -⟩, -, hl⟩ := hd
        rw [stateOf_error, hl, htl, append_assoc]; exact prefix_append _ _
    · rw [hs, stateOf_error, hl]

include ht hm in
theorem log_prefix_drive (reads : List ReadOutcome) (st : PipeState) :
    st.log <+: (drive (p.step env) (.bytes []) reads st).log := by
  induction reads generalizing st with
  | nil => exact log_prefix_step ht hm st (.bytes [])
  | cons outcome outcomes ih =>
    have hst := log_prefix_step ht hm st outcome
    cases hs : p.step env st outcome with
    | ok s => rw [hs] at hst; rw [drive_cons_of_ok hs]; exact hst.trans (ih s)
    | error s => rw [hs] at hst; rw [drive_cons_of_error hs]; exact hst

theorem not_placed_of_disturbs (h : Delivering p got st) (hd : p.Disturbs env got st outcome) :
    ¬ Placed st.log (.wrote .keepalive (commentTaken env st)) := by
  rintro ⟨-, hpl⟩
  obtain ⟨hbo, hwh⟩ := hpl _ rfl
  rcases hd.2 with hsh | ⟨hno, hmi⟩
  · have hle := congrArg List.length hwh
    have hpo : keepaliveComment.length = 13 := rfl
    rw [commentTaken, length_take] at hle; omega
  · rw [h.boundary, rest_sent, hno] at hbo; exact hmi hbo

theorem Delivering.step (ht : ∀ n data, data ≠ [] → 0 < env.write n data)
    (hm : p.mode = .passthrough) (hli : p.config.maxPolicyEventBytes ≤ p.config.readBufSize * 4)
    (h : Delivering p got st) (hd : ¬ p.Disturbs env got st outcome) :
    match p.step env st outcome with
    | .ok s => Delivering p (got ++ readBytes [outcome]) s
    | .error s => ∀ later, Undamaged (got ++ readBytes [outcome] ++ later) s.log := by
  match outcome with
  | .error errno =>
    rw [show readBytes [.error errno] = [] from rfl, append_nil]
    have hacc : ∀ s, p.step env st (.error errno) = .ok s → s.acc = st.acc := fun s hs =>
      acc_of_step p env hs
    rcases step_silence ht hm st errno with ⟨hin, s, hs, hl⟩ | ⟨-, hl⟩
    · have hfi : ¬ (env.write st.writeCalls keepaliveComment < keepaliveComment.length ∨
          p.config.policy = none ∧ (nextEvent.frames got).2 ≠ []) := fun hba => hd ⟨hin, hba⟩
      have hwh : commentTaken env st = keepaliveComment := by
        refine take_of_length_le ?_
        omega
      have hbo : (nextEvent.frames (clientBytes st.log)).2 = [] := by
        rw [h.boundary, rest_sent]
        cases hp : p.config.policy with
        | some policy => rfl
        | none => exact not_not.1 fun hmi => hfi (.inr ⟨hp, hmi⟩)
      rw [hwh] at hl
      rw [hs]; exact h.keepalive hl hbo (hacc s hs)
    · cases hs : p.step env st (.error errno) with
      | ok s =>
        rw [hs] at hl
        refine ⟨hl ▸ h.placed, hl ▸ h.unrefused, ?_, ?_, fun hso => ?_⟩
        · rw [show s.log = st.log from hl, h.delivered]
        · rw [show s.log = st.log from hl, h.boundary]
        · rw [hacc s hs, h.held hso]
      | error s => rw [hs] at hl; exact h.undamaged hl
  | .bytes [] =>
    rw [step_eof, show readBytes [.bytes []] = [] from rfl, append_nil]
    exact h.undamaged (by split <;> simp)
  | .bytes (b :: bs) =>
    rw [show readBytes [.bytes (b :: bs)] = b :: bs from append_nil _]
    rcases delivers_step ht hm st b bs with ⟨hde, hre⟩ | ⟨s, hs, hl⟩
    · cases hs : p.step env st (.bytes (b :: bs)) with
      | ok s =>
        rw [hs] at hde
        refine h.plain hde fun hso => ?_
        have hsh := hre s hs hso
        have hke : p.keptTail (nextEvent.frames (st.acc ++ b :: bs)).2 =
            (nextEvent.frames (st.acc ++ b :: bs)).2 := if_neg (by omega)
        have hacc : s.acc = (nextEvent.frames (st.acc ++ b :: bs)).2 := by
          rw [acc_of_step p env hs]
          simp only [taken, hm, if_true, hke]
        rw [hacc, h.held hso, frames_append got]
      | error s => rw [hs] at hde; exact h.refused hde
    · rw [hs]; intro later; rw [append_assoc]; exact h.undamaged hl _

theorem readBytes_cons (outcome : ReadOutcome) (outcomes : List ReadOutcome) :
    ∃ later, readBytes (outcome :: outcomes) = readBytes [outcome] ++ later ∧
      (outcome ≠ .bytes [] → later = readBytes outcomes) := by
  match outcome with
  | .error errno => exact ⟨_, rfl, fun _ => rfl⟩
  | .bytes [] => exact ⟨[], rfl, fun h => absurd rfl h⟩
  | .bytes (b :: bs) => exact ⟨_, by simp [readBytes], fun _ => rfl⟩

theorem Delivering.undamaged_iff (ht : ∀ n data, data ≠ [] → 0 < env.write n data)
    (hm : p.mode = .passthrough) (hli : p.config.maxPolicyEventBytes ≤ p.config.readBufSize * 4)
    (reads : List ReadOutcome) (h : Delivering p got st) :
    Undamaged (got ++ readBytes reads) (drive (p.step env) (.bytes []) reads st).log ↔
      p.Undisturbed env got st reads := by
  induction reads generalizing got st with
  | nil =>
    refine iff_of_true (h.undamaged ?_ _) trivial
    simp only [drive, step_eof, stateOf_error]
    split <;> simp
  | cons outcome outcomes ih =>
    by_cases hd : p.Disturbs env got st outcome
    · refine iff_of_false (fun hun => ?_) fun hno => hno.1 hd
      obtain ⟨errno, rfl⟩ : ∃ errno, outcome = .error errno := by
        cases outcome with
        | error errno => exact ⟨errno, rfl⟩
        | bytes b => cases hd.1
      rcases step_silence ht hm st errno with ⟨-, s, hs, hl⟩ | ⟨hno, -⟩
      · rw [drive_cons_of_ok hs] at hun
        obtain ⟨more, hmore⟩ := log_prefix_drive ht hm outcomes s
        have hpl := hun.placed
        rw [← hmore, hl] at hpl
        exact not_placed_of_disturbs h hd (eachAfter_snoc.1 (eachAfter_append.1 hpl).1).2
      · rw [hd.1] at hno; cases hno
    · have hste := h.step ht hm hli hd
      obtain ⟨later, hre, hla⟩ := readBytes_cons outcome outcomes
      rw [hre, ← append_assoc]
      cases hs : p.step env st outcome with
      | ok s =>
        rw [hs] at hste
        have hne : outcome ≠ .bytes [] := by
          rintro rfl
          rw [step_eof] at hs; cases hs
        rw [drive_cons_of_ok hs, hla hne, ih hste]
        refine ⟨fun hun => ⟨hd, fun t hst => ?_⟩, fun hun => hun.2 s hs⟩
        cases hs.symm.trans hst; exact hun
      | error s =>
        rw [hs] at hste
        rw [drive_cons_of_error hs]
        refine iff_of_true (hste later) ⟨hd, fun t hst => ?_⟩
        cases hs.symm.trans hst

/-- Keepalives never damage the stream exactly where no round disturbs it. -/
theorem keepalives_harmless_iff (p : StreamPipe) (env : Surroundings)
    (hmode : p.mode = .passthrough)
    (hlimit : p.config.maxPolicyEventBytes ≤ p.config.readBufSize * 4)
    (htakes : ∀ n data, data ≠ [] → 0 < env.write n data) (reads : List ReadOutcome) :
    Undamaged (readBytes reads) (p.run env reads).log ↔ p.Undisturbed env [] (start env) reads := by
  have hsent : p.sent [] = [] := ite_self _
  have hstart : Delivering p [] (start env) :=
    ⟨eachAfter_nil, by simp [start], hsent.symm, by rw [hsent]; rfl, fun _ => rfl⟩
  exact hstart.undamaged_iff htakes hmode hlimit reads

end

def slowClock : Surroundings where
  clock n := 16000 * n.toUInt64
  write _ data := data.length

def rawPipe : StreamPipe where
  config := {}
  mode := .passthrough
  rj := RapidJson.ofTable [] []

def haltingReads : List ReadOutcome :=
  [.bytes "data: \x7b\"n\":", .error 11, .bytes "1\x7d\n\n"]

theorem keepalive_inside_event : clientBytes (rawPipe.run slowClock haltingReads).log =
        ascii "data: \x7b\"n\":: keepalive\n\n1\x7d\n\n" ∧
      ¬ Undamaged (readBytes haltingReads) (rawPipe.run slowClock haltingReads).log := by
  have hlog : (rawPipe.run slowClock haltingReads).log = [.wrote .raw "data: \x7b\"n\":",
      .wrote .keepalive keepaliveComment, .wrote .raw "1\x7d\n\n"] := by
    decide +kernel
  refine ⟨by rw [hlog]; decide, fun hun => ?_⟩
  have hplaced := hun.placed
  rw [hlog] at hplaced
  have hbound := ((hplaced [.wrote .raw "data: \x7b\"n\":"] _ _ rfl).2 _ rfl).1
  exact absurd hbound (by decide)

def pausedReads : List ReadOutcome := [.bytes "data: 1\n\n", .error 11, .bytes "data: 2\n\n"]

theorem keepalive_between_events : clientBytes (rawPipe.run slowClock pausedReads).log =
        ascii "data: 1\n\n: keepalive\n\ndata: 2\n\n" ∧
      Undamaged (readBytes pausedReads) (rawPipe.run slowClock pausedReads).log := by
  refine ⟨by decide +kernel, (keepalives_harmless_iff rawPipe slowClock rfl (by decide) ?_ _).2 ?_⟩
  · intro n data hne; exact Int.natCast_pos.2 (length_pos_iff.2 hne)
  · refine ⟨fun hd => absurd hd.1 Bool.false_ne_true, fun s _ => ⟨fun hd => ?_, fun s _ =>
      ⟨fun hd => absurd hd.1 Bool.false_ne_true, fun _ _ => trivial⟩⟩⟩
    rcases hd.2 with hshort | ⟨-, hmid⟩
    · exact absurd hshort (lt_irrefl _)
    · exact hmid (by decide)

end StreamPipe

end Gateway.Forwarder
