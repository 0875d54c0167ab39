import Gateway.Forwarder.PolicyGate

/-! # Streams that end without their end -/

namespace Gateway.Forwarder.StreamPipe

open Lib List

variable {st st' : PipeState} {events : List Bytes} {provider event chunk : Bytes}

section

variable (p : StreamPipe) (env : Surroundings)

def Marked (st : PipeState) : Prop :=
  st.result.incomplete = true ∨ st.result.terminalEventSeen = true

def endsStream (event : Bytes) : Bool := (isTerminalEvent p.rj p.source event).toOption.getD false

def SameMarks (events : List Bytes) (st st' : PipeState) : Prop :=
  st'.result.incomplete = st.result.incomplete ∧
    st'.result.terminalEventSeen = (st.result.terminalEventSeen || events.any p.endsStream)

variable {p}

theorem SameMarks.of_eq (hi : st'.result.incomplete = st.result.incomplete)
    (ht : st'.result.terminalEventSeen = st.result.terminalEventSeen) : SameMarks p [] st st' :=
  ⟨hi, by rw [ht, any_nil, Bool.or_false]⟩

theorem SameMarks.trans {events' : List Bytes} {st'' : PipeState} (h : SameMarks p events st st')
    (h' : SameMarks p events' st' st'') : SameMarks p (events ++ events') st st'' := by
  refine ⟨h'.1.trans h.1, ?_⟩
  rw [h'.2, h.2, any_append, Bool.or_assoc]

variable (p)

theorem noteTerminal_marks (event : Bytes) (r : StreamResult) :
    (p.noteTerminal event r).incomplete = r.incomplete ∧
      (p.noteTerminal event r).terminalEventSeen = (r.terminalEventSeen || p.endsStream event) := by
  unfold noteTerminal endsStream
  cases (isTerminalEvent p.rj p.source event).toOption.getD false with
  | true => exact ⟨rfl, (Bool.or_true _).symm⟩
  | false => exact ⟨rfl, (Bool.or_false _).symm⟩

theorem noteEvent_marks (event : Bytes) (r : StreamResult) :
    (p.noteEvent event r).incomplete = r.incomplete ∧
      (p.noteEvent event r).terminalEventSeen = (r.terminalEventSeen || p.endsStream event) := by
  unfold noteEvent
  split
  · exact noteTerminal_marks p event (p.readUsage event r)
  · exact noteTerminal_marks p event r

theorem clientLost_marked (st : PipeState) : Marked (clientLost env st) := by
  unfold clientLost Marked
  rw [finish_result]
  cases st.result.terminalEventSeen with
  | true => exact Or.inr rfl
  | false => exact Or.inl rfl

theorem finish_emitPolicyError_result (st : PipeState) :
    (finish env (p.emitPolicyError env st)).result.incomplete = st.result.incomplete ∧
      (finish env (p.emitPolicyError env st)).result.terminalEventSeen =
        st.result.terminalEventSeen := by
  obtain ⟨k, delivered, bytes, lost, -, h⟩ := emitPolicyError_spec p env st
  rw [h, finish_result]
  exact ⟨rfl, rfl⟩

theorem deliver_ok {client : Bytes} (h : p.deliver env provider client st = .ok st') :
    st'.result.incomplete = st.result.incomplete ∧
      st'.result.terminalEventSeen = st.result.terminalEventSeen := by
  have hap : ∀ {s}, p.applyPolicy provider client st = (true, s) → s.result = st.result := by
    intro s hs
    rcases applyPolicy_cases p provider client st with ⟨ha, -⟩ | ⟨d, -, ha⟩ | ⟨d, s', -, -, ha⟩
    · rw [ha] at hs; cases hs; rfl
    · rw [ha] at hs; cases hs; rfl
    · rw [ha] at hs; cases hs
  rcases deliver_cases p env provider client st with
    ⟨s, -, hd⟩ | ⟨s, ha, ⟨-, hd⟩ | ⟨k, delivered, -, -, ⟨-, hd⟩ | hd⟩⟩
  · rw [hd] at h; cases h
  · rw [hd] at h; cases h; rw [hap ha]; exact ⟨rfl, rfl⟩
  · rw [hd] at h; cases h; simp only [hap ha, and_self]
  · rw [hd] at h; cases h

theorem deliver_error {client : Bytes} (h : p.deliver env provider client st = .error st') :
    Marked st' := by
  rcases deliver_cases p env provider client st with
    ⟨s, ha, hd⟩ | ⟨s, -, ⟨-, hd⟩ | ⟨k, delivered, -, -, ⟨-, hd⟩ | hd⟩⟩
  · rw [hd] at h; cases h
    have hr : s.result.incomplete := by
      rcases applyPolicy_cases p provider client st with ⟨h', -⟩ | ⟨d, -, h'⟩ | ⟨d, s', -, -, h'⟩
      · rw [h'] at ha; cases ha
      · rw [h'] at ha; cases ha
      · rw [h'] at ha; cases ha; rfl
    exact Or.inl ((finish_emitPolicyError_result p env s).1.trans hr)
  · rw [hd] at h; cases h
  · rw [hd] at h; cases h
  · rw [hd] at h; cases h; exact clientLost_marked env _

theorem passEvent_ok (h : p.passEvent env st event = .ok st') : SameMarks p [event] st st' := by
  have hn := noteTerminal_marks p event (p.readUsage event st.result)
  have hs : SameMarks p [event] st
      { st with result := p.noteTerminal event (p.readUsage event st.result) } := by
    refine ⟨hn.1, ?_⟩
    rw [any_cons, any_nil, Bool.or_false]; exact hn.2
  unfold passEvent at h
  simp only at h
  split at h
  · cases h; exact hs
  · cases hd : p.deliver env event event
        { st with result := p.noteTerminal event (p.readUsage event st.result) } with
    | error s => rw [hd] at h; cases h
    | ok s =>
      rw [hd] at h
      cases h
      obtain ⟨hi, ht⟩ := deliver_ok p env hd
      exact hs.trans (SameMarks.of_eq hi ht)

theorem passEvent_error (h : p.passEvent env st event = .error st') : Marked st' := by
  unfold passEvent at h
  simp only at h
  split at h
  · cases h
  · cases hd : p.deliver env event event
        { st with result := p.noteTerminal event (p.readUsage event st.result) } with
    | error s => rw [hd] at h; cases h; exact deliver_error p env hd
    | ok s => rw [hd] at h; cases h

theorem transformOne_ok (h : p.transformOne env st event = .ok st') :
    SameMarks p [event] st st' := by
  have hn := noteEvent_marks p event st.result
  obtain ⟨hi, ht⟩ := deliver_ok p env h
  refine ⟨hi.trans hn.1, ?_⟩
  rw [ht, any_cons, any_nil, Bool.or_false]
  exact hn.2

theorem marks_of_foldlM {one : PipeState → Bytes → Flow}
    (hok : ∀ {s s' event}, one s event = .ok s' → SameMarks p [event] s s')
    (h : events.foldlM one st = .ok st') : SameMarks p events st st' := by
  refine ok_of_foldlM (R := SameMarks p) (fun s => SameMarks.of_eq rfl rfl) ?_ h
  intro event events s t u ho hr
  exact (hok ho).trans hr

def Ends (bad : Prop) : Flow → Prop
  | .ok st => st.result.incomplete = false ∧ ¬ bad
  | .error st => Marked st ↔ ¬ bad

theorem Ends.congr {bad bad' : Prop} {flow : Flow} (h : Ends bad flow) (hi : bad' ↔ bad) :
    Ends bad' flow := by
  rw [show bad' = bad from propext hi]
  exact h

theorem Ends.of_marked {bad : Prop} (hst : Marked st) (hba : ¬ bad) : Ends bad (.error st) :=
  ⟨fun _ => hba, fun _ => hst⟩

def keepaliveLost (errno : Int) (st : PipeState) : Prop :=
  providerDisconnectErrno errno = false ∧ p.silentTooLong env st = false ∧
    p.config.injectKeepalive = true ∧ p.keepaliveDue env st.tick = true ∧
    env.write st.writeCalls keepaliveComment ≤ 0

def restUnrefused (chunk : Bytes) (st : PipeState) : Prop :=
  p.config.policy.isSome = true ∧
    (nextEvent.frames (st.acc ++ chunk)).2.length > p.config.maxPolicyEventBytes ∧
    p.exempt (nextEvent.frames (st.acc ++ chunk)).2 = true ∧
    (nextEvent.frames (st.acc ++ chunk)).1.any p.endsStream = false ∧
    ∃ st', (nextEvent.frames (st.acc ++ chunk)).1.foldlM (p.passEvent env) st = .ok st'

def silentExit (st : PipeState) (outcome : ReadOutcome) : Prop :=
  p.mode = .passthrough ∧ st.result.terminalEventSeen = false ∧ p.totalTimeout env st = false ∧
    match outcome with
    | .error errno => keepaliveLost p env errno st.tick
    | .bytes [] => False
    | .bytes (b :: bs) => restUnrefused p env (b :: bs) (received env st.tick)

theorem passSilence_ends (hst : st.result.incomplete = false) :
    Ends (st.result.terminalEventSeen = false ∧ p.config.injectKeepalive ∧
      p.keepaliveDue env st ∧ env.write st.writeCalls keepaliveComment ≤ 0)
      (p.passSilence env st) := by
  unfold passSilence
  cases hi : p.config.injectKeepalive with
  | false => exact ⟨hst, by simp⟩
  | true =>
    rcases keepalive_cases p env st with ⟨hd, h⟩ | ⟨hd, delivered, -, h⟩
    · simp only [h, if_true, hd]; exact ⟨hst, by simp⟩
    · simp only [h, if_true, hd]
      by_cases hw : env.write st.writeCalls keepaliveComment ≤ 0
      · simp only [hw, decide_true, if_true, Ends, Marked, finish_result]; simp [hst]
      · simp only [hw, decide_false, Bool.false_eq_true, if_false]; exact ⟨hst, by simp⟩

theorem applyPolicy_of_large {rest : Bytes} (st : PipeState)
    (hpo : p.config.policy.isSome) (hl : rest.length > p.config.maxPolicyEventBytes) :
    (p.applyPolicy rest rest st).2 =
      if p.exempt rest then st else { st with result := refused tooLarge st.result } := by
  obtain ⟨policy, hp⟩ := Option.isSome_iff_exists.1 hpo
  have hc : policyContent rest rest = rest := by
    unfold policyContent
    split <;> rfl
  unfold applyPolicy
  rw [hp]
  simp only [askPolicy, hc, if_pos hl]
  split <;> rfl

section

variable (hst : st.result.incomplete = false)

include hst

theorem keepRest_ends {rest : Bytes} :
    Ends (st.result.terminalEventSeen = false ∧ p.config.policy.isSome ∧
      rest.length > p.config.maxPolicyEventBytes ∧ p.exempt rest) (p.keepRest env rest st) := by
  rcases keepRest_cases p env rest st with ⟨h, hsm⟩ | ⟨hp, hl, h⟩
  · rw [h]; exact ⟨hst, fun hba => hsm ⟨hba.2.1, hba.2.2.1⟩⟩
  · have hs := applyPolicy_of_large p st hp hl
    rw [h]
    by_cases hex : p.exempt rest
    · rw [if_pos hex] at hs
      obtain ⟨hi, ht⟩ := finish_emitPolicyError_result p env st
      simp only [Ends, Marked, hs, hi, ht, hst]
      simp [hp, hl, hex]
    · rw [if_neg hex] at hs
      rw [hs]
      refine Ends.of_marked (Or.inl ?_) (fun hba => hex hba.2.2.2)
      exact (finish_emitPolicyError_result p env _).1

theorem passEvents_ends : Ends (st.result.terminalEventSeen = false ∧ restUnrefused p env chunk st)
      (p.passEvents env chunk st) := by
  unfold passEvents restUnrefused
  simp only
  cases hf : (nextEvent.frames (st.acc ++ chunk)).1.foldlM (p.passEvent env) st with
  | error s =>
    refine Ends.of_marked (error_of_foldlM (fun h => passEvent_error p env h) hf) ?_
    rintro ⟨-, -, -, -, -, s', h⟩; cases h
  | ok s =>
    obtain ⟨hi, ht⟩ := marks_of_foldlM p (fun h => passEvent_ok p env h) hf
    refine (keepRest_ends p env (hi.trans hst)).congr ?_
    rw [ht, Bool.or_eq_false_iff]
    constructor
    · rintro ⟨hs, hp, hl, he, hen, -⟩; exact ⟨⟨hs, hen⟩, hp, hl, he⟩
    · rintro ⟨⟨hs, hen⟩, hp, hl, he⟩; exact ⟨hs, hp, hl, he, hen, s, rfl⟩

theorem passChunk_ends : Ends (st.result.terminalEventSeen = false ∧ restUnrefused p env chunk st)
      (p.passChunk env chunk st) := by
  unfold passChunk passOn
  cases hp : p.config.policy with
  | some policy => exact passEvents_ends p env hst
  | none =>
    have hn : ∀ s, ¬ restUnrefused p env chunk s := by
      rintro s ⟨hpo, -⟩
      rw [hp] at hpo; cases hpo
    have hg : ¬ (st.result.terminalEventSeen = false ∧ restUnrefused p env chunk st) :=
      fun hba => hn st hba.2
    simp only [Option.isNone_none, if_true]
    obtain ⟨k, c, w, delivered, h | h⟩ := zeroCopy_cases env chunk st
    · rw [h, ok_bind]
      refine (passEvents_ends p env ?_).congr ?_
      · exact hst
      · exact iff_of_false hg fun hba => hn _ hba.2
    · rw [h, error_bind]; exact Ends.of_marked (clientLost_marked env _) hg

theorem transformChunk_ends : Ends False (p.transformChunk env chunk st) := by
  unfold transformChunk
  simp only
  cases hf : (nextEvent.frames (st.acc ++ chunk)).1.foldlM (p.transformOne env) st with
  | error s =>
    refine Ends.of_marked (error_of_foldlM (fun h => ?_) hf) not_false
    exact deliver_error p env h
  | ok s =>
    have hm := marks_of_foldlM p (fun h => transformOne_ok p env h) hf
    exact ⟨hm.1.trans hst, not_false⟩

end

theorem round_ends (lost : PipeState → Prop) (unrefused : Bytes → PipeState → Prop)
    {onSilence : PipeState → Flow} {onChunk : Bytes → PipeState → Flow} (outcome : ReadOutcome)
    (hst : st.result.incomplete = false)
    (hsi : ∀ s, s.result.incomplete = false → Ends (lost s) (onSilence s))
    (hc : ∀ chunk s, s.result.incomplete = false → Ends (unrefused chunk s) (onChunk chunk s)) :
    Ends (p.totalTimeout env st = false ∧ match outcome with
      | .error errno => providerDisconnectErrno errno = false ∧
          p.silentTooLong env st.tick = false ∧ lost st.tick.tick
      | .bytes [] => False
      | .bytes (b :: bs) => unrefused (b :: bs) (received env st.tick))
      (p.round env onSilence onChunk st outcome) := by
  rcases round_cases p env onSilence onChunk st outcome with
    ⟨ht, h⟩ | ⟨ht, ⟨errno, rfl, h⟩ | ⟨rfl, h⟩ | ⟨b, bs, rfl, h⟩⟩
  · rw [h]
    refine Ends.of_marked (Or.inl ?_) (by simp [ht])
    rw [timeOut, finish_result]
  · rw [h]
    rcases readFailed_cases p env errno st.tick with
      ⟨hf, hg, hs⟩ | ⟨gone, late, clock, ms, hw, hf⟩
    · rw [hf, ok_bind]
      refine (hsi st.tick.tick hst).congr ?_
      simp [ht, hg, hs]
    · rw [hf, error_bind]
      refine Ends.of_marked (Or.inl rfl) ?_
      rintro ⟨-, hg, hs, -⟩
      rcases hw with hw | hw
      · rw [hg] at hw; cases hw
      · rw [hs] at hw; cases hw
  · rw [h]
    refine Ends.of_marked ?_ fun hba => hba.2
    unfold endOfStream Marked
    rw [finish_result]
    cases hse : st.tick.result.terminalEventSeen with
    | true => exact Or.inr hse
    | false => exact Or.inl rfl
  · rw [h]
    refine (hc (b :: bs) (received env st.tick) ?_).congr (by simp [ht])
    rw [received_incomplete]; exact hst

theorem step_ends (outcome : ReadOutcome) (hst : st.result.incomplete = false) :
    Ends (silentExit p env st outcome) (p.step env st outcome) := by
  unfold step
  by_cases hm : p.mode = .passthrough
  · rw [if_pos hm]
    refine (round_ends p env _ _ outcome hst (fun s hs => passSilence_ends p env hs)
      fun chunk s hs => passChunk_ends p env hs).congr ?_
    unfold silentExit keepaliveLost
    match outcome with
    | .error errno => simp [hm]; tauto
    | .bytes [] => simp
    | .bytes (b :: bs) => simp [hm]; tauto
  · rw [if_neg hm]
    have hg : ∀ s : PipeState, s.result.incomplete = false → Ends False (.ok s) :=
      fun s hs => ⟨hs, not_false⟩
    refine (round_ends p env (fun _ => False) (fun _ _ => False) outcome hst hg
      fun chunk s hs => transformChunk_ends p env hs).congr ?_
    unfold silentExit
    match outcome with
    | .error errno => simp [hm]
    | .bytes [] => simp
    | .bytes (b :: bs) => simp [hm]

theorem marked_run_iff (reads : List ReadOutcome) : ((p.run env reads).result.incomplete = true ∨
        (p.run env reads).result.terminalEventSeen = true) ↔
      Avoids (p.step env) (.bytes []) (silentExit p env) reads (start env) := by
  refine good_drive_iff (fun st => st.result.incomplete = false) Marked
    (fun {s s' outcome} hs hstep => ?_) (fun {s s' outcome} hs hstep => ?_)
    (fun s => ⟨_, step_eof p env s⟩) reads rfl
  · have h := step_ends p env outcome hs
    rw [hstep] at h; exact h
  · have h := step_ends p env outcome hs
    rw [hstep] at h; exact h

end

def openPipe (rj : RapidJson) : StreamPipe where
  config := {}
  mode := .passthrough
  target := .openAIChatCompletions
  rj := rj

def goneClient : Surroundings where
  clock n := if n = 0 then 0 else 20000
  write _ _ := 0

def tightPipe : StreamPipe :=
  { guardedPipe (answering .block) (.ofTable [] []) with
    config := { policy := some (answering .block), maxPolicyEventBytes := 8 } }

theorem silent_exits :
    let lost := (openPipe (.ofTable [] [])).run goneClient [.error 11]
    let full := tightPipe.run patientClient [.bytes "data: [DONE]"]
    lost.result.incomplete = false ∧ lost.result.terminalEventSeen = false ∧
      full.result.incomplete = false ∧ full.result.terminalEventSeen = false := by
  decide +kernel

end Gateway.Forwarder.StreamPipe
