import Gateway.Server.Frames
import Gateway.Server.LeaseStages

/-! # What one round of the dispatch loop can do -/

namespace Gateway.Server

open Lib Dispatch Forwarder Handler Appends List

abbrev storedEvidence (stage : LeaseEvidenceStage) (detail : Bytes) (st : Handler) : Action :=
  .storedEvidence st.lease stage detail

abbrev reportedEvidence (stage : LeaseEvidenceStage) (detail : Bytes) (ack : RpcAck)
    (st : Handler) : Action :=
  .reportedEvidence st.lease stage detail ack

inductive EvidenceStep (c : Context) (stage : LeaseEvidenceStage) (detail : Bytes)
    (st : Handler) : Except Handler (RpcAck × Handler) → Prop
  | unstored (hthrows : c.world.outboxThrows st.log) :
      EvidenceStep c stage detail st (.error st.threw)
  | retained {ack : RpcAck} (hack : ack.acknowledged = false) :
      EvidenceStep c stage detail st
        (.ok (ack, st.extend [storedEvidence stage detail st, reportedEvidence stage detail ack
          st]))
  | unresolved {ack : RpcAck} (hack : ack.acknowledged)
      (hthrows : c.world.outboxThrows
        (st.log ++ [storedEvidence stage detail st, reportedEvidence stage detail ack st])) :
      EvidenceStep c stage detail st (.error (st.extend
        [storedEvidence stage detail st, reportedEvidence stage detail ack st]).threw)
  | resolved {ack : RpcAck} (hack : ack.acknowledged) :
      EvidenceStep c stage detail st (.ok (ack, st.extend
        [storedEvidence stage detail st, reportedEvidence stage detail ack st,
          .acknowledgedEvidence st.lease stage]))

variable {c : Context} {st st' : Handler}

theorem evidenceStep (c : Context) (stage : LeaseEvidenceStage) (detail : Bytes)
    (st : Handler) : EvidenceStep c stage detail st (c.giveEvidence stage detail st) := by
  unfold Context.giveEvidence
  by_cases hs : c.world.outboxThrows st.log
  · rw [store_of_throws hs]; exact .unstored hs
  · rw [store_of_not_throws hs, ok_bind]
    dsimp only
    set ack := c.world.reportEvidence (st.emit (.storedEvidence st.lease stage detail)).log
      (st.emit (.storedEvidence st.lease stage detail)).lease stage detail
    have he : (st.emit (.storedEvidence st.lease stage detail)).emit (.reportedEvidence
          (st.emit (.storedEvidence st.lease stage detail)).lease stage detail ack) =
        st.extend [storedEvidence stage detail st, reportedEvidence stage detail ack st] := by
      rw [emit_eq, emit_eq, extend_extend]; rfl
    rw [he]
    by_cases ha : ack.acknowledged
    · rw [if_pos ha]
      by_cases hr : c.world.outboxThrows (st.log ++
          [storedEvidence stage detail st, reportedEvidence stage detail ack st])
      · rw [store_of_throws (by exact hr)]; exact .unresolved ha hr
      · rw [store_of_not_throws (by exact hr), emit_eq, extend_extend]; exact .resolved ha
    · rw [if_neg ha]; exact .retained (Bool.eq_false_iff.2 ha)

namespace Context

def outcome (c : Context) (body : Bytes) (st : Handler) : Forwarded :=
  forward c.world.rj (c.world.transport st.log) st.dispatchResult.upstream
    (c.forwardRequest body st) (c.streamMode st.dispatchResult.upstream)

def calling (c : Context) (body : Bytes) (st : Handler) : Handler :=
  c.startResponse (c.outcome body st).responseStart
    (st.emit (.forwarding st.lease st.dispatchResult.upstream body))

def called (c : Context) (body : Bytes) (more : List Action) (st : Handler) : Handler :=
  let ended := (c.calling body st).extend more
  { ended.emit (.forwarded ended.lease (c.outcome body st).result) with
    forwardResult := (c.outcome body st).result }

end Context

inductive PipeThrew : List Action → Prop
  | unstored {more : List Action} {a : PipeAction} (hsilent : output more = [])
      (houtput : clientBytes [a] ≠ []) : PipeThrew (more ++ [.piped a])
  | unresolved {more : List Action} {lease detail : Bytes} {ack : RpcAck}
      (hack : ack.acknowledged) :
      PipeThrew (more ++ [.reportedEvidence lease .outputStarted detail ack])

variable {more : List Action}

theorem PipeThrew.append (h : PipeThrew more) {before : List Action} (hbefore : output before =
    []) : PipeThrew (before ++ more) := by
  cases h with
  | unstored hs ho =>
    rw [← append_assoc]
    exact .unstored (by rw [output_append, hbefore, hs, nil_append]) ho
  | unresolved ha => rw [← append_assoc]; exact .unresolved ha

variable (actions : List PipeAction) (body : Bytes) (stage : LeaseEvidenceStage) (lease : Bytes)

theorem replayPipe_started (st : Handler) :
    c.replayPipe true actions st = .ok (st.extend (actions.map .piped)) := by
  induction actions generalizing st with
  | nil => rw [map_nil, extend_nil]; rfl
  | cons a actions ih =>
    unfold Context.replayPipe
    dsimp only
    rw [if_neg (by simp), ih, emit_eq, extend_extend]; rfl

def Action.isPiping : Action → Bool
  | .piped _ => true
  | .storedEvidence _ _ _ => true
  | .reportedEvidence _ _ _ _ => true
  | .acknowledgedEvidence _ _ => true
  | _ => false

def Piping (lease : Bytes) (more : List Action) : Prop :=
  ∀ a ∈ more, a.isPiping ∧ ∀ token, a.lease? = some token → token = lease

theorem Piping.quietly {lease : Bytes} (h : Piping lease more) : Quietly lease more := by
  intro a ha
  obtain ⟨hp, ho⟩ := h a ha
  refine ⟨?_, ho⟩
  cases a <;> first | rfl | cases hp

theorem Piping.append {lease : Bytes} {as bs : List Action} (ha : Piping lease as)
    (hb : Piping lease bs) : Piping lease (as ++ bs) := fun a h =>
  (mem_append.1 h).elim (ha a) (hb a)

theorem piping_piped (actions : List PipeAction) : Piping lease (actions.map .piped) := by
  intro a ha
  obtain ⟨piped, -, rfl⟩ := mem_map.1 ha
  exact ⟨rfl, fun _ h => (by cases h)⟩

theorem piping_reported (detail : Bytes) (ack : RpcAck) (st : Handler) : Piping st.lease
      [storedEvidence stage detail st, reportedEvidence stage detail ack st] := by
  simp [Piping, Action.isPiping, Action.lease?]

theorem piping_acknowledged : Piping lease [.acknowledgedEvidence lease stage] := by
  simp [Piping, Action.isPiping, Action.lease?]

theorem output_piped : output (actions.map .piped) = clientBytes actions := by
  induction actions with
  | nil => rfl
  | cons a actions ih => rw [map_cons, output_cons_piped, ih, ← clientBytes_cons]

section

variable (st : Handler)

theorem replayPipe_step :
    (∃ more, c.replayPipe false actions st = .ok (st.extend more) ∧ Piping st.lease more ∧
      output more = clientBytes actions) ∨
    ∃ more, c.replayPipe false actions st = .error (st.extend more).threw ∧
      c.world.outboxThrows (st.log ++ more) ∧ Piping st.lease more ∧ PipeThrew more := by
  induction actions generalizing st with
  | nil => exact .inl ⟨[], by rw [st.extend_nil]; rfl, fun _ h => (by cases h), rfl⟩
  | cons a actions ih =>
    have hp : Piping st.lease [.piped a] := piping_piped st.lease [a]
    unfold Context.replayPipe
    dsimp only
    rw [emit_eq]
    by_cases ho : clientBytes [a] = []
    · rw [if_neg (by simp [ho])]
      rcases ih (st.extend [.piped a]) with
        ⟨more, heq, hpi, hou⟩ | ⟨more, heq, ht, hpi, hthrew⟩
      · rw [extend_extend] at heq
        refine .inl ⟨_, heq, hp.append hpi, ?_⟩
        rw [singleton_append, output_cons_piped, hou, ← clientBytes_cons]
      · rw [extend_extend] at heq
        rw [extend_log, append_assoc] at ht
        exact .inr ⟨_, heq, ht, hp.append hpi,
          hthrew.append (by simp [output, Action.output, ho])⟩
    · rw [if_pos (by simp [ho])]
      set piped := st.extend [.piped a]
      have hg : ∀ evidence, Piping st.lease evidence → output evidence = [] →
          ∃ more, c.replayPipe true actions (piped.extend evidence) = .ok (st.extend more) ∧
            Piping st.lease more ∧ output more = clientBytes (a :: actions) := by
        intro evidence hpi hou
        refine ⟨_, ?_, hp.append (hpi.append (piping_piped _ actions)), ?_⟩
        · rw [replayPipe_started, extend_extend, extend_extend]
        · rw [singleton_append, output_cons_piped, output_append, hou, output_piped,
            nil_append, ← clientBytes_cons]
      have hs := evidenceStep c .outputStarted Context.outputDetail piped
      generalize c.giveEvidence .outputStarted Context.outputDetail piped = given at hs
      cases hs with
      | unstored ht =>
        have hthrew : PipeThrew ([] ++ [.piped a]) := .unstored rfl ho
        exact .inr ⟨_, rfl, ht, hp, hthrew⟩
      | @unresolved ack ha ht =>
        have hthrew : PipeThrew ([.piped a, storedEvidence .outputStarted Context.outputDetail
          piped] ++
          [reportedEvidence .outputStarted Context.outputDetail ack piped]) := .unresolved ha
        rw [extend_log, append_assoc] at ht
        refine .inr ⟨_, ?_, ht, hp.append (piping_reported _ _ _ piped), hthrew⟩
        rw [← extend_extend]; rfl
      | retained ha => exact .inl (hg _ (piping_reported _ _ _ piped) rfl)
      | resolved ha =>
        exact .inl (hg _ ((piping_reported _ _ _ piped).append (piping_acknowledged _ _)) rfl)

def authorizedDetail : Bytes := "Provider transport authorized"

def forwardEvidence (ack : RpcAck) (st : Handler) : List Action :=
  [storedEvidence .forwarded authorizedDetail st, reportedEvidence .forwarded authorizedDetail ack
    st]

def authorized (ack : RpcAck) (st : Handler) : Handler :=
  st.extend (forwardEvidence ack st ++ [.acknowledgedEvidence st.lease .forwarded])

inductive AttemptStep (c : Context) (st : Handler) : Handling → Prop
  | faulted {fault : Fault} (hbody : c.upstreamBody st.dispatchResult.upstream = .error fault) :
      AttemptStep c st (.error st.faulted)
  | unconverted {message : Bytes}
      (hbody : c.upstreamBody st.dispatchResult.upstream = .ok (.error message)) :
      AttemptStep c st (.error (Context.conversionFailed message st))
  | unstored {body : Bytes} (hbody : c.upstreamBody st.dispatchResult.upstream = .ok (.ok body))
      (hthrows : c.world.outboxThrows st.log) : AttemptStep c st (.error st.threw)
  | unresolved {body : Bytes} {ack : RpcAck}
      (hbody : c.upstreamBody st.dispatchResult.upstream = .ok (.ok body)) (hack : ack.acknowledged)
      (hthrows : c.world.outboxThrows (st.log ++ forwardEvidence ack st)) :
      AttemptStep c st (.error (st.extend (forwardEvidence ack st)).threw)
  | unauthorized {body : Bytes} {ack : RpcAck}
      (hbody : c.upstreamBody st.dispatchResult.upstream = .ok (.ok body))
      (hack : ack.acknowledged = false) :
      AttemptStep c st (.error (c.evidenceUnavailable (st.extend (forwardEvidence ack st))))
  | threw {body : Bytes} {ack : RpcAck} {more : List Action}
      (hbody : c.upstreamBody st.dispatchResult.upstream = .ok (.ok body)) (hack : ack.acknowledged)
      (hthrows : c.world.outboxThrows ((c.calling body (authorized ack st)).log ++ more))
      (hpiping : Piping st.lease more) (hthrew : PipeThrew more) :
      AttemptStep c st (.error ((c.calling body (authorized ack st)).extend more).threw)
  | called {body : Bytes} {ack : RpcAck} {more : List Action}
      (hbody : c.upstreamBody st.dispatchResult.upstream = .ok (.ok body)) (hack : ack.acknowledged)
      (hpiping : Piping st.lease more)
      (houtput : output more = clientBytes (c.outcome body (authorized ack st)).actions) :
      AttemptStep c st (c.afterForward (c.called body more (authorized ack st)))

theorem calling_eq : ∃ resp, c.calling body st =
    { st.emit (.forwarding st.lease st.dispatchResult.upstream body) with resp := resp } := by
  unfold Context.calling
  cases (c.outcome body st).responseStart <;> exact ⟨_, rfl⟩

theorem log_calling : (c.calling body st).log =
    st.log ++ [.forwarding st.lease st.dispatchResult.upstream body] := by
  obtain ⟨resp, heq⟩ := calling_eq (c := c) body st
  rw [heq]
  rfl

theorem lease_calling : (c.calling body st).lease = st.lease := by
  obtain ⟨resp, heq⟩ := calling_eq (c := c) body st
  rw [heq]
  rfl

theorem callForward_step :
    (∃ more, c.callForward body st = .ok (c.called body more st) ∧ Piping st.lease more ∧
      output more = clientBytes (c.outcome body st).actions) ∨
    ∃ more, c.callForward body st = .error ((c.calling body st).extend more).threw ∧
      c.world.outboxThrows ((c.calling body st).log ++ more) ∧ Piping st.lease more ∧
      PipeThrew more := by
  have hc : c.callForward body st =
      c.replayPipe false (c.outcome body st).actions (c.calling body st) >>= fun ended =>
        .ok { ended.emit (.forwarded ended.lease (c.outcome body st).result) with
          forwardResult := (c.outcome body st).result } := rfl
  rw [hc, ← lease_calling (c := c) body st]
  rcases replayPipe_step (c := c) (c.outcome body st).actions (c.calling body st) with
    ⟨more, heq, hp, ho⟩ | ⟨more, heq, ht⟩
  · rw [heq, ok_bind]; exact .inl ⟨more, rfl, hp, ho⟩
  · rw [heq]; exact .inr ⟨more, rfl, ht⟩

end

theorem attempt_step (c : Context) (st : Handler) :
    AttemptStep c { st with lastUpstreamFormat := upstreamFormat st.dispatchResult.upstream }
      (c.attempt st) := by
  unfold Context.attempt
  dsimp only
  set st₁ : Handler :=
    { st with lastUpstreamFormat := upstreamFormat st.dispatchResult.upstream }
  split
  · next hbo => exact .faulted hbo
  · next hbo => exact .unconverted hbo
  · next body hbo =>
    have he := evidenceStep c .forwarded authorizedDetail st₁
    unfold Context.authorize
    change AttemptStep c st₁ ((c.giveEvidence .forwarded authorizedDetail st₁ >>= _) >>= _)
    generalize c.giveEvidence .forwarded authorizedDetail st₁ = given at he
    cases he with
    | unstored ht => exact .unstored hbo ht
    | unresolved ha ht => exact .unresolved hbo ha ht
    | retained ha =>
      rw [ok_bind]
      dsimp only
      rw [if_neg (by simp [ha])]; exact .unauthorized hbo ha
    | @resolved ack ha =>
      rw [ok_bind]
      dsimp only
      rw [if_pos ha, ok_bind]
      change AttemptStep c st₁ (c.callForward body (authorized ack st₁) >>= c.afterForward)
      rcases callForward_step (c := c) body (authorized ack st₁) with
        ⟨more, heq, hp, ho⟩ | ⟨more, heq, ht, hp, hthrew⟩
      · rw [heq, ok_bind]; exact .called hbo ha hp ho
      · rw [heq]; exact .threw hbo ha ht hp hthrew

theorem abortAmbiguous_of_not (h : Context.isAmbiguous st.forwardResult = false) :
    c.abortAmbiguous st = st := by
  unfold Context.abortAmbiguous
  rw [if_neg (by simp [h])]

theorem abortMalformed_of_not (h : st.forwardResult.malformedUsage = false) :
    c.abortMalformed st = st := by
  unfold Context.abortMalformed
  rw [if_neg (by simp [h])]

theorem terminalAbort_abortAmbiguous (h : Context.isAmbiguous st.forwardResult) :
    (c.abortAmbiguous st).terminalAbort := by
  unfold Context.abortAmbiguous
  rw [if_pos h]
  dsimp only
  split <;> rfl

theorem terminalAbort_abortMalformed (h : st.terminalAbort ∨
    st.forwardResult.malformedUsage) : (c.abortMalformed st).terminalAbort := by
  unfold Context.abortMalformed
  split
  · rfl
  · next hn => exact h.resolve_right hn

theorem afterForward_of_terminal (h : (c.abortMalformed (c.abortAmbiguous st)).terminalAbort) :
    c.afterForward st = .error (c.abortMalformed (c.abortAmbiguous st)).broke := by
  unfold Context.afterForward
  dsimp only
  rw [if_neg (by simp [h])]

theorem afterForward_of_clear (ha : Context.isAmbiguous st.forwardResult = false)
    (hm : st.forwardResult.malformedUsage = false) : c.afterForward st =
      if st.forwardResult.statusCode ≥ 400 && !st.terminalAbort then c.failOver st
      else .error st.broke := by
  unfold Context.afterForward
  dsimp only
  rw [abortAmbiguous_of_not ha, abortMalformed_of_not hm, hm, Bool.not_false, Bool.and_true]

theorem afterForward_ok (h : c.afterForward st = .ok st') :
    isExplicitProviderRejection st.forwardResult ∧
    Context.isAmbiguous st.forwardResult = false ∧ st.forwardResult.malformedUsage = false ∧
    st.forwardResult.outputStarted = false ∧
    c.elapsedMs (c.world.now st.log st.clockCalls) < 10000 ∧
    ∃ error controller, st' = c.nextAttempt (c.abortFailed (c.reportError error
      { st with clockCalls := st.clockCalls + 1, failover := controller })) := by
  cases ha : Context.isAmbiguous st.forwardResult with
  | true =>
    have ht := terminalAbort_abortMalformed (c := c)
      (.inl (terminalAbort_abortAmbiguous (c := c) ha))
    rw [afterForward_of_terminal ht] at h; cases h
  | false =>
    cases hm : st.forwardResult.malformedUsage with
    | true =>
      have ht : (c.abortMalformed (c.abortAmbiguous st)).terminalAbort := by
        rw [abortAmbiguous_of_not ha]; exact terminalAbort_abortMalformed (.inr hm)
      rw [afterForward_of_terminal ht] at h; cases h
    | false =>
      rw [afterForward_of_clear ha hm] at h
      split at h
      · unfold Context.failOver readClock at h
        dsimp only at h
        split at h
        · next hr =>
          simp only [Context.isRetryable, Bool.and_eq_true, Bool.not_eq_true', decide_eq_true_eq]
            at hr
          obtain ⟨⟨⟨⟨he, -⟩, hs⟩, hti⟩, -⟩ := hr
          unfold Context.tryAgain at h
          dsimp only at h
          split at h
          · cases h
          · cases h; exact ⟨he, rfl, rfl, hs, hti, _, _, rfl⟩
        · cases h
      · cases h

def Action.isFollowUp : Action → Bool
  | .reportedError _ _ => true
  | .aborted _ _ _ _ _ => true
  | _ => false

theorem abortAmbiguous_followUp (st : Handler) :
    Appends Action.isFollowUp st (c.abortAmbiguous st) := by
  unfold Context.abortAmbiguous
  split
  · dsimp only
    split <;> exact ((refl st).emit rfl).then_eq rfl rfl rfl
  · exact refl st

theorem abortMalformed_followUp (st : Handler) :
    Appends Action.isFollowUp st (c.abortMalformed st) := by
  unfold Context.abortMalformed
  split
  · exact (((refl st).emit rfl).emit rfl).then_eq rfl rfl rfl
  · exact refl st

theorem failOver_error (h : c.failOver st = .error st') :
    Appends Action.isFollowUp st st' ∧ st'.exit = .broke := by
  unfold Context.failOver readClock at h
  dsimp only at h
  split at h
  · unfold Context.tryAgain at h
    dsimp only at h
    split at h
    · cases h
      have hf : ∀ controller : FailoverController, Appends Action.isFollowUp st
          { st with clockCalls := st.clockCalls + 1, failover := controller } :=
        fun controller => of_eq rfl rfl rfl
      exact ⟨(((hf _).emit rfl).emit rfl).then_eq rfl rfl rfl, rfl⟩
    · cases h
  · cases h
    have hr : Appends Action.isFollowUp st { st with clockCalls := st.clockCalls + 1 } :=
      of_eq rfl rfl rfl
    exact ⟨(hr.emit rfl).then_eq rfl rfl rfl, rfl⟩

theorem afterForward_error (h : c.afterForward st = .error st') :
    Appends Action.isFollowUp st st' ∧ st'.exit = .broke := by
  have hf : Appends Action.isFollowUp st (c.abortMalformed (c.abortAmbiguous st)) :=
    (abortAmbiguous_followUp st).trans _ _ _ (abortMalformed_followUp _)
  unfold Context.afterForward at h
  dsimp only at h
  split at h
  · obtain ⟨hfa, he⟩ := failOver_error h; exact ⟨hf.trans _ _ _ hfa, he⟩
  · cases h; exact ⟨hf.then_eq rfl rfl rfl, rfl⟩

def Context.leased (c : Context) (st : Handler) : Handler :=
  let st := c.updateAuthCache (c.callDispatch st)
  { st with lastUpstreamFormat := upstreamFormat st.dispatchResult.upstream }

inductive RoundStep (c : Context) (st : Handler) : Handling → Prop
  | retried (hretryable : isRetryablePlatformDispatch (c.callDispatch st).dispatchResult)
      (hcount : st.dispatchTransportRetries + 1 ≤ 8) :
      RoundStep c st (.ok (Context.sleepMs
        (platformDispatchRetryDelayMs (st.dispatchTransportRetries + 1))
        { c.callDispatch st with
          dispatchTransportRetries := st.dispatchTransportRetries + 1
          clockCalls := st.clockCalls + 1 }))
  | unavailable (reads : Nat)
      (hretryable : isRetryablePlatformDispatch (c.callDispatch st).dispatchResult) :
      RoundStep c st (.error (c.platformUnavailable
        { c.callDispatch st with
          dispatchTransportRetries := st.dispatchTransportRetries + 1
          clockCalls := st.clockCalls + reads }))
  | waited {ms : Int} (hwait : (c.callDispatch st).dispatchResult.outcome = .wait)
      (hcount : st.dispatchWaits + 1 ≤ 8) :
      RoundStep c st (.ok (Context.sleepMs ms
        { c.callDispatch st with
          dispatchWaits := st.dispatchWaits + 1
          clockCalls := st.clockCalls + 2 }))
  | exhausted (reads : Nat) (hwait : (c.callDispatch st).dispatchResult.outcome = .wait) :
      RoundStep c st (.error (Context.noAccount
        { c.callDispatch st with
          dispatchWaits := st.dispatchWaits + 1
          clockCalls := st.clockCalls + reads }))
  | repeated (hrejected : (c.callDispatch st).dispatchResult.outcome = .rejected)
      (hcode : (c.callDispatch st).dispatchResult.rejectCode = 10) :
      RoundStep c st (.error (c.repeated (c.callDispatch st)))
  | refused (hrejected : (c.callDispatch st).dispatchResult.outcome = .rejected)
      (hfinal : isRetryablePlatformDispatch (c.callDispatch st).dispatchResult = false)
      (hcode : (c.callDispatch st).dispatchResult.rejectCode ≠ 10) :
      RoundStep c st (.error (c.refuse (c.callDispatch st)))
  | attempted {m : Handling} (hgranted : (c.callDispatch st).dispatchResult.granted)
      (hattempt : AttemptStep c (c.leased st) m) : RoundStep c st m

theorem retryDispatch_step (hr : isRetryablePlatformDispatch (c.callDispatch st).dispatchResult) :
    RoundStep c st (c.retryDispatch (c.callDispatch st)) := by
  unfold Context.retryDispatch Context.pastDeadline readClock
  dsimp only
  split
  · exact .unavailable 0 hr
  · next hc =>
    split
    · exact .unavailable 1 hr
    · exact .retried hr (Nat.le_of_not_lt hc)

theorem waitForAccount_step (hw : (c.callDispatch st).dispatchResult.outcome = .wait) :
    RoundStep c st (c.waitForAccount (c.callDispatch st)) := by
  unfold Context.waitForAccount Context.pastDeadline readClock
  dsimp only
  split
  · exact .exhausted 0 hw
  · next hc =>
    split
    · exact .exhausted 1 hw
    · exact .waited hw (Nat.le_of_not_lt hc)

theorem rejected_step (hr : (c.callDispatch st).dispatchResult.outcome = .rejected) :
    RoundStep c st (c.rejected (c.callDispatch st)) := by
  unfold Context.rejected
  split
  · next hre => exact retryDispatch_step hre
  · next hf =>
    split
    · next hc => exact .repeated hr hc
    · next hc => exact .refused hr (Bool.eq_false_iff.2 hf) hc

theorem round_step (c : Context) (st : Handler) : RoundStep c st (c.round st) := by
  unfold Context.round
  dsimp only
  split
  · next hok =>
    exact .attempted (by simp [DispatchResult.granted, hok]) (attempt_step c _)
  · next hr =>
    exact .attempted (by simp [DispatchResult.granted, hr]) (attempt_step c _)
  · next hre => exact rejected_step hre
  · next hw => exact waitForAccount_step hw

theorem leased_eq (c : Context) (st : Handler) :
    ∃ more, c.leased st = { (c.callDispatch st).extend more with
        lastUpstreamFormat := upstreamFormat (c.callDispatch st).dispatchResult.upstream } ∧
      Quietly (c.callDispatch st).lease more ∧ output more = [] := by
  unfold Context.leased Context.updateAuthCache
  dsimp only
  split
  · exact ⟨_, rfl, quietly_singleton rfl fun _ h => (by cases h), rfl⟩
  · split
    · exact ⟨_, rfl, quietly_singleton rfl fun _ h => (by cases h), rfl⟩
    · exact ⟨[], by rw [extend_nil], quietly_nil _, rfl⟩

theorem round_ok_exit (h : c.round st = .ok st') : st'.exit = st.exit := by
  have ha : ∀ {m : Handling}, AttemptStep c (c.leased st) m → m = .ok st' →
      st'.exit = st.exit := by
    intro m hs hm
    cases hs with
    | faulted _ | unconverted _ | unstored _ _ | unresolved _ _ _ | unauthorized _ _
    | threw _ _ _ _ _ => cases hm
    | @called body ack more hbo hack hp ho =>
      obtain ⟨-, -, -, -, -, error, controller, rfl⟩ := afterForward_ok hm
      obtain ⟨noted, heq, -, -⟩ := leased_eq c st
      obtain ⟨resp, hc⟩ := calling_eq (c := c) body (authorized ack (c.leased st))
      change (c.calling body (authorized ack (c.leased st))).exit = _
      rw [hc, heq]; rfl
  have hs := round_step c st
  generalize hm : c.round st = m at hs
  rw [h] at hm
  cases hs with
  | retried _ _ | waited _ _ =>
    cases hm; rfl
  | unavailable _ _ | exhausted _ _ | repeated _ _ | refused _ _ _ => cases hm
  | attempted _ hs => exact ha hs hm.symm

theorem replay_eq (c : Context) (st : Handler) :
    ∃ resp, c.replay st = { st with resp := resp }.returned := by
  unfold Context.replay Context.refuse
  dsimp only
  split <;> exact ⟨_, rfl⟩

theorem repeated_cases (c : Context) (st : Handler) : (∃ request result resp, result.accepted ∧
      c.repeated st = { st.emit (.mediaOperation request result) with resp := resp }.returned) ∨
    c.repeated st = c.replay st ∨
    ∃ request result, result.accepted = false ∧
      c.repeated st = c.replay (st.emit (.mediaOperation request result)) := by
  unfold Context.repeated callMedia
  dsimp only
  split
  · exact .inr (.inl rfl)
  · next position _ =>
    set request : MediaOperationRequest :=
      { mediaRequest c.keyHash c.requestId c.requestFingerprint c.req with
        operationId := st.dispatchResult.rejectMessage.drop
          (position + Context.existsMarker.length)
        action := "get" }
    split
    · next ha =>
      obtain ⟨answer, heq⟩ := showExisting_eq c.world.rj (c.world.mediaOperation st.log request)
        (st.emit (.mediaOperation request (c.world.mediaOperation st.log request)))
      rw [heq]
      exact .inl ⟨request, c.world.mediaOperation st.log request, _, ha, rfl⟩
    · next hr => exact .inr (.inr ⟨request, _, Bool.eq_false_iff.2 hr, rfl⟩)

theorem repeated_eq (c : Context) (st : Handler) :
    ∃ resp more, c.repeated st = { st.extend more with resp := resp }.returned ∧
      ∀ a ∈ more, a.isOpening := by
  rcases repeated_cases c st with ⟨request, result, resp, -, heq⟩ | heq | ⟨request, result, -, heq⟩
  · exact ⟨resp, _, heq, by simp [Action.isOpening]⟩
  · obtain ⟨resp, hr⟩ := replay_eq c st
    rw [heq, hr]
    exact ⟨resp, [], by rw [extend_nil], forall_mem_nil _⟩
  · obtain ⟨resp, hr⟩ := replay_eq c (st.emit (.mediaOperation request result))
    rw [heq, hr]
    exact ⟨resp, _, rfl, by simp [Action.isOpening]⟩

end Gateway.Server
