import Gateway.Server.RoundSteps

/-! # The dispatch loop keeps the order of its leases -/

namespace Gateway.Server

open Lib Dispatch Forwarder List

variable {n : Nat} {log more : List Action} {grant : DispatchResult}

section

variable {c : Context} {st : Handler} {actions : List Action}

def Kept (c : Context) (log : List Action) : Prop :=
  Sound c.world c.matched.spec.capability log ∧
    ∃ n, (leases log).map (·.opening.request.requestId) = attemptIds c.requestId n

theorem Holding.kept (h : Holding c n log grant actions) : Kept c log := ⟨h.sound, n + 1, h.ids⟩

theorem Idle.kept (h : Idle c n log) : Kept c log :=
  ⟨h.sound, n, h.ids⟩

structure Head (c : Context) (st : Handler) : Prop where
  idle : Idle c st.dispatchRetrySequence st.log
  requestId : st.dispatchReq.requestId = attemptId c.requestId st.dispatchRetrySequence
  controller : st.failover = controllerAfter (leases st.log)
  excluded : st.dispatchReq.excludedAccounts = st.failover.failedAccounts
  going : st.terminalAbort = false
  complete : st.forwardResult.streamIncomplete = false
  undeferred : st.deferMediaUsage = false
  running : st.exit = .running

structure Fresh (c : Context) (st : Handler) (actions : List Action) : Prop where
  holding : Holding c st.dispatchRetrySequence st.log st.dispatchResult actions
  untouched : summary actions = {}
  silent : output actions = []
  controller : st.failover = controllerAfter (leases st.log).tail
  going : st.terminalAbort = false
  complete : st.forwardResult.streamIncomplete = false
  undeferred : st.deferMediaUsage = false
  running : st.exit = .running

structure Attempted (c : Context) (st : Handler) (actions : List Action) : Prop where
  holding : Holding c st.dispatchRetrySequence st.log st.dispatchResult actions
  forwarded : summary actions = { forwardings := 1, results := [st.forwardResult] }
  silent : st.forwardResult.outputStarted = false → output actions = []
  controller : st.failover = controllerAfter (leases st.log).tail
  going : st.terminalAbort = false
  undeferred : st.deferMediaUsage = false
  running : st.exit = .running

abbrev Underway (c : Context) (st : Handler) (actions : List Action) : Prop :=
  Pending c st.dispatchRetrySequence st.log st.dispatchResult st.terminalAbort
    st.forwardResult.streamIncomplete st.deferMediaUsage actions

def Ending (c : Context) (st : Handler) : Prop :=
  ∃ actions, Underway c st actions ∧
    (st.terminalAbort = false → st.forwardResult.streamIncomplete = false)

inductive Left (c : Context) (st : Handler) : Prop where
  | broke (hexit : st.exit = .broke) (ending : Ending c st)
  | returned (hexit : st.exit = .returned) (closed : ∀ l ∈ leases st.log, Closed l.body)
      (kept : Kept c st.log)
  | failed (hexit : st.exit = .threw ∨ st.exit = .faulted) (kept : Kept c st.log)

def Goes (c : Context) : Handling → Prop
  | .ok st => Head c st
  | .error st => Left c st

theorem Head.emit (h : Head c st) {a : Action} (ha : a.isIdle)
    (ho : InOrder c.world st.log a) : Head c (st.emit a) := { h with
  idle := h.idle.emit ha ho
  controller := by exact h.controller.trans (controllerAfter_snoc_idle ha).symm }

theorem Fresh.extend (h : Fresh c st actions) (hm : Quietly st.lease more) (ho : output more = []) :
    Fresh c (st.extend more) (actions ++ more) := { h with
  holding := h.holding.append hm
  untouched := by rw [summary_append_of_quiet actions fun a ha => (hm a ha).1]; exact h.untouched
  silent := by rw [output_append, h.silent, ho, nil_append]
  controller := by
    rw [Handler.extend_log,
      tail_leases_append fun a ha => Action.isDispatch_of_isQuiet (hm a ha).1]
    exact h.controller }

theorem Fresh.pending (h : Fresh c st actions) : Underway c st actions :=
  h.holding.pending (by rw [h.untouched]) (by rw [h.untouched]) h.going h.undeferred

theorem Attempted.pending (h : Attempted c st actions) : Underway c st actions :=
  h.holding.pending (by rw [h.forwarded]) (by rw [h.forwarded]) h.going h.undeferred

theorem Pending.giveUp {terminal incomplete deferred : Bool}
    (h : Pending c n log grant terminal incomplete deferred actions)
    (hc : convertible c.world c.req c.matched grant.upstream = false) :
    Pending c n log grant true incomplete deferred actions := { h with
  aborted := fun _ => .inr hc
  released := fun hr => ⟨rfl, (h.released hr).2⟩ }

theorem left_threw {st : Handler} (h : Kept c st.log) : Left c st.threw :=
  .failed (.inl rfl) h

theorem convertible_eq (target : UpstreamTarget) : convertible c.world c.req c.matched target =
      match c.upstreamBody target with
      | .ok (.ok _) => true
      | _ => false := by
  unfold convertible Context.upstreamBody
  cases c.req.body.isEmpty || !c.matched.spec.capability.isChat with
  | true => rfl
  | false =>
    cases Protocol.Converter.convertRequest c.world.rj c.req.body c.matched.spec.inboundFormat
        (upstreamFormat target) target.mappedModel with
    | error fault => rfl
    | ok conversion => cases hs : conversion.success <;> simp [hs, ok_bind]

section

variable (h : Fresh c st actions)

include h

theorem conversionFailed_left {message : Bytes}
    (hbo : c.upstreamBody st.dispatchResult.upstream = .ok (.error message)) :
    Left c (Context.conversionFailed message st) :=
  .broke rfl ⟨actions, h.pending.giveUp (by rw [convertible_eq, hbo]),
    fun hf => (by cases hf)⟩

theorem evidenceUnavailable_left : Left c (c.evidenceUnavailable st) := by
  refine .broke rfl ⟨_, h.pending.abort "forward_evidence_unavailable" .noCharge 0 _ (fun _ => rfl)
    (fun _ => .inl ?_) fun _ _ => ⟨rfl, h.complete⟩, fun hf => (by cases hf)⟩
  rw [h.untouched]

theorem Fresh.forward (hau : isAuthorized actions) (body : Bytes)
    (hm : Quietly st.lease more) : Holding c st.dispatchRetrySequence
        (st.log ++ ([.forwarding st.lease st.dispatchResult.upstream body] ++ more))
        st.dispatchResult
        (actions ++ ([.forwarding st.lease st.dispatchResult.upstream body] ++ more)) ∧
      summary (actions ++ ([.forwarding st.lease st.dispatchResult.upstream body] ++ more)) =
        { forwardings := 1 } := by
  set a : Action := .forwarding st.lease st.dispatchResult.upstream body with ha
  have hs : summary (actions ++ [a]) = { forwardings := 1 } := by
    rw [summary_snoc, h.untouched]; rfl
  have hh : Holding c st.dispatchRetrySequence (st.log ++ [a]) st.dispatchResult
      (actions ++ [a]) :=
    h.holding.emit rfl (fun lease hl => (Option.some.inj hl).symm) trivial
      ⟨hau, h.untouched⟩
      fun hr => (by rw [hs])
  rw [← append_assoc, ← append_assoc, summary_append_of_quiet _ fun b hb => (hm b hb).1]
  exact ⟨hh.append hm, hs⟩

theorem Fresh.called (hau : isAuthorized actions) {body : Bytes}
    (hm : Quietly st.lease more) (hou : output more = clientBytes (c.outcome body st).actions) :
    Attempted c (c.called body more st)
      (actions ++ ([.forwarding st.lease st.dispatchResult.upstream body] ++ more) ++
        [.forwarded st.lease (c.outcome body st).result]) := by
  set opened : List Action := [.forwarding st.lease st.dispatchResult.upstream body] ++ more
    with ho
  set r := (c.outcome body st).result with hr
  obtain ⟨hh, hs⟩ := h.forward hau body hm
  obtain ⟨resp, hc⟩ := calling_eq (c := c) body st
  have hcalled : c.called body more st =
      { st.extend (opened ++ [.forwarded st.lease r]) with resp := resp, forwardResult := r } := by
    unfold Context.called
    rw [hc]
    simp only [Handler.extend, Handler.emit, Handler.lease, ho, append_assoc]
    rfl
  have haf : summary (actions ++ opened ++ [.forwarded st.lease r]) =
      { forwardings := 1, results := [r] } := by
    rw [summary_snoc, hs]; rfl
  rw [hcalled]
  refine ⟨?_, haf, fun hn => ?_, ?_, h.going, h.undeferred, h.running⟩
  · dsimp only [Handler.extend]
    rw [← append_assoc]
    refine hh.emit rfl (fun lease hl => (Option.some.inj hl).symm) ?_ trivial
      fun hrel => (by rw [haf])
    intro hre
    obtain ⟨response, hcal, hst, -⟩ := answer_of_rejection hre
    exact ⟨st.log, _, body, more, _, response, rfl, fun a ha => (hm a ha).1, rfl, rfl, hcal,
      hst⟩
  · have hno : output more = [] := hou.trans (clientBytes_forward hn)
    rw [output_append, output_append, output_append, h.silent, hno]; rfl
  · have ht : ∀ a ∈ opened ++ [.forwarded st.lease r], a.isDispatch = false := by
      intro a ha
      simp only [ho, mem_append, mem_singleton] at ha
      rcases ha with (rfl | ha) | rfl
      · rfl
      · exact Action.isDispatch_of_isQuiet (hm a ha).1
      · rfl
    dsimp only [Handler.extend]
    rw [h.controller, tail_leases_append ht]

end

section

variable (h : Underway c st actions)

include h

theorem abortAmbiguous_cases :
    (c.abortAmbiguous st = st ∧ st.forwardResult.streamIncomplete = false) ∨
    (c.abortAmbiguous st).terminalAbort ∧
      ∃ actions', Underway c (c.abortAmbiguous st) actions' := by
  unfold Context.abortAmbiguous
  by_cases ha : Context.isAmbiguous st.forwardResult
  · rw [if_pos ha]
    have hab := h.abortUnknown (Context.ambiguousReason st.forwardResult)
      st.forwardResult.providerStatusCode (c.abortAck (Context.ambiguousReason st.forwardResult)
        .unknown st.forwardResult.providerStatusCode st)
    dsimp only
    split
    · exact .inr ⟨rfl, _, hab⟩
    · exact .inr ⟨rfl, _, hab⟩
  · rw [if_neg ha]
    have hc := (Bool.or_eq_false_iff.1 (Bool.eq_false_iff.2 ha)).2
    exact .inl ⟨rfl, hc⟩

theorem abortMalformed_cases : c.abortMalformed st = st ∨ (c.abortMalformed st).terminalAbort ∧
      ∃ actions', Underway c (c.abortMalformed st) actions' := by
  unfold Context.abortMalformed
  by_cases hm : st.forwardResult.malformedUsage
  · rw [if_pos hm]; exact .inr ⟨rfl, _, (h.reportError _ _).abortUnknown _ _ _⟩
  · rw [if_neg hm]; exact .inl rfl

theorem Pending.ending (ht : st.terminalAbort) : Ending c st := by
  refine ⟨actions, h, fun hf => ?_⟩
  rw [ht] at hf
  cases hf

theorem aborts_cases :
    (c.abortMalformed (c.abortAmbiguous st) = st ∧ st.forwardResult.streamIncomplete = false) ∨
    Ending c (c.abortMalformed (c.abortAmbiguous st)) ∧
      (c.abortMalformed (c.abortAmbiguous st)).terminalAbort := by
  rcases abortAmbiguous_cases h with ⟨heq, hc⟩ | ⟨ht, actions', ha⟩
  · rw [heq]
    rcases abortMalformed_cases h with heq' | ⟨ht, actions', hm⟩
    · exact .inl ⟨heq', hc⟩
    · exact .inr ⟨hm.ending ht, ht⟩
  · right
    rcases abortMalformed_cases ha with heq' | ⟨ht', actions'', hm⟩
    · rw [heq']; exact ⟨ha.ending ht, ht⟩
    · exact ⟨hm.ending ht', ht'⟩

theorem abortFailed_underway (hr : st.forwardResult ∈ (summary actions).results)
    (hc : st.forwardResult.streamIncomplete = false) : ∃ reason disposition status ack,
      c.abortFailed st = st.emit (.aborted st.lease reason disposition status ack) ∧
      Underway c { c.abortFailed st with terminalAbort := true }
        (actions ++ [.aborted st.lease reason disposition status ack]) := by
  refine ⟨_, _, _, _, rfl, h.abort _ _ _ _ (fun _ => rfl) (fun hd => .inr (.inl ?_))
    fun _ _ => ⟨rfl, hc⟩⟩
  refine ⟨st.forwardResult, hr, ?_⟩
  by_contra hn
  rw [if_neg hn] at hd
  cases hd

end

theorem summary_failed {r : ForwardResult}
    (hf : summary actions = { forwardings := 1, results := [r] })
    (error : ErrorReportData) (reported : RpcAck) (lease reason : Bytes)
    (disposition : LeaseAbortDisposition) (status : Int) (ack : RpcAck) :
    summary (actions ++ [.reportedError error reported] ++
      [.aborted lease reason disposition status ack]) =
        { forwardings := 1, results := [r], aborts := 1,
          released := disposition == .noCharge && ack.acknowledged } := by
  have hr : summary (actions ++ [.reportedError error reported]) =
      { forwardings := 1, results := [r] } := by
    rw [summary_snoc, hf]; rfl
  rw [summary_snoc, hr]
  rfl

theorem tryAgain_goes (h : Attempted c st actions) (hc : st.forwardResult.streamIncomplete = false)
    (hr : isExplicitProviderRejection st.forwardResult)
    (hsi : st.forwardResult.outputStarted = false) : Goes c (c.tryAgain st) := by
  unfold Context.tryAgain
  dsimp only
  set accountId := st.dispatchResult.upstream.accountId
  set next := st.failover.handleError accountId st.forwardResult.statusCode with hn
  set error : ErrorReportData :=
    { accountId
      statusCode := st.forwardResult.statusCode
      retryAfterMs := st.forwardResult.retryAfterMs
      requestId := c.requestId } with he
  set st₁ := c.reportError error { st with failover := next.2 } with hst₁
  let reported := c.world.reportError st.log error
  have hre : Underway c st₁ (actions ++ [.reportedError error reported]) :=
    h.pending.reportError error reported
  have hres : st.forwardResult ∈ (summary
    (actions ++ [.reportedError error reported])).results := by
    rw [summary_snoc, h.forwarded]; exact mem_singleton.2 rfl
  obtain ⟨reason, disposition, status, ack, heq, ha⟩ := abortFailed_underway hre hres hc
  split
  · exact .broke rfl (Pending.ending ha rfl)
  · rw [heq] at ha ⊢
    let a : Action := .reportedError error reported
    let b : Action := .aborted st.lease reason disposition status ack
    have hh : Holding c st.dispatchRetrySequence (st.log ++ [a] ++ [b]) st.dispatchResult
        (actions ++ [a] ++ [b]) := ha.holding
    have hs : summary (actions ++ [a] ++ [b]) =
        { forwardings := 1, results := [st.forwardResult], aborts := 1,
          released := disposition == .noCharge && ack.acknowledged } :=
      summary_failed h.forwarded error reported st.lease reason disposition status ack
    have hcl : Closed (actions ++ [a] ++ [b]) := by
      refine ⟨⟨st.forwardResult, by rw [hs], hr⟩, by rw [hs], by rw [hs], ?_⟩
      rw [output_append, output_append, h.silent hsi]; rfl
    have hco : next.2 = controllerAfter (leases (st.log ++ [a] ++ [b])) := by
      have ht : (leases (st.log ++ [a] ++ [b])).tail = (leases st.log).tail :=
        (tail_leases_snoc rfl).trans (tail_leases_snoc rfl)
      rw [hh.controller_eq (r := st.forwardResult) (by rw [hs]), ht, ← h.controller]
    refine Head.emit ?_ rfl trivial
    exact ⟨hh.close hcl, rfl, hco, rfl, h.going, hc, h.undeferred, h.running⟩

theorem failOver_goes (h : Attempted c st actions)
    (hc : st.forwardResult.streamIncomplete = false) : Goes c (c.failOver st) := by
  unfold Context.failOver readClock
  dsimp only
  set st₁ : Handler := { st with clockCalls := st.clockCalls + 1 }
  have ha : Attempted c st₁ actions := { h with }
  split
  · next hr =>
    simp only [Context.isRetryable, Bool.and_eq_true, Bool.not_eq_true'] at hr
    exact tryAgain_goes ha hc hr.1.1.1.1 hr.1.1.2
  · have hre : st.forwardResult ∈ (summary actions).results := by
      rw [h.forwarded]; exact mem_singleton.2 rfl
    obtain ⟨reason, disposition, status, ack, -, hab⟩ := abortFailed_underway ha.pending hre hc
    exact .broke rfl (Pending.ending hab rfl)

theorem afterForward_goes (h : Attempted c st actions) : Goes c (c.afterForward st) := by
  unfold Context.afterForward
  dsimp only
  rcases aborts_cases h.pending with ⟨heq, hc⟩ | ⟨he, ht⟩
  · rw [heq]
    split
    · exact failOver_goes h hc
    · exact .broke rfl ⟨actions, h.pending, fun _ => hc⟩
  · rw [ht, Bool.not_true, Bool.and_false]; exact .broke rfl he

theorem AttemptStep.goes {m : Handling} (hs : AttemptStep c st m) (h : Fresh c st actions) :
    Goes c m := by
  have hq : ∀ ack, Quietly st.lease (forwardEvidence ack st) := fun ack =>
    (piping_reported _ _ ack st).quietly
  have haut : ∀ ack : RpcAck, ack.acknowledged → ∃ actions',
      Fresh c (authorized ack st) actions' ∧ isAuthorized actions' := by
    intro ack ha
    have hm : Quietly st.lease (forwardEvidence ack st ++ [.acknowledgedEvidence st.lease
      .forwarded]) :=
      (hq ack).append (piping_acknowledged _ _).quietly
    refine ⟨_, h.extend hm rfl, ?_⟩
    rw [isAuthorized_append]
    simp [isAuthorized, forwardEvidence, Action.isAuthorization, ha]
  cases hs with
  | faulted hbo => exact .failed (.inr rfl) h.holding.kept
  | unconverted hbo => exact conversionFailed_left h hbo
  | unstored hbo ht => exact left_threw h.holding.kept
  | @unresolved body ack hbo ha ht => exact left_threw (h.holding.append (hq ack)).kept
  | @unauthorized body ack hbo ha => exact evidenceUnavailable_left (h.extend (hq ack) rfl)
  | @threw body ack more hbo ha ht hp hthrew =>
    obtain ⟨actions', hf, hau⟩ := haut ack ha
    change Left c ((c.calling body (authorized ack st)).extend more).threw
    refine left_threw ?_
    rw [Handler.extend_log, log_calling, append_assoc]
    exact (hf.forward hau body hp.quietly).1.kept
  | @called body ack more hbo ha hp ho =>
    obtain ⟨actions', hf, hau⟩ := haut ack ha
    exact afterForward_goes (hf.called hau hp.quietly ho)

section

variable (h : Head c st)

include h

theorem Head.left {st' : Handler} (hl : st'.log = st.log)
    (he : st'.exit = .returned) : Left c st' := by
  refine .returned he ?_ ?_
  · rw [hl]; exact h.idle.closed
  · rw [hl]; exact h.idle.kept

theorem Head.count (result : DispatchResult) (waits retries clockCalls : Nat) :
    Head c { st with
      dispatchResult := result, dispatchWaits := waits, dispatchTransportRetries := retries,
      clockCalls := clockCalls } :=
  { h with }

theorem Head.inOrder (result : DispatchResult) :
    InOrder c.world st.log (.dispatched st.dispatchReq result) := by
  refine ⟨h.idle.closed, ?_⟩
  rw [h.excluded, h.controller]

theorem repeated_left : Left c (c.repeated st) := by
  have hr : ∀ {s : Handler}, Head c s → Left c (c.replay s) := by
    intro s hs
    obtain ⟨resp, heq⟩ := replay_eq c s
    rw [heq]; exact hs.left rfl rfl
  rcases repeated_cases c st with ⟨request, result, resp, -, heq⟩ | heq | ⟨request, result, -, heq⟩
  · rw [heq]; exact (h.emit (a := .mediaOperation request result) rfl trivial).left rfl rfl
  · rw [heq]; exact hr h
  · rw [heq]; exact hr (h.emit rfl trivial)

theorem callDispatch_fresh (hg : (c.callDispatch st).dispatchResult.granted) :
    Fresh c (c.callDispatch st) [] := { h with
  holding := h.idle.grant hg h.requestId (h.inOrder _)
  untouched := rfl
  silent := rfl
  controller := by
    have hl : leases (c.callDispatch st).log =
        ⟨⟨st.dispatchReq, (c.callDispatch st).dispatchResult⟩, []⟩ :: leases st.log :=
      segments_open (if_pos hg)
    rw [hl, tail_cons]; exact h.controller }

theorem callDispatch_head (hg : (c.callDispatch st).dispatchResult.granted = false) :
    Head c (c.callDispatch st) := by
  have hi : (Action.dispatched st.dispatchReq (c.callDispatch st).dispatchResult).isIdle := by
    rw [Action.isIdle, hg]; rfl
  exact (h.emit hi (h.inOrder _)).count _ _ _ _

theorem leased_fresh (hg : (c.callDispatch st).dispatchResult.granted) :
    ∃ actions, Fresh c (c.leased st) actions := by
  obtain ⟨more, heq, hq, ho⟩ := leased_eq c st
  have hf := (callDispatch_fresh h hg).extend hq ho
  rw [heq]
  exact ⟨_, hf.holding, hf.untouched, hf.silent, hf.controller, hf.going,
    hf.complete, hf.undeferred, hf.running⟩

theorem round_goes : Goes c (c.round st) := by
  have hre : (c.callDispatch st).dispatchResult.outcome = .rejected →
      Head c (c.callDispatch st) := fun ho =>
    callDispatch_head h (by rw [DispatchResult.granted, ho]; rfl)
  have hw : (c.callDispatch st).dispatchResult.outcome = .wait →
      Head c (c.callDispatch st) := fun ho =>
    callDispatch_head h (by rw [DispatchResult.granted, ho]; rfl)
  have hret : isRetryablePlatformDispatch (c.callDispatch st).dispatchResult →
      Head c (c.callDispatch st) := fun hr =>
    hre (beq_iff_eq.1 (Bool.and_eq_true_iff.1 hr).1)
  have hs := round_step c st
  generalize c.round st = m at hs
  cases hs with
  | retried hr hc => exact Head.emit ((hret hr).count _ _ _ _) rfl trivial
  | unavailable reads hr => exact (hret hr).left rfl rfl
  | waited ho hc => exact Head.emit ((hw ho).count _ _ _ _) rfl trivial
  | exhausted reads ho => exact (hw ho).left rfl rfl
  | repeated ho hco => exact repeated_left (hre ho)
  | refused ho hfi hco => exact (hre ho).left rfl rfl
  | attempted hg ha => obtain ⟨actions, hf⟩ := leased_fresh h hg; exact ha.goes hf

end

theorem rounds_goes (fuel : Nat) (h : Head c st) :
    Head c (c.rounds fuel st) ∨ Left c (c.rounds fuel st) := by
  induction fuel generalizing st with
  | zero => exact .inl h
  | succ fuel ih =>
    have hr := round_goes h
    unfold Context.rounds
    split
    · next st' heq =>
      rw [heq] at hr; exact ih hr
    · next st' heq =>
      rw [heq] at hr; exact .inr hr

end

end Gateway.Server
