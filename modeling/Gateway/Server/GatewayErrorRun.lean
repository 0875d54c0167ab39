import Gateway.Server.GatewayErrors

/-! # Runs that end in an error of the gateway's own -/

namespace Gateway.Server

open Lib Dispatch Forwarder List

def Context.finish (c : Context) (st : Handler) : Handler :=
  if st.exit = .broke then c.settle st else st

inductive Traced (c : Context) (resp : HttpResponse) : Handling → Prop
  | again {st : Handler} (h : Carries st (c.carried resp st.log)) : Traced c resp (.ok st)
  | left {st : Handler} (h : Explained c resp (c.finish st)) : Traced c resp (.error st)

variable {more : List Action} {statusCode : Int} {body : Bytes} {earlier : List Round}

section

variable {c : Context} {resp : HttpResponse} {st st' : Handler}

theorem finish_of_exit (h : st.exit ≠ .broke) : c.finish st = st := if_neg h

theorem finish_of_broke (h : st.exit = .broke) : c.finish st = c.settle st := if_pos h

section

variable (h : Carries st (c.carried resp st.log))

include h

theorem Carries.append (more : List Action)
    (hl : st'.log = st.log ++ more) (hm : ∀ a ∈ more, a.isForwarding = false)
    (hr : st'.resp = st.resp) (hre : st'.forwardResult = st.forwardResult)
    (hmedia : st'.mediaResponseOverridden = st.mediaResponseOverridden)
    (hp : st'.responsePolicyOverridden = st.responsePolicyOverridden) :
    Carries st' (c.carried resp st'.log) := by
  have hc : c.carried resp st'.log = c.carried resp st.log := by
    unfold Context.carried
    rw [hl, lastAnswer_append_of_none _ _ _ hm]
  rw [hc]
  exact h.congr hr hre hmedia hp

theorem Carries.emit {a : Action}
    (ha : a.isForwarding = false) : Carries (st.emit a) (c.carried resp (st.emit a).log) :=
  h.append [a] rfl (fun _ hb => mem_singleton.1 hb ▸ ha) rfl rfl rfl rfl

theorem Carries.pause (ms : Int)
    (hl : st'.log = st.log) (hr : st'.resp = st.resp) (hre : st'.forwardResult = st.forwardResult)
    (hm : st'.mediaResponseOverridden = st.mediaResponseOverridden)
    (hp : st'.responsePolicyOverridden = st.responsePolicyOverridden) :
    Traced c resp (.ok (Context.sleepMs ms st')) := by
  have hbefore : Carries st' (c.carried resp st'.log) :=
    h.append [] (by rw [hl, append_nil]) (by simp) hr hre hm hp
  exact .again (hbefore.emit rfl)

theorem Carries.callDispatch :
    Carries (c.callDispatch st) (c.carried resp (c.callDispatch st).log) :=
  h.append [_] rfl (by simp [Action.isForwarding]) rfl rfl rfl rfl

end

theorem dispatches_callDispatch (c : Context) (st : Handler) : dispatches (c.callDispatch st).log =
      ⟨(c.callDispatch st).dispatchResult, []⟩ :: dispatches st.log :=
  dispatches_snoc st.log st.dispatchReq (c.callDispatch st).dispatchResult

def Action.isBeside (a : Action) : Prop :=
  a.isDispatch = false ∧ a.isForwarding = false ∧ a.mediaResult? = none

theorem dispatches_since (c : Context) (hl : st'.log = (c.callDispatch st).log ++ more)
    (hm : ∀ a ∈ more, a.isDispatch = false) :
    dispatches st'.log = ⟨(c.callDispatch st).dispatchResult, more⟩ :: dispatches st.log := by
  rw [hl, dispatches_append _ hm, dispatches_callDispatch, addAll_cons, nil_append]

theorem Carries.refused (h : Carries st' (c.carried resp st'.log))
    (hl : st'.log = (c.callDispatch st).log ++ more) (hm : ∀ a ∈ more, a.isDispatch = false)
    (hr : (c.callDispatch st).dispatchResult.granted = false)
    (he : dispatchError c.world.rj (c.callDispatch st).dispatchResult = (statusCode, body)) :
    Traced c resp (.error (st'.answered statusCode body)) := by
  refine .left ?_
  rw [finish_of_exit (by simp [Handler.answered, Handler.returned])]
  exact h.answered (dispatches_since c hl hm) hr he

theorem traced_of_replays {round : Round} (hr : dispatches st.log = round :: earlier)
    (hre : round.replays) (he : st.exit = .returned) : Traced c resp (.error st) := by
  refine .left ?_
  rw [finish_of_exit (by simp [he])]
  intro her
  simp [isGatewayError, hr, hre] at her

theorem Carries.replay (h : Carries st' (c.carried resp st'.log))
    (hl : st'.log = (c.callDispatch st).log ++ more) (hm : ∀ a ∈ more, a.isDispatch = false)
    (hs : st'.dispatchResult = (c.callDispatch st).dispatchResult)
    (hr : st'.dispatchResult.outcome = .rejected) (hc : st'.dispatchResult.rejectCode = 10) :
    Traced c resp (.error (c.replay st')) := by
  have hro := dispatches_since c hl hm
  rw [← hs] at hro
  unfold Context.replay
  dsimp only
  split
  · next hst =>
    refine traced_of_replays hro ?_ rfl
    simp only [Bool.and_eq_true, decide_eq_true_eq] at hst
    simp [Round.replays, hr, hc, hst]
  · refine h.refused hl hm ?_ ?_
    · rw [← hs]; simp [DispatchResult.granted, hr]
    · rw [← hs]
      simp [dispatchError, hr, isRetryablePlatformDispatch, hc, platformUnavailableRejectCode]

theorem Carries.repeated (h : Carries st (c.carried resp st.log))
    (hr : (c.callDispatch st).dispatchResult.outcome = .rejected)
    (hc : (c.callDispatch st).dispatchResult.rejectCode = 10) :
    Traced c resp (.error (c.repeated (c.callDispatch st))) := by
  have hd := h.callDispatch
  rcases repeated_cases c (c.callDispatch st) with
    ⟨request, result, shown, ha, heq⟩ | heq | ⟨request, result, -, heq⟩
  · rw [heq]
    have hl : ({ (c.callDispatch st).emit (.mediaOperation request result) with
        resp := shown }.returned).log =
        (c.callDispatch st).log ++ [.mediaOperation request result] := rfl
    refine traced_of_replays (dispatches_since c hl (by simp [Action.isDispatch])) ?_ rfl
    simp [Round.replays, Round.answers, Action.mediaResult?, hr, hc, ha]
  · rw [heq]; exact hd.replay (append_nil _).symm (by simp) rfl hr hc
  · rw [heq]
    have has : Carries ((c.callDispatch st).emit (.mediaOperation request result))
        (c.carried resp ((c.callDispatch st).emit (.mediaOperation request result)).log) :=
      hd.append [_] rfl (by simp [Action.isForwarding]) rfl rfl rfl rfl
    exact has.replay rfl (by simp [Action.isDispatch]) rfl hr hc

structure Leased (c : Context) (resp : HttpResponse) (st : Handler) : Prop where
  carries : Carries st (c.carried resp st.log)
  format : st.lastUpstreamFormat = upstreamFormat st.dispatchResult.upstream
  granted : st.dispatchResult.granted
  round : ∃ body earlier, dispatches st.log = ⟨st.dispatchResult, body⟩ :: earlier ∧
    body.filterMap Action.mediaResult? = []

theorem Carries.leased (h : Carries st (c.carried resp st.log))
    (hg : (c.callDispatch st).dispatchResult.granted) : Leased c resp (c.leased st) := by
  have hd := h.callDispatch
  have hn : ∀ more, (∀ a ∈ more, a.isBeside) → c.leased st =
      { (c.callDispatch st).extend more with
        lastUpstreamFormat := upstreamFormat (c.callDispatch st).dispatchResult.upstream } →
      Leased c resp (c.leased st) := by
    intro more hbeside heq
    rw [heq]
    refine ⟨?_, rfl, hg, ?_⟩
    · exact hd.append more rfl (fun a ha => (hbeside a ha).2.1) rfl rfl rfl rfl
    · refine ⟨more, _, dispatches_since c rfl fun a ha => (hbeside a ha).1, ?_⟩
      exact filterMap_eq_nil_iff.2 fun a ha => (hbeside a ha).2.2
  have heq : c.leased st = { c.updateAuthCache (c.callDispatch st) with
      lastUpstreamFormat :=
        upstreamFormat (c.updateAuthCache (c.callDispatch st)).dispatchResult.upstream } := rfl
  unfold Context.updateAuthCache at heq
  dsimp only at heq
  split at heq
  · exact hn [_] (by simp [Action.isBeside, Action.isDispatch, Action.isForwarding,
      Action.mediaResult?]) heq
  · split at heq
    · exact hn [_] (by simp [Action.isBeside, Action.isDispatch, Action.isForwarding,
        Action.mediaResult?]) heq
    · refine hn [] (by simp) ?_
      rw [Handler.extend_nil]; exact heq

theorem leaseError_eq (target : UpstreamTarget) : leaseError c.world.rj c.req c.matched target =
      match c.upstreamBody target with
      | .ok (.error message) => (400, literalError "invalid_request_error" message)
      | _ => (503, literalError "platform_unavailable"
          "Unable to persist Provider dispatch evidence") := by
  unfold leaseError Context.upstreamBody
  cases c.req.body.isEmpty || !c.matched.spec.capability.isChat with
  | true => rfl
  | false =>
    cases Protocol.Converter.convertRequest c.world.rj c.req.body c.matched.spec.inboundFormat
        (upstreamFormat target) target.mappedModel with
    | error fault => rfl
    | ok conversion => cases hs : conversion.success <;> simp [hs, ok_bind]

theorem Leased.extend (h : Leased c resp st) (hm : ∀ a ∈ more, a.isBeside) :
    Leased c resp (st.extend more) := by
  obtain ⟨body, earlier, hr, hbo⟩ := h.round
  refine ⟨?_, h.format, h.granted, body ++ more, earlier, ?_, ?_⟩
  · exact h.carries.append more rfl (fun a ha => (hm a ha).2.1) rfl rfl rfl rfl
  · rw [Handler.extend_log, dispatches_append _ fun a ha => (hm a ha).1, hr, addAll_cons]; rfl
  · rw [filterMap_append, hbo]; exact filterMap_eq_nil_iff.2 fun a ha => (hm a ha).2.2

theorem Leased.failing (h : Leased c resp st)
    (he : leaseError c.world.rj c.req c.matched st.dispatchResult.upstream = (statusCode, body)) :
    Failing c resp { st with
      forwardResult.statusCode := statusCode
      forwardResult.contentType := "application/json"
      forwardResult.body := body
      terminalAbort := true }.broke := by
  obtain ⟨⟨ht, hh, hr, hs, hf, hp⟩, hfo, hg, hro⟩ := h
  exact ⟨⟨ht, hh, hr, hs, hf, hp⟩, he, rfl, hfo, hg,
    hro⟩

theorem Failing.traced (h : Failing c resp st) (he : st.exit = .broke) :
    Traced c resp (.error st) := by
  refine .left ?_
  rw [finish_of_broke he]
  exact h.explained

theorem traced_of_exit (hbr : st.exit ≠ .broke) (hr : st.exit ≠ .returned) :
    Traced c resp (.error st) := by
  refine .left ?_
  rw [finish_of_exit hbr]
  intro he
  exact absurd he (not_isGatewayError_of_exit hr)

theorem traced_of_forwarded {round : Round} {lease : Bytes} {target : UpstreamTarget}
    (hr : dispatches st.log = round :: earlier) (hf : .forwarding lease target body ∈ round.body)
    (hex : st.exit = .broke) : Traced c resp (.error st) := by
  refine .left ?_
  rw [finish_of_broke hex]
  intro he
  obtain ⟨more, hl, hs⟩ := settle_log c st
  have hla : dispatches (c.settle st).log = { round with body := round.body ++ more } ::
    earlier := by
    rw [hl, dispatches_append _ ?_, hr, addAll_cons]
    intro a ha
    have hk := hs a ha
    cases a with
    | dispatched request result => cases hk
    | _ => rfl
  have han : (round.body ++ more).any Action.isForwarding :=
    any_eq_true.2 ⟨_, mem_append_left _ hf, rfl⟩
  simp only [isGatewayError, hla, han, Bool.not_true, Bool.false_and, Bool.and_false] at he
  cases he

theorem plainHeaders_started (headers : List (Bytes × Bytes)) (requestId : Bytes) (found : Bool) :
    plainHeaders (if found then headers else headers ++ [(ascii "X-Request-ID", requestId)]) =
      plainHeaders headers := by
  have hid : isRequestId (ascii "X-Request-ID", requestId) := by
    change isRequestId (ascii "X-Request-ID", [])
    decide
  cases found
  · simp [plainHeaders, hid]
  · rfl

variable (hid : c.requestId = c.world.requestId c.req)

include hid

theorem Carries.attempted (h : Carries st (c.carried resp st.log))
    (hm : ∀ a ∈ more, a.isForwarding = false)
    (hr : isExplicitProviderRejection (c.outcome body st).result)
    (hf : (c.outcome body st).result.malformedUsage = false) :
    Carries (c.called body more st) (c.carried resp (c.called body more st).log) := by
  obtain ⟨response, hcall, -, hs, hst⟩ := answer_of_rejection hr
  set target := st.dispatchResult.upstream
  have hse : providerCall target (c.forwardRequest body st) =
      sentCall c.world c.req target body := by
    unfold sentCall
    rw [← hid]; rfl
  have han : lastAnswer c.world c.req (c.called body more st).log =
      some (target, .ok response) := by
    have hl : (c.called body more st).log = st.log ++ [.forwarding st.lease target body] ++
        (more ++ [.forwarded ((c.calling body st).extend more).lease
          (c.outcome body st).result]) := by
      rw [← log_calling, ← append_assoc]; rfl
    rw [hl, lastAnswer_append_of_none]
    · unfold lastAnswer; rw [lastCall_snoc_forwarding, Option.map_some, ← hse, hcall]
    · intro a ha
      rcases mem_append.1 ha with ha | ha
      · exact hm a ha
      · rw [mem_singleton.1 ha]; rfl
  have hc : c.calling body st = c.startResponse (some (response.start target))
      (st.emit (.forwarding st.lease target body)) := congrArg (c.startResponse · _) hst
  have hre : (c.called body more st).resp = (c.startResponse (some (response.start target))
      (st.emit (.forwarding st.lease target body))).resp := by
    rw [← hc]; rfl
  unfold Context.carried
  rw [han]
  refine ⟨?_, ?_, ?_, ?_, hf, ?_⟩
  · rw [hre]; rfl
  · rw [hre]; exact plainHeaders_started _ _ _
  · exact hr
  · rintro status ⟨⟩; exact hs
  · have hp := h.plain
    unfold Context.called
    dsimp only
    rw [hc]; exact hp

theorem Leased.afterForward (h : Leased c resp st)
    (hm : ∀ a ∈ more, a.isQuiet) : Traced c resp (c.afterForward (c.called body more st)) := by
  have hu : ∀ a ∈ more, a.isForwarding = false := by
    intro a ha
    have hk := hm a ha
    cases a with
    | forwarding lease target body => cases hk
    | _ => rfl
  cases heq : c.afterForward (c.called body more st) with
  | error st' =>
    obtain ⟨⟨⟨rest, hl, hf⟩, -, -⟩, he⟩ := afterForward_error heq
    obtain ⟨before, earlier, hr, -⟩ := h.round
    set since := [.forwarding st.lease st.dispatchResult.upstream body] ++ more ++
      [.forwarded ((c.calling body st).extend more).lease (c.outcome body st).result] ++ rest
    have hl' : st'.log = st.log ++ since := by
      rw [hl]
      change (c.calling body st).log ++ more ++ [_] ++ rest = _
      rw [log_calling]
      simp [since]
    have hs : ∀ a ∈ since, a.isDispatch = false := by
      intro a ha
      simp only [since, mem_append, mem_singleton] at ha
      rcases ha with ((rfl | ha) | rfl) | ha
      · rfl
      · exact Action.isDispatch_of_isQuiet (hm a ha)
      · rfl
      · have hk := hf a ha
        cases a with
        | dispatched request result => cases hk
        | _ => rfl
    have hla : dispatches st'.log = ⟨st.dispatchResult, before ++ since⟩ :: earlier := by
      rw [hl', dispatches_append _ hs, hr, addAll_cons]
    have hfo : .forwarding st.lease st.dispatchResult.upstream body ∈ before ++ since := by
      simp [since]
    exact traced_of_forwarded hla hfo he
  | ok st' =>
    obtain ⟨hre, -, hfor, -, -, error, controller, rfl⟩ := afterForward_ok heq
    have hc : Carries (c.called body more st) (c.carried resp (c.called body more st).log) :=
      h.carries.attempted hid hu hre hfor
    set called := c.called body more st
    have hrea : Carries { called with clockCalls := called.clockCalls + 1, failover := controller }
        (c.carried resp called.log) := hc.congr rfl rfl rfl rfl
    have hfa : Carries (c.abortFailed (c.reportError error
        { called with clockCalls := called.clockCalls + 1, failover := controller }))
        (c.carried resp (c.abortFailed (c.reportError error
          { called with clockCalls := called.clockCalls + 1, failover := controller })).log) :=
      Carries.emit (Carries.emit hrea rfl) rfl
    exact hfa.pause _ rfl rfl rfl rfl rfl

theorem AttemptStep.traced {m : Handling} (h : Leased c resp st) (hs : AttemptStep c st m) :
    Traced c resp m := by
  cases hs with
  | faulted hbo =>
    exact traced_of_exit (by simp [Handler.faulted]) (by simp [Handler.faulted])
  | unconverted hbo => exact (h.failing (by rw [leaseError_eq, hbo])).traced rfl
  | unstored hbo ht =>
    exact traced_of_exit (by simp [Handler.threw]) (by simp [Handler.threw])
  | unresolved hbo hack ht =>
    exact traced_of_exit (by simp [Handler.threw]) (by simp [Handler.threw])
  | threw hbo hack ht hp hthrew =>
    exact traced_of_exit (by simp [Handler.threw]) (by simp [Handler.threw])
  | @unauthorized body ack hbo hack =>
    have hg : Leased c resp ((st.extend (forwardEvidence ack st)).extend
        [.aborted st.lease "forward_evidence_unavailable" .noCharge 0
          (c.abortAck "forward_evidence_unavailable" .noCharge 0
            (st.extend (forwardEvidence ack st)))]) := by
      refine (h.extend ?_).extend ?_ <;> simp [forwardEvidence, Action.isBeside, Action.isDispatch,
        Action.isForwarding, Action.mediaResult?]
    have he : leaseError c.world.rj c.req c.matched st.dispatchResult.upstream =
        (503, literalError "platform_unavailable"
          "Unable to persist Provider dispatch evidence") := by
      rw [leaseError_eq, hbo]
    exact (hg.failing he).traced rfl
  | @called body ack more hbo hack hp ho =>
    have hau : Leased c resp (authorized ack st) := by
      refine h.extend ?_
      simp [forwardEvidence, Action.isBeside, Action.isDispatch, Action.isForwarding,
        Action.mediaResult?]
    exact hau.afterForward hid fun a ha => (hp.quietly a ha).1

theorem Carries.round (h : Carries st (c.carried resp st.log)) : Traced c resp (c.round st) := by
  have hd := h.callDispatch
  have hs := round_step c st
  generalize c.round st = m at hs
  cases hs with
  | retried hr hcou => exact hd.pause _ rfl rfl rfl rfl rfl
  | waited hw hcou => exact hd.pause _ rfl rfl rfl rfl rfl
  | unavailable reads hr =>
    rw [isRetryablePlatformDispatch, Bool.and_eq_true, beq_iff_eq] at hr
    have hc : Carries { c.callDispatch st with
        dispatchTransportRetries := st.dispatchTransportRetries + 1
        clockCalls := st.clockCalls + reads } (c.carried resp (c.callDispatch st).log) :=
      hd.congr rfl rfl rfl rfl
    refine hc.refused (append_nil _).symm (by simp)
      (by simp [DispatchResult.granted, hr.1]) ?_
    simp [dispatchError, isRetryablePlatformDispatch, hr]
  | exhausted reads hw =>
    have hc : Carries { c.callDispatch st with
        dispatchWaits := st.dispatchWaits + 1
        clockCalls := st.clockCalls + reads } (c.carried resp (c.callDispatch st).log) :=
      hd.congr rfl rfl rfl rfl
    refine hc.refused (append_nil _).symm (by simp)
      (by simp [DispatchResult.granted, hw]) ?_
    simp [dispatchError, hw]
  | repeated hre hco => exact h.repeated hre hco
  | refused hre hf hco =>
    refine hd.refused (append_nil _).symm (by simp)
      (by simp [DispatchResult.granted, hre]) ?_
    simp [dispatchError, hre, hf]
  | attempted hg ha => exact ha.traced hid (h.leased hg)

theorem Carries.serve (fuel : Nat) (h : Carries st (c.carried resp st.log))
    (hr : st.exit = .running) : Explained c resp (c.serve fuel st) := by
  change Explained c resp (c.finish (c.rounds fuel st))
  induction fuel generalizing st with
  | zero =>
    intro he
    unfold Context.rounds at he
    rw [finish_of_exit (by simp [hr])] at he
    exact absurd he (not_isGatewayError_of_exit (by simp [hr]))
  | succ fuel ih =>
    have ht : Traced c resp (c.round st) := h.round hid
    unfold Context.rounds
    cases heq : c.round st with
    | error st' =>
      rw [heq] at ht
      cases ht with
      | left hex => exact hex
    | ok st' =>
      rw [heq] at ht
      cases ht with
      | again hc => exact ih hc ((round_ok_exit heq).trans hr)

end

section

variable {w : World} {req : HttpRequest} {resp : HttpResponse} {matched : MatchedCapability}
  {c : Context} {st : Handler}

theorem Entered.carries (h : Entered w req resp matched c st) :
    Carries st (c.carried resp st.log) := by
  have hn : lastCall ([] ++ st.log) = none := by
    rw [lastCall_append_of_none]
    · rfl
    · intro a ha
      have hk := h.opening a ha
      cases a with
      | forwarding lease target body => cases hk
      | _ => rfl
  have han : lastAnswer c.world c.req st.log = none := congrArg (Option.map _) hn
  unfold Context.carried
  rw [han, h.state]
  refine ⟨rfl, ?_, rfl, fun _ hs => (by cases hs), rfl, rfl⟩
  exact plainHeaders_started resp.headers c.requestId false

theorem handle_errorShown (w : World) (req : HttpRequest) (resp : HttpResponse)
    (matched : MatchedCapability) (fuel : Nat)
    (h : isGatewayError (handle w req resp matched fuel)) : ∃ result answers,
      finalAnswer (handle w req resp matched fuel).log = some (result, answers) ∧
      errorShown w.rj req matched result answers
          (carriedFrom resp (lastAnswer w req (handle w req resp matched fuel).log)) =
        .ok (handle w req resp matched fuel).resp.shown := by
  have hp := prepare_prepared w req resp matched
  unfold handle at h ⊢
  cases hpr : prepare w req resp matched with
  | error st =>
    rw [hpr] at hp h
    have hn : dispatches ([] ++ st.log) = [] := by
      rw [dispatches_append]
      · rfl
      · intro a ha
        have hk := hp.opening a ha
        cases a with
        | dispatched request result => cases hk
        | _ => rfl
    rw [nil_append] at hn
    simp [isGatewayError, hn] at h
  | ok entered =>
    obtain ⟨c, st⟩ := entered
    rw [hpr] at hp h
    have hid : c.requestId = c.world.requestId c.req := by
      rw [hp.requestId, hp.sameWorld, hp.sameRequest]
    have he := hp.carries.serve hid fuel (by rw [hp.state]) h
    unfold Context.carried at he
    rw [hp.sameWorld, hp.sameRequest, hp.sameCapability] at he; exact he

end

end Gateway.Server
