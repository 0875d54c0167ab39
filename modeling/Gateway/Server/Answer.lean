import Gateway.Server.LeaseAccount

/-! # What the dispatch loop leaves behind -/

namespace Gateway.Server

open Lib Dispatch Forwarder Context List

def lastForward (log : List Action) : Option ForwardResult :=
  (log.filterMap Action.forwardResult?).getLast?

theorem lastForward_snoc_forwarded (log : List Action) (lease : Bytes) (r : ForwardResult) :
    lastForward (log ++ [.forwarded lease r]) = some r := by
  simp [lastForward, Action.forwardResult?]

variable {log more : List Action}

theorem lastForward_append_of_none (h : ∀ a ∈ more, a.forwardResult? = none) :
    lastForward (log ++ more) = lastForward log := by
  simp [lastForward, filterMap_eq_nil_iff.2 h]

theorem lastForward_append (h : ∀ a ∈ more, a.isAside) :
    lastForward (log ++ more) = lastForward log := by
  apply lastForward_append_of_none
  intro a ha
  have has := h a ha
  cases a with
  | forwarded lease r => cases has
  | _ => rfl

structure Steady (st st' : Handler) : Prop where
  log : GrowsBy (·.isAside) st.log st'.log
  body : st'.resp.body = st.resp.body
  terminalAbort : st'.terminalAbort = st.terminalAbort
  responsePolicyOverridden : st'.responsePolicyOverridden = st.responsePolicyOverridden
  mediaResponseOverridden : st'.mediaResponseOverridden = st.mediaResponseOverridden
  deferMediaUsage : st'.deferMediaUsage = st.deferMediaUsage

namespace Steady

variable {st st₁ st₂ : Handler}

theorem refl (st : Handler) : Steady st st :=
  ⟨.refl _, rfl, rfl, rfl, rfl, rfl⟩

theorem trans (h₁ : Steady st st₁) (h₂ : Steady st₁ st₂) : Steady st st₂ :=
  ⟨h₁.log.trans h₂.log, h₂.body.trans h₁.body, h₂.terminalAbort.trans h₁.terminalAbort,
    h₂.responsePolicyOverridden.trans h₁.responsePolicyOverridden,
    h₂.mediaResponseOverridden.trans h₁.mediaResponseOverridden,
    h₂.deferMediaUsage.trans h₁.deferMediaUsage⟩

theorem emit (h : Steady st st₁) {a : Action} (ha : a.isAside) : Steady st (st₁.emit a) :=
  ⟨h.log.snoc ha, h.body, h.terminalAbort, h.responsePolicyOverridden, h.mediaResponseOverridden,
    h.deferMediaUsage⟩

theorem count (st : Handler) (waits retries clockCalls : Nat) : Steady st { st with
    dispatchWaits := waits, dispatchTransportRetries := retries, clockCalls := clockCalls } :=
  ⟨(refl st).log, rfl, rfl, rfl, rfl, rfl⟩

end Steady

variable {body : Bytes} {st' : Handler} {r : ForwardResult}

section

variable {c : Context} {st : Handler}

structure Unanswered (body : Bytes) (st : Handler) : Prop where
  failed : ∀ r, lastForward st.log = some r → isSuccess r.statusCode = false
  unsettled : ∀ a ∈ st.log, a.isAside ∨ a.forwardResult?.isSome
  body : st.resp.body = body
  going : st.terminalAbort = false
  cleared : st.responsePolicyOverridden = false
  unstored : st.mediaResponseOverridden = false
  undeferred : st.deferMediaUsage = false

def ForwardResult.kept (r : ForwardResult) : ForwardResult :=
  if r.malformedUsage then { r with statusCode := 502 } else r

structure Answered (body : Bytes) (st : Handler) : Prop where
  result : ∀ r, lastForward st.log = some r → isSuccess r.statusCode →
    st.forwardResult = ForwardResult.kept r ∧ st.terminalAbort = r.malformedUsage
  unsettled : ∀ a ∈ st.log, a.isAside ∨ a.forwardResult?.isSome
  body : st.resp.body = body
  cleared : st.responsePolicyOverridden = false
  unstored : st.mediaResponseOverridden = false
  undeferred : st.deferMediaUsage = false

inductive Leaves (body : Bytes) : Handling → Prop
  | again {st : Handler} (h : Unanswered body st) : Leaves body (.ok st)
  | broke {st : Handler} (hexit : st.exit = .broke) (h : Answered body st) :
      Leaves body (.error st)
  | left {st : Handler} (hexit : st.exit ≠ .broke)
      (hfailed : ∀ r, lastForward st.log = some r → isSuccess r.statusCode = false) :
      Leaves body (.error st)

theorem Unanswered.steady {st : Handler} (h : Unanswered body st) (hs : Steady st st') :
    Unanswered body st' := by
  obtain ⟨more, hl, hm⟩ := hs.log
  refine ⟨fun r hr => ?_, fun a ha => ?_, hs.body.trans h.body,
    hs.terminalAbort.trans h.going, hs.responsePolicyOverridden.trans h.cleared,
    hs.mediaResponseOverridden.trans h.unstored, hs.deferMediaUsage.trans h.undeferred⟩
  · rw [hl, lastForward_append hm] at hr; exact h.failed r hr
  · rw [hl] at ha
    rcases List.mem_append.1 ha with ha | ha
    · exact h.unsettled a ha
    · exact .inl (hm a ha)

theorem Unanswered.answered {st : Handler} (h : Unanswered body st) (hl : st'.log = st.log)
    (hbo : st'.resp.body = st.resp.body)
    (hc : st'.responsePolicyOverridden = st.responsePolicyOverridden)
    (hu : st'.mediaResponseOverridden = st.mediaResponseOverridden)
    (hun : st'.deferMediaUsage = st.deferMediaUsage) : Answered body st' := by
  refine ⟨fun r hr hs => ?_, hl ▸ h.unsettled, hbo.trans h.body,
    hc.trans h.cleared, hu.trans h.unstored, hun.trans h.undeferred⟩
  rw [hl] at hr
  rw [h.failed r hr] at hs
  cases hs

theorem Unanswered.left {st : Handler} (h : Unanswered body st) (he : st'.exit ≠ .broke)
    (hl : st'.log = st.log) : Leaves body (.error st') :=
  .left he (hl ▸ h.failed)

structure Returned (body : Bytes) (r : ForwardResult) (st : Handler) : Prop where
  last : lastForward st.log = some r
  result : st.forwardResult = r
  unsettled : ∀ a ∈ st.log, a.isAside ∨ a.forwardResult?.isSome
  body : st.resp.body = body
  going : st.terminalAbort = false
  cleared : st.responsePolicyOverridden = false
  unstored : st.mediaResponseOverridden = false
  undeferred : st.deferMediaUsage = false

theorem Unanswered.returned {st : Handler} (h : Unanswered body st) (lease : Bytes)
    (r : ForwardResult) :
    Returned body r { st.emit (.forwarded lease r) with forwardResult := r } := by
  refine ⟨lastForward_snoc_forwarded _ _ _, rfl, fun a ha => ?_, h.body, h.going, h.cleared,
    h.unstored, h.undeferred⟩
  rcases List.mem_append.1 ha with ha | ha
  · exact h.unsettled a ha
  · rw [mem_singleton.1 ha]; exact .inr rfl

theorem Returned.unanswered (h : Returned body r st) (hf : isSuccess r.statusCode = false) :
    Unanswered body st := by
  refine ⟨fun r' hr' => ?_, h.unsettled, h.body, h.going, h.cleared, h.unstored, h.undeferred⟩
  rw [h.last] at hr'
  cases hr'
  exact hf

theorem abortFailed_steady (st : Handler) : Steady st (c.abortFailed st) :=
  (Steady.refl st).emit rfl

theorem nextAttempt_steady (st : Handler) : Steady st (c.nextAttempt st) :=
  have hr : ∀ (sequence : Nat) (request : DispatchRequest), Steady st
      { st with dispatchRetrySequence := sequence, dispatchReq := request } :=
    fun _ _ => ⟨(Steady.refl st).log, rfl, rfl, rfl, rfl, rfl⟩
  (hr _ _).emit rfl

theorem Unanswered.gaveUp (h : Unanswered body st) (hs : Steady st st') :
    Leaves body (.error { st' with terminalAbort := true }.broke) :=
  .broke rfl ((h.steady hs).answered rfl rfl rfl rfl rfl)

theorem tryAgain_leaves (h : Unanswered body st) : Leaves body (c.tryAgain st) := by
  unfold tryAgain
  dsimp only
  set st₁ : Handler := { st with
    failover := (st.failover.handleError st.dispatchResult.upstream.accountId
      st.forwardResult.statusCode).2 }
  have h₁ : Steady st st₁ := ⟨(Steady.refl st).log, rfl, rfl, rfl, rfl, rfl⟩
  have hr : ∀ error, Steady st (c.reportError error st₁) := fun error => h₁.emit rfl
  have ha : ∀ error, Steady st (c.abortFailed (c.reportError error st₁)) := fun error =>
    (hr error).trans (abortFailed_steady _)
  split
  · exact h.gaveUp (ha _)
  · exact .again (h.steady ((ha _).trans (nextAttempt_steady _)))

theorem failOver_leaves (h : Unanswered body st) : Leaves body (c.failOver st) := by
  unfold failOver readClock
  dsimp only
  set st₁ : Handler := { st with clockCalls := st.clockCalls + 1 }
  have h₁ : Steady st st₁ := ⟨(Steady.refl st).log, rfl, rfl, rfl, rfl, rfl⟩
  split
  · exact tryAgain_leaves (h.steady h₁)
  · exact h.gaveUp (h₁.trans (abortFailed_steady _))

theorem Returned.mem_append (h : Returned body r st) (hm : ∀ a ∈ more, a.isAside) :
    ∀ a ∈ st.log ++ more, a.isAside ∨ a.forwardResult?.isSome := fun a ha =>
  (List.mem_append.1 ha).elim (h.unsettled a) fun ha => .inl (hm a ha)

theorem abortMalformed_answered (h : Returned body r st) (hm : r.malformedUsage) :
    Answered body (c.abortMalformed st).broke ∧
      (c.abortMalformed st).forwardResult.malformedUsage := by
  have hf : st.forwardResult.malformedUsage := h.result ▸ hm
  unfold abortMalformed
  rw [if_pos hf]
  refine ⟨⟨fun r' hr' _ => ?_, ?_, h.body, h.cleared, h.unstored, h.undeferred⟩, hf⟩
  · simp only [Handler.broke, abortUnknown, abort, reportError,
      Handler.emit, append_assoc] at hr'
    rw [lastForward_append (by simp [Action.isAside]), h.last] at hr'
    cases hr'
    refine ⟨?_, hm.symm⟩
    rw [ForwardResult.kept, if_pos hm, ← h.result]; rfl
  · simp only [Handler.broke, abortUnknown, abort, reportError,
      Handler.emit, append_assoc]
    exact h.mem_append (by simp [Action.isAside])

theorem afterForward_leaves (h : Returned body r st)
    (hu : r.clientDisconnect = false ∧ r.streamIncomplete = false) :
    Leaves body (c.afterForward st) := by
  have hq : c.abortAmbiguous st = st := by
    unfold abortAmbiguous isAmbiguous
    rw [h.result, hu.1, hu.2]; rfl
  unfold afterForward
  rw [hq]
  dsimp only
  by_cases hm : r.malformedUsage
  · obtain ⟨ha, hfl⟩ := abortMalformed_answered (c := c) h hm
    rw [if_neg (by simp [hfl])]; exact .broke rfl ha
  · have hab : c.abortMalformed st = st := by
      unfold abortMalformed
      rw [if_neg (by rw [h.result]; exact hm)]
    rw [hab]
    split
    · next hf =>
      simp only [Bool.and_eq_true, decide_eq_true_eq] at hf
      refine failOver_leaves (h.unanswered ?_)
      have hs : 400 ≤ r.statusCode := h.result ▸ hf.1.1
      simp [isSuccess, hs]
    · refine .broke rfl ⟨fun r' hr' _ => ?_, h.unsettled, h.body, h.cleared, h.unstored,
        h.undeferred⟩
      have hr : lastForward st.log = some r' := hr'
      rw [h.last] at hr
      cases hr
      refine ⟨?_, h.going.trans (Bool.eq_false_iff.2 hm).symm⟩
      rw [ForwardResult.kept, if_neg hm, ← h.result]; rfl

theorem isAside_of_isPiping {a : Action} (h : a.isPiping) : a.isAside := by
  cases a <;> first | rfl | cases h

theorem calling_steady (body : Bytes) (hp : Piping st.lease more) :
    Steady st ((c.calling body st).extend more) := by
  obtain ⟨resp, heq, hbo⟩ : ∃ resp : HttpResponse, c.calling body st =
      { st.emit (.forwarding st.lease st.dispatchResult.upstream body) with resp := resp } ∧
        resp.body = st.resp.body := by
    unfold calling
    cases (c.outcome body st).responseStart <;> exact ⟨_, rfl, rfl⟩
  rw [heq]
  refine ⟨⟨_, append_assoc _ _ _, ?_⟩, hbo, rfl, rfl, rfl, rfl⟩
  intro a ha
  rcases mem_cons.1 ha with rfl | ha
  · rfl
  · exact isAside_of_isPiping (hp a ha).1

theorem AttemptStep.leaves {m : Handling} (hs : AttemptStep c st m) (hst : c.isStream = false)
    (h : Unanswered body st) : Leaves body m := by
  have hr : ∀ ack, Steady st (st.extend (forwardEvidence ack st)) := fun ack =>
    ⟨⟨_, rfl, by simp [forwardEvidence, Action.isAside]⟩, rfl, rfl, rfl, rfl, rfl⟩
  have hau : ∀ ack, Unanswered body (authorized ack st) := fun ack =>
    h.steady ⟨⟨_, rfl, by simp [forwardEvidence, Action.isAside]⟩, rfl, rfl, rfl, rfl, rfl⟩
  cases hs with
  | faulted hbo => exact h.left (by simp [Handler.faulted]) rfl
  | unconverted hbo => exact .broke rfl (h.answered rfl rfl rfl rfl rfl)
  | unstored hbo ht => exact h.left (by simp [Handler.threw]) rfl
  | @unresolved upstreamBody ack hbo ha ht =>
    exact (h.steady (hr ack)).left (by simp [Handler.threw]) rfl
  | @unauthorized upstreamBody ack hbo ha =>
    have hab : Steady st (c.abort "forward_evidence_unavailable" .noCharge 0
        (st.extend (forwardEvidence ack st))) := (hr ack).emit rfl
    exact .broke rfl ((h.steady hab).answered rfl rfl rfl rfl rfl)
  | @threw upstreamBody ack more hbo ha ht hp hthrew =>
    exact ((hau ack).steady (calling_steady upstreamBody hp)).left
      (by simp [Handler.threw]) rfl
  | @called upstreamBody ack more hbo ha hp ho =>
    have hc := (hau ack).steady (calling_steady (c := c) upstreamBody hp)
    exact afterForward_leaves (hc.returned _ _) (unbroken_of_not_stream hst)

theorem repeated_leaves (h : Unanswered body st) : Leaves body (.error (c.repeated st)) := by
  obtain ⟨resp, more, heq, ho⟩ := repeated_eq c st
  have hl : lastForward (st.log ++ more) = lastForward st.log := by
    apply lastForward_append_of_none
    intro a ha
    have hk := ho a ha
    cases a with
    | forwarded lease r => cases hk
    | _ => rfl
  rw [heq]
  exact .left (by simp [Handler.returned]) fun r hr => h.failed r (hl.symm.trans hr)

theorem leased_steady (st : Handler) : Steady (c.callDispatch st) (c.leased st) := by
  unfold leased updateAuthCache
  dsimp only
  have hs : ∀ {log : List Action}, (∃ more, log = (c.callDispatch st).log ++ more ∧
      ∀ a ∈ more, a.isAside) → Steady (c.callDispatch st) { c.callDispatch st with
        log := log, lastUpstreamFormat := upstreamFormat (c.callDispatch st).dispatchResult.upstream
          } :=
    fun hl => ⟨hl, rfl, rfl, rfl, rfl, rfl⟩
  split_ifs
  · exact hs ⟨_, rfl, by simp [Action.isAside]⟩
  · exact hs ⟨_, rfl, by simp [Action.isAside]⟩
  · exact hs (Steady.refl _).log

theorem round_leaves (hst : c.isStream = false) (h : Unanswered body st) :
    Leaves body (c.round st) := by
  have hd : Unanswered body (c.callDispatch st) :=
    h.steady ⟨⟨_, rfl, by simp [Action.isAside]⟩, rfl, rfl, rfl, rfl, rfl⟩
  have hs := round_step c st
  generalize c.round st = m at hs
  cases hs with
  | retried hr hc => exact .again (hd.steady ((Steady.count _ _ _ _).emit rfl))
  | unavailable reads hr =>
    exact hd.left (by simp [platformUnavailable, Handler.answered, Handler.returned]) rfl
  | waited hw hc => exact .again (hd.steady ((Steady.count _ _ _ _).emit rfl))
  | exhausted reads hw =>
    exact hd.left (by simp [noAccount, Handler.answered, Handler.returned]) rfl
  | repeated hre hco => exact repeated_leaves hd
  | refused hre hf hco =>
    exact hd.left (by simp [refuse, Handler.answered, Handler.returned]) rfl
  | attempted hg ha => exact ha.leaves hst (hd.steady (leased_steady st))

theorem rounds_answered (hst : c.isStream = false) (fuel : Nat) (h : Unanswered body st)
    (hl : lastForward (c.rounds fuel st).log = some r) (hs : isSuccess r.statusCode) :
    (c.rounds fuel st).exit = .broke ∧ Answered body (c.rounds fuel st) := by
  induction fuel generalizing st with
  | zero => rw [h.failed r hl] at hs; cases hs
  | succ fuel ih =>
    have hr := round_leaves hst h
    unfold rounds at hl ⊢
    cases heq : c.round st with
    | ok st₁ =>
      rw [heq] at hr hl
      cases hr with
      | again h₁ => exact ih h₁ hl
    | error st₁ =>
      rw [heq] at hr hl
      cases hr with
      | broke he h₁ => exact ⟨he, h₁⟩
      | left he hf => rw [hf r hl] at hs; cases hs

end

end Gateway.Server
