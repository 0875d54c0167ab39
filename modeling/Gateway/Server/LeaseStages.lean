import Gateway.Server.Lease

/-! # What the stages of the handler do to a lease -/

namespace Gateway.Server

open Lib Dispatch Forwarder List

variable {a : Action} {st : Handler}

section

variable {c : Context}

def Handler.extend (st : Handler) (more : List Action) : Handler :=
  { st with log := st.log ++ more }

@[simp] theorem Handler.extend_log (st : Handler) (more : List Action) :
    (st.extend more).log = st.log ++ more := rfl

theorem Handler.emit_eq (st : Handler) (a : Action) : st.emit a = st.extend [a] := rfl

theorem Handler.extend_extend (st : Handler) (as bs : List Action) :
    (st.extend as).extend bs = st.extend (as ++ bs) := by
  simp only [Handler.extend, append_assoc]

theorem quietly_nil (lease : Bytes) : Quietly lease [] := fun _ h => (by cases h)

theorem Quietly.append {lease : Bytes} {as bs : List Action} (ha : Quietly lease as)
    (hb : Quietly lease bs) : Quietly lease (as ++ bs) := fun a h =>
  (mem_append.1 h).elim (ha a) (hb a)

theorem quietly_singleton {lease : Bytes} (ha : a.isQuiet)
    (hl : ∀ token, a.lease? = some token → token = lease) : Quietly lease [a] := by
  intro b hb
  rw [mem_singleton.1 hb]
  exact ⟨ha, hl⟩

theorem store_of_throws (h : c.world.outboxThrows st.log) (a : Action) :
    c.store a st = .error st.threw := if_pos h

theorem store_of_not_throws (h : ¬ c.world.outboxThrows st.log) (a : Action) :
    c.store a st = .ok (st.emit a) := if_neg h

theorem Handler.extend_nil (st : Handler) : st.extend [] = st := by
  simp only [Handler.extend, append_nil]

theorem clientBytes_cons (a : PipeAction) (actions : List PipeAction) :
    clientBytes (a :: actions) = clientBytes [a] ++ clientBytes actions := by
  simp only [clientBytes, flatMap_cons, flatMap_nil, append_nil]

theorem output_cons_piped (a : PipeAction) (more : List Action) :
    output (.piped a :: more) = clientBytes [a] ++ output more := rfl

end

def convertible (w : World) (req : HttpRequest) (matched : MatchedCapability)
    (target : UpstreamTarget) : Bool :=
  req.body.isEmpty || !matched.spec.capability.isChat ||
    match Protocol.Converter.convertRequest w.rj req.body matched.spec.inboundFormat
      (upstreamFormat target) target.mappedModel with
    | .ok conversion => conversion.success
    | .error _ => false

def Action.defers (grant : DispatchResult) : Action → Bool
  | .mediaOperation request result =>
    result.accepted && request.operationId = grant.upstream.mediaOperationId
      && request.status = "running"
  | _ => false

structure Pending (c : Context) (n : Nat) (log : List Action) (grant : DispatchResult)
    (terminal incomplete deferred : Bool) (actions : List Action) : Prop where
  holding : Holding c n log grant actions
  unbilled : (summary actions).billed = false
  aborted : terminal → 0 < (summary actions).aborts ∨
    convertible c.world c.req c.matched grant.upstream = false
  released : (summary actions).released → terminal ∧ incomplete = false
  deferral : deferred → ∃ a ∈ actions, a.defers grant

section

variable {c : Context} {n : Nat} {log : List Action} {grant : DispatchResult}
  {terminal incomplete deferred : Bool} {actions : List Action}

theorem Holding.pending (h : Holding c n log grant actions) (hu : (summary actions).billed = false)
    (hun : (summary actions).released = false) (hg : terminal = false) (hund : deferred = false) :
    Pending c n log grant terminal incomplete deferred actions where
  holding := h
  unbilled := hu
  aborted := by rw [hg]; exact fun hf => (by cases hf)
  released := by rw [hun]; exact fun hf => (by cases hf)
  deferral := by rw [hund]; exact fun hf => (by cases hf)

variable (h : Pending c n log grant terminal incomplete deferred actions)

include h

theorem Pending.append {more : List Action} (hm : Quietly grant.leaseToken more) :
    Pending c n (log ++ more) grant terminal incomplete deferred (actions ++ more) := by
  have hs : summary (actions ++ more) = summary actions :=
    summary_append_of_quiet actions fun a ha => (hm a ha).1
  refine ⟨h.holding.append hm, hs ▸ h.unbilled, hs ▸ h.aborted,
    hs ▸ h.released, fun hd => ?_⟩
  obtain ⟨a, ha, hde⟩ := h.deferral hd
  exact ⟨a, mem_append_left _ ha, hde⟩

theorem Pending.emitQuiet (ha : a.isQuiet)
    (ho : ∀ lease, a.lease? = some lease → lease = grant.leaseToken) :
    Pending c n (log ++ [a]) grant terminal incomplete deferred (actions ++ [a]) :=
  h.append (quietly_singleton ha ho)

theorem Pending.defer (ha : a.isQuiet) (ho : ∀ lease, a.lease? = some lease → lease =
    grant.leaseToken) {deferred' : Bool} (hd : deferred' → a.defers grant) :
    Pending c n (log ++ [a]) grant terminal incomplete deferred' (actions ++ [a]) :=
  have he := h.emitQuiet ha ho
  { holding := he.holding
    unbilled := he.unbilled
    aborted := he.aborted
    released := he.released
    deferral := fun hde => ⟨a, mem_append_right _ (mem_singleton.2 rfl), hd hde⟩ }

theorem Pending.reportError (error : ErrorReportData) (ack : RpcAck) :
    Pending c n (log ++ [.reportedError error ack]) grant terminal incomplete deferred
      (actions ++ [.reportedError error ack]) :=
  h.emitQuiet rfl fun _ hl => (by cases hl)

theorem Pending.abort (reason : Bytes) (disposition : LeaseAbortDisposition) (providerStatus : Int)
    (ack : RpcAck) {terminal' : Bool} (ht : terminal → terminal')
    (he : disposition = .noCharge → ChargeExcluded c.matched.spec.capability actions)
    (hf : disposition = .noCharge → ack.acknowledged → terminal' ∧ incomplete = false) :
    Pending c n (log ++ [.aborted grant.leaseToken reason disposition providerStatus ack]) grant
      terminal' incomplete deferred
      (actions ++ [.aborted grant.leaseToken reason disposition providerStatus ack]) := by
  set a : Action := .aborted grant.leaseToken reason disposition providerStatus ack with ha
  have hs : summary (actions ++ [a]) = (summary actions).note a := summary_snoc _ _
  have hu : (summary (actions ++ [a])).billed = false := by rw [hs]; exact h.unbilled
  refine ⟨h.holding.emit rfl (fun lease hl => (Option.some.inj hl).symm) trivial ?_
    fun _ => hu, hu, fun _ => .inl ?_, fun hr => ?_, fun hd => ?_⟩
  · cases disposition with
    | noCharge => exact he rfl
    | unknown | safe => trivial
  · rw [hs]; exact Nat.succ_pos _
  · rw [hs] at hr
    rcases Bool.or_eq_true_iff.1 hr with hold | hn
    · exact ⟨ht (h.released hold).1, (h.released hold).2⟩
    · obtain ⟨hdi, hack⟩ := Bool.and_eq_true_iff.1 hn; exact hf (beq_iff_eq.1 hdi) hack
  · obtain ⟨b, hb, hde⟩ := h.deferral hd; exact ⟨b, mem_append_left _ hb, hde⟩

theorem Pending.abortUnknown (reason : Bytes) (providerStatus : Int) (ack : RpcAck) :
    Pending c n (log ++ [.aborted grant.leaseToken reason .unknown providerStatus ack]) grant
      true incomplete deferred
      (actions ++ [.aborted grant.leaseToken reason .unknown providerStatus ack]) :=
  h.abort reason .unknown providerStatus ack (fun _ => rfl) (fun hd => (by cases hd))
    (fun hd => (by cases hd))

end

end Gateway.Server
