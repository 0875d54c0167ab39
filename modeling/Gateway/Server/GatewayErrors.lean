import Gateway.Server.MediaAccount

/-! # Errors of the gateway's own -/

namespace Gateway.Server

open Lib Dispatch Forwarder Protocol List
open Protocol (Format)

def isRequestId (header : Bytes × Bytes) : Bool := lower header.1 = "x-request-id"

def plainHeaders (headers : List (Bytes × Bytes)) : List (Bytes × Bytes) :=
  headers.filter (!isRequestId ·)

structure Shown where
  statusCode : Int
  contentType : Bytes
  headers : List (Bytes × Bytes)
  body : Bytes
  deriving DecidableEq

def HttpResponse.shown (resp : HttpResponse) : Shown where
  statusCode := resp.statusCode
  contentType := resp.contentType
  headers := plainHeaders resp.headers
  body := resp.body

def Action.dispatchResult? : Action → Option DispatchResult
  | .dispatched _ result => some result
  | _ => none

def Action.mediaResult? : Action → Option MediaOperationResult
  | .mediaOperation _ result => some result
  | _ => none

abbrev Round := Segment DispatchResult Action

def dispatches (log : List Action) : List Round := segments Action.dispatchResult? log

def Round.answers (round : Round) : List MediaOperationResult :=
  round.body.filterMap Action.mediaResult?

def finalAnswer (log : List Action) : Option (DispatchResult × List MediaOperationResult) :=
  (dispatches log).head?.map fun round => (round.opening, round.answers)

def Round.replays (round : Round) : Bool :=
  round.opening.outcome = .rejected && round.opening.rejectCode = 10 &&
    (round.answers.any (·.accepted) ||
      (round.opening.replayStatusCode > 0 && !round.opening.replayBody.isEmpty))

def isGatewayError (st : Handler) : Bool :=
  st.exit = .returned &&
    match dispatches st.log with
    | [] => false
    | round :: _ => !round.body.any Action.isForwarding && !round.replays

structure Call where
  before : List Action
  target : UpstreamTarget
  body : Bytes

def findCall : List Action → Option Call
  | [] => none
  | .forwarding _ target body :: earlier => some ⟨earlier.reverse, target, body⟩
  | _ :: earlier => findCall earlier

def lastCall (log : List Action) : Option Call := findCall log.reverse

def sentCall (w : World) (req : HttpRequest) (target : UpstreamTarget) (body : Bytes) :
    ProviderCall :=
  providerCall target
    { method := req.method
      body
      contentType := req.contentType
      accept := req.accept
      userAgent := req.userAgent
      requestId := w.requestId req
      idempotencyKey := req.idempotencyKey
      headers := req.headers }

def lastAnswer (w : World) (req : HttpRequest) (log : List Action) :
    Option (UpstreamTarget × Except Int ProviderResponse) :=
  (lastCall log).map fun call =>
    (call.target, (w.transport call.before (sentCall w req call.target call.body)).call)

def startedType (contentType : Bytes) : Bytes :=
  if contentType.isEmpty then "application/octet-stream" else contentType

structure Carried where
  contentType : Bytes
  headers : List (Bytes × Bytes)
  rejection : Option Int

def carriedFrom (resp : HttpResponse) :
    Option (UpstreamTarget × Except Int ProviderResponse) → Carried
  | some (target, .ok response) =>
    { contentType := startedType response.contentType
      headers := plainHeaders (response.start target).headers
      rejection := some response.statusCode }
  | _ =>
    { contentType := resp.contentType
      headers := plainHeaders resp.headers
      rejection := none }

variable (rj : RapidJson) (req : HttpRequest) (matched : MatchedCapability)

def dispatchError (result : DispatchResult) : Int × Bytes :=
  if result.outcome = .wait then
    (503, literalError "provider_unavailable"
      "No upstream Provider account became available before the deadline")
  else if isRetryablePlatformDispatch result then
    (503, errorJson rj "provider_unavailable"
      "Platform dispatch was unavailable before the retry deadline")
  else (Context.rejectStatus result.rejectCode,
    errorJson rj (Context.rejectType result.rejectCode) result.rejectMessage)

def leaseError (target : UpstreamTarget) : Int × Bytes :=
  let unavailable : Int × Bytes :=
    (503, literalError "platform_unavailable" "Unable to persist Provider dispatch evidence")
  if req.body.isEmpty || !matched.spec.capability.isChat then unavailable
  else
    match Converter.convertRequest rj req.body matched.spec.inboundFormat
      (upstreamFormat target) target.mappedModel with
    | .ok conversion =>
      if conversion.success then unavailable
      else (400, literalError "invalid_request_error" conversion.error)
    | .error _ => unavailable

def presented (inbound source : Format) (statusCode : Int) (contentType body : Bytes) :
    Access (Bytes × Bytes) :=
  if inbound ≠ source then do
    return (ascii "application/json",
      ← Converter.convertError rj body statusCode source inbound)
  else return (contentType, body)

def Carried.source (k : Carried) (format : Format) : Format :=
  if k.rejection.isSome then format else .openAIChatCompletions

def operationShown (capability : Capability) (contentType : Bytes) (headers : List (Bytes × Bytes))
    (operation : MediaOperationResult) : Shown :=
  if operation.accepted then
    { statusCode := 200
      contentType
      headers := headers ++ [(ascii "Cache-Control", ascii "no-store"),
        (ascii "Location", Context.taskPath capability ++ operation.operationId)]
      body := mediaViewJson rj operation }
  else
    { statusCode := if operation.statusCode > 0 then operation.statusCode else 503
      contentType
      headers
      body := literalError "media_operation_error" "Unable to persist media operation state" }

def errorShown (result : DispatchResult) (answers : List MediaOperationResult) (k : Carried) :
    Access Shown :=
  if result.granted then do
    let error := leaseError rj req matched result.upstream
    let (contentType, body) ← presented rj matched.spec.inboundFormat
      (k.source (upstreamFormat result.upstream)) (k.rejection.getD error.1) k.contentType error.2
    return if persists matched result then
        operationShown rj matched.spec.capability contentType k.headers (answers.headD {})
      else { statusCode := error.1, contentType, headers := k.headers, body }
  else
    let error := dispatchError rj result
    return { statusCode := error.1, contentType := k.contentType, headers := k.headers
             body := error.2 }

section

variable {log more : List Action}

theorem lastCall_snoc_forwarding (log : List Action) (lease : Bytes) (target : UpstreamTarget)
    (body : Bytes) : lastCall (log ++ [.forwarding lease target body]) =
      some ⟨log, target, body⟩ := by
  unfold lastCall
  rw [reverse_append]
  simp [findCall]

theorem lastCall_append_of_none (log : List Action) (h : ∀ a ∈ more, a.isForwarding = false) :
    lastCall (log ++ more) = lastCall log := by
  induction more generalizing log with
  | nil => rw [append_nil]
  | cons a more ih =>
    have hs : lastCall (log ++ [a]) = lastCall log := by
      have ha := h a mem_cons_self
      unfold lastCall
      rw [reverse_append, reverse_singleton, singleton_append]
      cases a with
      | forwarding lease target body => cases ha
      | _ => rfl
    rw [append_cons, ih _ fun b hb => h b (mem_cons_of_mem a hb), hs]

theorem lastAnswer_append_of_none (w : World) (req : HttpRequest) (log : List Action)
    (h : ∀ a ∈ more, a.isForwarding = false) :
    lastAnswer w req (log ++ more) = lastAnswer w req log := by
  unfold lastAnswer
  rw [lastCall_append_of_none log h]

theorem dispatches_snoc (log : List Action) (request : DispatchRequest) (result : DispatchResult) :
    dispatches (log ++ [.dispatched request result]) = ⟨result, []⟩ :: dispatches log :=
  segments_open rfl

theorem dispatches_append (log : List Action) (h : ∀ a ∈ more, a.isDispatch = false) :
    dispatches (log ++ more) = addAll more (dispatches log) := by
  refine segments_append fun a ha => ?_
  have hn := h a ha
  cases a with
  | dispatched request result => cases hn
  | _ => rfl

end

structure Carries (st : Handler) (k : Carried) : Prop where
  contentType : st.resp.contentType = k.contentType
  headers : plainHeaders st.resp.headers = k.headers
  rejected : isExplicitProviderRejection st.forwardResult = k.rejection.isSome
  status : ∀ status, k.rejection = some status → st.forwardResult.providerStatusCode = status
  formed : st.forwardResult.malformedUsage = false
  plain : (st.mediaResponseOverridden || st.responsePolicyOverridden) = false

abbrev Context.carried (c : Context) (resp : HttpResponse) (log : List Action) : Carried :=
  carriedFrom resp (lastAnswer c.world c.req log)

def Explained (c : Context) (resp : HttpResponse) (st : Handler) : Prop :=
  isGatewayError st → ∃ result answers, finalAnswer st.log = some (result, answers) ∧
    errorShown c.world.rj c.req c.matched result answers (c.carried resp st.log) =
      .ok st.resp.shown

variable {earlier : List Round}

section

variable {c : Context} {resp : HttpResponse} {st st' : Handler} {k : Carried}

theorem Carries.congr (h : Carries st k) (hre : st'.resp = st.resp)
    (hres : st'.forwardResult = st.forwardResult)
    (hm : st'.mediaResponseOverridden = st.mediaResponseOverridden)
    (hpo : st'.responsePolicyOverridden = st.responsePolicyOverridden) : Carries st' k := by
  obtain ⟨ht, hh, hr, hs, hf, hp⟩ := h
  rw [← hre] at ht hh
  rw [← hres] at hr hs hf
  rw [← hm, ← hpo] at hp
  exact ⟨ht, hh, hr, hs, hf, hp⟩

theorem finalAnswer_of_dispatches {log : List Action} {round : Round}
    (h : dispatches log = round :: earlier) :
    finalAnswer log = some (round.opening, round.answers) := by
  rw [finalAnswer, h]
  rfl

theorem not_isGatewayError_of_exit (h : st.exit ≠ .returned) : ¬ isGatewayError st := by
  simp [isGatewayError, h]

theorem Carries.answered (h : Carries st (c.carried resp st.log)) {round : Round}
    (hr : dispatches st.log = round :: earlier) (hre : round.opening.granted = false)
    {statusCode : Int} {body : Bytes}
    (he : dispatchError c.world.rj round.opening = (statusCode, body)) :
    Explained c resp (st.answered statusCode body) := by
  intro _
  refine ⟨_, _, finalAnswer_of_dispatches hr, ?_⟩
  unfold errorShown
  rw [if_neg (by simp [hre]), he]
  change _ = Except.ok (Shown.mk statusCode st.resp.contentType (plainHeaders st.resp.headers) body)
  rw [h.contentType, h.headers]
  rfl

end

structure Failing (c : Context) (resp : HttpResponse) (st : Handler) : Prop where
  carries : Carries st (c.carried resp st.log)
  error : leaseError c.world.rj c.req c.matched st.dispatchResult.upstream =
    (st.forwardResult.statusCode, st.forwardResult.body)
  terminal : st.terminalAbort = true
  format : st.lastUpstreamFormat = upstreamFormat st.dispatchResult.upstream
  granted : st.dispatchResult.granted
  round : ∃ body earlier, dispatches st.log = ⟨st.dispatchResult, body⟩ :: earlier ∧
    body.filterMap Action.mediaResult? = []

theorem leaseError_cases (rj : RapidJson) (req : HttpRequest) (matched : MatchedCapability)
    (target : UpstreamTarget) :
    400 ≤ (leaseError rj req matched target).1 ∧ (leaseError rj req matched target).2 ≠ [] := by
  have hl : ∀ type message, literalError type message ≠ [] := by
    intro type message hn
    simp only [literalError, append_eq_nil_iff] at hn
    exact absurd hn.1.1.1.1 (by decide)
  unfold leaseError
  dsimp only
  split
  · exact ⟨by decide, hl _ _⟩
  · split
    · split
      · exact ⟨by decide, hl _ _⟩
      · exact ⟨le_rfl, hl _ _⟩
    · exact ⟨by decide, hl _ _⟩

section

variable {c : Context} {resp : HttpResponse} {st : Handler}

theorem checkBody_of_not_success (applies : Bool) (validation : Converter.ValidationResult)
    (reason : Bytes) (h : Context.isSuccess st.forwardResult.statusCode = false) :
    c.checkBody applies validation reason st = st := by
  unfold Context.checkBody
  rw [h, Bool.false_and]
  rfl

theorem checks_of_not_success (h : Context.isSuccess st.forwardResult.statusCode = false) :
    c.checkResponses (c.checkCatalogue (c.checkEmbeddings st)) = st := by
  have he : c.checkEmbeddings st = st := checkBody_of_not_success _ _ _ h
  have hc : c.checkCatalogue st = st := checkBody_of_not_success _ _ _ h
  have hr : c.checkResponses st = st := checkBody_of_not_success _ _ _ h
  rw [he, hc, hr]

theorem takeBody_of_error (hs : 400 ≤ st.forwardResult.statusCode)
    (hbo : st.forwardResult.body ≠ []) : c.takeBody st = c.convertErrorBody
      { st with resp.body := st.forwardResult.body, forwardResult.body := [] } := by
  unfold Context.takeBody
  rw [if_pos (by simp [hs, hbo])]
  set taken : Handler :=
    { st with resp.body := st.forwardResult.body, forwardResult.body := [] }
  cases hf : c.convertErrorBody taken with
  | error st₁ => rfl
  | ok st₁ =>
    obtain ⟨body, contentType, rfl⟩ := convertErrorBody_ok hf
    have hsu : Context.isSuccess st.forwardResult.statusCode = false := by
      simp [Context.isSuccess, hs]
    rw [ok_bind, Context.convertSuccessBody, if_neg (by simp [taken, hs]), ok_bind]
    exact congrArg Except.ok (checks_of_not_success hsu)

theorem Failing.takeBody (h : Failing c resp st) : (∃ st', c.takeBody st = .error st') ∨
    ∃ contentType body, presented c.world.rj c.matched.spec.inboundFormat
        ((c.carried resp st.log).source (upstreamFormat st.dispatchResult.upstream))
        ((c.carried resp st.log).rejection.getD st.forwardResult.statusCode)
        (c.carried resp st.log).contentType st.forwardResult.body = .ok (contentType, body) ∧
      c.takeBody st = .ok { st with
        resp.contentType := contentType, resp.body := body, forwardResult.body := [] } := by
  obtain ⟨hs, hbo⟩ := leaseError_cases c.world.rj c.req c.matched st.dispatchResult.upstream
  rw [h.error] at hs hbo
  rw [takeBody_of_error hs hbo]
  set k := c.carried resp st.log
  set taken : Handler :=
    { st with resp.body := st.forwardResult.body, forwardResult.body := [] }
  have hr : isExplicitProviderRejection taken.forwardResult = k.rejection.isSome :=
    h.carries.rejected
  have hso : Context.errorSource taken = k.source (upstreamFormat st.dispatchResult.upstream) := by
    unfold Context.errorSource Carried.source
    rw [hr, ← h.format]
  have hc : (if isExplicitProviderRejection taken.forwardResult then
      taken.forwardResult.providerStatusCode else taken.forwardResult.statusCode) =
      k.rejection.getD st.forwardResult.statusCode := by
    rw [hr]
    cases hre : k.rejection with
    | none => rfl
    | some status => exact h.carries.status status hre
  have hf : taken.forwardResult.statusCode ≥ 400 := hs
  unfold Context.convertErrorBody presented
  dsimp only
  rw [hc, hso]
  set source := k.source (upstreamFormat st.dispatchResult.upstream)
  by_cases hn : c.matched.spec.inboundFormat = source
  · rw [if_neg (by simp [hn]), if_neg (by simp [hn])]
    refine .inr ⟨_, _, rfl, ?_⟩
    rw [← h.carries.contentType]
  · rw [if_pos (by simp [hn, hf]), if_pos hn]
    rw [show taken.resp.body = st.forwardResult.body from rfl]
    cases Converter.convertError c.world.rj st.forwardResult.body
        (k.rejection.getD st.forwardResult.statusCode) source c.matched.spec.inboundFormat with
    | error fault => exact .inl ⟨_, rfl⟩
    | ok body => exact .inr ⟨_, body, rfl, rfl⟩

theorem recordUsage_eq (c : Context) (st : Handler) : ∃ more, c.recordUsage st = { st with
        log := st.log ++ more, clockCalls := st.clockCalls + 1 } ∧ ∀ a ∈ more, a.isUsage := by
  unfold Context.recordUsage readClock
  dsimp only
  split
  · split <;> exact ⟨[_], rfl, by simp [Action.isUsage]⟩
  · exact ⟨[], by rw [append_nil], by simp⟩

theorem usage_spec {a : Action} (h : a.isUsage) :
    a.isDispatch = false ∧ a.isForwarding = false ∧ a.mediaResult? = none := by
  cases a with
  | recordedUsage event => exact ⟨rfl, rfl, rfl⟩
  | reportedUsage event ack => exact ⟨rfl, rfl, rfl⟩
  | _ => cases h

theorem settled_eq (c : Context) (st : Handler) (ht : st.terminalAbort) :
    ∃ more, (Context.finalStatus (c.recordUsage (c.releaseControl st))).log = st.log ++ more ∧
      (∀ a ∈ more, a.isUsage) ∧ (Context.finalStatus (c.recordUsage (c.releaseControl st))).resp =
        (Context.finalStatus st).resp := by
  have hk : c.releaseControl st = st := by
    unfold Context.releaseControl
    rw [if_neg (by simp [ht])]
  obtain ⟨more, heq, hu⟩ := recordUsage_eq c st
  rw [hk, heq]
  refine ⟨more, ?_, hu, ?_⟩
  · unfold Context.finalStatus
    split <;> rfl
  · unfold Context.finalStatus
    dsimp only
    split <;> rfl

theorem persistMedia_failed (ht : st.terminalAbort) (hp : persists c.matched st.dispatchResult) :
    ∃ request operation, (operation.accepted ∧ c.persistMedia st = c.mediaStored false operation
        ({ st with mediaResponseOverridden := true }.emit (.mediaOperation request operation))) ∨
      (operation.accepted = false ∧ c.persistMedia st = c.mediaUnstored operation
        ({ st with mediaResponseOverridden := true }.emit
          (.mediaOperation request operation))) := by
  have hf : (c.mediaUpdate { st with mediaResponseOverridden := true }).status = "failed" := by
    unfold Context.mediaUpdate Context.mediaStatus
    dsimp only
    rw [ht, Bool.true_or, if_pos rfl]
  have hc : (persistentCreate c.matched.operation &&
      !st.dispatchResult.upstream.mediaOperationId.isEmpty) := hp
  unfold Context.persistMedia callMedia
  rw [if_pos hc]
  dsimp only
  rw [hf]
  set request := c.mediaUpdate { st with mediaResponseOverridden := true }
  refine ⟨request, c.world.mediaOperation st.log request, ?_⟩
  cases ha : (c.world.mediaOperation st.log request).accepted with
  | true => exact .inl ⟨rfl, if_pos rfl⟩
  | false => exact .inr ⟨rfl, if_neg (by simp)⟩

theorem plainHeaders_stored (headers : List (Bytes × Bytes)) (location : Bytes) :
    plainHeaders (headers ++ [(ascii "Cache-Control", ascii "no-store")] ++
        [(ascii "Location", location)]) = plainHeaders headers ++
        [(ascii "Cache-Control", ascii "no-store"), (ascii "Location", location)] := by
  have hc : isRequestId (ascii "Cache-Control", ascii "no-store") = false := by decide
  have hl : isRequestId (ascii "Location", location) = false := by
    change isRequestId (ascii "Location", []) = false
    decide
  simp [plainHeaders, hc, hl]

theorem persistMedia_shown (c : Context) (st : Handler) (ht : st.terminalAbort)
    (hpl : (st.mediaResponseOverridden || st.responsePolicyOverridden) = false)
    (hs : st.forwardResult.statusCode > 0) : ∃ more, (c.persistMedia st).log = st.log ++ more ∧
      (∀ a ∈ more, a.isDispatch = false ∧ a.isForwarding = false) ∧
      (c.persistMedia st).terminalAbort ∧ (Context.finalStatus (c.persistMedia st)).resp.shown =
        if persists c.matched st.dispatchResult then
          operationShown c.world.rj c.matched.spec.capability st.resp.contentType
            (plainHeaders st.resp.headers) ((more.filterMap Action.mediaResult?).headD {})
        else ⟨st.forwardResult.statusCode, st.resp.contentType, plainHeaders st.resp.headers,
          st.resp.body⟩ := by
  cases hp : persists c.matched st.dispatchResult with
  | true =>
    obtain ⟨request, operation, ⟨ha, heq⟩ | ⟨hr, heq⟩⟩ := persistMedia_failed ht hp
    · rw [heq]
      refine ⟨[.mediaOperation request operation], rfl, ?_, ht, ?_⟩
      · simp [Action.isDispatch, Action.isForwarding]
      · change Shown.mk 200 st.resp.contentType (plainHeaders (_ ++ _ ++ _)) _ =
          operationShown _ _ _ _ operation
        rw [plainHeaders_stored, operationShown, if_pos ha]; rfl
    · rw [heq]
      set asked := { st with mediaResponseOverridden := true }.emit
        (.mediaOperation request operation)
      refine ⟨[.mediaOperation request operation, .aborted asked.lease
        "media_operation_persist_failed" .unknown asked.forwardResult.providerStatusCode
        (c.abortAck "media_operation_persist_failed" .unknown
          asked.forwardResult.providerStatusCode asked)], ?_, ?_, rfl, ?_⟩
      · rw [append_cons]; rfl
      · simp [Action.isDispatch, Action.isForwarding]
      · change Shown.mk _ st.resp.contentType (plainHeaders st.resp.headers) _ =
          operationShown _ _ _ _ operation
        rw [operationShown, if_neg (by simp [hr])]; rfl
  | false =>
    rw [persistMedia_unstored hp]
    refine ⟨[], by rw [append_nil], by simp, ht, ?_⟩
    unfold Context.finalStatus HttpResponse.shown
    rw [if_neg (by simp [hpl]), if_pos hs]; rfl

theorem Failing.after (h : Failing c resp st) {more log : List Action} (hl : log = st.log ++ more)
    (hm : ∀ a ∈ more, a.isDispatch = false ∧ a.isForwarding = false) :
    finalAnswer log = some (st.dispatchResult, more.filterMap Action.mediaResult?) ∧
      c.carried resp log = c.carried resp st.log := by
  obtain ⟨body, earlier, hr, hbo⟩ := h.round
  refine ⟨?_, ?_⟩
  · have hla : dispatches log = ⟨st.dispatchResult, body ++ more⟩ :: earlier := by
      rw [hl, dispatches_append _ fun a ha => (hm a ha).1, hr, addAll_cons]
    rw [finalAnswer_of_dispatches hla, Round.answers, filterMap_append, hbo, nil_append]
  · unfold Context.carried; rw [hl, lastAnswer_append_of_none _ _ _ fun a ha => (hm a ha).2]

theorem Failing.explained (h : Failing c resp st) : Explained c resp (c.settle st) := by
  rcases h.takeBody with ⟨st', heq⟩ | ⟨contentType, body, hp, heq⟩
  · intro he
    unfold Context.settle at he
    rw [heq] at he
    obtain ⟨st₁, -, rfl⟩ := takeBody_error heq
    exact absurd he (not_isGatewayError_of_exit (by simp [Handler.faulted]))
  · intro _
    set taken : Handler := { st with
      resp.contentType := contentType, resp.body := body, forwardResult.body := [] }
    have hsc : c.applyContentPolicy taken = taken := by
      unfold Context.applyContentPolicy
      rw [if_neg (by simp [taken, h.terminal])]
    have hf : c.showMalformed taken = taken := by
      unfold Context.showMalformed
      rw [if_neg (by simp [taken, h.carries.formed])]
    have hst : taken.forwardResult.statusCode > 0 := by
      have hfa := (leaseError_cases c.world.rj c.req c.matched st.dispatchResult.upstream).1
      rw [h.error] at hfa
      change st.forwardResult.statusCode > 0; omega
    obtain ⟨more, hl, hm, ht, hs⟩ := persistMedia_shown c taken h.terminal h.carries.plain hst
    obtain ⟨rest, hr, hu, hre⟩ := settled_eq c (c.persistMedia taken) ht
    have hse : c.settle st = (Context.finalStatus (c.recordUsage (c.releaseControl
        (c.persistMedia taken)))).returned := by
      unfold Context.settle
      rw [heq]
      dsimp only
      rw [hsc, hf]
    have hen : (c.settle st).log = st.log ++ (more ++ rest) := by
      rw [hse, ← append_assoc]; exact hr.trans (congrArg (· ++ rest) hl)
    have hq : ∀ a ∈ more ++ rest, a.isDispatch = false ∧ a.isForwarding = false := by
      intro a ha
      rcases mem_append.1 ha with ha | ha
      · exact hm a ha
      · exact ⟨(usage_spec (hu a ha)).1, (usage_spec (hu a ha)).2.1⟩
    have han : (more ++ rest).filterMap Action.mediaResult? =
        more.filterMap Action.mediaResult? := by
      rw [filterMap_append, filterMap_eq_nil_iff.2 fun a ha =>
        (usage_spec (hu a ha)).2.2, append_nil]
    obtain ⟨hfi, hc⟩ := h.after hen hq
    refine ⟨_, _, hfi, ?_⟩
    rw [han, hc]
    unfold errorShown
    rw [if_pos h.granted, h.error]
    dsimp only
    rw [hp, ok_bind]
    refine congrArg Except.ok ?_
    have hh : plainHeaders taken.resp.headers = (c.carried resp st.log).headers := h.carries.headers
    rw [hh] at hs
    rw [hse]
    change _ = HttpResponse.shown (Context.finalStatus _).resp
    rw [hre, hs]

end

end Gateway.Server
