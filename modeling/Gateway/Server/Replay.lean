import Gateway.Dispatch.Answers
import Gateway.Server.Screening

/-! # Replayed responses -/

namespace Gateway.Forwarder

open Lib Dispatch

theorem statusCode_acceptBody (rj : RapidJson) (durationMs : Int) (invalid : Bool) (body : Bytes)
    (r : ForwardResult) : (acceptBody rj durationMs invalid body r).statusCode = r.statusCode ∨
      400 ≤ (acceptBody rj durationMs invalid body r).statusCode := by
  unfold acceptBody
  dsimp only
  split
  · exact .inr (show (400 : Int) ≤ 502 by decide)
  · exact .inl rfl

theorem statusCode_receiveBody (rj : RapidJson) (provider : Provider) (invalid : Bool)
    (r : ForwardResult) : (receiveBody rj provider invalid r).statusCode = r.statusCode ∨
      400 ≤ (receiveBody rj provider invalid r).statusCode := by
  unfold receiveBody
  split
  · exact .inr (show (400 : Int) ≤ 502 by decide)
  · exact statusCode_acceptBody rj _ _ _ r
  · next errno _ =>
    have hfa : 400 ≤ (bodyFailed errno r).1.statusCode := by
      unfold bodyFailed
      dsimp only
      split
      · exact show (400 : Int) ≤ 503 by decide
      · exact show (400 : Int) ≤ 502 by decide
    right
    rcases statusCode_acceptBody rj provider.durationMs invalid (bodyFailed errno r).2
      (bodyFailed errno r).1 with heq | hle
    · exact hfa.trans_eq heq.symm
    · exact hle

theorem forward_started {rj : RapidJson} {transport : ProviderCall → Provider}
    {target : UpstreamTarget} {request : ForwardRequest} {mode : ProtocolMode}
    (hst : request.stream = false)
    (h : (forward rj transport target request mode).result.statusCode < 400) :
    ∃ start, (forward rj transport target request mode).responseStart = some start ∧
      start.statusCode = (forward rj transport target request mode).result.statusCode := by
  unfold forward at h ⊢
  dsimp only at h ⊢
  split_ifs at h ⊢
  · simp at h
  · simp at h
  · simp at h
  · simp at h
  · split at h
    · unfold callFailed at h
      dsimp only at h
      split_ifs at h <;> simp at h
    · next response _ =>
      have hcalled : ∀ times, cancelledBy request
          (transport (providerCall target request)) times = false := by
        simp [cancelledBy, watched, hst]
      simp only [receive, hst, Bool.not_false, Bool.true_or, if_true, hcalled,
        applyTransportCancellation] at h ⊢
      refine ⟨_, rfl, ?_⟩
      rcases statusCode_receiveBody rj (transport (providerCall target request))
        (invalidStreamContentType request response) (responded target request response) with
        heq | hle
      · exact heq.symm
      · omega

end Gateway.Forwarder

namespace Gateway.Server

open Lib Dispatch Forwarder List Option Context
open Usage (UsageEvent UsageRow)

def Announced (st : Handler) : Prop :=
  st.terminalAbort = false →
    st.forwardResult.malformedUsage = false ∧ st.responsePolicyOverridden = false ∧
      (isSuccess st.forwardResult.statusCode →
        st.resp.statusCode = st.forwardResult.statusCode ∧ st.resp.contentType ≠ [])

theorem announced_of_terminal {st : Handler} (h : st.terminalAbort) : Announced st :=
  fun hgo => absurd (hgo.symm.trans h) Bool.false_ne_true

section

variable {c : Context} {st st' : Handler} {body : Bytes}

theorem afterForward_announced {r : ForwardResult} (h : Returned body r st)
    (hst : isSuccess r.statusCode → st.resp.statusCode = r.statusCode ∧ st.resp.contentType ≠ [])
    (hle : c.afterForward st = .error st') : Announced st' := by
  cases ham : isAmbiguous st.forwardResult with
  | true =>
    have hterminal := terminalAbort_abortMalformed (c := c)
      (.inl (terminalAbort_abortAmbiguous (c := c) ham))
    rw [afterForward_of_terminal hterminal] at hle
    cases hle; exact announced_of_terminal hterminal
  | false =>
    cases hmalformed : st.forwardResult.malformedUsage with
    | true =>
      have hterminal : (c.abortMalformed (c.abortAmbiguous st)).terminalAbort := by
        rw [abortAmbiguous_of_not ham]
        exact terminalAbort_abortMalformed (.inr hmalformed)
      rw [afterForward_of_terminal hterminal] at hle
      cases hle; exact announced_of_terminal hterminal
    | false =>
      rw [afterForward_of_clear ham hmalformed] at hle
      split at hle
      · unfold failOver tryAgain at hle
        dsimp only at hle
        split_ifs at hle <;> cases hle <;> exact announced_of_terminal rfl
      · cases hle; rw [← h.result] at hst; exact fun _ => ⟨hmalformed, h.cleared, hst⟩

theorem called_started (hst : c.isStream = false) (more : List Action)
    (h : isSuccess (c.outcome body st).result.statusCode) :
    (c.called body more st).resp.statusCode = (c.outcome body st).result.statusCode ∧
      (c.called body more st).resp.contentType ≠ [] := by
  simp only [isSuccess, Bool.and_eq_true, decide_eq_true_eq] at h
  obtain ⟨start, hsta, hstat⟩ : ∃ start, (c.outcome body st).responseStart = some start ∧
      start.statusCode = (c.outcome body st).result.statusCode := forward_started hst h.2
  have hre : (c.called body more st).resp = (c.startResponse (some start)
      (st.emit (.forwarding st.lease st.dispatchResult.upstream body))).resp := by
    rw [← hsta]; rfl
  rw [hre, ← hstat]
  refine ⟨rfl, ?_⟩
  change (if start.contentType.isEmpty then ascii "application/octet-stream"
    else start.contentType) ≠ []
  split
  · decide
  · next hne => simpa using hne

theorem AttemptStep.announced {m : Handling} (hs : AttemptStep c st m) (hst : c.isStream = false)
    (h : Unanswered body st) (hm : m = .error st') (hbr : st'.exit = .broke) : Announced st' := by
  cases hs with
  | faulted _ | unstored _ _ | unresolved _ _ _ | threw _ _ _ _ _ =>
    cases hm; cases hbr
  | unconverted _ | unauthorized _ _ =>
    cases hm; exact announced_of_terminal rfl
  | @called upstreamBody ack more _ _ hpi _ =>
    have hau : Unanswered body (authorized ack st) :=
      h.steady ⟨⟨_, rfl, by simp [forwardEvidence, Action.isAside]⟩, rfl, rfl, rfl, rfl, rfl⟩
    have hcalled := hau.steady (calling_steady (c := c) upstreamBody hpi)
    exact afterForward_announced (hcalled.returned _ _) (called_started hst more) hm

theorem rounds_announced (hstr : c.isStream = false) (fuel : Nat) (h : Unanswered body st)
    (hex : st.exit ≠ .broke) (hbr : (c.rounds fuel st).exit = .broke) :
    Announced (c.rounds fuel st) := by
  induction fuel generalizing st with
  | zero => exact absurd hbr hex
  | succ fuel ih =>
    have hle := round_leaves hstr h
    have hst := round_step c st
    unfold rounds at hbr ⊢
    cases hro : c.round st with
    | ok st₁ =>
      rw [hro] at hle hbr
      cases hle with
      | again h₁ => exact ih h₁ (by rwa [round_ok_exit hro]) hbr
    | error st₁ =>
      rw [hro] at hst hbr
      have hdi : Unanswered body (c.callDispatch st) :=
        h.steady ⟨⟨_, rfl, by simp [Action.isAside]⟩, rfl, rfl, rfl, rfl, rfl⟩
      dsimp only at hbr ⊢
      generalize hm : (Except.error st₁ : Handling) = m at hst
      cases hst with
      | retried _ _ | waited _ _ => cases hm
      | unavailable _ _ | exhausted _ _ | refused _ _ _ =>
        cases hm; cases hbr
      | repeated _ _ =>
        obtain ⟨resp, more, heq, -⟩ := repeated_eq c (c.callDispatch st)
        rw [heq] at hm
        cases hm; cases hbr
      | attempted _ hat => exact hat.announced hstr (hdi.steady (leased_steady st)) hm.symm hbr

theorem checkBody_announced (h : Announced st) (applies : Bool)
    (validation : Protocol.Converter.ValidationResult) (reason : Bytes) :
    Announced (c.checkBody applies validation reason st) := by
  unfold checkBody
  split
  · split
    · exact h
    · exact announced_of_terminal rfl
  · exact h

theorem takeBody_announced (h : Announced st) (hta : c.takeBody st = .ok st') : Announced st' := by
  unfold takeBody at hta
  split at hta
  · set st₁ : Handler :=
      { st with resp.body := st.forwardResult.body, forwardResult.body := [] }
    have h₁ : Announced st₁ := h
    obtain ⟨st₂, her, hta⟩ := bind_eq_ok hta
    obtain ⟨st₃, hsu, hta⟩ := bind_eq_ok hta
    have h₂ : Announced st₂ := by
      unfold convertErrorBody at her
      dsimp only at her
      split at her
      · next hfa =>
        simp only [Bool.and_eq_true, decide_eq_true_eq] at hfa
        have hno : isSuccess st₁.forwardResult.statusCode = false := by simp [isSuccess, hfa.1]
        split at her
        · cases her
        · cases her
          exact fun hgo => ⟨(h₁ hgo).1, (h₁ hgo).2.1,
            fun hs => absurd (hno.symm.trans hs) Bool.false_ne_true⟩
      · cases her; exact h₁
    have h₃ : Announced st₃ := by
      unfold convertSuccessBody at hsu
      split at hsu
      · split at hsu
        · cases hsu
        · split at hsu
          · cases hsu; exact h₂
          · cases hsu; exact announced_of_terminal rfl
      · cases hsu; exact h₂
    cases hta
    exact checkBody_announced (checkBody_announced (checkBody_announced h₃ _ _ _) _ _ _) _ _ _
  · cases hta; exact h

def Given (st : Handler) : Prop :=
  Announced st ∨ (st.responsePolicyOverridden = true ∧ st.forwardResult.malformedUsage = false ∧
    (st.resp.statusCode = 400 ∨ st.resp.statusCode = 503) ∧ st.resp.contentType ≠ [])

theorem given_overrideResponse {statusCode : Int} (hst : statusCode = 400 ∨ statusCode = 503)
    (hwe : st.forwardResult.malformedUsage = false) (type message : Bytes) :
    Given (c.overrideResponse statusCode type message st) :=
  .inr ⟨rfl, hwe, hst, show ascii "application/json" ≠ [] by decide⟩

theorem given_applyContentPolicy (h : Announced st) : Given (c.applyContentPolicy st) := by
  unfold applyContentPolicy
  split
  · next hdu =>
    simp only [Bool.and_eq_true, Bool.not_eq_true'] at hdu
    have hwe : st.forwardResult.malformedUsage = false := hdu.1.1.2
    split
    · have hev : ∀ a, (st.emit a).forwardResult.malformedUsage = false := fun _ => hwe
      unfold evaluateResponse
      dsimp only
      split
      · exact .inl h
      · exact given_overrideResponse (.inl rfl) (hev _) _ _
      · exact given_overrideResponse (.inr rfl) (hev _) _ _
    · unfold decideResponse
      split
      iterate 4 exact .inl h
      iterate 6 exact given_overrideResponse (.inl rfl) hwe _ _
      exact given_overrideResponse (.inr rfl) hwe _ _
  · exact .inl h

theorem given_showMalformed (h : Given st) : Given (c.showMalformed st) := by
  unfold showMalformed
  split
  · next hmalformed =>
    rcases h with h | ⟨-, hwe, -⟩
    · by_cases hterminal : st.terminalAbort
      · exact .inl (announced_of_terminal hterminal)
      · rw [(h (Bool.eq_false_iff.2 hterminal)).1] at hmalformed; cases hmalformed
    · rw [hwe] at hmalformed; cases hmalformed
  · exact h

theorem persistMedia_of_not_overridden (h : (c.persistMedia st).mediaResponseOverridden = false) :
    c.persistMedia st = st := by
  unfold persistMedia at h ⊢
  split
  · next hpe =>
    rw [if_pos hpe] at h
    dsimp only [callMedia] at h
    split at h
    · unfold mediaStored at h
      dsimp only at h
      split at h <;> cases h
    · cases h
  · rfl

theorem given_releaseControl (h : Given st) : Given (c.releaseControl st) := by
  unfold releaseControl
  dsimp only
  split
  · split
    · exact .inl (announced_of_terminal rfl)
    · exact h
  · exact h

end

def Context.unbilled (c : Context) (st : Handler) : Handling := do
  let st ← c.takeBody st
  return c.releaseControl (c.persistMedia (c.showMalformed (c.applyContentPolicy st)))

theorem settle_of_unbilled {c : Context} {st st' : Handler} (h : c.unbilled st = .ok st') :
    c.settle st = (finalStatus (c.recordUsage st')).returned := by
  obtain ⟨st₁, hta, hre⟩ := bind_eq_ok h
  cases hre
  unfold settle
  rw [hta]

theorem given_unbilled {c : Context} {st st' : Handler} (h : Announced st)
    (hun : c.unbilled st = .ok st') (hmedia : st'.mediaResponseOverridden = false) : Given st' := by
  obtain ⟨st₁, hta, hre⟩ := bind_eq_ok hun
  cases hre
  have hgi : Given (c.showMalformed (c.applyContentPolicy st₁)) :=
    given_showMalformed (given_applyContentPolicy (takeBody_announced h hta))
  have hke : (c.persistMedia (c.showMalformed
      (c.applyContentPolicy st₁))).mediaResponseOverridden = false := by
    rw [← hmedia]
    unfold releaseControl
    dsimp only
    split
    · split <;> rfl
    · rfl
  rw [persistMedia_of_not_overridden hke]
  exact given_releaseControl hgi

section

variable {w : World} {req : HttpRequest} {resp : HttpResponse} {matched : MatchedCapability}
  {fuel : Nat} {event : UsageEvent}

def persistedEvent (w : World) (req : HttpRequest) (resp : HttpResponse)
    (matched : MatchedCapability) (fuel : Nat) : Option UsageEvent :=
  match prepare w req resp matched with
  | .error _ => none
  | .ok (c, st) =>
    if (c.rounds fuel st).exit = .broke then
      match c.unbilled (c.rounds fuel st) with
      | .error _ => none
      | .ok st =>
        if c.persistResponse st && !c.world.outboxThrows st.log then
          some (c.usageEvent (readClock c.world st).1 st)
        else none
    else none

structure Stores (event : UsageEvent) (st : Handler) : Prop where
  recorded : .recordedUsage event ∈ st.log
  statusCode : event.responseStatusCode = st.resp.statusCode
  contentType : event.responseContentType = st.resp.contentType
  body : event.responseBody = st.resp.body
  positive : 0 < st.resp.statusCode
  noConflict : st.resp.statusCode ≠ 409
  typed : st.resp.contentType ≠ []

theorem Given.final {c : Context} {st : Handler} (h : Given st)
    (hpe : c.persistResponse st) : (finalStatus st).resp = st.resp ∧ 0 < st.resp.statusCode ∧
      st.resp.statusCode ≠ 409 ∧ st.resp.contentType ≠ [] := by
  simp only [persistResponse, Bool.and_eq_true, Bool.not_eq_true', decide_eq_true_eq]
    at hpe
  obtain ⟨⟨⟨⟨⟨-, hgo⟩, -⟩, hmedia⟩, hsu⟩, -⟩ := hpe
  unfold Context.finalStatus
  rcases h with h | ⟨hov, -, hst, htyped⟩
  · obtain ⟨-, hcl, hst⟩ := h hgo
    obtain ⟨heq, htyped⟩ := hst hsu
    simp only [isSuccess, Bool.and_eq_true, decide_eq_true_eq] at hsu
    rw [hmedia, hcl, Bool.or_false, if_neg Bool.false_ne_true]
    refine ⟨?_, by omega, by omega, htyped⟩
    dsimp only
    rw [if_pos (by omega), ← heq]
  · rw [hov, Bool.or_true, if_pos rfl]; exact ⟨rfl, by omega, by omega, htyped⟩

theorem recordUsage_persists {c : Context} {st : Handler} (hpe : c.persistResponse st)
    (hst : c.world.outboxThrows st.log = false) :
    c.recordUsage st = { st with clockCalls := st.clockCalls + 1 }.emit
      (.recordedUsage (c.usageEvent (readClock c.world st).1 st)) := by
  have hdu := hpe
  simp only [persistResponse, Bool.and_eq_true, Bool.not_eq_true'] at hdu
  obtain ⟨⟨⟨⟨⟨-, hgo⟩, hdu⟩, -⟩, -⟩, -⟩ := hdu
  unfold recordUsage readClock
  dsimp only
  rw [if_pos (by simp [hgo, hdu]), if_neg (by simp [hst])]
  rfl

theorem stores_of_persisted (h : persistedEvent w req resp matched fuel = some event) :
    Stores event (handle w req resp matched fuel) := by
  unfold persistedEvent at h
  split at h
  · cases h
  · next c st hpr =>
    have hrun : handle w req resp matched fuel = c.serve fuel st := by
      unfold handle
      rw [hpr]
    rw [hrun]
    split at h
    · next hbr =>
      split at h
      · cases h
      · next st' hun =>
        split at h
        · next hdu =>
          cases h
          simp only [Bool.and_eq_true, Bool.not_eq_true'] at hdu
          obtain ⟨hpe, hst⟩ := hdu
          have hfl := hpe
          simp only [persistResponse, Bool.and_eq_true, Bool.not_eq_true'] at hfl
          obtain ⟨⟨⟨⟨⟨hstr, -⟩, -⟩, hmedia⟩, -⟩, -⟩ := hfl
          have hex : st.exit ≠ .broke := by rw [(entered_of_prepare hpr).state]; exact nofun
          have han := rounds_announced hstr fuel (prepare_serves hpr).1 hex hbr
          obtain ⟨hre, hpo, hco, htyped⟩ := (given_unbilled han hun hmedia).final hpe
          have hse : c.serve fuel st = (finalStatus (c.recordUsage st')).returned := by
            unfold serve
            dsimp only
            rw [if_pos hbr, settle_of_unbilled hun]
          have hfi : (c.serve fuel st).resp = st'.resp := by
            rw [hse, recordUsage_persists hpe hst, ← hre]
            unfold finalStatus
            dsimp only [Handler.emit, Handler.returned]
            split <;> rfl
          refine ⟨?_, ?_, ?_, ?_, hfi ▸ hpo, hfi ▸ hco, hfi ▸ htyped⟩
          · have hlo : (c.serve fuel st).log = (c.recordUsage st').log := by
              rw [hse]; exact finalStatus_log _
            rw [hlo, recordUsage_persists hpe hst]
            exact mem_append_right _ (mem_singleton_self _)
          all_goals rw [hfi]; simp [usageEvent, hpe]
        · cases h
    · cases h

end

theorem length_recvFrame_le {k : Kernel} {p : Peer} {s : Client} {connection : Connection}
    (h : s.fd = some connection) : (Client.recvFrame k p s).1.length ≤ Client.maxAnswerBytes := by
  obtain ⟨n, ⟨hfd, -⟩, -⟩ := Client.readExactly_spec (k := k) (p := p) 4 h
  unfold Client.recvFrame
  rw [if_neg (by simp [h])]
  cases hhe : Client.readExactly k p 4 s with
  | mk header s₁ =>
    rw [hhe] at hfd
    cases header with
    | none => exact Nat.zero_le _
    | some header =>
      dsimp only
      split
      · exact Nat.zero_le _
      · next hle =>
        obtain ⟨m, -, hda⟩ := Client.readExactly_spec (k := k) (p := p) (value32 header) hfd
        cases hre : (Client.readExactly k p (value32 header) s₁).1 with
        | none => exact Nat.zero_le _
        | some data => rw [getD_some, (hda data hre).2.2, length_take]; omega

structure Repeat (event : UsageEvent) where
  world : World
  req : HttpRequest
  resp : HttpResponse
  matched : MatchedCapability
  fuel : Nat
  enters : ∃ entered, prepare world req resp matched = .ok entered
  answer : DispatchResult
  rejected : answer.outcome = .rejected
  rejectCode : answer.rejectCode = 10
  unmarked : find existsMarker answer.rejectMessage = none
  replayStatusCode : answer.replayStatusCode = event.responseStatusCode
  replayContentType : answer.replayContentType = event.responseContentType
  replayBody : answer.replayBody = event.responseBody
  words : Bytes
  kernel : Kernel
  peer : Peer
  client : Client
  connection : Connection
  rest : Bytes
  willing : Client.Willing kernel
  connected : client.fd = some connection
  unread : peer.unread connection = withLength (0x81 :: words) ++ rest
  dispatched : (Client.recvFrame kernel peer client).1 = 0x81 :: words →
    ∀ c st, prepare world req resp matched = .ok (c, st) →
      world.dispatch st.log st.dispatchReq = answer

namespace Repeat

variable {event : UsageEvent} (r : Repeat event)

def accepted : Prop := (Client.recvFrame r.kernel r.peer r.client).1 = 0x81 :: r.words

def second : HttpResponse := (handle r.world r.req r.resp r.matched (r.fuel + 1)).resp

def Faithful (first : HttpResponse) : Prop :=
  r.accepted ∧ r.second.statusCode = first.statusCode ∧
    r.second.contentType = first.contentType ∧ r.second.body = first.body

theorem accepted_iff : r.accepted ↔ r.words.length < Client.maxAnswerBytes := by
  constructor
  · intro hanswer
    have hle := length_recvFrame_le (k := r.kernel) (p := r.peer) r.connected
    rw [show (Client.recvFrame r.kernel r.peer r.client).1 = _ from hanswer] at hle
    exact hle
  · intro hlen
    exact Client.recvFrame_willing r.willing r.connected r.unread (cons_ne_nil _ _) hlen

theorem handle_eq_replay (h : r.accepted) : ∃ (c : Context) (st : Handler),
    st.dispatchResult = r.answer ∧
      handle r.world r.req r.resp r.matched (r.fuel + 1) = c.replay st := by
  obtain ⟨⟨c, st⟩, hpr⟩ := r.enters
  have hwo : c.world = r.world := (entered_of_prepare hpr).sameWorld
  have hre : (c.callDispatch st).dispatchResult = r.answer := by
    change c.world.dispatch st.log st.dispatchReq = _
    rw [hwo]; exact r.dispatched h c st hpr
  have hro : c.round st = .error (c.replay (c.callDispatch st)) := by
    unfold Context.round
    dsimp only
    rw [hre, r.rejected]
    dsimp only
    unfold Context.rejected repeated isRetryablePlatformDispatch
    rw [hre, r.rejectCode]
    dsimp only
    rw [r.unmarked, if_neg (by simp [platformUnavailableRejectCode]), if_pos rfl]
  obtain ⟨resp, hrep⟩ := replay_eq c (c.callDispatch st)
  have hrou : c.rounds (r.fuel + 1) st = c.replay (c.callDispatch st) := by
    unfold rounds
    rw [hro]
  refine ⟨c, c.callDispatch st, hre, ?_⟩
  unfold handle
  rw [hpr]
  dsimp only
  unfold serve
  dsimp only
  rw [hrou, if_neg (fun hx => by rw [hrep] at hx; cases hx)]

theorem second_eq (h : r.accepted) : if 0 < event.responseStatusCode ∧ event.responseBody ≠ [] then
      r.second.statusCode = event.responseStatusCode ∧
        r.second.contentType = (if event.responseContentType.isEmpty then ascii "application/json"
          else event.responseContentType) ∧ r.second.body = event.responseBody
    else r.second.statusCode = 409 := by
  obtain ⟨c, st, hre, hha⟩ := r.handle_eq_replay h
  unfold second
  rw [hha]
  unfold replay
  dsimp only
  rw [hre, r.replayStatusCode, r.replayContentType, r.replayBody]
  by_cases hsh : 0 < event.responseStatusCode ∧ event.responseBody ≠ []
  · rw [if_pos hsh, if_pos (by simpa using hsh)]; exact ⟨rfl, rfl, rfl⟩
  · rw [if_neg hsh, if_neg (by simpa using hsh)]
    unfold refuse
    dsimp only
    rw [hre, r.rejectCode]; rfl

end Repeat

def storedEvent (now : Int) (event : UsageEvent) : UsageEvent :=
  UsageRow.readBack { event, createdAt := now }

section

variable {w : World} {req : HttpRequest} {resp : HttpResponse} {matched : MatchedCapability}
  {fuel : Nat} {event : UsageEvent}

theorem replay_faithful_iff (h : persistedEvent w req resp matched fuel = some event) (now : Int)
    (r : Repeat (storedEvent now event)) : r.Faithful (handle w req resp matched fuel).resp ↔
      r.words.length < Client.maxAnswerBytes ∧ (handle w req resp matched fuel).resp.body ≠ [] ∧
        NulFree (handle w req resp matched fuel).resp.body ∧
        NulFree (handle w req resp matched fuel).resp.contentType := by
  have hstores := stores_of_persisted h
  set first := (handle w req resp matched fuel).resp with hfirst
  have hstatus : (storedEvent now event).responseStatusCode = first.statusCode := hstores.statusCode
  have htype : (storedEvent now event).responseContentType = cstr first.contentType :=
    congrArg cstr hstores.contentType
  have hbody : (storedEvent now event).responseBody = cstr first.body := congrArg cstr hstores.body
  unfold Repeat.Faithful
  rw [← r.accepted_iff]
  refine and_congr_right fun haccepted => ?_
  have hsecond := r.second_eq haccepted
  rw [hstatus, htype, hbody] at hsecond
  by_cases hshown : 0 < first.statusCode ∧ cstr first.body ≠ []
  · rw [if_pos hshown] at hsecond
    obtain ⟨hs, ht, hb⟩ := hsecond
    rw [hs, ht, hb, cstr_eq_self_iff]
    constructor
    · rintro ⟨-, htypes, hnul⟩
      refine ⟨fun hempty => ?_, hnul, ?_⟩
      · rw [hempty] at hshown; exact hshown.2 rfl
      · rw [← htypes]
        split
        · decide
        · exact nulFree_cstr _
    · rintro ⟨-, hnul, hplain⟩
      refine ⟨rfl, ?_, hnul⟩
      rw [hplain.cstr_eq, if_neg (by simpa using hstores.typed)]
  · rw [if_neg hshown] at hsecond
    constructor
    · rintro ⟨hs, -⟩; exact absurd (hs.symm.trans hsecond) hstores.noConflict
    · rintro ⟨hne, hnul, -⟩; exact absurd ⟨hstores.positive, by rwa [hnul.cstr_eq]⟩ hshown

end

variable (event : UsageEvent)

def persisted (statusCode : Int) (body : Bytes) : Option UsageEvent :=
  persistedEvent (moderatedWorld statusCode body) (chatRequest "\"hi\"") {} chatCompletions 1

def replaying : DispatchResult where
  outcome := .rejected
  rejectCode := 10
  rejectMessage := "request was completed"
  replayStatusCode := event.responseStatusCode
  replayContentType := event.responseContentType
  replayBody := event.responseBody

def replayWorld : World :=
  { moderatedWorld 200 [] with dispatch := fun _ _ => replaying event }

def shortAnswer : Peer where
  answer _ _ := 0x81 :: replicate 8 0
  answer_fits _ _ := by decide

theorem replayWorld_enters : ∃ entered,
    prepare (replayWorld event) (chatRequest "\"hi\"") {} chatCompletions = .ok entered := by
  have h : (prepare (replayWorld event) (chatRequest "\"hi\"") {} chatCompletions).isOk := rfl
  cases hp : prepare (replayWorld event) (chatRequest "\"hi\"") {} chatCompletions with
  | ok entered => exact ⟨entered, rfl⟩
  | error st => rw [hp] at h; cases h

def chatRepeat : Repeat event where
  world := replayWorld event
  req := chatRequest "\"hi\""
  resp := {}
  matched := chatCompletions
  fuel := 0
  enters := replayWorld_enters event
  answer := replaying event
  rejected := rfl
  rejectCode := rfl
  unmarked := by
    change find existsMarker (ascii "request was completed") = none
    decide
  replayStatusCode := rfl
  replayContentType := rfl
  replayBody := rfl
  words := replicate 8 0
  kernel := slowKernel none
  peer := shortAnswer
  client := { fd := some { number := 0, sent := withLength [1] } }
  connection := { number := 0, sent := withLength [1] }
  rest := []
  willing := ⟨by simp [slowKernel], by simp [slowKernel]⟩
  connected := rfl
  unread := by decide
  dispatched _ _ _ _ := rfl

theorem completion_replayed : ∃ event, persisted 200 completionText = some event ∧
    (chatRepeat (storedEvent 0 event)).Faithful (answered 200 completionText).resp := by
  obtain ⟨event, hevent⟩ : ∃ event, persisted 200 completionText = some event :=
    isSome_iff_exists.1 (by decide +kernel)
  exact ⟨event, hevent, (replay_faithful_iff hevent 0 (chatRepeat _)).2
    ⟨show 8 < 1024 * 1024 by decide, by decide +kernel⟩⟩

theorem empty_response_not_replayed : ∃ event, persisted 204 [] = some event ∧
    (answered 204 []).resp.statusCode = 204 ∧ (answered 204 []).resp.body = [] ∧
    (chatRepeat (storedEvent 0 event)).accepted ∧
    (chatRepeat (storedEvent 0 event)).second.statusCode = 409 := by
  obtain ⟨event, hevent⟩ : ∃ event, persisted 204 [] = some event :=
    isSome_iff_exists.1 (by decide +kernel)
  have hfirst : (answered 204 []).resp.statusCode = 204 ∧ (answered 204 []).resp.body = [] := by
    decide +kernel
  have haccepted : (chatRepeat (storedEvent 0 event)).accepted :=
    (Repeat.accepted_iff _).2 (show 8 < 1024 * 1024 by decide)
  have hbody : (storedEvent 0 event).responseBody = [] := by
    have hstored : event.responseBody = (answered 204 []).resp.body :=
      (stores_of_persisted hevent).body
    change cstr event.responseBody = []
    rw [hstored, hfirst.2]; rfl
  have hsecond := (chatRepeat (storedEvent 0 event)).second_eq haccepted
  rw [if_neg (by simp [hbody])] at hsecond
  exact ⟨event, hevent, hfirst.1, hfirst.2, haccepted, hsecond⟩

end Gateway.Server
