import Gateway.Server.Lease

/-! # What the stages around the loop leave alone -/

namespace Gateway.Server

open Lib Dispatch Forwarder Context Protocol List

def Action.isSettling : Action → Bool
  | .mediaOperation _ _ => true
  | .evaluated _ _ _ => true
  | .aborted _ _ _ _ _ => true
  | .recordedUsage _ => true
  | .reportedUsage _ _ => true
  | _ => false

structure Appends (kind : Action → Bool) (st st' : Handler) : Prop where
  log : GrowsBy (kind ·) st.log st'.log
  activeConnections : st'.activeConnections = st.activeConnections
  dispatchResult : st'.dispatchResult = st.dispatchResult

variable {a : Action}

namespace Appends

variable {kind : Action → Bool} {st st₁ st₂ : Handler}

theorem of_eq (hl : st₁.log = st.log) (hc : st₁.activeConnections = st.activeConnections)
    (hr : st₁.dispatchResult = st.dispatchResult) : Appends kind st st₁ :=
  ⟨hl ▸ .refl _, hc, hr⟩

theorem refl (st : Handler) : Appends kind st st := of_eq rfl rfl rfl

theorem trans (st st₁ st₂ : Handler) (h₁ : Appends kind st st₁) (h₂ : Appends kind st₁ st₂) :
    Appends kind st st₂ :=
  ⟨h₁.log.trans h₂.log, h₂.activeConnections.trans h₁.activeConnections,
    h₂.dispatchResult.trans h₁.dispatchResult⟩

theorem emit (h : Appends kind st st₁) (ha : kind a) : Appends kind st (st₁.emit a) :=
  ⟨h.log.snoc ha, h.activeConnections, h.dispatchResult⟩

theorem then_eq (h : Appends kind st st₁) (hl : st₂.log = st₁.log)
    (hc : st₂.activeConnections = st₁.activeConnections)
    (hr : st₂.dispatchResult = st₁.dispatchResult) : Appends kind st st₂ :=
  h.trans _ _ _ (of_eq hl hc hr)

end Appends

abbrev Closing (st st' : Handler) : Prop := Appends Action.isSettling st st'

section

variable {c : Context} {st : Handler}

theorem abortUnknown_closing (reason : Bytes) (st : Handler) :
    Closing st (c.abortUnknown reason st) := (Appends.refl st).emit rfl

theorem withhold_closing (reason type message : Bytes) (st : Handler) :
    Closing st (c.withhold reason type message st) :=
  (abortUnknown_closing (c := c) reason st).then_eq rfl rfl rfl

theorem checkBody_closing (applies : Bool) (validation : Converter.ValidationResult)
    (reason : Bytes) (st : Handler) : Closing st (c.checkBody applies validation reason st) := by
  unfold checkBody
  split
  · split
    · exact Appends.refl st
    · next message =>
      exact (withhold_closing (c := c) reason "provider_protocol_error" message st).then_eq rfl rfl
        rfl
  · exact Appends.refl st

section

variable (st : Handler)

theorem checks_closing :
    Closing st (c.checkResponses (c.checkCatalogue (c.checkEmbeddings st))) := by
  have he : Closing st (c.checkEmbeddings st) := checkBody_closing _ _ _ _
  have hc : Closing (c.checkEmbeddings st) (c.checkCatalogue (c.checkEmbeddings st)) :=
    checkBody_closing _ _ _ _
  have hr : Closing (c.checkCatalogue (c.checkEmbeddings st))
      (c.checkResponses (c.checkCatalogue (c.checkEmbeddings st))) := checkBody_closing _ _ _ _
  exact (he.trans _ _ _ hc).trans _ _ _ hr

theorem convertErrorBody_closing : Closing st (stateOf (c.convertErrorBody st)) := by
  unfold convertErrorBody
  dsimp only
  split
  · split <;> exact Appends.of_eq rfl rfl rfl
  · exact Appends.refl st

theorem convertSuccessBody_closing : Closing st (stateOf (c.convertSuccessBody st)) := by
  unfold convertSuccessBody
  split
  · split
    · exact Appends.of_eq rfl rfl rfl
    · split
      · exact Appends.of_eq rfl rfl rfl
      · exact withhold_closing (c := c) _ _ _ st
  · exact Appends.refl st

theorem takeBody_closing : Closing st (stateOf (c.takeBody st)) := by
  unfold takeBody
  split
  · have ht : Closing st
        { st with resp.body := st.forwardResult.body, forwardResult.body := [] } :=
      Appends.of_eq rfl rfl rfl
    refine ht.trans _ _ _ ?_
    refine rel_bind Appends.trans (convertErrorBody_closing _) fun st₁ _ => ?_
    refine rel_bind Appends.trans (convertSuccessBody_closing st₁) fun st₂ _ => ?_
    exact checks_closing st₂
  · exact Appends.refl st

end

variable {st' : Handler}

theorem convertErrorBody_ok (h : c.convertErrorBody st = .ok st') :
    ∃ body contentType, st' = { st with resp.body := body, resp.contentType := contentType } := by
  unfold convertErrorBody at h
  dsimp only at h
  split at h
  · split at h
    · cases h
    · cases h; exact ⟨_, _, rfl⟩
  · cases h; exact ⟨_, _, rfl⟩

theorem convertErrorBody_error (h : c.convertErrorBody st = .error st') : st' = st.faulted := by
  unfold convertErrorBody at h
  dsimp only at h
  split at h
  · split at h <;> cases h
    rfl
  · cases h

theorem convertSuccessBody_error (h : c.convertSuccessBody st = .error st') : st' = st.faulted := by
  unfold convertSuccessBody at h
  split at h
  · split at h
    · cases h; rfl
    · split at h <;> cases h
  · cases h

theorem takeBody_error (h : c.takeBody st = .error st') :
    ∃ st₁ : Handler, st₁.log = st.log ∧ st' = st₁.faulted := by
  unfold takeBody at h
  split at h
  · cases hf : c.convertErrorBody
        { st with resp.body := st.forwardResult.body, forwardResult.body := [] } with
    | error s =>
      rw [hf] at h
      cases h
      refine ⟨_, ?_, convertErrorBody_error hf⟩
      rfl
    | ok s =>
      rw [hf, ok_bind] at h
      cases hs : c.convertSuccessBody s with
      | error s' =>
        rw [hs] at h
        cases h
        obtain ⟨body, contentType, rfl⟩ := convertErrorBody_ok hf
        refine ⟨_, ?_, convertSuccessBody_error hs⟩
        rfl
      | ok s' => rw [hs] at h; cases h
  · cases h

theorem applyContentPolicy_closing (st : Handler) : Closing st (c.applyContentPolicy st) := by
  unfold applyContentPolicy
  split
  · split
    · unfold evaluateResponse
      dsimp only
      split <;> exact ((Appends.refl st).emit rfl).then_eq rfl rfl rfl
    · unfold decideResponse
      split <;> exact Appends.of_eq rfl rfl rfl
  · exact Appends.refl st

theorem showMalformed_closing (st : Handler) : Closing st (c.showMalformed st) := by
  unfold showMalformed
  split <;> exact Appends.of_eq rfl rfl rfl

theorem mediaStored_closing (running : Bool) (operation : MediaOperationResult)
    (st : Handler) : Closing st (c.mediaStored running operation st) := by
  cases running <;> exact Appends.of_eq rfl rfl rfl

section

variable (st : Handler)

theorem persistMedia_closing : Closing st (c.persistMedia st) := by
  unfold persistMedia callMedia
  dsimp only
  split
  · set st₁ := { st with mediaResponseOverridden := true }
    have ha : Closing st (st₁.emit (.mediaOperation (c.mediaUpdate st₁)
        (c.world.mediaOperation st₁.log (c.mediaUpdate st₁)))) :=
      (Appends.of_eq rfl rfl rfl : Closing st st₁).emit rfl
    split
    · exact ha.trans _ _ _ (mediaStored_closing _ _ _)
    · exact (ha.trans _ _ _ (abortUnknown_closing (c := c) _ _)).then_eq rfl rfl rfl
  · exact Appends.refl st

theorem releaseControl_closing : Closing st (c.releaseControl st) := by
  unfold releaseControl
  dsimp only
  split
  · have ha : Closing st (c.abort "non_billable_control" .noCharge
        st.forwardResult.providerStatusCode st) := (Appends.refl st).emit rfl
    split
    · exact ha.then_eq rfl rfl rfl
    · exact ha
  · exact Appends.refl st

theorem recordUsage_closing : Closing st (c.recordUsage st) := by
  unfold recordUsage readClock
  dsimp only
  have hr : Closing st { st with clockCalls := st.clockCalls + 1 } := Appends.of_eq rfl rfl rfl
  split
  · split <;> exact hr.emit rfl
  · exact hr

theorem finalStatus_closing : Closing st (finalStatus st) := by
  unfold finalStatus
  split <;> exact Appends.of_eq rfl rfl rfl

end

theorem settle_cases (c : Context) (st : Handler) :
    (∃ st', Closing st st' ∧ c.settle st = st'.returned) ∨
      (Closing st (c.settle st) ∧ (c.settle st).log = st.log ∧ (c.settle st).exit = .faulted) := by
  have ht := takeBody_closing (c := c) st
  unfold settle
  cases heq : c.takeBody st with
  | error st₁ =>
    rw [heq] at ht
    obtain ⟨s, hl, rfl⟩ := takeBody_error heq
    exact .inr ⟨ht, hl, rfl⟩
  | ok st₁ =>
    rw [heq] at ht
    have hs := ht.trans _ _ _ (applyContentPolicy_closing (c := c) st₁)
    have hsh := hs.trans _ _ _ (showMalformed_closing (c := c) _)
    have hst := hsh.trans _ _ _ (persistMedia_closing (c := c) _)
    have hr := hst.trans _ _ _ (releaseControl_closing (c := c) _)
    have hre := hr.trans _ _ _ (recordUsage_closing (c := c) _)
    exact .inl ⟨_, hre.trans _ _ _ (finalStatus_closing _), rfl⟩

theorem settle_dispatchResult (c : Context) (st : Handler) :
    (c.settle st).dispatchResult = st.dispatchResult := by
  rcases settle_cases c st with ⟨st', hc, heq⟩ | ⟨hc, -⟩
  · rw [heq]; exact hc.dispatchResult
  · exact hc.dispatchResult

theorem settle_log (c : Context) (st : Handler) :
    GrowsBy (·.isSettling) st.log (c.settle st).log := by
  rcases settle_cases c st with ⟨st', hc, heq⟩ | ⟨hc, -⟩
  · rw [heq]; exact hc.log
  · exact hc.log

end

def Action.isOpening : Action → Bool
  | .mediaOperation _ _ => true
  | .uploadedBlob _ _ _ => true
  | _ => false

def Action.isAside : Action → Bool
  | .forwarded _ _ => false
  | .recordedUsage _ => false
  | .reportedUsage _ _ => false
  | .mediaOperation request _ => request.action ≠ "attach" ∧ request.action ≠ "fail"
  | _ => true

def withRequestId (resp : HttpResponse) (requestId : Bytes) : HttpResponse :=
  { resp with headers := resp.headers ++ [(ascii "X-Request-ID", requestId)] }

def World.requestId (w : World) (req : HttpRequest) : Bytes :=
  if req.requestId.isEmpty then hex64 (w.xxh64 (w.stamp (w.now [] 0)) 0) else req.requestId

structure Entered (w : World) (req : HttpRequest) (resp : HttpResponse)
    (matched : MatchedCapability) (c : Context) (st : Handler) : Prop where
  sameWorld : c.world = w
  sameRequest : c.req = req
  sameCapability : c.matched = matched
  start : c.start = w.now [] 0
  requestId : c.requestId = w.requestId req
  parsed : parseRequest w.rj req matched.spec = .ok c.parsed
  isStream : c.isStream = streams matched c.parsed
  deadline : c.dispatchDeadline = w.now st.log 1 + 45 * secondNs
  opening : ∀ a ∈ st.log, a.isOpening
  state : st =
    { log := st.log
      resp := withRequestId resp c.requestId
      clockCalls := 2
      activeConnections := 1
      dispatchReq := st.dispatchReq
      lastUpstreamFormat := matched.spec.inboundFormat }

structure LeftEarly (st : Handler) : Prop where
  opening : ∀ a ∈ st.log, a.isOpening
  exit : (st.exit = .returned ∧ st.activeConnections = 0) ∨ st.exit = .faulted

variable {existing : MediaOperationResult}

section

variable {w : World} {req : HttpRequest} {resp : HttpResponse} {matched : MatchedCapability}
  {caller : Caller} {st st' : Handler}

theorem forall_mem_snoc {log : List Action} {kind : Action → Bool} (h : ∀ a ∈ log, kind a)
    (ha : kind a) : ∀ b ∈ log ++ [a], kind b := by
  intro b hb
  rcases mem_append.1 hb with hb | hb
  · exact h b hb
  · rw [mem_singleton.1 hb]; exact ha

structure Opened (resp : HttpResponse) (st : Handler) : Prop where
  opening : ∀ a ∈ st.log, a.isOpening
  state : st = { log := st.log, resp, clockCalls := 1, activeConnections := 1 }

theorem Opened.emit (h : Opened resp st) (ha : a.isOpening) : Opened resp (st.emit a) := by
  refine ⟨forall_mem_snoc h.opening ha, ?_⟩
  rw [h.state]
  rfl

theorem Opened.returned (h : Opened resp st) (answer : HttpResponse) :
    LeftEarly { st with resp := answer }.returned := by
  refine ⟨h.opening, .inl ?_⟩
  rw [h.state]
  exact ⟨rfl, rfl⟩

theorem controlMedia_ok (h : controlMedia w req matched caller st = .ok st') : st' = st := by
  unfold controlMedia at h
  dsimp only at h
  split at h
  · cases h
  · cases h; rfl

theorem showMedia_eq (rj : RapidJson) (action : Bytes) (result : MediaOperationResult)
    (st : Handler) : ∃ answer, showMedia rj action result st = { st with resp := answer } := by
  unfold showMedia
  dsimp only
  split_ifs <;> exact ⟨_, rfl⟩

theorem showExisting_eq (rj : RapidJson) (existing : MediaOperationResult) (st : Handler) :
    ∃ answer, showExisting rj existing st = { st with resp := answer } := by
  unfold showExisting
  dsimp only
  split <;> exact ⟨_, rfl⟩

theorem controlMedia_error (ho : Opened resp st)
    (h : controlMedia w req matched caller st = .error st') : LeftEarly st' := by
  unfold controlMedia callMedia at h
  dsimp only at h
  split at h
  · cases h
    obtain ⟨answer, heq⟩ := showMedia_eq w.rj (mediaAction matched.operation) _ _
    rw [heq]; exact (ho.emit rfl).returned answer
  · cases h

theorem afterLookup_ok {rj : RapidJson} (h : afterLookup rj existing st = .ok st') : st' = st := by
  unfold afterLookup at h
  split_ifs at h
  cases h
  rfl

theorem afterLookup_error {rj : RapidJson} (ho : Opened resp st)
    (h : afterLookup rj existing st = .error st') : LeftEarly st' := by
  unfold afterLookup at h
  split_ifs at h
  · cases h
    obtain ⟨answer, heq⟩ := showExisting_eq rj existing st
    rw [heq]; exact ho.returned answer
  all_goals
    cases h
    exact ho.returned _

theorem lookupIdempotency_opened (ho : Opened resp st)
    (h : lookupIdempotency w req matched caller st = .ok st') : Opened resp st' := by
  unfold lookupIdempotency callMedia at h
  dsimp only at h
  split at h
  · rw [afterLookup_ok h]; exact ho.emit rfl
  · cases h; exact ho

theorem lookupIdempotency_error (ho : Opened resp st)
    (h : lookupIdempotency w req matched caller st = .error st') : LeftEarly st' := by
  unfold lookupIdempotency callMedia at h
  dsimp only at h
  split at h
  · exact afterLookup_error (ho.emit rfl) h
  · cases h

def Placed (resp : HttpResponse) (matched : MatchedCapability) (st : Handler) : Prop :=
  (∀ a ∈ st.log, a.isOpening) ∧ st =
    { log := st.log
      resp
      clockCalls := 1
      activeConnections := 1
      dispatchReq := st.dispatchReq
      lastUpstreamFormat := matched.spec.inboundFormat }

theorem Opened.placed (h : Opened resp st) (request : DispatchRequest) : Placed resp matched
      { st with dispatchReq := request, lastUpstreamFormat := matched.spec.inboundFormat } := by
  refine ⟨h.opening, ?_⟩
  rw [h.state]

theorem placeBody_placed (hp : Placed resp matched st) (h : placeBody w req st = .ok st') :
    Placed resp matched st' := by
  obtain ⟨ho, hs⟩ := hp
  unfold placeBody at h
  dsimp only at h
  split_ifs at h
  · cases h; exact ⟨forall_mem_snoc ho rfl, by rw [hs]; rfl⟩
  · cases h; exact ⟨ho, by rw [hs]⟩

theorem placeBody_error (hp : Placed resp matched st) (h : placeBody w req st = .error st') :
    LeftEarly st' := by
  obtain ⟨ho, hs⟩ := hp
  unfold placeBody at h
  dsimp only at h
  split_ifs at h
  cases h
  refine ⟨?_, .inl ?_⟩
  · exact forall_mem_snoc ho rfl
  · rw [hs]; exact ⟨rfl, rfl⟩

def Prepared (w : World) (req : HttpRequest) (resp : HttpResponse) (matched : MatchedCapability) :
    Except Handler (Context × Handler) → Prop
  | .ok (c, st) => Entered w req resp matched c st
  | .error st => LeftEarly st

theorem Prepared.bind {m : Handling} {k : Handler → Except Handler (Context × Handler)}
    (he : ∀ st, m = .error st → LeftEarly st)
    (hok : ∀ st, m = .ok st → Prepared w req resp matched (k st)) :
    Prepared w req resp matched (m >>= k) := by
  cases m with
  | ok st => exact hok st rfl
  | error st => exact he st rfl

theorem enterLoop_prepared (ho : Opened (withRequestId resp caller.requestId) st)
    (hc : caller.requestId = w.requestId req) {parsed : Converter.ParsedRequest}
    (hp : parseRequest w.rj req matched.spec = .ok parsed) :
    Prepared w req resp matched (enterLoop w req matched (w.now [] 0) caller parsed st) := by
  unfold enterLoop
  cases requestError w.rj req matched parsed with
  | some body => exact ho.returned _
  | none =>
    simp only
    refine Prepared.bind (fun st₁ h => placeBody_error (ho.placed _) h) ?_
    intro st₁ hpl
    obtain ⟨hop, hs⟩ := placeBody_placed (ho.placed _) hpl
    refine ⟨rfl, rfl, rfl, rfl, hc, hp, rfl, ?_, hop, ?_⟩
    · rw [hs]; rfl
    · rw [hs]; rfl

theorem prepare_prepared (w : World) (req : HttpRequest) (resp : HttpResponse)
    (matched : MatchedCapability) : Prepared w req resp matched (prepare w req resp matched) := by
  unfold prepare
  dsimp only
  set requestId := if req.requestId.isEmpty then
    hex64 (w.xxh64 (w.stamp (readClock w { resp, activeConnections := 1 }).1) 0) else req.requestId
  have ho : Opened (withRequestId resp requestId)
      ((readClock w { resp, activeConnections := 1 }).2.addHeader "X-Request-ID" requestId) :=
    ⟨forall_mem_nil _, rfl⟩
  split
  · exact ho.returned _
  · split
    · exact ho.returned _
    · refine Prepared.bind (fun st₁ h => controlMedia_error ho h) ?_
      intro st₁ hc
      have ho₁ : Opened (withRequestId resp requestId) st₁ := controlMedia_ok hc ▸ ho
      refine Prepared.bind (fun st₂ h => lookupIdempotency_error ho₁ h) ?_
      intro st₂ hl
      split
      · exact ⟨(lookupIdempotency_opened ho₁ hl).opening, .inr rfl⟩
      · next parsed hp =>
        exact enterLoop_prepared (lookupIdempotency_opened ho₁ hl) rfl hp

theorem entered_of_prepare {c : Context} (h : prepare w req resp matched = .ok (c, st)) :
    Entered w req resp matched c st := by
  have hp := prepare_prepared w req resp matched
  rw [h] at hp
  exact hp

theorem placeBody_ok (h : placeBody w req st = .ok st') (ha : ∀ a ∈ st.log, a.isAside) :
    st'.dispatchReq.requestId = st.dispatchReq.requestId ∧
      st'.dispatchReq.excludedAccounts = st.dispatchReq.excludedAccounts ∧
      ∀ a ∈ st'.log, a.isAside := by
  unfold placeBody at h
  dsimp only at h
  split_ifs at h <;> cases h
  · exact ⟨rfl, rfl, forall_mem_snoc ha rfl⟩
  · exact ⟨rfl, rfl, ha⟩

theorem prepare_ok {c : Context} (h : prepare w req resp matched = .ok (c, st)) :
    st.dispatchReq.requestId = c.requestId ∧ st.dispatchReq.excludedAccounts = ∅ ∧
      c.mediaRequestUsage =
        Converter.parseMediaRequest w.rj req.body req.contentType matched.operation ∧
      ∀ a ∈ st.log, a.isAside := by
  unfold prepare at h
  dsimp only at h
  split at h
  · cases h
  split at h
  · cases h
  obtain ⟨st₁, hc, h⟩ := bind_eq_ok h
  obtain ⟨st₂, hl, h⟩ := bind_eq_ok h
  rw [controlMedia_ok hc] at hl
  have ha : ∀ a ∈ st₂.log, a.isAside := by
    unfold lookupIdempotency callMedia at hl
    dsimp only at hl
    split at hl
    · rw [afterLookup_ok hl]
      refine forall_mem_snoc (forall_mem_nil _) ?_
      change decide (ascii "lookup_idempotency" ≠ ascii "attach" ∧
        ascii "lookup_idempotency" ≠ ascii "fail")
      decide
    · cases hl; exact forall_mem_nil _
  split at h
  · cases h
  next parsed _ =>
  unfold enterLoop at h
  cases he : requestError w.rj req matched parsed with
  | some body => rw [he] at h; cases h
  | none =>
    rw [he] at h
    obtain ⟨st₃, hp, h⟩ := bind_eq_ok h
    cases h
    obtain ⟨hid, hex, hpl⟩ := placeBody_ok hp ha
    exact ⟨hid, hex, rfl, hpl⟩

end

end Gateway.Server
