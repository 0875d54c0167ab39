import Gateway.Server.RealtimeCaps

/-! # The settlement of a realtime session -/

namespace Gateway.Server.Realtime

open Lib Dispatch List

def isSettlementOf (token : Bytes) : Action → Bool
  | .aborted lease _ _ _ _ => lease = token
  | .recordedUsage event => event.leaseToken = token
  | _ => false

def settlements (token : Bytes) (log : List Effect) : Nat :=
  (actions log).countP (isSettlementOf token)

variable {log' : List Effect} {r : DispatchResult}

section

variable {token : Bytes} {log : List Effect}

theorem actions_append (log more : List Effect) :
    actions (log ++ more) = actions log ++ actions more := filterMap_append

theorem settlements_append (token : Bytes) (log more : List Effect) :
    settlements token (log ++ more) = settlements token log + settlements token more := by
  rw [settlements, actions_append, countP_append]
  rfl

def Effect.isAside : Effect → Bool
  | .platform (.aborted _ _ _ _ _) | .platform (.recordedUsage _) | .platform (.dispatched _ _) =>
    false
  | _ => true

theorem isSettlementOf_of_isAside {e : Effect} {a : Action} (h : e.isAside)
    (ha : e = .platform a) : isSettlementOf token a = false := by
  subst ha
  cases a <;> first | rfl | cases h

abbrev GrowsAside (log log' : List Effect) : Prop := GrowsBy (·.isAside) log log'

theorem GrowsAside.refl (log : List Effect) : GrowsAside log log := GrowsBy.refl log

theorem GrowsAside.emit (h : GrowsAside log log') {e : Effect} (he : e.isAside) :
    GrowsAside log (log' ++ [e]) := h.snoc he

theorem GrowsAside.settlements_eq (h : GrowsAside log log') (token : Bytes) :
    settlements token log' = settlements token log := by
  obtain ⟨more, rfl, hm⟩ := h
  rw [settlements_append, Nat.add_eq_left, settlements, countP_eq_zero]
  intro a ha
  obtain ⟨e, he, hea⟩ := mem_filterMap.1 ha
  have hp : e = .platform a := by
    cases e <;> first | exact congrArg Effect.platform (Option.some.inj hea) | cases hea
  rw [isSettlementOf_of_isAside (hm e he) hp]
  exact Bool.false_ne_true

theorem GrowsAside.dispatched (h : GrowsAside log log') {request : DispatchRequest}
    (hm : Action.dispatched request r ∈ actions log') :
    Action.dispatched request r ∈ actions log := by
  obtain ⟨more, rfl, hmore⟩ := h
  rw [actions_append, mem_append] at hm
  refine hm.resolve_right fun hm => ?_
  obtain ⟨e, he, hea⟩ := mem_filterMap.1 hm
  have hp : e = .platform (.dispatched request r) := by
    cases e <;> first | exact congrArg Effect.platform (Option.some.inj hea) | cases hea
  have := hmore e he
  rw [hp] at this
  cases this

structure Unleased (log : List Effect) : Prop where
  unsettled : ∀ token, settlements token log = 0
  refused : ∀ request r, Action.dispatched request r ∈ actions log → isLease r = false

structure Leased (n : Nat) (dispatched : DispatchResult) (log : List Effect) : Prop where
  settled : settlements dispatched.leaseToken log = n
  only : ∀ request r, Action.dispatched request r ∈ actions log → isLease r = true → r = dispatched

theorem unleased_nil : Unleased [] := ⟨fun _ => rfl, fun _ _ h => by cases h⟩

theorem Unleased.aside (h : Unleased log) (hg : GrowsAside log log') : Unleased log' :=
  ⟨fun token => (hg.settlements_eq token).trans (h.unsettled token),
    fun request r hm => h.refused request r (hg.dispatched hm)⟩

theorem Unleased.dispatch (h : Unleased log) (request : DispatchRequest) (r : DispatchResult) :
    Leased 0 r (log ++ [.platform (.dispatched request r)]) := by
  refine ⟨?_, fun request' r' hm hl => ?_⟩
  · rw [settlements_append, h.unsettled]; rfl
  · rw [actions_append, mem_append] at hm
    rcases hm with hm | hm
    · rw [h.refused request' r' hm] at hl; cases hl
    · have heq : Action.dispatched request' r' = .dispatched request r := by
        simpa [actions] using hm
      exact (Action.dispatched.inj heq).2

variable {n : Nat} {dispatched : DispatchResult}

theorem Leased.aside (h : Leased n dispatched log) (hg : GrowsAside log log') :
    Leased n dispatched log' :=
  ⟨(hg.settlements_eq _).trans h.settled,
    fun request r hm => h.only request r (hg.dispatched hm)⟩

theorem Leased.settle (h : Leased n dispatched log) {a : Action}
    (ha : isSettlementOf dispatched.leaseToken a) :
    Leased (n + 1) dispatched (log ++ [.platform a]) := by
  refine ⟨?_, fun request r hm => ?_⟩
  · rw [settlements_append, h.settled]; simp [settlements, actions, ha]
  · rw [actions_append, mem_append] at hm
    refine h.only request r (hm.resolve_right fun hm => ?_)
    have heq : Action.dispatched request r = a := by simpa [actions] using hm
    rw [← heq] at ha; cases ha

end

variable {first : FirstEvent}

section

variable {w : World} {o : Outside} {req : HttpRequest} {b : Bridge}

theorem Unleased.refuse {log : List Effect} (h : Unleased log) (request : DispatchRequest)
    (hr : isLease r = false) : Unleased (log ++ [.platform (.dispatched request r)]) := by
  refine ⟨fun token => ?_, fun request' r' hm => ?_⟩
  · rw [settlements_append, h.unsettled]; rfl
  · by_contra hl
    rw [(h.dispatch request r).only request' r' hm (by simpa using hl), hr] at hl
    exact hl rfl

theorem dispatchLoop_spec (w : World) (request : DispatchRequest) (deadline : Int) :
    ∀ (retries : Nat) {b : Bridge}, Unleased b.log →
      Leased 0 (dispatchLoop w request deadline retries b).1
          (dispatchLoop w request deadline retries b).2.log ∧
        (isLease (dispatchLoop w request deadline retries b).1 = false →
          Unleased (dispatchLoop w request deadline retries b).2.log) := by
  intro retries
  induction retries with
  | zero =>
    intro b h
    unfold dispatchLoop
    dsimp only
    have hl := h.dispatch request (w.dispatch (actions b.log) request)
    split
    · exact ⟨hl, fun hr => h.refuse request hr⟩
    · exact ⟨hl, fun hr => h.refuse request hr⟩
  | succ retries ih =>
    intro b h
    unfold dispatchLoop
    dsimp only
    have hl := h.dispatch request (w.dispatch (actions b.log) request)
    split
    · exact ⟨hl, fun hr => h.refuse request hr⟩
    · next ha =>
      split
      · exact ⟨hl, fun hr => h.refuse request hr⟩
      · apply ih
        have hr : isLease (w.dispatch (actions b.log) request) = false := by
          cases hle : isLease (w.dispatch (actions b.log) request) with
          | false => rfl
          | true => exact absurd (by rw [hle]; rfl) ha
        exact (h.refuse request hr).aside ((GrowsAside.refl _).emit rfl)

theorem refuse_grows (message : Option Bytes) (code : CloseCode) (reason : Bytes) (b : Bridge) :
    GrowsAside b.log (b.refuse message code reason).log := by
  cases message with
  | none => exact (GrowsAside.refl _).emit rfl
  | some text => exact ((GrowsAside.refl _).emit (e := .toClient .text text) rfl).emit rfl

theorem readFirst_error {b : Bridge} (h : readFirst o req = .error b) : Unleased b.log := by
  have hr : ∀ message code reason,
      Unleased (Bridge.refuse message code reason {}).log := fun message code reason =>
    unleased_nil.aside (refuse_grows message code reason {})
  unfold readFirst at h
  repeat' first | split at h | dsimp only at h
  all_goals cases h
  all_goals first | exact hr _ _ _ | exact unleased_nil

theorem dispatchSession_error {b : Bridge} (h : dispatchSession o.world req first = .error b) :
    Unleased b.log := by
  unfold dispatchSession at h
  dsimp only at h
  split at h
  · cases h
  · next hr =>
    cases h
    exact ((dispatchLoop_spec _ _ _ 8 unleased_nil).2 (by simpa using hr)).aside
      (refuse_grows _ _ _ _)

theorem dispatchSession_ok {caller : Caller} {dispatched : DispatchResult} {b : Bridge}
    (h : dispatchSession o.world req first = .ok (caller, dispatched, b)) :
    Leased 0 dispatched b.log := by
  unfold dispatchSession at h
  dsimp only at h
  split at h
  · cases h; exact (dispatchLoop_spec _ _ _ 8 unleased_nil).1
  · cases h

theorem recordEvidence_grows (w : World) (lease : Bytes) (stage : LeaseEvidenceStage)
    (detail : Bytes) (log : List Effect) :
    GrowsAside log (recordEvidence w lease stage detail log).2 := by
  unfold recordEvidence
  dsimp only
  split
  · exact (((GrowsAside.refl _).emit rfl).emit rfl).emit rfl
  · exact ((GrowsAside.refl _).emit rfl).emit rfl

variable {dispatched : DispatchResult}

theorem Leased.abort {n : Nat} (h : Leased n dispatched b.log) (reason : Bytes)
    (disposition : LeaseAbortDisposition) :
    Leased (n + 1) dispatched (b.abort w dispatched.leaseToken reason disposition).log :=
  h.settle (by simp [isSettlementOf])

theorem Leased.turnedAway (h : Leased 0 dispatched b.log) (reason : Bytes)
    (disposition : LeaseAbortDisposition) (message : Option Bytes) (code : CloseCode)
    (closing : Bytes) : Leased 1 dispatched
      ((b.abort w dispatched.leaseToken reason disposition).refuse message code closing).log :=
  (h.abort reason disposition).aside (refuse_grows message code closing _)

def OpensOrSettles (dispatched : DispatchResult) : Except Bridge Bridge → Prop
  | .error b => Leased 1 dispatched b.log
  | .ok b => Leased 0 dispatched b.log

theorem openUpstream_spec (o : Outside) (req : HttpRequest) (first : Frame)
    (h : Leased 0 dispatched b.log) :
    OpensOrSettles dispatched (openUpstream o req first dispatched b) := by
  have hr := h.aside (recordEvidence_grows o.world dispatched.leaseToken .forwarded
    "realtime Provider handshake authorized" b.log)
  have hs := hr.aside ((GrowsAside.refl _).emit
    (e := .toProvider first.opcode first.payload) rfl)
  unfold openUpstream
  dsimp only
  split
  · exact h.turnedAway _ _ _ _ _
  · split
    · exact h.turnedAway _ _ _ _ _
    · split
      · exact Leased.turnedAway (b := { b with log := _ }) hr _ _ _ _ _
      · split
        · exact Leased.turnedAway (b := { b with log := _ }) hr _ _ _ _ _
        · split
          · exact ((Leased.abort (b := { b with log := _ }) hs _ _).aside
              ((GrowsAside.refl _).emit rfl)).aside (refuse_grows _ _ _ _)
          · exact hs

theorem openSession_ok {opened : Opened} (h : openSession o req = .ok opened) :
    Leased 0 opened.dispatched opened.bridge.log := by
  obtain ⟨first, -, h⟩ := bind_eq_ok h
  obtain ⟨⟨caller, dispatched, b⟩, hd, h⟩ := bind_eq_ok h
  obtain ⟨bridge, ho, h⟩ := bind_eq_ok h
  cases h
  have hs := openUpstream_spec o req first.frame (dispatchSession_ok hd)
  rw [ho] at hs
  exact hs

theorem openSession_error {b : Bridge} (h : openSession o req = .error b) :
    Unleased b.log ∨ ∃ dispatched, Leased 1 dispatched b.log := by
  unfold openSession at h
  cases hf : readFirst o req with
  | error b' => rw [hf] at h; cases h; exact .inl (readFirst_error hf)
  | ok first =>
    rw [hf] at h
    change (dispatchSession o.world req first >>= _) = _ at h
    cases hd : dispatchSession o.world req first with
    | error b' => rw [hd] at h; cases h; exact .inl (dispatchSession_error hd)
    | ok taken =>
      obtain ⟨caller, dispatched, b'⟩ := taken
      rw [hd] at h
      have hs := openUpstream_spec o req first.frame (dispatchSession_ok hd)
      change (openUpstream o req first.frame dispatched b' >>= _) = _ at h
      cases ho : openUpstream o req first.frame dispatched b' with
      | error b'' => rw [ho] at h hs; cases h; exact .inr ⟨dispatched, hs⟩
      | ok bridge => rw [ho] at h; cases h

end

variable {s : Session} {side : Side}

section

variable (c : Context)

theorem log_goto (s : Session) (side : Side) (pc : Pc) : (s.goto side pc).log = s.log := by
  cases side <;> rfl

theorem step_grows (s : Session) (e : Event) : GrowsAside s.log (step c s e).log := by
  have hs := GrowsAside.refl s.log
  unfold step
  split
  · rw [log_goto]; exact hs
  · unfold receive
    split
    · rw [log_goto]; exact hs
    · rw [log_goto]; exact hs
    · rw [log_goto]; exact hs
    · split <;> rw [log_goto] <;> exact hs
  · rw [log_goto]; exact hs
  · rw [log_goto]; exact hs
  · rw [log_goto]; exact hs
  · rw [log_goto]; exact hs
  · rw [log_goto]; exact hs
  · rw [log_goto]; exact hs
  · unfold send
    split
    · split
      · rw [log_goto]
        split <;> exact hs.emit rfl
      · rw [log_goto]; exact hs.emit rfl
    · rw [log_goto]; exact hs
  · unfold outputEvidence
    split
    · rw [log_goto]; exact hs
    · rw [log_goto]; exact recordEvidence_grows _ _ _ _ _
  · rw [log_goto]
    cases e.side <;> exact hs.emit rfl
  · exact hs

theorem run_leased {dispatched : DispatchResult} {n : Nat} (events : List Event)
    (h : Leased n dispatched s.log) : Leased n dispatched (run c events s).log := by
  induction events generalizing s with
  | nil => exact h
  | cons e events ih => exact ih (h.aside (step_grows c s e))

def overruns (s : Session) (e : Event) : Bool :=
  match s.pc e.side with
  | .added _ total elapsedMs => c.caps.areExceeded total s.frames elapsedMs
  | _ => false

def someOverrun : List Event → Session → Bool
  | [], _ => false
  | e :: events, s => overruns c s e || someOverrun events (step c s e)

def Pc.isExceeded : Pc → Bool
  | .exceeded _ => true
  | _ => false

def isFlagged (s : Session) : Bool :=
  s.sessionCapExceeded || s.upstream.isExceeded || s.client.isExceeded

theorem isFlagged_goto (s : Session) (side : Side) (pc : Pc) : isFlagged (s.goto side pc) =
      (s.sessionCapExceeded || pc.isExceeded || (s.pc side.other).isExceeded) := by
  cases side
  · rfl
  · exact Bool.or_right_comm s.sessionCapExceeded s.upstream.isExceeded pc.isExceeded

theorem isFlagged_side (s : Session) (side : Side) : isFlagged s =
      (s.sessionCapExceeded || (s.pc side).isExceeded || (s.pc side.other).isExceeded) := by
  cases side
  · rfl
  · exact isFlagged_goto s .client s.client

theorem isFlagged_aside {s' : Session} {pc : Pc} (hr : s'.sessionCapExceeded = s.sessionCapExceeded)
    (ho : s'.pc side.other = s.pc side.other) (hm : (s.pc side).isExceeded = false)
    (hpc : pc.isExceeded = false) : isFlagged (s'.goto side pc) = isFlagged s := by
  rw [isFlagged_goto, isFlagged_side s side, hr, ho, hm, hpc]

theorem receive_isFlagged (hpc : (s.pc side).isExceeded = false) (received : Received) :
    isFlagged (receive side received s) = isFlagged s := by
  unfold receive
  split
  · exact isFlagged_aside rfl rfl hpc rfl
  · exact isFlagged_aside rfl rfl hpc (by split <;> rfl)
  · exact isFlagged_aside rfl rfl hpc rfl
  · split
    · exact isFlagged_aside rfl rfl hpc rfl
    · exact isFlagged_aside rfl rfl hpc (by split <;> rfl)

theorem send_isFlagged (hpc : (s.pc side).isExceeded = false) (f : Frame) (sends : Bool) :
    isFlagged (send c side f sends s) = isFlagged s := by
  unfold send
  split
  · split
    · dsimp only
      split
      · exact isFlagged_aside rfl rfl hpc (by cases sends <;> rfl)
      · exact isFlagged_aside rfl rfl hpc (by cases sends <;> rfl)
    · exact isFlagged_aside rfl rfl hpc rfl
  · exact isFlagged_aside rfl rfl hpc rfl

theorem step_isFlagged (s : Session) (e : Event) :
    isFlagged (step c s e) = (isFlagged s || overruns c s e) := by
  unfold step overruns
  cases hpc : s.pc e.side with
  | added f total elapsedMs =>
    dsimp only
    rw [isFlagged_goto, isFlagged_side s e.side, hpc]
    cases c.caps.areExceeded total s.frames elapsedMs <;>
      cases s.sessionCapExceeded <;> cases (s.pc e.side.other).isExceeded <;> rfl
  | exceeded f =>
    dsimp only
    rw [isFlagged_goto, isFlagged_side s e.side, hpc]
    cases s.sessionCapExceeded <;> cases (s.pc e.side.other).isExceeded <;> rfl
  | head =>
    rw [Bool.or_false]
    exact isFlagged_aside rfl rfl (by rw [hpc]; rfl) (by split <;> rfl)
  | receiving => rw [Bool.or_false]; exact receive_isFlagged (by rw [hpc]; rfl) e.received
  | tested f =>
    rw [Bool.or_false]
    exact isFlagged_aside rfl rfl (by rw [hpc]; rfl) (by split <;> rfl)
  | sending f => rw [Bool.or_false]; exact send_isFlagged c (by rw [hpc]; rfl) f e.sends
  | sent =>
    rw [Bool.or_false]
    dsimp only
    unfold outputEvidence
    split <;> exact isFlagged_aside rfl rfl (by rw [hpc]; rfl) rfl
  | ended => exact (Bool.or_false _).symm
  | received f | counted f | capped f | leaving =>
    rw [Bool.or_false]
    exact isFlagged_aside rfl (by cases e.side <;> rfl) (by rw [hpc]; rfl) rfl

theorem run_isFlagged (events : List Event) (s : Session) :
    isFlagged (run c events s) = (isFlagged s || someOverrun c events s) := by
  induction events generalizing s with
  | nil => exact (Bool.or_false _).symm
  | cons e events ih =>
    change isFlagged (run c events (step c s e)) = _
    rw [ih, step_isFlagged, Bool.or_assoc]; rfl

theorem run_capExceeded {events : List Event} {first : Frame} {b : Bridge}
    (hu : (run c events (startSession first b)).upstream = .ended)
    (hc : (run c events (startSession first b)).client = .ended) :
    (run c events (startSession first b)).sessionCapExceeded =
      someOverrun c events (startSession first b) := by
  have h := run_isFlagged c events (startSession first b)
  rw [isFlagged, hu, hc] at h
  simpa [isFlagged, Pc.isExceeded, startSession] using h

end

def staysWithinCaps (o : Outside) (req : HttpRequest) (events : List Event) : Bool :=
  match openSession o req with
  | .error _ => true
  | .ok opened => !someOverrun (opened.context o) events (startSession opened.first opened.bridge)

theorem settle_leased (w : World) (caller : Caller) {dispatched : DispatchResult}
    (h : Leased 0 dispatched s.log) :
    Leased (if s.sessionCapExceeded then 2 else 1) dispatched (settle w caller dispatched
      s).log := by
  have hu : ∀ {n : Nat} {log : List Effect} (event : Usage.UsageEvent),
      event.leaseToken = dispatched.leaseToken → Leased n dispatched log →
        Leased (n + 1) dispatched (log ++ [.platform (.recordedUsage event)]) :=
    fun event ht hl => hl.settle (decide_eq_true ht)
  unfold settle
  dsimp only
  split
  · exact hu _ rfl (Leased.abort (b := { log := s.log, clockCalls := _ }) h _ _)
  · exact hu _ rfl h

theorem bridgeRealtime_settles_iff (o : Outside) (req : HttpRequest) (events : List Event)
    (hreturned : (bridgeRealtime o req events).exit = .returned) {request : DispatchRequest}
    {result : DispatchResult}
    (hlease : Action.dispatched request result ∈ actions (bridgeRealtime o req events).log)
    (hgranted : isLease result = true) :
    settlements result.leaseToken (bridgeRealtime o req events).log = 1 ↔
      staysWithinCaps o req events = true := by
  unfold bridgeRealtime at *
  unfold staysWithinCaps
  cases hopen : openSession o req with
  | error b =>
    rw [hopen] at hlease
    dsimp only at hlease ⊢
    rcases openSession_error hopen with hunleased | ⟨dispatched, hleased⟩
    · rw [hunleased.refused _ _ hlease] at hgranted; cases hgranted
    · rw [hleased.only _ _ hlease hgranted]; exact ⟨fun _ => rfl, fun _ => hleased.settled⟩
  | ok opened =>
    rw [hopen] at hlease hreturned
    dsimp only at hlease hreturned ⊢
    set s := run (opened.context o) events (startSession opened.first opened.bridge) with hs
    split at hreturned
    · next hended =>
      rw [if_pos hended] at hlease ⊢
      have hleased := settle_leased o.world opened.caller
        (run_leased (opened.context o) events (openSession_ok hopen) :
          Leased 0 opened.dispatched s.log)
      rw [run_capExceeded (opened.context o) hended.1 hended.2] at hleased
      rw [hleased.only _ _ hlease hgranted, hleased.settled]
      cases someOverrun (opened.context o) events (startSession opened.first opened.bridge) <;>
        decide
    · cases hreturned

def helloText : Bytes := "\x7b\"model\":\"m\"\x7d"

def hello : Frame := ⟨.text, helloText, by decide⟩

def reachable (caps : Caps) : Outside where
  world := refusingProvider (.ofTable [(helloText, .object [("model", .str "m")])] [])
    { platform := "openai", baseUrl := "wss://provider" }
  caps
  first := .frame hello
  hasHttpClient := true
  connects _ := true
  initialSend := true

def realtimeRequest : HttpRequest where
  method := "GET"
  path := "/v1/realtime"
  xApiKey := "key"
  requestId := "request-1"

def clientLeaves : List Event :=
  [{ side := .client }, { side := .client }, { side := .client }, { side := .upstream },
    { side := .upstream }]

def isGrantOf (token : Bytes) : Action → Bool
  | .dispatched _ result => isLease result && result.leaseToken = token
  | _ => false

theorem client_leaves_settled :
    settlements "lease-1" (bridgeRealtime (reachable {}) realtimeRequest clientLeaves).log = 1 := by
  obtain ⟨hreturned, hwithin, hgrant⟩ :
      (bridgeRealtime (reachable {}) realtimeRequest clientLeaves).exit = .returned ∧
      staysWithinCaps (reachable {}) realtimeRequest clientLeaves ∧
      (actions (bridgeRealtime (reachable {}) realtimeRequest clientLeaves).log).any
        (isGrantOf "lease-1") := by
    decide +kernel
  obtain ⟨a, hmem, ha⟩ := any_eq_true.1 hgrant
  cases a with
  | dispatched request result =>
    simp only [isGrantOf, Bool.and_eq_true, decide_eq_true_eq] at ha
    rw [← ha.2]
    exact (bridgeRealtime_settles_iff (reachable {}) realtimeRequest clientLeaves hreturned hmem
      ha.1).2 hwithin
  | _ => cases ha

def providerOverruns : List Event :=
  [{ side := .upstream }, { side := .upstream, received := .frame oneByte }, { side := .upstream },
    { side := .upstream }, { side := .upstream }, { side := .upstream }, { side := .upstream },
    { side := .upstream }, { side := .upstream }, { side := .client }, { side := .client }]

def isSafeAbort : Action → Bool
  | .aborted _ _ disposition _ _ => disposition = .safe
  | _ => false

theorem overrun_settled_twice :
    (bridgeRealtime (reachable { sessionFrames := 1 }) realtimeRequest providerOverruns).exit =
        .returned ∧
      settlements "lease-1"
        (bridgeRealtime (reachable { sessionFrames := 1 }) realtimeRequest providerOverruns).log =
          2 ∧
      (actions (bridgeRealtime (reachable { sessionFrames := 1 }) realtimeRequest
        providerOverruns).log).any isSafeAbort := by
  decide +kernel

end Gateway.Server.Realtime
