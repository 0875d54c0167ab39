import Gateway.Server.LeaseAccount

/-! # How much work a request can cause -/

namespace Gateway.Server

open Lib Dispatch Forwarder List

def Action.sleepUs : Action → Nat
  | .slept us => us.toNat
  | _ => 0

variable (log : List Action)

def sleptUs : Nat := (log.map Action.sleepUs).sum

@[simp] theorem sleptUs_append (more : List Action) :
    sleptUs (log ++ more) = sleptUs log + sleptUs more := by
  simp [sleptUs]

def World.SteadyClock (w : World) : Prop :=
  ∀ log more n m, n ≤ m → w.now log n + 1000 * sleptUs more ≤ w.now (log ++ more) m

theorem computeDelay_bounds (attempt : Nat) : 300 ≤ ({} : RetryPolicy).computeDelay attempt ∧
      ({} : RetryPolicy).computeDelay attempt ≤ 3000 := by
  have hl : 1 ≤ 2 ^ min attempt 10 := Nat.one_le_two_pow
  have hh : 2 ^ min attempt 10 ≤ 2 ^ 10 := Nat.pow_le_pow_right (by omega) (Nat.min_le_right ..)
  unfold RetryPolicy.computeDelay
  dsimp only
  rw [Nat.mod_eq_of_lt (by omega)]
  omega

theorem toNat_ofInt_mul {ms : Nat} (h : ms ≤ 3000) :
    (UInt64.ofInt (ms : Int) * 1000).toNat = ms * 1000 := by
  have hofNat : UInt64.ofInt (ms : Int) = UInt64.ofNat ms := by
    unfold UInt64.ofInt
    congr 1
    omega
  rw [hofNat, UInt64.toNat_mul, UInt64.toNat_ofNat']
  simp only [UInt64.toNat_ofNat]
  omega

def dispatchCalls : Nat := log.countP Action.isDispatch

def forwardCalls : Nat := log.countP Action.isForwarding

def Action.isWork (a : Action) : Bool := a.isDispatch || a.isForwarding

@[simp] theorem dispatchCalls_append (more : List Action) :
    dispatchCalls (log ++ more) = dispatchCalls log + dispatchCalls more :=
  countP_append ..

@[simp] theorem forwardCalls_append (more : List Action) :
    forwardCalls (log ++ more) = forwardCalls log + forwardCalls more :=
  countP_append ..

variable {more : List Action}

theorem calls_eq_zero (h : ∀ a ∈ more, a.isWork = false) :
    dispatchCalls more = 0 ∧ forwardCalls more = 0 := by
  simp only [dispatchCalls, forwardCalls, countP_eq_zero]
  refine ⟨?_, ?_⟩
  all_goals
    intro a ha hc
    have hi := h a ha
    simp [Action.isWork, hc] at hi

theorem isWork_eq_false {a : Action}
    (h : a.isQuiet ∨ a.isSettling ∨ a.isFollowUp ∨ a.isOpening) : a.isWork = false := by
  cases a with
  | dispatched request result => simp [Action.isQuiet, Action.isSettling, Action.isFollowUp,
      Action.isOpening] at h
  | forwarding lease target body => simp [Action.isQuiet, Action.isSettling, Action.isFollowUp,
      Action.isOpening] at h
  | _ => rfl

def Handler.counters (st : Handler) : Nat × Nat × Nat × Nat :=
  (st.dispatchRetrySequence, st.dispatchWaits, st.dispatchTransportRetries, st.clockCalls)

def Handler.rounds (st : Handler) : Nat :=
  st.dispatchRetrySequence + st.dispatchWaits + st.dispatchTransportRetries

structure Spent (c : Context) (d f : Nat) (st : Handler) : Prop where
  dispatches : dispatchCalls st.log = d + st.rounds
  forwards : forwardCalls st.log = f + st.dispatchRetrySequence
  attempts : st.dispatchRetrySequence ≤ 34
  waits : st.dispatchWaits ≤ 8
  retries : st.dispatchTransportRetries ≤ 8
  elapsed : ∀ more n, st.clockCalls ≤ n →
    c.start + 300000000 * st.dispatchRetrySequence ≤ c.world.now (st.log ++ more) n

def Bounded (log : List Action) : Prop := forwardCalls log ≤ 35 ∧ dispatchCalls log ≤ 51

variable {c : Context} {d f : Nat} {st st' : Handler}

theorem Bounded.append {log : List Action} (h : Bounded log) (hm : ∀ a ∈ more, a.isWork = false) :
    Bounded (log ++ more) := by
  obtain ⟨hd, hf⟩ := calls_eq_zero hm
  unfold Bounded
  rw [forwardCalls_append, dispatchCalls_append, hd, hf]
  exact h

theorem rounds_of_counters (h : st'.counters = st.counters) : st'.rounds = st.rounds := by
  simp only [Handler.counters, Prod.mk.injEq] at h
  obtain ⟨hs, hw, hr, -⟩ := h
  unfold Handler.rounds
  rw [hs, hw, hr]

theorem counters_calling (body : Bytes) (st : Handler) :
    (c.calling body st).counters = st.counters := by
  unfold Context.calling
  cases (c.outcome body st).responseStart <;> rfl

namespace Spent

theorem bounded (h : Spent c d f st) (hd : d ≤ 1) (hf : f ≤ 1) : Bounded st.log := by
  obtain ⟨hdi, hfo, ha, hw, hr, -⟩ := h
  unfold Handler.rounds at hdi
  unfold Bounded
  omega

theorem extend (h : Spent c d f st) (more : List Action) (hl : st'.log = st.log ++ more)
    (hm : ∀ a ∈ more, a.isWork = false) (hc : st'.counters = st.counters) : Spent c d f st' := by
  have hr : st'.rounds = st.rounds := rounds_of_counters hc
  simp only [Handler.counters, Prod.mk.injEq] at hc
  obtain ⟨hs, hw, hre, hcl⟩ := hc
  obtain ⟨hd, hf⟩ := calls_eq_zero hm
  refine ⟨?_, ?_, hs ▸ h.attempts, hw ▸ h.waits, hre ▸ h.retries, ?_⟩
  · rw [hl, dispatchCalls_append, hd, hr]; exact h.dispatches
  · rw [hl, forwardCalls_append, hf, hs]; exact h.forwards
  · intro rest n hn; rw [hl, append_assoc, hs]; exact h.elapsed _ n (hcl ▸ hn)

theorem dispatch (h : Spent c 0 f st) : Spent c 1 f (c.callDispatch st) := by
  have hl : (c.callDispatch st).log =
      st.log ++ [.dispatched st.dispatchReq (c.callDispatch st).dispatchResult] := rfl
  refine ⟨?_, ?_, h.attempts, h.waits, h.retries, ?_⟩
  · have hc := h.dispatches
    rw [Nat.zero_add] at hc
    rw [hl, dispatchCalls_append, hc]; exact Nat.add_comm ..
  · rw [hl, forwardCalls_append]; exact h.forwards
  · intro rest n hn; rw [hl, append_assoc]; exact h.elapsed _ n hn

theorem forward (h : Spent c d 0 st) (body : Bytes) : Spent c d 1 (c.calling body st) := by
  have hl := log_calling (c := c) body st
  have hr : (c.calling body st).rounds = st.rounds := rounds_of_counters (counters_calling body st)
  have hc := counters_calling (c := c) body st
  simp only [Handler.counters, Prod.mk.injEq] at hc
  obtain ⟨hs, hw, hre, hcl⟩ := hc
  refine ⟨?_, ?_, hs ▸ h.attempts, hw ▸ h.waits, hre ▸ h.retries, ?_⟩
  · rw [hl, dispatchCalls_append, hr]; exact h.dispatches
  · have hcalls := h.forwards
    rw [Nat.zero_add] at hcalls
    rw [hl, forwardCalls_append, hcalls, hs]; exact Nat.add_comm ..
  · intro rest n hn; rw [hl, append_assoc, hs]; exact h.elapsed _ n (hcl ▸ hn)

theorem pause (h : Spent c 1 0 st) (ms : Int) {waits retries reads : Nat}
    (hco : waits + retries = st.dispatchWaits + st.dispatchTransportRetries + 1)
    (hw : waits ≤ 8) (hr : retries ≤ 8) : Spent c 0 0 (Context.sleepMs ms { st with
      dispatchWaits := waits, dispatchTransportRetries := retries,
      clockCalls := st.clockCalls + reads }) := by
  set st' := Context.sleepMs ms { st with
    dispatchWaits := waits, dispatchTransportRetries := retries,
    clockCalls := st.clockCalls + reads }
  have hl : st'.log = st.log ++ [.slept (UInt64.ofInt ms * 1000)] := rfl
  refine ⟨?_, ?_, h.attempts, hw, hr, ?_⟩
  · have hc := h.dispatches
    have hro : st'.rounds = st.dispatchRetrySequence + waits + retries := rfl
    unfold Handler.rounds at hc
    rw [hl, dispatchCalls_append, hc, hro]
    change _ + 0 = _
    omega
  · rw [hl, forwardCalls_append]; exact h.forwards
  · intro rest n hn
    rw [hl, append_assoc]
    have hre : st.clockCalls + reads ≤ n := hn
    exact h.elapsed _ n (by omega)

theorem attempts_lt (h : Spent c d f st)
    (ht : c.elapsedMs (c.world.now st.log st.clockCalls) < 10000) :
    st.dispatchRetrySequence < 34 := by
  have he := h.elapsed [] st.clockCalls le_rfl
  rw [append_nil] at he
  have hp : 0 ≤ c.world.now st.log st.clockCalls - c.start := by omega
  unfold Context.elapsedMs Context.nsPerMs at ht
  rw [Int.tdiv_eq_ediv_of_nonneg hp] at ht
  omega

theorem retry (hc : c.world.SteadyClock) (h : Spent c 1 1 st)
    (ht : c.elapsedMs (c.world.now st.log st.clockCalls) < 10000) (error : ErrorReportData)
    (controller : FailoverController) :
    Spent c 0 0 (c.nextAttempt (c.abortFailed (c.reportError error
      { st with clockCalls := st.clockCalls + 1, failover := controller }))) := by
  set failed := c.abortFailed (c.reportError error
    { st with clockCalls := st.clockCalls + 1, failover := controller })
  obtain ⟨more, hm, hf⟩ : ∃ more, failed.log = st.log ++ more ∧
      ∀ a ∈ more, a.isFollowUp := by
    have hr : Appends Action.isFollowUp st
        { st with clockCalls := st.clockCalls + 1, failover := controller } := Appends.of_eq rfl rfl
          rfl
    exact ((hr.emit rfl).emit rfl).log
  obtain ⟨hd, hfo⟩ := calls_eq_zero fun a ha => isWork_eq_false (.inr (.inr (.inl (hf a ha))))
  set us := UInt64.ofInt (({} : RetryPolicy).computeDelay controller.switchCount : Int) * 1000
  have hus : 300000 ≤ us.toNat := by
    obtain ⟨hlo, hh⟩ := computeDelay_bounds controller.switchCount
    rw [toNat_ofInt_mul hh]; omega
  have hl : (c.nextAttempt failed).log = st.log ++ (more ++ [.slept us]) := by
    rw [← append_assoc, ← hm]; rfl
  have hs : (c.nextAttempt failed).dispatchRetrySequence = st.dispatchRetrySequence + 1 := rfl
  have hro : (c.nextAttempt failed).rounds = st.rounds + 1 := by
    unfold Handler.rounds
    rw [hs]
    change st.dispatchRetrySequence + 1 + st.dispatchWaits + st.dispatchTransportRetries = _
    omega
  refine ⟨?_, ?_, ?_, h.waits, h.retries, ?_⟩
  · rw [hl, dispatchCalls_append, dispatchCalls_append, hd, h.dispatches, hro]
    change 1 + st.rounds + (0 + 0) = _
    omega
  · rw [hl, forwardCalls_append, forwardCalls_append, hfo, h.forwards, hs]
    change 1 + st.dispatchRetrySequence + (0 + 0) = _
    omega
  · rw [hs]; exact h.attempts_lt ht
  · intro rest n hn
    have hr : st.clockCalls + 1 ≤ n := hn
    have hbefore := h.elapsed [] st.clockCalls le_rfl
    rw [append_nil] at hbefore
    have hsl := hc st.log (more ++ [.slept us] ++ rest) st.clockCalls n (by omega)
    have hp : 300000 ≤ sleptUs (more ++ [.slept us] ++ rest) := by
      rw [sleptUs_append, sleptUs_append]
      have hsi : sleptUs [.slept us] = us.toNat := rfl
      omega
    rw [hl, hs, append_assoc]
    push_cast
    omega

end Spent

inductive Spends (c : Context) (n : Nat) : Handling → Prop
  | again {st : Handler} (h : Spent c 0 0 st) (hrounds : st.rounds = n + 1) :
      Spends c n (.ok st)
  | left {st : Handler} (hbounded : Bounded st.log) (hexit : st.exit ≠ .running) :
      Spends c n (.error st)

theorem Spent.leave (h : Spent c d f st) (hd : d ≤ 1) (hf : f ≤ 1) (more : List Action)
    (hl : st'.log = st.log ++ more) (hm : ∀ a ∈ more, a.isWork = false)
    (he : st'.exit ≠ .running) (n : Nat) : Spends c n (.error st') := by
  refine .left ?_ he
  rw [hl]
  exact (h.bounded hd hf).append hm

theorem Spent.afterForward (hc : c.world.SteadyClock) (h : Spent c 1 1 st) :
    Spends c st.rounds (c.afterForward st) := by
  cases heq : c.afterForward st with
  | error st' =>
    obtain ⟨⟨⟨more, hl, hf⟩, -⟩, he⟩ := afterForward_error heq
    refine h.leave le_rfl le_rfl more hl ?_ (by simp [he]) _
    intro a ha; exact isWork_eq_false (.inr (.inr (.inl (hf a ha))))
  | ok st' =>
    obtain ⟨-, -, -, -, ht, error, controller, rfl⟩ := afterForward_ok heq
    refine .again (h.retry hc ht error controller) ?_
    change st.dispatchRetrySequence + 1 + st.dispatchWaits + st.dispatchTransportRetries =
      st.dispatchRetrySequence + st.dispatchWaits + st.dispatchTransportRetries + 1
    omega

theorem isWork_forwardEvidence {ack : RpcAck} {st : Handler} :
    ∀ a ∈ forwardEvidence ack st, a.isWork = false := by
  simp [forwardEvidence, Action.isWork, Action.isDispatch, Action.isForwarding]

theorem Spent.authorized (h : Spent c d f st) (ack : RpcAck) : Spent c d f (authorized ack st) := by
  refine h.extend _ rfl ?_ rfl
  simp [forwardEvidence, Action.isWork, Action.isDispatch, Action.isForwarding]

theorem Spent.called (h : Spent c d 0 st) (body : Bytes) (hm : ∀ a ∈ more, a.isWork = false) :
    Spent c d 1 (c.called body more st) := by
  refine (h.forward body).extend (more ++ [.forwarded ((c.calling body st).extend more).lease
    (c.outcome body st).result]) ?_ ?_ rfl
  · rw [← append_assoc]; rfl
  · intro a ha
    rcases mem_append.1 ha with ha | ha
    · exact hm a ha
    · rw [mem_singleton.1 ha]; rfl

theorem AttemptStep.spends {m : Handling} (hc : c.world.SteadyClock) (h : Spent c 1 0 st)
    (hs : AttemptStep c st m) : Spends c st.rounds m := by
  have hbou : Bounded st.log := h.bounded le_rfl zero_le_one
  have hq : ∀ {lease : Bytes} {more : List Action}, Quietly lease more →
      ∀ a ∈ more, a.isWork = false := fun hqu a ha => isWork_eq_false (.inl (hqu a ha).1)
  cases hs with
  | faulted hbo => exact .left hbou (by simp [Handler.faulted])
  | unconverted hbo => exact .left hbou (by simp [Context.conversionFailed, Handler.broke])
  | unstored hbo ht => exact .left hbou (by simp [Handler.threw])
  | unresolved hbo hack ht =>
    exact h.leave le_rfl zero_le_one _ rfl isWork_forwardEvidence (by simp [Handler.threw]) _
  | @unauthorized body ack hbo hack =>
    have hr : Spent c 1 0 (st.extend (forwardEvidence ack st)) :=
      h.extend _ rfl isWork_forwardEvidence rfl
    refine hr.leave le_rfl zero_le_one [_] rfl ?_
      (by simp [Context.evidenceUnavailable, Handler.broke]) _
    simp [Action.isWork, Action.isDispatch, Action.isForwarding]
  | threw hbo hack ht hp hthrew =>
    exact ((h.authorized _).forward _).leave le_rfl le_rfl _ rfl (hq hp.quietly)
      (by simp [Handler.threw]) _
  | @called body ack more hbo hack hp ho =>
    have hro : (c.called body more (authorized ack st)).rounds = st.rounds :=
      rounds_of_counters (counters_calling body (authorized ack st))
    rw [← hro]
    exact ((h.authorized ack).called body (hq hp.quietly)).afterForward hc

theorem Spent.round (hcl : c.world.SteadyClock) (h : Spent c 0 0 st) :
    Spends c st.rounds (c.round st) := by
  have hd : Spent c 1 0 (c.callDispatch st) := h.dispatch
  have hbo : Bounded (c.callDispatch st).log := hd.bounded le_rfl zero_le_one
  have hs := round_step c st
  generalize c.round st = m at hs
  cases hs with
  | retried hr hc =>
    refine .again (hd.pause _ ?_ h.waits hc) ?_
    · change st.dispatchWaits + (st.dispatchTransportRetries + 1) =
        st.dispatchWaits + st.dispatchTransportRetries + 1
      omega
    · change st.dispatchRetrySequence + st.dispatchWaits + (st.dispatchTransportRetries + 1) =
        st.dispatchRetrySequence + st.dispatchWaits + st.dispatchTransportRetries + 1
      omega
  | waited hw hc =>
    refine .again (hd.pause _ ?_ hc h.retries) ?_
    · change st.dispatchWaits + 1 + st.dispatchTransportRetries =
        st.dispatchWaits + st.dispatchTransportRetries + 1
      omega
    · change st.dispatchRetrySequence + (st.dispatchWaits + 1) + st.dispatchTransportRetries =
        st.dispatchRetrySequence + st.dispatchWaits + st.dispatchTransportRetries + 1
      omega
  | unavailable reads hr =>
    exact .left hbo (by simp [Context.platformUnavailable, Handler.answered,
      Handler.returned])
  | exhausted reads hw =>
    exact .left hbo (by simp [Context.noAccount, Handler.answered, Handler.returned])
  | refused hre hf hco =>
    exact .left hbo (by simp [Context.refuse, Handler.answered, Handler.returned])
  | repeated hre hco =>
    obtain ⟨resp, more, heq, ho⟩ := repeated_eq c (c.callDispatch st)
    rw [heq]
    refine hd.leave le_rfl zero_le_one more rfl ?_ (by simp [Handler.returned]) _
    intro a ha; exact isWork_eq_false (.inr (.inr (.inr (ho a ha))))
  | attempted hg hat =>
    obtain ⟨more, hl, hq, -⟩ := leased_eq c st
    have hsp : Spent c 1 0 (c.leased st) := by
      rw [hl]
      exact hd.extend more rfl (fun a ha => isWork_eq_false (.inl (hq a ha).1)) rfl
    have hro : (c.leased st).rounds = st.rounds := by rw [hl]; rfl
    rw [← hro]; exact hat.spends hcl hsp

theorem Spent.rounds (hc : c.world.SteadyClock) (fuel : Nat) (h : Spent c 0 0 st) :
    Bounded (c.rounds fuel st).log ∧
      (51 ≤ st.rounds + fuel → (c.rounds fuel st).exit ≠ .running) := by
  induction fuel generalizing st with
  | zero =>
    refine ⟨h.bounded zero_le_one zero_le_one, ?_⟩
    intro hf
    obtain ⟨-, -, ha, hw, hre, -⟩ := h
    unfold Handler.rounds at hf; omega
  | succ fuel ih =>
    have hr := h.round hc
    unfold Context.rounds
    generalize c.round st = m at hr
    cases hr with
    | again hs hro =>
      obtain ⟨hbo, hl⟩ := ih hs
      refine ⟨hbo, ?_⟩
      intro hf; exact hl (by omega)
    | left hbo he => exact ⟨hbo, fun _ => he⟩

theorem Spent.serve (hc : c.world.SteadyClock) (fuel : Nat) (h : Spent c 0 0 st) :
    Bounded (c.serve fuel st).log ∧
      (51 ≤ st.rounds + fuel → (c.serve fuel st).exit ≠ .running) := by
  obtain ⟨hbo, hl⟩ := h.rounds hc fuel
  unfold Context.serve
  dsimp only
  split
  · obtain ⟨more, hlo, hs⟩ := settle_log c (c.rounds fuel st)
    refine ⟨?_, fun _ => ?_⟩
    · rw [hlo]; exact hbo.append fun a ha => isWork_eq_false (.inr (.inl (hs a ha)))
    · rcases settle_cases c (c.rounds fuel st) with ⟨st', -, heq⟩ | ⟨-, -, he⟩
      · rw [heq]; simp [Handler.returned]
      · simp [he]
  · exact ⟨hbo, hl⟩

theorem Entered.spent {w : World} {req : HttpRequest} {resp : HttpResponse}
    {matched : MatchedCapability} (hc : w.SteadyClock) (h : Entered w req resp matched c st) :
    Spent c 0 0 st ∧ st.rounds = 0 := by
  obtain ⟨hd, hf⟩ := calls_eq_zero fun a ha => isWork_eq_false (.inr (.inr (.inr (h.opening a ha))))
  have hr : st.rounds = 0 := by rw [h.state]; rfl
  have hs : st.dispatchRetrySequence = 0 := by rw [h.state]
  refine ⟨⟨?_, ?_, ?_, ?_, ?_, ?_⟩, hr⟩
  · rw [hd, hr]
  · rw [hf, hs]
  · rw [hs]; exact Nat.zero_le _
  · rw [h.state]; exact Nat.zero_le _
  · rw [h.state]; exact Nat.zero_le _
  · intro more n _
    have hre := hc [] (st.log ++ more) 0 n (Nat.zero_le n)
    rw [nil_append] at hre
    rw [h.start, h.sameWorld, hs]
    push_cast
    omega

theorem handle_bounded (w : World) (hclock : w.SteadyClock) (req : HttpRequest)
    (resp : HttpResponse) (matched : MatchedCapability) (fuel : Nat) :
    forwardCalls (handle w req resp matched fuel).log ≤ 35 ∧
    dispatchCalls (handle w req resp matched fuel).log ≤ 51 ∧
    (51 ≤ fuel → (handle w req resp matched fuel).exit ≠ .running) := by
  have hprepared := prepare_prepared w req resp matched
  unfold handle
  cases hprepare : prepare w req resp matched with
  | error st =>
    rw [hprepare] at hprepared
    obtain ⟨hdispatches, hforwards⟩ := calls_eq_zero fun a ha =>
      isWork_eq_false (.inr (.inr (.inr (hprepared.opening a ha))))
    dsimp only
    refine ⟨by omega, by omega, fun _ => ?_⟩
    rcases hprepared.exit with ⟨hexit, -⟩ | hexit <;> simp [hexit]
  | ok entered =>
    obtain ⟨c, st⟩ := entered
    rw [hprepare] at hprepared
    obtain ⟨hspent, hrounds⟩ := Entered.spent hclock hprepared
    have hsteady : c.world.SteadyClock := hprepared.sameWorld ▸ hclock
    obtain ⟨⟨hforwards, hdispatches⟩, hleft⟩ := hspent.serve hsteady fuel
    refine ⟨hforwards, hdispatches, fun hfuel => hleft ?_⟩
    omega

def overloadedWorld : World :=
  { textWorld with
    now := fun log _ => 1000 * (sleptUs log : Int)
    transport := fun _ _ =>
      { call := .ok { statusCode := 503, headers := [("Content-Type", "application/json")] }
        surroundings := { clock := fun _ => 0, write := fun _ data => data.length } } }

theorem overloadedWorld_steadyClock : overloadedWorld.SteadyClock := by
  intro log more n m _
  simp only [overloadedWorld, sleptUs_append]
  push_cast
  omega

theorem overloaded_bounded : overloadedWorld.SteadyClock ∧
    forwardCalls (handle overloadedWorld (chatRequest "\"hi\"") {} chatCompletions 51).log ≤ 35 ∧
    dispatchCalls (handle overloadedWorld (chatRequest "\"hi\"") {} chatCompletions 51).log ≤ 51 ∧
    (handle overloadedWorld (chatRequest "\"hi\"") {} chatCompletions 51).exit ≠ .running := by
  obtain ⟨hforwards, hdispatches, hleft⟩ := handle_bounded overloadedWorld
    overloadedWorld_steadyClock (chatRequest "\"hi\"") {} chatCompletions 51
  exact ⟨overloadedWorld_steadyClock, hforwards, hdispatches, hleft le_rfl⟩

end Gateway.Server
