import Gateway.Server.GatewayErrorRun
import Gateway.Server.StoreFailure
import Gateway.Server.WorkBound

/-! # The pauses of the dispatch loop -/

namespace Gateway.Server

open Lib Dispatch Forwarder Handler List

def Action.slept? : Action → Option UInt64
  | .slept us => some us
  | _ => none

def Round.pauses (round : Round) : List UInt64 :=
  if round.opening.granted then [] else round.body.filterMap Action.slept?

def dispatchPauses (log : List Action) : List UInt64 := (dispatches log).flatMap Round.pauses

def ShortPauses (log : List Action) : Prop := ∀ us ∈ dispatchPauses log, us.toNat ≤ 1000000

instance (log : List Action) : Decidable (ShortPauses log) :=
  decidableBAll (fun us : UInt64 => us.toNat ≤ 1000000) (dispatchPauses log)

variable {remainingNs : Int}

theorem tdiv_nsPerMs_of_neg (h : remainingNs < 0) :
    remainingNs.tdiv Context.nsPerMs = -(-remainingNs / 1000000) := by
  have hn : remainingNs = -(-remainingNs) := by omega
  rw [hn, Int.neg_tdiv, Int.tdiv_eq_ediv_of_nonneg (by omega)]
  simp [Context.nsPerMs]

theorem long_of_neg {ms : Int} (hl : -2 ^ 46 ≤ ms) (hn : ms < 0) :
    1000000 < (UInt64.ofInt ms * 1000).toNat := by
  obtain ⟨k, rfl⟩ : ∃ k : Nat, ms = -(k : Int) := ⟨ms.natAbs, by omega⟩
  have hw : (-(k : Int) % 2 ^ 64).toNat = 2 ^ 64 - k := by omega
  have hp : (2 ^ 64 - k) * 1000 = (2 ^ 64 - 1000 * k) + 999 * 2 ^ 64 := by omega
  rw [UInt64.toNat_mul, UInt64.ofInt, UInt64.toNat_ofNat', hw,
    Nat.mod_eq_of_lt (show 2 ^ 64 - k < 2 ^ 64 by omega)]
  change 1000000 < (2 ^ 64 - k) * 1000 % 2 ^ 64
  rw [hp, Nat.add_mul_mod_self_right, Nat.mod_eq_of_lt (by omega)]
  omega

theorem waitMs_short_iff (waitTimeoutMs : Int) (h : -2 ^ 65 < remainingNs) :
    (UInt64.ofInt (Context.waitMs waitTimeoutMs remainingNs) * 1000).toNat ≤ 1000000 ↔
      -Context.nsPerMs < remainingNs := by
  unfold Context.waitMs
  constructor
  · intro hs
    by_contra hl
    rw [Context.nsPerMs] at hl
    rw [tdiv_nsPerMs_of_neg (by omega)] at hs
    have hlo : 1000000 < (UInt64.ofInt
        (min (max waitTimeoutMs 1) (min 1000 (-(-remainingNs / 1000000)))) * 1000).toNat :=
      long_of_neg (by omega) (by omega)
    omega
  · intro hle
    rw [Context.nsPerMs] at hle
    have hno : 0 ≤ remainingNs.tdiv Context.nsPerMs := by
      by_cases hn : remainingNs < 0
      · rw [tdiv_nsPerMs_of_neg hn]; omega
      · exact Int.tdiv_nonneg (by omega) (by decide)
    obtain ⟨ms, hms⟩ := Int.eq_ofNat_of_zero_le
      (a := min (max waitTimeoutMs 1) (min 1000 (remainingNs.tdiv Context.nsPerMs))) (by omega)
    rw [hms, toNat_ofInt_mul (by omega)]; omega

theorem platformDispatchRetryDelayMs_le (retries : Nat) :
    platformDispatchRetryDelayMs retries ≤ 1000 := by
  unfold platformDispatchRetryDelayMs
  split
  · decide
  · exact Nat.min_le_left _ _

def World.Clock64 (w : World) : Prop := ∀ log n, -2 ^ 63 ≤ w.now log n ∧ w.now log n < 2 ^ 63

variable {more : List Action}

section

variable {c : Context} {st st' : Handler}

def Context.Overtaken (c : Context) (st : Handler) : Prop :=
  let log := (c.callDispatch st).log
  (c.callDispatch st).dispatchResult.outcome = .wait ∧ st.dispatchWaits < 8 ∧
    c.world.now log st.clockCalls < c.dispatchDeadline ∧
    c.dispatchDeadline + Context.nsPerMs ≤ c.world.now log (st.clockCalls + 1)

instance (c : Context) (st : Handler) : Decidable (c.Overtaken st) :=
  inferInstanceAs (Decidable (_ ∧ _ ∧ _ ∧ _))

abbrev GrowsUndispatched (log log' : List Action) : Prop :=
  GrowsBy (·.isDispatch = false) log log'

theorem GrowsUndispatched.refl (log : List Action) : GrowsUndispatched log log := GrowsBy.refl log

theorem afterForward_undispatched (st : Handler) :
    GrowsUndispatched st.log (stateOf (c.afterForward st)).log := by
  cases heq : c.afterForward st with
  | ok st' =>
    obtain ⟨-, -, -, -, -, error, controller, rfl⟩ := afterForward_ok heq
    exact (((GrowsUndispatched.refl st.log).snoc rfl).snoc rfl).snoc rfl
  | error st' =>
    obtain ⟨⟨⟨more, hl, hf⟩, -⟩, -⟩ := afterForward_error heq
    change GrowsUndispatched st.log st'.log
    rw [hl]
    refine (GrowsUndispatched.refl _).append ?_
    intro a ha
    have hk := hf a ha
    cases a with
    | dispatched request result => cases hk
    | _ => rfl

theorem AttemptStep.undispatched {m : Handling} (h : AttemptStep c st m) :
    GrowsUndispatched st.log (stateOf m).log := by
  have hg : ∀ ack, GrowsUndispatched st.log (st.extend (forwardEvidence ack st)).log := by
    intro ack
    exact (GrowsUndispatched.refl _).append (by simp [forwardEvidence, Action.isDispatch])
  have hc : ∀ ack body more, Quietly st.lease more →
      GrowsUndispatched st.log ((c.calling body (authorized ack st)).extend more).log := by
    intro ack body more hq
    rw [extend_log, log_calling, authorized, extend_log, ← append_assoc]
    have he := ((hg ack).snoc (a := .acknowledgedEvidence st.lease .forwarded) rfl).snoc
      (a := .forwarding st.lease st.dispatchResult.upstream body) rfl
    exact he.append fun a ha => Action.isDispatch_of_isQuiet (hq a ha).1
  cases h with
  | faulted _ | unconverted _ | unstored _ _ => exact GrowsUndispatched.refl _
  | unresolved _ _ _ => exact hg _
  | unauthorized _ _ => exact (hg _).snoc rfl
  | threw _ _ _ hp _ => exact hc _ _ _ hp.quietly
  | @called body ack more hbo hack hp ho =>
    obtain ⟨rest, hl, hr⟩ := afterForward_undispatched (c := c)
      (c.called body more (authorized ack st))
    rw [hl]; exact ((hc ack body more hp.quietly).snoc rfl).append hr

section

variable (hl : st'.log = (c.callDispatch st).log ++ more)

include hl

theorem dispatchPauses_since (hm : ∀ a ∈ more, a.isDispatch = false) : dispatchPauses st'.log =
      Round.pauses ⟨(c.callDispatch st).dispatchResult, more⟩ ++ dispatchPauses st.log := by
  unfold dispatchPauses
  rw [dispatches_since c hl hm, flatMap_cons]

theorem shortPauses_since (hm : ∀ a ∈ more, a.isDispatch = false) : ShortPauses st'.log ↔
      (∀ us ∈ Round.pauses ⟨(c.callDispatch st).dispatchResult, more⟩, us.toNat ≤ 1000000) ∧
        ShortPauses st.log := by
  unfold ShortPauses
  rw [dispatchPauses_since hl hm]
  exact forall_mem_append

theorem shortPauses_of_awake (hm : ∀ a ∈ more, a.isDispatch = false)
    (ha : Round.pauses ⟨(c.callDispatch st).dispatchResult, more⟩ = []) (hn : ¬ c.Overtaken st) :
    ShortPauses st'.log ↔ ¬ c.Overtaken st ∧ ShortPauses st.log := by
  rw [shortPauses_since hl hm, ha]
  exact and_congr_left fun _ => iff_of_true (forall_mem_nil _) hn

end

theorem shortPauses_of_slept {us : UInt64} (hl : st'.log = (c.callDispatch st).log ++ [.slept us])
    (hr : (c.callDispatch st).dispatchResult.granted = false)
    (hs : us.toNat ≤ 1000000 ↔ ¬ c.Overtaken st) :
    ShortPauses st'.log ↔ ¬ c.Overtaken st ∧ ShortPauses st.log := by
  have hp : Round.pauses ⟨(c.callDispatch st).dispatchResult, [.slept us]⟩ = [us] := by
    simp [Round.pauses, hr, Action.slept?]
  rw [shortPauses_since hl (by simp [Action.isDispatch]), hp, forall_mem_singleton, hs]

theorem waitForAccount_cases (c : Context) (st : Handler) :
    (st.dispatchWaits < 8 ∧ c.world.now st.log st.clockCalls < c.dispatchDeadline ∧
      (stateOf (c.waitForAccount st)).log = st.log ++ [.slept (UInt64.ofInt
        (Context.waitMs st.dispatchResult.waitTimeoutMs
          (c.dispatchDeadline - c.world.now st.log (st.clockCalls + 1))) * 1000)]) ∨
    (¬ (st.dispatchWaits < 8 ∧ c.world.now st.log st.clockCalls < c.dispatchDeadline) ∧
      (stateOf (c.waitForAccount st)).log = st.log) := by
  unfold Context.waitForAccount Context.pastDeadline readClock
  dsimp only
  split
  · exact .inr ⟨by omega, rfl⟩
  · next hw =>
    split
    · next hl =>
      have hl := of_decide_eq_true hl
      exact .inr ⟨by omega, rfl⟩
    · next he =>
      have he := of_decide_eq_false (Bool.eq_false_iff.2 he)
      exact .inl ⟨by omega, by omega, rfl⟩

theorem pauses_opening (result : DispatchResult) (h : ∀ a ∈ more, a.isOpening) :
    Round.pauses ⟨result, more⟩ = [] := by
  unfold Round.pauses
  split
  · rfl
  · refine filterMap_eq_nil_iff.2 ?_
    intro a ha
    have hk := h a ha
    cases a with
    | slept us => cases hk
    | _ => rfl

theorem isDispatch_of_isOpening {a : Action} (h : a.isOpening) : a.isDispatch = false := by
  cases a with
  | dispatched request result => cases h
  | _ => rfl

theorem round_shortPauses_iff (hc : c.world.Clock64) (hd : -2 ^ 63 ≤ c.dispatchDeadline)
    (st : Handler) :
    ShortPauses (stateOf (c.round st)).log ↔ ¬ c.Overtaken st ∧ ShortPauses st.log := by
  have hs := round_step c st
  by_cases hw : (c.callDispatch st).dispatchResult.outcome = .wait
  · have hro : c.round st = c.waitForAccount (c.callDispatch st) := by
      unfold Context.round
      dsimp only
      rw [hw]
    have hre : (c.callDispatch st).dispatchResult.granted = false := by
      simp [DispatchResult.granted, hw]
    rw [hro]
    obtain ⟨hwa, he, hl⟩ | ⟨hno, hl⟩ := waitForAccount_cases c (c.callDispatch st)
    · refine shortPauses_of_slept hl hre ?_
      have hrea := hc (c.callDispatch st).log ((c.callDispatch st).clockCalls + 1)
      rw [waitMs_short_iff _ (by omega)]
      constructor
      · rintro hlef ⟨-, -, -, ho⟩
        change _ ≤ c.world.now (c.callDispatch st).log ((c.callDispatch st).clockCalls + 1) at ho
        omega
      · intro hn
        by_contra ho
        refine hn ⟨hw, hwa, he, ?_⟩
        change _ ≤ c.world.now (c.callDispatch st).log ((c.callDispatch st).clockCalls + 1)
        omega
    · refine shortPauses_of_awake (hl.trans (append_nil _).symm) (forall_mem_nil _)
        (pauses_opening _ (forall_mem_nil _)) ?_
      rintro ⟨-, hwa, he, -⟩
      exact hno ⟨hwa, he⟩
  · have hn : ¬ c.Overtaken st := fun h => hw h.1
    generalize c.round st = m at hs
    cases hs with
    | waited h _ | exhausted _ h => exact absurd h hw
    | retried hr hcou =>
      rw [isRetryablePlatformDispatch, Bool.and_eq_true, beq_iff_eq] at hr
      refine shortPauses_of_slept rfl (by simp [DispatchResult.granted, hr.1]) ?_
      have hde := platformDispatchRetryDelayMs_le (st.dispatchTransportRetries + 1)
      rw [toNat_ofInt_mul (by omega)]; exact iff_of_true (by omega) hn
    | unavailable reads hr =>
      exact shortPauses_of_awake (append_nil _).symm (forall_mem_nil _)
        (pauses_opening _ (forall_mem_nil _)) hn
    | refused hrej hf hco =>
      exact shortPauses_of_awake (append_nil _).symm (forall_mem_nil _)
        (pauses_opening _ (forall_mem_nil _)) hn
    | repeated hrej hco =>
      obtain ⟨resp, more, heq, hop⟩ := repeated_eq c (c.callDispatch st)
      rw [heq]
      exact shortPauses_of_awake rfl (fun a ha => isDispatch_of_isOpening (hop a ha))
        (pauses_opening _ hop) hn
    | attempted hg hat =>
      obtain ⟨more, hl, hm⟩ := hat.undispatched
      obtain ⟨noted, hle, hq, -⟩ := leased_eq c st
      rw [hle] at hl
      refine shortPauses_of_awake (hl.trans (append_assoc _ _ _)) ?_ (if_pos hg) hn
      intro a ha
      rcases mem_append.1 ha with ha | ha
      · exact Action.isDispatch_of_isQuiet (hq a ha).1
      · exact hm a ha

def Context.heads (c : Context) : Nat → Handler → List Handler
  | 0, _ => []
  | fuel + 1, st =>
    st :: match c.round st with
      | .ok st => c.heads fuel st
      | .error _ => []

theorem rounds_shortPauses_iff (hc : c.world.Clock64)
    (hd : -2 ^ 63 ≤ c.dispatchDeadline) (fuel : Nat) (st : Handler) :
    ShortPauses (c.rounds fuel st).log ↔
      (∀ head ∈ c.heads fuel st, ¬ c.Overtaken head) ∧ ShortPauses st.log := by
  induction fuel generalizing st with
  | zero => simp [Context.rounds, Context.heads]
  | succ fuel ih =>
    have hr := round_shortPauses_iff hc hd st
    unfold Context.rounds Context.heads
    rw [forall_mem_cons]
    cases heq : c.round st with
    | ok st' =>
      rw [heq] at hr
      dsimp only
      rw [ih, show ShortPauses st'.log ↔ _ from hr]
      tauto
    | error st' => rw [heq] at hr; dsimp only; rw [show ShortPauses st'.log ↔ _ from hr]; simp

theorem dispatchPauses_append (log : List Action)
    (hm : ∀ a ∈ more, a.isDispatch = false ∧ a.slept? = none) :
    dispatchPauses (log ++ more) = dispatchPauses log := by
  unfold dispatchPauses
  rw [dispatches_append log fun a ha => (hm a ha).1]
  cases dispatches log with
  | nil => rfl
  | cons round earlier =>
    have hs : Round.pauses { round with body := round.body ++ more } = round.pauses := by
      unfold Round.pauses
      rw [filterMap_append, filterMap_eq_nil_iff.2 fun a ha => (hm a ha).2, append_nil]
    rw [addAll_cons, flatMap_cons, flatMap_cons, hs]

theorem dispatchPauses_serve (c : Context) (fuel : Nat) (st : Handler) :
    dispatchPauses (c.serve fuel st).log = dispatchPauses (c.rounds fuel st).log := by
  unfold Context.serve
  dsimp only
  split
  · obtain ⟨more, hl, hs⟩ := settle_log c (c.rounds fuel st)
    rw [hl]
    refine dispatchPauses_append _ ?_
    intro a ha
    have hk := hs a ha
    cases a with
    | dispatched request result => cases hk
    | slept us => cases hk
    | _ => exact ⟨rfl, rfl⟩
  · rfl

end

theorem dispatchPauses_opening {log : List Action} (h : ∀ a ∈ log, a.isOpening) :
    dispatchPauses log = [] := by
  have hm : ∀ a ∈ log, a.isDispatch = false ∧ a.slept? = none := by
    intro a ha
    have hk := h a ha
    cases a with
    | dispatched request result => cases hk
    | slept us => cases hk
    | _ => exact ⟨rfl, rfl⟩
  exact dispatchPauses_append [] hm

def loopHeads (w : World) (req : HttpRequest) (resp : HttpResponse) (matched : MatchedCapability)
    (fuel : Nat) : List (Context × Handler) :=
  match prepare w req resp matched with
  | .error _ => []
  | .ok (c, st) => (c.heads fuel st).map (c, ·)

theorem handle_shortPauses_iff (w : World) (hclock : w.Clock64) (req : HttpRequest)
    (resp : HttpResponse) (matched : MatchedCapability) (fuel : Nat) :
    ShortPauses (handle w req resp matched fuel).log ↔
      ∀ head ∈ loopHeads w req resp matched fuel, ¬ head.1.Overtaken head.2 := by
  have hprepared := prepare_prepared w req resp matched
  unfold handle loopHeads ShortPauses
  cases hprepare : prepare w req resp matched with
  | error st =>
    rw [hprepare] at hprepared
    dsimp only
    rw [dispatchPauses_opening hprepared.opening]; simp
  | ok entered =>
    obtain ⟨c, st⟩ := entered
    rw [hprepare] at hprepared
    have hdeadline : -2 ^ 63 ≤ c.dispatchDeadline := by
      have hread := hclock st.log 1
      rw [hprepared.deadline, secondNs]; omega
    have hrounds := rounds_shortPauses_iff (hprepared.sameWorld ▸ hclock) hdeadline fuel st
    unfold ShortPauses at hrounds
    rw [dispatchPauses_opening hprepared.opening] at hrounds
    dsimp only
    rw [dispatchPauses_serve, hrounds]; simp

def crowdedWorld (step : Int) : World :=
  { refusingProvider (.ofTable [] []) {} with
    now := fun _ n => if n < 3 then 0 else step
    dispatch := fun log _ =>
      if log.isEmpty then { outcome := .wait, waitTimeoutMs := 500 }
      else { outcome := .rejected, rejectCode := 3 } }

theorem crowdedWorld_clock64 : (crowdedWorld 1000000).Clock64 := by
  intro log n
  simp only [crowdedWorld]
  split <;> decide

theorem crowded_pause_short :
    dispatchPauses (handle (crowdedWorld 1000000) listModelsRequest {} listModels 2).log =
      [500000] ∧
      ShortPauses (handle (crowdedWorld 1000000) listModelsRequest {} listModels 2).log := by
  refine ⟨by decide, ?_⟩
  rw [handle_shortPauses_iff _ crowdedWorld_clock64]
  decide

def World.MonotoneClock (w : World) : Prop :=
  ∀ log more n m, n ≤ m → w.now log n ≤ w.now (log ++ more) m

theorem overtaken_pause_long : (crowdedWorld (45001 * 1000000)).MonotoneClock ∧
      dispatchPauses (handle (crowdedWorld (45001 * 1000000)) listModelsRequest {} listModels
        2).log = [18446744073709550616] ∧
      ¬ ShortPauses (handle (crowdedWorld (45001 * 1000000)) listModelsRequest {} listModels
        2).log := by
  refine ⟨?_, by decide, by decide⟩
  intro log more n m hle
  simp only [crowdedWorld]
  split
  · split <;> decide
  · rw [if_neg (by omega)]

end Gateway.Server
