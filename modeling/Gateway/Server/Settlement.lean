import Gateway.Server.LeaseRun

/-! # The settlement of the last lease -/

namespace Gateway.Server

open Lib Dispatch Forwarder Context List Option

def Action.settles (grant : DispatchResult) : Action → Bool
  | .aborted lease _ _ _ _ => lease = grant.leaseToken
  | .recordedUsage event => event.leaseToken = grant.leaseToken
  | .reportedUsage event _ => event.leaseToken = grant.leaseToken
  | a => a.defers grant

def isSettled (l : Lease) : Bool := l.body.any (Action.settles l.opening.result)

variable {log : List Action}

theorem isSettled_of_aborts (hat : Attributed log) {l : Lease} (hl : l ∈ leases log)
    (h : 0 < (summary l.body).aborts) : isSettled l := by
  obtain ⟨a, ha, hab⟩ := countP_pos_iff.1 h
  refine List.any_eq_true.2 ⟨a, ha, ?_⟩
  cases a with
  | aborted lease reason disposition status ack =>
    exact decide_eq_true (hat.own l hl _ ha lease rfl)
  | _ => cases hab

theorem isSettled_of_closed (ha : Attributed log) {l : Lease} (hl : l ∈ leases log)
    (h : Closed l.body) : isSettled l := by
  refine isSettled_of_aborts ha hl ?_
  rw [h.aborts]
  exact Nat.one_pos

def AllSettled (c : Context) (log : List Action) : Prop :=
  ∀ l ∈ leases log, convertible c.world c.req c.matched l.opening.result.upstream → isSettled l

theorem allSettled_of_closed {c : Context} (ha : Attributed log)
    (h : ∀ l ∈ leases log, Closed l.body) : AllSettled c log := fun l hl _ =>
  isSettled_of_closed ha hl (h l hl)

variable {grant : DispatchResult} {actions : List Action}

theorem Holding.allSettled {c : Context} {n : Nat} (h : Holding c n log grant actions)
    (hs : convertible c.world c.req c.matched grant.upstream → 0 < (summary actions).aborts ∨
      ∃ a ∈ actions, a.settles grant) : AllSettled c log := by
  intro l hl hc
  have hat := h.sound.attributed
  obtain ⟨request, older, hle, ho⟩ := h.newest
  have hm := hl
  rw [hle] at hl
  rcases mem_cons.1 hl with rfl | hl
  · rcases hs hc with hab | ⟨a, ha, hse⟩
    · exact isSettled_of_aborts hat hm hab
    · exact List.any_eq_true.2 ⟨a, ha, hse⟩
  · exact isSettled_of_closed hat hm (ho l hl)

def Final (c : Context) (st : Handler) : Prop :=
  Kept c st.log ∧ (st.exit = .returned → AllSettled c st.log)

section

variable {c : Context} {st : Handler}

theorem Ending.kept (h : Ending c st) : Kept c st.log := by
  obtain ⟨actions, hp, -⟩ := h
  exact hp.holding.kept

def Settles (c : Context) : Handling → Prop
  | .ok st => Ending c st
  | .error st => st.exit = .faulted ∧ Kept c st.log

theorem Settles.bind {m : Handling} {k : Handler → Handling} (hm : Settles c m)
    (hk : ∀ st, Ending c st → Settles c (k st)) : Settles c (m >>= k) := by
  cases m with
  | ok st => exact hk st hm
  | error st => exact hm

section

variable (h : Ending c st)

include h

theorem withhold_ending (reason type message : Bytes) :
    Ending c (c.withhold reason type message st) := by
  obtain ⟨actions, hp, -⟩ := h
  exact ⟨_, hp.abortUnknown _ _ _, fun hf => (by cases hf)⟩

theorem convertErrorBody_settles : Settles c (c.convertErrorBody st) := by
  unfold convertErrorBody
  dsimp only
  split
  · split
    · exact ⟨rfl, h.kept⟩
    · exact h
  · exact h

theorem convertSuccessBody_settles : Settles c (c.convertSuccessBody st) := by
  unfold convertSuccessBody
  split
  · split
    · exact ⟨rfl, h.kept⟩
    · split
      · exact h
      · exact withhold_ending h _ _ _
  · exact h

theorem checkBody_ending (applies : Bool) (validation : Protocol.Converter.ValidationResult)
    (reason : Bytes) : Ending c (c.checkBody applies validation reason st) := by
  unfold checkBody
  split
  · split
    · exact h
    · next message =>
      have hw := withhold_ending h reason "provider_protocol_error" message
      exact hw
  · exact h

theorem takeBody_settles : Settles c (c.takeBody st) := by
  unfold takeBody
  split
  · have ht : Ending c { st with
        resp.body := st.forwardResult.body, forwardResult.body := [] } := h
    refine (convertErrorBody_settles ht).bind fun st₁ h₁ => ?_
    refine (convertSuccessBody_settles h₁).bind fun st₂ h₂ => ?_
    exact checkBody_ending (checkBody_ending (checkBody_ending h₂ _ _ _) _ _ _) _ _ _
  · exact h

theorem evaluateResponse_ending : Ending c (c.evaluateResponse st) := by
  obtain ⟨actions, hp, hc⟩ := h
  unfold evaluateResponse
  dsimp only
  set policy := c.world.evaluateContent st.log 0 st.lease st.resp.body c.matched.spec.name
  have he : Ending c (st.emit (.evaluated st.lease st.resp.body policy)) :=
    ⟨_, hp.emitQuiet rfl fun lease hl => (some.inj hl).symm, hc⟩
  split <;> exact he

theorem decideResponse_ending : Ending c (c.decideResponse st) := by
  unfold decideResponse
  split <;> exact h

theorem applyContentPolicy_ending : Ending c (c.applyContentPolicy st) := by
  unfold applyContentPolicy
  split
  · split
    · exact evaluateResponse_ending h
    · exact decideResponse_ending h
  · exact h

theorem showMalformed_ending : Ending c (c.showMalformed st) := by
  unfold showMalformed
  split <;> exact h

end

theorem mediaStored_ending {running : Bool}
    (h : Pending c st.dispatchRetrySequence st.log st.dispatchResult st.terminalAbort
      st.forwardResult.streamIncomplete running actions)
    (hc : st.terminalAbort = false → st.forwardResult.streamIncomplete = false)
    (operation : MediaOperationResult) : Ending c (c.mediaStored running operation st) := by
  cases running with
  | false => exact ⟨actions, h, hc⟩
  | true => exact ⟨actions, h, hc⟩

theorem mediaUnstored_ending (h : Ending c st) (operation : MediaOperationResult) :
    Ending c (c.mediaUnstored operation st) := by
  obtain ⟨actions, hp, -⟩ := h
  exact ⟨_, hp.abortUnknown _ _ _, fun hf => (by cases hf)⟩

theorem persistMedia_ending (h : Ending c st) : Ending c (c.persistMedia st) := by
  obtain ⟨actions, hp, hc⟩ := h
  unfold persistMedia callMedia
  dsimp only
  set st₁ : Handler := { st with mediaResponseOverridden := true }
  set request := c.mediaUpdate st₁ with hre
  set a : Action := .mediaOperation request (c.world.mediaOperation st₁.log request)
  have ho : ∀ lease, a.lease? = some lease → lease = st.dispatchResult.leaseToken :=
    fun _ hl => (by cases hl)
  split
  · split
    · next ha =>
      have hd : Pending c st.dispatchRetrySequence (st.log ++ [a]) st.dispatchResult
          st.terminalAbort st.forwardResult.streamIncomplete (request.status = "running")
          (actions ++ [a]) := by
        refine hp.defer rfl ho fun hr => ?_
        rw [decide_eq_true_eq] at hr
        simp only [a, Action.defers, hr, Bool.and_eq_true, decide_eq_true_eq]
        exact ⟨⟨ha, rfl⟩, trivial⟩
      apply mediaStored_ending
      · exact hd
      · exact hc
    · have hs : Ending c (st₁.emit a) := ⟨_, hp.emitQuiet rfl ho, hc⟩
      exact mediaUnstored_ending hs _
  · exact ⟨actions, hp, hc⟩

theorem releaseControl_ending (h : Ending c st) : Ending c (c.releaseControl st) := by
  obtain ⟨actions, hp, hc⟩ := h
  unfold releaseControl
  dsimp only
  split
  · next hco =>
    simp only [Bool.and_eq_true, Bool.not_eq_true'] at hco
    have he : ChargeExcluded c.matched.spec.capability actions := .inr (.inr hco.1.1)
    split
    · next ha =>
      exact ⟨_, hp.abort _ _ _ _ (fun _ => rfl) (fun _ => he)
        fun _ _ => ⟨rfl, hc hco.1.2⟩, fun hf => (by cases hf)⟩
    · next ha =>
      exact ⟨_, hp.abort _ _ _ _ (fun ht => ht) (fun _ => he)
        fun _ hack => absurd hack ha, hc⟩
  · exact ⟨actions, hp, hc⟩

theorem Pending.bill {n : Nat} {terminal incomplete deferred : Bool}
    (h : Pending c n log grant terminal incomplete deferred actions) {a : Action}
    (ha : (∃ event, a = .recordedUsage event ∧ event.leaseToken = grant.leaseToken) ∨ ∃ event ack,
      a = .reportedUsage event ack ∧ event.leaseToken = grant.leaseToken)
    (hu : ¬ (terminal ∧ incomplete = false)) :
    Holding c n (log ++ [a]) grant (actions ++ [a]) ∧ a.settles grant := by
  have hn : ¬ (summary actions).released := fun hr => hu (h.released hr)
  rcases ha with ⟨event, rfl, ht⟩ | ⟨event, ack, rfl, ht⟩
  · refine ⟨h.holding.emit rfl ?_ trivial trivial ?_, decide_eq_true ht⟩
    · exact fun lease hl => (some.inj hl).symm.trans ht
    · exact fun hr => absurd (by rwa [summary_snoc] at hr) hn
  · refine ⟨h.holding.emit rfl ?_ trivial trivial ?_, decide_eq_true ht⟩
    · exact fun lease hl => (some.inj hl).symm.trans ht
    · exact fun hr => absurd (by rwa [summary_snoc] at hr) hn

theorem recordUsage_settled (h : Ending c st) :
    Kept c (c.recordUsage st).log ∧ AllSettled c (c.recordUsage st).log := by
  obtain ⟨actions, hp, -⟩ := h
  unfold recordUsage readClock
  dsimp only
  set st₁ : Handler := { st with clockCalls := st.clockCalls + 1 }
  set event := c.usageEvent (c.world.now st.log st.clockCalls) st₁
  have hto : event.leaseToken = st.dispatchResult.leaseToken := rfl
  split
  · next hbi =>
    have hu : ¬ (st.terminalAbort ∧ st.forwardResult.streamIncomplete = false) := by
      rintro ⟨ht, hco⟩
      simp [ht, hco, lateUsageCandidate] at hbi
    have hl : ∀ a, a ∈ actions ++ [a] := fun a => mem_append_right _ (mem_singleton.2 rfl)
    split
    · obtain ⟨hh, hs⟩ := hp.bill (.inr ⟨event, _, rfl, hto⟩) hu
      exact ⟨hh.kept, hh.allSettled fun _ => .inr ⟨_, hl _, hs⟩⟩
    · obtain ⟨hh, hs⟩ := hp.bill (.inl ⟨event, rfl, hto⟩) hu
      exact ⟨hh.kept, hh.allSettled fun _ => .inr ⟨_, hl _, hs⟩⟩
  · next hbi =>
    refine ⟨hp.holding.kept, hp.holding.allSettled fun hc => ?_⟩
    rw [Bool.and_eq_true, Bool.or_eq_true, not_and_or, not_or] at hbi
    rcases hbi with ⟨ht, -⟩ | hde
    · rcases hp.aborted (by simpa using ht) with hab | hn
      · exact .inl hab
      · rw [hn] at hc; cases hc
    · obtain ⟨a, ha, hd⟩ := hp.deferral (by simpa using hde)
      refine .inr ⟨a, ha, ?_⟩
      cases a with
      | mediaOperation => exact hd
      | _ => cases hd

theorem finalStatus_log (st : Handler) : (finalStatus st).log = st.log := by
  unfold finalStatus
  split <;> rfl

theorem settle_final (h : Ending c st) : Final c (c.settle st) := by
  have ht := takeBody_settles h
  unfold settle
  split
  · next st₁ heq =>
    rw [heq] at ht
    refine ⟨ht.2, fun hr => ?_⟩
    rw [ht.1] at hr; cases hr
  · next st₁ heq =>
    rw [heq] at ht
    obtain ⟨hk, hs⟩ := recordUsage_settled (releaseControl_ending (persistMedia_ending
      (showMalformed_ending (applyContentPolicy_ending ht))))
    unfold Final Handler.returned
    rw [finalStatus_log]
    exact ⟨hk, fun _ => hs⟩

theorem serve_final (fuel : Nat) (h : Head c st) : Final c (c.serve fuel st) := by
  unfold serve
  dsimp only
  rcases rounds_goes fuel h with hh | hl
  · rw [hh.running, if_neg (by decide)]
    exact ⟨hh.idle.kept, fun _ => allSettled_of_closed hh.idle.sound.attributed hh.idle.closed⟩
  · cases hl with
    | broke he ending => rw [if_pos he]; exact settle_final ending
    | returned he closed kept =>
      rw [he, if_neg (by decide)]
      exact ⟨kept, fun _ => allSettled_of_closed kept.1.attributed closed⟩
    | failed he kept =>
      have hn : (c.rounds fuel st).exit ≠ .broke ∧ (c.rounds fuel st).exit ≠ .returned := by
        rcases he with he | he <;> rw [he] <;> decide
      rw [if_neg hn.1]
      exact ⟨kept, fun hr => absurd hr hn.2⟩

end

end Gateway.Server
