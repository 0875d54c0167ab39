import Gateway.Server.LeaseAccount
import Gateway.Server.Routes

/-! # Failures of the outbox -/

namespace Gateway.Server

open Lib Dispatch Forwarder Handler List

def evidenceDue (w : World) (req : HttpRequest) (matched : MatchedCapability)
    (log : List Action) : Bool :=
  match log.getLast?, leases log with
  | some a, l :: _ =>
    match a with
    | .dispatched _ result =>
      result.outcome = .ok && result.authVersion ≤ 0 && convertible w req matched result.upstream
    | .cachedAuth _ _ _ _ => convertible w req matched l.opening.result.upstream
    | .evictedAuth _ => convertible w req matched l.opening.result.upstream
    | .piped action => clientBytes [action] ≠ [] && output l.body = clientBytes [action]
    | .reportedEvidence _ _ _ ack => ack.acknowledged
    | _ => false
  | _, _ => false

def EvidenceFailed (w : World) (req : HttpRequest) (matched : MatchedCapability)
    (log : List Action) : Prop :=
  evidenceDue w req matched log ∧ w.outboxThrows log

def UsageFailed (log : List Action) : Prop := ∃ event ack, .reportedUsage event ack ∈ log

def Told (l : Lease) : Prop :=
  (∃ reason disposition status ack,
    .aborted l.opening.token reason disposition status ack ∈ l.body) ∨
  ∃ event ack, event.leaseToken = l.opening.token ∧ .reportedUsage event ack ∈ l.body

structure Survived (st : Handler) : Prop where
  returned : st.exit = .returned
  balanced : st.activeConnections = 0
  told : ∃ l, (leases st.log).head? = some l ∧ Told l

def Action.isCue : Action → Bool
  | .dispatched _ _ => true
  | .cachedAuth _ _ _ _ => true
  | .evictedAuth _ => true
  | .piped _ => true
  | .reportedEvidence _ _ _ _ => true
  | _ => false

variable {a : Action} {request : DispatchRequest} {result : DispatchResult} {older : List Lease}
  {ack : RpcAck}

section

variable {w : World} {req : HttpRequest} {matched : MatchedCapability} {log more : List Action}

theorem evidenceDue_snoc (ha : a.isCue = false) :
    evidenceDue w req matched (log ++ [a]) = false := by
  unfold evidenceDue
  rw [getLast?_concat]
  cases leases (log ++ [a]) with
  | nil => rfl
  | cons l ls =>
    cases a with
    | dispatched request result => cases ha
    | cachedAuth keyHash version userId groupId => cases ha
    | evictedAuth keyHash => cases ha
    | piped action => cases ha
    | reportedEvidence lease stage detail ack => cases ha
    | _ => rfl

theorem evidenceDue_append (h : evidenceDue w req matched log = false)
    (hm : ∀ a ∈ more, a.isCue = false) : evidenceDue w req matched (log ++ more) = false := by
  rcases eq_nil_or_concat more with rfl | ⟨rest, a, rfl⟩
  · rw [append_nil]; exact h
  · rw [concat_eq_append] at hm ⊢; rw [← append_assoc]; exact evidenceDue_snoc (hm a (by simp))

theorem evidenceDue_nil : evidenceDue w req matched [] = false := rfl

theorem isCue_eq_false (h : a.isSettling ∨ a.isFollowUp ∨ a.isOpening) : a.isCue = false := by
  cases a with
  | dispatched request result => simp [Action.isSettling, Action.isFollowUp, Action.isOpening] at h
  | cachedAuth keyHash version userId groupId =>
    simp [Action.isSettling, Action.isFollowUp, Action.isOpening] at h
  | evictedAuth keyHash => simp [Action.isSettling, Action.isFollowUp, Action.isOpening] at h
  | piped action => simp [Action.isSettling, Action.isFollowUp, Action.isOpening] at h
  | reportedEvidence lease stage detail ack =>
    simp [Action.isSettling, Action.isFollowUp, Action.isOpening] at h
  | _ => rfl

theorem evidenceDue_dispatched (h : result.outcome ≠ .ok) :
    evidenceDue w req matched (log ++ [.dispatched request result]) = false := by
  unfold evidenceDue
  rw [getLast?_concat]
  cases leases (log ++ [.dispatched request result]) with
  | nil => rfl
  | cons l ls => simp [h]

theorem evidenceDue_noted
    (ha : (∃ keyHash, a = .evictedAuth keyHash) ∨ ∃ keyHash version userId groupId,
      a = .cachedAuth keyHash version userId groupId)
    {l : Lease} (hl : leases (log ++ [a]) = l :: older) : evidenceDue w req matched (log ++ [a]) =
      convertible w req matched l.opening.result.upstream := by
  unfold evidenceDue
  rw [getLast?_concat, hl]
  rcases ha with ⟨keyHash, rfl⟩ | ⟨keyHash, version, userId, groupId, rfl⟩ <;> rfl

theorem evidenceDue_granted (hok : result.outcome = .ok) (hv : result.authVersion ≤ 0)
    (hl : leases (log ++ [.dispatched request result]) ≠ []) :
    evidenceDue w req matched (log ++ [.dispatched request result]) =
      convertible w req matched result.upstream := by
  obtain ⟨l, older, hle⟩ := exists_cons_of_ne_nil hl
  unfold evidenceDue
  rw [getLast?_concat, hle]
  simp [hok, hv]

theorem evidenceDue_piped {action : PipeAction} (ho : clientBytes [action] ≠ []) {l : Lease}
    (hl : leases (log ++ [.piped action]) = l :: older) (hf : output l.body = clientBytes [action])
    : evidenceDue w req matched (log ++ [.piped action]) := by
  unfold evidenceDue
  rw [getLast?_concat, hl]
  simp [ho, hf]

theorem evidenceDue_reported {lease detail : Bytes} {stage : LeaseEvidenceStage}
    (ha : ack.acknowledged) (hl : leases (log ++ [.reportedEvidence lease stage detail ack]) ≠ []) :
    evidenceDue w req matched (log ++ [.reportedEvidence lease stage detail ack]) := by
  unfold evidenceDue
  rw [getLast?_concat]
  cases hle : leases (log ++ [.reportedEvidence lease stage detail ack]) with
  | nil => exact absurd hle hl
  | cons l ls => exact ha

end

abbrev Context.due (c : Context) (log : List Action) : Bool :=
  evidenceDue c.world c.req c.matched log

structure Unsettled (st : Handler) : Prop where
  unbilled : ∀ a ∈ st.log, a.isUsage = false
  connected : st.activeConnections = 1

inductive RoundEnd (c : Context) : Handling → Prop
  | unsettled {m : Handling} (h : Unsettled (stateOf m)) (hidle : c.due (stateOf m).log = false) :
      RoundEnd c m
  | returned {st : Handler} (h : Unsettled st) (hidle : c.due st.log = false) :
      RoundEnd c (.error st.returned)
  | threw {st : Handler} (hdue : c.due st.log) (hthrows : c.world.outboxThrows st.log) :
      RoundEnd c (.error st.threw)

section

variable {c : Context} {st st' : Handler}

theorem Unsettled.append (h : Unsettled st) (more : List Action) (hl : st'.log = st.log ++ more)
    (hm : ∀ a ∈ more, a.isUsage = false)
    (hc : st'.activeConnections = st.activeConnections) : Unsettled st' := by
  refine ⟨?_, hc.trans h.connected⟩
  intro a ha
  rw [hl] at ha
  rcases mem_append.1 ha with ha | ha
  · exact h.unbilled a ha
  · exact hm a ha

theorem Unsettled.emit (h : Unsettled st) (ha : a.isUsage = false) : Unsettled (st.emit a) := by
  refine h.append [a] rfl ?_ rfl
  intro b hb
  rw [mem_singleton.1 hb]
  exact ha

theorem Unsettled.pause (h : Unsettled st) (ms : Int) (hl : st'.log = st.log)
    (hc : st'.activeConnections = st.activeConnections) :
    RoundEnd c (.ok (Context.sleepMs ms st')) := by
  have hbefore : Unsettled st' := h.append [] (by rw [hl, append_nil]) (by simp) hc
  exact .unsettled (hbefore.emit rfl) (evidenceDue_snoc rfl)

theorem isUsage_eq_false (h : a.isQuiet ∨ a.isFollowUp ∨ a.isOpening) : a.isUsage = false := by
  cases a with
  | recordedUsage event => simp [Action.isQuiet, Action.isFollowUp, Action.isOpening] at h
  | reportedUsage event ack => simp [Action.isQuiet, Action.isFollowUp, Action.isOpening] at h
  | _ => rfl

theorem leases_callDispatch (hg : (c.callDispatch st).dispatchResult.granted) :
    leases (c.callDispatch st).log =
      ⟨⟨st.dispatchReq, (c.callDispatch st).dispatchResult⟩, []⟩ :: leases st.log := by
  have hgr : Action.grant? (.dispatched st.dispatchReq (c.callDispatch st).dispatchResult) =
      some ⟨st.dispatchReq, (c.callDispatch st).dispatchResult⟩ := if_pos hg
  exact segments_open hgr

theorem due_leased (hg : (c.callDispatch st).dispatchResult.granted) : c.due (c.leased st).log =
      convertible c.world c.req c.matched (c.callDispatch st).dispatchResult.upstream := by
  have ho := leases_callDispatch hg
  have hl : (c.leased st).log = (c.updateAuthCache (c.callDispatch st)).log := rfl
  rw [hl]
  unfold Context.updateAuthCache
  dsimp only
  split
  · exact evidenceDue_noted (.inl ⟨_, rfl⟩) (leases_snoc rfl ho)
  · next hr =>
    split
    · exact evidenceDue_noted (.inr ⟨_, _, _, _, rfl⟩) (leases_snoc rfl ho)
    · next hv =>
      have hok : (c.callDispatch st).dispatchResult.outcome = .ok := by
        cases hou : (c.callDispatch st).dispatchResult.outcome with
        | ok => rfl
        | reauth => exact absurd hou hr
        | rejected => simp [DispatchResult.granted, hou] at hg
        | wait => simp [DispatchResult.granted, hou] at hg
      have hle : leases (st.log ++ [.dispatched st.dispatchReq
          (c.callDispatch st).dispatchResult]) ≠ [] :=
        ne_of_eq_of_ne ho (cons_ne_nil _ _)
      exact evidenceDue_granted hok (Int.not_lt.1 hv) hle

structure Ready (c : Context) (st : Handler) : Prop where
  unsettled : Unsettled st
  due : c.due st.log = convertible c.world c.req c.matched st.dispatchResult.upstream
  lease : ∃ l older, leases st.log = l :: older ∧ output l.body = []

theorem Ready.leases_ne_nil (h : Ready c st) (more : List Action) :
    leases (st.log ++ more) ≠ [] := by
  obtain ⟨l, older, hl, -⟩ := h.lease
  exact segments_append_ne_nil (ne_of_eq_of_ne hl (cons_ne_nil _ _))

theorem isUsage_forwardEvidence (ack : RpcAck) (st : Handler) :
    ∀ a ∈ forwardEvidence ack st, a.isUsage = false := by
  simp [forwardEvidence, Action.isUsage]

def sinceGrant (ack : RpcAck) (body : Bytes) (st : Handler) : List Action :=
  forwardEvidence ack st ++ [.acknowledgedEvidence st.lease .forwarded,
    .forwarding st.lease st.dispatchResult.upstream body]

theorem log_calling_authorized (ack : RpcAck) (body : Bytes) (st : Handler) :
    (c.calling body (authorized ack st)).log = st.log ++ sinceGrant ack body st := by
  rw [log_calling]
  simp [authorized, sinceGrant, lease, extend]

theorem mem_sinceGrant {body : Bytes} (ha : a ∈ sinceGrant ack body st) :
    a.isDispatch = false ∧ a.isUsage = false := by
  simp only [sinceGrant, forwardEvidence, cons_append, nil_append, mem_cons,
    not_mem_nil, or_false] at ha
  rcases ha with rfl | rfl | rfl | rfl <;> exact ⟨rfl, rfl⟩

theorem output_sinceGrant (ack : RpcAck) (body : Bytes) (st : Handler) :
    output (sinceGrant ack body st) = [] := rfl

theorem Ready.due_of_pipeThrew (h : Ready c st) {body : Bytes} {more : List Action}
    (hq : Quietly st.lease more) (ht : PipeThrew more) :
    c.due (st.log ++ sinceGrant ack body st ++ more) := by
  cases ht with
  | @unresolved more lease detail ack' hack =>
    have hl := h.leases_ne_nil (sinceGrant ack body st ++
      (more ++ [.reportedEvidence lease .outputStarted detail ack']))
    rw [← append_assoc, ← append_assoc] at hl
    rw [← append_assoc]; exact evidenceDue_reported hack hl
  | @unstored more action hs ho =>
    obtain ⟨l, older, hle, hso⟩ := h.lease
    have hn : ∀ a ∈ sinceGrant ack body st ++ (more ++ [.piped action]),
        a.isDispatch = false := by
      intro a ha
      rcases mem_append.1 ha with ha | ha
      · exact (mem_sinceGrant ha).1
      · exact Action.isDispatch_of_isQuiet (hq a ha).1
    have hg := leases_append st.log hn
    rw [hle, addAll_cons] at hg
    have hf : output (l.body ++ (sinceGrant ack body st ++ (more ++ [.piped action]))) =
        clientBytes [action] := by
      rw [output_append, output_append, output_append, hso, output_sinceGrant, hs]
      simp [output, Action.output]
    rw [← append_assoc, ← append_assoc] at hg
    rw [← append_assoc]; exact evidenceDue_piped ho hg hf

theorem afterForward_roundEnd (h : Unsettled st) (hi : c.due st.log = false) :
    RoundEnd c (c.afterForward st) := by
  cases heq : c.afterForward st with
  | error st' =>
    obtain ⟨⟨⟨more, hl, hf⟩, hc, -⟩, -⟩ := afterForward_error heq
    refine .unsettled (h.append more hl ?_ hc) ?_
    · exact fun a ha => isUsage_eq_false (.inr (.inl (hf a ha)))
    · rw [stateOf_error, hl]
      exact evidenceDue_append hi fun a ha => isCue_eq_false (.inr (.inl (hf a ha)))
  | ok st' =>
    obtain ⟨-, -, -, -, -, error, controller, rfl⟩ := afterForward_ok heq
    have hr : Unsettled { st with clockCalls := st.clockCalls + 1, failover := controller } :=
      ⟨h.unbilled, h.connected⟩
    have hfa : Unsettled (c.abortFailed (c.reportError error
        { st with clockCalls := st.clockCalls + 1, failover := controller })) :=
      (hr.emit rfl).emit rfl
    exact hfa.pause _ rfl rfl

theorem AttemptStep.roundEnd {m : Handling} (h : Ready c st) (hs : AttemptStep c st m) :
    RoundEnd c m := by
  have hn : ∀ {result}, c.upstreamBody st.dispatchResult.upstream = result →
      (∀ body, result ≠ .ok (.ok body)) → c.due st.log = false := by
    intro result hbo hno
    rw [h.due, convertible_eq, hbo]
    split
    · next body => exact absurd rfl (hno body)
    · rfl
  cases hs with
  | faulted hbo => exact .unsettled ⟨h.unsettled.unbilled, h.unsettled.connected⟩ (hn hbo (by simp))
  | unconverted hbo =>
    exact .unsettled ⟨h.unsettled.unbilled, h.unsettled.connected⟩ (hn hbo (by simp))
  | unstored hbo ht => exact .threw (by rw [h.due, convertible_eq, hbo]) ht
  | @unresolved body ack hbo hack ht =>
    refine .threw ?_ ht
    have hl := h.leases_ne_nil (forwardEvidence ack st)
    change c.due (st.log ++ ([storedEvidence .forwarded authorizedDetail st] ++ [_]))
    change leases (st.log ++ ([storedEvidence .forwarded authorizedDetail st] ++ [_])) ≠ [] at hl
    rw [← append_assoc] at hl ⊢
    exact evidenceDue_reported hack hl
  | @unauthorized body ack hbo hack =>
    have hr : Unsettled (st.extend (forwardEvidence ack st)) :=
      h.unsettled.append _ rfl (isUsage_forwardEvidence ack st) rfl
    have hab := hr.emit (a := .aborted st.lease "forward_evidence_unavailable" .noCharge 0
      (c.abortAck "forward_evidence_unavailable" .noCharge 0 (st.extend (forwardEvidence ack st))))
        rfl
    exact .unsettled ⟨hab.unbilled, hab.connected⟩ (evidenceDue_snoc rfl)
  | @threw body ack more hbo hack ht hp hthrew =>
    refine .threw ?_ ht
    change c.due ((c.calling body (authorized ack st)).log ++ more)
    rw [log_calling_authorized]; exact h.due_of_pipeThrew hp.quietly hthrew
  | @called body ack more hbo hack hp ho =>
    set returned := c.called body more (authorized ack st)
    have hlo : returned.log = st.log ++ (sinceGrant ack body st ++ more ++
        [.forwarded ((c.calling body (authorized ack st)).extend more).lease
          (c.outcome body (authorized ack st)).result]) := by
      change (c.calling body (authorized ack st)).log ++ more ++ [_] = _
      rw [log_calling_authorized, append_assoc, append_assoc, append_assoc]
    refine afterForward_roundEnd (h.unsettled.append _ hlo ?_ ?_) (evidenceDue_snoc rfl)
    · intro a ha
      rcases mem_append.1 ha with ha | ha
      · rcases mem_append.1 ha with ha | ha
        · exact (mem_sinceGrant ha).2
        · exact isUsage_eq_false (.inl (hp.quietly a ha).1)
      · rw [mem_singleton.1 ha]; rfl
    · obtain ⟨resp, heq⟩ := calling_eq (c := c) body (authorized ack st)
      change (c.calling body (authorized ack st)).activeConnections = _
      rw [heq]; rfl

theorem Unsettled.round (h : Unsettled st) : RoundEnd c (c.round st) := by
  have hd : Unsettled (c.callDispatch st) := by
    have he := h.emit (a := .dispatched st.dispatchReq (c.callDispatch st).dispatchResult) rfl
    exact ⟨he.unbilled, he.connected⟩
  have hi : (c.callDispatch st).dispatchResult.outcome ≠ .ok →
      c.due (c.callDispatch st).log = false := evidenceDue_dispatched
  have hs := round_step c st
  generalize c.round st = m at hs
  cases hs with
  | retried hr hc => exact hd.pause _ rfl rfl
  | waited hw hc => exact hd.pause _ rfl rfl
  | unavailable reads hr =>
    rw [isRetryablePlatformDispatch, Bool.and_eq_true, beq_iff_eq] at hr
    exact .returned ⟨hd.unbilled, hd.connected⟩ (hi (by simp [hr.1]))
  | exhausted reads hw => exact .returned ⟨hd.unbilled, hd.connected⟩ (hi (by simp [hw]))
  | repeated hre hco =>
    obtain ⟨resp, more, heq, ho⟩ := repeated_eq c (c.callDispatch st)
    rw [heq]
    refine .returned (hd.append more rfl ?_ rfl) ?_
    · exact fun a ha => isUsage_eq_false (.inr (.inr (ho a ha)))
    · exact evidenceDue_append (hi (by simp [hre])) fun a ha =>
        isCue_eq_false (.inr (.inr (ho a ha)))
  | refused hre hf hco => exact .returned ⟨hd.unbilled, hd.connected⟩ (hi (by simp [hre]))
  | attempted hg hat =>
    refine AttemptStep.roundEnd ?_ hat
    obtain ⟨more, heq, hq, hsi⟩ := leased_eq c st
    have hl : (c.leased st).log = (c.callDispatch st).log ++ more := by rw [heq]; rfl
    have hn : ∀ a ∈ more, a.isDispatch = false := fun a ha =>
      Action.isDispatch_of_isQuiet (hq a ha).1
    refine ⟨hd.append more hl ?_ (by rw [heq]; rfl), ?_, ?_⟩
    · exact fun a ha => isUsage_eq_false (.inl (hq a ha).1)
    · rw [due_leased hg, heq]; rfl
    · rw [hl, leases_append _ hn, leases_callDispatch hg, addAll_cons]; exact ⟨_, _, rfl, hsi⟩

theorem Unsettled.rounds (fuel : Nat) (h : Unsettled st) (hi : c.due st.log = false) :
    RoundEnd c (.error (c.rounds fuel st)) := by
  induction fuel generalizing st with
  | zero => exact .unsettled h hi
  | succ fuel ih =>
    have hr : RoundEnd c (c.round st) := h.round
    unfold Context.rounds
    cases heq : c.round st with
    | error st' => rw [heq] at hr; exact hr
    | ok st' =>
      rw [heq] at hr
      cases hr with
      | unsettled h hi => exact ih h hi

end

section

variable {w : World} {req : HttpRequest} {resp : HttpResponse} {matched : MatchedCapability}
  {c : Context} {st : Handler}

theorem not_usageFailed {log : List Action} (h : ∀ a ∈ log, a.isUsage = false) :
    ¬ UsageFailed log := by
  rintro ⟨event, ack, hm⟩
  cases h _ hm

inductive RunEnd (w : World) (req : HttpRequest) (matched : MatchedCapability)
    (st : Handler) : Prop
  | sound (hidle : evidenceDue w req matched st.log = false) (h : UsageFailed st.log →
    Survived st) :
      RunEnd w req matched st
  | threw (hfailed : EvidenceFailed w req matched st.log) (hexit : st.exit = .threw) :
      RunEnd w req matched st

theorem Unsettled.settle (h : Unsettled st) (hat : Attributed (c.settle st).log)
    (hu : UsageFailed (c.settle st).log) : Survived (c.settle st) := by
  obtain ⟨event, ack, hm⟩ := hu
  rcases settle_cases c st with ⟨st', hc, heq⟩ | ⟨-, hlo, -⟩
  · rw [heq] at hm hat ⊢
    obtain ⟨more, hlo, hs⟩ := hc.log
    have hn : .reportedUsage event ack ∈ more := by
      change .reportedUsage event ack ∈ st'.log at hm
      rw [hlo] at hm
      rcases mem_append.1 hm with hm | hm
      · cases h.unbilled _ hm
      · exact hm
    have hle : leases st'.returned.log = addAll more (leases st.log) := by
      change leases st'.log = _
      rw [hlo]
      refine leases_append _ fun a ha => ?_
      have hk := hs a ha
      cases a <;> first | rfl | cases hk
    refine ⟨rfl, ?_, ?_⟩
    · change st'.activeConnections - 1 = 0; rw [hc.activeConnections, h.connected]; rfl
    · obtain ⟨l, hl, -⟩ := hat.covered _ hm rfl
      cases hold : leases st.log with
      | nil => rw [hle, hold, addAll_nil] at hl; cases hl
      | cons newest older =>
        rw [hold, addAll_cons] at hle
        have hbo : .reportedUsage event ack ∈ newest.body ++ more := mem_append_right _ hn
        have ho := hat.own _ (by rw [hle]; exact mem_cons_self) _ hbo _ rfl
        exact ⟨_, by rw [hle]; rfl, .inr ⟨event, ack, ho, hbo⟩⟩
  · rw [hlo] at hm; cases h.unbilled _ hm

theorem Unsettled.serve (fuel : Nat) (h : Unsettled st) (hi : c.due st.log = false)
    (hat : Attributed (c.serve fuel st).log) :
    RunEnd c.world c.req c.matched (c.serve fuel st) := by
  have he : RoundEnd c (.error (c.rounds fuel st)) := h.rounds fuel hi
  unfold Context.serve at hat ⊢
  dsimp only at hat ⊢
  generalize c.rounds fuel st = left at he hat ⊢
  cases he with
  | unsettled h hi =>
    rw [stateOf_error] at h hi
    split
    · next hbr =>
      rw [if_pos hbr] at hat
      refine .sound ?_ (h.settle hat)
      obtain ⟨more, hl, hs⟩ := settle_log c left
      rw [hl]
      exact evidenceDue_append hi fun a ha => isCue_eq_false (.inl (hs a ha))
    · exact .sound hi fun hf => absurd hf (not_usageFailed h.unbilled)
  | returned h hi =>
    rw [if_neg (by simp [returned])]
    exact .sound hi fun hf => absurd hf (not_usageFailed h.unbilled)
  | threw hd ht => rw [if_neg (by simp [threw])]; exact .threw ⟨hd, ht⟩ rfl

theorem handle_runEnd (w : World) (req : HttpRequest) (resp : HttpResponse)
    (matched : MatchedCapability) (fuel : Nat) :
    RunEnd w req matched (handle w req resp matched fuel) := by
  have hat := (handle_accounted w req resp matched fuel).sound.attributed
  have hp := prepare_prepared w req resp matched
  unfold handle at hat ⊢
  cases hpr : prepare w req resp matched with
  | error st =>
    rw [hpr] at hp
    have hi : evidenceDue w req matched ([] ++ st.log) = false :=
      evidenceDue_append evidenceDue_nil fun a ha => isCue_eq_false (.inr (.inr (hp.opening a ha)))
    refine .sound hi fun hf => absurd hf (not_usageFailed fun a ha => ?_)
    exact isUsage_eq_false (.inr (.inr (hp.opening a ha)))
  | ok entered =>
    obtain ⟨c, st⟩ := entered
    rw [hpr] at hp hat
    have hu : Unsettled st := by
      refine ⟨fun a ha => isUsage_eq_false (.inr (.inr (hp.opening a ha))), ?_⟩
      rw [hp.state]
    have hi : c.due ([] ++ st.log) = false :=
      evidenceDue_append evidenceDue_nil fun a ha => isCue_eq_false (.inr (.inr (hp.opening a ha)))
    have he := hu.serve fuel hi hat
    rw [hp.sameWorld, hp.sameRequest, hp.sameCapability] at he; exact he

theorem store_failure_survived_iff (w : World) (req : HttpRequest) (resp : HttpResponse)
    (matched : MatchedCapability) (fuel : Nat) :
    (EvidenceFailed w req matched (handle w req resp matched fuel).log ∨
        UsageFailed (handle w req resp matched fuel).log →
      Survived (handle w req resp matched fuel)) ↔
    ¬ EvidenceFailed w req matched (handle w req resp matched fuel).log := by
  have hend := handle_runEnd w req resp matched fuel
  generalize handle w req resp matched fuel = st at hend
  cases hend with
  | sound hidle h =>
    have hnot : ¬ EvidenceFailed w req matched st.log := by
      intro hfailed
      rw [EvidenceFailed, hidle] at hfailed
      cases hfailed.1
    refine ⟨fun _ => hnot, fun _ hfailed => ?_⟩
    rcases hfailed with hfailed | hfailed
    · exact absurd hfailed hnot
    · exact h hfailed
  | threw hfailed hexit =>
    constructor
    · intro hsurvived
      have hreturned := (hsurvived (.inl hfailed)).returned
      rw [hexit] at hreturned; cases hreturned
    · intro hnot; exact absurd hfailed hnot

end

def listModels : MatchedCapability := { spec := kModels, operation := "models" }

def listModelsRequest : HttpRequest where
  method := "GET"
  path := "/v1/models"
  xApiKey := "key"
  requestId := "request-1"

def fullOutbox : World :=
  { refusingProvider (.ofTable [] []) { platform := "openai", baseUrl := "provider" } with
    outboxThrows := fun _ => true }

theorem full_outbox_escapes : EvidenceFailed fullOutbox listModelsRequest listModels
      (handle fullOutbox listModelsRequest {} listModels 1).log ∧
    (handle fullOutbox listModelsRequest {} listModels 1).exit = .threw ∧
    (handle fullOutbox listModelsRequest {} listModels 1).activeConnections = 1 ∧
    (leases (handle fullOutbox listModelsRequest {} listModels 1).log).map (·.body) = [[]] ∧
    ¬ Survived (handle fullOutbox listModelsRequest {} listModels 1) := by
  have hexit : (handle fullOutbox listModelsRequest {} listModels 1).exit = .threw := by decide
  refine ⟨⟨by decide, rfl⟩, hexit, by decide, by decide, fun hsurvived => ?_⟩
  have hreturned := hsurvived.returned
  rw [hexit] at hreturned
  cases hreturned

end Gateway.Server
